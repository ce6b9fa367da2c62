/-!
# Sets of identifiers

A set of identifiers is the strictly ascending list of its members.
-/

namespace RatingArchive.KeySet

/-- Adds a member to a set. -/
def insert (key : UInt64) : List UInt64 → List UInt64
  | [] => [key]
  | first :: rest =>
    if key < first then key :: first :: rest
    else if key = first then first :: rest
    else first :: insert key rest

/-- The set of the identifiers in a list. -/
def ofList (keys : List UInt64) : List UInt64 := keys.foldr insert []

theorem mem_insert {k key : UInt64} {set : List UInt64} :
    k ∈ insert key set ↔ k = key ∨ k ∈ set := by
  induction set with
  | nil => simp [insert]
  | cons first rest ih => unfold insert; grind

/-- The members of the set of a list are those of the list. -/
theorem mem_ofList {k : UInt64} {keys : List UInt64} : k ∈ ofList keys ↔ k ∈ keys := by
  induction keys with
  | nil => simp [ofList]
  | cons key keys ih => simpa [ofList, mem_insert] using or_congr_right ih

theorem pairwise_insert {key : UInt64} {set : List UInt64} (h : set.Pairwise (· < ·)) :
    (insert key set).Pairwise (· < ·) := by
  induction set with
  | nil => simp [insert]
  | cons first rest ih =>
    obtain ⟨lower, h⟩ := List.pairwise_cons.1 h
    unfold insert
    split
    · next less =>
      refine List.pairwise_cons.2 ⟨fun k hk => ?_, List.pairwise_cons.2 ⟨lower, h⟩⟩
      rcases List.mem_cons.1 hk with rfl | hk
      · exact less
      · exact UInt64.lt_trans less (lower k hk)
    · next notLess =>
      split
      · exact List.pairwise_cons.2 ⟨lower, h⟩
      · next differs =>
        refine List.pairwise_cons.2 ⟨fun k hk => ?_, ih h⟩
        rcases mem_insert.1 hk with rfl | hk
        · grind
        · exact lower k hk

/-- The set of a list is ascending, without repetition. -/
theorem pairwise_ofList (keys : List UInt64) : (ofList keys).Pairwise (· < ·) := by
  induction keys with
  | nil => simp [ofList]
  | cons key keys ih => exact pairwise_insert ih

end RatingArchive.KeySet
