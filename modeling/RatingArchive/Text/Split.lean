/-!
# Splitting text at a delimiter

`splitOn` cuts a text at every occurrence of a delimiter, found from left to right and without
overlap. An empty delimiter occurs around every character, so it yields the characters one by one
between two empty pieces.

* `pieces_append`: a field that shares no character with the delimiter is cut off at the delimiter
  behind it.
* `pieces_of_disjoint`: such a field is one piece if no delimiter follows.
-/

namespace RatingArchive.Text

/-- Puts a character in front of the first piece. -/
def consFirst (c : Char) : List (List Char) → List (List Char)
  | [] => [[c]]
  | piece :: pieces => (c :: piece) :: pieces

/-- The pieces of a text around a nonempty delimiter. The first `skip` characters belong to an
occurrence that was met before. -/
def pieces (delimiter : List Char) : (skip : Nat) → List Char → List (List Char)
  | _, [] => [[]]
  | skip + 1, _ :: rest => pieces delimiter skip rest
  | 0, c :: rest =>
    if delimiter.isPrefixOf (c :: rest) then
      [] :: pieces delimiter (delimiter.length - 1) rest
    else
      consFirst c (pieces delimiter 0 rest)

/-- The pieces of `text` between the occurrences of `delimiter`. -/
def splitOn (delimiter text : List Char) : List (List Char) :=
  if delimiter.isEmpty then
    [[]] ++ text.map ([·]) ++ [[]]
  else
    pieces delimiter 0 text

theorem pieces_ne_nil (delimiter : List Char) (skip : Nat) (text : List Char) :
    pieces delimiter skip text ≠ [] := by
  induction text generalizing skip with
  | nil => simp [pieces]
  | cons c rest ih =>
    match skip with
    | skip + 1 => simpa [pieces] using ih skip
    | 0 =>
      rw [pieces]
      split
      · simp
      · cases h : pieces delimiter 0 rest <;> simp [consFirst]

theorem pieces_length_append (delimiter front rest : List Char) :
    pieces delimiter front.length (front ++ rest) = pieces delimiter 0 rest := by
  induction front with
  | nil => rfl
  | cons c front ih => simpa [pieces] using ih

/-- A delimiter does not start in front of a character that it does not have. -/
theorem isPrefixOf_eq_false {delimiter : List Char} {c : Char} (rest : List Char)
    (nonempty : delimiter ≠ []) (absent : c ∉ delimiter) :
    delimiter.isPrefixOf (c :: rest) = false := by
  cases delimiter with
  | nil => exact absurd rfl nonempty
  | cons d delimiter =>
    have : d ≠ c := fun e => absent (by simp [e])
    simp [List.isPrefixOf, this]

/-- A text in which no character of the delimiter occurs is one piece. -/
theorem pieces_of_disjoint {delimiter text : List Char} (nonempty : delimiter ≠ [])
    (disjoint : ∀ c ∈ text, c ∉ delimiter) : pieces delimiter 0 text = [text] := by
  induction text with
  | nil => rfl
  | cons c rest ih =>
    rw [pieces, isPrefixOf_eq_false rest nonempty (disjoint c (by simp)),
      ih fun x hx => disjoint x (by simp [hx])]
    rfl

/-- A field in which no character of the delimiter occurs ends at the delimiter behind it. -/
theorem pieces_append {delimiter field : List Char} (rest : List Char) (nonempty : delimiter ≠ [])
    (disjoint : ∀ c ∈ field, c ∉ delimiter) :
    pieces delimiter 0 (field ++ delimiter ++ rest) = field :: pieces delimiter 0 rest := by
  induction field with
  | nil =>
    obtain ⟨d, tail, rfl⟩ := List.exists_cons_of_ne_nil nonempty
    have here : (d :: tail).isPrefixOf (d :: (tail ++ rest)) = true := by
      rw [List.isPrefixOf_iff_prefix]
      exact ⟨rest, rfl⟩
    rw [List.nil_append, List.cons_append, pieces, here]
    simpa using pieces_length_append (d :: tail) tail rest
  | cons c field ih =>
    rw [List.cons_append, List.cons_append, pieces,
      isPrefixOf_eq_false _ nonempty (disjoint c (by simp)),
      ih fun x hx => disjoint x (by simp [hx])]
    rfl

end RatingArchive.Text
