import RatingArchive.Proofs.Walking
/-!
# Lists from both ends

Steps from the front and from the back of a list can be made in any order. A step depends on the
steps before it by their number from either end alone (`Cursor.getElem?_walk`). The ends approach
each other and do not cross: what was taken from the front, what lies between the ends, and what was
taken from the back, the last first, make up the list (`Cursor.Inside.exists_between`).
-/

namespace RatingArchive

/-- If all elements of a list are kept, they keep their places. -/
theorem getElem?_filterMap_of_isSome {α β : Type} {f : α → Option β} {xs : List α}
    (kept : ∀ x ∈ xs, (f x).isSome = true) (i : Nat) :
    (xs.filterMap f)[i]? = xs[i]?.bind f := by
  induction xs generalizing i with
  | nil => rfl
  | cons x xs ih =>
    obtain ⟨first, kept⟩ := List.forall_mem_cons.1 kept
    obtain ⟨y, image⟩ := Option.isSome_iff_exists.1 first
    rw [List.filterMap_cons_some image]
    cases i with
    | zero => exact image.symm
    | succ i => exact ih kept i

theorem Slots.get?_eq_none_of_le {slots : Slots} {i : Nat} (past : slots.length ≤ i) :
    slots.get? i = none := by
  cases slots with
  | range start stop => exact if_neg (Nat.not_lt.2 past)
  | run slots => exact List.getElem?_eq_none past

namespace RatingList

/-- A list has a rating at each of its places. -/
def Filled (list : RatingList) : Prop := ∀ i < list.length, (list.get? i).isSome = true

theorem get?_eq_none_of_le {list : RatingList} {i : Nat} (past : list.length ≤ i) :
    list.get? i = none := by
  rw [get?, slot?, Slots.get?_eq_none_of_le past]
  rfl

namespace Filled

variable {list other : RatingList}

/-- The ratings of a list are those at its places. -/
theorem getElem?_toList (h : list.Filled) (i : Nat) : list.toList[i]? = list.get? i := by
  rw [toList, getElem?_filterMap_of_isSome fun i mem => h i (List.mem_range.1 mem)]
  by_cases inside : i < list.length
  · rw [List.getElem?_range inside, Option.bind_some]
  · rw [get?_eq_none_of_le (Nat.le_of_not_lt inside), List.getElem?_eq_none, Option.bind_none]
    rw [List.length_range]
    exact Nat.le_of_not_lt inside

theorem get?_eq_none_iff (h : list.Filled) (i : Nat) : list.get? i = none ↔ list.length ≤ i := by
  constructor
  · intro none
    apply Nat.le_of_not_lt
    intro inside
    have some := h i inside
    rw [none] at some
    cases some
  · exact get?_eq_none_of_le

theorem length_toList (h : list.Filled) : list.toList.length = list.length := by
  have bounds (i : Nat) : list.toList.length ≤ i ↔ list.length ≤ i := by
    rw [← List.getElem?_eq_none_iff, h.getElem?_toList, h.get?_eq_none_iff]
  exact Nat.le_antisymm ((bounds _).2 (Nat.le_refl _)) ((bounds _).1 (Nat.le_refl _))

theorem first?_eq (h : list.Filled) : list.first? = list.toList.head? := by
  rw [first?, ← h.getElem?_toList, List.head?_eq_getElem?]

theorem last?_eq (h : list.Filled) : list.last? = list.toList.getLast? := by
  rw [last?, List.getLast?_eq_getElem?, h.length_toList, h.getElem?_toList]
  split
  · next empty => rw [get?_eq_none_of_le (by omega)]
  · rfl

/-- Lists are the same if and only if their ratings are. -/
theorem same_iff (h : list.Filled) (h' : other.Filled) :
    list.same other = true ↔ list.toList = other.toList := by
  rw [same, Bool.and_eq_true, beq_iff_eq, beq_iff_eq, ← h.length_toList, ← h'.length_toList]
  exact ⟨fun same => same.2, fun same => ⟨congrArg List.length same, same⟩⟩

/-- **Walking through a list** from its front yields its ratings. -/
theorem walks_start (h : list.Filled) :
    Walks Place.next Place.remaining list.start list.toList := by
  apply walks_of_step fun place ratings =>
    place.list = list ∧ list.toList.drop place.passed = ratings
  · rintro place _ ⟨rfl, rfl⟩
    rw [Place.remaining, List.length_drop, h.length_toList]
  · rintro place _ ⟨rfl, rfl⟩
    rw [List.head?_drop, List.tail_drop, h.getElem?_toList, Place.next]
    split
    · exact ⟨rfl, rfl, rfl⟩
    · next past =>
      have past := Nat.le_of_not_lt past
      rw [← h.length_toList] at past
      refine ⟨(get?_eq_none_of_le (h.length_toList ▸ past)).symm, rfl, ?_⟩
      rw [List.drop_eq_nil_of_le past, List.drop_eq_nil_of_le (Nat.le_succ_of_le past)]
  · exact ⟨rfl, rfl⟩

end Filled

/-! ## Steps from both ends -/

namespace Cursor

variable {cursor : Cursor}

/-- One step from the front or from the back. -/
def step (fromFront : Bool) (cursor : Cursor) : Option Rating × Cursor :=
  if fromFront then cursor.next else cursor.nextBack

theorem walk_cons (fromFront : Bool) (moves : List Bool) (cursor : Cursor) :
    cursor.walk (fromFront :: moves) = ((cursor.step fromFront).1,
      (cursor.step fromFront).2.remaining) :: (cursor.step fromFront).2.walk moves := rfl

/-- Steps read the places at the ends, unless these have met. -/
theorem step_of_lt (apart : cursor.front < cursor.back) (fromFront : Bool) :
    cursor.step fromFront =
      if fromFront then
        (cursor.list.get? cursor.front, { cursor with front := cursor.front + 1 })
      else (cursor.list.get? (cursor.back - 1), { cursor with back := cursor.back - 1 }) := by
  cases fromFront <;> simp only [step, next, nextBack, if_pos apart]

theorem step_of_le (met : cursor.back ≤ cursor.front) (fromFront : Bool) :
    cursor.step fromFront = (none, cursor) := by
  cases fromFront <;> simp [step, next, nextBack, Nat.not_lt.2 met]

/-- The place that a step reads if the ends have not met in the steps before it. -/
def place (cursor : Cursor) (earlier : List Bool) (fromFront : Bool) : Nat :=
  if fromFront then cursor.front + earlier.count true else cursor.back - 1 - earlier.count false

/-- **One step** yields the rating at one end, unless the ends have met. Later steps go on from
there. -/
theorem step_eq (cursor : Cursor) (fromFront : Bool) :
    (cursor.step fromFront).1 =
      (if 0 < cursor.remaining then cursor.list.get? (cursor.place [] fromFront) else none) ∧
    (cursor.step fromFront).2.list = cursor.list ∧
    (cursor.step fromFront).2.remaining = cursor.remaining - 1 ∧
    (0 < cursor.remaining → ∀ earlier later,
      (cursor.step fromFront).2.place earlier later =
        cursor.place (fromFront :: earlier) later) := by
  rcases Nat.lt_or_ge cursor.front cursor.back with apart | met
  · have some : 0 < cursor.remaining := Nat.sub_pos_of_lt apart
    rw [step_of_lt apart, if_pos some]
    cases fromFront with
    | true =>
      refine ⟨rfl, rfl, (Nat.sub_sub ..).symm, ?_⟩
      intro _ earlier later
      cases later <;> simp [place]
      omega
    | false =>
      refine ⟨rfl, rfl, Nat.sub_right_comm .., ?_⟩
      intro _ earlier later
      cases later <;> simp [place]
      omega
  · have none : cursor.remaining = 0 := Nat.sub_eq_zero_of_le met
    rw [step_of_le met, none]
    exact ⟨rfl, rfl, rfl, fun some => absurd some (Nat.lt_irrefl 0)⟩

/-- **A walk** yields a rating at every step until the ends have met. Which one depends on the
number of steps that were made from either end. -/
theorem getElem?_walk (cursor : Cursor) (moves : List Bool) (i : Nat) :
    (cursor.walk moves)[i]? = moves[i]?.map fun fromFront =>
      (if i < cursor.remaining then cursor.list.get? (cursor.place (moves.take i) fromFront)
        else none, cursor.remaining - (i + 1)) := by
  induction moves generalizing cursor i with
  | nil => rfl
  | cons fromFront moves ih =>
    obtain ⟨yields, list, less, goesOn⟩ := cursor.step_eq fromFront
    rw [walk_cons, yields, less]
    cases i with
    | zero => rfl
    | succ i =>
      rw [List.getElem?_cons_succ, List.getElem?_cons_succ, List.take_succ_cons, ih, list, less]
      congr 1
      funext later
      have count : cursor.remaining - 1 - (i + 1) = cursor.remaining - (i + 1 + 1) := by omega
      rw [count]
      -- a first step that finds nothing stays where it is, and so do all later ones
      by_cases inside : i + 1 < cursor.remaining
      · rw [if_pos inside, if_pos (by omega), goesOn (by omega)]
      · rw [if_neg inside, if_neg (by omega)]

/-! ## What lies between the ends -/

/-- The ratings between the ends. -/
def between (cursor : Cursor) : List Rating :=
  (cursor.list.toList.take cursor.back).drop cursor.front

/-- The places between the ends lie in the list, and have ratings. -/
structure Inside (cursor : Cursor) : Prop where
  back_le : cursor.back ≤ cursor.list.length
  get? : ∀ i < cursor.list.length, (cursor.list.get? i).isSome = true

namespace Inside

theorem length_between (h : cursor.Inside) : cursor.between.length = cursor.remaining := by
  have filled : cursor.list.Filled := h.get?
  rw [between, List.length_drop, List.length_take, filled.length_toList,
    Nat.min_eq_left h.back_le, remaining]

theorem step (h : cursor.Inside) (fromFront : Bool) : (cursor.step fromFront).2.Inside := by
  rcases Nat.lt_or_ge cursor.front cursor.back with apart | met
  · rw [step_of_lt apart]
    cases fromFront with
    | true => exact ⟨h.back_le, h.get?⟩
    | false => exact ⟨Nat.le_trans (Nat.sub_le ..) h.back_le, h.get?⟩
  · rwa [step_of_le met]

/-- **A step takes a rating off its end** of what lies between them. -/
theorem between_step (h : cursor.Inside) (fromFront : Bool) :
    cursor.between =
      if fromFront then (cursor.step fromFront).1.toList ++ (cursor.step fromFront).2.between
      else (cursor.step fromFront).2.between ++ (cursor.step fromFront).1.toList := by
  have filled : cursor.list.Filled := h.get?
  have length := filled.length_toList
  have back_le := h.back_le
  rcases Nat.lt_or_ge cursor.front cursor.back with apart | met
  · rw [step_of_lt apart]
    cases fromFront with
    | true =>
      have inside : cursor.front < (cursor.list.toList.take cursor.back).length := by
        rw [List.length_take]
        omega
      simp only [if_true]
      rw [between, List.drop_eq_getElem_cons inside, List.getElem_take, ← filled.getElem?_toList,
        List.getElem?_eq_getElem (by omega)]
      rfl
    | false =>
      have inside : cursor.back - 1 < cursor.list.toList.length := by omega
      have last : cursor.list.toList.take cursor.back =
          cursor.list.toList.take (cursor.back - 1) ++ [cursor.list.toList[cursor.back - 1]] := by
        rw [List.take_append_getElem inside, Nat.sub_add_cancel (by omega)]
      have front : cursor.front ≤ (cursor.list.toList.take (cursor.back - 1)).length := by
        rw [List.length_take]
        omega
      simp only [Bool.false_eq_true, if_false]
      rw [between, last, List.drop_append_of_le_length front, ← filled.getElem?_toList,
        List.getElem?_eq_getElem inside]
      rfl
  · simp [step_of_le met]

end Inside

/-- The ratings that a walk takes from one end, in the order in which it does. -/
def taken (fromFront : Bool) (moves : List Bool) (steps : List (Option Rating × Nat)) :
    List Rating :=
  (moves.zip steps).filterMap fun (move, rating, _) => if move = fromFront then rating else none

theorem taken_cons (fromFront move : Bool) (moves : List Bool) (rating : Option Rating) (left : Nat)
    (steps : List (Option Rating × Nat)) :
    taken fromFront (move :: moves) ((rating, left) :: steps) =
      if move = fromFront then rating.toList ++ taken fromFront moves steps
      else taken fromFront moves steps := by
  unfold taken
  by_cases same : move = fromFront
  · cases rating <;> simp [same]
  · simp [same]

/-- **Nothing is lost, and nothing is taken twice**: what a walk takes from the front, what is left,
and what it takes from the back, the last first, is what was between the ends. -/
theorem Inside.exists_between (h : cursor.Inside) (moves : List Bool) :
    ∃ left, left.length = cursor.remaining - moves.length ∧
      cursor.between = taken true moves (cursor.walk moves) ++
        (left ++ (taken false moves (cursor.walk moves)).reverse) := by
  induction moves generalizing cursor with
  | nil => exact ⟨cursor.between, h.length_between, by simp [taken]⟩
  | cons fromFront moves ih =>
    obtain ⟨left, length, split⟩ := ih (h.step fromFront)
    obtain ⟨-, -, less, -⟩ := cursor.step_eq fromFront
    rw [less] at length
    refine ⟨left, by rw [length, List.length_cons]; omega, ?_⟩
    -- what the first step takes lies outside of all that the others take from its end
    rw [walk_cons, taken_cons, taken_cons, h.between_step fromFront, split]
    cases fromFront with
    | true => simp
    | false => cases (cursor.step false).1 <;> simp

end Cursor

end RatingList

end RatingArchive
