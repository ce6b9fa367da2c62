/-!
# Binary search over slots

The elements searched are never listed: a test tells how the target compares with the element of a
slot. `search` halves a range of slots, and goes on to the left after a hit, so that of several
equal elements the first is found.

The slots probed are those of the halving, whatever the test answers. On elements that are not in
order the answer therefore depends on the probed slots alone.
-/

namespace RatingArchive

/-- Where a target is, or where it would have to be. -/
inductive SearchResult where
  /-- The first slot whose element equals the target. -/
  | found (slot : Nat)
  /-- The first slot whose element is larger than the target. -/
  | missing (slot : Nat)
  deriving DecidableEq, Repr

/-- The slot of a result, hit or not. -/
def SearchResult.slot : SearchResult → Nat
  | found slot => slot
  | missing slot => slot

/-- Whether the target was hit. -/
def SearchResult.isFound : SearchResult → Bool
  | found _ => true
  | missing _ => false

/-- The slot in the middle of `lo` and `hi`, without a sum that could exceed `hi`. -/
def middle (lo hi : Nat) : Nat := lo + (hi - lo) / 2

theorem middle_lt {lo hi : Nat} (h : lo < hi) : middle lo hi < hi := by
  unfold middle; omega

theorem le_middle (lo hi : Nat) : lo ≤ middle lo hi := by
  unfold middle; omega

/-- Searches the slots from `lo` up to `hi`; `hit` tells whether the target was met so far. -/
def searchRange {n : Nat} (test : Fin n → Ordering) (lo hi : Nat) (hit : Bool) (bound : hi ≤ n) :
    SearchResult :=
  if nonempty : lo < hi then
    match test ⟨middle lo hi, Nat.lt_of_lt_of_le (middle_lt nonempty) bound⟩ with
    | .gt => searchRange test (middle lo hi + 1) hi hit bound
    | .eq => searchRange test lo (middle lo hi) true
        (Nat.le_trans (Nat.le_of_lt (middle_lt nonempty)) bound)
    | .lt => searchRange test lo (middle lo hi) hit
        (Nat.le_trans (Nat.le_of_lt (middle_lt nonempty)) bound)
  else if hit then .found lo
  else .missing lo
termination_by hi - lo
decreasing_by
  all_goals
    have := middle_lt nonempty
    have := le_middle lo hi
    omega

/-- Searches `n` slots. `test` answers how the target compares with the element of a slot. -/
def search (n : Nat) (test : Fin n → Ordering) : SearchResult :=
  searchRange test 0 n false (Nat.le_refl n)

/-- The first slot whose element is not less than the target, or `n`. -/
def lowerBound (n : Nat) (test : Fin n → Ordering) : Nat := (search n test).slot

theorem searchRange_slot_le {n : Nat} (test : Fin n → Ordering) {lo hi : Nat} (hit : Bool)
    (bound : hi ≤ n) (h : lo ≤ hi) : (searchRange test lo hi hit bound).slot ≤ hi := by
  fun_induction searchRange test lo hi hit bound with
  | case1 lo hi hit bound nonempty probe ih => exact ih (middle_lt nonempty)
  | case2 lo hi hit bound nonempty probe ih =>
    exact Nat.le_trans (ih (le_middle lo hi)) (Nat.le_of_lt (middle_lt nonempty))
  | case3 lo hi hit bound nonempty probe ih =>
    exact Nat.le_trans (ih (le_middle lo hi)) (Nat.le_of_lt (middle_lt nonempty))
  | case4 => exact h
  | case5 => exact h

/-- The answer is a slot, or the number of slots. -/
theorem lowerBound_le (n : Nat) (test : Fin n → Ordering) : lowerBound n test ≤ n :=
  searchRange_slot_le test false (Nat.le_refl n) (Nat.zero_le n)

end RatingArchive
