import RatingArchive.Search
/-!
# What halving finds

The answer of a search lies on a boundary of its test: the slot before it tests as greater, the slot
at it does not (`searchRange_boundary`). This holds whatever the test answers elsewhere. If the
slots that test as greater come first, they are those before the answer (`gt_iff_lt_lowerBound`), so
that cutting a list at the answer is the same as filtering it (`take_lowerBound`). If moreover those
that test as less come last, a search hits a slot that tests as equal if there is one
(`search_eq_found`, `exists_search_eq_found`).
-/

namespace RatingArchive

/-- **The answer of a search lies on a boundary of its test.** -/
theorem searchRange_boundary {n : Nat} (test : Fin n → Ordering) {lo hi : Nat} (hit : Bool)
    (bound : hi ≤ n) (h : lo ≤ hi) :
    lo ≤ (searchRange test lo hi hit bound).slot ∧
      (∀ i : Fin n, i.val + 1 = (searchRange test lo hi hit bound).slot → lo ≤ i.val →
        test i = .gt) ∧
      ∀ i : Fin n, i.val = (searchRange test lo hi hit bound).slot → i.val < hi →
        test i ≠ .gt := by
  fun_induction searchRange test lo hi hit bound with
  | case1 lo hi hit bound nonempty probe ih =>
    obtain ⟨lower, before, here⟩ := ih (middle_lt nonempty)
    have := le_middle lo hi
    refine ⟨by omega, ?_, here⟩
    intro i last _
    by_cases middle_le : middle lo hi + 1 ≤ i.val
    · exact before i last middle_le
    · have : i = ⟨middle lo hi, Nat.lt_of_lt_of_le (middle_lt nonempty) bound⟩ := by
        apply Fin.ext
        simp only
        omega
      rw [this, probe]
  | case2 lo hi hit bound nonempty probe ih | case3 lo hi hit bound nonempty probe ih =>
    obtain ⟨lower, before, here⟩ := ih (le_middle lo hi)
    refine ⟨lower, before, ?_⟩
    intro i first _
    by_cases lt_middle : i.val < middle lo hi
    · exact here i first lt_middle
    · have : i.val ≤ middle lo hi := by
        rw [first]
        exact searchRange_slot_le test _ _ (le_middle lo hi)
      have : i = ⟨middle lo hi, Nat.lt_of_lt_of_le (middle_lt nonempty) bound⟩ := by
        apply Fin.ext
        simp only
        omega
      rw [this, probe]
      decide
  | case4 lo hi bound nonempty | case5 lo hi hit bound nonempty _ =>
    refine ⟨Nat.le_refl _, ?_, ?_⟩
    · intro i last _
      simp only [SearchResult.slot] at last
      omega
    · intro i first _
      simp only [SearchResult.slot] at first
      omega

/-- If the slots that test as greater come first, they are those before the answer. -/
theorem gt_iff_lt_lowerBound {n : Nat} {test : Fin n → Ordering}
    (mono : ∀ i j : Fin n, i ≤ j → test j = .gt → test i = .gt) (i : Fin n) :
    test i = .gt ↔ i.val < lowerBound n test := by
  obtain ⟨-, before, here⟩ :=
    searchRange_boundary test false (Nat.le_refl n) (Nat.zero_le n)
  have le := lowerBound_le n test
  unfold lowerBound search at le ⊢
  generalize (searchRange test 0 n false (Nat.le_refl n)).slot = answer at before here le ⊢
  constructor
  · intro greater
    apply Nat.lt_of_not_le
    intro answer_le
    have : answer < n := Nat.lt_of_le_of_lt answer_le i.isLt
    exact here ⟨answer, this⟩ rfl this (mono _ i answer_le greater)
  · intro lt
    have last := before ⟨answer - 1, by omega⟩ (by simp only; omega) (Nat.zero_le _)
    exact mono i _ (Fin.le_def.2 (by simp only; omega)) last

/-! ## Hits -/

/-- Slots that test as greater come first, and those that test as less come last. -/
structure Descends {n : Nat} (test : Fin n → Ordering) : Prop where
  gt : ∀ i j : Fin n, i ≤ j → test j = .gt → test i = .gt
  lt : ∀ i j : Fin n, i ≤ j → test i = .lt → test j = .lt

/-- A hit stays one: what is probed to the left of it cannot be less. -/
theorem searchRange_found {n : Nat} {test : Fin n → Ordering} (mono : Descends test) {lo hi : Nat}
    {hit : Bool} {bound : hi ≤ n} (h : lo ≤ hi)
    (met : hit = true → ∃ inside : hi < n, test ⟨hi, inside⟩ = .eq) {i : Nat}
    (found : searchRange test lo hi hit bound = .found i) :
    ∃ inside : i < n, test ⟨i, inside⟩ = .eq := by
  fun_induction searchRange test lo hi hit bound with
  | case1 lo hi hit bound nonempty probe ih => exact ih (middle_lt nonempty) met found
  | case2 lo hi hit bound nonempty probe ih =>
    exact ih (le_middle lo hi) (fun _ => ⟨_, probe⟩) found
  | case3 lo hi hit bound nonempty probe ih =>
    refine ih (le_middle lo hi) ?_ found
    intro isHit
    obtain ⟨inside, equal⟩ := met isHit
    have less := mono.lt _ ⟨hi, inside⟩ (Fin.le_def.2 (Nat.le_of_lt (middle_lt nonempty))) probe
    rw [equal] at less
    cases less
  | case4 lo hi bound empty =>
    cases found
    rw [Nat.le_antisymm h (Nat.le_of_not_lt empty)]
    exact met rfl
  | case5 lo hi hit bound empty noHit => cases found

/-- Without a hit, the slots before the answer are greater, and those from it on are less. -/
theorem searchRange_missing {n : Nat} {test : Fin n → Ordering} (mono : Descends test)
    {lo hi : Nat} {hit : Bool} {bound : hi ≤ n} (front : ∀ j : Fin n, j.val < lo → test j = .gt)
    (back : hit = false → ∀ j : Fin n, hi ≤ j.val → test j = .lt) {i : Nat}
    (missing : searchRange test lo hi hit bound = .missing i) (j : Fin n) : test j ≠ .eq := by
  fun_induction searchRange test lo hi hit bound with
  | case1 lo hi hit bound nonempty probe ih =>
    refine ih ?_ back missing
    intro j before
    exact mono.gt j _ (Fin.le_def.2 (Nat.le_of_lt_succ before)) probe
  | case2 lo hi hit bound nonempty probe ih =>
    refine ih front ?_ missing
    intro noHit
    cases noHit
  | case3 lo hi hit bound nonempty probe ih =>
    refine ih front ?_ missing
    intro _ j behind
    exact mono.lt _ j (Fin.le_def.2 behind) probe
  | case4 lo hi bound empty => cases missing
  | case5 lo hi hit bound empty noHit =>
    rcases Nat.lt_or_ge j.val lo with before | behind
    · rw [front j before]
      decide
    · rw [back (eq_false_of_ne_true noHit) j (Nat.le_trans (Nat.le_of_not_lt empty) behind)]
      decide

/-- **A slot that is hit** tests as equal. -/
theorem search_eq_found {n : Nat} {test : Fin n → Ordering} (mono : Descends test) {i : Nat}
    (found : search n test = .found i) : ∃ inside : i < n, test ⟨i, inside⟩ = .eq := by
  unfold search at found
  exact searchRange_found mono (Nat.zero_le n) (fun isHit => by cases isHit) found

/-- **If a slot tests as equal**, one is hit. -/
theorem exists_search_eq_found {n : Nat} {test : Fin n → Ordering} (mono : Descends test)
    {j : Fin n} (equal : test j = .eq) : ∃ i, search n test = .found i := by
  cases result : search n test with
  | found i => exact ⟨i, rfl⟩
  | missing i =>
    refine absurd equal (searchRange_missing mono ?_ ?_ result j)
    · intro j before
      exact absurd before (Nat.not_lt_zero _)
    · intro _ j behind
      exact absurd j.isLt (Nat.not_lt.2 behind)

/-! ## Cutting a list -/

/-- A list is filtered by cutting it at the first element that fails the test. -/
theorem take_eq_filter {α : Type} {xs : List α} {p : α → Bool} {k : Nat}
    (kept : ∀ i (h : i < xs.length), p xs[i] = true ↔ i < k) : xs.take k = xs.filter p := by
  have front : (xs.take k).filter p = xs.take k := by
    rw [List.filter_eq_self]
    intro x hx
    obtain ⟨i, hi, rfl⟩ := List.getElem_of_mem hx
    rw [List.length_take] at hi
    rw [List.getElem_take]
    exact (kept i (by omega)).2 (by omega)
  have back : (xs.drop k).filter p = [] := by
    rw [List.filter_eq_nil_iff]
    intro x hx
    obtain ⟨i, hi, rfl⟩ := List.getElem_of_mem hx
    rw [List.length_drop] at hi
    rw [List.getElem_drop, kept (k + i) (by omega)]
    omega
  calc xs.take k = (xs.take k).filter p ++ (xs.drop k).filter p := by simp [front, back]
    _ = xs.filter p := by rw [← List.filter_append, List.take_append_drop]

/-- **Cutting a list at the boundary is filtering it**, if whatever stands before an element that
is kept is kept as well. -/
theorem take_lowerBound {α : Type} {xs : List α} {p : α → Bool} {test : Fin xs.length → Ordering}
    (tests : ∀ i : Fin xs.length, test i = .gt ↔ p xs[i] = true)
    (sorted : xs.Pairwise fun a b => p b = true → p a = true) :
    xs.take (lowerBound xs.length test) = xs.filter p := by
  apply take_eq_filter
  intro i h
  refine (tests ⟨i, h⟩).symm.trans (gt_iff_lt_lowerBound ?_ ⟨i, h⟩)
  intro i j le greater
  rw [tests] at greater ⊢
  rcases Nat.lt_or_eq_of_le (Fin.le_def.1 le) with lt | eq
  · exact List.pairwise_iff_getElem.1 sorted i.val j.val i.isLt j.isLt lt greater
  · rwa [show i = j from Fin.ext eq]

end RatingArchive
