import Mathlib.Data.Fintype.Fin
import RatingArchive.Proofs.Search
/-!
# Searching in machine words

A search keeps its two bounds in words of 64 bits (`Bounds`), probes the slot in their middle, and
narrows them by what it is told there. `Searches` relates the bounds with which it sets out to those
at each of its probes and to what it answers; a probe has to be one of the slots there are.

The words do not wrap: a search always ends, after 64 probes at most, with the answer of `search`
(`exists_searches`, `Searches.length_le`, `Searches.answer_eq`), and at every probe the middle of
its bounds is computed exactly (`Searches.exact`). Whatever is told at the probes, the answer lies
on a boundary of the test (`boundary_lowerBound`). If the slots that test as greater come first and
those that test as less come last, it is the number of the former (`lowerBound_eq_card`), and the
first slot that tests as equal if there is one (`search_eq_found_of_eq`).
-/

namespace RatingArchive

/-! ## Bounds in words -/

/-- The bounds of a search, in words of 64 bits, and whether the target was met so far. -/
structure Bounds where
  lo : UInt64
  hi : UInt64
  hit : Bool
  deriving DecidableEq, Repr

namespace Bounds

/-- The bounds with which a search of `n` slots sets out. -/
def first (n : Nat) : Bounds := ⟨0, UInt64.ofNat n, false⟩

/-- The slot that is probed next. -/
def probe (bounds : Bounds) : UInt64 := bounds.lo + (bounds.hi - bounds.lo) / 2

/-- The bounds after a probe. -/
def narrow (bounds : Bounds) : Ordering → Bounds
  | .gt => { bounds with lo := bounds.probe + 1 }
  | .eq => { bounds with hi := bounds.probe, hit := true }
  | .lt => { bounds with hi := bounds.probe }

/-- What is answered where the bounds meet. -/
def answer (bounds : Bounds) : SearchResult :=
  if bounds.hit then .found bounds.lo.toNat else .missing bounds.lo.toNat

/-- The number of slots between the bounds. -/
def width (bounds : Bounds) : Nat := bounds.hi.toNat - bounds.lo.toNat

/-- The bounds are in order, and there are as many slots. -/
structure Sound (n : Nat) (bounds : Bounds) : Prop where
  lo_le_hi : bounds.lo.toNat ≤ bounds.hi.toNat
  hi_le : bounds.hi.toNat ≤ n

variable {n : Nat} {bounds : Bounds}

theorem sound_first (small : n < UInt64.size) : (first n).Sound n where
  lo_le_hi := Nat.zero_le _
  hi_le := by rw [first, UInt64.toNat_ofNat_of_lt' small]

namespace Sound

/-- The middle is computed without a carry. -/
theorem toNat_probe (h : bounds.Sound n) :
    bounds.probe.toNat = middle bounds.lo.toNat bounds.hi.toNat := by
  have ordered := h.lo_le_hi
  have small := bounds.hi.toNat_lt
  rw [probe, UInt64.toNat_add, UInt64.toNat_div,
    UInt64.toNat_sub_of_le _ _ (UInt64.le_iff_toNat_le.2 ordered), middle]
  exact Nat.mod_eq_of_lt (by rw [show (2 : UInt64).toNat = 2 from rfl]; omega)

theorem probe_lt_hi (h : bounds.Sound n) (apart : bounds.lo < bounds.hi) :
    bounds.probe.toNat < bounds.hi.toNat := by
  rw [h.toNat_probe]
  exact middle_lt (UInt64.lt_iff_toNat_lt.1 apart)

theorem probe_lt (h : bounds.Sound n) (apart : bounds.lo < bounds.hi) :
    bounds.probe.toNat < n :=
  Nat.lt_of_lt_of_le (h.probe_lt_hi apart) h.hi_le

/-- The slot behind the middle is computed without a carry. -/
theorem toNat_probe_succ (h : bounds.Sound n) (apart : bounds.lo < bounds.hi) :
    (bounds.probe + 1).toNat = middle bounds.lo.toNat bounds.hi.toNat + 1 := by
  have small := bounds.hi.toNat_lt
  have lt := h.probe_lt_hi apart
  rw [UInt64.toNat_add, UInt64.toNat_one, h.toNat_probe] at *
  exact Nat.mod_eq_of_lt (by omega)

/-- The bounds after a probe, as numbers. -/
theorem toNat_narrow (h : bounds.Sound n) (apart : bounds.lo < bounds.hi) (told : Ordering) :
    ((bounds.narrow told).lo.toNat, (bounds.narrow told).hi.toNat) =
      if told = .gt then (middle bounds.lo.toNat bounds.hi.toNat + 1, bounds.hi.toNat)
      else (bounds.lo.toNat, middle bounds.lo.toNat bounds.hi.toNat) := by
  cases told
  · exact congrArg (Prod.mk _) h.toNat_probe
  · exact congrArg (Prod.mk _) h.toNat_probe
  · exact congrArg (Prod.mk · _) (h.toNat_probe_succ apart)

theorem narrow (h : bounds.Sound n) (apart : bounds.lo < bounds.hi) (told : Ordering) :
    (bounds.narrow told).Sound n := by
  have before := le_middle bounds.lo.toNat bounds.hi.toNat
  have behind := middle_lt (UInt64.lt_iff_toNat_lt.1 apart)
  have within := h.hi_le
  have narrowed := h.toNat_narrow apart told
  split at narrowed <;> obtain ⟨lo, hi⟩ := Prod.mk.inj narrowed <;> constructor <;> omega

/-- A probe leaves half of the slots at most. -/
theorem width_narrow (h : bounds.Sound n) (apart : bounds.lo < bounds.hi) (told : Ordering) :
    2 * (bounds.narrow told).width ≤ bounds.width := by
  have narrowed := h.toNat_narrow apart told
  unfold middle at narrowed
  unfold width
  split at narrowed <;> obtain ⟨lo, hi⟩ := Prod.mk.inj narrowed <;> omega

end Sound

end Bounds

/-! ## Runs of a search -/

open Bounds

/-- A search goes from probe to probe until its bounds meet. The trail has the bounds at each probe,
which has to be of a slot that there is. -/
inductive Searches {n : Nat} (test : Fin n → Ordering) :
    Bounds → (trail : List Bounds) → SearchResult → Prop where
  | stop (bounds : Bounds) (meet : ¬bounds.lo < bounds.hi) :
      Searches test bounds [] bounds.answer
  | probe (bounds : Bounds) {trail : List Bounds} {result : SearchResult}
      (apart : bounds.lo < bounds.hi) (inside : bounds.probe.toNat < n)
      (rest : Searches test (bounds.narrow (test ⟨bounds.probe.toNat, inside⟩)) trail result) :
      Searches test bounds (bounds :: trail) result

variable {n : Nat} {test : Fin n → Ordering} {bounds : Bounds} {trail : List Bounds}
  {result : SearchResult}

/-- One probe of a search is that of its bounds in words. -/
theorem searchRange_narrow (h : bounds.Sound n) (apart : bounds.lo < bounds.hi)
    (inside : bounds.probe.toNat < n) {next : Bounds}
    (narrowed : bounds.narrow (test ⟨bounds.probe.toNat, inside⟩) = next)
    (within : next.hi.toNat ≤ n) :
    searchRange test bounds.lo.toNat bounds.hi.toNat bounds.hit h.hi_le =
      searchRange test next.lo.toNat next.hi.toNat next.hit within := by
  have nonempty : bounds.lo.toNat < bounds.hi.toNat := UInt64.lt_iff_toNat_lt.1 apart
  have same : (⟨bounds.probe.toNat, inside⟩ : Fin n) =
      ⟨middle bounds.lo.toNat bounds.hi.toNat, Nat.lt_of_lt_of_le (middle_lt nonempty) h.hi_le⟩ :=
    Fin.ext h.toNat_probe
  have probed := h.toNat_probe
  have behind := h.toNat_probe_succ apart
  subst narrowed
  rw [searchRange, dif_pos nonempty]
  revert within
  rw [same]
  cases test _ <;> intro within <;> simp only [Bounds.narrow, probed, behind]

/-- **A search ends with the answer of `search`**, on words as on numbers. -/
theorem Searches.answer_eq (h : Searches test bounds trail result) (sound : bounds.Sound n) :
    result = searchRange test bounds.lo.toNat bounds.hi.toNat bounds.hit sound.hi_le := by
  induction h with
  | stop bounds meet =>
    rw [searchRange, dif_neg (fun apart => meet (UInt64.lt_iff_toNat_lt.2 apart)), Bounds.answer]
  | probe bounds apart inside rest ih =>
    have next := sound.narrow apart (test ⟨bounds.probe.toNat, inside⟩)
    rw [ih next, searchRange_narrow sound apart inside rfl next.hi_le]

/-- A search of less than `2 ^ k` slots takes `k` probes at most. -/
theorem Searches.length_le (h : Searches test bounds trail result) (sound : bounds.Sound n)
    {k : Nat} (narrow : bounds.width < 2 ^ k) : trail.length ≤ k := by
  induction h generalizing k with
  | stop => exact Nat.zero_le k
  | probe bounds apart inside rest ih =>
    have nonempty := UInt64.lt_iff_toNat_lt.1 apart
    have next := sound.narrow apart (test ⟨bounds.probe.toNat, inside⟩)
    have halved := sound.width_narrow apart (test ⟨bounds.probe.toNat, inside⟩)
    cases k with
    | zero =>
      unfold width at narrow
      omega
    | succ k =>
      rw [Nat.pow_succ] at narrow
      exact Nat.succ_le_succ (ih next (by omega))

/-- At a probe the bounds are apart and within the slots, and their middle is a slot between them
that was computed exactly. -/
structure Bounds.Exact (n : Nat) (bounds : Bounds) : Prop where
  lo_lt_hi : bounds.lo.toNat < bounds.hi.toNat
  hi_le : bounds.hi.toNat ≤ n
  probe_eq : bounds.probe.toNat = bounds.lo.toNat + (bounds.hi.toNat - bounds.lo.toNat) / 2
  probe_lt : bounds.probe.toNat < n
  succ_eq : (bounds.probe + 1).toNat = bounds.probe.toNat + 1

theorem Bounds.Sound.exact (h : bounds.Sound n) (apart : bounds.lo < bounds.hi) :
    bounds.Exact n where
  lo_lt_hi := UInt64.lt_iff_toNat_lt.1 apart
  hi_le := h.hi_le
  probe_eq := h.toNat_probe
  probe_lt := h.probe_lt apart
  succ_eq := by rw [h.toNat_probe_succ apart, h.toNat_probe]

/-- **Every probe is of a slot**, and no word wraps. -/
theorem Searches.exact (h : Searches test bounds trail result) (sound : bounds.Sound n) :
    ∀ passed ∈ trail, passed.Exact n := by
  induction h with
  | stop => exact List.forall_mem_nil _
  | probe bounds apart inside rest ih =>
    exact List.forall_mem_cons.2 ⟨sound.exact apart, ih (sound.narrow apart _)⟩

/-- **A search ends.** -/
theorem exists_searches (test : Fin n → Ordering) (sound : bounds.Sound n) :
    ∃ trail result, Searches test bounds trail result := by
  -- induction on a power of two that exceeds the number of slots between the bounds
  obtain ⟨k, narrow⟩ : ∃ k, bounds.width < 2 ^ k := ⟨_, Nat.lt_two_pow_self⟩
  induction k generalizing bounds with
  | zero =>
    refine ⟨[], _, .stop bounds ?_⟩
    intro apart
    have nonempty := UInt64.lt_iff_toNat_lt.1 apart
    unfold width at narrow
    omega
  | succ k ih =>
    by_cases apart : bounds.lo < bounds.hi
    · have inside := sound.probe_lt apart
      have next := sound.narrow apart (test ⟨bounds.probe.toNat, inside⟩)
      have halved := sound.width_narrow apart (test ⟨bounds.probe.toNat, inside⟩)
      rw [Nat.pow_succ] at narrow
      obtain ⟨trail, result, rest⟩ := ih next (by omega)
      exact ⟨_, _, .probe bounds apart inside rest⟩
    · exact ⟨[], _, .stop bounds apart⟩

theorem Searches.eq_search (h : Searches test (first n) trail result) (small : n < UInt64.size) :
    result = search n test := by
  rw [h.answer_eq (sound_first small), search]
  congr 1
  exact UInt64.toNat_ofNat_of_lt' small

/-! ## What is found -/

/-- A slot, or the number of slots, before which the test says greater and at which it does not. -/
structure Boundary {n : Nat} (test : Fin n → Ordering) (r : Nat) : Prop where
  le : r ≤ n
  before : ∀ i : Fin n, i.val + 1 = r → test i = .gt
  here : ∀ i : Fin n, i.val = r → test i ≠ .gt

/-- **The answer lies on a boundary**, whatever the test says. -/
theorem boundary_lowerBound (test : Fin n → Ordering) : Boundary test (lowerBound n test) := by
  obtain ⟨-, before, here⟩ :=
    searchRange_boundary test false (Nat.le_refl n) (Nat.zero_le n)
  exact ⟨lowerBound_le n test, fun i last => before i last (Nat.zero_le _),
    fun i first => here i first i.isLt⟩

theorem lowerBound_eq_card (mono : Descends test) :
    lowerBound n test = (Finset.univ.filter fun i => test i = .gt).card := by
  have front : (Finset.univ.filter fun i => test i = .gt) =
      Finset.univ.filter fun i : Fin n => i.val < lowerBound n test :=
    Finset.filter_congr fun i _ => gt_iff_lt_lowerBound mono.gt i
  rw [front, Fin.card_filter_val_lt, Nat.min_eq_right (lowerBound_le n test)]

/-- A hit is the first slot that tests as equal. -/
structure LowestEqual {n : Nat} (test : Fin n → Ordering) (r : Nat) : Prop where
  equal : ∃ inside : r < n, test ⟨r, inside⟩ = .eq
  lowest : ∀ i : Fin n, test i = .eq → r ≤ i.val

theorem search_eq_found_of_eq (mono : Descends test) {j : Fin n} (equal : test j = .eq) :
    search n test = .found (lowerBound n test) ∧ LowestEqual test (lowerBound n test) := by
  obtain ⟨i, found⟩ := exists_search_eq_found mono equal
  have answer : lowerBound n test = i := by rw [lowerBound, found, SearchResult.slot]
  refine ⟨by rw [answer, found], ?_, ?_⟩
  · rw [answer]
    exact search_eq_found mono found
  · intro k equal
    apply Nat.le_of_not_lt
    intro before
    rw [(gt_iff_lt_lowerBound mono.gt k).2 before] at equal
    cases equal

theorem search_eq_missing_of_ne (mono : Descends test) (none : ∀ i, test i ≠ .eq) :
    search n test = .missing (lowerBound n test) := by
  cases result : search n test with
  | found i =>
    obtain ⟨inside, equal⟩ := search_eq_found mono result
    exact absurd equal (none _)
  | missing i => rw [lowerBound, result, SearchResult.slot]

/-- **A search in words of 64 bits** ends, after 64 probes at most, all of them of slots and
computed without a carry; its answer lies on a boundary of the test. If the test descends, the
answer is the number of slots that test as greater, and a hit if and only if some slot tests as
equal, of which it is the first. -/
theorem search_in_words (small : n < UInt64.size) (test : Fin n → Ordering) :
    ((∃ trail, Searches test (first n) trail (search n test)) ∧
      ∀ trail result, Searches test (first n) trail result →
        result = search n test ∧ trail.length ≤ 64 ∧ ∀ bounds ∈ trail, bounds.Exact n) ∧
    Boundary test (lowerBound n test) ∧
    (Descends test →
      lowerBound n test = (Finset.univ.filter fun i => test i = .gt).card ∧
      (search n test = .found (lowerBound n test) ↔ ∃ i, test i = .eq) ∧
      (search n test = .missing (lowerBound n test) ↔ ∀ i, test i ≠ .eq) ∧
      ((∃ i, test i = .eq) → LowestEqual test (lowerBound n test))) := by
  have sound := sound_first small
  refine ⟨⟨?_, ?_⟩, boundary_lowerBound test, ?_⟩
  · obtain ⟨trail, result, searches⟩ := exists_searches test sound
    rw [searches.eq_search small] at searches
    exact ⟨trail, searches⟩
  · intro trail result searches
    refine ⟨searches.eq_search small, searches.length_le sound ?_, searches.exact sound⟩
    exact Nat.lt_of_le_of_lt (Nat.sub_le _ _) (UInt64.toNat_lt _)
  · intro mono
    refine ⟨lowerBound_eq_card mono, ⟨?_, ?_⟩, ⟨?_, search_eq_missing_of_ne mono⟩, ?_⟩
    · intro found
      obtain ⟨inside, equal⟩ := search_eq_found mono found
      exact ⟨_, equal⟩
    · rintro ⟨i, equal⟩
      exact (search_eq_found_of_eq mono equal).1
    · intro missing i equal
      cases missing.symm.trans (search_eq_found_of_eq mono equal).1
    · rintro ⟨i, equal⟩
      exact (search_eq_found_of_eq mono equal).2

/-- How 3 compares with the elements of a list in order. -/
def compareThree (i : Fin 6) : Ordering := compare 3 ([1, 3, 3, 3, 3, 7].get i)

/-- The first of four equal elements is found, after three probes. -/
theorem search_in_words_six :
    6 < UInt64.size ∧ Descends compareThree ∧ search 6 compareThree = .found 1 ∧
      LowestEqual compareThree 1 := by
  have small : 6 < UInt64.size := by decide
  have descends : Descends compareThree := ⟨by decide, by decide⟩
  obtain ⟨-, -, monotone⟩ := search_in_words small compareThree
  obtain ⟨count, found, -, lowest⟩ := monotone descends
  have answer : lowerBound 6 compareThree = 1 := count.trans (by decide)
  rw [answer] at found lowest
  exact ⟨small, descends, found.2 ⟨1, rfl⟩, lowest ⟨1, rfl⟩⟩

end RatingArchive
