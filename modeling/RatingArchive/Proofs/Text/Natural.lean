import Mathlib.Data.List.Induction
import Mathlib.Tactic.Set
import RatingArchive.Text.Natural
/-!
# Spellings of a number

`Spells` says which texts denote a number, without a word on reading: the decimal digits of the
number, with any zeros in front of them (`Numeral`), and at most one plus sign in front of all. The
reader accepts those of the numbers of 64 bits, and no other text (`readNatural_eq_ok_iff`).

* `readDigits_eq_ok_iff` says what the loop over the digits accepts. It refuses at the first digit
  that takes the number past 64 bits, and no number becomes smaller by further digits.
* `numeral_of_isDigit`: digits are zeros in front of the digits of what they denote.
-/

namespace RatingArchive.Text

/-- The text is the digits of the number, with any zeros in front of them. -/
def Numeral (text : List Char) (n : Nat) : Prop :=
  ∃ zeros, text = List.replicate zeros '0' ++ (toString n).toList

/-- The text denotes the number in decimal. -/
def Spells (text : List Char) (n : Nat) : Prop :=
  Numeral text n ∨ ∃ digits, text = '+' :: digits ∧ Numeral digits n

theorem toList_toString (n : Nat) : (toString n).toList = Nat.toDigits 10 n := by
  rw [Nat.toString_eq_repr, Nat.toList_repr]

theorem Numeral.ne_nil {text : List Char} {n : Nat} (h : Numeral text n) : text ≠ [] := by
  obtain ⟨zeros, rfl⟩ := h
  rw [toList_toString]
  exact List.append_ne_nil_of_right_ne_nil _ Nat.toDigits_ne_nil

theorem Numeral.isDigit {text : List Char} {n : Nat} (h : Numeral text n) :
    ∀ c ∈ text, c.isDigit = true := by
  obtain ⟨zeros, rfl⟩ := h
  intro c hc
  rcases List.mem_append.1 hc with hc | hc
  · rw [(List.mem_replicate.1 hc).2]
    rfl
  · rw [toList_toString] at hc
    exact Nat.isDigit_of_mem_toDigits (by decide) (by decide) hc

theorem not_numeral_plus {digits : List Char} {n : Nat} : ¬ Numeral ('+' :: digits) n :=
  fun h => absurd (h.isDigit '+' (by simp)) (by decide)

theorem spells_plus {digits : List Char} {n : Nat} :
    Spells ('+' :: digits) n ↔ Numeral digits n := by
  simp [Spells, not_numeral_plus]

theorem spells_of_ne_plus {text : List Char} {n : Nat} (h : text.head? ≠ some '+') :
    Spells text n ↔ Numeral text n := by
  refine or_iff_left ?_
  rintro ⟨digits, rfl, -⟩
  exact h rfl

theorem Spells.ne_nil {text : List Char} {n : Nat} (h : Spells text n) : text ≠ [] := by
  rcases h with h | ⟨digits, rfl, -⟩
  · exact h.ne_nil
  · exact List.cons_ne_nil _ _

theorem Spells.eq_plus_or_isDigit {text : List Char} {n : Nat} (h : Spells text n) :
    ∀ c ∈ text, c = '+' ∨ c.isDigit = true := by
  rcases h with h | ⟨digits, rfl, h⟩
  · exact fun c hc => .inr (h.isDigit c hc)
  · intro c hc
    rcases List.mem_cons.1 hc with rfl | hc
    · exact .inl rfl
    · exact .inr (h.isDigit c hc)

/-! ## Digits and what they denote -/

theorem digitValue?_of_isDigit {c : Char} (h : c.isDigit = true) :
    digitValue? c = some (c.toNat - '0'.toNat) := if_pos h

theorem digitValue_lt {c : Char} (h : c.isDigit = true) : c.toNat - '0'.toNat < 10 := by
  have := Char.isDigit_iff_toNat.1 h
  simp only [Char.reduceToNat] at this ⊢
  omega

theorem toDigits_digitValue {c : Char} (h : c.isDigit = true) :
    Nat.toDigits 10 (c.toNat - '0'.toNat) = [c] := by
  have value := digitValue_lt h
  have zero := (Char.isDigit_iff_toNat.1 h).1
  rw [Nat.toDigits_of_lt_base value, List.singleton_inj, ← Char.toNat_inj,
    Nat.toNat_digitChar_of_lt_ten value]
  simp only [Char.reduceToNat] at zero ⊢
  omega

theorem le_ofDigitChars (text : List Char) (acc : Nat) : acc ≤ Nat.ofDigitChars 10 text acc := by
  rw [Nat.ofDigitChars_eq_ofDigitChars_zero]
  exact Nat.le_add_right_of_le (Nat.le_mul_of_pos_left acc (Nat.pow_pos (by decide)))

theorem ofDigitChars_zeros (zeros : Nat) (text : List Char) :
    Nat.ofDigitChars 10 (List.replicate zeros '0' ++ text) 0 = Nat.ofDigitChars 10 text 0 := by
  rw [Nat.ofDigitChars_append, Nat.ofDigitChars_replicate_zero, Nat.mul_zero]

/-- Digits are the number that they denote, with zeros in front of it. -/
theorem numeral_of_isDigit {text : List Char} (nonempty : text ≠ [])
    (digits : ∀ c ∈ text, c.isDigit = true) : Numeral text (Nat.ofDigitChars 10 text 0) := by
  simp only [Numeral, toList_toString]
  induction text using List.reverseRecOn with
  | nil => exact absurd rfl nonempty
  | append_singleton front c ih =>
    have digit : c.isDigit = true := digits c (by simp)
    rw [Nat.ofDigitChars_append, Nat.ofDigitChars_cons, Nat.ofDigitChars_nil]
    by_cases hfront : front = []
    · subst hfront
      refine ⟨0, ?_⟩
      rw [Nat.ofDigitChars_nil, Nat.mul_zero, Nat.zero_add, toDigits_digitValue digit]
      rfl
    · obtain ⟨zeros, shape⟩ := ih hfront fun x hx => digits x (by simp [hx])
      set value := Nat.ofDigitChars 10 front 0
      -- digits that denote zero are all zeros, and become leading zeros of what follows
      rcases Nat.eq_zero_or_pos value with hvalue | hvalue
      · refine ⟨zeros + 1, ?_⟩
        rw [hvalue, Nat.mul_zero, Nat.zero_add, toDigits_digitValue digit, shape, hvalue,
          List.replicate_succ']
        rfl
      · refine ⟨zeros, ?_⟩
        rw [← Nat.toDigits_append_toDigits (by decide) hvalue (digitValue_lt digit),
          toDigits_digitValue digit, ← List.append_assoc, ← shape]

/-! ## Reading -/

theorem readDigits_eq_ok_iff {text : List Char} {acc n : Nat} (small : acc < UInt64.size) :
    readDigits acc text = .ok n ↔
      (∀ c ∈ text, c.isDigit = true) ∧ Nat.ofDigitChars 10 text acc = n ∧ n < UInt64.size := by
  induction text generalizing acc with
  | nil =>
    simp only [readDigits, Except.ok.injEq, Nat.ofDigitChars_nil]
    constructor
    · rintro rfl
      exact ⟨by simp, rfl, small⟩
    · exact fun h => h.2.1
  | cons c rest ih =>
    rw [readDigits, Nat.ofDigitChars_cons]
    by_cases digit : c.isDigit = true
    · rw [digitValue?_of_isDigit digit]
      by_cases fits : 10 * acc + (c.toNat - '0'.toNat) < UInt64.size
      · simp only [if_pos fits]
        rw [ih fits, List.forall_mem_cons, and_iff_right digit]
      · have grows := le_ofDigitChars rest (10 * acc + (c.toNat - '0'.toNat))
        simp only [if_neg fits, reduceCtorEq, false_iff]
        omega
    · have : digitValue? c = none := if_neg digit
      simp [this, digit]

theorem readDigits_eq_ok_iff_numeral {text : List Char} (nonempty : text ≠ []) (n : UInt64) :
    readDigits 0 text = .ok n.toNat ↔ Numeral text n.toNat := by
  rw [readDigits_eq_ok_iff (by decide)]
  constructor
  · rintro ⟨digits, value, -⟩
    exact value ▸ numeral_of_isDigit nonempty digits
  · intro h
    refine ⟨h.isDigit, ?_, n.toNat_lt⟩
    obtain ⟨zeros, rfl⟩ := h
    rw [ofDigitChars_zeros, toList_toString, Nat.ofDigitChars_ten_toDigits]

theorem ofNat_readDigits_eq_ok_iff {text : List Char} (nonempty : text ≠ []) (n : UInt64) :
    (return UInt64.ofNat (← readDigits 0 text) : Except NumberFault UInt64) = .ok n ↔
      Numeral text n.toNat := by
  rw [← readDigits_eq_ok_iff_numeral nonempty]
  cases value : readDigits 0 text with
  | error fault => exact ⟨nofun, nofun⟩
  | ok m =>
    have small := ((readDigits_eq_ok_iff (by decide)).1 value).2.2
    constructor
    · intro h
      cases h
      exact congrArg Except.ok (UInt64.toNat_ofNat_of_lt' small).symm
    · intro h
      cases h
      exact congrArg Except.ok UInt64.ofNat_toNat

/-- **The reader of numbers** accepts the spellings of the numbers of 64 bits. -/
theorem readNatural_eq_ok_iff {text : List Char} {n : UInt64} :
    readNatural text = .ok n ↔ Spells text n.toNat := by
  unfold readNatural
  split
  · exact ⟨nofun, fun h => absurd rfl h.ne_nil⟩
  · rw [spells_plus]
    exact ⟨nofun, fun h => absurd rfl h.ne_nil⟩
  · rename_i digits alone
    rw [spells_plus]
    refine ofNat_readDigits_eq_ok_iff ?_ n
    rintro rfl
    exact alone rfl
  · rename_i nonempty alone signed
    have unsigned : text.head? ≠ some '+' := by
      intro h
      obtain ⟨digits, hdigits⟩ := List.head?_eq_some_iff.1 h
      exact signed digits hdigits
    rw [spells_of_ne_plus unsigned]
    exact ofNat_readDigits_eq_ok_iff nonempty n

end RatingArchive.Text
