/-!
# Byte strings and big-endian numbers

Everything an archive holds is a byte string, and every number in it is written big-endian with a
fixed width. `bigEndian` writes the base-256 digits of a number and `ofBigEndian` reads them, for
every width at once; the 32- and 64-bit words of the format are the widths four and eight.

* `ofBigEndian_bigEndian`: what was written is read back, modulo the `capacity` of the width.
* `bigEndian_ofBigEndian`: every string of bytes is the written form of the number it denotes.
-/

namespace RatingArchive

/-- A string of bytes. -/
abbrev Bytes := List UInt8

/-! ## Numbers of a fixed width -/

/-- How many numbers `width` bytes can hold. -/
def capacity : (width : Nat) → Nat
  | 0 => 1
  | width + 1 => capacity width * 256

theorem capacity_pos (width : Nat) : 0 < capacity width := by
  induction width with
  | zero => exact Nat.one_pos
  | succ width ih => exact Nat.mul_pos ih (by decide)

theorem capacity_add (a b : Nat) : capacity (a + b) = capacity a * capacity b := by
  induction b with
  | zero => exact (Nat.mul_one _).symm
  | succ b ih => rw [← Nat.add_assoc, capacity, ih, Nat.mul_assoc, capacity]

/-- The lowest `width` base-256 digits of `n`, most significant first. -/
def bigEndian : (width n : Nat) → Bytes
  | 0, _ => []
  | width + 1, n => UInt8.ofNat (n / capacity width) :: bigEndian width n

/-- The number whose base-256 digits are `bytes`, most significant first. -/
def ofBigEndian (bytes : Bytes) : Nat :=
  bytes.foldl (fun n byte => 256 * n + byte.toNat) 0

@[simp] theorem length_bigEndian (width n : Nat) : (bigEndian width n).length = width := by
  induction width with
  | zero => rfl
  | succ width ih => simp [bigEndian, ih]

theorem foldl_bigEndian (width n acc : Nat) :
    (bigEndian width n).foldl (fun n byte => 256 * n + byte.toNat) acc =
      capacity width * acc + n % capacity width := by
  induction width generalizing acc with
  | zero => simp [bigEndian, capacity, Nat.mod_one]
  | succ width ih =>
    have digit : (UInt8.ofNat (n / capacity width)).toNat = n / capacity width % 256 := by simp
    rw [bigEndian, List.foldl_cons, ih, digit, capacity, Nat.mod_mul, Nat.mul_add]
    rw [← Nat.mul_assoc, Nat.add_assoc, Nat.add_comm (capacity width * _) (n % capacity width)]

theorem ofBigEndian_bigEndian (width n : Nat) :
    ofBigEndian (bigEndian width n) = n % capacity width := by
  simp [ofBigEndian, foldl_bigEndian]

theorem ofBigEndian_append (front back : Bytes) :
    ofBigEndian (front ++ back) = capacity back.length * ofBigEndian front + ofBigEndian back := by
  have shift (bytes : Bytes) (acc : Nat) :
      bytes.foldl (fun n byte => 256 * n + byte.toNat) acc =
        capacity bytes.length * acc + bytes.foldl (fun n byte => 256 * n + byte.toNat) 0 := by
    induction bytes generalizing acc with
    | nil => simp [capacity]
    | cons byte bytes ih =>
      rw [List.foldl_cons, List.foldl_cons, ih, ih (256 * 0 + byte.toNat)]
      rw [List.length_cons, capacity]
      grind
  rw [ofBigEndian, List.foldl_append, shift]
  rfl

theorem ofBigEndian_lt (bytes : Bytes) : ofBigEndian bytes < capacity bytes.length := by
  induction bytes with
  | nil => exact Nat.one_pos
  | cons byte bytes ih =>
    have split := ofBigEndian_append [byte] bytes
    have one : ofBigEndian [byte] = byte.toNat := by simp [ofBigEndian]
    have small : byte.toNat + 1 ≤ 256 := byte.toNat_lt
    rw [one, List.singleton_append] at split
    rw [split, List.length_cons, capacity]
    have := Nat.mul_le_mul_left (capacity bytes.length) small
    grind

theorem bigEndian_mod (width n : Nat) :
    bigEndian width (n % capacity width) = bigEndian width n := by
  suffices h : ∀ m, width ≤ m → bigEndian width (n % capacity m) = bigEndian width n from
    h width (Nat.le_refl _)
  induction width with
  | zero => intros; rfl
  | succ width ih =>
    intro m hm
    rw [bigEndian, bigEndian, ih m (by omega)]
    congr 1
    apply UInt8.toNat_inj.1
    obtain ⟨k, rfl⟩ : ∃ k, m = width + (k + 1) := ⟨m - width - 1, by omega⟩
    simp only [UInt8.toNat_ofNat']
    rw [capacity_add, Nat.mod_mul_right_div_self, capacity,
      Nat.mod_mod_of_dvd _ (Nat.dvd_mul_left 256 _)]

theorem bigEndian_ofBigEndian (bytes : Bytes) :
    bigEndian bytes.length (ofBigEndian bytes) = bytes := by
  induction bytes with
  | nil => rfl
  | cons byte bytes ih =>
    have split := ofBigEndian_append [byte] bytes
    have one : ofBigEndian [byte] = byte.toNat := by simp [ofBigEndian]
    have small := ofBigEndian_lt bytes
    rw [one, List.singleton_append] at split
    rw [List.length_cons, bigEndian, split]
    congr 1
    · rw [Nat.mul_add_div (capacity_pos _), Nat.div_eq_of_lt small]
      simp
    · rw [← bigEndian_mod, Nat.mul_add_mod, Nat.mod_eq_of_lt small, ih]

/-! ## Words -/

/-- The four bytes of a 32-bit word. -/
def word32 (w : UInt32) : Bytes := bigEndian 4 w.toNat

/-- The eight bytes of a 64-bit word. -/
def word64 (w : UInt64) : Bytes := bigEndian 8 w.toNat

/-- The 32-bit word written as `bytes`. -/
def ofWord32 (bytes : Bytes) : UInt32 := UInt32.ofNat (ofBigEndian bytes)

/-- The 64-bit word written as `bytes`. -/
def ofWord64 (bytes : Bytes) : UInt64 := UInt64.ofNat (ofBigEndian bytes)

@[simp] theorem length_word32 (w : UInt32) : (word32 w).length = 4 := length_bigEndian 4 _

@[simp] theorem length_word64 (w : UInt64) : (word64 w).length = 8 := length_bigEndian 8 _

@[simp] theorem ofWord32_word32 (w : UInt32) : ofWord32 (word32 w) = w := by
  have small : w.toNat < capacity 4 := w.toNat_lt
  rw [ofWord32, word32, ofBigEndian_bigEndian, Nat.mod_eq_of_lt small, UInt32.ofNat_toNat]

@[simp] theorem ofWord64_word64 (w : UInt64) : ofWord64 (word64 w) = w := by
  have small : w.toNat < capacity 8 := w.toNat_lt
  rw [ofWord64, word64, ofBigEndian_bigEndian, Nat.mod_eq_of_lt small, UInt64.ofNat_toNat]

theorem word32_ofWord32 {bytes : Bytes} (h : bytes.length = 4) :
    word32 (ofWord32 bytes) = bytes := by
  have small := ofBigEndian_lt bytes
  have whole := bigEndian_ofBigEndian bytes
  rw [h] at small whole
  rw [word32, ofWord32, UInt32.toNat_ofNat_of_lt' small, whole]

theorem word64_ofWord64 {bytes : Bytes} (h : bytes.length = 8) :
    word64 (ofWord64 bytes) = bytes := by
  have small := ofBigEndian_lt bytes
  have whole := bigEndian_ofBigEndian bytes
  rw [h] at small whole
  rw [word64, ofWord64, UInt64.toNat_ofNat_of_lt' small, whole]

/-! ## Pieces -/

/-- The `length` bytes from `start` on, if there are that many. -/
def slice? (bytes : Bytes) (start length : Nat) : Option Bytes :=
  let piece := (bytes.drop start).take length
  if piece.length = length then some piece else none

/-- The 64-bit word written at `start`, if all of it is there. -/
def word64At? (bytes : Bytes) (start : Nat) : Option UInt64 :=
  (slice? bytes start 8).map ofWord64

/-- A piece that exists has the length asked for. -/
theorem length_of_slice? {bytes piece : Bytes} {start length : Nat}
    (h : slice? bytes start length = some piece) : piece.length = length := by
  simp only [slice?, Option.ite_none_right_eq_some, Option.some.injEq] at h
  obtain ⟨whole, rfl⟩ := h
  exact whole

/-- Every piece within the bounds exists. -/
theorem slice?_isSome {bytes : Bytes} {start length : Nat} (h : start + length ≤ bytes.length) :
    (slice? bytes start length).isSome := by
  have : length ≤ bytes.length - start := by omega
  simp [slice?, Nat.min_eq_left this]

/-- A piece that reaches past the end does not exist. -/
theorem slice?_eq_none {bytes : Bytes} {start length : Nat} (pos : 0 < length)
    (h : bytes.length < start + length) : slice? bytes start length = none := by
  simp only [slice?, List.length_take, List.length_drop, ite_eq_right_iff, reduceCtorEq, imp_false]
  omega

theorem slice?_append {front piece : Bytes} (rest : Bytes) {start length : Nat}
    (hs : front.length = start) (hl : piece.length = length) :
    slice? (front ++ (piece ++ rest)) start length = some piece := by
  subst hs hl
  simp [slice?]

theorem word64At?_append {front : Bytes} (w : UInt64) (rest : Bytes) {start : Nat}
    (hs : front.length = start) : word64At? (front ++ (word64 w ++ rest)) start = some w := by
  rw [word64At?, slice?_append rest hs (length_word64 w), Option.map_some, ofWord64_word64]

/-- Strings of one width, one after the other. -/
theorem length_flatMap_of_width {α : Type} {form : α → Bytes} {width : Nat}
    (length : ∀ x, (form x).length = width) (xs : List α) :
    (xs.flatMap form).length = xs.length * width := by
  induction xs with
  | nil => simp
  | cons x xs ih =>
    rw [List.flatMap_cons, List.length_append, length, ih, List.length_cons, Nat.succ_mul,
      Nat.add_comm]

/-- Cutting behind some of them leaves those. -/
theorem take_flatMap_of_width {α : Type} {form : α → Bytes} {width : Nat}
    (length : ∀ x, (form x).length = width) (xs : List α) (n : Nat) :
    (xs.flatMap form).take (n * width) = (xs.take n).flatMap form := by
  rcases Nat.le_total n xs.length with le | le
  · conv => lhs; rw [← List.take_append_drop n xs, List.flatMap_append]
    apply List.take_left'
    rw [length_flatMap_of_width length, List.length_take, Nat.min_eq_left le]
  · rw [List.take_of_length_le le, List.take_of_length_le]
    rw [length_flatMap_of_width length]
    exact Nat.mul_le_mul_right _ le

/-- Strings one after the other, split at one of them. -/
theorem flatMap_split {α : Type} (form : α → Bytes) {xs : List α} {i : Nat} (h : i < xs.length) :
    xs.flatMap form =
      (xs.take i).flatMap form ++ (form xs[i] ++ (xs.drop (i + 1)).flatMap form) := by
  conv => lhs; rw [← List.take_append_drop i xs, List.drop_eq_getElem_cons h]
  rw [List.flatMap_append, List.flatMap_cons]

/-- The piece at the place of one of them is that one. -/
theorem slice?_flatMap_of_width {α : Type} {form : α → Bytes} {width : Nat} (pos : 0 < width)
    (length : ∀ x, (form x).length = width) (xs : List α) (i : Nat) :
    slice? (xs.flatMap form) (i * width) width = xs[i]?.map form := by
  by_cases inside : i < xs.length
  · have front : ((xs.take i).flatMap form).length = i * width := by
      rw [length_flatMap_of_width length, List.length_take_of_le (Nat.le_of_lt inside)]
    rw [flatMap_split form inside, slice?_append _ front (length _),
      List.getElem?_eq_getElem inside, Option.map_some]
  · have past := Nat.le_of_not_lt inside
    rw [List.getElem?_eq_none past, Option.map_none]
    apply slice?_eq_none pos
    rw [length_flatMap_of_width length]
    exact Nat.lt_of_le_of_lt (Nat.mul_le_mul_right _ past) (Nat.lt_add_of_pos_right pos)

/-- The string with the bytes from `start` on replaced by `patch`; bytes of `patch` that reach past
the end extend it. -/
def overwrite (bytes : Bytes) (start : Nat) (patch : Bytes) : Bytes :=
  bytes.take start ++ patch ++ bytes.drop (start + patch.length)

/-- A patch within the bounds keeps the length. -/
theorem length_overwrite {bytes patch : Bytes} {start : Nat}
    (h : start + patch.length ≤ bytes.length) :
    (overwrite bytes start patch).length = bytes.length := by
  simp only [overwrite, List.length_append, List.length_take, List.length_drop]
  omega

/-- A patch within the bounds leaves what stands behind them. -/
theorem overwrite_append {bytes patch : Bytes} {start : Nat}
    (h : start + patch.length ≤ bytes.length) (rest : Bytes) :
    overwrite (bytes ++ rest) start patch = overwrite bytes start patch ++ rest := by
  have le : start ≤ bytes.length := by omega
  simp only [overwrite, List.take_append_of_le_length le, List.drop_append_of_le_length h,
    List.append_assoc]

/-- A patch at the end extends the string. -/
theorem overwrite_length (bytes patch : Bytes) :
    overwrite bytes bytes.length patch = bytes ++ patch := by
  rw [overwrite, List.take_length, List.drop_of_length_le (Nat.le_add_right _ _), List.append_nil]

/-- A patch may be made in two pieces. -/
theorem overwrite_overwrite {bytes : Bytes} {start : Nat} (h : start ≤ bytes.length)
    (first second : Bytes) :
    overwrite (overwrite bytes start first) (start + first.length) second =
      overwrite bytes start (first ++ second) := by
  have front : (bytes.take start ++ first).length = start + first.length := by
    rw [List.length_append, List.length_take_of_le h]
  rw [overwrite, overwrite, List.take_left' front, ← List.drop_drop, List.drop_left' front,
    List.drop_drop, overwrite, List.length_append, Nat.add_assoc]
  simp only [List.append_assoc]

end RatingArchive
