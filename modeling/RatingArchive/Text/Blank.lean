/-!
# Blank characters

The characters that separate words without being seen, and the text that is left when they are
stripped from both ends.
-/

namespace RatingArchive.Text

/-- The characters with the Unicode property `White_Space`. -/
def isBlank (c : Char) : Bool :=
  let code := c.toNat
  (0x9 ≤ code && code ≤ 0xD) || code == 0x20 || code == 0x85 || code == 0xA0 || code == 0x1680 ||
    (0x2000 ≤ code && code ≤ 0x200A) || code == 0x2028 || code == 0x2029 || code == 0x202F ||
    code == 0x205F || code == 0x3000

/-- The text without the blanks at its start. -/
def trimStart (text : List Char) : List Char := text.dropWhile isBlank

/-- The text without the blanks at its two ends. -/
def trim (text : List Char) : List Char := (trimStart (trimStart text).reverse).reverse

theorem isBlank_of_isWhitespace {c : Char} (h : c.isWhitespace = true) : isBlank c = true := by
  simp only [Char.isWhitespace, Bool.or_eq_true, decide_eq_true_eq] at h
  rcases h with ((rfl | rfl) | rfl) | rfl <;> decide

theorem trim_of_blank {text : List Char} (h : ∀ c ∈ text, isBlank c = true) : trim text = [] := by
  have gone : trimStart text = [] := by
    induction text with
    | nil => rfl
    | cons c rest ih =>
      rw [trimStart, List.dropWhile_cons_of_pos (h c (by simp))]
      exact ih fun x hx => h x (by simp [hx])
  rw [trim, gone]
  rfl

end RatingArchive.Text
