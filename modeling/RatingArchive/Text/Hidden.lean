import RatingArchive.Text.Joining
import RatingArchive.Text.Unassigned
/-!
# Characters that are not seen by themselves

Controls, format characters, separators other than the space, characters that are not displayed,
marks that join the character before them, and codes without a public character. Where text is shown
to be read exactly, they are written by number.
-/

namespace RatingArchive.Text

/-- The characters of the categories `Cc`, `Cf`, `Zl`, `Zp` and `Zs` other than the space, and those
with the property `Default_Ignorable_Code_Point`, among which are the fillers of Hangul. -/
def invisible : CodeRanges :=
  [(0x0, 0x1F), (0x7F, 0xA0), (0xAD, 0xAD), (0x34F, 0x34F), (0x600, 0x605), (0x61C, 0x61C),
   (0x6DD, 0x6DD), (0x70F, 0x70F), (0x890, 0x891), (0x8E2, 0x8E2), (0x115F, 0x1160),
   (0x1680, 0x1680), (0x17B4, 0x17B5), (0x180B, 0x180F), (0x2000, 0x200F), (0x2028, 0x202F),
   (0x205F, 0x206F), (0x3000, 0x3000), (0x3164, 0x3164), (0xFE00, 0xFE0F), (0xFEFF, 0xFEFF),
   (0xFFA0, 0xFFA0), (0xFFF0, 0xFFFB), (0x110BD, 0x110BD), (0x110CD, 0x110CD), (0x13430, 0x1343F),
   (0x1BCA0, 0x1BCA3), (0x1D173, 0x1D17A), (0xE0000, 0xE0FFF)]

theorem invisible_ascends : invisible.ascendsFrom 0 = true := by decide +kernel

/-- Whether a character is not seen by itself. -/
def isHidden (c : Char) : Bool :=
  invisible.includes c || joiningMarks.includes c || unassigned.includes c

/-- The space is the only blank that is seen. -/
theorem isHidden_of_isWhitespace {c : Char} (h : c.isWhitespace = true) (other : c ≠ ' ') :
    isHidden c = true := by
  simp only [Char.isWhitespace, Bool.or_eq_true, decide_eq_true_eq] at h
  rcases h with ((rfl | rfl) | rfl) | rfl
  · exact absurd rfl other
  all_goals rfl

end RatingArchive.Text
