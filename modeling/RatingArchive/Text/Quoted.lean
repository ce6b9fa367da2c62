import RatingArchive.Text.Hex
import RatingArchive.Text.Hidden
/-!
# Quoted text

Text in double quotes, as diagnostic dumps show it. Quotes, backslashes and line controls are
written with a backslash; characters that are not seen by themselves are written by number.
-/

namespace RatingArchive.Text

/-- A character as it stands between quotes. -/
def escapeChar (c : Char) : String :=
  match c with
  | '\x00' => "\\0"
  | '\t' => "\\t"
  | '\n' => "\\n"
  | '\r' => "\\r"
  | '"' => "\\\""
  | '\\' => "\\\\"
  | c => if isHidden c then "\\u\x7b" ++ hexDigits 1 c.toNat ++ "\x7d" else c.toString

/-- The text between double quotes. -/
def quote (text : String) : String :=
  "\"" ++ String.join (text.toList.map escapeChar) ++ "\""

end RatingArchive.Text
