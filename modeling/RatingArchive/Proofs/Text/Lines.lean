import Mathlib.Data.List.Basic
import RatingArchive.Text.Lines
import RatingArchive.Text.Split
/-!
# Lines of an encoded text

A file that holds a text in UTF-8 is cut into lines by its bytes. A byte of the ASCII range stands
for one character there and belongs to no other (`utf8EncodeChar_of_mem`), so that the cuts are
where the text has its line feeds (`cuts_encoded`), and each line of the file is a line of the text,
encoded (`lines_encoded`).
-/

namespace RatingArchive.Text

/-- The bytes of a sequence of characters. -/
def encoded (text : List Char) : Bytes := text.flatMap String.utf8EncodeChar

/-! ## Texts as bytes -/

/-- The bytes of an array are listed one by one, those that were read in front. -/
theorem toList_loop {bytes : ByteArray} {read rest : List UInt8}
    (h : bytes.data.toList = read ++ rest) :
    ByteArray.toList.loop bytes read.length read.reverse = read ++ rest := by
  induction rest generalizing read with
  | nil =>
    have done : ¬ read.length < bytes.size := by
      rw [← ByteArray.size_data, ← Array.length_toList, h, List.append_nil]
      exact Nat.lt_irrefl _
    rw [ByteArray.toList.loop, if_neg done, List.reverse_reverse, List.append_nil]
  | cons byte rest ih =>
    have more : read.length < bytes.size := by
      rw [← ByteArray.size_data, ← Array.length_toList, h, List.length_append, List.length_cons]
      omega
    have here : bytes.get! read.length = byte := by
      have entry : bytes.data[read.length]? = some byte := by rw [← Array.getElem?_toList]; simp [h]
      show bytes.data[read.length]! = byte
      rw [Array.getElem!_eq_getD, Array.getD_eq_getD_getElem?, entry]
      rfl
    have next := @ih (read ++ [byte]) (by rw [h, List.append_assoc]; rfl)
    rw [List.length_append, List.reverse_append, List.append_assoc] at next
    rw [ByteArray.toList.loop, if_pos more, here]
    exact next

theorem toList_eq (bytes : ByteArray) : bytes.toList = bytes.data.toList :=
  toList_loop (List.nil_append _).symm

theorem toUtf8_ofList (text : List Char) : toUtf8 (String.ofList text) = encoded text := by
  rw [toUtf8, toList_eq]
  exact List.toList_data_toByteArray

theorem ofUtf8?_toUtf8 (text : String) : ofUtf8? (toUtf8 text) = some text := by
  have back : ByteArray.mk (toUtf8 text).toArray = text.toUTF8 := by rw [toUtf8, toList_eq]
  have valid : text.toUTF8.IsValidUTF8 := text.isValidUTF8
  rw [ofUtf8?, back, String.fromUTF8?, dif_pos valid]
  rfl

theorem not_ascii {m base : Nat} (low : 128 ≤ base) (high : m + base < 256) :
    ¬ (UInt8.ofNat (m + base)).toNat < 128 := by
  rw [UInt8.toNat_ofNat', Nat.mod_eq_of_lt high]
  omega

theorem ofUtf8?_encoded (text : List Char) :
    ofUtf8? (encoded text) = some (String.ofList text) := by
  rw [← toUtf8_ofList, ofUtf8?_toUtf8]

/-- A byte of the ASCII range stands for itself, and no other character has it. -/
theorem utf8EncodeChar_of_mem {c : Char} {byte : UInt8} (h : byte ∈ String.utf8EncodeChar c)
    (small : byte.toNat < 128) : byte.toNat = c.toNat ∧ String.utf8EncodeChar c = [byte] := by
  unfold String.utf8EncodeChar at h ⊢
  simp only at h ⊢
  split at h
  · rename_i one
    rw [if_pos one, List.mem_singleton.1 h]
    exact ⟨UInt8.toNat_ofNat_of_lt' (Nat.lt_of_le_of_lt one (by decide)), rfl⟩
  · -- in a longer encoding every byte has its highest bit set
    exfalso
    split at h
    · simp only [List.mem_cons, List.not_mem_nil, or_false] at h
      rcases h with rfl | rfl <;> exact not_ascii (by decide) (by omega) small
    · split at h
      all_goals
        simp only [List.mem_cons, List.not_mem_nil, or_false] at h
        rcases h with rfl | rfl | rfl | rfl <;> exact not_ascii (by decide) (by omega) small

/-! ## Cutting at line feeds -/

/-- The pieces of a file between its line feeds. -/
def cuts (bytes : Bytes) : List Bytes := (cutLines bytes).1 ++ [(cutLines bytes).2]

theorem cuts_feed (bytes : Bytes) : cuts (10 :: bytes) = [] :: cuts bytes := rfl

theorem cuts_cons {byte : UInt8} (h : byte ≠ 10) (bytes : Bytes) :
    cuts (byte :: bytes) = (cuts bytes).modifyHead (byte :: ·) := by
  unfold cuts
  rw [cutLines, List.foldr_cons, ← cutLines]
  rcases cutLines bytes with ⟨_ | ⟨line, lines⟩, last⟩ <;> simp only [if_neg h] <;> rfl

theorem cuts_append {front : Bytes} (h : 10 ∉ front) (bytes : Bytes) :
    cuts (front ++ bytes) = (cuts bytes).modifyHead (front ++ ·) := by
  induction front with
  | nil => exact (congrFun List.modifyHead_id (cuts bytes)).symm
  | cons byte front ih =>
    rw [List.mem_cons, not_or] at h
    rw [List.cons_append, cuts_cons (Ne.symm h.1), ih h.2, List.modifyHead_modifyHead]
    rfl

theorem consFirst_eq (c : Char) {pieces : List (List Char)} (h : pieces ≠ []) :
    consFirst c pieces = pieces.modifyHead (c :: ·) := by
  obtain ⟨piece, rest, rfl⟩ := List.exists_cons_of_ne_nil h
  rfl

/-- The byte of a line feed stands for line feeds only, so that a file is cut where its text is. -/
theorem cuts_encoded (text : List Char) :
    cuts (encoded text) = (splitOn ['\n'] text).map encoded := by
  show _ = (pieces ['\n'] 0 text).map encoded
  induction text with
  | nil => rfl
  | cons c rest ih =>
    by_cases feed : c = '\n'
    · subst feed
      show cuts (10 :: encoded rest) = _
      rw [cuts_feed, ih]
      rfl
    · have free : 10 ∉ String.utf8EncodeChar c := by
        intro h
        have code : (10 : UInt8).toNat = c.toNat := (utf8EncodeChar_of_mem h (by decide)).1
        exact feed (Char.toNat_inj.1 code.symm)
      have apart : ['\n'].isPrefixOf (c :: rest) = false :=
        isPrefixOf_eq_false rest (by simp) (by simpa using feed)
      rw [pieces, apart, consFirst_eq c (pieces_ne_nil _ _ _)]
      show cuts (String.utf8EncodeChar c ++ encoded rest) = _
      rw [cuts_append free, ih]
      obtain ⟨piece, others, shape⟩ := List.exists_cons_of_ne_nil (pieces_ne_nil ['\n'] 0 rest)
      simp [shape, encoded]

/-! ## Lines -/

/-- A line without the carriage return at its end. -/
def withoutReturn (line : List Char) : List Char :=
  if line.getLast? = some '\r' then line.dropLast else line

/-- The lines of a text, set apart by line feeds. A carriage return in front of a line feed belongs
to it, and there is no line behind the last line feed if nothing is. -/
def linesOf (text : List Char) : List (List Char) :=
  let pieces := splitOn ['\n'] text
  pieces.dropLast.map withoutReturn ++ pieces.getLast?.toList.filter (· ≠ [])

theorem encoded_concat (front : List Char) (c : Char) :
    encoded (front ++ [c]) = encoded front ++ String.utf8EncodeChar c := by
  rw [encoded, List.flatMap_append, List.flatMap_singleton]
  rfl

/-- The byte of a carriage return stands for carriage returns only. -/
theorem getLast?_encoded (line : List Char) :
    (encoded line).getLast? = some 13 ↔ line.getLast? = some '\r' := by
  obtain rfl | ⟨front, c, rfl⟩ := List.eq_nil_or_concat line
  · exact ⟨nofun, nofun⟩
  rw [List.concat_eq_append, encoded_concat, List.getLast?_concat, Option.some.injEq,
    List.getLast?_append_of_ne_nil _ String.utf8EncodeChar_ne_nil]
  constructor
  · intro h
    have code := (utf8EncodeChar_of_mem (List.mem_of_getLast? h) (by decide)).1
    exact Char.toNat_inj.1 code.symm
  · rintro rfl
    rfl

theorem dropReturn_encoded (line : List Char) :
    dropReturn (encoded line) = encoded (withoutReturn line) := by
  unfold dropReturn withoutReturn
  by_cases h : line.getLast? = some '\r'
  · rw [if_pos h, if_pos ((getLast?_encoded line).2 h)]
    obtain ⟨front, rfl⟩ := List.getLast?_eq_some_iff.1 h
    rw [encoded_concat]
    show (encoded front ++ [13]).dropLast = _
    rw [List.dropLast_concat, List.dropLast_concat]
  · rw [if_neg h, if_neg (mt (getLast?_encoded line).1 h)]

/-- The lines of an encoded text are the lines of the text, encoded. -/
theorem lines_encoded (text : List Char) : lines (encoded text) = (linesOf text).map encoded := by
  obtain none | ⟨front, last, pieces⟩ := List.eq_nil_or_concat (splitOn ['\n'] text)
  · exact absurd none (pieces_ne_nil _ _ _)
  rw [List.concat_eq_append] at pieces
  have shape := cuts_encoded text
  rw [pieces, List.map_append, cuts] at shape
  obtain ⟨ended, behind⟩ := List.append_inj' shape rfl
  simp only [lines, linesOf, ended, List.singleton_inj.1 behind, pieces, List.map_map,
    List.map_append, List.dropLast_concat, List.getLast?_concat]
  congr 1
  · exact List.map_congr_left fun line _ => dropReturn_encoded line
  · cases last with
    | nil => rfl
    | cons c rest =>
      have some : encoded (c :: rest) ≠ [] :=
        List.append_ne_nil_of_left_ne_nil String.utf8EncodeChar_ne_nil _
      rw [if_neg (by simpa using some)]
      rfl

end RatingArchive.Text
