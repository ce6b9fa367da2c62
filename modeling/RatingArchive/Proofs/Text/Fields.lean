import Mathlib.Data.List.Basic
import RatingArchive.Text.Blank
import RatingArchive.Text.Split
/-!
# Fields between delimiters

Splitting takes nothing from a text: its pieces, joined by the delimiter, are the text
(`intercalate_splitOn`). Fields that the delimiter `Separates` come back from a line in which they
are `Joined`, and the blanks around them do not count (`trim_splitOn_of_joined`), whatever follows
behind a further delimiter (`trim_splitOn_of_joined_append`).
-/

namespace RatingArchive.Text

/-- There is no blank in the text. -/
def Solid (text : List Char) : Prop := ∀ c ∈ text, isBlank c = false

/-- The text is the field, with blanks around it. -/
def Padded (field text : List Char) : Prop :=
  ∃ left right, (∀ c ∈ left, isBlank c = true) ∧ (∀ c ∈ right, isBlank c = true) ∧
    text = left ++ field ++ right

/-- The line is the fields with a delimiter between each and the next, and blanks around each. -/
def Joined (delimiter : List Char) (fields : List (List Char)) (line : List Char) : Prop :=
  ∃ texts, List.Forall₂ Padded fields texts ∧ line = delimiter.intercalate texts

/-- The delimiter can be told from the fields and from the blanks around them. -/
structure Separates (delimiter : List Char) (fields : List (List Char)) : Prop where
  nonempty : delimiter ≠ []
  solid : Solid delimiter
  absent : ∀ field ∈ fields, ∀ c ∈ field, c ∉ delimiter

/-! ## Blanks around a field -/

theorem trimStart_append_of_blank {left : List Char} (text : List Char)
    (blank : ∀ c ∈ left, isBlank c = true) : trimStart (left ++ text) = trimStart text :=
  List.dropWhile_append_of_pos blank

theorem trimStart_of_solid {field : List Char} (right : List Char) (nonempty : field ≠ [])
    (solid : Solid field) : trimStart (field ++ right) = field ++ right := by
  obtain ⟨c, rest, rfl⟩ := List.exists_cons_of_ne_nil nonempty
  have here : isBlank c = false := solid c (by simp)
  exact List.dropWhile_cons_of_neg (by simp [here])

theorem trim_of_padded {field text : List Char} (solid : Solid field) (padded : Padded field text) :
    trim text = field := by
  obtain ⟨left, right, blankLeft, blankRight, rfl⟩ := padded
  by_cases nonempty : field = []
  · subst nonempty
    refine trim_of_blank fun c hc => ?_
    simp only [List.append_nil, List.mem_append] at hc
    exact hc.elim (blankLeft c) (blankRight c)
  · have start : trimStart (left ++ field ++ right) = field ++ right := by
      rw [List.append_assoc, trimStart_append_of_blank _ blankLeft,
        trimStart_of_solid right nonempty solid]
    have fromEnd : trimStart (field ++ right).reverse = field.reverse := by
      have turned : Solid field.reverse := fun c hc => solid c (List.mem_reverse.1 hc)
      rw [List.reverse_append,
        trimStart_append_of_blank _ fun c hc => blankRight c (List.mem_reverse.1 hc)]
      simpa using trimStart_of_solid [] (by simpa using nonempty) turned
    rw [trim, start, fromEnd, List.reverse_reverse]

theorem map_trim_of_padded {fields texts : List (List Char)} (solid : ∀ field ∈ fields, Solid field)
    (padded : List.Forall₂ Padded fields texts) : texts.map trim = fields := by
  induction padded with
  | nil => rfl
  | cons first _ ih =>
    rw [List.map_cons, trim_of_padded (solid _ (by simp)) first,
      ih fun field hfield => solid field (by simp [hfield])]

theorem Padded.disjoint {delimiter field text : List Char} (padded : Padded field text)
    (solid : Solid delimiter) (absent : ∀ c ∈ field, c ∉ delimiter) :
    ∀ c ∈ text, c ∉ delimiter := by
  obtain ⟨left, right, blankLeft, blankRight, rfl⟩ := padded
  have outside {c : Char} (blank : isBlank c = true) : c ∉ delimiter := fun h => by
    simp [solid c h] at blank
  intro c hc
  simp only [List.mem_append] at hc
  obtain (hc | hc) | hc := hc
  · exact outside (blankLeft c hc)
  · exact absent c hc
  · exact outside (blankRight c hc)

theorem Separates.disjoint_of_padded {delimiter : List Char} {fields texts : List (List Char)}
    (separates : Separates delimiter fields) (padded : List.Forall₂ Padded fields texts) :
    ∀ text ∈ texts, ∀ c ∈ text, c ∉ delimiter := by
  obtain ⟨-, solid, absent⟩ := separates
  induction padded with
  | nil => simp
  | cons first _ ih =>
    rw [List.forall_mem_cons] at absent ⊢
    exact ⟨first.disjoint solid absent.1, ih absent.2⟩

/-! ## Pieces and the text that they come from -/

theorem intercalate_cons (delimiter piece : List Char) {pieces : List (List Char)}
    (h : pieces ≠ []) :
    delimiter.intercalate (piece :: pieces) =
      piece ++ delimiter ++ delimiter.intercalate pieces := by
  obtain ⟨next, rest, rfl⟩ := List.exists_cons_of_ne_nil h
  exact List.intercalate_cons_cons

theorem intercalate_consFirst (delimiter : List Char) (c : Char) {pieces : List (List Char)}
    (h : pieces ≠ []) :
    delimiter.intercalate (consFirst c pieces) = c :: delimiter.intercalate pieces := by
  match pieces with
  | [piece] => simp [consFirst]
  | piece :: next :: rest => simp [consFirst, List.intercalate_cons_cons]

theorem intercalate_pieces {delimiter : List Char} (nonempty : delimiter ≠ []) (skip : Nat)
    (text : List Char) : delimiter.intercalate (pieces delimiter skip text) = text.drop skip := by
  induction text generalizing skip with
  | nil => simp [pieces]
  | cons c rest ih =>
    cases skip with
    | succ skip => exact ih skip
    | zero =>
      rw [pieces]
      split
      next here =>
        obtain ⟨d, tail, rfl⟩ := List.exists_cons_of_ne_nil nonempty
        obtain ⟨behind, shape⟩ := List.isPrefixOf_iff_prefix.1 here
        obtain ⟨rfl, rfl⟩ := List.cons.inj shape
        rw [intercalate_cons _ _ (pieces_ne_nil _ _ _), ih]
        simp
      next =>
        rw [intercalate_consFirst _ _ (pieces_ne_nil _ _ _), ih]
        rfl

/-- The pieces of a text, joined by the delimiter, are the text. -/
theorem intercalate_splitOn {delimiter : List Char} (nonempty : delimiter ≠ []) (text : List Char) :
    delimiter.intercalate (splitOn delimiter text) = text := by
  rw [splitOn, if_neg (by simpa using nonempty)]
  exact intercalate_pieces nonempty 0 text

theorem prefix_intercalate (delimiter piece : List Char) (pieces : List (List Char)) :
    piece <+: delimiter.intercalate (piece :: pieces) := by
  by_cases last : pieces = []
  · simp [last]
  · rw [intercalate_cons _ _ last, List.append_assoc]
    exact List.prefix_append _ _

/-- The delimiter is in none of the pieces. -/
theorem not_infix_of_mem_pieces {delimiter : List Char} (nonempty : delimiter ≠ []) {skip : Nat}
    {text piece : List Char} (h : piece ∈ pieces delimiter skip text) : ¬ delimiter <:+: piece := by
  induction text generalizing skip piece with
  | nil =>
    rw [pieces, List.mem_singleton] at h
    simpa [h] using nonempty
  | cons c rest ih =>
    cases skip with
    | succ skip => exact ih h
    | zero =>
      rw [pieces] at h
      split at h
      next =>
        rcases List.mem_cons.1 h with rfl | h
        · simpa using nonempty
        · exact ih h
      next absent =>
        obtain ⟨first, others, shape⟩ :=
          List.exists_cons_of_ne_nil (pieces_ne_nil delimiter 0 rest)
        have start : first <+: rest := by
          have whole := intercalate_pieces nonempty 0 rest
          rw [shape, List.drop_zero] at whole
          exact whole ▸ prefix_intercalate delimiter first others
        rw [shape] at h
        rcases List.mem_cons.1 h with rfl | h
        · have among : first ∈ pieces delimiter 0 rest := by simp [shape]
          rw [List.infix_cons_iff]
          rintro (here | later)
          · exact absent (List.isPrefixOf_iff_prefix.2
              (here.trans (List.cons_prefix_cons.2 ⟨rfl, start⟩)))
          · exact ih among later
        · have among : piece ∈ pieces delimiter 0 rest := by simp [shape, h]
          exact ih among

theorem not_infix_of_mem_splitOn {delimiter text piece : List Char} (nonempty : delimiter ≠ [])
    (h : piece ∈ splitOn delimiter text) : ¬ delimiter <:+: piece := by
  rw [splitOn, if_neg (by simpa using nonempty)] at h
  exact not_infix_of_mem_pieces nonempty h

theorem intercalate_concat (delimiter : List Char) (front : List (List Char)) (last : List Char) :
    delimiter.intercalate (front ++ [last]) = front.flatMap (· ++ delimiter) ++ last := by
  induction front with
  | nil => simp
  | cons text front ih =>
    rw [List.cons_append, intercalate_cons _ _ (by simp), ih, List.flatMap_cons,
      List.append_assoc (text ++ delimiter)]

theorem splitOn_flatMap_append {delimiter : List Char} {texts : List (List Char)}
    (rest : List Char) (nonempty : delimiter ≠ [])
    (disjoint : ∀ text ∈ texts, ∀ c ∈ text, c ∉ delimiter) :
    splitOn delimiter (texts.flatMap (· ++ delimiter) ++ rest) =
      texts ++ splitOn delimiter rest := by
  simp only [splitOn, if_neg (show ¬ delimiter.isEmpty = true by simpa using nonempty)]
  induction texts with
  | nil => rfl
  | cons text texts ih =>
    rw [List.flatMap_cons, List.append_assoc, pieces_append _ nonempty (disjoint text (by simp)),
      ih fun x hx => disjoint x (by simp [hx])]
    rfl

/-! ## Fields of a line -/

section Lines

variable {delimiter line : List Char} {fields : List (List Char)}

/-- What stands between the delimiters of a line is free of them. -/
theorem Joined.exists_texts (joined : Joined delimiter fields line) (some : fields ≠ [])
    (separates : Separates delimiter fields) :
    ∃ front last, line = front.flatMap (· ++ delimiter) ++ last ∧
      List.Forall₂ Padded fields (front ++ [last]) ∧
      ∀ text ∈ front ++ [last], ∀ c ∈ text, c ∉ delimiter := by
  obtain ⟨texts, padded, rfl⟩ := joined
  have disjoint := separates.disjoint_of_padded padded
  obtain rfl | ⟨front, last, rfl⟩ := List.eq_nil_or_concat texts
  · cases padded
    exact absurd rfl some
  · simp only [List.concat_eq_append] at padded disjoint ⊢
    exact ⟨front, last, intercalate_concat delimiter front last, padded, disjoint⟩

theorem trim_splitOn_of_joined (separates : Separates delimiter fields) (some : fields ≠ [])
    (solid : ∀ field ∈ fields, Solid field) (joined : Joined delimiter fields line) :
    (splitOn delimiter line).map trim = fields := by
  obtain ⟨front, last, rfl, padded, disjoint⟩ := joined.exists_texts some separates
  have alone : splitOn delimiter last = [last] := by
    rw [splitOn, if_neg (by simpa using separates.nonempty)]
    exact pieces_of_disjoint separates.nonempty (disjoint last (by simp))
  rw [splitOn_flatMap_append _ separates.nonempty fun text h => disjoint text (by simp [h]), alone]
  exact map_trim_of_padded solid padded

theorem trim_splitOn_of_joined_append (further : List Char) (separates : Separates delimiter fields)
    (some : fields ≠ []) (solid : ∀ field ∈ fields, Solid field)
    (joined : Joined delimiter fields line) :
    (splitOn delimiter (line ++ delimiter ++ further)).map trim =
      fields ++ (splitOn delimiter further).map trim := by
  obtain ⟨front, last, rfl, padded, disjoint⟩ := joined.exists_texts some separates
  have shape : front.flatMap (· ++ delimiter) ++ last ++ delimiter ++ further =
      (front ++ [last]).flatMap (· ++ delimiter) ++ further := by
    simp [List.append_assoc]
  rw [shape, splitOn_flatMap_append _ separates.nonempty disjoint, List.map_append,
    map_trim_of_padded solid padded]

end Lines

end RatingArchive.Text
