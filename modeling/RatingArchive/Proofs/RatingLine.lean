import Mathlib.Data.List.TakeWhile
import RatingArchive.Proofs.Text.Fields
import RatingArchive.Proofs.Text.Natural
import RatingArchive.RatingLine
/-!
# Reading ratings off lines

The fields of a line `Denote` a rating when they spell its user, its item and its value; a further
field that is not blank has to spell its timestamp.

* No text that is read as a number has a blank in it (`Spells.solid`, `Binary64.solid_of_read`), so
  the blanks around a field can be told from the field.
* `readFields_of_denote` and `denote_of_readFields`: fields are read as what they spell, and fields
  that are read spell what was read.
* `timestamp_of_readTimestamp` says the same of the field for the timestamp.
* `read_lines` puts lines together from fields and takes them apart.
-/

namespace RatingArchive

open Text

/-! ## Numbers have no blanks -/

theorem isBlank_of_isDigit {c : Char} (h : c.isDigit = true) : isBlank c = false := by
  have := Char.isDigit_iff_toNat.1 h
  simp only [Char.reduceToNat] at this
  simp only [isBlank, Bool.or_eq_false_iff, Bool.and_eq_false_iff, decide_eq_false_iff_not,
    beq_eq_false_iff_ne]
  omega

theorem toLower_of_isBlank {c : Char} (h : isBlank c = true) : c.toLower = c := by
  unfold Char.toLower
  refine dif_neg fun upper => ?_
  have low : 65 ≤ c.toNat := upper.1
  have high : c.toNat ≤ 90 := upper.2
  simp only [isBlank, Bool.or_eq_true, Bool.and_eq_true, decide_eq_true_eq, beq_iff_eq] at h
  omega

theorem solid_of_isDigit {text : List Char} (digits : ∀ c ∈ text, c.isDigit = true) : Solid text :=
  fun c hc => isBlank_of_isDigit (digits c hc)

theorem Text.Spells.solid {text : List Char} {n : Nat} (h : Spells text n) : Solid text := by
  intro c hc
  rcases h.eq_plus_or_isDigit c hc with rfl | digit
  · rfl
  · exact isBlank_of_isDigit digit

theorem Text.Solid.cons {c : Char} {text : List Char} (first : isBlank c = false)
    (rest : Solid text) : Solid (c :: text) := List.forall_mem_cons.2 ⟨first, rest⟩

theorem Text.Solid.append {front text : List Char} (first : Solid front) (rest : Solid text) :
    Solid (front ++ text) := List.forall_mem_append.2 ⟨first, rest⟩

theorem Text.solid_of_map_toLower {text : List Char} (h : Solid (text.map Char.toLower)) :
    Solid text := by
  intro c hc
  by_contra blank
  rw [Bool.not_eq_false] at blank
  have := h c.toLower (List.mem_map_of_mem hc)
  rw [toLower_of_isBlank blank, blank] at this
  cases this

namespace Binary64

theorem exists_sign {text rest : List Char} {negative : Bool}
    (h : (match text with
      | '-' :: rest => (true, rest)
      | '+' :: rest => (false, rest)
      | rest => (false, rest)) = (negative, rest)) :
    ∃ sign, Solid sign ∧ text = sign ++ rest := by
  split at h
  · cases h
    exact ⟨['-'], by simp [Solid, isBlank], rfl⟩
  · cases h
    exact ⟨['+'], by simp [Solid, isBlank], rfl⟩
  · cases h
    exact ⟨[], nofun, rfl⟩

theorem solid_of_readExponent? {text : List Char} {e : Int} (h : readExponent? text = some e) :
    Solid text := by
  unfold readExponent? at h
  split at h
  · exact nofun
  · split at h
    next c text letter =>
      have first : isBlank c = false := by rcases letter with rfl | rfl <;> rfl
      split at h
      next signed =>
        obtain ⟨sign, solid, rfl⟩ := exists_sign signed
        split at h
        next => cases h
        next digits =>
          simp only [Bool.or_eq_true, Bool.not_eq_true', not_or, Bool.not_eq_false,
            List.all_eq_true] at digits
          exact .cons first (solid.append (solid_of_isDigit digits.2))
    next => cases h

theorem solid_of_readDecimal? {text : List Char} {bits : Nat} (h : readDecimal? text = some bits) :
    Solid text := by
  have digits {text : List Char} (behind : Solid (text.dropWhile Char.isDigit)) : Solid text := by
    rw [← List.takeWhile_append_dropWhile (p := Char.isDigit) (l := text)]
    exact (solid_of_isDigit fun c hc => List.mem_takeWhile_imp hc).append behind
  have exponent {rest : List Char} {f : Int → Nat}
      (h : (readExponent? rest).map f = some bits) : Solid rest := by
    obtain ⟨e, he, -⟩ := Option.map_eq_some_iff.1 h
    exact solid_of_readExponent? he
  refine digits ?_
  unfold readDecimal? at h
  simp only at h
  split at h
  next rest point =>
    rw [point]
    refine .cons rfl (digits ?_)
    split at h
    next => cases h
    next => exact exponent h
  next =>
    split at h
    next => cases h
    next => exact exponent h

theorem solid_of_readUnsigned? {text : List Char} {bits : Nat}
    (h : readUnsigned? text = some bits) : Solid text := by
  have word {name : String} (solid : Solid name.toList)
      (h : String.ofList (text.map Char.toLower) = name) : Solid text := by
    refine solid_of_map_toLower ?_
    rwa [← h, String.toList_ofList] at solid
  unfold readUnsigned? at h
  split at h
  next inf => exact word (by simp [Solid, isBlank]) inf
  next infinity => exact word (by simp [Solid, isBlank]) infinity
  next nan => exact word (by simp [Solid, isBlank]) nan
  next => exact solid_of_readDecimal? h

theorem solid_of_read {text : List Char} {value : Binary64} (h : Binary64.read text = .ok value) :
    Solid text := by
  unfold Binary64.read at h
  split at h
  next signed =>
    obtain ⟨sign, solid, rfl⟩ := exists_sign signed
    split at h
    next => cases h
    next =>
      split at h
      next number => exact solid.append (solid_of_readUnsigned? number)
      next => cases h

end Binary64

/-! ## Fields -/

/-- The three fields spell the user, the item and the value of a rating. -/
structure Denote (user item value : List Char) (rating : Rating) : Prop where
  user : Spells user rating.user.toNat
  item : Spells item rating.item.toNat
  value : Binary64.read value = .ok rating.value

/-- There is no field for the timestamp, or nothing in it. -/
def Untimed (field : Option (List Char)) : Prop := ∀ text ∈ field, text = []

variable {user item value : List Char} {rating : Rating}

theorem Denote.solid (denote : Denote user item value rating) :
    ∀ field ∈ [user, item, value], Solid field :=
  List.forall_mem_cons.2 ⟨denote.user.solid, List.forall_mem_cons.2
    ⟨denote.item.solid, List.forall_mem_singleton.2 (Binary64.solid_of_read denote.value)⟩⟩

theorem inField_bind_eq_ok_iff {ε α β : Type} {fault : ε → LineFault} {read : Except ε α}
    {next : α → Except LineFault β} {b : β} :
    (inField fault read >>= next) = .ok b ↔ ∃ a, read = .ok a ∧ next a = .ok b := by
  cases read with
  | error cause => exact ⟨nofun, nofun⟩
  | ok a =>
    constructor
    · exact fun h => ⟨a, rfl, h⟩
    · rintro ⟨_, ⟨rfl⟩, h⟩
      exact h

theorem inField_ok_bind {ε α β : Type} (fault : ε → LineFault) {read : Except ε α} {a : α}
    (next : α → Except LineFault β) (h : read = .ok a) :
    (inField fault read >>= next) = next a := by
  subst h
  rfl

theorem readTimestamp_of_untimed {field : Option (List Char)} (h : Untimed field) (needed : Bool) :
    readTimestamp needed field = if needed then .error .missingTimestamp else .ok none := by
  match field with
  | none => rfl
  | some [] => rfl
  | some (c :: rest) => cases h (c :: rest) rfl

theorem readTimestamp_eq_ok_iff_of_ne_nil {text : List Char} (nonempty : text ≠ [])
    (needed : Bool) (timestamp : Option UInt64) :
    readTimestamp needed (some text) = .ok timestamp ↔
      ∃ t, timestamp = some t ∧ Spells text t.toNat := by
  obtain ⟨c, rest, rfl⟩ := List.exists_cons_of_ne_nil nonempty
  rw [readTimestamp.eq_def]
  simp only [inField_bind_eq_ok_iff, readNatural_eq_ok_iff]
  constructor
  · rintro ⟨t, spells, ⟨rfl⟩⟩
    exact ⟨t, rfl, spells⟩
  · rintro ⟨t, rfl, spells⟩
    exact ⟨t, spells, rfl⟩

/-- A timestamp is read where there is one, and it is the one that is written. -/
theorem timestamp_of_readTimestamp {needed : Bool} {field : Option (List Char)}
    {timestamp : Option UInt64} (h : readTimestamp needed field = .ok timestamp) :
    (timestamp = none ↔ Untimed field) ∧
      (∀ t, timestamp = some t ↔ ∃ stamp ∈ field, stamp ≠ [] ∧ Spells stamp t.toNat) ∧
      (needed = true → timestamp ≠ none) := by
  by_cases untimed : Untimed field
  · rw [readTimestamp_of_untimed untimed] at h
    cases needed with
    | true => cases h
    | false =>
      cases h
      refine ⟨iff_of_true rfl untimed, fun t => iff_of_false nofun ?_, nofun⟩
      rintro ⟨stamp, hstamp, nonempty, -⟩
      exact nonempty (untimed stamp hstamp)
  · obtain ⟨stamp, hstamp, nonempty⟩ : ∃ stamp ∈ field, stamp ≠ [] := by
      simpa [Untimed] using untimed
    obtain rfl : field = some stamp := hstamp
    have stamped : timestamp ≠ none := by
      obtain ⟨t, rfl, -⟩ := (readTimestamp_eq_ok_iff_of_ne_nil nonempty needed timestamp).1 h
      exact nofun
    refine ⟨iff_of_false stamped untimed, fun t => ?_, fun _ => stamped⟩
    constructor
    · rintro rfl
      obtain ⟨_, ⟨rfl⟩, spells⟩ := (readTimestamp_eq_ok_iff_of_ne_nil nonempty needed _).1 h
      exact ⟨stamp, rfl, nonempty, spells⟩
    · rintro ⟨_, ⟨rfl⟩, -, spells⟩
      have := (readTimestamp_eq_ok_iff_of_ne_nil nonempty needed (some t)).2 ⟨t, rfl, spells⟩
      exact Except.ok.inj (h.symm.trans this)

theorem readFields_of_denote (denote : Denote user item value rating) (needed : Bool)
    (more : List (List Char)) :
    readFields needed (user :: item :: value :: more) =
      (readTimestamp needed more.head?).map ({ rating with timestamp := · }) := by
  rw [readFields, inField_ok_bind _ _ (readNatural_eq_ok_iff.2 denote.user),
    inField_ok_bind _ _ (readNatural_eq_ok_iff.2 denote.item), inField_ok_bind _ _ denote.value]
  cases readTimestamp needed more.head? <;> rfl

theorem denote_of_readFields {needed : Bool} {fields : List (List Char)}
    (h : readFields needed fields = .ok rating) :
    ∃ user item value more, fields = user :: item :: value :: more ∧
      Denote user item value rating ∧ readTimestamp needed more.head? = .ok rating.timestamp := by
  match fields with
  | user :: item :: value :: more =>
    simp only [readFields, inField_bind_eq_ok_iff] at h
    obtain ⟨u, hu, i, hi, v, hv, h⟩ := h
    cases stamp : readTimestamp needed more.head? with
    | error fault =>
      rw [stamp] at h
      cases h
    | ok timestamp =>
      rw [stamp] at h
      cases h
      exact ⟨user, item, value, more, rfl,
        ⟨readNatural_eq_ok_iff.1 hu, readNatural_eq_ok_iff.1 hi, hv⟩, stamp⟩
  | [] | [_] | [_, _] => cases h

/-! ## Lines -/

/-- The line as it is, or with more behind a further delimiter. -/
def Continues (delimiter line text : List Char) : Prop :=
  text = line ∨ ∃ further, text = line ++ delimiter ++ further

section Lines

variable {delimiter line text : List Char} {fields : List (List Char)}

theorem exists_more_of_continues (separates : Separates delimiter fields) (some : fields ≠ [])
    (solid : ∀ field ∈ fields, Solid field) (joined : Joined delimiter fields line)
    (continues : Continues delimiter line text) :
    ∃ more, (splitOn delimiter text).map trim = fields ++ more := by
  rcases continues with rfl | ⟨further, rfl⟩
  · exact ⟨[], by rw [trim_splitOn_of_joined separates some solid joined, List.append_nil]⟩
  · exact ⟨_, trim_splitOn_of_joined_append further separates some solid joined⟩

theorem readLine_of_denote (denote : Denote user item value rating) {more : List (List Char)}
    (fields : (splitOn delimiter text).map trim = user :: item :: value :: more) (needed : Bool) :
    readLine delimiter needed text =
      (readTimestamp needed more.head?).map ({ rating with timestamp := · }) := by
  rw [readLine, fields, readFields_of_denote denote]

/-- A line without a timestamp is read where none is needed. -/
theorem readLine_of_untimed (denote : Denote user item value rating) {more : List (List Char)}
    (fields : (splitOn delimiter text).map trim = user :: item :: value :: more)
    (untimed : Untimed more.head?) :
    readLine delimiter false text = .ok { rating with timestamp := none } ∧
      readLine delimiter true text = .error .missingTimestamp := by
  rw [readLine_of_denote denote fields, readLine_of_denote denote fields,
    readTimestamp_of_untimed untimed, readTimestamp_of_untimed untimed]
  exact ⟨rfl, rfl⟩

/-- A line with a timestamp is read whether one is needed or not. -/
theorem readLine_of_stamped (denote : Denote user item value rating) {more : List (List Char)}
    {stamp : List Char} {timestamp : UInt64} (spells : Spells stamp timestamp.toNat)
    (fields : (splitOn delimiter text).map trim = user :: item :: value :: stamp :: more)
    (needed : Bool) :
    readLine delimiter needed text = .ok { rating with timestamp := some timestamp } := by
  rw [readLine_of_denote denote fields, List.head?_cons,
    (readTimestamp_eq_ok_iff_of_ne_nil spells.ne_nil needed (some timestamp)).2
      ⟨timestamp, rfl, spells⟩]
  rfl

end Lines

/-- **Ratings on lines.** Fields that spell a rating are read back from a line in which a delimiter
that can be told from them keeps them apart, whatever blanks stand around them and whatever follows
behind the fourth. What is read from a line is what its fields spell. -/
theorem read_lines (delimiter : List Char) (nonempty : delimiter ≠ []) :
    (∀ rating user item value, Denote user item value rating →
      Separates delimiter [user, item, value] →
      (∀ line text,
        (Joined delimiter [user, item, value] line ∧ text = line ∨
          Joined delimiter [user, item, value, []] line ∧ Continues delimiter line text) →
        readLine delimiter false text = .ok { rating with timestamp := none } ∧
          readLine delimiter true text = .error .missingTimestamp) ∧
      ∀ (timestamp : UInt64) stamp line text needed, Spells stamp timestamp.toNat →
        (∀ c ∈ stamp, c ∉ delimiter) → Joined delimiter [user, item, value, stamp] line →
        Continues delimiter line text →
        readLine delimiter needed text = .ok { rating with timestamp := some timestamp }) ∧
    ∀ needed line rating, readLine delimiter needed line = .ok rating →
      delimiter.intercalate (splitOn delimiter line) = line ∧
      (∀ piece ∈ splitOn delimiter line, ¬ delimiter <:+: piece) ∧
      ∃ user item value more,
        (splitOn delimiter line).map trim = user :: item :: value :: more ∧
        Denote user item value rating ∧
        (rating.timestamp = none ↔ Untimed more.head?) ∧
        (∀ timestamp, rating.timestamp = some timestamp ↔
          ∃ stamp ∈ more.head?, stamp ≠ [] ∧ Spells stamp timestamp.toNat) ∧
        (needed = true → rating.timestamp ≠ none) := by
  refine ⟨fun rating user item value denote separates => ?_, fun needed line rating h => ?_⟩
  · have fourth {field : List Char} (solid : Solid field) (absent : ∀ c ∈ field, c ∉ delimiter)
        {line text : List Char} (joined : Joined delimiter [user, item, value, field] line)
        (continues : Continues delimiter line text) :
        ∃ more, (splitOn delimiter text).map trim = user :: item :: value :: field :: more := by
      refine exists_more_of_continues ⟨separates.nonempty, separates.solid, ?_⟩ (by simp) ?_ joined
        continues
      · exact List.forall_mem_append.2 ⟨separates.absent, List.forall_mem_singleton.2 absent⟩
      · exact List.forall_mem_append.2 ⟨denote.solid, List.forall_mem_singleton.2 solid⟩
    constructor
    · rintro line text (⟨joined, rfl⟩ | ⟨joined, continues⟩)
      · have fields := trim_splitOn_of_joined separates (by simp) denote.solid joined
        exact readLine_of_untimed denote fields nofun
      · obtain ⟨more, fields⟩ := fourth (by simp [Solid]) (by simp) joined continues
        exact readLine_of_untimed denote fields (by simp [Untimed])
    · intro timestamp stamp line text needed spells absent joined continues
      obtain ⟨more, fields⟩ := fourth spells.solid absent joined continues
      exact readLine_of_stamped denote spells fields needed
  · refine ⟨intercalate_splitOn nonempty line, fun _ => not_infix_of_mem_splitOn nonempty, ?_⟩
    obtain ⟨user, item, value, more, fields, denote, stamp⟩ := denote_of_readFields h
    exact ⟨user, item, value, more, fields, denote, timestamp_of_readTimestamp stamp⟩

theorem read_lines_colons :
    let rating : Rating :=
      { user := 7, item := 18446744073709551615, value := ⟨0xC039000000000000⟩, timestamp := none }
    let line := " +007::18446744073709551615 ::-2.5e1".toList
    let stamped := line ++ "::\u00A00042 ".toList
    readLine [':', ':'] false line = .ok rating ∧
      readLine [':', ':'] true line = .error .missingTimestamp ∧
      readLine [':', ':'] true (line ++ "::  ::y".toList) = .error .missingTimestamp ∧
      readLine [':', ':'] false stamped = .ok { rating with timestamp := some 42 } ∧
      readLine [':', ':'] true (stamped ++ "::x::y".toList) =
        .ok { rating with timestamp := some 42 } ∧
      [':', ':'].intercalate (splitOn [':', ':'] line) = line := by
  intro rating line stamped
  obtain ⟨read, back⟩ := read_lines [':', ':'] (by decide)
  -- the three fields, each alone and as it stands in the line
  have user : Spells "+007".toList 7 := .inr ⟨_, rfl, 2, rfl⟩
  have item : Spells "18446744073709551615".toList 18446744073709551615 := .inl ⟨0, by decide⟩
  have value : Binary64.read "-2.5e1".toList = .ok ⟨0xC039000000000000⟩ := by decide +kernel
  have space : ∀ c ∈ [' '], isBlank c = true := by simp [isBlank]
  have front (fields texts) (rest : List.Forall₂ Padded fields texts) :
      List.Forall₂ Padded
        ("+007".toList :: "18446744073709551615".toList :: "-2.5e1".toList :: fields)
        (" +007".toList :: "18446744073709551615 ".toList :: "-2.5e1".toList :: texts) :=
    .cons ⟨[' '], [], space, nofun, rfl⟩ <| .cons ⟨[], [' '], nofun, space, rfl⟩ <|
      .cons ⟨[], [], nofun, nofun, rfl⟩ rest
  have three : Joined [':', ':'] _ line := ⟨_, front [] [] .nil, rfl⟩
  have blank : Joined [':', ':'] _ (line ++ "::  ".toList) :=
    ⟨_, front [[]] _ (.cons ⟨[' '], [' '], space, space, rfl⟩ .nil), rfl⟩
  have padded : Padded "0042".toList "\u00A00042 ".toList :=
    ⟨['\u00A0'], [' '], by simp [isBlank], space, rfl⟩
  have four : Joined [':', ':'] _ stamped :=
    ⟨_, front ["0042".toList] _ (.cons padded .nil), rfl⟩
  have stamp : Spells "0042".toList 42 := .inl ⟨2, rfl⟩
  obtain ⟨untimed, timed⟩ := read rating _ _ _ ⟨user, item, value⟩
    ⟨nofun, by simp [Solid, isBlank], by simp⟩
  have plain := untimed line line (.inl ⟨three, rfl⟩)
  exact ⟨plain.1, plain.2, (untimed _ _ (.inr ⟨blank, .inr ⟨['y'], rfl⟩⟩)).2,
    timed 42 _ stamped stamped false stamp (by simp) four (.inl rfl),
    timed 42 _ stamped _ true stamp (by simp) four (.inr ⟨"x::y".toList, rfl⟩),
    (back false line rating plain.1).1⟩

end RatingArchive
