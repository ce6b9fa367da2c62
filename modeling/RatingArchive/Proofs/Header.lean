import RatingArchive.Header
/-!
# The written form of headers

A byte string is too short for a header, or malformed, or begins with the written form of a header
that a file can hold (`Header.parse_cases`). So a header is read where a valid one was written, and
nowhere else (`Header.parse_eq_ok_iff`); any other that was written is malformed
(`Header.malformed_of_not_valid`). `Header.render_and_parse` says this of headers in byte strings
and in files.
-/

namespace RatingArchive

namespace Header

/-- What a header has to declare so that it is accepted. -/
structure Valid (header : Header) : Prop where
  known : header.format.isKnown = true
  keyed : 0 < header.records → header.users ≠ 0 ∧ header.items ≠ 0
  users_le : header.users ≤ header.records
  items_le : header.items ≤ header.records

theorem checkCounts_eq_ok_iff {header : Header} :
    header.checkCounts = .ok () ↔
      (0 < header.records → header.users ≠ 0 ∧ header.items ≠ 0) ∧
        header.users ≤ header.records ∧ header.items ≤ header.records := by
  unfold checkCounts
  by_cases bare : 0 < header.records ∧ (header.users = 0 ∨ header.items = 0)
  · rw [if_pos bare]
    refine ⟨nofun, ?_⟩
    rintro ⟨keyed, -⟩
    obtain ⟨users, items⟩ := keyed bare.1
    rcases bare.2 with none | none
    · exact absurd none users
    · exact absurd none items
  rw [if_neg bare]
  have keyed : 0 < header.records → header.users ≠ 0 ∧ header.items ≠ 0 := fun some =>
    not_or.1 fun none => bare ⟨some, none⟩
  by_cases many : header.records < header.users ∨ header.records < header.items
  · rw [if_pos many]
    refine ⟨nofun, ?_⟩
    rintro ⟨-, users, items⟩
    rcases many with more | more
    · exact absurd more (UInt32.not_lt.2 users)
    · exact absurd more (UInt32.not_lt.2 items)
  · rw [if_neg many]
    obtain ⟨users, items⟩ := not_or.1 many
    exact iff_of_true rfl ⟨keyed, UInt32.not_lt.1 users, UInt32.not_lt.1 items⟩

theorem valid_iff {header : Header} :
    header.Valid ↔ header.format.isKnown = true ∧ header.checkCounts = .ok () := by
  rw [checkCounts_eq_ok_iff]
  constructor
  · rintro ⟨known, keyed, users, items⟩
    exact ⟨known, keyed, users, items⟩
  · rintro ⟨known, keyed, users, items⟩
    exact ⟨known, keyed, users, items⟩

/-- Counts that no file can have make a header malformed. -/
theorem malformed_of_checkCounts {header : Header} {error : Error}
    (failed : header.checkCounts = .error error) : ∃ fault, error = .malformedHeader fault := by
  unfold checkCounts at failed
  split at failed
  · cases failed
    exact ⟨_, rfl⟩
  · split at failed
    · cases failed
      exact ⟨_, rfl⟩
    · cases failed

/-- The words of a byte string that begins with six of them. -/
theorem wordAt_words (a b c d e f : UInt32) (rest : Bytes) :
    let bytes := word32 a ++ word32 b ++ word32 c ++ word32 d ++ word32 e ++ word32 f ++ rest
    wordAt bytes 0 = a ∧ wordAt bytes 1 = b ∧ wordAt bytes 2 = c ∧ wordAt bytes 3 = d ∧
      wordAt bytes 4 = e ∧ wordAt bytes 5 = f := by
  have word (front : Bytes) (w : UInt32) (rest : Bytes) (place : Nat)
      (h : front.length = 4 * place) : wordAt (front ++ (word32 w ++ rest)) place = w := by
    rw [wordAt, List.drop_left' h, List.take_left' (length_word32 w), ofWord32_word32]
  simp only [List.append_assoc]
  refine ⟨word [] a _ 0 rfl, word _ b _ 1 (by simp), ?_, ?_, ?_, ?_⟩
  · rw [← List.append_assoc]
    exact word _ c _ 2 (by simp)
  · rw [← List.append_assoc, ← List.append_assoc]
    exact word _ d _ 3 (by simp)
  · rw [← List.append_assoc, ← List.append_assoc, ← List.append_assoc]
    exact word _ e _ 4 (by simp)
  · rw [← List.append_assoc, ← List.append_assoc, ← List.append_assoc, ← List.append_assoc]
    exact word _ f _ 5 (by simp)

/-- The first six words of a byte string are its front. -/
theorem words_append_drop {bytes : Bytes} (h : headerSize ≤ bytes.length) :
    word32 (wordAt bytes 0) ++ word32 (wordAt bytes 1) ++ word32 (wordAt bytes 2) ++
      word32 (wordAt bytes 3) ++ word32 (wordAt bytes 4) ++ word32 (wordAt bytes 5) ++
        bytes.drop headerSize = bytes := by
  have word (place : Nat) (h : 4 * place + 4 ≤ bytes.length) :
      word32 (wordAt bytes place) ++ bytes.drop (4 * (place + 1)) = bytes.drop (4 * place) := by
    rw [wordAt, word32_ofWord32 (by rw [List.length_take, List.length_drop]; omega), Nat.mul_add,
      ← List.drop_drop, List.take_append_drop]
  unfold headerSize at h ⊢
  rw [List.append_assoc, word 5 (by omega), List.append_assoc, word 4 (by omega),
    List.append_assoc, word 3 (by omega), List.append_assoc, word 2 (by omega),
    List.append_assoc, word 1 (by omega), word 0 (by omega), List.drop_zero]

/-- A header that was written is read back once its flags and its counts are checked. -/
theorem parse_render_append (header : Header) (rest : Bytes) :
    parse (header.render ++ rest) =
      if header.format.isKnown then do
        header.checkCounts
        return header
      else .error (.malformedHeader (.unknownFlags header.format.bits)) := by
  obtain ⟨format, records, users, items⟩ := header
  have long : ¬(render ⟨format, records, users, items⟩ ++ rest).length < headerSize := by
    rw [List.length_append, length_render]
    omega
  obtain ⟨magic, version, bits, first, second, third⟩ :=
    wordAt_words magicNumber formatVersion format.bits records users items rest
  unfold parse
  rw [if_neg long]
  simp only [render, magic, version, bits, first, second, third, ne_eq, not_true_eq_false, if_false]
  cases format.isKnown <;> rfl

theorem parse_of_valid {header : Header} (valid : header.Valid) (rest : Bytes) :
    parse (header.render ++ rest) = .ok header := by
  obtain ⟨known, counts⟩ := valid_iff.1 valid
  rw [parse_render_append, if_pos known, counts]
  rfl

theorem malformed_of_not_valid {header : Header} (unfit : ¬header.Valid) (rest : Bytes) :
    ∃ fault, parse (header.render ++ rest) = .error (.malformedHeader fault) := by
  rw [parse_render_append]
  by_cases known : header.format.isKnown = true
  · rw [if_pos known]
    cases checked : header.checkCounts with
    | ok _ => exact absurd (valid_iff.2 ⟨known, checked⟩) unfit
    | error error =>
      obtain ⟨fault, rfl⟩ := malformed_of_checkCounts checked
      exact ⟨fault, rfl⟩
  · rw [if_neg known]
    exact ⟨_, rfl⟩

/-- What becomes of a byte string: it is too short for a header, or malformed, or begins with a
valid one. -/
theorem parse_cases (bytes : Bytes) :
    (bytes.length < headerSize ∧ parse bytes = .error (.truncated headerSize bytes.length)) ∨
      (headerSize ≤ bytes.length ∧ ∃ fault, parse bytes = .error (.malformedHeader fault)) ∨
      ∃ header rest, header.Valid ∧ bytes = header.render ++ rest ∧ parse bytes = .ok header := by
  by_cases short : bytes.length < headerSize
  · exact .inl ⟨short, by rw [parse, if_pos short]⟩
  right
  have long := Nat.not_lt.1 short
  by_cases magic : wordAt bytes 0 = magicNumber
  · by_cases version : wordAt bytes 1 = formatVersion
    · obtain ⟨header, front⟩ : ∃ header : Header,
          header.render ++ bytes.drop headerSize = bytes := by
        refine ⟨⟨⟨wordAt bytes 2⟩, wordAt bytes 3, wordAt bytes 4, wordAt bytes 5⟩, ?_⟩
        rw [render, ← magic, ← version]
        exact words_append_drop long
      by_cases valid : header.Valid
      · have read := parse_of_valid valid (bytes.drop headerSize)
        rw [front] at read
        exact .inr ⟨header, _, valid, front.symm, read⟩
      · have malformed := malformed_of_not_valid valid (bytes.drop headerSize)
        rw [front] at malformed
        exact .inl ⟨long, malformed⟩
    · refine .inl ⟨long, .version (wordAt bytes 1), ?_⟩
      rw [parse, if_neg short, if_neg (not_not_intro magic), if_pos version]
  · refine .inl ⟨long, .magic (wordAt bytes 0), ?_⟩
    rw [parse, if_neg short, if_pos magic]

/-- **A header is read where a valid header was written**, and nowhere else. -/
theorem parse_eq_ok_iff {bytes : Bytes} {header : Header} :
    parse bytes = .ok header ↔ header.Valid ∧ ∃ rest, bytes = header.render ++ rest := by
  constructor
  · intro parsed
    rcases parse_cases bytes with ⟨-, short⟩ | ⟨-, fault, malformed⟩ | ⟨_, rest, valid, front, read⟩
    · cases parsed.symm.trans short
    · cases parsed.symm.trans malformed
    · cases parsed.symm.trans read
      exact ⟨valid, rest, front⟩
  · rintro ⟨valid, rest, rfl⟩
    exact parse_of_valid valid rest

/-- The only byte strings that are too short for a header are those shorter than one. -/
theorem parse_eq_truncated_iff {bytes : Bytes} {expected actual : Nat} :
    parse bytes = .error (.truncated expected actual) ↔
      bytes.length < headerSize ∧ expected = headerSize ∧ actual = bytes.length := by
  constructor
  · intro failed
    rcases parse_cases bytes with ⟨missing, short⟩ | ⟨-, fault, malformed⟩ | ⟨_, _, -, -, read⟩
    · cases failed.symm.trans short
      exact ⟨missing, rfl, rfl⟩
    · cases failed.symm.trans malformed
    · cases failed.symm.trans read
  · rintro ⟨short, rfl, rfl⟩
    rw [parse, if_pos short]

/-- The front of a file tells its format. -/
theorem format_eq_of_append_eq {header other : Header} {rest behind : Bytes}
    (h : header.render ++ rest = other.render ++ behind) : header.format = other.format := by
  have word (header : Header) (rest : Bytes) :
      wordAt (header.render ++ rest) 2 = header.format.bits :=
    (wordAt_words _ _ _ _ _ _ rest).2.2.1
  have bits := word header rest
  rw [h, word other behind] at bits
  exact congrArg Format.mk bits.symm

/-- Which headers a file has: those it begins with, if it is as large as they demand. -/
theorem ofContent_eq_ok_iff {content : Bytes} {header : Header} :
    ofContent content = .ok header ↔
      parse content = .ok header ∧ header.minFileSize ≤ content.length := by
  unfold ofContent
  cases parse content with
  | error error => simp [bind, Except.bind]
  | ok found =>
    simp only [bind, Except.bind]
    by_cases short : content.length < found.minFileSize
    · rw [if_pos short]
      constructor
      · exact nofun
      · rintro ⟨same, large⟩
        cases same
        omega
    · rw [if_neg short]
      constructor
      · intro same
        cases same
        exact ⟨rfl, Nat.not_lt.1 short⟩
      · exact fun same => same.1

theorem ofContent_of_small {content : Bytes} {header : Header}
    (parsed : parse content = .ok header) (small : content.length < header.minFileSize) :
    ofContent content = .error (.truncated header.minFileSize content.length) := by
  rw [ofContent, parsed]
  simp only [bind, Except.bind, if_pos small]
  rfl

/-- What is reported of a content without room for its header is its size, and a larger one. -/
theorem actual_of_ofContent {content : Bytes} {expected actual : Nat}
    (failed : ofContent content = .error (.truncated expected actual)) :
    actual = content.length ∧ content.length < expected := by
  cases parsed : parse content with
  | error error =>
    rw [ofContent, parsed] at failed
    cases failed
    obtain ⟨short, rfl, rfl⟩ := parse_eq_truncated_iff.1 parsed
    exact ⟨rfl, short⟩
  | ok header =>
    by_cases small : content.length < header.minFileSize
    · cases failed.symm.trans (ofContent_of_small parsed small)
      exact ⟨rfl, small⟩
    · cases failed.symm.trans (ofContent_eq_ok_iff.2 ⟨parsed, Nat.not_lt.1 small⟩)

/-- The least size for a header is a number of 64 bits, and so are the sizes of its parts. -/
theorem minFileSize_lt (header : Header) : header.minFileSize < UInt64.size := by
  have records := header.records.toNat_lt
  have users := header.users.toNat_lt
  have items := header.items.toNat_lt
  have size : header.format.recordSize ≤ 32 := by
    unfold Format.recordSize Format.baseSize
    split <;> omega
  have region : header.recordsSize ≤ 2 ^ 32 * 32 := Nat.mul_le_mul (Nat.le_of_lt records) size
  rw [minFileSize, headerSize, UInt64.size]
  omega

/-- **Headers have one written form.** A header reads back from what was written of it, whatever
follows, if its flags have a meaning and a file can hold what it counts; any other is malformed.
What was read is what stands in front, and only a byte string shorter than a header is too short
for one. The header of a file is the one in front of it, if the file is as large as that demands,
which is a number of 64 bits. -/
theorem render_and_parse :
    (∀ (header : Header) (rest : Bytes),
      (header.Valid → parse (header.render ++ rest) = .ok header) ∧
        (¬header.Valid →
          ∃ fault, parse (header.render ++ rest) = .error (.malformedHeader fault))) ∧
    (∀ bytes header, parse bytes = .ok header → bytes.take headerSize = header.render) ∧
    (∀ bytes expected actual, parse bytes = .error (.truncated expected actual) ↔
      bytes.length < headerSize ∧ expected = headerSize ∧ actual = bytes.length) ∧
    (∀ content header, ofContent content = .ok header ↔
      parse content = .ok header ∧ header.minFileSize ≤ content.length) ∧
    (∀ content header, parse content = .ok header → content.length < header.minFileSize →
      ofContent content = .error (.truncated header.minFileSize content.length)) ∧
    ∀ header : Header, header.minFileSize < UInt64.size := by
  refine ⟨?_, ?_, ?_, ?_, ?_, minFileSize_lt⟩
  · intro header rest
    exact ⟨fun valid => parse_of_valid valid rest,
      fun unfit => malformed_of_not_valid unfit rest⟩
  · intro bytes header parsed
    obtain ⟨-, rest, rfl⟩ := parse_eq_ok_iff.1 parsed
    exact List.take_left' (length_render header)
  · intro bytes expected actual
    exact parse_eq_truncated_iff
  · intro content header
    exact ofContent_eq_ok_iff
  · intro content header
    exact ofContent_of_small

/-- Three users and two records are malformed; two users and ten records are not, but two bytes
behind their header are too few. -/
theorem render_and_parse_ten :
    ¬(Header.mk .plain 2 3 1).Valid ∧ (Header.mk .plain 10 2 2).Valid ∧
      (∃ fault, parse ((Header.mk .plain 2 3 1).render ++ []) = .error (.malformedHeader fault)) ∧
      parse ((Header.mk .plain 10 2 2).render ++ [0, 0]) = .ok ⟨.plain, 10, 2, 2⟩ ∧
      ofContent ((Header.mk .plain 10 2 2).render ++ [0, 0]) =
        .error (.truncated 336 26) := by
  have unfit : ¬(Header.mk .plain 2 3 1).Valid := fun valid => absurd valid.users_le (by decide)
  have valid : (Header.mk .plain 10 2 2).Valid := valid_iff.2 ⟨rfl, rfl⟩
  obtain ⟨written, -, -, -, small, -⟩ := render_and_parse
  have parsed := (written ⟨.plain, 10, 2, 2⟩ [0, 0]).1 valid
  exact ⟨unfit, valid, (written ⟨.plain, 2, 3, 1⟩ []).2 unfit, parsed, small _ _ parsed (by decide)⟩

end Header

end RatingArchive
