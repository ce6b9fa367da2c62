import RatingArchive.Proofs.CrashConsistency
import RatingArchive.Proofs.Packer.Alike
import RatingArchive.Proofs.RatingLine
import RatingArchive.Proofs.Text.Lines
import RatingArchive.Tool.Pack
/-!
# Packing a text file

What becomes of a text file that is packed (`packs_text`) is put together from three things.

* A packer on a file does what one on a buffer in memory does, so that it has accepted ratings in
  the same sense (`Accepts`), does not fail, and leaves the archive of them whether it is closed or
  given up (`Accepts.close`, `Accepts.abandoned_eq`).
* The lines of the file are those of its text, encoded.
* The loop over the lines packs each rating that it reads (`writeLines_of_written`), and stops at a
  line that is none (`writeLines_of_faulty`).
-/

namespace RatingArchive.Tool.Pack

open FileSink (MirrorsHeaded)

/-! ## A packer on a file -/

/-- A packer on a file has accepted some ratings: it is what an open packer on a buffer in memory
would be. -/
def Accepts (path : String) (format : Format) (accepted : List Rating) (packer : Packer FileSink) :
    Prop :=
  ∃ start memory, Packer.Open start format accepted memory ∧
    Packer.Alike (MirrorsHeaded path) packer memory

variable {path : String} {format : Format} {accepted : List Rating} {packer : Packer FileSink}

theorem exists_new (path : String) (format : Format) :
    ∃ packer, Packer.new (FileSink.create path) format = .ok packer ∧
      Accepts path format [] packer := by
  obtain ⟨packer, memory, fresh, inMemory, alike⟩ := Packer.alike_new path format
  exact ⟨packer, fresh, _, memory, Packer.open_of_new inMemory, alike⟩

namespace Accepts

theorem closed_eq (h : Accepts path format accepted packer) : packer.closed = false := by
  obtain ⟨start, memory, opened, ⟨-⟩⟩ := h
  exact opened.gathers.closed_eq

/-- A rating that can be stored is accepted, if there is room. -/
theorem write (h : Accepts path format accepted packer) {rating : Rating}
    (admits : format.Admits rating) (room : accepted.length < maxRatings) :
    ∃ next, Packer.write rating packer = .ok () next ∧
      Accepts path format (accepted ++ [rating]) next := by
  obtain ⟨start, memory, opened, alike⟩ := h
  have written : Packer.Ensures (Packer.write rating) memory _ _ := Packer.ensures_write opened
  rcases EndsAlike.cases_iff.1 (Packer.endsAlike_write (FileSink.sinksAlike path) alike rating) with
    ⟨_, next, other, onFile, inMemory, alike⟩ | ⟨_, _, _, _, failed, _⟩
  · exact ⟨next, onFile, start, other, written.ok inMemory, alike⟩
  · obtain ⟨-, refused | full | unreliable⟩ := written.error failed
    · exact absurd admits refused
    · exact absurd full (Nat.not_le.2 room)
    · exact absurd MemorySink.reliable unreliable

/-- Closing the packer leaves the archive in the file. -/
theorem close (h : Accepts path format accepted packer) :
    ∃ next, Packer.close packer = .ok () next ∧
      next.sink.released = archiveOf format accepted := by
  obtain ⟨start, memory, opened, alike⟩ := h
  have closed := Packer.ensures_close opened
  rcases EndsAlike.cases_iff.1 (Packer.endsAlike_close (FileSink.sinksAlike path) alike) with
    ⟨_, next, other, onFile, inMemory, alike⟩ | ⟨_, _, _, _, failed, _⟩
  · refine ⟨next, onFile, ?_⟩
    obtain ⟨h⟩ := alike
    rw [h.mirrors.released_eq]
    exact (closed.ok inMemory).2
  · exact absurd MemorySink.reliable (closed.error failed).2

/-- So does giving up the packer. -/
theorem abandoned_eq (h : Accepts path format accepted packer) :
    abandoned packer = archiveOf format accepted := by
  obtain ⟨next, closed, released⟩ := h.close
  have dropped : Packer.drop packer = .ok () next := by
    rw [Packer.drop_of_open h.closed_eq, closed]
  rw [abandoned, dropped]
  exact released

end Accepts

/-! ## Lines -/

/-- The lines that are not blank, in order, hold the ratings. -/
def Written (options : Options) (lines : List (List Char)) (ratings : List Rating) : Prop :=
  (lines.filter fun line => !(Text.trim line).isEmpty).map
    (readLine options.delimiter.toList options.timestamps) = ratings.map .ok

/-- The line is not blank, and no rating. -/
def Faulty (options : Options) (line : List Char) (fault : LineFault) : Prop :=
  Text.trim line ≠ [] ∧ readLine options.delimiter.toList options.timestamps line = .error fault

instance (options : Options) (lines : List (List Char)) (ratings : List Rating) :
    Decidable (Written options lines ratings) := inferInstanceAs (Decidable (_ = _))

instance (options : Options) (line : List Char) (fault : LineFault) :
    Decidable (Faulty options line fault) := inferInstanceAs (Decidable (_ ∧ _))

variable {options : Options} {line : List Char} {lines : List (List Char)} {rating : Rating}
  {ratings : List Rating} {fault : LineFault}

theorem writeLines_of_blank (number : Nat) (rest : List Bytes) (blank : Text.trim line = []) :
    writeLines options number (Text.encoded line :: rest) =
      writeLines options (number + 1) rest := by
  simp [writeLines, Text.ofUtf8?_encoded, blank]

theorem writeLines_of_rating (number : Nat) (rest : List Bytes) (ink : Text.trim line ≠ [])
    (read : readLine options.delimiter.toList options.timestamps line = .ok rating) :
    writeLines options number (Text.encoded line :: rest) =
      writeRating rating >>= fun _ => writeLines options (number + 1) rest := by
  simp [writeLines, Text.ofUtf8?_encoded, ink, read]

theorem writeLines_of_fault (number : Nat) (rest : List Bytes)
    (faulty : Faulty options line fault) :
    writeLines options number (Text.encoded line :: rest) =
      throw ((Failure.ofMessages fault.messages).within
        (options.input ++ ":" ++ toString number)) := by
  simp [writeLines, Text.ofUtf8?_encoded, faulty.1, faulty.2]

/-- A rating that is read where timestamps are needed has one. -/
theorem admits_of_readLine
    (h : readLine options.delimiter.toList options.timestamps line = .ok rating) :
    options.format.Admits rating := by
  obtain ⟨_, _, _, _, _, _, stamp⟩ := denote_of_readFields h
  intro stamped
  have needed : options.timestamps = true := by
    by_contra plain
    rw [Options.format, if_neg plain] at stamped
    cases stamped
  exact Option.isSome_iff_ne_none.2 ((timestamp_of_readTimestamp stamp).2.2 needed)

theorem written_cons_of_blank (blank : Text.trim line = []) :
    Written options (line :: lines) ratings ↔ Written options lines ratings := by
  rw [Written, List.filter_cons_of_neg (by simp [blank])]
  rfl

theorem written_cons_of_ne_nil (ink : Text.trim line ≠ []) :
    Written options (line :: lines) ratings ↔ ∃ rating later, ratings = rating :: later ∧
      readLine options.delimiter.toList options.timestamps line = .ok rating ∧
        Written options lines later := by
  rw [Written, List.filter_cons_of_pos (by simpa using ink), List.map_cons, eq_comm,
    List.map_eq_cons_iff]
  constructor
  · rintro ⟨rating, later, rfl, read, written⟩
    exact ⟨rating, later, rfl, read.symm, written.symm⟩
  · rintro ⟨rating, later, rfl, read, written⟩
    exact ⟨rating, later, rfl, read.symm, written.symm⟩

/-- **Lines that hold ratings** are packed one after the other. -/
theorem writeLines_of_written (number : Nat) (h : Accepts path options.format accepted packer)
    (written : Written options lines ratings)
    (room : accepted.length + lines.length ≤ maxRatings) :
    ∃ next, writeLines options number (lines.map Text.encoded) packer = .ok () next ∧
      Accepts path options.format (accepted ++ ratings) next := by
  induction lines generalizing accepted packer number ratings with
  | nil =>
    obtain rfl : ratings = [] := by simpa [Written, eq_comm] using written
    exact ⟨packer, rfl, by rwa [List.append_nil]⟩
  | cons line lines ih =>
    rw [List.length_cons] at room
    rw [List.map_cons]
    by_cases blank : Text.trim line = []
    · rw [writeLines_of_blank number _ blank]
      exact ih (number + 1) h ((written_cons_of_blank blank).1 written) (by omega)
    · obtain ⟨rating, later, rfl, read, written⟩ := (written_cons_of_ne_nil blank).1 written
      obtain ⟨next, wrote, accepts⟩ := h.write (admits_of_readLine read) (by omega)
      have step : writeRating rating packer = .ok () next := by rw [writeRating, wrote]
      rw [writeLines_of_rating number _ blank read, bind_of_ok step]
      have more : (accepted ++ [rating]).length + lines.length ≤ maxRatings := by
        rw [List.length_append, List.length_singleton]
        omega
      obtain ⟨last, done, all⟩ := ih (number + 1) accepts written more
      exact ⟨last, done, by rwa [List.append_assoc] at all⟩

theorem writeLines_append (options : Options) (number : Nat) (before after : List Bytes) :
    writeLines options number (before ++ after) =
      writeLines options number before >>= fun _ =>
        writeLines options (number + before.length) after := by
  induction before generalizing number with
  | nil => rfl
  | cons bytes before ih =>
    have behind : number + (before.length + 1) = number + 1 + before.length := by omega
    rw [List.cons_append, List.length_cons, behind, writeLines, writeLines]
    split
    · rfl
    · split
      · exact ih (number + 1)
      · split
        · rfl
        · rw [bind_assoc]
          exact congrArg _ (funext fun _ => ih (number + 1))

/-- Lines are packed up to the first that is no rating. -/
theorem writeLines_of_faulty (number : Nat) {before after : List (List Char)}
    (h : Accepts path options.format accepted packer) (written : Written options before ratings)
    (room : accepted.length + before.length ≤ maxRatings) (faulty : Faulty options line fault) :
    ∃ next, writeLines options number ((before ++ line :: after).map Text.encoded) packer =
        .error ((Failure.ofMessages fault.messages).within
          (options.input ++ ":" ++ toString (number + before.length))) next ∧
      Accepts path options.format (accepted ++ ratings) next := by
  obtain ⟨next, wrote, accepts⟩ := writeLines_of_written number h written room
  refine ⟨next, ?_, accepts⟩
  rw [List.map_append, List.map_cons, writeLines_append, bind_of_ok wrote,
    writeLines_of_fault _ _ faulty, List.length_map]
  rfl

/-! ## The tool -/

/-- There is a text at the input, of no more lines than there can be ratings, and an archive can be
made at the output, which is another file. -/
structure Ready (options : Options) (volume : Volume) (text : String) : Prop where
  delimited : options.delimiter ≠ ""
  input : volume.content? options.input = some (Text.toUtf8 text)
  apart : volume.place options.input ≠ volume.place options.output
  admits : volume.admits options.output = true
  short : (Text.linesOf text.toList).length ≤ maxRatings

/-- The tool ends with an exit code and a message, and leaves the archive of the ratings at its
output and everything else as it was. The archive opens. -/
def Leaves (options : Options) (volume : Volume) (code : Nat) (message : String)
    (ratings : List Rating) : Prop :=
  ∃ archive, pack ratings options.format = .ok archive ∧
    run options volume = (⟨code, "", message⟩, volume.store options.output archive) ∧
    (run options volume).2.content? options.output = some archive ∧
    ∀ verified, ∃ opened, Archive.ofBytes archive verified = .ok opened

variable {volume : Volume} {text : String}

/-- The tool begins with a new packer, and closes it if the lines are packed. -/
theorem run_eq (ready : Ready options volume text)
    (fresh : Packer.new (FileSink.create options.output) options.format = .ok packer) :
    run options volume =
      match (writeLines options 1 ((Text.linesOf text.toList).map Text.encoded) >>= fun _ =>
        closePacker) packer with
      | .ok () packer => (.success "", volume.store options.output packer.sink.released)
      | .error failure packer =>
        (.failed "" failure, volume.store options.output (abandoned packer)) := by
  have delimited : ¬ options.delimiter.isEmpty = true := by simpa using ready.delimited
  have input : ¬ (volume.content? options.input).isNone = true := by simp [ready.input]
  have output : ¬ (!volume.admits options.output) = true := by simp [ready.admits]
  have lines : Text.lines (((volume.store options.output []).content? options.input).getD []) =
      (Text.linesOf text.toList).map Text.encoded := by
    rw [Volume.content?_store_of_ne _ ready.apart, ready.input, ← Text.lines_encoded,
      ← Text.toUtf8_ofList, String.ofList_toList]
    rfl
  rw [run, if_neg delimited, if_neg input, if_neg output]
  simp only [fresh, lines, Volume.store_store]
  rfl

theorem Accepts.packable (h : Accepts path options.format accepted packer) :
    Packable options.format accepted := by
  obtain ⟨start, memory, opened, -⟩ := h
  refine ⟨?_, opened.small, ?_⟩
  · unfold Options.format
    split
    · exact .inr rfl
    · exact .inl rfl
  · intro stamped rating mem
    exact opened.admitted rating mem (by rw [stamped]; rfl)

theorem leaves_of_run_eq {code : Nat} {message : String}
    (packable : Packable options.format ratings)
    (ran : run options volume =
      (⟨code, "", message⟩, volume.store options.output (archiveOf options.format ratings))) :
    Leaves options volume code message ratings := by
  refine ⟨_, packable.pack_eq, ran, ?_, ?_⟩
  · rw [ran]
    exact Volume.content?_store _ rfl
  · exact fun verified => ⟨_, Archive.ofBytes_archiveOf packable verified⟩

theorem leaves_of_written (ready : Ready options volume text)
    (written : Written options (Text.linesOf text.toList) ratings) :
    Leaves options volume 0 "" ratings := by
  obtain ⟨packer, fresh, accepts⟩ := exists_new options.output options.format
  have room : ([] : List Rating).length + (Text.linesOf text.toList).length ≤ maxRatings := by
    rw [List.length_nil, Nat.zero_add]
    exact ready.short
  obtain ⟨next, wrote, accepts⟩ := writeLines_of_written 1 accepts written room
  rw [List.nil_append] at accepts
  obtain ⟨last, closed, released⟩ := accepts.close
  have close : closePacker next = .ok () last := by rw [closePacker, closed]
  refine leaves_of_run_eq accepts.packable ?_
  rw [run_eq ready fresh, bind_of_ok wrote, close, ← released]
  rfl

theorem leaves_of_faulty {before after : List (List Char)} (ready : Ready options volume text)
    (lines : Text.linesOf text.toList = before ++ line :: after)
    (written : Written options before ratings) (faulty : Faulty options line fault) :
    Leaves options volume 1 ((Failure.ofMessages fault.messages).within
      (options.input ++ ":" ++ toString (before.length + 1))).text ratings := by
  obtain ⟨packer, fresh, accepts⟩ := exists_new options.output options.format
  have room : ([] : List Rating).length + before.length ≤ maxRatings := by
    have short := ready.short
    rw [lines, List.length_append] at short
    rw [List.length_nil]
    omega
  obtain ⟨next, failed, accepts⟩ := writeLines_of_faulty 1 accepts written room faulty
  rw [List.nil_append] at accepts
  refine leaves_of_run_eq accepts.packable ?_
  rw [run_eq ready fresh, lines, bind_of_error failed, ← accepts.abandoned_eq, Nat.add_comm 1]
  rfl

/-- **Packing a text file.** If every line that is not blank holds a rating, the tool succeeds, and
leaves the archive of the ratings in the order of their lines. At the first line that is no rating
it fails with the number of that line, and leaves the archive of the ratings before it. Without a
delimiter or an input it fails and leaves everything as it was. -/
theorem packs_text (options : Options) (volume : Volume) :
    (∀ text, Ready options volume text →
      (∀ ratings, Written options (Text.linesOf text.toList) ratings →
        Leaves options volume 0 "" ratings) ∧
      ∀ before line after ratings fault, Text.linesOf text.toList = before ++ line :: after →
        Written options before ratings → Faulty options line fault →
        Leaves options volume 1 ((Failure.ofMessages fault.messages).within
          (options.input ++ ":" ++ toString (before.length + 1))).text ratings) ∧
    (options.delimiter = "" ∨ volume.content? options.input = none →
      (run options volume).1.code = 1 ∧ (run options volume).2 = volume) := by
  refine ⟨fun text ready => ⟨fun ratings written => leaves_of_written ready written, ?_⟩, ?_⟩
  · intro before line after ratings fault lines written faulty
    exact leaves_of_faulty ready lines written faulty
  · intro missing
    unfold run
    split
    · exact ⟨rfl, rfl⟩
    · split
      · exact ⟨rfl, rfl⟩
      · next delimited found =>
        rcases missing with empty | absent
        · exact absurd (by rw [empty]; rfl) delimited
        · exact absurd (by rw [absent]; rfl) found

/-- Two ratings with a blank line between them, a rating before a line that is none, and no
delimiter. -/
theorem packs_text_three :
    let options : Options := ⟨"in", "out", ",", false⟩
    let volume (text : String) : Volume :=
      { place := id
        file? := fun place => if place = "in" then some ⟨Text.toUtf8 text, none, none⟩ else none
        canCreate := fun _ => true }
    Leaves options (volume "1,2,3.5\r\n \n4, +5,-1,7") 0 ""
        [⟨1, 2, ⟨0x400C000000000000⟩, none⟩, ⟨4, 5, ⟨0xBFF0000000000000⟩, some 7⟩] ∧
      Leaves options (volume "1,2,3.5\n\n4,5\n6,7,8\n") 1
        "Error: in:3\n\nCaused by:\n    expected at least 3 fields, found 2\n"
        [⟨1, 2, ⟨0x400C000000000000⟩, none⟩] ∧
      (run { options with delimiter := "" } (volume "1,2,3.5")).2 = volume "1,2,3.5" := by
  intro options volume
  have ready (text : String) (short : (Text.linesOf text.toList).length ≤ maxRatings) :
      Ready options (volume text) text :=
    ⟨by decide, rfl, show "in" ≠ "out" by decide, rfl, short⟩
  have good : Text.linesOf "1,2,3.5\r\n \n4, +5,-1,7".toList =
      ["1,2,3.5".toList, " ".toList, "4, +5,-1,7".toList] := by decide +kernel
  have bad : Text.linesOf "1,2,3.5\n\n4,5\n6,7,8\n".toList =
      ["1,2,3.5".toList, []] ++ "4,5".toList :: ["6,7,8".toList] := by decide +kernel
  refine ⟨?_, ?_, ?_⟩
  · refine ((packs_text options _).1 _ (ready _ ?_)).1 _ ?_
    · rw [good]
      decide
    · rw [good]
      decide +kernel
  · refine ((packs_text options _).1 _ (ready _ ?_)).2 _ _ _ _ (.tooFewFields 2) bad ?_ ?_
    · rw [bad]
      decide
    · decide +kernel
    · decide +kernel
  · exact ((packs_text _ _).2 (.inl rfl)).2

end RatingArchive.Tool.Pack
