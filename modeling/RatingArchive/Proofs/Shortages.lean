import RatingArchive.Proofs.Index.Shortage
import RatingArchive.Proofs.Verification
/-!
# What is reported of contents that are too short

Only the readers of the header and of the two indexes find that bytes are missing; what is checked
behind them are the data (`Archive.parse_eq_of_truncated`). Each of these readers counts from where
it started to read (`Starts`). So the header reports the size of the whole content and a larger one
that is needed, but an index reports the size of what is left of the content at its start, and how
much of that is needed (`Archive.truncated_counts_from`).
-/

namespace RatingArchive

theorem IndexTable.invalidData_of_checkCoverage {table : IndexTable} {side : Side}
    {records : UInt32} {error : Error} (failed : table.checkCoverage side records = .error error) :
    ∃ fault, error = .invalidData fault := by
  unfold checkCoverage at failed
  rcases error_of_check_bind failed with slots | count
  · obtain ⟨entry, -, found⟩ := error_of_forM slots
    split at found
    · split at found
      · cases found
        exact ⟨_, rfl⟩
      · cases found
    · cases found
  · split at count
    · cases count
      exact ⟨_, rfl⟩
    · cases count

/-- Where the part of a content starts in which bytes can be found to be missing: all of it, as
long as it has no header, and then one of its indexes. -/
inductive Starts (content : Bytes) : Nat → Prop where
  | whole (refused : ∀ header, Header.ofContent content ≠ .ok header) : Starts content 0
  | users {header : Header} (found : Header.ofContent content = .ok header) :
    Starts content (headerSize + header.recordsSize)
  | items {header : Header} {users : IndexTable} {rest : Bytes}
    (found : Header.ofContent content = .ok header)
    (read : (IndexTable.read header.users).run
      (content.drop (headerSize + header.recordsSize)) = .ok users rest) :
    Starts content (headerSize + header.recordsSize + (tableBytes users.entries).length)

/-- **A content that breaks off** is reported by what is left of it at the start of a part. -/
theorem Image.starts_of_parse {content : Bytes} {expected actual : Nat}
    (failed : parse content = .error (.truncated expected actual)) :
    ∃ start, Starts content start ∧ start + actual = content.length ∧
      content.length < start + expected := by
  cases found : Header.ofContent content with
  | error error =>
    rw [parse, found] at failed
    cases failed
    obtain ⟨rfl, short⟩ := Header.actual_of_ofContent found
    refine ⟨0, .whole ?_, Nat.zero_add _, by rwa [Nat.zero_add]⟩
    intro header
    rw [found]
    exact nofun
  | ok header =>
    have large := (Header.ofContent_eq_ok_iff.1 found).2
    have body : headerSize + header.recordsSize ≤ content.length := by
      unfold Header.minFileSize at large
      omega
    have left := List.length_drop (i := headerSize + header.recordsSize) (l := content)
    simp only [parse, found, bind, Except.bind, List.drop_drop] at failed
    split at failed
    · next missing =>
      cases failed
      obtain ⟨rfl, short⟩ := IndexTable.actual_of_read missing
      exact ⟨_, .users found, by omega, by omega⟩
    · next users rest read =>
      obtain ⟨-, -, -, whole⟩ := IndexTable.read_eq_ok_iff.1 read
      rw [whole, List.length_append] at left
      split at failed
      · next missing =>
        cases failed
        obtain ⟨rfl, short⟩ := IndexTable.actual_of_read missing
        exact ⟨_, .items found read, by omega, by omega⟩
      · cases failed

namespace Archive

variable {file : File} {verified : Bool} {expected actual : Nat}

/-- Bytes are found to be missing while a content is taken apart, and not later. -/
theorem parse_eq_of_truncated
    (failed : ofFile file verified = .error (.truncated expected actual)) :
    Image.parse file.content = .error (.truncated expected actual) := by
  unfold ofFile at failed
  cases parsed : Image.parse file.content with
  | error error =>
    rw [parsed] at failed
    cases failed
    rfl
  | ok image =>
    rw [parsed] at failed
    have checked : ofImage image file verified = .error (.truncated expected actual) := failed
    unfold ofImage Image.checkCoverage at checked
    rcases error_of_check_bind checked with covered | consistent
    · rcases error_of_check_bind covered with users | items
      · obtain ⟨fault, other⟩ := IndexTable.invalidData_of_checkCoverage users
        cases other
      · obtain ⟨fault, other⟩ := IndexTable.invalidData_of_checkCoverage items
        cases other
    · cases verified with
      | false => cases consistent
      | true =>
        rcases error_of_check_bind consistent with listed | done
        · obtain ⟨fault, other⟩ := invalidData_of_verify listed
          cases other
        · cases done

/-- **What is reported of a content that is too short** counts from the start of the part that
breaks off: so many bytes are left there, and more are expected. These are numbers of the content
if it has no header, and else they are not. -/
theorem truncated_counts_from
    (failed : ofFile file verified = .error (.truncated expected actual)) :
    (∃ start, Starts file.content start ∧ start + actual = file.content.length ∧
      file.content.length < start + expected) ∧
    ((actual = file.content.length ∧ file.content.length < expected) ↔
      ∀ header, Header.ofContent file.content ≠ .ok header) := by
  obtain ⟨start, starts, left, needed⟩ := Image.starts_of_parse (parse_eq_of_truncated failed)
  refine ⟨⟨start, starts, left, needed⟩, ?_⟩
  have header : 0 < headerSize := by decide
  cases starts with
  | whole refused => exact iff_of_true ⟨by omega, by omega⟩ refused
  | users found =>
    refine iff_of_false ?_ fun refused => refused _ found
    rintro ⟨same, -⟩
    omega
  | items found read =>
    refine iff_of_false ?_ fun refused => refused _ found
    rintro ⟨same, -⟩
    omega

/-- Two ratings of an item by a user. -/
def twice : Image where
  header := ⟨.plain, 2, 1, 1⟩
  records := Format.plain.region [⟨3, 7, ⟨0⟩, none⟩, ⟨3, 7, ⟨1⟩, none⟩]
  users := ⟨[⟨3, [0, 1]⟩]⟩
  items := ⟨[⟨7, [0, 1]⟩]⟩
  trailing := []

theorem length_take_twice : (twice.bytes.take 116).length = 116 := by decide +kernel

theorem ofBytes_take_twice : ofBytes (twice.bytes.take 116) true = .error (.truncated 24 20) := by
  decide +kernel

/-- The last slot of the item index is missing. -/
theorem truncated_counts_from_twice :
    ofBytes (twice.bytes.take 116) true = .error (.truncated 24 20) ∧
      ∃ start, start + 20 = 116 ∧ Starts (twice.bytes.take 116) start := by
  obtain ⟨⟨start, starts, left, -⟩, -⟩ := truncated_counts_from ofBytes_take_twice
  exact ⟨ofBytes_take_twice, start, left.trans length_take_twice, starts⟩

/-- What is reported of a content that is too short is not always its size. -/
theorem not_reports_content :
    ¬∀ content verified expected actual,
      ofBytes content verified = .error (.truncated expected actual) →
        actual = content.length ∧ content.length < expected := by
  intro reports
  obtain ⟨same, -⟩ := reports _ _ _ _ ofBytes_take_twice
  rw [length_take_twice] at same
  cases same

end Archive

end RatingArchive
