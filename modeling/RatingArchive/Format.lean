import RatingArchive.Error
import RatingArchive.Bytes
/-!
# Record formats

The flags of a header choose the format of its records. Only the lowest bit has a meaning: it
says that records carry timestamps and are stored in timestamp order. A record is a user, an item,
the bits of a value and, if there are timestamps, a timestamp, each in eight bytes. All records of
an archive have one size, so that a slot number addresses a record.

Reading can fail: there is no record at a slot that the region does not reach.

* `decode?_encode`: a record reads back as the rating it was written from, without its timestamp if
  the format has none.
-/

namespace RatingArchive

/-- The flags of an archive. -/
structure Format where
  bits : UInt32
  deriving DecidableEq, Inhabited, Repr

namespace Format

/-- Records without timestamps, in the order they were written. -/
def plain : Format := ⟨0⟩

/-- Records with timestamps, in timestamp order. -/
def timestamped : Format := ⟨1⟩

/-- Whether records carry timestamps. -/
def hasTimestamps (format : Format) : Bool := format.bits.toNat % 2 == 1

/-- Whether all flags that are set have a meaning. -/
def isKnown (format : Format) : Bool := format.bits ≤ 1

/-- The name of a format. -/
def name (format : Format) : String := if format.hasTimestamps then "TIMESTAMPS" else "NONE"

/-- The size in bytes of a record without its timestamp. -/
def baseSize : Nat := 24

/-- The size in bytes of a record. -/
def recordSize (format : Format) : Nat := if format.hasTimestamps then baseSize + 8 else baseSize

/-! ## Writing -/

/-- The record of a rating. A format with timestamps needs one; a format without them drops it. -/
def encode (format : Format) (rating : Rating) : Except Error Bytes :=
  let base := word64 rating.user ++ word64 rating.item ++ word64 rating.value.bits
  if format.hasTimestamps then
    match rating.timestamp with
    | some timestamp => .ok (base ++ word64 timestamp)
    | none => .error (.invalidData (.missingTimestamp rating.item rating.user))
  else .ok base

/-! ## Reading -/

/-- The record at the front of `bytes`. -/
def decode? (format : Format) (bytes : Bytes) : Option Rating := do
  let user ← word64At? bytes 0
  let item ← word64At? bytes 8
  let value ← word64At? bytes 16
  if format.hasTimestamps then
    let timestamp ← word64At? bytes 24
    return ⟨user, item, ⟨value⟩, some timestamp⟩
  else
    return ⟨user, item, ⟨value⟩, none⟩

/-- The record at a slot of a region. -/
def record? (format : Format) (region : Bytes) (slot : Nat) : Option Rating := do
  let bytes ← slice? region (slot * format.recordSize) format.recordSize
  format.decode? bytes

/-- The identifier on one side of the record at a slot, read on its own. -/
def key? (format : Format) (region : Bytes) (slot : Nat) : Side → Option UInt64
  | .user => word64At? region (slot * format.recordSize)
  | .item => word64At? region (slot * format.recordSize + 8)

/-- The timestamp of the record at a slot, read on its own: `some none` for a format without
timestamps, and `none` past the end of the region. -/
def timestamp? (format : Format) (region : Bytes) (slot : Nat) : Option (Option UInt64) :=
  if format.hasTimestamps then
    (word64At? region (slot * format.recordSize + baseSize)).map some
  else some none

/-- What a format keeps of a rating. -/
def kept (format : Format) (rating : Rating) : Rating :=
  if format.hasTimestamps then rating else rating.withoutTimestamp

theorem length_encode {format : Format} {rating : Rating} {bytes : Bytes}
    (h : format.encode rating = .ok bytes) : bytes.length = format.recordSize := by
  unfold encode at h
  unfold recordSize
  split at h
  · split at h <;> simp_all [baseSize]
    subst h; simp
  · simp_all [baseSize]
    subst h; simp

/-- A record reads back as what the format keeps of the rating. -/
theorem decode?_encode {format : Format} {rating : Rating} {bytes : Bytes}
    (h : format.encode rating = .ok bytes) (rest : Bytes) :
    format.decode? (bytes ++ rest) = some (format.kept rating) := by
  have user (rest : Bytes) : word64At? (word64 rating.user ++ rest) 0 = some rating.user :=
    @word64At?_append [] rating.user rest 0 rfl
  have item (rest : Bytes) :
      word64At? (word64 rating.user ++ (word64 rating.item ++ rest)) 8 = some rating.item :=
    word64At?_append rating.item rest (length_word64 _)
  have value (rest : Bytes) :
      word64At? (word64 rating.user ++ (word64 rating.item ++ (word64 rating.value.bits ++ rest)))
        16 = some rating.value.bits := by
    rw [← List.append_assoc]
    exact word64At?_append rating.value.bits rest (by simp)
  unfold encode at h
  unfold decode? kept
  split at h
  · next stamped =>
    split at h
    · next timestamp present =>
      cases h
      have time : word64At? (word64 rating.user ++ (word64 rating.item ++
          (word64 rating.value.bits ++ (word64 timestamp ++ rest)))) 24 = some timestamp := by
        rw [← List.append_assoc, ← List.append_assoc]
        exact word64At?_append timestamp rest (by simp)
      obtain ⟨_, _, _, _⟩ := rating
      cases present
      simp only [List.append_assoc] at user item value time ⊢
      simp [user, item, value, time, stamped]
    · cases h
  · next stamped =>
    cases h
    simp only [List.append_assoc] at user item value ⊢
    simp [user, item, value, stamped, Rating.withoutTimestamp]

end Format

end RatingArchive
