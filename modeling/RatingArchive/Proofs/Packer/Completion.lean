import RatingArchive.Proofs.Image
import RatingArchive.Proofs.Packer.Ensures
/-!
# What a packer writes

Until the archive is completed, its records stand behind zeros in place of the header
(`Packer.Gathers`), and so do the indexes that follow them (`Packer.Unsealed`). The last change of
the content puts the header there. However far this gets, the content keeps its blank header, or it
is the whole image (`Packer.Ended`, `ensures_completeBy`). This holds in whatever order the keys are
handed out (`Collation`).
-/

namespace RatingArchive

open TransactionalSink (content)

/-- A content that begins with zeros in place of a header. -/
def Blank (bytes : Bytes) : Prop := bytes.take headerSize = blankHeader

/-- A call that leaves the header blank, and makes nothing durable. -/
def blankCall (call : SinkCall) (bytes : Bytes) : Prop := call ≠ .sync ∧ Blank bytes

/-- A call that leaves the header blank, or a finished archive. -/
def sealedCall (image : Bytes) (call : SinkCall) (bytes : Bytes) : Prop :=
  bytes = image ∨ blankCall call bytes

theorem blank_append (bytes : Bytes) : Blank (blankHeader ++ bytes) :=
  List.take_left' (List.length_replicate ..)

theorem overwrite_blankHeader (header : Header) (bytes : Bytes) :
    overwrite (blankHeader ++ bytes) 0 header.render = header.render ++ bytes := by
  have length : blankHeader.length = headerSize := List.length_replicate ..
  rw [overwrite, List.take_zero, List.nil_append, Nat.zero_add, Header.length_render,
    List.drop_left' length]

namespace Packer

variable {σ : Type} [TransactionalSink σ]

/-! ## Writing records -/

/-- A packer has written the records of some ratings, behind a blank header, and others wait. From
`start` on its sink was blank after every call. -/
structure Gathers (start : σ) (format : Format) (written pending : List Rating) (closed : Bool)
    (packer : Packer σ) : Prop where
  format_eq : packer.format = format
  count_eq : packer.count = written.length
  users_eq : packer.users = notes .user written
  items_eq : packer.items = notes .item written
  pending_eq : packer.pending = pending
  closed_eq : packer.closed = closed
  content_eq : content packer.sink = blankHeader ++ format.region written
  passes : Passes blankCall start packer.sink

variable {start : σ} {format : Format} {written pending : List Rating} {closed : Bool}
  {packer : Packer σ} {rating : Rating}

namespace Gathers

/-- A call that fails, or has no effect, changes nothing that matters. -/
theorem withSink (h : Gathers start format written pending closed packer) {call : SinkCall}
    {sink : σ} (after : call.after packer.sink = sink) (notSync : call ≠ .sync)
    (same : content sink = content packer.sink) :
    Gathers start format written pending closed { packer with sink } where
  format_eq := h.format_eq
  count_eq := h.count_eq
  users_eq := h.users_eq
  items_eq := h.items_eq
  pending_eq := h.pending_eq
  closed_eq := h.closed_eq
  content_eq := same.trans h.content_eq
  passes := by
    have blank : Blank (content (call.after packer.sink)) := by
      rw [after, same, h.content_eq]
      exact blank_append _
    exact after ▸ h.passes.step call ⟨notSync, blank⟩

/-- A record that was written counts. -/
theorem withRecord (h : Gathers start format written pending closed packer) {bytes : Bytes}
    {sink : σ} (after : (SinkCall.append bytes).after packer.sink = sink)
    (more : content sink = content packer.sink ++ format.record rating) :
    Gathers start format (written ++ [rating]) pending closed
      { packer with
        sink
        users := noteSlot rating.user (UInt32.ofNat packer.count) packer.users
        items := noteSlot rating.item (UInt32.ofNat packer.count) packer.items
        count := packer.count + 1 } where
  format_eq := h.format_eq
  count_eq := by rw [h.count_eq, List.length_append, List.length_singleton]
  users_eq := by rw [notes_append_singleton, h.users_eq, h.count_eq]; rfl
  items_eq := by rw [notes_append_singleton, h.items_eq, h.count_eq]; rfl
  pending_eq := h.pending_eq
  closed_eq := h.closed_eq
  content_eq := by
    rw [more, h.content_eq, Format.region_append, Format.region_singleton, List.append_assoc]
  passes := by
    have blank : Blank (content ((SinkCall.append bytes).after packer.sink)) := by
      rw [after, more, h.content_eq, List.append_assoc]
      exact blank_append _
    exact after ▸ h.passes.step (.append bytes) ⟨nofun, blank⟩

/-- What was reported makes no difference. -/
theorem reported (h : Gathers start format written pending closed packer)
    (timestampsDropped : Bool) (journal : List Event) :
    Gathers start format written pending closed { packer with timestampsDropped, journal } :=
  ⟨h.format_eq, h.count_eq, h.users_eq, h.items_eq, h.pending_eq, h.closed_eq, h.content_eq,
    h.passes⟩

/-- Closing takes over the ratings that wait. -/
theorem close (h : Gathers start format written pending closed packer) :
    Gathers start format written [] true { packer with closed := true, pending := [] } :=
  ⟨h.format_eq, h.count_eq, h.users_eq, h.items_eq, rfl, rfl, h.content_eq, h.passes⟩

end Gathers

theorem ensures_appendRecord (h : Gathers start format written pending closed packer)
    (admitted : format.Admits rating) :
    Ensures (appendRecord rating) packer
      (fun _ next => Gathers start format (written ++ [rating]) pending closed next)
      (fun next => Gathers start format written pending closed next ∧ ¬Reliable σ) := by
  have encoded : packer.format.encode rating = .ok (format.record rating) := by
    rw [h.format_eq, Format.encode_of_admits admitted]
  apply Ensures.get_bind
  apply Ensures.require_bind encoded
  apply Ensures.bind
  apply ensures_append
  · intro n sink after more
    exact Ensures.modify (h.withRecord after more)
  · intro sink after same unreliable
    exact ⟨h.withSink after nofun same, unreliable⟩

/-- **Records are written in order.** If that fails, some of them are written. -/
theorem ensures_forM_appendRecord {ratings : List Rating}
    (h : Gathers start format written pending closed packer)
    (admitted : ∀ rating ∈ ratings, format.Admits rating) :
    Ensures (ratings.forM appendRecord) packer
      (fun _ next => Gathers start format (written ++ ratings) pending closed next)
      (fun next => ∃ part, Gathers start format part pending closed next ∧ ¬Reliable σ) := by
  induction ratings generalizing written packer with
  | nil =>
    refine Ensures.pure ?_
    rwa [List.append_nil]
  | cons rating ratings ih =>
    obtain ⟨first, others⟩ := List.forall_mem_cons.1 admitted
    show Ensures (appendRecord rating >>= fun _ => ratings.forM appendRecord) packer _ _
    apply (ensures_appendRecord h first).andThen
    · intro next failed
      exact ⟨written, failed⟩
    · intro _ next gathers
      have rest := ih gathers others
      rwa [List.append_assoc] at rest

/-! ## Closing -/

/-- A closed packer has written some bytes behind a blank header. -/
structure Unsealed (start : σ) (body : Bytes) (packer : Packer σ) : Prop where
  closed_eq : packer.closed = true
  content_eq : content packer.sink = blankHeader ++ body
  passes : Passes blankCall start packer.sink

/-- What has become of the sink of a closed packer: its archive is finished, or its header is
blank. -/
structure Ended (start : σ) (image : Bytes) (packer : Packer σ) : Prop where
  closed_eq : packer.closed = true
  passes : Passes (sealedCall image) start packer.sink
  ending : content packer.sink = image ∨ Passes blankCall start packer.sink

variable {body image : Bytes}

namespace Unsealed

theorem withMore (h : Unsealed start body packer) {call : SinkCall} {more : Bytes} {sink : σ}
    (after : call.after packer.sink = sink) (notSync : call ≠ .sync)
    (added : content sink = content packer.sink ++ more) :
    Unsealed start (body ++ more) { packer with sink } where
  closed_eq := h.closed_eq
  content_eq := by rw [added, h.content_eq, List.append_assoc]
  passes := by
    have blank : Blank (content (call.after packer.sink)) := by
      rw [after, added, h.content_eq, List.append_assoc]
      exact blank_append _
    exact after ▸ h.passes.step call ⟨notSync, blank⟩

theorem withSink (h : Unsealed start body packer) {call : SinkCall} {sink : σ}
    (after : call.after packer.sink = sink) (notSync : call ≠ .sync)
    (same : content sink = content packer.sink) : Unsealed start body { packer with sink } := by
  rw [← List.append_nil body]
  exact h.withMore after notSync (same.trans (List.append_nil _).symm)

theorem ended (h : Unsealed start body packer) : Ended start image packer where
  closed_eq := h.closed_eq
  passes := h.passes.mono fun _ _ blank => .inr blank
  ending := .inr h.passes

end Unsealed

theorem Gathers.unsealed (h : Gathers start format written pending true packer) :
    Unsealed start (format.region written) packer :=
  ⟨h.closed_eq, h.content_eq, h.passes⟩

/-- An index is written as a whole, and its size is answered, or it is not written at all. -/
theorem ensures_writeIndex (collation : Collation) {ratings : List Rating} {side : Side}
    (h : Unsealed start body packer) (small : ratings.length ≤ maxRatings) :
    Ensures (writeIndex (collation.collate side (notes side ratings))) packer
      (fun size next => size = (tableBytes (IndexTable.ofRatings side ratings).entries).length ∧
        Unsealed start (body ++ tableBytes (IndexTable.ofRatings side ratings).entries) next)
      (fun next => Unsealed start body next ∧ ¬Reliable σ) := by
  have lt := lt_size_of_small small
  have encoded : encodeEntries (IndexTable.ofRatings side ratings).entries =
      .ok (tableBytes (IndexTable.ofRatings side ratings).entries) :=
    encodeEntries_eq (IndexTable.ordered_ofRatings (Nat.le_of_lt lt))
      (IndexTable.countable_ofRatings lt)
  rw [collation.collate_notes]
  apply Ensures.require_bind encoded
  apply Ensures.bind
  apply ensures_append
  · intro n sink after more
    exact Ensures.pure ⟨rfl, h.withMore after nofun more⟩
  · intro sink after same unreliable
    exact ⟨h.withSink after nofun same, unreliable⟩

/-- Patching the header finishes the archive, and syncing leaves it so. -/
theorem ensures_patchHeader (header : Header) (h : Unsealed start body packer) :
    Ensures (do onSink (Sink.patch 0 header.render); onSink Sink.sync) packer
      (fun _ next => Ended start (header.render ++ body) next ∧
        content next.sink = header.render ++ body)
      (fun next => Ended start (header.render ++ body) next ∧ ¬Reliable σ) := by
  have length : blankHeader.length = headerSize := List.length_replicate ..
  have inside : (0 : UInt64).toNat + header.render.length ≤ (content packer.sink).length := by
    rw [h.content_eq, List.length_append, length, Header.length_render, UInt64.toNat_zero]
    omega
  have small : (0 : UInt64).toNat + header.render.length < UInt64.size := by
    rw [Header.length_render]
    decide
  apply Ensures.bind
  apply ensures_patch inside small
  · intro sink after patched
    rw [h.content_eq, UInt64.toNat_zero, overwrite_blankHeader] at patched
    have passes : Passes (sealedCall (header.render ++ body)) start sink := by
      subst after
      exact (h.passes.mono fun _ _ blank => .inr blank).step _ (.inl patched)
    have synced {last : σ} (afterSync : SinkCall.sync.after sink = last)
        (same : content last = content sink) :
        Ended start (header.render ++ body) { packer with sink := last } ∧
          content last = header.render ++ body := by
      have finished := same.trans patched
      subst afterSync
      exact ⟨⟨h.closed_eq, passes.step .sync (.inl finished), .inl finished⟩, finished⟩
    apply ensures_sync
    · intro last afterSync same
      exact synced afterSync same
    · intro last afterSync same unreliable
      exact ⟨(synced afterSync same).1, unreliable⟩
  · intro sink after same unreliable
    exact ⟨(h.withSink after nofun same).ended, unreliable⟩

theorem Gathers.header_eq (h : Gathers start format written pending closed packer) :
    packer.header = (Image.ofRatings format written).header := by
  have length (side : Side) : (IndexTable.ofRatings side written).entries.length =
      (notes side written).length := (IndexTable.perm_ofRatings side written).length_eq
  simp only [header, Image.ofRatings, h.format_eq, h.count_eq, h.users_eq, h.items_eq, length]

/-- The parts that a packer writes are those of the image, the header first. -/
theorem bytes_ofRatings (format : Format) (records : List Rating) :
    (Image.ofRatings format records).bytes = (Image.ofRatings format records).header.render ++
      (format.region records ++ tableBytes (IndexTable.ofRatings .user records).entries ++
        tableBytes (IndexTable.ofRatings .item records).entries) := by
  simp only [Image.bytes, Image.ofRatings, List.append_assoc, List.append_nil]

/-- Behind its records, an archive is given its indexes and its header. -/
theorem ensures_finalizeBy (collation : Collation) {records : List Rating}
    (h : Gathers start format records [] true packer) (small : records.length ≤ maxRatings) :
    Ensures (finalizeBy collation) packer
      (fun _ next => Ended start (Image.ofRatings format records).bytes next ∧
        content next.sink = (Image.ofRatings format records).bytes)
      (fun next => Ended start (Image.ofRatings format records).bytes next ∧ ¬Reliable σ) := by
  have stopped (body : Bytes) (next : Packer σ) (h : Unsealed start body next ∧ ¬Reliable σ) :
      Ended start (Image.ofRatings format records).bytes next ∧ ¬Reliable σ :=
    ⟨h.1.ended, h.2⟩
  apply Ensures.get_bind
  rw [h.users_eq, h.items_eq, h.header_eq]
  apply (ensures_writeIndex collation h.unsealed small).andThen (stopped _)
  rintro _ packer ⟨-, users⟩
  apply (ensures_writeIndex collation users small).andThen (stopped _)
  rintro _ packer ⟨-, items⟩
  have sealing := ensures_patchHeader (Image.ofRatings format records).header items
  rw [← bytes_ofRatings] at sealing
  rw [← bind_assoc]
  refine sealing.andThen (fun _ failed => failed) ?_
  rintro _ packer ⟨ended, finished⟩
  apply Ensures.get_bind
  exact Ensures.modify ⟨⟨ended.closed_eq, ended.passes, ended.ending⟩, finished⟩

/-- **Closing** writes the records that wait, the indexes and the header. -/
theorem ensures_completeBy (collation : Collation) {records : List Rating}
    (h : Gathers start format written [] true packer)
    (arranged : written ++ pending.mergeSort Rating.notLater = records)
    (admitted : ∀ rating ∈ pending, format.Admits rating) (small : records.length ≤ maxRatings) :
    Ensures (completeBy collation pending) packer
      (fun _ next => Ended start (Image.ofRatings format records).bytes next ∧
        content next.sink = (Image.ofRatings format records).bytes)
      (fun next => Ended start (Image.ofRatings format records).bytes next ∧ ¬Reliable σ) := by
  have sorted : ∀ rating ∈ pending.mergeSort Rating.notLater, format.Admits rating :=
    fun rating mem => admitted rating (List.mem_mergeSort.1 mem)
  apply (ensures_forM_appendRecord h sorted).andThen
  · rintro next ⟨part, wrote, unreliable⟩
    exact ⟨wrote.unsealed.ended, unreliable⟩
  · intro _ packer wrote
    rw [arranged] at wrote
    exact ensures_finalizeBy collation wrote small

end Packer

end RatingArchive
