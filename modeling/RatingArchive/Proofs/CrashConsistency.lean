import RatingArchive.Proofs.Packer.Runs
import RatingArchive.Proofs.RoundTrip
/-!
# Crash consistency

A packer runs on a sink that may fail at any call, but then changes nothing. Whatever is asked of
the packer, and wherever its sink fails, at every moment the sink holds a content with a blank
header, which does not open, or the archive of the ratings that were accepted
(`Packer.crash_consistent`).

The proof is an induction over the steps of a run. Before the first attempt to complete the archive
the packer is `Open`; after it, it has `Ended`, and no step changes it any more.
-/

namespace RatingArchive

open TransactionalSink (content)

/-- A content with a blank header does not open. -/
theorem ofBytes_of_blank {bytes : Bytes} (blank : Blank bytes) (verified : Bool) :
    Archive.ofBytes bytes verified = .error (.malformedHeader (.magic 0)) := by
  have long : headerSize ≤ bytes.length := by
    have length := congrArg List.length blank
    rw [List.length_take, blankHeader, List.length_replicate] at length
    omega
  have word : Header.wordAt bytes 0 = 0 := by
    have front : (bytes.drop (4 * 0)).take 4 = (bytes.take headerSize).take 4 := by
      rw [List.take_take]
      rfl
    rw [Header.wordAt, front, blank]
    rfl
  have refused : Header.parse bytes = .error (.malformedHeader (.magic 0)) := by
    rw [Header.parse, if_neg (Nat.not_lt.2 long), word]
    rfl
  show Image.parse bytes >>= _ = _
  unfold Image.parse Header.ofContent
  rw [refused]
  rfl

namespace Packer

variable {σ : Type} [TransactionalSink σ] {start : σ} {format : Format} {accepted : List Rating}
  {packer : Packer σ}

/-! ## Before the first attempt to complete the archive -/

/-- An open packer has accepted what went in before a rating was refused. -/
theorem open_acceptedOf {ratings : List Rating} (h : Open start format accepted packer) :
    Open start format (accepted ++ acceptedOf ratings packer)
      (stateAfter (writeAll ratings) packer) := by
  induction ratings generalizing accepted packer with
  | nil =>
    rw [acceptedOf, List.append_nil]
    exact h
  | cons rating ratings ih =>
    have written : Ensures (write rating) packer _ _ := ensures_write h
    show Open start format (accepted ++ acceptedOf (rating :: ratings) packer)
      (stateAfter (write rating >>= fun _ => ratings.forM write) packer)
    cases found : write rating packer with
    | ok value next =>
      have rest := ih (written.ok found)
      rw [List.append_assoc] at rest
      rw [acceptedOf, found, stateAfter_bind_of_ok found]
      exact rest
    | error reason next =>
      rw [acceptedOf, found, List.append_nil, stateAfter_bind_of_error found]
      exact (written.error found).1

/-- How an open packer is left by a step that completes its archive. -/
structure Completes (start : σ) (image : Bytes) (packer : Packer σ) (step : Step) : Prop where
  ended : Ended start image (stateAfter step.run packer)
  attempted : (step.completion packer).isSome = true
  finished : step.completion packer = some (.ok ()) →
    content (stateAfter step.run packer).sink = image

theorem completes_close (h : Open start format accepted packer) :
    Completes start (archiveOf format accepted) packer .close := by
  have closing := ensures_close h
  refine ⟨closing.stateAfter (fun _ _ done => done.1) fun _ failed => failed.1, rfl, ?_⟩
  intro success
  obtain ⟨_, next, found⟩ := exists_of_outcome_eq_ok (Option.some.inj success)
  show content (stateAfter close packer).sink = _
  rw [stateAfter_of_ok found]
  exact (closing.ok found).2

theorem completes_finish (h : Open start format accepted packer) :
    Completes start (archiveOf format accepted) packer .finish := by
  have finishing := ensures_finish h
  have after : stateAfter Step.finish.run packer = stateAfter finish packer :=
    stateAfter_bind_pure finish () packer
  refine ⟨?_, rfl, ?_⟩
  · rw [after]
    exact finishing.stateAfter (fun _ _ done => done.2.1) fun _ failed => failed.1
  · intro success
    obtain ⟨sink, next, found⟩ := exists_of_outcome_eq_ok (Option.some.inj success)
    rw [after, stateAfter_of_ok found]
    exact (finishing.ok found).2.2

theorem completes_drop (h : Open start format accepted packer) :
    Completes start (archiveOf format accepted) packer .drop := by
  have closing := ensures_close h
  have dropped := drop_of_open h.gathers.closed_eq
  cases found : close packer with
  | ok value next =>
    rw [found] at dropped
    have after : stateAfter Step.drop.run packer = next := stateAfter_of_ok dropped
    obtain ⟨ended, whole⟩ := closing.ok found
    refine ⟨after ▸ ended, rfl, ?_⟩
    intro _
    rw [after, whole]
  | error error next =>
    rw [found] at dropped
    have after : stateAfter Step.drop.run packer =
        { next with journal := next.journal ++ [.closeFailed error] } := stateAfter_of_ok dropped
    obtain ⟨ended, -⟩ := closing.error found
    refine ⟨?_, rfl, ?_⟩
    · rw [after]
      exact ⟨ended.closed_eq, ended.passes, ended.ending⟩
    · intro success
      obtain ⟨_, _, succeeded⟩ := exists_of_outcome_eq_ok (Option.some.inj success)
      cases found.symm.trans succeeded

theorem Open.completes (h : Open start format accepted packer) {step : Step}
    (completes : step.completes = true) :
    Completes start (archiveOf format accepted) packer step := by
  cases step with
  | write rating => cases completes
  | writeAll ratings => cases completes
  | close => exact completes_close h
  | finish => exact completes_finish h
  | drop => exact completes_drop h

/-! ## Every step -/

/-- **What holds throughout a run**: the packer is open, or it has ended, with a blank header or
with the archive of what was accepted. -/
inductive Tracks (start : σ) (format : Format) (run : Run σ) : Prop where
  | gathering (opened : Open start format run.accepted run.packer) (never : run.completion = none)
  | completed (packed : pack run.accepted format = .ok (archiveOf format run.accepted))
      (ended : Ended start (archiveOf format run.accepted) run.packer)
      (attempted : run.completion.isSome = true)
      (finished : run.completion = some (.ok ()) →
        content run.packer.sink = archiveOf format run.accepted)

theorem Open.pack_eq (h : Open start format accepted packer) :
    pack accepted format = .ok (archiveOf format accepted) :=
  pack_eq_ok_iff.2 ⟨h.small, h.admitted, rfl⟩

/-- A run that is still gathering ratings is tracked when its archive is completed. -/
theorem Completes.tracks {run : Run σ} {step : Step}
    (h : Completes start (archiveOf format run.accepted) run.packer step)
    (opened : Open start format run.accepted run.packer) (never : run.completion = none)
    (nothing : step.accepted run.packer = []) : Tracks start format (run.next step) := by
  have accepted : (run.next step).accepted = run.accepted := by
    rw [Run.next, nothing, List.append_nil]
  have completion : (run.next step).completion = step.completion run.packer := by
    rw [Run.next, never]
    rfl
  refine .completed ?_ ?_ ?_ ?_
  · rw [accepted]
    exact opened.pack_eq
  · rw [accepted]
    exact h.ended
  · rw [completion]
    exact h.attempted
  · rw [completion, accepted]
    exact h.finished

/-- **One step.** -/
theorem tracks_next {run : Run σ} (h : Tracks start format run) (step : Step) :
    Tracks start format (run.next step) := by
  cases h with
  | gathering opened never =>
    have still (step : Step) (nothing : step.completion run.packer = none) :
        (run.next step).completion = none := by
      rw [Run.next, never, nothing]
      rfl
    cases step with
    | write rating =>
      have written : Open start format (run.accepted ++ acceptedOf [rating] run.packer)
          (stateAfter (write rating >>= fun _ => pure ()) run.packer) := open_acceptedOf opened
      rw [stateAfter_bind_pure] at written
      exact .gathering written (still (.write rating) rfl)
    | writeAll ratings => exact .gathering (open_acceptedOf opened) (still (.writeAll ratings) rfl)
    | close => exact (completes_close opened).tracks opened never rfl
    | finish => exact (completes_finish opened).tracks opened never rfl
    | drop => exact (completes_drop opened).tracks opened never rfl
  | completed packed ended attempted finished =>
    rw [next_of_closed ended.closed_eq attempted]
    exact .completed packed ended attempted finished

/-- **Every run.** -/
theorem tracks_run (opened : Open start format [] packer) (steps : List Step) :
    Tracks start format (packer.run steps) := by
  induction steps using List.reverseRecOn with
  | nil => exact .gathering opened rfl
  | append_singleton steps step ih =>
    rw [run_append]
    exact tracks_next ih step

/-! ## Crash consistency -/

/-- A content that is not taken for an archive, or is the archive of some ratings. -/
def Safe (format : Format) (accepted : List Rating) (bytes : Bytes) : Prop :=
  (Blank bytes ∧ ∀ verified, ∃ fault,
    Archive.ofBytes bytes verified = .error (.malformedHeader fault)) ∨
      pack accepted format = .ok bytes

/-- What is known of a run on a sink that was watched. -/
structure Run.Consistent (format : Format) (run : Run (Watched σ)) : Prop where
  /-- At every moment the content was safe. -/
  moments : ∀ moment ∈ run.packer.sink.moments, Safe format run.accepted moment.content
  /-- The content is safe now. -/
  safe : Safe format run.accepted (content run.packer.sink)
  /-- If the archive was completed, it is there. -/
  completed : run.completion = some (.ok ()) →
    pack run.accepted format = .ok (content run.packer.sink)
  /-- If the sink was to be synced, the archive is there, even if that failed. -/
  synced : (∃ moment ∈ run.packer.sink.moments, moment.call = .sync) →
    pack run.accepted format = .ok (content run.packer.sink)
  /-- A rating that is refused changes neither the content nor the number of ratings. -/
  refused : ∀ rating error next, write rating run.packer = .error error next →
    content next.sink = content run.packer.sink ∧ next.ratingCount = run.packer.ratingCount

theorem safe_of_blank {bytes : Bytes} (blank : Blank bytes) : Safe format accepted bytes :=
  .inl ⟨blank, fun verified => ⟨_, ofBytes_of_blank blank verified⟩⟩

theorem safe_of_sealed {image bytes : Bytes} {call : SinkCall}
    (packed : pack accepted format = .ok image) (h : sealedCall image call bytes) :
    Safe format accepted bytes := by
  rcases h with rfl | ⟨-, blank⟩
  · exact .inr packed
  · exact safe_of_blank blank

variable {run : Run (Watched σ)} {start : Watched σ}

/-- A packer that is open has left the header blank. -/
theorem consistent_of_open (h : Open start format run.accepted run.packer)
    (never : run.completion = none)
    (begun : ∀ moment ∈ start.moments, blankCall moment.call moment.content) :
    run.Consistent format where
  moments moment mem := by
    have blank := h.gathers.passes.moments begun moment mem
    exact safe_of_sealed h.pack_eq (.inr blank)
  safe := by
    have blank : Blank (content run.packer.sink) := by
      rw [h.gathers.content_eq]
      exact blank_append _
    exact safe_of_blank blank
  completed success := by
    rw [never] at success
    cases success
  synced := by
    rintro ⟨moment, mem, sync⟩
    exact absurd sync (h.gathers.passes.moments begun moment mem).1
  refused rating error next found := by
    have written : Ensures (write rating) run.packer _ _ := ensures_write h
    obtain ⟨still, -⟩ := written.error found
    rw [still.gathers.content_eq, h.gathers.content_eq, still.ratingCount_eq, h.ratingCount_eq]
    exact ⟨rfl, rfl⟩

/-- A packer that has ended leaves a blank header, or the archive. -/
theorem consistent_of_ended
    (packed : pack run.accepted format = .ok (archiveOf format run.accepted))
    (ended : Ended start (archiveOf format run.accepted) run.packer)
    (finished : run.completion = some (.ok ()) →
      content run.packer.sink = archiveOf format run.accepted)
    (blank : Blank (content start))
    (begun : ∀ moment ∈ start.moments, blankCall moment.call moment.content) :
    run.Consistent format where
  moments moment mem := by
    have begun : ∀ moment ∈ start.moments,
        sealedCall (archiveOf format run.accepted) moment.call moment.content := by
      intro moment mem
      exact .inr (begun moment mem)
    exact safe_of_sealed packed (ended.passes.moments begun moment mem)
  safe := by
    rcases ended.passes.last_content with same | ⟨call, now⟩
    · rw [same]
      exact safe_of_blank blank
    · exact safe_of_sealed packed now
  completed success := by rw [finished success, packed]
  synced := by
    rintro ⟨moment, mem, sync⟩
    rcases ended.ending with whole | passes
    · rw [whole, packed]
    · exact absurd sync (passes.moments begun moment mem).1
  refused rating error next found := by
    rw [write_of_closed ended.closed_eq] at found
    cases found
    exact ⟨rfl, rfl⟩

/-- A watched sink has seen the zeros that a new packer writes. -/
theorem moments_of_new {sink : σ} {packer : Packer (Watched σ)}
    (fresh : new (Watched.start sink) format = .ok packer) :
    ∀ moment ∈ packer.sink.moments, blankCall moment.call moment.content := by
  have whole := content_of_new fresh
  obtain ⟨n, next, -, appended, rfl⟩ := new_eq_ok fresh
  have after : (SinkCall.append blankHeader).after (Watched.start sink) = next :=
    stateAfter_of_ok appended
  have moments := Watched.moments_after (.append blankHeader) (Watched.start sink)
  rw [after] at moments
  intro moment mem
  rw [moments] at mem
  rw [List.mem_singleton.1 mem]
  refine ⟨nofun, ?_⟩
  rw [whole]
  rfl

/-- **Crash consistency.** Whatever is asked of a packer, and wherever its sink fails: at every
moment the sink holds a content that does not open, or the archive of the ratings accepted. Once it
was attempted to complete the archive, no step changes anything. -/
theorem crash_consistent {sink : σ} {packer : Packer (Watched σ)}
    (fresh : new (Watched.start sink) format = .ok packer) (steps : List Step) :
    (packer.run steps).Consistent format ∧
    (steps.any Step.completes = true →
      (∀ later, packer.run (steps ++ later) = packer.run steps) ∧
      let last := (packer.run steps).packer
      (∀ rating, write rating last = .error (.illegalState .packerClosed) last) ∧
      (∀ rating ratings,
        writeAll (rating :: ratings) last = .error (.illegalState .packerClosed) last) ∧
      close last = .ok () last ∧ finish last = .error (.illegalState .packerClosed) last ∧
      drop last = .ok () last) := by
  have begun := moments_of_new fresh
  have blank : Blank (content packer.sink) := by
    rw [content_of_new fresh]
    rfl
  have tracked := tracks_run (open_of_new fresh) steps
  have attempt := isSome_completion_run packer steps
  cases tracked with
  | gathering opened never =>
    refine ⟨consistent_of_open opened never begun, ?_⟩
    intro attempted
    rw [never, attempted] at attempt
    cases attempt
  | completed packed ended attempted finished =>
    refine ⟨consistent_of_ended packed ended finished blank begun, fun _ => ⟨?_, ?_⟩⟩
    · intro later
      rw [run_append]
      induction later with
      | nil => rfl
      | cons step later ih => rw [List.foldl_cons, next_of_closed ended.closed_eq attempted, ih]
    · have closed := ended.closed_eq
      exact ⟨write_of_closed closed, writeAll_of_closed closed, close_of_closed closed,
        finish_of_closed closed, drop_of_closed closed⟩

/-- A buffer that is too small for the archive, and cannot sync, is a sink of this kind. -/
theorem crash_consistent_bounded :
    ∃ packer : Packer (Watched BoundedSink),
      new (Watched.start ⟨⟨[]⟩, some 60, false, true⟩) .timestamped = .ok packer ∧
        (packer.run [.write ⟨1, 7, ⟨0⟩, some 9⟩, .drop, .close]).Consistent .timestamped := by
  obtain ⟨packer, fresh⟩ : ∃ packer : Packer (Watched BoundedSink),
      new (Watched.start ⟨⟨[]⟩, some 60, false, true⟩) .timestamped = .ok packer := ⟨_, rfl⟩
  exact ⟨packer, fresh, (crash_consistent fresh _).1⟩

end Packer

end RatingArchive
