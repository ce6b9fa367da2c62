import RatingArchive.Proofs.CrashConsistency
/-!
# What a packer reports

The journal of a packer is determined by what was asked of it (`Packer.journal_run`). While it is
open it has reported the loss of timestamps, once, if a rating with a timestamp has reached it that
it had room for but whose timestamp it does not store, whatever became of the rating
(`Packer.warned_write`). The first attempt to complete the archive adds one event or none
(`Packer.ensures_close_journal`, `Packer.journal_completes`), and nothing is added after it.

* `calls`: the ratings that reach a packer, with the packer that they reach.
* `firstAttempt`: the step that first attempts to complete the archive, and how that ends.
* `conclusion`: what that attempt reports.
-/

namespace RatingArchive

open TransactionalSink (content)

namespace Packer

section

variable {σ α β : Type}

/-! ## Operations that report nothing -/

/-- What a packer has reported, and whether it remembers to have reported a loss of timestamps. -/
def told (packer : Packer σ) : List Event × Bool := (packer.journal, packer.timestampsDropped)

/-- An operation that reports nothing, whether it fails or not. -/
def Silent (action : Action σ α) : Prop :=
  ∀ packer, (stateAfter action packer).told = packer.told

namespace Silent

theorem ensures {action : Action σ α} (h : Silent action) (packer : Packer σ) :
    Ensures action packer (fun _ next => next.told = packer.told)
      (fun next => next.told = packer.told) := by
  apply Ensures.of_cases
  · intro value next found
    rw [← h packer, stateAfter_of_ok found]
  · intro reason next found
    rw [← h packer, stateAfter_of_error found]

protected theorem pure (value : α) : Silent (pure value : Action σ α) := fun _ => rfl

protected theorem get : Silent (get : Action σ (Packer σ)) := fun _ => rfl

protected theorem modify {f : Packer σ → Packer σ} (h : ∀ packer, (f packer).told = packer.told) :
    Silent (modify f : Action σ Unit) := h

protected theorem bind {action : Action σ α} {f : α → Action σ β} (first : Silent action)
    (second : ∀ value, Silent (f value)) : Silent (action >>= f) := by
  intro packer
  have before := first packer
  cases found : action packer with
  | ok value next =>
    rw [stateAfter_of_ok found] at before
    rw [stateAfter_bind_of_ok found, second value next, before]
  | error reason next =>
    rw [stateAfter_of_error found] at before
    rw [stateAfter_bind_of_error found, before]

protected theorem forM {action : α → Action σ Unit} (h : ∀ value, Silent (action value))
    (values : List α) : Silent (values.forM action) := by
  induction values with
  | nil => exact .pure ()
  | cons value values ih =>
    show Silent (action value >>= fun _ => values.forM action)
    exact (h value).bind fun _ => ih

end Silent

theorem silent_require (value : Except Error α) : Silent (require value : Action σ α) := by
  intro packer
  cases value <;> rfl

theorem silent_onSink (operation : EStateM IoError σ α) : Silent (onSink operation) := by
  intro packer
  unfold stateAfter onSink
  cases operation packer.sink <;> rfl

theorem silent_appendRecord [Sink σ] (rating : Rating) :
    Silent (appendRecord rating : Action σ Unit) := by
  apply Silent.get.bind
  intro packer
  apply (silent_require _).bind
  intro record
  apply (silent_onSink _).bind
  intro _
  exact Silent.modify fun _ => rfl

theorem silent_writeIndex [Sink σ] (entries : List Entry) :
    Silent (writeIndex entries : Action σ Nat) := by
  apply (silent_require _).bind
  intro index
  apply (silent_onSink _).bind
  intro _
  exact .pure _

/-! ## The loss of timestamps -/

/-- Whether a rating that reaches a packer has a timestamp that is to be lost: the packer is open,
has room for the rating, and stores no timestamps. -/
def loses (rating : Rating) (packer : Packer σ) : Bool :=
  !packer.closed && decide (packer.ratingCount < maxRatings) && !packer.format.hasTimestamps &&
    rating.timestamp.isSome

/-- What is reported of timestamps that were lost. -/
def warnings (lost : Bool) : List Event := if lost then [.timestampsDropped] else []

/-- A packer that was not closed has reported that timestamps were lost, if they were, and nothing
else. -/
structure Warned (lost : Bool) (packer : Packer σ) : Prop where
  dropped_eq : packer.timestampsDropped = lost
  journal_eq : packer.journal = warnings lost

variable {packer : Packer σ} {lost : Bool}

theorem Warned.of_told (h : Warned lost packer) {next : Packer σ} (same : next.told = packer.told) :
    Warned lost next := by
  obtain ⟨journal, dropped⟩ := Prod.mk.inj same
  exact ⟨dropped.trans h.dropped_eq, journal.trans h.journal_eq⟩

theorem not_loses_of_closed (h : packer.closed = true) (rating : Rating) :
    loses rating packer = false := by
  simp [loses, h]

/-- Whether a timestamp is lost when some ratings reach a packer. -/
def lose (calls : List (Rating × Packer σ)) : Bool :=
  calls.any fun (rating, packer) => loses rating packer

theorem lose_cons (rating : Rating) (packer : Packer σ) (calls : List (Rating × Packer σ)) :
    lose ((rating, packer) :: calls) = (loses rating packer || lose calls) := List.any_cons

theorem lose_append (calls later : List (Rating × Packer σ)) :
    lose (calls ++ later) = (lose calls || lose later) := List.any_append

variable [Sink σ]

/-- The ratings that reach a packer which is given a list, up to the first that is refused, each
with the packer that it reaches. -/
def reached : List Rating → Packer σ → List (Rating × Packer σ)
  | [], _ => []
  | rating :: ratings, packer =>
    (rating, packer) ::
      match write rating packer with
      | .ok _ next => reached ratings next
      | .error _ _ => []

/-- The ratings that reach a packer in a step. -/
def Step.reached : Step → Packer σ → List (Rating × Packer σ)
  | write rating, packer => Packer.reached [rating] packer
  | writeAll ratings, packer => Packer.reached ratings packer
  | close, _ | finish, _ | drop, _ => []

/-- The ratings that reach a packer in some steps. -/
def calls (packer : Packer σ) : List Step → List (Rating × Packer σ)
  | [] => []
  | step :: steps => step.reached packer ++ calls (stateAfter step.run packer) steps

/-- **The loss of a timestamp is reported once**, even if the rating is then refused. -/
theorem warned_write (h : Warned lost packer) (rating : Rating) :
    Warned (lost || loses rating packer) (stateAfter (write rating) packer) := by
  have kept (none : loses rating packer = false) : Warned (lost || loses rating packer) packer := by
    rwa [none, Bool.or_false]
  have appended {next : Packer σ} (told : Warned (lost || loses rating packer) next) :
      Ensures (appendRecord rating) next
        (fun _ last => Warned (lost || loses rating packer) last)
        (fun last => Warned (lost || loses rating packer) last) :=
    ((silent_appendRecord rating).ensures next).mono (fun _ _ same => told.of_told same)
      fun _ same => told.of_told same
  have ensured : Ensures (write rating) packer
      (fun _ next => Warned (lost || loses rating packer) next)
      (fun next => Warned (lost || loses rating packer) next) := by
    unfold write
    apply Ensures.get_bind
    by_cases closed : packer.closed = true
    · rw [if_pos closed]
      exact Ensures.throw (kept (by simp [loses, closed]))
    rw [if_neg closed]
    by_cases full : maxRatings ≤ packer.ratingCount
    · rw [if_pos full]
      exact Ensures.throw (kept (by simp [loses, full]))
    rw [if_neg full]
    by_cases stamped : packer.format.hasTimestamps = true
    · have told := kept (by simp [loses, stamped])
      rw [if_pos stamped]
      split
      · exact Ensures.throw told
      · exact Ensures.set ⟨told.dropped_eq, told.journal_eq⟩
    rw [if_neg stamped]
    have same : loses rating packer = rating.timestamp.isSome := by
      simp [loses, closed, Nat.not_le.1 full, stamped]
    split
    · next first =>
      -- the loss is reported, which comes before the record is written
      rw [Bool.and_eq_true, Bool.not_eq_true', h.dropped_eq] at first
      obtain ⟨present, rfl⟩ := first
      apply appended
      rw [same, present]
      refine ⟨rfl, ?_⟩
      show packer.journal ++ _ = _
      rw [h.journal_eq]
      rfl
    · next again =>
      apply appended
      rw [same]
      rw [h.dropped_eq] at again
      cases lost
      · rw [Bool.not_false, Bool.and_true] at again
        rwa [Bool.false_or, eq_false_of_ne_true again]
      · rwa [Bool.true_or]
  exact ensured.stateAfter (fun _ _ told => told) fun _ told => told

theorem warned_writeAll (h : Warned lost packer) (ratings : List Rating) :
    Warned (lost || lose (reached ratings packer)) (stateAfter (writeAll ratings) packer) := by
  induction ratings generalizing lost packer with
  | nil =>
    show Warned (lost || false) packer
    rwa [Bool.or_false]
  | cons rating ratings ih =>
    have first := warned_write h rating
    show Warned _ (stateAfter (write rating >>= fun _ => ratings.forM write) packer)
    rw [reached, lose_cons, ← Bool.or_assoc]
    cases found : write rating packer with
    | ok value next =>
      rw [stateAfter_of_ok found] at first
      rw [stateAfter_bind_of_ok found]
      exact ih first
    | error reason next =>
      rw [stateAfter_of_error found] at first
      rw [stateAfter_bind_of_error found]
      show Warned (_ || false) next
      rwa [Bool.or_false]

theorem lose_reached_of_closed (closed : packer.closed = true) (ratings : List Rating) :
    lose (reached ratings packer) = false := by
  cases ratings with
  | nil => rfl
  | cons rating ratings =>
    rw [reached, write_of_closed closed, lose_cons, not_loses_of_closed closed]
    rfl

/-- No timestamp is lost by a packer that was closed. -/
theorem lose_calls_of_closed (closed : packer.closed = true) (steps : List Step) :
    lose (calls packer steps) = false := by
  induction steps with
  | nil => rfl
  | cons step steps ih =>
    have none : lose (step.reached packer) = false := by
      cases step with
      | write rating => exact lose_reached_of_closed closed [rating]
      | writeAll ratings => exact lose_reached_of_closed closed ratings
      | close => rfl
      | finish => rfl
      | drop => rfl
    rw [calls, stateAfter_of_closed closed, lose_append, none, ih, Bool.or_self]

/-! ## Completing the archive -/

/-- What is reported when an archive is complete: its header, its size, and the sizes of its two
indexes. -/
def packedEvent (image : Image) : Event :=
  let users := (tableBytes image.users.entries).length
  let items := (tableBytes image.items.entries).length
  .packed image.header
    (headerSize + image.header.records.toNat * image.header.format.recordSize + users + items)
    users items

/-- The step that first attempts to complete the archive, and how the attempt ends. -/
def firstAttempt (packer : Packer σ) : List Step → Option (Step × Except Error Unit)
  | [] => none
  | step :: steps =>
    match step.completion packer with
    | some result => some (step, result)
    | none => firstAttempt (stateAfter step.run packer) steps

/-- What is reported of the first attempt to complete an archive. Nobody is told of a failure when
the packer is given up, so that it is reported. -/
def conclusion (image : Image) : Option (Step × Except Error Unit) → List Event
  | none => []
  | some (_, .ok ()) => [packedEvent image]
  | some (.drop, .error error) => [.closeFailed error]
  | some (_, .error _) => []

end

variable {σ : Type} [TransactionalSink σ] {start : σ} {format : Format}
  {accepted records : List Rating} {packer : Packer σ} {lost : Bool}

/-- The image of the archive of some ratings. -/
def imageOf (format : Format) (ratings : List Rating) : Image :=
  Image.ofRatings format (format.arranged ratings)

theorem ensures_patchHeader_silent {body : Bytes} (header : Header)
    (h : Unsealed start body packer) :
    Ensures (do onSink (Sink.patch 0 header.render); onSink Sink.sync) packer
      (fun _ next => content next.sink = header.render ++ body ∧ next.told = packer.told)
      (fun next => next.told = packer.told) := by
  have silent : Silent (do onSink (Sink.patch 0 header.render); onSink Sink.sync : Action σ Unit) :=
    (silent_onSink _).bind fun _ => silent_onSink _
  exact ((ensures_patchHeader header h).and (silent.ensures packer)).mono
    (fun _ _ done => ⟨done.1.2, done.2⟩) fun _ failed => failed.2

/-- Behind its records, an archive is given its indexes and its header, and that is reported. -/
theorem ensures_finalizeBy_journal (collation : Collation)
    (h : Gathers start format records [] true packer) (small : records.length ≤ maxRatings) :
    Ensures (finalizeBy collation) packer
      (fun _ next =>
        next.journal = packer.journal ++ [packedEvent (Image.ofRatings format records)])
      (fun next => next.journal = packer.journal) := by
  have still {next : Packer σ} (same : next.told = packer.told) : next.journal = packer.journal :=
    congrArg Prod.fst same
  apply Ensures.get_bind
  rw [h.users_eq, h.items_eq, h.header_eq]
  apply ((ensures_writeIndex collation h.unsealed small).and
    ((silent_writeIndex _).ensures packer)).andThen
  · rintro next ⟨-, same⟩
    exact still same
  rintro _ first ⟨⟨rfl, users⟩, same⟩
  apply ((ensures_writeIndex collation users small).and
    ((silent_writeIndex _).ensures first)).andThen
  · rintro next ⟨-, same'⟩
    exact still (same'.trans same)
  rintro _ second ⟨⟨rfl, items⟩, same'⟩
  rw [← bind_assoc]
  apply (ensures_patchHeader_silent (Image.ofRatings format records).header items).andThen
  · intro next same''
    exact still (same''.trans (same'.trans same))
  rintro _ last ⟨whole, same''⟩
  apply Ensures.get_bind
  apply Ensures.modify
  show last.journal ++ _ = _
  rw [still (same''.trans (same'.trans same)), TransactionalSink.size_eq, whole, packedEvent,
    Image.toNat_records_ofRatings format small]
  simp only [List.length_append, Header.length_render, Format.length_region, Nat.add_assoc]
  rfl

/-- **Closing an open packer** reports that the archive is complete, or nothing. -/
theorem ensures_close_journal (h : Open start format accepted packer) :
    Ensures close packer
      (fun _ next => next.journal = packer.journal ++ [packedEvent (imageOf format accepted)])
      (fun next => next.journal = packer.journal) := by
  obtain ⟨written, records, closing⟩ := h.exists_closing
  have silent := Silent.forM (σ := σ) silent_appendRecord
    (packer.pending.mergeSort Rating.notLater)
  refine (Ensures.of_eq (closeBy_of_open .asMet h.gathers.closed_eq)).2 ?_
  rw [imageOf, ← closing.image_eq]
  apply ((ensures_forM_appendRecord closing.gathers closing.sorted).and (silent.ensures _)).andThen
  · rintro next ⟨-, same⟩
    exact congrArg Prod.fst same
  · rintro _ next ⟨wrote, same⟩
    have journal : next.journal = packer.journal := congrArg Prod.fst same
    rw [closing.arranged] at wrote
    rw [← journal]
    exact ensures_finalizeBy_journal .asMet wrote closing.small

/-- **The first attempt to complete the archive** adds its conclusion to the journal. -/
theorem journal_completes (h : Open start format accepted packer) {step : Step}
    {result : Except Error Unit} (attempt : step.completion packer = some result) :
    (stateAfter step.run packer).journal =
      packer.journal ++ conclusion (imageOf format accepted) (some (step, result)) := by
  have closing := ensures_close_journal h
  cases step with
  | write rating => cases attempt
  | writeAll ratings => cases attempt
  | close =>
    cases attempt
    show (stateAfter close packer).journal = _
    unfold outcome
    cases found : close packer with
    | ok value next =>
      rw [stateAfter_of_ok found, closing.ok found]
      rfl
    | error reason next =>
      rw [stateAfter_of_error found, closing.error found]
      exact (List.append_nil _).symm
  | finish =>
    cases attempt
    have finished := finish_of_open h.gathers.closed_eq
    rw [show stateAfter Step.finish.run packer = stateAfter finish packer from
      stateAfter_bind_pure finish () packer]
    unfold outcome
    cases found : close packer with
    | ok value next =>
      rw [found] at finished
      rw [stateAfter_of_ok finished, finished, closing.ok found]
      rfl
    | error reason next =>
      rw [found] at finished
      rw [stateAfter_of_error finished, finished, closing.error found]
      exact (List.append_nil _).symm
  | drop =>
    cases attempt
    have dropped := drop_of_open h.gathers.closed_eq
    show (stateAfter drop packer).journal = _
    unfold outcome
    cases found : close packer with
    | ok value next =>
      rw [found] at dropped
      rw [stateAfter_of_ok dropped, closing.ok found]
      rfl
    | error reason next =>
      rw [found] at dropped
      rw [stateAfter_of_ok dropped]
      show next.journal ++ _ = _
      rw [closing.error found]
      rfl

/-! ## Runs -/

/-- A step that attempts to complete the archive offers no ratings. -/
theorem completes_of_completion {step : Step} {result : Except Error Unit}
    (attempt : step.completion packer = some result) :
    step.completes = true ∧ step.accepted packer = [] ∧ step.reached packer = [] := by
  cases step with
  | write rating => cases attempt
  | writeAll ratings => cases attempt
  | close => exact ⟨rfl, rfl, rfl⟩
  | finish => exact ⟨rfl, rfl, rfl⟩
  | drop => exact ⟨rfl, rfl, rfl⟩

/-- What a run from an open packer reports. -/
theorem journal_foldl (h : Open start format accepted packer) (warned : Warned lost packer)
    (steps : List Step) :
    (steps.foldl Run.next ⟨packer, accepted, none⟩).packer.journal =
      warnings (lost || lose (calls packer steps)) ++
        conclusion (imageOf format (steps.foldl Run.next ⟨packer, accepted, none⟩).accepted)
          (firstAttempt packer steps) := by
  induction steps generalizing packer accepted lost with
  | nil =>
    show packer.journal = warnings (lost || false) ++ []
    rw [Bool.or_false, List.append_nil, warned.journal_eq]
  | cons step steps ih =>
    rw [calls, lose_append, ← Bool.or_assoc, firstAttempt, List.foldl_cons]
    cases attempt : step.completion packer with
    | none =>
      have next : Run.next ⟨packer, accepted, none⟩ step =
          ⟨stateAfter step.run packer, accepted ++ step.accepted packer, none⟩ := by
        rw [Run.next, attempt]
        rfl
      rw [next]
      cases step with
      | write rating =>
        have still : Open start format (accepted ++ acceptedOf [rating] packer)
            (stateAfter (write rating >>= fun _ => pure ()) packer) := open_acceptedOf h
        have told : Warned (lost || lose (reached [rating] packer))
            (stateAfter (write rating >>= fun _ => pure ()) packer) :=
          warned_writeAll warned [rating]
        rw [stateAfter_bind_pure] at still told
        exact ih still told
      | writeAll ratings => exact ih (open_acceptedOf h) (warned_writeAll warned ratings)
      | close => cases attempt
      | finish => cases attempt
      | drop => cases attempt
    | some result =>
      obtain ⟨completes, noneAccepted, noneReached⟩ := completes_of_completion attempt
      have closed := (h.completes completes).ended.closed_eq
      have next : Run.next ⟨packer, accepted, none⟩ step =
          ⟨stateAfter step.run packer, accepted, some result⟩ := by
        rw [Run.next, attempt, noneAccepted, List.append_nil]
        rfl
      rw [next, foldl_next_of_closed closed rfl, journal_completes h attempt, warned.journal_eq,
        noneReached, lose_calls_of_closed closed]
      show _ = warnings ((lost || false) || false) ++ _
      rw [Bool.or_false, Bool.or_false]

/-- **What a packer reports in a run**, on a sink that may fail at any call: that timestamps are
lost, once, if and only if a rating whose timestamp it loses has reached it; then what the first
attempt to complete the archive has come to; and nothing else. Once that was attempted, nothing is
reported any more. -/
theorem journal_run {sink : σ} (fresh : new sink format = .ok packer) (steps : List Step) :
    (packer.run steps).packer.journal =
      warnings (lose (calls packer steps)) ++
        conclusion (imageOf format (packer.run steps).accepted) (firstAttempt packer steps) ∧
    (steps.any Step.completes = true → ∀ later,
      (packer.run (steps ++ later)).packer.journal = (packer.run steps).packer.journal) := by
  have opened := open_of_new fresh
  have warned : Warned false packer := by
    obtain ⟨n, next, -, -, rfl⟩ := new_eq_ok fresh
    exact ⟨rfl, rfl⟩
  refine ⟨?_, ?_⟩
  · have journal := journal_foldl opened warned steps
    rwa [Bool.false_or] at journal
  · intro attempted later
    rw [← isSome_completion_run packer] at attempted
    have closed : (packer.run steps).packer.closed = true := by
      cases tracks_run opened steps with
      | gathering opened never =>
        rw [never] at attempted
        cases attempted
      | completed packed ended attempted finished => exact ended.closed_eq
    rw [run_append, foldl_next_of_closed closed attempted]

/-- A rating that the sink has no room for is lost with its timestamp, and then the archive is
given up, first with and then without room for its second index. -/
theorem journal_run_bounded :
    ∃ packer packer' : Packer BoundedSink,
      new ⟨⟨[]⟩, some 40, false, false⟩ .plain = .ok packer ∧
      new ⟨⟨[]⟩, some 30, false, false⟩ .plain = .ok packer' ∧
      (packer.run [.write ⟨1, 7, ⟨0⟩, some 9⟩, .drop]).packer.journal =
        [.timestampsDropped, .packed ⟨.plain, 0, 0, 0⟩ 32 4 4] ∧
      (packer'.run [.write ⟨1, 7, ⟨0⟩, some 9⟩, .drop]).packer.journal =
        [.timestampsDropped, .closeFailed (.io (.device .other "sink full"))] := by
  obtain ⟨packer, fresh⟩ : ∃ packer : Packer BoundedSink,
      new ⟨⟨[]⟩, some 40, false, false⟩ .plain = .ok packer := ⟨_, rfl⟩
  obtain ⟨packer', fresh'⟩ : ∃ packer : Packer BoundedSink,
      new ⟨⟨[]⟩, some 30, false, false⟩ .plain = .ok packer := ⟨_, rfl⟩
  refine ⟨packer, packer', fresh, fresh', ?_, ?_⟩
  · rw [(journal_run fresh _).1]
    cases fresh
    decide +kernel
  · rw [(journal_run fresh' _).1]
    cases fresh'
    decide +kernel

end Packer

end RatingArchive
