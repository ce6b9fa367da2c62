import RatingArchive.Proofs.Actions
import RatingArchive.Proofs.Header
import RatingArchive.Proofs.Packer.Completion
import RatingArchive.Proofs.Packer.Runs
import RatingArchive.Proofs.Sink.File
/-!
# Packers on sinks that are alike

What a packer does to its sink it learns about by the answers and the size only. So on two sinks
that answer alike, and stay alike, two packers that were alike end alike and stay alike: in
everything but their sinks they are the same (`Packer.Alike`), after any step (`endsAlike_step`) and
after any run (`alike_run`).

`SinksAlike` asks no more of the sinks than a packer does to them: that they append, that they sync,
and that they replace as many bytes at the start as a header has. A file and a buffer in memory are
alike in that (`FileSink.sinksAlike`), and so a packer leaves in a file what it leaves in memory
(`Packer.run_on_file`).
-/

namespace RatingArchive

/-- Two actions end alike, with one answer and in states that are related. -/
inductive EndsAlike {ε α σ τ : Type} (related : σ → τ → Prop) :
    EStateM.Result ε σ α → EStateM.Result ε τ α → Prop
  | ok (value : α) {first : σ} {second : τ} (h : related first second) :
      EndsAlike related (.ok value first) (.ok value second)
  | error (reason : ε) {first : σ} {second : τ} (h : related first second) :
      EndsAlike related (.error reason first) (.error reason second)

namespace EndsAlike

variable {ε α β σ τ : Type} {related : σ → τ → Prop} {action : EStateM ε σ α}
  {action' : EStateM ε τ α} {first : σ} {second : τ}

/-- The two ways to end alike. -/
theorem cases_iff {first : EStateM.Result ε σ α} {second : EStateM.Result ε τ α} :
    EndsAlike related first second ↔
      (∃ value s t, first = .ok value s ∧ second = .ok value t ∧ related s t) ∨
      ∃ reason s t, first = .error reason s ∧ second = .error reason t ∧ related s t := by
  constructor
  · rintro (⟨value, h⟩ | ⟨reason, h⟩)
    · exact .inl ⟨value, _, _, rfl, rfl, h⟩
    · exact .inr ⟨reason, _, _, rfl, rfl, h⟩
  · rintro (⟨value, s, t, rfl, rfl, h⟩ | ⟨reason, s, t, rfl, rfl, h⟩)
    · exact .ok value h
    · exact .error reason h

/-- One action after the other. -/
theorem bind {f : α → EStateM ε σ β} {f' : α → EStateM ε τ β}
    (h : EndsAlike related (action first) (action' second))
    (next : ∀ value first second, related first second →
      EndsAlike related (f value first) (f' value second)) :
    EndsAlike related ((action >>= f) first) ((action' >>= f') second) := by
  rcases cases_iff.1 h with ⟨value, s, t, ok, ok', still⟩ | ⟨reason, s, t, err, err', still⟩
  · rw [bind_of_ok ok, bind_of_ok ok']
    exact next value s t still
  · rw [bind_of_error err, bind_of_error err']
    exact .error reason still

theorem tryCatch {handle : ε → EStateM ε σ α} {handle' : ε → EStateM ε τ α}
    (h : EndsAlike related (action first) (action' second))
    (caught : ∀ reason first second, related first second →
      EndsAlike related (handle reason first) (handle' reason second)) :
    EndsAlike related (MonadExcept.tryCatch action handle first)
      (MonadExcept.tryCatch action' handle' second) := by
  show EndsAlike related (EStateM.tryCatch action handle first)
    (EStateM.tryCatch action' handle' second)
  unfold EStateM.tryCatch
  rcases cases_iff.1 h with ⟨value, s, t, ok, ok', still⟩ | ⟨reason, s, t, err, err', still⟩
  · rw [ok, ok']
    exact .ok value still
  · rw [err, err']
    exact caught reason s t still

theorem get_bind {f : σ → EStateM ε σ β} {f' : τ → EStateM ε τ β}
    (h : EndsAlike related (f first first) (f' second second)) :
    EndsAlike related ((get >>= f) first) ((get >>= f') second) := h

theorem ite {c c' : Prop} [Decidable c] [Decidable c'] {other : EStateM ε σ α}
    {other' : EStateM ε τ α} (same : c ↔ c')
    (pos : c → EndsAlike related (action first) (action' second))
    (neg : ¬c → EndsAlike related (other first) (other' second)) :
    EndsAlike related ((if c then action else other) first)
      ((if c' then action' else other') second) := by
  by_cases h : c
  · rw [if_pos h, if_pos (same.1 h)]
    exact pos h
  · rw [if_neg h, if_neg (mt same.2 h)]
    exact neg h

theorem forM {items : List α} {f : α → EStateM ε σ PUnit} {f' : α → EStateM ε τ PUnit}
    (step : ∀ item ∈ items, ∀ first second, related first second →
      EndsAlike related (f item first) (f' item second)) (h : related first second) :
    EndsAlike related (items.forM f first) (items.forM f' second) := by
  induction items generalizing first second with
  | nil => exact .ok _ h
  | cons item items ih =>
    refine bind (step item (List.mem_cons_self ..) first second h) ?_
    intro _ first second still
    exact ih (fun other mem => step other (List.mem_cons_of_mem _ mem)) still

theorem stateAfter (h : EndsAlike related (action first) (action' second)) :
    related (RatingArchive.stateAfter action first) (RatingArchive.stateAfter action' second) := by
  rcases cases_iff.1 h with ⟨value, s, t, ok, ok', still⟩ | ⟨reason, s, t, err, err', still⟩
  · rwa [stateAfter_of_ok ok, stateAfter_of_ok ok']
  · rwa [stateAfter_of_error err, stateAfter_of_error err']

end EndsAlike

/-- Sinks that do the same for a packer as long as they are related. -/
structure SinksAlike {σ τ : Type} [Sink σ] [Sink τ] (related : σ → τ → Prop) : Prop where
  size : ∀ {first second}, related first second → Sink.size first = Sink.size second
  append : ∀ {first second} bytes, related first second →
    EndsAlike related (Sink.append bytes first) (Sink.append bytes second)
  patch : ∀ {first second bytes}, bytes.length = headerSize → related first second →
    EndsAlike related (Sink.patch 0 bytes first) (Sink.patch 0 bytes second)
  sync : ∀ {first second}, related first second →
    EndsAlike related (Sink.sync first) (Sink.sync second)

namespace Packer

variable {σ τ α : Type}

/-- The packer with another sink in place of its own. -/
def onto (packer : Packer σ) (sink : τ) : Packer τ where
  sink
  format := packer.format
  count := packer.count
  users := packer.users
  items := packer.items
  pending := packer.pending
  timestampsDropped := packer.timestampsDropped
  closed := packer.closed
  journal := packer.journal

/-- Packers that are the same but for their sinks, which are related. -/
inductive Alike (related : σ → τ → Prop) : Packer σ → Packer τ → Prop
  | intro (packer : Packer σ) {sink : τ} (h : related packer.sink sink) :
      Alike related packer (packer.onto sink)

variable {related : σ → τ → Prop} {packer : Packer σ} {other : Packer τ}

theorem endsAlike_onSink {operation : EStateM IoError σ α} {operation' : EStateM IoError τ α}
    (h : Alike related packer other)
    (alike : EndsAlike related (operation packer.sink) (operation' other.sink)) :
    EndsAlike (Alike related) (onSink operation packer) (onSink operation' other) := by
  obtain ⟨-⟩ := h
  unfold onSink
  rcases EndsAlike.cases_iff.1 alike with
    ⟨value, s, t, ok, ok', still⟩ | ⟨reason, s, t, err, err', still⟩
  · rw [ok, ok']
    exact .ok value (.intro { packer with sink := s } still)
  · rw [err, err']
    exact .error _ (.intro { packer with sink := s } still)

theorem endsAlike_require (h : Alike related packer other) (x : Except Error α) :
    EndsAlike (Alike related) (require x packer) (require x other) := by
  cases x with
  | ok value => exact .ok value h
  | error reason => exact .error reason h

theorem endsAlike_report (h : Alike related packer other) (event : Event) :
    EndsAlike (Alike related) (report event packer) (report event other) := by
  obtain ⟨h⟩ := h
  exact .ok _ (.intro { packer with journal := packer.journal ++ [event] } h)

theorem Alike.closed_eq (h : Alike related packer other) : other.closed = packer.closed := by
  obtain ⟨-⟩ := h
  rfl

theorem outcome_eq_of_endsAlike {action : Action σ α} {action' : Action τ α}
    (h : EndsAlike (Alike related) (action packer) (action' other)) :
    outcome action packer = outcome action' other := by
  unfold outcome
  rcases EndsAlike.cases_iff.1 h with ⟨value, s, t, ok, ok', -⟩ | ⟨reason, s, t, err, err', -⟩
  · rw [ok, ok']
  · rw [err, err']

variable [Sink σ] [Sink τ] (sinks : SinksAlike related)

include sinks

theorem endsAlike_appendRecord (h : Alike related packer other) (rating : Rating) :
    EndsAlike (Alike related) (appendRecord rating packer) (appendRecord rating other) := by
  obtain ⟨h⟩ := h
  refine .bind (endsAlike_require (.intro packer h) _) fun record packer other h => ?_
  refine .bind (endsAlike_onSink h ?_) fun _ packer other h => ?_
  · obtain ⟨h⟩ := h
    exact sinks.append record h
  · obtain ⟨h⟩ := h
    exact .ok _ (.intro { packer with
      users := noteSlot rating.user (UInt32.ofNat packer.count) packer.users
      items := noteSlot rating.item (UInt32.ofNat packer.count) packer.items
      count := packer.count + 1 } h)

/-- **A rating is written alike.** -/
theorem endsAlike_write (alike : Alike related packer other) (rating : Rating) :
    EndsAlike (Alike related) (write rating packer) (write rating other) := by
  obtain ⟨h⟩ := id alike
  unfold write
  apply EndsAlike.get_bind
  refine .ite Iff.rfl (fun _ => .error _ alike) fun _ => ?_
  refine .ite Iff.rfl (fun _ => .error _ alike) fun _ => ?_
  refine .ite Iff.rfl (fun _ => ?_) fun _ => ?_
  · refine .ite Iff.rfl (fun _ => .error _ alike) fun _ => ?_
    exact .ok _ (.intro { packer with pending := packer.pending ++ [rating] } h)
  · refine .ite Iff.rfl (fun _ => ?_) fun _ => endsAlike_appendRecord sinks alike rating
    refine .bind (endsAlike_report alike _) ?_
    rintro _ packer _ ⟨h⟩
    have dropped : Alike related { packer with timestampsDropped := true } _ := .intro _ h
    exact .bind (.ok _ dropped) fun _ _ _ alike => endsAlike_appendRecord sinks alike rating

theorem endsAlike_writeIndex (h : Alike related packer other) (entries : List Entry) :
    EndsAlike (Alike related) (writeIndex entries packer) (writeIndex entries other) := by
  refine .bind (endsAlike_require h _) fun index packer other h => ?_
  refine .bind (endsAlike_onSink h ?_) fun _ packer other h => .ok _ h
  obtain ⟨h⟩ := h
  exact sinks.append index h

theorem endsAlike_finalizeBy (collation : Collation) (alike : Alike related packer other) :
    EndsAlike (Alike related) (finalizeBy collation packer) (finalizeBy collation other) := by
  obtain ⟨-⟩ := id alike
  unfold finalizeBy
  apply EndsAlike.get_bind
  refine .bind (endsAlike_writeIndex sinks alike _) fun userIndexSize _ _ h => ?_
  refine .bind (endsAlike_writeIndex sinks h _) fun itemIndexSize _ _ h => ?_
  refine .bind (endsAlike_onSink h ?_) fun _ _ _ h => ?_
  · obtain ⟨h⟩ := h
    exact sinks.patch (Header.length_render _) h
  refine .bind (endsAlike_onSink h ?_) fun _ _ _ alike => ?_
  · obtain ⟨h⟩ := h
    exact sinks.sync h
  obtain ⟨h⟩ := id alike
  apply EndsAlike.get_bind
  rw [sinks.size h]
  exact endsAlike_report alike _

/-- **A packer is closed alike.** -/
theorem endsAlike_closeBy (collation : Collation) (alike : Alike related packer other) :
    EndsAlike (Alike related) (closeBy collation packer) (closeBy collation other) := by
  obtain ⟨h⟩ := id alike
  unfold closeBy
  apply EndsAlike.get_bind
  refine .ite Iff.rfl (fun _ => .ok () alike) fun _ => ?_
  have closing : Alike related { packer with closed := true, pending := [] } _ := .intro _ h
  refine .bind (.ok PUnit.unit closing) fun _ packer other h => ?_
  refine .bind (.forM (fun rating _ packer other h => endsAlike_appendRecord sinks h rating) h) ?_
  intro _ packer other alike
  exact endsAlike_finalizeBy sinks collation alike

theorem endsAlike_close (alike : Alike related packer other) :
    EndsAlike (Alike related) (close packer) (close other) :=
  endsAlike_closeBy sinks .asMet alike

/-- A packer is finished alike, but for the sinks that are handed out. -/
theorem endsAlike_finish (alike : Alike related packer other) :
    EndsAlike (Alike related) ((finish >>= fun _ => pure ()) packer)
      ((finish >>= fun _ => pure ()) other) := by
  cases closed : packer.closed with
  | true =>
    have closed' : other.closed = true := alike.closed_eq.trans closed
    rw [bind_of_error (finish_of_closed closed), bind_of_error (finish_of_closed closed')]
    exact .error _ alike
  | false =>
    have finished := finish_of_open closed
    have finished' := finish_of_open (alike.closed_eq.trans closed)
    rcases EndsAlike.cases_iff.1 (endsAlike_close sinks alike) with
      ⟨_, next, next', ok, ok', still⟩ | ⟨reason, next, next', err, err', still⟩
    · rw [ok] at finished
      rw [ok'] at finished'
      rw [bind_of_ok finished, bind_of_ok finished']
      exact .ok () still
    · rw [err] at finished
      rw [err'] at finished'
      rw [bind_of_error finished, bind_of_error finished']
      exact .error reason still

/-- **A packer is given up alike.** -/
theorem endsAlike_drop (alike : Alike related packer other) :
    EndsAlike (Alike related) (drop packer) (drop other) := by
  obtain ⟨h⟩ := id alike
  unfold drop dropBy
  apply EndsAlike.get_bind
  refine .ite Iff.rfl (fun _ => ?_) fun _ => .ok () alike
  exact .tryCatch (endsAlike_close sinks alike) fun error _ _ alike => endsAlike_report alike _

/-! ## Runs -/

/-- **A step is taken alike.** -/
theorem endsAlike_step (alike : Alike related packer other) (step : Step) :
    EndsAlike (Alike related) (step.run packer) (step.run other) := by
  cases step with
  | write rating => exact endsAlike_write sinks alike rating
  | writeAll ratings =>
    exact .forM (fun rating _ _ _ alike => endsAlike_write sinks alike rating) alike
  | close => exact endsAlike_close sinks alike
  | finish => exact endsAlike_finish sinks alike
  | drop => exact endsAlike_drop sinks alike

theorem acceptedOf_eq_of_alike (alike : Alike related packer other) (ratings : List Rating) :
    acceptedOf ratings packer = acceptedOf ratings other := by
  induction ratings generalizing packer other with
  | nil => rfl
  | cons rating ratings ih =>
    rw [acceptedOf, acceptedOf]
    rcases EndsAlike.cases_iff.1 (endsAlike_write sinks alike rating) with
      ⟨_, next, next', ok, ok', still⟩ | ⟨_, next, next', err, err', -⟩
    · rw [ok, ok']
      exact congrArg (rating :: ·) (ih still)
    · rw [err, err']

theorem accepted_eq_of_alike (alike : Alike related packer other) (step : Step) :
    step.accepted packer = step.accepted other := by
  cases step with
  | write rating => exact acceptedOf_eq_of_alike sinks alike [rating]
  | writeAll ratings => exact acceptedOf_eq_of_alike sinks alike ratings
  | close => rfl
  | finish => rfl
  | drop => rfl

theorem completion_eq_of_alike (alike : Alike related packer other) (step : Step) :
    step.completion packer = step.completion other := by
  have closing := outcome_eq_of_endsAlike (endsAlike_close sinks alike)
  have finishing := outcome_eq_of_endsAlike (endsAlike_finish sinks alike)
  rw [outcome_bind_pure, outcome_bind_pure] at finishing
  cases step with
  | write rating => rfl
  | writeAll ratings => rfl
  | close => exact congrArg some closing
  | finish => exact congrArg some finishing
  | drop => exact congrArg some closing

/-- Runs of packers that are alike, in which the same was accepted and came of completing the
archive. -/
structure Run.Alike (related : σ → τ → Prop) (run : Run σ) (other : Run τ) : Prop where
  packer : Packer.Alike related run.packer other.packer
  accepted_eq : run.accepted = other.accepted
  completion_eq : run.completion = other.completion

theorem Run.Alike.next {run : Run σ} {other : Run τ} (h : run.Alike related other) (step : Step) :
    (run.next step).Alike related (other.next step) where
  packer := (endsAlike_step sinks h.packer step).stateAfter
  accepted_eq := by
    rw [Run.next, Run.next, h.accepted_eq, accepted_eq_of_alike sinks h.packer]
  completion_eq := by
    rw [Run.next, Run.next, h.completion_eq, completion_eq_of_alike sinks h.packer]

/-- **A run is alike** that begins alike. -/
theorem alike_run (alike : Alike related packer other) (steps : List Step) :
    (packer.run steps).Alike related (other.run steps) := by
  induction steps using List.reverseRecOn with
  | nil => exact ⟨alike, rfl, rfl⟩
  | append_singleton steps step ih =>
    rw [run_append, run_append]
    exact ih.next sinks step

end Packer

/-! ## Files and buffers in memory -/

namespace FileSink

/-- A file that holds what a buffer in memory holds, and that is not too short for a header. -/
structure MirrorsHeaded (path : String) (file : FileSink) (memory : MemorySink) : Prop where
  mirrors : Mirrors path file memory
  headed : headerSize ≤ memory.content.length

variable {path : String} {file : FileSink} {memory : MemorySink}

theorem patch_header (h : MirrorsHeaded path file memory) {bytes : Bytes}
    (length : bytes.length = headerSize) :
    EndsAlike (MirrorsHeaded path) (Sink.patch 0 bytes file) (Sink.patch 0 bytes memory) := by
  have within : 0 + bytes.length ≤ memory.content.length := by
    rw [length, Nat.zero_add]
    exact h.headed
  have stop : ((0 : UInt64).toNat + bytes.length) % UInt64.size = headerSize := by
    rw [length]
    rfl
  have size : ¬ file.size < headerSize := by
    rw [h.mirrors.size_eq]
    exact Nat.not_lt.2 h.headed
  have onFile : patch 0 bytes file = .ok () (((file.seek 0).write bytes).seek file.size) := by
    simp only [patch, stop]
    rw [if_neg size, if_neg (by decide)]
    rfl
  have inMemory : MemorySink.patch 0 bytes memory =
      .ok () ⟨overwrite memory.content 0 bytes⟩ := by
    simp only [MemorySink.patch, stop]
    rw [if_neg (Nat.not_lt.2 h.headed), if_neg (by decide)]
    rfl
  show EndsAlike _ (patch 0 bytes file) (MemorySink.patch 0 bytes memory)
  rw [onFile, inMemory]
  refine .ok () ⟨h.mirrors.patched within, ?_⟩
  rw [length_overwrite within]
  exact h.headed

/-- What a packer does to a file it does to a buffer in memory. -/
theorem sinksAlike (path : String) : SinksAlike (MirrorsHeaded path) where
  size h := h.mirrors.size_eq
  append bytes h := by
    refine .ok bytes.length ⟨h.mirrors.append bytes, ?_⟩
    exact Nat.le_trans h.headed (List.length_append ▸ Nat.le_add_right _ _)
  patch length h := patch_header h length
  sync h := .ok () ⟨h.mirrors.flush, h.headed⟩

end FileSink

namespace Packer

variable {packer : Packer FileSink} {memory : Packer MemorySink} {format : Format}

theorem alike_new (path : String) (format : Format) :
    ∃ packer memory, new (FileSink.create path) format = .ok packer ∧
      new (⟨[]⟩ : MemorySink) format = .ok memory ∧
      Alike (FileSink.MirrorsHeaded path) packer memory := by
  have mirrors : FileSink.MirrorsHeaded path
      ((SinkCall.append blankHeader).after (FileSink.create path))
      ((SinkCall.append blankHeader).after (MemorySink.mk [])) :=
    ⟨(FileSink.mirrors_create path).append blankHeader, Nat.le_refl _⟩
  exact ⟨⟨_, format, 0, [], [], [], false, false, []⟩, _, rfl, rfl, .intro _ mirrors⟩

/-- **A packer on a file** does in any run what one in memory does: it accepts the same, comes to
the same end, reports the same, and leaves the same bytes. -/
theorem run_on_file {path : String} (fresh : new (FileSink.create path) format = .ok packer)
    (inMemory : new (⟨[]⟩ : MemorySink) format = .ok memory) (steps : List Step) :
    (packer.run steps).accepted = (memory.run steps).accepted ∧
      (packer.run steps).completion = (memory.run steps).completion ∧
      (packer.run steps).packer.journal = (memory.run steps).packer.journal ∧
      (packer.run steps).packer.sink.released = (memory.run steps).packer.sink.content := by
  obtain ⟨packer', memory', ok, ok', alike⟩ := alike_new path format
  cases ok.symm.trans fresh
  cases ok'.symm.trans inMemory
  obtain ⟨still, accepted, completion⟩ := alike_run (FileSink.sinksAlike path) alike steps
  refine ⟨accepted, completion, ?_⟩
  generalize (packer.run steps).packer = last at still ⊢
  generalize (memory.run steps).packer = last' at still ⊢
  obtain ⟨mirrors⟩ := still
  exact ⟨rfl, mirrors.mirrors.released_eq⟩

end Packer

end RatingArchive
