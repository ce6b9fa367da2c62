import RatingArchive.Packer
import RatingArchive.Proofs.Sink
/-!
# Specifications of what a packer does

`Packer.Ensures` says what holds after an operation, and what holds if it has failed. It is taken
through an operation step by step (`Ensures.bind`), down to the calls of the sink: a call of a sink
that fails cleanly takes effect as a whole, or it fails without effect, and then the sink is not
reliable (`ensures_append`, `ensures_patch`, `ensures_sync`).
-/

namespace RatingArchive

open TransactionalSink (content)

namespace Packer

variable {σ α β : Type}

/-! ## Specifications of operations -/

/-- After an operation `done` holds of its answer, or `failed` if it fails. -/
def Ensures (action : Action σ α) (packer : Packer σ) (done : α → Packer σ → Prop)
    (failed : Packer σ → Prop) : Prop :=
  match action packer with
  | .ok value next => done value next
  | .error _ next => failed next

namespace Ensures

variable {action : Action σ α} {packer next : Packer σ} {done done' : α → Packer σ → Prop}
  {failed failed' : Packer σ → Prop} {value : α} {reason : Error}

theorem of_cases (ok : ∀ value next, action packer = .ok value next → done value next)
    (error : ∀ error next, action packer = .error error next → failed next) :
    Ensures action packer done failed := by
  unfold Ensures
  cases found : action packer with
  | ok value next => exact ok value next found
  | error failure next => exact error failure next found

theorem ok (h : Ensures action packer done failed) (found : action packer = .ok value next) :
    done value next := by
  unfold Ensures at h
  rwa [found] at h

theorem error (h : Ensures action packer done failed)
    (found : action packer = .error reason next) : failed next := by
  unfold Ensures at h
  rwa [found] at h

theorem of_eq_error (found : action packer = .error reason next) (holds : failed next) :
    Ensures action packer done failed := by
  unfold Ensures
  rwa [found]

theorem of_eq {action' : Action σ α} {packer' : Packer σ} (same : action packer = action' packer') :
    Ensures action packer done failed ↔ Ensures action' packer' done failed := by
  rw [Ensures, Ensures, same]

theorem mono (h : Ensures action packer done failed)
    (done_imp : ∀ value next, done value next → done' value next)
    (failed_imp : ∀ next, failed next → failed' next) : Ensures action packer done' failed' :=
  of_cases (fun value next found => done_imp value next (h.ok found))
    fun _ next found => failed_imp next (h.error found)

protected theorem and (h : Ensures action packer done failed)
    (h' : Ensures action packer done' failed') :
    Ensures action packer (fun value next => done value next ∧ done' value next)
      (fun next => failed next ∧ failed' next) :=
  of_cases (fun _ _ found => ⟨h.ok found, h'.ok found⟩)
    fun _ _ found => ⟨h.error found, h'.error found⟩

/-- What holds in either case holds of the packer that is left. -/
protected theorem stateAfter {P : Packer σ → Prop} (h : Ensures action packer done failed)
    (ok : ∀ value next, done value next → P next) (error : ∀ next, failed next → P next) :
    P (stateAfter action packer) := by
  unfold stateAfter
  cases found : action packer with
  | ok value next => exact ok value next (h.ok found)
  | error reason next => exact error next (h.error found)

/-- One operation after the other. -/
theorem bind {f : α → Action σ β} {done : β → Packer σ → Prop}
    (h : Ensures action packer (fun value next => Ensures (f value) next done failed) failed) :
    Ensures (action >>= f) packer done failed := by
  cases found : action packer with
  | ok value next =>
    have later := h.ok found
    unfold Ensures at later ⊢
    rwa [bind_of_ok found]
  | error error next => exact of_eq_error (bind_of_error found) (h.error found)

/-- An operation whose outcomes are known, and another that follows if it succeeds. -/
theorem andThen {f : α → Action σ β} {done : β → Packer σ → Prop}
    {between : α → Packer σ → Prop} {stopped : Packer σ → Prop}
    (first : Ensures action packer between stopped) (stop : ∀ next, stopped next → failed next)
    (second : ∀ value next, between value next → Ensures (f value) next done failed) :
    Ensures (action >>= f) packer done failed := by
  apply bind
  exact first.mono second stop

protected theorem pure (h : done value packer) : Ensures (pure value) packer done failed := h

protected theorem throw (h : failed packer) : Ensures (throw reason) packer done failed := h

theorem get_bind {f : Packer σ → Action σ β} {done : β → Packer σ → Prop}
    (h : Ensures (f packer) packer done failed) : Ensures (get >>= f) packer done failed := h

protected theorem set {done : PUnit → Packer σ → Prop} (h : done ⟨⟩ next) :
    Ensures (set next) packer done failed := h

protected theorem modify {f : Packer σ → Packer σ} {done : Unit → Packer σ → Prop}
    (h : done () (f packer)) : Ensures (modify f) packer done failed := h

theorem require_bind {x : Except Error α} {f : α → Action σ β} {done : β → Packer σ → Prop}
    (found : x = .ok value) (h : Ensures (f value) packer done failed) :
    Ensures (require x >>= f) packer done failed := by
  subst found
  exact h

end Ensures

/-! ## Operations of the sink -/

theorem ensures_onSink {operation : EStateM IoError σ α} {packer : Packer σ}
    {done : α → Packer σ → Prop} {failed : Packer σ → Prop}
    (ok : ∀ value sink, operation packer.sink = .ok value sink → done value { packer with sink })
    (error : ∀ failure sink, operation packer.sink = .error failure sink →
      failed { packer with sink }) :
    Ensures (onSink operation) packer done failed := by
  unfold Ensures onSink
  cases found : operation packer.sink with
  | ok value sink => exact ok value sink found
  | error failure sink => exact error failure sink found

variable [TransactionalSink σ]

/-- Appending adds the bytes to the content, or fails and adds nothing. -/
theorem ensures_append {bytes : Bytes} {packer : Packer σ} {done : Nat → Packer σ → Prop}
    {failed : Packer σ → Prop}
    (ok : ∀ n sink, (SinkCall.append bytes).after packer.sink = sink →
      content sink = content packer.sink ++ bytes → done n { packer with sink })
    (error : ∀ sink, (SinkCall.append bytes).after packer.sink = sink →
      content sink = content packer.sink → ¬Reliable σ → failed { packer with sink }) :
    Ensures (onSink (Sink.append bytes)) packer done failed := by
  apply ensures_onSink
  · intro n sink found
    exact ok n sink (stateAfter_of_ok found) (TransactionalSink.append_ok found)
  · intro failure sink found
    apply error sink (stateAfter_of_error found) (TransactionalSink.append_error found)
    intro reliable
    exact reliable.append bytes packer.sink failure sink found

/-- A patch within the content replaces bytes, or fails and replaces none. -/
theorem ensures_patch {offset : UInt64} {bytes : Bytes} {packer : Packer σ}
    {done : Unit → Packer σ → Prop} {failed : Packer σ → Prop}
    (inside : offset.toNat + bytes.length ≤ (content packer.sink).length)
    (small : offset.toNat + bytes.length < UInt64.size)
    (ok : ∀ sink, (SinkCall.patch offset bytes).after packer.sink = sink →
      content sink = overwrite (content packer.sink) offset.toNat bytes →
        done () { packer with sink })
    (error : ∀ sink, (SinkCall.patch offset bytes).after packer.sink = sink →
      content sink = content packer.sink → ¬Reliable σ → failed { packer with sink }) :
    Ensures (onSink (Sink.patch offset bytes)) packer done failed := by
  apply ensures_onSink
  · intro _ sink found
    exact ok sink (stateAfter_of_ok found) (TransactionalSink.patch_ok found inside)
  · intro failure sink found
    apply error sink (stateAfter_of_error found) (TransactionalSink.patch_error found)
    intro reliable
    exact reliable.patch offset bytes packer.sink failure sink inside small found

/-- Making the content durable leaves it as it is. -/
theorem ensures_sync {packer : Packer σ} {done : Unit → Packer σ → Prop}
    {failed : Packer σ → Prop}
    (ok : ∀ sink, SinkCall.sync.after packer.sink = sink → content sink = content packer.sink →
      done () { packer with sink })
    (error : ∀ sink, SinkCall.sync.after packer.sink = sink →
      content sink = content packer.sink → ¬Reliable σ → failed { packer with sink }) :
    Ensures (onSink Sink.sync) packer done failed := by
  apply ensures_onSink
  · intro _ sink found
    exact ok sink (stateAfter_of_ok found) (TransactionalSink.sync_ok found)
  · intro failure sink found
    apply error sink (stateAfter_of_error found) (TransactionalSink.sync_error found)
    intro reliable
    exact reliable.sync packer.sink failure sink found

end Packer

end RatingArchive
