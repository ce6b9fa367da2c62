import RatingArchive.Proofs.Actions
import RatingArchive.Sink.Memory
/-!
# Sinks that fail cleanly

An operation of a `TransactionalSink` takes effect on its content as a whole, or fails and leaves it
as it was. Nothing else is known of such a sink, so that it may fail at any call.

`Passes` says that a sink became another by calls after each of which its content was one that is
allowed. A `Watched` sink keeps every content it had (`Passes.moments`), and otherwise behaves like
the sink that is watched. A `Reliable` sink does not fail; a buffer in memory is one.
-/

namespace RatingArchive

/-- Sinks with a content, of which an operation that fails changes nothing. -/
class TransactionalSink (σ : Type) extends Sink σ where
  /-- All bytes written so far. -/
  content : σ → Bytes
  size_eq : ∀ sink, size sink = (content sink).length
  append_ok : ∀ {bytes sink n next}, append bytes sink = .ok n next →
    content next = content sink ++ bytes
  append_error : ∀ {bytes sink failure next}, append bytes sink = .error failure next →
    content next = content sink
  patch_ok : ∀ {offset bytes sink next}, patch offset bytes sink = .ok () next →
    offset.toNat + bytes.length ≤ (content sink).length →
      content next = overwrite (content sink) offset.toNat bytes
  patch_error : ∀ {offset bytes sink failure next}, patch offset bytes sink = .error failure next →
    content next = content sink
  sync_ok : ∀ {sink next}, sync sink = .ok () next → content next = content sink
  sync_error : ∀ {sink failure next}, sync sink = .error failure next → content next = content sink

/-- The operations of a sink that writes and makes durable what it has written. -/
inductive SinkCall where
  | append (bytes : Bytes)
  | patch (offset : UInt64) (bytes : Bytes)
  | flush
  | sync
  deriving DecidableEq, Repr

/-- The sink after a call. -/
def SinkCall.after {σ : Type} [Sink σ] : SinkCall → σ → σ
  | append bytes => stateAfter (Sink.append bytes)
  | patch offset bytes => stateAfter (Sink.patch offset bytes)
  | flush => stateAfter Sink.flush
  | sync => stateAfter Sink.sync

open TransactionalSink (content)

/-- A sink becomes another by calls. After each call, its content is one that is allowed. -/
inductive Passes {σ : Type} [TransactionalSink σ] (allowed : SinkCall → Bytes → Prop) :
    σ → σ → Prop where
  | refl (sink : σ) : Passes allowed sink sink
  | step {first last : σ} (call : SinkCall) (before : Passes allowed first last)
      (now : allowed call (content (call.after last))) : Passes allowed first (call.after last)

namespace Passes

variable {σ : Type} [TransactionalSink σ] {allowed permitted : SinkCall → Bytes → Prop}
  {first last : σ}

theorem mono (imp : ∀ call bytes, allowed call bytes → permitted call bytes)
    (h : Passes allowed first last) : Passes permitted first last := by
  induction h with
  | refl => exact .refl _
  | step call _ now ih => exact ih.step call (imp call _ now)

/-- The last content is the first one, or one that is allowed. -/
theorem last_content (h : Passes allowed first last) :
    content last = content first ∨ ∃ call, allowed call (content last) := by
  cases h with
  | refl => exact .inl rfl
  | step call _ now => exact .inr ⟨call, now⟩

end Passes

/-! ## Watched sinks -/

/-- What a sink held after a call. -/
structure SinkMoment where
  call : SinkCall
  content : Bytes
  deriving DecidableEq, Repr

/-- A sink with a record of what it held after every call. -/
structure Watched (σ : Type) where
  sink : σ
  /-- The moments behind, oldest first. -/
  moments : List SinkMoment

namespace Watched

variable {σ : Type} [TransactionalSink σ]

/-- A sink of which nothing was seen yet. -/
def start (sink : σ) : Watched σ := ⟨sink, []⟩

/-- The record with one more call. -/
def note (watched : Watched σ) (call : SinkCall) (sink : σ) : Watched σ :=
  ⟨sink, watched.moments ++ [⟨call, content sink⟩]⟩

/-- Does a call, and takes it down. -/
def watch {α : Type} (call : SinkCall) (operation : EStateM IoError σ α) :
    EStateM IoError (Watched σ) α := fun watched =>
  match operation watched.sink with
  | .ok value sink => .ok value (watched.note call sink)
  | .error failure sink => .error failure (watched.note call sink)

instance : Sink (Watched σ) where
  size watched := Sink.size watched.sink
  append bytes := watch (.append bytes) (Sink.append bytes)
  patch offset bytes := watch (.patch offset bytes) (Sink.patch offset bytes)
  flush := watch .flush Sink.flush
  sync := watch .sync Sink.sync

theorem watch_eq_ok {α : Type} {call : SinkCall} {operation : EStateM IoError σ α}
    {watched next : Watched σ} {value : α} (h : watch call operation watched = .ok value next) :
    operation watched.sink = .ok value next.sink := by
  unfold watch at h
  split at h
  · next found =>
    cases h
    exact found
  · cases h

theorem watch_eq_error {α : Type} {call : SinkCall} {operation : EStateM IoError σ α}
    {watched next : Watched σ} {failure : IoError}
    (h : watch call operation watched = .error failure next) :
    operation watched.sink = .error failure next.sink := by
  unfold watch at h
  split at h
  · cases h
  · next found =>
    cases h
    exact found

/-- A sink that is watched still fails cleanly. -/
instance : TransactionalSink (Watched σ) where
  content watched := content watched.sink
  size_eq watched := TransactionalSink.size_eq watched.sink
  append_ok h := TransactionalSink.append_ok (watch_eq_ok h)
  append_error h := TransactionalSink.append_error (watch_eq_error h)
  patch_ok h := TransactionalSink.patch_ok (watch_eq_ok h)
  patch_error h := TransactionalSink.patch_error (watch_eq_error h)
  sync_ok h := TransactionalSink.sync_ok (watch_eq_ok h)
  sync_error h := TransactionalSink.sync_error (watch_eq_error h)

theorem moments_stateAfter_watch {α : Type} (call : SinkCall) (operation : EStateM IoError σ α)
    (watched : Watched σ) :
    (stateAfter (watch call operation) watched).moments =
      watched.moments ++ [⟨call, content (stateAfter (watch call operation) watched)⟩] := by
  unfold stateAfter watch
  cases operation watched.sink <;> rfl

theorem moments_after (call : SinkCall) (watched : Watched σ) :
    (call.after watched).moments =
      watched.moments ++ [⟨call, content (call.after watched)⟩] := by
  cases call <;> exact moments_stateAfter_watch _ _ watched

end Watched

/-- **A watched sink has seen what is allowed**, since the calls that are looked at. -/
theorem Passes.moments {σ : Type} [TransactionalSink σ] {allowed : SinkCall → Bytes → Prop}
    {first last : Watched σ} (h : Passes allowed first last)
    (before : ∀ moment ∈ first.moments, allowed moment.call moment.content) :
    ∀ moment ∈ last.moments, allowed moment.call moment.content := by
  induction h with
  | refl => exact before
  | step call _ now ih =>
    intro moment mem
    rw [Watched.moments_after] at mem
    rcases List.mem_append.1 mem with old | new
    · exact ih moment old
    · rw [List.mem_singleton.1 new]
      exact now

/-! ## Reliable sinks -/

/-- Sinks that do not fail. A patch has to lie within the content and the words of the machine. -/
structure Reliable (σ : Type) [TransactionalSink σ] : Prop where
  append : ∀ bytes (sink : σ) failure next, Sink.append bytes sink ≠ .error failure next
  patch : ∀ offset bytes (sink : σ) failure next,
    offset.toNat + bytes.length ≤ (content sink).length →
      offset.toNat + bytes.length < UInt64.size → Sink.patch offset bytes sink ≠ .error failure next
  sync : ∀ (sink : σ) failure next, Sink.sync sink ≠ .error failure next

namespace MemorySink

theorem patch_cases (offset : UInt64) (bytes : Bytes) (sink : MemorySink) :
    patch offset bytes sink = .ok () ⟨overwrite sink.content offset.toNat bytes⟩ ∨
      ∃ failure, patch offset bytes sink = .error failure sink := by
  simp only [patch]
  split
  · exact .inr ⟨_, rfl⟩
  · split
    · exact .inr ⟨_, rfl⟩
    · exact .inl rfl

instance : TransactionalSink MemorySink where
  content := MemorySink.content
  size_eq _ := rfl
  append_ok h := by cases h; rfl
  append_error h := by cases h
  patch_ok {offset bytes sink next} h _ := by
    rcases patch_cases offset bytes sink with done | ⟨failure, failed⟩
    · cases h.symm.trans done
      rfl
    · cases h.symm.trans failed
  patch_error {offset bytes sink failure next} h := by
    rcases patch_cases offset bytes sink with done | ⟨failure, failed⟩
    · cases h.symm.trans done
    · cases h.symm.trans failed
      rfl
  sync_ok h := by cases h; rfl
  sync_error h := by cases h

/-- A buffer in memory does not fail. -/
theorem reliable : Reliable MemorySink where
  append bytes sink failure next := nofun
  patch offset bytes sink failure next inside small := by
    have stop : (offset.toNat + bytes.length) % UInt64.size = offset.toNat + bytes.length :=
      Nat.mod_eq_of_lt small
    have inside : offset.toNat + bytes.length ≤ sink.content.length := inside
    intro failed
    have failed : patch offset bytes sink = .error failure next := failed
    simp only [patch, stop] at failed
    rw [if_neg (Nat.not_lt.2 inside), if_neg (by omega)] at failed
    cases failed
  sync sink failure next := nofun

end MemorySink

namespace BoundedSink

theorem onBuffer_eq_ok {α : Type} {operation : EStateM IoError MemorySink α}
    {sink next : BoundedSink} {value : α} (h : onBuffer operation sink = .ok value next) :
    operation sink.buffer = .ok value next.buffer := by
  unfold onBuffer at h
  split at h
  · next found =>
    cases h
    exact found
  · cases h

theorem onBuffer_eq_error {α : Type} {operation : EStateM IoError MemorySink α}
    {sink next : BoundedSink} {failure : IoError}
    (h : onBuffer operation sink = .error failure next) :
    operation sink.buffer = .error failure next.buffer := by
  unfold onBuffer at h
  split at h
  · cases h
  · next found =>
    cases h
    exact found

/-- A buffer of limited size fails cleanly, whatever it refuses. -/
instance : TransactionalSink BoundedSink where
  content sink := sink.buffer.content
  size_eq _ := rfl
  append_ok {bytes sink n next} h := by
    have h : append bytes sink = .ok n next := h
    simp only [append] at h
    split at h
    · cases h
    · exact TransactionalSink.append_ok (onBuffer_eq_ok h)
  append_error {bytes sink failure next} h := by
    have h : append bytes sink = .error failure next := h
    simp only [append] at h
    split at h
    · cases h
      rfl
    · exact TransactionalSink.append_error (onBuffer_eq_error h)
  patch_ok {offset bytes sink next} h inside := by
    have h : patch offset bytes sink = .ok () next := h
    unfold patch at h
    split at h
    · cases h
    · exact TransactionalSink.patch_ok (onBuffer_eq_ok h) inside
  patch_error {offset bytes sink failure next} h := by
    have h : patch offset bytes sink = .error failure next := h
    unfold patch at h
    split at h
    · cases h
      rfl
    · exact TransactionalSink.patch_error (onBuffer_eq_error h)
  sync_ok {sink next} h := by
    have h : sync sink = .ok () next := h
    unfold sync at h
    split at h
    · cases h
    · cases h
      rfl
  sync_error {sink failure next} h := by
    have h : sync sink = .error failure next := h
    unfold sync at h
    split at h
    · cases h
      rfl
    · cases h

end BoundedSink

end RatingArchive
