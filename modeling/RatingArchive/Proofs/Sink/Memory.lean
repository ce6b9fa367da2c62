import RatingArchive.Proofs.Sink
/-!
# What a buffer in memory holds

A patch takes effect if it lies within the buffer, and is refused if it does not
(`MemorySink.AnswersPatch`). The end of a patch is computed in 64 bits. If it does not fit, and what
is left of it lies within the buffer, the refusal is one that the program does not survive.

`writtenBy` says without a sink what calls make of a content: everything that is appended, and the
patches that lie within what is there by then, one over the other. After any calls a buffer holds
just that (`MemorySink.content_afterCalls`).
-/

namespace RatingArchive

/-! ## Calls -/

/-- The bytes that a call writes at the end. -/
def SinkCall.appended : SinkCall → Bytes
  | append bytes => bytes
  | patch .. => []
  | flush => []
  | sync => []

/-- The bytes that calls write at the end, one after the other. -/
def appendedBy (calls : List SinkCall) : Bytes := calls.flatMap SinkCall.appended

@[simp] theorem appendedBy_cons (call : SinkCall) (calls : List SinkCall) :
    appendedBy (call :: calls) = call.appended ++ appendedBy calls := List.flatMap_cons

@[simp] theorem appendedBy_append (calls later : List SinkCall) :
    appendedBy (calls ++ later) = appendedBy calls ++ appendedBy later := List.flatMap_append

/-- The sink after calls, one after the other. -/
def afterCalls {σ : Type} [Sink σ] (calls : List SinkCall) (sink : σ) : σ :=
  calls.foldl (fun sink call => call.after sink) sink

theorem afterCalls_cons {σ : Type} [Sink σ] (call : SinkCall) (calls : List SinkCall) (sink : σ) :
    afterCalls (call :: calls) sink = afterCalls calls (call.after sink) := rfl

/-! ## What calls write -/

/-- Bytes that are written over others. -/
structure Patch where
  start : Nat
  bytes : Bytes
  deriving DecidableEq, Repr

/-- A content with a patch. -/
def Patch.apply (content : Bytes) (patch : Patch) : Bytes :=
  overwrite content patch.start patch.bytes

/-- The patches among calls that lie within what is there when they are made, after `size` bytes
and all that was appended before. -/
def patchesWithin : (size : Nat) → List SinkCall → List Patch
  | _, [] => []
  | size, .append bytes :: calls => patchesWithin (size + bytes.length) calls
  | size, .patch offset bytes :: calls =>
    if offset.toNat + bytes.length ≤ size then
      ⟨offset.toNat, bytes⟩ :: patchesWithin size calls
    else patchesWithin size calls
  | size, .flush :: calls => patchesWithin size calls
  | size, .sync :: calls => patchesWithin size calls

/-- What calls make of a content: it is followed by all that they append, and then patched. -/
def writtenBy (content : Bytes) (calls : List SinkCall) : Bytes :=
  (patchesWithin content.length calls).foldl Patch.apply (content ++ appendedBy calls)

/-- Calls that a sink of `size` bytes can take without leaving the addresses of the machine. -/
structure Addressable (size : Nat) (calls : List SinkCall) : Prop where
  total_lt : size + (appendedBy calls).length < UInt64.size
  patch_lt : ∀ offset bytes, .patch offset bytes ∈ calls → bytes.length < UInt64.size

theorem Addressable.of_cons {size : Nat} {call : SinkCall} {calls : List SinkCall}
    (h : Addressable size (call :: calls)) : Addressable (size + call.appended.length) calls where
  total_lt := by
    have := h.total_lt
    rw [appendedBy_cons, List.length_append] at this
    omega
  patch_lt offset bytes mem := h.patch_lt offset bytes (List.mem_cons_of_mem _ mem)

namespace MemorySink

variable {sink : MemorySink} {offset : UInt64} {bytes content : Bytes} {calls : List SinkCall}

/-- How a buffer answers a patch. -/
structure AnswersPatch (sink : MemorySink) (offset : UInt64) (bytes : Bytes) : Prop where
  within : offset.toNat + bytes.length ≤ sink.content.length →
    patch offset bytes sink = .ok () ⟨sink.content.take offset.toNat ++ bytes ++
      sink.content.drop (offset.toNat + bytes.length)⟩
  past : sink.content.length < offset.toNat + bytes.length →
    ∃ failure, patch offset bytes sink = .error failure sink ∧
      failure.kind =
        if UInt64.size ≤ offset.toNat + bytes.length ∧
          offset.toNat + bytes.length - UInt64.size ≤ sink.content.length then .fatal
        else .invalidInput

theorem answersPatch (room : sink.content.length < UInt64.size)
    (small : bytes.length < UInt64.size) : sink.AnswersPatch offset bytes := by
  have first : offset.toNat < UInt64.size := offset.toNat_lt
  constructor
  · intro within
    have stop : (offset.toNat + bytes.length) % UInt64.size = offset.toNat + bytes.length :=
      Nat.mod_eq_of_lt (by omega)
    simp only [patch, stop]
    rw [if_neg (by omega), if_neg (by omega)]
    rfl
  · intro past
    by_cases fits : offset.toNat + bytes.length < UInt64.size
    · have stop : (offset.toNat + bytes.length) % UInt64.size = offset.toNat + bytes.length :=
        Nat.mod_eq_of_lt fits
      refine ⟨.patchPastEnd offset.toNat (offset.toNat + bytes.length) sink.content.length, ?_, ?_⟩
      · simp only [patch, stop]
        rw [if_pos past]
      · rw [if_neg (by omega)]
        rfl
    · -- what is left of the end lies before the start
      have stop : (offset.toNat + bytes.length) % UInt64.size =
          offset.toNat + bytes.length - UInt64.size := by
        rw [Nat.mod_eq_sub_mod (Nat.not_lt.1 fits), Nat.mod_eq_of_lt (by omega)]
      simp only [patch, stop]
      by_cases inside : offset.toNat + bytes.length - UInt64.size ≤ sink.content.length
      · rw [if_neg (Nat.not_lt.2 inside), if_pos (by omega), if_pos ⟨Nat.not_lt.1 fits, inside⟩]
        exact ⟨_, rfl, rfl⟩
      · rw [if_pos (Nat.not_le.1 inside), if_neg fun both => inside both.2]
        exact ⟨_, rfl, rfl⟩

/-- What a buffer holds after a patch. -/
theorem after_patch (room : sink.content.length < UInt64.size)
    (small : bytes.length < UInt64.size) :
    (SinkCall.patch offset bytes).after sink =
      if offset.toNat + bytes.length ≤ sink.content.length then
        ⟨overwrite sink.content offset.toNat bytes⟩
      else sink := by
  have answers : sink.AnswersPatch offset bytes := answersPatch room small
  by_cases within : offset.toNat + bytes.length ≤ sink.content.length
  · rw [if_pos within]
    exact stateAfter_of_ok (answers.within within)
  · obtain ⟨failure, failed, -⟩ := answers.past (Nat.not_le.1 within)
    rw [if_neg within]
    exact stateAfter_of_error failed

/-- **After any calls** a buffer holds what they write, and no call but those that append makes it
longer. -/
theorem content_afterCalls (h : Addressable content.length calls) :
    (afterCalls calls (mk content)).content = writtenBy content calls ∧
      (afterCalls calls (mk content)).content.length =
        content.length + (appendedBy calls).length := by
  induction calls generalizing content with
  | nil => simp [afterCalls, writtenBy, patchesWithin, appendedBy]
  | cons call calls ih =>
    have later := h.of_cons
    have room : content.length < UInt64.size := by
      have := h.total_lt
      omega
    rw [afterCalls_cons]
    cases call with
    | append bytes =>
      rw [SinkCall.appended, ← List.length_append] at later
      obtain ⟨held, length⟩ := ih later
      refine ⟨held.trans ?_, length.trans ?_⟩
      · simp only [writtenBy, patchesWithin, appendedBy_cons, SinkCall.appended,
          List.length_append, List.append_assoc]
      · simp only [appendedBy_cons, SinkCall.appended, List.length_append, Nat.add_assoc]
    | patch offset bytes =>
      have small := h.patch_lt offset bytes (List.mem_cons_self ..)
      rw [after_patch room small]
      by_cases within : offset.toNat + bytes.length ≤ content.length
      · have length := length_overwrite within
        obtain ⟨held, total⟩ := @ih (overwrite content offset.toNat bytes) (by rwa [length])
        rw [if_pos within]
        refine ⟨held.trans ?_, by rw [total, length]; rfl⟩
        -- a patch within the content can wait until all is appended
        rw [writtenBy, writtenBy, patchesWithin, if_pos within, List.foldl_cons, length,
          Patch.apply, appendedBy_cons]
        simp only [SinkCall.appended, List.nil_append, overwrite_append within]
      · rw [if_neg within]
        obtain ⟨held, total⟩ := ih later
        refine ⟨held.trans ?_, total⟩
        rw [writtenBy, writtenBy, patchesWithin, if_neg within]
        rfl
    | flush => exact ih later
    | sync => exact ih later

/-- **A buffer holds what was written to it**, whatever the calls, and answers the next patch by
whether it lies within that. -/
theorem holds_written (h : Addressable content.length calls) :
    (afterCalls calls (mk content)).content = writtenBy content calls ∧
      Sink.size (afterCalls calls (mk content)) = content.length + (appendedBy calls).length ∧
      ∀ offset bytes, bytes.length < UInt64.size →
        (afterCalls calls (mk content)).AnswersPatch offset bytes := by
  obtain ⟨held, length⟩ := content_afterCalls h
  refine ⟨held, length, ?_⟩
  intro offset bytes small
  refine answersPatch ?_ small
  rw [length]
  exact h.total_lt

/-- Two patches of a buffer, the second of them past its end. The next one is at the last address
of the machine, and ends behind it. -/
theorem holds_written_five :
    (afterCalls [.append [1, 2, 3, 4], .patch 1 [7, 8], .patch 3 [9, 9], .append [5]]
        (mk [])).content = [1, 7, 8, 4, 5] ∧
      ∃ failure, patch 0xFFFFFFFFFFFFFFFF [6] (mk [1, 7, 8, 4, 5]) =
          .error failure (mk [1, 7, 8, 4, 5]) ∧
        failure.kind = .fatal := by
  have fits : Addressable ([] : Bytes).length
      [.append [1, 2, 3, 4], .patch 1 [7, 8], .patch 3 [9, 9], .append [5]] := by
    refine ⟨by decide, ?_⟩
    intro offset bytes mem
    simp only [List.mem_cons, SinkCall.patch.injEq, reduceCtorEq, List.not_mem_nil, false_or,
      or_false] at mem
    rcases mem with ⟨-, rfl⟩ | ⟨-, rfl⟩ <;> decide
  obtain ⟨held, -, answers⟩ := holds_written fits
  have written : writtenBy []
      [.append [1, 2, 3, 4], .patch 1 [7, 8], .patch 3 [9, 9], .append [5]] = [1, 7, 8, 4, 5] := rfl
  obtain ⟨failure, failed, kind⟩ :=
    (answers 0xFFFFFFFFFFFFFFFF [6] (by decide)).past (by rw [held, written]; decide)
  exact ⟨held.trans written, failure, failed, kind⟩

/-- A patch that ends behind the last address of the machine is not always reported as one past the
end of the buffer. -/
theorem not_reported_beyond :
    ¬∀ (sink : MemorySink) (offset : UInt64) (bytes : Bytes),
      sink.content.length < offset.toNat + bytes.length →
        ∃ failure, patch offset bytes sink = .error failure sink ∧
          failure.kind = .invalidInput := by
  intro reported
  obtain ⟨failure, failed, kind⟩ := reported ⟨[1, 2, 3]⟩ 0xFFFFFFFFFFFFFFFF [6] (by decide)
  have stopped : patch 0xFFFFFFFFFFFFFFFF [6] ⟨[1, 2, 3]⟩ =
      .error (.patchReversed 0xFFFFFFFFFFFFFFFF 0) ⟨[1, 2, 3]⟩ := rfl
  cases failed.symm.trans stopped
  cases kind

end MemorySink

end RatingArchive
