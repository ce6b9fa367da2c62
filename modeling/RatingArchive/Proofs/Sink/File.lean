import Mathlib.Data.List.Induction
import RatingArchive.Proofs.Sink.Memory
import RatingArchive.Sink.File
import RatingArchive.Tool.Volume
/-!
# What a sink in a file holds

The buffer in front of a file does not show: to write by way of it and to empty it afterwards is to
empty it first and to write to the file itself (`FileSink.emptied_write`). So a sink whose buffer is
emptied is at its end, with the content that a buffer in memory has after the same calls
(`FileSink.Mirrors`). Each call keeps it so, and is answered alike by both (`Mirrors.step`), and so
are any calls (`FileSink.mirrors_memory`).
-/

namespace RatingArchive

/-- A call, of whose answer only the success counts. -/
def SinkCall.perform {σ : Type} [Sink σ] : SinkCall → EStateM IoError σ Unit
  | append bytes => do
    let _ ← Sink.append bytes
    return
  | patch offset bytes => Sink.patch offset bytes
  | flush => Sink.flush
  | sync => Sink.sync

theorem afterCalls_append_singleton {σ : Type} [Sink σ] (calls : List SinkCall) (call : SinkCall)
    (sink : σ) : afterCalls (calls ++ [call]) sink = call.after (afterCalls calls sink) := by
  rw [afterCalls, List.foldl_append]
  rfl

namespace FileSink

open Tool (Volume)

variable {sink file : FileSink} {memory : MemorySink} {path : String}

/-! ## The buffer -/

/-- The position is within the file, so that what is written there leaves no gap. -/
def Inside (sink : FileSink) : Prop := sink.position ≤ sink.disk.length

theorem Inside.writeThrough_eq (h : sink.Inside) (bytes : Bytes) :
    sink.writeThrough bytes =
      { sink with
        disk := overwrite sink.disk sink.position bytes
        position := sink.position + bytes.length } := by
  have none : sink.position - sink.disk.length = 0 := Nat.sub_eq_zero_of_le h
  rw [writeThrough, none, List.replicate_zero, List.append_nil]

theorem Inside.writeThrough (h : sink.Inside) (bytes : Bytes) :
    (sink.writeThrough bytes).Inside := by
  have front : (sink.disk.take sink.position).length = sink.position := List.length_take_of_le h
  rw [h.writeThrough_eq, Inside]
  simp only [overwrite, List.length_append, front]
  omega

theorem emptied_of_nil (none : sink.buffer = []) : sink.emptied = sink := by
  rw [emptied, none]
  rfl

@[simp] theorem buffer_emptied (sink : FileSink) : sink.emptied.buffer = [] := by
  unfold emptied
  split
  · next none => exact List.isEmpty_iff.1 none
  · rfl

theorem emptied_withSize (sink : FileSink) (size : Nat) :
    emptied { sink with size } = { sink.emptied with size } := by
  unfold emptied
  split <;> rfl

theorem Inside.emptied_eq (h : sink.Inside) :
    sink.emptied =
      { sink with
        disk := overwrite sink.disk sink.position sink.buffer
        position := sink.position + sink.buffer.length
        buffer := [] } := by
  rw [emptied, h.writeThrough_eq]
  split
  · next none =>
    obtain ⟨path, disk, position, buffer, size⟩ := sink
    cases List.isEmpty_iff.1 none
    simp [overwrite]
  · rfl

theorem Inside.emptied (h : sink.Inside) : sink.emptied.Inside := by
  have written := h.writeThrough sink.buffer
  rw [h.writeThrough_eq] at written
  rw [h.emptied_eq]
  exact written

/-- Bytes that wait in the buffer are written behind those that wait there already. -/
theorem Inside.emptied_buffered (h : sink.Inside) (bytes : Bytes) :
    FileSink.emptied { sink with buffer := sink.buffer ++ bytes } =
      sink.emptied.writeThrough bytes := by
  have waiting : Inside { sink with buffer := sink.buffer ++ bytes } := h
  rw [waiting.emptied_eq, h.emptied.writeThrough_eq, h.emptied_eq]
  simp only [overwrite_overwrite h, List.length_append, Nat.add_assoc]

/-- What a sink has become by the time that it takes a piece that did not fit. If the piece is as
large as the buffer, nothing waits any more. -/
theorem ready_of_full (h : sink.Inside) {bytes : Bytes}
    (full : ¬bytes.length < bufferSize - sink.buffer.length) :
    ∃ ready : FileSink,
      (if bufferSize - sink.buffer.length < bytes.length then sink.emptied else sink) = ready ∧
        ready.Inside ∧ ready.emptied = sink.emptied ∧
        (bufferSize ≤ bytes.length → ready.buffer = []) := by
  split
  · exact ⟨_, rfl, h.emptied, emptied_of_nil (buffer_emptied sink), fun _ => buffer_emptied sink⟩
  · refine ⟨_, rfl, h, rfl, ?_⟩
    intro large
    have : 0 < bufferSize := by decide
    exact List.eq_nil_of_length_eq_zero (by omega)

/-- **The buffer does not show.** -/
theorem emptied_write (h : sink.Inside) (bytes : Bytes) :
    (sink.write bytes).emptied = sink.emptied.writeThrough bytes := by
  unfold write
  simp only
  split
  · exact h.emptied_buffered bytes
  · next full =>
    obtain ⟨ready, found, inside, same, free⟩ := ready_of_full h full
    rw [found, ← same]
    split
    · next large =>
      have none := free large
      rw [emptied_of_nil none, emptied_of_nil]
      exact none
    · exact inside.emptied_buffered bytes

theorem Inside.write (h : sink.Inside) (bytes : Bytes) : (sink.write bytes).Inside := by
  unfold FileSink.write
  simp only
  split
  · exact h
  · next full =>
    obtain ⟨ready, found, inside, -, -⟩ := ready_of_full h full
    rw [found]
    split
    · exact inside.writeThrough bytes
    · exact inside

/-! ## Files and buffers in memory -/

/-- A sink with all its content in the file, at the end. -/
def settled (path : String) (content : Bytes) : FileSink :=
  ⟨path, content, content.length, [], content.length⟩

/-- A file that holds, once its buffer is emptied, what a buffer in memory holds. -/
structure Mirrors (path : String) (file : FileSink) (memory : MemorySink) : Prop where
  inside : file.Inside
  emptied_eq : file.emptied = settled path memory.content

theorem mirrors_create (path : String) : Mirrors path (create path) ⟨[]⟩ :=
  ⟨Nat.le_refl 0, rfl⟩

namespace Mirrors

theorem of_settled (h : file = settled path memory.content) : Mirrors path file memory := by
  subst h
  exact ⟨Nat.le_refl _, rfl⟩

theorem size_eq (h : Mirrors path file memory) : file.size = memory.content.length := by
  have size : file.emptied.size = file.size := by rw [h.inside.emptied_eq]
  rw [← size, h.emptied_eq]
  rfl

theorem released_eq (h : Mirrors path file memory) : file.released = memory.content := by
  rw [released, h.emptied_eq]
  rfl

theorem append (h : Mirrors path file memory) (bytes : Bytes) :
    Mirrors path ((SinkCall.append bytes).after file)
      ((SinkCall.append bytes).after memory) where
  inside := h.inside.write bytes
  emptied_eq := by
    have atEnd : (settled path memory.content).Inside := Nat.le_refl _
    show emptied { file.write bytes with size := file.size + bytes.length } =
      settled path (memory.content ++ bytes)
    rw [emptied_withSize, emptied_write h.inside, h.emptied_eq, atEnd.writeThrough_eq, h.size_eq]
    simp only [settled, overwrite_length, List.length_append]

theorem flush (h : Mirrors path file memory) : Mirrors path file.emptied memory where
  inside := h.inside.emptied
  emptied_eq := by rw [emptied_of_nil (buffer_emptied file), h.emptied_eq]

/-- A patch moves the position to its start, and back to the end. -/
theorem patched (h : Mirrors path file memory) {start : Nat} {bytes : Bytes}
    (within : start + bytes.length ≤ memory.content.length) :
    Mirrors path (((file.seek start).write bytes).seek file.size)
      ⟨overwrite memory.content start bytes⟩ := by
  have moved : file.seek start = { settled path memory.content with position := start } := by
    rw [seek, h.emptied_eq]
  have inside : (file.seek start).Inside := by
    rw [moved]
    exact Nat.le_trans (Nat.le_add_right _ _) within
  apply of_settled
  rw [seek, emptied_write inside, emptied_of_nil (by rw [moved]; rfl), inside.writeThrough_eq,
    moved, h.size_eq]
  simp only [settled, length_overwrite within]

end Mirrors

/-- A call is done on both sinks, or refused by both because of its arguments, which changes
neither. -/
inductive AnswerAlike (call : SinkCall) (file : FileSink) (memory : MemorySink) : Prop where
  | done (onFile : call.perform file = .ok () (call.after file))
      (inMemory : call.perform memory = .ok () (call.after memory))
  | refused (onFile : ∃ failure, call.perform file = .error failure file ∧
        failure.kind = .invalidInput)
      (inMemory : ∃ failure, call.perform memory = .error failure memory ∧
        failure.kind = .invalidInput)

/-- **One call** is answered alike, and what was alike stays so. -/
theorem Mirrors.step (h : Mirrors path file memory) (room : memory.content.length ≤ maxPosition)
    (call : SinkCall) (small : ∀ offset bytes, call = .patch offset bytes →
      offset.toNat + bytes.length < UInt64.size) :
    AnswerAlike call file memory ∧ Mirrors path (call.after file) (call.after memory) := by
  cases call with
  | append bytes => exact ⟨.done rfl rfl, h.append bytes⟩
  | flush => exact ⟨.done rfl rfl, h.flush⟩
  | sync => exact ⟨.done rfl rfl, h.flush⟩
  | patch offset bytes =>
    have fits := small offset bytes rfl
    have stop : (offset.toNat + bytes.length) % UInt64.size = offset.toNat + bytes.length :=
      Nat.mod_eq_of_lt fits
    have addresses : memory.content.length < UInt64.size := Nat.lt_of_le_of_lt room (by decide)
    have answers : memory.AnswersPatch offset bytes :=
      MemorySink.answersPatch addresses (by omega)
    by_cases within : offset.toNat + bytes.length ≤ memory.content.length
    · have onFile : patch offset bytes file =
          .ok () (((file.seek offset.toNat).write bytes).seek file.size) := by
        simp only [patch, stop, h.size_eq]
        rw [if_neg (by omega), if_neg (by omega)]
      have inMemory := answers.within within
      have file' : (SinkCall.patch offset bytes).after file = _ := stateAfter_of_ok onFile
      have memory' : (SinkCall.patch offset bytes).after memory = _ := stateAfter_of_ok inMemory
      rw [file', memory']
      refine ⟨.done ?_ ?_, h.patched within⟩
      · rw [file']
        exact onFile
      · rw [memory']
        exact inMemory
    · have onFile : patch offset bytes file = .error .patchUnwritten file := by
        simp only [patch, stop, h.size_eq]
        rw [if_pos (by omega)]
      obtain ⟨failure, inMemory, kind⟩ := answers.past (Nat.not_le.1 within)
      rw [if_neg (by omega)] at kind
      have file' : (SinkCall.patch offset bytes).after file = file := stateAfter_of_error onFile
      have memory' : (SinkCall.patch offset bytes).after memory = memory :=
        stateAfter_of_error inMemory
      rw [file', memory']
      exact ⟨.refused ⟨_, onFile, rfl⟩ ⟨failure, inMemory, kind⟩, h⟩

/-- Calls after which every byte has a position in a file, and so an address in a buffer, and whose
patches end within the words of the machine. -/
structure Seekable (calls : List SinkCall) : Prop where
  total_le : (appendedBy calls).length ≤ maxPosition
  patch_lt : ∀ offset bytes, .patch offset bytes ∈ calls →
    offset.toNat + bytes.length < UInt64.size

namespace Seekable

variable {calls later : List SinkCall}

theorem of_append (h : Seekable (calls ++ later)) : Seekable calls where
  total_le := by
    have := h.total_le
    rw [appendedBy_append, List.length_append] at this
    omega
  patch_lt offset bytes mem := h.patch_lt offset bytes (List.mem_append_left _ mem)

theorem length_le (h : Seekable calls) :
    (afterCalls calls (MemorySink.mk [])).content.length ≤ maxPosition := by
  have fits : Addressable ([] : Bytes).length calls := by
    constructor
    · rw [List.length_nil, Nat.zero_add]
      exact Nat.lt_of_le_of_lt h.total_le (by decide)
    · intro offset bytes mem
      have := h.patch_lt offset bytes mem
      omega
  rw [(MemorySink.content_afterCalls fits).2, List.length_nil, Nat.zero_add]
  exact h.total_le

end Seekable

variable {calls : List SinkCall}

theorem mirrors_afterCalls (h : Seekable calls) (path : String) :
    Mirrors path (afterCalls calls (create path)) (afterCalls calls (MemorySink.mk [])) := by
  induction calls using List.reverseRecOn with
  | nil => exact mirrors_create path
  | append_singleton calls call ih =>
    have earlier := h.of_append
    have small : ∀ offset bytes, call = .patch offset bytes →
        offset.toNat + bytes.length < UInt64.size := by
      rintro offset bytes rfl
      exact h.patch_lt offset bytes (List.mem_append_right _ (List.mem_singleton_self _))
    rw [afterCalls_append_singleton, afterCalls_append_singleton]
    exact ((ih earlier).step earlier.length_le call small).2

/-- A file and a buffer in memory of the same size and content. The file has it once it is synced
or released, whatever the volume held at its path before, and goes on behind it. -/
structure HoldAlike (path : String) (file : FileSink) (memory : MemorySink) : Prop where
  size_eq : Sink.size file = Sink.size memory
  synced : ∃ next, Sink.sync file = .ok () next ∧ next.disk = memory.content
  released_eq : file.released = memory.content
  stored : ∀ volume : Volume,
    (volume.store path file.released).content? path = some memory.content
  continues : ∀ bytes,
    ((SinkCall.append bytes).after file).released = file.released ++ bytes

theorem Mirrors.holdAlike (h : Mirrors path file memory) : HoldAlike path file memory where
  size_eq := h.size_eq
  synced := by
    refine ⟨file.emptied, rfl, ?_⟩
    rw [h.emptied_eq]
    rfl
  released_eq := h.released_eq
  stored volume := by rw [Tool.Volume.content?_store _ rfl, h.released_eq]
  continues bytes := by
    rw [(h.append bytes).released_eq, h.released_eq]
    rfl

/-- **A file holds what a buffer in memory holds** after the same calls, and answers the next one
like it. -/
theorem mirrors_memory (h : Seekable calls) (path : String) :
    HoldAlike path (afterCalls calls (create path)) (afterCalls calls (MemorySink.mk [])) ∧
      ∀ call, Seekable (calls ++ [call]) →
        AnswerAlike call (afterCalls calls (create path))
          (afterCalls calls (MemorySink.mk [])) := by
  have mirrors := mirrors_afterCalls h path
  refine ⟨mirrors.holdAlike, ?_⟩
  intro call next
  refine (mirrors.step h.length_le call ?_).1
  rintro offset bytes rfl
  exact next.patch_lt offset bytes (List.mem_append_right _ (List.mem_singleton_self _))

/-- A file is patched between two pieces, and then to be patched past its end. -/
theorem mirrors_memory_patched :
    (afterCalls [.append [1, 2, 3], .patch 0 [7], .append [4]] (create "out")).released =
        [7, 2, 3, 4] ∧
      AnswerAlike (.patch 3 [8, 8])
        (afterCalls [.append [1, 2, 3], .patch 0 [7], .append [4]] (create "out"))
        ⟨[7, 2, 3, 4]⟩ := by
  have fits : Seekable [.append [1, 2, 3], .patch 0 [7], .append [4], .patch 3 [8, 8]] := by
    refine ⟨by decide, ?_⟩
    intro offset bytes mem
    simp only [List.mem_cons, SinkCall.patch.injEq, reduceCtorEq, List.not_mem_nil, false_or,
      or_false] at mem
    rcases mem with ⟨rfl, rfl⟩ | ⟨rfl, rfl⟩ <;> decide
  obtain ⟨alike, answers⟩ := mirrors_memory
    (@Seekable.of_append [.append [1, 2, 3], .patch 0 [7], .append [4]] [.patch 3 [8, 8]] fits)
    "out"
  exact ⟨alike.released_eq, answers _ fits⟩

end FileSink

end RatingArchive
