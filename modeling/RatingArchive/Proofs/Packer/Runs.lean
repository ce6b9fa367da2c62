import Mathlib.Data.List.Induction
import RatingArchive.Packer
import RatingArchive.Proofs.Sink
/-!
# Runs of a packer

A `Step` is what can be asked of a packer, and a `Run` is what has become of it: its state, the
ratings that were accepted, and how the first attempt to complete the archive has ended. After this
attempt the packer is closed, and no step changes anything (`next_of_closed`).
-/

namespace RatingArchive

namespace Packer

variable {σ : Type}

/-- What can be asked of a packer. -/
inductive Step where
  | write (rating : Rating)
  | writeAll (ratings : List Rating)
  | close
  | finish
  | drop
  deriving DecidableEq, Repr

/-- How an operation ends. -/
def outcome {α : Type} (action : Action σ α) (packer : Packer σ) : Except Error Unit :=
  match action packer with
  | .ok _ _ => .ok ()
  | .error error _ => .error error

theorem exists_of_outcome_eq_ok {α : Type} {action : Action σ α} {packer : Packer σ}
    (h : outcome action packer = .ok ()) : ∃ value next, action packer = .ok value next := by
  unfold outcome at h
  cases found : action packer with
  | ok value next => exact ⟨value, next, rfl⟩
  | error error next => rw [found] at h; cases h

theorem outcome_bind_pure {α β : Type} (action : Action σ α) (value : β) (packer : Packer σ) :
    outcome (action >>= fun _ => pure value) packer = outcome action packer := by
  unfold outcome
  cases found : action packer with
  | ok value' next => rw [bind_of_ok found]; rfl
  | error reason next => rw [bind_of_error found]

variable [Sink σ]

/-- The ratings at the front of a list that are accepted, one after the other. -/
def acceptedOf : List Rating → Packer σ → List Rating
  | [], _ => []
  | rating :: ratings, packer =>
    match write rating packer with
    | .ok _ next => rating :: acceptedOf ratings next
    | .error _ _ => []

namespace Step

/-- Does a step, by a collation if the archive is completed. -/
def runBy (collation : Collation) : Step → Action σ Unit
  | write rating => Packer.write rating
  | writeAll ratings => Packer.writeAll ratings
  | close => closeBy collation
  | finish => do let _ ← finishBy collation
  | drop => dropBy collation

/-- Does a step. -/
def run : Step → Action σ Unit := runBy .asMet

/-- The ratings that are accepted in a step. -/
def accepted : Step → Packer σ → List Rating
  | write rating, packer => acceptedOf [rating] packer
  | writeAll ratings, packer => acceptedOf ratings packer
  | close, _ | finish, _ | drop, _ => []

/-- How the archive is completed, if that is attempted in a step. A packer that is given up does not
tell, but does what closing it would. -/
def completion : Step → Packer σ → Option (Except Error Unit)
  | write _, _ | writeAll _, _ => none
  | close, packer | drop, packer => some (outcome Packer.close packer)
  | finish, packer => some (outcome Packer.finish packer)

/-- Whether a step attempts to complete the archive. -/
def completes : Step → Bool
  | write _ | writeAll _ => false
  | close | finish | drop => true

end Step

/-- What has become of a packer. -/
structure Run (σ : Type) where
  packer : Packer σ
  /-- The ratings that were accepted, in order. -/
  accepted : List Rating
  /-- How the first attempt to complete the archive ended, if there was one. -/
  completion : Option (Except Error Unit)

/-- A run with one more step. -/
def Run.next (run : Run σ) (step : Step) : Run σ where
  packer := stateAfter step.run run.packer
  accepted := run.accepted ++ step.accepted run.packer
  completion := run.completion <|> step.completion run.packer

/-- What becomes of a packer in some steps. -/
def run (packer : Packer σ) (steps : List Step) : Run σ := steps.foldl Run.next ⟨packer, [], none⟩

theorem run_append (packer : Packer σ) (steps later : List Step) :
    packer.run (steps ++ later) = later.foldl Run.next (packer.run steps) :=
  List.foldl_append

/-- The archive was completed, or was to be, if and only if a step has attempted it. -/
theorem isSome_completion_run (packer : Packer σ) (steps : List Step) :
    (packer.run steps).completion.isSome = steps.any Step.completes := by
  induction steps using List.reverseRecOn with
  | nil => rfl
  | append_singleton steps step ih =>
    have own : (step.completion (packer.run steps).packer).isSome = step.completes := by
      cases step <;> rfl
    rw [run_append, List.any_append, ← ih, List.any_cons, List.any_nil, Bool.or_false, ← own]
    show ((packer.run steps).completion <|> step.completion (packer.run steps).packer).isSome = _
    cases (packer.run steps).completion <;> rfl

variable {packer : Packer σ}

/-! ## Open packers -/

theorem finish_of_open (h : packer.closed = false) :
    finish packer = match close packer with
      | .ok _ next => .ok next.sink next
      | .error error next => .error error next := by
  show (if packer.closed = true then _ else _ : Action σ σ) packer = _
  rw [h]
  show (close >>= _) packer = _
  cases found : close packer with
  | ok value next => exact bind_of_ok found
  | error reason next => exact bind_of_error found

theorem drop_of_open (h : packer.closed = false) :
    drop packer = match close packer with
      | .ok _ next => .ok () next
      | .error error next => report (.closeFailed error) next := by
  show (if (!packer.closed) = true then _ else _ : Action σ Unit) packer = _
  rw [h]
  show EStateM.tryCatch close _ packer = _
  unfold EStateM.tryCatch
  cases close packer <;> rfl

/-! ## Closed packers -/

theorem write_of_closed (h : packer.closed = true) (rating : Rating) :
    write rating packer = .error (.illegalState .packerClosed) packer := by
  show (if packer.closed = true then _ else _ : Action σ Unit) packer = _
  rw [h]
  rfl

theorem writeAll_of_closed (h : packer.closed = true) (rating : Rating) (ratings : List Rating) :
    writeAll (rating :: ratings) packer = .error (.illegalState .packerClosed) packer := by
  show (write rating >>= fun _ => ratings.forM write) packer = _
  exact bind_of_error (write_of_closed h rating)

theorem closeBy_of_closed (collation : Collation) (h : packer.closed = true) :
    closeBy collation packer = .ok () packer := by
  show (if packer.closed = true then _ else _ : Action σ Unit) packer = _
  rw [h]
  rfl

theorem close_of_closed (h : packer.closed = true) : close packer = .ok () packer :=
  closeBy_of_closed .asMet h

theorem finish_of_closed (h : packer.closed = true) :
    finish packer = .error (.illegalState .packerClosed) packer := by
  show (if packer.closed = true then _ else _ : Action σ σ) packer = _
  rw [h]
  rfl

theorem drop_of_closed (h : packer.closed = true) : drop packer = .ok () packer := by
  show (if (!packer.closed) = true then _ else _ : Action σ Unit) packer = _
  rw [h]
  rfl

/-- No step changes a packer that was closed. -/
theorem stateAfter_of_closed (h : packer.closed = true) (step : Step) :
    stateAfter step.run packer = packer := by
  cases step with
  | write rating => exact stateAfter_of_error (write_of_closed h rating)
  | writeAll ratings =>
    cases ratings with
    | nil => rfl
    | cons rating ratings => exact stateAfter_of_error (writeAll_of_closed h rating ratings)
  | close => exact stateAfter_of_ok (close_of_closed h)
  | finish => exact stateAfter_bind_of_error (finish_of_closed h)
  | drop => exact stateAfter_of_ok (drop_of_closed h)

theorem acceptedOf_of_closed (h : packer.closed = true) (ratings : List Rating) :
    acceptedOf ratings packer = [] := by
  cases ratings with
  | nil => rfl
  | cons rating ratings => rw [acceptedOf, write_of_closed h]

theorem accepted_of_closed (h : packer.closed = true) (step : Step) :
    step.accepted packer = [] := by
  cases step with
  | write rating => exact acceptedOf_of_closed h [rating]
  | writeAll ratings => exact acceptedOf_of_closed h ratings
  | close => rfl
  | finish => rfl
  | drop => rfl

/-- A run whose archive was completed, or was to be, is left as it is. -/
theorem next_of_closed {run : Run σ} (closed : run.packer.closed = true)
    (attempted : run.completion.isSome = true) (step : Step) : run.next step = run := by
  obtain ⟨packer, accepted, completion⟩ := run
  obtain ⟨result, rfl⟩ := Option.isSome_iff_exists.1 attempted
  simp only [Run.next, stateAfter_of_closed closed, accepted_of_closed closed, List.append_nil]
  rfl

theorem foldl_next_of_closed {run : Run σ} (closed : run.packer.closed = true)
    (attempted : run.completion.isSome = true) (later : List Step) :
    later.foldl Run.next run = run := by
  induction later with
  | nil => rfl
  | cons step later ih => rw [List.foldl_cons, next_of_closed closed attempted, ih]

end Packer

end RatingArchive
