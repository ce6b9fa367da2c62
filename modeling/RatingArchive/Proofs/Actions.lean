/-!
# What actions answer and what they leave

An action on a state ends with a value or an error (`answerOf`), and leaves a state behind in either
case (`stateAfter`). An action that is followed by another decides alone if it fails, and hands on
its state if it does not.
-/

namespace RatingArchive

variable {ε σ α β : Type} {action : EStateM ε σ α} {state next : σ} {value : α} {error : ε}

/-- The value or the error with which an action ends. -/
def answerOf (action : EStateM ε σ α) (state : σ) : Except ε α :=
  match action state with
  | .ok value _ => .ok value
  | .error error _ => .error error

/-- The state that an operation leaves behind, whether it fails or not. -/
def stateAfter {ε σ α : Type} (action : EStateM ε σ α) (state : σ) : σ :=
  match action state with
  | .ok _ next => next
  | .error _ next => next

theorem stateAfter_of_ok (h : action state = .ok value next) : stateAfter action state = next := by
  rw [stateAfter, h]

theorem stateAfter_of_error (h : action state = .error error next) :
    stateAfter action state = next := by
  rw [stateAfter, h]

theorem answerOf_of_ok (h : action state = .ok value next) : answerOf action state = .ok value := by
  rw [answerOf, h]

theorem answerOf_of_error (h : action state = .error error next) :
    answerOf action state = .error error := by
  rw [answerOf, h]

/-- An action that ends with a value does so in the state it leaves behind. -/
theorem eq_ok_of_answerOf (h : answerOf action state = .ok value) :
    action state = .ok value (stateAfter action state) := by
  unfold answerOf at h
  split at h
  · next found =>
    cases h
    rw [stateAfter_of_ok found, found]
  · cases h

theorem eq_error_of_answerOf (h : answerOf action state = .error error) :
    action state = .error error (stateAfter action state) := by
  unfold answerOf at h
  split at h
  · cases h
  · next found =>
    cases h
    rw [stateAfter_of_error found, found]

/-! ## One action after the other -/

variable {f : α → EStateM ε σ β}

theorem bind_of_ok (h : action state = .ok value next) : (action >>= f) state = f value next := by
  simp only [bind, EStateM.bind, h]

theorem bind_of_error (h : action state = .error error next) :
    (action >>= f) state = .error error next := by
  simp only [bind, EStateM.bind, h]

/-- An action may be exchanged for one that does the same in the state at hand. -/
theorem bind_congr_left {action' : EStateM ε σ α} (h : action state = action' state) :
    (action >>= f) state = (action' >>= f) state := by
  simp only [bind, EStateM.bind, h]

theorem bind_congr_right {g : α → EStateM ε σ β}
    (h : ∀ value next, action state = .ok value next → f value next = g value next) :
    (action >>= f) state = (action >>= g) state := by
  cases found : action state with
  | ok value next => rw [bind_of_ok found, bind_of_ok found, h value next found]
  | error error next => rw [bind_of_error found, bind_of_error found]

theorem stateAfter_bind_of_ok (h : action state = .ok value next) :
    stateAfter (action >>= f) state = stateAfter (f value) next := by
  rw [stateAfter, bind_of_ok h, stateAfter]

theorem stateAfter_bind_of_error (h : action state = .error error next) :
    stateAfter (action >>= f) state = next :=
  stateAfter_of_error (bind_of_error h)

/-- An answer that is exchanged for another changes nothing else. -/
theorem stateAfter_bind_pure (action : EStateM ε σ α) (value : β) (state : σ) :
    stateAfter (action >>= fun _ => pure value) state = stateAfter action state := by
  cases found : action state with
  | ok _ next => exact (stateAfter_bind_of_ok found).trans (stateAfter_of_ok found).symm
  | error _ next => exact (stateAfter_bind_of_error found).trans (stateAfter_of_error found).symm

theorem answerOf_bind_of_ok (h : action state = .ok value next) :
    answerOf (action >>= f) state = answerOf (f value) next := by
  rw [answerOf, bind_of_ok h, answerOf]

theorem answerOf_bind_of_error (h : action state = .error error next) :
    answerOf (action >>= f) state = .error error :=
  answerOf_of_error (bind_of_error h)

end RatingArchive
