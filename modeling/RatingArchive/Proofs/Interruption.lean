import RatingArchive.Error
import RatingArchive.Proofs.Actions
import RatingArchive.Source
/-!
# Streams that end or fail early

`Takes` says of a reader which bytes it reads before it answers. On every source that begins with
them it gives this answer, and leaves what stands behind them; so it does not matter how the bytes
are cut into chunks, nor whether the source ends or fails behind the last one. On a source that ends
or fails before that, the reader reports just this (`Source.BreaksOff`): an end makes the data
invalid, and a failure is passed on.

What a reader takes that is made of others is put together from what they take (`Takes.bind`), down
to the two kinds of requests for bytes.
-/

namespace RatingArchive

variable {α β : Type}

/-- The error of a reader that asks for more bytes than a source has. -/
def Source.BreaksOff (source : Source) (error : Error) : Prop :=
  match source.fault with
  | none => ∃ fault, error = .invalidData fault
  | some failure => failure.kind ≠ .unexpectedEnd → error = .io failure

/-- **A reader takes some bytes and gives an answer.** It asks for no more than these bytes, which
is why sources that differ behind them make no difference, and for no less. -/
structure Takes (reader : EStateM Error Source α) (front : Bytes) (answer : Except Error α) :
    Prop where
  whole : ∀ {source tail}, source.remaining = front ++ tail →
    answerOf reader source = answer ∧ (stateAfter reader source).remaining = tail ∧
      (stateAfter reader source).fault = source.fault
  short : ∀ {source}, source.remaining <+: front → source.remaining.length < front.length →
    ∃ error, answerOf reader source = .error error ∧ source.BreaksOff error

namespace Takes

variable {reader : EStateM Error Source α} {next : α → EStateM Error Source β} {front back : Bytes}
  {value : α} {error : Error} {answer : Except Error β}

protected theorem pure (value : α) : Takes (pure value) [] (.ok value) where
  whole begins := ⟨rfl, begins, rfl⟩
  short _ missing := absurd missing (Nat.not_lt_zero _)

protected theorem throw (error : Error) : Takes (throw error : EStateM Error Source α) []
    (.error error) where
  whole begins := ⟨rfl, begins, rfl⟩
  short _ missing := absurd missing (Nat.not_lt_zero _)

/-- **One reader after the other** takes what both of them take. -/
theorem bind (h : Takes reader front (.ok value)) (h' : Takes (next value) back answer) :
    Takes (reader >>= next) (front ++ back) answer := by
  have first {source : Source} {tail : Bytes} (begins : source.remaining = front ++ tail) :
      ∃ middle, reader source = .ok value middle ∧ middle.remaining = tail ∧
        middle.fault = source.fault := by
    obtain ⟨answers, left, fault⟩ := h.whole begins
    exact ⟨_, eq_ok_of_answerOf answers, left, fault⟩
  constructor
  · intro source tail begins
    rw [List.append_assoc] at begins
    obtain ⟨middle, found, between, kept⟩ := first begins
    obtain ⟨answers, left, fault⟩ := h'.whole between
    rw [answerOf_bind_of_ok found, stateAfter_bind_of_ok found]
    exact ⟨answers, left, fault.trans kept⟩
  · intro source part missing
    by_cases inFront : source.remaining.length < front.length
    · have part := List.prefix_of_prefix_length_le part (List.prefix_append _ _)
        (Nat.le_of_lt inFront)
      obtain ⟨error, answers, breaks⟩ := h.short part inFront
      exact ⟨error, answerOf_bind_of_error (eq_error_of_answerOf answers), breaks⟩
    · -- the first reader gets its bytes, and what is left is too short for the second one
      obtain ⟨tail, begins⟩ := List.prefix_of_prefix_length_le (List.prefix_append _ _) part
        (Nat.not_lt.1 inFront)
      obtain ⟨middle, found, between, kept⟩ := first begins.symm
      rw [← begins] at part missing
      rw [List.length_append, List.length_append] at missing
      rw [← between] at part missing
      obtain ⟨error, answers, breaks⟩ := h'.short ((List.prefix_append_right_inj _).1 part)
        (by omega)
      refine ⟨error, (answerOf_bind_of_ok found).trans answers, ?_⟩
      unfold Source.BreaksOff at breaks ⊢
      rwa [kept] at breaks

/-- A reader that fails is followed by nothing. -/
theorem bind_error (h : Takes reader front (.error error)) :
    Takes (reader >>= next) front (.error error) where
  whole begins := by
    obtain ⟨answers, left, fault⟩ := h.whole begins
    have found := eq_error_of_answerOf answers
    rw [answerOf_bind_of_error found, stateAfter_bind_of_error found]
    exact ⟨rfl, left, fault⟩
  short part missing := by
    obtain ⟨error, answers, breaks⟩ := h.short part missing
    exact ⟨error, answerOf_bind_of_error (eq_error_of_answerOf answers), breaks⟩

/-- What is done with the value of a reader may take nothing more. -/
theorem bind_nil (h : Takes reader front (.ok value)) (h' : Takes (next value) [] answer) :
    Takes (reader >>= next) front answer := by
  have both := h.bind h'
  rwa [List.append_nil] at both

end Takes

/-! ## Requests for bytes -/

namespace Source

variable {n : Nat} {source : Source}

/-- A request is met by a source that has as many bytes. -/
theorem takeExactly_of_le (enough : n ≤ source.remaining.length) :
    ∃ rest, takeExactly n source = .ok (source.remaining.take n) rest ∧
      rest.remaining = source.remaining.drop n ∧ rest.fault = source.fault := by
  have taken : (pull n source.chunks).1 = source.remaining.take n := pull_fst n source.chunks
  unfold takeExactly
  simp only [taken, if_pos (List.length_take_of_le enough)]
  exact ⟨_, rfl, flatten_pull_snd n source.chunks, rfl⟩

/-- A request for more bytes than a source has fails as the source does. -/
theorem takeExactly_of_lt (missing : source.remaining.length < n) :
    ∃ rest, takeExactly n source = .error (source.fault.getD .streamEnded) rest := by
  have taken : (pull n source.chunks).1 = source.remaining.take n := pull_fst n source.chunks
  have cut : ¬(source.remaining.take n).length = n := by
    rw [List.length_take]
    omega
  unfold takeExactly
  simp only [taken, if_neg cut]
  exact ⟨_, rfl⟩

/-- A request for at most a number of bytes ends with those that a source has, unless the source
fails. -/
theorem takeUpTo_of_lt (missing : source.remaining.length < n) :
    ∃ rest, takeUpTo n source = match source.fault with
      | none => .ok source.remaining rest
      | some failure => .error failure rest := by
  have taken : (pull n source.chunks).1 = source.remaining := by
    rw [pull_fst]
    exact List.take_of_length_le (Nat.le_of_lt missing)
  refine ⟨⟨(pull n source.chunks).2, source.fault⟩, ?_⟩
  unfold takeUpTo
  simp only [taken, if_neg (Nat.ne_of_lt missing)]
  cases source.fault <;> rfl

/-- The error for a source that has too few bytes for a request. -/
theorem breaksOff_ofRead (source : Source) (fault : DataFault) :
    source.BreaksOff (.ofRead fault (source.fault.getD .streamEnded)) := by
  unfold BreaksOff Error.ofRead
  cases source.fault with
  | none => exact ⟨fault, rfl⟩
  | some failure => exact fun other => if_neg other

end Source

/-- **A piece of fixed length** is taken by a reader that asks for its bytes, and has an error of
its own for a source that ends before. -/
theorem takes_piece {reader : EStateM Error Source Bytes} {n : Nat} (fault : DataFault)
    (ok : ∀ {source bytes rest}, Source.takeExactly n source = .ok bytes rest →
      reader source = .ok bytes rest)
    (error : ∀ {source failure rest}, Source.takeExactly n source = .error failure rest →
      reader source = .error (.ofRead fault failure) rest)
    {bytes : Bytes} (length : bytes.length = n) : Takes reader bytes (.ok bytes) where
  whole {source tail} begins := by
    have enough : n ≤ source.remaining.length := by
      rw [begins, List.length_append]
      omega
    obtain ⟨rest, taken, left, kept⟩ := Source.takeExactly_of_le enough
    rw [begins, List.take_left' length] at taken
    rw [begins, List.drop_left' length] at left
    rw [answerOf_of_ok (ok taken), stateAfter_of_ok (ok taken)]
    exact ⟨rfl, left, kept⟩
  short {source} _ missing := by
    rw [length] at missing
    obtain ⟨rest, failed⟩ := Source.takeExactly_of_lt missing
    exact ⟨_, answerOf_of_error (error failed), source.breaksOff_ofRead fault⟩

end RatingArchive
