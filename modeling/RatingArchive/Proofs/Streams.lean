import RatingArchive.Proofs.Actions
import RatingArchive.Source
/-!
# What readers of streams take

`Parses` says of a reader, by a grammar, what it takes off a stream and what it answers: it succeeds
if and only if the stream begins with bytes that the grammar relates to an answer, and what is left
are the bytes behind them. How the bytes are cut into chunks, and whether the stream ends or fails
behind them, makes no difference.

The grammar of a reader that is made of others is put together from theirs (`Parses.bind`), down to
the requests for a number of bytes (`parses_takeExactly`).
-/

namespace RatingArchive

variable {ε α β : Type}

/-- **A reader takes what a grammar says**, and nothing else. -/
def Parses (reader : EStateM ε Source α) (grammar : Bytes → α → Prop) : Prop :=
  ∀ source value tail,
    (∃ rest, reader source = .ok value rest ∧ rest.remaining = tail) ↔
      ∃ front, grammar front value ∧ source.remaining = front ++ tail

namespace Parses

variable {reader : EStateM ε Source α} {grammar grammar' : Bytes → α → Prop}
  {source rest : Source} {value : α} {front tail : Bytes}

/-- What a reader has taken is in its grammar. -/
theorem taken (h : Parses reader grammar) (found : reader source = .ok value rest) :
    ∃ front, grammar front value ∧ source.remaining = front ++ rest.remaining :=
  (h source value rest.remaining).1 ⟨rest, found, rfl⟩

/-- What is in the grammar of a reader is taken. -/
theorem run (h : Parses reader grammar) (allowed : grammar front value)
    (begins : source.remaining = front ++ tail) :
    ∃ rest, reader source = .ok value rest ∧ rest.remaining = tail :=
  (h source value tail).2 ⟨front, allowed, begins⟩

/-- What a reader takes can be told from what stands behind it. -/
theorem unique {valid : α → Prop} {form : α → Bytes}
    (h : Parses reader fun front value => valid value ∧ front = form value) {a b : α} {x y : Bytes}
    (ha : valid a) (hb : valid b) (same : form a ++ x = form b ++ y) : a = b ∧ x = y := by
  have begins := Source.remaining_ofBytes (form a ++ x)
  obtain ⟨_, found, rfl⟩ := h.run ⟨ha, rfl⟩ begins
  obtain ⟨_, found', rfl⟩ := h.run ⟨hb, rfl⟩ (begins.trans same)
  cases found.symm.trans found'
  exact ⟨rfl, rfl⟩

theorem congr (h : Parses reader grammar)
    (same : ∀ front value, grammar front value ↔ grammar' front value) :
    Parses reader grammar' := by
  intro source value tail
  rw [h source value tail]
  simp only [same]

/-- A reader that succeeds when another does takes the same. -/
theorem of_ok_iff {ε' : Type} {other : EStateM ε' Source α} (h : Parses other grammar)
    (same : ∀ source value rest, reader source = .ok value rest ↔ other source = .ok value rest) :
    Parses reader grammar := by
  intro source value tail
  simp only [same, h source value tail]

protected theorem pure (value : α) :
    Parses (pure value : EStateM ε Source α) fun front answer => answer = value ∧ front = [] := by
  intro source answer tail
  constructor
  · rintro ⟨rest, found, rfl⟩
    cases found
    exact ⟨[], ⟨rfl, rfl⟩, rfl⟩
  · rintro ⟨front, ⟨rfl, rfl⟩, begins⟩
    exact ⟨source, rfl, begins⟩

/-- A reader that fails has an empty grammar. -/
protected theorem throw (error : ε) :
    Parses (throw error : EStateM ε Source α) fun _ _ => False := by
  intro source value tail
  constructor
  · rintro ⟨rest, found, -⟩
    cases found
  · rintro ⟨_, impossible, -⟩
    exact impossible.elim

/-- **One reader after the other**: behind the written form of what the first one answers stands
what the second one takes, which may depend on that answer. -/
theorem bind {valid : α → Prop} {form : α → Bytes} {next : α → EStateM ε Source β}
    {later : α → Bytes → β → Prop}
    (h : Parses reader fun front value => valid value ∧ front = form value)
    (h' : ∀ value, valid value → Parses (next value) (later value)) :
    Parses (reader >>= next) fun front answer =>
      ∃ value back, valid value ∧ later value back answer ∧ front = form value ++ back := by
  intro source answer tail
  constructor
  · rintro ⟨rest, found, rfl⟩
    cases first : reader source with
    | error error middle =>
      rw [bind_of_error first] at found
      cases found
    | ok value middle =>
      rw [bind_of_ok first] at found
      obtain ⟨_, ⟨allowed, rfl⟩, begins⟩ := h.taken first
      obtain ⟨back, allowed', goesOn⟩ := (h' value allowed).taken found
      refine ⟨form value ++ back, ⟨value, back, allowed, allowed', rfl⟩, ?_⟩
      rw [begins, goesOn, List.append_assoc]
  · rintro ⟨_, ⟨value, back, allowed, allowed', rfl⟩, begins⟩
    rw [List.append_assoc] at begins
    obtain ⟨middle, first, between⟩ := h.run ⟨allowed, rfl⟩ begins
    obtain ⟨rest, found, left⟩ := (h' value allowed).run allowed' between
    exact ⟨rest, (bind_of_ok first).trans found, left⟩

/-- A check in front of a reader takes nothing. -/
theorem check_bind {holds : Prop} {check : EStateM ε Source Unit}
    (h : Parses check fun front _ => holds ∧ front = []) (h' : holds → Parses reader grammar) :
    Parses (check >>= fun _ => reader) fun front value => holds ∧ grammar front value := by
  apply (h.bind fun _ checked => h' checked).congr
  intro front value
  constructor
  · rintro ⟨_, back, checked, allowed, rfl⟩
    exact ⟨checked, allowed⟩
  · rintro ⟨checked, allowed⟩
    exact ⟨(), front, checked, allowed, rfl⟩

end Parses

/-! ## Requests for bytes -/

namespace Source

/-- **A request for a number of bytes** is met if there are as many. -/
theorem parses_takeExactly (n : Nat) :
    Parses (takeExactly n) fun front bytes => bytes.length = n ∧ front = bytes := by
  intro source bytes tail
  have got : (pull n source.chunks).1 = source.remaining.take n := pull_fst n source.chunks
  have left : (pull n source.chunks).2.flatten = source.remaining.drop n :=
    flatten_pull_snd n source.chunks
  unfold takeExactly
  simp only [got]
  constructor
  · rintro ⟨rest, found, rfl⟩
    split at found
    · next enough =>
      cases found
      refine ⟨_, ⟨enough, rfl⟩, ?_⟩
      show source.remaining = source.remaining.take n ++ (pull n source.chunks).2.flatten
      rw [left, List.take_append_drop]
    · cases found
  · rintro ⟨_, ⟨count, rfl⟩, begins⟩
    rw [begins] at left ⊢
    rw [List.take_left' count, if_pos count]
    rw [List.drop_left' count] at left
    exact ⟨_, rfl, left⟩

/-- A request for at most a number of bytes gives as many if there are as many. -/
theorem takeUpTo_eq_ok_iff {n : Nat} {source rest : Source} {bytes : Bytes}
    (whole : bytes.length = n) :
    takeUpTo n source = .ok bytes rest ↔ takeExactly n source = .ok bytes rest := by
  unfold takeUpTo takeExactly
  cases source.fault with
  | none =>
    simp only
    split
    · exact Iff.rfl
    · next short =>
      constructor
      · intro found
        cases found
        exact absurd whole short
      · exact nofun
  | some failure =>
    simp only
    split
    · exact Iff.rfl
    · exact ⟨nofun, nofun⟩

end Source

end RatingArchive
