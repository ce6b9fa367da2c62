import RatingArchive.Proofs.Packer.Collation
/-!
# What a packer is offered

Ratings are offered to a packer one by one or in lists. On a sink that does not fail it accepts all
that can be stored (`Packer.Open.acceptedOf_eq`) and completes its archive when it is first asked to
(`Packer.Open.completion_eq`). What it has written then depends on the ratings alone, in the order
in which they were offered: not on how they were divided among its steps, not on the step that has
completed the archive, and not on the order in which its maps hand out their keys
(`Packer.content_of_offers`).
-/

namespace RatingArchive

open TransactionalSink (content)

namespace Packer

/-- The ratings that are offered in a step. -/
def Step.offered : Step → List Rating
  | write rating => [rating]
  | writeAll ratings => ratings
  | close | finish | drop => []

/-- Some steps offer the ratings, and the next one completes the archive. Steps of any kind may
follow. -/
def Offers (ratings : List Rating) (steps : List Step) : Prop :=
  ∃ offers last later, steps = offers ++ last :: later ∧
    (∀ step ∈ offers, step.completes = false) ∧ last.completes = true ∧
    offers.flatMap Step.offered = ratings

variable {σ : Type} {packer : Packer σ}

theorem Ensures.outcome_eq {α : Type} {action : Action σ α} {done : α → Packer σ → Prop}
    {failed : Packer σ → Prop} (h : Ensures action packer done failed)
    (never : ∀ next, ¬failed next) : outcome action packer = .ok () := by
  unfold outcome
  cases found : action packer with
  | ok value next => rfl
  | error reason next => exact absurd (h.error found) (never next)

variable [TransactionalSink σ] {start : σ} {format : Format} {accepted ratings : List Rating}

/-! ## Sinks that do not fail -/

/-- **Ratings that can be stored are accepted.** -/
theorem Open.acceptedOf_eq (h : Open start format accepted packer) (reliable : Reliable σ)
    (admitted : ∀ rating ∈ ratings, format.Admits rating)
    (small : accepted.length + ratings.length ≤ maxRatings) :
    acceptedOf ratings packer = ratings := by
  induction ratings generalizing accepted packer with
  | nil => rfl
  | cons rating ratings ih =>
    obtain ⟨admits, admitted⟩ := List.forall_mem_cons.1 admitted
    rw [List.length_cons] at small
    have written : Ensures (write rating) packer _ _ := ensures_write h
    cases found : write rating packer with
    | ok value next =>
      have room : (accepted ++ [rating]).length + ratings.length ≤ maxRatings := by
        rw [List.length_append, List.length_singleton]
        omega
      rw [acceptedOf, found]
      exact congrArg (rating :: ·) (ih (written.ok found) admitted room)
    | error reason next =>
      obtain ⟨-, refused | full | unreliable⟩ := written.error found
      · exact absurd admits refused
      · omega
      · exact absurd reliable unreliable

/-- **The archive is completed** by the first step that attempts it. -/
theorem Open.completion_eq (h : Open start format accepted packer) (reliable : Reliable σ)
    {step : Step} (completes : step.completes = true) :
    step.completion packer = some (.ok ()) := by
  have closing : outcome close packer = .ok () :=
    (ensures_close h).outcome_eq fun _ failed => failed.2 reliable
  have finishing : outcome finish packer = .ok () :=
    (ensures_finish h).outcome_eq fun _ failed => failed.2 reliable
  cases step with
  | write rating => cases completes
  | writeAll ratings => cases completes
  | close => exact congrArg some closing
  | finish => exact congrArg some finishing
  | drop => exact congrArg some closing

/-! ## Runs -/

variable {offers : List Step}

/-- Before a step attempts to complete the archive, a run is gathering ratings. -/
theorem open_run (opened : Open start format [] packer)
    (never : ∀ step ∈ offers, step.completes = false) :
    Open start format (packer.run offers).accepted (packer.run offers).packer ∧
      (packer.run offers).completion = none := by
  have attempt := isSome_completion_run packer offers
  rw [List.any_eq_false.2 fun step mem => by simp [never step mem]] at attempt
  cases tracks_run opened offers with
  | gathering opened never => exact ⟨opened, never⟩
  | completed packed ended attempted finished =>
    rw [attempted] at attempt
    cases attempt

/-- **What is offered is accepted**, however it is divided among the steps. -/
theorem accepted_run (opened : Open start format [] packer) (reliable : Reliable σ)
    (never : ∀ step ∈ offers, step.completes = false)
    (admitted : ∀ rating ∈ offers.flatMap Step.offered, format.Admits rating)
    (small : (offers.flatMap Step.offered).length ≤ maxRatings) :
    (packer.run offers).accepted = offers.flatMap Step.offered := by
  induction offers using List.reverseRecOn with
  | nil => rfl
  | append_singleton offers step ih =>
    rw [List.flatMap_append, List.flatMap_singleton] at admitted small ⊢
    rw [List.forall_mem_append] at never admitted
    rw [List.length_append] at small
    have before := ih never.1 admitted.1 (by omega)
    have still := (open_run opened never.1).1
    rw [before] at still
    have accepted := still.acceptedOf_eq reliable admitted.2 small
    rw [run_append]
    show (packer.run offers).accepted ++ step.accepted (packer.run offers).packer = _
    rw [before]
    cases step with
    | write rating => exact congrArg _ accepted
    | writeAll ratings => exact congrArg _ accepted
    | close => rfl
    | finish => rfl
    | drop => rfl

/-- **What is offered is packed.** -/
theorem content_run (opened : Open start format [] packer) (reliable : Reliable σ)
    {steps : List Step} (offers : Offers ratings steps)
    (admitted : ∀ rating ∈ ratings, format.Admits rating) (small : ratings.length ≤ maxRatings) :
    content (packer.run steps).packer.sink = archiveOf format ratings := by
  obtain ⟨offers, last, later, rfl, never, completes, rfl⟩ := offers
  obtain ⟨still, nothing⟩ := open_run opened never
  rw [accepted_run opened reliable never admitted small] at still
  have completed := still.completes completes
  have succeeded := still.completion_eq reliable completes
  have attempted : ((packer.run offers).next last).completion.isSome = true := by
    rw [Run.next, nothing, succeeded]
    rfl
  rw [run_append, List.foldl_cons, foldl_next_of_closed completed.ended.closed_eq attempted]
  exact completed.finished succeeded

/-- **What a packer writes depends on the ratings that it is offered**, and on nothing else: it is
their archive on any sinks that do not fail, however the ratings are divided among the steps,
whichever step completes the archive, and in whatever order the maps hand out their keys. -/
theorem content_of_offers {τ : Type} [TransactionalSink τ] (reliable : Reliable σ)
    (reliable' : Reliable τ) (packable : Packable format ratings) {sink : σ} {sink' : τ}
    {packer' : Packer τ} (fresh : new sink format = .ok packer)
    (fresh' : new sink' format = .ok packer') {steps steps' : List Step}
    (offers : Offers ratings steps) (offers' : Offers ratings steps')
    (collation collation' : Collation) :
    content (packer.runBy collation steps).sink = content (packer'.runBy collation' steps').sink ∧
      pack ratings format = .ok (content (packer.runBy collation steps).sink) := by
  have opened := open_of_new fresh
  have opened' := open_of_new fresh'
  rw [runBy_eq opened, runBy_eq opened', packable.pack_eq,
    content_run opened reliable offers packable.admits packable.small,
    content_run opened' reliable' offers' packable.admits packable.small]
  exact ⟨rfl, rfl⟩

/-- Two ratings of one item, one by one. -/
def oneByOne : List Step := [.write ⟨1, 7, ⟨0⟩, some 9⟩, .write ⟨2, 7, ⟨1⟩, some 4⟩, .drop]

/-- The same ratings, all at once. -/
def allAtOnce : List Step :=
  [.writeAll [⟨1, 7, ⟨0⟩, some 9⟩, ⟨2, 7, ⟨1⟩, some 4⟩], .finish, .drop]

theorem content_of_offers_two :
    ∃ packer : Packer MemorySink, new ⟨[]⟩ .timestamped = .ok packer ∧
      Packable .timestamped [⟨1, 7, ⟨0⟩, some 9⟩, ⟨2, 7, ⟨1⟩, some 4⟩] ∧
      Offers [⟨1, 7, ⟨0⟩, some 9⟩, ⟨2, 7, ⟨1⟩, some 4⟩] oneByOne ∧
      Offers [⟨1, 7, ⟨0⟩, some 9⟩, ⟨2, 7, ⟨1⟩, some 4⟩] allAtOnce ∧
      content (packer.runBy .asMet oneByOne).sink =
        content (packer.runBy .backwards allAtOnce).sink := by
  obtain ⟨packer, fresh⟩ : ∃ packer : Packer MemorySink,
      new ⟨[]⟩ .timestamped = .ok packer := ⟨_, rfl⟩
  have packable : Packable .timestamped [⟨1, 7, ⟨0⟩, some 9⟩, ⟨2, 7, ⟨1⟩, some 4⟩] :=
    ⟨.inr rfl, by decide, by simp⟩
  have offers : Offers [⟨1, 7, ⟨0⟩, some 9⟩, ⟨2, 7, ⟨1⟩, some 4⟩] oneByOne :=
    ⟨[.write _, .write _], .drop, [], rfl, by decide, rfl, rfl⟩
  have offers' : Offers [⟨1, 7, ⟨0⟩, some 9⟩, ⟨2, 7, ⟨1⟩, some 4⟩] allAtOnce :=
    ⟨[.writeAll _], .finish, [.drop], rfl, by decide, rfl, rfl⟩
  have same := content_of_offers MemorySink.reliable MemorySink.reliable packable fresh fresh offers
    offers' .asMet .backwards
  exact ⟨packer, fresh, packable, offers, offers', same.1⟩

end Packer

end RatingArchive
