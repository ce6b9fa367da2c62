import RatingArchive.Proofs.Records
import RatingArchive.Proofs.Packer.Completion
/-!
# Packing

A packer that was not closed is told by the ratings that it has accepted (`Packer.Open`). Every
operation keeps it open or ends it, and fails for no other cause than a rating that cannot be stored
or a sink that is not reliable.

* `pack_eq_ok_iff`: what packing a list of ratings gives, and when.
-/

namespace RatingArchive

open TransactionalSink (content)

/-- The archive of a list of ratings. -/
def archiveOf (format : Format) (ratings : List Rating) : Bytes :=
  (Image.ofRatings format (format.arranged ratings)).bytes

/-- Without timestamps, the image is that of the ratings as they are. -/
theorem Image.ofRatings_arranged_of_plain {format : Format} (plain : ¬format.hasTimestamps = true)
    (ratings : List Rating) :
    ofRatings format (format.arranged ratings) = ofRatings format ratings := by
  rw [Format.arranged, if_neg plain, ← Format.kept_of_plain plain, ofRatings_map_kept]

namespace Packer

variable {σ : Type} [TransactionalSink σ] {start : σ} {format : Format} {packer : Packer σ}
  {rating : Rating}

/-! ## Packers that are open -/

/-- A packer has accepted some ratings, and was not closed. -/
structure Open (start : σ) (format : Format) (accepted : List Rating) (packer : Packer σ) :
    Prop where
  gathers : Gathers start format (if format.hasTimestamps then [] else accepted)
    (if format.hasTimestamps then accepted else []) false packer
  admitted : ∀ rating ∈ accepted, format.Admits rating
  small : accepted.length ≤ maxRatings

variable {accepted : List Rating}

namespace Open

/-- An archive that is to be sorted has no records yet. -/
theorem gathers_of_stamped (h : Open start format accepted packer)
    (stamped : format.hasTimestamps = true) : Gathers start format [] accepted false packer := by
  have gathers := h.gathers
  rwa [if_pos stamped, if_pos stamped] at gathers

/-- No rating waits for an archive that is not. -/
theorem gathers_of_plain (h : Open start format accepted packer)
    (plain : ¬format.hasTimestamps = true) : Gathers start format accepted [] false packer := by
  have gathers := h.gathers
  rwa [if_neg plain, if_neg plain] at gathers

theorem of_stamped (stamped : format.hasTimestamps = true)
    (gathers : Gathers start format [] accepted false packer)
    (admitted : ∀ rating ∈ accepted, format.Admits rating) (small : accepted.length ≤ maxRatings) :
    Open start format accepted packer := by
  refine ⟨?_, admitted, small⟩
  rwa [if_pos stamped, if_pos stamped]

theorem of_plain (plain : ¬format.hasTimestamps = true)
    (gathers : Gathers start format accepted [] false packer)
    (admitted : ∀ rating ∈ accepted, format.Admits rating) (small : accepted.length ≤ maxRatings) :
    Open start format accepted packer := by
  refine ⟨?_, admitted, small⟩
  rwa [if_neg plain, if_neg plain]

theorem admitted_append (h : Open start format accepted packer) (admits : format.Admits rating) :
    ∀ other ∈ accepted ++ [rating], format.Admits other := by
  intro other mem
  rcases List.mem_append.1 mem with old | new
  · exact h.admitted other old
  · rwa [List.mem_singleton.1 new]

/-- What was reported makes no difference. -/
theorem reported (h : Open start format accepted packer) (timestampsDropped : Bool)
    (journal : List Event) :
    Open start format accepted { packer with timestampsDropped, journal } where
  gathers := h.gathers.reported timestampsDropped journal
  admitted := h.admitted
  small := h.small

theorem ratingCount_eq (h : Open start format accepted packer) :
    packer.ratingCount = accepted.length := by
  rw [ratingCount, h.gathers.count_eq, h.gathers.pending_eq]
  split <;> simp

end Open

/-- There is room for one more rating. -/
theorem length_append_le_maxRatings (room : accepted.length < maxRatings) :
    (accepted ++ [rating]).length ≤ maxRatings := by
  rw [List.length_append, List.length_singleton]
  omega

/-- A new packer has written zeros in place of the header, to a sink that was empty. -/
theorem new_eq_ok {sink : σ} (h : new sink format = .ok packer) :
    ∃ n next, content sink = [] ∧ Sink.append blankHeader sink = .ok n next ∧
      packer = ⟨next, format, 0, [], [], [], false, false, []⟩ := by
  unfold new at h
  split at h
  · cases h
  · next empty =>
    have none : content sink = [] := by
      rw [TransactionalSink.size_eq, not_not] at empty
      exact List.eq_nil_of_length_eq_zero empty
    cases appended : Sink.append blankHeader sink with
    | error failure next => rw [appended] at h; cases h
    | ok n next =>
      rw [appended] at h
      cases h
      exact ⟨n, next, none, rfl, rfl⟩

theorem content_of_new {sink : σ} (h : new sink format = .ok packer) :
    content packer.sink = blankHeader := by
  obtain ⟨n, next, none, appended, rfl⟩ := new_eq_ok h
  rw [TransactionalSink.append_ok appended, none, List.nil_append]

/-- A new packer is open, and has accepted nothing. -/
theorem open_of_new {sink : σ} (h : new sink format = .ok packer) :
    Open packer.sink format [] packer := by
  have blank := content_of_new h
  obtain ⟨n, next, -, -, rfl⟩ := new_eq_ok h
  refine ⟨?_, List.forall_mem_nil _, Nat.zero_le _⟩
  rw [ite_self]
  refine ⟨rfl, rfl, rfl, rfl, rfl, rfl, ?_, Passes.refl _⟩
  rw [Format.region_nil, List.append_nil]
  exact blank

/-- A rating waits if the archive is to be sorted. -/
theorem Open.hold (h : Open start format accepted packer) (stamped : format.hasTimestamps = true)
    (admits : format.Admits rating) (room : accepted.length < maxRatings) :
    Open start format (accepted ++ [rating])
      { packer with pending := packer.pending ++ [rating] } := by
  have gathers := h.gathers_of_stamped stamped
  refine .of_stamped stamped ?_ (h.admitted_append admits) (length_append_le_maxRatings room)
  exact { gathers with pending_eq := by rw [gathers.pending_eq] }

/-- Otherwise its record is written. -/
theorem Open.ensures_appendRecord (h : Open start format accepted packer)
    (plain : ¬format.hasTimestamps = true) (room : accepted.length < maxRatings) :
    Ensures (appendRecord rating) packer
      (fun _ next => Open start format (accepted ++ [rating]) next)
      (fun next => Open start format accepted next ∧ ¬Reliable σ) := by
  have admits : format.Admits rating := fun stamped => absurd stamped plain
  apply (Packer.ensures_appendRecord (h.gathers_of_plain plain) admits).mono
  · intro _ next wrote
    exact .of_plain plain wrote (h.admitted_append admits) (length_append_le_maxRatings room)
  · rintro next ⟨wrote, unreliable⟩
    exact ⟨.of_plain plain wrote h.admitted h.small, unreliable⟩

/-- **A rating is accepted**, or refused without a trace. -/
theorem ensures_write (h : Open start format accepted packer) :
    Ensures (write rating) packer
      (fun _ next => Open start format (accepted ++ [rating]) next)
      (fun next => Open start format accepted next ∧
        (¬format.Admits rating ∨ maxRatings ≤ accepted.length ∨ ¬Reliable σ)) := by
  have opened : ¬packer.closed = true := by simp [h.gathers.closed_eq]
  have same : packer.format.hasTimestamps = format.hasTimestamps := by rw [h.gathers.format_eq]
  unfold write
  apply Ensures.get_bind
  rw [if_neg opened, h.ratingCount_eq, same]
  by_cases full : maxRatings ≤ accepted.length
  · rw [if_pos full]
    exact Ensures.throw ⟨h, .inr (.inl full)⟩
  rw [if_neg full]
  have room : accepted.length < maxRatings := by omega
  by_cases stamped : format.hasTimestamps = true
  · rw [if_pos stamped]
    by_cases absent : rating.timestamp.isNone = true
    · rw [if_pos absent]
      refine Ensures.throw ⟨h, .inl ?_⟩
      intro admits
      have present := admits stamped
      simp [Option.isNone_iff_eq_none.1 absent] at present
    · rw [if_neg absent]
      apply Ensures.set
      apply h.hold stamped _ room
      intro _
      simpa [Option.isSome_iff_ne_none] using absent
  · rw [if_neg stamped]
    have refused (next : Packer σ) (failed : Open start format accepted next ∧ ¬Reliable σ) :
        Open start format accepted next ∧
          (¬format.Admits rating ∨ maxRatings ≤ accepted.length ∨ ¬Reliable σ) :=
      ⟨failed.1, .inr (.inr failed.2)⟩
    split
    · have reported := h.reported true (packer.journal ++ [.timestampsDropped])
      exact (reported.ensures_appendRecord stamped room).mono (fun _ _ wrote => wrote) refused
    · exact (h.ensures_appendRecord stamped room).mono (fun _ _ wrote => wrote) refused

/-- **Ratings are accepted in order**, all of them or those before one that is refused. -/
theorem ensures_writeAll {ratings : List Rating} (h : Open start format accepted packer) :
    Ensures (writeAll ratings) packer
      (fun _ next => Open start format (accepted ++ ratings) next)
      (fun _ => (∃ rating ∈ ratings, ¬format.Admits rating) ∨
        maxRatings < accepted.length + ratings.length ∨ ¬Reliable σ) := by
  induction ratings generalizing accepted packer with
  | nil =>
    apply Ensures.pure
    rwa [List.append_nil]
  | cons rating ratings ih =>
    show Ensures (write rating >>= fun _ => ratings.forM write) packer _ _
    rw [List.length_cons]
    apply (ensures_write h).andThen
    · rintro next ⟨-, refused | full | unreliable⟩
      · exact .inl ⟨rating, List.mem_cons_self .., refused⟩
      · exact .inr (.inl (by omega))
      · exact .inr (.inr unreliable)
    · intro _ next written
      apply (ih written).mono
      · intro _ last all
        rwa [List.append_assoc] at all
      · intro last failed
        rw [List.length_append, List.length_singleton] at failed
        rcases failed with ⟨other, mem, refused⟩ | full | unreliable
        · exact .inl ⟨other, List.mem_cons_of_mem _ mem, refused⟩
        · exact .inr (.inl (by omega))
        · exact .inr (.inr unreliable)

theorem closeBy_of_open (collation : Collation) (h : packer.closed = false) :
    closeBy collation packer =
      completeBy collation packer.pending { packer with closed := true, pending := [] } := by
  show (if packer.closed = true then _ else _ : Action σ Unit) packer = _
  rw [h]
  rfl

/-- What closing has to complete: the records that were written, and those of the ratings that wait
behind them, are the records of the archive. -/
structure Closing (start : σ) (format : Format) (accepted written records : List Rating)
    (packer : Packer σ) : Prop where
  gathers : Gathers start format written [] true { packer with closed := true, pending := [] }
  arranged : written ++ packer.pending.mergeSort Rating.notLater = records
  admitted : ∀ rating ∈ packer.pending, format.Admits rating
  small : records.length ≤ maxRatings
  image_eq : Image.ofRatings format records = Image.ofRatings format (format.arranged accepted)

theorem Closing.sorted {written records : List Rating}
    (h : Closing start format accepted written records packer) :
    ∀ rating ∈ packer.pending.mergeSort Rating.notLater, format.Admits rating :=
  fun rating mem => h.admitted rating (List.mem_mergeSort.1 mem)

theorem Open.exists_closing (h : Open start format accepted packer) :
    ∃ written records, Closing start format accepted written records packer := by
  by_cases stamped : format.hasTimestamps = true
  · have gathers := h.gathers_of_stamped stamped
    refine ⟨[], format.arranged accepted, gathers.close, ?_, ?_, ?_, rfl⟩
    · rw [gathers.pending_eq, Format.arranged, if_pos stamped, List.nil_append]
    · rw [gathers.pending_eq]
      exact h.admitted
    · rw [Format.length_arranged]
      exact h.small
  · have gathers := h.gathers_of_plain stamped
    refine ⟨accepted, accepted, gathers.close, ?_, ?_, h.small,
      (Image.ofRatings_arranged_of_plain stamped accepted).symm⟩
    · rw [gathers.pending_eq, List.mergeSort_nil, List.append_nil]
    · rw [gathers.pending_eq]
      exact List.forall_mem_nil _

/-- **Closing an open packer** finishes the archive of what was accepted. -/
theorem ensures_close (h : Open start format accepted packer) :
    Ensures close packer
      (fun _ next => Ended start (archiveOf format accepted) next ∧
        content next.sink = archiveOf format accepted)
      (fun next => Ended start (archiveOf format accepted) next ∧ ¬Reliable σ) := by
  obtain ⟨written, records, closing⟩ := h.exists_closing
  refine (Ensures.of_eq (closeBy_of_open .asMet h.gathers.closed_eq)).2 ?_
  rw [archiveOf, ← closing.image_eq]
  exact ensures_completeBy .asMet closing.gathers closing.arranged closing.admitted closing.small

theorem ensures_finish (h : Open start format accepted packer) :
    Ensures finish packer
      (fun sink next => sink = next.sink ∧ Ended start (archiveOf format accepted) next ∧
        content next.sink = archiveOf format accepted)
      (fun next => Ended start (archiveOf format accepted) next ∧ ¬Reliable σ) := by
  unfold finish finishBy
  apply Ensures.get_bind
  rw [h.gathers.closed_eq]
  refine (ensures_close h).andThen (fun _ failed => failed) ?_
  intro _ next done
  exact ⟨rfl, done⟩

/-- Nothing but the ratings keeps a buffer in memory from being packed. -/
theorem ensures_writeAll_finish {start : MemorySink} {packer : Packer MemorySink}
    (h : Open start format [] packer) (ratings : List Rating) :
    Ensures (do writeAll ratings; finish) packer
      (fun sink _ => ratings.length ≤ maxRatings ∧ (∀ rating ∈ ratings, format.Admits rating) ∧
        sink.content = archiveOf format ratings)
      (fun _ => ¬(ratings.length ≤ maxRatings ∧ ∀ rating ∈ ratings, format.Admits rating)) := by
  apply (ensures_writeAll h).andThen
  · rintro next (⟨rating, mem, refused⟩ | full | unreliable) ⟨small, admitted⟩
    · exact refused (admitted rating mem)
    · rw [List.length_nil] at full
      omega
    · exact unreliable MemorySink.reliable
  · intro _ next all
    rw [List.nil_append] at all
    apply (ensures_finish all).mono
    · rintro sink last ⟨rfl, -, whole⟩
      exact ⟨all.small, all.admitted, whole⟩
    · intro last failed
      exact absurd MemorySink.reliable failed.2

end Packer

/-! ## Packing a list -/

/-- **What packing gives**: the archive of the ratings, if there are not too many and each can be
stored. -/
theorem pack_eq_ok_iff {ratings : List Rating} {format : Format} {bytes : Bytes} :
    pack ratings format = .ok bytes ↔
      ratings.length ≤ maxRatings ∧ (∀ rating ∈ ratings, format.Admits rating) ∧
        bytes = archiveOf format ratings := by
  obtain ⟨packer, fresh⟩ : ∃ packer, Packer.new (⟨[]⟩ : MemorySink) format = .ok packer :=
    ⟨_, rfl⟩
  have packed := Packer.ensures_writeAll_finish (Packer.open_of_new fresh) ratings
  unfold pack packLogged
  simp only [fresh, EStateM.run]
  split
  · next sink last found =>
    obtain ⟨small, admitted, whole⟩ := packed.ok found
    constructor
    · intro same
      cases same
      exact ⟨small, admitted, whole⟩
    · rintro ⟨-, -, rfl⟩
      rw [whole]
  · next error last found =>
    have refused := packed.error found
    constructor
    · intro same
      split at same <;> cases same
    · rintro ⟨small, admitted, -⟩
      exact absurd ⟨small, admitted⟩ refused

end RatingArchive
