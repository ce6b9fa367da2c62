import RatingArchive.Proofs.CrashConsistency
/-!
# In which order keys are handed out

`Packer.runBy` is what becomes of a packer whose maps hand out their keys by some `Collation`. A map
has one entry for each key, so that there is one order to sort its entries into
(`Collation.collate_notes`). No step of a packer therefore depends on the collation, whether its
sink fails or not (`Packer.runBy_eq`).
-/

namespace RatingArchive

/-- Keys are handed out in the opposite order, and entries of one key are exchanged. -/
def Collation.backwards : Collation where
  enumerate _ entries := entries.reverse
  sort entries := sortEntries entries.reverse
  enumerate_perm _ entries := entries.reverse_perm
  sort_perm entries := (perm_sortEntries _).trans entries.reverse_perm
  sort_ascending entries := pairwise_sortEntries entries.reverse

namespace Packer

variable {σ : Type}

/-! ## Steps by a collation -/

section

variable [Sink σ]

/-- What becomes of a packer in some steps. -/
def runBy (collation : Collation) (packer : Packer σ) (steps : List Step) : Packer σ :=
  steps.foldl (fun packer step => stateAfter (step.runBy collation) packer) packer

theorem runBy_append (collation : Collation) (packer : Packer σ) (steps later : List Step) :
    packer.runBy collation (steps ++ later) =
      (packer.runBy collation steps).runBy collation later :=
  List.foldl_append

/-- If the archive is completed alike, then all steps are alike. -/
theorem runBy_eq_run_of_close {collation : Collation} {packer : Packer σ}
    (same : closeBy collation packer = close packer) (step : Step) :
    step.runBy collation packer = step.run packer := by
  cases step with
  | write rating => rfl
  | writeAll ratings => rfl
  | close => exact same
  | finish =>
    apply bind_congr_left
    show (if packer.closed = true then _ else closeBy collation >>= _ : Action σ σ) packer =
      (if packer.closed = true then _ else close >>= _ : Action σ σ) packer
    split
    · rfl
    · exact bind_congr_left same
  | drop =>
    show (if (!packer.closed) = true then tryCatch (closeBy collation) _ else _ :
        Action σ Unit) packer =
      (if (!packer.closed) = true then tryCatch close _ else _ : Action σ Unit) packer
    split
    · show EStateM.tryCatch (closeBy collation) _ packer = EStateM.tryCatch close _ packer
      simp only [EStateM.tryCatch, same]
    · rfl

end

/-! ## The collation makes no difference -/

variable [TransactionalSink σ] {start : σ} {format : Format} {accepted : List Rating}
  {packer : Packer σ}

theorem Gathers.finalizeBy_eq {written pending : List Rating} {closed : Bool}
    (h : Gathers start format written pending closed packer) (collation collation' : Collation) :
    finalizeBy collation packer = finalizeBy collation' packer := by
  show (writeIndex (collation.collate .user packer.users) >>= fun userIndexSize =>
      writeIndex (collation.collate .item packer.items) >>= _ : Action σ Unit) packer =
    (writeIndex (collation'.collate .user packer.users) >>= fun userIndexSize =>
      writeIndex (collation'.collate .item packer.items) >>= _ : Action σ Unit) packer
  rw [h.users_eq, h.items_eq]
  simp only [Collation.collate_notes]

theorem closeBy_eq_of_open (h : Open start format accepted packer)
    (collation collation' : Collation) :
    closeBy collation packer = closeBy collation' packer := by
  obtain ⟨written, records, closing⟩ := h.exists_closing
  have appending := ensures_forM_appendRecord closing.gathers closing.sorted
  rw [closeBy_of_open collation h.gathers.closed_eq, closeBy_of_open collation' h.gathers.closed_eq]
  apply bind_congr_right
  intro _ next found
  exact (appending.ok found).finalizeBy_eq collation collation'

/-- **No run depends on the collation**, wherever the sink fails. -/
theorem runBy_eq (opened : Open start format [] packer) (collation : Collation)
    (steps : List Step) : packer.runBy collation steps = (packer.run steps).packer := by
  induction steps using List.reverseRecOn with
  | nil => rfl
  | append_singleton steps step ih =>
    have same : closeBy collation (packer.run steps).packer = close (packer.run steps).packer := by
      cases tracks_run opened steps with
      | gathering opened never => exact closeBy_eq_of_open opened collation .asMet
      | completed packed ended attempted finished =>
        exact (closeBy_of_closed collation ended.closed_eq).trans
          (close_of_closed ended.closed_eq).symm
    rw [runBy_append, ih, run_append]
    show stateAfter (step.runBy collation) (packer.run steps).packer =
      stateAfter step.run (packer.run steps).packer
    rw [stateAfter, stateAfter, runBy_eq_run_of_close same]

end Packer

end RatingArchive
