import RatingArchive.Archive.Query
/-!
# Walking through a collection

Who walks through a collection is at a place in it, and each step yields the next item, if there is
one, and a place behind it. `Walks` says that the items of a list are yielded in this way, one after
the other, that nothing is yielded behind them, and that the number of those to come is known at
every place on the way.

It suffices to know what is still to come at a place, and that a step takes the first item off it
(`walks_of_step`). So it is for the entries of a table (`IndexTable.walks_start`) and for the groups
of an archive (`Archive.walks_startGroups`).
-/

namespace RatingArchive

section

variable {σ α : Type}

/-- The place after `n` steps. -/
def placeAfter (next : σ → Option α × σ) : (n : Nat) → σ → σ
  | 0, place => place
  | n + 1, place => placeAfter next n (next place).2

/-- Steps from a place yield `items`, and nothing behind them. -/
structure Walks (next : σ → Option α × σ) (remaining : σ → Nat) (place : σ) (items : List α) :
    Prop where
  yields : ∀ n, (next (placeAfter next n place)).1 = items[n]?
  remaining : ∀ n, remaining (placeAfter next n place) = items.length - n

variable {next : σ → Option α × σ} {remaining : σ → Nat} {place : σ} {items : List α}

/-- After some steps, the items behind the first ones are to come. -/
theorem ahead_placeAfter {ahead : σ → List α → Prop}
    (step : ∀ place items, ahead place items → ahead (next place).2 items.tail)
    (here : ahead place items) (n : Nat) : ahead (placeAfter next n place) (items.drop n) := by
  induction n generalizing place items with
  | zero => exact here
  | succ n ih =>
    have later := ih (step place items here)
    rwa [List.drop_tail] at later

/-- **A walk yields what is ahead**, if every step takes the first item off it. -/
theorem walks_of_step (ahead : σ → List α → Prop)
    (count : ∀ place items, ahead place items → remaining place = items.length)
    (step : ∀ place items, ahead place items →
      (next place).1 = items.head? ∧ ahead (next place).2 items.tail)
    (here : ahead place items) : Walks next remaining place items := by
  have later (n : Nat) : ahead (placeAfter next n place) (items.drop n) :=
    ahead_placeAfter (fun place items here => (step place items here).2) here n
  constructor
  · intro n
    rw [(step _ _ (later n)).1, List.head?_drop]
  · intro n
    rw [count _ _ (later n), List.length_drop]

end

namespace IndexTable

/-- The entries that are still to come. -/
def Cursor.ahead (cursor : Cursor) : List Entry := cursor.table.entries.drop cursor.passed

theorem Cursor.remaining_eq (cursor : Cursor) : cursor.remaining = cursor.ahead.length :=
  List.length_drop.symm

/-- **One step** takes the first entry off those to come. -/
theorem Cursor.next_eq (cursor : Cursor) :
    cursor.next.1 = cursor.ahead.head? ∧ cursor.next.2.ahead = cursor.ahead.tail := by
  rw [ahead, List.head?_drop, List.tail_drop, next]
  cases place : cursor.table.entries[cursor.passed]? with
  | some entry => exact ⟨rfl, rfl⟩
  | none =>
    have past := List.getElem?_eq_none_iff.1 place
    refine ⟨rfl, ?_⟩
    rw [ahead, List.drop_eq_nil_of_le past, List.drop_eq_nil_of_le (Nat.le_succ_of_le past)]

/-- **Walking through a table** yields its entries. -/
theorem walks_start (table : IndexTable) :
    Walks Cursor.next Cursor.remaining table.start table.entries := by
  apply walks_of_step fun cursor entries => cursor.ahead = entries
  · rintro cursor _ rfl
    exact cursor.remaining_eq
  · rintro cursor _ rfl
    exact cursor.next_eq
  · rfl

end IndexTable

/-- **Walking through the groups** of an archive yields those of its entries. -/
theorem Archive.walks_startGroups (archive : Archive) (side : Side) :
    Walks GroupCursor.next GroupCursor.remaining (archive.startGroups side)
      (archive.groups side) := by
  apply walks_of_step fun cursor groups => cursor.archive = archive ∧ cursor.side = side ∧
    cursor.entries.ahead.map (archive.groupOf side) = groups
  · rintro cursor _ ⟨rfl, rfl, rfl⟩
    rw [GroupCursor.remaining, cursor.entries.remaining_eq, List.length_map]
  · rintro cursor _ ⟨rfl, rfl, rfl⟩
    obtain ⟨first, rest⟩ := cursor.entries.next_eq
    rw [List.head?_map, ← List.map_tail, ← first, ← rest]
    exact ⟨rfl, rfl, rfl, rfl⟩
  · exact ⟨rfl, rfl, rfl⟩

end RatingArchive
