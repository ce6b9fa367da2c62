import Mathlib.Data.List.Sort
import RatingArchive.Index.Table
import RatingArchive.Proofs.Search
/-!
# Ordered index tables

A table is `Ordered` if its keys ascend strictly, and so do the slots of every key, of which there
is at least one. Such a table says no more than which slots it lists under which keys: two ordered
tables that `Lists` relates alike are equal (`Ordered.eq_of_lists`). Statements about tables are
therefore statements about `Lists`.

* `entry?_eq_some_iff`: halving finds the entry of a key, if there is one.
* `Ordered.below`, `lists_below`: cutting a table at a limit keeps it ordered, and keeps the slots
  below the limit.
* `checkSlots_eq_ok_iff`: the last slots of ordered runs decide whether all slots are below a limit.
-/

namespace RatingArchive

/-- A list of entries has `slot` among the slots of `key`. -/
def Lists (entries : List Entry) (key : UInt64) (slot : UInt32) : Prop :=
  ∃ entry ∈ entries, entry.key = key ∧ slot ∈ entry.slots

/-- The slots of a key ascend strictly, and there is one. -/
structure Entry.Ascends (entry : Entry) : Prop where
  nonempty : entry.slots ≠ []
  ascending : entry.slots.Pairwise (· < ·)

/-- Keys ascend strictly, and so do the slots of each. -/
structure Ordered (entries : List Entry) : Prop where
  keys : entries.Pairwise fun a b => a.key < b.key
  runs : ∀ entry ∈ entries, entry.Ascends

theorem not_lists_nil {key : UInt64} {slot : UInt32} : ¬Lists [] key slot := by
  rintro ⟨entry, none, -⟩
  exact List.not_mem_nil none

theorem lists_cons {entry : Entry} {entries : List Entry} {key : UInt64} {slot : UInt32} :
    Lists (entry :: entries) key slot ↔
      (entry.key = key ∧ slot ∈ entry.slots) ∨ Lists entries key slot := by
  simp only [Lists, List.mem_cons, exists_eq_or_imp]

theorem lists_of_perm {entries others : List Entry} (perm : entries.Perm others) {key : UInt64}
    {slot : UInt32} : Lists entries key slot ↔ Lists others key slot := by
  simp only [Lists, perm.mem_iff]

namespace Ordered

variable {entries others : List Entry}

protected theorem take (h : Ordered entries) (i : Nat) : Ordered (entries.take i) where
  keys := h.keys.sublist (List.take_sublist ..)
  runs entry mem := h.runs entry (List.mem_of_mem_take mem)

/-- The keys before an entry are smaller than its own. -/
theorem lt_getElem (h : Ordered entries) {i : Nat} (inside : i < entries.length) {entry : Entry}
    (mem : entry ∈ entries.take i) : entry.key < entries[i].key := by
  obtain ⟨j, hj, rfl⟩ := List.mem_take_iff_getElem.1 mem
  exact List.pairwise_iff_getElem.1 h.keys j i _ inside (by omega)

theorem nodup_keys (h : Ordered entries) : (entries.map Entry.key).Nodup :=
  List.pairwise_map.2 (h.keys.imp fun lt => UInt64.ne_of_lt lt)

theorem eq_of_key_eq (h : Ordered entries) {a b : Entry} (ha : a ∈ entries) (hb : b ∈ entries)
    (same : a.key = b.key) : a = b :=
  List.inj_on_of_nodup_map h.nodup_keys ha hb same

/-- What is listed under the key of an entry are its slots. -/
theorem lists_key_iff (h : Ordered entries) {entry : Entry} (mem : entry ∈ entries)
    {slot : UInt32} : Lists entries entry.key slot ↔ slot ∈ entry.slots := by
  constructor
  · rintro ⟨other, hother, same, hslot⟩
    rwa [← h.eq_of_key_eq hother mem same]
  · exact fun hslot => ⟨entry, mem, rfl, hslot⟩

theorem mem_of_lists (h : Ordered entries) (h' : Ordered others)
    (same : ∀ key slot, Lists entries key slot ↔ Lists others key slot) {entry : Entry}
    (mem : entry ∈ entries) : entry ∈ others := by
  obtain ⟨slot, hslot⟩ := List.exists_mem_of_ne_nil _ (h.runs entry mem).nonempty
  obtain ⟨other, hother, keys, -⟩ := (same _ _).1 ⟨entry, mem, rfl, hslot⟩
  have slots : entry.slots = other.slots := by
    apply (h.runs entry mem).ascending.eq_of_mem_iff (h'.runs other hother).ascending
    intro s
    rw [← h.lists_key_iff mem, ← h'.lists_key_iff hother, keys, same]
  obtain ⟨key, run⟩ := entry
  obtain ⟨otherKey, otherRun⟩ := other
  simp only at keys slots
  rwa [← keys, slots]

/-- **An ordered table is determined by what it lists.** -/
theorem eq_of_lists (h : Ordered entries) (h' : Ordered others)
    (same : ∀ key slot, Lists entries key slot ↔ Lists others key slot) : entries = others := by
  have irrefl : Std.Irrefl fun a b : Entry => a.key < b.key := ⟨fun a => UInt64.lt_irrefl a.key⟩
  have antisymm : Std.Antisymm fun a b : Entry => a.key < b.key :=
    ⟨fun a b ab ba => (UInt64.lt_asymm ab ba).elim⟩
  apply h.keys.eq_of_mem_iff h'.keys
  intro entry
  constructor
  · exact h.mem_of_lists h' same
  · exact h'.mem_of_lists h fun key slot => (same key slot).symm

/-- If every slot is listed under one key at most, no slot is listed twice. -/
theorem nodup_slots (h : Ordered entries)
    (single : ∀ a b slot, Lists entries a slot → Lists entries b slot → a = b) :
    (entries.flatMap (·.slots)).Nodup := by
  rw [List.nodup_flatMap]
  constructor
  · intro entry mem
    exact (h.runs entry mem).ascending.imp fun lt => UInt32.ne_of_lt lt
  apply h.keys.imp_of_mem
  intro a b ha hb lt
  apply List.disjoint_left.2
  intro slot inA inB
  exact UInt64.ne_of_lt lt (single a.key b.key slot ⟨a, ha, rfl, inA⟩ ⟨b, hb, rfl, inB⟩)

end Ordered

/-! ## Looking up a key -/

section

variable {table : IndexTable} {key : UInt64}

/-- Keys that ascend can be searched. -/
theorem Ordered.descends {entries : List Entry} (h : Ordered entries) (key : UInt64) :
    Descends fun i : Fin entries.length => compare key entries[i].key := by
  have mono (i j : Fin entries.length) (le : i ≤ j) : entries[i].key ≤ entries[j].key := by
    rcases Nat.lt_or_eq_of_le (Fin.le_def.1 le) with lt | eq
    · exact UInt64.le_of_lt (List.pairwise_iff_getElem.1 h.keys i.val j.val i.isLt j.isLt lt)
    · rw [show i = j from Fin.ext eq]
      exact UInt64.le_refl _
  constructor
  · intro i j le greater
    rw [Std.compare_eq_gt] at greater ⊢
    exact UInt64.lt_of_le_of_lt (mono i j le) greater
  · intro i j le less
    rw [Std.compare_eq_lt] at less ⊢
    exact UInt64.lt_of_lt_of_le less (mono i j le)

/-- A key that is found is that of the entry. -/
theorem getElem?_of_find_eq_found (h : Ordered table.entries) {i : Nat}
    (found : table.find key = .found i) :
    ∃ entry, table.entries[i]? = some entry ∧ entry.key = key := by
  obtain ⟨inside, equal⟩ := search_eq_found (h.descends key) found
  refine ⟨table.entries[i], List.getElem?_eq_getElem inside, ?_⟩
  exact (Std.LawfulEqOrd.eq_of_compare equal).symm

/-- **Looking up a key** gives its entry. -/
theorem entry?_eq_some_iff (h : Ordered table.entries) {entry : Entry} :
    table.entry? key = some entry ↔ entry ∈ table.entries ∧ entry.key = key := by
  unfold IndexTable.entry?
  constructor
  · intro found
    split at found
    · next i hit =>
      obtain ⟨other, place, same⟩ := getElem?_of_find_eq_found h hit
      cases place.symm.trans found
      exact ⟨List.mem_of_getElem? place, same⟩
    · cases found
  · rintro ⟨mem, rfl⟩
    obtain ⟨j, inside, rfl⟩ := List.getElem_of_mem mem
    obtain ⟨i, hit⟩ := exists_search_eq_found (h.descends table.entries[j].key)
      (j := ⟨j, inside⟩) Std.compare_self
    obtain ⟨other, place, same⟩ := getElem?_of_find_eq_found h hit
    have hit : table.find table.entries[j].key = .found i := hit
    simp only [hit]
    rw [place, h.eq_of_key_eq (List.mem_of_getElem? place) mem same]

theorem slots?_eq_some_iff (h : Ordered table.entries) {slots : List UInt32} :
    table.slots? key = some slots ↔ ⟨key, slots⟩ ∈ table.entries := by
  unfold IndexTable.slots?
  rw [Option.map_eq_some_iff]
  constructor
  · rintro ⟨entry, found, rfl⟩
    obtain ⟨mem, rfl⟩ := (entry?_eq_some_iff h).1 found
    exact mem
  · intro mem
    exact ⟨_, (entry?_eq_some_iff h).2 ⟨mem, rfl⟩, rfl⟩

/-- A key has slots if it is one of the table. -/
theorem slots?_eq_none_iff (h : Ordered table.entries) :
    table.slots? key = none ↔ key ∉ table.keys := by
  rw [Option.eq_none_iff_forall_ne_some, IndexTable.keys, List.mem_map]
  constructor
  · rintro missing ⟨entry, mem, rfl⟩
    exact missing entry.slots ((slots?_eq_some_iff h).2 mem)
  · intro missing slots found
    exact missing ⟨_, (slots?_eq_some_iff h).1 found, rfl⟩

end

/-! ## Cutting a table -/

theorem below_slots {entry : Entry} (h : entry.slots.Pairwise (· < ·)) (limit : UInt32) :
    (entry.below limit).slots = entry.slots.filter (· < limit) := by
  apply take_lowerBound
  · intro i
    rw [Std.compare_eq_gt]
    simp
  · apply h.imp
    intro a b lt kept
    simp only [decide_eq_true_eq] at kept ⊢
    exact UInt32.lt_trans lt kept

theorem mem_below {table : IndexTable} {limit : UInt32} {entry : Entry} :
    entry ∈ (table.below limit).entries ↔
      (∃ whole ∈ table.entries, whole.below limit = entry) ∧ entry.slots ≠ [] := by
  simp [IndexTable.below, List.mem_filter]

/-- A cut table lists what the table lists below the limit. -/
theorem lists_below {table : IndexTable} (h : Ordered table.entries) {limit : UInt32}
    {key : UInt64} {slot : UInt32} :
    Lists (table.below limit).entries key slot ↔ Lists table.entries key slot ∧ slot < limit := by
  constructor
  · rintro ⟨entry, mem, rfl, hslot⟩
    obtain ⟨⟨whole, hwhole, rfl⟩, -⟩ := mem_below.1 mem
    rw [below_slots (h.runs whole hwhole).ascending, List.mem_filter] at hslot
    exact ⟨⟨whole, hwhole, rfl, hslot.1⟩, by simpa using hslot.2⟩
  · rintro ⟨⟨whole, hwhole, rfl, hslot⟩, lt⟩
    have kept : slot ∈ (whole.below limit).slots := by
      rw [below_slots (h.runs whole hwhole).ascending, List.mem_filter]
      exact ⟨hslot, by simpa using lt⟩
    exact ⟨whole.below limit, mem_below.2 ⟨⟨whole, hwhole, rfl⟩, List.ne_nil_of_mem kept⟩, rfl,
      kept⟩

/-- A cut table is ordered. -/
theorem Ordered.below {table : IndexTable} (h : Ordered table.entries) (limit : UInt32) :
    Ordered (table.below limit).entries where
  keys := by
    refine List.Pairwise.filter _ (List.pairwise_map.2 ?_)
    exact h.keys
  runs entry mem := by
    obtain ⟨⟨whole, hwhole, rfl⟩, nonempty⟩ := mem_below.1 mem
    refine ⟨nonempty, ?_⟩
    rw [below_slots (h.runs whole hwhole).ascending]
    exact (h.runs whole hwhole).ascending.filter _

/-! ## Bounds on slots -/

theorem Entry.Ascends.le_getLast {entry : Entry} (h : entry.Ascends) {slot : UInt32}
    (mem : slot ∈ entry.slots) : slot ≤ entry.slots.getLast h.nonempty := by
  have split := List.dropLast_append_getLast h.nonempty
  have ascending := h.ascending
  rw [← split] at mem ascending
  rcases List.mem_append.1 mem with front | last
  · exact UInt32.le_of_lt
      ((List.pairwise_append.1 ascending).2.2 slot front _ (List.mem_singleton_self _))
  · rw [List.mem_singleton.1 last]
    exact UInt32.le_refl _

theorem bind_eq_ok_iff {α β : Type} {x : Except Error α} {f : α → Except Error β} {b : β} :
    (x >>= f) = .ok b ↔ ∃ a, x = .ok a ∧ f a = .ok b := by
  cases x <;> simp [bind, Except.bind]

/-- What stands behind a check is done if the check passes. -/
theorem check_bind_eq_ok_iff {β : Type} {check : Except Error Unit} {f : Unit → Except Error β}
    {b : β} : (check >>= f) = .ok b ↔ check = .ok () ∧ f () = .ok b := by
  cases check <;> simp [bind, Except.bind]

/-- A check in front of others fails, or one of these does. -/
theorem error_of_check_bind {α : Type} {check : Except Error Unit} {next : Except Error α}
    {error : Error} (failed : (check >>= fun _ => next) = .error error) :
    check = .error error ∨ next = .error error := by
  cases check with
  | error first =>
    cases failed
    exact .inl rfl
  | ok _ => exact .inr failed

/-- A list of checks passes if and only if every one does. -/
theorem forM_eq_ok_iff {α : Type} {check : α → Except Error Unit} {xs : List α} :
    xs.forM check = .ok () ↔ ∀ x ∈ xs, check x = .ok () := by
  induction xs with
  | nil => simp [pure, Except.pure]
  | cons x xs ih =>
    rw [List.forall_mem_cons, ← ih]
    show (check x >>= fun _ => xs.forM check) = .ok () ↔ _
    cases check x <;> simp [bind, Except.bind]

/-- A list of checks that fails does so at one of them. -/
theorem error_of_forM {α : Type} {check : α → Except Error Unit} {xs : List α} {error : Error}
    (failed : xs.forM check = .error error) : ∃ x ∈ xs, check x = .error error := by
  induction xs with
  | nil => cases failed
  | cons x xs ih =>
    have bound : (check x >>= fun _ => xs.forM check) = .error error := failed
    rcases error_of_check_bind bound with first | later
    · exact ⟨x, List.mem_cons_self .., first⟩
    · obtain ⟨y, mem, found⟩ := ih later
      exact ⟨y, List.mem_cons_of_mem _ mem, found⟩

/-- The last slots of ordered runs decide whether all slots are below a limit. -/
theorem checkSlots_eq_ok_iff {table : IndexTable} (h : Ordered table.entries) (limit : UInt32) :
    table.checkSlots limit = .ok () ↔ ∀ key slot, Lists table.entries key slot → slot < limit := by
  have last (entry : Entry) (mem : entry ∈ table.entries) :
      entry.slots.getLast? = some (entry.slots.getLast (h.runs entry mem).nonempty) :=
    List.getLast?_eq_some_getLast _
  rw [IndexTable.checkSlots, forM_eq_ok_iff]
  constructor
  · rintro checked key slot ⟨entry, mem, rfl, hslot⟩
    have := checked entry mem
    rw [last entry mem] at this
    simp only [ite_eq_right_iff, reduceCtorEq, imp_false, UInt32.not_le] at this
    exact UInt32.lt_of_le_of_lt ((h.runs entry mem).le_getLast hslot) this
  · intro below entry mem
    have := below entry.key _ ⟨entry, mem, rfl, List.getLast_mem (h.runs entry mem).nonempty⟩
    rw [last entry mem]
    simp only [ite_eq_right_iff, reduceCtorEq, imp_false, UInt32.not_le]
    exact this

end RatingArchive
