import RatingArchive.Index.Table
/-!
# The order of the keys

The slots of each side are noted in a map. A map hands out its entries in an order of its own, and
what it hands out is then sorted by key, by a sort that may exchange entries of one key. A
`Collation` is any such order with any such sort.

* `Collation.asMet` is the one that runs: keys in the order they were first met, sorted by merging.
-/

namespace RatingArchive

/-- The entries in ascending order of their keys. -/
def sortEntries (entries : List Entry) : List Entry :=
  entries.mergeSort fun a b => a.key ≤ b.key

theorem perm_sortEntries (entries : List Entry) : (sortEntries entries).Perm entries :=
  List.mergeSort_perm _ _

theorem pairwise_sortEntries (entries : List Entry) :
    (sortEntries entries).Pairwise fun a b => a.key ≤ b.key := by
  refine (List.pairwise_mergeSort ?_ ?_ entries).imp of_decide_eq_true
  · intro a b c ab bc
    exact decide_eq_true (UInt64.le_trans (of_decide_eq_true ab) (of_decide_eq_true bc))
  · intro a b
    simpa using UInt64.le_total a.key b.key

/-- How the entries of an index come into the order of their keys. -/
structure Collation where
  /-- The order in which the map of a side hands out its entries. -/
  enumerate : Side → List Entry → List Entry
  /-- How they are sorted by key. -/
  sort : List Entry → List Entry
  enumerate_perm : ∀ side entries, (enumerate side entries).Perm entries
  sort_perm : ∀ entries, (sort entries).Perm entries
  sort_ascending : ∀ entries, (sort entries).Pairwise fun a b => a.key ≤ b.key

namespace Collation

/-- The entries of a side as they are written. -/
def collate (collation : Collation) (side : Side) (entries : List Entry) : List Entry :=
  collation.sort (collation.enumerate side entries)

/-- Keys are handed out in the order they were first met, and their entries sorted by merging. -/
def asMet : Collation where
  enumerate _ entries := entries
  sort := sortEntries
  enumerate_perm _ _ := .refl _
  sort_perm := perm_sortEntries
  sort_ascending := pairwise_sortEntries

end Collation

end RatingArchive
