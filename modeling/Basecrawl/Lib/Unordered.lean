/-
  Hash tables, and what can be seen of the order they are visited in.

  A `Table` has one value for a key and no order; a `Traversal` is one way to visit every table.
  What is selected from a visit is the same for all traversals exactly when it is at most one item
  (`selection_stable_iff`): any two items have a traversal that swaps them.
-/
import Mathlib.Data.List.AList

namespace Basecrawl.Unordered

variable {κ α β : Type}

/-- `HashMap<K, V>`. -/
abbrev Table (κ α : Type) := AList fun _ : κ => α

namespace Table

/-- The entries, in an order that does not matter. -/
def pairs (table : Table κ α) : List (κ × α) := table.entries.map fun entry => (entry.1, entry.2)

/-- The entries one after the other; the last one of a key stays. -/
def collect [DecidableEq κ] (entries : List (κ × α)) : Table κ α :=
  entries.foldl (fun table entry => table.insert entry.1 entry.2) ∅

end Table

/-- An order of iteration for every table. -/
structure Traversal (κ α : Type) where
  visit : Table κ α → List (κ × α)
  perm : ∀ table, (visit table).Perm table.pairs

namespace Traversal

def forward : Traversal κ α where
  visit := Table.pairs
  perm := fun table => .refl table.pairs

def backward : Traversal κ α where
  visit := fun table => table.pairs.reverse
  perm := fun table => List.reverse_perm table.pairs

/-- Two traversals visit the same entries. -/
theorem visit_perm (t u : Traversal κ α) (table : Table κ α) :
    (t.visit table).Perm (u.visit table) :=
  (t.perm table).trans (u.perm table).symm

end Traversal

/-! ## What can be seen of the order -/

/-- Different items that read the same backwards are at most one. -/
theorem length_le_one_of_reverse {items : List β} (hnodup : items.Nodup)
    (h : items.reverse = items) : items.length ≤ 1 := by
  cases items with
  | nil => exact Nat.zero_le 1
  | cons item rest =>
    cases hlast : rest.getLast? with
    | none =>
      rw [List.getLast?_eq_none_iff] at hlast
      rw [hlast]
      exact Nat.le_refl 1
    | some last =>
      have hhead : (item :: rest).reverse.head? = some last := by
        rw [List.head?_reverse, List.getLast?_cons, hlast]
        rfl
      rw [h] at hhead
      have hmem := List.mem_of_getLast? hlast
      rw [← Option.some.inj hhead] at hmem
      exact absurd hmem (List.nodup_cons.mp hnodup).1

/-- One item has one order. -/
theorem eq_of_perm_of_length_le_one {xs ys : List β} (h : xs.Perm ys) (hlen : ys.length ≤ 1) :
    xs = ys := by
  cases ys with
  | nil => exact h.eq_nil
  | cons y rest =>
    have hrest : rest = [] := List.length_eq_zero_iff.mp (by rw [List.length_cons] at hlen; omega)
    subst hrest
    exact List.perm_singleton.mp h

/-- **The order of iteration cannot be seen in a selection exactly when at most one entry is
selected**, as long as selected entries differ. -/
theorem selection_stable_iff {select : κ × α → Option β} {table : Table κ α}
    (hnodup : (table.pairs.filterMap select).Nodup) :
    (∀ t u : Traversal κ α, (t.visit table).filterMap select = (u.visit table).filterMap select) ↔
      (table.pairs.filterMap select).length ≤ 1 := by
  constructor
  · intro hsame
    have hreverse := hsame .backward .forward
    simp only [Traversal.backward, Traversal.forward, List.filterMap_reverse] at hreverse
    exact length_le_one_of_reverse hnodup hreverse
  · intro hlen t u
    have hstored : ∀ t : Traversal κ α,
        (t.visit table).filterMap select = table.pairs.filterMap select := fun t =>
      eq_of_perm_of_length_le_one ((t.perm table).filterMap select) hlen
    rw [hstored t, hstored u]

end Basecrawl.Unordered
