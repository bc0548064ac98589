/-
  Shuffling, and reading tables in a shuffled order.

  `shuffle` is the shuffle of Fisher and Yates with any generator for its draws.  As long as a draw
  stays below its bound, no index is out of range and nothing is lost or repeated (`shuffle_perm`).
  Tables that are read in one shuffled order stay permutations of themselves, row by row
  (`mapM_index_perm`, `mapM_index_map`).
-/
import Basecrawl.Lib.Panic

namespace Basecrawl.Shuffle

open Outcome Panic

variable {α β ε σ : Type}

/-! ## The shuffle -/

/-- `items.swap(i, j)`. -/
def swap (items : Array α) (i j : Nat) : Checked ε (Array α) :=
  if h : i < items.size ∧ j < items.size then .ok (items.swap i j h.1 h.2) else .error .panic

/-- The loop from place `i` down to 1. -/
def shuffle (draw : Nat → σ → Nat × σ) : Nat → σ → Array α → Checked ε (Array α)
  | 0, _, items => .ok items
  | i + 1, s, items => do
    let drawn := draw (i + 2) s
    let items ← swap items (i + 1) drawn.1
    shuffle draw i drawn.2 items

/-- A generator that keeps below the bound. -/
def Bounded (draw : Nat → σ → Nat × σ) : Prop := ∀ bound s, 0 < bound → (draw bound s).1 < bound

theorem swap_ok {items : Array α} {i j : Nat} (hi : i < items.size) (hj : j < items.size) :
    ∃ items', (swap items i j : Checked ε (Array α)) = .ok items' ∧
      items'.toList.Perm items.toList ∧ items'.size = items.size := by
  refine ⟨items.swap i j hi hj, dif_pos ⟨hi, hj⟩, ?_, Array.size_swap ..⟩
  exact Array.perm_iff_toList_perm.mp (Array.swap_perm hi hj)

/-- **The shuffle permutes**, whatever is drawn. -/
theorem shuffle_perm {draw : Nat → σ → Nat × σ} (hdraw : Bounded draw) :
    ∀ {i : Nat} (s : σ) {items : Array α}, (i = 0 ∨ i < items.size) →
      ∃ items', (shuffle draw i s items : Checked ε (Array α)) = .ok items' ∧
        items'.toList.Perm items.toList
  | 0, _, items, _ => ⟨items, rfl, .refl _⟩
  | i + 1, s, items, h => by
    have hi : i + 1 < items.size := h.resolve_left (Nat.succ_ne_zero i)
    have hj : (draw (i + 2) s).1 < items.size :=
      Nat.lt_of_lt_of_le (hdraw (i + 2) s (Nat.succ_pos _)) hi
    obtain ⟨swapped, hswap, hperm, hsize⟩ := swap_ok (ε := ε) hi hj
    obtain ⟨items', hrest, hperm'⟩ := @shuffle_perm draw hdraw i (draw (i + 2) s).2 swapped
      (.inr (by omega))
    exact ⟨items', by rw [shuffle, hswap, ok_bind, hrest], hperm'.trans hperm⟩

/-! ## Tables -/

/-- What is read in an order. -/
theorem mapM_index {table : List α} {order : List Nat} (h : ∀ i ∈ order, i < table.length) :
    ∃ read, (order.mapM (index table) : Checked ε (List α)) = .ok read ∧
      read.map some = order.map fun i => table[i]? := by
  induction order with
  | nil => exact ⟨[], rfl, rfl⟩
  | cons i order ih =>
    obtain ⟨hi, horder⟩ := List.forall_mem_cons.mp h
    obtain ⟨read, hread, hrows⟩ := ih horder
    refine ⟨table[i] :: read, ?_, ?_⟩
    · rw [List.mapM_cons, index_eq hi, ok_bind, hread, ok_bind]
      rfl
    · rw [List.map_cons, List.map_cons, hrows, List.getElem?_eq_getElem hi]

theorem map_range_getElem? (table : List α) :
    (List.range table.length).map (fun i => table[i]?) = table.map some := by
  refine List.ext_getElem (by simp) fun i hi hi' => ?_
  simp only [List.length_map, List.length_range] at hi
  simp [hi]

/-- **A table in a shuffled order** is a permutation of the table. -/
theorem mapM_index_perm {table : List α} {order : List Nat}
    (h : order.Perm (List.range table.length)) :
    ∃ read, (order.mapM (index table) : Checked ε (List α)) = .ok read ∧ read.Perm table := by
  obtain ⟨read, hread, hrows⟩ := mapM_index (ε := ε) fun i hi =>
    (List.mem_range.mp (h.mem_iff.mp hi) : i < table.length)
  refine ⟨read, hread, ?_⟩
  have hperm : (read.map some).Perm (table.map some) := by
    rw [hrows, ← map_range_getElem?]
    exact h.map _
  have hread' := hperm.filterMap id
  rwa [List.filterMap_map, List.filterMap_map, Function.id_comp, List.filterMap_some,
    List.filterMap_some] at hread'

/-- Two tables in one order keep their rows together. -/
theorem mapM_index_map (f : α → β) (table : List α) (order : List Nat) :
    (order.mapM (index (table.map f)) : Checked ε (List β)) =
      (order.mapM (index table)).map (List.map f) := by
  induction order with
  | nil => rfl
  | cons i order ih =>
    rw [List.mapM_cons, List.mapM_cons, ih, index, index, List.getElem?_map]
    cases table[i]? with
    | none => rfl
    | some a =>
      rw [Option.map_some, okOr_some, okOr_some, ok_bind, ok_bind]
      cases (order.mapM (index table) : Checked ε (List α)) with
      | ok read => rfl
      | error e => rfl

end Basecrawl.Shuffle
