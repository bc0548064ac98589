/-
  Choosing the best of a list in one pass.

  `keepBest key` keeps the element with the greatest key, the first of several.  What it keeps is
  an element of the list with no better one (`keepBest_spec`), so its key depends on the keys in
  the list alone: order, repetition and grouping do not matter (`keepBest_congr`).
-/
import Mathlib.Data.List.Basic

namespace Basecrawl.Choice

variable {α : Type}

/-- An element replaces one with a smaller key. -/
def better (key : α → Nat) (best : Option α) (a : α) : Option α :=
  match best with
  | none => some a
  | some b => if key b < key a then some a else some b

/-- The element with the greatest key, the first of several. -/
def keepBest (key : α → Nat) (xs : List α) : Option α := xs.foldl (better key) none

variable {key : α → Nat}

/-- One pass from an element on: the result is that element or one of the list, and nothing is
better. -/
theorem foldl_better (xs : List α) (b : α) :
    ∃ c, xs.foldl (better key) (some b) = some c ∧ (c = b ∨ c ∈ xs) ∧ key b ≤ key c ∧
      ∀ a ∈ xs, key a ≤ key c := by
  induction xs generalizing b with
  | nil => exact ⟨b, rfl, Or.inl rfl, Nat.le_refl _, fun a ha => absurd ha List.not_mem_nil⟩
  | cons x xs ih =>
    by_cases hlt : key b < key x
    · obtain ⟨c, hc, hmem, hle, hall⟩ := ih x
      refine ⟨c, ?_, ?_, by omega, ?_⟩
      · show xs.foldl (better key) (if key b < key x then some x else some b) = some c
        rw [if_pos hlt, hc]
      · exact Or.inr (List.mem_cons.mpr hmem)
      · exact List.forall_mem_cons.mpr ⟨hle, hall⟩
    · obtain ⟨c, hc, hmem, hle, hall⟩ := ih b
      refine ⟨c, ?_, ?_, hle, ?_⟩
      · show xs.foldl (better key) (if key b < key x then some x else some b) = some c
        rw [if_neg hlt, hc]
      · exact hmem.imp id (List.mem_cons_of_mem x)
      · exact List.forall_mem_cons.mpr ⟨by omega, hall⟩

/-- **What is kept** is in the list, and nothing in the list is better. -/
theorem keepBest_spec {xs : List α} {c : α} (h : keepBest key xs = some c) :
    c ∈ xs ∧ ∀ a ∈ xs, key a ≤ key c := by
  cases xs with
  | nil => cases h
  | cons x xs =>
    obtain ⟨c', hc, hmem, hle, hall⟩ := foldl_better  xs x
    obtain rfl : c' = c := Option.some.inj (hc.symm.trans h)
    exact ⟨List.mem_cons.mpr hmem, List.forall_mem_cons.mpr ⟨hle, hall⟩⟩

theorem keepBest_eq_none {xs : List α} : keepBest key xs = none ↔ xs = [] := by
  cases xs with
  | nil => exact iff_of_true rfl rfl
  | cons x xs =>
    obtain ⟨c, hc, -⟩ := foldl_better  xs x
    refine iff_of_false ?_ (List.cons_ne_nil x xs)
    show ¬ xs.foldl (better key) (some x) = none
    rw [hc]
    exact Option.some_ne_none c

/-- **The key that is kept** depends on the keys in the list alone. -/
theorem keepBest_congr {xs ys : List α}
    (h : ∀ k, (∃ a ∈ xs, key a = k) ↔ ∃ a ∈ ys, key a = k) :
    (keepBest key xs).map key = (keepBest key ys).map key := by
  cases hx : keepBest key xs with
  | none =>
    obtain rfl := keepBest_eq_none.mp hx
    cases hy : keepBest key ys with
    | none => rfl
    | some c =>
      obtain ⟨a, ha, -⟩ := (h (key c)).mpr ⟨c, (keepBest_spec hy).1, rfl⟩
      exact absurd ha List.not_mem_nil
  | some b =>
    obtain ⟨hb, hbest⟩ := keepBest_spec hx
    cases hy : keepBest key ys with
    | none =>
      obtain rfl := keepBest_eq_none.mp hy
      obtain ⟨a, ha, -⟩ := (h (key b)).mp ⟨b, hb, rfl⟩
      exact absurd ha List.not_mem_nil
    | some c =>
      obtain ⟨hc, hbest'⟩ := keepBest_spec hy
      -- each is as good as the other
      obtain ⟨a, ha, hac⟩ := (h (key c)).mpr ⟨c, hc, rfl⟩
      obtain ⟨a', ha', hab⟩ := (h (key b)).mp ⟨b, hb, rfl⟩
      have hle := hbest a ha
      have hge := hbest' a' ha'
      show some (key b) = some (key c)
      rw [Option.some_inj]
      omega

end Basecrawl.Choice
