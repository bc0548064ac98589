/-
  Distinct elements in the order they come, up to a bound.

  1. **Pushing** — `push cap xs x` appends `x` to `xs` when it is new and there is room.
  2. **Collecting** — `collect cap xs ys` pushes the elements of `ys` in turn.  What it holds is
     said by four lemmas: it keeps what it had (`prefix_collect`), it repeats nothing
     (`Nodup.collect`), it has nothing else (`mem_or_of_mem_collect`), and as long as it has room
     it has everything (`mem_collect`).
  3. **By a key** — `collectNew key` tells elements apart by a key and has room for all.  It appends
     the first element of each key that is new (`collectNew_eq`).
-/
import Mathlib.Data.List.Nodup

namespace Basecrawl.Distinct

variable {α : Type} [DecidableEq α] {cap : Nat} {xs ys zs : List α} {x : α}

/-! ## Pushing -/

/-- Append a new element when there is room. -/
def push (cap : Nat) (xs : List α) (x : α) : List α :=
  if xs.length ≥ cap then xs else if x ∈ xs then xs else xs ++ [x]

theorem push_full (h : cap ≤ xs.length) : push cap xs x = xs := if_pos h

theorem prefix_push : xs <+: push cap xs x := by
  unfold push
  split
  · exact List.prefix_rfl
  split
  · exact List.prefix_rfl
  · exact List.prefix_append xs [x]

theorem Nodup.push (h : xs.Nodup) : (push cap xs x).Nodup := by
  unfold Distinct.push
  split
  · exact h
  split
  · exact h
  · rename_i hnew
    exact List.nodup_append.mpr ⟨h, List.nodup_singleton x, fun a ha b hb =>
      fun hab => hnew (List.mem_singleton.mp hb ▸ hab ▸ ha)⟩

theorem length_push_le (h : xs.length ≤ cap) : (push cap xs x).length ≤ cap := by
  unfold push
  split
  · exact h
  split
  · exact h
  · rename_i hroom _
    rw [List.length_append, List.length_singleton]
    omega

theorem mem_or_of_mem_push {a : α} (h : a ∈ push cap xs x) : a ∈ xs ∨ a = x := by
  unfold push at h
  split at h
  · exact Or.inl h
  split at h
  · exact Or.inl h
  · exact (List.mem_append.mp h).imp_right List.mem_singleton.mp

/-- With room left afterwards, the element is there. -/
theorem mem_push (h : (push cap xs x).length < cap) : x ∈ push cap xs x := by
  unfold push at h ⊢
  split
  · rename_i hfull
    rw [if_pos hfull] at h
    omega
  split
  · assumption
  · exact List.mem_append_right _ (List.mem_singleton_self x)

/-! ## Collecting -/

/-- Push the elements in turn. -/
def collect (cap : Nat) (xs ys : List α) : List α := ys.foldl (push cap) xs

@[simp] theorem collect_nil : collect cap xs [] = xs := rfl

theorem collect_cons : collect cap xs (x :: ys) = collect cap (push cap xs x) ys := rfl

theorem collect_append : collect cap xs (ys ++ zs) = collect cap (collect cap xs ys) zs :=
  List.foldl_append

/-- A full list stays as it is. -/
theorem collect_full (h : cap ≤ xs.length) : collect cap xs ys = xs := by
  induction ys with
  | nil => rfl
  | cons y ys ih => rw [collect_cons, push_full h, ih]

theorem prefix_collect (cap : Nat) (xs ys : List α) : xs <+: collect cap xs ys := by
  induction ys generalizing xs with
  | nil => exact List.prefix_rfl
  | cons y ys ih => exact prefix_push.trans (ih _)

theorem Nodup.collect (h : xs.Nodup) : (collect cap xs ys).Nodup := by
  induction ys generalizing xs with
  | nil => exact h
  | cons y ys ih => exact ih (Nodup.push h)

theorem length_collect_le (xs ys : List α) (h : xs.length ≤ cap) :
    (collect cap xs ys).length ≤ cap := by
  induction ys generalizing xs with
  | nil => exact h
  | cons y ys ih => exact ih _ (length_push_le h)

theorem mem_or_of_mem_collect {a : α} (h : a ∈ collect cap xs ys) : a ∈ xs ∨ a ∈ ys := by
  induction ys generalizing xs with
  | nil => exact Or.inl h
  | cons y ys ih =>
    rcases ih h with h | h
    · rcases mem_or_of_mem_push h with h | rfl
      · exact Or.inl h
      · exact Or.inr List.mem_cons_self
    · exact Or.inr (List.mem_cons_of_mem y h)

/-- With room left, nothing was dropped. -/
theorem mem_collect {a : α} (hroom : (collect cap xs ys).length < cap) (h : a ∈ ys) :
    a ∈ collect cap xs ys := by
  induction ys generalizing xs with
  | nil => cases h
  | cons y ys ih =>
    rcases List.mem_cons.mp h with rfl | h
    · have hprefix : push cap xs a <+: collect cap (push cap xs a) ys := prefix_collect _ _ _
      have hlength : (push cap xs a).length < cap := Nat.lt_of_le_of_lt hprefix.length_le hroom
      exact hprefix.subset (mem_push hlength)
    · exact ih hroom h

/-! ## By a key -/

section

variable {β κ : Type} [DecidableEq κ] {key : β → κ}

/-- Append an element whose key is new. -/
def pushNew (key : β → κ) (xs : List β) (x : β) : List β :=
  if xs.any fun placed => key placed == key x then xs else xs ++ [x]

def collectNew (key : β → κ) (xs ys : List β) : List β := ys.foldl (pushNew key) xs

/-- The first element of each key. -/
def firsts (key : β → κ) : List β → List β
  | [] => []
  | x :: xs => x :: (firsts key xs).filter fun y => decide (key y ≠ key x)

theorem any_key_iff {xs : List β} {x : β} :
    (xs.any fun placed => key placed == key x) = true ↔ key x ∈ xs.map key := by
  rw [List.any_eq_true, List.mem_map]
  simp only [beq_iff_eq]

theorem mem_keys_firsts {xs : List β} {k : κ} :
    k ∈ (firsts key xs).map key ↔ k ∈ xs.map key := by
  induction xs with
  | nil => exact Iff.rfl
  | cons x xs ih =>
    rw [firsts, List.map_cons, List.map_cons, List.mem_cons, List.mem_cons, ← ih]
    refine or_congr_right' fun hne => ?_
    simp only [List.mem_map, List.mem_filter, decide_eq_true_eq]
    constructor
    · rintro ⟨y, ⟨hy, -⟩, hkey⟩
      exact ⟨y, hy, hkey⟩
    · rintro ⟨y, hy, hkey⟩
      exact ⟨y, ⟨hy, fun heq => hne (hkey.symm.trans heq)⟩, hkey⟩

theorem nodup_firsts (xs : List β) : ((firsts key xs).map key).Nodup := by
  induction xs with
  | nil => exact List.nodup_nil
  | cons x xs ih =>
    rw [firsts, List.map_cons, List.nodup_cons]
    constructor
    · intro hmem
      obtain ⟨y, hy, hkey⟩ := List.mem_map.mp hmem
      exact of_decide_eq_true (List.mem_filter.mp hy).2 hkey
    · exact (List.filter_sublist.map key).nodup ih

theorem firsts_of_nodup {xs : List β} (h : (xs.map key).Nodup) : firsts key xs = xs := by
  induction xs with
  | nil => rfl
  | cons x xs ih =>
    obtain ⟨hnew, hrest⟩ := List.nodup_cons.mp h
    rw [firsts, ih hrest, List.filter_eq_self.mpr]
    intro y hy
    exact decide_eq_true fun heq => hnew (heq ▸ List.mem_map_of_mem hy)

/-- **What is appended**: the first element of each key that was not there. -/
theorem collectNew_eq (xs ys : List β) :
    collectNew key xs ys = xs ++ (firsts key ys).filter fun y => decide (key y ∉ xs.map key) := by
  induction ys generalizing xs with
  | nil => exact (List.append_nil xs).symm
  | cons y ys ih =>
    rw [collectNew, List.foldl_cons, ← collectNew, ih, firsts, pushNew]
    by_cases hold : key y ∈ xs.map key
    · rw [if_pos (any_key_iff.mpr hold), List.filter_cons_of_neg (by simpa using hold),
        List.filter_filter]
      refine congrArg (xs ++ ·) (List.filter_congr fun z _ => ?_)
      by_cases hz : key z ∈ xs.map key
      · simp [hz]
      · have hne : key z ≠ key y := fun heq => hz (heq ▸ hold)
        simp [hz, hne]
    · rw [if_neg (fun h => hold (any_key_iff.mp h)), List.filter_cons_of_pos (by simpa using hold),
        List.filter_filter, List.append_assoc, List.singleton_append]
      refine congrArg (fun zs => xs ++ y :: zs) (List.filter_congr fun z _ => ?_)
      rw [← Bool.decide_and]
      refine decide_eq_decide.mpr ?_
      rw [List.map_append, List.mem_append, List.map_singleton, List.mem_singleton, not_or]

/-- Without repetition before, there is none afterwards. -/
theorem nodup_collectNew {xs ys : List β} (h : (xs.map key).Nodup) :
    ((collectNew key xs ys).map key).Nodup := by
  rw [collectNew_eq, List.map_append, List.nodup_append]
  refine ⟨h, (List.filter_sublist.map key).nodup (nodup_firsts ys), ?_⟩
  rintro k hk k' hk' rfl
  obtain ⟨y, hy, rfl⟩ := List.mem_map.mp hk'
  exact of_decide_eq_true (List.mem_filter.mp hy).2 hk

/-- Nothing is lost. -/
theorem mem_keys_collectNew {xs ys : List β} {k : κ} :
    k ∈ (collectNew key xs ys).map key ↔ k ∈ xs.map key ∨ k ∈ ys.map key := by
  rw [collectNew_eq, List.map_append, List.mem_append, ← @mem_keys_firsts _ _ _ key ys]
  refine or_congr_right' fun hnew => ?_
  simp only [List.mem_map, List.mem_filter, decide_eq_true_eq] at hnew ⊢
  constructor
  · rintro ⟨y, ⟨hy, -⟩, hkey⟩
    exact ⟨y, hy, hkey⟩
  · rintro ⟨y, hy, rfl⟩
    exact ⟨y, ⟨hy, hnew⟩, rfl⟩

end

end Basecrawl.Distinct
