/-
  Breadth-first search with a cap on the nodes it takes and a bound on their depth.

  Nodes are marked when they leave the queue, so a node can stand in the queue more than once and at
  different depths.

  1. **Program** — `bfs` takes the first entry of the queue; a new node is kept with its depth, and
     its successors are queued one deeper while bound and cap allow it.
  2. **Specification** — the nodes kept are distinct, at their shortest distance from the start, and
     within the bound; below the cap nothing within the bound is missing.
  3. **The crux (`Inv`)** — the queue is sorted and spans two depths at most, and below the cap
     every successor of a kept node above the bound is kept or queued.
-/
import Mathlib.Data.List.Nodup
import Mathlib.Tactic.SplitIfs

namespace Basecrawl.Bfs

variable {α : Type}

/-- There is a walk of `n` steps from `a` to `b`. -/
inductive Walk (adj : α → List α) (a : α) : Nat → α → Prop where
  | refl : Walk adj a 0 a
  | step {n : Nat} {b c : α} : Walk adj a n b → c ∈ adj b → Walk adj a (n + 1) c

/-- The shortest walk from `a` to `b` has `n` steps. -/
structure Shortest (adj : α → List α) (a : α) (n : Nat) (b : α) : Prop where
  walk : Walk adj a n b
  minimal : ∀ m, Walk adj a m b → n ≤ m

/-- The search: the nodes taken so far with their depths, and the queue. -/
def bfs [DecidableEq α] (adj : α → List α) (cap bound : Nat) (queue kept : List (α × Nat)) :
    List (α × Nat) :=
  match queue with
  | [] => kept
  | (a, d) :: queue =>
      if _hcap : cap ≤ kept.length then kept
      else if a ∈ kept.map Prod.fst then bfs adj cap bound queue kept
      else
        let kept' := kept ++ [(a, d)]
        if bound ≤ d ∨ cap ≤ kept'.length then bfs adj cap bound queue kept'
        else
          let fresh := (adj a).filter fun b => b ∉ kept'.map Prod.fst
          bfs adj cap bound (queue ++ fresh.map fun b => (b, d + 1)) kept'
termination_by (cap - kept.length, queue.length)
decreasing_by
  -- an entry that is skipped shortens the queue, one that is taken brings the cap nearer
  · exact Prod.Lex.right _ (Nat.lt_succ_self _)
  · exact Prod.Lex.left _ _ (by rw [List.length_append, List.length_singleton]; omega)
  · exact Prod.Lex.left _ _ (by rw [List.length_append, List.length_singleton]; omega)

/-- What holds before every turn of the search. -/
structure Inv (adj : α → List α) (start : α) (cap bound : Nat) (queue kept : List (α × Nat)) :
    Prop where
  length_le : kept.length ≤ cap
  nodup : (kept.map Prod.fst).Nodup
  shortest : ∀ e ∈ kept, Shortest adj start e.2 e.1
  kept_le : ∀ e ∈ kept, e.2 ≤ bound
  walks : ∀ e ∈ queue, Walk adj start e.2 e.1
  queue_le : ∀ e ∈ queue, e.2 ≤ bound
  sorted : queue.Pairwise fun e e' => e.2 ≤ e'.2
  spread : ∀ e ∈ queue, ∀ e' ∈ queue, e'.2 ≤ e.2 + 1
  started : start ∈ kept.map Prod.fst ∨ (start, 0) ∈ queue
  closed : kept.length < cap → ∀ e ∈ kept, e.2 < bound → ∀ b ∈ adj e.1,
    b ∈ kept.map Prod.fst ∨ ∃ e' ∈ queue, e'.1 = b ∧ e'.2 ≤ e.2 + 1

variable {adj : α → List α} {start : α} {cap bound : Nat} {queue kept : List (α × Nat)}

/-- Below the cap, what is nearer than the whole queue has been taken. -/
theorem mem_kept_of_walk (h : Inv adj start cap bound queue kept) (hcap : kept.length < cap)
    {n : Nat} {a : α} (hwalk : Walk adj start n a) (hbound : n ≤ bound)
    (hqueue : ∀ e ∈ queue, n < e.2) : a ∈ kept.map Prod.fst := by
  induction hwalk with
  | refl =>
    rcases h.started with hkept | hqueued
    · exact hkept
    · exact absurd (hqueue _ hqueued) (Nat.not_lt_zero 0)
  | @step n b c hwalk hc ih =>
    obtain ⟨e, he, rfl⟩ := List.mem_map.mp (ih (by omega) fun e he => by have := hqueue e he; omega)
    have hdepth : e.2 ≤ n := (h.shortest e he).minimal n hwalk
    rcases h.closed hcap e he (by omega) c hc with hkept | ⟨e', he', -, hle⟩
    · exact hkept
    · have := hqueue e' he'
      omega

theorem Inv.tail {e : α × Nat} (h : Inv adj start cap bound (e :: queue) kept)
    (hkept : e.1 ∈ kept.map Prod.fst) : Inv adj start cap bound queue kept where
  length_le := h.length_le
  nodup := h.nodup
  shortest := h.shortest
  kept_le := h.kept_le
  walks := fun e' he' => h.walks e' (List.mem_cons_of_mem _ he')
  queue_le := fun e' he' => h.queue_le e' (List.mem_cons_of_mem _ he')
  sorted := (List.pairwise_cons.mp h.sorted).2
  spread := fun e' he' e'' he'' =>
    h.spread e' (List.mem_cons_of_mem _ he') e'' (List.mem_cons_of_mem _ he'')
  started := by
    rcases h.started with hstart | hstart
    · exact Or.inl hstart
    · rcases List.mem_cons.mp hstart with rfl | hstart
      · exact Or.inl hkept
      · exact Or.inr hstart
  closed := by
    intro hcap e' he' hlt b hb
    rcases h.closed hcap e' he' hlt b hb with hdone | ⟨e'', he'', rfl, hle⟩
    · exact Or.inl hdone
    · rcases List.mem_cons.mp he'' with rfl | he''
      · exact Or.inl hkept
      · exact Or.inr ⟨e'', he'', rfl, hle⟩

/-- The first entry of the queue, when it is new, stands at its shortest distance. -/
theorem shortest_of_head {a : α} {d : Nat} (h : Inv adj start cap bound ((a, d) :: queue) kept)
    (hcap : kept.length < cap) (hnew : a ∉ kept.map Prod.fst) : Shortest adj start d a where
  walk := h.walks _ List.mem_cons_self
  minimal := by
    intro m hwalk
    by_contra hlt
    have hd : d ≤ bound := h.queue_le _ List.mem_cons_self
    refine hnew (mem_kept_of_walk h hcap hwalk (by omega) ?_)
    intro e he
    rcases List.mem_cons.mp he with rfl | he
    · show m < d
      omega
    · have hsorted : d ≤ e.2 := (List.pairwise_cons.mp h.sorted).1 e he
      omega

/-- Taking a new node, and queueing successors one deeper: all that are missing, unless the node is
    at the bound or the cap is met. -/
theorem Inv.take {a : α} {d : Nat} (fresh : List α)
    (h : Inv adj start cap bound ((a, d) :: queue) kept) (hcap : kept.length < cap)
    (hnew : a ∉ kept.map Prod.fst) (hadj : ∀ b ∈ fresh, b ∈ adj a) (hfresh : fresh ≠ [] → d < bound)
    (hall : kept.length + 1 < cap → d < bound → ∀ b ∈ adj a,
      b ∈ (kept ++ [(a, d)]).map Prod.fst ∨ b ∈ fresh) :
    Inv adj start cap bound (queue ++ fresh.map fun b => (b, d + 1)) (kept ++ [(a, d)]) := by
  have hmap : (kept ++ [(a, d)]).map Prod.fst = kept.map Prod.fst ++ [a] := by simp
  have hhead : ∀ e ∈ queue, d ≤ e.2 ∧ e.2 ≤ d + 1 := fun e he =>
    ⟨(List.pairwise_cons.mp h.sorted).1 e he,
      h.spread _ List.mem_cons_self e (List.mem_cons_of_mem _ he)⟩
  -- what is queued was queued before, or is new and one layer down
  have hqueue : ∀ e ∈ queue ++ fresh.map (fun b => (b, d + 1)),
      e ∈ queue ∨ (e.1 ∈ fresh ∧ e.2 = d + 1) := by
    intro e he
    rcases List.mem_append.mp he with he | he
    · exact Or.inl he
    · obtain ⟨b, hb, rfl⟩ := List.mem_map.mp he
      exact Or.inr ⟨hb, rfl⟩
  have hlayer : ∀ e ∈ queue ++ fresh.map (fun b => (b, d + 1)), d ≤ e.2 ∧ e.2 ≤ d + 1 := by
    intro e he
    rcases hqueue e he with he | ⟨-, hd⟩
    · exact hhead e he
    · omega
  refine ⟨?_, ?_, ?_, ?_, ?_, ?_, ?_, ?_, ?_, ?_⟩
  · rw [List.length_append, List.length_singleton]
    omega
  · rw [hmap, List.nodup_append]
    refine ⟨h.nodup, List.nodup_singleton a, ?_⟩
    rintro b hb c hc rfl
    rw [List.mem_singleton] at hc
    exact hnew (hc ▸ hb)
  -- the walk to the head is a shortest one
  · intro e he
    rcases List.mem_append.mp he with he | he
    · exact h.shortest e he
    · rw [List.mem_singleton.mp he]
      exact shortest_of_head h hcap hnew
  · intro e he
    rcases List.mem_append.mp he with he | he
    · exact h.kept_le e he
    · rw [List.mem_singleton.mp he]
      exact h.queue_le _ List.mem_cons_self
  · intro e he
    rcases hqueue e he with he | ⟨hb, hd⟩
    · exact h.walks e (List.mem_cons_of_mem _ he)
    · rw [hd]
      exact (h.walks _ List.mem_cons_self).step (hadj e.1 hb)
  · intro e he
    rcases hqueue e he with he | ⟨hb, hd⟩
    · exact h.queue_le e (List.mem_cons_of_mem _ he)
    · have := hfresh (List.ne_nil_of_mem hb)
      omega
  -- the queue stays in the order of the layers
  · rw [List.pairwise_append]
    refine ⟨(List.pairwise_cons.mp h.sorted).2, ?_, ?_⟩
    · rw [List.pairwise_map]
      exact List.pairwise_of_forall fun _ _ => Nat.le_refl (d + 1)
    · intro e he e' he'
      obtain ⟨b, -, rfl⟩ := List.mem_map.mp he'
      exact (hhead e he).2
  · intro e he e' he'
    have := hlayer e he
    have := hlayer e' he'
    omega
  -- the start is kept, or still queued
  · rcases h.started with hstart | hstart
    · rw [hmap]
      exact Or.inl (List.mem_append_left _ hstart)
    · rcases List.mem_cons.mp hstart with heq | hstart
      · cases heq
        rw [hmap]
        exact Or.inl (List.mem_append_right _ List.mem_cons_self)
      · exact Or.inr (List.mem_append_left _ hstart)
  -- each neighbour of what is kept is kept, or queued no deeper than it should be
  · intro hlen e he hlt b hb
    rw [List.length_append, List.length_singleton] at hlen
    rcases List.mem_append.mp he with he | he
    · rcases h.closed hcap e he hlt b hb with hdone | ⟨e', he', rfl, hle⟩
      · rw [hmap]
        exact Or.inl (List.mem_append_left _ hdone)
      · rcases List.mem_cons.mp he' with rfl | he'
        · rw [hmap]
          exact Or.inl (List.mem_append_right _ List.mem_cons_self)
        · exact Or.inr ⟨e', List.mem_append_left _ he', rfl, hle⟩
    · rw [List.mem_singleton] at he
      subst he
      rcases hall hlen hlt b hb with hdone | hqueued
      · exact Or.inl hdone
      · exact Or.inr ⟨(b, d + 1), List.mem_append_right _ (List.mem_map_of_mem hqueued), rfl,
          Nat.le_refl _⟩

theorem inv_start (adj : α → List α) (start : α) (cap bound : Nat) :
    Inv adj start cap bound [(start, 0)] [] where
  length_le := Nat.zero_le _
  nodup := List.nodup_nil
  shortest := by simp
  kept_le := by simp
  walks := by
    intro e he
    rw [List.mem_singleton.mp he]
    exact Walk.refl
  queue_le := by simp
  sorted := List.pairwise_singleton _ _
  spread := by simp
  started := Or.inr List.mem_cons_self
  closed := by simp

/-! ## The search -/

section

variable [DecidableEq α]

theorem bfs_nil (kept : List (α × Nat)) : bfs adj cap bound [] kept = kept := by
  rw [bfs]

theorem bfs_full {e : α × Nat} (hcap : cap ≤ kept.length) :
    bfs adj cap bound (e :: queue) kept = kept := by
  rw [bfs, dif_pos hcap]

/-- A node that has been taken is skipped. -/
theorem bfs_skip {e : α × Nat} (hcap : ¬ cap ≤ kept.length) (hold : e.1 ∈ kept.map Prod.fst) :
    bfs adj cap bound (e :: queue) kept = bfs adj cap bound queue kept := by
  rw [bfs, dif_neg hcap, if_pos hold]

/-- A new node at the bound or the cap is taken, its successors are not looked at. -/
theorem bfs_last {e : α × Nat} (hcap : ¬ cap ≤ kept.length) (hnew : e.1 ∉ kept.map Prod.fst)
    (hstop : bound ≤ e.2 ∨ cap ≤ (kept ++ [e]).length) :
    bfs adj cap bound (e :: queue) kept = bfs adj cap bound queue (kept ++ [e]) := by
  rw [bfs, dif_neg hcap, if_neg hnew]
  simp only [if_pos hstop]

/-- A new node is taken, and those of its successors that have not been taken are queued. -/
theorem bfs_take {e : α × Nat} (hcap : ¬ cap ≤ kept.length) (hnew : e.1 ∉ kept.map Prod.fst)
    (hgo : ¬ (bound ≤ e.2 ∨ cap ≤ (kept ++ [e]).length)) :
    bfs adj cap bound (e :: queue) kept =
      bfs adj cap bound (queue ++
        ((adj e.1).filter fun b => b ∉ (kept ++ [e]).map Prod.fst).map fun b => (b, e.2 + 1))
        (kept ++ [e]) := by
  rw [bfs, dif_neg hcap, if_neg hnew]
  simp only [if_neg hgo]

/-- The search ends in its invariant, with an empty queue when it ends below the cap. -/
theorem inv_bfs (adj : α → List α) (start : α) (cap bound : Nat) (queue kept : List (α × Nat))
    (h : Inv adj start cap bound queue kept) :
    ∃ rest, Inv adj start cap bound rest (bfs adj cap bound queue kept) ∧
      ((bfs adj cap bound queue kept).length < cap → rest = []) := by
  fun_induction bfs adj cap bound queue kept with
  | case1 kept => exact ⟨[], h, fun _ => rfl⟩
  | case2 kept a d queue hcap => exact ⟨_, h, fun hlt => absurd hcap (Nat.not_le.mpr hlt)⟩
  | case3 kept a d queue hcap hold ih => exact ih (h.tail hold)
  | case4 kept a d queue hcap hnew kept' hstop ih =>
    -- the bound or the cap is met: nothing is queued
    refine ih ?_
    have htake := h.take [] (Nat.lt_of_not_le hcap) hnew (by simp) (by simp) ?_
    · simpa using htake
    · intro hlen hlt
      rw [List.length_append, List.length_singleton] at hstop
      omega
  | case5 kept a d queue hcap hnew kept' hgo fresh ih =>
    rw [not_or] at hgo
    refine ih (h.take _ (Nat.lt_of_not_le hcap) hnew (fun b hb => (List.mem_filter.mp hb).1)
      (fun _ => Nat.lt_of_not_le hgo.1) ?_)
    intro _ _ b hb
    by_cases hold : b ∈ kept'.map Prod.fst
    · exact Or.inl hold
    · exact Or.inr (List.mem_filter.mpr ⟨hb, decide_eq_true hold⟩)

/-- **Breadth-first search is shortest, distinct, bounded and complete.** -/
theorem bfs_correct (adj : α → List α) (start : α) (cap bound : Nat) :
    (bfs adj cap bound [(start, 0)] []).length ≤ cap ∧
    ((bfs adj cap bound [(start, 0)] []).map Prod.fst).Nodup ∧
    (∀ e ∈ bfs adj cap bound [(start, 0)] [], Shortest adj start e.2 e.1 ∧ e.2 ≤ bound) ∧
    ((bfs adj cap bound [(start, 0)] []).length < cap → ∀ n a, Walk adj start n a → n ≤ bound →
      a ∈ (bfs adj cap bound [(start, 0)] []).map Prod.fst) := by
  obtain ⟨rest, h, hend⟩ :=
    inv_bfs adj start cap bound [(start, 0)] [] (inv_start adj start cap bound)
  refine ⟨h.length_le, h.nodup, fun e he => ⟨h.shortest e he, h.kept_le e he⟩, ?_⟩
  intro hcap n a hwalk hbound
  refine mem_kept_of_walk h hcap hwalk hbound ?_
  rw [hend hcap]
  simp

end

end Basecrawl.Bfs
