/-
  Threads that share a state.

  A thread takes one atomic step at a time, and a schedule says which thread moves next.

  1. **One thread replaced** — what that does to counts, to weights and to membership.
  2. **Moves** — `move_cases`: a thread that can move is replaced where it stands, the others are
     left alone.
  3. **Runs** — `run_induction`: what every move keeps, every run keeps.
  4. **Ends** — a measure that every move lowers bounds the moves of every run, and every run can be
     carried on until nobody moves (`exists_finished`).
-/
import Mathlib.Data.List.Basic

namespace Basecrawl.Threads

/-- What the threads share, and where each of them stands. -/
structure Pool (σ τ : Type) where
  shared : σ
  threads : List τ

variable {σ τ : Type} (step : σ → τ → Option (σ × τ))

/-- The `i`-th thread moves, if it can. -/
def move (i : Nat) (pool : Pool σ τ) : Pool σ τ :=
  match (pool.threads[i]?).bind (step pool.shared) with
  | some (s, t) => ⟨s, pool.threads.set i t⟩
  | none => pool

/-- The threads move in the order of a schedule. -/
def run : List Nat → Pool σ τ → Pool σ τ
  | [], pool => pool
  | i :: schedule, pool => run schedule (move step i pool)

/-- Nobody can move. -/
def Finished (pool : Pool σ τ) : Prop := ∀ t ∈ pool.threads, step pool.shared t = none

instance [DecidableEq (Option (σ × τ))] (pool : Pool σ τ) : Decidable (Finished step pool) :=
  inferInstanceAs (Decidable (∀ t ∈ pool.threads, step pool.shared t = none))

/-- How many turns of a schedule are moves. -/
def moves : List Nat → Pool σ τ → Nat
  | [], _ => 0
  | i :: schedule, pool =>
      (if ((pool.threads[i]?).bind (step pool.shared)).isSome then 1 else 0) +
        moves schedule (move step i pool)

variable {step}

/-! ## One thread replaced -/

theorem ite_eq_toNat (b : Bool) : (if b = true then 1 else 0) = b.toNat := by
  cases b
  · rfl
  · rfl

/-- A count changes by what the one thread counts. -/
theorem countP_replace (p : τ → Bool) (before : List τ) (t t' : τ) (after : List τ) :
    (before ++ t' :: after).countP p + (p t).toNat =
      (before ++ t :: after).countP p + (p t').toNat := by
  simp only [List.countP_append, List.countP_cons, ite_eq_toNat]
  omega

/-- What the threads weigh together. -/
def weight (f : τ → Nat) : List τ → Nat
  | [] => 0
  | t :: ts => f t + weight f ts

/-- A weight changes by what the one thread weighs. -/
theorem weight_replace (f : τ → Nat) (before : List τ) (t t' : τ) (after : List τ) :
    weight f (before ++ t' :: after) + f t = weight f (before ++ t :: after) + f t' := by
  induction before with
  | nil =>
    simp only [List.nil_append, weight]
    omega
  | cons u before ih =>
    simp only [List.cons_append, weight]
    omega

theorem weight_append (f : τ → Nat) (ts us : List τ) :
    weight f (ts ++ us) = weight f ts + weight f us := by
  induction ts with
  | nil => exact (Nat.zero_add _).symm
  | cons t ts ih =>
    simp only [List.cons_append, weight]
    omega

theorem weight_add (f g : τ → Nat) (ts : List τ) :
    weight (fun t => f t + g t) ts = weight f ts + weight g ts := by
  induction ts with
  | nil => rfl
  | cons t ts ih =>
    simp only [weight]
    omega

theorem weight_eq_zero {f : τ → Nat} {ts : List τ} : weight f ts = 0 ↔ ∀ t ∈ ts, f t = 0 := by
  induction ts with
  | nil => simp [weight]
  | cons t ts ih =>
    rw [weight, Nat.add_eq_zero_iff, ih, List.forall_mem_cons]

theorem le_weight {f : τ → Nat} {ts : List τ} {t : τ} (h : t ∈ ts) : f t ≤ weight f ts := by
  induction ts with
  | nil => exact absurd h List.not_mem_nil
  | cons u ts ih =>
    rw [weight]
    rcases List.mem_cons.mp h with rfl | hrest
    · exact Nat.le_add_right _ _
    · exact Nat.le_trans (ih hrest) (Nat.le_add_left _ _)

/-- Two threads weigh no more than all. -/
theorem add_le_weight {f : τ → Nat} {ts : List τ} {i j : Nat} {t u : τ} (hij : i ≠ j)
    (ht : ts[i]? = some t) (hu : ts[j]? = some u) : f t + f u ≤ weight f ts := by
  induction ts generalizing i j with
  | nil => exact absurd ht (Option.some_ne_none _).symm
  | cons v ts ih =>
    rw [weight]
    cases i with
    | zero =>
      cases j with
      | zero => exact absurd rfl hij
      | succ j =>
        obtain rfl := Option.some.inj ht
        have hmem : u ∈ ts := List.mem_of_getElem? hu
        have hle := le_weight (f := f) hmem
        omega
    | succ i =>
      cases j with
      | zero =>
        obtain rfl := Option.some.inj hu
        have hmem : t ∈ ts := List.mem_of_getElem? ht
        have hle := le_weight (f := f) hmem
        omega
      | succ j =>
        have hle := ih (fun heq => hij (congrArg Nat.succ heq)) ht hu
        omega

theorem length_replace (before : List τ) (t t' : τ) (after : List τ) :
    (before ++ t' :: after).length = (before ++ t :: after).length := by
  rw [List.length_append, List.length_append, List.length_cons, List.length_cons]

/-- Who is there afterwards is the one thread, or another one that was there before. -/
theorem mem_replace {before after : List τ} {t t' u : τ} (h : u ∈ before ++ t' :: after) :
    u = t' ∨ ((u ∈ before ∨ u ∈ after) ∧ u ∈ before ++ t :: after) := by
  rcases List.mem_append.mp h with hbefore | hrest
  · exact .inr ⟨.inl hbefore, List.mem_append_left _ hbefore⟩
  · rcases List.mem_cons.mp hrest with rfl | hafter
    · exact .inl rfl
    · exact .inr ⟨.inr hafter, List.mem_append_right _ (List.mem_cons_of_mem t hafter)⟩

/-- What every thread has, every thread has afterwards, if the one thread has it. -/
theorem forall_replace {P : τ → Prop} {before after : List τ} {t t' : τ}
    (h : ∀ u ∈ before ++ t :: after, P u) (ht' : P t') : ∀ u ∈ before ++ t' :: after, P u := by
  intro u hu
  rcases mem_replace (t := t) hu with rfl | ⟨-, hold⟩
  · exact ht'
  · exact h u hold

/-- A thread that is there afterwards, and is not the one, was there before. -/
theorem mem_of_mem_replace {before after : List τ} {t t' u : τ} (hne : u ≠ t')
    (h : u ∈ before ++ t' :: after) : u ∈ before ++ t :: after := by
  rcases mem_replace (t := t) h with heq | ⟨-, hold⟩
  · exact absurd heq hne
  · exact hold

/-- A count that does not tell the one thread from its successor stays the same. -/
theorem countP_replace_of_eq (p : τ → Bool) (before : List τ) (t t' : τ) (after : List τ)
    (h : p t' = p t) : (before ++ t' :: after).countP p = (before ++ t :: after).countP p := by
  have hcount := countP_replace p before t t' after
  rw [h] at hcount
  omega

/-! ## Moves -/

theorem move_of_append {s s' : σ} {t t' : τ} (before after : List τ)
    (h : step s t = some (s', t')) :
    move step before.length ⟨s, before ++ t :: after⟩ = ⟨s', before ++ t' :: after⟩ := by
  have hget : (before ++ t :: after)[before.length]? = some t := by simp
  unfold move
  rw [hget, Option.bind_some, h]
  simp

/-- Nothing happens, or one thread is replaced where it stands. -/
theorem move_cases (step : σ → τ → Option (σ × τ)) (i : Nat) (pool : Pool σ τ) :
    (((pool.threads[i]?).bind (step pool.shared)).isSome = false ∧ move step i pool = pool) ∨
    ∃ before t after s' t', pool.threads = before ++ t :: after ∧ before.length = i ∧
      step pool.shared t = some (s', t') ∧ move step i pool = ⟨s', before ++ t' :: after⟩ := by
  cases hmove : (pool.threads[i]?).bind (step pool.shared) with
  | none =>
    left
    refine ⟨rfl, ?_⟩
    unfold move
    rw [hmove]
  | some next =>
    right
    obtain ⟨t, ht, hstep⟩ := Option.bind_eq_some_iff.mp hmove
    obtain ⟨hi, rfl⟩ := List.getElem?_eq_some_iff.mp ht
    have hsplit : pool.threads =
        pool.threads.take i ++ pool.threads[i] :: pool.threads.drop (i + 1) := by
      rw [List.getElem_cons_drop, List.take_append_drop]
    have hlen : (pool.threads.take i).length = i := by
      rw [List.length_take]
      omega
    refine ⟨_, _, _, next.1, next.2, hsplit, hlen, hstep, ?_⟩
    have happend := move_of_append (pool.threads.take i) (pool.threads.drop (i + 1)) hstep
    rw [hlen, ← hsplit] at happend
    exact happend

/-- The `i`-th thread after its own turn. -/
theorem move_self (step : σ → τ → Option (σ × τ)) {i : Nat} {pool : Pool σ τ} {t : τ}
    (ht : pool.threads[i]? = some t) :
    (step pool.shared t = none ∧ move step i pool = pool) ∨
    ∃ s' t', step pool.shared t = some (s', t') ∧ (move step i pool).shared = s' ∧
      (move step i pool).threads[i]? = some t' := by
  obtain ⟨hi, -⟩ := List.getElem?_eq_some_iff.mp ht
  unfold move
  rw [ht, Option.bind_some]
  cases hstep : step pool.shared t with
  | none => exact Or.inl ⟨rfl, rfl⟩
  | some next => exact Or.inr ⟨next.1, next.2, rfl, rfl, List.getElem?_set_self hi⟩

/-- The others stay where they are. -/
theorem getElem?_move_of_ne (step : σ → τ → Option (σ × τ)) {i k : Nat} (h : k ≠ i)
    (pool : Pool σ τ) :
    (move step k pool).threads[i]? = pool.threads[i]? := by
  unfold move
  split
  · exact List.getElem?_set_ne h
  · rfl

theorem length_move (i : Nat) (pool : Pool σ τ) :
    (move step i pool).threads.length = pool.threads.length := by
  rcases move_cases step i pool with ⟨-, h⟩ | ⟨before, t, after, s', t', hthreads, -, -, h⟩
  · rw [h]
  · rw [h, hthreads, length_replace before t t' after]

/-! ## Runs -/

theorem length_run (step : σ → τ → Option (σ × τ)) (schedule : List Nat) (pool : Pool σ τ) :
    (run step schedule pool).threads.length = pool.threads.length := by
  induction schedule generalizing pool with
  | nil => rfl
  | cons i schedule ih => exact (ih (move step i pool)).trans (length_move i pool)

theorem run_append (schedule more : List Nat) (pool : Pool σ τ) :
    run step (schedule ++ more) pool = run step more (run step schedule pool) := by
  induction schedule generalizing pool with
  | nil => rfl
  | cons i schedule ih => exact ih (move step i pool)

/-- **Runs keep what every move keeps.** -/
theorem run_induction {P : Pool σ τ → Prop}
    (hmove : ∀ s before t after s' t', step s t = some (s', t') →
      P ⟨s, before ++ t :: after⟩ → P ⟨s', before ++ t' :: after⟩)
    {pool : Pool σ τ} (h : P pool) (schedule : List Nat) : P (run step schedule pool) := by
  induction schedule generalizing pool with
  | nil => exact h
  | cons i schedule ih =>
    refine ih ?_
    rcases move_cases step i pool with
      ⟨-, hstill⟩ | ⟨before, t, after, s', t', hthreads, -, hstep, hnext⟩
    · rw [hstill]
      exact h
    · rw [hnext]
      refine hmove pool.shared before t after s' t' hstep ?_
      rw [← hthreads]
      exact h

/-- One thread is watched beside the shared state: what its own steps keep, and the steps of the
    others, every run keeps. -/
theorem run_watch {P : σ → τ → Prop}
    (hown : ∀ s t s' t', step s t = some (s', t') → P s t → P s' t')
    (hother : ∀ s u s' u' t, step s u = some (s', u') → P s t → P s' t)
    {i : Nat} (schedule : List Nat) {pool : Pool σ τ} {t : τ} (ht : pool.threads[i]? = some t)
    (h : P pool.shared t) :
    ∃ t', (run step schedule pool).threads[i]? = some t' ∧
      P (run step schedule pool).shared t' := by
  induction schedule generalizing pool t with
  | nil => exact ⟨t, ht, h⟩
  | cons k schedule ih =>
    by_cases hk : k = i
    · subst hk
      rcases move_self step ht with ⟨-, hstill⟩ | ⟨s', t', hmoved, hshared, ht'⟩
      · rw [run, hstill]
        exact ih ht h
      · exact ih ht' (hshared ▸ hown _ _ _ _ hmoved h)
    · refine ih ((getElem?_move_of_ne step hk pool).trans ht) ?_
      rcases move_cases step k pool with ⟨-, hstill⟩ | ⟨before, u, after, s', u', -, -, hmoved, hnext⟩
      · rw [hstill]
        exact h
      · rw [hnext]
        exact hother _ _ _ _ _ hmoved h

/-- What the steps of one thread keep of it, every run keeps of it. -/
theorem run_thread {P : τ → Prop} (hstep : ∀ s t s' t', step s t = some (s', t') → P t → P t')
    {i : Nat} (schedule : List Nat) {pool : Pool σ τ} {t : τ} (ht : pool.threads[i]? = some t)
    (h : P t) : ∃ t', (run step schedule pool).threads[i]? = some t' ∧ P t' :=
  run_watch (P := fun _ t => P t) hstep (fun _ _ _ _ _ _ ht => ht) schedule ht h

/-! ## Ends -/

section

variable {μ : Pool σ τ → Nat}
  (hμ : ∀ s before t after s' t', step s t = some (s', t') →
    μ ⟨s', before ++ t' :: after⟩ < μ ⟨s, before ++ t :: after⟩)
include hμ

/-- The measure pays for every move. -/
theorem moves_add_measure_le (schedule : List Nat) (pool : Pool σ τ) :
    moves step schedule pool + μ (run step schedule pool) ≤ μ pool := by
  induction schedule generalizing pool with
  | nil => simp [moves, run]
  | cons i schedule ih =>
    have hrest := ih (move step i pool)
    rw [moves, run]
    rcases move_cases step i pool with
      ⟨hnone, hstill⟩ | ⟨before, t, after, s', t', hthreads, -, hstep, hnext⟩
    · rw [hstill] at hrest
      rw [hnone, hstill]
      simpa using hrest
    · have hless : μ (move step i pool) < μ pool := by
        have hmoved := hμ pool.shared before t after s' t' hstep
        rwa [← hthreads, ← hnext] at hmoved
      split <;> omega

/-- **Every run comes to an end.** -/
theorem exists_finished (pool : Pool σ τ) : ∃ schedule, Finished step (run step schedule pool) := by
  by_cases hfinished : Finished step pool
  · exact ⟨[], hfinished⟩
  · simp only [Finished, not_forall] at hfinished
    obtain ⟨t, ht, hmoves⟩ := hfinished
    obtain ⟨⟨s', t'⟩, hstep⟩ := Option.ne_none_iff_exists'.mp hmoves
    obtain ⟨before, after, hthreads⟩ := List.append_of_mem ht
    have hless := hμ pool.shared before t after s' t' hstep
    obtain ⟨schedule, hend⟩ := exists_finished ⟨s', before ++ t' :: after⟩
    refine ⟨before.length :: schedule, ?_⟩
    have hnext := move_of_append before after hstep
    rw [← hthreads] at hnext
    rw [run, hnext]
    exact hend
termination_by μ pool
decreasing_by rwa [← hthreads] at hless

end

end Basecrawl.Threads
