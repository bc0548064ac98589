/-
  Histories of calls on one state.

  `step` says what a call returns and which state it leaves; `trace` lists the calls of a history
  with the states around them.  A property of one step holds of every event of every history
  (`of_mem_trace`), and what every step keeps, a history keeps (`final_induction`).  What a step can
  only keep or put there itself was there at the start, or was put there by some call of the history
  (`origin`); cut at an event (`trace_eq_append`), the same holds of what comes after it.
-/
import Mathlib.Logic.Basic

namespace Basecrawl.History

variable {σ κ ω : Type}

/-- A call with its outcome, and the states before and after it. -/
structure Event (σ κ ω : Type) where
  before : σ
  call : κ
  outcome : ω
  after : σ

/-- The calls of a history, in order. -/
def trace (step : κ → σ → ω × σ) : List κ → σ → List (Event σ κ ω)
  | [], _ => []
  | call :: calls, s =>
      ⟨s, call, (step call s).1, (step call s).2⟩ :: trace step calls (step call s).2

/-- The state a history leaves. -/
def final (step : κ → σ → ω × σ) : List κ → σ → σ
  | [], s => s
  | call :: calls, s => final step calls (step call s).2

variable {step : κ → σ → ω × σ}

/-- A history of two calls. -/
theorem trace_two (step : κ → σ → ω × σ) (a b : κ) (s : σ) : trace step [a, b] s =
    [⟨s, a, (step a s).1, (step a s).2⟩,
      ⟨(step a s).2, b, (step b (step a s).2).1, (step b (step a s).2).2⟩] := rfl

/-- Every event is a step. -/
theorem of_mem_trace {event : Event σ κ ω} : ∀ {calls : List κ} {s : σ},
    event ∈ trace step calls s → step event.call event.before = (event.outcome, event.after)
  | [], _, h => absurd h List.not_mem_nil
  | call :: calls, s, h => by
      rcases List.mem_cons.mp h with rfl | h
      · rfl
      · exact of_mem_trace h

/-- What follows an event is a history from the state it left. -/
theorem trace_eq_append {event : Event σ κ ω} {post : List (Event σ κ ω)} :
    ∀ {pre : List (Event σ κ ω)} {calls : List κ} {s : σ},
      trace step calls s = pre ++ event :: post →
      ∃ rest, trace step rest event.after = post ∧
        final step rest event.after = final step calls s
  | [], [], _, h => by simp [trace] at h
  | [], call :: calls, s, h => by
      rw [List.nil_append, trace, List.cons.injEq] at h
      obtain ⟨rfl, hpost⟩ := h
      exact ⟨calls, hpost, rfl⟩
  | first :: pre, [], _, h => by simp [trace] at h
  | first :: pre, call :: calls, s, h => by
      rw [List.cons_append, trace, List.cons.injEq] at h
      have ih := trace_eq_append h.2
      exact ih

/-- One history after another. -/
theorem final_append (calls more : List κ) (s : σ) :
    final step (calls ++ more) s = final step more (final step calls s) := by
  induction calls generalizing s with
  | nil => rfl
  | cons call calls ih => exact ih (step call s).2

/-- **Invariants**: what every step keeps, every history keeps. -/
theorem final_induction {P : σ → Prop} (hstep : ∀ call s, P s → P (step call s).2) :
    ∀ (calls : List κ) {s : σ}, P s → P (final step calls s)
  | [], _, h => h
  | call :: calls, s, h => by
      have hafter : P (step call s).2 := hstep call s h
      exact final_induction hstep calls hafter

/-- **Origin**: what no step adds but the ones that put it there. -/
theorem origin {P : σ → Prop} {puts : Event σ κ ω → Prop}
    (hstep : ∀ event, step event.call event.before = (event.outcome, event.after) →
      P event.after → P event.before ∨ puts event) :
    ∀ {calls : List κ} {s : σ}, P (final step calls s) →
      P s ∨ ∃ event ∈ trace step calls s, puts event
  | [], _, h => Or.inl h
  | call :: calls, s, h => by
      have hrest : P (final step calls (step call s).2) := h
      rcases origin hstep hrest with hafter | ⟨event, hmem, hputs⟩
      · -- it was there after the first call
        rcases hstep ⟨s, call, (step call s).1, (step call s).2⟩ rfl hafter with hs | hputs
        · exact Or.inl hs
        · exact Or.inr ⟨_, List.mem_cons_self, hputs⟩
      · exact Or.inr ⟨event, List.mem_cons_of_mem _ hmem, hputs⟩

end Basecrawl.History
