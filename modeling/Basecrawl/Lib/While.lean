/-
  `while` loops of checked code.

  1. **Loops** — a pass goes on from a new state or is done with a value.  A loop has fuel, and is
     out of it with an error of its own, so that to return is to terminate.
  2. **The rule** — an invariant and a measure that every pass lowers: with fuel above the measure
     the loop returns (`loop_returns`), with the value that every pass keeps (`loop_eq`).  What the
     passes keep holds of every state that is reached (`Reaches.invariant`).
  3. **Skipping** — `while i < xs.len() && p(xs[i]) { i += 1 }` (`skip_eq`).
-/
import Mathlib.Logic.Relation
import Basecrawl.Lib.Panic

namespace Basecrawl.While

open Panic Outcome

variable {ε σ α β : Type}

/-! ## Loops -/

/-- How a pass ends. -/
inductive Pass (σ α : Type) where
  | next (s : σ)
  | done (a : α)

/-- A loop whose fuel was not enough. -/
inductive Endless where
  | endless

/-- Take passes until one of them is done. -/
def loop (pass : σ → Checked Endless (Pass σ α)) : Nat → σ → Checked Endless α
  | 0, _ => fail .endless
  | fuel + 1, s => do
    match ← pass s with
    | .next s => loop pass fuel s
    | .done a => return a

/-- A state that the loop comes to. -/
def Reaches (pass : σ → Checked Endless (Pass σ α)) : σ → σ → Prop :=
  Relation.ReflTransGen fun s s' => pass s = .ok (.next s')

/-! ## The rule -/

/-- What is asked of a pass. -/
def Pass.Holds (onNext : σ → Prop) (onDone : α → Prop) : Pass σ α → Prop
  | .next s => onNext s
  | .done a => onDone a

variable {pass : σ → Checked Endless (Pass σ α)}

theorem loop_of_next {fuel : Nat} {s s' : σ} (h : pass s = .ok (.next s')) :
    loop pass (fuel + 1) s = loop pass fuel s' := by
  rw [loop, h]
  rfl

theorem loop_of_done {fuel : Nat} {s : σ} {a : α} (h : pass s = .ok (.done a)) :
    loop pass (fuel + 1) s = .ok a := by
  rw [loop, h]
  rfl

/-- **Termination and correctness** of a loop, from those of a pass. -/
theorem loop_returns (I : σ → Prop) (μ : σ → Nat) (Q : α → Prop)
    (hpass : ∀ s, I s → ∃ p, pass s = .ok p ∧ p.Holds (fun s' => I s' ∧ μ s' < μ s) Q)
    {fuel : Nat} {s : σ} (hs : I s) (hfuel : μ s < fuel) :
    ∃ a, loop pass fuel s = .ok a ∧ Q a := by
  induction fuel generalizing s with
  | zero => exact absurd hfuel (Nat.not_lt_zero _)
  | succ fuel ih =>
    obtain ⟨p, hp, hholds⟩ := hpass s hs
    cases p with
    | next s' =>
      obtain ⟨hs', hless⟩ := hholds
      rw [loop_of_next hp]
      exact ih hs' (by omega)
    | done a => exact ⟨a, loop_of_done hp, hholds⟩

/-- **A loop that computes a function** of the state, because every pass keeps its value. -/
theorem loop_eq (I : σ → Prop) (μ : σ → Nat) (spec : σ → α)
    (hpass : ∀ s, I s → ∃ p, pass s = .ok p ∧
      p.Holds (fun s' => I s' ∧ spec s' = spec s ∧ μ s' < μ s) (· = spec s))
    {fuel : Nat} {s : σ} (hs : I s) (hfuel : μ s < fuel) : loop pass fuel s = .ok (spec s) := by
  have hkept : ∀ t, I t ∧ spec t = spec s → ∃ p, pass t = .ok p ∧
      p.Holds (fun t' => (I t' ∧ spec t' = spec s) ∧ μ t' < μ t) (· = spec s) := by
    rintro t ⟨ht, hsame⟩
    obtain ⟨p, hp, hholds⟩ := hpass t ht
    rw [hsame] at hholds
    refine ⟨p, hp, ?_⟩
    cases p with
    | next t' => exact ⟨⟨hholds.1, hholds.2.1⟩, hholds.2.2⟩
    | done a => exact hholds
  obtain ⟨a, hloop, rfl⟩ := loop_returns _ μ _ hkept ⟨hs, rfl⟩ hfuel
  exact hloop

/-- What every pass keeps. -/
theorem Reaches.invariant {I : σ → Prop} {s s' : σ} (h : Reaches pass s s')
    (hpass : ∀ s, I s → ∀ s', pass s = .ok (.next s') → I s') (hs : I s) : I s' := by
  induction h with
  | refl => exact hs
  | tail _ hlast ih => exact hpass _ ih _ hlast

/-! ## Skipping -/

/-- A pass over one element. -/
def skipPass (w : Nat) (p : α → Bool) (xs : List α) (i : Nat) : Checked Endless (Pass Nat Nat) :=
  if i < xs.length then do
    let x ← index xs i
    if p x then do
      let i ← add w i 1
      return .next i
    else return .done i
  else return .done i

/-- `while i < xs.len() && p(xs[i]) { i += 1 }`. -/
def skip (w : Nat) (p : α → Bool) (xs : List α) (i : Nat) : Checked Endless Nat :=
  loop (skipPass w p xs) (xs.length + 1) i

variable {w : Nat} {p : α → Bool} {xs : List α} {i : Nat}

theorem takeWhile_drop_le (h : i ≤ xs.length) :
    i + ((xs.drop i).takeWhile p).length ≤ xs.length := by
  have hprefix := (List.takeWhile_prefix (l := xs.drop i) p).length_le
  rw [List.length_drop] at hprefix
  omega

/-- **Skipping** goes behind the elements that satisfy `p`. -/
theorem skip_eq (hw : xs.length < 2 ^ w) (h : i ≤ xs.length) :
    skip w p xs i = .ok (i + ((xs.drop i).takeWhile p).length) := by
  refine loop_eq (· ≤ xs.length) (xs.length - ·)
    (fun j => j + ((xs.drop j).takeWhile p).length) (fun j hj => ?_) h
    (show xs.length - i < xs.length + 1 by omega)
  unfold skipPass
  by_cases hmore : j < xs.length
  · rw [if_pos hmore, index_eq hmore, ok_bind, List.drop_eq_getElem_cons hmore]
    by_cases hp : p xs[j] = true
    · rw [if_pos hp, add_eq rfl (by omega), ok_bind, List.takeWhile_cons_of_pos hp,
        List.length_cons]
      exact ⟨_, rfl, hmore, by omega, by omega⟩
    · rw [if_neg hp, List.takeWhile_cons_of_neg hp]
      exact ⟨_, rfl, rfl⟩
  · rw [if_neg hmore, List.drop_eq_nil_of_le (by omega)]
    exact ⟨_, rfl, rfl⟩

/-- What is behind them. -/
theorem drop_skipped (xs : List α) (i : Nat) :
    xs.drop (i + ((xs.drop i).takeWhile p).length) = (xs.drop i).dropWhile p := by
  have hsplit : ((xs.drop i).takeWhile p ++ (xs.drop i).dropWhile p).drop
      ((xs.drop i).takeWhile p).length = (xs.drop i).dropWhile p := List.drop_left
  rw [← List.drop_drop]
  rwa [List.takeWhile_append_dropWhile] at hsplit

/-- The slice that was skipped. -/
theorem slice_skipped (h : i ≤ xs.length) :
    (slice xs i (i + ((xs.drop i).takeWhile p).length) : Checked ε (List α)) =
      .ok ((xs.drop i).takeWhile p) :=
  slice_of_drop h (List.takeWhile_append_dropWhile (p := p) (l := xs.drop i)).symm rfl

end Basecrawl.While
