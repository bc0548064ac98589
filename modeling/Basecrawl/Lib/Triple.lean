/-
  Triples of programs with errors.

  `Triple P x Q E` says of `x` from a state in `P` that it returns a value and a state in `Q`, or
  ends with an error and a state in `E`.  One rule for each way to build a program; a caller cites the triple of
  what it calls.
-/
import Basecrawl.Lib.Reader
import Basecrawl.Lib.Run

namespace Basecrawl.Run

open Reading

variable {ε ε' σ α β : Type}

def Triple (P : σ → Prop) (x : EStateM ε σ α) (Q : α → σ → Prop) (E : ε → σ → Prop) :
    Prop :=
  ∀ s, P s → (∃ a s', x s = .ok a s' ∧ Q a s') ∨ ∃ e s', x s = .error e s' ∧ E e s'

variable {P P' : σ → Prop} {x : EStateM ε σ α} {f : α → EStateM ε σ β} {Q Q' : α → σ → Prop}
  {R : β → σ → Prop} {E E' : ε → σ → Prop}

theorem Triple.mono (h : Triple P x Q E) (hP : ∀ s, P' s → P s) (hQ : ∀ a s, Q a s → Q' a s)
    (hE : ∀ e s, E e s → E' e s) : Triple P' x Q' E' := by
  intro s hs
  rcases h s (hP s hs) with ⟨a, s', hrun, hq⟩ | ⟨e, s', hrun, he⟩
  · exact Or.inl ⟨a, s', hrun, hQ a s' hq⟩
  · exact Or.inr ⟨e, s', hrun, hE e s' he⟩

theorem triple_pure {a : α} (h : ∀ s, P s → Q a s) : Triple P (pure a : EStateM ε σ α) Q E :=
  fun s hs => Or.inl ⟨a, s, rfl, h s hs⟩

theorem triple_throw {e : ε} (h : ∀ s, P s → E e s) : Triple P (throw e : EStateM ε σ α) Q E :=
  fun s hs => Or.inr ⟨e, s, rfl, h s hs⟩

theorem Triple.bind (hx : Triple P x Q E) (hf : ∀ a, Triple (Q a) (f a) R E) :
    Triple P (x >>= f) R E := by
  intro s hs
  rcases hx s hs with ⟨a, s₁, hrun, hq⟩ | ⟨e, s₁, hrun, he⟩
  · rw [bind_of_ok f hrun]
    exact hf a s₁ hq
  · exact Or.inr ⟨e, s₁, bind_of_error f hrun, he⟩

theorem triple_ofResult {r : Except ε α} (hok : ∀ a, r = .ok a → ∀ s, P s → Q a s)
    (herr : ∀ e, r = .error e → ∀ s, P s → E e s) : Triple P (ofResult r : EStateM ε σ α) Q E := by
  intro s hs
  cases r with
  | ok a => exact Or.inl ⟨a, s, rfl, hok a rfl s hs⟩
  | error e => exact Or.inr ⟨e, s, rfl, herr e rfl s hs⟩

theorem Triple.mapErr {F : ε' → σ → Prop} {g : ε → ε'} (hx : Triple P x Q E)
    (hg : ∀ e s, E e s → F (g e) s) : Triple P (mapErr g x) Q F := by
  intro s hs
  unfold Reading.mapErr
  rcases hx s hs with ⟨a, s', hrun, hq⟩ | ⟨e, s', hrun, he⟩
  · rw [hrun]
    exact Or.inl ⟨a, s', rfl, hq⟩
  · rw [hrun]
    exact Or.inr ⟨g e, s', rfl, hg e s' he⟩

end Basecrawl.Run
