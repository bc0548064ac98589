/-
  Programs with errors over a state that keeps a log.

  A program is an `EStateM` computation: it ends with a value or an error, and either way it leaves
  a state behind.  `log` reads off the part of the state that only grows.  What a program appends
  to it is the subject of the rules here:

  1. **Running** — `outcome` and `final` split a run into its result and the state it leaves.
  2. **Emitting** — `Emits log x Φ` says that whatever `x` appends satisfies `Φ`, success or not;
     one rule for each way to build a program.
  3. **Emitting only** — the case of a property of single events, which is closed under
     everything.
  4. **Yielding** — the case of a property of the runs that succeed: `Yields log x Φ` says what a
     value comes with.
  5. **Returning** — the case without a log: `Returns x P` says what the values are like.
  6. **Moving** — any part of the state in place of the log: `Moves view R x` says that `x` leads
     from one value of it to another that `R` relates to it.
-/
import Mathlib.Logic.Basic
import Mathlib.Order.Defs.Unbundled

namespace Basecrawl.Run

variable {ε σ α β ev : Type}

/-! ## Running -/

/-- The value or the error a run ended with. -/
def outcome : EStateM.Result ε σ α → Except ε α
  | .ok a _ => .ok a
  | .error e _ => .error e

/-- The state a run left behind. -/
def final : EStateM.Result ε σ α → σ
  | .ok _ s => s
  | .error _ s => s

/-- Run a program and hand its error on as a value. -/
def attempt (x : EStateM ε σ α) : EStateM ε σ (Except ε α) := fun s =>
  .ok (outcome (x s)) (final (x s))

/-- A pure computation as a program. -/
def ofResult : Except ε α → EStateM ε σ α
  | .ok a => pure a
  | .error e => throw e

/-- Update the state. -/
def update (f : σ → σ) : EStateM ε σ Unit := fun s => .ok () (f s)

/-- Run `x`, then release what it held, whatever came of it. -/
def releasing (release : σ → σ) (x : EStateM ε σ α) : EStateM ε σ α := fun s =>
  match x s with
  | .ok a s => .ok a (release s)
  | .error e s => .error e (release s)

/-- A sequence runs its first part and continues only from a value. -/
theorem bind_apply {x : EStateM ε σ α} {f : α → EStateM ε σ β} {s : σ} :
    (x >>= f) s = match x s with
      | .ok a s' => f a s'
      | .error e s' => .error e s' := rfl

theorem bind_of_ok {x : EStateM ε σ α} (f : α → EStateM ε σ β) {s s' : σ} {a : α}
    (h : x s = .ok a s') : (x >>= f) s = f a s' := by
  rw [bind_apply, h]

theorem bind_of_error {x : EStateM ε σ α} (f : α → EStateM ε σ β) {s s' : σ} {e : ε}
    (h : x s = .error e s') : (x >>= f) s = .error e s' := by
  rw [bind_apply, h]

/-- A value that is only turned into another one leaves the same state behind. -/
theorem final_bind_pure {x : EStateM ε σ α} {f : α → β} {s : σ} :
    final ((x >>= fun a => pure (f a)) s) = final (x s) := by
  rw [bind_apply]
  cases x s with
  | ok a s' => rfl
  | error e s' => rfl

/-- A sequence succeeds when both of its parts do. -/
theorem bind_run_eq_ok {x : EStateM ε σ α} {f : α → EStateM ε σ β} {s t : σ} {b : β} :
    (x >>= f) s = .ok b t ↔ ∃ a s', x s = .ok a s' ∧ f a s' = .ok b t := by
  rw [bind_apply]
  cases hx : x s with
  | ok a s' =>
    constructor
    · intro h
      exact ⟨a, s', rfl, h⟩
    · rintro ⟨a', s'', h, hf⟩
      cases h
      exact hf
  | error e s' =>
    constructor
    · intro h
      cases h
    · rintro ⟨a', s'', h, -⟩
      cases h

/-- What is released after a failure does not change the failure. -/
theorem releasing_of_error {release : σ → σ} {x : EStateM ε σ α} {s s' : σ} {e : ε}
    (h : x s = .error e s') : releasing release x s = .error e (release s') := by
  unfold releasing
  rw [h]

theorem ofResult_ok (a : α) (s : σ) : (ofResult (.ok a) : EStateM ε σ α) s = .ok a s := rfl

/-- A pure step fails and leaves the state alone, or hands its value on. -/
theorem ofResult_bind_cases (r : Except ε α) (f : α → EStateM ε σ β) (s : σ) :
    (∃ e, (ofResult r >>= f) s = .error e s) ∨ ∃ a, r = .ok a ∧ (ofResult r >>= f) s = f a s := by
  cases r with
  | error e => exact Or.inl ⟨e, rfl⟩
  | ok a => exact Or.inr ⟨a, rfl, rfl⟩

/-- Pure steps in sequence. -/
theorem ofResult_bind (r : Except ε α) (f : α → Except ε β) :
    (ofResult (r >>= f) : EStateM ε σ β) = ofResult r >>= fun a => ofResult (f a) := by
  cases r with
  | ok a => rfl
  | error e => rfl

theorem ofResult_bind_eq_ok {r : Except ε α} {f : α → EStateM ε σ β} {b : β} {s t : σ} :
    (ofResult r >>= f) s = .ok b t ↔ ∃ a, r = .ok a ∧ f a s = .ok b t := by
  cases r with
  | error e =>
    refine ⟨fun h => ?_, fun ⟨_, h, _⟩ => by cases h⟩
    cases h
  | ok a =>
    refine ⟨fun h => ⟨a, rfl, h⟩, fun ⟨_, h, hf⟩ => ?_⟩
    cases h
    exact hf

/-! ## Emitting -/

/-- Whatever `x` appends to the log, with the way it ended, satisfies `Φ`. -/
def Emits (log : σ → List ev) (x : EStateM ε σ α) (Φ : Except ε α → List ev → Prop) : Prop :=
  ∀ s, ∃ es, log (final (x s)) = log s ++ es ∧ Φ (outcome (x s)) es

variable {log : σ → List ev} {x : EStateM ε σ α} {f : α → EStateM ε σ β}
  {Φ Φ' : Except ε α → List ev → Prop}

theorem Emits.mono (h : Emits log x Φ) (himp : ∀ r es, Φ r es → Φ' r es) : Emits log x Φ' := by
  intro s
  obtain ⟨es, hlog, hes⟩ := h s
  exact ⟨es, hlog, himp _ _ hes⟩

theorem emits_pure {a : α} (h : Φ (.ok a) []) : Emits log (pure a : EStateM ε σ α) Φ :=
  fun s => ⟨[], (List.append_nil (log s)).symm, h⟩

theorem emits_throw {e : ε} (h : Φ (.error e) []) : Emits log (throw e : EStateM ε σ α) Φ :=
  fun s => ⟨[], (List.append_nil (log s)).symm, h⟩

theorem emits_ofResult {r : Except ε α} (h : Φ r []) : Emits log (ofResult r) Φ := by
  cases r with
  | ok a => exact emits_pure h
  | error e => exact emits_throw h

/-- The first part fails with what it emitted, or hands a value on and the rest adds to it. -/
theorem Emits.bind {Ψ : Except ε β → List ev → Prop} (hx : Emits log x Φ)
    (herror : ∀ e es, Φ (.error e) es → Ψ (.error e) es)
    (hf : ∀ a es, Φ (.ok a) es → Emits log (f a) fun r es' => Ψ r (es ++ es')) :
    Emits log (x >>= f) Ψ := by
  intro s
  obtain ⟨es, hlog, hes⟩ := hx s
  rw [bind_apply]
  cases hrun : x s with
  | error e t =>
    rw [hrun] at hlog hes
    exact ⟨es, hlog, herror e es hes⟩
  | ok a t =>
    rw [hrun] at hlog hes
    obtain ⟨es', hlog', hes'⟩ := hf a es hes t
    refine ⟨es ++ es', ?_, hes'⟩
    show log (final (f a t)) = _
    rw [hlog', show log t = log s ++ es from hlog, List.append_assoc]

/-- What is known of a program in two ways holds of the same events. -/
theorem Emits.and (h : Emits log x Φ) (h' : Emits log x Φ') :
    Emits log x fun r es => Φ r es ∧ Φ' r es := by
  intro s
  obtain ⟨es, hlog, hes⟩ := h s
  obtain ⟨es', hlog', hes'⟩ := h' s
  obtain rfl : es = es' := List.append_cancel_left (hlog.symm.trans hlog')
  exact ⟨es, hlog, hes, hes'⟩

/-- A pure step fails before anything is emitted, or its value is handed on. -/
theorem emits_ofResult_bind {Ψ : Except ε β → List ev → Prop} {r : Except ε α}
    (herror : ∀ e, r = .error e → Ψ (.error e) [])
    (hf : ∀ a, r = .ok a → Emits log (f a) Ψ) : Emits log (ofResult r >>= f) Ψ := by
  cases r with
  | ok a => exact hf a rfl
  | error e => exact emits_throw (herror e rfl)

theorem Emits.releasing {release : σ → σ} (hx : Emits log x Φ)
    (hrelease : ∀ s, log (release s) = log s) : Emits log (releasing release x) Φ := by
  intro s
  obtain ⟨es, hlog, hes⟩ := hx s
  unfold Run.releasing
  cases hrun : x s with
  | ok a t =>
    rw [hrun] at hlog hes
    exact ⟨es, (hrelease t).trans hlog, hes⟩
  | error e t =>
    rw [hrun] at hlog hes
    exact ⟨es, (hrelease t).trans hlog, hes⟩

theorem Emits.attempt {Ψ : Except ε (Except ε α) → List ev → Prop} (hx : Emits log x Φ)
    (h : ∀ r es, Φ r es → Ψ (.ok r) es) : Emits log (attempt x) Ψ := by
  intro s
  obtain ⟨es, hlog, hes⟩ := hx s
  exact ⟨es, hlog, h _ _ hes⟩

/-! ### Parts of a state -/

variable {τ : Type}

/-- A program on the first part of a state. -/
def onFst (x : EStateM ε σ α) : EStateM ε (σ × τ) α := fun s =>
  match x s.1 with
  | .ok a s' => .ok a (s', s.2)
  | .error e s' => .error e (s', s.2)

/-- A program on the second part of a state. -/
def onSnd (x : EStateM ε τ α) : EStateM ε (σ × τ) α := fun s =>
  match x s.2 with
  | .ok a t => .ok a (s.1, t)
  | .error e t => .error e (s.1, t)

theorem Emits.onFst (h : Emits log x Φ) :
    Emits (fun s : σ × τ => log s.1) (Run.onFst x) Φ := by
  intro s
  obtain ⟨es, hlog, hes⟩ := h s.1
  rw [Run.onFst]
  cases hrun : x s.1 with
  | ok a s' =>
    rw [hrun] at hlog hes
    exact ⟨es, hlog, hes⟩
  | error e s' =>
    rw [hrun] at hlog hes
    exact ⟨es, hlog, hes⟩

theorem emits_onSnd {x : EStateM ε τ α} (h : ∀ r, Φ r []) :
    Emits (fun s : σ × τ => log s.1) (onSnd x) Φ := by
  intro s
  rw [onSnd]
  cases hrun : x s.2 with
  | ok a t => exact ⟨[], (List.append_nil _).symm, h _⟩
  | error e t => exact ⟨[], (List.append_nil _).symm, h _⟩

/-! ## Emitting only -/

/-- Every event that `x` appends satisfies `p`. -/
def EmitsOnly (log : σ → List ev) (p : ev → Prop) (x : EStateM ε σ α) : Prop :=
  Emits log x fun _ es => ∀ e ∈ es, p e

variable {p q : ev → Prop}

theorem EmitsOnly.mono (h : EmitsOnly log p x) (himp : ∀ e, p e → q e) : EmitsOnly log q x :=
  Emits.mono h fun _ _ hes e he => himp e (hes e he)

theorem emitsOnly_pure {a : α} : EmitsOnly log p (pure a : EStateM ε σ α) :=
  emits_pure fun _ he => absurd he List.not_mem_nil

theorem emitsOnly_throw {e : ε} : EmitsOnly log p (throw e : EStateM ε σ α) :=
  emits_throw fun _ he => absurd he List.not_mem_nil

theorem emitsOnly_ofResult {r : Except ε α} : EmitsOnly log p (ofResult r : EStateM ε σ α) :=
  emits_ofResult fun _ he => absurd he List.not_mem_nil

theorem EmitsOnly.bind (hx : EmitsOnly log p x) (hf : ∀ a, EmitsOnly log p (f a)) :
    EmitsOnly log p (x >>= f) := by
  refine Emits.bind hx (fun _ _ hes => hes) ?_
  intro a es hes
  refine Emits.mono (hf a) ?_
  intro _ es' hes' e he
  rcases List.mem_append.mp he with he | he
  · exact hes e he
  · exact hes' e he

theorem EmitsOnly.attempt (hx : EmitsOnly log p x) : EmitsOnly log p (attempt x) :=
  Emits.attempt hx fun _ _ hes => hes

/-- A program that leaves the log alone emits nothing. -/
theorem emitsOnly_of_log_eq (h : ∀ s, log (final (x s)) = log s) : EmitsOnly log p x :=
  fun s => ⟨[], by rw [h, List.append_nil], fun _ he => absurd he List.not_mem_nil⟩

/-- A program that emits nothing comes before a program whose property it does not touch. -/
theorem emits_silent_bind {Ψ : Except ε β → List ev → Prop}
    (hx : EmitsOnly log (fun _ => False) x) (herror : ∀ e, Ψ (.error e) [])
    (hf : ∀ a, Emits log (f a) Ψ) : Emits log (x >>= f) Ψ := by
  have hnil : ∀ es : List ev, (∀ e ∈ es, False) → es = [] :=
    fun es hes => List.eq_nil_iff_forall_not_mem.mpr hes
  refine Emits.bind hx ?_ ?_
  · intro e es hes
    rw [hnil es hes]
    exact herror e
  · intro a es hes
    rw [hnil es hes]
    exact hf a

/-! ## Yielding -/

/-- A value that `x` returns comes with events that satisfy `Θ`. -/
def Yields (log : σ → List ev) (x : EStateM ε σ α) (Θ : α → List ev → Prop) : Prop :=
  Emits log x fun r es => ∀ a, r = .ok a → Θ a es

variable {Θ Θ' : α → List ev → Prop} {Ξ : β → List ev → Prop}

theorem Yields.mono (h : Yields log x Θ) (himp : ∀ a es, Θ a es → Θ' a es) : Yields log x Θ' :=
  Emits.mono h fun _ es hes a ha => himp a es (hes a ha)

theorem Yields.and (h : Yields log x Θ) (h' : Yields log x Θ') :
    Yields log x fun a es => Θ a es ∧ Θ' a es :=
  (Emits.and h h').mono fun _ _ hes a ha => ⟨hes.1 a ha, hes.2 a ha⟩

theorem yields_pure {a : α} (h : Θ a []) : Yields log (pure a : EStateM ε σ α) Θ := by
  refine emits_pure ?_
  intro b hb
  obtain rfl := Except.ok.inj hb
  exact h

theorem yields_ofResult {r : Except ε α} (h : ∀ a, r = .ok a → Θ a []) :
    Yields log (ofResult r : EStateM ε σ α) Θ :=
  emits_ofResult h

theorem Yields.bind (hx : Yields log x Θ)
    (hf : ∀ a es, Θ a es → Yields log (f a) fun b es' => Ξ b (es ++ es')) :
    Yields log (x >>= f) Ξ := by
  refine Emits.bind hx ?_ ?_
  · intro e es _ b hb
    cases hb
  · intro a es hes
    exact hf a es (hes a rfl)

theorem yields_ofResult_bind {r : Except ε α} (hf : ∀ a, r = .ok a → Yields log (f a) Ξ) :
    Yields log (ofResult r >>= f) Ξ :=
  emits_ofResult_bind (fun _ _ b hb => by cases hb) hf

theorem yields_silent_bind (hx : EmitsOnly log (fun _ => False) x)
    (hf : ∀ a, Yields log (f a) Ξ) : Yields log (x >>= f) Ξ :=
  emits_silent_bind hx (fun _ b hb => by cases hb) hf

theorem Yields.releasing {release : σ → σ} (hx : Yields log x Θ)
    (hrelease : ∀ s, log (release s) = log s) : Yields log (releasing release x) Θ :=
  Emits.releasing hx hrelease

/-- What is emitted only is also what a value comes with. -/
theorem EmitsOnly.yields (hx : EmitsOnly log p x) : Yields log x fun _ es => ∀ e ∈ es, p e :=
  Emits.mono hx fun _ _ hes _ _ => hes

/-- A run that succeeds brings what its value comes with. -/
theorem Yields.of_eq_ok (h : Yields log x Θ) {a : α} {s s' : σ} (hrun : x s = .ok a s') :
    ∃ es, log s' = log s ++ es ∧ Θ a es := by
  obtain ⟨es, hlog, hes⟩ := h s
  rw [hrun] at hlog hes
  exact ⟨es, hlog, hes a rfl⟩

/-! ## Returning -/

section Returning

variable {P : α → Prop} {Q : β → Prop}

/-- Every value that `x` returns satisfies `P`. -/
def Returns (x : EStateM ε σ α) (P : α → Prop) : Prop :=
  ∀ s a s', x s = .ok a s' → P a

theorem returns_pure {a : α} (h : P a) : Returns (pure a : EStateM ε σ α) P := by
  intro s b s' hrun
  cases hrun
  exact h

theorem returns_ofResult {r : Except ε α} (h : ∀ a, r = .ok a → P a) :
    Returns (ofResult r : EStateM ε σ α) P := by
  cases r with
  | ok a => exact returns_pure (h a rfl)
  | error e =>
    intro s b s' hrun
    cases hrun

theorem Returns.bind (hx : Returns x P) (hf : ∀ a, P a → Returns (f a) Q) :
    Returns (x >>= f) Q := by
  intro s b s' hrun
  obtain ⟨a, t, hfirst, hrest⟩ := bind_run_eq_ok.mp hrun
  exact hf a (hx s a t hfirst) t b s' hrest

/-- Nothing has to be known of the first part. -/
theorem returns_bind (hf : ∀ a, Returns (f a) Q) : Returns (x >>= f) Q :=
  Returns.bind (P := fun _ => True) (fun _ _ _ _ => trivial) fun a _ => hf a

theorem returns_ofResult_bind {r : Except ε α} (hf : ∀ a, r = .ok a → Returns (f a) Q) :
    Returns (ofResult r >>= f) Q :=
  Returns.bind (returns_ofResult fun _ h => h) hf

theorem Returns.releasing {release : σ → σ} (hx : Returns x P) :
    Returns (Run.releasing release x) P := by
  intro s a s' hrun
  unfold Run.releasing at hrun
  cases hfirst : x s with
  | ok b t =>
    rw [hfirst] at hrun
    cases hrun
    exact hx s a t hfirst
  | error e t =>
    rw [hfirst] at hrun
    cases hrun

end Returning

/-! ## Moving -/

section Moving

variable {τ : Type} {view : σ → τ} {R R' : τ → τ → Prop}

/-- However `x` ends, it leads from what is viewed to something that `R` relates to it. -/
def Moves (view : σ → τ) (R : τ → τ → Prop) (x : EStateM ε σ α) : Prop :=
  ∀ s, R (view s) (view (final (x s)))

theorem Moves.mono (h : Moves view R x) (himp : ∀ a b, R a b → R' a b) : Moves view R' x :=
  fun s => himp _ _ (h s)

theorem Moves.attempt (hx : Moves view R x) : Moves view R (Run.attempt x) := hx

variable [IsPreorder τ R]

theorem moves_of_view_eq (h : ∀ s, view (final (x s)) = view s) : Moves view R x := by
  intro s
  rw [h s]
  exact refl_of R (view s)

theorem moves_pure {a : α} : Moves view R (pure a : EStateM ε σ α) :=
  moves_of_view_eq fun _ => rfl

theorem moves_throw {e : ε} : Moves view R (throw e : EStateM ε σ α) :=
  moves_of_view_eq fun _ => rfl

theorem moves_ofResult {r : Except ε α} : Moves view R (ofResult r : EStateM ε σ α) := by
  cases r with
  | ok a => exact moves_pure
  | error e => exact moves_throw

theorem Moves.bind (hx : Moves view R x) (hf : ∀ a, Moves view R (f a)) :
    Moves view R (x >>= f) := by
  intro s
  have hfirst := hx s
  rw [bind_apply]
  cases hrun : x s with
  | error e t =>
    rw [hrun] at hfirst
    exact hfirst
  | ok a t =>
    rw [hrun] at hfirst
    exact trans_of R hfirst (hf a t)

theorem moves_ofResult_bind {r : Except ε α} (hf : ∀ a, r = .ok a → Moves view R (f a)) :
    Moves view R (ofResult r >>= f) := by
  cases r with
  | ok a => exact hf a rfl
  | error e => exact moves_throw

theorem Moves.releasing {release : σ → σ} (hx : Moves view R x)
    (hrelease : ∀ s, R (view s) (view (release s))) : Moves view R (Run.releasing release x) := by
  intro s
  have hfirst := hx s
  unfold Run.releasing
  cases hrun : x s with
  | ok a t =>
    rw [hrun] at hfirst
    exact trans_of R hfirst (hrelease t)
  | error e t =>
    rw [hrun] at hfirst
    exact trans_of R hfirst (hrelease t)

/-- The log grows by events that satisfy `p`. -/
def Extends (log : σ → List ev) (p : ev → Prop) (s t : σ) : Prop :=
  ∃ es, log t = log s ++ es ∧ ∀ e ∈ es, p e

instance : IsPreorder σ (Extends log p) where
  refl s := ⟨[], (List.append_nil _).symm, fun _ he => absurd he List.not_mem_nil⟩
  trans s t u := by
    rintro ⟨es, hes, hp⟩ ⟨es', hes', hp'⟩
    refine ⟨es ++ es', by rw [hes', hes, List.append_assoc], fun e he => ?_⟩
    exact (List.mem_append.mp he).elim (hp e) (hp' e)

theorem extends_of_log_eq {s t : σ} (h : log t = log s) : Extends log p s t :=
  ⟨[], by rw [h, List.append_nil], fun _ he => absurd he List.not_mem_nil⟩

end Moving

end Basecrawl.Run
