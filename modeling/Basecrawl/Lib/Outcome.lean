/-
  Rust's `Result` as `Except`: the early-return combinators and their inversions.

  A function that is a chain of `?` steps returns `Ok` only when every step did.  The lemmas
  here peel such a chain one step at a time, so that a proof about an accepting run never
  unfolds the chain by hand.
-/
import Mathlib.Data.List.Forall2

namespace Basecrawl.Outcome

variable {ε α β : Type}

/-- `if !ok { return Err(e) }`. -/
def require (ok : Bool) (e : ε) : Except ε Unit := if ok then .ok () else .error e

/-- `Option::ok_or`. -/
def okOr (x : Option α) (e : ε) : Except ε α :=
  match x with
  | some a => .ok a
  | none => .error e

@[simp] theorem require_true {e : ε} : require true e = .ok () := rfl

@[simp] theorem okOr_some {a : α} {e : ε} : okOr (some a) e = .ok a := rfl

@[simp] theorem require_eq_ok {ok : Bool} {e : ε} {u : Unit} :
    require ok e = .ok u ↔ ok = true := by
  cases ok <;> simp [require]

@[simp] theorem require_eq_error {ok : Bool} {e e' : ε} :
    require ok e = .error e' ↔ ok = false ∧ e = e' := by
  cases ok <;> simp [require]

@[simp] theorem okOr_eq_ok {x : Option α} {e : ε} {a : α} : okOr x e = .ok a ↔ x = some a := by
  cases x <;> simp [okOr]

@[simp] theorem okOr_eq_error {x : Option α} {e e' : ε} :
    okOr x e = .error e' ↔ x = none ∧ e = e' := by
  cases x <;> simp [okOr]

/-- A chain returns `Ok` when its first step does and the rest does on that step's value. -/
theorem bind_eq_ok {x : Except ε α} {f : α → Except ε β} {b : β} :
    (x >>= f) = .ok b ↔ ∃ a, x = .ok a ∧ f a = .ok b := by
  rcases x with e | a
  · simp [Bind.bind, Except.bind]
  · simp [Bind.bind, Except.bind]

/-- A chain fails in its first step, or in the rest. -/
theorem bind_eq_error {x : Except ε α} {f : α → Except ε β} {e : ε} :
    (x >>= f) = .error e ↔ x = .error e ∨ ∃ a, x = .ok a ∧ f a = .error e := by
  rcases x with e' | a
  · simp [Bind.bind, Except.bind]
  · simp [Bind.bind, Except.bind]

@[simp] theorem ok_bind {a : α} {f : α → Except ε β} : ((.ok a : Except ε α) >>= f) = f a := rfl

/-- A loop returns `Ok` when every round does. -/
theorem mapM_eq_ok {f : α → Except ε β} : ∀ {as : List α} {bs : List β},
    as.mapM f = .ok bs ↔ List.Forall₂ (fun a b => f a = .ok b) as bs
  | [], bs => by
    rw [List.mapM_nil, List.forall₂_nil_left_iff]
    exact ⟨fun h => (Except.ok.inj h).symm, fun h => h ▸ rfl⟩
  | a :: as, bs => by
    rw [List.mapM_cons, bind_eq_ok, List.forall₂_cons_left_iff]
    constructor
    · rintro ⟨b, hb, h⟩
      obtain ⟨bs', hbs', h⟩ := bind_eq_ok.mp h
      cases h
      exact ⟨b, bs', hb, mapM_eq_ok.mp hbs', rfl⟩
    · rintro ⟨b, bs', hb, hbs', rfl⟩
      exact ⟨b, hb, bind_eq_ok.mpr ⟨bs', mapM_eq_ok.mpr hbs', rfl⟩⟩

/-- A round's value is among the values of the loop. -/
theorem exists_of_mapM_eq_ok {f : α → Except ε β} {as : List α} {bs : List β}
    (h : as.mapM f = .ok bs) {a : α} (ha : a ∈ as) : ∃ b ∈ bs, f a = .ok b := by
  induction mapM_eq_ok.mp h with
  | nil => exact absurd ha List.not_mem_nil
  | @cons a' b' as' bs' hab hrest ih =>
    rcases List.mem_cons.mp ha with rfl | ha
    · exact ⟨b', List.mem_cons_self, hab⟩
    · obtain ⟨b, hb, hfb⟩ := ih (mapM_eq_ok.mpr hrest) ha
      exact ⟨b, List.mem_cons_of_mem _ hb, hfb⟩

/-- A value of the loop is the value of a round. -/
theorem exists_of_mem_mapM {f : α → Except ε β} {as : List α} {bs : List β}
    (h : as.mapM f = .ok bs) {b : β} (hb : b ∈ bs) : ∃ a ∈ as, f a = .ok b := by
  induction mapM_eq_ok.mp h with
  | nil => exact absurd hb List.not_mem_nil
  | @cons a' b' as' bs' hab hrest ih =>
    rcases List.mem_cons.mp hb with rfl | hb
    · exact ⟨a', List.mem_cons_self, hab⟩
    · obtain ⟨a, ha, hfa⟩ := ih (mapM_eq_ok.mpr hrest) hb
      exact ⟨a, List.mem_cons_of_mem _ ha, hfa⟩

/-- A loop whose rounds all have a value has one. -/
theorem exists_mapM_eq_ok {f : α → Except ε β} : ∀ {as : List α}, (∀ a ∈ as, ∃ b, f a = .ok b) →
    ∃ bs, as.mapM f = .ok bs
  | [], _ => ⟨[], mapM_eq_ok.mpr .nil⟩
  | a :: as, h => by
    obtain ⟨b, hb⟩ := h a List.mem_cons_self
    obtain ⟨bs, hbs⟩ := exists_mapM_eq_ok fun a' ha' => h a' (List.mem_cons_of_mem a ha')
    exact ⟨b :: bs, mapM_eq_ok.mpr (.cons hb (mapM_eq_ok.mp hbs))⟩

/-- A loop that reads each item and then records what it read. -/
theorem foldlM_eq_ok {σ : Type} {read : α → Except ε β} {record : σ → β → σ} :
    ∀ {as : List α} {s t : σ},
      as.foldlM (fun s a => do return record s (← read a)) s = .ok t ↔
        ∃ bs, List.Forall₂ (fun a b => read a = .ok b) as bs ∧ bs.foldl record s = t
  | [], s, t => by
    constructor
    · intro h
      exact ⟨[], .nil, Except.ok.inj h⟩
    · rintro ⟨bs, hread, rfl⟩
      cases hread
      rfl
  | a :: as, s, t => by
    simp only [List.foldlM_cons, bind_eq_ok]
    constructor
    · rintro ⟨s', ⟨b, hb, hrecord⟩, h⟩
      cases hrecord
      obtain ⟨bs, hbs, h⟩ := foldlM_eq_ok.mp h
      exact ⟨b :: bs, .cons hb hbs, h⟩
    · rintro ⟨bs, hread, h⟩
      cases hread with
      | @cons _ b _ bs hb hbs =>
        exact ⟨record s b, ⟨b, hb, rfl⟩, foldlM_eq_ok.mpr ⟨bs, hbs, h⟩⟩

/-- Changing the error of a result leaves its values. -/
theorem mapError_eq_ok {ε' : Type} {x : Except ε α} {f : ε → ε'} {a : α} :
    x.mapError f = .ok a ↔ x = .ok a := by
  cases x <;> simp [Except.mapError]

end Basecrawl.Outcome
