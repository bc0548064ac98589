/-
  Code that may panic.

  A bounds-checked read or an overflow-checked addition that fails does not return an `Err`, it
  stops the program; a result here is a value, an `Err`, or a panic.  `Decides x P` says all there
  is to say of a checker that returns `()`: it never panics, and it returns `Ok` exactly when `P`
  holds.  It is proved one statement at a time: a check on the way must be one that `P` needs
  (`Decides.bind`, `decides_checkedAdd`), a read whose bounds are already known is replaced by its
  value (`decides_of_ok`), and at the end the checks that were passed must give `P`.

  `w` is the width of `usize`.
-/
import Mathlib.Algebra.Group.Nat.Defs
import Basecrawl.Lib.Outcome

namespace Basecrawl.Panic

open Outcome

/-- Why there is no value. -/
inductive Stop (ε : Type) where
  | panic
  | err (e : ε)
deriving DecidableEq

abbrev Checked (ε α : Type) := Except (Stop ε) α

variable {ε α β : Type}

/-- `return Err(e)`. -/
def fail (e : ε) : Checked ε α := .error (.err e)

/-- `xs[i]`. -/
def index (xs : List α) (i : Nat) : Checked ε α := okOr xs[i]? .panic

/-- `xs.get(lo..hi)`. -/
def getRange (xs : List α) (lo hi : Nat) : Option (List α) :=
  if lo ≤ hi ∧ hi ≤ xs.length then some ((xs.drop lo).take (hi - lo)) else none

/-- `&xs[lo..hi]`. -/
def slice (xs : List α) (lo hi : Nat) : Checked ε (List α) := okOr (getRange xs lo hi) .panic

/-- `&xs[lo..]`. -/
def sliceFrom (xs : List α) (lo : Nat) : Checked ε (List α) := slice xs lo xs.length

/-- `usize::checked_add`. -/
def checkedAdd (w a b : Nat) : Option Nat := if a + b < 2 ^ w then some (a + b) else none

/-- `a + b` on `usize`, with overflow checks. -/
def add (w a b : Nat) : Checked ε Nat := okOr (checkedAdd w a b) .panic

/-- `a * b` on `usize`, with overflow checks. -/
def mul (w a b : Nat) : Checked ε Nat := if a * b < 2 ^ w then .ok (a * b) else .error .panic

/-- `n as usize`. -/
def asUsize (w n : Nat) : Nat := n % 2 ^ w

/-! ## Operations whose operands are in range -/

theorem index_eq {xs : List α} {i : Nat} (h : i < xs.length) :
    (index xs i : Checked ε α) = .ok xs[i] := by
  rw [index, List.getElem?_eq_getElem h, okOr_some]

theorem getRange_eq {xs : List α} {lo hi : Nat} (h : lo ≤ hi) (h' : hi ≤ xs.length) :
    getRange xs lo hi = some ((xs.drop lo).take (hi - lo)) :=
  if_pos ⟨h, h'⟩

theorem slice_eq {xs : List α} {lo hi : Nat} (h : lo ≤ hi) (h' : hi ≤ xs.length) :
    (slice xs lo hi : Checked ε (List α)) = .ok ((xs.drop lo).take (hi - lo)) := by
  rw [slice, getRange_eq h h', okOr_some]

theorem sliceFrom_eq {xs : List α} {lo : Nat} (h : lo ≤ xs.length) :
    (sliceFrom xs lo : Checked ε (List α)) = .ok (xs.drop lo) := by
  rw [sliceFrom, slice_eq h (Nat.le_refl _), ← List.length_drop, List.take_length]

theorem getElem?_of_drop {xs ys : List α} {i : Nat} {a : α} (h : xs.drop i = a :: ys) :
    xs[i]? = some a := by
  rw [← List.head?_drop, h, List.head?_cons]

theorem lt_of_drop {xs ys : List α} {i : Nat} {a : α} (h : xs.drop i = a :: ys) :
    i < xs.length := by
  by_contra hge
  rw [List.drop_eq_nil_of_le (by omega)] at h
  cases h

/-- Reading where the rest is known. -/
theorem index_of_drop (xs : List α) {ys : List α} {i : Nat} {a : α} (h : xs.drop i = a :: ys) :
    (index xs i : Checked ε α) = .ok a := by
  rw [index, getElem?_of_drop h, okOr_some]

theorem getRange_of_drop {xs ys zs : List α} {lo hi : Nat} (hlo : lo ≤ xs.length)
    (h : xs.drop lo = ys ++ zs) (hhi : hi = lo + ys.length) : getRange xs lo hi = some ys := by
  have hlen := congrArg List.length h
  rw [List.length_drop, List.length_append] at hlen
  rw [getRange, if_pos (by omega), h, hhi, Nat.add_sub_cancel_left, List.take_left]

theorem slice_of_drop {xs ys zs : List α} {lo hi : Nat} (hlo : lo ≤ xs.length)
    (h : xs.drop lo = ys ++ zs) (hhi : hi = lo + ys.length) :
    (slice xs lo hi : Checked ε (List α)) = .ok ys := by
  rw [slice, getRange_of_drop hlo h hhi, okOr_some]

theorem add_eq {w a b c : Nat} (h : a + b = c) (hc : c < 2 ^ w) :
    (add w a b : Checked ε Nat) = .ok c := by
  subst h
  rw [add, checkedAdd, if_pos hc, okOr_some]

theorem mul_eq {w a b : Nat} (h : a * b < 2 ^ w) : (mul w a b : Checked ε Nat) = .ok (a * b) :=
  if_pos h

theorem asUsize_eq {w n : Nat} (h : n < 2 ^ w) : asUsize w n = n := Nat.mod_eq_of_lt h

/-! ## Checkers -/

/-- It never panics, and returns `Ok(())` exactly when `P` holds. -/
structure Decides (x : Checked ε Unit) (P : Prop) : Prop where
  no_panic : x ≠ .error .panic
  ok_iff : x = .ok () ↔ P

theorem decides_ok {P : Prop} (hP : P) : Decides (.ok () : Checked ε Unit) P :=
  ⟨by simp, by simp [hP]⟩

theorem decides_fail {P : Prop} {e : ε} (hP : ¬ P) : Decides (fail e) P :=
  ⟨by simp [fail], by simp [fail, hP]⟩

theorem decides_require {c : Prop} {_ : Decidable c} {e : ε} :
    Decides (require (decide c) (.err e)) c := by
  by_cases hc : c
  · rw [decide_eq_true hc]
    exact decides_ok hc
  · rw [decide_eq_false hc]
    exact decides_fail hc

theorem Decides.congr {x : Checked ε Unit} {P Q : Prop} (h : Decides x P) (hPQ : P ↔ Q) :
    Decides x Q :=
  ⟨h.no_panic, h.ok_iff.trans hPQ⟩

theorem decides_require_all [BEq α] [LawfulBEq α] {xs : List α} {c : α} {e : ε} :
    Decides (require (xs.all fun x => x == c) (.err e)) (∀ x ∈ xs, x = c) := by
  have hall : (xs.all fun x => x == c) = true ↔ ∀ x ∈ xs, x = c := by simp
  cases hsame : xs.all fun x => x == c with
  | true => exact decides_ok (hall.mp hsame)
  | false =>
    rw [hsame] at hall
    exact decides_fail fun h => Bool.false_ne_true (hall.mpr h)

/-- A checker that is not `Ok` stops with one of its errors. -/
theorem Decides.error {x : Checked ε Unit} {P : Prop} (h : Decides x P) (hP : ¬ P) :
    ∃ e, x = .error (.err e) := by
  match x, h with
  | .ok (), h => exact absurd (h.ok_iff.mp rfl) hP
  | .error .panic, h => exact absurd rfl h.no_panic
  | .error (.err e), _ => exact ⟨e, rfl⟩

/-- A step that returns a known value. -/
theorem decides_of_ok {x : Checked ε α} {f : α → Checked ε Unit} {a : α} {P : Prop}
    (hx : x = .ok a) (h : Decides (f a) P) : Decides (x >>= f) P := by
  rw [hx, ok_bind]
  exact h

/-- A check on the way: `P` needs it, and what follows may rely on it. -/
theorem Decides.bind {x : Checked ε Unit} {f : Unit → Checked ε Unit} {P Q : Prop}
    (hx : Decides x Q) (hneeded : P → Q) (h : Q → Decides (f ()) P) : Decides (x >>= f) P := by
  by_cases hQ : Q
  · rw [hx.ok_iff.mpr hQ, ok_bind]
    exact h hQ
  · obtain ⟨e, he⟩ := hx.error hQ
    rw [he]
    exact decides_fail fun hP => hQ (hneeded hP)

/-- A sum that does not fit is an error of the checker, not a panic. -/
theorem decides_checkedAdd {w a b c : Nat} {P : Prop} {e : ε} {f : Nat → Checked ε Unit}
    (hsum : a + b = c) (hneeded : P → c < 2 ^ w) (h : c < 2 ^ w → Decides (f c) P) :
    Decides (okOr (checkedAdd w a b) (.err e) >>= f) P := by
  subst hsum
  by_cases hc : a + b < 2 ^ w
  · rw [checkedAdd, if_pos hc, okOr_some, ok_bind]
    exact h hc
  · rw [checkedAdd, if_neg hc]
    exact decides_fail fun hP => hc (hneeded hP)

/-! ## Functions -/

/-- It never panics, and returns `Ok` exactly when `P` holds, with the value `v`. -/
structure Yields (x : Checked ε α) (P : Prop) (v : α) : Prop where
  no_panic : x ≠ .error .panic
  ok_iff : ∀ a, x = .ok a ↔ P ∧ a = v

/-- A value computed behind a check. -/
theorem Decides.yields {x : Checked ε Unit} {f : Unit → Checked ε α} {P : Prop} {v : α}
    (hx : Decides x P) (h : P → f () = .ok v) : Yields (x >>= f) P v := by
  by_cases hP : P
  · rw [hx.ok_iff.mpr hP, ok_bind, h hP]
    exact ⟨by simp, by simp [hP, eq_comm]⟩
  · obtain ⟨e, he⟩ := hx.error hP
    rw [he]
    exact ⟨by simp [Bind.bind, Except.bind], by simp [Bind.bind, Except.bind, hP]⟩

/-- It never panics, and returns the values with `P` and no others. -/
structure Finds (x : Checked ε α) (P : α → Prop) : Prop where
  no_panic : x ≠ .error .panic
  ok_iff : ∀ a, x = .ok a ↔ P a

theorem finds_ok {P : α → Prop} {v : α} (h : ∀ a, P a ↔ a = v) :
    Finds (.ok v : Checked ε α) P :=
  ⟨by simp, fun a => by rw [h a, Except.ok.injEq, eq_comm]⟩

theorem finds_fail {P : α → Prop} {e : ε} (h : ∀ a, ¬ P a) : Finds (fail e) P :=
  ⟨by simp [fail], fun a => by simp [fail, h a]⟩

theorem Finds.congr {x : Checked ε α} {P Q : α → Prop} (h : Finds x P) (hPQ : ∀ a, P a ↔ Q a) :
    Finds x Q :=
  ⟨h.no_panic, fun a => (h.ok_iff a).trans (hPQ a)⟩

/-! ## Values of a kind -/

/-- It never panics, and what it returns is of a kind. -/
structure Safe (x : Checked ε α) (P : α → Prop) : Prop where
  no_panic : x ≠ .error .panic
  post : ∀ a, x = .ok a → P a

theorem safe_ok {P : α → Prop} {a : α} (h : P a) : Safe (.ok a : Checked ε α) P :=
  ⟨by simp, fun b hb => by rw [← Except.ok.inj hb]; exact h⟩

theorem safe_fail {P : α → Prop} {e : ε} : Safe (fail e : Checked ε α) P :=
  ⟨by simp [fail], fun b hb => by cases hb⟩

/-- What follows may rely on the kind of what was returned. -/
theorem Safe.bind {x : Checked ε α} {f : α → Checked ε β} {P : α → Prop} {Q : β → Prop}
    (hx : Safe x P) (h : ∀ a, P a → Safe (f a) Q) : Safe (x >>= f) Q := by
  cases hresult : x with
  | ok a => exact h a (hx.post a hresult)
  | error stop =>
    cases stop with
    | panic => exact absurd hresult hx.no_panic
    | err e => exact ⟨by simp [Bind.bind, Except.bind], fun b hb => by cases hb⟩

theorem safe_index {xs : List α} {i : Nat} (h : i < xs.length) :
    Safe (index xs i : Checked ε α) fun _ => True := by
  rw [index_eq h]
  exact safe_ok trivial

theorem safe_slice {xs : List α} {lo hi : Nat} (h : lo ≤ hi) (h' : hi ≤ xs.length) :
    Safe (slice xs lo hi : Checked ε (List α)) fun _ => True := by
  rw [slice_eq h h']
  exact safe_ok trivial

theorem safe_add {w a b : Nat} (h : a + b < 2 ^ w) :
    Safe (add w a b : Checked ε Nat) (· = a + b) := by
  rw [add_eq rfl h]
  exact safe_ok rfl

/-- A sum that does not fit is an error. -/
theorem safe_checkedAdd {w a b : Nat} {e : ε} :
    Safe (okOr (checkedAdd w a b) (.err e) : Checked ε Nat) (· = a + b) := by
  rw [checkedAdd]
  split
  · exact safe_ok rfl
  · exact safe_fail

end Basecrawl.Panic
