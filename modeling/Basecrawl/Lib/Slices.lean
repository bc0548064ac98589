/-
  Slicing a string at byte offsets.

  A string slice `&s[i..]` panics unless the byte offset `i` lies between two characters.  Offsets
  come from searches, so:

  1. **Offsets** — `byteLen cs` is the offset behind the characters `cs`.
  2. **Slices** — `sliceFrom` and `sliceTo` return what stands at an offset (`sliceFrom_append`,
     `sliceTo_append`), and nothing inside of a character (`takeBytes_inside`).
  3. **Searches** — what a search returns is an offset, and which (`find_eq_some`, `rfind_eq_some`,
     `findStr_eq_some`).
-/
import Mathlib.Data.List.Infix
import Basecrawl.Lib.Panic
import Basecrawl.Lib.Text

namespace Basecrawl.Slices

open Outcome Panic

variable {ε : Type}

/-! ## Offsets -/

/-- The bytes of the characters. -/
def byteLen : List Char → Nat
  | [] => 0
  | c :: cs => c.utf8Size + byteLen cs

theorem byteLen_append (as bs : List Char) : byteLen (as ++ bs) = byteLen as + byteLen bs := by
  induction as with
  | nil => exact (Nat.zero_add _).symm
  | cons a as ih => rw [List.cons_append, byteLen, byteLen, ih, Nat.add_assoc]

/-- They are the bytes of the string. -/
theorem byteLen_eq (s : String) : byteLen s.toList = (Text.utf8 s).length := by
  rw [Text.utf8_eq_flatMap]
  induction s.toList with
  | nil => rfl
  | cons c cs ih =>
    rw [byteLen, List.flatMap_cons, List.length_append, ih, String.length_utf8EncodeChar]

theorem utf8Size_ascii {c : Char} : c.utf8Size = 1 ↔ c.toNat < 128 := by
  rw [Char.utf8Size_eq_one_iff, UInt32.le_iff_toNat_le]
  exact Nat.lt_succ_iff.symm

/-! ## Slices -/

/-- The characters from a byte offset on, when it lies between two characters. -/
def dropBytes : List Char → Nat → Option (List Char)
  | cs, 0 => some cs
  | [], _ + 1 => none
  | c :: cs, n + 1 =>
      if c.utf8Size ≤ n + 1 then dropBytes cs (n + 1 - c.utf8Size) else none

/-- The characters up to a byte offset. -/
def takeBytes : List Char → Nat → Option (List Char)
  | _, 0 => some []
  | [], _ + 1 => none
  | c :: cs, n + 1 =>
      if c.utf8Size ≤ n + 1 then (takeBytes cs (n + 1 - c.utf8Size)).map (c :: ·) else none

theorem dropBytes_add (c : Char) (cs : List Char) (n : Nat) :
    dropBytes (c :: cs) (c.utf8Size + n) = dropBytes cs n := by
  obtain ⟨k, hk⟩ := Nat.exists_eq_succ_of_ne_zero (Nat.ne_of_gt (Char.utf8Size_pos c))
  rw [hk, Nat.succ_eq_add_one, Nat.add_right_comm, dropBytes, if_pos (by omega)]
  exact congrArg (dropBytes cs) (by omega)

theorem takeBytes_add (c : Char) (cs : List Char) (n : Nat) :
    takeBytes (c :: cs) (c.utf8Size + n) = (takeBytes cs n).map (c :: ·) := by
  obtain ⟨k, hk⟩ := Nat.exists_eq_succ_of_ne_zero (Nat.ne_of_gt (Char.utf8Size_pos c))
  rw [hk, Nat.succ_eq_add_one, Nat.add_right_comm, takeBytes, if_pos (by omega)]
  exact congrArg (fun n => (takeBytes cs n).map (c :: ·)) (by omega)

theorem dropBytes_append (as bs : List Char) : dropBytes (as ++ bs) (byteLen as) = some bs := by
  induction as with
  | nil => exact dropBytes.eq_1 bs
  | cons a as ih => rw [List.cons_append, byteLen, dropBytes_add, ih]

theorem takeBytes_append (as bs : List Char) : takeBytes (as ++ bs) (byteLen as) = some as := by
  induction as with
  | nil => exact takeBytes.eq_1 bs
  | cons a as ih => rw [List.cons_append, byteLen, takeBytes_add, ih, Option.map_some]

/-- An offset inside of a character is none between two characters. -/
theorem takeBytes_inside (as : List Char) {c : Char} (bs : List Char) {n : Nat} (hpos : 0 < n)
    (hlt : n < c.utf8Size) : takeBytes (as ++ c :: bs) (byteLen as + n) = none := by
  induction as with
  | nil =>
    show takeBytes (c :: bs) (0 + n) = none
    rw [Nat.zero_add]
    cases n with
    | zero => omega
    | succ n => exact if_neg (by omega)
  | cons a as ih =>
    rw [List.cons_append, byteLen, Nat.add_assoc, takeBytes_add, ih, Option.map_none]

/-- `&s[i..]`. -/
def sliceFrom (cs : List Char) (i : Nat) : Checked ε (List Char) := okOr (dropBytes cs i) .panic

/-- `&s[..i]`. -/
def sliceTo (cs : List Char) (i : Nat) : Checked ε (List Char) := okOr (takeBytes cs i) .panic

theorem sliceFrom_append (as bs : List Char) :
    (sliceFrom (as ++ bs) (byteLen as) : Checked ε (List Char)) = .ok bs := by
  rw [sliceFrom, dropBytes_append]
  rfl

theorem sliceTo_append (as bs : List Char) :
    (sliceTo (as ++ bs) (byteLen as) : Checked ε (List Char)) = .ok as := by
  rw [sliceTo, takeBytes_append]
  rfl

theorem sliceTo_inside (as : List Char) {c : Char} (bs : List Char) {n : Nat} (hpos : 0 < n)
    (hlt : n < c.utf8Size) :
    (sliceTo (as ++ c :: bs) (byteLen as + n) : Checked ε (List Char)) = .error .panic := by
  rw [sliceTo, takeBytes_inside as bs hpos hlt]
  rfl

/-! ## Searches -/

/-- `s.find(p)` with a predicate on characters. -/
def find (p : Char → Bool) : List Char → Option Nat
  | [] => none
  | c :: cs => if p c then some 0 else (find p cs).map (c.utf8Size + ·)

/-- `s.rfind(p)`. -/
def rfind (p : Char → Bool) : List Char → Option Nat
  | [] => none
  | c :: cs =>
      match rfind p cs with
      | some i => some (c.utf8Size + i)
      | none => if p c then some 0 else none

/-- `s.find(pat)` with a string. -/
def findStr (pat : List Char) : List Char → Option Nat
  | [] => if pat = [] then some 0 else none
  | c :: cs => if pat.isPrefixOf (c :: cs) then some 0 else (findStr pat cs).map (c.utf8Size + ·)

theorem find_eq_none {p : Char → Bool} {cs : List Char} :
    find p cs = none ↔ ∀ c ∈ cs, p c = false := by
  induction cs with
  | nil => exact ⟨fun _ c hc => absurd hc List.not_mem_nil, fun _ => rfl⟩
  | cons c cs ih =>
    rw [find, List.forall_mem_cons, ← ih]
    cases hc : p c with
    | true => simp
    | false => simp

/-- The first character that satisfies the predicate. -/
theorem find_append {p : Char → Bool} {as : List Char} (has : ∀ c ∈ as, p c = false) {c : Char}
    (hc : p c = true) (bs : List Char) : find p (as ++ c :: bs) = some (byteLen as) := by
  induction as with
  | nil => exact if_pos hc
  | cons a as ih =>
    have ha : ¬ p a = true := by
      rw [has a List.mem_cons_self]
      exact Bool.false_ne_true
    rw [List.cons_append, find, if_neg ha, ih fun c hc => has c (List.mem_cons_of_mem a hc)]
    rfl

theorem find_eq_some {p : Char → Bool} {cs : List Char} {i : Nat} (h : find p cs = some i) :
    ∃ as c bs, cs = as ++ c :: bs ∧ (∀ c ∈ as, p c = false) ∧ p c = true ∧ byteLen as = i := by
  induction cs generalizing i with
  | nil => cases h
  | cons c cs ih =>
    rw [find] at h
    split at h
    · next hc =>
      obtain rfl := Option.some.inj h
      exact ⟨[], c, cs, rfl, fun c hc => absurd hc List.not_mem_nil, hc, rfl⟩
    · next hc =>
      obtain ⟨i, hi, rfl⟩ := Option.map_eq_some_iff.mp h
      obtain ⟨as, d, bs, rfl, has, hd, rfl⟩ := ih hi
      refine ⟨c :: as, d, bs, rfl, ?_, hd, rfl⟩
      rw [List.forall_mem_cons]
      exact ⟨Bool.eq_false_iff.mpr hc, has⟩

theorem rfind_eq_none {p : Char → Bool} {cs : List Char} :
    rfind p cs = none ↔ ∀ c ∈ cs, p c = false := by
  induction cs with
  | nil => exact ⟨fun _ c hc => absurd hc List.not_mem_nil, fun _ => rfl⟩
  | cons c cs ih =>
    rw [rfind, List.forall_mem_cons, ← ih]
    cases hcs : rfind p cs with
    | some i => simp
    | none => cases hc : p c <;> simp

/-- The last character that satisfies the predicate. -/
theorem rfind_append {p : Char → Bool} (as : List Char) {c : Char} (hc : p c = true)
    {bs : List Char} (hbs : ∀ c ∈ bs, p c = false) :
    rfind p (as ++ c :: bs) = some (byteLen as) := by
  induction as with
  | nil =>
    rw [List.nil_append, rfind, rfind_eq_none.mpr hbs]
    exact if_pos hc
  | cons a as ih =>
    rw [List.cons_append, rfind, ih]
    rfl

theorem rfind_eq_some {p : Char → Bool} {cs : List Char} {i : Nat} (h : rfind p cs = some i) :
    ∃ as c bs, cs = as ++ c :: bs ∧ p c = true ∧ (∀ c ∈ bs, p c = false) ∧ byteLen as = i := by
  induction cs generalizing i with
  | nil => cases h
  | cons c cs ih =>
    rw [rfind] at h
    cases hcs : rfind p cs with
    | some j =>
      rw [hcs] at h
      obtain rfl := Option.some.inj h
      obtain ⟨as, d, bs, rfl, hd, hbs, rfl⟩ := ih hcs
      exact ⟨c :: as, d, bs, rfl, hd, hbs, rfl⟩
    | none =>
      rw [hcs] at h
      simp only at h
      split at h
      · next hc =>
        obtain rfl := Option.some.inj h
        exact ⟨[], c, cs, rfl, hc, rfind_eq_none.mp hcs, rfl⟩
      · cases h

theorem findStr_eq_none {pat cs : List Char} : findStr pat cs = none ↔ ¬ pat <:+: cs := by
  induction cs with
  | nil =>
    rw [findStr, List.infix_nil]
    split
    · next h => simp [h]
    · next h => simp [h]
  | cons c cs ih =>
    rw [findStr, List.infix_cons_iff, not_or, ← ih, ← List.isPrefixOf_iff_prefix]
    cases pat.isPrefixOf (c :: cs) <;> simp

/-- The first place of the string: it is not met before its last character. -/
theorem findStr_eq_some {pat cs : List Char} {i : Nat} (h : findStr pat cs = some i) :
    ∃ as bs, cs = as ++ (pat ++ bs) ∧ (∀ x y, as = x ++ y → y ≠ [] → ¬ pat <+: y ++ (pat ++ bs)) ∧
      byteLen as = i := by
  induction cs generalizing i with
  | nil =>
    rw [findStr] at h
    split at h
    · next hpat =>
      obtain rfl := Option.some.inj h
      refine ⟨[], [], by rw [hpat]; rfl, ?_, rfl⟩
      intro x y hxy hy
      exact absurd (List.append_eq_nil_iff.mp hxy.symm).2 hy
    · cases h
  | cons c cs ih =>
    rw [findStr] at h
    split at h
    · next hpre =>
      obtain rfl := Option.some.inj h
      obtain ⟨bs, hbs⟩ := List.isPrefixOf_iff_prefix.mp hpre
      refine ⟨[], bs, hbs.symm, ?_, rfl⟩
      intro x y hxy hy
      exact absurd (List.append_eq_nil_iff.mp hxy.symm).2 hy
    · next hpre =>
      obtain ⟨i, hi, rfl⟩ := Option.map_eq_some_iff.mp h
      obtain ⟨as, bs, rfl, hfirst, rfl⟩ := ih hi
      refine ⟨c :: as, bs, rfl, ?_, rfl⟩
      intro x y hxy hy
      cases x with
      | nil =>
        obtain rfl : c :: as = y := hxy
        exact fun hp => hpre (List.isPrefixOf_iff_prefix.mpr hp)
      | cons d x =>
        obtain ⟨-, rfl⟩ := List.cons.inj hxy
        exact hfirst x y rfl hy

theorem findStr_append {pat as bs : List Char}
    (hfirst : ∀ x y, as = x ++ y → y ≠ [] → ¬ pat <+: y ++ (pat ++ bs)) :
    findStr pat (as ++ (pat ++ bs)) = some (byteLen as) := by
  induction as with
  | nil =>
    cases hlist : pat ++ bs with
    | nil =>
      rw [List.nil_append, findStr, if_pos (List.append_eq_nil_iff.mp hlist).1]
      rfl
    | cons c cs =>
      rw [List.nil_append, findStr, if_pos (List.isPrefixOf_iff_prefix.mpr ⟨bs, hlist⟩)]
      rfl
  | cons a as ih =>
    have hno : ¬ pat.isPrefixOf (a :: (as ++ (pat ++ bs))) = true := fun hp =>
      hfirst [] (a :: as) rfl (List.cons_ne_nil a as) (List.isPrefixOf_iff_prefix.mp hp)
    rw [List.cons_append, findStr, if_neg hno, ih]
    · rfl
    · intro x y hxy hy
      exact hfirst (a :: x) y (by rw [hxy]; rfl) hy

/-- `s.split_once(sep)`. -/
def splitOnce (sep : Char) : List Char → Option (List Char × List Char)
  | [] => none
  | c :: cs =>
      if c = sep then some ([], cs) else (splitOnce sep cs).map fun parts => (c :: parts.1, parts.2)

/-- `s.rsplit_once(sep)`. -/
def rsplitOnce (sep : Char) : List Char → Option (List Char × List Char)
  | [] => none
  | c :: cs =>
      match rsplitOnce sep cs with
      | some (before, after) => some (c :: before, after)
      | none => if c = sep then some ([], cs) else none

theorem rsplitOnce_eq_none {sep : Char} {cs : List Char} : rsplitOnce sep cs = none ↔ sep ∉ cs := by
  induction cs with
  | nil => exact ⟨fun _ => List.not_mem_nil, fun _ => rfl⟩
  | cons c cs ih =>
    rw [rsplitOnce, List.mem_cons, not_or, ← ih]
    cases rsplitOnce sep cs with
    | some parts => simp
    | none => simp [eq_comm]

theorem rsplitOnce_eq_some {sep : Char} {cs before after : List Char}
    (h : rsplitOnce sep cs = some (before, after)) :
    cs = before ++ sep :: after ∧ sep ∉ after := by
  induction cs generalizing before with
  | nil => cases h
  | cons c cs ih =>
    rw [rsplitOnce] at h
    cases hcs : rsplitOnce sep cs with
    | some parts =>
      rw [hcs] at h
      obtain ⟨rfl, rfl⟩ := Prod.mk.inj (Option.some.inj h)
      obtain ⟨hsplit, hafter⟩ := ih hcs
      exact ⟨congrArg (c :: ·) hsplit, hafter⟩
    | none =>
      rw [hcs] at h
      simp only at h
      split at h
      · next hc =>
        obtain ⟨rfl, rfl⟩ := Prod.mk.inj (Option.some.inj h)
        exact ⟨by rw [hc]; rfl, rsplitOnce_eq_none.mp hcs⟩
      · cases h

theorem rsplitOnce_append (as : List Char) {sep : Char} {bs : List Char} (h : sep ∉ bs) :
    rsplitOnce sep (as ++ sep :: bs) = some (as, bs) := by
  induction as with
  | nil =>
    rw [List.nil_append, rsplitOnce, rsplitOnce_eq_none.mpr h]
    exact if_pos rfl
  | cons a as ih => rw [List.cons_append, rsplitOnce, ih]

end Basecrawl.Slices
