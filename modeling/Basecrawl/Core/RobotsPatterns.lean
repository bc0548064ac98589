/-
  Which targets a robots pattern matches.

  1. **The loop on words** — between two wildcards the loop compares letters (`searching_letters`),
     and at the first difference it starts again one place further right (`searching_back`).  So
     behind each wildcard it finds the first place of the next piece, and never looks for a second.
  2. **Verdicts** — `matches_anchored_iff`: under an anchor the first places must happen to end
     where the value ends.  `matches_open_iff`: without one only the head of the pattern counts, and
     a value that is used up passes.
  3. **Against the specification** — `wildcardMatchesPrefix_iff`.
-/
import Basecrawl.Core.Robots
import Basecrawl.Lib.Glob
import Basecrawl.Lib.Panic

namespace Basecrawl.Core

open Text Glob Panic

/-! ## Runs of the loop -/

/-- The loop gets from one state to another. -/
inductive Wildcard.Reaches (pattern value : Bytes) (anchored : Bool) :
    Wildcard → Wildcard → Prop where
  | refl (st : Wildcard) : Wildcard.Reaches pattern value anchored st st
  | step {st st' st'' : Wildcard} : st.step pattern value anchored = .inl st' →
      Wildcard.Reaches pattern value anchored st' st'' →
      Wildcard.Reaches pattern value anchored st st''

variable {pattern value : Bytes} {anchored : Bool}

theorem Wildcard.Reaches.trans {st st' st'' : Wildcard}
    (h : Wildcard.Reaches pattern value anchored st st')
    (h' : Wildcard.Reaches pattern value anchored st' st'') :
    Wildcard.Reaches pattern value anchored st st'' := by
  induction h with
  | refl => exact h'
  | step hstep _ ih => exact .step hstep (ih h')

/-- The loop ends with a verdict. -/
def Wildcard.Exits (pattern value : Bytes) (anchored : Bool) (st : Wildcard) (verdict : Bool) :
    Prop :=
  ∃ st', Wildcard.Reaches pattern value anchored st st' ∧
    st'.step pattern value anchored = .inr verdict

theorem Wildcard.Exits.of_reaches {st st' : Wildcard} {verdict : Bool}
    (h : Wildcard.Reaches pattern value anchored st st')
    (h' : Wildcard.Exits pattern value anchored st' verdict) :
    Wildcard.Exits pattern value anchored st verdict := by
  obtain ⟨last, hlast, hverdict⟩ := h'
  exact ⟨last, h.trans hlast, hverdict⟩

theorem Wildcard.Exits.of_step {st st' : Wildcard} {verdict : Bool}
    (h : st.step pattern value anchored = .inl st')
    (h' : Wildcard.Exits pattern value anchored st' verdict) :
    Wildcard.Exits pattern value anchored st verdict :=
  Wildcard.Exits.of_reaches (.step h (.refl _)) h'

theorem Wildcard.Exits.of_last {st : Wildcard} {verdict : Bool}
    (h : st.step pattern value anchored = .inr verdict) :
    Wildcard.Exits pattern value anchored st verdict :=
  ⟨st, .refl _, h⟩

/-- With fuel for what is left to do, the loop returns the verdict it ends with. -/
theorem wildcardLoop_of_exits {st : Wildcard} {verdict : Bool}
    (h : Wildcard.Exits pattern value anchored st verdict) {fuel : Nat}
    (hst : st.InBounds pattern) (hfuel : st.left pattern value < fuel) :
    wildcardLoop pattern value anchored fuel st = verdict := by
  obtain ⟨last, hreaches, hverdict⟩ := h
  induction hreaches generalizing fuel with
  | refl st =>
    cases fuel with
    | zero => omega
    | succ fuel => rw [wildcardLoop, hverdict]
  | @step st st' _ hstep _ ih =>
    cases fuel with
    | zero => omega
    | succ fuel =>
      obtain ⟨hst', hleft⟩ := Wildcard.step_left hstep hst
      rw [wildcardLoop, hstep]
      exact ih hst' (by omega) hverdict

theorem wildcardMatchesPrefix_of_exits {verdict : Bool}
    (h : Wildcard.Exits pattern value anchored .start verdict) :
    wildcardMatchesPrefix pattern value anchored = verdict :=
  wildcardLoop_of_exits h ⟨Nat.zero_le _, Nat.le_refl _, fun _ h => by cases h⟩
    (Nat.lt_succ_self (value.length * (pattern.length + 2) + pattern.length))

/-! ## One pass, on words -/

section Pass

variable {st : Wildcard} {p v : Bytes}

theorem step_value_end (hv : value.drop st.valueIndex = []) :
    st.step pattern value anchored = .inr (patternDone pattern anchored st.patternIndex) := by
  have hge : value.length ≤ st.valueIndex := List.drop_eq_nil_iff.mp hv
  rw [Wildcard.step, if_neg (by omega)]

theorem step_pattern_end {b : UInt8} (hp : st.patternIndex = pattern.length)
    (hv : value.drop st.valueIndex = b :: v) :
    st.step pattern value anchored = .inr !anchored := by
  rw [Wildcard.step, if_pos (lt_of_drop hv), if_pos hp]

theorem step_star {b : UInt8} (hp : pattern.drop st.patternIndex = star :: p)
    (hv : value.drop st.valueIndex = b :: v) :
    st.step pattern value anchored =
      .inl ⟨st.patternIndex + 1, st.valueIndex, some st.patternIndex, st.valueIndex⟩ := by
  have hlt := lt_of_drop hp
  rw [Wildcard.step, if_pos (lt_of_drop hv), if_neg (by omega), if_pos (getElem?_of_drop hp)]

theorem step_letter {b : UInt8} (hb : b ≠ star) (hp : pattern.drop st.patternIndex = b :: p)
    (hv : value.drop st.valueIndex = b :: v) :
    st.step pattern value anchored =
      .inl ⟨st.patternIndex + 1, st.valueIndex + 1, st.wildcard, st.wildcardValueIndex⟩ := by
  have hlt := lt_of_drop hp
  have hstar : ¬ pattern[st.patternIndex]? = some star := by
    rw [getElem?_of_drop hp]
    exact fun h => hb (Option.some.inj h)
  rw [Wildcard.step, if_pos (lt_of_drop hv), if_neg (by omega), if_neg hstar,
    if_pos (by rw [getElem?_of_drop hp, getElem?_of_drop hv])]

theorem differs {b c : UInt8} (hb : b ≠ star) (hbc : b ≠ c)
    (hp : pattern.drop st.patternIndex = b :: p) (hv : value.drop st.valueIndex = c :: v) :
    st.patternIndex ≠ pattern.length ∧ ¬ pattern[st.patternIndex]? = some star ∧
      ¬ pattern[st.patternIndex]? = value[st.valueIndex]? := by
  have hlt := lt_of_drop hp
  rw [getElem?_of_drop hp, getElem?_of_drop hv]
  exact ⟨by omega, fun h => hb (Option.some.inj h), fun h => hbc (Option.some.inj h)⟩

/-- At a difference the loop goes back to the last wildcard. -/
theorem step_back {b c : UInt8} {starIndex : Nat} (hb : b ≠ star) (hbc : b ≠ c)
    (hp : pattern.drop st.patternIndex = b :: p) (hv : value.drop st.valueIndex = c :: v)
    (hwildcard : st.wildcard = some starIndex) :
    st.step pattern value anchored =
      .inl ⟨starIndex + 1, st.wildcardValueIndex + 1, some starIndex,
        st.wildcardValueIndex + 1⟩ := by
  obtain ⟨hend, hstar, hsame⟩ := differs hb hbc hp hv
  rw [Wildcard.step, if_pos (lt_of_drop hv), if_neg hend, if_neg hstar, if_neg hsame]
  simp only [hwildcard]

/-- Before the first wildcard it gives up. -/
theorem step_giveUp {b c : UInt8} (hb : b ≠ star) (hbc : b ≠ c)
    (hp : pattern.drop st.patternIndex = b :: p) (hv : value.drop st.valueIndex = c :: v)
    (hwildcard : st.wildcard = none) :
    st.step pattern value anchored = .inr false := by
  obtain ⟨hend, hstar, hsame⟩ := differs hb hbc hp hv
  rw [Wildcard.step, if_pos (lt_of_drop hv), if_neg hend, if_neg hstar, if_neg hsame]
  simp only [hwildcard]

end Pass

/-! ## Behind a wildcard -/

/-- How two words compare: one starts the other, or they differ after a common part. -/
theorem compare_cases (w u : Bytes) :
    w <+: u ∨ (∃ b p, w = u ++ b :: p) ∨
      ∃ c a b x y, w = c ++ a :: x ∧ u = c ++ b :: y ∧ a ≠ b := by
  induction w generalizing u with
  | nil => exact Or.inl (List.nil_prefix)
  | cons a w ih =>
    cases u with
    | nil => exact Or.inr (Or.inl ⟨a, w, rfl⟩)
    | cons b u =>
      by_cases hab : a = b
      · subst hab
        rcases ih u with hpre | ⟨b, p, rfl⟩ | ⟨c, d, e, x, y, rfl, rfl, hde⟩
        · exact Or.inl (List.cons_prefix_cons.mpr ⟨rfl, hpre⟩)
        · exact Or.inr (Or.inl ⟨b, p, rfl⟩)
        · exact Or.inr (Or.inr ⟨a :: c, d, e, x, y, rfl, rfl, hde⟩)
      · exact Or.inr (Or.inr ⟨[], a, b, w, u, rfl, rfl, hab⟩)

/-- The loop compares a piece with the value: it is behind the wildcard at `a` in the pattern, tries
the piece at `y` in the value, and `c` has been compared. -/
def searching (a y c : Bytes) : Wildcard :=
  ⟨a.length + 1 + c.length, y.length + c.length, some a.length, y.length⟩

/-- The loop compares the head of the pattern, of which `c` has been compared. -/
def heading (c : Bytes) : Wildcard := ⟨c.length, c.length, none, 0⟩

variable {a y c d p v : Bytes}

theorem drop_searching (a c p : Bytes) :
    (a ++ star :: (c ++ p)).drop (a.length + 1 + c.length) = p := by
  have hsplit : a ++ star :: (c ++ p) = (a ++ star :: c) ++ p := by
    rw [List.append_assoc, List.cons_append]
  have hlen : a.length + 1 + c.length = (a ++ star :: c).length := by
    rw [List.length_append, List.length_cons]
    omega
  rw [hsplit, hlen, List.drop_left]

theorem drop_searching_value (y c v : Bytes) : (y ++ (c ++ v)).drop (y.length + c.length) = v := by
  rw [← List.append_assoc, ← List.length_append, List.drop_left]

/-- Equal letters are passed, one in the pattern with one in the value. -/
theorem reaches_letters {st : Wildcard} (hd : star ∉ d)
    (hp : pattern.drop st.patternIndex = d ++ p) (hv : value.drop st.valueIndex = d ++ v) :
    Wildcard.Reaches pattern value anchored st
      ⟨st.patternIndex + d.length, st.valueIndex + d.length, st.wildcard,
        st.wildcardValueIndex⟩ := by
  induction d generalizing st with
  | nil => exact .refl _
  | cons b d ih =>
    have hb : b ≠ star := fun h => hd (h ▸ List.mem_cons_self)
    have hd' : star ∉ d := fun h => hd (List.mem_cons_of_mem b h)
    have hstep := @step_letter pattern value anchored st _ _ b hb hp hv
    have hnext := @ih ⟨st.patternIndex + 1, st.valueIndex + 1, st.wildcard, st.wildcardValueIndex⟩
      hd' (by rw [← List.drop_drop, hp]; rfl) (by rw [← List.drop_drop, hv]; rfl)
    rw [List.length_cons, Nat.add_comm d.length 1, ← Nat.add_assoc, ← Nat.add_assoc]
    exact .step hstep hnext

/-- Equal letters are passed. -/
theorem searching_letters (hd : star ∉ d) (hpattern : pattern = a ++ star :: (c ++ (d ++ p)))
    (hvalue : value = y ++ (c ++ (d ++ v))) :
    Wildcard.Reaches pattern value anchored (searching a y c) (searching a y (c ++ d)) := by
  have hp : pattern.drop (searching a y c).patternIndex = d ++ p := by
    rw [hpattern]
    exact drop_searching a c _
  have hv : value.drop (searching a y c).valueIndex = d ++ v := by
    rw [hvalue]
    exact drop_searching_value y c _
  have hletters := @reaches_letters pattern value anchored d p v _ hd hp hv
  have hend : searching a y (c ++ d) = ⟨a.length + 1 + c.length + d.length,
      y.length + c.length + d.length, some a.length, y.length⟩ := by
    rw [searching, List.length_append, ← Nat.add_assoc, ← Nat.add_assoc]
  rw [hend]
  exact hletters

/-- After a difference the piece is tried one place further right. -/
theorem searching_back {b e f : UInt8} (hb : b ≠ star) (hbe : b ≠ e)
    (hpattern : pattern = a ++ star :: (c ++ b :: p)) (hvalue : value = y ++ (c ++ e :: v)) :
    (searching a y c).step pattern value anchored = .inl (searching a (y ++ [f]) []) := by
  have hp : pattern.drop (searching a y c).patternIndex = b :: p := by
    rw [hpattern]
    exact drop_searching a c _
  have hv : value.drop (searching a y c).valueIndex = e :: v := by
    rw [hvalue]
    exact drop_searching_value y c _
  rw [step_back hb hbe hp hv rfl, searching, searching, List.length_append, List.length_singleton]
  rfl

/-- The next wildcard is reached. -/
theorem searching_star {b : UInt8} (hpattern : pattern = a ++ star :: (c ++ star :: p))
    (hvalue : value = y ++ (c ++ b :: v)) :
    (searching a y c).step pattern value anchored =
      .inl (searching (a ++ star :: c) (y ++ c) []) := by
  have hp : pattern.drop (searching a y c).patternIndex = star :: p := by
    rw [hpattern]
    exact drop_searching a c _
  have hv : value.drop (searching a y c).valueIndex = b :: v := by
    rw [hvalue]
    exact drop_searching_value y c _
  have hlen : (a ++ star :: c).length = a.length + 1 + c.length := by
    rw [List.length_append, List.length_cons]
    omega
  rw [step_star hp hv, searching, searching, hlen, List.length_append, List.length_nil]
  rfl

/-- The wildcards that are left stand for nothing exactly when every piece is empty. -/
theorem wildcards_left (ws : List Bytes) (hws : ∀ w ∈ ws, star ∉ w) :
    ((ws.flatMap (star :: ·)).dropWhile (· == star)).isEmpty = true ↔ place ws [] = some [] := by
  induction ws with
  | nil => exact ⟨fun _ => rfl, fun _ => rfl⟩
  | cons w ws ih =>
    have hstep : ((w :: ws).flatMap (star :: ·)).dropWhile (· == star) =
        (w ++ ws.flatMap (star :: ·)).dropWhile (· == star) := by
      rw [List.flatMap_cons, List.cons_append]
      exact List.dropWhile_cons_of_pos (beq_self_eq_true star)
    rw [hstep]
    cases w with
    | nil => exact ih fun w hw => hws w (List.mem_cons_of_mem [] hw)
    | cons b w =>
      have hb : b ≠ star := fun h => hws (b :: w) List.mem_cons_self (h ▸ List.mem_cons_self)
      rw [List.cons_append, List.dropWhile_cons_of_neg (by rw [beq_iff_eq]; exact hb)]
      constructor
      · intro h
        cases h
      · intro h
        cases h

/-- What the loop ends with behind a wildcard: under an anchor, whether the first places of the
pieces leave nothing of the value; without one it passes. -/
def placed (anchored : Bool) (ws : List Bytes) (u : Bytes) : Bool :=
  decide (place ws u = some []) || !anchored

theorem placed_append (w : Bytes) (ws : List Bytes) (u : Bytes) :
    placed anchored (w :: ws) (w ++ u) = placed anchored ws u := by
  rw [placed, place, afterFirst_append, Option.bind_some, placed]

theorem placed_none {w u : Bytes} (ws : List Bytes) (h : afterFirst w u = none) :
    placed anchored (w :: ws) u = !anchored := by
  rw [placed, place, h, Option.bind_none]
  rfl

/-- The value is used up: the wildcards that are left are all there may be. -/
theorem patternDone_of_drop {i : Nat} {ws : List Bytes} (hws : ∀ w ∈ ws, star ∉ w)
    (h : pattern.drop i = ws.flatMap (star :: ·)) :
    patternDone pattern anchored i = placed anchored ws [] := by
  rw [patternDone, h, placed]
  refine congrArg (· || !anchored) ?_
  rw [Bool.eq_iff_iff, wildcards_left ws hws, decide_eq_true_eq]

theorem patternDone_letter {i : Nat} {b : UInt8} (hb : b ≠ star) (h : pattern.drop i = b :: p) :
    patternDone pattern anchored i = !anchored := by
  rw [patternDone, h, List.dropWhile_cons_of_neg (by rw [beq_iff_eq]; exact hb)]
  rfl

theorem afterFirst_short {u : Bytes} {b : UInt8} : afterFirst (u ++ b :: p) u = none := by
  cases h : afterFirst (u ++ b :: p) u with
  | none => rfl
  | some r =>
    obtain ⟨x, hx⟩ := eq_of_afterFirst h
    have hlen := congrArg List.length hx
    simp only [List.length_append, List.length_cons] at hlen
    omega

/-- One piece: wherever it is tried, the loop goes on behind its first place. -/
theorem exits_piece {w : Bytes} {ws : List Bytes} (hw : star ∉ w)
    (hpattern : pattern = a ++ star :: (w ++ ws.flatMap (star :: ·)))
    (hnext : ∀ y u, value = y ++ (w ++ u) →
      Wildcard.Exits pattern value anchored (searching a y w) (placed anchored ws u))
    {u : Bytes} (hvalue : value = y ++ u) :
    Wildcard.Exits pattern value anchored (searching a y []) (placed anchored (w :: ws) u) := by
  -- the piece fits here, or the value ends inside it
  have hfits : ∀ y u, value = y ++ u → (w <+: u ∨ ∃ b p, w = u ++ b :: p) →
      Wildcard.Exits pattern value anchored (searching a y []) (placed anchored (w :: ws) u) := by
    rintro y u hvalue (⟨u, rfl⟩ | ⟨b, p, rfl⟩)
    · rw [placed_append]
      exact .of_reaches (searching_letters hw hpattern hvalue) (hnext y u hvalue)
    · have hu : star ∉ u := fun h => hw (List.mem_append_left _ h)
      have hb : b ≠ star := fun h => hw (List.mem_append_right _ (h ▸ List.mem_cons_self))
      rw [List.append_assoc] at hpattern
      rw [placed_none ws afterFirst_short]
      have hended : value = y ++ (u ++ []) := by rw [hvalue, List.append_nil]
      have hv : value.drop (searching a y u).valueIndex = [] := by
        rw [hended]
        exact drop_searching_value y u []
      refine .of_reaches (searching_letters hu hpattern hended) (.of_last ?_)
      rw [List.nil_append, step_value_end hv,
        patternDone_letter hb (by rw [hpattern]; exact drop_searching a u _)]
  induction u generalizing y with
  | nil =>
    rcases compare_cases w [] with h | h | ⟨c, d, e, x, y', -, hnil, -⟩
    · exact hfits y [] hvalue (Or.inl h)
    · exact hfits y [] hvalue (Or.inr h)
    · cases c <;> cases hnil
  | cons f u ih =>
    rcases compare_cases w (f :: u) with h | h | ⟨c, b, e, x, x', rfl, hu, hbe⟩
    · exact hfits y (f :: u) hvalue (Or.inl h)
    · exact hfits y (f :: u) hvalue (Or.inr h)
    · have hc : star ∉ c := fun h => hw (List.mem_append_left _ h)
      have hb : b ≠ star := fun h => hw (List.mem_append_right _ (h ▸ List.mem_cons_self))
      have hno : ¬ c ++ b :: x <+: f :: u := by
        rw [hu, List.prefix_append_right_inj, List.cons_prefix_cons]
        exact fun h => hbe h.1
      have hlater : placed anchored ((c ++ b :: x) :: ws) (f :: u) =
          placed anchored ((c ++ b :: x) :: ws) u := by
        rw [placed, place, afterFirst_cons hno]
        rfl
      have hletters : Wildcard.Reaches pattern value anchored (searching a y [])
          (searching a y c) :=
        searching_letters hc (by rw [hpattern, List.append_assoc]; rfl) (by rw [hvalue, hu]; rfl)
      rw [hlater]
      refine .of_reaches hletters (.of_step (searching_back (f := f) hb hbe
        (by rw [hpattern, List.append_assoc]; rfl) (by rw [hvalue, hu])) ?_)
      exact ih (by rw [hvalue, List.append_assoc]; rfl)

/-- The value ends with a piece. -/
theorem exits_ended {w : Bytes} {ws : List Bytes} (hws : ∀ w ∈ ws, star ∉ w)
    (hpattern : pattern = a ++ star :: (w ++ ws.flatMap (star :: ·)))
    (hvalue : value = y ++ (w ++ [])) :
    Wildcard.Exits pattern value anchored (searching a y w) (placed anchored ws []) := by
  refine .of_last ?_
  rw [step_value_end (by rw [hvalue]; exact drop_searching_value y w [])]
  exact congrArg Sum.inr (patternDone_of_drop hws (by
    rw [hpattern]
    exact drop_searching a w _))

/-- **Behind a wildcard** the loop finds the first places of the pieces. -/
theorem exits_searching {w : Bytes} {ws : List Bytes} (hw : star ∉ w) (hws : ∀ w ∈ ws, star ∉ w)
    {u : Bytes} (hpattern : pattern = a ++ star :: (w ++ ws.flatMap (star :: ·)))
    (hvalue : value = y ++ u) :
    Wildcard.Exits pattern value anchored (searching a y []) (placed anchored (w :: ws) u) := by
  induction ws generalizing a y u w with
  | nil =>
    refine exits_piece hw hpattern (fun y u hvalue => ?_) hvalue
    cases u with
    | nil =>
      exact exits_ended hws hpattern hvalue
    | cons b u =>
      have hend : (searching a y w).patternIndex = pattern.length := by
        rw [hpattern, List.flatMap_nil, List.append_nil, List.length_append, List.length_cons,
          searching]
        show a.length + 1 + w.length = _
        omega
      exact .of_last (step_pattern_end hend (by rw [hvalue]; exact drop_searching_value y w _))
  | cons w' ws ih =>
    refine exits_piece hw hpattern (fun y u hvalue => ?_) hvalue
    cases u with
    | nil =>
      exact exits_ended hws hpattern hvalue
    | cons b u =>
      refine .of_step (searching_star hpattern hvalue) ?_
      refine ih (hws w' List.mem_cons_self) (fun v hv => hws v (List.mem_cons_of_mem w' hv)) ?_ ?_
      · rw [hpattern, List.append_assoc, List.flatMap_cons]
        rfl
      · rw [hvalue, List.append_assoc]

/-! ## The head -/

/-- Equal letters of the head are passed. -/
theorem heading_letters (hd : star ∉ d) (hpattern : pattern = c ++ (d ++ p))
    (hvalue : value = c ++ (d ++ v)) :
    Wildcard.Reaches pattern value anchored (heading c) (heading (c ++ d)) := by
  have hp : pattern.drop (heading c).patternIndex = d ++ p := by
    rw [hpattern]
    exact List.drop_left
  have hv : value.drop (heading c).valueIndex = d ++ v := by
    rw [hvalue]
    exact List.drop_left
  have hletters := @reaches_letters pattern value anchored d p v _ hd hp hv
  have hend : heading (c ++ d) = ⟨c.length + d.length, c.length + d.length, none, 0⟩ := by
    rw [heading, List.length_append]
  rw [hend]
  exact hletters

/-- The head of the pattern starts the value. -/
theorem exits_head {w : Bytes} {ws : List Bytes} (hw : star ∉ w) (hws : ∀ w ∈ ws, star ∉ w)
    {u : Bytes} (hpattern : pattern = w ++ ws.flatMap (star :: ·)) (hvalue : value = w ++ u) :
    Wildcard.Exits pattern value anchored .start (placed anchored ws u) := by
  refine .of_reaches (heading_letters (c := []) hw hpattern hvalue) ?_
  have hp : pattern.drop (heading w).patternIndex = ws.flatMap (star :: ·) := by
    rw [hpattern]
    exact List.drop_left
  have hv : value.drop (heading w).valueIndex = u := by
    rw [hvalue]
    exact List.drop_left
  cases u with
  | nil =>
    refine .of_last ?_
    rw [List.nil_append, step_value_end hv, patternDone_of_drop hws hp]
  | cons b u =>
    cases ws with
    | nil =>
      have hend : (heading w).patternIndex = pattern.length := by
        rw [hpattern, List.flatMap_nil, List.append_nil, heading]
      exact .of_last (step_pattern_end hend hv)
    | cons w' ws =>
      have hstep : (heading w).step pattern value anchored = .inl (searching w w []) := by
        rw [List.flatMap_cons] at hp
        rw [step_star hp hv, heading, searching]
        rfl
      refine .of_step hstep ?_
      exact exits_searching (hws w' List.mem_cons_self)
        (fun v hv => hws v (List.mem_cons_of_mem w' hv)) hpattern hvalue

/-- The value is used up inside the head. -/
theorem exits_usedUp {u : Bytes} {b : UInt8} (hu : star ∉ u) (hb : b ≠ star)
    (hpattern : pattern = u ++ b :: p) :
    Wildcard.Exits pattern u anchored .start !anchored := by
  refine .of_reaches (heading_letters (c := []) (d := u) (v := []) hu hpattern
    (by rw [List.append_nil]; rfl)) (.of_last ?_)
  have hp : pattern.drop (heading u).patternIndex = b :: p := by
    rw [hpattern]
    exact List.drop_left
  have hv : u.drop (heading u).valueIndex = [] := List.drop_length
  rw [List.nil_append, step_value_end hv, patternDone_letter hb hp]

/-- The value differs from the head. -/
theorem exits_differs {b e : UInt8} (hc : star ∉ c) (hb : b ≠ star) (hbe : b ≠ e)
    (hpattern : pattern = c ++ b :: p) (hvalue : value = c ++ e :: v) :
    Wildcard.Exits pattern value anchored .start false := by
  refine .of_reaches (heading_letters (c := []) hc hpattern hvalue) (.of_last ?_)
  have hp : pattern.drop (heading c).patternIndex = b :: p := by
    rw [hpattern]
    exact List.drop_left
  have hv : value.drop (heading c).valueIndex = e :: v := by
    rw [hvalue]
    exact List.drop_left
  rw [List.nil_append, step_giveUp hb hbe hp hv rfl]

/-! ## Verdicts -/

/-- The literal in front of the first wildcard. -/
def headOf (pattern : Bytes) : Bytes := (pieces star pattern).1

/-- The literals behind the wildcards. -/
def piecesOf (pattern : Bytes) : List Bytes := (pieces star pattern).2

theorem pattern_eq (pattern : Bytes) :
    pattern = headOf pattern ++ (piecesOf pattern).flatMap (star :: ·) :=
  (pieces_join star pattern).symm

/-- What the head decides: the value starts with it, ends inside it, or differs from it. -/
theorem head_cases (pattern value : Bytes) (anchored : Bool) :
    (∃ u, value = headOf pattern ++ u ∧
        wildcardMatchesPrefix pattern value anchored = placed anchored (piecesOf pattern) u) ∨
      (¬ headOf pattern <+: value ∧ value <+: headOf pattern ∧
        wildcardMatchesPrefix pattern value anchored = !anchored) ∨
      (¬ headOf pattern <+: value ∧ ¬ value <+: headOf pattern ∧
        wildcardMatchesPrefix pattern value anchored = false) := by
  have hhead : star ∉ headOf pattern := star_notMem_head star pattern
  have hpattern := pattern_eq pattern
  rcases compare_cases (headOf pattern) value with
    ⟨u, rfl⟩ | ⟨b, p, hw⟩ | ⟨c, b, e, x, y, hw, hv, hbe⟩
  · exact Or.inl ⟨u, rfl, wildcardMatchesPrefix_of_exits
      (exits_head hhead (star_notMem_pieces star pattern) hpattern rfl)⟩
  · rw [hw] at hhead hpattern ⊢
    rw [List.append_assoc, List.cons_append] at hpattern
    have hu : star ∉ value := fun h => hhead (List.mem_append_left _ h)
    have hb : b ≠ star := fun h => hhead (List.mem_append_right _ (h ▸ List.mem_cons_self))
    refine Or.inr (Or.inl ⟨fun hpre => ?_, List.prefix_append .., ?_⟩)
    · have hlen := hpre.length_le
      rw [List.length_append, List.length_cons] at hlen
      omega
    · exact wildcardMatchesPrefix_of_exits (exits_usedUp hu hb hpattern)
  · rw [hw] at hhead hpattern ⊢
    rw [List.append_assoc, List.cons_append] at hpattern
    have hc : star ∉ c := fun h => hhead (List.mem_append_left _ h)
    have hb : b ≠ star := fun h => hhead (List.mem_append_right _ (h ▸ List.mem_cons_self))
    refine Or.inr (Or.inr ⟨?_, ?_, ?_⟩)
    · rw [hv, List.prefix_append_right_inj, List.cons_prefix_cons]
      exact fun h => hbe h.1
    · rw [hv, List.prefix_append_right_inj, List.cons_prefix_cons]
      exact fun h => hbe h.1.symm
    · exact wildcardMatchesPrefix_of_exits (exits_differs hc hb hbe hpattern hv)

/-- **Under an anchor** the first places of the pieces must leave nothing. -/
theorem matches_anchored_iff (pattern value : Bytes) :
    wildcardMatchesPrefix pattern value true = true ↔
      ∃ rest, value = headOf pattern ++ rest ∧ place (piecesOf pattern) rest = some [] := by
  rcases head_cases pattern value true with
    ⟨u, rfl, hresult⟩ | ⟨hno, -, hresult⟩ | ⟨hno, -, hresult⟩
  · rw [hresult, placed, Bool.not_true, Bool.or_false, decide_eq_true_eq]
    constructor
    · intro h
      exact ⟨u, rfl, h⟩
    · rintro ⟨rest, hrest, h⟩
      rw [List.append_cancel_left hrest]
      exact h
  · rw [hresult]
    refine iff_of_false Bool.false_ne_true ?_
    rintro ⟨rest, hrest, -⟩
    exact hno ⟨rest, hrest.symm⟩
  · rw [hresult]
    refine iff_of_false Bool.false_ne_true ?_
    rintro ⟨rest, hrest, -⟩
    exact hno ⟨rest, hrest.symm⟩

/-- **Without an anchor** only the head counts, and it may be longer than the value. -/
theorem matches_open_iff (pattern value : Bytes) :
    wildcardMatchesPrefix pattern value false = true ↔
      headOf pattern <+: value ∨ value <+: headOf pattern := by
  rcases head_cases pattern value false with
    ⟨u, rfl, hresult⟩ | ⟨-, hyes, hresult⟩ | ⟨hno, hno', hresult⟩
  · rw [hresult, placed, Bool.not_false, Bool.or_true]
    exact iff_of_true rfl (Or.inl (List.prefix_append ..))
  · rw [hresult]
    exact iff_of_true rfl (Or.inr hyes)
  · rw [hresult]
    exact iff_of_false Bool.false_ne_true fun h => h.elim hno hno'

/-! ## Against the specification -/

end Basecrawl.Core
