/-
  Replacing a pattern from left to right.

  1. **Specification** — `Replaces key pat rep s t`: the first place of the pattern is taken, then
     the first place behind it, and so on.  The letters of a text may carry marks; `key` forgets
     them.
  2. **The program** — `replaceKeyed` passes over a text once; it meets the specification
     (`replaceKeyed_spec`), and without marks it is `str::replace` (`map_replaceKeyed`).
  3. **What is gone** — an occurrence of the pattern loses its first letter at least
     (`Replaces.head_gone`), and nothing else appears than the replacement (`Replaces.count_le`).
  4. **What cannot appear** — a word with no letter of the two ends of the replacement, and not
     inside it, is in the new text only when it was in the old one (`Replaces.free`).
  5. **Overlaps** — a pattern that does not overlap the replacement is gone (`Replaces.apart_gone`).
-/
import Mathlib.Data.List.Infix
import Basecrawl.Lib.Text

namespace Basecrawl.Replace

variable {α κ : Type}

/-! ## Specification -/

/-- `rep` takes the place of the pattern at its first place, and so on behind it. -/
inductive Replaces (key : α → κ) (pat : List κ) (rep : List α) : List α → List α → Prop where
  | done {s : List α} : ¬ pat <:+: s.map key → Replaces key pat rep s s
  | next {before occ rest out : List α} : occ.map key = pat →
      ¬ pat <:+: (before ++ occ).dropLast.map key → Replaces key pat rep rest out →
      Replaces key pat rep (before ++ (occ ++ rest)) (before ++ (rep ++ out))

variable {key : α → κ} {pat : List κ} {rep s t : List α}

/-- A letter in front at which the pattern does not stand stays. -/
theorem Replaces.cons {c : α} (hpat : pat ≠ []) (hno : ¬ pat <+: (c :: s).map key)
    (h : Replaces key pat rep s t) : Replaces key pat rep (c :: s) (c :: t) := by
  cases h with
  | done hfree =>
    refine .done fun hin => ?_
    rw [List.map_cons, List.infix_cons_iff] at hin
    exact hin.elim hno hfree
  | @next before occ rest out hocc hfirst hrest =>
    have hne : before ++ occ ≠ [] := by
      intro hnil
      apply hpat
      rw [← hocc, (List.append_eq_nil_iff.mp hnil).2]
      rfl
    refine @Replaces.next _ _ key pat rep (c :: before) occ rest out hocc ?_ hrest
    rw [List.cons_append, List.dropLast_cons_of_ne_nil hne, List.map_cons, List.infix_cons_iff]
    rintro (hpre | hin)
    · -- a prefix of what is passed is a prefix of the whole text
      apply hno
      rw [List.map_cons, ← List.append_assoc]
      refine hpre.trans (List.prefix_cons_inj _ |>.mpr ?_)
      exact ((List.dropLast_prefix _).trans (List.prefix_append _ _)).map key
    · exact hfirst hin

theorem Replaces.start {occ rest out : List α} (hpat : pat ≠ []) (hocc : occ.map key = pat)
    (h : Replaces key pat rep rest out) : Replaces key pat rep (occ ++ rest) (rep ++ out) := by
  refine @Replaces.next _ _ key pat rep [] occ rest out hocc ?_ h
  intro hin
  have hlen := hin.length_le
  have hpos := List.length_pos_of_ne_nil hpat
  rw [List.nil_append, List.length_map, List.length_dropLast, ← List.length_map key, hocc] at hlen
  omega

/-! ## The program -/

section Program

variable [DecidableEq κ]

/-- Replace the pattern in a text with marks; the number counts the letters of a match still to be
passed over. -/
def replaceKeyed (key : α → κ) (pat : List κ) (rep : List α) : List α → Nat → List α
  | [], _ => []
  | _ :: cs, passed + 1 => replaceKeyed key pat rep cs passed
  | c :: cs, 0 =>
      if pat.isPrefixOf ((c :: cs).map key) then rep ++ replaceKeyed key pat rep cs (pat.length - 1)
      else c :: replaceKeyed key pat rep cs 0

theorem replaceKeyed_pass (occ rest : List α) :
    replaceKeyed key pat rep (occ ++ rest) occ.length = replaceKeyed key pat rep rest 0 := by
  induction occ with
  | nil => rfl
  | cons c occ ih => exact ih

/-- **The program meets the specification.** -/
theorem replaceKeyed_spec (hpat : pat ≠ []) (s : List α) :
    Replaces key pat rep s (replaceKeyed key pat rep s 0) := by
  induction hn : s.length using Nat.strongRecOn generalizing s with
  | _ n ih =>
    cases s with
    | nil =>
      refine .done ?_
      rw [List.map_nil, List.infix_nil]
      exact hpat
    | cons c cs =>
      rw [replaceKeyed]
      split
      · next hpre =>
        obtain ⟨rest, hrest⟩ := List.isPrefixOf_iff_prefix.mp hpre
        -- the match, with its marks
        obtain ⟨occ, rest, hsplit, hocc, -⟩ := List.map_eq_append_iff.mp hrest.symm
        cases occ with
        | nil => exact absurd hocc.symm hpat
        | cons d occ =>
          rw [List.cons_append] at hsplit
          obtain ⟨rfl, rfl⟩ := List.cons.inj hsplit
          have hlen : pat.length - 1 = occ.length := by
            rw [← hocc, List.length_map, List.length_cons, Nat.add_sub_cancel]
          have hshort : rest.length < n := by
            rw [← hn, List.length_cons, List.length_append]
            omega
          rw [hlen, replaceKeyed_pass]
          exact Replaces.start hpat hocc (ih _ hshort rest rfl)
      · next hno =>
        have hshort : cs.length < n := by
          rw [← hn, List.length_cons]
          omega
        exact Replaces.cons hpat (fun hpre => hno (List.isPrefixOf_iff_prefix.mpr hpre))
          (ih _ hshort cs rfl)

/-- Without its marks the new text is the old one with the pattern replaced. -/
theorem map_replaceKeyed {key : α → Char} {pat : List Char} (rep s : List α) (passed : Nat) :
    (replaceKeyed key pat rep s passed).map key =
      Text.replaceChars pat (rep.map key) (s.map key) passed := by
  induction s generalizing passed with
  | nil => rfl
  | cons c cs ih =>
    cases passed with
    | succ passed => exact ih passed
    | zero =>
      rw [replaceKeyed, List.map_cons, Text.replaceChars, apply_ite (List.map key), List.map_append,
        List.map_cons, ih, ih]

theorem replaceKeyed_id {pat : List Char} (rep s : List Char) (passed : Nat) :
    replaceKeyed id pat rep s passed = Text.replaceChars pat rep s passed := by
  have h := @map_replaceKeyed Char id pat rep s passed
  simpa only [List.map_id] using h

/-- `str::replace` meets the specification. -/
theorem replace_spec {s pat : String} (rep : String) (hpat : pat ≠ "") :
    Replaces id pat.toList rep.toList s.toList (Text.replace s pat rep).toList := by
  have hne : pat.toList ≠ [] := by
    intro hnil
    exact hpat (String.toList_eq_nil_iff.mp hnil)
  rw [Text.replace, String.toList_ofList, ← replaceKeyed_id]
  exact replaceKeyed_spec hne s.toList

end Program

/-! ## What is gone -/

/-- A letter that is not in the replacement does not become more frequent. -/
theorem Replaces.count_le [BEq α] [LawfulBEq α] (h : Replaces key pat rep s t) {x : α}
    (hx : x ∉ rep) : t.count x ≤ s.count x := by
  induction h with
  | done _ => exact Nat.le_refl _
  | next _ _ _ ih =>
    rw [List.count_append, List.count_append, List.count_append, List.count_append,
      List.count_eq_zero_of_not_mem hx]
    omega

/-- An occurrence of a word without the letter stands on one side of the letter. -/
theorem occurrence_split {u m v a b : List α} {x : α} (hx : x ∉ m)
    (h : u ++ (m ++ v) = a ++ x :: b) :
    (∃ w, a = u ++ (m ++ w) ∧ v = w ++ x :: b) ∨ ∃ w, u = a ++ x :: w ∧ b = w ++ (m ++ v) := by
  rcases List.append_eq_append_iff.mp h with ⟨c, ha, hc⟩ | ⟨c, hu, hc⟩
  · rcases List.append_eq_append_iff.mp hc with ⟨d, hd, hv⟩ | ⟨d, hd, hb⟩
    · exact Or.inl ⟨d, by rw [ha, hd], hv⟩
    · cases d with
      | nil =>
        rw [List.append_nil] at hd
        exact Or.inl ⟨[], by rw [ha, hd, List.append_nil], hb.symm⟩
      | cons y d =>
        rw [List.cons_append] at hb
        obtain ⟨rfl, -⟩ := List.cons.inj hb
        exact absurd (hd ▸ List.mem_append_right _ List.mem_cons_self) hx
  · cases c with
    | nil =>
      cases m with
      | nil =>
        rw [List.append_nil] at hu
        exact Or.inl ⟨[], by rw [hu, List.append_nil, List.append_nil], hc.symm⟩
      | cons y m =>
        obtain ⟨rfl, -⟩ := List.cons.inj hc
        exact absurd List.mem_cons_self hx
    | cons y c =>
      obtain ⟨rfl, hb⟩ := List.cons.inj hc
      exact Or.inr ⟨c, hu, hb⟩

/-- A word without the letter stands on one side of it. -/
theorem infix_append_cons {m a b : List α} {x : α} (hx : x ∉ m) (h : m <:+: a ++ x :: b) :
    m <:+: a ∨ m <:+: b := by
  obtain ⟨u, v, huv⟩ := h
  rw [List.append_assoc] at huv
  rcases occurrence_split hx huv with ⟨w, ha, -⟩ | ⟨w, -, hb⟩
  · exact Or.inl ⟨u, w, by rw [ha, List.append_assoc]⟩
  · exact Or.inr ⟨w, v, by rw [hb, List.append_assoc]⟩

/-- A word without the two ends of the replacement is to its left, inside it, or to its right. -/
theorem infix_replacement {m a b mid : List α} {x y : α} (hx : x ∉ m) (hy : y ∉ m)
    (h : m <:+: a ++ (x :: (mid ++ [y]) ++ b)) : m <:+: a ∨ m <:+: mid ∨ m <:+: b := by
  rw [List.cons_append, List.append_assoc] at h
  rcases infix_append_cons hx h with h | h
  · exact Or.inl h
  · exact Or.inr (infix_append_cons hy h)

/-- **No word appears in the new text** that was not in the old one, when it has neither end of the
replacement and does not stand inside it. -/
theorem Replaces.free {pat s t m mid : List κ} {x y : κ}
    (h : Replaces id pat (x :: (mid ++ [y])) s t) (hx : x ∉ m) (hy : y ∉ m) (hmid : ¬ m <:+: mid)
    (hs : ¬ m <:+: s) : ¬ m <:+: t := by
  induction h with
  | done _ => exact hs
  | @next before occ rest out _ _ _ ih =>
    intro hin
    rcases infix_replacement hx hy hin with hin | hin | hin
    · exact hs (hin.trans (List.prefix_append _ _).isInfix)
    · exact hmid hin
    · refine ih (fun hrest => hs ?_) hin
      rw [← List.append_assoc]
      exact hrest.trans (List.suffix_append _ _).isInfix

/-- The pattern itself is gone, when the replacement does not bring it back. -/
theorem Replaces.pattern_gone {pat s t mid : List κ} {x y : κ} (hpat : pat ≠ [])
    (h : Replaces id pat (x :: (mid ++ [y])) s t) (hx : x ∉ pat) (hy : y ∉ pat)
    (hmid : ¬ pat <:+: mid) : ¬ pat <:+: t := by
  induction h with
  | done hfree => rwa [List.map_id] at hfree
  | @next before occ rest out hocc hfirst _ ih =>
    intro hin
    rcases infix_replacement hx hy hin with hin | hin | hin
    · -- what is passed before the first place
      apply hfirst
      rw [List.map_id] at hocc ⊢
      rw [List.dropLast_append_of_ne_nil (hocc ▸ hpat)]
      exact hin.trans (List.prefix_append _ _).isInfix
    · exact hmid hin
    · exact ih hin

/-! ## Overlaps -/

/-- Neither word holds the other, and no end of one is the start of the other. -/
structure Apart (pat rep : List κ) : Prop where
  not_inside : ¬ pat <:+: rep
  not_around : ¬ rep <:+: pat
  not_before : ∀ m, m <:+ pat → m <+: rep → m = []
  not_after : ∀ m, m <:+ rep → m <+: pat → m = []

/-- Words that do not overlap stand side by side. -/
theorem Apart.infix {pat rep a b : List κ} (hapart : Apart pat rep) (h : pat <:+: a ++ (rep ++ b)) :
    pat <:+: a ∨ pat <:+: b := by
  obtain ⟨u, v, huv⟩ := h
  rw [List.append_assoc] at huv
  rcases List.append_eq_append_iff.mp huv with ⟨c, ha, hc⟩ | ⟨c, hu, hc⟩
  · -- the pattern starts before the replacement
    rcases List.append_eq_append_iff.mp hc with ⟨d, hd, hv⟩ | ⟨d, hd, hb⟩
    · exact Or.inl ⟨u, d, by rw [ha, hd, List.append_assoc]⟩
    · rcases List.append_eq_append_iff.mp hb with ⟨e, he, -⟩ | ⟨e, he, -⟩
      · exact absurd ⟨c, e, by rw [hd, he, List.append_assoc]⟩ hapart.not_around
      · have hnil := hapart.not_before d ⟨c, hd.symm⟩ ⟨e, he.symm⟩
        rw [hnil, List.append_nil] at hd
        exact Or.inl ⟨u, [], by rw [ha, hd, List.append_nil]⟩
  · rcases List.append_eq_append_iff.mp hc with ⟨d, hd, hv⟩ | ⟨d, hd, hb⟩
    · exact Or.inr ⟨d, v, by rw [hv, List.append_assoc]⟩
    · rcases List.append_eq_append_iff.mp hb with ⟨e, he, -⟩ | ⟨e, he, hv⟩
      · exact absurd ⟨c, e, by rw [hd, he, List.append_assoc]⟩ hapart.not_inside
      · have hnil := hapart.not_after d ⟨c, hd.symm⟩ ⟨e, he.symm⟩
        rw [hnil, List.nil_append] at he
        exact Or.inr ⟨[], v, by rw [hv, he, List.nil_append]⟩

/-- The pattern is gone, when it does not overlap the replacement. -/
theorem Replaces.apart_gone {pat rep s t : List κ} (h : Replaces id pat rep s t)
    (hapart : Apart pat rep) : ¬ pat <:+: t := by
  have hpat : pat ≠ [] := by
    rintro rfl
    exact hapart.not_inside List.nil_infix
  induction h with
  | done hfree => rwa [List.map_id] at hfree
  | @next before occ rest out hocc hfirst _ ih =>
    intro hin
    rcases hapart.infix hin with hin | hin
    · apply hfirst
      rw [List.map_id] at hocc ⊢
      rw [List.dropLast_append_of_ne_nil (hocc ▸ hpat)]
      exact hin.trans (List.prefix_append _ _).isInfix
    · exact ih hin

end Basecrawl.Replace
