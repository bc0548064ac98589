/-
  Where a text can be cut at a label.

  A record written as `field ++ label ++ field ++ …` without escaping can be read back in as many
  ways as the labels occur in it.  When a label starts with a separator that it does not contain
  again, its occurrences never overlap, and the cuts can be compared:

  1. **One label** — `append_label_cases`: two cuts of one text at the same label agree, or one
     field holds the label that the other was cut at.
  2. **Two labels** — `append_label_ne_cases`: cuts of one text at two labels with the same
     separator, neither of which starts with the other, are never at the same place.
  3. **Records** — `pair_unique_iff` and `triple_unique_iff`: exactly when the fields of a record
     with one or two labels are the only ones with its text.
-/
import Mathlib.Data.List.Basic
import Mathlib.Data.List.Infix

namespace Basecrawl.Splice

variable {α : Type}

/-- `label` starts with `sep` and does not contain it again. -/
structure IsLabel (sep : α) (label : List α) : Prop where
  starts : ∃ name, label = sep :: name ∧ sep ∉ name

/-- A text that starts with a label and with some other text before a label of the same
    separator: the other text is empty, or it starts with the whole first label. -/
theorem IsLabel.eq_append {sep : α} {l l' x r r' : List α} (h : IsLabel sep l)
    (h' : IsLabel sep l') (heq : l ++ r = x ++ (l' ++ r')) : x = [] ∨ ∃ y, x = l ++ y := by
  obtain ⟨name, rfl, hname⟩ := h.starts
  obtain ⟨name', rfl, -⟩ := h'.starts
  cases x with
  | nil => exact Or.inl rfl
  | cons a x =>
    right
    rw [List.cons_append, List.cons_append, List.cons.injEq] at heq
    obtain ⟨rfl, heq⟩ := heq
    -- the separator that opens `l'` lies beyond `name`, which does not hold one
    rcases List.append_eq_append_iff.mp heq with ⟨as, hx, -⟩ | ⟨bs, hn, hb⟩
    · exact ⟨as, by rw [hx, List.cons_append]⟩
    · cases bs with
      | nil => exact ⟨[], by rw [hn, List.append_nil, List.append_nil]⟩
      | cons b bs =>
        rw [List.cons_append, List.cons_append, List.cons.injEq] at hb
        rw [hn, ← hb.1] at hname
        exact absurd (List.mem_append_right _ List.mem_cons_self) hname

/-- **Two cuts at one label** agree, or the longer field holds the label again. -/
theorem append_label_cases {sep : α} {l x y x' y' : List α} (h : IsLabel sep l)
    (heq : x ++ (l ++ y) = x' ++ (l ++ y')) :
    (x = x' ∧ y = y') ∨
    (∃ z, x = x' ++ (l ++ z) ∧ y' = z ++ (l ++ y)) ∨
    (∃ z, x' = x ++ (l ++ z) ∧ y = z ++ (l ++ y')) := by
  rcases List.append_eq_append_iff.mp heq with ⟨w, hx', hrest⟩ | ⟨w, hx, hrest⟩
  · rcases h.eq_append h hrest with rfl | ⟨z, rfl⟩
    · simp only [List.nil_append, List.append_cancel_left_eq] at hrest
      exact Or.inl ⟨by rw [hx', List.append_nil], hrest⟩
    · rw [List.append_assoc, List.append_cancel_left_eq] at hrest
      exact Or.inr (Or.inr ⟨z, hx', hrest⟩)
  · rcases h.eq_append h hrest with rfl | ⟨z, rfl⟩
    · simp only [List.nil_append, List.append_cancel_left_eq] at hrest
      exact Or.inl ⟨by rw [hx, List.append_nil], hrest.symm⟩
    · rw [List.append_assoc, List.append_cancel_left_eq] at hrest
      exact Or.inr (Or.inl ⟨z, hx, hrest⟩)

/-- **Cuts at two labels**, neither of which starts with the other, lie apart. -/
theorem append_label_ne_cases {sep : α} {l l' x y x' y' : List α} (h : IsLabel sep l)
    (h' : IsLabel sep l') (hll' : ¬ l <+: l') (hl'l : ¬ l' <+: l)
    (heq : x ++ (l ++ y) = x' ++ (l' ++ y')) :
    (∃ z, x = x' ++ (l' ++ z) ∧ y' = z ++ (l ++ y)) ∨
    (∃ z, x' = x ++ (l ++ z) ∧ y = z ++ (l' ++ y')) := by
  have hapart : ¬ (l ++ y = l' ++ y') := by
    intro hsame
    rcases List.append_eq_append_iff.mp hsame with ⟨w, hw, -⟩ | ⟨w, hw, -⟩
    · exact hll' ⟨w, hw.symm⟩
    · exact hl'l ⟨w, hw.symm⟩
  rcases List.append_eq_append_iff.mp heq with ⟨w, hx', hrest⟩ | ⟨w, hx, hrest⟩
  · rcases h.eq_append h' hrest with rfl | ⟨z, rfl⟩
    · exact absurd hrest hapart
    · rw [List.append_assoc, List.append_cancel_left_eq] at hrest
      exact Or.inr ⟨z, hx', hrest⟩
  · rcases h'.eq_append h hrest with rfl | ⟨z, rfl⟩
    · exact absurd hrest.symm hapart
    · rw [List.append_assoc, List.append_cancel_left_eq] at hrest
      exact Or.inl ⟨z, hx, hrest⟩

/-! ## Records that are cut in one way only -/

variable {sep : α} {l l' : List α}

/-- A field that holds `l` with something before it. -/
def HoldsAfter (l x : List α) : Prop := ∃ a b, a ≠ [] ∧ x = a ++ (l ++ b)

/-- A field that holds `l` with something after it. -/
def HoldsBefore (l x : List α) : Prop := ∃ a b, b ≠ [] ∧ x = a ++ (l ++ b)

/-- Two non-empty fields around a label are the only such pair with their text if and only if the
    first does not hold the label after something, nor the second before something. -/
theorem pair_unique_iff (h : IsLabel sep l) {x y : List α} (hx : x ≠ []) (hy : y ≠ []) :
    (∀ x' y', x' ≠ [] → y' ≠ [] → x ++ (l ++ y) = x' ++ (l ++ y') → x = x' ∧ y = y') ↔
      ¬ HoldsAfter l x ∧ ¬ HoldsBefore l y := by
  have hl : l ≠ [] := by
    obtain ⟨name, rfl, -⟩ := h.starts
    exact List.cons_ne_nil _ _
  constructor
  · intro huniq
    constructor
    · rintro ⟨a, b, ha, rfl⟩
      have hsame := huniq a (b ++ (l ++ y)) ha (by simp [hl]) (by simp)
      exact hl (List.append_eq_nil_iff.mp (List.append_right_eq_self.mp hsame.1)).1
    · rintro ⟨a, b, hb, rfl⟩
      have hsame := huniq (x ++ (l ++ a)) b (by simp [hx]) hb (by simp)
      exact hl (List.append_eq_nil_iff.mp (List.self_eq_append_right.mp hsame.1)).1
  · rintro ⟨hx', hy'⟩ x' y' hxne hyne heq
    rcases append_label_cases h heq with hsame | ⟨z, hz, -⟩ | ⟨z, -, hz⟩
    · exact hsame
    · exact absurd ⟨x', z, hxne, hz⟩ hx'
    · exact absurd ⟨z, y', hyne, hz⟩ hy'

/-- Three non-empty fields around two labels, neither the start of the other, are the only such
    triple with their text if and only if no field holds a neighbouring label with something on
    its outer side. -/
theorem triple_unique_iff (h : IsLabel sep l) (h' : IsLabel sep l') (hll' : ¬ l <+: l')
    (hl'l : ¬ l' <+: l) {x y z : List α} (hx : x ≠ []) (hy : y ≠ []) (hz : z ≠ []) :
    (∀ x' y' z', x' ≠ [] → y' ≠ [] → z' ≠ [] →
        x ++ (l ++ (y ++ (l' ++ z))) = x' ++ (l ++ (y' ++ (l' ++ z'))) →
        x = x' ∧ y = y' ∧ z = z') ↔
      ¬ HoldsAfter l x ∧ ¬ HoldsBefore l y ∧ ¬ HoldsAfter l' y ∧ ¬ HoldsBefore l' z := by
  have hl : l ≠ [] := by
    obtain ⟨name, rfl, -⟩ := h.starts
    exact List.cons_ne_nil _ _
  have hl' : l' ≠ [] := by
    obtain ⟨name, rfl, -⟩ := h'.starts
    exact List.cons_ne_nil _ _
  constructor
  · intro huniq
    refine ⟨?_, ?_, ?_, ?_⟩
    · rintro ⟨a, b, ha, rfl⟩
      have hsame := huniq a (b ++ (l ++ y)) z ha (by simp [hl]) hz (by simp)
      exact hl (List.append_eq_nil_iff.mp (List.append_right_eq_self.mp hsame.1)).1
    · rintro ⟨a, b, hb, rfl⟩
      have hsame := huniq (x ++ (l ++ a)) b z (by simp [hx]) hb hz (by simp)
      exact hl (List.append_eq_nil_iff.mp (List.self_eq_append_right.mp hsame.1)).1
    · rintro ⟨a, b, ha, rfl⟩
      have hsame := huniq x a (b ++ (l' ++ z)) hx ha (by simp [hl']) (by simp)
      exact hl' (List.append_eq_nil_iff.mp (List.append_right_eq_self.mp hsame.2.1)).1
    · rintro ⟨a, b, hb, rfl⟩
      have hsame := huniq x (y ++ (l' ++ a)) b hx (by simp [hy]) hb (by simp)
      exact hl' (List.append_eq_nil_iff.mp (List.self_eq_append_right.mp hsame.2.1)).1
  · rintro ⟨hxl, hyl, hyl', hzl'⟩ x' y' z' hx' hy' hz' heq
    rcases append_label_cases h heq with ⟨rfl, hrest⟩ | ⟨w, hw, -⟩ | ⟨w, -, hw⟩
    · -- the first cuts agree: compare the second ones
      have hpair := (pair_unique_iff h' hy hz).mpr ⟨hyl', hzl'⟩
      exact ⟨rfl, hpair y' z' hy' hz' hrest⟩
    · exact absurd ⟨x', w, hx', hw⟩ hxl
    · -- the first cut lies inside `y ++ l' ++ z`
      rcases append_label_ne_cases h' h hl'l hll' hw with ⟨v, hv, hrest⟩ | ⟨v, -, hv⟩
      · rcases append_label_cases h' hrest with ⟨rfl, -⟩ | ⟨u, -, hu⟩ | ⟨u, hu, -⟩
        · exact absurd ⟨w, _, hy', hv⟩ hyl
        · exact absurd ⟨u, z', hz', hu⟩ hzl'
        · refine absurd ⟨w, v, ?_, hv⟩ hyl
          rintro rfl
          exact hy' (List.append_eq_nil_iff.mp hu.symm).1
      · refine absurd ⟨v ++ (l ++ y'), z', hz', ?_⟩ hzl'
        simpa using hv

end Basecrawl.Splice
