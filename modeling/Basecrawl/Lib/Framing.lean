/-
  Components ended by a terminator.

  A list of components, each followed by one terminator, can be read back from its text if no
  component holds the terminator (`terminated_inj`).  What is written for an optional section is
  its name and its value or nothing at all, so the sections that are there can be read back too
  (`sections_inj`).  Everything rests on one cut (`cut_unique`): the first terminator of a text is
  where the first component ends.
-/
import Mathlib.Data.List.Basic

namespace Basecrawl.Framing

variable {α κ β : Type}

/-- Each component and a terminator after it. -/
def terminated (sep : α) (components : List (List α)) : List α :=
  components.flatMap fun component => component ++ [sep]

theorem terminated_cons (sep : α) (component : List α) (components : List (List α)) :
    terminated sep (component :: components) = component ++ sep :: terminated sep components := by
  show (component ++ [sep]) ++ terminated sep components = _
  rw [List.append_assoc, List.singleton_append]

/-- **The cut**: the first terminator ends the first component. -/
theorem cut_unique {sep : α} : ∀ {x y r s : List α}, sep ∉ x → sep ∉ y →
    (x ++ sep :: r = y ++ sep :: s ↔ x = y ∧ r = s)
  | [], [], r, s, _, _ => by simp
  | [], b :: y, r, s, _, hy => by
      have hne : sep ≠ b := fun h => hy (h ▸ List.mem_cons_self)
      simp [hne]
  | a :: x, [], r, s, hx, _ => by
      have hne : a ≠ sep := fun h => hx (h ▸ List.mem_cons_self)
      simp [hne]
  | a :: x, b :: y, r, s, hx, hy => by
      have hx' : sep ∉ x := fun h => hx (List.mem_cons_of_mem a h)
      have hy' : sep ∉ y := fun h => hy (List.mem_cons_of_mem b h)
      rw [List.cons_append, List.cons_append, List.cons.injEq, List.cons.injEq,
        cut_unique hx' hy', and_assoc]

/-- **Reading back**: a text of terminated components determines them. -/
theorem terminated_inj {sep : α} : ∀ {xs ys : List (List α)}, (∀ x ∈ xs, sep ∉ x) →
    (∀ y ∈ ys, sep ∉ y) → (terminated sep xs = terminated sep ys ↔ xs = ys)
  | [], [], _, _ => by simp
  | [], y :: ys, _, _ => by
      rw [terminated_cons]
      simp [terminated]
  | x :: xs, [], _, _ => by
      rw [terminated_cons]
      simp [terminated]
  | x :: xs, y :: ys, hx, hy => by
      obtain ⟨hx0, hxs⟩ := List.forall_mem_cons.mp hx
      obtain ⟨hy0, hys⟩ := List.forall_mem_cons.mp hy
      rw [terminated_cons, terminated_cons, cut_unique hx0 hy0, terminated_inj hxs hys,
        List.cons.injEq]

/-- Between components instead of after them, the separator is missing at the end only. -/
theorem intercalate_append_sep {sep : α} : ∀ {xs : List (List α)}, xs ≠ [] →
    [sep].intercalate xs ++ [sep] = terminated sep xs
  | [x], _ => by simp [terminated]
  | x :: y :: xs, _ => by
      have ih : [sep].intercalate (y :: xs) ++ [sep] = terminated sep (y :: xs) :=
        intercalate_append_sep (List.cons_ne_nil _ _)
      rw [List.intercalate_cons_cons, terminated_cons, ← ih]
      simp

/-- What comes before the last component. -/
theorem intercalate_concat {sep : α} {xs : List (List α)} {last : List α} :
    [sep].intercalate (xs ++ [last]) = terminated sep xs ++ last := by
  have hjoin : [sep].intercalate (xs ++ [last]) ++ [sep] = terminated sep (xs ++ [last]) :=
    intercalate_append_sep (List.concat_ne_nil last xs)
  rw [terminated, List.flatMap_append, List.flatMap_singleton, ← List.append_assoc] at hjoin
  exact List.append_cancel_right hjoin

/-- Joined components can be read back when none is empty. -/
theorem intercalate_inj {sep : α} {xs ys : List (List α)} (hx : ∀ x ∈ xs, x ≠ [] ∧ sep ∉ x)
    (hy : ∀ y ∈ ys, y ≠ [] ∧ sep ∉ y)
    (h : [sep].intercalate xs = [sep].intercalate ys) : xs = ys := by
  have hnil : ∀ zs : List (List α), (∀ z ∈ zs, z ≠ [] ∧ sep ∉ z) →
      [sep].intercalate zs = [] → zs = [] := by
    intro zs hz hzs
    by_contra hne
    have hjoin : [sep].intercalate zs ++ [sep] = terminated sep zs := intercalate_append_sep hne
    have hlen := congrArg List.length hjoin
    obtain ⟨z, zs, rfl⟩ := List.exists_cons_of_ne_nil hne
    have hpos := List.length_pos_iff.mpr (hz z List.mem_cons_self).1
    rw [hzs, terminated_cons, List.length_append, List.length_append, List.length_cons] at hlen
    simp only [List.length_nil, List.length_cons] at hlen
    omega
  by_cases hxs : xs = []
  · rw [hxs, List.intercalate_nil] at h
    rw [hxs, hnil ys hy h.symm]
  · by_cases hys : ys = []
    · rw [hys, List.intercalate_nil] at h
      exact absurd (hnil xs hx h) hxs
    · rw [← terminated_inj (fun x hmem => (hx x hmem).2) (fun y hmem => (hy y hmem).2),
        ← intercalate_append_sep hxs, ← intercalate_append_sep hys, h]

/-- The two halves of each pair, in order. -/
def unpair (pairs : List (α × α)) : List α := pairs.flatMap fun p => [p.1, p.2]

theorem unpair_injective : Function.Injective (unpair : List (α × α) → List α) := by
  intro ps
  induction ps with
  | nil =>
    intro qs h
    cases qs with
    | nil => rfl
    | cons q qs => cases h
  | cons p ps ih =>
    intro qs h
    cases qs with
    | nil => cases h
    | cons q qs =>
      have hcons : p.1 :: p.2 :: unpair ps = q.1 :: q.2 :: unpair qs := h
      rw [List.cons.injEq, List.cons.injEq] at hcons
      obtain ⟨hfst, hsnd, htail⟩ := hcons
      rw [Prod.ext hfst hsnd, ih htail]

/-- The sections that are there, each under its name. -/
def sections (names : List κ) (value : κ → Option β) : List (κ × β) :=
  names.filterMap fun name => (value name).map fun v => (name, v)

theorem mem_sections {names : List κ} {value : κ → Option β} {name : κ} {v : β} :
    (name, v) ∈ sections names value ↔ name ∈ names ∧ value name = some v := by
  simp only [sections, List.mem_filterMap, Option.map_eq_some_iff, Prod.mk.injEq]
  constructor
  · rintro ⟨n, hn, w, hw, rfl, rfl⟩
    exact ⟨hn, hw⟩
  · rintro ⟨hn, hv⟩
    exact ⟨name, hn, v, hv, rfl, rfl⟩

/-- The sections say of every name whether it is there, and with which value. -/
theorem sections_inj {names : List κ} {value value' : κ → Option β} :
    sections names value = sections names value' ↔ ∀ name ∈ names, value name = value' name := by
  constructor
  · intro h name hname
    apply Option.ext
    intro v
    have hmem : (name, v) ∈ sections names value ↔ (name, v) ∈ sections names value' := by rw [h]
    rw [mem_sections, mem_sections] at hmem
    simpa only [hname, true_and] using hmem
  · intro h
    refine List.filterMap_congr ?_
    intro name hname
    rw [h name hname]

end Basecrawl.Framing
