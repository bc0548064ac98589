/-
  Codes whose words are read off the front of a text.

  A text that starts with a word of a prefix code determines the word and what comes after it.
  Prefix codes are closed under what a printer does with them: a literal before or after a word,
  one word after another, a sequence of words ended by a mark no word starts with, and one word for
  each field of a record.
-/
import Mathlib.Data.List.Basic

namespace Basecrawl.PrefixCode

variable {α β γ κ : Type}

/-- What a text starts with can be told from the text. -/
structure IsPrefixCode (f : α → List γ) : Prop where
  cut : ∀ {a b x y}, f a ++ x = f b ++ y → a = b ∧ x = y

variable {f : α → List γ} {g : β → List γ}

theorem IsPrefixCode.lit (hf : IsPrefixCode f) (w : List γ) : IsPrefixCode fun a => w ++ f a := by
  constructor
  intro a b x y h
  rw [List.append_assoc, List.append_assoc] at h
  exact hf.cut (List.append_cancel_left h)

theorem IsPrefixCode.ended (hf : IsPrefixCode f) (w : List γ) : IsPrefixCode fun a => f a ++ w := by
  constructor
  intro a b x y h
  rw [List.append_assoc, List.append_assoc] at h
  obtain ⟨hab, hxy⟩ := hf.cut h
  exact ⟨hab, List.append_cancel_left hxy⟩

/-- A sequence of words and then a mark that no word starts with. -/
theorem IsPrefixCode.sequence (hf : IsPrefixCode f) {mark : γ}
    (hmark : ∀ a, ∃ c w, f a = c :: w ∧ c ≠ mark) :
    IsPrefixCode fun as : List α => as.flatMap f ++ [mark] := by
  have hend : ∀ a as x y, mark :: x ≠ (a :: as).flatMap f ++ [mark] ++ y := by
    intro a as x y h
    obtain ⟨c, w, hword, hne⟩ := hmark a
    rw [List.flatMap_cons, hword] at h
    exact hne (List.cons.inj h).1.symm
  constructor
  intro as
  induction as with
  | nil =>
    intro bs x y h
    cases bs with
    | nil => exact ⟨rfl, (List.cons.inj h).2⟩
    | cons b bs => exact absurd h (hend b bs x y)
  | cons a as ih =>
    intro bs x y h
    cases bs with
    | nil => exact absurd h.symm (hend a as y x)
    | cons b bs =>
      simp only [List.flatMap_cons, List.append_assoc] at h
      obtain ⟨hab, hrest⟩ := hf.cut h
      simp only [← List.append_assoc] at hrest
      obtain ⟨habs, hxy⟩ := ih hrest
      rw [hab, habs]
      exact ⟨rfl, hxy⟩

/-- One word for each field. -/
theorem fields_unique {word : κ → α → List γ} (hword : ∀ key, IsPrefixCode (word key))
    {r s : κ → α} : ∀ {keys : List κ} {x y : List γ},
      keys.flatMap (fun key => word key (r key)) ++ x =
        keys.flatMap (fun key => word key (s key)) ++ y →
      (∀ key ∈ keys, r key = s key) ∧ x = y
  | [], x, y, h => ⟨fun _ hmem => absurd hmem List.not_mem_nil, h⟩
  | key :: keys, x, y, h => by
    rw [List.flatMap_cons, List.flatMap_cons, List.append_assoc, List.append_assoc] at h
    obtain ⟨hkey, hrest⟩ := (hword key).cut h
    obtain ⟨hkeys, hxy⟩ := fields_unique hword hrest
    exact ⟨List.forall_mem_cons.mpr ⟨hkey, hkeys⟩, hxy⟩

end Basecrawl.PrefixCode
