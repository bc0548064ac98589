/-
  The first place of a pattern in a list.

  `position` is what `windows(n).position` finds.  The place does not move when more is appended
  (`position_append`), and a front of the list has it as soon as it has the whole pattern
  (`position_front`, `position_take`), not before (`position_take_none`).
-/
import Mathlib.Data.List.Basic

namespace Basecrawl.Windows

variable {α : Type} [DecidableEq α] {pat xs ys : List α} {n : Nat}

/-- `xs.windows(pat.len()).position(|w| w == pat)`. -/
def position (pat : List α) : List α → Option Nat
  | [] => none
  | x :: xs => if pat.isPrefixOf (x :: xs) then some 0 else (position pat xs).map (· + 1)

theorem position_le (h : position pat xs = some n) : n + pat.length ≤ xs.length := by
  induction xs generalizing n with
  | nil => cases h
  | cons x xs ih =>
    rw [position] at h
    split at h
    · next hhere =>
      obtain rfl := Option.some.inj h
      rw [Nat.zero_add]
      exact (List.isPrefixOf_iff_prefix.mp hhere).length_le
    · obtain ⟨k, hk, rfl⟩ := Option.map_eq_some_iff.mp h
      have hle := ih hk
      rw [List.length_cons]
      omega

theorem position_append (h : position pat xs = some n) (ys : List α) :
    position pat (xs ++ ys) = some n := by
  induction xs generalizing n with
  | nil => cases h
  | cons x xs ih =>
    rw [position] at h
    rw [List.cons_append, position]
    split at h
    · next hhere =>
      have hlonger : pat.isPrefixOf (x :: (xs ++ ys)) = true :=
        List.isPrefixOf_iff_prefix.mpr
          ((List.isPrefixOf_iff_prefix.mp hhere).trans (List.prefix_append (x :: xs) ys))
      rw [if_pos hlonger]
      exact h
    · next hlater =>
      obtain ⟨k, hk, rfl⟩ := Option.map_eq_some_iff.mp h
      have hle := position_le hk
      have hstill : ¬ pat.isPrefixOf (x :: (xs ++ ys)) = true := by
        intro hhere
        refine hlater (List.isPrefixOf_iff_prefix.mpr ?_)
        refine List.prefix_of_prefix_length_le (List.isPrefixOf_iff_prefix.mp hhere)
          (List.prefix_append (x :: xs) ys) ?_
        rw [List.length_cons]
        omega
      rw [if_neg hstill, ih hk]
      rfl

theorem position_front (hpat : pat ≠ []) (h : position pat (xs ++ ys) = some n)
    (hn : n + pat.length ≤ xs.length) : position pat xs = some n := by
  have hpos := List.length_pos_iff.mpr hpat
  induction xs generalizing n with
  | nil =>
    rw [List.length_nil] at hn
    omega
  | cons x xs ih =>
    rw [List.cons_append, position] at h
    rw [position]
    split at h
    · next hhere =>
      obtain rfl := Option.some.inj h
      have hshort : pat.isPrefixOf (x :: xs) = true := by
        refine List.isPrefixOf_iff_prefix.mpr ?_
        refine List.prefix_of_prefix_length_le (List.isPrefixOf_iff_prefix.mp hhere)
          (List.prefix_append (x :: xs) ys) ?_
        omega
      rw [if_pos hshort]
    · next hlater =>
      obtain ⟨k, hk, rfl⟩ := Option.map_eq_some_iff.mp h
      have hnot : ¬ pat.isPrefixOf (x :: xs) = true := by
        intro hhere
        exact hlater (List.isPrefixOf_iff_prefix.mpr
          ((List.isPrefixOf_iff_prefix.mp hhere).trans (List.prefix_append (x :: xs) ys)))
      rw [List.length_cons] at hn
      rw [if_neg hnot, ih hk (by omega)]
      rfl

/-- A front that stops inside the first place does not have the pattern. -/
theorem position_take_none {k : Nat} (h : position pat xs = some n) (hk : k < n + pat.length) :
    position pat (xs.take k) = none := by
  cases hsome : position pat (xs.take k) with
  | none => rfl
  | some m =>
    have hlonger := position_append hsome (xs.drop k)
    rw [List.take_append_drop, h] at hlonger
    obtain rfl := Option.some.inj hlonger
    have hle := position_le hsome
    rw [List.length_take] at hle
    omega

theorem position_take {k : Nat} (hpat : pat ≠ []) (h : position pat xs = some n)
    (hk : n + pat.length ≤ k) : position pat (xs.take k) = some n := by
  have hle := position_le h
  have hwhole : position pat (xs.take k ++ xs.drop k) = some n := by
    rw [List.take_append_drop]
    exact h
  refine position_front hpat hwhole ?_
  rw [List.length_take]
  omega

end Basecrawl.Windows
