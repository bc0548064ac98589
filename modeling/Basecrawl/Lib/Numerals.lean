/-
  Numbers in decimal digits.

  `decimal` reads what `Nat.repr` writes; `parseUnsigned` is the parser of the standard library for
  an unsigned type.
-/
import Mathlib.Data.Nat.Digits.Lemmas
import Basecrawl.Lib.Text

namespace Basecrawl.Numerals

open Text

/-- `1*DIGIT`. -/
def decimal (cs : List Char) : Option Nat :=
  if cs ≠ [] ∧ cs.all Char.isDigit then some (Nat.ofDigitChars 10 cs 0) else none

theorem decimal_repr (n : Nat) : decimal (Nat.repr n).toList = some n := by
  have hdigits : (Nat.toDigits 10 n).all Char.isDigit = true :=
    List.all_eq_true.mpr fun c hc => Nat.isDigit_of_mem_toDigits (by decide) (by decide) hc
  rw [Nat.toList_repr, decimal, if_pos ⟨Nat.toDigits_ne_nil, hdigits⟩, Nat.ofDigitChars_ten_toDigits]

/-- The digits of a number are ASCII. -/
theorem repr_bytes (n : Nat) : ∀ b ∈ utf8 (Nat.repr n), 0x30 ≤ b ∧ b ≤ 0x39 := by
  have hdigit : ∀ c ∈ (Nat.repr n).toList, 0x30 ≤ c.toNat ∧ c.toNat ≤ 0x39 := by
    intro c hc
    rw [Nat.toList_repr] at hc
    exact Char.isDigit_iff_toNat.mp (Nat.isDigit_of_mem_toDigits (by decide) (by decide) hc)
  intro b hb
  rw [utf8_ascii fun c hc => Nat.lt_of_le_of_lt (hdigit c hc).2 (by decide)] at hb
  obtain ⟨c, hc, rfl⟩ := List.mem_map.mp hb
  obtain ⟨hlo, hhi⟩ := hdigit c hc
  rw [UInt8.le_iff_toNat_le, UInt8.le_iff_toNat_le, UInt8.toNat_ofNat', Nat.mod_eq_of_lt (by omega)]
  exact ⟨hlo, hhi⟩

theorem decimal_none {cs : List Char} {c : Char} (hmem : c ∈ cs) (hc : c.isDigit = false) :
    decimal cs = none := by
  refine if_neg fun h => ?_
  have hdigit := List.all_eq_true.mp h.2 c hmem
  rw [hc] at hdigit
  cases hdigit

/-- `str::parse` at an unsigned type with values below `bound`: a sign may stand in front. -/
def parseUnsigned (bound : Nat) (text : String) : Option Nat :=
  let digits := match text.toList with
    | '+' :: digits => digits
    | digits => digits
  (decimal digits).filter fun n => n < bound

theorem repr_injective : Function.Injective Nat.repr := by
  intro m n h
  have hm := decimal_repr m
  rw [h, decimal_repr] at hm
  exact (Option.some.inj hm).symm

end Basecrawl.Numerals
