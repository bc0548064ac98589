/-
  Little-endian numbers inside a byte string.

  `leBytes k n` writes `n` on `k` bytes and `leNat` reads a number back; the two are inverse on the
  numbers below `256 ^ k`.  A fixed-layout parser reads its fields at offsets, so what is used later
  is `le bytes off k`, the `k`-byte number at an offset, and how it moves over an append: past what
  stands before it (`le_skip`) and onto the field itself (`le_leBytes`).  In the other direction
  `cut_bytes` and `cut_number` take a byte string apart, one field at a time.
-/
import Mathlib.Data.Nat.Digits.Lemmas
import Basecrawl.Lib.Text

namespace Basecrawl.LittleEndian

open Text

/-- `uN::from_le_bytes`. -/
def leNat (bytes : Bytes) : Nat := Nat.ofDigits 256 (bytes.map UInt8.toNat)

/-- `uN::to_le_bytes` on `k` bytes. -/
def leBytes : Nat → Nat → Bytes
  | 0, _ => []
  | k + 1, n => UInt8.ofNat n :: leBytes k (n / 256)

/-- The `k`-byte number at an offset. -/
def le (bytes : Bytes) (off k : Nat) : Nat := leNat ((bytes.drop off).take k)

@[simp] theorem length_leBytes (k n : Nat) : (leBytes k n).length = k := by
  induction k generalizing n with
  | zero => rfl
  | succ k ih => simp [leBytes, ih]

@[simp] theorem leNat_nil : leNat [] = 0 := rfl

theorem leNat_cons (b : UInt8) (bytes : Bytes) :
    leNat (b :: bytes) = b.toNat + 256 * leNat bytes := by
  simp [leNat, Nat.ofDigits_cons]

theorem leNat_lt (bytes : Bytes) : leNat bytes < 256 ^ bytes.length := by
  have hdigit : ∀ d ∈ bytes.map UInt8.toNat, d < 256 := by
    intro d hd
    obtain ⟨b, -, rfl⟩ := List.mem_map.mp hd
    exact b.toNat_lt
  have h := Nat.ofDigits_lt_base_pow_length (by omega) hdigit
  rwa [List.length_map] at h

theorem le_lt (bytes : Bytes) (off k : Nat) : le bytes off k < 256 ^ k := by
  have h := leNat_lt ((bytes.drop off).take k)
  have hlen : ((bytes.drop off).take k).length ≤ k := List.length_take_le ..
  exact Nat.lt_of_lt_of_le h (Nat.pow_le_pow_right (by omega) hlen)

/-! ## The two directions -/

theorem leNat_leBytes {k n : Nat} (h : n < 256 ^ k) : leNat (leBytes k n) = n := by
  induction k generalizing n with
  | zero => simp at h; simp [leBytes, h]
  | succ k ih =>
    have hdiv : n / 256 < 256 ^ k := by
      rw [Nat.pow_succ, Nat.mul_comm] at h
      exact Nat.div_lt_of_lt_mul h
    rw [leBytes, leNat_cons, ih hdiv, UInt8.toNat_ofNat']
    omega

theorem leBytes_leNat (bytes : Bytes) : leBytes bytes.length (leNat bytes) = bytes := by
  induction bytes with
  | nil => rfl
  | cons b bytes ih =>
    have hb := b.toNat_lt
    have hhead : UInt8.ofNat (b.toNat + 256 * leNat bytes) = b := by
      apply UInt8.toNat_inj.mp
      rw [UInt8.toNat_ofNat']
      omega
    have htail : (b.toNat + 256 * leNat bytes) / 256 = leNat bytes := by omega
    rw [List.length_cons, leNat_cons, leBytes, hhead, htail, ih]

/-! ## Numbers at an offset -/

/-- Reading past what stands before. -/
theorem le_skip {x y : Bytes} {off o k : Nat} (h : off = x.length + o) :
    le (x ++ y) off k = le y o k := by
  rw [le, le, h, ← List.drop_drop, List.drop_left]

/-- Reading inside the first part. -/
theorem le_append_left {x y : Bytes} {off k : Nat} (h : off + k ≤ x.length) :
    le (x ++ y) off k = le x off k := by
  have hdrop : off ≤ x.length := by omega
  rw [le, le, List.drop_append_of_le_length hdrop,
    List.take_append_of_le_length (by rw [List.length_drop]; omega)]

/-- Reading a field that was written. -/
theorem le_leBytes {k n : Nat} {y : Bytes} (h : n < 256 ^ k) : le (leBytes k n ++ y) 0 k = n := by
  rw [le, List.drop_zero, List.take_left' (length_leBytes k n), leNat_leBytes h]

/-- The first `k` bytes, and the rest. -/
theorem cut_bytes (bytes : Bytes) (k : Nat) (h : k ≤ bytes.length) :
    ∃ x y, x.length = k ∧ bytes = x ++ y :=
  ⟨bytes.take k, bytes.drop k, by rw [List.length_take]; omega, (List.take_append_drop ..).symm⟩

/-- A `k`-byte number at the front, and the rest. -/
theorem cut_number (bytes : Bytes) (k : Nat) (h : k ≤ bytes.length) :
    ∃ n y, n < 256 ^ k ∧ bytes = leBytes k n ++ y := by
  obtain ⟨x, y, hx, hbytes⟩ := cut_bytes bytes k h
  refine ⟨leNat x, y, ?_, ?_⟩
  · rw [← hx]
    exact leNat_lt x
  · rw [← hx, leBytes_leNat]
    exact hbytes

end Basecrawl.LittleEndian
