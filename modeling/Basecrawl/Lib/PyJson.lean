/-
  JSON as Python has it.

  A number compares with an integer by value, so `3`, `3.0` and `3e0` are all `3`.
-/
import Basecrawl.Lib.Json

namespace Basecrawl.PyJson

open Json

/-- `value == n` of a double. -/
def floatEqNat (bits : UInt64) (n : Nat) : Bool :=
  let exponent := bits.toNat / 0x10000000000000
  let fraction := bits.toNat % 0x10000000000000
  -- zero of either sign; what is subnormal lies strictly between two integers
  if exponent = 0 ∨ exponent = 2048 then fraction == 0 && n == 0
  -- negative, infinite or not a number
  else if 2047 ≤ exponent then false
  else if 1075 ≤ exponent then (0x10000000000000 + fraction) <<< (exponent - 1075) == n
  else 0x10000000000000 + fraction == n <<< (1075 - exponent)

/-- `value == n` of a number. -/
def numberEqNat (number : Number) (n : Nat) : Bool :=
  match number with
  | .posInt value => value.toNat == n
  | .negInt value => value.toInt == n
  | .float bits => floatEqNat bits n

/-- `value == n`, where the integer is neither 0 nor 1 and so equal to no `bool`. -/
def eqNat (value : Tree) (n : Nat) : Bool :=
  match value with
  | .number number => numberEqNat number n
  | _ => false

example : numberEqNat (.float 0x4008000000000000) 3 = true := by decide
example : numberEqNat (.float 0x4008000000000001) 3 = false := by decide

end Basecrawl.PyJson
