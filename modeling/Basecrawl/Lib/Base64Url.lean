/-
  URL-safe base64.

  The encoder writes three bytes as four digits and leaves off the padding; the decoder wants the
  padding back and, like the strict engines, refuses a last group whose unused low bits are not
  zero.  Both are structural recursions on groups, so the round trip (`decode_pad_encode`) is one
  case per shape of the last group: the digits of a group are the base-64 digits of the number
  its bytes spell.
-/
import Basecrawl.Lib.Text

namespace Basecrawl.Base64Url

/-- The URL-safe alphabet, digit `n` at place `n`. -/
def alphabet : List Char :=
  "ABCDEFGHIJKLMNOPQRSTUVWXYZabcdefghijklmnopqrstuvwxyz0123456789-_".toList

/-- The digit for a value below 64. -/
def digit (n : Nat) : Char := alphabet.getD n 'A'

/-- The value of a digit. -/
def value (c : Char) : Option Nat := alphabet.idxOf? c

/-- The digits, one by one. -/
theorem alphabet_eq : alphabet =
    ['A', 'B', 'C', 'D', 'E', 'F', 'G', 'H', 'I', 'J', 'K', 'L', 'M', 'N', 'O', 'P',
     'Q', 'R', 'S', 'T', 'U', 'V', 'W', 'X', 'Y', 'Z', 'a', 'b', 'c', 'd', 'e', 'f',
     'g', 'h', 'i', 'j', 'k', 'l', 'm', 'n', 'o', 'p', 'q', 'r', 's', 't', 'u', 'v',
     'w', 'x', 'y', 'z', '0', '1', '2', '3', '4', '5', '6', '7', '8', '9', '-', '_'] :=
  String.toList_ofList

theorem value_digit {n : Nat} (h : n < 64) : value (digit n) = some n := by
  have hall : ∀ m : Fin 64, value (digit m) = some m.val := by
    unfold value digit
    rw [alphabet_eq]
    decide
  exact hall ⟨n, h⟩

theorem digit_mem {n : Nat} (h : n < 64) : digit n ∈ alphabet := by
  have hlen : n < alphabet.length := by
    rw [alphabet_eq]
    exact h
  rw [digit, List.getD_eq_getElem?_getD, List.getElem?_eq_getElem hlen]
  exact List.getElem_mem hlen

theorem digit_ne_pad {n : Nat} (h : n < 64) : digit n ≠ '=' := by
  have hpad : '=' ∉ alphabet := by
    rw [alphabet_eq]
    decide
  exact fun heq => hpad (heq ▸ digit_mem h)

/-- The byte a number below 256 spells. -/
def byte (n : Nat) : UInt8 := UInt8.ofNat n

theorem byte_eq {a : UInt8} {n : Nat} (h : n = a.toNat) : byte n = a := by
  rw [h]
  exact UInt8.ofNat_toNat

/-- The first byte of a group, from its first two digits. -/
def byte1 (w x : Nat) : UInt8 := byte (w * 4 + x / 16)

/-- The second byte of a group, from its second and third digit. -/
def byte2 (x y : Nat) : UInt8 := byte (x % 16 * 16 + y / 4)

/-- The third byte of a group, from its last two digits. -/
def byte3 (y z : Nat) : UInt8 := byte (y % 4 * 64 + z)

/-- Encode without padding. -/
def encode : Bytes → List Char
  | [] => []
  | [a] => [digit (a.toNat / 4), digit (a.toNat % 4 * 16)]
  | [a, b] =>
      [digit (a.toNat / 4), digit (a.toNat % 4 * 16 + b.toNat / 16), digit (b.toNat % 16 * 4)]
  | a :: b :: c :: rest =>
      digit (a.toNat / 4) :: digit (a.toNat % 4 * 16 + b.toNat / 16) ::
        digit (b.toNat % 16 * 4 + c.toNat / 64) :: digit (c.toNat % 64) :: encode rest

/-- Complete the last group with `=`. -/
def pad (cs : List Char) : List Char :=
  cs ++ List.replicate ((4 - cs.length % 4) % 4) '='

/-- Decode padded text, the unused low bits of the last group being zero. -/
def decode : List Char → Option Bytes
  | [] => some []
  | w :: x :: y :: z :: rest => do
      let w ← value w
      let x ← value x
      if rest = [] ∧ y = '=' ∧ z = '=' then
        if x % 16 = 0 then some [byte1 w x] else none
      else
        let y ← value y
        if rest = [] ∧ z = '=' then
          if y % 4 = 0 then
            some [byte1 w x, byte2 x y]
          else none
        else
          let z ← value z
          let bytes ← decode rest
          some (byte1 w x :: byte2 x y :: byte3 y z :: bytes)
  | _ => none

/-- The URL-safe digit for a digit of the standard alphabet. -/
def toUrlSafe (c : Char) : Char :=
  if c = '+' then '-' else if c = '/' then '_' else c

/-- Decode padded text in the standard alphabet, which has no `-` and no `_`. -/
def decodeStandard (cs : List Char) : Option Bytes :=
  if cs.any fun c => c == '-' || c == '_' then none else decode (cs.map toUrlSafe)

/-- The digit of the standard alphabet for a URL-safe digit. -/
def toStandard (c : Char) : Char :=
  if c = '-' then '+' else if c = '_' then '/' else c

/-- Encode with padding, in the standard alphabet. -/
def encodeStandard (bytes : Bytes) : String := String.ofList ((pad (encode bytes)).map toStandard)

theorem pad_group (w x y z : Char) (cs : List Char) :
    pad (w :: x :: y :: z :: cs) = w :: x :: y :: z :: pad cs := by
  have hlen : (w :: x :: y :: z :: cs).length % 4 = cs.length % 4 := by
    simp only [List.length_cons]
    omega
  rw [pad, hlen]
  rfl

/-- **Round trip**: padded again, an encoding decodes to the bytes it was made from. -/
theorem decode_pad_encode : ∀ bs : Bytes, decode (pad (encode bs)) = some bs
  | [] => rfl
  | [a] => by
      have ha := a.toNat_lt
      have h1 : a.toNat / 4 < 64 := by omega
      have h2 : a.toNat % 4 * 16 < 64 := by omega
      have hbyte : byte1 (a.toNat / 4) (a.toNat % 4 * 16) = a := byte_eq (by omega)
      have hlow : a.toNat % 4 * 16 % 16 = 0 := by omega
      show decode [digit (a.toNat / 4), digit (a.toNat % 4 * 16), '=', '='] = some [a]
      simp [decode, value_digit h1, value_digit h2, hbyte, hlow]
  | [a, b] => by
      have ha := a.toNat_lt
      have hb := b.toNat_lt
      have h1 : a.toNat / 4 < 64 := by omega
      have h2 : a.toNat % 4 * 16 + b.toNat / 16 < 64 := by omega
      have h3 : b.toNat % 16 * 4 < 64 := by omega
      have hbyte1 : byte1 (a.toNat / 4) (a.toNat % 4 * 16 + b.toNat / 16) = a :=
        byte_eq (by omega)
      have hbyte2 : byte2 (a.toNat % 4 * 16 + b.toNat / 16) (b.toNat % 16 * 4) = b :=
        byte_eq (by omega)
      have hlow : b.toNat % 16 * 4 % 4 = 0 := by omega
      show decode [digit (a.toNat / 4), digit (a.toNat % 4 * 16 + b.toNat / 16),
        digit (b.toNat % 16 * 4), '='] = some [a, b]
      simp [decode, value_digit h1, value_digit h2, value_digit h3, hbyte1, hbyte2,
        digit_ne_pad h3, hlow]
  | a :: b :: c :: rest => by
      have ha := a.toNat_lt
      have hb := b.toNat_lt
      have hc := c.toNat_lt
      have h1 : a.toNat / 4 < 64 := by omega
      have h2 : a.toNat % 4 * 16 + b.toNat / 16 < 64 := by omega
      have h3 : b.toNat % 16 * 4 + c.toNat / 64 < 64 := by omega
      have h4 : c.toNat % 64 < 64 := by omega
      have hbyte1 : byte1 (a.toNat / 4) (a.toNat % 4 * 16 + b.toNat / 16) = a :=
        byte_eq (by omega)
      have hbyte2 : byte2 (a.toNat % 4 * 16 + b.toNat / 16) (b.toNat % 16 * 4 + c.toNat / 64) = b :=
        byte_eq (by omega)
      have hbyte3 : byte3 (b.toNat % 16 * 4 + c.toNat / 64) (c.toNat % 64) = c :=
        byte_eq (by omega)
      rw [encode, pad_group, decode]
      simp [value_digit h1, value_digit h2, value_digit h3, value_digit h4, digit_ne_pad h3,
        digit_ne_pad h4, decode_pad_encode rest, hbyte1, hbyte2, hbyte3]

/-- Only alphabet digits are written. -/
theorem encode_subset : ∀ bs : Bytes, ∀ ch ∈ encode bs, ch ∈ alphabet
  | [] => by simp [encode]
  | [a] => by
      have ha := a.toNat_lt
      intro ch h
      simp only [encode, List.mem_cons, List.not_mem_nil, or_false] at h
      rcases h with rfl | rfl
      · exact digit_mem (by omega)
      · exact digit_mem (by omega)
  | [a, b] => by
      have ha := a.toNat_lt
      have hb := b.toNat_lt
      intro ch h
      simp only [encode, List.mem_cons, List.not_mem_nil, or_false] at h
      rcases h with rfl | rfl | rfl
      · exact digit_mem (by omega)
      · exact digit_mem (by omega)
      · exact digit_mem (by omega)
  | a :: b :: c :: rest => by
      have ha := a.toNat_lt
      have hb := b.toNat_lt
      have hc := c.toNat_lt
      intro ch h
      simp only [encode, List.mem_cons] at h
      rcases h with rfl | rfl | rfl | rfl | h
      · exact digit_mem (by omega)
      · exact digit_mem (by omega)
      · exact digit_mem (by omega)
      · exact digit_mem (by omega)
      · exact encode_subset rest ch h

/-- No encoding is one digit over a whole number of groups. -/
theorem length_encode_mod : ∀ bs : Bytes, (encode bs).length % 4 ≠ 1
  | [] => by simp [encode]
  | [a] => by simp [encode]
  | [a, b] => by simp [encode]
  | a :: b :: c :: rest => by
      have ih := length_encode_mod rest
      simp only [encode, List.length_cons]
      omega

theorem encode_ne_nil {bs : Bytes} (h : bs ≠ []) : encode bs ≠ [] := by
  match bs, h with
  | [a], _ => simp [encode]
  | [a, b], _ => simp [encode]
  | a :: b :: c :: rest, _ => simp [encode]

/-- **Round trip** in the standard alphabet. -/
theorem decodeStandard_encodeStandard (bytes : Bytes) :
    decodeStandard (encodeStandard bytes).toList = some bytes := by
  have halpha : ∀ c ∈ '=' :: alphabet, toStandard c ≠ '-' ∧ toStandard c ≠ '_' ∧
      toUrlSafe (toStandard c) = c := by
    have hall : (('=' :: alphabet).all fun c => decide (toStandard c ≠ '-' ∧ toStandard c ≠ '_' ∧
        toUrlSafe (toStandard c) = c)) = true := by
      rw [alphabet_eq]
      decide
    intro c hc
    exact of_decide_eq_true (List.all_eq_true.mp hall c hc)
  have hpad : ∀ c ∈ pad (encode bytes), c ∈ '=' :: alphabet := by
    intro c hc
    rcases List.mem_append.mp hc with hc | hc
    · exact List.mem_cons_of_mem _ (encode_subset bytes c hc)
    · rw [List.eq_of_mem_replicate hc]
      exact List.mem_cons_self
  have hplain : (((pad (encode bytes)).map toStandard).any fun c => c == '-' || c == '_') = false := by
    rw [List.any_eq_false]
    intro c hc
    obtain ⟨d, hd, rfl⟩ := List.mem_map.mp hc
    simp [(halpha d (hpad d hd)).1, (halpha d (hpad d hd)).2.1]
  have hback : ((pad (encode bytes)).map toStandard).map toUrlSafe = pad (encode bytes) := by
    rw [List.map_map]
    have hid : (pad (encode bytes)).map (toUrlSafe ∘ toStandard) = (pad (encode bytes)).map id :=
      List.map_congr_left fun c hc => (halpha c (hpad c hc)).2.2
    rw [hid, List.map_id]
  rw [decodeStandard, encodeStandard, String.toList_ofList, hplain, hback]
  exact decode_pad_encode bytes

theorem encodeStandard_injective : Function.Injective encodeStandard := by
  intro a b h
  have ha := decodeStandard_encodeStandard a
  rw [h, decodeStandard_encodeStandard] at ha
  exact (Option.some.inj ha).symm

example : (encode [0xfb, 0xff, 0x01, 0x02]) = "-_8BAg".toList := by decide

end Basecrawl.Base64Url
