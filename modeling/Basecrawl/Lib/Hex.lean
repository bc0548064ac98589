/-
  Lowercase hex.

  Digests, keys and key ids are hex texts.  What is used of them is that they are read back
  (`hexBytes_hexEncode`), have two one-byte characters for a byte (`lowerHex_spec`), and contain no
  zero byte (`zero_not_mem_of_all_lowerHex`).
-/
import Basecrawl.Lib.Text

namespace Basecrawl.Hex

open Text

/-- The lowercase hex digit of a value below 16. -/
def hexDigit (n : Nat) : Char := "0123456789abcdef".toList.getD n '0'

/-- The two digits of a byte. -/
def hexPair (b : UInt8) : List Char := [hexDigit (b.toNat / 16), hexDigit (b.toNat % 16)]

/-- Lowercase hex: `hex_encode`, `encode_hex`, `hex`. -/
def hexEncode (bytes : Bytes) : String := String.ofList (bytes.flatMap hexPair)

/-- `matches!(c, b'0'..=b'9' | b'a'..=b'f')`. -/
def isLowerHex (c : UInt8) : Bool := (0x30 ≤ c && c ≤ 0x39) || (0x61 ≤ c && c ≤ 0x66)

/-- The value of an ASCII hex digit. -/
def hexValue (c : UInt8) : Option Nat :=
  if 0x30 ≤ c ∧ c ≤ 0x39 then some (c.toNat - 0x30)
  else if 0x61 ≤ c ∧ c ≤ 0x66 then some (c.toNat - 0x61 + 10)
  else if 0x41 ≤ c ∧ c ≤ 0x46 then some (c.toNat - 0x41 + 10)
  else none

/-- `u8::from_str_radix(_, 16)` on each pair of digits. -/
def hexBytes : Bytes → Option Bytes
  | [] => some []
  | hi :: lo :: rest => do
      let h ← hexValue hi
      let l ← hexValue lo
      let bytes ← hexBytes rest
      some (UInt8.ofNat (h * 16 + l) :: bytes)
  | [_] => none

/-! ## What is written -/

/-- The digits, one by one. -/
theorem lowerDigits_eq : "0123456789abcdef".toList =
    ['0', '1', '2', '3', '4', '5', '6', '7', '8', '9', 'a', 'b', 'c', 'd', 'e', 'f'] :=
  String.toList_ofList

theorem hexDigit_lower {n : Nat} (h : n < 16) :
    hexDigit n ∈ "0123456789abcdef".toList := by
  have hall : ∀ m : Fin 16, hexDigit m ∈ "0123456789abcdef".toList := by
    unfold hexDigit
    rw [lowerDigits_eq]
    decide
  exact hall ⟨n, h⟩

theorem mem_hexPair {b : UInt8} {c : Char} (h : c ∈ hexPair b) :
    c ∈ "0123456789abcdef".toList := by
  have hb := b.toNat_lt
  simp only [hexPair, List.mem_cons, List.not_mem_nil, or_false] at h
  rcases h with rfl | rfl
  · exact hexDigit_lower (by omega)
  · exact hexDigit_lower (by omega)

/-- A lowercase hex digit is one byte, in the accepted range, and is its own lowercase. -/
theorem lowerHexDigit_spec {c : Char} (h : c ∈ "0123456789abcdef".toList) :
    (∃ b, String.utf8EncodeChar c = [b] ∧ isLowerHex b = true) ∧ c.toLower = c := by
  have hall : "0123456789abcdef".toList.all (fun c =>
      (String.utf8EncodeChar c).length == 1 && (String.utf8EncodeChar c).all isLowerHex &&
        c.toLower == c) = true := by
    rw [lowerDigits_eq]
    decide
  have hc := List.all_eq_true.mp hall c h
  rw [Bool.and_eq_true, Bool.and_eq_true, beq_iff_eq, beq_iff_eq] at hc
  obtain ⟨⟨hlen, hall'⟩, hlow⟩ := hc
  obtain ⟨b, hb⟩ := List.length_eq_one_iff.mp hlen
  rw [hb, List.all_cons, List.all_nil, Bool.and_true] at hall'
  exact ⟨⟨b, hb, hall'⟩, hlow⟩

/-- A text of lowercase hex digits has one byte a character, all accepted, and is lowercase. -/
theorem lowerHex_spec : ∀ cs : List Char, (∀ c ∈ cs, c ∈ "0123456789abcdef".toList) →
    (utf8 (String.ofList cs)).length = cs.length ∧
    (utf8 (String.ofList cs)).all isLowerHex = true ∧
    asciiLower (String.ofList cs) = String.ofList cs := by
  intro cs
  simp only [utf8_eq_flatMap, asciiLower, String.toList_ofList]
  intro h
  induction cs with
  | nil => simp
  | cons c cs ih =>
    obtain ⟨hlen, hall, hlow⟩ := ih fun d hd => h d (List.mem_cons_of_mem _ hd)
    obtain ⟨⟨b, hb, hbhex⟩, hclow⟩ := lowerHexDigit_spec (h c List.mem_cons_self)
    refine ⟨?_, ?_, ?_⟩
    · simp [hb, hlen]
    · simpa [hb, hbhex] using hall
    · have hmap : cs.map Char.toLower = cs := by
        simpa using congrArg String.toList hlow
      rw [List.map_cons, hclow, hmap]

theorem length_flatMap_hexPair (bytes : Bytes) :
    (bytes.flatMap hexPair).length = 2 * bytes.length := by
  induction bytes with
  | nil => rfl
  | cons b bs ih => simp [hexPair, ih]; omega

/-- The zero byte is not a hex digit. -/
theorem zero_not_mem_of_all_lowerHex {s : String} (h : (utf8 s).all isLowerHex = true) :
    0 ∉ utf8 s := by
  intro h0
  have hz := List.all_eq_true.mp h 0 h0
  exact absurd hz (by decide)

/-- What is written: two characters of one byte for each byte, all lowercase hex. -/
theorem hexEncode_spec (bytes : Bytes) :
    (utf8 (hexEncode bytes)).length = 2 * bytes.length ∧
    (utf8 (hexEncode bytes)).all isLowerHex = true ∧
    asciiLower (hexEncode bytes) = hexEncode bytes := by
  have hmem : ∀ c ∈ bytes.flatMap hexPair, c ∈ "0123456789abcdef".toList := by
    intro c hc
    obtain ⟨b, -, hb⟩ := List.mem_flatMap.mp hc
    exact mem_hexPair hb
  obtain ⟨hlen, hall, hlow⟩ := lowerHex_spec _ hmem
  exact ⟨hlen.trans (length_flatMap_hexPair bytes), hall, hlow⟩

/-! ## What is read -/

theorem hexValue_isSome {c : UInt8} (h : isLowerHex c = true) : (hexValue c).isSome = true := by
  unfold hexValue
  simp only [isLowerHex, Bool.or_eq_true, Bool.and_eq_true, decide_eq_true_eq] at h
  rcases h with h | h
  · rw [if_pos h]
    rfl
  · split
    · rfl
    · rfl

/-- A digit reads back as its value, and is no capital. -/
theorem hexValue_hexDigit {n : Nat} (h : n < 16) :
    ∃ b, String.utf8EncodeChar (hexDigit n) = [b] ∧ hexValue b = some n := by
  have hall : ∀ m : Fin 16, (String.utf8EncodeChar (hexDigit m)).length = 1 ∧
      ∀ b ∈ String.utf8EncodeChar (hexDigit m), hexValue b = some m.val := by
    unfold hexDigit
    rw [lowerDigits_eq]
    decide +kernel
  obtain ⟨hlen, hval⟩ := hall ⟨n, h⟩
  obtain ⟨b, hb⟩ := List.length_eq_one_iff.mp hlen
  exact ⟨b, hb, hval b (hb ▸ List.mem_singleton_self b)⟩

/-- Pairs of digits read back as the bytes they were written for. -/
theorem hexBytes_hexEncode (bytes : Bytes) : hexBytes (utf8 (hexEncode bytes)) = some bytes := by
  rw [hexEncode, utf8_eq_flatMap, String.toList_ofList]
  induction bytes with
  | nil => rfl
  | cons a bytes ih =>
    have ha := a.toNat_lt
    obtain ⟨hi, hhi, hvhi⟩ := hexValue_hexDigit (n := a.toNat / 16) (by omega)
    obtain ⟨lo, hlo, hvlo⟩ := hexValue_hexDigit (n := a.toNat % 16) (by omega)
    have hsum : UInt8.ofNat (a.toNat / 16 * 16 + a.toNat % 16) = a := by
      rw [Nat.div_add_mod']
      exact UInt8.ofNat_toNat
    rw [List.flatMap_cons, hexPair, List.flatMap_append, List.flatMap_cons, List.flatMap_singleton,
      hhi, hlo]
    simp only [List.cons_append, List.nil_append, hexBytes, hvhi, hvlo, ih, Option.bind_eq_bind,
      Option.bind_some, hsum]

/-- Different bytes have different hex. -/
theorem hexEncode_injective : Function.Injective hexEncode := by
  intro a b h
  apply Option.some.inj
  rw [← hexBytes_hexEncode a, ← hexBytes_hexEncode b, h]

/-- What is read has half the length. -/
theorem length_of_hexBytes : ∀ {text bytes : Bytes}, hexBytes text = some bytes →
    text.length = 2 * bytes.length
  | [], bytes, h => by
    rw [hexBytes, Option.some.injEq] at h
    rw [← h]
    rfl
  | [_], bytes, h => by simp [hexBytes] at h
  | hi :: lo :: rest, bytes, h => by
    simp only [hexBytes, Option.bind_eq_bind, Option.bind_eq_some_iff, Option.some.injEq] at h
    obtain ⟨_, -, _, -, tail, htail, rfl⟩ := h
    have ih := length_of_hexBytes htail
    simp only [List.length_cons]
    omega

/-! ## Digits of either case -/

/-- `"0123456789abcdefABCDEF"`. -/
def hexChars : List Char := "0123456789abcdefABCDEF".toList

theorem hexChars_eq : hexChars =
    ['0', '1', '2', '3', '4', '5', '6', '7', '8', '9', 'a', 'b', 'c', 'd', 'e', 'f',
     'A', 'B', 'C', 'D', 'E', 'F'] :=
  String.toList_ofList

/-- `u8::is_ascii_hexdigit`. -/
def isAsciiHexdigit (c : UInt8) : Bool :=
  (0x30 ≤ c && c ≤ 0x39) || (0x61 ≤ c && c ≤ 0x66) || (0x41 ≤ c && c ≤ 0x46)

theorem isAsciiHexdigit_eq (c : UInt8) : isAsciiHexdigit c = (hexValue c).isSome := by
  have hall : ∀ n : Fin 256,
      isAsciiHexdigit (UInt8.ofNat n) = (hexValue (UInt8.ofNat n)).isSome := by decide +kernel
  have hc := hall ⟨c.toNat, c.toNat_lt⟩
  simpa using hc

/-- A digit's byte, its character and its value. -/
theorem hexValue_spec {c : UInt8} {v : Nat} (h : hexValue c = some v) :
    c.toNat < 128 ∧ v < 16 ∧ Char.ofNat c.toNat ∈ hexChars ∧
      hexDigit v = (Char.ofNat c.toNat).toLower := by
  have hall : ∀ n : Fin 256, ∀ m ∈ hexValue (UInt8.ofNat n), n.val < 128 ∧ m < 16 ∧
      Char.ofNat n ∈ hexChars ∧ hexDigit m = (Char.ofNat n).toLower := by
    unfold hexDigit
    rw [hexChars_eq, lowerDigits_eq]
    decide +kernel
  have hc := hall ⟨c.toNat, c.toNat_lt⟩ v
  simp only [UInt8.ofNat_toNat] at hc
  exact hc h

/-- A hex digit is an ASCII character, not white space, whose byte has a value. -/
theorem hexChars_spec {c : Char} (h : c ∈ hexChars) :
    c.toNat < 128 ∧ isWhitespace c = false ∧ (hexValue (UInt8.ofNat c.toNat)).isSome = true ∧
      c.toLower ∈ "0123456789abcdef".toList := by
  have hall : hexChars.all (fun c => decide (c.toNat < 128) && !isWhitespace c &&
      (hexValue (UInt8.ofNat c.toNat)).isSome &&
      decide (c.toLower ∈ "0123456789abcdef".toList)) = true := by
    rw [hexChars_eq, lowerDigits_eq]
    decide
  have hc := List.all_eq_true.mp hall c h
  simpa [Bool.and_eq_true, and_assoc] using hc

/-- A character that is a digit once lower-cased was one. -/
theorem mem_hexChars_of_toLower {c : Char} (h : c.toLower ∈ "0123456789abcdef".toList) :
    c ∈ hexChars := by
  by_cases hascii : c.toNat < 128
  · have hall : ∀ n : Fin 128, (Char.ofNat n).toLower ∈ "0123456789abcdef".toList →
        Char.ofNat n ∈ hexChars := by
      rw [hexChars_eq, lowerDigits_eq]
      decide
    have hc := hall ⟨c.toNat, hascii⟩
    rw [Char.ofNat_toNat] at hc
    exact hc h
  · rw [toLower_of_not_ascii hascii] at h
    have hlow : "0123456789abcdef".toList.all (fun c => decide (c.toNat < 128)) = true := by
      rw [lowerDigits_eq]
      decide
    exact absurd (of_decide_eq_true (List.all_eq_true.mp hlow c h)) hascii

/-- Digits read as pairs are the lower-cased digits. -/
theorem flatMap_hexPair_of_hexBytes : ∀ {text bytes : Bytes}, hexBytes text = some bytes →
    bytes.flatMap hexPair = text.map fun c => (Char.ofNat c.toNat).toLower
  | [], bytes, h => by
    rw [hexBytes, Option.some.injEq] at h
    rw [← h]
    rfl
  | [_], bytes, h => by simp [hexBytes] at h
  | hi :: lo :: rest, bytes, h => by
    simp only [hexBytes, Option.bind_eq_bind, Option.bind_eq_some_iff, Option.some.injEq] at h
    obtain ⟨x, hx, y, hy, tail, htail, rfl⟩ := h
    have ih := flatMap_hexPair_of_hexBytes htail
    obtain ⟨-, hx16, -, hxlow⟩ := hexValue_spec hx
    obtain ⟨-, hy16, -, hylow⟩ := hexValue_spec hy
    have hbyte : (UInt8.ofNat (x * 16 + y)).toNat = x * 16 + y := by
      rw [UInt8.toNat_ofNat']
      omega
    have hdiv : (x * 16 + y) / 16 = x := by omega
    have hmod : (x * 16 + y) % 16 = y := by omega
    rw [List.flatMap_cons, hexPair, hbyte, hdiv, hmod, ih, hxlow, hylow]
    rfl

/-- Every byte that is read is a digit. -/
theorem isSome_of_hexBytes : ∀ {text bytes : Bytes}, hexBytes text = some bytes →
    ∀ c ∈ text, (hexValue c).isSome = true
  | [], _, _ => by simp
  | [_], _, h => by simp [hexBytes] at h
  | hi :: lo :: rest, bytes, h => by
    simp only [hexBytes, Option.bind_eq_bind, Option.bind_eq_some_iff, Option.some.injEq] at h
    obtain ⟨x, hx, y, hy, tail, htail, -⟩ := h
    have ih := isSome_of_hexBytes htail
    simp only [List.forall_mem_cons]
    exact ⟨by rw [hx]; rfl, by rw [hy]; rfl, ih⟩

/-- An even number of digits is read. -/
theorem hexBytes_isSome : ∀ {text : Bytes}, text.length % 2 = 0 →
    (∀ c ∈ text, (hexValue c).isSome = true) → ∃ bytes, hexBytes text = some bytes
  | [], _, _ => ⟨[], rfl⟩
  | [_], h, _ => by simp at h
  | hi :: lo :: rest, h, hall => by
    rw [List.forall_mem_cons, List.forall_mem_cons] at hall
    obtain ⟨x, hx⟩ := Option.isSome_iff_exists.mp hall.1
    obtain ⟨y, hy⟩ := Option.isSome_iff_exists.mp hall.2.1
    have heven : rest.length % 2 = 0 := by
      simp only [List.length_cons] at h
      omega
    obtain ⟨tail, htail⟩ := hexBytes_isSome heven hall.2.2
    exact ⟨_, by rw [hexBytes, hx, hy, htail]; rfl⟩

/-- What is read from a text: its digits in lower case, two a byte. -/
theorem hexBytes_utf8 {s : String} {bytes : Bytes} (h : hexBytes (utf8 s) = some bytes) :
    (∀ c ∈ s.toList, c ∈ hexChars) ∧ asciiLower s = hexEncode bytes := by
  have hdigits := isSome_of_hexBytes h
  have hascii : ∀ c ∈ s.toList, c.toNat < 128 := by
    refine toNat_lt_of_utf8 fun b hb => ?_
    obtain ⟨v, hv⟩ := Option.isSome_iff_exists.mp (hdigits b hb)
    exact (hexValue_spec hv).1
  have hchar : ∀ c ∈ s.toList, Char.ofNat (UInt8.ofNat c.toNat).toNat = c := by
    intro c hc
    have hlow := hascii c hc
    rw [UInt8.toNat_ofNat', Nat.mod_eq_of_lt (by omega)]
    exact Char.ofNat_toNat c
  constructor
  · intro c hc
    have hmem : UInt8.ofNat c.toNat ∈ utf8 s := by
      rw [utf8_ascii hascii]
      exact List.mem_map_of_mem hc
    obtain ⟨v, hv⟩ := Option.isSome_iff_exists.mp (hdigits _ hmem)
    rw [← hchar c hc]
    exact (hexValue_spec hv).2.2.1
  · rw [asciiLower, hexEncode, flatMap_hexPair_of_hexBytes h, utf8_ascii hascii, List.map_map]
    congr 1
    refine List.map_congr_left fun c hc => ?_
    rw [Function.comp_apply, hchar c hc]

/-- Two characters a byte. -/
theorem length_of_hexBytes_utf8 {s : String} {bytes : Bytes} (h : hexBytes (utf8 s) = some bytes) :
    s.toList.length = 2 * bytes.length := by
  have hascii : ∀ c ∈ s.toList, c.toNat < 128 := fun c hc =>
    (hexChars_spec ((hexBytes_utf8 h).1 c hc)).1
  have hlen := length_of_hexBytes h
  rwa [utf8_ascii hascii, List.length_map] at hlen

/-- An even number of hex characters is read. -/
theorem hexBytes_of_hexChars {s : String} (h : ∀ c ∈ s.toList, c ∈ hexChars)
    (heven : s.toList.length % 2 = 0) : ∃ bytes, hexBytes (utf8 s) = some bytes := by
  have hascii : ∀ c ∈ s.toList, c.toNat < 128 := fun c hc => (hexChars_spec (h c hc)).1
  rw [utf8_ascii hascii]
  refine hexBytes_isSome (by rwa [List.length_map]) fun b hb => ?_
  obtain ⟨c, hc, rfl⟩ := List.mem_map.mp hb
  exact (hexChars_spec (h c hc)).2.2.1

/-- Digits of either case are read alike. -/
theorem hexBytes_asciiLower {s : String} (h : ∀ c ∈ s.toList, c ∈ hexChars) :
    hexBytes (utf8 (asciiLower s)) = hexBytes (utf8 s) := by
  cases hs : hexBytes (utf8 s) with
  | some bytes => rw [(hexBytes_utf8 hs).2, hexBytes_hexEncode]
  | none =>
    -- the number of digits is odd, and lower-casing does not change it
    cases hlow : hexBytes (utf8 (asciiLower s)) with
    | none => rfl
    | some bytes =>
      have hlen := length_of_hexBytes_utf8 hlow
      rw [asciiLower, String.toList_ofList, List.length_map] at hlen
      obtain ⟨bytes', hbytes'⟩ := hexBytes_of_hexChars h (by omega)
      rw [hbytes'] at hs
      exact absurd hs (by simp)

end Basecrawl.Hex
