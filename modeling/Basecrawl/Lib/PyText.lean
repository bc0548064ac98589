/-
  Python's `str`, as far as hex fields need it.

  `bytes.fromhex` reads pairs of digits of either case and passes over ASCII white space between
  them; on text without any it is plain pairs of digits (`fromHex_of_hexBytes`).

  `str.lower` follows the Unicode case mapping.  What is used of it is `LowersAscii`: it is the
  ASCII mapping on ASCII text, and no character beyond ASCII has a lower case made of hex digits.
  Then a text whose lower case is hex was hex to begin with (`lower_hex`), in either case.
-/
import Basecrawl.Lib.Hex

namespace Basecrawl.PyText

open Text Hex

/-- `str.isspace` of a character: white space, and the separators U+001C to U+001F. -/
def isSpace (c : Char) : Bool := isWhitespace c || (0x1c ≤ c.toNat && c.toNat ≤ 0x1f)

/-- `str.strip()`. -/
def strip (s : String) : String :=
  String.ofList (((s.toList.dropWhile isSpace).reverse.dropWhile isSpace).reverse)

/-- `all(char in "0123456789abcdef" for char in value)`. -/
def isHexText (value : String) : Bool :=
  value.toList.all fun c => decide (c ∈ "0123456789abcdef".toList)

/-- `str.lower` on ASCII text, and on text whose lower case is hex. -/
structure LowersAscii (lower : String → String) : Prop where
  ascii : ∀ s, (∀ c ∈ s.toList, c.toNat < 128) → lower s = asciiLower s
  hex : ∀ s, isHexText (lower s) = true → ∀ c ∈ s.toList, c.toNat < 128

theorem isHexText_iff {value : String} :
    isHexText value = true ↔ ∀ c ∈ value.toList, c ∈ "0123456789abcdef".toList := by
  simp [isHexText]

theorem isHexText_hexEncode (bytes : Bytes) : isHexText (hexEncode bytes) = true := by
  rw [isHexText_iff, hexEncode, String.toList_ofList]
  intro c hc
  obtain ⟨b, -, hb⟩ := List.mem_flatMap.mp hc
  exact mem_hexPair hb

/-- Hex digits have nothing to strip. -/
theorem strip_hex {s : String} (h : ∀ c ∈ s.toList, c ∈ hexChars) : strip s = s := by
  have hall : hexChars.all (fun c => !isSpace c) = true := by decide
  rw [strip, dropWhile_ends_eq_self (fun c hc => ?_), String.ofList_toList]
  simpa using List.all_eq_true.mp hall c (h c hc)

theorem asciiLower_hex_iff {s : String} :
    isHexText (asciiLower s) = true ↔ ∀ c ∈ s.toList, c ∈ hexChars := by
  rw [isHexText_iff, asciiLower, String.toList_ofList, List.forall_mem_map]
  constructor
  · intro h c hc
    exact mem_hexChars_of_toLower (h c hc)
  · intro h c hc
    exact (hexChars_spec (h c hc)).2.2.2

/-- Lower-casing hex digits. -/
theorem lower_hex {lower : String → String} (hlower : LowersAscii lower) {s : String} :
    isHexText (lower s) = true ↔ ∀ c ∈ s.toList, c ∈ hexChars := by
  constructor
  · intro h
    have hascii := hlower.hex s h
    rw [hlower.ascii s hascii] at h
    exact asciiLower_hex_iff.mp h
  · intro h
    rw [hlower.ascii s fun c hc => (hexChars_spec (h c hc)).1]
    exact asciiLower_hex_iff.mpr h

theorem lower_eq {lower : String → String} (hlower : LowersAscii lower) {s : String}
    (h : ∀ c ∈ s.toList, c ∈ hexChars) : lower s = asciiLower s :=
  hlower.ascii s fun c hc => (hexChars_spec (h c hc)).1

theorem mem_hexChars_of_isHexText {s : String} (h : isHexText s = true) :
    ∀ c ∈ s.toList, c ∈ hexChars := by
  have hsub : "0123456789abcdef".toList.all (fun c => decide (c ∈ hexChars)) = true := by decide
  intro c hc
  exact of_decide_eq_true (List.all_eq_true.mp hsub c (isHexText_iff.mp h c hc))

/-- Lower-case hex is its own normal form. -/
theorem normalized_of_isHexText {lower : String → String} (hlower : LowersAscii lower) {s : String}
    (h : isHexText s = true) : lower (strip s) = s := by
  have hhex := mem_hexChars_of_isHexText h
  have hself := (lowerHex_spec s.toList (isHexText_iff.mp h)).2.2
  rw [String.ofList_toList] at hself
  rw [strip_hex hhex, lower_eq hlower hhex, hself]

/-! ## `bytes.fromhex` -/

/-- `Py_ISSPACE`. -/
def isAsciiSpace (c : UInt8) : Bool := c == 0x20 || (0x09 ≤ c && c ≤ 0x0d)

/-- `bytes.fromhex`, on the text as it is encoded. -/
def fromHexBytes : Bytes → Option Bytes
  | [] => some []
  | [c] => if isAsciiSpace c then some [] else none
  | hi :: lo :: rest =>
      if isAsciiSpace hi then fromHexBytes (lo :: rest)
      else do
        let h ← hexValue hi
        let l ← hexValue lo
        let bytes ← fromHexBytes rest
        some (UInt8.ofNat (h * 16 + l) :: bytes)

def fromHex (text : String) : Option Bytes := fromHexBytes (utf8 text)

theorem not_isAsciiSpace_of_hexValue {c : UInt8} {v : Nat} (h : hexValue c = some v) :
    isAsciiSpace c = false := by
  have hall : ∀ n : Fin 256, (hexValue (UInt8.ofNat n.val)).isSome = true →
      isAsciiSpace (UInt8.ofNat n.val) = false := by decide +kernel
  have hc := hall ⟨c.toNat, c.toNat_lt⟩
  simp only [UInt8.ofNat_toNat] at hc
  exact hc (h ▸ rfl)

theorem fromHexBytes_of_hexBytes : ∀ {text bytes : Bytes}, hexBytes text = some bytes →
    fromHexBytes text = some bytes
  | [], _, h => h
  | [_], _, h => by simp [hexBytes] at h
  | hi :: lo :: rest, bytes, h => by
    simp only [hexBytes, Option.bind_eq_bind, Option.bind_eq_some_iff] at h
    obtain ⟨v, hhi, w, hlo, tail, htail, hbytes⟩ := h
    have hspace := not_isAsciiSpace_of_hexValue hhi
    have ih := fromHexBytes_of_hexBytes htail
    simp only [fromHexBytes, hspace, hhi, hlo, ih, Bool.false_eq_true, if_false,
      Option.bind_eq_bind, Option.bind_some]
    exact hbytes

/-- `bytes.fromhex(payload.hex())`. -/
@[simp] theorem fromHex_hexEncode (bytes : Bytes) : fromHex (hexEncode bytes) = some bytes :=
  fromHexBytes_of_hexBytes (hexBytes_hexEncode bytes)

example : fromHex " 0a\tFF " = some [10, 255] := by decide

/-- Lower-casing ASCII letters only is such a function. -/
theorem asciiLower_lowersAscii : LowersAscii asciiLower where
  ascii _ _ := rfl
  hex _ h c hc := (hexChars_spec (asciiLower_hex_iff.mp h c hc)).1

end Basecrawl.PyText
