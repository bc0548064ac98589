/-
  Python's `str` as a sequence of code points.

  A `str` may hold a lone surrogate, which no encoded text does: `"\ud800"` is a JSON string that
  Python reads and `str.encode` refuses.  The others are the texts (`ofText`), on which everything
  here is what it is on a `String`.

  `json.dumps` writes ASCII: a code point it does not write as itself is escaped as its UTF-16
  units.  Two texts it writes alike are equal (`dumpsStr_prefixCode`); that fails for surrogates,
  whose pairs are written like the character they encode.
-/
import Mathlib.Data.List.DropRight
import Basecrawl.Lib.PrefixCode
import Basecrawl.Lib.PyText

namespace Basecrawl.PyStr

open Text Hex PyText PrefixCode

/-! ## Code points -/

/-- A code point: a Unicode scalar value, or `U+D800 + n`. -/
inductive CodePoint where
  | scalar (c : Char)
  | surrogate (n : Fin 2048)
deriving DecidableEq

abbrev Str := List CodePoint

def ofText (s : String) : Str := s.toList.map .scalar

def CodePoint.isScalar : CodePoint → Bool
  | .scalar _ => true
  | .surrogate _ => false

/-- The text, if there is no lone surrogate. -/
def toText : Str → Option String
  | [] => some ""
  | .scalar c :: s => (toText s).map fun t => String.ofList (c :: t.toList)
  | .surrogate _ :: _ => none

/-- `str.encode("utf-8")`; `none` for a `UnicodeEncodeError`. -/
def encode (s : Str) : Option Bytes := (toText s).map utf8

theorem toText_ofText (s : String) : toText (ofText s) = some s := by
  have h : ∀ cs : List Char, toText (cs.map .scalar) = some (String.ofList cs) := by
    intro cs
    induction cs with
    | nil => rfl
    | cons c cs ih =>
      rw [List.map_cons, toText, ih, Option.map_some, String.toList_ofList]
  rw [ofText, h, String.ofList_toList]

theorem toText_eq_some {s : Str} {text : String} : toText s = some text ↔ s = ofText text := by
  constructor
  · intro h
    induction s generalizing text with
    | nil =>
      cases h
      rfl
    | cons p s ih =>
      cases p with
      | surrogate n => cases h
      | scalar c =>
        obtain ⟨t, ht, rfl⟩ := Option.map_eq_some_iff.mp h
        rw [ih ht, ofText, ofText, String.toList_ofList, List.map_cons]
  · rintro rfl
    exact toText_ofText text

theorem ofText_injective : Function.Injective ofText := by
  intro s t h
  exact Option.some.inj ((toText_ofText s).symm.trans (h ▸ toText_ofText t))

@[simp] theorem encode_ofText (s : String) : encode (ofText s) = some (utf8 s) := by
  rw [encode, toText_ofText, Option.map_some]

/-- A text is what has no lone surrogate. -/
theorem toText_isSome {s : Str} : (toText s).isSome = true ↔ ∀ p ∈ s, p.isScalar = true := by
  induction s with
  | nil => simp [toText]
  | cons p s ih =>
    cases p with
    | surrogate n => simp [toText, CodePoint.isScalar]
    | scalar c => simp [toText, CodePoint.isScalar, ih]

theorem encode_isSome {s : Str} : (encode s).isSome = true ↔ ∀ p ∈ s, p.isScalar = true := by
  rw [encode, Option.isSome_map, toText_isSome]

theorem isScalar_of_mem_ofText {s : String} {p : CodePoint} (h : p ∈ ofText s) :
    p.isScalar = true := by
  obtain ⟨c, -, rfl⟩ := List.mem_map.mp h
  rfl

theorem toText_append (s t : Str) :
    toText (s ++ t) = (toText s).bind fun a => (toText t).map fun b => a ++ b := by
  induction s with
  | nil => simp [toText]
  | cons p s ih =>
    cases p with
    | surrogate n => rfl
    | scalar c =>
      rw [List.cons_append, toText, ih, toText]
      cases toText s with
      | none => rfl
      | some a =>
        cases toText t with
        | none => rfl
        | some b =>
          refine congrArg some (String.toList_inj.mp ?_)
          simp only [String.toList_append, String.toList_ofList, List.cons_append]

theorem encode_append (s t : Str) :
    encode (s ++ t) = (encode s).bind fun a => (encode t).map fun b => a ++ b := by
  rw [encode, toText_append, encode, encode]
  cases toText s with
  | none => rfl
  | some a =>
    cases toText t with
    | none => rfl
    | some b => exact congrArg some (utf8_append a b)

/-! ## Trimming -/

/-- `str.isspace` of a code point. -/
def isSpace : CodePoint → Bool
  | .scalar c => PyText.isSpace c
  | .surrogate _ => false

/-- `str.strip()`. -/
def strip (s : Str) : Str := ((s.dropWhile isSpace).reverse.dropWhile isSpace).reverse

/-- `str.removeprefix`. -/
def removePrefix (pre s : Str) : Str := if pre <+: s then s.drop pre.length else s

theorem strip_eq (s : Str) : strip s = (s.dropWhile isSpace).rdropWhile isSpace := rfl

/-- Stripping from the end leaves the front. -/
theorem dropWhile_rdropWhile (s : Str) :
    ((s.dropWhile isSpace).rdropWhile isSpace).dropWhile isSpace =
      (s.dropWhile isSpace).rdropWhile isSpace := by
  have hkept := List.rdropWhile_prefix isSpace (s.dropWhile isSpace)
  rw [List.dropWhile_eq_self_iff]
  intro hpos
  rw [hkept.getElem hpos]
  have hidem := List.dropWhile_idempotent isSpace s
  rw [List.dropWhile_eq_self_iff] at hidem
  exact hidem (Nat.lt_of_lt_of_le hpos hkept.length_le)

theorem strip_strip (s : Str) : strip (strip s) = strip s := by
  rw [strip_eq (strip s), strip_eq s, dropWhile_rdropWhile, List.rdropWhile_idempotent]

/-- A text that is stripped as a text. -/
theorem strip_ofText (s : String) : strip (ofText s) = ofText (PyText.strip s) := by
  have hspace : isSpace ∘ CodePoint.scalar = PyText.isSpace := rfl
  simp only [strip, ofText, PyText.strip, String.toList_ofList, List.dropWhile_map, hspace,
    ← List.map_reverse]

/-! ## `json.dumps` -/

/-- `'{0:04x}'.format(n)`, below `0x10000`. -/
def hex4 (n : Nat) : List Char :=
  [hexDigit (n / 4096 % 16), hexDigit (n / 256 % 16), hexDigit (n / 16 % 16), hexDigit (n % 16)]

/-- A UTF-16 unit, escaped. -/
def escapeUnit (n : Nat) : List Char := '\\' :: 'u' :: hex4 n

/-- The letter of a short escape. -/
def shortEscape : Char → Option Char
  | '"' => some '"'
  | '\\' => some '\\'
  | '\n' => some 'n'
  | '\r' => some 'r'
  | '\t' => some 't'
  | '\x0c' => some 'f'
  | '\x08' => some 'b'
  | _ => none

/-- The UTF-16 units of a character. -/
def utf16 (c : Char) : List Nat :=
  if c.toNat < 0x10000 then [c.toNat]
  else [0xd800 + (c.toNat - 0x10000) / 0x400, 0xdc00 + (c.toNat - 0x10000) % 0x400]

/-- A character as `ensure_ascii` writes it. -/
def escapeChar (c : Char) : List Char :=
  match shortEscape c with
  | some letter => ['\\', letter]
  | none =>
      if 0x20 ≤ c.toNat ∧ c.toNat < 0x7f then [c] else (utf16 c).flatMap escapeUnit

def escapePoint : CodePoint → List Char
  | .scalar c => escapeChar c
  | .surrogate n => escapeUnit (0xd800 + n.val)

/-- `json.dumps` of a string. -/
def dumpsStr (s : Str) : List Char := '"' :: (s.flatMap escapePoint ++ ['"'])

theorem hexDigit_inj {m n : Nat} (hm : m < 16) (hn : n < 16) (h : hexDigit m = hexDigit n) :
    m = n := by
  have hall : ∀ m n : Fin 16, hexDigit m = hexDigit n → m = n := by decide
  exact congrArg Fin.val (hall ⟨m, hm⟩ ⟨n, hn⟩ h)

/-- An escaped unit is read off the front. -/
theorem escapeUnit_cut {m n : Nat} (hm : m < 0x10000) (hn : n < 0x10000) {x y : List Char}
    (h : escapeUnit m ++ x = escapeUnit n ++ y) : m = n ∧ x = y := by
  simp only [escapeUnit, hex4, List.cons_append, List.nil_append, List.cons.injEq, true_and] at h
  obtain ⟨h3, h2, h1, h0, hxy⟩ := h
  have e3 := hexDigit_inj (by omega) (by omega) h3
  have e2 := hexDigit_inj (by omega) (by omega) h2
  have e1 := hexDigit_inj (by omega) (by omega) h1
  have e0 := hexDigit_inj (by omega) (by omega) h0
  exact ⟨by omega, hxy⟩

/-- The character of a short escape. -/
def shortChar : Char → Char
  | 'n' => '\n'
  | 'r' => '\r'
  | 't' => '\t'
  | 'f' => '\x0c'
  | 'b' => '\x08'
  | letter => letter

theorem shortEscape_spec {c letter : Char} (h : shortEscape c = some letter) :
    c = shortChar letter ∧ letter ≠ 'u' := by
  unfold shortEscape at h
  split at h <;> cases h <;> exact ⟨rfl, by decide⟩

/-- The units of a character are read off the front: no character is a surrogate. -/
theorem utf16_cut {c d : Char} {x y : List Char}
    (h : (utf16 c).flatMap escapeUnit ++ x = (utf16 d).flatMap escapeUnit ++ y) :
    c = d ∧ x = y := by
  have hc : c.toNat < 0xd800 ∨ 0xdfff < c.toNat ∧ c.toNat < 0x110000 := c.valid
  have hd : d.toNat < 0xd800 ∨ 0xdfff < d.toNat ∧ d.toNat < 0x110000 := d.valid
  unfold utf16 at h
  split at h <;> split at h <;>
    simp only [List.flatMap_cons, List.flatMap_nil, List.append_nil, List.append_assoc] at h
  · obtain ⟨hunit, hxy⟩ := escapeUnit_cut (by omega) (by omega) h
    exact ⟨Char.toNat_inj.mp hunit, hxy⟩
  · obtain ⟨hunit, -⟩ := escapeUnit_cut (by omega) (by omega) h
    omega
  · obtain ⟨hunit, -⟩ := escapeUnit_cut (by omega) (by omega) h
    omega
  · obtain ⟨hhigh, hrest⟩ := escapeUnit_cut (by omega) (by omega) h
    obtain ⟨hlow, hxy⟩ := escapeUnit_cut (by omega) (by omega) hrest
    exact ⟨Char.toNat_inj.mp (by omega), hxy⟩

theorem utf16_escaped (c : Char) : ∃ rest, (utf16 c).flatMap escapeUnit = '\\' :: 'u' :: rest := by
  unfold utf16
  split
  · exact ⟨_, rfl⟩
  · exact ⟨_, rfl⟩

/-- The ways to write a character: itself, a short escape, its units. -/
theorem escapeChar_cases (c : Char) :
    (escapeChar c = [c] ∧ c ≠ '\\' ∧ c ≠ '"') ∨
    (∃ letter, escapeChar c = ['\\', letter] ∧ c = shortChar letter ∧ letter ≠ 'u') ∨
    ∃ rest, escapeChar c = '\\' :: 'u' :: rest ∧ escapeChar c = (utf16 c).flatMap escapeUnit := by
  unfold escapeChar
  cases hshort : shortEscape c with
  | some letter => exact .inr (.inl ⟨letter, rfl, shortEscape_spec hshort⟩)
  | none =>
    by_cases hplain : 0x20 ≤ c.toNat ∧ c.toNat < 0x7f
    · refine .inl ⟨if_pos hplain, ?_, ?_⟩
      · rintro rfl
        cases hshort
      · rintro rfl
        cases hshort
    · obtain ⟨rest, hrest⟩ := utf16_escaped c
      exact .inr (.inr ⟨rest, (if_neg hplain).trans hrest, if_neg hplain⟩)

/-- `ensure_ascii` writes a prefix code. -/
theorem escapeChar_prefixCode : IsPrefixCode escapeChar := by
  constructor
  intro c d x y h
  rcases escapeChar_cases c with ⟨hc, hne, -⟩ | ⟨letter, hc, hshort, hu⟩ | ⟨rest, hc, hunits⟩
  · rcases escapeChar_cases d with ⟨hd, -, -⟩ | ⟨_, hd, -, -⟩ | ⟨_, hd, -⟩
    · rw [hc, hd] at h
      exact List.cons.inj h
    · rw [hc, hd] at h
      exact absurd (List.cons.inj h).1 hne
    · rw [hc, hd] at h
      exact absurd (List.cons.inj h).1 hne
  · rcases escapeChar_cases d with ⟨hd, hne, -⟩ | ⟨letter', hd, hshort', -⟩ | ⟨_, hd, -⟩
    · rw [hc, hd] at h
      exact absurd (List.cons.inj h).1.symm hne
    · rw [hc, hd] at h
      obtain ⟨hletter, hxy⟩ := List.cons.inj (List.cons.inj h).2
      exact ⟨by rw [hshort, hshort', hletter], hxy⟩
    · rw [hc, hd] at h
      exact absurd (List.cons.inj (List.cons.inj h).2).1 hu
  · rcases escapeChar_cases d with ⟨hd, hne, -⟩ | ⟨_, hd, -, hu⟩ | ⟨_, -, hunits'⟩
    · rw [hc, hd] at h
      exact absurd (List.cons.inj h).1.symm hne
    · rw [hc, hd] at h
      exact absurd (List.cons.inj (List.cons.inj h).2).1.symm hu
    · rw [hunits, hunits'] at h
      exact utf16_cut h

/-- A text between its quotes is read off the front. -/
theorem dumpsStr_prefixCode : IsPrefixCode fun s : String => dumpsStr (ofText s) := by
  have hmark : ∀ c, ∃ letter w, escapeChar c = letter :: w ∧ letter ≠ '"' := by
    intro c
    rcases escapeChar_cases c with ⟨hc, -, hne⟩ | ⟨_, hc, -⟩ | ⟨_, hc, -⟩
    · exact ⟨_, _, hc, hne⟩
    · exact ⟨_, _, hc, by decide⟩
    · exact ⟨_, _, hc, by decide⟩
  have hchars := (escapeChar_prefixCode.sequence hmark).lit ['"']
  have hdumps : ∀ s, dumpsStr (ofText s) = ['"'] ++ (s.toList.flatMap escapeChar ++ ['"']) := by
    intro s
    rw [dumpsStr, ofText, List.flatMap_map]
    rfl
  constructor
  intro s t x y h
  rw [hdumps, hdumps] at h
  obtain ⟨hst, hxy⟩ := hchars.cut h
  exact ⟨String.toList_inj.mp hst, hxy⟩

end Basecrawl.PyStr
