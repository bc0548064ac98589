/-
  Strings as the bytes a hash, a sealed box or a socket sees.

  A Rust `str` is a UTF-8 byte slice, and so is Lean's `String`: `utf8` reads the bytes off and
  `fromUtf8` is the checked way back (`std::str::from_utf8`).  Everything that is decided about a
  string on its characters (splitting at a separator, stripping a label) is written over
  `toList`; the lemmas below move a fact about the bytes to the characters and back.

  1. **Bytes** — `utf8` is an injective monoid morphism (`utf8_append`, `utf8_inj`), and the zero
     byte occurs in the encoding exactly where the NUL character occurs (`zero_mem_utf8`).
  2. **Characters** — `stripPrefix` and `split` with their inversion lemmas, the Unicode
     `trim`, ASCII lowercasing, and the predicates on single characters they need.
-/
import Mathlib.Data.List.Basic
import Mathlib.Data.List.Infix

namespace Basecrawl

/-- A byte string: `&[u8]`, `Vec<u8>`. -/
abbrev Bytes := List UInt8

namespace Text

/-- Membership in lists of names is decided with this instance. -/
instance lawfulNames : LawfulBEq (List String) := inferInstance

/-! ## Bytes -/

/-- The UTF-8 bytes of a string (`str::as_bytes`). -/
def utf8 (s : String) : Bytes := s.toByteArray.data.toList

/-- `std::str::from_utf8`, with the error forgotten. -/
def fromUtf8 (b : Bytes) : Option String := String.fromUTF8? ⟨b.toArray⟩

@[simp] theorem utf8_append (s t : String) : utf8 (s ++ t) = utf8 s ++ utf8 t := by
  simp [utf8]

@[simp] theorem utf8_empty : utf8 "" = [] := by
  simp [utf8]

theorem utf8_injective : Function.Injective utf8 := by
  intro s t h
  have hdata : s.toByteArray.data = t.toByteArray.data := Array.ext' h
  exact String.toByteArray_inj.mp (ByteArray.ext hdata)

theorem utf8_inj {s t : String} : utf8 s = utf8 t ↔ s = t :=
  utf8_injective.eq_iff

/-- Decoding succeeds on exactly the encodings. -/
theorem fromUtf8_eq_some {b : Bytes} {s : String} : fromUtf8 b = some s ↔ b = utf8 s := by
  unfold fromUtf8 String.fromUTF8?
  constructor
  · intro h
    split at h
    · obtain rfl := Option.some.inj h
      simp [utf8, String.fromUTF8]
    · cases h
  · rintro rfl
    have harr : (⟨(utf8 s).toArray⟩ : ByteArray) = s.toByteArray := by simp [utf8]
    rw [harr, dif_pos s.isValidUTF8]
    rfl

@[simp] theorem fromUtf8_utf8 (s : String) : fromUtf8 (utf8 s) = some s :=
  fromUtf8_eq_some.mpr rfl

/-- The bytes of a string are the bytes of its characters, in order. -/
theorem utf8_eq_flatMap (s : String) : utf8 s = s.toList.flatMap String.utf8EncodeChar := by
  rw [utf8, ← String.utf8Encode_toList, List.utf8Encode]
  simp

/-- An ASCII byte is the encoding of its own character: every byte of a longer encoding has its top
    bit set. -/
theorem toNat_of_mem_utf8EncodeChar {c : Char} {b : UInt8} (h : b ∈ String.utf8EncodeChar c)
    (hb : b.toNat < 128) : c.toNat = b.toNat := by
  -- each byte of a longer encoding is `r % m + k` with `128 ≤ k` and no carry
  have hlead : ∀ n, 128 ≤ n → n < 256 → b ≠ UInt8.ofNat n := by
    intro n hlo hhi hbn
    have hn := congrArg UInt8.toNat hbn
    rw [UInt8.toNat_ofNat'] at hn
    omega
  unfold String.utf8EncodeChar at h
  simp only [] at h
  split at h
  · have hbyte := congrArg UInt8.toNat (List.mem_singleton.mp h)
    have hval : c.toNat = c.val.toNat := rfl
    rw [UInt8.toNat_ofNat'] at hbyte
    omega
  · exfalso
    split at h
    · simp only [List.mem_cons, List.not_mem_nil, or_false] at h
      rcases h with h | h
      · exact hlead _ (by omega) (by omega) h
      · exact hlead _ (by omega) (by omega) h
    · split at h
      · simp only [List.mem_cons, List.not_mem_nil, or_false] at h
        rcases h with h | h | h
        · exact hlead _ (by omega) (by omega) h
        · exact hlead _ (by omega) (by omega) h
        · exact hlead _ (by omega) (by omega) h
      · simp only [List.mem_cons, List.not_mem_nil, or_false] at h
        rcases h with h | h | h | h
        · exact hlead _ (by omega) (by omega) h
        · exact hlead _ (by omega) (by omega) h
        · exact hlead _ (by omega) (by omega) h
        · exact hlead _ (by omega) (by omega) h

/-- An ASCII character is one byte. -/
theorem utf8EncodeChar_ascii {c : Char} (h : c.toNat < 128) :
    String.utf8EncodeChar c = [UInt8.ofNat c.toNat] := by
  have hval : c.val.toNat ≤ 127 := by
    have hc : c.toNat = c.val.toNat := rfl
    omega
  unfold String.utf8EncodeChar
  simp only []
  rw [if_pos hval]
  rfl

/-- Only NUL is encoded with a zero byte. -/
theorem zero_mem_utf8EncodeChar {c : Char} : 0 ∈ String.utf8EncodeChar c ↔ c = '\x00' := by
  constructor
  · intro h
    have hv : c.toNat = 0 := toNat_of_mem_utf8EncodeChar h (by decide)
    apply Char.ext
    apply UInt32.toNat_inj.mp
    exact hv
  · rintro rfl
    decide

/-- An ASCII text is one byte a character. -/
theorem utf8_ascii {s : String} (h : ∀ c ∈ s.toList, c.toNat < 128) :
    utf8 s = s.toList.map fun c => UInt8.ofNat c.toNat := by
  rw [utf8_eq_flatMap]
  revert h
  induction s.toList with
  | nil => exact fun _ => rfl
  | cons c cs ih =>
    intro h
    rw [List.flatMap_cons, List.map_cons, utf8EncodeChar_ascii (h c List.mem_cons_self),
      ih fun d hd => h d (List.mem_cons_of_mem _ hd)]
    rfl

/-- A text is ASCII when its bytes are. -/
theorem toNat_lt_of_utf8 {s : String} (h : ∀ b ∈ utf8 s, b.toNat < 128) :
    ∀ c ∈ s.toList, c.toNat < 128 := by
  intro c hc
  have hne : String.utf8EncodeChar c ≠ [] := by
    intro he
    have hpos := Char.utf8Size_pos c
    rw [← String.length_utf8EncodeChar, he] at hpos
    exact absurd hpos (by decide)
  obtain ⟨b, hb⟩ := List.exists_mem_of_ne_nil _ hne
  have hlow := h b (by
    rw [utf8_eq_flatMap]
    exact List.mem_flatMap.mpr ⟨c, hc, hb⟩)
  rw [toNat_of_mem_utf8EncodeChar hb hlow]
  exact hlow

/-- The zero byte marks the NUL character and nothing else. -/
theorem zero_mem_utf8 {s : String} : 0 ∈ utf8 s ↔ '\x00' ∈ s.toList := by
  rw [utf8_eq_flatMap, List.mem_flatMap]
  constructor
  · rintro ⟨c, hc, h0⟩
    exact zero_mem_utf8EncodeChar.mp h0 ▸ hc
  · intro h
    exact ⟨_, h, zero_mem_utf8EncodeChar.mpr rfl⟩

/-! ## Characters -/

/-- `str::strip_prefix` with a string pattern. -/
def stripPrefix (s pat : String) : Option String :=
  (pat.toList.isPrefixOf? s.toList).map String.ofList

theorem isPrefixOf?_eq_some {α : Type} [DecidableEq α] : ∀ {p l r : List α},
    p.isPrefixOf? l = some r ↔ l = p ++ r
  | [], l, r => by simp [List.isPrefixOf?]
  | _ :: _, [], r => by simp [List.isPrefixOf?]
  | a :: p, b :: l, r => by
      rw [List.isPrefixOf?]
      by_cases hab : a = b
      · subst hab
        simp [isPrefixOf?_eq_some]
      · simp [hab, Ne.symm hab]

theorem stripPrefix_eq_some {s pat r : String} : stripPrefix s pat = some r ↔ s = pat ++ r := by
  rw [stripPrefix, Option.map_eq_some_iff]
  constructor
  · rintro ⟨l, hl, rfl⟩
    apply String.toList_injective
    rw [isPrefixOf?_eq_some.mp hl, String.toList_append, String.toList_ofList]
  · rintro rfl
    exact ⟨r.toList, isPrefixOf?_eq_some.mpr String.toList_append, String.ofList_toList⟩

@[simp] theorem stripPrefix_append (pat r : String) : stripPrefix (pat ++ r) pat = some r :=
  stripPrefix_eq_some.mpr rfl

/-- `str::split` at a separator character: one piece more than there are separators. -/
def split (s : String) (sep : Char) : List String :=
  (s.toList.splitOn sep).map String.ofList

/-- No piece of a split contains the separator. -/
theorem not_mem_of_mem_split {s t : String} {sep : Char} (h : t ∈ split s sep) :
    sep ∉ t.toList := by
  obtain ⟨l, hl, rfl⟩ := List.mem_map.mp h
  rw [String.toList_ofList]
  have hgen : ∀ cs : List Char, ∀ l ∈ cs.splitOn sep, sep ∉ l := by
    intro cs
    induction cs with
    | nil => simp
    | cons c cs ih =>
      intro l hl
      rw [List.splitOn_cons_eq_if_modifyHead] at hl
      split at hl
      · rcases List.mem_cons.mp hl with rfl | hl
        · exact List.not_mem_nil
        · exact ih l hl
      · rename_i hc
        obtain ⟨hd, tl, hsplit⟩ := List.exists_cons_of_ne_nil (List.splitOn_ne_nil sep cs)
        rw [hsplit, List.modifyHead_cons] at hl
        rw [hsplit] at ih
        rcases List.mem_cons.mp hl with rfl | hl
        · have hcs : ¬ sep = c := fun he => hc (by simp [he])
          simp [hcs, ih hd (List.mem_cons_self ..)]
        · exact ih l (List.mem_cons_of_mem _ hl)
  exact hgen _ l hl

/-- A separator-free string is its own only piece. -/
theorem split_eq_singleton {s : String} {sep : Char} (h : sep ∉ s.toList) :
    split s sep = [s] := by
  rw [split, List.splitOn_eq_singleton h]
  simp

/-- Splitting peels off a separator-free first piece. -/
theorem split_append_cons {a b : String} {sep : Char} (h : sep ∉ a.toList) :
    split (a ++ String.singleton sep ++ b) sep = a :: split b sep := by
  have hl : (a ++ String.singleton sep ++ b).toList = a.toList ++ sep :: b.toList := by simp
  rw [split, hl, List.splitOn_append_cons_self_of_not_mem h, List.map_cons, String.ofList_toList]
  rfl

/-- `str::to_ascii_lowercase`. -/
def asciiLower (s : String) : String := String.ofList (s.toList.map Char.toLower)

/-- `str::to_ascii_uppercase`. -/
def asciiUpper (s : String) : String := String.ofList (s.toList.map Char.toUpper)

/-- Lowercasing makes no NUL. -/
theorem toLower_eq_nul {c : Char} (h : c.toLower = '\x00') : c = '\x00' := by
  unfold Char.toLower at h
  split at h
  · rename_i hupper
    have hval : c.val + ('a'.val - 'A'.val) = 0 := congrArg Char.val h
    have hsum := congrArg UInt32.toNat hval
    have hlo : 65 ≤ c.val.toNat := hupper.1
    have hhi : c.val.toNat ≤ 90 := hupper.2
    simp only [UInt32.toNat_add, UInt32.toNat_zero] at hsum
    have hdiff : ('a'.val - 'A'.val).toNat = 32 := by decide
    omega
  · exact h

/-- A character beyond ASCII is its own lower case. -/
theorem toLower_of_not_ascii {c : Char} (h : ¬ c.toNat < 128) : c.toLower = c := by
  unfold Char.toLower
  refine dif_neg fun hupper => h ?_
  have hle : c.toNat ≤ 90 := hupper.2
  omega

theorem toLower_toLower (c : Char) : c.toLower.toLower = c.toLower := by
  by_cases hascii : c.toNat < 128
  · have hall : ∀ n : Fin 128, (Char.ofNat n).toLower.toLower = (Char.ofNat n).toLower := by
      decide
    have hc := hall ⟨c.toNat, hascii⟩
    rw [Char.ofNat_toNat] at hc
    exact hc
  · rw [toLower_of_not_ascii hascii, toLower_of_not_ascii hascii]

theorem asciiLower_lower (s : String) : asciiLower (asciiLower s) = asciiLower s := by
  rw [asciiLower, asciiLower, String.toList_ofList, List.map_map]
  exact congrArg String.ofList (List.map_congr_left fun c _ => toLower_toLower c)

/-- `str::eq_ignore_ascii_case`. -/
def eqIgnoreAsciiCase (s t : String) : Bool := asciiLower s == asciiLower t

/-- `char::is_whitespace`: the Unicode `White_Space` property. -/
def isWhitespace (c : Char) : Bool :=
  let n := c.toNat
  (9 ≤ n && n ≤ 13) || n == 0x20 || n == 0x85 || n == 0xA0 || n == 0x1680 ||
    (0x2000 ≤ n && n ≤ 0x200A) || n == 0x2028 || n == 0x2029 || n == 0x202F || n == 0x205F ||
    n == 0x3000

/-- `str::trim`. -/
def trim (s : String) : String :=
  String.ofList (((s.toList.dropWhile isWhitespace).reverse.dropWhile isWhitespace).reverse)

/-- Nothing is cut off at either end of what has nothing to cut. -/
theorem dropWhile_ends_eq_self {α : Type} {p : α → Bool} {cs : List α}
    (h : ∀ c ∈ cs, p c = false) : ((cs.dropWhile p).reverse.dropWhile p).reverse = cs := by
  have hkeep : ∀ l : List α, (∀ c ∈ l, p c = false) → l.dropWhile p = l := by
    intro l hl
    cases l with
    | nil => rfl
    | cons c l => exact List.dropWhile_cons_of_neg (by simp [hl c List.mem_cons_self])
  rw [hkeep cs h, hkeep _ fun c hc => h c (List.mem_reverse.mp hc), List.reverse_reverse]

theorem trim_eq_self {s : String} (h : ∀ c ∈ s.toList, isWhitespace c = false) : trim s = s := by
  rw [trim, dropWhile_ends_eq_self h, String.ofList_toList]

/-- `str::contains` with a string pattern. -/
def contains (s pat : String) : Bool := decide (pat.toList <:+: s.toList)

/-- `str::split_once` at a separator character. -/
def splitOnce (s : String) (sep : Char) : Option (String × String) :=
  if sep ∈ s.toList then
    some (String.ofList (s.toList.takeWhile (· ≠ sep)),
      String.ofList ((s.toList.dropWhile (· ≠ sep)).drop 1))
  else none

/-- `str::strip_suffix` with a character. -/
def stripSuffix (s : String) (c : Char) : Option String :=
  if s.toList.getLast? = some c then some (String.ofList s.toList.dropLast) else none

/-- `str::split_whitespace`. -/
def splitWhitespace (s : String) : List String :=
  ((s.toList.splitOnP isWhitespace).filter (!·.isEmpty)).map String.ofList

/-- Replace the pattern from left to right; the number counts the characters of a match still to be
    passed over. -/
def replaceChars (pat rep : List Char) : List Char → Nat → List Char
  | [], _ => []
  | _ :: cs, passed + 1 => replaceChars pat rep cs passed
  | c :: cs, 0 =>
      if pat.isPrefixOf (c :: cs) then rep ++ replaceChars pat rep cs (pat.length - 1)
      else c :: replaceChars pat rep cs 0

/-- `str::replace` with a pattern that is not empty. -/
def replace (s pat rep : String) : String :=
  String.ofList (replaceChars pat.toList rep.toList s.toList 0)

/-- `str::lines`: pieces ended by a line feed, without a carriage return before it. -/
def lines (s : String) : List String :=
  let pieces := split s '\n'
  let ended := pieces.dropLast.map fun piece => (stripSuffix piece '\r').getD piece
  match pieces.getLast? with
  | none | some "" => ended
  | some last => ended ++ [last]

end Text
end Basecrawl
