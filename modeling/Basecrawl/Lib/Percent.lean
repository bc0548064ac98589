/-
  Percent-encoding.

  An encoder is given by the characters it escapes; what it writes for one of these is `%` and two
  capital hex digits for each byte.  So an encoded text has unescaped characters, percent signs and
  digits only (`mem_encode`), and is longer than what it stands for unless nothing had to be escaped
  (`encode_eq_self`, `length_lt_encode`).

  A form (`application/x-www-form-urlencoded`) goes byte by byte: a letter, a digit or one of `*-._`
  stands for itself, a space is written `+`, and everything else is escaped.  None of what separates
  the fields of a form is in what a field is written as (`mem_form`).
-/
import Basecrawl.Lib.Text

namespace Basecrawl.Percent

open Text

/-- The capital hex digit of a value below 16. -/
def digit (n : Nat) : Char := "0123456789ABCDEF".toList.getD n '0'

/-- `%XX`. -/
def escape (b : UInt8) : List Char := ['%', digit (b.toNat / 16), digit (b.toNat % 16)]

/-- What is written for a character. -/
def encodeChar (escapes : Char → Bool) (c : Char) : List Char :=
  if escapes c then (String.utf8EncodeChar c).flatMap escape else [c]

def encode (escapes : Char → Bool) (cs : List Char) : List Char := cs.flatMap (encodeChar escapes)

/-- The digits, one by one. -/
theorem digits_eq : "0123456789ABCDEF".toList =
    ['0', '1', '2', '3', '4', '5', '6', '7', '8', '9', 'A', 'B', 'C', 'D', 'E', 'F'] :=
  String.toList_ofList

theorem digit_mem {n : Nat} (h : n < 16) : digit n ∈ "0123456789ABCDEF".toList := by
  have hlen : n < "0123456789ABCDEF".toList.length := by
    rw [digits_eq]
    exact h
  rw [digit, List.getD_eq_getElem?_getD, List.getElem?_eq_getElem hlen]
  exact List.getElem_mem hlen

theorem mem_escape {b : UInt8} {c : Char} (h : c ∈ escape b) :
    c = '%' ∨ c ∈ "0123456789ABCDEF".toList := by
  have hb := b.toNat_lt
  simp only [escape, List.mem_cons, List.not_mem_nil, or_false] at h
  rcases h with rfl | rfl | rfl
  · exact Or.inl rfl
  · exact Or.inr (digit_mem (by omega))
  · exact Or.inr (digit_mem (by omega))

variable {escapes : Char → Bool}

@[simp] theorem encode_nil : encode escapes [] = [] := rfl

theorem encode_cons (c : Char) (cs : List Char) :
    encode escapes (c :: cs) = encodeChar escapes c ++ encode escapes cs :=
  List.flatMap_cons

/-- **What an encoded text is made of.** -/
theorem mem_encode {cs : List Char} {c : Char} (h : c ∈ encode escapes cs) :
    escapes c = false ∨ c = '%' ∨ c ∈ "0123456789ABCDEF".toList := by
  obtain ⟨d, -, hd⟩ := List.mem_flatMap.mp h
  rw [encodeChar] at hd
  split at hd
  · obtain ⟨b, -, hb⟩ := List.mem_flatMap.mp hd
    exact Or.inr (mem_escape hb)
  · next hplain =>
    rw [List.mem_singleton.mp hd]
    exact Or.inl (Bool.not_eq_true _ ▸ hplain)

theorem encode_eq_self {cs : List Char} (h : ∀ c ∈ cs, escapes c = false) :
    encode escapes cs = cs := by
  induction cs with
  | nil => rfl
  | cons c cs ih =>
    rw [encode_cons, encodeChar, h c List.mem_cons_self,
      ih fun d hd => h d (List.mem_cons_of_mem _ hd)]
    rfl

theorem length_encodeChar (c : Char) :
    1 ≤ (encodeChar escapes c).length ∧ (escapes c = true → 3 ≤ (encodeChar escapes c).length) := by
  have hpos : 1 ≤ (String.utf8EncodeChar c).length := by
    rw [String.length_utf8EncodeChar]
    exact Char.utf8Size_pos c
  have hescaped : ∀ bytes : Bytes, 1 ≤ bytes.length → 3 ≤ (bytes.flatMap escape).length := by
    intro bytes hbytes
    cases bytes with
    | nil => cases hbytes
    | cons b bytes =>
      rw [List.flatMap_cons, List.length_append]
      show 3 ≤ 3 + _
      omega
  rw [encodeChar]
  split
  · have hlen := hescaped _ hpos
    exact ⟨by omega, fun _ => hlen⟩
  · next hplain => exact ⟨Nat.le_refl 1, fun h => absurd h hplain⟩

theorem length_le_encode (cs : List Char) : cs.length ≤ (encode escapes cs).length := by
  induction cs with
  | nil => exact Nat.le_refl 0
  | cons c cs ih =>
    have hc : 1 ≤ (encodeChar escapes c).length := (length_encodeChar c).1
    rw [encode_cons, List.length_append, List.length_cons]
    omega

/-- An escape is longer than what it stands for. -/
theorem length_lt_encode {cs : List Char} {c : Char} (hc : c ∈ cs) (h : escapes c = true) :
    cs.length < (encode escapes cs).length := by
  induction cs with
  | nil => cases hc
  | cons d cs ih =>
    have hd : 1 ≤ (encodeChar escapes d).length ∧
        (escapes d = true → 3 ≤ (encodeChar escapes d).length) := length_encodeChar d
    rw [encode_cons, List.length_append, List.length_cons]
    rcases List.mem_cons.mp hc with rfl | hc
    · have hle : cs.length ≤ (encode escapes cs).length := length_le_encode cs
      have hthree := hd.2 h
      omega
    · have hlt := ih hc
      omega

/-! ## Forms -/

/-- What stands for itself in a form. -/
def formPlain (b : UInt8) : Bool :=
  let n := b.toNat
  (0x30 ≤ n && n ≤ 0x39) || (0x41 ≤ n && n ≤ 0x5a) || (0x61 ≤ n && n ≤ 0x7a) || n == 0x2a ||
    n == 0x2d || n == 0x2e || n == 0x5f

def formByte (b : UInt8) : List Char :=
  if b = 0x20 then ['+'] else if formPlain b then [Char.ofNat b.toNat] else escape b

/-- A name or a value in a form. -/
def form (text : String) : String := String.ofList ((utf8 text).flatMap formByte)

/-- The characters of a form field. -/
def IsFormChar (c : Char) : Prop :=
  c.toNat < 128 ∧ isWhitespace c = false ∧ c ≠ '&' ∧ c ≠ '='

instance (c : Char) : Decidable (IsFormChar c) := inferInstanceAs (Decidable (_ ∧ _ ∧ _ ∧ _))

theorem digit_form {n : Nat} (h : n < 16) : IsFormChar (digit n) := by
  have hall : ∀ n : Fin 16, IsFormChar (digit n) := by
    simp only [digit, digits_eq]
    decide
  exact hall ⟨n, h⟩

theorem mem_formByte {b : UInt8} {c : Char} (h : c ∈ formByte b) : IsFormChar c := by
  have hb := b.toNat_lt
  rw [formByte] at h
  split at h
  · rw [List.mem_singleton.mp h]
    decide
  · split at h
    · next hplain =>
      have hall : ∀ n : Fin 128, formPlain (UInt8.ofNat n) = true → IsFormChar (Char.ofNat n) := by
        decide
      have hlow : b.toNat < 128 := by
        simp only [formPlain, Bool.or_eq_true, Bool.and_eq_true, decide_eq_true_eq,
          beq_iff_eq] at hplain
        omega
      rw [List.mem_singleton.mp h]
      refine hall ⟨b.toNat, hlow⟩ ?_
      rw [UInt8.ofNat_toNat]
      exact hplain
    · rw [escape] at h
      simp only [List.mem_cons, List.not_mem_nil, or_false] at h
      rcases h with rfl | rfl | rfl
      · decide
      · exact digit_form (by omega)
      · exact digit_form (by omega)

/-- **What a form field is made of.** -/
theorem mem_form {text : String} {c : Char} (h : c ∈ (form text).toList) : IsFormChar c := by
  rw [form, String.toList_ofList] at h
  obtain ⟨b, -, hb⟩ := List.mem_flatMap.mp h
  exact mem_formByte hb

/-- A form field byte by byte. -/
theorem utf8_form (text : String) :
    utf8 (form text) = (utf8 text).flatMap fun b => (formByte b).map fun c => UInt8.ofNat c.toNat := by
  rw [utf8_ascii fun c hc => (mem_form hc).1, form, String.toList_ofList, List.map_flatMap]

end Basecrawl.Percent
