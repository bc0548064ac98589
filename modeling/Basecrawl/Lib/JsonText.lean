/-
  The text of a flat JSON object: strings under string keys, as `serde_json` writes it.

  1. **Escapes** — a quotation mark, a backslash and the control characters are escaped, everything
     else stands for itself; one reader step takes back one character (`readChar_escapeChar`).
  2. **Strings, members** — by induction over the characters (`readString_quoted`) and over the
     members (`readMembers_members`).
  3. **Objects** — what is written is read back (`readObject_object`), on one line
     (`not_control_object`) between its braces (`head_object`, `last_object`).
-/
import Basecrawl.Lib.Text

namespace Basecrawl.JsonText

open Text

/-! ## Writing -/

/-- A lower-case hex digit. -/
def hexDigit (n : Nat) : Char := "0123456789abcdef".toList.getD n '0'

def escapeChar (c : Char) : List Char :=
  if c = '"' then ['\\', '"']
  else if c = '\\' then ['\\', '\\']
  else if c = '\x08' then ['\\', 'b']
  else if c = '\x0c' then ['\\', 'f']
  else if c = '\n' then ['\\', 'n']
  else if c = '\r' then ['\\', 'r']
  else if c = '\t' then ['\\', 't']
  else if c.toNat < 0x20 then
    ['\\', 'u', '0', '0', hexDigit (c.toNat / 16), hexDigit (c.toNat % 16)]
  else [c]

def quoted (text : List Char) : List Char := '"' :: (text.flatMap escapeChar ++ ['"'])

def member (m : String × String) : List Char := quoted m.1.toList ++ ':' :: quoted m.2.toList

/-- The members with commas between them. -/
def members : List (String × String) → List Char
  | [] => []
  | [m] => member m
  | m :: ms => member m ++ ',' :: members ms

def object (ms : List (String × String)) : List Char := '\x7b' :: (members ms ++ ['\x7d'])

/-! ## Reading -/

def hexValue (c : Char) : Option Nat :=
  let n := "0123456789abcdef".toList.idxOf c
  if n < 16 then some n else none

def unescape (c : Char) : Option Char :=
  if c = '"' then some '"'
  else if c = '\\' then some '\\'
  else if c = '/' then some '/'
  else if c = 'b' then some '\x08'
  else if c = 'f' then some '\x0c'
  else if c = 'n' then some '\n'
  else if c = 'r' then some '\r'
  else if c = 't' then some '\t'
  else none

/-- Four hex digits. -/
def readHex : List Char → Option (Char × List Char)
  | a :: b :: c :: d :: rest => do
    let a ← hexValue a
    let b ← hexValue b
    let c ← hexValue c
    let d ← hexValue d
    return (Char.ofNat (((a * 16 + b) * 16 + c) * 16 + d), rest)
  | _ => none

/-- One character of a string. -/
def readChar : List Char → Option (Char × List Char)
  | [] => none
  | c :: rest =>
    if c = '\\' then
      match rest with
      | [] => none
      | e :: rest => if e = 'u' then readHex rest else (unescape e).map fun d => (d, rest)
    else if c.toNat < 0x20 then none
    else some (c, rest)

/-- A string behind its opening mark; the number bounds its characters. -/
def readString : Nat → List Char → Option (List Char × List Char)
  | 0, _ => none
  | n + 1, text =>
    if text.head? = some '"' then some ([], text.tail)
    else do
      let (c, rest) ← readChar text
      let (cs, rest) ← readString n rest
      return (c :: cs, rest)

/-- A given character. -/
def expect (c : Char) (text : List Char) : Option (List Char) :=
  if text.head? = some c then some text.tail else none

def readMember (text : List Char) : Option ((String × String) × List Char) := do
  let text ← expect '"' text
  let (key, text) ← readString text.length text
  let text ← expect ':' text
  let text ← expect '"' text
  let (value, text) ← readString text.length text
  return ((String.ofList key, String.ofList value), text)

/-- Members up to the closing brace; the number bounds them. -/
def readMembers : Nat → List Char → Option (List (String × String))
  | 0, _ => none
  | n + 1, text => do
    let (m, text) ← readMember text
    if text = ['\x7d'] then return [m]
    else
      let text ← expect ',' text
      let ms ← readMembers n text
      return m :: ms

/-- The members of an object. -/
def readObject (text : List Char) : Option (List (String × String)) := do
  let text ← expect '\x7b' text
  if text = ['\x7d'] then return []
  else readMembers text.length text

/-! ## One character -/

theorem digits_eq : "0123456789abcdef".toList =
    ['0', '1', '2', '3', '4', '5', '6', '7', '8', '9', 'a', 'b', 'c', 'd', 'e', 'f'] :=
  String.toList_ofList

theorem hexValue_hexDigit {n : Nat} (h : n < 16) : hexValue (hexDigit n) = some n := by
  have hall : ∀ n : Fin 16, hexValue (hexDigit n) = some n.val := by
    simp only [hexValue, hexDigit, digits_eq]
    decide
  exact hall ⟨n, h⟩

/-- **One escape, one character.** -/
theorem readChar_escapeChar (c : Char) (rest : List Char) :
    readChar (escapeChar c ++ rest) = some (c, rest) := by
  rw [escapeChar]
  split
  · next h => rw [h]; rfl
  split
  · next h => rw [h]; rfl
  split
  · next h => rw [h]; rfl
  split
  · next h => rw [h]; rfl
  split
  · next h => rw [h]; rfl
  split
  · next h => rw [h]; rfl
  split
  · next h => rw [h]; rfl
  split
  · next hcontrol =>
    have hzero : hexValue '0' = some 0 := by
      simp only [hexValue, digits_eq]
      decide
    have hhi := @hexValue_hexDigit (c.toNat / 16) (by omega)
    have hlo := @hexValue_hexDigit (c.toNat % 16) (by omega)
    have hread : readHex
        ('0' :: '0' :: hexDigit (c.toNat / 16) :: hexDigit (c.toNat % 16) :: rest) =
        some (Char.ofNat (((0 * 16 + 0) * 16 + c.toNat / 16) * 16 + c.toNat % 16), rest) := by
      rw [readHex, hzero, hhi, hlo]
      rfl
    have hvalue : ((0 * 16 + 0) * 16 + c.toNat / 16) * 16 + c.toNat % 16 = c.toNat := by omega
    rw [hvalue, Char.ofNat_toNat] at hread
    exact hread
  · next _ hbackslash _ _ _ _ _ hplain =>
    show (if c = '\\' then _ else if c.toNat < 0x20 then none else some (c, rest)) = _
    rw [if_neg hbackslash, if_neg hplain]

/-- What stands in an escape: no control character, and no quotation mark in front. -/
theorem escapeChar_shape (c : Char) :
    ∃ d ds, escapeChar c = d :: ds ∧ d ≠ '"' ∧ ∀ e ∈ d :: ds, 0x20 ≤ e.toNat := by
  have hshort : ∀ e : Char, 0x20 ≤ e.toNat → ∀ d ∈ ['\\', e], 0x20 ≤ d.toNat := by
    intro e he d hd
    rcases List.mem_cons.mp hd with rfl | hd
    · decide
    · rw [List.mem_singleton.mp hd]
      exact he
  rw [escapeChar]
  split
  · exact ⟨_, _, rfl, by decide, hshort _ (by decide)⟩
  split
  · exact ⟨_, _, rfl, by decide, hshort _ (by decide)⟩
  split
  · exact ⟨_, _, rfl, by decide, hshort _ (by decide)⟩
  split
  · exact ⟨_, _, rfl, by decide, hshort _ (by decide)⟩
  split
  · exact ⟨_, _, rfl, by decide, hshort _ (by decide)⟩
  split
  · exact ⟨_, _, rfl, by decide, hshort _ (by decide)⟩
  split
  · exact ⟨_, _, rfl, by decide, hshort _ (by decide)⟩
  split
  · have hdigit : ∀ n : Fin 16, 0x20 ≤ (hexDigit n).toNat := by
      simp only [hexDigit, digits_eq]
      decide
    refine ⟨_, _, rfl, by decide, ?_⟩
    simp only [List.forall_mem_cons]
    exact ⟨by decide, by decide, by decide, by decide, hdigit ⟨c.toNat / 16, by omega⟩,
      hdigit ⟨c.toNat % 16, by omega⟩, fun _ h => absurd h List.not_mem_nil⟩
  · next hquote _ _ _ _ _ _ hplain =>
    refine ⟨c, [], rfl, hquote, ?_⟩
    intro e he
    rw [List.mem_singleton.mp he]
    exact Nat.not_lt.mp hplain

/-! ## Strings and members -/

theorem readString_quoted (text rest : List Char) : ∀ {n : Nat}, text.length < n →
    readString n (text.flatMap escapeChar ++ '"' :: rest) = some (text, rest) := by
  induction text with
  | nil =>
    intro n hn
    obtain ⟨n, rfl⟩ := Nat.exists_eq_succ_of_ne_zero (Nat.ne_of_gt hn)
    rfl
  | cons c cs ih =>
    intro n hn
    obtain ⟨n, rfl⟩ := Nat.exists_eq_succ_of_ne_zero (Nat.ne_of_gt (Nat.zero_lt_of_lt hn))
    obtain ⟨d, ds, hshape, hquote, -⟩ := escapeChar_shape c
    have hhead : (escapeChar c ++ (cs.flatMap escapeChar ++ '"' :: rest)).head? ≠ some '"' := by
      rw [hshape]
      exact fun h => hquote (Option.some.inj h)
    rw [List.flatMap_cons, List.append_assoc, readString, if_neg hhead, readChar_escapeChar]
    show (readString n (cs.flatMap escapeChar ++ '"' :: rest)).bind _ = _
    rw [ih (Nat.lt_of_succ_lt_succ hn)]
    rfl

theorem length_le_escaped (text : List Char) : text.length ≤ (text.flatMap escapeChar).length := by
  induction text with
  | nil => exact Nat.le_refl 0
  | cons c cs ih =>
    obtain ⟨d, ds, hshape, -⟩ := escapeChar_shape c
    rw [List.flatMap_cons, hshape, List.length_append, List.length_cons, List.length_cons]
    omega

/-- A string of its length and more. -/
theorem readString_all (text rest : List Char) :
    readString (text.flatMap escapeChar ++ '"' :: rest).length
      (text.flatMap escapeChar ++ '"' :: rest) = some (text, rest) := by
  refine readString_quoted text rest ?_
  have hle := length_le_escaped text
  rw [List.length_append, List.length_cons]
  omega

theorem readMember_member (m : String × String) (rest : List Char) :
    readMember (member m ++ rest) = some (m, rest) := by
  have hkey := readString_all m.1.toList (':' :: (quoted m.2.toList ++ rest))
  have hvalue := readString_all m.2.toList rest
  have htext : member m ++ rest =
      '"' :: (m.1.toList.flatMap escapeChar ++ '"' :: ':' :: (quoted m.2.toList ++ rest)) := by
    simp [member, quoted]
  have hquoted : quoted m.2.toList ++ rest =
      '"' :: (m.2.toList.flatMap escapeChar ++ '"' :: rest) := by
    simp [quoted]
  rw [hquoted] at hkey htext
  rw [htext, readMember]
  refine Option.bind_eq_some_iff.mpr ⟨_, rfl, ?_⟩
  refine Option.bind_eq_some_iff.mpr ⟨_, hkey, ?_⟩
  refine Option.bind_eq_some_iff.mpr ⟨_, rfl, ?_⟩
  refine Option.bind_eq_some_iff.mpr ⟨_, rfl, ?_⟩
  refine Option.bind_eq_some_iff.mpr ⟨_, hvalue, ?_⟩
  show some ((String.ofList m.1.toList, String.ofList m.2.toList), rest) = _
  rw [String.ofList_toList, String.ofList_toList]

theorem member_ne_nil (m : String × String) : member m ≠ [] := List.cons_ne_nil _ _

theorem readMembers_members : ∀ {ms : List (String × String)}, ms ≠ [] → ∀ {n : Nat},
    ms.length ≤ n → readMembers n (members ms ++ ['\x7d']) = some ms
  | [], h, _, _ => absurd rfl h
  | m :: ms, _, n, hn => by
    obtain ⟨n, rfl⟩ := Nat.exists_eq_succ_of_ne_zero (Nat.ne_of_gt (Nat.zero_lt_of_lt hn))
    cases ms with
    | nil =>
      rw [members, readMembers, readMember_member]
      rfl
    | cons m' ms =>
      have htext : members (m :: m' :: ms) ++ ['\x7d'] =
          member m ++ (',' :: (members (m' :: ms) ++ ['\x7d'])) := by
        rw [members, List.append_assoc, List.cons_append]
        exact fun h => by cases h
      have hne : ¬ ',' :: (members (m' :: ms) ++ ['\x7d']) = ['\x7d'] := fun h => by cases h
      rw [htext, readMembers]
      refine Option.bind_eq_some_iff.mpr ⟨_, readMember_member m _, ?_⟩
      simp only [if_neg hne]
      refine Option.bind_eq_some_iff.mpr ⟨_, rfl, ?_⟩
      refine Option.bind_eq_some_iff.mpr ⟨_, ?_, rfl⟩
      exact readMembers_members (List.cons_ne_nil _ _) (Nat.le_of_succ_le_succ hn)

/-! ## Objects -/

theorem length_le_members (ms : List (String × String)) : ms.length ≤ (members ms).length := by
  induction ms with
  | nil => exact Nat.le_refl 0
  | cons m ms ih =>
    have hpos := List.length_pos_iff.mpr (member_ne_nil m)
    cases ms with
    | nil => exact hpos
    | cons m' ms =>
      have hlen : (members (m :: m' :: ms)).length =
          (member m).length + ((members (m' :: ms)).length + 1) := by
        rw [members, List.length_append, List.length_cons]
        exact fun h => by cases h
      rw [hlen, List.length_cons]
      omega

/-- **What is written is read back.** -/
theorem readObject_object (ms : List (String × String)) : readObject (object ms) = some ms := by
  show (if members ms ++ ['\x7d'] = ['\x7d'] then some []
    else readMembers (members ms ++ ['\x7d']).length (members ms ++ ['\x7d'])) = some ms
  by_cases hnil : ms = []
  · subst hnil
    rfl
  · have hle := length_le_members ms
    have hpos := List.length_pos_iff.mpr hnil
    have hne : ¬ members ms ++ ['\x7d'] = ['\x7d'] := by
      intro h
      have hlen := congrArg List.length h
      rw [List.length_append, List.length_singleton] at hlen
      omega
    rw [if_neg hne, readMembers_members hnil]
    rw [List.length_append]
    omega

theorem not_control_quoted (text : List Char) : ∀ c ∈ quoted text, 0x20 ≤ c.toNat := by
  intro c hc
  rcases List.mem_cons.mp hc with rfl | hc
  · decide
  rcases List.mem_append.mp hc with hc | hc
  · obtain ⟨d, -, hd⟩ := List.mem_flatMap.mp hc
    obtain ⟨e, es, hshape, -, hplain⟩ := escapeChar_shape d
    rw [hshape] at hd
    exact hplain c hd
  · rw [List.mem_singleton.mp hc]
    decide

theorem not_control_members : ∀ ms : List (String × String), ∀ c ∈ members ms, 0x20 ≤ c.toNat := by
  have hmember : ∀ m : String × String, ∀ c ∈ member m, 0x20 ≤ c.toNat := by
    intro m c hc
    rcases List.mem_append.mp hc with hc | hc
    · exact not_control_quoted _ c hc
    rcases List.mem_cons.mp hc with rfl | hc
    · decide
    · exact not_control_quoted _ c hc
  intro ms
  induction ms with
  | nil => exact fun c hc => absurd hc List.not_mem_nil
  | cons m ms ih =>
    cases ms with
    | nil => exact hmember m
    | cons m' ms =>
      intro c hc
      rcases List.mem_append.mp hc with hc | hc
      · exact hmember m c hc
      rcases List.mem_cons.mp hc with rfl | hc
      · decide
      · exact ih c hc

/-- An object is on one line. -/
theorem not_control_object (ms : List (String × String)) : ∀ c ∈ object ms, 0x20 ≤ c.toNat := by
  intro c hc
  rcases List.mem_cons.mp hc with rfl | hc
  · decide
  rcases List.mem_append.mp hc with hc | hc
  · exact not_control_members ms c hc
  · rw [List.mem_singleton.mp hc]
    decide

theorem head_object (ms : List (String × String)) : (object ms).head? = some '\x7b' := rfl

theorem last_object (ms : List (String × String)) : (object ms).getLast? = some '\x7d' := by
  rw [object, ← List.cons_append, List.getLast?_append]
  rfl

end Basecrawl.JsonText
