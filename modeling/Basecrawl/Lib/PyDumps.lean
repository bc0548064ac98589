/-
  `json.dumps` without white space, with sorted keys and without ASCII escapes, and a reader for it.

  1. **Writing** — `print` writes a value as it stands, `dumps` after sorting its keys.
  2. **Reading** — strings point by point (`readString_quoted`), numbers up to the first letter that
     stands in none, values by the depth of the reader.
  3. **Round trip** — what is written is read back in front of any rest that does not prolong a
     number (`readValue_print`), so no two values are written alike (`print_injective`), and
     `dumps` writes alike what is the same up to the order of members (`dumps_eq_iff`).
-/
import Mathlib.Data.List.Lex
import Basecrawl.Lib.JsonText
import Basecrawl.Lib.Numerals
import Basecrawl.Lib.PyStr
import Basecrawl.Lib.PyValue

namespace Basecrawl.PyDumps

open PyStr PyValue

/-! ## The order of strings -/

/-- `ord`. -/
def ord : CodePoint → Nat
  | .scalar c => c.toNat
  | .surrogate n => 0xd800 + n.val

theorem ord_injective : Function.Injective ord := by
  intro p q h
  cases p with
  | scalar c =>
    cases q with
    | scalar d => exact congrArg CodePoint.scalar (Char.toNat_inj.mp h)
    | surrogate n =>
      have hvalid := c.valid
      have hn := n.isLt
      change c.toNat = 0xd800 + n.val at h
      rcases hvalid with hlow | hhigh
      · have hlow' : c.toNat < 0xd800 := hlow
        omega
      · have hhigh' : 0xdfff < c.toNat := hhigh.1
        omega
  | surrogate m =>
    cases q with
    | scalar d =>
      have hvalid := d.valid
      have hm := m.isLt
      change 0xd800 + m.val = d.toNat at h
      rcases hvalid with hlow | hhigh
      · have hlow' : d.toNat < 0xd800 := hlow
        omega
      · have hhigh' : 0xdfff < d.toNat := hhigh.1
        omega
    | surrogate n => exact congrArg CodePoint.surrogate (Fin.ext (Nat.add_left_cancel h))

instance : LinearOrder CodePoint := LinearOrder.lift' ord ord_injective

/-! ## Writing -/

def mark (c : Char) : CodePoint := .scalar c

def escapePoint : CodePoint → Str
  | .scalar c => (JsonText.escapeChar c).map .scalar
  | .surrogate n => [.surrogate n]

def quoted (s : Str) : Str := mark '"' :: (s.flatMap escapePoint ++ [mark '"'])

/-- The letters of a number. -/
def isNumeric : CodePoint → Bool
  | .scalar c => c.isDigit || c == '-' || c == '+' || c == '.' || c == 'e' || c == 'E'
  | .surrogate _ => false

/-- How numbers are written: `int.__repr__` and `float.__repr__`, and the constructors that read
them. -/
structure NumberText (N : Type) where
  text : N → Str
  read : Str → Option N
  read_text : ∀ n, read (text n) = some n
  numeric : ∀ n, ∀ p ∈ text n, isNumeric p = true
  ne_nil : ∀ n, text n ≠ []

variable {N : Type} (numbers : NumberText N)

mutual

def print : Value Str N → Str
  | .null => ofText "null"
  | .bool true => ofText "true"
  | .bool false => ofText "false"
  | .number n => numbers.text n
  | .string s => quoted s
  | .array items => mark '[' :: printItems true items
  | .object members => mark '\x7b' :: printMembers true members

/-- Items up to the closing bracket, each but the first behind a comma. -/
def printItems : Bool → List (Value Str N) → Str
  | _, [] => [mark ']']
  | first, item :: items =>
      (if first then [] else [mark ',']) ++ (print item ++ printItems false items)

def printMembers : Bool → List (Str × Value Str N) → Str
  | _, [] => [mark '\x7d']
  | first, (key, value) :: members =>
      (if first then [] else [mark ',']) ++
        (quoted key ++ (mark ':' :: (print value ++ printMembers false members)))

end

/-- `json.dumps(value, sort_keys=True, separators=(",", ":"), ensure_ascii=False)`. -/
def dumps (value : Value Str N) : Str := print numbers value.sortKeys

/-! ## Reading -/

def hexPoint : CodePoint → Option Nat
  | .scalar c => JsonText.hexValue c
  | .surrogate _ => none

/-- The code point of a number. -/
def chr (n : Nat) : CodePoint :=
  if h : 0xd800 ≤ n ∧ n < 0xe000 then .surrogate ⟨n - 0xd800, by omega⟩ else .scalar (Char.ofNat n)

/-- What follows a backslash. -/
def readEscape : Str → Option (CodePoint × Str)
  | .scalar 'u' :: a :: b :: c :: d :: rest => do
      let a ← hexPoint a
      let b ← hexPoint b
      let c ← hexPoint c
      let d ← hexPoint d
      return (chr (((a * 16 + b) * 16 + c) * 16 + d), rest)
  | .scalar e :: rest => (JsonText.unescape e).map fun c => (.scalar c, rest)
  | _ => none

/-- One code point of a string, and what follows it. -/
def readPoint (p : CodePoint) (rest : Str) : Option (CodePoint × Str) :=
  if p = mark '\\' then readEscape rest else some (p, rest)

/-- A string behind its opening mark; the number bounds its code points. -/
def readString : Nat → Str → Option (Str × Str)
  | 0, _ => none
  | _ + 1, [] => none
  | n + 1, p :: rest =>
      if p = mark '"' then some ([], rest)
      else do
        let (q, rest) ← readPoint p rest
        let (s, rest) ← readString n rest
        return (q :: s, rest)

def expect (p : CodePoint) (text : Str) : Option Str :=
  if text.head? = some p then some text.tail else none

/-- The comma before an item, which the first has not. -/
def readComma (first : Bool) (text : Str) : Option Str :=
  if first then some text else expect (mark ',') text

def literals : List (Str × Value Str N) :=
  [(ofText "null", .null), (ofText "true", .bool true), (ofText "false", .bool false)]

/-- A word that is a value. -/
def readLiteral (text : Str) : Option (Value Str N × Str) :=
  (literals.find? fun literal => literal.1.isPrefixOf text).map fun literal =>
    (literal.2, text.drop literal.1.length)

mutual

/-- A value; the number bounds the steps. -/
def readValue : Nat → Str → Option (Value Str N × Str)
  | 0, _ => none
  | _ + 1, [] => none
  | n + 1, p :: rest =>
      if p = mark '"' then (readString rest.length rest).map fun got => (.string got.1, got.2)
      else if p = mark '[' then (readItems n true rest).map fun got => (.array got.1, got.2)
      else if p = mark '\x7b' then (readMembers n true rest).map fun got => (.object got.1, got.2)
      else if isNumeric p then
        (numbers.read ((p :: rest).takeWhile isNumeric)).map fun number =>
          (.number number, (p :: rest).dropWhile isNumeric)
      else readLiteral (p :: rest)

/-- Items up to the closing bracket. -/
def readItems : Nat → Bool → Str → Option (List (Value Str N) × Str)
  | 0, _, _ => none
  | n + 1, first, text =>
      if text.head? = some (mark ']') then some ([], text.tail)
      else do
        let text ← readComma first text
        let (item, text) ← readValue n text
        let (items, text) ← readItems n false text
        return (item :: items, text)

/-- Members up to the closing brace. -/
def readMembers : Nat → Bool → Str → Option (List (Str × Value Str N) × Str)
  | 0, _, _ => none
  | n + 1, first, text =>
      if text.head? = some (mark '\x7d') then some ([], text.tail)
      else do
        let text ← readComma first text
        let text ← expect (mark '"') text
        let (key, text) ← readString text.length text
        let text ← expect (mark ':') text
        let (value, text) ← readValue n text
        let (members, text) ← readMembers n false text
        return ((key, value) :: members, text)

end

/-- A whole text. -/
def reads (text : Str) : Option (Value Str N) := do
  let (value, rest) ← readValue numbers text.length text
  if rest = [] then some value else none

/-! ## Strings -/

theorem chr_of_lt {n : Nat} (h : n < 0xd800) : chr n = .scalar (Char.ofNat n) :=
  dif_neg fun hboth => absurd hboth.1 (Nat.not_le.mpr h)

/-- **One escape, one code point.** -/
theorem escapePoint_read (p : CodePoint) :
    ∃ q qs, escapePoint p = q :: qs ∧ q ≠ mark '"' ∧
      ∀ rest, readPoint q (qs ++ rest) = some (p, rest) := by
  cases p with
  | surrogate n => exact ⟨_, [], rfl, CodePoint.noConfusion, fun _ => rfl⟩
  | scalar c =>
    rw [escapePoint, JsonText.escapeChar]
    split
    · next h => exact ⟨_, _, rfl, by decide, fun _ => by rw [h]; rfl⟩
    split
    · next h => exact ⟨_, _, rfl, by decide, fun _ => by rw [h]; rfl⟩
    split
    · next h => exact ⟨_, _, rfl, by decide, fun _ => by rw [h]; rfl⟩
    split
    · next h => exact ⟨_, _, rfl, by decide, fun _ => by rw [h]; rfl⟩
    split
    · next h => exact ⟨_, _, rfl, by decide, fun _ => by rw [h]; rfl⟩
    split
    · next h => exact ⟨_, _, rfl, by decide, fun _ => by rw [h]; rfl⟩
    split
    · next h => exact ⟨_, _, rfl, by decide, fun _ => by rw [h]; rfl⟩
    split
    · next hcontrol =>
      refine ⟨_, _, rfl, by decide, fun rest => ?_⟩
      have hzero : hexPoint (.scalar '0') = some 0 := by
        simp only [hexPoint, JsonText.hexValue, JsonText.digits_eq]
        decide
      have hhi : hexPoint (.scalar (JsonText.hexDigit (c.toNat / 16))) = some (c.toNat / 16) :=
        JsonText.hexValue_hexDigit (by omega)
      have hlo : hexPoint (.scalar (JsonText.hexDigit (c.toNat % 16))) = some (c.toNat % 16) :=
        JsonText.hexValue_hexDigit (by omega)
      have hvalue : ((0 * 16 + 0) * 16 + c.toNat / 16) * 16 + c.toNat % 16 = c.toNat := by omega
      have hread : readEscape (.scalar 'u' :: .scalar '0' :: .scalar '0' ::
          .scalar (JsonText.hexDigit (c.toNat / 16)) ::
          .scalar (JsonText.hexDigit (c.toNat % 16)) :: rest) =
            some (chr (((0 * 16 + 0) * 16 + c.toNat / 16) * 16 + c.toNat % 16), rest) := by
        rw [readEscape, hzero, hhi, hlo]
        rfl
      rw [hvalue, chr_of_lt (by omega), Char.ofNat_toNat] at hread
      exact hread
    · next hquote hbackslash _ _ _ _ _ _ =>
      refine ⟨_, [], rfl, fun h => hquote (CodePoint.scalar.inj h), fun rest => ?_⟩
      exact if_neg fun h => hbackslash (CodePoint.scalar.inj h)

theorem readString_quoted (s rest : Str) : ∀ {n : Nat}, s.length < n →
    readString n (s.flatMap escapePoint ++ mark '"' :: rest) = some (s, rest) := by
  induction s with
  | nil =>
    intro n hn
    obtain ⟨n, rfl⟩ := Nat.exists_eq_succ_of_ne_zero (Nat.ne_of_gt hn)
    rfl
  | cons p s ih =>
    intro n hn
    obtain ⟨n, rfl⟩ := Nat.exists_eq_succ_of_ne_zero (Nat.ne_of_gt (Nat.zero_lt_of_lt hn))
    obtain ⟨q, qs, hshape, hquote, hread⟩ := escapePoint_read p
    rw [List.flatMap_cons, List.append_assoc, hshape, List.cons_append, readString, if_neg hquote,
      hread]
    show (readString n (s.flatMap escapePoint ++ mark '"' :: rest)).bind _ = _
    rw [ih (Nat.lt_of_succ_lt_succ hn)]
    rfl

theorem length_le_escaped (s : Str) : s.length ≤ (s.flatMap escapePoint).length := by
  induction s with
  | nil => exact Nat.le_refl 0
  | cons p s ih =>
    obtain ⟨q, qs, hshape, -⟩ := escapePoint_read p
    rw [List.flatMap_cons, hshape, List.length_append, List.length_cons, List.length_cons]
    omega

/-- A string, with as many steps as there are letters. -/
theorem readString_all (s rest : Str) :
    readString (s.flatMap escapePoint ++ mark '"' :: rest).length
      (s.flatMap escapePoint ++ mark '"' :: rest) = some (s, rest) := by
  refine readString_quoted s rest ?_
  have hle := length_le_escaped s
  rw [List.length_append, List.length_cons]
  omega

theorem quoted_append (s rest : Str) :
    quoted s ++ rest = mark '"' :: (s.flatMap escapePoint ++ mark '"' :: rest) := by
  rw [quoted, List.cons_append, List.append_assoc, List.singleton_append]

/-! ## Values -/

mutual

/-- The steps that a value takes. -/
def size : Value Str N → Nat
  | .array items => 1 + sizeItems items
  | .object members => 1 + sizeMembers members
  | _ => 1

def sizeItems : List (Value Str N) → Nat
  | [] => 1
  | item :: items => size item + sizeItems items

def sizeMembers : List (Str × Value Str N) → Nat
  | [] => 1
  | (_, value) :: members => size value + sizeMembers members

end

theorem size_pos (value : Value Str N) : 0 < size value := by
  cases value with
  | array items => exact Nat.add_pos_left Nat.one_pos _
  | object members => exact Nat.add_pos_left Nat.one_pos _
  | _ => exact Nat.one_pos

theorem sizeItems_pos (items : List (Value Str N)) : 0 < sizeItems items := by
  cases items with
  | nil => exact Nat.one_pos
  | cons item items => exact Nat.add_pos_left (size_pos item) _

theorem sizeMembers_pos (members : List (Str × Value Str N)) : 0 < sizeMembers members := by
  cases members with
  | nil => exact Nat.one_pos
  | cons member members => exact Nat.add_pos_left (size_pos member.2) _

/-- The rest does not prolong a number. -/
def Stops (rest : Str) : Prop := ∀ p, rest.head? = some p → isNumeric p = false

theorem stops_cons {p : CodePoint} {rest : Str} (h : isNumeric p = false) : Stops (p :: rest) := by
  intro q hq
  rw [← Option.some.inj hq]
  exact h

theorem stops_printItems (items : List (Value Str N)) (rest : Str) :
    Stops (printItems numbers false items ++ rest) := by
  cases items with
  | nil => exact stops_cons (by decide)
  | cons item items => exact stops_cons (by decide)

theorem stops_printMembers (members : List (Str × Value Str N)) (rest : Str) :
    Stops (printMembers numbers false members ++ rest) := by
  cases members with
  | nil => exact stops_cons (by decide)
  | cons member members => exact stops_cons (by decide)

/-- A number, up to what does not prolong it. -/
theorem span_number (n : N) {rest : Str} (hstop : Stops rest) :
    (numbers.text n ++ rest).takeWhile isNumeric = numbers.text n ∧
      (numbers.text n ++ rest).dropWhile isNumeric = rest := by
  rw [List.takeWhile_append_of_pos (numbers.numeric n),
    List.dropWhile_append_of_pos (numbers.numeric n)]
  cases rest with
  | nil => exact ⟨List.append_nil _, rfl⟩
  | cons p rest =>
    have hp : isNumeric p = false := hstop p rfl
    rw [List.takeWhile_cons_of_neg (by rw [hp]; exact Bool.false_ne_true),
      List.dropWhile_cons_of_neg (by rw [hp]; exact Bool.false_ne_true), List.append_nil]
    exact ⟨rfl, rfl⟩

/-- A value starts with a letter that closes nothing. -/
theorem head_print (value : Value Str N) : ∃ p ps, print numbers value = p :: ps ∧
    p ≠ mark ']' := by
  cases value with
  | null => exact ⟨_, _, rfl, by decide⟩
  | bool b =>
    cases b with
    | false => exact ⟨_, _, rfl, by decide⟩
    | true => exact ⟨_, _, rfl, by decide⟩
  | number n =>
    obtain ⟨p, ps, htext⟩ := List.exists_cons_of_ne_nil (numbers.ne_nil n)
    refine ⟨p, ps, htext, ?_⟩
    rintro rfl
    have hbad := numbers.numeric n (mark ']') (htext ▸ List.mem_cons_self)
    cases hbad
  | string s => exact ⟨_, _, rfl, by decide⟩
  | array items => exact ⟨_, _, rfl, by decide⟩
  | object members => exact ⟨_, _, rfl, by decide⟩

/-! ## Round trip -/

theorem ofText_null : ofText "null" = [mark 'n', mark 'u', mark 'l', mark 'l'] :=
  congrArg (List.map CodePoint.scalar) String.toList_ofList

theorem ofText_true : ofText "true" = [mark 't', mark 'r', mark 'u', mark 'e'] :=
  congrArg (List.map CodePoint.scalar) String.toList_ofList

theorem ofText_false : ofText "false" = [mark 'f', mark 'a', mark 'l', mark 's', mark 'e'] :=
  congrArg (List.map CodePoint.scalar) String.toList_ofList

theorem readLiteral_null (rest : Str) :
    readLiteral (ofText "null" ++ rest) = some ((.null : Value Str N), rest) := by
  rw [readLiteral, literals, ofText_null]
  rfl

theorem readLiteral_bool (b : Bool) (rest : Str) :
    readLiteral (print numbers (.bool b) ++ rest) = some ((.bool b : Value Str N), rest) := by
  cases b with
  | false =>
    rw [readLiteral, literals, print, ofText_null, ofText_true, ofText_false]
    rfl
  | true =>
    rw [readLiteral, literals, print, ofText_null, ofText_true, ofText_false]
    rfl

/-- What is neither a mark nor a number is read as a word. -/
theorem readValue_literal {p : CodePoint} {n : Nat} {rest : Str}
    (h : p = mark 'n' ∨ p = mark 't' ∨ p = mark 'f') :
    readValue numbers (n + 1) (p :: rest) = readLiteral (p :: rest) := by
  rcases h with rfl | rfl | rfl
  · rfl
  · rfl
  · rfl

theorem readValue_number (k : N) {n : Nat} {rest : Str} (hstop : Stops rest) :
    readValue numbers (n + 1) (numbers.text k ++ rest) = some (.number k, rest) := by
  obtain ⟨htake, hdrop⟩ := span_number numbers k hstop
  obtain ⟨p, ps, htext⟩ := List.exists_cons_of_ne_nil (numbers.ne_nil k)
  have hp : isNumeric p = true := numbers.numeric k p (htext ▸ List.mem_cons_self)
  have hne : ∀ c, isNumeric (mark c) = false → p ≠ mark c := by
    rintro c hc rfl
    rw [hp] at hc
    cases hc
  have hread := numbers.read_text k
  rw [← htake] at hread
  rw [htext, List.cons_append] at hread hdrop ⊢
  rw [readValue, if_neg (hne '"' (by decide)), if_neg (hne '[' (by decide)),
    if_neg (hne '\x7b' (by decide)), if_pos hp, hread, hdrop]
  rfl

mutual

/-- **A value is read back.** -/
theorem readValue_print (value : Value Str N) {n : Nat} {rest : Str} (hn : size value ≤ n)
    (hstop : Stops rest) :
    readValue numbers n (print numbers value ++ rest) = some (value, rest) := by
  obtain ⟨n, rfl⟩ : ∃ k, n = k + 1 :=
    Nat.exists_eq_succ_of_ne_zero (Nat.ne_of_gt (Nat.lt_of_lt_of_le (size_pos value) hn))
  cases value with
  | null =>
    have hliteral := @readLiteral_null N rest
    rw [print]
    rw [ofText_null] at hliteral ⊢
    exact (readValue_literal numbers (.inl rfl)).trans hliteral
  | bool b =>
    have hliteral := @readLiteral_bool N numbers b rest
    cases b with
    | false =>
      rw [print, ofText_false] at hliteral ⊢
      exact (readValue_literal numbers (.inr (.inr rfl))).trans hliteral
    | true =>
      rw [print, ofText_true] at hliteral ⊢
      exact (readValue_literal numbers (.inr (.inl rfl))).trans hliteral
  | number k => exact readValue_number numbers k hstop
  | string s =>
    rw [print, quoted_append, readValue, if_pos rfl, readString_all]
    rfl
  | array items =>
    have hitems := readItems_print items true rest (Nat.le_of_add_le_add_left
      (show 1 + sizeItems items ≤ 1 + n by rw [Nat.add_comm 1 n]; exact hn))
    rw [print, List.cons_append, readValue, if_neg (by decide), if_pos rfl, hitems]
    rfl
  | object members =>
    have hmembers := readMembers_print members true rest (Nat.le_of_add_le_add_left
      (show 1 + sizeMembers members ≤ 1 + n by rw [Nat.add_comm 1 n]; exact hn))
    rw [print, List.cons_append, readValue, if_neg (by decide), if_neg (by decide), if_pos rfl,
      hmembers]
    rfl

theorem readItems_print (items : List (Value Str N)) (first : Bool) {n : Nat} (rest : Str)
    (hn : sizeItems items ≤ n) :
    readItems numbers n first (printItems numbers first items ++ rest) = some (items, rest) := by
  obtain ⟨n, rfl⟩ : ∃ k, n = k + 1 :=
    Nat.exists_eq_succ_of_ne_zero (Nat.ne_of_gt (Nat.lt_of_lt_of_le (sizeItems_pos items) hn))
  cases items with
  | nil => rfl
  | cons item items =>
    have hitem := size_pos item
    have hitems := sizeItems_pos items
    rw [sizeItems] at hn
    obtain ⟨p, ps, hprint, hp⟩ := head_print numbers item
    have hvalue := readValue_print item (show size item ≤ n by omega)
      (stops_printItems numbers items rest)
    have hrest := readItems_print items false rest (show sizeItems items ≤ n by omega)
    have hcomma : readComma first (printItems numbers first (item :: items) ++ rest) =
        some (print numbers item ++ (printItems numbers false items ++ rest)) := by
      cases first with
      | false => simp only [readComma, printItems, List.append_assoc]; rfl
      | true => simp only [readComma, printItems, List.append_assoc]; rfl
    have hhead : (printItems numbers first (item :: items) ++ rest).head? ≠ some (mark ']') := by
      cases first with
      | false => exact fun h => absurd (Option.some.inj h) (by decide)
      | true =>
        rw [printItems, hprint]
        exact fun h => hp (Option.some.inj h)
    rw [readItems, if_neg hhead, hcomma]
    show (readValue numbers n _).bind _ = _
    rw [hvalue]
    show (readItems numbers n false _).bind _ = _
    rw [hrest]
    rfl

theorem readMembers_print (members : List (Str × Value Str N)) (first : Bool) {n : Nat} (rest : Str)
    (hn : sizeMembers members ≤ n) :
    readMembers numbers n first (printMembers numbers first members ++ rest) =
      some (members, rest) := by
  obtain ⟨n, rfl⟩ : ∃ k, n = k + 1 :=
    Nat.exists_eq_succ_of_ne_zero (Nat.ne_of_gt (Nat.lt_of_lt_of_le (sizeMembers_pos members) hn))
  cases members with
  | nil => rfl
  | cons member members =>
    obtain ⟨key, value⟩ := member
    have hpos := size_pos value
    have hmembers := sizeMembers_pos members
    rw [sizeMembers] at hn
    have hvalue := readValue_print value (show size value ≤ n by omega)
      (stops_printMembers numbers members rest)
    have hrest := readMembers_print members false rest (show sizeMembers members ≤ n by omega)
    have hkey := readString_all key
      (mark ':' :: (print numbers value ++ (printMembers numbers false members ++ rest)))
    have hcomma : readComma first (printMembers numbers first ((key, value) :: members) ++ rest) =
        some (quoted key ++ (mark ':' ::
          (print numbers value ++ (printMembers numbers false members ++ rest)))) := by
      cases first with
      | false => simp only [readComma, printMembers, List.append_assoc, List.cons_append]; rfl
      | true => simp only [readComma, printMembers, List.append_assoc, List.cons_append]; rfl
    have hhead : (printMembers numbers first ((key, value) :: members) ++ rest).head? ≠
        some (mark '\x7d') := by
      cases first with
      | false => exact fun h => absurd (Option.some.inj h) (by decide)
      | true => exact fun h => absurd (Option.some.inj h) (by decide)
    rw [readMembers, if_neg hhead, hcomma, quoted_append]
    refine Option.bind_eq_some_iff.mpr ⟨_, rfl, ?_⟩
    refine Option.bind_eq_some_iff.mpr ⟨_, rfl, ?_⟩
    refine Option.bind_eq_some_iff.mpr ⟨_, hkey, ?_⟩
    refine Option.bind_eq_some_iff.mpr ⟨_, rfl, ?_⟩
    refine Option.bind_eq_some_iff.mpr ⟨_, hvalue, ?_⟩
    show (readMembers numbers n false _).bind _ = _
    rw [hrest]
    rfl

end

mutual

theorem size_le_print (value : Value Str N) : size value ≤ (print numbers value).length := by
  have hpos : 1 ≤ (print numbers value).length := by
    obtain ⟨p, ps, hprint, -⟩ := head_print numbers value
    rw [hprint]
    exact Nat.succ_le_succ (Nat.zero_le _)
  cases value with
  | array items =>
    have hitems := sizeItems_le_print items true
    rw [size, print, List.length_cons]
    omega
  | object members =>
    have hmembers := sizeMembers_le_print members true
    rw [size, print, List.length_cons]
    omega
  | _ => exact hpos

theorem sizeItems_le_print (items : List (Value Str N)) (first : Bool) :
    sizeItems items ≤ (printItems numbers first items).length := by
  cases items with
  | nil => exact Nat.le_refl 1
  | cons item items =>
    have hitem := size_le_print item
    have hitems := sizeItems_le_print items false
    rw [sizeItems, printItems, List.length_append, List.length_append]
    omega

theorem sizeMembers_le_print (members : List (Str × Value Str N)) (first : Bool) :
    sizeMembers members ≤ (printMembers numbers first members).length := by
  cases members with
  | nil => exact Nat.le_refl 1
  | cons member members =>
    obtain ⟨key, value⟩ := member
    have hvalue := size_le_print value
    have hmembers := sizeMembers_le_print members false
    rw [sizeMembers, printMembers, List.length_append, List.length_append, List.length_cons,
      List.length_append]
    omega

end

/-- **A whole text is read back.** -/
theorem reads_print (value : Value Str N) : reads numbers (print numbers value) = some value := by
  have hstop : Stops [] := fun p hp => by cases hp
  have hread := readValue_print numbers value (size_le_print numbers value) hstop
  rw [List.append_nil] at hread
  rw [reads, hread]
  rfl

theorem print_injective : Function.Injective (print numbers) := by
  intro value other h
  have hvalue := reads_print numbers value
  rw [h, reads_print] at hvalue
  exact (Option.some.inj hvalue).symm

/-- **`dumps` writes alike exactly what is the same up to the order of members.** -/
theorem dumps_eq_iff {value other : Value Str N} (hdistinct : value.Distinct) :
    dumps numbers value = dumps numbers other ↔ value.Same other := by
  rw [same_iff_sortKeys hdistinct]
  exact (print_injective numbers).eq_iff

/-! ## Integers -/

def intDigits : Int → List Char
  | .ofNat n => (Nat.repr n).toList
  | .negSucc n => '-' :: (Nat.repr (n + 1)).toList

def readInt : List Char → Option Int
  | '-' :: digits => (Numerals.decimal digits).map fun n => -(n : Int)
  | digits => (Numerals.decimal digits).map Int.ofNat

/-- The characters of a text without surrogates. -/
def chars (s : Str) : Option (List Char) := (toText s).map String.toList

theorem chars_map (cs : List Char) : chars (cs.map .scalar) = some cs := by
  have htext := toText_ofText (String.ofList cs)
  rw [ofText, String.toList_ofList] at htext
  rw [chars, htext, Option.map_some, String.toList_ofList]

theorem isDigit_of_mem_repr {n : Nat} {c : Char} (h : c ∈ (Nat.repr n).toList) :
    c.isDigit = true := by
  rw [Nat.toList_repr] at h
  exact Nat.isDigit_of_mem_toDigits (by decide) (by decide) h

theorem readInt_repr (n : Nat) : readInt (Nat.repr n).toList = some n := by
  have hdecimal := Numerals.decimal_repr n
  have hsign : ∀ digits, (Nat.repr n).toList ≠ '-' :: digits := by
    intro digits heq
    have hdigit := @isDigit_of_mem_repr n '-' (heq ▸ List.mem_cons_self)
    cases hdigit
  rw [readInt.eq_2 _ hsign, hdecimal]
  rfl

theorem readInt_intDigits (i : Int) : readInt (intDigits i) = some i := by
  cases i with
  | ofNat n => exact readInt_repr n
  | negSucc n =>
    rw [intDigits, readInt, Numerals.decimal_repr]
    rfl

theorem isNumeric_intDigits (i : Int) : ∀ p ∈ (intDigits i).map CodePoint.scalar,
    isNumeric p = true := by
  intro p hp
  obtain ⟨c, hc, rfl⟩ := List.mem_map.mp hp
  have hdigit : ∀ {n : Nat}, c ∈ (Nat.repr n).toList → isNumeric (.scalar c) = true := by
    intro n hmem
    rw [isNumeric, isDigit_of_mem_repr hmem]
    rfl
  cases i with
  | ofNat n => exact hdigit hc
  | negSucc n =>
    rcases List.mem_cons.mp hc with rfl | hc
    · rfl
    · exact hdigit hc

theorem intDigits_ne_nil (i : Int) : intDigits i ≠ [] := by
  cases i with
  | ofNat n =>
    rw [intDigits, Nat.toList_repr]
    exact Nat.toDigits_ne_nil
  | negSucc n => exact List.cons_ne_nil _ _

/-- `int`. -/
def intText : NumberText Int where
  text i := (intDigits i).map .scalar
  read s := (chars s).bind readInt
  read_text i := (congrArg (Option.bind · readInt) (chars_map _)).trans (readInt_intDigits i)
  numeric := isNumeric_intDigits
  ne_nil i h := intDigits_ne_nil i (List.map_eq_nil_iff.mp h)

end Basecrawl.PyDumps
