/-
  The text of a JSON tree as `serde_json::to_string` writes it: compact, members in the order they
  are in.

  1. **Numbers** — integers in digits, floats as the float printer writes them; no two numbers are
     written alike (`numberText_injective`).
  2. **Trees** — the text is the one Python writes of the same value (`print_eq`), so no two trees
     are written alike (`print_injective`).
-/
import Basecrawl.Lib.Json
import Basecrawl.Lib.PyDumps

namespace Basecrawl.JsonPrint

open Json PyStr

/-! ## Numbers -/

/-- The printer of finite floats: distinct ones are written apart, in the letters of a number, after
an optional sign with a digit in front and with a point or an exponent. -/
structure FloatText where
  text : UInt64 → List Char
  injOn : ∀ {a b}, (Number.float a).wellFormed = true → (Number.float b).wellFormed = true →
    text a = text b → a = b
  numeric : ∀ bits, ∀ c ∈ text bits, PyDumps.isNumeric (.scalar c) = true
  marked : ∀ bits, ∃ c ∈ text bits, c = '.' ∨ c = 'e'
  digit : ∀ bits, ∃ c cs, c.isDigit = true ∧ (text bits = c :: cs ∨ text bits = '-' :: c :: cs)

variable (floats : FloatText)

/-- `Number`; a negative integer is negative and a float finite, the other lines are never met. -/
def numberText : Number → List Char
  | .posInt n => (Nat.repr n.toNat).toList
  | .negInt n =>
      if n < 0 then '-' :: (Nat.repr n.toInt.natAbs).toList
      else '-' :: '-' :: (Nat.repr n.toInt.natAbs).toList
  | .float bits =>
      if (Number.float bits).wellFormed then floats.text bits
      else 'e' :: (Nat.repr bits.toNat).toList

/-- A point or an exponent. -/
def isMarked (text : List Char) : Bool := text.any fun c => c == '.' || c == 'e'

/-- What a text tells of its number: a float has a point or an exponent, a negative integer a sign. -/
def kind (text : List Char) : Nat :=
  if text.head? = some 'e' then 4
  else if ['-', '-'].isPrefixOf text then 3
  else if isMarked text then 2
  else if text.head? = some '-' then 1
  else 0

theorem digit_plain {c : Char} (h : c.isDigit = true) : c ≠ '-' ∧ c ≠ '.' ∧ c ≠ 'e' := by
  refine ⟨?_, ?_, ?_⟩ <;> rintro rfl <;> cases h

theorem isDigit_of_mem_repr {n : Nat} {c : Char} (h : c ∈ (Nat.repr n).toList) :
    c.isDigit = true := by
  rw [Nat.toList_repr] at h
  exact Nat.isDigit_of_mem_toDigits (by decide) (by decide) h

theorem repr_cons (n : Nat) : ∃ c cs, (Nat.repr n).toList = c :: cs ∧ c.isDigit = true := by
  have hne : (Nat.repr n).toList ≠ [] := by
    rw [Nat.toList_repr]
    exact Nat.toDigits_ne_nil
  obtain ⟨c, cs, hcs⟩ := List.exists_cons_of_ne_nil hne
  exact ⟨c, cs, hcs, isDigit_of_mem_repr (hcs ▸ List.mem_cons_self)⟩

theorem repr_unmarked (n : Nat) : isMarked (Nat.repr n).toList = false := by
  refine List.any_eq_false.mpr fun c hc hmark => ?_
  have hplain := digit_plain (isDigit_of_mem_repr hc)
  rcases Bool.or_eq_true_iff.mp hmark with h | h
  · exact hplain.2.1 (eq_of_beq h)
  · exact hplain.2.2 (eq_of_beq h)

/-- A digit in front: an integer, or a float. -/
theorem kind_digit {c : Char} (hc : c.isDigit = true) (cs : List Char) :
    kind (c :: cs) = if isMarked (c :: cs) then 2 else 0 := by
  have hplain := digit_plain hc
  have hletter : (c :: cs).head? ≠ some 'e' := fun h => hplain.2.2 (Option.some.inj h)
  have hsign : (c :: cs).head? ≠ some '-' := fun h => hplain.1 (Option.some.inj h)
  have hsigns : ['-', '-'].isPrefixOf (c :: cs) = false := by
    rw [List.isPrefixOf, beq_false_of_ne (Ne.symm hplain.1), Bool.false_and]
  rw [kind, if_neg hletter, hsigns, if_neg Bool.false_ne_true, if_neg hsign]

/-- A sign and a digit in front: the same with a sign. -/
theorem kind_sign {c : Char} (hc : c.isDigit = true) (cs : List Char) :
    kind ('-' :: c :: cs) = if isMarked ('-' :: c :: cs) then 2 else 1 := by
  have hplain := digit_plain hc
  have hletter : ('-' :: c :: cs).head? ≠ some 'e' := fun h =>
    absurd (Option.some.inj h) (by decide)
  have hsigns : ['-', '-'].isPrefixOf ('-' :: c :: cs) = false := by
    rw [List.isPrefixOf, List.isPrefixOf, beq_false_of_ne (Ne.symm hplain.1), Bool.false_and,
      Bool.and_false]
  rw [kind, if_neg hletter, hsigns, if_neg Bool.false_ne_true]
  rfl

theorem kind_digits (n : Nat) : kind (Nat.repr n).toList = 0 := by
  obtain ⟨c, cs, hcs, hc⟩ := repr_cons n
  have hmarks := repr_unmarked n
  rw [hcs] at hmarks ⊢
  rw [kind_digit hc, hmarks, if_neg Bool.false_ne_true]

theorem kind_signed (n : Nat) : kind ('-' :: (Nat.repr n).toList) = 1 := by
  obtain ⟨c, cs, hcs, hc⟩ := repr_cons n
  have hmarks : isMarked ('-' :: (Nat.repr n).toList) = false := repr_unmarked n
  rw [hcs] at hmarks ⊢
  rw [kind_sign hc, hmarks, if_neg Bool.false_ne_true]

theorem kind_float (bits : UInt64) : kind (floats.text bits) = 2 := by
  obtain ⟨m, hm, hmark⟩ := floats.marked bits
  obtain ⟨c, cs, hc, htext⟩ := floats.digit bits
  have hmarks : isMarked (floats.text bits) = true := by
    refine List.any_eq_true.mpr ⟨m, hm, ?_⟩
    rcases hmark with rfl | rfl
    · rfl
    · rfl
  rcases htext with htext | htext
  · rw [htext] at hmarks ⊢
    rw [kind_digit hc, if_pos hmarks]
  · rw [htext] at hmarks ⊢
    rw [kind_sign hc, if_pos hmarks]

/-- The kind of a number. -/
def Number.kind : Number → Nat
  | .posInt _ => 0
  | .negInt n => if n < 0 then 1 else 3
  | .float bits => if (Number.float bits).wellFormed then 2 else 4

theorem kind_numberText (n : Number) : kind (numberText floats n) = Number.kind n := by
  cases n with
  | posInt n => exact kind_digits _
  | negInt n =>
    rw [numberText, Number.kind]
    split
    · exact kind_signed _
    · rfl
  | float bits =>
    rw [numberText, Number.kind]
    split
    · exact kind_float floats bits
    · rfl

theorem natAbs_injOn {m n : Int} (h : (m < 0 ∧ n < 0) ∨ (¬ m < 0 ∧ ¬ n < 0))
    (habs : m.natAbs = n.natAbs) : m = n := by
  omega

theorem repr_toList_injective {m n : Nat} (h : (Nat.repr m).toList = (Nat.repr n).toList) :
    m = n := Numerals.repr_injective (String.toList_inj.mp h)

/-- **No two numbers are written alike.** -/
theorem numberText_injective : Function.Injective (numberText floats) := by
  intro m n h
  have hkind := congrArg kind h
  rw [kind_numberText, kind_numberText] at hkind
  cases m with
  | posInt m =>
    cases n with
    | posInt n => exact congrArg Number.posInt (UInt64.toNat_inj.mp (repr_toList_injective h))
    | negInt n =>
      simp only [Number.kind] at hkind
      split at hkind <;> cases hkind
    | float n =>
      simp only [Number.kind] at hkind
      split at hkind <;> cases hkind
  | negInt m =>
    cases n with
    | posInt n =>
      simp only [Number.kind] at hkind
      split at hkind <;> cases hkind
    | negInt n =>
      have hnegative : ∀ k : Int64, k < 0 ↔ k.toInt < 0 := fun k => Int64.lt_iff_toInt_lt
      simp only [numberText, Number.kind] at h hkind
      by_cases hm : m < 0
      · by_cases hn : n < 0
        · rw [if_pos hm, if_pos hn] at h
          have habs := repr_toList_injective (List.cons.inj h).2
          have hints := natAbs_injOn
            (Or.inl ⟨(hnegative m).mp hm, (hnegative n).mp hn⟩) habs
          exact congrArg Number.negInt (Int64.toInt_inj.mp hints)
        · rw [if_pos hm, if_neg hn] at hkind
          cases hkind
      · by_cases hn : n < 0
        · rw [if_neg hm, if_pos hn] at hkind
          cases hkind
        · rw [if_neg hm, if_neg hn] at h
          have habs := repr_toList_injective (List.cons.inj (List.cons.inj h).2).2
          have hints := natAbs_injOn
            (Or.inr ⟨(not_congr (hnegative m)).mp hm, (not_congr (hnegative n)).mp hn⟩) habs
          exact congrArg Number.negInt (Int64.toInt_inj.mp hints)
    | float n =>
      simp only [Number.kind] at hkind
      split at hkind <;> split at hkind <;> cases hkind
  | float m =>
    cases n with
    | posInt n =>
      simp only [Number.kind] at hkind
      split at hkind <;> cases hkind
    | negInt n =>
      simp only [Number.kind] at hkind
      split at hkind <;> split at hkind <;> cases hkind
    | float n =>
      simp only [numberText, Number.kind] at h hkind
      by_cases hm : (Number.float m).wellFormed = true
      · by_cases hn : (Number.float n).wellFormed = true
        · rw [if_pos hm, if_pos hn] at h
          exact congrArg Number.float (floats.injOn hm hn h)
        · rw [if_pos hm, if_neg hn] at hkind
          cases hkind
      · by_cases hn : (Number.float n).wellFormed = true
        · rw [if_neg hm, if_pos hn] at hkind
          cases hkind
        · rw [if_neg hm, if_neg hn] at h
          have hsame := repr_toList_injective (List.cons.inj h).2
          exact congrArg Number.float (UInt64.toNat_inj.mp hsame)

/-! ## Trees -/

mutual

/-- `serde_json::to_string`. -/
def print : Tree → List Char
  | .null => ['n', 'u', 'l', 'l']
  | .bool true => ['t', 'r', 'u', 'e']
  | .bool false => ['f', 'a', 'l', 's', 'e']
  | .number n => numberText floats n
  | .string s => JsonText.quoted s.toList
  | .array items => '[' :: printItems true items
  | .object members => '\x7b' :: printMembers true members

/-- Items up to the closing bracket, each but the first behind a comma. -/
def printItems : Bool → List Tree → List Char
  | _, [] => [']']
  | first, item :: items =>
      (if first then [] else [',']) ++ (print item ++ printItems false items)

def printMembers : Bool → List (String × Tree) → List Char
  | _, [] => ['\x7d']
  | first, (key, value) :: members =>
      (if first then [] else [',']) ++
        (JsonText.quoted key.toList ++ (':' :: (print value ++ printMembers false members)))

end

mutual

/-- The same value in Python. -/
def toPy : Tree → PyValue.Value Str Number
  | .null => .null
  | .bool b => .bool b
  | .number n => .number n
  | .string s => .string (ofText s)
  | .array items => .array (toPyItems items)
  | .object members => .object (toPyMembers members)

def toPyItems : List Tree → List (PyValue.Value Str Number)
  | [] => []
  | item :: items => toPy item :: toPyItems items

def toPyMembers : List (String × Tree) → List (Str × PyValue.Value Str Number)
  | [] => []
  | (key, value) :: members => (ofText key, toPy value) :: toPyMembers members

end

mutual

theorem toPy_injective : ∀ {s t : Tree}, toPy s = toPy t → s = t
  | .null, t, h => by
    cases t <;> simp only [toPy, reduceCtorEq] at h ⊢
  | .bool b, t, h => by
    cases t <;> simp only [toPy, reduceCtorEq, PyValue.Value.bool.injEq] at h ⊢
    rw [h]
  | .number n, t, h => by
    cases t <;> simp only [toPy, reduceCtorEq, PyValue.Value.number.injEq] at h ⊢
    rw [h]
  | .string s, t, h => by
    cases t <;> simp only [toPy, reduceCtorEq, PyValue.Value.string.injEq] at h ⊢
    rw [ofText_injective h]
  | .array items, t, h => by
    cases t <;> simp only [toPy, reduceCtorEq, PyValue.Value.array.injEq] at h ⊢
    rw [toPyItems_injective h]
  | .object members, t, h => by
    cases t <;> simp only [toPy, reduceCtorEq, PyValue.Value.object.injEq] at h ⊢
    rw [toPyMembers_injective h]

theorem toPyItems_injective : ∀ {s t : List Tree}, toPyItems s = toPyItems t → s = t
  | [], t, h => by
    cases t with
    | nil => rfl
    | cons item items => cases h
  | item :: items, t, h => by
    cases t with
    | nil => cases h
    | cons item' items' =>
      rw [toPyItems, toPyItems] at h
      rw [toPy_injective (List.cons.inj h).1, toPyItems_injective (List.cons.inj h).2]

theorem toPyMembers_injective : ∀ {s t : List (String × Tree)},
    toPyMembers s = toPyMembers t → s = t
  | [], t, h => by
    cases t with
    | nil => rfl
    | cons member members => cases h
  | (key, value) :: members, t, h => by
    cases t with
    | nil => cases h
    | cons member' members' =>
      obtain ⟨key', value'⟩ := member'
      rw [toPyMembers, toPyMembers] at h
      have hmember := Prod.mk.inj (List.cons.inj h).1
      rw [ofText_injective hmember.1, toPy_injective hmember.2,
        toPyMembers_injective (List.cons.inj h).2]

end

/-- The numbers of Python, written as `serde_json` writes them. -/
noncomputable def numbers : PyDumps.NumberText Number where
  text n := (numberText floats n).map .scalar
  read := Function.partialInv fun n => (numberText floats n).map .scalar
  read_text n := by
    refine Function.partialInv_left (fun a b h => numberText_injective floats ?_) n
    exact List.map_injective_iff.mpr (fun _ _ hc => CodePoint.scalar.inj hc) h
  numeric n := by
    intro p hp
    obtain ⟨c, hc, rfl⟩ := List.mem_map.mp hp
    have hdigit : ∀ c : Char, c.isDigit = true → PyDumps.isNumeric (.scalar c) = true := by
      intro c hc
      rw [PyDumps.isNumeric, hc]
      rfl
    cases n with
    | posInt n => exact hdigit c (isDigit_of_mem_repr hc)
    | negInt n =>
      rw [numberText] at hc
      split at hc
      · rcases List.mem_cons.mp hc with rfl | hc
        · rfl
        · exact hdigit c (isDigit_of_mem_repr hc)
      · rcases List.mem_cons.mp hc with rfl | hc
        · rfl
        · rcases List.mem_cons.mp hc with rfl | hc
          · rfl
          · exact hdigit c (isDigit_of_mem_repr hc)
    | float bits =>
      rw [numberText] at hc
      split at hc
      · exact floats.numeric bits c hc
      · rcases List.mem_cons.mp hc with rfl | hc
        · rfl
        · exact hdigit c (isDigit_of_mem_repr hc)
  ne_nil n := by
    intro h
    have htext : numberText floats n = [] := List.map_eq_nil_iff.mp h
    cases n with
    | posInt n =>
      obtain ⟨c, cs, hcs, -⟩ := repr_cons n.toNat
      rw [numberText, hcs] at htext
      cases htext
    | negInt n =>
      rw [numberText] at htext
      split at htext <;> cases htext
    | float bits =>
      rw [numberText] at htext
      split at htext
      · obtain ⟨c, cs, -, hcs | hcs⟩ := floats.digit bits
        · rw [hcs] at htext
          cases htext
        · rw [hcs] at htext
          cases htext
      · cases htext

theorem quoted_eq (s : String) :
    (JsonText.quoted s.toList).map CodePoint.scalar = PyDumps.quoted (ofText s) := by
  have hchars : ∀ cs : List Char, (cs.flatMap JsonText.escapeChar).map CodePoint.scalar =
      (cs.map CodePoint.scalar).flatMap PyDumps.escapePoint := by
    intro cs
    induction cs with
    | nil => rfl
    | cons c cs ih =>
      rw [List.flatMap_cons, List.map_append, ih, List.map_cons, List.flatMap_cons]
      rfl
  rw [JsonText.quoted, List.map_cons, List.map_append, hchars]
  rfl

mutual

/-- **The text is the one Python writes.** -/
theorem print_eq : ∀ tree : Tree,
    (print floats tree).map CodePoint.scalar = PyDumps.print (numbers floats) (toPy tree)
  | .null => PyDumps.ofText_null.symm
  | .bool true => PyDumps.ofText_true.symm
  | .bool false => PyDumps.ofText_false.symm
  | .number n => rfl
  | .string s => quoted_eq s
  | .array items => by
    rw [print, List.map_cons, printItems_eq, toPy, PyDumps.print]
    rfl
  | .object members => by
    rw [print, List.map_cons, printMembers_eq, toPy, PyDumps.print]
    rfl

theorem printItems_eq : ∀ (first : Bool) (items : List Tree),
    (printItems floats first items).map CodePoint.scalar =
      PyDumps.printItems (numbers floats) first (toPyItems items)
  | first, [] => rfl
  | first, item :: items => by
    rw [printItems, List.map_append, List.map_append, print_eq, printItems_eq, toPyItems,
      PyDumps.printItems]
    cases first with
    | true => rfl
    | false => rfl

theorem printMembers_eq : ∀ (first : Bool) (members : List (String × Tree)),
    (printMembers floats first members).map CodePoint.scalar =
      PyDumps.printMembers (numbers floats) first (toPyMembers members)
  | first, [] => rfl
  | first, (key, value) :: members => by
    rw [printMembers, List.map_append, List.map_append, quoted_eq, List.map_cons, List.map_append,
      print_eq, printMembers_eq, toPyMembers, PyDumps.printMembers]
    cases first with
    | true => rfl
    | false => rfl

end

/-- **No two trees are written alike.** -/
theorem print_injective {s t : Tree} (h : print floats s = print floats t) : s = t := by
  refine toPy_injective (PyDumps.print_injective (numbers floats) ?_)
  rw [← print_eq, ← print_eq, h]

end Basecrawl.JsonPrint
