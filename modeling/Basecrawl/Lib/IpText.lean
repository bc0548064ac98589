/-
  Textual IP addresses.

  `parseIp` is the parser of the standard library: dotted decimal without leading zeros, or groups of
  up to four hex digits with one `::` for at least one group of zeros and an IPv4 address as the last
  two groups.  It has to read the whole text.  `ofParse` says which characters that leaves: digits
  and dots for IPv4, hex digits, dots and colons for IPv6, where there always is a colon
  (`colon_mem_of_parse_v6`).
-/
import Mathlib.Data.List.TakeWhile
import Basecrawl.Lib.Frames
import Basecrawl.Lib.Hex

namespace Basecrawl.IpText

open Text Frames

/-- `IpAddr`, by its octets. -/
inductive IpAddr where
  | v4 (octets : Bytes) (length : octets.length = 4)
  | v6 (octets : Bytes) (length : octets.length = 16)
deriving DecidableEq

/-! ## The parser -/

abbrev Reader (α : Type) := List Char → Option (α × List Char)

/-- `char::to_digit(radix)`. -/
def toDigit (radix : Nat) (c : Char) : Option Nat :=
  if c.toNat < 128 then (Hex.hexValue (UInt8.ofNat c.toNat)).filter fun d => decide (d < radix)
  else none

/-- `Parser::read_number`, up to `maxDigits` digits of a number below `bound`. -/
def readNumber (radix maxDigits bound : Nat) (allowZeroPrefix : Bool) : Reader Nat := fun cs =>
  let digits := cs.takeWhile fun c => (toDigit radix c).isSome
  let value := (digits.filterMap (toDigit radix)).foldl (fun n d => n * radix + d) 0
  if digits = [] ∨ digits.length > maxDigits ∨ value ≥ bound ∨
      (allowZeroPrefix = false ∧ digits.head? = some '0' ∧ digits.length > 1) then none
  else some (value, cs.drop digits.length)

/-- `Parser::read_given_char`. -/
def readGivenChar (given : Char) : List Char → Option (List Char)
  | c :: cs => if c = given then some cs else none
  | [] => none

/-- `Parser::read_separator`: nothing before the first item. -/
def readSeparator {α : Type} (separator : Char) (first : Bool) (inner : Reader α) : Reader α :=
  fun cs => if first then inner cs else (readGivenChar separator cs).bind inner

def readOctet (first : Bool) : Reader Nat := readSeparator '.' first (readNumber 10 3 256 false)

/-- `Parser::read_ipv4_addr`. -/
def readIpv4 : Reader (List Nat) := fun cs => do
  let (a, cs) ← readOctet true cs
  let (b, cs) ← readOctet false cs
  let (c, cs) ← readOctet false cs
  let (d, cs) ← readOctet false cs
  some ([a, b, c, d], cs)

/-- `read_groups` with `room` groups left: the groups, whether the last two are an embedded IPv4
address, and the rest. -/
def readGroups : Nat → Bool → List Char → List Nat × Bool × List Char
  | 0, _, cs => ([], false, cs)
  | room + 1, first, cs =>
    match (if room = 0 then none else readSeparator ':' first readIpv4 cs) with
    | some (octets, rest) =>
      ([beNat ((octets.take 2).map UInt8.ofNat), beNat ((octets.drop 2).map UInt8.ofNat)], true, rest)
    | none =>
      match readSeparator ':' first (readNumber 16 4 65536 true) cs with
      | some (group, rest) =>
        let more := readGroups room false rest
        (group :: more.1, more.2)
      | none => ([], false, cs)

/-- `Parser::read_ipv6_addr`: eight groups, or fewer with `::` among them. -/
def readIpv6 : Reader (List Nat) := fun cs =>
  let head := readGroups 8 true cs
  if head.1.length = 8 then some (head.1, head.2.2)
  else if head.2.1 then none
  else do
    let cs ← readGivenChar ':' head.2.2
    let cs ← readGivenChar ':' cs
    let tail := readGroups (8 - (head.1.length + 1)) true cs
    some (head.1 ++ List.replicate (8 - head.1.length - tail.1.length) 0 ++ tail.1, tail.2.2)

def ofOctets4 (octets : List Nat) : Option IpAddr :=
  if h : (octets.map UInt8.ofNat).length = 4 then some (.v4 _ h) else none

def ofGroups (groups : List Nat) : Option IpAddr :=
  if h : (groups.flatMap (beBytes 2)).length = 16 then some (.v6 _ h) else none

/-- `str::parse::<IpAddr>()`. -/
def parseIp (text : String) : Option IpAddr :=
  match readIpv4 text.toList with
  | some (octets, rest) => if rest = [] then ofOctets4 octets else none
  | none =>
    match readIpv6 text.toList with
    | some (groups, rest) => if rest = [] then ofGroups groups else none
    | none => none

example : parseIp "127.0.0.1" = some (.v4 [127, 0, 0, 1] rfl) := by decide

example : parseIp "::ffff:1.2.3.4" =
    some (.v6 [0, 0, 0, 0, 0, 0, 0, 0, 0, 0, 0xff, 0xff, 1, 2, 3, 4] rfl) := by decide

example : parseIp "1.2.3.04" = none ∧ parseIp "[::1]" = none ∧ parseIp "1::2::3" = none := by
  decide

/-! ## What is read -/

/-- A character of an IPv4 address. -/
def IsV4Char (c : Char) : Prop := (toDigit 10 c).isSome = true ∨ c = '.'

/-- A character of an IPv6 address. -/
def IsV6Char (c : Char) : Prop := (toDigit 16 c).isSome = true ∨ c = '.' ∨ c = ':'

/-- What was read are characters with `P`, and they stood before the rest. -/
def Takes (P : Char → Prop) (cs rest : List Char) : Prop :=
  ∃ used, cs = used ++ rest ∧ ∀ c ∈ used, P c

variable {α : Type} {P Q : Char → Prop} {cs rest more : List Char}

theorem takes_refl (cs : List Char) : Takes P cs cs :=
  ⟨[], rfl, fun _ hmem => absurd hmem List.not_mem_nil⟩

theorem Takes.trans (h : Takes P cs rest) (h' : Takes P rest more) : Takes P cs more := by
  obtain ⟨used, rfl, hused⟩ := h
  obtain ⟨used', rfl, hused'⟩ := h'
  refine ⟨used ++ used', (List.append_assoc ..).symm, fun c hc => ?_⟩
  rcases List.mem_append.mp hc with hc | hc
  · exact hused c hc
  · exact hused' c hc

theorem Takes.mono (h : Takes P cs rest) (hPQ : ∀ c, P c → Q c) : Takes Q cs rest := by
  obtain ⟨used, hcs, hused⟩ := h
  exact ⟨used, hcs, fun c hc => hPQ c (hused c hc)⟩

theorem Takes.all (h : Takes P cs []) : ∀ c ∈ cs, P c := by
  obtain ⟨used, rfl, hused⟩ := h
  rwa [List.append_nil]

theorem Takes.not_mem (h : Takes P cs rest) {c : Char} (hc : c ∉ cs) : c ∉ rest := by
  obtain ⟨used, rfl, -⟩ := h
  exact fun hmem => hc (List.mem_append_right used hmem)

theorem takes_number {radix maxDigits bound : Nat} {allowZeroPrefix : Bool} {n : Nat}
    (h : readNumber radix maxDigits bound allowZeroPrefix cs = some (n, rest)) :
    Takes (fun c => (toDigit radix c).isSome = true) cs rest := by
  rw [readNumber, Option.ite_none_left_eq_some] at h
  obtain ⟨-, h⟩ := h
  cases h
  refine ⟨cs.takeWhile fun c => (toDigit radix c).isSome, ?_, fun c hc => ?_⟩
  · exact (List.prefix_iff_eq_append.mp (List.takeWhile_prefix _)).symm
  · exact List.mem_takeWhile_imp (p := fun c => (toDigit radix c).isSome) hc

theorem takes_givenChar {given : Char} (h : readGivenChar given cs = some rest) :
    Takes (fun c => c = given) cs rest := by
  cases cs with
  | nil => cases h
  | cons c cs =>
    rw [readGivenChar, Option.ite_none_right_eq_some] at h
    obtain ⟨rfl, h⟩ := h
    cases h
    exact ⟨[c], rfl, fun d hd => List.mem_singleton.mp hd⟩

theorem takes_separator {separator : Char} {first : Bool} {inner : Reader α} {a : α}
    (hsep : P separator) (hinner : ∀ {cs rest : List Char} {a : α},
      inner cs = some (a, rest) → Takes P cs rest)
    (h : readSeparator separator first inner cs = some (a, rest)) : Takes P cs rest := by
  cases first with
  | true => exact hinner h
  | false =>
    obtain ⟨next, hgiven, hnext⟩ := Option.bind_eq_some_iff.mp h
    refine ((takes_givenChar hgiven).mono ?_).trans (hinner hnext)
    rintro c rfl
    exact hsep

theorem takes_octet {first : Bool} {n : Nat} (h : readOctet first cs = some (n, rest)) :
    Takes IsV4Char cs rest :=
  takes_separator (.inr rfl) (fun h => (takes_number h).mono fun _ => .inl) h

theorem takes_ipv4 {octets : List Nat} (h : readIpv4 cs = some (octets, rest)) :
    Takes IsV4Char cs rest := by
  simp only [readIpv4, Option.bind_eq_bind, Option.bind_eq_some_iff] at h
  obtain ⟨⟨a, cs1⟩, ha, ⟨b, cs2⟩, hb, ⟨c, cs3⟩, hc, ⟨d, cs4⟩, hd, h⟩ := h
  cases h
  exact (((takes_octet ha).trans (takes_octet hb)).trans (takes_octet hc)).trans (takes_octet hd)

theorem isV6Char_of_v4 {c : Char} (h : IsV4Char c) : IsV6Char c := by
  rcases h with h | h
  · left
    rw [toDigit] at h ⊢
    split at h
    · next hascii =>
      rw [if_pos hascii]
      obtain ⟨d, hd⟩ := Option.isSome_iff_exists.mp h
      obtain ⟨hvalue, hlt⟩ := Option.filter_eq_some_iff.mp hd
      have hten := of_decide_eq_true hlt
      rw [hvalue, Option.filter_some, if_pos (decide_eq_true (by omega))]
      rfl
    · cases h
  · exact .inr (.inl h)

theorem takes_groups : ∀ {room : Nat} {first : Bool} {cs : List Char},
    Takes IsV6Char cs (readGroups room first cs).2.2
  | 0, _, cs => takes_refl cs
  | room + 1, first, cs => by
    have hsep : IsV6Char ':' := .inr (.inr rfl)
    rw [readGroups]
    split
    · next octets rest hipv4 =>
      rw [Option.ite_none_left_eq_some] at hipv4
      exact takes_separator hsep (fun h => (takes_ipv4 h).mono fun _ => isV6Char_of_v4) hipv4.2
    · split
      · next group rest hgroup =>
        exact (takes_separator hsep (fun h => (takes_number h).mono fun _ => .inl) hgroup).trans
          takes_groups
      · exact takes_refl cs

theorem takes_ipv6 {groups : List Nat} (h : readIpv6 cs = some (groups, rest)) :
    Takes IsV6Char cs rest := by
  have hhead := @takes_groups 8 true cs
  have hcolon : ∀ c, c = ':' → IsV6Char c := fun c hc => .inr (.inr hc)
  rw [readIpv6] at h
  split at h
  · cases h
    exact hhead
  · rw [Option.ite_none_left_eq_some] at h
    obtain ⟨-, h⟩ := h
    simp only [Option.bind_eq_bind, Option.bind_eq_some_iff] at h
    obtain ⟨cs1, h1, cs2, h2, h⟩ := h
    cases h
    exact ((hhead.trans ((takes_givenChar h1).mono hcolon)).trans
      ((takes_givenChar h2).mono hcolon)).trans takes_groups

/-! ## A colon in every IPv6 address -/

theorem readGivenChar_none {given : Char} (h : given ∉ cs) : readGivenChar given cs = none := by
  cases cs with
  | nil => rfl
  | cons c cs =>
    rw [readGivenChar, if_neg]
    rintro rfl
    exact h List.mem_cons_self

theorem readSeparator_none {separator : Char} {inner : Reader α} (h : separator ∉ cs) :
    readSeparator separator false inner cs = none := by
  rw [readSeparator, if_neg Bool.false_ne_true, readGivenChar_none h, Option.bind_none]

theorem readGroups_stops (room : Nat) (h : ':' ∉ cs) : readGroups room false cs = ([], false, cs) := by
  cases room with
  | zero => rfl
  | succ room => rw [readGroups, readSeparator_none h, ite_self, readSeparator_none h]

/-- Without a colon there are at most the two groups of an embedded IPv4 address. -/
theorem readGroups_few (room : Nat) (h : ':' ∉ cs) : (readGroups room true cs).1.length ≤ 2 := by
  cases room with
  | zero => exact Nat.zero_le 2
  | succ room =>
    rw [readGroups]
    split
    · exact Nat.le_refl 2
    · split
      · next group rest hgroup =>
        have hrest : ':' ∉ rest :=
          (takes_number (show readNumber 16 4 65536 true cs = some (group, rest) from hgroup)).not_mem h
        rw [readGroups_stops room hrest]
        exact Nat.le_succ 1
      · exact Nat.zero_le 2

theorem readIpv6_none (h : ':' ∉ cs) : readIpv6 cs = none := by
  have hfew := readGroups_few 8 h
  have hrest := (@takes_groups 8 true cs).not_mem h
  rw [readIpv6]
  simp only
  rw [if_neg (by omega), readGivenChar_none hrest]
  exact ite_self none

theorem parseIp_v4 {text : String} {octets : Bytes} {h : octets.length = 4}
    (hparse : parseIp text = some (.v4 octets h)) : ∀ c ∈ text.toList, IsV4Char c := by
  rw [parseIp] at hparse
  split at hparse
  · next values rest hread =>
    rw [Option.ite_none_right_eq_some] at hparse
    obtain ⟨rfl, -⟩ := hparse
    exact (takes_ipv4 hread).all
  · split at hparse
    · rw [Option.ite_none_right_eq_some, ofGroups] at hparse
      obtain ⟨-, hparse⟩ := hparse
      split at hparse <;> cases hparse
    · cases hparse

theorem parseIp_v6 {text : String} {octets : Bytes} {h : octets.length = 16}
    (hparse : parseIp text = some (.v6 octets h)) :
    (∀ c ∈ text.toList, IsV6Char c) ∧ ':' ∈ text.toList := by
  rw [parseIp] at hparse
  split at hparse
  · rw [Option.ite_none_right_eq_some, ofOctets4] at hparse
    obtain ⟨-, hparse⟩ := hparse
    split at hparse <;> cases hparse
  · split at hparse
    · next groups rest hread =>
      rw [Option.ite_none_right_eq_some] at hparse
      obtain ⟨rfl, -⟩ := hparse
      refine ⟨(takes_ipv6 hread).all, ?_⟩
      by_contra hcolon
      rw [readIpv6_none hcolon] at hread
      cases hread
    · cases hparse

/-- A character that no address has. -/
theorem parseIp_none {text : String} {c : Char} (hmem : c ∈ text.toList) (hc : ¬ IsV6Char c) :
    parseIp text = none := by
  cases hparse : parseIp text with
  | none => rfl
  | some address =>
    cases address with
    | v4 octets h => exact absurd (isV6Char_of_v4 (parseIp_v4 hparse c hmem)) hc
    | v6 octets h => exact absurd ((parseIp_v6 hparse).1 c hmem) hc

/-! ## How long an address is -/

theorem isV6Char_ascii {c : Char} (h : IsV6Char c) : c.toNat < 128 := by
  rcases h with h | rfl | rfl
  · by_contra hlt
    rw [toDigit, if_neg hlt] at h
    cases h
  · decide
  · decide

theorem length_number {radix maxDigits bound : Nat} {allowZeroPrefix : Bool} {n : Nat}
    (h : readNumber radix maxDigits bound allowZeroPrefix cs = some (n, rest)) :
    cs.length ≤ maxDigits + rest.length := by
  rw [readNumber, Option.ite_none_left_eq_some] at h
  obtain ⟨hguard, h⟩ := h
  simp only [Option.some.injEq, Prod.mk.injEq] at h
  have hdigits := not_lt.mp fun hlong => hguard (.inr (.inl hlong))
  have hrest := congrArg List.length h.2
  rw [List.length_drop] at hrest
  omega

theorem length_separator {separator : Char} {first : Bool} {inner : Reader α} {a : α} {k : Nat}
    (hinner : ∀ {cs rest : List Char} {a : α}, inner cs = some (a, rest) →
      cs.length ≤ k + rest.length)
    (h : readSeparator separator first inner cs = some (a, rest)) :
    cs.length ≤ k + 1 + rest.length := by
  cases first with
  | true =>
    have hlen := hinner h
    omega
  | false =>
    obtain ⟨next, hgiven, hnext⟩ := Option.bind_eq_some_iff.mp h
    have hlen := hinner hnext
    cases cs with
    | nil => cases hgiven
    | cons c cs =>
      rw [readGivenChar, Option.ite_none_right_eq_some] at hgiven
      obtain ⟨-, hgiven⟩ := hgiven
      cases hgiven
      rw [List.length_cons]
      omega

theorem length_octet {first : Bool} {n : Nat} (h : readOctet first cs = some (n, rest)) :
    cs.length ≤ 4 + rest.length := length_separator (fun h => length_number h) h

theorem length_ipv4 {octets : List Nat} (h : readIpv4 cs = some (octets, rest)) :
    cs.length ≤ 16 + rest.length := by
  simp only [readIpv4, Option.bind_eq_bind, Option.bind_eq_some_iff] at h
  obtain ⟨⟨a, cs1⟩, ha, ⟨b, cs2⟩, hb, ⟨c, cs3⟩, hc, ⟨d, cs4⟩, hd, h⟩ := h
  cases h
  have ha := length_octet ha
  have hb := length_octet hb
  have hc := length_octet hc
  have hd := length_octet hd
  simp only at hb hc hd ⊢
  omega

theorem length_groups : ∀ {room : Nat} {first : Bool} {cs : List Char},
    cs.length ≤ 5 * room + 12 + (readGroups room first cs).2.2.length
  | 0, _, cs => Nat.le_add_left ..
  | room + 1, first, cs => by
    rw [readGroups]
    split
    · next octets rest hipv4 =>
      rw [Option.ite_none_left_eq_some] at hipv4
      have hlen := length_separator (fun h => length_ipv4 h) hipv4.2
      simp only
      omega
    · split
      · next group rest hgroup =>
        have hlen := length_separator (fun h => length_number h) hgroup
        have hmore := @length_groups room false rest
        simp only
        omega
      · exact Nat.le_add_left ..

theorem length_givenChar {given : Char} (h : readGivenChar given cs = some rest) :
    cs.length = 1 + rest.length := by
  cases cs with
  | nil => cases h
  | cons c cs =>
    rw [readGivenChar, Option.ite_none_right_eq_some] at h
    obtain ⟨-, h⟩ := h
    cases h
    rw [List.length_cons, Nat.add_comm]

theorem length_ipv6 {groups : List Nat} (h : readIpv6 cs = some (groups, rest)) :
    cs.length ≤ 101 + rest.length := by
  have hhead := @length_groups 8 true cs
  rw [readIpv6] at h
  split at h
  · cases h
    omega
  · rw [Option.ite_none_left_eq_some] at h
    obtain ⟨-, h⟩ := h
    simp only [Option.bind_eq_bind, Option.bind_eq_some_iff] at h
    obtain ⟨cs1, h1, cs2, h2, h⟩ := h
    cases h
    have htail := @length_groups (8 - ((readGroups 8 true cs).1.length + 1)) true cs2
    have h1 := length_givenChar h1
    have h2 := length_givenChar h2
    omega

/-- **An address is short.** -/
theorem length_parseIp {text : String} {address : IpAddr} (h : parseIp text = some address) :
    (utf8 text).length ≤ 101 := by
  have hchars : ∀ c ∈ text.toList, c.toNat < 128 := by
    intro c hc
    cases address with
    | v4 octets hlength => exact isV6Char_ascii (isV6Char_of_v4 (parseIp_v4 h c hc))
    | v6 octets hlength => exact isV6Char_ascii ((parseIp_v6 h).1 c hc)
  rw [utf8_ascii hchars, List.length_map]
  rw [parseIp] at h
  split at h
  · next octets rest hread =>
    rw [Option.ite_none_right_eq_some] at h
    obtain ⟨rfl, -⟩ := h
    have hlen := length_ipv4 hread
    rw [List.length_nil] at hlen
    omega
  · split at h
    · next groups rest hread =>
      rw [Option.ite_none_right_eq_some] at h
      obtain ⟨rfl, -⟩ := h
      exact length_ipv6 hread
    · cases h

end Basecrawl.IpText
