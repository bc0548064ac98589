/-
  The host and the port of a URI authority.

  `parseAuthority` reads `host ":" port`: an IP literal stands in brackets, an IPv4 address and a
  registered name do not, and neither of these has a colon.  It reads back what is written in that
  form (`parseAuthority_literal`, `parseAuthority_v4`, `parseAuthority_name`); an IPv6 address
  without its brackets is no authority (`parseAuthority_bare`).
-/
import Basecrawl.Lib.IpText
import Basecrawl.Lib.Numerals

namespace Basecrawl.Authority

open Text IpText Numerals

/-! ## The parser -/

inductive Host where
  | ip (address : IpAddr)
  | name (text : String)
deriving DecidableEq

/-- `unreserved / sub-delims`. -/
def isRegNameChar (c : Char) : Bool :=
  (c.toNat < 128 && c.isAlphanum) || "-._~!$&'()*+,;=".toList.contains c

/-- What stands without brackets. -/
def bareHost (text : String) : Host :=
  match parseIp text with
  | some address => .ip address
  | none => .name text

/-- `":" port` at the end. -/
def portAfter : List Char → Option Nat
  | ':' :: port => decimal port
  | _ => none

/-- `"[" IPv6address "]" ":" port`, behind the bracket. -/
def parseLiteral (cs : List Char) : Option (Host × Nat) :=
  let inner := cs.takeWhile fun c => c != ']'
  match parseIp (String.ofList inner) with
  | some (.v6 octets length) =>
    (portAfter (cs.drop (inner.length + 1))).map fun port => (.ip (.v6 octets length), port)
  | _ => none

/-- `(IPv4address / reg-name) ":" port`. -/
def parseBare (cs : List Char) : Option (Host × Nat) :=
  let host := cs.takeWhile fun c => c != ':'
  if host.all isRegNameChar then
    (portAfter (cs.drop host.length)).map fun port => (bareHost (String.ofList host), port)
  else none

def parseAuthority (authority : String) : Option (Host × Nat) :=
  if authority.toList.head? = some '[' then parseLiteral (authority.toList.drop 1)
  else parseBare authority.toList

example : parseAuthority "[::1]:443" =
    some (.ip (.v6 [0, 0, 0, 0, 0, 0, 0, 0, 0, 0, 0, 0, 0, 0, 0, 1] rfl), 443) := by decide

/-! ## What is read -/

theorem takeWhile_ne {c : Char} {front rest : List Char} (h : c ∉ front) :
    (front ++ c :: rest).takeWhile (fun d => d != c) = front := by
  rw [List.takeWhile_append_of_pos]
  · simp
  · intro d hd
    simp only [bne_iff_ne, ne_eq]
    rintro rfl
    exact h hd

/-- **An IPv6 literal in brackets.** -/
theorem parseAuthority_literal {text : String} {octets : Bytes} {length : octets.length = 16}
    (h : parseIp text = some (.v6 octets length)) (port : Nat) :
    parseAuthority ("[" ++ text ++ "]" ++ ":" ++ Nat.repr port) =
      some (.ip (.v6 octets length), port) := by
  have hbracket : ']' ∉ text.toList := by
    intro hmem
    have hchar := (parseIp_v6 h).1 _ hmem
    revert hchar
    rw [IsV6Char]
    decide
  have hlist : ("[" ++ text ++ "]" ++ ":" ++ Nat.repr port).toList =
      '[' :: (text.toList ++ ']' :: ':' :: (Nat.repr port).toList) := by
    simp [String.toList_append]
  have hdrop : (text.toList ++ ']' :: ':' :: (Nat.repr port).toList).drop (text.toList.length + 1) =
      ':' :: (Nat.repr port).toList := by
    rw [← List.drop_drop, List.drop_left]
    rfl
  rw [parseAuthority, hlist, List.head?_cons, if_pos rfl, List.drop_succ_cons, List.drop_zero,
    parseLiteral]
  simp only [takeWhile_ne hbracket, String.ofList_toList, h, hdrop, portAfter, decimal_repr,
    Option.map_some]

/-- What has no colon and no bracket is read up to the colon. -/
theorem parseAuthority_bareHost {text : String} (hchars : ∀ c ∈ text.toList, isRegNameChar c = true)
    (port : Nat) : parseAuthority (text ++ ":" ++ Nat.repr port) = some (bareHost text, port) := by
  have hcolon : ':' ∉ text.toList := fun hmem => absurd (hchars _ hmem) (by decide)
  have hlist : (text ++ ":" ++ Nat.repr port).toList =
      text.toList ++ ':' :: (Nat.repr port).toList := by
    simp [String.toList_append]
  have hhead : (text.toList ++ ':' :: (Nat.repr port).toList).head? ≠ some '[' := by
    intro hhead
    rcases hcs : text.toList with _ | ⟨c, cs⟩
    · rw [hcs] at hhead
      cases hhead
    · rw [hcs] at hhead
      cases hhead
      have hreg := hchars '[' (by rw [hcs]; exact List.mem_cons_self)
      exact absurd hreg (by decide)
  rw [parseAuthority, hlist, if_neg hhead, parseBare]
  simp only [takeWhile_ne hcolon, List.drop_left, portAfter, decimal_repr, Option.map_some,
    String.ofList_toList]
  exact if_pos (List.all_eq_true.mpr hchars)

theorem isRegNameChar_of_v4 {c : Char} (h : IsV4Char c) : isRegNameChar c = true := by
  have hascii : ∀ n < 128, (toDigit 10 (Char.ofNat n)).isSome = true →
      isRegNameChar (Char.ofNat n) = true := by decide
  rcases h with hdigit | rfl
  · have hlt : c.toNat < 128 := by
      by_contra hlt
      rw [toDigit, if_neg hlt] at hdigit
      cases hdigit
    have hreg := hascii c.toNat hlt
    rw [Char.ofNat_toNat] at hreg
    exact hreg hdigit
  · decide

/-- **An IPv4 address.** -/
theorem parseAuthority_v4 {text : String} {octets : Bytes} {length : octets.length = 4}
    (h : parseIp text = some (.v4 octets length)) (port : Nat) :
    parseAuthority (text ++ ":" ++ Nat.repr port) = some (.ip (.v4 octets length), port) := by
  rw [parseAuthority_bareHost fun c hc => isRegNameChar_of_v4 (parseIp_v4 h c hc), bareHost, h]

/-- **A registered name.** -/
theorem parseAuthority_name {text : String} (hchars : ∀ c ∈ text.toList, isRegNameChar c = true)
    (h : parseIp text = none) (port : Nat) :
    parseAuthority (text ++ ":" ++ Nat.repr port) = some (.name text, port) := by
  rw [parseAuthority_bareHost hchars, bareHost, h]

/-- What is read as a registered name is one. -/
theorem isRegNameChar_of_parse {authority text : String} {port : Nat}
    (h : parseAuthority authority = some (.name text, port)) :
    ∀ c ∈ text.toList, isRegNameChar c = true := by
  rw [parseAuthority] at h
  split at h
  · rw [parseLiteral] at h
    split at h
    · obtain ⟨n, -, hname⟩ := Option.map_eq_some_iff.mp h
      cases hname
    · cases h
  · rw [parseBare, Option.ite_none_right_eq_some] at h
    obtain ⟨hall, h⟩ := h
    obtain ⟨n, -, hname⟩ := Option.map_eq_some_iff.mp h
    rw [Prod.mk.injEq, bareHost] at hname
    obtain ⟨hhost, -⟩ := hname
    split at hhost
    · cases hhost
    · cases hhost
      rw [String.toList_ofList]
      exact List.all_eq_true.mp hall

/-- **An IPv6 address without brackets is no authority.** -/
theorem parseAuthority_bare {text : String} {octets : Bytes} {length : octets.length = 16}
    (h : parseIp text = some (.v6 octets length)) (port : Nat) :
    parseAuthority (text ++ ":" ++ Nat.repr port) = none := by
  obtain ⟨hchars, hcolon⟩ := parseIp_v6 h
  obtain ⟨front, rest, hsplit, hfront⟩ := List.eq_append_cons_of_mem hcolon
  have hlist : (text ++ ":" ++ Nat.repr port).toList =
      front ++ ':' :: (rest ++ ':' :: (Nat.repr port).toList) := by
    simp [String.toList_append, hsplit]
  have hhead : (front ++ ':' :: (rest ++ ':' :: (Nat.repr port).toList)).head? ≠ some '[' := by
    intro hhead
    have hmem : '[' ∈ text.toList := by
      rw [hsplit]
      cases front with
      | nil => cases hhead
      | cons c front =>
        cases hhead
        exact List.mem_cons_self
    have hchar := hchars _ hmem
    revert hchar
    rw [IsV6Char]
    decide
  -- Behind the first colon there is another one, so no port stands there.
  have hport : decimal (rest ++ ':' :: (Nat.repr port).toList) = none :=
    decimal_none (List.mem_append_right rest List.mem_cons_self) rfl
  rw [parseAuthority, hlist, if_neg hhead, parseBare]
  simp only [takeWhile_ne hfront, List.drop_left, portAfter, hport, Option.map_none, ite_self]

end Basecrawl.Authority
