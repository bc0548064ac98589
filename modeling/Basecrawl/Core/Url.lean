/-
  URLs as the `url` crate has parsed them.

  Parsing, joining and normalization belong to that crate; the record `UrlLib` stands for them.
  The engine reads components off a parsed URL, compares origins, and replaces the path for the
  policy documents of a site.
-/
import Basecrawl.Lib.Text

namespace Basecrawl.Core

open Text

/-- A parsed URL; `port` is the explicit, non-default one. -/
structure Url where
  scheme : String
  username : String := ""
  password : Option String := none
  host : Option String
  port : Option Nat := none
  path : String
  query : Option String := none
  fragment : Option String := none
deriving DecidableEq

/-- `Url::to_string`. -/
def Url.toString (url : Url) : String :=
  let credentials :=
    match url.username, url.password with
    | "", none => ""
    | user, none => user ++ "@"
    | user, some password => user ++ ":" ++ password ++ "@"
  let authority :=
    match url.host, url.port with
    | some host, some port => "//" ++ credentials ++ host ++ ":" ++ Nat.repr port
    | some host, none => "//" ++ credentials ++ host
    | none, _ => if url.scheme = "file" then "//" else ""
  let query := match url.query with
    | some query => "?" ++ query
    | none => ""
  let fragment := match url.fragment with
    | some fragment => "#" ++ fragment
    | none => ""
  url.scheme ++ ":" ++ authority ++ url.path ++ query ++ fragment

/-- Why a text is not a URL. -/
inductive ParseError where
  | relativeUrlWithoutBase
  | other
deriving DecidableEq

/-- What the engine calls of the `url` crate. -/
structure UrlLib where
  parse : String → Except ParseError Url
  join : Url → String → Option Url

/-- A URL that was parsed or joined is printed as a text that parses to it again. -/
structure UrlLib.Reparses (lib : UrlLib) : Prop where
  parsed : ∀ raw url, lib.parse raw = .ok url → lib.parse url.toString = .ok url
  joined : ∀ base href url, lib.join base href = some url → lib.parse url.toString = .ok url

/-- The crate as it behaves on a few URLs and references. -/
def UrlLib.ofTable (urls : List Url) (references : List ((Url × String) × Url)) : UrlLib :=
  let parse (raw : String) : Except ParseError Url :=
    match urls.find? fun url => url.toString == raw with
    | some url => .ok url
    | none => .error .other
  { parse := parse
    join := fun base href =>
      (references.lookup (base, href)).filter fun url => (parse url.toString).toOption == some url }

theorem UrlLib.ofTable_reparses (urls : List Url) (references : List ((Url × String) × Url)) :
    (UrlLib.ofTable urls references).Reparses where
  parsed := by
    intro raw url h
    simp only [UrlLib.ofTable] at h ⊢
    split at h
    · rename_i found hfound
      obtain rfl := Except.ok.inj h
      have hraw : found.toString = raw := by simpa using List.find?_some hfound
      rw [hraw, hfound]
    · cases h
  joined := by
    intro base href url h
    simp only [UrlLib.ofTable, Option.filter_eq_some_iff, beq_iff_eq] at h
    obtain ⟨-, hparsed⟩ := h
    simp only [UrlLib.ofTable]
    split at hparsed
    · rename_i found hfound
      have hsame : found = url := Option.some.inj hparsed
      rw [hsame]
    · cases hparsed

/-- `Url::port_or_known_default`. -/
def Url.portOrKnownDefault (url : Url) : Option Nat :=
  match url.port with
  | some port => some port
  | none =>
    match url.scheme with
    | "http" | "ws" => some 80
    | "https" | "wss" => some 443
    | "ftp" => some 21
    | _ => none

/-- `same_origin`: scheme, case-insensitive host and effective port. -/
def sameOrigin (left right : Url) : Bool :=
  eqIgnoreAsciiCase left.scheme right.scheme &&
    (match left.host, right.host with
      | some leftHost, some rightHost => eqIgnoreAsciiCase leftHost rightHost
      | _, _ => false) &&
    left.portOrKnownDefault == right.portOrKnownDefault

/-- `is_http`. -/
def isHttp (url : Url) : Bool := url.scheme == "http" || url.scheme == "https"

/-- `robots_url`: the policy document of the target's site. -/
def robotsUrl (target : Url) : Url :=
  { target with path := "/robots.txt", query := none, fragment := none }

/-- `default_sitemap_url`. -/
def defaultSitemapUrl (target : Url) : Url :=
  { target with path := "/sitemap.xml", query := none, fragment := none }

theorem eqIgnoreAsciiCase_self (s : String) : eqIgnoreAsciiCase s s = true :=
  beq_self_eq_true _

/-- Every URL with a host is on its own origin. -/
theorem sameOrigin_self {url : Url} (h : url.host.isSome = true) : sameOrigin url url = true := by
  obtain ⟨host, hhost⟩ := Option.isSome_iff_exists.mp h
  simp [sameOrigin, hhost, eqIgnoreAsciiCase_self]

/-- Origins are compared by scheme, host and effective port. -/
theorem sameOrigin_iff {left right : Url} : sameOrigin left right = true ↔
    asciiLower left.scheme = asciiLower right.scheme ∧
      (∃ leftHost rightHost, left.host = some leftHost ∧ right.host = some rightHost ∧
        asciiLower leftHost = asciiLower rightHost) ∧
      left.portOrKnownDefault = right.portOrKnownDefault := by
  unfold sameOrigin eqIgnoreAsciiCase
  cases left.host with
  | none => simp
  | some leftHost =>
    cases right.host with
    | none => simp
    | some rightHost => simp [and_assoc]

end Basecrawl.Core
