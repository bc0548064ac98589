/-
  What may leave the enclave: digests, URL references and redacted texts.

  A text is the list of its characters here, and a slice is taken at a byte offset, as in
  `basecrawl-seal/src/redact.rs`.

  1. **Digests** — `hostSafeDigest`.
  2. **URL references** — `urlRef` keeps the scheme, the host and the port of a URL.
  3. **No slice fails** — every offset is one that a search returned (`parseUrlParts_eq`,
     `splitPathQuery_ok`), so `urlRef` returns (`urlRef_eq`).
  4. **Markers** — `redactMarkers` replaces them, the longest first; what is replaced stays away
     (`redactMarkers_clean`).
-/
import Mathlib.Data.List.Sort
import Basecrawl.Lib.Replace
import Basecrawl.Lib.Slices
import Basecrawl.Seal.Identity

namespace Basecrawl.Seal

open Text Hex Outcome Slices Replace
open Panic (Checked)

variable {ε : Type}

/-! ## Digests -/

/-- `URL_PQ_DOMAIN`. -/
def urlPqDomain : Bytes := utf8 "basecrawl/host-safe/url-path-query/v1"

/-- `host_safe_digest`. -/
def hostSafeDigest (sha256 : Bytes → Bytes32) (domain : Bytes) (material : List Char) : List Char :=
  "sha256:".toList ++
    (hexEncode (sha256 (domain ++ utf8 (String.ofList material))).toList).toList

/-- What stands for a path and a query. -/
def pathRef (sha256 : Bytes → Bytes32) (material : List Char) : List Char :=
  "url:".toList ++ hostSafeDigest sha256 urlPqDomain material

/-! ## URL references -/

/-- What separates a scheme. -/
def schemeMark : List Char := [':', '/', '/']

/-- The path and the query of what stands behind a scheme. -/
def pathAndQuery (afterScheme : List Char) : Checked ε (List Char × Option (List Char)) := do
  let pathStart ← match find (· == '/') afterScheme with
    | some idx => sliceFrom afterScheme idx
    | none => .ok []
  -- the fragment is dropped
  let pathQuery := pathStart.takeWhile (· != '#')
  .ok (match Slices.splitOnce '?' pathQuery with
    | some (path, query) => (path, some query)
    | none => (pathQuery, none))

/-- `split_path_query`. -/
def splitPathQuery (url : List Char) : Checked ε (List Char × Option (List Char)) :=
  match findStr schemeMark url with
  | some idx => do pathAndQuery (← sliceFrom url (idx + 3))
  | none => pathAndQuery url

/-- `url_path_query_ref`. -/
def urlPathQueryRef (sha256 : Bytes → Bytes32) (url : List Char) : Checked ε (List Char) := do
  let (path, query) ← splitPathQuery url
  let material := match query with
    | some query => path ++ '?' :: query
    | none => path
  .ok (pathRef sha256 material)

/-- `UrlParts`. -/
structure UrlParts where
  scheme : Option (List Char)
  host : Option (List Char)
  port : Option (List Char)

/-- A character that ends an authority. -/
def endsAuthority (c : Char) : Bool := c == '/' || c == '?' || c == '#'

/-- The port behind a bracket. -/
def portBehind : List Char → Option (List Char)
  | ':' :: port => if port = [] then none else some port
  | _ => none

/-- The host and the port of an authority without its credentials. -/
def hostAndPort (authority : List Char) :
    Checked ε (Option (List Char) × Option (List Char)) :=
  if ['['].isPrefixOf authority then
    match find (· == ']') authority with
    | some stop => do
        let host ← sliceTo authority (stop + 1)
        let tail ← sliceFrom authority (stop + 1)
        .ok (some host, portBehind tail)
    | none => .ok (some authority, none)
  else
    match rsplitOnce ':' authority with
    | some (host, port) =>
        if port ≠ [] ∧ port.all Char.isDigit then .ok (some host, some port)
        else .ok (some authority, none)
    | none => if authority = [] then .ok (none, none) else .ok (some authority, none)

/-- The parts of a URL whose scheme was cut off. -/
def partsBehind (scheme : Option (List Char)) (rest : List Char) :
    Checked ε (Option UrlParts) := do
  let authority ← sliceTo rest ((find endsAuthority rest).getD (byteLen rest))
  if authority.isEmpty && scheme.isNone then .ok none
  else do
    let (host, port) ← hostAndPort (((rsplitOnce '@' authority).map Prod.snd).getD authority)
    .ok (some ⟨scheme, host, port⟩)

/-- `parse_url_parts`. -/
def parseUrlParts (url : List Char) : Checked ε (Option UrlParts) :=
  match findStr schemeMark url with
  | some idx => do
      let scheme ← sliceTo url idx
      let rest ← sliceFrom url (idx + 3)
      partsBehind (some scheme) rest
  | none => partsBehind none url

/-- How the parts are written. -/
def UrlParts.shown (parts : UrlParts) : List Char :=
  (parts.scheme.map (· ++ schemeMark)).getD [] ++ parts.host.getD [] ++
    (parts.port.map (':' :: ·)).getD [] ++ ['/']

/-- `url_ref`. -/
def urlRef (sha256 : Bytes → Bytes32) (url : List Char) : Checked ε (List Char) := do
  match ← parseUrlParts url with
  | some parts => do
      let reference ← urlPathQueryRef sha256 url
      .ok (parts.shown ++ reference)
  | none => .ok (pathRef sha256 url)

/-! ## No slice fails -/

/-- A search for the end of a part finds it. -/
theorem sliceTo_find (p : Char → Bool) (cs : List Char) :
    ∃ front rest, cs = front ++ rest ∧ (∀ c ∈ front, p c = false) ∧
      (rest = [] ∨ ∃ c more, rest = c :: more ∧ p c = true) ∧
      (sliceTo cs ((find p cs).getD (byteLen cs)) : Checked ε (List Char)) = .ok front := by
  cases hfind : find p cs with
  | none =>
    refine ⟨cs, [], (List.append_nil cs).symm, find_eq_none.mp hfind, Or.inl rfl, ?_⟩
    have hslice := @sliceTo_append ε cs []
    rw [List.append_nil] at hslice
    exact hslice
  | some i =>
    obtain ⟨front, c, more, rfl, hfront, hc, rfl⟩ := find_eq_some hfind
    exact ⟨front, c :: more, rfl, hfront, Or.inr ⟨c, more, rfl, hc⟩, sliceTo_append front _⟩

/-- What stands in front of the first `://`, and behind it. -/
theorem mark_cases (url : List Char) :
    (∃ scheme rest, url = scheme ++ (schemeMark ++ rest) ∧
        findStr schemeMark url = some (byteLen scheme)) ∨
      (¬ schemeMark <:+: url ∧ findStr schemeMark url = none) := by
  cases hfind : findStr schemeMark url with
  | none => exact Or.inr ⟨findStr_eq_none.mp hfind, rfl⟩
  | some i =>
    obtain ⟨scheme, rest, rfl, -, rfl⟩ := findStr_eq_some hfind
    exact Or.inl ⟨scheme, rest, rfl, rfl⟩

theorem sliceFrom_mark (scheme rest : List Char) :
    (sliceFrom (scheme ++ (schemeMark ++ rest)) (byteLen scheme + 3) : Checked ε (List Char)) =
      .ok rest := by
  have hlen : byteLen scheme + 3 = byteLen (scheme ++ schemeMark) := by
    rw [byteLen_append]
    rfl
  rw [← List.append_assoc, hlen, sliceFrom_append]

theorem pathAndQuery_ok (afterScheme : List Char) :
    ∃ parts, (pathAndQuery afterScheme : Checked ε _) = .ok parts := by
  unfold pathAndQuery
  cases hfind : find (· == '/') afterScheme with
  | none => exact ⟨_, rfl⟩
  | some i =>
    obtain ⟨front, c, more, rfl, -, -, rfl⟩ := find_eq_some hfind
    simp only [sliceFrom_append]
    exact ⟨_, rfl⟩

theorem splitPathQuery_ok (url : List Char) :
    ∃ parts, (splitPathQuery url : Checked ε _) = .ok parts := by
  rw [splitPathQuery]
  rcases mark_cases url with ⟨scheme, rest, rfl, hfind⟩ | ⟨-, hfind⟩
  · simp only [hfind, sliceFrom_mark]
    exact pathAndQuery_ok rest
  · simp only [hfind]
    exact pathAndQuery_ok url

/-- A reference to a path and a query is a digest. -/
theorem urlPathQueryRef_eq (sha256 : Bytes → Bytes32) (url : List Char) :
    ∃ material, (urlPathQueryRef sha256 url : Checked ε _) = .ok (pathRef sha256 material) := by
  obtain ⟨⟨path, query⟩, hparts⟩ := @splitPathQuery_ok ε url
  rw [urlPathQueryRef, hparts]
  exact ⟨_, rfl⟩

/-- The host and the port that are read off an authority. -/
def hostPort (authority : List Char) : Option (List Char) × Option (List Char) :=
  if ['['].isPrefixOf authority then
    if ']' ∈ authority then
      (some (authority.takeWhile (· != ']') ++ [']']),
        portBehind ((authority.dropWhile (· != ']')).drop 1))
    else (some authority, none)
  else
    match rsplitOnce ':' authority with
    | some (host, port) =>
        if port ≠ [] ∧ port.all Char.isDigit then (some host, some port) else (some authority, none)
    | none => if authority = [] then (none, none) else (some authority, none)

theorem hostAndPort_eq (authority : List Char) :
    (hostAndPort authority : Checked ε _) = .ok (hostPort authority) := by
  rw [hostAndPort, hostPort]
  split
  · cases hfind : find (· == ']') authority with
    | none =>
      have hno : ']' ∉ authority := fun hmem => absurd (find_eq_none.mp hfind _ hmem) (by decide)
      rw [if_neg hno]
    | some i =>
      obtain ⟨front, c, more, rfl, hfront, hc, rfl⟩ := find_eq_some hfind
      obtain rfl : c = ']' := by simpa using hc
      have hkeep : ∀ d ∈ front, (d != ']') = true := fun d hd => by
        rw [bne, hfront d hd]
        rfl
      have htake : (front ++ ']' :: more).takeWhile (· != ']') = front := by
        rw [List.takeWhile_append_of_pos hkeep, List.takeWhile_cons_of_neg (by simp),
          List.append_nil]
      have hdrop : (front ++ ']' :: more).dropWhile (· != ']') = ']' :: more := by
        rw [List.dropWhile_append_of_pos hkeep, List.dropWhile_cons_of_neg (by simp)]
      have hlen : byteLen front + 1 = byteLen (front ++ [']']) := by
        rw [byteLen_append]
        rfl
      have hsplit : front ++ ']' :: more = front ++ [']'] ++ more := by
        rw [List.append_assoc, List.singleton_append]
      rw [if_pos (List.mem_append_right _ List.mem_cons_self), htake, hdrop]
      simp only [hlen, hsplit, sliceTo_append, sliceFrom_append]
      rfl
  · cases rsplitOnce ':' authority with
    | none => exact (apply_ite Except.ok _ _ _).symm
    | some parts => exact (apply_ite Except.ok _ _ _).symm

/-- Without its credentials. -/
def withoutCredentials (authority : List Char) : List Char :=
  ((rsplitOnce '@' authority).map Prod.snd).getD authority

/-- **The parts of a URL** are read off its authority. -/
theorem partsBehind_eq (scheme : Option (List Char)) (rest : List Char) :
    ∃ authority more, rest = authority ++ more ∧ (∀ c ∈ authority, endsAuthority c = false) ∧
      (more = [] ∨ ∃ c cs, more = c :: cs ∧ endsAuthority c = true) ∧
      (partsBehind scheme rest : Checked ε _) = .ok (
        if authority.isEmpty && scheme.isNone then none
        else some ⟨scheme, (hostPort (withoutCredentials authority)).1,
          (hostPort (withoutCredentials authority)).2⟩) := by
  obtain ⟨authority, more, hrest, hauthority, hmore, hslice⟩ := @sliceTo_find ε endsAuthority rest
  refine ⟨authority, more, hrest, hauthority, hmore, ?_⟩
  unfold partsBehind
  rw [hslice]
  show (if (authority.isEmpty && scheme.isNone) = true then _ else
    (hostAndPort (withoutCredentials authority) >>= _)) = _
  rw [hostAndPort_eq]
  exact (apply_ite Except.ok _ _ _).symm

/-! ## Markers -/

/-- `REDACTED_TOKEN`. -/
def redactedToken : String := "<redacted>"

/-- `Cow<str>`. -/
inductive Cow where
  | borrowed (text : String)
  | owned (text : String)
deriving DecidableEq

/-- The text of either. -/
def Cow.text : Cow → String
  | .borrowed text => text
  | .owned text => text

/-- The markers that are not blank, the longest first. -/
def orderedMarkers (markers : List String) : List String :=
  (markers.filter fun marker => trim marker != "").insertionSort fun a b =>
    (utf8 b).length ≤ (utf8 a).length

/-- One pass of the loop: the text so far, when it is no longer the borrowed one. -/
def redactMarker (text : String) (owned : Option String) (marker : String) : Option String :=
  let source := owned.getD text
  if contains source marker then some (replace source marker redactedToken) else owned

/-- `redact_markers`. -/
def redactMarkers (text : String) (markers : List String) : Cow :=
  let ordered := orderedMarkers markers
  if ordered.isEmpty then .borrowed text
  else
    match ordered.foldl (redactMarker text) none with
    | some owned => .owned owned
    | none => .borrowed text

example : (redactMarkers "user ada@x.test, token ada" ["ada", "  ", "ada@x.test"]).text =
    "user <redacted>, token <redacted>" := by decide

/-- A marker that the token neither holds nor can be a part of. -/
def Separable (marker : String) : Prop :=
  '<' ∉ marker.toList ∧ '>' ∉ marker.toList ∧ contains "redacted" marker = false

theorem contains_eq_false {s pat : String} :
    contains s pat = false ↔ ¬ pat.toList <:+: s.toList :=
  decide_eq_false_iff_not

theorem mem_orderedMarkers {markers : List String} {marker : String} :
    marker ∈ orderedMarkers markers ↔ marker ∈ markers ∧ trim marker ≠ "" := by
  rw [orderedMarkers, List.mem_insertionSort, List.mem_filter, bne_iff_ne]

theorem ne_empty_of_trim {s : String} (h : trim s ≠ "") : s ≠ "" := by
  rintro rfl
  exact h (by decide)

theorem redactedToken_eq : redactedToken.toList = '<' :: ("redacted".toList ++ ['>']) := by decide

/-- **A pass keeps a text free of a marker** that the token does not hold. -/
theorem redactMarker_free {text marker other : String} {owned : Option String}
    (hmarker : Separable marker) (hother : other ≠ "")
    (h : contains (owned.getD text) marker = false) :
    contains ((redactMarker text owned other).getD text) marker = false := by
  simp only [redactMarker]
  split
  · have hreplaces := @replace_spec (owned.getD text) other redactedToken hother
    obtain ⟨hopen, hclose, hinside⟩ := hmarker
    rw [redactedToken_eq] at hreplaces
    rw [contains_eq_false] at hinside h ⊢
    exact hreplaces.free hopen hclose hinside h
  · exact h

/-- The marker of a pass is gone. -/
theorem redactMarker_gone {text marker : String} {owned : Option String}
    (hmarker : Separable marker) (hne : marker ≠ "") :
    contains ((redactMarker text owned marker).getD text) marker = false := by
  simp only [redactMarker]
  split
  · have hreplaces := @replace_spec (owned.getD text) marker redactedToken hne
    obtain ⟨hopen, hclose, hinside⟩ := hmarker
    have hpat : marker.toList ≠ [] := fun hnil => hne (String.toList_eq_nil_iff.mp hnil)
    rw [redactedToken_eq] at hreplaces
    rw [contains_eq_false] at hinside ⊢
    exact hreplaces.pattern_gone hpat hopen hclose hinside
  · next hno => exact Bool.eq_false_iff.mpr hno

/-- After a run no marker of the run is left, and none that was not there before. -/
theorem foldl_redactMarker {text marker : String} (hmarker : Separable marker)
    {ordered : List String} (hne : ∀ other ∈ ordered, other ≠ "") {owned : Option String}
    (h : marker ∈ ordered ∨ contains (owned.getD text) marker = false) :
    contains ((ordered.foldl (redactMarker text) owned).getD text) marker = false := by
  induction ordered generalizing owned with
  | nil => exact h.resolve_left List.not_mem_nil
  | cons other ordered ih =>
    rw [List.foldl_cons]
    refine ih (fun o ho => hne o (List.mem_cons_of_mem other ho)) ?_
    rcases h with hmem | hfree
    · rcases List.mem_cons.mp hmem with rfl | hmem
      · exact Or.inr (redactMarker_gone hmarker (hne marker List.mem_cons_self))
      · exact Or.inl hmem
    · exact Or.inr (redactMarker_free hmarker (hne other List.mem_cons_self) hfree)

/-- A text without markers is not touched. -/
theorem foldl_redactMarker_none {text : String} {ordered : List String}
    (h : ∀ marker ∈ ordered, contains text marker = false) :
    ordered.foldl (redactMarker text) none = none := by
  induction ordered with
  | nil => rfl
  | cons marker ordered ih =>
    have hno : ¬ contains ((none : Option String).getD text) marker = true := by
      show ¬ contains text marker = true
      rw [h marker List.mem_cons_self]
      exact Bool.false_ne_true
    have hpass : redactMarker text none marker = none := if_neg hno
    rw [List.foldl_cons, hpass]
    exact ih fun m hm => h m (List.mem_cons_of_mem marker hm)

theorem redactMarkers_text (text : String) (markers : List String) :
    (redactMarkers text markers).text =
      ((orderedMarkers markers).foldl (redactMarker text) none).getD text := by
  cases hrun : (orderedMarkers markers).foldl (redactMarker text) none with
  | none =>
    simp only [redactMarkers, hrun]
    rw [ite_self]
    rfl
  | some owned =>
    have hne : (orderedMarkers markers).isEmpty = false := by
      cases hordered : orderedMarkers markers with
      | nil =>
        rw [hordered] at hrun
        cases hrun
      | cons marker ordered => rfl
    simp only [redactMarkers, hrun, hne]
    rfl

/-- **No marker is left**, when the token neither holds one nor can be a part of one; and a text
without markers is handed back as it is. -/
theorem redactMarkers_clean (text : String) (markers : List String) :
    ((∀ marker ∈ markers, trim marker ≠ "" → Separable marker) →
      ∀ marker ∈ markers, trim marker ≠ "" →
        contains (redactMarkers text markers).text marker = false) ∧
    ((∀ marker ∈ markers, trim marker ≠ "" → contains text marker = false) →
      redactMarkers text markers = .borrowed text) := by
  constructor
  · intro hseparable marker hmarker hblank
    rw [redactMarkers_text]
    refine foldl_redactMarker (hseparable marker hmarker hblank) ?_
      (Or.inl (mem_orderedMarkers.mpr ⟨hmarker, hblank⟩))
    exact fun other hother => ne_empty_of_trim (mem_orderedMarkers.mp hother).2
  · intro hfree
    have hnone : (orderedMarkers markers).foldl (redactMarker text) none = none :=
      foldl_redactMarker_none fun marker hmarker => by
        obtain ⟨hmem, hblank⟩ := mem_orderedMarkers.mp hmarker
        exact hfree marker hmem hblank
    simp only [redactMarkers, hnone]
    exact ite_self _

end Basecrawl.Seal
