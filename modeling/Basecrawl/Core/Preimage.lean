/-
  What the digests of a proof commit to.

  `result_hash`, `request_hash` and `manifest_sha256` hash components that are each ended by NUL.
  As long as a component holds no NUL the text can be read back, so equal preimages mean equal
  components:

  1. **Result** — `resultPreimage_eq_iff`: the deterministic formats, present or not, and their
     values; nothing else.
  2. **Request** — `requestPreimage_eq_iff`: method, URL, body and the header lines in order.
  3. **Manifest** — `manifestPreimage_eq_iff`: the nonce may hold anything, since the digest after
     it has a fixed length; but no nonce and the empty nonce are one.
-/
import Mathlib.Data.Set.Function
import Basecrawl.Lib.Framing
import Basecrawl.Core.Fetch

namespace Basecrawl.Core

open Text Hex Outcome Framing

/-! ## Components -/

theorem nulTerminated_eq (components : List String) :
    nulTerminated components = terminated 0 (components.map utf8) := by
  rw [nulTerminated, terminated, List.flatMap_map]

/-- Components without NUL can be read back. -/
theorem nulTerminated_inj {cs ds : List String} (hc : ∀ c ∈ cs, '\x00' ∉ c.toList)
    (hd : ∀ d ∈ ds, '\x00' ∉ d.toList) : nulTerminated cs = nulTerminated ds ↔ cs = ds := by
  have hbytes : ∀ xs : List String, (∀ x ∈ xs, '\x00' ∉ x.toList) →
      ∀ bytes ∈ xs.map utf8, (0 : UInt8) ∉ bytes := by
    intro xs hxs bytes hmem
    obtain ⟨x, hx, rfl⟩ := List.mem_map.mp hmem
    exact mt zero_mem_utf8.mp (hxs x hx)
  rw [nulTerminated_eq, nulTerminated_eq, terminated_inj (hbytes cs hc) (hbytes ds hd),
    utf8_injective.list_map.eq_iff]

/-- Lowercase hex holds no NUL. -/
theorem nul_not_mem_hex {s : String} (h : (utf8 s).all isLowerHex = true) : '\x00' ∉ s.toList :=
  mt zero_mem_utf8.mpr (zero_not_mem_of_all_lowerHex h)

theorem nul_not_mem_hexEncode (bytes : Bytes) : '\x00' ∉ (hexEncode bytes).toList :=
  nul_not_mem_hex (hexEncode_spec bytes).2.1

/-! ## The result -/

/-- The bytes fed to SHA-256 by `result_hash`. -/
def resultPreimage (canonicalJson : Json.Tree → String)
    (formatsProduced : List (String × Json.Tree)) : Bytes :=
  deterministicFormats.flatMap fun name =>
    match formatsProduced.lookup name with
    | some value => nulTerminated [name, canonicalJson value]
    | none => []

theorem resultHash_eq (digests : Digests) (canonicalJson : Json.Tree → String)
    (formatsProduced : List (String × Json.Tree)) :
    resultHash digests canonicalJson formatsProduced =
      hexEncode (digests.sha256 (resultPreimage canonicalJson formatsProduced)).toList := rfl

/-- The printed value of each format. -/
def printed (canonicalJson : Json.Tree → String) (formats : Json.Map) (name : String) :
    Option String :=
  (formats.get name).map canonicalJson

/-- The preimage holds the deterministic formats that are there, each as name and text. -/
theorem resultPreimage_eq (canonicalJson : Json.Tree → String) (formats : Json.Map) :
    resultPreimage canonicalJson formats.members = nulTerminated
      (unpair (sections deterministicFormats (printed canonicalJson formats))) := by
  unfold resultPreimage sections
  induction deterministicFormats with
  | nil => rfl
  | cons name names ih =>
    rw [List.flatMap_cons, ih, List.filterMap_cons]
    cases hvalue : formats.members.lookup name with
    | none =>
      have hnone : printed canonicalJson formats name = none := by
        simp [printed, Json.Map.get, hvalue]
      rw [hnone]
      rfl
    | some value =>
      have hsome : printed canonicalJson formats name = some (canonicalJson value) := by
        simp [printed, Json.Map.get, hvalue]
      rw [hsome]
      simp [nulTerminated, unpair]

/-- The printer of canonical JSON tells these values apart and writes no raw NUL. -/
structure PrintsApart (canonicalJson : Json.Tree → String) (values : Set Json.Tree) : Prop where
  injOn : Set.InjOn canonicalJson values
  nulFree : ∀ value ∈ values, '\x00' ∉ (canonicalJson value).toList

/-- The values of a map. -/
def valuesOf (formats : Json.Map) : Set Json.Tree := {value | ∃ name, formats.get name = some value}

section

variable {canonicalJson : Json.Tree → String} {values : Set Json.Tree} {formats formats' : Json.Map}

theorem nul_not_mem_sections (hprint : PrintsApart canonicalJson values)
    (hvalues : valuesOf formats ⊆ values) :
    ∀ c ∈ unpair (sections deterministicFormats (printed canonicalJson formats)),
      '\x00' ∉ c.toList := by
  intro c hc
  obtain ⟨⟨name, text⟩, hmem, hc⟩ := List.mem_flatMap.mp hc
  obtain ⟨hname, htext⟩ := mem_sections.mp hmem
  obtain ⟨value, hvalue, rfl⟩ := Option.map_eq_some_iff.mp htext
  simp only [List.mem_cons, List.not_mem_nil, or_false] at hc
  rcases hc with rfl | rfl
  · have hnames : ∀ n ∈ deterministicFormats, '\x00' ∉ n.toList := by decide
    exact hnames _ hname
  · exact hprint.nulFree value (hvalues ⟨name, hvalue⟩)

/-- Equal texts are texts of equal values. -/
theorem printed_eq_iff (hprint : PrintsApart canonicalJson values)
    (hvalues : valuesOf formats ⊆ values) (hvalues' : valuesOf formats' ⊆ values) {name : String} :
    printed canonicalJson formats name = printed canonicalJson formats' name ↔
      formats.get name = formats'.get name := by
  constructor
  · intro h
    unfold printed at h
    cases hvalue : formats.get name with
    | none =>
      rw [hvalue] at h
      exact (Option.map_eq_none_iff.mp h.symm).symm
    | some value =>
      rw [hvalue] at h
      obtain ⟨value', hvalue', htext⟩ := Option.map_eq_some_iff.mp h.symm
      have hin := hvalues ⟨name, hvalue⟩
      have hin' := hvalues' ⟨name, hvalue'⟩
      rw [hvalue', hprint.injOn hin' hin htext]
  · intro h
    rw [printed, printed, h]

/-- The preimage gives the deterministic formats back. -/
theorem resultPreimage_inj (hprint : PrintsApart canonicalJson values)
    (hvalues : valuesOf formats ⊆ values) (hvalues' : valuesOf formats' ⊆ values) :
    resultPreimage canonicalJson formats.members = resultPreimage canonicalJson formats'.members ↔
      ∀ name ∈ deterministicFormats, formats.get name = formats'.get name := by
  rw [resultPreimage_eq, resultPreimage_eq,
    nulTerminated_inj (nul_not_mem_sections hprint hvalues) (nul_not_mem_sections hprint hvalues'),
    unpair_injective.eq_iff, sections_inj]
  exact forall₂_congr fun name _ => printed_eq_iff hprint hvalues hvalues'

/-- The other formats are never looked at. -/
theorem resultPreimage_congr
    (h : ∀ name ∈ deterministicFormats, formats.get name = formats'.get name) :
    resultPreimage canonicalJson formats.members =
      resultPreimage canonicalJson formats'.members := by
  rw [resultPreimage_eq, resultPreimage_eq]
  refine congrArg (nulTerminated ∘ unpair) (sections_inj.mpr ?_)
  intro name hname
  rw [printed, printed, h name hname]

end

/-- **Result.**  Two maps have one preimage exactly when they agree on the deterministic formats;
    another format is never looked at, and a null is not an absent value. -/
theorem resultPreimage_eq_iff (digests : Digests) (canonicalJson : Json.Tree → String)
    (formats formats' : Json.Map)
    (hprint : PrintsApart canonicalJson (valuesOf formats ∪ valuesOf formats')) :
    (resultPreimage canonicalJson formats.members =
        resultPreimage canonicalJson formats'.members ↔
      ∀ name ∈ ["markdown", "html", "rawHtml", "links", "metadata"],
        formats.get name = formats'.get name) ∧
    (∀ other : Json.Map, (∀ name ∈ ["markdown", "html", "rawHtml", "links", "metadata"],
        other.get name = formats.get name) →
      resultHash digests canonicalJson other.members =
        resultHash digests canonicalJson formats.members) ∧
    (∀ name ∈ ["markdown", "html", "rawHtml", "links", "metadata"],
      formats.get name = some .null → formats'.get name = none →
      resultPreimage canonicalJson formats.members ≠
        resultPreimage canonicalJson formats'.members) := by
  have hiff := resultPreimage_inj hprint Set.subset_union_left Set.subset_union_right
  refine ⟨hiff, ?_, ?_⟩
  · intro other hother
    rw [resultHash_eq, resultHash_eq, resultPreimage_congr hother]
  · intro name hname hnull habsent heq
    have h := hiff.mp heq name hname
    rw [hnull, habsent] at h
    cases h

/-- Compact printing of a null and of a plain text. -/
def plainJson : Json.Tree → String
  | .null => "null"
  | .string s => "\"" ++ s ++ "\""
  | _ => "0"

/-- A null link list, and a screenshot. -/
def nullLinks : Json.Map := ⟨[("links", .null), ("screenshot", .string "a")], by decide⟩

theorem mem_valuesOf_nullLinks {value : Json.Tree}
    (h : value ∈ valuesOf nullLinks ∪ valuesOf Json.Map.empty) :
    value = .null ∨ value = .string "a" := by
  rcases h with ⟨name, hname⟩ | ⟨name, hname⟩
  · have hlookup : [("links", Json.Tree.null), ("screenshot", .string "a")].lookup name =
        some value := hname
    rw [List.lookup_cons] at hlookup
    split at hlookup
    · exact Or.inl (Option.some.inj hlookup).symm
    · rw [List.lookup_cons] at hlookup
      split at hlookup
      · exact Or.inr (Option.some.inj hlookup).symm
      · cases hlookup
  · cases hname

theorem plainJson_printsApart :
    PrintsApart plainJson (valuesOf nullLinks ∪ valuesOf Json.Map.empty) where
  injOn := by
    intro v hv w hw h
    rcases mem_valuesOf_nullLinks hv with rfl | rfl <;>
      rcases mem_valuesOf_nullLinks hw with rfl | rfl
    · rfl
    · exact absurd h (by decide)
    · exact absurd h (by decide)
    · rfl
  nulFree := by
    intro v hv
    rcases mem_valuesOf_nullLinks hv with rfl | rfl
    · decide
    · decide

theorem resultPreimage_eq_iff_null :
    resultPreimage plainJson nullLinks.members ≠ resultPreimage plainJson Json.Map.empty.members :=
  (resultPreimage_eq_iff zeroDigests plainJson nullLinks Json.Map.empty
    plainJson_printsApart).2.2 "links" (by decide) rfl rfl

/-! ## The request -/

/-- The bytes fed to SHA-256 by `headers_hash`. -/
def headersPreimage (headers : List (String × String)) : Bytes :=
  headers.flatMap fun field => utf8 (asciiLower field.1) ++ [0] ++ utf8 field.2 ++ [0]

/-- What `request_hash` is made of. -/
structure RequestSurface where
  method : String
  url : String
  headers : List (String × String)
  body : Bytes

/-- A method token, a URL without NUL, and header lines that can be emitted. -/
structure RequestSurface.Emittable (r : RequestSurface) : Prop where
  method : isValidHttpMethod r.method = true
  url : '\x00' ∉ r.url.toList
  headers : ∀ field ∈ r.headers, validateHeaderPair field.1 field.2 = .ok ()

/-- The bytes fed to SHA-256 by `request_hash`, with both inner digests in them. -/
def requestPreimage (digests : Digests) (r : RequestSurface) : Bytes :=
  nulTerminated
    [r.method, r.url, requestHeadersHash digests r.headers, requestBodyHash digests r.body]

theorem requestHash_eq (digests : Digests) (r : RequestSurface) :
    requestHash digests r.method r.url (requestHeadersHash digests r.headers)
        (requestBodyHash digests r.body) =
      hexEncode (digests.sha256 (requestPreimage digests r)).toList := rfl

/-- A text of token bytes holds no NUL. -/
theorem nul_not_mem_token {s : String} (h : (utf8 s).all isTokenByte = true) :
    '\x00' ∉ s.toList := by
  refine mt zero_mem_utf8.mpr ?_
  intro h0
  exact absurd (List.all_eq_true.mp h 0 h0) (by decide)

/-- A field that can be emitted holds no NUL. -/
theorem nul_not_mem_field {name value : String} (h : validateHeaderPair name value = .ok ()) :
    0 ∉ utf8 (asciiLower name) ∧ 0 ∉ utf8 value := by
  simp only [validateHeaderPair, require_eq_ok, Bool.and_eq_true] at h
  obtain ⟨⟨-, hname⟩, hvalue⟩ := h
  constructor
  · intro h0
    rw [zero_mem_utf8, asciiLower, String.toList_ofList, List.mem_map] at h0
    obtain ⟨c, hc, hlow⟩ := h0
    exact nul_not_mem_token hname (toLower_eq_nul hlow ▸ hc)
  · intro h0
    exact absurd (List.all_eq_true.mp hvalue 0 h0) (by decide)

theorem headersPreimage_eq (headers : List (String × String)) :
    headersPreimage headers = terminated 0
      (unpair (headers.map fun field => (utf8 (asciiLower field.1), utf8 field.2))) := by
  induction headers with
  | nil => rfl
  | cons field headers ih =>
    have hcons : headersPreimage (field :: headers) =
        utf8 (asciiLower field.1) ++ [0] ++ utf8 field.2 ++ [0] ++ headersPreimage headers := rfl
    rw [hcons, ih]
    simp [terminated, unpair]

/-- Two fields that say the same: names differ in case only. -/
def SameField (f g : String × String) : Prop :=
  asciiLower f.1 = asciiLower g.1 ∧ utf8 f.2 = utf8 g.2

/-- Header lines that can be emitted are read back in their order. -/
theorem headersPreimage_inj {hs gs : List (String × String)}
    (hh : ∀ field ∈ hs, validateHeaderPair field.1 field.2 = .ok ())
    (hg : ∀ field ∈ gs, validateHeaderPair field.1 field.2 = .ok ()) :
    headersPreimage hs = headersPreimage gs ↔ List.Forall₂ SameField hs gs := by
  have hfree : ∀ {fs : List (String × String)},
      (∀ field ∈ fs, validateHeaderPair field.1 field.2 = .ok ()) →
      ∀ c ∈ unpair (fs.map fun field => (utf8 (asciiLower field.1), utf8 field.2)),
        (0 : UInt8) ∉ c := by
    intro fs hfs c hc
    obtain ⟨pair, hpair, hc⟩ := List.mem_flatMap.mp hc
    obtain ⟨field, hfield, rfl⟩ := List.mem_map.mp hpair
    obtain ⟨hname, hvalue⟩ := nul_not_mem_field (hfs field hfield)
    simp only [List.mem_cons, List.not_mem_nil, or_false] at hc
    rcases hc with rfl | rfl
    · exact hname
    · exact hvalue
  rw [headersPreimage_eq, headersPreimage_eq, terminated_inj (hfree hh) (hfree hg),
    unpair_injective.eq_iff, ← List.forall₂_eq_eq_eq, List.forall₂_map_left_iff,
    List.forall₂_map_right_iff]
  have hsame : (fun f g : String × String => (utf8 (asciiLower f.1), utf8 f.2) =
      (utf8 (asciiLower g.1), utf8 g.2)) = SameField := by
    funext f g
    rw [Prod.mk.injEq, utf8_inj, SameField]
  rw [hsame]

/-- **Request.**  Two requests have one preimage exactly when method, URL and body are equal and the
    header lines agree one by one. -/
theorem requestPreimage_eq_iff (digests : Digests) (r q : RequestSurface) (hr : r.Emittable)
    (hq : q.Emittable)
    (hinj : Set.InjOn digests.sha256
      {headersPreimage r.headers, r.body, headersPreimage q.headers, q.body}) :
    requestPreimage digests r = requestPreimage digests q ↔
      r.method = q.method ∧ r.url = q.url ∧ r.body = q.body ∧
        List.Forall₂ (fun f g => asciiLower f.1 = asciiLower g.1 ∧ utf8 f.2 = utf8 g.2)
          r.headers q.headers := by
  have hdigest : ∀ {x y : Bytes},
      x ∈ ({headersPreimage r.headers, r.body, headersPreimage q.headers, q.body} : Set Bytes) →
      y ∈ ({headersPreimage r.headers, r.body, headersPreimage q.headers, q.body} : Set Bytes) →
      (hexEncode (digests.sha256 x).toList = hexEncode (digests.sha256 y).toList ↔ x = y) := by
    intro x y hx hy
    rw [hexEncode_injective.eq_iff, Vector.toList_inj, hinj.eq_iff hx hy]
  have hfree : ∀ {p : RequestSurface}, p.Emittable →
      ∀ c ∈ [p.method, p.url, requestHeadersHash digests p.headers,
        requestBodyHash digests p.body], '\x00' ∉ c.toList := by
    intro p hp c hc
    have htoken := hp.method
    simp only [isValidHttpMethod, Bool.and_eq_true] at htoken
    simp only [List.mem_cons, List.not_mem_nil, or_false] at hc
    rcases hc with rfl | rfl | rfl | rfl
    · exact nul_not_mem_token htoken.2
    · exact hp.url
    · exact nul_not_mem_hexEncode _
    · exact nul_not_mem_hexEncode _
  rw [requestPreimage, requestPreimage, nulTerminated_inj (hfree hr) (hfree hq)]
  simp only [List.cons.injEq, and_true]
  have hheaders : requestHeadersHash digests r.headers = requestHeadersHash digests q.headers ↔
      List.Forall₂ SameField r.headers q.headers := by
    rw [← headersPreimage_inj hr.headers hq.headers]
    exact hdigest (x := headersPreimage r.headers) (y := headersPreimage q.headers) (by simp)
      (by simp)
  have hbody : requestBodyHash digests r.body = requestBodyHash digests q.body ↔
      r.body = q.body := hdigest (by simp) (by simp)
  rw [hheaders, hbody]
  constructor
  · rintro ⟨hm, hu, hh, hb⟩
    exact ⟨hm, hu, hb, hh⟩
  · rintro ⟨hm, hu, hb, hh⟩
    exact ⟨hm, hu, hh, hb⟩

/-- A digest that tells short texts apart by their first 32 bytes. -/
def headDigests : Digests where
  sha256 := fun bytes => Vector.ofFn fun i => bytes.getD i.val 0
  sha512 := fun _ => Vector.replicate 64 0

/-- Two requests whose header lines differ in order only. -/
def orderedRequest (headers : List (String × String)) : RequestSurface :=
  ⟨"GET", "https://a.test/", headers, utf8 "body"⟩

theorem emittable_ordered {headers : List (String × String)}
    (h : headers.all (fun field => (validateHeaderPair field.1 field.2).toBool) = true) :
    (orderedRequest headers).Emittable where
  method := by
    show isValidHttpMethod "GET" = true
    decide
  url := by
    show _ ∉ "https://a.test/".toList
    decide
  headers := by
    intro field hfield
    have hok := List.all_eq_true.mp h field hfield
    cases hfieldOk : validateHeaderPair field.1 field.2 with
    | error e =>
      rw [hfieldOk] at hok
      cases hok
    | ok u => rfl

theorem requestPreimage_eq_iff_order :
    requestPreimage headDigests (orderedRequest [("A", "1"), ("b", "2")]) ≠
      requestPreimage headDigests (orderedRequest [("b", "2"), ("a", "1")]) := by
  intro h
  have hboth := (requestPreimage_eq_iff headDigests (orderedRequest [("A", "1"), ("b", "2")])
    (orderedRequest [("b", "2"), ("a", "1")]) (emittable_ordered (by decide))
    (emittable_ordered (by decide)) (by
      intro x hx y hy hxy
      rcases hx with rfl | rfl | rfl | rfl <;> rcases hy with rfl | rfl | rfl | rfl <;>
        first | rfl | exact absurd hxy (by decide))).mp h
  obtain ⟨-, -, -, hheaders⟩ := hboth
  cases hheaders with
  | cons hfirst _ => exact absurd hfirst.1 (by decide)

/-! ## The manifest -/

/-- The bytes fed to SHA-256 by `manifest_sha256`. -/
def manifestPreimage (url : String) (nonce : Option String) (resultHash : String) : Bytes :=
  nulTerminated [url, nonce.getD "", resultHash]

theorem manifestSha256_eq (digests : Digests) (url : String) (nonce : Option String)
    (resultHash : String) :
    manifestSha256 digests url nonce resultHash =
      hexEncode (digests.sha256 (manifestPreimage url nonce resultHash)).toList := rfl

/-- 64 lowercase hex characters. -/
def isResultHash (s : String) : Bool := (utf8 s).length == 64 && (utf8 s).all isLowerHex

/-- **Manifest.**  URL, digest and nonce are determined, whatever the nonce holds; no nonce at all
    counts as the empty one. -/
theorem manifestPreimage_eq_iff (url url' : String) (nonce nonce' : Option String)
    (resultHash resultHash' : String) (hurl : '\x00' ∉ url.toList) (hurl' : '\x00' ∉ url'.toList)
    (hhash : isResultHash resultHash = true) (hhash' : isResultHash resultHash' = true) :
    manifestPreimage url nonce resultHash = manifestPreimage url' nonce' resultHash' ↔
      url = url' ∧ nonce.getD "" = nonce'.getD "" ∧ resultHash = resultHash' := by
  simp only [isResultHash, Bool.and_eq_true, beq_iff_eq] at hhash hhash'
  have hexpand : ∀ u n h : String, nulTerminated [u, n, h] =
      utf8 u ++ 0 :: (utf8 n ++ ([0] ++ utf8 h ++ [0])) := by
    intro u n h
    simp [nulTerminated]
  rw [manifestPreimage, manifestPreimage, hexpand, hexpand,
    cut_unique (mt zero_mem_utf8.mp hurl) (mt zero_mem_utf8.mp hurl'), utf8_inj]
  refine and_congr_right fun _ => ?_
  constructor
  · intro h
    -- the digest has its fixed length at the end, so what is before it is the nonce
    have hlen : ([0] ++ utf8 resultHash ++ [0]).length =
        ([0] ++ utf8 resultHash' ++ [0]).length := by
      simp only [List.length_append, hhash.1, hhash'.1]
    obtain ⟨hnonce, htail⟩ := List.append_inj' h hlen
    have hdigest := List.append_cancel_left (List.append_cancel_right htail)
    exact ⟨utf8_injective hnonce, utf8_injective hdigest⟩
  · rintro ⟨hnonce, rfl⟩
    rw [hnonce]

theorem manifestPreimage_eq_iff_nul :
    manifestPreimage "https://a.test/" (some "x\x00y") (String.ofList (List.replicate 64 'a')) ≠
      manifestPreimage "https://a.test/" (some "x") (String.ofList (List.replicate 64 'b')) := by
  intro h
  have hboth := (manifestPreimage_eq_iff "https://a.test/" "https://a.test/" (some "x\x00y")
    (some "x") _ _ (by decide) (by decide) (by decide) (by decide)).mp h
  exact absurd hboth.2.1 (by decide)

/-- No nonce and the empty nonce have one preimage. -/
theorem manifestPreimage_none_empty :
    isResultHash (String.ofList (List.replicate 64 'a')) = true ∧
    manifestPreimage "https://a.test/" none (String.ofList (List.replicate 64 'a')) =
      manifestPreimage "https://a.test/" (some "") (String.ofList (List.replicate 64 'a')) ∧
    (none : Option String) ≠ some "" :=
  ⟨by decide, rfl, by decide⟩

end Basecrawl.Core
