/-
  The links of an HTML page.

  The HTML parser and the selector engine are outside: a document is the list of its elements in
  document order.

  1. **Program** — `extract` for the links format, `findNext` for the next page.
  2. **Specification** — `anchorTargets`: where the anchors of a page lead; `nextCandidate`: the
     first `rel="next"` control, else the first that reads like one.
  3. **Two ways to discover links** — a crawled page is read off its links format, or off the source
     it keeps.  The second way takes the URL that was asked for as the base, and adds the next
     link.  `discoverLinks_agree_iff` says when the two agree all the same.
-/
import Basecrawl.Core.Crawl
import Basecrawl.Core.Scrape

namespace Basecrawl.Core

open Text

/-! ## Documents -/

/-- An element, as selectors and format producers see it: `text` is what its text nodes hold. -/
structure Element where
  name : String
  attributes : List (String × String)
  text : String

/-- The elements of a document, in document order. -/
abbrev HtmlDocument := List Element

/-- `el.value().attr(name)`. -/
def Element.attr (el : Element) (name : String) : Option String := el.attributes.lookup name

/-- `Selector::parse` of a name with the attributes it must have. -/
def Element.has (el : Element) (name : String) (attributes : List String) : Bool :=
  el.name == name && attributes.all fun needed => (el.attr needed).isSome

/-- `rel_has`: the token is one of the words of a `rel`. -/
def relHas (rel token : String) : Bool :=
  (splitWhitespace rel).any fun word => eqIgnoreAsciiCase word token

/-- `base_href`: what the first `<base href>` says. -/
def baseHref (document : HtmlDocument) : Option String :=
  (document.find? fun el => el.has "base" ["href"]).bind fun el => el.attr "href"

/-- The base of a document's relative references, for links and for pagination alike. -/
def documentBase (lib : UrlLib) (document : HtmlDocument) (pageUrl : Url) : Url :=
  match baseHref document with
  | some href => (lib.join pageUrl href).getD pageUrl
  | none => pageUrl

/-! ## The links format -/

/-- A `rel="alternate" hreflang` locale alternate. -/
structure Alternate where
  hreflang : String
  href : String
deriving DecidableEq

/-- A non-navigational anchor target, categorized by its URL scheme. -/
structure ExcludedLink where
  scheme : String
  href : String
deriving DecidableEq

/-- The extracted `links` surface, without the sitemap. -/
structure Links where
  links : List String
  canonical : Option String
  alternates : List Alternate
  excluded : List ExcludedLink
deriving DecidableEq

/-- `is_navigational`. -/
def isNavigational (scheme : String) : Bool := scheme == "http" || scheme == "https"

/-- `sniff_scheme`: the scheme of a target the parser rejected. -/
def sniffScheme (href : String) : Option String :=
  match splitOnce href ':' with
  | none => none
  | some (candidate, _) =>
      match candidate.toList with
      | [] => none
      | first :: rest =>
          if first.isAlpha &&
              rest.all fun c => c.isAlphanum || c == '+' || c == '-' || c == '.' then
            some (asciiLower candidate)
          else none

/-- The variables of the loop over the anchors. -/
structure Anchors where
  links : List String := []
  excluded : List ExcludedLink := []
  seenExcluded : List String := []

/-- A link is pushed once. -/
def Anchors.pushLink (st : Anchors) (link : String) : Anchors :=
  if link ∈ st.links then st else { st with links := st.links ++ [link] }

/-- `push_excluded`. -/
def Anchors.pushExcluded (st : Anchors) (scheme href : String) : Anchors :=
  let key := scheme ++ "\x00" ++ href
  if key ∈ st.seenExcluded then st
  else
    { st with
      excluded := st.excluded ++ [⟨asciiLower scheme, href⟩]
      seenExcluded := key :: st.seenExcluded }

/-- One anchor. -/
def Anchors.visit (lib : UrlLib) (base : Url) (st : Anchors) (el : Element) : Anchors :=
  let href := trim ((el.attr "href").getD "")
  if href = "" then st
  else
    match lib.join base href with
    | some url =>
        if isNavigational url.scheme then st.pushLink url.toString
        else st.pushExcluded url.scheme href
    | none =>
        match sniffScheme href with
        | some scheme => st.pushExcluded scheme href
        | none => st

/-- `a[href]`. -/
def anchors (document : HtmlDocument) : List Element :=
  document.filter fun el => el.has "a" ["href"]

/-- `extract_canonical`. -/
def extractCanonical (lib : UrlLib) (document : HtmlDocument) (base : Url) : Option String :=
  (document.filter fun el => el.has "link" ["rel", "href"]).findSome? fun el =>
    let href := trim ((el.attr "href").getD "")
    if relHas ((el.attr "rel").getD "") "canonical" && href != "" then
      (lib.join base href).map Url.toString
    else none

/-- The variables of the loop over the alternates. -/
structure Alternates where
  out : List Alternate := []
  seen : List String := []

/-- One alternate; its target is kept as it is written when it does not resolve. -/
def Alternates.visit (lib : UrlLib) (base : Url) (st : Alternates) (el : Element) : Alternates :=
  let hreflang := trim ((el.attr "hreflang").getD "")
  let href := trim ((el.attr "href").getD "")
  if !relHas ((el.attr "rel").getD "") "alternate" || hreflang == "" || href == "" then st
  else
    let abs := ((lib.join base href).map Url.toString).getD href
    let key := hreflang ++ "\x00" ++ abs
    if key ∈ st.seen then st
    else { out := st.out ++ [⟨hreflang, abs⟩], seen := key :: st.seen }

/-- `extract_alternates`. -/
def extractAlternates (lib : UrlLib) (document : HtmlDocument) (base : Url) : List Alternate :=
  let els := document.filter fun el => el.has "link" ["rel", "hreflang", "href"]
  (els.foldl (Alternates.visit lib base) {}).out

/-- `links::extract` on a parsed document. -/
def extract (lib : UrlLib) (document : HtmlDocument) (pageUrl : Url) : Links :=
  let base := documentBase lib document pageUrl
  let st := (anchors document).foldl (Anchors.visit lib base) {}
  { links := st.links
    canonical := extractCanonical lib document base
    alternates := extractAlternates lib document base
    excluded := st.excluded }

/-- The surface as `serde_json` holds it, its members in the order of their names. -/
def Links.members (links : Links) : List (String × Json.Tree) :=
  [("alternates", .array (links.alternates.map fun alternate =>
      .object [("href", .string alternate.href), ("hreflang", .string alternate.hreflang)])),
    ("canonical", match links.canonical with
      | some url => .string url
      | none => .null),
    ("excluded", .array (links.excluded.map fun link =>
      .object [("href", .string link.href), ("scheme", .string link.scheme)])),
    ("links", .array (links.links.map .string))]

/-! ## The next page -/

/-- `is_next_text`. -/
def isNextText (norm : String) : Bool :=
  let lower := asciiLower norm
  ["next", "next »", "next >", "next ›", "next page", "»", "›", "→", "next →"].contains lower ||
    (stripPrefix lower "next ").isSome

/-- The relation of a control says that it leads to the next page. -/
def Element.relIsNext (el : Element) : Bool :=
  match el.attr "rel" with
  | some rel => relHas rel "next"
  | none => false

/-- Its text says so. -/
def Element.textIsNext (el : Element) : Bool :=
  isNextText (String.intercalate " " (splitWhitespace el.text))

/-- Where a control leads, when it leads to a page of the web. -/
def webTarget (lib : UrlLib) (base : Url) (el : Element) : Option Url :=
  let href := trim ((el.attr "href").getD "")
  if href = "" then none
  else (lib.join base href).filter fun url => isNavigational url.scheme

/-- The loop of `find_next`: the relation is authoritative, the text is a fallback. -/
def findNextLoop (lib : UrlLib) (base : Url) : List Element → Option Url → Option Url
  | [], textFallback => textFallback
  | el :: els, textFallback =>
      if !el.relIsNext && !el.textIsNext then findNextLoop lib base els textFallback
      else
        match webTarget lib base el with
        | none => findNextLoop lib base els textFallback
        | some resolved =>
            if el.relIsNext then some resolved
            else findNextLoop lib base els (textFallback.or (some resolved))

/-- `a[href], link[href]`. -/
def controls (document : HtmlDocument) : List Element :=
  document.filter fun el => el.has "a" ["href"] || el.has "link" ["href"]

/-- `pagination::find_next` on a parsed document. -/
def findNext (lib : UrlLib) (document : HtmlDocument) (pageUrl : Url) : Option Url :=
  findNextLoop lib (documentBase lib document pageUrl) (controls document) none

/-! ## Where they lead -/

/-- Where the anchors of a page lead. -/
def anchorTargets (lib : UrlLib) (document : HtmlDocument) (pageUrl : Url) : List Url :=
  (anchors document).filterMap (webTarget lib (documentBase lib document pageUrl))

/-- The controls with their targets. -/
def controlTargets (lib : UrlLib) (document : HtmlDocument) (pageUrl : Url) :
    List (Element × Url) :=
  (controls document).filterMap fun el =>
    (webTarget lib (documentBase lib document pageUrl) el).map fun url => (el, url)

/-- The first control whose relation says next, else the first whose text does. -/
def nextCandidate (lib : UrlLib) (document : HtmlDocument) (pageUrl : Url) :
    Option (Element × Url) :=
  let targets := controlTargets lib document pageUrl
  (targets.find? fun target => target.1.relIsNext).or
    (targets.find? fun target => target.1.textIsNext)

section

variable {lib : UrlLib} {base : Url}

/-- A link that is pushed is there, beside those that were. -/
theorem mem_pushLink {st : Anchors} {link s : String} :
    s ∈ (st.pushLink link).links ↔ s ∈ st.links ∨ s = link := by
  unfold Anchors.pushLink
  split
  · rename_i hold
    constructor
    · exact Or.inl
    · rintro (h | rfl)
      · exact h
      · exact hold
  · rw [List.mem_append, List.mem_singleton]

theorem links_pushExcluded (st : Anchors) (scheme href : String) :
    (st.pushExcluded scheme href).links = st.links := by
  unfold Anchors.pushExcluded
  simp only
  split <;> rfl

/-- An anchor adds the page it leads to. -/
theorem mem_links_visit {st : Anchors} {el : Element} {s : String} :
    s ∈ (st.visit lib base el).links ↔
      s ∈ st.links ∨ ∃ url, webTarget lib base el = some url ∧ s = url.toString := by
  unfold Anchors.visit webTarget
  by_cases hempty : trim ((el.attr "href").getD "") = ""
  · simp [hempty]
  simp only [if_neg hempty]
  cases hjoin : lib.join base (trim ((el.attr "href").getD "")) with
  | none =>
    simp only [Option.filter_none, reduceCtorEq, false_and, exists_false, or_false]
    split
    · rw [links_pushExcluded]
    · exact Iff.rfl
  | some url =>
    simp only
    by_cases hweb : isNavigational url.scheme = true
    · rw [if_pos hweb, mem_pushLink, Option.filter_some, if_pos hweb]
      simp
    · rw [if_neg hweb, links_pushExcluded, Option.filter_some, if_neg hweb]
      simp

/-- The links that are pushed are those that were there and those the anchors lead to. -/
theorem mem_links_foldl {s : String} : ∀ {els : List Element} {st : Anchors},
    s ∈ (els.foldl (Anchors.visit lib base) st).links ↔
      s ∈ st.links ∨ ∃ url ∈ els.filterMap (webTarget lib base), s = url.toString
  | [], st => by simp
  | el :: els, st => by
      rw [List.foldl_cons, mem_links_foldl, mem_links_visit, or_assoc]
      refine or_congr Iff.rfl ?_
      simp only [List.mem_filterMap, List.mem_cons]
      constructor
      · rintro (⟨url, hurl, rfl⟩ | ⟨url, ⟨el', hel, hurl⟩, rfl⟩)
        · exact ⟨url, ⟨el, Or.inl rfl, hurl⟩, rfl⟩
        · exact ⟨url, ⟨el', Or.inr hel, hurl⟩, rfl⟩
      · rintro ⟨url, ⟨el', rfl | hel, hurl⟩, rfl⟩
        · exact Or.inl ⟨url, hurl, rfl⟩
        · exact Or.inr ⟨url, ⟨el', hel, hurl⟩, rfl⟩

/-- **The links format** lists where the anchors lead. -/
theorem mem_extract_links {document : HtmlDocument} {pageUrl : Url} {s : String} :
    s ∈ (extract lib document pageUrl).links ↔
      ∃ url ∈ anchorTargets lib document pageUrl, s = url.toString := by
  unfold extract anchorTargets
  simp only
  rw [mem_links_foldl]
  simp

end

/-- The loop finds the first control whose relation says next, else what it was handed, else the
    first whose text does. -/
theorem findNextLoop_eq (lib : UrlLib) (base : Url) :
    ∀ (els : List Element) (textFallback : Option Url),
      findNextLoop lib base els textFallback =
        (((els.filterMap fun el => (webTarget lib base el).map fun url => (el, url)).find?
            fun target => target.1.relIsNext).map Prod.snd).or
          (textFallback.or
            (((els.filterMap fun el => (webTarget lib base el).map fun url => (el, url)).find?
              fun target => target.1.textIsNext).map Prod.snd))
  | [], textFallback => by simp [findNextLoop]
  | el :: els, textFallback => by
      unfold findNextLoop
      cases htarget : webTarget lib base el with
      | none =>
        rw [List.filterMap_cons_none (by rw [htarget]; rfl)]
        simp only [ite_self]
        exact findNextLoop_eq lib base els textFallback
      | some url =>
        rw [List.filterMap_cons_some (by rw [htarget]; rfl)]
        simp only [List.find?_cons]
        cases hrel : el.relIsNext with
        | true => simp
        | false =>
          cases htext : el.textIsNext with
          | true =>
            -- a text that reads like a next control is kept if it is the first
            simp only [Bool.not_false, Bool.not_true, Bool.and_false, Bool.false_eq_true, if_false]
            rw [findNextLoop_eq lib base els, Option.or_assoc, Option.some_or, Option.map_some]
          | false =>
            simp only [Bool.not_false, Bool.and_self, if_true]
            exact findNextLoop_eq lib base els textFallback

/-- **The next page** is where the candidate leads. -/
theorem findNext_eq (lib : UrlLib) (document : HtmlDocument) (pageUrl : Url) :
    findNext lib document pageUrl = (nextCandidate lib document pageUrl).map Prod.snd := by
  unfold findNext nextCandidate controlTargets
  rw [findNextLoop_eq, Option.none_or]
  simp only
  rw [Option.map_or]

/-! ## Two ways to discover links -/

/-- Where the next candidate leads, when it is a `<link>` and no anchor. -/
def linkedNext (lib : UrlLib) (document : HtmlDocument) (pageUrl : Url) : Option Url :=
  (nextCandidate lib document pageUrl).bind fun target =>
    if target.1.name = "link" then some target.2 else none

/-- A crawl that reads its pages with these functions. -/
def linkingCrawlLib (lib : UrlLib) (parseDocument : String → HtmlDocument)
    (scrape : String → ScrapeOptions → Except Error ScrapeProof) : Crawl.CrawlLib where
  url := lib
  scrape := scrape
  findNext := fun html base => findNext lib (parseDocument html) base
  extractLinks := fun html base => (extract lib (parseDocument html) base).links

/-- The proof of a page that keeps its source and has no links format. -/
structure KeepsSource (proof : ScrapeProof) (request : Url) (html : String) : Prop where
  url : proof.request.url = request.toString
  links : proof.result.formatsProduced.lookup "links" = none
  source : Crawl.sourceHtml proof.result.formatsProduced = some html

/-- The proof of a page that keeps its links format: `links_surface` at the URL that served it. -/
structure KeepsLinks (proof : ScrapeProof) (lib : UrlLib) (document : HtmlDocument) (final : Url) :
    Prop where
  links : ∃ sitemaps, proof.result.formatsProduced.lookup "links" =
    some (.object ((extract lib document final).members ++ [("sitemap", .array sitemaps)]))
  source : Crawl.sourceHtml proof.result.formatsProduced = none

section

variable {lib : UrlLib} {document : HtmlDocument} {pageUrl url : Url}

theorem join_of_webTarget {base : Url} {el : Element} (h : webTarget lib base el = some url) :
    ∃ href, lib.join base href = some url := by
  unfold webTarget at h
  simp only at h
  split at h
  · cases h
  · rw [Option.filter_eq_some_iff] at h
    exact ⟨_, h.1⟩

/-- The links that parse are the ones the anchors lead to. -/
theorem mem_parsedLinks (hround : lib.Reparses) :
    url ∈ Crawl.parsedLinks lib (extract lib document pageUrl).links ↔
      url ∈ anchorTargets lib document pageUrl := by
  have hparse : ∀ target ∈ anchorTargets lib document pageUrl,
      lib.parse target.toString = .ok target := by
    intro target htarget
    obtain ⟨el, -, hweb⟩ := List.mem_filterMap.mp htarget
    obtain ⟨href, hjoin⟩ := join_of_webTarget hweb
    exact hround.joined _ _ _ hjoin
  unfold Crawl.parsedLinks
  rw [List.mem_filterMap]
  constructor
  · rintro ⟨s, hs, hsome⟩
    obtain ⟨target, htarget, rfl⟩ := mem_extract_links.mp hs
    rw [hparse target htarget] at hsome
    obtain rfl := Option.some.inj hsome
    exact htarget
  · intro htarget
    exact ⟨url.toString, mem_extract_links.mpr ⟨url, htarget, rfl⟩, by rw [hparse url htarget]; rfl⟩

/-- A candidate is a control with a target. -/
theorem nextCandidate_eq_some {el : Element}
    (h : nextCandidate lib document pageUrl = some (el, url)) :
    el ∈ controls document ∧
      webTarget lib (documentBase lib document pageUrl) el = some url := by
  have hmem : (el, url) ∈ controlTargets lib document pageUrl := by
    unfold nextCandidate at h
    simp only at h
    rcases Option.or_eq_some_iff.mp h with hrel | ⟨-, htext⟩
    · exact List.mem_of_find?_eq_some hrel
    · exact List.mem_of_find?_eq_some htext
  obtain ⟨el', hel, hsome⟩ := List.mem_filterMap.mp hmem
  obtain ⟨url', hurl, hpair⟩ := Option.map_eq_some_iff.mp hsome
  obtain ⟨rfl, rfl⟩ := Prod.mk.inj hpair
  exact ⟨hel, hurl⟩

/-- Beside the anchors of the page the next page adds what only a `<link>` leads to. -/
theorem mem_anchorTargets_or_next :
    (findNext lib document pageUrl = some url ∨ url ∈ anchorTargets lib document pageUrl) ↔
      (url ∈ anchorTargets lib document pageUrl ∨
        linkedNext lib document pageUrl = some url) := by
  rw [findNext_eq]
  unfold linkedNext
  cases hnext : nextCandidate lib document pageUrl with
  | none => simp
  | some target =>
    obtain ⟨el, next⟩ := target
    obtain ⟨hel, htarget⟩ := nextCandidate_eq_some hnext
    simp only [Option.map_some, Option.some.injEq, Option.bind_some]
    by_cases hlink : el.name = "link"
    · rw [if_pos hlink, Option.some.injEq, or_comm]
    · -- an anchor, which is one of the anchors
      have hanchor : next ∈ anchorTargets lib document pageUrl := by
        refine List.mem_filterMap.mpr ⟨el, ?_, htarget⟩
        obtain ⟨hmem, hkind⟩ := List.mem_filter.mp hel
        refine List.mem_filter.mpr ⟨hmem, ?_⟩
        rw [Bool.or_eq_true] at hkind
        rcases hkind with hkind | hkind
        · exact hkind
        · unfold Element.has at hkind
          rw [Bool.and_eq_true, beq_iff_eq] at hkind
          exact absurd hkind.1 hlink
      rw [if_neg hlink]
      simp only [reduceCtorEq, or_false]
      constructor
      · rintro (rfl | h)
        · exact hanchor
        · exact h
      · exact Or.inr

/-- What is discovered from the source of a page. -/
theorem mem_discover_source (hround : lib.Reparses) {parseDocument : String → HtmlDocument}
    {scrape : String → ScrapeOptions → Except Error ScrapeProof} {page : Crawl.CrawlPage}
    {request : Url} {html : String} (hpage : page.url = page.proof.request.url)
    (hrequest : lib.parse request.toString = .ok request)
    (h : KeepsSource page.proof request html) :
    url ∈ Crawl.discoverLinksFromPage (linkingCrawlLib lib parseDocument scrape) page ↔
      url ∈ anchorTargets lib (parseDocument html) request ∨
        linkedNext lib (parseDocument html) request = some url := by
  have hlisted : Crawl.listedLinks page.proof.result.formatsProduced = [] := by
    unfold Crawl.listedLinks
    rw [h.links]
  unfold Crawl.discoverLinksFromPage
  simp only [hlisted, hpage, h.url, h.source]
  rw [if_neg (by simp [Crawl.parsedLinks])]
  have hparse : (linkingCrawlLib lib parseDocument scrape).url.parse request.toString =
      .ok request := hrequest
  rw [hparse]
  simp only [List.mem_append, Option.mem_toList]
  show (findNext lib (parseDocument html) request = some url ∨
    url ∈ Crawl.parsedLinks lib (extract lib (parseDocument html) request).links) ↔ _
  rw [mem_parsedLinks hround, mem_anchorTargets_or_next]

/-- The strings of a links format are the links that were extracted. -/
theorem listedLinks_members {formats : List (String × Json.Tree)} {links : Links}
    {sitemaps : List Json.Tree}
    (h : formats.lookup "links" =
      some (.object (links.members ++ [("sitemap", Json.Tree.array sitemaps)]))) :
    Crawl.listedLinks formats = links.links := by
  have hlookup : (links.members ++ [("sitemap", Json.Tree.array sitemaps)]).lookup "links" =
      some (Json.Tree.array (links.links.map .string)) := rfl
  unfold Crawl.listedLinks
  rw [h]
  simp only
  rw [hlookup]
  show (links.links.map Json.Tree.string).filterMap _ = links.links
  rw [List.filterMap_map]
  exact List.filterMap_some

/-- What is discovered from the links format of a page. -/
theorem mem_discover_links (hround : lib.Reparses) {parseDocument : String → HtmlDocument}
    {scrape : String → ScrapeOptions → Except Error ScrapeProof} {page : Crawl.CrawlPage}
    {final : Url} (h : KeepsLinks page.proof lib document final) :
    url ∈ Crawl.discoverLinksFromPage (linkingCrawlLib lib parseDocument scrape) page ↔
      url ∈ anchorTargets lib document final := by
  obtain ⟨sitemaps, hformat⟩ := h.links
  unfold Crawl.discoverLinksFromPage
  simp only [listedLinks_members hformat, h.source]
  rw [← mem_parsedLinks hround]
  split
  · exact Iff.rfl
  · rename_i hempty
    rw [not_not] at hempty
    rw [show Crawl.parsedLinks lib (extract lib document final).links = [] from hempty]

/-- **From one base** only the next page can make a difference: a page that only a `<link>` leads
    to is discovered from the source alone. -/
theorem discoverLinks_agree_of_base {request final : Url}
    (hbase : documentBase lib document request = documentBase lib document final)
    (hnext : ∀ url, linkedNext lib document request = some url →
      url ∈ anchorTargets lib document request) :
    ∀ url, (url ∈ anchorTargets lib document request ∨
        linkedNext lib document request = some url) ↔ url ∈ anchorTargets lib document final := by
  intro url
  have hsame : anchorTargets lib document request = anchorTargets lib document final := by
    unfold anchorTargets
    rw [hbase]
  rw [← hsame]
  constructor
  · rintro (h | h)
    · exact h
    · exact hnext url h
  · exact Or.inl

end

/-! ## The formats of a scrape -/

section

variable {σ : Type} {lib : ScrapeLib} {host : Host σ} {session : Session} {fetched : Fetched}
  {one : PageOne} {used : Bool} {w : World σ}

/-- The links format of a served page. -/
theorem produceFormats_links (hhtml : one.page.contentKind = .html) :
    ∃ w', produceFormats lib host session fetched one [.links] ⟨[], used⟩ w = .ok
      ⟨[("links", .object (lib.links one.page.body one.page.base ++
        [("sitemap", .array (one.sitemaps.map .string))]))], used⟩ w' := by
  simp only [produceFormats, produceFormat, linksSurface, PageOne.surfaceHtml, linkMembers, hhtml]
  cases used <;> exact ⟨_, rfl⟩

/-- The source of a served page, as it is served. -/
theorem produceFormats_source {format : Format} (hhtml : one.page.contentKind = .html)
    (hserved : one.rendered.html = none) (hformat : format = .html ∨ format = .rawHtml) :
    ∃ w', produceFormats lib host session fetched one [format] ⟨[], used⟩ w = .ok
      ⟨[(format.asStr, .string one.page.body)], used⟩ w' := by
  rcases hformat with rfl | rfl
  · simp only [produceFormats, produceFormat, domSurface, hhtml, hserved]
    cases used <;> exact ⟨_, rfl⟩
  · simp only [produceFormats, produceFormat, textSurface, hhtml]
    cases used <;> exact ⟨_, rfl⟩

/-- A proof with these formats keeps the links of the page. -/
theorem keepsLinks_of_formats {parseDocument : String → HtmlDocument} {proof : ScrapeProof}
    (hlinks : lib.links = fun html base => (extract lib.url (parseDocument html) base).members)
    (h : proof.result.formatsProduced = [("links", .object (lib.links one.page.body one.page.base ++
      [("sitemap", .array (one.sitemaps.map .string))]))]) :
    KeepsLinks proof lib.url (parseDocument one.page.body) one.page.base where
  links := by
    refine ⟨one.sitemaps.map .string, ?_⟩
    rw [h, hlinks]
    rfl
  source := by
    rw [h]
    rfl

/-- And one with these keeps its source. -/
theorem keepsSource_of_formats {proof : ScrapeProof} {request : Url} {html : String}
    {format : Format} (hformat : format = .html ∨ format = .rawHtml)
    (hurl : proof.request.url = request.toString)
    (h : proof.result.formatsProduced = [(format.asStr, .string html)]) :
    KeepsSource proof request html where
  url := hurl
  links := by
    rw [h]
    rcases hformat with rfl | rfl <;> rfl
  source := by
    rw [h]
    rcases hformat with rfl | rfl <;> rfl

end

/-! ## The two ways, compared -/

/-- **What is discovered does not depend on the format that is kept** exactly when the anchors at
    the requested URL, with the next page that only a `<link>` leads to, lead where the anchors at
    the served URL do. -/
theorem discoverLinks_agree_iff (hround : lib.Reparses) (parseDocument : String → HtmlDocument)
    (scrape : String → ScrapeOptions → Except Error ScrapeProof) (html : String)
    {request final : Url} (hrequest : lib.parse request.toString = .ok request)
    {source links : Crawl.CrawlPage} (hpage : source.url = source.proof.request.url)
    (hsource : KeepsSource source.proof request html)
    (hlinks : KeepsLinks links.proof lib (parseDocument html) final) :
    (∀ url, url ∈ Crawl.discoverLinksFromPage (linkingCrawlLib lib parseDocument scrape) source ↔
      url ∈ Crawl.discoverLinksFromPage (linkingCrawlLib lib parseDocument scrape) links) ↔
    ∀ url, (url ∈ anchorTargets lib (parseDocument html) request ∨
        linkedNext lib (parseDocument html) request = some url) ↔
      url ∈ anchorTargets lib (parseDocument html) final := by
  refine forall_congr' fun url => ?_
  rw [mem_discover_source hround hpage hrequest hsource, mem_discover_links hround hlinks]

/-- A page that was asked for at `/old` and served from `/dir/new`, with one relative link. -/
def movedDocument : HtmlDocument := [⟨"a", [("href", "x")], ""⟩]

def movedUrl (path : String) : Url := { scheme := "http", host := some "a.test", path := path }

def movedLib : UrlLib :=
  UrlLib.ofTable [movedUrl "/old", movedUrl "/dir/new", movedUrl "/x", movedUrl "/dir/x"]
    [((movedUrl "/old", "x"), movedUrl "/x"), ((movedUrl "/dir/new", "x"), movedUrl "/dir/x")]

/-- The page with the formats it keeps. -/
def movedPage (formats : List (String × Json.Tree)) : Crawl.CrawlPage :=
  let proof := attestable "task" "nonce"
  Crawl.pageOf (movedUrl "/old") 0
    { proof with
      request := { proof.request with url := (movedUrl "/old").toString }
      result := { proof.result with formatsProduced := formats } }

def movedSource : Crawl.CrawlPage := movedPage [("html", .string "page")]

def movedLinks : Crawl.CrawlPage :=
  movedPage [("links", .object ((extract movedLib movedDocument (movedUrl "/dir/new")).members ++
    [("sitemap", .array [])]))]

theorem keepsSource_moved : KeepsSource movedSource.proof (movedUrl "/old") "page" :=
  ⟨rfl, rfl, rfl⟩

theorem keepsLinks_moved :
    KeepsLinks movedLinks.proof movedLib movedDocument (movedUrl "/dir/new") :=
  ⟨⟨[], rfl⟩, rfl⟩

theorem discoverLinks_agree_iff_moved :
    (∀ url, url ∈ Crawl.discoverLinksFromPage (linkingCrawlLib movedLib (fun _ => movedDocument)
          fun _ _ => .ok movedSource.proof) movedSource ↔
        url ∈ Crawl.discoverLinksFromPage (linkingCrawlLib movedLib (fun _ => movedDocument)
          fun _ _ => .ok movedSource.proof) movedLinks) ↔
      ∀ url, (url ∈ anchorTargets movedLib movedDocument (movedUrl "/old") ∨
          linkedNext movedLib movedDocument (movedUrl "/old") = some url) ↔
        url ∈ anchorTargets movedLib movedDocument (movedUrl "/dir/new") :=
  discoverLinks_agree_iff (UrlLib.ofTable_reparses _ _) (fun _ => movedDocument)
    (fun _ _ => .ok movedSource.proof) "page" (by decide) rfl keepsSource_moved keepsLinks_moved

/-- A redirect moves the base of relative links: `/x` is discovered from the source, `/dir/x` from
    the links format. -/
theorem discoverLinks_disagree :
    ¬ ∀ (lib : UrlLib), lib.Reparses → ∀ (parseDocument : String → HtmlDocument)
      (scrape : String → ScrapeOptions → Except Error ScrapeProof) (html : String)
      (request final : Url), lib.parse request.toString = .ok request →
      ∀ source links : Crawl.CrawlPage, source.url = source.proof.request.url →
      KeepsSource source.proof request html →
      KeepsLinks links.proof lib (parseDocument html) final →
      ∀ url, url ∈ Crawl.discoverLinksFromPage (linkingCrawlLib lib parseDocument scrape) source ↔
        url ∈ Crawl.discoverLinksFromPage (linkingCrawlLib lib parseDocument scrape) links := by
  intro hclaim
  have hround : movedLib.Reparses := UrlLib.ofTable_reparses _ _
  have hrequest : movedLib.parse (movedUrl "/old").toString = .ok (movedUrl "/old") := by decide
  have hiff := hclaim movedLib hround (fun _ => movedDocument) (fun _ _ => .ok movedSource.proof)
    "page" _ _ hrequest movedSource movedLinks rfl keepsSource_moved keepsLinks_moved
    (movedUrl "/x")
  rw [mem_discover_source hround rfl hrequest keepsSource_moved,
    mem_discover_links hround keepsLinks_moved] at hiff
  have hmoved : movedUrl "/x" ∈ anchorTargets movedLib movedDocument (movedUrl "/dir/new") :=
    hiff.mp (Or.inl (by decide))
  exact absurd hmoved (by decide)

end Basecrawl.Core
