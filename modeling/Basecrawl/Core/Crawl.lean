/-
  The bounded crawl.

  1. **Program** — a queue of URLs with their depths; a URL is marked when it is dequeued, filtered,
     scraped, and its allowed outlinks are queued one deeper.
  2. **Graph** — pages are URLs up to their fragment (`normalizeVisitKey`); a page leads to the
     allowed links that are discovered on it.
  3. **Refinement (`crawlLoop_bfs`)** — from an allowed seed the pages of the loop are those of the
     breadth-first search of that graph, in its order and at its depths, so the theorem about the
     search is one about the crawl.
-/
import Basecrawl.Core.Canonical
import Basecrawl.Core.Options
import Basecrawl.Lib.Bfs

namespace Basecrawl.Core.Crawl

open Text Outcome Bfs

/-- Options that bound a crawl run. -/
structure CrawlOptions where
  scrape : ScrapeOptions
  maxPages : Nat
  maxDepth : Nat
  allowDomain : Option String

/-- One successfully fetched page.  `target` is the URL it was fetched for, which the source keeps
    in the proof only. -/
structure CrawlPage where
  target : Url
  url : String
  depth : Nat
  resultHash : Option String
  statusCode : Option Nat
  proof : ScrapeProof

/-- A URL discovered but not fetched. -/
structure CrawlSkipped where
  url : String
  reason : String

structure CrawlResult where
  mode : String
  seed : String
  pages : List CrawlPage
  skipped : List CrawlSkipped
  residual : String
  maxPages : Nat
  maxDepth : Nat

def crawlMvpDescription : String :=
  "Bounded crawl MVP: seed URL + max pages/depth + domain filter. " ++
  "Not a hosted crawl SaaS (no search index, scheduled monitor, or cloud agent research)."

/-- What the crawl calls: the `url` crate, the scrape of a URL, and the links of an HTML text. -/
structure CrawlLib where
  url : UrlLib
  scrape : String → ScrapeOptions → Except Error ScrapeProof
  findNext : String → Url → Option Url
  extractLinks : String → Url → List String

def validateBounds (maxPages maxDepth : Nat) : Except Error Unit := do
  require (maxPages != 0) (.invalidProductOption "crawl --max-pages must be >= 1")
  require (maxPages ≤ 10000)
    (.invalidProductOption "crawl --max-pages exceeds hard safety cap (10000)")
  require (maxDepth ≤ 32) (.invalidProductOption "crawl --max-depth exceeds hard safety cap (32)")

def normalizeVisitKey (url : Url) : String := Url.toString { url with fragment := none }

def isAllowed (url seed : Url) (allowHost : Option String) : Bool :=
  match allowHost with
  | some host => url.host.any fun h => eqIgnoreAsciiCase h host
  | none => sameOrigin url seed

/-- The filter of a crawl: an empty one is none. -/
def allowHost (options : CrawlOptions) : Option String :=
  (options.allowDomain.map fun h => asciiLower (trim h)).filter (· != "")

/-- The options of every page: a soft `GET` that does not follow pagination. -/
def pageOptions (options : CrawlOptions) : ScrapeOptions :=
  { options.scrape with method := "GET", body := [], followPagination := false }

def parsedLinks (lib : UrlLib) (links : List String) : List Url :=
  links.filterMap fun s => (lib.parse s).toOption

/-- The strings of the `links` format. -/
def listedLinks (formats : List (String × Json.Tree)) : List String :=
  match formats.lookup "links" with
  | some (.object members) =>
    match members.lookup "links" with
    | some (.array items) => items.filterMap fun
        | .string s => some s
        | _ => none
    | _ => []
  | _ => []

/-- The source text a page keeps. -/
def sourceHtml (formats : List (String × Json.Tree)) : Option String :=
  let text (name : String) : Option String :=
    match formats.lookup name with
    | some (.string html) => some html
    | _ => none
  (text "html").or (text "rawHtml")

def discoverLinksFromPage (lib : CrawlLib) (page : CrawlPage) : List Url :=
  let formats := page.proof.result.formatsProduced
  let listed := parsedLinks lib.url (listedLinks formats)
  if listed ≠ [] then listed
  else
    match sourceHtml formats, lib.url.parse page.url with
    | some html, .ok base =>
        (lib.findNext html base).toList ++ parsedLinks lib.url (lib.extractLinks html base)
    | _, _ => []

def pageOf (url : Url) (depth : Nat) (proof : ScrapeProof) : CrawlPage where
  target := url
  url := proof.request.url
  depth := depth
  resultHash := proof.result.resultHash
  statusCode := proof.response.statusCode
  proof := proof

/-- The loop over the frontier. -/
def crawlLoop (lib : CrawlLib) (options : CrawlOptions) (seed : Url)
    (frontier : List (Url × Nat)) (visited : List String) (pages : List CrawlPage)
    (skipped : List CrawlSkipped) : Except Error (List CrawlPage × List CrawlSkipped) :=
  match frontier with
  | [] => .ok (pages, skipped)
  | (url, depth) :: frontier =>
      if _hcap : options.maxPages ≤ pages.length then .ok (pages, skipped)
      else if normalizeVisitKey url ∈ visited then
        crawlLoop lib options seed frontier visited pages skipped
      else
        let visited := normalizeVisitKey url :: visited
        if !isAllowed url seed (allowHost options) then
          crawlLoop lib options seed frontier visited pages
            (skipped ++ [⟨url.toString, "outside_allow_domain"⟩])
        else if options.maxDepth < depth then
          crawlLoop lib options seed frontier visited pages
            (skipped ++ [⟨url.toString, "depth_exceeded"⟩])
        else
          match lib.scrape url.toString (pageOptions options) with
          | .error e => .error e
          | .ok proof =>
              let page := pageOf url depth proof
              if options.maxDepth ≤ depth ∨ options.maxPages ≤ (pages ++ [page]).length then
                crawlLoop lib options seed frontier visited (pages ++ [page]) skipped
              else
                let discovered := discoverLinksFromPage lib page
                let refused := discovered.filter fun next =>
                  !isAllowed next seed (allowHost options)
                let queued := discovered.filter fun next =>
                  isAllowed next seed (allowHost options) && normalizeVisitKey next ∉ visited
                crawlLoop lib options seed (frontier ++ queued.map fun next => (next, depth + 1))
                  visited (pages ++ [page])
                  (skipped ++ refused.map fun next => ⟨next.toString, "outside_allow_domain"⟩)
termination_by (options.maxPages - pages.length, frontier.length)
decreasing_by
  -- a URL that is skipped shortens the frontier, a page brings the cap nearer
  · exact Prod.Lex.right _ (Nat.lt_succ_self _)
  · exact Prod.Lex.right _ (Nat.lt_succ_self _)
  · exact Prod.Lex.right _ (Nat.lt_succ_self _)
  · exact Prod.Lex.left _ _ (by rw [List.length_append, List.length_singleton]; omega)
  · exact Prod.Lex.left _ _ (by rw [List.length_append, List.length_singleton]; omega)

/-- `crawl`. -/
def crawl (lib : CrawlLib) (seed : String) (options : CrawlOptions) :
    Except Error CrawlResult := do
  validateBounds options.maxPages options.maxDepth
  let seedUrl ← validateUrl lib.url seed
  let (pages, skipped) ← crawlLoop lib options seedUrl [(seedUrl, 0)] [] [] []
  .ok { mode := "crawl_mvp", seed := seedUrl.toString, pages := pages, skipped := skipped,
        residual := crawlMvpDescription, maxPages := options.maxPages,
        maxDepth := options.maxDepth }

/-! ## The graph -/

/-- A page up to its fragment, and its recorded depth. -/
def CrawlPage.node (page : CrawlPage) : String × Nat := (normalizeVisitKey page.target, page.depth)

/-- Every scrape succeeds, and what it discovers is given by the page up to its fragment. -/
def LinkGraph (lib : CrawlLib) (options : CrawlOptions) (links : String → List Url) : Prop :=
  ∀ url depth, ∃ proof, lib.scrape url.toString (pageOptions options) = .ok proof ∧
    discoverLinksFromPage lib (pageOf url depth proof) = links (normalizeVisitKey url)

/-- The allowed links of a page, up to their fragments. -/
def allowedLinks (options : CrawlOptions) (seed : Url) (links : String → List Url)
    (page : String) : List String :=
  ((links page).filter fun next => isAllowed next seed (allowHost options)).map normalizeVisitKey

variable {lib : CrawlLib} {options : CrawlOptions} {seed : Url} {links : String → List Url}

/-- What is queued after a page are the nodes the search queues. -/
theorem queued_nodes {visited kept : List String} (hvisited : ∀ k, k ∈ visited ↔ k ∈ kept)
    (page : String) (depth : Nat) :
    ((((links page).filter fun next => isAllowed next seed (allowHost options) &&
        normalizeVisitKey next ∉ visited).map fun next => (next, depth)).map
      fun e => (normalizeVisitKey e.1, e.2)) =
    ((allowedLinks options seed links page).filter fun k => k ∉ kept).map fun k => (k, depth) := by
  unfold allowedLinks
  rw [List.filter_map, List.map_map, List.map_map, List.filter_filter]
  refine congrArg _ (List.filter_congr fun next _ => ?_)
  simp [hvisited, Bool.and_comm]

/-- The marks after a page. -/
theorem visited_step {visited : List String} {pages : List CrawlPage} (page : CrawlPage)
    (hvisited : ∀ k, k ∈ visited ↔ k ∈ (pages.map CrawlPage.node).map Prod.fst) :
    ∀ k, k ∈ normalizeVisitKey page.target :: visited ↔
      k ∈ ((pages ++ [page]).map CrawlPage.node).map Prod.fst := by
  intro k
  rw [List.mem_cons, hvisited, List.map_append, List.map_append, List.mem_append, or_comm]
  simp [CrawlPage.node]

/-- A page was allowed, and is what the scrape of its URL came to. -/
def Fetched (lib : CrawlLib) (options : CrawlOptions) (seed : Url) (page : CrawlPage) : Prop :=
  isAllowed page.target seed (allowHost options) = true ∧
    lib.scrape page.target.toString (pageOptions options) = .ok page.proof ∧
    page = pageOf page.target page.depth page.proof

theorem fetched_step {pages : List CrawlPage} {url : Url} {depth : Nat} {proof : ScrapeProof}
    (hpages : ∀ p ∈ pages, Fetched lib options seed p)
    (hallowed : isAllowed url seed (allowHost options) = true)
    (hscrape : lib.scrape url.toString (pageOptions options) = .ok proof) :
    ∀ p ∈ pages ++ [pageOf url depth proof], Fetched lib options seed p := by
  intro p hp
  rcases List.mem_append.mp hp with hp | hp
  · exact hpages p hp
  · rw [List.mem_singleton.mp hp]
    exact ⟨hallowed, hscrape, rfl⟩

/-- **The loop is breadth-first search**, once everything in the frontier is allowed. -/
theorem crawlLoop_bfs (hgraph : LinkGraph lib options links) (frontier : List (Url × Nat))
    (visited : List String) (pages : List CrawlPage) (skipped : List CrawlSkipped)
    (hallowed : ∀ e ∈ frontier, isAllowed e.1 seed (allowHost options) = true)
    (hdepth : ∀ e ∈ frontier, e.2 ≤ options.maxDepth)
    (hvisited : ∀ k, k ∈ visited ↔ k ∈ (pages.map CrawlPage.node).map Prod.fst)
    (hpages : ∀ page ∈ pages, Fetched lib options seed page) :
    ∃ pages' skipped', crawlLoop lib options seed frontier visited pages skipped =
        .ok (pages', skipped') ∧
      pages'.map CrawlPage.node = bfs (allowedLinks options seed links) options.maxPages
        options.maxDepth (frontier.map fun e => (normalizeVisitKey e.1, e.2))
        (pages.map CrawlPage.node) ∧
      ∀ page ∈ pages', Fetched lib options seed page := by
  have hlength : ∀ pages : List CrawlPage, (pages.map CrawlPage.node).length = pages.length :=
    fun _ => List.length_map _
  fun_induction crawlLoop lib options seed frontier visited pages skipped with
  | case1 visited pages skipped =>
    refine ⟨pages, skipped, rfl, ?_, hpages⟩
    rw [List.map_nil, bfs_nil]
  | case2 visited pages skipped url depth frontier hcap =>
    refine ⟨pages, skipped, rfl, ?_, hpages⟩
    rw [List.map_cons, bfs_full (by rw [hlength]; exact hcap)]
  -- a key that was visited is skipped by both loops
  | case3 visited pages skipped url depth frontier hcap hold ih =>
    obtain ⟨pages', skipped', hloop, hresult, hall⟩ := ih
      (fun e he => hallowed e (List.mem_cons_of_mem _ he))
      (fun e he => hdepth e (List.mem_cons_of_mem _ he)) hvisited hpages
    refine ⟨pages', skipped', hloop, ?_, hall⟩
    rw [hresult, List.map_cons, bfs_skip (by rw [hlength]; exact hcap) ((hvisited _).mp hold)]
  -- what is refused or too deep never came into the frontier
  | case4 visited pages skipped url depth frontier hcap hnew visited' hrefused ih =>
    rw [hallowed _ List.mem_cons_self] at hrefused
    cases hrefused
  | case5 visited pages skipped url depth frontier hcap hnew visited' hpass hdeep ih =>
    exact absurd (hdepth _ List.mem_cons_self) (Nat.not_le.mpr hdeep)
  -- on a link graph no scrape fails
  | case6 visited pages skipped url depth frontier hcap hnew hpass hshallow e hscrape =>
    obtain ⟨proof, hok, -⟩ := hgraph url depth
    rw [hok] at hscrape
    cases hscrape
  -- the page that fills the cap
  | case7 visited pages skipped url depth frontier hcap hnew visited' hpass hshallow proof hscrape
      page hstop ih =>
    have hnodes : (pages ++ [page]).map CrawlPage.node =
        pages.map CrawlPage.node ++ [(normalizeVisitKey url, depth)] := by
      rw [List.map_append]
      rfl
    obtain ⟨pages', skipped', hloop, hresult, hall⟩ := ih
      (fun e he => hallowed e (List.mem_cons_of_mem _ he))
      (fun e he => hdepth e (List.mem_cons_of_mem _ he))
      (visited_step page hvisited) (fetched_step hpages (hallowed _ List.mem_cons_self) hscrape)
    refine ⟨pages', skipped', hloop, ?_, hall⟩
    rw [hresult, List.map_cons, bfs_last (by rw [hlength]; exact hcap)
      (fun hold => hnew ((hvisited _).mpr hold)) (by rw [← hnodes, hlength]; exact hstop), hnodes]
  -- a page whose links are queued
  | case8 visited pages skipped url depth frontier hcap hnew visited' hpass hshallow proof hscrape
      page hgo discovered refused queued ih =>
    have hnodes : (pages ++ [page]).map CrawlPage.node =
        pages.map CrawlPage.node ++ [(normalizeVisitKey url, depth)] := by
      rw [List.map_append]
      rfl
    have hvisited' := visited_step page hvisited
    have hlinks : discovered = links (normalizeVisitKey url) := by
      obtain ⟨proof', hok, hlinks⟩ := hgraph url depth
      rw [hok, Except.ok.injEq] at hscrape
      subst hscrape
      exact hlinks
    have hqueued : ∀ e ∈ frontier ++ queued.map (fun next => (next, depth + 1)),
        isAllowed e.1 seed (allowHost options) = true ∧ e.2 ≤ options.maxDepth := by
      intro e he
      rcases List.mem_append.mp he with he | he
      · exact ⟨hallowed e (List.mem_cons_of_mem _ he), hdepth e (List.mem_cons_of_mem _ he)⟩
      · obtain ⟨next, hnext, rfl⟩ := List.mem_map.mp he
        have hkept := (List.mem_filter.mp hnext).2
        rw [Bool.and_eq_true] at hkept
        refine ⟨hkept.1, ?_⟩
        show depth + 1 ≤ options.maxDepth
        omega
    have hfresh : (queued.map fun next => (next, depth + 1)).map
        (fun e => (normalizeVisitKey e.1, e.2)) =
        ((allowedLinks options seed links (normalizeVisitKey url)).filter fun k =>
          k ∉ ((pages ++ [page]).map CrawlPage.node).map Prod.fst).map fun k => (k, depth + 1) := by
      rw [← queued_nodes hvisited', ← hlinks]
      rfl
    obtain ⟨pages', skipped', hloop, hresult, hall⟩ := ih (fun e he => (hqueued e he).1)
      (fun e he => (hqueued e he).2) hvisited'
      (fetched_step hpages (hallowed _ List.mem_cons_self) hscrape)
    refine ⟨pages', skipped', hloop, ?_, hall⟩
    rw [hresult, List.map_append, hfresh, hnodes, List.map_cons,
      bfs_take (by rw [hlength]; exact hcap) (fun hold => hnew ((hvisited _).mpr hold))
        (by rw [← hnodes, hlength]; exact hgo)]

/-! ## The crawl -/

theorem validateBounds_eq_ok {maxPages maxDepth : Nat}
    (h : validateBounds maxPages maxDepth = .ok ()) : 0 < maxPages := by
  obtain ⟨_, hpages, -⟩ := bind_eq_ok.mp h
  rw [require_eq_ok] at hpages
  simp only [bne_iff_ne, ne_eq] at hpages
  omega

/-- Without a filter the seed is allowed. -/
theorem isAllowed_seed {raw : String} (hseed : validateUrl lib.url raw = .ok seed)
    (hfilter : allowHost options = none) : isAllowed seed seed (allowHost options) = true := by
  rw [hfilter]
  exact sameOrigin_self (validateUrl_host hseed)

/-- A seed the filter refuses is skipped, and nothing is fetched. -/
theorem crawlLoop_refused (hpages : 0 < options.maxPages)
    (hrefused : isAllowed seed seed (allowHost options) = false) :
    crawlLoop lib options seed [(seed, 0)] [] [] [] =
      .ok ([], [⟨seed.toString, "outside_allow_domain"⟩]) := by
  have hcap : ¬ options.maxPages ≤ ([] : List CrawlPage).length := Nat.not_le.mpr hpages
  rw [crawlLoop, dif_neg hcap, if_neg List.not_mem_nil]
  simp only [hrefused, Bool.not_false, if_true]
  rw [crawlLoop, List.nil_append]

theorem crawl_of_loop {raw : String} {pages : List CrawlPage} {skipped : List CrawlSkipped}
    (hbounds : validateBounds options.maxPages options.maxDepth = .ok ())
    (hseed : validateUrl lib.url raw = .ok seed)
    (hloop : crawlLoop lib options seed [(seed, 0)] [] [] [] = .ok (pages, skipped)) :
    ∃ result, crawl lib raw options = .ok result ∧ result.pages = pages := by
  simp [crawl, hbounds, hseed, hloop, ok_bind]

/-- **The bounded crawl is breadth-first and complete**, from a seed its filter allows. -/
theorem crawl_breadth_first (lib : CrawlLib) (options : CrawlOptions) (raw : String) (seed : Url)
    (links : String → List Url)
    (hbounds : validateBounds options.maxPages options.maxDepth = .ok ())
    (hseed : validateUrl lib.url raw = .ok seed) (hgraph : LinkGraph lib options links) :
    ∃ result, crawl lib raw options = .ok result ∧
      (isAllowed seed seed (allowHost options) = false → result.pages = []) ∧
      (isAllowed seed seed (allowHost options) = true →
        result.pages.length ≤ options.maxPages ∧
        (result.pages.map fun page => normalizeVisitKey page.target).Nodup ∧
        (∀ page ∈ result.pages, Fetched lib options seed page ∧ page.depth ≤ options.maxDepth ∧
          Shortest (allowedLinks options seed links) (normalizeVisitKey seed) page.depth
            (normalizeVisitKey page.target)) ∧
        (result.pages.length < options.maxPages → ∀ n k,
          Walk (allowedLinks options seed links) (normalizeVisitKey seed) n k →
          n ≤ options.maxDepth → ∃ page ∈ result.pages, normalizeVisitKey page.target = k)) := by
  have hpos := validateBounds_eq_ok hbounds
  cases hallowed : isAllowed seed seed (allowHost options) with
  | false =>
    obtain ⟨result, hcrawl, hpages⟩ := crawl_of_loop hbounds hseed (crawlLoop_refused hpos hallowed)
    exact ⟨result, hcrawl, fun _ => hpages, fun h => absurd h Bool.false_ne_true⟩
  | true =>
    obtain ⟨pages, skipped, hloop, hnodes, hfetched⟩ := crawlLoop_bfs hgraph [(seed, 0)] [] [] []
      (fun e he => by rw [List.mem_singleton.mp he]; exact hallowed)
      (fun e he => by rw [List.mem_singleton.mp he]; exact Nat.zero_le _) (by simp) (by simp)
    obtain ⟨result, hcrawl, hpages⟩ := crawl_of_loop hbounds hseed hloop
    obtain ⟨hlen, hnodup, hshortest, hcomplete⟩ := bfs_correct (allowedLinks options seed links)
      (normalizeVisitKey seed) options.maxPages options.maxDepth
    have hnodes' : pages.map CrawlPage.node = bfs (allowedLinks options seed links)
      options.maxPages options.maxDepth [(normalizeVisitKey seed, 0)] [] := hnodes
    rw [← hnodes', List.length_map] at hlen hcomplete
    rw [← hnodes'] at hnodup hshortest
    rw [List.map_map] at hnodup hcomplete
    subst hpages
    refine ⟨result, hcrawl, fun h => absurd h.symm Bool.false_ne_true, fun _ =>
      ⟨hlen, hnodup, fun page hpage => ?_, fun hcap n k hwalk hn => ?_⟩⟩
    · have hspec := hshortest _ (List.mem_map_of_mem hpage)
      exact ⟨hfetched page hpage, hspec.2, hspec.1⟩
    · obtain ⟨page, hpage, rfl⟩ := List.mem_map.mp (hcomplete hcap n k hwalk hn)
      exact ⟨page, hpage, rfl⟩

/-- Every page links to `http://b.test/`. -/
def linkingProof : ScrapeProof :=
  { attestable "task" "nonce" with
    result := { formatsProduced := [("links", .object [("links",
      .array [.string "http://b.test/"])])] } }

def siteUrl (host : String) : Url := { scheme := "http", host := some host, path := "/" }

def linkingLib : CrawlLib where
  url := {
    parse := fun s =>
      if s = "http://a.test/" then .ok (siteUrl "a.test")
      else if s = "http://b.test/" then .ok (siteUrl "b.test")
      else .error .other
    join := fun _ _ => none }
  scrape := fun _ _ => .ok linkingProof
  findNext := fun _ _ => none
  extractLinks := fun _ _ => []

/-- A crawl of two pages at most, one step deep. -/
def twoPages (allowDomain : Option String) : CrawlOptions where
  scrape := {}
  maxPages := 2
  maxDepth := 1
  allowDomain := allowDomain

theorem linkingLib_graph (options : CrawlOptions) :
    LinkGraph linkingLib options fun _ => [siteUrl "b.test"] :=
  fun _ _ => ⟨linkingProof, rfl, rfl⟩

/-- A seed that links to itself. -/
theorem crawl_breadth_first_self_link :
    ∃ result, crawl linkingLib "http://b.test/" (twoPages none) = .ok result ∧
      (result.pages.map fun page => normalizeVisitKey page.target).Nodup := by
  obtain ⟨result, hcrawl, -, hpages⟩ := crawl_breadth_first linkingLib (twoPages none)
    "http://b.test/" (siteUrl "b.test") (fun _ => [siteUrl "b.test"]) rfl rfl
    (linkingLib_graph (twoPages none))
  exact ⟨result, hcrawl, (hpages (by decide)).2.1⟩

/-- A seed outside the filter: the allowed page it links to is not fetched. -/
theorem crawl_refuses_seed_outside_filter :
    ¬ ∀ (lib : CrawlLib) (options : CrawlOptions) (raw : String) (seed : Url)
      (links : String → List Url), validateBounds options.maxPages options.maxDepth = .ok () →
      validateUrl lib.url raw = .ok seed → LinkGraph lib options links →
      ∃ result, crawl lib raw options = .ok result ∧
        (result.pages.length < options.maxPages → ∀ n k,
          Walk (allowedLinks options seed links) (normalizeVisitKey seed) n k →
          n ≤ options.maxDepth → 0 < n →
          ∃ page ∈ result.pages, normalizeVisitKey page.target = k) := by
  intro hclaim
  obtain ⟨result, hcrawl, hcomplete⟩ := hclaim linkingLib (twoPages (some "b.test"))
    "http://a.test/" (siteUrl "a.test") (fun _ => [siteUrl "b.test"]) rfl rfl
    (linkingLib_graph (twoPages (some "b.test")))
  have hskipped : ∃ result, crawl linkingLib "http://a.test/" (twoPages (some "b.test")) =
      .ok result ∧ result.pages = [] :=
    crawl_of_loop (show validateBounds 2 1 = .ok () from rfl)
      (show validateUrl linkingLib.url "http://a.test/" = .ok (siteUrl "a.test") from rfl)
      (crawlLoop_refused (by decide) (by decide))
  obtain ⟨result', hcrawl', hnone⟩ := hskipped
  rw [hcrawl, Except.ok.injEq] at hcrawl'
  subst hcrawl'
  have hwalk : Walk (allowedLinks (twoPages (some "b.test")) (siteUrl "a.test")
      fun _ => [siteUrl "b.test"]) (normalizeVisitKey (siteUrl "a.test")) 1 "http://b.test/" :=
    Walk.step Walk.refl (by decide)
  obtain ⟨page, hpage, -⟩ := hcomplete (by rw [hnone]; decide) 1 _ hwalk (by decide) (by decide)
  rw [hnone] at hpage
  cases hpage

end Basecrawl.Core.Crawl
