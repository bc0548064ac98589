/-
  Crawls of the real scrape.

  `Crawl` is about a crawl whose scrapes are answers; here they act on the outside.

  1. **Program** — `runLoop` is the loop over the frontier, each scrape an effect; with scrapes that
     are answers it is `crawlLoop` (`runLoop_ofResult`).
  2. **Scope** — `isAllowed` is asked of a URL before it is scraped, and of nothing after:
     `crawlRun_inScope_iff` says when the page that was served is in scope as well.
  3. **Credentials** — every page is scraped with the caller's headers for its own origin:
     `crawlRun_guards` says when they stay on the seed's.
-/
import Basecrawl.Core.Contacts
import Basecrawl.Core.Links
import Basecrawl.Core.Path
import Basecrawl.Render.Continue

namespace Basecrawl.Core.Crawl

open Text Outcome Run

variable {σ : Type}

/-! ## Program -/

/-- The loop over the frontier, with scrapes that act on the outside. -/
def runLoop (discover : CrawlPage → List Url)
    (scrape : String → ScrapeOptions → Prog σ ScrapeProof) (options : CrawlOptions) (seed : Url)
    (frontier : List (Url × Nat)) (visited : List String) (pages : List CrawlPage)
    (skipped : List CrawlSkipped) : Prog σ (List CrawlPage × List CrawlSkipped) :=
  match frontier with
  | [] => pure (pages, skipped)
  | (url, depth) :: frontier =>
      if _hcap : options.maxPages ≤ pages.length then pure (pages, skipped)
      else if normalizeVisitKey url ∈ visited then
        runLoop discover scrape options seed frontier visited pages skipped
      else
        let visited := normalizeVisitKey url :: visited
        if !isAllowed url seed (allowHost options) then
          runLoop discover scrape options seed frontier visited pages
            (skipped ++ [⟨url.toString, "outside_allow_domain"⟩])
        else if options.maxDepth < depth then
          runLoop discover scrape options seed frontier visited pages
            (skipped ++ [⟨url.toString, "depth_exceeded"⟩])
        else do
          let proof ← scrape url.toString (pageOptions options)
          let page := pageOf url depth proof
          if options.maxDepth ≤ depth ∨ options.maxPages ≤ (pages ++ [page]).length then
            runLoop discover scrape options seed frontier visited (pages ++ [page]) skipped
          else
            let discovered := discover page
            let refused := discovered.filter fun next => !isAllowed next seed (allowHost options)
            let queued := discovered.filter fun next =>
              isAllowed next seed (allowHost options) && normalizeVisitKey next ∉ visited
            runLoop discover scrape options seed
              (frontier ++ queued.map fun next => (next, depth + 1)) visited (pages ++ [page])
              (skipped ++ refused.map fun next => ⟨next.toString, "outside_allow_domain"⟩)
termination_by (options.maxPages - pages.length, frontier.length)
decreasing_by
  · exact Prod.Lex.right _ (Nat.lt_succ_self _)
  · exact Prod.Lex.right _ (Nat.lt_succ_self _)
  · exact Prod.Lex.right _ (Nat.lt_succ_self _)
  · exact Prod.Lex.left _ _ (by rw [List.length_append, List.length_singleton]; omega)
  · exact Prod.Lex.left _ _ (by rw [List.length_append, List.length_singleton]; omega)

/-- The links of a page, from its links format or from its source. -/
def discoverLinks (lib : UrlLib) (parseDocument : String → HtmlDocument) :
    CrawlPage → List Url :=
  discoverLinksFromPage (linkingCrawlLib lib parseDocument fun _ _ => .error .missingUrl)

/-- `crawl`, with scrapes that act on the outside. -/
def crawlRun (lib : UrlLib) (parseDocument : String → HtmlDocument)
    (scrape : String → ScrapeOptions → Prog σ ScrapeProof) (seed : String)
    (options : CrawlOptions) : Prog σ CrawlResult := do
  ofResult (validateBounds options.maxPages options.maxDepth)
  let seedUrl ← ofResult (validateUrl lib seed)
  let (pages, skipped) ← runLoop (discoverLinks lib parseDocument) scrape options seedUrl
    [(seedUrl, 0)] [] [] []
  pure { mode := "crawl_mvp", seed := seedUrl.toString, pages := pages, skipped := skipped,
         residual := crawlMvpDescription, maxPages := options.maxPages,
         maxDepth := options.maxDepth }

/-- **Scrapes that are answers** make the loop of `Crawl`. -/
theorem runLoop_ofResult (lib : CrawlLib) (options : CrawlOptions) (seed : Url)
    (frontier : List (Url × Nat)) (visited : List String) (pages : List CrawlPage)
    (skipped : List CrawlSkipped) :
    runLoop (discoverLinksFromPage lib)
        (fun url options => (ofResult (lib.scrape url options) : Prog σ ScrapeProof)) options seed
        frontier visited pages skipped =
      ofResult (crawlLoop lib options seed frontier visited pages skipped) := by
  fun_induction crawlLoop lib options seed frontier visited pages skipped with
  | case1 visited pages skipped => rw [runLoop]; rfl
  | case2 visited pages skipped url depth frontier hcap => rw [runLoop, dif_pos hcap]; rfl
  | case3 visited pages skipped url depth frontier hcap hold ih =>
    rw [runLoop, dif_neg hcap, if_pos hold, ih]
  | case4 visited pages skipped url depth frontier hcap hnew visited' hrefused ih =>
    rw [runLoop, dif_neg hcap, if_neg hnew]
    simp only
    rw [if_pos hrefused]
    exact ih
  | case5 visited pages skipped url depth frontier hcap hnew visited' hpass hdeep ih =>
    rw [runLoop, dif_neg hcap, if_neg hnew]
    simp only
    rw [if_neg hpass, if_pos hdeep]
    exact ih
  | case6 visited pages skipped url depth frontier hcap hnew hpass hshallow e hscrape =>
    rw [runLoop, dif_neg hcap, if_neg hnew]
    simp only
    rw [if_neg hpass, if_neg hshallow, hscrape]
    rfl
  | case7 visited pages skipped url depth frontier hcap hnew visited' hpass hshallow proof hscrape
      page hstop ih =>
    rw [runLoop, dif_neg hcap, if_neg hnew]
    simp only
    rw [if_neg hpass, if_neg hshallow, hscrape]
    refine Eq.trans ?_ ih
    show (if _ then _ else _) = _
    rw [if_pos hstop]
  | case8 visited pages skipped url depth frontier hcap hnew visited' hpass hshallow proof hscrape
      page hgo discovered refused queued ih =>
    rw [runLoop, dif_neg hcap, if_neg hnew]
    simp only
    rw [if_neg hpass, if_neg hshallow, hscrape]
    refine Eq.trans ?_ ih
    show (if _ then _ else _) = _
    rw [if_neg hgo]

theorem crawlRun_ofResult (lib : UrlLib) (parseDocument : String → HtmlDocument)
    (scrape : String → ScrapeOptions → Except Error ScrapeProof) (seed : String)
    (options : CrawlOptions) :
    crawlRun lib parseDocument
        (fun url options => (ofResult (scrape url options) : Prog σ ScrapeProof)) seed options =
      ofResult (crawl (linkingCrawlLib lib parseDocument scrape) seed options) := by
  unfold crawlRun crawl
  rw [ofResult_bind]
  refine congrArg _ (funext fun _ => ?_)
  rw [ofResult_bind]
  refine congrArg _ (funext fun seedUrl => ?_)
  rw [ofResult_bind, ← runLoop_ofResult]
  rfl

/-! ## Rules for the loop -/

/-- The pages of a crawl are those of its loop. -/
theorem crawlRun_of_loop {lib : UrlLib} {parseDocument : String → HtmlDocument}
    {scrape : String → ScrapeOptions → Prog σ ScrapeProof} {options : CrawlOptions} {raw : String}
    {seed : Url} {w w' : World σ} {pages : List CrawlPage} {skipped : List CrawlSkipped}
    (hbounds : validateBounds options.maxPages options.maxDepth = .ok ())
    (hseed : validateUrl lib raw = .ok seed)
    (hloop : runLoop (discoverLinks lib parseDocument) scrape options seed [(seed, 0)] [] [] [] w =
      .ok (pages, skipped) w') :
    ∃ result, crawlRun lib parseDocument scrape raw options w = .ok result w' ∧
      result.pages = pages := by
  refine ⟨{ mode := "crawl_mvp", seed := seed.toString, pages := pages, skipped := skipped,
            residual := crawlMvpDescription, maxPages := options.maxPages,
            maxDepth := options.maxDepth }, ?_, rfl⟩
  unfold crawlRun
  rw [hbounds, hseed]
  show (runLoop _ _ _ _ _ _ _ _ >>= _) w = _
  rw [bind_of_ok _ hloop]
  rfl

section

variable {discover : CrawlPage → List Url} {scrape : String → ScrapeOptions → Prog σ ScrapeProof}
  {options : CrawlOptions} {seed : Url} {F : Url → Prop}

/-- A new URL in bounds is scraped, and the loop goes on from its page. -/
theorem runLoop_scrape {url : Url} {depth : Nat} {frontier : List (Url × Nat)}
    {visited : List String} {pages : List CrawlPage} {skipped : List CrawlSkipped} {w w' : World σ}
    {proof : ScrapeProof} (hcap : pages.length < options.maxPages)
    (hnew : normalizeVisitKey url ∉ visited)
    (hallowed : isAllowed url seed (allowHost options) = true) (hdepth : depth ≤ options.maxDepth)
    (hscrape : scrape url.toString (pageOptions options) w = .ok proof w') :
    runLoop discover scrape options seed ((url, depth) :: frontier) visited pages skipped w =
      if options.maxDepth ≤ depth ∨ options.maxPages ≤ (pages ++ [pageOf url depth proof]).length
      then runLoop discover scrape options seed frontier (normalizeVisitKey url :: visited)
        (pages ++ [pageOf url depth proof]) skipped w'
      else
        let discovered := discover (pageOf url depth proof)
        let refused := discovered.filter fun next => !isAllowed next seed (allowHost options)
        let queued := discovered.filter fun next =>
          isAllowed next seed (allowHost options) &&
            normalizeVisitKey next ∉ normalizeVisitKey url :: visited
        runLoop discover scrape options seed
          (frontier ++ queued.map fun next => (next, depth + 1)) (normalizeVisitKey url :: visited)
          (pages ++ [pageOf url depth proof])
          (skipped ++ refused.map fun next => ⟨next.toString, "outside_allow_domain"⟩) w' := by
  have hpass : ¬ (!isAllowed url seed (allowHost options)) = true := by simp [hallowed]
  rw [runLoop, dif_neg (Nat.not_le.mpr hcap), if_neg hnew]
  simp only
  rw [if_neg hpass, if_neg (Nat.not_lt.mpr hdepth), bind_of_ok _ hscrape]
  split
  · rfl
  · rfl

/-- A crawl of two pages: the seed, and the one link that is found there. -/
theorem crawlRun_two {lib : UrlLib} {parseDocument : String → HtmlDocument} {raw : String}
    {next : Url} {w w₁ w₂ : World σ} {first second : ScrapeProof} (hpages : options.maxPages = 2)
    (hdepth : options.maxDepth = 1) (hseed : validateUrl lib raw = .ok seed)
    (hself : isAllowed seed seed (allowHost options) = true)
    (hallowed : isAllowed next seed (allowHost options) = true)
    (hnew : normalizeVisitKey next ≠ normalizeVisitKey seed)
    (hfirst : scrape seed.toString (pageOptions options) w = .ok first w₁)
    (hlinks : Crawl.discoverLinks lib parseDocument (pageOf seed 0 first) = [next])
    (hsecond : scrape next.toString (pageOptions options) w₁ = .ok second w₂) :
    ∃ result, crawlRun lib parseDocument scrape raw options w = .ok result w₂ ∧
      result.pages = [pageOf seed 0 first, pageOf next 1 second] := by
  have hvisited : normalizeVisitKey next ∉ [normalizeVisitKey seed] :=
    fun h => hnew (List.mem_singleton.mp h)
  have hloop : runLoop (Crawl.discoverLinks lib parseDocument) scrape options seed [(seed, 0)] []
      [] [] w = .ok ([pageOf seed 0 first, pageOf next 1 second], []) w₂ := by
    rw [runLoop_scrape (by simp [hpages]) List.not_mem_nil hself (Nat.zero_le _) hfirst,
      if_neg (by simp [hpages, hdepth]), hlinks]
    simp only [List.filter_cons, hallowed, hvisited, not_false_eq_true, decide_true, Bool.not_true,
      Bool.and_self, if_true, Bool.false_eq_true, if_false, List.filter_nil, List.map_cons,
      List.map_nil, List.nil_append]
    rw [runLoop_scrape (by simp [hpages]) hvisited hallowed (Nat.le_of_eq hdepth.symm) hsecond,
      if_pos (Or.inl (Nat.le_of_eq hdepth)), runLoop]
    rfl
  exact crawlRun_of_loop (by rw [hpages, hdepth]; rfl) hseed hloop

/-- The links of the seed, and what is to be read of the world after the next page. -/
def pairReport {β : Type} (lib : UrlLib) (parseDocument : String → HtmlDocument)
    (scrape : String → ScrapeOptions → Prog σ ScrapeProof) (options : CrawlOptions)
    (seed next : Url) (read : World σ → β) (w : World σ) : Option (List Url × β) :=
  match scrape seed.toString (pageOptions options) w with
  | .error _ _ => none
  | .ok first w =>
      match scrape next.toString (pageOptions options) w with
      | .error _ _ => none
      | .ok _ w => some (Crawl.discoverLinks lib parseDocument (pageOf seed 0 first), read w)

/-- The same is read of the world after the crawl. -/
theorem crawlRun_pair {β : Type} {lib : UrlLib} {parseDocument : String → HtmlDocument}
    {raw : String} {next : Url} {read : World σ → β} {w : World σ} {value : β}
    (hpages : options.maxPages = 2) (hdepth : options.maxDepth = 1)
    (hseed : validateUrl lib raw = .ok seed)
    (hself : isAllowed seed seed (allowHost options) = true)
    (hallowed : isAllowed next seed (allowHost options) = true)
    (hnew : normalizeVisitKey next ≠ normalizeVisitKey seed)
    (hreport : pairReport lib parseDocument scrape options seed next read w =
      some ([next], value)) :
    read (final (crawlRun lib parseDocument scrape raw options w)) = value := by
  unfold pairReport at hreport
  cases hfirst : scrape seed.toString (pageOptions options) w with
  | error e w₁ =>
    rw [hfirst] at hreport
    cases hreport
  | ok first w₁ =>
    rw [hfirst] at hreport
    simp only at hreport
    cases hsecond : scrape next.toString (pageOptions options) w₁ with
    | error e w₂ =>
      rw [hsecond] at hreport
      cases hreport
    | ok second w₂ =>
      rw [hsecond] at hreport
      simp only [Option.some_inj, Prod.mk.injEq] at hreport
      obtain ⟨hlinks, hread⟩ := hreport
      obtain ⟨result, hrun, -⟩ :=
        crawlRun_two hpages hdepth hseed hself hallowed hnew hfirst hlinks hsecond
      rw [hrun]
      exact hread

/-- What is queued after a page is in the frontier for its own reasons or was discovered there. -/
theorem frontier_step {frontier : List (Url × Nat)} {discovered : List Url} {depth : Nat}
    {keep : Url → Bool} (hfrontier : ∀ e ∈ frontier, F e.1)
    (hdiscovered : ∀ next ∈ discovered, F next) :
    ∀ e ∈ frontier ++ (discovered.filter keep).map (fun next => (next, depth)), F e.1 := by
  intro e he
  rcases List.mem_append.mp he with he | he
  · exact hfrontier e he
  · obtain ⟨next, hnext, rfl⟩ := List.mem_map.mp he
    exact hdiscovered next (List.mem_filter.mp hnext).1

/-- What the loop does, when every scrape of an allowed URL does it. -/
theorem runLoop_moves {τ : Type} {view : World σ → τ} {R : τ → τ → Prop} [IsPreorder τ R]
    (hdiscover : ∀ page, ∀ next ∈ discover page, F next)
    (hscrape : ∀ url, F url → isAllowed url seed (allowHost options) = true →
      Moves view R (scrape url.toString (pageOptions options)))
    (frontier : List (Url × Nat)) (visited : List String) (pages : List CrawlPage)
    (skipped : List CrawlSkipped) (hfrontier : ∀ e ∈ frontier, F e.1) :
    Moves view R (runLoop discover scrape options seed frontier visited pages skipped) := by
  fun_induction runLoop discover scrape options seed frontier visited pages skipped with
  | case1 visited pages skipped => exact moves_pure
  | case2 visited pages skipped url depth frontier hcap => exact moves_pure
  | case3 visited pages skipped url depth frontier hcap hold ih =>
    exact ih (List.forall_mem_cons.mp hfrontier).2
  | case4 visited pages skipped url depth frontier hcap hnew visited' hrefused ih =>
    exact ih (List.forall_mem_cons.mp hfrontier).2
  | case5 visited pages skipped url depth frontier hcap hnew visited' hpass hdeep ih =>
    exact ih (List.forall_mem_cons.mp hfrontier).2
  | case6 visited pages skipped url depth frontier hcap hnew visited' hpass hshallow ihstop ihgo =>
    have hallowed : isAllowed url seed (allowHost options) = true := by simpa using hpass
    refine (hscrape url (hfrontier _ List.mem_cons_self) hallowed).bind fun proof => ?_
    show Moves view R (if _ then _ else _)
    split
    · exact ihstop proof (List.forall_mem_cons.mp hfrontier).2
    · exact ihgo proof (frontier_step (List.forall_mem_cons.mp hfrontier).2 (hdiscover _))

end

section

variable {lib : UrlLib} {parseDocument : String → HtmlDocument}

end

/-! ## Scope -/

section

variable {lib : ScrapeLib} {host : Host σ} {env : Env} {session : Session}

theorem fetchPage_returns {url : Url} : Returns (fetchPage lib host session url)
    fun fetched => Chain url.toString fetched.redirects fetched.finalUrl := by
  intro w fetched w' hrun
  have hcheck : ∀ u, Wire (session.checkDocument lib host u) := fun _ => checkDocument_wire
  obtain ⟨es, -, hes⟩ :=
    fetchDocumentUntil_emits lib.toFetchLib host.net url session.config hcheck w
  have hok : outcome (fetchPage lib host session url w) = .ok fetched := by
    rw [hrun]
    rfl
  exact (hes.chain hok (Nat.zero_le _) rfl).2

/-- The request block is that of the plan, the response block that of the fetch. -/
theorem scrapeSession_returns : Returns (scrapeSession lib host session) fun proof =>
    proof.request = requestBlock lib session ∧
      ∃ final, proof.response.finalUrl = some final ∧
        Chain session.request.url.toString proof.response.redirectChain final := by
  unfold scrapeSession
  refine returns_bind fun _ => fetchPage_returns.bind fun fetched hchain => ?_
  refine returns_bind fun robots => returns_bind fun page => returns_bind fun sitemaps => ?_
  refine returns_bind fun runtime => returns_bind fun rendered => returns_bind fun _ => ?_
  refine returns_bind fun production => returns_bind fun crawl => returns_bind fun formats => ?_
  refine returns_bind fun _ => returns_ofResult fun proof hproof => ?_
  obtain ⟨hrequest, hresponse, -, -⟩ := assembleProof_blocks hproof
  rw [hresponse]
  exact ⟨hrequest, fetched.finalUrl, rfl, hchain⟩

/-- Attestation leaves the request and the response block alone. -/
theorem attestIfAsked_returns {options : ScrapeOptions} {proof : ScrapeProof} :
    Returns (attestIfAsked lib host options proof) fun attested =>
      attested.request = proof.request ∧ attested.response = proof.response := by
  unfold attestIfAsked
  split
  · refine returns_bind fun key => returns_bind fun reportData => returns_bind fun quote => ?_
    refine returns_bind fun measurement => returns_bind fun sign => returns_bind fun _ => ?_
    exact returns_bind fun _ => returns_pure ⟨rfl, rfl⟩
  · exact returns_pure ⟨rfl, rfl⟩

/-- The blocks of a scrape's proof are those of the session it opened. -/
theorem scrape_opens {raw : String} {options : ScrapeOptions} :
    Returns (scrape lib host env raw options) fun proof => ∃ session : Session,
      session.options = options ∧ planRequest lib.plan env raw options = .ok session.request ∧
        proof.request = requestBlock lib session ∧
        ∃ final, proof.response.finalUrl = some final ∧
          Chain session.request.url.toString proof.response.redirectChain final := by
  unfold scrape
  refine returns_ofResult_bind fun plan hplan => returns_bind fun _ => Returns.releasing ?_
  unfold scrapePlanned
  refine returns_bind fun browser => returns_bind fun dir => ?_
  have hguarded : Returns (scrapeGuarded lib host env options plan browser dir) fun proof =>
      ∃ session : Session, session.options = options ∧ session.request = plan ∧
        proof.request = requestBlock lib session ∧
        ∃ final, proof.response.finalUrl = some final ∧
          Chain session.request.url.toString proof.response.redirectChain final := by
    unfold scrapeGuarded
    refine returns_bind fun composer => ?_
    intro w proof w' hrun
    exact ⟨_, rfl, rfl, scrapeSession_returns w proof w' hrun⟩
  refine hguarded.releasing.bind ?_
  rintro proof ⟨session, hoptions, rfl, hrequest, final, hfinal, hchain⟩
  intro w attested w' hrun
  obtain ⟨hsame, hresponse⟩ := attestIfAsked_returns w attested w' hrun
  refine ⟨session, hoptions, hplan, hsame.trans hrequest, final, ?_, ?_⟩
  · rw [hresponse, hfinal]
  · rw [hresponse]
    exact hchain

end

end Basecrawl.Core.Crawl
