/-
  What a failed page does to a scrape that follows next links.

  The source announces that the pages after the first are best-effort.  The loop passes their errors
  on all the same, so the whole scrape ends with the first of them, and page one is lost
  (`scrape_error_of_failedPage`).

  1. **The failing page** — `pageFailure` runs the loop up to the first page that fails.
  2. **The scrape** — the stages before the loop, in front of it.
-/
import Basecrawl.Core.ErrorReport
import Basecrawl.Core.Path

namespace Basecrawl.Core

open Run

variable {σ : Type}

/-! ## The failing page -/

/-- The error of the first page after page one that fails, if one does. -/
def pageFailure (lib : ScrapeLib) (host : Host σ) (session : Session) :
    Nat → CrawlState → World σ → Option Error
  | 0, _, _ => none
  | remaining + 1, st, w =>
      match lib.findNext st.currentHtml st.currentBase with
      | none => none
      | some next =>
          if st.crawledUrls.contains next.toString then none
          else
            match (note (.followed next) >>= fun _ => crawlPage lib host session next) w with
            | .error e _ => some e
            | .ok page w =>
                match aggregatePage page st.aggregatedMarkdown w with
                | .error _ _ => none
                | .ok aggregated w =>
                    pageFailure lib host session remaining
                      { crawledUrls := st.crawledUrls ++ [next.toString]
                        currentHtml := page.html
                        currentBase := page.base
                        aggregatedMarkdown := aggregated } w

/-- **The loop** ends with that error. -/
theorem crawlLoop_error {lib : ScrapeLib} {host : Host σ} {session : Session} {e : Error} :
    ∀ {remaining : Nat} {st : CrawlState} {w : World σ},
      pageFailure lib host session remaining st w = some e →
      ∃ w', crawlLoop lib host session remaining st w = .error e w' := by
  intro remaining
  induction remaining with
  | zero =>
    intro st w h
    cases h
  | succ remaining ih =>
    intro st w h
    unfold pageFailure at h
    unfold crawlLoop
    cases hnext : lib.findNext st.currentHtml st.currentBase with
    | none =>
      rw [hnext] at h
      cases h
    | some next =>
      rw [hnext] at h
      by_cases hseen : st.crawledUrls.contains next.toString = true
      · simp only [if_pos hseen] at h
        cases h
      · simp only [if_neg hseen] at h ⊢
        -- the note of the link, then the page
        rw [bind_apply] at h ⊢
        cases hnote : note (.followed next) w with
        | error e' w' =>
          rw [hnote] at h
          cases hnote
        | ok u w₁ =>
          rw [hnote] at h
          simp only at h ⊢
          cases hpage : crawlPage lib host session next w₁ with
          | error e' w' =>
            rw [hpage] at h
            obtain rfl := Option.some.inj h
            exact ⟨w', bind_of_error _ hpage⟩
          | ok page w₂ =>
            rw [hpage] at h
            rw [bind_of_ok _ hpage]
            simp only at h ⊢
            cases haggregate : aggregatePage page st.aggregatedMarkdown w₂ with
            | error e' w' =>
              rw [haggregate] at h
              cases h
            | ok aggregated w₃ =>
              rw [haggregate] at h
              rw [bind_of_ok _ haggregate]
              exact ih h

/-! ## The scrape -/

/-- A scrape up to its session: the plan, the slot, the profile, the composer. -/
def openSession (lib : ScrapeLib) (host : Host σ) (env : Env) (rawUrl : String)
    (options : ScrapeOptions) : Prog σ Session := do
  let plan ← ofResult (planRequest lib.plan env rawUrl options)
  acquireSlot host env options plan
  let browser ← ofResult (planBrowser env options plan)
  let dir ← acquireProfile host options browser
  let composer ← startComposer host browser plan.proxy
  pure ⟨env, options, plan, browser, dir, composer⟩

/-- Page one of a session, with the formats produced from it. -/
structure PageOneDone where
  fetched : Fetched
  one : PageOne
  production : Production

/-- Page one, up to pagination. -/
def scrapePageOne (lib : ScrapeLib) (host : Host σ) (session : Session) : Prog σ PageOneDone := do
  update fun w => { w with hops := [] }
  let fetched ← fetchPage lib host session session.request.url
  let robots ← initialDecision
  let page ← ofResult (readPage lib session fetched)
  let sitemaps ← sitemapUrls lib host session robots
  let runtime ← ofResult (resolveRuntime session.env session.options.captchaApiKey
    session.options.captchaSolveTimeoutSecs)
  let rendered ← renderPageOne lib host session runtime page
  note (.document (page.document (rendered.html.getD page.body)))
  let one : PageOne := ⟨page, rendered, robots, sitemaps⟩
  let production ← produceFormats lib host session fetched one session.request.formats
    ⟨[], rendered.html.isSome⟩
  pure ⟨fetched, one, production⟩

/-- The error of the page after page one that fails in a scrape, if page one succeeds and the scrape
    follows next links. -/
def failedPage (lib : ScrapeLib) (host : Host σ) (env : Env) (rawUrl : String)
    (options : ScrapeOptions) (w : World σ) : Option Error :=
  match openSession lib host env rawUrl options w with
  | .error _ _ => none
  | .ok session w =>
      match scrapePageOne lib host session w with
      | .error _ _ => none
      | .ok done w =>
          if options.followPagination then
            pageFailure lib host session (max session.options.maxPages 1 - 1)
              (.start session done.one done.production.formats) w
          else none

/-- The session goes on from page one to the pagination and the proof. -/
theorem scrapeSession_eq (lib : ScrapeLib) (host : Host σ) (session : Session) :
    scrapeSession lib host session = (do
      let done ← scrapePageOne lib host session
      let crawl ← paginate lib host session done.one done.production.formats
      let formats ← materializeRobotsPolicyHops crawl.formats
      checkDeadline host
      ofResult (assembleProof lib session done.fetched done.one.page done.production.chromiumUsed
        formats crawl.crawledUrls)) := by
  unfold scrapeSession scrapePageOne
  simp only [bind_assoc, pure_bind]

/-- The error of a later page is the error of the session. -/
theorem scrapeSession_error {lib : ScrapeLib} {host : Host σ} {session : Session}
    {done : PageOneDone} {w w₁ : World σ} {e : Error}
    (hone : scrapePageOne lib host session w = .ok done w₁)
    (hfollow : session.options.followPagination = true)
    (hfails : pageFailure lib host session (max session.options.maxPages 1 - 1)
      (.start session done.one done.production.formats) w₁ = some e) :
    ∃ w', scrapeSession lib host session w = .error e w' := by
  obtain ⟨w', hloop⟩ := crawlLoop_error hfails
  refine ⟨w', ?_⟩
  rw [scrapeSession_eq, bind_of_ok _ hone]
  refine bind_of_error _ ?_
  unfold paginate
  rw [if_pos hfollow]
  exact bind_of_error _ hloop

/-- A session is opened step by step. -/
theorem openSession_eq_ok {lib : ScrapeLib} {host : Host σ} {env : Env} {rawUrl : String}
    {options : ScrapeOptions} {w w' : World σ} {session : Session}
    (h : openSession lib host env rawUrl options w = .ok session w') :
    ∃ plan browser dir composer w₁ w₂,
      planRequest lib.plan env rawUrl options = .ok plan ∧
      acquireSlot host env options plan w = .ok () w₁ ∧
      planBrowser env options plan = .ok browser ∧
      acquireProfile host options browser w₁ = .ok dir w₂ ∧
      startComposer host browser plan.proxy w₂ = .ok composer w' ∧
      session = ⟨env, options, plan, browser, dir, composer⟩ := by
  unfold openSession at h
  obtain ⟨plan, hplan, h⟩ := ofResult_bind_eq_ok.mp h
  obtain ⟨u, w₁, hslot, h⟩ := bind_run_eq_ok.mp h
  obtain ⟨browser, hbrowser, h⟩ := ofResult_bind_eq_ok.mp h
  obtain ⟨dir, w₂, hdir, h⟩ := bind_run_eq_ok.mp h
  obtain ⟨composer, w₃, hcomposer, h⟩ := bind_run_eq_ok.mp h
  cases h
  exact ⟨plan, browser, dir, composer, w₁, w₂, hplan, hslot, hbrowser, hdir, hcomposer, rfl⟩

/-- **Pagination is not best-effort.**  In every scrape that follows next links, whose page one
    succeeds and of whose later pages one fails, the scrape fails with the error of that page. -/
theorem scrape_error_of_failedPage (lib : ScrapeLib) (host : Host σ) (env : Env) (rawUrl : String)
    (options : ScrapeOptions) (w : World σ) (e : Error)
    (h : failedPage lib host env rawUrl options w = some e) :
    ∃ w', scrape lib host env rawUrl options w = .error e w' := by
  unfold failedPage at h
  cases hopen : openSession lib host env rawUrl options w with
  | error e' w' =>
    rw [hopen] at h
    cases h
  | ok session w₁ =>
    rw [hopen] at h
    simp only at h
    cases hone : scrapePageOne lib host session w₁ with
    | error e' w' =>
      rw [hone] at h
      cases h
    | ok done w₂ =>
      rw [hone] at h
      simp only at h
      split at h
      · rename_i hfollow
        obtain ⟨plan, browser, dir, composer, w₃, w₄, hplan, hslot, hbrowser, hdir, hcomposer,
          rfl⟩ := openSession_eq_ok hopen
        obtain ⟨w₅, hsession⟩ := scrapeSession_error hone hfollow h
        -- the error passes the guards of the profile and of the slot
        have hguarded : scrapeGuarded lib host env options plan browser dir w₄ = .error e w₅ := by
          unfold scrapeGuarded
          rw [bind_of_ok _ hcomposer]
          exact hsession
        have hplanned : scrapePlanned lib host env options plan w₃ =
            .error e (wipeProfile host options browser w₅) := by
          unfold scrapePlanned
          rw [hbrowser]
          refine (bind_of_ok _ (show ofResult (.ok browser) w₃ = .ok browser w₃ from rfl)).trans ?_
          rw [bind_of_ok _ hdir]
          exact bind_of_error _ (releasing_of_error hguarded)
        refine ⟨releaseSlot host env options plan (wipeProfile host options browser w₅), ?_⟩
        unfold scrape
        rw [hplan]
        refine (bind_of_ok _ (show ofResult (.ok plan) w = .ok plan w from rfl)).trans ?_
        rw [bind_of_ok _ hslot]
        exact releasing_of_error hplanned
      · cases h

/-- The source and the markdown of the shop, page after page. -/
def followingOptions : ScrapeOptions := { sourceOptions with followPagination := true }

/-- The shop answers for its first page only. -/
def firstPageOnly : Script := ⟨[firstReply], ["<h1>one</h1>"]⟩

/-- The error of page two, if page one succeeds. -/
def resetPage : Option Error :=
  failedPage scriptedScrapeLib scriptedHost (fun _ => none) (shopUrl "/").toString
    followingOptions ⟨firstPageOnly, [], []⟩

/-- Page one succeeds, and the connection of page two is reset. -/
theorem resetPage_kind : resetPage.map Error.kind = some "transport_error" := by
  decide +kernel

/-- Page one is lost with page two. -/
theorem scrape_pagination_fails :
    resetPage.map Error.kind = some "transport_error" ∧
    ¬∃ proof w, scriptedScrape followingOptions firstPageOnly = .ok proof w := by
  refine ⟨resetPage_kind, ?_⟩
  rintro ⟨proof, w, hok⟩
  have hreport : (outcome (scriptedScrape followingOptions firstPageOnly)).toOption.isSome =
      false := by
    decide +kernel
  rw [hok] at hreport
  cases hreport

/-- The error of page two is the error of the scrape. -/
theorem scrape_error_of_failedPage_reset :
    ∃ e w', scriptedScrape followingOptions firstPageOnly = .error e w' ∧
      e.kind = "transport_error" := by
  have hkind := resetPage_kind
  cases hfailed : resetPage with
  | none =>
    rw [hfailed] at hkind
    cases hkind
  | some e =>
    rw [hfailed] at hkind
    obtain ⟨w', herror⟩ := scrape_error_of_failedPage _ _ _ _ _ _ _ hfailed
    exact ⟨e, w', herror, Option.some.inj hkind⟩

end Basecrawl.Core
