/-
  What a scrape does to the outside.

  1. **Operations** — `Host.Within host R …` says of every operation of a host that it leads from
     one state of the outside to another that `R` relates to it; dialing, sending and launching are
     asked of permitted arguments only.
  2. **Traversal** — `scrape_moves`: a scrape does nothing else, and its arguments are those of its
     session, so it leads from one state to another that `R` relates to it.
  3. **Contacts** — `Host.recording` keeps a list of what was dialed, sent and launched; the
     traversal says what can be on it.
-/
import Basecrawl.Core.Stages

namespace Basecrawl.Core

open Text Outcome Run

variable {σ α : Type}

/-! ## Operations -/

/-- The launch configuration of a task. -/
def BrowserTask.launch : BrowserTask → LaunchConfig
  | .render config => config.toLaunchConfig
  | .screenshot config => config.toLaunchConfig

/-- What may be dialed, sent and launched. -/
structure Permit where
  dial : Option ProxyConfig → Prop
  send : HttpRequest → Prop
  launch : BrowserTask → Prop

/-- The network stays within `R`. -/
structure Network.Within (net : Network σ) (R : σ → σ → Prop) (permit : Permit) : Prop where
  pace : ∀ url s, R s (final (net.pace url s))
  dial : ∀ proxy host port s, permit.dial proxy → R s (final (net.dial proxy host port s))
  handshake : ∀ config host s, R s (final (net.handshake config host s))
  exchange : ∀ request s, permit.send request → R s (final (net.exchange request s))

/-- The host stays within `R`. -/
structure Host.Within (host : Host σ) (R : σ → σ → Prop) (permit : Permit) : Prop where
  net : host.net.Within R permit
  start : ∀ url task s, permit.launch task → R s (final (host.browser.start url task s))
  next : ∀ s, R s (final (host.browser.next s))
  answer : ∀ verdict s, R s (final (host.browser.answer verdict s))
  finish : ∀ s, R s (final (host.browser.finish s))
  provider : ∀ runtime request s, R s (final (host.provider runtime request s))
  acquireResidentialSlot : ∀ s, R s (final (host.acquireResidentialSlot s))
  releaseResidentialSlot : ∀ s, R s (host.releaseResidentialSlot s)
  acquireStickyProfile : ∀ key s, R s (final (host.acquireStickyProfile key s))
  wipeStickyProfile : ∀ key s, R s (host.wipeStickyProfile key s)
  startChromiumComposer : ∀ proxy s, R s (final (host.startChromiumComposer proxy s))
  signAt : ∀ message s, R s (final (host.signAt message s))
  getQuote : ∀ reportData s, R s (final (host.getQuote reportData s))

/-- A fetch with this configuration dials and sends what is permitted, for the origin its headers
    come from. -/
structure FetchConfig.Permitted (config : FetchConfig) (permit : Permit) (origin : Url) : Prop where
  supplied : config.credentialOrigin = some origin
  dial : permit.dial config.proxy
  send : ∀ url hopConfig request, hopConfig.headers = config.headers →
    Wrote url hopConfig origin request → permit.send request

/-! ## Fetching -/

section

variable {R : σ → σ → Prop} {permit : Permit}

theorem moves_outside {x : Outside σ α} (h : ∀ s, R s (final (x s))) :
    Moves World.outside R (outside x) := by
  intro w
  have hx := h w.outside
  unfold outside
  split
  · rename_i hrun
    rw [hrun] at hx
    exact hx
  · rename_i hrun
    rw [hrun] at hx
    exact hx

variable [IsPreorder σ R]

theorem moves_note {e : Event} : Moves World.outside R (note e : Prog σ Unit) :=
  moves_of_view_eq fun _ => rfl

theorem moves_observe {f : σ → α} : Moves World.outside R (observe f) :=
  moves_of_view_eq fun _ => rfl

variable {net : Network σ} (hnet : net.Within R permit) {config : FetchConfig} {origin : Url}
include hnet

theorem exchangeOn_moves {lib : FetchLib} {url : Url} {host : String} {port : Nat}
    {tls : Option Tls} {egressIp : String}
    (hsend : ∀ request, Wrote url config origin request → permit.send request) :
    Moves World.outside R (exchangeOn lib net url host port config origin tls egressIp) := by
  refine moves_ofResult_bind fun request hrequest => moves_note.bind fun _ => ?_
  refine (moves_outside ?_).bind fun reply => moves_note.bind fun _ => moves_pure
  exact fun s => hnet.exchange request s (hsend request ⟨host, port, hrequest⟩)

/-- One transmission. -/
theorem transmitHop_moves {lib : FetchLib} {url : Url} (hdial : permit.dial config.proxy)
    (hsend : ∀ request, Wrote url config origin request → permit.send request) :
    Moves World.outside R (transmitHop lib net url config origin) := by
  unfold transmitHop
  split
  · refine (moves_outside (hnet.pace url)).bind fun _ => moves_ofResult_bind fun host _ => ?_
    refine (moves_outside fun s => hnet.dial _ _ _ s hdial).bind fun egressIp => ?_
    exact exchangeOn_moves hnet hsend
  · refine (moves_outside (hnet.pace url)).bind fun _ => moves_ofResult_bind fun host _ => ?_
    refine moves_ofResult_bind fun _ _ => ?_
    refine (moves_outside fun s => hnet.dial _ _ _ s hdial).bind fun egressIp => ?_
    refine (moves_outside (hnet.handshake _ _)).bind fun handshake => ?_
    exact moves_ofResult_bind fun tls _ => exchangeOn_moves hnet hsend
  · exact moves_throw

omit hnet in
/-- A turn of the redirect loop: a hop, and what comes after it.  A hop changes the method and the
    body, not the headers or the proxy. -/
theorem fetchLoop_hop {lib : FetchLib} {check : Url → Prog σ Unit} {url : Url} {fuel : Nat}
    {st : HopState} (hheaders : st.hopConfig.headers = config.headers)
    (hproxy : st.hopConfig.proxy = config.proxy)
    (hloop : ∀ st' : HopState, st'.hopConfig.headers = config.headers →
      st'.hopConfig.proxy = config.proxy →
      Moves World.outside R (fetchLoop lib net check url origin fuel st')) :
    ∃ tail : SingleResponse → Prog σ Fetched,
      fetchLoop lib net check url origin (fuel + 1) st = (do
        check st.current
        note (.approved st.current)
        let response ← transmitHop lib net st.current st.hopConfig origin
        tail response) ∧
      ∀ response, Moves World.outside R (tail response) := by
  refine ⟨_, rfl, fun response => moves_ofResult_bind fun next hnext => ?_⟩
  cases next with
  | none => exact moves_observe.bind fun _ => moves_pure
  | some st' =>
    obtain ⟨-, -, target, rfl⟩ := nextHop_eq_some hnext
    refine hloop _ ?_ ?_
    · rw [← hheaders]
      unfold FetchConfig.afterRedirect
      split <;> rfl
    · rw [← hproxy]
      unfold FetchConfig.afterRedirect
      split <;> rfl

theorem fetchLoop_moves {lib : FetchLib} {check : Url → Prog σ Unit} {url : Url}
    (hcheck : ∀ u, Moves World.outside R (check u)) (hconfig : config.Permitted permit origin) :
    ∀ (fuel : Nat) (st : HopState), st.hopConfig.headers = config.headers →
      st.hopConfig.proxy = config.proxy →
      Moves World.outside R (fetchLoop lib net check url origin fuel st) := by
  intro fuel
  induction fuel with
  | zero => exact fun _ _ _ => moves_throw
  | succ fuel ih =>
    intro st hheaders hproxy
    obtain ⟨tail, hturn, htail⟩ := fetchLoop_hop hheaders hproxy ih
    have hhop : Moves World.outside R (transmitHop lib net st.current st.hopConfig origin) :=
      transmitHop_moves hnet (hproxy ▸ hconfig.dial)
        fun request hwrote => hconfig.send _ _ request hheaders hwrote
    rw [hturn]
    exact (hcheck st.current).bind fun _ => moves_note.bind fun _ => hhop.bind htail

theorem fetchDocumentUntil_moves {lib : FetchLib} {check : Url → Prog σ Unit} {url : Url}
    (hcheck : ∀ u, Moves World.outside R (check u)) (hconfig : config.Permitted permit origin) :
    Moves World.outside R (fetchDocumentUntil lib net url config check) := by
  unfold fetchDocumentUntil
  rw [hconfig.supplied]
  exact fetchLoop_moves hnet hcheck hconfig _ _ rfl rfl

theorem fetchUntil_moves {lib : FetchLib} {url : Url} (hconfig : config.Permitted permit origin) :
    Moves World.outside R (fetchUntil lib net url config) :=
  fetchDocumentUntil_moves hnet (fun _ => moves_pure) hconfig

theorem consult_moves {lib : RobotsLib} {url : Url} {policy : RobotsPolicy}
    (hconfig : config.Permitted permit origin) :
    Moves World.outside R (consult lib net url config policy) := by
  cases policy with
  | ignore => exact moves_pure
  | enforce => exact (fetchUntil_moves hnet hconfig).attempt.bind fun _ => moves_ofResult
  | observe => exact (fetchUntil_moves hnet hconfig).attempt.bind fun _ => moves_ofResult

omit hnet in
/-- A turn of the search: a fetch, and what comes after it. -/
theorem sitemapLoop_fetch {lib : RobotsLib} {remaining : Nat} {seen : List String}
    (seeds : List String) {stack rest : List Url} {url : Url} (hpop : popSitemap seen stack = some (url, rest))
    (hloop : ∀ seen seeds stack, Moves World.outside R
      (sitemapLoop lib net config remaining seen seeds stack)) :
    ∃ tail : Except Error Fetched → Prog σ (List String),
      sitemapLoop lib net config (remaining + 1) seen seeds stack =
        attempt (fetchUntil lib.toFetchLib net url config) >>= tail ∧
      ∀ fetched, Moves World.outside R (tail fetched) := by
  rw [sitemapLoop, hpop]
  refine ⟨_, rfl, fun fetched => moves_ofResult.bind fun document => ?_⟩
  split
  · exact moves_pure
  · exact hloop _ _ _

theorem sitemapLoop_moves {lib : RobotsLib} (hconfig : config.Permitted permit origin) :
    ∀ (remaining : Nat) (seen seeds : List String) (stack : List Url),
      Moves World.outside R (sitemapLoop lib net config remaining seen seeds stack) := by
  intro remaining
  induction remaining with
  | zero => exact fun _ _ _ => moves_pure
  | succ remaining ih =>
    intro seen seeds stack
    cases hpop : popSitemap seen stack with
    | none =>
      rw [sitemapLoop, hpop]
      exact moves_pure
    | some popped =>
      obtain ⟨url, rest⟩ := popped
      obtain ⟨tail, hturn, htail⟩ := sitemapLoop_fetch seeds hpop ih
      rw [hturn]
      exact (fetchUntil_moves hnet hconfig).attempt.bind htail

/-- Sitemap discovery. -/
theorem discoverSitemapUrls_moves {lib : RobotsLib} {target : Url} {robotsSitemaps : List Url}
    (hconfig : config.Permitted permit origin) :
    Moves World.outside R (discoverSitemapUrls lib net target config robotsSitemaps) :=
  sitemapLoop_moves hnet hconfig _ _ _ _

end

/-! ## The browser -/

/-- The launches of a session: it renders when it is hard or rendering is on, and takes a screenshot
    when that is one of its formats. -/
inductive Session.Launches (session : Session) (lib : ScrapeLib) : BrowserTask → Prop
  | render {config : RenderConfig} {hard : Bool} :
      config.toLaunchConfig = session.launchConfig lib hard →
      session.browser.hardRequired = true ∨ session.options.renderEnabled = true →
      session.Launches lib (.render config)
  | screenshot {config : ScreenshotConfig} :
      config.toLaunchConfig = session.launchConfig lib session.browser.hardRequired →
      .screenshot ∈ session.request.formats → session.Launches lib (.screenshot config)

/-- Every launch is configured by the session. -/
theorem Session.Launches.launch_eq {session : Session} {lib : ScrapeLib} {task : BrowserTask}
    (h : session.Launches lib task) : ∃ hard, task.launch = session.launchConfig lib hard := by
  cases h with
  | render hlaunch _ => exact ⟨_, hlaunch⟩
  | screenshot hlaunch _ => exact ⟨_, hlaunch⟩

/-- What a session dials, sends and launches is permitted. -/
structure Session.Permitted (session : Session) (lib : ScrapeLib) (permit : Permit) : Prop where
  config : session.config.Permitted permit session.request.url
  launch : ∀ task, session.Launches lib task → permit.launch task

section

variable {R : σ → σ → Prop} [IsPreorder σ R] {permit : Permit} {lib : ScrapeLib} {host : Host σ}
  {session : Session} {fetched : Fetched} {one : PageOne}

theorem driveBrowser_moves (hhost : host.Within R permit) {check : Url → Prog σ Unit}
    (hcheck : ∀ u, Moves World.outside R (check u)) {url : Url} {task : BrowserTask}
    (htask : permit.launch task) :
    Moves World.outside R (driveBrowser host.browser check url task) := by
  refine moves_note.bind fun _ => ?_
  refine (moves_outside fun s => hhost.start url task s htask).bind fun _ => ?_
  refine moves_observe.bind fun visits => ?_
  refine Moves.bind ?_ fun _ => moves_outside hhost.finish
  induction visits with
  | zero => exact moves_pure
  | succ visits ih =>
    unfold browse
    refine (moves_outside hhost.next).bind fun target => ?_
    cases target with
    | none => exact moves_pure
    | some target =>
      refine (hcheck target).attempt.bind fun verdict => ?_
      exact (moves_outside (hhost.answer verdict)).bind fun _ => ih

theorem solvePage_moves (hhost : host.Within R permit) {runtime : Option CaptchaSolverRuntime}
    {page : ServedPage} {html detail : String} :
    Moves World.outside R (solvePage host runtime page html detail) := by
  unfold solvePage tryOptionalChallengeSolve
  split
  · exact moves_throw
  · refine moves_ofResult.bind fun request => ?_
    refine Moves.bind ?_ fun _ => moves_ofResult
    unfold solveChallenge
    split
    · exact moves_pure
    · split
      · exact moves_pure
      · exact moves_outside (hhost.provider _ _)

/-! ## The stages -/

variable (hhost : host.Within R permit) (hsession : session.Permitted lib permit)
include hhost hsession

theorem checkDocument_moves (u : Url) :
    Moves World.outside R (session.checkDocument lib host u) := by
  refine (consult_moves hhost.net hsession.config).bind fun decision => ?_
  exact (moves_of_view_eq fun _ => rfl).bind fun _ => moves_ofResult

theorem fetchPage_moves {url : Url} : Moves World.outside R (fetchPage lib host session url) :=
  fetchDocumentUntil_moves hhost.net (checkDocument_moves hhost hsession) hsession.config

theorem sitemapUrls_moves {robots : RobotsDecision} :
    Moves World.outside R (sitemapUrls lib host session robots) := by
  unfold sitemapUrls
  split
  · exact discoverSitemapUrls_moves hhost.net hsession.config
  · exact moves_pure

theorem renderPage_moves {hard : Bool} {base : Url} {actions : List Action}
    (hrender : session.browser.hardRequired = true ∨ session.options.renderEnabled = true) :
    Moves World.outside R (renderPage lib host session hard base actions) := by
  refine (driveBrowser_moves hhost (checkDocument_moves hhost hsession) ?_).bind fun _ => moves_pure
  exact hsession.launch _ (.render rfl hrender)

theorem settleRendered_moves {runtime : Option CaptchaSolverRuntime} {page : ServedPage}
    {html : String} (pending : Option SolveSolution)
    (hrender : session.browser.hardRequired = true ∨ session.options.renderEnabled = true) :
    Moves World.outside R (settleRendered lib host session runtime page html pending) := by
  cases pending with
  | some solution => exact moves_ofResult.bind fun _ => moves_pure
  | none =>
    unfold settleRendered
    by_cases hblocked : session.isBlocked html page.statusCode = true
    · rw [if_pos hblocked]
      refine (solvePage_moves hhost).bind fun solution => ?_
      refine moves_ofResult.bind fun actions => ?_
      refine (renderPage_moves hhost hsession hrender).bind fun again => ?_
      exact moves_ofResult.bind fun _ => moves_pure
    · rw [if_neg hblocked]
      exact moves_pure

theorem renderPageOne_moves {runtime : Option CaptchaSolverRuntime} {page : ServedPage} :
    Moves World.outside R (renderPageOne lib host session runtime page) := by
  have hserved : Moves World.outside R (solveServed host session runtime page) := by
    unfold solveServed
    split
    · exact (solvePage_moves hhost).bind fun _ => moves_pure
    · exact moves_pure
  unfold renderPageOne
  refine hserved.bind fun pending => moves_ofResult.bind fun actions => ?_
  split
  · rename_i hshould
    have hrender : session.browser.hardRequired = true ∨ session.options.renderEnabled = true := by
      unfold shouldRenderHtml at hshould
      simp only [Bool.and_eq_true, Bool.or_eq_true] at hshould
      exact hshould.2.imp_right And.left
    refine (renderPage_moves hhost hsession hrender).bind fun html => ?_
    exact settleRendered_moves hhost hsession pending hrender
  · exact moves_ofResult

omit hhost hsession in
theorem surfaceHtml_moves : Moves World.outside R (one.surfaceHtml : Prog σ Unit) := by
  unfold PageOne.surfaceHtml
  split
  · exact moves_note
  · exact moves_pure

omit hhost hsession in
theorem textSurface_moves : Moves World.outside R (textSurface one : Prog σ Json.Tree) := by
  unfold textSurface
  split
  · exact moves_pure
  · exact moves_pure
  · exact moves_note.bind fun _ => moves_pure
  · exact moves_note.bind fun _ => moves_pure

omit hhost hsession in
theorem domSurface_moves {convert : String → String} :
    Moves World.outside R (domSurface one convert : Prog σ Json.Tree) := by
  unfold domSurface
  split
  · exact moves_note.bind fun _ => moves_pure
  · exact moves_pure
  · exact textSurface_moves
  · exact textSurface_moves

theorem produceFormat_moves {format : Format} (hformat : format ∈ session.request.formats) :
    Moves World.outside R (produceFormat lib host session fetched one format) := by
  cases format with
  | rawHtml => exact textSurface_moves
  | markdown =>
    show Moves World.outside R (domSurface one fun source => lib.toMarkdown source one.page.base)
    exact domSurface_moves
  | html =>
    show Moves World.outside R (domSurface one id)
    exact domSurface_moves
  | links =>
    unfold produceFormat linksSurface
    exact surfaceHtml_moves.bind fun _ => moves_pure
  | metadata =>
    unfold produceFormat metadataSurface
    exact surfaceHtml_moves.bind fun _ => moves_pure
  | json => exact moves_pure
  | screenshot =>
    refine (driveBrowser_moves hhost (checkDocument_moves hhost hsession) ?_).bind
      fun _ => moves_pure
    exact hsession.launch _ (.screenshot rfl hformat)

theorem produceFormats_moves : ∀ (formats : List Format) (production : Production),
    (∀ format ∈ formats, format ∈ session.request.formats) →
    Moves World.outside R (produceFormats lib host session fetched one formats production)
  | [], production, _ => moves_pure
  | format :: formats, production, hformats => by
      refine (produceFormat_moves hhost hsession (hformats _ List.mem_cons_self)).bind fun _ => ?_
      exact produceFormats_moves formats _ fun f hf => hformats f (List.mem_cons_of_mem _ hf)

theorem crawlPage_moves {url : Url} :
    Moves World.outside R (crawlPage lib host session url) := by
  refine (fetchPage_moves hhost hsession).bind fun fetched => ?_
  refine moves_ofResult.bind fun _ => Moves.bind ?_ fun _ => moves_note.bind fun _ => moves_pure
  unfold crawlSource
  split
  · rename_i hshould
    unfold shouldRenderCrawled at hshould
    simp only [Bool.and_eq_true] at hshould
    exact renderPage_moves hhost hsession (Or.inr hshould.1.1)
  · exact moves_pure

theorem crawlLoop_moves : ∀ (remaining : Nat) (st : CrawlState),
    Moves World.outside R (crawlLoop lib host session remaining st) := by
  intro remaining
  induction remaining with
  | zero => exact fun _ => moves_pure
  | succ remaining ih =>
    intro st
    unfold crawlLoop
    split
    · exact moves_pure
    · split
      · exact moves_pure
      · refine moves_note.bind fun _ => (crawlPage_moves hhost hsession).bind fun page => ?_
        refine Moves.bind ?_ fun aggregated => ih _
        unfold aggregatePage
        split
        · exact moves_pure
        · exact moves_note.bind fun _ => moves_pure

/-- A session. -/
theorem scrapeSession_moves : Moves World.outside R (scrapeSession lib host session) := by
  refine (moves_of_view_eq fun _ => rfl).bind fun _ => ?_
  refine (fetchPage_moves hhost hsession).bind fun fetched => ?_
  have hdecision : Moves World.outside R (initialDecision : Prog σ RobotsDecision) := by
    refine moves_of_view_eq fun w => ?_
    unfold initialDecision
    split <;> rfl
  refine hdecision.bind fun robots => moves_ofResult.bind fun page => ?_
  refine (sitemapUrls_moves hhost hsession).bind fun sitemaps => ?_
  refine moves_ofResult.bind fun runtime => ?_
  refine (renderPageOne_moves hhost hsession).bind fun rendered => moves_note.bind fun _ => ?_
  refine (produceFormats_moves hhost hsession _ _ fun _ h => h).bind fun production => ?_
  have hpaginate : ∀ {one : PageOne} {formats : List (String × Json.Tree)},
      Moves World.outside R (paginate lib host session one formats) := by
    intro one formats
    unfold paginate
    split
    · exact (crawlLoop_moves hhost hsession _ _).bind fun _ => moves_pure
    · exact moves_pure
  refine hpaginate.bind fun crawl => ?_
  refine Moves.bind ?_ fun formats => ?_
  · refine moves_of_view_eq fun w => ?_
    unfold materializeRobotsPolicyHops
    split <;> rfl
  · exact (moves_observe.bind fun _ => moves_ofResult).bind fun _ => moves_ofResult

end

/-! ## The scrape -/

/-- The session a scrape of these arguments opens. -/
structure Session.Opened (session : Session) (lib : ScrapeLib) (env : Env) (rawUrl : String)
    (options : ScrapeOptions) : Prop where
  asked : session.options = options
  request : planRequest lib.plan env rawUrl options = .ok session.request
  browser : planBrowser env options session.request = .ok session.browser
  composer : session.chromiumComposer.isSome =
    (session.browser.willUseBrowser && session.request.proxy.isSome)

section

variable {R : σ → σ → Prop} [IsPreorder σ R] {permit : Permit} {lib : ScrapeLib} {host : Host σ}
  {env : Env} {rawUrl : String} {options : ScrapeOptions} {plan : RequestPlan}
  {browser : BrowserPlan}

theorem attestIfAsked_moves (hhost : host.Within R permit) {proof : ScrapeProof} :
    Moves World.outside R (attestIfAsked lib host options proof) := by
  unfold attestIfAsked
  split
  · refine (moves_outside (hhost.signAt _)).bind fun key => moves_ofResult.bind fun reportData => ?_
    refine (moves_outside (hhost.getQuote _)).bind fun quote => ?_
    refine moves_ofResult.bind fun measurement => ?_
    refine (moves_outside (hhost.signAt _)).bind fun sign => ?_
    exact moves_ofResult.bind fun _ => moves_ofResult.bind fun _ => moves_pure
  · exact moves_pure

/-- The composer is there exactly for a browser behind an upstream. -/
theorem startComposer_isSome {proxy : Option ProxyConfig} {w w' : World σ}
    {composer : Option String} (h : startComposer host browser proxy w = .ok composer w') :
    composer.isSome = (browser.willUseBrowser && proxy.isSome) := by
  unfold startComposer at h
  cases hbrowser : browser.willUseBrowser with
  | false =>
    rw [hbrowser] at h
    cases h
    rfl
  | true =>
    rw [hbrowser] at h
    cases proxy with
    | none =>
      cases h
      rfl
    | some config =>
      obtain ⟨name, w₁, -, h⟩ := bind_run_eq_ok.mp h
      cases h
      rfl

theorem scrapeGuarded_moves (hhost : host.Within R permit)
    (hplan : planRequest lib.plan env rawUrl options = .ok plan)
    (hbrowser : planBrowser env options plan = .ok browser)
    (hopened : ∀ session : Session, session.Opened lib env rawUrl options →
      session.Permitted lib permit) {dir : Option String} :
    Moves World.outside R (scrapeGuarded lib host env options plan browser dir) := by
  have hcomposer : Moves World.outside R (startComposer host browser plan.proxy) := by
    unfold startComposer
    split
    · exact (moves_outside (hhost.startChromiumComposer _)).bind fun _ => moves_pure
    · exact moves_pure
  intro w
  have hfirst := hcomposer w
  unfold scrapeGuarded
  rw [bind_apply]
  cases hrun : startComposer host browser plan.proxy w with
  | error e w' =>
    rw [hrun] at hfirst
    exact hfirst
  | ok composer w' =>
    rw [hrun] at hfirst
    refine trans_of R hfirst (scrapeSession_moves hhost (hopened _ ?_) w')
    exact ⟨rfl, hplan, hbrowser, startComposer_isSome hrun⟩

/-- **A scrape does nothing else to the outside** than its operations do, on arguments that are
    those of its session. -/
theorem scrape_moves (hhost : host.Within R permit)
    (hopened : ∀ session : Session, session.Opened lib env rawUrl options →
      session.Permitted lib permit) :
    Moves World.outside R (scrape lib host env rawUrl options) := by
  unfold scrape
  refine moves_ofResult_bind fun plan hplan => ?_
  have hslot : Moves World.outside R (acquireSlot host env options plan) := by
    unfold acquireSlot
    split
    · exact moves_outside hhost.acquireResidentialSlot
    · exact moves_pure
  have hrelease : ∀ w : World σ, R w.outside (releaseSlot host env options plan w).outside := by
    intro w
    unfold releaseSlot
    split
    · exact hhost.releaseResidentialSlot w.outside
    · exact refl_of R w.outside
  refine hslot.bind fun _ => Moves.releasing ?_ hrelease
  unfold scrapePlanned
  refine moves_ofResult_bind fun browser hbrowser => ?_
  have hprofile : Moves World.outside R (acquireProfile host options browser) := by
    unfold acquireProfile
    split
    · exact (moves_outside (hhost.acquireStickyProfile _)).bind fun _ => moves_pure
    · exact moves_pure
  have hwipe : ∀ w : World σ, R w.outside (wipeProfile host options browser w).outside := by
    intro w
    unfold wipeProfile
    split
    · exact hhost.wipeStickyProfile _ w.outside
    · exact refl_of R w.outside
  refine hprofile.bind fun dir => ?_
  refine ((scrapeGuarded_moves hhost hplan hbrowser hopened).releasing hwipe).bind fun proof => ?_
  exact attestIfAsked_moves hhost

end

/-! ## Contacts -/

/-- What the engine reaches out with; `page` is for the log: the scrape of a page is about to
    begin. -/
inductive Contact where
  | page (text : String)
  | dialed (proxy : Option ProxyConfig) (host : String) (port : Nat)
  | sent (request : HttpRequest)
  | launched (task : BrowserTask)

/-- An operation beside a list of contacts. -/
def beside (x : Outside σ α) : Outside (σ × List Contact) α := fun s =>
  match x s.1 with
  | .ok a t => .ok a (t, s.2)
  | .error e t => .error e (t, s.2)

/-- An operation that is put on the list, whatever comes of it. -/
def recorded (contact : Contact) (x : Outside σ α) : Outside (σ × List Contact) α := fun s =>
  beside x (s.1, s.2 ++ [contact])

/-- The network, with a list of what is dialed and sent. -/
def Network.recording (net : Network σ) : Network (σ × List Contact) where
  pace := fun url => beside (net.pace url)
  dial := fun proxy host port => recorded (.dialed proxy host port) (net.dial proxy host port)
  handshake := fun config host => beside (net.handshake config host)
  exchange := fun request => recorded (.sent request) (net.exchange request)
  nowUtc := fun s => net.nowUtc s.1

/-- The browser, with a list of what is launched. -/
def Browser.recording (browser : Browser σ) : Browser (σ × List Contact) where
  start := fun url task => recorded (.launched task) (browser.start url task)
  visits := fun s => browser.visits s.1
  next := beside browser.next
  answer := fun verdict => beside (browser.answer verdict)
  finish := beside browser.finish

/-- The host, with a list of its contacts. -/
def Host.recording (host : Host σ) : Host (σ × List Contact) where
  net := host.net.recording
  browser := host.browser.recording
  provider := fun runtime request => beside (host.provider runtime request)
  acquireResidentialSlot := beside host.acquireResidentialSlot
  releaseResidentialSlot := fun s => (host.releaseResidentialSlot s.1, s.2)
  acquireStickyProfile := fun key => beside (host.acquireStickyProfile key)
  wipeStickyProfile := fun key s => (host.wipeStickyProfile key s.1, s.2)
  startChromiumComposer := fun proxy => beside (host.startChromiumComposer proxy)
  deadlinePassed := fun s => host.deadlinePassed s.1
  signAt := fun message => beside (host.signAt message)
  getQuote := fun reportData => beside (host.getQuote reportData)

/-- The contacts that satisfy `p` are permitted. -/
def Permit.of (p : Contact → Prop) : Permit where
  dial := fun proxy => ∀ host port, p (.dialed proxy host port)
  send := fun request => p (.sent request)
  launch := fun task => p (.launched task)

section

variable {p : Contact → Prop}

theorem beside_extends {x : Outside σ α} (s : σ × List Contact) :
    Extends Prod.snd p s (final (beside x s)) := by
  refine extends_of_log_eq ?_
  unfold beside
  split <;> rfl

theorem recorded_extends {contact : Contact} {x : Outside σ α} (h : p contact)
    (s : σ × List Contact) : Extends Prod.snd p s (final (recorded contact x s)) := by
  refine ⟨[contact], ?_, fun _ he => List.mem_singleton.mp he ▸ h⟩
  unfold recorded beside
  split <;> rfl

/-- What is on the list was permitted. -/
theorem Network.recording_within (net : Network σ) :
    net.recording.Within (Extends Prod.snd p) (Permit.of p) where
  pace := fun _ => beside_extends
  dial := fun _ _ _ s hdial => recorded_extends (hdial _ _) s
  handshake := fun _ _ => beside_extends
  exchange := fun _ s hsend => recorded_extends hsend s

theorem Host.recording_within (host : Host σ) :
    host.recording.Within (Extends Prod.snd p) (Permit.of p) where
  net := host.net.recording_within
  start := fun _ _ s hlaunch => recorded_extends hlaunch s
  next := beside_extends
  answer := fun _ => beside_extends
  finish := beside_extends
  provider := fun _ _ => beside_extends
  acquireResidentialSlot := beside_extends
  releaseResidentialSlot := fun _ => extends_of_log_eq rfl
  acquireStickyProfile := fun _ => beside_extends
  wipeStickyProfile := fun _ _ => extends_of_log_eq rfl
  startChromiumComposer := fun _ => beside_extends
  signAt := fun _ => beside_extends
  getQuote := fun _ => beside_extends

/-- A configuration is permitted when what it dials is, and every request that has its headers on
    the origin they come from and no caller fields elsewhere. -/
theorem FetchConfig.permitted_of {config : FetchConfig} {origin : Url}
    (hsupplied : config.credentialOrigin = some origin)
    (hdial : ∀ host port, p (.dialed config.proxy host port))
    (hsend : ∀ request : HttpRequest,
      request.callerFields = (if sameOrigin request.url origin then config.headers else []) →
      p (.sent request)) : config.Permitted (Permit.of p) origin where
  supplied := hsupplied
  dial := hdial
  send := by
    rintro url hopConfig request hheaders ⟨host, port, hbuild⟩
    obtain ⟨rfl, hfields, -⟩ := buildHttpRequest_eq_ok hbuild
    refine hsend request ?_
    rw [hfields, FetchConfig.callerHeadersFor, hheaders]

/-- A property that only pages can miss. -/
theorem Session.permitted_all {session : Session} {lib : ScrapeLib}
    (hdialed : ∀ proxy name port, p (.dialed proxy name port))
    (hsent : ∀ request, p (.sent request)) (hlaunched : ∀ task, p (.launched task)) :
    session.Permitted lib (Permit.of p) where
  config :=
    { supplied := rfl
      dial := fun _ _ => hdialed _ _ _
      send := fun _ _ _ _ _ => hsent _ }
  launch := fun _ _ => hlaunched _

end

/-! ## The first dial -/

/-- The network lets a hop to the URL through: there is a slot for it, and TLS takes its name. -/
structure Network.Grants (net : Network σ) (lib : FetchLib) (url : Url) (s : σ) : Prop where
  paced : ∃ t, net.pace url s = .ok () t
  named : url.scheme = "https" → ∀ host, url.host = some host → lib.isServerName host = true

section

variable {β : Type} {lib : FetchLib} {net : Network σ} {url : Url} {config : FetchConfig}
  {origin : Url} {name : String} {w : World (σ × List Contact)}

/-- A run puts the contact on the list. -/
def Adds (c : Contact) (x : Prog (σ × List Contact) α) (w : World (σ × List Contact)) : Prop :=
  ∃ contacts, (final (x w)).outside.2 = w.outside.2 ++ contacts ∧ c ∈ contacts

/-- What is on the list stays there. -/
theorem Adds.bind {x : Prog (σ × List Contact) α} {f : α → Prog (σ × List Contact) β}
    {c : Contact} (h : Adds c x w)
    (hf : ∀ a, Moves World.outside (Extends Prod.snd fun _ => True) (f a)) :
    Adds c (x >>= f) w := by
  obtain ⟨contacts, hcontacts, hc⟩ := h
  unfold Adds
  rw [bind_apply]
  cases hrun : x w with
  | error e w' =>
    rw [hrun] at hcontacts
    exact ⟨contacts, hcontacts, hc⟩
  | ok a w' =>
    rw [hrun] at hcontacts
    obtain ⟨more, hmore, -⟩ := hf a w'
    refine ⟨contacts ++ more, ?_, List.mem_append_left _ hc⟩
    show (final (f a w')).outside.2 = _
    rw [hmore, ← List.append_assoc]
    exact congrArg (· ++ more) hcontacts

theorem adds_dial (proxy : Option ProxyConfig) (port : Nat) (w : World (σ × List Contact)) :
    Adds (.dialed proxy name port) (outside (net.recording.dial proxy name port)) w := by
  refine ⟨[.dialed proxy name port], ?_, List.mem_singleton_self _⟩
  unfold outside Network.recording recorded beside
  simp only
  cases net.dial proxy name port w.outside.1 with
  | ok ip s => rfl
  | error e s => rfl

/-- A hop that is let through dials the host of its URL. -/
theorem transmitHop_dials (hhttp : isHttp url = true) (hhost : url.host = some name)
    (hgrants : net.Grants lib url w.outside.1) :
    ∃ port, Adds (.dialed config.proxy name port)
      (transmitHop lib net.recording url config origin) w := by
  obtain ⟨s, hpace⟩ := hgrants.paced
  have hslot : outside (net.recording.pace url) w =
      .ok () { w with outside := (s, w.outside.2) } := by
    unfold outside Network.recording beside
    simp only [hpace]
  have hrest : ∀ tls ip port, Moves World.outside (Extends Prod.snd fun _ => True)
      (exchangeOn lib net.recording url name port config origin tls ip) :=
    fun _ _ _ => exchangeOn_moves net.recording_within fun _ _ => trivial
  have hname : okOr url.host (Error.invalidUrl url.toString) = .ok name := by
    rw [hhost]
    rfl
  rw [isHttp, Bool.or_eq_true, beq_iff_eq, beq_iff_eq] at hhttp
  unfold transmitHop Adds
  rcases hhttp with hscheme | hscheme
  · simp only [hscheme]
    rw [bind_of_ok _ hslot]
    unfold fetchHttp
    rw [hname, bind_of_ok _ (ofResult_ok name _)]
    exact ⟨_, (adds_dial _ _ _).bind fun ip => hrest _ ip _⟩
  · simp only [hscheme]
    rw [bind_of_ok _ hslot]
    unfold fetchHttps
    rw [hname, bind_of_ok _ (ofResult_ok name _)]
    have hnamed : require (lib.isServerName name) (Error.invalidUrl url.toString) = .ok () := by
      rw [hgrants.named hscheme name hhost]
      rfl
    simp only [hnamed]
    rw [bind_of_ok _ (ofResult_ok () _)]
    refine ⟨_, (adds_dial _ _ _).bind fun ip => ?_⟩
    refine (moves_outside (net.recording_within.handshake _ _)).bind fun handshake => ?_
    exact moves_ofResult.bind fun tls => hrest _ _ _

/-- A fetch that is let through dials the host of its URL. -/
theorem fetchUntil_dials (hhttp : isHttp url = true) (hhost : url.host = some name)
    (hsupplied : config.credentialOrigin = some origin)
    (hgrants : net.Grants lib url w.outside.1) :
    ∃ port, Adds (.dialed config.proxy name port) (fetchUntil lib net.recording url config) w := by
  have hconfig : config.Permitted (Permit.of fun _ => True) origin :=
    FetchConfig.permitted_of hsupplied (fun _ _ => trivial) fun _ _ => trivial
  have hcheck : ∀ u : Url, Moves World.outside (Extends Prod.snd fun _ => True)
      (pure () : Prog (σ × List Contact) Unit) := fun _ => moves_pure
  have hloop : ∀ st : HopState, st.hopConfig.headers = config.headers →
      st.hopConfig.proxy = config.proxy →
      Moves World.outside (Extends Prod.snd fun _ => True)
        (fetchLoop lib net.recording (fun _ => pure ()) url origin maxRedirects st) :=
    fetchLoop_moves net.recording_within hcheck hconfig maxRedirects
  let start : HopState := .start url config
  obtain ⟨tail, hturn, htail⟩ :=
    fetchLoop_hop (show start.hopConfig.headers = config.headers from rfl) rfl hloop
  -- the document policy lets everything through, and the log is no contact
  let approved : World (σ × List Contact) := { w with trace := w.trace ++ [.approved url] }
  have hgranted : net.Grants lib url approved.outside.1 := hgrants
  obtain ⟨port, hdial⟩ := transmitHop_dials hhttp hhost hgranted
  refine ⟨port, ?_⟩
  unfold fetchUntil fetchDocumentUntil
  rw [hsupplied, Option.getD_some, hturn]
  exact hdial.bind htail

/-- A search that is let through dials the host of the site. -/
theorem discoverSitemapUrls_dials {lib : RobotsLib} {target : Url} (hhttp : isHttp target = true)
    (hhost : target.host = some name) (hsupplied : config.credentialOrigin = some origin)
    (hgrants : net.Grants lib.toFetchLib (defaultSitemapUrl target) w.outside.1) :
    ∃ port, Adds (.dialed config.proxy name port)
      (discoverSitemapUrls lib net.recording target config []) w := by
  have hconfig : config.Permitted (Permit.of fun _ => True) origin :=
    FetchConfig.permitted_of hsupplied (fun _ _ => trivial) fun _ _ => trivial
  have hsitemap : isHttp (defaultSitemapUrl target) = true := hhttp
  have hpop : popSitemap [] [defaultSitemapUrl target] = some (defaultSitemapUrl target, []) := by
    simp [popSitemap, hsitemap]
  have hloop : ∀ seen seeds stack, Moves World.outside (Extends Prod.snd fun _ => True)
      (sitemapLoop lib net.recording config 31 seen seeds stack) :=
    sitemapLoop_moves net.recording_within hconfig 31
  obtain ⟨tail, hturn, htail⟩ := sitemapLoop_fetch [] hpop hloop
  obtain ⟨port, hdial⟩ := fetchUntil_dials hsitemap hhost hsupplied hgrants
  refine ⟨port, ?_⟩
  have hfetch : Adds (.dialed config.proxy name port)
      (attempt (fetchUntil lib.toFetchLib net.recording (defaultSitemapUrl target) config)) w :=
    hdial
  show Adds _ (sitemapLoop lib net.recording config (31 + 1) [] [] [defaultSitemapUrl target]) w
  rw [hturn]
  exact hfetch.bind htail

end

end Basecrawl.Core
