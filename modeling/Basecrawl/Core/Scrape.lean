/-
  One scrape, from a URL to a proof.

  1. **Page one** — fetch it under the robots policy, read it, render it when it is to be rendered,
     and solve or refuse a challenge on the way (`renderPageOne`).
  2. **Formats** — `produceFormats` runs one producer for each requested format.
  3. **Pagination** — `crawlLoop` follows next links through `crawlPage`.
  4. **Assembly** — hashes, the fetch path, the proof, its attestation.

  The long body of the source is cut into the stages it goes through; `scrape` at the end runs them
  in its order.  What is logged beside the source's own effects (the document of a page, a link that
  is followed, the HTML that goes into a result) is never read back.
-/
import Basecrawl.Core.Browser
import Basecrawl.Core.Content
import Basecrawl.Core.Options
import Basecrawl.Core.Robots

namespace Basecrawl.Core

open Text Outcome Run

/-! ## The outside of a scrape -/

/-- A key and a signature of the guest agent. -/
structure SignResponse where
  publicKey : String
  signature : String

/-- A quote with its report data. -/
structure QuoteResponse where
  quote : String
  reportData : String

/-- What the metadata surface is told about the response. -/
structure PageMeta where
  sourceUrl : String
  statusCode : Option Nat
  contentType : Option String

/-- What a scrape calls of other crates and of the format producers. -/
structure ScrapeLib extends RobotsLib where
  fingerprint : FingerprintLib
  proxy : ProxyLib
  gateStructuredExtraction : Option String → Option String → Except Error Unit
  /-- `document::extract`. -/
  extractDocument : Bytes → DocumentKind → Except String String
  /-- `pagination::find_next`. -/
  findNext : String → Url → Option Url
  /-- `markdown::to_markdown`. -/
  toMarkdown : String → Url → String
  /-- `links::extract`, its members without the sitemap. -/
  links : String → Url → List (String × Json.Tree)
  /-- `metadata::extract_for_content`, its members. -/
  metadata : String → PageMeta → Bool → List (String × Json.Tree)
  injectScript : InjectScript
  /-- `fingerprint_seed_for_pacing`. -/
  pacingSeed : Option String → String → UInt64
  /-- `canonical_json`. -/
  canonicalJson : Json.Tree → String
  /-- `quote_measurement`. -/
  quoteMeasurement : String → Except String String
  /-- `to_canonical_signing_json`. -/
  signingJson : ScrapeProof → String
  /-- `verify_signature`. -/
  verifySignature : String → String → Bytes → Except String Unit

/-- What the plan needs of it. -/
def ScrapeLib.plan (lib : ScrapeLib) : PlanLib where
  url := lib.url
  fingerprint := lib.fingerprint
  proxy := lib.proxy
  gateStructuredExtraction := lib.gateStructuredExtraction

/-- What a scrape does to the outside. -/
structure Host (σ : Type) where
  net : Network σ
  browser : Browser σ
  provider : Provider σ
  /-- `acquire_residential_dial_slot`, and the drop of its guard. -/
  acquireResidentialSlot : Outside σ Unit
  releaseResidentialSlot : σ → σ
  /-- `acquire_sticky_profile` and `wipe_sticky_profile`. -/
  acquireStickyProfile : String → Outside σ String
  wipeStickyProfile : String → σ → σ
  /-- `start_chromium_composer`. -/
  startChromiumComposer : ProxyConfig → Outside σ String
  /-- Whether the scrape's deadline has passed. -/
  deadlinePassed : σ → Bool
  /-- `sign_at` and `get_quote` of the guest agent, with their errors as `Attestation`. -/
  signAt : Bytes → Outside σ SignResponse
  getQuote : String → Outside σ QuoteResponse

/-- A scrape that is under way. -/
structure Session where
  env : Env
  options : ScrapeOptions
  request : RequestPlan
  browser : BrowserPlan
  stickyProfileDir : Option String
  chromiumComposer : Option String

/-- The one fetch configuration of a scrape. -/
def Session.config (session : Session) : FetchConfig where
  headers := session.request.effectiveHeaders
  credentialOrigin := some session.request.url
  userAgent := session.request.fingerprint.userAgent
  insecure := session.options.insecure
  maxBodyBytes := session.options.maxBodyBytes
  tls13CipherNames := session.request.fingerprint.tls13CipherNames
  tlsGroupOrder := session.request.fingerprint.tlsGroupOrder
  proxy := session.request.proxy
  method := session.request.method
  body := session.options.body

/-- The document policy, on the same configuration. -/
def Session.documentPolicy (session : Session) : DocumentPolicy where
  config := session.config
  policy := session.options.robotsPolicy

variable {σ : Type}

/-- The policy check of every document of the scrape. -/
def Session.checkDocument (session : Session) (lib : ScrapeLib) (host : Host σ) :
    Url → Prog σ Unit :=
  session.documentPolicy.check lib.toRobotsLib host.net

/-- `fetch_document_until` with the scrape's configuration and policy. -/
def fetchPage (lib : ScrapeLib) (host : Host σ) (session : Session) (url : Url) : Prog σ Fetched :=
  fetchDocumentUntil lib.toFetchLib host.net url session.config (session.checkDocument lib host)

/-! ## Reading a page -/

/-- A response, decoded. -/
structure ServedPage where
  contentKind : ContentKind
  documentText : Option String
  body : String
  base : Url
  statusCode : Nat

/-- The text of a document package. -/
def documentText (lib : ScrapeLib) (fetched : Fetched) : ContentKind →
    Except Error (Option String)
  | .document kind =>
      ((lib.extractDocument fetched.body kind).map some).mapError .documentExtraction
  | _ => .ok none

/-- The decoded source, which a document package does not have. -/
def decodedBody (lib : ScrapeLib) (fetched : Fetched) : ContentKind → String
  | .document _ => ""
  | contentKind => lib.decodeBody fetched.body fetched.contentType (contentKind == .html)

/-- The base of relative links: the URL that served the page. -/
def pageBase (lib : ScrapeLib) (url : Url) (fetched : Fetched) : Url :=
  (lib.url.parse fetched.finalUrl).toOption.getD url

/-- Page one, decoded and redacted. -/
def readPage (lib : ScrapeLib) (session : Session) (fetched : Fetched) :
    Except Error ServedPage := do
  let contentKind := classify fetched.contentType
  let text ← documentText lib fetched contentKind
  .ok
    { contentKind := contentKind
      documentText := text
      body :=
        redactSensitiveRequestEchoes (decodedBody lib fetched contentKind) session.options.headers
      base := pageBase lib session.request.url fetched
      statusCode := fetched.statusCode }

/-- Page one as the log keeps it. -/
def ServedPage.document (page : ServedPage) (source : String) : Document where
  isHtml := page.contentKind == .html
  body := page.body
  source := source
  statusCode := page.statusCode

/-- `initial_decision`.  The source panics without a hop, but a document fetch has recorded one
    before it succeeds. -/
def initialDecision : Prog σ RobotsDecision := fun w =>
  match w.hops with
  | hop :: _ => .ok hop.decision w
  | [] => .error (.fetch "initial document robots policy must be checked") w

/-- Sitemap discovery, for the links format. -/
def sitemapUrls (lib : ScrapeLib) (host : Host σ) (session : Session)
    (decision : RobotsDecision) : Prog σ (List String) :=
  if session.request.formats.contains .links then
    discoverSitemapUrls lib.toRobotsLib host.net session.request.url session.config
      decision.sitemapUrls
  else pure []

/-! ## Rendering page one -/

/-- The launch configuration of a browser launch, which the hard path does not allow without the
    early inject. -/
def Session.launchConfig (session : Session) (lib : ScrapeLib) (hard : Bool) : LaunchConfig where
  userAgent := session.config.userAgent
  requestHeaders := session.config.headers
  credentialOrigin := session.config.credentialOrigin
  maxDocumentBytes := session.options.maxBodyBytes
  acceptLanguage := session.request.fingerprint.acceptLanguage
  platform := session.request.fingerprint.platform
  timezone := session.request.fingerprint.timezone
  locale := session.request.fingerprint.locale
  fingerprintScript :=
    if session.browser.stealthInjectEnabled then
      some (lib.fingerprint.browserInjectionScript session.request.fingerprint)
    else none
  sealedSocks := session.chromiumComposer
  userDataDir := session.stickyProfileDir
  requireStealthInject := hard

/-- Render a page and redact what it echoes. -/
def renderPage (lib : ScrapeLib) (host : Host σ) (session : Session) (hard : Bool) (base : Url)
    (actions : List Action) : Prog σ String := do
  let html ← driveBrowser host.browser (session.checkDocument lib host) base
    (.render
      { session.launchConfig lib hard with
        waitFor := session.options.waitFor
        actions := actions
        maxRedirects := maxRedirects
        windowSize := (session.request.fingerprint.viewportWidth,
          session.request.fingerprint.viewportHeight) })
  pure (redactSensitiveRequestEchoes html session.options.headers)

/-- `should_render_html`. -/
def shouldRenderHtml (session : Session) (page : ServedPage) : Bool :=
  page.contentKind == .html && trim page.body != "" &&
    (session.browser.hardRequired ||
      (session.options.renderEnabled &&
        session.request.formats.any fun format => format == .markdown || format == .html))

/-- Whether the scrape must refuse this HTML unless a token was applied to it. -/
def Session.isBlocked (session : Session) (html : String) (statusCode : Nat) : Bool :=
  session.browser.hardRequired && looksLikeChallengeInterstitial html statusCode

/-- Ask the solver for a token for the page's HTML. -/
def solvePage (host : Host σ) (runtime : Option CaptchaSolverRuntime) (page : ServedPage)
    (html detail : String) : Prog σ SolveSolution :=
  tryOptionalChallengeSolve host.provider runtime page.base.toString html page.statusCode detail

/-- The actions of a render with a token, or without. -/
def renderActions (lib : ScrapeLib) (session : Session) : Option SolveSolution →
    Except Error (List Action)
  | none => .ok session.options.actions
  | some solution => do
      let seed := lib.pacingSeed session.options.fingerprintSeed session.request.url.toString
      -- the caller's actions come first
      let apply ← armedSolverApplyActions lib.injectScript solution.token seed
      .ok (session.options.actions ++ apply)

/-- What became of page one.  `tokenApplied` is for the log: the render ran with a token. -/
structure RenderedPage where
  html : Option String
  tokenApplied : Bool

/-- A challenge in the served body must be solved before anything else. -/
def solveServed (host : Host σ) (session : Session) (runtime : Option CaptchaSolverRuntime)
    (page : ServedPage) : Prog σ (Option SolveSolution) :=
  if session.isBlocked page.body page.statusCode then do
    let solution ← solvePage host runtime page page.body
      "hard path observed a bot-challenge / block response (VAL-STEALTH-016)"
    pure (some solution)
  else pure none

/-- Render once more, with a token for what the first render showed. -/
def solveRendered (lib : ScrapeLib) (host : Host σ) (session : Session)
    (runtime : Option CaptchaSolverRuntime) (page : ServedPage) (html : String) :
    Prog σ RenderedPage := do
  let solution ← solvePage host runtime page html
    ("hard path observed a bot-challenge / block interstitial rather than the " ++
      "primary document (VAL-STEALTH-016)")
  let actions ← ofResult (renderActions lib session (some solution))
  let again ← renderPage lib host session session.browser.hardRequired page.base actions
  ofResult (residualAfterAppliedToken again page.statusCode solution.taskId)
  pure ⟨some again, true⟩

/-- What the first render is worth.  With a token in hand both branches of the source read the
    residual; without one a challenge has to be solved. -/
def settleRendered (lib : ScrapeLib) (host : Host σ) (session : Session)
    (runtime : Option CaptchaSolverRuntime) (page : ServedPage) (html : String) :
    Option SolveSolution → Prog σ RenderedPage
  | some solution => do
      -- no second token: the residual decides
      ofResult (residualAfterAppliedToken html page.statusCode solution.taskId)
      pure ⟨some html, true⟩
  | none =>
      if session.isBlocked html page.statusCode then
        solveRendered lib host session runtime page html
      else pure ⟨some html, false⟩

/-- A page that is not rendered has no surface to apply a token to. -/
def refuseUnrendered (session : Session) (page : ServedPage) : Except Error RenderedPage := do
  require (!session.isBlocked page.body page.statusCode)
    (.challengeBlocked page.statusCode
      ("hard path observed a bot-challenge / block response without browser apply " ++
        "surface (VAL-STEALTH-016 / detect-not-solve)"))
  .ok ⟨none, false⟩

/-- Solve or refuse a challenge of page one, and render it when it is to be rendered. -/
def renderPageOne (lib : ScrapeLib) (host : Host σ) (session : Session)
    (runtime : Option CaptchaSolverRuntime) (page : ServedPage) : Prog σ RenderedPage := do
  -- a token is bought before it is known whether there is a render to apply it in
  let pending ← solveServed host session runtime page
  let actions ← ofResult (renderActions lib session pending)
  if shouldRenderHtml session page then do
    let html ← renderPage lib host session session.browser.hardRequired page.base actions
    settleRendered lib host session runtime page html pending
  else ofResult (refuseUnrendered session page)

/-! ## Formats -/

/-- Page one as the format producers see it. -/
structure PageOne where
  page : ServedPage
  rendered : RenderedPage
  robots : RobotsDecision
  sitemaps : List String

/-- Show HTML or text of page one. -/
def PageOne.surface (one : PageOne) (html : String) : Prog σ Unit :=
  note (.surfaced
    { html := html
      statusCode := one.page.statusCode
      tokenApplied := one.rendered.tokenApplied })

/-- Show the served source of page one, when it is read as HTML. -/
def PageOne.surfaceHtml (one : PageOne) : Prog σ Unit :=
  if one.page.contentKind == .html then one.surface one.page.body else pure ()

/-- `text_surface`. -/
def textSurface (one : PageOne) : Prog σ Json.Tree :=
  match one.page.contentKind with
  | .binary | .document _ => pure (.string "")
  | .html | .text => do
      one.surface one.page.body
      pure (.string one.page.body)

/-- The rendered DOM, else the served source, through a converter; other kinds as text. -/
def domSurface (one : PageOne) (convert : String → String) : Prog σ Json.Tree :=
  match one.page.contentKind with
  | .html => do
      let source := one.rendered.html.getD one.page.body
      one.surface source
      pure (.string (convert source))
  | .document _ => pure (.string (one.page.documentText.getD ""))
  | .text | .binary => textSurface one

/-- The link members of a page: `links::extract` for HTML, `Links::default()` for the rest. -/
def linkMembers (lib : ScrapeLib) (page : ServedPage) : List (String × Json.Tree) :=
  match page.contentKind with
  | .html => lib.links page.body page.base
  | _ =>
      [("alternates", .array []), ("canonical", .null), ("excluded", .array []),
        ("links", .array [])]

/-- `links_surface`. -/
def linksSurface (lib : ScrapeLib) (one : PageOne) : Prog σ Json.Tree := do
  one.surfaceHtml
  pure (.object (linkMembers lib one.page ++ [("sitemap", .array (one.sitemaps.map .string))]))

/-- The metadata of the response, parsed from HTML only, with the robots decision. -/
def metadataSurface (lib : ScrapeLib) (session : Session) (fetched : Fetched) (one : PageOne) :
    Prog σ Json.Tree := do
  one.surfaceHtml
  let members := lib.metadata one.page.body
    { sourceUrl := session.request.url.toString
      statusCode := some fetched.statusCode
      contentType := fetched.contentType } (one.page.contentKind == .html)
  pure (.object (Json.insertMember "robotsPolicy" one.robots.toValue members))

/-- `capture_until` with the scrape's configuration. -/
def captureScreenshot (lib : ScrapeLib) (host : Host σ) (session : Session) (base : Url) :
    Prog σ String :=
  driveBrowser host.browser (session.checkDocument lib host) base
    (.screenshot
      { session.launchConfig lib session.browser.hardRequired with
        width := session.request.viewport.1
        height := session.request.viewport.2
        fullPage := session.options.screenshotFullPage })

/-- One format. -/
def produceFormat (lib : ScrapeLib) (host : Host σ) (session : Session) (fetched : Fetched)
    (one : PageOne) : Format → Prog σ Json.Tree
  | .rawHtml => textSurface one
  | .markdown => domSurface one fun source => lib.toMarkdown source one.page.base
  | .html => domSurface one id
  | .links => linksSurface lib one
  | .metadata => metadataSurface lib session fetched one
  | .screenshot => do
      let image ← captureScreenshot lib host session one.page.base
      pure (.string image)
  | .json => pure .null

/-- `formats_produced`, with `chromium_used`. -/
structure Production where
  formats : List (String × Json.Tree)
  chromiumUsed : Bool

/-- A format is stored under its name; a screenshot has used Chromium. -/
def Production.add (production : Production) (format : Format) (value : Json.Tree) :
    Production where
  formats := Json.insertMember format.asStr value production.formats
  chromiumUsed := production.chromiumUsed || format == .screenshot

/-- The loop over the formats. -/
def produceFormats (lib : ScrapeLib) (host : Host σ) (session : Session) (fetched : Fetched)
    (one : PageOne) : List Format → Production → Prog σ Production
  | [], production => pure production
  | format :: formats, production => do
      let value ← produceFormat lib host session fetched one format
      produceFormats lib host session fetched one formats (production.add format value)

/-! ## Pagination -/

/-- A page of the pagination.  `statusCode` is for the log. -/
structure CrawledPage where
  markdown : String
  html : String
  base : Url
  statusCode : Nat

/-- The hard path as a pagination page decides it, on the declared class only. -/
def crawlDecision (options : ScrapeOptions) : HardPathDecision where
  proxyClass := options.proxyClass
  difficulty := options.difficulty
  forceBrowser := options.forceBrowser
  renderEnabled := options.renderEnabled
  needsBrowserFormats := true

/-- Whether a pagination page is rendered. -/
def shouldRenderCrawled (options : ScrapeOptions) (document : Document) : Bool :=
  options.renderEnabled && document.isHtml && trim document.body != ""

/-- The rendered DOM of a pagination page, or its served source. -/
def crawlSource (lib : ScrapeLib) (host : Host σ) (session : Session) (base : Url)
    (document : Document) : Prog σ String :=
  if shouldRenderCrawled session.options document then
    renderPage lib host session (requiresChromiumHardPath (crawlDecision session.options)) base []
  else pure document.body

/-- A fetched pagination page, decoded and redacted. -/
def crawledDocument (lib : ScrapeLib) (session : Session) (fetched : Fetched) : Document :=
  let isHtml := classify fetched.contentType == .html
  let body := redactSensitiveRequestEchoes
    (lib.decodeBody fetched.body fetched.contentType isHtml) session.options.headers
  { isHtml := isHtml
    body := body
    source := body
    statusCode := fetched.statusCode }

/-- `crawl_page`. -/
def crawlPage (lib : ScrapeLib) (host : Host σ) (session : Session) (url : Url) :
    Prog σ CrawledPage := do
  let fetched ← fetchPage lib host session url
  let document := crawledDocument lib session fetched
  let base := pageBase lib url fetched
  ofResult (require (!requiresChromiumHardPath (crawlDecision session.options) ||
    stealthInjectEnabled session.env session.options) stealthInjectRefusal)
  -- what comes back is not read for a challenge
  let source ← crawlSource lib host session base document
  note (.document { document with source := source })
  pure
    { markdown := lib.toMarkdown source base
      html := source
      base := base
      statusCode := fetched.statusCode }

/-- The variables of the pagination loop; the visited URLs are the crawled ones. -/
structure CrawlState where
  crawledUrls : List String
  currentHtml : String
  currentBase : Url
  aggregatedMarkdown : Option String

/-- A crawled page joins the aggregate, if there is one. -/
def aggregatePage (page : CrawledPage) : Option String → Prog σ (Option String)
  | none => pure none
  | some aggregated => do
      note (.surfaced
        { html := page.html
          statusCode := page.statusCode
          tokenApplied := false })
      pure (some (aggregated ++ "\n\n" ++ page.markdown))

/-- The pagination loop; the number counts the pages that may still be crawled. -/
def crawlLoop (lib : ScrapeLib) (host : Host σ) (session : Session) :
    Nat → CrawlState → Prog σ CrawlState
  | 0, st => pure st
  | remaining + 1, st =>
      match lib.findNext st.currentHtml st.currentBase with
      | none => pure st
      | some next =>
          -- a link back ends the crawl
          if st.crawledUrls.contains next.toString then pure st
          else do
            note (.followed next)
            let page ← crawlPage lib host session next
            let aggregated ← aggregatePage page st.aggregatedMarkdown
            crawlLoop lib host session remaining
              { crawledUrls := st.crawledUrls ++ [next.toString]
                currentHtml := page.html
                currentBase := page.base
                aggregatedMarkdown := aggregated }

/-- The markdown that pagination adds to. -/
def initialMarkdown (session : Session) (formats : List (String × Json.Tree)) : Option String :=
  if session.request.formats.contains .markdown then
    (formats.lookup Format.markdown.asStr).bind Json.Tree.asStr
  else none

/-- Before the first next link. -/
def CrawlState.start (session : Session) (one : PageOne) (formats : List (String × Json.Tree)) :
    CrawlState where
  crawledUrls := [session.request.url.toString]
  currentHtml := one.rendered.html.getD one.page.body
  currentBase := one.page.base
  aggregatedMarkdown := initialMarkdown session formats

/-- The formats after pagination, and the crawled URLs. -/
structure Crawl where
  formats : List (String × Json.Tree)
  crawledUrls : List String

/-- The aggregate replaces the markdown of page one. -/
def CrawlState.finish (st : CrawlState) (formats : List (String × Json.Tree)) : Crawl where
  formats :=
    match st.aggregatedMarkdown with
    | some aggregated =>
        Json.insertMember Format.markdown.asStr (.string aggregated) formats
    | none => formats
  crawledUrls := st.crawledUrls

/-- Pagination: at most `max_pages` pages, page one included. -/
def paginate (lib : ScrapeLib) (host : Host σ) (session : Session) (one : PageOne)
    (formats : List (String × Json.Tree)) : Prog σ Crawl :=
  if session.options.followPagination then do
    let st ← crawlLoop lib host session (max session.options.maxPages 1 - 1)
      (.start session one formats)
    pure (st.finish formats)
  else pure ⟨formats, []⟩

/-! ## Assembly -/

/-- `materialize_robots_policy_hops`. -/
def materializeRobotsPolicyHops (formats : List (String × Json.Tree)) :
    Prog σ (List (String × Json.Tree)) := fun w =>
  match formats.lookup Format.metadata.asStr with
  | some (.object metadata) =>
      let hops := Json.Tree.array (w.hops.map DocumentHop.toValue)
      .ok (Json.insertMember Format.metadata.asStr
        (.object (Json.insertMember "robotsPolicyHops" hops metadata)) formats) w
  | _ => .ok formats w

/-- The deadline, once everything is produced. -/
def checkDeadline (host : Host σ) : Prog σ Unit := do
  let passed ← observe host.deadlinePassed
  ofResult (require (!passed) (.timeout "scrape deadline exceeded"))

/-- The path label of a scrape. -/
def fetchPathOf (session : Session) (page : ServedPage) (chromiumUsed : Bool) : FetchPath :=
  -- the flag was set on page one and by screenshots; pagination does not set it
  truthfulFetchPath (chromiumUsed ||
    (session.browser.hardRequired && session.browser.willUseBrowser && page.contentKind == .html))

/-- A hard HTML scrape that claims the direct path is refused. -/
def checkHardPath (session : Session) (page : ServedPage) (fetchPath : FetchPath) :
    Except Error Unit :=
  require (!(session.browser.hardRequired && page.contentKind == .html && fetchPath != .chromium))
    (.hardPath ("hard/residential request completed without a Chromium identity " ++
      "(dual-stack mismatch)"))

/-- The soft TLS audit, on the direct path only. -/
def softImpersonateEgress (lib : ScrapeLib) (session : Session) (fetchPath : FetchPath) :
    Option SoftTlsImpersonateEgress :=
  match session.request.softTlsImpersonate, fetchPath with
  | some profile, .direct =>
      some (lib.fingerprint.softTlsAudit profile session.request.fingerprint)
  | _, _ => none

/-- `egress::build_with_soft_tls_impersonate`. -/
def buildEgress (fetched : Fetched) (seed : String) (proxyClass : ProxyClass)
    (fetchPath : FetchPath) (softTls : Option SoftTlsImpersonateEgress) : Egress where
  egressIp := some fetched.egressIp
  timestamp := some fetched.fetchedAt
  fingerprintSeed := some seed
  proxyClass := some proxyClass
  fetchPath := some fetchPath
  softTlsImpersonate := if fetchPath = .direct then softTls else none

/-- The request block. -/
def requestBlock (lib : ScrapeLib) (session : Session) : Request :=
  let url := session.request.url.toString
  let headersHash := requestHeadersHash lib.digests session.config.headers
  let bodyHash := requestBodyHash lib.digests session.options.body
  { method := session.request.method
    url := url
    headersHash := some headersHash
    bodyHash := some bodyHash
    requestHash := some (requestHash lib.digests session.request.method url headersHash bodyHash)
    formats := session.request.formats.map Format.asStr }

/-- The response block. -/
def responseBlock (session : Session) (fetched : Fetched) : Response where
  statusCode := some fetched.statusCode
  headersHash := some fetched.headersHash
  bodyHash := some fetched.bodyHash
  contentLength := some fetched.contentLength
  contentType := fetched.contentType
  bodyTruncated := fetched.bodyTruncated
  bodyMaxBytes := some session.options.maxBodyBytes
  finalUrl := some fetched.finalUrl
  redirectChain := fetched.redirects

/-- The result block. -/
def resultBlock (lib : ScrapeLib) (session : Session) (formats : List (String × Json.Tree))
    (crawledUrls : List String) : ResultBlock :=
  let hash := resultHash lib.digests lib.canonicalJson formats
  { formatsProduced := formats
    resultHash := some hash
    manifestSha256 :=
      some (manifestSha256 lib.digests session.request.url.toString session.options.nonce hash)
    crawledUrls := crawledUrls }

/-- The proof, before it is attested. -/
def assembleProof (lib : ScrapeLib) (session : Session) (fetched : Fetched) (page : ServedPage)
    (chromiumUsed : Bool) (formats : List (String × Json.Tree)) (crawledUrls : List String) :
    Except Error ScrapeProof := do
  let fetchPath := fetchPathOf session page chromiumUsed
  checkHardPath session page fetchPath
  require (!(session.options.signProof && !session.options.attest))
    (.enclaveSignature "signed proofs require attestation")
  .ok
    { taskId := session.options.taskId
      nonce := session.options.nonce
      request := requestBlock lib session
      tls := fetched.tls
      response := responseBlock session fetched
      result := resultBlock lib session formats crawledUrls
      egress := buildEgress fetched session.request.fingerprint.seed
        session.request.dialedProxyClass fetchPath (softImpersonateEgress lib session fetchPath) }

/-- Key, report data and quote, then the signature over the quoted proof. -/
def attestProof (lib : ScrapeLib) (host : Host σ) (proof : ScrapeProof) : Prog σ ScrapeProof := do
  -- the first signature is asked for its key alone
  let key ← outside (host.signAt (utf8 "basecrawl/enclave-signing-key/v1"))
  let proof := { proof with sdkSignature := { enclavePubkey := some key.publicKey } }
  let reportData ← ofResult ((attestationReportData lib.digests proof).mapError fun e =>
    .attestation ("report_data assembly failed: ScrapeProof cannot be attested without " ++ e.field))
  let quote ← outside (host.getQuote reportData)
  let measurement ← ofResult ((lib.quoteMeasurement quote.quote).mapError fun e =>
    .attestation ("guest-agent quote is malformed: " ++ e))
  let proof :=
    { proof with
      attestation :=
        { teeType := some "tdx"
          quote := some quote.quote
          measurement := some measurement
          reportData := some quote.reportData } }
  let sign ← outside (host.signAt (utf8 (lib.signingJson proof)))
  ofResult (require (sign.publicKey == key.publicKey)
    (.enclaveSignature "guest-agent signing key changed during proof assembly"))
  let proof :=
    { proof with
      sdkSignature := { enclavePubkey := some key.publicKey, sig := some sign.signature } }
  ofResult ((lib.verifySignature key.publicKey sign.signature
    (utf8 (lib.signingJson proof))).mapError .enclaveSignature)
  pure proof

/-! ## The scrape -/

/-- Everything between the launch of the composer and the proof. -/
def scrapeSession (lib : ScrapeLib) (host : Host σ) (session : Session) : Prog σ ScrapeProof := do
  update fun w => { w with hops := [] }
  let fetched ← fetchPage lib host session session.request.url
  let robots ← initialDecision
  let page ← ofResult (readPage lib session fetched)
  let sitemaps ← sitemapUrls lib host session robots
  let runtime ← ofResult (resolveRuntime session.env session.options.captchaApiKey
    session.options.captchaSolveTimeoutSecs)
  let rendered ← renderPageOne lib host session runtime page
  note (.document (page.document (rendered.html.getD page.body)))
  let one : PageOne := ⟨page, rendered, robots, sitemaps⟩
  let production ← produceFormats lib host session fetched one session.request.formats
    ⟨[], rendered.html.isSome⟩
  let crawl ← paginate lib host session one production.formats
  let formats ← materializeRobotsPolicyHops crawl.formats
  checkDeadline host
  ofResult (assembleProof lib session fetched page production.chromiumUsed formats
    crawl.crawledUrls)

/-- The key of the sticky profile. -/
def stickyWipeKey (options : ScrapeOptions) : String :=
  ((options.taskId.filter (· != "")).or options.proxySession).getD "anonymous"

/-- `acquire_sticky_profile`, for a scrape that uses the browser. -/
def acquireProfile (host : Host σ) (options : ScrapeOptions) (browser : BrowserPlan) :
    Prog σ (Option String) :=
  if browser.willUseBrowser then do
    let dir ← outside (host.acquireStickyProfile (stickyWipeKey options))
    pure (some dir)
  else pure none

/-- `StickyProfileWipeGuard`: the profile is gone when the scrape is, unless it is to be kept. -/
def wipeProfile (host : Host σ) (options : ScrapeOptions) (browser : BrowserPlan)
    (w : World σ) : World σ :=
  if options.wipeProfileOnComplete && browser.willUseBrowser then
    { w with outside := host.wipeStickyProfile (stickyWipeKey options) w.outside }
  else w

/-- `start_chromium_composer`, for a browser behind an upstream. -/
def startComposer (host : Host σ) (browser : BrowserPlan) (proxy : Option ProxyConfig) :
    Prog σ (Option String) :=
  match browser.willUseBrowser, proxy with
  | true, some config => do
      let composer ← outside (host.startChromiumComposer config)
      pure (some composer)
  | _, _ => pure none

/-- The live residential slot, for a scrape that needs it. -/
def acquireSlot (host : Host σ) (env : Env) (options : ScrapeOptions) (plan : RequestPlan) :
    Prog σ Unit :=
  if needsResidentialSlot env options plan then outside host.acquireResidentialSlot else pure ()

/-- The drop of the slot's guard. -/
def releaseSlot (host : Host σ) (env : Env) (options : ScrapeOptions) (plan : RequestPlan)
    (w : World σ) : World σ :=
  if needsResidentialSlot env options plan then
    { w with outside := host.releaseResidentialSlot w.outside }
  else w

/-- The composer and the session, under the guard of the sticky profile. -/
def scrapeGuarded (lib : ScrapeLib) (host : Host σ) (env : Env) (options : ScrapeOptions)
    (plan : RequestPlan) (browser : BrowserPlan) (stickyProfileDir : Option String) :
    Prog σ ScrapeProof := do
  let composer ← startComposer host browser plan.proxy
  scrapeSession lib host ⟨env, options, plan, browser, stickyProfileDir, composer⟩

/-- Attest a proof that is to be attested. -/
def attestIfAsked (lib : ScrapeLib) (host : Host σ) (options : ScrapeOptions)
    (proof : ScrapeProof) : Prog σ ScrapeProof :=
  if options.attest then attestProof lib host proof else pure proof

/-- From the resolved proxy on, under the guard of the residential slot. -/
def scrapePlanned (lib : ScrapeLib) (host : Host σ) (env : Env) (options : ScrapeOptions)
    (plan : RequestPlan) : Prog σ ScrapeProof := do
  let browser ← ofResult (planBrowser env options plan)
  let dir ← acquireProfile host options browser
  let proof ← releasing (wipeProfile host options browser)
    (scrapeGuarded lib host env options plan browser dir)
  attestIfAsked lib host options proof

/-- `scrape`. -/
def scrape (lib : ScrapeLib) (host : Host σ) (env : Env) (rawUrl : String)
    (options : ScrapeOptions) : Prog σ ScrapeProof := do
  let plan ← ofResult (planRequest lib.plan env rawUrl options)
  acquireSlot host env options plan
  releasing (releaseSlot host env options plan) (scrapePlanned lib host env options plan)

end Basecrawl.Core
