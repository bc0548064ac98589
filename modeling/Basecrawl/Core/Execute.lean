/-
  What a request of the HTTP surface commits to.

  1. **Program** — `execute_mode` up to its scrapes: the body is read into a `ServeExecuteRequest`,
     the headers leave their hash map in some order (`headersFromReq`), the mode fixes the options,
     and the plan of a scrape turns them into the effective list that is hashed.
  2. **The crux (`commitRequest_headers`)** — a plan depends on its headers through
     `validate_caller_headers`, which asks for no order, and through the effective list, which keeps
     the order of what it selects.
  3. **Two runs (`serveCommitment_stable_iff`)** — the same commitment for all orders exactly when
     one header at most is selected.
-/
import Basecrawl.Lib.Serde
import Basecrawl.Core.CrawlRuns
import Basecrawl.Core.CallerHeaders
import Basecrawl.Core.Preimage
import Basecrawl.Core.Path

namespace Basecrawl.Core

open Text Outcome Run Unordered

/-! ## The request -/

/-- `ServeExecuteRequest`. -/
structure ServeExecuteRequest where
  jobId : Option String := none
  url : Option String := none
  urls : Option (List String) := none
  formats : Option (List String) := none
  onlyMainContent : Option Bool := none
  timeoutMs : Option UInt64 := none
  headers : Option (Table String String) := none
  proxy : Option String := none
  fingerprintSeed : Option String := none
  maxAge : Option UInt64 := none
  render : Option Bool := none
  waitFor : Option String := none
  maxPages : Option UInt64 := none
  maxDepth : Option UInt64 := none
  maxUrls : Option UInt64 := none
  allowDomain : Option String := none
  noSitemap : Option Bool := none
  concurrency : Option UInt64 := none
  method : Option String := none
  body : Option String := none
  taskId : Option String := none
  nonce : Option String := none

/-- The derived `Deserialize`. -/
def ServeExecuteRequest.deserialize (tree : Json.Tree) : Option ServeExecuteRequest := do
  guard (Serde.fits 22 tree)
  let jobId ← Serde.defaulted ["jobId"] 0 Serde.string tree
  let url ← Serde.defaulted ["url"] 1 Serde.string tree
  let urls ← Serde.defaulted ["urls"] 2 (Serde.list Serde.string) tree
  let formats ← Serde.defaulted ["formats"] 3 (Serde.list Serde.string) tree
  let onlyMainContent ← Serde.defaulted ["onlyMainContent"] 4 Serde.bool tree
  let timeoutMs ← Serde.defaulted ["timeoutMs", "timeout_ms"] 5 Serde.u64 tree
  let headers ← Serde.defaulted ["headers"] 6 (Serde.table Serde.string) tree
  let proxy ← Serde.defaulted ["proxy"] 7 Serde.string tree
  let fingerprintSeed ← Serde.defaulted ["fingerprintSeed"] 8 Serde.string tree
  let maxAge ← Serde.defaulted ["maxAge"] 9 Serde.u64 tree
  let render ← Serde.defaulted ["render", "javascript"] 10 Serde.bool tree
  let waitFor ← Serde.defaulted ["waitFor"] 11 Serde.string tree
  let maxPages ← Serde.defaulted ["maxPages"] 12 Serde.u64 tree
  let maxDepth ← Serde.defaulted ["maxDepth"] 13 Serde.u64 tree
  let maxUrls ← Serde.defaulted ["maxUrls"] 14 Serde.u64 tree
  let allowDomain ← Serde.defaulted ["allowDomain"] 15 Serde.string tree
  let noSitemap ← Serde.defaulted ["noSitemap"] 16 Serde.bool tree
  let concurrency ← Serde.defaulted ["concurrency"] 17 Serde.u64 tree
  let method ← Serde.defaulted ["method"] 18 Serde.string tree
  let body ← Serde.defaulted ["body"] 19 Serde.string tree
  let taskId ← Serde.defaulted ["taskId"] 20 Serde.string tree
  let nonce ← Serde.defaulted ["nonce"] 21 Serde.string tree
  return { jobId, url, urls, formats, onlyMainContent, timeoutMs, headers, proxy, fingerprintSeed,
           maxAge, render, waitFor, maxPages, maxDepth, maxUrls, allowDomain, noSitemap,
           concurrency, method, body, taskId, nonce }

/-- What `serde_json` makes of bytes: a document with its members as they are written, and the text
    of its error. -/
structure JsonLib where
  parse : Bytes → Option Json.Tree
  error : Bytes → String

/-- The body of an execute route; an empty one is the default request. -/
def readRequest (json : JsonLib) (maxBodyBytes : Nat) (body : Bytes) :
    Except Error ServeExecuteRequest := do
  require (body.length ≤ maxBodyBytes)
    (.invalidProductOption ("request body exceeds BASECRAWL_SERVE_MAX_BODY_BYTES (" ++
      Nat.repr maxBodyBytes ++ " bytes)"))
  if body.isEmpty then .ok {}
  else
    okOr ((json.parse body).bind ServeExecuteRequest.deserialize)
      (.invalidProductOption ("invalid JSON body: " ++ json.error body))

/-! ## The options -/

/-- `Format::from_token`. -/
def Format.fromToken (token : String) : Option Format :=
  Format.all.find? fun format => format.asStr == token

/-- `supported_list`. -/
def supportedList : String := String.intercalate ", " (Format.all.map Format.asStr)

/-- `parse_list`. -/
def parseList (tokens : List String) : Except Error (List Format) := do
  let parsed ← tokens.mapM fun token =>
    okOr (Format.fromToken (trim token)) (.unknownFormat (trim token) supportedList)
  .ok (normalizeFormats parsed)

/-- `formats_from_req`. -/
def formatsFromReq (req : ServeExecuteRequest) : Except Error (List Format) :=
  match req.formats with
  | some (token :: tokens) => parseList (token :: tokens)
  | _ => .ok defaultFormats

/-- `headers_from_req`. -/
def headersFromReq (traversal : Traversal String String) (req : ServeExecuteRequest) :
    List (String × String) :=
  match req.headers with
  | some table => traversal.visit table
  | none => []

/-- The options of `execute_mode`; a POST stays on the soft path. -/
def scrapeOptsFromReq (traversal : Traversal String String) (req : ServeExecuteRequest)
    (formats : List Format) : ScrapeOptions :=
  let method := req.method.getD "GET"
  let renderEnabled := req.render.getD false || req.waitFor.isSome || formats.contains .screenshot
  { formats := formats
    taskId := req.taskId.or req.jobId
    nonce := req.nonce
    headers := headersFromReq traversal req
    method := method
    body := utf8 (req.body.getD "")
    proxy := req.proxy
    fingerprintSeed := req.fingerprintSeed
    renderEnabled := renderEnabled && !eqIgnoreAsciiCase method "POST"
    waitFor := req.waitFor
    forceBrowser := false }

/-- A submitted text that is not blank. -/
def submitted (req : ServeExecuteRequest) : Option String := req.url.filter fun url => trim url != ""

/-- The URLs of a batch, with the single one in front. -/
def batchUrls (req : ServeExecuteRequest) : List String :=
  let urls := req.urls.getD []
  match submitted req with
  | some single => if urls.contains single then urls else single :: urls
  | none => urls

/-- Links and Markdown are asked for in a crawl, whatever else is. -/
def crawlFormats (formats : List Format) : List Format :=
  let formats := if formats.contains .links then formats else formats ++ [.links]
  let formats := if formats.contains .markdown then formats else formats ++ [.markdown]
  normalizeFormats formats

/-- The options that a mode hands to its scrapes. -/
def modeOptions (mode : String) (req : ServeExecuteRequest) (formats : List Format)
    (opts : ScrapeOptions) : Except Error ScrapeOptions :=
  -- the pages of a crawl and of a map are found by link, so they are read without a body
  let plain : ScrapeOptions :=
    { opts with
      method := "GET"
      body := []
      renderEnabled := false
      followPagination := false }
  if mode = "scrape" then
    (okOr (submitted req) .missingUrl).map fun _ => opts
  else if mode = "crawl" then
    (okOr (submitted req) .missingUrl).map fun _ => { plain with formats := crawlFormats formats }
  else if mode = "map" then
    (okOr (submitted req) .missingUrl).map fun _ => { plain with formats := [.links, .rawHtml] }
  else if mode = "batch" then
    (require (!(batchUrls req).isEmpty) .missingUrl).map fun _ =>
      { opts with renderEnabled := opts.renderEnabled && !eqIgnoreAsciiCase opts.method "POST" }
  else .error (.invalidProductOption ("unsupported serve mode '" ++ mode ++ "'"))

/-- `execute_mode`, up to the options of its scrapes. -/
def executeMode (json : JsonLib) (maxBodyBytes : Nat) (traversal : Traversal String String)
    (mode : String) (body : Bytes) : Except Error ScrapeOptions := do
  let req ← readRequest json maxBodyBytes body
  let formats ← formatsFromReq req
  modeOptions mode req formats (scrapeOptsFromReq traversal req formats)

/-! ## The commitment -/

/-- What a proof commits to of its request, with the list that is hashed. -/
structure RequestCommitment where
  headers : List (String × String)
  headersHash : String
  requestHash : String
deriving DecidableEq

/-- The hashes of a plan. -/
def commitPlan (digests : Digests) (options : ScrapeOptions) (plan : RequestPlan) :
    RequestCommitment :=
  let headersHash := requestHeadersHash digests plan.effectiveHeaders
  { headers := plan.effectiveHeaders
    headersHash := headersHash
    requestHash := requestHash digests plan.method plan.url.toString headersHash
      (requestBodyHash digests options.body) }

section Proof

variable {σ : Type} {lib : ScrapeLib} {host : Host σ} {env : Env}

/-- **Every proof of a scrape carries the commitment of its plan.** -/
theorem scrape_commits {rawUrl : String} {options : ScrapeOptions} :
    Returns (scrape lib host env rawUrl options) fun proof =>
      ∃ plan, planRequest lib.plan env rawUrl options = .ok plan ∧
        proof.request.headersHash = some (commitPlan lib.digests options plan).headersHash ∧
        proof.request.requestHash = some (commitPlan lib.digests options plan).requestHash := by
  intro w proof w' hrun
  obtain ⟨session, rfl, hplan, hblock, -⟩ := Crawl.scrape_opens w proof w' hrun
  rw [hblock]
  exact ⟨session.request, hplan, rfl, rfl⟩

end Proof

/-- The plan of a scrape with the whole profile behind the part that it hands on. -/
def PlanLib.withProfiles (lib : PlanLib)
    (complete : FingerprintProfile → Fp.FingerprintProfile) : PlanLib :=
  { lib with
    fingerprint :=
      { lib.fingerprint with
        effectiveHeaders := fun profile headers =>
          Fp.effectiveFingerprintHeaders (complete profile) headers } }

/-- The options and the plan of a scrape for a request, under a mode. -/
def planReq (lib : PlanLib) (env : Env) (traversal : Traversal String String) (mode : String)
    (req : ServeExecuteRequest) (rawUrl : String) : Except Error (ScrapeOptions × RequestPlan) := do
  let formats ← formatsFromReq req
  let options ← modeOptions mode req formats (scrapeOptsFromReq traversal req formats)
  let plan ← planRequest lib env rawUrl options
  .ok (options, plan)

/-- From the body of an execute route to the commitment of a scrape of it. -/
def serveCommitment (json : JsonLib) (maxBodyBytes : Nat) (digests : Digests) (lib : PlanLib)
    (env : Env) (traversal : Traversal String String) (mode : String) (body : Bytes)
    (rawUrl : String) : Except Error RequestCommitment := do
  let req ← readRequest json maxBodyBytes body
  let (options, plan) ← planReq lib env traversal mode req rawUrl
  .ok (commitPlan digests options plan)

/-! ## Where the headers go -/

section Headers

variable {lib : PlanLib} {complete : FingerprintProfile → Fp.FingerprintProfile} {env : Env}
  {mode rawUrl : String} {req : ServeExecuteRequest}

/-- Options with other headers. -/
def ScrapeOptions.withHeaders (options : ScrapeOptions) (headers : List (String × String)) :
    ScrapeOptions :=
  { options with headers := headers }

/-- A plan depends on its headers through their acceptance and through the effective list. -/
theorem planRequest_headers {options : ScrapeOptions} {headers : List (String × String)}
    {plan : RequestPlan} :
    planRequest (lib.withProfiles complete) env rawUrl (options.withHeaders headers) = .ok plan ↔
      validateCallerHeaders [] headers = .ok () ∧
        ∃ bare, planRequest (lib.withProfiles complete) env rawUrl (options.withHeaders []) =
            .ok bare ∧
          plan = { bare with
            effectiveHeaders :=
              Fp.effectiveFingerprintHeaders (complete bare.fingerprint) headers } := by
  rw [planned_iff]
  constructor
  · intro h
    have haccepted : validateCallerHeaders [] headers = .ok () := h.accepted
    have heffective : plan.effectiveHeaders =
        Fp.effectiveFingerprintHeaders (complete plan.fingerprint) headers := h.effective
    have hfields := h.emittable
    rw [heffective, validateFields_effective haccepted] at hfields
    refine ⟨haccepted, { plan with
      effectiveHeaders := Fp.effectiveFingerprintHeaders (complete plan.fingerprint) [] }, ?_, ?_⟩
    · exact planned_iff.mpr
        { h with
          accepted := rfl
          effective := rfl
          emittable := hfields }
    · rw [← heffective]
  · rintro ⟨haccepted, bare, hbare, rfl⟩
    have h := planned_iff.mp hbare
    have heffective : bare.effectiveHeaders =
        Fp.effectiveFingerprintHeaders (complete bare.fingerprint) [] := h.effective
    have hfields := h.emittable
    rw [heffective, ← validateFields_effective haccepted] at hfields
    exact
      { h with
        accepted := haccepted
        effective := rfl
        emittable := hfields }

/-- The request without its headers. -/
def ServeExecuteRequest.bare (req : ServeExecuteRequest) : ServeExecuteRequest :=
  { req with headers := none }

theorem modeOptions_headers (mode : String) (req : ServeExecuteRequest) (formats : List Format)
    (opts : ScrapeOptions) (headers : List (String × String)) :
    modeOptions mode req formats (opts.withHeaders headers) =
      (modeOptions mode req formats opts).map fun options => options.withHeaders headers := by
  unfold modeOptions
  dsimp only
  split_ifs
  · cases submitted req <;> rfl
  · cases submitted req <;> rfl
  · cases submitted req <;> rfl
  · cases (batchUrls req).isEmpty <;> rfl
  · rfl

/-- **The headers of a request reach its plan in the effective list only.** -/
theorem planReq_eq_ok {traversal : Traversal String String} {options : ScrapeOptions}
    {plan : RequestPlan} :
    planReq (lib.withProfiles complete) env traversal mode req rawUrl = .ok (options, plan) ↔
      validateCallerHeaders [] (headersFromReq traversal req) = .ok () ∧
        ∃ bareOptions bare,
          planReq (lib.withProfiles complete) env .forward mode req.bare rawUrl =
            .ok (bareOptions, bare) ∧
          options = bareOptions.withHeaders (headersFromReq traversal req) ∧
          plan = { bare with
            effectiveHeaders := Fp.effectiveFingerprintHeaders (complete bare.fingerprint)
              (headersFromReq traversal req) } := by
  -- both runs are on the options of the bare request
  have hopts : ∀ formats, modeOptions mode req formats (scrapeOptsFromReq traversal req formats) =
      (modeOptions mode req.bare formats (scrapeOptsFromReq .forward req.bare formats)).map
        fun options => options.withHeaders (headersFromReq traversal req) := fun formats =>
    modeOptions_headers mode req.bare formats (scrapeOptsFromReq .forward req.bare formats)
      (headersFromReq traversal req)
  have hbare : ∀ {formats opts},
      modeOptions mode req.bare formats (scrapeOptsFromReq .forward req.bare formats) = .ok opts →
      opts.withHeaders [] = opts := by
    intro formats opts h
    have hsame := modeOptions_headers mode req.bare formats
      (scrapeOptsFromReq .forward req.bare formats) []
    have hnone : (scrapeOptsFromReq .forward req.bare formats).withHeaders [] =
        scrapeOptsFromReq .forward req.bare formats := rfl
    rw [hnone, h] at hsame
    exact (Except.ok.inj hsame).symm
  have hformats : formatsFromReq req.bare = formatsFromReq req := rfl
  unfold planReq
  rw [hformats]
  simp only [bind_eq_ok, hopts]
  constructor
  · rintro ⟨formats, hformats, opts, hmode, planned, hplan, hsame⟩
    cases hsame
    cases hbareMode : modeOptions mode req.bare formats
        (scrapeOptsFromReq .forward req.bare formats) with
    | error e =>
      rw [hbareMode] at hmode
      cases hmode
    | ok bareOptions =>
      rw [hbareMode] at hmode
      cases hmode
      obtain ⟨haccepted, bare, hplanned, hplan⟩ := planRequest_headers.mp hplan
      rw [hbare hbareMode] at hplanned
      exact ⟨haccepted, bareOptions, bare,
        ⟨formats, hformats, bareOptions, hbareMode, bare, hplanned, rfl⟩, rfl, hplan⟩
  · rintro ⟨haccepted, bareOptions, bare, ⟨formats, hformats, opts, hmode, planned, hplanned, hsame⟩,
      rfl, rfl⟩
    cases hsame
    refine ⟨formats, hformats, bareOptions.withHeaders (headersFromReq traversal req), ?_, _,
      planRequest_headers.mpr ⟨haccepted, bare, ?_, rfl⟩, rfl⟩
    · rw [hmode]
      rfl
    · rw [hbare hmode]
      exact hplanned

theorem headersFromReq_perm (t u : Traversal String String) (req : ServeExecuteRequest) :
    (headersFromReq t req).Perm (headersFromReq u req) := by
  unfold headersFromReq
  cases req.headers with
  | none => exact .refl []
  | some table => exact t.visit_perm u table

/-- What a run of a body commits to. -/
theorem serveCommitment_eq_ok {json : JsonLib} {maxBodyBytes : Nat} {digests : Digests}
    {traversal : Traversal String String} {body : Bytes} {commitment : RequestCommitment} :
    serveCommitment json maxBodyBytes digests (lib.withProfiles complete) env traversal mode body
        rawUrl = .ok commitment ↔
      ∃ req, readRequest json maxBodyBytes body = .ok req ∧
        validateCallerHeaders [] (headersFromReq .forward req) = .ok () ∧
        ∃ options bare,
          planReq (lib.withProfiles complete) env .forward mode req.bare rawUrl =
            .ok (options, bare) ∧
          commitment = commitPlan digests options { bare with
            effectiveHeaders := seededFields (complete bare.fingerprint) ++
              (headersFromReq traversal req).filterMap callerField } := by
  unfold serveCommitment
  simp only [bind_eq_ok, ← effectiveFingerprintHeaders_eq]
  constructor
  · rintro ⟨req, hreq, ⟨options, plan⟩, hplan, hcommit⟩
    obtain ⟨haccepted, bareOptions, bare, hbare, rfl, rfl⟩ := planReq_eq_ok.mp hplan
    rw [validateCallerHeaders_perm (headersFromReq_perm traversal .forward req)] at haccepted
    exact ⟨req, hreq, haccepted, bareOptions, bare, hbare, (Except.ok.inj hcommit).symm⟩
  · rintro ⟨req, hreq, haccepted, options, bare, hbare, rfl⟩
    rw [← validateCallerHeaders_perm (headersFromReq_perm traversal .forward req)] at haccepted
    exact ⟨req, hreq, _, planReq_eq_ok.mpr ⟨haccepted, options, bare, hbare, rfl, rfl⟩, rfl⟩

/-- Accepted headers come out of every order alike when at most one of them is emitted, and only
then. -/
theorem emitted_stable_iff (haccepted : validateCallerHeaders [] (headersFromReq .forward req) =
    .ok ()) :
    (∀ t u : Traversal String String, (headersFromReq t req).filterMap callerField =
      (headersFromReq u req).filterMap callerField) ↔
      ((headersFromReq .forward req).filterMap callerField).length ≤ 1 := by
  have hnodup := (callerField_nodup haccepted).of_map
  unfold headersFromReq at hnodup ⊢
  cases hheaders : req.headers with
  | none => exact iff_of_true (fun _ _ => rfl) (Nat.zero_le 1)
  | some table =>
    rw [hheaders] at hnodup
    exact selection_stable_iff hnodup

end Headers

/-! ## Two runs -/

/-- **A body determines its commitment exactly when one header at most is emitted** of those it
has: a request that is refused, without its headers or because of them, commits to nothing. -/
theorem serveCommitment_stable_iff (json : JsonLib) (maxBodyBytes : Nat) (digests : Digests)
    (lib : PlanLib) (complete : FingerprintProfile → Fp.FingerprintProfile) (env : Env)
    (mode : String) (body : Bytes) (rawUrl : String) :
    (∀ t u : Traversal String String,
      (serveCommitment json maxBodyBytes digests (lib.withProfiles complete) env t mode body
        rawUrl).toOption =
      (serveCommitment json maxBodyBytes digests (lib.withProfiles complete) env u mode body
        rawUrl).toOption) ↔
    ∀ req, readRequest json maxBodyBytes body = .ok req →
      (planReq (lib.withProfiles complete) env .forward mode req.bare rawUrl).isOk = true →
      validateCallerHeaders [] (headersFromReq .forward req) = .ok () →
      ((headersFromReq .forward req).filter fun header => !Fp.isSeedOwned header.1).length ≤ 1 := by
  have hsome : ∀ {x : Except Error RequestCommitment} {c : RequestCommitment},
      x.toOption = some c ↔ x = .ok c := by
    intro x c
    cases x with
    | error e =>
      constructor
      · intro h
        cases h
      · intro h
        cases h
    | ok c' => rw [Except.toOption, Option.some_inj, Except.ok.injEq]
  have hlength : ∀ headers : List (String × String),
      (headers.filterMap callerField).length =
        (headers.filter fun header => !Fp.isSeedOwned header.1).length := by
    intro headers
    rw [callerFields_eq, List.length_map]
  constructor
  -- without its headers the body is accepted, so that they alone decide
  · intro hsame req hreq hbare haccepted
    rw [← hlength, ← emitted_stable_iff haccepted]
    intro t u
    cases hplan : planReq (lib.withProfiles complete) env .forward mode req.bare rawUrl with
    | error e =>
      rw [hplan] at hbare
      cases hbare
    | ok planned =>
      have hrun : ∀ traversal : Traversal String String, _ := fun traversal =>
        (@serveCommitment_eq_ok lib complete env mode rawUrl json maxBodyBytes digests traversal body
          _).mpr ⟨req, hreq, haccepted, planned.1, planned.2, hplan, rfl⟩
      have hboth := hsame t u
      rw [hrun t, hrun u] at hboth
      have hheaders := congrArg RequestCommitment.headers (Option.some.inj hboth)
      exact List.append_cancel_left hheaders
  -- one header at most: every traversal emits the same
  · intro hone
    have hmove : ∀ {t u : Traversal String String} {c : RequestCommitment},
        serveCommitment json maxBodyBytes digests (lib.withProfiles complete) env t mode body
          rawUrl = .ok c →
        serveCommitment json maxBodyBytes digests (lib.withProfiles complete) env u mode body
          rawUrl = .ok c := by
      intro t u c h
      obtain ⟨req, hreq, haccepted, options, bare, hbare, rfl⟩ := serveCommitment_eq_ok.mp h
      have hlen := hone req hreq (by rw [hbare]; rfl) haccepted
      rw [← hlength, ← emitted_stable_iff haccepted] at hlen
      rw [hlen t u]
      exact serveCommitment_eq_ok.mpr ⟨req, hreq, haccepted, options, bare, hbare, rfl⟩
    intro t u
    refine Option.ext fun c => ?_
    rw [hsome, hsome]
    exact ⟨hmove, hmove⟩

/-- A digest that is a checksum, the same in every byte. -/
def checksumDigests : Digests where
  sha256 := fun bytes => Vector.replicate 32 (bytes.foldl (fun sum b => sum * 31 + b) 7)
  sha512 := fun _ => Vector.replicate 64 0

/-- A page of the shop, with two headers of the caller's own. -/
def shopRequest : Json.Tree :=
  .object
    [("url", .string "http://shop.test/"),
      ("headers", .object [("X-A", .string "1"), ("X-B", .string "2")])]

/-- What the request commits to. -/
def shopCommitment (traversal : Traversal String String) : Option RequestCommitment :=
  (serveCommitment ⟨fun _ => some shopRequest, fun _ => ""⟩ 1024 checksumDigests
    (scriptedScrapeLib.plan.withProfiles fun _ => Fp.zeroProfile) (fun _ => none) traversal "scrape"
    [0x7b, 0x7d] "http://shop.test/").toOption

/-- Visited backwards, the two headers are hashed backwards. -/
theorem serveCommitment_two_headers :
    ∃ c d, shopCommitment .forward = some c ∧ shopCommitment .backward = some d ∧
      c.headers ≠ d.headers ∧ c.headersHash ≠ d.headersHash ∧ c.requestHash ≠ d.requestHash := by
  have hdiffer : ((shopCommitment .forward).any fun c => (shopCommitment .backward).any fun d =>
      decide (c.headers ≠ d.headers ∧ c.headersHash ≠ d.headersHash ∧
        c.requestHash ≠ d.requestHash)) = true := by decide +kernel
  obtain ⟨c, hc, hdiffer⟩ := (Option.any_eq_true _ _).mp hdiffer
  obtain ⟨d, hd, hdiffer⟩ := (Option.any_eq_true _ _).mp hdiffer
  exact ⟨c, d, hc, hd, of_decide_eq_true hdiffer⟩

end Basecrawl.Core
