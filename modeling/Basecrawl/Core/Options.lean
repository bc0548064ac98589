/-
  What a caller asks for, and what is decided about it before the first request.

  `planRequest` validates the options and fixes the identity of the scrape; `planBrowser` decides
  on the hard path.  Neither touches the network.
-/
import Basecrawl.Core.Proxy
import Basecrawl.Core.Solver

namespace Basecrawl.Core

open Text Outcome

/-! ## Formats -/

/-- A supported output format. -/
inductive Format where
  | markdown
  | html
  | rawHtml
  | links
  | metadata
  | screenshot
  | json
deriving DecidableEq

/-- `ALL`: every format, in canonical order. -/
def Format.all : List Format := [.markdown, .html, .rawHtml, .links, .metadata, .screenshot, .json]

/-- `Format::as_str`. -/
def Format.asStr : Format → String
  | .markdown => "markdown"
  | .html => "html"
  | .rawHtml => "rawHtml"
  | .links => "links"
  | .metadata => "metadata"
  | .screenshot => "screenshot"
  | .json => "json"

/-- The names of the formats are different. -/
theorem Format.asStr_inj {format other : Format} : format.asStr = other.asStr ↔ format = other := by
  cases format <;> cases other <;> decide

/-- `default_set`. -/
def defaultFormats : List Format := [.markdown, .metadata]

/-- `normalize`: sorted into canonical order, duplicates removed. -/
def normalizeFormats (formats : List Format) : List Format := Format.all.filter formats.contains

/-- The formats a scrape works on. -/
def effectiveFormats (formats : List Format) : List Format :=
  if formats.isEmpty then defaultFormats else normalizeFormats formats

@[simp] theorem mem_normalizeFormats {formats : List Format} {format : Format} :
    format ∈ normalizeFormats formats ↔ format ∈ formats := by
  have hall : format ∈ Format.all := by cases format <;> decide
  simp [normalizeFormats, hall]

/-! ## Options -/

/-- Options controlling a single scrape.  Time limits, pacing and render budgets belong to the
    outside. -/
structure ScrapeOptions where
  formats : List Format := defaultFormats
  taskId : Option String := none
  nonce : Option String := none
  headers : List (String × String) := []
  method : String := "GET"
  body : Bytes := []
  insecure : Bool := false
  maxBodyBytes : Nat := defaultMaxBodyBytes
  viewport : Nat × Nat := (1280, 800)
  screenshotFullPage : Bool := false
  renderEnabled : Bool := true
  waitFor : Option String := none
  actions : List Action := []
  followPagination : Bool := false
  maxPages : Nat := 5
  robotsPolicy : RobotsPolicy := .enforce
  attest : Bool := false
  signProof : Bool := false
  fingerprintSeed : Option String := none
  proxy : Option String := none
  proxySession : Option String := none
  proxyCountry : Option String := none
  proxyUsernameTemplate : Option String := none
  proxyClass : Option ProxyClass := none
  difficulty : Option SiteDifficulty := none
  forceBrowser : Bool := false
  stealthInject : Bool := true
  wipeProfileOnComplete : Bool := true
  jsonSchema : Option String := none
  jsonPrompt : Option String := none
  tlsImpersonate : Option String := none
  captchaApiKey : Option String := none
  captchaSolveTimeoutSecs : Option Nat := none

/-! ## Validation -/

/-- A text without a scheme is HTTPS. -/
def parseSubmitted (lib : UrlLib) (raw : String) : Except Error Url :=
  match lib.parse raw with
  | .ok url => .ok url
  | .error .relativeUrlWithoutBase =>
      (lib.parse ("https://" ++ raw)).mapError fun _ => .invalidUrl raw
  | .error .other => .error (.invalidUrl raw)

/-- `validate_url`: only the web is served, and only with a host. -/
def validateUrl (lib : UrlLib) (raw : String) : Except Error Url := do
  let parsed ← parseSubmitted lib raw
  require (isHttp parsed) (.unsupportedScheme parsed.scheme)
  require (parsed.host.any (· != "")) (.invalidUrl raw)
  .ok parsed

/-- The supported methods. -/
def supportedMethod (upper : String) : Except Error String :=
  require (upper == "GET" || upper == "POST") (.unsupportedMethod upper) |>.map fun _ => upper

/-- `normalize_method`. -/
def normalizeMethod (raw : String) : Except Error String := do
  let raw := if trim raw = "" then "GET" else trim raw
  require (isValidHttpMethod (asciiUpper raw)) (.unsupportedMethod raw)
  supportedMethod (asciiUpper raw)

/-- `validate_method_body`. -/
def validateMethodBody (method : String) (body : Bytes) : Except Error Unit :=
  require (!(eqIgnoreAsciiCase method "GET" && !body.isEmpty))
    (.invalidProductOption "request body requires --method POST")

/-- Fields a transport writes itself. -/
def transportManagedHeaders : List String :=
  ["host", "user-agent", "connection", "accept-encoding", "content-length", "transfer-encoding",
    "trailer", "te", "upgrade"]

/-- `validate_caller_headers`; `seen` are the names so far. -/
def validateCallerHeaders (seen : List String) : List (String × String) → Except Error Unit
  | [] => .ok ()
  | (name, value) :: headers => do
      validateHeaderPair name value
      require (!transportManagedHeaders.contains (asciiLower name)) (.invalidHeader name)
      require (!seen.contains (asciiLower name)) (.invalidHeader name)
      validateCallerHeaders (asciiLower name :: seen) headers

theorem validateUrl_isHttp {lib : UrlLib} {raw : String} {url : Url}
    (h : validateUrl lib raw = .ok url) : isHttp url = true := by
  unfold validateUrl at h
  obtain ⟨parsed, -, h⟩ := bind_eq_ok.mp h
  obtain ⟨_, hscheme, h⟩ := bind_eq_ok.mp h
  obtain ⟨_, -, h⟩ := bind_eq_ok.mp h
  obtain rfl := Except.ok.inj h
  exact require_eq_ok.mp hscheme

/-- A validated URL has a host. -/
theorem validateUrl_host {lib : UrlLib} {raw : String} {url : Url}
    (h : validateUrl lib raw = .ok url) : url.host.isSome = true := by
  unfold validateUrl at h
  obtain ⟨parsed, -, h⟩ := bind_eq_ok.mp h
  obtain ⟨_, -, h⟩ := bind_eq_ok.mp h
  obtain ⟨_, hhost, h⟩ := bind_eq_ok.mp h
  obtain rfl := Except.ok.inj h
  rw [require_eq_ok] at hhost
  cases hnone : parsed.host with
  | none =>
    rw [hnone] at hhost
    cases hhost
  | some host => rfl

/-- Its own text parses to it. -/
def Parses (lib : UrlLib) (url : Url) : Prop := lib.parse url.toString = .ok url

theorem validateUrl_parses {lib : UrlLib} (hround : lib.Reparses) {raw : String} {url : Url}
    (h : validateUrl lib raw = .ok url) : Parses lib url := by
  unfold validateUrl parseSubmitted at h
  obtain ⟨parsed, hparsed, h⟩ := bind_eq_ok.mp h
  obtain ⟨_, -, h⟩ := bind_eq_ok.mp h
  obtain ⟨_, -, h⟩ := bind_eq_ok.mp h
  obtain rfl := Except.ok.inj h
  split at hparsed
  · rename_i url hurl
    obtain rfl := Except.ok.inj hparsed
    exact hround.parsed _ _ hurl
  · cases hurl : lib.parse ("https://" ++ raw) with
    | error e =>
      rw [hurl] at hparsed
      cases hparsed
    | ok url =>
      rw [hurl] at hparsed
      obtain rfl := Except.ok.inj hparsed
      exact hround.parsed _ _ hurl
  · cases hparsed

/-- A URL whose text parses to it is validated as itself. -/
theorem validateUrl_of_parses {lib : UrlLib} {url url' : Url} (hparses : Parses lib url)
    (h : validateUrl lib url.toString = .ok url') : url' = url := by
  unfold validateUrl parseSubmitted at h
  rw [show lib.parse url.toString = .ok url from hparses] at h
  obtain ⟨parsed, hparsed, h⟩ := bind_eq_ok.mp h
  obtain rfl := Except.ok.inj hparsed
  obtain ⟨_, -, h⟩ := bind_eq_ok.mp h
  obtain ⟨_, -, h⟩ := bind_eq_ok.mp h
  exact (Except.ok.inj h).symm

/-! ## Identity -/

/-- A seeded client identity, as far as the scrape hands it on. -/
structure FingerprintProfile where
  seed : String
  userAgent : String
  viewportWidth : Nat
  viewportHeight : Nat
  timezone : String
  locale : String
  acceptLanguage : String
  platform : String
  tls13CipherNames : List String
  tlsGroupOrder : List String

/-- A soft-path TLS profile. -/
inductive SoftTlsImpersonate where
  | chrome
deriving DecidableEq

/-- What the scrape calls of `basecrawl_fp`. -/
structure FingerprintLib where
  resolveSeed : Option String → Option String → Option String → String
  generateValidated : String → Except String FingerprintProfile
  parseSoftTls : String → Except String SoftTlsImpersonate
  assertChromeSecurityFloor : Except String Unit
  captureEnabled : Bool
  applySoftTls : SoftTlsImpersonate → FingerprintProfile → FingerprintProfile
  assertSecurityInvariants : FingerprintProfile → Except String Unit
  effectiveHeaders : FingerprintProfile → List (String × String) → List (String × String)
  softTlsAudit : SoftTlsImpersonate → FingerprintProfile → SoftTlsImpersonateEgress
  browserInjectionScript : FingerprintProfile → String

/-- What a plan calls of other crates, and the gate of structured extraction. -/
structure PlanLib where
  url : UrlLib
  fingerprint : FingerprintLib
  proxy : ProxyLib
  gateStructuredExtraction : Option String → Option String → Except Error Unit

/-- Structured extraction is refused, by the gate or after it. -/
def refuseJson (lib : PlanLib) (options : ScrapeOptions) (formats : List Format) :
    Except Error Unit :=
  if formats.contains .json then do
    lib.gateStructuredExtraction options.jsonSchema options.jsonPrompt
    .error (.structuredExtractionUnsupported .extractorNotAvailable)
  else .ok ()

/-- The seeded identity. -/
def seedFingerprint (lib : FingerprintLib) (options : ScrapeOptions) :
    Except Error FingerprintProfile :=
  (lib.generateValidated
    (lib.resolveSeed options.fingerprintSeed options.taskId options.nonce)).mapError fun detail =>
      .tlsCapture ("fingerprint seed violated security-critical TLS invariants: " ++ detail)

/-- The soft TLS profile that is asked for, applied to the identity. -/
def softTls (lib : FingerprintLib) (options : ScrapeOptions) (fingerprint : FingerprintProfile) :
    Except Error (Option SoftTlsImpersonate × FingerprintProfile) :=
  match options.tlsImpersonate with
  | none => .ok (none, fingerprint)
  | some raw => do
      let profile ← (lib.parseSoftTls raw).mapError .tlsImpersonate
      lib.assertChromeSecurityFloor.mapError fun detail =>
        .tlsImpersonate ("soft chrome profile below security floor: " ++ detail)
      require (!options.attest || lib.captureEnabled)
        (.tlsImpersonate
          "tls impersonate under --attest requires in-enclave cert/transcript capture")
      let fingerprint := lib.applySoftTls profile fingerprint
      (lib.assertSecurityInvariants fingerprint).mapError fun detail =>
        .tlsImpersonate
          ("chrome soft profile violated security-critical TLS invariants: " ++ detail)
      .ok (some profile, fingerprint)

/-- The seed chooses the viewport when the caller left the default. -/
def chooseViewport (options : ScrapeOptions) (fingerprint : FingerprintProfile) : Nat × Nat :=
  if options.viewport = (1280, 800) then
    (fingerprint.viewportWidth, fingerprint.viewportHeight)
  else options.viewport

/-- The dial plan of the options. -/
def proxyPlan (options : ScrapeOptions) : ProxyPlan where
  explicitUrl := options.proxy
  username :=
    { country := options.proxyCountry
      session := options.proxySession
      template := options.proxyUsernameTemplate }
  requiredClass := options.proxyClass
  configuredClass := options.proxyClass.filter ProxyClass.requiresUpstream

/-! ## The plan -/

/-- The request side of a scrape. -/
structure RequestPlan where
  url : Url
  formats : List Format
  method : String
  fingerprint : FingerprintProfile
  softTlsImpersonate : Option SoftTlsImpersonate
  viewport : Nat × Nat
  effectiveHeaders : List (String × String)
  proxy : Option ProxyConfig
  dialedProxyClass : ProxyClass

/-- From the raw URL to the resolved proxy. -/
def planRequest (lib : PlanLib) (env : Env) (rawUrl : String) (options : ScrapeOptions) :
    Except Error RequestPlan := do
  let url ← validateUrl lib.url rawUrl
  let formats := effectiveFormats options.formats
  let method ← normalizeMethod options.method
  validateMethodBody method options.body
  refuseJson lib options formats
  let fingerprint ← seedFingerprint lib.fingerprint options
  -- the viewport and the headers are those of the identity after the soft profile
  let (softTlsImpersonate, fingerprint) ← softTls lib.fingerprint options fingerprint
  let viewport := chooseViewport options fingerprint
  validateCallerHeaders [] options.headers
  let effectiveHeaders := lib.fingerprint.effectiveHeaders fingerprint options.headers
  validateFields effectiveHeaders
  let proxy ← resolveProxyPlan lib.proxy env (proxyPlan options) url
  let dialedProxyClass ← truthfulProxyClass proxy options.proxyClass
  .ok
    { url := url
      formats := formats
      method := method
      fingerprint := fingerprint
      softTlsImpersonate := softTlsImpersonate
      viewport := viewport
      effectiveHeaders := effectiveHeaders
      proxy := proxy
      dialedProxyClass := dialedProxyClass }

/-- What a plan is made of: each stage succeeded, on the options and the stages before it. -/
structure Planned (lib : PlanLib) (env : Env) (rawUrl : String) (options : ScrapeOptions)
    (plan : RequestPlan) : Prop where
  url : validateUrl lib.url rawUrl = .ok plan.url
  formats : plan.formats = effectiveFormats options.formats
  method : normalizeMethod options.method = .ok plan.method
  body : validateMethodBody plan.method options.body = .ok ()
  json : refuseJson lib options plan.formats = .ok ()
  identity : ∃ seeded, seedFingerprint lib.fingerprint options = .ok seeded ∧
    softTls lib.fingerprint options seeded = .ok (plan.softTlsImpersonate, plan.fingerprint)
  viewport : plan.viewport = chooseViewport options plan.fingerprint
  accepted : validateCallerHeaders [] options.headers = .ok ()
  effective : plan.effectiveHeaders =
    lib.fingerprint.effectiveHeaders plan.fingerprint options.headers
  emittable : validateFields plan.effectiveHeaders = .ok ()
  proxy : resolveProxyPlan lib.proxy env (proxyPlan options) plan.url = .ok plan.proxy
  dialed : truthfulProxyClass plan.proxy options.proxyClass = .ok plan.dialedProxyClass

theorem planned_iff {lib : PlanLib} {env : Env} {rawUrl : String} {options : ScrapeOptions}
    {plan : RequestPlan} :
    planRequest lib env rawUrl options = .ok plan ↔ Planned lib env rawUrl options plan := by
  unfold planRequest
  constructor
  · intro h
    obtain ⟨url, hurl, h⟩ := bind_eq_ok.mp h
    obtain ⟨method, hmethod, h⟩ := bind_eq_ok.mp h
    obtain ⟨_, hbody, h⟩ := bind_eq_ok.mp h
    obtain ⟨_, hjson, h⟩ := bind_eq_ok.mp h
    obtain ⟨seeded, hseeded, h⟩ := bind_eq_ok.mp h
    obtain ⟨⟨soft, fingerprint⟩, hsoft, h⟩ := bind_eq_ok.mp h
    obtain ⟨_, haccepted, h⟩ := bind_eq_ok.mp h
    obtain ⟨_, hfields, h⟩ := bind_eq_ok.mp h
    obtain ⟨proxy, hproxy, h⟩ := bind_eq_ok.mp h
    obtain ⟨dialed, hdialed, h⟩ := bind_eq_ok.mp h
    obtain rfl := Except.ok.inj h
    exact ⟨hurl, rfl, hmethod, hbody, hjson, ⟨seeded, hseeded, hsoft⟩, rfl, haccepted, rfl, hfields,
      hproxy, hdialed⟩
  · intro h
    obtain ⟨seeded, hseeded, hsoft⟩ := h.identity
    have hjson := h.json
    have hfields := h.emittable
    rw [h.formats] at hjson
    rw [h.effective] at hfields
    simp only [h.url, h.method, h.body, hjson, hseeded, hsoft, h.accepted, hfields, h.proxy,
      h.dialed, ok_bind]
    cases plan
    simp only [Except.ok.injEq, RequestPlan.mk.injEq, true_and, and_true]
    exact ⟨h.formats.symm, h.viewport.symm, h.effective.symm⟩

/-- A variable that is switched on. -/
def isTruthy (setting : Option String) : Bool :=
  (setting.map trim).any fun t => t == "1" || eqIgnoreAsciiCase t "true" || eqIgnoreAsciiCase t "yes"

/-- The class the hard path is decided on. -/
def RequestPlan.pathClass (plan : RequestPlan) (options : ScrapeOptions) : ProxyClass :=
  options.proxyClass.getD plan.dialedProxyClass

/-- Whether the scrape needs the live residential slot. -/
def needsResidentialSlot (env : Env) (options : ScrapeOptions) (plan : RequestPlan) : Bool :=
  isTruthy (env "BASECRAWL_LIVE_PROXY") && plan.proxy.isSome &&
    (plan.pathClass options).isResidential

/-- Formats that a browser produces. -/
def needsBrowserFormats (options : ScrapeOptions) (formats : List Format) : Bool :=
  formats.any (fun format => format == .screenshot || format == .markdown || format == .html) ||
    options.followPagination

/-- The decision on the hard path. -/
def hardDecision (options : ScrapeOptions) (plan : RequestPlan) : HardPathDecision where
  proxyClass := some (plan.pathClass options)
  difficulty := options.difficulty
  forceBrowser := options.forceBrowser
  renderEnabled := options.renderEnabled
  needsBrowserFormats := needsBrowserFormats options plan.formats

/-- `hard_required`. -/
def hardRequired (options : ScrapeOptions) (plan : RequestPlan) : Bool :=
  requiresChromiumHardPath (hardDecision options plan)

/-- `stealth_inject_enabled`. -/
def stealthInjectEnabled (env : Env) (options : ScrapeOptions) : Bool :=
  options.stealthInject && !isTruthy (env "BASECRAWL_DISABLE_STEALTH_INJECT")

/-- The refusal of a hard path without the early document inject. -/
def stealthInjectRefusal : Error :=
  .hardPath ("stealth inject is required on the hard Chromium path; refuse silent success " ++
    "without Page.addScriptToEvaluateOnNewDocument install (VAL-CDP-008)")

/-- The browser side of a scrape. -/
structure BrowserPlan where
  hardRequired : Bool
  stealthInjectEnabled : Bool
  willUseBrowser : Bool

/-- Soft POST is only implemented on the rustls path. -/
def willUseBrowser (options : ScrapeOptions) (plan : RequestPlan) : Except Error Bool :=
  -- page one of a soft POST may be rendered all the same
  if eqIgnoreAsciiCase plan.method "POST" then .ok false
  else willLaunchChromium (hardDecision options plan) (hardRequired options plan)

/-- From the resolved proxy to the use of the browser. -/
def planBrowser (env : Env) (options : ScrapeOptions) (plan : RequestPlan) :
    Except Error BrowserPlan := do
  let hard := hardRequired options plan
  let inject := stealthInjectEnabled env options
  require (!(eqIgnoreAsciiCase plan.method "POST" && hard)) .postNotSupportedOnHardPath
  require (!hard || inject) stealthInjectRefusal
  let browser ← willUseBrowser options plan
  .ok { hardRequired := hard, stealthInjectEnabled := inject, willUseBrowser := browser }

/-- **The hard path is driven**: a hard scrape that goes on is no POST, has the early inject and
    rendering enabled, and uses the browser. -/
theorem planBrowser_hard {env : Env} {options : ScrapeOptions} {plan : RequestPlan}
    {browser : BrowserPlan} (h : planBrowser env options plan = .ok browser)
    (hhard : hardRequired options plan = true) :
    browser.willUseBrowser = true ∧ options.renderEnabled = true ∧
      stealthInjectEnabled env options = true := by
  unfold planBrowser at h
  obtain ⟨_, hpost, h⟩ := bind_eq_ok.mp h
  obtain ⟨_, hinject, h⟩ := bind_eq_ok.mp h
  obtain ⟨launches, hlaunch, h⟩ := bind_eq_ok.mp h
  obtain rfl := Except.ok.inj h
  rw [hhard] at hpost hinject
  have hget : ¬ eqIgnoreAsciiCase plan.method "POST" = true := by simpa using hpost
  rw [willUseBrowser, if_neg hget, hhard] at hlaunch
  obtain ⟨rfl, hrender⟩ := willLaunchChromium_hard hlaunch
  exact ⟨rfl, hrender, by simpa using hinject⟩

/-- What `planBrowser` says of the hard path. -/
theorem planBrowser_hardRequired {env : Env} {options : ScrapeOptions} {plan : RequestPlan}
    {browser : BrowserPlan} (h : planBrowser env options plan = .ok browser) :
    browser.hardRequired = hardRequired options plan ∧
      browser.stealthInjectEnabled = stealthInjectEnabled env options := by
  unfold planBrowser at h
  obtain ⟨_, -, h⟩ := bind_eq_ok.mp h
  obtain ⟨_, -, h⟩ := bind_eq_ok.mp h
  obtain ⟨launches, -, h⟩ := bind_eq_ok.mp h
  obtain rfl := Except.ok.inj h
  exact ⟨rfl, rfl⟩

end Basecrawl.Core
