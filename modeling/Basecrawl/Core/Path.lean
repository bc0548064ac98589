/-
  Whether the path label of a proof tells the truth.

  The label is computed from a flag and from what was decided before page one; the launches happen
  elsewhere, some of them after the flag was read.  `scrape_truthfulPath_iff` says exactly when the
  two agree.  The scripted scrapes of this file are also the runs the other properties are tried on.
-/
import Basecrawl.Core.Evidence
import Basecrawl.Core.Stages

namespace Basecrawl.Core

open Text Outcome Run

/-- The label is Chromium exactly when Chromium was launched, and the soft TLS audit is there only
    when it was not. -/
structure TruthfulPath (egress : Egress) (trace : List Event) : Prop where
  label : egress.fetchPath = some .chromium ↔ launches trace ≠ []
  soft : egress.softTlsImpersonate.isSome = true → launches trace = []

section Label

variable {hard : Bool} {options : ScrapeOptions} {formats : List Format} {proof : ScrapeProof}
  {es : List Event} {first : Document} {later : List Document} {pages : List Page}

/-- A truthful label is all there is to it: the audit is on the direct path only. -/
theorem Scraped.truthfulPath_of_label
    (h : Scraped hard options formats proof es first later pages)
    (hlabel : proof.egress.fetchPath = some .chromium ↔ launches es ≠ []) :
    TruthfulPath proof.egress es := by
  refine ⟨hlabel, ?_⟩
  intro hsoft
  by_contra hlaunched
  have hchromium : proof.egress.fetchPath = some .chromium := hlabel.mpr hlaunched
  have hdirect : proof.egress.fetchPath = some .direct := h.soft hsoft
  rw [hchromium] at hdirect
  cases hdirect

/-- When Chromium was used for page one or for a screenshot, the label says so.  Otherwise it speaks
    about page one, the launches about the pages after it. -/
theorem Scraped.truthfulPath_iff (h : Scraped hard options formats proof es first later pages) :
    TruthfulPath proof.egress es ↔
      .screenshot ∈ formats ∨ rendersFirst hard options formats first = true ∨
        ((hard = true ∧ first.isHtml = true) ↔ RendersSome options later) := by
  have hlaunches := h.logged.launches
  have hchromium := h.label
  -- the label and the launches differ in their last alternative only
  by_cases hshot : Format.screenshot ∈ formats
  · refine iff_of_true ?_ (Or.inl hshot)
    exact h.truthfulPath_of_label
      (iff_of_true (hchromium.mpr (Or.inl hshot)) (hlaunches.mpr (Or.inl hshot)))
  by_cases hfirst : rendersFirst hard options formats first = true
  · refine iff_of_true ?_ (Or.inr (Or.inl hfirst))
    exact h.truthfulPath_of_label
      (iff_of_true (hchromium.mpr (Or.inr (Or.inl hfirst)))
        (hlaunches.mpr (Or.inr (Or.inl hfirst))))
  rw [or_iff_right hshot, or_iff_right hfirst] at hlaunches hchromium ⊢
  constructor
  · intro htruthful
    exact hchromium.symm.trans (htruthful.label.trans hlaunches)
  · intro hagree
    exact h.truthfulPath_of_label (hchromium.trans (hagree.trans hlaunches.symm))

end Label

variable {σ : Type}

/-- **The fetch path, exactly.**  In a run that returns a proof the label is truthful if and only if
    a screenshot was taken, or page one was rendered, or the demand for Chromium on page one agrees
    with whether a page after it was rendered. -/
theorem scrape_truthfulPath_iff (lib : ScrapeLib) (host : Host σ) (env : Env) (rawUrl : String)
    (options : ScrapeOptions) (s : σ) (proof : ScrapeProof) (w : World σ)
    (h : scrape lib host env rawUrl options ⟨s, [], []⟩ = .ok proof w) :
    ∃ plan first later, planRequest lib.plan env rawUrl options = .ok plan ∧
      documents w.trace = first :: later ∧
      (TruthfulPath proof.egress w.trace ↔
        .screenshot ∈ effectiveFormats options.formats ∨
          rendersFirst (hardRequired options plan) options (effectiveFormats options.formats)
            first = true ∨
          ((hardRequired options plan = true ∧ first.isHtml = true) ↔
            RendersSome options later)) := by
  obtain ⟨es, htrace, plan, first, later, pages, hplan, hscraped⟩ := scrape_yields.of_eq_ok h
  rw [show w.trace = es from htrace]
  exact ⟨plan, first, later, hplan, hscraped.logged.documents, hscraped.truthfulPath_iff⟩

/-! ## Scripted scrapes -/

/-- What the outside has left to say: replies of the network, DOMs of the browser. -/
structure Script where
  replies : List Reply
  doms : List String

/-- A program over the replies alone. -/
def onReplies {α : Type} (x : Outside (List Reply) α) : Outside Script α := fun script =>
  match x script.replies with
  | .ok a replies => .ok a { script with replies := replies }
  | .error e replies => .error e { script with replies := replies }

/-- A browser that asks for no document of its own and hands back the next DOM. -/
def scriptedBrowser : Browser Script where
  start := fun _ _ => pure ()
  visits := fun _ => 0
  next := pure none
  answer := fun _ => pure ()
  finish := fun script =>
    match script.doms with
    | dom :: doms => .ok dom { script with doms := doms }
    | [] => .error (.render "the browser has closed the connection") script

/-- Everything outside, from a script; there is no solver to speak of. -/
def scriptedHost : Host Script where
  net :=
    { pace := fun url => onReplies (scriptedNetwork.pace url)
      dial := fun proxy host port => onReplies (scriptedNetwork.dial proxy host port)
      handshake := fun config host => onReplies (scriptedNetwork.handshake config host)
      exchange := fun request => onReplies (scriptedNetwork.exchange request)
      nowUtc := fun script => scriptedNetwork.nowUtc script.replies }
  browser := scriptedBrowser
  provider := fun _ _ => pure (.failed .provider "no balance")
  acquireResidentialSlot := pure ()
  releaseResidentialSlot := id
  acquireStickyProfile := fun key => pure ("/tmp/basecrawl-profile-" ++ key)
  wipeStickyProfile := fun _ => id
  startChromiumComposer := fun _ => pure "127.0.0.1:1080"
  deadlinePassed := fun _ => false
  signAt := fun _ => pure ⟨"key", "signature"⟩
  getQuote := fun reportData => pure ⟨"quote", reportData⟩

/-- A page of `http://shop.test`. -/
def shopUrl (path : String) : Url := { scheme := "http", host := some "shop.test", path := path }

/-- An identity. -/
def scriptedFingerprint (seed : String) : FingerprintProfile where
  seed := seed
  userAgent := defaultUserAgent
  viewportWidth := 1280
  viewportHeight := 800
  timezone := "UTC"
  locale := "en-US"
  acceptLanguage := "en-US,en;q=0.9"
  platform := "Linux x86_64"
  tls13CipherNames := []
  tlsGroupOrder := []

/-- Just enough of the other crates for the pages of the shop: its second page is the next one of
    every page that says it has one. -/
def scriptedScrapeLib : ScrapeLib where
  url :=
    { parse := fun raw =>
        if raw = (shopUrl "/").toString then .ok (shopUrl "/")
        else if raw = (shopUrl "/2").toString then .ok (shopUrl "/2")
        else .error .other
      join := fun _ _ => none }
  digests := zeroDigests
  base64 := fun _ => "MA=="
  fromUtf8Lossy := fun _ => ""
  isServerName := fun _ => true
  decodeBody := fun body _ _ => (fromUtf8 body).getD ""
  xmlEvents := fun _ => []
  fingerprint :=
    { resolveSeed := fun _ _ _ => "seed"
      generateValidated := fun seed => .ok (scriptedFingerprint seed)
      parseSoftTls := fun _ => .ok .chrome
      assertChromeSecurityFloor := .ok ()
      captureEnabled := true
      applySoftTls := fun _ fingerprint => fingerprint
      assertSecurityInvariants := fun _ => .ok ()
      effectiveHeaders := fun _ headers => headers
      softTlsAudit := fun _ _ => ⟨"chrome", "soft", "00", "00"⟩
      browserInjectionScript := fun _ => "" }
  proxy :=
    { parse := fun _ => .error (.invalidProxy "unsupported proxy URL")
      applyUsernameTemplate := fun _ config => .ok config }
  gateStructuredExtraction := fun _ _ => .ok ()
  extractDocument := fun _ _ => .error "unsupported document"
  findNext := fun html base =>
    if contains html "rel=\"next\"" then some { base with path := "/2" } else none
  toMarkdown := fun html _ => html
  links := fun _ _ => []
  metadata := fun _ _ _ => []
  injectScript := id
  pacingSeed := fun _ _ => 0
  canonicalJson := fun _ => "\x7b\x7d"
  quoteMeasurement := fun _ => .ok "00"
  signingJson := fun _ => "\x7b\x7d"
  verifySignature := fun _ _ _ => .ok ()

/-- An HTML page. -/
def htmlReply (body : String) : Reply where
  statusCode := 200
  headers := [("content-type", utf8 "text/html; charset=utf-8")]
  body := utf8 body
  bodyTruncated := false

/-- A first page with a second one after it. -/
def firstReply : Reply := htmlReply "<h1>one</h1><a rel=\"next\" href=\"/2\">more</a>"

/-- A scrape of the shop. -/
def scriptedScrape (options : ScrapeOptions) (script : Script) :
    EStateM.Result Error (World Script) ScrapeProof :=
  scrape scriptedScrapeLib scriptedHost (fun _ => none) (shopUrl "/").toString options
    ⟨script, [], []⟩

/-- The served source of every page, behind no policy. -/
def sourceOptions : ScrapeOptions := { formats := [.rawHtml], robotsPolicy := .ignore }

/-- The label of a run, with the launches it logged. -/
def pathReport : EStateM.Result Error (World Script) ScrapeProof →
    Option (Option FetchPath × List Launch)
  | .ok proof w => some (proof.egress.fetchPath, launches w.trace)
  | .error _ _ => none

/-- The source of two pages: the second is rendered to look for a third. -/
def pagedScrape : EStateM.Result Error (World Script) ScrapeProof :=
  scriptedScrape { sourceOptions with followPagination := true }
    ⟨[firstReply, htmlReply "<h1>two</h1>"], ["<h1>two</h1>"]⟩

/-- A screenshot of the first page. -/
def screenshotScrape : EStateM.Result Error (World Script) ScrapeProof :=
  scriptedScrape { sourceOptions with formats := [.screenshot] } ⟨[firstReply], ["iVBORw0KGgo="]⟩

/-- The second page was rendered, yet the proof says that everything was fetched directly. -/
theorem scrape_path_untruthful :
    ∃ proof w, pagedScrape = .ok proof w ∧ ¬ TruthfulPath proof.egress w.trace := by
  have hreport : pathReport pagedScrape = some (some .direct, [.render]) := by decide +kernel
  cases hrun : pagedScrape with
  | error e w =>
    rw [hrun] at hreport
    cases hreport
  | ok proof w =>
    rw [hrun, pathReport, Option.some_inj, Prod.mk.injEq] at hreport
    obtain ⟨hpath, hlaunches⟩ := hreport
    refine ⟨proof, w, rfl, ?_⟩
    intro htruthful
    have hlaunched : launches w.trace ≠ [] := by
      rw [hlaunches]
      exact List.cons_ne_nil _ _
    have hchromium : proof.egress.fetchPath = some .chromium := htruthful.label.mpr hlaunched
    rw [hpath] at hchromium
    cases hchromium

/-- The label of a screenshot is truthful. -/
theorem scrape_path_truthful :
    ∃ proof w, screenshotScrape = .ok proof w ∧ TruthfulPath proof.egress w.trace := by
  have hreport : pathReport screenshotScrape = some (some .chromium, [.screenshot]) := by
    decide +kernel
  cases hrun : screenshotScrape with
  | error e w =>
    rw [hrun] at hreport
    cases hreport
  | ok proof w =>
    obtain ⟨plan, first, later, -, -, htruthful⟩ :=
      scrape_truthfulPath_iff _ _ _ _ _ _ _ _ hrun
    exact ⟨proof, w, rfl, htruthful.mpr (Or.inl (by decide))⟩

end Basecrawl.Core
