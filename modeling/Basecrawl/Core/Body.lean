/-
  Where the caller's request body goes.

  1. **One fetch** — the redirect loop sends the body with its first hop alone
     (`HopRun.sentOnce`).
  2. **The scrape** — the same configuration, body included, is also that of the policy, of the
     sitemaps and of the pages after the first.  `scrape_sends_body_once` says that nothing else
     sends it.
-/
import Basecrawl.Core.Challenge

namespace Basecrawl.Core

open Text Outcome Run

/-! ## Carriers -/

/-- The requests of a log that carry a body. -/
def carriers (body : Bytes) (es : List Event) : List HttpRequest :=
  (transmissions es).filter fun request => request.body = body

/-- The body was sent at most once, and to this URL. -/
structure SentOnce (url : Url) (body : Bytes) (es : List Event) : Prop where
  once : (carriers body es).length ≤ 1
  target : ∀ request ∈ carriers body es, request.url = url

variable {url : Url} {body : Bytes} {es es' : List Event}

theorem carriers_append : carriers body (es ++ es') = carriers body es ++ carriers body es' := by
  rw [carriers, transmissions_append, List.filter_append]
  rfl

theorem carriers_eq_nil (h : ∀ request ∈ transmissions es, request.body ≠ body) :
    carriers body es = [] := by
  rw [carriers, List.filter_eq_nil_iff]
  intro request hmem hsame
  have hne : request.body ≠ body := h request hmem
  exact hne (of_decide_eq_true hsame)

theorem carriers_of_silent (h : transmissions es = []) : carriers body es = [] := by
  rw [carriers, h]
  rfl

theorem sentOnce_of_nil (h : carriers body es = []) : SentOnce url body es := by
  refine ⟨?_, ?_⟩
  · rw [h]
    exact Nat.zero_le 1
  · intro request hmem
    rw [h] at hmem
    cases hmem

theorem carriers_approved (u : Url) : carriers body (.approved u :: es) = carriers body es := rfl

/-- What carries no body does not count. -/
theorem SentOnce.append_left (h : SentOnce url body es') (hnil : carriers body es = []) :
    SentOnce url body (es ++ es') := by
  have hsame : carriers body (es ++ es') = carriers body es' := by
    rw [carriers_append, hnil, List.nil_append]
  exact ⟨hsame ▸ h.once, hsame ▸ h.target⟩

theorem SentOnce.append_right (h : SentOnce url body es) (hnil : carriers body es' = []) :
    SentOnce url body (es ++ es') := by
  have hsame : carriers body (es ++ es') = carriers body es := by
    rw [carriers_append, hnil, List.append_nil]
  exact ⟨hsame ▸ h.once, hsame ▸ h.target⟩

theorem SentOnce.approved (h : SentOnce url body es) (u : Url) :
    SentOnce url body (.approved u :: es) := ⟨h.once, h.target⟩

/-! ## One fetch -/

/-- A transmission writes at most one request, with the URL and the body of its hop. -/
theorem HopEvents.bodies {config : FetchConfig} {origin : Url} {r : Except Error SingleResponse}
    (h : HopEvents url config origin r es) :
    ∀ request ∈ transmissions es, request.url = url ∧ request.body = config.body := by
  have hwrite : ∀ {request : HttpRequest}, Wrote url config origin request →
      request.url = url ∧ request.body = config.body := by
    rintro request ⟨host, port, hbuild⟩
    obtain ⟨hurl, -, hbody⟩ := buildHttpRequest_eq_ok hbuild
    exact ⟨hurl, hbody⟩
  intro request hmem
  cases h with
  | unsent e => cases hmem
  | unanswered e hwrote =>
    obtain rfl := List.mem_singleton.mp hmem
    exact hwrite hwrote
  | answered hwrote _ =>
    obtain rfl := List.mem_singleton.mp hmem
    exact hwrite hwrote

theorem HopEvents.sentOnce {config : FetchConfig} {origin : Url}
    {r : Except Error SingleResponse} (h : HopEvents url config origin r es) :
    SentOnce url body es := by
  refine ⟨?_, ?_⟩
  · have hfilter : (carriers body es).length ≤ (transmissions es).length :=
      List.length_filter_le _ _
    have hone := h.length_transmissions
    omega
  · intro request hmem
    exact (h.bodies request (List.mem_filter.mp hmem).1).1

theorem body_afterRedirect (config : FetchConfig) (statusCode : Nat) :
    (config.afterRedirect statusCode).body = [] := by
  unfold FetchConfig.afterRedirect
  split
  · rfl
  · rfl

section Machine

variable {lib : FetchLib} {submitted origin : Url} {C : List Event → Prop} {st : HopState}
  {r : Except Error Fetched}

/-- From a hop without a body on no request carries one. -/
theorem HopRun.carriers_nil (hC : ∀ cs, C cs → transmissions cs = [])
    (h : HopRun lib submitted origin C st r es) (hst : st.hopConfig.body = [])
    (hbody : body ≠ []) : carriers body es = [] := by
  have hhop : ∀ {st : HopState} {r : Except Error SingleResponse} {es : List Event},
      st.hopConfig.body = [] → HopEvents st.current st.hopConfig origin r es →
        carriers body es = [] := by
    intro st r es hst hes
    refine carriers_eq_nil fun request hmem => ?_
    rw [(hes.bodies request hmem).2, hst]
    exact hbody.symm
  refine h.log_induction
    (P := fun st es => st.hopConfig.body = [] → carriers body es = []) ?_ ?_ ?_ hst
  · exact fun st cs hcs _ => carriers_of_silent (hC cs hcs)
  · intro st cs r es hcs hes hst
    rw [carriers_append, carriers_of_silent (hC cs hcs), carriers_approved, hhop hst hes]
    rfl
  · intro st st' cs es rest response hcs hes hnext ih hst
    obtain ⟨-, -, target, rfl⟩ := nextHop_eq_some hnext
    have hrest := ih (body_afterRedirect _ _)
    rw [carriers_append, carriers_of_silent (hC cs hcs), carriers_approved, carriers_append,
      hhop hst hes, hrest]
    rfl

/-- **One fetch** sends a body with its first hop alone. -/
theorem HopRun.sentOnce (hC : ∀ cs, C cs → transmissions cs = [])
    (h : HopRun lib submitted origin C st r es) (hbody : body ≠ []) :
    SentOnce st.current body es := by
  have hlast : ∀ {cs es : List Event} {r : Except Error SingleResponse}, C cs →
      HopEvents st.current st.hopConfig origin r es →
        SentOnce st.current body (cs ++ .approved st.current :: es) :=
    fun hcs hes => (hes.sentOnce.approved _).append_left (carriers_of_silent (hC _ hcs))
  cases h with
  | refused hcs => exact sentOnce_of_nil (carriers_of_silent (hC _ hcs))
  | failed hcs hes => exact hlast hcs hes
  | stopped hcs hes _ => exact hlast hcs hes
  | finished _ hcs hes _ => exact hlast hcs hes
  | followed hcs hes hnext hrest =>
    -- the redirect has taken the body away
    obtain ⟨-, -, target, rfl⟩ := nextHop_eq_some hnext
    have hnil := hrest.carriers_nil hC (body_afterRedirect _ _) hbody
    refine SentOnce.append_left ?_ (carriers_of_silent (hC _ hcs))
    exact (hes.sentOnce.append_right hnil).approved st.current

end Machine

/-! ## What sends nothing -/

/-- A request goes out. -/
def Event.isTransmit : Event → Bool
  | .transmit _ => true
  | _ => false

theorem transmissions_offline : ∀ {es : List Event}, (∀ e ∈ es, e.isTransmit = false) →
    transmissions es = []
  | [], _ => rfl
  | e :: es, h => by
      have hrest : transmissions es = [] :=
        transmissions_offline fun e' he => h e' (List.mem_cons_of_mem _ he)
      have hone := h e List.mem_cons_self
      cases e with
      | transmit request => cases hone
      | approved u => exact hrest
      | served hop => exact hrest
      | document document => exact hrest
      | followed next => exact hrest
      | launch kind => exact hrest
      | surfaced page => exact hrest

/-- A program that sends no request. -/
abbrev Offline {σ α : Type} (x : Prog σ α) : Prop :=
  EmitsOnly World.trace (fun e => e.isTransmit = false) x

variable {σ α β : Type} {lib : ScrapeLib} {host : Host σ} {session : Session}

/-- An ignored policy sends nothing, and then neither does a browser launch. -/
theorem checkDocument_offline (hignore : session.options.robotsPolicy = .ignore) {u : Url} :
    Offline (session.checkDocument lib host u) :=
  DocumentPolicy.check_ignore hignore

theorem driveBrowser_offline (hignore : session.options.robotsPolicy = .ignore) {u : Url}
    {task : BrowserTask} :
    Offline (driveBrowser host.browser (session.checkDocument lib host) u task) := by
  refine Emits.mono (driveBrowser_emits (fun _ => checkDocument_offline hignore) u task) ?_
  rintro _ _ ⟨rest, rfl, hrest⟩ e he
  rcases List.mem_cons.mp he with rfl | he
  · rfl
  · exact hrest e he

theorem renderPage_offline (hignore : session.options.robotsPolicy = .ignore) {hard : Bool}
    {base : Url} {actions : List Action} :
    Offline (renderPage lib host session hard base actions) :=
  (driveBrowser_offline hignore).bind fun _ => emitsOnly_pure

theorem sitemapUrls_offline {robots : RobotsDecision} (hlinks : .links ∉ session.request.formats) :
    Offline (sitemapUrls lib host session robots) := by
  have hnone : ¬ session.request.formats.contains .links = true := by simpa using hlinks
  rw [sitemapUrls, if_neg hnone]
  exact emitsOnly_pure

variable {runtime : Option CaptchaSolverRuntime} {page : ServedPage}

theorem settleRendered_offline (hignore : session.options.robotsPolicy = .ignore) {html : String}
    {pending : Option SolveSolution} :
    Offline (settleRendered lib host session runtime page html pending) := by
  cases pending with
  | some solution => exact emitsOnly_ofResult.bind fun _ => emitsOnly_pure
  | none =>
    unfold settleRendered
    by_cases hblocked : session.isBlocked html page.statusCode = true
    · rw [if_pos hblocked]
      refine solvePage_silent.bind fun solution => ?_
      refine emitsOnly_ofResult.bind fun actions => ?_
      refine (renderPage_offline hignore).bind fun again => ?_
      exact emitsOnly_ofResult.bind fun _ => emitsOnly_pure
    · rw [if_neg hblocked]
      exact emitsOnly_pure

theorem renderPageOne_offline (hignore : session.options.robotsPolicy = .ignore) :
    Offline (renderPageOne lib host session runtime page) := by
  have hserved : Offline (solveServed host session runtime page) := by
    unfold solveServed
    split
    · exact solvePage_silent.bind fun _ => emitsOnly_pure
    · exact emitsOnly_pure
  refine hserved.bind fun pending => ?_
  refine emitsOnly_ofResult.bind fun actions => ?_
  split
  · exact (renderPage_offline hignore).bind fun _ => settleRendered_offline hignore
  · exact emitsOnly_ofResult

variable {fetched : Fetched} {one : PageOne}

theorem surface_offline {html : String} : Offline (one.surface html : Prog σ Unit) :=
  emitsOnly_note rfl

theorem surfaceHtml_offline : Offline (one.surfaceHtml : Prog σ Unit) := by
  unfold PageOne.surfaceHtml
  split
  · exact surface_offline
  · exact emitsOnly_pure

theorem textSurface_offline : Offline (textSurface one : Prog σ Json.Tree) := by
  unfold textSurface
  split
  · exact emitsOnly_pure
  · exact emitsOnly_pure
  · exact surface_offline.bind fun _ => emitsOnly_pure
  · exact surface_offline.bind fun _ => emitsOnly_pure

theorem domSurface_offline {convert : String → String} :
    Offline (domSurface one convert : Prog σ Json.Tree) := by
  unfold domSurface
  split
  · exact surface_offline.bind fun _ => emitsOnly_pure
  · exact emitsOnly_pure
  · exact textSurface_offline
  · exact textSurface_offline

theorem produceFormat_offline (hignore : session.options.robotsPolicy = .ignore)
    (format : Format) : Offline (produceFormat lib host session fetched one format) := by
  cases format with
  | rawHtml => exact textSurface_offline
  | markdown =>
    show Offline (domSurface one fun source => lib.toMarkdown source one.page.base)
    exact domSurface_offline
  | html =>
    show Offline (domSurface one id)
    exact domSurface_offline
  | links => exact surfaceHtml_offline.bind fun _ => emitsOnly_pure
  | metadata => exact surfaceHtml_offline.bind fun _ => emitsOnly_pure
  | json => exact emitsOnly_pure
  | screenshot => exact (driveBrowser_offline hignore).bind fun _ => emitsOnly_pure

theorem produceFormats_offline (hignore : session.options.robotsPolicy = .ignore) :
    ∀ (formats : List Format) (production : Production),
      Offline (produceFormats lib host session fetched one formats production)
  | [], _ => emitsOnly_pure
  | format :: formats, _ =>
      (produceFormat_offline hignore format).bind fun _ => produceFormats_offline hignore formats _

/-! ## The scrape -/

/-- The next links that were followed. -/
def followedLinks (es : List Event) : List Url :=
  es.filterMap fun
    | .followed next => some next
    | _ => none

/-- Some next link was followed. -/
def Followed (es : List Event) : Prop := followedLinks es ≠ []

theorem followed_append : Followed (es ++ es') ↔ Followed es ∨ Followed es' := by
  rw [Followed, Followed, Followed, followedLinks, List.filterMap_append, Ne,
    List.append_eq_nil_iff, Classical.not_and_iff_not_or_not]
  rfl

/-- A program that follows a next link before it sends anything. -/
abbrev Onward (x : Prog σ α) : Prop :=
  Emits World.trace x fun _ es => Followed es ∨ ∀ e ∈ es, e.isTransmit = false

theorem Offline.onward {x : Prog σ α} (h : Offline x) : Onward x :=
  Emits.mono h fun _ _ hes => Or.inr hes

theorem Onward.bind {x : Prog σ α} {f : α → Prog σ β} (hx : Onward x) (hf : ∀ a, Onward (f a)) :
    Onward (x >>= f) := by
  refine Emits.bind hx (fun _ _ hes => hes) ?_
  intro a es hes
  refine Emits.mono (hf a) ?_
  rintro _ es' hes'
  rcases hes with hfollowed | hes
  · exact Or.inl (followed_append.mpr (Or.inl hfollowed))
  rcases hes' with hfollowed | hes'
  · exact Or.inl (followed_append.mpr (Or.inr hfollowed))
  · refine Or.inr fun e he => ?_
    rcases List.mem_append.mp he with he | he
    · exact hes e he
    · exact hes' e he

/-- The loop ends, or follows a link first. -/
theorem crawlLoop_onward (remaining : Nat) (st : CrawlState) :
    Onward (crawlLoop lib host session remaining st) := by
  have hstop : ∀ {st : CrawlState}, Onward (pure st : Prog σ CrawlState) :=
    Offline.onward emitsOnly_pure
  cases remaining with
  | zero => exact hstop
  | succ remaining =>
    unfold crawlLoop
    split
    · exact hstop
    · split
      · exact hstop
      · rename_i next _ _
        -- whatever comes after the link was followed
        have hpage : Emits World.trace (crawlPage lib host session next) fun _ _ => True :=
          Emits.mono crawlPage_yields fun _ _ _ => trivial
        have haggregate : ∀ page aggregated,
            Emits World.trace (aggregatePage page aggregated : Prog σ (Option String))
              fun _ _ => True := fun _ _ => Emits.mono aggregatePage_yields fun _ _ _ => trivial
        refine emits_note_bind ?_
        refine Emits.mono (?_ : Emits World.trace _ fun _ _ => True) ?_
        · refine hpage.bind (fun _ _ _ => trivial) fun page _ _ => ?_
          refine (haggregate _ _).bind (fun _ _ _ => trivial) fun aggregated _ _ => ?_
          exact Emits.mono (crawlLoop_yields _ _) fun _ _ _ => trivial
        · exact fun _ _ _ => Or.inl (List.cons_ne_nil _ _)

theorem paginate_onward {formats : List (String × Json.Tree)} :
    Onward (paginate lib host session one formats) := by
  unfold paginate
  split
  · exact (crawlLoop_onward _ _).bind fun _ => Offline.onward emitsOnly_pure
  · exact Offline.onward emitsOnly_pure

/-- A fetch that sent its body once, and then nothing before a link was followed. -/
theorem SentOnce.onward (h : SentOnce url body es) {x : Prog σ α} (hx : Onward x) :
    Emits World.trace x fun _ es' => Followed (es ++ es') ∨ SentOnce url body (es ++ es') := by
  refine Emits.mono hx ?_
  rintro _ es' (hfollowed | hes')
  · exact Or.inl (followed_append.mpr (Or.inr hfollowed))
  · exact Or.inr (h.append_right (carriers_of_silent (transmissions_offline hes')))

/-- **The session**: without a policy to read, sitemaps to find and links to follow, page one is all
    that is asked for. -/
theorem scrapeSession_sends (hbody : body ≠ [])
    (hignore : session.options.robotsPolicy = .ignore) (hlinks : .links ∉ session.request.formats) :
    Emits World.trace (scrapeSession lib host session) fun _ es =>
      Followed es ∨ SentOnce session.request.url body es := by
  have hreset : EmitsOnly World.trace (fun _ => False)
      (update fun w => { w with hops := [] } : Prog σ Unit) := emitsOnly_of_log_eq fun _ => rfl
  have hfetch : Emits World.trace (fetchPage lib host session session.request.url)
      fun _ es => SentOnce session.request.url body es := by
    have hcheck : ∀ u, Offline (session.checkDocument lib host u) :=
      fun _ => checkDocument_offline hignore
    refine (fetchDocumentUntil_emits lib.toFetchLib host.net _ _ hcheck).mono ?_
    exact fun _ _ h => h.sentOnce (fun _ => transmissions_offline) hbody
  refine emits_silent_bind hreset (fun _ => Or.inr (sentOnce_of_nil rfl)) fun _ => ?_
  refine hfetch.bind (fun _ _ hes => Or.inr hes) fun fetched es hes => hes.onward ?_
  -- every stage after page one is offline, up to the first link that is followed
  refine (Offline.onward initialDecision_silent).bind fun robots => ?_
  refine (Offline.onward emitsOnly_ofResult).bind fun page => ?_
  refine (Offline.onward (sitemapUrls_offline hlinks)).bind fun sitemaps => ?_
  refine (Offline.onward emitsOnly_ofResult).bind fun runtime => ?_
  refine (Offline.onward (renderPageOne_offline hignore)).bind fun rendered => ?_
  refine (Offline.onward (emitsOnly_note rfl)).bind fun _ => ?_
  refine (Offline.onward (produceFormats_offline hignore _ _)).bind fun production => ?_
  refine paginate_onward.bind fun crawl => ?_
  refine (Offline.onward materialize_silent).bind fun formats => ?_
  refine (Offline.onward checkDeadline_silent).bind fun _ => ?_
  exact Offline.onward emitsOnly_ofResult

variable {env : Env} {rawUrl : String} {options : ScrapeOptions}

/-- The body of a scrape was sent at most once, and to the URL that was submitted. -/
structure BodySentOnce (lib : ScrapeLib) (rawUrl : String) (body : Bytes) (es : List Event) :
    Prop where
  once : (carriers body es).length ≤ 1
  target : ∀ request ∈ carriers body es, validateUrl lib.url rawUrl = .ok request.url
  origin : ∀ url, validateUrl lib.url rawUrl = .ok url → ∀ request ∈ carriers body es,
    sameOrigin request.url url = true

theorem SentOnce.bodySentOnce (h : SentOnce url body es)
    (hurl : validateUrl lib.url rawUrl = .ok url) : BodySentOnce lib rawUrl body es := by
  refine ⟨h.once, ?_, ?_⟩
  · intro request hmem
    rw [h.target request hmem]
    exact hurl
  · intro url' hurl' request hmem
    obtain rfl := Except.ok.inj (hurl.symm.trans hurl')
    rw [h.target request hmem]
    exact sameOrigin_self (validateUrl_host hurl)

theorem bodySentOnce_nil : BodySentOnce lib rawUrl body [] :=
  ⟨Nat.zero_le 1, fun _ hmem => absurd hmem List.not_mem_nil,
    fun _ _ _ hmem => absurd hmem List.not_mem_nil⟩

/-- **The scrape**, however it ends. -/
theorem scrape_sends (hbody : options.body ≠ []) (hignore : options.robotsPolicy = .ignore)
    (hlinks : .links ∉ effectiveFormats options.formats) :
    Emits World.trace (scrape lib host env rawUrl options) fun _ es =>
      Followed es ∨ BodySentOnce lib rawUrl options.body es := by
  refine emits_ofResult_bind (fun _ _ => Or.inr bodySentOnce_nil) fun plan hplan => ?_
  obtain ⟨hformats, hurl, -, -⟩ := planRequest_eq_ok hplan
  refine emits_silent_bind acquireSlot_silent (fun _ => Or.inr bodySentOnce_nil) fun _ => ?_
  refine Emits.releasing ?_ releaseSlot_trace
  refine emits_ofResult_bind (fun _ _ => Or.inr bodySentOnce_nil) fun browser _ => ?_
  refine emits_silent_bind acquireProfile_silent (fun _ => Or.inr bodySentOnce_nil) fun dir => ?_
  have hguarded : Emits World.trace (scrapeGuarded lib host env options plan browser dir)
      fun _ es => Followed es ∨ SentOnce plan.url options.body es := by
    refine emits_silent_bind startComposer_silent (fun _ => Or.inr (sentOnce_of_nil rfl)) ?_
    intro composer
    exact scrapeSession_sends hbody hignore (hformats ▸ hlinks)
  refine (hguarded.releasing wipeProfile_trace).bind ?_ ?_
  · rintro _ es (hfollowed | hsent)
    · exact Or.inl hfollowed
    · exact Or.inr (hsent.bodySentOnce hurl)
  · rintro proof es hes
    have hattest : EmitsOnly World.trace (fun _ => False)
        (attestIfAsked lib host options proof) := attestIfAsked_silent
    refine Emits.mono hattest ?_
    intro _ es' hes'
    obtain rfl : es' = [] := List.eq_nil_iff_forall_not_mem.mpr hes'
    rw [List.append_nil]
    rcases hes with hfollowed | hsent
    · exact Or.inl hfollowed
    · exact Or.inr (hsent.bodySentOnce hurl)

/-- **The body is sent once**, in every run, however it ends, that reads no robots policy, looks for
    no sitemaps and follows no next link. -/
theorem scrape_sends_body_once (lib : ScrapeLib) (host : Host σ) (env : Env) (rawUrl : String)
    (options : ScrapeOptions) (s : σ) (hbody : options.body ≠ [])
    (hignore : options.robotsPolicy = .ignore)
    (hlinks : .links ∉ effectiveFormats options.formats)
    (hstay : followedLinks (final (scrape lib host env rawUrl options ⟨s, [], []⟩)).trace = []) :
    BodySentOnce lib rawUrl options.body
      (final (scrape lib host env rawUrl options ⟨s, [], []⟩)).trace := by
  have hsends : Emits World.trace (scrape lib host env rawUrl options) fun _ es =>
      Followed es ∨ BodySentOnce lib rawUrl options.body es := scrape_sends hbody hignore hlinks
  obtain ⟨es, htrace, hes⟩ := hsends ⟨s, [], []⟩
  rw [show _ = es from htrace] at hstay ⊢
  exact hes.resolve_left fun hfollowed => hfollowed hstay

/-! ## Two posts -/

/-- A form that is posted. -/
def postOptions : ScrapeOptions :=
  { formats := [.rawHtml], method := "POST", body := utf8 "card=4111" }

/-- A policy that allows everything. -/
def robotsReply : Reply where
  statusCode := 200
  headers := [("content-type", utf8 "text/plain")]
  body := utf8 "User-agent: *\nAllow: /\n"
  bodyTruncated := false

/-- A post under the default policy. -/
def enforcedPost : EStateM.Result Error (World Script) ScrapeProof :=
  scriptedScrape postOptions ⟨[robotsReply, firstReply], []⟩

/-- A post that ignores the policy. -/
def ignoringPost : EStateM.Result Error (World Script) ScrapeProof :=
  scriptedScrape { postOptions with robotsPolicy := .ignore } ⟨[firstReply], []⟩

/-- The body went to the policy document first. -/
theorem enforcedPost_sends_twice :
    (carriers postOptions.body (final enforcedPost).trace).map (fun request => request.url.path) =
        ["/robots.txt", "/"] ∧
      ¬ BodySentOnce scriptedScrapeLib (shopUrl "/").toString postOptions.body
        (final enforcedPost).trace := by
  have hpaths : (carriers postOptions.body (final enforcedPost).trace).map
      (fun request => request.url.path) = ["/robots.txt", "/"] := by
    decide +kernel
  refine ⟨hpaths, ?_⟩
  intro hsent
  have hlength := congrArg List.length hpaths
  rw [List.length_map] at hlength
  have honce := hsent.once
  rw [hlength] at honce
  exact absurd honce (by decide)

/-- Without the policy it went to the page alone. -/
theorem ignoringPost_sends_once :
    (carriers postOptions.body (final ignoringPost).trace).length = 1 ∧
      BodySentOnce scriptedScrapeLib (shopUrl "/").toString postOptions.body
        (final ignoringPost).trace := by
  have hstay : followedLinks (final ignoringPost).trace = [] := by decide +kernel
  refine ⟨by decide +kernel, ?_⟩
  exact scrape_sends_body_once scriptedScrapeLib scriptedHost (fun _ => none)
    (shopUrl "/").toString { postOptions with robotsPolicy := .ignore } ⟨[firstReply], []⟩
    (by decide) rfl (by decide) hstay

end Basecrawl.Core
