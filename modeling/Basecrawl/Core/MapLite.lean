/-
  Map-lite: the links of one page and of the sitemaps of its site.

  1. **Program** — `mapSeed` scrapes the seed and takes its links into the inventory; `mapSitemaps`
     adds the sitemaps; `mapStages` goes into it when there is room and time left.
  2. **Specification** — `Contact.Proxied`: a connection that goes through the upstream.
  3. **Runs** — the scrape dials through the upstream its options resolve to, but the sitemap stage
     has a configuration of its own, which names none.  `mapLite_proxied_iff`: what a run keeps
     behind the upstream.
-/
import Basecrawl.Core.Contacts
import Basecrawl.Core.Crawl
import Basecrawl.Core.Links
import Basecrawl.Core.Path

namespace Basecrawl.Core

open Text Outcome Run

variable {σ : Type}

/-! ## Program -/

/-- Options for a map-lite run; the timeout belongs to the outside. -/
structure MapOptions where
  maxUrls : Nat := 100
  useSitemap : Bool := true
  sameOriginOnly : Bool := true
  scrape : ScrapeOptions :=
    { formats := [.links, .rawHtml], renderEnabled := false, followPagination := false }

/-- Map-lite inventory result. -/
structure MapResult where
  mode : String
  seed : String
  urls : List String
  fromSeedLinks : Nat
  fromSitemap : Nat
  residual : String
  maxUrls : Nat
  sitemapDiscovery : Option String

def mapLiteDescription : String :=
  "Map-lite inventory helper: same-origin link harvest and optional sitemap-first discovery. " ++
    "Not a guaranteed complete site graph or full search index."

def validateMaxUrls (maxUrls : Nat) : Except Error Unit := do
  require (maxUrls != 0) (.invalidProductOption "map --max-urls must be >= 1")
  require (maxUrls ≤ 50000)
    (.invalidProductOption "map --max-urls exceeds hard safety cap (50000)")

/-- The formats of the seed: its links or its source are among them. -/
def mapFormats (formats : List Format) : List Format :=
  if formats.isEmpty then [.links, .rawHtml]
  else if !formats.contains .links && !formats.contains .rawHtml then formats ++ [.links]
  else formats

/-- The options of the scrape of the seed. -/
def mapScrapeOptions (options : MapOptions) : ScrapeOptions :=
  { options.scrape with
    method := "GET"
    body := []
    formats := mapFormats options.scrape.formats
    renderEnabled := false
    followPagination := false }

/-- The inventory, in order, with what was seen and the number of links that were new. -/
structure Inventory where
  ordered : List String := []
  seen : List String := []
  added : Nat := 0

/-- `push_url`, counted. -/
def Inventory.pushUrl (inventory : Inventory) (max : Nat) (raw : String) : Inventory :=
  if inventory.ordered.length ≥ max then inventory
  else if inventory.seen.contains raw then inventory
  else
    { ordered := inventory.ordered ++ [raw]
      seen := raw :: inventory.seen
      added := inventory.added + 1 }

/-- `admit`. -/
def isAdmitted (lib : UrlLib) (raw : String) (seed : Url) (sameOriginOnly : Bool) : Bool :=
  match lib.parse raw with
  | .error _ => false
  | .ok url => isHttp url && (!sameOriginOnly || sameOrigin url seed)

/-- The admitted links go into the inventory. -/
def Inventory.admitAll (lib : UrlLib) (options : MapOptions) (seed : Url) (inventory : Inventory)
    (links : List String) : Inventory :=
  links.foldl (fun inventory link =>
    if isAdmitted lib link seed options.sameOriginOnly then inventory.pushUrl options.maxUrls link
    else inventory) { inventory with added := 0 }

/-- The links of the seed: from its links format, else from the source it keeps, against the URL
    that served it. -/
def seedLinks (lib : UrlLib) (parseDocument : String → HtmlDocument) (seed : Url)
    (proof : ScrapeProof) : List String :=
  let formats := proof.result.formatsProduced
  let text (name : String) : Option String := (formats.lookup name).bind Json.Tree.asStr
  if (formats.lookup "links").isSome then Crawl.listedLinks formats
  else
    match (text "rawHtml").or (text "html") with
    | some html =>
        let base := (lib.parse (proof.response.finalUrl.getD seed.toString)).toOption.getD seed
        (extract lib (parseDocument html) base).links
    | none => []

/-- The run after the scrape of the seed. -/
structure Seeded where
  seed : Url
  inventory : Inventory

/-- The seed and its links. -/
def mapSeed (lib : ScrapeLib) (parseDocument : String → HtmlDocument) (host : Host σ) (env : Env)
    (seed : String) (options : MapOptions) : Prog σ Seeded := do
  ofResult (validateMaxUrls options.maxUrls)
  let seedUrl ← ofResult (validateUrl lib.url seed)
  let proof ← scrape lib host env seedUrl.toString (mapScrapeOptions options)
  -- the seed itself comes first
  let first := Inventory.pushUrl {} options.maxUrls seedUrl.toString
  let links := seedLinks lib.url parseDocument seedUrl proof
  pure ⟨seedUrl, first.admitAll lib.url options seedUrl links⟩

/-- Whether the sitemaps are searched: they are asked for, and there is room and time left. -/
def Seeded.searches (seeded : Seeded) (options : MapOptions) (passed : Bool) : Bool :=
  options.useSitemap && seeded.inventory.ordered.length < options.maxUrls && !passed

/-- The configuration of the sitemap stage; the rest is `FetchConfig::default`. -/
def sitemapConfig (options : MapOptions) (seed : Url) : FetchConfig where
  userAgent := defaultUserAgent
  credentialOrigin := some seed
  headers := (mapScrapeOptions options).headers
  maxBodyBytes := (mapScrapeOptions options).maxBodyBytes

/-- What the sitemap stage adds, and the note about it. -/
structure Sitemaps where
  inventory : Inventory
  found : Nat := 0
  note : Option String := none

/-- What came of the search. -/
def Seeded.withSitemaps (lib : UrlLib) (options : MapOptions) (seeded : Seeded) :
    Except Error (List String) → Sitemaps
  | .ok urls =>
      let inventory := seeded.inventory.admitAll lib options seeded.seed urls
      { inventory := inventory
        found := inventory.added
        note := some
          (if urls.isEmpty then "sitemap discovery ran; no same-origin seeds found"
          else "sitemap discovery ran; " ++ Nat.repr urls.length ++ " candidate URL(s)") }
  -- best effort: no search fails a run
  | .error _ =>
      { inventory := seeded.inventory
        note := some "sitemap discovery unavailable; seed links only" }

/-- The sitemap stage. -/
def mapSitemaps (lib : ScrapeLib) (net : Network σ) (options : MapOptions) (seeded : Seeded) :
    Prog σ Sitemaps := do
  let found ← attempt (discoverSitemapUrls lib.toRobotsLib net seeded.seed
    (sitemapConfig options seeded.seed) [])
  pure (seeded.withSitemaps lib.url options found)

/-- The stages of a run: the seed, and the sitemaps when they are searched; `passed` says whether
    the deadline has passed. -/
def mapStages (seeding : Prog σ Seeded) (search : Seeded → Prog σ Sitemaps) (passed : σ → Bool)
    (options : MapOptions) : Prog σ MapResult := do
  let seeded ← seeding
  let late ← observe passed
  let sitemaps ←
    if seeded.searches options late then search seeded else pure { inventory := seeded.inventory }
  pure
    { mode := "map_lite"
      seed := seeded.seed.toString
      urls := sitemaps.inventory.ordered.take options.maxUrls
      fromSeedLinks := seeded.inventory.added
      fromSitemap := sitemaps.found
      residual := mapLiteDescription
      maxUrls := options.maxUrls
      sitemapDiscovery := sitemaps.note }

/-- `map_lite`. -/
def mapLite (lib : ScrapeLib) (parseDocument : String → HtmlDocument) (host : Host σ)
    (passed : σ → Bool) (env : Env) (seed : String) (options : MapOptions) : Prog σ MapResult :=
  mapStages (mapSeed lib parseDocument host env seed options)
    (mapSitemaps lib host.net options) passed options

/-! ## Specification -/

/-- The connection goes through an upstream: a stream that is dialed there, a browser that is given
    the composer of the upstream. -/
def Contact.Proxied : Contact → Prop
  | .page _ | .sent _ => True
  | .dialed proxy _ _ => proxy.isSome = true
  | .launched task => task.launch.sealedSocks.isSome = true

/-- What the scrape of the seed contacts: it dials through the upstream, but a browser is launched
    without the composer, and for a screenshot only. -/
def Contact.OfSeed (formats : List Format) : Contact → Prop
  | .page _ | .sent _ => True
  | .dialed proxy _ _ => proxy.isSome = true
  | .launched task => task.launch.sealedSocks = none ∧ .screenshot ∈ formats

/-- What the sitemap stage contacts: it dials directly, and launches nothing. -/
def Contact.OfSitemaps : Contact → Prop
  | .page _ | .sent _ => True
  | .dialed proxy _ _ => proxy = none
  | .launched _ => False

/-- Then everything goes through the upstream exactly when the one launches nothing and the other
    dials nothing. -/
theorem proxied_iff {formats : List Format} {seeds sitemaps : List Contact}
    (hseeds : ∀ c ∈ seeds, c.OfSeed formats) (hsitemaps : ∀ c ∈ sitemaps, c.OfSitemaps) :
    (∀ c ∈ seeds ++ sitemaps, c.Proxied) ↔
      (∀ task, .launched task ∉ seeds) ∧ ∀ proxy name port, .dialed proxy name port ∉ sitemaps := by
  constructor
  · intro hall
    constructor
    · intro task htask
      have hsome := hall _ (List.mem_append_left _ htask)
      have hnone : task.launch.sealedSocks = none := (hseeds _ htask).1
      rw [Contact.Proxied, hnone] at hsome
      cases hsome
    · intro proxy name port hdial
      have hsome := hall _ (List.mem_append_right _ hdial)
      have hnone : proxy = none := hsitemaps _ hdial
      rw [Contact.Proxied, hnone] at hsome
      cases hsome
  · rintro ⟨hlaunch, hdial⟩ c hc
    cases c with
    | page text => trivial
    | sent request => trivial
    | dialed proxy name port =>
      rcases List.mem_append.mp hc with hc | hc
      · exact hseeds _ hc
      · exact absurd hc (hdial proxy name port)
    | launched task =>
      rcases List.mem_append.mp hc with hc | hc
      · exact absurd hc (hlaunch task)
      · exact (hsitemaps _ hc).elim

/-! ## Traversal -/

section

variable {R : σ → σ → Prop} [IsPreorder σ R] {permit : Permit} {lib : ScrapeLib}
  {parseDocument : String → HtmlDocument} {host : Host σ} {env : Env} {raw : String}
  {options : MapOptions}

/-- The stage of the seed hands on the URL it was given. -/
theorem mapSeed_returns : Returns (mapSeed lib parseDocument host env raw options) fun seeded =>
    validateUrl lib.url raw = .ok seeded.seed := by
  unfold mapSeed
  refine returns_bind fun _ => returns_ofResult_bind fun seed hseed => ?_
  exact returns_bind fun proof => returns_pure hseed

/-- The stage of the seed does what its scrape does. -/
theorem mapSeed_moves (hhost : host.Within R permit)
    (hopened : ∀ (seed : Url) (session : Session), validateUrl lib.url raw = .ok seed →
      session.Opened lib env seed.toString (mapScrapeOptions options) →
      session.Permitted lib permit) :
    Moves World.outside R (mapSeed lib parseDocument host env raw options) := by
  refine moves_ofResult.bind fun _ => moves_ofResult_bind fun seed hseed => ?_
  exact (scrape_moves hhost fun session => hopened seed session hseed).bind fun _ => moves_pure

/-- The sitemap stage does what its fetches do. -/
theorem mapSitemaps_moves {net : Network σ} {seeded : Seeded} (hnet : net.Within R permit)
    (hconfig : (sitemapConfig options seeded.seed).Permitted permit seeded.seed) :
    Moves World.outside R (mapSitemaps lib net options seeded) :=
  (discoverSitemapUrls_moves hnet hconfig).attempt.bind fun _ => moves_pure

/-- A sitemap stage that is let through dials the host of the seed directly. -/
theorem mapSitemaps_dials {net : Network σ} {seeded : Seeded} {w : World (σ × List Contact)}
    (hseed : validateUrl lib.url raw = .ok seeded.seed)
    (hgrants : net.Grants lib.toFetchLib (defaultSitemapUrl seeded.seed) w.outside.1) :
    ∃ name port, Adds (.dialed none name port) (mapSitemaps lib net.recording options seeded)
      w := by
  obtain ⟨name, hhost⟩ := Option.isSome_iff_exists.mp (validateUrl_host hseed)
  have hsupplied : (sitemapConfig options seeded.seed).credentialOrigin = some seeded.seed := rfl
  obtain ⟨port, hdial⟩ := discoverSitemapUrls_dials (validateUrl_isHttp hseed) hhost hsupplied
    hgrants
  have hsearch : Adds (.dialed none name port) (attempt (discoverSitemapUrls lib.toRobotsLib
      net.recording seeded.seed (sitemapConfig options seeded.seed) [])) w := hdial
  exact ⟨name, port, hsearch.bind fun _ => moves_pure⟩

/-- A run does what its stages do. -/
theorem mapStages_moves {seeding : Prog σ Seeded} {search : Seeded → Prog σ Sitemaps}
    {passed : σ → Bool} (hseeding : Moves World.outside R seeding)
    (hsearch : ∀ seeded, Moves World.outside R (search seeded)) :
    Moves World.outside R (mapStages seeding search passed options) := by
  unfold mapStages
  refine hseeding.bind fun seeded => moves_observe.bind fun late => ?_
  split
  · exact (hsearch seeded).bind fun _ => moves_pure
  · exact moves_pure

end

/-! ## Runs -/

section

variable {lib : ScrapeLib} {env : Env} {raw : String} {options : MapOptions} {session : Session}

/-- No browser is planned for the seed, so no composer is started for it. -/
theorem mapSession_browser
    (hopened : session.Opened lib env raw (mapScrapeOptions options)) :
    session.browser.hardRequired = false ∧ session.browser.willUseBrowser = false := by
  have hrender : (mapScrapeOptions options).renderEnabled = false := rfl
  have hsoft : hardRequired (mapScrapeOptions options) session.request = false := by
    cases hhard : hardRequired (mapScrapeOptions options) session.request with
    | false => rfl
    | true =>
      have himpossible := (planBrowser_hard hopened.browser hhard).2.1
      rw [hrender] at himpossible
      cases himpossible
  refine ⟨(planBrowser_hardRequired hopened.browser).1.trans hsoft, ?_⟩
  have hplan := hopened.browser
  unfold planBrowser at hplan
  obtain ⟨_, -, hplan⟩ := bind_eq_ok.mp hplan
  obtain ⟨_, -, hplan⟩ := bind_eq_ok.mp hplan
  obtain ⟨launches, hlaunch, hplan⟩ := bind_eq_ok.mp hplan
  rw [← Except.ok.inj hplan]
  show launches = false
  unfold willUseBrowser at hlaunch
  split at hlaunch
  · exact (Except.ok.inj hlaunch).symm
  · -- a soft plan launches for rendering only, and rendering is off
    rw [hsoft, willLaunchChromium, if_neg Bool.false_ne_true] at hlaunch
    rw [← Except.ok.inj hlaunch]
    show ((mapScrapeOptions options).renderEnabled && _) = false
    rw [hrender, Bool.false_and]

/-- The formats of the seed are those that were asked for, and links or source. -/
theorem mem_mapFormats {formats : List Format} {format : Format}
    (h : format ∈ effectiveFormats (mapFormats formats)) :
    format ∈ formats ∨ format = .links ∨ format = .rawHtml := by
  have hmem : format ∈ mapFormats formats := by
    unfold effectiveFormats at h
    split at h
    · rename_i hempty
      unfold mapFormats at hempty
      split at hempty
      · cases hempty
      · split at hempty
        · simp at hempty
        · contradiction
    · exact mem_normalizeFormats.mp h
  unfold mapFormats at hmem
  split at hmem
  · exact Or.inr (by simpa using hmem)
  · split at hmem
    · rcases List.mem_append.mp hmem with hmem | hmem
      · exact Or.inl hmem
      · exact Or.inr (Or.inl (List.mem_singleton.mp hmem))
    · exact Or.inl hmem

/-- The seed launches a browser for a screenshot only. -/
theorem mapSession_launches {task : BrowserTask}
    (hopened : session.Opened lib env raw (mapScrapeOptions options))
    (hlaunch : session.Launches lib task) : .screenshot ∈ options.scrape.formats := by
  cases hlaunch with
  | render _ hrender =>
    rw [(mapSession_browser hopened).1, hopened.asked] at hrender
    rcases hrender with h | h
    · cases h
    · cases h
  | screenshot _ hformat =>
    rw [(planRequest_eq_ok hopened.request).1] at hformat
    rcases mem_mapFormats hformat with h | h | h
    · exact h
    · cases h
    · cases h

/-- The session of the seed. -/
theorem mapSession_permitted
    (hopened : session.Opened lib env raw (mapScrapeOptions options))
    (hproxy : session.request.proxy.isSome = true) :
    session.Permitted lib (Permit.of (Contact.OfSeed options.scrape.formats)) where
  config := FetchConfig.permitted_of rfl (fun _ _ => hproxy) fun _ _ => trivial
  launch := by
    have hcomposer : session.chromiumComposer = none := by
      rw [← Option.not_isSome_iff_eq_none, hopened.composer, (mapSession_browser hopened).2]
      exact Bool.false_ne_true
    intro task htask
    obtain ⟨hard, hlaunch⟩ := htask.launch_eq
    -- what the browser is launched with is the composer of the session
    refine ⟨?_, mapSession_launches hopened htask⟩
    rw [hlaunch]
    exact hcomposer

end

section

variable {lib : ScrapeLib} {parseDocument : String → HtmlDocument} {host : Host σ} {env : Env}
  {raw : String} {options : MapOptions} {seed : Url} {proxy : ProxyConfig}

/-- The scrape of the seed. -/
theorem mapSeed_proxied (hround : lib.url.Reparses) (hseed : validateUrl lib.url raw = .ok seed)
    (hproxy : resolveProxyPlan lib.proxy env (proxyPlan options.scrape) seed = .ok (some proxy)) :
    Moves World.outside (Extends Prod.snd (Contact.OfSeed options.scrape.formats))
      (mapSeed lib parseDocument host.recording env raw options) := by
  refine mapSeed_moves host.recording_within ?_
  intro seed' session hseed' hopened
  obtain rfl := Except.ok.inj (hseed.symm.trans hseed')
  obtain ⟨-, hurl, hplan, -⟩ := planRequest_eq_ok hopened.request
  rw [validateUrl_of_parses (validateUrl_parses hround hseed) hurl] at hplan
  have hsome : session.request.proxy = some proxy := Except.ok.inj (hplan.symm.trans hproxy)
  exact mapSession_permitted hopened (by rw [hsome]; rfl)

/-- The sitemap stage has no upstream. -/
theorem mapSitemaps_direct (seeded : Seeded) :
    Moves World.outside (Extends Prod.snd Contact.OfSitemaps)
      (mapSitemaps lib host.recording.net options seeded) :=
  mapSitemaps_moves host.recording_within.net
    (FetchConfig.permitted_of rfl (fun _ _ => rfl) fun _ _ => trivial)

end

/-- Whether the run goes into the sitemap stage. -/
def entersSitemaps (lib : ScrapeLib) (parseDocument : String → HtmlDocument) (host : Host σ)
    (passed : σ → Bool) (env : Env) (seed : String) (options : MapOptions) (w : World σ) : Prop :=
  ∃ seeded w', mapSeed lib parseDocument host env seed options w = .ok seeded w' ∧
    seeded.searches options (passed w'.outside) = true

/-- A run is that of the seed, and after it the sitemap stage when the run goes into it. -/
theorem mapLite_final (lib : ScrapeLib) (parseDocument : String → HtmlDocument) (host : Host σ)
    (passed : σ → Bool) (env : Env) (seed : String) (options : MapOptions) (w : World σ) :
    (¬ entersSitemaps lib parseDocument host passed env seed options w ∧
      final (mapLite lib parseDocument host passed env seed options w) =
        final (mapSeed lib parseDocument host env seed options w)) ∨
    ∃ seeded w', mapSeed lib parseDocument host env seed options w = .ok seeded w' ∧
      entersSitemaps lib parseDocument host passed env seed options w ∧
      final (mapLite lib parseDocument host passed env seed options w) =
        final (mapSitemaps lib host.net options seeded w') := by
  unfold mapLite mapStages entersSitemaps
  cases hrun : mapSeed lib parseDocument host env seed options w with
  | error e w' =>
    left
    rw [bind_of_error _ hrun]
    refine ⟨?_, rfl⟩
    rintro ⟨seeded, w'', h, -⟩
    cases h
  | ok seeded w' =>
    rw [bind_of_ok _ hrun,
      bind_of_ok _ (show observe passed w' = .ok (passed w'.outside) w' from rfl)]
    cases hsearch : seeded.searches options (passed w'.outside) with
    | true =>
      right
      refine ⟨seeded, w', rfl, ⟨seeded, w', rfl, hsearch⟩, ?_⟩
      rw [if_pos rfl, final_bind_pure]
    | false =>
      left
      refine ⟨?_, rfl⟩
      rintro ⟨seeded', w'', h, hsearch'⟩
      cases h
      rw [hsearch] at hsearch'
      cases hsearch'

/-- **Connections behind an upstream**: in every run whose options resolve to one, what the seed
    contacts comes before what the sitemap stage does.  All of it goes through the upstream exactly
    when the seed launches no browser and the sitemap stage dials nothing; without a screenshot
    there is no browser.  A run that does not go into the stage dials nothing in it, and one that
    does dials directly, as soon as the network lets it. -/
theorem mapLite_proxied_iff (lib : ScrapeLib) (hround : lib.url.Reparses)
    (parseDocument : String → HtmlDocument) (host : Host σ) (passed : σ → Bool) (env : Env)
    (raw : String) (options : MapOptions) (seed : Url)
    (hseed : validateUrl lib.url raw = .ok seed) (proxy : ProxyConfig)
    (hproxy : resolveProxyPlan lib.proxy env (proxyPlan options.scrape) seed = .ok (some proxy))
    (w : World (σ × List Contact)) :
    ∃ seeds sitemaps,
      (final (mapSeed lib parseDocument host.recording env raw options w)).outside.2 =
        w.outside.2 ++ seeds ∧
      (final (mapLite lib parseDocument host.recording (fun s => passed s.1) env raw options
        w)).outside.2 = w.outside.2 ++ (seeds ++ sitemaps) ∧
      ((∀ c ∈ seeds ++ sitemaps, c.Proxied) ↔
        (∀ task, .launched task ∉ seeds) ∧ ∀ proxy name port, .dialed proxy name port ∉ sitemaps) ∧
      (.screenshot ∉ options.scrape.formats → ∀ task, .launched task ∉ seeds) ∧
      (¬ entersSitemaps lib parseDocument host.recording (fun s => passed s.1) env raw options w →
        sitemaps = []) ∧
      ∀ seeded w', mapSeed lib parseDocument host.recording env raw options w = .ok seeded w' →
        seeded.searches options (passed w'.outside.1) = true →
        host.net.Grants lib.toFetchLib (defaultSitemapUrl seed) w'.outside.1 →
        ∃ name port, .dialed none name port ∈ sitemaps := by
  obtain ⟨seeds, hcontacts, hseeds⟩ := mapSeed_proxied hround hseed hproxy w
  have hquiet : .screenshot ∉ options.scrape.formats → ∀ task, .launched task ∉ seeds :=
    fun hformat task htask => hformat (hseeds _ htask).2
  rcases mapLite_final lib parseDocument host.recording (fun s => passed s.1) env raw options w with
    ⟨hskips, hfinal⟩ | ⟨seeded, w', hrun, henters, hfinal⟩
  · refine ⟨seeds, [], hcontacts, ?_, proxied_iff hseeds (by simp), hquiet, fun _ => rfl, ?_⟩
    · rw [hfinal, List.append_nil]
      exact hcontacts
    · intro seeded w' hrun hsearch
      exact absurd ⟨seeded, w', hrun, hsearch⟩ hskips
  · obtain ⟨sitemaps, hcontacts', hsitemaps⟩ := mapSitemaps_direct seeded w'
    refine ⟨seeds, sitemaps, hcontacts, ?_, proxied_iff hseeds hsitemaps, hquiet,
      fun h => absurd henters h, ?_⟩
    · -- the stage goes on where the seed left off
      rw [hrun] at hcontacts
      rw [hfinal, hcontacts', ← List.append_assoc]
      exact congrArg (· ++ sitemaps) hcontacts
    · intro seeded' w'' hrun' _ hgrants
      obtain ⟨rfl, rfl⟩ := EStateM.Result.ok.inj (hrun.symm.trans hrun')
      have hown : validateUrl lib.url raw = .ok seeded.seed := mapSeed_returns w seeded w' hrun
      obtain rfl := Except.ok.inj (hseed.symm.trans hown)
      obtain ⟨name, port, contacts, hadded, hdial⟩ := mapSitemaps_dials hown hgrants
      obtain rfl : contacts = sitemaps :=
        List.append_cancel_left (hadded.symm.trans hcontacts')
      exact ⟨name, port, hdial⟩

/-! ## An inventory of the shop -/

def mapShop : ScrapeLib :=
  { scriptedScrapeLib with
    url := UrlLib.ofTable [shopUrl "/"] []
    proxy :=
      { parse := fun raw => .ok { endpoint := raw }
        applyUsernameTemplate := fun _ config => .ok config } }

theorem mapShop_reparses : mapShop.url.Reparses := UrlLib.ofTable_reparses _ _

/-- An inventory behind an upstream. -/
def proxiedMap : MapOptions where
  scrape := { sourceOptions with proxy := some "http://proxy.test:3128" }

/-- The upstream. -/
def shopProxy : ProxyConfig where
  endpoint := "http://proxy.test:3128"
  proxyClass := some (proxyPlan proxiedMap.scrape).upstreamClass

/-- A page and a sitemap, and nothing on the list. -/
def mapWorld : World (Script × List Contact) :=
  ⟨(⟨[htmlReply "one", htmlReply ""], []⟩, []), [], []⟩

/-- What an inventory of the shop contacts. -/
def shopMap (options : MapOptions) : List Contact :=
  (final (mapLite mapShop (fun _ => []) scriptedHost.recording (fun _ => false) (fun _ => none)
    (shopUrl "/").toString options mapWorld)).outside.2

/-- The upstreams of the streams of a list. -/
def upstreams (contacts : List Contact) : List (Option String) :=
  contacts.filterMap fun
    | .dialed proxy _ _ => some (proxy.map ProxyConfig.endpoint)
    | _ => none

theorem mapShop_seed : validateUrl mapShop.url (shopUrl "/").toString = .ok (shopUrl "/") := rfl

theorem mapShop_proxy :
    resolveProxyPlan mapShop.proxy (fun _ => none) (proxyPlan proxiedMap.scrape) (shopUrl "/") =
      .ok (some shopProxy) := rfl

/-- The page is dialed through the upstream, and the sitemap is dialed directly. -/
theorem mapLite_dials_directly :
    ¬ ∀ (lib : ScrapeLib), lib.url.Reparses → ∀ (parseDocument : String → HtmlDocument)
      (host : Host Script) (passed : Script → Bool) (env : Env) (raw : String)
      (options : MapOptions) (seed : Url), validateUrl lib.url raw = .ok seed →
      ∀ proxy : ProxyConfig,
      resolveProxyPlan lib.proxy env (proxyPlan options.scrape) seed = .ok (some proxy) →
      ∀ (w : World (Script × List Contact)) contacts,
      (final (mapLite lib parseDocument host.recording (fun s => passed s.1) env raw options
        w)).outside.2 = w.outside.2 ++ contacts →
      ∀ c ∈ contacts, c.Proxied := by
  intro hclaim
  have hproxied := hclaim mapShop mapShop_reparses (fun _ => []) scriptedHost (fun _ => false)
    (fun _ => none) _ proxiedMap (shopUrl "/") mapShop_seed shopProxy mapShop_proxy mapWorld
    (shopMap proxiedMap) (List.nil_append _).symm
  have hdials : upstreams (shopMap proxiedMap) = [some "http://proxy.test:3128", none] := by
    decide +kernel
  have hdirect : none ∈ upstreams (shopMap proxiedMap) := by
    rw [hdials]
    exact List.mem_cons_of_mem _ List.mem_cons_self
  obtain ⟨c, hc, hupstream⟩ := List.mem_filterMap.mp hdirect
  cases c with
  | page text => cases hupstream
  | sent request => cases hupstream
  | launched task => cases hupstream
  | dialed proxy name port =>
    cases proxy with
    | some proxy => cases hupstream
    | none => cases hproxied _ hc

/-- Without the sitemap everything goes through the upstream. -/
theorem mapLite_proxied_sourced : ∃ contacts,
    shopMap { proxiedMap with useSitemap := false } = contacts ∧ ∀ c ∈ contacts, c.Proxied := by
  obtain ⟨seeds, sitemaps, -, hcontacts, hiff, hquiet, hskips, -⟩ :=
    mapLite_proxied_iff mapShop mapShop_reparses (fun _ => []) scriptedHost (fun _ => false)
      (fun _ => none) (shopUrl "/").toString { proxiedMap with useSitemap := false } (shopUrl "/")
      mapShop_seed shopProxy mapShop_proxy mapWorld
  have hsitemaps : sitemaps = [] := by
    refine hskips ?_
    rintro ⟨seeded, w, -, hsearch⟩
    cases hsearch
  refine ⟨seeds ++ sitemaps, hcontacts, hiff.mpr ⟨hquiet (by decide), ?_⟩⟩
  rw [hsitemaps]
  exact fun _ _ _ => List.not_mem_nil

end Basecrawl.Core
