/-
  What the stages of a scrape log.

  `Logged` sums up a log: whether Chromium was launched, which documents were fetched, which pages
  went into the result.  Each stage that succeeds gets one lemma that says how it adds to the sum,
  and `scrape_yields` puts them together.
-/
import Basecrawl.Core.Scrape

namespace Basecrawl.Core

open Text Outcome Run

/-! ## Reading the log -/

/-- The launches of a log. -/
def launches (es : List Event) : List Launch :=
  es.filterMap fun
    | .launch kind => some kind
    | _ => none

/-- The documents of a log. -/
def documents (es : List Event) : List Document :=
  es.filterMap fun
    | .document document => some document
    | _ => none

/-- The pages of a log. -/
def surfacedPages (es : List Event) : List Page :=
  es.filterMap fun
    | .surfaced page => some page
    | _ => none

/-- The sum of a log. -/
structure Logged (es : List Event) (launched : Prop) (docs : List Document) (pages : List Page) :
    Prop where
  launches : launches es ≠ [] ↔ launched
  documents : documents es = docs
  surfacedPages : surfacedPages es = pages

variable {es es' : List Event} {launched launched' : Prop} {docs docs' : List Document}
  {pages pages' : List Page}

theorem Logged.append (h : Logged es launched docs pages) (h' : Logged es' launched' docs' pages') :
    Logged (es ++ es') (launched ∨ launched') (docs ++ docs') (pages ++ pages') := by
  refine ⟨?_, ?_, ?_⟩
  · rw [← h.launches, ← h'.launches, Core.launches, Core.launches, Core.launches,
      List.filterMap_append, Ne, List.append_eq_nil_iff, Classical.not_and_iff_not_or_not]
  · rw [← h.documents, ← h'.documents, Core.documents, Core.documents, Core.documents,
      List.filterMap_append]
  · rw [← h.surfacedPages, ← h'.surfacedPages, Core.surfacedPages, Core.surfacedPages,
      Core.surfacedPages, List.filterMap_append]

theorem Logged.congr (h : Logged es launched docs pages) (hiff : launched ↔ launched') :
    Logged es launched' docs pages :=
  ⟨h.launches.trans hiff, h.documents, h.surfacedPages⟩

theorem logged_nil : Logged [] False [] [] := ⟨by simp [launches], rfl, rfl⟩

theorem logged_launch (kind : Launch) : Logged [.launch kind] True [] [] :=
  ⟨by simp [launches], rfl, rfl⟩

theorem logged_document (document : Document) : Logged [.document document] False [document] [] :=
  ⟨by simp [launches], rfl, rfl⟩

theorem logged_surfaced (page : Page) : Logged [.surfaced page] False [] [page] :=
  ⟨by simp [launches], rfl, rfl⟩

theorem logged_followed (next : Url) : Logged [.followed next] False [] [] :=
  ⟨by simp [launches], rfl, rfl⟩

/-- Fetches do not count. -/
theorem logged_wire : ∀ {es : List Event}, (∀ e ∈ es, e.isWire = true) → Logged es False [] []
  | [], _ => logged_nil
  | e :: es, h => by
      have hrest : Logged es False [] [] :=
        logged_wire fun e' he => h e' (List.mem_cons_of_mem _ he)
      have hwire := h e List.mem_cons_self
      have hone : Logged [e] False [] [] := by
        cases e with
        | approved url => exact ⟨by simp [launches], rfl, rfl⟩
        | transmit request => exact ⟨by simp [launches], rfl, rfl⟩
        | served hop => exact ⟨by simp [launches], rfl, rfl⟩
        | document document => cases hwire
        | followed next => cases hwire
        | launch kind => cases hwire
        | surfaced page => cases hwire
      exact (hone.append hrest).congr (or_self_iff)

variable {σ α : Type} {lib : ScrapeLib} {host : Host σ} {session : Session}

/-! ## Page one -/

theorem checkDocument_wire {u : Url} : Wire (session.checkDocument lib host u) :=
  DocumentPolicy.check_wire

theorem fetchPage_wire {url : Url} : Wire (fetchPage lib host session url) :=
  fetchDocumentUntil_wire fun _ => checkDocument_wire

/-- A launch, and the fetches of its policy checks. -/
theorem driveBrowser_logged {url : Url} {task : BrowserTask} :
    Yields World.trace (driveBrowser host.browser (session.checkDocument lib host) url task)
      fun _ es => Logged es True [] [] := by
  refine Emits.mono (driveBrowser_emits (fun _ => checkDocument_wire) url task) ?_
  rintro r es ⟨rest, rfl, hrest⟩ html -
  exact ((logged_launch task.kind).append (logged_wire hrest)).congr (by simp)

theorem renderPage_logged {hard : Bool} {base : Url} {actions : List Action} :
    Yields World.trace (renderPage lib host session hard base actions)
      fun _ es => Logged es True [] [] := by
  refine driveBrowser_logged.bind fun html es hes => ?_
  refine yields_pure ?_
  rw [List.append_nil]
  exact hes

theorem initialDecision_silent {p : Event → Prop} :
    EmitsOnly World.trace p (initialDecision : Prog σ RobotsDecision) := by
  refine emitsOnly_of_log_eq fun w => ?_
  unfold initialDecision
  split
  · rfl
  · rfl

theorem sitemapUrls_wire {robots : RobotsDecision} :
    Wire (sitemapUrls lib host session robots) := by
  unfold sitemapUrls
  split
  · exact discoverSitemapUrls_wire
  · exact emitsOnly_pure

/-- HTML that had to be refused comes with a token. -/
def Cleared (session : Session) (statusCode : Nat) (tokenApplied : Bool) (html : String) : Prop :=
  session.isBlocked html statusCode = true → tokenApplied = true

variable {runtime : Option CaptchaSolverRuntime} {page : ServedPage}

theorem solvePage_silent {p : Event → Prop} {html detail : String} :
    EmitsOnly World.trace p (solvePage host runtime page html detail) :=
  tryOptionalChallengeSolve_emitsOnly

/-- Without a token the served body was no challenge. -/
theorem solveServed_yields :
    Yields World.trace (solveServed host session runtime page) fun pending es =>
      es = [] ∧ Cleared session page.statusCode pending.isSome page.body := by
  unfold solveServed
  by_cases hblocked : session.isBlocked page.body page.statusCode = true
  · rw [if_pos hblocked]
    refine yields_silent_bind solvePage_silent fun solution => ?_
    exact yields_pure ⟨rfl, fun _ => rfl⟩
  · rw [if_neg hblocked]
    exact yields_pure ⟨rfl, fun h => absurd h hblocked⟩

theorem solveRendered_yields {html : String} :
    Yields World.trace (solveRendered lib host session runtime page html) fun rendered es =>
      rendered.html.isSome = true ∧ rendered.tokenApplied = true ∧ Logged es True [] [] := by
  unfold solveRendered
  refine yields_silent_bind solvePage_silent fun solution => ?_
  refine yields_ofResult_bind fun actions _ => ?_
  refine renderPage_logged.bind fun again es hes => ?_
  refine yields_ofResult_bind fun _ _ => ?_
  refine yields_pure ⟨rfl, rfl, ?_⟩
  rw [List.append_nil]
  exact hes

/-- What a first render is settled to is cleared, and a token stays with it. -/
theorem settleRendered_yields {html : String} (pending : Option SolveSolution) :
    Yields World.trace (settleRendered lib host session runtime page html pending)
      fun rendered es =>
        rendered.html.isSome = true ∧
        (pending.isSome = true → rendered.tokenApplied = true) ∧
        (∀ source, rendered.html = some source →
          Cleared session page.statusCode rendered.tokenApplied source) ∧
        ∃ launched, Logged es launched [] [] := by
  cases pending with
  | some solution =>
    refine yields_ofResult_bind fun _ _ => ?_
    exact yields_pure ⟨rfl, fun _ => rfl, fun _ _ _ => rfl, False, logged_nil⟩
  | none =>
    unfold settleRendered
    by_cases hblocked : session.isBlocked html page.statusCode = true
    · rw [if_pos hblocked]
      refine solveRendered_yields.mono ?_
      rintro rendered es ⟨hhtml, htoken, hlogged⟩
      exact ⟨hhtml, fun _ => htoken, fun _ _ _ => htoken, True, hlogged⟩
    · rw [if_neg hblocked]
      refine yields_pure ⟨rfl, fun h => Bool.noConfusion h, ?_, False, logged_nil⟩
      intro source hsource hrefused
      obtain rfl := Option.some.inj hsource
      exact absurd hrefused hblocked

/-- **Page one**: it is rendered exactly when it is to be, and neither its served nor its rendered
    HTML is a challenge without a token. -/
theorem renderPageOne_yields :
    Yields World.trace (renderPageOne lib host session runtime page) fun rendered es =>
      Logged es (shouldRenderHtml session page = true) [] [] ∧
      rendered.html.isSome = shouldRenderHtml session page ∧
      ∀ source, source = page.body ∨ rendered.html = some source →
        Cleared session page.statusCode rendered.tokenApplied source := by
  unfold renderPageOne
  refine solveServed_yields.bind ?_
  rintro pending _ ⟨rfl, hserved⟩
  refine yields_ofResult_bind fun actions _ => ?_
  by_cases hrender : shouldRenderHtml session page = true
  · rw [if_pos hrender, hrender]
    refine renderPage_logged.bind fun html es hes => ?_
    refine (settleRendered_yields pending).mono ?_
    rintro rendered es' ⟨hhtml, hkeep, hcleared, launched, hes'⟩
    refine ⟨?_, hhtml, ?_⟩
    · exact (hes.append hes').congr (by simp)
    · rintro source (rfl | hsource)
      · exact fun hrefused => hkeep (hserved hrefused)
      · exact hcleared source hsource
  · rw [if_neg hrender]
    refine yields_ofResult fun rendered hrefuse => ?_
    obtain ⟨_, hclear, hrefuse⟩ := bind_eq_ok.mp hrefuse
    obtain rfl := Except.ok.inj hrefuse
    refine ⟨logged_nil.congr (by simp [hrender]), ?_, ?_⟩
    · exact (Bool.eq_false_iff.mpr hrender).symm
    · rintro source (rfl | hsource)
      · intro hrefused
        simp [hrefused] at hclear
      · cases hsource

/-! ## Formats -/

variable {fetched : Fetched} {one : PageOne}

/-- A page of the log that shows page one. -/
structure PageOne.Shows (one : PageOne) (page : Page) : Prop where
  statusCode : page.statusCode = one.page.statusCode
  tokenApplied : page.tokenApplied = one.rendered.tokenApplied
  html : page.html = one.page.body ∨ one.rendered.html = some page.html

/-- A producer that shows page one, any number of times, and launches nothing. -/
abbrev ShowsOnly (one : PageOne) (x : Prog σ α) : Prop :=
  Yields World.trace x fun _ es => ∃ pages, Logged es False [] pages ∧ ∀ p ∈ pages, one.Shows p

theorem showsOnly_pure {a : α} : ShowsOnly one (pure a : Prog σ α) :=
  yields_pure ⟨[], logged_nil, fun _ h => absurd h List.not_mem_nil⟩

/-- Showing HTML of page one. -/
theorem surface_shows {html : String}
    (hhtml : html = one.page.body ∨ one.rendered.html = some html) :
    ShowsOnly one (one.surface html : Prog σ Unit) := by
  refine fun w => ⟨_, rfl, fun _ _ => ⟨_, logged_surfaced _, ?_⟩⟩
  intro p hp
  obtain rfl := List.mem_singleton.mp hp
  exact ⟨rfl, rfl, hhtml⟩

/-- Showing, then a value. -/
theorem ShowsOnly.bind_pure {x : Prog σ α} (hx : ShowsOnly one x) {β : Type} {f : α → β} :
    ShowsOnly one (x >>= fun a => pure (f a)) := by
  refine Yields.bind hx fun a es hes => yields_pure ?_
  rw [List.append_nil]
  exact hes

theorem surfaceHtml_shows : ShowsOnly one (one.surfaceHtml : Prog σ Unit) := by
  unfold PageOne.surfaceHtml
  split
  · exact surface_shows (Or.inl rfl)
  · exact showsOnly_pure

theorem textSurface_shows : ShowsOnly one (textSurface one : Prog σ Json.Tree) := by
  unfold textSurface
  split
  · exact showsOnly_pure
  · exact showsOnly_pure
  · exact (surface_shows (Or.inl rfl)).bind_pure
  · exact (surface_shows (Or.inl rfl)).bind_pure

theorem domSurface_shows (convert : String → String) :
    ShowsOnly one (domSurface one convert : Prog σ Json.Tree) := by
  unfold domSurface
  have hsource : one.rendered.html.getD one.page.body = one.page.body ∨
      one.rendered.html = some (one.rendered.html.getD one.page.body) := by
    cases one.rendered.html with
    | none => exact Or.inl rfl
    | some html => exact Or.inr rfl
  split
  · exact (surface_shows hsource).bind_pure
  · exact showsOnly_pure
  · exact textSurface_shows
  · exact textSurface_shows

/-- One format shows page one; only a screenshot launches Chromium. -/
theorem produceFormat_yields (format : Format) :
    Yields World.trace (produceFormat lib host session fetched one format) fun _ es =>
      ∃ pages, Logged es (format = .screenshot) [] pages ∧ ∀ p ∈ pages, one.Shows p := by
  have hquiet : ∀ {x : Prog σ Json.Tree}, format ≠ .screenshot → ShowsOnly one x →
      Yields World.trace x fun _ es =>
        ∃ pages, Logged es (format = .screenshot) [] pages ∧ ∀ p ∈ pages, one.Shows p := by
    intro x hformat hx
    refine Yields.mono hx ?_
    rintro _ es ⟨pages, hes, hpages⟩
    exact ⟨pages, hes.congr (by simp [hformat]), hpages⟩
  cases format with
  | rawHtml => exact hquiet (by decide) textSurface_shows
  | markdown =>
    show Yields _ (domSurface one fun source => lib.toMarkdown source one.page.base) _
    exact hquiet (by decide) (domSurface_shows _)
  | html =>
    show Yields _ (domSurface one id) _
    exact hquiet (by decide) (domSurface_shows _)
  | links => exact hquiet (by decide) surfaceHtml_shows.bind_pure
  | metadata => exact hquiet (by decide) surfaceHtml_shows.bind_pure
  | json => exact hquiet (by decide) showsOnly_pure
  | screenshot =>
    refine driveBrowser_logged.bind fun image es hes => yields_pure ?_
    rw [List.append_nil]
    exact ⟨[], hes.congr (by simp), fun _ h => absurd h List.not_mem_nil⟩

/-- **Formats**: they show page one, and a screenshot is the only one that uses Chromium. -/
theorem produceFormats_yields : ∀ (formats : List Format) (production : Production),
    Yields World.trace (produceFormats lib host session fetched one formats production)
      fun produced es =>
        (produced.chromiumUsed = true ↔ production.chromiumUsed = true ∨ .screenshot ∈ formats) ∧
        ∃ pages, Logged es (.screenshot ∈ formats) [] pages ∧ ∀ p ∈ pages, one.Shows p
  | [], production =>
      yields_pure ⟨by simp, [], logged_nil.congr (by simp), fun _ h => absurd h List.not_mem_nil⟩
  | format :: formats, production => by
      refine (produceFormat_yields format).bind ?_
      rintro value es ⟨pages, hes, hpages⟩
      refine (produceFormats_yields formats (production.add format value)).mono ?_
      rintro produced es' ⟨hused, pages', hes', hpages'⟩
      refine ⟨?_, pages ++ pages', (hes.append hes').congr ?_, ?_⟩
      · rw [hused, Production.add, Bool.or_eq_true, beq_iff_eq, List.mem_cons, or_assoc,
          eq_comm (a := format)]
      · rw [List.mem_cons, eq_comm (a := format)]
      · intro p hp
        rcases List.mem_append.mp hp with hp | hp
        · exact hpages p hp
        · exact hpages' p hp

/-- Text and DOM surfaces are strings. -/
theorem textSurface_string :
    Yields World.trace (textSurface one : Prog σ Json.Tree) fun value _ =>
      ∃ text, value = .string text := by
  unfold textSurface
  split
  · exact yields_pure ⟨_, rfl⟩
  · exact yields_pure ⟨_, rfl⟩
  · exact (surface_shows (Or.inl rfl)).bind fun _ _ _ => yields_pure ⟨_, rfl⟩
  · exact (surface_shows (Or.inl rfl)).bind fun _ _ _ => yields_pure ⟨_, rfl⟩

theorem domSurface_string {convert : String → String} :
    Yields World.trace (domSurface one convert : Prog σ Json.Tree) fun value _ =>
      ∃ text, value = .string text := by
  unfold domSurface
  split
  · exact fun w => ⟨_, rfl, fun _ h => ⟨_, (Except.ok.inj h).symm⟩⟩
  · exact yields_pure ⟨_, rfl⟩
  · exact textSurface_string
  · exact textSurface_string

/-- There is markdown to add to. -/
def HasMarkdown (formats : List (String × Json.Tree)) : Prop :=
  ∃ text, formats.lookup Format.markdown.asStr = some (.string text)

/-- Markdown that is asked for is produced, and no other format takes it away. -/
theorem produceFormats_markdown : ∀ (formats : List Format) (production : Production),
    .markdown ∈ formats ∨ HasMarkdown production.formats →
      Yields World.trace (produceFormats lib host session fetched one formats production)
        fun produced _ => HasMarkdown produced.formats
  | [], production, h => yields_pure (h.resolve_left List.not_mem_nil)
  | format :: formats, production, h => by
      by_cases hformat : format = .markdown
      · rw [hformat]
        have hstring : Yields World.trace (produceFormat lib host session fetched one .markdown)
            fun value _ => ∃ text, value = .string text := by
          show Yields _ (domSurface one fun source => lib.toMarkdown source one.page.base) _
          exact domSurface_string
        refine hstring.bind ?_
        rintro _ _ ⟨text, rfl⟩
        refine produceFormats_markdown formats _ (Or.inr ⟨text, ?_⟩)
        exact Json.lookup_insertMember _ _ _
      · refine (produceFormat_yields format).bind fun value _ _ => ?_
        refine produceFormats_markdown formats _ ?_
        rcases h with hmem | ⟨text, htext⟩
        · exact Or.inl ((List.mem_cons.mp hmem).resolve_left fun heq => hformat heq.symm)
        · have hname : Format.markdown.asStr ≠ format.asStr :=
            fun heq => hformat (Format.asStr_inj.mp heq).symm
          refine Or.inr ⟨text, ?_⟩
          rw [← htext]
          exact Json.lookup_insertMember_of_ne _ hname _

theorem produceFormats_hasMarkdown {formats : List Format} (production : Production) :
    Yields World.trace (produceFormats lib host session fetched one formats production)
      fun produced _ => .markdown ∈ formats → HasMarkdown produced.formats := by
  by_cases hmarkdown : .markdown ∈ formats
  · exact (produceFormats_markdown _ _ (Or.inl hmarkdown)).mono fun _ _ h _ => h
  · exact (produceFormats_yields _ _).mono fun _ _ _ h => absurd h hmarkdown

/-! ## Pagination -/

/-- One pagination page: its document, and a launch exactly when the document is to be rendered. -/
theorem crawlPage_yields {url : Url} :
    Yields World.trace (crawlPage lib host session url) fun crawled es =>
      ∃ document, Logged es (shouldRenderCrawled session.options document = true) [document] [] ∧
        crawled.html = document.source ∧ crawled.statusCode = document.statusCode := by
  refine fetchPage_wire.yields.bind fun fetched es hes => ?_
  refine yields_ofResult_bind fun _ _ => ?_
  let served := crawledDocument lib session fetched
  have hsource : Yields World.trace
      (crawlSource lib host session (pageBase lib url fetched) served)
      fun _ es => Logged es (shouldRenderCrawled session.options served = true) [] [] := by
    unfold crawlSource
    by_cases hrender : shouldRenderCrawled session.options served = true
    · rw [if_pos hrender]
      exact renderPage_logged.mono fun _ es hes => hes.congr (by simp [hrender])
    · rw [if_neg hrender]
      exact yields_pure (logged_nil.congr (by simp [hrender]))
  refine hsource.bind fun source es' hes' => ?_
  let document : Document := { served with source := source }
  have hnote : Yields World.trace (note (.document document) : Prog σ Unit) fun _ es =>
      es = [.document document] := fun w => ⟨_, rfl, fun _ _ => rfl⟩
  refine hnote.bind ?_
  rintro _ _ rfl
  refine yields_pure ⟨document, ?_, rfl, rfl⟩
  rw [List.append_nil]
  have hlogged := (logged_wire hes).append (hes'.append (logged_document document))
  refine hlogged.congr ?_
  rw [false_or, or_false]
  exact Iff.rfl

/-- The page a document is shown as when pagination adds it: as it came, without a token. -/
def Document.shown (document : Document) : Page where
  html := document.source
  statusCode := document.statusCode
  tokenApplied := false

/-- The pages pagination shows: all of them when there is an aggregate, else none. -/
def shownAs (aggregated : Option String) (docs : List Document) : List Page :=
  if aggregated.isSome then docs.map Document.shown else []

/-- A page joins the aggregate, and leaves one exactly where there was one. -/
theorem aggregatePage_yields {crawled : CrawledPage} {aggregated : Option String} :
    Yields World.trace (aggregatePage crawled aggregated : Prog σ (Option String))
      fun aggregated' es => aggregated'.isSome = aggregated.isSome ∧
        ∀ document : Document, crawled.html = document.source →
          crawled.statusCode = document.statusCode →
            Logged es False [] (shownAs aggregated [document]) := by
  cases aggregated with
  | none => exact yields_pure ⟨rfl, fun _ _ _ => logged_nil⟩
  | some text =>
    refine fun w => ⟨_, rfl, fun _ h => ?_⟩
    obtain rfl := Except.ok.inj h
    refine ⟨rfl, ?_⟩
    intro document hhtml hstatus
    show Logged _ False [] [document.shown]
    rw [Document.shown, ← hhtml, ← hstatus]
    exact logged_surfaced _

theorem shownAs_cons {aggregated aggregated' : Option String} {document : Document}
    {docs : List Document} (h : aggregated'.isSome = aggregated.isSome) :
    shownAs aggregated [document] ++ shownAs aggregated' docs =
      shownAs aggregated (document :: docs) := by
  unfold shownAs
  rw [h]
  split
  · rfl
  · rfl

/-- Some of the documents are to be rendered as pagination pages. -/
def RendersSome (options : ScrapeOptions) (docs : List Document) : Prop :=
  ∃ document ∈ docs, shouldRenderCrawled options document = true

/-- **Pagination**: every page beyond the first logs its document; Chromium is launched exactly for
    those to be rendered; and an aggregate shows them all. -/
theorem crawlLoop_yields : ∀ (remaining : Nat) (st : CrawlState),
    Yields World.trace (crawlLoop lib host session remaining st) fun _ es =>
      ∃ docs, Logged es (RendersSome session.options docs) docs
        (shownAs st.aggregatedMarkdown docs) := by
  have hstop : ∀ {st : CrawlState}, Yields World.trace (pure st : Prog σ CrawlState) fun _ es =>
      ∃ docs, Logged es (RendersSome session.options docs) docs
        (shownAs st.aggregatedMarkdown docs) := by
    intro st
    have hnone : shownAs st.aggregatedMarkdown [] = [] := ite_self _
    refine yields_pure ⟨[], ?_⟩
    rw [hnone]
    exact logged_nil.congr (by simp [RendersSome])
  intro remaining
  -- on the pages that may still be crawled; that there is an aggregate never changes
  induction remaining with
  | zero => exact fun st => hstop
  | succ remaining ih =>
    intro st
    unfold crawlLoop
    split
    · exact hstop
    · split
      · exact hstop
      · rename_i next _ _
        have hnote : Yields World.trace (note (.followed next) : Prog σ Unit) fun _ es =>
            es = [.followed next] := fun w => ⟨_, rfl, fun _ _ => rfl⟩
        refine hnote.bind ?_
        rintro _ _ rfl
        refine crawlPage_yields.bind ?_
        rintro crawled es ⟨document, hes, hhtml, hstatus⟩
        refine aggregatePage_yields.bind ?_
        rintro aggregated es' ⟨hsame, hes'⟩
        refine (ih _).mono ?_
        rintro _ es'' ⟨docs, hes''⟩
        refine ⟨document :: docs, ?_⟩
        have hlogged := (logged_followed next).append
          (hes.append ((hes' document hhtml hstatus).append hes''))
        rw [List.nil_append, List.nil_append, shownAs_cons hsame] at hlogged
        exact hlogged.congr (by simp [RendersSome])

/-- Pagination is not followed, or ends with page one. -/
def SinglePage (options : ScrapeOptions) : Prop :=
  options.followPagination = false ∨ options.maxPages ≤ 1

theorem paginate_yields {formats : List (String × Json.Tree)} :
    Yields World.trace (paginate lib host session one formats) fun _ es =>
      ∃ docs, Logged es (RendersSome session.options docs) docs
          (shownAs (initialMarkdown session formats) docs) ∧
        (SinglePage session.options → docs = []) := by
  have hnone : shownAs (initialMarkdown session formats) [] = [] := ite_self _
  have hsingle : Logged [] (RendersSome session.options []) []
      (shownAs (initialMarkdown session formats) []) := by
    rw [hnone]
    exact logged_nil.congr (by simp [RendersSome])
  unfold paginate
  by_cases hfollow : session.options.followPagination = true
  · rw [if_pos hfollow]
    have hloop : Yields World.trace (crawlLoop lib host session
        (max session.options.maxPages 1 - 1) (.start session one formats)) fun _ es =>
          ∃ docs, Logged es (RendersSome session.options docs) docs
              (shownAs (initialMarkdown session formats) docs) ∧
            (SinglePage session.options → docs = []) := by
      by_cases hone : session.options.maxPages ≤ 1
      · rw [show max session.options.maxPages 1 - 1 = 0 by omega]
        exact yields_pure ⟨[], hsingle, fun _ => rfl⟩
      · refine (crawlLoop_yields _ _).mono ?_
        rintro _ es ⟨docs, hes⟩
        refine ⟨docs, hes, ?_⟩
        rintro (hoff | hmax)
        · exact absurd hfollow (by simp [hoff])
        · exact absurd hmax hone
    refine hloop.bind fun st es hes => yields_pure ?_
    rw [List.append_nil]
    exact hes
  · rw [if_neg hfollow]
    exact yields_pure ⟨[], hsingle, fun _ => rfl⟩

/-- The aggregate is there exactly when markdown is asked for. -/
theorem initialMarkdown_isSome {formats : List (String × Json.Tree)}
    (h : .markdown ∈ session.request.formats → HasMarkdown formats) :
    (initialMarkdown session formats).isSome = session.request.formats.contains .markdown := by
  unfold initialMarkdown
  by_cases hmarkdown : session.request.formats.contains .markdown = true
  · rw [if_pos hmarkdown, hmarkdown]
    obtain ⟨text, htext⟩ := h (List.contains_iff_mem.mp hmarkdown)
    rw [htext]
    rfl
  · rw [if_neg hmarkdown]
    exact (Bool.eq_false_of_not_eq_true hmarkdown).symm

/-! ## Assembly -/

theorem materialize_silent {p : Event → Prop} {formats : List (String × Json.Tree)} :
    EmitsOnly World.trace p
      (materializeRobotsPolicyHops formats : Prog σ (List (String × Json.Tree))) := by
  refine emitsOnly_of_log_eq fun w => ?_
  unfold materializeRobotsPolicyHops
  split
  · rfl
  · rfl

theorem checkDeadline_silent {p : Event → Prop} : EmitsOnly World.trace p (checkDeadline host) :=
  emitsOnly_observe.bind fun _ => emitsOnly_ofResult

/-- The blocks of an assembled proof. -/
theorem assembleProof_blocks {chromiumUsed : Bool} {formats : List (String × Json.Tree)}
    {crawledUrls : List String} {proof : ScrapeProof}
    (h : assembleProof lib session fetched page chromiumUsed formats crawledUrls = .ok proof) :
    proof.request = requestBlock lib session ∧ proof.response = responseBlock session fetched ∧
      proof.result = resultBlock lib session formats crawledUrls ∧
      proof.egress = buildEgress fetched session.request.fingerprint.seed
        session.request.dialedProxyClass (fetchPathOf session page chromiumUsed)
        (softImpersonateEgress lib session (fetchPathOf session page chromiumUsed)) := by
  unfold assembleProof at h
  obtain ⟨_, -, h⟩ := bind_eq_ok.mp h
  obtain ⟨_, -, h⟩ := bind_eq_ok.mp h
  obtain rfl := Except.ok.inj h
  exact ⟨rfl, rfl, rfl, rfl⟩

/-- What a proof says of the path. -/
theorem assembleProof_eq_ok {chromiumUsed : Bool} {formats : List (String × Json.Tree)}
    {crawledUrls : List String} {proof : ScrapeProof}
    (h : assembleProof lib session fetched page chromiumUsed formats crawledUrls = .ok proof) :
    proof.egress.fetchPath = some (fetchPathOf session page chromiumUsed) ∧
      (proof.egress.softTlsImpersonate.isSome = true →
        fetchPathOf session page chromiumUsed = .direct) := by
  obtain ⟨-, -, -, hegress⟩ := assembleProof_blocks h
  rw [hegress]
  refine ⟨rfl, ?_⟩
  intro hsoft
  by_contra hpath
  rw [buildEgress, if_neg hpath] at hsoft
  cases hsoft

theorem attestIfAsked_silent {p : Event → Prop} {options : ScrapeOptions} {proof : ScrapeProof} :
    EmitsOnly World.trace p (attestIfAsked lib host options proof) := by
  unfold attestIfAsked
  split
  · refine emitsOnly_outside.bind fun key => ?_
    refine emitsOnly_ofResult.bind fun reportData => ?_
    refine emitsOnly_outside.bind fun quote => ?_
    refine emitsOnly_ofResult.bind fun measurement => ?_
    refine emitsOnly_outside.bind fun sign => ?_
    refine emitsOnly_ofResult.bind fun _ => ?_
    exact emitsOnly_ofResult.bind fun _ => emitsOnly_pure
  · exact emitsOnly_pure

/-- Attestation leaves the egress block alone. -/
theorem attestIfAsked_yields {options : ScrapeOptions} {proof : ScrapeProof} :
    Yields World.trace (attestIfAsked lib host options proof) fun attested es =>
      es = [] ∧ attested.egress = proof.egress := by
  unfold attestIfAsked
  split
  · refine yields_silent_bind emitsOnly_outside fun key => ?_
    refine yields_ofResult_bind fun reportData _ => ?_
    refine yields_silent_bind emitsOnly_outside fun quote => ?_
    refine yields_ofResult_bind fun measurement _ => ?_
    refine yields_silent_bind emitsOnly_outside fun sign => ?_
    refine yields_ofResult_bind fun _ _ => ?_
    refine yields_ofResult_bind fun _ _ => ?_
    exact yields_pure ⟨rfl, rfl⟩
  · exact yields_pure ⟨rfl, rfl⟩

/-! ## The scrape -/

/-- Whether page one is rendered, read off its document. -/
def rendersFirst (hard : Bool) (options : ScrapeOptions) (formats : List Format)
    (first : Document) : Bool :=
  first.isHtml && trim first.body != "" &&
    (hard || (options.renderEnabled &&
      formats.any fun format => format == .markdown || format == .html))

/-- A page that may be shown on the hard path: no challenge, or one a token was applied to. -/
def Unlocked (page : Page) : Prop :=
  looksLikeChallengeInterstitial page.html page.statusCode = true → page.tokenApplied = true

/-- What a scrape that succeeds has logged, and what its proof says about it.  `ones` are the pages
    that show page one; the pages after it are shown when there is markdown to add them to. -/
structure Scraped (hard : Bool) (options : ScrapeOptions) (formats : List Format)
    (proof : ScrapeProof) (es : List Event) (first : Document) (later : List Document)
    (ones : List Page) : Prop where
  logged : Logged es (.screenshot ∈ formats ∨ rendersFirst hard options formats first = true ∨
    RendersSome options later) (first :: later)
      (ones ++ if formats.contains .markdown then later.map Document.shown else [])
  label : proof.egress.fetchPath = some .chromium ↔
    .screenshot ∈ formats ∨ rendersFirst hard options formats first = true ∨
      (hard = true ∧ first.isHtml = true)
  soft : proof.egress.softTlsImpersonate.isSome = true → proof.egress.fetchPath = some .direct
  unlocked : hard = true → ∀ page ∈ ones, Unlocked page
  single : SinglePage options → later = []

theorem shouldRenderHtml_eq (source : String) :
    shouldRenderHtml session page = rendersFirst session.browser.hardRequired session.options
      session.request.formats (page.document source) := rfl

theorem isBlocked_of_hard {html : String} {statusCode : Nat}
    (hhard : session.browser.hardRequired = true) :
    session.isBlocked html statusCode = looksLikeChallengeInterstitial html statusCode := by
  rw [Session.isBlocked, hhard, Bool.true_and]

/-- The label is the one of a browser when one was used, or was to be used for a hard page. -/
theorem fetchPathOf_eq_chromium {chromiumUsed : Bool} (source : String)
    (huses : session.browser.hardRequired = true → session.browser.willUseBrowser = true) :
    fetchPathOf session page chromiumUsed = .chromium ↔
      chromiumUsed = true ∨
        (session.browser.hardRequired = true ∧ (page.document source).isHtml = true) := by
  rw [fetchPathOf, truthfulFetchPath_eq_chromium, Bool.or_eq_true, Bool.and_eq_true,
    Bool.and_eq_true]
  show _ ∨ (_ ∧ _) ∧ (page.document source).isHtml = true ↔ _
  have hboth : session.browser.hardRequired = true ∧ session.browser.willUseBrowser = true ↔
      session.browser.hardRequired = true := and_iff_left_of_imp huses
  rw [hboth]

/-- **The session**, with the browser plan it was given. -/
theorem scrapeSession_yields
    (hbrowser : planBrowser session.env session.options session.request = .ok session.browser) :
    Yields World.trace (scrapeSession lib host session) fun proof es =>
      ∃ first later pages, Scraped session.browser.hardRequired session.options
        session.request.formats proof es first later pages := by
  have hreset : EmitsOnly World.trace (fun _ => False)
      (update fun w => { w with hops := [] } : Prog σ Unit) := emitsOnly_of_log_eq fun _ => rfl
  have huses : session.browser.hardRequired = true → session.browser.willUseBrowser = true :=
    fun hhard => (planBrowser_hard hbrowser
      ((planBrowser_hardRequired hbrowser).1.symm.trans hhard)).1
  refine yields_silent_bind hreset fun _ => ?_
  refine fetchPage_wire.yields.bind fun fetched es₁ hfetch => ?_
  refine yields_silent_bind initialDecision_silent fun robots => ?_
  refine yields_ofResult_bind fun page _ => ?_
  refine sitemapUrls_wire.yields.bind fun sitemaps es₂ hsitemaps => ?_
  refine yields_ofResult_bind fun runtime _ => ?_
  refine renderPageOne_yields.bind ?_
  rintro rendered es₃ ⟨hrender, hhtml, hcleared⟩
  let first := page.document (rendered.html.getD page.body)
  have hnote : Yields World.trace (note (.document first) : Prog σ Unit) fun _ es =>
      es = [.document first] := fun w => ⟨_, rfl, fun _ _ => rfl⟩
  refine hnote.bind ?_
  rintro _ _ rfl
  refine ((produceFormats_yields _ _).and (produceFormats_hasMarkdown _)).bind ?_
  rintro production es₄ ⟨⟨hused, ones, hproduce, hshows⟩, hmarkdown⟩
  refine paginate_yields.bind ?_
  rintro crawl es₅ ⟨later, hcrawl, hsingle⟩
  refine yields_silent_bind materialize_silent fun formats => ?_
  refine yields_silent_bind checkDeadline_silent fun _ => ?_
  refine yields_ofResult fun proof hproof => ?_
  obtain ⟨hlabel, hsoft⟩ := assembleProof_eq_ok hproof
  -- what the code asks of the page is read off the document that was logged
  rw [shouldRenderHtml_eq (rendered.html.getD page.body)] at hrender hhtml
  rw [shownAs, initialMarkdown_isSome hmarkdown] at hcrawl
  have hlogged := (logged_wire hfetch).append ((logged_wire hsitemaps).append (hrender.append
    ((logged_document first).append (hproduce.append hcrawl))))
  have hchromium : fetchPathOf session page production.chromiumUsed = .chromium ↔ _ :=
    fetchPathOf_eq_chromium (rendered.html.getD page.body) huses
  rw [hused, hhtml] at hchromium
  refine ⟨first, later, ones, ?_, ?_, ?_, ?_, hsingle⟩
  · rw [List.append_nil]
    refine hlogged.congr ?_
    rw [false_or, false_or, false_or]
    exact or_left_comm
  · rw [hlabel, Option.some_inj, hchromium, ← or_assoc]
    exact or_congr_left or_comm
  · intro h
    rw [hlabel, hsoft h]
  · intro hhard p hp hlooks
    obtain ⟨hstatus, htoken, hsource⟩ := hshows p hp
    rw [htoken]
    refine hcleared p.html hsource ?_
    rw [isBlocked_of_hard hhard, ← hstatus]
    exact hlooks

variable {env : Env} {rawUrl : String} {options : ScrapeOptions} {plan : RequestPlan}

/-- A plan has the formats that were asked for, the URL that was validated, and the proxy that was
    resolved for it with its class. -/
theorem planRequest_eq_ok (h : planRequest lib.plan env rawUrl options = .ok plan) :
    plan.formats = effectiveFormats options.formats ∧
      validateUrl lib.url rawUrl = .ok plan.url ∧
      resolveProxyPlan lib.proxy env (proxyPlan options) plan.url = .ok plan.proxy ∧
      truthfulProxyClass plan.proxy options.proxyClass = .ok plan.dialedProxyClass := by
  have hplanned := planned_iff.mp h
  exact ⟨hplanned.formats, hplanned.url, hplanned.proxy, hplanned.dialed⟩

/-- **One hard path**: a pagination page decides on the declared class alone, and still agrees with
    the scrape, which falls back to the class that was dialed. -/
theorem crawlDecision_agrees (h : planRequest lib.plan env rawUrl options = .ok plan) :
    requiresChromiumHardPath (crawlDecision options) = hardRequired options plan := by
  obtain ⟨-, -, hproxy, hdialed⟩ := planRequest_eq_ok h
  show (options.forceBrowser || options.proxyClass.any ProxyClass.isResidential ||
      options.difficulty == some .hard) =
    (options.forceBrowser || (plan.pathClass options).isResidential ||
      options.difficulty == some .hard)
  cases hclass : options.proxyClass with
  | some declared => rw [RequestPlan.pathClass, hclass]; rfl
  | none =>
    -- nothing that was dialed without a declared class is residential
    rw [hclass] at hdialed
    have hhonest : plan.dialedProxyClass = .direct ∨ plan.dialedProxyClass = .datacenter :=
      truthful_undeclared hclass (by rw [proxyPlan, hclass]; rfl) hproxy hdialed
    have hdirect : (plan.pathClass options).isResidential = false := by
      rw [RequestPlan.pathClass, hclass]
      rcases hhonest with hhonest | hhonest
      · rw [hhonest]
        rfl
      · rw [hhonest]
        rfl
    rw [hdirect]
    rfl

theorem acquireSlot_silent {p : Event → Prop} :
    EmitsOnly World.trace p (acquireSlot host env options plan) := by
  unfold acquireSlot
  split
  · exact emitsOnly_outside
  · exact emitsOnly_pure

theorem releaseSlot_trace (w : World σ) :
    (releaseSlot host env options plan w).trace = w.trace := by
  unfold releaseSlot
  split
  · rfl
  · rfl

theorem acquireProfile_silent {p : Event → Prop} {browser : BrowserPlan} :
    EmitsOnly World.trace p (acquireProfile host options browser) := by
  unfold acquireProfile
  split
  · exact emitsOnly_outside.bind fun _ => emitsOnly_pure
  · exact emitsOnly_pure

theorem wipeProfile_trace {browser : BrowserPlan} (w : World σ) :
    (wipeProfile host options browser w).trace = w.trace := by
  unfold wipeProfile
  split
  · rfl
  · rfl

theorem startComposer_silent {p : Event → Prop} {browser : BrowserPlan}
    {proxy : Option ProxyConfig} : EmitsOnly World.trace p (startComposer host browser proxy) := by
  unfold startComposer
  split
  · exact emitsOnly_outside.bind fun _ => emitsOnly_pure
  · exact emitsOnly_pure

/-- Attestation does not change what was scraped. -/
theorem Scraped.attested {hard : Bool} {formats : List Format} {proof attested : ScrapeProof}
    {first : Document} {later : List Document}
    (h : Scraped hard options formats proof es first later pages)
    (hegress : attested.egress = proof.egress) :
    Scraped hard options formats attested es first later pages where
  logged := h.logged
  label := by
    rw [hegress]
    exact h.label
  soft := by
    rw [hegress]
    exact h.soft
  unlocked := h.unlocked
  single := h.single

/-- **The scrape**: a proof comes with a log of what was done for it. -/
theorem scrape_yields :
    Yields World.trace (scrape lib host env rawUrl options) fun proof es =>
      ∃ plan first later pages, planRequest lib.plan env rawUrl options = .ok plan ∧
        Scraped (hardRequired options plan) options (effectiveFormats options.formats) proof es
          first later pages := by
  refine yields_ofResult_bind fun plan hplan => ?_
  refine yields_silent_bind acquireSlot_silent fun _ => ?_
  refine Yields.releasing ?_ releaseSlot_trace
  refine yields_ofResult_bind fun browser hbrowser => ?_
  refine yields_silent_bind acquireProfile_silent fun dir => ?_
  have hguarded : Yields World.trace (scrapeGuarded lib host env options plan browser dir)
      fun proof es => ∃ first later pages,
        Scraped browser.hardRequired options plan.formats proof es first later pages := by
    refine yields_silent_bind startComposer_silent fun composer => ?_
    exact scrapeSession_yields hbrowser
  refine (hguarded.releasing wipeProfile_trace).bind ?_
  rintro proof es ⟨first, later, pages, hscraped⟩
  refine attestIfAsked_yields.mono ?_
  rintro attested _ ⟨rfl, hegress⟩
  rw [List.append_nil]
  rw [(planBrowser_hardRequired hbrowser).1, (planRequest_eq_ok hplan).1] at hscraped
  exact ⟨plan, first, later, pages, hplan, hscraped.attested hegress⟩

end Basecrawl.Core
