/-
  The search for sitemaps is bounded on every graph of sitemaps.

  1. **Documents** — what a sitemap lists is on the web, whatever its events are.
  2. **Turns** — `Search.turn` is one turn of the work list as the source writes it: a pop, the two
     bounds, the visited set, a fetch.  Each turn that goes on decreases the sitemaps that may still
     be seen or, with these unchanged, the queue (`Search.turn_decreases`); so every search ends,
     and where it ends is what `sitemapLoop` computes (`Search.runs_sitemapLoop`).
  3. **Fetches** — the fetches of a search are a chain of runs from world to world.
     `sitemapLoop_spec`: no sitemap is fetched twice, none beyond the budget, and the seeds are the
     distinct ones that the documents list, in the order of the fetches, up to the bound.
-/
import Basecrawl.Core.Robots
import Basecrawl.Lib.Distinct

namespace Basecrawl.Core

open Distinct Run

variable {σ : Type}

/-- A program that hands its error on leaves the state it left. -/
theorem attempt_bind_apply {ε τ α β : Type} {x : EStateM ε τ α} {f : Except ε α → EStateM ε τ β}
    {s : τ} : (attempt x >>= f) s = f (outcome (x s)) (final (x s)) := rfl

/-! ## Documents -/

/-- Seeds and indexes on the web. -/
structure SitemapDocument.OnWeb (document : SitemapDocument) : Prop where
  seeds : ∀ seed ∈ document.urlSeeds, ∃ url, isHttp url = true ∧ seed = url.toString
  nested : ∀ url ∈ document.nestedSitemaps, isHttp url = true

theorem SitemapDocument.onWeb_empty : ({} : SitemapDocument).OnWeb :=
  ⟨fun _ h => (List.not_mem_nil h).elim, fun _ h => (List.not_mem_nil h).elim⟩

theorem SitemapState.closeLocation_onWeb {lib : RobotsLib} {base : Url} {st : SitemapState}
    (h : st.result.OnWeb) : (st.closeLocation lib base).result.OnWeb := by
  unfold closeLocation
  dsimp only
  split
  · exact h
  rename_i url hjoin
  split
  · rename_i hhttp
    split
    · refine ⟨fun seed hseed => ?_, h.nested⟩
      rcases List.mem_append.mp hseed with hseed | hseed
      · exact h.seeds seed hseed
      · exact ⟨url, hhttp, List.mem_singleton.mp hseed⟩
    · refine ⟨h.seeds, fun nested hnested => ?_⟩
      rcases List.mem_append.mp hnested with hnested | hnested
      · exact h.nested nested hnested
      · rw [List.mem_singleton.mp hnested]
        exact hhttp
    · exact h
  · exact h

/-- Only the end of a location adds to a document. -/
theorem SitemapState.event_onWeb {lib : RobotsLib} {base : Url} {st : SitemapState}
    (h : st.result.OnWeb) (e : XmlEvent) : (st.event lib base e).result.OnWeb := by
  cases e with
  | start name =>
    simp only [event]
    split
    · exact h
    split
    · exact h
    split
    · exact h
    · exact h
  | text decoded =>
    simp only [event]
    split
    · exact h
    · exact h
  | cdata decoded =>
    simp only [event]
    split
    · exact h
    · exact h
  | finish name =>
    simp only [event]
    split
    · exact closeLocation_onWeb h
    split
    · exact h
    · exact h
  | other => exact h

theorem parseSitemap_onWeb (lib : RobotsLib) (source : String) (base : Url) :
    (parseSitemap lib source base).OnWeb := by
  have hrun : ∀ (events : List XmlEvent) (st : SitemapState), st.result.OnWeb →
      (events.foldl (SitemapState.event lib base) st).result.OnWeb := by
    intro events
    induction events with
    | nil => exact fun _ h => h
    | cons e events ih => exact fun st h => ih _ (SitemapState.event_onWeb h e)
  exact hrun _ {} SitemapDocument.onWeb_empty

theorem sitemapOutcome_onWeb {lib : RobotsLib} {url : Url} {fetched : Except Error Fetched}
    {document : SitemapDocument} (h : sitemapOutcome lib url fetched = .ok document) :
    document.OnWeb := by
  unfold sitemapOutcome at h
  split at h
  · cases h
  · obtain rfl := Except.ok.inj h
    exact SitemapDocument.onWeb_empty
  · split at h
    · obtain rfl := Except.ok.inj h
      exact parseSitemap_onWeb lib _ _
    · obtain rfl := Except.ok.inj h
      exact SitemapDocument.onWeb_empty

/-- Adding seeds is collecting them. -/
theorem addSeeds_fst (seeds urls : List String) :
    (addSeeds seeds urls).1 = collect maxSitemapUrls seeds urls := by
  induction urls generalizing seeds with
  | nil => rfl
  | cons url urls ih =>
    unfold addSeeds
    split
    · rename_i hfull
      exact (collect_full hfull).symm
    · rename_i hroom
      rw [ih, collect_cons, push, if_neg hroom]
      congr 1
      by_cases hseen : url ∈ seeds
      · rw [if_pos (List.contains_iff_mem.mpr hseen), if_pos hseen]
      · rw [if_neg (fun h => hseen (List.contains_iff_mem.mp h)), if_neg hseen]

/-- The search is ended by the seeds only when they are at their bound. -/
theorem le_length_of_addSeeds {seeds urls : List String} (h : (addSeeds seeds urls).2 = true) :
    maxSitemapUrls ≤ (addSeeds seeds urls).1.length := by
  induction urls generalizing seeds with
  | nil => cases h
  | cons url urls ih =>
    unfold addSeeds at h ⊢
    split
    · assumption
    · rename_i hroom
      rw [if_neg hroom] at h
      exact ih h

/-! ## Turns -/

/-- The variables of the search; the queue has its end first. -/
structure Search where
  queue : List Url
  seen : List String := []
  seeds : List String := []

/-- One turn of the search: it goes on with other variables, or ends with the seeds. -/
def Search.turn (lib : RobotsLib) (net : Network σ) (config : FetchConfig) (search : Search) :
    Prog σ (Search ⊕ List String) :=
  match search.queue with
  | [] => pure (.inr search.seeds)
  | url :: queue =>
      if search.seen.length ≥ maxSitemaps ∨ !isHttp url then pure (.inr search.seeds)
      else if search.seen.contains url.toString then pure (.inl { search with queue })
      else do
        let fetched ← attempt (fetchUntil lib.toFetchLib net url config)
        let document ← ofResult (sitemapOutcome lib url fetched)
        match addSeeds search.seeds document.urlSeeds with
        | (seeds, true) => pure (.inr seeds)
        | (seeds, false) =>
            pure (.inl
              { queue := document.nestedSitemaps.reverse ++ queue
                seen := url.toString :: search.seen
                seeds })

/-- So many turns; `none` when the search goes on. -/
def Search.runs (lib : RobotsLib) (net : Network σ) (config : FetchConfig) :
    Nat → Search → Prog σ (Option (List String))
  | 0, _ => pure none
  | turns + 1, search => do
      match ← search.turn lib net config with
      | .inr seeds => pure (some seeds)
      | .inl search => search.runs lib net config turns

/-- The sitemaps that may still be seen, then the queue. -/
def Search.measure (search : Search) : Nat × Nat :=
  (maxSitemaps - search.seen.length, search.queue.length)

section

variable {lib : RobotsLib} {net : Network σ} {config : FetchConfig} {search next : Search}
  {w w' : World σ}

/-- What is done with a document: the search ends at the bound on the seeds, else it goes on. -/
def Search.take (search : Search) (url : Url) (queue : List Url) (document : SitemapDocument) :
    Search ⊕ List String :=
  match addSeeds search.seeds document.urlSeeds with
  | (seeds, true) => .inr seeds
  | (seeds, false) =>
      .inl
        { queue := document.nestedSitemaps.reverse ++ queue
          seen := url.toString :: search.seen
          seeds }

/-- The turns: there is nothing left or a bound is met, the sitemap was seen before, or it is
    fetched. -/
inductive Search.Turns (lib : RobotsLib) (net : Network σ) (config : FetchConfig)
    (search : Search) : Prop
  | ends (hstop : search.queue = [] ∨ maxSitemaps ≤ search.seen.length ∨
        ∃ url queue, search.queue = url :: queue ∧ isHttp url = false)
      (hturn : search.turn lib net config = pure (.inr search.seeds))
  | skips {url : Url} {queue : List Url} (hqueue : search.queue = url :: queue)
      (hroom : search.seen.length < maxSitemaps) (hhttp : isHttp url = true)
      (hseen : url.toString ∈ search.seen)
      (hturn : search.turn lib net config = pure (.inl { search with queue }))
  | fetches {url : Url} {queue : List Url} (hqueue : search.queue = url :: queue)
      (hroom : search.seen.length < maxSitemaps) (hhttp : isHttp url = true)
      (hseen : url.toString ∉ search.seen)
      (hturn : search.turn lib net config = do
        let fetched ← attempt (fetchUntil lib.toFetchLib net url config)
        let document ← ofResult (sitemapOutcome lib url fetched)
        pure (search.take url queue document))

theorem Search.turns (lib : RobotsLib) (net : Network σ) (config : FetchConfig)
    (search : Search) : search.Turns lib net config := by
  obtain ⟨stack, seen, seeds⟩ := search
  cases stack with
  | nil => exact .ends (Or.inl rfl) rfl
  | cons url queue =>
    by_cases hroom : maxSitemaps ≤ seen.length
    · exact .ends (Or.inr (Or.inl hroom)) (if_pos (Or.inl hroom))
    by_cases hhttp : isHttp url = true
    · have hbounds : ¬ (seen.length ≥ maxSitemaps ∨ (!isHttp url) = true) := by
        rw [hhttp]
        rintro (h | h)
        · exact hroom h
        · cases h
      by_cases hseen : url.toString ∈ seen
      · refine .skips rfl (Nat.lt_of_not_le hroom) hhttp hseen ?_
        exact (if_neg hbounds).trans (if_pos (List.contains_iff_mem.mpr hseen))
      · refine .fetches rfl (Nat.lt_of_not_le hroom) hhttp hseen ?_
        refine (if_neg hbounds).trans
          ((if_neg fun h => hseen (List.contains_iff_mem.mp h)).trans ?_)
        refine bind_congr fun fetched => bind_congr fun document => ?_
        unfold take
        cases addSeeds seeds document.urlSeeds with
        | mk added full =>
          cases full with
          | true => rfl
          | false => rfl
    · rw [Bool.not_eq_true] at hhttp
      refine .ends (Or.inr (Or.inr ⟨url, queue, rfl, hhttp⟩)) (if_pos (Or.inr ?_))
      rw [hhttp]
      rfl

/-- The search goes on with the seeds of the document collected and its indexes on top. -/
theorem Search.take_eq_inl {url : Url} {queue : List Url} {document : SitemapDocument}
    (h : search.take url queue document = .inl next) :
    next =
      { queue := document.nestedSitemaps.reverse ++ queue
        seen := url.toString :: search.seen
        seeds := collect maxSitemapUrls search.seeds document.urlSeeds } := by
  unfold take at h
  split at h
  · cases h
  · rename_i seeds hadd
    cases h
    rw [← addSeeds_fst, hadd]

/-- The search ends with the seeds of the document collected, which are at their bound. -/
theorem Search.take_eq_inr {url : Url} {queue : List Url} {document : SitemapDocument}
    {seeds : List String} (h : search.take url queue document = .inr seeds) :
    seeds = collect maxSitemapUrls search.seeds document.urlSeeds ∧
      maxSitemapUrls ≤ seeds.length := by
  unfold take at h
  split at h
  · rename_i added hadd
    cases h
    have hfull := @le_length_of_addSeeds search.seeds document.urlSeeds
    rw [hadd] at hfull
    exact ⟨by rw [← addSeeds_fst, hadd], hfull rfl⟩
  · cases h

/-- A turn that goes on decreases the measure. -/
theorem Search.turn_decreases (h : search.turn lib net config w = .ok (.inl next) w') :
    Prod.Lex (· < ·) (· < ·) next.measure search.measure := by
  unfold measure
  cases search.turns lib net config with
  | ends _ hturn =>
    rw [hturn] at h
    cases h
  | skips hqueue _ _ _ hturn =>
    rw [hturn] at h
    cases h
    rw [hqueue]
    exact Prod.Lex.right _ (Nat.lt_succ_self _)
  | fetches hqueue hroom _ _ hturn =>
    rw [hturn] at h
    obtain ⟨fetched, w₁, -, h⟩ := bind_run_eq_ok.mp h
    obtain ⟨document, -, h⟩ := ofResult_bind_eq_ok.mp h
    obtain rfl := take_eq_inl (EStateM.Result.ok.inj h).1
    refine Prod.Lex.left _ _ ?_
    rw [List.length_cons]
    omega

/-- What is left of `sitemapLoop` at these variables. -/
def Search.loop (lib : RobotsLib) (net : Network σ) (config : FetchConfig) (search : Search) :
    Prog σ (List String) :=
  sitemapLoop lib net config (maxSitemaps - search.seen.length) search.seen search.seeds
    search.queue

/-- The search after a turn. -/
def Search.resume (lib : RobotsLib) (net : Network σ) (config : FetchConfig) :
    Search ⊕ List String → Prog σ (List String)
  | .inl next => next.loop lib net config
  | .inr seeds => pure seeds

theorem sitemapLoop_of_pop_none {remaining : Nat} {seen seeds : List String} {stack : List Url}
    (h : popSitemap seen stack = none) :
    sitemapLoop lib net config remaining seen seeds stack = pure seeds := by
  cases remaining with
  | zero => rfl
  | succ remaining => rw [sitemapLoop, h]

/-- `sitemapLoop` takes the turns of the source. -/
theorem Search.loop_eq (search : Search) :
    search.loop lib net config = search.turn lib net config >>= resume lib net config := by
  cases search.turns lib net config with
  | ends hstop hturn =>
    rw [hturn, pure_bind]
    rcases hstop with hnil | hroom | ⟨url, queue, hqueue, hhttp⟩
    · exact sitemapLoop_of_pop_none (by rw [hnil, popSitemap])
    · unfold loop
      rw [Nat.sub_eq_zero_of_le hroom]
      rfl
    · refine sitemapLoop_of_pop_none ?_
      rw [hqueue, popSitemap, hhttp]
      rfl
  | @skips url queue hqueue hroom hhttp hseen hturn =>
    rw [hturn, pure_bind]
    have hpop : popSitemap search.seen search.queue = popSitemap search.seen queue := by
      rw [hqueue, popSitemap, hhttp, List.contains_iff_mem.mpr hseen]
      rfl
    unfold loop
    obtain ⟨remaining, hremaining⟩ := Nat.exists_eq_add_one.mpr (Nat.sub_pos_of_lt hroom)
    show _ = sitemapLoop _ _ _ (maxSitemaps - search.seen.length) _ _ _
    rw [hremaining, sitemapLoop, sitemapLoop, hpop]
  | @fetches url queue hqueue hroom hhttp hseen hturn =>
    rw [hturn]
    simp only [bind_assoc, pure_bind]
    have hpop : popSitemap search.seen search.queue = some (url, queue) := by
      rw [hqueue, popSitemap, hhttp, if_neg (by decide), if_neg]
      exact fun h => hseen (List.contains_iff_mem.mp h)
    obtain ⟨remaining, hremaining⟩ := Nat.exists_eq_add_one.mpr (Nat.sub_pos_of_lt hroom)
    have hrest : maxSitemaps - (url.toString :: search.seen).length = remaining := by
      rw [List.length_cons]
      omega
    unfold loop
    rw [hremaining, sitemapLoop, hpop]
    refine bind_congr fun fetched => bind_congr fun document => ?_
    unfold take
    cases addSeeds search.seeds document.urlSeeds with
    | mk seeds full =>
      cases full with
      | true => rfl
      | false =>
        show _ = sitemapLoop _ _ _ (maxSitemaps - (url.toString :: search.seen).length) _ _ _
        rw [hrest]

/-- From any variables the search ends after some turns, with what `sitemapLoop` computes. -/
theorem Search.runs_loop (search : Search) (w : World σ) : ∃ turns, ∀ more,
    search.runs lib net config (turns + more) w =
      (search.loop lib net config >>= fun seeds => pure (some seeds)) w := by
  induction hm : search.measure using (Prod.lex Nat.lt_wfRel Nat.lt_wfRel).wf.induction
    generalizing search w with
  | _ m ih =>
    rw [loop_eq, bind_assoc, bind_apply]
    cases hturn : search.turn lib net config w with
    | error e w' =>
      refine ⟨1, fun more => ?_⟩
      rw [Nat.add_comm, runs]
      exact bind_of_error _ hturn
    | ok taken w' =>
      cases taken with
      | inr seeds =>
        refine ⟨1, fun more => ?_⟩
        rw [Nat.add_comm, runs]
        exact bind_of_ok _ hturn
      | inl next =>
        obtain ⟨turns, hturns⟩ := ih _ (hm ▸ turn_decreases hturn) next w' rfl
        refine ⟨turns + 1, fun more => ?_⟩
        rw [Nat.add_right_comm, runs]
        exact (bind_of_ok _ hturn).trans (hturns more)

end

/-! ## Fetches -/

/-- A sitemap that was fetched, and what came of it. -/
structure Visit where
  url : Url
  fetched : Except Error Fetched

/-- What the visited set holds of a sitemap. -/
def Visit.key (visit : Visit) : String := visit.url.toString

/-- The document that a fetch contributes; a failing one contributes nothing. -/
def Visit.document (lib : RobotsLib) (visit : Visit) : SitemapDocument :=
  match sitemapOutcome lib visit.url visit.fetched with
  | .ok document => document
  | .error _ => {}

/-- A sitemap was served with success. -/
def Visit.succeeded (visit : Visit) : Bool :=
  match visit.fetched with
  | .ok fetched => isSuccess fetched.statusCode
  | .error _ => false

/-- The fetches of a search, each in the world that the one before it left. -/
inductive Fetches (lib : RobotsLib) (net : Network σ) (config : FetchConfig) :
    World σ → List Visit → World σ → Prop
  | nil (w : World σ) : Fetches lib net config w [] w
  | cons {url : Url} {w w' : World σ} {visits : List Visit}
      (rest : Fetches lib net config (final (fetchUntil lib.toFetchLib net url config w)) visits w') :
      Fetches lib net config w
        (⟨url, outcome (fetchUntil lib.toFetchLib net url config w)⟩ :: visits) w'

/-- What is known of a search from these variables on: its fetches and its result. -/
structure Search.Explores (lib : RobotsLib) (search : Search) (visits : List Visit)
    (result : Except Error (List String)) : Prop where
  budget : visits.length ≤ maxSitemaps - search.seen.length
  once : (visits.map Visit.key).Nodup
  fresh : ∀ visit ∈ visits, visit.key ∉ search.seen
  found : ∀ seeds, result = .ok seeds →
    seeds = collect maxSitemapUrls search.seeds
      (visits.flatMap fun visit => (visit.document lib).urlSeeds)
  late : ∀ e, result = .error e → ∃ message, e = .timeout message ∧
    ∃ visit, visits.getLast? = some visit ∧ visit.fetched = .error (.timeout message)
  drained : ∀ seeds, result = .ok seeds → seeds.length < maxSitemapUrls →
    visits.length < maxSitemaps - search.seen.length → (∀ url ∈ search.queue, isHttp url = true) →
      ∀ url, url ∈ search.queue ∨
          (∃ visit ∈ visits, url ∈ (visit.document lib).nestedSitemaps) →
        url.toString ∈ search.seen ∨ url.toString ∈ visits.map Visit.key

section

variable {lib : RobotsLib} {search : Search} {visits : List Visit}
  {result : Except Error (List String)} {url : Url} {queue : List Url}

theorem Visit.document_of_failed {visit : Visit} (h : visit.succeeded = false) :
    visit.document lib = {} := by
  obtain ⟨url, fetched⟩ := visit
  unfold document sitemapOutcome
  cases fetched with
  | error e => cases e <;> rfl
  | ok fetched =>
    have h : isSuccess fetched.statusCode = false := h
    simp only [h]
    rfl

/-- Only a timeout ends the search with an error. -/
theorem sitemapOutcome_error {fetched : Except Error Fetched} {e : Error}
    (h : sitemapOutcome lib url fetched = .error e) :
    ∃ message, e = .timeout message ∧ fetched = .error (.timeout message) := by
  unfold sitemapOutcome at h
  split at h
  · cases h
    exact ⟨_, rfl, rfl⟩
  · cases h
  · split at h
    · cases h
    · cases h

/-- A search that ends where it is. -/
theorem Search.Explores.ends (hstop : search.queue = [] ∨ maxSitemaps ≤ search.seen.length ∨
      ∃ url queue, search.queue = url :: queue ∧ isHttp url = false) :
    search.Explores lib [] (.ok search.seeds) where
  budget := Nat.zero_le _
  once := List.nodup_nil
  fresh := fun _ h => (List.not_mem_nil h).elim
  found := by
    intro seeds h
    cases h
    rfl
  late := by
    intro e h
    cases h
  drained := by
    intro seeds _ _ hroom hhttp url hurl
    rcases hurl with hurl | ⟨visit, hvisit, -⟩
    · rcases hstop with hnil | hfull | ⟨head, queue, hqueue, hoff⟩
      · rw [hnil] at hurl
        cases hurl
      · rw [Nat.sub_eq_zero_of_le hfull] at hroom
        cases hroom
      · rw [hhttp head (hqueue ▸ List.mem_cons_self)] at hoff
        cases hoff
    · cases hvisit

/-- A sitemap that was seen before is left out. -/
theorem Search.Explores.skips (hqueue : search.queue = url :: queue)
    (hseen : url.toString ∈ search.seen)
    (h : ({ search with queue } : Search).Explores lib visits result) :
    search.Explores lib visits result where
  budget := h.budget
  once := h.once
  fresh := h.fresh
  found := h.found
  late := h.late
  drained := by
    intro seeds hok hseeds hroom hhttp other hother
    rw [hqueue] at hhttp hother
    rcases hother with hother | hother
    · rcases List.mem_cons.mp hother with rfl | hother
      · exact Or.inl hseen
      · exact h.drained seeds hok hseeds hroom (fun u hu => hhttp u (List.mem_cons_of_mem _ hu))
          other (Or.inl hother)
    · exact h.drained seeds hok hseeds hroom (fun u hu => hhttp u (List.mem_cons_of_mem _ hu))
        other (Or.inr hother)

/-- A fetch that meets the deadline ends the search. -/
theorem Search.Explores.late_fetch {fetched : Except Error Fetched} {e : Error}
    (hroom : search.seen.length < maxSitemaps) (hseen : url.toString ∉ search.seen)
    (h : sitemapOutcome lib url fetched = .error e) :
    search.Explores lib [⟨url, fetched⟩] (.error e) where
  budget := Nat.sub_pos_of_lt hroom
  once := List.nodup_singleton _
  fresh := by
    intro visit hvisit
    rw [List.mem_singleton.mp hvisit]
    exact hseen
  found := by
    intro seeds h
    cases h
  late := by
    rintro e' ⟨⟩
    obtain ⟨message, rfl, rfl⟩ := sitemapOutcome_error h
    exact ⟨message, rfl, _, rfl, rfl⟩
  drained := by
    intro seeds h
    cases h

/-- A document that fills the seeds ends the search. -/
theorem Search.Explores.last {fetched : Except Error Fetched} {document : SitemapDocument}
    {seeds : List String} (hroom : search.seen.length < maxSitemaps)
    (hseen : url.toString ∉ search.seen) (h : sitemapOutcome lib url fetched = .ok document)
    (htake : search.take url queue document = .inr seeds) :
    search.Explores lib [⟨url, fetched⟩] (.ok seeds) where
  budget := Nat.sub_pos_of_lt hroom
  once := List.nodup_singleton _
  fresh := by
    intro visit hvisit
    rw [List.mem_singleton.mp hvisit]
    exact hseen
  found := by
    rintro seeds' ⟨⟩
    rw [(take_eq_inr htake).1, List.flatMap_singleton, Visit.document, h]
  late := by
    intro e h
    cases h
  drained := by
    rintro seeds' ⟨⟩ hlength
    exact absurd (take_eq_inr htake).2 (Nat.not_le_of_lt hlength)

/-- A document that does not, and the search from there. -/
theorem Search.Explores.next {fetched : Except Error Fetched} {document : SitemapDocument}
    {next : Search} (hqueue : search.queue = url :: queue)
    (hroom : search.seen.length < maxSitemaps) (hseen : url.toString ∉ search.seen)
    (hdocument : sitemapOutcome lib url fetched = .ok document)
    (htake : search.take url queue document = .inl next)
    (h : next.Explores lib visits result) :
    search.Explores lib (⟨url, fetched⟩ :: visits) result := by
  obtain rfl := take_eq_inl htake
  have hread : Visit.document lib ⟨url, fetched⟩ = document := by rw [Visit.document, hdocument]
  have hbudget : visits.length + 1 ≤ maxSitemaps - search.seen.length := by
    have hrest := h.budget
    rw [List.length_cons] at hrest
    omega
  have hkey : ∀ visit ∈ visits, visit.key ≠ url.toString := fun visit hvisit hkey =>
    h.fresh visit hvisit (hkey ▸ List.mem_cons_self)
  constructor
  · exact hbudget
  · rw [List.map_cons, List.nodup_cons]
    refine ⟨fun hmem => ?_, h.once⟩
    obtain ⟨visit, hvisit, heq⟩ := List.mem_map.mp hmem
    exact hkey visit hvisit heq
  · intro visit hvisit
    rcases List.mem_cons.mp hvisit with rfl | hvisit
    · exact hseen
    · exact fun hmem => h.fresh visit hvisit (List.mem_cons_of_mem _ hmem)
  · intro seeds hok
    rw [List.flatMap_cons, collect_append, hread]
    exact h.found seeds hok
  · intro e he
    obtain ⟨message, rfl, visit, hvisit, htimeout⟩ := h.late e he
    refine ⟨message, rfl, visit, ?_, htimeout⟩
    rw [List.getLast?_cons, hvisit]
    rfl
  · intro seeds hok hseeds hlength hhttp other hother
    rw [hqueue] at hhttp hother
    have hnested : ∀ u ∈ document.nestedSitemaps.reverse ++ queue, isHttp u = true := by
      intro u hu
      rcases List.mem_append.mp hu with hu | hu
      · exact (sitemapOutcome_onWeb hdocument).nested u (List.mem_reverse.mp hu)
      · exact hhttp u (List.mem_cons_of_mem _ hu)
    have hrest := h.drained seeds hok hseeds (by
      rw [List.length_cons] at hlength ⊢
      omega) hnested other
    -- what is waiting is this URL, one of the queue behind it, or one this document adds
    have hcovered : other = url ∨ other ∈ document.nestedSitemaps.reverse ++ queue ∨
        ∃ visit ∈ visits, other ∈ (visit.document lib).nestedSitemaps := by
      rcases hother with hother | ⟨visit, hvisit, hother⟩
      · exact (List.mem_cons.mp hother).imp_right fun h =>
          Or.inl (List.mem_append_right _ h)
      · rcases List.mem_cons.mp hvisit with rfl | hvisit
        · rw [hread] at hother
          exact Or.inr (Or.inl (List.mem_append_left _ (List.mem_reverse.mpr hother)))
        · exact Or.inr (Or.inr ⟨visit, hvisit, hother⟩)
    rcases hcovered with rfl | hcovered
    · exact Or.inr List.mem_cons_self
    · rcases hrest hcovered with hmem | hmem
      · rcases List.mem_cons.mp hmem with heq | hmem
        · exact Or.inr (heq ▸ List.mem_cons_self)
        · exact Or.inl hmem
      · exact Or.inr (List.mem_cons_of_mem _ hmem)

end

/-- Every search from these variables on, whatever is served. -/
theorem Search.loop_spec (lib : RobotsLib) (net : Network σ) (config : FetchConfig)
    (search : Search) (w : World σ) : ∃ visits,
    Fetches lib net config w visits (final (search.loop lib net config w)) ∧
      search.Explores lib visits (outcome (search.loop lib net config w)) := by
  induction hm : search.measure using (Prod.lex Nat.lt_wfRel Nat.lt_wfRel).wf.induction
    generalizing search w with
  | _ m ih =>
    rw [loop_eq]
    cases search.turns lib net config with
    | ends hstop hturn =>
      rw [hturn]
      exact ⟨[], Fetches.nil w, Explores.ends hstop⟩
    | @skips url queue hqueue hroom hhttp hseen hturn =>
      have hnext : search.turn lib net config w = .ok (.inl { search with queue }) w := by
        rw [hturn]
        rfl
      rw [hturn]
      obtain ⟨visits, hfetches, hexplores⟩ := ih _ (hm ▸ turn_decreases hnext) _ w rfl
      exact ⟨visits, hfetches, Explores.skips hqueue hseen hexplores⟩
    | @fetches url queue hqueue hroom hhttp hseen hturn =>
      rw [hturn]
      simp only [bind_assoc, pure_bind, attempt_bind_apply]
      cases hdocument : sitemapOutcome lib url
          (outcome (fetchUntil lib.toFetchLib net url config w)) with
      | error e =>
        exact ⟨_, Fetches.cons (Fetches.nil _), Explores.late_fetch hroom hseen hdocument⟩
      | ok document =>
        rw [bind_of_ok _ (ofResult_ok document _)]
        cases htake : search.take url queue document with
        | inr seeds =>
          exact ⟨_, Fetches.cons (Fetches.nil _), Explores.last hroom hseen hdocument htake⟩
        | inl next =>
          have hnext : search.turn lib net config w =
              .ok (.inl next) (final (fetchUntil lib.toFetchLib net url config w)) := by
            rw [hturn, attempt_bind_apply, hdocument, bind_of_ok _ (ofResult_ok document _), htake]
            rfl
          obtain ⟨visits, hfetches, hexplores⟩ := ih _ (hm ▸ turn_decreases hnext) next _ rfl
          exact ⟨_, Fetches.cons hfetches,
            Explores.next hqueue hroom hseen hdocument htake hexplores⟩

/-! ## Discovery -/

/-- The variables of `discover_sitemap_urls` before its first turn. -/
def Search.start (target : Url) (robotsSitemaps : List Url) : Search where
  queue := robotsSitemaps.reverse ++ [defaultSitemapUrl target]

/-- What the seeds of a search are, given its fetches. -/
structure Discovers (lib : RobotsLib) (start : Search) (visits : List Visit)
    (seeds : List String) : Prop where
  distinct : seeds.Nodup
  bounded : seeds.length ≤ maxSitemapUrls
  onWeb : ∀ seed ∈ seeds, ∃ url, isHttp url = true ∧ seed = url.toString
  listed : ∀ seed ∈ seeds, ∃ visit ∈ visits,
    visit.succeeded = true ∧ seed ∈ (visit.document lib).urlSeeds
  /-- The seeds are those of the documents that were served, as if the others had not been there. -/
  unharmed : seeds = collect maxSitemapUrls []
    ((visits.filter Visit.succeeded).flatMap fun visit => (visit.document lib).urlSeeds)
  kept : seeds.length < maxSitemapUrls →
    ∀ visit ∈ visits, ∀ seed ∈ (visit.document lib).urlSeeds, seed ∈ seeds
  /-- Nor do they end the search: short of the bounds, all that was named was fetched. -/
  exhausted : seeds.length < maxSitemapUrls → visits.length < maxSitemaps →
    (∀ url ∈ start.queue, isHttp url = true) →
      ∀ url, url ∈ start.queue ∨ (∃ visit ∈ visits, url ∈ (visit.document lib).nestedSitemaps) →
        url.toString ∈ visits.map Visit.key

theorem Visit.succeeded_of_listed {lib : RobotsLib} {visit : Visit} {seed : String}
    (h : seed ∈ (visit.document lib).urlSeeds) : visit.succeeded = true := by
  by_contra hfailed
  rw [document_of_failed (Bool.not_eq_true _ ▸ hfailed)] at h
  cases h

/-- A document that fails lists nothing. -/
theorem Visit.document_onWeb (lib : RobotsLib) (visit : Visit) : (visit.document lib).OnWeb := by
  unfold document
  split
  · rename_i document h
    exact sitemapOutcome_onWeb h
  · exact SitemapDocument.onWeb_empty

theorem flatMap_succeeded (lib : RobotsLib) (visits : List Visit) :
    ((visits.filter Visit.succeeded).flatMap fun visit => (visit.document lib).urlSeeds) =
      visits.flatMap fun visit => (visit.document lib).urlSeeds := by
  induction visits with
  | nil => rfl
  | cons visit visits ih =>
    rw [List.flatMap_cons, ← ih]
    cases h : visit.succeeded with
    | true => rw [List.filter_cons_of_pos h, List.flatMap_cons]
    | false =>
      rw [List.filter_cons_of_neg (Bool.not_eq_true _ ▸ h), Visit.document_of_failed h]
      rfl

theorem Search.Explores.discovers {lib : RobotsLib} {start : Search} {visits : List Visit}
    {seeds : List String} (hstart : start.seen = [] ∧ start.seeds = [])
    (h : start.Explores lib visits (.ok seeds)) : Discovers lib start visits seeds := by
  have hfound := h.found seeds rfl
  rw [hstart.2] at hfound
  have hlisted : ∀ seed ∈ seeds, ∃ visit ∈ visits, seed ∈ (visit.document lib).urlSeeds := by
    intro seed hseed
    rw [hfound] at hseed
    rcases mem_or_of_mem_collect hseed with hseed | hseed
    · cases hseed
    · exact List.mem_flatMap.mp hseed
  constructor
  · rw [hfound]
    exact Nodup.collect List.nodup_nil
  · rw [hfound]
    exact length_collect_le _ _ (Nat.zero_le _)
  · intro seed hseed
    obtain ⟨visit, -, hvisit⟩ := hlisted seed hseed
    exact (visit.document_onWeb lib).seeds seed hvisit
  · intro seed hseed
    obtain ⟨visit, hvisit, hmem⟩ := hlisted seed hseed
    exact ⟨visit, hvisit, Visit.succeeded_of_listed hmem, hmem⟩
  · rw [flatMap_succeeded]
    exact hfound
  · intro hroom visit hvisit seed hseed
    rw [hfound] at hroom ⊢
    exact mem_collect hroom (List.mem_flatMap.mpr ⟨visit, hvisit, hseed⟩)
  · intro hroom hbudget hhttp url hurl
    have hnone : start.seen.length = 0 := by rw [hstart.1]; rfl
    rcases h.drained seeds rfl hroom (by omega) hhttp url hurl with hmem | hmem
    · rw [hstart.1] at hmem
      cases hmem
    · exact hmem

/-- Whatever is served, the search ends; it fetches a bounded number of sitemaps, none of them
    twice; unless a fetch meets the deadline it returns, and what it returns is bounded, repeats
    nothing, is on the web, and is exactly what the served documents list. -/
theorem discoverSitemapUrls_bounded (lib : RobotsLib) (net : Network σ) (target : Url)
    (config : FetchConfig) (robotsSitemaps : List Url) (w : World σ) :
    (∃ turns, ∀ more, (Search.start target robotsSitemaps).runs lib net config (turns + more) w =
      (discoverSitemapUrls lib net target config robotsSitemaps >>= fun seeds => pure (some seeds))
        w) ∧
    ∃ visits, Fetches lib net config w visits
        (final (discoverSitemapUrls lib net target config robotsSitemaps w)) ∧
      visits.length ≤ maxSitemaps ∧ (visits.map Visit.key).Nodup ∧
      ((∀ visit ∈ visits, ∀ message, visit.fetched ≠ .error (.timeout message)) →
        ∃ seeds, outcome (discoverSitemapUrls lib net target config robotsSitemaps w) =
          .ok seeds) ∧
      ∀ seeds, outcome (discoverSitemapUrls lib net target config robotsSitemaps w) = .ok seeds →
        Discovers lib (Search.start target robotsSitemaps) visits seeds := by
  have hloop : (Search.start target robotsSitemaps).loop lib net config =
      discoverSitemapUrls lib net target config robotsSitemaps := rfl
  refine ⟨(Search.start target robotsSitemaps).runs_loop w, ?_⟩
  obtain ⟨visits, hfetches, hexplores⟩ :=
    (Search.start target robotsSitemaps).loop_spec lib net config w
  rw [hloop] at hfetches hexplores
  refine ⟨visits, hfetches, hexplores.budget, hexplores.once, ?_, ?_⟩
  · intro htimely
    cases hresult : outcome (discoverSitemapUrls lib net target config robotsSitemaps w) with
    | ok seeds => exact ⟨seeds, rfl⟩
    | error e =>
      obtain ⟨message, -, visit, hlast, hlate⟩ := hexplores.late e hresult
      exact absurd hlate (htimely visit (List.mem_of_getLast? hlast) message)
  · intro seeds hresult
    rw [hresult] at hexplores
    exact hexplores.discovers ⟨rfl, rfl⟩

end Basecrawl.Core
