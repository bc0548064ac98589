/-
  The crawl delay in a whole run.

  1. **Program** — `Host.timed`: the host with a clock.  Pacing asks the schedule for a slot, a
     transmission lasts until the next thing the engine does, and what Chromium sends meanwhile is
     a call on the same schedule.  `pacedPages` and `pacedMap`: every scrape of a crawl, and the
     sitemap stage of map-lite, begins with a schedule of its own.
  2. **Invariant** — `Timed.Inv`: what was sent in a stage is spaced, and its schedule knows it.
     Every operation keeps it, and so does every run.
  3. **Runs** — `runs_pace`: a run is spaced exactly when its stages leave the delay between them
     themselves, which nothing in the engine sees to.
-/
import Basecrawl.Core.CrawlCredentials
import Basecrawl.Core.MapLite
import Basecrawl.Render.Pacer

namespace Basecrawl.Core

open Text Outcome Run Spacing
open Render (OriginPacer RenderOrigin Lapse Paced Call originForUrl)

variable {σ α : Type}

/-! ## Program -/

/-- How long things take, when they have to be over, and what Chromium sends while it is used: all
    of it is for the outside to say. -/
structure Clock (σ : Type) where
  duration : σ → Nat
  lapse : σ → Lapse
  deadline : σ → Nat
  continuations : σ → List (Call σ Unit)

/-- The clock, the schedule of the stage, the outside and the log of the stage; `sending` is the
    transmission that goes on, and `stages` are the logs of the stages before. -/
structure Timed (σ : Type) extends Paced σ where
  sending : Option (Sent RenderOrigin) := none
  stages : List (List (Sent RenderOrigin)) := []

/-- What was sent in the stage. -/
def Timed.sent (s : Timed σ) : List (Sent RenderOrigin) := s.log ++ s.sending.toList

/-- What was sent, stage by stage. -/
def Timed.logs (s : Timed σ) : List (List (Sent RenderOrigin)) := s.stages ++ [s.sent]

/-- A run begins. -/
def Timed.start (now : Nat) (outside : σ) : Timed σ := { toPaced := .start now outside }

/-- The transmission that goes on is over. -/
def Timed.close (s : Timed σ) : Timed σ :=
  { s with
    log := s.sent
    sending := none }

/-- Time passes, and the transmission that goes on lasts for it.  Its end is put down every time:
    nobody else has the schedule before it is over. -/
def Timed.elapse (duration insert : Nat) (s : Timed σ) : Timed σ :=
  match s.sending with
  | none => { s with now := s.now + duration }
  | some sent =>
      let finish := s.now + duration
      { s with
        now := finish + insert
        pacer := s.pacer.insert sent.key (finish + insert)
        sending := some { sent with finish := finish } }

/-- An operation that is part of the transmission. -/
def lasting (clock : Clock σ) (x : Outside σ α) : Outside (Timed σ) α := fun s =>
  let after := s.elapse (clock.duration s.outside) (clock.lapse s.outside).insert
  match x s.outside with
  | .ok a outside => .ok a { after with outside := outside }
  | .error e outside => .error e { after with outside := outside }

/-- An operation that comes after it. -/
def between (clock : Clock σ) (x : Outside σ α) : Outside (Timed σ) α := fun s =>
  lasting clock x s.close

/-- `transmit_with_pacing`, up to the start of the transmission. -/
def Timed.pace (lib : UrlLib) (delay : Nat) (clock : Clock σ) (url : Url) :
    Outside (Timed σ) Unit := fun s =>
  let s := s.close
  if delay = 0 then .ok () s
  else
    match originForUrl lib url.toString with
    | none => .ok () s
    | some origin =>
        let lapse := clock.lapse s.outside
        let now := s.now + lapse.locked
        match s.pacer.admit origin delay (clock.deadline s.outside) lapse now with
        | .error ⟨⟩ => .error (.timeout "scrape deadline exceeded") { s with now := now }
        | .ok start =>
            .ok () { s with
              now := start
              pacer := s.pacer.insert origin start
              sending := some ⟨origin, start, start⟩ }

/-- The calls that Chromium makes on the schedule. -/
def Timed.continues (lib : UrlLib) (delay : Nat) (calls : List (Call σ Unit)) (s : Timed σ) :
    Timed σ :=
  { s.close with toPaced := History.final (Call.run lib delay) calls s.close.toPaced }

/-- An operation of the browser. -/
def browsing (lib : UrlLib) (delay : Nat) (clock : Clock σ) (x : Outside σ α) :
    Outside (Timed σ) α := fun s =>
  between clock x (s.continues lib delay (clock.continuations s.outside))

/-- The host with a clock. -/
def Host.timed (lib : UrlLib) (delay : Nat) (clock : Clock σ) (host : Host σ) :
    Host (Timed σ) where
  net :=
    { pace := Timed.pace lib delay clock
      dial := fun proxy name port => lasting clock (host.net.dial proxy name port)
      handshake := fun config name => lasting clock (host.net.handshake config name)
      exchange := fun request => lasting clock (host.net.exchange request)
      nowUtc := fun s => host.net.nowUtc s.outside }
  browser :=
    { start := fun url task => browsing lib delay clock (host.browser.start url task)
      visits := fun s => host.browser.visits s.outside
      next := browsing lib delay clock host.browser.next
      answer := fun verdict => browsing lib delay clock (host.browser.answer verdict)
      finish := browsing lib delay clock host.browser.finish }
  provider := fun runtime request => between clock (host.provider runtime request)
  acquireResidentialSlot := between clock host.acquireResidentialSlot
  releaseResidentialSlot := fun s => { s with outside := host.releaseResidentialSlot s.outside }
  acquireStickyProfile := fun key => between clock (host.acquireStickyProfile key)
  wipeStickyProfile := fun key s => { s with outside := host.wipeStickyProfile key s.outside }
  startChromiumComposer := fun proxy => between clock (host.startChromiumComposer proxy)
  deadlinePassed := fun s => host.deadlinePassed s.outside
  signAt := fun message => between clock (host.signAt message)
  getQuote := fun reportData => between clock (host.getQuote reportData)

/-- A stage begins: `FetchConfig::default` has a schedule of its own. -/
def enterStage : Outside (Timed σ) Unit := fun s =>
  .ok () { s with
    pacer := .default
    log := []
    sending := none
    stages := s.logs }

/-- The scrapes of a crawl. -/
def pacedPages (lib : ScrapeLib) (delay : Nat) (clock : Clock σ) (host : Host σ) (env : Env)
    (text : String) (options : ScrapeOptions) : Prog (Timed σ) ScrapeProof := do
  outside enterStage
  scrape lib (host.timed lib.url delay clock) env text options

/-- The stages of map-lite. -/
def pacedMap (lib : ScrapeLib) (parseDocument : String → HtmlDocument) (delay : Nat)
    (clock : Clock σ) (host : Host σ) (passed : σ → Bool) (env : Env) (seed : String)
    (options : MapOptions) : Prog (Timed σ) MapResult :=
  let host := host.timed lib.url delay clock
  mapStages
    (do outside enterStage; mapSeed lib parseDocument host env seed options)
    (fun seeded => do outside enterStage; mapSitemaps lib host.net options seeded)
    (fun s => passed s.outside) options

/-! ## Invariant -/

/-- What was sent in the stage is spaced and the schedule knows it; what was sent in a stage before
    is spaced. -/
structure Timed.Inv (delay : Nat) (s : Timed σ) : Prop where
  kept : Kept delay s.pacer.lastTransmissionAt s.now s.sent
  stages : ∀ stage ∈ s.stages, Spaced delay stage

/-- What holds of a state holds of the other. -/
def Keeps (delay : Nat) (s t : Timed σ) : Prop := s.Inv delay → t.Inv delay

instance {delay : Nat} : IsPreorder (Timed σ) (Keeps delay) where
  refl _ h := h
  trans _ _ _ hst htu h := htu (hst h)

section

variable {delay : Nat} {clock : Clock σ} {s : Timed σ}

@[simp] theorem Timed.sent_close : s.close.sent = s.sent := List.append_nil _

theorem Timed.Inv.logs (h : s.Inv delay) : ∀ stage ∈ s.logs, Spaced delay stage := by
  intro stage hstage
  rcases List.mem_append.mp hstage with hstage | hstage
  · exact h.stages stage hstage
  · obtain rfl := List.mem_singleton.mp hstage
    exact h.kept.spaced

theorem Timed.start_inv (now : Nat) (outside : σ) : (Timed.start now outside).Inv delay where
  kept := kept_nil delay now
  stages := fun _ h => absurd h List.not_mem_nil

theorem Timed.Inv.close (h : s.Inv delay) : s.close.Inv delay where
  kept := by
    rw [Timed.sent_close]
    exact h.kept
  stages := h.stages

/-- The transmission that goes on is the last one, so that it may last longer. -/
theorem Timed.Inv.elapse (h : s.Inv delay) (duration insert : Nat) :
    (s.elapse duration insert).Inv delay := by
  unfold Timed.elapse
  cases hsending : s.sending with
  | none =>
    have hkept := h.kept
    rw [Timed.sent, hsending] at hkept
    exact ⟨hkept.later (Nat.le_add_right ..), h.stages⟩
  | some sent =>
    have hkept := h.kept
    rw [Timed.sent, hsending] at hkept
    refine ⟨?_, h.stages⟩
    -- its end and its moment in the schedule move together
    exact hkept.lasts (Nat.le_add_right ..) (by omega) (Nat.le_refl _)

/-- The outside is nothing to the invariant. -/
theorem lasting_keeps (x : Outside σ α) (s : Timed σ) :
    Keeps delay s (final (lasting clock x s)) := by
  intro h
  have hafter := h.elapse (clock.duration s.outside) (clock.lapse s.outside).insert
  unfold lasting
  simp only
  split
  · exact ⟨hafter.kept, hafter.stages⟩
  · exact ⟨hafter.kept, hafter.stages⟩

theorem between_keeps (x : Outside σ α) (s : Timed σ) :
    Keeps delay s (final (between clock x s)) :=
  fun h => lasting_keeps x s.close h.close

/-- A slot that is granted is a delay after what the schedule knows. -/
theorem Timed.pace_keeps {lib : UrlLib} (url : Url) (s : Timed σ) :
    Keeps delay s (final (Timed.pace lib delay clock url s)) := by
  intro h
  have hclose := h.close
  unfold Timed.pace
  simp only
  split
  · exact hclose
  · split
    · exact hclose
    · rename_i origin _
      have hlater := hclose.kept.later
        (Nat.le_add_right s.close.now (clock.lapse s.close.outside).locked)
      split
      · -- the slot is refused after the schedule was read
        exact ⟨hlater, hclose.stages⟩
      · rename_i start hgranted
        obtain ⟨hstart, hwait⟩ := OriginPacer.admit_eq_ok (hlater.past origin) hgranted
        rw [Timed.sent_close] at hlater
        let sent : Sent RenderOrigin := ⟨origin, start, start⟩
        refine ⟨?_, hclose.stages⟩
        exact hlater.send (show ∀ previous, _ = some previous → _ ≤ sent.start from hwait)
          (Nat.le_refl _) hstart (Nat.le_refl _)

/-- Chromium's calls are calls on the schedule. -/
theorem Timed.Inv.continues {lib : UrlLib} (hd : 0 < delay) (h : s.Inv delay)
    (calls : List (Call σ Unit)) : (s.continues lib delay calls).Inv delay := by
  have hclose : Paced.Inv delay s.close.toPaced := h.kept
  have hcalls : Paced.Inv delay
      (History.final (Call.run lib delay) calls s.close.toPaced) :=
    History.final_induction (P := Paced.Inv delay) (fun call _ hs => call.run_inv hd hs) calls
      hclose
  refine ⟨?_, h.stages⟩
  show Kept delay _ _ (_ ++ [])
  rw [List.append_nil]
  exact hcalls

theorem browsing_keeps {lib : UrlLib} (hd : 0 < delay) (x : Outside σ α) (s : Timed σ) :
    Keeps delay s (final (browsing lib delay clock x s)) :=
  fun h => between_keeps x _ (h.continues hd (clock.continuations s.outside))

theorem enterStage_keeps (s : Timed σ) : Keeps delay s (final (enterStage s)) := by
  intro h
  -- the schedule of the new stage knows nothing, and nothing was sent in it
  exact ⟨kept_nil delay s.now, h.logs⟩

/-- **Every operation** keeps the invariant. -/
theorem Host.timed_within {lib : UrlLib} (hd : 0 < delay) (host : Host σ) (permit : Permit) :
    (host.timed lib delay clock).Within (Keeps delay) permit where
  net :=
    { pace := Timed.pace_keeps
      dial := fun _ _ _ s _ => lasting_keeps _ s
      handshake := fun _ _ => lasting_keeps _
      exchange := fun _ s _ => lasting_keeps _ s }
  start := fun _ _ s _ => browsing_keeps hd _ s
  next := browsing_keeps hd _
  answer := fun _ => browsing_keeps hd _
  finish := browsing_keeps hd _
  provider := fun _ _ => between_keeps _
  acquireResidentialSlot := between_keeps _
  releaseResidentialSlot := fun _ h => ⟨h.kept, h.stages⟩
  acquireStickyProfile := fun _ => between_keeps _
  wipeStickyProfile := fun _ _ h => ⟨h.kept, h.stages⟩
  startChromiumComposer := fun _ => between_keeps _
  signAt := fun _ => between_keeps _
  getQuote := fun _ => between_keeps _

end

/-! ## One transmission -/

/-- An operation as a transmission: what comes of it, what it does, and how long it takes. -/
def Clock.transmission (clock : Clock σ) (x : Outside σ α) :
    Render.Transmission σ (Except Error α) := fun s =>
  (outcome (x s), final (x s), clock.duration s)

theorem outcome_lasting (clock : Clock σ) (x : Outside σ α) (s : Timed σ) :
    outcome (lasting clock x s) = outcome (x s.outside) := by
  unfold lasting
  simp only
  cases x s.outside with
  | ok a outside => rfl
  | error e outside => rfl

theorem final_lasting (clock : Clock σ) (x : Outside σ α) (s : Timed σ) :
    final (lasting clock x s) =
      { s.elapse (clock.duration s.outside) (clock.lapse s.outside).insert with
        outside := final (x s.outside) } := by
  unfold lasting
  simp only
  cases x s.outside with
  | ok a outside => rfl
  | error e outside => rfl

theorem Timed.close_of_idle {s : Timed σ} (hs : s.sending = none) : s.close = s := by
  obtain ⟨paced, sending, stages⟩ := s
  obtain rfl : sending = none := hs
  simp [Timed.close, Timed.sent]

/-- Without a transmission only time passes. -/
theorem close_lasting (clock : Clock σ) (x : Outside σ α) {s : Timed σ} (hs : s.sending = none) :
    (final (lasting clock x s)).close.toPaced = (s.perform (clock.transmission x)).2 := by
  obtain ⟨⟨now, pacer, o, log⟩, sending, stages⟩ := s
  obtain rfl : sending = none := hs
  rw [final_lasting]
  simp [Timed.elapse, Timed.close, Timed.sent, Paced.perform, Clock.transmission]

/-- **A slot and an operation after it** are a call of `transmit_with_pacing`. -/
theorem pace_lasting (lib : UrlLib) (delay : Nat) (clock : Clock σ) (url : Url)
    (x : Outside σ α) {s : Timed σ} (hs : s.sending = none) :
    let run := (Timed.pace lib delay clock url >>= fun _ => lasting clock x) s
    let call := Render.transmitWithPacing lib url delay (clock.deadline s.outside)
      (clock.lapse s.outside) (clock.transmission x) s.toPaced
    outcome run = call.1.bind id ∧ (final run).close.toPaced = call.2 := by
  have hclose : s.close = s := Timed.close_of_idle hs
  unfold Render.transmitWithPacing OriginPacer.transmit
  by_cases hd : delay = 0
  · -- nothing is scheduled
    have hpace : Timed.pace lib delay clock url s = .ok () s := by
      unfold Timed.pace
      rw [hclose]
      exact if_pos hd
    rw [bind_of_ok _ hpace, if_pos hd]
    exact ⟨outcome_lasting clock x s, close_lasting clock x hs⟩
  rw [if_neg hd]
  cases horigin : originForUrl lib url.toString with
  | none =>
    -- nor is a URL without an origin
    have hpace : Timed.pace lib delay clock url s = .ok () s := by
      unfold Timed.pace
      rw [hclose, horigin]
      exact if_neg hd
    rw [bind_of_ok _ hpace]
    exact ⟨outcome_lasting clock x s, close_lasting clock x hs⟩
  | some origin =>
    simp only
    cases hgranted : s.pacer.admit origin delay (clock.deadline s.outside) (clock.lapse s.outside)
        (s.now + (clock.lapse s.outside).locked) with
    | error e =>
      have hpace : Timed.pace lib delay clock url s =
          .error (.timeout "scrape deadline exceeded")
            { s with now := s.now + (clock.lapse s.outside).locked } := by
        unfold Timed.pace
        rw [hclose, horigin]
        simp only [hd, if_false, hgranted]
      rw [bind_of_error _ hpace]
      let refused := { s with now := s.now + (clock.lapse s.outside).locked }
      have hidle : refused.sending = none := hs
      exact ⟨rfl, congrArg Timed.toPaced (Timed.close_of_idle hidle)⟩
    | ok start =>
      have hpace : Timed.pace lib delay clock url s =
          .ok () { s with
            now := start
            pacer := s.pacer.insert origin start
            sending := some ⟨origin, start, start⟩ } := by
        unfold Timed.pace
        rw [hclose, horigin]
        simp only [hd, if_false, hgranted]
      rw [bind_of_ok _ hpace]
      refine ⟨outcome_lasting clock x _, ?_⟩
      rw [final_lasting]
      -- the moment that was put down at the start gives way to the one at the end
      simp [Timed.elapse, Timed.close, Timed.sent, Paced.perform, Clock.transmission,
        OriginPacer.insert_insert]

/-! ## Runs -/

/-- All that was sent. -/
def Timed.transmissions (s : Timed σ) : List (Sent RenderOrigin) := s.logs.flatten

/-- Nothing was sent yet. -/
def World.start (now : Nat) (outside : σ) : World (Timed σ) := ⟨.start now outside, [], []⟩

section

variable {lib : ScrapeLib} {parseDocument : String → HtmlDocument} {delay : Nat}
  {clock : Clock σ} {host : Host σ} {env : Env}

theorem pacedPages_moves (hd : 0 < delay) {text : String} {options : ScrapeOptions} :
    Moves World.outside (Keeps delay) (pacedPages lib delay clock host env text options) := by
  unfold pacedPages
  refine (moves_outside enterStage_keeps).bind fun _ => ?_
  exact scrape_moves (Host.timed_within hd host (Permit.of fun _ => True)) fun _ _ =>
    Session.permitted_all (fun _ _ _ => trivial) (fun _ => trivial) fun _ => trivial

theorem crawlRun_keeps (hd : 0 < delay) {raw : String} {options : Crawl.CrawlOptions} :
    Moves World.outside (Keeps delay)
      (Crawl.crawlRun lib.url parseDocument (pacedPages lib delay clock host env) raw options) := by
  unfold Crawl.crawlRun
  refine moves_ofResult.bind fun _ => ?_
  refine moves_ofResult.bind fun seed => ?_
  refine Moves.bind ?_ fun _ => moves_pure
  exact Crawl.runLoop_moves (F := fun _ => True) (fun _ _ _ => trivial)
    (fun _ _ _ => pacedPages_moves hd) _ _ _ _ fun _ _ => trivial

theorem pacedMap_keeps (hd : 0 < delay) {passed : σ → Bool} {raw : String}
    {options : MapOptions} :
    Moves World.outside (Keeps delay)
      (pacedMap lib parseDocument delay clock host passed env raw options) := by
  have hhost : (host.timed lib.url delay clock).Within (Keeps delay) (Permit.of fun _ => True) :=
    Host.timed_within hd host _
  refine mapStages_moves ?_ fun seeded => ?_
  · refine (moves_outside enterStage_keeps).bind fun _ => mapSeed_moves hhost fun _ _ _ _ => ?_
    exact Session.permitted_all (fun _ _ _ => trivial) (fun _ => trivial) fun _ => trivial
  · refine (moves_outside enterStage_keeps).bind fun _ => mapSitemaps_moves hhost.net ?_
    exact FetchConfig.permitted_of rfl (fun _ _ => trivial) fun _ _ => trivial

end

/-- What was sent is spaced exactly when the stages leave the delay between them themselves. -/
theorem Timed.Inv.transmissions {delay : Nat} {s : Timed σ} (h : s.Inv delay) :
    (Unshared s.logs → Spaced delay s.transmissions) ∧
      (Spaced delay s.transmissions ↔ Across delay s.logs) :=
  ⟨fun hunshared => (spaced_flatten h.logs).mpr hunshared.across, spaced_flatten h.logs⟩

/-- **The crawl delay in a run** of `crawl` or `map_lite`, whatever its pages link to, whatever it
    is answered and however long that takes: no two transmissions to one origin are closer than the
    delay, if no two stages of the run share an origin; otherwise exactly if the stages that share
    one leave the delay between them. -/
theorem runs_pace (lib : ScrapeLib) (parseDocument : String → HtmlDocument) (delay : Nat)
    (hd : 0 < delay) (clock : Clock σ) (host : Host σ) (env : Env) (raw : String) (now : Nat)
    (outside : σ) :
    (∀ options : Crawl.CrawlOptions,
      let s := (final (Crawl.crawlRun lib.url parseDocument
        (pacedPages lib delay clock host env) raw options (.start now outside))).outside
      (Unshared s.logs → Spaced delay s.transmissions) ∧
        (Spaced delay s.transmissions ↔ Across delay s.logs)) ∧
    ∀ (options : MapOptions) (passed : σ → Bool),
      let s := (final (pacedMap lib parseDocument delay clock host passed env raw options
        (.start now outside))).outside
      (Unshared s.logs → Spaced delay s.transmissions) ∧
        (Spaced delay s.transmissions ↔ Across delay s.logs) := by
  constructor
  · intro options
    have hmoves : Moves World.outside (Keeps delay) (Crawl.crawlRun lib.url parseDocument
        (pacedPages lib delay clock host env) raw options) := crawlRun_keeps hd
    exact (hmoves _ (Timed.start_inv now outside)).transmissions
  · intro options passed
    have hmoves : Moves World.outside (Keeps delay)
        (pacedMap lib parseDocument delay clock host passed env raw options) := pacedMap_keeps hd
    exact (hmoves _ (Timed.start_inv now outside)).transmissions

/-! ## Two pages of one host -/

/-- The shop with its second page. -/
def pagedShop : ScrapeLib :=
  { scriptedScrapeLib with
    url := UrlLib.ofTable [shopUrl "/", shopUrl "/2"] [((shopUrl "/", "/2"), shopUrl "/2")] }

theorem pagedShop_seed :
    validateUrl pagedShop.url (shopUrl "/").toString = .ok (shopUrl "/") := rfl

/-- Every page links to the second one. -/
def pagedDocument : HtmlDocument := [⟨"a", [("href", "/2")], "two"⟩]

/-- Two pages of the host of the shop. -/
def twoPages : Crawl.CrawlOptions where
  scrape := sourceOptions
  maxPages := 2
  maxDepth := 1
  allowDomain := some "shop.test"

/-- Nothing takes any time. -/
def stillClock : Clock Script where
  duration := fun _ => 0
  lapse := fun _ => {}
  deadline := fun _ => 30000
  continuations := fun _ => []

/-- Two replies of the shop. -/
def twoReplies : Script := ⟨[htmlReply "one", htmlReply "two"], []⟩

/-- A crawl of two pages, with a delay of a second. -/
def pacedCrawl (lib : ScrapeLib) (document : HtmlDocument) : Timed Script :=
  (final (Crawl.crawlRun lib.url (fun _ => document)
    (pacedPages lib 1000 stillClock scriptedHost fun _ => none) (shopUrl "/").toString twoPages
    (.start 0 twoReplies))).outside

/-- What the crawl sends is what its two scrapes send. -/
theorem pacedCrawl_logs {lib : ScrapeLib} {document : HtmlDocument} {next : Url}
    {logs : List (List (Sent RenderOrigin))}
    (hseed : validateUrl lib.url (shopUrl "/").toString = .ok (shopUrl "/"))
    (hallowed : Crawl.isAllowed next (shopUrl "/") (Crawl.allowHost twoPages) = true)
    (hnew : Crawl.normalizeVisitKey next ≠ Crawl.normalizeVisitKey (shopUrl "/"))
    (hreport : Crawl.pairReport lib.url (fun _ => document)
      (pacedPages lib 1000 stillClock scriptedHost fun _ => none) twoPages (shopUrl "/") next
      (fun w => w.outside.logs) (.start 0 twoReplies) = some ([next], logs)) :
    (pacedCrawl lib document).logs = logs :=
  Crawl.crawlRun_pair rfl rfl hseed (by decide) hallowed hnew hreport

/-- A request that takes no time. -/
def requestAt (port : Nat) : Sent RenderOrigin := ⟨⟨"http", "shop.test", port⟩, 0, 0⟩

/-- Both pages are asked for at once. -/
theorem crawlRun_unpaced :
    ¬ ∀ (lib : ScrapeLib) (parseDocument : String → HtmlDocument) (delay : Nat), 0 < delay →
      ∀ (clock : Clock Script) (host : Host Script) (env : Env) (raw : String)
        (options : Crawl.CrawlOptions) (now : Nat) (outside : Script),
      Spaced delay (final (Crawl.crawlRun lib.url parseDocument
        (pacedPages lib delay clock host env) raw options
        (.start now outside))).outside.transmissions := by
  intro hclaim
  have hspaced : Spaced 1000 (pacedCrawl pagedShop pagedDocument).transmissions :=
    hclaim pagedShop (fun _ => pagedDocument) 1000 (by decide) stillClock scriptedHost
      (fun _ => none) (shopUrl "/").toString twoPages 0 twoReplies
  have hlogs : (pacedCrawl pagedShop pagedDocument).logs =
      [[], [requestAt 80], [requestAt 80]] :=
    pacedCrawl_logs pagedShop_seed (by decide : Crawl.isAllowed (shopUrl "/2") _ _ = true)
      (by decide) (by decide +kernel)
  rw [Timed.transmissions, hlogs] at hspaced
  have hapart : 0 + 1000 ≤ 0 :=
    List.rel_of_pairwise_cons hspaced (List.mem_singleton_self _) rfl
  exact absurd hapart (by decide)

/-- A page on another port is asked for at once as well, but it is another origin. -/
theorem runs_pace_ports :
    Spaced 1000 (pacedCrawl Crawl.portShop Crawl.portDocument).transmissions := by
  have hlogs : (pacedCrawl Crawl.portShop Crawl.portDocument).logs =
      [[], [requestAt 80], [requestAt 8080]] :=
    pacedCrawl_logs Crawl.portShop_seed (by decide : Crawl.isAllowed Crawl.portUrl _ _ = true)
      (by decide) (by decide +kernel)
  refine ((runs_pace Crawl.portShop (fun _ => Crawl.portDocument) 1000 (by decide) stillClock
    scriptedHost (fun _ => none) (shopUrl "/").toString 0 twoReplies).1 twoPages).1 ?_
  show Unshared (pacedCrawl Crawl.portShop Crawl.portDocument).logs
  rw [hlogs]
  simp [Unshared, requestAt]

end Basecrawl.Core
