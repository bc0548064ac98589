/-
  What a hard scrape shows of a challenge.

  Page one is solved or refused wherever its HTML comes from.  The pages after it are never read
  for a challenge, so whether the result is clean is up to them: `scrape_unlocked_iff`.
-/
import Basecrawl.Core.Path

namespace Basecrawl.Core

open Text Outcome Run

/-- A page that pagination shows is unlocked exactly when it is no challenge. -/
theorem unlocked_shown_iff {document : Document} :
    Unlocked document.shown ↔
      looksLikeChallengeInterstitial document.source document.statusCode = false := by
  show (looksLikeChallengeInterstitial document.source document.statusCode = true →
    false = true) ↔ _
  constructor
  · intro hunlocked
    by_contra hlooks
    have happlied : false = true := hunlocked (Bool.eq_true_of_not_eq_false hlooks)
    cases happlied
  · intro hclear hlooks
    rw [hclear] at hlooks
    cases hlooks

/-- On the hard path only the pages after the first can show a challenge, and only in markdown. -/
theorem Scraped.unlocked_iff {options : ScrapeOptions} {formats : List Format}
    {proof : ScrapeProof} {es : List Event} {first : Document} {later : List Document}
    {ones : List Page} (h : Scraped true options formats proof es first later ones) :
    (∀ page ∈ surfacedPages es, Unlocked page) ↔
      .markdown ∉ formats ∨ ∀ document ∈ later,
        looksLikeChallengeInterstitial document.source document.statusCode = false := by
  rw [h.logged.surfacedPages, List.forall_mem_append,
    and_iff_right (h.unlocked rfl)]
  by_cases hmarkdown : formats.contains .markdown = true
  · rw [if_pos hmarkdown, List.forall_mem_map,
      or_iff_right (not_not_intro (List.contains_iff_mem.mp hmarkdown))]
    exact forall₂_congr fun document _ => unlocked_shown_iff
  · rw [if_neg hmarkdown]
    refine iff_of_true ?_ (Or.inl fun hmem => hmarkdown (List.contains_iff_mem.mpr hmem))
    exact fun page hp => absurd hp List.not_mem_nil

variable {σ : Type}

/-- **Challenges on the hard path, exactly.**  In a hard run that returns a proof no challenge was
    shown without a token if and only if markdown was not asked for, or no page that came back for a
    next link was a challenge. -/
theorem scrape_unlocked_iff (lib : ScrapeLib) (host : Host σ) (env : Env) (rawUrl : String)
    (options : ScrapeOptions) (s : σ) (proof : ScrapeProof) (w : World σ)
    (h : scrape lib host env rawUrl options ⟨s, [], []⟩ = .ok proof w) :
    ∃ plan first later, planRequest lib.plan env rawUrl options = .ok plan ∧
      documents w.trace = first :: later ∧
      (hardRequired options plan = true →
        ((∀ page ∈ surfacedPages w.trace, Unlocked page) ↔
          .markdown ∉ effectiveFormats options.formats ∨ ∀ document ∈ later,
            looksLikeChallengeInterstitial document.source document.statusCode = false)) := by
  obtain ⟨es, htrace, plan, first, later, ones, hplan, hscraped⟩ := scrape_yields.of_eq_ok h
  rw [show w.trace = es from htrace]
  refine ⟨plan, first, later, hplan, hscraped.logged.documents, ?_⟩
  intro hhard
  rw [hhard] at hscraped
  exact hscraped.unlocked_iff

/-! ## A challenge on page two -/

/-- A scrape that is forced through the browser. -/
def forcedOptions : ScrapeOptions :=
  { formats := [.markdown], robotsPolicy := .ignore, forceBrowser := true }

/-- What a managed challenge looks like. -/
def challengeHtml : String :=
  "<title>Just a moment...</title><div class=\"cf-challenge\">Checking your browser</div>"

/-- The pages a run has shown. -/
def shownPages : EStateM.Result Error (World Script) ScrapeProof → Option (List Page)
  | .ok _ w => some (surfacedPages w.trace)
  | .error _ _ => none

/-- A forced scrape is hard. -/
theorem hardRequired_forced {options : ScrapeOptions} {plan : RequestPlan}
    (h : options.forceBrowser = true) : hardRequired options plan = true := by
  rw [hardRequired, requiresChromiumHardPath, hardDecision, h, Bool.true_or, Bool.true_or]

/-- Chromium gets a challenge for the second page. -/
def challengedScrape : EStateM.Result Error (World Script) ScrapeProof :=
  scriptedScrape { forcedOptions with followPagination := true }
    ⟨[firstReply, htmlReply "<h1>two</h1>"],
      ["<h1>one</h1><a rel=\"next\" href=\"/2\">more</a>", challengeHtml]⟩

/-- The same pages as HTML. -/
def forcedScrape : EStateM.Result Error (World Script) ScrapeProof :=
  scriptedScrape { forcedOptions with formats := [.html], followPagination := true }
    ⟨[firstReply, htmlReply "<h1>two</h1>"],
      ["<h1>one</h1><a rel=\"next\" href=\"/2\">more</a>", challengeHtml]⟩

/-- A hard scrape succeeds with a challenge as the second page of its markdown. -/
theorem scrape_shows_challenge :
    ∃ proof w, challengedScrape = .ok proof w ∧
      (∀ plan, hardRequired { forcedOptions with followPagination := true } plan = true) ∧
      ¬ ∀ page ∈ surfacedPages w.trace, Unlocked page := by
  have hshown : (shownPages challengedScrape).map (·.getLast?) = some (some
      { html := challengeHtml, statusCode := 200, tokenApplied := false }) := by
    decide +kernel
  cases hrun : challengedScrape with
  | error e w =>
    rw [hrun] at hshown
    cases hshown
  | ok proof w =>
    refine ⟨proof, w, rfl, fun _ => hardRequired_forced rfl, ?_⟩
    intro hall
    rw [hrun, shownPages, Option.map_some, Option.some_inj] at hshown
    have hlooks : looksLikeChallengeInterstitial challengeHtml 200 = true := by decide +kernel
    have happlied : false = true := hall _ (List.mem_of_getLast? hshown) hlooks
    cases happlied

/-- Without markdown the second page is not shown. -/
theorem scrape_shows_unlocked :
    ∃ proof w, forcedScrape = .ok proof w ∧ ∀ page ∈ surfacedPages w.trace, Unlocked page := by
  have hshown : (shownPages forcedScrape).isSome = true := by decide +kernel
  cases hrun : forcedScrape with
  | error e w =>
    rw [hrun] at hshown
    cases hshown
  | ok proof w =>
    obtain ⟨plan, first, later, -, -, hhard⟩ := scrape_unlocked_iff _ _ _ _ _ _ _ _ hrun
    exact ⟨proof, w, rfl, (hhard (hardRequired_forced rfl)).mpr (Or.inl (by decide))⟩

end Basecrawl.Core
