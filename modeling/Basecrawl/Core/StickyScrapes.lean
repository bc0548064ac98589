/-
  Scrapes that run at the same time, each with a sticky profile.

  A scrape acquires the profile of its key, uses it for a while, and its guard wipes it.  The
  scrapes share the registry and the disk; a schedule interleaves their steps.  The profile of a
  running scrape is there as long as the scrapes are pairwise compatible (`profiles_live`); two
  scrapes with one key are enough to lose one (`live_profile_wiped`).
-/
import Basecrawl.Core.Scrape
import Basecrawl.Core.Sticky
import Basecrawl.Lib.Threads

namespace Basecrawl.Core.Sticky

open Paths Threads

/-- Where a scrape stands, with its key: before the acquisition, with its profile and the turns it
    will still use it for, after the wipe, or refused. -/
inductive Scraper where
  | starting (options : ScrapeOptions) (turns : Nat)
  | browsing (options : ScrapeOptions) (dir : String) (turns : Nat)
  | finished (options : ScrapeOptions)
  | failed (options : ScrapeOptions) (error : StealthPolicyError)

def Scraper.options : Scraper → ScrapeOptions
  | .starting options _ => options
  | .browsing options _ _ => options
  | .finished options => options
  | .failed options _ => options

variable {σ β : Type}

/-- One step of a scrape; `browse` is what Chromium does on the disk with a profile. -/
def scraperStep (site : Site σ β) (browse : Location → σ → σ) (p : Profiles σ) :
    Scraper → Option (Profiles σ × Scraper)
  | .starting options turns =>
      match acquireStickyProfile site (stickyWipeKey options) p with
      | (.ok dir, p) => some (p, .browsing options dir turns)
      | (.error error, p) => some (p, .failed options error)
  | .browsing options dir (turns + 1) =>
      some ({ p with disk := browse (site.locate dir) p.disk }, .browsing options dir turns)
  | .browsing options _ 0 =>
      -- the drop of `StickyProfileWipeGuard`
      some (if options.wipeProfileOnComplete then wipeStickyProfile site (stickyWipeKey options) p
        else p, .finished options)
  | .finished _ => none
  | .failed _ _ => none

/-- The scrapes before any of them has started. -/
def scrapers (scrapes : List (ScrapeOptions × Nat)) (disk : σ) : Pool (Profiles σ) Scraper where
  shared := started disk
  threads := scrapes.map fun (options, turns) => .starting options turns

/-- A browser at work keeps its own profile, and every directory outside it. -/
def BrowsesInside (site : Site σ β) (browse : Location → σ → σ) : Prop :=
  ∀ loc other s, site.disk.holdsDir other s = true → (loc = other ∨ ¬ loc <+: other) →
    site.disk.holdsDir other (browse loc s) = true

/-- The name of the profile of a scrape. -/
def profileName (digests : Digests) (options : ScrapeOptions) : String :=
  normalizeTaskKey digests (stickyWipeKey options)

/-- What one scrape does with its profile spares the profile of another: it works in the same
    directory or in one of its own, and wipes neither the other one nor all of them. -/
def Spares (digests : Digests) (a b : ScrapeOptions) : Prop :=
  (profileName digests a = profileName digests b ∨ Ordinary (profileName digests a)) ∧
    (a.wipeProfileOnComplete = true →
      profileName digests a ≠ profileName digests b ∧ profileName digests a ≠ "__all__")

instance (digests : Digests) (a b : ScrapeOptions) : Decidable (Spares digests a b) :=
  inferInstanceAs (Decidable ((_ ∨ _) ∧ (_ → _)))

/-- Neither of two scrapes disturbs the profile of the other. -/
def Compatible (digests : Digests) (a b : ScrapeOptions) : Prop :=
  Spares digests a b ∧ Spares digests b a

instance (digests : Digests) (a b : ScrapeOptions) : Decidable (Compatible digests a b) :=
  inferInstanceAs (Decidable (_ ∧ _))

/-- Every running scrape has the directory it acquired. -/
def ProfilesLive (site : Site σ β) (pool : Pool (Profiles σ) Scraper) : Prop :=
  ∀ options dir turns, Scraper.browsing options dir turns ∈ pool.threads →
    site.disk.holdsDir (site.locate dir) pool.shared.disk = true

/-- What holds between any two steps. -/
structure Live (site : Site σ β) (pool : Pool (Profiles σ) Scraper) : Prop where
  registered : Registered site pool.shared
  compatible : (pool.threads.map Scraper.options).Pairwise (Compatible site.digests)
  home : ∀ options dir turns, Scraper.browsing options dir turns ∈ pool.threads →
    site.locate dir = site.home (stickyWipeKey options)
  live : ProfilesLive site pool

variable {site : Site σ β} {browse : Location → σ → σ}

/-- Everything a scrape can do in one step. -/
theorem scraperStep_cases {p p' : Profiles σ} {t t' : Scraper}
    (h : scraperStep site browse p t = some (p', t')) :
    t'.options = t.options ∧
    ((∃ options turns dir, t = .starting options turns ∧ t' = .browsing options dir turns ∧
        acquireStickyProfile site (stickyWipeKey options) p = (.ok dir, p')) ∨
      (∃ options turns error, t = .starting options turns ∧ t' = .failed options error ∧
        acquireStickyProfile site (stickyWipeKey options) p = (.error error, p')) ∨
      (∃ options dir turns, t = .browsing options dir (turns + 1) ∧
        t' = .browsing options dir turns ∧
        p' = { p with disk := browse (site.locate dir) p.disk }) ∨
      (∃ options dir, t = .browsing options dir 0 ∧ t' = .finished options ∧
        ((options.wipeProfileOnComplete = true ∧
          p' = wipeStickyProfile site (stickyWipeKey options) p) ∨ p' = p))) := by
  cases t with
  | starting options turns =>
    cases hacquire : acquireStickyProfile site (stickyWipeKey options) p with
    | mk result q =>
      cases result with
      | ok dir =>
        simp only [scraperStep, hacquire, Option.some.injEq, Prod.mk.injEq] at h
        obtain ⟨rfl, rfl⟩ := h
        exact ⟨rfl, Or.inl ⟨options, turns, dir, rfl, rfl, hacquire⟩⟩
      | error error =>
        simp only [scraperStep, hacquire, Option.some.injEq, Prod.mk.injEq] at h
        obtain ⟨rfl, rfl⟩ := h
        exact ⟨rfl, Or.inr (Or.inl ⟨options, turns, error, rfl, rfl, hacquire⟩)⟩
  | browsing options dir turns =>
    cases turns with
    | zero =>
      simp only [scraperStep, Option.some.injEq, Prod.mk.injEq] at h
      obtain ⟨rfl, rfl⟩ := h
      refine ⟨rfl, Or.inr (Or.inr (Or.inr ⟨options, dir, rfl, rfl, ?_⟩))⟩
      by_cases hwipe : options.wipeProfileOnComplete = true
      · rw [if_pos hwipe]
        exact Or.inl ⟨hwipe, rfl⟩
      · rw [if_neg hwipe]
        exact Or.inr rfl
    | succ turns =>
      simp only [scraperStep, Option.some.injEq, Prod.mk.injEq] at h
      obtain ⟨rfl, rfl⟩ := h
      exact ⟨rfl, Or.inr (Or.inr (Or.inl ⟨options, dir, turns, rfl, rfl, rfl⟩))⟩
  | finished options => cases h
  | failed options error => cases h

/-- Where a scrape works, next to the profile it spares. -/
theorem home_of_spares {a b : ScrapeOptions} (h : Spares site.digests a b) :
    site.home (stickyWipeKey a) = site.home (stickyWipeKey b) ∨
      ¬ site.home (stickyWipeKey a) <+: site.home (stickyWipeKey b) := by
  rw [home_eq, home_eq]
  by_cases hname : profileName site.digests a = profileName site.digests b
  · exact Or.inl (congrArg (descend (site.locate site.root)) hname)
  · exact Or.inr (not_prefix_descend (h.1.resolve_left hname) hname)

/-- What a scrape wipes, next to the profile it spares. -/
theorem wiped_of_spares {a b : ScrapeOptions} (h : Spares site.digests a b)
    (hwipe : a.wipeProfileOnComplete = true) :
    site.key (stickyWipeKey a) ≠ "__all__" ∧
      ¬ site.home (stickyWipeKey a) <+: site.home (stickyWipeKey b) := by
  obtain ⟨hne, hall⟩ := h.2 hwipe
  refine ⟨hall, ?_⟩
  rw [home_eq, home_eq]
  exact not_prefix_descend (h.1.resolve_left hne) hne

/-- The scrape that moves spares every other one. -/
theorem spares_of_mem {before after : List Scraper} {t u : Scraper}
    (h : ((before ++ t :: after).map Scraper.options).Pairwise (Compatible site.digests))
    (hu : u ∈ before ∨ u ∈ after) : Spares site.digests t.options u.options := by
  rw [List.map_append, List.map_cons, List.pairwise_append, List.pairwise_cons] at h
  rcases hu with hu | hu
  · exact (h.2.2 _ (List.mem_map_of_mem hu) _ List.mem_cons_self).2
  · exact (h.2.1.1 _ (List.mem_map_of_mem hu)).1

/-- What a step leaves of the directory of another scrape. -/
theorem keeps_other (hlawful : site.disk.Lawful) (hbrowse : BrowsesInside site browse)
    {p p' : Profiles σ} {before after : List Scraper} {t t' : Scraper}
    (hstep : scraperStep site browse p t = some (p', t'))
    (h : Live site ⟨p, before ++ t :: after⟩) {other : ScrapeOptions}
    (hspares : Spares site.digests t.options other)
    (hdir : site.disk.holdsDir (site.home (stickyWipeKey other)) p.disk = true) :
    site.disk.holdsDir (site.home (stickyWipeKey other)) p'.disk = true := by
  obtain ⟨-, hcases⟩ := scraperStep_cases hstep
  rcases hcases with ⟨options, turns, dir, rfl, rfl, hacquire⟩ |
    ⟨options, turns, error, rfl, rfl, hacquire⟩ | ⟨options, dir, turns, rfl, rfl, rfl⟩ |
    ⟨options, dir, rfl, rfl, hwipe⟩
  · have hkept := (acquireStickyProfile_acquires (stickyWipeKey options) h.registered).keeps
      hlawful _ hdir
    rw [hacquire] at hkept
    exact hkept
  · have hkept := (acquireStickyProfile_acquires (stickyWipeKey options) h.registered).keeps
      hlawful _ hdir
    rw [hacquire] at hkept
    exact hkept
  · refine hbrowse _ _ _ hdir ?_
    rw [h.home options dir (turns + 1) List.mem_append_cons_self]
    exact home_of_spares hspares
  · rcases hwipe with ⟨henabled, rfl⟩ | rfl
    · have hregistered : Registered site p := h.registered
      replace hspares : Spares site.digests options other := hspares
      obtain ⟨hall, hprefix⟩ := wiped_of_spares hspares henabled
      have hread := (wipeStickyProfile_spec hall hregistered).2 hlawful _ hprefix
      unfold Disk.holdsDir at hdir ⊢
      rw [hread]
      exact hdir
    · exact hdir

theorem live_step (hlawful : site.disk.Lawful) (hbrowse : BrowsesInside site browse)
    {p p' : Profiles σ} {before after : List Scraper} {t t' : Scraper}
    (hstep : scraperStep site browse p t = some (p', t'))
    (h : Live site ⟨p, before ++ t :: after⟩) : Live site ⟨p', before ++ t' :: after⟩ := by
  obtain ⟨hoptions, hcases⟩ := scraperStep_cases hstep
  -- a profile another scraper browses is spared by this step, whichever it is
  have hothers : ∀ options dir turns, (Scraper.browsing options dir turns ∈ before ∨
      Scraper.browsing options dir turns ∈ after) →
      Scraper.browsing options dir turns ∈ before ++ t :: after →
      site.locate dir = site.home (stickyWipeKey options) ∧
        site.disk.holdsDir (site.locate dir) p'.disk = true := by
    intro options dir turns hmem hold
    have hhome := h.home options dir turns hold
    refine ⟨hhome, ?_⟩
    have hdir := h.live options dir turns hold
    rw [hhome] at hdir ⊢
    have hspares := spares_of_mem h.compatible hmem
    exact keeps_other hlawful hbrowse hstep h hspares hdir
  -- a scraper that browses afterwards has just acquired, or was browsing already
  have hnew : ∀ options dir turns, t' = .browsing options dir turns →
      site.locate dir = site.home (stickyWipeKey options) ∧
        site.disk.holdsDir (site.locate dir) p'.disk = true := by
    rintro options dir turns rfl
    rcases hcases with ⟨options', turns', dir', rfl, heq, hacquire⟩ |
      ⟨_, _, _, _, hbad, _⟩ | ⟨options', dir', turns', rfl, heq, rfl⟩ | ⟨_, _, _, hbad, _⟩
    · cases heq
      have hacquires := acquireStickyProfile_acquires (stickyWipeKey options) h.registered
      rw [hacquire] at hacquires
      refine ⟨?_, hacquires.exists_dir hlawful dir rfl⟩
      rw [hacquires.dir_eq dir rfl]
      rfl
    · cases hbad
    · cases heq
      have hmem : Scraper.browsing options dir (turns + 1) ∈
          before ++ Scraper.browsing options dir (turns + 1) :: after := List.mem_append_cons_self
      exact ⟨h.home _ _ _ hmem, hbrowse _ _ _ (h.live _ _ _ hmem) (Or.inl rfl)⟩
    · cases hbad
  -- only acquiring and wiping touch the registry
  have hregistered : Registered site p' := by
    rcases hcases with ⟨options, turns, dir, rfl, rfl, hacquire⟩ |
      ⟨options, turns, error, rfl, rfl, hacquire⟩ | ⟨options, dir, turns, rfl, rfl, rfl⟩ |
      ⟨options, dir, rfl, rfl, hwipe⟩
    · have hacquires := acquireStickyProfile_acquires (stickyWipeKey options) h.registered
      rw [hacquire] at hacquires
      exact hacquires.registered
    · have hacquires := acquireStickyProfile_acquires (stickyWipeKey options) h.registered
      rw [hacquire] at hacquires
      exact hacquires.registered
    · exact h.registered
    · rcases hwipe with ⟨-, rfl⟩ | rfl
      · exact wipeStickyProfile_registered _ h.registered
      · exact h.registered
  have hall : ∀ options dir turns, Scraper.browsing options dir turns ∈ before ++ t' :: after →
      site.locate dir = site.home (stickyWipeKey options) ∧
        site.disk.holdsDir (site.locate dir) p'.disk = true := by
    intro options dir turns hmem
    rcases mem_replace (t := t) hmem with heq | ⟨hother, hold⟩
    · exact hnew options dir turns heq.symm
    · exact hothers options dir turns hother hold
  refine ⟨hregistered, ?_, fun options dir turns hmem => (hall options dir turns hmem).1,
    fun options dir turns hmem => (hall options dir turns hmem).2⟩
  have hcompatible := h.compatible
  rw [List.map_append, List.map_cons] at hcompatible ⊢
  rw [hoptions]
  exact hcompatible

/-- **Live profiles.**  Scrapes that are pairwise compatible never lose a profile to each other, in
    any interleaving. -/
theorem profiles_live (site : Site σ β) (hlawful : site.disk.Lawful)
    (browse : Location → σ → σ) (hbrowse : BrowsesInside site browse)
    (scrapes : List (ScrapeOptions × Nat))
    (hcompatible : (scrapes.map Prod.fst).Pairwise (Compatible site.digests))
    (disk : σ) (schedule : List Nat) :
    ProfilesLive site (run (scraperStep site browse) schedule (scrapers scrapes disk)) := by
  have hstart : Live site (scrapers scrapes disk) := by
    have hnone : ∀ options dir turns,
        Scraper.browsing options dir turns ∉ (scrapers scrapes disk).threads := by
      intro options dir turns hmem
      obtain ⟨⟨_, _⟩, -, hbad⟩ := List.mem_map.mp hmem
      cases hbad
    refine ⟨registered_started site disk, ?_, fun _ _ _ hmem => absurd hmem (hnone _ _ _),
      fun _ _ _ hmem => absurd hmem (hnone _ _ _)⟩
    show ((scrapes.map fun (options, turns) => Scraper.starting options turns).map
      Scraper.options).Pairwise _
    rw [List.map_map]
    exact hcompatible
  exact (run_induction (fun _ _ _ _ _ _ hstep hlive => live_step hlawful hbrowse hstep hlive)
    hstart schedule).live

/-- The options of a scrape for one task. -/
def taskOptions (taskId : String) : ScrapeOptions := { taskId := some taskId }

/-- Two tasks, one of them wiped while the other is still browsing. -/
theorem profiles_live_two_tasks :
    ProfilesLive (freshSite "/p") (run (scraperStep (freshSite "/p") fun _ s => s) [0, 1, 1, 0]
      (scrapers [(taskOptions "task-A", 1), (taskOptions "task-B", 0)] [])) :=
  profiles_live (freshSite "/p") listDisk_lawful (fun _ s => s) (fun _ _ _ h _ => h)
    [(taskOptions "task-A", 1), (taskOptions "task-B", 0)] (by decide) [] [0, 1, 1, 0]

/-- Two scrapes with one set of options, as two workers of a batch have: the first wipes the profile
    the second is browsing with. -/
theorem live_profile_wiped :
    ¬ ∀ (site : Site (List Location) Bool), site.disk.Lawful →
      ∀ (browse : Location → List Location → List Location), BrowsesInside site browse →
      ∀ (scrapes : List (ScrapeOptions × Nat)) (disk : List Location) (schedule : List Nat),
        ProfilesLive site (run (scraperStep site browse) schedule (scrapers scrapes disk)) := by
  intro hclaim
  have hlive := hclaim (freshSite "/p") listDisk_lawful (fun _ s => s) (fun _ _ _ h _ => h)
    [(taskOptions "task", 0), (taskOptions "task", 0)] [] [0, 1, 0]
  have hgone := hlive (taskOptions "task") "/p/task" 0 (List.mem_cons_of_mem _ List.mem_cons_self)
  exact absurd hgone (by decide)

end Basecrawl.Core.Sticky
