/-
  The guard on the requests of a tab.

  Each paused request runs beside the others, beside the responses and the data events, and beside
  the direct fetches that use the same schedule of origins; a schedule says which of them moves
  next.

  1. **Everybody** — `partyStep`, and what one step of anybody does (`Effect`).
  2. **Runs** — `guard_keeps`: what was sent on is within the caps, was permitted, is what the
     guard makes of the paused request, and keeps the delay; nobody is left waiting, and Chromium
     hears of every paused request.

  The crux is that `Effect` holds of the other callbacks and the direct fetches as well, so the
  ledger of the paused requests is the ledger of the whole tab.
-/
import Basecrawl.Render.Interception

namespace Basecrawl.Render

open Text Basecrawl.Core Panic Threads Spacing

/-! ## Everybody -/

/-- The steps ahead of a callback, at most. -/
def Handler.ahead : Handler → Nat
  | .response _ => 8
  | .metering _ => 7
  | .beginning _ => 6
  | .materializing _ => 5
  | .reading _ _ => 4
  | .charging _ _ _ => 3
  | .updating _ _ _ | .exhausting _ | .data _ => 2
  | .admission | .refusing _ | .finishing _ _ | .aborting _ => 1
  | .admitted _ | .passed _ | .settled _ _ | .received _ _ => 0

/-- A callback never gives an admission back, and comes closer to its end. -/
theorem handlerStep_comes {decode : String → Option Bytes} {s s' : Shared} {t t' : Handler}
    (h : handlerStep decode s t = some (s', t')) :
    s.budget.usage.subresourceCount ≤ s'.budget.usage.subresourceCount ∧ t'.ahead < t.ahead := by
  cases t with
  | admission =>
    simp only [handlerStep, Option.some.injEq, Prod.mk.injEq] at h
    obtain ⟨rfl, rfl⟩ := h
    rcases s.budget.admitRequest_cases with hgranted | ⟨-, hgranted⟩
    · rw [hgranted]
      exact ⟨Nat.le_refl _, (by decide : 0 < 1)⟩
    · rw [hgranted]
      exact ⟨Nat.le_succ _, (by decide : 0 < 1)⟩
  | response paused =>
    simp only [handlerStep] at h
    split at h
    · obtain ⟨rfl, rfl⟩ := Prod.mk.inj (Option.some.inj h)
      exact ⟨Nat.le_refl _, (by decide : 1 < 8)⟩
    · obtain ⟨rfl, rfl⟩ := Prod.mk.inj (Option.some.inj h)
      exact ⟨Nat.le_refl _, (by decide : 7 < 8)⟩
  | metering paused =>
    simp only [handlerStep] at h
    split at h
    · obtain ⟨rfl, rfl⟩ := Prod.mk.inj (Option.some.inj h)
      rw [insertMeter_budget]
      exact ⟨Nat.le_refl _, (by decide : 6 < 7)⟩
    · obtain ⟨rfl, rfl⟩ := Prod.mk.inj (Option.some.inj h)
      rw [insertMeter_budget]
      exact ⟨Nat.le_refl _, (by decide : 0 < 7)⟩
  | materializing paused =>
    simp only [handlerStep] at h
    split at h
    · obtain ⟨rfl, rfl⟩ := Prod.mk.inj (Option.some.inj h)
      exact ⟨Nat.le_refl _, (by decide : 2 < 5)⟩
    · obtain ⟨rfl, rfl⟩ := Prod.mk.inj (Option.some.inj h)
      exact ⟨Nat.le_refl _, (by decide : 4 < 5)⟩
  | reading paused observed =>
    simp only [handlerStep] at h
    split at h
    · obtain ⟨rfl, rfl⟩ := Prod.mk.inj (Option.some.inj h)
      exact ⟨Nat.le_refl _, (by decide : 2 < 4)⟩
    · obtain ⟨rfl, rfl⟩ := Prod.mk.inj (Option.some.inj h)
      exact ⟨Nat.le_refl _, (by decide : 3 < 4)⟩
  | charging paused observed already =>
    simp only [handlerStep] at h
    rcases s.budget.chargeRemainingBytes_cases observed already with hcharge | ⟨-, hcharge⟩
    · rw [hcharge] at h
      obtain ⟨rfl, rfl⟩ := Prod.mk.inj (Option.some.inj h)
      exact ⟨Nat.le_refl _, (by decide : 2 < 3)⟩
    · rw [hcharge] at h
      obtain ⟨rfl, rfl⟩ := Prod.mk.inj (Option.some.inj h)
      exact ⟨Nat.le_refl _, (by decide : 2 < 3)⟩
  | updating paused observed charged =>
    obtain ⟨rfl, rfl⟩ := Prod.mk.inj (Option.some.inj h)
    rw [raiseMeter_budget]
    exact ⟨Nat.le_refl _, (by decide : 1 < 2)⟩
  | data event =>
    simp only [handlerStep, Option.some.injEq] at h
    rcases receive_cases s event with ⟨-, hreceive⟩ | hreceive | hreceive | ⟨_, -, -, hreceive⟩
    · obtain ⟨rfl, rfl⟩ := Prod.mk.inj (hreceive.symm.trans h)
      exact ⟨Nat.le_refl _, (by decide : 0 < 2)⟩
    · obtain ⟨rfl, rfl⟩ := Prod.mk.inj (hreceive.symm.trans h)
      exact ⟨Nat.le_refl _, (by decide : 1 < 2)⟩
    · obtain ⟨rfl, rfl⟩ := Prod.mk.inj (hreceive.symm.trans h)
      exact ⟨Nat.le_refl _, (by decide : 1 < 2)⟩
    · obtain ⟨rfl, rfl⟩ := Prod.mk.inj (hreceive.symm.trans h)
      exact ⟨Nat.le_refl _, (by decide : 0 < 2)⟩
  -- the flag and the counter of bodies are not the count
  | refusing paused =>
    obtain ⟨rfl, rfl⟩ := Prod.mk.inj (Option.some.inj h)
    exact ⟨Nat.le_refl _, (by decide : 0 < 1)⟩
  | beginning paused =>
    obtain ⟨rfl, rfl⟩ := Prod.mk.inj (Option.some.inj h)
    rw [RenderResourceBudget.begin_usage]
    exact ⟨Nat.le_refl _, (by decide : 5 < 6)⟩
  | exhausting paused =>
    obtain ⟨rfl, rfl⟩ := Prod.mk.inj (Option.some.inj h)
    exact ⟨Nat.le_refl _, (by decide : 1 < 2)⟩
  | finishing paused charged =>
    obtain ⟨rfl, rfl⟩ := Prod.mk.inj (Option.some.inj h)
    rw [RenderResourceBudget.finish_usage]
    exact ⟨Nat.le_refl _, (by decide : 0 < 1)⟩
  | aborting event =>
    obtain ⟨rfl, rfl⟩ := Prod.mk.inj (Option.some.inj h)
    exact ⟨Nat.le_refl _, (by decide : 0 < 1)⟩
  | admitted accepted => cases h
  | passed paused => cases h
  | settled paused charged => cases h
  | received event charged => cases h

/-- A direct fetch, which sends nothing to Chromium. -/
structure DirectFetch where
  url : Url
  deadline : Nat
  lapse : Lapse
  duration : Nat

/-- Its transmission. -/
def DirectFetch.transmission (fetch : DirectFetch) : Transmission (List Command) Unit :=
  fun commands => ((), commands, fetch.duration)

/-- Who shares the state: the paused requests, the other callbacks, and the direct fetches. -/
inductive Party where
  | request (t : Interception)
  | callback (t : Handler)
  | direct (fetch : DirectFetch)
  | fetched (fetch : DirectFetch) (result : Except Error Unit)

/-- One atomic step of anybody. -/
def partyStep (guard : ResourceGuard) (s : Guarded) : Party → Option (Guarded × Party)
  | .request t => (interceptionStep guard s t).map fun next => (next.1, .request next.2)
  | .callback t =>
      (handlerStep guard.decode s.accounts t).map fun next =>
        ({ s with accounts := next.1 }, .callback next.2)
  | .direct fetch =>
      match transmitWithPacing guard.lib fetch.url guard.crawlDelay fetch.deadline fetch.lapse
          fetch.transmission s.paced with
      | (result, paced) => some ({ s with paced := paced }, .fetched fetch result)
  | .fetched _ _ => none

namespace Party

/-- A paused request that stands so. -/
def isRequest (p : Interception → Bool) : Party → Bool
  | .request t => p t
  | _ => false

/-- A document that is past the policy was permitted. -/
def Cleared (guard : ResourceGuard) : Party → Prop
  | .request t => t.Cleared guard
  | _ => True

/-- Why the request is refused. -/
def refusal : Party → Option Refusal
  | .request t => t.refusal
  | _ => none

/-- Chromium has heard of the request, if there is one and it is through. -/
def Answered (s : Guarded) : Party → Prop
  | .request t => t.Answered s
  | _ => True

/-- The steps ahead, at most. -/
def ahead : Party → Nat
  | .request t => t.ahead
  | .callback t => t.ahead
  | .direct _ => 1
  | .fetched _ _ => 0

theorem Answered.mono {s s' : Guarded} {t : Party}
    (hgrows : ∀ command ∈ s.paced.outside, command ∈ s'.paced.outside) (h : t.Answered s) :
    t.Answered s' := by
  cases t with
  | request t => exact Interception.Answered.mono hgrows h
  | _ => trivial

end Party

/-- **What one step of anybody does**: the caps and the verdicts stand, and what is counted moves
    with the requests. -/
structure Effect (guard : ResourceGuard) (s s' : Guarded) (t t' : Party) : Prop where
  caps : Keeps s.accounts.budget s'.accounts.budget
  config : s.navigation.Keeps s'.navigation
  remembers : ∀ cause : Refusal, cause.Recorded s → cause.Recorded s'
  refuses : ∀ cause, t'.refusal = some cause → t.refusal = some cause ∨ cause.Recorded s'
  admits : s.count + (t'.isRequest Interception.admitted).toNat ≤
    s'.count + (t.isRequest Interception.admitted).toNat
  sends : ∀ q, s'.sent q + (t.isRequest (Interception.sent q)).toNat =
    s.sent q + (t'.isRequest (Interception.sent q)).toNat
  clears : t.Cleared guard → t'.Cleared guard
  commands : t.Cleared guard → ∀ command ∈ s'.paced.outside,
    command ∈ s.paced.outside ∨ command.Cleared guard
  grows : ∀ command ∈ s.paced.outside, command ∈ s'.paced.outside
  answers : t.Answered s → t'.Answered s'
  comes : t'.ahead < t.ahead
  counts : s'.navigation.counted + (t.isRequest Interception.counted).toNat ≤
    s.navigation.counted + (t'.isRequest Interception.counted).toNat
  follows : s.navigation.followClientRedirects = true → s.navigation.counted + 1 < 2 ^ 64 →
    s.navigation.allowance + (t'.isRequest (Interception.followed guard)).toNat ≤
      s'.navigation.allowance + (t.isRequest (Interception.followed guard)).toNat
  paces : 0 < guard.crawlDelay → s.paced.Inv guard.crawlDelay → s'.paced.Inv guard.crawlDelay

namespace Effect

variable {guard : ResourceGuard}

theorem of_intercepts {s s' : Guarded} {t t' : Interception} (h : Intercepts guard s t s' t') :
    Effect guard s s' (.request t) (.request t') where
  caps := h.caps
  config := h.config
  remembers := fun _ => h.remembers
  refuses := fun _ => h.refuses
  admits := h.admits
  sends := h.sends
  clears := h.clears
  commands := h.commands
  grows := h.grows
  answers := h.answers
  comes := h.comes
  counts := h.counts
  follows := h.follows
  paces := h.paces

/-- The other callbacks move the budget and the meters only. -/
theorem of_handler {s : Guarded} {accounts : Shared} {t t' : Handler}
    (h : handlerStep guard.decode s.accounts t = some (accounts, t')) :
    Effect guard s { s with accounts := accounts } (.callback t) (.callback t') where
  caps := (handlerStep_budget h).keeps
  config := .refl s.navigation
  remembers := by
    intro cause hcause
    cases cause with
    | budget => exact (handlerStep_budget h).keeps.capExceeded hcause
    | policy => exact hcause
    | navigation => exact hcause
    | pacing => exact hcause
  refuses := fun _ hrefused => by cases hrefused
  admits := (handlerStep_comes h).1
  sends := fun _ => rfl
  clears := fun _ => trivial
  commands := fun _ _ hmem => .inl hmem
  grows := fun _ hmem => hmem
  answers := fun _ => trivial
  comes := (handlerStep_comes h).2
  counts := Nat.le_refl _
  follows := fun _ _ => Nat.le_refl _
  paces := fun _ hinv => hinv

/-- A direct fetch takes its turn, and sends Chromium nothing. -/
theorem of_direct {s : Guarded} {paced : Paced (List Command)} (fetch : DirectFetch)
    (result : Except Error Unit) (houtside : paced.outside = s.paced.outside)
    (hpaces : 0 < guard.crawlDelay → s.paced.Inv guard.crawlDelay → paced.Inv guard.crawlDelay) :
    Effect guard s { s with paced := paced } (.direct fetch) (.fetched fetch result) where
  caps := .refl s.accounts.budget
  config := .refl s.navigation
  remembers := by
    intro cause hcause
    cases cause with
    | budget => exact hcause
    | policy => exact hcause
    | navigation => exact hcause
    | pacing => exact hcause
  refuses := fun _ hrefused => by cases hrefused
  admits := Nat.le_refl _
  sends := by
    intro q
    show List.countP _ paced.outside + 0 = List.countP _ s.paced.outside + 0
    rw [houtside]
  clears := fun _ => trivial
  commands := by
    intro _ command hmem
    rw [show paced.outside = s.paced.outside from houtside] at hmem
    exact .inl hmem
  grows := by
    intro command hmem
    show command ∈ paced.outside
    rw [houtside]
    exact hmem
  answers := fun _ => trivial
  comes := (by decide : 0 < 1)
  counts := Nat.le_refl _
  follows := fun _ _ => Nat.le_refl _
  paces := hpaces

end Effect

/-- A direct fetch leaves the commands alone, and keeps the delay. -/
theorem DirectFetch.transmits (guard : ResourceGuard) (fetch : DirectFetch)
    (s : Paced (List Command)) :
    ∃ result after, transmitWithPacing guard.lib fetch.url guard.crawlDelay fetch.deadline
        fetch.lapse fetch.transmission s = (result, after) ∧ after.outside = s.outside ∧
      (0 < guard.crawlDelay → s.Inv guard.crawlDelay → after.Inv guard.crawlDelay) := by
  obtain ⟨result, after, hrun, houtside, hkeeps⟩ := OriginPacer.transmit_keeps guard.lib
    fetch.url.toString guard.crawlDelay fetch.deadline fetch.lapse fetch.transmission s
  unfold transmitWithPacing
  rw [hrun]
  cases result with
  | ok answer => exact ⟨_, after, rfl, houtside, hkeeps⟩
  | error e => exact ⟨_, after, rfl, houtside, hkeeps⟩

/-- **One step** has such an effect. -/
theorem partyStep_effect {guard : ResourceGuard} {s s' : Guarded} {t t' : Party}
    (h : partyStep guard s t = some (s', t')) : Effect guard s s' t t' := by
  cases t with
  | request t =>
    obtain ⟨⟨next, turn⟩, hstep, heq⟩ := Option.map_eq_some_iff.mp h
    obtain ⟨rfl, rfl⟩ := Prod.mk.inj heq
    exact .of_intercepts (interceptionStep_intercepts hstep)
  | callback t =>
    obtain ⟨⟨accounts, turn⟩, hstep, heq⟩ := Option.map_eq_some_iff.mp h
    obtain ⟨rfl, rfl⟩ := Prod.mk.inj heq
    exact .of_handler hstep
  | direct fetch =>
    obtain ⟨result, paced, hrun, houtside, hpaces⟩ := fetch.transmits guard s.paced
    simp only [partyStep, hrun] at h
    obtain ⟨rfl, rfl⟩ := Prod.mk.inj (Option.some.inj h)
    exact .of_direct fetch result houtside hpaces
  | fetched fetch result => cases h

/-! ## Runs -/

/-- Who is called, or calls. -/
inductive Opening where
  | request (request : PausedRequest)
  | callback (callback : Callback)
  | direct (fetch : DirectFetch)

/-- Where it begins. -/
def Opening.start : Opening → Party
  | .request paused => .request (.paused paused)
  | .callback called => .callback called.start
  | .direct fetch => .direct fetch

/-- A tab as it is opened; the accounts and the schedule of origins are those of the scrape. -/
def Guarded.opened (accounts : Shared) (followClientRedirects : Bool) (maxRedirects : Nat)
    (paced : Paced (List Command)) : Guarded where
  accounts := accounts
  navigation := .new followClientRedirects maxRedirects
  documentPolicyDenial := none
  pacingDeadlineExceeded := false
  paced := paced

/-- What holds between any two moves of a tab that was opened as `s₀`. -/
structure GuardInv (guard : ResourceGuard) (s₀ : Guarded) (pool : Pool Guarded Party) : Prop where
  config : s₀.navigation.Keeps pool.shared.navigation
  maxRequests : pool.shared.accounts.budget.maxRequests = s₀.accounts.budget.maxRequests
  within : pool.shared.count ≤ s₀.accounts.budget.maxRequests
  admitted : s₀.count + pool.threads.countP (Party.isRequest Interception.admitted) ≤
    pool.shared.count
  sent : ∀ q, pool.shared.sent q = pool.threads.countP (Party.isRequest (Interception.sent q))
  cleared : ∀ t ∈ pool.threads, t.Cleared guard
  commands : ∀ command ∈ pool.shared.paced.outside, command.Cleared guard
  answered : ∀ t ∈ pool.threads, t.Answered pool.shared
  counted : pool.shared.navigation.counted ≤
    pool.threads.countP (Party.isRequest Interception.counted)
  followed : s₀.navigation.followClientRedirects = true → pool.threads.length + 1 < 2 ^ 64 →
    pool.threads.countP (Party.isRequest (Interception.followed guard)) ≤
      pool.shared.navigation.allowance
  paced : 0 < guard.crawlDelay → pool.shared.paced.Inv guard.crawlDelay
  refused : ∀ t ∈ pool.threads, ∀ cause, t.refusal = some cause → cause.Recorded pool.shared

/-- The steps ahead of all of them. -/
def stepsAhead (pool : Pool Guarded Party) : Nat := weight Party.ahead pool.threads

section

variable {guard : ResourceGuard} {s₀ : Guarded}

/-- **One move** keeps it. -/
theorem guardInv_step {s s' : Guarded} {before after : List Party} {t t' : Party}
    (hstep : partyStep guard s t = some (s', t'))
    (h : GuardInv guard s₀ ⟨s, before ++ t :: after⟩) :
    GuardInv guard s₀ ⟨s', before ++ t' :: after⟩ := by
  have heffect := partyStep_effect hstep
  have ht : t.Cleared guard := h.cleared t (List.mem_append_right _ List.mem_cons_self)
  have hmax : s.accounts.budget.maxRequests = s₀.accounts.budget.maxRequests := h.maxRequests
  refine ⟨⟨heffect.config.followClientRedirects.trans h.config.followClientRedirects,
    heffect.config.maxRedirects.trans h.config.maxRedirects,
    fun htoo => heffect.config.tooMany (h.config.tooMany htoo)⟩,
    heffect.caps.maxRequests.trans hmax, ?_, ?_, ?_, ?_, ?_, ?_, ?_, ?_, ?_, ?_⟩
  · rw [← hmax]
    exact heffect.caps.requests (hmax ▸ h.within)
  · have hmoved := countP_replace (Party.isRequest Interception.admitted) before t t' after
    have hadmits := heffect.admits
    have hadmitted := h.admitted
    dsimp only at hadmitted ⊢
    omega
  · intro q
    have hmoved := countP_replace (Party.isRequest (Interception.sent q)) before t t' after
    have hsends := heffect.sends q
    have hsent := h.sent q
    dsimp only at hsent ⊢
    omega
  · exact forall_replace h.cleared (heffect.clears ht)
  · intro command hmem
    rcases heffect.commands ht command hmem with hold | hnew
    · exact h.commands command hold
    · exact hnew
  · refine forall_replace (t := t) (fun u hu => (h.answered u hu).mono heffect.grows) ?_
    exact heffect.answers (h.answered t (List.mem_append_right _ List.mem_cons_self))
  · have hmoved := countP_replace (Party.isRequest Interception.counted) before t t' after
    have hcounts := heffect.counts
    have hcounted := h.counted
    dsimp only at hcounted ⊢
    omega
  · intro hfollow hlt
    rw [length_replace before t t' after] at hlt
    have hmoved := countP_replace (Party.isRequest (Interception.followed guard)) before t t' after
    have hfollowed := h.followed hfollow hlt
    have hcounted := h.counted
    have hlength : (before ++ t :: after).countP (Party.isRequest Interception.counted) ≤
        (before ++ t :: after).length := List.countP_le_length
    dsimp only at hfollowed hcounted ⊢
    -- there are fewer documents than threads, so the counter has not wrapped
    have hfollows := heffect.follows (h.config.followClientRedirects.trans hfollow) (by omega)
    omega
  · exact fun hd => heffect.paces hd (h.paced hd)
  · intro u hu cause hrefused
    rcases mem_replace (t := t) hu with rfl | ⟨-, hold⟩
    · rcases heffect.refuses cause hrefused with hbefore | hrecorded
      · exact heffect.remembers cause
          (h.refused t (List.mem_append_right _ List.mem_cons_self) cause hbefore)
      · exact hrecorded
    · exact heffect.remembers cause (h.refused u hold cause hrefused)

theorem isRequest_start {p : Interception → Bool} (hp : ∀ request, p (.paused request) = false)
    (opening : Opening) : opening.start.isRequest p = false := by
  cases opening with
  | request request => exact hp request
  | callback callback => rfl
  | direct fetch => rfl

theorem forall_start {P : Party → Prop} (h : ∀ opening : Opening, P opening.start)
    (openings : List Opening) : ∀ t ∈ openings.map Opening.start, P t := by
  intro t ht
  obtain ⟨opening, -, rfl⟩ := List.mem_map.mp ht
  exact h opening

theorem countP_start {p : Interception → Bool} (hp : ∀ request, p (.paused request) = false)
    (openings : List Opening) :
    (openings.map Opening.start).countP (Party.isRequest p) = 0 := by
  rw [List.countP_eq_zero]
  refine forall_start (fun opening => ?_) openings
  rw [isRequest_start hp opening]
  exact Bool.false_ne_true

theorem guardInv_opened {accounts : Shared} {follow : Bool} {maxRedirects : Nat}
    {paced : Paced (List Command)} (openings : List Opening)
    (hcount : accounts.budget.usage.subresourceCount ≤ accounts.budget.maxRequests)
    (hpaced : paced.Inv guard.crawlDelay) (houtside : paced.outside = []) :
    GuardInv guard (.opened accounts follow maxRedirects paced)
      ⟨.opened accounts follow maxRedirects paced, openings.map Opening.start⟩ where
  config := .refl _
  maxRequests := rfl
  within := hcount
  admitted := by
    rw [countP_start (fun _ => rfl) openings]
    exact Nat.le_refl _
  sent := by
    intro q
    rw [countP_start (fun _ => rfl) openings]
    show List.countP _ paced.outside = 0
    rw [houtside]
    rfl
  cleared := by
    refine forall_start (fun opening => ?_) openings
    cases opening with
    | request request => trivial
    | callback callback => trivial
    | direct fetch => trivial
  commands := by
    intro command hmem
    rw [show (Guarded.opened accounts follow maxRedirects paced).paced.outside = [] from
      houtside] at hmem
    cases hmem
  answered := by
    refine forall_start (fun opening => ?_) openings
    cases opening with
    | request request => trivial
    | callback callback => trivial
    | direct fetch => trivial
  counted := Nat.zero_le _
  followed := by
    intro _ _
    rw [countP_start (fun _ => rfl) openings]
    exact Nat.zero_le _
  paced := fun _ => hpaced
  refused := by
    refine forall_start (fun opening cause hrefused => ?_) openings
    cases opening with
    | request request => cases hrefused
    | callback callback => cases hrefused
    | direct fetch => cases hrefused

/-- Every move leaves less to do. -/
theorem stepsAhead_lt (guard : ResourceGuard) (s : Guarded) (before : List Party) (t : Party)
    (after : List Party) (s' : Guarded) (t' : Party) (hstep : partyStep guard s t = some (s', t')) :
    stepsAhead ⟨s', before ++ t' :: after⟩ < stepsAhead ⟨s, before ++ t :: after⟩ := by
  have hmoved := weight_replace Party.ahead before t t' after
  have hcomes := (partyStep_effect hstep).comes
  show weight Party.ahead (before ++ t' :: after) < weight Party.ahead (before ++ t :: after)
  omega

end

/-- What the guard keeps of a tab: the requests sent on and those admitted before are within the
    budget, each of them is as the guard has it, the documents are within the redirects, the
    transmissions keep the delay, whoever is refused has left the cause behind, and when nobody can
    move Chromium has heard of every request. -/
structure GuardKeeps (guard : ResourceGuard) (s₀ : Guarded) (pool : Pool Guarded Party) :
    Prop where
  requests : s₀.count + pool.shared.sent (fun _ => true) ≤ s₀.accounts.budget.maxRequests
  commands : ∀ command ∈ pool.shared.paced.outside, command.Cleared guard
  documents : s₀.navigation.followClientRedirects = true → pool.threads.length + 1 < 2 ^ 64 →
    pool.shared.sent guard.isTopDocument ≤ s₀.navigation.maxRedirects + 1
  spaced : 0 < guard.crawlDelay → Spaced guard.crawlDelay pool.shared.paced.log
  refused : ∀ t ∈ pool.threads, ∀ cause, t.refusal = some cause → cause.Recorded pool.shared
  answered : Finished (partyStep guard) pool → ∀ t, Party.request t ∈ pool.threads →
    ∃ request verdict, t = .settled request verdict ∧ pool.shared.Hears request

/-- **The guard holds**, in whatever order the requests, the other callbacks and the direct fetches
    take their steps, and however far they have come they come to an end. -/
theorem guard_keeps (guard : ResourceGuard) (accounts : Shared) (follow : Bool)
    (maxRedirects : Nat) (paced : Paced (List Command)) (openings : List Opening)
    (hcount : accounts.budget.usage.subresourceCount ≤ accounts.budget.maxRequests)
    (hpaced : paced.Inv guard.crawlDelay) (houtside : paced.outside = [])
    (schedule : List Nat) :
    GuardKeeps guard (.opened accounts follow maxRedirects paced)
      (run (partyStep guard) schedule
        ⟨.opened accounts follow maxRedirects paced, openings.map Opening.start⟩) ∧
    ∃ more, Finished (partyStep guard) (run (partyStep guard) (schedule ++ more)
      ⟨.opened accounts follow maxRedirects paced, openings.map Opening.start⟩) := by
  have hinv : GuardInv guard (.opened accounts follow maxRedirects paced)
      (run (partyStep guard) schedule
        ⟨.opened accounts follow maxRedirects paced, openings.map Opening.start⟩) :=
    run_induction (fun _ _ _ _ _ _ hstep h => guardInv_step hstep h)
      (guardInv_opened openings hcount hpaced houtside) schedule
  simp only [run_append]
  generalize run (partyStep guard) schedule
    ⟨.opened accounts follow maxRedirects paced, openings.map Opening.start⟩ = pool at hinv ⊢
  refine ⟨⟨?_, hinv.commands, ?_, fun hd => (hinv.paced hd).spaced, hinv.refused, ?_⟩,
    exists_finished (stepsAhead_lt guard) pool⟩
  · have hsent : pool.threads.countP (Party.isRequest (Interception.sent fun _ => true)) ≤
        pool.threads.countP (Party.isRequest Interception.admitted) := by
      refine List.countP_mono_left fun t _ h => ?_
      cases t with
      | request t => exact t.sent_le_admitted _ h
      | callback t => cases h
      | direct fetch => cases h
      | fetched fetch result => cases h
    have hadmitted := hinv.admitted
    have hwithin := hinv.within
    rw [hinv.sent]
    omega
  · intro hfollow hlt
    have hsent : pool.threads.countP (Party.isRequest (Interception.sent guard.isTopDocument)) ≤
        pool.threads.countP (Party.isRequest (Interception.followed guard)) := by
      refine List.countP_mono_left fun t _ h => ?_
      cases t with
      | request t => exact t.sent_le_followed guard h
      | callback t => cases h
      | direct fetch => cases h
      | fetched fetch result => cases h
    have hfollowed := hinv.followed hfollow hlt
    have hallowance : pool.shared.navigation.allowance ≤ maxRedirects + 1 := by
      have hmax : pool.shared.navigation.maxRedirects = maxRedirects := hinv.config.maxRedirects
      have hfirst := Bool.toNat_le pool.shared.navigation.state.firstDocumentRequestSeen
      rw [NavigationTracker.allowance, hmax]
      omega
    rw [hinv.sent]
    exact Nat.le_trans hsent (Nat.le_trans hfollowed hallowance)
  · intro hfinished t hmem
    have hstays : interceptionStep guard pool.shared t = none :=
      Option.map_eq_none_iff.mp (hfinished _ hmem)
    obtain ⟨request, verdict, rfl⟩ := settled_of_step_eq_none guard pool.shared hstays
    exact ⟨request, verdict, rfl, hinv.answered _ hmem⟩

/-- A guard on a site whose policy permits everything. -/
def siteGuard : ResourceGuard where
  lib := pacedLib
  display := fun _ => ""
  errorText := fun _ => ""
  decode := fun _ => none
  requestHeaders := []
  credentialOrigin := pacedSite
  topFrameId := "top"
  crawlDelay := 10
  deadline := 100
  documentRequestPolicy := some fun _ _ => .ok ()

/-- A document of its top frame. -/
def siteDocument : PausedRequest where
  requestId := "1"
  url := pacedSite.toString
  headers := none
  isDocument := true
  frameId := "top"
  lapse := {}
  duration := 3

/-- A document that is reloaded while no redirect is allowed: one of the two goes through. -/
theorem guard_keeps_reload :
    let pool := run (partyStep siteGuard) (List.replicate 7 0 ++ List.replicate 7 1)
      ⟨.opened ⟨.new 5 1000, fun _ => none⟩ true 0 (.start 0 []),
        [Opening.request siteDocument, .request siteDocument].map Opening.start⟩
    GuardKeeps siteGuard (.opened ⟨.new 5 1000, fun _ => none⟩ true 0 (.start 0 [])) pool ∧
      pool.shared.sent siteGuard.isTopDocument = 1 ∧
      pool.threads.map Party.refusal = [none, some .navigation] :=
  ⟨(guard_keeps siteGuard ⟨.new 5 1000, fun _ => none⟩ true 0 (.start 0 [])
    [.request siteDocument, .request siteDocument] (Nat.zero_le _) (kept_nil _ _) rfl _).1,
    by decide, by decide⟩

end Basecrawl.Render
