/-
  The requests Chromium pauses.

  Chromium pauses every request before it is sent.  The guard asks the document policy about a
  top-level document, counts it as a navigation, admits the request to the budget, and sends it on
  when its origin is due.

  1. **Navigations** — `recordTopDocumentRequest_cases`: a document is counted, or it is one too
     many.
  2. **A paused request** — `interceptionStep`, and all that one step of it can do (`Intercepts`).
  3. **The ledger** — a request that was admitted and one that was counted as a navigation stay so
     until they are sent, so the commands that were sent can be counted among the requests, where
     nothing is ever taken back.
-/
import Basecrawl.Render.Budget
import Basecrawl.Render.Pacer

namespace Basecrawl.Render

open Text Basecrawl.Core Panic Threads Spacing

/-! ## Navigations -/

/-- `RenderError`, with all its cases. -/
inductive RenderFailure where
  | chromeNotFound
  | launch (detail : String)
  | dnsIsolation (detail : String)
  | render (detail : String)
  | timeout (timeout : Nat)
  | pacingDeadlineExceeded
  | waitFor (selector detail : String)
  | tooManyRedirects (max : Nat)
  | resourceBudgetExceeded
  | documentPolicyDenied (detail : String)
  | stealthInjectInstall (detail : String)
  | noContent
deriving DecidableEq

/-- `NavigationState`; the counter is a word of the machine. -/
structure NavigationState where
  firstDocumentRequestSeen : Bool := false
  clientNavigationHops : Nat := 0
  tooManyRedirects : Bool := false

/-- `NavigationTracker`. -/
structure NavigationTracker where
  followClientRedirects : Bool
  maxRedirects : Nat
  state : NavigationState

namespace NavigationTracker

/-- `NavigationTracker::new`. -/
def new (followClientRedirects : Bool) (maxRedirects : Nat) : NavigationTracker where
  followClientRedirects := followClientRedirects
  maxRedirects := maxRedirects
  state := {}

/-- `record_top_document_request`. -/
def recordTopDocumentRequest (tracker : NavigationTracker) :
    Except RenderFailure Unit × NavigationTracker :=
  let state := tracker.state
  if !state.firstDocumentRequestSeen then
    (.ok (), { tracker with state := { state with firstDocumentRequestSeen := true } })
  else if tracker.followClientRedirects then
    let state := { state with clientNavigationHops := (state.clientNavigationHops + 1) % 2 ^ 64 }
    if tracker.maxRedirects < state.clientNavigationHops then
      (.error (.tooManyRedirects tracker.maxRedirects),
        { tracker with state := { state with tooManyRedirects := true } })
    else (.ok (), { tracker with state := state })
  else (.ok (), tracker)

/-- `ensure_within_limit`. -/
def ensureWithinLimit (tracker : NavigationTracker) : Except RenderFailure Unit :=
  if tracker.state.tooManyRedirects then .error (.tooManyRedirects tracker.maxRedirects) else .ok ()

/-- The documents counted so far. -/
def counted (tracker : NavigationTracker) : Nat :=
  tracker.state.clientNavigationHops + tracker.state.firstDocumentRequestSeen.toNat

/-- The documents let through so far, while redirects are followed: the first, and a hop each. -/
def allowance (tracker : NavigationTracker) : Nat :=
  min tracker.state.clientNavigationHops tracker.maxRedirects +
    tracker.state.firstDocumentRequestSeen.toNat

/-- The tracker is configured once, and its verdict stands. -/
structure Keeps (tracker tracker' : NavigationTracker) : Prop where
  followClientRedirects : tracker'.followClientRedirects = tracker.followClientRedirects
  maxRedirects : tracker'.maxRedirects = tracker.maxRedirects
  tooMany : tracker.state.tooManyRedirects = true → tracker'.state.tooManyRedirects = true

theorem Keeps.refl (tracker : NavigationTracker) : tracker.Keeps tracker := ⟨rfl, rfl, id⟩

/-- What a document does to the counts, as long as the counter does not wrap. -/
structure Counts (tracker tracker' : NavigationTracker) (passed : Bool) : Prop where
  counted : tracker'.counted ≤ tracker.counted + 1
  allowance : tracker.followClientRedirects = true → tracker.counted + 1 < 2 ^ 64 →
    tracker.allowance + passed.toNat ≤ tracker'.allowance

/-- The counter does not wrap before more documents have come than it can count. -/
theorem hop_eq {tracker : NavigationTracker} (hlt : tracker.counted + 1 < 2 ^ 64) :
    (tracker.state.clientNavigationHops + 1) % 2 ^ 64 =
      tracker.state.clientNavigationHops + 1 := by
  apply Nat.mod_eq_of_lt
  have hle : tracker.state.clientNavigationHops ≤ tracker.counted := Nat.le_add_right _ _
  omega

/-- A hop counts one at most, whether the counter wraps or not. -/
theorem counted_hop_le (tracker : NavigationTracker) :
    (tracker.state.clientNavigationHops + 1) % 2 ^ 64 +
      tracker.state.firstDocumentRequestSeen.toNat ≤ tracker.counted + 1 := by
  have hmod := Nat.mod_le (tracker.state.clientNavigationHops + 1) (2 ^ 64)
  simp only [NavigationTracker.counted]
  omega

/-- **A document** goes on, or it is one too many and the verdict stands. -/
theorem recordTopDocumentRequest_cases (tracker : NavigationTracker) :
    ∃ result tracker', tracker.recordTopDocumentRequest = (result, tracker') ∧
      tracker.Keeps tracker' ∧ tracker.Counts tracker' result.isOk ∧
      (result.isOk = false → tracker'.state.tooManyRedirects = true) := by
  unfold recordTopDocumentRequest
  simp only
  split
  · next hfirst =>
    have hseen : tracker.state.firstDocumentRequestSeen = false := by simpa using hfirst
    refine ⟨_, _, rfl, ⟨rfl, rfl, id⟩, ⟨?_, fun _ _ => ?_⟩, fun h => by cases h⟩
    · show tracker.state.clientNavigationHops + 1 ≤ tracker.counted + 1
      exact Nat.succ_le_succ (Nat.le_add_right _ _)
    · show tracker.allowance + 1 ≤ min tracker.state.clientNavigationHops tracker.maxRedirects + 1
      rw [NavigationTracker.allowance, hseen]
      exact Nat.le_refl _
  · next hseen =>
    split
    · split
      · next hover =>
        refine ⟨_, _, rfl, ⟨rfl, rfl, fun _ => rfl⟩, ⟨?_, fun _ hlt => ?_⟩, fun _ => rfl⟩
        · exact tracker.counted_hop_le
        · -- one hop more, and not passed
          simp only [NavigationTracker.allowance, hop_eq hlt]
          show _ + _ + 0 ≤ _
          omega
      · next hwithin =>
        refine ⟨_, _, rfl, ⟨rfl, rfl, id⟩, ⟨?_, fun _ hlt => ?_⟩, fun h => by cases h⟩
        · exact tracker.counted_hop_le
        · -- the hop is within the limit, so it is one more in the minimum too
          rw [hop_eq hlt] at hwithin
          simp only [NavigationTracker.allowance, hop_eq hlt]
          show _ + _ + 1 ≤ _
          omega
    · next hstays =>
      exact ⟨_, _, rfl, .refl tracker, ⟨Nat.le_succ _, fun h => absurd h hstays⟩,
        fun h => by cases h⟩

end NavigationTracker

/-! ## A paused request -/

/-- `ErrorReason`, as far as the guard fails a request with it. -/
inductive ErrorReason where
  | blockedByClient
  | timedOut
deriving DecidableEq

/-- A request paused before it is sent, and how its transmission goes. -/
structure PausedRequest extends RequestPaused where
  isDocument : Bool
  frameId : String
  lapse : Lapse
  duration : Nat

/-- `ResourceGuard`, with what `configure_resource_guard` takes of the configuration.  The policy
    may answer differently at different times. -/
structure ResourceGuard where
  lib : UrlLib
  display : Json.Tree → String
  errorText : ParseError → String
  decode : String → Option Bytes
  requestHeaders : List (String × String)
  credentialOrigin : Url
  topFrameId : String
  crawlDelay : Nat
  deadline : Nat
  documentRequestPolicy : Option (Nat → Url → Except String Unit)

/-- A command to Chromium.  The request a message sends on only serves the theorems. -/
inductive Command where
  | continueRequest (request : PausedRequest) (message : ContinueRequest)
  | failRequest (requestId : String) (reason : ErrorReason)

namespace ResourceGuard

variable (guard : ResourceGuard)

/-- A document for the top frame. -/
def isTopDocument (request : PausedRequest) : Bool :=
  request.isDocument && request.frameId == guard.topFrameId

/-- What the document policy says of a request. -/
def policyAnswer (moment : Nat) (request : PausedRequest) : Except String Unit :=
  match guard.documentRequestPolicy with
  | none => .ok ()
  | some policy =>
      match guard.lib.parse request.url with
      | .error e => .error (guard.errorText e)
      | .ok target => policy moment target

/-- The policy let the request through, at some moment. -/
def Permits (request : PausedRequest) : Prop :=
  ∃ moment, guard.policyAnswer moment request = .ok ()

/-- The message a request is sent on with. -/
def message (request : PausedRequest) : ContinueRequest :=
  effectiveContinueRequest guard.lib guard.display request.toRequestPaused guard.requestHeaders
    guard.credentialOrigin

/-- A request is sent on. -/
def transmission (request : PausedRequest) : Transmission (List Command) Unit := fun commands =>
  ((), commands ++ [.continueRequest request (guard.message request)], request.duration)

end ResourceGuard

/-- What the handlers of a tab share, and what was sent to Chromium. -/
structure Guarded where
  accounts : Shared
  navigation : NavigationTracker
  documentPolicyDenial : Option String
  pacingDeadlineExceeded : Bool
  paced : Paced (List Command)

namespace Guarded

/-- A command is sent. -/
def send (s : Guarded) (command : Command) : Guarded :=
  { s with paced := { s.paced with outside := s.paced.outside ++ [command] } }

/-- The requests admitted so far. -/
def count (s : Guarded) : Nat := s.accounts.budget.usage.subresourceCount

end Guarded

/-- Why a request is refused. -/
inductive Refusal where
  | policy
  | navigation
  | budget
  | pacing
deriving DecidableEq

/-- What becomes of a request. -/
inductive Verdict where
  | continued
  | refused (cause : Refusal)
deriving DecidableEq

/-- Where a paused request stands. -/
inductive Interception where
  | paused (request : PausedRequest)
  | denying (request : PausedRequest) (detail : String)
  | recording (request : PausedRequest)
  | admitting (request : PausedRequest)
  | failing (request : PausedRequest) (cause : Refusal)
  /-- Deferred: wait for the origin, send the request on or give up, look at the limit again. -/
  | transmitting (request : PausedRequest)
  | lapsed (request : PausedRequest)
  | timingOut (request : PausedRequest)
  | checking (request : PausedRequest) (verdict : Verdict)
  | blocking (request : PausedRequest) (verdict : Verdict)
  | settled (request : PausedRequest) (verdict : Verdict)

/-- One atomic step of a paused request, of which each takes one lock, asks the policy or sends one
    command. -/
def interceptionStep (guard : ResourceGuard) (s : Guarded) :
    Interception → Option (Guarded × Interception)
  | .paused request =>
      if guard.isTopDocument request then
        match guard.policyAnswer s.paced.now request with
        | .ok () => some (s, .recording request)
        | .error detail => some (s, .denying request detail)
      else some (s, .admitting request)
  | .denying request detail =>
      some ({ s with documentPolicyDenial := some detail }, .failing request .policy)
  | .recording request =>
      match s.navigation.recordTopDocumentRequest with
      | (.ok (), navigation) => some ({ s with navigation := navigation }, .admitting request)
      | (.error _, navigation) =>
          some ({ s with navigation := navigation }, .failing request .navigation)
  | .admitting request =>
      match s.accounts.budget.admitRequest with
      | (true, budget) =>
          some ({ s with accounts := { s.accounts with budget := budget } }, .transmitting request)
      | (false, budget) =>
          some ({ s with accounts := { s.accounts with budget := budget } },
            .failing request .budget)
  | .failing request cause =>
      some (s.send (.failRequest request.requestId .blockedByClient),
        .settled request (.refused cause))
  | .transmitting request =>
      match OriginPacer.transmit guard.lib request.url guard.crawlDelay guard.deadline request.lapse
          (guard.transmission request) s.paced with
      | (.ok (), paced) => some ({ s with paced := paced }, .checking request .continued)
      | (.error _, paced) => some ({ s with paced := paced }, .lapsed request)
  | .lapsed request => some ({ s with pacingDeadlineExceeded := true }, .timingOut request)
  | .timingOut request =>
      some (s.send (.failRequest request.requestId .timedOut), .checking request (.refused .pacing))
  | .checking request verdict =>
      match s.navigation.ensureWithinLimit with
      | .ok () => some (s, .settled request verdict)
      | .error _ => some (s, .blocking request verdict)
  | .blocking request verdict =>
      some (s.send (.failRequest request.requestId .blockedByClient), .settled request verdict)
  | .settled _ _ => none

/-- What a schedule gains by a transmission: it keeps the delay, and the request is among the
    commands if its turn came. -/
structure Transmits (guard : ResourceGuard) (request : PausedRequest)
    (before after : Paced (List Command)) (sent : Bool) : Prop where
  keeps : 0 < guard.crawlDelay → before.Inv guard.crawlDelay → after.Inv guard.crawlDelay
  outside : after.outside = before.outside ++
    if sent then [.continueRequest request (guard.message request)] else []

/-- **All that one step of a paused request can do.** -/
inductive Intercepts (guard : ResourceGuard) (s : Guarded) :
    Interception → Guarded → Interception → Prop where
  | other {request} (htop : guard.isTopDocument request = false) :
      Intercepts guard s (.paused request) s (.admitting request)
  | permitted {request} (h : guard.Permits request) :
      Intercepts guard s (.paused request) s (.recording request)
  | denied {request} (detail : String) :
      Intercepts guard s (.paused request) s (.denying request detail)
  | denying {request} (detail : String) :
      Intercepts guard s (.denying request detail)
        { s with documentPolicyDenial := some detail } (.failing request .policy)
  | recorded {request} {navigation : NavigationTracker} (hkeeps : s.navigation.Keeps navigation)
      (hcounts : s.navigation.Counts navigation true) :
      Intercepts guard s (.recording request) { s with navigation := navigation }
        (.admitting request)
  | outrun {request} {navigation : NavigationTracker} (hkeeps : s.navigation.Keeps navigation)
      (hcounts : s.navigation.Counts navigation false)
      (htoo : navigation.state.tooManyRedirects = true) :
      Intercepts guard s (.recording request) { s with navigation := navigation }
        (.failing request .navigation)
  | admitted {request} (hlt : s.count < s.accounts.budget.maxRequests) :
      Intercepts guard s (.admitting request)
        { s with accounts := { s.accounts with budget := { s.accounts.budget with usage :=
          { s.accounts.budget.usage with subresourceCount := s.count + 1 } } } }
        (.transmitting request)
  | exhausted {request} :
      Intercepts guard s (.admitting request)
        { s with accounts := { s.accounts with budget := s.accounts.budget.exhaust } }
        (.failing request .budget)
  | failed {request} (cause : Refusal) :
      Intercepts guard s (.failing request cause)
        (s.send (.failRequest request.requestId .blockedByClient))
        (.settled request (.refused cause))
  | sent {request} {paced : Paced (List Command)}
      (h : Transmits guard request s.paced paced true) :
      Intercepts guard s (.transmitting request) { s with paced := paced }
        (.checking request .continued)
  | late {request} {paced : Paced (List Command)}
      (h : Transmits guard request s.paced paced false) :
      Intercepts guard s (.transmitting request) { s with paced := paced } (.lapsed request)
  | lapsed {request} :
      Intercepts guard s (.lapsed request) { s with pacingDeadlineExceeded := true }
        (.timingOut request)
  | timedOut {request} :
      Intercepts guard s (.timingOut request)
        (s.send (.failRequest request.requestId .timedOut)) (.checking request (.refused .pacing))
  | within {request} (verdict : Verdict) :
      Intercepts guard s (.checking request verdict) s (.settled request verdict)
  | beyond {request} (verdict : Verdict) :
      Intercepts guard s (.checking request verdict) s (.blocking request verdict)
  | blocked {request} (verdict : Verdict) :
      Intercepts guard s (.blocking request verdict)
        (s.send (.failRequest request.requestId .blockedByClient)) (.settled request verdict)

/-- A transmission either acts on the outside once or leaves it alone. -/
theorem OriginPacer.transmit_outside {σ τ : Type} (lib : UrlLib) (rawUrl : String)
    (delay deadline : Nat) (lapse : Lapse) (transmit : Transmission σ τ) (s : Paced σ) :
    ∃ result after, OriginPacer.transmit lib rawUrl delay deadline lapse transmit s =
        (result, after) ∧
      after.outside = if result.isOk then (transmit s.outside).2.1 else s.outside := by
  unfold OriginPacer.transmit
  split
  · exact ⟨_, _, rfl, rfl⟩
  · split
    · exact ⟨_, _, rfl, rfl⟩
    · simp only
      split
      · exact ⟨_, _, rfl, rfl⟩
      · exact ⟨_, _, rfl, rfl⟩

/-- Whatever it does to the outside, it keeps the delay. -/
theorem OriginPacer.transmit_keeps {σ τ : Type} (lib : UrlLib) (rawUrl : String)
    (delay deadline : Nat) (lapse : Lapse) (transmit : Transmission σ τ) (s : Paced σ) :
    ∃ result after, OriginPacer.transmit lib rawUrl delay deadline lapse transmit s =
        (result, after) ∧
      after.outside = (if result.isOk then (transmit s.outside).2.1 else s.outside) ∧
      (0 < delay → s.Inv delay → after.Inv delay) := by
  obtain ⟨result, after, hrun, houtside⟩ :=
    OriginPacer.transmit_outside lib rawUrl delay deadline lapse transmit s
  refine ⟨result, after, hrun, houtside, fun hd hinv => ?_⟩
  let call : Call σ τ := ⟨.continuation rawUrl, deadline, lapse, transmit⟩
  obtain ⟨result', hresult, -⟩ := call.run_eq lib delay s
  obtain ⟨-, hafter⟩ := Prod.mk.inj (hrun.symm.trans hresult)
  rw [hafter]
  exact call.run_inv hd hinv

theorem transmits (guard : ResourceGuard) (request : PausedRequest) (s : Paced (List Command)) :
    ∃ result after, OriginPacer.transmit guard.lib request.url guard.crawlDelay guard.deadline
        request.lapse (guard.transmission request) s = (result, after) ∧
      Transmits guard request s after result.isOk := by
  obtain ⟨result, after, hrun, houtside, hkeeps⟩ := OriginPacer.transmit_keeps guard.lib
    request.url guard.crawlDelay guard.deadline request.lapse (guard.transmission request) s
  refine ⟨result, after, hrun, hkeeps, ?_⟩
  rw [houtside]
  cases result with
  | ok answer => rfl
  | error e => exact (List.append_nil _).symm

theorem interceptionStep_intercepts {guard : ResourceGuard} {s s' : Guarded} {t t' : Interception}
    (h : interceptionStep guard s t = some (s', t')) : Intercepts guard s t s' t' := by
  cases t with
  | paused request =>
    simp only [interceptionStep] at h
    split at h
    · split at h
      · next hanswer =>
        obtain ⟨rfl, rfl⟩ := Prod.mk.inj (Option.some.inj h)
        exact .permitted ⟨_, hanswer⟩
      · obtain ⟨rfl, rfl⟩ := Prod.mk.inj (Option.some.inj h)
        exact .denied _
    · next hother =>
      obtain ⟨rfl, rfl⟩ := Prod.mk.inj (Option.some.inj h)
      exact .other (Bool.eq_false_of_not_eq_true hother)
  | denying request detail =>
    obtain ⟨rfl, rfl⟩ := Prod.mk.inj (Option.some.inj h)
    exact .denying detail
  | recording request =>
    obtain ⟨result, tracker, hrecord, hkeeps, hcounts, htoo⟩ :=
      s.navigation.recordTopDocumentRequest_cases
    simp only [interceptionStep, hrecord] at h
    cases result with
    | ok answer =>
      obtain ⟨rfl, rfl⟩ := Prod.mk.inj (Option.some.inj h)
      exact .recorded hkeeps hcounts
    | error e =>
      obtain ⟨rfl, rfl⟩ := Prod.mk.inj (Option.some.inj h)
      exact .outrun hkeeps hcounts (htoo rfl)
  | admitting request =>
    rcases s.accounts.budget.admitRequest_cases with hgranted | ⟨hlt, hgranted⟩
    · simp only [interceptionStep, hgranted] at h
      obtain ⟨rfl, rfl⟩ := Prod.mk.inj (Option.some.inj h)
      exact .exhausted
    · simp only [interceptionStep, hgranted] at h
      obtain ⟨rfl, rfl⟩ := Prod.mk.inj (Option.some.inj h)
      exact .admitted hlt
  | failing request cause =>
    obtain ⟨rfl, rfl⟩ := Prod.mk.inj (Option.some.inj h)
    exact .failed cause
  | transmitting request =>
    obtain ⟨result, paced, hrun, htransmits⟩ := transmits guard request s.paced
    simp only [interceptionStep, hrun] at h
    cases result with
    | ok answer =>
      obtain ⟨rfl, rfl⟩ := Prod.mk.inj (Option.some.inj h)
      exact .sent htransmits
    | error e =>
      obtain ⟨rfl, rfl⟩ := Prod.mk.inj (Option.some.inj h)
      exact .late htransmits
  | lapsed request =>
    obtain ⟨rfl, rfl⟩ := Prod.mk.inj (Option.some.inj h)
    exact .lapsed
  | timingOut request =>
    obtain ⟨rfl, rfl⟩ := Prod.mk.inj (Option.some.inj h)
    exact .timedOut
  | checking request verdict =>
    simp only [interceptionStep] at h
    split at h
    · obtain ⟨rfl, rfl⟩ := Prod.mk.inj (Option.some.inj h)
      exact .within verdict
    · obtain ⟨rfl, rfl⟩ := Prod.mk.inj (Option.some.inj h)
      exact .beyond verdict
  | blocking request verdict =>
    obtain ⟨rfl, rfl⟩ := Prod.mk.inj (Option.some.inj h)
    exact .blocked verdict
  | settled request verdict => cases h

/-! ## The ledger -/

/-- The tab remembers that something was refused. -/
def Refusal.Recorded (s : Guarded) : Refusal → Prop
  | .policy => s.documentPolicyDenial.isSome = true
  | .navigation => s.navigation.state.tooManyRedirects = true
  | .budget => s.accounts.budget.usage.capExceeded = true
  | .pacing => s.pacingDeadlineExceeded = true

namespace Command

/-- A request of a kind is sent on. -/
def sends (q : PausedRequest → Bool) : Command → Bool
  | .continueRequest request _ => q request
  | .failRequest _ _ => false

/-- The request a command is about. -/
def requestId : Command → String
  | .continueRequest _ message => message.requestId
  | .failRequest requestId _ => requestId

/-- A request is sent on as the guard has it, and a document as the policy has it. -/
def Cleared (guard : ResourceGuard) : Command → Prop
  | .continueRequest request message =>
      message = guard.message request ∧
        (guard.isTopDocument request = true → guard.Permits request)
  | .failRequest _ _ => True

end Command

/-- Chromium has heard of a request. -/
def Guarded.Hears (s : Guarded) (request : PausedRequest) : Prop :=
  ∃ command ∈ s.paced.outside, command.requestId = request.requestId

/-- How many requests of a kind were sent on. -/
def Guarded.sent (s : Guarded) (q : PausedRequest → Bool) : Nat :=
  s.paced.outside.countP (Command.sends q)

namespace Interception

/-- The request was admitted, and is not refused. -/
def admitted : Interception → Bool
  | .transmitting _ | .lapsed _ | .timingOut _ | .checking _ _ | .blocking _ _
  | .settled _ .continued => true
  | _ => false

/-- A request of a kind was sent on. -/
def sent (q : PausedRequest → Bool) : Interception → Bool
  | .checking request .continued | .blocking request .continued | .settled request .continued =>
      q request
  | _ => false

/-- The request is past the count of navigations. -/
def counted : Interception → Bool
  | .paused _ | .denying _ _ | .recording _ => false
  | _ => true

/-- A document was let through the count of navigations, and is not refused. -/
def followed (guard : ResourceGuard) : Interception → Bool
  | .admitting request | .transmitting request | .lapsed request | .timingOut request
  | .checking request _ | .blocking request _ | .settled request .continued =>
      guard.isTopDocument request
  | _ => false

/-- A document that is past the policy was permitted. -/
def Cleared (guard : ResourceGuard) : Interception → Prop
  | .recording request | .admitting request | .transmitting request =>
      guard.isTopDocument request = true → guard.Permits request
  | _ => True

/-- Why the request is refused. -/
def refusal : Interception → Option Refusal
  | .failing _ cause => some cause
  | .timingOut _ => some .pacing
  | .checking _ (.refused cause) | .blocking _ (.refused cause) | .settled _ (.refused cause) =>
      some cause
  | _ => none

/-- Chromium has heard of the request, once there is nothing left but to look at the limit. -/
def Answered (s : Guarded) : Interception → Prop
  | .checking request _ | .blocking request _ | .settled request _ => s.Hears request
  | _ => True

/-- The steps ahead, at most. -/
def ahead : Interception → Nat
  | .paused _ => 8
  | .recording _ => 7
  | .admitting _ => 6
  | .transmitting _ => 5
  | .lapsed _ => 4
  | .timingOut _ => 3
  | .checking _ _ | .denying _ _ => 2
  | .blocking _ _ | .failing _ _ => 1
  | .settled _ _ => 0

theorem Answered.mono {s s' : Guarded} {t : Interception}
    (hgrows : ∀ command ∈ s.paced.outside, command ∈ s'.paced.outside) (h : t.Answered s) :
    t.Answered s' := by
  have hhears : ∀ request, s.Hears request → s'.Hears request := by
    rintro request ⟨command, hmem, hid⟩
    exact ⟨command, hgrows command hmem, hid⟩
  cases t with
  | checking request verdict => exact hhears request h
  | blocking request verdict => exact hhears request h
  | settled request verdict => exact hhears request h
  | _ => trivial

theorem sent_le_admitted (q : PausedRequest → Bool) (t : Interception) :
    t.sent q = true → t.admitted = true := by
  intro h
  cases t with
  | checking request verdict => rfl
  | blocking request verdict => rfl
  | settled request verdict =>
    cases verdict with
    | continued => rfl
    | refused cause => cases h
  | paused request => cases h
  | denying request detail => cases h
  | recording request => cases h
  | admitting request => cases h
  | failing request cause => cases h
  | transmitting request => cases h
  | lapsed request => cases h
  | timingOut request => cases h

theorem sent_le_followed (guard : ResourceGuard) (t : Interception) :
    t.sent guard.isTopDocument = true → t.followed guard = true := by
  intro h
  cases t with
  | checking request verdict =>
    cases verdict with
    | continued => exact h
    | refused cause => cases h
  | blocking request verdict =>
    cases verdict with
    | continued => exact h
    | refused cause => cases h
  | settled request verdict =>
    cases verdict with
    | continued => exact h
    | refused cause => cases h
  | paused request => cases h
  | denying request detail => cases h
  | recording request => cases h
  | admitting request => cases h
  | failing request cause => cases h
  | transmitting request => cases h
  | lapsed request => cases h
  | timingOut request => cases h

end Interception

namespace Intercepts

variable {guard : ResourceGuard} {s s' : Guarded} {t t' : Interception}

theorem caps (h : Intercepts guard s t s' t') : Keeps s.accounts.budget s'.accounts.budget := by
  cases h with
  | admitted hlt => exact ⟨rfl, rfl, fun _ => hlt, id, id⟩
  | exhausted => exact s.accounts.budget.exhaust_keeps
  | _ => exact .refl _

theorem config (h : Intercepts guard s t s' t') : s.navigation.Keeps s'.navigation := by
  cases h with
  | recorded hkeeps => exact hkeeps
  | outrun hkeeps => exact hkeeps
  | _ => exact .refl _

/-- What is remembered stays remembered. -/
theorem remembers (h : Intercepts guard s t s' t') {cause : Refusal} (hcause : cause.Recorded s) :
    cause.Recorded s' := by
  cases cause with
  | policy =>
    cases h with
    | denying => rfl
    | _ => exact hcause
  | navigation => exact h.config.tooMany hcause
  | budget => exact h.caps.capExceeded hcause
  | pacing =>
    cases h with
    | lapsed => rfl
    | _ => exact hcause

/-- A request is not refused before its cause is remembered. -/
theorem refuses (h : Intercepts guard s t s' t') {cause : Refusal}
    (hrefused : t'.refusal = some cause) : t.refusal = some cause ∨ cause.Recorded s' := by
  cases h with
  | denying detail =>
    obtain rfl := Option.some.inj hrefused
    exact .inr rfl
  | outrun hkeeps hcounts htoo =>
    obtain rfl := Option.some.inj hrefused
    exact .inr htoo
  | exhausted =>
    obtain rfl := Option.some.inj hrefused
    exact .inr rfl
  | lapsed =>
    obtain rfl := Option.some.inj hrefused
    exact .inr rfl
  | failed cause => exact .inl hrefused
  | timedOut => exact .inl hrefused
  | within verdict =>
    cases verdict with
    | continued => cases hrefused
    | refused cause => exact .inl hrefused
  | beyond verdict =>
    cases verdict with
    | continued => cases hrefused
    | refused cause => exact .inl hrefused
  | blocked verdict =>
    cases verdict with
    | continued => cases hrefused
    | refused cause => exact .inl hrefused
  | _ => cases hrefused

/-- A request is admitted once. -/
theorem admits (h : Intercepts guard s t s' t') :
    s.count + t'.admitted.toNat ≤ s'.count + t.admitted.toNat := by
  cases h with
  | admitted => exact Nat.le_refl _
  | within verdict => exact Nat.add_le_add_left (Bool.toNat_le _) _
  | blocked verdict => exact Nat.add_le_add_left (Bool.toNat_le _) _
  | _ => exact Nat.le_refl _

/-- A request is sent on once. -/
theorem sends (h : Intercepts guard s t s' t') (q : PausedRequest → Bool) :
    s'.sent q + (t.sent q).toNat = s.sent q + (t'.sent q).toNat := by
  have hfail : ∀ id reason, (s.send (.failRequest id reason)).sent q = s.sent q := by
    intro id reason
    show (s.paced.outside ++ [_]).countP _ = _
    rw [List.countP_append]
    rfl
  cases h with
  | @sent request paced hsent =>
    show List.countP _ paced.outside + 0 = s.sent q + (q request).toNat
    rw [hsent.outside, List.countP_append, if_pos rfl, List.countP_singleton]
    exact congrArg (s.sent q + ·) (ite_eq_toNat (q request))
  | late hlate =>
    show List.countP _ _ + 0 = _
    rw [hlate.outside, if_neg Bool.false_ne_true, List.append_nil]
    rfl
  | failed cause => rw [hfail]; rfl
  | timedOut => rw [hfail]; rfl
  | blocked verdict =>
    rw [hfail]
    cases verdict with
    | continued => rfl
    | refused cause => rfl
  | within verdict =>
    cases verdict with
    | continued => rfl
    | refused cause => rfl
  | beyond verdict =>
    cases verdict with
    | continued => rfl
    | refused cause => rfl
  | _ => rfl

/-- A document is asked about before it is let through. -/
theorem clears (h : Intercepts guard s t s' t') (ht : t.Cleared guard) : t'.Cleared guard := by
  cases h with
  | other htop => exact fun hdocument => by rw [htop] at hdocument; cases hdocument
  | permitted hpermits => exact fun _ => hpermits
  | recorded => exact ht
  | admitted => exact ht
  | _ => trivial

theorem commands (h : Intercepts guard s t s' t') (ht : t.Cleared guard) :
    ∀ command ∈ s'.paced.outside, command ∈ s.paced.outside ∨ command.Cleared guard := by
  have hfail : ∀ id reason, ∀ command ∈ (s.send (.failRequest id reason)).paced.outside,
      command ∈ s.paced.outside ∨ command.Cleared guard := by
    intro id reason command hmem
    rcases List.mem_append.mp hmem with hold | hnew
    · exact .inl hold
    · obtain rfl := List.mem_singleton.mp hnew
      exact .inr trivial
  cases h with
  | @sent request paced hsent =>
    intro command hmem
    have hmoved : command ∈ paced.outside := hmem
    rw [hsent.outside, if_pos rfl] at hmoved
    rcases List.mem_append.mp hmoved with hold | hnew
    · exact .inl hold
    · obtain rfl := List.mem_singleton.mp hnew
      exact .inr ⟨rfl, ht⟩
  | @late request paced hlate =>
    intro command hmem
    have hmoved : command ∈ paced.outside := hmem
    rw [hlate.outside, if_neg Bool.false_ne_true, List.append_nil] at hmoved
    exact .inl hmoved
  | failed cause => exact hfail _ _
  | timedOut => exact hfail _ _
  | blocked verdict => exact hfail _ _
  | _ => exact fun _ hmem => .inl hmem

/-- Nothing that was sent is taken back. -/
theorem grows (h : Intercepts guard s t s' t') :
    ∀ command ∈ s.paced.outside, command ∈ s'.paced.outside := by
  cases h with
  | @sent request paced hsent =>
    intro command hmem
    show command ∈ paced.outside
    rw [hsent.outside]
    exact List.mem_append_left _ hmem
  | @late request paced hlate =>
    intro command hmem
    show command ∈ paced.outside
    rw [hlate.outside]
    exact List.mem_append_left _ hmem
  | failed cause => exact fun _ hmem => List.mem_append_left _ hmem
  | timedOut => exact fun _ hmem => List.mem_append_left _ hmem
  | blocked verdict => exact fun _ hmem => List.mem_append_left _ hmem
  | _ => exact fun _ hmem => hmem

/-- Chromium hears of a request before the guard is done with it. -/
theorem answers (h : Intercepts guard s t s' t') (ht : t.Answered s) : t'.Answered s' := by
  have hfail : ∀ (request : PausedRequest) reason,
      (s.send (.failRequest request.requestId reason)).Hears request :=
    fun _ _ => ⟨_, List.mem_append_right _ (List.mem_singleton.mpr rfl), rfl⟩
  cases h with
  | @sent request paced hsent =>
    refine ⟨.continueRequest request (guard.message request), ?_, rfl⟩
    show _ ∈ paced.outside
    rw [hsent.outside, if_pos rfl]
    exact List.mem_append_right _ (List.mem_singleton.mpr rfl)
  | failed cause => exact hfail _ _
  | timedOut => exact hfail _ _
  | blocked verdict => exact hfail _ _
  | within verdict => exact ht
  | beyond verdict => exact ht
  | _ => trivial

/-- The request comes closer to its end. -/
theorem comes (h : Intercepts guard s t s' t') : t'.ahead < t.ahead := by
  cases h with
  | other => exact (by decide : 6 < 8)
  | permitted => exact (by decide : 7 < 8)
  | denied => exact (by decide : 2 < 8)
  | denying => exact (by decide : 1 < 2)
  | recorded => exact (by decide : 6 < 7)
  | outrun => exact (by decide : 1 < 7)
  | admitted => exact (by decide : 5 < 6)
  | exhausted => exact (by decide : 1 < 6)
  | failed => exact (by decide : 0 < 1)
  | sent => exact (by decide : 2 < 5)
  | late => exact (by decide : 4 < 5)
  | lapsed => exact (by decide : 3 < 4)
  | timedOut => exact (by decide : 2 < 3)
  | within => exact (by decide : 0 < 2)
  | beyond => exact (by decide : 1 < 2)
  | blocked => exact (by decide : 0 < 1)

theorem counts (h : Intercepts guard s t s' t') :
    s'.navigation.counted + t.counted.toNat ≤ s.navigation.counted + t'.counted.toNat := by
  cases h with
  | other => exact Nat.le_succ _
  | denying => exact Nat.le_succ _
  | recorded hkeeps hcounts => exact hcounts.counted
  | outrun hkeeps hcounts => exact hcounts.counted
  | _ => exact Nat.le_refl _

/-- A document is let through as one of the allowance. -/
theorem follows (h : Intercepts guard s t s' t')
    (hfollow : s.navigation.followClientRedirects = true)
    (hwraps : s.navigation.counted + 1 < 2 ^ 64) :
    s.navigation.allowance + (t'.followed guard).toNat ≤
      s'.navigation.allowance + (t.followed guard).toNat := by
  cases h with
  | other htop =>
    show _ + (guard.isTopDocument _).toNat ≤ _
    rw [htop]
    exact Nat.le_refl _
  | @recorded request navigation hkeeps hcounts =>
    have hallows : s.navigation.allowance + 1 ≤ navigation.allowance :=
      hcounts.allowance hfollow hwraps
    have hone : (guard.isTopDocument request).toNat ≤ 1 := Bool.toNat_le _
    show s.navigation.allowance + (guard.isTopDocument request).toNat ≤ navigation.allowance + 0
    omega
  | outrun hkeeps hcounts => exact hcounts.allowance hfollow hwraps
  | exhausted => exact Nat.add_le_add_left (Nat.zero_le _) _
  | within verdict =>
    cases verdict with
    | continued => exact Nat.le_refl _
    | refused cause => exact Nat.add_le_add_left (Nat.zero_le _) _
  | blocked verdict =>
    cases verdict with
    | continued => exact Nat.le_refl _
    | refused cause => exact Nat.add_le_add_left (Nat.zero_le _) _
  | _ => exact Nat.le_refl _

theorem paces (h : Intercepts guard s t s' t') (hd : 0 < guard.crawlDelay)
    (hinv : s.paced.Inv guard.crawlDelay) : s'.paced.Inv guard.crawlDelay := by
  cases h with
  | sent hsent => exact hsent.keeps hd hinv
  | late hlate => exact hlate.keeps hd hinv
  | _ => exact hinv

end Intercepts

/-- A paused request waits for nobody: it stands still when it is through. -/
theorem settled_of_step_eq_none (guard : ResourceGuard) (s : Guarded) {t : Interception}
    (h : interceptionStep guard s t = none) : ∃ request verdict, t = .settled request verdict := by
  cases t with
  | settled request verdict => exact ⟨request, verdict, rfl⟩
  | paused request =>
    simp only [interceptionStep] at h
    split at h
    · split at h
      · cases h
      · cases h
    · cases h
  | recording request =>
    simp only [interceptionStep] at h
    split at h
    · cases h
    · cases h
  | admitting request =>
    simp only [interceptionStep] at h
    split at h
    · cases h
    · cases h
  | transmitting request =>
    simp only [interceptionStep] at h
    split at h
    · cases h
    · cases h
  | checking request verdict =>
    simp only [interceptionStep] at h
    split at h
    · cases h
    · cases h
  | denying request detail => cases h
  | failing request cause => cases h
  | lapsed request => cases h
  | timingOut request => cases h
  | blocking request verdict => cases h

end Basecrawl.Render
