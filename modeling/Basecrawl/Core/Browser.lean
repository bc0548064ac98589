/-
  Chromium, as the scrape drives it.

  The browser is outside: it may ask for any documents, in any order, depending on the answers it
  gets, before it hands back whatever it likes.  Each document it asks for goes through the policy
  check of the scrape.
-/
import Basecrawl.Core.Solver

namespace Basecrawl.Core

open Run

/-- The identity and the limits of a launch. -/
structure LaunchConfig where
  userAgent : String
  requestHeaders : List (String × String)
  credentialOrigin : Option Url
  maxDocumentBytes : Nat
  acceptLanguage : String
  platform : String
  timezone : String
  locale : String
  fingerprintScript : Option String
  sealedSocks : Option String
  userDataDir : Option String
  requireStealthInject : Bool

/-- `RenderConfig`, as far as the scrape sets it. -/
structure RenderConfig extends LaunchConfig where
  waitFor : Option String
  actions : List Action
  maxRedirects : Nat
  windowSize : Nat × Nat

/-- `ScreenshotConfig`, as far as the scrape sets it. -/
structure ScreenshotConfig extends LaunchConfig where
  width : Nat
  height : Nat
  fullPage : Bool

/-- What a launch is for. -/
inductive BrowserTask where
  | render (config : RenderConfig)
  | screenshot (config : ScreenshotConfig)

/-- The entry of a launch in the log. -/
def BrowserTask.kind : BrowserTask → Launch
  | .render _ => .render
  | .screenshot _ => .screenshot

/-- What the engine does to the browser. -/
structure Browser (σ : Type) where
  /-- Launch it at a URL. -/
  start : Url → BrowserTask → Outside σ Unit
  /-- A bound on the documents this launch will ask for. -/
  visits : σ → Nat
  /-- The next document it asks for, if any. -/
  next : Outside σ (Option Url)
  /-- Hear what the policy says about it. -/
  answer : Except Error Unit → Outside σ Unit
  /-- Hand back the DOM of a render, the image of a screenshot. -/
  finish : Outside σ String

variable {σ : Type}

/-- The documents of a launch, each behind the policy check. -/
def browse (browser : Browser σ) (check : Url → Prog σ Unit) : Nat → Prog σ Unit
  | 0 => pure ()
  | visits + 1 => do
      match ← outside browser.next with
      | none => pure ()
      | some target => do
          -- a refusal is an answer to the browser, not the end of the launch
          let verdict ← attempt (check target)
          outside (browser.answer verdict)
          browse browser check visits

/-- `render_page_until` and `capture_until`. -/
def driveBrowser (browser : Browser σ) (check : Url → Prog σ Unit) (url : Url)
    (task : BrowserTask) : Prog σ String := do
  note (.launch task.kind)
  outside (browser.start url task)
  let visits ← observe browser.visits
  browse browser check visits
  outside browser.finish

/-- The documents of a launch log what their policy checks log. -/
theorem browse_emitsOnly {p : Event → Prop} {browser : Browser σ} {check : Url → Prog σ Unit}
    (hcheck : ∀ u, EmitsOnly World.trace p (check u)) :
    ∀ visits : Nat, EmitsOnly World.trace p (browse browser check visits) := by
  intro visits
  induction visits with
  | zero => exact emitsOnly_pure
  | succ visits ih =>
    unfold browse
    refine emitsOnly_outside.bind fun target => ?_
    cases target with
    | none => exact emitsOnly_pure
    | some target =>
      refine (hcheck target).attempt.bind fun verdict => ?_
      exact emitsOnly_outside.bind fun _ => ih

/-- A launch logs itself first, then what the policy checks of its documents log. -/
theorem driveBrowser_emits {p : Event → Prop} {browser : Browser σ} {check : Url → Prog σ Unit}
    (hcheck : ∀ u, EmitsOnly World.trace p (check u)) (url : Url) (task : BrowserTask) :
    Emits World.trace (driveBrowser browser check url task) fun _ es =>
      ∃ rest, es = .launch task.kind :: rest ∧ ∀ e ∈ rest, p e := by
  refine emits_note_bind ?_
  have hrest : EmitsOnly World.trace p (do
      outside (browser.start url task)
      let visits ← observe browser.visits
      browse browser check visits
      outside browser.finish) := by
    refine emitsOnly_outside.bind fun _ => emitsOnly_observe.bind fun visits => ?_
    exact (browse_emitsOnly hcheck visits).bind fun _ => emitsOnly_outside
  exact Emits.mono hrest fun _ rest h => ⟨rest, rfl, h⟩

end Basecrawl.Core
