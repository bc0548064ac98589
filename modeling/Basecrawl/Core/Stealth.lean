/-
  The hard-path policy: when Chromium is required, and what a challenge page looks like.
-/
import Basecrawl.Core.World

namespace Basecrawl.Core

open Text

/-! ## The path -/

/-- Difficulty of a site. -/
inductive SiteDifficulty where
  | soft
  | hard
deriving DecidableEq

/-- `SiteDifficulty::parse`. -/
def SiteDifficulty.parse (raw : String) : Option SiteDifficulty :=
  match asciiLower (trim raw) with
  | "soft" | "easy" | "direct" => some .soft
  | "hard" | "challenge" | "residential" => some .hard
  | _ => none

/-- Inputs that decide whether the hard Chromium path is required. -/
structure HardPathDecision where
  proxyClass : Option ProxyClass
  difficulty : Option SiteDifficulty
  forceBrowser : Bool
  renderEnabled : Bool
  needsBrowserFormats : Bool

/-- Classes that are dialed from a household or a phone. -/
def ProxyClass.isResidential (proxyClass : ProxyClass) : Bool :=
  proxyClass == .residential || proxyClass == .mobile

/-- `requires_chromium_hard_path`. -/
def requiresChromiumHardPath (decision : HardPathDecision) : Bool :=
  decision.forceBrowser || decision.proxyClass.any ProxyClass.isResidential ||
    decision.difficulty == some .hard

/-- `will_launch_chromium`; its refusal as the scrape reports it. -/
def willLaunchChromium (decision : HardPathDecision) (hardRequired : Bool) :
    Except Error Bool :=
  if hardRequired then
    if decision.renderEnabled then .ok true
    else
      .error (.hardPath ("hard/residential path requires Chromium rendering; refuse --no-js " ++
        "dual-stack fallback (VAL-STEALTH-001/017)"))
  else .ok (decision.renderEnabled && decision.needsBrowserFormats)

/-- `truthful_fetch_path`. -/
def truthfulFetchPath (chromiumUsed : Bool) : FetchPath :=
  if chromiumUsed then .chromium else .direct

@[simp] theorem truthfulFetchPath_eq_chromium {chromiumUsed : Bool} :
    truthfulFetchPath chromiumUsed = .chromium ↔ chromiumUsed = true := by
  cases chromiumUsed <;> simp [truthfulFetchPath]

/-- A hard scrape that goes on has rendering enabled and will use the browser. -/
theorem willLaunchChromium_hard {decision : HardPathDecision} {launches : Bool}
    (h : willLaunchChromium decision true = .ok launches) :
    launches = true ∧ decision.renderEnabled = true := by
  unfold willLaunchChromium at h
  rw [if_pos rfl] at h
  split at h
  · rename_i hrender
    exact ⟨(Except.ok.inj h).symm, hrender⟩
  · cases h

/-! ## Challenge pages -/

/-- Words of a wall that answers with a refusal status. -/
def wallMarkers : List String :=
  ["captcha", "cf-mitigated", "just a moment", "attention required", "access denied",
    "bot detection", "challenge-platform", "cf-browser-verification", "cf-challenge", "turnstile"]

/-- A managed Cloudflare challenge. -/
def isCfChallenge (lower : String) : Bool :=
  (contains lower "just a moment" && contains lower "cloudflare") ||
    contains lower "cf-browser-verification" || contains lower "cf-challenge" ||
    contains lower "challenge-platform" ||
    (contains lower "checking your browser" && contains lower "cloudflare")

/-- A Turnstile or captcha widget. -/
def isCaptchaWidget (lower : String) : Bool :=
  (contains lower "turnstile" &&
      (contains lower "challenge" || contains lower "cf-turnstile" ||
        contains lower "data-sitekey")) ||
    contains lower "g-recaptcha" || contains lower "h-captcha" || contains lower "hcaptcha" ||
    (contains lower "captcha" &&
      (contains lower "data-sitekey" || contains lower "verify you are human" ||
        contains lower "complete the captcha" || contains lower "captcha-form" ||
        contains lower "recaptcha"))

/-- `looks_like_challenge_interstitial`. -/
def looksLikeChallengeInterstitial (html : String) (statusCode : Nat) : Bool :=
  let lower := asciiLower html
  if statusCode = 401 ∨ statusCode = 403 ∨ statusCode = 429 ∨ statusCode = 503 then
    wallMarkers.any (contains lower)
  else
    isCfChallenge lower || isCaptchaWidget lower || contains lower "hdn-captcha" ||
      contains lower "permanent redirect to a captcha"

example : looksLikeChallengeInterstitial "<title>Just a moment...</title> Cloudflare" 200 = true := by
  decide

example : looksLikeChallengeInterstitial "<h1>Forbidden</h1>" 403 = false := by
  decide

end Basecrawl.Core
