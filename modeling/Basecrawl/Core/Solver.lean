/-
  The optional captcha solver: when it is configured, what it is asked, and what its token is worth.

  The provider is outside.  A token alone never counts: `residualAfterAppliedToken` reads the page
  it was applied to.
-/
import Basecrawl.Core.Stealth
import Basecrawl.Lib.Outcome

namespace Basecrawl.Core

open Text Outcome Run

/-! ## Actions -/

/-- `ScrollDirection`. -/
inductive ScrollDirection where
  | down
  | up
deriving DecidableEq

/-- A scripted navigation action. -/
inductive Action where
  | click (selector : String)
  | scroll (direction : ScrollDirection)
  | wait (milliseconds : UInt64)
  | waitForSelector (selector : String)
  | evaluate (expression : String)
deriving DecidableEq

/-! ## Configuration -/

/-- How the key was supplied. -/
inductive CaptchaKeySource where
  | env (name : String)
  | options
deriving DecidableEq

/-- The solver's configuration with its key. -/
structure CaptchaSolverRuntime where
  keySource : CaptchaKeySource
  apiBase : String
  solveTimeoutSecs : Nat
  apiKey : String

/-- `CAPSOLVER_API_BASE`. -/
def capsolverApiBase : String := "https://api.capsolver.com"

/-- `DEFAULT_SOLVE_TIMEOUT_SECS`. -/
def defaultSolveTimeoutSecs : Nat := 90

/-- `read_api_key_from_env`. -/
def readApiKeyFromEnv (env : Env) : Option (String × CaptchaKeySource) :=
  ["CAPSOLVER_API_KEY", "BASECRAWL_CAPSOLVER_API_KEY"].findSome? fun name =>
    ((env name).map trim).bind fun key => if key = "" then none else some (key, .env name)

/-- `char::is_control`. -/
def isControl (c : Char) : Bool := c.toNat < 0x20 || (0x7f ≤ c.toNat && c.toNat < 0xa0)

/-- A base URL without the slashes at its end. -/
def trimSlashes (s : String) : String :=
  String.ofList (s.toList.reverse.dropWhile (· == '/')).reverse

/-- The key of the options, else that of the environment. -/
def keyMaterial (env : Env) (optionsKey : Option String) : Option (String × CaptchaKeySource) :=
  match (optionsKey.map trim).filter (· != "") with
  | some key => some (key, .options)
  | none => readApiKeyFromEnv env

/-- `resolve_runtime`.  Every key names the one provider there is, whatever solver is selected, so
    the selection (`captcha_solver`, `BASECRAWL_CAPTCHA_SOLVER`) decides nothing. -/
def resolveRuntime (env : Env) (optionsKey : Option String) (solveTimeoutSecs : Option Nat) :
    Except Error (Option CaptchaSolverRuntime) :=
  match keyMaterial env optionsKey with
  | none => .ok none
  | some (apiKey, keySource) =>
      if apiKey.toList.any fun c => isControl c || isWhitespace c then
        .error (.solver "solver_auth_error"
          "captcha solver API key contains invalid whitespace/control characters" none)
      else
        .ok (some
          { keySource := keySource
            apiBase := (((env "BASECRAWL_CAPSOLVER_API_BASE").map fun v =>
              trimSlashes (trim v)).filter (· != "")).getD capsolverApiBase
            solveTimeoutSecs := solveTimeoutSecs.getD defaultSolveTimeoutSecs
            apiKey := apiKey })

/-! ## The challenge -/

/-- Challenge class of a page. -/
inductive ChallengeClass where
  | turnstile
  | unsupported
deriving DecidableEq

/-- `ChallengeClass::as_str`. -/
def ChallengeClass.asStr : ChallengeClass → String
  | .turnstile => "turnstile"
  | .unsupported => "unsupported"

/-- What follows the first place where the text, in lower case, reads `needle`. -/
def dropThrough (needle : List Char) : List Char → Option (List Char)
  | [] => none
  | c :: cs =>
      if needle.isPrefixOf ((c :: cs).map Char.toLower) then some ((c :: cs).drop needle.length)
      else dropThrough needle cs

/-- The attribute value after `needle`, when it is long enough for a key. -/
def sitekeyAfter (html needle : String) : Option String :=
  match dropThrough needle.toList html.toList with
  | none => none
  | some rest =>
      let key := trim (String.ofList (rest.takeWhile fun c => !("\"' >&".toList.contains c)))
      if (utf8 key).length ≥ 8 then some key else none

/-- `extract_turnstile_sitekey`. -/
def extractTurnstileSitekey (html : String) : Option String :=
  ["data-sitekey=\"", "data-sitekey='", "sitekey=\"", "sitekey='"].findSome? (sitekeyAfter html)

/-- `classify_challenge_html`: only a page with a Turnstile site key is supported. -/
def classifyChallengeHtml (html : String) : ChallengeClass :=
  let lower := asciiLower html
  let sitekey := (extractTurnstileSitekey html).isSome
  let turnstileIsh := contains lower "turnstile" || contains lower "cf-turnstile" ||
    (contains lower "data-sitekey" &&
      (contains lower "challenges.cloudflare.com" || contains lower "cf-turnstile"))
  if (turnstileIsh || (sitekey && contains lower "captcha")) && sitekey then .turnstile
  else .unsupported

/-! ## Solving -/

/-- A solver token. -/
structure SolveSolution where
  token : String
  taskId : String
  userAgent : Option String

/-- Typed solver failure. -/
inductive SolverErrorKind where
  | auth
  | timeout
  | unsupported
  | provider
  | transport
deriving DecidableEq

/-- `SolverErrorKind::as_str`. -/
def SolverErrorKind.asStr : SolverErrorKind → String
  | .auth => "solver_auth_error"
  | .timeout => "solver_timeout"
  | .unsupported => "solver_unsupported"
  | .provider => "solver_error"
  | .transport => "solver_transport_error"

/-- Result of an attempt. -/
inductive SolveOutcome where
  | solved (solution : SolveSolution)
  | failed (kind : SolverErrorKind) (detail : String)

/-- Solve request for a detected challenge. -/
structure SolveRequest where
  websiteUrl : String
  websiteKey : String
  challengeClass : ChallengeClass

/-- `outcome_to_error`. -/
def outcomeToError (outcome : SolveOutcome) (challengeStatus : Nat) : Error :=
  match outcome with
  | .solved _ =>
      .solver "solver_apply_pending"
        ("solver returned a token but application into content is required before " ++
          "content_success (refuse forge from token alone)") (some challengeStatus)
  | .failed .unsupported detail =>
      .challengeBlocked challengeStatus ("solver_unsupported: " ++ detail)
  | .failed kind detail => .solver kind.asStr detail (some challengeStatus)

/-- Hand on the token of a solved attempt. -/
def solutionOf (challengeStatus : Nat) : SolveOutcome → Except Error SolveSolution
  | .solved solution => .ok solution
  | outcome => .error (outcomeToError outcome challengeStatus)

/-- The request for a page, which must carry a site key. -/
def solveRequest (websiteUrl html : String) (challengeStatus : Nat) :
    Except Error SolveRequest := do
  require (classifyChallengeHtml html != .unsupported)
    (.challengeBlocked challengeStatus
      ("challenge class unsupported by CapSolver mapping (supported: turnstile, " ++
        "cloudflare_turnstile); refuse content_success"))
  let sitekey ← okOr (extractTurnstileSitekey html)
    (.challengeBlocked challengeStatus "turnstile sitekey not found; refuse forge")
  .ok { websiteUrl := websiteUrl, websiteKey := sitekey, challengeClass := classifyChallengeHtml html }

/-- The provider: `create_task` and `poll_task_result`. -/
abbrev Provider (σ : Type) := CaptchaSolverRuntime → SolveRequest → Outside σ SolveOutcome

variable {σ : Type}

/-- `solve_challenge`. -/
def solveChallenge (provider : Provider σ) (runtime : CaptchaSolverRuntime)
    (request : SolveRequest) : Prog σ SolveOutcome :=
  if request.challengeClass ≠ .turnstile then
    pure (.failed .unsupported ("challenge class '" ++ request.challengeClass.asStr ++
      "' is not implemented for CapSolver in this build " ++
      "(supported: turnstile, cloudflare_turnstile)"))
  else if trim request.websiteKey = "" then
    pure (.failed .unsupported "turnstile sitekey missing; refuse forge")
  else outside (provider runtime request)

/-- `try_optional_challenge_solve` and `attempt_optional_solve`.  The source's `Ok(None)` is never
    returned: without a runtime it is the error. -/
def tryOptionalChallengeSolve (provider : Provider σ) (runtime : Option CaptchaSolverRuntime)
    (websiteUrl html : String) (statusCode : Nat) (detectDetail : String) :
    Prog σ SolveSolution :=
  match runtime with
  | none => throw (.challengeBlocked statusCode detectDetail)
  | some runtime => do
      let request ← ofResult (solveRequest websiteUrl html statusCode)
      let solved ← solveChallenge provider runtime request
      ofResult (solutionOf statusCode solved)

/-! ## Applying the token -/

/-- The JavaScript that puts a token into the page. -/
abbrev InjectScript := String → String

/-- `turnstile_token_inject_expression`. -/
def turnstileTokenInjectExpression (script : InjectScript) (token : String) :
    Except Error String := do
  require (trim token != "")
    (.solver "solver_error" "refuse forge: empty Turnstile token cannot be applied" none)
  .ok (script token)

/-- `paced_delay_ms` with the default floor of 80 and ceiling of 320. -/
def pacedDelayMs (seed : UInt64) : UInt64 := 80 + seed % 241

/-- `armed_solver_apply_actions`. -/
def armedSolverApplyActions (script : InjectScript) (token : String) (seed : UInt64) :
    Except Error (List Action) := do
  let expression ← turnstileTokenInjectExpression script token
  .ok
    [.wait (pacedDelayMs (seed ^^^ 0xA5A5A5A5)), .evaluate expression,
      .wait (pacedDelayMs (seed ^^^ 0x5A5A5A5A)), .wait 450]

/-- `residual_after_applied_token`. -/
def residualAfterAppliedToken (html : String) (statusCode : Nat) (taskId : String) :
    Except Error Unit :=
  -- this marker settles it, whatever else the page shows
  if contains html "data-basecrawl-content-unlocked" then .ok ()
  else if !contains html "data-basecrawl-turnstile-applied=\"1\"" then
    .error (.solver "solver_apply_failed"
      ("CapSolver token task_id=" ++ taskId ++ " was not observed as applied in the DOM; " ++
        "refuse content_success (not commercial unlocker parity)") (some statusCode))
  else
    require (!looksLikeChallengeInterstitial html statusCode)
      (.challengeBlocked statusCode
        ("CapSolver token task_id=" ++ taskId ++ " was applied but challenge residual remains " ++
          "(managed interstitial / no primary content). Optional solver is not Web Unlocker " ++
          "parity; no content_success forge"))

/-- Solving logs nothing. -/
theorem tryOptionalChallengeSolve_emitsOnly {p : Event → Prop} {provider : Provider σ}
    {runtime : Option CaptchaSolverRuntime} {websiteUrl html : String} {statusCode : Nat}
    {detectDetail : String} :
    EmitsOnly World.trace p
      (tryOptionalChallengeSolve provider runtime websiteUrl html statusCode detectDetail) := by
  unfold tryOptionalChallengeSolve
  split
  · exact emitsOnly_throw
  · refine emitsOnly_ofResult.bind fun request => ?_
    refine EmitsOnly.bind ?_ fun solved => emitsOnly_ofResult
    unfold solveChallenge
    split
    · exact emitsOnly_pure
    · split
      · exact emitsOnly_pure
      · exact emitsOnly_outside

end Basecrawl.Core
