/-
  A captcha task at the solver's provider: create it, then poll its result.

  The replies are the provider's, in JSON of any shape; the readings are a clock's.

  1. **One reply** — `createReply` and `pollReply` say what a single reply comes to;
     `createReply_cases` and `pollReply_cases` list it, and which replies end the run
     (`TerminalCreate`, `TerminalPoll`).
  2. **The loop** — `pollTaskResult_cases`: the rounds before the last one go on, the last one runs
     out of time or is settled by its reply.
  3. **The run** — a token comes from the last reply (`solveChallenge_solved`), nothing is sent
     behind a terminal reply (`solveChallenge_posts`), and the key is in no detail that repeats a
     reply (`solveChallenge_detail`).
-/
import Basecrawl.Core.Solver
import Basecrawl.Lib.Replace
import Basecrawl.Seal.Redact

namespace Basecrawl.Core.CaptchaTask

open Text Json Replace
open Seal (contains_eq_false)

/-! ## Program -/

/-- What a task needs of the runtime; durations are in nanoseconds. -/
structure Runtime where
  apiBase : String
  solveTimeout : Nat
  pollInterval : Nat
  clientKey : String

/-- A request with the fields only a task has. -/
structure SolveRequest extends Core.SolveRequest where
  action : Option String
  cdata : Option String

structure SolveSolution extends Core.SolveSolution where
  taskType : String

inductive SolveOutcome where
  | solved (solution : SolveSolution)
  | failed (kind : SolverErrorKind) (detail : String) (taskId : Option String)

inductive CreateTaskResult where
  | pending (taskId : String)
  | ready (solution : SolveSolution)

/-- What `post_json` comes back with. -/
abbrev Reply := Except String (Nat × Tree)

/-- What a run does outside. -/
inductive Event where
  | post (url : String) (body : Tree)
  | sleep (nanos : Nat)

/-- The readings at the top of each round, since the start of the run, and before its pause.  Time
    does not stand still. -/
structure Clock where
  now : Nat → Nat
  later : Nat → Nat
  passes : ∀ t, ∃ round, t ≤ now round

/-- The clock, and the replies: to `createTask`, then to each poll. -/
structure World where
  clock : Clock
  created : Reply
  polled : Nat → Reply

def turnstileTaskType : String := "AntiTurnstileTaskProxyLess"

/-- `Value::as_i64`. -/
def asI64 : Tree → Option Int
  | .number (.posInt n) => if n < 0x8000000000000000 then some n.toNat else none
  | .number (.negInt n) => some n.toInt
  | _ => none

def scrubSecret (text secret : String) : String :=
  if secret = "" then text else replace text secret Seal.redactedToken

def classifyProviderError (code desc : String) (httpStatus : Nat) : SolverErrorKind :=
  let c := asciiUpper code
  let d := asciiLower desc
  if httpStatus = 401 ∨ httpStatus = 403 ∨ contains c "KEY" ∨ contains c "AUTH" ∨
      contains d "invalid key" ∨ contains d "api key" ∨ contains d "unauthorized" ∨
      contains d "client key" then .auth
  else .provider

/-- A member that is a text. -/
def textMember (value : Tree) (key : String) : Option String := (value.get key).bind Tree.asStr

/-- `errorId`, when it is an integer. -/
def errorId (value : Tree) : Int := ((value.get "errorId").bind asI64).getD 0

/-- The token of a solution. -/
def tokenOf (solution : Tree) : Option String :=
  ((solution.get "token" <|> solution.get "gRecaptchaResponse").bind Tree.asStr).filter (· ≠ "")

def extractSolution (value : Tree) (fallbackTaskId : String) : Option SolveSolution := do
  let solution ← value.get "solution"
  let token ← tokenOf solution
  return {
    token := token
    taskId := ((textMember value "taskId").filter (· ≠ "")).getD fallbackTaskId
    userAgent := textMember solution "userAgent"
    taskType := turnstileTaskType }

/-- The JSON of a task. -/
def createTaskBody (runtime : Runtime) (request : SolveRequest) : Tree :=
  let metadata := (request.action.map fun a => ("action", Tree.string a)).toList ++
    (request.cdata.map fun c => ("cdata", Tree.string c)).toList
  .object [("clientKey", .string runtime.clientKey), ("task", .object
    ((if metadata = [] then [] else [("metadata", .object metadata)]) ++
      [("type", .string turnstileTaskType), ("websiteKey", .string request.websiteKey),
        ("websiteURL", .string request.websiteUrl)]))]

/-- `create_task`, on the reply. -/
def createReply (runtime : Runtime) : Reply → Except SolveOutcome CreateTaskResult
  | .error e => .error (.failed .transport (scrubSecret e runtime.clientKey) none)
  | .ok (status, value) =>
    if status = 401 ∨ status = 403 then
      .error (.failed .auth ("capsolver createTask HTTP " ++ Nat.repr status ++
        " (invalid or unauthorized key)") none)
    else if errorId value ≠ 0 ∨ 400 ≤ status then
      let code := (textMember value "errorCode").getD ""
      let desc := (textMember value "errorDescription").getD "capsolver createTask failed"
      .error (.failed (classifyProviderError code desc status)
        (scrubSecret ("createTask failed code=" ++ code ++ " desc=" ++ desc ++ " http=" ++
          Nat.repr status) runtime.clientKey) (textMember value "taskId"))
    else
      -- a task may be ready at once
      match if textMember value "status" = some "ready" then extractSolution value "" else none with
      | some solution => .ok (.ready solution)
      | none =>
        match (textMember value "taskId").filter (· ≠ "") with
        | some taskId => .ok (.pending taskId)
        | none => .error (.failed .provider "createTask returned no taskId" none)

/-- One reply to a poll; `none` is to go on. -/
def pollReply (runtime : Runtime) (taskId : String) : Reply → Option SolveOutcome
  | .error e => some (.failed .transport (scrubSecret e runtime.clientKey) (some taskId))
  | .ok (status, value) =>
    if status = 401 ∨ status = 403 then
      some (.failed .auth ("capsolver getTaskResult HTTP " ++ Nat.repr status ++
        " (invalid or unauthorized key)") (some taskId))
    else if errorId value ≠ 0 ∨ 400 ≤ status then
      let code := (textMember value "errorCode").getD ""
      let desc := (textMember value "errorDescription").getD "getTaskResult failed"
      some (.failed (classifyProviderError code desc status)
        (scrubSecret ("getTaskResult failed code=" ++ code ++ " desc=" ++ desc ++ " http=" ++
          Nat.repr status) runtime.clientKey) (some taskId))
    else
      let statusText := (textMember value "status").getD ""
      if statusText = "ready" then
        match extractSolution value taskId with
        | some solution =>
          if solution.token ≠ "" then some (.solved solution)
          else some (.failed .provider "empty solution token; refuse forge" (some taskId))
        | none => some (.failed .provider
            "ready status without solution token; refuse forge" (some taskId))
      else if statusText = "failed" ∨ statusText = "error" then
        some (.failed .provider "capsolver status=failed" (some taskId))
      else none

/-- The polls before a round; the counter is a `u32`. -/
def pollsBefore (round : Nat) : Nat := (UInt32.ofNat round).toNat

/-- The poll of a round: the pause before it, but for the first, and the request. -/
def pollEvents (runtime : Runtime) (world : World) (taskId : String) (round : Nat) : List Event :=
  let pause := min runtime.pollInterval (runtime.solveTimeout - world.clock.later round)
  (if 0 < pollsBefore round ∧ pause ≠ 0 then [.sleep pause] else []) ++
    [.post (runtime.apiBase ++ "/getTaskResult")
      (.object [("clientKey", .string runtime.clientKey), ("taskId", .string taskId)])]

/-- `poll_task_result`, from a round on. -/
def pollTaskResult (runtime : Runtime) (world : World) (taskId : String) :
    Nat → Nat → Option (SolveOutcome × List Event)
  | 0, _ => none
  | fuel + 1, round =>
    if runtime.solveTimeout ≤ world.clock.now round then
      some (.failed .timeout ("solver_timeout after " ++ Nat.repr (pollsBefore round) ++
        " poll(s) (budget " ++ Nat.repr (runtime.solveTimeout / 1000000000) ++ "s)") (some taskId), [])
    else
      match pollReply runtime taskId (world.polled round) with
      | some outcome => some (outcome, pollEvents runtime world taskId round)
      | none => (pollTaskResult runtime world taskId fuel (round + 1)).map fun rest =>
          (rest.1, pollEvents runtime world taskId round ++ rest.2)

/-- `solve_challenge`, with a bound on its polls. -/
def solveChallenge (runtime : Runtime) (request : SolveRequest) (world : World) (fuel : Nat) :
    Option (SolveOutcome × List Event) :=
  if request.challengeClass ≠ .turnstile then
    some (.failed .unsupported ("challenge class '" ++ request.challengeClass.asStr ++
      "' is not implemented for CapSolver in this build " ++
      "(supported: turnstile, cloudflare_turnstile)") none, [])
  else if trim request.websiteKey = "" then
    some (.failed .unsupported "turnstile sitekey missing; refuse forge" none, [])
  else
    let asked := [Event.post (runtime.apiBase ++ "/createTask") (createTaskBody runtime request)]
    match createReply runtime world.created with
    | .ok (.ready solution) => some (.solved solution, asked)
    | .ok (.pending taskId) => (pollTaskResult runtime world taskId fuel 0).map fun rest =>
        (rest.1, asked ++ rest.2)
    | .error outcome => some (outcome, asked)

/-! ## One reply -/

/-- The `i`-th reply of a run. -/
def World.reply (world : World) : Nat → Reply
  | 0 => world.created
  | round + 1 => world.polled round

/-- A reply refuses: by its status, or by an `errorId` that is an integer other than zero. -/
def Refuses (status : Nat) (value : Tree) : Prop := 400 ≤ status ∨ errorId value ≠ 0

/-- The replies to `createTask` that leave nothing to poll. -/
def TerminalCreate : Reply → Prop
  | .error _ => True
  | .ok (status, value) => Refuses status value ∨
      (textMember value "status" = some "ready" ∧ (extractSolution value "").isSome) ∨
      (textMember value "taskId").filter (· ≠ "") = none

/-- The replies to a poll that settle the task. -/
def TerminalPoll : Reply → Prop
  | .error _ => True
  | .ok (status, value) => Refuses status value ∨
      ∃ text ∈ ["ready", "failed", "error"], textMember value "status" = some text

/-- The reply ends the run. -/
def World.Terminal (world : World) : Nat → Prop
  | 0 => TerminalCreate world.created
  | round + 1 => TerminalPoll (world.polled round)

/-- A reply that a token may be taken from: a success that is ready and has the token. -/
def Vouches (reply : Reply) (token : String) : Prop :=
  ∃ status value solution, reply = .ok (status, value) ∧ ¬ Refuses status value ∧
    value.get "status" = some (.string "ready") ∧ value.get "solution" = some solution ∧
    (solution.get "token" <|> solution.get "gRecaptchaResponse") = some (.string token)

/-- The texts of the solver itself: they repeat neither a reply nor the key. -/
inductive OwnText (runtime : Runtime) (request : SolveRequest) : String → Prop
  | unsupported : OwnText runtime request ("challenge class '" ++ request.challengeClass.asStr ++
      "' is not implemented for CapSolver in this build " ++
      "(supported: turnstile, cloudflare_turnstile)")
  | noSitekey : OwnText runtime request "turnstile sitekey missing; refuse forge"
  | createRejected {status : Nat} (h : status = 401 ∨ status = 403) : OwnText runtime request
      ("capsolver createTask HTTP " ++ Nat.repr status ++ " (invalid or unauthorized key)")
  | pollRejected {status : Nat} (h : status = 401 ∨ status = 403) : OwnText runtime request
      ("capsolver getTaskResult HTTP " ++ Nat.repr status ++ " (invalid or unauthorized key)")
  | noTaskId : OwnText runtime request "createTask returned no taskId"
  | timeout (round : Nat) : OwnText runtime request ("solver_timeout after " ++
      Nat.repr (pollsBefore round) ++ " poll(s) (budget " ++
      Nat.repr (runtime.solveTimeout / 1000000000) ++ "s)")
  | noToken : OwnText runtime request "ready status without solution token; refuse forge"
  | failed : OwnText runtime request "capsolver status=failed"

/-- A detail is an own text, or it is scrubbed. -/
def Discreet (runtime : Runtime) (request : SolveRequest) (detail : String) : Prop :=
  OwnText runtime request detail ∨ ∃ text, detail = scrubSecret text runtime.clientKey

variable {runtime : Runtime} {request : SolveRequest} {world : World} {reply : Reply}
  {taskId token detail : String} {kind : SolverErrorKind} {failedId : Option String}
  {solution : SolveSolution} {outcome : SolveOutcome}

theorem tokenOf_eq_some {tree : Tree} (h : tokenOf tree = some token) : token ≠ "" ∧
    (tree.get "token" <|> tree.get "gRecaptchaResponse") = some (.string token) := by
  obtain ⟨htext, hne⟩ := Option.filter_eq_some_iff.mp h
  exact ⟨of_decide_eq_true hne, asStr_bind_eq_some.mp htext⟩

theorem extractSolution_some {value : Tree} (h : extractSolution value taskId = some solution) :
    ∃ tree, value.get "solution" = some tree ∧ tokenOf tree = some solution.token := by
  obtain ⟨tree, htree, h⟩ := Option.bind_eq_some_iff.mp h
  obtain ⟨text, htext, h⟩ := Option.bind_eq_some_iff.mp h
  cases h
  exact ⟨tree, htree, htext⟩

/-- A ready reply that does not refuse. -/
theorem vouches_of_extract {status : Nat} {value : Tree} (hrefuses : ¬ Refuses status value)
    (hready : textMember value "status" = some "ready")
    (h : extractSolution value taskId = some solution) :
    solution.token ≠ "" ∧ Vouches (.ok (status, value)) solution.token := by
  obtain ⟨tree, htree, htoken⟩ := extractSolution_some h
  obtain ⟨hne, hmember⟩ := tokenOf_eq_some htoken
  exact ⟨hne, status, value, tree, rfl, hrefuses, asStr_bind_eq_some.mp hready, htree, hmember⟩

/-- **What a reply to `createTask` comes to.** -/
theorem createReply_cases (runtime : Runtime) (request : SolveRequest) (reply : Reply) :
    (∃ taskId, createReply runtime reply = .ok (.pending taskId) ∧ ¬ TerminalCreate reply) ∨
    (∃ solution, createReply runtime reply = .ok (.ready solution) ∧ solution.token ≠ "" ∧
      Vouches reply solution.token) ∨
    ∃ kind detail taskId, createReply runtime reply = .error (.failed kind detail taskId) ∧
      Discreet runtime request detail := by
  cases reply with
  | error e => exact .inr (.inr ⟨_, _, _, rfl, .inr ⟨e, rfl⟩⟩)
  | ok received =>
    obtain ⟨status, value⟩ := received
    by_cases hauth : status = 401 ∨ status = 403
    · exact .inr (.inr ⟨_, _, _, by rw [createReply, if_pos hauth], .inl (.createRejected hauth)⟩)
    by_cases hrefused : errorId value ≠ 0 ∨ 400 ≤ status
    · rw [createReply, if_neg hauth, if_pos hrefused]
      exact .inr (.inr ⟨_, _, _, rfl, .inr ⟨_, rfl⟩⟩)
    have hrefuses : ¬ Refuses status value := fun h => hrefused h.symm
    cases hsync : (if textMember value "status" = some "ready" then extractSolution value ""
        else none) with
    | some solution =>
      have hready : textMember value "status" = some "ready" := by
        by_contra hnot
        rw [if_neg hnot] at hsync
        cases hsync
      rw [if_pos hready] at hsync
      refine .inr (.inl ⟨solution, ?_, vouches_of_extract hrefuses hready hsync⟩)
      rw [createReply, if_neg hauth, if_neg hrefused, if_pos hready, hsync]
    | none =>
      cases htask : (textMember value "taskId").filter (· ≠ "") with
      | some taskId =>
        refine .inl ⟨taskId, by rw [createReply, if_neg hauth, if_neg hrefused, hsync, htask], ?_⟩
        rintro (h | ⟨hready, hsome⟩ | hnone)
        · exact hrefuses h
        · rw [if_pos hready] at hsync
          rw [hsync] at hsome
          cases hsome
        · rw [htask] at hnone
          cases hnone
      | none =>
        rw [createReply, if_neg hauth, if_neg hrefused, hsync, htask]
        exact .inr (.inr ⟨_, _, _, rfl, .inl .noTaskId⟩)

/-- **What a reply to a poll comes to.** -/
theorem pollReply_cases (runtime : Runtime) (request : SolveRequest) (taskId : String)
    (reply : Reply) :
    (pollReply runtime taskId reply = none ∧ ¬ TerminalPoll reply) ∨
    (∃ solution, pollReply runtime taskId reply = some (.solved solution) ∧ solution.token ≠ "" ∧
      Vouches reply solution.token) ∨
    ∃ kind detail taskId', pollReply runtime taskId reply = some (.failed kind detail taskId') ∧
      Discreet runtime request detail := by
  cases reply with
  | error e => exact .inr (.inr ⟨_, _, _, rfl, .inr ⟨e, rfl⟩⟩)
  | ok received =>
    obtain ⟨status, value⟩ := received
    by_cases hauth : status = 401 ∨ status = 403
    · exact .inr (.inr ⟨_, _, _, by rw [pollReply, if_pos hauth], .inl (.pollRejected hauth)⟩)
    by_cases hrefused : errorId value ≠ 0 ∨ 400 ≤ status
    · rw [pollReply, if_neg hauth, if_pos hrefused]
      exact .inr (.inr ⟨_, _, _, rfl, .inr ⟨_, rfl⟩⟩)
    have hrefuses : ¬ Refuses status value := fun h => hrefused h.symm
    by_cases hready : (textMember value "status").getD "" = "ready"
    · have hmember : textMember value "status" = some "ready" := by
        cases hstatus : textMember value "status" with
        | none =>
          rw [hstatus] at hready
          exact absurd hready (by decide)
        | some text =>
          rw [hstatus] at hready
          exact congrArg some hready
      cases hextract : extractSolution value taskId with
      | some solution =>
        have hvouches := vouches_of_extract hrefuses hmember hextract
        refine .inr (.inl ⟨solution, ?_, hvouches⟩)
        rw [pollReply, if_neg hauth, if_neg hrefused]
        simp only [if_pos hready, hextract, if_pos hvouches.1]
      | none =>
        rw [pollReply, if_neg hauth, if_neg hrefused]
        simp only [if_pos hready, hextract]
        exact .inr (.inr ⟨_, _, _, rfl, .inl .noToken⟩)
    by_cases hfailed : (textMember value "status").getD "" = "failed" ∨
        (textMember value "status").getD "" = "error"
    · rw [pollReply, if_neg hauth, if_neg hrefused]
      simp only [if_neg hready, if_pos hfailed]
      exact .inr (.inr ⟨_, _, _, rfl, .inl .failed⟩)
    · refine .inl ⟨?_, ?_⟩
      · rw [pollReply, if_neg hauth, if_neg hrefused]
        simp only [if_neg hready, if_neg hfailed]
      · rintro (h | ⟨text, htext, hmember⟩)
        · exact hrefuses h
        · rw [hmember] at hready hfailed
          rcases List.mem_cons.mp htext with rfl | htext
          · exact hready rfl
          rcases List.mem_cons.mp htext with rfl | htext
          · exact hfailed (.inl rfl)
          · exact hfailed (.inr (List.mem_singleton.mp htext))

/-! ## The loop -/

def Event.isPost : Event → Bool
  | .post _ _ => true
  | .sleep _ => false

/-- How many requests are sent. -/
def posts (events : List Event) : Nat := events.countP Event.isPost

theorem posts_append (events more : List Event) : posts (events ++ more) = posts events + posts more :=
  List.countP_append

theorem posts_pollEvents (runtime : Runtime) (world : World) (taskId : String) (round : Nat) :
    posts (pollEvents runtime world taskId round) = 1 := by
  rw [pollEvents, posts_append]
  split <;> rfl

/-- **How polling ends**: the rounds before the last one go on; the last one is out of time before it
asks, or its reply settles the task. -/
theorem pollTaskResult_cases (request : SolveRequest) :
    ∀ {fuel round : Nat} {outcome : SolveOutcome} {events : List Event},
    pollTaskResult runtime world taskId fuel round = some (outcome, events) →
      ∃ last, round ≤ last ∧
        (∀ k, round ≤ k → k < last → pollReply runtime taskId (world.polled k) = none) ∧
        ((posts events + round = last ∧ ∃ detail, OwnText runtime request detail ∧
            outcome = .failed .timeout detail (some taskId)) ∨
          (posts events + round = last + 1 ∧
            pollReply runtime taskId (world.polled last) = some outcome))
  | 0, _, _, _, h => by cases h
  | fuel + 1, round, outcome, events, h => by
    rw [pollTaskResult] at h
    split at h
    · cases h
      exact ⟨round, Nat.le_refl _, fun k hk hk' => absurd hk' (Nat.not_lt.mpr hk),
        .inl ⟨Nat.zero_add _, _, .timeout round, rfl⟩⟩
    have hone := posts_pollEvents runtime world taskId round
    split at h
    · next settled hsettled =>
      cases h
      refine ⟨round, Nat.le_refl _, fun k hk hk' => absurd hk' (Nat.not_lt.mpr hk), .inr ⟨?_, hsettled⟩⟩
      rw [hone, Nat.add_comm]
    · next hon =>
      obtain ⟨⟨outcome', rest⟩, hrest, heq⟩ := Option.map_eq_some_iff.mp h
      cases heq
      obtain ⟨last, hle, hbefore, hend⟩ := pollTaskResult_cases request hrest
      refine ⟨last, by omega, ?_, ?_⟩
      · intro k hk hk'
        rcases Nat.eq_or_lt_of_le hk with rfl | hk
        · exact hon
        · exact hbefore k hk hk'
      · have hrest' : posts (outcome', rest).2 = posts rest := rfl
        rw [posts_append, hone, hrest']
        rcases hend with ⟨hposts, hown⟩ | ⟨hposts, hsettled⟩
        · exact .inl ⟨by omega, hown⟩
        · exact .inr ⟨by omega, hsettled⟩

/-- Time passes, so polling ends. -/
theorem pollTaskResult_ends : ∀ {n round : Nat}, runtime.solveTimeout ≤ world.clock.now (round + n) →
    ∃ run, pollTaskResult runtime world taskId (n + 1) round = some run
  | 0, round, hlate => by
    rw [Nat.add_zero] at hlate
    rw [pollTaskResult, if_pos hlate]
    exact ⟨_, rfl⟩
  | n + 1, round, hlate => by
    have hnext : runtime.solveTimeout ≤ world.clock.now (round + 1 + n) := by
      rw [show round + 1 + n = round + (n + 1) by omega]
      exact hlate
    obtain ⟨rest, hrest⟩ : ∃ rest, pollTaskResult runtime world taskId (n + 1) (round + 1) =
      some rest := pollTaskResult_ends hnext
    rw [pollTaskResult]
    split
    · exact ⟨_, rfl⟩
    split
    · exact ⟨_, rfl⟩
    · rw [hrest]
      exact ⟨_, rfl⟩

/-! ## The run -/

/-- A terminal reply is the last one that is asked for. -/
theorem pollTaskResult_posts (request : SolveRequest) {events : List Event} {fuel : Nat}
    (h : pollTaskResult runtime world taskId fuel 0 = some (outcome, events)) {round : Nat}
    (hround : TerminalPoll (world.polled round)) : posts events ≤ round + 1 := by
  obtain ⟨last, -, hbefore, hend⟩ := pollTaskResult_cases request h
  have hlast : last ≤ round := by
    by_contra hlater
    have hon := hbefore round (Nat.zero_le _) (Nat.not_le.mp hlater)
    rcases pollReply_cases runtime request taskId (world.polled round) with
      ⟨-, hnot⟩ | ⟨solution, hsolved, -⟩ | ⟨kind, detail, failedId, hfailed, -⟩
    · exact hnot hround
    · rw [hon] at hsolved
      cases hsolved
    · rw [hon] at hfailed
      cases hfailed
  rcases hend with ⟨hposts, -⟩ | ⟨hposts, -⟩ <;> omega

/-- **How polling a task ends.** -/
theorem pollTaskResult_outcome (request : SolveRequest) {events : List Event} {fuel : Nat}
    (h : pollTaskResult runtime world taskId fuel 0 = some (outcome, events)) :
    (∃ kind detail failedId, outcome = .failed kind detail failedId ∧
        Discreet runtime request detail) ∨
      ∃ solution last, outcome = .solved solution ∧ solution.token ≠ "" ∧
        posts events = last + 1 ∧ Vouches (world.polled last) solution.token := by
  obtain ⟨last, -, -, hend⟩ := pollTaskResult_cases request h
  rcases hend with ⟨-, detail, hown, rfl⟩ | ⟨hposts, hsettled⟩
  · exact .inl ⟨_, _, _, rfl, .inl hown⟩
  rcases pollReply_cases runtime request taskId (world.polled last) with
    ⟨hon, -⟩ | ⟨solution, hsolved, htoken, hvouches⟩ | ⟨kind, detail, failedId, hfailed, hdiscreet⟩
  · rw [hsettled] at hon
    cases hon
  · rw [hsettled] at hsolved
    exact .inr ⟨solution, last, Option.some.inj hsolved, htoken, hposts, hvouches⟩
  · rw [hsettled] at hfailed
    exact .inl ⟨kind, detail, failedId, Option.some.inj hfailed, hdiscreet⟩

/-- **How a run ends**: with a token its last reply vouches for, or with a discreet failure. -/
theorem solveChallenge_outcome {events : List Event} {fuel : Nat}
    (h : solveChallenge runtime request world fuel = some (outcome, events)) :
    (∃ kind detail failedId, outcome = .failed kind detail failedId ∧
        Discreet runtime request detail) ∨
      ∃ solution last, outcome = .solved solution ∧ solution.token ≠ "" ∧
        posts events = last + 1 ∧ Vouches (world.reply last) solution.token := by
  rw [solveChallenge] at h
  split at h
  · cases h
    exact .inl ⟨_, _, _, rfl, .inl .unsupported⟩
  split at h
  · cases h
    exact .inl ⟨_, _, _, rfl, .inl .noSitekey⟩
  rcases createReply_cases runtime request world.created with
    ⟨taskId, hpending, -⟩ | ⟨solution, hready, htoken, hvouches⟩ |
      ⟨kind, detail, failedId, hfailed, hdiscreet⟩
  · simp only [hpending] at h
    obtain ⟨⟨outcome', rest⟩, hrest, heq⟩ := Option.map_eq_some_iff.mp h
    cases heq
    rcases pollTaskResult_outcome request hrest with hfail | ⟨solution, last, hsolved, htoken,
      hposts, hvouches⟩
    · exact .inl hfail
    · refine .inr ⟨solution, last + 1, hsolved, htoken, ?_, hvouches⟩
      rw [posts_append, hposts]
      exact Nat.add_comm 1 (last + 1)
  · simp only [hready] at h
    cases h
    exact .inr ⟨solution, 0, rfl, htoken, rfl, hvouches⟩
  · simp only [hfailed] at h
    cases h
    exact .inl ⟨kind, detail, failedId, rfl, hdiscreet⟩

/-- Nothing is sent behind a terminal reply. -/
theorem solveChallenge_posts {events : List Event} {fuel i : Nat}
    (h : solveChallenge runtime request world fuel = some (outcome, events))
    (hi : world.Terminal i) : posts events ≤ i + 1 := by
  have hone : ∀ (url : String) (body : Tree), posts [.post url body] ≤ i + 1 :=
    fun url body => Nat.succ_le_succ (Nat.zero_le i)
  rw [solveChallenge] at h
  split at h
  · cases h
    exact Nat.zero_le _
  split at h
  · cases h
    exact Nat.zero_le _
  rcases createReply_cases runtime request world.created with
    ⟨taskId, hpending, hnot⟩ | ⟨solution, hready, -⟩ | ⟨kind, detail, failedId, hfailed, -⟩
  · simp only [hpending] at h
    obtain ⟨⟨outcome', rest⟩, hrest, heq⟩ := Option.map_eq_some_iff.mp h
    cases heq
    cases i with
    | zero => exact absurd hi hnot
    | succ round =>
      have hposts := pollTaskResult_posts request hrest hi
      rw [posts_append]
      show 1 + posts rest ≤ round + 1 + 1
      omega
  · simp only [hready] at h
    cases h
    exact hone _ _
  · simp only [hfailed] at h
    cases h
    exact hone _ _

/-- Time passes, so a run ends. -/
theorem solveChallenge_ends (runtime : Runtime) (request : SolveRequest) (world : World) :
    ∃ fuel run, solveChallenge runtime request world fuel = some run := by
  obtain ⟨round, hlate⟩ := world.clock.passes runtime.solveTimeout
  have hlate' : runtime.solveTimeout ≤ world.clock.now (0 + round) := by
    rw [Nat.zero_add]
    exact hlate
  refine ⟨round + 1, ?_⟩
  rw [solveChallenge]
  split
  · exact ⟨_, rfl⟩
  split
  · exact ⟨_, rfl⟩
  simp only
  split
  · exact ⟨_, rfl⟩
  · next taskId hpending =>
    obtain ⟨run, hrun⟩ : ∃ run, pollTaskResult runtime world taskId (round + 1) 0 = some run :=
      pollTaskResult_ends hlate'
    rw [hrun]
    exact ⟨_, rfl⟩
  · exact ⟨_, rfl⟩

/-- A secret that does not overlap the mark is scrubbed for good. -/
theorem contains_scrubSecret {text secret : String}
    (hapart : Apart secret.toList Seal.redactedToken.toList) :
    contains (scrubSecret text secret) secret = false := by
  have hne : secret ≠ "" := by
    rintro rfl
    exact hapart.not_inside List.nil_infix
  rw [scrubSecret, if_neg hne, contains_eq_false]
  exact (replace_spec Seal.redactedToken hne).apart_gone hapart

/-- **The solver never forges a solution**: a token comes from the last reply, which is a ready
success that has it; nothing is sent behind a terminal reply; a detail that repeats a reply does not
have the key. -/
theorem captcha_solution (runtime : Runtime) (request : SolveRequest) (world : World) :
    (∃ fuel run, solveChallenge runtime request world fuel = some run) ∧
    ∀ fuel outcome events, solveChallenge runtime request world fuel = some (outcome, events) →
      (∀ solution, outcome = .solved solution → solution.token ≠ "" ∧
        ∃ last, posts events = last + 1 ∧ Vouches (world.reply last) solution.token) ∧
      (∀ i, world.Terminal i → posts events ≤ i + 1) ∧
      ∀ kind detail taskId, outcome = .failed kind detail taskId →
        contains detail runtime.clientKey = true →
          OwnText runtime request detail ∨
            ¬ Apart runtime.clientKey.toList Seal.redactedToken.toList := by
  refine ⟨solveChallenge_ends runtime request world, fun fuel outcome events hrun => ⟨?_, ?_, ?_⟩⟩
  · rintro solution rfl
    rcases solveChallenge_outcome hrun with ⟨kind, detail, failedId, hfailed, -⟩ |
      ⟨solution', last, hsolved, htoken, hposts, hvouches⟩
    · cases hfailed
    · cases hsolved
      exact ⟨htoken, last, hposts, hvouches⟩
  · intro i hi
    exact solveChallenge_posts hrun hi
  · rintro kind detail taskId rfl hkey
    rcases solveChallenge_outcome hrun with ⟨kind', detail', failedId, hfailed, hdiscreet⟩ |
      ⟨solution', last, hsolved, -⟩
    · cases hfailed
      rcases hdiscreet with hown | ⟨text, rfl⟩
      · exact .inl hown
      · refine .inr fun hapart => ?_
        rw [contains_scrubSecret hapart] at hkey
        cases hkey
    · cases hsolved

/-- A reply with an `errorId` that is a text. -/
def mistypedReply : Tree := .object [("errorId", .string "1"),
  ("solution", .object [("token", .string "t")]), ("status", .string "ready")]

def steadyClock : Clock := ⟨id, id, fun t => ⟨t, Nat.le_refl t⟩⟩

def turnstileRequest : SolveRequest :=
  ⟨⟨"https://example.test/", "0x4AAAAAAA", .turnstile⟩, none, none⟩

/-- An `errorId` that is no integer does not refuse, and an own text has the key that is a part of
it. -/
theorem not_captcha_solution :
    (∃ events, solveChallenge ⟨"https://api.test", 90000000000, 1000000000, "CAP-0123456789"⟩
      turnstileRequest ⟨steadyClock, .ok (200, mistypedReply), fun _ => .error ""⟩ 0 =
        some (.solved ⟨⟨"t", "", none⟩, turnstileTaskType⟩, events)) ∧
    mistypedReply.get "errorId" = some (.string "1") ∧
    ∃ events, solveChallenge ⟨"https://api.test", 90000000000, 1000000000, "capsolver"⟩
      turnstileRequest ⟨steadyClock, .ok (401, .null), fun _ => .error ""⟩ 0 =
        some (.failed .auth "capsolver createTask HTTP 401 (invalid or unauthorized key)" none,
          events) ∧
      contains "capsolver createTask HTTP 401 (invalid or unauthorized key)" "capsolver" = true := by
  refine ⟨⟨_, rfl⟩, rfl, ⟨_, rfl, by decide⟩⟩

end Basecrawl.Core.CaptchaTask
