/-
  The admission of the long-running HTTP surface.

  1. **Program** — a connection handler passes the gate (health, secret, route), then loads the
     inflight counter, refuses at the cap, else tries to raise it from what it loaded; admitted, it
     executes under `catch_unwind`, lowers the counter and answers.
  2. **The crux (`Inv`)** — the counter is the number of handlers between admission and release, and
     what a handler has loaded is below the cap for as long as it holds it.
  3. **Accounts (`changes_eq`)** — what a handler has done to the counter so far is read off where
     it stands: nothing when it was refused, one up and one down when it has answered.
-/
import Basecrawl.Core.ErrorReport
import Basecrawl.Lib.Text
import Basecrawl.Lib.Threads
import Mathlib.Tactic.SplitIfs

namespace Basecrawl.Core.Serve

open Text Threads

/-- The part of the configuration that admission reads; the bounds of a request go to
    `execute_mode`. -/
structure ServeConfig where
  host : String
  port : UInt16
  secret : Option String
  maxInflight : UInt64

def ServeConfig.bindAddr (config : ServeConfig) : String :=
  config.host ++ ":" ++ toString config.port.toNat

def serveSecretHeader : String := "x-basecrawl-serve-secret"

def serveResidualHonesty : String :=
  "basecrawl serve is a local long-running engine for soft " ++
  "scrape/crawl/map/batch over HTTP. Authenticity is cryptographically-anchored trust-but-audit, not " ++
  "trustless. Chromium residual risk (headless/CDP side-channels, fingerprint lag) remains. " ++
  "CapSolver and soft TLS impersonate are optional aids and are not commercial Web Unlocker parity. " ++
  "This surface is not anonymous egress and does not claim 100% unlock of challenges."

/-- What `execute_mode` comes back with. -/
inductive Executed where
  | ok (value : Json.Tree)
  | err (e : Error)
  | panic

/-- One request, with what its execution comes to and how long it takes. -/
structure Call where
  method : String
  path : String
  headers : List (String × String)
  execute : String → Executed
  durationMs : UInt64

structure Response where
  status : Nat
  value : Json.Tree
  headers : List (String × String)

/-- Constant-time-ish equality of two secrets. -/
def secretsEqual (a b : String) : Bool :=
  if (utf8 a).length ≠ (utf8 b).length then false
  else ((utf8 a).zip (utf8 b)).foldl (fun acc (x, y) => acc ||| (x ^^^ y)) 0 == 0

def headerValue (headers : List (String × String)) (name : String) : Option String :=
  (headers.find? fun (k, _) => eqIgnoreAsciiCase k name).map fun (_, v) => trim v

/-- The mode an execute route stands for. -/
def modeOf (method path : String) : Option String :=
  if method ≠ "POST" then none
  else if path ∈ ["/v1/scrape", "/scrape"] then some "scrape"
  else if path ∈ ["/v1/crawl", "/crawl"] then some "crawl"
  else if path ∈ ["/v1/map", "/map"] then some "map"
  else if path ∈ ["/v1/batch/scrape", "/v1/batch", "/batch"] then some "batch"
  else none

def errorValue (code message : String) (retryable : Bool) : Json.Tree :=
  .object [("error", .object [("code", .string code), ("message", .string message),
    ("retryable", .bool retryable)]), ("success", .bool false)]

def respHeaders (call : Call) : List (String × String) :=
  match headerValue call.headers "x-request-id" with
  | some rid => [("X-Request-Id", rid)]
  | none => []

def pathNorm (path : String) : String := (split path '?').head?.getD path

/-- Everything a handler decides before it looks at the counter: a response, or the mode to
    execute. -/
def gate (config : ServeConfig) (call : Call) : Except Response String :=
  let path := pathNorm call.path
  if eqIgnoreAsciiCase call.method "GET" ∧ (path = "/health" ∨ path = "/") then
    .error ⟨200, .object [("bind", .string config.bindAddr),
      ("residual", .string serveResidualHonesty), ("service", .string "basecrawl-serve"),
      ("status", .string "ok")], respHeaders call⟩
  else if config.secret.any fun expected =>
      !secretsEqual expected ((headerValue call.headers serveSecretHeader).getD "") then
    .error ⟨401, errorValue "unauthorized" "missing or invalid X-Basecrawl-Serve-Secret" false,
      respHeaders call⟩
  else
    match modeOf (asciiUpper call.method) path with
    | some mode => .ok mode
    | none => .error ⟨404, errorValue "not_found"
        ("unknown route " ++ call.method ++ " " ++ path) false, respHeaders call⟩

/-- `config.max_inflight.max(1)`. -/
def cap (config : ServeConfig) : UInt64 :=
  if 1 ≤ config.maxInflight then config.maxInflight else 1

def tooManyRequests (config : ServeConfig) (call : Call) : Response where
  status := 429
  value := errorValue "too_many_requests"
    ("max inflight " ++ toString (cap config).toNat ++ " exceeded") true
  headers := respHeaders call

def serveErrorStatus (err : Error) : Nat :=
  if err.kind ∈ ["missing_url", "invalid_url", "unsupported_scheme", "invalid_format",
    "invalid_product_option", "invalid_header", "unsupported_method", "invalid_json_schema",
    "unsupported_output"] then 400
  else if err.kind ∈ ["timeout", "render_timeout", "deadline_exceeded"] then 504
  else if err.kind ∈ ["robots_denied", "challenge_blocked"] then 403
  else if err.kind ∈ ["resource_budget_exceeded", "too_many_requests"] then 429
  else 502

/-- A successful value, with `success` and `metrics` filled in where it is an object without. -/
def withDefaults (durationMs : UInt64) : Json.Tree → Json.Tree
  | .object members =>
      let members := if (members.lookup "success").isSome then members
        else Json.insertMember "success" (.bool true) members
      .object (if (members.lookup "metrics").isSome then members
        else Json.insertMember "metrics"
          (.object [("duration_ms", .number (.posInt durationMs))]) members)
  | value => value

/-- The response to what `execute_mode` came back with. -/
def respond (call : Call) : Executed → Response
  | .ok value => ⟨200, withDefaults call.durationMs value, respHeaders call⟩
  | .err err =>
      let status := serveErrorStatus err
      ⟨status, errorValue err.kind err.display (status == 503 || status == 504 || status == 429),
        respHeaders call⟩
  | .panic => ⟨500, errorValue "internal_panic"
      "handler panicked (host-safe; no target payload in logs)" false, respHeaders call⟩

/-- Where a call of `handle_http_request` stands. -/
inductive Handler where
  | arrived (call : Call)
  | looping (call : Call) (mode : String)
  | loaded (call : Call) (mode : String) (cur : UInt64)
  | executing (call : Call) (mode : String)
  | releasing (call : Call) (result : Executed)
  | refused (response : Response)
  | answered (response : Response)

/-- One atomic step of a handler on the inflight counter. -/
def handlerStep (config : ServeConfig) (inflight : UInt64) :
    Handler → Option (UInt64 × Handler)
  | .arrived call =>
      match gate config call with
      | .error response => some (inflight, .refused response)
      | .ok mode => some (inflight, .looping call mode)
  | .looping call mode =>
      if cap config ≤ inflight then some (inflight, .refused (tooManyRequests config call))
      else some (inflight, .loaded call mode inflight)
  | .loaded call mode cur =>
      -- `compare_exchange(cur, cur + 1)`
      if inflight = cur then some (cur + 1, .executing call mode)
      else some (inflight, .looping call mode)
  | .executing call mode => some (inflight, .releasing call (call.execute mode))
  | .releasing call result => some (inflight - 1, .answered (respond call result))
  | .refused _ => none
  | .answered _ => none

/-- The handlers of the connections a listener accepts, and the counter they share. -/
def serving (calls : List Call) : Pool UInt64 Handler := ⟨0, calls.map .arrived⟩

/-! ## The gate -/

/-- The differences of two byte strings, all of them or none. -/
theorem foldl_or_xor_eq_zero : ∀ {as bs : Bytes} {acc : UInt8}, as.length = bs.length →
    ((as.zip bs).foldl (fun acc (x, y) => acc ||| (x ^^^ y)) acc = 0 ↔ acc = 0 ∧ as = bs)
  | [], [], acc, _ => by simp
  | a :: as, b :: bs, acc, h => by
      rw [List.zip_cons_cons, List.foldl_cons,
        foldl_or_xor_eq_zero (Nat.succ_inj.mp h), UInt8.or_eq_zero_iff, UInt8.xor_eq_zero_iff,
        List.cons.injEq, and_assoc]

theorem secretsEqual_iff {a b : String} : secretsEqual a b = true ↔ a = b := by
  unfold secretsEqual
  by_cases hlen : (utf8 a).length = (utf8 b).length
  · rw [if_neg (not_not.mpr hlen), beq_iff_eq, foldl_or_xor_eq_zero hlen, utf8_inj]
    exact and_iff_right rfl
  · rw [if_pos hlen]
    constructor
    · intro h
      cases h
    · rintro rfl
      exact absurd rfl hlen

/-- The gate refuses with health, `401` or `404`. -/
theorem status_of_gate {config : ServeConfig} {call : Call} {response : Response}
    (h : gate config call = .error response) :
    response.status = 200 ∨ response.status = 401 ∨ response.status = 404 := by
  simp only [gate] at h
  split at h
  · cases h
    exact Or.inl rfl
  · split at h
    · cases h
      exact Or.inr (Or.inl rfl)
    · split at h
      · cases h
      · cases h
        exact Or.inr (Or.inr rfl)

/-- A handler that was admitted never answers `401` or `404`. -/
theorem status_of_respond (call : Call) (result : Executed) :
    (respond call result).status ≠ 401 ∧ (respond call result).status ≠ 404 := by
  cases result with
  | ok value =>
    show 200 ≠ 401 ∧ 200 ≠ 404
    decide
  | panic =>
    show 500 ≠ 401 ∧ 500 ≠ 404
    decide
  | err e =>
    show serveErrorStatus e ≠ 401 ∧ serveErrorStatus e ≠ 404
    unfold serveErrorStatus
    split_ifs <;> decide

/-! ## The invariant -/

/-- A handler stands between admission and release. -/
def Handler.counted : Handler → Bool
  | .executing _ _ => true
  | .releasing _ _ => true
  | _ => false

/-- `execute_mode` is running. -/
def Handler.runs : Handler → Bool
  | .executing _ _ => true
  | _ => false

/-- What a handler has done to the counter so far. -/
def Handler.changed : Handler → List Int
  | .executing _ _ => [1]
  | .releasing _ _ => [1]
  | .answered _ => [1, -1]
  | _ => []

/-- What a handler has loaded is below the cap; a refusal is health, `401`, `404` or `429`, an
    answer neither `401` nor `404`. -/
def Handler.Sound (config : ServeConfig) : Handler → Prop
  | .loaded _ _ cur => cur < cap config
  | .refused response => response.status ∈ [200, 401, 404, 429]
  | .answered response => response.status ≠ 401 ∧ response.status ≠ 404
  | _ => True

/-- What holds of the counter and the handlers, between any two steps. -/
structure Inv (config : ServeConfig) (pool : Pool UInt64 Handler) : Prop where
  counter_eq : pool.shared.toNat = pool.threads.countP Handler.counted
  le_cap : pool.shared ≤ cap config
  sound : ∀ t ∈ pool.threads, t.Sound config

variable {config : ServeConfig}

/-- Everything a handler can do in one step: stay outside, be admitted, execute, be released. -/
theorem handlerStep_cases {n n' : UInt64} {t t' : Handler}
    (h : handlerStep config n t = some (n', t')) :
    (n' = n ∧ t.counted = false ∧ t.changed = [] ∧ t'.counted = false ∧ t'.changed = [] ∧
      t'.Sound config) ∨
    (∃ call mode, t = .loaded call mode n ∧ n' = n + 1 ∧ t' = .executing call mode) ∨
    (∃ call mode, t = .executing call mode ∧ n' = n ∧ t' = .releasing call (call.execute mode)) ∨
    (∃ call result, t = .releasing call result ∧ n' = n - 1 ∧
      t' = .answered (respond call result)) := by
  cases t with
  | arrived call =>
    left
    cases hgate : gate config call with
    | error response =>
      simp only [handlerStep, hgate, Option.some.injEq, Prod.mk.injEq] at h
      obtain ⟨rfl, rfl⟩ := h
      refine ⟨rfl, rfl, rfl, rfl, rfl, ?_⟩
      show response.status ∈ [200, 401, 404, 429]
      rcases status_of_gate hgate with hstatus | hstatus | hstatus <;> rw [hstatus] <;> decide
    | ok mode =>
      simp only [handlerStep, hgate, Option.some.injEq, Prod.mk.injEq] at h
      obtain ⟨rfl, rfl⟩ := h
      exact ⟨rfl, rfl, rfl, rfl, rfl, trivial⟩
  | looping call mode =>
    left
    by_cases hfull : cap config ≤ n
    · simp only [handlerStep, if_pos hfull, Option.some.injEq, Prod.mk.injEq] at h
      obtain ⟨rfl, rfl⟩ := h
      refine ⟨rfl, rfl, rfl, rfl, rfl, ?_⟩
      show 429 ∈ [200, 401, 404, 429]
      decide
    · simp only [handlerStep, if_neg hfull, Option.some.injEq, Prod.mk.injEq] at h
      obtain ⟨rfl, rfl⟩ := h
      exact ⟨rfl, rfl, rfl, rfl, rfl, UInt64.not_le.mp hfull⟩
  | loaded call mode cur =>
    by_cases hcur : n = cur
    · subst hcur
      simp only [handlerStep, if_true, Option.some.injEq, Prod.mk.injEq] at h
      exact Or.inr (Or.inl ⟨call, mode, rfl, h.1.symm, h.2.symm⟩)
    · simp only [handlerStep, if_neg hcur, Option.some.injEq, Prod.mk.injEq] at h
      obtain ⟨rfl, rfl⟩ := h
      exact Or.inl ⟨rfl, rfl, rfl, rfl, rfl, trivial⟩
  | executing call mode =>
    simp only [handlerStep, Option.some.injEq, Prod.mk.injEq] at h
    exact Or.inr (Or.inr (Or.inl ⟨call, mode, rfl, h.1.symm, h.2.symm⟩))
  | releasing call result =>
    simp only [handlerStep, Option.some.injEq, Prod.mk.injEq] at h
    exact Or.inr (Or.inr (Or.inr ⟨call, result, rfl, h.1.symm, h.2.symm⟩))
  | refused response => cases h
  | answered response => cases h

theorem toNat_cap (config : ServeConfig) : (cap config).toNat = max 1 config.maxInflight.toNat := by
  unfold cap
  by_cases h : 1 ≤ config.maxInflight
  · rw [if_pos h]
    exact (Nat.max_eq_right (UInt64.le_iff_toNat_le.mp h)).symm
  · have hlt : config.maxInflight.toNat < 1 := UInt64.lt_iff_toNat_lt.mp (UInt64.not_le.mp h)
    rw [if_neg h, Nat.max_eq_left (Nat.le_of_lt hlt)]
    rfl

theorem toNat_succ {n : UInt64} (h : n < cap config) : (n + 1).toNat = n.toNat + 1 := by
  have hmax : (cap config).toNat < 2 ^ 64 := (cap config).toNat_lt
  have hlt : n.toNat < (cap config).toNat := UInt64.lt_iff_toNat_lt.mp h
  rw [UInt64.toNat_add]
  exact Nat.mod_eq_of_lt (Nat.lt_of_le_of_lt hlt hmax)

theorem toNat_pred {n : UInt64} (h : 0 < n.toNat) : (n - 1).toNat = n.toNat - 1 :=
  UInt64.toNat_sub_of_le n 1 (UInt64.le_iff_toNat_le.mpr h)

theorem inv_serving (config : ServeConfig) (calls : List Call) : Inv config (serving calls) where
  counter_eq := by
    show 0 = (calls.map Handler.arrived).countP Handler.counted
    rw [List.countP_map]
    exact (List.countP_eq_zero.mpr fun _ _ => Bool.false_ne_true).symm
  le_cap := UInt64.zero_le
  sound := by
    intro t ht
    obtain ⟨call, -, rfl⟩ := List.mem_map.mp ht
    trivial

theorem inv_step {n n' : UInt64} {before after : List Handler} {t t' : Handler}
    (hstep : handlerStep config n t = some (n', t'))
    (h : Inv config ⟨n, before ++ t :: after⟩) : Inv config ⟨n', before ++ t' :: after⟩ := by
  have hcount := countP_replace Handler.counted before t t' after
  have hcounter : n.toNat = (before ++ t :: after).countP Handler.counted := h.counter_eq
  have hcap : n.toNat ≤ (cap config).toNat := UInt64.le_iff_toNat_le.mp h.le_cap
  rcases handlerStep_cases hstep with ⟨rfl, hout, -, hout', -, hsound⟩ |
    ⟨call, mode, rfl, rfl, rfl⟩ | ⟨call, mode, rfl, rfl, rfl⟩ | ⟨call, result, rfl, rfl, rfl⟩
  · rw [hout, hout', Bool.toNat_false] at hcount
    refine ⟨?_, h.le_cap, forall_replace h.sound hsound⟩
    show n'.toNat = (before ++ t' :: after).countP Handler.counted
    omega
  · -- admission: what the handler loaded is the counter, and it is below the cap
    have hlt : n < cap config := h.sound _ List.mem_append_cons_self
    have hltNat := UInt64.lt_iff_toNat_lt.mp hlt
    have hsucc := toNat_succ hlt
    simp only [Handler.counted, Bool.toNat_false, Bool.toNat_true] at hcount
    refine ⟨?_, UInt64.le_iff_toNat_le.mpr ?_, forall_replace h.sound trivial⟩
    · show (n + 1).toNat = (before ++ .executing call mode :: after).countP Handler.counted
      omega
    · show (n + 1).toNat ≤ _
      omega
  · simp only [Handler.counted, Bool.toNat_true] at hcount
    refine ⟨?_, h.le_cap, forall_replace h.sound trivial⟩
    show n'.toNat =
      (before ++ .releasing call (call.execute mode) :: after).countP Handler.counted
    omega
  · -- release: the handler itself is counted, so the counter is not zero
    simp only [Handler.counted, Bool.toNat_false, Bool.toNat_true] at hcount
    have hpred := toNat_pred (show 0 < n.toNat by omega)
    refine ⟨?_, UInt64.le_iff_toNat_le.mpr ?_, forall_replace h.sound (status_of_respond _ _)⟩
    · show (n - 1).toNat =
        (before ++ .answered (respond call result) :: after).countP Handler.counted
      omega
    · show (n - 1).toNat ≤ _
      omega

theorem inv_run {pool : Pool UInt64 Handler} (h : Inv config pool) (schedule : List Nat) :
    Inv config (run (handlerStep config) schedule pool) :=
  run_induction (fun _ _ _ _ _ _ hstep hinv => inv_step hstep hinv) h schedule

/-! ## Accounts -/

/-- What the turns of the `i`-th handler do to the counter, in order. -/
def changes (config : ServeConfig) (i : Nat) : List Nat → Pool UInt64 Handler → List Int
  | [], _ => []
  | k :: schedule, pool =>
      let next := move (handlerStep config) k pool
      (if k = i ∧ next.shared ≠ pool.shared then
        [(next.shared.toNat : Int) - pool.shared.toNat] else []) ++ changes config i schedule next

/-- One turn of a handler: what it changes is what its account grows by. -/
theorem changed_move {pool : Pool UInt64 Handler} (h : Inv config pool) {i : Nat} {t : Handler}
    (ht : pool.threads[i]? = some t) :
    ∃ t', (move (handlerStep config) i pool).threads[i]? = some t' ∧
      t'.changed = t.changed ++
        if (move (handlerStep config) i pool).shared ≠ pool.shared then
          [((move (handlerStep config) i pool).shared.toNat : Int) - pool.shared.toNat]
        else [] := by
  rcases move_self (handlerStep config) ht with ⟨-, hstill⟩ | ⟨n', t', hstep, hn', ht'⟩
  · refine ⟨t, by rw [hstill]; exact ht, ?_⟩
    rw [hstill]
    simp
  · refine ⟨t', ht', ?_⟩
    rw [hn']
    have hmem : t ∈ pool.threads := List.mem_of_getElem? ht
    rcases handlerStep_cases hstep with ⟨rfl, -, hchanged, -, hchanged', -⟩ |
      ⟨call, mode, rfl, rfl, rfl⟩ | ⟨call, mode, rfl, rfl, rfl⟩ | ⟨call, result, rfl, rfl, rfl⟩
    · rw [hchanged, hchanged']
      simp
    · have hsucc := toNat_succ (h.sound _ hmem)
      have hne : pool.shared + 1 ≠ pool.shared := by
        intro heq
        rw [heq] at hsucc
        omega
      rw [if_pos hne, hsucc]
      simp only [Handler.changed, List.nil_append, List.cons.injEq, and_true]
      omega
    · simp [Handler.changed]
    · have hpos : 0 < pool.shared.toNat := by
        rw [h.counter_eq]
        exact List.countP_pos_iff.mpr ⟨_, hmem, rfl⟩
      have hpred := toNat_pred hpos
      have hne : pool.shared - 1 ≠ pool.shared := by
        intro heq
        rw [heq] at hpred
        omega
      rw [if_pos hne, hpred]
      simp only [Handler.changed, List.cons_append, List.nil_append, List.cons.injEq, and_true,
        true_and]
      omega

/-- **The account of a handler is read off where it stands**, whatever the others do. -/
theorem changes_eq {i : Nat} :
    ∀ {schedule : List Nat} {pool : Pool UInt64 Handler} {t t' : Handler},
    Inv config pool → pool.threads[i]? = some t →
    (run (handlerStep config) schedule pool).threads[i]? = some t' →
    t'.changed = t.changed ++ changes config i schedule pool
  | [], pool, t, t', _, ht, ht' => by
      rw [run, ht] at ht'
      cases ht'
      simp [changes]
  | k :: schedule, pool, t, t', h, ht, ht' => by
      have hnext : Inv config (move (handlerStep config) k pool) := inv_run h [k]
      rw [run] at ht'
      rw [changes]
      by_cases hk : k = i
      · subst hk
        obtain ⟨u, hu, hchanged⟩ := changed_move h ht
        rw [changes_eq hnext hu ht', hchanged]
        simp [List.append_assoc]
      · have hsame := getElem?_move_of_ne (handlerStep config) hk pool
        rw [changes_eq hnext (hsame.trans ht) ht']
        simp [hk]

/-! ## Every run of the handlers -/

theorem countP_runs_le (threads : List Handler) :
    threads.countP Handler.runs ≤ threads.countP Handler.counted :=
  List.countP_mono_left fun t _ h => by
    cases t <;> first | rfl | cases h

theorem counted_eq_false_of_finished {pool : Pool UInt64 Handler}
    (hend : Finished (handlerStep config) pool) :
    pool.threads.countP Handler.counted = 0 := by
  rw [List.countP_eq_zero]
  intro t ht
  have hnone := hend t ht
  cases t with
  | executing call mode => cases hnone
  | releasing call result => cases hnone
  | _ => exact Bool.false_ne_true

theorem serving_get {calls : List Call} {i : Nat} {call : Call} (h : calls[i]? = some call) :
    (serving calls).threads[i]? = some (.arrived call) := by
  show (calls.map Handler.arrived)[i]? = _
  rw [List.getElem?_map, h]
  rfl

/-- A request the gate refuses is never admitted. -/
theorem refused_of_gate {calls : List Call} {i : Nat} {call : Call} {response : Response}
    (hcall : calls[i]? = some call) (hgate : gate config call = .error response)
    (schedule : List Nat) :
    ∃ t, (run (handlerStep config) schedule (serving calls)).threads[i]? = some t ∧
      (t = .arrived call ∨ t = .refused response) := by
  refine run_thread ?_ schedule (serving_get hcall) (Or.inl rfl)
  rintro s t s' t' hstep (rfl | rfl)
  · simp only [handlerStep, hgate, Option.some.injEq, Prod.mk.injEq] at hstep
    exact Or.inr hstep.2.symm
  · cases hstep

theorem exists_call {calls : List Call} {schedule : List Nat} {i : Nat} {t : Handler}
    (h : (run (handlerStep config) schedule (serving calls)).threads[i]? = some t) :
    ∃ call, (serving calls).threads[i]? = some (.arrived call) := by
  have hlen := length_run (handlerStep config) schedule (serving calls)
  obtain ⟨hi, -⟩ := List.getElem?_eq_some_iff.mp h
  rw [hlen] at hi
  have hcall : i < calls.length := by simpa [serving] using hi
  exact ⟨calls[i], serving_get (List.getElem?_eq_getElem hcall)⟩

/-- **Admission.**  Whatever the schedule, the counter is the number of handlers between admission
    and release and at most the cap, and so are the executions; the turns of a handler have raised
    it once and lowered it once when it has answered, and never touched it when it was refused. -/
theorem inflight_admission (config : ServeConfig) (calls : List Call) (schedule : List Nat) :
    let pool := run (handlerStep config) schedule (serving calls)
    pool.shared.toNat = pool.threads.countP Handler.counted ∧
    pool.shared.toNat ≤ max 1 config.maxInflight.toNat ∧
    pool.threads.countP Handler.runs ≤ max 1 config.maxInflight.toNat ∧
    (∀ i t, pool.threads[i]? = some t → changes config i schedule (serving calls) = t.changed) ∧
    (∀ i call response, calls[i]? = some call → gate config call = .error response →
      changes config i schedule (serving calls) = []) ∧
    (∀ response, Handler.refused response ∈ pool.threads →
      response.status ∈ [200, 401, 404, 429]) ∧
    (∀ response, Handler.answered response ∈ pool.threads →
      response.status ≠ 401 ∧ response.status ≠ 404) ∧
    (Finished (handlerStep config) pool → pool.shared = 0) := by
  have hinv := inv_run (inv_serving config calls) schedule
  have hcap := UInt64.le_iff_toNat_le.mp hinv.le_cap
  rw [toNat_cap] at hcap
  have hchanges : ∀ i t, (run (handlerStep config) schedule (serving calls)).threads[i]? = some t →
      changes config i schedule (serving calls) = t.changed := by
    intro i t ht
    obtain ⟨call, hcall⟩ := exists_call ht
    exact (changes_eq (inv_serving config calls) hcall ht).symm
  refine ⟨hinv.counter_eq, hcap, ?_, hchanges, ?_, fun r hr => hinv.sound _ hr,
    fun r hr => hinv.sound _ hr, ?_⟩
  · have hruns := countP_runs_le (run (handlerStep config) schedule (serving calls)).threads
    rw [← hinv.counter_eq] at hruns
    omega
  · intro i call response hcall hgate
    obtain ⟨t, ht, hstands⟩ := refused_of_gate hcall hgate schedule
    rw [hchanges i t ht]
    rcases hstands with rfl | rfl <;> rfl
  · intro hend
    have hzero := hinv.counter_eq
    rw [counted_eq_false_of_finished hend] at hzero
    exact UInt64.toNat_inj.mp hzero

end Basecrawl.Core.Serve
