/-
  The long-running HTTP surface under load: what each request gets, and that it gets it.

  1. **The gate** — who is let through (`gate_eq_ok`): the secret, `POST` and a route.
  2. **Standing (`Stands`)** — where a handler can be, in terms of the one request it serves; the
     threads stand to the requests as `Forall₂` throughout (`stands_run`).
  3. **Crowds** — a refusal at the cap means that more requests than the cap want in
     (`counted_lt_wanting`).
  4. **The measure (`toGo`)** — a failed `compare_exchange` costs two moves and is paid for by the
     change of the counter that made it fail, so the loop is lock-free: every schedule has at most
     quadratically many moves.
-/
import Basecrawl.Core.ResponseWriting
import Mathlib.Data.List.Forall2
import Mathlib.Tactic.Ring

namespace Basecrawl.Core.Serve

open Text Threads

variable {config : ServeConfig}

/-! ## The gate -/

/-- What a request must show to be executed in a mode. -/
structure Authorized (config : ServeConfig) (call : Call) (mode : String) : Prop where
  secret : ∀ expected, config.secret = some expected →
    (headerValue call.headers serveSecretHeader).getD "" = expected
  route : modeOf (asciiUpper call.method) (pathNorm call.path) = some mode

/-- A route to execute is no health probe. -/
theorem post_of_modeOf {method path mode : String} (h : modeOf (asciiUpper method) path = some mode) :
    eqIgnoreAsciiCase method "GET" = false := by
  have hpost : asciiUpper method = "POST" := by
    by_contra hne
    rw [modeOf, if_pos hne] at h
    cases h
  rw [Bool.eq_false_iff]
  intro hget
  have hlower : asciiLower method = asciiLower "GET" := eq_of_beq hget
  have hlen := congrArg (fun s => s.toList.length) hlower
  have hlen' := congrArg (fun s => s.toList.length) hpost
  simp only [asciiLower, asciiUpper, String.toList_ofList, List.length_map] at hlen hlen'
  have hfour : "POST".toList.length = 4 := by decide
  have hthree : "GET".toList.length = 3 := by decide
  omega

/-- **The gate lets exactly the authorized requests through.** -/
theorem gate_eq_ok {call : Call} {mode : String} :
    gate config call = .ok mode ↔ Authorized config call mode := by
  have hsecret : (config.secret.any fun expected =>
      !secretsEqual expected ((headerValue call.headers serveSecretHeader).getD "")) = false ↔
      ∀ expected, config.secret = some expected →
        (headerValue call.headers serveSecretHeader).getD "" = expected := by
    cases config.secret with
    | none =>
      refine iff_of_true rfl ?_
      intro expected h
      cases h
    | some secret =>
      rw [Option.any_some, Bool.not_eq_false', secretsEqual_iff]
      constructor
      · intro h expected hexpected
        rw [← h, Option.some.inj hexpected]
      · intro h
        exact (h secret rfl).symm
  constructor
  · intro h
    simp only [gate] at h
    split at h
    · cases h
    · split at h
      · cases h
      · next hopen =>
        split at h
        · next hmode =>
          cases h
          exact ⟨hsecret.mp (Bool.eq_false_iff.mpr hopen), hmode⟩
        · cases h
  · rintro ⟨hshown, hroute⟩
    have hget := post_of_modeOf hroute
    have hopen := Bool.eq_false_iff.mp (hsecret.mpr hshown)
    simp only [gate]
    rw [if_neg (fun h => absurd h.1 (by rw [hget]; exact Bool.false_ne_true)), if_neg hopen, hroute]

/-! ## Standing -/

/-- A request that the gate lets through. -/
def wanting (config : ServeConfig) (call : Call) : Bool := (gate config call).toOption.isSome

theorem wanting_of_gate {call : Call} {mode : String} (h : gate config call = .ok mode) :
    wanting config call = true := by
  rw [wanting, h]
  rfl

/-- Where the handler of a request can be; `crowded` says whether it may be refused at the cap. -/
inductive Stands (config : ServeConfig) (crowded : Prop) (call : Call) : Handler → Prop where
  | arrived : Stands config crowded call (.arrived call)
  | looping {mode : String} (hgate : gate config call = .ok mode) :
      Stands config crowded call (.looping call mode)
  | loaded {mode : String} {cur : UInt64} (hgate : gate config call = .ok mode) :
      Stands config crowded call (.loaded call mode cur)
  | executing {mode : String} (hgate : gate config call = .ok mode) :
      Stands config crowded call (.executing call mode)
  | releasing {mode : String} (hgate : gate config call = .ok mode) :
      Stands config crowded call (.releasing call (call.execute mode))
  | turnedAway {response : Response} (hgate : gate config call = .error response) :
      Stands config crowded call (.refused response)
  | full {mode : String} (hgate : gate config call = .ok mode) (hfull : crowded) :
      Stands config crowded call (.refused (tooManyRequests config call))
  | answered {mode : String} (hgate : gate config call = .ok mode) :
      Stands config crowded call (.answered (respond call (call.execute mode)))

/-- One step of a handler that serves a request, if the counter at the cap means a crowd. -/
theorem Stands.step {crowded : Prop} {call : Call} {t t' : Handler} {n n' : UInt64}
    (h : Stands config crowded call t) (hstep : handlerStep config n t = some (n', t'))
    (hfull : ∀ mode, t = .looping call mode → cap config ≤ n → crowded) :
    Stands config crowded call t' := by
  cases h with
  | arrived =>
    cases hgate : gate config call with
    | error response =>
      simp only [handlerStep, hgate, Option.some.injEq, Prod.mk.injEq] at hstep
      rw [← hstep.2]
      exact .turnedAway hgate
    | ok mode =>
      simp only [handlerStep, hgate, Option.some.injEq, Prod.mk.injEq] at hstep
      rw [← hstep.2]
      exact .looping hgate
  | looping hgate =>
    by_cases hcap : cap config ≤ n
    · simp only [handlerStep, if_pos hcap, Option.some.injEq, Prod.mk.injEq] at hstep
      rw [← hstep.2]
      exact .full hgate (hfull _ rfl hcap)
    · simp only [handlerStep, if_neg hcap, Option.some.injEq, Prod.mk.injEq] at hstep
      rw [← hstep.2]
      exact .loaded hgate
  | loaded hgate =>
    simp only [handlerStep] at hstep
    split at hstep
    · cases hstep
      exact .executing hgate
    · cases hstep
      exact .looping hgate
  | executing hgate =>
    simp only [handlerStep, Option.some.injEq, Prod.mk.injEq] at hstep
    rw [← hstep.2]
    exact .releasing hgate
  | releasing hgate =>
    simp only [handlerStep, Option.some.injEq, Prod.mk.injEq] at hstep
    rw [← hstep.2]
    exact .answered hgate
  | turnedAway hgate => cases hstep
  | full hgate hfull => cases hstep
  | answered hgate => cases hstep

/-! ## Crowds -/

/-- A handler past the gate that has not ended. -/
def Handler.wants : Handler → Bool
  | .looping _ _ => true
  | .loaded _ _ _ => true
  | .executing _ _ => true
  | .releasing _ _ => true
  | _ => false

theorem wants_of_counted {t : Handler} (h : t.counted = true) : t.wants = true := by
  cases t with
  | executing call mode => rfl
  | releasing call result => rfl
  | arrived call => cases h
  | looping call mode => cases h
  | loaded call mode cur => cases h
  | refused response => cases h
  | answered response => cases h

theorem Stands.wanted {crowded : Prop} {call : Call} {t : Handler}
    (h : Stands config crowded call t) (hwants : t.wants = true) : wanting config call = true := by
  cases h with
  | looping hgate => exact wanting_of_gate hgate
  | loaded hgate => exact wanting_of_gate hgate
  | executing hgate => exact wanting_of_gate hgate
  | releasing hgate => exact wanting_of_gate hgate
  | arrived => cases hwants
  | turnedAway hgate => cases hwants
  | full hgate hfull => cases hwants
  | answered hgate => cases hwants

theorem countP_wants_le {crowded : Prop} {calls : List Call} {threads : List Handler}
    (h : List.Forall₂ (Stands config crowded) calls threads) :
    threads.countP Handler.wants ≤ calls.countP (wanting config) := by
  induction h with
  | nil => exact Nat.le_refl 0
  | @cons call t calls threads hstands hrest ih =>
    rw [List.countP_cons, List.countP_cons]
    cases hwants : t.wants with
    | false =>
      rw [if_neg Bool.false_ne_true]
      omega
    | true =>
      rw [if_pos rfl, if_pos (hstands.wanted hwants)]
      omega

/-- **A handler that stands in the loop wants in beside all that are in.** -/
theorem counted_lt_wanting {crowded : Prop} {calls : List Call} {before after : List Handler}
    {call : Call} {mode : String}
    (h : List.Forall₂ (Stands config crowded) calls (before ++ .looping call mode :: after)) :
    (before ++ .looping call mode :: after).countP Handler.counted <
      calls.countP (wanting config) := by
  refine Nat.lt_of_lt_of_le ?_ (countP_wants_le h)
  have hbefore : before.countP Handler.counted ≤ before.countP Handler.wants :=
    List.countP_mono_left fun t _ ht => wants_of_counted ht
  have hafter : after.countP Handler.counted ≤ after.countP Handler.wants :=
    List.countP_mono_left fun t _ ht => wants_of_counted ht
  rw [List.countP_append, List.countP_append, List.countP_cons, List.countP_cons]
  show _ + (_ + 0) < _ + (_ + 1)
  omega

/-! ## Runs -/

/-- More requests than the cap want in. -/
def Crowded (config : ServeConfig) (calls : List Call) : Prop :=
  max 1 config.maxInflight.toNat < calls.countP (wanting config)

theorem forall₂_replace {α β : Type} {R : α → β → Prop} {t t' : β} {before after : List β} :
    ∀ {xs : List α}, List.Forall₂ R xs (before ++ t :: after) → (∀ x ∈ xs, R x t → R x t') →
      List.Forall₂ R xs (before ++ t' :: after) := by
  induction before with
  | nil =>
    intro xs h hstep
    cases h with
    | @cons x _ xs _ hx hxs => exact .cons (hstep x List.mem_cons_self hx) hxs
  | cons u before ih =>
    intro xs h hstep
    cases h with
    | @cons x _ xs _ hx hxs =>
      exact .cons hx (ih hxs fun y hy => hstep y (List.mem_cons_of_mem x hy))

/-- **The handlers stand where their requests allow**, in every state of every run. -/
theorem stands_run (config : ServeConfig) (calls : List Call) (schedule : List Nat) :
    List.Forall₂ (Stands config (Crowded config calls)) calls
      (run (handlerStep config) schedule (serving calls)).threads := by
  have hkept : Inv config (run (handlerStep config) schedule (serving calls)) ∧
      List.Forall₂ (Stands config (Crowded config calls)) calls
        (run (handlerStep config) schedule (serving calls)).threads := by
    refine run_induction (P := fun pool => Inv config pool ∧
      List.Forall₂ (Stands config (Crowded config calls)) calls pool.threads) ?_ ?_ schedule
    · rintro n before t after n' t' hstep ⟨hinv, hstands⟩
      refine ⟨inv_step hstep hinv, forall₂_replace hstands fun call _ hcall => ?_⟩
      refine hcall.step hstep ?_
      rintro mode rfl hcap
      -- at the cap there are as many inside as the cap, and this one is outside
      have hlt := counted_lt_wanting hstands
      have hcounter : n.toNat =
          (before ++ .looping call mode :: after).countP Handler.counted := hinv.counter_eq
      have hle := UInt64.le_iff_toNat_le.mp hcap
      rw [toNat_cap] at hle
      show max 1 config.maxInflight.toNat < calls.countP (wanting config)
      omega
    · refine ⟨inv_serving config calls, ?_⟩
      show List.Forall₂ _ calls (calls.map Handler.arrived)
      rw [List.forall₂_map_right_iff, List.forall₂_same]
      intro call _
      exact .arrived
  exact hkept.2

/-! ## The measure -/

/-- How many moves a handler has to go if it is not disturbed. -/
def Handler.position (n : UInt64) : Handler → Nat
  | .arrived _ => 6
  | .looping _ _ => 5
  | .loaded _ _ cur => if n = cur then 4 else 6
  | .executing _ _ => 3
  | .releasing _ _ => 2
  | .refused _ => 0
  | .answered _ => 0

/-- How often a handler has still to change the counter. -/
def Handler.ahead : Handler → Nat
  | .arrived _ => 2
  | .looping _ _ => 2
  | .loaded _ _ _ => 2
  | .executing _ _ => 1
  | .releasing _ _ => 1
  | .refused _ => 0
  | .answered _ => 0

/-- The moves to go, with two for every handler that a change of the counter can disturb. -/
def toGo (pool : Pool UInt64 Handler) : Nat :=
  weight (Handler.position pool.shared) pool.threads +
    2 * pool.threads.length * weight Handler.ahead pool.threads

theorem position_le (n n' : UInt64) (t : Handler) : t.position n' ≤ t.position n + 2 := by
  cases t with
  | loaded call mode cur =>
    simp only [Handler.position]
    split <;> split <;> omega
  | arrived call => exact Nat.le_add_right _ _
  | looping call mode => exact Nat.le_add_right _ _
  | executing call mode => exact Nat.le_add_right _ _
  | releasing call result => exact Nat.le_add_right _ _
  | refused response => exact Nat.le_add_right _ _
  | answered response => exact Nat.le_add_right _ _

/-- A change of the counter disturbs each handler by two at most. -/
theorem weight_position_le (n n' : UInt64) (threads : List Handler) :
    weight (Handler.position n') threads ≤
      weight (Handler.position n) threads + 2 * threads.length := by
  induction threads with
  | nil => exact Nat.le_refl 0
  | cons t threads ih =>
    have ht := position_le n n' t
    simp only [weight, List.length_cons]
    omega

/-- A move keeps the counter and comes closer, or changes it for one of the times ahead. -/
theorem handlerStep_closer {n n' : UInt64} {t t' : Handler}
    (h : handlerStep config n t = some (n', t')) :
    (n' = n ∧ t'.position n < t.position n ∧ t'.ahead ≤ t.ahead) ∨
      (t'.position n' < t.position n ∧ t'.ahead + 1 = t.ahead) := by
  cases t with
  | arrived call =>
    cases hgate : gate config call with
    | error response =>
      simp only [handlerStep, hgate, Option.some.injEq, Prod.mk.injEq] at h
      obtain ⟨rfl, rfl⟩ := h
      exact Or.inl ⟨rfl, Nat.succ_pos 5, Nat.zero_le 2⟩
    | ok mode =>
      simp only [handlerStep, hgate, Option.some.injEq, Prod.mk.injEq] at h
      obtain ⟨rfl, rfl⟩ := h
      exact Or.inl ⟨rfl, Nat.lt_succ_self 5, Nat.le_refl 2⟩
  | looping call mode =>
    by_cases hfull : cap config ≤ n
    · simp only [handlerStep, if_pos hfull, Option.some.injEq, Prod.mk.injEq] at h
      obtain ⟨rfl, rfl⟩ := h
      exact Or.inl ⟨rfl, Nat.succ_pos 4, Nat.zero_le 2⟩
    · simp only [handlerStep, if_neg hfull, Option.some.injEq, Prod.mk.injEq] at h
      obtain ⟨rfl, rfl⟩ := h
      refine Or.inl ⟨rfl, ?_, Nat.le_refl 2⟩
      show (if n = n then 4 else 6) < 5
      rw [if_pos rfl]
      omega
  | loaded call mode cur =>
    by_cases hcur : n = cur
    · simp only [handlerStep, if_pos hcur, Option.some.injEq, Prod.mk.injEq] at h
      obtain ⟨rfl, rfl⟩ := h
      refine Or.inr ⟨?_, rfl⟩
      show 3 < if n = cur then 4 else 6
      rw [if_pos hcur]
      omega
    · simp only [handlerStep, if_neg hcur, Option.some.injEq, Prod.mk.injEq] at h
      obtain ⟨rfl, rfl⟩ := h
      refine Or.inl ⟨rfl, ?_, Nat.le_refl 2⟩
      show 5 < if n = cur then 4 else 6
      rw [if_neg hcur]
      omega
  | executing call mode =>
    simp only [handlerStep, Option.some.injEq, Prod.mk.injEq] at h
    obtain ⟨rfl, rfl⟩ := h
    exact Or.inl ⟨rfl, Nat.lt_succ_self 2, Nat.le_refl 1⟩
  | releasing call result =>
    simp only [handlerStep, Option.some.injEq, Prod.mk.injEq] at h
    obtain ⟨rfl, rfl⟩ := h
    exact Or.inr ⟨Nat.succ_pos 1, rfl⟩
  | refused response => cases h
  | answered response => cases h

/-- **Every move comes closer to the end.** -/
theorem toGo_lt (n : UInt64) (before : List Handler) (t : Handler) (after : List Handler)
    (n' : UInt64) (t' : Handler) (h : handlerStep config n t = some (n', t')) :
    toGo ⟨n', before ++ t' :: after⟩ < toGo ⟨n, before ++ t :: after⟩ := by
  have hahead := weight_replace Handler.ahead before t t' after
  have hposition := weight_replace (Handler.position n) before t t' after
  have hlen := length_replace before t t' after
  unfold toGo
  simp only
  rw [hlen]
  rcases handlerStep_closer h with ⟨rfl, hcloser, hfewer⟩ | ⟨hcloser, hone⟩
  · have hless : weight Handler.ahead (before ++ t' :: after) ≤
        weight Handler.ahead (before ++ t :: after) := by omega
    have hmul := Nat.mul_le_mul_left (2 * (before ++ t :: after).length) hless
    omega
  · -- the others are disturbed, and one of the changes ahead pays for them
    have hbefore := weight_position_le n n' before
    have hafter := weight_position_le n n' after
    have hless : weight Handler.ahead (before ++ t :: after) =
        weight Handler.ahead (before ++ t' :: after) + 1 := by omega
    rw [hless, Nat.mul_add, Nat.mul_one, List.length_append, List.length_cons]
    rw [weight_append (Handler.position n'), weight_append (Handler.position n), weight, weight]
    omega

theorem weight_eq_mul {f : Handler → Nat} {k : Nat} {threads : List Handler}
    (h : ∀ t ∈ threads, f t = k) : weight f threads = threads.length * k := by
  induction threads with
  | nil => exact (Nat.zero_mul k).symm
  | cons t threads ih =>
    rw [weight, h t List.mem_cons_self, ih fun u hu => h u (List.mem_cons_of_mem t hu),
      List.length_cons, Nat.succ_mul]
    omega

theorem toGo_serving (calls : List Call) :
    toGo (serving calls) = calls.length * (4 * calls.length + 6) := by
  have harrived : ∀ {f : Handler → Nat} {k : Nat}, (∀ call, f (.arrived call) = k) →
      weight f (calls.map Handler.arrived) = calls.length * k := by
    intro f k hf
    rw [weight_eq_mul (k := k), List.length_map]
    intro t ht
    obtain ⟨call, -, rfl⟩ := List.mem_map.mp ht
    exact hf call
  show weight _ (calls.map Handler.arrived) +
    2 * (calls.map Handler.arrived).length * weight _ (calls.map Handler.arrived) = _
  rw [harrived (k := 6) fun _ => rfl, harrived (k := 2) fun _ => rfl, List.length_map]
  ring

/-! ## Service -/

/-- The response that a request gets on its own. -/
def answer (config : ServeConfig) (call : Call) : Response :=
  match gate config call with
  | .error response => response
  | .ok mode => respond call (call.execute mode)

/-- What can have become of a request when nobody can move. -/
theorem Stands.ended {crowded : Prop} {call : Call} {t : Handler} {n : UInt64}
    (h : Stands config crowded call t) (hend : handlerStep config n t = none) :
    t.response = some (answer config call) ∨
      (t.response = some (tooManyRequests config call) ∧ wanting config call = true ∧ crowded) := by
  cases h with
  | turnedAway hgate =>
    rw [answer, hgate]
    exact Or.inl rfl
  | full hgate hfull => exact Or.inr ⟨rfl, wanting_of_gate hgate, hfull⟩
  | answered hgate =>
    rw [answer, hgate]
    exact Or.inl rfl
  | arrived =>
    cases hgate : gate config call with
    | error response =>
      simp only [handlerStep, hgate] at hend
      cases hend
    | ok mode =>
      simp only [handlerStep, hgate] at hend
      cases hend
  | looping hgate =>
    simp only [handlerStep] at hend
    split at hend
    · cases hend
    · cases hend
  | loaded hgate =>
    simp only [handlerStep] at hend
    split at hend
    · cases hend
    · cases hend
  | executing hgate => cases hend
  | releasing hgate => cases hend

theorem stands_at {calls : List Call} {schedule : List Nat} {i : Nat} {t : Handler}
    (ht : (run (handlerStep config) schedule (serving calls)).threads[i]? = some t) :
    ∃ call, calls[i]? = some call ∧ Stands config (Crowded config calls) call t := by
  obtain ⟨hlen, hget⟩ := List.forall₂_iff_get.mp (stands_run config calls schedule)
  obtain ⟨hi, rfl⟩ := List.getElem?_eq_some_iff.mp ht
  have hcall : i < calls.length := by omega
  exact ⟨calls[i], List.getElem?_eq_getElem hcall, hget i hcall hi⟩

/-- What a handler executes, or has executed, is its own request, and that was let in. -/
structure LetIn (config : ServeConfig) (call : Call) (t : Handler) : Prop where
  executing : ∀ served mode, t = .executing served mode →
    served = call ∧ Authorized config call mode
  releasing : ∀ served result, t = .releasing served result →
    served = call ∧ ∃ mode, Authorized config call mode ∧ result = call.execute mode
  answered : ∀ response, t = .answered response →
    ∃ mode, Authorized config call mode ∧ response = respond call (call.execute mode)

theorem Stands.letIn {crowded : Prop} {call : Call} {t : Handler}
    (h : Stands config crowded call t) : LetIn config call t where
  executing := by
    rintro served mode rfl
    cases h with
    | executing hgate => exact ⟨rfl, gate_eq_ok.mp hgate⟩
  releasing := by
    rintro served result rfl
    cases h with
    | releasing hgate => exact ⟨rfl, _, gate_eq_ok.mp hgate, rfl⟩
  answered := by
    rintro response rfl
    cases h with
    | answered hgate => exact ⟨_, gate_eq_ok.mp hgate, rfl⟩

/-- **Every request is served, and only what was let in is executed.**  A schedule of `n` requests
    has at most `n * (4 * n + 6)` moves, however the handlers race for the counter, and any run can
    be carried on to its end; there each request has the response it gets on its own, or else was
    told that the cap is exceeded while more requests than the cap were let through the gate.  In
    every state on the way, a handler executes its own request, which shows the secret and names the
    mode. -/
theorem requests_are_served (config : ServeConfig) (calls : List Call) (schedule : List Nat) :
    moves (handlerStep config) schedule (serving calls) ≤ calls.length * (4 * calls.length + 6) ∧
    (∃ more, Finished (handlerStep config)
      (run (handlerStep config) (schedule ++ more) (serving calls))) ∧
    (Finished (handlerStep config) (run (handlerStep config) schedule (serving calls)) →
      ∀ (i : Nat) (call : Call), calls[i]? = some call → ∃ t : Handler,
        (run (handlerStep config) schedule (serving calls)).threads[i]? = some t ∧
          (t.response = some (answer config call) ∨
            (t.response = some (tooManyRequests config call) ∧
              (∃ mode, Authorized config call mode) ∧
              max 1 config.maxInflight.toNat < calls.countP (wanting config)))) ∧
    (∀ (i : Nat) (t : Handler),
      (run (handlerStep config) schedule (serving calls)).threads[i]? = some t →
      ∃ call, calls[i]? = some call ∧ LetIn config call t) := by
  have hcloser := @toGo_lt config
  refine ⟨?_, ?_, ?_, ?_⟩
  · have hpaid := moves_add_measure_le hcloser schedule (serving calls)
    rw [toGo_serving] at hpaid
    omega
  · obtain ⟨more, hend⟩ := exists_finished hcloser
      (run (handlerStep config) schedule (serving calls))
    exact ⟨more, by rw [run_append]; exact hend⟩
  · intro hend i call hcall
    have hlen := length_run (handlerStep config) schedule (serving calls)
    obtain ⟨hi, -⟩ := List.getElem?_eq_some_iff.mp hcall
    have hthread : i < (run (handlerStep config) schedule (serving calls)).threads.length := by
      rw [hlen]
      show i < (calls.map Handler.arrived).length
      rwa [List.length_map]
    have ht := List.getElem?_eq_getElem hthread
    obtain ⟨served, hserved, hstands⟩ := stands_at ht
    obtain rfl := Option.some.inj (hcall.symm.trans hserved)
    refine ⟨_, ht, ?_⟩
    rcases hstands.ended (hend _ (List.getElem_mem hthread)) with hanswer | ⟨hfull, hwants, hcrowd⟩
    · exact Or.inl hanswer
    · refine Or.inr ⟨hfull, ?_, hcrowd⟩
      cases hgate : gate config call with
      | ok mode => exact ⟨mode, gate_eq_ok.mp hgate⟩
      | error response =>
        rw [wanting, hgate] at hwants
        cases hwants
  · intro i t ht
    obtain ⟨call, hcall, hstands⟩ := stands_at ht
    exact ⟨call, hcall, hstands.letIn⟩

end Basecrawl.Core.Serve
