/-
  The budget that all browser work of a scrape shares.

  1. **The budget** — its operations, each under the one lock or on the one atomic counter.
  2. **The callbacks** — a request is admitted, a paused response is accounted, data arrives; every
     step that touches the budget or the meters is one move of a thread.
  3. **Runs** — whatever the order of the moves, the caps hold and the counter of bodies in flight
     is right (`renderBudget_sound`).
-/
import Basecrawl.Lib.Panic
import Basecrawl.Lib.Threads
import Basecrawl.Render.Continue

namespace Basecrawl.Render

open Text Basecrawl.Core Panic Threads

/-! ## The budget -/

/-- `RenderError`, as far as the budget raises it. -/
inductive RenderError where
  | resourceBudgetExceeded
deriving DecidableEq

/-- `RenderResourceUsage`. -/
structure RenderResourceUsage where
  subresourceCount : Nat := 0
  resourceBytes : Nat := 0
  capExceeded : Bool := false
deriving DecidableEq

/-- `RenderResourceBudget`; the counter of bodies in flight is a word of the machine. -/
structure RenderResourceBudget where
  maxRequests : Nat
  maxBytes : Nat
  usage : RenderResourceUsage
  pendingBodyAccounts : Nat
deriving DecidableEq

/-- `RenderResourceBudget::new`. -/
def RenderResourceBudget.new (maxRequests maxBytes : Nat) : RenderResourceBudget where
  maxRequests := maxRequests
  maxBytes := maxBytes
  usage := {}
  pendingBodyAccounts := 0

namespace RenderResourceBudget

/-- The cap is hit. -/
def exhaust (b : RenderResourceBudget) : RenderResourceBudget :=
  { b with usage := { b.usage with capExceeded := true } }

/-- `ensure_available`. -/
def ensureAvailable (b : RenderResourceBudget) : Except RenderError Unit :=
  if b.usage.capExceeded then .error .resourceBudgetExceeded else .ok ()

/-- `remaining_bytes`. -/
def remainingBytes (b : RenderResourceBudget) : Except RenderError Nat :=
  if b.usage.capExceeded then .error .resourceBudgetExceeded
  else .ok (b.maxBytes - b.usage.resourceBytes)

/-- `charge_bytes`. -/
def chargeBytes (b : RenderResourceBudget) (bytes : Nat) :
    Except RenderError Unit × RenderResourceBudget :=
  match checkedAdd 64 b.usage.resourceBytes bytes with
  | none => (.error .resourceBudgetExceeded, b.exhaust)
  | some total =>
      if b.usage.capExceeded || b.maxBytes < total then
        (.error .resourceBudgetExceeded, b.exhaust)
      else (.ok (), { b with usage := { b.usage with resourceBytes := total } })

/-- `charge_remaining_bytes`. -/
def chargeRemainingBytes (b : RenderResourceBudget) (totalObserved alreadyCharged : Nat) :
    Except RenderError Unit × RenderResourceBudget :=
  let additional := totalObserved - alreadyCharged
  if additional = 0 then (.ok (), b) else b.chargeBytes additional

/-- `begin_body_account`. -/
def beginBodyAccount (b : RenderResourceBudget) : RenderResourceBudget :=
  { b with pendingBodyAccounts := (b.pendingBodyAccounts + 1) % 2 ^ 64 }

/-- `finish_body_account`. -/
def finishBodyAccount (b : RenderResourceBudget) : RenderResourceBudget :=
  { b with pendingBodyAccounts := (b.pendingBodyAccounts + (2 ^ 64 - 1)) % 2 ^ 64 }

/-- `has_pending_body_accounts`. -/
def hasPendingBodyAccounts (b : RenderResourceBudget) : Bool := 0 < b.pendingBodyAccounts

/-- The admission of a request, under the lock. -/
def admitRequest (b : RenderResourceBudget) : Bool × RenderResourceBudget :=
  if b.usage.capExceeded || b.maxRequests ≤ b.usage.subresourceCount then (false, b.exhaust)
  else (true, { b with usage :=
    { b.usage with subresourceCount := b.usage.subresourceCount + 1 } })

end RenderResourceBudget

/-! ## The callbacks -/

/-- A network request, by the tab it belongs to. -/
structure NetworkId where
  tab : Nat
  id : String
deriving DecidableEq

/-- `BrowserResponseMeter`. -/
structure BrowserResponseMeter where
  observedBytes : Nat
  maxDocumentBytes : Nat
  isDocument : Bool
deriving DecidableEq

/-- A body as CDP reports it. -/
structure ResponseBody where
  body : String
  base64Encoded : Bool
deriving DecidableEq

/-- A request paused at its response, with the answer to `Fetch.getResponseBody` it would get. -/
structure PausedResponse where
  isDocument : Bool
  maxDocumentBytes : Nat
  headers : List HeaderEntry
  networkId : Option NetworkId
  body : Option ResponseBody
deriving DecidableEq

/-- `Network.dataReceived`. -/
structure DataReceived where
  requestId : NetworkId
  encodedDataLength : Nat
  dataLength : Nat
deriving DecidableEq

/-- `str::parse::<u64>`. -/
def parseU64 (s : String) : Option Nat :=
  let digits := match s.toList with
    | '+' :: rest => rest
    | digits => digits
  let value := digits.foldl (fun n c => n * 10 + (c.toNat - '0'.toNat)) 0
  if !digits.isEmpty && digits.all Char.isDigit && value < 2 ^ 64 then some value else none

/-- `declared_content_length`. -/
def declaredContentLength (headers : List HeaderEntry) : Option Nat :=
  (headers.find? fun header => eqIgnoreAsciiCase header.name "content-length").bind fun header =>
    parseU64 (trim header.value)

/-- The transfer is chunked, so that its declared length is not to be trusted. -/
def hasChunkedTransfer (headers : List HeaderEntry) : Bool :=
  headers.any fun header =>
    eqIgnoreAsciiCase header.name "transfer-encoding" &&
      (split header.value ',').any fun token => eqIgnoreAsciiCase (trim token) "chunked"

/-- Only a body of unknown length is read at the response stage. -/
def needsBodyMaterialization (headers : List HeaderEntry) : Bool :=
  (declaredContentLength headers).isNone || hasChunkedTransfer headers

/-- The declared length is over what the document or the budget still allows. -/
def exceedsEarlyLimit (response : PausedResponse) (remaining : Except RenderError Nat) : Bool :=
  let declared := (declaredContentLength response.headers).getD 0
  match remaining with
  | .error _ => true
  | .ok remaining =>
      let documentLimit := if response.isDocument then response.maxDocumentBytes else 2 ^ 64 - 1
      min remaining documentLimit < declared

/-- `observed_body_len`; `decode` is the base64 decoder. -/
def observedBodyLen (decode : String → Option Bytes) (body : ResponseBody) : Option Nat :=
  if body.base64Encoded then (decode body.body).map List.length
  else some (utf8 body.body).length

/-- The size a data event is charged with. -/
def DataReceived.bytes (event : DataReceived) : Nat :=
  if event.encodedDataLength = 0 then event.dataLength else event.encodedDataLength

/-- What the callbacks share: the budget of the scrape and the meters of its tabs. -/
structure Shared where
  budget : RenderResourceBudget
  meters : NetworkId → Option BrowserResponseMeter

/-- A callback as it is called. -/
inductive Callback where
  | admission
  | response (paused : PausedResponse)
  | data (event : DataReceived)
deriving DecidableEq

/-- Where a callback stands.  `charged` is what it has put on the budget itself. -/
inductive Handler where
  | admission
  | admitted (accepted : Bool)
  /-- A response: read what remains, refuse it or meter it. -/
  | response (paused : PausedResponse)
  | refusing (paused : PausedResponse)
  | metering (paused : PausedResponse)
  | passed (paused : PausedResponse)
  /-- Its body: begin the account, fetch the body, read the meter, charge, update the meter. -/
  | beginning (paused : PausedResponse)
  | materializing (paused : PausedResponse)
  | reading (paused : PausedResponse) (observed : Nat)
  | charging (paused : PausedResponse) (observed alreadyCharged : Nat)
  | updating (paused : PausedResponse) (observed charged : Nat)
  | exhausting (paused : PausedResponse)
  | finishing (paused : PausedResponse) (charged : Nat)
  | settled (paused : PausedResponse) (charged : Nat)
  /-- A data event. -/
  | data (event : DataReceived)
  | aborting (event : DataReceived)
  | received (event : DataReceived) (charged : Nat)
deriving DecidableEq

/-- Where a callback begins. -/
def Callback.start : Callback → Handler
  | .admission => .admission
  | .response paused => .response paused
  | .data event => .data event

/-- The meter of a response is put in place. -/
def Shared.insertMeter (s : Shared) (response : PausedResponse) : Shared :=
  match response.networkId with
  | none => s
  | some id =>
      let meter := ⟨0, response.maxDocumentBytes, response.isDocument⟩
      { s with meters := Function.update s.meters id (some meter) }

/-- What the meter of a response says. -/
def Shared.alreadyCharged (s : Shared) (response : PausedResponse) : Nat :=
  match response.networkId.bind s.meters with
  | some meter => meter.observedBytes
  | none => 0

/-- The meter of a response, if it is still there, is raised to the length of the body. -/
def Shared.raiseMeter (s : Shared) (response : PausedResponse) (observed : Nat) : Shared :=
  match response.networkId with
  | none => s
  | some id =>
      match s.meters id with
      | none => s
      | some meter =>
          let meter := { meter with observedBytes := max observed meter.observedBytes }
          { s with meters := Function.update s.meters id (some meter) }

/-- A data event, under the lock of the meters. -/
def Shared.receive (s : Shared) (event : DataReceived) : Shared × Handler :=
  if event.bytes = 0 then (s, .received event 0)
  else
    match s.meters event.requestId with
    | none => (s, .received event 0)
    | some meter =>
        match checkedAdd 64 meter.observedBytes event.bytes with
        | none => (s, .aborting event)
        | some total =>
            if meter.isDocument && meter.maxDocumentBytes < total then (s, .aborting event)
            else
              match s.budget.chargeBytes event.bytes with
              | (.error _, budget) => ({ s with budget := budget }, .aborting event)
              | (.ok (), budget) =>
                  let meter := { meter with observedBytes := total }
                  (⟨budget, Function.update s.meters event.requestId (some meter)⟩,
                    .received event event.bytes)

/-- One atomic step of a callback. -/
def handlerStep (decode : String → Option Bytes) (s : Shared) : Handler → Option (Shared × Handler)
  | .admission =>
      match s.budget.admitRequest with
      | (accepted, budget) => some ({ s with budget := budget }, .admitted accepted)
  | .response paused =>
      if exceedsEarlyLimit paused s.budget.remainingBytes then some (s, .refusing paused)
      else some (s, .metering paused)
  | .refusing paused => some ({ s with budget := s.budget.exhaust }, .passed paused)
  | .metering paused =>
      if needsBodyMaterialization paused.headers then
        some (s.insertMeter paused, .beginning paused)
      else some (s.insertMeter paused, .passed paused)
  | .beginning paused =>
      some ({ s with budget := s.budget.beginBodyAccount }, .materializing paused)
  | .materializing paused =>
      match paused.body.bind (observedBodyLen decode) with
      | none => some (s, .exhausting paused)
      | some observed => some (s, .reading paused observed)
  | .reading paused observed =>
      if paused.isDocument && paused.maxDocumentBytes < observed then
        some (s, .exhausting paused)
      else some (s, .charging paused observed (s.alreadyCharged paused))
  | .charging paused observed already =>
      match s.budget.chargeRemainingBytes observed already with
      | (.error _, budget) => some ({ s with budget := budget }, .exhausting paused)
      | (.ok (), budget) =>
          some ({ s with budget := budget }, .updating paused observed (observed - already))
  | .updating paused observed charged =>
      some (s.raiseMeter paused observed, .finishing paused charged)
  -- every way out of an account that was begun ends it
  | .exhausting paused => some ({ s with budget := s.budget.exhaust }, .finishing paused 0)
  | .finishing paused charged =>
      some ({ s with budget := s.budget.finishBodyAccount }, .settled paused charged)
  | .data event => some (s.receive event)
  | .aborting event => some ({ s with budget := s.budget.exhaust }, .received event 0)
  | .admitted _ => none
  | .passed _ => none
  | .settled _ _ => none
  | .received _ _ => none

/-- The callbacks of a scrape, before the first of them runs. -/
def opened (maxRequests maxBytes : Nat) (callbacks : List Callback) : Pool Shared Handler where
  shared := ⟨.new maxRequests maxBytes, fun _ => none⟩
  threads := callbacks.map Callback.start

/-! ## One operation -/

/-- What every operation keeps: the ceilings stand, the caps hold if they held, and a hit cap stays
    hit. -/
structure Keeps (b b' : RenderResourceBudget) : Prop where
  maxRequests : b'.maxRequests = b.maxRequests
  maxBytes : b'.maxBytes = b.maxBytes
  requests : b.usage.subresourceCount ≤ b.maxRequests → b'.usage.subresourceCount ≤ b.maxRequests
  bytes : b.usage.resourceBytes ≤ b.maxBytes → b'.usage.resourceBytes ≤ b.maxBytes
  capExceeded : b.usage.capExceeded = true → b'.usage.capExceeded = true

theorem Keeps.refl (b : RenderResourceBudget) : Keeps b b := ⟨rfl, rfl, id, id, id⟩

namespace RenderResourceBudget

variable {b b' : RenderResourceBudget}

theorem exhaust_keeps (b : RenderResourceBudget) : Keeps b b.exhaust :=
  ⟨rfl, rfl, id, id, fun _ => rfl⟩

theorem beginBodyAccount_keeps (b : RenderResourceBudget) : Keeps b b.beginBodyAccount := by
  unfold beginBodyAccount
  exact ⟨rfl, rfl, id, id, id⟩

theorem finishBodyAccount_keeps (b : RenderResourceBudget) : Keeps b b.finishBodyAccount := by
  unfold finishBodyAccount
  exact ⟨rfl, rfl, id, id, id⟩

theorem begin_usage (b : RenderResourceBudget) :
    b.beginBodyAccount.usage = b.usage := by
  unfold beginBodyAccount
  rfl

theorem finish_usage (b : RenderResourceBudget) :
    b.finishBodyAccount.usage = b.usage := by
  unfold finishBodyAccount
  rfl

theorem begin_pending (b : RenderResourceBudget) :
    b.beginBodyAccount.pendingBodyAccounts = (b.pendingBodyAccounts + 1) % 2 ^ 64 := rfl

theorem finish_pending (b : RenderResourceBudget) :
    b.finishBodyAccount.pendingBodyAccounts =
      (b.pendingBodyAccounts + (2 ^ 64 - 1)) % 2 ^ 64 := rfl

/-- A charge is refused, hits the cap and counts nothing; or it is within the cap and counts. -/
theorem chargeBytes_cases (b : RenderResourceBudget) (bytes : Nat) :
    b.chargeBytes bytes = (.error .resourceBudgetExceeded, b.exhaust) ∨
    (b.usage.capExceeded = false ∧ b.usage.resourceBytes + bytes ≤ b.maxBytes ∧
      b.chargeBytes bytes =
        (.ok (), { b with usage :=
          { b.usage with resourceBytes := b.usage.resourceBytes + bytes } })) := by
  unfold chargeBytes checkedAdd
  by_cases hfits : b.usage.resourceBytes + bytes < 2 ^ 64
  · rw [if_pos hfits]
    simp only
    split
    · exact Or.inl rfl
    · rename_i hcap
      rw [Bool.or_eq_true, not_or, Bool.not_eq_true, decide_eq_true_eq] at hcap
      exact Or.inr ⟨hcap.1, Nat.le_of_not_lt hcap.2, rfl⟩
  · rw [if_neg hfits]
    exact Or.inl rfl

/-- The same of what remains to be charged, which may be nothing. -/
theorem chargeRemainingBytes_cases (b : RenderResourceBudget) (observed already : Nat) :
    b.chargeRemainingBytes observed already = (.error .resourceBudgetExceeded, b.exhaust) ∨
    ((b.usage.resourceBytes ≤ b.maxBytes →
        b.usage.resourceBytes + (observed - already) ≤ b.maxBytes) ∧
      b.chargeRemainingBytes observed already =
        (.ok (), { b with usage :=
          { b.usage with resourceBytes := b.usage.resourceBytes + (observed - already) } })) := by
  unfold chargeRemainingBytes
  simp only
  split
  · rename_i hzero
    rw [hzero]
    exact Or.inr ⟨id, rfl⟩
  · rcases b.chargeBytes_cases (observed - already) with h | ⟨-, hle, h⟩
    · exact Or.inl h
    · exact Or.inr ⟨fun _ => hle, h⟩

theorem admitRequest_cases (b : RenderResourceBudget) :
    b.admitRequest = (false, b.exhaust) ∨
    (b.usage.subresourceCount < b.maxRequests ∧
      b.admitRequest =
        (true, { b with usage :=
          { b.usage with subresourceCount := b.usage.subresourceCount + 1 } })) := by
  unfold admitRequest
  split
  · exact Or.inl rfl
  · rename_i hcap
    rw [Bool.or_eq_true, not_or, decide_eq_true_eq] at hcap
    exact Or.inr ⟨Nat.lt_of_not_le hcap.2, rfl⟩

end RenderResourceBudget

/-! ## One step -/

/-- The body of the callback is in flight: its account was begun and not yet finished. -/
def Handler.inFlight : Handler → Bool
  | .materializing _ | .reading _ _ | .charging _ _ _ | .updating _ _ _ | .exhausting _
  | .finishing _ _ => true
  | _ => false

/-- What the callback has put on the budget. -/
def Handler.charged : Handler → Nat
  | .updating _ _ charged | .finishing _ charged | .settled _ charged
  | .received _ charged => charged
  | _ => 0

/-- What one step does to the budget.  The counter of bodies in flight moves with the callback, and
    so does what was charged. -/
structure BudgetStep (b b' : RenderResourceBudget) (t t' : Handler) : Prop where
  keeps : Keeps b b'
  ledger : b'.usage.resourceBytes + t.charged = b.usage.resourceBytes + t'.charged
  pending : b.pendingBodyAccounts < 2 ^ 64 → b'.pendingBodyAccounts < 2 ^ 64 ∧
    (b'.pendingBodyAccounts + t.inFlight.toNat) % 2 ^ 64 =
      (b.pendingBodyAccounts + t'.inFlight.toNat) % 2 ^ 64

/-- A step that leaves the caller where it was, or fails its charge. -/
theorem BudgetStep.of_usage {b b' : RenderResourceBudget} {t t' : Handler} (hkeeps : Keeps b b')
    (hledger : b'.usage.resourceBytes + t.charged = b.usage.resourceBytes + t'.charged)
    (hpending : b'.pendingBodyAccounts = b.pendingBodyAccounts)
    (hflight : t'.inFlight = t.inFlight) : BudgetStep b b' t t' where
  keeps := hkeeps
  ledger := hledger
  pending := fun hlt => by rw [hpending, hflight]; exact ⟨hlt, rfl⟩

/-- A step that does not touch the budget. -/
theorem BudgetStep.refl {b : RenderResourceBudget} {t t' : Handler}
    (hcharged : t'.charged = t.charged) (hflight : t'.inFlight = t.inFlight) :
    BudgetStep b b t t' :=
  .of_usage (.refl b) (by rw [hcharged]) rfl hflight

theorem insertMeter_budget (s : Shared) (paused : PausedResponse) :
    (s.insertMeter paused).budget = s.budget := by
  unfold Shared.insertMeter
  split <;> rfl

theorem raiseMeter_budget (s : Shared) (paused : PausedResponse) (observed : Nat) :
    (s.raiseMeter paused observed).budget = s.budget := by
  unfold Shared.raiseMeter
  split
  · rfl
  · split <;> rfl

/-- A charge that goes through. -/
theorem keeps_charged {b : RenderResourceBudget} {n : Nat}
    (h : b.usage.resourceBytes ≤ b.maxBytes → b.usage.resourceBytes + n ≤ b.maxBytes) :
    Keeps b { b with usage := { b.usage with resourceBytes := b.usage.resourceBytes + n } } :=
  ⟨rfl, rfl, id, h, id⟩

/-- **What a data event can do**: nothing, fail with or without a refused charge, or charge its size
    to the budget and to the meter of its request. -/
theorem receive_cases (s : Shared) (event : DataReceived) :
    ((event.bytes = 0 ∨ s.meters event.requestId = none) ∧
      s.receive event = (s, .received event 0)) ∨
    s.receive event = (s, .aborting event) ∨
    s.receive event = ({ s with budget := s.budget.exhaust }, .aborting event) ∨
    ∃ meter, s.meters event.requestId = some meter ∧
      s.budget.usage.resourceBytes + event.bytes ≤ s.budget.maxBytes ∧
      s.receive event =
        (⟨{ s.budget with usage :=
            { s.budget.usage with
              resourceBytes := s.budget.usage.resourceBytes + event.bytes } },
          Function.update s.meters event.requestId
            (some { meter with observedBytes := meter.observedBytes + event.bytes })⟩,
          .received event event.bytes) := by
  unfold Shared.receive checkedAdd
  by_cases hzero : event.bytes = 0
  · rw [if_pos hzero]
    exact Or.inl ⟨Or.inl hzero, rfl⟩
  rw [if_neg hzero]
  cases hmeter : s.meters event.requestId with
  | none => exact Or.inl ⟨Or.inr rfl, rfl⟩
  | some meter =>
    right
    by_cases hfits : meter.observedBytes + event.bytes < 2 ^ 64
    · simp only [if_pos hfits]
      split
      · exact Or.inl rfl
      · rcases s.budget.chargeBytes_cases event.bytes with hcharge | ⟨-, hle, hcharge⟩
        · right; left
          rw [hcharge]
        · right; right
          rw [hcharge]
          exact ⟨meter, rfl, hle, rfl⟩
    · simp only [if_neg hfits]
      exact Or.inl trivial

/-- **One step** keeps the caps, the ledger and the counter. -/
theorem handlerStep_budget {decode : String → Option Bytes} {s s' : Shared} {t t' : Handler}
    (h : handlerStep decode s t = some (s', t')) : BudgetStep s.budget s'.budget t t' := by
  cases t with
  | admission =>
    simp only [handlerStep, Option.some.injEq, Prod.mk.injEq] at h
    obtain ⟨rfl, rfl⟩ := h
    -- a refused request exhausts the budget, a granted one is below the limit
    rcases s.budget.admitRequest_cases with hgranted | ⟨hlt, hgranted⟩
    · rw [hgranted]
      exact .of_usage s.budget.exhaust_keeps rfl rfl rfl
    · rw [hgranted]
      exact .of_usage ⟨rfl, rfl, fun _ => hlt, id, id⟩ rfl rfl rfl
  | response paused =>
    simp only [handlerStep] at h
    split at h
    · obtain ⟨rfl, rfl⟩ := Prod.mk.inj (Option.some.inj h)
      exact .refl rfl rfl
    · obtain ⟨rfl, rfl⟩ := Prod.mk.inj (Option.some.inj h)
      exact .refl rfl rfl
  | refusing paused =>
    obtain ⟨rfl, rfl⟩ := Prod.mk.inj (Option.some.inj h)
    exact .of_usage s.budget.exhaust_keeps rfl rfl rfl
  | metering paused =>
    simp only [handlerStep] at h
    split at h
    · obtain ⟨rfl, rfl⟩ := Prod.mk.inj (Option.some.inj h)
      rw [insertMeter_budget]
      exact .refl rfl rfl
    · obtain ⟨rfl, rfl⟩ := Prod.mk.inj (Option.some.inj h)
      rw [insertMeter_budget]
      exact .refl rfl rfl
  | beginning paused =>
    obtain ⟨rfl, rfl⟩ := Prod.mk.inj (Option.some.inj h)
    refine ⟨s.budget.beginBodyAccount_keeps, by rw [s.budget.begin_usage]; rfl, fun hlt => ?_⟩
    -- one more body is pending, and one more handler is in flight
    rw [RenderResourceBudget.begin_pending]
    simp only [Handler.inFlight, Bool.toNat_true, Bool.toNat_false]
    omega
  | materializing paused =>
    simp only [handlerStep] at h
    split at h
    · obtain ⟨rfl, rfl⟩ := Prod.mk.inj (Option.some.inj h)
      exact .refl rfl rfl
    · obtain ⟨rfl, rfl⟩ := Prod.mk.inj (Option.some.inj h)
      exact .refl rfl rfl
  | reading paused observed =>
    simp only [handlerStep] at h
    split at h
    · obtain ⟨rfl, rfl⟩ := Prod.mk.inj (Option.some.inj h)
      exact .refl rfl rfl
    · obtain ⟨rfl, rfl⟩ := Prod.mk.inj (Option.some.inj h)
      exact .refl rfl rfl
  | charging paused observed already =>
    simp only [handlerStep] at h
    rcases s.budget.chargeRemainingBytes_cases observed already with hcharge | ⟨hle, hcharge⟩
    · rw [hcharge] at h
      obtain ⟨rfl, rfl⟩ := Prod.mk.inj (Option.some.inj h)
      exact .of_usage s.budget.exhaust_keeps rfl rfl rfl
    · rw [hcharge] at h
      obtain ⟨rfl, rfl⟩ := Prod.mk.inj (Option.some.inj h)
      exact .of_usage (keeps_charged hle) rfl rfl rfl
  | updating paused observed charged =>
    obtain ⟨rfl, rfl⟩ := Prod.mk.inj (Option.some.inj h)
    rw [raiseMeter_budget]
    exact .refl rfl rfl
  | exhausting paused =>
    obtain ⟨rfl, rfl⟩ := Prod.mk.inj (Option.some.inj h)
    exact .of_usage s.budget.exhaust_keeps rfl rfl rfl
  | finishing paused charged =>
    obtain ⟨rfl, rfl⟩ := Prod.mk.inj (Option.some.inj h)
    refine ⟨s.budget.finishBodyAccount_keeps, by rw [s.budget.finish_usage]; rfl, fun hlt => ?_⟩
    -- one less of both
    rw [RenderResourceBudget.finish_pending]
    simp only [Handler.inFlight, Bool.toNat_true, Bool.toNat_false]
    omega
  | data event =>
    simp only [handlerStep, Option.some.injEq] at h
    rcases receive_cases s event with ⟨-, hreceive⟩ | hreceive | hreceive |
      ⟨meter, -, hle, hreceive⟩
    · obtain ⟨rfl, rfl⟩ := Prod.mk.inj (hreceive.symm.trans h)
      exact .refl rfl rfl
    · obtain ⟨rfl, rfl⟩ := Prod.mk.inj (hreceive.symm.trans h)
      exact .refl rfl rfl
    · obtain ⟨rfl, rfl⟩ := Prod.mk.inj (hreceive.symm.trans h)
      exact .of_usage s.budget.exhaust_keeps rfl rfl rfl
    · obtain ⟨rfl, rfl⟩ := Prod.mk.inj (hreceive.symm.trans h)
      exact .of_usage (keeps_charged fun _ => hle) rfl rfl rfl
  | aborting event =>
    obtain ⟨rfl, rfl⟩ := Prod.mk.inj (Option.some.inj h)
    exact .of_usage s.budget.exhaust_keeps rfl rfl rfl
  -- the phases at rest take no step
  | admitted accepted => cases h
  | passed paused => cases h
  | settled paused charged => cases h
  | received event charged => cases h

/-! ## Runs -/

/-- What holds of the budget between any two moves. -/
structure BudgetInv (maxRequests maxBytes : Nat) (pool : Pool Shared Handler) : Prop where
  requestCap : pool.shared.budget.maxRequests = maxRequests
  byteCap : pool.shared.budget.maxBytes = maxBytes
  requests : pool.shared.budget.usage.subresourceCount ≤ maxRequests
  bytes : pool.shared.budget.usage.resourceBytes ≤ maxBytes
  ledger : pool.shared.budget.usage.resourceBytes = weight Handler.charged pool.threads
  pending : pool.shared.budget.pendingBodyAccounts =
    pool.threads.countP Handler.inFlight % 2 ^ 64

theorem charged_start (callback : Callback) : callback.start.charged = 0 := by
  cases callback <;> rfl

theorem inFlight_start (callback : Callback) : callback.start.inFlight = false := by
  cases callback <;> rfl

/-- Nothing is charged and nothing is in flight before the first move. -/
theorem inv_opened (maxRequests maxBytes : Nat) (callbacks : List Callback) :
    BudgetInv maxRequests maxBytes (opened maxRequests maxBytes callbacks) where
  requestCap := rfl
  byteCap := rfl
  requests := Nat.zero_le _
  bytes := Nat.zero_le _
  ledger := by
    refine (weight_eq_zero.mpr fun t ht => ?_).symm
    obtain ⟨callback, -, rfl⟩ := List.mem_map.mp ht
    exact charged_start callback
  pending := by
    have hnone : (callbacks.map Callback.start).countP Handler.inFlight = 0 := by
      rw [List.countP_eq_zero]
      intro t ht hflight
      obtain ⟨callback, -, rfl⟩ := List.mem_map.mp ht
      rw [inFlight_start] at hflight
      cases hflight
    show 0 = (callbacks.map Callback.start).countP Handler.inFlight % 2 ^ 64
    rw [hnone, Nat.zero_mod]

section

variable {decode : String → Option Bytes} {maxRequests maxBytes : Nat}

/-- **One move** keeps it. -/
theorem inv_step {s s' : Shared} {before after : List Handler} {t t' : Handler}
    (hstep : handlerStep decode s t = some (s', t'))
    (h : BudgetInv maxRequests maxBytes ⟨s, before ++ t :: after⟩) :
    BudgetInv maxRequests maxBytes ⟨s', before ++ t' :: after⟩ := by
  obtain ⟨hkeeps, hledger, hpending⟩ := handlerStep_budget hstep
  have hweight := weight_replace Handler.charged before t t' after
  have hcount := countP_replace Handler.inFlight before t t' after
  have hbytes : s.budget.usage.resourceBytes = weight Handler.charged (before ++ t :: after) :=
    h.ledger
  have hcounter : s.budget.pendingBodyAccounts =
      (before ++ t :: after).countP Handler.inFlight % 2 ^ 64 := h.pending
  have hmaxRequests : s.budget.maxRequests = maxRequests := h.requestCap
  have hmaxBytes : s.budget.maxBytes = maxBytes := h.byteCap
  refine ⟨hkeeps.maxRequests.trans hmaxRequests, hkeeps.maxBytes.trans hmaxBytes, ?_, ?_, ?_, ?_⟩
  · rw [← hmaxRequests]
    exact hkeeps.requests (hmaxRequests ▸ h.requests)
  · rw [← hmaxBytes]
    exact hkeeps.bytes (hmaxBytes ▸ h.bytes)
  · show s'.budget.usage.resourceBytes = weight Handler.charged (before ++ t' :: after)
    omega
  · obtain ⟨hlt, hmoved⟩ := hpending (by rw [hcounter]; exact Nat.mod_lt _ (by decide))
    show s'.budget.pendingBodyAccounts =
      (before ++ t' :: after).countP Handler.inFlight % 2 ^ 64
    omega

theorem inv_run (callbacks : List Callback) (schedule : List Nat) :
    BudgetInv maxRequests maxBytes
      (run (handlerStep decode) schedule (opened maxRequests maxBytes callbacks)) :=
  run_induction (fun _ _ _ _ _ _ hstep hinv => inv_step hstep hinv)
    (inv_opened maxRequests maxBytes callbacks) schedule

/-- A hit cap stays hit. -/
theorem capExceeded_run {pool : Pool Shared Handler}
    (h : pool.shared.budget.usage.capExceeded = true) (schedule : List Nat) :
    (run (handlerStep decode) schedule pool).shared.budget.usage.capExceeded = true :=
  run_induction (P := fun pool => pool.shared.budget.usage.capExceeded = true)
    (fun _ _ _ _ _ _ hstep hcap => (handlerStep_budget hstep).keeps.capExceeded hcap) h schedule

/-- A body in flight can always be carried on. -/
theorem handlerStep_isSome (s : Shared) {t : Handler} (h : t.inFlight = true) :
    handlerStep decode s t ≠ none := by
  cases t with
  | materializing paused =>
    simp only [handlerStep]
    split <;> exact Option.some_ne_none _
  | reading paused observed =>
    simp only [handlerStep]
    split <;> exact Option.some_ne_none _
  | charging paused observed already =>
    simp only [handlerStep]
    split <;> exact Option.some_ne_none _
  | updating paused observed charged => exact Option.some_ne_none _
  | exhausting paused => exact Option.some_ne_none _
  | finishing paused charged => exact Option.some_ne_none _
  | admission | admitted _ | response _ | refusing _ | metering _ | passed _ | beginning _
  | settled _ _ | data _ | aborting _ | received _ _ => cases h

end

/-- Nothing is granted any more. -/
structure Refuses (b : RenderResourceBudget) : Prop where
  admission : b.admitRequest.1 = false
  ensureAvailable : b.ensureAvailable = .error .resourceBudgetExceeded
  remainingBytes : b.remainingBytes = .error .resourceBudgetExceeded
  charge : ∀ bytes, (b.chargeBytes bytes).1 = .error .resourceBudgetExceeded
  chargeRemaining : ∀ observed already, already < observed →
    (b.chargeRemainingBytes observed already).1 = .error .resourceBudgetExceeded

theorem refuses_of_capExceeded {b : RenderResourceBudget} (h : b.usage.capExceeded = true) :
    Refuses b := by
  have hcharge : ∀ bytes, (b.chargeBytes bytes).1 = .error .resourceBudgetExceeded := by
    intro bytes
    rcases b.chargeBytes_cases bytes with hrefused | ⟨hopen, -, -⟩
    · rw [hrefused]
    · rw [h] at hopen
      cases hopen
  refine ⟨?_, ?_, ?_, hcharge, ?_⟩
  · unfold RenderResourceBudget.admitRequest
    rw [h]
    rfl
  · unfold RenderResourceBudget.ensureAvailable
    rw [if_pos h]
  · unfold RenderResourceBudget.remainingBytes
    rw [if_pos h]
  · intro observed already hlt
    unfold RenderResourceBudget.chargeRemainingBytes
    rw [if_neg (by omega)]
    exact hcharge _

/-- A charge that fails counts nothing. -/
theorem bytes_of_failed_charge (b : RenderResourceBudget) {bytes : Nat} {e : RenderError}
    (h : (b.chargeBytes bytes).1 = .error e) :
    (b.chargeBytes bytes).2.usage.resourceBytes = b.usage.resourceBytes := by
  rcases b.chargeBytes_cases bytes with hrefused | ⟨-, -, hcharged⟩
  · rw [hrefused]
    rfl
  · rw [hcharged] at h
    cases h

/-- What a run guarantees in the state it has come to. -/
structure BudgetSound (decode : String → Option Bytes) (maxRequests maxBytes : Nat)
    (pool : Pool Shared Handler) : Prop where
  bytes : pool.shared.budget.usage.resourceBytes ≤ maxBytes
  requests : pool.shared.budget.usage.subresourceCount ≤ maxRequests
  stays : pool.shared.budget.usage.capExceeded = true →
    ∀ more, (run (handlerStep decode) more pool).shared.budget.usage.capExceeded = true
  refuses : pool.shared.budget.usage.capExceeded = true → Refuses pool.shared.budget
  failedCharge : ∀ bytes e, (pool.shared.budget.chargeBytes bytes).1 = .error e →
    (pool.shared.budget.chargeBytes bytes).2.usage.resourceBytes =
      pool.shared.budget.usage.resourceBytes
  /-- The counter is a word of the machine: it is the number of bodies in flight as long as there
      are fewer callbacks than words. -/
  pending : pool.threads.length < 2 ^ 64 →
    pool.shared.budget.pendingBodyAccounts = pool.threads.countP Handler.inFlight
  /-- Whoever is about to take its body off the counter finds it there. -/
  noUnderflow : pool.threads.length < 2 ^ 64 → ∀ paused charged,
    .finishing paused charged ∈ pool.threads → 0 < pool.shared.budget.pendingBodyAccounts
  settles : Finished (handlerStep decode) pool →
    pool.shared.budget.hasPendingBodyAccounts = false

/-- **The render budget.**  Whatever callbacks come, and whatever the order of their steps: after
    any number of steps the caps hold, a hit cap stays hit and refuses everything, a failed charge
    counts nothing, and the counter of bodies in flight is right, so that nothing keeps the page
    from settling once every callback is through. -/
theorem renderBudget_sound (decode : String → Option Bytes) (maxRequests maxBytes : Nat)
    (callbacks : List Callback) (schedule : List Nat) :
    BudgetSound decode maxRequests maxBytes
      (run (handlerStep decode) schedule (opened maxRequests maxBytes callbacks)) := by
  have hinv : BudgetInv maxRequests maxBytes (run (handlerStep decode) schedule
      (opened maxRequests maxBytes callbacks)) := inv_run callbacks schedule
  generalize run (handlerStep decode) schedule (opened maxRequests maxBytes callbacks) = pool
    at hinv
  have hle : pool.threads.countP Handler.inFlight ≤ pool.threads.length := List.countP_le_length
  have hpending := hinv.pending
  have hexact : pool.threads.length < 2 ^ 64 →
      pool.shared.budget.pendingBodyAccounts = pool.threads.countP Handler.inFlight := by
    intro hlt
    rw [hpending, Nat.mod_eq_of_lt (Nat.lt_of_le_of_lt hle hlt)]
  refine ⟨hinv.bytes, hinv.requests, fun hcap more => capExceeded_run hcap more,
    refuses_of_capExceeded, fun _ _ h => bytes_of_failed_charge _ h, hexact, ?_, ?_⟩
  · intro hlt paused charged hmem
    rw [hexact hlt]
    exact List.countP_pos_iff.mpr ⟨_, hmem, rfl⟩
  · intro hfinished
    have hnone : pool.threads.countP Handler.inFlight = 0 := by
      rw [List.countP_eq_zero]
      intro t ht hflight
      exact handlerStep_isSome pool.shared hflight (hfinished t ht)
    unfold RenderResourceBudget.hasPendingBodyAccounts
    rw [hpending, hnone]
    rfl

end Basecrawl.Render
