/-
  Two ways to charge one body.

  While a body arrives, data events charge it piece by piece and raise its meter; when it has
  arrived, the response handler charges what the meter does not show yet.  The handler reads the
  meter and charges in two steps, so a piece that is reported in between, or later, is charged
  twice (`chargedFor_eq_iff`).

  1. **One step** — `MeterStep`: what a step can do to the meter of a request.
  2. **Until the handler reads the meter** — the meter shows what the events have charged.
  3. **From there on** — every event that is still to come is charged in full, and the handler
     charges what it missed at the reading.
-/
import Basecrawl.Render.Budget

namespace Basecrawl.Render

open Text Basecrawl.Core Panic Threads

/-! ## Who has to do with a request -/

/-- The response handler that meters the request. -/
def Handler.claims (key : NetworkId) : Handler → Bool
  | .response paused | .refusing paused | .metering paused | .passed paused | .beginning paused
  | .materializing paused | .reading paused _ | .charging paused _ _ | .updating paused _ _
  | .exhausting paused | .finishing paused _ | .settled paused _ =>
      paused.networkId == some key
  | _ => false

/-- It has no meter yet. -/
def Handler.unmetered : Handler → Bool
  | .response _ | .metering _ => true
  | _ => false

/-- It has one, which it has not read yet. -/
def Handler.unread : Handler → Bool
  | .beginning _ | .materializing _ | .reading _ _ => true
  | _ => false

/-- The size of a data event of the request that is still to be delivered. -/
def Handler.waiting (key : NetworkId) : Handler → Nat
  | .data event => if event.requestId = key then event.bytes else 0
  | _ => 0

/-- What a data event of the request was charged. -/
def Handler.eventCharge (key : NetworkId) : Handler → Nat
  | .received event charged => if event.requestId = key then charged else 0
  | _ => 0

/-- A data event of the request that could not be charged. -/
def Handler.aborts (key : NetworkId) : Handler → Bool
  | .aborting event => event.requestId == key
  | _ => false

/-- A data event of the request that is not through. -/
def Handler.undelivered (key : NetworkId) : Handler → Bool
  | .data event | .aborting event => event.requestId == key
  | _ => false

/-! ## One step -/

/-- What one step can do to the meter of a request, and to the account of its data events. -/
inductive MeterStep (key : NetworkId) (s : Shared) (t : Handler) (s' : Shared) (t' : Handler) :
    Prop where
  /-- Nothing, wherever the callback goes from there. -/
  | quiet : s'.meters key = s.meters key → t'.eventCharge key = t.eventCharge key →
      t'.waiting key = t.waiting key →
      (t.claims key = true → t'.unmetered = true → t.unmetered = true) →
      (t.claims key = true → t'.unread = true → t.unread = true) → t'.aborts key = false →
      MeterStep key s t s' t'
  /-- The handler puts the meter in place. -/
  | inserted (meter) : t.claims key = true → t.unmetered = true → t'.unmetered = false →
      s'.meters key = some meter → meter.observedBytes = 0 →
      t'.eventCharge key = t.eventCharge key → t'.waiting key = t.waiting key →
      t'.aborts key = false → MeterStep key s t s' t'
  /-- The handler raises it to the length of the body. -/
  | raised : t.claims key = true → t'.unmetered = false → t'.unread = false →
      (s'.meters key).isSome = (s.meters key).isSome → t'.eventCharge key = t.eventCharge key →
      t'.waiting key = t.waiting key → t'.aborts key = false → MeterStep key s t s' t'
  /-- A data event is not charged. -/
  | dropped (event) : t = .data event → event.requestId = key →
      event.bytes = 0 ∨ s.meters key = none → s' = s → t' = .received event 0 →
      MeterStep key s t s' t'
  /-- It cannot be charged. -/
  | failed (event) : t = .data event → event.requestId = key → s'.meters = s.meters →
      t' = .aborting event → MeterStep key s t s' t'
  /-- It is charged, to the budget and to the meter. -/
  | charged (event meter) : t = .data event → event.requestId = key →
      s.meters key = some meter →
      s'.meters key =
        some { meter with observedBytes := meter.observedBytes + event.bytes } →
      t' = .received event event.bytes → MeterStep key s t s' t'

/-- A meter is put in place under the id of its response. -/
theorem insertMeter_meters (s : Shared) (paused : PausedResponse) (key : NetworkId) :
    (paused.networkId = some key ∧ ∃ meter, meter.observedBytes = 0 ∧
      (s.insertMeter paused).meters key = some meter) ∨
    (paused.networkId ≠ some key ∧ (s.insertMeter paused).meters key = s.meters key) := by
  unfold Shared.insertMeter
  cases hid : paused.networkId with
  | none => exact Or.inr ⟨(Option.some_ne_none key).symm, rfl⟩
  | some id =>
    by_cases hkey : id = key
    · subst hkey
      exact Or.inl ⟨rfl, _, rfl, Function.update_self ..⟩
    · exact Or.inr ⟨fun h => hkey (Option.some.inj h),
        Function.update_of_ne (Ne.symm hkey) _ _⟩

/-- A meter that is raised is still there, and no other one is touched. -/
theorem raiseMeter_meters (s : Shared) (paused : PausedResponse) (observed : Nat)
    (key : NetworkId) :
    ((s.raiseMeter paused observed).meters key).isSome = (s.meters key).isSome ∧
    (paused.networkId ≠ some key →
      (s.raiseMeter paused observed).meters key = s.meters key) := by
  unfold Shared.raiseMeter
  cases hid : paused.networkId with
  | none => exact ⟨rfl, fun _ => rfl⟩
  | some id =>
    cases hmeter : s.meters id with
    | none =>
      simp only [hmeter]
      exact ⟨trivial, fun _ => trivial⟩
    | some meter =>
      simp only [hmeter]
      by_cases hkey : id = key
      · subst hkey
        rw [Function.update_self, hmeter]
        exact ⟨rfl, fun h => absurd rfl h⟩
      · rw [Function.update_of_ne (Ne.symm hkey)]
        exact ⟨rfl, fun _ => rfl⟩

/-- A data event of the request is dropped, fails or is charged; one of another request leaves the
    meter alone. -/
theorem receive_meter (key : NetworkId) (s : Shared) (event : DataReceived) :
    MeterStep key s (.data event) (s.receive event).1 (s.receive event).2 := by
  by_cases hkey : event.requestId = key
  · rcases receive_cases s event with ⟨hdropped, h⟩ | h | h | ⟨meter, hmeter, -, h⟩
    · rw [h]
      exact .dropped event rfl hkey (hkey ▸ hdropped) rfl rfl
    · rw [h]
      exact .failed event rfl hkey rfl rfl
    · rw [h]
      exact .failed event rfl hkey rfl rfl
    · rw [h]
      subst hkey
      exact .charged event meter rfl rfl hmeter (Function.update_self ..) rfl
  · have hwaiting : (Handler.data event).waiting key = 0 := if_neg hkey
    rcases receive_cases s event with ⟨-, h⟩ | h | h | ⟨meter, -, -, h⟩
    · rw [h]
      exact .quiet rfl (if_neg hkey) hwaiting.symm (fun _ => id) (fun _ => id) rfl
    · rw [h]
      exact .quiet rfl rfl hwaiting.symm (fun _ => id) (fun _ => id)
        (beq_false_of_ne hkey)
    · rw [h]
      exact .quiet rfl rfl hwaiting.symm (fun _ => id) (fun _ => id)
        (beq_false_of_ne hkey)
    · rw [h]
      exact .quiet (Function.update_of_ne (Ne.symm hkey) _ _) (if_neg hkey) hwaiting.symm
        (fun _ => id) (fun _ => id) rfl

/-- A step that leaves the meters alone and is no data event's. -/
theorem MeterStep.of_meters {key : NetworkId} {s s' : Shared} {t t' : Handler}
    (hmeters : s'.meters = s.meters) (hcharge : t'.eventCharge key = t.eventCharge key)
    (hwaiting : t'.waiting key = t.waiting key)
    (hunmetered : t'.unmetered = true → t.unmetered = true)
    (hunread : t'.unread = true → t.unread = true) (haborts : t'.aborts key = false) :
    MeterStep key s t s' t' :=
  .quiet (congrFun hmeters key) hcharge hwaiting (fun _ => hunmetered) (fun _ => hunread) haborts

/-- **What one step can do** to a meter; and a callback stays with its request. -/
theorem handlerStep_meter {decode : String → Option Bytes} {s s' : Shared} {t t' : Handler}
    (key : NetworkId) (h : handlerStep decode s t = some (s', t')) :
    t'.claims key = t.claims key ∧ MeterStep key s t s' t' := by
  cases t with
  | admission =>
    obtain ⟨rfl, rfl⟩ := Prod.mk.inj (Option.some.inj h)
    exact ⟨rfl, .of_meters rfl rfl rfl id id rfl⟩
  | response paused =>
    simp only [handlerStep] at h
    split at h
    · obtain ⟨rfl, rfl⟩ := Prod.mk.inj (Option.some.inj h)
      exact ⟨rfl, .of_meters rfl rfl rfl (fun _ => rfl) id rfl⟩
    · obtain ⟨rfl, rfl⟩ := Prod.mk.inj (Option.some.inj h)
      exact ⟨rfl, .of_meters rfl rfl rfl (fun _ => rfl) id rfl⟩
  | refusing paused =>
    obtain ⟨rfl, rfl⟩ := Prod.mk.inj (Option.some.inj h)
    exact ⟨rfl, .of_meters rfl rfl rfl id id rfl⟩
  | metering paused =>
    simp only [handlerStep] at h
    -- the key is the one that is entered, or another one
    rcases insertMeter_meters s paused key with ⟨hid, meter, hzero, hmeter⟩ | ⟨hid, hmeter⟩
    · have hclaims : (Handler.metering paused).claims key = true := beq_iff_eq.mpr hid
      split at h
      · obtain ⟨rfl, rfl⟩ := Prod.mk.inj (Option.some.inj h)
        exact ⟨rfl, .inserted meter hclaims rfl rfl hmeter hzero rfl rfl rfl⟩
      · obtain ⟨rfl, rfl⟩ := Prod.mk.inj (Option.some.inj h)
        exact ⟨rfl, .inserted meter hclaims rfl rfl hmeter hzero rfl rfl rfl⟩
    · have hfree : (Handler.metering paused).claims key ≠ true := by
        simpa [Handler.claims] using hid
      split at h
      · obtain ⟨rfl, rfl⟩ := Prod.mk.inj (Option.some.inj h)
        exact ⟨rfl, .quiet hmeter rfl rfl (fun hc => absurd hc hfree) (fun hc => absurd hc hfree)
          rfl⟩
      · obtain ⟨rfl, rfl⟩ := Prod.mk.inj (Option.some.inj h)
        exact ⟨rfl, .quiet hmeter rfl rfl (fun hc => absurd hc hfree) (fun hc => absurd hc hfree)
          rfl⟩
  | beginning paused =>
    obtain ⟨rfl, rfl⟩ := Prod.mk.inj (Option.some.inj h)
    exact ⟨rfl, .of_meters rfl rfl rfl id id rfl⟩
  | materializing paused =>
    simp only [handlerStep] at h
    split at h
    · obtain ⟨rfl, rfl⟩ := Prod.mk.inj (Option.some.inj h)
      exact ⟨rfl, .of_meters rfl rfl rfl id (fun _ => rfl) rfl⟩
    · obtain ⟨rfl, rfl⟩ := Prod.mk.inj (Option.some.inj h)
      exact ⟨rfl, .of_meters rfl rfl rfl id (fun _ => rfl) rfl⟩
  | reading paused observed =>
    simp only [handlerStep] at h
    split at h
    · obtain ⟨rfl, rfl⟩ := Prod.mk.inj (Option.some.inj h)
      exact ⟨rfl, .of_meters rfl rfl rfl id (fun _ => rfl) rfl⟩
    · obtain ⟨rfl, rfl⟩ := Prod.mk.inj (Option.some.inj h)
      exact ⟨rfl, .of_meters rfl rfl rfl id (fun _ => rfl) rfl⟩
  | charging paused observed already =>
    simp only [handlerStep] at h
    split at h
    · obtain ⟨rfl, rfl⟩ := Prod.mk.inj (Option.some.inj h)
      exact ⟨rfl, .of_meters rfl rfl rfl id id rfl⟩
    · obtain ⟨rfl, rfl⟩ := Prod.mk.inj (Option.some.inj h)
      exact ⟨rfl, .of_meters rfl rfl rfl id id rfl⟩
  | updating paused observed charged =>
    obtain ⟨rfl, rfl⟩ := Prod.mk.inj (Option.some.inj h)
    obtain ⟨hsome, hother⟩ := raiseMeter_meters s paused observed key
    -- raising concerns the meter of this response only
    by_cases hid : paused.networkId = some key
    · exact ⟨rfl, .raised (beq_iff_eq.mpr hid) rfl rfl hsome rfl rfl rfl⟩
    · exact ⟨rfl, .quiet (hother hid) rfl rfl (fun _ => id) (fun _ => id) rfl⟩
  | exhausting paused =>
    obtain ⟨rfl, rfl⟩ := Prod.mk.inj (Option.some.inj h)
    exact ⟨rfl, .of_meters rfl rfl rfl id id rfl⟩
  | finishing paused charged =>
    obtain ⟨rfl, rfl⟩ := Prod.mk.inj (Option.some.inj h)
    exact ⟨rfl, .of_meters rfl rfl rfl id id rfl⟩
  | data event =>
    simp only [handlerStep, Option.some.injEq] at h
    have hmeter := receive_meter key s event
    rw [h] at hmeter
    refine ⟨?_, hmeter⟩
    rcases receive_cases s event with ⟨-, hr⟩ | hr | hr | ⟨meter, -, -, hr⟩
    all_goals
      obtain ⟨rfl, rfl⟩ := Prod.mk.inj (hr.symm.trans h)
      rfl
  | aborting event =>
    obtain ⟨rfl, rfl⟩ := Prod.mk.inj (Option.some.inj h)
    exact ⟨rfl, .of_meters rfl (by simp [Handler.eventCharge]) rfl id id rfl⟩
  -- the phases at rest take no step
  | admitted accepted => cases h
  | passed paused => cases h
  | settled paused charged => cases h
  | received event charged => cases h

/-! ## Until the handler reads the meter -/

/-- The cap is hit, or is about to be because a data event of the request went over it. -/
def Broken (key : NetworkId) (pool : Pool Shared Handler) : Prop :=
  pool.shared.budget.usage.capExceeded = true ∨ ∃ t ∈ pool.threads, t.aborts key = true

/-- The handler of the request is the only one, and until it has read the meter the meter shows
    what the data events have charged. -/
structure Metered (key : NetworkId) (pool : Pool Shared Handler) : Prop where
  alone : pool.threads.countP (Handler.claims key) ≤ 1
  unmetered : ∀ t ∈ pool.threads, t.claims key = true → t.unmetered = true →
    pool.shared.meters key = none ∧ weight (Handler.eventCharge key) pool.threads = 0
  unread : ∀ t ∈ pool.threads, t.claims key = true → t.unread = true →
    ∃ meter, pool.shared.meters key = some meter ∧
      meter.observedBytes = weight (Handler.eventCharge key) pool.threads

section

variable {decode : String → Option Bytes} {key : NetworkId} {s s' : Shared}
  {before after : List Handler} {t t' : Handler}

/-- Going over the cap is for good. -/
theorem broken_step (hstep : handlerStep decode s t = some (s', t'))
    (h : Broken key ⟨s, before ++ t :: after⟩) : Broken key ⟨s', before ++ t' :: after⟩ := by
  rcases h with hcap | ⟨u, hu, haborts⟩
  · exact Or.inl ((handlerStep_budget hstep).keeps.capExceeded hcap)
  · by_cases hself : t.aborts key = true
    · -- the event that went over takes its step
      left
      cases t with
      | aborting event =>
        obtain ⟨rfl, rfl⟩ := Prod.mk.inj (Option.some.inj hstep)
        rfl
      | _ => cases hself
    · right
      refine ⟨u, ?_, haborts⟩
      rcases List.mem_append.mp hu with hu | hu
      · exact List.mem_append_left _ hu
      · rcases List.mem_cons.mp hu with rfl | hu
        · exact absurd haborts hself
        · exact List.mem_append_right _ (List.mem_cons_of_mem _ hu)

/-- The one that claims the request is the only one to. -/
theorem not_claims_of_alone (h : (before ++ t :: after).countP (Handler.claims key) ≤ 1)
    (ht : t.claims key = true) {u : Handler} (hu : u ∈ before ∨ u ∈ after) :
    u.claims key ≠ true := by
  intro hclaims
  rw [List.countP_append, List.countP_cons, if_pos ht] at h
  rcases hu with hu | hu
  · have hpos : 0 < before.countP (Handler.claims key) := List.countP_pos_iff.mpr ⟨u, hu, hclaims⟩
    omega
  · have hpos : 0 < after.countP (Handler.claims key) := List.countP_pos_iff.mpr ⟨u, hu, hclaims⟩
    omega

/-- **One move** keeps the meter in step with the charges, unless it goes over the cap. -/
theorem metered_step (hstep : handlerStep decode s t = some (s', t'))
    (h : Metered key ⟨s, before ++ t :: after⟩) :
    Broken key ⟨s', before ++ t' :: after⟩ ∨ Metered key ⟨s', before ++ t' :: after⟩ := by
  obtain ⟨hclaims, hmeter⟩ := handlerStep_meter key hstep
  have hcount := countP_replace (Handler.claims key) before t t' after
  have hweight := weight_replace (Handler.eventCharge key) before t t' after
  have hmem : t ∈ before ++ t :: after := List.mem_append_cons_self
  -- no step makes a second handler claim the key
  have halone : (before ++ t' :: after).countP (Handler.claims key) ≤ 1 := by
    have hone : (before ++ t :: after).countP (Handler.claims key) ≤ 1 := h.alone
    rw [hclaims] at hcount
    omega
  cases hmeter with
  -- the meter and the charges stay as they are
  | quiet hsame hcharge _ hunmetered hunread _ =>
    right
    have hsum : weight (Handler.eventCharge key) (before ++ t' :: after) =
        weight (Handler.eventCharge key) (before ++ t :: after) := by omega
    refine ⟨halone, fun u hu hc hphase => ?_, fun u hu hc hphase => ?_⟩
    · show s'.meters key = none ∧ weight _ (before ++ t' :: after) = 0
      rw [hsame, hsum]
      rcases mem_replace (t := t) hu with rfl | ⟨-, hu⟩
      · rw [hclaims] at hc
        exact h.unmetered t hmem hc (hunmetered hc hphase)
      · exact h.unmetered u hu hc hphase
    · show ∃ meter, s'.meters key = some meter ∧
        meter.observedBytes = weight _ (before ++ t' :: after)
      rw [hsame, hsum]
      rcases mem_replace (t := t) hu with rfl | ⟨-, hu⟩
      · rw [hclaims] at hc
        exact h.unread t hmem hc (hunread hc hphase)
      · exact h.unread u hu hc hphase
  -- the handler that claims the key entered a meter that shows nothing
  | inserted meter hc hphase hphase' hnew hzero hcharge _ _ =>
    right
    obtain ⟨-, hnone⟩ := h.unmetered t hmem hc hphase
    have hsum : weight (Handler.eventCharge key) (before ++ t' :: after) = 0 := by
      have hnone : weight (Handler.eventCharge key) (before ++ t :: after) = 0 := hnone
      omega
    refine ⟨halone, fun u hu hu' hphase => ?_, fun u hu hu' hphase => ?_⟩
    · rcases mem_replace (t := t) hu with rfl | ⟨hother, -⟩
      · rw [hphase'] at hphase
        cases hphase
      · exact absurd hu' (not_claims_of_alone h.alone hc hother)
    · exact ⟨meter, hnew, hzero.trans hsum.symm⟩
  -- behind the read no clause is about this handler any more
  | raised hc hphase hphase' _ _ _ _ =>
    right
    refine ⟨halone, fun u hu hu' hunmetered => ?_, fun u hu hu' hunread => ?_⟩
    · rcases mem_replace (t := t) hu with rfl | ⟨hother, -⟩
      · rw [hphase] at hunmetered
        cases hunmetered
      · exact absurd hu' (not_claims_of_alone h.alone hc hother)
    · rcases mem_replace (t := t) hu with rfl | ⟨hother, -⟩
      · rw [hphase'] at hunread
        cases hunread
      · exact absurd hu' (not_claims_of_alone h.alone hc hother)
  -- an event that came to nothing charges nothing
  | dropped event ht hkey _ hs ht' =>
    right
    subst ht hs ht'
    have hsum : weight (Handler.eventCharge key) (before ++ .received event 0 :: after) =
        weight (Handler.eventCharge key) (before ++ .data event :: after) := by
      simp only [Handler.eventCharge, ite_self] at hweight
      exact hweight
    refine ⟨halone, fun u hu hu' hphase => ?_, fun u hu hu' hphase => ?_⟩
    · rcases mem_replace (t := .data event) hu with rfl | ⟨-, hu⟩
      · cases hphase
      · show _ ∧ weight _ (before ++ .received event 0 :: after) = 0
        rw [hsum]
        exact h.unmetered u hu hu' hphase
    · rcases mem_replace (t := .data event) hu with rfl | ⟨-, hu⟩
      · cases hphase
      · show ∃ meter : BrowserResponseMeter, _ ∧
          meter.observedBytes = weight _ (before ++ .received event 0 :: after)
        rw [hsum]
        exact h.unread u hu hu' hphase
  -- an event without room leaves the key broken
  | failed event ht hkey _ ht' =>
    left; right
    subst ht'
    exact ⟨_, List.mem_append_cons_self, beq_iff_eq.mpr hkey⟩
  -- the meter and the charges grow by the same bytes
  | charged event meter ht hkey hold hnew ht' =>
    right
    subst ht ht'
    have hsum : weight (Handler.eventCharge key) (before ++ .received event event.bytes :: after) =
        weight (Handler.eventCharge key) (before ++ .data event :: after) + event.bytes := by
      simp only [Handler.eventCharge, if_pos hkey] at hweight
      exact hweight
    refine ⟨halone, fun u hu hu' hphase => ?_, fun u hu hu' hphase => ?_⟩
    · rcases mem_replace (t := .data event) hu with rfl | ⟨-, hu⟩
      · cases hphase
      · have hnone : s.meters key = none := (h.unmetered u hu hu' hphase).1
        rw [hold] at hnone
        cases hnone
    · rcases mem_replace (t := .data event) hu with rfl | ⟨-, hu⟩
      · cases hphase
      · obtain ⟨meter', hmeter', hshown⟩ := h.unread u hu hu' hphase
        have hsame : meter' = meter := Option.some.inj (hmeter'.symm.trans hold)
        refine ⟨_, hnew, ?_⟩
        show meter.observedBytes + event.bytes = weight _ (before ++ .received event _ :: after)
        rw [hsum, ← hshown, hsame]

/-! ## From there on -/

/-- What the data events of the request have been charged, or may be charged yet. -/
def Handler.due (key : NetworkId) (t : Handler) : Nat := t.eventCharge key + t.waiting key

/-- No step makes more of it. -/
theorem due_step_le (key : NetworkId) (hstep : handlerStep decode s t = some (s', t')) :
    t'.due key ≤ t.due key := by
  unfold Handler.due
  cases (handlerStep_meter key hstep).2 with
  | quiet _ hcharge hwaiting _ _ _ => omega
  | inserted meter _ _ _ _ _ hcharge hwaiting _ => omega
  | raised _ _ _ _ hcharge hwaiting _ => omega
  | dropped event ht hkey _ _ ht' =>
    subst ht'
    simp [Handler.eventCharge, Handler.waiting]
  | failed event ht hkey _ ht' =>
    subst ht'
    simp [Handler.eventCharge, Handler.waiting]
  | charged event meter ht hkey _ _ ht' =>
    subst ht ht'
    simp [Handler.eventCharge, Handler.waiting]

/-- With the meter in place no step makes less of it either, unless it goes over the cap. -/
theorem due_step (hstep : handlerStep decode s t = some (s', t'))
    (hmeter : (s.meters key).isSome = true) :
    t'.aborts key = true ∨ ((s'.meters key).isSome = true ∧ t'.due key = t.due key) := by
  unfold Handler.due
  cases (handlerStep_meter key hstep).2 with
  | quiet hsame hcharge hwaiting _ _ _ => exact Or.inr ⟨by rw [hsame]; exact hmeter, by omega⟩
  | inserted meter _ _ _ hnew _ hcharge hwaiting _ =>
    exact Or.inr ⟨by rw [hnew]; rfl, by omega⟩
  | raised _ _ _ hsome hcharge hwaiting _ => exact Or.inr ⟨hsome.trans hmeter, by omega⟩
  | dropped event ht hkey hdropped hs ht' =>
    right
    subst ht hs ht'
    rcases hdropped with hzero | hnone
    · exact ⟨hmeter, by simp [Handler.eventCharge, Handler.waiting, hzero]⟩
    · rw [hnone] at hmeter
      cases hmeter
  | failed event ht hkey _ ht' =>
    left
    subst ht'
    exact beq_iff_eq.mpr hkey
  | charged event meter ht hkey _ hnew ht' =>
    right
    subst ht ht'
    exact ⟨by rw [hnew]; rfl, by simp [Handler.eventCharge, Handler.waiting]⟩

/-- The handler has read `already` off the meter, and charges the rest unless it goes over the
    cap. -/
inductive ChargesRest (paused : PausedResponse) (n already : Nat) : Handler → Prop where
  | charging : ChargesRest paused n already (.charging paused n already)
  | updating : ChargesRest paused n already (.updating paused n (n - already))
  | finishing : ChargesRest paused n already (.finishing paused (n - already))
  | settled : ChargesRest paused n already (.settled paused (n - already))
  | exhausting : ChargesRest paused n already (.exhausting paused)

/-- It stays on its way as long as the cap is not hit. -/
theorem chargesRest_step {paused : PausedResponse} {n already : Nat}
    (hstep : handlerStep decode s t = some (s', t'))
    (h : s.budget.usage.capExceeded = true ∨ ChargesRest paused n already t) :
    s'.budget.usage.capExceeded = true ∨ ChargesRest paused n already t' := by
  rcases h with hcap | hrest
  · exact Or.inl ((handlerStep_budget hstep).keeps.capExceeded hcap)
  cases hrest with
  | charging =>
    simp only [handlerStep] at hstep
    split at hstep
    · obtain ⟨-, rfl⟩ := Prod.mk.inj (Option.some.inj hstep)
      exact Or.inr .exhausting
    · obtain ⟨-, rfl⟩ := Prod.mk.inj (Option.some.inj hstep)
      exact Or.inr .updating
  | updating =>
    obtain ⟨-, rfl⟩ := Prod.mk.inj (Option.some.inj hstep)
    exact Or.inr .finishing
  | finishing =>
    obtain ⟨-, rfl⟩ := Prod.mk.inj (Option.some.inj hstep)
    exact Or.inr .settled
  | settled => cases hstep
  | exhausting =>
    obtain ⟨rfl, -⟩ := Prod.mk.inj (Option.some.inj hstep)
    exact Or.inl rfl

end

/-! ## The charge of a response -/

/-- The size of a callback that is a data event of the request. -/
def Callback.size (key : NetworkId) : Callback → Nat
  | .data event => if event.requestId = key then event.bytes else 0
  | _ => 0

/-- What was put on the budget for a response: by its handler, the `i`-th callback, and by the data
    events of its request. -/
def chargedFor (key : NetworkId) (i : Nat) (pool : Pool Shared Handler) : Nat :=
  (pool.threads[i]?.map Handler.charged).getD 0 + weight (Handler.eventCharge key) pool.threads

/-- A run in which the body of a response is read at the response stage, cut where its handler reads
    the meter: `n` bytes, reported by the data events of its request once altogether. -/
structure MaterializedRun (decode : String → Option Bytes) (maxRequests maxBytes : Nat)
    (callbacks : List Callback) (i : Nat) (paused : PausedResponse) (key : NetworkId) (n : Nat)
    (before after : List Nat) : Prop where
  called : callbacks[i]? = some (.response paused)
  /-- The response names its request, or does not say which one it is. -/
  named : paused.networkId = some key ∨ paused.networkId = none
  /-- No other response is metered under the request. -/
  alone : ∀ j other, callbacks[j]? = some (.response other) → other.networkId = some key → j = i
  sizes : weight (Callback.size key) callbacks = n
  reads : (run (handlerStep decode) before (opened maxRequests maxBytes callbacks)).threads[i]? =
    some (.reading paused n)
  settled : ∃ charged, (run (handlerStep decode) (before ++ i :: after)
    (opened maxRequests maxBytes callbacks)).threads[i]? = some (.settled paused charged)
  delivered : ∀ t ∈ (run (handlerStep decode) (before ++ i :: after)
    (opened maxRequests maxBytes callbacks)).threads, t.undelivered key = false
  /-- No cap is hit. -/
  within : (run (handlerStep decode) (before ++ i :: after)
    (opened maxRequests maxBytes callbacks)).shared.budget.usage.capExceeded = false

/-- A property of one place at most holds once at most. -/
theorem countP_le_one {α : Type} {p : α → Bool} : ∀ {xs : List α} {i : Nat},
    (∀ j x, xs[j]? = some x → p x = true → j = i) → xs.countP p ≤ 1
  | [], _, _ => Nat.zero_le 1
  | x :: xs, i, h => by
      rw [List.countP_cons]
      by_cases hx : p x = true
      · have hrest : xs.countP p = 0 := by
          rw [List.countP_eq_zero]
          intro y hy hpy
          obtain ⟨j, hj⟩ := List.mem_iff_getElem?.mp hy
          have hzero : 0 = i := h 0 x rfl hx
          have hsucc : j + 1 = i := h (j + 1) y hj hpy
          omega
        rw [if_pos hx, hrest]
      · have hrest : xs.countP p ≤ 1 := by
          refine countP_le_one (i := i - 1) fun j y hj hpy => ?_
          have hsucc : j + 1 = i := h (j + 1) y hj hpy
          omega
        rw [if_neg hx]
        exact hrest

theorem waiting_start (key : NetworkId) (callback : Callback) :
    callback.start.waiting key = callback.size key := by
  cases callback <;> rfl

theorem eventCharge_start (key : NetworkId) (callback : Callback) :
    callback.start.eventCharge key = 0 := by
  cases callback <;> rfl

theorem claims_start {key : NetworkId} {callback : Callback}
    (h : callback.start.claims key = true) :
    ∃ paused, callback = .response paused ∧ paused.networkId = some key := by
  cases callback with
  | response paused => exact ⟨paused, rfl, beq_iff_eq.mp h⟩
  | admission => cases h
  | data event => cases h

section

variable {decode : String → Option Bytes} {maxRequests maxBytes : Nat}
  {callbacks : List Callback} {key : NetworkId}

/-- Before the first step there is no meter and no charge. -/
theorem metered_opened (maxRequests maxBytes : Nat)
    (halone : callbacks.countP (fun c => c.start.claims key) ≤ 1) :
    Metered key (opened maxRequests maxBytes callbacks) := by
  have hzero : weight (Handler.eventCharge key) (callbacks.map Callback.start) = 0 := by
    rw [weight_eq_zero]
    intro t ht
    obtain ⟨callback, -, rfl⟩ := List.mem_map.mp ht
    exact eventCharge_start key callback
  refine ⟨?_, fun t ht _ _ => ⟨rfl, hzero⟩, fun t ht _ hphase => ?_⟩
  · show (callbacks.map Callback.start).countP (Handler.claims key) ≤ 1
    rw [List.countP_map]
    exact halone
  · obtain ⟨callback, -, rfl⟩ := List.mem_map.mp ht
    cases callback <;> cases hphase

/-- What every move keeps unless it goes over the cap, a run keeps unless it does. -/
theorem run_unless_broken (decode : String → Option Bytes) (key : NetworkId)
    {P : Pool Shared Handler → Prop}
    (hmove : ∀ s before t after s' t', handlerStep decode s t = some (s', t') →
      P ⟨s, before ++ t :: after⟩ →
      Broken key ⟨s', before ++ t' :: after⟩ ∨ P ⟨s', before ++ t' :: after⟩)
    {pool : Pool Shared Handler} (h : P pool) (schedule : List Nat) :
    Broken key (run (handlerStep decode) schedule pool) ∨
      P (run (handlerStep decode) schedule pool) := by
  refine run_induction (P := fun pool => Broken key pool ∨ P pool) ?_ (Or.inr h) schedule
  rintro s before t after s' t' hstep (hbroken | hP)
  · exact Or.inl (broken_step hstep hbroken)
  · exact hmove s before t after s' t' hstep hP

theorem broken_run {pool : Pool Shared Handler} (h : Broken key pool) (schedule : List Nat) :
    Broken key (run (handlerStep decode) schedule pool) :=
  run_induction (fun _ _ _ _ _ _ hstep hbroken => broken_step hstep hbroken) h schedule

/-- Without a response that claims the request its data events are not charged. -/
theorem uncharged_run (hfree : ∀ callback ∈ callbacks, callback.start.claims key = false)
    (schedule : List Nat) :
    weight (Handler.eventCharge key)
      (run (handlerStep decode) schedule (opened maxRequests maxBytes callbacks)).threads = 0 := by
  let P : Pool Shared Handler → Prop := fun pool =>
    (∀ t ∈ pool.threads, t.claims key = false) ∧ pool.shared.meters key = none ∧
      weight (Handler.eventCharge key) pool.threads = 0
  have hrun : P (run (handlerStep decode) schedule (opened maxRequests maxBytes callbacks)) := by
    refine run_induction ?_ ?_ schedule
    · rintro s before t after s' t' hstep ⟨hclaims, hnone, hzero⟩
      have hnone : s.meters key = none := hnone
      have hweight := weight_replace (Handler.eventCharge key) before t t' after
      have hzero : weight (Handler.eventCharge key) (before ++ t :: after) = 0 := hzero
      have ht : t.claims key = false := hclaims t List.mem_append_cons_self
      obtain ⟨hsame, hmeter⟩ := handlerStep_meter key hstep
      have hclaims' : ∀ u ∈ before ++ t' :: after, u.claims key = false := by
        intro u hu
        rcases mem_replace (t := t) hu with rfl | ⟨-, hu⟩
        · exact hsame.trans ht
        · exact hclaims u hu
      refine ⟨hclaims', ?_⟩
      show s'.meters key = none ∧ weight _ (before ++ t' :: after) = 0
      cases hmeter with
      | quiet hmeters hcharge _ _ _ _ => exact ⟨hmeters.trans hnone, by omega⟩
      | inserted meter hc _ _ _ _ _ _ _ =>
        rw [ht] at hc
        cases hc
      | raised hc _ _ _ _ _ _ =>
        rw [ht] at hc
        cases hc
      | dropped event hdata hkey _ hs ht' =>
        subst hs ht'
        refine ⟨hnone, ?_⟩
        simp only [Handler.eventCharge, ite_self] at hweight
        omega
      | failed event hdata hkey hs ht' =>
        subst ht'
        refine ⟨by rw [hs]; exact hnone, ?_⟩
        simp only [Handler.eventCharge] at hweight
        omega
      | charged event meter hdata hkey hold _ _ =>
        rw [hnone] at hold
        cases hold
    · refine ⟨fun t ht => ?_, rfl, ?_⟩
      · obtain ⟨callback, hmem, rfl⟩ := List.mem_map.mp ht
        exact hfree callback hmem
      · rw [weight_eq_zero]
        intro t ht
        obtain ⟨callback, -, rfl⟩ := List.mem_map.mp ht
        exact eventCharge_start key callback
  exact hrun.2.2

/-- What may be charged for data events never grows. -/
theorem due_run_le (schedule : List Nat) (pool : Pool Shared Handler) :
    weight (Handler.due key) (run (handlerStep decode) schedule pool).threads ≤
      weight (Handler.due key) pool.threads := by
  refine run_induction (P := fun later =>
    weight (Handler.due key) later.threads ≤ weight (Handler.due key) pool.threads) ?_
    (Nat.le_refl _) schedule
  intro s before t after s' t' hstep hle
  have hweight := weight_replace (Handler.due key) before t t' after
  have hless := due_step_le key hstep
  have hle : weight (Handler.due key) (before ++ t :: after) ≤
    weight (Handler.due key) pool.threads := hle
  show weight (Handler.due key) (before ++ t' :: after) ≤ _
  omega

/-- With the meter in place it stays the same, unless the cap is hit. -/
theorem due_run (decode : String → Option Bytes) {pool : Pool Shared Handler}
    (hmeter : (pool.shared.meters key).isSome = true) (schedule : List Nat) :
    Broken key (run (handlerStep decode) schedule pool) ∨
      weight (Handler.due key) (run (handlerStep decode) schedule pool).threads =
        weight (Handler.due key) pool.threads := by
  have hrun := run_unless_broken decode key (P := fun later =>
    (later.shared.meters key).isSome = true ∧
      weight (Handler.due key) later.threads = weight (Handler.due key) pool.threads)
    ?_ ⟨hmeter, rfl⟩ schedule
  · exact hrun.imp id fun h => h.2
  · rintro s before t after s' t' hstep ⟨hsome, hsame⟩
    have hweight := weight_replace (Handler.due key) before t t' after
    rcases due_step hstep hsome with haborts | ⟨hsome', hdue⟩
    · exact Or.inl (Or.inr ⟨t', List.mem_append_cons_self, haborts⟩)
    · refine Or.inr ⟨hsome', ?_⟩
      have hsame : weight (Handler.due key) (before ++ t :: after) =
        weight (Handler.due key) pool.threads := hsame
      show weight (Handler.due key) (before ++ t' :: after) = _
      omega

end

namespace MaterializedRun

variable {decode : String → Option Bytes} {maxRequests maxBytes : Nat}
  {callbacks : List Callback} {i : Nat} {paused : PausedResponse} {key : NetworkId} {n : Nat}
  {before after : List Nat}

/-- Such a run does not go over the cap. -/
theorem not_broken
    (h : MaterializedRun decode maxRequests maxBytes callbacks i paused key n before after) :
    ¬Broken key (run (handlerStep decode) (before ++ i :: after)
      (opened maxRequests maxBytes callbacks)) := by
  rintro (hcap | ⟨t, ht, haborts⟩)
  · rw [h.within] at hcap
    cases hcap
  · have hdelivered := h.delivered t ht
    cases t with
    | aborting event =>
      rw [show (Handler.aborting event).undelivered key = true from haborts] at hdelivered
      cases hdelivered
    | _ => cases haborts

/-- The handler has charged what the meter did not show when it read it. -/
theorem handler_charge
    (h : MaterializedRun decode maxRequests maxBytes callbacks i paused key n before after) :
    (run (handlerStep decode) (before ++ i :: after)
        (opened maxRequests maxBytes callbacks)).threads[i]? =
      some (.settled paused (n - (run (handlerStep decode) before
        (opened maxRequests maxBytes callbacks)).shared.alreadyCharged paused)) := by
  have hwithin := h.within
  obtain ⟨charged, hsettled⟩ := h.settled
  have hreads := h.reads
  rw [run_append, run] at hsettled hwithin ⊢
  generalize run (handlerStep decode) before (opened maxRequests maxBytes callbacks) = pool
    at hsettled hwithin hreads ⊢
  rcases move_self (handlerStep decode) hreads with ⟨hstuck, -⟩ | ⟨s', t', hstep, hshared, ht'⟩
  · simp only [handlerStep] at hstuck
    split at hstuck <;> cases hstuck
  · have hstart : ChargesRest paused n (pool.shared.alreadyCharged paused) t' := by
      simp only [handlerStep] at hstep
      split at hstep
      · obtain ⟨-, rfl⟩ := Prod.mk.inj (Option.some.inj hstep)
        exact .exhausting
      · obtain ⟨-, rfl⟩ := Prod.mk.inj (Option.some.inj hstep)
        exact .charging
    obtain ⟨t, ht, hend⟩ := run_watch
      (fun _ _ _ _ hstep hP => chargesRest_step hstep hP)
      (fun s u s' u' t hstep hP => hP.imp (handlerStep_budget hstep).keeps.capExceeded id)
      after ht' (Or.inr hstart)
    rw [hsettled] at ht ⊢
    obtain rfl := Option.some.inj ht
    rcases hend with hcap | hend
    · rw [hwithin] at hcap
      cases hcap
    · cases hend
      rfl

/-- Every event is through at the end: what was due is what was charged. -/
theorem due_final
    (h : MaterializedRun decode maxRequests maxBytes callbacks i paused key n before after) :
    weight (Handler.due key) (run (handlerStep decode) (before ++ i :: after)
        (opened maxRequests maxBytes callbacks)).threads =
      weight (Handler.eventCharge key) (run (handlerStep decode) (before ++ i :: after)
        (opened maxRequests maxBytes callbacks)).threads := by
  have hwaiting : weight (Handler.waiting key) (run (handlerStep decode) (before ++ i :: after)
      (opened maxRequests maxBytes callbacks)).threads = 0 := by
    rw [weight_eq_zero]
    intro t ht
    have hdelivered := h.delivered t ht
    cases t with
    | data event => exact if_neg (by simpa [Handler.undelivered] using hdelivered)
    | _ => rfl
  unfold Handler.due
  rw [weight_add, hwaiting, Nat.add_zero]

/-- At most the size of the body is due when the handler reads the meter. -/
theorem due_le
    (h : MaterializedRun decode maxRequests maxBytes callbacks i paused key n before after) :
    weight (Handler.due key) (run (handlerStep decode) before
      (opened maxRequests maxBytes callbacks)).threads ≤ n := by
  refine Nat.le_trans (due_run_le before _) (Nat.le_of_eq ?_)
  rw [← h.sizes]
  show weight (Handler.due key) (callbacks.map Callback.start) = _
  have hstart : ∀ cs : List Callback,
      weight (Handler.due key) (cs.map Callback.start) = weight (Callback.size key) cs := by
    intro cs
    induction cs with
    | nil => rfl
    | cons c cs ih =>
      rw [List.map_cons, weight, weight, ih, Handler.due, eventCharge_start, waiting_start,
        Nat.zero_add]
  exact hstart callbacks

/-- A response that names its request is charged for its body, and once more for what was still to
    be delivered when the handler read the meter. -/
theorem chargedFor_named
    (h : MaterializedRun decode maxRequests maxBytes callbacks i paused key n before after)
    (hkey : paused.networkId = some key) :
    chargedFor key i (run (handlerStep decode) (before ++ i :: after)
        (opened maxRequests maxBytes callbacks)) =
      n + weight (Handler.waiting key) (run (handlerStep decode) before
        (opened maxRequests maxBytes callbacks)).threads := by
  have halone : callbacks.countP (fun c => c.start.claims key) ≤ 1 := by
    refine countP_le_one (i := i) fun j c hj hc => ?_
    obtain ⟨other, rfl, hother⟩ := claims_start hc
    exact h.alone j other hj hother
  have hmetered := run_unless_broken decode key
    (fun _ _ _ _ _ _ hstep hm => metered_step hstep hm)
    (metered_opened maxRequests maxBytes halone) before
  have hcharge := h.handler_charge
  have hdue := h.due_final
  have hle := h.due_le
  have hnot := h.not_broken
  have hreads := h.reads
  rw [run_append] at hcharge hdue hnot ⊢
  generalize run (handlerStep decode) before (opened maxRequests maxBytes callbacks) = pool
    at hmetered hcharge hdue hle hnot hreads ⊢
  rcases hmetered with hbroken | hmetered
  · exact absurd (broken_run hbroken _) hnot
  -- the meter shows what the events have charged so far
  obtain ⟨meter, hmeter, hshown⟩ := hmetered.unread (.reading paused n)
    (List.mem_of_getElem? hreads) (beq_iff_eq.mpr hkey) rfl
  have halready : pool.shared.alreadyCharged paused =
      weight (Handler.eventCharge key) pool.threads := by
    unfold Shared.alreadyCharged
    rw [hkey, Option.bind_some, hmeter]
    exact hshown
  -- and the events that are still to come will be charged in full
  rcases due_run decode (by rw [hmeter]; rfl) (i :: after) with hbroken | hsame
  · exact absurd hbroken hnot
  have hsplit : weight (Handler.due key) pool.threads =
      weight (Handler.eventCharge key) pool.threads + weight (Handler.waiting key) pool.threads :=
    weight_add _ _ _
  unfold chargedFor
  rw [hcharge, halready]
  show n - weight (Handler.eventCharge key) pool.threads + _ = _
  omega

/-- A response that names no request is charged by its handler alone. -/
theorem chargedFor_unnamed
    (h : MaterializedRun decode maxRequests maxBytes callbacks i paused key n before after)
    (hnone : paused.networkId = none) :
    chargedFor key i (run (handlerStep decode) (before ++ i :: after)
      (opened maxRequests maxBytes callbacks)) = n := by
  have hfree : ∀ callback ∈ callbacks, callback.start.claims key = false := by
    intro callback hmem
    by_contra hclaims
    obtain ⟨other, rfl, hother⟩ := claims_start (Bool.eq_true_of_not_eq_false hclaims)
    obtain ⟨j, hj⟩ := List.mem_iff_getElem?.mp hmem
    obtain rfl := h.alone j other hj hother
    have hsame : paused = other := by
      have hcalled := h.called.symm.trans hj
      cases hcalled
      rfl
    rw [hsame, hother] at hnone
    cases hnone
  have halready : (run (handlerStep decode) before
      (opened maxRequests maxBytes callbacks)).shared.alreadyCharged paused = 0 := by
    unfold Shared.alreadyCharged
    rw [hnone]
    rfl
  unfold chargedFor
  rw [h.handler_charge, halready, uncharged_run hfree]
  rfl

end MaterializedRun

/-- **The double charge.**  In a run in which no cap is hit, what is put on the budget for a body of
    `n` bytes is `n` exactly when the response does not say which request it belongs to, or every
    data event of the request with anything in it was delivered before the handler read the
    meter.  The budget counts what its callbacks charge. -/
theorem chargedFor_eq_iff (decode : String → Option Bytes) (maxRequests maxBytes : Nat)
    (callbacks : List Callback) (i : Nat) (paused : PausedResponse) (key : NetworkId) (n : Nat)
    (before after : List Nat)
    (h : MaterializedRun decode maxRequests maxBytes callbacks i paused key n before after) :
    (run (handlerStep decode) (before ++ i :: after)
        (opened maxRequests maxBytes callbacks)).shared.budget.usage.resourceBytes =
      weight Handler.charged (run (handlerStep decode) (before ++ i :: after)
        (opened maxRequests maxBytes callbacks)).threads ∧
    (chargedFor key i (run (handlerStep decode) (before ++ i :: after)
        (opened maxRequests maxBytes callbacks)) = n ↔
      paused.networkId = none ∨
        ∀ event, .data event ∈ (run (handlerStep decode) before
            (opened maxRequests maxBytes callbacks)).threads →
          event.requestId = key → event.bytes = 0) := by
  refine ⟨(inv_run callbacks _).ledger, ?_⟩
  rcases h.named with hkey | hnone
  · rw [h.chargedFor_named hkey, hkey]
    have hzero : weight (Handler.waiting key) (run (handlerStep decode) before
        (opened maxRequests maxBytes callbacks)).threads = 0 ↔
        ∀ event, .data event ∈ (run (handlerStep decode) before
            (opened maxRequests maxBytes callbacks)).threads →
          event.requestId = key → event.bytes = 0 := by
      rw [weight_eq_zero]
      constructor
      · intro hall event hmem hevent
        have hwaiting := hall _ hmem
        rwa [Handler.waiting, if_pos hevent] at hwaiting
      · intro hall t ht
        cases t with
        | data event =>
          rw [Handler.waiting]
          split
          · rename_i hevent
            exact hall event ht hevent
          · rfl
        | _ => rfl
    rw [← hzero]
    constructor
    · intro hexact
      exact Or.inr (by omega)
    · rintro (hnone | hnothing)
      · cases hnone
      · omega
  · exact iff_of_true (h.chargedFor_unnamed hnone) (Or.inl hnone)

/-! ## One body, charged twice -/

/-- A chunked response of ten bytes. -/
def chunkedResponse : PausedResponse where
  isDocument := false
  maxDocumentBytes := 1000
  headers := [⟨"transfer-encoding", "chunked"⟩]
  networkId := some ⟨0, "1000.2"⟩
  body := some ⟨"0123456789", false⟩

/-- The response, and the one data event of its body. -/
def chunkedCallbacks : List Callback :=
  [.response chunkedResponse, .data ⟨⟨0, "1000.2"⟩, 10, 10⟩]

/-- Such a run, as far as the callbacks go. -/
theorem chunkedRun {before after : List Nat} (charged : Nat)
    (hreads : (run (handlerStep fun _ => none) before
      (opened 100 1000 chunkedCallbacks)).threads[0]? = some (.reading chunkedResponse 10))
    (hsettled : (run (handlerStep fun _ => none) (before ++ 0 :: after)
      (opened 100 1000 chunkedCallbacks)).threads[0]? = some (.settled chunkedResponse charged))
    (hdelivered : (run (handlerStep fun _ => none) (before ++ 0 :: after)
      (opened 100 1000 chunkedCallbacks)).threads.all
        (fun t => !t.undelivered ⟨0, "1000.2"⟩) = true)
    (hwithin : (run (handlerStep fun _ => none) (before ++ 0 :: after)
      (opened 100 1000 chunkedCallbacks)).shared.budget.usage.capExceeded = false) :
    MaterializedRun (fun _ => none) 100 1000 chunkedCallbacks 0 chunkedResponse ⟨0, "1000.2"⟩ 10
      before after where
  called := rfl
  named := Or.inl rfl
  alone := by
    intro j other hj _
    match j with
    | 0 => rfl
    | 1 => cases hj
    | j + 2 => cases hj
  sizes := rfl
  reads := hreads
  settled := ⟨charged, hsettled⟩
  delivered := by
    intro t ht
    have hall := List.all_eq_true.mp hdelivered t ht
    simpa using hall
  within := hwithin

/-- The data event is delivered between the reading and the charge: twenty bytes for ten. -/
theorem chargedFor_twice :
    MaterializedRun (fun _ => none) 100 1000 chunkedCallbacks 0 chunkedResponse ⟨0, "1000.2"⟩ 10
      [0, 0, 0, 0] [1, 0, 0, 0] ∧
    chargedFor ⟨0, "1000.2"⟩ 0 (run (handlerStep fun _ => none) ([0, 0, 0, 0] ++ 0 :: [1, 0, 0, 0])
      (opened 100 1000 chunkedCallbacks)) ≠ 10 :=
  ⟨chunkedRun 10 (by decide) (by decide) (by decide)
    (by decide), by decide⟩

/-- It is delivered before the reading: ten bytes for ten. -/
theorem chargedFor_once :
    chargedFor ⟨0, "1000.2"⟩ 0 (run (handlerStep fun _ => none) ([0, 0, 1, 0, 0] ++ 0 :: [0, 0, 0])
      (opened 100 1000 chunkedCallbacks)) = 10 := by
  have hrun : MaterializedRun (fun _ => none) 100 1000 chunkedCallbacks 0 chunkedResponse
      ⟨0, "1000.2"⟩ 10 [0, 0, 1, 0, 0] [0, 0, 0] :=
    chunkedRun 0 (by decide) (by decide) (by decide)
      (by decide)
  refine (chargedFor_eq_iff _ _ _ _ _ _ _ _ _ _ hrun).2.mpr (Or.inr fun event hmem _ => ?_)
  have hnone : (run (handlerStep fun _ => none) [0, 0, 1, 0, 0]
      (opened 100 1000 chunkedCallbacks)).threads.all
        (fun t => match t with
          | .data _ => false
          | _ => true) = true := by decide
  cases List.all_eq_true.mp hnone _ hmem

end Basecrawl.Render
