/-
  The crawl delay: one schedule of transmissions for each origin.

  Time is a number that only grows.  A call reads the clock when it has the schedule, works out how
  long it still has to wait, gives up when its deadline comes first, and puts down the time once its
  transmission is over, whatever came of it.

  1. **One call** — `transmit_cases`: what a call can do.
  2. **Runs** — `transmit_paces`: any number of callers keep each origin's transmissions apart.
-/
import Basecrawl.Lib.History
import Basecrawl.Lib.Spacing
import Basecrawl.Core.World
import Basecrawl.Render.Continue

namespace Basecrawl.Render

open Basecrawl.Core Spacing

/-! ## One call -/

/-- `OriginPacer`. -/
structure OriginPacer where
  lastTransmissionAt : RenderOrigin → Option Nat

/-- `OriginPacer::default`. -/
def OriginPacer.default : OriginPacer := ⟨fun _ => none⟩

/-- The moment of a transmission is put down. -/
def OriginPacer.insert (pacer : OriginPacer) (origin : RenderOrigin) (now : Nat) : OriginPacer :=
  ⟨Function.update pacer.lastTransmissionAt origin (some now)⟩

/-- A later moment takes the place of an earlier one. -/
theorem OriginPacer.insert_insert (pacer : OriginPacer) (origin : RenderOrigin) (now later : Nat) :
    (pacer.insert origin now).insert origin later = pacer.insert origin later :=
  congrArg OriginPacer.mk (Function.update_idem _ _ _)

/-- The caller's absolute deadline expired before an origin could next be contacted. -/
structure PacingDeadlineExceeded where
deriving DecidableEq

/-- What passes between the readings of the clock in one call. -/
structure Lapse where
  /-- Until the schedule is there to be read. -/
  locked : Nat := 0
  /-- From the time that has elapsed to the time that remains. -/
  reading : Nat := 0
  /-- A sleep may last longer than it was asked to. -/
  oversleep : Nat := 0
  /-- From the end of the transmission to the reading that is put down. -/
  insert : Nat := 0

/-- `deadline.checked_duration_since(now)`, when there is any left. -/
def remainingUntil (deadline now : Nat) : Option Nat :=
  if now < deadline then some (deadline - now) else none

/-- When the transmission of a call that has the schedule at `now` may start. -/
def OriginPacer.admit (pacer : OriginPacer) (origin : RenderOrigin) (delay deadline : Nat)
    (lapse : Lapse) (now : Nat) : Except PacingDeadlineExceeded Nat :=
  match pacer.lastTransmissionAt origin with
  | none => .ok now
  | some previous =>
      let elapsed := now - previous
      if elapsed < delay then
        let wait := delay - elapsed
        let now := now + lapse.reading
        match remainingUntil deadline now with
        | none => .error ⟨⟩
        | some remaining =>
            if wait ≥ remaining then .error ⟨⟩
            else .ok (now + (wait + lapse.oversleep))
      else .ok now

/-- What the callers share: the clock, the schedule and the outside their transmissions act on.
    `log` keeps the transmissions to an origin, for the properties. -/
structure Paced (σ : Type) where
  now : Nat
  pacer : OriginPacer
  outside : σ
  log : List (Sent RenderOrigin)

/-- A transmission: what it does to the outside, and how long it takes. -/
abbrev Transmission (σ τ : Type) := σ → τ × σ × Nat

variable {σ τ : Type}

/-- Run a transmission. -/
def Paced.perform (s : Paced σ) (transmit : Transmission σ τ) : τ × Paced σ :=
  match transmit s.outside with
  | (answer, outside, duration) =>
      (answer, { s with now := s.now + duration, outside := outside })

/-- `OriginPacer::transmit`. -/
def OriginPacer.transmit (lib : UrlLib) (rawUrl : String) (delay deadline : Nat) (lapse : Lapse)
    (transmit : Transmission σ τ) (s : Paced σ) : Except PacingDeadlineExceeded τ × Paced σ :=
  if delay = 0 then
    match s.perform transmit with
    | (answer, s) => (.ok answer, s)
  else
    match originForUrl lib rawUrl with
    | none =>
        match s.perform transmit with
        | (answer, s) => (.ok answer, s)
    | some origin =>
        let locked := { s with now := s.now + lapse.locked }
        match s.pacer.admit origin delay deadline lapse locked.now with
        | .error e => (.error e, locked)
        | .ok start =>
            match { locked with now := start }.perform transmit with
            | (answer, sent) =>
                let stamp := sent.now + lapse.insert
                (.ok answer,
                  { sent with
                    now := stamp
                    pacer := sent.pacer.insert origin stamp
                    log := sent.log ++ [⟨origin, start, sent.now⟩] })

/-- **Admission**: a transmission starts a delay after the one before it, and not in the past. -/
theorem OriginPacer.admit_eq_ok {pacer : OriginPacer} {origin : RenderOrigin}
    {delay deadline now start : Nat} {lapse : Lapse}
    (hpast : ∀ stamp, pacer.lastTransmissionAt origin = some stamp → stamp ≤ now)
    (h : pacer.admit origin delay deadline lapse now = .ok start) :
    now ≤ start ∧
      ∀ previous, pacer.lastTransmissionAt origin = some previous → previous + delay ≤ start := by
  unfold OriginPacer.admit at h
  split at h
  · rename_i hnone
    obtain rfl := Except.ok.inj h
    rw [hnone]
    exact ⟨Nat.le_refl _, fun previous hprevious => by cases hprevious⟩
  · rename_i previous hsome
    have hle := hpast previous hsome
    rw [hsome]
    have hstart : now ≤ start ∧ previous + delay ≤ start := by
      simp only at h
      split at h
      · split at h
        · cases h
        · split at h
          · cases h
          · obtain rfl := Except.ok.inj h
            omega
      · obtain rfl := Except.ok.inj h
        omega
    refine ⟨hstart.1, fun previous' hprevious => ?_⟩
    obtain rfl := Option.some.inj hprevious
    exact hstart.2

/-- **What a call can do**, with a delay: transmit to no origin in particular, give up, or wait its
    turn, transmit and put down the time. -/
theorem OriginPacer.transmit_cases (lib : UrlLib) (rawUrl : String) {delay : Nat}
    (hd : 0 < delay) (deadline : Nat) (lapse : Lapse) (transmit : Transmission σ τ) (s : Paced σ) :
    (originForUrl lib rawUrl = none ∧
      ∃ answer outside later, s.now ≤ later ∧
        OriginPacer.transmit lib rawUrl delay deadline lapse transmit s =
          (.ok answer, { s with now := later, outside := outside })) ∨
    (∃ later, s.now ≤ later ∧
      OriginPacer.transmit lib rawUrl delay deadline lapse transmit s =
        (.error ⟨⟩, { s with now := later })) ∨
    ∃ origin answer outside locked start finish stamp, originForUrl lib rawUrl = some origin ∧
      s.now ≤ locked ∧ s.pacer.admit origin delay deadline lapse locked = .ok start ∧
      start ≤ finish ∧ finish ≤ stamp ∧
      OriginPacer.transmit lib rawUrl delay deadline lapse transmit s =
        (.ok answer,
          { now := stamp
            pacer := s.pacer.insert origin stamp
            outside := outside
            log := s.log ++ [⟨origin, start, finish⟩] }) := by
  have hne : delay ≠ 0 := Nat.ne_of_gt hd
  unfold OriginPacer.transmit
  rw [if_neg hne]
  cases horigin : originForUrl lib rawUrl with
  | none =>
    left
    exact ⟨rfl, _, _, s.now + (transmit s.outside).2.2, Nat.le_add_right .., rfl⟩
  | some origin =>
    right
    simp only
    cases hgranted : s.pacer.admit origin delay deadline lapse (s.now + lapse.locked) with
    | error e =>
      left
      exact ⟨s.now + lapse.locked, Nat.le_add_right .., rfl⟩
    | ok start =>
      right
      exact ⟨origin, _, _, s.now + lapse.locked, start, start + (transmit s.outside).2.2,
        start + (transmit s.outside).2.2 + lapse.insert, rfl, Nat.le_add_right .., hgranted,
        Nat.le_add_right .., Nat.le_add_right .., rfl⟩

/-! ## Runs -/

/-- Who calls: a direct fetch with the URL it parsed, or a browser continuation with the text of
    the paused request. -/
inductive Caller where
  | direct (url : Url)
  | continuation (rawUrl : String)

/-- The text a caller hands over. -/
def Caller.rawUrl : Caller → String
  | .direct url => url.toString
  | .continuation rawUrl => rawUrl

/-- A call of any caller, with its own deadline. -/
structure Call (σ τ : Type) where
  caller : Caller
  deadline : Nat
  lapse : Lapse
  transmit : Transmission σ τ

/-- The origin a call is scheduled under. -/
def Call.origin (lib : UrlLib) (call : Call σ τ) : Option RenderOrigin :=
  originForUrl lib call.caller.rawUrl

/-- `FetchConfig::transmit_with_pacing`: a direct fetch reports a missed slot as a timeout. -/
def transmitWithPacing (lib : UrlLib) (url : Url) (delay deadline : Nat) (lapse : Lapse)
    (transmit : Transmission σ τ) (s : Paced σ) : Except Error τ × Paced σ :=
  match OriginPacer.transmit lib url.toString delay deadline lapse transmit s with
  | (.ok answer, s) => (.ok answer, s)
  | (.error ⟨⟩, s) => (.error (.timeout "scrape deadline exceeded"), s)

/-- What a caller hears. -/
inductive Answer (τ : Type) where
  | direct (result : Except Error τ)
  | continuation (result : Except PacingDeadlineExceeded τ)

/-- The slot was missed. -/
def Answer.refused : Answer τ → Bool
  | .direct (.error _) | .continuation (.error _) => true
  | .direct (.ok _) | .continuation (.ok _) => false

/-- One call on the shared schedule. -/
def Call.run (lib : UrlLib) (delay : Nat) (call : Call σ τ) (s : Paced σ) : Answer τ × Paced σ :=
  match call.caller with
  | .direct url =>
      match transmitWithPacing lib url delay call.deadline call.lapse call.transmit s with
      | (result, s) => (.direct result, s)
  | .continuation rawUrl =>
      match OriginPacer.transmit lib rawUrl delay call.deadline call.lapse call.transmit s with
      | (result, s) => (.continuation result, s)

/-- A fresh schedule. -/
def Paced.start (now : Nat) (outside : σ) : Paced σ := ⟨now, .default, outside, []⟩

/-- The log is spaced, and the schedule knows it. -/
def Paced.Inv (delay : Nat) (s : Paced σ) : Prop :=
  Kept delay s.pacer.lastTransmissionAt s.now s.log

/-- Whoever calls, the schedule sees a call under the text handed over. -/
theorem Call.run_eq (lib : UrlLib) (delay : Nat) (call : Call σ τ) (s : Paced σ) :
    ∃ result : Except PacingDeadlineExceeded τ,
      OriginPacer.transmit lib call.caller.rawUrl delay call.deadline call.lapse call.transmit s =
        (result, (call.run lib delay s).2) ∧
      ((call.run lib delay s).1.refused = true → result = .error ⟨⟩) := by
  unfold Call.run
  cases call.caller with
  | direct url =>
    simp only [transmitWithPacing, Caller.rawUrl]
    split
    · rename_i answer after hrun
      exact ⟨.ok answer, hrun, fun h => by cases h⟩
    · rename_i after hrun
      exact ⟨.error ⟨⟩, hrun, fun _ => rfl⟩
  | continuation rawUrl =>
    simp only [Caller.rawUrl]
    cases OriginPacer.transmit lib rawUrl delay call.deadline call.lapse call.transmit s with
    | mk result after =>
      refine ⟨result, rfl, fun h => ?_⟩
      cases result with
      | ok answer => cases h
      | error e => rfl

/-- **One call** keeps the schedule. -/
theorem Call.run_inv {lib : UrlLib} {delay : Nat} (hd : 0 < delay) (call : Call σ τ)
    {s : Paced σ} (h : s.Inv delay) : (call.run lib delay s).2.Inv delay := by
  obtain ⟨result, hresult, -⟩ := call.run_eq lib delay s
  rcases OriginPacer.transmit_cases lib call.caller.rawUrl hd call.deadline call.lapse
    call.transmit s with
    ⟨-, answer, outside, later, hlater, hrun⟩ | ⟨later, hlater, hrun⟩ |
    ⟨origin, answer, outside, locked, start, finish, stamp, -, hlocked, hgranted, hfinish, hstamp,
      hrun⟩
  · obtain ⟨-, hafter⟩ := Prod.mk.inj (hresult.symm.trans hrun)
    rw [hafter]
    exact Kept.later h hlater
  · obtain ⟨-, hafter⟩ := Prod.mk.inj (hresult.symm.trans hrun)
    rw [hafter]
    exact Kept.later h hlater
  · obtain ⟨-, hafter⟩ := Prod.mk.inj (hresult.symm.trans hrun)
    rw [hafter]
    have hlater := Kept.later h hlocked
    obtain ⟨hstart, hwait⟩ := OriginPacer.admit_eq_ok (hlater.past origin) hgranted
    have hnow : locked ≤ stamp := by omega
    let sent : Sent RenderOrigin := ⟨origin, start, finish⟩
    exact hlater.send (show ∀ previous, _ = some previous → _ ≤ sent.start from hwait) hstamp hnow
      (Nat.le_refl _)

/-- A call that misses its slot leaves the schedule and the outside alone. -/
theorem Call.run_refused {lib : UrlLib} {delay : Nat} (hd : 0 < delay) {call : Call σ τ}
    {s : Paced σ} (h : (call.run lib delay s).1.refused = true) :
    (call.run lib delay s).2.pacer = s.pacer ∧ (call.run lib delay s).2.outside = s.outside ∧
      (call.run lib delay s).2.log = s.log := by
  obtain ⟨result, hresult, hrefused⟩ := call.run_eq lib delay s
  rcases OriginPacer.transmit_cases lib call.caller.rawUrl hd call.deadline call.lapse
    call.transmit s with
    ⟨-, answer, outside, later, -, hrun⟩ | ⟨later, -, hrun⟩ |
    ⟨origin, answer, outside, locked, start, finish, stamp, -, -, -, -, -, hrun⟩
  · obtain ⟨hok, -⟩ := Prod.mk.inj (hresult.symm.trans hrun)
    cases (hrefused h).symm.trans hok
  · obtain ⟨-, hafter⟩ := Prod.mk.inj (hresult.symm.trans hrun)
    rw [hafter]
    exact ⟨rfl, rfl, rfl⟩
  · obtain ⟨hok, -⟩ := Prod.mk.inj (hresult.symm.trans hrun)
    cases (hrefused h).symm.trans hok

/-- A call leaves the schedules of other origins alone. -/
theorem Call.run_other {lib : UrlLib} {delay : Nat} (hd : 0 < delay) {call : Call σ τ}
    (s : Paced σ) {origin : RenderOrigin} (h : call.origin lib ≠ some origin) :
    (call.run lib delay s).2.pacer.lastTransmissionAt origin =
      s.pacer.lastTransmissionAt origin := by
  obtain ⟨result, hresult, -⟩ := call.run_eq lib delay s
  rcases OriginPacer.transmit_cases lib call.caller.rawUrl hd call.deadline call.lapse
    call.transmit s with
    ⟨-, answer, outside, later, -, hrun⟩ | ⟨later, -, hrun⟩ |
    ⟨own, answer, outside, locked, start, finish, stamp, hown, -, -, -, -, hrun⟩
  · obtain ⟨-, hafter⟩ := Prod.mk.inj (hresult.symm.trans hrun)
    rw [hafter]
  · obtain ⟨-, hafter⟩ := Prod.mk.inj (hresult.symm.trans hrun)
    rw [hafter]
  · obtain ⟨-, hafter⟩ := Prod.mk.inj (hresult.symm.trans hrun)
    rw [hafter]
    have hne : origin ≠ own := by
      rintro rfl
      exact h hown
    exact Function.update_of_ne hne _ _

/-- **The crawl-delay floor.**  Whatever calls are made on one schedule, by direct fetches and
    browser continuations, for any URLs, with any deadlines and any durations: the transmissions to
    one origin are a delay apart, from the end of one to the start of the next.  A call that misses
    its slot transmits nothing and leaves the schedule as it was, and no call touches the schedule
    of another origin. -/
theorem transmit_paces (lib : UrlLib) (delay : Nat) (hd : 0 < delay) (calls : List (Call σ τ))
    (now : Nat) (outside : σ) :
    Spaced delay (History.final (Call.run lib delay) calls (.start now outside)).log ∧
    ∀ event ∈ History.trace (Call.run lib delay) calls (.start now outside),
      (event.outcome.refused = true →
        event.after.pacer = event.before.pacer ∧ event.after.outside = event.before.outside ∧
          event.after.log = event.before.log) ∧
      ∀ origin, event.call.origin lib ≠ some origin →
        event.after.pacer.lastTransmissionAt origin =
          event.before.pacer.lastTransmissionAt origin := by
  constructor
  · have hinv : (History.final (Call.run lib delay) calls (.start now outside)).Inv delay :=
      History.final_induction (P := Paced.Inv delay) (fun call _ h => call.run_inv hd h) calls
        (kept_nil delay now)
    exact hinv.spaced
  · intro event hmem
    have hstep := History.of_mem_trace hmem
    have houtcome : event.outcome = (event.call.run lib delay event.before).1 :=
      congrArg Prod.fst hstep.symm
    have hafter : event.after = (event.call.run lib delay event.before).2 :=
      congrArg Prod.snd hstep.symm
    rw [houtcome, hafter]
    exact ⟨Call.run_refused hd, fun origin h => Call.run_other hd event.before h⟩

/-- A site. -/
def pacedSite : Url := { scheme := "http", host := some "a.test", path := "/" }

/-- Its URL and nothing else. -/
def pacedLib : UrlLib where
  parse := fun raw => if raw = pacedSite.toString then .ok pacedSite else .error .other
  join := fun _ _ => none

/-- A call that takes three units of time and counts itself. -/
def pacedCall (caller : Caller) (deadline : Nat) : Call Nat Nat where
  caller := caller
  deadline := deadline
  lapse := {}
  transmit := fun n => (n, n + 1, 3)

/-- A direct fetch, a continuation that waits for its turn, and one that cannot. -/
def pacedCalls : List (Call Nat Nat) :=
  [pacedCall (.direct pacedSite) 100, pacedCall (.continuation pacedSite.toString) 100,
    pacedCall (.continuation pacedSite.toString) 20]

/-- The third of these calls misses its slot; the other two are a delay apart. -/
theorem transmit_paces_shared :
    Spaced 10 (History.final (Call.run pacedLib 10) pacedCalls (.start 0 0)).log ∧
      (History.final (Call.run pacedLib 10) pacedCalls (.start 0 0)).outside = 2 ∧
      (History.final (Call.run pacedLib 10) pacedCalls (.start 0 0)).log.map Sent.start =
        [0, 13] :=
  ⟨(transmit_paces pacedLib 10 (by decide) pacedCalls 0 0).1, by decide,
    by decide⟩

end Basecrawl.Render
