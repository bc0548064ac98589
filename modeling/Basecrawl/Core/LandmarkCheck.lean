/-
  The RTT cross-check, over exact rationals.

  1. **Program** — `crossCheckLoop` walks the landmarks that the enclave chose to report, in their
     order, and stops at the first one that the validator never measured or that answered too fast.
  2. **The loop** — a report is consistent exactly when it has a landmark and every landmark it has
     is `Within` the tolerance (`crossCheck_eq_consistent`).  So a verdict is about the landmarks
     one by one, and nothing ties it to the landmarks that are not there.
  3. **Two reports** — a slower report stays consistent; a rejected one becomes consistent by
     leaving landmarks out as soon as one of them is within the tolerance (`omission_iff`).
-/
import Mathlib.Algebra.Order.Ring.Rat
import Mathlib.Data.List.Forall2
import Mathlib.Tactic.Linarith

namespace Basecrawl.Core.RttEcho

/-! ## Program -/

/-- `RttConsistencyConfig`. -/
structure RttConsistencyConfig where
  absoluteToleranceMs : ℚ := 50
  relativeTolerance : ℚ := 1 / 2

/-- `BTreeMap<String, f64>`: round trips by landmark, in the order of the names. -/
structure LandmarkRtts where
  entries : List (String × ℚ)
  sorted : entries.Pairwise fun a b => a.1 < b.1

/-- `BTreeMap::get`. -/
def LandmarkRtts.get (rtts : LandmarkRtts) (landmark : String) : Option ℚ :=
  rtts.entries.lookup landmark

inductive CrossCheckVerdict where
  | consistent (checked : Nat)
  | rejectedFasterThanPhysics (landmark : String) (selfRttMs validatorRttMs : ℚ)
  | missingLandmark (landmark : String)
  | noData
deriving DecidableEq

/-- How far below the floor a round trip may be: jitter, measurement noise. -/
def RttConsistencyConfig.maxUnder (config : RttConsistencyConfig) (floor : ℚ) : ℚ :=
  max config.absoluteToleranceMs (floor * config.relativeTolerance)

/-- The loop of `cross_check_landmark_rtts`. -/
def crossCheckLoop (validator : LandmarkRtts) (config : RttConsistencyConfig) :
    List (String × ℚ) → Nat → CrossCheckVerdict
  | [], checked => if checked = 0 then .noData else .consistent checked
  | (landmark, selfRtt) :: rest, checked =>
    match validator.get landmark with
    | none => .missingLandmark landmark
    | some floor =>
      if selfRtt + config.maxUnder floor < floor then
        .rejectedFasterThanPhysics landmark selfRtt floor
      else crossCheckLoop validator config rest (checked + 1)

def crossCheckLandmarkRtts (selfReported validator : LandmarkRtts)
    (config : RttConsistencyConfig) : CrossCheckVerdict :=
  if selfReported.entries.isEmpty && validator.entries.isEmpty then .noData
  else crossCheckLoop validator config selfReported.entries 0

/-! ## Specification -/

/-- The validator measured the landmark, and it did not answer too fast. -/
def Within (validator : LandmarkRtts) (config : RttConsistencyConfig) (entry : String × ℚ) : Prop :=
  ∃ floor, validator.get entry.1 = some floor ∧ floor ≤ entry.2 + config.maxUnder floor

/-- What is left of a report when landmarks are left out. -/
def Omits (report kept : LandmarkRtts) : Prop := kept.entries.Sublist report.entries

/-- The same landmarks, none of them faster. -/
def Slower (report slower : LandmarkRtts) : Prop :=
  List.Forall₂ (fun a b => a.1 = b.1 ∧ a.2 ≤ b.2) report.entries slower.entries

def Consistent (validator : LandmarkRtts) (config : RttConsistencyConfig) (report : LandmarkRtts) :
    Prop := ∃ checked, crossCheckLandmarkRtts report validator config = .consistent checked

def Rejected (validator : LandmarkRtts) (config : RttConsistencyConfig) (report : LandmarkRtts) :
    Prop := ∃ landmark selfRtt validatorRtt, crossCheckLandmarkRtts report validator config =
      .rejectedFasterThanPhysics landmark selfRtt validatorRtt

/-- **A report cannot be improved by omission**, and a slower one is as good. -/
def OmissionProof : Prop :=
  ∀ (validator : LandmarkRtts) (config : RttConsistencyConfig), 0 ≤ config.absoluteToleranceMs →
    0 ≤ config.relativeTolerance →
    (∀ report, Rejected validator config report →
      ∀ kept, Omits report kept → ¬ Consistent validator config kept) ∧
    ∀ report slower, Slower report slower → Consistent validator config report →
      Consistent validator config slower

/-! ## The loop -/

variable {validator : LandmarkRtts} {config : RttConsistencyConfig}

theorem crossCheckLoop_eq_consistent {n : Nat} : ∀ {entries : List (String × ℚ)} {checked : Nat},
    crossCheckLoop validator config entries checked = .consistent n ↔
      (∀ entry ∈ entries, Within validator config entry) ∧ n = checked + entries.length ∧ 0 < n
  | [], checked => by
    rw [crossCheckLoop, List.length_nil]
    split
    · next hzero =>
      constructor
      · intro h
        cases h
      · rintro ⟨-, hn, hpos⟩
        omega
    · next hpos =>
      rw [CrossCheckVerdict.consistent.injEq]
      refine ⟨fun hn => ⟨fun _ hnil => (List.not_mem_nil hnil).elim, by omega, by omega⟩, ?_⟩
      rintro ⟨-, hn, -⟩
      omega
  | (landmark, selfRtt) :: rest, checked => by
    rw [crossCheckLoop, List.forall_mem_cons, List.length_cons]
    cases hget : validator.get landmark with
    | none =>
      -- the validator never measured it
      constructor
      · intro h
        cases h
      · rintro ⟨⟨⟨floor, hfloor, -⟩, -⟩, -⟩
        cases hget.symm.trans hfloor
    | some floor =>
      dsimp only
      have hhead : Within validator config (landmark, selfRtt) ↔
          ¬ selfRtt + config.maxUnder floor < floor := by
        constructor
        · rintro ⟨floor', hfloor, hle⟩
          obtain rfl := Option.some.inj (hget.symm.trans hfloor)
          exact not_lt.mpr hle
        · exact fun hle => ⟨floor, hget, not_lt.mp hle⟩
      rw [hhead]
      split
      · next hfast =>
        constructor
        · intro h
          cases h
        · rintro ⟨⟨hslow, -⟩, -⟩
          exact absurd hfast hslow
      · next hslow =>
        rw [crossCheckLoop_eq_consistent]
        have hcount : checked + 1 + rest.length = checked + (rest.length + 1) := by omega
        rw [hcount, and_iff_right hslow]

/-- **A consistent report** has a landmark, and each landmark it has is within the tolerance. -/
theorem consistent_iff {report : LandmarkRtts} :
    Consistent validator config report ↔
      report.entries ≠ [] ∧ ∀ entry ∈ report.entries, Within validator config entry := by
  unfold Consistent crossCheckLandmarkRtts
  cases hentries : report.entries with
  | nil =>
    constructor
    · rintro ⟨n, hn⟩
      split at hn
      · cases hn
      · cases hn
    · rintro ⟨hne, -⟩
      exact absurd rfl hne
  | cons entry rest =>
    have hloop : ∀ n, (if (entry :: rest).isEmpty && validator.entries.isEmpty then
        CrossCheckVerdict.noData else crossCheckLoop validator config (entry :: rest) 0) =
          .consistent n ↔ crossCheckLoop validator config (entry :: rest) 0 = .consistent n :=
      fun n => Iff.rfl
    simp only [hloop, crossCheckLoop_eq_consistent]
    constructor
    · rintro ⟨n, hall, -⟩
      exact ⟨List.cons_ne_nil _ _, hall⟩
    · rintro ⟨-, hall⟩
      have hpos : 0 < 0 + (entry :: rest).length := by
        rw [List.length_cons]
        omega
      exact ⟨_, hall, rfl, hpos⟩

/-! ## Two reports -/

/-- An attacker can only add delay. -/
theorem Within.slower {a b : String × ℚ} (h : Within validator config a) (hname : a.1 = b.1)
    (hle : a.2 ≤ b.2) : Within validator config b := by
  obtain ⟨floor, hget, hfloor⟩ := h
  exact ⟨floor, hname ▸ hget, by linarith⟩

/-- A landmark of the slower report is in the faster one. -/
theorem exists_faster : ∀ {as bs : List (String × ℚ)},
    List.Forall₂ (fun a b => a.1 = b.1 ∧ a.2 ≤ b.2) as bs →
    ∀ {b : String × ℚ}, b ∈ bs → ∃ a ∈ as, a.1 = b.1 ∧ a.2 ≤ b.2 := by
  intro as bs h
  induction h with
  | nil =>
    intro b hb
    cases hb
  | @cons a b' as bs hab hrest ih =>
    intro b hb
    rcases List.mem_cons.mp hb with rfl | hb
    · exact ⟨a, List.mem_cons_self, hab⟩
    · obtain ⟨a', ha', hle⟩ := ih hb
      exact ⟨a', List.mem_cons_of_mem _ ha', hle⟩

theorem Slower.consistent {report slower : LandmarkRtts} (h : Slower report slower)
    (hreport : Consistent validator config report) : Consistent validator config slower := by
  rw [consistent_iff] at hreport ⊢
  obtain ⟨hne, hall⟩ := hreport
  unfold Slower at h
  constructor
  · intro hnil
    rw [hnil, List.forall₂_nil_right_iff] at h
    exact hne h
  · intro b hb
    obtain ⟨a, ha, hname, hle⟩ := exists_faster h hb
    exact (hall a ha).slower hname hle

/-- A report of one landmark. -/
def only (entry : String × ℚ) : LandmarkRtts := ⟨[entry], List.pairwise_singleton _ _⟩

/-- **Dropping the incriminating landmarks** is of no use exactly when every landmark of the
    rejected report is one. -/
theorem omission_iff (validator : LandmarkRtts) (config : RttConsistencyConfig) :
    (∀ report, Rejected validator config report →
      ((∀ kept, Omits report kept → ¬ Consistent validator config kept) ↔
        ∀ entry ∈ report.entries, ¬ Within validator config entry)) ∧
    ∀ report slower, Slower report slower → Consistent validator config report →
      Consistent validator config slower := by
  refine ⟨fun report _ => ⟨?_, ?_⟩, fun report slower hslower hgood => hslower.consistent hgood⟩
  · -- a landmark within the tolerance is a consistent report on its own
    intro hnone entry hentry hwithin
    refine hnone (only entry) (List.singleton_sublist.mpr hentry) (consistent_iff.mpr ?_)
    exact ⟨List.cons_ne_nil _ _, fun other hother => List.mem_singleton.mp hother ▸ hwithin⟩
  · intro hnone kept hkept hgood
    obtain ⟨hne, hall⟩ := consistent_iff.mp hgood
    obtain ⟨entry, hentry⟩ := List.exists_mem_of_ne_nil _ hne
    exact hnone entry (hkept.subset hentry) (hall entry hentry)

/-- What the validator measured: 100 ms to both landmarks. -/
def twoLandmarks : LandmarkRtts := ⟨[("ams", 100), ("fra", 100)], by decide⟩

/-- Too fast for Frankfurt. -/
def fastReport : LandmarkRtts := ⟨[("ams", 90), ("fra", 10)], by decide⟩

theorem rejected_fastReport : Rejected twoLandmarks {} fastReport :=
  ⟨"fra", 10, 100, by decide +kernel⟩

/-- Without Amsterdam in the report, nothing of it would pass. -/
theorem omission_fastReport :
    (∀ kept, Omits fastReport kept → ¬ Consistent twoLandmarks {} kept) ↔
      ∀ entry ∈ fastReport.entries, ¬ Within twoLandmarks {} entry :=
  (omission_iff twoLandmarks {}).1 fastReport rejected_fastReport

/-- Without Frankfurt it passes. -/
theorem not_omissionProof : ¬ OmissionProof := by
  intro h
  refine (h twoLandmarks {} (by decide +kernel) (by decide +kernel)).1 fastReport
    rejected_fastReport
    (only ("ams", 90)) (List.singleton_sublist.mpr List.mem_cons_self) ?_
  exact ⟨1, by decide +kernel⟩

end Basecrawl.Core.RttEcho
