/-
  Transmissions kept apart.

  A schedule remembers for each key when it was last used.  A transmission that starts no earlier
  than `delay` after the remembered moment, and is remembered when it is over, keeps the log spaced:
  two transmissions under one key are `delay` apart, from the end of the first to the start of the
  second.  `Kept` is the invariant; `Kept.send` begins a transmission and `Kept.lasts` extends it.
  Logs that were kept one after another, each on a schedule of its own, are apart only as far as
  they leave the delay between them themselves (`spaced_flatten`).
-/
import Mathlib.Logic.Function.Basic
import Mathlib.Data.List.Basic

namespace Basecrawl.Spacing

variable {κ : Type}

/-- A transmission under a key, from its start to its end. -/
structure Sent (κ : Type) where
  key : κ
  start : Nat
  finish : Nat
deriving DecidableEq

/-- Two transmissions under one key are `delay` apart, in the order of the log. -/
def Spaced (delay : Nat) (log : List (Sent κ)) : Prop :=
  log.Pairwise fun earlier later => earlier.key = later.key → earlier.finish + delay ≤ later.start

/-- The schedule has seen the log, and nothing that is still to come. -/
structure Kept (delay : Nat) (schedule : κ → Option Nat) (now : Nat) (log : List (Sent κ)) :
    Prop where
  spaced : Spaced delay log
  recorded : ∀ sent ∈ log, ∃ stamp, schedule sent.key = some stamp ∧ sent.finish ≤ stamp
  past : ∀ key stamp, schedule key = some stamp → stamp ≤ now

variable {delay now : Nat} {schedule : κ → Option Nat} {log : List (Sent κ)}

/-- Nothing was sent and nothing is scheduled. -/
theorem kept_nil (delay now : Nat) : Kept delay (fun _ : κ => none) now [] where
  spaced := List.Pairwise.nil
  recorded := fun _ hmem => absurd hmem List.not_mem_nil
  past := fun _ _ h => by cases h

/-- Time passes. -/
theorem Kept.later (h : Kept delay schedule now log) {now' : Nat} (hle : now ≤ now') :
    Kept delay schedule now' log where
  spaced := h.spaced
  recorded := h.recorded
  past := fun key stamp hstamp => Nat.le_trans (h.past key stamp hstamp) hle

section

variable [DecidableEq κ]

/-- A key is remembered for a later moment, and the others are still. -/
theorem Kept.recorded_update (h : Kept delay schedule now log) (key : κ) {stamp : Nat}
    (hstamp : now ≤ stamp) {sent : Sent κ} (hmem : sent ∈ log) :
    ∃ later, Function.update schedule key (some stamp) sent.key = some later ∧
      sent.finish ≤ later := by
  obtain ⟨previous, hprevious, hdone⟩ := h.recorded sent hmem
  by_cases hkey : sent.key = key
  · -- the schedule forgets the older moment for a later one
    have hpast := h.past _ _ hprevious
    rw [hkey, Function.update_self]
    exact ⟨stamp, rfl, by omega⟩
  · rw [Function.update_of_ne hkey]
    exact ⟨previous, hprevious, hdone⟩

theorem Kept.past_update (h : Kept delay schedule now log) (key : κ) {stamp now' : Nat}
    (hstamp : now ≤ stamp) (hnow : stamp ≤ now') :
    ∀ other moment, Function.update schedule key (some stamp) other = some moment →
      moment ≤ now' := by
  intro other moment hother
  by_cases hkey : other = key
  · rw [hkey, Function.update_self] at hother
    obtain rfl := Option.some.inj hother
    exact hnow
  · rw [Function.update_of_ne hkey] at hother
    have hpast := h.past other moment hother
    omega

/-- **One transmission** after what the schedule asks for, remembered when it is over. -/
theorem Kept.send (h : Kept delay schedule now log) {sent : Sent κ} {stamp now' : Nat}
    (hstart : ∀ previous, schedule sent.key = some previous → previous + delay ≤ sent.start)
    (hfinish : sent.finish ≤ stamp) (hstamp : now ≤ stamp) (hnow : stamp ≤ now') :
    Kept delay (Function.update schedule sent.key (some stamp)) now' (log ++ [sent]) where
  spaced := by
    refine List.pairwise_append.mpr ⟨h.spaced, List.pairwise_singleton _ _, ?_⟩
    intro earlier hearlier later hlater hkey
    obtain rfl := List.mem_singleton.mp hlater
    obtain ⟨previous, hprevious, hdone⟩ := h.recorded earlier hearlier
    rw [hkey] at hprevious
    have hwait := hstart previous hprevious
    omega
  recorded := by
    intro other hmem
    rcases List.mem_append.mp hmem with hold | hnew
    · exact h.recorded_update sent.key hstamp hold
    · obtain rfl := List.mem_singleton.mp hnew
      rw [Function.update_self]
      exact ⟨stamp, rfl, hfinish⟩
  past := h.past_update sent.key hstamp hnow

/-- **The last transmission lasts longer**, and is remembered for that. -/
theorem Kept.lasts {sent : Sent κ} (h : Kept delay schedule now (log ++ [sent]))
    {finish stamp now' : Nat} (hfinish : finish ≤ stamp) (hstamp : now ≤ stamp)
    (hnow : stamp ≤ now') :
    Kept delay (Function.update schedule sent.key (some stamp)) now'
      (log ++ [{ sent with finish := finish }]) where
  spaced := by
    obtain ⟨hspaced, -, hlast⟩ := List.pairwise_append.mp h.spaced
    refine List.pairwise_append.mpr ⟨hspaced, List.pairwise_singleton _ _, ?_⟩
    intro earlier hearlier later hlater
    obtain rfl := List.mem_singleton.mp hlater
    -- only the end of the last one has moved
    exact hlast earlier hearlier sent (List.mem_singleton_self sent)
  recorded := by
    intro other hmem
    rcases List.mem_append.mp hmem with hold | hnew
    · exact h.recorded_update sent.key hstamp (List.mem_append_left _ hold)
    · obtain rfl := List.mem_singleton.mp hnew
      show ∃ later, Function.update schedule sent.key (some stamp) sent.key = some later ∧ _
      rw [Function.update_self]
      exact ⟨stamp, rfl, hfinish⟩
  past := h.past_update sent.key hstamp hnow

end

/-! ## One log after another -/

/-- What is sent in two logs under one key is apart. -/
def Across (delay : Nat) (logs : List (List (Sent κ))) : Prop :=
  logs.Pairwise fun before after => ∀ earlier ∈ before, ∀ later ∈ after,
    earlier.key = later.key → earlier.finish + delay ≤ later.start

/-- No key is in two logs. -/
def Unshared (logs : List (List (Sent κ))) : Prop :=
  logs.Pairwise fun before after => ∀ earlier ∈ before, ∀ later ∈ after, earlier.key ≠ later.key

theorem Unshared.across {logs : List (List (Sent κ))} (h : Unshared logs) : Across delay logs :=
  h.imp fun hne earlier hearlier later hlater hkey =>
    absurd hkey (hne earlier hearlier later hlater)

/-- **Spaced logs** make a spaced log exactly when what they share is apart. -/
theorem spaced_flatten {logs : List (List (Sent κ))} (h : ∀ log ∈ logs, Spaced delay log) :
    Spaced delay logs.flatten ↔ Across delay logs := by
  rw [Spaced, List.pairwise_flatten]
  exact and_iff_right h

end Basecrawl.Spacing
