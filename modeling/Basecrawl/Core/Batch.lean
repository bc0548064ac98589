/-
  The multi-URL batch.

  1. **Program** — workers share a cursor into the URLs and a slot for each of them, each under a
     lock of its own; a worker takes a job, scrapes it outside both locks, stores its item.  A
     scrape that panics takes its worker with it.
  2. **The crux (`Inv`)** — every job below the cursor is scraped once, unless a worker still holds
     it; what was scraped is stored or about to be stored; and the workers that are lost, or about
     to be, are as many as the panicking jobs below the cursor.
  3. **Ends** — when no worker is left, the slot of a job is filled exactly when its own scrape did
     not panic and fewer jobs panic before it than there are workers (`items_of_finished`).
-/
import Basecrawl.Core.ErrorReport
import Basecrawl.Core.Proof
import Basecrawl.Lib.Outcome
import Basecrawl.Lib.Threads
import Mathlib.Algebra.GroupWithZero.Nat
import Mathlib.Data.List.Range
import Mathlib.Tactic.SplitIfs

namespace Basecrawl.Core.Batch

open Outcome Threads

/-- The bounds of a batch; the scrape options are those of `ScrapeCall`. -/
structure BatchOptions where
  concurrency : Nat

/-- What became of one `scrape` call. -/
inductive ScrapeCall where
  | ok (proof : ScrapeProof)
  | err (e : Error)
  | panic

def ScrapeCall.panics : ScrapeCall → Bool
  | .panic => true
  | _ => false

/-- One batch item. -/
structure BatchItem where
  index : Nat
  url : String
  ok : Bool
  proof : Option ScrapeProof
  error : Option Json.Tree
  resultHash : Option String

/-- Full batch result list. -/
structure BatchResult where
  mode : String
  items : List BatchItem
  concurrency : Nat

def validateBatch (urls : List String) (concurrency : Nat) : Except Error Unit := do
  require (!urls.isEmpty) (.invalidProductOption "batch requires at least one URL")
  require (concurrency != 0) (.invalidProductOption "batch --concurrency must be >= 1")
  require (concurrency ≤ 64)
    (.invalidProductOption "batch --concurrency exceeds hard safety cap (64)")
  require (urls.length ≤ 1000)
    (.invalidProductOption "batch URL count exceeds hard safety cap (1000)")

/-- The item of a job whose scrape came back. -/
def itemOf (members : ErrorMembers) (idx : Nat) (url : String) : ScrapeCall → Option BatchItem
  | .ok proof => some
      { index := idx, url := url, ok := true, proof := some proof, error := none,
        resultHash := proof.result.resultHash }
  | .err err => some
      { index := idx, url := url, ok := false, proof := none, error := some (err.toJson members),
        resultHash := none }
  | .panic => none

/-- The item of a job without a result. -/
def workerFailed (idx : Nat) (url : String) : BatchItem where
  index := idx
  url := url
  ok := false
  proof := none
  error := some (.object [("error", .object [("kind", .string "batch_worker_failed"),
    ("message", .string "batch worker did not produce a per-item result")])])
  resultHash := none

/-- `VecDequeWork` and the results, with the jobs whose scrape has been called. -/
structure Shared where
  next : Nat
  urls : List String
  results : List (Option BatchItem)
  scraped : List Nat

/-- Where a worker stands in its loop. -/
inductive Worker where
  | atHead
  | holding (idx : Nat) (url : String)
  | storing (idx : Nat) (item : BatchItem)
  | exited
  | panicked

/-- One atomic step of a worker: take a job, scrape it, store its item. -/
def workerStep (members : ErrorMembers) (scrape : Nat → ScrapeCall) (s : Shared) :
    Worker → Option (Shared × Worker)
  | .atHead =>
      if h : s.next < s.urls.length then
        some ({ s with next := s.next + 1 }, .holding s.next s.urls[s.next])
      else some (s, .exited)
  | .holding idx url =>
      let s := { s with scraped := s.scraped ++ [idx] }
      match itemOf members idx url (scrape idx) with
      | some item => some (s, .storing idx item)
      | none => some (s, .panicked)
  | .storing idx item => some ({ s with results := s.results.set idx (some item) }, .atHead)
  | .exited => none
  | .panicked => none

/-- How many workers are spawned. -/
def workerCount (urls : List String) (concurrency : Nat) : Nat :=
  max (min concurrency urls.length) 1

/-- The workers as they are spawned. -/
def spawned (urls : List String) (concurrency : Nat) : Pool Shared Worker where
  shared := ⟨0, urls, List.replicate urls.length none, []⟩
  threads := List.replicate (workerCount urls concurrency) .atHead

/-- The items, in input order. -/
def collect (s : Shared) : List BatchItem :=
  s.results.zipIdx.map fun (slot, idx) => slot.getD (workerFailed idx (s.urls.getD idx ""))

/-- Every worker has been joined. -/
def Worker.joined : Worker → Bool
  | .exited => true
  | .panicked => true
  | _ => false

/-- `batch`, under a schedule of its workers: it returns once they are joined. -/
def batch (members : ErrorMembers) (scrape : Nat → ScrapeCall) (urls : List String)
    (options : BatchOptions) (schedule : List Nat) : Except Error (Option BatchResult) := do
  validateBatch urls options.concurrency
  let pool := run (workerStep members scrape) schedule (spawned urls options.concurrency)
  .ok (if pool.threads.all Worker.joined then
    some { mode := "batch", items := collect pool.shared,
           concurrency := workerCount urls options.concurrency }
  else none)

/-- The batch as a map over its jobs, one after the other. -/
def sequentialItems (members : ErrorMembers) (scrape : Nat → ScrapeCall) (urls : List String) :
    List BatchItem :=
  urls.zipIdx.map fun (url, idx) =>
    (itemOf members idx url (scrape idx)).getD (workerFailed idx url)

/-! ## The end of a run -/

variable {members : ErrorMembers} {scrape : Nat → ScrapeCall} {urls : List String}

theorem kind_ne_batch_worker_failed (e : Error) : e.kind ≠ "batch_worker_failed" := by
  cases e with
  | proxyConnect status kind detail =>
    show (if _ then _ else _) ≠ _
    split <;> decide
  | solver kind detail statusCode =>
    intro h
    by_cases hkind : kind ∈ ["solver_auth_error", "solver_timeout", "solver_unsupported",
        "solver_transport_error", "solver_apply_pending", "solver_apply_failed"]
    · simp only [Error.kind, if_pos hkind] at h
      rw [h] at hkind
      exact absurd hkind (by decide)
    · simp only [Error.kind, if_neg hkind] at h
      exact absurd h (by decide)
  | _ => simp [Error.kind]

/-- The item of a scrape that came back is never the one of a lost job. -/
theorem itemOf_ne_workerFailed {idx : Nat} {url : String} {call : ScrapeCall} {item : BatchItem}
    (h : itemOf members idx url call = some item) : item ≠ workerFailed idx url := by
  rintro rfl
  cases call with
  | ok proof => simp [itemOf, workerFailed] at h
  | err e =>
    simp only [itemOf, workerFailed, Option.some.injEq, BatchItem.mk.injEq, true_and,
      and_true] at h
    exact kind_ne_batch_worker_failed e (Error.kind_of_toJson h)
  | panic => cases h

theorem index_of_item {idx : Nat} {url : String} {call : ScrapeCall} {item : BatchItem}
    (h : itemOf members idx url call = some item) : item.index = idx ∧ item.url = url := by
  cases call with
  | panic => cases h
  | _ =>
    cases h
    exact ⟨rfl, rfl⟩

theorem itemOf_eq_none {idx : Nat} {url : String} {call : ScrapeCall} :
    itemOf members idx url call = none ↔ call.panics = true := by
  cases call <;> simp [itemOf, ScrapeCall.panics]

/-- Everything a worker can do in one step. -/
theorem workerStep_cases {s s' : Shared} {t t' : Worker}
    (h : workerStep members scrape s t = some (s', t')) :
    (∃ hlt : s.next < s.urls.length, t = .atHead ∧ s' = { s with next := s.next + 1 } ∧
      t' = .holding s.next s.urls[s.next]) ∨
    (t = .atHead ∧ s.urls.length ≤ s.next ∧ s' = s ∧ t' = .exited) ∨
    (∃ idx url item, t = .holding idx url ∧ itemOf members idx url (scrape idx) = some item ∧
      s' = { s with scraped := s.scraped ++ [idx] } ∧ t' = .storing idx item) ∨
    (∃ idx url, t = .holding idx url ∧ (scrape idx).panics = true ∧
      s' = { s with scraped := s.scraped ++ [idx] } ∧ t' = .panicked) ∨
    (∃ idx item, t = .storing idx item ∧
      s' = { s with results := s.results.set idx (some item) } ∧ t' = .atHead) := by
  cases t with
  | atHead =>
    by_cases hlt : s.next < s.urls.length
    · simp only [workerStep, dif_pos hlt, Option.some.injEq, Prod.mk.injEq] at h
      exact Or.inl ⟨hlt, rfl, h.1.symm, h.2.symm⟩
    · simp only [workerStep, dif_neg hlt, Option.some.injEq, Prod.mk.injEq] at h
      exact Or.inr (Or.inl ⟨rfl, by omega, h.1.symm, h.2.symm⟩)
  | holding idx url =>
    cases hitem : itemOf members idx url (scrape idx) with
    | some item =>
      simp only [workerStep, hitem, Option.some.injEq, Prod.mk.injEq] at h
      exact Or.inr (Or.inr (Or.inl ⟨idx, url, item, rfl, hitem, h.1.symm, h.2.symm⟩))
    | none =>
      simp only [workerStep, hitem, Option.some.injEq, Prod.mk.injEq] at h
      exact Or.inr (Or.inr (Or.inr (Or.inl
        ⟨idx, url, rfl, itemOf_eq_none.mp hitem, h.1.symm, h.2.symm⟩)))
  | storing idx item =>
    simp only [workerStep, Option.some.injEq, Prod.mk.injEq] at h
    exact Or.inr (Or.inr (Or.inr (Or.inr ⟨idx, item, rfl, h.1.symm, h.2.symm⟩)))
  | exited => cases h
  | panicked => cases h

/-- A worker that cannot move has been joined. -/
theorem workerStep_eq_none {s : Shared} {t : Worker} :
    workerStep members scrape s t = none ↔ t.joined = true := by
  cases t with
  | atHead =>
    by_cases hlt : s.next < s.urls.length
    · simp [workerStep, hlt, Worker.joined]
    · simp [workerStep, hlt, Worker.joined]
  | holding idx url =>
    cases hitem : itemOf members idx url (scrape idx) <;> simp [workerStep, hitem, Worker.joined]
  | storing => simp [workerStep, Worker.joined]
  | exited => simp [workerStep, Worker.joined]
  | panicked => simp [workerStep, Worker.joined]

theorem finished_iff {pool : Pool Shared Worker} :
    Finished (workerStep members scrape) pool ↔ pool.threads.all Worker.joined = true := by
  rw [List.all_eq_true]
  exact forall₂_congr fun t _ => workerStep_eq_none

/-- How far a worker is from leaving its loop, jobs aside. -/
def Worker.weight : Worker → Nat
  | .atHead => 1
  | .holding _ _ => 3
  | .storing _ _ => 2
  | .exited => 0
  | .panicked => 0

/-- Three steps for each job that is left, and those the workers are in. -/
def remaining (pool : Pool Shared Worker) : Nat :=
  3 * (pool.shared.urls.length - pool.shared.next) + (pool.threads.map Worker.weight).sum

theorem remaining_lt (members : ErrorMembers) (scrape : Nat → ScrapeCall) (s : Shared)
    (before : List Worker) (t : Worker) (after : List Worker)
    (s' : Shared) (t' : Worker) (h : workerStep members scrape s t = some (s', t')) :
    remaining ⟨s', before ++ t' :: after⟩ < remaining ⟨s, before ++ t :: after⟩ := by
  have hworker : 3 * (s'.urls.length - s'.next) + t'.weight <
      3 * (s.urls.length - s.next) + t.weight := by
    rcases workerStep_cases h with ⟨hlt, rfl, rfl, rfl⟩ | ⟨rfl, hle, rfl, rfl⟩ |
      ⟨idx, url, item, rfl, hitem, rfl, rfl⟩ | ⟨idx, url, rfl, hpanics, rfl, rfl⟩ |
      ⟨idx, item, rfl, rfl, rfl⟩
    · show 3 * (s.urls.length - (s.next + 1)) + 3 < 3 * (s.urls.length - s.next) + 1
      omega
    · show 3 * (s'.urls.length - s'.next) + 0 < 3 * (s'.urls.length - s'.next) + 1
      omega
    · show 3 * (s.urls.length - s.next) + 2 < 3 * (s.urls.length - s.next) + 3
      omega
    · show 3 * (s.urls.length - s.next) + 0 < 3 * (s.urls.length - s.next) + 3
      omega
    · show 3 * (s.urls.length - s.next) + 1 < 3 * (s.urls.length - s.next) + 2
      omega
  simp only [remaining, List.map_append, List.map_cons, List.sum_append, List.sum_cons]
  omega

/-- Whatever the schedule, a batch takes at most three steps a job and one a worker. -/
theorem moves_spawned_le (members : ErrorMembers) (scrape : Nat → ScrapeCall) (urls : List String)
    (concurrency : Nat) (schedule : List Nat) :
    moves (workerStep members scrape) schedule (spawned urls concurrency) ≤
      3 * urls.length + workerCount urls concurrency := by
  have hbound := moves_add_measure_le (remaining_lt members scrape) schedule
    (spawned urls concurrency)
  have hstart : remaining (spawned urls concurrency) =
      3 * urls.length + workerCount urls concurrency := by
    rw [remaining, spawned, List.map_replicate, List.sum_replicate_nat]
    show 3 * (urls.length - 0) + workerCount urls concurrency * 1 = _
    omega
  omega

/-! ## The invariant -/

/-- A worker has taken job `j` and not scraped it yet. -/
def Worker.holds (j : Nat) : Worker → Bool
  | .holding idx _ => decide (idx = j)
  | _ => false

/-- A worker is about to store the item of job `j`. -/
def Worker.stores (j : Nat) : Worker → Bool
  | .storing idx _ => decide (idx = j)
  | _ => false

/-- A worker has panicked, or will with the job it has taken. -/
def Worker.lost (scrape : Nat → ScrapeCall) : Worker → Bool
  | .holding idx _ => (scrape idx).panics
  | .panicked => true
  | _ => false

/-- What a worker carries belongs to the job it has taken. -/
def Worker.Carries (members : ErrorMembers) (scrape : Nat → ScrapeCall) (urls : List String) :
    Worker → Prop
  | .holding idx url => urls[idx]? = some url
  | .storing idx item =>
      ∃ url, urls[idx]? = some url ∧ itemOf members idx url (scrape idx) = some item
  | _ => True

def filled (results : List (Option BatchItem)) (j : Nat) : Nat :=
  if (results[j]?.join).isSome then 1 else 0

/-- How many jobs below `j` panic. -/
def panicsBelow (scrape : Nat → ScrapeCall) (j : Nat) : Nat :=
  (List.range j).countP fun p => (scrape p).panics

theorem panicsBelow_succ (j : Nat) :
    panicsBelow scrape (j + 1) = panicsBelow scrape j + (scrape j).panics.toNat := by
  simp only [panicsBelow, List.range_succ, List.countP_append, List.countP_singleton, ite_eq_toNat]

theorem panicsBelow_mono (scrape : Nat → ScrapeCall) {i j : Nat} (h : i ≤ j) :
    panicsBelow scrape i ≤ panicsBelow scrape j := by
  induction h with
  | refl => exact Nat.le_refl _
  | step _ ih =>
    rw [panicsBelow_succ]
    omega

/-- What holds of the workers and their tables, between any two steps. -/
structure Inv (members : ErrorMembers) (scrape : Nat → ScrapeCall) (urls : List String)
    (workers : Nat) (pool : Pool Shared Worker) : Prop where
  urls_eq : pool.shared.urls = urls
  workers_eq : pool.threads.length = workers
  next_le : pool.shared.next ≤ urls.length
  slots : pool.shared.results.length = urls.length
  scraped_once : ∀ j, pool.shared.scraped.count j + pool.threads.countP (Worker.holds j) =
    (decide (j < pool.shared.next)).toNat
  stored : ∀ j, filled pool.shared.results j + pool.threads.countP (Worker.stores j) =
    bif (scrape j).panics then 0 else pool.shared.scraped.count j
  item_right : ∀ j item, pool.shared.results[j]? = some (some item) →
    ∃ url, urls[j]? = some url ∧ itemOf members j url (scrape j) = some item
  carries : ∀ t ∈ pool.threads, t.Carries members scrape urls
  lost_eq : pool.threads.countP (Worker.lost scrape) = panicsBelow scrape pool.shared.next
  exited_end : Worker.exited ∈ pool.threads → pool.shared.next = urls.length
  reached : ∀ j < pool.shared.next, panicsBelow scrape j < workers

/-! ## Steps keep the invariant -/

theorem filled_replicate (n j : Nat) : filled (List.replicate n none) j = 0 := by
  unfold filled
  rw [List.getElem?_replicate]
  split <;> rfl

/-- The invariant before any worker has moved. -/
theorem inv_spawned (workers : Nat) :
    Inv members scrape urls workers
      ⟨⟨0, urls, List.replicate urls.length none, []⟩, List.replicate workers .atHead⟩ where
  urls_eq := rfl
  workers_eq := List.length_replicate
  next_le := Nat.zero_le _
  slots := List.length_replicate
  scraped_once := by simp [Worker.holds]
  stored := by simp [filled_replicate, Worker.stores]
  item_right := by
    intro j item h
    rw [List.getElem?_replicate] at h
    split at h <;> cases h
  carries := by
    intro t ht
    rw [List.eq_of_mem_replicate ht]
    trivial
  lost_eq := by simp [Worker.lost, panicsBelow]
  exited_end := by
    intro h
    cases List.eq_of_mem_replicate h
  reached := by
    intro j hj
    exact absurd hj (Nat.not_lt_zero j)

variable {workers : Nat} {s : Shared} {before after : List Worker}

/-- A count after one more entry. -/
theorem count_concat (scraped : List Nat) (idx j : Nat) :
    (scraped ++ [idx]).count j = scraped.count j + (decide (idx = j)).toNat := by
  by_cases h : idx = j
  · simp [h]
  · simp [h]

theorem panics_of_item {idx : Nat} {url : String} {item : BatchItem}
    (h : itemOf members idx url (scrape idx) = some item) : (scrape idx).panics = false := by
  rw [Bool.eq_false_iff]
  intro hpanics
  rw [itemOf_eq_none.mpr hpanics] at h
  cases h

/-- Taking a job: the worker that takes it is not lost, so fewer jobs below it panic than there are
    workers. -/
theorem inv_take (hlt : s.next < s.urls.length)
    (h : Inv members scrape urls workers ⟨s, before ++ .atHead :: after⟩) :
    Inv members scrape urls workers
      ⟨{ s with next := s.next + 1 }, before ++ .holding s.next s.urls[s.next] :: after⟩ where
  urls_eq := h.urls_eq
  workers_eq := (length_replace before .atHead _ after).trans h.workers_eq
  next_le := by
    rw [← h.urls_eq]
    exact hlt
  slots := h.slots
  scraped_once := by
    intro j
    have hold := h.scraped_once j
    have hcount := countP_replace (Worker.holds j) before .atHead
      (.holding s.next s.urls[s.next]) after
    simp only [Worker.holds, Bool.toNat_false] at hold hcount ⊢
    by_cases hj : s.next = j
    · subst hj
      simp only [Nat.lt_irrefl, Nat.lt_succ_self, decide_true, decide_false, Bool.toNat_true,
        Bool.toNat_false] at hold hcount ⊢
      omega
    · simp only [decide_eq_false hj, Bool.toNat_false] at hcount
      rw [decide_eq_decide.mpr (show j < s.next + 1 ↔ j < s.next by omega)]
      omega
  stored := by
    intro j
    show _ + (before ++ .holding s.next s.urls[s.next] :: after).countP (Worker.stores j) = _
    rw [countP_replace_of_eq (Worker.stores j) before .atHead (.holding _ _) after rfl]
    exact h.stored j
  item_right := h.item_right
  carries := by
    refine forall_replace h.carries ?_
    show urls[s.next]? = some s.urls[s.next]
    rw [← h.urls_eq]
    exact List.getElem?_eq_getElem hlt
  lost_eq := by
    have hold := h.lost_eq
    have hcount := countP_replace (Worker.lost scrape) before .atHead
      (.holding s.next s.urls[s.next]) after
    simp only [Worker.lost, Bool.toNat_false] at hold hcount ⊢
    rw [panicsBelow_succ]
    omega
  exited_end := by
    intro hexited
    rcases mem_replace hexited with hbad | ⟨-, hold⟩
    · cases hbad
    · have hend : s.next = urls.length := h.exited_end hold
      rw [← h.urls_eq] at hend
      exact absurd hend (Nat.ne_of_lt hlt)
  reached := by
    intro j hj
    rcases Nat.lt_or_eq_of_le (Nat.le_of_lt_succ hj) with hold | rfl
    · exact h.reached j hold
    · have hlost := h.lost_eq
      -- the worker at the head is not among those lost, so that these are fewer than the workers
      have hall := h.workers_eq
      have hcount := countP_replace (Worker.lost scrape) before .panicked .atHead after
      have hle :=
        List.countP_le_length (p := Worker.lost scrape) (l := before ++ .panicked :: after)
      rw [length_replace before .atHead] at hle
      simp only [Worker.lost, Bool.toNat_false, Bool.toNat_true] at hlost hall hcount ⊢
      omega

/-- Finding no job left. -/
theorem inv_exit (hle : s.urls.length ≤ s.next)
    (h : Inv members scrape urls workers ⟨s, before ++ .atHead :: after⟩) :
    Inv members scrape urls workers ⟨s, before ++ .exited :: after⟩ where
  urls_eq := h.urls_eq
  workers_eq := (length_replace before .atHead _ after).trans h.workers_eq
  next_le := h.next_le
  slots := h.slots
  scraped_once := by
    intro j
    show _ + (before ++ .exited :: after).countP (Worker.holds j) = _
    rw [countP_replace_of_eq (Worker.holds j) before .atHead .exited after rfl]
    exact h.scraped_once j
  stored := by
    intro j
    show _ + (before ++ .exited :: after).countP (Worker.stores j) = _
    rw [countP_replace_of_eq (Worker.stores j) before .atHead .exited after rfl]
    exact h.stored j
  item_right := h.item_right
  carries := forall_replace h.carries trivial
  lost_eq := by
    rw [← h.lost_eq]
    exact countP_replace_of_eq (Worker.lost scrape) before .atHead .exited after rfl
  exited_end := by
    intro _
    rw [h.urls_eq] at hle
    exact Nat.le_antisymm h.next_le hle
  reached := h.reached

/-- A scrape is over: its worker is on its way to the slot if it came back, and was lost already if
    it panicked. -/
theorem inv_scraped {idx : Nat} {url : String} {t : Worker} (hholds : ∀ j, t.holds j = false)
    (hstores : ∀ j, t.stores j = (decide (idx = j) && !(scrape idx).panics))
    (hlost : t.lost scrape = (scrape idx).panics) (hcarries : t.Carries members scrape urls)
    (hexited : t ≠ .exited)
    (h : Inv members scrape urls workers ⟨s, before ++ .holding idx url :: after⟩) :
    Inv members scrape urls workers
      ⟨{ s with scraped := s.scraped ++ [idx] }, before ++ t :: after⟩ where
  urls_eq := h.urls_eq
  workers_eq := (length_replace before (.holding idx url) _ after).trans h.workers_eq
  next_le := h.next_le
  slots := h.slots
  scraped_once := by
    intro j
    have hold := h.scraped_once j
    have hcount := countP_replace (Worker.holds j) before (.holding idx url) t after
    rw [hholds] at hcount
    simp only [Worker.holds, Bool.toNat_false, count_concat] at hold hcount ⊢
    omega
  stored := by
    intro j
    have hold := h.stored j
    have hcount := countP_replace (Worker.stores j) before (.holding idx url) t after
    rw [hstores] at hcount
    simp only [Worker.stores, Bool.toNat_false, count_concat] at hold hcount ⊢
    by_cases hj : idx = j
    · subst hj
      cases hpanics : (scrape idx).panics with
      | false =>
        simp only [hpanics, cond_false, decide_true, Bool.not_false, Bool.and_self,
          Bool.toNat_true] at hold hcount ⊢
        omega
      | true =>
        simp only [hpanics, cond_true, Bool.not_true, Bool.and_false,
          Bool.toNat_false] at hold hcount ⊢
        omega
    · simp only [decide_eq_false hj, Bool.false_and, Bool.toNat_false, Nat.add_zero] at hcount ⊢
      omega
  item_right := h.item_right
  carries := forall_replace h.carries hcarries
  lost_eq := (countP_replace_of_eq _ before _ _ after hlost).trans h.lost_eq
  exited_end := fun hold => h.exited_end (mem_of_mem_replace hexited.symm hold)
  reached := h.reached

/-- A scrape that comes back. -/
theorem inv_scrape {idx : Nat} {url : String} {item : BatchItem}
    (hitem : itemOf members idx url (scrape idx) = some item)
    (h : Inv members scrape urls workers ⟨s, before ++ .holding idx url :: after⟩) :
    Inv members scrape urls workers
      ⟨{ s with scraped := s.scraped ++ [idx] }, before ++ .storing idx item :: after⟩ := by
  have hback := panics_of_item hitem
  refine inv_scraped (fun _ => rfl) (fun j => ?_) hback.symm ?_ (fun hbad => by cases hbad) h
  · rw [hback]
    exact (Bool.and_true _).symm
  · exact ⟨url, h.carries _ List.mem_append_cons_self, hitem⟩

/-- A scrape that panics. -/
theorem inv_panic {idx : Nat} {url : String} (hpanics : (scrape idx).panics = true)
    (h : Inv members scrape urls workers ⟨s, before ++ .holding idx url :: after⟩) :
    Inv members scrape urls workers
      ⟨{ s with scraped := s.scraped ++ [idx] }, before ++ .panicked :: after⟩ := by
  refine inv_scraped (fun _ => rfl) (fun j => ?_) hpanics.symm trivial (fun hbad => by cases hbad) h
  rw [hpanics]
  exact (Bool.and_false _).symm

/-- Storing an item: its slot was free. -/
theorem inv_store {idx : Nat} {item : BatchItem}
    (h : Inv members scrape urls workers ⟨s, before ++ .storing idx item :: after⟩) :
    Inv members scrape urls workers
      ⟨{ s with results := s.results.set idx (some item) }, before ++ .atHead :: after⟩ where
  urls_eq := h.urls_eq
  workers_eq := (length_replace before (.storing idx item) _ after).trans h.workers_eq
  next_le := h.next_le
  slots := by
    show (s.results.set idx (some item)).length = urls.length
    rw [List.length_set]
    exact h.slots
  scraped_once := by
    intro j
    show _ + (before ++ .atHead :: after).countP (Worker.holds j) = _
    rw [countP_replace_of_eq (Worker.holds j) before (.storing idx item) .atHead after rfl]
    exact h.scraped_once j
  stored := by
    intro j
    have hold := h.stored j
    have hcount := countP_replace (Worker.stores j) before (.storing idx item) .atHead after
    have hone := h.scraped_once j
    obtain ⟨url, hurl, -⟩ := h.carries _ List.mem_append_cons_self
    have hidx : idx < s.results.length := by
      rw [show s.results.length = urls.length from h.slots]
      exact (List.getElem?_eq_some_iff.mp hurl).1
    simp only [Worker.stores, Bool.toNat_false] at hold hcount ⊢
    by_cases hj : idx = j
    · subst hj
      -- the slot of `idx` is filled now, and nothing else held its item: `idx` was scraped once
      have hfilled : filled (s.results.set idx (some item)) idx = 1 := by
        simp [filled, hidx]
      have hle : List.count idx s.scraped ≤ 1 := by
        have := Bool.toNat_le (decide (idx < s.next))
        dsimp only at hone
        omega
      have hfree : (bif (scrape idx).panics then 0 else List.count idx s.scraped) ≤ 1 := by
        cases (scrape idx).panics
        · exact hle
        · exact Nat.zero_le 1
      simp only [decide_true, Bool.toNat_true] at hcount
      omega
    -- another slot: neither the table nor what the workers hold for it changes
    · have hfilled : filled (s.results.set idx (some item)) j = filled s.results j := by
        unfold filled
        rw [List.getElem?_set_ne hj]
      simp only [decide_eq_false hj, Bool.toNat_false] at hcount
      omega
  item_right := by
    intro j stored hstored
    by_cases hj : idx = j
    · subst hj
      obtain ⟨url, hurl, hitem⟩ := h.carries _ List.mem_append_cons_self
      have hlt : idx < (s.results.set idx (some item)).length :=
        (List.getElem?_eq_some_iff.mp hstored).1
      rw [List.length_set] at hlt
      rw [List.getElem?_set_self hlt] at hstored
      cases hstored
      exact ⟨url, hurl, hitem⟩
    · rw [List.getElem?_set_ne hj] at hstored
      exact h.item_right j stored hstored
  carries := forall_replace h.carries trivial
  lost_eq := by
    rw [← h.lost_eq]
    exact countP_replace_of_eq (Worker.lost scrape) before (.storing idx item) .atHead after rfl
  exited_end := by
    intro hexited
    exact h.exited_end (mem_of_mem_replace (by simp) hexited)
  reached := h.reached

/-- **Every run keeps the invariant.** -/
theorem inv_run {pool : Pool Shared Worker} (h : Inv members scrape urls workers pool)
    (schedule : List Nat) :
    Inv members scrape urls workers (run (workerStep members scrape) schedule pool) := by
  refine run_induction ?_ h schedule
  intro s before t after s' t' hstep hinv
  rcases workerStep_cases hstep with ⟨hlt, rfl, rfl, rfl⟩ | ⟨rfl, hle, rfl, rfl⟩ |
    ⟨idx, url, item, rfl, hitem, rfl, rfl⟩ | ⟨idx, url, rfl, hpanics, rfl, rfl⟩ |
    ⟨idx, item, rfl, rfl, rfl⟩
  · exact inv_take hlt hinv
  · exact inv_exit hle hinv
  · exact inv_scrape hitem hinv
  · exact inv_panic hpanics hinv
  · exact inv_store hinv

/-! ## The end of a batch -/

variable {pool : Pool Shared Worker}

theorem countP_of_joined {p : Worker → Bool} (hp : ∀ t, t.joined = true → p t = false)
    (hend : pool.threads.all Worker.joined = true) : pool.threads.countP p = 0 := by
  rw [List.countP_eq_zero]
  intro t ht
  rw [hp t (List.all_eq_true.mp hend t ht)]
  exact Bool.false_ne_true

theorem holds_of_joined (j : Nat) (t : Worker) (h : t.joined = true) : t.holds j = false := by
  cases t <;> first | rfl | cases h

theorem stores_of_joined (j : Nat) (t : Worker) (h : t.joined = true) : t.stores j = false := by
  cases t <;> first | rfl | cases h

/-- A worker that has left its loop has seen the last job taken; if none has, all have panicked. -/
theorem next_of_joined (h : Inv members scrape urls workers pool)
    (hend : pool.threads.all Worker.joined = true) :
    pool.shared.next = urls.length ∨ panicsBelow scrape pool.shared.next = workers := by
  by_cases hexited : Worker.exited ∈ pool.threads
  · exact Or.inl (h.exited_end hexited)
  · right
    rw [← h.lost_eq, ← h.workers_eq, List.countP_eq_length]
    intro t ht
    have hjoined := List.all_eq_true.mp hend t ht
    cases t with
    | exited => exact absurd ht hexited
    | panicked => rfl
    | _ => cases hjoined

theorem lt_next_iff (h : Inv members scrape urls workers pool)
    (hend : pool.threads.all Worker.joined = true) {j : Nat} (hj : j < urls.length) :
    j < pool.shared.next ↔ panicsBelow scrape j < workers := by
  constructor
  · exact h.reached j
  · intro hbelow
    rcases next_of_joined h hend with hnext | hnext
    · omega
    · by_contra hge
      have := panicsBelow_mono scrape (Nat.le_of_not_lt hge)
      omega

/-- What the slot of a job ends up with. -/
def outcome (members : ErrorMembers) (scrape : Nat → ScrapeCall) (workers idx : Nat)
    (url : String) : Option BatchItem :=
  if panicsBelow scrape idx < workers then itemOf members idx url (scrape idx) else none

/-- **The slots of a batch whose workers have been joined**, whatever the schedule was. -/
theorem slot_of_joined (h : Inv members scrape urls workers pool)
    (hend : pool.threads.all Worker.joined = true) {j : Nat} {url : String}
    (hurl : urls[j]? = some url) :
    pool.shared.results[j]? = some (outcome members scrape workers j url) := by
  obtain ⟨hj, -⟩ := List.getElem?_eq_some_iff.mp hurl
  have hscraped := h.scraped_once j
  have hstored := h.stored j
  rw [countP_of_joined (holds_of_joined j) hend] at hscraped
  rw [countP_of_joined (stores_of_joined j) hend] at hstored
  have hslot : j < pool.shared.results.length := by
    rw [h.slots]
    exact hj
  have hget := List.getElem?_eq_getElem hslot
  cases hval : pool.shared.results[j] with
  | some item =>
    rw [hval] at hget
    obtain ⟨url', hurl', hitem⟩ := h.item_right j item hget
    rw [hurl] at hurl'
    cases hurl'
    have hfilled : filled pool.shared.results j = 1 := by
      simp [filled, hget]
    rw [panics_of_item hitem, cond_false, hfilled] at hstored
    have hlt : j < pool.shared.next := by
      by_contra hge
      rw [decide_eq_false hge, Bool.toNat_false] at hscraped
      omega
    rw [hget, outcome, if_pos (h.reached j hlt), hitem]
  | none =>
    rw [hval] at hget
    have hfilled : filled pool.shared.results j = 0 := by
      simp [filled, hget]
    rw [hfilled] at hstored
    rw [hget, outcome]
    by_cases hbelow : panicsBelow scrape j < workers
    · rw [decide_eq_true ((lt_next_iff h hend hj).mpr hbelow), Bool.toNat_true] at hscraped
      have hpanics : (scrape j).panics = true := by
        by_contra hnot
        rw [Bool.not_eq_true _ |>.mp hnot, cond_false] at hstored
        omega
      rw [if_pos hbelow, itemOf_eq_none.mpr hpanics]
    · rw [if_neg hbelow]

theorem collect_get (h : Inv members scrape urls workers pool) {j : Nat} {url : String}
    (hurl : urls[j]? = some url) {slot : Option BatchItem}
    (hslot : pool.shared.results[j]? = some slot) :
    (collect pool.shared)[j]? = some (slot.getD (workerFailed j url)) := by
  unfold collect
  rw [List.getElem?_map, List.getElem?_zipIdx, hslot, h.urls_eq]
  simp [hurl]

theorem length_collect (h : Inv members scrape urls workers pool) :
    (collect pool.shared).length = urls.length := by
  simp [collect, h.slots]

theorem validateBatch_eq_ok {concurrency : Nat} :
    validateBatch urls concurrency = .ok () ↔
      urls ≠ [] ∧ concurrency ≠ 0 ∧ concurrency ≤ 64 ∧ urls.length ≤ 1000 := by
  simp [validateBatch, bind_eq_ok, require_eq_ok]

theorem batch_of_cap {options : BatchOptions} {schedule : List Nat} (hurls : urls ≠ [])
    (hconcurrency : options.concurrency ≠ 0)
    (hcap : ¬ (options.concurrency ≤ 64 ∧ urls.length ≤ 1000)) :
    ∃ detail, batch members scrape urls options schedule =
      .error (.invalidProductOption detail) := by
  have hempty : urls.isEmpty = false := by simpa using hurls
  by_cases hworkers : options.concurrency ≤ 64
  · have hcount : ¬ urls.length ≤ 1000 := fun hcount => hcap ⟨hworkers, hcount⟩
    refine ⟨"batch URL count exceeds hard safety cap (1000)", ?_⟩
    simp [batch, validateBatch, hempty, hconcurrency, hworkers, hcount, require, bind, Except.bind]
  · refine ⟨"batch --concurrency exceeds hard safety cap (64)", ?_⟩
    simp [batch, validateBatch, hempty, hconcurrency, hworkers, require, bind, Except.bind]

/-- **What a batch returns**: by then every worker has been joined. -/
theorem batch_eq_ok {options : BatchOptions} {schedule : List Nat} {result : BatchResult}
    (h : batch members scrape urls options schedule = .ok (some result)) :
    ∃ pool, pool = run (workerStep members scrape) schedule (spawned urls options.concurrency) ∧
      Inv members scrape urls (workerCount urls options.concurrency) pool ∧
      pool.threads.all Worker.joined = true ∧ result.items = collect pool.shared := by
  refine ⟨_, rfl, inv_run (inv_spawned _) schedule, ?_⟩
  obtain ⟨-, -, h⟩ := bind_eq_ok.mp h
  simp only [Except.ok.injEq] at h
  split at h
  · rename_i hend
    cases h
    exact ⟨hend, rfl⟩
  · cases h

theorem batch_of_joined {options : BatchOptions} {schedule : List Nat}
    (hvalid : validateBatch urls options.concurrency = .ok ())
    (hend : (run (workerStep members scrape) schedule
      (spawned urls options.concurrency)).threads.all Worker.joined = true) :
    ∃ result, batch members scrape urls options schedule = .ok (some result) := by
  simp [batch, hvalid, hend, ok_bind]

/-- Every schedule of a batch can be carried on until the batch returns. -/
theorem exists_batch_eq_ok {options : BatchOptions}
    (hvalid : validateBatch urls options.concurrency = .ok ()) (schedule : List Nat) :
    ∃ more result, batch members scrape urls options (schedule ++ more) = .ok (some result) := by
  obtain ⟨more, hend⟩ := exists_finished (remaining_lt members scrape)
    (run (workerStep members scrape) schedule (spawned urls options.concurrency))
  rw [← run_append, finished_iff] at hend
  exact ⟨more, batch_of_joined hvalid hend⟩

theorem one_le_workerCount (urls : List String) (concurrency : Nat) :
    1 ≤ workerCount urls concurrency :=
  Nat.le_max_right _ _

/-- The items of a batch that returns. -/
theorem items_of_batch {options : BatchOptions} {schedule : List Nat} {result : BatchResult}
    (h : batch members scrape urls options schedule = .ok (some result)) {j : Nat} {url : String}
    (hurl : urls[j]? = some url) :
    result.items[j]? = some ((outcome members scrape (workerCount urls options.concurrency)
      j url).getD (workerFailed j url)) := by
  obtain ⟨pool, -, hinv, hend, hitems⟩ := batch_eq_ok h
  rw [hitems]
  exact collect_get hinv hurl (slot_of_joined hinv hend hurl)

theorem panicsBelow_eq_zero {n : Nat} (h : ∀ j < n, (scrape j).panics = false) {j : Nat}
    (hj : j ≤ n) : panicsBelow scrape j = 0 := by
  rw [panicsBelow, List.countP_eq_zero]
  intro p hp
  rw [h p (Nat.lt_of_lt_of_le (List.mem_range.mp hp) hj)]
  exact Bool.false_ne_true

theorem sequentialItems_get {j : Nat} {url : String} (hurl : urls[j]? = some url) :
    (sequentialItems members scrape urls)[j]? =
      some ((itemOf members j url (scrape j)).getD (workerFailed j url)) := by
  unfold sequentialItems
  rw [List.getElem?_map, List.getElem?_zipIdx, hurl]
  simp

theorem length_sequentialItems : (sequentialItems members scrape urls).length = urls.length := by
  simp [sequentialItems]

/-- Without a panic the items are those of the sequential batch. -/
theorem items_eq_sequential {options : BatchOptions} {schedule : List Nat} {result : BatchResult}
    (hpanics : ∀ j < urls.length, (scrape j).panics = false)
    (h : batch members scrape urls options schedule = .ok (some result)) :
    result.items = sequentialItems members scrape urls := by
  obtain ⟨pool, -, hinv, -, hitems⟩ := batch_eq_ok h
  have hlen : result.items.length = urls.length := by
    rw [hitems]
    exact length_collect hinv
  refine List.ext_getElem? fun j => ?_
  by_cases hj : j < urls.length
  · have hurl : urls[j]? = some urls[j] := List.getElem?_eq_getElem hj
    have hzero : panicsBelow scrape j = 0 := panicsBelow_eq_zero hpanics (Nat.le_of_lt hj)
    have hworkers : 0 < workerCount urls options.concurrency := one_le_workerCount _ _
    rw [items_of_batch h hurl, sequentialItems_get hurl, outcome, hzero, if_pos hworkers]
  · rw [List.getElem?_eq_none (by omega), List.getElem?_eq_none (by
      rw [length_sequentialItems]
      omega)]

/-- Without a panic every job has been scraped once when the workers have been joined. -/
theorem scraped_perm (hpanics : ∀ j < urls.length, (scrape j).panics = false)
    (h : Inv members scrape urls workers pool) (hpos : 0 < workers)
    (hend : pool.threads.all Worker.joined = true) :
    pool.shared.scraped.Perm (List.range urls.length) := by
  have hnext : pool.shared.next = urls.length := by
    rcases next_of_joined h hend with hnext | hnext
    · exact hnext
    · rw [panicsBelow_eq_zero hpanics h.next_le] at hnext
      omega
  rw [List.perm_iff_count]
  intro j
  have hscraped := h.scraped_once j
  rw [countP_of_joined (holds_of_joined j) hend, hnext, Nat.add_zero] at hscraped
  rw [hscraped, List.nodup_range.count]
  by_cases hj : j < urls.length <;> simp [hj]

/-- **The batch refines the sequential map.** -/
theorem batch_refines_sequential (members : ErrorMembers) (scrape : Nat → ScrapeCall)
    (urls : List String) (options : BatchOptions) (hurls : urls ≠ [])
    (hconcurrency : 1 ≤ options.concurrency)
    (hpanics : ∀ j < urls.length, (scrape j).panics = false) (schedule : List Nat) :
    (options.concurrency ≤ 64 → urls.length ≤ 1000 →
      (∃ more result, batch members scrape urls options (schedule ++ more) = .ok (some result)) ∧
      ∀ result, batch members scrape urls options schedule = .ok (some result) →
        result.items = sequentialItems members scrape urls ∧
        result.items.length = urls.length ∧
        (∀ j url, urls[j]? = some url → ∃ item, result.items[j]? = some item ∧
          itemOf members j url (scrape j) = some item ∧ item.index = j ∧ item.url = url) ∧
        (run (workerStep members scrape) schedule
          (spawned urls options.concurrency)).shared.scraped.Perm (List.range urls.length)) ∧
    (¬ (options.concurrency ≤ 64 ∧ urls.length ≤ 1000) → ∃ detail,
      batch members scrape urls options schedule = .error (.invalidProductOption detail)) := by
  refine ⟨fun hcap hcount => ⟨?_, fun result h => ?_⟩, fun hcap => ?_⟩
  · exact exists_batch_eq_ok (validateBatch_eq_ok.mpr
      ⟨hurls, Nat.ne_of_gt hconcurrency, hcap, hcount⟩) schedule
  · have hitems := items_eq_sequential hpanics h
    obtain ⟨pool, rfl, hinv, hend, -⟩ := batch_eq_ok h
    refine ⟨hitems, by rw [hitems, length_sequentialItems], fun j url hurl => ?_,
      scraped_perm hpanics hinv (one_le_workerCount _ _) hend⟩
    obtain ⟨hj, -⟩ := List.getElem?_eq_some_iff.mp hurl
    obtain ⟨item, hitem⟩ : ∃ item, itemOf members j url (scrape j) = some item := by
      refine Option.ne_none_iff_exists'.mp fun hnone => ?_
      have := itemOf_eq_none.mp hnone
      rw [hpanics j hj] at this
      cases this
    refine ⟨item, ?_, hitem, index_of_item hitem⟩
    rw [hitems, sequentialItems_get hurl, hitem, Option.getD_some]
  · exact batch_of_cap hurls (Nat.ne_of_gt hconcurrency) hcap

/-- Two workers over three jobs, two of them for the same URL. -/
theorem batch_refines_sequential_duplicates :
    ∃ result, batch (fun _ => []) (fun _ => .err .missingUrl)
      ["http://a.test/", "http://b.test/", "http://a.test/"] ⟨2⟩
        [0, 1, 1, 1, 1, 1, 1, 0, 0, 0, 1] = .ok (some result) ∧
      result.items = sequentialItems (fun _ => []) (fun _ => .err .missingUrl)
        ["http://a.test/", "http://b.test/", "http://a.test/"] :=
  ⟨_, rfl, (((batch_refines_sequential (fun _ => []) (fun _ => .err .missingUrl)
    ["http://a.test/", "http://b.test/", "http://a.test/"] ⟨2⟩ (by decide) (by decide)
    (fun _ _ => rfl) [0, 1, 1, 1, 1, 1, 1, 0, 0, 0, 1]).1 (by decide) (by decide)).2 _ rfl).1⟩

/-- A concurrency above the cap is refused, and nothing is scraped. -/
theorem batch_refuses_65_workers :
    ¬ ∀ (members : ErrorMembers) (scrape : Nat → ScrapeCall) (urls : List String)
      (options : BatchOptions), urls ≠ [] → 1 ≤ options.concurrency →
      (∀ j < urls.length, (scrape j).panics = false) → ∃ schedule result,
        batch members scrape urls options schedule = .ok (some result) ∧
          result.items = sequentialItems members scrape urls := by
  intro hclaim
  obtain ⟨schedule, result, hbatch, -⟩ := hclaim (fun _ => []) (fun _ => .err .missingUrl)
    ["http://a.test/"] ⟨65⟩ (by decide) (by decide) (fun _ _ => rfl)
  have hrefused : batch (fun _ => []) (fun _ => .err .missingUrl) ["http://a.test/"] ⟨65⟩ schedule =
      .error (.invalidProductOption "batch --concurrency exceeds hard safety cap (64)") := rfl
  rw [hrefused] at hbatch
  cases hbatch

/-! ## Crashing scrapes -/

/-- A crash stays with its own URL: a job whose scrape comes back has the item of that scrape, and
    only a job that panics has none. -/
def CrashIsolated (members : ErrorMembers) (scrape : Nat → ScrapeCall) (urls : List String)
    (items : List BatchItem) : Prop :=
  ∀ j url, urls[j]? = some url →
    (∀ item, itemOf members j url (scrape j) = some item → items[j]? = some item) ∧
    (items[j]? = some (workerFailed j url) → (scrape j).panics = true)

/-- **A batch isolates its crashes exactly when every job that does not panic has fewer panicking
    jobs before it than there are workers.** -/
theorem crashIsolated_iff (members : ErrorMembers) (scrape : Nat → ScrapeCall)
    (urls : List String) (options : BatchOptions)
    (hvalid : validateBatch urls options.concurrency = .ok ()) (schedule : List Nat) :
    (∃ more result, batch members scrape urls options (schedule ++ more) = .ok (some result)) ∧
    ∀ result, batch members scrape urls options schedule = .ok (some result) →
      (CrashIsolated members scrape urls result.items ↔
        ∀ j < urls.length, (scrape j).panics = false →
          panicsBelow scrape j < workerCount urls options.concurrency) := by
  refine ⟨exists_batch_eq_ok hvalid schedule, fun result h => ?_⟩
  constructor
  · intro hisolated j hj hpanics
    have hurl : urls[j]? = some urls[j] := List.getElem?_eq_getElem hj
    by_contra hlost
    have hitem := items_of_batch h hurl
    rw [outcome, if_neg hlost] at hitem
    have := (hisolated j urls[j] hurl).2 hitem
    rw [hpanics] at this
    cases this
  · intro hfew j url hurl
    obtain ⟨hj, -⟩ := List.getElem?_eq_some_iff.mp hurl
    have hitem := items_of_batch h hurl
    constructor
    · intro item hscraped
      rw [hitem, outcome, if_pos (hfew j hj (panics_of_item hscraped)), hscraped,
        Option.getD_some]
    · intro hfailed
      by_contra hpanics
      rw [Bool.not_eq_true] at hpanics
      rw [outcome, if_pos (hfew j hj hpanics)] at hitem
      cases hscraped : itemOf members j url (scrape j) with
      | none =>
        rw [itemOf_eq_none.mp hscraped] at hpanics
        cases hpanics
      | some item =>
        rw [hscraped, Option.getD_some, hfailed, Option.some.injEq] at hitem
        exact itemOf_ne_workerFailed hscraped hitem.symm

/-- Of two workers one panics on the first URL, the other goes on to the second. -/
theorem crashIsolated_two_workers :
    ∃ result, batch (fun _ => []) (fun j => if j = 0 then .panic else .err .missingUrl)
      ["http://a.test/", "http://b.test/"] ⟨2⟩ [0, 0, 1, 1, 1, 1] = .ok (some result) ∧
      CrashIsolated (fun _ => []) (fun j => if j = 0 then .panic else .err .missingUrl)
        ["http://a.test/", "http://b.test/"] result.items :=
  ⟨_, rfl, ((crashIsolated_iff (fun _ => [])
    (fun j => if j = 0 then .panic else .err .missingUrl) ["http://a.test/", "http://b.test/"] ⟨2⟩
    rfl [0, 0, 1, 1, 1, 1]).2 _ rfl).mpr (by decide)⟩

/-- The only worker panics on the first URL: the second is never scraped. -/
theorem crash_collapses_sibling :
    ¬ ∀ (members : ErrorMembers) (scrape : Nat → ScrapeCall) (urls : List String)
      (options : BatchOptions) (schedule : List Nat) (result : BatchResult),
      batch members scrape urls options schedule = .ok (some result) →
        CrashIsolated members scrape urls result.items := by
  intro hclaim
  have hisolated := hclaim (fun _ => []) (fun j => if j = 0 then .panic else .err .missingUrl)
    ["http://a.test/", "http://b.test/"] ⟨1⟩ [0, 0] _ rfl 1 "http://b.test/" rfl
  have hpanics := hisolated.2 rfl
  cases hpanics

end Basecrawl.Core.Batch
