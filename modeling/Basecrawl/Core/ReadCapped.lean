/-
  `read_capped`, over any reader.

  The loop appends what it gets until the cap is reached or a read returns nothing; behind the cap
  one byte is asked for.  `readLoop_run` is the invariant of the loop: the body so far, followed by
  what is left of the stream up to the cap.  It holds of any reader that keeps the contract of
  `Read` (`Delivers`), however its reads cut the stream, so the segments of `Chunked` are the
  special case `readCapped_segmented`.
-/
import Basecrawl.Core.Chunked
import Basecrawl.Core.World
import Basecrawl.Lib.Reader

namespace Basecrawl.Core.ReadCapped

open Text Run Reading Stream'
open Segments (Filled)

/-! ## Program -/

/-- The kinds of `io::ErrorKind` that are told apart. -/
inductive IoErrorKind where
  | timedOut
  | wouldBlock
  | other
deriving DecidableEq

structure IoError where
  kind : IoErrorKind
  message : String

/-- `classify_io`. -/
def classifyIo (error : IoError) : Error :=
  let lower := asciiLower error.message
  if contains lower "certificate" || contains lower "cert " then
    .certificateValidation error.message
  else if error.kind = .timedOut ∨ error.kind = .wouldBlock then .timeout error.message
  else .transport error.message

variable {σ : Type}

/-- `deadline_elapsed`. -/
def deadlineElapsed : Error := .timeout "scrape deadline exceeded"

/-- `remaining`: the time until the deadline, by a clock that is read. -/
def remaining (now : σ → Nat × σ) (deadline : Nat) : EStateM Error σ Nat := fun s =>
  if (now s).1 < deadline then .ok (deadline - (now s).1) (now s).2
  else .error deadlineElapsed (now s).2

variable (reader : Reader IoError σ) (now : σ → Nat × σ)

/-- The loop of `read_capped`, and the probe behind it. -/
def readLoop (maxBodyBytes deadline : Nat) (body : Bytes) : EStateM Error σ (Bytes × Bool) := do
  if _h : body.length < maxBodyBytes then
    let _ ← remaining now deadline
    let read ← mapErr classifyIo (reader (requested maxBodyBytes body))
    if _hend : read.val = [] then return (body, false)
    else readLoop maxBodyBytes deadline (body ++ read.val)
  else
    let _ ← remaining now deadline
    let read ← mapErr classifyIo (reader 1)
    return (body, decide (read.val ≠ []))
termination_by maxBodyBytes - body.length
decreasing_by
  have hpos := List.length_pos_iff.mpr _hend
  rw [List.length_append]
  omega

/-- `read_capped`. -/
def readCapped (maxBodyBytes deadline : Nat) : EStateM Error σ (Bytes × Bool) :=
  readLoop reader now maxBodyBytes deadline []

/-! ## The loop -/

/-- An error that is one of the deadline, or one of the reader. -/
def Failure (deadline : Nat) (e : Error) : Prop :=
  (∃ s, deadline ≤ (now s).1 ∧ e = deadlineElapsed) ∨
    ∃ room s s' error, reader room s = .error error s' ∧ e = classifyIo error

variable {reader now}

theorem remaining_cases (now : σ → Nat × σ) (deadline : Nat) (s : σ) :
    (deadline ≤ (now s).1 ∧ remaining now deadline s = .error deadlineElapsed (now s).2) ∨
      remaining now deadline s = .ok (deadline - (now s).1) (now s).2 := by
  unfold remaining
  split
  · exact Or.inr rfl
  · exact Or.inl ⟨by omega, rfl⟩

/-- One read of the loop: it fails, or the state is one the reader left behind. -/
theorem read_cases {left : σ → Seq UInt8} (hnow : ∀ s, left (now s).2 = left s) {deadline : Nat}
    (room : Nat) (s : σ) (next : Got room → EStateM Error σ (Bytes × Bool)) :
    (∃ e s', (remaining now deadline >>= fun _ =>
        mapErr classifyIo (reader room) >>= next) s = .error e s' ∧
        Failure reader now deadline e) ∨
      ∃ s₁ got s', left s₁ = left s ∧ reader room s₁ = .ok got s' ∧
        (remaining now deadline >>= fun _ => mapErr classifyIo (reader room) >>= next) s =
          next got s' := by
  rcases remaining_cases now deadline s with ⟨hlate, herror⟩ | htime
  · exact Or.inl ⟨_, _, bind_of_error _ herror, Or.inl ⟨s, hlate, rfl⟩⟩
  · rw [bind_of_ok _ htime]
    rcases mapErr_cases classifyIo (reader room) (now s).2 with
      ⟨error, s', hread, hmap⟩ | ⟨got, s', hread, hmap⟩
    · exact Or.inl ⟨_, _, bind_of_error _ hmap, Or.inr ⟨room, _, s', error, hread, rfl⟩⟩
    · exact Or.inr ⟨_, got, s', hnow s, hread, bind_of_ok _ hmap⟩

/-- **The loop**: it fails for a reason of the deadline or of the reader, or it returns the body
    followed by what is left up to the cap, and is then one byte further than the cap. -/
theorem readLoop_run {left : σ → Seq UInt8} (hdelivers : Delivers reader left)
    (hnow : ∀ s, left (now s).2 = left s) {maxBodyBytes deadline : Nat} {body : Bytes}
    (hbody : body.length ≤ maxBodyBytes) (s : σ) :
    (∃ e s', readLoop reader now maxBodyBytes deadline body s = .error e s' ∧
        Failure reader now deadline e) ∨
      ∃ s', readLoop reader now maxBodyBytes deadline body s =
          .ok (body ++ (left s).take (maxBodyBytes - body.length),
            ((left s).get? (maxBodyBytes - body.length)).isSome) s' ∧
        left s' = (left s).drop (maxBodyBytes - body.length + 1) := by
  induction hn : maxBodyBytes - body.length using Nat.strongRecOn generalizing body s with
  | ind n ih =>
    subst hn
    by_cases hless : body.length < maxBodyBytes
    · have hroom : 0 < requested maxBodyBytes body := by
        rw [requested]
        omega
      have hcap : requested maxBodyBytes body ≤ maxBodyBytes - body.length := Nat.min_le_left ..
      rw [readLoop, dif_pos hless]
      rcases read_cases hnow (requested maxBodyBytes body) s _ with
        hfails | ⟨s₁, got, s', hleft, hread, hrun⟩
      · exact Or.inl hfails
      rw [hrun]
      by_cases hnil : got.val = []
      · -- the end of the stream comes before the cap
        obtain ⟨hend, hend'⟩ := hdelivers.ended hread hroom hnil
        rw [hleft] at hend
        rw [dif_pos hnil, hend]
        refine Or.inr ⟨s', ?_, ?_⟩
        · rw [Seq.take_nil, List.append_nil, Seq.get?_nil]
          rfl
        · rw [hend', Seq.drop_nil]
      · have hpos := List.length_pos_iff.mpr hnil
        have hlength : (body ++ got.val).length = body.length + got.val.length := List.length_append
        have hgot := got.property
        have hsplit : maxBodyBytes - body.length =
            got.val.length + (maxBodyBytes - (body ++ got.val).length) := by omega
        have hfront := hdelivers.front hread
        rw [hleft] at hfront
        rw [dif_neg hnil]
        refine (ih _ (by omega) (by omega) s' rfl).imp_right ?_
        rintro ⟨t, hok, ht⟩
        refine ⟨t, ?_, ?_⟩
        · rw [hok, hfront, hsplit, take_ofList_append, get?_ofList_append, Nat.add_sub_cancel_left,
            List.take_of_length_le (Nat.le_add_right _ _), List.append_assoc]
        · rw [ht, hfront, hsplit, Nat.add_assoc, drop_ofList_append]
    · have hfull : maxBodyBytes - body.length = 0 := by omega
      rw [readLoop, dif_neg hless, hfull, Seq.take_zero, List.append_nil]
      rcases read_cases hnow 1 s _ with
        hfails | ⟨s₁, got, s', hleft, hread, hrun⟩
      · exact Or.inl hfails
      obtain ⟨hprobe, hdrop⟩ := hdelivers.probe hread
      rw [hleft] at hprobe hdrop
      rw [hrun, hprobe]
      exact Or.inr ⟨s', rfl, hdrop⟩

theorem isSome_getElem?_iff {stream : Bytes} {n : Nat} :
    stream[n]?.isSome = true ↔ n < stream.length := by
  rw [Option.isSome_iff_ne_none, ne_eq, List.getElem?_eq_none_iff, Nat.not_le]

/-- A clock that stands still. -/
def still (s : σ) : Nat × σ := (0, s)

/-- Segments that are all there do not fail before the deadline. -/
theorem not_failure_segmented {deadline : Nat} (hdeadline : 0 < deadline) (e : Error) :
    ¬ Failure segmented still deadline e := by
  rintro (⟨s, hlate, -⟩ | ⟨room, s, s', error, hread, -⟩)
  · exact absurd hlate (Nat.not_le.mpr hdeadline)
  · cases hread

/-- The segments of `Chunked`, before a deadline that is not reached. -/
theorem readCapped_segmented (segments : List Bytes) (hfilled : Filled segments)
    (maxBodyBytes deadline : Nat) (hdeadline : 0 < deadline) :
    outcome (readCapped segmented still maxBodyBytes deadline ⟨segments, hfilled⟩) =
      .ok (Core.readCapped segments maxBodyBytes) := by
  have hempty : ([] : Bytes).length ≤ maxBodyBytes := Nat.zero_le maxBodyBytes
  rcases @readLoop_run _ segmented still joined segmented_delivers (fun _ => rfl) maxBodyBytes
      deadline [] hempty ⟨segments, hfilled⟩ with ⟨e, -, -, hfails⟩ | ⟨s', hok, -⟩
  · exact absurd hfails (not_failure_segmented hdeadline e)
  · rw [readCapped, hok, readCapped_eq hfilled]
    unfold joined
    rw [List.nil_append, List.length_nil, Nat.sub_zero, take_ofList, Seq.ofList_get?]
    refine congrArg (fun more => Except.ok (segments.flatten.take maxBodyBytes, more)) ?_
    rw [Bool.eq_iff_iff, decide_eq_true_iff]
    exact isSome_getElem?_iff

/-! ## The cap -/

/-- **Exactly the cap**: unless a read fails or the deadline passes, the body is the first bytes of
    the stream up to the cap, it is truncated when the stream has one more, and that one is all that
    was read beside it. -/
theorem readCapped_exact {left : σ → Seq UInt8} (hdelivers : Delivers reader left)
    (hnow : ∀ s, left (now s).2 = left s) (maxBodyBytes deadline : Nat) (s : σ) :
    (∃ e s', readCapped reader now maxBodyBytes deadline s = .error e s' ∧
        Failure reader now deadline e) ∨
      ∃ body truncated s',
        readCapped reader now maxBodyBytes deadline s = .ok (body, truncated) s' ∧
        body = (left s).take maxBodyBytes ∧
        (truncated = true ↔ ∃ byte, (left s).get? maxBodyBytes = some byte) ∧
        left s' = (left s).drop (maxBodyBytes + 1) ∧
        ∀ stream : Bytes, left s = Seq.ofList stream →
          body = stream.take (min maxBodyBytes stream.length) ∧
            (truncated = true ↔ maxBodyBytes < stream.length) := by
  refine (readLoop_run hdelivers hnow (Nat.zero_le maxBodyBytes) s).imp_right ?_
  rintro ⟨s', hok, hleft⟩
  rw [List.nil_append, List.length_nil, Nat.sub_zero] at hok
  rw [List.length_nil, Nat.sub_zero] at hleft
  refine ⟨_, _, s', hok, rfl, Option.isSome_iff_exists, hleft, fun stream hstream => ?_⟩
  rw [hstream, take_ofList, Seq.ofList_get?]
  constructor
  · rw [← List.take_eq_take_min]
  · exact isSome_getElem?_iff

theorem filled_cut : Filled [[1, 2], [3], [4, 5, 6]] := by simp [Filled]

theorem readCapped_exact_cut : ∃ s',
    readCapped segmented still 4 1 ⟨[[1, 2], [3], [4, 5, 6]], filled_cut⟩ =
      .ok ([1, 2, 3, 4], true) s' := by
  rcases @readCapped_exact _ segmented still joined segmented_delivers (fun _ => rfl) 4 1
      ⟨[[1, 2], [3], [4, 5, 6]], filled_cut⟩ with
    ⟨e, -, -, hfails⟩ | ⟨body, truncated, s', hok, -, -, -, hstream⟩
  · exact absurd hfails (not_failure_segmented Nat.one_pos e)
  · obtain ⟨hbody, htruncated⟩ := hstream [1, 2, 3, 4, 5, 6] rfl
    refine ⟨s', ?_⟩
    rw [hok, hbody, htruncated.mpr (by decide)]
    rfl

end Basecrawl.Core.ReadCapped
