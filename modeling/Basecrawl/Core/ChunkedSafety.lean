/-
  What of a chunked body can stop the decoder.

  `decode_chunked` again, now with every sum and every slice of its loop written out, and with the
  deadline it looks at before each pass:

  1. **One pass** — an announced size with `size + 2` on `usize` is safe (`takeChunk_safe`), and a
     size next to the limit of `usize` is not (`takeChunk_overflow`).
  2. **One pass, by its bytes** — the pass stops the program exactly on a line that announces such a
     size (`decodeChunkedStep_panic_iff`), and goes on exactly behind a chunk that is whole
     (`decodeChunkedStep_more_iff`).
  3. **A run** — by induction on the bytes that are left: the run stops the program exactly when such
     a line stands behind whole chunks within the cap and no pass up to it is late
     (`decodeChunkedIn_settles_iff`).

  Without a deadline the run is `decodeChunked` (`decodeChunkedIn_never`).
-/
import Basecrawl.Core.Chunked

namespace Basecrawl.Core

open Text Hex Panic Outcome

/-! ## The loop -/

/-- How a pass ends. -/
inductive Turn where
  | done (decoded : Bytes) (truncated : Bool)
  | more (encoded decoded : Bytes)

/-- A pass behind the size line.  `size + 2` stands three times in the source. -/
def takeChunk (sum : Nat → Nat → Checked Error Nat) (maxBodyBytes : Nat) (encoded decoded : Bytes)
    (size : Nat) : Checked Error Turn :=
  if size = 0 then .ok (.done decoded false)
  else do
    let stop ← sum size 2
    if encoded.length < stop then fail (.fetch "malformed chunked response: truncated chunk")
    else do
      let terminator ← slice encoded size stop
      if terminator ≠ crlf then fail (.fetch "malformed chunked response: truncated chunk")
      else
        let remaining := maxBodyBytes - decoded.length
        if size > remaining then do
          let front ← slice encoded 0 remaining
          return .done (decoded ++ front) true
        else do
          let data ← slice encoded 0 size
          let rest ← sliceFrom encoded stop
          return .more rest (decoded ++ data)

/-- A pass of the loop of `decode_chunked`. -/
def decodeChunkedStep (w maxBodyBytes : Nat) (encoded decoded : Bytes) : Checked Error Turn :=
  match crlfPosition encoded with
  | none => fail (.fetch "malformed chunked response: missing chunk length terminator")
  | some lineEnd => do
    let sizeText ← slice encoded 0 lineEnd
    let size ← chunkSize w sizeText
    let start ← add w lineEnd 2
    let encoded ← sliceFrom encoded start
    takeChunk (add w) maxBodyBytes encoded decoded size

/-! ## A size line -/

variable {w cap : Nat} {encoded decoded line rest : Bytes} {size : Nat}

/-- The bytes around the first terminator. -/
theorem crlfPosition_split : ∀ {xs : Bytes} {n : Nat}, crlfPosition xs = some n →
    ∃ line rest, xs = line ++ crlf ++ rest ∧ line.length = n ∧
      crlfPosition (line ++ crlf) = some line.length
  | [], _, h => by cases h
  | [_], _, h => by cases h
  | a :: b :: rest, n, h => by
    rw [crlfPosition] at h
    by_cases hcrlf : a = 13 ∧ b = 10
    · rw [if_pos hcrlf] at h
      obtain ⟨rfl, rfl⟩ := hcrlf
      exact ⟨[], rest, rfl, Option.some.inj h, rfl⟩
    · rw [if_neg hcrlf, Option.map_eq_some_iff] at h
      obtain ⟨k, hk, rfl⟩ := h
      obtain ⟨line, rest', hsplit, rfl, hends⟩ := crlfPosition_split hk
      refine ⟨a :: line, rest', by rw [hsplit]; rfl, rfl, ?_⟩
      cases line with
      | nil =>
        show crlfPosition (a :: 13 :: [10]) = some 1
        have hsame : b = 13 := (List.cons.inj hsplit).1
        rw [crlfPosition, if_neg (hsame ▸ hcrlf)]
        rfl
      | cons c line =>
        have hsame : b = c := (List.cons.inj hsplit).1
        subst hsame
        rw [List.cons_append] at hends
        rw [List.cons_append, List.cons_append, crlfPosition, if_neg hcrlf, hends]
        rfl

theorem chunkSize_ne_panic (line : Bytes) : chunkSize w line ≠ .error .panic := by
  intro h
  rcases bind_eq_error.mp h with htext | ⟨text, -, hsize⟩
  · obtain ⟨-, hstop⟩ := okOr_eq_error.mp htext
    cases hstop
  · obtain ⟨-, hstop⟩ := okOr_eq_error.mp hsize
    cases hstop

/-- A pass over a line with its terminator. -/
theorem decodeChunkedStep_line (hends : crlfPosition (line ++ crlf) = some line.length)
    (hfits : (line ++ crlf ++ rest).length < 2 ^ w) :
    decodeChunkedStep w cap (line ++ crlf ++ rest) decoded =
      (chunkSize w line).bind (takeChunk (add w) cap rest decoded) := by
  have hlen : (line ++ crlf ++ rest).length = line.length + 2 + rest.length := by
    rw [List.length_append, length_terminated]
  have htext : (slice (line ++ crlf ++ rest) 0 line.length : Checked Error Bytes) = .ok line := by
    rw [slice_eq (Nat.zero_le _) (by omega), List.drop_zero, Nat.sub_zero, List.append_assoc,
      List.take_left]
  have hstart : (add w line.length 2 : Checked Error Nat) = .ok (line.length + 2) :=
    add_eq rfl (by omega)
  have hrest : (sliceFrom (line ++ crlf ++ rest) (line.length + 2) : Checked Error Bytes) =
      .ok rest := by
    rw [sliceFrom_eq (by omega), ← length_terminated, List.drop_left]
  rw [decodeChunkedStep, crlfPosition_append rest hends]
  simp only [htext, hstart, hrest, ok_bind]
  rfl

/-! ## Behind the line -/

/-- A size next to the limit of `usize`. -/
theorem takeChunk_overflow (hne : size ≠ 0) (h : 2 ^ w ≤ size + 2) :
    takeChunk (add w) cap encoded decoded size = .error .panic := by
  have hsum : (add w size 2 : Checked Error Nat) = .error .panic := by
    rw [add, checkedAdd, if_neg (Nat.not_lt.mpr h)]
    rfl
  rw [takeChunk, if_neg hne, hsum]
  rfl

/-- `a + b` on `usize`, without overflow checks. -/
def wrappingAdd (w a b : Nat) : Checked Error Nat := .ok ((a + b) % 2 ^ w)

/-- Without overflow checks the slice stops the program instead: its end is before its start. -/
theorem takeChunk_wrapping (hw : 2 ≤ w) :
    takeChunk (wrappingAdd w) cap encoded decoded (2 ^ w - 2) = .error .panic := by
  have hfour : 2 ^ 2 ≤ 2 ^ w := Nat.pow_le_pow_right (by decide) hw
  have hsum : wrappingAdd w (2 ^ w - 2) 2 = .ok 0 := by
    rw [wrappingAdd, Nat.sub_add_cancel (by omega), Nat.mod_self]
  have hslice : (slice encoded (2 ^ w - 2) 0 : Checked Error Bytes) = .error .panic := by
    rw [slice, getRange, if_neg (by omega)]
    rfl
  rw [takeChunk, if_neg (by omega), hsum, ok_bind]
  show (if encoded.length < 0 then _ else (slice encoded (2 ^ w - 2) 0).bind _) = _
  rw [if_neg (Nat.not_lt_zero _), hslice]
  rfl

/-- The pass where the sum is in range: every slice of it is. -/
theorem takeChunk_safe (hne : size ≠ 0) (h : size + 2 < 2 ^ w) :
    takeChunk (add w) cap encoded decoded size =
      if encoded.length < size + 2 ∨ (encoded.drop size).take 2 ≠ crlf then
        fail (.fetch "malformed chunked response: truncated chunk")
      else if size > cap - decoded.length then
        .ok (.done (decoded ++ encoded.take (cap - decoded.length)) true)
      else .ok (.more (encoded.drop (size + 2)) (decoded ++ encoded.take size)) := by
  rw [takeChunk, if_neg hne, add_eq rfl h, ok_bind]
  by_cases hshort : encoded.length < size + 2
  · rw [if_pos hshort, if_pos (Or.inl hshort)]
  · have hterminator : (slice encoded size (size + 2) : Checked Error Bytes) =
        .ok ((encoded.drop size).take 2) := by
      rw [slice_eq (Nat.le_add_right _ 2) (by omega), Nat.add_sub_cancel_left]
    rw [if_neg hshort, hterminator, ok_bind]
    by_cases hcrlf : (encoded.drop size).take 2 ≠ crlf
    · rw [if_pos hcrlf, if_pos (Or.inr hcrlf)]
    · rw [if_neg hcrlf, if_neg (not_or.mpr ⟨hshort, hcrlf⟩)]
      by_cases hpast : size > cap - decoded.length
      · have hfront : (slice encoded 0 (cap - decoded.length) : Checked Error Bytes) =
            .ok (encoded.take (cap - decoded.length)) := by
          rw [slice_eq (Nat.zero_le _) (by omega), List.drop_zero, Nat.sub_zero]
        simp only [if_pos hpast, hfront, ok_bind]
        rfl
      · have hdata : (slice encoded 0 size : Checked Error Bytes) = .ok (encoded.take size) := by
          rw [slice_eq (Nat.zero_le _) (by omega), List.drop_zero, Nat.sub_zero]
        have hrest : (sliceFrom encoded (size + 2) : Checked Error Bytes) =
            .ok (encoded.drop (size + 2)) := sliceFrom_eq (by omega)
        simp only [if_neg hpast, hdata, hrest, ok_bind]
        rfl

/-- The pass stops the program for the sizes next to the limit and for no others. -/
theorem takeChunk_panic_iff :
    takeChunk (add w) cap encoded decoded size = .error .panic ↔ size ≠ 0 ∧ 2 ^ w ≤ size + 2 := by
  constructor
  · intro h
    by_contra hin
    by_cases hzero : size = 0
    · rw [takeChunk, if_pos hzero] at h
      cases h
    · rw [takeChunk_safe hzero (by omega)] at h
      split at h
      · cases h
      · split at h
        · cases h
        · cases h
  · rintro ⟨hne, h⟩
    exact takeChunk_overflow hne h

/-- The pass goes on behind the data it announced. -/
theorem takeChunk_more_iff {left grown : Bytes} :
    takeChunk (add w) cap encoded decoded size = .ok (.more left grown) ↔
      size ≠ 0 ∧ size + 2 < 2 ^ w ∧ size ≤ cap - decoded.length ∧
        ∃ data, data.length = size ∧ encoded = data ++ crlf ++ left ∧ grown = decoded ++ data := by
  constructor
  · intro h
    have hne : size ≠ 0 := by
      intro hzero
      rw [takeChunk, if_pos hzero] at h
      cases h
    have hfits : size + 2 < 2 ^ w := by
      by_contra hover
      rw [takeChunk_overflow hne (Nat.not_lt.mp hover)] at h
      cases h
    rw [takeChunk_safe hne hfits] at h
    split at h
    · cases h
    · next hwhole =>
      obtain ⟨hlong, hcrlf⟩ := not_or.mp hwhole
      split at h
      · cases h
      · next hroom =>
        cases h
        refine ⟨hne, hfits, Nat.not_lt.mp hroom, encoded.take size, ?_, ?_, rfl⟩
        · rw [List.length_take]
          omega
        · rw [List.append_assoc, ← not_not.mp hcrlf, ← List.drop_drop, List.take_append_drop,
            List.take_append_drop]
  · rintro ⟨hne, hfits, hroom, data, rfl, rfl, rfl⟩
    have hdrop : (data ++ crlf ++ left).drop (data.length + 2) = left := by
      rw [← length_terminated, List.drop_left]
    have hterminator : ((data ++ crlf ++ left).drop data.length).take 2 = crlf := by
      rw [List.append_assoc, List.drop_left]
      rfl
    have hlen : (data ++ crlf ++ left).length = data.length + 2 + left.length := by
      rw [List.length_append, length_terminated]
    have htake : (data ++ crlf ++ left).take data.length = data := by
      rw [List.append_assoc, List.take_left]
    rw [takeChunk_safe hne hfits, if_neg (not_or.mpr ⟨by omega, not_not.mpr hterminator⟩),
      if_neg (Nat.not_lt.mpr hroom), hdrop, htake]

/-! ## One pass, by its bytes -/

/-- A pass that is not at its end has read a size line. -/
theorem decodeChunkedStep_cases (hfits : encoded.length < 2 ^ w) :
    (∃ e, decodeChunkedStep w cap encoded decoded = .error (.err e)) ∨
      ∃ line rest size, encoded = line ++ crlf ++ rest ∧ SizeLine w line size ∧
        decodeChunkedStep w cap encoded decoded = takeChunk (add w) cap rest decoded size := by
  cases hline : crlfPosition encoded with
  | none =>
    rw [decodeChunkedStep, hline]
    exact Or.inl ⟨_, rfl⟩
  | some lineEnd =>
    obtain ⟨line, rest, rfl, -, hends⟩ := crlfPosition_split hline
    rw [decodeChunkedStep_line hends hfits]
    cases hsize : chunkSize w line with
    | ok size => exact Or.inr ⟨line, rest, size, rfl, ⟨hends, hsize⟩, rfl⟩
    | error stop =>
      cases stop with
      | err e => exact Or.inl ⟨e, rfl⟩
      | panic => exact absurd hsize (chunkSize_ne_panic line)

theorem decodeChunkedStep_size (h : SizeLine w line size)
    (hfits : (line ++ crlf ++ rest).length < 2 ^ w) :
    decodeChunkedStep w cap (line ++ crlf ++ rest) decoded =
      takeChunk (add w) cap rest decoded size := by
  rw [decodeChunkedStep_line h.ends hfits, h.reads]
  rfl

theorem decodeChunkedStep_panic_iff (hfits : encoded.length < 2 ^ w) :
    decodeChunkedStep w cap encoded decoded = .error .panic ↔
      ∃ line rest size, encoded = line ++ crlf ++ rest ∧ SizeLine w line size ∧
        size ≠ 0 ∧ 2 ^ w ≤ size + 2 := by
  constructor
  · intro h
    rcases @decodeChunkedStep_cases w cap _ decoded hfits with
      ⟨e, he⟩ | ⟨line, rest, size, hsplit, hline, hstep⟩
    · rw [he] at h
      cases h
    · rw [hstep] at h
      exact ⟨line, rest, size, hsplit, hline, takeChunk_panic_iff.mp h⟩
  · rintro ⟨line, rest, size, rfl, hline, hover⟩
    rw [decodeChunkedStep_size hline hfits]
    exact takeChunk_panic_iff.mpr hover

theorem decodeChunkedStep_more_iff (hfits : encoded.length < 2 ^ w) {left grown : Bytes} :
    decodeChunkedStep w cap encoded decoded = .ok (.more left grown) ↔
      ∃ chunk : Chunk w, encoded = chunk.wire ++ left ∧
        chunk.data.length ≤ cap - decoded.length ∧ grown = decoded ++ chunk.data := by
  constructor
  · intro h
    rcases @decodeChunkedStep_cases w cap _ decoded hfits with
      ⟨e, he⟩ | ⟨line, rest, size, hsplit, hline, hstep⟩
    · rw [he] at h
      cases h
    · rw [hstep] at h
      obtain ⟨hne, hsum, hroom, data, rfl, rfl, hgrown⟩ := takeChunk_more_iff.mp h
      have hdata : data ≠ [] := fun hnil => hne (by rw [hnil]; rfl)
      refine ⟨⟨line, data, hdata, hsum, hline⟩, ?_, hroom, hgrown⟩
      rw [hsplit, Chunk.wire, List.append_assoc (line ++ crlf)]
  · rintro ⟨chunk, rfl, hroom, rfl⟩
    have hwire : chunk.wire ++ left = chunk.line ++ crlf ++ (chunk.data ++ crlf ++ left) := by
      rw [Chunk.wire, List.append_assoc (chunk.line ++ crlf)]
    have hne : chunk.data.length ≠ 0 := fun h => chunk.nonempty (List.length_eq_zero_iff.mp h)
    rw [hwire] at hfits ⊢
    rw [decodeChunkedStep_size chunk.size hfits]
    exact takeChunk_more_iff.mpr ⟨hne, chunk.fits, hroom, chunk.data, rfl, rfl, rfl⟩

/-! ## A run -/

theorem decodeChunkedStep_shrinks {left grown : Bytes}
    (h : decodeChunkedStep w cap encoded decoded = .ok (.more left grown)) :
    left.length < encoded.length := by
  rw [decodeChunkedStep] at h
  split at h
  · cases h
  · next lineEnd hline =>
    obtain ⟨line, rest, rfl, rfl, -⟩ := crlfPosition_split hline
    obtain ⟨sizeText, -, h⟩ := bind_eq_ok.mp h
    obtain ⟨size, -, h⟩ := bind_eq_ok.mp h
    obtain ⟨start, hstart, h⟩ := bind_eq_ok.mp h
    obtain ⟨behind, hbehind, h⟩ := bind_eq_ok.mp h
    obtain ⟨-, -, -, data, -, hdata, -⟩ := takeChunk_more_iff.mp h
    have hsum : line.length + 2 = start := by
      rw [add, okOr_eq_ok, checkedAdd] at hstart
      split at hstart
      · exact Option.some.inj hstart
      · cases hstart
    subst hsum
    have hlen : (line ++ crlf ++ rest).length = line.length + 2 + rest.length := by
      rw [List.length_append, length_terminated]
    rw [sliceFrom_eq (by omega), ← length_terminated, List.drop_left] at hbehind
    cases hbehind
    have hrest := congrArg List.length hdata
    rw [List.length_append, length_terminated] at hrest
    omega

/-- The loop of `decode_chunked`; `late` says of each pass to come whether the deadline has elapsed
by then. -/
def decodeChunkedIn (w maxBodyBytes : Nat) (late : Nat → Bool) (encoded decoded : Bytes) :
    Checked Error (Bytes × Bool) :=
  if late 0 then fail (.timeout "scrape deadline exceeded")
  else
    match _hstep : decodeChunkedStep w maxBodyBytes encoded decoded with
    | .error stop => .error stop
    | .ok (.done decoded truncated) => .ok (decoded, truncated)
    | .ok (.more encoded decoded) =>
      decodeChunkedIn w maxBodyBytes (fun pass => late (pass + 1)) encoded decoded
termination_by encoded.length
decreasing_by exact decodeChunkedStep_shrinks _hstep

/-- A pass in time. -/
theorem decodeChunkedIn_step {late : Nat → Bool} (h : late 0 = false) :
    decodeChunkedIn w cap late encoded decoded =
      (decodeChunkedStep w cap encoded decoded).bind fun turn =>
        match turn with
        | .done decoded truncated => .ok (decoded, truncated)
        | .more encoded decoded =>
          decodeChunkedIn w cap (fun pass => late (pass + 1)) encoded decoded := by
  have hlate : ¬ late 0 = true := by
    rw [h]
    exact Bool.false_ne_true
  rw [decodeChunkedIn, if_neg hlate]
  split
  · next hstep =>
    rw [hstep]
    rfl
  · next hstep =>
    rw [hstep]
    rfl
  · next hstep =>
    rw [hstep]
    rfl

/-- A line that announces a size next to the limit of `usize` stands behind whole chunks within the
cap, and is reached in time. -/
def Overlong (w maxBodyBytes : Nat) (late : Nat → Bool) (encoded : Bytes) : Prop :=
  ∃ (chunks : List (Chunk w)) (line rest : Bytes) (size : Nat),
    encoded = chunksWire chunks line rest ∧ (payload chunks).length ≤ maxBodyBytes ∧
      SizeLine w line size ∧ size ≠ 0 ∧ 2 ^ w ≤ size + 2 ∧
      ∀ pass ≤ chunks.length, late pass = false

theorem chunksWire_cons (chunk : Chunk w) (chunks : List (Chunk w)) (line rest : Bytes) :
    chunksWire (chunk :: chunks) line rest = chunk.wire ++ chunksWire chunks line rest := by
  rw [chunksWire, chunksWire, List.flatMap_cons, List.append_assoc]

theorem payload_cons (chunk : Chunk w) (chunks : List (Chunk w)) :
    payload (chunk :: chunks) = chunk.data ++ payload chunks :=
  List.flatMap_cons

/-- The run up to such a line. -/
theorem decodeChunkedIn_overlong {late : Nat → Bool} (hfits : encoded.length < 2 ^ w)
    (h : Overlong w (cap - decoded.length) late encoded) :
    decodeChunkedIn w cap late encoded decoded = .error .panic := by
  obtain ⟨chunks, line, rest, size, rfl, hcap, hline, hne, hover, hintime⟩ := h
  induction chunks generalizing late decoded with
  | nil =>
    have hpanic := (@decodeChunkedStep_panic_iff w cap _ decoded hfits).mpr
      ⟨line, rest, size, rfl, hline, hne, hover⟩
    rw [decodeChunkedIn_step (hintime 0 (Nat.zero_le _)), hpanic]
    rfl
  | cons chunk chunks ih =>
    rw [payload_cons, List.length_append] at hcap
    rw [chunksWire_cons] at hfits ⊢
    have hmore := (@decodeChunkedStep_more_iff w cap _ decoded hfits _ _).mpr
      ⟨chunk, rfl, by omega, rfl⟩
    rw [decodeChunkedIn_step (hintime 0 (Nat.zero_le _)), hmore]
    have hrest : (chunksWire chunks line rest).length < 2 ^ w := by
      rw [List.length_append] at hfits
      omega
    refine ih hrest ?_ fun pass hpass => hintime (pass + 1) (Nat.succ_le_succ hpass)
    rw [List.length_append]
    omega

/-- What stops a run is such a line. -/
theorem overlong_of_panic {late : Nat → Bool} (hfits : encoded.length < 2 ^ w)
    (h : decodeChunkedIn w cap late encoded decoded = .error .panic) :
    Overlong w (cap - decoded.length) late encoded := by
  induction hn : encoded.length using Nat.strongRecOn generalizing encoded decoded late with
  | ind n ih =>
    subst hn
    cases hlate : late 0 with
    | true =>
      rw [decodeChunkedIn, if_pos hlate] at h
      cases h
    | false =>
      rw [decodeChunkedIn_step hlate] at h
      cases hstep : decodeChunkedStep w cap encoded decoded with
      | error stop =>
        rw [hstep] at h
        cases h
        obtain ⟨line, rest, size, rfl, hline, hne, hover⟩ :=
          (decodeChunkedStep_panic_iff hfits).mp hstep
        refine ⟨[], line, rest, size, rfl, Nat.zero_le _, hline, hne, hover, ?_⟩
        intro pass hpass
        rw [Nat.le_zero.mp hpass]
        exact hlate
      | ok turn =>
        rw [hstep] at h
        cases turn with
        | done => cases h
        | more left grown =>
          have hshrinks := decodeChunkedStep_shrinks hstep
          obtain ⟨chunk, rfl, hroom, rfl⟩ := (decodeChunkedStep_more_iff hfits).mp hstep
          obtain ⟨chunks, line, rest, size, rfl, hcap, hline, hne, hover, hintime⟩ :=
            ih _ hshrinks (by omega) h rfl
          rw [List.length_append] at hcap
          refine ⟨chunk :: chunks, line, rest, size, (chunksWire_cons ..).symm, ?_, hline, hne,
            hover, ?_⟩
          · rw [payload_cons, List.length_append]
            omega
          · intro pass hpass
            cases pass with
            | zero => exact hlate
            | succ pass => exact hintime pass (Nat.le_of_succ_le_succ hpass)

/-- A slice as it can be in memory. -/
structure Buffer (w : Nat) where
  bytes : Bytes
  fits : bytes.length < 2 ^ w

/-- `Ok` or `Err`. -/
def Settles {α : Type} (x : Checked Error α) : Prop :=
  (∃ a, x = .ok a) ∨ ∃ e, x = .error (.err e)

theorem settles_iff {α : Type} {x : Checked Error α} : Settles x ↔ x ≠ .error .panic := by
  constructor
  · rintro (⟨a, rfl⟩ | ⟨e, rfl⟩) h
    · cases h
    · cases h
  · intro h
    cases x with
    | ok a => exact Or.inl ⟨a, rfl⟩
    | error stop =>
      cases stop with
      | err e => exact Or.inr ⟨e, rfl⟩
      | panic => exact absurd rfl h

/-- **The decoder returns, except behind a size that is next to the limit of `usize`.** -/
theorem decodeChunkedIn_settles_iff (encoded : Buffer w) (maxBodyBytes : Nat)
    (late : Nat → Bool) :
    Settles (decodeChunkedIn w maxBodyBytes late encoded.bytes []) ↔
      ¬ Overlong w maxBodyBytes late encoded.bytes := by
  rw [settles_iff]
  constructor
  · intro hreturns hover
    exact hreturns (decodeChunkedIn_overlong encoded.fits hover)
  · intro hsafe hpanic
    exact hsafe (overlong_of_panic encoded.fits hpanic)

/-! ## A line that stops it -/

/-- One byte for each digit. -/
theorem length_hexText (n : Nat) : (utf8 (hexText n)).length = (hexDigits n).length := by
  have hbytes : ∀ {digits : List Nat}, (∀ d ∈ digits, d < 16) →
      (utf8 (String.ofList (digits.map hexDigit))).length = digits.length := by
    intro digits
    induction digits with
    | nil => exact fun _ => rfl
    | cons d digits ih =>
      intro h
      obtain ⟨hd, hdigits⟩ := List.forall_mem_cons.mp h
      obtain ⟨b, hb, -⟩ := hexValue_hexDigit hd
      have hrest := ih hdigits
      rw [utf8_eq_flatMap, String.toList_ofList] at hrest ⊢
      rw [List.map_cons, List.flatMap_cons, hb, List.singleton_append, List.length_cons, hrest,
        List.length_cons]
  exact hbytes fun _ => hexDigits_lt

theorem length_topLine : (utf8 (hexText (2 ^ 64 - 2)) ++ crlf).length < 2 ^ 64 := by
  have hdigits : (Nat.digits 16 (2 ^ 64 - 2)).length ≤ 16 :=
    (Nat.digits_length_le_iff (by decide) _).mpr (by decide)
  have hlen : (hexDigits (2 ^ 64 - 2)).length ≤ 16 := by
    rw [hexDigits, if_neg (by decide), List.length_reverse]
    exact hdigits
  have hroom : 16 + 2 < 2 ^ 64 := by decide
  rw [length_terminated, length_hexText]
  omega

/-- `fffffffffffffffe`, and nothing behind it. -/
def topLine : Buffer 64 where
  bytes := utf8 (hexText (2 ^ 64 - 2)) ++ crlf
  fits := length_topLine

theorem overlong_topLine : Overlong 64 0 (fun _ => false) topLine.bytes := by
  refine ⟨[], utf8 (hexText (2 ^ 64 - 2)), [], 2 ^ 64 - 2, ?_, Nat.le_refl 0,
    sizeLine_hexText (by decide), by decide, by decide, fun _ _ => rfl⟩
  show utf8 (hexText (2 ^ 64 - 2)) ++ crlf = [] ++ (utf8 (hexText (2 ^ 64 - 2)) ++ crlf ++ [])
  rw [List.nil_append, List.append_nil]

/-- That line stops the program. -/
theorem not_decodeChunkedIn_settles :
    ¬ ∀ (encoded : Buffer 64) (maxBodyBytes : Nat) (late : Nat → Bool),
      Settles (decodeChunkedIn 64 maxBodyBytes late encoded.bytes []) := by
  intro h
  exact settles_iff.mp (h topLine 0 fun _ => false)
    (decodeChunkedIn_overlong topLine.fits overlong_topLine)

/-! ## Without a deadline -/

theorem decodeChunkedLoop_none (h : crlfPosition encoded = none) :
    decodeChunkedLoop w cap encoded decoded =
      fail (.fetch "malformed chunked response: missing chunk length terminator") := by
  rw [decodeChunkedLoop]
  split
  · rfl
  · next hsome =>
    rw [h] at hsome
    cases hsome

theorem decodeChunkedLoop_malformed {stop : Stop Error}
    (hends : crlfPosition (line ++ crlf) = some line.length) (h : chunkSize w line = .error stop) :
    decodeChunkedLoop w cap (line ++ crlf ++ rest) decoded = .error stop := by
  have hline := crlfPosition_append rest hends
  rw [decodeChunkedLoop]
  split
  · next hnone =>
    rw [hline] at hnone
    cases hnone
  · next lineEnd hsome =>
    rw [hline] at hsome
    cases hsome
    rw [List.append_assoc, List.take_left, h]
    rfl

/-- A pass and what the decoder does behind a size line. -/
theorem takeChunk_loop :
    ((takeChunk (add w) cap rest decoded size).bind fun turn =>
      match turn with
      | .done decoded truncated => .ok (decoded, truncated)
      | .more encoded decoded => decodeChunkedLoop w cap encoded decoded) =
      if size = 0 then .ok (decoded, false)
      else (add w size 2).bind fun stop =>
        if rest.length < stop ∨ (rest.drop size).take 2 ≠ crlf then
          fail (.fetch "malformed chunked response: truncated chunk")
        else if size > cap - decoded.length then
          .ok (decoded ++ rest.take (cap - decoded.length), true)
        else decodeChunkedLoop w cap (rest.drop stop) (decoded ++ rest.take size) := by
  by_cases hzero : size = 0
  · rw [takeChunk, if_pos hzero, if_pos hzero]
    rfl
  · rw [if_neg hzero]
    by_cases hsum : size + 2 < 2 ^ w
    · rw [takeChunk_safe hzero hsum, add_eq rfl hsum]
      show _ = if rest.length < size + 2 ∨ (rest.drop size).take 2 ≠ crlf then _ else _
      by_cases hbroken : rest.length < size + 2 ∨ (rest.drop size).take 2 ≠ crlf
      · rw [if_pos hbroken, if_pos hbroken]
        rfl
      · rw [if_neg hbroken, if_neg hbroken]
        by_cases hpast : size > cap - decoded.length
        · rw [if_pos hpast, if_pos hpast]
          rfl
        · rw [if_neg hpast, if_neg hpast]
          rfl
    · have hover : (add w size 2 : Checked Error Nat) = .error .panic := by
        rw [add, checkedAdd, if_neg hsum]
        rfl
      rw [takeChunk_overflow hzero (Nat.not_lt.mp hsum), hover]
      rfl

/-- The run is that of the decoder. -/
theorem decodeChunkedIn_never (hfits : encoded.length < 2 ^ w) :
    decodeChunkedIn w cap (fun _ => false) encoded decoded =
      decodeChunkedLoop w cap encoded decoded := by
  induction hn : encoded.length using Nat.strongRecOn generalizing encoded decoded with
  | ind n ih =>
    subst hn
    cases hline : crlfPosition encoded with
    | none =>
      rw [decodeChunkedIn_step rfl, decodeChunkedStep, decodeChunkedLoop_none hline]
      simp only [hline]
      rfl
    | some lineEnd =>
      obtain ⟨line, rest, rfl, -, hends⟩ := crlfPosition_split hline
      cases hsize : chunkSize w line with
      | error stop =>
        rw [decodeChunkedIn_step rfl, decodeChunkedStep_line hends hfits, hsize,
          decodeChunkedLoop_malformed hends hsize]
        rfl
      | ok size =>
        have hstep := @decodeChunkedStep_size w cap decoded _ rest _ ⟨hends, hsize⟩ hfits
        rw [decodeChunkedIn_step rfl, decodeChunkedLoop_size ⟨hends, hsize⟩, ← takeChunk_loop,
          ← hstep]
        cases hturn : decodeChunkedStep w cap (line ++ crlf ++ rest) decoded with
        | error stop => rfl
        | ok turn =>
          cases turn with
          | done => rfl
          | more left grown =>
            have hshrinks := decodeChunkedStep_shrinks hturn
            exact ih _ hshrinks (by omega) rfl

/-- A loop stops the program only in one of its rounds. -/
theorem foldlM_ne_panic {α σ : Type} {round : σ → α → Checked Error σ}
    (h : ∀ s a, round s a ≠ .error .panic) : ∀ {as : List α} {s : σ},
      as.foldlM round s ≠ .error .panic
  | [], _, hpanic => by cases hpanic
  | a :: as, s, hpanic => by
    rw [List.foldlM_cons] at hpanic
    rcases bind_eq_error.mp hpanic with hfirst | ⟨_, -, hrest⟩
    · exact h s a hfirst
    · exact foldlM_ne_panic h hrest

/-- What follows the chunks, decoder by decoder, never stops the program. -/
theorem decodeContents_ne_panic (decoders : Decoders) (maxBodyBytes : Nat) {encodings : List String}
    {decoded : Bytes × Bool} :
    (encodings.foldlM (fun decoded encoding => do
      let (body, decodingTruncated) ←
        (decodeContent decoders encoding decoded.1 maxBodyBytes).mapError Stop.err
      pure (body, decoded.2 || decodingTruncated)) decoded : Checked Error (Bytes × Bool)) ≠
        .error .panic := by
  refine foldlM_ne_panic fun decoded encoding => ?_
  cases decodeContent decoders encoding decoded.1 maxBodyBytes with
  | error => exact fun h => by cases h
  | ok => exact fun h => by cases h

/-- **What of a response body can stop the program**: such a line, in a chunked one. -/
theorem decodeHttpBody_panic_iff (decoders : Decoders) (headers : List (String × Bytes))
    (body : Buffer w) (maxBodyBytes : Nat) :
    decodeHttpBody w decoders headers body.bytes maxBodyBytes = .error .panic ↔
      headerContainsToken headers "transfer-encoding" "chunked" = true ∧
        Overlong w maxBodyBytes (fun _ => false) body.bytes := by
  have hrun := @decodeChunkedIn_never w maxBodyBytes body.bytes [] body.fits
  by_cases hchunked : headerContainsToken headers "transfer-encoding" "chunked" = true
  · rw [decodeHttpBody, if_pos hchunked, decodeChunked, ← hrun]
    constructor
    · intro h
      rcases bind_eq_error.mp h with hchunks | ⟨decoded, -, h⟩
      · exact ⟨hchunked, overlong_of_panic body.fits hchunks⟩
      · rcases bind_eq_error.mp h with hcontents | ⟨_, -, h⟩
        · exact absurd hcontents (decodeContents_ne_panic decoders maxBodyBytes)
        · cases h
    · rintro ⟨-, hover⟩
      have hpanic := @decodeChunkedIn_overlong w maxBodyBytes _ [] _ body.fits hover
      rw [hpanic]
      rfl
  · rw [decodeHttpBody, if_neg hchunked]
    constructor
    · intro h
      rcases bind_eq_error.mp h with hplain | ⟨decoded, -, h⟩
      · cases hplain
      · rcases bind_eq_error.mp h with hcontents | ⟨_, -, h⟩
        · exact absurd hcontents (decodeContents_ne_panic decoders maxBodyBytes)
        · cases h
    · exact fun h => absurd h.1 hchunked

end Basecrawl.Core
