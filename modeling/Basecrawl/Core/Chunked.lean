/-
  The body of a response, capped twice.

  `readCapped` bounds the raw bytes of a response, `decodeHttpBody` the decoded ones.  On a chunked
  body the decoder wants every chunk whole, up to the one that goes past the cap: `decodeChunked_cut`
  says what it makes of any number of bytes off the front of an encoding.  So a body is capped when
  what the decoder has to see (`ChunkedResponse.needed`) is inside the raw limit, and is an error
  when it is not, whichever byte of the framing the limit falls on.

  `remaining(deadline)` is not modelled: these are calls that stay within their deadline.
-/
import Mathlib.Data.Nat.Digits.Lemmas
import Basecrawl.Core.Fetch
import Basecrawl.Lib.Panic
import Basecrawl.Lib.Segments

namespace Basecrawl.Core

open Text Hex Segments Panic Outcome

/-! ## Reading up to a limit -/

def maxHttpResponseHeaderBytes : Nat := 64 * 1024

/-- `usize::saturating_add`. -/
def saturatingAdd (w a b : Nat) : Nat := min (a + b) (2 ^ w - 1)

/-- The room of the next read. -/
def requested (maxBodyBytes : Nat) (body : Bytes) : Nat := min (maxBodyBytes - body.length) 8192

/-- The loop of `read_capped`, and the probe after it. -/
def readCappedLoop (maxBodyBytes : Nat) (segments : List Bytes) (body : Bytes) : Bytes × Bool :=
  if _h : body.length < maxBodyBytes then
    if _hend : (read (requested maxBodyBytes body) segments).1 = [] then (body, false)
    else readCappedLoop maxBodyBytes (read (requested maxBodyBytes body) segments).2
      (body ++ (read (requested maxBodyBytes body) segments).1)
  else (body, decide ((read 1 segments).1 ≠ []))
termination_by maxBodyBytes - body.length
decreasing_by
  have hpos := List.length_pos_iff.mpr _hend
  rw [List.length_append]
  omega

def readCapped (segments : List Bytes) (maxBodyBytes : Nat) : Bytes × Bool :=
  readCappedLoop maxBodyBytes segments []

/-! ## Decoding -/

/-- `encoded.windows(2).position(|bytes| bytes == b"\r\n")`. -/
def crlfPosition : Bytes → Option Nat
  | a :: b :: rest =>
    if a = 13 ∧ b = 10 then some 0 else (crlfPosition (b :: rest)).map (· + 1)
  | _ => none

def crlf : Bytes := [13, 10]

/-- `usize::from_str_radix(text, 16)`. -/
def fromStrRadix16 (w : Nat) (text : String) : Option Nat :=
  let digits := if (utf8 text).head? = some 0x2b then (utf8 text).drop 1 else utf8 text
  if digits = [] then none
  else (digits.mapM hexValue).bind fun values =>
    let n := values.foldl (fun n value => n * 16 + value) 0
    if n < 2 ^ w then some n else none

/-- The size that a chunk line announces. -/
def chunkSize (w : Nat) (line : Bytes) : Checked Error Nat := do
  let sizeText ← okOr (fromUtf8 line) (.err (.fetch "malformed chunked response length"))
  let sizeText := trim ((split sizeText ';').headD sizeText)
  okOr (fromStrRadix16 w sizeText) (.err (.fetch "malformed chunked response length"))

/-- The loop of `decode_chunked`; `size + 2` may overflow. -/
def decodeChunkedLoop (w maxBodyBytes : Nat) (encoded decoded : Bytes) :
    Checked Error (Bytes × Bool) :=
  match _hline : crlfPosition encoded with
  | none => fail (.fetch "malformed chunked response: missing chunk length terminator")
  | some lineEnd => do
    let size ← chunkSize w (encoded.take lineEnd)
    let rest := encoded.drop (lineEnd + 2)
    if size = 0 then return (decoded, false)
    else do
      let stop ← add w size 2
      if rest.length < stop ∨ (rest.drop size).take 2 ≠ crlf then
        fail (.fetch "malformed chunked response: truncated chunk")
      else
        let remaining := maxBodyBytes - decoded.length
        if size > remaining then return (decoded ++ rest.take remaining, true)
        else decodeChunkedLoop w maxBodyBytes (rest.drop stop) (decoded ++ rest.take size)
termination_by encoded.length
decreasing_by
  have hne : encoded ≠ [] := by
    rintro rfl
    cases _hline
  have hpos := List.length_pos_iff.mpr hne
  rw [List.length_drop, List.length_drop]
  omega

def decodeChunked (w : Nat) (encoded : Bytes) (maxBodyBytes : Nat) :
    Checked Error (Bytes × Bool) :=
  decodeChunkedLoop w maxBodyBytes encoded []

/-- The decompressors, each read up to a cap, and how their errors are displayed. -/
structure Decoders where
  gzip : Bytes → Nat → Except Error (Bytes × Bool)
  deflate : Bytes → Nat → Except Error (Bytes × Bool)
  zlib : Bytes → Nat → Except Error (Bytes × Bool)
  brotli : Bytes → Nat → Except Error (Bytes × Bool)
  display : Error → String

/-- One content coding taken off. -/
def decodeContent (decoders : Decoders) (encoding : String) (body : Bytes) (maxBodyBytes : Nat) :
    Except Error (Bytes × Bool) :=
  if encoding = "gzip" then decoders.gzip body maxBodyBytes
  else if encoding = "deflate" then
    match decoders.deflate body maxBodyBytes with
    | .ok decoded => .ok decoded
    | .error _ =>
      (decoders.zlib body maxBodyBytes).mapError fun error =>
        .fetch ("could not decode deflate body: " ++ decoders.display error)
  else if encoding = "br" then decoders.brotli body maxBodyBytes
  else .error (.fetch ("unsupported Content-Encoding '" ++ encoding ++ "'"))

/-- `header_contains_token`. -/
def headerContainsToken (headers : List (String × Bytes)) (name token : String) : Bool :=
  ((headerValue headers name).map fun value =>
    (split value ',').any fun candidate => eqIgnoreAsciiCase (trim candidate) token).getD false

/-- The content codings of a response, the last applied last. -/
def contentEncodings (headers : List (String × Bytes)) : List String :=
  ((split ((headerValue headers "content-encoding").getD "") ',').map
    fun encoding => asciiLower (trim encoding)).filter
    fun encoding => decide (encoding ≠ "") && decide (encoding ≠ "identity")

/-- `cap_bytes`. -/
def capBytes (body : Bytes) (maxBodyBytes : Nat) : Bytes × Bool :=
  if body.length > maxBodyBytes then (body.take maxBodyBytes, true) else (body, false)

def decodeHttpBody (w : Nat) (decoders : Decoders) (headers : List (String × Bytes)) (body : Bytes)
    (maxBodyBytes : Nat) : Checked Error (Bytes × Bool) := do
  let (body, truncated) ←
    if headerContainsToken headers "transfer-encoding" "chunked" then
      decodeChunked w body maxBodyBytes
    else pure (body, false)
  let (body, truncated) ← (contentEncodings headers).reverse.foldlM
    (fun decoded encoding => do
      let (body, decodingTruncated) ←
        (decodeContent decoders encoding decoded.1 maxBodyBytes).mapError Stop.err
      pure (body, decoded.2 || decodingTruncated))
    (body, truncated)
  let (body, bodyTruncated) := capBytes body maxBodyBytes
  return (body, truncated || bodyTruncated)

/-- The body as `fetch_http` and `fetch_https` get it: the response up to the raw limit, behind its
head. -/
def fetchBody (w : Nat) (decoders : Decoders) (headers : List (String × Bytes)) (headerLength : Nat)
    (maxBodyBytes : Nat) (segments : List Bytes) : Checked Error (Bytes × Bool) :=
  let rawLimit := saturatingAdd w maxBodyBytes maxHttpResponseHeaderBytes
  let (rawResponse, _) := readCapped segments rawLimit
  decodeHttpBody w decoders headers (rawResponse.drop headerLength) maxBodyBytes

/-! ## The raw limit -/

theorem readCappedLoop_eq {limit : Nat} {segments : List Bytes} {body : Bytes}
    (h : Filled segments) (hbody : body.length ≤ limit) :
    readCappedLoop limit segments body =
      (body ++ segments.flatten.take (limit - body.length),
        decide (limit < body.length + segments.flatten.length)) := by
  induction hn : limit - body.length using Nat.strongRecOn generalizing segments body with
  | ind n ih =>
    subst hn
    by_cases hless : body.length < limit
    · have hroom : 0 < requested limit body := by
        rw [requested]
        omega
      have hcap : requested limit body ≤ limit - body.length := Nat.min_le_left ..
      have hle := read_le (requested limit body) segments
      have hsplit := read_flatten (requested limit body) segments
      have hend := read_eq_nil_iff h hroom
      have hmore := @read_filled _ (requested limit body) h
      rw [readCappedLoop, dif_pos hless]
      generalize read (requested limit body) segments = got at hle hsplit hend hmore ⊢
      obtain ⟨got, more⟩ := got
      simp only at hle hsplit hend hmore ⊢
      by_cases hnil : got = []
      · rw [dif_pos hnil, hend.mp hnil, List.take_nil, List.append_nil, List.length_nil,
          decide_eq_false (by omega)]
      · have hpos := List.length_pos_iff.mpr hnil
        have hlen : (body ++ got).length = body.length + got.length := List.length_append
        have htake : (got ++ more.flatten).take (limit - body.length) =
            got ++ more.flatten.take (limit - (body.length + got.length)) := by
          rw [List.take_append, List.take_of_length_le (l := got) (by omega), Nat.sub_add_eq]
        rw [dif_neg hnil, ih _ (by omega) hmore (by omega) rfl, ← hsplit, htake, hlen,
          List.length_append, List.append_assoc, Nat.add_assoc]
    · have hfull : body.length = limit := by omega
      rw [readCappedLoop, dif_neg hless, hfull, Nat.sub_self, List.take_zero, List.append_nil]
      refine congrArg (Prod.mk body) (decide_eq_decide.mpr ?_)
      rw [ne_eq, read_eq_nil_iff h Nat.one_pos, ← List.length_eq_zero_iff]
      omega

/-- **The raw bytes**: as many as the limit allows, however they arrive, and whether there are
more. -/
theorem readCapped_eq {limit : Nat} {segments : List Bytes} (h : Filled segments) :
    readCapped segments limit =
      (segments.flatten.take limit, decide (limit < segments.flatten.length)) := by
  rw [readCapped, readCappedLoop_eq h (Nat.zero_le _), List.nil_append, List.length_nil, Nat.sub_zero,
    Nat.zero_add]

/-! ## Chunks -/

theorem crlfPosition_append : ∀ {xs : Bytes} {n : Nat} (ys : Bytes), crlfPosition xs = some n →
    crlfPosition (xs ++ ys) = some n
  | [], _, _, h => by cases h
  | [_], _, _, h => by cases h
  | a :: b :: rest, n, ys, h => by
    rw [crlfPosition] at h
    rw [List.cons_append, List.cons_append, crlfPosition]
    by_cases hcrlf : a = 13 ∧ b = 10
    · rw [if_pos hcrlf] at h ⊢
      exact h
    · rw [if_neg hcrlf, Option.map_eq_some_iff] at h
      obtain ⟨k, hk, rfl⟩ := h
      rw [if_neg hcrlf, ← List.cons_append, crlfPosition_append ys hk, Option.map_some]

/-- Before its last byte the terminator is not found. -/
theorem crlfPosition_take : ∀ {xs : Bytes} {n k : Nat}, crlfPosition xs = some n → k < n + 2 →
    crlfPosition (xs.take k) = none
  | [], _, _, h, _ => by cases h
  | [_], _, _, h, _ => by cases h
  | a :: b :: rest, n, k, h, hk => by
    rw [crlfPosition] at h
    rcases k with _ | _ | k
    · rfl
    · rfl
    · by_cases hcrlf : a = 13 ∧ b = 10
      · rw [if_pos hcrlf] at h
        cases h
        omega
      · rw [if_neg hcrlf, Option.map_eq_some_iff] at h
        obtain ⟨m, hm, rfl⟩ := h
        have hrest := crlfPosition_take (k := k + 1) hm (by omega)
        rw [List.take_succ_cons] at hrest
        rw [List.take_succ_cons, List.take_succ_cons, crlfPosition, if_neg hcrlf, hrest,
          Option.map_none]

/-- A line that announces a size: its terminator ends it, and the size is read from it. -/
structure SizeLine (w : Nat) (line : Bytes) (size : Nat) : Prop where
  ends : crlfPosition (line ++ crlf) = some line.length
  reads : chunkSize w line = .ok size

/-- A chunk on the wire, of data that fits in memory. -/
structure Chunk (w : Nat) where
  line : Bytes
  data : Bytes
  nonempty : data ≠ []
  fits : data.length + 2 < 2 ^ w
  size : SizeLine w line data.length

def Chunk.wire {w : Nat} (chunk : Chunk w) : Bytes :=
  chunk.line ++ crlf ++ (chunk.data ++ crlf)

def payload {w : Nat} (chunks : List (Chunk w)) : Bytes := chunks.flatMap Chunk.data

/-- Chunks, the last line, and what follows it. -/
def chunksWire {w : Nat} (chunks : List (Chunk w)) (lastLine trailer : Bytes) : Bytes :=
  chunks.flatMap Chunk.wire ++ (lastLine ++ crlf ++ trailer)

/-- The bytes the decoder has to see under a cap: the chunks up to the one that goes past it, or all
of them and the last line. -/
def needed {w : Nat} (lastLine : Bytes) : Nat → List (Chunk w) → Nat
  | _, [] => lastLine.length + 2
  | cap, chunk :: chunks =>
    chunk.wire.length +
      if cap < chunk.data.length then 0 else needed lastLine (cap - chunk.data.length) chunks

variable {w : Nat}

theorem Chunk.length_wire (chunk : Chunk w) :
    chunk.wire.length = chunk.line.length + 2 + (chunk.data.length + 2) := by
  simp only [Chunk.wire, List.length_append]
  rfl

/-- A line that is cut short is an error. -/
theorem decodeChunkedLoop_line {cap k : Nat} {line rest decoded : Bytes} {size : Nat}
    (h : SizeLine w line size) (hk : k < line.length + 2) :
    ∃ e, decodeChunkedLoop w cap ((line ++ crlf ++ rest).take k) decoded = .error e := by
  have hnone := crlfPosition_take (crlfPosition_append rest h.ends) hk
  rw [decodeChunkedLoop]
  split
  · exact ⟨_, rfl⟩
  · next lineEnd hsome =>
    rw [hnone] at hsome
    cases hsome

/-- A whole line: its size is read. -/
theorem decodeChunkedLoop_size {cap : Nat} {line rest decoded : Bytes} {size : Nat}
    (h : SizeLine w line size) :
    decodeChunkedLoop w cap (line ++ crlf ++ rest) decoded =
      if size = 0 then .ok (decoded, false)
      else (add w size 2).bind fun stop =>
        if rest.length < stop ∨ (rest.drop size).take 2 ≠ crlf then
          fail (.fetch "malformed chunked response: truncated chunk")
        else if size > cap - decoded.length then .ok (decoded ++ rest.take (cap - decoded.length), true)
        else decodeChunkedLoop w cap (rest.drop stop) (decoded ++ rest.take size) := by
  have hends := crlfPosition_append rest h.ends
  have htake : (line ++ crlf ++ rest).take line.length = line := by
    rw [List.append_assoc, List.take_left]
  have hdrop : (line ++ crlf ++ rest).drop (line.length + 2) = rest := by
    have hlen : line.length + 2 = (line ++ crlf).length := by
      rw [List.length_append]
      rfl
    rw [hlen, List.drop_left]
  rw [decodeChunkedLoop]
  split
  · next hnone =>
    rw [hends] at hnone
    cases hnone
  · next lineEnd hsome =>
    rw [hends] at hsome
    cases hsome
    rw [htake, h.reads, ok_bind]
    simp only [hdrop]
    rfl

theorem take_past {front rest : Bytes} {k : Nat} (h : front.length ≤ k) :
    (front ++ rest).take k = front ++ rest.take (k - front.length) := by
  rw [List.take_append, List.take_of_length_le h]

theorem length_terminated (line : Bytes) : (line ++ crlf).length = line.length + 2 :=
  List.length_append

/-- A chunk that is cut short behind its line is an error. -/
theorem decodeChunkedLoop_short {cap k : Nat} {chunk : Chunk w} {rest decoded : Bytes}
    (hk : k < chunk.wire.length) :
    ∃ e, decodeChunkedLoop w cap ((chunk.wire ++ rest).take k) decoded = .error e := by
  have hwire := chunk.length_wire
  have hne : chunk.data.length ≠ 0 := fun h => chunk.nonempty (List.length_eq_zero_iff.mp h)
  rw [Chunk.wire, List.append_assoc]
  rcases Nat.lt_or_ge k (chunk.line.length + 2) with hline | hline
  · exact decodeChunkedLoop_line chunk.size hline
  · rw [take_past (by rw [length_terminated]; exact hline), length_terminated,
      decodeChunkedLoop_size chunk.size, if_neg hne, add_eq rfl chunk.fits]
    refine ⟨_, if_pos (.inl ?_)⟩
    rw [List.length_take]
    omega

/-- A whole chunk: a prefix of its data when it goes past the cap, and on to the next otherwise. -/
theorem decodeChunkedLoop_chunk {cap : Nat} {chunk : Chunk w} {rest decoded : Bytes} :
    decodeChunkedLoop w cap (chunk.wire ++ rest) decoded =
      if cap - decoded.length < chunk.data.length then
        .ok (decoded ++ chunk.data.take (cap - decoded.length), true)
      else decodeChunkedLoop w cap rest (decoded ++ chunk.data) := by
  have hne : chunk.data.length ≠ 0 := fun h => chunk.nonempty (List.length_eq_zero_iff.mp h)
  have hlen := length_terminated chunk.data
  have hcrlf : ((chunk.data ++ crlf ++ rest).drop chunk.data.length).take 2 = crlf := by
    rw [List.append_assoc, List.drop_left]
    rfl
  have hwhole : ¬ ((chunk.data ++ crlf ++ rest).length < chunk.data.length + 2 ∨
      ((chunk.data ++ crlf ++ rest).drop chunk.data.length).take 2 ≠ crlf) := by
    rintro (hshort | hother)
    · rw [List.length_append, hlen] at hshort
      omega
    · exact hother hcrlf
  rw [Chunk.wire, List.append_assoc, decodeChunkedLoop_size chunk.size, if_neg hne,
    add_eq rfl chunk.fits]
  refine (if_neg hwhole).trans ?_
  by_cases hpast : cap - decoded.length < chunk.data.length
  · rw [if_pos hpast, if_pos hpast, List.append_assoc,
      List.take_append_of_le_length (Nat.le_of_lt hpast)]
  · rw [if_neg hpast, if_neg hpast, ← hlen, List.drop_left, List.append_assoc, List.take_left]

/-- **What the decoder makes of the first `k` bytes of an encoding**: the capped payload when it has
seen what it needs, and an error otherwise. -/
theorem decodeChunked_cut {cap k : Nat} {chunks : List (Chunk w)} {lastLine trailer decoded : Bytes}
    (hlast : SizeLine w lastLine 0) (hdecoded : decoded.length ≤ cap) :
    (needed lastLine (cap - decoded.length) chunks ≤ k →
      decodeChunkedLoop w cap ((chunksWire chunks lastLine trailer).take k) decoded =
        .ok (decoded ++ (payload chunks).take (cap - decoded.length),
          decide (cap - decoded.length < (payload chunks).length))) ∧
    (k < needed lastLine (cap - decoded.length) chunks →
      ∃ e, decodeChunkedLoop w cap ((chunksWire chunks lastLine trailer).take k) decoded =
        .error e) := by
  induction chunks generalizing k decoded with
  | nil =>
    rw [chunksWire, List.flatMap_nil, List.nil_append, needed]
    refine ⟨fun h => ?_, decodeChunkedLoop_line hlast⟩
    rw [take_past (by rw [length_terminated]; exact h), decodeChunkedLoop_size hlast, if_pos rfl]
    simp [payload]
  | cons chunk chunks ih =>
    have hsplit : chunksWire (chunk :: chunks) lastLine trailer =
        chunk.wire ++ chunksWire chunks lastLine trailer := by
      rw [chunksWire, chunksWire, List.flatMap_cons, List.append_assoc]
    have hpayload : payload (chunk :: chunks) = chunk.data ++ payload chunks := rfl
    rw [hsplit, needed, hpayload]
    rcases Nat.lt_or_ge k chunk.wire.length with hshort | hwhole
    · exact ⟨fun h => absurd h (by omega), fun _ => decodeChunkedLoop_short hshort⟩
    rw [take_past hwhole, decodeChunkedLoop_chunk]
    by_cases hpast : cap - decoded.length < chunk.data.length
    · rw [if_pos hpast, if_pos hpast, List.take_append_of_le_length (Nat.le_of_lt hpast),
        List.length_append, decide_eq_true (by omega)]
      exact ⟨fun _ => rfl, fun h => absurd h (by omega)⟩
    · rw [if_neg hpast, if_neg hpast]
      have hlen : (decoded ++ chunk.data).length = decoded.length + chunk.data.length :=
        List.length_append
      have hrest := @ih (k - chunk.wire.length) (decoded ++ chunk.data) (by omega)
      rw [hlen, Nat.sub_add_eq] at hrest
      have htake : (chunk.data ++ payload chunks).take (cap - decoded.length) =
          chunk.data ++ (payload chunks).take (cap - decoded.length - chunk.data.length) :=
        take_past (by omega)
      have hdecide : decide (cap - decoded.length < (chunk.data ++ payload chunks).length) =
          decide (cap - decoded.length - chunk.data.length < (payload chunks).length) := by
        rw [List.length_append]
        exact decide_eq_decide.mpr (by omega)
      rw [htake, hdecide, ← List.append_assoc]
      exact ⟨fun h => hrest.1 (by omega), fun h => hrest.2 (by omega)⟩

/-! ## The response -/

/-- A chunked response without content coding: its head, its chunks and last line, what follows
them, and the segments it arrives in. -/
structure ChunkedResponse (w : Nat) where
  head : Bytes
  headers : List (String × Bytes)
  chunked : headerContainsToken headers "transfer-encoding" "chunked" = true
  plain : contentEncodings headers = []
  chunks : List (Chunk w)
  lastLine : Bytes
  last : SizeLine w lastLine 0
  trailer : Bytes
  segments : List Bytes
  filled : Filled segments
  whole : segments.flatten = head ++ chunksWire chunks lastLine trailer

/-- The payload. -/
def ChunkedResponse.payload (response : ChunkedResponse w) : Bytes :=
  Core.payload response.chunks

/-- The raw bytes the decoder gets: what the raw limit leaves behind the head. -/
def ChunkedResponse.bodyLimit (response : ChunkedResponse w) (maxBodyBytes : Nat) : Nat :=
  saturatingAdd w maxBodyBytes maxHttpResponseHeaderBytes - response.head.length

/-- The raw bytes the decoder has to see. -/
def ChunkedResponse.needed (response : ChunkedResponse w) (maxBodyBytes : Nat) : Nat :=
  Core.needed response.lastLine maxBodyBytes response.chunks

/-- Without content coding the decoded chunks are the body, and the cap on them changes nothing. -/
theorem decodeHttpBody_chunked {decoders : Decoders} {headers : List (String × Bytes)} {body : Bytes}
    {maxBodyBytes : Nat}
    (hchunked : headerContainsToken headers "transfer-encoding" "chunked" = true)
    (hplain : contentEncodings headers = []) :
    decodeHttpBody w decoders headers body maxBodyBytes =
      (decodeChunked w body maxBodyBytes).map fun decoded =>
        ((capBytes decoded.1 maxBodyBytes).1, decoded.2 || (capBytes decoded.1 maxBodyBytes).2) := by
  rw [decodeHttpBody, if_pos hchunked, hplain]
  cases decodeChunked w body maxBodyBytes with
  | error e => rfl
  | ok decoded => rfl

theorem capBytes_take (body : Bytes) (maxBodyBytes : Nat) :
    capBytes (body.take maxBodyBytes) maxBodyBytes = (body.take maxBodyBytes, false) :=
  if_neg (Nat.not_lt.mpr (List.length_take_le ..))

/-- The decoder gets the front of the encoding. -/
theorem ChunkedResponse.fetchBody_eq (response : ChunkedResponse w) (decoders : Decoders)
    (maxBodyBytes : Nat) :
    fetchBody w decoders response.headers response.head.length maxBodyBytes response.segments =
      (decodeChunkedLoop w maxBodyBytes
        ((chunksWire response.chunks response.lastLine response.trailer).take
          (response.bodyLimit maxBodyBytes)) []).map fun decoded =>
        ((capBytes decoded.1 maxBodyBytes).1, decoded.2 || (capBytes decoded.1 maxBodyBytes).2) := by
  rw [fetchBody, readCapped_eq response.filled, response.whole]
  simp only
  rw [decodeHttpBody_chunked response.chunked response.plain, List.drop_take, List.drop_left]
  rfl

/-- **The body is capped when the decoder sees what it needs.**  The result is the payload up to the
cap, marked as truncated when there is more of it, exactly when the chunks up to the one that goes
past the cap, or all of them and the last line, are within the raw limit. -/
theorem bodyCap_iff (decoders : Decoders) (response : ChunkedResponse w) (maxBodyBytes : Nat) :
    fetchBody w decoders response.headers response.head.length maxBodyBytes response.segments =
      .ok (response.payload.take (min response.payload.length maxBodyBytes),
        decide (maxBodyBytes < response.payload.length)) ↔
    response.needed maxBodyBytes ≤ response.bodyLimit maxBodyBytes := by
  have hmin : response.payload.take (min response.payload.length maxBodyBytes) =
      response.payload.take maxBodyBytes := by
    rw [Nat.min_comm, ← List.take_take, List.take_length]
  obtain ⟨henough, hshort⟩ := @decodeChunked_cut _ maxBodyBytes (response.bodyLimit maxBodyBytes)
    response.chunks _ response.trailer [] response.last (Nat.zero_le maxBodyBytes)
  rw [List.length_nil, Nat.sub_zero] at henough hshort
  rw [response.fetchBody_eq, hmin]
  constructor
  · intro h
    by_contra hcut
    obtain ⟨e, he⟩ := hshort (Nat.not_le.mp hcut)
    rw [he] at h
    cases h
  · intro h
    rw [henough h, List.nil_append]
    refine congrArg Except.ok ?_
    simp only [capBytes_take, Bool.or_false]
    rfl

/-! ## Canonical chunks -/

/-- The hex digits of `n`, without leading zeros. -/
def hexDigits (n : Nat) : List Nat := if n = 0 then [0] else (Nat.digits 16 n).reverse

/-- `n` in lower-case hex. -/
def hexText (n : Nat) : String := String.ofList ((hexDigits n).map hexDigit)

theorem hexDigits_lt {n d : Nat} (h : d ∈ hexDigits n) : d < 16 := by
  rw [hexDigits] at h
  split at h
  · rw [List.mem_singleton.mp h]
    decide
  · exact Nat.digits_lt_base (by decide) (List.mem_reverse.mp h)

theorem hexDigits_ne_nil (n : Nat) : hexDigits n ≠ [] := by
  rw [hexDigits]
  split
  · exact List.cons_ne_nil _ _
  · next h =>
    rw [ne_eq, List.reverse_eq_nil_iff, Nat.digits_eq_nil_iff_eq_zero]
    exact h

theorem foldl_hexDigits (n : Nat) : (hexDigits n).foldl (fun n value => n * 16 + value) 0 = n := by
  rw [hexDigits]
  split
  · next h => exact h.symm
  · rw [List.foldl_reverse]
    calc (Nat.digits 16 n).foldr (fun value n => n * 16 + value) 0
        = Nat.ofDigits 16 (Nat.digits 16 n) := by
          rw [Nat.ofDigits_eq_foldr]
          refine congrArg (fun f => List.foldr f 0 (Nat.digits 16 n)) ?_
          funext value m
          rw [Nat.cast_id, Nat.add_comm, Nat.mul_comm]
      _ = n := Nat.ofDigits_digits 16 n

/-- Digits as they are sent, and read. -/
theorem mapM_hexValue : ∀ {digits : List Nat}, (∀ d ∈ digits, d < 16) →
    (utf8 (String.ofList (digits.map hexDigit))).mapM hexValue = some digits
  | [], _ => rfl
  | d :: digits, h => by
    obtain ⟨hd, hdigits⟩ := List.forall_mem_cons.mp h
    obtain ⟨b, hb, hvalue⟩ := hexValue_hexDigit hd
    have ih := mapM_hexValue hdigits
    rw [utf8_eq_flatMap, String.toList_ofList] at ih
    rw [utf8_eq_flatMap, String.toList_ofList, List.map_cons, List.flatMap_cons, hb,
      List.singleton_append, List.mapM_cons, hvalue, ih]
    rfl

theorem isSome_of_mapM : ∀ {bytes : Bytes} {values : List Nat},
    bytes.mapM hexValue = some values → ∀ b ∈ bytes, (hexValue b).isSome = true
  | [], _, _, _, hmem => absurd hmem List.not_mem_nil
  | b :: bytes, values, h, c, hmem => by
    rw [List.mapM_cons] at h
    obtain ⟨value, hvalue, h⟩ := Option.bind_eq_some_iff.mp h
    obtain ⟨rest, hrest, -⟩ := Option.bind_eq_some_iff.mp h
    rcases List.mem_cons.mp hmem with rfl | hmem
    · rw [hvalue]
      rfl
    · exact isSome_of_mapM hrest c hmem

/-- A line without a carriage return ends at its terminator. -/
theorem crlfPosition_crlf : ∀ {line : Bytes}, 13 ∉ line →
    crlfPosition (line ++ crlf) = some line.length
  | [], _ => rfl
  | [b], _ => by
    have hb : ¬ (b = 13 ∧ (13 : UInt8) = 10) := fun hab => absurd hab.2 (by decide)
    rw [crlf, List.singleton_append, crlfPosition, if_neg hb]
    rfl
  | a :: b :: line, h => by
    have ha : ¬ (a = 13 ∧ b = 10) := fun hab => h (hab.1 ▸ List.mem_cons_self)
    have ih := @crlfPosition_crlf (b :: line) fun hmem => h (List.mem_cons_of_mem a hmem)
    rw [List.cons_append] at ih
    rw [List.cons_append, List.cons_append, crlfPosition, if_neg ha, ih]
    rfl

theorem hexText_plain (n : Nat) : ∀ c ∈ (hexText n).toList, c ≠ ';' ∧ isWhitespace c = false := by
  intro c hc
  rw [hexText, String.toList_ofList] at hc
  obtain ⟨d, hd, rfl⟩ := List.mem_map.mp hc
  have hall : ("0123456789abcdef".toList.all fun c =>
      decide (c ≠ ';' ∧ isWhitespace c = false)) = true := by decide
  exact of_decide_eq_true (List.all_eq_true.mp hall _ (hexDigit_lower (hexDigits_lt hd)))

theorem fromStrRadix16_hexText {n : Nat} (h : n < 2 ^ w) : fromStrRadix16 w (hexText n) = some n := by
  have hvalues : (utf8 (hexText n)).mapM hexValue = some (hexDigits n) :=
    mapM_hexValue fun _ => hexDigits_lt
  have hdigits := isSome_of_mapM hvalues
  have hplus : (utf8 (hexText n)).head? ≠ some 0x2b := by
    intro hhead
    have hsome := hdigits _ (List.mem_of_mem_head? hhead)
    exact absurd hsome (by decide)
  have hne : utf8 (hexText n) ≠ [] := by
    intro hnil
    rw [hnil] at hvalues
    exact hexDigits_ne_nil n (Option.some.inj hvalues).symm
  rw [fromStrRadix16, if_neg hplus]
  simp only
  rw [if_neg hne, hvalues, Option.bind_some, foldl_hexDigits, if_pos h]

/-- A size in canonical hex is a size line. -/
theorem sizeLine_hexText {n : Nat} (h : n < 2 ^ w) : SizeLine w (utf8 (hexText n)) n := by
  have hplain := hexText_plain n
  refine ⟨crlfPosition_crlf fun hmem => ?_, ?_⟩
  · have hvalues : (utf8 (hexText n)).mapM hexValue = some (hexDigits n) :=
      mapM_hexValue fun _ => hexDigits_lt
    exact absurd (isSome_of_mapM hvalues 13 hmem) (by decide)
  · have htext : fromUtf8 (utf8 (hexText n)) = some (hexText n) := fromUtf8_eq_some.mpr rfl
    have hsplit : split (hexText n) ';' = [hexText n] :=
      split_eq_singleton fun hmem => (hplain ';' hmem).1 rfl
    rw [chunkSize, htext, okOr_some, ok_bind, hsplit]
    simp only [List.headD_cons]
    rw [trim_eq_self fun c hc => (hplain c hc).2, fromStrRadix16_hexText h, okOr_some]

/-- The chunk of some data, with the size line that servers write. -/
def Chunk.ofData (data : Bytes) (hne : data ≠ []) (hfits : data.length + 2 < 2 ^ w) : Chunk w where
  line := utf8 (hexText data.length)
  data := data
  nonempty := hne
  fits := hfits
  size := sizeLine_hexText (Nat.lt_of_le_of_lt (Nat.le_add_right _ 2) hfits)

/-! ## A chunk that the raw limit cuts -/

/-- 64 KiB of data. -/
def largeData : Bytes := List.replicate 65536 0

theorem largeData_length : largeData.length = 65536 := List.length_replicate

theorem largeData_ne_nil : largeData ≠ [] := by
  intro h
  have hlen := largeData_length
  rw [h] at hlen
  cases hlen

theorem largeData_fits : largeData.length + 2 < 2 ^ 64 := by
  rw [largeData_length]
  decide

def largeChunk : Chunk 64 := Chunk.ofData largeData largeData_ne_nil largeData_fits

def chunkedHead : Bytes := utf8 "HTTP/1.1 200 OK\r\nTransfer-Encoding: chunked\r\n\r\n"

def chunkedHeaders : List (String × Bytes) := [("transfer-encoding", utf8 "chunked")]

def chunkedBytes : Bytes := chunkedHead ++ chunksWire [largeChunk] (utf8 (hexText 0)) crlf

theorem filled_single {bytes : Bytes} (h : bytes ≠ []) : Filled [bytes] := by
  intro segment hsegment
  rwa [List.mem_singleton.mp hsegment]

theorem chunkedBytes_ne_nil : chunkedBytes ≠ [] :=
  List.append_ne_nil_of_left_ne_nil (by decide) _

theorem chunkedBytes_whole :
    [chunkedBytes].flatten = chunkedHead ++ chunksWire [largeChunk] (utf8 (hexText 0)) crlf := by
  rw [List.flatten_singleton]
  rfl

theorem chunkedHeaders_chunked :
    headerContainsToken chunkedHeaders "transfer-encoding" "chunked" = true := by decide

theorem chunkedHeaders_plain : contentEncodings chunkedHeaders = [] := by decide

/-- One chunk of 64 KiB. -/
def largeResponse : ChunkedResponse 64 where
  head := chunkedHead
  headers := chunkedHeaders
  chunked := chunkedHeaders_chunked
  plain := chunkedHeaders_plain
  chunks := [largeChunk]
  lastLine := utf8 (hexText 0)
  last := sizeLine_hexText (Nat.two_pow_pos 64)
  trailer := crlf
  segments := [chunkedBytes]
  filled := filled_single chunkedBytes_ne_nil
  whole := chunkedBytes_whole

theorem largeResponse_cut : largeResponse.bodyLimit 1 < largeResponse.needed 1 := by
  have hlimit : largeResponse.bodyLimit 1 ≤ 1 + maxHttpResponseHeaderBytes :=
    Nat.le_trans (Nat.sub_le _ _) (Nat.min_le_left _ _)
  have hchunks : largeResponse.chunks = [largeChunk] := rfl
  have hdata : largeChunk.data.length = 65536 := largeData_length
  have hneeded : largeResponse.needed 1 = largeChunk.wire.length := by
    rw [ChunkedResponse.needed, hchunks, needed, hdata, if_pos (by decide), Nat.add_zero]
  have hwire := largeChunk.length_wire
  have hheader : maxHttpResponseHeaderBytes = 65536 := rfl
  rw [hneeded]
  omega

/-- Decoders that refuse everything. -/
def noDecoders : Decoders where
  gzip _ _ := .error (.fetch "gzip")
  deflate _ _ := .error (.fetch "deflate")
  zlib _ _ := .error (.fetch "zlib")
  brotli _ _ := .error (.fetch "br")
  display _ := ""

/-- Under a cap of one byte the body of that response is an error, not its first byte. -/
theorem bodyCap_largeResponse :
    ¬ ∀ (response : ChunkedResponse 64) (maxBodyBytes : Nat),
      fetchBody 64 noDecoders response.headers response.head.length maxBodyBytes
        response.segments =
      .ok (response.payload.take (min response.payload.length maxBodyBytes),
        decide (maxBodyBytes < response.payload.length)) := by
  intro h
  obtain ⟨-, hshort⟩ := @decodeChunked_cut _ 1 (largeResponse.bodyLimit 1) largeResponse.chunks _
    largeResponse.trailer [] largeResponse.last (Nat.zero_le 1)
  obtain ⟨e, he⟩ := hshort largeResponse_cut
  have hok := h largeResponse 1
  rw [largeResponse.fetchBody_eq, he] at hok
  cases hok

end Basecrawl.Core
