/-
  Reading a request off a connection.

  The head ends at the first blank line; the caps are looked at after each read, on what has been
  read by then.

  1. **What is read (`readHttpRequest_ok`)** — a run that returns has read the head and as much of
     the announced body as there is, wherever the reads ended.
  2. **The head** — a head of at most 65537 bytes is always read (`readHead_short`), one of more than
     67584 never (`readHead_long`), and between the two it depends on where a read ended.
  3. **The body** — a read goes past the body cap only from inside the announced length to beyond the
     cap, which takes `maxBody + 2 - contentLength` bytes at least (`readBody_returns`).
  4. **Both (`sameForAllSplits_iff`)** — where neither can happen, all splits agree; where one can,
     there are two that do not: byte by byte, and byte by byte but for one longer read.
-/
import Mathlib.Algebra.Group.Nat.Defs
import Basecrawl.Core.Serve
import Basecrawl.Lib.Lossy
import Basecrawl.Lib.Numerals
import Basecrawl.Lib.Outcome
import Basecrawl.Lib.Windows

namespace Basecrawl.Core.Serve

open Text Numerals Outcome Windows

/-! ## The head -/

/-- `b"\r\n\r\n"`. -/
def terminator : Bytes := [13, 10, 13, 10]

/-- `str::split("\r\n")`. -/
def splitCrlf : List Char → List (List Char)
  | '\r' :: '\n' :: rest => [] :: splitCrlf rest
  | c :: rest => (splitCrlf rest).modifyHead (c :: ·)
  | [] => [[]]

/-- A header line; one without a colon is passed over. -/
def readField (line : String) : Option (String × String) :=
  if line = "" then none
  else (splitOnce line ':').map fun field => (trim field.1, trim field.2)

/-- The content length after a header. -/
def announce (w contentLength : Nat) (field : String × String) : Nat :=
  if eqIgnoreAsciiCase field.1 "content-length" then (parseUnsigned (2 ^ w) field.2).getD 0
  else contentLength

structure RequestHead where
  method : String
  path : String
  headers : List (String × String)
  contentLength : Nat

/-- `read_http_request` on the bytes of the head. -/
def parseHead (w : Nat) (headerBytes : Bytes) : Except Error RequestHead := do
  let lines := (splitCrlf (fromUtf8Lossy headerBytes).toList).map String.ofList
  let parts := splitWhitespace (lines.headD "")
  let method ← okOr parts[0]? (.io "missing method")
  let path ← okOr parts[1]? (.io "missing path")
  let headers := lines.tail.filterMap readField
  return ⟨method, path, headers, headers.foldl (announce w) 0⟩

/-! ## The reads -/

/-- The first loop, on what the reads to come return; behind them is the end of the stream. -/
def readHead : List Bytes → Bytes → Except Error (Bytes × List Bytes)
  | [], buf => .ok (buf, [])
  | segment :: segments, buf =>
    let buf := buf ++ segment
    if (position terminator buf).isSome then .ok (buf, segments)
    else if buf.length > 64 * 1024 then .error (.io "HTTP headers too large")
    else readHead segments buf

/-- The second loop. -/
def readBody (contentLength maxBody : Nat) : List Bytes → Bytes → Except Error Bytes
  | [], body => .ok body
  | segment :: segments, body =>
    if body.length < contentLength then
      let body := body ++ segment
      if body.length > maxBody then
        .error (.invalidProductOption "request body exceeds max")
      else readBody contentLength maxBody segments body
    else .ok body

structure HttpRequestParts where
  method : String
  path : String
  headers : List (String × String)
  body : Bytes

/-- `read_http_request`. -/
def readHttpRequest (w maxBody : Nat) (segments : List Bytes) : Except Error HttpRequestParts := do
  let (buf, segments) ← readHead segments []
  if buf.isEmpty then .error (.io "empty request")
  else do
    let headerEnd ← okOr (position terminator buf) (.io "incomplete HTTP headers")
    let head ← parseHead w (buf.take headerEnd)
    if head.contentLength > maxBody then
      .error (.invalidProductOption ("content-length " ++ Nat.repr head.contentLength ++
        " exceeds max body " ++ Nat.repr maxBody))
    else do
      let body ← readBody head.contentLength maxBody segments (buf.drop (headerEnd + 4))
      return ⟨head.method, head.path, head.headers, body.take head.contentLength⟩

/-- A request cut into read results. -/
structure Split (request : Bytes) where
  segments : List Bytes
  whole : segments.flatten = request
  sized : ∀ segment ∈ segments, 1 ≤ segment.length ∧ segment.length ≤ 2048

/-- The same parts, or an error both times. -/
def SameForAllSplits (w maxBody : Nat) (request : Bytes) : Prop :=
  ∀ s t : Split request,
    (readHttpRequest w maxBody s.segments).toOption = (readHttpRequest w maxBody t.segments).toOption

/-! ## What is read -/

variable {w maxBody contentLength headerEnd n : Nat} {request buf body : Bytes}
  {segments : List Bytes}

theorem terminator_ne_nil : terminator ≠ [] := List.cons_ne_nil _ _

theorem readHead_ok : ∀ {segments : List Bytes} {buf buf' : Bytes} {rest : List Bytes},
    readHead segments buf = .ok (buf', rest) → buf' ++ rest.flatten = buf ++ segments.flatten
  | [], buf, buf', rest, h => by
    cases h
    rfl
  | segment :: segments, buf, buf', rest, h => by
    rw [readHead] at h
    split at h
    · cases h
      rw [List.flatten_cons, List.append_assoc]
    · split at h
      · cases h
      · rw [readHead_ok h, List.flatten_cons, List.append_assoc]

theorem readBody_ok : ∀ {segments : List Bytes} {body body' : Bytes},
    readBody contentLength maxBody segments body = .ok body' →
      body'.take contentLength = (body ++ segments.flatten).take contentLength
  | [], body, body', h => by
    cases h
    rw [List.flatten_nil, List.append_nil]
  | segment :: segments, body, body', h => by
    rw [readBody] at h
    split at h
    · simp only at h
      split at h
      · cases h
      · rw [readBody_ok h, List.flatten_cons, List.append_assoc]
    · next hfull =>
      cases h
      rw [List.take_append_of_le_length (Nat.not_lt.mp hfull)]

/-- **What a run that returns has read.** -/
theorem readHttpRequest_ok {parts : HttpRequestParts}
    (h : readHttpRequest w maxBody segments = .ok parts) :
    ∃ headerEnd head, position terminator segments.flatten = some headerEnd ∧
      parseHead w (segments.flatten.take headerEnd) = .ok head ∧ head.contentLength ≤ maxBody ∧
      parts = ⟨head.method, head.path, head.headers,
        (segments.flatten.drop (headerEnd + 4)).take head.contentLength⟩ := by
  obtain ⟨⟨buf, rest⟩, hread, h⟩ := bind_eq_ok.mp h
  have hwhole := readHead_ok hread
  rw [List.nil_append] at hwhole
  simp only at h
  split at h
  · cases h
  · obtain ⟨headerEnd, hend, h⟩ := bind_eq_ok.mp h
    rw [okOr_eq_ok] at hend
    obtain ⟨head, hhead, h⟩ := bind_eq_ok.mp h
    have hlen := position_le hend
    have hfour : terminator.length = 4 := rfl
    split at h
    · cases h
    · next hcap =>
      obtain ⟨body, hbody, h⟩ := bind_eq_ok.mp h
      cases h
      have htake : segments.flatten.take headerEnd = buf.take headerEnd := by
        rw [← hwhole, List.take_append_of_le_length (by omega)]
      have hdrop : segments.flatten.drop (headerEnd + 4) =
          buf.drop (headerEnd + 4) ++ rest.flatten := by
        rw [← hwhole, List.drop_append_of_le_length (by omega)]
      refine ⟨headerEnd, head, ?_, ?_, Nat.not_lt.mp hcap, ?_⟩
      · rw [← hwhole]
        exact position_append hend _
      · rw [htake]
        exact hhead
      · rw [hdrop, readBody_ok hbody]

/-! ## The head -/

/-- The head is read with its terminator, and what is left are reads to come. -/
theorem readHead_found : ∀ {segments : List Bytes} {buf buf' : Bytes} {rest : List Bytes},
    readHead segments buf = .ok (buf', rest) →
      position terminator (buf ++ segments.flatten) = some headerEnd →
        position terminator buf' = some headerEnd ∧ rest <:+ segments
  | [], buf, buf', rest, h, hend => by
    cases h
    rw [List.flatten_nil, List.append_nil] at hend
    exact ⟨hend, List.suffix_refl _⟩
  | segment :: segments, buf, buf', rest, h, hend => by
    rw [List.flatten_cons, ← List.append_assoc] at hend
    rw [readHead] at h
    split at h
    · next hsome =>
      cases h
      obtain ⟨n, hn⟩ := Option.isSome_iff_exists.mp hsome
      rw [position_append hn] at hend
      rw [hn, hend]
      exact ⟨rfl, List.suffix_cons _ _⟩
    · split at h
      · cases h
      · obtain ⟨hfound, hrest⟩ := readHead_found h hend
        exact ⟨hfound, hrest.trans (List.suffix_cons _ _)⟩

/-- Behind the cap there is no room to miss the end of a short head. -/
theorem readHead_short (hshort : headerEnd + 4 ≤ 65537) :
    ∀ {segments : List Bytes} {buf : Bytes},
      position terminator (buf ++ segments.flatten) = some headerEnd →
        ∃ read, readHead segments buf = .ok read
  | [], buf, _ => ⟨_, rfl⟩
  | segment :: segments, buf, hend => by
    rw [List.flatten_cons, ← List.append_assoc] at hend
    rw [readHead]
    split
    · exact ⟨_, rfl⟩
    · next hnone =>
      have hunder : ¬ (buf ++ segment).length > 64 * 1024 := by
        intro hover
        refine hnone (Option.isSome_iff_exists.mpr ⟨headerEnd, ?_⟩)
        refine position_front terminator_ne_nil hend ?_
        show headerEnd + 4 ≤ _
        omega
      rw [if_neg hunder]
      exact readHead_short hshort hend

/-- A read cannot jump from under the cap to the end of a long head. -/
theorem readHead_long (hlong : 67584 < headerEnd + 4) :
    ∀ {segments : List Bytes} {buf : Bytes}, (∀ segment ∈ segments, segment.length ≤ 2048) →
      buf.length ≤ 65536 → position terminator (buf ++ segments.flatten) = some headerEnd →
        ∃ e, readHead segments buf = .error e
  | [], buf, _, hbuf, hend => by
    have hle := position_le hend
    rw [List.flatten_nil, List.append_nil] at hle
    have hfour : terminator.length = 4 := rfl
    omega
  | segment :: segments, buf, hsized, hbuf, hend => by
    obtain ⟨hsegment, hrest⟩ := List.forall_mem_cons.mp hsized
    have hlen : (buf ++ segment).length = buf.length + segment.length := List.length_append
    rw [List.flatten_cons, ← List.append_assoc] at hend
    have hnone : ¬ (position terminator (buf ++ segment)).isSome = true := by
      intro hsome
      obtain ⟨n, hn⟩ := Option.isSome_iff_exists.mp hsome
      rw [position_append hn] at hend
      obtain rfl := Option.some.inj hend
      have hle := position_le hn
      have hfour : terminator.length = 4 := rfl
      omega
    rw [readHead, if_neg hnone]
    split
    · exact ⟨_, rfl⟩
    · next hunder => exact readHead_long hlong hrest (by omega) hend

/-! ## The body -/

/-- No read goes past the cap: nothing is announced, nothing is there, or no read is long enough. -/
theorem readBody_returns {longest : Nat} :
    ∀ {segments : List Bytes} {body : Bytes}, (∀ segment ∈ segments, segment.length ≤ longest) →
      contentLength = 0 ∨ (body ++ segments.flatten).length ≤ maxBody ∨
        contentLength + longest ≤ maxBody + 1 →
          ∃ read, readBody contentLength maxBody segments body = .ok read
  | [], _, _, _ => ⟨_, rfl⟩
  | segment :: segments, body, hsized, hroom => by
    obtain ⟨hsegment, hrest⟩ := List.forall_mem_cons.mp hsized
    have hlen : (body ++ segment).length = body.length + segment.length := List.length_append
    rw [List.flatten_cons, ← List.append_assoc, List.length_append] at hroom
    rw [readBody]
    split
    · next hless =>
      have hunder : ¬ (body ++ segment).length > maxBody := by omega
      rw [if_neg hunder]
      refine readBody_returns hrest ?_
      rw [List.length_append]
      exact hroom
    · exact ⟨_, rfl⟩

/-- What follows the head. -/
theorem readHttpRequest_eq {rest : List Bytes} {head : RequestHead}
    (hread : readHead segments [] = .ok (buf, rest))
    (hend : position terminator segments.flatten = some headerEnd)
    (hhead : parseHead w (segments.flatten.take headerEnd) = .ok head)
    (hcap : head.contentLength ≤ maxBody) :
    readHttpRequest w maxBody segments =
      (readBody head.contentLength maxBody rest (buf.drop (headerEnd + 4))).map fun body =>
        ⟨head.method, head.path, head.headers, body.take head.contentLength⟩ := by
  obtain ⟨hfound, -⟩ := readHead_found hread hend
  have hwhole := readHead_ok hread
  have hle := position_le hfound
  have hfour : terminator.length = 4 := rfl
  rw [List.nil_append] at hwhole
  have hne : ¬ buf.isEmpty = true := by
    rw [List.isEmpty_iff]
    rintro rfl
    cases hfound
  have htake : segments.flatten.take headerEnd = buf.take headerEnd := by
    rw [← hwhole, List.take_append_of_le_length (by omega)]
  rw [htake] at hhead
  rw [readHttpRequest, hread, ok_bind]
  simp only
  rw [if_neg hne, hfound, okOr_some, ok_bind, hhead, ok_bind, if_neg (Nat.not_lt.mpr hcap)]
  cases readBody head.contentLength maxBody rest (buf.drop (headerEnd + 4)) with
  | error e => rfl
  | ok body => rfl

/-! ## Byte by byte -/

/-- One read for each byte. -/
def singles (bytes : Bytes) : List Bytes := bytes.map fun b => [b]

theorem flatten_singles (bytes : Bytes) : (singles bytes).flatten = bytes := by
  induction bytes with
  | nil => rfl
  | cons b bytes ih =>
    show [b] ++ (singles bytes).flatten = b :: bytes
    rw [ih]
    rfl

theorem singles_append (xs ys : Bytes) : singles (xs ++ ys) = singles xs ++ singles ys :=
  List.map_append

/-- The byte at a place, between those before and those behind. -/
theorem singles_at {bytes : Bytes} {n : Nat} (h : n < bytes.length) :
    singles bytes = singles (bytes.take n) ++ ([bytes[n]] :: singles (bytes.drop (n + 1))) := by
  have hcons : bytes[n] :: bytes.drop (n + 1) = bytes.drop n := List.getElem_cons_drop h
  have hone : [bytes[n]] :: singles (bytes.drop (n + 1)) = singles (bytes[n] :: bytes.drop (n + 1)) :=
    rfl
  rw [hone, ← singles_append, hcons, List.take_append_drop]

theorem length_of_mem_singles {bytes segment : Bytes} (h : segment ∈ singles bytes) :
    segment.length = 1 := by
  obtain ⟨b, -, rfl⟩ := List.mem_map.mp h
  rfl

/-- Bytes without the terminator, up to the cap. -/
theorem readHead_walk (rest : List Bytes) : ∀ {xs buf : Bytes},
    position terminator (buf ++ xs) = none → (buf ++ xs).length ≤ 65536 →
      readHead (singles xs ++ rest) buf = readHead rest (buf ++ xs)
  | [], buf, _, _ => by rw [List.append_nil]; rfl
  | x :: xs, buf, hnone, hlen => by
    have hsplit : buf ++ x :: xs = buf ++ [x] ++ xs := by
      rw [List.append_assoc, List.singleton_append]
    rw [hsplit] at hnone hlen ⊢
    have hfirst : ¬ (position terminator (buf ++ [x])).isSome = true := by
      intro hsome
      obtain ⟨n, hn⟩ := Option.isSome_iff_exists.mp hsome
      rw [position_append hn] at hnone
      cases hnone
    have hunder : ¬ (buf ++ [x]).length > 64 * 1024 := by
      rw [List.length_append] at hlen
      omega
    show readHead ([x] :: (singles xs ++ rest)) buf = _
    rw [readHead, if_neg hfirst, if_neg hunder, readHead_walk rest hnone hlen]

/-- Bytes of the announced body. -/
theorem readBody_walk (rest : List Bytes) (hcap : contentLength ≤ maxBody) : ∀ {xs body : Bytes},
    body.length + xs.length ≤ contentLength →
      readBody contentLength maxBody (singles xs ++ rest) body =
        readBody contentLength maxBody rest (body ++ xs)
  | [], body, _ => by rw [List.append_nil]; rfl
  | x :: xs, body, hlen => by
    rw [List.length_cons] at hlen
    have hone : (body ++ [x]).length = body.length + 1 := List.length_append
    have hsplit : body ++ x :: xs = body ++ [x] ++ xs := by
      rw [List.append_assoc, List.singleton_append]
    show readBody contentLength maxBody ([x] :: (singles xs ++ rest)) body = _
    rw [readBody, if_pos (by omega), if_neg (by omega), readBody_walk rest hcap (by omega), hsplit]

/-- No single byte goes past the cap. -/
theorem readBody_singles (hcap : contentLength ≤ maxBody) (bytes body : Bytes) :
    ∃ read, readBody contentLength maxBody (singles bytes) body = .ok read := by
  have hone : ∀ segment ∈ singles bytes, segment.length ≤ 1 := by
    intro segment hsegment
    exact Nat.le_of_eq (length_of_mem_singles hsegment)
  exact readBody_returns hone (.inr (.inr (Nat.succ_le_succ hcap)))

/-- The head, read up to its last byte. -/
theorem readHead_singles (rest : List Bytes) {xs : Bytes}
    (hend : position terminator xs = some headerEnd) (hshort : headerEnd + 4 ≤ 65537) :
    readHead (singles xs ++ rest) [] =
      .ok (xs.take (headerEnd + 4), singles (xs.drop (headerEnd + 4)) ++ rest) := by
  have hle := position_le hend
  have hfour : terminator.length = 4 := rfl
  have hfront : (xs.take (headerEnd + 3)).length = headerEnd + 3 := by
    rw [List.length_take]
    omega
  have hnone : position terminator (xs.take (headerEnd + 3)) = none :=
    position_take_none hend (by omega)
  have hin : headerEnd + 3 < xs.length := by omega
  have hlast : xs.take (headerEnd + 4) = xs.take (headerEnd + 3) ++ [xs[headerEnd + 3]] :=
    (List.take_append_getElem hin).symm
  have hfound : position terminator (xs.take (headerEnd + 4)) = some headerEnd :=
    position_take terminator_ne_nil hend (Nat.le_of_eq rfl)
  rw [singles_at hin, List.append_assoc, readHead_walk _ (by rw [List.nil_append]; exact hnone)
    (by rw [List.nil_append, hfront]; omega), List.nil_append, List.cons_append, readHead, ← hlast,
    hfound]
  rfl

/-! ## All splits -/

/-- Byte by byte, but for one longer read of `b` bytes behind the first `a`. -/
def longRead (a b : Nat) (request : Bytes) : List Bytes :=
  singles (request.take a) ++ ((request.drop a).take b :: singles (request.drop (a + b)))

theorem flatten_longRead (a b : Nat) (request : Bytes) :
    (longRead a b request).flatten = request := by
  rw [longRead, List.flatten_append, List.flatten_cons, flatten_singles, flatten_singles,
    ← List.drop_drop, List.take_append_drop, List.take_append_drop]

theorem sized_singles (request : Bytes) :
    ∀ segment ∈ singles request, 1 ≤ segment.length ∧ segment.length ≤ 2048 := by
  intro segment hsegment
  rw [length_of_mem_singles hsegment]
  decide

theorem sized_longRead {a b : Nat} (hb : 1 ≤ b) (hlong : b ≤ 2048) (hlen : a + b ≤ request.length) :
    ∀ segment ∈ longRead a b request, 1 ≤ segment.length ∧ segment.length ≤ 2048 := by
  intro segment hsegment
  rcases List.mem_append.mp hsegment with hsegment | hsegment
  · exact sized_singles _ segment hsegment
  rcases List.mem_cons.mp hsegment with rfl | hsegment
  · rw [List.length_take, List.length_drop]
    omega
  · exact sized_singles _ segment hsegment

/-- The two splits that tell the reads apart. -/
def Split.singles (request : Bytes) : Split request :=
  ⟨Serve.singles request, flatten_singles request, sized_singles request⟩

def Split.long {a b : Nat} (hb : 1 ≤ b) (hlong : b ≤ 2048) (hlen : a + b ≤ request.length) :
    Split request :=
  ⟨longRead a b request, flatten_longRead a b request, sized_longRead hb hlong hlen⟩

/-- The head is well formed, and where a read ends decides between its parts and an error: a head
over the cap can be read at once, or not; a read can go past the body cap from inside the announced
body, or not. -/
def SplitDependent (w maxBody : Nat) (request : Bytes) : Prop :=
  ∃ headerEnd head, position terminator request = some headerEnd ∧
    parseHead w (request.take headerEnd) = .ok head ∧ head.contentLength ≤ maxBody ∧
    headerEnd + 4 ≤ 67584 ∧
    (65538 ≤ headerEnd + 4 ∨
      0 < head.contentLength ∧ maxBody < request.length - (headerEnd + 4) ∧
        maxBody + 2 ≤ head.contentLength + 2048)

section Dependent

variable {head : RequestHead} (hend : position terminator request = some headerEnd)
  (hhead : parseHead w (request.take headerEnd) = .ok head) (hcap : head.contentLength ≤ maxBody)

include hend

/-- A head over the cap, byte by byte: the cap is behind it one byte before its end. -/
theorem readHttpRequest_over (hover : 65538 ≤ headerEnd + 4) :
    ∃ e, readHttpRequest w maxBody (singles request) = .error e := by
  have hle := position_le hend
  have hfour : terminator.length = 4 := rfl
  have hin : 65536 < request.length := by omega
  have hlen : (request.take 65536).length = 65536 := by
    rw [List.length_take]
    omega
  have hnext : request.take 65536 ++ [request[65536]] = request.take 65537 :=
    List.take_append_getElem hin
  have hread : readHead (singles request) [] = .error (.io "HTTP headers too large") := by
    have hbefore : position terminator (request.take 65536) = none :=
      position_take_none hend (by omega)
    have hbefore' : position terminator (request.take 65537) = none :=
      position_take_none hend (by omega)
    have hover' : (request.take 65537).length > 64 * 1024 := by
      rw [List.length_take]
      omega
    rw [singles_at hin, readHead_walk _ (by rw [List.nil_append]; exact hbefore)
      (by rw [List.nil_append, hlen]), List.nil_append, readHead, hnext, hbefore']
    exact (if_neg Bool.false_ne_true).trans (if_pos hover')
  rw [readHttpRequest, hread]
  exact ⟨_, rfl⟩

include hhead hcap

/-- The same head, read at once from below the cap to its end. -/
theorem readHttpRequest_jump (hover : 65538 ≤ headerEnd + 4) :
    ∃ parts, readHttpRequest w maxBody (longRead 65536 (headerEnd + 4 - 65536) request) =
      .ok parts := by
  have hle := position_le hend
  have hfour : terminator.length = 4 := rfl
  have hfront : position terminator (request.take 65536) = none :=
    position_take_none hend (by omega)
  have hfound : position terminator (request.take (headerEnd + 4)) = some headerEnd :=
    position_take terminator_ne_nil hend (Nat.le_of_eq rfl)
  have hjoin : request.take 65536 ++ (request.drop 65536).take (headerEnd + 4 - 65536) =
      request.take (headerEnd + 4) := by
    rw [← List.take_add, Nat.add_sub_cancel' (by omega)]
  have hread : readHead (longRead 65536 (headerEnd + 4 - 65536) request) [] =
      .ok (request.take (headerEnd + 4),
        singles (request.drop (headerEnd + 4))) := by
    rw [longRead, Nat.add_sub_cancel' (by omega),
      readHead_walk _ (by rw [List.nil_append]; exact hfront)
        (by rw [List.nil_append, List.length_take]; omega), List.nil_append, readHead, hjoin, hfound]
    rfl
  have hflat := flatten_longRead 65536 (headerEnd + 4 - 65536) request
  rw [readHttpRequest_eq hread (hflat.symm ▸ hend) (hflat.symm ▸ hhead) hcap]
  obtain ⟨body, hbody⟩ := readBody_singles hcap (request.drop (headerEnd + 4))
    ((request.take (headerEnd + 4)).drop (headerEnd + 4))
  rw [hbody]
  exact ⟨_, rfl⟩

/-- A short head byte by byte. -/
theorem readHttpRequest_singles (hshort : headerEnd + 4 ≤ 65537) :
    ∃ parts, readHttpRequest w maxBody (singles request) = .ok parts := by
  have hread := readHead_singles [] hend hshort
  rw [List.append_nil, List.append_nil] at hread
  have hflat := flatten_singles request
  rw [readHttpRequest_eq hread (hflat.symm ▸ hend) (hflat.symm ▸ hhead) hcap]
  obtain ⟨body, hbody⟩ := readBody_singles hcap (request.drop (headerEnd + 4))
    ((request.take (headerEnd + 4)).drop (headerEnd + 4))
  rw [hbody]
  exact ⟨_, rfl⟩

/-- The last byte of the announced body read together with the first beyond the cap. -/
theorem readHttpRequest_past {a b : Nat} (hshort : headerEnd + 4 ≤ 65537)
    (ha : a + 1 = headerEnd + 4 + head.contentLength) (hpos : 0 < head.contentLength)
    (hb : b + head.contentLength = maxBody + 2)
    (hmore : maxBody < request.length - (headerEnd + 4)) :
    ∃ e, readHttpRequest w maxBody (longRead a b request) = .error e := by
  have hle := position_le hend
  have hfour : terminator.length = 4 := rfl
  have hflat := flatten_longRead a b request
  have hfound : position terminator (request.take a) = some headerEnd :=
    position_take terminator_ne_nil hend (by omega)
  have hread : readHead (longRead a b request) [] =
      .ok ((request.take a).take (headerEnd + 4), singles ((request.take a).drop (headerEnd + 4)) ++
        ((request.drop a).take b :: singles (request.drop (a + b)))) :=
    readHead_singles _ hfound hshort
  have hempty : ((request.take a).take (headerEnd + 4)).drop (headerEnd + 4) = [] := by
    rw [List.drop_eq_nil_iff, List.length_take]
    omega
  have hinside : ((request.take a).drop (headerEnd + 4)).length = head.contentLength - 1 := by
    rw [List.length_drop, List.length_take]
    omega
  have hlonger : ((request.drop a).take b).length = b := by
    rw [List.length_take, List.length_drop]
    omega
  have hbeyond : maxBody <
      ((request.take a).drop (headerEnd + 4) ++ (request.drop a).take b).length := by
    rw [List.length_append]
    omega
  have hbody : readBody head.contentLength maxBody
      (singles ((request.take a).drop (headerEnd + 4)) ++
        ((request.drop a).take b :: singles (request.drop (a + b)))) [] =
      .error (.invalidProductOption "request body exceeds max") := by
    rw [readBody_walk _ hcap (by rw [hinside]; show 0 + _ ≤ _; omega), List.nil_append, readBody,
      if_pos (by omega)]
    exact if_pos hbeyond
  rw [readHttpRequest_eq hread (hflat.symm ▸ hend) (hflat.symm ▸ hhead) hcap, hempty, hbody]
  exact ⟨_, rfl⟩

end Dependent

/-- Where neither decides, a request with a good head is read to the end by every split. -/
theorem readHttpRequest_returns {head : RequestHead} (s : Split request)
    (hend : position terminator request = some headerEnd)
    (hhead : parseHead w (request.take headerEnd) = .ok head) (hcap : head.contentLength ≤ maxBody)
    (hshort : headerEnd + 4 ≤ 65537)
    (hroom : head.contentLength = 0 ∨ request.length - (headerEnd + 4) ≤ maxBody ∨
      head.contentLength + 2048 ≤ maxBody + 1) :
    readHttpRequest w maxBody s.segments = .ok ⟨head.method, head.path, head.headers,
      (request.drop (headerEnd + 4)).take head.contentLength⟩ := by
  obtain ⟨segments, rfl, hsized⟩ := s
  obtain ⟨⟨buf, rest⟩, hread⟩ : ∃ read, readHead segments [] = .ok read :=
    readHead_short hshort hend
  obtain ⟨hfound, hrest⟩ := readHead_found hread hend
  have hle := position_le hfound
  have hfour : terminator.length = 4 := rfl
  have hwhole : buf ++ rest.flatten = segments.flatten := readHead_ok hread
  have hdrop : buf.drop (headerEnd + 4) ++ rest.flatten = segments.flatten.drop (headerEnd + 4) := by
    rw [← hwhole, List.drop_append_of_le_length (by omega)]
  have hshorts : ∀ segment ∈ rest, segment.length ≤ 2048 := by
    intro segment hsegment
    exact (hsized segment (hrest.subset hsegment)).2
  obtain ⟨body, hbody⟩ : ∃ body, readBody head.contentLength maxBody rest
      (buf.drop (headerEnd + 4)) = .ok body := by
    refine readBody_returns hshorts ?_
    rw [hdrop, List.length_drop]
    exact hroom
  rw [readHttpRequest_eq hread hend hhead hcap, hbody, ← hdrop, ← readBody_ok hbody]
  rfl

/-- A head over the caps, or none: every split fails. -/
theorem readHttpRequest_fails (s : Split request)
    (hbad : ∀ headerEnd head, position terminator request = some headerEnd →
      parseHead w (request.take headerEnd) = .ok head → head.contentLength ≤ maxBody →
        67584 < headerEnd + 4) :
    (readHttpRequest w maxBody s.segments).toOption = none := by
  cases hread : readHttpRequest w maxBody s.segments with
  | error e => rfl
  | ok parts =>
    obtain ⟨headerEnd, head, hend, hhead, hcap, -⟩ := readHttpRequest_ok hread
    have hlong := hbad headerEnd head (s.whole ▸ hend) (s.whole ▸ hhead) hcap
    obtain ⟨e, he⟩ : ∃ e, readHead s.segments [] = .error e :=
      readHead_long hlong (fun segment hsegment => (s.sized segment hsegment).2) (Nat.zero_le _) hend
    rw [readHttpRequest, he] at hread
    cases hread

theorem SplitDependent.differ (h : SplitDependent w maxBody request) :
    ¬ SameForAllSplits w maxBody request := by
  intro hsame
  obtain ⟨headerEnd, head, hend, hhead, hcap, htop, hcase⟩ := h
  have hle := position_le hend
  have hfour : terminator.length = 4 := rfl
  by_cases hover : 65538 ≤ headerEnd + 4
  · obtain ⟨e, hfails⟩ : ∃ e, readHttpRequest w maxBody (singles request) = .error e :=
      readHttpRequest_over hend hover
    obtain ⟨parts, hreturns⟩ := readHttpRequest_jump hend hhead hcap hover
    have hb : 1 ≤ headerEnd + 4 - 65536 := by omega
    have htwo := hsame (Split.singles request) (Split.long hb (by omega)
      (a := 65536) (by omega))
    change (readHttpRequest w maxBody (singles request)).toOption =
      (readHttpRequest w maxBody (longRead 65536 (headerEnd + 4 - 65536) request)).toOption at htwo
    rw [hfails, hreturns] at htwo
    cases htwo
  · obtain hover' | ⟨hpos, hmore, hlong⟩ := hcase
    · exact hover hover'
    obtain ⟨a, ha⟩ : ∃ a, a + 1 = headerEnd + 4 + head.contentLength :=
      ⟨headerEnd + 4 + head.contentLength - 1, by omega⟩
    obtain ⟨b, hb⟩ : ∃ b, b + head.contentLength = maxBody + 2 :=
      ⟨maxBody + 2 - head.contentLength, by omega⟩
    obtain ⟨parts, hreturns⟩ := readHttpRequest_singles hend hhead hcap (by omega)
    obtain ⟨e, hfails⟩ := readHttpRequest_past hend hhead hcap (by omega) ha hpos hb hmore
    have hone : 1 ≤ b := by omega
    have htwo := hsame (Split.singles request) (Split.long hone (by omega) (a := a) (by omega))
    change (readHttpRequest w maxBody (singles request)).toOption =
      (readHttpRequest w maxBody (longRead a b request)).toOption at htwo
    rw [hfails, hreturns] at htwo
    cases htwo

/-- **Reading is independent of the segmentation, but for the two caps.** -/
theorem sameForAllSplits_iff (w maxBody : Nat) (request : Bytes) :
    SameForAllSplits w maxBody request ↔ ¬ SplitDependent w maxBody request := by
  constructor
  · intro hsame hdependent
    exact hdependent.differ hsame
  intro hsettled s t
  by_cases hgood : ∃ headerEnd head, position terminator request = some headerEnd ∧
      parseHead w (request.take headerEnd) = .ok head ∧ head.contentLength ≤ maxBody ∧
      headerEnd + 4 ≤ 67584
  · obtain ⟨headerEnd, head, hend, hhead, hcap, htop⟩ := hgood
    have hnot : ¬ (65538 ≤ headerEnd + 4 ∨ 0 < head.contentLength ∧
        maxBody < request.length - (headerEnd + 4) ∧ maxBody + 2 ≤ head.contentLength + 2048) :=
      fun hcase => hsettled ⟨headerEnd, head, hend, hhead, hcap, htop, hcase⟩
    have hshort : headerEnd + 4 ≤ 65537 := by omega
    have hroom : head.contentLength = 0 ∨ request.length - (headerEnd + 4) ≤ maxBody ∨
        head.contentLength + 2048 ≤ maxBody + 1 := by omega
    rw [readHttpRequest_returns s hend hhead hcap hshort hroom,
      readHttpRequest_returns t hend hhead hcap hshort hroom]
  · have hbad : ∀ headerEnd head, position terminator request = some headerEnd →
        parseHead w (request.take headerEnd) = .ok head → head.contentLength ≤ maxBody →
          67584 < headerEnd + 4 := by
      intro headerEnd head hend hhead hcap
      by_contra htop
      exact hgood ⟨headerEnd, head, hend, hhead, hcap, Nat.not_lt.mp htop⟩
    rw [readHttpRequest_fails s hbad, readHttpRequest_fails t hbad]

/-- One read of everything returns the body `a`; with the head read first, `ab` is past the cap. -/
theorem not_sameForAllSplits :
    ¬ ∀ (w maxBody : Nat) (request : Bytes), SameForAllSplits w maxBody request := by
  intro hall
  have hbytes : (utf8 "POST / HTTP/1.1\r\nContent-Length: 1\r\n\r\nab").take 34 =
      utf8 "POST / HTTP/1.1\r\nContent-Length: 1" := by decide
  refine SplitDependent.differ ?_ (hall 64 1 (utf8 "POST / HTTP/1.1\r\nContent-Length: 1\r\n\r\nab"))
  refine ⟨34, ⟨"POST", "/", [("Content-Length", "1")], 1⟩, by decide, ?_, by decide, by decide,
    .inr (by decide)⟩
  rw [hbytes, parseHead, fromUtf8Lossy_utf8]
  rfl

end Basecrawl.Core.Serve
