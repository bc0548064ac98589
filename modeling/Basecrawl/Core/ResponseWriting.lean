/-
  Writing a response, and what a lenient reader makes of it.

  1. **Program** — `write_http_response` prints the head line by line, with the header fields a
     handler gives it as they are.  A handler gives the request id of the request, whatever becomes
     of the request (`responded_headers`).
  2. **Reader (`readResponse`)** — a head whose lines end at CRLF, at LF or at CR, up to the first
     blank line; the rest is the payload.
  3. **Clean fields come back (`readResponse_clean`)** — where no name and no value has a line break.
  4. **What comes back is clean (`readResponse_oneLine`)** — a value with a line break never does, so
     the request id decides (`response_reads_back_iff`).
-/
import Basecrawl.Core.RequestReading
import Basecrawl.Lib.Chars
import Basecrawl.Lib.TextLines

namespace Basecrawl.Core.Serve

open Text Threads Windows Outcome

/-! ## Program -/

def reason (status : Nat) : String :=
  if status = 200 then "OK"
  else if status = 400 then "Bad Request"
  else if status = 401 then "Unauthorized"
  else if status = 403 then "Forbidden"
  else if status = 404 then "Not Found"
  else if status = 429 then "Too Many Requests"
  else if status = 502 then "Bad Gateway"
  else if status = 503 then "Service Unavailable"
  else if status = 504 then "Gateway Timeout"
  else "Error"

def statusLine (status : Nat) : String := "HTTP/1.1 " ++ Nat.repr status ++ " " ++ reason status

/-- One more header, unless it is the secret. -/
def pushHeader (head : String) (field : String × String) : String :=
  if eqIgnoreAsciiCase field.1 serveSecretHeader then head
  else head ++ (field.1 ++ ": " ++ field.2 ++ "\r\n")

/-- `write_http_response`: the bytes of the head, then those of the payload. -/
def writeHttpResponse (display : Json.Tree → String) (response : Response) : Bytes :=
  let payload := display response.value
  let head := statusLine response.status ++ "\r\nContent-Type: application/json\r\n" ++
    "Content-Length: " ++ Nat.repr (utf8 payload).length ++ "\r\nConnection: close\r\n"
  let head := response.headers.foldl pushHeader head ++ "\r\n"
  utf8 head ++ utf8 payload

/-- The call `handle_connection` makes of what it has read. -/
def HttpRequestParts.call (parts : HttpRequestParts) (execute : Bytes → String → Executed)
    (durationMs : UInt64) : Call where
  method := parts.method
  path := parts.path
  headers := parts.headers
  execute := execute parts.body
  durationMs := durationMs

/-- What a handler comes back with. -/
def Handler.response : Handler → Option Response
  | .refused response => some response
  | .answered response => some response
  | _ => none

/-! ## Reader -/

/-- A line has ended: a blank one ends the head. -/
def endLine (line rest : List Char) (next : Option (List String × List Char)) :
    Option (List String × List Char) :=
  if line = [] then some ([], rest)
  else next.map fun read => (String.ofList line :: read.1, read.2)

/-- The lines of a head behind the line so far, and what follows the blank one. -/
def readLines : List Char → List Char → Option (List String × List Char)
  | line, '\r' :: '\n' :: rest => endLine line rest (readLines [] rest)
  | line, c :: rest =>
    if c = '\r' ∨ c = '\n' then endLine line rest (readLines [] rest)
    else readLines (line ++ [c]) rest
  | _, [] => none

def readFields : List String → Option (List (String × String))
  | [] => some []
  | line :: lines => do
    let field ← readField line
    let fields ← readFields lines
    return field :: fields

structure Message where
  statusLine : String
  fields : List (String × String)
  payload : String

def readResponse (bytes : Bytes) : Option Message := do
  let (lines, payload) ← readLines [] (fromUtf8Lossy bytes).toList
  let statusLine ← lines.head?
  let fields ← readFields lines.tail
  return ⟨statusLine, fields, String.ofList payload⟩

/-! ## The request id -/

/-- The first request id among the header lines of a request. -/
def requestId (request : Bytes) : Option String :=
  (position terminator request).bind fun headerEnd =>
    let lines := (splitCrlf (fromUtf8Lossy (request.take headerEnd)).toList).map String.ofList
    headerValue (lines.tail.filterMap readField) "x-request-id"

/-- No carriage return and no line feed. -/
def OneLine (s : String) : Prop := '\r' ∉ s.toList ∧ '\n' ∉ s.toList

instance (s : String) : Decidable (OneLine s) := inferInstanceAs (Decidable (_ ∧ _))

/-- The message of a response: three fields of its own, and the request id. -/
def message (display : Json.Tree → String) (response : Response) (requestId : Option String) :
    Message where
  statusLine := statusLine response.status
  fields := [("Content-Type", "application/json"),
    ("Content-Length", Nat.repr (utf8 (display response.value)).length), ("Connection", "close")] ++
      (requestId.map fun rid => ("X-Request-Id", rid)).toList
  payload := display response.value

variable {display : Json.Tree → String} {response : Response}

/-! ## The text of a response -/

def lineOf (field : String × String) : String := field.1 ++ ": " ++ field.2

/-- Lines, each with its end. -/
def ended (lines : List String) : List Char := lines.flatMap fun line => line.toList ++ ['\r', '\n']

/-- The fields that are written. -/
def shown (headers : List (String × String)) : List (String × String) :=
  headers.filter fun field => !eqIgnoreAsciiCase field.1 serveSecretHeader

theorem ended_cons (line : String) (lines : List String) :
    ended (line :: lines) = line.toList ++ '\r' :: '\n' :: ended lines := by
  show line.toList ++ ['\r', '\n'] ++ ended lines = _
  rw [List.append_assoc]
  rfl

theorem foldl_pushHeader : ∀ (headers : List (String × String)) (head : String),
    (headers.foldl pushHeader head).toList = head.toList ++ ended ((shown headers).map lineOf)
  | [], head => by
    show head.toList = head.toList ++ []
    rw [List.append_nil]
  | field :: headers, head => by
    rw [List.foldl_cons, foldl_pushHeader headers, pushHeader]
    by_cases hsecret : eqIgnoreAsciiCase field.1 serveSecretHeader = true
    · have hskip : shown (field :: headers) = shown headers :=
        List.filter_cons_of_neg (by rw [hsecret]; exact Bool.false_ne_true)
      rw [if_pos hsecret, hskip]
    · have hkeep : shown (field :: headers) = field :: shown headers :=
        List.filter_cons_of_pos (by rw [Bool.eq_false_iff.mpr hsecret]; rfl)
      have hline : (field.1 ++ ": " ++ field.2 ++ "\r\n").toList =
          (lineOf field).toList ++ ['\r', '\n'] := String.toList_append
      rw [if_neg hsecret, hkeep, List.map_cons, ended_cons, String.toList_append, hline,
        List.append_assoc, List.append_assoc]
      rfl

/-- The fields a response starts with. -/
def ownFields (length : Nat) : List (String × String) :=
  [("Content-Type", "application/json"), ("Content-Length", Nat.repr length), ("Connection", "close")]

theorem ended_append (lines more : List String) : ended (lines ++ more) = ended lines ++ ended more :=
  List.flatMap_append

/-- The fixed lines of a head. -/
theorem ended_ownFields (first : String) (length : Nat) :
    (first ++ "\r\nContent-Type: application/json\r\n" ++ "Content-Length: " ++ Nat.repr length ++
      "\r\nConnection: close\r\n").toList = ended (first :: (ownFields length).map lineOf) := by
  have htype : "\r\nContent-Type: application/json\r\n".toList =
      '\r' :: '\n' :: ((lineOf ("Content-Type", "application/json")).toList ++ ['\r', '\n']) := by
    decide
  have hlength : (lineOf ("Content-Length", Nat.repr length)).toList =
      "Content-Length: ".toList ++ (Nat.repr length).toList := by
    rw [← String.toList_append]
    rfl
  have hclose : "\r\nConnection: close\r\n".toList =
      '\r' :: '\n' :: ((lineOf ("Connection", "close")).toList ++ ['\r', '\n']) := by
    decide
  show _ = ended [first, lineOf ("Content-Type", "application/json"),
    lineOf ("Content-Length", Nat.repr length), lineOf ("Connection", "close")]
  simp only [ended_cons, String.toList_append, htype, hlength, hclose, List.append_assoc,
    List.cons_append, List.nil_append]
  rfl

/-- **The text of a response**: the lines of its head, a blank one, the payload. -/
theorem writeHttpResponse_chars (display : Json.Tree → String) (response : Response) :
    (fromUtf8Lossy (writeHttpResponse display response)).toList =
      ended (statusLine response.status ::
        (ownFields (utf8 (display response.value)).length ++ shown response.headers).map lineOf) ++
          '\r' :: '\n' :: (display response.value).toList := by
  have hblank : "\r\n".toList = ['\r', '\n'] := rfl
  rw [writeHttpResponse, ← utf8_append, fromUtf8Lossy_utf8, String.toList_append,
    String.toList_append, foldl_pushHeader, ended_ownFields, List.map_append, ← List.cons_append,
    ended_append, hblank, List.append_assoc]
  rfl

/-! ## Clean fields come back -/

theorem OneLine.ne {s : String} (h : OneLine s) {c : Char} (hc : c ∈ s.toList) :
    c ≠ '\r' ∧ c ≠ '\n' := by
  refine ⟨?_, ?_⟩
  · rintro rfl
    exact h.1 hc
  · rintro rfl
    exact h.2 hc

/-- A line and its end. -/
theorem readLines_line (rest : List Char) : ∀ {cs line : List Char}, line ++ cs ≠ [] →
    (∀ c ∈ cs, c ≠ '\r' ∧ c ≠ '\n') →
      readLines line (cs ++ '\r' :: '\n' :: rest) =
        (readLines [] rest).map fun read => (String.ofList (line ++ cs) :: read.1, read.2)
  | [], line, hne, _ => by
    rw [List.append_nil] at hne ⊢
    show endLine line rest (readLines [] rest) = _
    rw [endLine, if_neg hne]
  | c :: cs, line, hne, hclean => by
    obtain ⟨hc, hrest⟩ := List.forall_mem_cons.mp hclean
    have hsplit : line ++ c :: cs = line ++ [c] ++ cs := by
      rw [List.append_assoc, List.singleton_append]
    rw [hsplit] at hne
    have hcont : readLines line (c :: (cs ++ '\r' :: '\n' :: rest)) =
        readLines (line ++ [c]) (cs ++ '\r' :: '\n' :: rest) := by
      rw [readLines]
      · exact if_neg (not_or.mpr hc)
      · intro rest' hreturn
        exact absurd hreturn hc.1
    rw [List.cons_append, hcont, readLines_line rest hne hrest, hsplit]

theorem readLines_ended (payload : List Char) : ∀ {lines : List String},
    (∀ line ∈ lines, line ≠ "" ∧ OneLine line) →
      readLines [] (ended lines ++ '\r' :: '\n' :: payload) = some (lines, payload)
  | [], _ => rfl
  | line :: lines, hclean => by
    obtain ⟨⟨hne, hline⟩, hrest⟩ := List.forall_mem_cons.mp hclean
    have hne' : [] ++ line.toList ≠ [] := by
      rw [List.nil_append]
      intro hnil
      exact hne (String.toList_injective hnil)
    rw [ended_cons, List.append_assoc, List.cons_append, List.cons_append,
      readLines_line _ hne' fun c hc => hline.ne hc, readLines_ended payload hrest]
    show some (String.ofList line.toList :: lines, payload) = _
    rw [String.ofList_toList]

/-- A field that a reader finds again. -/
structure Clean (field : String × String) : Prop where
  name_trim : trim field.1 = field.1
  name_colon : ':' ∉ field.1.toList
  name_line : OneLine field.1
  value_trim : trim field.2 = field.2
  value_line : OneLine field.2

theorem clean_of_name {name value : String}
    (hname : trim name = name ∧ ':' ∉ name.toList ∧ OneLine name) (htrim : trim value = value)
    (hline : OneLine value) : Clean (name, value) :=
  ⟨hname.1, hname.2.1, hname.2.2, htrim, hline⟩

theorem lineOf_eq (field : String × String) :
    lineOf field = field.1 ++ String.singleton ':' ++ (" " ++ field.2) := by
  have hmark : ": " = String.singleton ':' ++ " " := by decide
  rw [lineOf, hmark, ← String.append_assoc, ← String.append_assoc]

theorem Clean.readField {field : String × String} (h : Clean field) :
    Serve.readField (lineOf field) = some field := by
  have hblank : Blank " " := by
    intro c hc
    rw [List.mem_singleton.mp hc]
    rfl
  have hne : lineOf field ≠ "" := by
    intro hempty
    have hcolon : ':' ∈ (lineOf field).toList := by
      rw [lineOf_eq, String.toList_append, String.toList_append]
      exact List.mem_append_left _ (List.mem_append_right _ List.mem_cons_self)
    rw [hempty] at hcolon
    cases hcolon
  rw [Serve.readField, if_neg hne, lineOf_eq, splitOnce_append h.name_colon]
  show some (trim field.1, trim (" " ++ field.2)) = some field
  rw [trim_append_left hblank, h.name_trim, h.value_trim]

theorem readFields_clean : ∀ {fields : List (String × String)}, (∀ field ∈ fields, Clean field) →
    readFields (fields.map lineOf) = some fields
  | [], _ => rfl
  | field :: fields, h => by
    obtain ⟨hfield, hfields⟩ := List.forall_mem_cons.mp h
    rw [List.map_cons, readFields, hfield.readField, readFields_clean hfields]
    rfl

theorem oneLine_append {s t : String} (hs : OneLine s) (ht : OneLine t) : OneLine (s ++ t) := by
  refine ⟨?_, ?_⟩ <;> rw [String.toList_append, List.mem_append, not_or]
  · exact ⟨hs.1, ht.1⟩
  · exact ⟨hs.2, ht.2⟩

theorem Clean.lineOf {field : String × String} (h : Clean field) :
    Serve.lineOf field ≠ "" ∧ OneLine (Serve.lineOf field) := by
  refine ⟨?_, oneLine_append (oneLine_append h.name_line (by decide)) h.value_line⟩
  intro hempty
  have hread := h.readField
  rw [hempty] at hread
  cases hread

/-- **Clean fields come back.** -/
theorem readResponse_clean (hstatus : OneLine (statusLine response.status))
    (hfields : ∀ field ∈ shown response.headers, Clean field)
    (hown : ∀ field ∈ ownFields (utf8 (display response.value)).length, Clean field) :
    readResponse (writeHttpResponse display response) =
      some ⟨statusLine response.status,
        ownFields (utf8 (display response.value)).length ++ shown response.headers,
        display response.value⟩ := by
  have hall : ∀ field ∈ ownFields (utf8 (display response.value)).length ++
      shown response.headers, Clean field := by
    intro field hfield
    rcases List.mem_append.mp hfield with hfield | hfield
    · exact hown field hfield
    · exact hfields field hfield
  have hlines : ∀ line ∈ statusLine response.status ::
      (ownFields (utf8 (display response.value)).length ++ shown response.headers).map lineOf,
      line ≠ "" ∧ OneLine line := by
    refine List.forall_mem_cons.mpr ⟨⟨?_, hstatus⟩, ?_⟩
    · intro hempty
      have hlen : (statusLine response.status).toList.length = 0 := by
        rw [hempty]
        rfl
      rw [statusLine, String.toList_append, String.toList_append, String.toList_append] at hlen
      simp only [List.length_append] at hlen
      have hnine : "HTTP/1.1 ".toList.length = 9 := rfl
      omega
    · intro line hline
      obtain ⟨field, hfield, rfl⟩ := List.mem_map.mp hline
      exact (hall field hfield).lineOf
  rw [readResponse, writeHttpResponse_chars, readLines_ended _ hlines]
  show (readFields _).bind _ = _
  rw [List.tail_cons, readFields_clean hall]
  show some _ = some _
  rw [String.ofList_toList]

theorem isDigit_of_mem_repr {n : Nat} {c : Char} (h : c ∈ (Nat.repr n).toList) :
    c.isDigit = true := by
  rw [Nat.toList_repr] at h
  exact Nat.isDigit_of_mem_toDigits (by decide) (by decide) h

theorem oneLine_repr (n : Nat) : OneLine (Nat.repr n) :=
  ⟨fun hmem => absurd (isDigit_of_mem_repr hmem) (by decide),
    fun hmem => absurd (isDigit_of_mem_repr hmem) (by decide)⟩

theorem trim_repr (n : Nat) : trim (Nat.repr n) = Nat.repr n := by
  refine trim_eq_self fun c hc => ?_
  have hdigit := isDigit_of_mem_repr hc
  rw [Char.isDigit, Bool.and_eq_true, decide_eq_true_eq, decide_eq_true_eq, ge_iff_le,
    UInt32.le_iff_toNat_le, UInt32.le_iff_toNat_le] at hdigit
  have hlow : 48 ≤ c.toNat := hdigit.1
  have hhigh : c.toNat ≤ 57 := hdigit.2
  unfold isWhitespace
  simp only [Bool.or_eq_false_iff, Bool.and_eq_false_iff, decide_eq_false_iff_not, beq_eq_false_iff_ne]
  omega

theorem oneLine_reason (status : Nat) : OneLine (reason status) := by
  unfold reason
  split_ifs <;> decide

theorem oneLine_statusLine (status : Nat) : OneLine (statusLine status) :=
  oneLine_append (oneLine_append (oneLine_append (by decide) (oneLine_repr status)) (by decide))
    (oneLine_reason status)

theorem clean_ownFields (length : Nat) : ∀ field ∈ ownFields length, Clean field := by
  intro field hfield
  rcases List.mem_cons.mp hfield with rfl | hfield
  · exact clean_of_name (by decide) (by decide) (by decide)
  rcases List.mem_cons.mp hfield with rfl | hfield
  · exact clean_of_name (by decide) (trim_repr length) (oneLine_repr length)
  · rw [List.mem_singleton.mp hfield]
    exact clean_of_name (by decide) (by decide) (by decide)

/-! ## What comes back is clean -/

theorem oneLine_ofList {line : List Char} :
    OneLine (String.ofList line) ↔ '\r' ∉ line ∧ '\n' ∉ line := by
  rw [OneLine, String.toList_ofList]

theorem endLine_oneLine {lines : List String} {line rest payload : List Char}
    {next : Option (List String × List Char)} (hline : '\r' ∉ line ∧ '\n' ∉ line)
    (hnext : ∀ {lines}, next = some (lines, payload) → ∀ text ∈ lines, OneLine text)
    (h : endLine line rest next = some (lines, payload)) : ∀ text ∈ lines, OneLine text := by
  rw [endLine] at h
  split at h
  · cases h
    exact List.forall_mem_nil _
  · obtain ⟨⟨more, payload'⟩, hread, heq⟩ := Option.map_eq_some_iff.mp h
    cases heq
    exact List.forall_mem_cons.mpr ⟨oneLine_ofList.mpr hline, hnext hread⟩

/-- No line that is read has a line break inside. -/
theorem readLines_oneLine {lines : List String} {payload cs line : List Char}
    (hline : '\r' ∉ line ∧ '\n' ∉ line) (h : readLines line cs = some (lines, payload)) :
    ∀ text ∈ lines, OneLine text := by
  have hnil : '\r' ∉ ([] : List Char) ∧ '\n' ∉ ([] : List Char) :=
    ⟨List.not_mem_nil, List.not_mem_nil⟩
  fun_induction readLines line cs generalizing lines with
  | case1 line rest ih => exact endLine_oneLine hline (fun hread => ih hnil hread) h
  | case2 line c rest hcrlf hbreak ih => exact endLine_oneLine hline (fun hread => ih hnil hread) h
  | case3 line c rest hcrlf hbreak ih =>
    obtain ⟨hreturn, hfeed⟩ := not_or.mp hbreak
    refine ih ⟨?_, ?_⟩ h <;> rw [List.mem_append, List.mem_singleton, not_or]
    · exact ⟨hline.1, fun heq => hreturn heq.symm⟩
    · exact ⟨hline.2, fun heq => hfeed heq.symm⟩
  | case4 line => cases h

theorem readField_oneLine {line : String} {field : String × String} (hline : OneLine line)
    (h : readField line = some field) : OneLine field.2 := by
  rw [readField] at h
  split at h
  · cases h
  obtain ⟨⟨name, value⟩, hsplit, rfl⟩ := Option.map_eq_some_iff.mp h
  rw [splitOnce] at hsplit
  split at hsplit
  · have hvalue : value = String.ofList ((line.toList.dropWhile (· ≠ ':')).drop 1) :=
      (congrArg Prod.snd (Option.some.inj hsplit)).symm
    have hsub : ∀ c ∈ value.toList, c ∈ line.toList := by
      intro c hc
      rw [hvalue, String.toList_ofList] at hc
      exact (List.dropWhile_suffix _).subset ((List.drop_suffix 1 _).subset hc)
    exact ⟨not_mem_trim fun hmem => hline.1 (hsub _ hmem),
      not_mem_trim fun hmem => hline.2 (hsub _ hmem)⟩
  · cases hsplit

theorem readFields_oneLine : ∀ {lines : List String} {fields : List (String × String)},
    (∀ line ∈ lines, OneLine line) → readFields lines = some fields →
      ∀ field ∈ fields, OneLine field.2
  | [], fields, _, h => by
    cases h
    exact List.forall_mem_nil _
  | line :: lines, fields, hlines, h => by
    obtain ⟨hline, hrest⟩ := List.forall_mem_cons.mp hlines
    obtain ⟨field, hfield, h⟩ := Option.bind_eq_some_iff.mp h
    obtain ⟨more, hmore, h⟩ := Option.bind_eq_some_iff.mp h
    cases h
    exact List.forall_mem_cons.mpr
      ⟨readField_oneLine hline hfield, readFields_oneLine hrest hmore⟩

/-- **What comes back is clean.** -/
theorem readResponse_oneLine {bytes : Bytes} {read : Message} (h : readResponse bytes = some read) :
    ∀ field ∈ read.fields, OneLine field.2 := by
  obtain ⟨⟨lines, payload⟩, hlines, h⟩ := Option.bind_eq_some_iff.mp h
  obtain ⟨first, -, h⟩ := Option.bind_eq_some_iff.mp h
  obtain ⟨fields, hfields, h⟩ := Option.bind_eq_some_iff.mp h
  cases h
  refine readFields_oneLine (fun line hline => ?_) hfields
  exact readLines_oneLine ⟨List.not_mem_nil, List.not_mem_nil⟩ hlines line (List.mem_of_mem_tail hline)

/-! ## The request id -/

/-- The headers a handler answers with, wherever it stands. -/
def Handler.reflects : Handler → List (String × String)
  | .arrived call => respHeaders call
  | .looping call _ => respHeaders call
  | .loaded call _ _ => respHeaders call
  | .executing call _ => respHeaders call
  | .releasing call _ => respHeaders call
  | .refused response => response.headers
  | .answered response => response.headers

theorem gate_headers {config : ServeConfig} {call : Call} (h : gate config call = .error response) :
    response.headers = respHeaders call := by
  unfold gate at h
  simp only at h
  split at h
  · cases h
    rfl
  split at h
  · cases h
    rfl
  split at h
  · cases h
  · cases h
    rfl

theorem respond_headers (call : Call) (result : Executed) :
    (respond call result).headers = respHeaders call := by
  cases result with
  | ok value => rfl
  | err e => rfl
  | panic => rfl

theorem reflects_step {config : ServeConfig} {n n' : UInt64} {t t' : Handler}
    (h : handlerStep config n t = some (n', t')) : t'.reflects = t.reflects := by
  cases t with
  | arrived call =>
    cases hgate : gate config call with
    | error response =>
      rw [handlerStep, hgate] at h
      cases h
      exact gate_headers hgate
    | ok mode =>
      rw [handlerStep, hgate] at h
      cases h
      rfl
  | looping call mode =>
    rw [handlerStep] at h
    split at h <;> cases h <;> rfl
  | loaded call mode cur =>
    rw [handlerStep] at h
    split at h <;> cases h <;> rfl
  | executing call mode =>
    cases h
    rfl
  | releasing call result =>
    cases h
    exact respond_headers call result
  | refused response => cases h
  | answered response => cases h

/-- **Whatever becomes of a request**, the response has its request id and nothing else. -/
theorem responded_headers {config : ServeConfig} {calls : List Call} {schedule : List Nat} {i : Nat}
    {call : Call} {t : Handler} (hcall : calls[i]? = some call)
    (ht : (run (handlerStep config) schedule (serving calls)).threads[i]? = some t)
    (hresponse : t.response = some response) : response.headers = respHeaders call := by
  obtain ⟨t', ht', hreflects⟩ := run_thread (P := fun t => t.reflects = respHeaders call)
    (fun s u s' u' hstep hu => (reflects_step hstep).trans hu) schedule (serving_get hcall) rfl
  rw [ht] at ht'
  obtain rfl := Option.some.inj ht'
  rw [← hreflects]
  cases t with
  | refused r =>
    cases hresponse
    rfl
  | answered r =>
    cases hresponse
    rfl
  | _ => cases hresponse

theorem requestId_eq {w maxBody : Nat} {segments : List Bytes} {parts : HttpRequestParts}
    (h : readHttpRequest w maxBody segments = .ok parts) :
    headerValue parts.headers "x-request-id" = requestId segments.flatten := by
  obtain ⟨headerEnd, head, hend, hhead, -, rfl⟩ := readHttpRequest_ok h
  obtain ⟨method, -, hhead⟩ := bind_eq_ok.mp hhead
  obtain ⟨path, -, hhead⟩ := bind_eq_ok.mp hhead
  cases hhead
  rw [requestId, hend]
  rfl

/-- The request id comes trimmed. -/
theorem headerValue_trim {headers : List (String × String)} {name rid : String}
    (h : headerValue headers name = some rid) : trim rid = rid := by
  obtain ⟨field, -, rfl⟩ := Option.map_eq_some_iff.mp h
  exact trim_solid (solid_trim_toList _)

theorem shown_respHeaders (call : Call) : shown (respHeaders call) =
    ((headerValue call.headers "x-request-id").map fun rid => ("X-Request-Id", rid)).toList := by
  have hkeep : eqIgnoreAsciiCase "X-Request-Id" serveSecretHeader = false := by decide
  rw [respHeaders]
  cases headerValue call.headers "x-request-id" with
  | none => rfl
  | some rid => exact List.filter_cons_of_pos (by rw [hkeep]; rfl)

/-- **The response reads back if and only if the request id is one line**: as its own three fields,
the request id as the client sent it, and the payload, for every reader of line ends. -/
theorem response_reads_back_iff {config : ServeConfig} {calls : List Call} {schedule : List Nat}
    {i w maxBody : Nat} {segments : List Bytes} {parts : HttpRequestParts}
    {execute : Bytes → String → Executed} {durationMs : UInt64} {t : Handler}
    (display : Json.Tree → String)
    (hread : readHttpRequest w maxBody segments = .ok parts)
    (hcall : calls[i]? = some (parts.call execute durationMs))
    (ht : (run (handlerStep config) schedule (serving calls)).threads[i]? = some t)
    (hresponse : t.response = some response) :
    readResponse (writeHttpResponse display response) =
        some (message display response (requestId segments.flatten)) ↔
      ∀ rid, requestId segments.flatten = some rid → OneLine rid := by
  have hheaders := responded_headers hcall ht hresponse
  have hid : headerValue (parts.call execute durationMs).headers "x-request-id" =
      requestId segments.flatten := requestId_eq hread
  have hshown : shown response.headers =
      ((requestId segments.flatten).map fun rid => ("X-Request-Id", rid)).toList := by
    rw [hheaders, shown_respHeaders, hid]
  constructor
  · intro hback rid hrid
    refine readResponse_oneLine hback ("X-Request-Id", rid) ?_
    show _ ∈ ownFields _ ++ _
    rw [hrid]
    exact List.mem_append_right _ List.mem_cons_self
  · intro hline
    have hclean : ∀ field ∈ shown response.headers, Clean field := by
      intro field hfield
      rw [hshown, Option.mem_toList, Option.map_eq_some_iff] at hfield
      obtain ⟨rid, hrid, rfl⟩ := hfield
      exact clean_of_name (by decide) (headerValue_trim (hid.trans hrid)) (hline rid hrid)
    rw [readResponse_clean (oneLine_statusLine _) hclean (clean_ownFields _), hshown]
    rfl

/-- A request for a route that is not there, and what is answered. -/
def strayConfig : ServeConfig := ⟨"127.0.0.1", 8080, none, 4⟩

def strayParts (rid : String) : HttpRequestParts := ⟨"GET", "/x", [("X-Request-Id", rid)], []⟩

def strayResponse (rid : String) : Response :=
  ⟨404, errorValue "not_found" "unknown route GET /x" false, [("X-Request-Id", rid)]⟩

def strayCall (rid : String) : Call := (strayParts rid).call (fun _ _ => .panic) 0

theorem stray_gate {rid : String} (hrid : trim rid = rid) :
    gate strayConfig (strayCall rid) = .error (strayResponse rid) := by
  have hid : respHeaders (strayCall rid) = [("X-Request-Id", rid)] := by
    show [("X-Request-Id", trim rid)] = _
    rw [hrid]
  have hpath : pathNorm (strayCall rid).path = "/x" := by
    show pathNorm "/x" = "/x"
    decide
  have hhealth : ¬ (eqIgnoreAsciiCase (strayCall rid).method "GET" = true ∧
      ("/x" = "/health" ∨ "/x" = "/")) := fun h => absurd h.2 (by decide)
  have hmode : modeOf (asciiUpper (strayCall rid).method) "/x" = none := by
    show modeOf (asciiUpper "GET") "/x" = none
    decide
  have htext : "unknown route " ++ (strayCall rid).method ++ " " ++ "/x" =
      "unknown route GET /x" := by
    show "unknown route " ++ "GET" ++ " " ++ "/x" = _
    decide
  unfold gate
  simp only [hpath, hmode, htext, hid]
  rw [if_neg hhealth]
  rfl

theorem stray_refused {rid : String} (hrid : trim rid = rid) :
    (run (handlerStep strayConfig) [0] (serving [strayCall rid])).threads[0]? =
      some (.refused (strayResponse rid)) := by
  have hstep : handlerStep strayConfig 0 (.arrived (strayCall rid)) =
      some (0, .refused (strayResponse rid)) := by
    rw [handlerStep, stray_gate hrid]
  have hget : ([Handler.arrived (strayCall rid)][0]?).bind (handlerStep strayConfig 0) =
      some (0, .refused (strayResponse rid)) := hstep
  show (move (handlerStep strayConfig) 0 ⟨0, [.arrived (strayCall rid)]⟩).threads[0]? = _
  rw [move, hget]
  rfl

/-- The request, read at once. -/
theorem stray_read {request : Bytes} {rid : String} {headerEnd : Nat}
    (hend : position terminator request = some headerEnd) (hsize : request.length ≤ 2048)
    (hhead : parseHead 64 (request.take headerEnd) = .ok ⟨"GET", "/x", [("X-Request-Id", rid)], 0⟩) :
    readHttpRequest 64 0 [request] = .ok (strayParts rid) := by
  have hle := position_le hend
  have hfour : terminator.length = 4 := rfl
  have hsized : ∀ segment ∈ [request], 1 ≤ segment.length ∧ segment.length ≤ 2048 := by
    intro segment hsegment
    rw [List.mem_singleton.mp hsegment]
    omega
  exact readHttpRequest_returns ⟨[request], List.append_nil _, hsized⟩ hend hhead (Nat.zero_le _)
    (by omega) (.inl rfl)

theorem stray_read_seven :
    readHttpRequest 64 0 [utf8 "GET /x HTTP/1.1\r\nX-Request-Id: 7\r\n\r\n"] =
      .ok (strayParts "7") := by
  have hbytes : (utf8 "GET /x HTTP/1.1\r\nX-Request-Id: 7\r\n\r\n").take 32 =
      utf8 "GET /x HTTP/1.1\r\nX-Request-Id: 7" := by decide
  have hend : position terminator (utf8 "GET /x HTTP/1.1\r\nX-Request-Id: 7\r\n\r\n") = some 32 := by
    decide
  refine stray_read hend (by decide) ?_
  rw [hbytes, parseHead, fromUtf8Lossy_utf8]
  rfl

theorem stray_read_broken :
    readHttpRequest 64 0 [utf8 "GET /x HTTP/1.1\r\nX-Request-Id: 7\nSet-Cookie: a=b\r\n\r\n"] =
      .ok (strayParts "7\nSet-Cookie: a=b") := by
  have hbytes : (utf8 "GET /x HTTP/1.1\r\nX-Request-Id: 7\nSet-Cookie: a=b\r\n\r\n").take 48 =
      utf8 "GET /x HTTP/1.1\r\nX-Request-Id: 7\nSet-Cookie: a=b" := by decide
  have hend : position terminator
      (utf8 "GET /x HTTP/1.1\r\nX-Request-Id: 7\nSet-Cookie: a=b\r\n\r\n") = some 48 := by decide
  refine stray_read hend (by decide) ?_
  rw [hbytes, parseHead, fromUtf8Lossy_utf8]
  rfl

/-- The payload of the answer. -/
def strayPayload : String := "\x7b\"error\":\x7b\"code\":\"not_found\",\"message\":" ++
  "\"unknown route GET /x\",\"retryable\":false\x7d,\"success\":false\x7d"

theorem response_reads_back_stray :
    readResponse (writeHttpResponse (fun _ => strayPayload) (strayResponse "7")) =
      some (message (fun _ => strayPayload) (strayResponse "7") (some "7")) := by
  have hid : requestId [utf8 "GET /x HTTP/1.1\r\nX-Request-Id: 7\r\n\r\n"].flatten = some "7" :=
    (requestId_eq stray_read_seven).symm.trans (by decide)
  have hcall : [strayCall "7"][0]? = some ((strayParts "7").call (fun _ _ => .panic) 0) := rfl
  rw [← hid]
  refine (response_reads_back_iff (fun _ => strayPayload) stray_read_seven hcall
    (stray_refused (by decide)) rfl).mpr ?_
  rw [hid]
  intro rid hrid
  rw [← Option.some.inj hrid]
  decide

set_option maxRecDepth 8000 in
/-- A line feed in the request id, and the reader has one field more. -/
theorem stray_reads_broken :
    (readResponse (writeHttpResponse (fun _ => strayPayload)
      (strayResponse "7\nSet-Cookie: a=b"))).map (fun read => read.fields.drop 3) =
        some [("X-Request-Id", "7"), ("Set-Cookie", "a=b")] := by
  rw [readResponse, writeHttpResponse_chars]
  decide

theorem not_response_reads_back :
    ¬ ∀ (config : ServeConfig) (calls : List Call) (schedule : List Nat) (i w maxBody : Nat)
      (segments : List Bytes) (parts : HttpRequestParts) (execute : Bytes → String → Executed)
      (durationMs : UInt64) (t : Handler) (response : Response) (display : Json.Tree → String),
      readHttpRequest w maxBody segments = .ok parts →
        calls[i]? = some (parts.call execute durationMs) →
          (run (handlerStep config) schedule (serving calls)).threads[i]? = some t →
            t.response = some response →
              readResponse (writeHttpResponse display response) =
                some (message display response (requestId segments.flatten)) := by
  intro hall
  have hback := hall strayConfig [strayCall "7\nSet-Cookie: a=b"] [0] 0 64 0
    [utf8 "GET /x HTTP/1.1\r\nX-Request-Id: 7\nSet-Cookie: a=b\r\n\r\n"] _ _ _ _ _
    (fun _ => strayPayload) stray_read_broken rfl (stray_refused (by decide)) rfl
  have hfields := congrArg (Option.map fun read => read.fields.drop 3) hback
  rw [stray_reads_broken] at hfields
  cases hid : requestId
      [utf8 "GET /x HTTP/1.1\r\nX-Request-Id: 7\nSet-Cookie: a=b\r\n\r\n"].flatten with
  | none =>
    rw [hid] at hfields
    cases hfields
  | some rid =>
    rw [hid] at hfields
    cases hfields

end Basecrawl.Core.Serve
