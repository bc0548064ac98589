/-
  The engine's quote client.

  `getQuote` is `get_quote_at` with the socket replaced by the object the guest agent answered with:
  the submitted report data is normalized, the response is deserialized and then checked.  What it
  accepts is `Attested` (`getQuote_eq_ok`): the four members are there, the quote is hex of either
  case with the layout of a TDX v4 quote, and both the returned and the embedded report data are the
  normalized one.
-/
import Basecrawl.Core.Canonical
import Basecrawl.Core.Quote
import Basecrawl.Lib.Json

namespace Basecrawl.Core.Attestation

open Text Hex LittleEndian Outcome Panic Json

/-! ## Report data -/

/-- `normalized[..value.len()].copy_from_slice(value)`. -/
def copyToFront (buffer value : Bytes) : QuoteResult Bytes := do
  let _ ← slice buffer 0 value.length
  return value ++ buffer.drop value.length

/-- Report data longer than the field is replaced by its digest. -/
def reportDataField (digests : Digests) (bytes : Bytes) : Bytes :=
  if bytes.length > tdReportDataBytes then (digests.sha256 bytes).toList else bytes

def normalizeReportData (digests : Digests) (input : String) : QuoteResult String := do
  let input := trim input
  require (decide (input ≠ "")) (.err .emptyReportData)
  require (decide ((utf8 input).length % 2 = 0) && (utf8 input).all isAsciiHexdigit)
    (.err .invalidReportData)
  let inputBytes ← okOr (decodeHex input) (.err .invalidReportData)
  let normalized ← copyToFront (List.replicate tdReportDataBytes 0)
    (reportDataField digests inputBytes)
  return hexEncode normalized

/-- The 64-byte field. -/
def paddedReportData (digests : Digests) (bytes : Bytes) : Bytes :=
  reportDataField digests bytes ++
    List.replicate (tdReportDataBytes - (reportDataField digests bytes).length) 0

theorem length_reportDataField (digests : Digests) (bytes : Bytes) :
    (reportDataField digests bytes).length ≤ tdReportDataBytes := by
  unfold reportDataField
  split
  · rw [Vector.length_toList]
    decide
  · omega

theorem length_paddedReportData (digests : Digests) (bytes : Bytes) :
    (paddedReportData digests bytes).length = 64 := by
  have hfield := length_reportDataField digests bytes
  have hsize : tdReportDataBytes = 64 := rfl
  rw [paddedReportData, List.length_append, List.length_replicate]
  omega

theorem copyToFront_eq (digests : Digests) (bytes : Bytes) :
    copyToFront (List.replicate tdReportDataBytes 0) (reportDataField digests bytes) =
      .ok (paddedReportData digests bytes) := by
  have hfield := length_reportDataField digests bytes
  rw [copyToFront, slice_eq (Nat.zero_le _) (by rwa [List.length_replicate]), ok_bind,
    List.drop_replicate]
  rfl

/-- What normalizes: hex, and not empty. -/
theorem normalizeReportData_eq_ok {digests : Digests} {input expected : String} :
    normalizeReportData digests input = .ok expected ↔
      ∃ bytes, trim input ≠ "" ∧ decodeHex (trim input) = some bytes ∧
        expected = hexEncode (paddedReportData digests bytes) := by
  simp only [normalizeReportData, bind_eq_ok, require_eq_ok, okOr_eq_ok, Bool.and_eq_true,
    decide_eq_true_eq, copyToFront_eq]
  constructor
  · rintro ⟨_, hne, _, -, bytes, hbytes, _, hpad, hexpected⟩
    cases hpad
    cases hexpected
    exact ⟨bytes, hne, hbytes, rfl⟩
  · rintro ⟨bytes, hne, hbytes, rfl⟩
    have hdigits := isSome_of_hexBytes hbytes
    have hlen := length_of_hexBytes hbytes
    refine ⟨(), hne, (), ⟨by omega, ?_⟩, bytes, hbytes, _, rfl, rfl⟩
    rw [List.all_eq_true]
    intro c hc
    rw [isAsciiHexdigit_eq]
    exact hdigits c hc

theorem normalizeReportData_no_panic (digests : Digests) (input : String) :
    normalizeReportData digests input ≠ .error .panic := by
  intro h
  simp [normalizeReportData, bind_eq_error, copyToFront_eq, pure, Except.pure] at h

/-! ## The response -/

/-- `QuoteResponse`. -/
structure QuoteResponse where
  quote : String
  eventLog : Tree
  reportData : String
  vmConfig : Tree
deriving DecidableEq

/-- `serde_json::from_slice::<QuoteResponse>` of an object: other members are ignored. -/
def QuoteResponse.deserialize (response : Map) : QuoteResult QuoteResponse := do
  let quote ← okOr ((response.get "quote").bind Tree.asStr) (.err .invalidJson)
  let eventLog ← okOr (response.get "event_log") (.err .invalidJson)
  let reportData ← okOr ((response.get "report_data").bind Tree.asStr) (.err .invalidJson)
  let vmConfig ← okOr (response.get "vm_config") (.err .invalidJson)
  return { quote, eventLog, reportData, vmConfig }

/-- `Value::is_null`. -/
def isNull : Tree → Bool
  | .null => true
  | _ => false

def isEmptyJson : Tree → Bool
  | .array values => values.isEmpty
  | .object values => values.isEmpty
  | .string value => value == ""
  | _ => false

def validateQuoteResponse (w : Nat) (response : QuoteResponse) (expectedReportData : String) :
    QuoteResult QuoteResponse := do
  require (decide (response.quote ≠ "")) (.err (.missingField "quote"))
  require (!(isNull response.eventLog || isEmptyJson response.eventLog))
    (.err (.missingField "event_log"))
  require (!(isNull response.vmConfig || isEmptyJson response.vmConfig))
    (.err (.missingField "vm_config"))
  let quote ← okOr (decodeHex response.quote) (.err .invalidQuote)
  validateTdxV4Quote w quote
  let embeddedReportData ← quoteReportData w response.quote
  let returned := asciiLower response.reportData
  require (decide (returned = expectedReportData))
    (.err (.reportDataMismatch expectedReportData returned))
  require (decide (embeddedReportData = expectedReportData)) (.err .quoteReportDataMismatch)
  return { response with quote := hexEncode quote, reportData := returned }

/-- `get_quote_at`, from the object in the response. -/
def getQuote (w : Nat) (digests : Digests) (reportData : String) (response : Map) :
    QuoteResult QuoteResponse := do
  let normalizedReportData ← normalizeReportData digests reportData
  let value ← QuoteResponse.deserialize response
  validateQuoteResponse w value normalizedReportData

/-! ## What is accepted -/

/-- A member that carries something. -/
def isBlank (value : Tree) : Bool := isNull value || isEmptyJson value

/-- A response that attests the expected report data by the quote `q`. -/
structure Attested (response : Map) (expected : String) (q : Bytes) : Prop where
  quote : ∃ text, response.get "quote" = some (.string text) ∧ decodeHex text = some q
  eventLog : ∃ value, response.get "event_log" = some value ∧ isBlank value = false
  reportData : ∃ returned, response.get "report_data" = some (.string returned) ∧
    asciiLower returned = expected
  vmConfig : ∃ value, response.get "vm_config" = some value ∧ isBlank value = false
  layout : QuoteLayout q
  embedded : hexEncode (field q 568 64) = expected

/-- A response has one quote in it. -/
theorem Attested.unique {response : Map} {expected expected' : String} {q q' : Bytes}
    (h : Attested response expected q) (h' : Attested response expected' q') : q = q' := by
  obtain ⟨text, htext, hdecoded⟩ := h.quote
  obtain ⟨text', htext', hdecoded'⟩ := h'.quote
  rw [htext] at htext'
  cases htext'
  rw [hdecoded] at hdecoded'
  exact Option.some.inj hdecoded'

theorem deserialize_eq_ok {response : Map} {value : QuoteResponse} :
    QuoteResponse.deserialize response = .ok value ↔
      response.get "quote" = some (.string value.quote) ∧
      response.get "event_log" = some value.eventLog ∧
      response.get "report_data" = some (.string value.reportData) ∧
      response.get "vm_config" = some value.vmConfig := by
  simp only [QuoteResponse.deserialize, bind_eq_ok, okOr_eq_ok, asStr_bind_eq_some]
  constructor
  · rintro ⟨quote, hquote, eventLog, heventLog, reportData, hreportData, vmConfig, hvmConfig, h⟩
    cases h
    exact ⟨hquote, heventLog, hreportData, hvmConfig⟩
  · rintro ⟨hquote, heventLog, hreportData, hvmConfig⟩
    exact ⟨_, hquote, _, heventLog, _, hreportData, _, hvmConfig, rfl⟩

/-- A decoded text that fits in memory decodes to bytes that do. -/
theorem length_decodeHex_lt {w : Nat} {text : String} {q : Bytes} (h : decodeHex text = some q)
    (hfits : (utf8 text).length < 2 ^ w) : q.length < 2 ^ w := by
  have hlen := length_of_hexBytes h
  omega

/-- A quote with a layout is not empty. -/
theorem ne_empty_of_layout {text : String} {q : Bytes} (h : decodeHex text = some q)
    (hlayout : QuoteLayout q) : text ≠ "" := by
  rintro rfl
  cases h
  have hinside := hlayout.inside
  simp at hinside

/-- What the engine accepts of a deserialized response. -/
theorem validateQuoteResponse_eq_ok {w : Nat} (hw : 32 ≤ w) {value r : QuoteResponse}
    {expected : String} (hfits : (utf8 value.quote).length < 2 ^ w) :
    validateQuoteResponse w value expected = .ok r ↔
      ∃ q, decodeHex value.quote = some q ∧ isBlank value.eventLog = false ∧
        isBlank value.vmConfig = false ∧ QuoteLayout q ∧
        asciiLower value.reportData = expected ∧ hexEncode (field q 568 64) = expected ∧
        r = { value with quote := hexEncode q, reportData := expected } := by
  simp only [validateQuoteResponse, bind_eq_ok, okOr_eq_ok, require_eq_ok, decide_eq_true_eq,
    Bool.not_eq_true']
  constructor
  · rintro ⟨_, -, _, hevent, _, hvm, q, hq, _, hvalid, embedded, hembedded, _, hreturned, _,
      hsame, h⟩
    have hlen := length_decodeHex_lt hq hfits
    have hlayout := (validateTdxV4Quote_decides hw hlen).ok_iff.mp hvalid
    have hfield := ((quoteReportData_yields hw hlen hq).ok_iff _).mp hembedded
    rw [hfield.2] at hsame
    cases h
    exact ⟨q, hq, hevent, hvm, hlayout, hreturned, hsame, by rw [hreturned]⟩
  · rintro ⟨q, hq, hevent, hvm, hlayout, hreturned, hsame, rfl⟩
    have hlen := length_decodeHex_lt hq hfits
    have hne := ne_empty_of_layout hq hlayout
    refine ⟨(), hne, (), hevent, (), hvm, q, hq, (), ?_, _, ?_, (), hreturned, (), hsame, ?_⟩
    · exact (validateTdxV4Quote_decides hw hlen).ok_iff.mpr hlayout
    · exact ((quoteReportData_yields hw hlen hq).ok_iff _).mpr ⟨hlayout, rfl⟩
    · rw [hreturned]
      rfl

/-- **What the engine accepts**: a response that attests the normalized report data. -/
theorem getQuote_eq_ok {w : Nat} (hw : 32 ≤ w) {digests : Digests} {submitted : String}
    {response : Map} {r : QuoteResponse}
    (hfits : ∀ quote, response.get "quote" = some (.string quote) → (utf8 quote).length < 2 ^ w) :
    getQuote w digests submitted response = .ok r ↔
      ∃ expected q, normalizeReportData digests submitted = .ok expected ∧
        Attested response expected q ∧ r.quote = hexEncode q ∧ r.reportData = expected ∧
        response.get "event_log" = some r.eventLog ∧
        response.get "vm_config" = some r.vmConfig := by
  simp only [getQuote, bind_eq_ok, deserialize_eq_ok]
  constructor
  · rintro ⟨expected, hexpected, value, ⟨hquote, hevent, hreport, hvm⟩, h⟩
    obtain ⟨q, hq, heventSome, hvmSome, hlayout, hreturned, hsame, rfl⟩ :=
      (validateQuoteResponse_eq_ok hw (hfits _ hquote)).mp h
    exact ⟨expected, q, hexpected, ⟨⟨_, hquote, hq⟩, ⟨_, hevent, heventSome⟩,
      ⟨_, hreport, hreturned⟩, ⟨_, hvm, hvmSome⟩, hlayout, hsame⟩, rfl, rfl, hevent, hvm⟩
  · rintro ⟨expected, q, hexpected, ⟨⟨text, hquote, hq⟩, ⟨event, hevent, heventSome⟩,
      ⟨returned, hreport, hreturned⟩, ⟨vm, hvm, hvmSome⟩, hlayout, hsame⟩, hr1, hr2, hr3, hr4⟩
    refine ⟨expected, hexpected, ⟨text, event, returned, vm⟩, ⟨hquote, hevent, hreport, hvm⟩, ?_⟩
    refine (validateQuoteResponse_eq_ok hw (hfits _ hquote)).mpr
      ⟨q, hq, heventSome, hvmSome, hlayout, hreturned, hsame, ?_⟩
    rw [hevent] at hr3
    rw [hvm] at hr4
    cases hr3
    cases hr4
    cases r
    simp only [QuoteResponse.mk.injEq]
    exact ⟨hr1, trivial, hr2, trivial⟩

/-- The checks stop with an error of the client, never with a panic. -/
theorem getQuote_no_panic {w : Nat} (hw : 32 ≤ w) {digests : Digests} {submitted : String}
    {response : Map}
    (hfits : ∀ quote, response.get "quote" = some (.string quote) → (utf8 quote).length < 2 ^ w) :
    getQuote w digests submitted response ≠ .error .panic := by
  intro h
  rcases bind_eq_error.mp h with h | ⟨expected, -, h⟩
  · exact normalizeReportData_no_panic digests submitted h
  rcases bind_eq_error.mp h with h | ⟨value, hvalue, h⟩
  · simp [QuoteResponse.deserialize, bind_eq_error, pure, Except.pure] at h
  have hquote := hfits _ (deserialize_eq_ok.mp hvalue).1
  simp only [validateQuoteResponse, bind_eq_error, require_eq_error, okOr_eq_error, okOr_eq_ok,
    reduceCtorEq, and_false, false_or, or_false, exists_false, pure, Except.pure] at h
  obtain ⟨_, -, _, -, _, -, q, hq, h⟩ := h
  have hlen := length_decodeHex_lt hq hquote
  rcases h with h | ⟨_, -, h⟩
  · exact (validateTdxV4Quote_decides hw hlen).no_panic h
  · exact (quoteReportData_yields hw hlen hq).no_panic h

/-! ## What a quote is bound to -/

/-- Report data the client takes: an even number of hex digits, at least two, in white space. -/
structure ReportDigits (input digits : String) : Prop where
  trimmed : trim input = digits
  nonempty : digits ≠ ""
  even : digits.toList.length % 2 = 0
  digits : ∀ c ∈ digits.toList, c ∈ hexChars

/-- `n` zero digits. -/
def zeroDigits (n : Nat) : String := String.ofList (List.replicate n '0')

theorem hexEncode_append (a b : Bytes) : hexEncode (a ++ b) = hexEncode a ++ hexEncode b := by
  rw [hexEncode, List.flatMap_append, String.ofList_append]
  rfl

theorem hexEncode_zeros (n : Nat) : hexEncode (List.replicate n 0) = zeroDigits (2 * n) := by
  rw [hexEncode, zeroDigits]
  congr 1
  induction n with
  | zero => rfl
  | succ n ih =>
    have hpair : hexPair 0 = List.replicate 2 '0' := rfl
    rw [List.replicate_succ, List.flatMap_cons, ih, hpair, List.replicate_append_replicate]
    congr 1
    omega

theorem ReportDigits.of_hex {input : String} (hne : input ≠ "") (heven : input.toList.length % 2 = 0)
    (hhex : ∀ c ∈ input.toList, c ∈ hexChars) : ReportDigits input input where
  trimmed := by
    refine trim_eq_self fun c hc => ?_
    have hblank : hexChars.all (fun c => !isWhitespace c) = true := by decide
    simpa using List.all_eq_true.mp hblank c (hhex c hc)
  nonempty := hne
  even := heven
  digits := hhex

/-- What normalizes are the report digits, and they normalize to the padded field. -/
theorem normalizeReportData_iff {digests : Digests} {input expected : String} :
    normalizeReportData digests input = .ok expected ↔
      ∃ digits bytes, ReportDigits input digits ∧ decodeHex digits = some bytes ∧
        expected = hexEncode (paddedReportData digests bytes) := by
  rw [normalizeReportData_eq_ok]
  constructor
  · rintro ⟨bytes, hne, hbytes, hexpected⟩
    have hlen := length_of_hexBytes_utf8 hbytes
    exact ⟨_, bytes, ⟨rfl, hne, by omega, (hexBytes_utf8 hbytes).1⟩, hbytes, hexpected⟩
  · rintro ⟨digits, bytes, hdigits, hbytes, hexpected⟩
    obtain ⟨rfl, hne, -, -⟩ := hdigits
    exact ⟨bytes, hne, hbytes, hexpected⟩

theorem ReportDigits.decodes {input digits : String} (h : ReportDigits input digits) :
    ∃ bytes, decodeHex digits = some bytes ∧ digits.toList.length = 2 * bytes.length ∧
      hexEncode bytes = asciiLower digits := by
  obtain ⟨bytes, hbytes⟩ := hexBytes_of_hexChars h.digits h.even
  exact ⟨bytes, hbytes, length_of_hexBytes_utf8 hbytes, (hexBytes_utf8 hbytes).2.symm⟩

/-- Report data of at most 64 bytes is lower-cased and padded on the right. -/
theorem ReportDigits.pads {input digits : String} (h : ReportDigits input digits)
    (digests : Digests) (hlen : digits.toList.length ≤ 128) :
    normalizeReportData digests input =
      .ok (asciiLower digits ++ zeroDigits (128 - digits.toList.length)) := by
  obtain ⟨bytes, hbytes, htwo, hlower⟩ := h.decodes
  have hfield : reportDataField digests bytes = bytes := if_neg (by
    have hsize : tdReportDataBytes = 64 := rfl
    omega)
  have hrest : 2 * (tdReportDataBytes - bytes.length) = 128 - digits.toList.length := by
    have hsize : tdReportDataBytes = 64 := rfl
    omega
  refine normalizeReportData_iff.mpr ⟨digits, bytes, h, hbytes, ?_⟩
  rw [paddedReportData, hfield, hexEncode_append, hexEncode_zeros, hlower, hrest]

/-- Longer report data is hashed, and the digest padded on the right. -/
theorem ReportDigits.hashes {input digits : String} (h : ReportDigits input digits)
    (digests : Digests) (hlen : 128 < digits.toList.length) :
    ∃ bytes, decodeHex digits = some bytes ∧ normalizeReportData digests input =
      .ok (hexEncode (digests.sha256 bytes).toList ++ zeroDigits 64) := by
  obtain ⟨bytes, hbytes, htwo, -⟩ := h.decodes
  have hfield : reportDataField digests bytes = (digests.sha256 bytes).toList := if_pos (by
    have hsize : tdReportDataBytes = 64 := rfl
    omega)
  refine ⟨bytes, hbytes, normalizeReportData_iff.mpr ⟨digits, bytes, h, hbytes, ?_⟩⟩
  rw [paddedReportData, hfield, hexEncode_append, hexEncode_zeros, Vector.length_toList]
  rfl

/-- The normalized form is 64 bytes of lower-case hex. -/
theorem normalizeReportData_digits {digests : Digests} {input expected : String}
    (h : normalizeReportData digests input = .ok expected) :
    expected.toList.length = 128 ∧ ∀ c ∈ expected.toList, c ∈ "0123456789abcdef".toList := by
  obtain ⟨_, bytes, -, -, rfl⟩ := normalizeReportData_iff.mp h
  rw [hexEncode, String.toList_ofList, length_flatMap_hexPair, length_paddedReportData]
  refine ⟨rfl, fun c hc => ?_⟩
  obtain ⟨b, -, hc⟩ := List.mem_flatMap.mp hc
  exact mem_hexPair hc

/-- An accepted response carries the expected report data twice, the second time in its quote. -/
theorem validateQuoteResponse_bound {w : Nat} {response r : QuoteResponse} {expected : String}
    (h : validateQuoteResponse w response expected = .ok r) :
    r.reportData = expected ∧ quoteReportData w r.quote = .ok expected := by
  simp only [validateQuoteResponse, bind_eq_ok, okOr_eq_ok, require_eq_ok, decide_eq_true_eq] at h
  obtain ⟨_, -, _, -, _, -, quote, hquote, _, -, embedded, hembedded, _, hreturned, _, hsame, h⟩ := h
  cases h
  refine ⟨hreturned, ?_⟩
  -- the quote is written back in lower case, and its bytes are read again
  have hdecoded : decodeHex (hexEncode quote) = decodeHex response.quote :=
    (hexBytes_hexEncode quote).trans hquote.symm
  rw [quoteReportData, hdecoded, ← quoteReportData, hembedded, hsame]

/-- **Quote responses are bound to the request**: whatever response is accepted for an accepted
input, its report data, the report data in its quote and the normalized input are equal.  The
normalized input is 128 lower-case digits: the digits of the input, padded with zeros, or the padded
digest of the bytes when there are more than 64 of them. -/
theorem quoteResponse_bound (w : Nat) (digests : Digests) (input : String) :
    (∀ expected, normalizeReportData digests input = .ok expected →
      (∀ response r, validateQuoteResponse w response expected = .ok r →
        r.reportData = expected ∧ quoteReportData w r.quote = .ok expected) ∧
      expected.toList.length = 128 ∧ (∀ c ∈ expected.toList, c ∈ "0123456789abcdef".toList) ∧
      ∃ digits, ReportDigits input digits) ∧
    ((∀ c ∈ input.toList, c ∈ hexChars) → input.toList.length = 128 →
      normalizeReportData digests input = .ok (asciiLower input)) ∧
    ∀ digits, ReportDigits input digits →
      (digits.toList.length ≤ 128 → normalizeReportData digests input =
        .ok (asciiLower digits ++ zeroDigits (128 - digits.toList.length))) ∧
      (128 < digits.toList.length → ∃ bytes, decodeHex digits = some bytes ∧
        normalizeReportData digests input =
          .ok (hexEncode (digests.sha256 bytes).toList ++ zeroDigits 64)) := by
  refine ⟨fun expected h => ?_, fun hhex hlen => ?_, fun digits h =>
    ⟨h.pads digests, h.hashes digests⟩⟩
  · obtain ⟨hlen, hlower⟩ := normalizeReportData_digits h
    obtain ⟨digits, -, hdigits, -⟩ := normalizeReportData_iff.mp h
    exact ⟨fun _ _ => validateQuoteResponse_bound, hlen, hlower, digits, hdigits⟩
  · have hne : input ≠ "" := by
      rintro rfl
      cases hlen
    have h := ReportDigits.of_hex hne (by omega) hhex
    have hpads := h.pads digests (by omega)
    rwa [hlen, zeroDigits, List.replicate_zero, String.ofList_nil, String.append_empty] at hpads

end Basecrawl.Core.Attestation
