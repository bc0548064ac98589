/-
  The operator's quote client, and its agreement with the engine's.

  The two clients were written apart.  They meet in `QuoteLayout`: `quoteShape` decides it on
  unbounded integers and clamped slices, the engine's validator on a machine word and checked reads.
  `parseGetQuote_eq_ok` says that what the operator accepts is again `Attested`, and
  `quote_clients_agree` puts the two together.

  `attest.py` spells the layout constants out again, under the engine's names and with its values.
  In Python the third outcome of `Panic` is an exception of another class than `AttestationError`.
-/
import Basecrawl.Core.QuoteClient
import Basecrawl.Lib.PyText

namespace Basecrawl.Image

open Text Hex LittleEndian Outcome Panic PyText Json Basecrawl.Core Basecrawl.Core.Attestation

/-- A quote response failed closed validation. -/
structure AttestationError where
  message : String
deriving DecidableEq

abbrev PyResult (α : Type) := Checked AttestationError α

/-- `raise AttestationError(message)`. -/
def attestationError (message : String) : Stop AttestationError := .err ⟨message⟩

/-- `value[lo:hi]`. -/
def pySlice {α : Type} (value : List α) (lo hi : Nat) : List α := (value.drop lo).take (hi - lo)

/-- `bytes.fromhex` of hex digits: a `ValueError` on an odd one. -/
def bytesFromHex (value : String) : PyResult Bytes := okOr (hexBytes (utf8 value)) .panic

def normalizeReportData (lower : String → String) (digests : Digests) (reportData : String) :
    PyResult String := do
  let value := lower (strip reportData)
  require (decide (value ≠ "" ∧ value.toList.length % 2 = 0 ∧ isHexText value = true))
    (attestationError "report_data must be non-empty, even-length hexadecimal")
  let payload ← bytesFromHex value
  let payload := if payload.length > 64 then (digests.sha256 payload).toList else payload
  return hexEncode (payload ++ List.replicate (64 - payload.length) 0)

/-- `_read_uint`. -/
def readUint (value : Bytes) (offset size : Nat) : PyResult Nat := do
  require (decide (offset + size ≤ value.length))
    (attestationError "quote structure is malformed or truncated: missing length or type field")
  return leNat (pySlice value offset (offset + size))

/-- The part of `_quote_shape` that walks the signature data. -/
def signatureDataShape (signatureData : Bytes) : PyResult Unit := do
  let cursor := ecdsaSignatureBytes + ecdsaAttestationKeyBytes
  let outerType ← readUint signatureData cursor 2
  let outerLength ← readUint signatureData (cursor + 2) 4
  require (decide (outerType = qeReportCertificationDataType))
    (attestationError "quote structure is malformed: no QE report certification envelope")
  let cursor := cursor + certificationHeaderBytes
  let outerEnd := cursor + outerLength
  require (decide (outerEnd = signatureData.length))
    (attestationError ("quote structure is malformed or truncated: " ++
      "QE certification length does not match signature data"))
  let minimumQeCertification := qeReportBytes + qeReportSignatureBytes
    + authenticationDataLengthBytes + certificationHeaderBytes + minCertificationDataBytes
  require (decide (minimumQeCertification ≤ outerLength))
    (attestationError
      "quote structure is malformed or truncated: QE report certification data is truncated")
  let cursor := cursor + (qeReportBytes + qeReportSignatureBytes)
  let authenticationDataLength ← readUint signatureData cursor 2
  let cursor := cursor + (authenticationDataLengthBytes + authenticationDataLength)
  require (decide (cursor + certificationHeaderBytes ≤ outerEnd))
    (attestationError
      "quote structure is malformed or truncated: authentication data is truncated")
  let certificationType ← readUint signatureData cursor 2
  let certificationDataLength ← readUint signatureData (cursor + 2) 4
  require (decide (certificationType = pckCertificateChainDataType))
    (attestationError "quote structure is malformed: no PCK certificate-chain data")
  require (decide (minCertificationDataBytes ≤ certificationDataLength))
    (attestationError "quote structure is malformed: PCK certification data is empty")
  let cursor := cursor + certificationHeaderBytes
  require (decide (cursor + certificationDataLength = outerEnd))
    (attestationError ("quote structure is malformed or truncated: " ++
      "PCK certification data length does not match quote"))

/-- The part of `_quote_shape` that follows the decoding. -/
def quoteBytesShape (quote : Bytes) (reportData : String) : PyResult Unit := do
  require (decide (leNat (pySlice quote 0 2) = 4 ∧ leNat (pySlice quote 4 8) = 0x81))
    (attestationError "quote is not an Intel TDX v4 quote")
  let signatureDataLength := leNat (pySlice quote signatureDataLengthOffset
    (signatureDataLengthOffset + signatureDataLengthBytes))
  require (decide (minSignatureDataBytes ≤ signatureDataLength))
    (attestationError
      "quote structure is malformed or truncated: signature data is too short")
  let declaredEnd := signatureDataOffset + signatureDataLength
  require (decide (declaredEnd ≤ quote.length))
    (attestationError
      "quote structure is malformed or truncated: declared signature data is truncated")
  require ((quote.drop declaredEnd).all fun byte => byte == 0)
    (attestationError
      "quote structure is malformed: non-zero bytes follow declared signature data")
  signatureDataShape (pySlice quote signatureDataOffset declaredEnd)
  let embedded := hexEncode (pySlice quote (quoteHeaderBytes + tdReportDataOffset)
    (quoteHeaderBytes + tdReportDataOffset + tdReportDataBytes))
  require (decide (embedded = reportData))
    (attestationError "quote report_data does not match submitted report_data")

/-- `_quote_shape`. -/
def quoteShape (quoteHex reportData : String) : PyResult Unit := do
  require (decide (minQuoteHexLen ≤ quoteHex.toList.length ∧ quoteHex.toList.length % 2 = 0 ∧
      isHexText quoteHex = true))
    (attestationError "quote is missing, malformed, or truncated")
  let quote ← bytesFromHex quoteHex
  quoteBytesShape quote reportData

/-- `value in (None, "", [], {})`. -/
def isMissing : Tree → Bool
  | .null => true
  | .string value => value == ""
  | .array values => values.isEmpty
  | .object members => members.isEmpty
  | _ => false

/-- `field not in response or response[field] in (None, "", [], {})` is refused. -/
def requireField (response : Map) (field : String) : PyResult Unit :=
  require ((response.get field).any fun value => !isMissing value)
    (attestationError ("GetQuote response is missing " ++ field))

/-- The returned report data is the expected one, in digits of either case. -/
def returnedMatches (lower : String → String) (expected : String) (returned : String) : Bool :=
  returned.toList.length == 64 * 2 && returned.toList.all (fun c => decide (c ∈ hexChars)) &&
    lower returned == expected

/-- `parse_get_quote`, from the object that `json.loads` returned. -/
def parseGetQuote (lower : String → String) (digests : Digests) (response : Map)
    (submittedReportData : String) : PyResult Map := do
  let expected ← normalizeReportData lower digests submittedReportData
  requireField response "quote"
  requireField response "event_log"
  requireField response "report_data"
  requireField response "vm_config"
  require (((response.get "report_data").bind Tree.asStr).any (returnedMatches lower expected))
    (attestationError "GetQuote response report_data does not match submitted value")
  let quote ← okOr ((response.get "quote").bind Tree.asStr)
    (attestationError "GetQuote quote must be hexadecimal text")
  let quote := lower quote
  quoteShape quote expected
  return (response.insert "quote" (.string quote)).insert "report_data" (.string expected)

/-! ## The shape -/

theorem readUint_eq {value : Bytes} {offset size : Nat} (h : offset + size ≤ value.length) :
    readUint value offset size = .ok (le value offset size) := by
  rw [readUint, decide_eq_true h, require_true, ok_bind, pySlice, Nat.add_sub_cancel_left]
  rfl

theorem signatureDataShape_decides {s : Bytes} (hmin : 591 ≤ s.length) :
    Decides (signatureDataShape s) (SignatureLayout s) := by
  simp only [signatureDataShape, ecdsaSignatureBytes, ecdsaAttestationKeyBytes,
    certificationHeaderBytes, qeReportBytes, qeReportSignatureBytes, authenticationDataLengthBytes,
    minCertificationDataBytes, qeReportCertificationDataType, pckCertificateChainDataType,
    Nat.reduceAdd, attestationError]
  refine decides_of_ok (readUint_eq (by omega)) ?_
  refine decides_of_ok (readUint_eq (by omega)) ?_
  refine decides_require.bind (fun h => h.outerType) fun houterType => ?_
  refine decides_require.bind (fun h => h.outerEnd) fun houterEnd => ?_
  refine decides_require.bind (fun h => ?_) fun hlen => ?_
  · have hend := h.certificationEnd
    have hdata := h.certificationData
    omega
  refine decides_of_ok (readUint_eq (by omega)) ?_
  have hcursor : 582 + (2 + le s 582 2) = 584 + le s 582 2 := by omega
  have hcursor' : 584 + le s 582 2 + 2 = 586 + le s 582 2 := by omega
  simp only [hcursor, hcursor']
  refine decides_require.bind (fun h => ?_) fun hheader => ?_
  · have hend := h.certificationEnd
    omega
  refine decides_of_ok (readUint_eq (by omega)) ?_
  refine decides_of_ok (readUint_eq (by omega)) ?_
  refine decides_require.bind (fun h => h.certificationType) fun hcertType => ?_
  refine decides_require.bind (fun h => h.certificationData) fun hcertData => ?_
  refine decides_require.congr ⟨fun hend => ?_, fun h => ?_⟩
  · exact ⟨houterType, houterEnd, hcertType, hcertData, by omega⟩
  · have hend := h.certificationEnd
    omega

theorem quoteBytesShape_decides (q : Bytes) (reportData : String) :
    Decides (quoteBytesShape q reportData)
      (QuoteLayout q ∧ hexEncode (field q 568 64) = reportData) := by
  simp only [quoteBytesShape, signatureDataOffset_eq, signatureDataLengthOffset_eq,
    minSignatureDataBytes_eq, signatureDataLengthBytes, quoteHeaderBytes, tdReportDataOffset,
    tdReportDataBytes, Nat.reduceAdd, attestationError]
  have hdeclared : leNat (pySlice q 632 636) = le q 632 4 := rfl
  simp only [hdeclared]
  refine decides_require.bind (fun h => ⟨h.1.version, h.1.teeType⟩) fun hheader => ?_
  refine decides_require.bind (fun h => h.1.min_length) fun hmin => ?_
  refine decides_require.bind (fun h => h.1.inside) fun hinside => ?_
  refine decides_require_all.bind (fun h => h.1.padding) fun hpadding => ?_
  have hslice : pySlice q 636 (636 + le q 632 4) = signatureData q := by
    rw [pySlice, Nat.add_sub_cancel_left, signatureData]
  have hsize := length_signatureData hinside
  rw [hslice]
  refine (signatureDataShape_decides (by omega)).bind (fun h => h.1.signature) fun hsig => ?_
  refine decides_require.congr ⟨fun hsame => ⟨?_, hsame⟩, fun h => h.2⟩
  exact ⟨hheader.1, hheader.2, hinside, hpadding, hsig⟩

/-- The shape of a quote in lower case: a layout, carrying the report data. -/
theorem quoteShape_eq_ok {quoteHex reportData : String} {u : Unit} :
    quoteShape quoteHex reportData = .ok u ↔
      isHexText quoteHex = true ∧ ∃ q, hexBytes (utf8 quoteHex) = some q ∧ QuoteLayout q ∧
        hexEncode (field q 568 64) = reportData := by
  simp only [quoteShape, bytesFromHex, bind_eq_ok, require_eq_ok, okOr_eq_ok, decide_eq_true_eq]
  constructor
  · rintro ⟨_, ⟨-, -, hhex⟩, q, hq, hshape⟩
    exact ⟨hhex, q, hq, (quoteBytesShape_decides q reportData).ok_iff.mp hshape⟩
  · rintro ⟨hhex, q, hq, hlayout, hsame⟩
    have hlen := length_of_hexBytes_utf8 hq
    have hbytes : minQuoteHexLen = 2454 := rfl
    have hmin := hlayout.length_ge
    refine ⟨(), ⟨by omega, by omega, hhex⟩, q, hq, ?_⟩
    exact (quoteBytesShape_decides q reportData).ok_iff.mpr ⟨hlayout, hsame⟩

/-! ## Report data -/

theorem normalizeReportData_eq_ok {lower : String → String} {digests : Digests}
    {submitted expected : String} :
    normalizeReportData lower digests submitted = .ok expected ↔
      ∃ bytes, lower (strip submitted) ≠ "" ∧ isHexText (lower (strip submitted)) = true ∧
        hexBytes (utf8 (lower (strip submitted))) = some bytes ∧
        expected = hexEncode (paddedReportData digests bytes) := by
  simp only [normalizeReportData, bytesFromHex, bind_eq_ok, require_eq_ok, okOr_eq_ok,
    decide_eq_true_eq]
  constructor
  · rintro ⟨_, ⟨hne, -, hhex⟩, bytes, hbytes, h⟩
    cases h
    exact ⟨bytes, hne, hhex, hbytes, rfl⟩
  · rintro ⟨bytes, hne, hhex, hbytes, rfl⟩
    have hlen := length_of_hexBytes_utf8 hbytes
    exact ⟨(), ⟨hne, by omega, hhex⟩, bytes, hbytes, rfl⟩

/-- **Report data**: submitted hex digits normalize alike. -/
theorem normalizeReportData_agree {lower : String → String} (hlower : LowersAscii lower)
    {digests : Digests} {submitted expected : String}
    (hsubmitted : ∀ c ∈ submitted.toList, c ∈ hexChars) :
    normalizeReportData lower digests submitted = .ok expected ↔
      Attestation.normalizeReportData digests submitted = .ok expected := by
  have htrim : trim submitted = submitted :=
    trim_eq_self fun c hc => (hexChars_spec (hsubmitted c hc)).2.1
  have hhex : isHexText (asciiLower submitted) = true := asciiLower_hex_iff.mpr hsubmitted
  have hempty : asciiLower submitted = "" ↔ submitted = "" := by
    rw [asciiLower, ← String.toList_inj, ← String.toList_inj, String.toList_ofList]
    simp
  rw [normalizeReportData_eq_ok, Attestation.normalizeReportData_eq_ok, strip_hex hsubmitted, htrim,
    lower_eq hlower hsubmitted, hexBytes_asciiLower hsubmitted]
  simp only [ne_eq, hempty, hhex, true_and, decodeHex]

/-- Both produce 64 bytes in lower-case hex. -/
theorem normalized_spec {lower : String → String} {digests : Digests} {submitted expected : String}
    (h : normalizeReportData lower digests submitted = .ok expected) :
    ∃ bytes, bytes.length = 64 ∧ expected = hexEncode bytes := by
  obtain ⟨bytes, -, -, -, rfl⟩ := normalizeReportData_eq_ok.mp h
  exact ⟨_, length_paddedReportData digests bytes, rfl⟩

/-- That is 128 digits. -/
theorem normalized_digits {lower : String → String} {digests : Digests}
    {submitted expected : String}
    (h : normalizeReportData lower digests submitted = .ok expected) :
    isHexText expected = true ∧ expected.length = 128 := by
  obtain ⟨bytes, hbytes, rfl⟩ := normalized_spec h
  refine ⟨isHexText_hexEncode bytes, ?_⟩
  rw [← String.length_toList, hexEncode, String.toList_ofList, length_flatMap_hexPair, hbytes]

/-! ## The response -/

theorem isMissing_eq (value : Tree) : isMissing value = isBlank value := by
  cases value <;> rfl

theorem isBlank_string {text : String} (h : text ≠ "") : isBlank (.string text) = false := by
  show (false || text == "") = false
  simp [h]

theorem requireField_eq_ok {response : Map} {field : String} {u : Unit} :
    requireField response field = .ok u ↔
      ∃ value, response.get field = some value ∧ isBlank value = false := by
  rw [requireField, require_eq_ok]
  cases response.get field with
  | none => simp
  | some value => simp [isMissing_eq]

/-- Against an expected value of the right form, the length and the digits of the returned value
    need not be checked. -/
theorem returnedMatches_iff {lower : String → String} (hlower : LowersAscii lower) {bytes : Bytes}
    (hbytes : bytes.length = 64) {returned : String} :
    returnedMatches lower (hexEncode bytes) returned = true ↔
      asciiLower returned = hexEncode bytes := by
  simp only [returnedMatches, Bool.and_eq_true, beq_iff_eq, List.all_eq_true, decide_eq_true_eq]
  constructor
  · rintro ⟨⟨-, hdigits⟩, hsame⟩
    rwa [lower_eq hlower hdigits] at hsame
  · intro hsame
    have hdigits : ∀ c ∈ returned.toList, c ∈ hexChars := by
      rw [← asciiLower_hex_iff, hsame]
      exact isHexText_hexEncode bytes
    have hlen : (hexEncode bytes).toList.length = 2 * bytes.length := by
      rw [hexEncode, String.toList_ofList, length_flatMap_hexPair]
    rw [← hsame, asciiLower, String.toList_ofList, List.length_map] at hlen
    exact ⟨⟨by omega, hdigits⟩, (lower_eq hlower hdigits).trans hsame⟩

/-- The quote is read in lower case: that is the engine's hex decoding. -/
theorem lower_quote_iff {lower : String → String} (hlower : LowersAscii lower) {text : String}
    {q : Bytes} :
    isHexText (lower text) = true ∧ hexBytes (utf8 (lower text)) = some q ↔
      decodeHex text = some q := by
  constructor
  · rintro ⟨hhex, hq⟩
    have hdigits := (lower_hex hlower).mp hhex
    rwa [lower_eq hlower hdigits, hexBytes_asciiLower hdigits] at hq
  · intro hq
    have hdigits := (hexBytes_utf8 hq).1
    refine ⟨(lower_hex hlower).mpr hdigits, ?_⟩
    rwa [lower_eq hlower hdigits, hexBytes_asciiLower hdigits]

theorem lower_quote {lower : String → String} (hlower : LowersAscii lower) {text : String}
    {q : Bytes} (h : decodeHex text = some q) : lower text = hexEncode q := by
  obtain ⟨hdigits, hlow⟩ := hexBytes_utf8 h
  exact (lower_eq hlower hdigits).trans hlow

/-- **What the operator accepts**: a response that attests the normalized report data. -/
theorem parseGetQuote_eq_ok {lower : String → String} (hlower : LowersAscii lower)
    {digests : Digests} {response m : Map} {submitted : String} :
    parseGetQuote lower digests response submitted = .ok m ↔
      ∃ expected q, normalizeReportData lower digests submitted = .ok expected ∧
        Attested response expected q ∧
        m = (response.insert "quote" (.string (hexEncode q))).insert "report_data"
          (.string expected) := by
  simp only [parseGetQuote, bind_eq_ok, requireField_eq_ok, require_eq_ok, okOr_eq_ok,
    Option.any_eq_true, asStr_bind_eq_some, quoteShape_eq_ok]
  constructor
  · rintro ⟨expected, hexpected, _, -, _, hevent, _, -, _, hvm, _, ⟨returned, hreport, hmatches⟩,
      text, htext, _, ⟨hhex, q, hq, hlayout, hsame⟩, h⟩
    obtain ⟨bytes, hbytes, rfl⟩ := normalized_spec hexpected
    have hdecoded := (lower_quote_iff hlower).mp ⟨hhex, hq⟩
    have hreturned := (returnedMatches_iff hlower hbytes).mp hmatches
    refine ⟨_, q, hexpected, ⟨⟨text, htext, hdecoded⟩, hevent, ⟨returned, hreport, hreturned⟩,
      hvm, hlayout, hsame⟩, ?_⟩
    cases h
    rw [lower_quote hlower hdecoded]
  · rintro ⟨expected, q, hexpected, ⟨⟨text, htext, hdecoded⟩, hevent,
      ⟨returned, hreport, hreturned⟩, hvm, hlayout, hsame⟩, rfl⟩
    obtain ⟨bytes, hbytes, rfl⟩ := normalized_spec hexpected
    obtain ⟨hhex, hq⟩ := (lower_quote_iff hlower).mpr hdecoded
    have hmatches := (returnedMatches_iff hlower hbytes).mpr hreturned
    refine ⟨_, hexpected, (), ⟨.string text, htext, ?_⟩, (), hevent, (),
      ⟨.string returned, hreport, ?_⟩, (), hvm, (), ⟨returned, hreport, hmatches⟩, text, htext, (),
      ⟨hhex, q, hq, hlayout, hsame⟩, ?_⟩
    · exact isBlank_string (ne_empty_of_layout hdecoded hlayout)
    · refine isBlank_string ?_
      rintro rfl
      have hlen := (hexEncode_spec bytes).1
      rw [← hreturned, hbytes] at hlen
      exact absurd hlen (by decide)
    · rw [lower_quote hlower hdecoded]
      rfl

/-! ## Agreement -/

/-- **The two clients accept the same responses**, and give the same lower-case quote and the same
    128 digits of report data. -/
theorem quote_clients_agree {w : Nat} (hw : 32 ≤ w) (digests : Digests) {lower : String → String}
    (hlower : LowersAscii lower) {submitted : String}
    (hsubmitted : ∀ c ∈ submitted.toList, c ∈ hexChars) (response : Map)
    (hfits : ∀ quote, response.get "quote" = some (.string quote) →
      (utf8 quote).length < 2 ^ w) :
    getQuote w digests submitted response ≠ .error .panic ∧
    ((∃ r, getQuote w digests submitted response = .ok r) ↔
      ∃ m, parseGetQuote lower digests response submitted = .ok m) ∧
    ∀ r m, getQuote w digests submitted response = .ok r →
      parseGetQuote lower digests response submitted = .ok m →
      m.get "quote" = some (.string r.quote) ∧
      m.get "report_data" = some (.string r.reportData) ∧
      m.get "event_log" = some r.eventLog ∧
      m.get "vm_config" = some r.vmConfig ∧
      isHexText r.quote = true ∧
      isHexText r.reportData = true ∧ r.reportData.length = 128 := by
  have hagree := fun expected => @normalizeReportData_agree lower hlower digests submitted
    expected hsubmitted
  refine ⟨getQuote_no_panic hw hfits, ?_, ?_⟩
  · constructor
    · rintro ⟨r, hr⟩
      obtain ⟨expected, q, hexpected, hattested, -⟩ := (getQuote_eq_ok hw hfits).mp hr
      exact ⟨_, (parseGetQuote_eq_ok hlower).mpr
        ⟨expected, q, (hagree expected).mpr hexpected, hattested, rfl⟩⟩
    · rintro ⟨m, hm⟩
      obtain ⟨expected, q, hexpected, hattested, -⟩ := (parseGetQuote_eq_ok hlower).mp hm
      obtain ⟨event, hevent, -⟩ := hattested.eventLog
      obtain ⟨vm, hvm, -⟩ := hattested.vmConfig
      exact ⟨⟨hexEncode q, event, expected, vm⟩, (getQuote_eq_ok hw hfits).mpr
        ⟨expected, q, (hagree expected).mp hexpected, hattested, rfl, rfl, hevent, hvm⟩⟩
  · intro r m hr hm
    obtain ⟨expected, q, hexpected, hattested, hquote, hreport, hevent, hvm⟩ :=
      (getQuote_eq_ok hw hfits).mp hr
    obtain ⟨expected', q', hexpected', hattested', rfl⟩ := (parseGetQuote_eq_ok hlower).mp hm
    -- both normalized the same text, and read the same member as the quote
    have hsame : expected' = expected := by
      have h := (hagree expected').mp hexpected'
      rw [hexpected] at h
      cases h
      rfl
    have hq := hattested'.unique hattested
    subst hsame hq
    obtain ⟨hdigits, hlen⟩ := normalized_digits hexpected'
    refine ⟨?_, ?_, ?_, ?_, ?_, ?_, ?_⟩
    · rw [Map.get_insert_of_ne _ _ (by decide), Map.get_insert, hquote]
      rfl
    · rw [Map.get_insert, hreport]
      rfl
    · rw [Map.get_insert_of_ne _ _ (by decide), Map.get_insert_of_ne _ _ (by decide), hevent]
    · rw [Map.get_insert_of_ne _ _ (by decide), Map.get_insert_of_ne _ _ (by decide), hvm]
    · rw [hquote]
      exact isHexText_hexEncode q'
    · rw [hreport]
      exact hdigits
    · rw [hreport]
      exact hlen

/-- Report data of 64 bytes: it is not hashed. -/
def sampleReportData : Bytes := List.replicate 64 9

/-- An answer with the shortest quote, which carries that report data. -/
def sampleResponse : Map :=
  (((Map.empty.insert "quote" (.string (hexEncode shortestQuote))).insert "event_log"
    (.string "[]")).insert "report_data" (.string (hexEncode sampleReportData))).insert "vm_config"
    (.string "vm")

theorem sampleResponse_attested :
    Attested sampleResponse (hexEncode sampleReportData) shortestQuote where
  quote := ⟨_, rfl, hexBytes_hexEncode shortestQuote⟩
  eventLog := ⟨_, rfl, rfl⟩
  reportData := ⟨_, rfl, (hexEncode_spec sampleReportData).2.2⟩
  vmConfig := ⟨_, rfl, rfl⟩
  layout := quoteLayout_iff.mpr isTdxV4Quote_shortest
  embedded := by decide +kernel

theorem sampleResponse_fits (quote : String)
    (h : sampleResponse.get "quote" = some (.string quote)) : (utf8 quote).length < 2 ^ 64 := by
  have hmember : sampleResponse.get "quote" = some (.string (hexEncode shortestQuote)) := rfl
  have hquote := Tree.string.inj (Option.some.inj (hmember.symm.trans h))
  rw [← hquote, (hexEncode_spec shortestQuote).1]
  decide +kernel

theorem getQuote_sample : ∃ r, getQuote 64 zeroDigests (hexEncode sampleReportData)
    sampleResponse = .ok r := by
  have htrim : trim (hexEncode sampleReportData) = hexEncode sampleReportData :=
    trim_eq_self fun c hc =>
      (hexChars_spec ((hexBytes_utf8 (hexBytes_hexEncode sampleReportData)).1 c hc)).2.1
  refine ⟨⟨hexEncode shortestQuote, .string "[]", hexEncode sampleReportData, .string "vm"⟩,
    (getQuote_eq_ok (by decide) sampleResponse_fits).mpr ⟨_, shortestQuote, ?_,
      sampleResponse_attested, rfl, rfl, rfl, rfl⟩⟩
  refine Attestation.normalizeReportData_eq_ok.mpr ⟨sampleReportData, ?_, ?_, ?_⟩
  · rw [htrim]
    decide +kernel
  · rw [htrim]
    exact hexBytes_hexEncode sampleReportData
  · decide +kernel

/-- The operator accepts what the engine accepted. -/
theorem quote_clients_agree_sample : ∃ m,
    parseGetQuote asciiLower zeroDigests sampleResponse (hexEncode sampleReportData) = .ok m :=
  (quote_clients_agree (w := 64) (by decide) zeroDigests asciiLower_lowersAscii
    (hexBytes_utf8 (hexBytes_hexEncode sampleReportData)).1 sampleResponse
    sampleResponse_fits).2.1.mp getQuote_sample

end Basecrawl.Image
