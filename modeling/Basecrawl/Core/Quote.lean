/-
  TDX v4 quotes.

  1. **Program** — `validateTdxV4Quote` walks four nested length fields, all chosen by whoever made
     the quote; `quoteMeasurement` and `quoteReportData` slice registers out of an accepted one.
  2. **Specification** — `IsTdxV4Quote`, the format as a concatenation of fields.
  3. **The crux (`validateTdxV4Quote_decides`)** — the walk never leaves the buffer and accepts
     exactly `QuoteLayout`, the same fields read at their offsets.  The minimum lengths checked on
     the way add nothing: each follows from a later field ending where its envelope does.
  4. **Bridge** — `quoteLayout_iff` takes the layout apart field by field.

  `w` is the width of `usize`: at least 32 bits, and every buffer is shorter than `2 ^ w`.
-/
import Basecrawl.Lib.Hex
import Basecrawl.Lib.LittleEndian
import Basecrawl.Lib.Panic

namespace Basecrawl.Core.Attestation

open Text Hex LittleEndian Outcome Panic

/-! ## The layout constants -/

def quoteHeaderBytes : Nat := 48
def tdReportBytes : Nat := 584
def tdReportDataOffset : Nat := 520
def tdReportDataBytes : Nat := 64
def signatureDataLengthBytes : Nat := 4
def ecdsaSignatureBytes : Nat := 64
def ecdsaAttestationKeyBytes : Nat := 64
def certificationHeaderBytes : Nat := 6
def qeReportBytes : Nat := 384
def qeReportSignatureBytes : Nat := 64
def authenticationDataLengthBytes : Nat := 2
def minCertificationDataBytes : Nat := 1
def signatureDataLengthOffset : Nat := quoteHeaderBytes + tdReportBytes
def signatureDataOffset : Nat := signatureDataLengthOffset + signatureDataLengthBytes

def minSignatureDataBytes : Nat :=
  ecdsaSignatureBytes + ecdsaAttestationKeyBytes + certificationHeaderBytes + qeReportBytes
    + qeReportSignatureBytes + authenticationDataLengthBytes + certificationHeaderBytes
    + minCertificationDataBytes

def minQuoteBytes : Nat := signatureDataOffset + minSignatureDataBytes
def minQuoteHexLen : Nat := minQuoteBytes * 2
def quoteVersion : Nat := 4
def tdxTeeType : Nat := 0x81
def qeReportCertificationDataType : Nat := 6
def pckCertificateChainDataType : Nat := 5

theorem signatureDataLengthOffset_eq : signatureDataLengthOffset = 632 := rfl

theorem signatureDataOffset_eq : signatureDataOffset = 636 := rfl

theorem minSignatureDataBytes_eq : minSignatureDataBytes = 591 := rfl

theorem minQuoteBytes_eq : minQuoteBytes = 1227 := rfl

/-- The errors of the quote client, the transport's left out. -/
inductive QuoteRequestError where
  | emptyReportData
  | invalidReportData
  | invalidJson
  | missingField (field : String)
  | invalidQuote
  | quoteTooShort (actual minimum : Nat)
  | invalidQuoteHeader
  | malformedQuote (what : String)
  | quoteReportDataMismatch
  | reportDataMismatch (submitted returned : String)
deriving DecidableEq

abbrev QuoteResult (α : Type) := Checked QuoteRequestError α

/-- The TDX registers of an attested image. -/
structure TdxMeasurement where
  mrtd : String
  rtmr0 : String
  rtmr1 : String
  rtmr2 : String
  rtmr3 : String
deriving DecidableEq

/-! ## Reading -/

/-- `u16::from_le_bytes([bytes[i], bytes[i + 1]])`. -/
def u16FromLeBytes (bytes : Bytes) (i : Nat) : QuoteResult Nat := do
  let b0 ← index bytes i
  let b1 ← index bytes (i + 1)
  return leNat [b0, b1]

/-- `u32::from_le_bytes([bytes[i], bytes[i + 1], bytes[i + 2], bytes[i + 3]])`. -/
def u32FromLeBytes (bytes : Bytes) (i : Nat) : QuoteResult Nat := do
  let b0 ← index bytes i
  let b1 ← index bytes (i + 1)
  let b2 ← index bytes (i + 2)
  let b3 ← index bytes (i + 3)
  return leNat [b0, b1, b2, b3]

def readU16 (w : Nat) (value : Bytes) (offset : Nat) : QuoteResult Nat := do
  let stop ← add w offset 2
  let bytes ← okOr (getRange value offset stop)
    (.err (.malformedQuote "missing two-byte length or type field"))
  u16FromLeBytes bytes 0

def readU32 (w : Nat) (value : Bytes) (offset : Nat) : QuoteResult Nat := do
  let stop ← add w offset 4
  let bytes ← okOr (getRange value offset stop)
    (.err (.malformedQuote "missing four-byte length field"))
  u32FromLeBytes bytes 0

theorem take_two {α : Type} {xs : List α} {i : Nat} (h : i + 2 ≤ xs.length) :
    (xs.drop i).take 2 = [xs[i], xs[i + 1]] := by
  rw [List.drop_eq_getElem_cons (by omega : i < xs.length),
    List.drop_eq_getElem_cons (by omega : i + 1 < xs.length)]
  rfl

theorem take_four {α : Type} {xs : List α} {i : Nat} (h : i + 4 ≤ xs.length) :
    (xs.drop i).take 4 = [xs[i], xs[i + 1], xs[i + 2], xs[i + 3]] := by
  have hsplit := List.take_add (l := xs.drop i) (i := 2) (j := 2)
  rw [List.drop_drop, take_two (by omega), take_two (by omega)] at hsplit
  exact hsplit

theorem u16FromLeBytes_eq {bytes : Bytes} {i : Nat} (h : i + 2 ≤ bytes.length) :
    u16FromLeBytes bytes i = .ok (le bytes i 2) := by
  rw [u16FromLeBytes, index_eq (by omega), ok_bind, index_eq (by omega), ok_bind, le, take_two h]
  rfl

theorem u32FromLeBytes_eq {bytes : Bytes} {i : Nat} (h : i + 4 ≤ bytes.length) :
    u32FromLeBytes bytes i = .ok (le bytes i 4) := by
  rw [u32FromLeBytes, index_eq (by omega), ok_bind, index_eq (by omega), ok_bind,
    index_eq (by omega), ok_bind, index_eq (by omega), ok_bind, le, take_four h]
  rfl

/-- A field inside the buffer is read. -/
theorem readU16_eq {w : Nat} {value : Bytes} {offset : Nat} (hw : value.length < 2 ^ w)
    (h : offset + 2 ≤ value.length) : readU16 w value offset = .ok (le value offset 2) := by
  have hlen : ((value.drop offset).take (offset + 2 - offset)).length = 2 := by
    rw [List.length_take, List.length_drop]
    omega
  rw [readU16, add_eq rfl (by omega), ok_bind, getRange_eq (by omega) h, okOr_some, ok_bind,
    u16FromLeBytes_eq (by omega), le, le, List.drop_zero, List.take_take]
  congr 3
  omega

theorem readU32_eq {w : Nat} {value : Bytes} {offset : Nat} (hw : value.length < 2 ^ w)
    (h : offset + 4 ≤ value.length) : readU32 w value offset = .ok (le value offset 4) := by
  have hlen : ((value.drop offset).take (offset + 4 - offset)).length = 4 := by
    rw [List.length_take, List.length_drop]
    omega
  rw [readU32, add_eq rfl (by omega), ok_bind, getRange_eq (by omega) h, okOr_some, ok_bind,
    u32FromLeBytes_eq (by omega), le, le, List.drop_zero, List.take_take]
  congr 3
  omega

/-! ## The validator -/

/-- The part of `validate_tdx_v4_quote` that walks the signature data. -/
def validateSignatureData (w : Nat) (signatureData : Bytes) : QuoteResult Unit := do
  let cursor := ecdsaSignatureBytes + ecdsaAttestationKeyBytes
  let outerType ← readU16 w signatureData cursor
  let outerLengthAt ← add w cursor 2
  let outerLength ← readU32 w signatureData outerLengthAt
  let outerLength := asUsize w outerLength
  require (decide (outerType = qeReportCertificationDataType))
    (.err (.malformedQuote "signature data has no QE report certification envelope"))
  let cursor ← add w cursor certificationHeaderBytes
  let outerEnd ← okOr (checkedAdd w cursor outerLength)
    (.err (.malformedQuote "QE certification data length overflow"))
  require (decide (outerEnd = signatureData.length))
    (.err (.malformedQuote "QE certification data length does not match signature data"))
  require (decide (qeReportBytes + qeReportSignatureBytes + authenticationDataLengthBytes
      + certificationHeaderBytes + minCertificationDataBytes ≤ outerLength))
    (.err (.malformedQuote "QE report certification data is truncated"))
  let cursor ← add w cursor (qeReportBytes + qeReportSignatureBytes)
  let authenticationDataLength ← readU16 w signatureData cursor
  let cursor ← add w cursor authenticationDataLengthBytes
  let cursor ← okOr (checkedAdd w cursor (asUsize w authenticationDataLength))
    (.err (.malformedQuote "authentication data length overflow"))
  let certificationHeaderEnd ← add w cursor certificationHeaderBytes
  require (decide (certificationHeaderEnd ≤ outerEnd))
    (.err (.malformedQuote "authentication data is truncated"))
  let certificationType ← readU16 w signatureData cursor
  let certificationDataLengthAt ← add w cursor 2
  let certificationDataLength ← readU32 w signatureData certificationDataLengthAt
  let certificationDataLength := asUsize w certificationDataLength
  require (decide (certificationType = pckCertificateChainDataType))
    (.err (.malformedQuote "QE report has no PCK certificate-chain data"))
  require (decide (minCertificationDataBytes ≤ certificationDataLength))
    (.err (.malformedQuote "PCK certification data is empty"))
  let cursor ← add w cursor certificationHeaderBytes
  let certificationEnd ← okOr (checkedAdd w cursor certificationDataLength)
    (.err (.malformedQuote "PCK certification data length overflow"))
  require (decide (certificationEnd = outerEnd))
    (.err (.malformedQuote "PCK certification data is truncated or has trailing bytes"))

/-- `if quote.len() < MIN_QUOTE_BYTES`. -/
def checkQuoteLength (w : Nat) (quote : Bytes) : QuoteResult Unit :=
  if quote.length < minQuoteBytes then do
    let actual ← mul w quote.length 2
    fail (.quoteTooShort actual minQuoteHexLen)
  else .ok ()

def validateTdxV4Quote (w : Nat) (quote : Bytes) : QuoteResult Unit := do
  checkQuoteLength w quote
  let version ← u16FromLeBytes quote 0
  require (decide (version = quoteVersion)) (.err .invalidQuoteHeader)
  let teeType ← u32FromLeBytes quote 4
  require (decide (teeType = tdxTeeType)) (.err .invalidQuoteHeader)
  let signatureDataLength ← readU32 w quote signatureDataLengthOffset
  let signatureDataLength := asUsize w signatureDataLength
  require (decide (minSignatureDataBytes ≤ signatureDataLength))
    (.err (.malformedQuote "signature data is too short"))
  let declaredQuoteEnd ← okOr (checkedAdd w signatureDataOffset signatureDataLength)
    (.err (.malformedQuote "signature data length overflow"))
  require (decide (declaredQuoteEnd ≤ quote.length))
    (.err (.malformedQuote "declared signature data is truncated"))
  let padding ← sliceFrom quote declaredQuoteEnd
  require (padding.all fun byte => byte == 0)
    (.err (.malformedQuote "non-zero bytes follow declared signature data"))
  let signatureData ← slice quote signatureDataOffset declaredQuoteEnd
  validateSignatureData w signatureData

/-- `decode_hex`. -/
def decodeHex (value : String) : Option Bytes := hexBytes (utf8 value)

/-- The registers of a validated quote. -/
def quoteMeasurement (w : Nat) (quoteHex : String) : QuoteResult TdxMeasurement := do
  let quote ← okOr (decodeHex quoteHex) (.err .invalidQuote)
  validateTdxV4Quote w quote
  let mrtd ← slice quote (48 + 136) (48 + 184)
  let rtmr0 ← slice quote (48 + 328) (48 + 376)
  let rtmr1 ← slice quote (48 + 376) (48 + 424)
  let rtmr2 ← slice quote (48 + 424) (48 + 472)
  let rtmr3 ← slice quote (48 + 472) (48 + 520)
  return { mrtd := hexEncode mrtd, rtmr0 := hexEncode rtmr0, rtmr1 := hexEncode rtmr1,
           rtmr2 := hexEncode rtmr2, rtmr3 := hexEncode rtmr3 }

/-- The full report data embedded in a validated quote. -/
def quoteReportData (w : Nat) (quoteHex : String) : QuoteResult String := do
  let quote ← okOr (decodeHex quoteHex) (.err .invalidQuote)
  validateTdxV4Quote w quote
  let reportData ← slice quote (quoteHeaderBytes + tdReportDataOffset)
    (quoteHeaderBytes + tdReportDataOffset + tdReportDataBytes)
  return hexEncode reportData

/-! ## The layout -/

/-- The fields of the signature data, read at their offsets. -/
structure SignatureLayout (s : Bytes) : Prop where
  outerType : le s 128 2 = 6
  outerEnd : 134 + le s 130 4 = s.length
  certificationType : le s (584 + le s 582 2) 2 = 5
  certificationData : 1 ≤ le s (586 + le s 582 2) 4
  certificationEnd : 590 + le s 582 2 + le s (586 + le s 582 2) 4 = s.length

/-- The signature data a quote declares. -/
def signatureData (q : Bytes) : Bytes := (q.drop 636).take (le q 632 4)

/-- The fields of a quote, read at their offsets. -/
structure QuoteLayout (q : Bytes) : Prop where
  version : le q 0 2 = 4
  teeType : le q 4 4 = 0x81
  inside : 636 + le q 632 4 ≤ q.length
  padding : ∀ byte ∈ q.drop (636 + le q 632 4), byte = 0
  signature : SignatureLayout (signatureData q)

/-- The walk over signature data of at least the minimum length. -/
theorem validateSignatureData_decides {w : Nat} (hw : 32 ≤ w) {s : Bytes} (hs : s.length < 2 ^ w)
    (hmin : 591 ≤ s.length) : Decides (validateSignatureData w s) (SignatureLayout s) := by
  have hbig : 2 ^ 32 ≤ 2 ^ w := Nat.pow_le_pow_right (by omega) hw
  have houter := le_lt s 130 4
  have hauth := le_lt s 582 2
  have hcert := le_lt s (586 + le s 582 2) 4
  simp only [validateSignatureData, ecdsaSignatureBytes, ecdsaAttestationKeyBytes,
    certificationHeaderBytes, qeReportBytes, qeReportSignatureBytes, authenticationDataLengthBytes,
    minCertificationDataBytes, qeReportCertificationDataType, pckCertificateChainDataType,
    Nat.reduceAdd]
  -- every read is inside: the envelope ends where the signature data does, and each later field
  -- has been checked to stand inside the envelope
  refine decides_of_ok (readU16_eq hs (by omega)) ?_
  refine decides_of_ok (add_eq (c := 130) rfl (by omega)) ?_
  refine decides_of_ok (readU32_eq hs (by omega)) ?_
  rw [asUsize_eq (by omega)]
  refine decides_require.bind (fun h => h.outerType) fun houterType => ?_
  refine decides_of_ok (add_eq (c := 134) rfl (by omega)) ?_
  refine decides_checkedAdd rfl (fun h => h.outerEnd ▸ hs) fun _ => ?_
  refine decides_require.bind (fun h => h.outerEnd) fun houterEnd => ?_
  refine decides_require.bind (fun h => ?_) fun hmin => ?_
  · have hend := h.certificationEnd
    have hdata := h.certificationData
    omega
  refine decides_of_ok (add_eq (c := 582) rfl (by omega)) ?_
  refine decides_of_ok (readU16_eq hs (by omega)) ?_
  refine decides_of_ok (add_eq (c := 584) rfl (by omega)) ?_
  rw [asUsize_eq (by omega)]
  refine decides_checkedAdd rfl (fun _ => by omega) fun _ => ?_
  refine decides_of_ok (add_eq (c := 590 + le s 582 2) (by omega) (by omega)) ?_
  refine decides_require.bind (fun h => ?_) fun hheader => ?_
  · have hend := h.certificationEnd
    omega
  refine decides_of_ok (readU16_eq hs (by omega)) ?_
  refine decides_of_ok (add_eq (c := 586 + le s 582 2) (by omega) (by omega)) ?_
  refine decides_of_ok (readU32_eq hs (by omega)) ?_
  rw [asUsize_eq (by omega)]
  refine decides_require.bind (fun h => h.certificationType) fun hcertType => ?_
  refine decides_require.bind (fun h => h.certificationData) fun hcertData => ?_
  refine decides_of_ok (add_eq (c := 590 + le s 582 2) (by omega) (by omega)) ?_
  refine decides_checkedAdd rfl (fun h => h.certificationEnd ▸ hs) fun _ => ?_
  refine decides_require.congr ⟨fun hend => ?_, fun h => h.certificationEnd.trans houterEnd.symm⟩
  exact ⟨houterType, houterEnd, hcertType, hcertData, hend.trans houterEnd⟩

theorem SignatureLayout.min_length {s : Bytes} (h : SignatureLayout s) : 591 ≤ s.length := by
  have hend := h.certificationEnd
  have hdata := h.certificationData
  omega

theorem length_signatureData {q : Bytes} (h : 636 + le q 632 4 ≤ q.length) :
    (signatureData q).length = le q 632 4 := by
  rw [signatureData, List.length_take, List.length_drop]
  omega

/-- The declared length is at least the minimum. -/
theorem QuoteLayout.min_length {q : Bytes} (h : QuoteLayout q) : 591 ≤ le q 632 4 := by
  have hmin := h.signature.min_length
  rwa [length_signatureData h.inside] at hmin

theorem QuoteLayout.length_ge {q : Bytes} (h : QuoteLayout q) : 1227 ≤ q.length := by
  have hmin := h.min_length
  have hinside := h.inside
  omega

theorem checkQuoteLength_decides {w : Nat} (hw : 32 ≤ w) (q : Bytes) :
    Decides (checkQuoteLength w q) (1227 ≤ q.length) := by
  have hbig : 2 ^ 32 ≤ 2 ^ w := Nat.pow_le_pow_right (by omega) hw
  rw [checkQuoteLength, minQuoteBytes_eq]
  by_cases hlen : q.length < 1227
  · rw [if_pos hlen]
    refine decides_of_ok (mul_eq (by omega)) ?_
    exact decides_fail (by omega)
  · rw [if_neg hlen]
    exact decides_ok (by omega)

/-- The validator never panics, and accepts the layout. -/
theorem validateTdxV4Quote_decides {w : Nat} (hw : 32 ≤ w) {q : Bytes} (hq : q.length < 2 ^ w) :
    Decides (validateTdxV4Quote w q) (QuoteLayout q) := by
  have hbig : 2 ^ 32 ≤ 2 ^ w := Nat.pow_le_pow_right (by omega) hw
  have hdeclared := le_lt q 632 4
  simp only [validateTdxV4Quote, signatureDataOffset_eq, signatureDataLengthOffset_eq,
    minSignatureDataBytes_eq, quoteVersion, tdxTeeType]
  refine (checkQuoteLength_decides hw q).bind (fun h => h.length_ge) fun hlen => ?_
  refine decides_of_ok (u16FromLeBytes_eq (by omega)) ?_
  refine decides_require.bind (fun h => h.version) fun hversion => ?_
  refine decides_of_ok (u32FromLeBytes_eq (by omega)) ?_
  refine decides_require.bind (fun h => h.teeType) fun hteeType => ?_
  refine decides_of_ok (readU32_eq hq (by omega)) ?_
  rw [asUsize_eq (by omega)]
  refine decides_require.bind (fun h => h.min_length) fun hmin => ?_
  refine decides_checkedAdd rfl (fun h => Nat.lt_of_le_of_lt h.inside hq) fun _ => ?_
  refine decides_require.bind (fun h => h.inside) fun hinside => ?_
  refine decides_of_ok (sliceFrom_eq hinside) ?_
  refine decides_require_all.bind (fun h => h.padding) fun hpadding => ?_
  refine decides_of_ok (slice_eq (by omega) hinside) ?_
  rw [Nat.add_sub_cancel_left]
  have hlen := length_signatureData hinside
  refine (validateSignatureData_decides hw (s := signatureData q) (by omega) (by omega)).congr ?_
  exact ⟨fun h => ⟨hversion, hteeType, hinside, hpadding, h⟩, fun h => h.signature⟩

/-! ## The format -/

/-- The certification data of a quoting enclave: its report and signature, the authentication data
and a non-empty PCK chain, each with its length. -/
def IsCertification (c : Bytes) : Prop :=
  ∃ report auth pck, report.length = 448 ∧ auth.length < 256 ^ 2 ∧ pck.length < 256 ^ 4 ∧
    1 ≤ pck.length ∧
    c = report ++ (leBytes 2 auth.length ++ (auth ++ (leBytes 2 5 ++
      (leBytes 4 pck.length ++ pck))))

/-- The signature, its key and the certification data with its length. -/
def IsSignatureData (s : Bytes) : Prop :=
  ∃ sig key c, sig.length = 64 ∧ key.length = 64 ∧ c.length < 256 ^ 4 ∧ IsCertification c ∧
    s = sig ++ (key ++ (leBytes 2 6 ++ (leBytes 4 c.length ++ c)))

/-- The header: the version, two bytes, the TEE type and forty bytes. -/
def IsHeader (header : Bytes) : Prop :=
  ∃ x y, x.length = 2 ∧ y.length = 40 ∧ header = leBytes 2 4 ++ (x ++ (leBytes 4 0x81 ++ y))

/-- A TDX v4 quote, with any number of zeros behind it. -/
def IsTdxV4Quote (q : Bytes) : Prop :=
  ∃ header report s zeros, IsHeader header ∧ report.length = 584 ∧ s.length < 256 ^ 4 ∧
    IsSignatureData s ∧
    q = header ++ (report ++ (leBytes 4 s.length ++ (s ++ List.replicate zeros 0)))

/-- The fields of the certification data, read at their offsets. -/
structure CertificationLayout (c : Bytes) : Prop where
  certificationType : le c (450 + le c 448 2) 2 = 5
  certificationData : 1 ≤ le c (452 + le c 448 2) 4
  certificationEnd : 456 + le c 448 2 + le c (452 + le c 448 2) 4 = c.length

theorem certificationLayout_append {report auth pck : Bytes} {t k : Nat}
    (hreport : report.length = 448) (hauth : auth.length < 256 ^ 2) (ht : t < 256 ^ 2)
    (hk : k < 256 ^ 4) :
    CertificationLayout (report ++ (leBytes 2 auth.length ++ (auth ++ (leBytes 2 t ++
      (leBytes 4 k ++ pck))))) ↔ t = 5 ∧ 1 ≤ k ∧ k = pck.length := by
  have hlength : ∀ tail, le (report ++ (leBytes 2 auth.length ++ tail)) 448 2 = auth.length := by
    intro tail
    rw [le_skip (o := 0) (by omega), le_leBytes hauth]
  have hskip : ∀ off n tail, le (report ++ (leBytes 2 auth.length ++ (auth ++ tail)))
      (450 + auth.length + off) n = le tail off n := by
    intro off n tail
    rw [le_skip (o := 2 + auth.length + off) (by omega),
      le_skip (o := auth.length + off) (by rw [length_leBytes]; omega), le_skip rfl]
  have hsecond : le (leBytes 2 t ++ (leBytes 4 k ++ pck)) 2 4 = k := by
    rw [le_skip (o := 0) (by simp), le_leBytes hk]
  have htype := (hskip 0 2 (leBytes 2 t ++ (leBytes 4 k ++ pck))).trans (le_leBytes ht)
  have hdata := (hskip 2 4 (leBytes 2 t ++ (leBytes 4 k ++ pck))).trans hsecond
  have hoff : 452 + auth.length = 450 + auth.length + 2 := by omega
  constructor
  · rintro ⟨h1, h2, h3⟩
    rw [hlength, hoff, hdata] at h2 h3
    rw [hlength] at h1
    simp [hreport] at h3
    exact ⟨htype.symm.trans h1, h2, by omega⟩
  · rintro ⟨rfl, hpos, rfl⟩
    refine ⟨?_, ?_, ?_⟩
    · rw [hlength]
      exact htype
    · rw [hlength, hoff, hdata]
      exact hpos
    · rw [hlength, hoff, hdata]
      simp [hreport]
      omega

theorem certificationLayout_iff {c : Bytes} : CertificationLayout c ↔ IsCertification c := by
  constructor
  · intro h
    have hend := h.certificationEnd
    obtain ⟨report, c1, hreport, rfl⟩ := cut_bytes c 448 (by omega)
    obtain ⟨a, c2, ha, rfl⟩ := cut_number c1 2 (by
      rw [List.length_append] at hend
      omega)
    have hlength : le (report ++ (leBytes 2 a ++ c2)) 448 2 = a := by
      rw [le_skip (o := 0) (by omega), le_leBytes ha]
    rw [hlength] at hend
    simp only [List.length_append, length_leBytes] at hend
    obtain ⟨auth, c3, rfl, rfl⟩ := cut_bytes c2 a (by omega)
    rw [List.length_append] at hend
    obtain ⟨t, c4, ht, rfl⟩ := cut_number c3 2 (by omega)
    rw [List.length_append, length_leBytes] at hend
    obtain ⟨k, pck, hk, rfl⟩ := cut_number c4 4 (by omega)
    obtain ⟨rfl, hpos, rfl⟩ := (certificationLayout_append hreport ha ht hk).mp h
    exact ⟨report, auth, pck, hreport, ha, hk, hpos, rfl⟩
  · rintro ⟨report, auth, pck, hreport, ha, hk, hpos, rfl⟩
    exact (certificationLayout_append hreport ha (by omega) hk).mpr ⟨rfl, hpos, rfl⟩

theorem signatureLayout_append {sig key c : Bytes} {t m : Nat} (hsig : sig.length = 64)
    (hkey : key.length = 64) (ht : t < 256 ^ 2) (hm : m < 256 ^ 4) :
    SignatureLayout (sig ++ (key ++ (leBytes 2 t ++ (leBytes 4 m ++ c)))) ↔
      t = 6 ∧ m = c.length ∧ CertificationLayout c := by
  have htype : le (sig ++ (key ++ (leBytes 2 t ++ (leBytes 4 m ++ c)))) 128 2 = t := by
    rw [le_skip (o := 64) (by omega), le_skip (o := 0) (by omega), le_leBytes ht]
  have houter : le (sig ++ (key ++ (leBytes 2 t ++ (leBytes 4 m ++ c)))) 130 4 = m := by
    rw [le_skip (o := 66) (by omega), le_skip (o := 2) (by omega), le_skip (o := 0) (by simp),
      le_leBytes hm]
  have hskip : ∀ off n, le (sig ++ (key ++ (leBytes 2 t ++ (leBytes 4 m ++ c)))) (134 + off) n =
      le c off n := by
    intro off n
    rw [le_skip (o := 70 + off) (by omega), le_skip (o := 6 + off) (by omega),
      le_skip (o := 4 + off) (by rw [length_leBytes]; omega),
      le_skip (o := off) (by rw [length_leBytes])]
  have hauth := hskip 448 2
  have hcertType := hskip (450 + le c 448 2) 2
  have hcertData := hskip (452 + le c 448 2) 4
  rw [← Nat.add_assoc] at hcertType hcertData
  have hlen : (sig ++ (key ++ (leBytes 2 t ++ (leBytes 4 m ++ c)))).length = 134 + c.length := by
    simp [hsig, hkey]
    omega
  constructor
  · rintro ⟨h1, h2, h3, h4, h5⟩
    rw [houter, hlen] at h2
    rw [hauth, hcertType] at h3
    rw [hauth, hcertData] at h4
    rw [hauth, hcertData, hlen] at h5
    exact ⟨htype.symm.trans h1, by omega, h3, h4, by omega⟩
  · rintro ⟨rfl, rfl, h3, h4, h5⟩
    refine ⟨htype, ?_, ?_, ?_, ?_⟩
    · rw [houter, hlen]
    · rw [hauth, hcertType]
      exact h3
    · rw [hauth, hcertData]
      exact h4
    · rw [hauth, hcertData, hlen]
      omega

theorem signatureLayout_iff {s : Bytes} : SignatureLayout s ↔ IsSignatureData s := by
  constructor
  · intro h
    have hmin := h.min_length
    obtain ⟨sig, s1, hsig, rfl⟩ := cut_bytes s 64 (by omega)
    rw [List.length_append] at hmin
    obtain ⟨key, s2, hkey, rfl⟩ := cut_bytes s1 64 (by omega)
    rw [List.length_append] at hmin
    obtain ⟨t, s3, ht, rfl⟩ := cut_number s2 2 (by omega)
    rw [List.length_append, length_leBytes] at hmin
    obtain ⟨m, c, hm, rfl⟩ := cut_number s3 4 (by omega)
    obtain ⟨rfl, rfl, hc⟩ := (signatureLayout_append hsig hkey ht hm).mp h
    exact ⟨sig, key, c, hsig, hkey, hm, certificationLayout_iff.mp hc, rfl⟩
  · rintro ⟨sig, key, c, hsig, hkey, hm, hc, rfl⟩
    exact (signatureLayout_append hsig hkey (by omega) hm).mpr
      ⟨rfl, rfl, certificationLayout_iff.mpr hc⟩

/-- A tail of zeros is as many of them as it is long. -/
theorem eq_replicate_zero_iff {padding : Bytes} :
    (∀ byte ∈ padding, byte = 0) ↔ padding = List.replicate padding.length 0 := by
  rw [List.eq_replicate_iff]
  simp

theorem quoteLayout_append {header report s padding : Bytes} (hheader : header.length = 48)
    (hreport : report.length = 584) (hs : s.length < 256 ^ 4) :
    QuoteLayout (header ++ (report ++ (leBytes 4 s.length ++ (s ++ padding)))) ↔
      le header 0 2 = 4 ∧ le header 4 4 = 0x81 ∧ (∀ byte ∈ padding, byte = 0) ∧
        SignatureLayout s := by
  have hn : le (header ++ (report ++ (leBytes 4 s.length ++ (s ++ padding)))) 632 4 = s.length := by
    rw [le_skip (o := 584) (by omega), le_skip (o := 0) (by omega), le_leBytes hs]
  have hcut : (header ++ (report ++ (leBytes 4 s.length ++ (s ++ padding)))).drop 636 =
      s ++ padding := by
    rw [← List.append_assoc, ← List.append_assoc]
    exact List.drop_left' (by simp [hheader, hreport])
  have hsig : signatureData (header ++ (report ++ (leBytes 4 s.length ++ (s ++ padding)))) = s := by
    rw [signatureData, hn, hcut]
    exact List.take_left
  have hpad : (header ++ (report ++ (leBytes 4 s.length ++ (s ++ padding)))).drop
      (636 + s.length) = padding := by
    rw [← List.drop_drop, hcut]
    exact List.drop_left
  constructor
  · rintro ⟨h1, h2, -, h4, h5⟩
    rw [le_append_left (by omega)] at h1 h2
    rw [hn, hpad] at h4
    rw [hsig] at h5
    exact ⟨h1, h2, h4, h5⟩
  · rintro ⟨h1, h2, h4, h5⟩
    refine ⟨?_, ?_, ?_, ?_, ?_⟩
    · rw [le_append_left (by omega)]
      exact h1
    · rw [le_append_left (by omega)]
      exact h2
    · rw [hn]
      simp [hheader, hreport]
      omega
    · rw [hn, hpad]
      exact h4
    · rw [hsig]
      exact h5

theorem header_iff {header : Bytes} (hlen : header.length = 48) :
    le header 0 2 = 4 ∧ le header 4 4 = 0x81 ↔ IsHeader header := by
  constructor
  · rintro ⟨h1, h2⟩
    obtain ⟨v, h1', hv, rfl⟩ := cut_number header 2 (by omega)
    rw [List.length_append, length_leBytes] at hlen
    obtain ⟨x, h2', hx, rfl⟩ := cut_bytes h1' 2 (by omega)
    rw [List.length_append] at hlen
    obtain ⟨n, y, hn, rfl⟩ := cut_number h2' 4 (by omega)
    rw [List.length_append, length_leBytes] at hlen
    rw [le_leBytes hv] at h1
    rw [le_skip (o := 2) (by simp), le_skip (o := 0) (by omega), le_leBytes hn] at h2
    subst h1 h2
    exact ⟨x, y, hx, by omega, rfl⟩
  · rintro ⟨x, y, hx, hy, rfl⟩
    rw [le_leBytes (by omega), le_skip (o := 2) (by simp), le_skip (o := 0) (by omega),
      le_leBytes (by omega)]
    exact ⟨rfl, rfl⟩

theorem IsHeader.length {header : Bytes} (h : IsHeader header) : header.length = 48 := by
  obtain ⟨x, y, hx, hy, rfl⟩ := h
  simp [hx, hy]

/-- The layout is the format. -/
theorem quoteLayout_iff {q : Bytes} : QuoteLayout q ↔ IsTdxV4Quote q := by
  constructor
  · intro h
    have hin := h.inside
    obtain ⟨header, q1, hheader, rfl⟩ := cut_bytes q 48 (by omega)
    rw [List.length_append] at hin
    obtain ⟨report, q2, hreport, rfl⟩ := cut_bytes q1 584 (by omega)
    rw [List.length_append] at hin
    obtain ⟨n, q3, hn, rfl⟩ := cut_number q2 4 (by omega)
    have hdeclared : le (header ++ (report ++ (leBytes 4 n ++ q3))) 632 4 = n := by
      rw [le_skip (o := 584) (by omega), le_skip (o := 0) (by omega), le_leBytes hn]
    rw [hdeclared, List.length_append, length_leBytes] at hin
    obtain ⟨s, padding, rfl, rfl⟩ := cut_bytes q3 n (by omega)
    obtain ⟨hversion, hteeType, hpad, hs⟩ := (quoteLayout_append hheader hreport hn).mp h
    refine ⟨header, report, s, padding.length, (header_iff hheader).mp ⟨hversion, hteeType⟩,
      hreport, hn, signatureLayout_iff.mp hs, ?_⟩
    rw [← eq_replicate_zero_iff.mp hpad]
  · rintro ⟨header, report, s, zeros, hheader, hreport, hn, hs, rfl⟩
    obtain ⟨hversion, hteeType⟩ := (header_iff hheader.length).mpr hheader
    refine (quoteLayout_append hheader.length hreport hn).mpr ⟨hversion, hteeType, ?_,
      signatureLayout_iff.mpr hs⟩
    intro byte hbyte
    exact List.eq_of_mem_replicate hbyte

/-! ## The registers -/

/-- A field of the quote, whole. -/
def field (q : Bytes) (off len : Nat) : Bytes := (q.drop off).take len

theorem slice_field {q : Bytes} {lo hi : Nat} (off len : Nat) (hlo : lo = off)
    (hlen : hi = off + len) (hq : off + len ≤ q.length) :
    (slice q lo hi : QuoteResult Bytes) = .ok (field q off len) := by
  subst hlo hlen
  rw [slice_eq (by omega) hq, Nat.add_sub_cancel_left, field]

theorem quoteReportData_yields {w : Nat} (hw : 32 ≤ w) {q : Bytes} (hq : q.length < 2 ^ w)
    {text : String} (htext : decodeHex text = some q) :
    Yields (quoteReportData w text) (QuoteLayout q) (hexEncode (field q 568 64)) := by
  rw [quoteReportData, htext, okOr_some, ok_bind]
  refine (validateTdxV4Quote_decides hw hq).yields fun h => ?_
  have hinside := h.inside
  have hslice : slice q (quoteHeaderBytes + tdReportDataOffset)
      (quoteHeaderBytes + tdReportDataOffset + tdReportDataBytes) =
      (.ok (field q 568 64) : QuoteResult Bytes) :=
    slice_field 568 64 rfl rfl (by omega)
  rw [hslice, ok_bind]
  rfl

theorem quoteMeasurement_yields {w : Nat} (hw : 32 ≤ w) {q : Bytes} (hq : q.length < 2 ^ w)
    {text : String} (htext : decodeHex text = some q) :
    Yields (quoteMeasurement w text) (QuoteLayout q)
      { mrtd := hexEncode (field q 184 48), rtmr0 := hexEncode (field q 376 48),
        rtmr1 := hexEncode (field q 424 48), rtmr2 := hexEncode (field q 472 48),
        rtmr3 := hexEncode (field q 520 48) } := by
  rw [quoteMeasurement, htext, okOr_some, ok_bind]
  refine (validateTdxV4Quote_decides hw hq).yields fun h => ?_
  have hinside := h.inside
  rw [slice_field 184 48 rfl rfl (by omega), ok_bind,
    slice_field 376 48 rfl rfl (by omega), ok_bind,
    slice_field 424 48 rfl rfl (by omega), ok_bind,
    slice_field 472 48 rfl rfl (by omega), ok_bind,
    slice_field 520 48 rfl rfl (by omega), ok_bind]
  rfl

/-- **The validator accepts exactly the format and never panics**, and the registers of an accepted
quote are the bytes at their offsets. -/
theorem validateTdxV4Quote_exact {w : Nat} (hw : 32 ≤ w) {q : Bytes} (hq : q.length < 2 ^ w) :
    validateTdxV4Quote w q ≠ .error .panic ∧
    (validateTdxV4Quote w q = .ok () ↔ IsTdxV4Quote q) ∧
    ∀ text, decodeHex text = some q →
      quoteMeasurement w text ≠ .error .panic ∧
      quoteReportData w text ≠ .error .panic ∧
      (∀ measurement, quoteMeasurement w text = .ok measurement ↔ IsTdxV4Quote q ∧ measurement =
        { mrtd := hexEncode (field q (48 + 136) 48), rtmr0 := hexEncode (field q (48 + 328) 48),
          rtmr1 := hexEncode (field q (48 + 376) 48), rtmr2 := hexEncode (field q (48 + 424) 48),
          rtmr3 := hexEncode (field q (48 + 472) 48) }) ∧
      (∀ reportData, quoteReportData w text = .ok reportData ↔
        IsTdxV4Quote q ∧ reportData = hexEncode (field q (48 + 520) 64)) := by
  have hvalid := (validateTdxV4Quote_decides hw hq).congr quoteLayout_iff
  refine ⟨hvalid.no_panic, hvalid.ok_iff, ?_⟩
  intro text htext
  have hmeasurement := quoteMeasurement_yields hw hq htext
  have hreportData := quoteReportData_yields hw hq htext
  refine ⟨hmeasurement.no_panic, hreportData.no_panic, ?_, ?_⟩
  · intro measurement
    rw [hmeasurement.ok_iff, quoteLayout_iff]
  · intro reportData
    rw [hreportData.ok_iff, quoteLayout_iff]

/-- The shortest certification data: no authentication data and one byte of chain. -/
def shortestCertification : Bytes :=
  List.replicate 448 0 ++ (leBytes 2 0 ++ ([] ++ (leBytes 2 5 ++ (leBytes 4 1 ++ [7]))))

/-- The shortest signature data. -/
def shortestSignatureData : Bytes :=
  List.replicate 64 1 ++ (List.replicate 64 2 ++ (leBytes 2 6 ++
    (leBytes 4 shortestCertification.length ++ shortestCertification)))

/-- A quote of the minimum length, padded. -/
def shortestQuote : Bytes :=
  (leBytes 2 4 ++ (List.replicate 2 0 ++ (leBytes 4 0x81 ++ List.replicate 40 0))) ++
    (List.replicate 584 9 ++ (leBytes 4 shortestSignatureData.length ++
      (shortestSignatureData ++ List.replicate 5 0)))

theorem isCertification_shortest : IsCertification shortestCertification :=
  ⟨List.replicate 448 0, [], [7], List.length_replicate, by decide, by decide, by decide, rfl⟩

theorem isSignatureData_shortest : IsSignatureData shortestSignatureData :=
  ⟨List.replicate 64 1, List.replicate 64 2, shortestCertification, List.length_replicate,
    List.length_replicate, by decide +kernel, isCertification_shortest, rfl⟩

theorem isTdxV4Quote_shortest : IsTdxV4Quote shortestQuote :=
  ⟨_, List.replicate 584 9, shortestSignatureData, 5,
    ⟨List.replicate 2 0, List.replicate 40 0, List.length_replicate, List.length_replicate, rfl⟩,
    List.length_replicate, by decide +kernel, isSignatureData_shortest, rfl⟩

theorem validateTdxV4Quote_exact_shortest : validateTdxV4Quote 64 shortestQuote = .ok () :=
  (validateTdxV4Quote_exact (by decide) (by decide +kernel)).2.1.mpr isTdxV4Quote_shortest

end Basecrawl.Core.Attestation
