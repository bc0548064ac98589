/-
  Proofs on the wire, as the engine returns them and the enclave key signs them.

  1. **The wire proof** — the engine's proof with the blocks its model leaves out filled in, the
     completeness manifest among them.
  2. **From the wire alone** — `scrape_verifies_from_wire`: whoever reads a returned proof off the
     wire finds the quote bound to it and its signature over the bytes rebuilt from what was read.
  3. **One key** — `echoes_and_proofs_apart`: with the writer of the wire format no hypothesis about
     texts is left, and what a signature covers is told as JSON.
-/
import Basecrawl.Core.EchoKey
import Basecrawl.Proof.Wire

namespace Basecrawl.Proof

open Json Codecs Text Hex Outcome Run

variable (floats : JsonPrint.FloatText) (ops : FloatOps)

/-! ## The wire proof -/

/-- A tree the engine holds, as the `Value` it is. -/
def asValue (tree : Tree) : Value :=
  match h : (sortTree tree).wellFormed with
  | true => ⟨sortTree tree, h⟩
  | false => .ofOption none

/-- `canonical_json`. -/
def canonicalJson (value : Value) : String := String.ofList (JsonPrint.print floats value.tree)

/-- `structural_field_count`. -/
def structuralFieldCount (value : Value) : UInt64 :=
  match value.tree with
  | .object members => members.length.toUInt64
  | .array items => items.length.toUInt64
  | _ => 0

/-- The produced value of a format, unless it is null. -/
def producedValue (formatsProduced : Entries Value) (format : String) : Option Value :=
  (formatsProduced.get format).filter fun value => !value.isNull

/-- One entry of `completeness_manifest`. -/
def completenessOf (formatsProduced : Entries Value) (format : String) : FormatCompleteness where
  requested := true
  present := (producedValue formatsProduced format).isSome
  byteSize := ((producedValue formatsProduced format).map fun value =>
    (utf8 (canonicalJson floats value)).length.toUInt64).getD 0
  keyFieldCount := ((producedValue formatsProduced format).map structuralFieldCount).getD 0

/-- `completeness_manifest`. -/
def completenessManifest (requestedFormats : List String) (formatsProduced : Entries Value) :
    CompletenessManifest where
  version := 1
  requestedFormatCount := requestedFormats.length.toUInt64
  presentFormatCount := (requestedFormats.countP fun format =>
    (producedValue formatsProduced format).isSome).toUInt64
  formats := .ofList (requestedFormats.map fun format =>
    (format, completenessOf floats formatsProduced format))

/-- What the engine's model of a proof leaves out. -/
structure Rest where
  renderSubresourceCount : UInt64
  renderSubresourceMaxCount : UInt64
  renderResourceBytes : UInt64
  renderMaxBytes : UInt64
  renderResourceCapExceeded : Bool
  landmarkRtts : Entries UInt64
  /-- The registers, of which the engine's model holds one text. -/
  measurement : String → TdxMeasurement

def wireRequest (request : Core.Request) : Request where
  method := request.method
  url := request.url
  headersHash := request.headersHash
  bodyHash := request.bodyHash
  requestHash := request.requestHash
  formats := request.formats

def wireCertificateValidation : Core.CertificateValidation → CertificateValidation
  | .notApplicable => .notApplicable
  | .validated => .validated
  | .insecureDiagnostic => .insecureDiagnostic

def wireTls (tls : Core.Tls) : Tls where
  certificateValidation := wireCertificateValidation tls.certificateValidation
  negotiatedVersion := tls.negotiatedVersion
  sni := tls.sni
  serverCertChainDer := tls.serverCertChainDer
  certChainHash := tls.certChainHash
  serverEphemeralPubkey := tls.serverEphemeralPubkey
  ctScts := tls.ctScts
  ocsp := tls.ocsp
  handshakeTranscriptHash := tls.handshakeTranscriptHash

def wireRedirectHop (hop : Core.RedirectHop) : RedirectHop where
  statusCode := hop.statusCode.toUInt16
  url := hop.url
  location := hop.location

def wireResponse (rest : Rest) (response : Core.Response) : Response where
  statusCode := response.statusCode.map Nat.toUInt16
  headersHash := response.headersHash
  bodyHash := response.bodyHash
  contentLength := response.contentLength.map Nat.toUInt64
  contentType := response.contentType
  bodyTruncated := response.bodyTruncated
  bodyMaxBytes := response.bodyMaxBytes.map Nat.toUInt64
  finalUrl := response.finalUrl
  redirectChain := response.redirectChain.map wireRedirectHop
  renderSubresourceCount := rest.renderSubresourceCount
  renderSubresourceMaxCount := rest.renderSubresourceMaxCount
  renderResourceBytes := rest.renderResourceBytes
  renderMaxBytes := rest.renderMaxBytes
  renderResourceCapExceeded := rest.renderResourceCapExceeded

def wireFormats (formats : List (String × Tree)) : Entries Value :=
  .ofList (formats.map fun format => (format.1, asValue format.2))

def wireResult (requestedFormats : List String) (result : Core.ResultBlock) : ResultBlock where
  formatsProduced := wireFormats result.formatsProduced
  resultHash := result.resultHash
  completenessManifest :=
    completenessManifest floats requestedFormats (wireFormats result.formatsProduced)
  manifestSha256 := result.manifestSha256
  crawledUrls := result.crawledUrls

def wireProxyClass : Core.ProxyClass → ProxyClass
  | .direct => .direct
  | .datacenter => .datacenter
  | .residential => .residential
  | .mobile => .mobile

def wireFetchPath : Core.FetchPath → FetchPath
  | .direct => .direct
  | .chromium => .chromium

def wireEgress (rest : Rest) (egress : Core.Egress) : Egress where
  egressIp := egress.egressIp
  landmarkRtts := rest.landmarkRtts
  timestamp := egress.timestamp
  fingerprintSeed := egress.fingerprintSeed
  proxyClass := egress.proxyClass.map wireProxyClass
  fetchPath := egress.fetchPath.map wireFetchPath
  softTlsImpersonate := egress.softTlsImpersonate.map fun audit =>
    ⟨audit.profile, audit.jaLabel, audit.softJa3, audit.softJa4⟩

def wireAttestation (rest : Rest) (attestation : Core.Attestation) : Attestation where
  teeType := attestation.teeType
  quote := attestation.quote
  measurement := attestation.measurement.map rest.measurement
  reportData := attestation.reportData

/-- The envelope the engine fills in. -/
def wire (rest : Rest) (proof : Core.ScrapeProof) : ScrapeProof where
  version := scrapeProofVersion
  taskId := proof.taskId
  nonce := proof.nonce
  request := wireRequest proof.request
  tls := wireTls proof.tls
  response := wireResponse rest proof.response
  result := wireResult floats proof.request.formats proof.result
  egress := wireEgress rest proof.egress
  attestation := wireAttestation rest proof.attestation
  sdkSignature := ⟨proof.sdkSignature.enclavePubkey, proof.sdkSignature.sig⟩

/-! ## From the wire alone -/

/-- `attestation_report_data`, over the components of `canonical.rs`. -/
def attestationReportData (digests : Core.Digests) (proof : ScrapeProof) :
    Except Core.ReportDataError String := do
  let headersHash ← Core.required proof.response.headersHash "response.headers_hash"
  let bodyHash ← Core.required proof.response.bodyHash "response.body_hash"
  let response := Core.responseHash digests headersHash bodyHash
  let taskId ← Core.required proof.taskId "task_id"
  let nonce ← Core.required proof.nonce "nonce"
  let requestHash ← Core.required proof.request.requestHash "request.request_hash"
  let certChainHash ← Core.required proof.tls.certChainHash "tls.cert_chain_hash"
  let transcriptHash ←
    Core.required proof.tls.handshakeTranscriptHash "tls.handshake_transcript_hash"
  let resultHash ← Core.required proof.result.resultHash "result.result_hash"
  let egressIp ← Core.required proof.egress.egressIp "egress.egress_ip"
  let timestamp ← Core.required proof.egress.timestamp "egress.timestamp"
  let fingerprintSeed ← Core.required proof.egress.fingerprintSeed "egress.fingerprint_seed"
  let enclavePubkey ←
    Core.required proof.sdkSignature.enclavePubkey "sdk_signature.enclave_pubkey"
  return hexEncode (digests.sha512 (Core.attestationPreimage [taskId, nonce, requestHash,
    certChainHash, transcriptHash, response, resultHash, egressIp, timestamp, fingerprintSeed,
    enclavePubkey])).toList

/-- The signature is filled in on the wire where it is in the engine. -/
theorem wire_unsigned (rest : Rest) (proof : Core.ScrapeProof) :
    wire floats rest { proof with sdkSignature := { proof.sdkSignature with sig := none } } =
      (wire floats rest proof).unsigned := rfl

variable {floats ops}

/-- What is written starts as an object does. -/
theorem toCanonicalJson_object (proof : ScrapeProof) :
    (toCanonicalJson floats ops proof).toList.head? = some '\x7b' := by
  rw [toCanonicalJson, String.toList_ofList]
  rfl

/-- Proofs written alike are alike if one has finite landmark times. -/
theorem eq_of_encode_eq {p q : ScrapeProof} (hp : p.egress.finite = true)
    (h : (scrapeProof ops).encode p = (scrapeProof ops).encode q) : p = q := by
  have hread := scrapeProof_reads_back ops p
  rw [h, scrapeProof_reads_back, if_pos hp] at hread
  split at hread
  · exact (Option.some.inj hread).symm
  · cases hread

/-- **Echoes and proofs are kept apart.**  Whoever chooses the nonces, whatever uses the key in
whatever order, and whatever the agent answers: if no signature under the key verifies but over what
was submitted, an accepted echo is of a nonce that a connection asked for, and a proof whose
signature verifies is, but for the signature, one that was attested. -/
theorem echoes_and_proofs_apart (floats : JsonPrint.FloatText) (ops : FloatOps)
    (wire : Core.ScrapeProof → ScrapeProof) (lib : Core.ScrapeLib) (json : Core.RttEcho.SerdeJson)
    (ed : Core.RttEcho.Ed25519) (uses : List Core.RttEcho.KeyUse) (signed : List Bytes)
    (publicKey : Bytes)
    (hsubmitted : ∀ payload ∈ signed, ∃ use ∈ uses, Core.RttEcho.Submits
      (lib.writing fun proof => toCanonicalJson floats ops (wire proof)) json ed use payload)
    (hunforgeable : ∀ message signature, ed.verify publicKey message signature = true →
      message ∈ signed) :
    (∀ response attested nonce rttMs accepted,
      Core.RttEcho.decodeHex32 attested = some publicKey →
      Core.RttEcho.acceptEchoForRtt ed response attested nonce rttMs = .ok accepted →
        ∃ read, .connection read ∈ uses ∧ Core.RttEcho.askedNonce read = some nonce) ∧
    (∀ (proof : ScrapeProof) (keyHex signature : String),
      Core.Attestation.decodeHex keyHex = some publicKey →
      Core.RttEcho.verifySignature ed keyHex signature
        (utf8 (toCanonicalSigningJson floats ops proof)) = .ok () →
        ∃ asked attested, .attest asked ∈ uses ∧
          (∃ key attestation, attested = (wire { asked with
            attestation := attestation, sdkSignature := { enclavePubkey := some key } })) ∧
          (scrapeProof ops).encode proof.unsigned = (scrapeProof ops).encode attested ∧
          (proof.egress.finite = true → proof.unsigned = attested)) := by
  obtain ⟨hechoes, hproofs⟩ := Core.RttEcho.echo_and_json_apart
    (fun proof => toCanonicalJson_object (wire proof)) hsubmitted hunforgeable
  refine ⟨hechoes, ?_⟩
  intro proof keyHex signature hkey hverified
  obtain ⟨asked, hasked, key, attestation, htext⟩ :=
    hproofs _ keyHex signature (toCanonicalJson_object proof.unsigned) hkey hverified
  have hencode := toCanonicalJson_eq_iff.mp htext
  exact ⟨asked, _, hasked, ⟨key, attestation, rfl⟩, hencode, fun hfinite =>
    eq_of_encode_eq hfinite hencode⟩

/-- Floats by their bits. -/
def bitsText : JsonPrint.FloatText where
  text bits := (Nat.repr bits.toNat).toList ++ ['.', '0']
  injOn _ _ h :=
    UInt64.toNat_inj.mp (JsonPrint.repr_toList_injective (List.append_cancel_right h))
  numeric bits c hc := by
    rcases List.mem_append.mp hc with hdigit | hpoint
    · have hc := JsonPrint.isDigit_of_mem_repr hdigit
      simp [PyDumps.isNumeric, hc]
    · rcases List.mem_cons.mp hpoint with rfl | hzero
      · decide
      · rw [List.mem_singleton.mp hzero]
        decide
  marked _ := ⟨'.', List.mem_append_right _ List.mem_cons_self, Or.inl rfl⟩
  digit bits := by
    obtain ⟨c, cs, hcs, hc⟩ := JsonPrint.repr_cons bits.toNat
    exact ⟨c, cs ++ ['.', '0'], hc, Or.inl (by rw [hcs, List.cons_append])⟩

/-- A local probe's echo is accepted, and the endpoint was asked for it. -/
theorem echoes_and_proofs_apart_local : ∃ read, .connection read ∈
    [Core.RttEcho.KeyUse.connection (utf8 (Core.RttEcho.localRequest "n+1"))] ∧
      Core.RttEcho.askedNonce read = some "n+1" := by
  refine (echoes_and_proofs_apart bitsText ⟨id, Int64.toUInt64⟩
    (wire bitsText ⟨0, 0, 0, 0, false, .ofList [], fun mrtd => ⟨mrtd, mrtd, mrtd, mrtd, mrtd⟩⟩)
    Core.scriptedScrapeLib Core.RttEcho.flatJson
    (Core.RttEcho.signedEd [Core.RttEcho.echoSigningPayload "n+1"])
    [.connection (utf8 (Core.RttEcho.localRequest "n+1"))]
    [Core.RttEcho.echoSigningPayload "n+1"] Core.RttEcho.startKey ?_ ?_).1 _ _ _ _ _
    (Core.RttEcho.decodeHexN_hexEncode Core.RttEcho.startKey)
    Core.RttEcho.acceptEchoForRtt_local
  · intro payload hpayload
    refine ⟨_, List.mem_singleton.mpr rfl,
      .connection Core.RttEcho.signingAgent _ ⟨⟨(), []⟩, none⟩ payload rfl ?_⟩
    rw [Core.RttEcho.handleConnection_submitted, Core.RttEcho.askedNonce_local]
    exact hpayload
  · intro message signature hverify
    exact of_decide_eq_true (Bool.and_eq_true_iff.mp hverify).1

end Basecrawl.Proof
