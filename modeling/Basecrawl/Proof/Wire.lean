/-
  The wire format of a proof: `basecrawl-proof`, as it is written and read.

  1. **Types** — the blocks of a proof, with all their members.
  2. **Codecs** — one record a block, member by member as declared: which are left out when they are
     empty, which may be missing.
  3. **Round trip** — `scrapeProof_reads_back`: a proof is read back unless a landmark time is not
     finite, which is written as `null`.
  4. **Signing** — `toCanonicalJson_eq_iff`: the text that is signed says everything but the signature.
-/
import Basecrawl.Lib.Codec
import Basecrawl.Lib.JsonPrint
import Basecrawl.Lib.Text

namespace Basecrawl.Proof

open Json Codecs Text

/-! ## Types -/

/-- `SCRAPE_PROOF_VERSION`. -/
def scrapeProofVersion : UInt32 := 1

structure Request where
  method : String
  url : String
  headersHash : Option String
  bodyHash : Option String
  requestHash : Option String
  formats : List String

inductive CertificateValidation where
  | notApplicable
  | validated
  | insecureDiagnostic
deriving DecidableEq

structure Tls where
  certificateValidation : CertificateValidation := .notApplicable
  negotiatedVersion : Option String := none
  sni : Option String := none
  serverCertChainDer : List String := []
  certChainHash : Option String := none
  serverEphemeralPubkey : Option String := none
  ctScts : List String := []
  ocsp : Option String := none
  handshakeTranscriptHash : Option String := none

structure RedirectHop where
  statusCode : UInt16
  url : String
  location : String

structure Response where
  statusCode : Option UInt16 := none
  headersHash : Option String := none
  bodyHash : Option String := none
  contentLength : Option UInt64 := none
  contentType : Option String := none
  bodyTruncated : Bool := false
  bodyMaxBytes : Option UInt64 := none
  finalUrl : Option String := none
  redirectChain : List RedirectHop := []
  renderSubresourceCount : UInt64 := 0
  renderSubresourceMaxCount : UInt64 := 0
  renderResourceBytes : UInt64 := 0
  renderMaxBytes : UInt64 := 0
  renderResourceCapExceeded : Bool := false

structure FormatCompleteness where
  requested : Bool := false
  present : Bool := false
  byteSize : UInt64 := 0
  keyFieldCount : UInt64 := 0

structure CompletenessManifest where
  version : UInt32 := 1
  requestedFormatCount : UInt64 := 0
  presentFormatCount : UInt64 := 0
  formats : Entries FormatCompleteness := .ofList []

structure ResultBlock where
  formatsProduced : Entries Value := .ofList []
  resultHash : Option String := none
  completenessManifest : CompletenessManifest := {}
  manifestSha256 : Option String := none
  crawledUrls : List String := []

inductive ProxyClass where
  | direct
  | datacenter
  | residential
  | mobile
deriving DecidableEq

inductive FetchPath where
  | direct
  | chromium
deriving DecidableEq

structure SoftTlsImpersonateEgress where
  profile : String
  jaLabel : String
  softJa3 : String
  softJa4 : String

/-- The landmark times are floats, by their bits. -/
structure Egress where
  egressIp : Option String := none
  landmarkRtts : Entries UInt64 := .ofList []
  timestamp : Option String := none
  fingerprintSeed : Option String := none
  proxyClass : Option ProxyClass := none
  fetchPath : Option FetchPath := none
  softTlsImpersonate : Option SoftTlsImpersonateEgress := none

structure TdxMeasurement where
  mrtd : String
  rtmr0 : String
  rtmr1 : String
  rtmr2 : String
  rtmr3 : String

structure Attestation where
  teeType : Option String := none
  quote : Option String := none
  measurement : Option TdxMeasurement := none
  reportData : Option String := none

structure SdkSignature where
  enclavePubkey : Option String := none
  sig : Option String := none

structure ScrapeProof where
  version : UInt32
  taskId : Option String
  nonce : Option String
  request : Request
  tls : Tls
  response : Response
  result : ResultBlock
  egress : Egress
  attestation : Attestation
  sdkSignature : SdkSignature

/-! ## Names -/

/-- The variants are renamed to snake case. -/
def CertificateValidation.name : CertificateValidation → String
  | .notApplicable => "not_applicable"
  | .validated => "validated"
  | .insecureDiagnostic => "insecure_diagnostic"

/-- `ProxyClass::as_str`, and the name of the variant. -/
def ProxyClass.asStr : ProxyClass → String
  | .direct => "direct"
  | .datacenter => "datacenter"
  | .residential => "residential"
  | .mobile => "mobile"

def ProxyClass.parse (raw : String) : Option ProxyClass :=
  let token := asciiLower (trim raw)
  if token ∈ ["direct", "none"] then some .direct
  else if token ∈ ["datacenter", "dc"] then some .datacenter
  else if token ∈ ["residential", "res"] then some .residential
  else if token = "mobile" then some .mobile
  else none

def ProxyClass.requiresUpstream (c : ProxyClass) : Bool := c ≠ .direct

/-- `FetchPath::as_str`, and the name of the variant. -/
def FetchPath.asStr : FetchPath → String
  | .direct => "direct"
  | .chromium => "chromium"

def FetchPath.parse (raw : String) : Option FetchPath :=
  let token := asciiLower (trim raw)
  if token ∈ ["direct", "soft", "rustls"] then some .direct
  else if token ∈ ["chromium", "browser", "hard", "chrome"] then some .chromium
  else none

theorem parse_asStr (c : ProxyClass) : ProxyClass.parse c.asStr = some c := by
  cases c <;> decide

theorem parse_path_asStr (p : FetchPath) : FetchPath.parse p.asStr = some p := by
  cases p <;> decide

/-! ## Members -/

section

variable {α : Type}

/-- A member that must be there. -/
def required (name : String) (c : Codec α) : Member α where
  name := name
  codec := c

/-- An `Option`, written as `null` when it is empty. -/
def nullable (name : String) (c : Codec α) (hnull : ∀ a, c.encode a ≠ .null) :
    Member (Option α) where
  name := name
  codec := optional c hnull
  missing := some none

/-- `skip_serializing_if = "Option::is_none"`, with or without `default`. -/
def omitted (name : String) (c : Codec α) (hnull : ∀ a, c.encode a ≠ .null)
    (missingItem : Option (Option α)) : Member (Option α) where
  name := name
  codec := optional c hnull
  missing := some none
  missingItem := missingItem
  skip a := a.isNone
  skipped a h := by
    obtain rfl := Option.isNone_iff_eq_none.mp h
    exact ⟨rfl, rfl⟩

/-- `default, skip_serializing_if = "Vec::is_empty"`. -/
def omittedEmpty (name : String) (c : Codec α) : Member (List α) where
  name := name
  codec := list c
  missing := some []
  missingItem := some []
  skip items := items.isEmpty
  skipped items h := by
    obtain rfl := List.isEmpty_iff.mp h
    exact ⟨rfl, rfl⟩

theorem string_ne_null (s : String) : string.encode s ≠ .null := Tree.noConfusion

theorem number_ne_null {n : Number} : Tree.number n ≠ .null := Tree.noConfusion

/-- A member that holds an optional text. -/
def text (name : String) : Member (Option String) := nullable name string string_ne_null

end

/-! ## Codecs -/

def request : Codec Request :=
  (Record.cons (required "method" string) <|
    .cons (required "url" string) <|
    .cons (text "headers_hash") <|
    .cons (text "body_hash") <|
    .cons (text "request_hash") <|
    .cons (required "formats" (list string)) .nil).codec
  (fun r => (r.method, r.url, r.headersHash, r.bodyHash, r.requestHash, r.formats, ()))
  (fun (method, url, headersHash, bodyHash, requestHash, formats, ()) =>
    ⟨method, url, headersHash, bodyHash, requestHash, formats⟩)
  (fun _ => rfl)

def certificateValidation : Codec CertificateValidation :=
  enum CertificateValidation.name [.notApplicable, .validated, .insecureDiagnostic] fun a => by
    cases a <;> decide

def tls : Codec Tls :=
  (Record.cons (required "certificate_validation" certificateValidation) <|
    .cons (text "negotiated_version") <|
    .cons (text "sni") <|
    .cons (required "server_cert_chain_der" (list string)) <|
    .cons (text "cert_chain_hash") <|
    .cons (text "server_ephemeral_pubkey") <|
    .cons (required "ct_scts" (list string)) <|
    .cons (text "ocsp") <|
    .cons (text "handshake_transcript_hash") .nil).codec
  (fun r => (r.certificateValidation, r.negotiatedVersion, r.sni, r.serverCertChainDer,
    r.certChainHash, r.serverEphemeralPubkey, r.ctScts, r.ocsp, r.handshakeTranscriptHash, ()))
  (fun (certificateValidation, negotiatedVersion, sni, serverCertChainDer, certChainHash,
    serverEphemeralPubkey, ctScts, ocsp, handshakeTranscriptHash, ()) =>
    ⟨certificateValidation, negotiatedVersion, sni, serverCertChainDer, certChainHash,
      serverEphemeralPubkey, ctScts, ocsp, handshakeTranscriptHash⟩)
  (fun _ => rfl)

def redirectHop : Codec RedirectHop :=
  (Record.cons (required "status_code" u16) <|
    .cons (required "url" string) <|
    .cons (required "location" string) .nil).codec
  (fun r => (r.statusCode, r.url, r.location, ()))
  (fun (statusCode, url, location, ()) =>
    ⟨statusCode, url, location⟩)
  (fun _ => rfl)

def response : Codec Response :=
  (Record.cons (nullable "status_code" u16 fun _ => number_ne_null) <|
    .cons (text "headers_hash") <|
    .cons (text "body_hash") <|
    .cons (nullable "content_length" u64 fun _ => number_ne_null) <|
    .cons (text "content_type") <|
    .cons (required "body_truncated" bool) <|
    .cons (nullable "body_max_bytes" u64 fun _ => number_ne_null) <|
    .cons (text "final_url") <|
    .cons (required "redirect_chain" (list redirectHop)) <|
    .cons (required "render_subresource_count" u64) <|
    .cons (required "render_subresource_max_count" u64) <|
    .cons (required "render_resource_bytes" u64) <|
    .cons (required "render_max_bytes" u64) <|
    .cons (required "render_resource_cap_exceeded" bool) .nil).codec
  (fun r => (r.statusCode, r.headersHash, r.bodyHash, r.contentLength, r.contentType,
    r.bodyTruncated, r.bodyMaxBytes, r.finalUrl, r.redirectChain, r.renderSubresourceCount,
    r.renderSubresourceMaxCount, r.renderResourceBytes, r.renderMaxBytes,
    r.renderResourceCapExceeded, ()))
  (fun (statusCode, headersHash, bodyHash, contentLength, contentType, bodyTruncated,
    bodyMaxBytes, finalUrl, redirectChain, renderSubresourceCount, renderSubresourceMaxCount,
    renderResourceBytes, renderMaxBytes, renderResourceCapExceeded, ()) =>
    ⟨statusCode, headersHash, bodyHash, contentLength, contentType, bodyTruncated, bodyMaxBytes,
      finalUrl, redirectChain, renderSubresourceCount, renderSubresourceMaxCount,
      renderResourceBytes, renderMaxBytes, renderResourceCapExceeded⟩)
  (fun _ => rfl)

def formatCompleteness : Codec FormatCompleteness :=
  (Record.cons (required "requested" bool) <|
    .cons (required "present" bool) <|
    .cons (required "byte_size" u64) <|
    .cons (required "key_field_count" u64) .nil).codec
  (fun r => (r.requested, r.present, r.byteSize, r.keyFieldCount, ()))
  (fun (requested, present, byteSize, keyFieldCount, ()) =>
    ⟨requested, present, byteSize, keyFieldCount⟩)
  (fun _ => rfl)

def completeness : Codec CompletenessManifest :=
  (Record.cons (required "version" u32) <|
    .cons (required "requested_format_count" u64) <|
    .cons (required "present_format_count" u64) <|
    .cons (required "formats" (table formatCompleteness)) .nil).codec
  (fun r => (r.version, r.requestedFormatCount, r.presentFormatCount, r.formats, ()))
  (fun (version, requestedFormatCount, presentFormatCount, formats, ()) =>
    ⟨version, requestedFormatCount, presentFormatCount, formats⟩)
  (fun _ => rfl)

def resultBlock : Codec ResultBlock :=
  (Record.cons (required "formats_produced" (table value)) <|
    .cons (text "result_hash") <|
    .cons (required "completeness_manifest" completeness) <|
    .cons (text "manifest_sha256") <|
    .cons (omittedEmpty "crawled_urls" string) .nil).codec
  (fun r => (r.formatsProduced, r.resultHash, r.completenessManifest, r.manifestSha256,
    r.crawledUrls, ()))
  (fun (formatsProduced, resultHash, completenessManifest, manifestSha256, crawledUrls, ()) =>
    ⟨formatsProduced, resultHash, completenessManifest, manifestSha256, crawledUrls⟩)
  (fun _ => rfl)

def proxyClass : Codec ProxyClass :=
  enum ProxyClass.asStr [.direct, .datacenter, .residential, .mobile] fun a => by
    cases a <;> decide

def fetchPath : Codec FetchPath :=
  enum FetchPath.asStr [.direct, .chromium] fun a => by
    cases a <;> decide

def softTlsImpersonate : Codec SoftTlsImpersonateEgress :=
  (Record.cons (required "profile" string) <|
    .cons (required "ja_label" string) <|
    .cons (required "soft_ja3" string) <|
    .cons (required "soft_ja4" string) .nil).codec
  (fun r => (r.profile, r.jaLabel, r.softJa3, r.softJa4, ()))
  (fun (profile, jaLabel, softJa3, softJa4, ()) =>
    ⟨profile, jaLabel, softJa3, softJa4⟩)
  (fun _ => rfl)

def egress (ops : FloatOps) : Codec Egress :=
  (Record.cons (text "egress_ip") <|
    .cons (required "landmark_rtts" (table (f64 ops))) <|
    .cons (text "timestamp") <|
    .cons (text "fingerprint_seed") <|
    .cons (omitted "proxy_class" proxyClass (fun _ => Tree.noConfusion) (some none)) <|
    .cons (omitted "fetch_path" fetchPath (fun _ => Tree.noConfusion) (some none)) <|
    .cons (omitted "soft_tls_impersonate" softTlsImpersonate (fun _ => Tree.noConfusion)
      (some none)) .nil).codec
  (fun r => (r.egressIp, r.landmarkRtts, r.timestamp, r.fingerprintSeed, r.proxyClass,
    r.fetchPath, r.softTlsImpersonate, ()))
  (fun (egressIp, landmarkRtts, timestamp, fingerprintSeed, proxyClass, fetchPath,
    softTlsImpersonate, ()) =>
    ⟨egressIp, landmarkRtts, timestamp, fingerprintSeed, proxyClass, fetchPath, softTlsImpersonate
      ⟩)
  (fun _ => rfl)

def measurement : Codec TdxMeasurement :=
  (Record.cons (required "mrtd" string) <|
    .cons (required "rtmr0" string) <|
    .cons (required "rtmr1" string) <|
    .cons (required "rtmr2" string) <|
    .cons (required "rtmr3" string) .nil).codec
  (fun r => (r.mrtd, r.rtmr0, r.rtmr1, r.rtmr2, r.rtmr3, ()))
  (fun (mrtd, rtmr0, rtmr1, rtmr2, rtmr3, ()) =>
    ⟨mrtd, rtmr0, rtmr1, rtmr2, rtmr3⟩)
  (fun _ => rfl)

def attestation : Codec Attestation :=
  (Record.cons (text "tee_type") <|
    .cons (text "quote") <|
    .cons (nullable "measurement" measurement fun _ => Tree.noConfusion) <|
    .cons (text "report_data") .nil).codec
  (fun r => (r.teeType, r.quote, r.measurement, r.reportData, ()))
  (fun (teeType, quote, measurement, reportData, ()) =>
    ⟨teeType, quote, measurement, reportData⟩)
  (fun _ => rfl)

def sdkSignature : Codec SdkSignature :=
  (Record.cons (text "enclave_pubkey") <|
    .cons (text "sig") .nil).codec
  (fun r => (r.enclavePubkey, r.sig, ()))
  (fun (enclavePubkey, sig, ()) =>
    ⟨enclavePubkey, sig⟩)
  (fun _ => rfl)

/-- A whole proof. -/
def scrapeProof (ops : FloatOps) : Codec ScrapeProof :=
  (Record.cons (required "version" u32) <|
    .cons (omitted "task_id" string string_ne_null none) <|
    .cons (omitted "nonce" string string_ne_null none) <|
    .cons (required "request" request) <|
    .cons (required "tls" tls) <|
    .cons (required "response" response) <|
    .cons (required "result" resultBlock) <|
    .cons (required "egress" (egress ops)) <|
    .cons (required "attestation" attestation) <|
    .cons (required "sdk_signature" sdkSignature) .nil).codec
  (fun r => (r.version, r.taskId, r.nonce, r.request, r.tls, r.response, r.result, r.egress,
    r.attestation, r.sdkSignature, ()))
  (fun (version, taskId, nonce, request, tls, response, result, egress, attestation,
    sdkSignature, ()) =>
    ⟨version, taskId, nonce, request, tls, response, result, egress, attestation, sdkSignature⟩)
  (fun _ => rfl)

/-! ## Round trip -/

theorem total_string : string.Total := fun _ => rfl

theorem total_text (name : String) : (text name).codec.Total := total_string.optional string_ne_null

theorem total_request : request.Total :=
  Record.Total.codec <| .cons total_string <| .cons total_string <| .cons (total_text _) <|
    .cons (total_text _) <| .cons (total_text _) <| .cons total_string.list Record.total_nil

theorem total_tls : tls.Total :=
  Record.Total.codec <| .cons (fun _ => rfl) <| .cons (total_text _) <| .cons (total_text _) <|
    .cons total_string.list <| .cons (total_text _) <| .cons (total_text _) <|
    .cons total_string.list <| .cons (total_text _) <| .cons (total_text _) Record.total_nil

theorem total_redirectHop : redirectHop.Total :=
  Record.Total.codec <| .cons (fun _ => rfl) <| .cons total_string <|
    .cons total_string Record.total_nil

theorem total_response : response.Total := by
  have hu16 : u16.Total := fun _ => rfl
  have hu64 : u64.Total := fun _ => rfl
  exact Record.Total.codec <| .cons (hu16.optional fun _ => number_ne_null) <| .cons (total_text _) <|
    .cons (total_text _) <| .cons (hu64.optional fun _ => number_ne_null) <| .cons (total_text _) <|
    .cons (fun _ => rfl) <| .cons (hu64.optional fun _ => number_ne_null) <| .cons (total_text _) <|
    .cons total_redirectHop.list <| .cons hu64 <| .cons hu64 <| .cons hu64 <| .cons hu64 <|
    .cons (fun _ => rfl) Record.total_nil

theorem total_formatCompleteness : formatCompleteness.Total :=
  Record.Total.codec <| .cons (fun _ => rfl) <| .cons (fun _ => rfl) <| .cons (fun _ => rfl) <|
    .cons (fun _ => rfl) Record.total_nil

theorem total_completeness : completeness.Total :=
  Record.Total.codec <| .cons (fun _ => rfl) <| .cons (fun _ => rfl) <| .cons (fun _ => rfl) <|
    .cons total_formatCompleteness.table Record.total_nil

theorem total_resultBlock : resultBlock.Total := by
  have hvalue : value.Total := fun _ => rfl
  exact Record.Total.codec <| .cons hvalue.table <| .cons (total_text _) <|
    .cons total_completeness <| .cons (total_text _) <| .cons total_string.list Record.total_nil

theorem total_softTlsImpersonate : softTlsImpersonate.Total :=
  Record.Total.codec <| .cons total_string <| .cons total_string <| .cons total_string <|
    .cons total_string Record.total_nil

theorem total_measurement : measurement.Total :=
  Record.Total.codec <| .cons total_string <| .cons total_string <| .cons total_string <|
    .cons total_string <| .cons total_string Record.total_nil

theorem total_attestation : attestation.Total :=
  Record.Total.codec <| .cons (total_text _) <| .cons (total_text _) <|
    .cons (total_measurement.optional fun _ => Tree.noConfusion) <| .cons (total_text _) Record.total_nil

theorem total_sdkSignature : sdkSignature.Total :=
  Record.Total.codec <| .cons (total_text _) <| .cons (total_text _) Record.total_nil

/-- All landmark times are finite. -/
def Egress.finite (e : Egress) : Bool := e.landmarkRtts.entries.all fun entry => isFinite entry.2

theorem egress_valid (ops : FloatOps) (e : Egress) : (egress ops).valid e = e.finite := by
  have hproxy : proxyClass.Total := fun _ => rfl
  have hpath : fetchPath.Total := fun _ => rfl
  rw [egress, Record.codec_valid, Record.valid_cons (total_text _), Record.valid_cons_total]
  · rfl
  · exact .cons (total_text _) <| .cons (total_text _) <|
      .cons (hproxy.optional fun _ => Tree.noConfusion) <|
      .cons (hpath.optional fun _ => Tree.noConfusion) <|
      .cons (total_softTlsImpersonate.optional fun _ => Tree.noConfusion) Record.total_nil

theorem scrapeProof_valid (ops : FloatOps) (proof : ScrapeProof) :
    (scrapeProof ops).valid proof = proof.egress.finite := by
  have hversion : u32.Total := fun _ => rfl
  have hid : (optional string string_ne_null).Total := total_string.optional string_ne_null
  rw [scrapeProof, Record.codec_valid, Record.valid_cons hversion, Record.valid_cons hid,
    Record.valid_cons hid, Record.valid_cons total_request, Record.valid_cons total_tls,
    Record.valid_cons total_response, Record.valid_cons total_resultBlock,
    Record.valid_cons_total]
  · exact egress_valid ops proof.egress
  · exact .cons total_attestation <| .cons total_sdkSignature Record.total_nil

/-- **Proofs are read back.**  What is written of a proof is read as that very proof; if a landmark
time is not finite nothing is read of it at all. -/
theorem scrapeProof_reads_back (ops : FloatOps) (proof : ScrapeProof) :
    (scrapeProof ops).decode ((scrapeProof ops).encode proof) =
      if proof.egress.finite then some proof else none := by
  rw [(scrapeProof ops).decode_encode, scrapeProof_valid]

/-! ## Signing -/

variable (floats : JsonPrint.FloatText) (ops : FloatOps)

/-- `to_canonical_json`. -/
def toCanonicalJson (proof : ScrapeProof) : String :=
  String.ofList (JsonPrint.print floats ((scrapeProof ops).encode proof))

/-- A proof without its signature. -/
def ScrapeProof.unsigned (proof : ScrapeProof) : ScrapeProof :=
  { proof with sdkSignature := { proof.sdkSignature with sig := none } }

/-- `to_canonical_signing_json`. -/
def toCanonicalSigningJson (proof : ScrapeProof) : String :=
  toCanonicalJson floats ops proof.unsigned

/-- No two trees are written alike. -/
theorem toCanonicalJson_eq_iff {floats : JsonPrint.FloatText} {ops : FloatOps} {p q : ScrapeProof} :
    toCanonicalJson floats ops p = toCanonicalJson floats ops q ↔
      (scrapeProof ops).encode p = (scrapeProof ops).encode q := by
  constructor
  · intro h
    exact JsonPrint.print_injective floats (String.ofList_injective h)
  · intro h
    rw [toCanonicalJson, toCanonicalJson, h]

end Basecrawl.Proof
