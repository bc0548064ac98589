/-
  The `ScrapeProof` wire types, as far as the engine computes them.

  Left out are the blocks no modelled function reads: the completeness manifest, the landmark
  round-trip times, the render resource counters.
-/
import Basecrawl.Lib.Json

namespace Basecrawl.Core

/-- Whether the certificate chain was verified before the TLS evidence was recorded. -/
inductive CertificateValidation where
  | notApplicable
  | validated
  | insecureDiagnostic
deriving DecidableEq

/-- In-process TLS termination capture; the default is a connection without TLS. -/
structure Tls where
  certificateValidation : CertificateValidation := .notApplicable
  negotiatedVersion : Option String := none
  sni : Option String := none
  serverCertChainDer : List String := []
  certChainHash : Option String := none
  serverEphemeralPubkey : Option String := none
  ctScts : List String := []
  ocsp : Option String := none
  handshakeTranscriptHash : Option String := none
deriving DecidableEq

/-- `Tls::default()`. -/
def Tls.default : Tls := {}

/-- One hop in a followed redirect chain. -/
structure RedirectHop where
  statusCode : Nat
  url : String
  location : String
deriving DecidableEq

/-- The request block. -/
structure Request where
  method : String
  url : String
  headersHash : Option String
  bodyHash : Option String
  requestHash : Option String
  formats : List String

/-- The response block. -/
structure Response where
  statusCode : Option Nat := none
  headersHash : Option String := none
  bodyHash : Option String := none
  contentLength : Option Nat := none
  contentType : Option String := none
  bodyTruncated : Bool := false
  bodyMaxBytes : Option Nat := none
  finalUrl : Option String := none
  redirectChain : List RedirectHop := []

/-- The result block; the produced formats are in key order. -/
structure ResultBlock where
  formatsProduced : List (String × Json.Tree) := []
  resultHash : Option String := none
  manifestSha256 : Option String := none
  crawledUrls : List String := []

/-- Egress proxy class of the dial path. -/
inductive ProxyClass where
  | direct
  | datacenter
  | residential
  | mobile
deriving DecidableEq

/-- Which public client identity produced the scrape. -/
inductive FetchPath where
  | direct
  | chromium
deriving DecidableEq

/-- Soft-path TLS impersonation audit fields. -/
structure SoftTlsImpersonateEgress where
  profile : String
  jaLabel : String
  softJa3 : String
  softJa4 : String

/-- The egress block. -/
structure Egress where
  egressIp : Option String := none
  timestamp : Option String := none
  fingerprintSeed : Option String := none
  proxyClass : Option ProxyClass := none
  fetchPath : Option FetchPath := none
  softTlsImpersonate : Option SoftTlsImpersonateEgress := none

/-- The attestation block. -/
structure Attestation where
  teeType : Option String := none
  quote : Option String := none
  measurement : Option String := none
  reportData : Option String := none

/-- The signature block. -/
structure SdkSignature where
  enclavePubkey : Option String := none
  sig : Option String := none

/-- The canonical envelope emitted for a single scrape. -/
structure ScrapeProof where
  taskId : Option String
  nonce : Option String
  request : Request
  tls : Tls
  response : Response
  result : ResultBlock
  egress : Egress
  attestation : Attestation := {}
  sdkSignature : SdkSignature := {}

end Basecrawl.Core
