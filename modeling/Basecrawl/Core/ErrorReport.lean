/-
  How an error is reported: its kind, its text and its host-visible document.

  The document names the kind; what else it carries is redacted, and a parameter here.
-/
import Basecrawl.Core.World

namespace Basecrawl.Core

/-- The machine-readable discriminant of an error. -/
def Error.kind : Error → String
  | .missingUrl => "missing_url"
  | .invalidUrl _ => "invalid_url"
  | .unsupportedScheme _ => "unsupported_scheme"
  | .unknownFormat _ _ => "invalid_format"
  | .unsupportedOutput _ => "unsupported_output"
  | .structuredExtractionUnsupported _ => "structured_extraction_unsupported"
  | .invalidJsonSchema _ => "invalid_json_schema"
  | .invalidHeader _ => "invalid_header"
  | .unsupportedMethod _ => "unsupported_method"
  | .postNotSupportedOnHardPath => "post_not_supported_on_hard_path"
  | .invalidProductOption _ => "invalid_product_option"
  | .invalidViewport _ => "invalid_viewport"
  | .invalidActions _ => "invalid_actions"
  | .invalidProxy _ => "invalid_proxy"
  | .proxyClassUnavailable _ _ => "proxy_class_unavailable"
  | .proxyConnect _ kind _ =>
      if kind = "proxy_auth_error" ∨ kind = "credential_error" then "proxy_auth_error"
      else "transport_error"
  | .residentialConcurrency _ => "residential_concurrency"
  | .hardPath _ => "hard_path_policy"
  | .tlsImpersonate _ => "tls_impersonate_unsupported"
  | .challengeBlocked _ _ => "challenge_blocked"
  | .solver kind _ _ =>
      if kind ∈ ["solver_auth_error", "solver_timeout", "solver_unsupported",
        "solver_transport_error", "solver_apply_pending", "solver_apply_failed"] then kind
      else "solver_error"
  | .robotsDenied _ => "robots_denied"
  | .timeout _ => "timeout"
  | .transport _ => "transport_error"
  | .certificateValidation _ => "certificate_validation"
  | .tlsCapture _ => "tls_capture_error"
  | .tlsVersionUnsupported _ => "tls_version_unsupported"
  | .tooManyRedirects _ _ => "too_many_redirects"
  | .redirect _ => "redirect_error"
  | .fetch _ => "fetch_error"
  | .render _ => "render_error"
  | .dnsIsolation _ => "dns_isolation"
  | .resourceBudgetExceeded => "resource_budget_exceeded"
  | .documentExtraction _ => "document_extraction"
  | .egressMetadata _ => "egress_metadata_error"
  | .attestation _ => "attestation_error"
  | .enclaveSignature _ => "enclave_signature_error"
  | .io _ => "io_error"

def ExtractRefuseReason.asStr : ExtractRefuseReason → String
  | .providerNotConfigured => "provider_not_configured"
  | .extractorNotAvailable => "extractor_not_available"
  | .providerCallFailed => "provider_call_failed"

/-- `to_string`: the text of an error, for the enclave's own eyes. -/
def Error.display : Error → String
  | .missingUrl => "no URL provided"
  | .invalidUrl _ => "invalid URL"
  | .unsupportedScheme scheme =>
      "unsupported URL scheme '" ++ scheme ++ "' (only http and https are allowed)"
  | .unknownFormat invalid supported =>
      "unknown format '" ++ invalid ++ "' (supported: " ++ supported ++ ")"
  | .unsupportedOutput output =>
      "unsupported output format '" ++ output ++ "' (only 'json' is supported)"
  | .structuredExtractionUnsupported reason =>
      "structured extraction for the 'json' format is unavailable (" ++ reason.asStr ++ ")"
  | .invalidJsonSchema detail => "invalid json schema: " ++ detail
  | .invalidHeader name => "invalid request header '" ++ name ++ "' (expected 'Name: Value')"
  | .unsupportedMethod method => "unsupported HTTP method '" ++ method ++ "'"
  | .postNotSupportedOnHardPath =>
      "POST is not supported on the hard Chromium path in this build"
  | .invalidProductOption detail => "invalid crawl/map/batch option: " ++ detail
  | .invalidViewport viewport =>
      "invalid viewport '" ++ viewport ++ "' (expected WIDTHxHEIGHT, e.g. 1280x800)"
  | .invalidActions detail => "invalid actions specification: " ++ detail
  | .invalidProxy detail => "invalid proxy configuration: " ++ detail
  | .proxyClassUnavailable required detail =>
      "required proxy class '" ++ required ++ "' unavailable: " ++ detail
  | .proxyConnect _ kind detail => "proxy CONNECT rejected (" ++ kind ++ "): " ++ detail
  | .residentialConcurrency detail =>
      "residential dial concurrency limit exceeded: " ++ detail
  | .hardPath detail => "hard path policy error: " ++ detail
  | .tlsImpersonate detail => "tls impersonate error: " ++ detail
  | .challengeBlocked statusCode detail =>
      "blocked by bot challenge (HTTP " ++ toString statusCode ++ "): " ++ detail
  | .solver kind detail _ => "captcha solver error (" ++ kind ++ "): " ++ detail
  | .robotsDenied _ => "robots policy denied the requested path"
  | .timeout detail => "request timed out: " ++ detail
  | .transport detail => "transport error: " ++ detail
  | .certificateValidation detail => "certificate validation failed: " ++ detail
  | .tlsCapture detail => "TLS capture failed: " ++ detail
  | .tlsVersionUnsupported negotiatedVersion =>
      "negotiated TLS version " ++ negotiatedVersion ++
        " cannot produce an authenticity-capable proof; TLS 1.3 is required"
  | .tooManyRedirects max _ =>
      "too many redirects: exceeded the maximum of " ++ toString max ++ " hop(s)"
  | .redirect detail => "invalid redirect: " ++ detail
  | .fetch detail => "fetch failed: " ++ detail
  | .render detail => "html render failed: " ++ detail
  | .dnsIsolation detail => "sealed browser DNS isolation failed: " ++ detail
  | .resourceBudgetExceeded =>
      "the scrape-owned browser request or byte budget was exhausted"
  | .documentExtraction detail => "document extraction failed: " ++ detail
  | .egressMetadata detail => "could not produce egress metadata: " ++ detail
  | .attestation detail => "TDX attestation failed: " ++ detail
  | .enclaveSignature detail => "enclave signature failed: " ++ detail
  | .io detail => "failed to write output file: " ++ detail

/-- The other members of an error document: the message, the task reference and what the error
    carries, redacted. -/
abbrev ErrorMembers := Error → List (String × Json.Tree)

def Error.toJson (members : ErrorMembers) (e : Error) : Json.Tree :=
  .object [("error", .object (Json.insertMember "kind" (.string e.kind) (members e)))]

/-- The document of an error names its kind. -/
theorem Error.kind_of_toJson {members : ErrorMembers} {e : Error} {kind : String}
    {rest : List (String × Json.Tree)}
    (h : e.toJson members = .object [("error", .object (("kind", .string kind) :: rest))]) :
    e.kind = kind := by
  simp only [Error.toJson, Json.Tree.object.injEq, List.cons.injEq, Prod.mk.injEq, true_and,
    and_true] at h
  have hkind := Json.lookup_insertMember "kind" (.string e.kind) (members e)
  rw [h, List.lookup_cons_self] at hkind
  simpa using hkind.symm

end Basecrawl.Core
