/-
  The fetch: one HTTP(S) request, and the redirect loop around it.

  1. **One hop** — `buildHttpRequest` writes the request, `captureTlsMetadata` turns a handshake
     into evidence, `fetchHttp` and `fetchHttps` perform the exchange.
  2. **The loop** — `nextHop` is everything the loop decides about a response; `fetchLoop` runs it,
     asking the document policy before each transmission.

  What is outside the engine is the record `Network`: pacing, dialing, the TLS handshake and the
  exchange of a request for a reply are arbitrary programs on an arbitrary state.
-/
import Mathlib.Data.List.Sort
import Basecrawl.Lib.Outcome
import Basecrawl.Core.Canonical
import Basecrawl.Core.World

namespace Basecrawl.Core

open Text Hex Outcome Run

/-! ## Configuration -/

/-- `DEFAULT_USER_AGENT`. -/
def defaultUserAgent : String :=
  "Mozilla/5.0 (X11; Linux x86_64) AppleWebKit/537.36 (KHTML, like Gecko) " ++
    "Chrome/145.0.0.0 Safari/537.36"

/-- `MAX_REDIRECTS`. -/
def maxRedirects : Nat := 20

/-- `DEFAULT_MAX_BODY_BYTES`. -/
def defaultMaxBodyBytes : Nat := 10 * 1024 * 1024

/-- An upstream proxy: what the dialer is told about it, and its configured class. -/
structure ProxyConfig where
  endpoint : String
  username : Option String := none
  password : Option String := none
  proxyClass : Option ProxyClass := none
deriving DecidableEq

/-- Configuration for a single fetch; deadlines and pacing belong to the outside. -/
structure FetchConfig where
  headers : List (String × String) := [("user-agent", defaultUserAgent)]
  credentialOrigin : Option Url := none
  userAgent : String := defaultUserAgent
  insecure : Bool := false
  maxBodyBytes : Nat := defaultMaxBodyBytes
  tls13CipherNames : List String := []
  tlsGroupOrder : List String := []
  proxy : Option ProxyConfig := none
  method : String := "GET"
  body : Bytes := []

/-- What the fetch calls of other crates without touching the network. -/
structure FetchLib where
  url : UrlLib
  digests : Digests
  base64 : Bytes → String
  fromUtf8Lossy : Bytes → String
  isServerName : String → Bool

/-! ## The request -/

/-- `is_valid_http_method`: a token of letters, digits and the token punctuation. -/
def isTokenByte (b : UInt8) : Bool :=
  (0x30 ≤ b && b ≤ 0x39) || (0x41 ≤ b && b ≤ 0x5a) || (0x61 ≤ b && b ≤ 0x7a) ||
    (utf8 "!#$%&'*+-.^_\x60|~").contains b

def isValidHttpMethod (method : String) : Bool :=
  !(utf8 method).isEmpty && (utf8 method).all isTokenByte

/-- `validate_header_pair`. -/
def validateHeaderPair (name value : String) : Except Error Unit :=
  let validName := !(utf8 name).isEmpty && (utf8 name).all isTokenByte
  let validValue := (utf8 value).all fun byte => byte == 0x09 || (byte ≥ 0x20 && byte != 0x7f)
  require (validName && validValue) (.invalidHeader name)

/-- `caller_headers_for`: the caller's fields for the origin that supplied them, else none. -/
def FetchConfig.callerHeadersFor (config : FetchConfig) (target credentialOrigin : Url) :
    List (String × String) :=
  if sameOrigin target credentialOrigin then config.headers else []

/-- The first field that cannot be emitted fails the request. -/
def validateFields : List (String × String) → Except Error Unit
  | [] => .ok ()
  | (name, value) :: fields => do
      validateHeaderPair name value
      validateFields fields

/-- The controlled User-Agent is checked when it is about to be written. -/
def validateUserAgent (config : FetchConfig) (emitted : Bool) : Except Error Unit :=
  if emitted then .ok () else validateHeaderPair "user-agent" config.userAgent

/-- `build_http_request`. -/
def buildHttpRequest (url : Url) (host : String) (port : Nat) (config : FetchConfig)
    (credentialOrigin : Url) : Except Error HttpRequest := do
  let method := if trim config.method = "" then "GET" else trim config.method
  require (isValidHttpMethod method) (.unsupportedMethod method)
  let path := if url.path = "" then "/" else url.path
  let target := match url.query with
    | some query => path ++ "?" ++ query
    | none => path
  let hostHeader := if url.port.isNone then host else host ++ ":" ++ Nat.repr port
  let callerFields := config.callerHeadersFor url credentialOrigin
  validateFields callerFields
  let emittedUserAgent := callerFields.any fun field => eqIgnoreAsciiCase field.1 "user-agent"
  let emittedContentType := callerFields.any fun field => eqIgnoreAsciiCase field.1 "content-type"
  validateUserAgent config emittedUserAgent
  -- a POST announces its body even when it is empty
  let sendBody := !config.body.isEmpty || eqIgnoreAsciiCase method "POST"
  .ok
    { url := url
      method := method
      target := target
      hostHeader := hostHeader
      callerFields := callerFields
      userAgent := if emittedUserAgent then none else some config.userAgent
      contentType :=
        if sendBody && !emittedContentType && !config.body.isEmpty then
          some "application/octet-stream"
        else none
      contentLength := if sendBody then some config.body.length else none
      body := if sendBody then config.body else [] }

/-- The field lines in the order they are written. -/
def HttpRequest.fields (request : HttpRequest) : List (String × String) :=
  [("Host", request.hostHeader), ("Accept-Encoding", "gzip, deflate, br"), ("Connection", "close")] ++
    request.callerFields ++ (request.userAgent.map fun v => ("user-agent", v)).toList ++
    (request.contentType.map fun v => ("content-type", v)).toList ++
    (request.contentLength.map fun n => ("content-length", Nat.repr n)).toList

/-- The bytes on the wire. -/
def HttpRequest.toBytes (request : HttpRequest) : Bytes :=
  utf8 (request.method ++ " " ++ request.target ++ " HTTP/1.1\r\n") ++
    request.fields.flatMap (fun field => utf8 (field.1 ++ ": " ++ field.2 ++ "\r\n")) ++
    utf8 "\r\n" ++ request.body

/-! ## The connection -/

/-- The protocol version a handshake negotiated. -/
inductive TlsVersion where
  | tls13
  | tls12
  | other (name : String)
deriving DecidableEq

/-- The cipher suite a handshake negotiated. -/
inductive CipherSuite where
  | tls13Aes128GcmSha256
  | tls13Chacha20Poly1305Sha256
  | tls13Aes256GcmSha384
  | other (name : String)
deriving DecidableEq

/-- What a finished handshake and its verifier leave behind. -/
structure Handshake where
  version : Option TlsVersion
  peerCertificates : Option (List Bytes)
  serverKeyShare : Option Bytes
  transcriptHash : Option String
  cipherSuite : Option CipherSuite
  embeddedScts : List String
  ocsp : Option Bytes

/-- A reply, its head parsed and its body decoded and capped. -/
structure Reply where
  statusCode : Nat
  headers : List (String × Bytes)
  body : Bytes
  bodyTruncated : Bool

/-- What the engine does to the network. -/
structure Network (σ : Type) where
  /-- `OriginPacer::transmit`, before it runs the transmission. -/
  pace : Url → Outside σ Unit
  /-- `open_origin_stream`, with the local address of the stream. -/
  dial : Option ProxyConfig → String → Nat → Outside σ String
  /-- The handshake on a dialed stream. -/
  handshake : FetchConfig → String → Outside σ Handshake
  /-- Write a request to the stream and read the reply. -/
  exchange : HttpRequest → Outside σ Reply
  /-- `OffsetDateTime::now_utc`. -/
  nowUtc : σ → String

/-- The version of a handshake, as the evidence names it. -/
def negotiatedVersion (handshake : Handshake) : Except Error String :=
  match handshake.version with
  | some .tls13 => .ok "1.3"
  | some .tls12 => .ok "1.2"
  | some (.other name) =>
      .error (.tlsCapture ("TLS terminator negotiated an unsupported version " ++ name))
  | none => .error (.tlsCapture "TLS version was not negotiated")

/-- The hex width of a suite's transcript hash. -/
def transcriptWidth : CipherSuite → Except Error Nat
  | .tls13Aes128GcmSha256 | .tls13Chacha20Poly1305Sha256 => .ok 64
  | .tls13Aes256GcmSha384 => .ok 96
  | .other name =>
      .error (.tlsCapture
        ("TLS 1.3 cipher suite " ++ name ++ " has an unsupported transcript hash"))

/-- The server's key share, which a TLS 1.3 handshake must have. -/
def serverKeyShareFor (handshake : Handshake) (version : String) : Except Error (Option Bytes) :=
  if version = "1.3" then
    (okOr handshake.serverKeyShare
      (.tlsCapture "TLS 1.3 ServerHello did not include an ECDHE key share")).map some
  else .ok none

/-- The transcript digest, which a TLS 1.3 handshake must have, of the width its suite calls for. -/
def transcriptHashFor (handshake : Handshake) (version : String) :
    Except Error (Option String) :=
  if version = "1.3" then do
    let transcriptHash ← okOr handshake.transcriptHash
      (.tlsCapture "TLS 1.3 server CertificateVerify transcript digest was not captured")
    let suite ← okOr handshake.cipherSuite (.tlsCapture "TLS cipher suite was not negotiated")
    let expectedWidth ← transcriptWidth suite
    require ((utf8 transcriptHash).length == expectedWidth)
      (.tlsCapture ("TLS 1.3 CertificateVerify transcript digest width " ++
        Nat.repr (utf8 transcriptHash).length ++ " did not match negotiated cipher suite"))
    .ok (some transcriptHash)
  else .ok none

/-- `cert_chain_hash`. -/
def certChainHash (digests : Digests) (certificates : List Bytes) : String :=
  hexEncode (digests.sha256 certificates.flatten).toList

/-- `capture_tls_metadata`. -/
def captureTlsMetadata (lib : FetchLib) (handshake : Handshake) (host : String) (insecure : Bool) :
    Except Error Tls := do
  let version ← negotiatedVersion handshake
  -- TLS 1.2 is for diagnostics alone
  require (version == "1.3" || insecure) (.tlsVersionUnsupported version)
  let certificates ← okOr handshake.peerCertificates
    (.tlsCapture "server did not provide a certificate chain")
  require (!certificates.isEmpty) (.tlsCapture "server provided an empty certificate chain")
  let serverEphemeralPubkey ← serverKeyShareFor handshake version
  let transcriptHash ← transcriptHashFor handshake version
  .ok
    { certificateValidation := if insecure then .insecureDiagnostic else .validated
      negotiatedVersion := some version
      sni := some host
      serverCertChainDer := certificates.map lib.base64
      certChainHash := some (certChainHash lib.digests certificates)
      serverEphemeralPubkey := serverEphemeralPubkey.map lib.base64
      ctScts := handshake.embeddedScts
      ocsp := (handshake.ocsp.filter (!·.isEmpty)).map lib.base64
      handshakeTranscriptHash := transcriptHash }

/-! ## One hop -/

/-- The normalized response from a single non-following request. -/
structure SingleResponse where
  statusCode : Nat
  headersHash : String
  contentType : Option String
  location : Option String
  body : Bytes
  bodyTruncated : Bool
  tls : Option Tls
  egressIp : Option String
deriving DecidableEq

/-- `header_value`. -/
def headerValue (headers : List (String × Bytes)) (name : String) : Option String :=
  (headers.find? fun field => eqIgnoreAsciiCase field.1 name).bind fun field => fromUtf8 field.2

/-- `sha256_hex`. -/
def sha256Hex (digests : Digests) (bytes : Bytes) : String :=
  hexEncode (digests.sha256 bytes).toList

/-- `hash_header_lines`. -/
def hashHeaderLines (lib : FetchLib) (headers : List (String × Bytes)) : String :=
  let lines := headers.map fun field => field.1 ++ ": " ++ lib.fromUtf8Lossy field.2
  sha256Hex lib.digests (utf8 (String.intercalate "\n" (lines.insertionSort (· ≤ ·))))

/-- The response a reply makes, with the evidence of the connection it came over. -/
def singleResponse (lib : FetchLib) (reply : Reply) (tls : Option Tls) (egressIp : String) :
    SingleResponse where
  statusCode := reply.statusCode
  headersHash := hashHeaderLines lib reply.headers
  contentType := headerValue reply.headers "content-type"
  location := headerValue reply.headers "location"
  body := reply.body
  bodyTruncated := reply.bodyTruncated
  tls := tls
  egressIp := some egressIp

/-- The log entry of a response. -/
def SingleResponse.servedBy (response : SingleResponse) (url : Url) : Served where
  url := url
  statusCode := response.statusCode
  headersHash := response.headersHash
  body := response.body
  tls := response.tls

variable {σ : Type}

/-- Write the request and read the response, on a connection with or without evidence. -/
def exchangeOn (lib : FetchLib) (net : Network σ) (url : Url) (host : String) (port : Nat)
    (config : FetchConfig) (credentialOrigin : Url) (tls : Option Tls) (egressIp : String) :
    Prog σ SingleResponse := do
  let request ← ofResult (buildHttpRequest url host port config credentialOrigin)
  note (.transmit request)
  let reply ← outside (net.exchange request)
  let response := singleResponse lib reply tls egressIp
  note (.served (response.servedBy url))
  pure response

/-- `fetch_http`. -/
def fetchHttp (lib : FetchLib) (net : Network σ) (url : Url) (config : FetchConfig)
    (credentialOrigin : Url) : Prog σ SingleResponse := do
  let host ← ofResult (okOr url.host (.invalidUrl url.toString))
  let port := url.portOrKnownDefault.getD 80
  let egressIp ← outside (net.dial config.proxy host port)
  exchangeOn lib net url host port config credentialOrigin none egressIp

/-- `fetch_https`. -/
def fetchHttps (lib : FetchLib) (net : Network σ) (url : Url) (config : FetchConfig)
    (credentialOrigin : Url) : Prog σ SingleResponse := do
  let host ← ofResult (okOr url.host (.invalidUrl url.toString))
  let port := url.portOrKnownDefault.getD 443
  ofResult (require (lib.isServerName host) (.invalidUrl url.toString))
  let egressIp ← outside (net.dial config.proxy host port)
  let handshake ← outside (net.handshake config host)
  let tls ← ofResult (captureTlsMetadata lib handshake host config.insecure)
  exchangeOn lib net url host port config credentialOrigin (some tls) egressIp

/-- One transmission of the loop, paced, by the scheme of its target. -/
def transmitHop (lib : FetchLib) (net : Network σ) (url : Url) (config : FetchConfig)
    (credentialOrigin : Url) : Prog σ SingleResponse :=
  match url.scheme with
  | "http" => do
      outside (net.pace url)
      fetchHttp lib net url config credentialOrigin
  | "https" => do
      outside (net.pace url)
      fetchHttps lib net url config credentialOrigin
  | scheme => throw (.unsupportedScheme scheme)

/-! ## The redirect loop -/

/-- Outcome of a fetch. -/
structure Fetched where
  statusCode : Nat
  headersHash : String
  bodyHash : String
  contentLength : Nat
  body : Bytes
  contentType : Option String
  bodyTruncated : Bool
  finalUrl : String
  redirects : List RedirectHop
  tls : Tls
  egressIp : String
  fetchedAt : String
deriving DecidableEq

/-- The variables of the loop. -/
structure HopState where
  current : Url
  redirects : List RedirectHop
  tls : Tls
  egressIp : Option String
  hopConfig : FetchConfig

/-- Before the first hop. -/
def HopState.start (url : Url) (config : FetchConfig) : HopState where
  current := url
  redirects := []
  tls := .default
  egressIp := none
  hopConfig := config

/-- Evidence and address of a response replace the ones held so far. -/
def HopState.absorb (st : HopState) (response : SingleResponse) : HopState :=
  { st with
    tls := response.tls.getD st.tls
    egressIp := response.egressIp.or st.egressIp }

/-- The configuration of the hop after a redirect with this status: no body, and GET after a
    301, 302 or 303. -/
def FetchConfig.afterRedirect (config : FetchConfig) (statusCode : Nat) : FetchConfig :=
  if 301 ≤ statusCode ∧ statusCode ≤ 303 then { config with method := "GET", body := [] }
  else { config with body := [] }

/-- What the loop decides about a response: fail, follow the redirect, or (`none`) stop here. -/
def nextHop (lib : FetchLib) (url : Url) (st : HopState) (response : SingleResponse) :
    Except Error (Option HopState) :=
  if 300 ≤ response.statusCode ∧ response.statusCode < 400 then
    match response.location with
    -- a redirect without a location is a response like any other
    | none => .ok none
    | some location =>
        -- the cap is met before the location is resolved
        if st.redirects.length ≥ maxRedirects then
          .error (.tooManyRedirects maxRedirects url.toString)
        else
          match lib.url.join st.current location with
          | none =>
              .error (.redirect "could not resolve redirect Location against the current URL")
          | some target =>
              .ok (some
                { (st.absorb response) with
                  current := target
                  redirects := st.redirects ++
                    [{ statusCode := response.statusCode
                       url := st.current.toString
                       location := target.toString }]
                  hopConfig := st.hopConfig.afterRedirect response.statusCode })
  else .ok none

/-- The outcome the terminal response makes. -/
def HopState.finish (lib : FetchLib) (st : HopState) (response : SingleResponse)
    (fetchedAt : String) : Fetched where
  statusCode := response.statusCode
  headersHash := response.headersHash
  bodyHash := sha256Hex lib.digests response.body
  contentLength := response.body.length
  body := response.body
  contentType := response.contentType
  bodyTruncated := response.bodyTruncated
  finalUrl := st.current.toString
  redirects := st.redirects
  tls := (st.absorb response).tls
  egressIp := (st.absorb response).egressIp.getD "0.0.0.0"
  fetchedAt := fetchedAt

/-- The loop.  The fuel is the number of transmissions left under the redirect cap, so the cap is
    met before the fuel is gone (`fetchLoop_fuel`). -/
def fetchLoop (lib : FetchLib) (net : Network σ) (checkDocument : Url → Prog σ Unit) (url : Url)
    (credentialOrigin : Url) : Nat → HopState → Prog σ Fetched
  | 0, _ => throw (.tooManyRedirects maxRedirects url.toString)
  | fuel + 1, st => do
      checkDocument st.current
      note (.approved st.current)
      let response ← transmitHop lib net st.current st.hopConfig credentialOrigin
      match ← ofResult (nextHop lib url st response) with
      | some st' => fetchLoop lib net checkDocument url credentialOrigin fuel st'
      | none => do
          let fetchedAt ← observe net.nowUtc
          pure (st.finish lib response fetchedAt)

/-- `fetch_with_document_policy_until`, `fetch_document_until`. -/
def fetchDocumentUntil (lib : FetchLib) (net : Network σ) (url : Url) (config : FetchConfig)
    (checkDocument : Url → Prog σ Unit) : Prog σ Fetched :=
  fetchLoop lib net checkDocument url (config.credentialOrigin.getD url) (maxRedirects + 1)
    (.start url config)

/-- `fetch_until`: no document policy. -/
def fetchUntil (lib : FetchLib) (net : Network σ) (url : Url) (config : FetchConfig) :
    Prog σ Fetched :=
  fetchDocumentUntil lib net url config fun _ => pure ()

end Basecrawl.Core
