/-
  Names and targets of the seal crate: the pinned resolver in front of a dial, and the SOCKS5 server
  on loopback that Chromium and the composer dial through.

  1. **Resolution** — `resolveForConnect` decides literal, `localhost` or name; only a name is asked
     for.
  2. **The server** — `handleClient` up to its success reply.  `readConnect` is what it reads: one
     greeting and one request.  From the reply on it copies bytes in both directions.
  3. **What the server consumes** — `runs_readConnect_request`: the greeting and the request of any
     target, however they arrive; then `runs_handleClient` for the reply that follows.
-/
import Basecrawl.Lib.Authority
import Basecrawl.Lib.Connection
import Basecrawl.Seal.Identity

namespace Basecrawl.Seal

open Text Outcome Run Frames IpText Authority Connection

/-! ## Resolution -/

structure SocketAddr where
  ip : IpAddr
  port : Nat
deriving DecidableEq

/-- What is done to the network. -/
inductive Call where
  /-- `NameResolver::resolve_host`. -/
  | query (host : String) (port : Nat)
  /-- A TCP connection is opened. -/
  | dial (address : SocketAddr)
deriving DecidableEq

/-- The name resolver, and the dialer with the local address of the stream it opens. -/
structure Exit where
  resolveHost : String → Nat → Except SealError (List SocketAddr)
  dialOrigin : SocketAddr → Except SealError (Option SocketAddr)

/-- `is_loopback_name`. -/
def isLoopbackName (host : String) : Bool := eqIgnoreAsciiCase host "localhost"

/-- `Ipv4Addr::LOCALHOST`. -/
def localhost : IpAddr := .v4 [127, 0, 0, 1] rfl

/-- `Ipv4Addr::UNSPECIFIED` and port 0. -/
def unspecified : SocketAddr := ⟨.v4 [0, 0, 0, 0] rfl, 0⟩

/-- `resolve_for_connect`. -/
def resolveForConnect (exit : Exit) (host : String) (port : Nat) :
    Dialog Call SealError SocketAddr :=
  match parseIp host with
  | some ip => pure ⟨ip, port⟩
  | none =>
    if isLoopbackName host then pure ⟨localhost, port⟩
    else do
      call (.query host port)
      let addresses ← ofResult (exit.resolveHost host port)
      ofResult (okOr addresses.head? (.dns "pinned resolver returned an empty address list"))

/-- `document_host_needs_sealed_resolve`. -/
def documentHostNeedsSealedResolve (host : String) : Bool :=
  if (parseIp host).isSome then false else !isLoopbackName host

/-- `preflight_document_dns`. -/
def preflightDocumentDns (exit : Exit) (host : String) (port : Nat) :
    Dialog Call SealError SocketAddr := resolveForConnect exit host port

/-- Where a host is, and what is asked to find it. -/
def located (exit : Exit) (host : Host) (port : Nat) : List Call × Except SealError SocketAddr :=
  match host with
  | .ip ip => ([], .ok ⟨ip, port⟩)
  | .name text =>
    if isLoopbackName text then ([], .ok ⟨localhost, port⟩)
    else
      ([Call.query text port],
        (exit.resolveHost text port).bind fun addresses =>
          okOr addresses.head? (.dns "pinned resolver returned an empty address list"))

/-- Literals and `localhost` are not asked for. -/
theorem runs_resolveForConnect (exit : Exit) (text : String) (port : Nat) :
    Runs (resolveForConnect exit text port) [] [] (located exit (bareHost text) port).1
      (located exit (bareHost text) port).2 := by
  rw [resolveForConnect, bareHost]
  cases parseIp text with
  | some ip => exact runs_pure _
  | none =>
    simp only [located]
    by_cases hloopback : isLoopbackName text = true
    · rw [if_pos hloopback, if_pos hloopback]
      exact runs_pure _
    · rw [if_neg hloopback, if_neg hloopback]
      refine runs_call_bind (Call.query text port) ?_
      cases exit.resolveHost text port with
      | ok addresses => exact runs_ofResult_bind rfl (runs_ofResult _)
      | error e => exact (runs_throw e).bind_error

/-! ## The server

Every failure of `handle_client` is `Err(())`. -/

abbrev Session (α : Type) := Dialog Call Unit α

/-- An address with its type, as requests and replies carry it. -/
def socksAddress : Host → Bytes
  | .ip (.v4 octets _) => 0x01 :: octets
  | .ip (.v6 octets _) => 0x04 :: octets
  | .name text => 0x03 :: UInt8.ofNat (utf8 text).length :: utf8 text

/-- `write_socks_reply`. -/
def writeSocksReply (rep : UInt8) (bind : SocketAddr) : Session Unit :=
  send ([0x05, rep, 0x00] ++ socksAddress (.ip bind.ip) ++ beBytes 2 bind.port)

/-- A refusal: the reply, then the end. -/
def refuse {α : Type} (rep : UInt8) : Session α := do
  writeSocksReply rep unspecified
  throw ()

/-- A failure is a refusal. -/
def orRefuse {ε α : Type} (rep : UInt8) : Except ε α → Session α
  | .ok a => pure a
  | .error _ => refuse rep

/-- The greeting: any methods, and no authentication. -/
def readGreeting : Session Unit := do
  let header ← recv () 2
  if header.getD 0 0 ≠ 0x05 then throw ()
  else do
    let _methods ← recv () (header.getD 1 0).toNat
    send [0x05, 0x00]

def readPort : Session Nat := do
  let portBytes ← recv () 2
  pure (beNat portBytes)

/-- An address of a request of type `0x01` or `0x04`. -/
def readLiteral (ofOctets : Bytes → Option IpAddr) (length : Nat) : Session (Host × Nat) := do
  let octets ← recv () length
  let ip ← ofResult (okOr (ofOctets octets) ())
  let port ← readPort
  pure (.ip ip, port)

def ipv4Of (octets : Bytes) : Option IpAddr :=
  if h : octets.length = 4 then some (.v4 octets h) else none

def ipv6Of (octets : Bytes) : Option IpAddr :=
  if h : octets.length = 16 then some (.v6 octets h) else none

def readName : Session (Host × Nat) := do
  let length ← recv () 1
  let host ← recv () (length.getD 0 0).toNat
  let port ← readPort
  let host ← ofResult (okOr (fromUtf8 host) ())
  pure (.name host, port)

/-- The request: only CONNECT. -/
def readRequest : Session (Host × Nat) := do
  let header ← recv () 4
  if header.getD 0 0 ≠ 0x05 ∨ header.getD 1 0 ≠ 0x01 then refuse 0x07
  else if header.getD 3 0 = 0x01 then readLiteral ipv4Of 4
  else if header.getD 3 0 = 0x03 then readName
  else if header.getD 3 0 = 0x04 then readLiteral ipv6Of 16
  else refuse 0x08

/-- What the server reads. -/
def readConnect : Session (Host × Nat) := do
  readGreeting
  readRequest

/-- Where a target is: a literal as it is, a name through the resolver. -/
def targetAddress (exit : Exit) : Host × Nat → Session SocketAddr
  | (.ip ip, port) => pure ⟨ip, port⟩
  | (.name host, port) => do
    let found ← result (resolveForConnect exit host port)
    orRefuse 0x04 found

/-- `handle_client`, up to the copying of the tunnelled bytes. -/
def handleClient (exit : Exit) : Session Unit := do
  let target ← readConnect
  let address ← targetAddress exit target
  call (.dial address)
  let localAddr ← orRefuse 0x05 (exit.dialOrigin address)
  writeSocksReply 0x00 (localAddr.getD unspecified)

/-! ## What the server consumes -/

/-- A CONNECT request for a target. -/
def connectRequest (host : Host) (port : Nat) : Bytes :=
  [0x05, 0x01, 0x00] ++ socksAddress host ++ beBytes 2 port

/-- A host that a request can carry: a name is at most 255 bytes long. -/
def Carried : Host → Prop
  | .ip _ => True
  | .name text => (utf8 text).length < 256

theorem toNat_ofNat_length {bytes : Bytes} (h : bytes.length < 256) :
    (UInt8.ofNat bytes.length).toNat = bytes.length := UInt8.toNat_ofNat_of_lt h

/-- One greeting: the methods it announces, and no byte more. -/
theorem runs_readGreeting {methods : Bytes} (h : methods.length < 256) :
    Runs readGreeting (0x05 :: UInt8.ofNat methods.length :: methods) [0x05, 0x00] [] (.ok ()) := by
  have hmethods : Runs (do
      let _methods ← recv () (UInt8.ofNat methods.length).toNat
      send [0x05, 0x00] : Session Unit) (methods ++ []) [0x05, 0x00] [] (.ok ()) :=
    runs_recv_bind methods (toNat_ofNat_length h).symm (runs_send _)
  rw [List.append_nil] at hmethods
  exact runs_recv_bind [0x05, UInt8.ofNat methods.length] rfl hmethods

theorem runs_readPort {port : Nat} (h : port < 65536) :
    Runs readPort (beBytes 2 port) [] [] (.ok port) := by
  have hport : Runs readPort (beBytes 2 port ++ []) [] [] (.ok (beNat (beBytes 2 port))) :=
    runs_recv_bind _ (length_beBytes 2 port) (runs_pure _)
  rwa [List.append_nil, beNat_beBytes h] at hport

theorem runs_readLiteral {ofOctets : Bytes → Option IpAddr} {octets : Bytes} {ip : IpAddr}
    (hoctets : ofOctets octets = some ip) {port : Nat} (h : port < 65536) :
    Runs (readLiteral ofOctets octets.length) (octets ++ beBytes 2 port) [] []
      (.ok (.ip ip, port)) := by
  have hport := (runs_readPort h).bind (f := fun port => (pure (Host.ip ip, port) : Session (Host × Nat)))
    (runs_pure (Host.ip ip, port))
  rw [List.append_nil] at hport
  exact runs_recv_bind octets rfl (runs_ofResult_bind (by rw [hoctets, okOr_some]) hport)

theorem runs_readName {text : String} (htext : (utf8 text).length < 256) {port : Nat}
    (h : port < 65536) :
    Runs readName (UInt8.ofNat (utf8 text).length :: (utf8 text ++ beBytes 2 port)) [] []
      (.ok (.name text, port)) := by
  have hport := (runs_readPort h).bind
    (f := fun port => do
      let host ← ofResult (okOr (fromUtf8 (utf8 text)) ())
      (pure (Host.name host, port) : Session (Host × Nat)))
    (runs_ofResult_bind (by rw [fromUtf8_utf8, okOr_some]) (runs_pure (Host.name text, port)))
  rw [List.append_nil] at hport
  exact runs_recv_bind [UInt8.ofNat (utf8 text).length] rfl
    (runs_recv_bind (utf8 text) (toNat_ofNat_length htext).symm hport)

/-- **One request, for the target it names**, by the three forms of an address. -/
theorem runs_readRequest {host : Host} (hhost : Carried host) {port : Nat} (h : port < 65536) :
    Runs readRequest (connectRequest host port) [] [] (.ok (host, port)) := by
  cases host with
  | ip address =>
    cases address with
    | v4 octets hlength =>
      have hread := runs_readLiteral (show ipv4Of octets = some (.v4 octets hlength) from dif_pos hlength) h
      rw [hlength] at hread
      exact runs_recv_bind [0x05, 0x01, 0x00, 0x01] rfl hread
    | v6 octets hlength =>
      have hread := runs_readLiteral (show ipv6Of octets = some (.v6 octets hlength) from dif_pos hlength) h
      rw [hlength] at hread
      exact runs_recv_bind [0x05, 0x01, 0x00, 0x04] rfl hread
  | name text => exact runs_recv_bind [0x05, 0x01, 0x00, 0x03] rfl (runs_readName hhost h)

/-- A greeting and a request, and nothing else, is what the server reads. -/
theorem runs_readConnect {methods : Bytes} (hmethods : methods.length < 256) {host : Host}
    (hhost : Carried host) {port : Nat} (h : port < 65536) :
    Runs readConnect (0x05 :: UInt8.ofNat methods.length :: methods ++ connectRequest host port)
      [0x05, 0x00] [] (.ok (host, port)) := (runs_readGreeting hmethods).bind (runs_readRequest hhost h)

/-- While the server waits for the request, it has answered the greeting. -/
theorem starves_handleClient (exit : Exit) {methods : Bytes} (hmethods : methods.length < 256) :
    Starves (handleClient exit) (0x05 :: UInt8.ofNat methods.length :: methods) [0x05, 0x00] [] () := by
  have hrequest : Starves readRequest [] [] [] () := (starves_recv () (by decide)).bind
  have hconnect := (runs_readGreeting hmethods).starves_bind (f := fun _ => readRequest) hrequest
  rw [List.append_nil] at hconnect
  exact Starves.bind hconnect

theorem runs_targetAddress (exit : Exit) (text : String) {port : Nat} {address : SocketAddr}
    (h : (located exit (bareHost text) port).2 = .ok address) :
    Runs (targetAddress exit (bareHost text, port)) [] [] (located exit (bareHost text) port).1
      (.ok address) := by
  have hresolve := runs_resolveForConnect exit text port
  rw [h] at hresolve
  rw [bareHost] at hresolve h ⊢
  cases hparse : parseIp text with
  | some ip =>
    rw [hparse] at h
    cases h
    exact runs_pure _
  | none =>
    rw [hparse] at hresolve
    have hok := hresolve.result.bind (f := orRefuse 0x04) (runs_pure address)
    rw [List.append_nil, List.append_nil] at hok
    exact hok

/-- **The server's side of a tunnel**: the greeting and the request are consumed, the target is
located and dialled, and the method and the reply are written. -/
theorem runs_handleClient (exit : Exit) {methods : Bytes} (hmethods : methods.length < 256)
    (text : String) (hhost : Carried (bareHost text)) {port : Nat} (hport : port < 65536)
    {address : SocketAddr} {localAddr : Option SocketAddr}
    (hlocated : (located exit (bareHost text) port).2 = .ok address)
    (hdial : exit.dialOrigin address = .ok localAddr) :
    Runs (handleClient exit)
      (0x05 :: UInt8.ofNat methods.length :: methods ++ connectRequest (bareHost text) port)
      ([0x05, 0x00] ++ ([0x05, 0x00, 0x00] ++ socksAddress (.ip (localAddr.getD unspecified).ip) ++
        beBytes 2 (localAddr.getD unspecified).port))
      ((located exit (bareHost text) port).1 ++ [.dial address]) (.ok ()) := by
  have hreply : Runs (do
      let localAddr ← orRefuse 0x05 (exit.dialOrigin address)
      writeSocksReply 0x00 (localAddr.getD unspecified)) []
      ([0x05, 0x00, 0x00] ++ socksAddress (.ip (localAddr.getD unspecified).ip) ++
        beBytes 2 (localAddr.getD unspecified).port) [] (.ok ()) := by
    rw [hdial]
    exact (runs_pure localAddr).bind (runs_send _)
  have haddress := (runs_targetAddress exit text hlocated).seq
    (f := fun address => do
      call (Call.dial address)
      let localAddr ← orRefuse 0x05 (exit.dialOrigin address)
      writeSocksReply 0x00 (localAddr.getD unspecified))
    (runs_call_bind (Call.dial address) hreply) rfl rfl rfl
  exact (runs_readConnect hmethods hhost hport).seq haddress (List.append_nil _).symm rfl rfl

end Basecrawl.Seal
