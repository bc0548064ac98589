/-
  A tunnel to the origin through an upstream proxy.

  1. **HTTP** — `httpConnect` asks for the tunnel with a CONNECT request, whose authority is the host
     as the caller wrote it, a colon and the port.
  2. **SOCKS5** — `socks5Connect` offers its methods, asks for the target and drains the reply, so
     that the stream stands at the first tunnelled byte.
  3. **Both ends** — `socks5_agrees`: what the client sends is one greeting and one request to the
     server of the seal crate, and the server's reply is what the client drains.
  4. **Which origin is named** — `namesOrigin_iff`, for both callers and both kinds of proxy.
-/
import Basecrawl.Lib.Base64Url
import Basecrawl.Core.Fetch
import Basecrawl.Seal.BrowserDns

namespace Basecrawl.Core

open Text Outcome Run Frames IpText Numerals Authority Connection Seal

/-- `ProxyKind`. -/
inductive ProxyKind where
  | http
  | https
  | socks5
deriving DecidableEq

abbrev Tunnel (α : Type) := Dialog Call Error α

/-- `ProxyConfig::has_credentials`. -/
def ProxyConfig.hasCredentials (proxy : ProxyConfig) : Bool :=
  proxy.username.isSome || proxy.password.isSome

/-! ## HTTP CONNECT -/

/-- `basic_proxy_authorization`. -/
def basicProxyAuthorization (proxy : ProxyConfig) : Option String :=
  if proxy.hasCredentials then
    some ("Basic " ++ Base64Url.encodeStandard
      (utf8 (proxy.username.getD "" ++ ":" ++ proxy.password.getD "")))
  else none

/-- The request of `http_connect`. -/
def httpConnectRequest (proxy : ProxyConfig) (targetHost : String) (targetPort : Nat) : String :=
  let authority := targetHost ++ ":" ++ Nat.repr targetPort
  let req := "CONNECT " ++ authority ++ " HTTP/1.1\r\nHost: " ++ authority ++
    "\r\nProxy-Connection: Keep-Alive\r\n"
  let req := match basicProxyAuthorization proxy with
    | some auth => req ++ "Proxy-Authorization: " ++ auth ++ "\r\n"
    | none => req
  req ++ "\r\n"

/-- `read_http_head`, with so many bytes left before the limit. -/
def readHttpHead : Nat → Bytes → Tunnel Bytes
  | room, buf => do
    let byte ← recv (.transport "proxy closed the connection during CONNECT") 1
    let buf := buf ++ byte
    if (utf8 "\r\n\r\n").isSuffixOf buf then pure buf
    else
      match room with
      | 0 => throw (.transport "proxy CONNECT response headers exceeded limit")
      | room + 1 => readHttpHead room buf

/-- `parse_status_code`. -/
def parseStatusCode (response : Bytes) : Option Nat := do
  let text ← fromUtf8 response
  let line ← (lines text).head?
  let parts := splitWhitespace line
  let code ← parts[1]?
  parseUnsigned 65536 code

/-- `classify_connect_status`. -/
def classifyConnectStatus (status : Nat) : Error :=
  if status = 407 ∨ status = 401 then
    .proxyConnect (some status) "proxy_auth_error"
      ("proxy authentication required or rejected (CONNECT " ++ Nat.repr status ++
        "); not an origin challenge")
  else if status = 403 then
    .proxyConnect (some status) "proxy_acl_error"
      ("proxy CONNECT refused destination or product ACL (CONNECT 403); dial/product residual, " ++
        "not Cloudflare/origin challenge classification")
  else
    .proxyConnect (some status) "proxy_connect_error"
      ("proxy CONNECT failed with HTTP status " ++ Nat.repr status)

/-- `http_connect`. -/
def httpConnect (proxy : ProxyConfig) (targetHost : String) (targetPort : Nat) : Tunnel Unit := do
  send (utf8 (httpConnectRequest proxy targetHost targetPort))
  let response ← readHttpHead (16 * 1024) []
  let status ← ofResult (okOr (parseStatusCode response)
    (.transport "proxy CONNECT returned an unreadable status line"))
  ofResult (require (status == 200) (classifyConnectStatus status))

/-! ## SOCKS5 -/

/-- `read_exact_deadline`, before the deadline. -/
def readExactDeadline (n : Nat) : Tunnel Bytes :=
  recv (.transport "proxy closed the connection unexpectedly") n

/-- `socks5_userpass_auth`. -/
def socks5UserpassAuth (proxy : ProxyConfig) : Tunnel Unit := do
  let user := utf8 (proxy.username.getD "")
  let pass := utf8 (proxy.password.getD "")
  ofResult (require (decide (user.length ≤ 255 ∧ pass.length ≤ 255))
    (.transport "SOCKS5 username/password exceeds 255 bytes"))
  send ([0x01, UInt8.ofNat user.length] ++ user ++ [UInt8.ofNat pass.length] ++ pass)
  let status ← readExactDeadline 2
  ofResult (require (status == [0x01, 0x00])
    (.proxyConnect none "proxy_auth_error"
      "SOCKS5 username/password authentication failed (not an origin challenge)"))

/-- The greeting: no authentication, and with credentials also user name and password. -/
def socks5Greeting (proxy : ProxyConfig) : Bytes :=
  if proxy.hasCredentials then [0x05, 0x02, 0x00, 0x02] else [0x05, 0x01, 0x00]

/-- What the selected method calls for. -/
def socks5Method (proxy : ProxyConfig) (method : UInt8) : Tunnel Unit :=
  if method = 0x00 then pure ()
  else if method = 0x02 then socks5UserpassAuth proxy
  else if method = 0xff then
    throw (.transport "SOCKS5 proxy rejected all offered authentication methods")
  else
    throw (.transport ("SOCKS5 proxy selected unsupported auth method " ++ Nat.repr method.toNat))

/-- The request: an address literal by its bytes, anything else as a name. -/
def socks5Request (targetHost : String) (targetPort : Nat) : Except Error Bytes := do
  let hostBytes := utf8 targetHost
  require (decide (hostBytes.length ≤ 255)) (.transport "SOCKS5 target hostname exceeds 255 bytes")
  let address := match parseIp targetHost with
    | some (.v4 octets _) => 0x01 :: octets
    | some (.v6 octets _) => 0x04 :: octets
    | none => 0x03 :: UInt8.ofNat hostBytes.length :: hostBytes
  .ok ([0x05, 0x01, 0x00] ++ address ++ beBytes 2 targetPort)

/-- A reply other than success. -/
def socks5ReplyError (rep : UInt8) : Error :=
  if rep = 0x02 then
    .proxyConnect none "proxy_acl_error"
      "SOCKS5 connection not allowed by ruleset (proxy ACL residual; not an origin challenge)"
  else
    .proxyConnect none "proxy_connect_error"
      (match rep.toNat with
        | 0x01 => "general SOCKS server failure"
        | 0x03 => "network unreachable"
        | 0x04 => "host unreachable"
        | 0x05 => "connection refused"
        | 0x06 => "TTL expired"
        | 0x07 => "command not supported"
        | 0x08 => "address type not supported"
        | _ => "SOCKS5 CONNECT failed")

/-- Drain the bound address of a reply. -/
def socks5Drain (atyp : UInt8) : Tunnel Unit :=
  if atyp = 0x01 then do
    let _skip ← readExactDeadline (4 + 2)
    pure ()
  else if atyp = 0x03 then do
    let len ← readExactDeadline 1
    let _skip ← readExactDeadline ((len.getD 0 0).toNat + 2)
    pure ()
  else if atyp = 0x04 then do
    let _skip ← readExactDeadline (16 + 2)
    pure ()
  else throw (.transport ("SOCKS5 reply used unsupported address type " ++ Nat.repr atyp.toNat))

/-- The reply, bound address included. -/
def socks5Reply : Tunnel Unit := do
  let head ← readExactDeadline 4
  ofResult (require (head.getD 0 0 == 0x05)
    (.transport "SOCKS5 reply returned unexpected version"))
  ofResult (require (head.getD 1 0 == 0x00) (socks5ReplyError (head.getD 1 0)))
  socks5Drain (head.getD 3 0)

/-- `socks5_connect`. -/
def socks5Connect (proxy : ProxyConfig) (targetHost : String) (targetPort : Nat) :
    Tunnel Unit := do
  send (socks5Greeting proxy)
  let method ← readExactDeadline 2
  ofResult (require (method.getD 0 0 == 0x05)
    (.transport "SOCKS5 greeting returned unexpected version"))
  socks5Method proxy (method.getD 1 0)
  let req ← ofResult (socks5Request targetHost targetPort)
  send req
  socks5Reply

/-- `ProxyConfig::connect_to_target`, on the stream to the proxy. -/
def connectToTarget (kind : ProxyKind) (proxy : ProxyConfig) (targetHost : String)
    (targetPort : Nat) : Tunnel Unit :=
  match kind with
  | .http | .https => httpConnect proxy targetHost targetPort
  | .socks5 => socks5Connect proxy targetHost targetPort

/-! ## Both ends of SOCKS5 -/

/-- Why a read fails at the end of the stream. -/
def closedUnexpectedly : Error := .transport "proxy closed the connection unexpectedly"

/-- The methods that are offered. -/
def ProxyConfig.methods (proxy : ProxyConfig) : Bytes :=
  if proxy.hasCredentials then [0x00, 0x02] else [0x00]

theorem socks5Greeting_eq (proxy : ProxyConfig) :
    socks5Greeting proxy = 0x05 :: UInt8.ofNat proxy.methods.length :: proxy.methods := by
  rw [socks5Greeting, ProxyConfig.methods]
  split <;> rfl

theorem length_methods (proxy : ProxyConfig) : proxy.methods.length < 256 := by
  rw [ProxyConfig.methods]
  split <;> decide

theorem carried_bareHost {text : String} (h : parseIp text = none → (utf8 text).length ≤ 255) :
    Carried (bareHost text) ∧ (utf8 text).length ≤ 255 := by
  rw [bareHost]
  cases hparse : parseIp text with
  | some ip => exact ⟨trivial, Nat.le_trans (length_parseIp hparse) (by decide)⟩
  | none => exact ⟨Nat.lt_succ_of_le (h hparse), h hparse⟩

/-- The request names the host that the text is. -/
theorem socks5Request_eq {text : String} (h : (utf8 text).length ≤ 255) (port : Nat) :
    socks5Request text port = .ok (connectRequest (bareHost text) port) := by
  rw [socks5Request]
  simp only [decide_eq_true h, require_true, ok_bind, connectRequest, bareHost]
  cases parseIp text with
  | none => rfl
  | some ip =>
    cases ip with
    | v4 octets hlength => rfl
    | v6 octets hlength => rfl

theorem runs_skip {n : Nat} {bytes : Bytes} (h : bytes.length = n) :
    Runs (do
      let _skip ← readExactDeadline n
      pure () : Tunnel Unit) bytes [] [] (.ok ()) :=
  (runs_recv _ h).seq (runs_pure ()) (List.append_nil _).symm rfl rfl

/-- **The reply is drained to its last byte**, whatever address is bound. -/
theorem runs_socks5Reply (bind : SocketAddr) :
    Runs socks5Reply ([0x05, 0x00, 0x00] ++ socksAddress (.ip bind.ip) ++ beBytes 2 bind.port) [] []
      (.ok ()) := by
  obtain ⟨ip, port⟩ := bind
  cases ip with
  | v4 octets hlength =>
    have hskip : Runs (socks5Drain 0x01) (octets ++ beBytes 2 port) [] [] (.ok ()) :=
      runs_skip (by rw [List.length_append, hlength, length_beBytes])
    exact runs_recv_bind [0x05, 0x00, 0x00, 0x01] rfl
      (runs_ofResult_bind rfl (runs_ofResult_bind rfl hskip))
  | v6 octets hlength =>
    have hskip : Runs (socks5Drain 0x04) (octets ++ beBytes 2 port) [] [] (.ok ()) :=
      runs_skip (by rw [List.length_append, hlength, length_beBytes])
    exact runs_recv_bind [0x05, 0x00, 0x00, 0x04] rfl
      (runs_ofResult_bind rfl (runs_ofResult_bind rfl hskip))

section Client

variable (proxy : ProxyConfig) {text : String} (hlen : (utf8 text).length ≤ 255) (port : Nat)

/-- Without an answer the client has sent its greeting. -/
theorem starves_greeting (text : String) :
    Starves (socks5Connect proxy text port) [] (socks5Greeting proxy) [] closedUnexpectedly := by
  have hwait : Starves (socks5Connect proxy text port) [] (socks5Greeting proxy ++ []) []
      closedUnexpectedly := starves_send_bind _ (starves_recv _ (by decide)).bind
  rwa [List.append_nil] at hwait

include hlen

/-- With the method selected it has sent its request. -/
theorem starves_request :
    Starves (socks5Connect proxy text port) [0x05, 0x00]
      (socks5Greeting proxy ++ connectRequest (bareHost text) port) [] closedUnexpectedly := by
  have hreply : Starves socks5Reply [] [] [] closedUnexpectedly :=
    (starves_recv _ (by decide)).bind
  have hrequest : Starves (do
      let req ← ofResult (socks5Request text port)
      send req
      socks5Reply) [] (connectRequest (bareHost text) port ++ []) [] closedUnexpectedly := by
    rw [socks5Request_eq hlen]
    exact (runs_ofResult _).starves_bind (starves_send_bind _ hreply)
  rw [List.append_nil] at hrequest
  refine starves_send_bind _ (starves_recv_bind [0x05, 0x00] rfl ?_)
  exact (runs_ofResult _).starves_bind ((runs_pure ()).starves_bind hrequest)

/-- **The client's side of a tunnel.** -/
theorem runs_socks5Connect (bind : SocketAddr) :
    Runs (socks5Connect proxy text port)
      ([0x05, 0x00] ++ ([0x05, 0x00, 0x00] ++ socksAddress (.ip bind.ip) ++ beBytes 2 bind.port))
      (socks5Greeting proxy ++ connectRequest (bareHost text) port) [] (.ok ()) := by
  have hrequest : Runs (do
      let req ← ofResult (socks5Request text port)
      send req
      socks5Reply) ([0x05, 0x00, 0x00] ++ socksAddress (.ip bind.ip) ++ beBytes 2 bind.port)
      (connectRequest (bareHost text) port ++ []) [] (.ok ()) :=
    runs_ofResult_bind (socks5Request_eq hlen port) (runs_send_bind _ (runs_socks5Reply bind))
  rw [List.append_nil] at hrequest
  refine runs_send_bind _ (runs_recv_bind [0x05, 0x00] rfl ?_)
  exact runs_ofResult_bind rfl ((runs_pure ()).bind hrequest)

end Client

/-- **Client and server agree byte for byte.**  The client sends a greeting, and with the method
selected a request.  The server answers the greeting while it waits for the request, reads exactly
these bytes as one greeting and one CONNECT for the target, locates and dials it, and writes a reply
that the client drains exactly; whatever address is bound. -/
theorem socks5_agrees {text : String} (htext : parseIp text = none → (utf8 text).length ≤ 255)
    (proxy : ProxyConfig) (port : UInt16) :
    ∃ greeting request : Bytes,
      Starves (socks5Connect proxy text port.toNat) [] greeting [] closedUnexpectedly ∧
      Starves (socks5Connect proxy text port.toNat) [0x05, 0x00] (greeting ++ request) []
        closedUnexpectedly ∧
      (∀ exit, Starves (handleClient exit) greeting [0x05, 0x00] [] ()) ∧
      Runs readConnect (greeting ++ request) [0x05, 0x00] [] (.ok (bareHost text, port.toNat)) ∧
      (∀ bind : SocketAddr, ∃ reply, Runs (writeSocksReply 0x00 bind) [] reply [] (.ok ()) ∧
        Runs (socks5Connect proxy text port.toNat) ([0x05, 0x00] ++ reply) (greeting ++ request) []
          (.ok ())) ∧
      (∀ exit address localAddr, (located exit (bareHost text) port.toNat).2 = .ok address →
        exit.dialOrigin address = .ok localAddr → ∃ reply,
          Runs (writeSocksReply 0x00 (localAddr.getD unspecified)) [] reply [] (.ok ()) ∧
          Runs (handleClient exit) (greeting ++ request) ([0x05, 0x00] ++ reply)
            ((located exit (bareHost text) port.toNat).1 ++ [.dial address]) (.ok ())) := by
  obtain ⟨hcarried, hlen⟩ := carried_bareHost htext
  have hport : port.toNat < 65536 := port.toNat_lt
  have hmethods := length_methods proxy
  refine ⟨socks5Greeting proxy, connectRequest (bareHost text) port.toNat,
    starves_greeting proxy port.toNat text, starves_request proxy hlen port.toNat, ?_, ?_, ?_, ?_⟩
  · intro exit
    rw [socks5Greeting_eq]
    exact starves_handleClient exit hmethods
  · rw [socks5Greeting_eq]
    exact runs_readConnect hmethods hcarried hport
  · intro bind
    exact ⟨_, runs_send _, runs_socks5Connect proxy hlen port.toNat bind⟩
  · intro exit address localAddr hlocated hdial
    rw [socks5Greeting_eq]
    exact ⟨_, runs_send _, runs_handleClient exit hmethods text hcarried hport hlocated hdial⟩

/-- `host.test:443`, found at one address and dialled from another. -/
theorem socks5_agrees_name : ∃ greeting request reply : Bytes,
    Runs readConnect (greeting ++ request) [0x05, 0x00] [] (.ok (.name "host.test", 443)) ∧
    Runs (handleClient
        { resolveHost := fun _ port => .ok [⟨.v4 [192, 0, 2, 1] rfl, port⟩]
          dialOrigin := fun _ => .ok (some ⟨.v4 [10, 0, 0, 2] rfl, 40000⟩) })
      (greeting ++ request) ([0x05, 0x00] ++ reply)
      [.query "host.test" 443, .dial ⟨.v4 [192, 0, 2, 1] rfl, 443⟩] (.ok ()) := by
  have hbare : bareHost "host.test" = .name "host.test" := by decide
  have hagrees := @socks5_agrees "host.test" (fun _ => by decide)
    { endpoint := "socks5://127.0.0.1:1080" } 443
  rw [hbare] at hagrees
  obtain ⟨greeting, request, -, -, -, hread, -, hserve⟩ := hagrees
  obtain ⟨reply, -, hrun⟩ := hserve
    { resolveHost := fun _ port => .ok [⟨.v4 [192, 0, 2, 1] rfl, port⟩]
      dialOrigin := fun _ => .ok (some ⟨.v4 [10, 0, 0, 2] rfl, 40000⟩) }
    ⟨.v4 [192, 0, 2, 1] rfl, 443⟩ (some ⟨.v4 [10, 0, 0, 2] rfl, 40000⟩) (by rfl) rfl
  exact ⟨greeting, request, reply, hread, hrun⟩

/-! ## Which origin is named -/

/-- What the `url` crate leaves in a domain: no forbidden domain code point, and ASCII alone. -/
def isDomainChar (c : Char) : Bool :=
  0x20 < c.toNat && c.toNat < 0x7f && !("#%/:<>?@[\\]^|".toList.contains c)

/-- `Url::host_str`: an IPv6 address stands in brackets. -/
def HostStr : Authority.Host → String → Prop
  | .ip (.v4 octets length), text => parseIp text = some (.v4 octets length)
  | .ip (.v6 octets length), text =>
    ∃ inner, parseIp inner = some (.v6 octets length) ∧ text = "[" ++ inner ++ "]"
  | .name name, text => text = name ∧ parseIp name = none ∧ ∀ c ∈ name.toList, isDomainChar c = true

/-- The callers of `connect_to_target`. -/
inductive Caller where
  | openOriginStream
  | composerOriginDialer
deriving DecidableEq

/-- The text a caller passes for an origin: `Url::host_str`, or `IpAddr::to_string` of an address. -/
def Caller.Passes : Caller → Authority.Host → String → Prop
  | .openOriginStream, origin, text => HostStr origin text
  | .composerOriginDialer, .ip address, text => parseIp text = some address
  | .composerOriginDialer, .name _, _ => False

/-- The authority of a CONNECT request: what stands between the method and the version. -/
def connectAuthority (request : String) : String :=
  String.ofList ((request.toList.drop "CONNECT ".toList.length).takeWhile fun c => c != ' ')

/-- What goes to the proxy names the origin.  A name that no SOCKS5 request can carry is refused. -/
def NamesOrigin (kind : ProxyKind) (proxy : ProxyConfig) (text : String) (port : Nat)
    (origin : Authority.Host) : Prop :=
  match kind with
  | .http | .https =>
    parseAuthority (connectAuthority (httpConnectRequest proxy text port)) = some (origin, port)
  | .socks5 =>
    (Carried origin ∧ socks5Request text port = .ok (connectRequest origin port)) ∨
      (¬ Carried origin ∧ socks5Request text port =
        .error (.transport "SOCKS5 target hostname exceeds 255 bytes"))

/-- The cells in which text and encoder fit: an IPv6 address in brackets is for HTTP and a bare one
for SOCKS5; an HTTP authority holds registered names. -/
def Fits : Caller → ProxyKind → Authority.Host → Prop
  | _, _, .ip (.v4 _ _) => True
  | .openOriginStream, kind, .ip (.v6 _ _) => kind ≠ .socks5
  | .composerOriginDialer, kind, .ip (.v6 _ _) => kind = .socks5
  | _, kind, .name name => kind = .socks5 ∨ ∀ c ∈ name.toList, isRegNameChar c = true

/-- The request is sent before anything is read. -/
theorem starves_httpConnect (proxy : ProxyConfig) (text : String) (port : Nat) :
    Starves (httpConnect proxy text port) [] (utf8 (httpConnectRequest proxy text port)) []
      (.transport "proxy closed the connection during CONNECT") := by
  have hhead : Starves (readHttpHead (16 * 1024) []) [] [] []
      (.transport "proxy closed the connection during CONNECT") := by
    rw [readHttpHead]
    exact (starves_recv _ (by decide)).bind
  have hwait : Starves (httpConnect proxy text port) []
      (utf8 (httpConnectRequest proxy text port) ++ []) []
      (.transport "proxy closed the connection during CONNECT") := starves_send_bind _ hhead.bind
  rwa [List.append_nil] at hwait

theorem connectAuthority_eq (proxy : ProxyConfig) {text : String} (h : ' ' ∉ text.toList)
    (port : Nat) :
    connectAuthority (httpConnectRequest proxy text port) = text ++ ":" ++ Nat.repr port := by
  have hdigits : ' ' ∉ (Nat.repr port).toList := by
    rw [Nat.toList_repr]
    exact fun hmem => absurd (Nat.isDigit_of_mem_toDigits (by decide) (by decide) hmem) (by decide)
  have hspace : ' ' ∉ (text ++ ":" ++ Nat.repr port).toList := by
    simp only [String.toList_append, List.mem_append, not_or]
    exact ⟨⟨h, by decide⟩, hdigits⟩
  have hversion : " HTTP/1.1\r\nHost: ".toList = ' ' :: "HTTP/1.1\r\nHost: ".toList := by decide
  obtain ⟨rest, hrest⟩ : ∃ rest, (httpConnectRequest proxy text port).toList =
      "CONNECT ".toList ++ ((text ++ ":" ++ Nat.repr port).toList ++ ' ' :: rest) := by
    rw [httpConnectRequest]
    cases basicProxyAuthorization proxy with
    | none =>
      apply Exists.intro
      simp only [String.toList_append, List.append_assoc, hversion, List.cons_append]
      rfl
    | some auth =>
      apply Exists.intro
      simp only [String.toList_append, List.append_assoc, hversion, List.cons_append]
      rfl
  rw [connectAuthority, hrest, List.drop_left, takeWhile_ne hspace, String.ofList_toList]

/-! ### The cells -/

theorem not_mem_of_ip {text : String} {address : IpAddr} (h : parseIp text = some address) {c : Char}
    (hc : ¬ IsV6Char c) : c ∉ text.toList := by
  intro hmem
  rw [parseIp_none hmem hc] at h
  cases h

theorem not_isV6Char_space : ¬ IsV6Char ' ' := by
  rw [IsV6Char]
  decide

theorem not_isV6Char_bracket : ¬ IsV6Char '[' := by
  rw [IsV6Char]
  decide

/-- A SOCKS5 request for the text of an address, or of a name that is none. -/
theorem namesOrigin_socks5 {proxy : ProxyConfig} {text : String} {port : Nat}
    {origin : Authority.Host}
    (h : bareHost text = origin) : NamesOrigin .socks5 proxy text port origin := by
  subst h
  by_cases hlen : (utf8 text).length ≤ 255
  · exact .inl ⟨(carried_bareHost fun _ => hlen).1, socks5Request_eq hlen port⟩
  · refine .inr ⟨fun hcarried => hlen ?_, ?_⟩
    · rw [bareHost] at hcarried
      cases hparse : parseIp text with
      | some ip => exact Nat.le_trans (length_parseIp hparse) (by decide)
      | none =>
        rw [hparse] at hcarried
        exact Nat.le_of_lt_succ hcarried
    · rw [socks5Request, decide_eq_false hlen]
      rfl

/-- In brackets an IPv6 address is sent as a name. -/
theorem not_namesOrigin_bracketed {proxy : ProxyConfig} {inner : String} {port : Nat}
    {octets : Bytes} {length : octets.length = 16} :
    ¬ NamesOrigin .socks5 proxy ("[" ++ inner ++ "]") port (.ip (.v6 octets length)) := by
  have hbare : bareHost ("[" ++ inner ++ "]") = .name ("[" ++ inner ++ "]") := by
    have hmem : '[' ∈ ("[" ++ inner ++ "]").toList := by
      simp only [String.toList_append, List.mem_append]
      exact .inl (.inl (by decide))
    rw [bareHost, parseIp_none hmem not_isV6Char_bracket]
  rintro (⟨-, hrequest⟩ | ⟨hcarried, -⟩)
  · by_cases hlen : (utf8 ("[" ++ inner ++ "]")).length ≤ 255
    · rw [socks5Request_eq hlen, hbare] at hrequest
      -- the type of the address is the fourth byte
      have hatyp : (0x03 : UInt8) = 0x04 :=
        congrArg (fun bytes => bytes.getD 3 0) (Except.ok.inj hrequest)
      exact absurd hatyp (by decide)
    · rw [socks5Request, decide_eq_false hlen] at hrequest
      cases hrequest
  · exact hcarried trivial

/-- The authority of a text without blanks. -/
theorem namesOrigin_http {kind : ProxyKind} (hkind : kind ≠ .socks5) {proxy : ProxyConfig}
    {text : String} (hspace : ' ' ∉ text.toList) {port : Nat} {origin : Authority.Host} :
    NamesOrigin kind proxy text port origin ↔
      parseAuthority (text ++ ":" ++ Nat.repr port) = some (origin, port) := by
  cases kind with
  | http => rw [NamesOrigin, connectAuthority_eq proxy hspace]
  | https => rw [NamesOrigin, connectAuthority_eq proxy hspace]
  | socks5 => exact absurd rfl hkind

section Cells

variable {kind : ProxyKind} {proxy : ProxyConfig} {port : Nat} {text : String} {octets : Bytes}

theorem namesOrigin_v4 {hlength : octets.length = 4}
    (h : parseIp text = some (.v4 octets hlength)) :
    NamesOrigin kind proxy text port (.ip (.v4 octets hlength)) := by
  have hspace := not_mem_of_ip h not_isV6Char_space
  by_cases hkind : kind = .socks5
  · subst hkind
    exact namesOrigin_socks5 (by rw [bareHost, h])
  · exact (namesOrigin_http hkind hspace).mpr (parseAuthority_v4 h port)

/-- In brackets: right for HTTP alone. -/
theorem namesOrigin_bracketed {hlength : octets.length = 16}
    (h : parseIp text = some (.v6 octets hlength)) :
    NamesOrigin kind proxy ("[" ++ text ++ "]") port (.ip (.v6 octets hlength)) ↔
      kind ≠ .socks5 := by
  have hspace : ' ' ∉ ("[" ++ text ++ "]").toList := by
    simp only [String.toList_append, List.mem_append, not_or]
    exact ⟨⟨by decide, not_mem_of_ip h not_isV6Char_space⟩, by decide⟩
  by_cases hkind : kind = .socks5
  · subst hkind
    exact iff_of_false not_namesOrigin_bracketed fun hne => hne rfl
  · exact iff_of_true ((namesOrigin_http hkind hspace).mpr (parseAuthority_literal h port)) hkind

/-- Without brackets: right for SOCKS5 alone. -/
theorem namesOrigin_bare {hlength : octets.length = 16}
    (h : parseIp text = some (.v6 octets hlength)) :
    NamesOrigin kind proxy text port (.ip (.v6 octets hlength)) ↔ kind = .socks5 := by
  have hspace := not_mem_of_ip h not_isV6Char_space
  by_cases hkind : kind = .socks5
  · subst hkind
    exact iff_of_true (namesOrigin_socks5 (by rw [bareHost, h])) rfl
  · refine iff_of_false ?_ hkind
    rw [namesOrigin_http hkind hspace, parseAuthority_bare h]
    intro hnone
    cases hnone

/-- A name: right for SOCKS5, and for HTTP when it is a registered name. -/
theorem namesOrigin_name (h : parseIp text = none)
    (hchars : ∀ c ∈ text.toList, isDomainChar c = true) :
    NamesOrigin kind proxy text port (.name text) ↔
      kind = .socks5 ∨ ∀ c ∈ text.toList, isRegNameChar c = true := by
  have hspace : ' ' ∉ text.toList := fun hmem => absurd (hchars _ hmem) (by decide)
  by_cases hkind : kind = .socks5
  · subst hkind
    exact iff_of_true (namesOrigin_socks5 (by rw [bareHost, h])) (.inl rfl)
  · rw [namesOrigin_http hkind hspace]
    constructor
    · exact fun hparse => .inr (isRegNameChar_of_parse hparse)
    · rintro (hsocks | hreg)
      · exact absurd hsocks hkind
      · exact parseAuthority_name hreg h port

end Cells

/-- **Which cells are right.**  For every origin, port, kind of proxy and caller, with any text that
the caller passes for the origin. -/
theorem namesOrigin_iff {caller : Caller} {origin : Authority.Host} {text : String}
    (htext : caller.Passes origin text) (kind : ProxyKind) (proxy : ProxyConfig) (port : UInt16) :
    NamesOrigin kind proxy text port.toNat origin ↔ Fits caller kind origin := by
  cases origin with
  | ip address =>
    cases address with
    | v4 octets hlength =>
      have hparse : parseIp text = some (.v4 octets hlength) := by
        cases caller with
        | openOriginStream => exact htext
        | composerOriginDialer => exact htext
      exact iff_of_true (namesOrigin_v4 hparse) trivial
    | v6 octets hlength =>
      cases caller with
      | openOriginStream =>
        obtain ⟨inner, hparse, rfl⟩ := htext
        exact namesOrigin_bracketed hparse
      | composerOriginDialer => exact namesOrigin_bare htext
  | name name =>
    cases caller with
    | openOriginStream =>
      obtain ⟨rfl, hparse, hchars⟩ := htext
      exact namesOrigin_name hparse hchars
    | composerOriginDialer => exact htext.elim

/-- `[::1]` as the fetch passes it, through an HTTP proxy. -/
theorem namesOrigin_fetch : NamesOrigin .http { endpoint := "http://127.0.0.1:3128" } "[::1]" 443
    (.ip (.v6 [0, 0, 0, 0, 0, 0, 0, 0, 0, 0, 0, 0, 0, 0, 0, 1] rfl)) :=
  (@namesOrigin_iff .openOriginStream
    (.ip (.v6 [0, 0, 0, 0, 0, 0, 0, 0, 0, 0, 0, 0, 0, 0, 0, 1] rfl)) "[::1]"
    ⟨"::1", by decide, rfl⟩ .http _ 443).mpr fun h => by cases h

/-- `::1` as the composer passes it, through an HTTP proxy: `CONNECT ::1:443`. -/
theorem namesOrigin_composer : ¬ ∀ (caller : Caller) (origin : Authority.Host) (text : String),
    caller.Passes origin text → ∀ (kind : ProxyKind) (proxy : ProxyConfig) (port : UInt16),
      NamesOrigin kind proxy text port.toNat origin := by
  intro h
  have hnames := h .composerOriginDialer
    (.ip (.v6 [0, 0, 0, 0, 0, 0, 0, 0, 0, 0, 0, 0, 0, 0, 0, 1] rfl)) "::1"
    (by rw [Caller.Passes]; decide) .http { endpoint := "http://127.0.0.1:3128" } 443
  have hparse : parseIp "::1" = some (.v6 [0, 0, 0, 0, 0, 0, 0, 0, 0, 0, 0, 0, 0, 0, 0, 1] rfl) := by
    decide
  cases (namesOrigin_bare hparse).mp hnames

end Basecrawl.Core
