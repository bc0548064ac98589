/-
  The sockets under a fetch, and whom they ask.

  1. **The way to the origin** — `openOriginStream` resolves and dials, or tunnels through the
     upstream; `Network.over` puts it under the fetch, beside a network that does the rest.
  2. **What is called** — every call of a direct fetch is the resolver's or the dial of the target
     (`emits_fetchHttp`, `emits_fetchHttps`), and a preflight dials nothing.
  3. **Literals** — `literals_iff`: an IPv4 literal is dialled as it is and a name where the
     resolver says; an IPv6 literal never is, for it still has its brackets when it is parsed.
-/
import Basecrawl.Core.Connect
import Basecrawl.Core.Evidence

namespace Basecrawl.Core

open Text Outcome Run IpText Authority Connection Seal

/-! ## The way to the origin -/

/-- What is outside: the resolver and the dialer of the seal crate, and the sockets of this one. -/
structure Sockets where
  exit : Exit
  /-- `ProxyConfig::kind`. -/
  kind : ProxyConfig → ProxyKind
  /-- `resolve_proxy_endpoint`. -/
  proxyAddress : ProxyConfig → Except Error SocketAddr
  /-- `TcpStream::connect_timeout`, with the local address of the stream. -/
  connect : SocketAddr → Except Error String

/-- `Display` of `SealError`. -/
def sealErrorText : SealError → String
  | .keyReleaseDenied reason => "key release denied: " ++ reason
  | .keyReleaseUnreachable => "key release endpoint unreachable"
  | .keyReleaseMidExchange => "key release failed mid-exchange"
  | .keyReleaseProtocol detail => "key release protocol error: " ++ detail
  | .keyNotReleased => "task decryption key has not been released"
  | .authenticationFailed => "sealed task authentication failed"
  | .invalidEnvelope detail => "sealed task envelope is invalid: " ++ detail
  | .malformedPlaintext => "sealed task plaintext is malformed"
  | .invalidIdentity detail => "enclave identity is invalid: " ++ detail
  | .quoteFailed detail => "quote generation failed: " ++ detail
  | .transport detail => "transport error: " ++ detail
  | .dns detail => "pinned DNS resolution failed: " ++ detail

/-- The error of `resolve_address_with`. -/
def resolutionError : SealError → Error
  | .dns detail => .transport ("pinned DoH/DoT resolution failed: " ++ detail)
  | other => .transport ("pinned DoH/DoT resolution failed: " ++ sealErrorText other)

/-- `resolve_address`. -/
def resolveAddress (exit : Exit) (host : String) (port : Nat) : Tunnel SocketAddr := do
  let found ← result (resolveForConnect exit host port)
  ofResult (found.mapError resolutionError)

/-- `TcpStream::connect_timeout`. -/
def connectTimeout (sockets : Sockets) (address : SocketAddr) : Tunnel String := do
  call (.dial address)
  ofResult (sockets.connect address)

/-- `open_origin_stream`, with the local address of the stream. -/
def openOriginStream (sockets : Sockets) (proxy : Option ProxyConfig) (host : String) (port : Nat) :
    Tunnel String :=
  match proxy with
  | some proxy => do
    let proxyAddr ← ofResult (sockets.proxyAddress proxy)
    let egress ← connectTimeout sockets proxyAddr
    connectToTarget (sockets.kind proxy) proxy host port
    pure egress
  | none => do
    let address ← resolveAddress sockets.exit host port
    connectTimeout sockets address

variable {τ : Type}

/-- The network whose dials go through the sockets; the rest of it does not touch them. -/
def Network.over (net : Network τ) (sockets : Sockets) : Network (Port Call × τ) where
  pace := fun url => onSnd (net.pace url)
  dial := fun proxy host port => onFst (openOriginStream sockets proxy host port)
  handshake := fun config host => onSnd (net.handshake config host)
  exchange := fun request => onSnd (net.exchange request)
  nowUtc := fun s => net.nowUtc s.2

/-! ## The browser preflight -/

/-- The process-wide SOCKS proxy, where the scrape has no composer of its own. -/
def requireSocks (composer : Bool) (socksReady : Except SealError Unit) :
    Dialog Call String Unit :=
  if composer then pure ()
  else ofResult (socksReady.mapError fun error =>
    "sealed browser SOCKS unavailable before target creation (" ++ sealErrorText error ++ ")")

/-- `preflight_sealed_document_dns`; its errors are details of `RenderError::DnsIsolation`. -/
def preflightSealedDocumentDns (exit : Exit) (composer : Bool) (socksReady : Except SealError Unit)
    (url : Url) : Dialog Call String Unit := do
  let host ← ofResult (okOr url.host "document URL has no host")
  if documentHostNeedsSealedResolve host then do
    let port ← ofResult (okOr url.portOrKnownDefault "document URL has no port")
    let found ← result (preflightDocumentDns exit host port)
    let _address ← ofResult (found.mapError fun error =>
      "sealed DoH preflight for browser document failed (" ++ sealErrorText error ++ ")")
    requireSocks composer socksReady
  else requireSocks composer socksReady

/-! ## What is called -/

/-- The calls so far. -/
def callsOf (w : World (Port Call × τ)) : List Call := w.outside.1.calls

/-- The dial of an address, where there is one. -/
def dialOf : Except SealError SocketAddr → List Call
  | .ok address => [.dial address]
  | .error _ => []

/-- What is asked for a host, and then dialled. -/
def dialCalls (exit : Exit) (host : String) (port : Nat) : List Call :=
  (located exit (bareHost host) port).1 ++ dialOf (located exit (bareHost host) port).2

section Emitting

variable {α σ ev : Type} {log : σ → List ev}

theorem Emits.outside {x : Outside σ α} {Φ : Except Error α → List ev → Prop} (h : Emits log x Φ) :
    Emits (fun w => log w.outside) (outside x) Φ := by
  intro w
  obtain ⟨es, hlog, hes⟩ := h w.outside
  rw [Core.outside]
  cases hrun : x w.outside with
  | ok a t =>
    rw [hrun] at hlog hes
    exact ⟨es, hlog, hes⟩
  | error e t =>
    rw [hrun] at hlog hes
    exact ⟨es, hlog, hes⟩

theorem emits_resolveForConnect (exit : Exit) (text : String) (port : Nat) :
    Emits Port.calls (resolveForConnect exit text port) fun r es =>
      r = (located exit (bareHost text) port).2 ∧ es = (located exit (bareHost text) port).1 := by
  rw [resolveForConnect, bareHost]
  cases parseIp text with
  | some ip => exact emits_pure ⟨rfl, rfl⟩
  | none =>
    simp only [located]
    by_cases hloopback : isLoopbackName text = true
    · rw [if_pos hloopback, if_pos hloopback]
      exact emits_pure ⟨rfl, rfl⟩
    · rw [if_neg hloopback, if_neg hloopback]
      refine emits_call_bind ?_
      cases exit.resolveHost text port with
      | ok addresses => exact emits_ofResult ⟨rfl, rfl⟩
      | error e => exact emits_throw ⟨rfl, rfl⟩

/-- A direct stream: the resolver where it is needed, then the dial. -/
theorem emits_openOriginStream (sockets : Sockets) (host : String) (port : Nat) :
    Emits Port.calls (openOriginStream sockets none host port) fun _ es =>
      es = dialCalls sockets.exit host port := by
  have hresolve : Emits Port.calls (resolveAddress sockets.exit host port) fun r es =>
      r = (located sockets.exit (bareHost host) port).2.mapError resolutionError ∧
        es = (located sockets.exit (bareHost host) port).1 := by
    refine emits_result_bind (emits_resolveForConnect sockets.exit host port) ?_
    rintro r es ⟨rfl, rfl⟩
    exact emits_ofResult ⟨rfl, List.append_nil _⟩
  refine Emits.bind hresolve ?_ ?_
  · rintro e es ⟨he, rfl⟩
    rw [dialCalls]
    cases hlocated : (located sockets.exit (bareHost host) port).2 with
    | ok address =>
      rw [hlocated] at he
      cases he
    | error e' => exact (List.append_nil _).symm
  · rintro address es ⟨hok, rfl⟩
    have hdial : dialOf (located sockets.exit (bareHost host) port).2 = [.dial address] := by
      cases hlocated : (located sockets.exit (bareHost host) port).2 with
      | ok found =>
        rw [hlocated] at hok
        cases hok
        rfl
      | error e' =>
        rw [hlocated] at hok
        cases hok
    rw [dialCalls, hdial]
    exact emits_call_bind (emits_ofResult rfl)

end Emitting

section Fetching

variable {lib : FetchLib} {net : Network τ} {sockets : Sockets} {url : Url} {host : String}
  {config : FetchConfig} {credentialOrigin : Url}

/-- Once the stream is open, nothing more is called. -/
theorem emits_exchangeOn {port : Nat} {tls : Option Tls} {egressIp : String} :
    Emits callsOf (exchangeOn lib (net.over sockets) url host port config credentialOrigin tls egressIp)
      fun _ es => es = [] := by
  have hnote : ∀ e, EmitsOnly callsOf (fun _ => False) (note e : Prog (Port Call × τ) Unit) :=
    fun e => emitsOnly_of_log_eq fun _ => rfl
  refine emits_ofResult_bind (fun _ _ => rfl) fun request _ => ?_
  refine emits_silent_bind (hnote _) (fun _ => rfl) fun _ => ?_
  refine Emits.bind (Emits.outside (emits_onSnd (Φ := fun _ es => es = []) fun _ => rfl))
    (fun _ _ h => h) ?_
  rintro reply es rfl
  exact emits_silent_bind (hnote _) (fun _ => rfl) fun _ => emits_pure rfl

/-- **A direct fetch over HTTP** asks the resolver, where there is a name to ask for, and dials. -/
theorem emits_fetchHttp (hhost : url.host = some host) (hdirect : config.proxy = none) :
    Emits callsOf (fetchHttp lib (net.over sockets) url config credentialOrigin) fun _ es =>
      es = dialCalls sockets.exit host (url.portOrKnownDefault.getD 80) := by
  rw [fetchHttp, hhost, hdirect]
  refine emits_ofResult_bind (fun _ h => by cases h) fun name hname => ?_
  cases hname
  refine Emits.bind (Emits.outside (Emits.onFst (emits_openOriginStream sockets _ _)))
    (fun _ _ h => h) ?_
  rintro egressIp es rfl
  exact emits_exchangeOn.mono fun _ es h => by rw [h, List.append_nil]

/-- **A direct fetch over HTTPS**, where TLS takes the host as a name. -/
theorem emits_fetchHttps (hhost : url.host = some host) (hdirect : config.proxy = none) :
    Emits callsOf (fetchHttps lib (net.over sockets) url config credentialOrigin) fun _ es =>
      es = if lib.isServerName host then
        dialCalls sockets.exit host (url.portOrKnownDefault.getD 443) else [] := by
  rw [fetchHttps, hhost, hdirect]
  refine emits_ofResult_bind (fun _ h => by cases h) fun name hname => ?_
  cases hname
  refine emits_ofResult_bind ?_ fun u hname => ?_
  · intro e h
    rw [require_eq_error] at h
    rw [h.1]
    rfl
  · rw [require_eq_ok] at hname
    rw [if_pos hname]
    refine Emits.bind (Emits.outside (Emits.onFst (emits_openOriginStream sockets _ _)))
      (fun _ _ h => h) ?_
    rintro egressIp es rfl
    refine Emits.bind (Emits.outside (emits_onSnd (Φ := fun _ es => es = []) fun _ => rfl)) ?_ ?_
    · rintro e es rfl
      exact List.append_nil _
    · rintro handshake es rfl
      refine emits_ofResult_bind (fun _ _ => List.append_nil _) fun tls _ => ?_
      exact emits_exchangeOn.mono fun _ es h => by rw [h, List.append_nil, List.append_nil]

end Fetching

/-! ## Literals -/

/-- What a direct fetch may do for an origin: dial a literal as it is, and a name where the resolver
says. -/
def DialsOrigin (exit : Exit) (port : Nat) : Authority.Host → List Call → Prop
  | .ip address, calls => calls = [.dial ⟨address, port⟩]
  | .name name, calls => isLoopbackName name = false → ∀ address, .dial address ∈ calls →
      ∃ answers, exit.resolveHost name port = .ok answers ∧ address ∈ answers

/-- The same of the address that a preflight finds. -/
def FindsOrigin (exit : Exit) (port : Nat) :
    Authority.Host → Except SealError SocketAddr → List Call → Prop
  | .ip address, found, calls => found = .ok ⟨address, port⟩ ∧ calls = []
  | .name name, found, _ => isLoopbackName name = false → ∀ address, found = .ok address →
      ∃ answers, exit.resolveHost name port = .ok answers ∧ address ∈ answers

/-- A preflight dials nothing itself, and asks nobody about a literal. -/
def ChecksOrigin : Authority.Host → List Call → Prop
  | .ip _, calls => calls = []
  | .name _, calls => ∀ address, .dial address ∉ calls

section Cases

variable {exit : Exit} {text : String} {address : IpAddr} {port : Nat}

theorem isLoopbackName_none {c : Char} (hmem : c ∈ text.toList)
    (hc : c.toLower ∉ "localhost".toList) : isLoopbackName text = false := by
  by_contra hloopback
  rw [Bool.not_eq_false, isLoopbackName, eqIgnoreAsciiCase, beq_iff_eq] at hloopback
  have hlower : c.toLower ∈ (asciiLower text).toList := by
    rw [asciiLower, String.toList_ofList]
    exact List.mem_map_of_mem hmem
  rw [hloopback] at hlower
  exact hc hlower

theorem located_name (hloopback : isLoopbackName text = false) :
    located exit (.name text) port = ([.query text port],
      (exit.resolveHost text port).bind fun addresses =>
        okOr addresses.head? (.dns "pinned resolver returned an empty address list")) := by
  rw [located, if_neg (by rw [hloopback]; exact Bool.false_ne_true)]

theorem answers_of_located (hloopback : isLoopbackName text = false) {found : SocketAddr}
    (h : (located exit (.name text) port).2 = .ok found) :
    ∃ answers, exit.resolveHost text port = .ok answers ∧ found ∈ answers := by
  rw [located_name hloopback] at h
  obtain ⟨answers, hanswers, h⟩ := bind_eq_ok.mp h
  exact ⟨answers, hanswers, List.mem_of_head? (okOr_eq_ok.mp h)⟩

theorem dialCalls_ip (h : parseIp text = some address) :
    dialCalls exit text port = [.dial ⟨address, port⟩] := by
  rw [dialCalls, bareHost, h]
  rfl

theorem dialCalls_name (h : parseIp text = none) :
    DialsOrigin exit port (.name text) (dialCalls exit text port) := by
  intro hloopback address hmem
  rw [dialCalls, bareHost, h] at hmem
  rcases List.mem_append.mp hmem with hasked | hdialled
  · rw [located_name hloopback] at hasked
    cases List.mem_singleton.mp hasked
  · cases hlocated : (located exit (.name text) port).2 with
    | ok found =>
      rw [hlocated] at hdialled
      cases List.mem_singleton.mp hdialled
      exact answers_of_located hloopback hlocated
    | error e =>
      rw [hlocated] at hdialled
      cases hdialled

/-- In brackets nothing is a literal: the resolver is asked first. -/
theorem dialCalls_bracketed (inner : String) :
    (dialCalls exit ("[" ++ inner ++ "]") port).head? =
      some (.query ("[" ++ inner ++ "]") port) := by
  have hmem : '[' ∈ ("[" ++ inner ++ "]").toList := by
    simp only [String.toList_append, List.mem_append]
    exact .inl (.inl (by decide))
  rw [dialCalls, bareHost, parseIp_none hmem not_isV6Char_bracket,
    located_name (isLoopbackName_none hmem (by decide))]
  rfl

theorem located_asks (host : Authority.Host) (a : SocketAddr) :
    .dial a ∉ (located exit host port).1 := by
  intro hmem
  cases host with
  | ip address => cases hmem
  | name text =>
    rw [located] at hmem
    split at hmem
    · cases hmem
    · cases List.mem_singleton.mp hmem

theorem emits_requireSocks {composer : Bool} {socksReady : Except SealError Unit} :
    Emits Port.calls (requireSocks composer socksReady) fun _ es => es = [] := by
  rw [requireSocks]
  split
  · exact emits_pure rfl
  · exact emits_ofResult rfl

/-- A literal without brackets is found and checked without a question. -/
theorem preflight_ip (h : parseIp text = some address) :
    Emits Port.calls (preflightDocumentDns exit text port)
      (FindsOrigin exit port (.ip address)) := by
  refine (emits_resolveForConnect exit text port).mono ?_
  rintro r es ⟨rfl, rfl⟩
  rw [bareHost, h]
  exact ⟨rfl, rfl⟩

theorem preflight_name (h : parseIp text = none) :
    Emits Port.calls (preflightDocumentDns exit text port)
      (FindsOrigin exit port (.name text)) := by
  refine (emits_resolveForConnect exit text port).mono ?_
  rintro r es ⟨rfl, rfl⟩ hloopback found hfound
  rw [bareHost, h] at hfound
  exact answers_of_located hloopback hfound

variable {composer : Bool} {socksReady : Except SealError Unit} {url : Url}

theorem sealed_ip (hhost : url.host = some text) (h : parseIp text = some address) :
    Emits Port.calls (preflightSealedDocumentDns exit composer socksReady url) fun _ es =>
      ChecksOrigin (.ip address) es := by
  have hneeds : documentHostNeedsSealedResolve text = false := by
    rw [documentHostNeedsSealedResolve, h]
    rfl
  rw [preflightSealedDocumentDns, hhost]
  refine emits_ofResult_bind (fun _ _ => rfl) fun name hname => ?_
  cases hname
  rw [hneeds]
  exact emits_requireSocks

theorem sealed_name (hhost : url.host = some text) (name : String) :
    Emits Port.calls (preflightSealedDocumentDns exit composer socksReady url) fun _ es =>
      ChecksOrigin (.name name) es := by
  have hnone : ∀ a : SocketAddr, Call.dial a ∉ [] := fun _ => List.not_mem_nil
  have hsocks : Emits Port.calls (requireSocks composer socksReady) fun _ es =>
      ∀ a, .dial a ∉ es := emits_requireSocks.mono fun _ es hes => hes ▸ hnone
  rw [preflightSealedDocumentDns, hhost]
  refine emits_ofResult_bind (fun _ _ => hnone) fun name hname => ?_
  cases hname
  split
  · refine emits_ofResult_bind (fun _ _ => hnone) fun port _ => ?_
    refine emits_result_bind (emits_resolveForConnect exit text port) ?_
    rintro r es ⟨-, rfl⟩
    have hasks := @located_asks exit port (bareHost text)
    refine emits_ofResult_bind ?_ fun found _ => ?_
    · intro _ _ a
      rw [List.append_nil]
      exact hasks a
    · exact hsocks.mono fun _ es hes a hmem =>
        (List.mem_append.mp hmem).elim (hasks a) (hes a)
  · exact hsocks

end Cases

section Keeping

variable (lib : FetchLib) (net : Network τ) (sockets : Sockets) (config : FetchConfig)
  (credentialOrigin : Url) (composer : Bool) (socksReady : Except SealError Unit)
  (url : Url) (host : String) (origin : Authority.Host) (w : World (Port Call × τ))

/-- For a URL whose host is the origin, as `Url::host_str` writes it: what both direct fetches call,
what the preflight of the seal crate finds, and what the browser preflight calls. -/
structure KeepsLiterals : Prop where
  http : url.scheme = "http" → ∃ calls,
    callsOf (final (fetchHttp lib (net.over sockets) url config credentialOrigin w)) =
      callsOf w ++ calls ∧
    DialsOrigin sockets.exit (url.portOrKnownDefault.getD 80) origin calls
  https : url.scheme = "https" → ∃ calls,
    callsOf (final (fetchHttps lib (net.over sockets) url config credentialOrigin w)) =
      callsOf w ++ calls ∧
    DialsOrigin sockets.exit (url.portOrKnownDefault.getD 443) origin calls
  finds : ∀ port, Emits Port.calls (preflightDocumentDns sockets.exit host port)
    (FindsOrigin sockets.exit port origin)
  checks : Emits Port.calls (preflightSealedDocumentDns sockets.exit composer socksReady url)
    fun _ calls => ChecksOrigin origin calls

variable {lib net sockets config credentialOrigin composer socksReady url host origin w}

/-- The calls of both fetches decide. -/
theorem KeepsLiterals.of_calls (hhost : url.host = some host) (hdirect : config.proxy = none)
    (hserver : url.scheme = "https" → lib.isServerName host = true ∨
      ∃ name, origin = .name name)
    (hdials : ∀ port, DialsOrigin sockets.exit port origin (dialCalls sockets.exit host port))
    (hfinds : ∀ port, Emits Port.calls (preflightDocumentDns sockets.exit host port)
      (FindsOrigin sockets.exit port origin))
    (hchecks : Emits Port.calls (preflightSealedDocumentDns sockets.exit composer socksReady url)
      fun _ calls => ChecksOrigin origin calls) :
    KeepsLiterals lib net sockets config credentialOrigin composer socksReady url host origin w := by
  refine ⟨fun _ => ?_, fun hscheme => ?_, hfinds, hchecks⟩
  · obtain ⟨calls, hcalls, rfl⟩ := emits_fetchHttp hhost hdirect w
    exact ⟨_, hcalls, hdials _⟩
  · obtain ⟨calls, hcalls, hes⟩ := emits_fetchHttps hhost hdirect w
    refine ⟨calls, hcalls, ?_⟩
    rcases hserver hscheme with hname | ⟨name, rfl⟩
    · rw [hes, if_pos hname]
      exact hdials _
    · rw [hes]
      split
      · exact hdials _
      · exact fun _ _ hmem => absurd hmem List.not_mem_nil

/-- Neither fetch dials an IPv6 literal: its brackets are still there when it is parsed. -/
theorem not_keepsLiterals_bracketed {inner : String} {octets : Bytes} {hlength : octets.length = 16}
    (hhttp : isHttp url = true) (hhost : url.host = some ("[" ++ inner ++ "]"))
    (hdirect : config.proxy = none) :
    ¬ KeepsLiterals lib net sockets config credentialOrigin composer socksReady url
      ("[" ++ inner ++ "]") (.ip (.v6 octets hlength)) w := by
  intro h
  rw [isHttp, Bool.or_eq_true, beq_iff_eq, beq_iff_eq] at hhttp
  rcases hhttp with hscheme | hscheme
  · obtain ⟨calls, hcalls, rfl⟩ := h.http hscheme
    obtain ⟨calls', hcalls', hes⟩ := emits_fetchHttp hhost hdirect w
    obtain rfl := List.append_cancel_left (hcalls.symm.trans hcalls')
    have hfirst := @dialCalls_bracketed sockets.exit
      (url.portOrKnownDefault.getD 80) inner
    rw [← hes] at hfirst
    cases hfirst
  · obtain ⟨calls, hcalls, rfl⟩ := h.https hscheme
    obtain ⟨calls', hcalls', hes⟩ := emits_fetchHttps hhost hdirect w
    obtain rfl := List.append_cancel_left (hcalls.symm.trans hcalls')
    split at hes
    · have hfirst := @dialCalls_bracketed sockets.exit
        (url.portOrKnownDefault.getD 443) inner
      rw [← hes] at hfirst
      cases hfirst
    · cases hes

/-- **Literals are dialled as they are, and names where the resolver says, exactly for an origin
that is no IPv6 literal.** -/
theorem literals_iff (hhttp : isHttp url = true) (hhost : url.host = some host)
    (horigin : HostStr origin host) (hdirect : config.proxy = none)
    (hserver : ∀ octets length, origin = .ip (.v4 octets length) → lib.isServerName host = true) :
    KeepsLiterals lib net sockets config credentialOrigin composer socksReady url host origin w ↔
      ∀ octets length, origin ≠ .ip (.v6 octets length) := by
  cases origin with
  | ip address =>
    cases address with
    | v4 octets hlength =>
      refine iff_of_true ?_ ?_
      · exact .of_calls hhost hdirect (fun _ => .inl (hserver octets hlength rfl))
          (fun _ => dialCalls_ip horigin) (fun _ => preflight_ip horigin) (sealed_ip hhost horigin)
      · intro _ _ h
        cases h
    | v6 octets hlength =>
      obtain ⟨inner, -, rfl⟩ := horigin
      exact iff_of_false (not_keepsLiterals_bracketed hhttp hhost hdirect)
        fun h => h octets hlength rfl
  | name name =>
    obtain ⟨rfl, hparse, -⟩ := horigin
    refine iff_of_true ?_ ?_
    · exact .of_calls hhost hdirect (fun _ => .inr ⟨_, rfl⟩) (fun _ => dialCalls_name hparse)
        (fun _ => preflight_name hparse) (sealed_name hhost _)
    · intro _ _ h
      cases h

end Keeping

/-! ### Two URLs -/

/-- A resolver that knows one address, and sockets that open. -/
def quietSockets : Sockets where
  exit :=
    { resolveHost := fun _ port => .ok [⟨.v4 [192, 0, 2, 1] rfl, port⟩]
      dialOrigin := fun _ => .ok none }
  kind := fun _ => .http
  proxyAddress := fun _ => .error (.transport "proxy endpoint resolution failed")
  connect := fun _ => .ok "10.0.0.2"

def freshWorld : World (Port Call × List Reply) := ⟨(⟨[], [], []⟩, []), [], []⟩

/-- `https://127.0.0.1/`. -/
theorem literals_ipv4 :
    KeepsLiterals scriptedLib scriptedNetwork quietSockets {} plainUrl false (.ok ())
      { scheme := "https", host := some "127.0.0.1", path := "/" } "127.0.0.1"
      (.ip (.v4 [127, 0, 0, 1] rfl)) freshWorld :=
  (literals_iff rfl rfl (by rw [HostStr]; decide) rfl fun _ _ _ => rfl).mpr fun _ _ h => by
    cases h

/-- `http://[::1]:8080/`: the resolver is asked for `[::1]`. -/
theorem literals_ipv6 : ¬ ∀ (lib : FetchLib) (net : Network (List Reply)) (sockets : Sockets)
    (config : FetchConfig) (credentialOrigin : Url) (composer : Bool)
    (socksReady : Except SealError Unit) (url : Url) (host : String) (origin : Authority.Host)
    (w : World (Port Call × List Reply)), isHttp url = true → url.host = some host →
      HostStr origin host → config.proxy = none →
      KeepsLiterals lib net sockets config credentialOrigin composer socksReady url host origin w := by
  intro h
  have hkeeps := h scriptedLib scriptedNetwork quietSockets {} plainUrl false (.ok ())
    { scheme := "http", host := some "[::1]", port := some 8080, path := "/" } "[::1]"
    (.ip (.v6 [0, 0, 0, 0, 0, 0, 0, 0, 0, 0, 0, 0, 0, 0, 0, 1] rfl)) freshWorld rfl rfl
    ⟨"::1", by decide, rfl⟩ rfl
  exact @not_keepsLiterals_bracketed _ _ _ _ _ _ _ _ _ _ "::1" _ _ rfl rfl rfl hkeeps

end Basecrawl.Core
