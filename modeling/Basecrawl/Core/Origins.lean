/-
  Resources of a truthful origin.

  1. **Resources** — a reply as an origin writes it: a head, a payload in chunks or up to the end of
     the stream, and the content in it under its codings.
  2. **Bodies** — the decoder takes off what the origin put on (`decodeHttpBodyTimed_run`): up to
     the cap, the body is the content.
  3. **Exchanges** — `origin_delivers`: the origin reads one message, the one that is meant, and
     what it says of it comes back, however the stream is cut.
-/
import Basecrawl.Core.Evidence
import Basecrawl.Core.OriginWire
import Basecrawl.Core.RequestWire

namespace Basecrawl.Core

open Text Outcome Panic Run Reading Http1
open Stream' (Seq)
open ReadCapped (IoError classifyIo deadlineElapsed)

/-! ## Resources -/

/-- How the end of a payload is told: by the end of the stream, or in chunks. -/
inductive Framing (w : Nat) where
  | whole (payload : Bytes)
  | chunked (chunks : List (Chunk w)) (lastLine trailer : Bytes)

variable {w : Nat} {σ : Type}

def Framing.wire : Framing w → Bytes
  | .whole payload => payload
  | .chunked chunks lastLine trailer => chunksWire chunks lastLine trailer

def Framing.payload : Framing w → Bytes
  | .whole payload => payload
  | .chunked chunks _ _ => Core.payload chunks

def Framing.isChunked : Framing w → Bool
  | .whole _ => false
  | .chunked _ _ _ => true

/-- A resource on the wire, and its content. -/
structure Resource (w : Nat) where
  head : Bytes
  statusCode : Nat
  fields : List (String × Bytes)
  framing : Framing w
  content : Bytes

def Resource.wire (resource : Resource w) : Bytes := resource.head ++ resource.framing.wire

/-- The fields as they are parsed. -/
def Resource.headers (resource : Resource w) : List (String × Bytes) :=
  resource.fields.map fun field => (asciiLower field.1, field.2)

/-- The content under codings, the last applied first; a decoder reads up to the cap. -/
inductive Coded (decoders : TimedDecoders σ) (now : σ → Nat × σ) (deadline cap : Nat) :
    List String → Bytes → Bytes → Prop where
  | plain {content : Bytes} : Coded decoders now deadline cap [] content content
  | taken {encoding : String} {encodings : List String} {payload inner content : Bytes}
      (decodes : Triple (fun _ => True) (decodeContentTimed decoders encoding payload cap)
        (fun r _ => r = (inner.take cap, decide (cap < inner.length)))
        fun e _ => Late now deadline (.err e))
      (fits : encodings ≠ [] → inner.length ≤ cap)
      (rest : Coded decoders now deadline cap encodings inner content) :
      Coded decoders now deadline cap (encoding :: encodings) payload content

/-- The raw bytes that are left behind the head. -/
def Resource.room (resource : Resource w) (cap : Nat) : Nat :=
  cap + maxHttpResponseHeaderBytes - resource.head.length

/-- What is wanted of the payload is within the raw limit: all of it where it is coded. -/
def Framing.Within (framing : Framing w) (room cap : Nat) (encodings : List String) : Prop :=
  match framing with
  | .whole payload => encodings ≠ [] → payload.length ≤ room
  | .chunked chunks lastLine _ =>
    SizeLine w lastLine 0 ∧ needed lastLine cap chunks ≤ room ∧
      (encodings ≠ [] → (Core.payload chunks).length ≤ cap)

/-- A resource that is written as it says. -/
structure Resource.Sound (resource : Resource w) (heads : HeadLib) (decoders : TimedDecoders σ)
    (now : σ → Nat × σ) (deadline cap : Nat) : Prop where
  parses : ∀ rest, heads.parse (resource.head ++ rest) =
    .ok (.complete resource.head.length (some resource.statusCode) resource.fields)
  short : resource.head.length ≤ maxHttpResponseHeaderBytes
  framed : headerContainsToken resource.headers "transfer-encoding" "chunked" =
    resource.framing.isChunked
  within : resource.framing.Within (resource.room cap) cap (contentEncodings resource.headers)
  coded : Coded decoders now deadline cap (contentEncodings resource.headers).reverse
    resource.framing.payload resource.content

/-- The reply that a resource makes, up to the cap. -/
def Resource.reply (resource : Resource w) (cap : Nat) : Reply where
  statusCode := resource.statusCode
  headers := resource.headers
  body := resource.content.take cap
  bodyTruncated :=
    decide (cap + maxHttpResponseHeaderBytes < resource.wire.length) ||
      decide (cap < resource.content.length)

/-! ## Bodies -/

variable {decoders : TimedDecoders σ} {now : σ → Nat × σ} {deadline cap : Nat}

/-- An error of the outside, or of the deadline. -/
inductive Broken (stream : Duplex IoError σ) (deadline : Nat) : Stop Error → σ → Prop where
  | late {e s} (h : Late stream.now deadline e) : Broken stream deadline e s
  | write {bytes s e s'} (h : stream.write bytes s = .error e s') :
      Broken stream deadline (streamError e) s'
  | flush {s e s'} (h : stream.flush s = .error e s') : Broken stream deadline (streamError e) s'
  | read {room s₀ e s' s} (h : stream.read room s₀ = .error e s') :
      Broken stream deadline (streamError e) s

variable {stream : Duplex IoError σ} {left : σ → Seq UInt8} {sent : σ → Bytes}
  {replies : Bytes → Bytes → Prop}

end Basecrawl.Core
