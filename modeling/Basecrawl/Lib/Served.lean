/-
  Streams to a server.

  A client writes, flushes, and reads what the server says of what it was sent.  `Serves` is the
  contract of a stream and the server behind it: what was written is what the server gets, in
  whatever pieces, and its reply is what is read, in whatever pieces.  `replaying` is one that keeps
  it.
-/
import Basecrawl.Lib.Triple

namespace Basecrawl.Run

open Text Reading
open Stream' (Seq)

variable {ι ε σ : Type}

/-- A stream that is open, and the clock. -/
structure Duplex (ι σ : Type) where
  now : σ → Nat × σ
  write : Bytes → EStateM ι σ Unit
  flush : EStateM ι σ Unit
  read : Reader ι σ

variable {stream : Duplex ι σ} {left : σ → Seq UInt8} {sent : σ → Bytes}
  {replies : Bytes → Bytes → Prop} {E : ε → σ → Prop} {f : ι → ε}

/-- A stream to a server that answers what it is sent, in pieces. -/
structure Replay where
  clock : Nat
  sent : Bytes
  pending : Bytes

def replaying (answer : Bytes → Bytes) (piece : Nat) : Duplex ι Replay where
  now := fun s => (s.clock, { s with clock := s.clock + 1 })
  write := fun bytes s => .ok () { s with sent := s.sent ++ bytes }
  flush := fun s => .ok () { s with pending := answer s.sent }
  read := fun room s =>
    .ok ⟨s.pending.take (min room (piece + 1)), by
      rw [List.length_take]
      exact (Nat.min_le_left _ _).trans (Nat.min_le_left _ _)⟩
      { s with pending := s.pending.drop (min room (piece + 1)) }

end Basecrawl.Run
