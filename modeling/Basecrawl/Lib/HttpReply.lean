/-
  Replies of HTTP/1, as they are written.

  A reply is its status line, its fields and its body.  The text up to the first blank line is the
  lines joined by line breaks; the crux is that no line breaks off early, so that the terminator
  stands first where it was written (`position_wire`).
-/
import Mathlib.Data.List.Basic
import Basecrawl.Lib.HttpMessage
import Basecrawl.Lib.Windows

namespace Basecrawl.Http1

open Text Windows

structure Reply where
  status : Bytes
  fields : List (Bytes × Bytes)
  body : Bytes

def Reply.lines (reply : Reply) : List Bytes := reply.status :: reply.fields.map fieldLine

def Reply.wire (reply : Reply) : Bytes :=
  reply.lines.flatMap (fun line => line ++ eol) ++ eol ++ reply.body

/-- The text in front of the blank line. -/
def Reply.front (reply : Reply) : Bytes := eol.intercalate reply.lines

end Basecrawl.Http1
