/-
  What a response is, and what may be shown of it.
-/
import Basecrawl.Lib.Text

namespace Basecrawl.Core

open Text

/-! ## Classification -/

/-- The document parser selected by the response media type. -/
inductive DocumentKind where
  | pdf
  | office
deriving DecidableEq

/-- The representation safe to produce from a response body. -/
inductive ContentKind where
  | html
  | text
  | document (kind : DocumentKind)
  | binary
deriving DecidableEq

/-- OOXML and OpenDocument packages. -/
def officeTypes : List String :=
  ["application/vnd.openxmlformats-officedocument.wordprocessingml.document",
    "application/vnd.openxmlformats-officedocument.wordprocessingml.template",
    "application/vnd.openxmlformats-officedocument.presentationml.presentation",
    "application/vnd.openxmlformats-officedocument.presentationml.template",
    "application/vnd.openxmlformats-officedocument.spreadsheetml.sheet",
    "application/vnd.openxmlformats-officedocument.spreadsheetml.template",
    "application/vnd.oasis.opendocument.text",
    "application/vnd.oasis.opendocument.presentation",
    "application/vnd.oasis.opendocument.spreadsheet"]

/-- Textual types outside `text/`. -/
def textTypes : List String :=
  ["application/json", "application/xml", "application/javascript", "application/ecmascript",
    "application/sql", "application/graphql"]

/-- Whether a media type is surfaced as text. -/
def isTextType (mediaType : String) : Bool :=
  (stripPrefix mediaType "text/").isSome || "+json".toList.isSuffixOf mediaType.toList ||
    "+xml".toList.isSuffixOf mediaType.toList || textTypes.contains mediaType

/-- `classify`: the header alone decides; without one the response counts as HTML. -/
def classify (contentType : Option String) : ContentKind :=
  match contentType with
  | none => .html
  | some contentType =>
      let mediaType := asciiLower (trim ((split contentType ';').headD ""))
      if mediaType = "text/html" ∨ mediaType = "application/xhtml+xml" then .html
      else if mediaType = "application/pdf" then .document .pdf
      else if officeTypes.contains mediaType then .document .office
      else if isTextType mediaType then .text
      else .binary

example : classify (some "Text/HTML; charset=utf-8") = .html := by decide

example : classify (some "application/ld+json") = .text := by decide

/-! ## Redaction -/

/-- `is_sensitive_request_header`. -/
def isSensitiveRequestHeader (name : String) : Bool :=
  eqIgnoreAsciiCase name "authorization" || eqIgnoreAsciiCase name "proxy-authorization" ||
    eqIgnoreAsciiCase name "cookie" || eqIgnoreAsciiCase name "set-cookie"

/-- `sensitive_header_components`. -/
def sensitiveHeaderComponents (name value : String) : List String :=
  if eqIgnoreAsciiCase name "authorization" || eqIgnoreAsciiCase name "proxy-authorization" then
    (splitWhitespace value).drop 1
  else
    ((split value ';').filterMap fun cookie =>
      (splitOnce (trim cookie) '=').map fun pair => trim pair.2).filter (· != "")

/-- Replace one secret that is not empty. -/
def redactSecret (body secret : String) : String :=
  if secret = "" then body else replace body secret "<redacted>"

/-- One header: its value, and the credentials inside a sensitive one. -/
def redactHeader (body : String) (header : String × String) : String :=
  let body := redactSecret body header.2
  if isSensitiveRequestHeader header.1 then
    (sensitiveHeaderComponents header.1 header.2).foldl redactSecret body
  else body

/-- `redact_sensitive_request_echoes`. -/
def redactSensitiveRequestEchoes (body : String) (headers : List (String × String)) : String :=
  headers.foldl redactHeader body

example :
    redactSensitiveRequestEchoes "you sent abc and Bearer abc" [("Authorization", "Bearer abc")] =
      "you sent <redacted> and <redacted>" := by decide

end Basecrawl.Core
