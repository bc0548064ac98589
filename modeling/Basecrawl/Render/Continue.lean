/-
  The headers of a browser continuation.

  Chromium pauses every request it is about to make.  The guard resumes it with a header list of
  its own: what Chromium put there, less every field the caller controls, and the caller's fields
  again only on the origin they were given for.  Chromium may have copied caller fields into the
  paused request already, so the first half matters as much as the second.
-/
import Basecrawl.Lib.Json
import Basecrawl.Core.Url

namespace Basecrawl.Render

open Text Basecrawl.Core

/-! ## Origins -/

/-- `RenderOrigin`. -/
structure RenderOrigin where
  scheme : String
  host : String
  port : Nat
deriving DecidableEq

/-- The scheme, host and effective port of a URL. -/
def renderOrigin (url : Url) : Option RenderOrigin := do
  let host ← url.host
  let port ← url.portOrKnownDefault
  pure { scheme := asciiLower url.scheme, host := asciiLower host, port }

/-- `origin_for_url`. -/
def originForUrl (lib : UrlLib) (rawUrl : String) : Option RenderOrigin :=
  match lib.parse rawUrl with
  | .ok url => renderOrigin url
  | .error _ => none

/-- `same_origin_url`. -/
def sameOriginUrl (lib : UrlLib) (rawUrl : String) (credentialOrigin : Url) : Bool :=
  match originForUrl lib rawUrl with
  | some requestOrigin =>
      match originForUrl lib credentialOrigin.toString with
      | some origin => requestOrigin == origin
      | none => false
  | none => false

/-- The request URL has an origin, and it is the one the credentials were given for. -/
def SameOriginUrl (lib : UrlLib) (rawUrl : String) (credentialOrigin : Url) : Prop :=
  ∃ origin, originForUrl lib rawUrl = some origin ∧
    originForUrl lib credentialOrigin.toString = some origin

/-- `Fetch::HeaderEntry`. -/
structure HeaderEntry where
  name : String
  value : String
deriving DecidableEq

/-- `Fetch::events::RequestPausedEvent`, as far as a continuation reads it. -/
structure RequestPaused where
  requestId : String
  url : String
  headers : Option Json.Value

/-- `Fetch::ContinueRequest`. -/
structure ContinueRequest where
  requestId : String
  url : Option String := none
  method : Option String := none
  postData : Option String := none
  headers : Option (List HeaderEntry)
  interceptResponse : Option Bool := none
deriving DecidableEq

/-- The fields Chromium put into the paused request; `display` writes a value that is no text. -/
def browserHeaders (display : Json.Tree → String) (paused : RequestPaused) : List HeaderEntry :=
  match paused.headers.bind Json.Value.asObject with
  | some headers =>
      headers.members.map fun member =>
        { name := member.1, value := member.2.asStr.getD (display member.2) }
  | none => []

/-- The caller's fields as header entries. -/
def callerEntries (effectiveHeaders : List (String × String)) : List HeaderEntry :=
  effectiveHeaders.map fun header => { name := header.1, value := header.2 }

/-- A field the guard takes out of the paused request.  Off the credential origin a caller's
    `user-agent` leaves Chromium's own in place. -/
def displaced (effectiveHeaders : List (String × String)) (isSameOrigin : Bool)
    (header : HeaderEntry) : Bool :=
  effectiveHeaders.any fun caller =>
    eqIgnoreAsciiCase header.name caller.1 &&
      (isSameOrigin || !eqIgnoreAsciiCase caller.1 "user-agent")

/-- `effective_continue_request`. -/
def effectiveContinueRequest (lib : UrlLib) (display : Json.Tree → String)
    (paused : RequestPaused) (effectiveHeaders : List (String × String))
    (credentialOrigin : Url) : ContinueRequest :=
  let isSameOrigin := sameOriginUrl lib paused.url credentialOrigin
  let headers := (browserHeaders display paused).filter fun header =>
    !displaced effectiveHeaders isSameOrigin header
  let headers := if isSameOrigin then headers ++ callerEntries effectiveHeaders else headers
  { requestId := paused.requestId, headers := some headers }

/-! ## Caller names -/

section
variable {lib : UrlLib} {display : Json.Tree → String} {paused : RequestPaused}
variable {callers : List (String × String)} {credentialOrigin : Url}

end

end Basecrawl.Render
