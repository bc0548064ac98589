/-
  What a scrape touches: errors, events, and the world it runs in.

  The outside (origins, resolvers, the clock, Chromium, the solver) is an arbitrary state `σ`
  that only the programs given as parameters act on.  Beside it the world keeps the policy hops
  that a scrape's document policy records, and a log of the events the properties speak about.
  No function of the engine reads the log.
-/
import Basecrawl.Lib.Json
import Basecrawl.Lib.Run
import Basecrawl.Core.Proof
import Basecrawl.Core.Url

namespace Basecrawl.Core

open Run

/-! ## Errors -/

/-- Why structured extraction was refused. -/
inductive ExtractRefuseReason where
  | providerNotConfigured
  | extractorNotAvailable
  | providerCallFailed
deriving DecidableEq

/-- A recoverable failure while validating input or performing a scrape. -/
inductive Error where
  | missingUrl
  | invalidUrl (url : String)
  | unsupportedScheme (scheme : String)
  | unknownFormat (invalid supported : String)
  | unsupportedOutput (output : String)
  | structuredExtractionUnsupported (reason : ExtractRefuseReason)
  | invalidJsonSchema (detail : String)
  | invalidHeader (name : String)
  | unsupportedMethod (method : String)
  | postNotSupportedOnHardPath
  | invalidProductOption (detail : String)
  | invalidViewport (viewport : String)
  | invalidActions (detail : String)
  | invalidProxy (detail : String)
  | proxyClassUnavailable (required detail : String)
  | proxyConnect (status : Option Nat) (kind detail : String)
  | residentialConcurrency (detail : String)
  | hardPath (detail : String)
  | tlsImpersonate (detail : String)
  | challengeBlocked (statusCode : Nat) (detail : String)
  | solver (kind detail : String) (statusCode : Option Nat)
  | robotsDenied (decision : Json.Tree)
  | timeout (detail : String)
  | transport (detail : String)
  | certificateValidation (detail : String)
  | tlsCapture (detail : String)
  | tlsVersionUnsupported (negotiatedVersion : String)
  | tooManyRedirects (max : Nat) (url : String)
  | redirect (detail : String)
  | fetch (detail : String)
  | render (detail : String)
  | dnsIsolation (detail : String)
  | resourceBudgetExceeded
  | documentExtraction (detail : String)
  | egressMetadata (detail : String)
  | attestation (detail : String)
  | enclaveSignature (detail : String)
  | io (detail : String)

/-! ## Requests and events -/

/-- A request as `build_http_request` writes it: the request line, the field lines by where they
    come from, the body.  `url` is the hop it is written for. -/
structure HttpRequest where
  url : Url
  method : String
  target : String
  hostHeader : String
  callerFields : List (String × String)
  userAgent : Option String
  contentType : Option String
  contentLength : Option Nat
  body : Bytes
deriving DecidableEq

/-- A hop's response, with the evidence captured on the connection that carried it. -/
structure Served where
  url : Url
  statusCode : Nat
  headersHash : String
  body : Bytes
  tls : Option Tls
deriving DecidableEq

/-- Why Chromium was launched. -/
inductive Launch where
  | render
  | screenshot
deriving DecidableEq

/-- A page's document: what was served, decoded, and the source it was read from, which is the
    rendered DOM where there is one. -/
structure Document where
  isHtml : Bool
  body : String
  source : String
  statusCode : Nat
deriving DecidableEq

/-- A page whose HTML contributed to the result, and whether a solver token was applied to it. -/
structure Page where
  html : String
  statusCode : Nat
  tokenApplied : Bool
deriving DecidableEq

/-- What happened. -/
inductive Event where
  /-- The document policy let the request to this URL through. -/
  | approved (url : Url)
  /-- A request was written to a connection. -/
  | transmit (request : HttpRequest)
  /-- A response was read from a connection. -/
  | served (hop : Served)
  /-- The document of a page was fetched, and rendered where it was to be. -/
  | document (document : Document)
  /-- A next link is about to be fetched. -/
  | followed (next : Url)
  /-- Chromium was launched. -/
  | launch (kind : Launch)
  /-- A page's HTML went into the result. -/
  | surfaced (page : Page)
deriving DecidableEq

/-- The events of a fetch. -/
def Event.isWire : Event → Bool
  | .approved _ | .transmit _ | .served _ => true
  | .document _ | .followed _ | .launch _ | .surfaced _ => false

/-! ## Robots decisions -/

/-- Configured handling for an origin's `robots.txt` policy. -/
inductive RobotsPolicy where
  | enforce
  | observe
  | ignore
deriving DecidableEq

/-- The most-specific robots rule that matched a target path. -/
structure MatchedRule where
  directive : String
  path : String
deriving DecidableEq

/-- A decision made for the requested path from the origin's robots policy. -/
structure RobotsDecision where
  policy : RobotsPolicy
  fetched : Bool
  statusCode : Option Nat
  robotsUrl : String
  disposition : String
  matchedRule : Option MatchedRule
  sitemapUrls : List Url
deriving DecidableEq

/-- A policy decision made before transmitting a top-level document request. -/
structure DocumentHop where
  targetUrl : String
  decision : RobotsDecision
deriving DecidableEq

/-! ## The world -/

/-- The environment variables of the process. -/
abbrev Env := String → Option String

/-- The outside, the recorded policy hops, and the log. -/
structure World (σ : Type) where
  outside : σ
  hops : List DocumentHop
  trace : List Event

/-- A program of the engine. -/
abbrev Prog (σ α : Type) := EStateM Error (World σ) α

/-- A program of the outside. -/
abbrev Outside (σ α : Type) := EStateM Error σ α

variable {σ α : Type}

/-- Run a program of the outside. -/
def outside (x : Outside σ α) : Prog σ α := fun w =>
  match x w.outside with
  | .ok a s => .ok a { w with outside := s }
  | .error e s => .error e { w with outside := s }

/-- Read something off the outside. -/
def observe (f : σ → α) : Prog σ α := fun w => .ok (f w.outside) w

/-- Log an event. -/
def note (e : Event) : Prog σ Unit := update fun w => { w with trace := w.trace ++ [e] }

@[simp] theorem trace_final_outside {x : Outside σ α} {w : World σ} :
    (final (outside x w)).trace = w.trace := by
  unfold outside
  split <;> rfl

theorem emitsOnly_outside {x : Outside σ α} {p : Event → Prop} :
    EmitsOnly World.trace p (outside x) :=
  emitsOnly_of_log_eq fun _ => trace_final_outside

theorem emitsOnly_observe {f : σ → α} {p : Event → Prop} : EmitsOnly World.trace p (observe f) :=
  emitsOnly_of_log_eq fun _ => rfl

theorem emitsOnly_note {e : Event} {p : Event → Prop} (h : p e) :
    EmitsOnly World.trace p (note e : Prog σ Unit) :=
  fun _ => ⟨[e], rfl, fun _ he => List.mem_singleton.mp he ▸ h⟩

section Rules

variable {β : Type} {Ψ : Except Error β → List Event → Prop}

/-- The outside answers anything and emits nothing. -/
theorem emits_outside_bind {x : Outside σ α} {f : α → Prog σ β} (herror : ∀ e, Ψ (.error e) [])
    (hf : ∀ a, Emits World.trace (f a) Ψ) : Emits World.trace (outside x >>= f) Ψ := by
  have hx : Emits World.trace (outside x) fun _ es => es = [] :=
    fun _ => ⟨[], by rw [trace_final_outside, List.append_nil], rfl⟩
  refine hx.bind ?_ ?_
  · rintro e es rfl
    exact herror e
  · rintro a es rfl
    exact hf a

theorem emits_note_bind {e : Event} {f : Unit → Prog σ β}
    (hf : Emits World.trace (f ()) fun r es => Ψ r (e :: es)) :
    Emits World.trace (note e >>= f) Ψ := by
  have hx : Emits World.trace (note e : Prog σ Unit) fun r es => es = [e] ∧ r = .ok () :=
    fun _ => ⟨[e], rfl, rfl, rfl⟩
  refine hx.bind ?_ ?_
  · rintro e' es ⟨-, h⟩
    cases h
  · rintro u es ⟨rfl, -⟩
    exact hf

theorem emits_observe_bind {g : σ → α} {f : α → Prog σ β} (hf : ∀ a, Emits World.trace (f a) Ψ) :
    Emits World.trace (observe g >>= f) Ψ := by
  have hx : Emits World.trace (observe g) fun r es => es = [] ∧ ∃ a, r = .ok a :=
    fun _ => ⟨[], (List.append_nil _).symm, rfl, _, rfl⟩
  refine hx.bind ?_ ?_
  · rintro e es ⟨-, a, h⟩
    cases h
  · rintro a es ⟨rfl, -⟩
    exact hf a

end Rules

end Basecrawl.Core
