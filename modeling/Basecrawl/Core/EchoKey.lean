/-
  The enclave key: what it signs, and what a verified RTT echo says.

  The key that signs proofs also signs the nonces of whoever probes the echo endpoint, so nonces are
  chosen by strangers.

  1. **The guest agent** — `sign_at` submits a payload and checks the shape of the answer; `Agent`
     records what was submitted.
  2. **Signing** — `GuestAgentEchoSigner` behind the endpoint, which is the plain endpoint with the
     signer as it answers (`handleConnection_eq`).
  3. **Verifying** — `verify_echo_response`, and when it accepts (`verifyEchoResponse_eq_ok`).
  4. **Submissions** — what a connection and what an attestation submit, whatever the agent answers.
  5. **Apart** — the three kinds of payloads start differently (`echo_ne_keyProbe`,
     `echo_ne_json`), so an echo is no proof and a proof no echo.
-/
import Basecrawl.Core.Attested
import Basecrawl.Core.EchoProbe
import Basecrawl.Core.Path
import Mathlib.Algebra.Order.Ring.Rat

namespace Basecrawl.Core.RttEcho

open Text Hex Outcome Run

/-! ## The guest agent -/

/-- `ed25519_dalek`: which bytes are a key, and whether a signature of a message is the key's. -/
structure Ed25519 where
  keyFromBytes : Bytes → Bool
  verify : Bytes → Bytes → Bytes → Bool

/-- `SignRequestError`; what goes wrong on the socket is told in words. -/
inductive SignRequestError where
  | emptyPayload
  | invalidField (name : String)
  | request (detail : String)
deriving DecidableEq

def SignRequestError.display : SignRequestError → String
  | .emptyPayload => "dstack signing payload is empty"
  | .invalidField name => "dstack signing endpoint returned an invalid field: " ++ name
  | .request detail => detail

/-- `validate_sign_response`. -/
def validateSignResponse (ed : Ed25519) (response : SignResponse) :
    Except SignRequestError SignResponse := do
  require (response.signature ≠ "") (.invalidField "signature")
  require (response.publicKey ≠ "") (.invalidField "public_key")
  let signature ← okOr (Attestation.decodeHex response.signature) (.invalidField "signature")
  require (signature.length = 64) (.invalidField "signature")
  let publicKey ← okOr (Attestation.decodeHex response.publicKey) (.invalidField "public_key")
  require (publicKey.length = 32) (.invalidField "public_key")
  require (ed.keyFromBytes publicKey) (.invalidField "public_key")
  return ⟨asciiLower response.publicKey, asciiLower response.signature⟩

/-- `verify_signature`. -/
def verifySignature (ed : Ed25519) (publicKeyHex signatureHex : String) (message : Bytes) :
    Except SignRequestError Unit := do
  let publicKey ← okOr (Attestation.decodeHex publicKeyHex) (.invalidField "public_key")
  let signature ← okOr (Attestation.decodeHex signatureHex) (.invalidField "signature")
  require (publicKey.length = 32) (.invalidField "public_key")
  require (signature.length = 64) (.invalidField "signature")
  require (ed.keyFromBytes publicKey) (.invalidField "public_key")
  require (ed.verify publicKey message signature) (.invalidField "signature")

/-- The guest agent behind its socket, with the payloads it was given to sign, in order. -/
structure Agent (τ : Type) where
  outside : τ
  submitted : List Bytes

variable {τ : Type}

/-- A step of the outside that submits nothing. -/
def quiet {ε α : Type} (x : EStateM ε τ α) : EStateM ε (Agent τ) α := fun s =>
  match x s.outside with
  | .ok a t => .ok a { s with outside := t }
  | .error e t => .error e { s with outside := t }

/-- One request to `/Sign`, up to the response it parsed. -/
def submit (answer : Bytes → EStateM SignRequestError τ SignResponse) (payload : Bytes) :
    EStateM SignRequestError (Agent τ) SignResponse := do
  update fun s => { s with submitted := s.submitted ++ [payload] }
  quiet (answer payload)

/-- `sign_at`. -/
def signAt (ed : Ed25519) (answer : Bytes → EStateM SignRequestError τ SignResponse)
    (payload : Bytes) : EStateM SignRequestError (Agent τ) SignResponse := do
  ofResult (require (payload ≠ []) .emptyPayload)
  let response ← submit answer payload
  ofResult (validateSignResponse ed response)

/-- The payload that is signed for the sake of its key. -/
def keyProbe : Bytes := utf8 "basecrawl/enclave-signing-key/v1"

/-- `sign_at` and `get_quote` as a scrape meets them. -/
def guestHost (ed : Ed25519) (answer : Bytes → EStateM SignRequestError τ SignResponse)
    (quote : String → Outside τ QuoteResponse) (host : Host (Agent τ)) : Host (Agent τ) :=
  { host with
    signAt := fun payload s =>
      match signAt ed answer payload s with
      | .ok response s => .ok response s
      | .error e s => .error (.attestation ("guest-agent signing request failed: " ++ e.display)) s
    getQuote := fun reportData => quiet (quote reportData) }

/-! ## Signing -/

/-- `GuestAgentEchoSigner`, with the agent it asks. -/
structure GuestAgentEchoSigner (τ : Type) where
  agent : Agent τ
  cachedPubkey : Option String

/-- Ask the agent; the mutex around the key is taken for each of the two steps. -/
def GuestAgentEchoSigner.ask (ed : Ed25519)
    (answer : Bytes → EStateM SignRequestError τ SignResponse) (payload : Bytes) :
    EStateM EchoSignError (GuestAgentEchoSigner τ) SignResponse := fun s =>
  match signAt ed answer payload s.agent with
  | .ok response agent => .ok response ⟨agent, some response.publicKey⟩
  | .error e agent => .error (.guestAgent e.display) { s with agent := agent }

/-- `public_key_hex`. -/
def GuestAgentEchoSigner.publicKeyHex (ed : Ed25519)
    (answer : Bytes → EStateM SignRequestError τ SignResponse) :
    EStateM EchoSignError (GuestAgentEchoSigner τ) String := do
  match (← get).cachedPubkey with
  | some key => pure key
  | none =>
    match ← attempt (GuestAgentEchoSigner.ask ed answer keyProbe) with
    | .ok response => pure response.publicKey
    | .error _ => pure ""

/-- `sign_echo_payload`. -/
def GuestAgentEchoSigner.signEchoPayload (ed : Ed25519)
    (answer : Bytes → EStateM SignRequestError τ SignResponse) (payload : Bytes) :
    EStateM EchoSignError (GuestAgentEchoSigner τ) String := do
  let response ← GuestAgentEchoSigner.ask ed answer payload
  return response.signature

/-- `sign_echo_with` on that signer. -/
def GuestAgentEchoSigner.signEchoWith (ed : Ed25519)
    (answer : Bytes → EStateM SignRequestError τ SignResponse) (nonce : String) :
    EStateM EchoSignError (GuestAgentEchoSigner τ) EchoResponse := do
  if nonce = "" then throw .emptyPayload
  else
    let signature ← GuestAgentEchoSigner.signEchoPayload ed answer (echoSigningPayload nonce)
    let key ← GuestAgentEchoSigner.publicKeyHex ed answer
    return ⟨nonce, signature, some key⟩

/-- `handle_http_connection` on that signer. -/
def handleConnection (json : SerdeJson) (ed : Ed25519)
    (answer : Bytes → EStateM SignRequestError τ SignResponse) (read : Bytes) :
    EStateM EchoSignError (GuestAgentEchoSigner τ) Bytes := do
  let target := splitTarget (requestTarget (fromUtf8Lossy read))
  if trimEndSlashes target.1 ≠ "/echo" then
    return writeHttp 404 "application/json" (utf8 "\x7b\"error\":\"not_found\"\x7d")
  else if queryNonce target.2 = "" then
    return writeHttp 400 "application/json" (utf8 "\x7b\"error\":\"missing_nonce\"\x7d")
  else
    match ← attempt (GuestAgentEchoSigner.signEchoWith ed answer (queryNonce target.2)) with
    | .ok response =>
      return writeHttp 200 "application/json"
        ((json.toVec response.members).getD (utf8 "\x7b\"error\":\"serialize\"\x7d"))
    | .error _ =>
      return writeHttp 500 "application/json" (utf8 "\x7b\"error\":\"sign_failed\"\x7d")

/-- `LocalEchoSigner`, with its key pair. -/
def localEchoSigner (publicKey : Bytes) (sign : Bytes → Bytes) : EchoSigner where
  publicKeyHex := hexEncode publicKey
  signEchoPayload payload := do
    require (payload ≠ []) .emptyPayload
    return hexEncode (sign payload)

theorem echoSigningPayload_ne (nonce : String) : echoSigningPayload nonce ≠ [] := by
  intro h
  have htag : rttEchoDomainTag = [] := (List.append_eq_nil_iff.mp h).1
  exact absurd htag (by decide)

theorem signEchoPayload_eq (ed : Ed25519)
    (answer : Bytes → EStateM SignRequestError τ SignResponse) (payload : Bytes)
    (s : GuestAgentEchoSigner τ) :
    GuestAgentEchoSigner.signEchoPayload ed answer payload s =
      match signAt ed answer payload s.agent with
      | .ok response agent => .ok response.signature ⟨agent, some response.publicKey⟩
      | .error e agent => .error (.guestAgent e.display) { s with agent := agent } := by
  unfold GuestAgentEchoSigner.signEchoPayload
  rw [bind_apply]
  unfold GuestAgentEchoSigner.ask
  cases signAt ed answer payload s.agent with
  | error e agent => rfl
  | ok response agent => rfl

/-- Signing a nonce asks the agent once: by then the key is known. -/
theorem signEchoWith_eq (ed : Ed25519)
    (answer : Bytes → EStateM SignRequestError τ SignResponse) {nonce : String} (hne : nonce ≠ "")
    (s : GuestAgentEchoSigner τ) :
    GuestAgentEchoSigner.signEchoWith ed answer nonce s =
      match signAt ed answer (echoSigningPayload nonce) s.agent with
      | .ok response agent =>
        .ok ⟨nonce, response.signature, some response.publicKey⟩ ⟨agent, some response.publicKey⟩
      | .error e agent => .error (.guestAgent e.display) { s with agent := agent } := by
  unfold GuestAgentEchoSigner.signEchoWith GuestAgentEchoSigner.signEchoPayload
  rw [if_neg hne, bind_assoc, bind_apply]
  unfold GuestAgentEchoSigner.ask
  cases signAt ed answer (echoSigningPayload nonce) s.agent with
  | error e agent => rfl
  | ok response agent => rfl

/-- The signer of the plain endpoint that answers like the agent does. -/
def agentSigner (ed : Ed25519) (answer : Bytes → EStateM SignRequestError τ SignResponse)
    (s : GuestAgentEchoSigner τ) (nonce : String) : EchoSigner where
  publicKeyHex :=
    match signAt ed answer (echoSigningPayload nonce) s.agent with
    | .ok response _ => response.publicKey
    | .error _ _ => ""
  signEchoPayload payload := outcome (GuestAgentEchoSigner.signEchoPayload ed answer payload s)

theorem signEchoWith_agentSigner (ed : Ed25519)
    (answer : Bytes → EStateM SignRequestError τ SignResponse) {nonce : String} (hne : nonce ≠ "")
    (s : GuestAgentEchoSigner τ) :
    outcome (GuestAgentEchoSigner.signEchoWith ed answer nonce s) =
      signEchoWith (agentSigner ed answer s nonce) nonce := by
  have hpayload := congrArg outcome (signEchoPayload_eq ed answer (echoSigningPayload nonce) s)
  have hasked : (agentSigner ed answer s nonce).signEchoPayload (echoSigningPayload nonce) = _ :=
    hpayload
  rw [signEchoWith_eq ed answer hne, signEchoWith, if_neg hne, hasked]
  unfold agentSigner
  cases signAt ed answer (echoSigningPayload nonce) s.agent with
  | error e agent => rfl
  | ok response agent => rfl

/-- **The endpoint in the enclave is the plain one**, with the signer as it answers then. -/
theorem handleConnection_eq (json : SerdeJson) (ed : Ed25519)
    (answer : Bytes → EStateM SignRequestError τ SignResponse) (read : Bytes)
    (s : GuestAgentEchoSigner τ) :
    outcome (handleConnection json ed answer read s) = .ok (handleHttpConnection json
      (agentSigner ed answer s (queryNonce (splitTarget (requestTarget (fromUtf8Lossy read))).2))
      read) := by
  unfold handleConnection handleHttpConnection
  by_cases hpath : trimEndSlashes (splitTarget (requestTarget (fromUtf8Lossy read))).1 ≠ "/echo"
  · rw [if_pos hpath, if_pos hpath]
    rfl
  · rw [if_neg hpath, if_neg hpath]
    by_cases hnonce : queryNonce (splitTarget (requestTarget (fromUtf8Lossy read))).2 = ""
    · rw [if_pos hnonce, if_pos hnonce]
      rfl
    · rw [if_neg hnonce, if_neg hnonce, bind_apply, ← signEchoWith_agentSigner ed answer hnonce]
      unfold attempt
      cases GuestAgentEchoSigner.signEchoWith ed answer
          (queryNonce (splitTarget (requestTarget (fromUtf8Lossy read))).2) s with
      | ok response s' => rfl
      | error e s' => rfl

/-! ## Verifying -/

/-- `EchoValidationFailure`. -/
inductive EchoValidationFailure where
  | nonceMismatch
  | missingSignature
  | missingPubkey
  | pubkeyMismatch
  | invalidSignature
  | malformedPubkey
  | malformedSignature
  | emptyResponse
deriving DecidableEq

/-- `decode_hex`, which takes white space around the digits. -/
def decodeHex (hex : String) : Option Bytes :=
  if (utf8 (trim hex)).length % 2 ≠ 0 then none else hexBytes (utf8 (trim hex))

/-- `decode_hex_32` and `decode_hex_64`. -/
def decodeHexN (n : Nat) (hex : String) : Option Bytes := do
  let bytes ← decodeHex hex
  if bytes.length ≠ n then none else some bytes

def decodeHex32 : String → Option Bytes := decodeHexN 32

def decodeHex64 : String → Option Bytes := decodeHexN 64

/-- `verify_echo_response`. -/
def verifyEchoResponse (ed : Ed25519) (response : EchoResponse) (attestedEnclavePubkeyHex : String)
    (expectedNonce : String) : Except EchoValidationFailure Unit := do
  require (!(decide (expectedNonce = "") || decide (response.nonce = ""))) .emptyResponse
  require (response.nonce = expectedNonce) .nonceMismatch
  require (response.signature ≠ "") .missingSignature
  let responsePk ← okOr response.enclavePubkey .missingPubkey
  require (eqIgnoreAsciiCase responsePk attestedEnclavePubkeyHex) .pubkeyMismatch
  let publicKey ← okOr (decodeHex32 attestedEnclavePubkeyHex) .malformedPubkey
  let signature ← okOr (decodeHex64 response.signature) .malformedSignature
  require (ed.keyFromBytes publicKey) .malformedPubkey
  require (ed.verify publicKey (echoSigningPayload expectedNonce) signature) .invalidSignature

/-- `accept_echo_for_rtt`, over exact times. -/
def acceptEchoForRtt (ed : Ed25519) (response : EchoResponse) (attestedEnclavePubkeyHex : String)
    (expectedNonce : String) (measuredRttMs : ℚ) : Except EchoValidationFailure ℚ := do
  verifyEchoResponse ed response attestedEnclavePubkeyHex expectedNonce
  return if measuredRttMs < 0 then 0 else measuredRttMs

/-- When an echo is accepted. -/
structure Verified (ed : Ed25519) (response : EchoResponse) (attested expectedNonce : String) :
    Prop where
  fresh : expectedNonce ≠ ""
  nonce : response.nonce = expectedNonce
  key : ∃ responsePk, response.enclavePubkey = some responsePk ∧
    eqIgnoreAsciiCase responsePk attested = true
  signed : ∃ publicKey signature, decodeHex32 attested = some publicKey ∧
    decodeHex64 response.signature = some signature ∧ ed.keyFromBytes publicKey = true ∧
    ed.verify publicKey (echoSigningPayload expectedNonce) signature = true

theorem decodeHexN_eq_some {n : Nat} {hex : String} {bytes : Bytes} :
    decodeHexN n hex = some bytes ↔ decodeHex hex = some bytes ∧ bytes.length = n := by
  unfold decodeHexN
  cases decodeHex hex with
  | none =>
    constructor
    · intro h
      cases h
    · rintro ⟨h, -⟩
      cases h
  | some decoded =>
    show (if decoded.length ≠ n then none else some decoded) = some bytes ↔ _
    split
    · next hlen =>
      constructor
      · intro h
        cases h
      · rintro ⟨h, hn⟩
        cases h
        exact absurd hn hlen
    · next hlen =>
      constructor
      · intro h
        cases h
        exact ⟨rfl, not_not.mp hlen⟩
      · rintro ⟨h, -⟩
        exact h

/-- **The echoes that are accepted.** -/
theorem verifyEchoResponse_eq_ok {ed : Ed25519} {response : EchoResponse}
    {attested expectedNonce : String} :
    verifyEchoResponse ed response attested expectedNonce = .ok () ↔
      Verified ed response attested expectedNonce := by
  unfold verifyEchoResponse
  simp only [bind_eq_ok, require_eq_ok, okOr_eq_ok, decide_eq_true_eq, Bool.not_eq_true',
    Bool.or_eq_false_iff, decide_eq_false_iff_not]
  constructor
  · rintro ⟨_, hempty, _, hnonce, _, -, key, hkey, _, hsame, publicKey, hpublic, signature,
      hsignature, _, hvalid, hverify⟩
    exact ⟨hempty.1, hnonce, ⟨key, hkey, hsame⟩,
      ⟨publicKey, signature, hpublic, hsignature, hvalid, hverify⟩⟩
  · rintro ⟨hfresh, hnonce, ⟨key, hkey, hsame⟩, publicKey, signature, hpublic, hsignature, hvalid,
      hverify⟩
    have hnamed : response.nonce ≠ "" := by
      rw [hnonce]
      exact hfresh
    have hsigned : response.signature ≠ "" := by
      intro hempty
      obtain ⟨hdecoded, hlen⟩ := decodeHexN_eq_some.mp hsignature
      rw [hempty] at hdecoded
      have hnone : decodeHex "" = some [] := by decide
      obtain rfl := Option.some.inj (hnone.symm.trans hdecoded)
      cases hlen
    exact ⟨(), ⟨hfresh, hnamed⟩, (), hnonce, (), hsigned, key, hkey, (), hsame, publicKey, hpublic,
      signature, hsignature, (), hvalid, hverify⟩

/-- Digits of either case decode to the bytes they stand for. -/
theorem decodeHexN_of_lower {text : String} {bytes : Bytes} (h : asciiLower text = hexEncode bytes) :
    decodeHexN bytes.length text = some bytes := by
  have hchars : ∀ c ∈ text.toList, c ∈ hexChars := by
    intro c hc
    refine mem_hexChars_of_toLower ?_
    have hlower : c.toLower ∈ (asciiLower text).toList := by
      rw [asciiLower, String.toList_ofList]
      exact List.mem_map_of_mem hc
    rw [h, hexEncode, String.toList_ofList] at hlower
    obtain ⟨b, -, hb⟩ := List.mem_flatMap.mp hlower
    exact mem_hexPair hb
  have htrim : trim text = text := trim_eq_self fun c hc => (hexChars_spec (hchars c hc)).2.1
  have hbytes : hexBytes (utf8 text) = some bytes := by
    rw [← hexBytes_asciiLower hchars, h, hexBytes_hexEncode]
  refine decodeHexN_eq_some.mpr ⟨?_, rfl⟩
  have heven : ¬ (utf8 text).length % 2 ≠ 0 := by
    have hlen := length_of_hexBytes hbytes
    omega
  rw [decodeHex, htrim, if_neg heven, hbytes]

theorem decodeHexN_hexEncode (bytes : Bytes) :
    decodeHexN bytes.length (hexEncode bytes) = some bytes :=
  decodeHexN_of_lower (hexEncode_spec bytes).2.2

/-- **The enclave's echo is accepted, for its nonce alone.**  Whatever the URL of the endpoint and
the rest of its query, the reply to a probe is an echo that is accepted under the attested key in
either case, with the measured time as it is unless it is negative, and for no other nonce. -/
theorem enclave_echo_accepted (json : SerdeJson) (ed : Ed25519) (publicKey : Bytes)
    (sign : Bytes → Bytes) (hkey : publicKey.length = 32) (hvalid : ed.keyFromBytes publicKey = true)
    (hsign : ∀ message, (sign message).length = 64)
    (hverify : ∀ message, ed.verify publicKey message (sign message) = true)
    (url : EchoUrl) (nonce request : String) (read : Bytes) (hecho : IsEcho url.path)
    (hrequest : probeRequest url nonce = .ok request)
    (hread : FirstRead request (probeTarget url nonce) read) (hne : nonce ≠ "") :
    ∃ response,
      handleHttpConnection json (localEchoSigner publicKey sign) read =
        writeHttp 200 "application/json"
          ((json.toVec response.members).getD (utf8 "\x7b\"error\":\"serialize\"\x7d")) ∧
      ∀ attested, asciiLower attested = hexEncode publicKey → ∀ expectedNonce rttMs accepted,
        acceptEchoForRtt ed response attested expectedNonce rttMs = .ok accepted ↔
          expectedNonce = nonce ∧ accepted = max rttMs 0 := by
  have hpayload := echoSigningPayload_ne nonce
  have hsigned : (localEchoSigner publicKey sign).signEchoPayload (echoSigningPayload nonce) =
      .ok (hexEncode (sign (echoSigningPayload nonce))) := by
    show (require (decide (echoSigningPayload nonce ≠ [])) EchoSignError.emptyPayload >>= fun _ =>
      .ok (hexEncode (sign (echoSigningPayload nonce)))) = _
    rw [decide_eq_true hpayload]
    rfl
  refine ⟨⟨nonce, hexEncode (sign (echoSigningPayload nonce)), some (hexEncode publicKey)⟩,
    handleHttpConnection_signed hne hecho hrequest hread.front hread.reached hsigned, ?_⟩
  intro attested hattested expectedNonce rttMs accepted
  have hrtt : (if rttMs < 0 then 0 else rttMs) = max rttMs 0 := by
    split
    · next hlow => exact (max_eq_right hlow.le).symm
    · next hhigh => exact (max_eq_left (not_lt.mp hhigh)).symm
  have hpublic : decodeHex32 attested = some publicKey := by
    have hdecoded := decodeHexN_of_lower hattested
    rwa [hkey] at hdecoded
  constructor
  · intro haccepted
    obtain ⟨_, hverified, hresult⟩ := bind_eq_ok.mp haccepted
    obtain rfl := Except.ok.inj hresult
    exact ⟨(verifyEchoResponse_eq_ok.mp hverified).nonce.symm, hrtt⟩
  · rintro ⟨rfl, rfl⟩
    have hdecoded := decodeHexN_hexEncode (sign (echoSigningPayload expectedNonce))
    rw [hsign] at hdecoded
    have hsame : eqIgnoreAsciiCase (hexEncode publicKey) attested = true := by
      rw [eqIgnoreAsciiCase, hattested, (hexEncode_spec publicKey).2.2]
      exact beq_self_eq_true _
    have hverified := verifyEchoResponse_eq_ok.mpr
      (⟨hne, rfl, ⟨_, rfl, hsame⟩, ⟨publicKey, _, hpublic, hdecoded, hvalid, hverify _⟩⟩ :
        Verified ed ⟨expectedNonce, hexEncode (sign (echoSigningPayload expectedNonce)),
          some (hexEncode publicKey)⟩ attested expectedNonce)
    rw [acceptEchoForRtt, hverified, ← hrtt]
    rfl

/-- A key pair: a signature is the start of its message. -/
def startKey : Bytes := List.replicate 32 0x11

def startSign (message : Bytes) : Bytes := (message ++ List.replicate 64 0).take 64

def startEd : Ed25519 where
  keyFromBytes key := key == startKey
  verify key message signature := key == startKey && signature == startSign message

theorem startSign_length (message : Bytes) : (startSign message).length = 64 := by
  rw [startSign, List.length_take, List.length_append, List.length_replicate]
  omega

theorem startEd_verify (message : Bytes) :
    startEd.verify startKey message (startSign message) = true := by
  show (startKey == startKey && startSign message == startSign message) = true
  rw [beq_self_eq_true, beq_self_eq_true]
  rfl

/-- The echo of a local probe is accepted; a time before the probe counts as none. -/
theorem enclave_echo_accepted_local : ∃ response,
    handleHttpConnection flatJson (localEchoSigner startKey startSign)
        (utf8 (localRequest "n+1")) = writeHttp 200 "application/json"
      ((flatJson.toVec response.members).getD (utf8 "\x7b\"error\":\"serialize\"\x7d")) ∧
    acceptEchoForRtt startEd response (hexEncode startKey) "n+1" (-1) = .ok 0 := by
  obtain ⟨response, hreply, haccepted⟩ := enclave_echo_accepted flatJson startEd startKey startSign
    rfl (by decide) startSign_length startEd_verify localEcho "n+1" _ _ isEcho_localEcho
    (probeRequest_local _) firstRead_local (by decide)
  exact ⟨response, hreply, (haccepted _ (hexEncode_spec startKey).2.2 _ _ _).mpr ⟨rfl, by norm_num⟩⟩

/-! ## Submissions -/

section Submissions

variable (ed : Ed25519) (answer : Bytes → EStateM SignRequestError τ SignResponse)

theorem quiet_submitted {ε α : Type} (x : EStateM ε τ α) (s : Agent τ) :
    (final (quiet x s)).submitted = s.submitted := by
  unfold quiet
  cases x s.outside with
  | ok a t => rfl
  | error e t => rfl

/-- A payload is submitted once, unless it is empty. -/
theorem signAt_submitted {payload : Bytes} (hpayload : payload ≠ []) (s : Agent τ) :
    (final (signAt ed answer payload s)).submitted = s.submitted ++ [payload] := by
  have hasked : (final (submit answer payload s)).submitted = s.submitted ++ [payload] :=
    quiet_submitted _ _
  have hrequire : require (decide (payload ≠ [])) SignRequestError.emptyPayload = .ok () := by
    rw [decide_eq_true hpayload]
    rfl
  unfold signAt
  rw [hrequire]
  show (final ((submit answer payload >>= fun response =>
    ofResult (validateSignResponse ed response)) s)).submitted = _
  rw [bind_apply]
  cases hrun : submit answer payload s with
  | error e s' =>
    rw [hrun] at hasked
    exact hasked
  | ok response s' =>
    rw [hrun] at hasked
    show (final ((ofResult (validateSignResponse ed response) :
      EStateM SignRequestError (Agent τ) SignResponse) s')).submitted = _
    cases validateSignResponse ed response with
    | ok a => exact hasked
    | error e => exact hasked

/-- Signing a nonce submits its payload and nothing for the sake of the key, which is known by
    then. -/
theorem signEchoWith_submitted {nonce : String} (hne : nonce ≠ "") (s : GuestAgentEchoSigner τ) :
    (final (GuestAgentEchoSigner.signEchoWith ed answer nonce s)).agent.submitted =
      s.agent.submitted ++ [echoSigningPayload nonce] := by
  have hsubmitted := signAt_submitted ed answer (echoSigningPayload_ne nonce) s.agent
  rw [signEchoWith_eq ed answer hne]
  cases hrun : signAt ed answer (echoSigningPayload nonce) s.agent with
  | error e agent =>
    rw [hrun] at hsubmitted
    exact hsubmitted
  | ok response agent =>
    rw [hrun] at hsubmitted
    exact hsubmitted

/-- The nonce that a connection asks a signature for. -/
def askedNonce (read : Bytes) : Option String :=
  let target := splitTarget (requestTarget (fromUtf8Lossy read))
  if trimEndSlashes target.1 ≠ "/echo" ∨ queryNonce target.2 = "" then none
  else some (queryNonce target.2)

/-- **A connection submits the payload of the nonce it asks for**, and nothing else. -/
theorem handleConnection_submitted (json : SerdeJson) (read : Bytes)
    (s : GuestAgentEchoSigner τ) :
    (final (handleConnection json ed answer read s)).agent.submitted =
      s.agent.submitted ++ (askedNonce read).toList.map echoSigningPayload := by
  unfold handleConnection askedNonce
  by_cases hpath : trimEndSlashes (splitTarget (requestTarget (fromUtf8Lossy read))).1 ≠ "/echo"
  · rw [if_pos hpath, if_pos (Or.inl hpath)]
    exact (List.append_nil _).symm
  · by_cases hnonce : queryNonce (splitTarget (requestTarget (fromUtf8Lossy read))).2 = ""
    · rw [if_neg hpath, if_pos hnonce, if_pos (Or.inr hnonce)]
      exact (List.append_nil _).symm
    · rw [if_neg hpath, if_neg hnonce, if_neg (not_or.mpr ⟨hpath, hnonce⟩), bind_apply]
      have hsubmitted := signEchoWith_submitted ed answer hnonce s
      unfold attempt
      cases hrun : GuestAgentEchoSigner.signEchoWith ed answer
          (queryNonce (splitTarget (requestTarget (fromUtf8Lossy read))).2) s with
      | ok response s' =>
        rw [hrun] at hsubmitted
        exact hsubmitted
      | error e s' =>
        rw [hrun] at hsubmitted
        exact hsubmitted

/-- The signing JSON of a proof with the key and the quote it is given. -/
def AttestedJson (lib : ScrapeLib) (proof : ScrapeProof) (text : String) : Prop :=
  ∃ key attestation, text = lib.signingJson
    { proof with attestation := attestation, sdkSignature := { enclavePubkey := some key } }

theorem guestHost_signAt_submits {quote : String → Outside τ QuoteResponse}
    {host : Host (Agent τ)} {payload : Bytes} (hpayload : payload ≠ []) {p : Bytes → Prop}
    (hp : p payload) : EmitsOnly (fun w : World (Agent τ) => w.outside.submitted) p
      (outside ((guestHost ed answer quote host).signAt payload)) := by
  intro w
  have hsubmitted := signAt_submitted ed answer hpayload w.outside
  refine ⟨[payload], ?_, fun e he => ?_⟩
  · unfold outside guestHost
    simp only
    cases hrun : signAt ed answer payload w.outside with
    | ok response s =>
      rw [hrun] at hsubmitted
      exact hsubmitted
    | error e s =>
      rw [hrun] at hsubmitted
      exact hsubmitted
  · rw [List.mem_singleton.mp he]
    exact hp

theorem guestHost_getQuote_submits {quote : String → Outside τ QuoteResponse}
    {host : Host (Agent τ)} {reportData : String} {p : Bytes → Prop} :
    EmitsOnly (fun w : World (Agent τ) => w.outside.submitted) p
      (outside ((guestHost ed answer quote host).getQuote reportData)) := by
  refine emitsOnly_of_log_eq fun w => ?_
  have hquiet := quiet_submitted (quote reportData) w.outside
  unfold outside guestHost
  simp only
  cases hrun : quiet (quote reportData) w.outside with
  | ok response s =>
    rw [hrun] at hquiet
    exact hquiet
  | error e s =>
    rw [hrun] at hquiet
    exact hquiet

/-- **An attestation submits the key probe and its own signing JSON**, and nothing else. -/
theorem attestProof_submits (lib : ScrapeLib) (quote : String → Outside τ QuoteResponse)
    (host : Host (Agent τ)) (proof : ScrapeProof)
    (hjson : ∀ proof, lib.signingJson proof ≠ "") :
    EmitsOnly (fun w : World (Agent τ) => w.outside.submitted)
      (fun payload => payload = keyProbe ∨ ∃ text, AttestedJson lib proof text ∧ payload = utf8 text)
      (attestProof lib (guestHost ed answer quote host) proof) := by
  have hprobe : keyProbe ≠ [] := by decide
  refine EmitsOnly.bind (guestHost_signAt_submits ed answer hprobe (Or.inl rfl)) fun key => ?_
  refine emitsOnly_ofResult.bind fun reportData => ?_
  refine (guestHost_getQuote_submits ed answer).bind fun quote => ?_
  refine emitsOnly_ofResult.bind fun measurement => ?_
  refine (guestHost_signAt_submits ed answer ?_ (Or.inr ⟨_, ⟨_, _, rfl⟩, rfl⟩)).bind fun sign => ?_
  · intro hempty
    have htext := utf8_injective (hempty.trans (by rfl : [] = utf8 ""))
    exact hjson _ htext
  · exact emitsOnly_ofResult.bind fun _ => emitsOnly_ofResult.bind fun _ => emitsOnly_pure

end Submissions

/-! ## Apart -/

/-- What uses the key: a proof to attest, or what a connection to the endpoint read. -/
inductive KeyUse where
  | attest (proof : ScrapeProof)
  | connection (read : Bytes)

/-- What a use submits, whatever the agent and the rest of the outside have come to meanwhile. -/
inductive Submits (lib : ScrapeLib) (json : SerdeJson) (ed : Ed25519) : KeyUse → Bytes → Prop where
  | attest {τ : Type} (answer : Bytes → EStateM SignRequestError τ SignResponse)
      (quote : String → Outside τ QuoteResponse) (host : Host (Agent τ)) (proof : ScrapeProof)
      (w : World (Agent τ)) (payload : Bytes) (before : w.outside.submitted = [])
      (after : payload ∈
        (final (attestProof lib (guestHost ed answer quote host) proof w)).outside.submitted) :
      Submits lib json ed (.attest proof) payload
  | connection {τ : Type} (answer : Bytes → EStateM SignRequestError τ SignResponse)
      (read : Bytes) (s : GuestAgentEchoSigner τ) (payload : Bytes)
      (before : s.agent.submitted = [])
      (after : payload ∈ (final (handleConnection json ed answer read s)).agent.submitted) :
      Submits lib json ed (.connection read) payload

/-- The tag of an echo is not the start of the key probe, -/
theorem echo_ne_keyProbe (nonce : String) : echoSigningPayload nonce ≠ keyProbe := by
  intro h
  have hfront := congrArg (List.take 11) h
  rw [echoSigningPayload, List.take_append_of_le_length (by decide)] at hfront
  exact absurd hfront (by decide)

theorem head_utf8_object {text : String} (hobject : text.toList.head? = some '\x7b') :
    (utf8 text).head? = some 0x7b := by
  obtain ⟨cs, hcs⟩ := List.head?_eq_some_iff.mp hobject
  have hbrace : String.utf8EncodeChar '\x7b' = [0x7b] := by decide
  rw [utf8_eq_flatMap, hcs, List.flatMap_cons, hbrace]
  rfl

/-- nor is it the start of a JSON object. -/
theorem echo_ne_json {text : String} (hobject : text.toList.head? = some '\x7b') (nonce : String) :
    echoSigningPayload nonce ≠ utf8 text := by
  intro h
  have hhead := head_utf8_object hobject
  have htag : rttEchoDomainTag.head? = some 0x62 := by decide
  rw [← h, echoSigningPayload, List.head?_append, htag] at hhead
  cases hhead

theorem keyProbe_ne_json {text : String} (hobject : text.toList.head? = some '\x7b') :
    keyProbe ≠ utf8 text := by
  intro h
  have hhead := head_utf8_object hobject
  have hprobe : keyProbe.head? = some 0x62 := by decide
  rw [← h, hprobe] at hhead
  cases hhead

/-- **Echoes and proofs are kept apart.**  Whoever chooses the nonces, whatever uses the key in
whatever order, and whatever the agent answers: if no signature under the key verifies but over what
was submitted, an accepted echo is of a nonce that a connection asked for, and a signature that
verifies over an object's text is over the signing JSON of a proof that was attested. -/
theorem echo_and_json_apart {lib : ScrapeLib} {toCanonicalJson : ScrapeProof → String}
    {json : SerdeJson} {ed : Ed25519} {uses : List KeyUse} {signed : List Bytes}
    {publicKey : Bytes}
    (hobject : ∀ proof, (toCanonicalJson proof).toList.head? = some '\x7b')
    (hsubmitted : ∀ payload ∈ signed, ∃ use ∈ uses,
      Submits (lib.writing toCanonicalJson) json ed use payload)
    (hunforgeable : ∀ message signature, ed.verify publicKey message signature = true →
      message ∈ signed) :
    (∀ response attested nonce rttMs accepted, decodeHex32 attested = some publicKey →
      acceptEchoForRtt ed response attested nonce rttMs = .ok accepted →
        ∃ read, .connection read ∈ uses ∧ askedNonce read = some nonce) ∧
    (∀ (text keyHex signature : String), text.toList.head? = some '\x7b' →
      Attestation.decodeHex keyHex = some publicKey →
      verifySignature ed keyHex signature (utf8 text) = .ok () →
        ∃ asked, .attest asked ∈ uses ∧ AttestedJson (lib.writing toCanonicalJson) asked text) := by
  have hkinds : ∀ payload ∈ signed, (∃ read nonce, .connection read ∈ uses ∧
      askedNonce read = some nonce ∧ payload = echoSigningPayload nonce) ∨
      (∃ asked text, .attest asked ∈ uses ∧ (payload = keyProbe ∨
        AttestedJson (lib.writing toCanonicalJson) asked text ∧ payload = utf8 text)) := by
    intro payload hpayload
    obtain ⟨use, huse, hsubmits⟩ := hsubmitted payload hpayload
    cases hsubmits with
    | connection answer read s _ before after =>
      rw [handleConnection_submitted, before, List.nil_append] at after
      obtain ⟨nonce, hnonce, rfl⟩ := List.mem_map.mp after
      exact Or.inl ⟨read, nonce, huse, Option.mem_toList.mp hnonce, rfl⟩
    | attest answer quote host proof w _ before after =>
      have hne : ∀ proof, toCanonicalSigningJson toCanonicalJson proof ≠ "" := by
        intro proof hempty
        have hhead := hobject { proof with sdkSignature := { proof.sdkSignature with sig := none } }
        rw [toCanonicalSigningJson] at hempty
        rw [hempty] at hhead
        cases hhead
      obtain ⟨es, hlog, hes⟩ := attestProof_submits ed answer (lib.writing toCanonicalJson) quote
        host proof hne w
      simp only [before, List.nil_append] at hlog
      rw [hlog] at after
      rcases hes payload after with hprobe | ⟨text, htext, hsame⟩
      · exact Or.inr ⟨proof, "", huse, Or.inl hprobe⟩
      · exact Or.inr ⟨proof, text, huse, Or.inr ⟨htext, hsame⟩⟩
  constructor
  · intro response attested nonce rttMs accepted hkey haccepted
    obtain ⟨_, hverified, -⟩ := bind_eq_ok.mp haccepted
    obtain ⟨key, signature, hdecoded, -, -, hverify⟩ :=
      (verifyEchoResponse_eq_ok.mp hverified).signed
    obtain rfl := Option.some.inj (hkey.symm.trans hdecoded)
    rcases hkinds _ (hunforgeable _ _ hverify) with ⟨read, asked, hread, hasked, hsame⟩ |
      ⟨asked, text, -, hprobe | ⟨⟨key, attestation, htext⟩, hsame⟩⟩
    · have hnonce := utf8_injective (List.append_cancel_left hsame)
      rw [hnonce]
      exact ⟨read, hread, hasked⟩
    · exact absurd hprobe (echo_ne_keyProbe nonce)
    · refine absurd hsame (echo_ne_json ?_ nonce)
      rw [htext]
      exact hobject _
  · intro text keyHex signature htext hkey hverified
    obtain ⟨key, hdecoded, hverified⟩ := bind_eq_ok.mp hverified
    obtain rfl := Option.some.inj (hkey.symm.trans (okOr_eq_ok.mp hdecoded))
    obtain ⟨decoded, -, hverified⟩ := bind_eq_ok.mp hverified
    obtain ⟨_, -, hverified⟩ := bind_eq_ok.mp hverified
    obtain ⟨_, -, hverified⟩ := bind_eq_ok.mp hverified
    obtain ⟨_, -, hverify⟩ := bind_eq_ok.mp hverified
    rcases hkinds _ (hunforgeable _ _ (require_eq_ok.mp hverify)) with
      ⟨read, asked, -, -, hsame⟩ | ⟨asked, attestedText, hasked, hprobe | ⟨hattested, hsame⟩⟩
    · exact absurd hsame.symm (echo_ne_json htext asked)
    · exact absurd hprobe.symm (keyProbe_ne_json htext)
    · refine ⟨asked, hasked, ?_⟩
      rw [utf8_injective hsame]
      exact hattested

/-! ## One probed nonce -/

/-- Signatures of the key verify over what it signed. -/
def signedEd (signed : List Bytes) : Ed25519 where
  keyFromBytes key := key == startKey
  verify key message signature :=
    decide (message ∈ signed) && (key == startKey && signature == startSign message)

/-- An agent that signs what it is given. -/
def signingAgent (payload : Bytes) : EStateM SignRequestError Unit SignResponse :=
  pure ⟨hexEncode startKey, hexEncode (startSign payload)⟩

/-- The endpoint is asked for the nonce a local probe has. -/
theorem askedNonce_local : askedNonce (utf8 (localRequest "n+1")) = some "n+1" := by
  have htarget := requestTarget_read (probeRequest_local "n+1") firstRead_local.front
    firstRead_local.reached
  have hpath : ¬ trimEndSlashes localEcho.path ≠ "/echo" := not_not.mpr isEcho_localEcho
  rw [askedNonce, htarget, splitTarget_probeTarget, queryNonce_probeQuery]
  exact if_neg (not_or.mpr ⟨hpath, by decide⟩)

/-- The echo of a local probe is accepted. -/
theorem acceptEchoForRtt_local : acceptEchoForRtt (signedEd [echoSigningPayload "n+1"])
    ⟨"n+1", hexEncode (startSign (echoSigningPayload "n+1")), some (hexEncode startKey)⟩
    (hexEncode startKey) "n+1" 12 = .ok 12 := by
  have hsignature := decodeHexN_hexEncode (startSign (echoSigningPayload "n+1"))
  rw [startSign_length] at hsignature
  have hsame : eqIgnoreAsciiCase (hexEncode startKey) (hexEncode startKey) = true := by
    rw [eqIgnoreAsciiCase, beq_self_eq_true]
  have hverified : (signedEd [echoSigningPayload "n+1"]).verify startKey (echoSigningPayload "n+1")
      (startSign (echoSigningPayload "n+1")) = true := by
    have hstart := startEd_verify (echoSigningPayload "n+1")
    show (decide (echoSigningPayload "n+1" ∈ [echoSigningPayload "n+1"]) && _) = true
    rw [decide_eq_true (List.mem_singleton.mpr rfl), Bool.true_and]
    exact hstart
  have haccepted : Verified (signedEd [echoSigningPayload "n+1"])
      ⟨"n+1", hexEncode (startSign (echoSigningPayload "n+1")), some (hexEncode startKey)⟩
      (hexEncode startKey) "n+1" :=
    { fresh := by decide
      nonce := rfl
      key := ⟨_, rfl, hsame⟩
      signed := ⟨_, _, decodeHexN_hexEncode startKey, hsignature, beq_self_eq_true startKey,
        hverified⟩ }
  rw [acceptEchoForRtt, verifyEchoResponse_eq_ok.mpr haccepted]
  rfl

end Basecrawl.Core.RttEcho
