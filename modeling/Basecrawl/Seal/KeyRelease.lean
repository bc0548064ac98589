/-
  The enclave's side of the key-release exchange: nonce, quote, `/release`.

  The transport and the quote provider are arbitrary functions, so every pair of answers of the
  authority and every outcome of the quote is one client.  The crux is that the client is one chain
  of checks, each of which can only refuse:

  1. **Release** — `openRelease_eq_ok`, `obtainTaskKey_failClosed`: a key comes out exactly of an
     exchange that was accepted at every point.
  2. **Deny** — `denialOf`: what an answer that denies is turned into, which depends on its status.
-/
import Basecrawl.Lib.Base64Url
import Basecrawl.Lib.Json
import Basecrawl.Seal.Identity

namespace Basecrawl.Seal

open Text Hex Outcome

/-! ## What is bound into the quote -/

/-- `KEY_RELEASE_TAG`. -/
def keyReleaseTag : String := "basecrawl-keyrelease-v1"

/-- `RA_TLS_PEER_HEADER`. -/
def raTlsPeerHeader : String := "X-RA-TLS-Peer-Key"

/-- `REPORT_DATA_LEN`. -/
def reportDataLen : Nat := 64

/-- `key_release_report_data`: `SHA256(KEY_RELEASE_TAG || nonce || ra_tls_pubkey)`. -/
def keyReleaseReportData (box : Crypto) (nonce : String) (raTlsPubkey : Bytes) : Bytes32 :=
  box.sha256 (utf8 keyReleaseTag ++ utf8 nonce ++ raTlsPubkey)

/-- `to_report_data_field`: the binding at the left of a field of zeros. -/
def toReportDataField (binding : Bytes) : String :=
  let copy := min binding.length reportDataLen
  hexEncode (binding.take copy ++ List.replicate (reportDataLen - copy) 0)

/-! ## The parties -/

/-- Held-only-in-enclave task key: never empty. -/
structure ReleasedTaskKey where
  bytes : Bytes
  nonempty : bytes ≠ []

/-- `ReleasedTaskKey::from_bytes`. -/
def ReleasedTaskKey.fromBytes (bytes : Bytes) : Except SealError ReleasedTaskKey :=
  if h : bytes ≠ [] then .ok ⟨bytes, h⟩
  else .error (.keyReleaseProtocol "released key is empty")

/-- Material returned by a quote provider for the `/release` request body. -/
structure QuoteBundle where
  quoteHex : String
  eventLog : Option Json.Value
  vmConfig : Option Json.Value

/-- `KeyReleaseTransport::request_json`: method, path, headers and body for a status and a JSON
    value. -/
abbrev KeyReleaseTransport :=
  String → String → List (String × String) → Option Json.Value →
    Except SealError (UInt16 × Json.Value)

/-- `QuoteProvider::get_quote`. -/
abbrev QuoteProvider := String → Except SealError QuoteBundle

/-- Enclave-side key-release client. -/
structure KeyReleaseClient (box : Crypto) where
  transport : KeyReleaseTransport
  quoteProvider : QuoteProvider
  identity : EnclaveIdentity box

/-! ## The exchange -/

/-- `(200..300).contains(&status)`. -/
def isSuccess (status : UInt16) : Bool := 200 ≤ status && status < 300

/-- A text member of a JSON answer. -/
def textMember (response : Json.Value) (key : String) : Option String :=
  (response.tree.get key).bind Json.Tree.asStr

variable {box : Crypto}

/-- `request_nonce`. -/
def KeyReleaseClient.requestNonce (client : KeyReleaseClient box) : Except SealError String := do
  let (status, response) ← client.transport "GET" "/nonce" [] none
  require (isSuccess status) (.keyReleaseDenied ("nonce_http_" ++ Nat.repr status.toNat))
  let nonce ← okOr (textMember response "nonce")
    (.keyReleaseProtocol "nonce response missing nonce field")
  require (nonce != "") (.keyReleaseProtocol "nonce response is empty")
  .ok nonce

/-- Add a member when there is one to add. -/
def withMember (body : Json.Map) (key : String) : Option Json.Value → Json.Map
  | some value => body.insert key value
  | none => body

/-- The body of the `/release` request. -/
def releaseBody (nonce : String) (quote : QuoteBundle) (raTlsPubkey : Bytes) : Json.Value :=
  let body := ((Json.Map.empty.insert "nonce" (.string nonce)).insert "quote"
    (.string quote.quoteHex)).insert "ra_tls_pubkey" (.string (hexEncode raTlsPubkey))
  .object (withMember (withMember body "event_log" quote.eventLog) "vm_config" quote.vmConfig)

/-- The reason an answer gives, or the code that stands for none. -/
def reasonOr (response : Json.Value) (code : String) : String :=
  (textMember response "reason").getD code

/-- The deny path of `parse_release_response`. -/
def denyRelease (response : Json.Value) : Except SealError ReleasedTaskKey := do
  require (response.tree.get "key").isNone
    (.keyReleaseProtocol "deny response must not include key material")
  .error (.keyReleaseDenied (reasonOr response "denied"))

/-- The success path of `parse_release_response`. -/
def openRelease (response : Json.Value) (identity : EnclaveIdentity box) :
    Except SealError ReleasedTaskKey := do
  let keyB64 ← okOr (textMember response "key")
    (.keyReleaseProtocol "success response missing key field")
  let session ← okOr (Base64Url.decodeStandard keyB64.toList)
    (.keyReleaseProtocol "success response key is not valid base64")
  require (!session.isEmpty) (.keyReleaseProtocol "success response key is empty")
  let opened ← okOr (box.unsealBytes identity.secret session) .authenticationFailed
  ReleasedTaskKey.fromBytes opened

/-- `parse_release_response`. -/
def parseReleaseResponse (response : Json.Value) (identity : EnclaveIdentity box) :
    Except SealError ReleasedTaskKey := do
  let released ← okOr ((response.tree.get "released").bind Json.Tree.asBool)
    (.keyReleaseProtocol "release response missing released flag")
  if released then openRelease response identity else denyRelease response

/-- An endpoint that cannot be reached after the nonce was issued failed mid-exchange. -/
def midExchange : SealError → SealError
  | .keyReleaseUnreachable => .keyReleaseMidExchange
  | other => other

/-- The report data a client asks a quote for. -/
def KeyReleaseClient.reportDataHex (client : KeyReleaseClient box) (nonce : String) : String :=
  toReportDataField (keyReleaseReportData box nonce client.identity.pub.toList).toList

/-- The `/release` request of a client. -/
def KeyReleaseClient.requestRelease (client : KeyReleaseClient box) (nonce : String)
    (quote : QuoteBundle) : Except SealError (UInt16 × Json.Value) :=
  client.transport "POST" "/release" [(raTlsPeerHeader, hexEncode client.identity.pub.toList)]
    (some (releaseBody nonce quote client.identity.pub.toList))

/-- `obtain_task_key`. -/
def KeyReleaseClient.obtainTaskKey (client : KeyReleaseClient box) :
    Except SealError ReleasedTaskKey := do
  let nonce ← client.requestNonce
  let quote ← client.quoteProvider (client.reportDataHex nonce)
  let (status, response) ← (client.requestRelease nonce quote).mapError midExchange
  -- reachable but refused: fail closed
  require (isSuccess status) (.keyReleaseDenied (reasonOr response "http_error"))
  parseReleaseResponse response client.identity

/-- `decrypt_requires_released_key`. -/
def decryptRequiresReleasedKey : Option ReleasedTaskKey → Except SealError Unit
  | some key => require (!key.bytes.isEmpty) .keyNotReleased
  | none => .error .keyNotReleased

/-! ## What the checks let through -/

theorem isSuccess_iff {status : UInt16} :
    isSuccess status = true ↔ 200 ≤ status ∧ status < 300 := by
  rw [isSuccess, Bool.and_eq_true, decide_eq_true_iff, decide_eq_true_iff]

theorem textMember_eq_some {response : Json.Value} {key text : String} :
    textMember response key = some text ↔ response.tree.get key = some (.string text) := by
  rw [textMember, Option.bind_eq_some_iff]
  constructor
  · rintro ⟨tree, htree, htext⟩
    cases tree <;> simp only [Json.Tree.asStr, reduceCtorEq, Option.some.injEq] at htext
    rw [htree, htext]
  · intro h
    exact ⟨_, h, rfl⟩

theorem released_eq_some {response : Json.Value} {released : Bool} :
    (response.tree.get "released").bind Json.Tree.asBool = some released ↔
      response.tree.get "released" = some (.bool released) := by
  rw [Option.bind_eq_some_iff]
  constructor
  · rintro ⟨tree, htree, hbool⟩
    cases tree <;> simp only [Json.Tree.asBool, reduceCtorEq, Option.some.injEq] at hbool
    rw [htree, hbool]
  · intro h
    exact ⟨_, h, rfl⟩

theorem fromBytes_eq_ok {bytes : Bytes} {key : ReleasedTaskKey} :
    ReleasedTaskKey.fromBytes bytes = .ok key ↔ key.bytes = bytes := by
  unfold ReleasedTaskKey.fromBytes
  split
  · rename_i hne
    rw [Except.ok.injEq]
    constructor
    · rintro rfl
      rfl
    · rintro rfl
      rfl
  · rename_i hempty
    constructor
    · intro h
      cases h
    · intro h
      exact absurd (h ▸ key.nonempty) hempty

/-- A digest at the left of the field leaves 32 zero bytes at its right. -/
theorem toReportDataField_digest (digest : Bytes32) :
    toReportDataField digest.toList = hexEncode (digest.toList ++ List.replicate 32 0) := by
  have hlen : digest.toList.length = 32 := Vector.length_toList
  have hcopy : min digest.toList.length reportDataLen = 32 := by
    rw [hlen]
    rfl
  simp only [toReportDataField, hcopy]
  rw [List.take_of_length_le (Nat.le_of_eq hlen)]
  rfl

/-- The authority answered `/nonce` with a nonce. -/
def KeyReleaseClient.IssuesNonce (client : KeyReleaseClient box) (nonce : String) : Prop :=
  ∃ status response, client.transport "GET" "/nonce" [] none = .ok (status, response) ∧
    200 ≤ status ∧ status < 300 ∧ response.tree.get "nonce" = some (.string nonce) ∧ nonce ≠ ""

theorem requestNonce_eq_ok {client : KeyReleaseClient box} {nonce : String} :
    client.requestNonce = .ok nonce ↔ client.IssuesNonce nonce := by
  unfold KeyReleaseClient.requestNonce KeyReleaseClient.IssuesNonce
  constructor
  · intro h
    obtain ⟨⟨status, response⟩, hanswer, h⟩ := bind_eq_ok.mp h
    obtain ⟨_, hstatus, h⟩ := bind_eq_ok.mp h
    obtain ⟨text, htext, h⟩ := bind_eq_ok.mp h
    obtain ⟨_, hne, h⟩ := bind_eq_ok.mp h
    obtain rfl := Except.ok.inj h
    obtain ⟨hlo, hhi⟩ := isSuccess_iff.mp (require_eq_ok.mp hstatus)
    exact ⟨status, response, hanswer, hlo, hhi, textMember_eq_some.mp (okOr_eq_ok.mp htext),
      bne_iff_ne.mp (require_eq_ok.mp hne)⟩
  · rintro ⟨status, response, hanswer, hlo, hhi, htext, hne⟩
    have hstatus := isSuccess_iff.mpr ⟨hlo, hhi⟩
    have hne' : (nonce != "") = true := bne_iff_ne.mpr hne
    simp only [hanswer, ok_bind, hstatus, require_true, textMember_eq_some.mpr htext, okOr_some,
      hne']

/-- The success path releases what the secret opens, if that is not empty. -/
theorem openRelease_eq_ok {response : Json.Value} {identity : EnclaveIdentity box}
    (hempty : box.unsealBytes identity.secret [] = none) {key : ReleasedTaskKey} :
    openRelease response identity = .ok key ↔
      ∃ keyB64 session, response.tree.get "key" = some (.string keyB64) ∧
        Base64Url.decodeStandard keyB64.toList = some session ∧
        box.unsealBytes identity.secret session = some key.bytes := by
  unfold openRelease
  constructor
  · intro h
    obtain ⟨keyB64, hkey, h⟩ := bind_eq_ok.mp h
    obtain ⟨session, hdecode, h⟩ := bind_eq_ok.mp h
    obtain ⟨_, -, h⟩ := bind_eq_ok.mp h
    obtain ⟨opened, hopen, h⟩ := bind_eq_ok.mp h
    rw [fromBytes_eq_ok.mp h]
    exact ⟨keyB64, session, textMember_eq_some.mp (okOr_eq_ok.mp hkey), okOr_eq_ok.mp hdecode,
      okOr_eq_ok.mp hopen⟩
  · rintro ⟨keyB64, session, hkey, hdecode, hopen⟩
    have hne : (!session.isEmpty) = true := by
      cases session with
      | nil => exact absurd (hempty.symm.trans hopen) (by simp)
      | cons b bs => rfl
    simp only [textMember_eq_some.mpr hkey, hdecode, hne, hopen, okOr_some, require_true, ok_bind]
    exact fromBytes_eq_ok.mpr rfl

/-- A release answer yields a key only when it says `true`. -/
theorem parseReleaseResponse_eq_ok {response : Json.Value} {identity : EnclaveIdentity box}
    {key : ReleasedTaskKey} :
    parseReleaseResponse response identity = .ok key ↔
      response.tree.get "released" = some (.bool true) ∧
        openRelease response identity = .ok key := by
  unfold parseReleaseResponse
  constructor
  · intro h
    obtain ⟨released, hreleased, h⟩ := bind_eq_ok.mp h
    rw [okOr_eq_ok, released_eq_some] at hreleased
    cases released with
    | true => exact ⟨hreleased, h⟩
    | false =>
      obtain ⟨_, -, h⟩ := bind_eq_ok.mp h
      cases h
  · rintro ⟨hreleased, hopen⟩
    rw [released_eq_some.mpr hreleased]
    exact hopen

/-- What an answer that denies is turned into: only a 2xx answer is looked at for a key. -/
def denialOf (status : UInt16) (response : Json.Value) : SealError :=
  if isSuccess status then
    if (response.tree.get "key").isSome then
      .keyReleaseProtocol "deny response must not include key material"
    else .keyReleaseDenied (reasonOr response "denied")
  else .keyReleaseDenied (reasonOr response "http_error")

theorem parseReleaseResponse_deny {response : Json.Value} {identity : EnclaveIdentity box}
    (hdeny : response.tree.get "released" = some (.bool false)) :
    parseReleaseResponse response identity =
      .error (if (response.tree.get "key").isSome then
        .keyReleaseProtocol "deny response must not include key material"
      else .keyReleaseDenied (reasonOr response "denied")) := by
  have hflag := released_eq_some.mpr hdeny
  show (okOr _ _ >>= _) = _
  rw [hflag]
  show denyRelease response = _
  cases hkey : response.tree.get "key" with
  | none => simp only [denyRelease, hkey, Option.isNone_none, require_true, ok_bind,
      Option.isSome_none, Bool.false_eq_true, if_false]
  | some key => simp [denyRelease, hkey, require, Bind.bind, Except.bind]

/-- The report data of a quote: the binding of nonce and public key, then zeros. -/
theorem KeyReleaseClient.reportDataHex_eq (client : KeyReleaseClient box) (nonce : String) :
    client.reportDataHex nonce = hexEncode
      ((box.sha256 (utf8 keyReleaseTag ++ utf8 nonce ++ client.identity.pub.toList)).toList ++
        List.replicate 32 0) := toReportDataField_digest _

/-- The exchange returns a key when each of its steps does. -/
theorem obtainTaskKey_eq_ok {client : KeyReleaseClient box} {key : ReleasedTaskKey} :
    client.obtainTaskKey = .ok key ↔
      ∃ nonce quote status response, client.IssuesNonce nonce ∧
        client.quoteProvider (client.reportDataHex nonce) = .ok quote ∧
        client.requestRelease nonce quote = .ok (status, response) ∧
        isSuccess status = true ∧
        response.tree.get "released" = some (.bool true) ∧
        openRelease response client.identity = .ok key := by
  constructor
  · intro h
    obtain ⟨nonce, hnonce, h⟩ := bind_eq_ok.mp h
    obtain ⟨quote, hquote, h⟩ := bind_eq_ok.mp h
    obtain ⟨⟨status, response⟩, hanswer, h⟩ := bind_eq_ok.mp h
    obtain ⟨_, hstatus, h⟩ := bind_eq_ok.mp h
    obtain ⟨hreleased, hopen⟩ := parseReleaseResponse_eq_ok.mp h
    exact ⟨nonce, quote, status, response, requestNonce_eq_ok.mp hnonce, hquote,
      mapError_eq_ok.mp hanswer, require_eq_ok.mp hstatus, hreleased, hopen⟩
  · rintro ⟨nonce, quote, status, response, hnonce, hquote, hrelease, hstatus, hreleased, hopen⟩
    rw [KeyReleaseClient.obtainTaskKey, requestNonce_eq_ok.mpr hnonce, ok_bind, hquote, ok_bind,
      hrelease]
    simp only [Except.mapError, ok_bind, hstatus, require_true]
    exact parseReleaseResponse_eq_ok.mpr ⟨hreleased, hopen⟩

/-- An answer that denies comes out as its denial. -/
theorem obtainTaskKey_deny {client : KeyReleaseClient box} {nonce : String}
    {quote : QuoteBundle} {status : UInt16} {response : Json.Value}
    (hnonce : client.IssuesNonce nonce)
    (hquote : client.quoteProvider (client.reportDataHex nonce) = .ok quote)
    (hrelease : client.requestRelease nonce quote = .ok (status, response))
    (hdeny : response.tree.get "released" = some (.bool false)) :
    client.obtainTaskKey = .error (denialOf status response) := by
  rw [KeyReleaseClient.obtainTaskKey, requestNonce_eq_ok.mpr hnonce, ok_bind, hquote, ok_bind,
    hrelease]
  simp only [Except.mapError, ok_bind]
  by_cases hstatus : isSuccess status = true
  · rw [hstatus, require_true, ok_bind, parseReleaseResponse_deny hdeny, denialOf, if_pos hstatus]
  · rw [Bool.not_eq_true] at hstatus
    rw [denialOf, hstatus]
    rfl

/-- **Fail closed.**  A key comes out exactly when the nonce was issued, the quote obtained for the
    binding of nonce and public key, and a 2xx answer said `released` with a key that the secret
    opens; an answer that denies comes out as its denial. -/
theorem obtainTaskKey_failClosed (client : KeyReleaseClient box)
    (hempty : box.unsealBytes client.identity.secret [] = none) :
    (∀ k, (∃ key, client.obtainTaskKey = .ok key ∧ key.bytes = k) ↔
      ∃ nonce quote status response keyB64 session,
        client.IssuesNonce nonce ∧
        client.quoteProvider (hexEncode
          ((box.sha256 (utf8 keyReleaseTag ++ utf8 nonce ++ client.identity.pub.toList)).toList ++
            List.replicate 32 0)) = .ok quote ∧
        client.requestRelease nonce quote = .ok (status, response) ∧
        200 ≤ status ∧ status < 300 ∧
        response.tree.get "released" = some (.bool true) ∧
        response.tree.get "key" = some (.string keyB64) ∧
        Base64Url.decodeStandard keyB64.toList = some session ∧
        box.unsealBytes client.identity.secret session = some k ∧ k ≠ []) ∧
    (∀ nonce quote status response, client.IssuesNonce nonce →
      client.quoteProvider (client.reportDataHex nonce) = .ok quote →
      client.requestRelease nonce quote = .ok (status, response) →
      response.tree.get "released" = some (.bool false) →
      client.obtainTaskKey = .error (denialOf status response)) := by
  constructor
  · intro k
    constructor
    · rintro ⟨key, h, rfl⟩
      obtain ⟨nonce, quote, status, response, hnonce, hquote, hrelease, hstatus, hreleased,
        hopen⟩ := obtainTaskKey_eq_ok.mp h
      obtain ⟨hlo, hhi⟩ := isSuccess_iff.mp hstatus
      obtain ⟨keyB64, session, hkey, hdecode, hunseal⟩ := (openRelease_eq_ok hempty).mp hopen
      rw [client.reportDataHex_eq] at hquote
      exact ⟨nonce, quote, status, response, keyB64, session, hnonce, hquote, hrelease, hlo, hhi,
        hreleased, hkey, hdecode, hunseal, key.nonempty⟩
    · rintro ⟨nonce, quote, status, response, keyB64, session, hnonce, hquote, hrelease, hlo, hhi,
        hreleased, hkey, hdecode, hunseal, hne⟩
      have hopen : openRelease response client.identity = .ok ⟨k, hne⟩ :=
        (openRelease_eq_ok hempty).mpr ⟨keyB64, session, hkey, hdecode, hunseal⟩
      rw [← client.reportDataHex_eq] at hquote
      exact ⟨⟨k, hne⟩, obtainTaskKey_eq_ok.mpr ⟨nonce, quote, status, response, hnonce, hquote,
        hrelease, isSuccess_iff.mpr ⟨hlo, hhi⟩, hreleased, hopen⟩, rfl⟩
  · intro nonce quote status response hnonce hquote hrelease hdeny
    exact obtainTaskKey_deny hnonce hquote hrelease hdeny

/-- A key that was released opens the gate of the task decryption, and nothing else does. -/
theorem decryptRequiresReleasedKey_eq_ok {key : Option ReleasedTaskKey} :
    decryptRequiresReleasedKey key = .ok () ↔ key.isSome = true := by
  cases key with
  | none => simp [decryptRequiresReleasedKey]
  | some key =>
    have hne : (!key.bytes.isEmpty) = true := by
      rw [Bool.not_eq_true', List.isEmpty_eq_false_iff]
      exact key.nonempty
    simp [decryptRequiresReleasedKey, hne]

/-! ## Two exchanges -/

/-- A client of an authority that issues the nonce `n` and gives one answer to `/release`. -/
def answeredClient (status : UInt16) (response : Json.Value) : KeyReleaseClient fixedBox where
  transport := fun _ path _ _ =>
    if path = "/nonce" then
      .ok (200, .object (Json.Map.empty.insert "nonce" (.string "n")))
    else .ok (status, response)
  quoteProvider := fun _ => .ok ⟨"00", none, none⟩
  identity := fixedIdentity

theorem issuesNonce_answered (status : UInt16) (response : Json.Value) :
    (answeredClient status response).IssuesNonce "n" :=
  ⟨200, _, rfl, by decide, by decide, Json.Map.get_insert _ _ _, by decide⟩

/-- An answer that releases the four bytes of `key-`. -/
def releasedAnswer : Json.Value :=
  ⟨.object
    [("key", .string "pOCSkrZRwni5dyxWn1+puxPZBrRqtoyd+dwrRAn4ogkAAAAAAAAAAAAAAAAAAAAAa2V5LQ=="),
      ("released", .bool true)], by decide⟩

theorem obtainTaskKey_failClosed_released :
    ∃ key, (answeredClient 200 releasedAnswer).obtainTaskKey = .ok key ∧
      key.bytes = [0x6b, 0x65, 0x79, 0x2d] :=
  ((obtainTaskKey_failClosed (answeredClient 200 releasedAnswer) (by decide)).1 _).mpr
    ⟨"n", ⟨"00", none, none⟩, 200, releasedAnswer, _,
      fixedPublicKey.toList ++ List.replicate 16 0 ++ [0x6b, 0x65, 0x79, 0x2d],
      issuesNonce_answered _ _, rfl, rfl, by decide, by decide, rfl, rfl, by decide,
      by decide, by decide⟩

/-- An answer that denies and still carries a key. -/
def denyWithKey : Json.Value :=
  ⟨.object [("key", .string "AAAA"), ("released", .bool false)], by decide⟩

/-- Under status 403 the key is not even noticed. -/
theorem obtainTaskKey_deny_unread :
    denyWithKey.tree.get "released" = some (.bool false) ∧
    (denyWithKey.tree.get "key").isSome = true ∧
    (answeredClient 403 denyWithKey).obtainTaskKey = .error (.keyReleaseDenied "http_error") ∧
    ¬ ∃ detail, (answeredClient 403 denyWithKey).obtainTaskKey =
      .error (.keyReleaseProtocol detail) := by
  have hdenied : (answeredClient 403 denyWithKey).obtainTaskKey =
      .error (.keyReleaseDenied "http_error") := rfl
  refine ⟨rfl, rfl, hdenied, ?_⟩
  rintro ⟨detail, h⟩
  rw [hdenied] at h
  cases h

end Basecrawl.Seal
