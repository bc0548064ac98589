/-
  Coarse antibot feedback, sealed to the committee as if it were a result.

  The feedback travels as the one format `antibot_feedback` of a result plaintext, under the
  associated data of a result; `kind` is put on the outside.  So two things are not what the module
  header promises:

  1. **Kinds** — `kindsSeparated_iff`: a feedback ciphertext opens as a result once the host has
     relabelled it; what keeps an ordinary result from opening as feedback is only that it has no
     such format.
  2. **Vocabulary** — `antibotFeedback_vocabulary_iff`: the builders stay in the closed vocabulary,
     and neither the sealer nor the opener looks.
-/
import Basecrawl.Seal.Result

namespace Basecrawl.Seal

open Text Hex Outcome

/-! ## The vocabulary -/

/-- `ANTIBOT_FEEDBACK_SUITE`. -/
def antibotFeedbackSuite : String := resultSealSuite

/-- `ANTIBOT_FEEDBACK_KIND`. -/
def antibotFeedbackKind : String := "antibot_feedback"

/-- `ANTIBOT_FEEDBACK_DOMAIN`. -/
def antibotFeedbackDomain : String := "basecrawl/antibot-feedback/v1"

/-- `ANTIBOT_FEEDBACK_RECIPIENT`. -/
def antibotFeedbackRecipient : String := resultRecipientRole

/-- Closed set of coarse anti-bot codes. -/
inductive CoarseFailureHint where
  | ok
  | blocked
  | rateLimited
  | upstreamUnavailable
  | challenge
  | captcha
  | empty
  | tlsError
  | dnsError
  | escalateProxyClass
deriving DecidableEq, Repr

/-- `CoarseFailureHint::as_str`. -/
def CoarseFailureHint.asStr : CoarseFailureHint → String
  | .ok => "ok"
  | .blocked => "blocked"
  | .rateLimited => "rate_limited"
  | .upstreamUnavailable => "upstream_unavailable"
  | .challenge => "challenge"
  | .captcha => "captcha"
  | .empty => "empty"
  | .tlsError => "tls_error"
  | .dnsError => "dns_error"
  | .escalateProxyClass => "escalate_proxy_class"

/-- `CoarseFailureHint::from_http_status`. -/
def CoarseFailureHint.fromHttpStatus (status : UInt16) : CoarseFailureHint :=
  if 200 ≤ status ∧ status ≤ 299 then .ok
  else if status = 403 ∨ status = 401 then .blocked
  else if status = 429 then .rateLimited
  else if status = 408 ∨ status = 503 ∨ status = 502 ∨ status = 504 then .upstreamUnavailable
  else if status = 404 ∨ status = 410 then .empty
  else if 400 ≤ status ∧ status < 500 then .blocked
  else if 500 ≤ status ∧ status < 600 then .upstreamUnavailable
  else .ok

/-- `parse_failure_hint`. -/
def parseFailureHint (value : String) : Option CoarseFailureHint :=
  match value with
  | "ok" => some .ok
  | "blocked" => some .blocked
  | "rate_limited" => some .rateLimited
  | "upstream_unavailable" => some .upstreamUnavailable
  | "challenge" => some .challenge
  | "captcha" => some .captcha
  | "empty" => some .empty
  | "tls_error" => some .tlsError
  | "dns_error" => some .dnsError
  | "escalate_proxy_class" => some .escalateProxyClass
  | _ => none

/-- Every code is read back from its wire text. -/
@[simp] theorem parseFailureHint_asStr (hint : CoarseFailureHint) :
    parseFailureHint hint.asStr = some hint := by
  cases hint <;> rfl

/-- The proxy classes a builder lets through. -/
def proxyClasses : List String := ["datacenter", "residential", "mobile"]

/-- The status classes a builder writes. -/
def statusClasses : List String := ["1xx", "2xx", "3xx", "4xx", "5xx", "other"]

/-- Coarse anti-bot feedback; every field can be set by hand or by deserialization. -/
structure AntibotFeedbackPlaintext where
  taskId : String
  nonce : String
  failure : CoarseFailureHint
  suggestedProxyClass : Option String
  httpStatusClass : Option String
deriving DecidableEq

/-- Both advisories are absent or from the closed lists. -/
structure AntibotFeedbackPlaintext.InVocabulary (feedback : AntibotFeedbackPlaintext) : Prop where
  proxyClass : ∀ c, feedback.suggestedProxyClass = some c → c ∈ proxyClasses
  statusClass : ∀ c, feedback.httpStatusClass = some c → c ∈ statusClasses

/-! ## The builders -/

/-- `AntibotFeedbackPlaintext::new`. -/
def AntibotFeedbackPlaintext.new (taskId nonce : String) (failure : CoarseFailureHint) :
    AntibotFeedbackPlaintext :=
  ⟨taskId, nonce, failure, none, none⟩

/-- `with_suggested_proxy_class`. -/
def AntibotFeedbackPlaintext.withSuggestedProxyClass (feedback : AntibotFeedbackPlaintext)
    (proxyClass : String) : Except SealError AntibotFeedbackPlaintext := do
  let normalized := asciiLower (trim proxyClass)
  require (proxyClasses.contains normalized)
    (.invalidEnvelope "suggested_proxy_class must be datacenter|residential|mobile")
  .ok { feedback with suggestedProxyClass := some normalized }

/-- `with_http_status`. -/
def AntibotFeedbackPlaintext.withHttpStatus (feedback : AntibotFeedbackPlaintext)
    (status : UInt16) : AntibotFeedbackPlaintext :=
  let statusClass :=
    if 100 ≤ status ∧ status ≤ 199 then "1xx"
    else if 200 ≤ status ∧ status ≤ 299 then "2xx"
    else if 300 ≤ status ∧ status ≤ 399 then "3xx"
    else if 400 ≤ status ∧ status ≤ 499 then "4xx"
    else if 500 ≤ status ∧ status ≤ 599 then "5xx"
    else "other"
  { feedback with httpStatusClass := some statusClass }

/-- `is_coarse_only`. -/
def AntibotFeedbackPlaintext.isCoarseOnly (feedback : AntibotFeedbackPlaintext) : Bool :=
  feedback.taskId != "" && feedback.nonce != ""

/-! ## Sealing and opening -/

/-- Host-visible envelope of antibot feedback. -/
structure SealedAntibotFeedback where
  version : UInt32
  suite : String
  kind : String
  recipient : String
  recipientKeyId : String
  taskId : String
  nonce : String
  feedbackHash : String
  ciphertext : String
deriving DecidableEq

/-- `feedback_hash`. -/
def feedbackHash (box : Crypto) (feedback : AntibotFeedbackPlaintext) : String :=
  hexEncode (box.sha256 (utf8 antibotFeedbackDomain ++ utf8 feedback.taskId ++ [0] ++
    utf8 feedback.nonce ++ [0] ++ utf8 feedback.failure.asStr ++ [0] ++
    utf8 (feedback.suggestedProxyClass.getD "") ++ [0] ++
    utf8 (feedback.httpStatusClass.getD ""))).toList

/-- The member under which feedback travels. -/
def AntibotFeedbackPlaintext.member (feedback : AntibotFeedbackPlaintext) : Json.Value :=
  .object (((Json.Map.empty.insert "failure" (.string feedback.failure.asStr)).insert
    "suggested_proxy_class" (.ofOption feedback.suggestedProxyClass)).insert
    "http_status_class" (.ofOption feedback.httpStatusClass))

/-- The result plaintext that carries feedback. -/
def AntibotFeedbackPlaintext.toResult (box : Crypto) (feedback : AntibotFeedbackPlaintext) :
    ResultSealPlaintext where
  taskId := feedback.taskId
  nonce := feedback.nonce
  resultHash := feedbackHash box feedback
  formatsProduced := Json.Map.empty.insert "antibot_feedback" feedback.member

/-- `seal_antibot_feedback`. -/
def sealAntibotFeedback (box : Crypto) (json : Codec ResultSealPlaintext) (entropy : Bytes)
    (feedback : AntibotFeedbackPlaintext) (committee : CommitteeThresholdPublicKey) :
    Except SealError SealedAntibotFeedback := do
  require feedback.isCoarseOnly
    (.invalidEnvelope "antibot feedback must be coarse-only (no free-form content)")
  require (feedback.taskId != "" && feedback.nonce != "")
    (.invalidEnvelope "task_id and nonce are required for antibot feedback")
  let inner ← sealResultToCommittee box json entropy (feedback.toResult box) committee
  .ok
    { version := inner.version
      suite := antibotFeedbackSuite
      kind := antibotFeedbackKind
      recipient := antibotFeedbackRecipient
      recipientKeyId := inner.recipientKeyId
      taskId := inner.taskId
      nonce := inner.nonce
      feedbackHash := feedbackHash box feedback
      ciphertext := inner.ciphertext }

/-- `validate_feedback_envelope`. -/
def validateFeedbackEnvelope (envelope : SealedAntibotFeedback) : Except SealError Unit := do
  require (envelope.version == 1) (.invalidEnvelope "unsupported antibot feedback version")
  require (envelope.suite == antibotFeedbackSuite)
    (.invalidEnvelope "unexpected antibot feedback suite")
  require (envelope.kind == antibotFeedbackKind)
    (.invalidEnvelope "unexpected antibot feedback kind")
  require (envelope.recipient == antibotFeedbackRecipient)
    (.invalidEnvelope "antibot feedback recipient must be committee-threshold")
  require (envelope.taskId != "" && envelope.nonce != "")
    (.invalidEnvelope "task_id/nonce required")
  require (envelope.feedbackHash != "" && envelope.ciphertext != "")
    (.invalidEnvelope "feedback_hash/ciphertext required")
  require (stripPrefix envelope.recipientKeyId "sha256:").isSome
    (.invalidEnvelope "recipient_key_id must be a sha256 content id")

/-- The result envelope that is opened in place of a feedback envelope. -/
def SealedAntibotFeedback.toResult (envelope : SealedAntibotFeedback) : SealedResultEnvelope where
  version := envelope.version
  suite := envelope.suite
  kind := resultSealKind
  recipient := resultRecipientRole
  recipientKeyId := envelope.recipientKeyId
  taskId := envelope.taskId
  nonce := envelope.nonce
  resultHash := envelope.feedbackHash
  ciphertext := envelope.ciphertext

/-- What the opener reads of the member: a text or nothing. -/
def readText (member : Json.Tree) (key : String) : Option String :=
  (member.get key).bind Json.Tree.asStr

/-- The feedback in an opened plaintext. -/
def readFeedback (opened : ResultSealPlaintext) : Except SealError AntibotFeedbackPlaintext := do
  let member ← okOr (opened.formatsProduced.get "antibot_feedback") .malformedPlaintext
  let failureStr ← okOr (readText member "failure") .malformedPlaintext
  let failure ← okOr (parseFailureHint failureStr) .malformedPlaintext
  .ok
    { taskId := opened.taskId
      nonce := opened.nonce
      failure := failure
      suggestedProxyClass := readText member "suggested_proxy_class"
      httpStatusClass := readText member "http_status_class" }

/-- `unseal_antibot_feedback_with_committee_secret`. -/
def unsealAntibotFeedbackWithCommitteeSecret (box : Crypto) (json : Codec ResultSealPlaintext)
    (envelope : SealedAntibotFeedback) (committeeSecret : Bytes32) :
    Except SealError AntibotFeedbackPlaintext := do
  validateFeedbackEnvelope envelope
  let opened ← unsealResultWithCommitteeSecret box json envelope.toResult committeeSecret
  readFeedback opened

/-- `decrypt_antibot_feedback_as_miner_host`. -/
def decryptAntibotFeedbackAsMinerHost (envelope : SealedAntibotFeedback) :
    Except SealError AntibotFeedbackPlaintext := do
  validateFeedbackEnvelope envelope
  .error .keyNotReleased

/-- The codes for which a residential proxy may be suggested. -/
def CoarseFailureHint.mayEscalate : CoarseFailureHint → Bool
  | .blocked | .rateLimited | .challenge | .captcha => true
  | _ => false

/-- The feedback `maybe_seal_failure_feedback` writes about a status that is no success. -/
def failureFeedback (taskId nonce : String) (httpStatus : UInt16) (suggestResidential : Bool) :
    Except SealError AntibotFeedbackPlaintext :=
  let failure := CoarseFailureHint.fromHttpStatus httpStatus
  let plaintext := (AntibotFeedbackPlaintext.new taskId nonce failure).withHttpStatus httpStatus
  if suggestResidential && failure.mayEscalate then
    plaintext.withSuggestedProxyClass "residential"
  else .ok plaintext

/-- `maybe_seal_failure_feedback`. -/
def maybeSealFailureFeedback (box : Crypto) (json : Codec ResultSealPlaintext) (entropy : Bytes)
    (taskId nonce : String) (httpStatus : UInt16) (committee : CommitteeThresholdPublicKey)
    (suggestResidential : Bool) : Except SealError (Option SealedAntibotFeedback) :=
  if CoarseFailureHint.fromHttpStatus httpStatus = .ok then .ok none
  else do
    let plaintext ← failureFeedback taskId nonce httpStatus suggestResidential
    let envelope ← sealAntibotFeedback box json entropy plaintext committee
    .ok (some envelope)

/-! ## What the builders make -/

theorem inVocabulary_new (taskId nonce : String) (failure : CoarseFailureHint) :
    (AntibotFeedbackPlaintext.new taskId nonce failure).InVocabulary where
  proxyClass := by
    intro c hc
    cases hc
  statusClass := by
    intro c hc
    cases hc

theorem AntibotFeedbackPlaintext.InVocabulary.withSuggestedProxyClass
    {feedback feedback' : AntibotFeedbackPlaintext} {proxyClass : String}
    (hfb : feedback.InVocabulary)
    (h : feedback.withSuggestedProxyClass proxyClass = .ok feedback') : feedback'.InVocabulary := by
  obtain ⟨_, hallowed, h⟩ := bind_eq_ok.mp h
  obtain rfl := Except.ok.inj h
  constructor
  · intro c hc
    obtain rfl := Option.some.inj hc
    exact List.contains_iff_mem.mp (require_eq_ok.mp hallowed)
  · exact hfb.statusClass

theorem AntibotFeedbackPlaintext.InVocabulary.withHttpStatus {feedback : AntibotFeedbackPlaintext}
    (hfb : feedback.InVocabulary) (status : UInt16) :
    (feedback.withHttpStatus status).InVocabulary where
  proxyClass := hfb.proxyClass
  statusClass := by
    intro c hc
    obtain rfl := Option.some.inj hc
    repeat' split
    all_goals decide

/-- What the production path writes is in the vocabulary. -/
theorem failureFeedback_inVocabulary {taskId nonce : String} {httpStatus : UInt16}
    {suggestResidential : Bool} {feedback : AntibotFeedbackPlaintext}
    (h : failureFeedback taskId nonce httpStatus suggestResidential = .ok feedback) :
    feedback.InVocabulary := by
  have hstatus := (inVocabulary_new taskId nonce
    (CoarseFailureHint.fromHttpStatus httpStatus)).withHttpStatus httpStatus
  simp only [failureFeedback] at h
  split at h
  · exact hstatus.withSuggestedProxyClass h
  · obtain rfl := Except.ok.inj h
    exact hstatus

/-! ## What the sealer accepts -/

variable {box : Crypto} {json : Codec ResultSealPlaintext}

@[simp] theorem Json.asStr_ofOption (s : Option String) :
    (Json.Value.ofOption s).tree.asStr = s := by
  cases s <;> rfl

/-- The members read back as the fields they were written for. -/
theorem readText_member (feedback : AntibotFeedbackPlaintext) :
    readText feedback.member.tree "failure" = some feedback.failure.asStr ∧
    readText feedback.member.tree "suggested_proxy_class" = feedback.suggestedProxyClass ∧
    readText feedback.member.tree "http_status_class" = feedback.httpStatusClass := by
  have hget : ∀ key, feedback.member.tree.get key =
      (((Json.Map.empty.insert "failure" (.string feedback.failure.asStr)).insert
        "suggested_proxy_class" (.ofOption feedback.suggestedProxyClass)).insert
        "http_status_class" (.ofOption feedback.httpStatusClass)).get key := fun _ => rfl
  simp only [readText, hget]
  refine ⟨?_, ?_, ?_⟩
  · rw [Json.Map.get_insert_of_ne _ _ (by decide), Json.Map.get_insert_of_ne _ _ (by decide),
      Json.Map.get_insert]
    rfl
  · rw [Json.Map.get_insert_of_ne _ _ (by decide), Json.Map.get_insert]
    exact Json.asStr_ofOption _
  · rw [Json.Map.get_insert]
    exact Json.asStr_ofOption _

/-- **Feedback survives its disguise**: what is put into a result plaintext is read back. -/
theorem readFeedback_toResult (feedback : AntibotFeedbackPlaintext) :
    readFeedback (feedback.toResult box) = .ok feedback := by
  obtain ⟨hfailure, hproxy, hstatus⟩ := readText_member feedback
  have hget : (feedback.toResult box).formatsProduced.get "antibot_feedback" =
      some feedback.member.tree := Json.Map.get_insert _ _ _
  simp only [readFeedback, hget, hfailure, hproxy, hstatus, okOr_some, ok_bind,
    parseFailureHint_asStr]
  rfl

/-- The feedback envelope that says what a result envelope says, under the other kind. -/
def SealedResultEnvelope.relabel (envelope : SealedResultEnvelope) : SealedAntibotFeedback where
  version := envelope.version
  suite := envelope.suite
  kind := antibotFeedbackKind
  recipient := envelope.recipient
  recipientKeyId := envelope.recipientKeyId
  taskId := envelope.taskId
  nonce := envelope.nonce
  feedbackHash := envelope.resultHash
  ciphertext := envelope.ciphertext

/-- **Sealed feedback** is its result envelope with another kind on it. -/
theorem sealAntibotFeedback_eq_ok {entropy : Bytes} {feedback : AntibotFeedbackPlaintext}
    {committee : CommitteeThresholdPublicKey} {envelope : SealedAntibotFeedback} :
    sealAntibotFeedback box json entropy feedback committee = .ok envelope ↔
      sealResultToCommittee box json entropy (feedback.toResult box) committee =
        .ok envelope.toResult ∧ envelope = envelope.toResult.relabel := by
  constructor
  · intro h
    obtain ⟨_, -, h⟩ := bind_eq_ok.mp h
    obtain ⟨_, -, h⟩ := bind_eq_ok.mp h
    obtain ⟨inner, hinner, h⟩ := bind_eq_ok.mp h
    obtain rfl := Except.ok.inj h
    obtain ⟨-, -, ciphertext, -, -, -, -, -, -, -, rfl⟩ := sealResultToCommittee_eq_ok hinner
    exact ⟨hinner, rfl⟩
  · rintro ⟨hinner, henvelope⟩
    obtain ⟨-, -, ciphertext, -, -, ht, hn, -, -, -, hwrap⟩ := sealResultToCommittee_eq_ok hinner
    have ht' : feedback.taskId ≠ "" := ht
    have hn' : feedback.nonce ≠ "" := hn
    have hids : (feedback.taskId != "" && feedback.nonce != "") = true := by simp [ht', hn']
    simp only [sealAntibotFeedback, AntibotFeedbackPlaintext.isCoarseOnly, hids, require_true,
      ok_bind, hinner]
    rw [henvelope, hwrap]
    rfl

/-- A committee key that the sealer takes: its id belongs to its bytes. -/
def CommitteeThresholdPublicKey.Published (box : Crypto) (committee : CommitteeThresholdPublicKey) :
    Prop :=
  ∃ keyBytes, committee.publicKeyBytes = .ok keyBytes ∧ committee.keyId = keyIdFor box keyBytes

/-- The sealer refuses feedback for its ids or for the committee key, and for nothing else. -/
theorem sealAntibotFeedback_isOk_iff {entropy : Bytes} {feedback : AntibotFeedbackPlaintext}
    {committee : CommitteeThresholdPublicKey}
    (hprint : (json.toVec (feedback.toResult box)).isSome)
    (hsealed : ∀ key message, (box.sealBytes key entropy message).isSome) :
    (∃ envelope, sealAntibotFeedback box json entropy feedback committee = .ok envelope) ↔
      feedback.taskId ≠ "" ∧ feedback.nonce ≠ "" ∧ committee.Published box := by
  constructor
  · rintro ⟨envelope, h⟩
    obtain ⟨keyBytes, -, -, hkey, hid, ht, hn, -⟩ :=
      sealResultToCommittee_eq_ok (sealAntibotFeedback_eq_ok.mp h).1
    exact ⟨ht, hn, keyBytes, hkey, hid⟩
  · rintro ⟨ht, hn, keyBytes, hkey, hid⟩
    obtain ⟨body, hbody⟩ := Option.isSome_iff_exists.mp hprint
    obtain ⟨ciphertext, hcipher⟩ := Option.isSome_iff_exists.mp (hsealed keyBytes _)
    have hinner : sealResultToCommittee box json entropy (feedback.toResult box) committee =
        .ok (.wrap committee.keyId (feedback.toResult box) ciphertext) :=
      sealResultToCommittee_wrap rfl ht hn (isHexDigest_hexEncode _) hkey hid hbody hcipher
    exact ⟨(SealedResultEnvelope.wrap committee.keyId (feedback.toResult box) ciphertext).relabel,
      sealAntibotFeedback_eq_ok.mpr ⟨hinner, rfl⟩⟩

/-! ## What the opener accepts -/

/-- The shape check of feedback passes any result envelope under the other kind. -/
theorem unsealAntibotFeedback_relabel {envelope : SealedResultEnvelope} {secret : Bytes32}
    {opened : ResultSealPlaintext} {feedback : AntibotFeedbackPlaintext}
    (hopen : unsealResultWithCommitteeSecret box json envelope secret = .ok opened)
    (hread : readFeedback opened = .ok feedback) :
    unsealAntibotFeedbackWithCommitteeSecret box json envelope.relabel secret = .ok feedback := by
  have hshape := hopen
  unfold unsealResultWithCommitteeSecret at hshape
  obtain ⟨_, hshape, -⟩ := bind_eq_ok.mp hshape
  simp only [validateResultEnvelopeShape, bind_eq_ok, require_eq_ok, beq_iff_eq,
    Bool.and_eq_true, exists_const] at hshape
  obtain ⟨hversion, hsuite, hkind, hrecipient, hkey, hids, hhash, hcipher⟩ := hshape
  have hhash0 : (envelope.resultHash != "") = true := by
    rw [bne_iff_ne]
    intro he
    rw [he] at hhash
    exact absurd hhash (by decide)
  have hkey' : (stripPrefix envelope.recipientKeyId "sha256:").isSome = true := by
    unfold isKeyId at hkey
    split at hkey
    · cases hkey
    · rename_i hex heq
      rw [heq]
      rfl
  have hback : envelope.relabel.toResult = envelope := by
    cases envelope
    simp only at hkind hrecipient
    simp only [SealedResultEnvelope.relabel, SealedAntibotFeedback.toResult, hkind, hrecipient]
  have hvalid : validateFeedbackEnvelope envelope.relabel = .ok () := by
    simp only [validateFeedbackEnvelope, SealedResultEnvelope.relabel, hversion, hsuite, hrecipient,
      hids.1, hids.2, hhash0, hcipher, hkey', antibotFeedbackSuite, antibotFeedbackRecipient,
      beq_self_eq_true, Bool.and_self, require_true, ok_bind]
  rw [unsealAntibotFeedbackWithCommitteeSecret, hvalid, hback, hopen]
  exact hread

/-- **Round trip**: feedback sealed under ids without NUL opens to itself. -/
theorem unsealAntibotFeedback_seal (hbox : box.Lawful) (hjson : json.Lawful) {secret : Bytes32}
    {entropy : Bytes} {feedback : AntibotFeedbackPlaintext}
    {committee : CommitteeThresholdPublicKey} {envelope : SealedAntibotFeedback}
    (hpair : committee.publicKeyBytes = .ok (box.publicKey secret))
    (hseal : sealAntibotFeedback box json entropy feedback committee = .ok envelope)
    (ht : '\x00' ∉ feedback.taskId.toList) (hn : '\x00' ∉ feedback.nonce.toList) :
    unsealAntibotFeedbackWithCommitteeSecret box json envelope secret = .ok feedback := by
  obtain ⟨hinner, henvelope⟩ := sealAntibotFeedback_eq_ok.mp hseal
  rw [henvelope]
  exact unsealAntibotFeedback_relabel (unsealResult_seal hbox hjson hpair hinner ht hn)
    (readFeedback_toResult feedback)

/-- A text the committee opens as feedback was opened as a result before. -/
theorem unsealAntibotFeedback_eq_ok {envelope : SealedAntibotFeedback} {secret : Bytes32}
    {feedback : AntibotFeedbackPlaintext} :
    unsealAntibotFeedbackWithCommitteeSecret box json envelope secret = .ok feedback ↔
      ∃ opened, validateFeedbackEnvelope envelope = .ok () ∧
        unsealResultWithCommitteeSecret box json envelope.toResult secret = .ok opened ∧
        readFeedback opened = .ok feedback := by
  simp only [unsealAntibotFeedbackWithCommitteeSecret, bind_eq_ok]
  constructor
  · rintro ⟨_, hvalid, opened, hopen, hread⟩
    exact ⟨opened, hvalid, hopen, hread⟩
  · rintro ⟨opened, hvalid, hopen, hread⟩
    exact ⟨(), hvalid, opened, hopen, hread⟩

/-! ## The two kinds -/

/-- No envelope around either ciphertext is accepted as the other kind, whatever the host writes in
    its cleartext fields. -/
structure KindsSeparated (box : Crypto) (json : Codec ResultSealPlaintext) (secret : Bytes32)
    (feedbackCiphertext resultCiphertext : String) : Prop where
  notResult : ∀ envelope : SealedResultEnvelope, envelope.ciphertext = feedbackCiphertext →
    ∀ opened, unsealResultWithCommitteeSecret box json envelope secret ≠ .ok opened
  notFeedback : ∀ envelope : SealedAntibotFeedback, envelope.ciphertext = resultCiphertext →
    ∀ feedback, unsealAntibotFeedbackWithCommitteeSecret box json envelope secret ≠ .ok feedback

/-- The ids under which no sealed message can be opened. -/
def IdsHoldNul (taskId nonce : String) : Prop := '\x00' ∈ taskId.toList ∨ '\x00' ∈ nonce.toList

/-- An ordinary result has no format of this name, and nothing to be read as feedback. -/
theorem readFeedback_ordinary {result : ResultSealPlaintext} {feedback : AntibotFeedbackPlaintext}
    (h : result.formatsProduced.get "antibot_feedback" = none) :
    readFeedback result ≠ .ok feedback := by
  simp [readFeedback, h, okOr, Bind.bind, Except.bind]

/-- **Kinds.**  A sealed feedback and a sealed result cannot be taken for each other exactly when
    the ids of the feedback hold a NUL (nobody can open it) and the result has nothing in it that
    reads as feedback (or cannot be opened either). -/
theorem kindsSeparated_iff (box : Crypto) (hbox : box.Lawful) (json : Codec ResultSealPlaintext)
    (hjson : json.Lawful) (hnul : json.NulFree) (entropy entropy' : Bytes) (secret : Bytes32)
    (committee : CommitteeThresholdPublicKey)
    (hpair : committee.publicKeyBytes = .ok (box.publicKey secret))
    (feedback : AntibotFeedbackPlaintext) (feedbackEnvelope : SealedAntibotFeedback)
    (hfeedback : sealAntibotFeedback box json entropy feedback committee = .ok feedbackEnvelope)
    (result : ResultSealPlaintext) (resultEnvelope : SealedResultEnvelope)
    (hresult : sealResultToCommittee box json entropy' result committee = .ok resultEnvelope) :
    KindsSeparated box json secret feedbackEnvelope.ciphertext resultEnvelope.ciphertext ↔
      IdsHoldNul feedback.taskId feedback.nonce ∧
        (IdsHoldNul result.taskId result.nonce ∨ ∀ found, readFeedback result ≠ .ok found) := by
  have hinner := (sealAntibotFeedback_eq_ok.mp hfeedback).1
  constructor
  · rintro ⟨hnotResult, hnotFeedback⟩
    constructor
    · -- without a NUL the result opener takes the very envelope the feedback was made from
      by_contra hids
      obtain ⟨ht, hn⟩ := not_or.mp hids
      exact hnotResult _ rfl _ (unsealResult_seal hbox hjson hpair hinner ht hn)
    · by_cases hids : IdsHoldNul result.taskId result.nonce
      · exact Or.inl hids
      · right
        intro found hfound
        obtain ⟨ht, hn⟩ := not_or.mp hids
        have hopen := unsealResult_seal hbox hjson hpair hresult ht hn
        exact hnotFeedback resultEnvelope.relabel rfl found
          (unsealAntibotFeedback_relabel hopen hfound)
  · rintro ⟨hids, hresultIds⟩
    constructor
    · intro envelope hcipher opened hopen
      obtain ⟨-, ht, hn⟩ := unsealResult_of_seal hbox hjson hnul hpair hinner hcipher hopen
      exact hids.elim ht hn
    · intro envelope hcipher found haccept
      obtain ⟨opened, -, hopen, hread⟩ := unsealAntibotFeedback_eq_ok.mp haccept
      obtain ⟨rfl, ht, hn⟩ := unsealResult_of_seal hbox hjson hnul hpair hresult hcipher hopen
      rcases hresultIds with hresultIds | hnone
      · exact hresultIds.elim ht hn
      · exact hnone found hread

deriving instance DecidableEq for ResultSealPlaintext

/-- Feedback about a blocked page, with a proxy advisory. -/
def blockedFeedback (proxyClass : String) : AntibotFeedbackPlaintext :=
  ⟨"task-1", "nonce-1", .blocked, some proxyClass, some "4xx"⟩

/-- Its text. -/
def blockedText (proxyClass : String) : Bytes :=
  utf8 ("\x7b\"task_id\":\"task-1\",\"nonce\":\"nonce-1\",\"result_hash\":\"" ++
    feedbackHash fixedBox (blockedFeedback proxyClass) ++
    "\",\"formats_produced\":\x7b\"antibot_feedback\":\x7b\"failure\":\"blocked\"," ++
    "\"http_status_class\":\"4xx\",\"suggested_proxy_class\":\"" ++ proxyClass ++
    "\"\x7d\x7d\x7d")

/-- A codec that knows this feedback and the one plaintext. -/
def blockedCodec (proxyClass : String) : Codec ResultSealPlaintext :=
  .ofTable [((blockedFeedback proxyClass).toResult fixedBox, blockedText proxyClass),
    (onePlaintext "task-1", onePlaintextText "\"task-1\"")]

/-- The envelope around this feedback. -/
def blockedEnvelope (proxyClass : String) : SealedAntibotFeedback :=
  (SealedResultEnvelope.wrap fixedCommittee.keyId ((blockedFeedback proxyClass).toResult fixedBox)
    (fixedPublicKey.toList ++ List.replicate 16 0 ++
      (utf8 (resultAadText "task-1" "nonce-1" (feedbackHash fixedBox (blockedFeedback proxyClass))
        fixedCommittee.keyId) ++ 0 :: blockedText proxyClass))).relabel

/-- The sealer takes this feedback, whatever its advisory says. -/
theorem sealAntibotFeedback_blocked (proxyClass : String) :
    sealAntibotFeedback fixedBox (blockedCodec proxyClass) [] (blockedFeedback proxyClass)
      fixedCommittee = .ok (blockedEnvelope proxyClass) := by
  have hkey : fixedCommittee.publicKeyBytes = .ok fixedPublicKey :=
    publicKeyBytes_fromPublicKeyBytes fixedBox fixedPublicKey
  have hbody : (blockedCodec proxyClass).toVec ((blockedFeedback proxyClass).toResult fixedBox) =
      some (blockedText proxyClass) := by
    simp [blockedCodec, Codec.ofTable]
  have ht : ((blockedFeedback proxyClass).toResult fixedBox).taskId ≠ "" := by
    show "task-1" ≠ ""
    decide
  have hn : ((blockedFeedback proxyClass).toResult fixedBox).nonce ≠ "" := by
    show "nonce-1" ≠ ""
    decide
  refine sealAntibotFeedback_eq_ok.mpr ⟨?_, rfl⟩
  exact sealResultToCommittee_wrap rfl ht hn (isHexDigest_hexEncode _) hkey rfl hbody rfl

theorem blockedCodec_lawful : (blockedCodec "mobile").Lawful :=
  Codec.ofTable_lawful (by decide)

theorem blockedCodec_nulFree : (blockedCodec "mobile").NulFree := by
  refine Codec.ofTable_nulFree ?_
  rintro entry (_ | ⟨_, _ | ⟨_, ⟨⟩⟩⟩)
  · decide
  · decide

/-- The sealer takes the one plaintext under the same codec. -/
theorem sealResult_blockedCodec :
    sealResultToCommittee fixedBox (blockedCodec "mobile") [] (onePlaintext "task-1")
      fixedCommittee = .ok (oneEnvelope "task-1" "\"task-1\"") := by
  have hkey : fixedCommittee.publicKeyBytes = .ok fixedPublicKey :=
    publicKeyBytes_fromPublicKeyBytes fixedBox fixedPublicKey
  have hbody : (blockedCodec "mobile").toVec (onePlaintext "task-1") =
      some (onePlaintextText "\"task-1\"") := by decide +kernel
  exact sealResultToCommittee_wrap rfl (by decide) (by decide) isHexDigest_emptyDigest hkey rfl
    hbody rfl

theorem kindsSeparated_iff_blocked :
    ¬ KindsSeparated fixedBox (blockedCodec "mobile") fixedSecret
      (blockedEnvelope "mobile").ciphertext (oneEnvelope "task-1" "\"task-1\"").ciphertext := by
  intro h
  have hboth := (kindsSeparated_iff fixedBox fixedBox_lawful (blockedCodec "mobile")
    blockedCodec_lawful blockedCodec_nulFree [] [] fixedSecret fixedCommittee
    (publicKeyBytes_fromPublicKeyBytes fixedBox fixedPublicKey) (blockedFeedback "mobile")
    (blockedEnvelope "mobile") (sealAntibotFeedback_blocked "mobile") (onePlaintext "task-1")
    (oneEnvelope "task-1" "\"task-1\"") sealResult_blockedCodec).mp h
  exact hboth.1.elim (by decide) (by decide)

/-- Feedback relabelled as a result opens as a result, with the feedback as its one format. -/
theorem feedback_opens_as_result :
    sealAntibotFeedback fixedBox (blockedCodec "mobile") [] (blockedFeedback "mobile")
        fixedCommittee = .ok (blockedEnvelope "mobile") ∧
    (blockedEnvelope "mobile").toResult.ciphertext = (blockedEnvelope "mobile").ciphertext ∧
    unsealResultWithCommitteeSecret fixedBox (blockedCodec "mobile")
        (blockedEnvelope "mobile").toResult fixedSecret =
      .ok ((blockedFeedback "mobile").toResult fixedBox) ∧
    ¬ KindsSeparated fixedBox (blockedCodec "mobile") fixedSecret
      (blockedEnvelope "mobile").ciphertext (oneEnvelope "task-1" "\"task-1\"").ciphertext := by
  have hopen : unsealResultWithCommitteeSecret fixedBox (blockedCodec "mobile")
      (blockedEnvelope "mobile").toResult fixedSecret =
      .ok ((blockedFeedback "mobile").toResult fixedBox) :=
    unsealResult_seal fixedBox_lawful blockedCodec_lawful
      (publicKeyBytes_fromPublicKeyBytes fixedBox fixedPublicKey)
      (sealAntibotFeedback_eq_ok.mp (sealAntibotFeedback_blocked "mobile")).1
      (by decide) (by decide)
  refine ⟨sealAntibotFeedback_blocked "mobile", rfl, hopen, ?_⟩
  intro h
  exact h.notResult _ rfl _ hopen

/-! ## The vocabulary, on both sides -/

/-- What the opener reads of an opened plaintext is in the vocabulary, if it reads feedback. -/
def ResultSealPlaintext.ReadsCoarse (opened : ResultSealPlaintext) : Prop :=
  ∀ member, opened.formatsProduced.get "antibot_feedback" = some member →
    ((readText member "failure").bind parseFailureHint).isSome →
    (∀ c, readText member "suggested_proxy_class" = some c → c ∈ proxyClasses) ∧
    (∀ c, readText member "http_status_class" = some c → c ∈ statusClasses)

theorem readFeedback_eq_ok {opened : ResultSealPlaintext} {feedback : AntibotFeedbackPlaintext} :
    readFeedback opened = .ok feedback ↔
      ∃ member hint, opened.formatsProduced.get "antibot_feedback" = some member ∧
        (readText member "failure").bind parseFailureHint = some hint ∧
        feedback = ⟨opened.taskId, opened.nonce, hint, readText member "suggested_proxy_class",
          readText member "http_status_class"⟩ := by
  simp only [readFeedback, bind_eq_ok, okOr_eq_ok, Except.ok.injEq, Option.bind_eq_some_iff]
  constructor
  · rintro ⟨member, hmember, text, htext, hint, hparse, rfl⟩
    exact ⟨member, hint, hmember, ⟨text, htext, hparse⟩, rfl⟩
  · rintro ⟨member, hint, hmember, ⟨text, htext, hparse⟩, rfl⟩
    exact ⟨member, hmember, text, htext, hint, hparse, rfl⟩

/-- A plaintext reads coarse when every feedback read from it is in the vocabulary. -/
theorem readsCoarse_iff {opened : ResultSealPlaintext} :
    opened.ReadsCoarse ↔
      ∀ feedback, readFeedback opened = .ok feedback → feedback.InVocabulary := by
  constructor
  · intro h feedback hread
    obtain ⟨member, hint, hmember, hparse, rfl⟩ := readFeedback_eq_ok.mp hread
    obtain ⟨hproxy, hstatus⟩ := h member hmember (hparse ▸ rfl)
    exact ⟨hproxy, hstatus⟩
  · intro h member hmember hsome
    obtain ⟨hint, hparse⟩ := Option.isSome_iff_exists.mp hsome
    have hvocab := h _ (readFeedback_eq_ok.mpr ⟨member, hint, hmember, hparse, rfl⟩)
    exact ⟨hvocab.proxyClass, hvocab.statusClass⟩

/-- **Vocabulary.**  The sealer keeps to the closed vocabulary on the values that were in it before,
    or that it refuses for their ids or the committee key; the opener keeps to it on the plaintexts
    whose texts were in it before. -/
theorem antibotFeedback_vocabulary_iff (box : Crypto) (json : Codec ResultSealPlaintext)
    (entropy : Bytes) (feedback : AntibotFeedbackPlaintext)
    (committee : CommitteeThresholdPublicKey)
    (hprint : (json.toVec (feedback.toResult box)).isSome)
    (hsealed : ∀ key message, (box.sealBytes key entropy message).isSome)
    (envelope : SealedAntibotFeedback) (secret : Bytes32) :
    ((∀ out, sealAntibotFeedback box json entropy feedback committee = .ok out →
        feedback.InVocabulary) ↔
      feedback.taskId = "" ∨ feedback.nonce = "" ∨ ¬ committee.Published box ∨
        feedback.InVocabulary) ∧
    ((∀ found, unsealAntibotFeedbackWithCommitteeSecret box json envelope secret = .ok found →
        found.InVocabulary) ↔
      ∀ opened, validateFeedbackEnvelope envelope = .ok () →
        unsealResultWithCommitteeSecret box json envelope.toResult secret = .ok opened →
        opened.ReadsCoarse) := by
  constructor
  · have hok : (∃ out, sealAntibotFeedback box json entropy feedback committee = .ok out) ↔
        feedback.taskId ≠ "" ∧ feedback.nonce ≠ "" ∧ committee.Published box :=
      sealAntibotFeedback_isOk_iff hprint hsealed
    constructor
    · intro h
      by_cases hout : ∃ out, sealAntibotFeedback box json entropy feedback committee = .ok out
      · obtain ⟨out, hout⟩ := hout
        exact Or.inr (Or.inr (Or.inr (h out hout)))
      · have hrefused := mt hok.mpr hout
        tauto
    · intro h out hout
      obtain ⟨ht, hn, hkey⟩ := hok.mp ⟨out, hout⟩
      exact ((h.resolve_left ht).resolve_left hn).resolve_left (not_not.mpr hkey)
  · constructor
    · intro h opened hvalid hopen
      refine readsCoarse_iff.mpr ?_
      intro found hread
      exact h found (unsealAntibotFeedback_eq_ok.mpr ⟨opened, hvalid, hopen, hread⟩)
    · intro h found haccept
      obtain ⟨opened, hvalid, hopen, hread⟩ := unsealAntibotFeedback_eq_ok.mp haccept
      exact readsCoarse_iff.mp (h opened hvalid hopen) found hread

/-- A text from the origin, in the place of the advisory. -/
def leakedText : String := "https://origin.example/account?id=7 <title>Members only</title>"

theorem antibotFeedback_vocabulary_leak :
    ¬ ∀ out, sealAntibotFeedback fixedBox (blockedCodec leakedText) [] (blockedFeedback leakedText)
      fixedCommittee = .ok out → (blockedFeedback leakedText).InVocabulary := by
  intro h
  have hprint : ((blockedCodec leakedText).toVec
      ((blockedFeedback leakedText).toResult fixedBox)).isSome := by
    simp [blockedCodec, Codec.ofTable]
  have hcases := (antibotFeedback_vocabulary_iff fixedBox (blockedCodec leakedText) []
    (blockedFeedback leakedText) fixedCommittee hprint (fun _ _ => rfl)
    (blockedEnvelope leakedText) fixedSecret).1.mp h
  rcases hcases with ht | hn | hkey | hvocab
  · exact absurd ht (by decide)
  · exact absurd hn (by decide)
  · exact hkey ⟨fixedPublicKey, publicKeyBytes_fromPublicKeyBytes fixedBox fixedPublicKey, rfl⟩
  · exact absurd (hvocab.proxyClass leakedText rfl) (by decide)

theorem leakedCodec_lawful : (blockedCodec leakedText).Lawful :=
  Codec.ofTable_lawful (by decide)

/-- A free-form text is sealed as feedback, and opened as feedback. -/
theorem antibotFeedback_leaks :
    sealAntibotFeedback fixedBox (blockedCodec leakedText) [] (blockedFeedback leakedText)
        fixedCommittee = .ok (blockedEnvelope leakedText) ∧
    unsealAntibotFeedbackWithCommitteeSecret fixedBox (blockedCodec leakedText)
        (blockedEnvelope leakedText) fixedSecret = .ok (blockedFeedback leakedText) ∧
    ¬ (blockedFeedback leakedText).InVocabulary := by
  refine ⟨sealAntibotFeedback_blocked leakedText, ?_, ?_⟩
  · exact unsealAntibotFeedback_seal fixedBox_lawful leakedCodec_lawful
      (publicKeyBytes_fromPublicKeyBytes fixedBox fixedPublicKey)
      (sealAntibotFeedback_blocked leakedText) (by decide) (by decide)
  · intro h
    exact absurd (h.proxyClass leakedText rfl) (by decide)

end Basecrawl.Seal
