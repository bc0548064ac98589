/-
  Sealing the scrape result to the validator committee's threshold public key.

  The sealed message is `aad || 0x00 || json(result)`, cut at the first NUL when it is opened.
  The ids in the associated data come from the caller unescaped, and the opener does not read them
  back: it rebuilds the text from the host-visible fields and compares.  So the separator is
  harmless here and only NUL is not:

  1. **Sealing** — `sealResultToCommittee_eq_ok`: what an accepted plaintext satisfies and what
     envelope comes out.
  2. **Opening** — `unsealResult_eq_ok`: what an accepted envelope opened to.
  3. **Round trip** — `unsealResult_seal` and its converse, for ids without NUL.
-/
import Basecrawl.Lib.Json
import Basecrawl.Seal.Wire

namespace Basecrawl.Seal

open Text Hex Outcome

/-! ## Keys, envelope and plaintext -/

/-- `RESULT_SEAL_SUITE`. -/
def resultSealSuite : String := "libsodium-sealed-box-x25519-xsalsa20-poly1305"

/-- `RESULT_SEAL_DOMAIN`. -/
def resultSealDomain : String := "relay/result-seal/v1"

/-- `RESULT_SEAL_KIND`. -/
def resultSealKind : String := "result"

/-- `RESULT_RECIPIENT_ROLE`. -/
def resultRecipientRole : String := "committee-threshold"

/-- `MIN_SEALED_CIPHERTEXT_LEN` of `result.rs`. -/
def minSealedResultLen : Nat := 48

/-- `decode_hex_32`. -/
def decodeHex32 (hex : String) : Except SealError Bytes32 := do
  require ((utf8 hex).length == 64 && (utf8 hex).all fun c => (hexValue c).isSome)
    (.invalidIdentity "committee public key must be 32 lowercase hex bytes")
  require (hex == asciiLower hex) (.invalidIdentity "committee public key hex must be lowercase")
  match hexBytes (utf8 hex) with
  | some bytes =>
      if h : bytes.length = 32 then .ok ⟨bytes.toArray, h⟩
      else .error (.invalidIdentity "committee public key is not hexadecimal")
  | none => .error (.invalidIdentity "committee public key is not hexadecimal")

/-- Published validator-committee threshold public key, as it comes off the wire: that `keyId`
    belongs to `publicKey` is checked when it is used. -/
structure CommitteeThresholdPublicKey where
  publicKey : String
  keyId : String
deriving DecidableEq

/-- `CommitteeThresholdPublicKey::from_public_key_bytes`. -/
def CommitteeThresholdPublicKey.fromPublicKeyBytes (box : Crypto) (bytes : Bytes32) :
    CommitteeThresholdPublicKey where
  publicKey := hexEncode bytes.toList
  keyId := keyIdFor box bytes

/-- `CommitteeThresholdPublicKey::public_key_bytes`. -/
def CommitteeThresholdPublicKey.publicKeyBytes (committee : CommitteeThresholdPublicKey) :
    Except SealError Bytes32 :=
  decodeHex32 committee.publicKey

/-- Host-visible sealed-result envelope. -/
structure SealedResultEnvelope where
  version : UInt32
  suite : String
  kind : String
  recipient : String
  recipientKeyId : String
  taskId : String
  nonce : String
  resultHash : String
  ciphertext : String
deriving DecidableEq

/-- The result body sealed to the committee. -/
@[ext] structure ResultSealPlaintext where
  taskId : String
  nonce : String
  resultHash : String
  formatsProduced : Json.Map

/-! ## The associated data -/

/-- The text of the associated data of a result. -/
def resultAadText (taskId nonce resultHash recipientKeyId : String) : String :=
  resultSealDomain ++ "|task_id=" ++ taskId ++ "|nonce=" ++ nonce ++ "|result_hash=" ++
    resultHash ++ "|recipient_key_id=" ++ recipientKeyId ++ "|recipient=" ++ resultRecipientRole

/-- `build_result_aad`. -/
def buildResultAad (taskId nonce resultHash recipientKeyId : String) : Except SealError Bytes := do
  require (taskId != "" && nonce != "" && resultHash != "" && isKeyId recipientKeyId)
    (.invalidEnvelope "result sealing metadata is malformed")
  .ok (utf8 (resultAadText taskId nonce resultHash recipientKeyId))

/-! ## Sealing and opening -/

/-- `validate_plaintext`. -/
def validatePlaintext (plaintext : ResultSealPlaintext) : Except SealError Unit := do
  require (plaintext.taskId != "" && plaintext.nonce != "")
    (.invalidEnvelope "result plaintext is missing task_id/nonce")
  require (!plaintext.formatsProduced.isEmpty)
    (.invalidEnvelope "result plaintext carries no formats_produced entries")

/-- `validate_envelope_shape` of `result.rs`. -/
def validateResultEnvelopeShape (envelope : SealedResultEnvelope) : Except SealError Unit := do
  require (envelope.version == 1) (.invalidEnvelope "unsupported version")
  require (envelope.suite == resultSealSuite) (.invalidEnvelope "unsupported suite")
  require (envelope.kind == resultSealKind) (.invalidEnvelope "envelope kind is not result")
  require (envelope.recipient == resultRecipientRole)
    (.invalidEnvelope "result envelope is not addressed to the committee-threshold role")
  require (isKeyId envelope.recipientKeyId) (.invalidEnvelope "recipient_key_id is malformed")
  require (envelope.taskId != "" && envelope.nonce != "")
    (.invalidEnvelope "result seal envelope is missing routing ids")
  require (isHexDigest envelope.resultHash) (.invalidEnvelope "result_hash is malformed")
  require (envelope.ciphertext != "") (.invalidEnvelope "ciphertext is empty")

/-- `seal_result_to_committee`. -/
def sealResultToCommittee (box : Crypto) (json : Codec ResultSealPlaintext) (entropy : Bytes)
    (plaintext : ResultSealPlaintext) (committee : CommitteeThresholdPublicKey) :
    Except SealError SealedResultEnvelope := do
  validatePlaintext plaintext
  require (plaintext.resultHash != "" && isHexDigest plaintext.resultHash)
    (.invalidEnvelope "result_hash must be a lowercase hex digest")
  let keyBytes ← committee.publicKeyBytes
  require (committee.keyId == keyIdFor box keyBytes)
    (.invalidEnvelope "committee key_id does not match public key")
  let aad ← buildResultAad plaintext.taskId plaintext.nonce plaintext.resultHash committee.keyId
  let body ← okOr (json.toVec plaintext) .malformedPlaintext
  let authenticated := aad ++ 0 :: body
  let pkBytes ← committee.publicKeyBytes
  let ciphertext ← okOr (box.sealBytes pkBytes entropy authenticated) .authenticationFailed
  .ok
    { version := 1
      suite := resultSealSuite
      kind := resultSealKind
      recipient := resultRecipientRole
      recipientKeyId := committee.keyId
      taskId := plaintext.taskId
      nonce := plaintext.nonce
      resultHash := plaintext.resultHash
      ciphertext := encodeB64url ciphertext }

/-- `unseal_result_with_committee_secret`. -/
def unsealResultWithCommitteeSecret (box : Crypto) (json : Codec ResultSealPlaintext)
    (envelope : SealedResultEnvelope) (committeeSecret : Bytes32) :
    Except SealError ResultSealPlaintext := do
  validateResultEnvelopeShape envelope
  let ciphertext ← decodeB64url envelope.ciphertext
  require (ciphertext.length > minSealedResultLen) .authenticationFailed
  let expectedKeyId := keyIdFor box (box.publicKey committeeSecret)
  require (expectedKeyId == envelope.recipientKeyId)
    (.invalidEnvelope "committee secret does not match recipient_key_id")
  let authenticated ← okOr (box.unsealBytes committeeSecret ciphertext) .authenticationFailed
  let (aad, body) ← splitAadPlaintext authenticated
  let expectedAad ← buildResultAad envelope.taskId envelope.nonce envelope.resultHash
    envelope.recipientKeyId
  require (constantTimeEq aad expectedAad) .authenticationFailed
  let plaintext ← okOr (json.fromSlice body) .malformedPlaintext
  require (plaintext.taskId == envelope.taskId && plaintext.nonce == envelope.nonce &&
    plaintext.resultHash == envelope.resultHash) .malformedPlaintext
  .ok plaintext

/-- `decrypt_result_as_miner_host`. -/
def decryptResultAsMinerHost (envelope : SealedResultEnvelope) :
    Except SealError ResultSealPlaintext := do
  validateResultEnvelopeShape envelope
  .error .keyNotReleased

/-! ## Published keys -/

/-- **A published key decodes to the bytes it was made from.** -/
theorem publicKeyBytes_fromPublicKeyBytes (box : Crypto) (bytes : Bytes32) :
    (CommitteeThresholdPublicKey.fromPublicKeyBytes box bytes).publicKeyBytes = .ok bytes := by
  obtain ⟨hlen, hall, hlow⟩ := hexEncode_spec bytes.toList
  rw [Vector.length_toList] at hlen
  have hdigits : (utf8 (hexEncode bytes.toList)).all
      (fun c => (hexValue c).isSome) = true := by
    rw [List.all_eq_true] at hall ⊢
    exact fun c hc => hexValue_isSome (hall c hc)
  have hbytes := hexBytes_hexEncode bytes.toList
  simp only [CommitteeThresholdPublicKey.publicKeyBytes, decodeHex32,
    CommitteeThresholdPublicKey.fromPublicKeyBytes, hlen, hdigits, hlow,
    beq_self_eq_true, Bool.and_self, require_true, ok_bind, hbytes]
  simp [Vector.toList]

/-! ## What the sealer accepts -/

theorem buildResultAad_eq_ok {taskId nonce resultHash keyId : String} {aad : Bytes} :
    buildResultAad taskId nonce resultHash keyId = .ok aad ↔
      taskId ≠ "" ∧ nonce ≠ "" ∧ resultHash ≠ "" ∧ isKeyId keyId = true ∧
        aad = utf8 (resultAadText taskId nonce resultHash keyId) := by
  simp only [buildResultAad, bind_eq_ok, require_eq_ok, Bool.and_eq_true, bne_iff_ne,
    Except.ok.injEq]
  constructor
  · rintro ⟨-, ⟨⟨⟨ht, hn⟩, hh⟩, hk⟩, rfl⟩
    exact ⟨ht, hn, hh, hk, rfl⟩
  · rintro ⟨ht, hn, hh, hk, rfl⟩
    exact ⟨(), ⟨⟨⟨ht, hn⟩, hh⟩, hk⟩, rfl⟩

/-- The envelope that goes out with a ciphertext. -/
def SealedResultEnvelope.wrap (keyId : String) (plaintext : ResultSealPlaintext)
    (ciphertext : Bytes) : SealedResultEnvelope where
  version := 1
  suite := resultSealSuite
  kind := resultSealKind
  recipient := resultRecipientRole
  recipientKeyId := keyId
  taskId := plaintext.taskId
  nonce := plaintext.nonce
  resultHash := plaintext.resultHash
  ciphertext := encodeB64url ciphertext

variable {box : Crypto} {json : Codec ResultSealPlaintext}

/-- **An accepted plaintext** has proper ids and digest, and its envelope holds the box around its
    associated data, NUL and text. -/
theorem sealResultToCommittee_eq_ok {entropy : Bytes} {plaintext : ResultSealPlaintext}
    {committee : CommitteeThresholdPublicKey} {envelope : SealedResultEnvelope}
    (h : sealResultToCommittee box json entropy plaintext committee = .ok envelope) :
    ∃ keyBytes body ciphertext, committee.publicKeyBytes = .ok keyBytes ∧
      committee.keyId = keyIdFor box keyBytes ∧ plaintext.taskId ≠ "" ∧ plaintext.nonce ≠ "" ∧
      isHexDigest plaintext.resultHash = true ∧ json.toVec plaintext = some body ∧
      box.sealBytes keyBytes entropy
        (utf8 (resultAadText plaintext.taskId plaintext.nonce plaintext.resultHash
          committee.keyId) ++ 0 :: body) = some ciphertext ∧
      envelope = .wrap committee.keyId plaintext ciphertext := by
  unfold sealResultToCommittee at h
  obtain ⟨_, -, h⟩ := bind_eq_ok.mp h
  obtain ⟨_, hhash, h⟩ := bind_eq_ok.mp h
  obtain ⟨keyBytes, hkey, h⟩ := bind_eq_ok.mp h
  obtain ⟨_, hid, h⟩ := bind_eq_ok.mp h
  obtain ⟨aad, haad, h⟩ := bind_eq_ok.mp h
  obtain ⟨body, hbody, h⟩ := bind_eq_ok.mp h
  obtain ⟨keyBytes', hkey', h⟩ := bind_eq_ok.mp h
  obtain ⟨ciphertext, hseal, h⟩ := bind_eq_ok.mp h
  obtain rfl := Except.ok.inj h
  obtain rfl : keyBytes = keyBytes' := Except.ok.inj (hkey.symm.trans hkey')
  rw [require_eq_ok, Bool.and_eq_true] at hhash
  rw [require_eq_ok, beq_iff_eq] at hid
  obtain ⟨ht, hn, -, -, rfl⟩ := buildResultAad_eq_ok.mp haad
  exact ⟨keyBytes, body, ciphertext, hkey, hid, ht, hn, hhash.2, okOr_eq_ok.mp hbody,
    okOr_eq_ok.mp hseal, rfl⟩

/-- What is fit to be sealed is sealed: the checks of the sealer are these and no others. -/
theorem sealResultToCommittee_wrap {entropy : Bytes} {plaintext : ResultSealPlaintext}
    {committee : CommitteeThresholdPublicKey} {keyBytes : Bytes32} {body ciphertext : Bytes}
    (hformats : plaintext.formatsProduced.isEmpty = false) (ht : plaintext.taskId ≠ "")
    (hn : plaintext.nonce ≠ "") (hh : isHexDigest plaintext.resultHash = true)
    (hkey : committee.publicKeyBytes = .ok keyBytes)
    (hid : committee.keyId = keyIdFor box keyBytes) (hbody : json.toVec plaintext = some body)
    (hseal : box.sealBytes keyBytes entropy
      (utf8 (resultAadText plaintext.taskId plaintext.nonce plaintext.resultHash
        committee.keyId) ++ 0 :: body) = some ciphertext) :
    sealResultToCommittee box json entropy plaintext committee =
      .ok (.wrap committee.keyId plaintext ciphertext) := by
  have hids : (plaintext.taskId != "" && plaintext.nonce != "") = true := by simp [ht, hn]
  have hh0 : plaintext.resultHash ≠ "" := by
    intro he
    rw [he] at hh
    exact absurd hh (by decide)
  have hhash : (plaintext.resultHash != "" && isHexDigest plaintext.resultHash) = true := by
    simp [hh0, hh]
  have hvalid : validatePlaintext plaintext = .ok () := by
    simp [validatePlaintext, hids, hformats]
  have haad : buildResultAad plaintext.taskId plaintext.nonce plaintext.resultHash committee.keyId =
      .ok (utf8 (resultAadText plaintext.taskId plaintext.nonce plaintext.resultHash
        committee.keyId)) :=
    buildResultAad_eq_ok.mpr ⟨ht, hn, hh0, hid ▸ isKeyId_keyIdFor box keyBytes, rfl⟩
  have hsame : (committee.keyId == keyIdFor box keyBytes) = true := beq_iff_eq.mpr hid
  simp only [sealResultToCommittee, hvalid, hhash, hkey, hsame, haad, hbody, hseal, require_true,
    okOr_some, ok_bind]
  rfl

/-! ## What the opener accepts -/

/-- The zero byte enters the associated data of a result with the ids only. -/
theorem zero_mem_resultAadText {taskId nonce resultHash keyId : String}
    (hh : isHexDigest resultHash = true) (hk : isKeyId keyId = true) :
    0 ∈ utf8 (resultAadText taskId nonce resultHash keyId) ↔
      '\x00' ∈ taskId.toList ∨ '\x00' ∈ nonce.toList := by
  have hkey := zero_not_mem_keyId hk
  have hhash := zero_not_mem_hexDigest hh
  have hlabels : 0 ∉ utf8 (resultSealDomain ++ "|task_id=") ∧ 0 ∉ utf8 "|nonce=" ∧
      0 ∉ utf8 "|result_hash=" ∧ 0 ∉ utf8 "|recipient_key_id=" ∧ 0 ∉ utf8 "|recipient=" ∧
      0 ∉ utf8 resultRecipientRole := by decide
  obtain ⟨h1, h2, h3, h4, h5, h6⟩ := hlabels
  simp only [resultAadText, utf8_append, List.append_assoc] at h1 ⊢
  rw [List.mem_append] at h1
  simp only [List.mem_append, h2, h3, h4, h5, h6, hkey, hhash, not_or.mp h1, zero_mem_utf8, or_false,
    false_or]

/-- **An accepted envelope** opened to the associated data of its own fields, NUL, and the text of
    the plaintext; nothing before that NUL was zero. -/
theorem unsealResult_eq_ok {envelope : SealedResultEnvelope} {secret : Bytes32}
    {plaintext : ResultSealPlaintext}
    (h : unsealResultWithCommitteeSecret box json envelope secret = .ok plaintext) :
    ∃ ciphertext body, decodeB64url envelope.ciphertext = .ok ciphertext ∧
      box.unsealBytes secret ciphertext =
        some (utf8 (resultAadText plaintext.taskId plaintext.nonce plaintext.resultHash
          envelope.recipientKeyId) ++ 0 :: body) ∧
      json.fromSlice body = some plaintext ∧
      envelope.recipientKeyId = keyIdFor box (box.publicKey secret) ∧
      0 ∉ utf8 (resultAadText plaintext.taskId plaintext.nonce plaintext.resultHash
        envelope.recipientKeyId) := by
  unfold unsealResultWithCommitteeSecret at h
  obtain ⟨_, -, h⟩ := bind_eq_ok.mp h
  obtain ⟨ciphertext, hcipher, h⟩ := bind_eq_ok.mp h
  obtain ⟨_, -, h⟩ := bind_eq_ok.mp h
  obtain ⟨_, hkey, h⟩ := bind_eq_ok.mp h
  obtain ⟨opened, hopen, h⟩ := bind_eq_ok.mp h
  obtain ⟨⟨aad, body⟩, hcut, h⟩ := bind_eq_ok.mp h
  obtain ⟨expected, hbuild, h⟩ := bind_eq_ok.mp h
  obtain ⟨_, hsame, h⟩ := bind_eq_ok.mp h
  obtain ⟨parsed, hbody, h⟩ := bind_eq_ok.mp h
  obtain ⟨_, hnames, h⟩ := bind_eq_ok.mp h
  obtain rfl := Except.ok.inj h
  rw [require_eq_ok, beq_iff_eq] at hkey
  rw [require_eq_ok, constantTimeEq_iff] at hsame
  simp only [require_eq_ok, Bool.and_eq_true, beq_iff_eq] at hnames
  obtain ⟨⟨htask, hnonce⟩, hhash⟩ := hnames
  obtain ⟨hzero, hopened⟩ := splitAadPlaintext_eq_ok.mp hcut
  obtain ⟨-, -, -, -, hexpected⟩ := buildResultAad_eq_ok.mp hbuild
  rw [← htask, ← hnonce, ← hhash] at hexpected
  rw [hsame, hexpected] at hzero hopened
  exact ⟨ciphertext, body, hcipher, hopened ▸ okOr_eq_ok.mp hopen, okOr_eq_ok.mp hbody, hkey.symm,
    hzero⟩

/-- The shape check passes what the sealer makes. -/
theorem validateResultEnvelopeShape_wrap {keyId : String} {plaintext : ResultSealPlaintext}
    {ciphertext : Bytes} (hkey : isKeyId keyId = true) (ht : plaintext.taskId ≠ "")
    (hn : plaintext.nonce ≠ "") (hh : isHexDigest plaintext.resultHash = true)
    (hne : ciphertext ≠ []) :
    validateResultEnvelopeShape (.wrap keyId plaintext ciphertext) = .ok () := by
  have hcipher : (encodeB64url ciphertext != "") = true :=
    bne_iff_ne.mpr (encodeB64url_ne_empty hne)
  have hids : (plaintext.taskId != "" && plaintext.nonce != "") = true := by simp [ht, hn]
  simp [validateResultEnvelopeShape, SealedResultEnvelope.wrap, hkey, hids, hh, hcipher]

/-! ## Round trip -/

/-- What was sealed under ids without NUL opens to itself. -/
theorem unsealResult_seal (hbox : box.Lawful) (hjson : json.Lawful) {secret : Bytes32}
    {entropy : Bytes} {plaintext : ResultSealPlaintext} {committee : CommitteeThresholdPublicKey}
    {envelope : SealedResultEnvelope}
    (hpair : committee.publicKeyBytes = .ok (box.publicKey secret))
    (hseal : sealResultToCommittee box json entropy plaintext committee = .ok envelope)
    (ht : '\x00' ∉ plaintext.taskId.toList) (hn : '\x00' ∉ plaintext.nonce.toList) :
    unsealResultWithCommitteeSecret box json envelope secret = .ok plaintext := by
  obtain ⟨keyBytes, body, ciphertext, hkey, hid, ht0, hn0, hh, hbody, hsealed, rfl⟩ :=
    sealResultToCommittee_eq_ok hseal
  obtain rfl : keyBytes = box.publicKey secret := Except.ok.inj (hkey.symm.trans hpair)
  have hk : isKeyId committee.keyId = true := hid ▸ isKeyId_keyIdFor box _
  have hh0 : plaintext.resultHash ≠ "" := by
    intro he
    rw [he] at hh
    exact absurd hh (by decide)
  have hlen : ciphertext.length > minSealedResultLen := by
    rw [hbox.length_seal hsealed, List.length_append, List.length_cons, minSealedResultLen]
    omega
  have hne : ciphertext ≠ [] := by
    rintro rfl
    exact absurd hlen (by decide)
  have hcut : splitAadPlaintext (utf8 (resultAadText plaintext.taskId plaintext.nonce
      plaintext.resultHash committee.keyId) ++ 0 :: body) =
      .ok (utf8 (resultAadText plaintext.taskId plaintext.nonce plaintext.resultHash
        committee.keyId), body) := by
    rw [splitAadPlaintext_eq_ok, zero_mem_resultAadText hh hk]
    exact ⟨not_or.mpr ⟨ht, hn⟩, rfl⟩
  have hbuild : buildResultAad plaintext.taskId plaintext.nonce plaintext.resultHash
      committee.keyId = .ok (utf8 (resultAadText plaintext.taskId plaintext.nonce
        plaintext.resultHash committee.keyId)) :=
    buildResultAad_eq_ok.mpr ⟨ht0, hn0, hh0, hk, rfl⟩
  have hsame : ∀ bytes : Bytes, constantTimeEq bytes bytes = true :=
    fun _ => constantTimeEq_iff.mpr rfl
  have hshape : validateResultEnvelopeShape (.wrap committee.keyId plaintext ciphertext) = .ok () :=
    validateResultEnvelopeShape_wrap hk ht0 hn0 hh hne
  simp only [unsealResultWithCommitteeSecret, hshape]
  simp only [SealedResultEnvelope.wrap, decodeB64url_encodeB64url hne, hlen, ← hid,
    hbox.unseal_seal hsealed, hcut, hbuild, hsame, hjson hbody, beq_self_eq_true, Bool.and_self,
    decide_true, require_true, okOr_some, ok_bind]

/-- **Round trip, exactly.**  An accepted result opens to itself if and only if neither of its ids
    holds NUL. -/
theorem unsealResult_seal_iff (box : Crypto) (hbox : box.Lawful)
    (json : Codec ResultSealPlaintext) (hjson : json.Lawful) (entropy : Bytes) (secret : Bytes32)
    (plaintext : ResultSealPlaintext) (committee : CommitteeThresholdPublicKey)
    (envelope : SealedResultEnvelope)
    (hpair : committee.publicKeyBytes = .ok (box.publicKey secret))
    (hseal : sealResultToCommittee box json entropy plaintext committee = .ok envelope) :
    unsealResultWithCommitteeSecret box json envelope secret = .ok plaintext ↔
      '\x00' ∉ plaintext.taskId.toList ∧ '\x00' ∉ plaintext.nonce.toList := by
  constructor
  · intro h
    obtain ⟨-, -, -, -, -, hid, hzero⟩ := unsealResult_eq_ok h
    obtain ⟨keyBytes, -, -, -, -, -, -, hh, -, -, -⟩ := sealResultToCommittee_eq_ok hseal
    have hk : isKeyId envelope.recipientKeyId = true := hid ▸ isKeyId_keyIdFor box _
    exact not_or.mp (mt (zero_mem_resultAadText hh hk).mpr hzero)
  · rintro ⟨ht, hn⟩
    exact unsealResult_seal hbox hjson hpair hseal ht hn

/-- **What a sealed ciphertext opens to**, whatever the host writes around it: if any envelope with
    it is accepted, then the ids hold no NUL and the plaintext is the one that was sealed. -/
theorem unsealResult_of_seal (hbox : box.Lawful) (hjson : json.Lawful) (hnul : json.NulFree)
    {secret : Bytes32} {entropy : Bytes} {plaintext opened : ResultSealPlaintext}
    {committee : CommitteeThresholdPublicKey} {sealedEnvelope envelope : SealedResultEnvelope}
    (hpair : committee.publicKeyBytes = .ok (box.publicKey secret))
    (hseal : sealResultToCommittee box json entropy plaintext committee = .ok sealedEnvelope)
    (hcipher : envelope.ciphertext = sealedEnvelope.ciphertext)
    (hopen : unsealResultWithCommitteeSecret box json envelope secret = .ok opened) :
    opened = plaintext ∧ '\x00' ∉ plaintext.taskId.toList ∧ '\x00' ∉ plaintext.nonce.toList := by
  obtain ⟨keyBytes, body, ciphertext, hkey, hid, -, -, hh, hbody, hsealed, rfl⟩ :=
    sealResultToCommittee_eq_ok hseal
  obtain ⟨ciphertext', body', hdecode, hopened, hparse, -, hzero⟩ := unsealResult_eq_ok hopen
  obtain rfl : keyBytes = box.publicKey secret := Except.ok.inj (hkey.symm.trans hpair)
  have hlen : 48 ≤ ciphertext.length := by
    have hlen := hbox.length_seal hsealed
    omega
  have hne : ciphertext ≠ [] := by
    rintro rfl
    exact absurd hlen (by decide)
  rw [hcipher, SealedResultEnvelope.wrap, decodeB64url_encodeB64url hne] at hdecode
  obtain rfl := Except.ok.inj hdecode
  rw [hbox.unseal_seal hsealed, Option.some.injEq] at hopened
  -- no NUL before the cut and none after it: both texts are cut at the same place
  obtain ⟨haad, -, rfl⟩ := (List.append_cons_inj_of_notMem hzero (hnul hparse)).mp hopened.symm
  have hsame : opened = plaintext := Option.some.inj (hparse.symm.trans (hjson hbody))
  have hk : isKeyId committee.keyId = true := hid ▸ isKeyId_keyIdFor box _
  rw [haad, zero_mem_resultAadText hh hk, not_or] at hzero
  exact ⟨hsame, hzero⟩

/-- The SHA-256 digest of nothing. -/
def emptyDigest : String := "e3b0c44298fc1c149afbf4c8996fb92427ae41e4649b934ca495991b7852b855"

theorem isHexDigest_emptyDigest : isHexDigest emptyDigest = true := by decide

/-- A plaintext with one format. -/
def onePlaintext (taskId : String) : ResultSealPlaintext where
  taskId := taskId
  nonce := "nonce-1"
  resultHash := emptyDigest
  formatsProduced := ⟨[("markdown", .string "hello")], by decide⟩

/-- Its text; `quoted` is the task id as a JSON string. -/
def onePlaintextText (quoted : String) : Bytes :=
  utf8 ("\x7b\"task_id\":" ++ quoted ++ ",\"nonce\":\"nonce-1\",\"result_hash\":\"" ++
    emptyDigest ++ "\",\"formats_produced\":\x7b\"markdown\":\"hello\"\x7d\x7d")

/-- A codec that knows one plaintext. -/
def onePlaintextCodec (taskId quoted : String) : Codec ResultSealPlaintext where
  toVec := fun plaintext =>
    match plaintext.formatsProduced.members with
    | [("markdown", .string "hello")] =>
        if plaintext.taskId = taskId ∧ plaintext.nonce = "nonce-1" ∧
            plaintext.resultHash = emptyDigest then
          some (onePlaintextText quoted)
        else none
    | _ => none
  fromSlice := fun body =>
    if body = onePlaintextText quoted then some (onePlaintext taskId) else none

theorem onePlaintextCodec_lawful (taskId quoted : String) :
    (onePlaintextCodec taskId quoted).Lawful := by
  intro plaintext body h
  simp only [onePlaintextCodec] at h
  split at h
  · rename_i hmembers
    split at h
    · rename_i heq
      obtain rfl := Option.some.inj h
      simp only [onePlaintextCodec, if_true, Option.some.injEq]
      exact ResultSealPlaintext.ext heq.1.symm heq.2.1.symm heq.2.2.symm
        (Json.Map.ext hmembers.symm)
    · cases h
  · cases h

/-- The committee that holds the fixed secret. -/
def fixedCommittee : CommitteeThresholdPublicKey :=
  .fromPublicKeyBytes fixedBox fixedPublicKey

/-- The envelope around the one plaintext. -/
def oneEnvelope (taskId quoted : String) : SealedResultEnvelope :=
  .wrap fixedCommittee.keyId (onePlaintext taskId)
    (fixedPublicKey.toList ++ List.replicate 16 0 ++
      (utf8 (resultAadText taskId "nonce-1" emptyDigest
        fixedCommittee.keyId) ++ 0 :: onePlaintextText quoted))

/-- The sealer accepts the one plaintext under any id. -/
theorem sealResult_onePlaintext {taskId quoted : String} (h : taskId ≠ "") :
    sealResultToCommittee fixedBox (onePlaintextCodec taskId quoted) [] (onePlaintext taskId)
      fixedCommittee = .ok (oneEnvelope taskId quoted) := by
  have hkey : fixedCommittee.publicKeyBytes = .ok fixedPublicKey :=
    publicKeyBytes_fromPublicKeyBytes fixedBox fixedPublicKey
  have hvalid : validatePlaintext (onePlaintext taskId) = .ok () := by
    have hne : (taskId != "") = true := bne_iff_ne.mpr h
    simp [validatePlaintext, onePlaintext, hne, Json.Map.isEmpty]
  have hhash : ((onePlaintext taskId).resultHash != "" &&
      isHexDigest (onePlaintext taskId).resultHash) = true := by
    simp only [onePlaintext, isHexDigest_emptyDigest, Bool.and_true]
    decide
  have hid : (fixedCommittee.keyId == keyIdFor fixedBox fixedPublicKey) = true :=
    beq_self_eq_true _
  have hbuild : buildResultAad taskId "nonce-1" emptyDigest
      fixedCommittee.keyId = .ok (utf8 (resultAadText taskId "nonce-1"
        emptyDigest fixedCommittee.keyId)) :=
    buildResultAad_eq_ok.mpr
      ⟨h, by decide, by decide, isKeyId_keyIdFor fixedBox fixedPublicKey, rfl⟩
  have hbody : (onePlaintextCodec taskId quoted).toVec (onePlaintext taskId) =
      some (onePlaintextText quoted) := by
    simp [onePlaintextCodec, onePlaintext]
  rw [sealResultToCommittee, hvalid, ok_bind, hhash, require_true, ok_bind, hkey, ok_bind, hid,
    require_true, ok_bind]
  simp only [show (onePlaintext taskId).taskId = taskId from rfl,
    show (onePlaintext taskId).nonce = "nonce-1" from rfl,
    show (onePlaintext taskId).resultHash = emptyDigest from rfl, hbuild, hbody, ok_bind, okOr_some]
  rfl

theorem unsealResult_seal_iff_plain :
    unsealResultWithCommitteeSecret fixedBox (onePlaintextCodec "task-1" "\"task-1\"")
        (oneEnvelope "task-1" "\"task-1\"") fixedSecret = .ok (onePlaintext "task-1") :=
  (unsealResult_seal_iff fixedBox fixedBox_lawful (onePlaintextCodec "task-1" "\"task-1\"")
    (onePlaintextCodec_lawful _ _) [] fixedSecret (onePlaintext "task-1") fixedCommittee _
    (publicKeyBytes_fromPublicKeyBytes fixedBox fixedPublicKey)
    (sealResult_onePlaintext (by decide))).mpr (by decide)

/-- A task id that ends in NUL is sealed, and the committee can never open the result. -/
theorem unsealResult_seal_nul :
    fixedBox.Lawful ∧ (onePlaintextCodec "job\x00" "\"job\\u0000\"").Lawful ∧
    fixedCommittee.publicKeyBytes = .ok (fixedBox.publicKey fixedSecret) ∧
    sealResultToCommittee fixedBox (onePlaintextCodec "job\x00" "\"job\\u0000\"") []
        (onePlaintext "job\x00") fixedCommittee =
      .ok (oneEnvelope "job\x00" "\"job\\u0000\"") ∧
    unsealResultWithCommitteeSecret fixedBox (onePlaintextCodec "job\x00" "\"job\\u0000\"")
        (oneEnvelope "job\x00" "\"job\\u0000\"") fixedSecret ≠ .ok (onePlaintext "job\x00") := by
  refine ⟨fixedBox_lawful, onePlaintextCodec_lawful _ _,
    publicKeyBytes_fromPublicKeyBytes fixedBox fixedPublicKey,
    sealResult_onePlaintext (by decide), ?_⟩
  intro h
  obtain ⟨-, -, -, -, -, -, hzero⟩ := unsealResult_eq_ok h
  refine hzero ((zero_mem_resultAadText ?_ ?_).mpr (Or.inl (by decide)))
  · exact isHexDigest_emptyDigest
  · exact isKeyId_keyIdFor fixedBox fixedPublicKey

end Basecrawl.Seal
