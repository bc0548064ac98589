/-
  In-enclave authenticated decryption of sealed scrape tasks.

  The opened box is `aad || 0x00 || json_task` with
  `aad = domain|task_id=…|nonce=…|recipient_key_id=…`, the ids written without escaping.  The
  opener reads the fields back in any order, the last one winning, and then rebuilds the canonical
  text from them and compares.  That last step is what the development turns on:

  1. **Reading** — `parseAad_canonical` (ids without `|` are read back) and `parseAad_pipeFree`
     (whatever is read holds no `|`).
  2. **Accepting** — `decryptSealedTask_eq_ok`: an accepted box has exactly one layout.
  3. **Round trip** — `decryptSealedTask_seal`: a sealed task opens to itself when its ids hold
     neither the field separator nor NUL, and is refused otherwise.
-/
import Basecrawl.Lib.Json
import Basecrawl.Seal.Wire

namespace Basecrawl.Seal

open Text Outcome

/-! ## The envelope -/

/-- `TASK_SEAL_SUITE`. -/
def taskSealSuite : String := "libsodium-sealed-box-x25519-xsalsa20-poly1305"

/-- `MIN_SEALED_CIPHERTEXT_LEN`: 32-byte ephemeral public key and 16-byte MAC. -/
def minSealedCiphertextLen : Nat := 48

/-- Host-visible sealed-task envelope. -/
structure SealedTaskEnvelope where
  version : UInt32
  suite : String
  recipientKeyId : String
  enc : Option Json.Value
  ciphertext : String

/-- The task recovered from the authenticated plaintext. -/
@[ext] structure DecryptedTask where
  task : Json.Value
  taskId : String
  nonce : String

/-- The envelope the relay puts a sealed task in. -/
def SealedTaskEnvelope.wrap (recipientKeyId : String) (ciphertext : Bytes) : SealedTaskEnvelope where
  version := 1
  suite := taskSealSuite
  recipientKeyId := recipientKeyId
  enc := none
  ciphertext := encodeB64url ciphertext

/-- `validate_envelope_shape`. -/
def validateTaskEnvelopeShape (envelope : SealedTaskEnvelope) (expectedKeyId : Option String) :
    Except SealError Unit := do
  require (envelope.version == 1) (.invalidEnvelope "unsupported version")
  require (envelope.suite == taskSealSuite) (.invalidEnvelope "unsupported suite")
  require (isKeyId envelope.recipientKeyId) (.invalidEnvelope "recipient_key_id is malformed")
  require (expectedKeyId.all (envelope.recipientKeyId == ·))
    (.invalidEnvelope "recipient_key_id does not match enclave identity")
  require (envelope.enc.all Json.Value.isNull)
    (.invalidEnvelope "envelope contains unsupported ephemeral key material")
  require (envelope.ciphertext != "") (.invalidEnvelope "ciphertext is empty")

/-! ## The associated data -/

/-- The text of the associated data. -/
def aadText (taskId nonce recipientKeyId : String) : String :=
  taskSealDomain ++ "|task_id=" ++ taskId ++ "|nonce=" ++ nonce ++ "|recipient_key_id=" ++
    recipientKeyId

/-- `build_aad`. -/
def buildAad (taskId nonce recipientKeyId : String) : Except SealError Bytes := do
  require (taskId != "" && nonce != "" && isKeyId recipientKeyId)
    (.invalidEnvelope "task sealing metadata is malformed")
  .ok (utf8 (aadText taskId nonce recipientKeyId))

/-- The fields `parse_aad` has seen so far. -/
structure AadFields where
  taskId : Option String
  nonce : Option String
  keyId : Option String

/-- One `|`-separated part: a later field of a name replaces an earlier one. -/
def AadFields.read (fields : AadFields) (part : String) : AadFields :=
  match stripPrefix part "task_id=" with
  | some v => { fields with taskId := some v }
  | none =>
    match stripPrefix part "nonce=" with
    | some v => { fields with nonce := some v }
    | none =>
      match stripPrefix part "recipient_key_id=" with
      | some v => { fields with keyId := some v }
      | none => fields

/-- `parse_aad`. -/
def parseAad (aad : Bytes) : Except SealError (String × String × String) := do
  let text ← okOr (fromUtf8 aad) .malformedPlaintext
  match split text '|' with
  | [] => .error .malformedPlaintext
  | domain :: parts => do
    require (domain == taskSealDomain) .authenticationFailed
    let fields := parts.foldl AadFields.read ⟨none, none, none⟩
    match fields.taskId, fields.nonce, fields.keyId with
    | some t, some n, some k => do
      require (t != "" && n != "" && isKeyId k) .malformedPlaintext
      .ok (t, n, k)
    | _, _, _ => .error .malformedPlaintext

/-! ## Opening -/

/-- `open_sealed_box`. -/
def openSealedBox (box : Crypto) (secret : Bytes32) (ciphertext : Bytes) : Except SealError Bytes :=
  okOr (box.unsealBytes secret ciphertext) .authenticationFailed

/-- `decrypt_sealed_task`. -/
def decryptSealedTask (box : Crypto) (json : Codec Json.Value) (envelope : SealedTaskEnvelope)
    (identity : EnclaveIdentity box) : Except SealError DecryptedTask := do
  validateTaskEnvelopeShape envelope (some identity.keyId)
  let ciphertext ← decodeB64url envelope.ciphertext
  require (ciphertext.length > minSealedCiphertextLen) .authenticationFailed
  let authenticated ← openSealedBox box identity.secret ciphertext
  let (aad, plaintext) ← splitAadPlaintext authenticated
  let (taskId, nonce, boundKeyId) ← parseAad aad
  let expectedAad ← buildAad taskId nonce identity.keyId
  require (constantTimeEq aad expectedAad && boundKeyId == identity.keyId) .authenticationFailed
  require (boundKeyId == envelope.recipientKeyId) .authenticationFailed
  let task ← okOr (json.fromSlice plaintext) .malformedPlaintext
  let taskObj ← okOr task.asObject .malformedPlaintext
  let recoveredId ← okOr ((taskObj.get "task_id").bind Json.Tree.asStr) .malformedPlaintext
  let recoveredNonce ← okOr ((taskObj.get "nonce").bind Json.Tree.asStr) .malformedPlaintext
  require (recoveredId == taskId && recoveredNonce == nonce) .malformedPlaintext
  .ok { task := task, taskId := taskId, nonce := nonce }

/-- `decrypt_without_released_key`. -/
def decryptWithoutReleasedKey (envelope : SealedTaskEnvelope) : Except SealError DecryptedTask := do
  validateTaskEnvelopeShape envelope none
  .error .keyNotReleased

/-! ## What the shape check passes -/

theorem validateTaskEnvelopeShape_eq_ok {envelope : SealedTaskEnvelope} {keyId : String} {u : Unit}
    (h : validateTaskEnvelopeShape envelope (some keyId) = .ok u) :
    envelope.recipientKeyId = keyId := by
  simp only [validateTaskEnvelopeShape, bind_eq_ok, require_eq_ok, Option.all_some, beq_iff_eq] at h
  obtain ⟨-, -, -, -, -, -, -, hkey, -⟩ := h
  exact hkey

/-- The relay's envelope has the shape the opener asks for. -/
theorem validateTaskEnvelopeShape_wrap {keyId : String} {ciphertext : Bytes}
    (hkey : isKeyId keyId = true) (hne : ciphertext ≠ []) :
    validateTaskEnvelopeShape (.wrap keyId ciphertext) (some keyId) = .ok () := by
  have hcipher : (encodeB64url ciphertext != "") = true :=
    bne_iff_ne.mpr (encodeB64url_ne_empty hne)
  simp [validateTaskEnvelopeShape, SealedTaskEnvelope.wrap, hkey, hcipher]

/-! ## Writing and reading the associated data -/

theorem buildAad_eq_ok {taskId nonce keyId : String} {aad : Bytes} :
    buildAad taskId nonce keyId = .ok aad ↔
      taskId ≠ "" ∧ nonce ≠ "" ∧ isKeyId keyId = true ∧ aad = utf8 (aadText taskId nonce keyId) := by
  simp only [buildAad, bind_eq_ok, require_eq_ok, Bool.and_eq_true, bne_iff_ne, Except.ok.injEq]
  constructor
  · rintro ⟨-, ⟨⟨ht, hn⟩, hk⟩, rfl⟩
    exact ⟨ht, hn, hk, rfl⟩
  · rintro ⟨ht, hn, hk, rfl⟩
    exact ⟨(), ⟨⟨ht, hn⟩, hk⟩, rfl⟩

/-- The `|` byte is not a hex digit, so a key id is one part. -/
theorem pipe_not_mem_keyId {value : String} (h : isKeyId value = true) : '|' ∉ value.toList := by
  unfold isKeyId at h
  split at h
  · cases h
  · rename_i hex heq
    simp only [Bool.and_eq_true, beq_iff_eq, List.all_eq_true] at h
    rw [stripPrefix_eq_some.mp heq, String.toList_append, List.mem_append]
    rintro (hp | hp)
    · exact absurd hp (by decide)
    · have hbyte : (0x7c : UInt8) ∈ utf8 hex := by
        rw [utf8_eq_flatMap, List.mem_flatMap]
        exact ⟨'|', hp, by decide⟩
      exact absurd (h.1.2 _ hbyte) (by decide)

/-- **Reading back**: ids without the separator are the ones that were written. -/
theorem parseAad_canonical {taskId nonce keyId : String} (ht : '|' ∉ taskId.toList)
    (hn : '|' ∉ nonce.toList) (hk : isKeyId keyId = true) (ht0 : taskId ≠ "") (hn0 : nonce ≠ "") :
    parseAad (utf8 (aadText taskId nonce keyId)) = .ok (taskId, nonce, keyId) := by
  have hsplit : split (aadText taskId nonce keyId) '|' =
      [taskSealDomain, "task_id=" ++ taskId, "nonce=" ++ nonce, "recipient_key_id=" ++ keyId] := by
    have htext : aadText taskId nonce keyId =
        taskSealDomain ++ String.singleton '|' ++ ("task_id=" ++ taskId ++ String.singleton '|' ++
          ("nonce=" ++ nonce ++ String.singleton '|' ++ ("recipient_key_id=" ++ keyId))) := by
      apply String.toList_injective
      simp [aadText]
    have hlabel : ∀ label value : String, '|' ∉ label.toList → '|' ∉ value.toList →
        '|' ∉ (label ++ value).toList := by
      intro label value hl hv
      rw [String.toList_append, List.mem_append]
      exact not_or.mpr ⟨hl, hv⟩
    rw [htext, split_append_cons (by decide), split_append_cons (hlabel _ _ (by decide) ht),
      split_append_cons (hlabel _ _ (by decide) hn),
      split_eq_singleton (hlabel _ _ (by decide) (pipe_not_mem_keyId hk))]
  -- no label is the start of another, so each part fills its own field
  have hother : ∀ label value other : String, ¬ other.toList <+: label.toList →
      ¬ label.toList <+: other.toList → stripPrefix (label ++ value) other = none := by
    intro label value other hol hlo
    rw [Option.eq_none_iff_forall_ne_some]
    intro r hr
    have heq := congrArg String.toList (stripPrefix_eq_some.mp hr)
    rw [String.toList_append, String.toList_append] at heq
    rcases List.append_eq_append_iff.mp heq with ⟨w, hw, -⟩ | ⟨w, hw, -⟩
    · exact hlo ⟨w, hw.symm⟩
    · exact hol ⟨w, hw.symm⟩
  have hguard : (taskId != "" && nonce != "" && isKeyId keyId) = true := by
    simp [ht0, hn0, hk]
  simp only [parseAad, fromUtf8_utf8, okOr_some, ok_bind, hsplit, beq_self_eq_true, require_true,
    List.foldl_cons, List.foldl_nil, AadFields.read, stripPrefix_append,
    hother "nonce=" nonce "task_id=" (by decide) (by decide),
    hother "recipient_key_id=" keyId "task_id=" (by decide) (by decide),
    hother "recipient_key_id=" keyId "nonce=" (by decide) (by decide), hguard]

/-- Every field a fold over parts holds was there before or is the tail of one of the parts. -/
theorem AadFields.read_pipeFree (fields : AadFields) {part : String} (hpart : '|' ∉ part.toList)
    (h : ∀ v, fields.taskId = some v ∨ fields.nonce = some v → '|' ∉ v.toList) :
    ∀ v, (fields.read part).taskId = some v ∨ (fields.read part).nonce = some v →
      '|' ∉ v.toList := by
  have htail : ∀ label v, stripPrefix part label = some v → '|' ∉ v.toList := by
    intro label v hv hmem
    rw [stripPrefix_eq_some.mp hv, String.toList_append] at hpart
    exact hpart (List.mem_append_right _ hmem)
  intro v
  unfold AadFields.read
  split
  · rename_i w hw
    rintro (hv | hv)
    · exact Option.some.inj hv ▸ htail _ _ hw
    · exact h v (Or.inr hv)
  · split
    · rename_i w hw
      rintro (hv | hv)
      · exact h v (Or.inl hv)
      · exact Option.some.inj hv ▸ htail _ _ hw
    · split
      · exact h v
      · exact h v

/-- **No id that is read holds a separator**: it is the tail of one `|`-separated part. -/
theorem parseAad_pipeFree {aad : Bytes} {taskId nonce keyId : String}
    (h : parseAad aad = .ok (taskId, nonce, keyId)) :
    '|' ∉ taskId.toList ∧ '|' ∉ nonce.toList := by
  have hfold : ∀ (parts : List String) (fields : AadFields), (∀ p ∈ parts, '|' ∉ p.toList) →
      (∀ v, fields.taskId = some v ∨ fields.nonce = some v → '|' ∉ v.toList) →
      ∀ v, (parts.foldl AadFields.read fields).taskId = some v ∨
        (parts.foldl AadFields.read fields).nonce = some v → '|' ∉ v.toList := by
    intro parts
    induction parts with
    | nil => exact fun fields _ hfields => hfields
    | cons part parts ih =>
      intro fields hparts hfields
      exact ih _ (fun p hp => hparts p (List.mem_cons_of_mem _ hp))
        (fields.read_pipeFree (hparts part List.mem_cons_self) hfields)
  obtain ⟨text, -, h⟩ := bind_eq_ok.mp h
  split at h
  · cases h
  · rename_i domain parts hsplit
    obtain ⟨-, -, h⟩ := bind_eq_ok.mp h
    simp only [] at h
    split at h
    · rename_i t n k hts hns hks
      obtain ⟨-, -, h⟩ := bind_eq_ok.mp h
      obtain ⟨rfl, rfl, rfl⟩ : t = taskId ∧ n = nonce ∧ k = keyId := by simpa using h
      have hparts : ∀ p ∈ parts, '|' ∉ p.toList := fun p hp =>
        not_mem_of_mem_split (hsplit ▸ List.mem_cons_of_mem _ hp)
      have hpipe := hfold parts ⟨none, none, none⟩ hparts (by simp)
      exact ⟨hpipe t (Or.inl hts), hpipe n (Or.inr hns)⟩
    · cases h

theorem parseAad_eq_error {aad : Bytes} {e : SealError} (h : parseAad aad = .error e) :
    e = .authenticationFailed ∨ e = .malformedPlaintext := by
  rcases bind_eq_error.mp h with h | ⟨text, -, h⟩
  · exact Or.inr (okOr_eq_error.mp h).2.symm
  · split at h
    · exact Or.inr (Except.error.inj h).symm
    · rcases bind_eq_error.mp h with h | ⟨-, -, h⟩
      · exact Or.inl (require_eq_error.mp h).2.symm
      · simp only [] at h
        split at h
        · rcases bind_eq_error.mp h with h | ⟨-, -, h⟩
          · exact Or.inr (require_eq_error.mp h).2.symm
          · cases h
        · exact Or.inr (Except.error.inj h).symm

/-- What `parseAad` returns can be written again for a key id. -/
theorem parseAad_nonempty {aad : Bytes} {taskId nonce keyId : String}
    (h : parseAad aad = .ok (taskId, nonce, keyId)) : taskId ≠ "" ∧ nonce ≠ "" := by
  obtain ⟨text, -, h⟩ := bind_eq_ok.mp h
  split at h
  · cases h
  · obtain ⟨-, -, h⟩ := bind_eq_ok.mp h
    simp only [] at h
    split at h
    · obtain ⟨_, hreq, h⟩ := bind_eq_ok.mp h
      simp only [require_eq_ok, Bool.and_eq_true, bne_iff_ne] at hreq
      simp only [Except.ok.injEq, Prod.mk.injEq] at h
      obtain ⟨rfl, rfl, rfl⟩ := h
      exact hreq.1
    · cases h

/-! ## Accepting -/

variable {box : Crypto} {json : Codec Json.Value} {identity : EnclaveIdentity box}

/-- A string member of an object. -/
theorem bind_asStr_eq_some {obj : Json.Map} {key s : String} :
    (obj.get key).bind Json.Tree.asStr = some s ↔ obj.get key = some (.string s) := by
  rw [Option.bind_eq_some_iff]
  constructor
  · rintro ⟨t, ht, hs⟩
    cases t with
    | string s' => rw [ht, Option.some.inj hs]
    | _ => cases hs
  · exact fun h => ⟨_, h, rfl⟩

/-- `opened` is a sealed task for `keyId`: its associated data, NUL, and the JSON of an object
    that names the same task and nonce. -/
structure IsSealedTask (json : Codec Json.Value) (keyId : String) (opened : Bytes)
    (d : DecryptedTask) : Prop where
  layout : ∃ aad rest, buildAad d.taskId d.nonce keyId = .ok aad ∧ opened = aad ++ 0 :: rest ∧
    json.fromSlice rest = some d.task
  members : ∃ obj, d.task.asObject = some obj ∧ obj.get "task_id" = some (.string d.taskId) ∧
    obj.get "nonce" = some (.string d.nonce)

/-- **What acceptance means.**  The rebuilt text is compared with the one that was read, so
    whatever else the reader would tolerate, the box has the one canonical layout; and the cut at
    the first NUL and the split at `|` leave neither in the ids. -/
theorem decryptSealedTask_eq_ok {envelope : SealedTaskEnvelope} {d : DecryptedTask}
    (h : decryptSealedTask box json envelope identity = .ok d) :
    ∃ ciphertext opened, decodeB64url envelope.ciphertext = .ok ciphertext ∧
      box.unsealBytes identity.secret ciphertext = some opened ∧
      IsSealedTask json identity.keyId opened d ∧
      envelope.recipientKeyId = identity.keyId ∧
      0 ∉ utf8 (aadText d.taskId d.nonce identity.keyId) ∧
      '|' ∉ d.taskId.toList ∧ '|' ∉ d.nonce.toList := by
  unfold decryptSealedTask at h
  obtain ⟨_, hshape, h⟩ := bind_eq_ok.mp h
  obtain ⟨ciphertext, hcipher, h⟩ := bind_eq_ok.mp h
  obtain ⟨_, -, h⟩ := bind_eq_ok.mp h
  obtain ⟨opened, hopen, h⟩ := bind_eq_ok.mp h
  obtain ⟨⟨aad, plaintext⟩, hcut, h⟩ := bind_eq_ok.mp h
  obtain ⟨⟨taskId, nonce, boundKeyId⟩, hparse, h⟩ := bind_eq_ok.mp h
  obtain ⟨expected, hbuild, h⟩ := bind_eq_ok.mp h
  obtain ⟨_, hsame, h⟩ := bind_eq_ok.mp h
  obtain ⟨_, -, h⟩ := bind_eq_ok.mp h
  obtain ⟨task, htask, h⟩ := bind_eq_ok.mp h
  obtain ⟨obj, hobj, h⟩ := bind_eq_ok.mp h
  obtain ⟨recoveredId, hid, h⟩ := bind_eq_ok.mp h
  obtain ⟨recoveredNonce, hnonce, h⟩ := bind_eq_ok.mp h
  obtain ⟨_, hnames, h⟩ := bind_eq_ok.mp h
  obtain rfl := Except.ok.inj h
  rw [require_eq_ok, Bool.and_eq_true, constantTimeEq_iff] at hsame
  rw [require_eq_ok, Bool.and_eq_true, beq_iff_eq, beq_iff_eq] at hnames
  rw [okOr_eq_ok, bind_asStr_eq_some] at hid hnonce
  obtain ⟨hzero, hopened⟩ := splitAadPlaintext_eq_ok.mp hcut
  obtain ⟨-, -, -, hexpected⟩ := buildAad_eq_ok.mp hbuild
  have hpipe := parseAad_pipeFree hparse
  refine ⟨ciphertext, opened, hcipher, okOr_eq_ok.mp hopen, ⟨?_, ?_⟩,
    validateTaskEnvelopeShape_eq_ok hshape, ?_, hpipe.1, hpipe.2⟩
  · exact ⟨aad, plaintext, hsame.1 ▸ hbuild, hopened, okOr_eq_ok.mp htask⟩
  · exact ⟨obj, okOr_eq_ok.mp hobj, hnames.1 ▸ hid, hnames.2 ▸ hnonce⟩
  · rw [← hexpected, ← hsame.1]
    exact hzero

/-- **What a refusal says.**  The error of the shape check or of the base64 text, both functions
    of what the host sees, or one of two constants. -/
theorem decryptSealedTask_eq_error {envelope : SealedTaskEnvelope} {e : SealError}
    (h : decryptSealedTask box json envelope identity = .error e) :
    validateTaskEnvelopeShape envelope (some identity.keyId) = .error e ∨
    decodeB64url envelope.ciphertext = .error e ∨
    e = .authenticationFailed ∨ e = .malformedPlaintext := by
  unfold decryptSealedTask at h
  rcases bind_eq_error.mp h with hshape | ⟨_, hshape, h⟩
  · exact Or.inl hshape
  rcases bind_eq_error.mp h with hcipher | ⟨ciphertext, -, h⟩
  · exact Or.inr (Or.inl hcipher)
  right; right
  rcases bind_eq_error.mp h with h | ⟨_, -, h⟩
  · exact Or.inl (require_eq_error.mp h).2.symm
  rcases bind_eq_error.mp h with h | ⟨opened, -, h⟩
  · exact Or.inl (okOr_eq_error.mp h).2.symm
  rcases bind_eq_error.mp h with h | ⟨⟨aad, plaintext⟩, -, h⟩
  · exact Or.inr (splitAadPlaintext_eq_error h)
  rcases bind_eq_error.mp h with h | ⟨⟨taskId, nonce, boundKeyId⟩, hparse, h⟩
  · exact parseAad_eq_error h
  rcases bind_eq_error.mp h with h | ⟨expected, -, h⟩
  · -- what was read is never refused by the writer
    obtain ⟨ht, hn⟩ := parseAad_nonempty hparse
    have hbuild := buildAad_eq_ok.mpr ⟨ht, hn, identity.isKeyId, rfl⟩
    rw [hbuild] at h
    cases h
  rcases bind_eq_error.mp h with h | ⟨_, -, h⟩
  · exact Or.inl (require_eq_error.mp h).2.symm
  rcases bind_eq_error.mp h with h | ⟨_, -, h⟩
  · exact Or.inl (require_eq_error.mp h).2.symm
  rcases bind_eq_error.mp h with h | ⟨task, -, h⟩
  · exact Or.inr (okOr_eq_error.mp h).2.symm
  rcases bind_eq_error.mp h with h | ⟨obj, -, h⟩
  · exact Or.inr (okOr_eq_error.mp h).2.symm
  rcases bind_eq_error.mp h with h | ⟨recoveredId, -, h⟩
  · exact Or.inr (okOr_eq_error.mp h).2.symm
  rcases bind_eq_error.mp h with h | ⟨recoveredNonce, -, h⟩
  · exact Or.inr (okOr_eq_error.mp h).2.symm
  rcases bind_eq_error.mp h with h | ⟨_, -, h⟩
  · exact Or.inr (require_eq_error.mp h).2.symm
  cases h

/-- **Soundness.**  Whatever the envelope and whatever it opens to: an accepted task is the one
    the opened bytes canonically say, under the identity's own key id; a refusal carries nothing
    of the opened bytes. -/
theorem decryptSealedTask_sound (box : Crypto) (json : Codec Json.Value)
    (envelope : SealedTaskEnvelope) (identity : EnclaveIdentity box) :
    match decryptSealedTask box json envelope identity with
    | .ok d =>
        ∃ ciphertext opened, decodeB64url envelope.ciphertext = .ok ciphertext ∧
          box.unsealBytes identity.secret ciphertext = some opened ∧
          IsSealedTask json identity.keyId opened d ∧
          envelope.recipientKeyId = identity.keyId
    | .error e =>
        validateTaskEnvelopeShape envelope (some identity.keyId) = .error e ∨
        decodeB64url envelope.ciphertext = .error e ∨
        e = .authenticationFailed ∨ e = .malformedPlaintext := by
  cases hrun : decryptSealedTask box json envelope identity with
  | ok d =>
    obtain ⟨ciphertext, opened, hcipher, hopen, hsealed, hkey, -⟩ := decryptSealedTask_eq_ok hrun
    exact ⟨ciphertext, opened, hcipher, hopen, hsealed, hkey⟩
  | error e => exact decryptSealedTask_eq_error hrun

/-! ## Round trip -/

/-- An id that survives the unescaped text: no field separator, no terminator. -/
def IsPlainId (id : String) : Prop := '|' ∉ id.toList ∧ '\x00' ∉ id.toList

instance (id : String) : Decidable (IsPlainId id) := inferInstanceAs (Decidable (_ ∧ _))

/-- The zero byte enters the associated data with the ids only. -/
theorem zero_mem_aadText {taskId nonce keyId : String} (hk : isKeyId keyId = true) :
    0 ∈ utf8 (aadText taskId nonce keyId) ↔ '\x00' ∈ taskId.toList ∨ '\x00' ∈ nonce.toList := by
  have hkey := zero_not_mem_keyId hk
  have hlabels : 0 ∉ utf8 (taskSealDomain ++ "|task_id=") ∧ 0 ∉ utf8 "|nonce=" ∧
      0 ∉ utf8 "|recipient_key_id=" := by decide
  rw [aadText, utf8_append, utf8_append, utf8_append, utf8_append, utf8_append]
  simp only [List.mem_append, hlabels.1, hlabels.2.1, hlabels.2.2, hkey, zero_mem_utf8, or_false,
    false_or]

/-- A task sealed to an identity under plain ids is what the identity opens. -/
theorem decryptSealedTask_wrap (hbox : box.Lawful) (hjson : json.Lawful) {d : DecryptedTask}
    {obj : Json.Map} {aad body entropy ciphertext : Bytes}
    (haad : buildAad d.taskId d.nonce identity.keyId = .ok aad)
    (hobj : d.task.asObject = some obj)
    (hid : obj.get "task_id" = some (.string d.taskId))
    (hnonce : obj.get "nonce" = some (.string d.nonce))
    (hbody : json.toVec d.task = some body)
    (hseal : box.sealBytes identity.pub entropy (aad ++ 0 :: body) = some ciphertext)
    (ht : IsPlainId d.taskId) (hn : IsPlainId d.nonce) :
    decryptSealedTask box json (.wrap identity.keyId ciphertext) identity = .ok d := by
  obtain ⟨ht0, hn0, hk, rfl⟩ := buildAad_eq_ok.mp haad
  have hlen : ciphertext.length > minSealedCiphertextLen := by
    rw [hbox.length_seal hseal, List.length_append, List.length_cons, minSealedCiphertextLen]
    omega
  have hne : ciphertext ≠ [] := by
    rintro rfl
    exact absurd hlen (by decide)
  have hopen : openSealedBox box identity.secret ciphertext =
      .ok (utf8 (aadText d.taskId d.nonce identity.keyId) ++ 0 :: body) := by
    rw [openSealedBox, okOr_eq_ok]
    exact hbox.unseal_seal (identity.pub_eq ▸ hseal)
  have hcut : splitAadPlaintext (utf8 (aadText d.taskId d.nonce identity.keyId) ++ 0 :: body) =
      .ok (utf8 (aadText d.taskId d.nonce identity.keyId), body) := by
    rw [splitAadPlaintext_eq_ok, zero_mem_aadText hk]
    exact ⟨not_or.mpr ⟨ht.2, hn.2⟩, rfl⟩
  have hsame : constantTimeEq (utf8 (aadText d.taskId d.nonce identity.keyId))
      (utf8 (aadText d.taskId d.nonce identity.keyId)) = true := constantTimeEq_iff.mpr rfl
  have hcipher : decodeB64url (SealedTaskEnvelope.wrap identity.keyId ciphertext).ciphertext =
      .ok ciphertext := decodeB64url_encodeB64url hne
  have hkey : (SealedTaskEnvelope.wrap identity.keyId ciphertext).recipientKeyId =
      identity.keyId := rfl
  simp only [decryptSealedTask, validateTaskEnvelopeShape_wrap hk hne, hcipher, hkey, hlen, hopen,
    hcut, parseAad_canonical ht.1 hn.1 hk ht0 hn0, haad, hsame, hjson hbody, hobj, hid, hnonce,
    Option.bind_some, Json.Tree.asStr, beq_self_eq_true, Bool.and_self, decide_true, require_true,
    okOr_some, ok_bind]

/-- **Round trip, exactly.**  A sealed task opens to itself if and only if neither of its ids
    holds the separator or the terminator of the associated data. -/
theorem decryptSealedTask_wrap_iff (box : Crypto) (hbox : box.Lawful) (json : Codec Json.Value)
    (hjson : json.Lawful) (identity : EnclaveIdentity box) (task : Json.Value) (obj : Json.Map)
    (taskId nonce : String) (aad body entropy ciphertext : Bytes)
    (haad : buildAad taskId nonce identity.keyId = .ok aad)
    (hobj : task.asObject = some obj)
    (hid : obj.get "task_id" = some (.string taskId))
    (hnonce : obj.get "nonce" = some (.string nonce))
    (hbody : json.toVec task = some body)
    (hseal : box.sealBytes identity.pub entropy (aad ++ 0 :: body) = some ciphertext) :
    decryptSealedTask box json (.wrap identity.keyId ciphertext) identity =
        .ok { task := task, taskId := taskId, nonce := nonce } ↔
      IsPlainId taskId ∧ IsPlainId nonce := by
  constructor
  · intro h
    obtain ⟨-, -, -, -, -, -, hzero, htpipe, hnpipe⟩ := decryptSealedTask_eq_ok h
    obtain ⟨htzero, hnzero⟩ := not_or.mp (mt (zero_mem_aadText identity.isKeyId).mpr hzero)
    exact ⟨⟨htpipe, htzero⟩, ⟨hnpipe, hnzero⟩⟩
  · rintro ⟨ht, hn⟩
    exact decryptSealedTask_wrap hbox hjson (d := ⟨task, taskId, nonce⟩) haad hobj hid hnonce
      hbody hseal ht hn

/-- A task that has only its two ids. -/
def taskValue (taskId nonce : String) : Json.Value where
  tree := .object [("nonce", .string nonce), ("task_id", .string taskId)]
  wellFormed := by
    simp only [Json.Tree.wellFormed, Json.wellFormedMembers, Bool.and_true, List.map_cons,
      List.map_nil, decide_eq_true_eq]
    decide

/-- Its text, for ids that need no escape. -/
def taskText (taskId nonce : String) : Bytes :=
  utf8 ("\x7b\"nonce\":\"" ++ nonce ++ "\",\"task_id\":\"" ++ taskId ++ "\"\x7d")

/-- A codec that knows one task. -/
def taskCodec (taskId nonce : String) : Codec Json.Value where
  toVec := fun value =>
    match value.tree with
    | .object [("nonce", .string n), ("task_id", .string t)] =>
        if t = taskId ∧ n = nonce then some (taskText taskId nonce) else none
    | _ => none
  fromSlice := fun body =>
    if body = taskText taskId nonce then some (taskValue taskId nonce) else none

theorem taskCodec_lawful (taskId nonce : String) : (taskCodec taskId nonce).Lawful := by
  intro value body h
  simp only [taskCodec] at h
  split at h
  · rename_i n t htree
    split at h
    · rename_i heq
      obtain rfl := Option.some.inj h
      simp only [taskCodec, if_true, Option.some.injEq]
      exact Json.Value.ext (by rw [htree, heq.1, heq.2]; rfl)
    · cases h
  · cases h

/-- The box around the task of a pair of ids. -/
def sealedTask (taskId nonce : String) : Bytes :=
  fixedPublicKey.toList ++ List.replicate 16 0 ++
    (utf8 (aadText taskId nonce fixedIdentity.keyId) ++ 0 :: taskText taskId nonce)

theorem decryptSealedTask_wrap_iff_plain :
    decryptSealedTask fixedBox (taskCodec "task-1" "nonce-1")
        (.wrap fixedIdentity.keyId (sealedTask "task-1" "nonce-1")) fixedIdentity =
      .ok { task := taskValue "task-1" "nonce-1", taskId := "task-1", nonce := "nonce-1" } :=
  (decryptSealedTask_wrap_iff fixedBox fixedBox_lawful (taskCodec "task-1" "nonce-1")
    (taskCodec_lawful "task-1" "nonce-1") fixedIdentity (taskValue "task-1" "nonce-1")
    ⟨[("nonce", .string "nonce-1"), ("task_id", .string "task-1")], (taskValue _ _).wellFormed⟩
    "task-1" "nonce-1" _ (taskText "task-1" "nonce-1") [] _
    (buildAad_eq_ok.mpr ⟨by decide, by decide, fixedIdentity.isKeyId, rfl⟩) rfl rfl rfl
    (by decide) rfl).mpr (by decide)

/-- A task id with a separator in it is accepted by the writer and lost by the opener, which
    reads back its first half. -/
theorem decryptSealedTask_wrap_pipe :
    buildAad "job|7" "nonce-1" fixedIdentity.keyId =
        .ok (utf8 (aadText "job|7" "nonce-1" fixedIdentity.keyId)) ∧
    (taskCodec "job|7" "nonce-1").toVec (taskValue "job|7" "nonce-1") =
        some (taskText "job|7" "nonce-1") ∧
    fixedBox.sealBytes fixedIdentity.pub []
        (utf8 (aadText "job|7" "nonce-1" fixedIdentity.keyId) ++ 0 :: taskText "job|7" "nonce-1") =
        some (sealedTask "job|7" "nonce-1") ∧
    fixedBox.Lawful ∧ (taskCodec "job|7" "nonce-1").Lawful ∧
    decryptSealedTask fixedBox (taskCodec "job|7" "nonce-1")
        (.wrap fixedIdentity.keyId (sealedTask "job|7" "nonce-1")) fixedIdentity ≠
      .ok { task := taskValue "job|7" "nonce-1", taskId := "job|7", nonce := "nonce-1" } := by
  refine ⟨?_, by decide, rfl, fixedBox_lawful, taskCodec_lawful _ _, ?_⟩
  · exact buildAad_eq_ok.mpr ⟨by decide, by decide, fixedIdentity.isKeyId, rfl⟩
  · intro h
    obtain ⟨-, -, -, -, -, -, -, hpipe, -⟩ := decryptSealedTask_eq_ok h
    exact hpipe (by decide)

end Basecrawl.Seal
