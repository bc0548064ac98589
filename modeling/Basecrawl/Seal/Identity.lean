/-
  Identities and the errors of the seal crate.

  A key id is the content address `sha256:<hex>` of a 32-byte public key; an envelope is routed by
  it and the associated data binds it.  The cryptography (`crypto_box`, `sha2`) is outside the
  repository, so it enters as the record `Crypto`; what the openers rely on is `Crypto.Lawful`.
-/
import Mathlib.Data.List.Nodup
import Basecrawl.Lib.Hex
import Basecrawl.Lib.Outcome

namespace Basecrawl.Seal

open Text Hex Outcome

/-- Typed failure for key-release and sealed-task decrypt paths. -/
inductive SealError where
  | keyReleaseDenied (reason : String)
  | keyReleaseUnreachable
  | keyReleaseMidExchange
  | keyReleaseProtocol (detail : String)
  | keyNotReleased
  | authenticationFailed
  | invalidEnvelope (detail : String)
  | malformedPlaintext
  | invalidIdentity (detail : String)
  | quoteFailed (detail : String)
  | transport (detail : String)
  | dns (detail : String)
deriving DecidableEq, Repr

/-- 32 raw bytes: an X25519 key or a SHA-256 digest. -/
abbrev Bytes32 := Vector UInt8 32

/-! ## The cryptography underneath -/

/-- What the crate calls of `sha2` and `crypto_box`; `entropy` is what `OsRng` yields. -/
structure Crypto where
  sha256 : Bytes → Bytes32
  publicKey : Bytes32 → Bytes32
  sealBytes : Bytes32 → Bytes → Bytes → Option Bytes
  unsealBytes : Bytes32 → Bytes → Option Bytes

/-- The sealed box as its documentation promises it: the secret key opens what was sealed to its
    public key, and a box is 48 bytes (ephemeral key and tag) longer than its content. -/
structure Crypto.Lawful (box : Crypto) : Prop where
  unseal_seal : ∀ {secret entropy message ciphertext},
    box.sealBytes (box.publicKey secret) entropy message = some ciphertext →
      box.unsealBytes secret ciphertext = some message
  length_seal : ∀ {key entropy message ciphertext},
    box.sealBytes key entropy message = some ciphertext → ciphertext.length = message.length + 48

/-- What the crate calls of `serde_json` at one type. -/
structure Codec (α : Type) where
  toVec : α → Option Bytes
  fromSlice : Bytes → Option α

/-- Parsing inverts printing. -/
def Codec.Lawful {α : Type} (json : Codec α) : Prop :=
  ∀ {value body}, json.toVec value = some body → json.fromSlice body = some value

/-- A text that parses holds no raw NUL: JSON allows no bare control character but white space. -/
def Codec.NulFree {α : Type} (json : Codec α) : Prop :=
  ∀ {value body}, json.fromSlice body = some value → 0 ∉ body

/-- A codec that knows some values, each under its text. -/
def Codec.ofTable {α : Type} [DecidableEq α] (table : List (α × Bytes)) : Codec α where
  toVec := fun value => (table.find? (·.1 = value)).map Prod.snd
  fromSlice := fun body => (table.find? (·.2 = body)).map Prod.fst

theorem Codec.ofTable_lawful {α : Type} [DecidableEq α] {table : List (α × Bytes)}
    (hkeys : (table.map Prod.snd).Nodup) : (Codec.ofTable table).Lawful := by
  intro value body h
  obtain ⟨entry, hfind, rfl⟩ := Option.map_eq_some_iff.mp h
  have hmem := List.mem_of_find?_eq_some hfind
  have hvalue : entry.1 = value := by simpa using List.find?_some hfind
  have hsome : (table.find? (·.2 = entry.2)).isSome = true :=
    List.find?_isSome.mpr ⟨entry, hmem, decide_eq_true rfl⟩
  obtain ⟨found, hfound⟩ := Option.isSome_iff_exists.mp hsome
  have htext : found.2 = entry.2 := by simpa using List.find?_some hfound
  have hsame : found = entry :=
    List.inj_on_of_nodup_map hkeys (List.mem_of_find?_eq_some hfound) hmem htext
  show (table.find? (·.2 = entry.2)).map Prod.fst = some value
  rw [hfound, hsame, ← hvalue]
  rfl

theorem Codec.ofTable_nulFree {α : Type} [DecidableEq α] {table : List (α × Bytes)}
    (htexts : ∀ entry ∈ table, 0 ∉ entry.2) : (Codec.ofTable table).NulFree := by
  intro value body h
  obtain ⟨entry, hfind, -⟩ := Option.map_eq_some_iff.mp h
  have hbody : entry.2 = body := by simpa using List.find?_some hfind
  exact hbody ▸ htexts entry (List.mem_of_find?_eq_some hfind)

/-! ## Key ids -/

/-- `is_key_id`: `sha256:` and 64 lowercase hex digits. -/
def isKeyId (value : String) : Bool :=
  match stripPrefix value "sha256:" with
  | none => false
  | some hex =>
      (utf8 hex).length == 64 && (utf8 hex).all isLowerHex && hex == asciiLower hex

/-- `is_hex_digest`: the lowercase hex of a SHA-256 or SHA-384 digest. -/
def isHexDigest (value : String) : Bool :=
  ((utf8 value).length == 64 || (utf8 value).length == 96) && (utf8 value).all isLowerHex &&
    value == asciiLower value

/-- `key_id_for`, `recipient_key_id`: the content address of a 32-byte public key. -/
def keyIdFor (box : Crypto) (publicKey : Bytes32) : String :=
  "sha256:" ++ hexEncode (box.sha256 publicKey.toList).toList

/-- `TASK_SEAL_DOMAIN`: domain tag for the task-seal key-binding commitment. -/
def taskSealDomain : String := "relay/task-seal/v1"

/-- `task_seal_report_data_for`. -/
def taskSealReportDataFor (box : Crypto) (publicKey : Bytes32) : String :=
  hexEncode (box.sha256 (utf8 taskSealDomain ++ publicKey.toList)).toList

/-- Enclave holder of the sealed-box private key: every field is derived from the secret. -/
structure EnclaveIdentity (box : Crypto) where
  secret : Bytes32
  pub : Bytes32
  keyId : String
  reportData : String
  pub_eq : pub = box.publicKey secret
  keyId_eq : keyId = keyIdFor box pub
  reportData_eq : reportData = taskSealReportDataFor box pub

/-- `EnclaveIdentity::from_secret_bytes`. -/
def EnclaveIdentity.fromSecretBytes (box : Crypto) (secret : Bytes32) : EnclaveIdentity box where
  secret := secret
  pub := box.publicKey secret
  keyId := keyIdFor box (box.publicKey secret)
  reportData := taskSealReportDataFor box (box.publicKey secret)
  pub_eq := rfl
  keyId_eq := rfl
  reportData_eq := rfl

/-- **Every content address is a key id.** -/
theorem isKeyId_keyIdFor (box : Crypto) (publicKey : Bytes32) :
    isKeyId (keyIdFor box publicKey) = true := by
  obtain ⟨hlen, hall, hlow⟩ := hexEncode_spec (box.sha256 publicKey.toList).toList
  rw [Vector.length_toList] at hlen
  rw [isKeyId, keyIdFor, stripPrefix_append]
  simp only [hlen, hall, hlow, beq_self_eq_true, Bool.and_true]

theorem EnclaveIdentity.isKeyId {box : Crypto} (identity : EnclaveIdentity box) :
    isKeyId identity.keyId = true := by
  rw [identity.keyId_eq]
  exact isKeyId_keyIdFor box identity.pub

/-- A key id carries no zero byte, so it cannot end the associated data early. -/
theorem zero_not_mem_keyId {value : String} (h : isKeyId value = true) : 0 ∉ utf8 value := by
  unfold isKeyId at h
  split at h
  · cases h
  · rename_i hex heq
    simp only [Bool.and_eq_true, beq_iff_eq] at h
    rw [stripPrefix_eq_some.mp heq, utf8_append, List.mem_append]
    rintro (h0 | h0)
    · exact absurd h0 (by decide)
    · exact zero_not_mem_of_all_lowerHex h.1.2 h0

theorem zero_not_mem_hexDigest {value : String} (h : isHexDigest value = true) :
    0 ∉ utf8 value := by
  simp only [isHexDigest, Bool.and_eq_true] at h
  exact zero_not_mem_of_all_lowerHex h.1.2

/-- The hex of a SHA-256 digest is a digest text. -/
theorem isHexDigest_hexEncode (digest : Bytes32) :
    isHexDigest (hexEncode digest.toList) = true := by
  obtain ⟨hlen, hall, hlow⟩ := hexEncode_spec digest.toList
  rw [Vector.length_toList] at hlen
  simp only [isHexDigest, hlen, hall, hlow, beq_self_eq_true, Bool.true_or, Bool.and_self]

/-- All key ids have one length, so two texts that end in one are cut at the same place. -/
theorem length_keyId {value : String} (h : isKeyId value = true) : (utf8 value).length = 71 := by
  unfold isKeyId at h
  split at h
  · cases h
  · rename_i hex heq
    simp only [Bool.and_eq_true, beq_iff_eq] at h
    rw [stripPrefix_eq_some.mp heq, utf8_append, List.length_append, h.1.1]
    decide

/-! ## One identity -/

/-- The X25519 public key of the secret `01…01`. -/
def fixedPublicKey : Bytes32 :=
  #v[0xa4, 0xe0, 0x92, 0x92, 0xb6, 0x51, 0xc2, 0x78, 0xb9, 0x77, 0x2c, 0x56, 0x9f, 0x5f, 0xa9, 0xbb,
    0x13, 0xd9, 0x06, 0xb4, 0x6a, 0xb6, 0x8c, 0x9d, 0xf9, 0xdc, 0x2b, 0x44, 0x09, 0xf8, 0xa2, 0x09]

/-- Its SHA-256 digest. -/
def fixedDigest : Bytes32 :=
  #v[0x1a, 0x92, 0xf2, 0x38, 0x52, 0xdc, 0x90, 0x8d, 0x97, 0x31, 0x6a, 0x3b, 0x13, 0x57, 0x82, 0x81,
    0x19, 0x6c, 0x1d, 0xd7, 0x3d, 0x9a, 0xe5, 0xe3, 0x13, 0xf3, 0xfb, 0x6b, 0x89, 0x54, 0xbf, 0x55]

/-- The secret whose public key and digest are fixed above. -/
def fixedSecret : Bytes32 := Vector.replicate 32 1

/-- A box that works for one key pair: it holds the key, sixteen bytes for a tag, the message. -/
def fixedBox : Crypto where
  sha256 := fun _ => fixedDigest
  publicKey := fun _ => fixedPublicKey
  sealBytes := fun key _ message => some (key.toList ++ List.replicate 16 0 ++ message)
  unsealBytes := fun _ ciphertext =>
    if ciphertext.take 32 = fixedPublicKey.toList then some (ciphertext.drop 48) else none

theorem fixedBox_lawful : fixedBox.Lawful where
  unseal_seal := by
    intro secret entropy message ciphertext h
    obtain rfl := Option.some.inj h
    have hkey : (fixedBox.publicKey secret).toList.length = 32 := Vector.length_toList
    have htake : ((fixedBox.publicKey secret).toList ++ List.replicate 16 0 ++ message).take 32 =
        fixedPublicKey.toList := by
      rw [List.append_assoc, List.take_left' hkey]
      rfl
    have hdrop : ((fixedBox.publicKey secret).toList ++ List.replicate 16 0 ++ message).drop 48 =
        message := List.drop_left' (by rw [List.length_append, hkey, List.length_replicate])
    simp only [fixedBox] at htake ⊢
    rw [if_pos htake]
    exact congrArg some hdrop
  length_seal := by
    intro key entropy message ciphertext h
    obtain rfl := Option.some.inj h
    simp only [List.length_append, Vector.length_toList, List.length_replicate]
    omega

/-- The identity of the fixed secret. -/
def fixedIdentity : EnclaveIdentity fixedBox := .fromSecretBytes fixedBox fixedSecret

end Basecrawl.Seal
