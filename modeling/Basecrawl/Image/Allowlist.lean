/-
  The measurement allowlist of an image.

  An `Entry` is six digests, each of its own width and in lower-case hex; a validator that returns
  one has checked it.  `Matches entry candidate` says, apart from any validator, that the candidate
  spells out the entry: the same six fields, up to case and surrounding white space.  The
  allowlist's own validator accepts what matches and has no other key (`validateEntry_eq_ok`), so a
  list of entries reads back as itself (`loadAllowlist_payload`).
-/
import Basecrawl.Lib.Json
import Basecrawl.Lib.Panic
import Basecrawl.Lib.PyText

namespace Basecrawl.Image

open Text Hex Outcome Panic PyText Json

/-! ## Entries -/

/-- `CANONICAL_FIELDS`. -/
inductive CanonicalField where
  | mrtd
  | rtmr0
  | rtmr1
  | rtmr2
  | composeHash
  | osImageHash
deriving DecidableEq

def canonicalFields : List CanonicalField :=
  [.mrtd, .rtmr0, .rtmr1, .rtmr2, .composeHash, .osImageHash]

/-- `REGISTER_FIELDS`. -/
def registerFields : List CanonicalField := [.mrtd, .rtmr0, .rtmr1, .rtmr2]

def CanonicalField.name : CanonicalField → String
  | .mrtd => "mrtd"
  | .rtmr0 => "rtmr0"
  | .rtmr1 => "rtmr1"
  | .rtmr2 => "rtmr2"
  | .composeHash => "compose_hash"
  | .osImageHash => "os_image_hash"

/-- `HEX96` for a register, `HEX64` for a hash. -/
def CanonicalField.digits (field : CanonicalField) : Nat :=
  if field ∈ registerFields then 96 else 64

/-- So many lower-case hex digits. -/
def isDigest (n : Nat) (text : String) : Bool := text.toList.length == n && isHexText text

theorem isDigest_hexEncode {n : Nat} {bytes : Bytes} :
    isDigest (2 * n) (hexEncode bytes) = true ↔ bytes.length = n := by
  rw [isDigest, isHexText_hexEncode, Bool.and_true, beq_iff_eq, hexEncode, String.toList_ofList,
    length_flatMap_hexPair]
  omega

/-- A normalized field. -/
@[ext] structure Digest (n : Nat) where
  text : String
  valid : isDigest n text = true

instance (n : Nat) : DecidableEq (Digest n) := fun a b =>
  decidable_of_iff (a.text = b.text) ⟨Digest.ext, congrArg Digest.text⟩

/-- A normalized entry. -/
structure Entry where
  mrtd : Digest 96
  rtmr0 : Digest 96
  rtmr1 : Digest 96
  rtmr2 : Digest 96
  composeHash : Digest 64
  osImageHash : Digest 64
deriving DecidableEq

/-- `entry[field]`. -/
def Entry.digest (entry : Entry) : (field : CanonicalField) → Digest field.digits
  | .mrtd => entry.mrtd
  | .rtmr0 => entry.rtmr0
  | .rtmr1 => entry.rtmr1
  | .rtmr2 => entry.rtmr2
  | .composeHash => entry.composeHash
  | .osImageHash => entry.osImageHash

theorem Entry.ext_digest {a b : Entry}
    (h : ∀ field, (a.digest field).text = (b.digest field).text) : a = b := by
  cases a
  cases b
  simp only [Entry.mk.injEq]
  exact ⟨Digest.ext (h .mrtd), Digest.ext (h .rtmr0), Digest.ext (h .rtmr1), Digest.ext (h .rtmr2),
    Digest.ext (h .composeHash), Digest.ext (h .osImageHash)⟩

/-- A loop over `CANONICAL_FIELDS` that fills an entry. -/
def readEntry {ε : Type} (readField : (field : CanonicalField) → Except ε (Digest field.digits)) :
    Except ε Entry := do
  let mrtd ← readField .mrtd
  let rtmr0 ← readField .rtmr0
  let rtmr1 ← readField .rtmr1
  let rtmr2 ← readField .rtmr2
  let composeHash ← readField .composeHash
  let osImageHash ← readField .osImageHash
  return { mrtd, rtmr0, rtmr1, rtmr2, composeHash, osImageHash }

theorem readEntry_eq_ok {ε : Type}
    {readField : (field : CanonicalField) → Except ε (Digest field.digits)} {entry : Entry} :
    readEntry readField = .ok entry ↔ ∀ field, readField field = .ok (entry.digest field) := by
  simp only [readEntry, bind_eq_ok]
  constructor
  · rintro ⟨_, h1, _, h2, _, h3, _, h4, _, h5, _, h6, h⟩
    cases h
    intro field
    cases field
    · exact h1
    · exact h2
    · exact h3
    · exact h4
    · exact h5
    · exact h6
  · intro h
    exact ⟨_, h .mrtd, _, h .rtmr0, _, h .rtmr1, _, h .rtmr2, _, h .composeHash, _, h .osImageHash,
      rfl⟩

/-! ## Candidates -/

/-- A Python mapping from strings. -/
abbrev Mapping := List (String × Tree)

/-- The field as the candidate spells it, normalized. -/
def normalizedField (lower : String → String) (value : Mapping) (field : CanonicalField) :
    Option String :=
  ((value.lookup field.name).bind Tree.asStr).map fun item => lower (strip item)

/-- The candidate spells out the entry, up to case and surrounding white space. -/
def Matches (lower : String → String) (entry : Entry) (candidate : Mapping) : Prop :=
  ∀ field, normalizedField lower candidate field = some (entry.digest field).text

/-- A candidate spells out one entry. -/
theorem Matches.unique {lower : String → String} {a b : Entry} {candidate : Mapping}
    (ha : Matches lower a candidate) (hb : Matches lower b candidate) : a = b :=
  Entry.ext_digest fun field => Option.some.inj ((ha field).symm.trans (hb field))

/-- The entry as a mapping: its keys are listed in the order in which `sort_keys` writes them. -/
def Entry.toMapping (entry : Entry) : Mapping :=
  [("compose_hash", .string entry.composeHash.text), ("mrtd", .string entry.mrtd.text),
    ("os_image_hash", .string entry.osImageHash.text), ("rtmr0", .string entry.rtmr0.text),
    ("rtmr1", .string entry.rtmr1.text), ("rtmr2", .string entry.rtmr2.text)]

theorem lookup_toMapping (entry : Entry) (field : CanonicalField) :
    entry.toMapping.lookup field.name = some (.string (entry.digest field).text) := by
  cases field <;> rfl

/-- A digest is its own normal form. -/
theorem Digest.normalized {lower : String → String} (hlower : LowersAscii lower) {n : Nat}
    (digest : Digest n) : lower (strip digest.text) = digest.text := by
  have hvalid := digest.valid
  rw [isDigest, Bool.and_eq_true] at hvalid
  exact normalized_of_isHexText hlower hvalid.2

/-- An entry spells out itself. -/
theorem matches_toMapping {lower : String → String} (hlower : LowersAscii lower) (entry : Entry) :
    Matches lower entry entry.toMapping := by
  intro field
  rw [normalizedField, lookup_toMapping]
  exact congrArg some ((entry.digest field).normalized hlower)

/-! ## The allowlist's validator -/

/-- A malformed allowlist. -/
structure MeasurementAllowlistError where
  message : String
deriving DecidableEq

abbrev AllowlistResult (α : Type) := Checked MeasurementAllowlistError α

/-- `raise MeasurementAllowlistError(message)`. -/
def allowlistError (message : String) : Stop MeasurementAllowlistError := .err ⟨message⟩

/-- A text of the right width, as a digest. -/
def Digest.ofText (n : Nat) (text : String) : Option (Digest n) :=
  if h : isDigest n text = true then some ⟨text, h⟩ else none

theorem Digest.ofText_eq_some {n : Nat} {text : String} {digest : Digest n} :
    Digest.ofText n text = some digest ↔ text = digest.text := by
  unfold Digest.ofText
  constructor
  · intro h
    split at h
    · cases h
      rfl
    · cases h
  · rintro rfl
    exact dif_pos digest.valid

/-- `set(value) == set(CANONICAL_FIELDS)`. -/
def hasExactKeys (value : Mapping) : Bool :=
  decide ((∀ key ∈ value.map Prod.fst, key ∈ canonicalFields.map CanonicalField.name) ∧
    ∀ key ∈ canonicalFields.map CanonicalField.name, key ∈ value.map Prod.fst)

namespace Allowlist

/-- One round of the loop of `_validate_entry`. -/
def readField (lower : String → String) (value : Mapping) (label : String)
    (field : CanonicalField) : AllowlistResult (Digest field.digits) := do
  let item ← okOr ((value.lookup field.name).bind Tree.asStr)
    (allowlistError (label ++ "." ++ field.name ++ " must be a string"))
  okOr (Digest.ofText field.digits (lower (strip item)))
    (allowlistError (label ++ "." ++ field.name ++ " has the wrong digest width"))

/-- `_validate_entry`. -/
def validateEntry (lower : String → String) (value : Mapping) (label : String) :
    AllowlistResult Entry := do
  require (hasExactKeys value) (allowlistError (label ++ " must contain exactly " ++
    String.intercalate ", " (canonicalFields.map CanonicalField.name)))
  readEntry (readField lower value label)

/-- Python's `json`, reading the text of a file: an error it reports, or another exception. -/
structure JsonReader where
  loads : Bytes → Except (Stop String) Tree

/-- `_load_json`, of the file at the path if there is one. -/
def loadJson (json : JsonReader) (label path : String) (file : Option Bytes) :
    AllowlistResult Tree :=
  match file with
  | none => .error (allowlistError ("cannot load " ++ label ++ " " ++ path ++
      ": [Errno 2] No such file or directory: '" ++ path ++ "'"))
  | some text => (json.loads text).mapError fun
      | .panic => .panic
      | .err exc => allowlistError ("cannot load " ++ label ++ " " ++ path ++ ": " ++ exc)

/-- `data.get("entries")` of a mapping. -/
def entriesOf : Tree → Tree
  | .object members => (members.lookup "entries").getD .null
  | data => data

def asList : Tree → Option (List Tree)
  | .array items => some items
  | _ => none

def asMapping : Tree → Option Mapping
  | .object members => some members
  | _ => none

theorem asMapping_eq_some {value : Tree} {members : Mapping} :
    asMapping value = some members ↔ value = .object members := by
  cases value <;> simp [asMapping]

def loadAllowlist (json : JsonReader) (lower : String → String) (path : String)
    (file : Option Bytes) : AllowlistResult (List Entry) := do
  let data ← loadJson json "measurement allowlist" path file
  let data ← okOr (asList (entriesOf data))
    (allowlistError "measurement allowlist must be a JSON list")
  let mappings ← okOr (data.mapM asMapping)
    (allowlistError "every allowlist entry must be an object")
  mappings.zipIdx.mapM fun entry =>
    validateEntry lower entry.1 ("allowlist[" ++ toString entry.2 ++ "]")

/-- `any(normalized == _validate_entry(entry, label="allowlist entry") for entry in entries)`. -/
def anyEntry (lower : String → String) (normalized : Entry) : List Mapping → AllowlistResult Bool
  | [] => .ok false
  | entry :: entries => do
      let valid ← validateEntry lower entry "allowlist entry"
      if normalized = valid then .ok true else anyEntry lower normalized entries

def allowlistContains (lower : String → String) (candidate : Mapping) (entries : List Mapping) :
    AllowlistResult Bool :=
  match validateEntry lower candidate "candidate" with
  | .ok normalized => anyEntry lower normalized entries
  | .error (.err _) => .ok false
  | .error .panic => .error .panic

/-! ## What it accepts -/

theorem readField_eq_ok {lower : String → String} {value : Mapping} {label : String}
    {field : CanonicalField} {digest : Digest field.digits} :
    readField lower value label field = .ok digest ↔
      normalizedField lower value field = some digest.text := by
  simp only [readField, bind_eq_ok, okOr_eq_ok, Digest.ofText_eq_some, normalizedField,
    Option.map_eq_some_iff]

/-- The validator accepts what has no other key and matches. -/
theorem validateEntry_eq_ok {lower : String → String} {value : Mapping} {label : String}
    {entry : Entry} :
    validateEntry lower value label = .ok entry ↔
      hasExactKeys value = true ∧ Matches lower entry value := by
  simp only [validateEntry, bind_eq_ok, require_eq_ok, readEntry_eq_ok, readField_eq_ok, Matches]
  constructor
  · rintro ⟨_, hkeys, h⟩
    exact ⟨hkeys, h⟩
  · rintro ⟨hkeys, h⟩
    exact ⟨(), hkeys, h⟩

theorem hasExactKeys_toMapping (entry : Entry) : hasExactKeys entry.toMapping = true := by
  have hkeys : entry.toMapping.map Prod.fst =
      ["compose_hash", "mrtd", "os_image_hash", "rtmr0", "rtmr1", "rtmr2"] := rfl
  simp only [hasExactKeys, hkeys]
  decide

/-- An entry reads back as itself. -/
theorem validateEntry_toMapping {lower : String → String} (hlower : LowersAscii lower)
    (entry : Entry) (label : String) : validateEntry lower entry.toMapping label = .ok entry :=
  validateEntry_eq_ok.mpr ⟨hasExactKeys_toMapping entry, matches_toMapping hlower entry⟩

/-- Membership among entries. -/
theorem anyEntry_toMapping {lower : String → String} (hlower : LowersAscii lower)
    (normalized : Entry) (entries : List Entry) :
    anyEntry lower normalized (entries.map Entry.toMapping) =
      .ok (decide (normalized ∈ entries)) := by
  induction entries with
  | nil => rfl
  | cons entry entries ih =>
    rw [List.map_cons, anyEntry, validateEntry_toMapping hlower, ok_bind, ih]
    by_cases hsame : normalized = entry
    · simp [hsame]
    · simp [hsame]

/-- An entry is looked up among entries. -/
theorem allowlistContains_entry {lower : String → String} (hlower : LowersAscii lower)
    (item : Entry) (entries : List Entry) :
    allowlistContains lower item.toMapping (entries.map Entry.toMapping) =
      .ok (decide (item ∈ entries)) := by
  rw [allowlistContains, validateEntry_toMapping hlower]
  exact anyEntry_toMapping hlower item entries

/-- A candidate is on a list of entries when it has no other key and spells out one of them. -/
theorem allowlistContains_toMapping {lower : String → String} (hlower : LowersAscii lower)
    {candidate : Mapping} {entries : List Entry} :
    allowlistContains lower candidate (entries.map Entry.toMapping) = .ok true ↔
      hasExactKeys candidate = true ∧ ∃ entry ∈ entries, Matches lower entry candidate := by
  unfold allowlistContains
  cases hvalid : validateEntry lower candidate "candidate" with
  | ok normalized =>
    obtain ⟨hkeys, hmatches⟩ := validateEntry_eq_ok.mp hvalid
    simp only [anyEntry_toMapping hlower, Except.ok.injEq, decide_eq_true_eq]
    constructor
    · intro hmem
      exact ⟨hkeys, normalized, hmem, hmatches⟩
    · rintro ⟨-, entry, hmem, hentry⟩
      exact hmatches.unique hentry ▸ hmem
  | error e =>
    have hnone : ¬ (hasExactKeys candidate = true ∧ ∃ entry ∈ entries,
        Matches lower entry candidate) := by
      rintro ⟨hkeys, entry, -, hentry⟩
      rw [validateEntry_eq_ok.mpr ⟨hkeys, hentry⟩] at hvalid
      cases hvalid
    cases e with
    | panic => simp [hnone]
    | err e => simp [hnone]

/-- The list of entries as `json.dumps` is given it. -/
def payload (entries : List Entry) : Tree :=
  .array ((entries.map Entry.toMapping).map Tree.object)

theorem mapM_asMapping (mappings : List Mapping) :
    (mappings.map Tree.object).mapM asMapping = some mappings := by
  induction mappings with
  | nil => rfl
  | cons mapping mappings ih =>
    rw [List.map_cons, List.mapM_cons, ih]
    rfl

/-- A file that reads as a list of entries is that allowlist. -/
theorem loadAllowlist_payload {json : JsonReader} {lower : String → String}
    (hlower : LowersAscii lower) {path : String} {text : Bytes} {entries : List Entry}
    (h : json.loads text = .ok (payload entries)) :
    loadAllowlist json lower path (some text) = .ok entries := by
  have hvalid : ∀ start, ((entries.map Entry.toMapping).zipIdx start).mapM (fun entry =>
      validateEntry lower entry.1 ("allowlist[" ++ toString entry.2 ++ "]")) = .ok entries := by
    intro start
    rw [mapM_eq_ok]
    clear h
    induction entries generalizing start with
    | nil => exact .nil
    | cons entry entries ih =>
      rw [List.map_cons, List.zipIdx_cons]
      exact .cons (validateEntry_toMapping hlower entry _) (ih (start + 1))
  rw [loadAllowlist, loadJson, h]
  show (okOr (((entries.map Entry.toMapping).map Tree.object).mapM asMapping) _ >>= _) = _
  rw [mapM_asMapping, okOr_some, ok_bind]
  exact hvalid 0

end Allowlist

end Basecrawl.Image
