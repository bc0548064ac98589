/-
  The measurement that is derived from an image's materials.

  The materials are a mapping of ten keys, some optional, with digests in either case and with or
  without their algorithm.  Their canonical form is typed: a `Digest 64` for each digest, stripped
  text that is not empty for everything else, so that nothing is left to check.

  1. **Materials** — the canonical form, and the reading of a mapping.
  2. **Measurement** — the fingerprint of the canonical form goes into every register and into the
     compose hash, behind a tag and some of the materials, joined by an unescaped `|`.
  3. **The canonical form** reads back as itself.
  4. **The fingerprint** — `json.dumps` tells canonical forms apart.
  5. **The registers** — every joined text ends in the fingerprint, which has one length: what
     comes before need not be parsed.
-/
import Mathlib.Data.Set.Function
import Basecrawl.Image.Rotation
import Basecrawl.Lib.Framing
import Basecrawl.Lib.PyStr

namespace Basecrawl.Image.Materials

open Text Hex Outcome Panic PyText PyStr PrefixCode Framing Json Rotation

/-! ## Materials -/

/-- `MEASUREMENT_MATERIAL_KEYS`. -/
inductive MaterialKey where
  | chromiumVersion
  | runtimeImageDigest
  | builderImageDigest
  | rustVersion
  | sourceDateEpoch
  | applicationSourceDigest
  | composeSpecDigest
  | osImageHash
  | rtmr0VmShape
  | cvePatchId
deriving DecidableEq

def measurementMaterialKeys : List MaterialKey :=
  [.chromiumVersion, .runtimeImageDigest, .builderImageDigest, .rustVersion, .sourceDateEpoch,
    .applicationSourceDigest, .composeSpecDigest, .osImageHash, .rtmr0VmShape, .cvePatchId]

def MaterialKey.name : MaterialKey → String
  | .chromiumVersion => "chromium_version"
  | .runtimeImageDigest => "runtime_image_digest"
  | .builderImageDigest => "builder_image_digest"
  | .rustVersion => "rust_version"
  | .sourceDateEpoch => "source_date_epoch"
  | .applicationSourceDigest => "application_source_digest"
  | .composeSpecDigest => "compose_spec_digest"
  | .osImageHash => "os_image_hash"
  | .rtmr0VmShape => "rtmr0_vm_shape"
  | .cvePatchId => "cve_patch_id"

/-- What `_canonical_materials` tells apart about a value. -/
inductive Value where
  | none
  | str (text : Str)
  | other

/-- A mapping of materials. -/
abbrev MaterialMapping := List (Str × Value)

/-- Stripped text that is not empty. -/
@[ext] structure Trimmed where
  text : Str
  stripped : strip text = text
  nonempty : text ≠ []

/-- `str.strip()`, if that leaves anything. -/
def trim (raw : Str) : Option Trimmed :=
  if h : strip raw = [] then none else some ⟨strip raw, strip_strip raw, h⟩

/-- The materials in canonical form. -/
@[ext] structure Canonical where
  chromiumVersion : Trimmed
  runtimeImageDigest : Digest 64
  builderImageDigest : Digest 64
  rustVersion : Trimmed
  sourceDateEpoch : Trimmed
  applicationSourceDigest : Digest 64
  composeSpecDigest : Digest 64
  osImageHash : Digest 64
  rtmr0VmShape : Trimmed
  cvePatchId : Trimmed

def Canonical.value (canon : Canonical) : MaterialKey → Str
  | .chromiumVersion => canon.chromiumVersion.text
  | .runtimeImageDigest => ofText canon.runtimeImageDigest.text
  | .builderImageDigest => ofText canon.builderImageDigest.text
  | .rustVersion => canon.rustVersion.text
  | .sourceDateEpoch => canon.sourceDateEpoch.text
  | .applicationSourceDigest => ofText canon.applicationSourceDigest.text
  | .composeSpecDigest => ofText canon.composeSpecDigest.text
  | .osImageHash => ofText canon.osImageHash.text
  | .rtmr0VmShape => canon.rtmr0VmShape.text
  | .cvePatchId => canon.cvePatchId.text

/-- The canonical form as a mapping. -/
def Canonical.toMaterials (canon : Canonical) : MaterialMapping :=
  measurementMaterialKeys.map fun key => (ofText key.name, .str (canon.value key))

def defaultRustVersion : Trimmed := ⟨ofText "1.96.0", by decide, by decide⟩

def defaultSourceDateEpoch : Trimmed :=
  ⟨ofText "1700000000", by decide, by decide⟩

def defaultCvePatchId : Trimmed := ⟨ofText "none", by decide, by decide⟩

/-- `"0" * 64`. -/
def defaultBuilderImageDigest : Digest 64 :=
  ⟨"0000000000000000000000000000000000000000000000000000000000000000", by decide⟩

/-- A key of `REQUIRED_MATERIALS`. -/
def requiredText (materials : MaterialMapping) (key : MaterialKey) : RotationResult Trimmed :=
  let missing := rotationError ("materials." ++ key.name ++ " must be a non-empty string")
  match materials.lookup (ofText key.name) with
  | some (.str raw) => okOr (trim raw) missing
  | _ => .error missing

/-- Any other key: `none` for what is empty. -/
def optionalText (materials : MaterialMapping) (key : MaterialKey) :
    RotationResult (Option Trimmed) :=
  match materials.lookup (ofText key.name) with
  | none => .ok none
  | some .none => .ok none
  | some (.str raw) => .ok (trim raw)
  | some .other => .error (rotationError ("materials." ++ key.name ++ " must be a string"))

/-- A value that may be written as `sha256:<hex>` or bare hex. -/
def asDigest (lower : String → String) (key : MaterialKey) (value : Trimmed) :
    RotationResult (Digest 64) := do
  let label := "materials." ++ key.name
  -- a lone surrogate is its own lower case, and no hex digit
  let text ← okOr (toText (removePrefix (ofText "sha256:") value.text))
    (rotationError (label ++ " must be a 64-char lowercase hex string"))
  requireHex lower text 64 label

def requiredDigest (lower : String → String) (materials : MaterialMapping) (key : MaterialKey) :
    RotationResult (Digest 64) := do
  asDigest lower key (← requiredText materials key)

def optionalDigest (lower : String → String) (materials : MaterialMapping) (key : MaterialKey) :
    RotationResult (Option (Digest 64)) := do
  match ← optionalText materials key with
  | none => return none
  | some value => return some (← asDigest lower key value)

/-- `_canonical_materials`, where `repr` prints the sorted list of unknown keys.  A Chromium version
is required, so its default is never used. -/
def canonicalMaterials (repr : List Str → String) (lower : String → String)
    (materials : MaterialMapping) : RotationResult Canonical := do
  let unknown := (materials.map Prod.fst).filter fun key =>
    decide (key ∉ measurementMaterialKeys.map fun known => ofText known.name)
  require unknown.isEmpty (rotationError ("unknown measurement material keys: " ++ repr unknown))
  let chromiumVersion ← requiredText materials .chromiumVersion
  let runtimeImageDigest ← requiredDigest lower materials .runtimeImageDigest
  let builderImageDigest ← optionalDigest lower materials .builderImageDigest
  let rustVersion ← optionalText materials .rustVersion
  let sourceDateEpoch ← optionalText materials .sourceDateEpoch
  let applicationSourceDigest ← requiredDigest lower materials .applicationSourceDigest
  let composeSpecDigest ← requiredDigest lower materials .composeSpecDigest
  let osImageHash ← requiredDigest lower materials .osImageHash
  let rtmr0VmShape ← requiredText materials .rtmr0VmShape
  let cvePatchId ← optionalText materials .cvePatchId
  return {
    chromiumVersion, runtimeImageDigest, applicationSourceDigest, composeSpecDigest, osImageHash,
    rtmr0VmShape
    builderImageDigest := builderImageDigest.getD defaultBuilderImageDigest
    rustVersion := rustVersion.getD defaultRustVersion
    sourceDateEpoch := sourceDateEpoch.getD defaultSourceDateEpoch
    cvePatchId := cvePatchId.getD defaultCvePatchId }

/-! ## Measurement -/

/-- `hashlib`. -/
structure Hashlib where
  sha256 : Bytes → Vector UInt8 32
  sha384 : Bytes → Vector UInt8 48

/-- `_sha256_hex`. -/
def sha256Hex (hashlib : Hashlib) (data : Bytes) : String := hexEncode (hashlib.sha256 data).toList

/-- `_sha384_hex`. -/
def sha384Hex (hashlib : Hashlib) (data : Bytes) : String := hexEncode (hashlib.sha384 data).toList

/-- The keys in the order in which `sort_keys` writes them. -/
def sortedKeys : List MaterialKey :=
  [.applicationSourceDigest, .builderImageDigest, .chromiumVersion, .composeSpecDigest,
    .cvePatchId, .osImageHash, .rtmr0VmShape, .runtimeImageDigest, .rustVersion, .sourceDateEpoch]

example : (sortedKeys.map MaterialKey.name).Pairwise (· < ·) ∧
    sortedKeys.Perm measurementMaterialKeys := by decide

/-- `json.dumps(canon, sort_keys=True, separators=(",", ":"))`. -/
def Canonical.payload (canon : Canonical) : String :=
  String.ofList ('{' :: ([','].intercalate (sortedKeys.map fun key =>
    dumpsStr (ofText key.name) ++ ':' :: dumpsStr (canon.value key)) ++ ['}']))

/-- The rest of `materials_fingerprint`. -/
def Canonical.fingerprint (hashlib : Hashlib) (canon : Canonical) : String :=
  sha256Hex hashlib (utf8 canon.payload)

/-- `materials_fingerprint`. -/
def materialsFingerprint (hashlib : Hashlib) (repr : List Str → String)
    (lower : String → String) (materials : MaterialMapping) : RotationResult String := do
  let canon ← canonicalMaterials repr lower materials
  return canon.fingerprint hashlib

/-- The materials that a field is derived from apart from the fingerprint. -/
def Canonical.parts (canon : Canonical) : CanonicalField → List Str
  | .mrtd => [canon.value .runtimeImageDigest, canon.value .cvePatchId]
  | .rtmr0 => [canon.value .rtmr0VmShape, canon.value .sourceDateEpoch]
  | .rtmr1 => [canon.value .chromiumVersion, canon.value .rustVersion,
      canon.value .applicationSourceDigest]
  | .rtmr2 => [canon.value .builderImageDigest, canon.value .applicationSourceDigest,
      canon.value .cvePatchId]
  | .composeHash => [canon.value .composeSpecDigest, canon.value .cvePatchId]
  | .osImageHash => []

/-- `domain`, whose tag is the name of the field. -/
def domain (canon : Canonical) (root : String) (field : CanonicalField) : Option Bytes :=
  encode ([CodePoint.scalar '|'].intercalate
    (ofText field.name :: canon.parts field ++ [ofText root]))

/-- `derive_measurement`; a `UnicodeEncodeError` is raised. -/
def deriveMeasurement (hashlib : Hashlib) (repr : List Str → String) (lower : String → String)
    (materials : MaterialMapping) : RotationResult Mapping := do
  let canon ← canonicalMaterials repr lower materials
  let root ← materialsFingerprint hashlib repr lower canon.toMaterials
  let mrtd ← okOr (domain canon root .mrtd) .panic
  let rtmr0 ← okOr (domain canon root .rtmr0) .panic
  let rtmr1 ← okOr (domain canon root .rtmr1) .panic
  let rtmr2 ← okOr (domain canon root .rtmr2) .panic
  let composeHash ← okOr (domain canon root .composeHash) .panic
  let entry : Mapping := [
    ("mrtd", .string (sha384Hex hashlib mrtd)),
    ("rtmr0", .string (sha384Hex hashlib rtmr0)),
    ("rtmr1", .string (sha384Hex hashlib rtmr1)),
    ("rtmr2", .string (sha384Hex hashlib rtmr2)),
    ("compose_hash", .string (sha256Hex hashlib composeHash)),
    ("os_image_hash", .string canon.osImageHash.text)]
  match canonicalFields.find? fun field =>
      !(((entry.lookup field.name).bind Tree.asStr).any fun item => item != "") with
  | some field => .error (rotationError ("derived measurement missing " ++ field.name))
  | none => return entry

/-- `assert_reproducible_pair`. -/
def assertReproduciblePair (hashlib : Hashlib) (repr : List Str → String)
    (lower : String → String) (materialsA materialsB : MaterialMapping) :
    RotationResult Mapping := do
  let a ← deriveMeasurement hashlib repr lower materialsA
  let b ← deriveMeasurement hashlib repr lower materialsB
  require (decide (a = b)) (rotationError
    "rebuild is non-reproducible: measurements of identical materials differ")
  return a

/-- `assert_cve_patch_rotates_measurement`. -/
def assertCvePatchRotatesMeasurement (hashlib : Hashlib) (repr : List Str → String)
    (lower : String → String) (vulnerable patched : MaterialMapping) :
    RotationResult (Mapping × Mapping) := do
  let old ← deriveMeasurement hashlib repr lower vulnerable
  let new ← deriveMeasurement hashlib repr lower patched
  require (decide (old ≠ new)) (rotationError
    "CVE patch did not change the measurement; missing material pin change")
  return (old, new)

/-! ## The canonical form -/

variable {hashlib : Hashlib} {repr : List Str → String} {lower : String → String}

theorem MaterialKey.name_injective : Function.Injective MaterialKey.name := by
  intro a b h
  cases a <;> cases b <;> first | rfl | exact absurd h (by decide)

theorem mem_measurementMaterialKeys (key : MaterialKey) : key ∈ measurementMaterialKeys := by
  cases key <;> decide

theorem mem_sortedKeys (key : MaterialKey) : key ∈ sortedKeys := by
  cases key <;> decide

/-- Equal values are equal materials. -/
theorem Canonical.ext_value {a b : Canonical} (h : ∀ key, a.value key = b.value key) : a = b := by
  have hdigest : ∀ {x y : Digest 64}, ofText x.text = ofText y.text → x = y := fun hxy =>
    Digest.ext (ofText_injective hxy)
  exact Canonical.ext (Trimmed.ext (h .chromiumVersion)) (hdigest (h .runtimeImageDigest))
    (hdigest (h .builderImageDigest)) (Trimmed.ext (h .rustVersion))
    (Trimmed.ext (h .sourceDateEpoch)) (hdigest (h .applicationSourceDigest))
    (hdigest (h .composeSpecDigest)) (hdigest (h .osImageHash)) (Trimmed.ext (h .rtmr0VmShape))
    (Trimmed.ext (h .cvePatchId))

theorem lookup_toMaterials (canon : Canonical) (key : MaterialKey) :
    canon.toMaterials.lookup (ofText key.name) = some (.str (canon.value key)) := by
  have h : ∀ keys : List MaterialKey, key ∈ keys →
      (keys.map fun key => (ofText key.name, Value.str (canon.value key))).lookup
        (ofText key.name) = some (.str (canon.value key)) := by
    intro keys hmem
    induction keys with
    | nil => cases hmem
    | cons first keys ih =>
      rw [List.map_cons, List.lookup_cons]
      by_cases hsame : key = first
      · rw [hsame, beq_self_eq_true]
      · have hne : (ofText key.name == ofText first.name) = false := by
          rw [beq_eq_false_iff_ne]
          exact fun hname => hsame (MaterialKey.name_injective (ofText_injective hname))
        rw [hne]
        exact ih ((List.mem_cons.mp hmem).resolve_left hsame)
  exact h _ (mem_measurementMaterialKeys key)

theorem trim_text (value : Trimmed) : trim value.text = some value := by
  have hne : strip value.text ≠ [] := fun h => value.nonempty (value.stripped.symm.trans h)
  rw [trim, dif_neg hne]
  exact congrArg some (Trimmed.ext value.stripped)

theorem requiredText_toMaterials (canon : Canonical) (key : MaterialKey) (value : Trimmed)
    (h : canon.value key = value.text) :
    requiredText canon.toMaterials key = .ok value := by
  rw [requiredText, lookup_toMaterials, h]
  show okOr (trim value.text) _ = _
  rw [trim_text, okOr_some]

theorem optionalText_toMaterials (canon : Canonical) (key : MaterialKey) (value : Trimmed)
    (h : canon.value key = value.text) :
    optionalText canon.toMaterials key = .ok (some value) := by
  rw [optionalText, lookup_toMaterials, h]
  exact congrArg Except.ok (trim_text value)

theorem Digest.isHexText (digest : Digest 64) : PyText.isHexText digest.text = true := by
  have hvalid := digest.valid
  rw [isDigest, Bool.and_eq_true] at hvalid
  exact hvalid.2

theorem strip_digest (digest : Digest 64) : strip (ofText digest.text) = ofText digest.text := by
  rw [strip_ofText, strip_hex (mem_hexChars_of_isHexText (Digest.isHexText digest))]

theorem digest_ne_nil (digest : Digest 64) : ofText digest.text ≠ [] := by
  have hlen := digest.valid
  simp only [isDigest, Bool.and_eq_true, beq_iff_eq] at hlen
  rw [← List.length_pos_iff, ofText, List.length_map]
  omega

/-- A digest is stripped text. -/
def trimmedDigest (digest : Digest 64) : Trimmed :=
  ⟨ofText digest.text, strip_digest digest, digest_ne_nil digest⟩

/-- Hex has no algorithm before it. -/
theorem removePrefix_digest (digest : Digest 64) :
    removePrefix (ofText "sha256:") (ofText digest.text) = ofText digest.text := by
  apply if_neg
  rintro ⟨rest, hrest⟩
  have hmem : CodePoint.scalar 's' ∈ ofText digest.text := by
    rw [← hrest]
    exact List.mem_append_left rest (by decide)
  obtain ⟨c, hc, hs⟩ := List.mem_map.mp hmem
  cases hs
  exact absurd (isHexText_iff.mp (Digest.isHexText digest) 's' hc) (by decide)

theorem asDigest_trimmedDigest (hlower : LowersAscii lower) (key : MaterialKey)
    (digest : Digest 64) : asDigest lower key (trimmedDigest digest) = .ok digest := by
  rw [asDigest, trimmedDigest]
  show (okOr (toText (removePrefix (ofText "sha256:") (ofText digest.text))) _ >>= _) = _
  rw [removePrefix_digest, toText_ofText, okOr_some, ok_bind, requireHex,
    Digest.normalized hlower, Digest.ofText_eq_some.mpr rfl, okOr_some]

theorem requiredDigest_toMaterials (hlower : LowersAscii lower) (canon : Canonical)
    (key : MaterialKey) (digest : Digest 64) (h : canon.value key = ofText digest.text) :
    requiredDigest lower canon.toMaterials key = .ok digest := by
  rw [requiredDigest, requiredText_toMaterials canon key (trimmedDigest digest) h, ok_bind]
  exact asDigest_trimmedDigest hlower key digest

theorem optionalDigest_toMaterials (hlower : LowersAscii lower) (canon : Canonical)
    (key : MaterialKey) (digest : Digest 64) (h : canon.value key = ofText digest.text) :
    optionalDigest lower canon.toMaterials key = .ok (some digest) := by
  rw [optionalDigest, optionalText_toMaterials canon key (trimmedDigest digest) h, ok_bind]
  show (do return some (← asDigest lower key (trimmedDigest digest))) = _
  rw [asDigest_trimmedDigest hlower]
  rfl

/-- The canonical form reads back as itself. -/
theorem canonicalMaterials_toMaterials (repr : List Str → String) (hlower : LowersAscii lower)
    (canon : Canonical) : canonicalMaterials repr lower canon.toMaterials = .ok canon := by
  have hknown : ((canon.toMaterials.map Prod.fst).filter fun key =>
      decide (key ∉ measurementMaterialKeys.map fun known => ofText known.name)) = [] := by
    rw [List.filter_eq_nil_iff, Canonical.toMaterials, List.map_map]
    intro key hkey
    rw [decide_eq_true_eq, not_not]
    exact hkey
  rw [canonicalMaterials, hknown]
  simp only [List.isEmpty_nil, require_true, ok_bind,
    requiredText_toMaterials canon .chromiumVersion _ rfl,
    requiredDigest_toMaterials hlower canon .runtimeImageDigest _ rfl,
    optionalDigest_toMaterials hlower canon .builderImageDigest _ rfl,
    optionalText_toMaterials canon .rustVersion _ rfl,
    optionalText_toMaterials canon .sourceDateEpoch _ rfl,
    requiredDigest_toMaterials hlower canon .applicationSourceDigest _ rfl,
    requiredDigest_toMaterials hlower canon .composeSpecDigest _ rfl,
    requiredDigest_toMaterials hlower canon .osImageHash _ rfl,
    requiredText_toMaterials canon .rtmr0VmShape _ rfl,
    optionalText_toMaterials canon .cvePatchId _ rfl]
  rfl

/-! ## The fingerprint -/

/-- No value holds a lone surrogate. -/
def Canonical.Encodable (canon : Canonical) : Prop :=
  ∀ key, (toText (canon.value key)).isSome = true

theorem Canonical.Encodable.exists_texts {canon : Canonical} (h : canon.Encodable) :
    ∃ texts : MaterialKey → String, ∀ key, canon.value key = ofText (texts key) := by
  refine ⟨fun key => (toText (canon.value key)).get (h key), fun key => ?_⟩
  exact toText_eq_some.mp (Option.some_get (h key)).symm

/-- A member and the comma after it. -/
def memberText (key : MaterialKey) (text : String) : List Char :=
  dumpsStr (ofText key.name) ++ (':' :: dumpsStr (ofText text)) ++ [',']

theorem memberText_prefixCode (key : MaterialKey) : IsPrefixCode (memberText key) := by
  have h := ((dumpsStr_prefixCode.ended [',']).lit [':']).lit (dumpsStr (ofText key.name))
  constructor
  intro s t x y hcut
  simp only [memberText, List.append_assoc, List.cons_append] at hcut
  apply h.cut
  simpa only [List.append_assoc, List.cons_append, List.nil_append] using hcut

/-- The members between the braces, each followed by a comma. -/
theorem payload_toList {canon : Canonical} {texts : MaterialKey → String}
    (h : ∀ key, canon.value key = ofText (texts key)) :
    ∃ members, canon.payload.toList = '{' :: (members ++ ['}']) ∧
      members ++ [','] = sortedKeys.flatMap fun key => memberText key (texts key) := by
  refine ⟨_, by rw [Canonical.payload, String.toList_ofList], ?_⟩
  rw [intercalate_append_sep (by simp [sortedKeys]), terminated, List.flatMap_map]
  simp only [memberText, h]

/-- `json.dumps` tells canonical forms apart. -/
theorem payload_injective {a b : Canonical} (ha : a.Encodable) (hb : b.Encodable)
    (h : a.payload = b.payload) : a = b := by
  obtain ⟨texts, htexts⟩ := ha.exists_texts
  obtain ⟨texts', htexts'⟩ := hb.exists_texts
  obtain ⟨members, hpayload, hmembers⟩ := payload_toList htexts
  obtain ⟨members', hpayload', hmembers'⟩ := payload_toList htexts'
  have hsame : members = members' := by
    rw [h, hpayload'] at hpayload
    exact (List.append_cancel_right (List.cons.inj hpayload).2).symm
  rw [hsame, hmembers'] at hmembers
  obtain ⟨hkeys, -⟩ := fields_unique memberText_prefixCode
    (congrArg (· ++ ([] : List Char)) hmembers)
  refine Canonical.ext_value fun key => ?_
  rw [htexts, htexts', hkeys key (mem_sortedKeys key)]

/-! ## The registers -/

/-- The joined text ends in the fingerprint. -/
theorem domain_ends {canon : Canonical} {root : String} {field : CanonicalField} {bytes : Bytes}
    (h : domain canon root field = some bytes) : ∃ front, bytes = front ++ utf8 root := by
  rw [domain, intercalate_concat, encode_append, encode_ofText] at h
  obtain ⟨front, -, hbytes⟩ := Option.bind_eq_some_iff.mp h
  exact ⟨front, (Option.some.inj hbytes).symm⟩

/-- A field has a text when the materials it is derived from do. -/
theorem domain_isSome {canon : Canonical} {root : String} {field : CanonicalField} :
    (domain canon root field).isSome = true ↔
      ∀ part ∈ canon.parts field, (toText part).isSome = true := by
  rw [domain, intercalate_concat, encode_isSome, terminated]
  constructor
  · intro h part hpart
    rw [toText_isSome]
    intro p hp
    apply h p
    apply List.mem_append_left
    exact List.mem_flatMap.mpr ⟨part, List.mem_cons_of_mem _ hpart, List.mem_append_left _ hp⟩
  · intro h p hp
    rcases List.mem_append.mp hp with hp | hp
    · obtain ⟨part, hpart, hp⟩ := List.mem_flatMap.mp hp
      rcases List.mem_append.mp hp with hp | hp
      · rcases List.mem_cons.mp hpart with rfl | hpart
        · exact isScalar_of_mem_ofText hp
        · exact toText_isSome.mp (h part hpart) p hp
      · rw [List.mem_singleton.mp hp]
        rfl
    · exact isScalar_of_mem_ofText hp

/-- A digest has a text, every other material is in some joined text. -/
theorem encodable_iff (canon : Canonical) (root : String) :
    canon.Encodable ↔ ∀ field, (domain canon root field).isSome = true := by
  simp only [domain_isSome]
  constructor
  · intro h field part hpart
    cases field <;> simp only [Canonical.parts, List.mem_cons, List.not_mem_nil, or_false] at hpart
    · rcases hpart with rfl | rfl <;> exact h _
    · rcases hpart with rfl | rfl <;> exact h _
    · rcases hpart with rfl | rfl | rfl <;> exact h _
    · rcases hpart with rfl | rfl | rfl <;> exact h _
    · rcases hpart with rfl | rfl <;> exact h _
  · intro h key
    have hdigest : ∀ digest : Digest 64, (toText (ofText digest.text)).isSome = true := by
      intro digest
      rw [toText_ofText]
      rfl
    cases key with
    | chromiumVersion => exact h .rtmr1 _ (by simp [Canonical.parts])
    | rustVersion => exact h .rtmr1 _ (by simp [Canonical.parts])
    | sourceDateEpoch => exact h .rtmr0 _ (by simp [Canonical.parts])
    | rtmr0VmShape => exact h .rtmr0 _ (by simp [Canonical.parts])
    | cvePatchId => exact h .mrtd _ (by simp [Canonical.parts])
    | _ => exact hdigest _

/-- The text that a field is the digest of. -/
def Canonical.preimage (hashlib : Hashlib) (canon : Canonical) (field : CanonicalField) : Bytes :=
  (domain canon (canon.fingerprint hashlib) field).getD []

/-- `_sha256_hex` is a digest. -/
def sha256Digest (hashlib : Hashlib) (data : Bytes) : Digest 64 where
  text := sha256Hex hashlib data
  valid := by
    have h : isDigest (2 * 32) (hexEncode (hashlib.sha256 data).toList) = true :=
      isDigest_hexEncode.mpr Vector.length_toList
    exact h

/-- `_sha384_hex` is a digest. -/
def sha384Digest (hashlib : Hashlib) (data : Bytes) : Digest 96 where
  text := sha384Hex hashlib data
  valid := by
    have h : isDigest (2 * 48) (hexEncode (hashlib.sha384 data).toList) = true :=
      isDigest_hexEncode.mpr Vector.length_toList
    exact h

/-- What is derived from the canonical form. -/
def Canonical.entry (hashlib : Hashlib) (canon : Canonical) : Entry where
  mrtd := sha384Digest hashlib (canon.preimage hashlib .mrtd)
  rtmr0 := sha384Digest hashlib (canon.preimage hashlib .rtmr0)
  rtmr1 := sha384Digest hashlib (canon.preimage hashlib .rtmr1)
  rtmr2 := sha384Digest hashlib (canon.preimage hashlib .rtmr2)
  composeHash := sha256Digest hashlib (canon.preimage hashlib .composeHash)
  osImageHash := canon.osImageHash

/-- The members in the order in which `derive_measurement` lists them. -/
def entryMembers (entry : Entry) : Mapping :=
  [("mrtd", .string entry.mrtd.text), ("rtmr0", .string entry.rtmr0.text),
    ("rtmr1", .string entry.rtmr1.text), ("rtmr2", .string entry.rtmr2.text),
    ("compose_hash", .string entry.composeHash.text),
    ("os_image_hash", .string entry.osImageHash.text)]

theorem lookup_entryMembers (entry : Entry) (field : CanonicalField) :
    (entryMembers entry).lookup field.name = some (.string (entry.digest field).text) := by
  cases field <;> rfl

theorem entryMembers_inj {entry entry' : Entry} :
    entryMembers entry = entryMembers entry' ↔ entry = entry' := by
  constructor
  · intro h
    refine Entry.ext_digest fun field => ?_
    have hlookup := lookup_entryMembers entry field
    rw [h, lookup_entryMembers, Option.some.injEq, Tree.string.injEq] at hlookup
    exact hlookup.symm
  · rintro rfl
    rfl

/-- The allowlist accepts it. -/
theorem validateEntry_entryMembers (hlower : LowersAscii lower) (entry : Entry) (label : String) :
    Allowlist.validateEntry lower (entryMembers entry) label = .ok entry := by
  rw [Allowlist.validateEntry_eq_ok]
  constructor
  · have hkeys : (entryMembers entry).map Prod.fst =
        ["mrtd", "rtmr0", "rtmr1", "rtmr2", "compose_hash", "os_image_hash"] := rfl
    simp only [hasExactKeys, hkeys]
    decide
  · intro field
    rw [normalizedField, lookup_entryMembers]
    exact congrArg some (Digest.normalized hlower (entry.digest field))

/-- Nothing is missing at the end. -/
theorem find?_missing (entry : Entry) :
    (canonicalFields.find? fun field =>
      !((((entryMembers entry).lookup field.name).bind Tree.asStr).any fun item => item != "")) =
      none := by
  rw [List.find?_eq_none]
  intro field _
  have hne : (entry.digest field).text ≠ "" := by
    intro hempty
    have hvalid := (entry.digest field).valid
    rw [hempty] at hvalid
    cases field <;> exact absurd hvalid (by decide)
  rw [lookup_entryMembers]
  simpa [Tree.asStr] using hne

theorem materialsFingerprint_toMaterials (hlower : LowersAscii lower) (canon : Canonical) :
    materialsFingerprint hashlib repr lower canon.toMaterials =
      .ok (canon.fingerprint hashlib) := by
  rw [materialsFingerprint, canonicalMaterials_toMaterials repr hlower]
  rfl

/-- A measurement is derived from materials that can be encoded. -/
theorem deriveMeasurement_eq (hashlib : Hashlib) {materials : MaterialMapping} {canon : Canonical}
    (hlower : LowersAscii lower)
    (hcanon : canonicalMaterials repr lower materials = .ok canon) (hencodable : canon.Encodable) :
    deriveMeasurement hashlib repr lower materials = .ok (entryMembers (canon.entry hashlib)) := by
  have hdomain : ∀ field, domain canon (canon.fingerprint hashlib) field =
      some (canon.preimage hashlib field) := by
    intro field
    obtain ⟨bytes, hbytes⟩ :=
      Option.isSome_iff_exists.mp ((encodable_iff canon _).mp hencodable field)
    rw [Canonical.preimage, hbytes, Option.getD_some]
  rw [deriveMeasurement, hcanon, ok_bind, materialsFingerprint_toMaterials hlower]
  simp only [ok_bind, hdomain, okOr_some]
  show (match canonicalFields.find? fun field =>
      !((((entryMembers (canon.entry hashlib)).lookup field.name).bind Tree.asStr).any
        fun item => item != "") with
    | some field => Except.error (rotationError ("derived measurement missing " ++ field.name))
    | none => .ok (entryMembers (canon.entry hashlib))) = _
  rw [find?_missing]

/-- From others there is none: `str.encode` raises. -/
theorem deriveMeasurement_eq_panic (hashlib : Hashlib) {materials : MaterialMapping}
    {canon : Canonical} (hlower : LowersAscii lower)
    (hcanon : canonicalMaterials repr lower materials = .ok canon)
    (hencodable : ¬ canon.Encodable) :
    deriveMeasurement hashlib repr lower materials = .error .panic := by
  rw [deriveMeasurement, hcanon, ok_bind, materialsFingerprint_toMaterials hlower, ok_bind]
  cases hmrtd : domain canon (canon.fingerprint hashlib) .mrtd with
  | none => rfl
  | some mrtd =>
  cases hrtmr0 : domain canon (canon.fingerprint hashlib) .rtmr0 with
  | none => rfl
  | some rtmr0 =>
  cases hrtmr1 : domain canon (canon.fingerprint hashlib) .rtmr1 with
  | none => rfl
  | some rtmr1 =>
  cases hrtmr2 : domain canon (canon.fingerprint hashlib) .rtmr2 with
  | none => rfl
  | some rtmr2 =>
  cases hcompose : domain canon (canon.fingerprint hashlib) .composeHash with
  | none => rfl
  | some composeHash =>
  -- nothing is left to fail: the hash of the image is a digest
  have hos : (domain canon (canon.fingerprint hashlib) .osImageHash).isSome = true :=
    domain_isSome.mpr fun _ hpart => absurd hpart List.not_mem_nil
  refine absurd ((encodable_iff canon (canon.fingerprint hashlib)).mpr fun field => ?_) hencodable
  cases field with
  | mrtd => exact hmrtd ▸ rfl
  | rtmr0 => exact hrtmr0 ▸ rfl
  | rtmr1 => exact hrtmr1 ▸ rfl
  | rtmr2 => exact hrtmr2 ▸ rfl
  | composeHash => exact hcompose ▸ rfl
  | osImageHash => exact hos

/-- What SHA-256 is applied to. -/
def Canonical.sha256Inputs (hashlib : Hashlib) (canon : Canonical) : List Bytes :=
  [utf8 canon.payload, canon.preimage hashlib .composeHash]

/-- What SHA-384 is applied to. -/
def Canonical.sha384Inputs (hashlib : Hashlib) (canon : Canonical) : List Bytes :=
  registerFields.map (canon.preimage hashlib)

/-- The hashes do not collide on what they are applied to for two canonical forms. -/
structure CollisionFree (hashlib : Hashlib) (a b : Canonical) : Prop where
  sha256 : Set.InjOn hashlib.sha256
    {data | data ∈ a.sha256Inputs hashlib ++ b.sha256Inputs hashlib}
  sha384 : Set.InjOn hashlib.sha384
    {data | data ∈ a.sha384Inputs hashlib ++ b.sha384Inputs hashlib}

theorem sha256Hex_inj {s : Set Bytes} (hinj : Set.InjOn hashlib.sha256 s) {x y : Bytes}
    (hx : x ∈ s) (hy : y ∈ s) (h : sha256Hex hashlib x = sha256Hex hashlib y) : x = y :=
  hinj hx hy (Vector.toList_inj.mp (hexEncode_injective h))

theorem sha384Hex_inj {s : Set Bytes} (hinj : Set.InjOn hashlib.sha384 s) {x y : Bytes}
    (hx : x ∈ s) (hy : y ∈ s) (h : sha384Hex hashlib x = sha384Hex hashlib y) : x = y :=
  hinj hx hy (Vector.toList_inj.mp (hexEncode_injective h))

/-- A field determines what it is the digest of. -/
theorem preimage_of_digest {a b : Canonical} (hhash : CollisionFree hashlib a b)
    {field : CanonicalField} (hfield : field ≠ .osImageHash)
    (h : ((a.entry hashlib).digest field).text = ((b.entry hashlib).digest field).text) :
    a.preimage hashlib field = b.preimage hashlib field := by
  have hregister : ∀ register ∈ registerFields,
      sha384Hex hashlib (a.preimage hashlib register) =
        sha384Hex hashlib (b.preimage hashlib register) →
      a.preimage hashlib register = b.preimage hashlib register := by
    intro register hmem
    apply sha384Hex_inj hhash.sha384
    · exact List.mem_append_left _ (List.mem_map_of_mem hmem)
    · exact List.mem_append_right _ (List.mem_map_of_mem hmem)
  cases field with
  | mrtd => exact hregister .mrtd (by decide) h
  | rtmr0 => exact hregister .rtmr0 (by decide) h
  | rtmr1 => exact hregister .rtmr1 (by decide) h
  | rtmr2 => exact hregister .rtmr2 (by decide) h
  | composeHash =>
    apply sha256Hex_inj hhash.sha256 _ _ h
    · simp [Canonical.sha256Inputs]
    · simp [Canonical.sha256Inputs]
  | osImageHash => exact absurd rfl hfield

theorem length_fingerprint (canon : Canonical) :
    (utf8 (canon.fingerprint hashlib)).length = 64 := by
  rw [Canonical.fingerprint, sha256Hex, (hexEncode_spec _).1, Vector.length_toList]

/-- Whatever comes before it, the fingerprint is what a joined text ends in. -/
theorem fingerprint_of_preimage {a b : Canonical} (ha : a.Encodable) (hb : b.Encodable)
    {field : CanonicalField} (h : a.preimage hashlib field = b.preimage hashlib field) :
    a.fingerprint hashlib = b.fingerprint hashlib := by
  obtain ⟨bytes, hbytes⟩ := Option.isSome_iff_exists.mp ((encodable_iff a _).mp ha field)
  obtain ⟨bytes', hbytes'⟩ := Option.isSome_iff_exists.mp ((encodable_iff b _).mp hb field)
  obtain ⟨front, hfront⟩ := domain_ends hbytes
  obtain ⟨front', hfront'⟩ := domain_ends hbytes'
  rw [Canonical.preimage, Canonical.preimage, hbytes, hbytes', Option.getD_some, Option.getD_some,
    hfront, hfront'] at h
  have hlen : (utf8 (a.fingerprint hashlib)).length = (utf8 (b.fingerprint hashlib)).length := by
    rw [length_fingerprint, length_fingerprint]
  exact utf8_inj.mp (List.append_inj' h hlen).2

/-- Where the hashes do not collide, any one register tells the materials apart. -/
theorem canonical_of_digest {a b : Canonical} (ha : a.Encodable) (hb : b.Encodable)
    (hhash : CollisionFree hashlib a b) (field : CanonicalField) (hfield : field ≠ .osImageHash)
    (h : ((a.entry hashlib).digest field).text = ((b.entry hashlib).digest field).text) :
    a = b := by
  have hroot := fingerprint_of_preimage ha hb (preimage_of_digest hhash hfield h)
  have hpayload : utf8 a.payload = utf8 b.payload := by
    apply sha256Hex_inj hhash.sha256 _ _ hroot
    · simp [Canonical.sha256Inputs]
    · simp [Canonical.sha256Inputs]
  exact payload_injective ha hb (utf8_inj.mp hpayload)

/-- A measurement identifies the materials it is derived from. -/
theorem measurement_identifies (hashlib : Hashlib) (repr : List Str → String)
    {lower : String → String} (hlower : LowersAscii lower) {a b : MaterialMapping}
    {ca cb : Canonical} (ha : canonicalMaterials repr lower a = .ok ca)
    (hb : canonicalMaterials repr lower b = .ok cb) (hhash : CollisionFree hashlib ca cb) :
    canonicalMaterials repr lower ca.toMaterials = .ok ca ∧
    (ca.Encodable → ∃ ea, deriveMeasurement hashlib repr lower a = .ok ea) ∧
    (¬ ca.Encodable → deriveMeasurement hashlib repr lower a = .error .panic) ∧
    ∀ ea eb, deriveMeasurement hashlib repr lower a = .ok ea →
      deriveMeasurement hashlib repr lower b = .ok eb →
      (ea = eb ↔ ca = cb) ∧
      (ca ≠ cb → ∀ field : CanonicalField, field ≠ .osImageHash →
        ea.lookup field.name ≠ eb.lookup field.name) ∧
      (∀ label, ∃ entry, Allowlist.validateEntry lower ea label = .ok entry) ∧
      (assertReproduciblePair hashlib repr lower a b = .ok ea ↔ ca = cb) ∧
      (assertCvePatchRotatesMeasurement hashlib repr lower a b = .ok (ea, eb) ↔ ca ≠ cb) := by
  refine ⟨canonicalMaterials_toMaterials repr hlower ca,
    fun h => ⟨_, deriveMeasurement_eq hashlib hlower ha h⟩,
    deriveMeasurement_eq_panic hashlib hlower ha, ?_⟩
  intro ea eb hea heb
  -- an entry is derived from what can be encoded only: the other case panics
  have hencodable : ∀ {m : MaterialMapping} {canon : Canonical} {entry : Mapping},
      canonicalMaterials repr lower m = .ok canon →
      deriveMeasurement hashlib repr lower m = .ok entry →
      canon.Encodable ∧ entry = entryMembers (canon.entry hashlib) := by
    intro m canon entry hcanon hentry
    by_cases h : canon.Encodable
    · rw [deriveMeasurement_eq hashlib hlower hcanon h] at hentry
      exact ⟨h, (Except.ok.inj hentry).symm⟩
    · rw [deriveMeasurement_eq_panic hashlib hlower hcanon h] at hentry
      cases hentry
  obtain ⟨ha', rfl⟩ := hencodable ha hea
  obtain ⟨hb', rfl⟩ := hencodable hb heb
  -- one digest settles the materials, and they settle the entry
  have hsame : entryMembers (ca.entry hashlib) = entryMembers (cb.entry hashlib) ↔ ca = cb := by
    rw [entryMembers_inj]
    constructor
    · intro h
      exact canonical_of_digest ha' hb' hhash .mrtd (by decide) (by rw [h])
    · rintro rfl
      rfl
  refine ⟨hsame, ?_, fun label => ⟨_, validateEntry_entryMembers hlower _ label⟩, ?_, ?_⟩
  · intro hne field hfield h
    rw [lookup_entryMembers, lookup_entryMembers, Option.some.injEq, Tree.string.injEq] at h
    exact hne (canonical_of_digest ha' hb' hhash field hfield h)
  · rw [← hsame]
    simp only [assertReproduciblePair, hea, heb, ok_bind, bind_eq_ok, require_eq_ok,
      decide_eq_true_eq]
    constructor
    · rintro ⟨-, h, -⟩
      exact h
    · intro h
      exact ⟨(), h, rfl⟩
  · rw [Ne, ← hsame]
    simp only [assertCvePatchRotatesMeasurement, hea, heb, ok_bind, bind_eq_ok, require_eq_ok,
      decide_eq_true_eq]
    constructor
    · rintro ⟨-, h, -⟩
      exact h
    · intro h
      exact ⟨(), h, rfl⟩

/-- Some pinned materials. -/
def pinned : Canonical where
  chromiumVersion := ⟨ofText "145.0.7632.46", by decide, by decide⟩
  runtimeImageDigest := defaultBuilderImageDigest
  builderImageDigest := defaultBuilderImageDigest
  rustVersion := defaultRustVersion
  sourceDateEpoch := defaultSourceDateEpoch
  applicationSourceDigest := defaultBuilderImageDigest
  composeSpecDigest := defaultBuilderImageDigest
  osImageHash := defaultBuilderImageDigest
  rtmr0VmShape := ⟨ofText "tdx.small.1vcpu.2g", by decide, by decide⟩
  cvePatchId := defaultCvePatchId

/-- The same with a patch. -/
def patched : Canonical :=
  { pinned with sourceDateEpoch := ⟨ofText "1700000001", by decide, by decide⟩ }

theorem pinned_encodable : pinned.Encodable := by
  intro key
  cases key <;> decide

theorem patched_encodable : patched.Encodable := by
  intro key
  cases key <;> decide

theorem pinned_ne_patched : pinned ≠ patched := by
  intro h
  have hepoch : ofText "1700000000" = ofText "1700000001" :=
    congrArg (fun canon => canon.sourceDateEpoch.text) h
  exact absurd (ofText_injective hepoch) (by decide)

/-- A digest that numbers the texts of a list. -/
def numbering (n : Nat) (texts : List Bytes) (data : Bytes) : Vector UInt8 n :=
  Vector.replicate n (UInt8.ofNat (texts.idxOf data))

theorem numbering_injOn {n : Nat} (hn : 0 < n) {texts : List Bytes} (hlen : texts.length < 256) :
    Set.InjOn (numbering n texts) {data | data ∈ texts} := by
  intro x hx y hy h
  have hx' := List.idxOf_lt_length_of_mem hx
  have hy' := List.idxOf_lt_length_of_mem hy
  have hfirst : UInt8.ofNat (texts.idxOf x) = UInt8.ofNat (texts.idxOf y) := by
    have hget := congrArg (fun digest : Vector UInt8 n => digest[0]) h
    simpa only [numbering, Vector.getElem_replicate] using hget
  have hnumber : texts.idxOf x = texts.idxOf y := by
    have hnat := congrArg UInt8.toNat hfirst
    rw [UInt8.toNat_ofNat', UInt8.toNat_ofNat'] at hnat
    omega
  exact (List.idxOf_inj hx).mp hnumber

/-- The fingerprint of the materials with a number. -/
def numberedRoot (number : UInt8) : String := hexEncode (Vector.replicate 32 number).toList

/-- What is hashed for these materials with SHA-256. -/
def texts256 : List Bytes :=
  [utf8 pinned.payload, utf8 patched.payload,
    (domain pinned (numberedRoot 0) .composeHash).getD [],
    (domain patched (numberedRoot 1) .composeHash).getD []]

/-- What is hashed for these materials with SHA-384. -/
def texts384 : List Bytes :=
  registerFields.map (fun field => (domain pinned (numberedRoot 0) field).getD []) ++
    registerFields.map fun field => (domain patched (numberedRoot 1) field).getD []

/-- Hashes for these materials. -/
def numbered : Hashlib where
  sha256 := numbering 32 texts256
  sha384 := numbering 48 texts384

theorem fingerprint_pinned : pinned.fingerprint numbered = numberedRoot 0 := by
  have hfirst : texts256.idxOf (utf8 pinned.payload) = 0 := List.idxOf_cons_self
  show hexEncode (numbering 32 texts256 (utf8 pinned.payload)).toList = numberedRoot 0
  rw [numbering, hfirst]
  rfl

theorem fingerprint_patched : patched.fingerprint numbered = numberedRoot 1 := by
  have hne : utf8 patched.payload ≠ utf8 pinned.payload := fun h => pinned_ne_patched
    (payload_injective pinned_encodable patched_encodable (utf8_inj.mp h.symm))
  have hsecond : texts256.idxOf (utf8 patched.payload) = 1 := by
    rw [texts256, List.idxOf_cons_ne _ hne.symm, List.idxOf_cons_self]
  show hexEncode (numbering 32 texts256 (utf8 patched.payload)).toList = numberedRoot 1
  rw [numbering, hsecond]
  rfl

/-- The inputs, with the fingerprint written out. -/
theorem inputs_of_fingerprint {hashlib : Hashlib} {canon : Canonical} {root : String}
    (h : canon.fingerprint hashlib = root) :
    canon.sha256Inputs hashlib =
        [utf8 canon.payload, (domain canon root .composeHash).getD []] ∧
      canon.sha384Inputs hashlib =
        registerFields.map fun field => (domain canon root field).getD [] := by
  subst h
  exact ⟨rfl, rfl⟩

theorem numbered_collisionFree : CollisionFree numbered pinned patched := by
  obtain ⟨h256, h384⟩ := inputs_of_fingerprint fingerprint_pinned
  obtain ⟨h256', h384'⟩ := inputs_of_fingerprint fingerprint_patched
  have hmem : ∀ a b c d data : Bytes, data ∈ [a, b] ++ [c, d] → data ∈ [a, c, b, d] := by
    intro a b c d data hdata
    rw [((List.Perm.swap b c [d]).cons a).mem_iff]
    exact hdata
  have hlen : texts384.length < 256 := by
    rw [texts384, List.length_append, List.length_map, List.length_map]
    decide
  constructor
  · rw [h256, h256']
    have hinj : Set.InjOn (numbering 32 texts256) {data | data ∈ texts256} :=
      numbering_injOn (by decide) (by decide : 4 < 256)
    exact hinj.mono fun data hdata => hmem _ _ _ _ data hdata
  · rw [h384, h384']
    have hinj : Set.InjOn (numbering 48 texts384) {data | data ∈ texts384} :=
      numbering_injOn (by decide) hlen
    exact hinj

/-- A patched epoch rotates the measurement. -/
theorem measurement_identifies_patched :
    ∃ ea eb, deriveMeasurement numbered (fun _ => "") asciiLower pinned.toMaterials = .ok ea ∧
      deriveMeasurement numbered (fun _ => "") asciiLower patched.toMaterials = .ok eb ∧
      ∀ field : CanonicalField, field ≠ .osImageHash →
        ea.lookup field.name ≠ eb.lookup field.name := by
  have hcanon := canonicalMaterials_toMaterials (fun _ => "") asciiLower_lowersAscii
  obtain ⟨-, hderive, -, h⟩ := measurement_identifies numbered (fun _ => "")
    asciiLower_lowersAscii (hcanon pinned) (hcanon patched) numbered_collisionFree
  obtain ⟨ea, hea⟩ := hderive pinned_encodable
  have heb := deriveMeasurement_eq numbered asciiLower_lowersAscii (hcanon patched)
    patched_encodable
  exact ⟨ea, _, hea, heb, (h ea _ hea heb).2.1 pinned_ne_patched⟩

/-- The same with a lone surrogate for a VM shape. -/
def unencodable : Canonical :=
  { pinned with rtmr0VmShape := ⟨[.surrogate 0], by decide, by decide⟩ }

/-- Materials that are accepted and whose measurement is not reproduced: there is none. -/
theorem unencodable_not_reproduced :
    canonicalMaterials (fun _ => "") asciiLower unencodable.toMaterials = .ok unencodable ∧
      ∀ hashlib, deriveMeasurement hashlib (fun _ => "") asciiLower unencodable.toMaterials =
          .error .panic ∧
        assertReproduciblePair hashlib (fun _ => "") asciiLower unencodable.toMaterials
          unencodable.toMaterials = .error .panic := by
  have hcanon := canonicalMaterials_toMaterials (fun _ => "") asciiLower_lowersAscii unencodable
  have hencodable : ¬ unencodable.Encodable := fun h => absurd (h .rtmr0VmShape) (by decide)
  refine ⟨hcanon, fun hashlib => ?_⟩
  have hderive := deriveMeasurement_eq_panic hashlib asciiLower_lowersAscii hcanon
    hencodable
  refine ⟨hderive, ?_⟩
  rw [assertReproduciblePair, hderive]
  rfl

end Basecrawl.Image.Materials
