/-
  Retained BuildKit records, and when two of them are two builds.

  A record is a metadata document and the history it is bound to.  The metadata names the build by
  its full reference, `builder/node/id`; the history may name it by the id alone, and a history is
  looked up by its id.

  1. **Texts** — the regular expressions of the validator.
  2. **Materials** — what went into a build, as the two documents spell it.
  3. **Validation** of a record.
  4. **Independence** — distinct references are required, not distinct ids.  The id of an accepted
     history is the last component of the reference (`validateBuildkitRecord_spec`), so records
     of distinct references share a history exactly when two references differ in their prefix only.
-/
import Mathlib.Data.List.TakeWhile
import Basecrawl.Image.Allowlist

namespace Basecrawl.Image.BuildKit

open Text Hex Outcome Panic PyText Json Allowlist

/-! ## Texts -/

def sourceDateEpoch : String := "1700000000"

def expectedPlatform : String := "linux/amd64"

def expectedFrontend : String := "gateway.v0"

def expectedSource : String :=
  "docker/dockerfile:1.7@sha256:a57df69d0ea827fb7266491f2813635de6f17269be881f696fbfdf2d83dda33e"

def expectedCmdline : String := expectedSource

def expectedConfigEntryPoint : String := "Dockerfile"

def expectedBuildName : String := "basecrawl/image"

def expectedContext : String := "basecrawl"

def expectedDockerfile : String := "image/Dockerfile"

/-- `_OUTPUT_TYPES`. -/
def outputTypes : List String :=
  ["application/vnd.oci.image.manifest.v1+json",
    "application/vnd.docker.distribution.manifest.v2+json"]

def isWord (extra : List Char) (s : String) : Bool :=
  s.toList.all fun c => c.isAlphanum || decide (c ∈ extra)

/-- `_REFERENCE.fullmatch`. -/
def isReference (value : String) : Bool :=
  match split value '/' with
  | [builder, node, id] =>
      builder != "" && isWord ['_', '.', '-'] builder && node != "" &&
        isWord ['_', '.', '-'] node && decide (8 ≤ id.toList.length) && isWord ['_', '-'] id
  | _ => false

/-- `_DIGEST.fullmatch`. -/
def isPrefixedDigest (value : String) : Bool :=
  (stripPrefix value "sha256:").any (isDigest 64)

/-- `_ALGORITHM.fullmatch`. -/
def isAlgorithm (value : String) : Bool :=
  value.toList.head?.any Char.isAlpha && isWord ['+', '.', '_', '-'] value

/-- `_HEX.fullmatch`. -/
def isHex64 (value : String) : Bool :=
  value.toList.length == 64 && value.toList.all fun c => decide (c ∈ hexChars)

/-- `value.rsplit("/", 1)[-1]`. -/
def lastComponent (value : String) : String :=
  String.ofList (value.toList.reverse.takeWhile (· ≠ '/')).reverse

/-- `set(value) == set(keys)`. -/
def hasKeys (value : Mapping) (keys : List String) : Bool :=
  decide ((∀ key ∈ value.map Prod.fst, key ∈ keys) ∧ ∀ key ∈ keys, key ∈ value.map Prod.fst)

/-- `value.get(key) == text`. -/
def holds (value : Mapping) (key text : String) : Bool :=
  value.lookup key == some (.string text)

/-! ## Errors -/

/-- A record that is malformed, unresolved or inconsistent. -/
structure BuildKitProvenanceError where
  message : String
  code : String
deriving DecidableEq

abbrev BuildKitResult (α : Type) := Checked BuildKitProvenanceError α

/-- `_fail`. -/
def buildKitError (message code : String) : Stop BuildKitProvenanceError := .err ⟨message, code⟩

/-- `value in items`, where what is not hashable is a `TypeError`. -/
def inSet (value : Option Tree) (items : List String) : BuildKitResult Bool :=
  match value with
  | some (.array _) => .error .panic
  | some (.object _) => .error .panic
  | some (.string text) => .ok (decide (text ∈ items))
  | _ => .ok false

/-- Python and the file system. -/
structure Host where
  lower : String → String
  repr : Tree → String
  readBytes : String → Except String Bytes
  sha256 : Bytes → Vector UInt8 32

/-! ## Materials -/

/-- A material: its URI, and the algorithm and the value of one of its digests. -/
abbrev Material := String × String × String

/-- `frozenset` equality. -/
def sameSet (a b : List Material) : Bool := decide (a ⊆ b ∧ b ⊆ a)

/-- `canonical_reference`. -/
def canonicalReference (host : Host) (value : Option Tree) (index : Nat) : BuildKitResult String :=
  okOr ((value.bind Tree.asStr).filter isReference)
    (buildKitError ("BuildKit metadata[" ++ toString index ++
      "] has an unverifiable build reference: " ++ host.repr (value.getD .null))
      "invalid_buildkit_reference")

/-- `_normalize_uri`. -/
def normalizeUri (host : Host) (value : Tree) (index : Nat) (source : String) :
    BuildKitResult String := do
  let label := "BuildKit history[" ++ toString index ++ "] " ++ source
  let value ← okOr
    (value.asStr.filter fun value => strip value != "" && !value.toList.any isSpace)
    (buildKitError (label ++ " material URI is malformed") "unverifiable_buildkit_reference")
  let retained := (split value '&').filter fun part =>
    (stripPrefix (host.lower part) "platform=").isNone
  let normalized := String.intercalate "&" retained
  require (normalized != "")
    (buildKitError (label ++ " material URI is empty") "unverifiable_buildkit_reference")
  return normalized

/-- `_normalize_digest`. -/
def normalizeDigest (host : Host) (algorithm : String) (value : Tree) (index : Nat)
    (source : String) : BuildKitResult (String × String) := do
  let label := "BuildKit history[" ++ toString index ++ "] " ++ source ++ " material digest"
  require (isAlgorithm algorithm)
    (buildKitError (label ++ " algorithm is malformed") "unverifiable_buildkit_reference")
  let value ← okOr value.asStr
    (buildKitError (label ++ " is malformed") "unverifiable_buildkit_reference")
  let algorithm := host.lower algorithm
  require (algorithm == "sha256")
    (buildKitError (label ++ " algorithm is unsupported") "unverifiable_buildkit_reference")
  let digest ← match splitOnce value ':' with
    | none => pure value
    | some (valueAlgorithm, digest) => do
        require (host.lower valueAlgorithm == algorithm)
          (buildKitError (label ++ " algorithm mismatch") "buildkit_material_mismatch")
        pure digest
  require (isHex64 digest)
    (buildKitError (label ++ " is malformed") "unverifiable_buildkit_reference")
  return (algorithm, host.lower digest)

/-- A list that is not empty. -/
def someItems (value : Option Tree) : Option (List Tree) :=
  (value.bind asList).filter fun items => !items.isEmpty

/-- One round of the loop of `_metadata_materials`. -/
def metadataMaterial (host : Host) (index : Nat) (material : Tree) :
    BuildKitResult (List Material) := do
  let malformed := buildKitError ("BuildKit history[" ++ toString index ++
    "] metadata materials are malformed") "unverifiable_buildkit_reference"
  let material ← okOr (asMapping material) malformed
  let uri ← okOr (material.lookup "uri") malformed
  let digests ← okOr (((material.lookup "digest").bind asMapping).filter fun digests =>
    !digests.isEmpty) malformed
  let uri ← normalizeUri host uri index "metadata"
  digests.mapM fun digest => do
    return (uri, ← normalizeDigest host digest.1 digest.2 index "metadata")

/-- `_metadata_materials`. -/
def metadataMaterials (host : Host) (materials : Option Tree) (index : Nat) :
    BuildKitResult (List Material) := do
  let materials ← okOr (someItems materials)
    (buildKitError ("BuildKit history[" ++ toString index ++
      "] metadata has no verifiable materials") "unverifiable_buildkit_reference")
  return (← materials.mapM (metadataMaterial host index)).flatten

/-- One round of the loop of `_history_materials`. -/
def historyMaterial (host : Host) (index : Nat) (material : Tree) :
    BuildKitResult (List Material) := do
  let label := "BuildKit history[" ++ toString index ++ "] "
  let malformed := buildKitError (label ++ "materials are malformed")
    "unverifiable_buildkit_reference"
  let material ← okOr (asMapping material) malformed
  let uri ← okOr ((material.lookup "URI").bind Tree.asStr) malformed
  let digests ← okOr (someItems (material.lookup "Digests")) malformed
  let uri ← normalizeUri host (.string uri) index "history"
  digests.mapM fun digest => do
    let text ← okOr digest.asStr
      (buildKitError (label ++ "material digest is malformed") "unverifiable_buildkit_reference")
    let algorithm := ((splitOnce text ':').map Prod.fst).getD text
    return (uri, ← normalizeDigest host algorithm digest index "history")

/-- `_history_materials`. -/
def historyMaterials (host : Host) (materials : Option Tree) (index : Nat) :
    BuildKitResult (List Material) := do
  let materials ← okOr (someItems materials)
    (buildKitError ("BuildKit history[" ++ toString index ++ "] has no verifiable materials")
      "unverifiable_buildkit_reference")
  return (← materials.mapM (historyMaterial host index)).flatten

/-! ## Validation -/

/-- What `_invocation_identity` returns. -/
structure Invocation where
  configSource : Mapping
  parameters : Mapping
  environment : Mapping

/-- `value.get(key)`, if it is a mapping. -/
def member (value : Mapping) (key : String) : Option Mapping :=
  (value.lookup key).bind asMapping

/-- `[local["name"] for local in locals_] == ["context", "dockerfile"]`, of mappings with that key
only. -/
def areLocals (locals : Option (List Tree)) : Bool :=
  match locals with
  | some [.object context, .object dockerfile] =>
      hasKeys context ["name"] && hasKeys dockerfile ["name"] &&
        holds context "name" "context" && holds dockerfile "name" "dockerfile"
  | _ => false

/-- `_invocation_identity`. -/
def invocationIdentity (invocation : Mapping) (index : Nat) : BuildKitResult Invocation := do
  let label := "BuildKit metadata[" ++ toString index ++ "] "
  let notCanonical := buildKitError (label ++ "invocation identity is not canonical")
    "buildkit_invocation_mismatch"
  let sourceNotCanonical := buildKitError (label ++ "source identity is not canonical")
    "buildkit_invocation_mismatch"
  require (hasKeys invocation ["configSource", "parameters", "environment"]) notCanonical
  let configSource ← okOr (member invocation "configSource") notCanonical
  require (hasKeys configSource ["entryPoint"] &&
    holds configSource "entryPoint" expectedConfigEntryPoint) notCanonical
  let parameters ← okOr (member invocation "parameters") notCanonical
  require (hasKeys parameters ["frontend", "args", "locals"] &&
    holds parameters "frontend" expectedFrontend) notCanonical
  let environment ← okOr (member invocation "environment") notCanonical
  require (hasKeys environment ["platform"] && holds environment "platform" expectedPlatform)
    notCanonical
  let args ← okOr (member parameters "args") sourceNotCanonical
  require (hasKeys args ["build-arg:SOURCE_DATE_EPOCH", "cmdline", "no-cache", "source"] &&
    holds args "build-arg:SOURCE_DATE_EPOCH" sourceDateEpoch &&
    holds args "cmdline" expectedCmdline && holds args "no-cache" "" &&
    holds args "source" expectedSource &&
    areLocals ((parameters.lookup "locals").bind asList)) sourceNotCanonical
  return { configSource, parameters, environment }

/-- `_descriptor_platform`. -/
def descriptorPlatform (descriptor : Mapping) (index : Nat) : BuildKitResult Mapping := do
  let notCanonical := buildKitError ("BuildKit metadata[" ++ toString index ++
    "] output descriptor platform is not canonical") "buildkit_output_mismatch"
  let platform ← okOr (member descriptor "platform") notCanonical
  require (hasKeys platform ["architecture", "os"] && holds platform "architecture" "amd64" &&
    holds platform "os" "linux") notCanonical
  return platform

/-- A `Path`: `as_posix()` and `name`. -/
structure Path where
  posix : String
  name : String

/-- What comes after the marker, where it first occurs. -/
def afterMarker (marker : List Char) : List Char → Option (List Char)
  | [] => if marker.isEmpty then some [] else none
  | c :: cs =>
      if marker.isPrefixOf (c :: cs) then some ((c :: cs).drop marker.length)
      else afterMarker marker cs

/-- `_manifest_key`. -/
def manifestKey (path : Path) : String :=
  match afterMarker "/evidence/m2/".toList path.posix.toList with
  | some key => String.ofList key
  | none => (stripPrefix path.posix "evidence/m2/").getD path.name

/-- `_validate_manifest_binding`. -/
def validateManifestBinding (host : Host) (path : Path) (manifestFiles : Mapping) (label : String)
    (index : Nat) : BuildKitResult Unit := do
  let label := "BuildKit " ++ label ++ "[" ++ toString index ++ "] "
  let expected ← okOr ((manifestFiles.lookup (manifestKey path)).bind Tree.asStr)
    (buildKitError (label ++ "is not covered by the evidence manifest: " ++ manifestKey path)
      "unmanifested_buildkit_reference")
  let data ← (host.readBytes path.posix).mapError fun error =>
    buildKitError (label ++ "cannot be read: " ++ error) "unresolved_buildkit_reference"
  require (hexEncode (host.sha256 data).toList == expected)
    (buildKitError (label ++ "does not match its evidence manifest")
      "unmanifested_buildkit_reference")

/-- `any(...)` over the attachments. -/
def hasOutput (digest : String) : List Tree → BuildKitResult Bool
  | [] => .ok false
  | .object attachment :: attachments => do
      if holds attachment "Digest" digest then
        if ← inSet (attachment.lookup "Type") outputTypes then return true
        else hasOutput digest attachments
      else hasOutput digest attachments
  | _ :: attachments => hasOutput digest attachments

/-- `_validate_history`. -/
def validateHistory (host : Host) (history : Mapping) (digest canonicalRef : String)
    (invocation : Invocation) (materials : List Material) (index : Nat) :
    BuildKitResult (List Material) := do
  let label := "BuildKit history[" ++ toString index ++ "] "
  let bound ← inSet (history.lookup "Ref") [canonicalRef, lastComponent canonicalRef]
  require (bound && holds history "Name" expectedBuildName &&
    holds history "Context" expectedContext && holds history "Dockerfile" expectedDockerfile &&
    holds history "Status" "completed" &&
    ((history.lookup "VCSRevision").bind Tree.asStr).any fun revision => strip revision != "")
    (buildKitError (label ++ "reference is not bound to metadata") "buildkit_reference_mismatch")
  -- the checks of the metadata, once more
  require (holds invocation.parameters "frontend" expectedFrontend &&
    ((member invocation.parameters "args").any fun args =>
      holds args "source" expectedSource && holds args "cmdline" expectedCmdline) &&
    holds invocation.configSource "entryPoint" (lastComponent expectedDockerfile) &&
    holds history "Dockerfile" expectedDockerfile && holds history "Context" expectedContext)
    (buildKitError (label ++ "source and invocation identity does not match metadata")
      "buildkit_invocation_mismatch")
  require (history.lookup "Platform" ==
      (invocation.environment.lookup "platform").map fun platform => .array [platform])
    (buildKitError (label ++ "invocation platform does not match metadata")
      "buildkit_invocation_mismatch")
  let configMismatch := buildKitError
    (label ++ "invocation configuration does not match metadata") "buildkit_invocation_mismatch"
  let buildArg ← match (history.lookup "BuildArgs").bind asList with
    | some [.object buildArg] => pure buildArg
    | _ => .error configMismatch
  require (hasKeys buildArg ["Name", "Value"] && holds buildArg "Name" "SOURCE_DATE_EPOCH" &&
    holds buildArg "Value" sourceDateEpoch) configMismatch
  let config ← okOr (member history "Config") configMismatch
  require (hasKeys config ["ImageResolveMode", "NoCache", "SourceDateEpoch"] &&
    holds config "ImageResolveMode" "local" && config.lookup "NoCache" == some (.bool true) &&
    holds config "SourceDateEpoch" sourceDateEpoch) configMismatch
  let historyMaterials ← historyMaterials host (history.lookup "Materials") index
  require (sameSet materials historyMaterials)
    (buildKitError (label ++ "materials do not exactly match metadata")
      "buildkit_material_mismatch")
  let outputMismatch := buildKitError (label ++ "output identity does not match metadata")
    "buildkit_output_mismatch"
  let attachments ← okOr ((history.lookup "Attachments").bind asList) outputMismatch
  require (← hasOutput digest attachments) outputMismatch
  return historyMaterials

/-- The normalized identity of a record. -/
structure BuildKitRecord where
  digest : String
  canonicalRef : String
  materials : List Material
deriving DecidableEq

/-- `isinstance(size, int) and size > 0`, where a `bool` is an `int`. -/
def isPositiveInt : Option Tree → Bool
  | some (.bool b) => b
  | some (.number (.posInt n)) => n != 0
  | some (.number (.negInt n)) => 0 < n
  | _ => false

/-- The arguments that say where the documents are retained. -/
structure Retained where
  metadataPath : Option Path
  historyPath : Option Path
  manifestFiles : Option Mapping

/-- The part of `validate_buildkit_record` about the manifest. -/
def validateRetained (host : Host) (retained : Retained) (index : Nat) : BuildKitResult Unit := do
  require (retained.metadataPath.isNone == retained.historyPath.isNone &&
      !(retained.metadataPath.isSome && retained.manifestFiles.isNone))
    (buildKitError ("BuildKit record[" ++ toString index ++ "] manifest coverage is incomplete")
      "unmanifested_buildkit_reference")
  match retained.metadataPath, retained.historyPath with
  | some metadataPath, some historyPath => do
      let manifestFiles := retained.manifestFiles.getD []
      validateManifestBinding host metadataPath manifestFiles "metadata" index
      validateManifestBinding host historyPath manifestFiles "history" index
  | _, _ => return ()

/-- The platform of the descriptor is that of the invocation, and of the history. -/
def isPlatform (platform environment history : Mapping) : Bool :=
  match ((environment.lookup "platform").bind Tree.asStr).bind fun text => splitOnce text '/' with
  | some (os, architecture) =>
      hasKeys platform ["architecture", "os"] && holds platform "architecture" architecture &&
        holds platform "os" os &&
        history.lookup "Platform" ==
          (environment.lookup "platform").map fun platform => .array [platform]
  | none => false

/-- `validate_buildkit_record`. -/
def validateBuildkitRecord (host : Host) (metadata history : Tree) (expectedDigest : String)
    (index : Nat) (retained : Retained) : BuildKitResult BuildKitRecord := do
  let notObjects := buildKitError ("BuildKit record[" ++ toString index ++
    "] must contain metadata and history objects") "invalid_buildkit_provenance"
  let metadata ← okOr (asMapping metadata) notObjects
  let history ← okOr (asMapping history) notObjects
  require (isPrefixedDigest expectedDigest)
    (buildKitError ("BuildKit expected digest[" ++ toString index ++ "] is malformed")
      "invalid_buildkit_provenance")
  validateRetained host retained index
  let label := "BuildKit metadata[" ++ toString index ++ "] "
  let digest ← okOr (((metadata.lookup "containerimage.digest").bind Tree.asStr).filter
      fun digest => isPrefixedDigest digest && digest == expectedDigest)
    (buildKitError (label ++ "has an invalid or unexpected output digest: " ++
      host.repr ((metadata.lookup "containerimage.digest").getD .null))
      "invalid_buildkit_provenance")
  let canonicalRef ← canonicalReference host (metadata.lookup "buildx.build.ref") index
  let noInvocation := buildKitError (label ++ "has no provenance invocation")
    "invalid_buildkit_provenance"
  let provenance ← okOr (member metadata "buildx.build.provenance") noInvocation
  let invocation ← okOr (member provenance "invocation") noInvocation
  let invocation ← invocationIdentity invocation index
  let notBound := buildKitError (label ++ "output descriptor is not bound to the digest")
    "buildkit_output_mismatch"
  let descriptor ← okOr (member metadata "containerimage.descriptor") notBound
  require (holds descriptor "digest" digest) notBound
  require (← inSet (descriptor.lookup "mediaType") outputTypes) notBound
  require (isPositiveInt (descriptor.lookup "size")) notBound
  let platform ← descriptorPlatform descriptor index
  require (isPlatform platform invocation.environment history)
    (buildKitError (label ++ "output platform is not bound to invocation history")
      "buildkit_output_mismatch")
  let materials ← metadataMaterials host (provenance.lookup "materials") index
  let _ ← validateHistory host history digest canonicalRef invocation materials index
  return { digest, canonicalRef, materials }

/-- `validate_independent_records`; `repr` prints the list of references. -/
def validateIndependentRecords (repr : List String → String) (records : List BuildKitRecord)
    (expectedCount : Nat) : BuildKitResult Unit := do
  require (decide (expectedCount ≤ records.length))
    (buildKitError ("at least " ++ toString expectedCount ++
      " independent BuildKit records are required") "insufficient_buildkit_records")
  let references := records.map BuildKitRecord.canonicalRef
  require (decide references.Nodup)
    (buildKitError ("BuildKit build references are not distinct: " ++ repr references)
      "reused_buildkit_reference")

/-! ## Independence -/

/-- The reference of a metadata document. -/
def buildRef (metadata : Tree) : Option String :=
  ((asMapping metadata).bind fun metadata => metadata.lookup "buildx.build.ref").bind Tree.asStr

/-- The identifier of a history, under which it is looked up. -/
def historyId (history : Tree) : Option String :=
  (((asMapping history).bind fun history => history.lookup "Ref").bind Tree.asStr).map
    lastComponent

@[simp] theorem lastComponent_lastComponent (value : String) :
    lastComponent (lastComponent value) = lastComponent value := by
  simp only [lastComponent, String.toList_ofList, List.reverse_reverse, List.takeWhile_idem]

theorem inSet_eq_true {value : Option Tree} {items : List String} :
    inSet value items = .ok true ↔ ∃ text ∈ items, value = some (.string text) := by
  cases value with
  | none => simp [inSet]
  | some value => cases value <;> simp [inSet]

/-- A history that passes names the build. -/
theorem validateHistory_spec {host : Host} {history : Mapping} {digest canonicalRef : String}
    {invocation : Invocation} {materials materials' : List Material} {index : Nat}
    (h : validateHistory host history digest canonicalRef invocation materials index =
      .ok materials') :
    historyId (.object history) = some (lastComponent canonicalRef) := by
  simp only [validateHistory, bind_eq_ok, require_eq_ok, Bool.and_eq_true] at h
  obtain ⟨bound, hset, -, hbound, -⟩ := h
  rw [hbound.1.1.1.1.1] at hset
  obtain ⟨text, htext, href⟩ := inSet_eq_true.mp hset
  rw [historyId]
  show ((history.lookup "Ref").bind Tree.asStr).map lastComponent = _
  rw [href]
  show some (lastComponent text) = _
  simp only [List.mem_cons, List.not_mem_nil, or_false] at htext
  rcases htext with rfl | rfl
  · rfl
  · rw [lastComponent_lastComponent]

/-- **Binding**: an accepted record has the reference of its metadata, and its history the id. -/
theorem validateBuildkitRecord_spec {host : Host} {metadata history : Tree}
    {expectedDigest : String} {index : Nat} {retained : Retained} {record : BuildKitRecord}
    (h : validateBuildkitRecord host metadata history expectedDigest index retained = .ok record) :
    buildRef metadata = some record.canonicalRef ∧
      historyId history = some (lastComponent record.canonicalRef) := by
  simp only [validateBuildkitRecord, bind_eq_ok, okOr_eq_ok] at h
  obtain ⟨metadata', hmetadata, history', hhistory, -, -, -, -, digest, -, canonicalRef, href,
    provenance, -, -, -, invocation, -, descriptor, -, -, -, -, -, -, -, -, -, platform, -, -, -,
    materials, -, _, hvalid, hrecord⟩ := h
  cases hrecord
  rw [asMapping_eq_some] at hmetadata hhistory
  subst hmetadata hhistory
  rw [canonicalReference, okOr_eq_ok, Option.filter_eq_some_iff] at href
  exact ⟨href.1, validateHistory_spec hvalid⟩

/-- A metadata document and a history. -/
structure Pair where
  metadata : Tree
  history : Tree

/-- The pair is accepted and normalized, whatever it is checked against. -/
def Accepted (host : Host) (pair : Pair) (record : BuildKitRecord) : Prop :=
  ∃ expectedDigest index retained,
    validateBuildkitRecord host pair.metadata pair.history expectedDigest index retained =
      .ok record

/-- Two references that differ in the builder and the node only. -/
def DiffersInPrefix (ref ref' : Option String) : Prop :=
  ref ≠ ref' ∧ ref.map lastComponent = ref'.map lastComponent

/-- Independent references are distinct. -/
theorem validateIndependentRecords_spec {repr : List String → String}
    {records : List BuildKitRecord} {expectedCount : Nat}
    (h : validateIndependentRecords repr records expectedCount = .ok ()) :
    records.Pairwise fun record record' => record.canonicalRef ≠ record'.canonicalRef := by
  simp only [validateIndependentRecords, bind_eq_ok, require_eq_ok, decide_eq_true_eq] at h
  obtain ⟨-, -, hdistinct⟩ := h
  exact List.pairwise_map.mp hdistinct

/-- Two accepted pairs of distinct references. -/
theorem historyId_ne_iff {host : Host} {pair pair' : Pair} {record record' : BuildKitRecord}
    (h : Accepted host pair record) (h' : Accepted host pair' record')
    (hne : record.canonicalRef ≠ record'.canonicalRef) :
    historyId pair.history ≠ historyId pair'.history ↔
      ¬ DiffersInPrefix (buildRef pair.metadata) (buildRef pair'.metadata) := by
  obtain ⟨_, _, _, hvalid⟩ := h
  obtain ⟨_, _, _, hvalid'⟩ := h'
  obtain ⟨href, hid⟩ := validateBuildkitRecord_spec hvalid
  obtain ⟨href', hid'⟩ := validateBuildkitRecord_spec hvalid'
  have hrefs : some record.canonicalRef ≠ some record'.canonicalRef := fun hsame =>
    hne (Option.some.inj hsame)
  rw [hid, hid', href, href', DiffersInPrefix, Option.map_some, Option.map_some]
  constructor
  · rintro hids ⟨-, hsame⟩
    exact hids hsame
  · intro hdiffers hsame
    exact hdiffers ⟨hrefs, hsame⟩

/-- What two relations say of a list is the same where its images are pairwise apart. -/
theorem pairwise_congr_of_forall₂ {α β : Type} {R : α → β → Prop} {U : β → β → Prop}
    {S T : α → α → Prop}
    (hiff : ∀ a a' b b', R a b → R a' b' → U b b' → (S a a' ↔ T a a')) {as : List α}
    {bs : List β} (h : List.Forall₂ R as bs) (hapart : bs.Pairwise U) :
    as.Pairwise S ↔ as.Pairwise T := by
  have hhead : ∀ {a b as bs}, R a b → List.Forall₂ R as bs → (∀ b' ∈ bs, U b b') →
      ((∀ a' ∈ as, S a a') ↔ ∀ a' ∈ as, T a a') := by
    intro a b as bs hab hrest hapart
    induction hrest with
    | nil => simp
    | cons hab' _ ih =>
      obtain ⟨hb', hbs⟩ := List.forall_mem_cons.mp hapart
      rw [List.forall_mem_cons, List.forall_mem_cons, hiff _ _ _ _ hab hab' hb', ih hbs]
  induction h with
  | nil => simp
  | cons hab hrest ih =>
    obtain ⟨hb, hbs⟩ := List.pairwise_cons.mp hapart
    rw [List.pairwise_cons, List.pairwise_cons]
    exact and_congr (hhead hab hrest hb) (ih hbs)

/-- Records that pass are of different builds exactly when no two of their references differ in
the builder and the node only. -/
theorem histories_distinct_iff {host : Host} {repr : List String → String} {pairs : List Pair}
    {records : List BuildKitRecord} {expectedCount : Nat}
    (haccepted : List.Forall₂ (Accepted host) pairs records)
    (hindependent : validateIndependentRecords repr records expectedCount = .ok ()) :
    (pairs.map fun pair => historyId pair.history).Nodup ↔
      pairs.Pairwise fun pair pair' =>
        ¬ DiffersInPrefix (buildRef pair.metadata) (buildRef pair'.metadata) := by
  rw [List.Nodup, List.pairwise_map]
  apply pairwise_congr_of_forall₂ _ haccepted (validateIndependentRecords_spec hindependent)
  intro pair pair' record record' h h' hne
  exact historyId_ne_iff h h' hne

/-- A digest of the pinned build. -/
def pinnedDigest : String :=
  "sha256:57a2ecdc9257846ca69dce38c53a464b68e9a08575fb45d8d18aed5b6b28f366"

def pinnedInvocation : Mapping :=
  [("configSource", .object [("entryPoint", .string "Dockerfile")]),
    ("environment", .object [("platform", .string "linux/amd64")]),
    ("parameters", .object [
      ("args", .object [
        ("build-arg:SOURCE_DATE_EPOCH", .string "1700000000"),
        ("cmdline", .string expectedSource),
        ("no-cache", .string ""),
        ("source", .string expectedSource)]),
      ("frontend", .string "gateway.v0"),
      ("locals", .array [.object [("name", .string "context")],
        .object [("name", .string "dockerfile")]])])]

def pinnedMaterials : Tree :=
  .array [.object [
    ("digest", .object [("sha256",
      .string "a57df69d0ea827fb7266491f2813635de6f17269be881f696fbfdf2d83dda33e")]),
    ("uri", .string "pkg:docker/docker/dockerfile@1.7")]]

/-- A metadata document of the pinned build under a reference. -/
def pinnedMetadata (ref : String) : Mapping :=
  [("buildx.build.provenance", .object [
      ("invocation", .object pinnedInvocation),
      ("materials", pinnedMaterials)]),
    ("buildx.build.ref", .string ref),
    ("containerimage.descriptor", .object [
      ("digest", .string pinnedDigest),
      ("mediaType", .string "application/vnd.oci.image.manifest.v1+json"),
      ("platform", .object [("architecture", .string "amd64"), ("os", .string "linux")]),
      ("size", .number (.posInt 3714))]),
    ("containerimage.digest", .string pinnedDigest)]

def pinnedHistoryMaterials : Tree :=
  .array [.object [
    ("Digests", .array [
      .string "sha256:a57df69d0ea827fb7266491f2813635de6f17269be881f696fbfdf2d83dda33e"]),
    ("URI", .string "pkg:docker/docker/dockerfile@1.7&platform=linux%2Famd64")]]

/-- A history of the pinned build with an id. -/
def pinnedHistory (id : String) : Mapping :=
  [("Attachments", .array [.object [
      ("Digest", .string pinnedDigest),
      ("Type", .string "application/vnd.oci.image.manifest.v1+json")]]),
    ("BuildArgs", .array [.object [("Name", .string "SOURCE_DATE_EPOCH"),
      ("Value", .string "1700000000")]]),
    ("Config", .object [("ImageResolveMode", .string "local"), ("NoCache", .bool true),
      ("SourceDateEpoch", .string "1700000000")]),
    ("Context", .string "basecrawl"),
    ("Dockerfile", .string "image/Dockerfile"),
    ("Materials", pinnedHistoryMaterials),
    ("Name", .string "basecrawl/image"),
    ("Platform", .array [.string "linux/amd64"]),
    ("Ref", .string id),
    ("Status", .string "completed"),
    ("VCSRevision", .string "c4e91c5c678e056da88913acfc8638fb395159d2")]

/-- A host that reads no file. -/
def plainHost : Host where
  lower := asciiLower
  repr _ := ""
  readBytes path := .error path
  sha256 _ := Vector.replicate 32 0

/-- The one material of the pinned build. -/
def pinnedMaterial : Material :=
  ("pkg:docker/docker/dockerfile@1.7", "sha256",
    "a57df69d0ea827fb7266491f2813635de6f17269be881f696fbfdf2d83dda33e")

theorem eq_ok_of_toOption {ε α : Type} {x : Except ε α} {a : α} (h : x.toOption = some a) :
    x = .ok a := by
  cases x with
  | error e => cases h
  | ok b =>
    cases h
    rfl

theorem metadataMaterials_pinned :
    metadataMaterials plainHost (some pinnedMaterials) 0 = .ok [pinnedMaterial] :=
  eq_ok_of_toOption (by decide)

theorem historyMaterials_pinned :
    historyMaterials plainHost (some pinnedHistoryMaterials) 0 = .ok [pinnedMaterial] :=
  eq_ok_of_toOption (by decide)

/-- The identity of the pinned invocation. -/
def pinnedIdentity : Invocation where
  configSource := (member pinnedInvocation "configSource").getD []
  parameters := (member pinnedInvocation "parameters").getD []
  environment := (member pinnedInvocation "environment").getD []

theorem validateHistory_pinned {ref id : String} (hid : id ∈ [ref, lastComponent ref]) :
    validateHistory plainHost (pinnedHistory id) pinnedDigest ref pinnedIdentity [pinnedMaterial]
      0 = .ok [pinnedMaterial] := by
  have href : inSet ((pinnedHistory id).lookup "Ref") [ref, lastComponent ref] = .ok true :=
    inSet_eq_true.mpr ⟨id, hid, rfl⟩
  have hmaterials : historyMaterials plainHost ((pinnedHistory id).lookup "Materials") 0 =
      .ok [pinnedMaterial] := historyMaterials_pinned
  rw [validateHistory, href, hmaterials]
  rfl

theorem isPrefixedDigest_pinned : isPrefixedDigest pinnedDigest = true := by decide

/-- The pinned build is accepted under every reference, with or without its prefix in the
history. -/
theorem accepted_pinned {ref id : String} (href : isReference ref = true)
    (hid : id ∈ [ref, lastComponent ref]) :
    Accepted plainHost ⟨.object (pinnedMetadata ref), .object (pinnedHistory id)⟩
      ⟨pinnedDigest, ref, [pinnedMaterial]⟩ := by
  refine ⟨pinnedDigest, 0, ⟨none, none, none⟩, ?_⟩
  have hdigest : ((((pinnedMetadata ref).lookup "containerimage.digest").bind Tree.asStr).filter
      fun digest => isPrefixedDigest digest && digest == pinnedDigest) = some pinnedDigest := by
    show (if (isPrefixedDigest pinnedDigest && pinnedDigest == pinnedDigest) = true
      then some pinnedDigest else none) = some pinnedDigest
    rw [isPrefixedDigest_pinned, beq_self_eq_true]
    rfl
  have hcanonical : canonicalReference plainHost ((pinnedMetadata ref).lookup "buildx.build.ref")
      0 = .ok ref := by
    rw [canonicalReference, okOr_eq_ok, Option.filter_eq_some_iff]
    exact ⟨rfl, href⟩
  simp only [validateBuildkitRecord, asMapping, okOr_some, ok_bind, isPrefixedDigest_pinned,
    require_true, hdigest, hcanonical]
  show (do
    let materials ← metadataMaterials plainHost (some pinnedMaterials) 0
    let _ ← validateHistory plainHost (pinnedHistory id) pinnedDigest ref pinnedIdentity materials 0
    return (⟨pinnedDigest, ref, materials⟩ : BuildKitRecord)) = _
  rw [metadataMaterials_pinned, ok_bind, validateHistory_pinned hid]
  rfl

/-- The pair of a build whose history has the bare id. -/
def pinnedPair (ref : String) : Pair :=
  ⟨.object (pinnedMetadata ref), .object (pinnedHistory (lastComponent ref))⟩

def pinnedRecord (ref : String) : BuildKitRecord := ⟨pinnedDigest, ref, [pinnedMaterial]⟩

/-- Two pairs of the pinned build. -/
theorem accepted_pinnedPairs {ref ref' : String} (href : isReference ref = true)
    (href' : isReference ref' = true) :
    List.Forall₂ (Accepted plainHost) [pinnedPair ref, pinnedPair ref']
      [pinnedRecord ref, pinnedRecord ref'] := by
  have hid : ∀ ref, lastComponent ref ∈ [ref, lastComponent ref] := fun ref =>
    List.mem_cons_of_mem ref List.mem_cons_self
  exact .cons (accepted_pinned href (hid ref)) (.cons (accepted_pinned href' (hid ref')) .nil)

theorem independent_pinnedRecords {ref ref' : String} (hne : ref ≠ ref') :
    validateIndependentRecords (fun _ => "") [pinnedRecord ref, pinnedRecord ref'] 2 = .ok () := by
  have hnodup : [ref, ref'].Nodup := by simp [hne]
  rw [validateIndependentRecords]
  show require (decide ([ref, ref'].Nodup)) _ = _
  rw [decide_eq_true hnodup, require_true]

/-- Two builds of one builder. -/
theorem histories_distinct_two_builds :
    ([pinnedPair "default/default/aq0sgf81zazlsf122lupacz8h",
      pinnedPair "default/default/2cdtugm4vbavu7y8tlmikkbc3"].map
        fun pair => historyId pair.history).Nodup := by
  have hids : lastComponent "default/default/aq0sgf81zazlsf122lupacz8h" ≠
      lastComponent "default/default/2cdtugm4vbavu7y8tlmikkbc3" := by decide
  refine (histories_distinct_iff (accepted_pinnedPairs (by decide) (by decide))
    (independent_pinnedRecords (by decide))).mpr (List.pairwise_pair.mpr ?_)
  rintro ⟨-, hsame⟩
  exact hids (Option.some.inj hsame)

/-- One history behind two accepted records of distinct references. -/
theorem one_history_two_records :
    ∃ records, List.Forall₂ (Accepted plainHost)
        [pinnedPair "default/default/aq0sgf81zazlsf122lupacz8h",
          pinnedPair "other/node/aq0sgf81zazlsf122lupacz8h"] records ∧
      validateIndependentRecords (fun _ => "") records 2 = .ok () ∧
      ¬ ([pinnedPair "default/default/aq0sgf81zazlsf122lupacz8h",
        pinnedPair "other/node/aq0sgf81zazlsf122lupacz8h"].map
          fun pair => historyId pair.history).Nodup := by
  refine ⟨_, accepted_pinnedPairs (by decide) (by decide),
    independent_pinnedRecords (by decide), ?_⟩
  have hid : lastComponent "default/default/aq0sgf81zazlsf122lupacz8h" =
      lastComponent "other/node/aq0sgf81zazlsf122lupacz8h" := by decide
  intro hnodup
  refine List.pairwise_pair.mp (List.pairwise_map.mp hnodup) ?_
  exact congrArg (fun id => some (lastComponent id)) hid

end Basecrawl.Image.BuildKit
