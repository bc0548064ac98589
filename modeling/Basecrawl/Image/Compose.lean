/-
  The hash of an app-compose.

  1. **Program** — `canonicalJsonValue` drops the members that are null and sorts the others, at
     every depth; `normalizeAppCompose` prints what is left.
  2. **What is meant** — `dropNulls` only drops.  The canonical value is what it leaves, sorted
     (`canonicalJsonValue_eq`), and is canonical already (`canonicalJsonValue_canonical`).
  3. **The normal form (`normalizeAppCompose_identifies`)** — two mappings have the same one exactly
     when dropping leaves the same of both, and a normal form is its own.
-/
import Basecrawl.Image.Allowlist
import Basecrawl.Image.Materials
import Basecrawl.Lib.PyDumps

namespace Basecrawl.Image.Compose

open Text Outcome Panic PyStr PyValue PyDumps

open Materials (Hashlib sha256Hex)

variable {N : Type}

/-! ## Program -/

mutual

/-- `_canonical_json_value`. Sorting the members first comes to the same
    (`canonicalMembers_sorted`). -/
def canonicalJsonValue : Value Str N → Value Str N
  | .object members => .object (sortByKey (canonicalMembers members))
  | .array items => .array (canonicalItems items)
  | value => value

def canonicalItems : List (Value Str N) → List (Value Str N)
  | [] => []
  | item :: items => canonicalJsonValue item :: canonicalItems items

def canonicalMembers : List (Str × Value Str N) → List (Str × Value Str N)
  | [] => []
  | (key, item) :: members =>
      if item.isNull then canonicalMembers members
      else (key, canonicalJsonValue item) :: canonicalMembers members

end

/-- What `json.loads` returns: its objects are `dict`s. -/
structure Document (N : Type) where
  value : Value Str N
  distinct : value.Distinct

/-- Python's `json`: how it writes numbers, and its reader, which reports an error or ends in
    another exception. A document with a `NaN`, which `dumps` would refuse, counts among these. -/
structure PyJson (N : Type) where
  numbers : NumberText N
  loads : Str → Except (Stop String) (Document N)

/-- Parsing inverts printing. -/
def PyJson.ReadsBack (json : PyJson N) : Prop :=
  ∀ document : Document N, (json.loads (dumps json.numbers document.value)).map Document.value =
    .ok document.value.sortKeys

inductive AppCompose (N : Type) where
  | mapping (compose : Dict Str N)
  | text (compose : Str)

/-- `normalize_app_compose`. -/
def normalizeAppCompose (json : PyJson N) : AppCompose N → AllowlistResult Str
  | .mapping compose => .ok (dumps json.numbers (canonicalJsonValue (.object compose.members)))
  | .text compose => do
      let document ← (json.loads compose).mapError fun
        | .panic => .panic
        | .err exc => allowlistError ("app-compose is not JSON: " ++ exc)
      .ok (dumps json.numbers (canonicalJsonValue document.value))

/-- What `phala_app_compose_hash` takes: a compose, or the path of a file with what reading it
    gives. -/
inductive ComposeSource (N : Type) where
  | compose (compose : AppCompose N)
  | path (path : String) (contents : Except String Str)

def ComposeSource.read : ComposeSource N → AllowlistResult (AppCompose N)
  | .compose given => .ok given
  | .path file contents => (contents.map AppCompose.text).mapError fun exc =>
      allowlistError ("cannot read app-compose " ++ file ++ ": " ++ exc)

/-- `phala_app_compose_hash`; a lone surrogate has no UTF-8. -/
def phalaAppComposeHash (json : PyJson N) (hashlib : Hashlib) (source : ComposeSource N) :
    AllowlistResult String := do
  let compose ← source.read
  let normal ← normalizeAppCompose json compose
  let bytes ← okOr (encode normal) .panic
  .ok (sha256Hex hashlib bytes)

/-! ## What is meant -/

mutual

/-- A value without the members that are null, at every depth. -/
def dropNulls : Value Str N → Value Str N
  | .object members => .object (dropNullMembers members)
  | .array items => .array (dropNullItems items)
  | value => value

def dropNullItems : List (Value Str N) → List (Value Str N)
  | [] => []
  | item :: items => dropNulls item :: dropNullItems items

def dropNullMembers : List (Str × Value Str N) → List (Str × Value Str N)
  | [] => []
  | (_, .null) :: members => dropNullMembers members
  | (key, value) :: members => (key, dropNulls value) :: dropNullMembers members

end

mutual

/-- **The canonical value** is what dropping leaves, sorted. -/
theorem canonicalJsonValue_eq (value : Value Str N) :
    canonicalJsonValue value = (dropNulls value).sortKeys := by
  cases value with
  | object members =>
    rw [canonicalJsonValue, dropNulls, Value.sortKeys, canonicalMembers_eq members]
  | array items => rw [canonicalJsonValue, dropNulls, Value.sortKeys, canonicalItems_eq items]
  | _ => rfl

theorem canonicalItems_eq (items : List (Value Str N)) :
    canonicalItems items = sortItems (dropNullItems items) := by
  cases items with
  | nil => rfl
  | cons item items =>
    rw [canonicalItems, dropNullItems, sortItems, canonicalJsonValue_eq item,
      canonicalItems_eq items]

theorem canonicalMembers_eq (members : List (Str × Value Str N)) :
    canonicalMembers members = sortMembers (dropNullMembers members) := by
  cases members with
  | nil => rfl
  | cons member members =>
    obtain ⟨key, value⟩ := member
    have hrest := canonicalMembers_eq members
    have hvalue := canonicalJsonValue_eq value
    cases value with
    | null => exact hrest
    | _ =>
      refine (if_neg Bool.false_ne_true).trans ?_
      rw [hvalue, hrest]
      rfl

end

/-! ## Canonical values -/

theorem canonicalMembers_keys (members : List (Str × Value Str N)) :
    ((canonicalMembers members).map Prod.fst).Sublist (members.map Prod.fst) := by
  induction members with
  | nil => exact .slnil
  | cons member members ih =>
    obtain ⟨key, value⟩ := member
    rw [canonicalMembers]
    split
    · exact ih.cons _
    · exact ih.cons_cons _

theorem dropNullMembers_keys (members : List (Str × Value Str N)) :
    ((dropNullMembers members).map Prod.fst).Sublist (members.map Prod.fst) := by
  induction members with
  | nil => exact .slnil
  | cons member members ih =>
    obtain ⟨key, value⟩ := member
    cases value with
    | null => exact ih.cons _
    | _ => exact ih.cons_cons _

mutual

theorem distinct_dropNulls {value : Value Str N} (h : value.Distinct) :
    (dropNulls value).Distinct := by
  cases value with
  | object members =>
    exact ⟨(dropNullMembers_keys members).nodup h.1, distinctMembers_dropNulls h.2⟩
  | array items => exact distinctItems_dropNulls h
  | _ => trivial

theorem distinctItems_dropNulls {items : List (Value Str N)} (h : DistinctItems items) :
    DistinctItems (dropNullItems items) := by
  cases items with
  | nil => trivial
  | cons item items => exact ⟨distinct_dropNulls h.1, distinctItems_dropNulls h.2⟩

theorem distinctMembers_dropNulls {members : List (Str × Value Str N)}
    (h : DistinctMembers members) : DistinctMembers (dropNullMembers members) := by
  cases members with
  | nil => trivial
  | cons member members =>
    obtain ⟨key, value⟩ := member
    have hvalue := distinct_dropNulls h.1
    have hrest := distinctMembers_dropNulls h.2
    cases value with
    | null => exact hrest
    | _ => exact ⟨hvalue, hrest⟩

end

theorem distinct_canonical {value : Value Str N} (h : value.Distinct) :
    (canonicalJsonValue value).Distinct := by
  rw [canonicalJsonValue_eq]
  exact distinct_sortKeys (distinct_dropNulls h)

/-- Members that are canonical and not null stay. -/
theorem canonicalMembers_of_canonical {members : List (Str × Value Str N)}
    (h : ∀ member ∈ members, member.2.isNull = false ∧ canonicalJsonValue member.2 = member.2) :
    canonicalMembers members = members := by
  induction members with
  | nil => rfl
  | cons member members ih =>
    obtain ⟨⟨hnull, hvalue⟩, hrest⟩ := List.forall_mem_cons.mp h
    obtain ⟨key, value⟩ := member
    rw [canonicalMembers, hnull, if_neg Bool.false_ne_true, ih hrest]
    exact congrArg (fun v => (key, v) :: members) hvalue

theorem isNull_canonical (value : Value Str N) :
    (canonicalJsonValue value).isNull = value.isNull := by
  cases value with
  | _ => rfl

mutual

/-- **A canonical value is its own.** -/
theorem canonicalJsonValue_canonical (value : Value Str N) :
    canonicalJsonValue (canonicalJsonValue value) = canonicalJsonValue value := by
  cases value with
  | object members =>
    have hmembers : canonicalMembers (sortByKey (canonicalMembers members)) =
        sortByKey (canonicalMembers members) := by
      refine canonicalMembers_of_canonical fun member hmem => ?_
      exact canonicalMembers_canonical members member ((sortByKey_perm _).mem_iff.mp hmem)
    rw [canonicalJsonValue, canonicalJsonValue, hmembers, sortByKey_sortByKey]
  | array items => rw [canonicalJsonValue, canonicalJsonValue, canonicalItems_canonical items]
  | _ => rfl

theorem canonicalItems_canonical (items : List (Value Str N)) :
    canonicalItems (canonicalItems items) = canonicalItems items := by
  cases items with
  | nil => rfl
  | cons item items =>
    rw [canonicalItems, canonicalItems, canonicalJsonValue_canonical item,
      canonicalItems_canonical items]

theorem canonicalMembers_canonical (members : List (Str × Value Str N)) :
    ∀ member ∈ canonicalMembers members,
      member.2.isNull = false ∧ canonicalJsonValue member.2 = member.2 := by
  cases members with
  | nil => exact List.forall_mem_nil _
  | cons member members =>
    obtain ⟨key, value⟩ := member
    have hrest := canonicalMembers_canonical members
    rw [canonicalMembers]
    split
    · exact hrest
    · next hnull =>
      rw [List.forall_mem_cons]
      refine ⟨⟨?_, canonicalJsonValue_canonical value⟩, hrest⟩
      rw [isNull_canonical]
      exact Bool.eq_false_iff.mpr hnull

end

theorem canonicalMembers_filterMap (members : List (Str × Value Str N)) :
    canonicalMembers members = members.filterMap fun member =>
      if member.2.isNull then none else some (member.1, canonicalJsonValue member.2) := by
  induction members with
  | nil => rfl
  | cons member members ih =>
    obtain ⟨key, value⟩ := member
    rw [canonicalMembers, List.filterMap_cons, ih]
    cases hnull : value.isNull with
    | true => rfl
    | false => rfl

/-- The order of the source: the members are sorted, then dropped and made canonical. -/
theorem canonicalMembers_sorted {members : List (Str × Value Str N)}
    (h : (members.map Prod.fst).Nodup) :
    canonicalMembers (sortByKey members) = sortByKey (canonicalMembers members) := by
  have hperm : (canonicalMembers (sortByKey members)).Perm (canonicalMembers members) := by
    rw [canonicalMembers_filterMap, canonicalMembers_filterMap]
    exact (sortByKey_perm members).filterMap _
  have hsorted : (canonicalMembers (sortByKey members)).Pairwise fun a b => a.1 ≤ b.1 := by
    have hkeys := List.pairwise_map.mpr (sortByKey_le members)
    exact List.pairwise_map.mp (hkeys.sublist (canonicalMembers_keys (sortByKey members)))
  have hnodup : ((canonicalMembers (sortByKey members)).map Prod.fst).Nodup :=
    (canonicalMembers_keys _).nodup (((sortByKey_perm members).map Prod.fst).nodup_iff.mpr h)
  rw [← (sortByKey_eq_iff hnodup).mpr hperm, sortByKey_of_le hsorted]

/-- Printing sorts nothing in a canonical value. -/
theorem sortKeys_canonical (value : Value Str N) :
    (canonicalJsonValue value).sortKeys = canonicalJsonValue value := by
  rw [canonicalJsonValue_eq, sortKeys_sortKeys]

/-! ## The evidence of a deployment -/

/-- `{key: value for key, value in compose_file.items() if value is not None}`. -/
def presentMembers (members : List (Str × Value Str N)) : List (Str × Value Str N) :=
  members.filter fun member => !member.2.isNull

theorem distinct_present (compose : Dict Str N) :
    (Value.object (presentMembers compose.members)).Distinct := by
  have hsub : (presentMembers compose.members).Sublist compose.members := List.filter_sublist
  refine ⟨(hsub.map Prod.fst).nodup compose.distinct.1,
    distinctMembers_iff.mpr fun member hmem => ?_⟩
  exact distinctMembers_iff.mp compose.distinct.2 member (hsub.subset hmem)

/-- The hash of `_validate_live_evidence`: null members of the compose file are dropped before. -/
def composeFileHash (json : PyJson N) (hashlib : Hashlib) (composeFile : Dict Str N) :
    AllowlistResult String :=
  phalaAppComposeHash json hashlib
    (.compose (.mapping ⟨presentMembers composeFile.members, distinct_present composeFile⟩))

theorem canonicalMembers_present (members : List (Str × Value Str N)) :
    canonicalMembers (presentMembers members) = canonicalMembers members := by
  rw [canonicalMembers_filterMap, canonicalMembers_filterMap, presentMembers, List.filterMap_filter]
  refine List.filterMap_congr fun member _ => ?_
  cases member.2.isNull with
  | true => rfl
  | false => rfl

/-- **The two paths agree**: dropping null members first changes no hash. -/
theorem composeFileHash_eq (json : PyJson N) (hashlib : Hashlib) (composeFile : Dict Str N) :
    composeFileHash json hashlib composeFile =
      phalaAppComposeHash json hashlib (.compose (.mapping composeFile)) := by
  have hnormal : normalizeAppCompose json
      (.mapping ⟨presentMembers composeFile.members, distinct_present composeFile⟩) =
        normalizeAppCompose json (.mapping composeFile) := by
    rw [normalizeAppCompose, normalizeAppCompose, canonicalJsonValue, canonicalJsonValue,
      canonicalMembers_present]
  rw [composeFileHash, phalaAppComposeHash, phalaAppComposeHash, ComposeSource.read,
    ComposeSource.read, ok_bind, ok_bind, hnormal]

/-! ## The normal form -/

/-- The canonical values of two mappings are equal exactly when dropping leaves the same of both. -/
theorem canonical_eq_iff {value other : Value Str N} (h : value.Distinct) :
    canonicalJsonValue value = canonicalJsonValue other ↔
      (dropNulls value).Same (dropNulls other) := by
  rw [canonicalJsonValue_eq, canonicalJsonValue_eq, same_iff_sortKeys (distinct_dropNulls h)]

theorem dumps_canonical_inj {numbers : NumberText N} {value other : Value Str N} :
    dumps numbers (canonicalJsonValue value) = dumps numbers (canonicalJsonValue other) ↔
      canonicalJsonValue value = canonicalJsonValue other := by
  rw [dumps, dumps, sortKeys_canonical, sortKeys_canonical]
  exact (print_injective numbers).eq_iff

/-- The text of a canonical value is its own normal form. -/
theorem normalizeAppCompose_canonical {json : PyJson N} (h : json.ReadsBack) {value : Value Str N}
    (hdistinct : value.Distinct) :
    normalizeAppCompose json (.text (dumps json.numbers (canonicalJsonValue value))) =
      .ok (dumps json.numbers (canonicalJsonValue value)) := by
  have hread := h ⟨canonicalJsonValue value, distinct_canonical hdistinct⟩
  rw [sortKeys_canonical] at hread
  cases hloads : json.loads (dumps json.numbers (canonicalJsonValue value)) with
  | error e =>
    rw [hloads] at hread
    cases hread
  | ok document =>
    rw [hloads] at hread
    have hvalue : document.value = canonicalJsonValue value := Except.ok.inj hread
    rw [normalizeAppCompose, hloads]
    show Except.ok (dumps json.numbers (canonicalJsonValue document.value)) = _
    rw [hvalue, canonicalJsonValue_canonical]

/-- **The normal form tells composes apart** by what dropping their null members leaves, up to the
    order of members, and is its own normal form. -/
theorem normalizeAppCompose_identifies (json : PyJson N) (h : json.ReadsBack) :
    (∀ u v : Dict Str N,
      normalizeAppCompose json (.mapping u) = normalizeAppCompose json (.mapping v) ↔
        (dropNulls (.object u.members)).Same (dropNulls (.object v.members))) ∧
    ∀ (compose : AppCompose N) (text : Str), normalizeAppCompose json compose = .ok text →
      normalizeAppCompose json (.text text) = .ok text := by
  constructor
  · intro u v
    rw [← canonical_eq_iff u.distinct, ← @dumps_canonical_inj N json.numbers]
    exact ⟨fun heq => Except.ok.inj heq, fun heq => congrArg Except.ok heq⟩
  · intro compose text hnormal
    cases compose with
    | mapping compose =>
      obtain rfl := Except.ok.inj hnormal
      exact normalizeAppCompose_canonical h compose.distinct
    | text compose =>
      obtain ⟨document, -, hdocument⟩ := bind_eq_ok.mp hnormal
      obtain rfl := Except.ok.inj hdocument
      exact normalizeAppCompose_canonical h document.distinct

/-! ## A reader of normal forms -/

/-- A value whose objects are `dict`s. -/
def Document.ofValue (value : Value Str N) : Except (Stop String) (Document N) :=
  if h : value.Distinct then .ok ⟨value, h⟩ else .error .panic

/-- `json`, on what `dumps` writes: with integers, and without white space. -/
def compactJson : PyJson Int where
  numbers := intText
  loads text := (okOr (reads intText text) (.err "Expecting value")).bind Document.ofValue

theorem compactJson_readsBack : compactJson.ReadsBack := by
  intro document
  have hread : reads intText (dumps intText document.value) = some document.value.sortKeys :=
    reads_print intText _
  have hloads : compactJson.loads (dumps intText document.value) =
      .ok ⟨document.value.sortKeys, distinct_sortKeys document.distinct⟩ := by
    show (okOr (reads intText (dumps intText document.value)) _).bind Document.ofValue = _
    rw [hread]
    exact dif_pos (distinct_sortKeys document.distinct)
  rw [show compactJson.numbers = intText from rfl, hloads]
  rfl

/-- `{"z": {"b": 2, "a": 1}, "null_value": None, "list": [3, 2, 1]}`. -/
def sourceMembers : List (Str × Value Str Int) :=
  [(ofText "z", .object [(ofText "b", .number 2), (ofText "a", .number 1)]),
    (ofText "null_value", .null), (ofText "list", .array [.number 3, .number 2, .number 1])]

/-- `{"list": [3, 2, 1], "z": {"a": 1, "b": 2}}`. -/
def reorderedMembers : List (Str × Value Str Int) :=
  [(ofText "list", .array [.number 3, .number 2, .number 1]),
    (ofText "z", .object [(ofText "a", .number 1), (ofText "b", .number 2)])]

theorem distinct_sourceMembers : (Value.object sourceMembers).Distinct := by decide

theorem distinct_reorderedMembers : (Value.object reorderedMembers).Distinct := by decide

theorem normalizeAppCompose_identifies_source :
    normalizeAppCompose compactJson (.mapping ⟨sourceMembers, distinct_sourceMembers⟩) =
      normalizeAppCompose compactJson (.mapping ⟨reorderedMembers, distinct_reorderedMembers⟩) ∧
    ∃ text, normalizeAppCompose compactJson (.mapping ⟨sourceMembers, distinct_sourceMembers⟩) =
      .ok text ∧ normalizeAppCompose compactJson (.text text) = .ok text := by
  have hidentifies := normalizeAppCompose_identifies compactJson compactJson_readsBack
  refine ⟨(hidentifies.1 _ _).mpr (same_of_sortKeys rfl), _, rfl, ?_⟩
  exact hidentifies.2 (.mapping ⟨sourceMembers, distinct_sourceMembers⟩) _ rfl

end Basecrawl.Image.Compose
