/-
  Rotation of the measurement allowlist after a CVE.

  1. **Program** — `atomicRotateAllowlist` pins a new entry and drops the retired ones, in one
     atomic replacement of the file.
  2. **One call** — `atomicRotateAllowlist_cases`: it raises and leaves the file alone, or it writes
     a list that it has `Checked` and returns it.
  3. **Two validators** — this one tolerates further keys, the allowlist's does not; both accept
     only what spells out an entry, and give that entry (`validateEntry_eq_ok`).
  4. **Histories** — what was retired comes back only with a call that pins it.
-/
import Basecrawl.Image.Allowlist
import Basecrawl.Lib.History
import Basecrawl.Lib.Run

namespace Basecrawl.Image.Rotation

open Text Hex Outcome Panic PyText Json Run History Allowlist

/-- CVE rotation inputs or allowlist state are invalid. -/
structure CveRotationError where
  message : String
deriving DecidableEq

abbrev RotationResult (α : Type) := Checked CveRotationError α

/-- `raise CveRotationError(message)`. -/
def rotationError (message : String) : Stop CveRotationError := .err ⟨message⟩

/-! ## The validator -/

/-- `_require_hex`, four bits a digit. -/
def requireHex (lower : String → String) (value : String) (digits : Nat) (label : String) :
    RotationResult (Digest digits) :=
  okOr (Digest.ofText digits (lower (strip value)))
    (rotationError (label ++ " must be a " ++ toString digits ++ "-char lowercase hex string"))

/-- One round of the loop of `_validate_entry`. -/
def readField (lower : String → String) (entry : Mapping) (label : String)
    (field : CanonicalField) : RotationResult (Digest field.digits) := do
  let value ← okOr
    (((entry.lookup field.name).bind Tree.asStr).filter fun value => strip value != "")
    (rotationError (label ++ "." ++ field.name ++ " must be a non-empty string"))
  requireHex lower value field.digits (label ++ "." ++ field.name)

/-- `_validate_entry`. -/
def validateEntry (lower : String → String) (label : String) (entry : Tree) :
    RotationResult Entry := do
  let entry ← okOr (asMapping entry) (rotationError (label ++ " must be an object"))
  let missing := canonicalFields.filter fun field => (entry.lookup field.name).isNone
  require missing.isEmpty (rotationError (label ++ " missing fields: " ++
    String.intercalate ", " (missing.map CanonicalField.name)))
  readEntry (readField lower entry label)

/-- `_entry_key`. -/
def entryKey (entry : Entry) : List String :=
  canonicalFields.map fun field => (entry.digest field).text

/-! ## The file -/

/-- A member as `json.dumps` writes it: a hex digit needs no escape. -/
def dumpsMember (member : String × Tree) : String :=
  "    \"" ++ member.1 ++ "\": \"" ++ (member.2.asStr).getD "" ++ "\""

def dumpsEntry (entry : Entry) : String :=
  "  \x7b\n" ++ String.intercalate ",\n" (entry.toMapping.map dumpsMember) ++ "\n  \x7d"

/-- `json.dumps(payload, indent=2, sort_keys=True)`. -/
def dumps (entries : List Entry) : String :=
  if entries.isEmpty then "[]"
  else "[\n" ++ String.intercalate ",\n" (entries.map dumpsEntry) ++ "\n]"

/-- What `atomic_write_json` writes. -/
def fileText (entries : List Entry) : Bytes := utf8 (dumps entries ++ "\n")

/-- The reader gives back what was written. -/
def ReadsBack (json : JsonReader) : Prop :=
  ∀ entries, json.loads (fileText entries) = .ok (payload entries)

/-! ## One call -/

/-- The arguments of a call, and the `OSError` that its write meets, if any. -/
structure Call where
  newEntry : Tree
  retire : List Tree := []
  allowDualPin : Bool := false
  writeError : Option String := none

/-- An error of the allowlist module that is not caught. -/
def uncaught {α : Type} (x : AllowlistResult α) : RotationResult α := x.mapError fun _ => .panic

/-- `except MeasurementAllowlistError as exc: raise CveRotationError(str(exc))`. -/
def asRotationError {α : Type} (x : AllowlistResult α) : RotationResult α :=
  x.mapError fun
    | .err exc => rotationError exc.message
    | .panic => .panic

/-- The entries of the file, if there is one. -/
def readExisting (json : JsonReader) (lower : String → String) (path : String)
    (file : Option Bytes) : RotationResult (List Entry) :=
  if file.isSome then asRotationError (loadAllowlist json lower path file) else .ok []

/-- The new list. -/
def rotated (pinned : Entry) (retired existing : List Entry) (allowDualPin : Bool) : List Entry :=
  let retiredKeys := (retired.map entryKey) ++ [entryKey pinned]
  if allowDualPin then
    pinned :: existing.filter fun entry =>
      decide (entryKey entry ∉ retiredKeys ∧ entryKey entry ≠ entryKey pinned)
  else [pinned]

/-- Re-confirm that the retired identities are absent. -/
def confirmRetired (lower : String → String) (result : List Entry) :
    List Entry → RotationResult Unit
  | [] => .ok ()
  | item :: retired => do
      let present ← uncaught (allowlistContains lower item.toMapping (result.map Entry.toMapping))
      require (!present)
        (rotationError "retired measurement still present after rotation (fail closed)")
      confirmRetired lower result retired

/-- The new measurement must be present. -/
def confirmPinned (lower : String → String) (result : List Entry) (pinned : Entry) :
    RotationResult Unit := do
  let present ← uncaught (allowlistContains lower pinned.toMapping (result.map Entry.toMapping))
  require present (rotationError "new measurement missing after rotation (fail closed)")

/-- `atomic_write_json`: a temporary file takes the place of the old one, or nothing happens. -/
def atomicWriteJson (writeError : Option String) (entries : List Entry) :
    EStateM (Stop CveRotationError) (Option Bytes) Unit :=
  match writeError with
  | some _ => throw .panic
  | none => set (some (fileText entries))

def atomicRotateAllowlist (json : JsonReader) (lower : String → String) (path : String)
    (call : Call) : EStateM (Stop CveRotationError) (Option Bytes) (List Entry) := do
  let pinned ← ofResult (validateEntry lower "new_entry" call.newEntry)
  let retired ← ofResult (call.retire.mapM (validateEntry lower "retire"))
  let file ← get
  let existing ← ofResult (readExisting json lower path file)
  let result := rotated pinned retired existing call.allowDualPin
  ofResult (confirmRetired lower result retired)
  ofResult (confirmPinned lower result pinned)
  atomicWriteJson call.writeError result
  return result

/-! ## What the validator accepts -/

/-- The candidate is a mapping that spells out the entry. -/
def Spells (lower : String → String) (entry : Entry) (candidate : Tree) : Prop :=
  ∃ members, asMapping candidate = some members ∧ Matches lower entry members

theorem Spells.unique {lower : String → String} {a b : Entry} {candidate : Tree}
    (ha : Spells lower a candidate) (hb : Spells lower b candidate) : a = b := by
  obtain ⟨members, hmembers, hmatches⟩ := ha
  obtain ⟨members', hmembers', hmatches'⟩ := hb
  rw [hmembers] at hmembers'
  cases hmembers'
  exact hmatches.unique hmatches'

theorem lower_empty {lower : String → String} (hlower : LowersAscii lower) : lower "" = "" :=
  hlower.ascii "" (by simp)

/-- A digest is not empty, so the check that the value is not blank adds nothing. -/
theorem readField_eq_ok {lower : String → String} (hlower : LowersAscii lower) {entry : Mapping}
    {label : String} {field : CanonicalField} {digest : Digest field.digits} :
    readField lower entry label field = .ok digest ↔
      normalizedField lower entry field = some digest.text := by
  simp only [readField, requireHex, bind_eq_ok, okOr_eq_ok, Digest.ofText_eq_some, normalizedField,
    Option.map_eq_some_iff, Option.filter_eq_some_iff, bne_iff_ne]
  constructor
  · rintro ⟨value, ⟨hvalue, -⟩, htext⟩
    exact ⟨value, hvalue, htext⟩
  · rintro ⟨value, hvalue, htext⟩
    refine ⟨value, ⟨hvalue, ?_⟩, htext⟩
    intro hblank
    rw [hblank, lower_empty hlower] at htext
    have hvalid := digest.valid
    rw [← htext] at hvalid
    cases field <;> exact absurd hvalid (by decide)

theorem validateEntry_eq_ok {lower : String → String} (hlower : LowersAscii lower) {label : String}
    {candidate : Tree} {entry : Entry} :
    validateEntry lower label candidate = .ok entry ↔ Spells lower entry candidate := by
  simp only [validateEntry, bind_eq_ok, okOr_eq_ok, require_eq_ok, readEntry_eq_ok,
    readField_eq_ok hlower, Spells, Matches]
  constructor
  · rintro ⟨members, hmembers, _, -, h⟩
    exact ⟨members, hmembers, h⟩
  · rintro ⟨members, hmembers, h⟩
    refine ⟨members, hmembers, (), ?_, h⟩
    rw [List.isEmpty_iff, List.filter_eq_nil_iff]
    intro field _ hnone
    have hfield := h field
    rw [normalizedField, Option.isNone_iff_eq_none.mp hnone] at hfield
    cases hfield

theorem entryKey_injective : Function.Injective entryKey := by
  intro a b h
  refine Entry.ext_digest fun field => ?_
  have hmem : field ∈ canonicalFields := by cases field <;> decide
  exact List.map_inj_left.mp h field hmem

/-! ## One call, as a step -/

theorem confirmRetired_eq_ok {lower : String → String} (hlower : LowersAscii lower)
    {result : List Entry} {u : Unit} : ∀ {retired : List Entry},
    confirmRetired lower result retired = .ok u ↔ ∀ item ∈ retired, item ∉ result
  | [] => by simp [confirmRetired]
  | item :: retired => by
    rw [confirmRetired, allowlistContains_entry hlower, List.forall_mem_cons,
      ← confirmRetired_eq_ok hlower (u := u)]
    show (_ >>= _) = _ ↔ _
    simp [bind_eq_ok, uncaught, Except.mapError]

/-- What a call that returns `result` did to the list of the file. -/
structure Rotates (json : JsonReader) (lower : String → String) (path : String) (call : Call)
    (file : Option Bytes) (result : List Entry) : Prop where
  pins : ∃ pinned ∈ result, Spells lower pinned call.newEntry
  retires : ∀ r ∈ call.retire, ∀ entry ∈ result, ¬ Spells lower entry r
  single : call.allowDualPin = false → ∃ pinned, Spells lower pinned call.newEntry ∧
    result = [pinned]
  dual : ∀ entry ∈ result, Spells lower entry call.newEntry ∨
    ∃ previous, loadAllowlist json lower path file = .ok previous ∧ entry ∈ previous

/-- The new list: what is pinned, and with a dual pin what was there and is not retired. -/
theorem mem_rotated_iff {pinned entry : Entry} {retired existing : List Entry}
    {allowDualPin : Bool} : entry ∈ rotated pinned retired existing allowDualPin ↔
      entry = pinned ∨ allowDualPin = true ∧ entry ∈ existing ∧ entry ∉ retired := by
  cases allowDualPin with
  | false => simp [rotated]
  | true =>
    simp only [rotated, if_true, List.mem_cons, List.mem_filter, decide_eq_true_eq,
      List.mem_append, List.mem_map_of_injective entryKey_injective, ne_eq,
      entryKey_injective.eq_iff, List.not_mem_nil, or_false, true_and]
    constructor
    · rintro (rfl | ⟨hexisting, hnot, -⟩)
      · exact Or.inl rfl
      · exact Or.inr ⟨hexisting, fun h => hnot (Or.inl h)⟩
    · rintro (rfl | ⟨hexisting, hnot⟩)
      · exact Or.inl rfl
      · by_cases heq : entry = pinned
        · exact Or.inl heq
        · exact Or.inr ⟨hexisting, fun h => h.elim hnot heq, heq⟩

theorem pinned_mem_rotated (pinned : Entry) (retired existing : List Entry) (allowDualPin : Bool) :
    pinned ∈ rotated pinned retired existing allowDualPin :=
  mem_rotated_iff.mpr (Or.inl rfl)

/-- An entry that was there was on the list that the file loads as. -/
theorem readExisting_eq_ok {json : JsonReader} {lower : String → String} {path : String}
    {file : Option Bytes} {existing : List Entry} {entry : Entry}
    (h : readExisting json lower path file = .ok existing) (hentry : entry ∈ existing) :
    ∃ previous, loadAllowlist json lower path file = .ok previous ∧ entry ∈ previous := by
  unfold readExisting at h
  split at h
  · exact ⟨existing, mapError_eq_ok.mp h, hentry⟩
  · cases h
    exact absurd hentry List.not_mem_nil

theorem readExisting_of_load {json : JsonReader} {lower : String → String} {path : String}
    {file : Option Bytes} {entries : List Entry}
    (h : loadAllowlist json lower path file = .ok entries) :
    readExisting json lower path file = .ok entries := by
  cases file with
  | none => cases h
  | some text => exact mapError_eq_ok.mpr h

theorem rotates_of_confirmed {json : JsonReader} {lower : String → String}
    (hlower : LowersAscii lower) {path : String} {call : Call} {file : Option Bytes}
    {pinned : Entry} {retired existing : List Entry}
    (hpinned : validateEntry lower "new_entry" call.newEntry = .ok pinned)
    (hretired : call.retire.mapM (validateEntry lower "retire") = .ok retired)
    (hexisting : readExisting json lower path file = .ok existing) {u : Unit}
    (hconfirmed : confirmRetired lower (rotated pinned retired existing call.allowDualPin) retired =
      .ok u) :
    Rotates json lower path call file (rotated pinned retired existing call.allowDualPin) := by
  have hspells := (validateEntry_eq_ok hlower).mp hpinned
  refine ⟨⟨pinned, pinned_mem_rotated _ _ _ _, hspells⟩, ?_, ?_, ?_⟩
  · intro r hr entry hentry hsame
    obtain ⟨item, hitem, hvalid⟩ := exists_of_mapM_eq_ok hretired hr
    have hentryItem := hsame.unique ((validateEntry_eq_ok hlower).mp hvalid)
    exact (confirmRetired_eq_ok hlower).mp hconfirmed item hitem (hentryItem ▸ hentry)
  · intro hsingle
    refine ⟨pinned, hspells, ?_⟩
    rw [rotated, hsingle]
    rfl
  · intro entry hentry
    rcases mem_rotated_iff.mp hentry with rfl | ⟨-, hentry, -⟩
    · exact Or.inl hspells
    · exact Or.inr (readExisting_eq_ok hexisting hentry)

/-- **One call**: it raises and leaves the file alone, or it replaces the file by the list that it
    returns. -/
theorem atomicRotateAllowlist_cases {json : JsonReader} {lower : String → String}
    (hlower : LowersAscii lower) (path : String) (call : Call) (file : Option Bytes) :
    (∃ e, atomicRotateAllowlist json lower path call file = .error e file) ∨
    ∃ result,
      atomicRotateAllowlist json lower path call file = .ok result (some (fileText result)) ∧
      Rotates json lower path call file result := by
  unfold atomicRotateAllowlist
  rcases ofResult_bind_cases (validateEntry lower "new_entry" call.newEntry) _ file with
    h | ⟨pinned, hpinned, h⟩
  · exact Or.inl h
  rw [h]
  rcases ofResult_bind_cases (call.retire.mapM (validateEntry lower "retire")) _ file with
    h | ⟨retired, hretired, h⟩
  · exact Or.inl h
  rw [h, bind_apply]
  show (∃ e, (ofResult (readExisting json lower path file) >>= _) file = _) ∨ ∃ result,
    (ofResult (readExisting json lower path file) >>= _) file = _ ∧ _
  rcases ofResult_bind_cases (readExisting json lower path file) _ file with
    h | ⟨existing, hexisting, h⟩
  · exact Or.inl h
  rw [h]
  rcases ofResult_bind_cases (confirmRetired lower
    (rotated pinned retired existing call.allowDualPin) retired) _ file with
    h | ⟨_, hconfirmed, h⟩
  · exact Or.inl h
  rw [h]
  rcases ofResult_bind_cases (confirmPinned lower
    (rotated pinned retired existing call.allowDualPin) pinned) _ file with
    h | ⟨_, -, h⟩
  · exact Or.inl h
  rw [h, bind_apply]
  cases hwrite : call.writeError with
  | some e => exact Or.inl ⟨_, rfl⟩
  | none =>
    exact Or.inr ⟨_, rfl, rotates_of_confirmed hlower hpinned hretired hexisting hconfirmed⟩

/-- An item that is not pinned does not survive its retirement. -/
theorem not_mem_rotated {pinned item : Entry} {retired existing : List Entry} {allowDualPin : Bool}
    (hitem : item ∈ retired) (hne : item ≠ pinned) :
    item ∉ rotated pinned retired existing allowDualPin := by
  intro h
  rcases mem_rotated_iff.mp h with h | ⟨-, -, hnot⟩
  · exact hne h
  · exact hnot hitem

theorem confirmPinned_rotated {lower : String → String} (hlower : LowersAscii lower)
    (pinned : Entry) (retired existing : List Entry) (allowDualPin : Bool) :
    confirmPinned lower (rotated pinned retired existing allowDualPin) pinned = .ok () := by
  rw [confirmPinned, allowlistContains_entry hlower,
    decide_eq_true (pinned_mem_rotated pinned retired existing allowDualPin)]
  rfl

/-- **When a call returns**: its entries are well formed, it does not retire what it pins, the file
    is an allowlist or absent, and the disk takes the write. -/
theorem atomicRotateAllowlist_returns_iff {json : JsonReader} {lower : String → String}
    (hlower : LowersAscii lower) {path : String} {call : Call} {file : Option Bytes} :
    (∃ result file', atomicRotateAllowlist json lower path call file = .ok result file') ↔
      (∃ pinned, Spells lower pinned call.newEntry) ∧
      (∀ r ∈ call.retire, ∃ item, Spells lower item r ∧ ¬ Spells lower item call.newEntry) ∧
      (∃ existing, readExisting json lower path file = .ok existing) ∧
      call.writeError = none := by
  constructor
  · rintro ⟨result, file', h⟩
    obtain ⟨pinned, hpinned, h⟩ := ofResult_bind_eq_ok.mp h
    obtain ⟨retired, hretired, h⟩ := ofResult_bind_eq_ok.mp h
    obtain ⟨existing, hexisting, h⟩ := ofResult_bind_eq_ok.mp h
    obtain ⟨_, hconfirmed, h⟩ := ofResult_bind_eq_ok.mp h
    obtain ⟨_, -, h⟩ := ofResult_bind_eq_ok.mp h
    have hspells := (validateEntry_eq_ok hlower).mp hpinned
    refine ⟨⟨pinned, hspells⟩, ?_, ⟨existing, hexisting⟩, ?_⟩
    · intro r hr
      obtain ⟨item, hitem, hvalid⟩ := exists_of_mapM_eq_ok hretired hr
      refine ⟨item, (validateEntry_eq_ok hlower).mp hvalid, fun hsame => ?_⟩
      refine (confirmRetired_eq_ok hlower).mp hconfirmed item hitem ?_
      rw [hsame.unique hspells]
      exact pinned_mem_rotated _ _ _ _
    · cases hwrite : call.writeError with
      | none => rfl
      | some e =>
        rw [hwrite] at h
        cases h
  · rintro ⟨⟨pinned, hspells⟩, hretire, ⟨existing, hexisting⟩, hwrite⟩
    have hvalid : ∀ r ∈ call.retire, ∃ item, validateEntry lower "retire" r = .ok item := by
      intro r hr
      obtain ⟨item, hitem, -⟩ := hretire r hr
      exact ⟨item, (validateEntry_eq_ok hlower).mpr hitem⟩
    obtain ⟨retired, hretired⟩ := exists_mapM_eq_ok hvalid
    have hconfirmed : confirmRetired lower (rotated pinned retired existing call.allowDualPin)
        retired = .ok () := by
      refine (confirmRetired_eq_ok hlower).mpr fun item hitem => not_mem_rotated hitem ?_
      rintro rfl
      obtain ⟨r, hr, hsame⟩ := exists_of_mem_mapM hretired hitem
      obtain ⟨other, hother, hne⟩ := hretire r hr
      exact hne (hother.unique ((validateEntry_eq_ok hlower).mp hsame) ▸ hspells)
    refine ⟨rotated pinned retired existing call.allowDualPin,
      some (fileText (rotated pinned retired existing call.allowDualPin)), ?_⟩
    refine ofResult_bind_eq_ok.mpr ⟨pinned, (validateEntry_eq_ok hlower).mpr hspells, ?_⟩
    refine ofResult_bind_eq_ok.mpr ⟨retired, hretired, ?_⟩
    refine ofResult_bind_eq_ok.mpr ⟨existing, hexisting, ?_⟩
    refine ofResult_bind_eq_ok.mpr ⟨(), hconfirmed, ?_⟩
    refine ofResult_bind_eq_ok.mpr ⟨(), confirmPinned_rotated hlower _ _ _ _, ?_⟩
    rw [hwrite]
    rfl

/-! ## Histories -/

/-- A call, as a step on the file. -/
def rotate (json : JsonReader) (lower : String → String) (path : String) (call : Call)
    (file : Option Bytes) : RotationResult (List Entry) × Option Bytes :=
  let run := atomicRotateAllowlist json lower path call file
  (outcome run, Run.final run)

abbrev RotationEvent := Event (Option Bytes) Call (RotationResult (List Entry))

/-- The call returned. -/
def Succeeded (event : RotationEvent) : Prop := ∃ entries, event.outcome = .ok entries

/-- What a call promises: all or nothing, and a list that rotates. -/
structure Safe (json : JsonReader) (lower : String → String) (path : String)
    (event : RotationEvent) : Prop where
  raised : ∀ e, event.outcome = .error e → event.after = event.before
  loads : ∀ entries, event.outcome = .ok entries →
    loadAllowlist json lower path event.after = .ok entries
  rotates : ∀ entries, event.outcome = .ok entries →
    Rotates json lower path event.call event.before entries

/-- The file's allowlist contains the candidate. -/
def Accepts (json : JsonReader) (lower : String → String) (path : String) (file : Option Bytes)
    (candidate : Mapping) : Prop :=
  ∃ entries, loadAllowlist json lower path file = .ok entries ∧
    allowlistContains lower candidate (entries.map Entry.toMapping) = .ok true

/-- The entry is on the file's allowlist. -/
def Listed (json : JsonReader) (lower : String → String) (path : String) (entry : Entry)
    (file : Option Bytes) : Prop :=
  ∃ entries, loadAllowlist json lower path file = .ok entries ∧ entry ∈ entries

/-- A candidate that is accepted spells out an entry of the list. -/
theorem Accepts.listed {json : JsonReader} {lower : String → String} (hlower : LowersAscii lower)
    {path : String} {file : Option Bytes} {candidate : Mapping} {entry : Entry}
    (h : Accepts json lower path file candidate) (hentry : Matches lower entry candidate) :
    Listed json lower path entry file := by
  obtain ⟨entries, hload, hcontains⟩ := h
  obtain ⟨-, other, hmem, hother⟩ := (allowlistContains_toMapping hlower).mp hcontains
  exact ⟨entries, hload, hother.unique hentry ▸ hmem⟩

section

variable {json : JsonReader} {lower : String → String} {path : String}

/-- **Step**: every call is safe. -/
theorem rotate_safe (hjson : ReadsBack json) (hlower : LowersAscii lower) {event : RotationEvent}
    (h : rotate json lower path event.call event.before = (event.outcome, event.after)) :
    Safe json lower path event := by
  obtain ⟨before, call, out, after⟩ := event
  obtain ⟨houtcome, hafter⟩ := Prod.mk.inj h
  dsimp only at houtcome hafter
  subst houtcome hafter
  rcases atomicRotateAllowlist_cases hlower path call before with
    ⟨e, hrun⟩ | ⟨result, hrun, hrotates⟩
  · -- it raised
    rw [hrun]
    refine ⟨fun _ _ => rfl, ?_, ?_⟩
    · rintro entries ⟨⟩
    · rintro entries ⟨⟩
  · -- it returned
    rw [hrun]
    refine ⟨?_, ?_, ?_⟩
    · rintro e ⟨⟩
    · rintro entries ⟨⟩
      exact loadAllowlist_payload hlower (hjson result)
    · rintro entries ⟨⟩
      exact hrotates

/-- **Step**: an entry on the list was there before, or the call pinned it. -/
theorem listed_step (hjson : ReadsBack json) (hlower : LowersAscii lower) {entry : Entry}
    {event : RotationEvent}
    (h : rotate json lower path event.call event.before = (event.outcome, event.after))
    (hlisted : Listed json lower path entry event.after) :
    Listed json lower path entry event.before ∨
      Succeeded event ∧ Spells lower entry event.call.newEntry := by
  have hsafe := rotate_safe hjson hlower h
  obtain ⟨entries, hload, hmem⟩ := hlisted
  cases hout : event.outcome with
  | error e =>
    rw [hsafe.raised e hout] at hload
    exact Or.inl ⟨entries, hload, hmem⟩
  | ok result =>
    have hsame := hsafe.loads result hout
    rw [hload] at hsame
    cases hsame
    rcases (hsafe.rotates entries hout).dual entry hmem with hpinned | ⟨previous, hprevious, hmem⟩
    · exact Or.inr ⟨⟨entries, hout⟩, hpinned⟩
    · exact Or.inl ⟨previous, hprevious, hmem⟩

/-- A retired entry is not on the list that its call leaves. -/
theorem not_listed_of_retired (hjson : ReadsBack json) (hlower : LowersAscii lower) {entry : Entry}
    {event : RotationEvent}
    (h : rotate json lower path event.call event.before = (event.outcome, event.after))
    (hsucceeded : Succeeded event) {r : Tree} (hr : r ∈ event.call.retire)
    (hentry : Spells lower entry r) : ¬ Listed json lower path entry event.after := by
  have hsafe := rotate_safe hjson hlower h
  obtain ⟨result, hout⟩ := hsucceeded
  rintro ⟨entries, hload, hmem⟩
  rw [hsafe.loads result hout] at hload
  cases hload
  exact (hsafe.rotates result hout).retires r hr entry hmem hentry

/-- **Rotation is safe over whole histories**: each call raises and leaves the file as it was, or
    leaves the list that it returns; and what a call retired is accepted later only if a later call
    that returned pinned it. -/
theorem rotation_history_safe (hjson : ReadsBack json) (hlower : LowersAscii lower)
    (calls : List Call) (file : Option Bytes) :
    (∀ event ∈ trace (rotate json lower path) calls file, Safe json lower path event) ∧
    ∀ before event later, trace (rotate json lower path) calls file = before ++ event :: later →
      Succeeded event → ∀ r ∈ event.call.retire, ∀ entry, Spells lower entry r →
      ∀ candidate, Matches lower entry candidate →
        Accepts json lower path (History.final (rotate json lower path) calls file) candidate →
        ∃ event' ∈ later, Succeeded event' ∧ Spells lower entry event'.call.newEntry := by
  constructor
  · intro event hmem
    exact rotate_safe hjson hlower (of_mem_trace hmem)
  · intro before event later htrace hsucceeded r hr entry hentry candidate hcandidate haccepts
    have hevent : event ∈ trace (rotate json lower path) calls file := by
      rw [htrace]
      exact List.mem_append_right before List.mem_cons_self
    obtain ⟨rest, hrest, hfinal⟩ := trace_eq_append htrace
    have hlisted := haccepts.listed hlower hcandidate
    rw [← hfinal] at hlisted
    rcases origin (fun event h => listed_step hjson hlower h) hlisted with
      hafter | ⟨event', hmem, hpinned⟩
    · exact absurd hafter
        (not_listed_of_retired hjson hlower (of_mem_trace hevent) hsucceeded hr hentry)
    · rw [hrest] at hmem
      exact ⟨event', hmem, hpinned⟩

end

/-! ## A reader

  For files of this form a reader need only look between the quotes. -/

/-- Every other piece between quotes. -/
def quoted : List (List Char) → List String
  | _ :: text :: rest => String.ofList text :: quoted rest
  | _ => []

/-- Twelve texts an entry: keys and values in turn. -/
def mappingsOf : List String → List Mapping
  | k1 :: v1 :: k2 :: v2 :: k3 :: v3 :: k4 :: v4 :: k5 :: v5 :: k6 :: v6 :: rest =>
      [(k1, .string v1), (k2, .string v2), (k3, .string v3), (k4, .string v4), (k5, .string v5),
        (k6, .string v6)] :: mappingsOf rest
  | _ => []

def quoteReader : JsonReader where
  loads text :=
    match fromUtf8 text with
    | none => .error .panic
    | some s => .ok (.array ((mappingsOf (quoted (s.toList.splitOn '"'))).map Tree.object))

/-- The text holds these quoted texts, whatever follows it. -/
def Quotes (text : List Char) (texts : List String) : Prop :=
  ∀ rest, quoted ((text ++ rest).splitOn '"') = texts ++ quoted (rest.splitOn '"')

theorem quoted_modifyHead (f : List Char → List Char) : ∀ pieces,
    quoted (pieces.modifyHead f) = quoted pieces
  | [] => rfl
  | [_] => rfl
  | _ :: _ :: _ => rfl

theorem quotes_of_not_mem : ∀ {gap : List Char}, '"' ∉ gap → Quotes gap []
  | [], _, rest => by rw [List.nil_append, List.nil_append]
  | c :: gap, h, rest => by
    rw [List.mem_cons, not_or] at h
    rw [List.cons_append, List.splitOn_cons_eq_if_modifyHead, if_neg (by simpa using Ne.symm h.1),
      quoted_modifyHead]
    exact quotes_of_not_mem h.2 rest

theorem quotes_text {text : List Char} (h : '"' ∉ text) :
    Quotes ('"' :: (text ++ ['"'])) [String.ofList text] := by
  intro rest
  have hsplit : '"' :: (text ++ ['"']) ++ rest = [] ++ '"' :: (text ++ '"' :: rest) := by simp
  rw [hsplit, List.splitOn_append_cons_self_of_not_mem List.not_mem_nil,
    List.splitOn_append_cons_self_of_not_mem h]
  rfl

theorem Quotes.append {x y : List Char} {xs ys : List String} (hx : Quotes x xs)
    (hy : Quotes y ys) : Quotes (x ++ y) (xs ++ ys) := by
  intro rest
  rw [List.append_assoc, hx, hy, List.append_assoc]

/-- Joined by a separator without quotes. -/
theorem quotes_intercalate {α : Type} {sep : String} (hsep : '"' ∉ sep.toList) {f : α → String}
    {texts : α → List String} : ∀ {items : List α},
      (∀ item ∈ items, Quotes (f item).toList (texts item)) →
      Quotes (String.intercalate sep (items.map f)).toList (items.flatMap texts)
  | [], _ => quotes_of_not_mem (by simp)
  | [item], h => by simpa using h item List.mem_cons_self
  | item :: next :: items, h => by
    have ih := quotes_intercalate hsep fun other hother =>
      h other (List.mem_cons_of_mem item hother)
    rw [List.map_cons, List.map_cons, String.intercalate_cons_cons, String.toList_append,
      String.toList_append, List.flatMap_cons]
    have hgap := (h item List.mem_cons_self).append (quotes_of_not_mem hsep)
    rw [List.append_nil] at hgap
    exact hgap.append ih

/-- A digest holds no quote. -/
theorem quote_not_mem_digest {n : Nat} (digest : Digest n) : '"' ∉ digest.text.toList := by
  have hvalid := digest.valid
  rw [isDigest, Bool.and_eq_true, isHexText_iff] at hvalid
  intro h
  exact absurd (hvalid.2 '"' h) (by decide)

/-- A member's key and value. -/
def memberTexts (member : String × Tree) : List String := [member.1, (member.2.asStr).getD ""]

theorem quotes_dumpsMember {member : String × Tree}
    (h : ∀ text ∈ memberTexts member, '"' ∉ text.toList) :
    Quotes (dumpsMember member).toList (memberTexts member) := by
  have hkey := quotes_text (h _ List.mem_cons_self)
  have hvalue := quotes_text (h _ (List.mem_cons_of_mem _ List.mem_cons_self))
  rw [String.ofList_toList] at hkey hvalue
  have hindent : Quotes "    ".toList [] := quotes_of_not_mem (by decide)
  have hcolon : Quotes ": ".toList [] := quotes_of_not_mem (by decide)
  have hall := ((hindent.append hkey).append hcolon).append hvalue
  have hchars : (dumpsMember member).toList = "    ".toList ++ '"' :: (member.1.toList ++ ['"']) ++
      ": ".toList ++ '"' :: (((member.2.asStr).getD "").toList ++ ['"']) := by
    simp [dumpsMember]
  rw [hchars]
  exact hall

theorem quote_not_mem_member {key : String} {n : Nat} (hkey : '"' ∉ key.toList)
    (digest : Digest n) : ∀ text ∈ memberTexts (key, .string digest.text), '"' ∉ text.toList := by
  intro text htext
  rcases List.mem_cons.mp htext with rfl | htext
  · exact hkey
  · rw [List.mem_singleton.mp htext]
    exact quote_not_mem_digest digest

theorem quotes_dumpsEntry (entry : Entry) :
    Quotes (dumpsEntry entry).toList (entry.toMapping.flatMap memberTexts) := by
  have hmembers : ∀ member ∈ entry.toMapping,
      Quotes (dumpsMember member).toList (memberTexts member) := by
    intro member hmember
    refine quotes_dumpsMember ?_
    simp only [Entry.toMapping, List.mem_cons, List.not_mem_nil, or_false] at hmember
    rcases hmember with rfl | rfl | rfl | rfl | rfl | rfl
    · exact quote_not_mem_member (by decide) entry.composeHash
    · exact quote_not_mem_member (by decide) entry.mrtd
    · exact quote_not_mem_member (by decide) entry.osImageHash
    · exact quote_not_mem_member (by decide) entry.rtmr0
    · exact quote_not_mem_member (by decide) entry.rtmr1
    · exact quote_not_mem_member (by decide) entry.rtmr2
  have hopen : Quotes "  \x7b\n".toList [] := quotes_of_not_mem (by decide)
  have hclose : Quotes "\n  \x7d".toList [] := quotes_of_not_mem (by decide)
  have hsep : '"' ∉ ",\n".toList := by decide
  have hall := (hopen.append (quotes_intercalate hsep hmembers)).append hclose
  rw [List.nil_append, List.append_nil] at hall
  rw [dumpsEntry, String.toList_append, String.toList_append]
  exact hall

theorem quotes_fileText (entries : List Entry) : Quotes (dumps entries ++ "\n").toList
    (entries.flatMap fun entry => entry.toMapping.flatMap memberTexts) := by
  cases entries with
  | nil => exact quotes_of_not_mem (by decide)
  | cons entry entries =>
    have hopen : Quotes "[\n".toList [] := quotes_of_not_mem (by decide)
    have hclose : Quotes "\n]\n".toList [] := quotes_of_not_mem (by decide)
    have hsep : '"' ∉ ",\n".toList := by decide
    have hentries := quotes_intercalate hsep fun e (_ : e ∈ entry :: entries) => quotes_dumpsEntry e
    have hall := (hopen.append hentries).append hclose
    rw [List.nil_append, List.append_nil] at hall
    have hchars : (dumps (entry :: entries) ++ "\n").toList = "[\n".toList ++
        (String.intercalate ",\n" ((entry :: entries).map dumpsEntry)).toList ++
        "\n]\n".toList := by
      simp [dumps]
    rw [hchars]
    exact hall

theorem mappingsOf_texts (entries : List Entry) :
    mappingsOf (entries.flatMap fun entry => entry.toMapping.flatMap memberTexts) =
      entries.map Entry.toMapping := by
  induction entries with
  | nil => rfl
  | cons entry entries ih =>
    rw [List.flatMap_cons, List.map_cons, ← ih]
    rfl

/-- That reader gives back what was written. -/
theorem quoteReader_readsBack : ReadsBack quoteReader := by
  intro entries
  have htexts := quotes_fileText entries []
  rw [List.append_nil] at htexts
  show (match fromUtf8 (fileText entries) with
    | none => _
    | some s => _) = _
  rw [fileText, fromUtf8_utf8]
  show Except.ok (Tree.array ((mappingsOf (quoted ((dumps entries ++ "\n").toList.splitOn '"'))).map
    Tree.object)) = _
  rw [htexts]
  show Except.ok (Tree.array ((mappingsOf (_ ++ [])).map Tree.object)) = _
  rw [List.append_nil, mappingsOf_texts]
  rfl

/-- An entry of one digit. -/
def sampleEntry (digit : Char) (h : digit ∈ "0123456789abcdef".toList) : Entry :=
  let digest (n : Nat) : Digest n :=
    ⟨String.ofList (List.replicate n digit), by
      rw [isDigest, Bool.and_eq_true, isHexText_iff, String.toList_ofList]
      refine ⟨by simp, fun c hc => ?_⟩
      rw [List.eq_of_mem_replicate hc]
      exact h⟩
  ⟨digest 96, digest 96, digest 96, digest 96, digest 64, digest 64⟩

def oldEntry : Entry := sampleEntry 'a' (by decide)

def newEntry : Entry := sampleEntry 'b' (by decide)

theorem oldEntry_ne_newEntry : oldEntry ≠ newEntry := by
  intro h
  have htext := congrArg (fun entry => entry.osImageHash.text.toList.head?) h
  rw [oldEntry, newEntry, sampleEntry, sampleEntry] at htext
  simp at htext

/-- The old measurement is pinned. -/
def pinOld : Call := { newEntry := .object oldEntry.toMapping }

/-- The old measurement is retired for the new one. -/
def pinNew : Call :=
  { newEntry := .object newEntry.toMapping, retire := [.object oldEntry.toMapping] }

theorem spells_toMapping (entry : Entry) : Spells asciiLower entry (.object entry.toMapping) :=
  ⟨entry.toMapping, rfl, matches_toMapping asciiLower_lowersAscii entry⟩

/-- A call with a well-formed entry, on an allowlist or no file, returns. -/
theorem rotate_returns {call : Call} {file : Option Bytes}
    (hpinned : ∃ pinned, Spells asciiLower pinned call.newEntry)
    (hretire : ∀ r ∈ call.retire, ∃ item, Spells asciiLower item r ∧
      ¬ Spells asciiLower item call.newEntry)
    (hexisting : ∃ existing,
      readExisting quoteReader asciiLower "allowlist.json" file = .ok existing)
    (hwrite : call.writeError = none) :
    ∃ entries, (rotate quoteReader asciiLower "allowlist.json" call file).1 = .ok entries := by
  obtain ⟨result, file', hrun⟩ := (atomicRotateAllowlist_returns_iff asciiLower_lowersAscii).mpr
    ⟨hpinned, hretire, hexisting, hwrite⟩
  refine ⟨result, ?_⟩
  rw [rotate, hrun]
  rfl

theorem pinOld_returns : ∃ entries,
    (rotate quoteReader asciiLower "allowlist.json" pinOld none).1 = .ok entries :=
  rotate_returns ⟨oldEntry, spells_toMapping oldEntry⟩ (fun _ h => absurd h List.not_mem_nil)
    ⟨[], rfl⟩ rfl

theorem pinNew_returns {file : Option Bytes} {entries : List Entry}
    (hload : loadAllowlist quoteReader asciiLower "allowlist.json" file = .ok entries) :
    ∃ entries, (rotate quoteReader asciiLower "allowlist.json" pinNew file).1 = .ok entries := by
  refine rotate_returns ⟨newEntry, spells_toMapping newEntry⟩ ?_
    ⟨entries, readExisting_of_load hload⟩ rfl
  intro r hr
  rw [List.mem_singleton.mp hr]
  exact ⟨oldEntry, spells_toMapping oldEntry, fun h =>
    oldEntry_ne_newEntry (h.unique (spells_toMapping newEntry))⟩

/-- After that history the old measurement is not accepted. -/
theorem rotation_history_safe_sample :
    ¬ Accepts quoteReader asciiLower "allowlist.json"
      (History.final (rotate quoteReader asciiLower "allowlist.json") [pinOld, pinNew] none)
      oldEntry.toMapping := by
  intro haccepts
  have hsafe := @rotation_history_safe quoteReader asciiLower "allowlist.json"
    quoteReader_readsBack asciiLower_lowersAscii [pinOld, pinNew] none
  have htrace := trace_two (rotate quoteReader asciiLower "allowlist.json") pinOld pinNew none
  obtain ⟨entries, hfirst⟩ := pinOld_returns
  rw [htrace] at hsafe
  have hload := (hsafe.1 _ List.mem_cons_self).loads entries
  dsimp only at hload
  have hsecond := pinNew_returns (hload hfirst)
  have hretired : Tree.object oldEntry.toMapping ∈ pinNew.retire := List.mem_singleton_self _
  have hlater := hsafe.2 [_] _ [] rfl
  dsimp only [Succeeded] at hlater
  obtain ⟨event, hmem, -⟩ := hlater hsecond _ hretired oldEntry (spells_toMapping oldEntry) _
    (matches_toMapping asciiLower_lowersAscii oldEntry) haccepts
  exact absurd hmem List.not_mem_nil

end Basecrawl.Image.Rotation
