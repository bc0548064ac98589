/-
  The replay of RTMR3 from an event log.

  The log lists the events of all measurement registers.  `IsRuntimeEvent` says what an event of
  register 3 has to be, `BootSequence` what they have to be together, and neither mentions the
  events of another register.

  1. **Replay** — one pass over the log: each event of register 3 is read, checked against the
     digest it is logged with, and recorded; the checks on the whole sequence come last.
  2. **One event** — what is read is a runtime event, and every runtime event is read.
  3. **The pass** — the state after it, in terms of the recorded events alone.  The last payload of
     a name wins; in the boot sequence no name occurs twice, so that it is the payload of that name.
-/
import Basecrawl.Image.Allowlist
import Basecrawl.Lib.LittleEndian
import Basecrawl.Lib.PyJson

namespace Basecrawl.Image.Rtmr3

open Text Hex Outcome Panic PyText Json PyJson LittleEndian Allowlist

/-! ## Replay -/

def dstackRuntimeEventType : Nat := 0x08000001

def rtmr3Index : Nat := 3

def registerBytes : Nat := 48

def expectedRuntimeEvents : List String :=
  ["system-preparing", "app-id", "compose-hash", "instance-id", "boot-mr-done", "mr-kms",
    "os-image-hash", "key-provider", "storage-fs", "system-ready"]

/-- `hashlib.sha384(_).digest()`. -/
abbrev Sha384 := Bytes → Vector UInt8 48

def runtimeEventDigest (sha384 : Sha384) (name : String) (payload : Bytes) : Vector UInt8 48 :=
  sha384 (leBytes 4 dstackRuntimeEventType ++ utf8 ":" ++ utf8 name ++ utf8 ":" ++ payload)

/-- The end of `_key_provider_payload_is_valid`. -/
def namesKms : Tree → Bool
  | .object value =>
      value.lookup "name" == some (.string "kms") &&
        (((value.lookup "id").bind Tree.asStr).any fun id => id != "")
  | _ => false

/-- `_key_provider_payload_is_valid`; what is no `ValueError` is raised. -/
def keyProviderPayloadIsValid (json : JsonReader) (payloadHex : String) : AllowlistResult Bool :=
  match fromHex payloadHex with
  | none => .ok false
  | some payload =>
      match json.loads payload with
      | .ok value => .ok (namesKms value)
      | .error (.err _) => .ok false
      | .error .panic => .error .panic

/-- The variables of the loop. -/
structure ReplayState where
  register : Vector UInt8 48
  composeHash : Option String
  keyProvider : Option String
  runtimeEvents : List String

def ReplayState.initial : ReplayState where
  register := Vector.replicate registerBytes 0
  composeHash := none
  keyProvider := none
  runtimeEvents := []

/-- The event, if it is one of register 3. -/
def asImr3 (event : Tree) : Option Mapping :=
  (asMapping event).filter fun event => (event.lookup "imr").any fun imr => eqNat imr rtmr3Index

/-- `event.get(key, "")`, if it is a string. -/
def textOr (event : Mapping) (key : String) : Option String :=
  ((event.lookup key).getD (.string "")).asStr

/-- The checks of one round of the loop, on an event of register 3. -/
def readEvent (sha384 : Sha384) (event : Mapping) (index : Nat) :
    AllowlistResult (String × Bytes) := do
  let label := "RTMR3 event " ++ toString index
  let name ← okOr (textOr event "event") (allowlistError (label ++ " is malformed"))
  let payloadHex ← okOr (textOr event "event_payload") (allowlistError (label ++ " is malformed"))
  let loggedHex ← okOr ((event.lookup "digest").bind Tree.asStr)
    (allowlistError (label ++ " is malformed"))
  let payload ← okOr (fromHex payloadHex) (allowlistError (label ++ " is not hex"))
  let logged ← okOr (fromHex loggedHex) (allowlistError (label ++ " is not hex"))
  require (logged.length == registerBytes) (allowlistError (label ++ " digest is not SHA-384"))
  require ((event.lookup "event_type").any fun type => eqNat type dstackRuntimeEventType)
    (allowlistError (label ++ " has an unsupported event type"))
  require ((runtimeEventDigest sha384 name payload).toList == logged)
    (allowlistError (label ++ " digest mismatch"))
  return (name, payload)

/-- One round of the loop up to the fold: `none` for an event it continues past. -/
def readRound (sha384 : Sha384) (round : Tree × Nat) :
    AllowlistResult (Option (String × Bytes)) :=
  match asImr3 round.1 with
  | none => .ok none
  | some event => do return some (← readEvent sha384 event round.2)

/-- `register = hashlib.sha384(register + digest).digest()`. -/
def extend (sha384 : Sha384) (register : Vector UInt8 48) (event : String × Bytes) :
    Vector UInt8 48 :=
  sha384 (register.toList ++ (runtimeEventDigest sha384 event.1 event.2).toList)

/-- The rest of the round. -/
def record (sha384 : Sha384) (state : ReplayState) (event : String × Bytes) : ReplayState where
  register := extend sha384 state.register event
  composeHash :=
    if event.1 = "compose-hash" then some (hexEncode event.2) else state.composeHash
  keyProvider :=
    if event.1 = "key-provider" then some (hexEncode event.2) else state.keyProvider
  runtimeEvents := state.runtimeEvents ++ [event.1]

def recordRound (sha384 : Sha384) (state : ReplayState) (event : Option (String × Bytes)) :
    ReplayState :=
  event.elim state (record sha384 state)

/-- What a replay returns. -/
structure Replay where
  rtmr3 : String
  composeHash : Option String
  keyProvider : Option String
deriving DecidableEq

/-- The checks after the loop, and what is returned. -/
def ReplayState.finish (json : JsonReader) (state : ReplayState) : AllowlistResult Replay := do
  require (state.runtimeEvents == [] || state.runtimeEvents == expectedRuntimeEvents)
    (allowlistError "RTMR3 event sequence is not the expected boot sequence")
  require (state.composeHash.all fun composeHash => isDigest 64 composeHash)
    (allowlistError "compose-hash event is not a SHA-256 digest")
  let valid ← state.keyProvider.elim (.ok false) (keyProviderPayloadIsValid json)
  require valid (allowlistError "key-provider event is missing")
  return {
    rtmr3 := hexEncode state.register.toList
    composeHash := state.composeHash
    keyProvider := state.keyProvider }

/-- `replay_rtmr3`. -/
def replayRtmr3 (sha384 : Sha384) (json : JsonReader) (eventLog : List Tree) :
    AllowlistResult Replay := do
  let state ← eventLog.zipIdx.foldlM
    (fun state round => do return recordRound sha384 state (← readRound sha384 round))
    ReplayState.initial
  state.finish json

/-! ## The boot sequence -/

/-- The events of register 3. -/
def imr3Events (eventLog : List Tree) : List Mapping := eventLog.filterMap asImr3

/-- The event records this name and payload, in hex, with the digest of the two. -/
structure IsRuntimeEvent (sha384 : Sha384) (event : Mapping) (runtime : String × Bytes) :
    Prop where
  name : textOr event "event" = some runtime.1
  payload : (textOr event "event_payload").bind fromHex = some runtime.2
  eventType : (event.lookup "event_type").any (fun type => eqNat type dstackRuntimeEventType) = true
  digest : ((event.lookup "digest").bind Tree.asStr).bind fromHex =
    some (runtimeEventDigest sha384 runtime.1 runtime.2).toList

/-- The events are those of the boot, in order; the compose hash is of the width of a digest and
the key provider is a KMS with an identity. -/
structure BootSequence (json : JsonReader) (runtime : List (String × Bytes)) : Prop where
  names : runtime.map Prod.fst = expectedRuntimeEvents
  composeHash : ∃ payload, runtime.lookup "compose-hash" = some payload ∧ payload.length = 32
  keyProvider : ∃ payload, runtime.lookup "key-provider" = some payload ∧
    ∃ value id, json.loads payload = .ok (.object value) ∧
      value.lookup "name" = some (.string "kms") ∧ value.lookup "id" = some (.string id) ∧ id ≠ ""

/-- The register is extended with the digest of each event, from zero. -/
def replayOf (sha384 : Sha384) (runtime : List (String × Bytes)) : Replay where
  rtmr3 := hexEncode
    (runtime.foldl (extend sha384) (Vector.replicate registerBytes 0)).toList
  composeHash := (runtime.lookup "compose-hash").map hexEncode
  keyProvider := (runtime.lookup "key-provider").map hexEncode

/-! ## One event -/

variable {sha384 : Sha384} {json : JsonReader}

theorem readEvent_eq_ok {event : Mapping} {index : Nat} {runtime : String × Bytes} :
    readEvent sha384 event index = .ok runtime ↔ IsRuntimeEvent sha384 event runtime := by
  obtain ⟨name, payload⟩ := runtime
  simp only [readEvent, bind_eq_ok, okOr_eq_ok, require_eq_ok, beq_iff_eq]
  constructor
  · rintro ⟨_, hname, payloadHex, hpayload, loggedHex, hlogged, _, hhex, _, hhex', -, -, -, htype,
      -, hdigest, h⟩
    cases h
    subst hdigest
    refine ⟨hname, ?_, htype, ?_⟩
    · rw [hpayload]
      exact hhex
    · rw [hlogged]
      exact hhex'
  · rintro ⟨hname, hpayload, htype, hdigest⟩
    obtain ⟨payloadHex, hpayload, hhex⟩ := Option.bind_eq_some_iff.mp hpayload
    obtain ⟨loggedHex, hlogged, hhex'⟩ := Option.bind_eq_some_iff.mp hdigest
    refine ⟨name, hname, payloadHex, hpayload, loggedHex, hlogged, payload, hhex, _, hhex', (), ?_,
      (), htype, (), rfl, rfl⟩
    rw [Vector.length_toList]
    rfl

/-- An event of another register is passed over. -/
theorem readRound_of_none {event : Tree} {index : Nat} (h : asImr3 event = none) :
    readRound sha384 (event, index) = .ok none := by
  simp only [readRound, h]

theorem readRound_of_some {event : Tree} {mapping : Mapping} {index : Nat}
    {read : Option (String × Bytes)} (h : asImr3 event = some mapping) :
    readRound sha384 (event, index) = .ok read ↔
      ∃ runtime, IsRuntimeEvent sha384 mapping runtime ∧ some runtime = read := by
  simp only [readRound, h, bind_eq_ok, readEvent_eq_ok]
  constructor
  · rintro ⟨runtime, hruntime, hread⟩
    exact ⟨runtime, hruntime, Except.ok.inj hread⟩
  · rintro ⟨runtime, hruntime, hread⟩
    exact ⟨runtime, hruntime, congrArg Except.ok hread⟩

/-- `_key_provider_payload_is_valid` of `payload.hex()`. -/
theorem keyProviderPayloadIsValid_eq_ok {payload : Bytes} :
    keyProviderPayloadIsValid json (hexEncode payload) = .ok true ↔
      ∃ value id, json.loads payload = .ok (.object value) ∧
        value.lookup "name" = some (.string "kms") ∧ value.lookup "id" = some (.string id) ∧
        id ≠ "" := by
  rw [keyProviderPayloadIsValid, fromHex_hexEncode]
  show (match json.loads payload with
    | .ok value => .ok (namesKms value)
    | .error (.err _) => .ok false
    | .error .panic => .error .panic : AllowlistResult Bool) = .ok true ↔ _
  cases hloads : json.loads payload with
  | error e => cases e <;> simp
  | ok value =>
    cases value with
    | object value =>
      simp only [namesKms, Except.ok.injEq, Bool.and_eq_true, beq_iff_eq, Option.any_eq_true,
        asStr_bind_eq_some, bne_iff_ne, Tree.object.injEq]
      constructor
      · rintro ⟨hname, id, hid, hne⟩
        exact ⟨value, id, rfl, hname, hid, hne⟩
      · rintro ⟨_, id, rfl, hname, hid, hne⟩
        exact ⟨hname, id, hid, hne⟩
    | _ => simp [namesKms]

/-! ## The pass -/

/-- What the rounds read of a log is its events of register 3. -/
theorem forall₂_readRound {runtime : List (String × Bytes)} {eventLog : List Tree} {start : Nat} :
    (∃ reads, List.Forall₂ (fun round read => readRound sha384 round = .ok read)
        (eventLog.zipIdx start) reads ∧ reads.filterMap id = runtime) ↔
      List.Forall₂ (IsRuntimeEvent sha384) (imr3Events eventLog) runtime := by
  induction eventLog generalizing start runtime with
  | nil => simp [imr3Events, eq_comm]
  | cons event eventLog ih =>
    rw [List.zipIdx_cons]
    cases himr : asImr3 event with
    | none =>
      rw [imr3Events, List.filterMap_cons_none himr, ← imr3Events, ← ih]
      constructor
      · rintro ⟨_, hreads, rfl⟩
        cases hreads with
        | @cons _ read _ reads hread hreads =>
          rw [readRound_of_none himr] at hread
          cases hread
          exact ⟨reads, hreads, rfl⟩
      · rintro ⟨reads, hreads, hruntime⟩
        exact ⟨none :: reads, .cons (readRound_of_none himr) hreads, hruntime⟩
    | some mapping =>
      rw [imr3Events, List.filterMap_cons_some himr, ← imr3Events]
      constructor
      · rintro ⟨_, hreads, rfl⟩
        cases hreads with
        | @cons _ read _ reads hread hreads =>
          obtain ⟨first, hfirst, rfl⟩ := (readRound_of_some himr).mp hread
          exact .cons hfirst (ih.mp ⟨reads, hreads, rfl⟩)
      · intro hruntime
        cases hruntime with
        | @cons _ first _ runtime hfirst hruntime =>
          obtain ⟨reads, hreads, rfl⟩ := ih.mpr hruntime
          exact ⟨some first :: reads,
            .cons ((readRound_of_some himr).mpr ⟨first, hfirst, rfl⟩) hreads, rfl⟩

/-- Passing over an event leaves the state. -/
theorem foldl_recordRound (state : ReplayState) (reads : List (Option (String × Bytes))) :
    reads.foldl (recordRound sha384) state = (reads.filterMap id).foldl (record sha384) state := by
  induction reads generalizing state with
  | nil => rfl
  | cons read reads ih =>
    cases read with
    | none => exact ih state
    | some event => exact ih (record sha384 state event)

/-- The loop ends in the state of the recorded events. -/
theorem pass_eq_ok {eventLog : List Tree} {state : ReplayState} :
    eventLog.zipIdx.foldlM
        (fun state round => do return recordRound sha384 state (← readRound sha384 round))
        ReplayState.initial = .ok state ↔
      ∃ runtime, List.Forall₂ (IsRuntimeEvent sha384) (imr3Events eventLog) runtime ∧
        runtime.foldl (record sha384) ReplayState.initial = state := by
  rw [foldlM_eq_ok]
  constructor
  · rintro ⟨reads, hreads, rfl⟩
    exact ⟨_, forall₂_readRound.mp ⟨reads, hreads, rfl⟩, (foldl_recordRound _ reads).symm⟩
  · rintro ⟨runtime, hruntime, rfl⟩
    obtain ⟨reads, hreads, rfl⟩ := forall₂_readRound.mpr hruntime
    exact ⟨reads, hreads, foldl_recordRound _ reads⟩

@[simp] theorem foldl_record_register (state : ReplayState) (runtime : List (String × Bytes)) :
    (runtime.foldl (record sha384) state).register =
      runtime.foldl (extend sha384) state.register := by
  induction runtime generalizing state with
  | nil => rfl
  | cons event runtime ih => exact ih (record sha384 state event)

@[simp] theorem foldl_record_runtimeEvents (state : ReplayState)
    (runtime : List (String × Bytes)) :
    (runtime.foldl (record sha384) state).runtimeEvents =
      state.runtimeEvents ++ runtime.map Prod.fst := by
  induction runtime generalizing state with
  | nil => simp
  | cons event runtime ih =>
    rw [List.foldl_cons, ih]
    simp [record]

/-- Where no name occurs twice, the payload that is kept is the one of its name. -/
theorem foldl_keep (sha384 : Sha384) (keep : ReplayState → Option String) {kept : String}
    (hkeep : ∀ state event, keep (record sha384 state event) =
      if event.1 = kept then some (hexEncode event.2) else keep state)
    (state : ReplayState) (runtime : List (String × Bytes))
    (hnodup : (runtime.map Prod.fst).Nodup) :
    keep (runtime.foldl (record sha384) state) =
      ((runtime.lookup kept).map hexEncode).or (keep state) := by
  induction runtime generalizing state with
  | nil => rfl
  | cons event runtime ih =>
    obtain ⟨hnew, hnodup⟩ := List.nodup_cons.mp hnodup
    rw [List.foldl_cons, ih _ hnodup, hkeep]
    by_cases hname : event.1 = kept
    · subst hname
      have hnone : runtime.lookup event.1 = none := by
        rw [List.lookup_eq_none_iff]
        intro other hother
        rw [bne_iff_ne]
        intro hsame
        exact hnew (hsame ▸ List.mem_map_of_mem hother)
      rw [hnone, List.lookup_cons_self, if_pos rfl]
      rfl
    · have hne : (kept == event.1) = false := beq_eq_false_iff_ne.mpr (Ne.symm hname)
      rw [List.lookup_cons, hne, if_neg hname]

/-- The state after a pass over events of distinct names. -/
theorem foldl_record_initial (sha384 : Sha384) {runtime : List (String × Bytes)}
    (hnodup : (runtime.map Prod.fst).Nodup) :
    (runtime.foldl (record sha384) ReplayState.initial).composeHash =
        (runtime.lookup "compose-hash").map hexEncode ∧
      (runtime.foldl (record sha384) ReplayState.initial).keyProvider =
        (runtime.lookup "key-provider").map hexEncode := by
  have hcompose := foldl_keep sha384 ReplayState.composeHash
    (fun _ _ => rfl) ReplayState.initial runtime hnodup
  have hprovider := foldl_keep sha384 ReplayState.keyProvider
    (fun _ _ => rfl) ReplayState.initial runtime hnodup
  rw [hcompose, hprovider]
  exact ⟨Option.or_none, Option.or_none⟩

theorem expectedRuntimeEvents_nodup : expectedRuntimeEvents.Nodup := by decide

theorem finish_iff {state : ReplayState} {replay : Replay} :
    state.finish json = .ok replay ↔
      ((state.runtimeEvents = [] ∨ state.runtimeEvents = expectedRuntimeEvents) ∧
        (∀ composeHash, state.composeHash = some composeHash → isDigest 64 composeHash = true) ∧
        ∃ keyProvider, state.keyProvider = some keyProvider ∧
          keyProviderPayloadIsValid json keyProvider = .ok true) ∧
      replay = ⟨hexEncode state.register.toList, state.composeHash, state.keyProvider⟩ := by
  have hcompose : (state.composeHash.all fun composeHash => isDigest 64 composeHash) = true ↔
      ∀ composeHash, state.composeHash = some composeHash → isDigest 64 composeHash = true := by
    cases state.composeHash <;> simp
  have hprovider : ∀ valid, state.keyProvider.elim (.ok false)
      (keyProviderPayloadIsValid json) = .ok valid ∧ valid = true ↔
      valid = true ∧ ∃ keyProvider, state.keyProvider = some keyProvider ∧
        keyProviderPayloadIsValid json keyProvider = .ok true := by
    intro valid
    cases state.keyProvider with
    | none => cases valid <;> simp
    | some keyProvider => cases valid <;> simp
  simp only [ReplayState.finish, bind_eq_ok, require_eq_ok, Bool.or_eq_true, beq_iff_eq, hcompose]
  constructor
  · rintro ⟨-, hevents, -, hwidth, valid, helim, -, hvalid, h⟩
    cases h
    exact ⟨⟨hevents, hwidth, ((hprovider valid).mp ⟨helim, hvalid⟩).2⟩, rfl⟩
  · rintro ⟨⟨hevents, hwidth, hkms⟩, rfl⟩
    obtain ⟨helim, hvalid⟩ := (hprovider true).mpr ⟨rfl, hkms⟩
    exact ⟨(), hevents, (), hwidth, true, helim, (), hvalid, rfl⟩

/-- A name of the sequence has a payload. -/
theorem exists_lookup {runtime : List (String × Bytes)} {name : String}
    (h : name ∈ runtime.map Prod.fst) : ∃ payload, runtime.lookup name = some payload := by
  obtain ⟨event, hevent, hname⟩ := List.mem_map.mp h
  have hsome : (runtime.lookup name).isSome = true :=
    List.lookup_isSome_iff.mpr ⟨event, hevent, beq_iff_eq.mpr hname.symm⟩
  exact Option.isSome_iff_exists.mp hsome

/-- The recorded events pass the checks after the loop exactly when they are the boot sequence. -/
theorem finish_foldl_record {runtime : List (String × Bytes)} {replay : Replay} :
    (runtime.foldl (record sha384) ReplayState.initial).finish json = .ok replay ↔
      BootSequence json runtime ∧ replay = replayOf sha384 runtime := by
  have hevents : (runtime.foldl (record sha384) ReplayState.initial).runtimeEvents =
      runtime.map Prod.fst := by
    rw [foldl_record_runtimeEvents]
    rfl
  rw [finish_iff, hevents, foldl_record_register]
  constructor
  · rintro ⟨⟨hnames, hwidth, keyProvider, hkms, hvalid⟩, rfl⟩
    have hnodup : (runtime.map Prod.fst).Nodup := by
      rcases hnames with hnames | hnames
      · exact hnames ▸ List.nodup_nil
      · exact hnames ▸ expectedRuntimeEvents_nodup
    obtain ⟨hcompose, hprovider⟩ := foldl_record_initial sha384 hnodup
    rw [hcompose] at hwidth ⊢
    rw [hprovider] at hkms ⊢
    obtain ⟨payload, hlookup, rfl⟩ := Option.map_eq_some_iff.mp hkms
    -- without any event there would be no key provider
    have hnames : runtime.map Prod.fst = expectedRuntimeEvents := by
      rcases hnames with hnames | hnames
      · rw [List.map_eq_nil_iff.mp hnames] at hlookup
        cases hlookup
      · exact hnames
    refine ⟨⟨hnames, ?_, payload, hlookup, keyProviderPayloadIsValid_eq_ok.mp hvalid⟩, rfl⟩
    have hmem : "compose-hash" ∈ runtime.map Prod.fst := by
      rw [hnames]
      decide
    obtain ⟨hash, hhash⟩ := exists_lookup hmem
    exact ⟨hash, hhash, isDigest_hexEncode.mp (hwidth _ (congrArg (Option.map hexEncode) hhash))⟩
  · rintro ⟨⟨hnames, ⟨hash, hhash, hlen⟩, payload, hlookup, hkms⟩, rfl⟩
    have hnodup : (runtime.map Prod.fst).Nodup := hnames ▸ expectedRuntimeEvents_nodup
    obtain ⟨hcompose, hprovider⟩ := foldl_record_initial sha384 hnodup
    rw [hcompose, hprovider, hhash, hlookup]
    refine ⟨⟨.inr hnames, ?_, hexEncode payload, rfl, keyProviderPayloadIsValid_eq_ok.mpr hkms⟩, ?_⟩
    · rintro composeHash ⟨⟩
      exact isDigest_hexEncode.mpr hlen
    · rw [replayOf, hhash, hlookup]
      rfl

/-- A replay returns exactly when the events of register 3 are the boot sequence, and then what
they say; the events of other registers do not influence it. -/
theorem replayRtmr3_eq_ok (sha384 : Sha384) (json : JsonReader) (eventLog : List Tree) :
    (∀ replay, replayRtmr3 sha384 json eventLog = .ok replay ↔
      ∃ runtime, List.Forall₂ (IsRuntimeEvent sha384) (imr3Events eventLog) runtime ∧
        BootSequence json runtime ∧ replay = replayOf sha384 runtime) ∧
    ∀ other, imr3Events other = imr3Events eventLog → ∀ replay,
      replayRtmr3 sha384 json other = .ok replay ↔
        replayRtmr3 sha384 json eventLog = .ok replay := by
  have hreplay : ∀ eventLog replay, replayRtmr3 sha384 json eventLog = .ok replay ↔
      ∃ runtime, List.Forall₂ (IsRuntimeEvent sha384) (imr3Events eventLog) runtime ∧
        BootSequence json runtime ∧ replay = replayOf sha384 runtime := by
    intro eventLog replay
    simp only [replayRtmr3, bind_eq_ok, pass_eq_ok]
    constructor
    · rintro ⟨_, ⟨runtime, hruntime, rfl⟩, hfinish⟩
      exact ⟨runtime, hruntime, finish_foldl_record.mp hfinish⟩
    · rintro ⟨runtime, hruntime, hboot⟩
      exact ⟨_, ⟨runtime, hruntime, rfl⟩, finish_foldl_record.mpr hboot⟩
  constructor
  · exact hreplay eventLog
  · intro other hsame replay
    rw [hreplay, hreplay, hsame]

example : replayRtmr3 sha384 json [.null] =
    .error (allowlistError "key-provider event is missing") := rfl

end Basecrawl.Image.Rtmr3
