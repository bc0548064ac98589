/-
  The text of an office package, within bounds.

  The ZIP reader is outside: a member has the size its directory entry declares and the content it
  decompresses to, which need not agree, and either can fail to be read.

  1. **Program** — `inspect` adds up the declared sizes, `extractParts` reads and parses the text
     parts; `Work` keeps the two counters and a log of what was decompressed and parsed.
  2. **Adding (`addCappedBytes_cases`)** — an addition is made in full or not at all.
  3. **The invariant (`Inv`)** — what was parsed has been paid for by the second counter, and no part
     of it is over the cap; `extractPart_turn` is one turn of the loop, `extractParts_inv` the run.
  4. **Bounds (`extractOffice_bounded`)** — for every package, whatever it declares.
-/
import Mathlib.Algebra.Group.Nat.Defs
import Basecrawl.Core.XmlText
import Basecrawl.Lib.Run

namespace Basecrawl.Core.OfficePackage

open Text Chars Run Outcome

/-! ## Program -/

def maxOfficePartBytes : UInt64 := 4 * 1024 * 1024

def maxOfficeTextBytes : Nat := 4 * 1024 * 1024

def maxOfficeArchiveEntries : Nat := 10000

def maxOfficeArchiveBytes : UInt64 := 16 * 1024 * 1024

def maxOfficeTextParts : Nat := 256

/-- A member of the archive: its directory entry, its decompressed bytes, and where reading it goes
    wrong. -/
structure Member where
  name : String
  size : UInt64
  inspectFailure : Option String
  openFailure : Option String
  content : Bytes
  readFailure : Option String

/-- What is outside: the XML reader, and the texts of UTF-8 errors. -/
structure OfficeLib where
  read : String → OfficeReading
  utf8Error : Bytes → String

inductive Event where
  | decompressed (bytes : Bytes)
  | parsed (bytes : Bytes)

structure Work where
  archiveBytes : UInt64
  parserWorkBytes : UInt64
  log : List Event

abbrev Office (α : Type) := EStateM String Work α

def failWith (failure : Option String) (context : String) : Except String Unit :=
  match failure with
  | some e => .error (context ++ e)
  | none => .ok ()

def record (event : Event) : Office Unit := update fun work => { work with log := work.log ++ [event] }

/-- `u64::checked_add`. -/
def checkedAdd (a b : UInt64) : Option UInt64 :=
  if a.toNat + b.toNat < UInt64.size then some (a + b) else none

/-- `add_capped_bytes`, on the total. -/
def addCappedBytes (addition limit : UInt64) (subject : String) : EStateM String UInt64 Unit := do
  let total ← get
  let updated ← ofResult (okOr (checkedAdd total addition) (subject ++ " byte accounting overflow"))
  ofResult (require (updated ≤ limit)
    (subject ++ " exceeds " ++ Nat.repr limit.toNat ++ "-byte cumulative uncompressed limit"))
  set updated

/-- A counter of the work. -/
def onCounter (counter : Work → UInt64) (store : UInt64 → Work → Work)
    (x : EStateM String UInt64 Unit) : Office Unit := fun work =>
  match x (counter work) with
  | .ok _ total => .ok () (store total work)
  | .error e total => .error e (store total work)

def onArchive : EStateM String UInt64 Unit → Office Unit :=
  onCounter Work.archiveBytes fun total work => { work with archiveBytes := total }

def onParser : EStateM String UInt64 Unit → Office Unit :=
  onCounter Work.parserWorkBytes fun total work => { work with parserWorkBytes := total }

def isTextPart (name : String) : Bool :=
  name == "word/document.xml" || name == "content.xml" || name == "xl/sharedStrings.xml" ||
    ("word/".toList.isPrefixOf name.toList && ((split name '/').getLast?).any fun part =>
      "header".toList.isPrefixOf part.toList || "footer".toList.isPrefixOf part.toList ||
        part == "footnotes.xml" || part == "endnotes.xml" || part == "comments.xml") ||
    ("ppt/slides/".toList.isPrefixOf name.toList && ".xml".toList.isSuffixOf name.toList) ||
    ("xl/worksheets/".toList.isPrefixOf name.toList && ".xml".toList.isSuffixOf name.toList)

/-- The first loop: every member is paid for as it declares. -/
def inspect : List Member → List Member → Office (List Member)
  | [], textParts => pure textParts
  | member :: members, textParts => do
    ofResult (failWith member.inspectFailure "could not inspect office package: ")
    onArchive (addCappedBytes member.size maxOfficeArchiveBytes "office package")
    inspect members (if isTextPart member.name then textParts ++ [member] else textParts)

/-- `part.take(limit).read_to_end`: behind the limit nothing is read, nor fails. -/
def readUpTo (part : Member) (limit : Nat) : Except String Bytes :=
  if limit ≤ part.content.length then .ok (part.content.take limit)
  else match part.readFailure with
    | some e => .error e
    | none => .ok part.content

def partTooLarge : String :=
  "office XML part exceeds " ++ Nat.repr maxOfficePartBytes.toNat ++ "-byte limit"

def readCappedPart (part : Member) : Office Bytes := do
  let limit := maxOfficePartBytes.toNat + 1
  record (.decompressed (part.content.take limit))
  let bytes ← ofResult ((readUpTo part limit).mapError ("could not read office XML part: " ++ ·))
  ofResult (require (UInt64.ofNat bytes.length ≤ maxOfficePartBytes) partTooLarge)
  onParser (addCappedBytes (UInt64.ofNat bytes.length) maxOfficeArchiveBytes "office XML parser work")
  return bytes

/-- A part that was read, behind the text so far. -/
def parsePart (lib : OfficeLib) (bytes : Bytes) (extracted : Chars) : Office Chars := do
  let source ← ofResult (okOr (fromUtf8 bytes)
    ("office XML part was not UTF-8: " ++ lib.utf8Error bytes))
  record (.parsed bytes)
  let text ← ofResult (xmlText lib.read source)
  let extracted := appendText extracted text
  ofResult (require ((utf8 (String.ofList extracted)).length ≤ maxOfficeTextBytes)
    ("office document extracted text exceeds " ++ Nat.repr maxOfficeTextBytes ++ "-byte limit"))
  return extracted

/-- One turn of the second loop. -/
def extractPart (lib : OfficeLib) (part : Member) (extracted : Chars) : Office Chars := do
  ofResult (failWith part.openFailure "could not open office XML part: ")
  ofResult (require (part.size ≤ maxOfficePartBytes) partTooLarge)
  let bytes ← readCappedPart part
  parsePart lib bytes extracted

def extractParts (lib : OfficeLib) : List Member → Chars → Office Chars
  | [], extracted => pure extracted
  | part :: parts, extracted => do
    let extracted ← extractPart lib part extracted
    extractParts lib parts extracted

/-- `extract_office`, on what the archive opens to. -/
def extractOffice (lib : OfficeLib) (package : Except String (List Member)) : Office String := do
  let members ← ofResult (package.mapError ("could not open office package: " ++ ·))
  ofResult (require (members.length ≤ maxOfficeArchiveEntries)
    ("office package has more than " ++ Nat.repr maxOfficeArchiveEntries ++ " entries"))
  let textParts ← inspect members []
  ofResult (require (!textParts.isEmpty) "office package contains no recognized text XML parts")
  ofResult (require (textParts.length ≤ maxOfficeTextParts)
    ("office package has more than " ++ Nat.repr maxOfficeTextParts ++ " text parts"))
  let extracted ← extractParts lib textParts []
  let text := normalizeText extracted
  ofResult (require (!text.isEmpty) "office document contains no extractable text")
  return String.ofList text

example : ["word/header1.xml", "ppt/slides/slide1.xml", "word/styles.xml"].map isTextPart =
    [true, true, false] := by decide

/-! ## Adding -/

theorem checkedAdd_eq_some {a b c : UInt64} (h : checkedAdd a b = some c) :
    c.toNat = a.toNat + b.toNat := by
  rw [checkedAdd] at h
  split at h
  · next hfits =>
    cases h
    rw [UInt64.toNat_add]
    exact Nat.mod_eq_of_lt hfits
  · cases h

/-- **An addition is made in full or not at all.** -/
theorem addCappedBytes_cases (addition limit : UInt64) (subject : String) (total : UInt64) :
    (∃ e, addCappedBytes addition limit subject total = .error e total ∧
      limit.toNat < total.toNat + addition.toNat) ∨
    ∃ total', addCappedBytes addition limit subject total = .ok () total' ∧
      total'.toNat = total.toNat + addition.toNat ∧ total'.toNat ≤ limit.toNat := by
  have hrun : addCappedBytes addition limit subject total =
      (ofResult (okOr (checkedAdd total addition) (subject ++ " byte accounting overflow")) >>=
        fun updated => ofResult (require (updated ≤ limit) (subject ++ " exceeds " ++
          Nat.repr limit.toNat ++ "-byte cumulative uncompressed limit")) >>= fun _ => set updated :
        EStateM String UInt64 Unit) total := rfl
  rw [hrun]
  by_cases hroom : total.toNat + addition.toNat ≤ limit.toNat
  · have hfits : total.toNat + addition.toNat < UInt64.size := Nat.lt_of_le_of_lt hroom limit.toNat_lt
    have hadd : checkedAdd total addition = some (total + addition) := if_pos hfits
    have hsum := checkedAdd_eq_some hadd
    have hunder : decide (total + addition ≤ limit) = true :=
      decide_eq_true (UInt64.le_iff_toNat_le.mpr (by omega))
    refine .inr ⟨total + addition, ?_, hsum, by omega⟩
    rw [hadd]
    show (ofResult (require (decide (total + addition ≤ limit)) _) >>= _ :
      EStateM String UInt64 Unit) total = _
    rw [hunder]
    rfl
  · rcases ofResult_bind_cases _ _ total with ⟨e, he⟩ | ⟨updated, hupdated, hnext⟩
    · exact .inl ⟨e, he, Nat.not_le.mp hroom⟩
    rw [hnext]
    rcases ofResult_bind_cases _ _ total with ⟨e, he⟩ | ⟨_, hunder, -⟩
    · exact .inl ⟨e, he, Nat.not_le.mp hroom⟩
    -- the sum is over the limit
    have hsum := checkedAdd_eq_some (okOr_eq_ok.mp hupdated)
    have hle := UInt64.le_iff_toNat_le.mp (of_decide_eq_true (require_eq_ok.mp hunder))
    omega

theorem onCounter_ok {counter : Work → UInt64} {store : UInt64 → Work → Work}
    {x : EStateM String UInt64 Unit} {work : Work} {total : UInt64}
    (h : x (counter work) = .ok () total) :
    onCounter counter store x work = .ok () (store total work) := by
  rw [onCounter, h]

theorem onCounter_error {counter : Work → UInt64} {store : UInt64 → Work → Work}
    {x : EStateM String UInt64 Unit} {work : Work} {total : UInt64} {e : String}
    (h : x (counter work) = .error e total) :
    onCounter counter store x work = .error e (store total work) := by
  rw [onCounter, h]

/-! ## One part -/

variable {lib : OfficeLib} {part : Member} {parts members textParts : List Member} {work : Work}
  {extracted : Chars}

def Event.parsedBytes : Event → Option Bytes
  | .decompressed _ => none
  | .parsed bytes => some bytes

/-- What XML was parsed from, in order. -/
def Work.parsed (work : Work) : List Bytes := work.log.filterMap Event.parsedBytes

def Work.logged (work : Work) (event : Event) : Work := { work with log := work.log ++ [event] }

theorem parsed_decompressed (work : Work) (bytes : Bytes) :
    (work.logged (.decompressed bytes)).parsed = work.parsed := by
  show (work.log ++ [_]).filterMap Event.parsedBytes = _
  rw [List.filterMap_append]
  exact List.append_nil _

theorem parsed_parsed (work : Work) (bytes : Bytes) :
    (work.logged (.parsed bytes)).parsed = work.parsed ++ [bytes] := by
  show (work.log ++ [_]).filterMap Event.parsedBytes = _
  rw [List.filterMap_append]
  rfl

/-- A part that is read is read whole, or up to one byte too many. -/
theorem readUpTo_ok {bytes : Bytes} {limit : Nat} (h : readUpTo part (limit + 1) = .ok bytes)
    (hshort : bytes.length ≤ limit) : bytes = part.content := by
  rw [readUpTo] at h
  split at h
  · next hlong =>
    cases h
    rw [List.length_take] at hshort
    omega
  · split at h
    · cases h
    · cases h
      rfl

theorem readUpTo_length {bytes : Bytes} {limit : Nat} (h : readUpTo part limit = .ok bytes) :
    bytes.length ≤ limit := by
  rw [readUpTo] at h
  split at h
  · cases h
    rw [List.length_take]
    omega
  · next hshort =>
    split at h
    · cases h
    · cases h
      omega

/-- A length near the cap is not wrapped. -/
theorem toNat_length {bytes : Bytes} (h : bytes.length ≤ maxOfficePartBytes.toNat + 1) :
    (UInt64.ofNat bytes.length).toNat = bytes.length := by
  have hmax : maxOfficePartBytes.toNat = 4194304 := rfl
  exact Nat.mod_eq_of_lt (by omega)

/-- **What reading a part comes to**: an error, or the whole content, paid for. -/
theorem readCappedPart_cases (part : Member) (work : Work) :
    (∃ e work', readCappedPart part work = .error e work' ∧ work'.parsed = work.parsed ∧
      work'.parserWorkBytes = work.parserWorkBytes) ∨
    ∃ work', readCappedPart part work = .ok part.content work' ∧ work'.parsed = work.parsed ∧
      part.content.length ≤ maxOfficePartBytes.toNat ∧
      work'.parserWorkBytes.toNat = work.parserWorkBytes.toNat + part.content.length ∧
      work'.parserWorkBytes.toNat ≤ maxOfficeArchiveBytes.toNat := by
  let work' := work.logged (.decompressed (part.content.take (maxOfficePartBytes.toNat + 1)))
  have hsame : work'.parsed = work.parsed := parsed_decompressed work _
  have hrun : readCappedPart part work =
      (ofResult ((readUpTo part (maxOfficePartBytes.toNat + 1)).mapError
        ("could not read office XML part: " ++ ·)) >>= fun bytes =>
          ofResult (require (UInt64.ofNat bytes.length ≤ maxOfficePartBytes) partTooLarge) >>= fun _ =>
            onParser (addCappedBytes (UInt64.ofNat bytes.length) maxOfficeArchiveBytes
              "office XML parser work") >>= fun _ => pure bytes : Office Bytes) work' := rfl
  rw [hrun]
  rcases ofResult_bind_cases _ _ work' with ⟨e, he⟩ | ⟨bytes, hbytes, hnext⟩
  · exact .inl ⟨e, work', he, hsame, rfl⟩
  rw [hnext]
  rcases ofResult_bind_cases _ _ work' with ⟨e, he⟩ | ⟨_, hfits, hnext⟩
  · exact .inl ⟨e, work', he, hsame, rfl⟩
  rw [hnext]
  have hread := mapError_eq_ok.mp hbytes
  have hlength := toNat_length (readUpTo_length hread)
  have hunder := UInt64.le_iff_toNat_le.mp (of_decide_eq_true (require_eq_ok.mp hfits))
  rw [hlength] at hunder
  obtain rfl := readUpTo_ok hread hunder
  rcases addCappedBytes_cases (UInt64.ofNat part.content.length) maxOfficeArchiveBytes
    "office XML parser work" work'.parserWorkBytes with ⟨e, hadd, -⟩ | ⟨total', hadd, hsum, hcap⟩
  · refine .inl ⟨e, work', ?_, hsame, rfl⟩
    exact bind_of_error (fun _ => pure part.content) (onCounter_error hadd)
  · rw [hlength] at hsum
    refine .inr ⟨{ work' with parserWorkBytes := total' }, ?_, hsame, hunder, hsum, hcap⟩
    exact bind_of_ok (fun _ => pure part.content) (onCounter_ok hadd)

/-- What one turn of the loop can do: parse the part, which is then paid for, or not. -/
structure Turn (part : Member) (work work' : Work) : Prop where
  parsed : work'.parsed = work.parsed ∨ work'.parsed = work.parsed ++ [part.content] ∧
    part.content.length ≤ maxOfficePartBytes.toNat ∧
    work.parserWorkBytes.toNat + part.content.length ≤ work'.parserWorkBytes.toNat
  grows : work.parserWorkBytes.toNat ≤ work'.parserWorkBytes.toNat
  capped : work'.parserWorkBytes = work.parserWorkBytes ∨
    work'.parserWorkBytes.toNat ≤ maxOfficeArchiveBytes.toNat

theorem Turn.of_eq {work' : Work} (hparsed : work'.parsed = work.parsed)
    (hpaid : work'.parserWorkBytes = work.parserWorkBytes) : Turn part work work' :=
  ⟨.inl hparsed, Nat.le_of_eq (congrArg UInt64.toNat hpaid.symm), .inl hpaid⟩

/-- What a turn that goes on has found. -/
structure Took (part : Member) (work work' : Work) (text : Chars) : Prop where
  declared : part.size ≤ maxOfficePartBytes
  actual : part.content.length ≤ maxOfficePartBytes.toNat
  parsed : work'.parsed = work.parsed ++ [part.content]
  paid : work'.parserWorkBytes.toNat = work.parserWorkBytes.toNat + part.content.length
  capped : work'.parserWorkBytes.toNat ≤ maxOfficeArchiveBytes.toNat
  text : (utf8 (String.ofList text)).length ≤ maxOfficeTextBytes

/-- **One turn of the loop.** -/
theorem extractPart_cases (lib : OfficeLib) (part : Member) (extracted : Chars) (work : Work) :
    (∃ e work', extractPart lib part extracted work = .error e work' ∧ Turn part work work') ∨
    ∃ text work', extractPart lib part extracted work = .ok text work' ∧ Turn part work work' ∧
      Took part work work' text := by
  unfold extractPart
  rcases ofResult_bind_cases _ _ work with ⟨e, he⟩ | ⟨_, -, hnext⟩
  · exact .inl ⟨e, work, he, .of_eq rfl rfl⟩
  rw [hnext]
  rcases ofResult_bind_cases _ _ work with ⟨e, he⟩ | ⟨_, hsize, hnext⟩
  · exact .inl ⟨e, work, he, .of_eq rfl rfl⟩
  rw [hnext]
  rcases readCappedPart_cases part work with ⟨e, work', hread, hparsed, hpaid⟩ |
    ⟨work', hread, hparsed, hactual, hpaid, hcap⟩
  · exact .inl ⟨e, work', bind_of_error _ hread, .of_eq hparsed hpaid⟩
  rw [bind_of_ok _ hread]
  have hunparsed : Turn part work work' := ⟨.inl hparsed, by omega, .inr hcap⟩
  unfold parsePart
  rcases ofResult_bind_cases _ _ work' with ⟨e, he⟩ | ⟨source, -, hnext⟩
  · exact .inl ⟨e, work', he, hunparsed⟩
  rw [hnext]
  -- the part is parsed from here on
  let work'' := work'.logged (.parsed part.content)
  have hlogged : work''.parsed = work.parsed ++ [part.content] := by
    rw [← hparsed]
    exact parsed_parsed work' part.content
  have hturn : Turn part work work'' :=
    ⟨.inr ⟨hlogged, hactual, Nat.le_of_eq hpaid.symm⟩, hunparsed.grows, .inr hcap⟩
  have hrecord : record (.parsed part.content) work' = .ok () work'' := rfl
  rw [bind_of_ok _ hrecord]
  rcases ofResult_bind_cases _ _ work'' with ⟨e, he⟩ | ⟨text, -, hnext⟩
  · exact .inl ⟨e, work'', he, hturn⟩
  rw [hnext]
  rcases ofResult_bind_cases _ _ work'' with ⟨e, he⟩ | ⟨_, hlong, hnext⟩
  · exact .inl ⟨e, work'', he, hturn⟩
  refine .inr ⟨_, work'', hnext, hturn, ?_⟩
  exact ⟨of_decide_eq_true (require_eq_ok.mp hsize), hactual, hlogged, hpaid, hcap,
    of_decide_eq_true (require_eq_ok.mp hlong)⟩

/-! ## The second loop -/

/-- What was parsed has been paid for, and no part of it is over the cap. -/
structure Inv (work : Work) : Prop where
  paid : work.parsed.flatten.length ≤ work.parserWorkBytes.toNat
  capped : work.parserWorkBytes.toNat ≤ maxOfficeArchiveBytes.toNat
  small : ∀ bytes ∈ work.parsed, bytes.length ≤ maxOfficePartBytes.toNat

theorem Inv.turn {work' : Work} (h : Inv work) (hturn : Turn part work work') : Inv work' := by
  have hcapped : work'.parserWorkBytes.toNat ≤ maxOfficeArchiveBytes.toNat := by
    rcases hturn.capped with hsame | hcap
    · rw [hsame]
      exact h.capped
    · exact hcap
  rcases hturn.parsed with hparsed | ⟨hparsed, hactual, hpaid⟩
  · refine ⟨?_, hcapped, ?_⟩ <;> rw [hparsed]
    · exact Nat.le_trans h.paid hturn.grows
    · exact h.small
  · refine ⟨?_, hcapped, ?_⟩ <;> rw [hparsed]
    · have hbefore := h.paid
      rw [List.flatten_append, List.length_append, List.flatten_singleton]
      omega
    · intro bytes hbytes
      rcases List.mem_append.mp hbytes with hbytes | hbytes
      · exact h.small bytes hbytes
      · rw [List.mem_singleton.mp hbytes]
        exact hactual

theorem Turn.length {work' : Work} (hturn : Turn part work work') :
    work'.parsed.length ≤ work.parsed.length + 1 := by
  rcases hturn.parsed with hparsed | ⟨hparsed, -⟩ <;> rw [hparsed]
  · exact Nat.le_succ _
  · rw [List.length_append]
    rfl

/-- **The loop keeps the invariant**, and parses at most as many parts as there are. -/
theorem extractParts_inv (lib : OfficeLib) : ∀ (parts : List Member) (extracted : Chars) {work : Work},
    Inv work → Inv (final (extractParts lib parts extracted work)) ∧
      (final (extractParts lib parts extracted work)).parsed.length ≤ work.parsed.length + parts.length
  | [], _, _, h => ⟨h, Nat.le_refl _⟩
  | part :: parts, extracted, work, h => by
    rw [extractParts]
    rcases extractPart_cases lib part extracted work with ⟨e, work', hrun, hturn⟩ |
      ⟨text, work', hrun, hturn, -⟩
    · have hlength := hturn.length
      rw [bind_of_error _ hrun, List.length_cons]
      refine ⟨h.turn hturn, ?_⟩
      show work'.parsed.length ≤ _
      omega
    · have hlength := hturn.length
      obtain ⟨hinv, hmore⟩ := extractParts_inv lib parts text (h.turn hturn)
      rw [bind_of_ok _ hrun, List.length_cons]
      exact ⟨hinv, by omega⟩

/-- **A loop that comes to its end** has read every part whole. -/
theorem extractParts_ok (lib : OfficeLib) : ∀ {parts : List Member} {extracted text : Chars}
    {work work' : Work}, extractParts lib parts extracted work = .ok text work' →
      work.parserWorkBytes.toNat ≤ maxOfficeArchiveBytes.toNat →
      (utf8 (String.ofList extracted)).length ≤ maxOfficeTextBytes →
        (∀ part ∈ parts, part.size ≤ maxOfficePartBytes ∧
          part.content.length ≤ maxOfficePartBytes.toNat) ∧
        work'.parsed = work.parsed ++ parts.map Member.content ∧
        work.parserWorkBytes.toNat + (parts.map Member.content).flatten.length ≤
          maxOfficeArchiveBytes.toNat ∧
        (utf8 (String.ofList text)).length ≤ maxOfficeTextBytes
  | [], _, _, _, _, h, hcap, htext => by
    cases h
    exact ⟨List.forall_mem_nil _, (List.append_nil _).symm, hcap, htext⟩
  | part :: parts, extracted, text, work, work', h, _, _ => by
    rw [extractParts] at h
    rcases extractPart_cases lib part extracted work with ⟨e, next, hrun, -⟩ |
      ⟨more, next, hrun, -, htook⟩
    · rw [bind_of_error _ hrun] at h
      cases h
    · rw [bind_of_ok _ hrun] at h
      obtain ⟨hparts, hparsed, hcap, htext⟩ := extractParts_ok lib h htook.capped htook.text
      have hpaid := htook.paid
      refine ⟨List.forall_mem_cons.mpr ⟨⟨htook.declared, htook.actual⟩, hparts⟩, ?_, ?_, htext⟩
      · rw [hparsed, htook.parsed, List.append_assoc]
        rfl
      · rw [List.map_cons, List.flatten_cons, List.length_append]
        omega

/-! ## The first loop -/

/-- What the members declare together. -/
def declaredBytes : List Member → Nat
  | [] => 0
  | member :: members => member.size.toNat + declaredBytes members

/-- The members that text is taken from. -/
def textMembers (members : List Member) : List Member := members.filter fun m => isTextPart m.name

/-- **The first loop** reads no content, and comes to its end only when the members declare few
enough bytes. -/
theorem inspect_cases : ∀ (members textParts : List Member) (work : Work),
    work.archiveBytes.toNat ≤ maxOfficeArchiveBytes.toNat →
    (∃ e work', inspect members textParts work = .error e work' ∧ work'.log = work.log ∧
      work'.parserWorkBytes = work.parserWorkBytes) ∨
    ∃ work', inspect members textParts work = .ok (textParts ++ textMembers members) work' ∧
      work'.log = work.log ∧ work'.parserWorkBytes = work.parserWorkBytes ∧
      work.archiveBytes.toNat + declaredBytes members ≤ maxOfficeArchiveBytes.toNat
  | [], textParts, work, hcap => by
    refine .inr ⟨work, ?_, rfl, rfl, hcap⟩
    show EStateM.Result.ok textParts work = .ok (textParts ++ []) work
    rw [List.append_nil]
  | member :: members, textParts, work, _ => by
    rw [inspect]
    rcases ofResult_bind_cases _ _ work with ⟨e, he⟩ | ⟨_, -, hnext⟩
    · exact .inl ⟨e, work, he, rfl, rfl⟩
    rw [hnext]
    rcases addCappedBytes_cases member.size maxOfficeArchiveBytes "office package"
      work.archiveBytes with ⟨e, hadd, -⟩ | ⟨total', hadd, hsum, hcap⟩
    · exact .inl ⟨e, work, bind_of_error _ (onCounter_error hadd), rfl, rfl⟩
    · have hpaid : onArchive (addCappedBytes member.size maxOfficeArchiveBytes "office package") work =
          .ok () { work with archiveBytes := total' } := onCounter_ok hadd
      have hparts : (if isTextPart member.name then textParts ++ [member] else textParts) ++
          textMembers members = textParts ++ textMembers (member :: members) := by
        by_cases htext : isTextPart member.name = true
        · have hcons : textMembers (member :: members) = member :: textMembers members :=
            List.filter_cons_of_pos htext
          rw [if_pos htext, hcons, List.append_assoc, List.singleton_append]
        · have hskip : textMembers (member :: members) = textMembers members :=
            List.filter_cons_of_neg htext
          rw [if_neg htext, hskip]
      rw [bind_of_ok _ hpaid, ← hparts]
      rcases inspect_cases members
        (if isTextPart member.name then textParts ++ [member] else textParts)
        { work with archiveBytes := total' } hcap with ⟨e, work', hrun, hlog, hparser⟩ |
          ⟨work', hrun, hlog, hparser, hdeclared⟩
      · exact .inl ⟨e, work', hrun, hlog, hparser⟩
      · refine .inr ⟨work', hrun, hlog, hparser, ?_⟩
        rw [declaredBytes]
        show _ ≤ maxOfficeArchiveBytes.toNat
        have htotal : total'.toNat + declaredBytes members ≤ maxOfficeArchiveBytes.toNat := hdeclared
        omega

/-! ## The package -/

/-- Nothing done yet. -/
def Work.fresh : Work := ⟨0, 0, []⟩

/-- A package within every cap, in what it declares. -/
structure Admitted (members : List Member) : Prop where
  entries : members.length ≤ maxOfficeArchiveEntries
  declared : declaredBytes members ≤ maxOfficeArchiveBytes.toNat
  parts : (textMembers members).length ≤ maxOfficeTextParts

/-- **Before anything is decompressed** the package is admitted by what it declares. -/
theorem extractOffice_cases (lib : OfficeLib) (package : Except String (List Member)) :
    (∃ e work, extractOffice lib package .fresh = .error e work ∧ work.log = []) ∨
    ∃ members work, package = .ok members ∧ Admitted members ∧ work.log = [] ∧
      work.parserWorkBytes = 0 ∧
      extractOffice lib package .fresh = (extractParts lib (textMembers members) [] >>= fun extracted =>
        ofResult (require (!(normalizeText extracted).isEmpty)
          "office document contains no extractable text") >>= fun _ =>
            pure (String.ofList (normalizeText extracted)) : Office String) work := by
  unfold extractOffice
  rcases ofResult_bind_cases _ _ Work.fresh with ⟨e, he⟩ | ⟨members, hpackage, hnext⟩
  · exact .inl ⟨e, .fresh, he, rfl⟩
  rw [hnext]
  rcases ofResult_bind_cases _ _ Work.fresh with ⟨e, he⟩ | ⟨_, hentries, hnext⟩
  · exact .inl ⟨e, .fresh, he, rfl⟩
  rw [hnext]
  rcases inspect_cases members [] .fresh (Nat.zero_le _) with ⟨e, work, hrun, hlog, -⟩ |
    ⟨work, hrun, hlog, hparser, hdeclared⟩
  · exact .inl ⟨e, work, bind_of_error _ hrun, hlog⟩
  rw [bind_of_ok _ hrun]
  rcases ofResult_bind_cases _ _ work with ⟨e, he⟩ | ⟨_, -, hnext⟩
  · exact .inl ⟨e, work, he, hlog⟩
  rw [hnext]
  rcases ofResult_bind_cases _ _ work with ⟨e, he⟩ | ⟨_, hparts, hnext⟩
  · exact .inl ⟨e, work, he, hlog⟩
  rw [hnext]
  have hzero : Work.fresh.archiveBytes.toNat = 0 := rfl
  rw [hzero, Nat.zero_add] at hdeclared
  exact .inr ⟨members, work, mapError_eq_ok.mp hpackage,
    ⟨of_decide_eq_true (require_eq_ok.mp hentries), hdeclared,
      of_decide_eq_true (require_eq_ok.mp hparts)⟩, hlog, hparser, rfl⟩

/-- The end of a run does no more work. -/
theorem finish_cases (extracted : Chars) (error : String) (work : Work) :
    (∃ e, (ofResult (require (!(normalizeText extracted).isEmpty) error) >>= fun _ =>
      pure (String.ofList (normalizeText extracted)) : Office String) work = .error e work) ∨
    (ofResult (require (!(normalizeText extracted).isEmpty) error) >>= fun _ =>
      pure (String.ofList (normalizeText extracted)) : Office String) work =
        .ok (String.ofList (normalizeText extracted)) work := by
  rcases ofResult_bind_cases (require (!(normalizeText extracted).isEmpty) error)
    (fun _ => pure (String.ofList (normalizeText extracted))) work with ⟨e, he⟩ | ⟨_, -, hnext⟩
  · exact .inl ⟨e, he⟩
  · exact .inr hnext

theorem final_finish {x : Office Chars} {error : String} (work : Work) :
    final ((x >>= fun extracted => ofResult (require (!(normalizeText extracted).isEmpty) error) >>=
      fun _ => pure (String.ofList (normalizeText extracted)) : Office String) work) =
        final (x work) := by
  rw [bind_apply]
  cases x work with
  | error e work' => rfl
  | ok extracted work' =>
    rcases finish_cases extracted error work' with ⟨e, hend⟩ | hend
    · exact congrArg final hend
    · exact congrArg final hend

/-- **Whatever a package declares**, XML is parsed from few parts, each of few bytes, and of few bytes
together; nothing is decompressed of a package that declares more; text comes out only of a package
within every cap; and an addition is made in full, without overflow, or leaves the total alone. -/
theorem extractOffice_bounded (lib : OfficeLib) (package : Except String (List Member)) :
    ((final (extractOffice lib package .fresh)).parsed.length ≤ maxOfficeTextParts ∧
      (∀ bytes ∈ (final (extractOffice lib package .fresh)).parsed,
        bytes.length ≤ maxOfficePartBytes.toNat) ∧
      (final (extractOffice lib package .fresh)).parsed.flatten.length ≤
        maxOfficeArchiveBytes.toNat) ∧
    ((final (extractOffice lib package .fresh)).log ≠ [] →
      ∃ members, package = .ok members ∧ Admitted members) ∧
    (∀ text, outcome (extractOffice lib package .fresh) = .ok text →
      ∃ members, package = .ok members ∧ Admitted members ∧
        (∀ part ∈ textMembers members, part.size ≤ maxOfficePartBytes ∧
          part.content.length ≤ maxOfficePartBytes.toNat) ∧
        ((textMembers members).map Member.content).flatten.length ≤ maxOfficeArchiveBytes.toNat ∧
        (final (extractOffice lib package .fresh)).parsed = (textMembers members).map Member.content ∧
        ∃ extracted, (utf8 (String.ofList extracted)).length ≤ maxOfficeTextBytes ∧
          text = String.ofList (normalizeText extracted)) ∧
    ∀ (addition limit : UInt64) (subject : String) (total : UInt64),
      (∃ e, addCappedBytes addition limit subject total = .error e total ∧
        limit.toNat < total.toNat + addition.toNat) ∨
      ∃ total', addCappedBytes addition limit subject total = .ok () total' ∧
        total'.toNat = total.toNat + addition.toNat ∧ total'.toNat ≤ limit.toNat := by
  rcases extractOffice_cases lib package with ⟨e, work, hrun, hlog⟩ |
    ⟨members, work, hpackage, hadmitted, hlog, hparser, hrun⟩
  -- the package was refused before anything was decompressed
  · have hparsed : work.parsed = [] := by
      rw [Work.parsed, hlog]
      rfl
    have hfinal : final (extractOffice lib package .fresh) = work := by
      rw [hrun]
      rfl
    rw [hfinal, hparsed]
    refine ⟨⟨Nat.zero_le _, List.forall_mem_nil _, Nat.zero_le _⟩, fun hsome => absurd hlog hsome, ?_,
      addCappedBytes_cases⟩
    intro text htext
    rw [hrun] at htext
    cases htext
  -- it was admitted, and its parts are extracted on a clean account
  · have hparsed : work.parsed = [] := by
      rw [Work.parsed, hlog]
      rfl
    have hzero : work.parserWorkBytes.toNat = 0 := by
      rw [hparser]
      rfl
    have hstart : Inv work := by
      refine ⟨?_, ?_, ?_⟩
      · rw [hparsed]
        exact Nat.zero_le _
      · rw [hzero]
        exact Nat.zero_le _
      · rw [hparsed]
        exact List.forall_mem_nil _
    have hfinal : final (extractOffice lib package .fresh) =
        final (extractParts lib (textMembers members) [] work) := by
      rw [hrun]
      exact final_finish work
    obtain ⟨hinv, hlength⟩ := extractParts_inv lib (textMembers members) [] hstart
    rw [hfinal]
    rw [hparsed, List.length_nil, Nat.zero_add] at hlength
    refine ⟨⟨Nat.le_trans hlength hadmitted.parts, hinv.small, Nat.le_trans hinv.paid hinv.capped⟩,
      fun _ => ⟨members, hpackage, hadmitted⟩, ?_, addCappedBytes_cases⟩
    intro text htext
    rw [hrun, bind_apply] at htext
    cases hparts : extractParts lib (textMembers members) [] work with
    | error e work' =>
      rw [hparts] at htext
      cases htext
    | ok extracted work' =>
      rw [hparts] at htext
      have hcap : work.parserWorkBytes.toNat ≤ maxOfficeArchiveBytes.toNat := hstart.capped
      obtain ⟨heach, hall, htotal, hlong⟩ := extractParts_ok lib hparts hcap (Nat.zero_le _)
      rw [hparsed, List.nil_append] at hall
      rw [hzero, Nat.zero_add] at htotal
      refine ⟨members, hpackage, hadmitted, heach, htotal, hall, extracted, hlong, ?_⟩
      rcases finish_cases extracted "office document contains no extractable text" work' with
        ⟨e, hend⟩ | hend
      · have herror := htext.symm.trans (congrArg outcome hend)
        cases herror
      · exact Except.ok.inj (htext.symm.trans (congrArg outcome hend))

end Basecrawl.Core.OfficePackage
