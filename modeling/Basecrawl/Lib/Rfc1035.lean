/-
  DNS messages, after RFC 1035.

  1. **Names** — labels of 1 to 63 bytes, ended by the root or by a pointer into the message; a name
     takes at most 255 bytes, so it has at most 127 labels (`Name.length_labels`).
  2. **Messages** — a header, questions and records, each with its bytes on the wire.
  3. **Queries** — `readQuery` takes apart a message with one question and nothing else; what comes
     before a field is not looked at again, so it inverts the wire field by field
     (`readNat_beBytes`, `readLabels_wire`, `readQuery_wire`).
-/
import Basecrawl.Lib.Frames

namespace Basecrawl.Rfc1035

open Text Frames

/-! ## Names -/

structure Label where
  bytes : Bytes
  nonempty : 0 < bytes.length
  short : bytes.length ≤ 63

def Label.wire (label : Label) : Bytes := UInt8.ofNat label.bytes.length :: label.bytes

/-- How the labels of a name end. -/
inductive Ending where
  | root
  | pointer (high low : UInt8) (mark : high &&& 0xc0 = 0xc0)

def Ending.wire : Ending → Bytes
  | .root => [0]
  | .pointer high low _ => [high, low]

def labelsWire (labels : List Label) : Bytes := labels.flatMap Label.wire

/-- A name; with the byte of the root it takes at most 255. -/
structure Name where
  labels : List Label
  ending : Ending
  short : (labelsWire labels).length ≤ 254

def Name.wire (name : Name) : Bytes := labelsWire name.labels ++ name.ending.wire

/-- The labels with dots between them. -/
def dotted : List Bytes → Bytes
  | [] => []
  | [label] => label
  | label :: labels => label ++ 0x2e :: dotted labels

theorem Label.length_wire (label : Label) : label.wire.length = label.bytes.length + 1 := rfl

theorem labelsWire_cons (label : Label) (labels : List Label) :
    labelsWire (label :: labels) = label.wire ++ labelsWire labels :=
  List.flatMap_cons

theorem length_labelsWire (labels : List Label) :
    2 * labels.length ≤ (labelsWire labels).length := by
  induction labels with
  | nil => exact Nat.le_refl 0
  | cons label labels ih =>
    have hne := label.nonempty
    rw [labelsWire_cons, List.length_append, Label.length_wire, List.length_cons]
    omega

theorem Name.length_labels (name : Name) : name.labels.length ≤ 127 := by
  have hle := length_labelsWire name.labels
  have hshort := name.short
  omega

/-! ## Messages -/

/-- The second 16 bits of a header. -/
structure Flags where
  response : Bool := false
  opcode : Nat := 0
  authoritative : Bool := false
  truncated : Bool := false
  recursionDesired : Bool := false
  recursionAvailable : Bool := false
  zero : Nat := 0
  rcode : Nat := 0
deriving DecidableEq

def Flags.ofWord (word : Nat) : Flags where
  response := word / 2 ^ 15 % 2 == 1
  opcode := word / 2 ^ 11 % 16
  authoritative := word / 2 ^ 10 % 2 == 1
  truncated := word / 2 ^ 9 % 2 == 1
  recursionDesired := word / 2 ^ 8 % 2 == 1
  recursionAvailable := word / 2 ^ 7 % 2 == 1
  zero := word / 2 ^ 4 % 8
  rcode := word % 16

structure Question where
  name : Name
  qtype : UInt16
  qclass : UInt16

def Question.wire (question : Question) : Bytes :=
  question.name.wire ++ (beBytes 2 question.qtype.toNat ++ beBytes 2 question.qclass.toNat)

structure Record where
  name : Name
  rtype : UInt16
  rclass : UInt16
  ttl : UInt32
  rdata : Bytes
  short : rdata.length < 65536

/-- The fields between the name and the data. -/
def Record.fields (record : Record) : Bytes :=
  beBytes 2 record.rtype.toNat ++ (beBytes 2 record.rclass.toNat ++
    (beBytes 4 record.ttl.toNat ++ beBytes 2 record.rdata.length))

def Record.wire (record : Record) : Bytes :=
  record.name.wire ++ (record.fields ++ record.rdata)

/-- A response; what stands behind the answers is not taken apart. -/
structure Response where
  id : UInt16
  flags : UInt16
  questions : List Question
  answers : List Record
  authorities : UInt16
  additionals : UInt16
  rest : Bytes
  fewQuestions : questions.length < 65536
  fewAnswers : answers.length < 65536

def Response.rcode (response : Response) : Nat := response.flags.toNat % 16

def Response.header (response : Response) : Bytes :=
  beBytes 2 response.id.toNat ++ (beBytes 2 response.flags.toNat ++
    (beBytes 2 response.questions.length ++ (beBytes 2 response.answers.length ++
      (beBytes 2 response.authorities.toNat ++ beBytes 2 response.additionals.toNat))))

def Response.wire (response : Response) : Bytes :=
  response.header ++ (response.questions.flatMap Question.wire ++
    (response.answers.flatMap Record.wire ++ response.rest))

theorem Record.length_fields (record : Record) : record.fields.length = 10 := by
  simp only [Record.fields, List.length_append, length_beBytes]

theorem Response.length_header (response : Response) : response.header.length = 12 := by
  simp only [Response.header, List.length_append, length_beBytes]

/-! ## Queries -/

/-- What a message with one question asks. -/
structure Query where
  id : Nat
  flags : Flags
  labels : List Bytes
  qtype : Nat
  qclass : Nat
deriving DecidableEq

/-- A number on two bytes. -/
def readNat : Bytes → Option (Nat × Bytes)
  | a :: b :: rest => some (beNat [a, b], rest)
  | _ => none

/-- The labels of a name up to the root; the number bounds them. -/
def readLabels : Nat → Bytes → Option (List Bytes × Bytes)
  | 0, _ => none
  | _, [] => none
  | n + 1, length :: rest =>
    if length = 0 then some ([], rest)
    else if length.toNat ≤ 63 ∧ length.toNat ≤ rest.length then
      (readLabels n (rest.drop length.toNat)).map fun read =>
        (rest.take length.toNat :: read.1, read.2)
    else none

/-- A message with one question and nothing else. -/
def readQuery (message : Bytes) : Option Query := do
  let (id, rest) ← readNat message
  let (flags, rest) ← readNat rest
  let (questions, rest) ← readNat rest
  let (answers, rest) ← readNat rest
  let (authorities, rest) ← readNat rest
  let (additionals, rest) ← readNat rest
  let (labels, rest) ← readLabels rest.length rest
  let (qtype, rest) ← readNat rest
  let (qclass, rest) ← readNat rest
  if questions = 1 ∧ answers = 0 ∧ authorities = 0 ∧ additionals = 0 ∧ rest = [] then
    some ⟨id, .ofWord flags, labels, qtype, qclass⟩
  else none

theorem readNat_beBytes {n : Nat} (h : n < 65536) (rest : Bytes) :
    readNat (beBytes 2 n ++ rest) = some (n, rest) := by
  obtain ⟨a, b, hab⟩ := List.length_eq_two.mp (length_beBytes 2 n)
  have hn := beNat_beBytes (show n < 256 ^ 2 from h)
  rw [hab] at hn ⊢
  show some (beNat [a, b], rest) = _
  rw [hn]

/-- The length byte of a label. -/
theorem toNat_length (label : Label) :
    (UInt8.ofNat label.bytes.length).toNat = label.bytes.length := by
  have hshort := label.short
  rw [UInt8.toNat_ofNat', Nat.mod_eq_of_lt (by omega)]

theorem length_ne_zero (label : Label) : UInt8.ofNat label.bytes.length ≠ 0 := by
  intro h
  have hlen := toNat_length label
  rw [h] at hlen
  exact Nat.ne_of_lt label.nonempty hlen

theorem readLabels_wire {labels : List Label} (rest : Bytes) : ∀ {n : Nat}, labels.length < n →
    readLabels n (labelsWire labels ++ 0 :: rest) = some (labels.map Label.bytes, rest) := by
  induction labels with
  | nil =>
    intro n hn
    obtain ⟨n, rfl⟩ := Nat.exists_eq_succ_of_ne_zero (Nat.ne_of_gt hn)
    rfl
  | cons label labels ih =>
    intro n hn
    obtain ⟨n, rfl⟩ := Nat.exists_eq_succ_of_ne_zero (Nat.ne_of_gt (Nat.zero_lt_of_lt hn))
    have hwire : labelsWire (label :: labels) ++ 0 :: rest =
        UInt8.ofNat label.bytes.length :: (label.bytes ++ (labelsWire labels ++ 0 :: rest)) := by
      rw [labelsWire_cons, Label.wire, List.append_assoc, List.cons_append]
    have hfits : label.bytes.length ≤ (label.bytes ++ (labelsWire labels ++ 0 :: rest)).length := by
      rw [List.length_append]
      exact Nat.le_add_right _ _
    rw [hwire, readLabels, if_neg (length_ne_zero label), toNat_length,
      if_pos ⟨label.short, hfits⟩, List.take_left, List.drop_left,
      ih (Nat.lt_of_succ_lt_succ hn)]
    rfl

/-- **One question, read back.** -/
theorem readQuery_wire {id flags qtype qclass : Nat} {labels : List Label} (hid : id < 65536)
    (hflags : flags < 65536) (hqtype : qtype < 65536) (hqclass : qclass < 65536) :
    readQuery (beBytes 2 id ++ (beBytes 2 flags ++ (beBytes 2 1 ++ (beBytes 2 0 ++ (beBytes 2 0 ++
      (beBytes 2 0 ++ (labelsWire labels ++ 0 :: (beBytes 2 qtype ++ beBytes 2 qclass)))))))) =
      some ⟨id, .ofWord flags, labels.map Label.bytes, qtype, qclass⟩ := by
  have hend : readNat (beBytes 2 qclass) = some (qclass, []) := by
    have hread := readNat_beBytes hqclass []
    rw [List.append_nil] at hread
    exact hread
  have hlabels : labels.length <
      (labelsWire labels ++ 0 :: (beBytes 2 qtype ++ beBytes 2 qclass)).length := by
    have hle := length_labelsWire labels
    rw [List.length_append, List.length_cons]
    omega
  rw [readQuery, readNat_beBytes hid]
  refine Option.bind_eq_some_iff.mpr ⟨_, rfl, ?_⟩
  refine Option.bind_eq_some_iff.mpr ⟨_, readNat_beBytes hflags _, ?_⟩
  refine Option.bind_eq_some_iff.mpr ⟨_, readNat_beBytes (by decide) _, ?_⟩
  refine Option.bind_eq_some_iff.mpr ⟨_, readNat_beBytes (by decide) _, ?_⟩
  refine Option.bind_eq_some_iff.mpr ⟨_, readNat_beBytes (by decide) _, ?_⟩
  refine Option.bind_eq_some_iff.mpr ⟨_, readNat_beBytes (by decide) _, ?_⟩
  refine Option.bind_eq_some_iff.mpr ⟨_, readLabels_wire _ hlabels, ?_⟩
  refine Option.bind_eq_some_iff.mpr ⟨_, readNat_beBytes hqtype _, ?_⟩
  refine Option.bind_eq_some_iff.mpr ⟨_, hend, ?_⟩
  exact if_pos ⟨rfl, rfl, rfl, rfl, rfl⟩

end Basecrawl.Rfc1035
