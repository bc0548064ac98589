/-
  The DNS messages of the pinned resolver.

  1. **Queries** — the labels of an accepted name have 1 to 63 bytes, so `build_query` writes the
     wire form of one question, and reading it gives the name back (`buildQuery_decodes`).
  2. **Any message** — a name ends inside the message (`skipName_safe`), so no sum overflows and no
     read is out of bounds, whatever the counts and lengths say (`parseAnswers_safe`).
  3. **A response** — each step takes exactly the bytes of what it reads: a name
     (`skipName_wire`), a question, a record (`readAnswer_wire`); by induction over the questions
     and the answers the addresses come out in order (`parseAnswers_wire`).
-/
import Basecrawl.Lib.IpText
import Basecrawl.Lib.Panic
import Basecrawl.Lib.Rfc1035
import Basecrawl.Seal.Identity

namespace Basecrawl.Seal.Dns

open Text Outcome Panic Frames IpText Rfc1035

/-! ## Building a query -/

/-- `trim_end_matches('.')`. -/
def trimEndDots (s : String) : String :=
  String.ofList (s.toList.reverse.dropWhile (· == '.')).reverse

/-- `b.is_ascii_alphanumeric() || b == b'-' || b == b'.'`. -/
def isNameByte (b : UInt8) : Bool :=
  let n := b.toNat
  (0x30 ≤ n && n ≤ 0x39) || (0x41 ≤ n && n ≤ 0x5a) || (0x61 ≤ n && n ≤ 0x7a) || n == 0x2d ||
    n == 0x2e

/-- `normalize_name`. -/
def normalizeName (name : String) : Except SealError String :=
  let trimmed := asciiLower (trimEndDots (trim name))
  if trimmed = "" ∨ (utf8 trimmed).length > 253 ∨ contains trimmed ".." = true ∨
      trimmed.toList.head? = some '.' ∨ (utf8 trimmed).all isNameByte = false then
    .error (.dns "hostname is not a valid DNS name")
  else .ok trimmed

/-- The loop of `encode_name`. -/
def encodeLabels (out : Bytes) : List String → Except SealError Bytes
  | [] => .ok out
  | label :: labels =>
    if label = "" ∨ (utf8 label).length > 63 then
      .error (.dns "hostname has an empty or overlong DNS label")
    else encodeLabels (out ++ [UInt8.ofNat (utf8 label).length] ++ utf8 label) labels

/-- `encode_name`. -/
def encodeName (name : String) : Except SealError Bytes := do
  let out ← encodeLabels [] (split name '.')
  return out ++ [0]

/-- `build_query`. -/
def buildQuery (name : String) (qtype id : UInt16) : Except SealError Bytes := do
  let name ← normalizeName name
  let labels ← encodeName name
  return beBytes 2 id.toNat ++ beBytes 2 0x0100 ++ beBytes 2 1 ++ beBytes 2 0 ++ beBytes 2 0 ++
    beBytes 2 0 ++ labels ++ beBytes 2 qtype.toNat ++ beBytes 2 1

/-! ## Parsing a response -/

/-- What a pass of `skip_name` finds. -/
inductive NameStep where
  | ends (offset : Nat)
  | label (offset : Nat)

/-- A pass of the loop of `skip_name`. -/
def skipNameStep (w : Nat) (message : Bytes) (offset : Nat) : Checked SealError NameStep :=
  if offset ≥ message.length then fail (.dns "DNS name overrun")
  else do
    let len ← index message offset
    if len = 0 then return .ends (← add w offset 1)
    else if len &&& 0xc0 = 0xc0 then do
      let low ← add w offset 1
      if low ≥ message.length then fail (.dns "DNS compression pointer overrun")
      else return .ends (← add w offset 2)
    else if len &&& 0xc0 ≠ 0 then fail (.dns "DNS name uses unsupported label type")
    else
      return .label (← okOr (checkedAdd w offset (1 + len.toNat))
        (.err (.dns "DNS name length overflow")))

/-- The loop of `skip_name`; the number is `128 - jumps`. -/
def skipNameLoop (w : Nat) (message : Bytes) : Nat → Nat → Checked SealError Nat
  | 0, offset => do
    match ← skipNameStep w message offset with
    | .ends offset => return offset
    | .label _ => fail (.dns "DNS name too long")
  | left + 1, offset => do
    match ← skipNameStep w message offset with
    | .ends offset => return offset
    | .label offset => skipNameLoop w message left offset

/-- `skip_name`. -/
def skipName (w : Nat) (message : Bytes) (offset : Nat) : Checked SealError Nat :=
  skipNameLoop w message 128 offset

/-- The questions, passed over. -/
def skipQuestions (w : Nat) (message : Bytes) : Nat → Nat → Checked SealError Nat
  | 0, offset => .ok offset
  | n + 1, offset => do
    let offset ← skipName w message offset
    let offset ← okOr (checkedAdd w offset 4) (.err (.dns "DNS question overrun"))
    skipQuestions w message n offset

/-- `u16::from_be_bytes([message[offset + k], message[offset + k + 1]])`. -/
def readU16 (w : Nat) (message : Bytes) (offset k : Nat) : Checked SealError Nat := do
  let high ← add w offset k
  let a ← index message high
  let low ← add w offset (k + 1)
  let b ← index message low
  return beNat [a, b]

/-- `QTYPE_A`. -/
def qtypeA : UInt16 := 1

/-- `QTYPE_AAAA`. -/
def qtypeAaaa : UInt16 := 28

/-- The address in the data of a record. -/
def answerAddress (expectedQtype : UInt16) (rtype : Nat) (rdata : Bytes) : Option IpAddr :=
  if rtype = expectedQtype.toNat then
    if h : rtype = qtypeA.toNat ∧ rdata.length = 4 then some (.v4 rdata h.2)
    else if h : rtype = qtypeAaaa.toNat ∧ rdata.length = 16 then some (.v6 rdata h.2)
    else none
  else none

/-- A pass of the loop over the answers. -/
def readAnswer (w : Nat) (message : Bytes) (expectedQtype : UInt16) (offset : Nat) :
    Checked SealError (Option IpAddr × Nat) := do
  let offset ← skipName w message offset
  let fieldsEnd ← add w offset 10
  if fieldsEnd > message.length then fail (.dns "DNS answer header overrun")
  else do
    let rtype ← readU16 w message offset 0
    let _rclass ← readU16 w message offset 2
    let rdlength ← readU16 w message offset 8
    let offset ← add w offset 10
    let rdataEnd ← add w offset rdlength
    if rdataEnd > message.length then fail (.dns "DNS rdata overrun")
    else do
      let rdata ← slice message offset rdataEnd
      return (answerAddress expectedQtype rtype rdata, rdataEnd)

/-- The loop over the answers. -/
def readAnswers (w : Nat) (message : Bytes) (expectedQtype : UInt16) :
    Nat → Nat → List IpAddr → Checked SealError (List IpAddr)
  | 0, _, answers => .ok answers
  | n + 1, offset, answers => do
    let (address, offset) ← readAnswer w message expectedQtype offset
    readAnswers w message expectedQtype n offset (answers ++ address.toList)

/-- `parse_answers`. -/
def parseAnswers (w : Nat) (message : Bytes) (expectedQtype : UInt16) :
    Checked SealError (List IpAddr) :=
  if message.length < 12 then fail (.dns "DNS response shorter than header")
  else do
    let flags ← readU16 w message 0 2
    if flags % 16 ≠ 0 then return []
    else do
      let qdcount ← readU16 w message 0 4
      let ancount ← readU16 w message 0 6
      let offset ← skipQuestions w message qdcount 12
      readAnswers w message expectedQtype ancount offset []

/-- A slice as it can be in memory: at most `isize::MAX` bytes. -/
structure Slice (w : Nat) where
  bytes : Bytes
  wide : 32 ≤ w
  fits : bytes.length < 2 ^ (w - 1)

/-! ## Any message -/

variable {w : Nat} {message : Bytes}

/-- What the sums of the parser come to at most. -/
theorem Slice.room (message : Slice w) : message.bytes.length + 65536 + 12 ≤ 2 ^ w := by
  have hhalf : 2 ^ (w - 1) + 2 ^ (w - 1) = 2 ^ w := by
    have hw := message.wide
    obtain ⟨k, rfl⟩ : ∃ k, w = k + 1 := ⟨w - 1, by omega⟩
    rw [Nat.add_sub_cancel, Nat.pow_succ]
    omega
  have hwide : 2 ^ 31 ≤ 2 ^ (w - 1) := by
    have hw := message.wide
    exact Nat.pow_le_pow_right (by decide) (by omega)
  have hfits := message.fits
  omega

/-- A name ends inside the message. -/
def NameStep.Inside (message : Bytes) : NameStep → Prop
  | .ends next => next ≤ message.length
  | .label _ => True

theorem skipNameStep_safe (hroom : message.length + 65536 + 12 ≤ 2 ^ w) (offset : Nat) :
    Safe (skipNameStep w message offset) (NameStep.Inside message) := by
  rw [skipNameStep]
  split
  · exact safe_fail
  · next hinside =>
    refine (safe_index (Nat.not_le.mp hinside)).bind fun len _ => ?_
    split
    · refine (safe_add (by omega)).bind fun next hnext => safe_ok ?_
      show next ≤ message.length
      omega
    split
    · refine (safe_add (by omega)).bind fun low hlow => ?_
      split
      · exact safe_fail
      · refine (safe_add (by omega)).bind fun next hnext => safe_ok ?_
        show next ≤ message.length
        omega
    split
    · exact safe_fail
    · exact safe_checkedAdd.bind fun _ _ => safe_ok trivial

theorem skipNameLoop_safe (hroom : message.length + 65536 + 12 ≤ 2 ^ w) :
    ∀ left offset : Nat, Safe (skipNameLoop w message left offset) (· ≤ message.length)
  | 0, offset => by
    rw [skipNameLoop]
    refine (skipNameStep_safe hroom offset).bind fun step hstep => ?_
    cases step with
    | ends next => exact safe_ok hstep
    | label _ => exact safe_fail
  | left + 1, offset => by
    rw [skipNameLoop]
    refine (skipNameStep_safe hroom offset).bind fun step hstep => ?_
    cases step with
    | ends next => exact safe_ok hstep
    | label next => exact skipNameLoop_safe hroom left next

theorem skipName_safe (hroom : message.length + 65536 + 12 ≤ 2 ^ w) (offset : Nat) :
    Safe (skipName w message offset) (· ≤ message.length) :=
  skipNameLoop_safe hroom 128 offset

theorem skipQuestions_safe (hroom : message.length + 65536 + 12 ≤ 2 ^ w) :
    ∀ n offset : Nat, Safe (skipQuestions w message n offset) fun _ => True
  | 0, _ => safe_ok trivial
  | n + 1, offset => by
    rw [skipQuestions]
    refine (skipName_safe hroom offset).bind fun next _ => ?_
    exact safe_checkedAdd.bind fun next _ => skipQuestions_safe hroom n next

/-- A number whose bytes are there. -/
theorem readU16_safe {offset k : Nat} (hroom : message.length + 65536 + 12 ≤ 2 ^ w)
    (h : offset + k + 1 < message.length) :
    Safe (readU16 w message offset k : Checked SealError Nat) (· < 65536) := by
  rw [readU16]
  refine (safe_add (by omega)).bind fun high hhigh => ?_
  refine (safe_index (by omega)).bind fun a _ => ?_
  refine (safe_add (by omega)).bind fun low hlow => ?_
  refine (safe_index (by omega)).bind fun b _ => safe_ok ?_
  exact beNat_two_lt a b

theorem readAnswer_safe (hroom : message.length + 65536 + 12 ≤ 2 ^ w) (expectedQtype : UInt16)
    (offset : Nat) : Safe (readAnswer w message expectedQtype offset) fun _ => True := by
  rw [readAnswer]
  refine (skipName_safe hroom offset).bind fun offset hinside => ?_
  refine (safe_add (by omega)).bind fun fieldsEnd hfields => ?_
  split
  · exact safe_fail
  · refine (readU16_safe hroom (by omega)).bind fun rtype _ => ?_
    refine (readU16_safe hroom (by omega)).bind fun _ _ => ?_
    refine (readU16_safe hroom (by omega)).bind fun rdlength hlength => ?_
    refine (safe_add (by omega)).bind fun start hstart => ?_
    refine (safe_add (by omega)).bind fun rdataEnd hend => ?_
    split
    · exact safe_fail
    · exact (safe_slice (by omega) (by omega)).bind fun _ _ => safe_ok trivial

theorem readAnswers_safe (hroom : message.length + 65536 + 12 ≤ 2 ^ w) (expectedQtype : UInt16) :
    ∀ (n offset : Nat) (answers : List IpAddr),
      Safe (readAnswers w message expectedQtype n offset answers) fun _ => True
  | 0, _, _ => safe_ok trivial
  | n + 1, offset, answers => by
    rw [readAnswers]
    exact (readAnswer_safe hroom expectedQtype offset).bind fun read _ =>
      readAnswers_safe hroom expectedQtype n read.2 (answers ++ read.1.toList)

/-- **No message stops the parser.** -/
theorem parseAnswers_safe (message : Slice w) (expectedQtype : UInt16) :
    Safe (parseAnswers w message.bytes expectedQtype) fun _ => True := by
  have hroom := message.room
  rw [parseAnswers]
  split
  · exact safe_fail
  · refine (readU16_safe hroom (by omega)).bind fun flags _ => ?_
    split
    · exact safe_ok trivial
    · refine (readU16_safe hroom (by omega)).bind fun qdcount _ => ?_
      refine (readU16_safe hroom (by omega)).bind fun ancount _ => ?_
      refine (skipQuestions_safe hroom qdcount 12).bind fun offset _ => ?_
      exact readAnswers_safe hroom expectedQtype ancount offset []

/-! ## A response -/

section Wire

variable {offset : Nat} {rest : Bytes}

theorem length_of_drop {ys zs : Bytes} (h : message.drop offset = ys ++ zs) (hne : ys ≠ []) :
    offset + ys.length + zs.length = message.length := by
  have hlen := congrArg List.length h
  have hpos := List.length_pos_iff.mpr hne
  rw [List.length_drop, List.length_append] at hlen
  omega

theorem drop_more {ys zs : Bytes} (h : message.drop offset = ys ++ zs) :
    message.drop (offset + ys.length) = zs := by
  rw [← List.drop_drop, h, List.drop_left]

/-- The root. -/
theorem skipNameStep_root (hroom : message.length + 65536 + 12 ≤ 2 ^ w)
    (h : message.drop offset = [0] ++ rest) :
    skipNameStep w message offset = .ok (.ends (offset + 1)) := by
  have hlen := length_of_drop h (List.cons_ne_nil _ _)
  rw [List.length_singleton] at hlen
  rw [skipNameStep, if_neg (by omega), index_of_drop message h, ok_bind, if_pos rfl,
    add_eq rfl (by omega)]
  rfl

/-- A pointer. -/
theorem skipNameStep_pointer (hroom : message.length + 65536 + 12 ≤ 2 ^ w) {high low : UInt8}
    (hmark : high &&& 0xc0 = 0xc0) (h : message.drop offset = [high, low] ++ rest) :
    skipNameStep w message offset = .ok (.ends (offset + 2)) := by
  have hlen := length_of_drop h (List.cons_ne_nil _ _)
  have htwo : [high, low].length = 2 := rfl
  have hne : high ≠ 0 := by
    rintro rfl
    exact absurd hmark (by decide)
  rw [htwo] at hlen
  rw [skipNameStep, if_neg (by omega), index_of_drop message h, ok_bind, if_neg hne, if_pos hmark,
    add_eq rfl (by omega), ok_bind, if_neg (by omega), add_eq rfl (by omega)]
  rfl

/-- The length of a label is below the marks of the other kinds. -/
theorem label_mark (label : Label) : UInt8.ofNat label.bytes.length &&& 0xc0 = 0 := by
  have hshort := label.short
  have hall : ∀ n : Fin 64, UInt8.ofNat n &&& 0xc0 = 0 := by decide
  exact hall ⟨label.bytes.length, by omega⟩

/-- A label. -/
theorem skipNameStep_label (hroom : message.length + 65536 + 12 ≤ 2 ^ w) (label : Label)
    (h : message.drop offset = label.wire ++ rest) :
    skipNameStep w message offset = .ok (.label (offset + label.wire.length)) := by
  have hlen := length_of_drop h (List.cons_ne_nil _ _)
  have hwire := label.length_wire
  have hmark := label_mark label
  have hother : ¬ UInt8.ofNat label.bytes.length &&& 0xc0 = 0xc0 := by
    rw [hmark]
    decide
  have hsum : checkedAdd w offset (1 + (UInt8.ofNat label.bytes.length).toNat) =
      some (offset + label.wire.length) := by
    rw [toNat_length, hwire, checkedAdd, if_pos (by omega), Nat.add_comm 1]
  rw [skipNameStep, if_neg (by omega), index_of_drop message h, ok_bind,
    if_neg (length_ne_zero label), if_neg hother, if_neg (not_not.mpr hmark), hsum]
  rfl

/-- An ending. -/
theorem skipNameStep_ending (hroom : message.length + 65536 + 12 ≤ 2 ^ w) (ending : Ending)
    (h : message.drop offset = ending.wire ++ rest) :
    skipNameStep w message offset = .ok (.ends (offset + ending.wire.length)) := by
  cases ending with
  | root => exact skipNameStep_root hroom h
  | pointer high low hmark => exact skipNameStep_pointer hroom hmark h

theorem skipNameLoop_wire (hroom : message.length + 65536 + 12 ≤ 2 ^ w) (ending : Ending) :
    ∀ {labels : List Label} {left offset : Nat}, labels.length ≤ left →
      message.drop offset = labelsWire labels ++ (ending.wire ++ rest) →
        skipNameLoop w message left offset =
          .ok (offset + (labelsWire labels).length + ending.wire.length)
  | [], left, offset, _, h => by
    have hstep := skipNameStep_ending hroom ending h
    cases left with
    | zero =>
      rw [skipNameLoop, hstep]
      rfl
    | succ left =>
      rw [skipNameLoop, hstep]
      rfl
  | label :: labels, left, offset, hleft, h => by
    obtain ⟨left, rfl⟩ := Nat.exists_eq_succ_of_ne_zero
      (Nat.ne_of_gt (Nat.lt_of_lt_of_le (Nat.zero_lt_succ _) hleft))
    rw [labelsWire_cons, List.append_assoc] at h
    rw [skipNameLoop, skipNameStep_label hroom label h, ok_bind]
    have hrest := skipNameLoop_wire hroom ending (Nat.le_of_succ_le_succ hleft) (drop_more h)
    show skipNameLoop w message left (offset + label.wire.length) = _
    rw [hrest, labelsWire_cons, List.length_append, Nat.add_assoc offset]

/-- **A name takes its own bytes.** -/
theorem skipName_wire (hroom : message.length + 65536 + 12 ≤ 2 ^ w) (name : Name)
    (h : message.drop offset = name.wire ++ rest) :
    skipName w message offset = .ok (offset + name.wire.length) := by
  have hlabels := name.length_labels
  rw [Name.wire, List.append_assoc] at h
  rw [skipName, skipNameLoop_wire hroom name.ending (by omega) h, Name.wire, List.length_append,
    Nat.add_assoc]

theorem skipQuestions_wire (hroom : message.length + 65536 + 12 ≤ 2 ^ w) :
    ∀ {questions : List Question} {offset : Nat},
      message.drop offset = questions.flatMap Question.wire ++ rest →
        skipQuestions w message questions.length offset =
          .ok (offset + (questions.flatMap Question.wire).length)
  | [], _, _ => rfl
  | question :: questions, offset, h => by
    rw [List.flatMap_cons, List.append_assoc] at h
    have hfields :
        (beBytes 2 question.qtype.toNat ++ beBytes 2 question.qclass.toNat).length = 4 := by
      rw [List.length_append, length_beBytes, length_beBytes]
    have hwire : question.wire.length = question.name.wire.length + 4 := by
      rw [Question.wire, List.length_append, hfields]
    have hname : question.wire ≠ [] := by
      rw [← List.length_pos_iff, hwire]
      omega
    have hlen := length_of_drop h hname
    have hrest := drop_more h
    rw [Question.wire, List.append_assoc] at h
    have hsum : checkedAdd w (offset + question.name.wire.length) 4 =
        some (offset + question.wire.length) := by
      rw [checkedAdd, if_pos (by omega), hwire, Nat.add_assoc]
    rw [List.length_cons, skipQuestions, skipName_wire hroom question.name h, ok_bind, hsum,
      okOr_some, ok_bind, skipQuestions_wire hroom hrest, List.flatMap_cons, List.length_append,
      Nat.add_assoc]

/-- A number at its place. -/
theorem readU16_wire (hroom : message.length + 65536 + 12 ≤ 2 ^ w) {n k : Nat}
    (front behind : Bytes) (hn : n < 65536) (hk : front.length = k)
    (h : message.drop offset = front ++ (beBytes 2 n ++ behind)) :
    (readU16 w message offset k : Checked SealError Nat) = .ok n := by
  obtain ⟨a, b, hab⟩ := List.length_eq_two.mp (length_beBytes 2 n)
  have hvalue := beNat_beBytes (show n < 256 ^ 2 from hn)
  rw [hab] at h hvalue
  have hfront := drop_more h
  rw [hk] at hfront
  have hsecond : message.drop (offset + (k + 1)) = b :: behind := by
    have hfirst : message.drop (offset + k) = [a] ++ (b :: behind) := hfront
    have hmore := drop_more hfirst
    rw [List.length_singleton, Nat.add_assoc] at hmore
    exact hmore
  have hlen := lt_of_drop hsecond
  rw [readU16, add_eq rfl (by omega), ok_bind, index_of_drop message hfront, ok_bind,
    add_eq rfl (by omega), ok_bind, index_of_drop message hsecond, ok_bind, hvalue]
  rfl

/-- The address of a record, when its data have the length of its type. -/
def recordAddress (record : Record) : Option IpAddr :=
  if h : record.rtype = qtypeA ∧ record.rdata.length = 4 then some (.v4 record.rdata h.2)
  else if h : record.rtype = qtypeAaaa ∧ record.rdata.length = 16 then some (.v6 record.rdata h.2)
  else none

/-- The addresses of the answers of a type, in order. -/
def addresses (answers : List Record) (qtype : UInt16) : List IpAddr :=
  (answers.filter fun record => record.rtype == qtype).filterMap recordAddress

theorem answerAddress_eq (expectedQtype : UInt16) (record : Record) :
    answerAddress expectedQtype record.rtype.toNat record.rdata =
      if record.rtype = expectedQtype then recordAddress record else none := by
  simp only [answerAddress, recordAddress, UInt16.toNat_inj]

/-- **A record takes its own bytes.** -/
theorem readAnswer_wire (hroom : message.length + 65536 + 12 ≤ 2 ^ w) (expectedQtype : UInt16)
    (record : Record) (h : message.drop offset = record.wire ++ rest) :
    readAnswer w message expectedQtype offset =
      .ok (answerAddress expectedQtype record.rtype.toNat record.rdata,
        offset + record.wire.length) := by
  have hwire : record.wire.length =
      record.name.wire.length + (record.fields.length + record.rdata.length) := by
    rw [Record.wire, List.length_append, List.length_append]
  have hten := record.length_fields
  have hne : record.wire ≠ [] := by
    rw [← List.length_pos_iff]
    omega
  have hlen := length_of_drop h hne
  have hshort := record.short
  rw [Record.wire, List.append_assoc, List.append_assoc] at h
  have hfields := drop_more h
  have hdata := drop_more hfields
  rw [hten] at hdata
  -- the three numbers among the fields
  have hrtype : readU16 w message (offset + record.name.wire.length) 0 =
      .ok record.rtype.toNat := by
    rw [Record.fields, List.append_assoc] at hfields
    exact readU16_wire hroom [] _ record.rtype.toNat_lt rfl hfields
  have hrclass : readU16 w message (offset + record.name.wire.length) 2 =
      .ok record.rclass.toNat := by
    rw [Record.fields, List.append_assoc, List.append_assoc] at hfields
    exact readU16_wire hroom _ _ record.rclass.toNat_lt (length_beBytes 2 _) hfields
  have hrdlength : readU16 w message (offset + record.name.wire.length) 8 =
      .ok record.rdata.length := by
    have hfront : (beBytes 2 record.rtype.toNat ++ (beBytes 2 record.rclass.toNat ++
        beBytes 4 record.ttl.toNat)).length = 8 := by
      simp only [List.length_append, length_beBytes]
    refine readU16_wire hroom _ (record.rdata ++ rest) record.short hfront ?_
    rw [hfields, Record.fields]
    simp only [List.append_assoc]
  have hslice : (slice message (offset + record.name.wire.length + 10)
      (offset + record.name.wire.length + 10 + record.rdata.length) : Checked SealError Bytes) =
      .ok record.rdata := slice_of_drop (by omega) hdata rfl
  rw [readAnswer, skipName_wire hroom record.name h, ok_bind, add_eq rfl (by omega), ok_bind,
    if_neg (by omega), hrtype, ok_bind, hrclass, ok_bind, hrdlength, ok_bind]
  rw [ok_bind, add_eq rfl (by omega), ok_bind, if_neg (by omega), hslice, ok_bind, hwire, hten]
  simp only [Nat.add_assoc]
  rfl

theorem readAnswers_wire (hroom : message.length + 65536 + 12 ≤ 2 ^ w) (expectedQtype : UInt16) :
    ∀ {records : List Record} {offset : Nat} {answers : List IpAddr},
      message.drop offset = records.flatMap Record.wire ++ rest →
        readAnswers w message expectedQtype records.length offset answers =
          .ok (answers ++ addresses records expectedQtype)
  | [], _, answers, _ => by
    show Except.ok answers = .ok (answers ++ [])
    rw [List.append_nil]
  | record :: records, offset, answers, h => by
    rw [List.flatMap_cons, List.append_assoc] at h
    have hrest := drop_more h
    rw [List.length_cons, readAnswers, readAnswer_wire hroom expectedQtype record h, ok_bind]
    show readAnswers w message expectedQtype records.length (offset + record.wire.length) _ = _
    rw [readAnswers_wire hroom expectedQtype hrest, answerAddress_eq, addresses, addresses]
    by_cases hsame : record.rtype = expectedQtype
    · rw [if_pos hsame, List.filter_cons_of_pos (by rw [hsame]; exact beq_self_eq_true _),
        List.append_assoc]
      cases haddress : recordAddress record with
      | none => rw [List.filterMap_cons_none haddress]; rfl
      | some address => rw [List.filterMap_cons_some haddress]; rfl
    · rw [if_neg hsame, List.filter_cons_of_neg (by simpa using hsame), List.append_assoc]
      rfl

/-- **The answers of a response**, unless it reports an error. -/
theorem parseAnswers_wire (message : Slice w) (response : Response)
    (h : message.bytes = response.wire) (expectedQtype : UInt16) :
    parseAnswers w message.bytes expectedQtype =
      .ok (if response.rcode = 0 then addresses response.answers expectedQtype else []) := by
  have hroom := message.room
  have hheader := response.length_header
  have hlen : message.bytes.length = 12 + (response.questions.flatMap Question.wire ++
      (response.answers.flatMap Record.wire ++ response.rest)).length := by
    rw [h, Response.wire, List.length_append, hheader]
  have hwire : message.bytes.drop 0 = response.header ++
      (response.questions.flatMap Question.wire ++
        (response.answers.flatMap Record.wire ++ response.rest)) := h
  have hbody := drop_more hwire
  rw [hheader, Nat.zero_add] at hbody
  have hanswers := drop_more hbody
  have hflags : (readU16 w message.bytes 0 2 : Checked SealError Nat) =
      .ok response.flags.toNat := by
    rw [Response.header, List.append_assoc, List.append_assoc] at hwire
    exact readU16_wire hroom _ _ response.flags.toNat_lt (length_beBytes 2 _) hwire
  have hqdcount : (readU16 w message.bytes 0 4 : Checked SealError Nat) =
      .ok response.questions.length := by
    have hfront : (beBytes 2 response.id.toNat ++ beBytes 2 response.flags.toNat).length = 4 := by
      simp only [List.length_append, length_beBytes]
    refine readU16_wire hroom _ (beBytes 2 response.answers.length ++
      (beBytes 2 response.authorities.toNat ++ (beBytes 2 response.additionals.toNat ++
        (response.questions.flatMap Question.wire ++
          (response.answers.flatMap Record.wire ++ response.rest)))))
      response.fewQuestions hfront ?_
    rw [hwire, Response.header]
    simp only [List.append_assoc]
  have hancount : (readU16 w message.bytes 0 6 : Checked SealError Nat) =
      .ok response.answers.length := by
    have hfront : (beBytes 2 response.id.toNat ++ (beBytes 2 response.flags.toNat ++
        beBytes 2 response.questions.length)).length = 6 := by
      simp only [List.length_append, length_beBytes]
    refine readU16_wire hroom _ (beBytes 2 response.authorities.toNat ++
      (beBytes 2 response.additionals.toNat ++ (response.questions.flatMap Question.wire ++
        (response.answers.flatMap Record.wire ++ response.rest))))
      response.fewAnswers hfront ?_
    rw [hwire, Response.header]
    simp only [List.append_assoc]
  rw [parseAnswers, if_neg (by omega), hflags, ok_bind]
  show (if response.rcode ≠ 0 then _ else _) = _
  by_cases hrcode : response.rcode = 0
  · rw [if_pos hrcode, if_neg (not_not.mpr hrcode), hqdcount, ok_bind, hancount, ok_bind,
      skipQuestions_wire hroom hbody, ok_bind, readAnswers_wire hroom expectedQtype hanswers]
    rfl
  · rw [if_neg hrcode, if_pos hrcode]
    rfl

end Wire

/-! ## A query -/

/-- The labels that were written, and what they say. -/
theorem encodeLabels_eq_ok : ∀ {labels : List String} {out written : Bytes},
    encodeLabels out labels = .ok written →
      ∃ wired : List Label, written = out ++ labelsWire wired ∧
        wired.map Label.bytes = labels.map utf8
  | [], out, written, h => by
    cases h
    exact ⟨[], (List.append_nil _).symm, rfl⟩
  | label :: labels, out, written, h => by
    rw [encodeLabels] at h
    split at h
    · cases h
    · next hlabel =>
      obtain ⟨hne, hshort⟩ := not_or.mp hlabel
      have hpos : 0 < (utf8 label).length := by
        rw [List.length_pos_iff]
        intro hnil
        exact hne (utf8_injective hnil)
      obtain ⟨wired, hwritten, hbytes⟩ := encodeLabels_eq_ok h
      refine ⟨⟨utf8 label, hpos, Nat.not_lt.mp hshort⟩ :: wired, ?_, ?_⟩
      · rw [hwritten, labelsWire_cons, Label.wire]
        simp only [List.append_assoc, List.cons_append, List.nil_append]
      · rw [List.map_cons, List.map_cons, hbytes]

/-- The pieces of a text with the dots between them. -/
theorem dotted_split (cs : List Char) :
    dotted ((cs.splitOn '.').map fun piece => utf8 (String.ofList piece)) =
      utf8 (String.ofList cs) := by
  induction cs with
  | nil => rfl
  | cons c cs ih =>
    obtain ⟨piece, pieces, hsplit⟩ := List.exists_cons_of_ne_nil (List.splitOn_ne_nil '.' cs)
    have hcons : utf8 (String.ofList (c :: cs)) =
        String.utf8EncodeChar c ++ utf8 (String.ofList cs) := by
      simp only [utf8_eq_flatMap, String.toList_ofList, List.flatMap_cons]
    rw [hsplit, List.map_cons] at ih
    rw [List.splitOn_cons_eq_if_modifyHead, hsplit, hcons, ← ih]
    split
    · next hdot =>
      have hc : String.utf8EncodeChar c = [0x2e] := by
        rw [eq_of_beq hdot]
        decide
      rw [hc]
      rfl
    · have hpiece : utf8 (String.ofList (c :: piece)) =
          String.utf8EncodeChar c ++ utf8 (String.ofList piece) := by
        simp only [utf8_eq_flatMap, String.toList_ofList, List.flatMap_cons]
      cases pieces with
      | nil =>
        show utf8 (String.ofList (c :: piece)) = _
        exact hpiece
      | cons next pieces =>
        show utf8 (String.ofList (c :: piece)) ++ 0x2e :: _ = _ ++ (_ ++ 0x2e :: _)
        rw [hpiece, List.append_assoc]

/-- **What the query asks for**: the normalized name, in labels of 1 to 63 bytes. -/
theorem buildQuery_decodes {name : String} {qtype id : UInt16} {message : Bytes}
    (h : buildQuery name qtype id = .ok message) :
    ∃ normalized labels, normalizeName name = .ok normalized ∧
      readQuery message =
        some ⟨id.toNat, { recursionDesired := true }, labels, qtype.toNat, 1⟩ ∧
      dotted labels = utf8 normalized ∧
      ∀ label ∈ labels, 1 ≤ label.length ∧ label.length ≤ 63 := by
  obtain ⟨normalized, hname, h⟩ := bind_eq_ok.mp h
  obtain ⟨encoded, hencoded, h⟩ := bind_eq_ok.mp h
  obtain ⟨out, hout, hencoded⟩ := bind_eq_ok.mp hencoded
  obtain ⟨wired, rfl, hbytes⟩ := encodeLabels_eq_ok hout
  obtain rfl := Except.ok.inj hencoded
  obtain rfl := Except.ok.inj h
  refine ⟨normalized, wired.map Label.bytes, hname, ?_, ?_, ?_⟩
  · have hread := @readQuery_wire id.toNat 0x0100 qtype.toNat 1 wired id.toNat_lt (by decide)
      qtype.toNat_lt (by decide)
    have hflags : Flags.ofWord 0x0100 = { recursionDesired := true } := by decide
    rw [hflags] at hread
    simp only [List.append_assoc, List.nil_append, List.cons_append]
    exact hread
  · have hdotted := dotted_split normalized.toList
    rw [String.ofList_toList] at hdotted
    rw [hbytes, split, List.map_map]
    exact hdotted
  · intro label hlabel
    obtain ⟨wire, -, rfl⟩ := List.mem_map.mp hlabel
    exact ⟨wire.nonempty, wire.short⟩

/-! ## The codec -/

/-- **The codec of the resolver**: its queries ask for the normalized name, no message stops its
parser, and of a response without an error it takes the addresses in order. -/
theorem dns_codec (w : Nat) :
    (∀ (name : String) (qtype id : UInt16) (message : Bytes),
      buildQuery name qtype id = .ok message →
        ∃ normalized labels, normalizeName name = .ok normalized ∧
          readQuery message =
            some ⟨id.toNat, { recursionDesired := true }, labels, qtype.toNat, 1⟩ ∧
          dotted labels = utf8 normalized ∧
          ∀ label ∈ labels, 1 ≤ label.length ∧ label.length ≤ 63) ∧
    (∀ (message : Slice w) (expectedQtype : UInt16),
      parseAnswers w message.bytes expectedQtype ≠ .error .panic) ∧
    ∀ (message : Slice w) (response : Response) (expectedQtype : UInt16),
      message.bytes = response.wire →
        parseAnswers w message.bytes expectedQtype =
          .ok (if response.rcode = 0 then addresses response.answers expectedQtype else []) := by
  refine ⟨fun name qtype id message h => buildQuery_decodes h, ?_, ?_⟩
  · intro message expectedQtype
    exact (parseAnswers_safe message expectedQtype).no_panic
  · intro message response expectedQtype h
    exact parseAnswers_wire message response h expectedQtype

/-- `example.com` as a question has it, and a pointer back to it. -/
def exampleLabels : List Label :=
  [⟨[0x65, 0x78, 0x61, 0x6d, 0x70, 0x6c, 0x65], Nat.zero_lt_succ 6, Nat.le_of_ble_eq_true rfl⟩,
    ⟨[0x63, 0x6f, 0x6d], Nat.zero_lt_succ 2, Nat.le_of_ble_eq_true rfl⟩]

theorem exampleLabels_short : (labelsWire exampleLabels).length ≤ 254 := by decide

def exampleName : Name := ⟨exampleLabels, .root, exampleLabels_short⟩

theorem pointer_mark : (0xc0 : UInt8) &&& 0xc0 = 0xc0 := by decide

theorem noLabels_short : (labelsWire []).length ≤ 254 := by decide

def examplePointer : Name := ⟨[], .pointer 0xc0 0x0c pointer_mark, noLabels_short⟩

theorem exampleData_short : ([93, 184, 216, 34] : Bytes).length < 65536 := by decide

/-- One A record for it. -/
def exampleRecord : Record := ⟨examplePointer, 1, 1, 60, [93, 184, 216, 34], exampleData_short⟩

theorem one_few : 1 < 65536 := by decide

/-- A response with that record. -/
def exampleResponse (flags : UInt16) : Response :=
  ⟨0x9999, flags, [⟨exampleName, 1, 1⟩], [exampleRecord], 0, 0, [], one_few, one_few⟩

theorem exampleResponse_length (flags : UInt16) : (exampleResponse flags).wire.length = 45 := by
  rfl

theorem exampleResponse_fits (flags : UInt16) :
    (exampleResponse flags).wire.length < 2 ^ (64 - 1) := by
  rw [exampleResponse_length]
  decide

def exampleSlice (flags : UInt16) : Slice 64 :=
  ⟨(exampleResponse flags).wire, Nat.le_of_ble_eq_true rfl, exampleResponse_fits flags⟩

theorem addresses_example :
    addresses [exampleRecord] qtypeA = [.v4 [93, 184, 216, 34] rfl] := rfl

/-- The query for it. -/
def exampleQuery : Bytes :=
  [0x12, 0x34, 1, 0, 0, 1, 0, 0, 0, 0, 0, 0, 7, 0x65, 0x78, 0x61, 0x6d, 0x70, 0x6c, 0x65, 3, 0x63,
    0x6f, 0x6d, 0, 0, 1, 0, 1]

theorem buildQuery_example : buildQuery "Example.COM." qtypeA 0x1234 = .ok exampleQuery := by
  rfl

/-- The query for `example.com`, and its address. -/
theorem dns_codec_example :
    (∃ normalized labels, normalizeName "Example.COM." = .ok normalized ∧
      readQuery exampleQuery = some ⟨0x1234, { recursionDesired := true }, labels, 1, 1⟩ ∧
      dotted labels = utf8 normalized ∧
      ∀ label ∈ labels, 1 ≤ label.length ∧ label.length ≤ 63) ∧
    parseAnswers 64 (exampleSlice 0x8180).bytes qtypeA = .ok [.v4 [93, 184, 216, 34] rfl] :=
  ⟨(dns_codec 64).1 "Example.COM." qtypeA 0x1234 exampleQuery buildQuery_example,
    (dns_codec 64).2.2 (exampleSlice 0x8180) (exampleResponse 0x8180) qtypeA rfl⟩

/-- An error in the header hides the answers. -/
theorem not_dns_codec :
    ¬ ∀ (message : Slice 64) (response : Response) (expectedQtype : UInt16),
      message.bytes = response.wire →
        parseAnswers 64 message.bytes expectedQtype =
          .ok (addresses response.answers expectedQtype) := by
  intro h
  have hanswers := h (exampleSlice 0x8183) (exampleResponse 0x8183) qtypeA rfl
  have hempty := parseAnswers_wire (exampleSlice 0x8183) (exampleResponse 0x8183) rfl qtypeA
  have hrcode : (exampleResponse 0x8183).rcode ≠ 0 := by decide
  rw [hempty, if_neg hrcode] at hanswers
  cases hanswers

end Basecrawl.Seal.Dns
