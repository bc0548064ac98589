/-
  HTTP/1.1 request messages: a writer, a reader, and their round trip.

  1. **Reader** — the head is cut into lines at CRLF up to the first empty line (`head`), a request
     line at its spaces, a field at its colon; the body has the length that is announced, and
     nothing may follow it.
  2. **Writer** — a start line, a line for each field, the empty line, the body.
  3. **Round trip (`read_write`)** — a message of tokens, visible targets and plain values is read
     back, with the blanks around its values dropped; its head has no other lines than those that
     were written (`head_write`).
-/
import Basecrawl.Lib.Numerals

namespace Basecrawl.Http1

open Text Numerals

/-- A request; the fields are raw bytes, in their order. -/
structure Message where
  method : Bytes
  target : Bytes
  fields : List (Bytes × Bytes)
  body : Bytes
deriving DecidableEq

def eol : Bytes := [13, 10]

/-! ## Bytes -/

/-- `tchar`. -/
def isTchar (b : UInt8) : Bool :=
  (0x30 ≤ b && b ≤ 0x39) || (0x41 ≤ b && b ≤ 0x5a) || (0x61 ≤ b && b ≤ 0x7a) ||
    (utf8 "!#$%&'*+-.^_\x60|~").contains b

/-- A byte of a field value. -/
def isFieldByte (b : UInt8) : Bool := b == 0x09 || (b ≥ 0x20 && b != 0x7f)

/-- A byte of a request target. -/
def isVisible (b : UInt8) : Bool := 0x21 ≤ b && b != 0x7f

def isBlank (b : UInt8) : Bool := b == 0x20 || b == 0x09

/-- A value without the optional whitespace around it. -/
def trimBlank (bytes : Bytes) : Bytes :=
  ((bytes.dropWhile isBlank).reverse.dropWhile isBlank).reverse

def lowerByte (b : UInt8) : UInt8 := if 0x41 ≤ b && b ≤ 0x5a then b + 0x20 else b

/-- A field name as it is compared. -/
def lowerName (name : Bytes) : Bytes := name.map lowerByte

/-! ## The reader -/

/-- The lines before the first empty one, and what follows it; `line` is the line so far,
backwards. -/
def head (line : Bytes) : Bytes → Option (List Bytes × Bytes)
  | a :: b :: rest =>
    if a = 13 ∧ b = 10 then
      if line = [] then some ([], rest)
      else (head [] rest).map fun lines => (line.reverse :: lines.1, lines.2)
    else head (a :: line) (b :: rest)
  | _ => none

/-- Up to the first separator, and behind it. -/
def cutAt (sep : UInt8) : Bytes → Option (Bytes × Bytes)
  | [] => none
  | b :: rest =>
    if b = sep then some ([], rest) else (cutAt sep rest).map fun cut => (b :: cut.1, cut.2)

/-- The method and the target. -/
def readStart (line : Bytes) : Option (Bytes × Bytes) :=
  (cutAt 0x20 line).bind fun method =>
    (cutAt 0x20 method.2).bind fun target =>
      if method.1 ≠ [] ∧ method.1.all isTchar ∧ target.1 ≠ [] ∧ target.1.all isVisible ∧
          target.2 = utf8 "HTTP/1.1" then
        some (method.1, target.1)
      else none

def readField (line : Bytes) : Option (Bytes × Bytes) :=
  (cutAt 0x3a line).bind fun field =>
    if field.1 ≠ [] ∧ field.1.all isTchar ∧ field.2.all isFieldByte then
      some (field.1, trimBlank field.2)
    else none

def isNamed (name : Bytes) (field : Bytes × Bytes) : Bool := lowerName field.1 == name

/-- The length of the body: that of the one `Content-Length`, or nothing. -/
def bodyLength (fields : List (Bytes × Bytes)) : Option Nat :=
  if fields.any (isNamed (utf8 "transfer-encoding")) then none
  else
    match fields.filter (isNamed (utf8 "content-length")) with
    | [] => some 0
    | [field] => (fromUtf8 field.2).bind fun text => decimal text.toList
    | _ :: _ :: _ => none

/-- A whole message, and nothing after it. -/
def read (bytes : Bytes) : Option Message :=
  (head [] bytes).bind fun lines =>
    match lines.1 with
    | [] => none
    | start :: rows =>
      (readStart start).bind fun start =>
        (rows.mapM readField).bind fun fields =>
          if bodyLength fields = some lines.2.length then
            some ⟨start.1, start.2, fields, lines.2⟩
          else none

/-! ## The writer -/

def Message.startLine (message : Message) : Bytes :=
  message.method ++ 0x20 :: (message.target ++ 0x20 :: utf8 "HTTP/1.1")

def fieldLine (field : Bytes × Bytes) : Bytes := field.1 ++ 0x3a :: 0x20 :: field.2

def Message.lines (message : Message) : List Bytes :=
  message.startLine :: message.fields.map fieldLine

def Message.write (message : Message) : Bytes :=
  message.lines.flatMap (fun line => line ++ eol) ++ eol ++ message.body

/-- A field that can be written. -/
structure WritableField (field : Bytes × Bytes) : Prop where
  nonempty : field.1 ≠ []
  name : field.1.all isTchar = true
  value : field.2.all isFieldByte = true

/-- A field as it is read. -/
def trimField (field : Bytes × Bytes) : Bytes × Bytes := (field.1, trimBlank field.2)

/-- A message that can be written. -/
structure Writable (message : Message) : Prop where
  method : message.method ≠ []
  token : message.method.all isTchar = true
  target : message.target ≠ []
  visible : message.target.all isVisible = true
  fields : ∀ field ∈ message.fields, WritableField field
  framed : bodyLength (message.fields.map trimField) = some message.body.length

/-! ## Lines -/

theorem head_line : ∀ {l line : Bytes} (rest : Bytes), 13 ∉ l →
    head line (l ++ (eol ++ rest)) =
      if line.reverse ++ l = [] then some ([], rest)
      else (head [] rest).map fun lines => ((line.reverse ++ l) :: lines.1, lines.2)
  | [], line, rest, _ => by
    rw [List.nil_append, List.append_nil, eol, List.cons_append, List.cons_append, List.nil_append,
      head, if_pos ⟨rfl, rfl⟩]
    simp only [List.reverse_eq_nil_iff]
  | a :: l, line, rest, h => by
    have ha : a ≠ 13 := fun hsame => h (hsame ▸ List.mem_cons_self)
    have ih := @head_line l (a :: line) rest fun hmem => h (List.mem_cons_of_mem a hmem)
    obtain ⟨b, tail, htail⟩ : ∃ b tail, l ++ (eol ++ rest) = b :: tail := by
      cases l with
      | nil => exact ⟨13, 10 :: rest, rfl⟩
      | cons b l => exact ⟨b, l ++ (eol ++ rest), rfl⟩
    have hline : (a :: line).reverse ++ l = line.reverse ++ a :: l := by
      rw [List.reverse_cons, List.append_assoc, List.singleton_append]
    rw [List.cons_append, htail, head, if_neg fun hend => ha hend.1, ← htail, ih, hline]

/-- The lines of a head. -/
theorem head_lines (body : Bytes) : ∀ {lines : List Bytes}, (∀ l ∈ lines, l ≠ [] ∧ 13 ∉ l) →
    head [] (lines.flatMap (fun line => line ++ eol) ++ eol ++ body) = some (lines, body)
  | [], _ => rfl
  | l :: lines, h => by
    obtain ⟨hne, hcr⟩ := h l List.mem_cons_self
    have ih := @head_lines body lines fun k hk => h k (List.mem_cons_of_mem l hk)
    have hne' : ¬ ([] : Bytes).reverse ++ l = [] := hne
    rw [List.flatMap_cons, List.append_assoc, List.append_assoc, List.append_assoc, head_line _ hcr,
      if_neg hne', ← List.append_assoc, ih]
    rfl

theorem cutAt_append {sep : UInt8} (rest : Bytes) : ∀ {l : Bytes}, sep ∉ l →
    cutAt sep (l ++ sep :: rest) = some (l, rest)
  | [], _ => by rw [List.nil_append, cutAt, if_pos rfl]
  | b :: l, h => by
    have hb : b ≠ sep := fun hsame => h (hsame ▸ List.mem_cons_self)
    rw [List.cons_append, cutAt, if_neg hb,
      cutAt_append rest fun hmem => h (List.mem_cons_of_mem b hmem)]
    rfl

/-- A byte that a class leaves out is not in a text of the class. -/
theorem not_mem_of_all {p : UInt8 → Bool} {bytes : Bytes} (h : bytes.all p = true) {b : UInt8}
    (hb : p b = false) : b ∉ bytes := by
  intro hmem
  have hp := List.all_eq_true.mp h b hmem
  rw [hb] at hp
  cases hp

section Written

variable {message : Message}

theorem readStart_startLine (h : Writable message) :
    readStart message.startLine = some (message.method, message.target) := by
  have hmethod : 0x20 ∉ message.method := not_mem_of_all h.token (by decide)
  have htarget : 0x20 ∉ message.target := not_mem_of_all h.visible (by decide)
  rw [readStart, Message.startLine, cutAt_append _ hmethod, Option.bind_some,
    cutAt_append _ htarget, Option.bind_some,
    if_pos ⟨h.method, h.token, h.target, h.visible, rfl⟩]

theorem readField_fieldLine {field : Bytes × Bytes} (h : WritableField field) :
    readField (fieldLine field) = some (trimField field) := by
  have hcolon : 0x3a ∉ field.1 := not_mem_of_all h.name (by decide)
  have hvalue : (0x20 :: field.2).all isFieldByte = true := by
    rw [List.all_cons, h.value]
    rfl
  have htrim : trimBlank (0x20 :: field.2) = trimBlank field.2 := rfl
  rw [readField, fieldLine, cutAt_append _ hcolon, Option.bind_some,
    if_pos ⟨h.nonempty, h.name, hvalue⟩, htrim, trimField]

/-- **The head of a message has the lines that were written**, and no other. -/
theorem head_write (h : Writable message) :
    head [] message.write = some (message.lines, message.body) := by
  refine head_lines message.body fun line hline => ?_
  rcases List.mem_cons.mp hline with rfl | hline
  · constructor
    · intro hnil
      exact h.method (List.append_eq_nil_iff.mp hnil).1
    · have hmethod : 13 ∉ message.method := not_mem_of_all h.token (by decide)
      have htarget : 13 ∉ message.target := not_mem_of_all h.visible (by decide)
      have hversion : 13 ∉ utf8 "HTTP/1.1" := by decide
      simp only [Message.startLine, List.mem_append, List.mem_cons, not_or]
      exact ⟨hmethod, by decide, htarget, by decide, hversion⟩
  · obtain ⟨field, hfield, rfl⟩ := List.mem_map.mp hline
    have hwritable := h.fields field hfield
    constructor
    · intro hnil
      exact hwritable.nonempty (List.append_eq_nil_iff.mp hnil).1
    · have hname : 13 ∉ field.1 := not_mem_of_all hwritable.name (by decide)
      have hvalue : 13 ∉ field.2 := not_mem_of_all hwritable.value (by decide)
      simp only [fieldLine, List.mem_append, List.mem_cons, not_or]
      exact ⟨hname, by decide, by decide, hvalue⟩

theorem mapM_readField : ∀ {fields : List (Bytes × Bytes)},
    (∀ field ∈ fields, WritableField field) →
    (fields.map fieldLine).mapM readField = some (fields.map trimField)
  | [], _ => rfl
  | field :: fields, h => by
    have ih := @mapM_readField fields fun f hf => h f (List.mem_cons_of_mem field hf)
    rw [List.map_cons, List.mapM_cons, readField_fieldLine (h field List.mem_cons_self), ih]
    rfl

/-- **Round trip.** -/
theorem read_write (h : Writable message) :
    read message.write = some { message with fields := message.fields.map trimField } := by
  rw [read, head_write h, Option.bind_some]
  simp only [Message.lines, readStart_startLine h, mapM_readField h.fields, Option.bind_some,
    if_pos h.framed]

end Written

end Basecrawl.Http1
