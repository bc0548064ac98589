/-
  The scan for a declared charset, by offsets.

  `Charset` reads suffixes of the input; the code keeps offsets into it, cuts slices and adds to a
  `usize`.  Here every slice, sum and `unreachable!` that can stop the program does, and every loop
  has fuel.

  1. **Program** — `tagEnd`, `parseMarkup`, `charsetFromMetaAttributes`, `charsetFromMetaBytes`.
  2. **Markup** — `parseMarkup_eq`: the offsets are those of the suffixes.
  3. **Attributes** — `attributePass_eq`: every pass goes on, and the loop ends.
  4. **The scan** — `prescanPass_eq`; the depth of templates is at most the offset, so it never
     wraps around (`ScanAt.Sound`).
-/
import Basecrawl.Core.Charset
import Basecrawl.Lib.While

namespace Basecrawl.Core.Prescan

open Text Outcome Panic While
open Charset (isAsciiWhitespace isAsciiAlphabetic isTagNameByte sameName rawTextElement
  headContextElement isDelimiter MetaAttributes isAttributeGap isAttributeNameByte
  isPlainValueByte Scan metaScanLimit)

/-! ## Program -/

/-- The variables of `tag_end`. -/
structure TagScan where
  index : Nat
  quote : Option UInt8

/-- A pass of `tag_end`. -/
def tagEndPass (w : Nat) (input : Bytes) (st : TagScan) :
    Checked Endless (Pass TagScan (Option Nat)) :=
  match input[st.index]?, st.quote with
  | none, _ => return .done none
  | some byte, some expectedQuote => do
    let index ← add w st.index 1
    return .next ⟨index, if byte = expectedQuote then none else some expectedQuote⟩
  | some byte, none =>
    if byte = 0x3e then return .done (some st.index)
    else if byte = 0x3c then return .done none
    else do
      let index ← add w st.index 1
      return .next ⟨index, if byte = 0x27 ∨ byte = 0x22 then some byte else none⟩

/-- `tag_end`. -/
def tagEnd (w : Nat) (input : Bytes) (index : Nat) : Checked Endless (Option Nat) :=
  loop (tagEndPass w input) (input.length + 1) ⟨index, none⟩

/-- `Markup`. -/
inductive Markup where
  | start (name attributes : Bytes) (next : Nat)
  | finish (name : Bytes) (next : Nat)
  | other (next : Nat)
  | incomplete

/-- `Markup::next`. -/
def Markup.next : Markup → Checked Endless Nat
  | .start _ _ next | .finish _ next | .other next => .ok next
  | .incomplete => .error .panic

/-- `tag_end(..).map(|end| Markup::Other { next: end + 1 }).unwrap_or(Markup::Incomplete)`. -/
def passOver (w : Nat) (input : Bytes) (index : Nat) : Checked Endless Markup := do
  match ← tagEnd w input index with
  | none => return .incomplete
  | some stop => do
    let next ← add w stop 1
    return .other next

/-- The position of the first `-->`. -/
def commentEnd : Bytes → Option Nat
  | [] => none
  | byte :: rest =>
    if (utf8 "-->").isPrefixOf (byte :: rest) then some 0 else (commentEnd rest).map (· + 1)

/-- `parse_markup` of a comment. -/
def parseComment (w : Nat) (input : Bytes) (start : Nat) : Checked Endless Markup := do
  let inner ← add w start 4
  let rest ← sliceFrom input inner
  match commentEnd rest with
  | none => return .incomplete
  | some position => do
    let stop ← add w inner position
    let next ← add w stop 3
    return .other next

/-- `parse_markup` from a name. -/
def parseTag (w : Nat) (isEnd : Bool) (input : Bytes) (nameStart : Nat) :
    Checked Endless Markup := do
  let nameEnd ← add w nameStart 1
  let nameEnd ← skip w isTagNameByte input nameEnd
  match input[nameEnd]? with
  | none => return .incomplete
  | some delimiter =>
    if isDelimiter delimiter then do
      match ← tagEnd w input nameEnd with
      | none => return .incomplete
      | some stop => do
        let name ← slice input nameStart nameEnd
        let attributes ← slice input nameEnd stop
        let next ← add w stop 1
        if isEnd then
          return if attributes.all isAsciiWhitespace then .finish name next else .other next
        else return .start name attributes next
    else passOver w input nameEnd

/-- `parse_markup` from the place of a name. -/
def parseNamed (w : Nat) (isEnd : Bool) (input : Bytes) (nameStart : Nat) :
    Checked Endless Markup :=
  match input[nameStart]? with
  | none => return .incomplete
  | some nameFirst =>
    if isAsciiAlphabetic nameFirst then parseTag w isEnd input nameStart
    else passOver w input nameStart

/-- `parse_markup`.  `debug_assert_eq!` stops the program as an index does. -/
def parseMarkup (w : Nat) (input : Bytes) (start : Nat) : Checked Endless Markup :=
  if input[start]? ≠ some 0x3c then .error .panic
  else do
    let opened ← sliceFrom input start
    if (utf8 "<!--").isPrefixOf opened then parseComment w input start
    else do
      let second ← add w start 1
      match input[second]? with
      | none => return .incomplete
      | some first =>
        if first = 0x21 ∨ first = 0x3f then do
          let inner ← add w start 2
          passOver w input inner
        else if first = 0x2f then do
          let nameStart ← add w start 2
          parseNamed w true input nameStart
        else parseNamed w false input second

/-- The value of an attribute and the offset behind it, from the offset behind its name. -/
def attributeValue (w : Nat) (attributes : Bytes) (i : Nat) : Checked Endless (Bytes × Nat) :=
  if attributes[i]? ≠ some 0x3d then return ([], i)
  else do
    let i ← add w i 1
    let i ← skip w isAsciiWhitespace attributes i
    if attributes[i]? = some 0x22 ∨ attributes[i]? = some 0x27 then do
      let quote ← index attributes i
      let valueStart ← add w i 1
      let i ← skip w (· != quote) attributes valueStart
      let value ← slice attributes valueStart i
      if i < attributes.length then do
        let i ← add w i 1
        return (value, i)
      else return (value, i)
    else do
      let stop ← skip w isPlainValueByte attributes i
      let value ← slice attributes i stop
      return (value, stop)

/-- The variables of `charset_from_meta_attributes`. -/
structure AttributeScan where
  index : Nat
  found : MetaAttributes

/-- A pass over the attributes. -/
def attributePass (w : Nat) (attributes : Bytes) (st : AttributeScan) :
    Checked Endless (Pass AttributeScan MetaAttributes) :=
  if st.index < attributes.length then do
    let nameStart ← skip w isAttributeGap attributes st.index
    let nameEnd ← skip w isAttributeNameByte attributes nameStart
    if nameStart = nameEnd then do
      let i ← add w nameEnd 1
      return .next { st with index := i }
    else do
      let name ← slice attributes nameStart nameEnd
      let i ← skip w isAsciiWhitespace attributes nameEnd
      let (value, i) ← attributeValue w attributes i
      return .next ⟨i, st.found.add name value⟩
  else return .done st.found

/-- `charset_from_meta_attributes`. -/
def charsetFromMetaAttributes (w : Nat) (attributes : Bytes) :
    Checked Endless (Option String) := do
  let st ← loop (attributePass w attributes) (attributes.length + 2) ⟨0, {}⟩
  return st.charset.or (if st.isContentType then st.content.bind charsetFromContentType else none)

/-- The variables of `charset_from_meta_bytes`. -/
structure ScanAt where
  offset : Nat := 0
  scan : Scan := {}

/-- `template_depth += 1`, behind its condition. -/
def openTemplate (w : Nat) (st : Scan) (name : Bytes) : Checked Endless Nat :=
  if sameName name (utf8 "template") then add w st.templateDepth 1 else .ok st.templateDepth

/-- `charset_from_meta_attributes`, behind its condition. -/
def declaredIn (w : Nat) (st : Scan) (depth : Nat) (name attributes : Bytes) :
    Checked Endless (Option String) :=
  if st.acceptsMetadata && depth == 0 && sameName name (utf8 "meta") then
    charsetFromMetaAttributes w attributes
  else .ok none

/-- A start tag outside raw text. -/
def startTag (w : Nat) (st : Scan) (name attributes : Bytes) (next : Nat) :
    Checked Endless (Pass ScanAt (Option String)) := do
  let depth ← openTemplate w st name
  match ← declaredIn w st depth name attributes with
  | some charset => return .done (some charset)
  | none =>
    let accepts := st.acceptsMetadata && !(depth == 0 && !headContextElement name)
    let rawText := if rawTextElement name then some name else st.rawText
    return .next { offset := next, scan := ⟨accepts, depth, rawText⟩ }

/-- Markup outside raw text.  `saturating_sub` is the difference of naturals. -/
def markupPass (w : Nat) (st : Scan) : Markup → Checked Endless (Pass ScanAt (Option String))
  | .start name attributes next => startTag w st name attributes next
  | .finish name next => return .next { offset := next, scan := st.endTag name }
  | .other next => return .next { offset := next, scan := st }
  | .incomplete => return .done none

/-- Markup in raw text. -/
def rawPass (st : Scan) (rawName : Bytes) (markup : Markup) :
    Checked Endless (Pass ScanAt (Option String)) :=
  match markup with
  | .finish name next =>
    if sameName name rawName then
      return .next { offset := next, scan := { st with rawText := none } }
    else do
      let next ← markup.next
      return .next { offset := next, scan := st }
  | .incomplete => return .done none
  | markup => do
    let next ← markup.next
    return .next { offset := next, scan := st }

/-- A pass of the scan. -/
def prescanPass (w : Nat) (input : Bytes) (st : ScanAt) :
    Checked Endless (Pass ScanAt (Option String)) :=
  if st.offset < input.length then
    match st.scan.rawText with
    | some rawName =>
      if sameName rawName (utf8 "plaintext") then return .done none
      else do
        let byte ← index input st.offset
        if byte ≠ 0x3c then do
          let offset ← add w st.offset 1
          return .next { st with offset := offset }
        else do
          let markup ← parseMarkup w input st.offset
          rawPass st.scan rawName markup
    | none => do
      let byte ← index input st.offset
      if byte ≠ 0x3c then do
        let offset ← add w st.offset 1
        return .next { offset := offset, scan := st.scan.text byte }
      else do
        let markup ← parseMarkup w input st.offset
        markupPass w st.scan markup
  else return .done none

/-- `charset_from_meta_bytes`. -/
def charsetFromMetaBytes (w : Nat) (body : Bytes) : Checked Endless (Option String) := do
  let input ← slice body 0 (min body.length metaScanLimit)
  loop (prescanPass w input) (input.length + 1) {}

/-- `n ≤ isize::MAX`, as the length of every slice is. -/
def FitsIsize (w n : Nat) : Prop := 2 * (n + 1) ≤ 2 ^ w

/-! ## Markup -/

theorem FitsIsize.lt {w n : Nat} (h : FitsIsize w n) : n + 1 < 2 ^ w := by
  unfold FitsIsize at h
  omega

variable {w : Nat} {input : Bytes} {i : Nat}

theorem getElem?_drop_cons {byte : UInt8} {rest : Bytes} (h : input.drop i = byte :: rest) :
    i < input.length ∧ input[i]? = some byte ∧ input.drop (i + 1) = rest := by
  refine ⟨lt_of_drop h, getElem?_of_drop h, ?_⟩
  rw [← List.drop_drop, h]
  rfl

theorem getElem?_drop_nil (h : input.drop i = []) : input[i]? = none :=
  List.getElem?_eq_none (List.drop_eq_nil_iff.mp h)

/-- What a pass of `tag_end` keeps: where the tag ends, by its suffix. -/
def TagScan.stop (input : Bytes) (st : TagScan) : Option Nat :=
  (Charset.tagEnd st.quote (input.drop st.index)).map fun found => st.index + found.1.length

theorem tagEndPass_holds (hw : input.length < 2 ^ w) (st : TagScan)
    (hst : st.index ≤ input.length) :
    ∃ p, tagEndPass w input st = .ok p ∧ p.Holds
      (fun st' => st'.index ≤ input.length ∧ st'.stop input = st.stop input ∧
        input.length - st'.index < input.length - st.index)
      (· = st.stop input) := by
  obtain ⟨i, quote⟩ := st
  unfold tagEndPass TagScan.stop
  dsimp only at hst ⊢
  cases hdrop : input.drop i with
  | nil =>
    rw [getElem?_drop_nil hdrop]
    refine ⟨_, rfl, ?_⟩
    cases quote with
    | none => rfl
    | some quote => rfl
  | cons byte rest =>
    obtain ⟨hless, hget, hrest⟩ := getElem?_drop_cons hdrop
    rw [hget]
    cases quote with
    | some expectedQuote =>
      dsimp only
      rw [add_eq rfl (by omega), ok_bind]
      refine ⟨_, rfl, ?_, ?_, ?_⟩
      · show i + 1 ≤ input.length
        omega
      · dsimp only
        rw [hrest, Charset.tagEnd, Option.map_map]
        refine congrArg (fun f => Option.map f _) (funext fun found => ?_)
        show i + 1 + found.1.length = i + (found.1.length + 1)
        omega
      · show input.length - (i + 1) < input.length - i
        omega
    | none =>
      dsimp only
      rw [Charset.tagEnd]
      split
      · exact ⟨_, rfl, rfl⟩
      split
      · exact ⟨_, rfl, rfl⟩
      rw [add_eq rfl (by omega), ok_bind]
      refine ⟨_, rfl, ?_, ?_, ?_⟩
      · show i + 1 ≤ input.length
        omega
      · dsimp only
        rw [hrest, Option.map_map]
        refine congrArg (fun f => Option.map f _) (funext fun found => ?_)
        show i + 1 + found.1.length = i + (found.1.length + 1)
        omega
      · show input.length - (i + 1) < input.length - i
        omega

theorem tagEnd_eq (hw : input.length < 2 ^ w) (hi : i ≤ input.length) :
    tagEnd w input i = .ok (TagScan.stop input ⟨i, none⟩) :=
  loop_eq (fun st : TagScan => st.index ≤ input.length) (fun st => input.length - st.index)
    (TagScan.stop input) (tagEndPass_holds hw) hi
    (show input.length - i < input.length + 1 by omega)

/-- Markup by offsets into an input of some length. -/
def offsets (length : Nat) : Charset.Markup → Markup
  | .start name attributes next => .start name attributes (length - next.length)
  | .finish name next => .finish name (length - next.length)
  | .other next => .other (length - next.length)
  | .incomplete => .incomplete

theorem passOver_eq (hw : input.length < 2 ^ w) (hi : i ≤ input.length) :
    passOver w input i = .ok (offsets input.length (Charset.passOver (input.drop i))) := by
  unfold passOver Charset.passOver
  rw [tagEnd_eq hw hi, ok_bind, TagScan.stop]
  cases hend : Charset.tagEnd none (input.drop i) with
  | none => rfl
  | some found =>
    obtain ⟨inner, after⟩ := found
    have hlength := Charset.tagEnd_length hend
    rw [List.length_drop] at hlength
    have hstop : i + inner.length + 1 = input.length - after.length := by omega
    dsimp only [Option.map_some]
    rw [add_eq hstop (by omega)]
    rfl

theorem afterComment_eq (xs : Bytes) :
    Charset.afterComment xs = (commentEnd xs).map fun position => xs.drop (position + 3) := by
  induction xs with
  | nil => rfl
  | cons byte rest ih =>
    rw [Charset.afterComment, commentEnd]
    split
    · rfl
    · rw [ih, Option.map_map]
      rfl

theorem commentEnd_le {xs : Bytes} {position : Nat} (h : commentEnd xs = some position) :
    position + 3 ≤ xs.length := by
  induction xs generalizing position with
  | nil => cases h
  | cons byte rest ih =>
    rw [commentEnd] at h
    split at h
    · rename_i hclose
      cases h
      exact (List.isPrefixOf_iff_prefix.mp hclose).length_le
    · obtain ⟨before, hbefore, rfl⟩ := Option.map_eq_some_iff.mp h
      have := ih hbefore
      rw [List.length_cons]
      omega

theorem parseComment_eq (hw : input.length < 2 ^ w) (hi : i + 4 ≤ input.length) :
    parseComment w input i =
      .ok (offsets input.length (Charset.parseComment (input.drop (i + 4)))) := by
  unfold parseComment Charset.parseComment
  rw [add_eq rfl (by omega), ok_bind, sliceFrom_eq hi, ok_bind, afterComment_eq]
  cases hend : commentEnd (input.drop (i + 4)) with
  | none => rfl
  | some position =>
    have hlength := commentEnd_le hend
    rw [List.length_drop] at hlength
    dsimp only [Option.map_some]
    rw [add_eq rfl (by omega), ok_bind, add_eq rfl (by omega), ok_bind, offsets, List.length_drop,
      List.length_drop]
    refine congrArg (fun next => Except.ok (Markup.other next)) ?_
    omega

/-- A name goes on from its first byte. -/
theorem skip_name {nameFirst : UInt8} {rest : Bytes} (hw : input.length < 2 ^ w)
    (hdrop : input.drop i = nameFirst :: rest) (hname : isTagNameByte nameFirst = true) :
    skip w isTagNameByte input (i + 1) =
      .ok (i + ((input.drop i).takeWhile isTagNameByte).length) := by
  obtain ⟨hless, -, hrest⟩ := getElem?_drop_cons hdrop
  rw [skip_eq hw hless, hrest, hdrop, List.takeWhile_cons_of_pos hname, List.length_cons]
  refine congrArg Except.ok ?_
  omega

theorem parseTag_eq {nameFirst : UInt8} {rest : Bytes} (hw : input.length < 2 ^ w) (isEnd : Bool)
    (hdrop : input.drop i = nameFirst :: rest) (hname : isTagNameByte nameFirst = true) :
    parseTag w isEnd input i =
      .ok (offsets input.length (Charset.parseTag isEnd (input.drop i))) := by
  obtain ⟨hless, -, -⟩ := getElem?_drop_cons hdrop
  unfold parseTag Charset.parseTag
  rw [add_eq rfl (by omega), ok_bind, skip_name hw hdrop hname, ok_bind]
  have hnameEnd := takeWhile_drop_le (p := isTagNameByte) (Nat.le_of_lt hless)
  have hafter := drop_skipped (p := isTagNameByte) input i
  have hslice := slice_skipped (ε := Endless) (p := isTagNameByte) (Nat.le_of_lt hless)
  dsimp only
  generalize (input.drop i).takeWhile isTagNameByte = name at *
  cases htail : (input.drop i).dropWhile isTagNameByte with
  | nil =>
    rw [htail] at hafter
    rw [getElem?_drop_nil hafter]
    rfl
  | cons delimiter more =>
    rw [htail] at hafter
    obtain ⟨-, hget, -⟩ := getElem?_drop_cons hafter
    rw [hget]
    dsimp only
    split
    · rw [tagEnd_eq hw hnameEnd, ok_bind, TagScan.stop]
      dsimp only
      rw [hafter]
      cases hend : Charset.tagEnd none (delimiter :: more) with
      | none => rfl
      | some found =>
        obtain ⟨attributes, next⟩ := found
        have htag := Charset.tagEnd_eq hend
        have hlength := Charset.tagEnd_length hend
        rw [← hafter, List.length_drop] at hlength
        dsimp only [Option.map_some]
        rw [hslice, ok_bind, slice_of_drop hnameEnd (hafter.trans htag) rfl, ok_bind,
          add_eq (show _ = input.length - next.length by omega) (by omega), ok_bind]
        cases isEnd with
        | true =>
          rw [if_pos rfl, if_pos rfl]
          split
          · rfl
          · rfl
        | false => rfl
    · rw [passOver_eq hw hnameEnd, hafter]

theorem isTagNameByte_of_alphabetic {byte : UInt8} (h : isAsciiAlphabetic byte = true) :
    isTagNameByte byte = true := by
  unfold isTagNameByte
  rw [h]
  rfl

theorem parseNamed_eq (hw : input.length < 2 ^ w) (isEnd : Bool) (hi : i ≤ input.length) :
    parseNamed w isEnd input i =
      .ok (offsets input.length (Charset.parseNamed isEnd (input.drop i))) := by
  unfold parseNamed
  cases hdrop : input.drop i with
  | nil =>
    rw [getElem?_drop_nil hdrop]
    rfl
  | cons nameFirst rest =>
    rw [(getElem?_drop_cons hdrop).2.1, Charset.parseNamed]
    dsimp only
    split
    · rename_i halphabetic
      rw [parseTag_eq hw isEnd hdrop (isTagNameByte_of_alphabetic halphabetic), hdrop]
    · rw [passOver_eq hw hi, hdrop]

/-- **Markup**: the offsets are those of the suffixes. -/
theorem parseMarkup_eq (hw : input.length < 2 ^ w) (hopen : input[i]? = some 0x3c) :
    parseMarkup w input i = .ok (offsets input.length (Charset.parseMarkup (input.drop i))) := by
  obtain ⟨hless, hbyte⟩ := List.getElem?_eq_some_iff.mp hopen
  have hdrop := List.drop_eq_getElem_cons hless
  rw [hbyte] at hdrop
  unfold parseMarkup Charset.parseMarkup
  rw [if_neg (not_not.mpr hopen), sliceFrom_eq (Nat.le_of_lt hless), ok_bind]
  split
  · rename_i hcomment
    have hfour := (List.isPrefixOf_iff_prefix.mp hcomment).length_le
    rw [List.length_drop, show (utf8 "<!--").length = 4 by decide] at hfour
    rw [parseComment_eq hw (by omega), List.drop_drop]
  · rw [add_eq rfl (by omega), ok_bind, List.drop_drop]
    cases hopened : input.drop (i + 1) with
    | nil =>
      rw [getElem?_drop_nil hopened]
      rfl
    | cons first rest =>
      obtain ⟨hless', hget, hrest⟩ := getElem?_drop_cons hopened
      rw [hget, Charset.parseOpened]
      dsimp only
      split
      · rw [add_eq rfl (by omega), ok_bind, passOver_eq hw (by omega), ← hrest]
      split
      · rw [add_eq rfl (by omega), ok_bind, parseNamed_eq hw true (by omega), ← hrest]
      · rw [parseNamed_eq hw false (Nat.le_of_lt hless'), hopened]

/-- The offset of what follows. -/
def Markup.next? : Markup → Option Nat
  | .start _ _ next | .finish _ next | .other next => some next
  | .incomplete => none

theorem offsets_next? (length : Nat) (markup : Charset.Markup) :
    (offsets length markup).next? = markup.next?.map (length - ·.length) := by
  cases markup <;> rfl

/-- **Progress**: what follows a piece of markup is behind its start, and in the input. -/
theorem parseMarkup_next {rest : Bytes} (hi : i < input.length)
    (hnext : (Charset.parseMarkup (input.drop i)).next? = some rest) :
    i < input.length - rest.length ∧ input.drop (input.length - rest.length) = rest := by
  have hne : input.drop i ≠ [] := by
    rw [ne_eq, List.drop_eq_nil_iff]
    omega
  have hsize := Charset.parseMarkup_size hne
  have hlength := Charset.Markup.next_length hnext
  rw [List.length_drop] at hsize
  refine ⟨by omega, ?_⟩
  have hsuffix := (Charset.parseMarkup_suffix hnext).trans (List.drop_suffix i input)
  exact (List.suffix_iff_eq_drop.mp hsuffix).symm

/-! ## Attributes -/

variable {attributes : Bytes}

/-- The value of an attribute, and an offset that is not in front of where it was looked for. -/
theorem attributeValue_eq (hw : attributes.length < 2 ^ w) (hi : i ≤ attributes.length) :
    ∃ j, attributeValue w attributes i =
        .ok ((Charset.attributeValue (attributes.drop i)).1, j) ∧
      i ≤ j ∧ j ≤ attributes.length ∧
      attributes.drop j = (Charset.attributeValue (attributes.drop i)).2 := by
  unfold attributeValue
  cases hdrop : attributes.drop i with
  | nil =>
    rw [getElem?_drop_nil hdrop, if_pos (by simp)]
    exact ⟨i, rfl, Nat.le_refl _, hi, hdrop⟩
  | cons byte rest =>
    obtain ⟨hless, hget, hrest⟩ := getElem?_drop_cons hdrop
    rw [hget, Charset.attributeValue]
    by_cases heq : byte = 0x3d
    · -- an `=`: the value starts behind the white space that follows it
      rw [if_neg (by simp [heq]), if_pos heq, add_eq rfl (by omega), ok_bind, skip_eq hw hless,
        ok_bind]
      have hle := takeWhile_drop_le (p := isAsciiWhitespace) hless
      have hbehind := drop_skipped (p := isAsciiWhitespace) attributes (i + 1)
      rw [hrest] at hle hbehind
      rw [hrest]
      generalize hj : i + 1 + (rest.takeWhile isAsciiWhitespace).length = j at hle hbehind ⊢
      cases hvalue : rest.dropWhile isAsciiWhitespace with
      | nil =>
        rw [hvalue] at hbehind
        rw [getElem?_drop_nil hbehind, if_neg (by simp), skip_eq hw hle, ok_bind,
          slice_skipped hle, ok_bind, hbehind]
        exact ⟨j, rfl, by omega, hle, hbehind⟩
      | cons quote more =>
        rw [hvalue] at hbehind
        obtain ⟨hless', hget', hmore⟩ := getElem?_drop_cons hbehind
        rw [hget']
        dsimp only
        simp only [Option.some.injEq]
        split
        · rw [index_of_drop _ hbehind, ok_bind, add_eq rfl (by omega), ok_bind, skip_eq hw hless',
            ok_bind, slice_skipped hless', ok_bind]
          have hle' := takeWhile_drop_le (p := (· != quote)) hless'
          have hbehind' := drop_skipped (p := (· != quote)) attributes (j + 1)
          rw [hmore] at hle' hbehind' ⊢
          generalize hk : j + 1 + (more.takeWhile (· != quote)).length = k at hle' hbehind' ⊢
          split
          · rename_i hclosed
            rw [add_eq rfl (by omega), ok_bind]
            refine ⟨k + 1, rfl, by omega, hclosed, ?_⟩
            rw [← List.drop_drop, hbehind']
          · -- the quote is never closed, and the value goes to the end
            rename_i hclosed
            refine ⟨k, rfl, by omega, hle', ?_⟩
            have hend : attributes.drop k = [] := List.drop_eq_nil_of_le (by omega)
            dsimp only
            rw [← hbehind', hend, List.drop_nil]
        · rw [skip_eq hw hle, ok_bind, slice_skipped hle, ok_bind, hbehind]
          have hle' := takeWhile_drop_le (p := isPlainValueByte) hle
          have hbehind' := drop_skipped (p := isPlainValueByte) attributes j
          rw [hbehind] at hle' hbehind'
          exact ⟨_, rfl, by omega, hle', hbehind'⟩
    · rw [if_pos (by simpa using heq), if_neg heq]
      exact ⟨i, rfl, Nat.le_refl _, hi, hdrop⟩

theorem metaAttributes_nil (fuel : Nat) (found : MetaAttributes) :
    Charset.metaAttributes fuel found [] = found := by
  induction fuel with
  | zero => rfl
  | succ fuel ih => exact ih

/-- **An attribute**: the pass goes on behind where it started. -/
theorem attributePass_eq (hw : attributes.length + 1 < 2 ^ w) {st : AttributeScan}
    (hst : st.index < attributes.length) :
    ∃ st', attributePass w attributes st = .ok (.next st') ∧ st.index < st'.index ∧
      st'.index ≤ attributes.length + 1 ∧
      ∀ fuel, Charset.metaAttributes (fuel + 1) st.found (attributes.drop st.index) =
        Charset.metaAttributes fuel st'.found (attributes.drop st'.index) := by
  obtain ⟨i, found⟩ := st
  have hlt : attributes.length < 2 ^ w := by omega
  unfold attributePass
  dsimp only at hst ⊢
  rw [if_pos hst, skip_eq hlt (Nat.le_of_lt hst), ok_bind]
  have hgap := takeWhile_drop_le (p := isAttributeGap) (Nat.le_of_lt hst)
  have hname := drop_skipped (p := isAttributeGap) attributes i
  generalize hstart : i + ((attributes.drop i).takeWhile isAttributeGap).length = nameStart at *
  rw [skip_eq hlt hgap, ok_bind]
  have hnameLe := takeWhile_drop_le (p := isAttributeNameByte) hgap
  have hafter := drop_skipped (p := isAttributeNameByte) attributes nameStart
  have hslice := slice_skipped (ε := Endless) (p := isAttributeNameByte) hgap
  simp only [Charset.metaAttributes, ← hname]
  generalize htake : (attributes.drop nameStart).takeWhile isAttributeNameByte = name at *
  by_cases hnil : name = []
  · -- no name here: one byte is passed over, which may be the one behind the end
    rw [hnil, List.length_nil, Nat.add_zero, if_pos rfl, add_eq rfl (by omega), ok_bind]
    refine ⟨_, rfl, ?_, ?_, fun fuel => ?_⟩
    · show i < nameStart + 1
      omega
    · show nameStart + 1 ≤ attributes.length + 1
      omega
    · rw [if_pos rfl, List.drop_drop]
  · have hpos := List.length_pos_iff.mpr hnil
    have hgap' := takeWhile_drop_le (p := isAsciiWhitespace) hnameLe
    have hvalueAt := drop_skipped (p := isAsciiWhitespace) attributes (nameStart + name.length)
    rw [if_neg (by omega), hslice, ok_bind, skip_eq hlt hnameLe, ok_bind]
    obtain ⟨j, hvalue, hij, hj, hrest⟩ := attributeValue_eq hlt hgap'
    rw [hvalue, ok_bind]
    rw [hvalueAt, hafter] at hrest ⊢
    refine ⟨_, rfl, ?_, ?_, fun fuel => ?_⟩
    · show i < j
      omega
    · show j ≤ attributes.length + 1
      omega
    · rw [if_neg hnil]
      dsimp only
      rw [hrest]

/-- **The attributes**: the loop ends, with what the suffixes say. -/
theorem charsetFromMetaAttributes_eq (hw : attributes.length + 1 < 2 ^ w) :
    charsetFromMetaAttributes w attributes =
      .ok (Charset.charsetFromMetaAttributes attributes) := by
  have hpass : ∀ st : AttributeScan, (∃ fuel, attributes.length - st.index ≤ fuel ∧
      Charset.metaAttributes fuel st.found (attributes.drop st.index) =
        Charset.metaAttributes attributes.length {} attributes) →
      ∃ p, attributePass w attributes st = .ok p ∧ p.Holds
        (fun st' => (∃ fuel, attributes.length - st'.index ≤ fuel ∧
          Charset.metaAttributes fuel st'.found (attributes.drop st'.index) =
            Charset.metaAttributes attributes.length {} attributes) ∧
          attributes.length + 1 - st'.index < attributes.length + 1 - st.index)
        (· = Charset.metaAttributes attributes.length {} attributes) := by
    rintro st ⟨fuel, hfuel, hsame⟩
    by_cases hmore : st.index < attributes.length
    · obtain ⟨st', hst', hless, hle, hstep⟩ := attributePass_eq hw hmore
      obtain ⟨fuel, rfl⟩ : ∃ k, fuel = k + 1 := ⟨fuel - 1, by omega⟩
      rw [hstep] at hsame
      exact ⟨_, hst', ⟨fuel, by omega, hsame⟩, by omega⟩
    · rw [List.drop_eq_nil_of_le (by omega), metaAttributes_nil] at hsame
      unfold attributePass
      rw [if_neg hmore]
      exact ⟨_, rfl, hsame⟩
  obtain ⟨found, hloop, rfl⟩ := loop_returns _
    (fun st : AttributeScan => attributes.length + 1 - st.index) _ hpass
    (s := ⟨0, {}⟩) ⟨attributes.length, Nat.sub_le _ _, rfl⟩
    (show attributes.length + 1 - 0 < attributes.length + 2 by omega)
  unfold charsetFromMetaAttributes
  rw [hloop, ok_bind]
  rfl

/-! ## The scan -/

/-- A turn over suffixes as a pass over offsets. -/
def passOf (length : Nat) : Except (Option String) (Scan × Bytes) → Pass ScanAt (Option String)
  | .ok (scan, next) => .next { offset := length - next.length, scan := scan }
  | .error result => .done result

theorem startTag_eq {scan : Scan} {name next : Bytes} {length : Nat}
    (hraw : scan.rawText = none) (hdepth : scan.templateDepth + 1 < 2 ^ w)
    (hw : attributes.length + 1 < 2 ^ w) :
    startTag w scan name attributes (length - next.length) =
      .ok (passOf length (scan.markup (.start name attributes next))) := by
  have hopen : openTemplate w scan name =
      .ok (if sameName name (utf8 "template") then scan.templateDepth + 1
        else scan.templateDepth) := by
    unfold openTemplate
    split
    · exact add_eq rfl hdepth
    · rfl
  have hdeclared : ∀ depth, declaredIn w scan depth name attributes =
      .ok (if scan.acceptsMetadata && depth == 0 && sameName name (utf8 "meta") then
        Charset.charsetFromMetaAttributes attributes else none) := by
    intro depth
    unfold declaredIn
    split
    · exact charsetFromMetaAttributes_eq hw
    · rfl
  unfold startTag Scan.markup Scan.startTag
  rw [hopen, ok_bind, hdeclared, ok_bind, hraw]
  dsimp only
  generalize (if sameName name (utf8 "template") then scan.templateDepth + 1
    else scan.templateDepth) = depth
  cases (if scan.acceptsMetadata && depth == 0 && sameName name (utf8 "meta") then
    Charset.charsetFromMetaAttributes attributes else none) with
  | none => rfl
  | some charset => rfl

theorem markupPass_eq {scan : Scan} {markup : Charset.Markup} {length : Nat}
    (hraw : scan.rawText = none) (hdepth : scan.templateDepth + 1 < 2 ^ w)
    (hw : markup.size + 1 < 2 ^ w) :
    markupPass w scan (offsets length markup) = .ok (passOf length (scan.markup markup)) := by
  cases markup with
  | start name attributes next =>
    have hsize : name.length + attributes.length + 2 + next.length + 1 < 2 ^ w := hw
    exact startTag_eq hraw hdepth (by omega)
  | finish name next => rfl
  | other next => rfl
  | incomplete => rfl

theorem rawPass_eq (scan : Scan) (rawName : Bytes) (markup : Charset.Markup) (length : Nat) :
    rawPass scan rawName (offsets length markup) =
      .ok (passOf length (scan.rawMarkup rawName markup)) := by
  cases markup with
  | start name attributes next => rfl
  | finish name next =>
    unfold rawPass offsets Scan.rawMarkup
    dsimp only
    split
    · rfl
    · rfl
  | other next => rfl
  | incomplete => rfl

/-- What holds of the scan between two passes. -/
structure ScanAt.Sound (input : Bytes) (st : ScanAt) : Prop where
  inside : st.offset ≤ input.length
  depth : st.scan.templateDepth ≤ st.offset

/-- **A pass of the scan** is a turn over the suffixes. -/
theorem prescanPass_eq {st : ScanAt} {byte : UInt8} {rest : Bytes}
    (hw : input.length + 1 < 2 ^ w) (hst : st.Sound input)
    (hdrop : input.drop st.offset = byte :: rest) :
    prescanPass w input st = .ok (passOf input.length (Charset.turn st.scan byte rest)) := by
  obtain ⟨hless, hget, hrest⟩ := getElem?_drop_cons hdrop
  have hlt : input.length < 2 ^ w := by omega
  have hdepth := hst.depth
  have hnext : st.offset + 1 = input.length - rest.length := by
    rw [← hrest, List.length_drop]
    omega
  have hmarkup : byte = 0x3c → parseMarkup w input st.offset =
      .ok (offsets input.length (Charset.parseMarkup (byte :: rest))) := by
    intro hopen
    rw [← hdrop]
    exact parseMarkup_eq hlt (hopen ▸ hget)
  have hsize : (Charset.parseMarkup (byte :: rest)).size + 1 < 2 ^ w := by
    have := Charset.parseMarkup_size (List.cons_ne_nil byte rest)
    rw [← hdrop, List.length_drop] at this
    rw [hdrop] at this
    omega
  unfold prescanPass Charset.turn
  rw [if_pos hless]
  cases hraw : st.scan.rawText with
  | some rawName =>
    dsimp only
    split
    · rfl
    rw [index_of_drop _ hdrop, ok_bind]
    by_cases hopen : byte = 0x3c
    · -- markup is read in raw text too: only what becomes of it differs
      rw [if_neg (not_not.mpr hopen), if_pos hopen, hmarkup hopen, ok_bind]
      exact rawPass_eq st.scan rawName _ _
    · rw [if_pos hopen, if_neg hopen, add_eq hnext (by omega)]
      rfl
  | none =>
    dsimp only
    rw [index_of_drop _ hdrop, ok_bind]
    by_cases hopen : byte = 0x3c
    · rw [if_neg (not_not.mpr hopen), if_pos hopen, hmarkup hopen, ok_bind]
      exact markupPass_eq hraw (by omega) hsize
    · rw [if_pos hopen, if_neg hopen, add_eq hnext (by omega)]
      rfl

theorem Scan.markup_depth {scan scan' : Scan} {markup : Charset.Markup} {next : Bytes}
    (h : scan.markup markup = .ok (scan', next)) :
    scan'.templateDepth ≤ scan.templateDepth + 1 := by
  cases markup with
  | start name attributes rest =>
    obtain ⟨scan₁, hstart, hsame⟩ := bind_eq_ok.mp h
    cases hsame
    unfold Scan.startTag at hstart
    dsimp only at hstart
    split at hstart
    · cases hstart
    · cases hstart
      dsimp only
      split
      · exact Nat.le_refl _
      · exact Nat.le_succ _
  | finish name rest =>
    cases h
    show (if sameName name (utf8 "template") then scan.templateDepth - 1
      else scan.templateDepth) ≤ scan.templateDepth + 1
    split
    · omega
    · exact Nat.le_succ _
  | other rest =>
    cases h
    exact Nat.le_succ _
  | incomplete => cases h

/-- A turn opens at most one template. -/
theorem turn_depth {scan scan' : Scan} {byte : UInt8} {rest next : Bytes}
    (h : Charset.turn scan byte rest = .ok (scan', next)) :
    scan'.templateDepth ≤ scan.templateDepth + 1 := by
  unfold Charset.turn at h
  split at h
  · split at h
    · cases h
    split at h
    · exact Nat.le_succ_of_le (Nat.le_of_eq (Charset.Scan.rawMarkup_next h).2.1)
    · cases h
      exact Nat.le_succ _
  · split at h
    · exact Scan.markup_depth h
    · cases h
      exact Nat.le_succ _

/-- A turn leaves a suffix. -/
theorem turn_suffix {scan scan' : Scan} {byte : UInt8} {rest next : Bytes}
    (h : Charset.turn scan byte rest = .ok (scan', next)) : next <:+ byte :: rest := by
  unfold Charset.turn at h
  split at h
  · split at h
    · cases h
    split at h
    · exact Charset.parseMarkup_suffix (Charset.Scan.rawMarkup_next h).1
    · cases h
      exact List.suffix_cons byte rest
  · split at h
    · exact Charset.parseMarkup_suffix (Charset.Scan.markup_next h)
    · cases h
      exact List.suffix_cons byte rest

/-- What a pass of the scan keeps: the result, by the suffixes. -/
def ScanAt.result (input : Bytes) (st : ScanAt) : Option String :=
  Charset.declared (Charset.scanFrom st.scan (input.drop st.offset))

/-- **A pass**: it is done, or it goes on behind where it started, with what holds of the scan. -/
theorem prescanPass_holds {st : ScanAt} (hw : input.length + 1 < 2 ^ w) (hst : st.Sound input) :
    ∃ p, prescanPass w input st = .ok p ∧ p.Holds
      (fun st' => st'.Sound input ∧ st'.result input = st.result input ∧
        st.offset < st'.offset) (· = st.result input) := by
  unfold ScanAt.result
  cases hdrop : input.drop st.offset with
  | nil =>
    have hend := List.drop_eq_nil_iff.mp hdrop
    unfold prescanPass
    rw [if_neg (by omega)]
    exact ⟨_, rfl, rfl⟩
  | cons byte rest =>
    refine ⟨_, prescanPass_eq hw hst hdrop, ?_⟩
    obtain ⟨hless, -, hrest⟩ := getElem?_drop_cons hdrop
    cases hturn : Charset.turn st.scan byte rest with
    | error result =>
      rw [Charset.scanFrom_of_error hturn]
      rfl
    | ok state =>
      obtain ⟨scan', next⟩ := state
      have hshorter := Charset.turn_shorter hturn
      have hdepth := turn_depth hturn
      have := hst.depth
      rw [← hrest, List.length_drop] at hshorter
      have hsuffix : next <:+ input := by
        exact (turn_suffix hturn).trans (hdrop ▸ List.drop_suffix st.offset input)
      refine ⟨⟨Nat.sub_le _ _, ?_⟩, ?_, ?_⟩
      · show scan'.templateDepth ≤ input.length - next.length
        omega
      · rw [Charset.scanFrom_of_ok hturn]
        exact congrArg (fun behind => Charset.declared (Charset.scanFrom scan' behind))
          (List.suffix_iff_eq_drop.mp hsuffix).symm
      · show st.offset < input.length - next.length
        omega

theorem sound_start (input : Bytes) : ScanAt.Sound input {} := ⟨Nat.zero_le _, Nat.le_refl _⟩

/-- **The scan** of an input: the loop ends, with what the suffixes say. -/
theorem loop_prescanPass_eq (hw : input.length + 1 < 2 ^ w) :
    loop (prescanPass w input) (input.length + 1) {} =
      .ok (Charset.declared (Charset.scanFrom {} input)) := by
  refine loop_eq (fun st : ScanAt => st.Sound input) (fun st => input.length - st.offset)
    (ScanAt.result input) (fun st hst => ?_) (sound_start input)
    (show input.length - 0 < input.length + 1 by omega)
  obtain ⟨p, hp, hholds⟩ := prescanPass_holds hw hst
  refine ⟨p, hp, ?_⟩
  cases p with
  | next st' =>
    obtain ⟨hst', hsame, hless⟩ := hholds
    have := hst'.inside
    exact ⟨hst', hsame, by omega⟩
  | done result => exact hholds

/-- **The whole function**. -/
theorem charsetFromMetaBytes_eq {body : Bytes} (hw : body.length + 1 < 2 ^ w) :
    charsetFromMetaBytes w body = .ok (Charset.charsetFromMetaBytes body) := by
  have hslice : (slice body 0 (min body.length metaScanLimit) : Checked Endless Bytes) =
      .ok (body.take metaScanLimit) := by
    rw [slice_eq (Nat.zero_le _) (Nat.min_le_left _ _), List.drop_zero, Nat.sub_zero, Nat.min_comm,
      ← List.take_eq_take_min]
  have hlength : (body.take metaScanLimit).length ≤ body.length := List.length_take_le' _ _
  unfold charsetFromMetaBytes Charset.charsetFromMetaBytes
  rw [hslice, ok_bind, loop_prescanPass_eq (by omega)]
  cases Charset.scanFrom {} (body.take metaScanLimit) with
  | ok scan => rfl
  | error result => rfl

/-! ## Bounds -/

/-- **In bounds, and to an end**, for every byte string: markup that starts in it and is complete is
    followed by an offset behind its start and in the input; the attributes are read to the end by
    passes that all go on; and so is the page, by passes that stay in the input, go on, and have
    opened no more templates than they have read bytes. -/
theorem prescan_in_bounds (w : Nat) (bytes : Bytes) (hbytes : FitsIsize w bytes.length) :
    (∀ start, bytes[start]? = some 0x3c → ∃ markup, parseMarkup w bytes start = .ok markup ∧
      ∀ next, markup.next? = some next → start < next ∧ next ≤ bytes.length) ∧
    (∃ charset, charsetFromMetaAttributes w bytes = .ok charset) ∧
    (∀ st : AttributeScan, st.index < bytes.length →
      ∃ st', attributePass w bytes st = .ok (.next st') ∧ st.index < st'.index) ∧
    (∃ charset, charsetFromMetaBytes w bytes = .ok charset) ∧
    ∀ st, Reaches (prescanPass w (bytes.take metaScanLimit)) {} st →
      st.offset ≤ (bytes.take metaScanLimit).length ∧ st.scan.templateDepth ≤ st.offset ∧
        ∃ p, prescanPass w (bytes.take metaScanLimit) st = .ok p ∧
          p.Holds (fun st' => st.offset < st'.offset) (fun _ => True) := by
  have hw : bytes.length + 1 < 2 ^ w := hbytes.lt
  refine ⟨fun start hopen => ?_, ⟨_, charsetFromMetaAttributes_eq hw⟩, fun st hst => ?_,
    ⟨_, charsetFromMetaBytes_eq hw⟩, fun st hreach => ?_⟩
  · have hless : start < bytes.length := (List.getElem?_eq_some_iff.mp hopen).1
    refine ⟨_, parseMarkup_eq (by omega) hopen, fun next hnext => ?_⟩
    rw [offsets_next?] at hnext
    obtain ⟨rest, hrest, rfl⟩ := Option.map_eq_some_iff.mp hnext
    exact ⟨(parseMarkup_next hless hrest).1, Nat.sub_le _ _⟩
  · obtain ⟨st', hpass, hless, -⟩ := attributePass_eq hw hst
    exact ⟨st', hpass, hless⟩
  · have hlength : (bytes.take metaScanLimit).length ≤ bytes.length := List.length_take_le' _ _
    have hinput : (bytes.take metaScanLimit).length + 1 < 2 ^ w := by omega
    have hsound : st.Sound (bytes.take metaScanLimit) := by
      refine hreach.invariant (fun s hs s' hnext => ?_) (sound_start _)
      obtain ⟨p, hp, hholds⟩ := prescanPass_holds hinput hs
      rw [hnext] at hp
      cases hp
      exact hholds.1
    obtain ⟨p, hp, hholds⟩ := prescanPass_holds hinput hsound
    refine ⟨hsound.inside, hsound.depth, p, hp, ?_⟩
    cases p with
    | next st' => exact hholds.2.2
    | done result => trivial

/-- A declaration behind a comment, in front of markup that is cut. -/
theorem prescan_in_bounds_comment : ∃ charset,
    charsetFromMetaBytes 64 (utf8 "<!--<--><meta charset=latin1><") = .ok charset :=
  (prescan_in_bounds 64 (utf8 "<!--<--><meta charset=latin1><") (by
    unfold FitsIsize
    decide)).2.2.2.1

end Basecrawl.Core.Prescan
