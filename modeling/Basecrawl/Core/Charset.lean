/-
  The charset that a page declares, as the scan of its first bytes finds it.

  1. **Program** — `parseMarkup` cuts one piece of markup off the input; `turn` is one turn of the
     scan, which ends early at a declaration, at markup that does not end, and in plain text.
  2. **Longer inputs** — what was read of an input is read of every longer one
     (`scanFrom_append`).
  3. **Sizes** and **scans** — every turn consumes a byte, so a scan is a run of turns to the end.
  4. **Room** — a declaration takes sixteen bytes, and more to get out of raw text and of templates
     (`room_of_scanFrom`).
  5. **Raw text** — the markup that starts in raw text is read as markup; when it ends there, the
     end tag is found (`scanFrom_raw`), and when it does not, nothing in a quiet tail is
     (`Tail.scanFrom_raw`).
  6. **Inertness** — `rawText_inert_iff`: exactly when raw text has no say.
-/
import Basecrawl.Core.Metadata
import Basecrawl.Lib.HttpMessage

namespace Basecrawl.Core.Charset

open Text Outcome

/-! ## Program -/

/-- `META_SCAN_LIMIT`. -/
def metaScanLimit : Nat := 8 * 1024

/-- `u8::is_ascii_whitespace`. -/
def isAsciiWhitespace (b : UInt8) : Bool :=
  b == 0x20 || b == 0x09 || b == 0x0a || b == 0x0c || b == 0x0d

/-- `u8::is_ascii_alphabetic`. -/
def isAsciiAlphabetic (b : UInt8) : Bool := (0x41 ≤ b && b ≤ 0x5a) || (0x61 ≤ b && b ≤ 0x7a)

/-- `is_tag_name_byte`: letters, digits, `-` and `:`. -/
def isTagNameByte (b : UInt8) : Bool :=
  isAsciiAlphabetic b || (0x30 ≤ b && b ≤ 0x39) || b == 0x2d || b == 0x3a

/-- `ascii_eq_ignore_case`. -/
def sameName (left right : Bytes) : Bool := Http1.lowerName left == Http1.lowerName right

/-- `raw_text_element`. -/
def rawTextElement (name : Bytes) : Bool :=
  ["script", "style", "textarea", "title", "xmp", "iframe", "noembed", "noframes", "noscript",
    "plaintext"].any fun candidate => sameName name (utf8 candidate)

/-- `head_context_element`. -/
def headContextElement (name : Bytes) : Bool :=
  ["html", "head", "base", "basefont", "bgsound", "link", "meta", "title", "noframes", "style",
    "template", "script", "noscript"].any fun candidate => sameName name (utf8 candidate)

/-- `tag_end`, after a quote that may be open: what stands before the `>`, and after it. A new `<`
    is no part of a tag. -/
def tagEnd : Option UInt8 → Bytes → Option (Bytes × Bytes)
  | _, [] => none
  | some quote, byte :: rest =>
      (tagEnd (if byte = quote then none else some quote) rest).map fun (inner, after) =>
        (byte :: inner, after)
  | none, byte :: rest =>
      if byte = 0x3e then some ([], rest)
      else if byte = 0x3c then none
      else
        (tagEnd (if byte = 0x27 ∨ byte = 0x22 then some byte else none) rest).map
          fun (inner, after) => (byte :: inner, after)

/-- What follows the first `-->`. -/
def afterComment : Bytes → Option Bytes
  | [] => none
  | byte :: rest =>
      if (utf8 "-->").isPrefixOf (byte :: rest) then some (rest.drop 2) else afterComment rest

/-- `Markup`, with what follows it. -/
inductive Markup where
  | start (name attributes next : Bytes)
  | finish (name next : Bytes)
  | other (next : Bytes)
  | incomplete

/-- Markup that is passed over up to its `>`. -/
def passOver (input : Bytes) : Markup :=
  match tagEnd none input with
  | some (_, next) => .other next
  | none => .incomplete

/-- The bytes that may follow a tag name. -/
def isDelimiter (b : UInt8) : Bool :=
  [0x3e, 0x2f, 0x09, 0x0a, 0x0c, 0x0d, 0x20].contains b

/-- `parse_markup` from the first byte of a name. -/
def parseTag (isEnd : Bool) (input : Bytes) : Markup :=
  let name := input.takeWhile isTagNameByte
  match input.dropWhile isTagNameByte with
  | [] => .incomplete
  | delimiter :: rest =>
      if isDelimiter delimiter then
        match tagEnd none (delimiter :: rest) with
        | none => .incomplete
        | some (attributes, next) =>
            if isEnd then
              if attributes.all isAsciiWhitespace then .finish name next else .other next
            else .start name attributes next
      else passOver (delimiter :: rest)

/-- `parse_markup` from the place of a name. -/
def parseNamed (isEnd : Bool) : Bytes → Markup
  | [] => .incomplete
  | nameFirst :: rest =>
      if isAsciiAlphabetic nameFirst then parseTag isEnd (nameFirst :: rest)
      else passOver (nameFirst :: rest)

/-- `parse_markup` of what is no comment, after the `<`. -/
def parseOpened : Bytes → Markup
  | [] => .incomplete
  | first :: rest =>
      if first = 0x21 ∨ first = 0x3f then passOver rest
      else if first = 0x2f then parseNamed true rest
      else parseNamed false (first :: rest)

/-- `parse_markup` of a comment, after its `<!--`. -/
def parseComment (input : Bytes) : Markup :=
  match afterComment input with
  | some next => .other next
  | none => .incomplete

/-- `parse_markup`, from the `<`. -/
def parseMarkup (input : Bytes) : Markup :=
  if (utf8 "<!--").isPrefixOf input then parseComment (input.drop 4)
  else parseOpened (input.drop 1)

/-- `ascii_string`. -/
def asciiString (bytes : Bytes) : Option String :=
  if bytes.all fun b => decide (b < 0x80) then
    some (asciiLower (String.ofList (bytes.map fun b => Char.ofNat b.toNat)))
  else none

/-- The variables of `charset_from_meta_attributes`. -/
structure MetaAttributes where
  charset : Option String := none
  content : Option String := none
  isContentType : Bool := false

/-- One attribute. -/
def MetaAttributes.add (st : MetaAttributes) (name value : Bytes) : MetaAttributes :=
  if st.charset = none ∧ sameName name (utf8 "charset") ∧ value ≠ [] then
    { st with charset := asciiString value }
  else if sameName name (utf8 "http-equiv") ∧ sameName value (utf8 "content-type") then
    { st with isContentType := true }
  else if st.content = none ∧ sameName name (utf8 "content") then
    { st with content := asciiString value }
  else st

/-- What is passed over in front of an attribute. -/
def isAttributeGap (b : UInt8) : Bool := isAsciiWhitespace b || b == 0x2f

/-- The bytes of an attribute name. -/
def isAttributeNameByte (b : UInt8) : Bool :=
  !isAsciiWhitespace b && !([0x3d, 0x2f, 0x3e, 0x27, 0x22].contains b)

/-- The bytes of a value without quotes. -/
def isPlainValueByte (b : UInt8) : Bool := !isAsciiWhitespace b && b != 0x2f

/-- The value of an attribute, and what follows it. -/
def attributeValue : Bytes → Bytes × Bytes
  | [] => ([], [])
  | byte :: rest =>
      if byte = 0x3d then
        match rest.dropWhile isAsciiWhitespace with
        | [] => ([], [])
        | quote :: more =>
            if quote = 0x22 ∨ quote = 0x27 then
              (more.takeWhile (· != quote), (more.dropWhile (· != quote)).drop 1)
            else
              ((quote :: more).takeWhile isPlainValueByte,
                (quote :: more).dropWhile isPlainValueByte)
      else ([], byte :: rest)

/-- The loop of `charset_from_meta_attributes`; every turn consumes a byte. -/
def metaAttributes : Nat → MetaAttributes → Bytes → MetaAttributes
  | 0, st, _ => st
  | fuel + 1, st, input =>
      let input := input.dropWhile isAttributeGap
      let name := input.takeWhile isAttributeNameByte
      if name = [] then metaAttributes fuel st (input.drop 1)
      else
        let (value, rest) := attributeValue
          ((input.dropWhile isAttributeNameByte).dropWhile isAsciiWhitespace)
        metaAttributes fuel (st.add name value) rest

/-- `charset_from_meta_attributes`. -/
def charsetFromMetaAttributes (attributes : Bytes) : Option String :=
  let st := metaAttributes attributes.length {} attributes
  st.charset.or (if st.isContentType then st.content.bind charsetFromContentType else none)

/-- The variables of the scan. -/
structure Scan where
  acceptsMetadata : Bool := true
  templateDepth : Nat := 0
  rawText : Option Bytes := none
deriving DecidableEq

/-- A start tag outside raw text. -/
def Scan.startTag (st : Scan) (name attributes : Bytes) : Except (Option String) Scan :=
  let depth := if sameName name (utf8 "template") then st.templateDepth + 1 else st.templateDepth
  let declared :=
    if st.acceptsMetadata && depth == 0 && sameName name (utf8 "meta") then
      charsetFromMetaAttributes attributes
    else none
  match declared with
  | some charset => .error (some charset)
  | none =>
      .ok
        { acceptsMetadata := st.acceptsMetadata && !(depth == 0 && !headContextElement name)
          templateDepth := depth
          rawText := if rawTextElement name then some name else none }

/-- An end tag outside raw text. -/
def Scan.endTag (st : Scan) (name : Bytes) : Scan :=
  let depth := if sameName name (utf8 "template") then st.templateDepth - 1 else st.templateDepth
  { st with
    acceptsMetadata := st.acceptsMetadata &&
      !(depth == 0 && (sameName name (utf8 "head") || sameName name (utf8 "body")))
    templateDepth := depth }

/-- A byte of text outside raw text: only white space and bytes beyond ASCII leave the head open. -/
def Scan.text (st : Scan) (byte : UInt8) : Scan :=
  { st with
    acceptsMetadata := st.acceptsMetadata &&
      !(st.templateDepth == 0 && decide (byte < 0x80) && !isAsciiWhitespace byte) }

/-- Markup in raw text: only the end tag of the element counts. -/
def Scan.rawMarkup (st : Scan) (rawName : Bytes) : Markup → Except (Option String) (Scan × Bytes)
  | .finish name next =>
      .ok (if sameName name rawName then { st with rawText := none } else st, next)
  | .start _ _ next | .other next => .ok (st, next)
  | .incomplete => .error none

/-- Markup outside raw text. -/
def Scan.markup (st : Scan) : Markup → Except (Option String) (Scan × Bytes)
  | .start name attributes next => do
      let st ← st.startTag name attributes
      .ok (st, next)
  | .finish name next => .ok (st.endTag name, next)
  | .other next => .ok (st, next)
  | .incomplete => .error none

/-- One turn of the scan, at a byte and what follows it: the new state and what is left, or the
    result when the scan ends early. -/
def turn (st : Scan) (byte : UInt8) (rest : Bytes) : Except (Option String) (Scan × Bytes) :=
  match st.rawText with
  | some rawName =>
      if sameName rawName (utf8 "plaintext") then .error none
      else if byte = 0x3c then st.rawMarkup rawName (parseMarkup (byte :: rest))
      else .ok (st, rest)
  | none =>
      if byte = 0x3c then st.markup (parseMarkup (byte :: rest)) else .ok (st.text byte, rest)

/-- The loop of the scan; every turn consumes a byte. -/
def scan : Nat → Scan → Bytes → Except (Option String) Scan
  | 0, st, _ => .ok st
  | _ + 1, st, [] => .ok st
  | fuel + 1, st, byte :: rest =>
      match turn st byte rest with
      | .ok (st, next) => scan fuel st next
      | .error result => .error result

/-- The scan of an input to its end: the state there, or the result when it ends early. -/
def scanFrom (st : Scan) (input : Bytes) : Except (Option String) Scan := scan input.length st input

/-- `charset_from_meta_bytes`. -/
def charsetFromMetaBytes (body : Bytes) : Option String :=
  match scanFrom {} (body.take metaScanLimit) with
  | .ok _ => none
  | .error result => result

/-! ## Longer inputs -/

/-- The same markup, with more behind it. -/
def Markup.append (more : Bytes) : Markup → Markup
  | .start name attributes next => .start name attributes (next ++ more)
  | .finish name next => .finish name (next ++ more)
  | .other next => .other (next ++ more)
  | .incomplete => .incomplete

theorem tagEnd_append {quote : Option UInt8} {input inner after : Bytes}
    (h : tagEnd quote input = some (inner, after)) (more : Bytes) :
    tagEnd quote (input ++ more) = some (inner, after ++ more) := by
  induction input generalizing quote inner with
  | nil =>
    cases quote with
    | none => cases h
    | some quote => cases h
  | cons byte rest ih =>
    cases quote with
    | some quote =>
      rw [tagEnd] at h
      obtain ⟨⟨inner', after'⟩, hrest, heq⟩ := Option.map_eq_some_iff.mp h
      cases heq
      rw [List.cons_append, tagEnd, ih hrest]
      rfl
    | none =>
      rw [tagEnd] at h
      rw [List.cons_append, tagEnd]
      split at h
      · rename_i hclose
        cases h
        rw [if_pos hclose]
      · rename_i hclose
        rw [if_neg hclose]
        split at h
        · cases h
        · rename_i hopen
          rw [if_neg hopen]
          obtain ⟨⟨inner', after'⟩, hrest, heq⟩ := Option.map_eq_some_iff.mp h
          cases heq
          rw [ih hrest]
          rfl

theorem isPrefixOf_append {pat input : Bytes} (h : pat.isPrefixOf input = true) (more : Bytes) :
    pat.isPrefixOf (input ++ more) = true := by
  rw [List.isPrefixOf_iff_prefix] at h ⊢
  exact h.trans (List.prefix_append _ _)

/-- A pattern that is no longer than the input starts it or not, whatever follows. -/
theorem isPrefixOf_append_of_length {pat input : Bytes} (h : pat.length ≤ input.length)
    (more : Bytes) : pat.isPrefixOf (input ++ more) = pat.isPrefixOf input := by
  cases hpre : pat.isPrefixOf input with
  | true => exact isPrefixOf_append hpre more
  | false =>
    cases hmore : pat.isPrefixOf (input ++ more) with
    | false => rfl
    | true =>
      rw [List.isPrefixOf_iff_prefix] at hmore
      have hshort := List.prefix_of_prefix_length_le hmore (List.prefix_append input more) h
      rw [List.isPrefixOf_iff_prefix.mpr hshort] at hpre
      cases hpre

theorem afterComment_length {input next : Bytes} (h : afterComment input = some next) :
    3 + next.length ≤ input.length := by
  induction input with
  | nil => cases h
  | cons byte rest ih =>
    rw [afterComment] at h
    split at h
    · rename_i hclose
      cases h
      have hlength := (List.isPrefixOf_iff_prefix.mp hclose).length_le
      have hthree : (utf8 "-->").length = 3 := by decide
      rw [hthree, List.length_cons] at hlength
      rw [List.length_drop, List.length_cons]
      omega
    · have := ih h
      rw [List.length_cons]
      omega

theorem afterComment_append {input next : Bytes} (h : afterComment input = some next)
    (more : Bytes) : afterComment (input ++ more) = some (next ++ more) := by
  induction input with
  | nil => cases h
  | cons byte rest ih =>
    have hlength := afterComment_length h
    have hthree : (utf8 "-->").length = 3 := by decide
    have hsame : (utf8 "-->").isPrefixOf (byte :: rest ++ more) =
        (utf8 "-->").isPrefixOf (byte :: rest) :=
      isPrefixOf_append_of_length (by omega) more
    rw [List.cons_append] at hsame ⊢
    rw [afterComment, hsame]
    rw [afterComment] at h
    split at h
    · rename_i hclose
      cases h
      rw [if_pos hclose, List.drop_append_of_le_length]
      rw [List.length_cons] at hlength
      omega
    · rename_i hclose
      rw [if_neg hclose]
      exact ih h

/-- Markup that is complete. -/
def Markup.Complete (markup : Markup) : Prop := markup ≠ .incomplete

theorem passOver_append {input : Bytes} (h : (passOver input).Complete) (more : Bytes) :
    passOver (input ++ more) = (passOver input).append more := by
  unfold passOver at h ⊢
  cases hend : tagEnd none input with
  | none =>
    rw [hend] at h
    exact absurd rfl h
  | some found =>
    obtain ⟨inner, after⟩ := found
    rw [tagEnd_append hend]
    rfl

theorem parseTag_append {isEnd : Bool} {input : Bytes} (h : (parseTag isEnd input).Complete)
    (more : Bytes) : parseTag isEnd (input ++ more) = (parseTag isEnd input).append more := by
  unfold parseTag at h ⊢
  cases hafter : input.dropWhile isTagNameByte with
  | nil =>
    rw [hafter] at h
    exact absurd rfl h
  | cons delimiter rest =>
    have hname : (input ++ more).takeWhile isTagNameByte = input.takeWhile isTagNameByte := by
      have hsplit := congrArg List.length (List.takeWhile_append_dropWhile (p := isTagNameByte)
        (l := input))
      rw [List.length_append, hafter, List.length_cons] at hsplit
      rw [List.takeWhile_append, if_neg (by omega)]
    have hdrop : (input ++ more).dropWhile isTagNameByte = delimiter :: (rest ++ more) := by
      rw [List.dropWhile_append, hafter]
      rfl
    rw [hafter] at h
    rw [hname, hdrop]
    dsimp only at h ⊢
    split
    · rename_i hdelimiter
      rw [if_pos hdelimiter] at h
      cases hend : tagEnd none (delimiter :: rest) with
      | none =>
        rw [hend] at h
        exact absurd rfl h
      | some found =>
        obtain ⟨attributes, next⟩ := found
        have hlonger := tagEnd_append hend more
        rw [List.cons_append] at hlonger
        rw [hlonger]
        dsimp only
        split
        · split
          · rfl
          · rfl
        · rfl
    · rename_i hdelimiter
      rw [if_neg hdelimiter] at h
      have hlonger := passOver_append h more
      rwa [List.cons_append] at hlonger

theorem parseNamed_append {isEnd : Bool} {input : Bytes} (h : (parseNamed isEnd input).Complete)
    (more : Bytes) : parseNamed isEnd (input ++ more) = (parseNamed isEnd input).append more := by
  cases input with
  | nil => exact absurd rfl h
  | cons nameFirst rest =>
    rw [parseNamed] at h
    rw [List.cons_append, parseNamed, parseNamed]
    split
    · rename_i hletter
      rw [if_pos hletter] at h
      exact parseTag_append h more
    · rename_i hletter
      rw [if_neg hletter] at h
      exact passOver_append h more

theorem parseOpened_append {input : Bytes} (h : (parseOpened input).Complete) (more : Bytes) :
    parseOpened (input ++ more) = (parseOpened input).append more := by
  cases input with
  | nil => exact absurd rfl h
  | cons first rest =>
    rw [parseOpened] at h
    rw [List.cons_append, parseOpened, parseOpened]
    split
    · rename_i hbang
      rw [if_pos hbang] at h
      exact passOver_append h more
    · rename_i hbang
      rw [if_neg hbang] at h
      split
      · rename_i hslash
        rw [if_pos hslash] at h
        exact parseNamed_append h more
      · rename_i hslash
        rw [if_neg hslash] at h
        exact parseNamed_append h more

theorem parseComment_append {input : Bytes} (h : (parseComment input).Complete) (more : Bytes) :
    parseComment (input ++ more) = (parseComment input).append more := by
  unfold parseComment at h ⊢
  cases hafter : afterComment input with
  | none =>
    rw [hafter] at h
    exact absurd rfl h
  | some next =>
    rw [afterComment_append hafter]
    rfl

/-- What may still become a comment is not complete. -/
theorem not_comment_of_complete {input more : Bytes} (h : (parseOpened (input.drop 1)).Complete)
    (hnot : ¬ (utf8 "<!--").isPrefixOf input = true) :
    ¬ (utf8 "<!--").isPrefixOf (input ++ more) = true := by
  intro hlonger
  by_cases hlength : 4 ≤ input.length
  · have hfour : (utf8 "<!--").length ≤ input.length := hlength
    rw [isPrefixOf_append_of_length hfour] at hlonger
    exact hnot hlonger
  · -- an input of less than four bytes that a comment starts with
    have hshort : input <+: utf8 "<!--" := by
      refine List.prefix_of_prefix_length_le (List.prefix_append input more)
        (List.isPrefixOf_iff_prefix.mp hlonger) ?_
      show input.length ≤ 4
      omega
    have hopen : ∀ n < 4, ¬ (parseOpened (((utf8 "<!--").take n).drop 1)).Complete := by
      intro n hn
      rcases n with _ | _ | _ | _ | n
      · exact fun h => h rfl
      · exact fun h => h rfl
      · exact fun h => h rfl
      · exact fun h => h rfl
      · omega
    rw [List.prefix_iff_eq_take.mp hshort] at h
    exact hopen _ (by omega) h

/-- Markup that ends in an input ends there in every longer one. -/
theorem parseMarkup_append {input : Bytes} (h : (parseMarkup input).Complete) (more : Bytes)
    (hne : input ≠ []) : parseMarkup (input ++ more) = (parseMarkup input).append more := by
  unfold parseMarkup at h ⊢
  by_cases hcomment : (utf8 "<!--").isPrefixOf input = true
  · have hlength : 4 ≤ input.length := (List.isPrefixOf_iff_prefix.mp hcomment).length_le
    rw [if_pos hcomment] at h ⊢
    rw [if_pos (isPrefixOf_append hcomment more), List.drop_append_of_le_length hlength]
    exact parseComment_append h more
  · rw [if_neg hcomment] at h ⊢
    have hone : 1 ≤ input.length := List.length_pos_iff.mpr hne
    rw [if_neg (not_comment_of_complete h hcomment), List.drop_append_of_le_length hone]
    exact parseOpened_append h more

theorem Scan.rawMarkup_append {st st' : Scan} {rawName next : Bytes} {m : Markup}
    (h : st.rawMarkup rawName m = .ok (st', next)) (more : Bytes) :
    m.Complete ∧ st.rawMarkup rawName (m.append more) = .ok (st', next ++ more) := by
  cases m with
  | start name attributes rest =>
    cases h
    exact ⟨fun hm => Markup.noConfusion hm, rfl⟩
  | finish name rest =>
    cases h
    exact ⟨fun hm => Markup.noConfusion hm, rfl⟩
  | other rest =>
    cases h
    exact ⟨fun hm => Markup.noConfusion hm, rfl⟩
  | incomplete => cases h

theorem Scan.markup_append {st st' : Scan} {next : Bytes} {m : Markup}
    (h : st.markup m = .ok (st', next)) (more : Bytes) :
    m.Complete ∧ st.markup (m.append more) = .ok (st', next ++ more) := by
  cases m with
  | start name attributes rest =>
    obtain ⟨st₁, hstart, hst⟩ := bind_eq_ok.mp h
    cases hst
    exact ⟨fun hm => Markup.noConfusion hm, bind_eq_ok.mpr ⟨_, hstart, rfl⟩⟩
  | finish name rest =>
    cases h
    exact ⟨fun hm => Markup.noConfusion hm, rfl⟩
  | other rest =>
    cases h
    exact ⟨fun hm => Markup.noConfusion hm, rfl⟩
  | incomplete => cases h

theorem turn_append {st st' : Scan} {byte : UInt8} {rest next : Bytes}
    (h : turn st byte rest = .ok (st', next)) (more : Bytes) :
    turn st byte (rest ++ more) = .ok (st', next ++ more) := by
  unfold turn at h ⊢
  split at h
  · rename_i rawName hraw
    split at h
    · cases h
    rename_i hplain
    rw [if_neg hplain]
    split at h
    · rename_i hopen
      obtain ⟨hcomplete, hlonger⟩ := Scan.rawMarkup_append h more
      rw [if_pos hopen, ← List.cons_append, parseMarkup_append hcomplete more (List.cons_ne_nil _ _)]
      exact hlonger
    · rename_i hopen
      cases h
      rw [if_neg hopen]
  · rename_i hraw
    split at h
    · rename_i hopen
      obtain ⟨hcomplete, hlonger⟩ := Scan.markup_append h more
      rw [if_pos hopen, ← List.cons_append, parseMarkup_append hcomplete more (List.cons_ne_nil _ _)]
      exact hlonger
    · rename_i hopen
      cases h
      rw [if_neg hopen]

/-! ## Sizes -/

/-- The bytes that a piece of markup takes at least, with what follows it. -/
def Markup.size : Markup → Nat
  | .start name attributes next => name.length + attributes.length + 2 + next.length
  | .finish name next => name.length + 3 + next.length
  | .other next => 1 + next.length
  | .incomplete => 0

/-- What ends a tag is the `>` after its text. -/
theorem tagEnd_eq {quote : Option UInt8} {input inner after : Bytes}
    (h : tagEnd quote input = some (inner, after)) : input = inner ++ 0x3e :: after := by
  induction input generalizing quote inner with
  | nil =>
    cases quote with
    | none => cases h
    | some quote => cases h
  | cons byte rest ih =>
    cases quote with
    | some quote =>
      rw [tagEnd] at h
      obtain ⟨⟨inner', after'⟩, hrest, heq⟩ := Option.map_eq_some_iff.mp h
      cases heq
      rw [ih hrest, List.cons_append]
    | none =>
      rw [tagEnd] at h
      split at h
      · rename_i hclose
        cases h
        rw [hclose, List.nil_append]
      split at h
      · cases h
      · obtain ⟨⟨inner', after'⟩, hrest, heq⟩ := Option.map_eq_some_iff.mp h
        cases heq
        rw [ih hrest, List.cons_append]

theorem tagEnd_length {quote : Option UInt8} {input inner after : Bytes}
    (h : tagEnd quote input = some (inner, after)) :
    input.length = inner.length + 1 + after.length := by
  rw [tagEnd_eq h, List.length_append, List.length_cons]
  omega

theorem tagEnd_suffix {quote : Option UInt8} {input inner after : Bytes}
    (h : tagEnd quote input = some (inner, after)) : after <:+ input := by
  rw [tagEnd_eq h]
  exact (List.suffix_cons _ _).trans (List.suffix_append _ _)

theorem passOver_size (input : Bytes) : (passOver input).size ≤ input.length := by
  unfold passOver
  split
  · rename_i hend
    have := tagEnd_length hend
    show 1 + _ ≤ _
    omega
  · exact Nat.zero_le _

theorem parseTag_size (isEnd : Bool) (input : Bytes) :
    (parseTag isEnd input).size ≤ input.length + (if isEnd then 2 else 1) := by
  have hsplit := congrArg List.length (List.takeWhile_append_dropWhile (p := isTagNameByte)
    (l := input))
  rw [List.length_append] at hsplit
  unfold parseTag
  dsimp only
  cases hafter : input.dropWhile isTagNameByte with
  | nil => exact Nat.zero_le _
  | cons delimiter rest =>
    rw [hafter] at hsplit
    dsimp only
    split
    · split
      · exact Nat.zero_le _
      · rename_i attributes next hend
        have hlength := tagEnd_length hend
        cases isEnd with
        | true =>
          rw [if_pos rfl, if_pos rfl]
          split
          · show _ + 3 + _ ≤ _
            omega
          · show 1 + _ ≤ _
            omega
        | false =>
          show _ + _ + 2 + _ ≤ _ + 1
          omega
    · have := passOver_size (delimiter :: rest)
      omega

theorem parseNamed_size (isEnd : Bool) (input : Bytes) :
    (parseNamed isEnd input).size ≤ input.length + (if isEnd then 2 else 1) := by
  cases input with
  | nil => exact Nat.zero_le _
  | cons nameFirst rest =>
    rw [parseNamed]
    split
    · exact parseTag_size isEnd _
    · have := passOver_size (nameFirst :: rest)
      omega

theorem parseMarkup_size {input : Bytes} (h : input ≠ []) :
    (parseMarkup input).size ≤ input.length := by
  unfold parseMarkup
  split
  · unfold parseComment
    split
    · rename_i next hafter
      have := afterComment_length hafter
      rw [List.length_drop] at this
      show 1 + _ ≤ _
      omega
    · exact Nat.zero_le _
  · obtain ⟨byte, rest, rfl⟩ := List.exists_cons_of_ne_nil h
    show (parseOpened rest).size ≤ _
    rw [List.length_cons]
    cases rest with
    | nil => exact Nat.zero_le _
    | cons first rest =>
      rw [List.length_cons, parseOpened]
      split
      · have := passOver_size rest
        omega
      split
      · have := parseNamed_size true rest
        rw [if_pos rfl] at this
        omega
      · have := parseNamed_size false (first :: rest)
        rw [if_neg Bool.false_ne_true, List.length_cons] at this
        omega

/-- What follows a piece of markup. -/
def Markup.next? : Markup → Option Bytes
  | .start _ _ next | .finish _ next | .other next => some next
  | .incomplete => none

theorem Markup.next_length {m : Markup} {next : Bytes} (h : m.next? = some next) :
    next.length < m.size := by
  cases m with
  | start name attributes rest =>
    cases h
    show _ < _ + _ + 2 + _
    omega
  | finish name rest =>
    cases h
    show _ < _ + 3 + _
    omega
  | other rest =>
    cases h
    show _ < 1 + _
    omega
  | incomplete => cases h

theorem Scan.rawMarkup_next {st st' : Scan} {rawName next : Bytes} {m : Markup}
    (h : st.rawMarkup rawName m = .ok (st', next)) :
    m.next? = some next ∧ st'.templateDepth = st.templateDepth ∧
      st'.acceptsMetadata = st.acceptsMetadata := by
  cases m with
  | start name attributes rest =>
    cases h
    exact ⟨rfl, rfl, rfl⟩
  | finish name rest =>
    cases h
    refine ⟨rfl, ?_, ?_⟩
    · split
      · rfl
      · rfl
    · split
      · rfl
      · rfl
  | other rest =>
    cases h
    exact ⟨rfl, rfl, rfl⟩
  | incomplete => cases h

theorem Scan.markup_next {st st' : Scan} {next : Bytes} {m : Markup}
    (h : st.markup m = .ok (st', next)) : m.next? = some next := by
  cases m with
  | start name attributes rest =>
    obtain ⟨st₁, -, hst⟩ := bind_eq_ok.mp h
    cases hst
    rfl
  | finish name rest =>
    cases h
    rfl
  | other rest =>
    cases h
    rfl
  | incomplete => cases h

theorem turn_shorter {st st' : Scan} {byte : UInt8} {rest next : Bytes}
    (h : turn st byte rest = .ok (st', next)) : next.length ≤ rest.length := by
  have hmarkup : ∀ {m : Markup}, m = parseMarkup (byte :: rest) → m.next? = some next →
      next.length ≤ rest.length := by
    intro m hm hnext
    have hsize : (parseMarkup (byte :: rest)).size ≤ rest.length + 1 :=
      parseMarkup_size (List.cons_ne_nil _ _)
    have hlt := Markup.next_length hnext
    rw [hm] at hlt
    omega
  unfold turn at h
  split at h
  · split at h
    · cases h
    split at h
    · exact hmarkup rfl (Scan.rawMarkup_next h).1
    · cases h
      exact Nat.le_refl _
  · split at h
    · exact hmarkup rfl (Scan.markup_next h)
    · cases h
      exact Nat.le_refl _

/-! ## Scans -/

/-- More turns than bytes make no difference. -/
theorem scan_eq_scanFrom {fuel : Nat} {input : Bytes} (h : input.length ≤ fuel) (st : Scan) :
    scan fuel st input = scanFrom st input := by
  have hgen : ∀ n fuel st (input : Bytes), input.length ≤ n → n ≤ fuel →
      scan fuel st input = scan n st input := by
    intro n
    induction n with
    | zero =>
      intro fuel st input hlength hfuel
      obtain rfl : input = [] := List.length_eq_zero_iff.mp (by omega)
      cases fuel with
      | zero => rfl
      | succ fuel => rfl
    | succ n ih =>
      intro fuel st input hlength hfuel
      obtain ⟨fuel, rfl⟩ : ∃ k, fuel = k + 1 := ⟨fuel - 1, by omega⟩
      cases input with
      | nil => rfl
      | cons byte rest =>
        rw [scan, scan]
        split
        · rename_i st' next hturn
          have hnext := turn_shorter hturn
          rw [List.length_cons] at hlength
          exact ih fuel st' next (by omega) (by omega)
        · rfl
  exact hgen input.length fuel st input (Nat.le_refl _) h

theorem scanFrom_nil (st : Scan) : scanFrom st [] = .ok st := rfl

theorem scanFrom_of_ok {st st' : Scan} {byte : UInt8} {rest next : Bytes}
    (h : turn st byte rest = .ok (st', next)) :
    scanFrom st (byte :: rest) = scanFrom st' next := by
  rw [scanFrom, List.length_cons, scan, h]
  exact scan_eq_scanFrom (turn_shorter h) st'

theorem scanFrom_of_error {st : Scan} {byte : UInt8} {rest : Bytes} {result : Option String}
    (h : turn st byte rest = .error result) : scanFrom st (byte :: rest) = .error result := by
  rw [scanFrom, List.length_cons, scan, h]

/-- **Longer inputs**: a scan that gets to the end of an input goes on from there. -/
theorem scanFrom_append {st st' : Scan} {a : Bytes} (h : scanFrom st a = .ok st') (b : Bytes) :
    scanFrom st (a ++ b) = scanFrom st' b := by
  induction hn : a.length using Nat.strong_induction_on generalizing st a with
  | _ n ih =>
    cases a with
    | nil =>
      cases h
      rfl
    | cons byte rest =>
      cases hturn : turn st byte rest with
      | error result =>
        rw [scanFrom_of_error hturn] at h
        cases h
      | ok found =>
        obtain ⟨st₁, next⟩ := found
        have hnext := turn_shorter hturn
        rw [List.length_cons] at hn
        rw [scanFrom_of_ok hturn] at h
        rw [List.cons_append, scanFrom_of_ok (turn_append hturn b)]
        exact ih next.length (by omega) h rfl

/-! ## Room -/

theorem sameName_length {left right : Bytes} (h : sameName left right = true) :
    left.length = right.length := by
  have hlower := congrArg List.length (beq_iff_eq.mp h)
  rwa [Http1.lowerName, Http1.lowerName, List.length_map, List.length_map] at hlower

/-- A value takes its own bytes and the `=`; what follows it is shorter. -/
theorem attributeValue_length (input : Bytes) :
    (attributeValue input).2.length ≤ input.length ∧
      ((attributeValue input).1 ≠ [] →
        (attributeValue input).1.length + 1 ≤ input.length) := by
  cases input with
  | nil => exact ⟨Nat.le_refl _, fun h => absurd rfl h⟩
  | cons byte rest =>
    rw [attributeValue]
    split
    · have hrest : (rest.dropWhile isAsciiWhitespace).length ≤ rest.length :=
        (List.dropWhile_suffix _).length_le
      rw [List.length_cons]
      split
      · exact ⟨Nat.zero_le _, fun h => absurd rfl h⟩
      · rename_i quote more hmore
        rw [hmore, List.length_cons] at hrest
        split
        · have hvalue : (more.takeWhile (· != quote)).length ≤ more.length :=
            (List.takeWhile_prefix _).length_le
          have hdrop : (more.dropWhile (· != quote)).length ≤ more.length :=
            (List.dropWhile_suffix _).length_le
          dsimp only
          refine ⟨?_, fun _ => ?_⟩
          · rw [List.length_drop]
            omega
          · omega
        · have hvalue : ((quote :: more).takeWhile isPlainValueByte).length ≤ more.length + 1 :=
            (List.takeWhile_prefix _).length_le
          have hdrop : ((quote :: more).dropWhile isPlainValueByte).length ≤ more.length + 1 :=
            (List.dropWhile_suffix _).length_le
          dsimp only
          refine ⟨?_, fun _ => ?_⟩
          · omega
          · omega
    · exact ⟨Nat.le_refl _, fun h => absurd rfl h⟩

theorem MetaAttributes.add_charset {st : MetaAttributes} {name value : Bytes}
    (h : (st.add name value).charset.isSome = true) :
    st.charset.isSome = true ∨ name.length = 7 ∧ value ≠ [] := by
  unfold add at h
  split at h
  · rename_i hcharset
    exact Or.inr ⟨sameName_length hcharset.2.1, hcharset.2.2⟩
  split at h
  · exact Or.inl h
  split at h
  · exact Or.inl h
  · exact Or.inl h

theorem MetaAttributes.add_isContentType {st : MetaAttributes} {name value : Bytes}
    (h : (st.add name value).isContentType = true) :
    st.isContentType = true ∨ name.length = 10 := by
  unfold add at h
  split at h
  · exact Or.inl h
  split at h
  · rename_i hequiv
    exact Or.inr (sameName_length hequiv.1)
  split at h
  · exact Or.inl h
  · exact Or.inl h

/-- Attributes that declare something take nine bytes. -/
theorem metaAttributes_length (fuel : Nat) (st : MetaAttributes) (input : Bytes)
    (h : (metaAttributes fuel st input).charset.isSome = true ∨
      (metaAttributes fuel st input).isContentType = true) :
    (st.charset.isSome = true ∨ st.isContentType = true) ∨
      9 ≤ (input.dropWhile isAttributeGap).length := by
  induction fuel generalizing st input with
  | zero => exact Or.inl h
  | succ fuel ih =>
    have hsplit := congrArg List.length (List.takeWhile_append_dropWhile
      (p := isAttributeNameByte) (l := input.dropWhile isAttributeGap))
    rw [List.length_append] at hsplit
    rw [metaAttributes] at h
    dsimp only at h
    split at h
    · rcases ih st _ h with hst | hlength
      · exact Or.inl hst
      · right
        have hdrop : (((input.dropWhile isAttributeGap).drop 1).dropWhile isAttributeGap).length ≤
            ((input.dropWhile isAttributeGap).drop 1).length := (List.dropWhile_suffix _).length_le
        rw [List.length_drop] at hdrop
        exact Nat.le_trans hlength (Nat.le_trans hdrop (Nat.sub_le _ _))
    · generalize hname : (input.dropWhile isAttributeGap).takeWhile isAttributeNameByte = name at *
      generalize hafter :
        (input.dropWhile isAttributeGap).dropWhile isAttributeNameByte = after at *
      have hgap : (after.dropWhile isAsciiWhitespace).length ≤ after.length :=
        (List.dropWhile_suffix _).length_le
      obtain ⟨hrest, hvalue⟩ := attributeValue_length (after.dropWhile isAsciiWhitespace)
      rcases ih _ _ h with hst | hlength
      · rcases hst with hcharset | hequiv
        · rcases MetaAttributes.add_charset hcharset with hcharset | ⟨hseven, hne⟩
          · exact Or.inl (Or.inl hcharset)
          · right
            have := hvalue hne
            have := List.length_pos_iff.mpr hne
            omega
        · rcases MetaAttributes.add_isContentType hequiv with hequiv | hten
          · exact Or.inl (Or.inr hequiv)
          · right
            omega
      · right
        have hdrop : ((attributeValue (after.dropWhile isAsciiWhitespace)).2.dropWhile
            isAttributeGap).length ≤ (attributeValue (after.dropWhile isAsciiWhitespace)).2.length :=
          (List.dropWhile_suffix _).length_le
        omega

/-- With the gap behind the tag name they take ten. -/
theorem charsetFromMetaAttributes_length {attributes : Bytes} {charset : String}
    (hgap : ∀ byte, attributes.head? = some byte → isAttributeGap byte = true)
    (h : charsetFromMetaAttributes attributes = some charset) : 10 ≤ attributes.length := by
  have hread : (metaAttributes attributes.length {} attributes).charset.isSome = true ∨
      (metaAttributes attributes.length {} attributes).isContentType = true := by
    unfold charsetFromMetaAttributes at h
    dsimp only at h
    cases hcharset : (metaAttributes attributes.length {} attributes).charset with
    | some found => exact Or.inl rfl
    | none =>
      right
      rw [hcharset, Option.none_or] at h
      split at h
      · assumption
      · cases h
  rcases metaAttributes_length _ _ _ hread with hempty | hlength
  · rcases hempty with hempty | hempty
    · cases hempty
    · cases hempty
  · cases attributes with
    | nil =>
      rw [List.dropWhile_nil] at hlength
      exact absurd hlength (by decide)
    | cons byte more =>
      have hmore : (more.dropWhile isAttributeGap).length ≤ more.length :=
        (List.dropWhile_suffix _).length_le
      rw [List.dropWhile_cons_of_pos (hgap byte rfl)] at hlength
      rw [List.length_cons]
      omega

/-- The attributes of a start tag begin with a gap. -/
theorem parseMarkup_start {input name attributes next : Bytes}
    (h : parseMarkup input = .start name attributes next) :
    ∀ byte, attributes.head? = some byte → isAttributeGap byte = true := by
  have hpass : ∀ rest, passOver rest ≠ .start name attributes next := by
    intro rest heq
    unfold passOver at heq
    split at heq
    · cases heq
    · cases heq
  have htag : ∀ (isEnd : Bool) (rest : Bytes), parseTag isEnd rest = .start name attributes next →
      ∀ byte, attributes.head? = some byte → isAttributeGap byte = true := by
    intro isEnd rest heq byte hbyte
    unfold parseTag at heq
    dsimp only at heq
    split at heq
    · cases heq
    rename_i delimiter more hafter
    split at heq
    · rename_i hdelimiter
      split at heq
      · cases heq
      rename_i found after hend
      split at heq
      · split at heq
        · cases heq
        · cases heq
      · cases heq
        -- a tag that ends at once has no attributes
        rw [tagEnd] at hend
        split at hend
        · cases hend
          cases hbyte
        rename_i hclose
        split at hend
        · cases hend
        · obtain ⟨⟨inner, after'⟩, -, heq⟩ := Option.map_eq_some_iff.mp hend
          cases heq
          obtain rfl := Option.some.inj hbyte
          have hall : (([0x3e, 0x2f, 0x09, 0x0a, 0x0c, 0x0d, 0x20] : Bytes).all fun b =>
              b == 0x3e || isAttributeGap b) = true := by decide
          have hbyte := List.all_eq_true.mp hall _ (List.contains_iff_mem.mp hdelimiter)
          rw [Bool.or_eq_true, beq_iff_eq] at hbyte
          exact hbyte.resolve_left hclose
    · exact absurd heq (hpass _)
  have hnamed : ∀ (isEnd : Bool) (rest : Bytes),
      parseNamed isEnd rest = .start name attributes next →
      ∀ byte, attributes.head? = some byte → isAttributeGap byte = true := by
    intro isEnd rest heq
    cases rest with
    | nil => cases heq
    | cons nameFirst rest =>
      rw [parseNamed] at heq
      split at heq
      · exact htag isEnd _ heq
      · exact absurd heq (hpass _)
  unfold parseMarkup at h
  split at h
  · unfold parseComment at h
    split at h
    · cases h
    · cases h
  · cases hrest : input.drop 1 with
    | nil =>
      rw [hrest] at h
      cases h
    | cons first rest =>
      rw [hrest, parseOpened] at h
      split at h
      · exact absurd h (hpass _)
      split at h
      · exact hnamed _ _ h
      · exact hnamed _ _ h

/-- The bytes that it takes to get out of raw text and of all open templates. -/
def Scan.debt (st : Scan) : Nat :=
  11 * st.templateDepth + (st.rawText.map fun name => name.length + 3).getD 0

theorem Scan.rawMarkup_room {st st' : Scan} {rawName next : Bytes} {m : Markup}
    (hraw : st.rawText = some rawName) (h : st.rawMarkup rawName m = .ok (st', next)) :
    st'.acceptsMetadata = st.acceptsMetadata ∧ st.debt + next.length ≤ st'.debt + m.size := by
  cases m with
  | start name attributes rest =>
    cases h
    refine ⟨rfl, ?_⟩
    show _ ≤ _ + (_ + _ + 2 + _)
    omega
  | finish name rest =>
    cases h
    split
    · rename_i hsame
      have hname := sameName_length hsame
      refine ⟨rfl, ?_⟩
      unfold Scan.debt
      rw [hraw]
      show 11 * st.templateDepth + (rawName.length + 3) + next.length ≤
        11 * st.templateDepth + 0 + (name.length + 3 + next.length)
      omega
    · refine ⟨rfl, ?_⟩
      show _ ≤ _ + (_ + 3 + _)
      omega
  | other rest =>
    cases h
    refine ⟨rfl, ?_⟩
    show _ ≤ _ + (1 + _)
    omega
  | incomplete => cases h

theorem Scan.markup_room {st st' : Scan} {next : Bytes} {m : Markup} (hraw : st.rawText = none)
    (h : st.markup m = .ok (st', next)) :
    (st'.acceptsMetadata = true → st.acceptsMetadata = true) ∧
      st.debt + next.length ≤ st'.debt + m.size := by
  have hfirst : ∀ a b : Bool, (a && b) = true → a = true := fun a b hab =>
    (Bool.and_eq_true_iff.mp hab).1
  have hdebt : st.debt = 11 * st.templateDepth := by
    unfold Scan.debt
    rw [hraw]
    rfl
  have hmore : ∀ st : Scan, 11 * st.templateDepth ≤ st.debt := fun st => Nat.le_add_right _ _
  rw [hdebt]
  cases m with
  | start name attributes rest =>
    obtain ⟨st₁, hstart, hst⟩ := bind_eq_ok.mp h
    cases hst
    have hdepth : st.templateDepth ≤ st'.templateDepth ∧
        (st'.acceptsMetadata = true → st.acceptsMetadata = true) := by
      unfold Scan.startTag at hstart
      dsimp only at hstart
      split at hstart
      · cases hstart
      · cases hstart
        refine ⟨?_, hfirst _ _⟩
        dsimp only
        split
        · omega
        · omega
    have := hmore st'
    refine ⟨hdepth.2, ?_⟩
    show _ ≤ _ + (_ + _ + 2 + _)
    omega
  | finish name rest =>
    cases h
    refine ⟨hfirst _ _, ?_⟩
    have hopen := hmore (st.endTag name)
    have hdepth : 11 * st.templateDepth ≤ 11 * (st.endTag name).templateDepth + name.length + 3 := by
      unfold Scan.endTag
      dsimp only
      split
      · rename_i htemplate
        have hname := sameName_length htemplate
        have height : (utf8 "template").length = 8 := by decide
        omega
      · omega
    show _ ≤ _ + (_ + 3 + _)
    omega
  | other rest =>
    cases h
    refine ⟨fun ha => ha, ?_⟩
    show _ ≤ _ + (1 + _)
    omega
  | incomplete => cases h

/-- A turn pays for what it gets out of. -/
theorem turn_room {st st' : Scan} {byte : UInt8} {rest next : Bytes}
    (h : turn st byte rest = .ok (st', next)) :
    (st'.acceptsMetadata = true → st.acceptsMetadata = true) ∧
      st.debt + next.length ≤ st'.debt + rest.length + 1 := by
  have hsize : (parseMarkup (byte :: rest)).size ≤ rest.length + 1 :=
    parseMarkup_size (List.cons_ne_nil _ _)
  unfold turn at h
  split at h
  · rename_i rawName hraw
    split at h
    · cases h
    split at h
    · obtain ⟨haccepts, hroom⟩ := Scan.rawMarkup_room hraw h
      exact ⟨fun ha => haccepts ▸ ha, by omega⟩
    · cases h
      exact ⟨fun ha => ha, by omega⟩
  · rename_i hraw
    split at h
    · obtain ⟨haccepts, hroom⟩ := Scan.markup_room hraw h
      exact ⟨haccepts, by omega⟩
    · cases h
      refine ⟨fun ha => (Bool.and_eq_true_iff.mp ha).1, ?_⟩
      show st.debt + rest.length ≤ st.debt + rest.length + 1
      omega

/-- A turn that finds a declaration is at a `meta` of sixteen bytes, in the head. -/
theorem turn_declares {st : Scan} {byte : UInt8} {rest : Bytes} {charset : String}
    (h : turn st byte rest = .error (some charset)) :
    st.acceptsMetadata = true ∧ st.debt = 0 ∧ 16 ≤ rest.length + 1 := by
  have hsize : (parseMarkup (byte :: rest)).size ≤ rest.length + 1 :=
    parseMarkup_size (List.cons_ne_nil _ _)
  unfold turn at h
  split at h
  -- in raw text only the closing tag is looked for: nothing declares
  · split at h
    · cases h
    split at h
    · cases hmarkup : parseMarkup (byte :: rest) with
      | start name attributes next => rw [hmarkup] at h; cases h
      | finish name next => rw [hmarkup] at h; cases h
      | other next => rw [hmarkup] at h; cases h
      | incomplete => rw [hmarkup] at h; cases h
    · cases h
  · rename_i hraw
    split at h
    · cases hmarkup : parseMarkup (byte :: rest) with
      | start name attributes next =>
        rw [hmarkup] at h hsize
        have hgap := parseMarkup_start hmarkup
        have hstart : st.startTag name attributes = .error (some charset) := by
          cases hst : st.startTag name attributes with
          | ok st₁ =>
            rw [Scan.markup, hst] at h
            cases h
          | error result =>
            rw [Scan.markup, hst] at h
            exact congrArg _ (Except.error.inj h)
        unfold Scan.startTag at hstart
        dsimp only at hstart
        generalize hopen : (if sameName name (utf8 "template") = true then st.templateDepth + 1
          else st.templateDepth) = depth at hstart
        split at hstart
        · rename_i found hdeclared
          split at hdeclared
          · rename_i hmeta
            -- no template is open after the tag, so none was open before it
            rw [Bool.and_eq_true, Bool.and_eq_true, beq_iff_eq] at hmeta
            obtain ⟨⟨haccepts, hdepth⟩, hname⟩ := hmeta
            have hfour : name.length = (utf8 "meta").length := sameName_length hname
            have hten := charsetFromMetaAttributes_length hgap hdeclared
            have hlength : (utf8 "meta").length = 4 := by decide
            have hsize : name.length + attributes.length + 2 + next.length ≤ rest.length + 1 :=
              hsize
            refine ⟨haccepts, ?_, by omega⟩
            rw [hdepth] at hopen
            unfold Scan.debt
            rw [hraw]
            split at hopen
            · cases hopen
            · rw [hopen]
              rfl
          · cases hdeclared
        · cases hstart
      | finish name next => rw [hmarkup] at h; cases h
      | other next => rw [hmarkup] at h; cases h
      | incomplete => rw [hmarkup] at h; cases h
    · cases h

/-- **Room**: what declares a charset is in the head, and has room to get out of raw text and of
    the open templates, and for the declaration. -/
theorem room_of_scanFrom {st : Scan} {input : Bytes} {charset : String}
    (h : scanFrom st input = .error (some charset)) :
    st.acceptsMetadata = true ∧ st.debt + 16 ≤ input.length := by
  induction hn : input.length using Nat.strong_induction_on generalizing st input with
  | _ n ih =>
    cases input with
    | nil => cases h
    | cons byte rest =>
      rw [List.length_cons] at hn
      cases hturn : turn st byte rest with
      | error result =>
        rw [scanFrom_of_error hturn] at h
        cases h
        obtain ⟨haccepts, hdepth, hlength⟩ := turn_declares hturn
        exact ⟨haccepts, by omega⟩
      | ok found =>
        obtain ⟨st₁, next⟩ := found
        rw [scanFrom_of_ok hturn] at h
        have hshort := turn_shorter hturn
        obtain ⟨hkeeps, hroom⟩ := turn_room hturn
        obtain ⟨haccepts, hlength⟩ := ih next.length (by omega) h rfl
        exact ⟨hkeeps haccepts, by omega⟩

/-! ## Raw text -/

/-- Content in which every piece of markup that starts also ends. -/
inductive Contained : Bytes → Prop where
  | nil : Contained []
  | text {byte : UInt8} {rest : Bytes} (hbyte : byte ≠ 0x3c) (hrest : Contained rest) :
      Contained (byte :: rest)
  | markup {rest next : Bytes} (hnext : (parseMarkup (0x3c :: rest)).next? = some next)
      (hrest : Contained next) : Contained (0x3c :: rest)

/-- No `</` in the content. -/
def NoEndTag (c : Bytes) : Prop := ¬ [0x3c, 0x2f] <:+: c

theorem NoEndTag.of_suffix {c rest : Bytes} (h : NoEndTag c) (hrest : rest <:+ c) :
    NoEndTag rest := fun hmem => h (hmem.trans hrest.isInfix)

theorem afterComment_suffix {input next : Bytes} (h : afterComment input = some next) :
    next <:+ input := by
  induction input with
  | nil => cases h
  | cons byte rest ih =>
    rw [afterComment] at h
    split at h
    · cases h
      exact (List.drop_suffix _ _).trans (List.suffix_cons _ _)
    · exact (ih h).trans (List.suffix_cons _ _)

/-- What follows a piece of markup is an end of the input. -/
theorem parseMarkup_suffix {input next : Bytes} (h : (parseMarkup input).next? = some next) :
    next <:+ input := by
  have hpass : ∀ {rest : Bytes}, (passOver rest).next? = some next → next <:+ rest := by
    intro rest hnext
    unfold passOver at hnext
    split at hnext
    · rename_i inner after hend
      cases hnext
      exact tagEnd_suffix hend
    · cases hnext
  -- an element's tag: what follows it is behind the end of the tag, or behind the name
  have hnamed : ∀ {isEnd : Bool} {rest : Bytes}, (parseNamed isEnd rest).next? = some next →
      next <:+ rest := by
    intro isEnd rest hnext
    cases rest with
    | nil => cases hnext
    | cons nameFirst more =>
      rw [parseNamed] at hnext
      split at hnext
      · unfold parseTag at hnext
        dsimp only at hnext
        split at hnext
        · cases hnext
        rename_i delimiter after hafter
        have hdrop : delimiter :: after <:+ nameFirst :: more := by
          rw [← hafter]
          exact List.dropWhile_suffix _
        split at hnext
        · split at hnext
          · cases hnext
          · rename_i attributes after' hend
            have hrest : after' <:+ nameFirst :: more := (tagEnd_suffix hend).trans hdrop
            split at hnext
            · split at hnext
              · cases hnext
                exact hrest
              · cases hnext
                exact hrest
            · cases hnext
              exact hrest
        · exact (hpass hnext).trans hdrop
      · exact hpass hnext
  unfold parseMarkup at h
  split at h
  · unfold parseComment at h
    split at h
    · rename_i after hafter
      cases h
      exact (afterComment_suffix hafter).trans (List.drop_suffix _ _)
    · cases h
  · refine List.IsSuffix.trans ?_ (List.drop_suffix 1 input)
    cases hrest : input.drop 1 with
    | nil =>
      rw [hrest] at h
      cases h
    | cons first rest =>
      rw [hrest, parseOpened] at h
      split at h
      · exact (hpass h).trans (List.suffix_cons _ _)
      split at h
      · exact (hnamed h).trans (List.suffix_cons _ _)
      · exact hnamed h

/-- Without a slash there is no end tag. -/
theorem parseMarkup_ne_finish {rest : Bytes} (h : rest.head? ≠ some 0x2f) (name next : Bytes) :
    parseMarkup (0x3c :: rest) ≠ .finish name next := by
  have hpass : ∀ rest, passOver rest ≠ .finish name next := by
    intro rest heq
    unfold passOver at heq
    split at heq
    · cases heq
    · cases heq
  intro heq
  unfold parseMarkup at heq
  split at heq
  · unfold parseComment at heq
    split at heq
    · cases heq
    · cases heq
  · cases rest with
    | nil => cases heq
    | cons first rest =>
      rw [List.drop_succ_cons, List.drop_zero, parseOpened] at heq
      split at heq
      · exact hpass _ heq
      split at heq
      · rename_i hslash
        rw [hslash] at h
        exact h rfl
      · rw [parseNamed] at heq
        split at heq
        · unfold parseTag at heq
          dsimp only at heq
          split at heq
          · cases heq
          split at heq
          · split at heq
            · cases heq
            · rw [if_neg Bool.false_ne_true] at heq
              cases heq
          · exact hpass _ heq
        · exact hpass _ heq

theorem NoEndTag.head_ne {rest : Bytes} (h : NoEndTag (0x3c :: rest)) :
    rest.head? ≠ some 0x2f := by
  intro hhead
  cases rest with
  | nil => cases hhead
  | cons first more =>
    cases hhead
    exact h (List.prefix_append [0x3c, 0x2f] more).isInfix

/-- The state in raw text. -/
structure Scan.InRaw (st : Scan) (name : Bytes) : Prop where
  rawText : st.rawText = some name
  ends : sameName name (utf8 "plaintext") = false

theorem Scan.InRaw.turn_text {st : Scan} {name : Bytes} (h : st.InRaw name) {byte : UInt8}
    (hbyte : byte ≠ 0x3c) (rest : Bytes) : turn st byte rest = .ok (st, rest) := by
  unfold turn
  rw [h.rawText]
  dsimp only
  rw [h.ends, if_neg Bool.false_ne_true, if_neg hbyte]

theorem Scan.InRaw.turn_markup {st : Scan} {name : Bytes} (h : st.InRaw name) (rest : Bytes) :
    turn st 0x3c rest = st.rawMarkup name (parseMarkup (0x3c :: rest)) := by
  unfold turn
  rw [h.rawText]
  dsimp only
  rw [h.ends, if_neg Bool.false_ne_true, if_pos rfl]

/-- Markup without a slash is passed over. -/
theorem Scan.InRaw.turn_next {st : Scan} {name : Bytes} (h : st.InRaw name) {rest next : Bytes}
    (hslash : rest.head? ≠ some 0x2f) (hnext : (parseMarkup (0x3c :: rest)).next? = some next) :
    turn st 0x3c rest = .ok (st, next) := by
  rw [h.turn_markup]
  cases hmarkup : parseMarkup (0x3c :: rest) with
  | start tag attributes next' =>
    rw [hmarkup] at hnext
    cases hnext
    rfl
  | finish tag next' => exact absurd hmarkup (parseMarkup_ne_finish hslash tag next')
  | other next' =>
    rw [hmarkup] at hnext
    cases hnext
    rfl
  | incomplete =>
    rw [hmarkup] at hnext
    cases hnext

/-- **Raw text** that is contained is passed over. -/
theorem scanFrom_raw {st : Scan} {name c : Bytes} (h : st.InRaw name) (hc : NoEndTag c)
    (hcontained : Contained c) (more : Bytes) : scanFrom st (c ++ more) = scanFrom st more := by
  induction hcontained with
  | nil => rfl
  | text hbyte hrest ih =>
    rw [List.cons_append, scanFrom_of_ok (h.turn_text hbyte _)]
    exact ih (hc.of_suffix (List.suffix_cons _ _))
  | markup hnext hrest ih =>
    have hturn := turn_append (h.turn_next hc.head_ne hnext) more
    rw [List.cons_append, scanFrom_of_ok hturn]
    exact ih (hc.of_suffix (parseMarkup_suffix hnext))

/-- A tail that starts with a tag and closes nothing: no quote, and no comment. -/
structure Tail (t : Bytes) : Prop where
  head : ∃ more, t = 0x3c :: more
  quiet : ∀ byte ∈ t, byte ≠ 0x27 ∧ byte ≠ 0x22 ∧ byte ≠ 0x2d

theorem tagEnd_of_unquoted {quote : UInt8} {t : Bytes} (h : ∀ byte ∈ t, byte ≠ quote) :
    tagEnd (some quote) t = none := by
  induction t with
  | nil => rfl
  | cons byte t ih =>
    rw [tagEnd, if_neg (h byte List.mem_cons_self),
      ih fun b hb => h b (List.mem_cons_of_mem _ hb)]
    rfl

section

variable {t : Bytes}

/-- The quotes that `tag_end` opens. -/
def IsQuote : Option UInt8 → Prop
  | some quote => quote = 0x27 ∨ quote = 0x22
  | none => True

theorem isQuote_none : IsQuote none := trivial

theorem Tail.tagEnd_append (ht : Tail t) {quote : Option UInt8} (hquote : IsQuote quote)
    {input : Bytes} (h : tagEnd quote input = none) : tagEnd quote (input ++ t) = none := by
  induction input generalizing quote with
  | nil =>
    cases quote with
    | none =>
      obtain ⟨more, rfl⟩ := ht.head
      rfl
    | some quote =>
      refine tagEnd_of_unquoted fun byte hbyte => ?_
      obtain ⟨hsingle, hdouble, -⟩ := ht.quiet byte hbyte
      rcases hquote with rfl | rfl
      · exact hsingle
      · exact hdouble
  | cons byte rest ih =>
    cases quote with
    | some quote =>
      rw [tagEnd, Option.map_eq_none_iff] at h
      have hnext : IsQuote (if byte = quote then none else some quote) := by
        split
        · trivial
        · exact hquote
      rw [List.cons_append, tagEnd, ih hnext h]
      rfl
    | none =>
      rw [tagEnd] at h
      rw [List.cons_append, tagEnd]
      split at h
      · cases h
      rename_i hclose
      rw [if_neg hclose]
      split at h
      · rename_i hopen
        rw [if_pos hopen]
      · rename_i hopen
        rw [Option.map_eq_none_iff] at h
        have hnext : IsQuote (if byte = 0x27 ∨ byte = 0x22 then some byte else none) := by
          split
          · assumption
          · trivial
        rw [if_neg hopen, ih hnext h]
        rfl

theorem Tail.afterComment_eq_none {t : Bytes} (h : ∀ byte ∈ t, byte ≠ 0x2d) :
    afterComment t = none := by
  induction t with
  | nil => rfl
  | cons byte t ih =>
    have hnot : (utf8 "-->").isPrefixOf (byte :: t) = false := by
      have hfirst : ((0x2d : UInt8) == byte) = false := by
        rw [beq_eq_false_iff_ne]
        exact (h byte List.mem_cons_self).symm
      show (((0x2d : UInt8) == byte) && _) = false
      rw [hfirst, Bool.false_and]
    rw [afterComment, hnot, if_neg Bool.false_ne_true]
    exact ih fun b hb => h b (List.mem_cons_of_mem _ hb)

theorem Tail.afterComment_append (ht : Tail t) {input : Bytes} (h : afterComment input = none) :
    afterComment (input ++ t) = none := by
  induction input with
  | nil => exact Tail.afterComment_eq_none fun byte hbyte => (ht.quiet byte hbyte).2.2
  | cons byte rest ih =>
    rw [afterComment] at h
    split at h
    · cases h
    rename_i hclose
    rw [List.cons_append, afterComment, if_neg, ih h]
    intro hlonger
    by_cases hlength : 3 ≤ (byte :: rest).length
    · have hthree : (utf8 "-->").length ≤ (byte :: rest).length := hlength
      rw [← List.cons_append, isPrefixOf_append_of_length hthree] at hlonger
      exact hclose hlonger
    · -- the tail would have to go on with `-` or with `>`
      obtain ⟨more, rfl⟩ := ht.head
      cases rest with
      | nil =>
        have : (((0x2d : UInt8) == byte) && (((0x2d : UInt8) == 0x3c) && _)) = true := hlonger
        rw [Bool.and_eq_true, Bool.and_eq_true] at this
        exact absurd this.2.1 (by decide)
      | cons second rest =>
        cases rest with
        | nil =>
          have : (((0x2d : UInt8) == byte) &&
              (((0x2d : UInt8) == second) && (((0x3e : UInt8) == 0x3c) && _))) = true := hlonger
          rw [Bool.and_eq_true, Bool.and_eq_true, Bool.and_eq_true] at this
          exact absurd this.2.2.1 (by decide)
        | cons third rest =>
          rw [List.length_cons, List.length_cons, List.length_cons] at hlength
          omega

theorem Tail.passOver_append (ht : Tail t) {input : Bytes} (h : passOver input = .incomplete) :
    passOver (input ++ t) = .incomplete := by
  have hnone : tagEnd none input = none := by
    unfold passOver at h
    split at h
    · cases h
    · assumption
  have hlonger : tagEnd none (input ++ t) = none := ht.tagEnd_append isQuote_none hnone
  rw [passOver, hlonger]

theorem Tail.passOver_self (ht : Tail t) : passOver t = .incomplete := by
  have hempty : passOver ([] ++ t) = .incomplete := ht.passOver_append rfl
  exact hempty

theorem Tail.parseTag_append (ht : Tail t) {input : Bytes} (h : parseTag false input = .incomplete) :
    parseTag false (input ++ t) = .incomplete := by
  unfold parseTag at h ⊢
  cases hafter : input.dropWhile isTagNameByte with
  | nil =>
    -- the name goes on to the end, and the tail does not continue it
    obtain ⟨more, hmore⟩ := ht.head
    have hdrop : (input ++ t).dropWhile isTagNameByte = t := by
      rw [List.dropWhile_append, hafter, List.isEmpty_nil, if_pos rfl, hmore]
      rfl
    rw [hdrop, hmore]
    dsimp only
    rw [if_neg (by decide), ← hmore]
    exact ht.passOver_self
  | cons delimiter rest =>
    have hdrop : (input ++ t).dropWhile isTagNameByte = delimiter :: rest ++ t := by
      rw [List.dropWhile_append, hafter]
      rfl
    rw [hafter] at h
    rw [hdrop, List.cons_append]
    dsimp only at h ⊢
    split
    · rename_i hdelimiter
      rw [if_pos hdelimiter] at h
      have hnone : tagEnd none (delimiter :: rest) = none := by
        cases hend : tagEnd none (delimiter :: rest) with
        | none => rfl
        | some found =>
          rw [hend] at h
          dsimp only at h
          rw [if_neg Bool.false_ne_true] at h
          cases h
      have hlonger : tagEnd none (delimiter :: rest ++ t) = none :=
        ht.tagEnd_append isQuote_none hnone
      rw [List.cons_append] at hlonger
      rw [hlonger]
    · rename_i hdelimiter
      rw [if_neg hdelimiter] at h
      have hlonger := ht.passOver_append h
      rwa [List.cons_append] at hlonger

/-- Markup that does not end in its content does not end in the tail either. -/
theorem Tail.parseOpened_append (ht : Tail t) {rest : Bytes} (hc : NoEndTag (0x3c :: rest))
    (h : parseOpened rest = .incomplete) : parseOpened (rest ++ t) = .incomplete := by
  cases rest with
  | nil =>
    obtain ⟨more, hmore⟩ := ht.head
    have hopened : parseOpened t = passOver t := by
      rw [hmore]
      rfl
    rw [List.nil_append, hopened]
    exact ht.passOver_self
  | cons first rest =>
    rw [parseOpened] at h
    rw [List.cons_append, parseOpened]
    split
    · rename_i hbang
      rw [if_pos hbang] at h
      exact ht.passOver_append h
    rename_i hbang
    rw [if_neg hbang] at h
    split
    · rename_i hslash
      rw [hslash] at hc
      exact absurd (List.prefix_append [0x3c, 0x2f] rest).isInfix hc
    · rename_i hslash
      rw [if_neg hslash, parseNamed] at h
      rw [parseNamed]
      split
      · rename_i hletter
        rw [if_pos hletter] at h
        exact ht.parseTag_append h
      · rename_i hletter
        rw [if_neg hletter] at h
        exact ht.passOver_append h

theorem Tail.not_comment (ht : Tail t) {rest : Bytes}
    (h : ¬ (utf8 "<!--").isPrefixOf (0x3c :: rest) = true) :
    ¬ (utf8 "<!--").isPrefixOf (0x3c :: rest ++ t) = true := by
  intro hlonger
  by_cases hlength : 4 ≤ (0x3c :: rest).length
  · have hfour : (utf8 "<!--").length ≤ (0x3c :: rest).length := hlength
    rw [isPrefixOf_append_of_length hfour] at hlonger
    exact h hlonger
  · -- the tail would have to go on with `!` or with `-`
    have hprefix : utf8 "<!--" <+: 0x3c :: rest ++ t := List.isPrefixOf_iff_prefix.mp hlonger
    have hat : (utf8 "<!--")[(0x3c :: rest).length]? = (0x3c :: rest ++ t)[(0x3c :: rest).length]? := by
      obtain ⟨more, hmore⟩ := hprefix
      rw [← hmore, List.getElem?_append_left]
      show (0x3c :: rest).length < 4
      omega
    obtain ⟨more, rfl⟩ := ht.head
    rw [List.getElem?_append_right (Nat.le_refl _), Nat.sub_self] at hat
    have hnone : ∀ n < 4, 0 < n → (utf8 "<!--")[n]? ≠ some 0x3c := by decide
    exact hnone _ (Nat.lt_of_not_le hlength) (Nat.zero_lt_succ _) hat

theorem Tail.parseMarkup_append (ht : Tail t) {rest : Bytes} (hc : NoEndTag (0x3c :: rest))
    (h : parseMarkup (0x3c :: rest) = .incomplete) :
    parseMarkup (0x3c :: rest ++ t) = .incomplete := by
  unfold parseMarkup at h ⊢
  by_cases hcomment : (utf8 "<!--").isPrefixOf (0x3c :: rest) = true
  · have hlength : 4 ≤ (0x3c :: rest).length :=
      (List.isPrefixOf_iff_prefix.mp hcomment).length_le
    rw [if_pos hcomment] at h
    rw [if_pos (isPrefixOf_append hcomment t), List.drop_append_of_le_length hlength]
    have hnone : afterComment ((0x3c :: rest).drop 4) = none := by
      unfold parseComment at h
      split at h
      · cases h
      · assumption
    rw [parseComment, ht.afterComment_append hnone]
  · rw [if_neg hcomment] at h
    rw [if_neg (ht.not_comment hcomment)]
    exact ht.parseOpened_append hc h

/-- **Raw text** that is not contained takes the tail with it. -/
theorem Tail.scanFrom_raw (ht : Tail t) {st : Scan} {name c : Bytes} (h : st.InRaw name)
    (hc : NoEndTag c) (hcontained : ¬ Contained c) : scanFrom st (c ++ t) = .error none := by
  induction hn : c.length using Nat.strong_induction_on generalizing c with
  | _ n ih =>
    cases c with
    | nil => exact absurd Contained.nil hcontained
    | cons byte rest =>
      rw [List.length_cons] at hn
      rw [List.cons_append]
      by_cases hbyte : byte = 0x3c
      · subst hbyte
        cases hnext : (parseMarkup (0x3c :: rest)).next? with
        | none =>
          have hopen : parseMarkup (0x3c :: rest) = .incomplete := by
            cases hmarkup : parseMarkup (0x3c :: rest) with
            | incomplete => rfl
            | start name attributes next => rw [hmarkup] at hnext; cases hnext
            | finish name next => rw [hmarkup] at hnext; cases hnext
            | other next => rw [hmarkup] at hnext; cases hnext
          have hlonger := ht.parseMarkup_append hc hopen
          rw [List.cons_append] at hlonger
          refine scanFrom_of_error ?_
          rw [h.turn_markup, hlonger]
          rfl
        | some next =>
          have hturn := h.turn_next hc.head_ne hnext
          have hlength := turn_shorter hturn
          rw [scanFrom_of_ok (turn_append hturn t)]
          exact ih next.length (by omega) (hc.of_suffix (parseMarkup_suffix hnext))
            (fun hin => hcontained (.markup hnext hin)) rfl
      · rw [scanFrom_of_ok (h.turn_text hbyte _)]
        exact ih rest.length (by omega) (hc.of_suffix (List.suffix_cons _ _))
          (fun hin => hcontained (.text hbyte hin)) rfl

end

/-- What declares a charset behind content without `</` has room for it there. -/
theorem room_of_scanFrom_raw {st : Scan} {name c t : Bytes} {charset : String} (h : st.InRaw name)
    (hc : NoEndTag c) (ht : t.head? ≠ some 0x2f)
    (hscan : scanFrom st (c ++ t) = .error (some charset)) : st.debt + 16 ≤ t.length := by
  induction hn : c.length using Nat.strong_induction_on generalizing c with
  | _ n ih =>
    cases c with
    | nil => exact (room_of_scanFrom hscan).2
    | cons byte rest =>
      rw [List.length_cons] at hn
      rw [List.cons_append] at hscan
      by_cases hbyte : byte = 0x3c
      · subst hbyte
        have hslash : (rest ++ t).head? ≠ some 0x2f := by
          cases rest with
          | nil => exact ht
          | cons first rest => exact hc.head_ne
        cases hnext : (parseMarkup (0x3c :: (rest ++ t))).next? with
        | none =>
          have hturn : turn st 0x3c (rest ++ t) = .error none := by
            rw [h.turn_markup]
            cases hmarkup : parseMarkup (0x3c :: (rest ++ t)) with
            | incomplete => rfl
            | start name attributes next => rw [hmarkup] at hnext; cases hnext
            | finish name next => rw [hmarkup] at hnext; cases hnext
            | other next => rw [hmarkup] at hnext; cases hnext
          rw [scanFrom_of_error hturn] at hscan
          cases hscan
        | some next =>
          have hturn := h.turn_next hslash hnext
          have hlength := turn_shorter hturn
          rw [scanFrom_of_ok hturn] at hscan
          -- what is left is an end of the tail, or an end of the content and the tail
          by_cases hshort : next.length ≤ t.length
          · exact Nat.le_trans (room_of_scanFrom hscan).2 hshort
          · have hsuffix : t <:+ next := by
              refine List.suffix_of_suffix_length_le ?_ (parseMarkup_suffix hnext) (by omega)
              rw [← List.cons_append]
              exact List.suffix_append _ _
            obtain ⟨left, rfl⟩ := hsuffix
            have hleft : left <:+ 0x3c :: rest := by
              have hends := parseMarkup_suffix hnext
              rw [← List.cons_append] at hends
              obtain ⟨front, hfront⟩ := hends
              rw [← List.append_assoc] at hfront
              exact ⟨front, List.append_cancel_right hfront⟩
            rw [List.length_append, List.length_append] at hlength
            exact ih left.length (by omega) (hc.of_suffix hleft) hscan rfl
      · rw [scanFrom_of_ok (h.turn_text hbyte _)] at hscan
        exact ih rest.length (by omega) (hc.of_suffix (List.suffix_cons _ _)) hscan rfl

/-! ## Inertness -/

/-- The elements with raw text that a page is likely to have before its declaration. -/
def rawTextNames : List Bytes :=
  [utf8 "script", utf8 "style", utf8 "title", utf8 "textarea", utf8 "noscript"]

/-- A start tag and an end tag. -/
def openTag (name : Bytes) : Bytes := 0x3c :: (name ++ [0x3e])

def closeTag (name : Bytes) : Bytes := 0x3c :: (0x2f :: name ++ [0x3e])

/-- An element with some content. -/
def element (name c : Bytes) : Bytes := openTag name ++ c ++ closeTag name

/-- The scan gets to the end of the input in the head, with some templates open. -/
def HeadContext (a : Bytes) (depth : Nat) : Prop := scanFrom {} a = .ok { templateDepth := depth }

/-- The content of an element has no say in the charset, whatever follows within the limit. -/
def InertText (name a c : Bytes) : Prop :=
  ∀ b, (a ++ element name c ++ b).length ≤ metaScanLimit →
    charsetFromMetaBytes (a ++ element name c ++ b) =
      charsetFromMetaBytes (a ++ element name [] ++ b)

/-- The state in the raw text of an element: an element that does not belong to the head ends it,
    outside templates. -/
def inElement (depth : Nat) (name : Bytes) : Scan :=
  { acceptsMetadata := !(depth == 0 && !headContextElement name)
    templateDepth := depth
    rawText := some name }

section

variable {name : Bytes} {depth : Nat}

theorem inElement_inRaw (hname : name ∈ rawTextNames) (depth : Nat) :
    (inElement depth name).InRaw name := by
  refine ⟨rfl, ?_⟩
  have hall : (rawTextNames.all fun name => !sameName name (utf8 "plaintext")) = true := by
    decide
  have hends := List.all_eq_true.mp hall name hname
  rwa [Bool.not_eq_true'] at hends

theorem parseMarkup_openTag (hname : name ∈ rawTextNames) (more : Bytes) :
    parseMarkup (openTag name ++ more) = .start name [] more := by
  simp only [rawTextNames, List.mem_cons, List.not_mem_nil, or_false] at hname
  rcases hname with rfl | rfl | rfl | rfl | rfl
  · rfl
  · rfl
  · rfl
  · rfl
  · rfl

theorem parseMarkup_closeTag (hname : name ∈ rawTextNames) (more : Bytes) :
    parseMarkup (closeTag name ++ more) = .finish name more := by
  simp only [rawTextNames, List.mem_cons, List.not_mem_nil, or_false] at hname
  rcases hname with rfl | rfl | rfl | rfl | rfl
  · rfl
  · rfl
  · rfl
  · rfl
  · rfl

theorem scanFrom_openTag (hname : name ∈ rawTextNames) (more : Bytes) :
    scanFrom { templateDepth := depth } (openTag name ++ more) =
      scanFrom (inElement depth name) more := by
  have hturn : turn { templateDepth := depth } 0x3c (name ++ [0x3e] ++ more) =
      .ok (inElement depth name, more) := by
    have hmarkup := parseMarkup_openTag hname more
    have hstart : Scan.startTag { templateDepth := depth } name [] =
        .ok (inElement depth name) := by
      have hall : (rawTextNames.all fun name => !sameName name (utf8 "template") &&
          !sameName name (utf8 "meta") && rawTextElement name) = true := by
        decide
      have hkind := List.all_eq_true.mp hall name hname
      rw [Bool.and_eq_true, Bool.and_eq_true, Bool.not_eq_true', Bool.not_eq_true'] at hkind
      obtain ⟨⟨htemplate, hmeta⟩, hraw⟩ := hkind
      unfold Scan.startTag inElement
      dsimp only
      rw [htemplate, hmeta, hraw, Bool.and_false, if_neg Bool.false_ne_true,
        if_neg Bool.false_ne_true, if_pos rfl, Bool.true_and]
    show Scan.markup { templateDepth := depth } (parseMarkup (openTag name ++ more)) = _
    rw [hmarkup, Scan.markup, hstart]
    rfl
  exact scanFrom_of_ok hturn

theorem scanFrom_closeTag (hname : name ∈ rawTextNames) (more : Bytes) :
    scanFrom (inElement depth name) (closeTag name ++ more) =
      scanFrom { inElement depth name with rawText := none } more := by
  have hturn : turn (inElement depth name) 0x3c (0x2f :: name ++ [0x3e] ++ more) =
      .ok ({ inElement depth name with rawText := none }, more) := by
    have hmarkup := parseMarkup_closeTag hname more
    have hsame : sameName name name = true := beq_self_eq_true _
    rw [(inElement_inRaw hname depth).turn_markup]
    show Scan.rawMarkup _ _ (parseMarkup (closeTag name ++ more)) = _
    rw [hmarkup, Scan.rawMarkup, hsame, if_pos rfl]
  exact scanFrom_of_ok hturn

/-- What a scan that ends without a declaration gives. -/
def declared : Except (Option String) Scan → Option String
  | .ok _ => none
  | .error result => result

theorem charsetFromMetaBytes_eq {a c b : Bytes} (ha : HeadContext a depth)
    (hname : name ∈ rawTextNames) (hfits : (a ++ element name c ++ b).length ≤ metaScanLimit) :
    charsetFromMetaBytes (a ++ element name c ++ b) =
      declared (scanFrom (inElement depth name) (c ++ (closeTag name ++ b))) := by
  have hsplit : a ++ element name c ++ b = a ++ (openTag name ++ (c ++ (closeTag name ++ b))) := by
    simp only [element, List.append_assoc]
  rw [charsetFromMetaBytes, List.take_of_length_le hfits, hsplit, scanFrom_append ha,
    scanFrom_openTag hname]
  rfl

/-- What declares nothing, because the head is over or there is no room. -/
theorem declared_eq_none (hname : name ∈ rawTextNames) {c b : Bytes} (hc : NoEndTag c)
    (h : (inElement depth name).acceptsMetadata = false ∨ b.length < 11 * depth + 16) :
    declared (scanFrom (inElement depth name) (c ++ (closeTag name ++ b))) = none := by
  cases hscan : scanFrom (inElement depth name) (c ++ (closeTag name ++ b)) with
  | ok st' => rfl
  | error result =>
    cases result with
    | none => rfl
    | some charset =>
      have haccepts := (room_of_scanFrom hscan).1
      have hslash : (closeTag name ++ b).head? ≠ some 0x2f := by
        show some 0x3c ≠ some 0x2f
        decide
      have hroom := room_of_scanFrom_raw (inElement_inRaw hname depth) hc hslash hscan
      have hdebt : (inElement depth name).debt = 11 * depth + (name.length + 3) := rfl
      have hclose : (closeTag name).length = name.length + 3 := by
        simp only [closeTag, List.length_append, List.length_cons, List.length_nil]
      rw [hdebt, List.length_append, hclose] at hroom
      rcases h with h | h
      · rw [h] at haccepts
        cases haccepts
      · omega

/-- The end tags of the open templates, and the shortest declaration. -/
def declaration (depth : Nat) : Bytes :=
  (List.replicate depth (utf8 "</template>")).flatten ++ utf8 "<meta charset=x>"

theorem declaration_succ (depth : Nat) :
    declaration (depth + 1) = utf8 "</template>" ++ declaration depth := by
  rw [declaration, List.replicate_succ, List.flatten_cons, List.append_assoc]
  rfl

theorem declaration_length (depth : Nat) : (declaration depth).length = 11 * depth + 16 := by
  induction depth with
  | zero => decide
  | succ depth ih =>
    have heleven : (utf8 "</template>").length = 11 := by decide
    rw [declaration_succ, List.length_append, heleven, ih]
    omega

theorem scanFrom_declaration (depth : Nat) :
    scanFrom { templateDepth := depth } (declaration depth) = .error (some "x") := by
  induction depth with
  | zero =>
    have hturn : turn {} 0x3c (utf8 "meta charset=x>") = .error (some "x") := by decide
    exact scanFrom_of_error hturn
  | succ depth ih =>
    have hend : Scan.endTag { templateDepth := depth + 1 } (utf8 "template") =
        { templateDepth := depth } := by
      have hhead : (sameName (utf8 "template") (utf8 "head") ||
          sameName (utf8 "template") (utf8 "body")) = false := by decide
      have htemplate : sameName (utf8 "template") (utf8 "template") = true := by decide
      unfold Scan.endTag
      dsimp only
      rw [hhead, htemplate, if_pos rfl, Bool.and_false]
      rfl
    have hturn : turn { templateDepth := depth + 1 } 0x3c
        (utf8 "/template>" ++ declaration depth) =
        .ok ({ templateDepth := depth }, declaration depth) := by
      have hmarkup : parseMarkup (0x3c :: (utf8 "/template>" ++ declaration depth)) =
          .finish (utf8 "template") (declaration depth) := rfl
      show Scan.markup _ (parseMarkup (0x3c :: (utf8 "/template>" ++ declaration depth))) = _
      rw [hmarkup, Scan.markup, hend]
    rw [declaration_succ]
    exact (scanFrom_of_ok hturn).trans ih

/-- Nothing in a declaration, or in the end tag in front of it, ends content that is open. -/
theorem tail_declaration (hname : name ∈ rawTextNames) (depth : Nat) :
    Tail (closeTag name ++ declaration depth) where
  head := ⟨_, rfl⟩
  quiet := by
    have hquiet : ∀ list : Bytes,
        (list.all fun byte => byte != 0x27 && byte != 0x22 && byte != 0x2d) = true →
        ∀ byte ∈ list, byte ≠ 0x27 ∧ byte ≠ 0x22 ∧ byte ≠ 0x2d := by
      intro list hall byte hbyte
      have hone := List.all_eq_true.mp hall byte hbyte
      rw [Bool.and_eq_true, Bool.and_eq_true, bne_iff_ne, bne_iff_ne, bne_iff_ne] at hone
      exact ⟨hone.1.1, hone.1.2, hone.2⟩
    have hclose : (rawTextNames.all fun name => (closeTag name).all fun byte =>
        byte != 0x27 && byte != 0x22 && byte != 0x2d) = true := by
      decide
    have hrest : ∀ depth, ∀ byte ∈ declaration depth, byte ≠ 0x27 ∧ byte ≠ 0x22 ∧ byte ≠ 0x2d := by
      intro depth
      induction depth with
      | zero => exact hquiet _ (by decide)
      | succ depth ih =>
        rw [declaration_succ]
        intro byte hbyte
        rcases List.mem_append.mp hbyte with hbyte | hbyte
        · exact hquiet _ (by decide) byte hbyte
        · exact ih byte hbyte
    intro byte hbyte
    rcases List.mem_append.mp hbyte with hbyte | hbyte
    · exact hquiet _ (List.all_eq_true.mp hclose name hname) byte hbyte
    · exact hrest depth byte hbyte

theorem Scan.leaveRaw_of_accepts {st : Scan} (h : st.acceptsMetadata = true) :
    { st with rawText := none } = ({ templateDepth := st.templateDepth } : Scan) := by
  obtain ⟨accepts, depth, raw⟩ := st
  cases h
  rfl

theorem inElement_accepts (hname : name ∈ rawTextNames) (depth : Nat) :
    (inElement depth name).acceptsMetadata = false ↔ name = utf8 "textarea" ∧ depth = 0 := by
  have hhead : headContextElement name = true ↔ name ≠ utf8 "textarea" := by
    simp only [rawTextNames, List.mem_cons, List.not_mem_nil, or_false] at hname
    rcases hname with rfl | rfl | rfl | rfl | rfl
    · decide
    · decide
    · decide
    · decide
    · decide
  show (!(depth == 0 && !headContextElement name)) = false ↔ _
  rw [Bool.not_eq_false', Bool.and_eq_true, beq_iff_eq, Bool.not_eq_true', ← Bool.not_eq_true,
    hhead, not_not, and_comm]

end

/-- **Raw text** has no say in the charset exactly when every piece of markup that starts in it also
    ends in it, when the element itself ends the head, or when there is no room for a declaration
    behind it. -/
theorem rawText_inert_iff (name a c : Bytes) (depth : Nat) (hname : name ∈ rawTextNames)
    (ha : HeadContext a depth) (hc : NoEndTag c) : InertText name a c ↔
      Contained c ∨ (name = utf8 "textarea" ∧ depth = 0) ∨
        metaScanLimit < (a ++ element name c).length + 11 * depth + 16 := by
  have hshorter : (element name []).length ≤ (element name c).length := by
    simp only [element, List.length_append, List.length_nil]
    omega
  have hraw := inElement_inRaw hname depth
  constructor
  · intro hinert
    by_contra hnot
    obtain ⟨hopen, hnot⟩ := not_or.mp hnot
    obtain ⟨haccepts, hroom⟩ := not_or.mp hnot
    have hfits : (a ++ element name c ++ declaration depth).length ≤ metaScanLimit := by
      rw [List.length_append, declaration_length]
      omega
    have hsame := hinert (declaration depth) hfits
    have hless : (a ++ element name [] ++ declaration depth).length ≤ metaScanLimit := by
      rw [List.length_append, List.length_append] at hfits ⊢
      omega
    have htrue : (inElement depth name).acceptsMetadata = true := by
      rw [← Bool.not_eq_false]
      exact fun hfalse => haccepts ((inElement_accepts hname depth).mp hfalse)
    have hclosed := Scan.leaveRaw_of_accepts htrue
    rw [charsetFromMetaBytes_eq ha hname hfits, charsetFromMetaBytes_eq ha hname hless,
      (tail_declaration hname depth).scanFrom_raw hraw hc hopen, List.nil_append,
      scanFrom_closeTag hname, hclosed] at hsame
    have hdeclared : scanFrom { templateDepth := (inElement depth name).templateDepth }
        (declaration depth) = .error (some "x") := scanFrom_declaration depth
    rw [hdeclared] at hsame
    cases hsame
  · intro hcases b hfits
    have hless : (a ++ element name [] ++ b).length ≤ metaScanLimit := by
      rw [List.length_append, List.length_append] at hfits ⊢
      omega
    rw [charsetFromMetaBytes_eq ha hname hfits, charsetFromMetaBytes_eq ha hname hless]
    rcases hcases with hcontained | hrest
    · rw [scanFrom_raw hraw hc hcontained]
      rfl
    · have hnone : (inElement depth name).acceptsMetadata = false ∨ b.length < 11 * depth + 16 := by
        rcases hrest with htextarea | hroom
        · exact Or.inl ((inElement_accepts hname depth).mpr htextarea)
        · rw [List.length_append] at hfits
          exact Or.inr (by omega)
      have hempty : NoEndTag [] := hc.of_suffix (List.nil_suffix)
      rw [declared_eq_none hname hc hnone, declared_eq_none hname hempty hnone]

/-- A comparison in a script. -/
def comparison : Bytes := utf8 "if(a<b)c()"

theorem comparison_noEndTag : NoEndTag comparison := by
  unfold NoEndTag
  decide

/-- The equivalence for a page that begins with the script. -/
theorem rawText_inert_iff_comparison : InertText (utf8 "script") [] comparison ↔
    Contained comparison ∨ (utf8 "script" = utf8 "textarea" ∧ 0 = 0) ∨
      metaScanLimit < ([] ++ element (utf8 "script") comparison).length + 11 * 0 + 16 :=
  rawText_inert_iff (utf8 "script") [] comparison 0 List.mem_cons_self rfl comparison_noEndTag

/-- The comparison hides the declaration behind the script. -/
theorem not_inertText_comparison : ¬ InertText (utf8 "script") [] comparison := by
  intro hinert
  have hfits : ([] ++ element (utf8 "script") comparison ++ utf8 "<meta charset=x>").length ≤
      metaScanLimit := by decide
  have hsame := hinert (utf8 "<meta charset=x>") hfits
  have hhidden : charsetFromMetaBytes ([] ++ element (utf8 "script") comparison ++
      utf8 "<meta charset=x>") = none := by decide
  have hfound : charsetFromMetaBytes ([] ++ element (utf8 "script") [] ++
      utf8 "<meta charset=x>") = some "x" := by decide
  rw [hhidden, hfound] at hsame
  cases hsame

end Basecrawl.Core.Charset
