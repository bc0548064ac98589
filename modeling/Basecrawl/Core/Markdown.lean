/-
  HTML to Markdown.

  The HTML parser is outside: a page is the tree that it builds.

  1. **Inline** — `inlineNode` renders text and phrase elements.
  2. **Blocks** — `renderBlocks` goes over the children of a container and gathers what is inline
     into paragraphs; lists, tables, code blocks and quotes have renderers of their own.
  3. **Documents** — `toMarkdown` chooses the content root and cleans up around the fences.
-/
import Basecrawl.Core.Url
import Basecrawl.Lib.Chars
import Basecrawl.Lib.Framing

namespace Basecrawl.Core.Markdown

open Text Chars

/-! ## Trees -/

/-- A node of a page; `other` is a comment, a doctype or a processing instruction. -/
inductive Dom where
  | text (text : Chars)
  | element (name : String) (attributes : List (String × String)) (children : List Dom)
  | other

/-- `el.attr(name)`. -/
def attr (attributes : List (String × String)) (name : String) : Option String :=
  attributes.lookup name

/-- `is_block`: elements that break the surrounding inline flow. -/
def isBlock (name : String) : Bool :=
  ["address", "article", "aside", "blockquote", "details", "dialog", "dd", "div", "dl", "dt",
    "fieldset", "figcaption", "figure", "footer", "form", "h1", "h2", "h3", "h4", "h5", "h6",
    "header", "hgroup", "hr", "li", "main", "nav", "ol", "p", "pre", "section", "table",
    "ul"].contains name

/-- `is_skipped`: elements whose subtrees carry no visible content. -/
def isSkipped (name : String) : Bool :=
  ["script", "style", "noscript", "template", "svg", "head", "title"].contains name

/-- `is_boilerplate`: site chrome. -/
def isBoilerplate (name : String) : Bool := ["nav", "header", "footer", "aside"].contains name

/-- What a conversion is made with. -/
structure Converter where
  lib : UrlLib
  base : Url
  preserveSemanticHeaders : Bool

/-- `Converter::is_boilerplate`: headers of an explicit content root are content. -/
def Converter.isBoilerplate (cv : Converter) (name : String) : Bool :=
  Markdown.isBoilerplate name && !(cv.preserveSemanticHeaders && name == "header")

/-- `resolve`: the absolute URL of a target that is not empty. -/
def Converter.resolve (cv : Converter) (target : String) : Option String :=
  if Text.trim target = "" then none
  else (cv.lib.join cv.base (Text.trim target)).map Url.toString

/-! ## Inline -/

/-- `collapse_ws`: every run of white space is one blank; the flag says that one was just seen. -/
def collapseFrom : Bool → Chars → Chars
  | _, [] => []
  | prevSpace, c :: cs =>
      if isWhitespace c then
        if prevSpace then collapseFrom true cs else ' ' :: collapseFrom true cs
      else c :: collapseFrom false cs

def collapseWs (text : Chars) : Chars := collapseFrom false text

/-- `inner.starts_with(char::is_whitespace)`, as the blank it leaves. -/
def leadOf (inner : Chars) : Chars := if inner.head?.any isWhitespace then [' '] else []

/-- `inner.ends_with(char::is_whitespace)`, as the blank it leaves. -/
def trailOf (inner : Chars) : Chars := if inner.getLast?.any isWhitespace then [' '] else []

/-- `wrap_emphasis`. -/
def wrapEmphasis (inner marker : Chars) : Chars :=
  if trim inner = [] then inner
  else leadOf inner ++ (marker ++ trim inner ++ marker) ++ trailOf inner

/-- `emphasis_wrap`: white ends of the original around a token. -/
def emphasisWrap (original replacement : Chars) : Chars :=
  leadOf original ++ replacement ++ trailOf original

/-- The `a` of `inline_node`, around the text of its children. -/
def renderLink (cv : Converter) (attributes : List (String × String)) (text : Chars) : Chars :=
  match (attr attributes "href").bind cv.resolve with
  | some url =>
      if trim text = [] then text
      else emphasisWrap text (['['] ++ trim text ++ "](".toList ++ url.toList ++ [')'])
  | none => text

/-- `render_img`. -/
def renderImg (cv : Converter) (attributes : List (String × String)) : Chars :=
  match ((attr attributes "src").or (attr attributes "data-src")).filter fun src =>
      Text.trim src != "" with
  | none => []
  | some src =>
      "![".toList ++ ((attr attributes "alt").getD "").toList ++ "](".toList ++
        ((cv.resolve src).getD src).toList ++ [')']

/-- How `inline_node` renders an element. -/
inductive InlineKind where
  | link
  | image
  | lineBreak
  | emphasis (marker : String)
  | code
  | wordBreak
  | other

/-- The match of `inline_node` on the name. -/
def inlineKind : String → InlineKind
  | "a" => .link
  | "img" => .image
  | "br" => .lineBreak
  | "strong" | "b" => .emphasis "**"
  | "em" | "i" => .emphasis "*"
  | "code" => .code
  | "wbr" => .wordBreak
  | _ => .other

mutual

/-- A child in `collect_raw_text`. -/
def rawNode : Dom → Chars
  | .text text => text
  | .element name _ children => if isSkipped name then [] else collectRawText children
  | .other => []

/-- `collect_raw_text`: the verbatim text of the children. -/
def collectRawText : List Dom → Chars
  | [] => []
  | child :: children => rawNode child ++ collectRawText children

end

/-- The `code` of `inline_node`. -/
def inlineCode (raw : Chars) : Chars := if raw = [] then [] else ['`'] ++ raw ++ ['`']

mutual

/-- `inline_node`. -/
def inlineNode (cv : Converter) : Dom → Chars
  | .text text => collapseWs text
  | .element name attributes children =>
      if isSkipped name then []
      else
        match inlineKind name with
        | .link => renderLink cv attributes (inlineChildren cv children)
        | .image => renderImg cv attributes
        | .lineBreak => "  \n".toList
        | .emphasis marker => wrapEmphasis (inlineChildren cv children) marker.toList
        | .code => inlineCode (collectRawText children)
        | .wordBreak => []
        | .other => inlineChildren cv children
  | .other => []

/-- `inline_children`. -/
def inlineChildren (cv : Converter) : List Dom → Chars
  | [] => []
  | child :: children => inlineNode cv child ++ inlineChildren cv children

end

/-! ## Tables -/

/-- `cell_text`: a single line, with pipes escaped. -/
def cellText (text : Chars) : Chars :=
  replaceChar '|' ['\\', '|'] (replaceChar '\n' [' '] (trim text))

/-- `render_row`, padded to the columns. -/
def renderRow (cells : List Chars) (cols : Nat) : Chars :=
  let padded := (cells ++ List.replicate (cols - cells.length) []).take cols
  "| ".toList ++ " | ".toList.intercalate padded ++ " |".toList

/-- A row of `collect_rows`, and whether it is a header row. -/
structure Row where
  header : Bool
  cells : List Chars

/-- The cells of a `tr`, with their names. -/
def rowCells (cv : Converter) : List Dom → List (String × Chars)
  | [] => []
  | .element name _ children :: siblings =>
      if name = "th" ∨ name = "td" then
        (name, cellText (inlineChildren cv children)) :: rowCells cv siblings
      else rowCells cv siblings
  | .text _ :: siblings | .other :: siblings => rowCells cv siblings

/-- The row of a `tr` that has cells. -/
def tableRow (cv : Converter) (inThead : Bool) (children : List Dom) : List Row :=
  let cells := rowCells cv children
  if cells = [] then []
  else [⟨inThead || cells.all fun cell => cell.1 == "th", cells.map Prod.snd⟩]

mutual

/-- A child in `collect_rows`. -/
def rowsOf (cv : Converter) (inThead : Bool) : Dom → List Row
  | .element name _ children =>
      match name with
      | "thead" => collectRows cv true children
      | "tbody" | "tfoot" => collectRows cv false children
      | "tr" => tableRow cv inThead children
      | _ => collectRows cv inThead children
  | .text _ | .other => []

/-- `collect_rows`. -/
def collectRows (cv : Converter) (inThead : Bool) : List Dom → List Row
  | [] => []
  | child :: children => rowsOf cv inThead child ++ collectRows cv inThead children

end

/-- The columns of a table: the widest row's. -/
def columns (rows : List Row) : Nat := (rows.map fun row => row.cells.length).foldr max 0

/-- The separator row. -/
def separatorRow (cols : Nat) : Chars :=
  "| ".toList ++ " | ".toList.intercalate (List.replicate cols "---".toList) ++ " |".toList

/-- The cells of the header, and of the rows under the separator. -/
def headerAndBody (rows : List Row) : List Chars × List (List Chars) :=
  match rows with
  | ⟨true, cells⟩ :: body => (cells, body.map Row.cells)
  | rows => (List.replicate (columns rows) [], rows.map Row.cells)

/-- The lines of `render_table`, from its rows. -/
def tableLines (rows : List Row) : Option (List Chars) :=
  if rows.isEmpty then none
  else if columns rows = 0 then none
  else
    let (header, body) := headerAndBody rows
    some (renderRow header (columns rows) :: separatorRow (columns rows) ::
      body.map fun cells => renderRow cells (columns rows))

/-- `render_table`. -/
def renderTable (cv : Converter) (children : List Dom) : Option Chars :=
  (tableLines (collectRows cv false children)).map fun lines => ['\n'].intercalate lines

/-! ## Code -/

/-- The loop of `code_fence`: the longest run of backticks, and the one that is going on. -/
def backtickRun (runs : Nat × Nat) (c : Char) : Nat × Nat :=
  if c = '`' then (max runs.1 (runs.2 + 1), runs.2 + 1) else (runs.1, 0)

/-- `code_fence`: a run of backticks that is longer than every one in the code. -/
def codeFence (raw : Chars) : Chars :=
  List.replicate (max ((raw.foldl backtickRun (0, 0)).1 + 1) 3) '`'

/-- `str::split_whitespace`. -/
def splitWhitespace (text : Chars) : List Chars :=
  (text.splitOnP isWhitespace).filter (!·.isEmpty)

/-- `str::strip_prefix`. -/
def stripPrefix (pat text : Chars) : Option Chars := pat.isPrefixOf? text

/-- The language that a class names. -/
def languageOfToken (token : Chars) : Option Chars :=
  ((stripPrefix "language-".toList token).or (stripPrefix "lang-".toList token)).filter
    (!·.isEmpty)

/-- `code_language`: the first language hint of a `code` child. -/
def codeLanguage : List Dom → Option Chars
  | [] => none
  | .element name attributes _ :: children =>
      if name = "code" then
        (((attr attributes "class").bind fun cls =>
          (splitWhitespace cls.toList).findSome? languageOfToken)).or (codeLanguage children)
      else codeLanguage children
  | .text _ :: children | .other :: children => codeLanguage children

/-- `render_pre`. -/
def renderPre (children : List Dom) : Chars :=
  let lang := (codeLanguage children).getD []
  let raw := collectRawText children
  let fence := codeFence raw
  let closingPrefix : Chars := if raw.getLast? = some '\n' then [] else ['\n']
  fence ++ lang ++ ['\n'] ++ raw ++ closingPrefix ++ fence

/-! ## Blocks -/

/-- `flush_inline`: the inline text so far as a paragraph, when it has one. -/
def flushInline (inline : Chars) : List Chars :=
  if trim inline = [] then [] else [trim inline]

/-- How `render_block_element` renders an element. -/
inductive BlockKind where
  | heading (level : Nat)
  | list (ordered : Bool)
  | table
  | pre
  | blockquote
  | rule
  | paragraph
  | container

/-- The match of `render_block_element` on the name. -/
def blockKind : String → BlockKind
  | "h1" => .heading 1
  | "h2" => .heading 2
  | "h3" => .heading 3
  | "h4" => .heading 4
  | "h5" => .heading 5
  | "h6" => .heading 6
  | "ul" => .list false
  | "ol" => .list true
  | "table" => .table
  | "pre" => .pre
  | "blockquote" => .blockquote
  | "hr" => .rule
  | "p" => .paragraph
  | _ => .container

/-- A heading, when it has text. -/
def headingBlock (level : Nat) (text : Chars) : List Chars :=
  if trim text = [] then [] else [List.replicate level '#' ++ [' '] ++ trim text]

/-- The lines of a list as a block, when it has any. -/
def listBlock (lines : List Chars) : List Chars :=
  if lines = [] then [] else [['\n'].intercalate lines]

/-- The lines of `render_blockquote`. -/
def quoteLine (line : Chars) : Chars := if line = [] then ['>'] else "> ".toList ++ line

/-- The blocks of a quote, quoted, when there is text in them. -/
def quoteBlock (blocks : List Chars) : List Chars :=
  let quoted := ['\n'].intercalate ((Chars.lines ("\n\n".toList.intercalate blocks)).map quoteLine)
  if trim quoted = [] then [] else [quoted]

/-- `matches!(name, "ul" | "ol")`. -/
def isList (name : String) : Bool := name == "ul" || name == "ol"

/-- The inline text of a list item: its nested lists come later, and chrome is left out. -/
def itemInline (cv : Converter) : List Dom → Chars
  | [] => []
  | .element name attributes children :: siblings =>
      if isList name || isSkipped name || cv.isBoilerplate name then itemInline cv siblings
      else inlineNode cv (.element name attributes children) ++ itemInline cv siblings
  | child :: siblings => inlineNode cv child ++ itemInline cv siblings

/-- The first line of a list item. -/
def itemLine (cv : Converter) (ordered : Bool) (depth index : Nat) (children : List Dom) : Chars :=
  let marker := if ordered then (toString index).toList ++ ['.'] else ['-']
  (List.replicate depth "  ".toList).flatten ++ marker ++ [' '] ++ trim (itemInline cv children)

/-- `el.name() == "li"`. -/
def isItem : Dom → Bool
  | .element name _ _ => name == "li"
  | _ => false

mutual

/-- `render_list`, from an index on. -/
def renderItems (cv : Converter) (ordered : Bool) (depth : Nat) : Nat → List Dom → List Chars
  | _, [] => []
  | index, item :: items =>
      if isItem item then
        renderItem cv ordered depth index item ++ renderItems cv ordered depth (index + 1) items
      else renderItems cv ordered depth index items

/-- A list item: its own line, and its nested lists. -/
def renderItem (cv : Converter) (ordered : Bool) (depth index : Nat) : Dom → List Chars
  | .element _ _ children =>
      itemLine cv ordered depth index children :: nestedLists cv (depth + 1) children
  | .text _ | .other => []

/-- The nested lists of an item. -/
def nestedLists (cv : Converter) (depth : Nat) : List Dom → List Chars
  | [] => []
  | child :: children => nestedList cv depth child ++ nestedLists cv depth children

/-- A child of an item that may be a nested list. -/
def nestedList (cv : Converter) (depth : Nat) : Dom → List Chars
  | .element name _ children =>
      if isList name then renderItems cv (name == "ol") depth 1 children else []
  | .text _ | .other => []

end

/-- What `render_blocks` does with a child. -/
inductive ChildKind where
  | dropped
  | inline
  | block

/-- The match of `render_blocks`. -/
def childKind (cv : Converter) : Dom → ChildKind
  | .element name _ _ =>
      if isSkipped name || cv.isBoilerplate name then .dropped
      else if isBlock name then .block
      else .inline
  | .text _ => .inline
  | .other => .dropped

mutual

/-- `render_blocks`, with the inline text so far. -/
def renderBlocks (cv : Converter) : Chars → List Dom → List Chars
  | inline, [] => flushInline inline
  | inline, child :: children =>
      match childKind cv child with
      | .dropped => renderBlocks cv inline children
      | .inline => renderBlocks cv (inline ++ inlineNode cv child) children
      | .block =>
          flushInline inline ++ renderBlockElement cv child ++ renderBlocks cv [] children

/-- `render_block_element`. -/
def renderBlockElement (cv : Converter) : Dom → List Chars
  | .element name _ children =>
      match blockKind name with
      | .heading level => headingBlock level (inlineChildren cv children)
      | .list ordered => listBlock (renderItems cv ordered 0 1 children)
      | .table => (renderTable cv children).toList
      | .pre => [renderPre children]
      | .blockquote => quoteBlock (renderBlocks cv [] children)
      | .rule => ["---".toList]
      | .paragraph => flushInline (inlineChildren cv children)
      | .container => renderBlocks cv [] children
  | .text _ | .other => []

end

/-! ## Documents -/

/-- `opening_fence_len`. -/
def openingFenceLen (line : Chars) : Option Nat :=
  let len := (line.takeWhile (· == '`')).length
  if 3 ≤ len then some len else none

/-- `is_closing_fence`. -/
def isClosingFence (line : Chars) (openingLen : Nat) : Bool :=
  let len := (line.takeWhile (· == '`')).length
  decide (openingLen ≤ len) && (trim (line.drop len)).isEmpty

/-- The loop of `normalize`: the fence that is open, the blank lines just before, and the lines that
    are kept. -/
def normalizeLines : Option Nat → Nat → List Chars → List Chars
  | _, _, [] => []
  | some openingLen, _, line :: rest =>
      line :: normalizeLines (if isClosingFence line openingLen then none else some openingLen) 0
        rest
  | none, blank, line :: rest =>
      match openingFenceLen line with
      | some openingLen => line :: normalizeLines (some openingLen) 0 rest
      | none =>
          let line := trimEnd line
          if line = [] then
            if blank + 1 > 1 then normalizeLines none (blank + 1) rest
            else line :: normalizeLines none (blank + 1) rest
          else line :: normalizeLines none 0 rest

/-- `normalize`. -/
def normalize (markdown : Chars) : Chars :=
  trim (Framing.terminated '\n' (normalizeLines none 0 (markdown.splitOn '\n')))

/-- The blocks of a page as one text. -/
def joinBlocks (blocks : List Chars) : Chars := normalize ("\n\n".toList.intercalate blocks)

/-- `to_markdown`, from the children of the content root. -/
def toMarkdown (cv : Converter) (root : List Dom) : Chars := joinBlocks (renderBlocks cv [] root)

end Basecrawl.Core.Markdown
