/-
  What the Markdown of a page shows of its text.

  1. **Traversals** — `Place` says which traversal is going on, and `Place.enter` which ones go over
     the children of an element; `reached` gathers the texts they come to, in their order.
  2. **Showing** — a text shows words when they occur in it in order, as they are or with their
     pipes escaped (`Shows`).
  3. **One block** — what each kind of block does to a text keeps its words.
  4. **The page** — by induction on the tree, each traversal shows the words of the texts that it
     comes to, and so does the Markdown of the page (`shows_toMarkdown`).
-/
import Mathlib.Data.List.Forall2
import Basecrawl.Core.Markdown
import Basecrawl.Lib.Numerals
import Basecrawl.Lib.Pieces

namespace Basecrawl.Core.Markdown

open Text Chars

/-! ## Traversals -/

/-- A traversal of the conversion. -/
inductive Place where
  /-- `render_blocks` -/
  | blocks
  /-- `inline_children` -/
  | inline
  /-- `collect_raw_text` -/
  | raw
  /-- `render_list` -/
  | items
  /-- the children of a list item, without its nested lists -/
  | itemText
  /-- the nested lists of a list item -/
  | itemLists
  /-- `collect_rows` -/
  | rows
  /-- the cells of a row -/
  | row
deriving DecidableEq

/-- The traversals that take the texts they come to. -/
def Place.readsText : Place → Bool
  | .blocks | .inline | .raw | .itemText => true
  | .items | .itemLists | .rows | .row => false

/-- The traversal under an element of `inline_node`, by its kind. -/
def InlineKind.places : InlineKind → List Place
  | .image | .lineBreak | .wordBreak => []
  | .code => [.raw]
  | .link | .emphasis _ | .other => [.inline]

/-- The traversal under an element of `inline_node`. -/
def inlinePlaces (name : String) : List Place :=
  if isSkipped name then [] else (inlineKind name).places

/-- The traversal under an element of `render_block_element`, by its kind. -/
def BlockKind.places : BlockKind → List Place
  | .heading _ | .paragraph => [.inline]
  | .list _ => [.items]
  | .table => [.rows]
  | .pre => [.raw]
  | .blockquote | .container => [.blocks]
  | .rule => []

/-- The traversals, in their order, that go over the children of an element. -/
def Place.enter (cv : Converter) (place : Place) (name : String) : List Place :=
  match place with
  | .blocks =>
      if isSkipped name || cv.isBoilerplate name then []
      else if isBlock name then (blockKind name).places
      else inlinePlaces name
  | .inline => inlinePlaces name
  | .raw => if isSkipped name then [] else [.raw]
  | .items => if name == "li" then [.itemText, .itemLists] else []
  | .itemText =>
      if isList name || isSkipped name || cv.isBoilerplate name then [] else inlinePlaces name
  | .itemLists => if isList name then [.items] else []
  | .rows => if name = "tr" then [.row] else [.rows]
  | .row => if name = "th" ∨ name = "td" then [.inline] else []

/-- A text that a traversal takes, and whether it is inside an element of a kind. -/
structure Reached where
  text : Chars
  inside : Bool

mutual

/-- What a traversal takes of one node. -/
def reachedNode (cv : Converter) (kind : String → Bool) (inside : Bool) (place : Place) :
    Dom → List Reached
  | .text text => if place.readsText then [⟨text, inside⟩] else []
  | .element name _ children =>
      (place.enter cv name).flatMap fun next =>
        reached cv kind (inside || kind name) next children
  | .other => []

/-- What a traversal takes. -/
def reached (cv : Converter) (kind : String → Bool) (inside : Bool) (place : Place) :
    List Dom → List Reached
  | [] => []
  | child :: children =>
      reachedNode cv kind inside place child ++ reached cv kind inside place children

end

/-- The words of the texts. -/
def wordsOf (texts : List Reached) : List Chars := texts.flatMap fun text => splitWhite text.text

@[simp] theorem wordsOf_nil : wordsOf [] = [] := rfl

@[simp] theorem wordsOf_append (ss ts : List Reached) :
    wordsOf (ss ++ ts) = wordsOf ss ++ wordsOf ts := List.flatMap_append

theorem words_wordsOf (texts : List Reached) : Words (wordsOf texts) := by
  intro word hword
  obtain ⟨text, -, hmem⟩ := List.mem_flatMap.mp hword
  exact words_splitWhite text.text word hmem

/-! ## Showing -/

/-- A word as it is, or as a cell of a table has it. -/
def Spelt (word shown : Chars) : Prop := shown = word ∨ shown = replaceChar '|' ['\\', '|'] word

/-- The words occur in the text, apart and in their order. -/
def Shows (words : List Chars) (text : Chars) : Prop :=
  ∃ shown, List.Forall₂ Spelt words shown ∧ InOrder shown text

theorem Spelt.word {word shown : Chars} (h : Spelt word shown)
    (hword : word ≠ [] ∧ ∀ c ∈ word, isWhitespace c = false) :
    shown ≠ [] ∧ ∀ c ∈ shown, isWhitespace c = false := by
  rcases h with rfl | rfl
  · exact hword
  · constructor
    · obtain ⟨c, rest, hcons⟩ := List.exists_cons_of_ne_nil hword.1
      rw [hcons]
      by_cases hc : c = '|'
      · rw [hc, replaceChar_cons_self]
        exact List.cons_ne_nil _ _
      · rw [replaceChar_cons_ne hc]
        exact List.cons_ne_nil _ _
    · intro c hc
      obtain ⟨d, hd, hmem⟩ := List.mem_flatMap.mp hc
      split at hmem
      · rcases List.mem_cons.mp hmem with rfl | hmem
        · rfl
        · rw [List.mem_singleton.mp hmem]
          rfl
      · rw [List.mem_singleton.mp hmem]
        exact hword.2 d hd

section

variable {ps qs : List Chars} {s t : Chars}

theorem words_of_spelt {shown : List Chars} (h : List.Forall₂ Spelt ps shown) (hps : Words ps) :
    Words shown := by
  induction h with
  | nil => exact hps
  | cons hspelt _ ih =>
    exact List.forall_mem_cons.mpr ⟨hspelt.word (hps _ List.mem_cons_self), ih hps.of_cons⟩

theorem Shows.of_inOrder (h : InOrder ps t) : Shows ps t :=
  ⟨ps, List.forall₂_same.mpr fun _ _ => .inl rfl, h⟩

theorem shows_nil (t : Chars) : Shows [] t := ⟨[], .nil, trivial⟩

theorem Shows.append (hs : Shows ps s) (ht : Shows qs t) : Shows (ps ++ qs) (s ++ t) := by
  obtain ⟨front, hfront, hs⟩ := hs
  obtain ⟨back, hback, ht⟩ := ht
  exact ⟨front ++ back, List.rel_append hfront hback, hs.append ht⟩

theorem Shows.keeps (hps : Words ps) (hkeep : KeepsWords s t) (h : Shows ps s) : Shows ps t := by
  obtain ⟨shown, hspelt, hs⟩ := h
  exact ⟨shown, hspelt, hkeep shown (words_of_spelt hspelt hps) hs⟩

theorem Shows.sublist (hsub : qs.Sublist ps) (h : Shows ps t) : Shows qs t := by
  obtain ⟨shown, hspelt, ht⟩ := h
  obtain ⟨fewer, hfewer, hsub⟩ : ∃ fewer, List.Forall₂ Spelt qs fewer ∧ fewer.Sublist shown := by
    clear ht
    induction hsub generalizing shown with
    | slnil => exact ⟨[], .nil, List.nil_sublist _⟩
    | cons _ _ ih =>
      obtain _ | ⟨_, hrest⟩ := hspelt
      obtain ⟨fewer, hfewer, hsub⟩ := ih _ hrest
      exact ⟨fewer, hfewer, hsub.cons _⟩
    | cons_cons _ _ ih =>
      obtain _ | ⟨hone, hrest⟩ := hspelt
      obtain ⟨fewer, hfewer, hsub⟩ := ih _ hrest
      exact ⟨_ :: fewer, .cons hone hfewer, hsub.cons_cons _⟩
  exact ⟨fewer, hfewer, ht.sublist hsub⟩

end

/-! ## One block -/

theorem respaced_of_trim_nil {text : Chars} (h : trim text = []) : Respaced text [] := by
  have htrim := respaced_trim text
  rwa [h] at htrim

theorem respaced_collapseFrom (prevSpace : Bool) (text : Chars) :
    Respaced text (collapseFrom prevSpace text) := by
  induction text generalizing prevSpace with
  | nil => exact .nil
  | cons c text ih =>
    rw [collapseFrom]
    split
    · rename_i hc
      split
      · exact .white [] hc rfl (ih true)
      · exact .white [' '] hc rfl (ih true)
    · exact .keep c (ih false)

theorem keeps_trim_around {pre post : Chars} (hpre : letters pre = []) (text : Chars)
    (hpost : letters post = []) : Keeps text (pre ++ trim text ++ post) :=
  (respaced_trim text).keeps.trans (keeps_around hpre _ hpost)

theorem letters_leadOf (text : Chars) : letters (leadOf text) = [] := by
  unfold leadOf
  split
  · rfl
  · rfl

theorem letters_trailOf (text : Chars) : letters (trailOf text) = [] := by
  unfold trailOf
  split
  · rfl
  · rfl

theorem keeps_wrapEmphasis (inner : Chars) {marker : Chars} (h : letters marker = []) :
    Keeps inner (wrapEmphasis inner marker) := by
  unfold wrapEmphasis
  split
  · exact .refl inner
  · have hpre : letters (leadOf inner ++ marker) = [] := by
      rw [letters_append, letters_leadOf, h]
      rfl
    have hpost : letters (marker ++ trailOf inner) = [] := by
      rw [letters_append, letters_trailOf, h]
      rfl
    have hkeep := keeps_trim_around hpre inner hpost
    simpa only [List.append_assoc] using hkeep

/-- The markers of emphasis are asterisks. -/
theorem letters_marker {name marker : String} (h : inlineKind name = .emphasis marker) :
    letters marker.toList = [] := by
  unfold inlineKind at h
  split at h
  · cases h
  · cases h
  · cases h
  · cases h
    rfl
  · cases h
    rfl
  · cases h
    rfl
  · cases h
    rfl
  · cases h
  · cases h
  · cases h

theorem keepsWords_renderLink (cv : Converter) (attributes : List (String × String))
    (text : Chars) : KeepsWords text (renderLink cv attributes text) := by
  unfold renderLink
  split
  · rename_i url _
    split
    · exact .refl text
    · have hkeep := (respaced_trim text).keepsWords.trans (keepsWords_around (leadOf text ++ ['['])
        (trim text) ("](".toList ++ url.toList ++ [')'] ++ trailOf text))
      simpa only [emphasisWrap, List.append_assoc] using hkeep
  · exact .refl text

theorem keeps_inlineCode (raw : Chars) : Keeps raw (inlineCode raw) := by
  unfold inlineCode
  split
  · rename_i hnil
    rw [hnil]
    exact .refl _
  · have htick : letters ['`'] = [] := rfl
    exact keeps_around htick raw htick

theorem keeps_flushInline (text : Chars) :
    Keeps text (Framing.terminated '\n' (flushInline text)) := by
  unfold flushInline
  split
  · rename_i hnil
    exact (respaced_of_trim_nil hnil).keeps
  · rw [terminated_singleton]
    exact keeps_trim_around letters_nil text rfl

theorem keeps_headingBlock (level : Nat) (text : Chars) :
    Keeps text (Framing.terminated '\n' (headingBlock level text)) := by
  unfold headingBlock
  split
  · rename_i hnil
    exact (respaced_of_trim_nil hnil).keeps
  · rw [terminated_singleton]
    have hpre : letters (List.replicate level '#' ++ [' ']) = [] := by
      rw [letters_append, letters_replicate rfl]
      rfl
    exact keeps_trim_around hpre text rfl

theorem keepsWords_renderPre (children : List Dom) :
    KeepsWords (collectRawText children) (renderPre children) := by
  unfold renderPre
  simpa only [List.append_assoc] using keepsWords_around
    (codeFence (collectRawText children) ++ (codeLanguage children).getD [] ++ ['\n'])
    (collectRawText children) _

theorem keeps_listBlock (list : List Chars) :
    Keeps (Framing.terminated '\n' list) (Framing.terminated '\n' (listBlock list)) := by
  unfold listBlock
  split
  · rename_i hnil
    rw [hnil]
    exact .refl _
  · rename_i hne
    rw [terminated_singleton, Framing.intercalate_append_sep hne]
    exact .refl _

theorem keeps_quoteLine (line : Chars) : Keeps line (quoteLine line) := by
  unfold quoteLine
  split
  · rename_i hnil
    rw [hnil]
    exact keeps_after [] rfl
  · exact keeps_before rfl line

theorem keeps_quoteBlock (blocks : List Chars) :
    Keeps (Framing.terminated '\n' blocks) (Framing.terminated '\n' (quoteBlock blocks)) := by
  have hinner := (respaced_intercalate (c := '\n') rfl
    (show letters "\n\n".toList = [] from rfl) blocks).keeps.trans
      (keeps_lines ("\n\n".toList.intercalate blocks))
  have hlines := Keeps.terminated (c := '\n') (f := id) rfl fun line
    (_ : line ∈ Chars.lines ("\n\n".toList.intercalate blocks)) => keeps_quoteLine line
  rw [List.map_id] at hlines
  have hquoted := hinner.trans hlines
  have hjoined := hquoted.trans
    (respaced_intercalate (c := '\n') rfl (show letters ['\n'] = [] from rfl) _).keeps
  unfold quoteBlock
  dsimp only
  split
  · rename_i hnil
    exact hjoined.trans (respaced_of_trim_nil hnil).keeps
  · rw [terminated_singleton]
    exact hjoined.trans (keeps_after _ rfl)

/-! ## Tables -/

theorem letters_cellText (text : Chars) : letters (cellText text) = letters text := by
  rw [cellText, letters_replaceChar rfl rfl, letters_replaceChar rfl rfl, (respaced_trim text).letters]

/-- A cell shows the words of its text, with their pipes escaped. -/
theorem shows_cellText {ps : List Chars} {text : Chars} (hps : Words ps) (h : InOrder ps text) :
    Shows ps (cellText text) := by
  have hfeed : isWhitespace '\n' = true := rfl
  have hblank : letters [' '] = [] := rfl
  have hclean := (respaced_replaceChar hfeed hblank (trim text)).keepsWords ps hps
    ((respaced_trim text).keepsWords ps hps h)
  unfold cellText
  generalize replaceChar '\n' [' '] (trim text) = clean at hclean
  refine ⟨ps.map (replaceChar '|' ['\\', '|']), ?_, ?_⟩
  · rw [List.forall₂_map_right_iff]
    exact List.forall₂_same.mpr fun _ _ => .inr rfl
  · clear h hps
    induction ps generalizing clean with
    | nil => trivial
    | cons piece pieces ih =>
      obtain ⟨pre, post, rfl, hpost⟩ := hclean
      exact ⟨_, _, by rw [replaceChar_append, replaceChar_append], ih post hpost⟩

/-- The cells of a row, joined. -/
theorem keeps_renderRow {cells : List Chars} {cols : Nat} (h : cells.length ≤ cols) :
    Keeps (Framing.terminated '\n' cells) (renderRow cells cols) := by
  have htake : (cells ++ List.replicate (cols - cells.length) []).take cols =
      cells ++ List.replicate (cols - cells.length) [] :=
    List.take_of_length_le (by rw [List.length_append, List.length_replicate]; omega)
  unfold renderRow
  rw [htake]
  have hpadding : letters (Framing.terminated '\n' (List.replicate (cols - cells.length) [])) = [] :=
    letters_flatten fun text htext => by
      obtain ⟨cell, hcell, rfl⟩ := List.mem_map.mp htext
      rw [List.eq_of_mem_replicate hcell]
      rfl
  have hpad := keeps_after (Framing.terminated '\n' cells) hpadding
  rw [← terminated_append] at hpad
  have hsep : letters " | ".toList = [] := rfl
  have hleft : letters "| ".toList = [] := rfl
  exact (hpad.trans (respaced_intercalate (c := '\n') rfl hsep _).keeps).trans
    (keeps_around hleft _ rfl)

theorem le_columns {rows : List Row} {row : Row} (h : row ∈ rows) :
    row.cells.length ≤ columns rows := by
  induction rows with
  | nil => cases h
  | cons first rest ih =>
    have hcons : columns (first :: rest) = max first.cells.length (columns rest) := rfl
    rw [hcons]
    rcases List.mem_cons.mp h with rfl | h
    · omega
    · have := ih h
      omega

/-- The cells of the rows as one text. -/
def rowsText (rows : List Row) : Chars :=
  Framing.terminated '\n' (rows.map fun row => Framing.terminated '\n' row.cells)

theorem rowsText_append (rows more : List Row) :
    rowsText (rows ++ more) = rowsText rows ++ rowsText more := by
  rw [rowsText, List.map_append, terminated_append]
  rfl

theorem letters_separatorRow (cols : Nat) : letters (separatorRow cols) = [] := by
  have hsep : letters " | ".toList = [] := rfl
  rw [separatorRow, letters_append, letters_append, letters_intercalate hsep, letters_flatten]
  · rfl
  · intro text htext
    rw [List.eq_of_mem_replicate htext]
    rfl

theorem letters_blankRow (n cols : Nat) :
    letters (renderRow (List.replicate n []) cols) = [] := by
  have hsep : letters " | ".toList = [] := rfl
  unfold renderRow
  dsimp only
  rw [letters_append, letters_append, letters_intercalate hsep, letters_flatten]
  · rfl
  · intro cell hcell
    rcases List.mem_append.mp (List.mem_of_mem_take hcell) with hcell | hcell
    · rw [List.eq_of_mem_replicate hcell]
      rfl
    · rw [List.eq_of_mem_replicate hcell]
      rfl

/-- Header, separator and body have every row in its place. -/
theorem keeps_headerAndBody (rows : List Row) (cols : Nat) :
    Keeps (Framing.terminated '\n' (rows.map fun row => renderRow row.cells cols))
      (Framing.terminated '\n' (renderRow (headerAndBody rows).1 cols :: separatorRow cols ::
        (headerAndBody rows).2.map fun cells => renderRow cells cols)) := by
  have hbehind : ∀ body : List Row,
      Keeps (Framing.terminated '\n' (body.map fun row => renderRow row.cells cols))
        (Framing.terminated '\n' (renderRow (List.replicate (columns body) []) cols ::
          separatorRow cols :: (body.map Row.cells).map fun cells => renderRow cells cols)) := by
    intro body
    have hmark : letters (renderRow (List.replicate (columns body) []) cols ++
        '\n' :: (separatorRow cols ++ ['\n'])) = [] := by
      rw [letters_append, letters_blankRow, letters_cons, letters_append, letters_separatorRow]
      rfl
    have hsplit : Framing.terminated '\n' (renderRow (List.replicate (columns body) []) cols ::
        separatorRow cols :: (body.map Row.cells).map fun cells => renderRow cells cols) =
          (renderRow (List.replicate (columns body) []) cols ++
            '\n' :: (separatorRow cols ++ ['\n'])) ++
            Framing.terminated '\n' (body.map fun row => renderRow row.cells cols) := by
      rw [Framing.terminated_cons, Framing.terminated_cons, List.map_map]
      simp only [List.append_assoc, List.cons_append, List.nil_append]
      rfl
    rw [hsplit]
    exact keeps_before hmark _
  rcases rows with _ | ⟨⟨header, cells⟩, body⟩
  · exact hbehind []
  cases header with
  | false => exact hbehind (⟨false, cells⟩ :: body)
  | true =>
    rw [headerAndBody, List.map_cons, List.map_map, Framing.terminated_cons,
      Framing.terminated_cons, Framing.terminated_cons]
    have hmark : letters ('\n' :: separatorRow cols ++ ['\n']) = [] := by
      rw [letters_append, letters_cons, letters_separatorRow]
      rfl
    have hrespaced := (Respaced.refl (renderRow cells cols)).append
      (.white ('\n' :: separatorRow cols ++ ['\n']) (c := '\n') rfl hmark
        (.refl (Framing.terminated '\n' (body.map fun row => renderRow row.cells cols))))
    have hshape : '\n' :: separatorRow cols ++ ['\n'] ++
        Framing.terminated '\n' (body.map fun row => renderRow row.cells cols) =
          '\n' :: (separatorRow cols ++ '\n' ::
            Framing.terminated '\n' (body.map fun row => renderRow row.cells cols)) := by
      simp only [List.cons_append, List.append_assoc, List.nil_append]
    rw [hshape] at hrespaced
    exact hrespaced.keeps

/-- A table has the words of all its cells. -/
theorem keeps_tableLines {rows : List Row} {list : List Chars}
    (h : tableLines rows = some list) : Keeps (rowsText rows) (['\n'].intercalate list) := by
  have hrows : Keeps (rowsText rows)
      (Framing.terminated '\n' (rows.map fun row => renderRow row.cells (columns rows))) :=
    Keeps.terminated (c := '\n') rfl fun row hrow => keeps_renderRow (le_columns hrow)
  unfold tableLines at h
  split at h
  · cases h
  split at h
  · cases h
  have hlist : list = renderRow (headerAndBody rows).1 (columns rows) ::
      separatorRow (columns rows) ::
      (headerAndBody rows).2.map fun cells => renderRow cells (columns rows) :=
    (Option.some.inj h).symm
  rw [hlist]
  have hfeed : letters ['\n'] = [] := rfl
  exact (hrows.trans (keeps_headerAndBody rows _)).trans
    (respaced_intercalate (c := '\n') rfl hfeed _).keeps

/-- Without a table there are no cells. -/
theorem rowsText_of_none {rows : List Row} (h : tableLines rows = none) :
    Respaced (rowsText rows) [] := by
  have hempty : ∀ row ∈ rows, row.cells = [] := by
    unfold tableLines at h
    split at h
    · rename_i hnil
      rw [List.isEmpty_iff.mp hnil]
      exact fun row hrow => (List.not_mem_nil hrow).elim
    split at h
    · rename_i hzero
      intro row hrow
      have hle := le_columns hrow
      exact List.length_eq_zero_iff.mp (by omega)
    · cases h
  clear h
  induction rows with
  | nil => exact .nil
  | cons row rows ih =>
    obtain ⟨hrow, hrows⟩ := List.forall_mem_cons.mp hempty
    rw [rowsText, List.map_cons, hrow, Framing.terminated_cons]
    exact .white [] (c := '\n') rfl rfl (ih hrows)

/-! ## The page -/

section

variable (cv : Converter) (kind : String → Bool)

/-- The one traversal under an element. -/
theorem reachedNode_of_enter {place next : Place} {name : String}
    (h : place.enter cv name = [next]) (inside : Bool) (attributes : List (String × String))
    (children : List Dom) :
    reachedNode cv kind inside place (.element name attributes children) =
      reached cv kind (inside || kind name) next children := by
  rw [reachedNode, h, List.flatMap_singleton]

theorem reachedNode_of_closed {place : Place} {name : String} (h : place.enter cv name = [])
    (inside : Bool) (attributes : List (String × String)) (children : List Dom) :
    reachedNode cv kind inside place (.element name attributes children) = [] := by
  rw [reachedNode, h, List.flatMap_nil]

/-- Under a table, what is no row is passed through. -/
theorem reachedNode_rows {name : String} (h : name ≠ "tr") (inside : Bool)
    (attributes : List (String × String)) (children : List Dom) :
    reachedNode cv kind inside .rows (.element name attributes children) =
      reached cv kind (inside || kind name) .rows children := by
  have hopen : Place.rows.enter cv name = [.rows] := if_neg h
  exact reachedNode_of_enter cv kind hopen inside attributes children

/-- Under a list, what is no item is left out. -/
theorem reachedNode_items {item : Dom} (h : ¬ isItem item = true) (inside : Bool) :
    reachedNode cv kind inside .items item = [] := by
  cases item with
  | text _ => rfl
  | other => rfl
  | element name attributes children =>
    have hclosed : Place.items.enter cv name = [] := if_neg h
    exact reachedNode_of_closed cv kind hclosed inside attributes children

theorem wordsOf_text (text : Chars) (inside : Bool) :
    wordsOf [⟨text, inside⟩] = splitWhite text := List.append_nil _

mutual

theorem inOrder_rawNode (inside : Bool) (node : Dom) :
    InOrder (wordsOf (reachedNode cv kind inside .raw node)) (rawNode node) := by
  cases node with
  | text text =>
    show InOrder (wordsOf [⟨text, inside⟩]) text
    rw [wordsOf_text]
    exact inOrder_splitWhite text
  | other => trivial
  | element name attributes children =>
    rw [rawNode]
    split
    · rename_i hskip
      have hclosed : Place.raw.enter cv name = [] := if_pos hskip
      rw [reachedNode_of_closed cv kind hclosed]
      trivial
    · rename_i hskip
      have hopen : Place.raw.enter cv name = [.raw] := if_neg hskip
      rw [reachedNode_of_enter cv kind hopen]
      exact inOrder_collectRawText _ children

theorem inOrder_collectRawText (inside : Bool) (children : List Dom) :
    InOrder (wordsOf (reached cv kind inside .raw children)) (collectRawText children) := by
  cases children with
  | nil => trivial
  | cons child children =>
    rw [reached, collectRawText, wordsOf_append]
    exact (inOrder_rawNode inside child).append (inOrder_collectRawText inside children)

end

mutual

theorem inOrder_inlineNode (inside : Bool) (node : Dom) :
    InOrder (wordsOf (reachedNode cv kind inside .inline node)) (inlineNode cv node) := by
  cases node with
  | text text =>
    show InOrder (wordsOf [⟨text, inside⟩]) (collapseWs text)
    rw [wordsOf_text]
    exact (respaced_collapseFrom false text).keepsWords _ (words_splitWhite text)
      (inOrder_splitWhite text)
  | other => trivial
  | element name attributes children =>
    have hinline := inOrder_inlineChildren (inside || kind name) children
    have hraw := inOrder_collectRawText cv kind (inside || kind name) children
    have hwords := words_wordsOf (reached cv kind (inside || kind name) .inline children)
    rw [inlineNode]
    split
    · rename_i hskip
      have hclosed : Place.inline.enter cv name = [] := if_pos hskip
      rw [reachedNode_of_closed cv kind hclosed]
      trivial
    · rename_i hskip
      have hplaces : Place.inline.enter cv name = (inlineKind name).places := if_neg hskip
      cases hkind : inlineKind name with
      | link =>
        rw [hkind] at hplaces
        rw [reachedNode_of_enter cv kind hplaces]
        exact keepsWords_renderLink cv attributes _ _ hwords hinline
      | image =>
        rw [hkind] at hplaces
        rw [reachedNode_of_closed cv kind hplaces]
        trivial
      | lineBreak =>
        rw [hkind] at hplaces
        rw [reachedNode_of_closed cv kind hplaces]
        trivial
      | wordBreak =>
        rw [hkind] at hplaces
        rw [reachedNode_of_closed cv kind hplaces]
        trivial
      | emphasis marker =>
        rw [hkind] at hplaces
        rw [reachedNode_of_enter cv kind hplaces]
        exact (keeps_wrapEmphasis _ (letters_marker hkind)).words _ hwords hinline
      | code =>
        rw [hkind] at hplaces
        rw [reachedNode_of_enter cv kind hplaces]
        exact (keeps_inlineCode _).words _ (words_wordsOf _) hraw
      | other =>
        rw [hkind] at hplaces
        rw [reachedNode_of_enter cv kind hplaces]
        exact hinline

theorem inOrder_inlineChildren (inside : Bool) (children : List Dom) :
    InOrder (wordsOf (reached cv kind inside .inline children)) (inlineChildren cv children) := by
  cases children with
  | nil => trivial
  | cons child children =>
    rw [reached, inlineChildren, wordsOf_append]
    exact (inOrder_inlineNode inside child).append (inOrder_inlineChildren inside children)

end

theorem reachedNode_congr {place other : Place} {name : String}
    (h : place.enter cv name = other.enter cv name) (inside : Bool)
    (attributes : List (String × String)) (children : List Dom) :
    reachedNode cv kind inside place (.element name attributes children) =
      reachedNode cv kind inside other (.element name attributes children) := by
  rw [reachedNode, reachedNode, h]

theorem inOrder_itemInline (inside : Bool) (children : List Dom) :
    InOrder (wordsOf (reached cv kind inside .itemText children)) (itemInline cv children) := by
  induction children with
  | nil => trivial
  | cons child children ih =>
    rw [reached, wordsOf_append]
    have hinline := inOrder_inlineNode cv kind inside child
    cases child with
    | text text => exact hinline.append ih
    | other => exact hinline.append ih
    | element name attributes grandchildren =>
      rw [itemInline]
      split
      · rename_i hdrop
        have hclosed : Place.itemText.enter cv name = [] := if_pos hdrop
        rw [reachedNode_of_closed cv kind hclosed]
        exact ih
      · rename_i hkeep
        have hsame : Place.itemText.enter cv name = Place.inline.enter cv name := if_neg hkeep
        rw [reachedNode_congr cv kind hsame]
        exact hinline.append ih

theorem shows_rowCells (inside : Bool) (children : List Dom) :
    Shows (wordsOf (reached cv kind inside .row children))
      (Framing.terminated '\n' ((rowCells cv children).map Prod.snd)) := by
  induction children with
  | nil => exact shows_nil _
  | cons child children ih =>
    rw [reached, wordsOf_append]
    cases child with
    | text text => exact ih
    | other => exact ih
    | element name attributes grandchildren =>
      rw [rowCells]
      split
      · rename_i hcell
        have hopen : Place.row.enter cv name = [.inline] := if_pos hcell
        rw [reachedNode_of_enter cv kind hopen, List.map_cons, Framing.terminated_cons]
        have hshown := shows_cellText (words_wordsOf _)
          (inOrder_inlineChildren cv kind (inside || kind name) grandchildren)
        exact hshown.append (ih.keeps (words_wordsOf _) fun _ _ h => h.before ['\n'])
      · rename_i hother
        have hclosed : Place.row.enter cv name = [] := if_neg hother
        rw [reachedNode_of_closed cv kind hclosed]
        exact ih

theorem shows_tableRow (inside inThead : Bool) (children : List Dom) :
    Shows (wordsOf (reached cv kind inside .row children))
      (rowsText (tableRow cv inThead children)) := by
  have hcells := shows_rowCells cv kind inside children
  unfold tableRow
  dsimp only
  split
  · rename_i hnil
    rw [hnil] at hcells
    exact hcells
  · show Shows _ (Framing.terminated '\n' [Framing.terminated '\n' _])
    rw [terminated_singleton]
    exact hcells.keeps (words_wordsOf _) fun _ _ h => h.after ['\n']

mutual

theorem shows_rowsOf (inside inThead : Bool) (node : Dom) :
    Shows (wordsOf (reachedNode cv kind inside .rows node))
      (rowsText (rowsOf cv inThead node)) := by
  cases node with
  | text text => exact shows_nil _
  | other => exact shows_nil _
  | element name attributes children =>
    have hrows := fun next => shows_collectRows (inside || kind name) next children
    unfold rowsOf
    split
    · rw [reachedNode_rows cv kind (by decide)]
      exact hrows true
    · rw [reachedNode_rows cv kind (by decide)]
      exact hrows false
    · rw [reachedNode_rows cv kind (by decide)]
      exact hrows false
    · have hopen : ∀ name, name = "tr" → Place.rows.enter cv name = [.row] :=
        fun _ hname => if_pos hname
      rw [reachedNode_of_enter cv kind (hopen _ rfl)]
      exact shows_tableRow cv kind _ inThead children
    · rename_i hrow
      rw [reachedNode_rows cv kind hrow]
      exact hrows inThead

theorem shows_collectRows (inside inThead : Bool) (children : List Dom) :
    Shows (wordsOf (reached cv kind inside .rows children))
      (rowsText (collectRows cv inThead children)) := by
  cases children with
  | nil => exact shows_nil _
  | cons child children =>
    rw [reached, collectRows, wordsOf_append, rowsText_append]
    exact (shows_rowsOf inside inThead child).append (shows_collectRows inside inThead children)

end

theorem keeps_renderTable (children : List Dom) : Keeps (rowsText (collectRows cv false children))
    (Framing.terminated '\n' (renderTable cv children).toList) := by
  unfold renderTable
  cases htable : tableLines (collectRows cv false children) with
  | none => exact (rowsText_of_none htable).keeps
  | some list =>
    show Keeps _ (Framing.terminated '\n' [['\n'].intercalate list])
    rw [terminated_singleton]
    exact (keeps_tableLines htable).trans (keeps_after _ rfl)

theorem letters_marker_item (ordered : Bool) (index : Nat) :
    letters (if ordered then (toString index).toList ++ ['.'] else ['-']) = [] := by
  split
  · have hdigits : letters (toString index).toList = [] := by
      refine List.filter_eq_nil_iff.mpr fun c hc => ?_
      have hdigit : c.isDigit = true := by
        by_contra hother
        rw [Bool.not_eq_true] at hother
        have hnone := Numerals.decimal_none hc hother
        have hsome : Numerals.decimal (toString index).toList = some index :=
          Numerals.decimal_repr index
        rw [hnone] at hsome
        cases hsome
      have hrange : 0x30 ≤ c.toNat ∧ c.toNat ≤ 0x39 := Char.isDigit_iff_toNat.mp hdigit
      unfold isLetter
      simp only [Bool.or_eq_true, Bool.and_eq_true, decide_eq_true_eq]
      omega
    rw [letters_append, hdigits]
    rfl
  · rfl

/-- The line of an item, around its text. -/
theorem keeps_itemLine (ordered : Bool) (depth index : Nat) (children : List Dom) :
    Keeps (itemInline cv children) (itemLine cv ordered depth index children) := by
  have hindent : letters (List.replicate depth "  ".toList).flatten = [] :=
    letters_flatten fun text htext => by
      rw [List.eq_of_mem_replicate htext]
      rfl
  unfold itemLine
  refine (respaced_trim _).keeps.trans (keeps_before ?_ _)
  rw [letters_append, letters_append, hindent, letters_marker_item]
  rfl

mutual

theorem shows_renderItems (inside ordered : Bool) (depth index : Nat) (items : List Dom) :
    Shows (wordsOf (reached cv kind inside .items items))
      (Framing.terminated '\n' (renderItems cv ordered depth index items)) := by
  cases items with
  | nil => exact shows_nil _
  | cons item items =>
    rw [reached, wordsOf_append, renderItems]
    split
    · rename_i hitem
      rw [terminated_append]
      exact (shows_renderItem inside ordered depth index item hitem).append
        (shows_renderItems inside ordered depth (index + 1) items)
    · rename_i hother
      rw [reachedNode_items cv kind hother]
      exact shows_renderItems inside ordered depth index items

theorem shows_renderItem (inside ordered : Bool) (depth index : Nat) (item : Dom)
    (h : isItem item = true) : Shows (wordsOf (reachedNode cv kind inside .items item))
      (Framing.terminated '\n' (renderItem cv ordered depth index item)) := by
  cases item with
  | text _ => exact shows_nil _
  | other => exact shows_nil _
  | element name attributes children =>
    have hopen : Place.items.enter cv name = [.itemText, .itemLists] := if_pos h
    rw [reachedNode, hopen, List.flatMap_cons, List.flatMap_singleton, wordsOf_append, renderItem,
      Framing.terminated_cons]
    have htext := Shows.of_inOrder (inOrder_itemInline cv kind (inside || kind name) children)
    exact (htext.keeps (words_wordsOf _) (keeps_itemLine cv ordered depth index children).words).append
      ((shows_nestedLists _ (depth + 1) children).keeps (words_wordsOf _)
        fun _ _ hlist => hlist.before ['\n'])

theorem shows_nestedLists (inside : Bool) (depth : Nat) (children : List Dom) :
    Shows (wordsOf (reached cv kind inside .itemLists children))
      (Framing.terminated '\n' (nestedLists cv depth children)) := by
  cases children with
  | nil => exact shows_nil _
  | cons child children =>
    rw [reached, wordsOf_append, nestedLists, terminated_append]
    exact (shows_nestedList inside depth child).append (shows_nestedLists inside depth children)

theorem shows_nestedList (inside : Bool) (depth : Nat) (node : Dom) :
    Shows (wordsOf (reachedNode cv kind inside .itemLists node))
      (Framing.terminated '\n' (nestedList cv depth node)) := by
  cases node with
  | text _ => exact shows_nil _
  | other => exact shows_nil _
  | element name attributes children =>
    rw [nestedList]
    split
    · rename_i hlist
      have hopen : Place.itemLists.enter cv name = [.items] := if_pos hlist
      rw [reachedNode_of_enter cv kind hopen]
      exact shows_renderItems _ _ depth 1 children
    · rename_i hother
      have hclosed : Place.itemLists.enter cv name = [] := if_neg hother
      rw [reachedNode_of_closed cv kind hclosed]
      exact shows_nil _

end

theorem childKind_dropped {child : Dom} (h : childKind cv child = .dropped) (inside : Bool) :
    reachedNode cv kind inside .blocks child = [] := by
  cases child with
  | text _ => cases h
  | other => rfl
  | element name attributes children =>
    rw [childKind] at h
    split at h
    · rename_i hdrop
      have hclosed : Place.blocks.enter cv name = [] := if_pos hdrop
      exact reachedNode_of_closed cv kind hclosed inside attributes children
    · split at h
      · cases h
      · cases h

theorem childKind_inline {child : Dom} (h : childKind cv child = .inline) (inside : Bool) :
    reachedNode cv kind inside .blocks child = reachedNode cv kind inside .inline child := by
  cases child with
  | text _ => rfl
  | other => rfl
  | element name attributes children =>
    rw [childKind] at h
    split at h
    · cases h
    · rename_i hkeep
      split at h
      · cases h
      · rename_i hinline
        have hsame : Place.blocks.enter cv name = Place.inline.enter cv name :=
          (if_neg hkeep).trans (if_neg hinline)
        exact reachedNode_congr cv kind hsame inside attributes children

theorem childKind_block {name : String} {attributes : List (String × String)}
    {children : List Dom} (h : childKind cv (.element name attributes children) = .block) :
    Place.blocks.enter cv name = (blockKind name).places := by
  rw [childKind] at h
  split at h
  · cases h
  · rename_i hkeep
    split at h
    · rename_i hblock
      exact (if_neg hkeep).trans (if_pos hblock)
    · cases h

mutual

/-- The blocks show the words of the text so far and of the children, in their order. -/
theorem shows_renderBlocks (inside : Bool) {words : List Chars} {inline : Chars}
    (hwords : Words words) (h : Shows words inline) (children : List Dom) :
    Shows (words ++ wordsOf (reached cv kind inside .blocks children))
      (Framing.terminated '\n' (renderBlocks cv inline children)) := by
  have hflushed := h.keeps hwords (keeps_flushInline inline).words
  cases children with
  | nil =>
    rw [reached, wordsOf_nil, List.append_nil, renderBlocks]
    exact hflushed
  | cons child children =>
    rw [reached, wordsOf_append, renderBlocks]
    split
    · rename_i hkind
      rw [childKind_dropped cv kind hkind]
      exact shows_renderBlocks inside hwords h children
    · rename_i hkind
      rw [childKind_inline cv kind hkind, ← List.append_assoc]
      exact shows_renderBlocks inside (hwords.append (words_wordsOf _))
        (h.append (.of_inOrder (inOrder_inlineNode cv kind inside child))) children
    · rename_i hkind
      have hrest := shows_renderBlocks inside words_nil (shows_nil []) children
      rw [terminated_append, terminated_append, ← List.append_assoc]
      exact (hflushed.append (shows_renderBlockElement inside child hkind)).append hrest

theorem shows_renderBlockElement (inside : Bool) (node : Dom)
    (h : childKind cv node = .block) : Shows (wordsOf (reachedNode cv kind inside .blocks node))
      (Framing.terminated '\n' (renderBlockElement cv node)) := by
  cases node with
  | text _ => cases h
  | other => cases h
  | element name attributes children =>
    have hplaces := childKind_block cv h
    have hwords := fun place => words_wordsOf (reached cv kind (inside || kind name) place children)
    have hinline := Shows.of_inOrder
      (inOrder_inlineChildren cv kind (inside || kind name) children)
    rw [renderBlockElement]
    cases hkind : blockKind name with
    | heading level =>
      rw [hkind] at hplaces
      rw [reachedNode_of_enter cv kind hplaces]
      exact hinline.keeps (hwords _) (keeps_headingBlock level _).words
    | list ordered =>
      rw [hkind] at hplaces
      rw [reachedNode_of_enter cv kind hplaces]
      exact (shows_renderItems cv kind _ ordered 0 1 children).keeps (hwords _)
        (keeps_listBlock _).words
    | table =>
      rw [hkind] at hplaces
      rw [reachedNode_of_enter cv kind hplaces]
      exact (shows_collectRows cv kind _ false children).keeps (hwords _)
        (keeps_renderTable cv children).words
    | pre =>
      rw [hkind] at hplaces
      rw [reachedNode_of_enter cv kind hplaces]
      have hraw := Shows.of_inOrder
        (inOrder_collectRawText cv kind (inside || kind name) children)
      show Shows _ (Framing.terminated '\n' [renderPre children])
      rw [terminated_singleton]
      exact hraw.keeps (hwords _) ((keepsWords_renderPre children).trans fun _ _ hpre =>
        hpre.after ['\n'])
    | blockquote =>
      rw [hkind] at hplaces
      rw [reachedNode_of_enter cv kind hplaces]
      have hquoted := shows_renderBlocks (inside || kind name) words_nil (shows_nil []) children
      exact hquoted.keeps (hwords _) (keeps_quoteBlock _).words
    | rule =>
      rw [hkind] at hplaces
      rw [reachedNode_of_closed cv kind hplaces]
      exact shows_nil _
    | paragraph =>
      rw [hkind] at hplaces
      rw [reachedNode_of_enter cv kind hplaces]
      exact hinline.keeps (hwords _) (keeps_flushInline _).words
    | container =>
      rw [hkind] at hplaces
      rw [reachedNode_of_enter cv kind hplaces]
      exact shows_renderBlocks (inside || kind name) words_nil (shows_nil []) children

end

end

/-! ## The clean-up -/

theorem respaced_normalizeLines (fence : Option Nat) (blank : Nat) (list : List Chars) :
    Respaced (Framing.terminated '\n' list)
      (Framing.terminated '\n' (normalizeLines fence blank list)) := by
  induction list generalizing fence blank with
  | nil =>
    cases fence with
    | none => exact .nil
    | some _ => exact .nil
  | cons line rest ih =>
    have hkeep : ∀ fence blank, Respaced (Framing.terminated '\n' (line :: rest))
        (Framing.terminated '\n' (line :: normalizeLines fence blank rest)) := by
      intro fence blank
      rw [Framing.terminated_cons, Framing.terminated_cons]
      exact (Respaced.refl line).append (.keep '\n' (ih fence blank))
    cases fence with
    | some openingLen =>
      rw [normalizeLines]
      exact hkeep _ _
    | none =>
      rw [normalizeLines]
      split
      · exact hkeep _ _
      · dsimp only
        have htrimmed : ∀ blank, Respaced (Framing.terminated '\n' (line :: rest))
            (Framing.terminated '\n' (trimEnd line :: normalizeLines none blank rest)) := by
          intro blank
          rw [Framing.terminated_cons, Framing.terminated_cons]
          exact (respaced_trimEnd line).append (.keep '\n' (ih none blank))
        split
        · rename_i hnil
          split
          · have hgone := respaced_trimEnd line
            rw [hnil] at hgone
            rw [Framing.terminated_cons]
            exact hgone.append (.white [] (c := '\n') rfl rfl (ih none (blank + 1)))
          · exact htrimmed (blank + 1)
        · exact htrimmed 0

theorem keeps_normalize (markdown : Chars) : Keeps markdown (normalize markdown) :=
  ((keeps_splitOn markdown).trans (respaced_normalizeLines none 0 _).keeps).trans
    (respaced_trim _).keeps

/-- The blocks of a page, cleaned up. -/
theorem keeps_joinBlocks (blocks : List Chars) :
    Keeps (Framing.terminated '\n' blocks) (joinBlocks blocks) := by
  have hsep : letters "\n\n".toList = [] := rfl
  exact (respaced_intercalate (c := '\n') rfl hsep blocks).keeps.trans (keeps_normalize _)

/-- **What is reached is shown**: the Markdown of a page has the words of all the texts that the
    traversals take, in the order in which they take them. -/
theorem shows_toMarkdown (cv : Converter) (kind : String → Bool) (root : List Dom) :
    Shows (wordsOf (reached cv kind false .blocks root)) (toMarkdown cv root) := by
  have hblocks := shows_renderBlocks cv kind false words_nil (shows_nil []) root
  exact hblocks.keeps (words_wordsOf _) (keeps_joinBlocks _).words

/-- A converter for a page without a content root of its own. -/
def bodyConverter : Converter where
  lib := .ofTable [] []
  base := { scheme := "https", host := some "shop.test", path := "/" }
  preserveSemanticHeaders := false

end Basecrawl.Core.Markdown
