/-
  Site chrome, at every depth.

  The text inside chrome has no part in the Markdown of a page when the page keeps its Markdown
  whatever that text is (`StripsChrome`).  Chrome is dropped where a container of blocks or a list
  item meets it, but the traversals of inline content, of code and of tables go into it; so this is
  the case exactly when none of them comes to a text inside chrome (`stripsChrome_iff`).

  1. **Overwriting** — `overwrite` puts a text in the place of every text inside chrome; the
     traversals come to the same places afterwards (`reached_overwrite`).
  2. **Sufficient** — where no traversal comes to a text inside chrome, overwriting does not show,
     renderer by renderer.
  3. **Necessary** — a word that is longer than the Markdown shows when a traversal comes to it.
-/
import Basecrawl.Core.MarkdownWords

namespace Basecrawl.Core.Markdown

open Text Chars

/-! ## Overwriting -/

mutual

/-- The node with another text in the place of each one inside chrome. -/
def overwriteNode (cv : Converter) (text : Chars) (inside : Bool) : Dom → Dom
  | .text old => .text (if inside then text else old)
  | .element name attributes children =>
      .element name attributes (overwrite cv text (inside || cv.isBoilerplate name) children)
  | .other => .other

/-- The nodes with another text in the place of each one inside chrome. -/
def overwrite (cv : Converter) (text : Chars) (inside : Bool) : List Dom → List Dom
  | [] => []
  | child :: children => overwriteNode cv text inside child :: overwrite cv text inside children

end

/-- Two pages that differ in the text inside their chrome alone. -/
def SameOutside (cv : Converter) (root other : List Dom) : Prop :=
  overwrite cv [] false other = overwrite cv [] false root

/-- The text inside the chrome has no part in the Markdown. -/
def StripsChrome (cv : Converter) (root : List Dom) : Prop :=
  ∀ other, SameOutside cv root other → toMarkdown cv other = toMarkdown cv root

/-- None of the texts is inside. -/
def Outside (texts : List Reached) : Prop := ∀ text ∈ texts, text.inside = false

/-- No traversal comes to a text inside chrome. -/
def ClosedChrome (cv : Converter) (root : List Dom) : Prop :=
  Outside (reached cv cv.isBoilerplate false .blocks root)

@[simp] theorem outside_nil : Outside [] := fun _ h => (List.not_mem_nil h).elim

@[simp] theorem outside_append (ss ts : List Reached) :
    Outside (ss ++ ts) ↔ Outside ss ∧ Outside ts := List.forall_mem_append

section

variable (cv : Converter) (text : Chars)

mutual

theorem overwriteNode_overwriteNode (old : Chars) (inside : Bool) (node : Dom) :
    overwriteNode cv text inside (overwriteNode cv old inside node) =
      overwriteNode cv text inside node := by
  cases node with
  | text _ =>
    rw [overwriteNode, overwriteNode, overwriteNode]
    cases inside with
    | false => rfl
    | true => rfl
  | other => rfl
  | element name attributes children =>
    rw [overwriteNode, overwriteNode, overwriteNode, overwrite_overwrite]

/-- What is overwritten can be overwritten again. -/
theorem overwrite_overwrite (old : Chars) (inside : Bool) (children : List Dom) :
    overwrite cv text inside (overwrite cv old inside children) =
      overwrite cv text inside children := by
  cases children with
  | nil => rfl
  | cons child children =>
    rw [overwrite, overwrite, overwrite, overwriteNode_overwriteNode, overwrite_overwrite]

end

/-- A text that is reached, after overwriting. -/
def Reached.overwritten (text : Chars) (old : Reached) : Reached :=
  if old.inside then ⟨text, true⟩ else old

mutual

theorem reachedNode_overwriteNode (inside : Bool) (place : Place) (node : Dom) :
    reachedNode cv cv.isBoilerplate inside place (overwriteNode cv text inside node) =
      (reachedNode cv cv.isBoilerplate inside place node).map (Reached.overwritten text) := by
  cases node with
  | text old =>
    rw [overwriteNode, reachedNode, reachedNode]
    cases inside with
    | false => cases place.readsText with
      | false => rfl
      | true => rfl
    | true => cases place.readsText with
      | false => rfl
      | true => rfl
  | other => rfl
  | element name attributes children =>
    rw [overwriteNode, reachedNode, reachedNode, List.map_flatMap]
    exact congrArg (List.flatMap · _) (funext fun next => reached_overwrite _ next children)

/-- Overwriting changes what the texts inside chrome are, and not which ones are reached. -/
theorem reached_overwrite (inside : Bool) (place : Place) (children : List Dom) :
    reached cv cv.isBoilerplate inside place (overwrite cv text inside children) =
      (reached cv cv.isBoilerplate inside place children).map (Reached.overwritten text) := by
  cases children with
  | nil => rfl
  | cons child children =>
    rw [overwrite, reached, reached, List.map_append, reachedNode_overwriteNode,
      reached_overwrite]

end

theorem outside_map_overwritten (texts : List Reached) :
    Outside (texts.map (Reached.overwritten text)) ↔ Outside texts := by
  have hsame : ∀ old : Reached, (old.overwritten text).inside = old.inside := by
    intro old
    unfold Reached.overwritten
    split
    · rename_i hinside
      exact hinside.symm
    · rfl
  constructor
  · intro h old hold
    rw [← hsame old]
    exact h _ (List.mem_map_of_mem hold)
  · intro h other hother
    obtain ⟨old, hold, rfl⟩ := List.mem_map.mp hother
    rw [hsame old]
    exact h old hold

end

/-! ## Sufficient -/

section

variable (cv : Converter) (text : Chars)

/-- What is under an element that opens one traversal. -/
theorem outside_of_enter {place next : Place} {name : String} {inside : Bool}
    {attributes : List (String × String)} {children : List Dom}
    (h : Outside (reachedNode cv cv.isBoilerplate inside place (.element name attributes children)))
    (henter : place.enter cv name = [next]) :
    Outside (reached cv cv.isBoilerplate (inside || cv.isBoilerplate name) next children) := by
  rwa [reachedNode_of_enter cv cv.isBoilerplate henter] at h

mutual

theorem rawNode_overwriteNode {inside : Bool} {node : Dom}
    (h : Outside (reachedNode cv cv.isBoilerplate inside .raw node)) :
    rawNode (overwriteNode cv text inside node) = rawNode node := by
  cases node with
  | text old =>
    have hinside : inside = false := h ⟨old, inside⟩ List.mem_cons_self
    rw [overwriteNode, hinside]
    rfl
  | other => rfl
  | element name attributes children =>
    rw [overwriteNode, rawNode, rawNode]
    split
    · rfl
    · rename_i hskip
      exact collectRawText_overwrite (outside_of_enter cv h (if_neg hskip))

theorem collectRawText_overwrite {inside : Bool} {children : List Dom}
    (h : Outside (reached cv cv.isBoilerplate inside .raw children)) :
    collectRawText (overwrite cv text inside children) = collectRawText children := by
  cases children with
  | nil => rfl
  | cons child children =>
    rw [reached, outside_append] at h
    rw [overwrite, collectRawText, collectRawText, rawNode_overwriteNode h.1,
      collectRawText_overwrite h.2]

end

mutual

theorem inlineNode_overwriteNode {inside : Bool} {node : Dom}
    (h : Outside (reachedNode cv cv.isBoilerplate inside .inline node)) :
    inlineNode cv (overwriteNode cv text inside node) = inlineNode cv node := by
  cases node with
  | text old =>
    have hinside : inside = false := h ⟨old, inside⟩ List.mem_cons_self
    rw [overwriteNode, hinside]
    rfl
  | other => rfl
  | element name attributes children =>
    rw [overwriteNode, inlineNode, inlineNode]
    split
    · rfl
    · rename_i hskip
      have hplaces : Place.inline.enter cv name = (inlineKind name).places := if_neg hskip
      have hchildren : Place.inline.enter cv name = [.inline] →
          inlineChildren cv (overwrite cv text (inside || cv.isBoilerplate name) children) =
            inlineChildren cv children := fun henter =>
        inlineChildren_overwrite (outside_of_enter cv h henter)
      cases hkind : inlineKind name with
      | link =>
        rw [hkind] at hplaces
        rw [hchildren hplaces]
      | emphasis marker =>
        rw [hkind] at hplaces
        rw [hchildren hplaces]
      | other =>
        rw [hkind] at hplaces
        exact hchildren hplaces
      | code =>
        rw [hkind] at hplaces
        rw [collectRawText_overwrite cv text (outside_of_enter cv h hplaces)]
      | image => rfl
      | lineBreak => rfl
      | wordBreak => rfl

theorem inlineChildren_overwrite {inside : Bool} {children : List Dom}
    (h : Outside (reached cv cv.isBoilerplate inside .inline children)) :
    inlineChildren cv (overwrite cv text inside children) = inlineChildren cv children := by
  cases children with
  | nil => rfl
  | cons child children =>
    rw [reached, outside_append] at h
    rw [overwrite, inlineChildren, inlineChildren, inlineNode_overwriteNode h.1,
      inlineChildren_overwrite h.2]

end

theorem itemInline_overwrite {inside : Bool} {children : List Dom}
    (h : Outside (reached cv cv.isBoilerplate inside .itemText children)) :
    itemInline cv (overwrite cv text inside children) = itemInline cv children := by
  induction children with
  | nil => rfl
  | cons child children ih =>
    rw [reached, outside_append] at h
    have hrest := ih h.2
    rw [overwrite]
    cases child with
    | text old =>
      have hinline : inlineNode cv (overwriteNode cv text inside (.text old)) =
          inlineNode cv (.text old) := inlineNode_overwriteNode cv text h.1
      show inlineNode cv (overwriteNode cv text inside (.text old)) ++ _ =
        inlineNode cv (.text old) ++ _
      rw [hinline, hrest]
    | other => exact hrest
    | element name attributes grandchildren =>
      rw [overwriteNode, itemInline, itemInline, hrest]
      split
      · rfl
      · rename_i hkeep
        have hsame : Place.itemText.enter cv name = Place.inline.enter cv name := if_neg hkeep
        have hinline := h.1
        rw [reachedNode_congr cv cv.isBoilerplate hsame] at hinline
        have hnode := inlineNode_overwriteNode cv text hinline
        rw [overwriteNode] at hnode
        rw [hnode]

theorem rowCells_overwrite {inside : Bool} {children : List Dom}
    (h : Outside (reached cv cv.isBoilerplate inside .row children)) :
    rowCells cv (overwrite cv text inside children) = rowCells cv children := by
  induction children with
  | nil => rfl
  | cons child children ih =>
    rw [reached, outside_append] at h
    have hrest := ih h.2
    rw [overwrite]
    cases child with
    | text old => exact hrest
    | other => exact hrest
    | element name attributes grandchildren =>
      rw [overwriteNode, rowCells, rowCells, hrest]
      split
      · rename_i hcell
        rw [inlineChildren_overwrite cv text (outside_of_enter cv h.1 (if_pos hcell))]
      · rfl

mutual

theorem rowsOf_overwriteNode {inside : Bool} {node : Dom} (inThead : Bool)
    (h : Outside (reachedNode cv cv.isBoilerplate inside .rows node)) :
    rowsOf cv inThead (overwriteNode cv text inside node) = rowsOf cv inThead node := by
  cases node with
  | text old => rfl
  | other => rfl
  | element name attributes children =>
    have hrows : name ≠ "tr" → ∀ next, collectRows cv next
        (overwrite cv text (inside || cv.isBoilerplate name) children) =
          collectRows cv next children := fun hname next =>
      collectRows_overwrite next (outside_of_enter cv h (if_neg hname))
    rw [overwriteNode]
    unfold rowsOf
    split
    · exact hrows (by decide) true
    · exact hrows (by decide) false
    · exact hrows (by decide) false
    · have hopen : ∀ name, name = "tr" → Place.rows.enter cv name = [.row] :=
        fun _ hname => if_pos hname
      unfold tableRow
      rw [rowCells_overwrite cv text (outside_of_enter cv h (hopen _ rfl))]
    · rename_i hrow
      exact hrows hrow inThead

theorem collectRows_overwrite {inside : Bool} {children : List Dom} (inThead : Bool)
    (h : Outside (reached cv cv.isBoilerplate inside .rows children)) :
    collectRows cv inThead (overwrite cv text inside children) =
      collectRows cv inThead children := by
  cases children with
  | nil => rfl
  | cons child children =>
    rw [reached, outside_append] at h
    rw [overwrite, collectRows, collectRows, rowsOf_overwriteNode inThead h.1,
      collectRows_overwrite inThead h.2]

end

theorem isItem_overwriteNode (inside : Bool) (node : Dom) :
    isItem (overwriteNode cv text inside node) = isItem node := by
  cases node with
  | text _ => rfl
  | other => rfl
  | element name attributes children => rfl

mutual

theorem renderItems_overwrite {inside : Bool} {items : List Dom} (ordered : Bool)
    (depth index : Nat) (h : Outside (reached cv cv.isBoilerplate inside .items items)) :
    renderItems cv ordered depth index (overwrite cv text inside items) =
      renderItems cv ordered depth index items := by
  cases items with
  | nil => rfl
  | cons item items =>
    rw [reached, outside_append] at h
    rw [overwrite, renderItems, renderItems, isItem_overwriteNode]
    split
    · rename_i hitem
      rw [renderItem_overwriteNode ordered depth index hitem h.1,
        renderItems_overwrite ordered depth (index + 1) h.2]
    · exact renderItems_overwrite ordered depth index h.2

theorem renderItem_overwriteNode {inside : Bool} {item : Dom} (ordered : Bool)
    (depth index : Nat) (hitem : isItem item = true)
    (h : Outside (reachedNode cv cv.isBoilerplate inside .items item)) :
    renderItem cv ordered depth index (overwriteNode cv text inside item) =
      renderItem cv ordered depth index item := by
  cases item with
  | text _ => cases hitem
  | other => cases hitem
  | element name attributes children =>
    have hopen : Place.items.enter cv name = [.itemText, .itemLists] := if_pos hitem
    rw [reachedNode, hopen, List.flatMap_cons, List.flatMap_singleton, outside_append] at h
    rw [overwriteNode, renderItem, renderItem, itemLine, itemLine,
      itemInline_overwrite cv text h.1, nestedLists_overwrite (depth + 1) h.2]

theorem nestedLists_overwrite {inside : Bool} {children : List Dom} (depth : Nat)
    (h : Outside (reached cv cv.isBoilerplate inside .itemLists children)) :
    nestedLists cv depth (overwrite cv text inside children) = nestedLists cv depth children := by
  cases children with
  | nil => rfl
  | cons child children =>
    rw [reached, outside_append] at h
    rw [overwrite, nestedLists, nestedLists, nestedList_overwriteNode depth h.1,
      nestedLists_overwrite depth h.2]

theorem nestedList_overwriteNode {inside : Bool} {node : Dom} (depth : Nat)
    (h : Outside (reachedNode cv cv.isBoilerplate inside .itemLists node)) :
    nestedList cv depth (overwriteNode cv text inside node) = nestedList cv depth node := by
  cases node with
  | text _ => rfl
  | other => rfl
  | element name attributes children =>
    rw [overwriteNode, nestedList, nestedList]
    split
    · rename_i hlist
      exact renderItems_overwrite _ depth 1 (outside_of_enter cv h (if_pos hlist))
    · rfl

end

theorem codeLanguage_overwrite (inside : Bool) (children : List Dom) :
    codeLanguage (overwrite cv text inside children) = codeLanguage children := by
  induction children with
  | nil => rfl
  | cons child children ih =>
    rw [overwrite]
    cases child with
    | text _ => exact ih
    | other => exact ih
    | element name attributes grandchildren =>
      rw [overwriteNode, codeLanguage, codeLanguage, ih]

theorem childKind_overwriteNode (inside : Bool) (node : Dom) :
    childKind cv (overwriteNode cv text inside node) = childKind cv node := by
  cases node with
  | text _ => rfl
  | other => rfl
  | element name attributes children => rfl

mutual

theorem renderBlocks_overwrite {inside : Bool} {children : List Dom} (inline : Chars)
    (h : Outside (reached cv cv.isBoilerplate inside .blocks children)) :
    renderBlocks cv inline (overwrite cv text inside children) =
      renderBlocks cv inline children := by
  cases children with
  | nil => rfl
  | cons child children =>
    rw [reached, outside_append] at h
    rw [overwrite, renderBlocks, renderBlocks, childKind_overwriteNode]
    split
    · exact renderBlocks_overwrite inline h.2
    · rename_i hkind
      have hinline := h.1
      rw [childKind_inline cv cv.isBoilerplate hkind] at hinline
      rw [inlineNode_overwriteNode cv text hinline]
      exact renderBlocks_overwrite _ h.2
    · rename_i hkind
      rw [renderBlockElement_overwriteNode hkind h.1, renderBlocks_overwrite [] h.2]

theorem renderBlockElement_overwriteNode {inside : Bool} {node : Dom}
    (hblock : childKind cv node = .block)
    (h : Outside (reachedNode cv cv.isBoilerplate inside .blocks node)) :
    renderBlockElement cv (overwriteNode cv text inside node) = renderBlockElement cv node := by
  cases node with
  | text _ => rfl
  | other => rfl
  | element name attributes children =>
    have hplaces := childKind_block cv hblock
    rw [overwriteNode, renderBlockElement, renderBlockElement]
    cases hkind : blockKind name with
    | heading level =>
      rw [hkind] at hplaces
      rw [inlineChildren_overwrite cv text (outside_of_enter cv h hplaces)]
    | list ordered =>
      rw [hkind] at hplaces
      exact congrArg listBlock
        (renderItems_overwrite cv text ordered 0 1 (outside_of_enter cv h hplaces))
    | table =>
      rw [hkind] at hplaces
      rw [renderTable, renderTable,
        collectRows_overwrite cv text false (outside_of_enter cv h hplaces)]
    | pre =>
      rw [hkind] at hplaces
      rw [renderPre, renderPre, codeLanguage_overwrite,
        collectRawText_overwrite cv text (outside_of_enter cv h hplaces)]
    | blockquote =>
      rw [hkind] at hplaces
      rw [renderBlocks_overwrite [] (outside_of_enter cv h hplaces)]
    | rule => rfl
    | paragraph =>
      rw [hkind] at hplaces
      rw [inlineChildren_overwrite cv text (outside_of_enter cv h hplaces)]
    | container =>
      rw [hkind] at hplaces
      exact renderBlocks_overwrite [] (outside_of_enter cv h hplaces)

end

/-- Text inside chrome that no traversal comes to does not show. -/
theorem toMarkdown_overwrite {root : List Dom} (h : ClosedChrome cv root) :
    toMarkdown cv (overwrite cv text false root) = toMarkdown cv root := by
  rw [toMarkdown, toMarkdown, renderBlocks_overwrite cv text [] h]

end

/-! ## Necessary -/

/-- A word that is longer than the Markdown. -/
def longWord (markdown : Chars) : Chars := List.replicate (markdown.length + 1) 'x'

theorem length_le_of_shows {words : List Chars} {word text : Chars} (h : Shows words text)
    (hmem : word ∈ words) : word.length ≤ text.length := by
  obtain ⟨shown, hspelt, hshown⟩ := h.sublist (List.singleton_sublist.mpr hmem)
  obtain _ | ⟨hone, hnone⟩ := hspelt
  have hle := hshown.length_le List.mem_cons_self
  rcases hone with rfl | rfl
  · exact hle
  · have hgrow : word.length ≤ (replaceChar '|' ['\\', '|'] word).length := by
      clear hshown hle hmem h
      induction word with
      | nil => exact Nat.zero_le _
      | cons c word ih =>
        by_cases hc : c = '|'
        · rw [hc, replaceChar_cons_self]
          simp only [List.length_cons, List.length_append]
          omega
        · rw [replaceChar_cons_ne hc, List.length_cons, List.length_cons]
          omega
    omega

/-- **Chrome is stripped** exactly when no traversal comes to a text inside it. -/
theorem stripsChrome_iff (cv : Converter) (root : List Dom) :
    StripsChrome cv root ↔ ClosedChrome cv root := by
  constructor
  · intro h
    by_contra hopen
    obtain ⟨text, hreached, hinside⟩ : ∃ text ∈ reached cv cv.isBoilerplate false .blocks root,
        text.inside = true := by
      simpa [ClosedChrome, Outside] using hopen
    have hsame : SameOutside cv root (overwrite cv (longWord (toMarkdown cv root)) false root) :=
      overwrite_overwrite cv [] _ false root
    have hmarkdown := h _ hsame
    have hshows := shows_toMarkdown cv cv.isBoilerplate
      (overwrite cv (longWord (toMarkdown cv root)) false root)
    rw [hmarkdown, reached_overwrite] at hshows
    have hword : splitWhite (longWord (toMarkdown cv root)) = [longWord (toMarkdown cv root)] :=
      splitWhite_of_word (List.cons_ne_nil _ _) fun c hc => by
        rw [List.eq_of_mem_replicate hc]
        rfl
    have hmem : longWord (toMarkdown cv root) ∈ wordsOf
        ((reached cv cv.isBoilerplate false .blocks root).map
          (Reached.overwritten (longWord (toMarkdown cv root)))) := by
      refine List.mem_flatMap.mpr ⟨_, List.mem_map_of_mem hreached, ?_⟩
      rw [Reached.overwritten, if_pos hinside, hword]
      exact List.mem_singleton_self _
    have hle := length_le_of_shows hshows hmem
    rw [longWord, List.length_replicate] at hle
    omega
  · intro h other hsame
    have hother : ClosedChrome cv other := by
      have hclosed := (outside_map_overwritten [] _).mpr h
      rw [← reached_overwrite, ← hsame, reached_overwrite] at hclosed
      exact (outside_map_overwritten [] _).mp hclosed
    rw [← toMarkdown_overwrite cv [] hother, hsame, toMarkdown_overwrite cv [] h]

/-- A navigation bar in the cell of a table. -/
def cellOfLinks : List Dom :=
  [.element "table" [] [.element "tbody" [] [.element "tr" [] [.element "td" [] [
    .element "nav" [] [.text "Home".toList]]]]]]

/-- The bar shows in the table. -/
theorem not_stripsChrome : ¬ StripsChrome bodyConverter cellOfLinks := by
  intro h
  have hsame := h _ (overwrite_overwrite bodyConverter [] "Cart".toList false cellOfLinks)
  exact absurd hsame (by decide)

end Basecrawl.Core.Markdown
