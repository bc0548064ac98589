/-
  What the conversion keeps of a page's content.

  The content of a page is its text outside of what is skipped and of site chrome (`content`).  A
  page of the same outline has the same elements and blank texts, and any other text.  For all
  pages of an outline the Markdown has the words of the content in document order exactly when the
  outline is whole (`keepsContent_iff`): nothing stands where no traversal takes it (beside the
  items of a list, in a table outside its cells, inside an empty element), and no list item goes
  on behind a nested list.

  1. **Whole** — the condition, and what it says about the texts that are reached.
  2. **Sufficient** — in a whole page the texts that are reached are the content.
  3. **Letters** — without attributes, the Markdown has the letters of the texts that are reached,
     in their order, and no others.
  4. **Necessary** — a page that is not whole can be filled so that its content has letters that
     are missing from what is reached, or come in another order.
-/
import Basecrawl.Core.MarkdownWords

namespace Basecrawl.Core.Markdown

open Text Chars

/-! ## Content -/

/-- What is left out on purpose. -/
def Converter.hides (cv : Converter) (name : String) : Bool :=
  isSkipped name || cv.isBoilerplate name

mutual

/-- The texts of a node outside of what is skipped and of site chrome. -/
def contentNode (cv : Converter) : Dom → List Chars
  | .text text => [text]
  | .element name _ children => if cv.hides name then [] else content cv children
  | .other => []

/-- The content of a page, in document order. -/
def content (cv : Converter) : List Dom → List Chars
  | [] => []
  | child :: children => contentNode cv child ++ content cv children

end

/-- The words of some texts. -/
def wordsIn (texts : List Chars) : List Chars := texts.flatMap splitWhite

/-- The Markdown has the words of the content, in document order. -/
def KeepsContent (cv : Converter) (root : List Dom) : Prop :=
  Shows (wordsIn (content cv root)) (toMarkdown cv root)

/-- A text with nothing but white space. -/
def isBlankText (text : Chars) : Bool := text.all isWhitespace

mutual

/-- The node with a word in the place of each text that has any, and without attributes. -/
def fillNode (word : Chars) : Dom → Dom
  | .text text => .text (if isBlankText text then [' '] else word)
  | .element name _ children => .element name [] (fill word children)
  | .other => .other

/-- The nodes with a word in the place of each text that has any, and without attributes. -/
def fill (word : Chars) : List Dom → List Dom
  | [] => []
  | child :: children => fillNode word child :: fill word children

end

/-- Two pages with the same elements and the same blank texts. -/
def SameOutline (root other : List Dom) : Prop := fill ['0'] other = fill ['0'] root

/-! ## Whole -/

mutual

/-- There is no content in the node. -/
def silentNode (cv : Converter) : Dom → Bool
  | .text text => isBlankText text
  | .element name _ children => cv.hides name || silent cv children
  | .other => true

/-- There is no content in the nodes. -/
def silent (cv : Converter) : List Dom → Bool
  | [] => true
  | child :: children => silentNode cv child && silent cv children

end

/-- A list in a list item. -/
def isNestedList : Dom → Bool
  | .element name _ _ => isList name
  | _ => false

/-- No content of a list item comes behind a nested list with content; the flag says that there was
    one. -/
def orderly (cv : Converter) : Bool → List Dom → Bool
  | _, [] => true
  | late, child :: children =>
      if isNestedList child then orderly cv (late || !silentNode cv child) children
      else (!late || silentNode cv child) && orderly cv late children

/-- The traversal that takes a child of a list item. -/
def itemPlace (child : Dom) : Place := if isNestedList child then .itemLists else .itemText

mutual

/-- The traversal takes all the content of the node. -/
def wholeNode (cv : Converter) (place : Place) : Dom → Bool
  | .text text => place.readsText || isBlankText text
  | .element name _ children =>
      cv.hides name ||
        match place.enter cv name with
        | [] => silent cv children
        | [next] => whole cv next children
        | _ => wholeItem cv children && orderly cv false children
  | .other => true

/-- The traversal takes all the content of the nodes. -/
def whole (cv : Converter) (place : Place) : List Dom → Bool
  | [] => true
  | child :: children => wholeNode cv place child && whole cv place children

/-- All the content of a list item is taken. -/
def wholeItem (cv : Converter) : List Dom → Bool
  | [] => true
  | child :: children => wholeNode cv (itemPlace child) child && wholeItem cv children

end

/-- All the content of a page is taken, and in document order. -/
def Whole (cv : Converter) (root : List Dom) : Prop := whole cv .blocks root = true

/-! ## Sufficient -/

@[simp] theorem wordsIn_nil : wordsIn [] = [] := rfl

@[simp] theorem wordsIn_append (ss ts : List Chars) :
    wordsIn (ss ++ ts) = wordsIn ss ++ wordsIn ts := List.flatMap_append

theorem splitWhite_blank {text : Chars} (h : isBlankText text = true) : splitWhite text = [] := by
  refine List.eq_nil_iff_forall_not_mem.mpr fun word hword => ?_
  obtain ⟨hne, hsolid⟩ := words_splitWhite text word hword
  obtain ⟨c, rest, rfl⟩ := List.exists_cons_of_ne_nil hne
  have hc : c ∈ text := (inOrder_splitWhite text).flatten_sublist.subset
    (List.mem_flatten.mpr ⟨_, hword, List.mem_cons_self⟩)
  have hwhite := List.all_eq_true.mp h c hc
  rw [hsolid c List.mem_cons_self] at hwhite
  cases hwhite

/-- The texts that are not inside. -/
def outer (texts : List Reached) : List Reached := texts.filter fun text => !text.inside

@[simp] theorem outer_append (ss ts : List Reached) : outer (ss ++ ts) = outer ss ++ outer ts :=
  List.filter_append _ _

section

variable (cv : Converter)

mutual

theorem outer_reachedNode_inside (kind : String → Bool) (place : Place) (node : Dom) :
    outer (reachedNode cv kind true place node) = [] := by
  cases node with
  | text text =>
    rw [reachedNode]
    split
    · rfl
    · rfl
  | other => rfl
  | element name attributes children =>
    rw [reachedNode]
    induction place.enter cv name with
    | nil => rfl
    | cons next places ih =>
      rw [List.flatMap_cons, outer_append, ih, List.append_nil]
      exact outer_reached_inside kind next children

/-- Under an element of the kind everything is inside. -/
theorem outer_reached_inside (kind : String → Bool) (place : Place) (children : List Dom) :
    outer (reached cv kind true place children) = [] := by
  cases children with
  | nil => rfl
  | cons child children =>
    rw [reached, outer_append, outer_reachedNode_inside, outer_reached_inside]
    rfl

end

mutual

theorem wordsIn_silentNode {node : Dom} (h : silentNode cv node = true) :
    wordsIn (contentNode cv node) = [] := by
  cases node with
  | text text => exact (List.append_nil _).trans (splitWhite_blank h)
  | other => rfl
  | element name attributes children =>
    rw [silentNode] at h
    rw [contentNode]
    split
    · rfl
    · rename_i hshown
      rw [Bool.not_eq_true] at hshown
      rw [hshown, Bool.false_or] at h
      exact wordsIn_silent h

/-- Without content there are no words. -/
theorem wordsIn_silent {children : List Dom} (h : silent cv children = true) :
    wordsIn (content cv children) = [] := by
  cases children with
  | nil => rfl
  | cons child children =>
    obtain ⟨hchild, hrest⟩ := Bool.and_eq_true_iff.mp h
    rw [content, wordsIn_append, wordsIn_silentNode hchild, wordsIn_silent hrest]
    rfl

end

/-- The words that a traversal takes of the content. -/
def takenNode (place : Place) (node : Dom) : List Chars :=
  wordsOf (outer (reachedNode cv cv.hides false place node))

/-- The words that a traversal takes of the content. -/
def taken (place : Place) (children : List Dom) : List Chars :=
  wordsOf (outer (reached cv cv.hides false place children))

theorem taken_cons (place : Place) (child : Dom) (children : List Dom) :
    taken cv place (child :: children) = takenNode cv place child ++ taken cv place children := by
  rw [taken, reached, outer_append, wordsOf_append]
  rfl

/-- What is hidden gives no words. -/
theorem takenNode_hidden {name : String} (h : cv.hides name = true) (place : Place)
    (attributes : List (String × String)) (children : List Dom) :
    takenNode cv place (.element name attributes children) = [] := by
  rw [takenNode, reachedNode, h, Bool.or_true]
  induction place.enter cv name with
  | nil => rfl
  | cons next places ih =>
    rw [List.flatMap_cons, outer_append, outer_reached_inside]
    exact ih

theorem takenNode_of_enter {name : String} {place next : Place} (h : cv.hides name = false)
    (henter : place.enter cv name = [next]) (attributes : List (String × String))
    (children : List Dom) :
    takenNode cv place (.element name attributes children) = taken cv next children := by
  rw [takenNode, reachedNode_of_enter cv cv.hides henter, h]
  rfl

/-- The two traversals of a list item meet different children. -/
theorem reachedNode_itemText {child : Dom} (h : isNestedList child = true)
    (kind : String → Bool) (inside : Bool) : reachedNode cv kind inside .itemText child = [] := by
  cases child with
  | text _ => cases h
  | other => cases h
  | element name attributes children =>
    have hlist : isList name = true := h
    have hclosed : Place.itemText.enter cv name = [] := if_pos (by rw [hlist]; rfl)
    exact reachedNode_of_closed cv kind hclosed inside attributes children

theorem reachedNode_itemLists {child : Dom} (h : isNestedList child = false)
    (kind : String → Bool) (inside : Bool) : reachedNode cv kind inside .itemLists child = [] := by
  cases child with
  | text _ => rfl
  | other => rfl
  | element name attributes children =>
    have hlist : isList name = false := h
    have hclosed : Place.itemLists.enter cv name = [] :=
      if_neg (by rw [hlist]; exact Bool.false_ne_true)
    exact reachedNode_of_closed cv kind hclosed inside attributes children

theorem takenNode_itemText {child : Dom} (h : isNestedList child = true) :
    takenNode cv .itemText child = [] := by
  rw [takenNode, reachedNode_itemText cv h]
  rfl

theorem takenNode_itemLists {child : Dom} (h : isNestedList child = false) :
    takenNode cv .itemLists child = [] := by
  rw [takenNode, reachedNode_itemLists cv h]
  rfl

/-- No traversal, one, or the two of a list item. -/
def Opens (places : List Place) : Prop :=
  places = [] ∨ (∃ next, places = [next]) ∨ places = [.itemText, .itemLists]

theorem opens_nil : Opens [] := .inl rfl

theorem opens_one (next : Place) : Opens [next] := .inr (.inl ⟨next, rfl⟩)

theorem opens_ite {p : Prop} [Decidable p] {xs ys : List Place} (hx : Opens xs) (hy : Opens ys) :
    Opens (if p then xs else ys) := by
  split
  · exact hx
  · exact hy

theorem enter_cases (place : Place) (name : String) : Opens (place.enter cv name) := by
  have hinline : Opens (inlinePlaces name) := by
    refine opens_ite opens_nil ?_
    cases inlineKind name with
    | image | lineBreak | wordBreak => exact opens_nil
    | code => exact opens_one .raw
    | link | emphasis _ | other => exact opens_one .inline
  have hblock : Opens (blockKind name).places := by
    cases blockKind name with
    | heading _ | paragraph => exact opens_one .inline
    | list _ => exact opens_one .items
    | table => exact opens_one .rows
    | pre => exact opens_one .raw
    | blockquote | container => exact opens_one .blocks
    | rule => exact opens_nil
  cases place with
  | blocks => exact opens_ite opens_nil (opens_ite hblock hinline)
  | inline => exact hinline
  | raw => exact opens_ite opens_nil (opens_one .raw)
  | items => exact opens_ite (.inr (.inr rfl)) opens_nil
  | itemText => exact opens_ite opens_nil hinline
  | itemLists => exact opens_ite (opens_one .items) opens_nil
  | rows => exact opens_ite (opens_one .row) (opens_one .rows)
  | row => exact opens_ite (opens_one .inline) opens_nil

mutual

/-- A whole node gives all its words to the traversal. -/
theorem wordsIn_wholeNode {place : Place} {node : Dom} (h : wholeNode cv place node = true) :
    wordsIn (contentNode cv node) = takenNode cv place node := by
  cases node with
  | other => rfl
  | text text =>
    rw [wholeNode] at h
    rw [takenNode, reachedNode]
    cases hreads : place.readsText with
    | true => rfl
    | false =>
      rw [hreads, Bool.false_or] at h
      exact (List.append_nil _).trans (splitWhite_blank h)
  | element name attributes children =>
    rw [wholeNode] at h
    rw [contentNode]
    cases hhides : cv.hides name with
    | true => rw [if_pos rfl, takenNode_hidden cv hhides]; rfl
    | false =>
      rw [hhides, Bool.false_or] at h
      rw [if_neg Bool.false_ne_true]
      rcases enter_cases cv place name with henter | ⟨next, henter⟩ | henter
      · rw [henter] at h
        rw [takenNode, reachedNode_of_closed cv cv.hides henter]
        exact wordsIn_silent cv h
      · rw [henter] at h
        rw [takenNode_of_enter cv hhides henter]
        exact wordsIn_whole h
      · rw [henter] at h
        obtain ⟨hwhole, horder⟩ := Bool.and_eq_true_iff.mp h
        rw [takenNode, reachedNode, henter, hhides, List.flatMap_cons, List.flatMap_singleton,
          outer_append, wordsOf_append]
        exact (wordsIn_wholeItem hwhole horder).1

theorem wordsIn_whole {place : Place} {children : List Dom} (h : whole cv place children = true) :
    wordsIn (content cv children) = taken cv place children := by
  cases children with
  | nil => rfl
  | cons child children =>
    obtain ⟨hchild, hrest⟩ := Bool.and_eq_true_iff.mp h
    rw [content, wordsIn_append, taken_cons, wordsIn_wholeNode hchild, wordsIn_whole hrest]

/-- The text of an orderly list item comes before its nested lists. -/
theorem wordsIn_wholeItem {late : Bool} {children : List Dom} (h : wholeItem cv children = true)
    (horder : orderly cv late children = true) :
    wordsIn (content cv children) = taken cv .itemText children ++ taken cv .itemLists children ∧
      (late = true → taken cv .itemText children = []) := by
  cases children with
  | nil => exact ⟨rfl, fun _ => rfl⟩
  | cons child children =>
    obtain ⟨hchild, hrest⟩ := Bool.and_eq_true_iff.mp h
    have hwords := wordsIn_wholeNode hchild
    rw [content, wordsIn_append, taken_cons, taken_cons, hwords]
    rw [orderly] at horder
    cases hlist : isNestedList child with
    | true =>
      rw [hlist, if_pos rfl] at horder
      obtain ⟨hmore, hlate⟩ := wordsIn_wholeItem hrest horder
      rw [itemPlace, if_pos hlist] at hwords ⊢
      rw [takenNode_itemText cv hlist, List.nil_append, hmore]
      constructor
      · cases hsilent : silentNode cv child with
        | true =>
          rw [← hwords, wordsIn_silentNode cv hsilent]
          rfl
        | false =>
          rw [hlate (by rw [hsilent, Bool.not_false, Bool.or_true])]
          rfl
      · intro hl
        exact hlate (by rw [hl, Bool.true_or])
    | false =>
      rw [hlist, if_neg Bool.false_ne_true] at horder
      obtain ⟨hquiet, horder⟩ := Bool.and_eq_true_iff.mp horder
      obtain ⟨hmore, hlate⟩ := wordsIn_wholeItem hrest horder
      rw [itemPlace, if_neg (by rw [hlist]; exact Bool.false_ne_true)] at hwords ⊢
      rw [takenNode_itemLists cv hlist, List.nil_append, hmore, List.append_assoc]
      refine ⟨rfl, fun hl => ?_⟩
      rw [hl, Bool.not_true, Bool.false_or] at hquiet
      rw [← hwords, wordsIn_silentNode cv hquiet, hlate hl]
      rfl

end

end

/-- In a whole page the words that are shown are those of the content. -/
theorem keepsContent_of_whole {cv : Converter} {root : List Dom} (h : Whole cv root) :
    KeepsContent cv root := by
  rw [KeepsContent, wordsIn_whole cv h]
  refine (shows_toMarkdown cv cv.hides root).sublist ?_
  exact List.filter_sublist.flatMap _

/-! ## Outlines -/

section

variable (cv : Converter) (word : Chars)

theorem isBlankText_fill {text : Chars} (hword : isBlankText word = false) :
    isBlankText (if isBlankText text then [' '] else word) = isBlankText text := by
  cases htext : isBlankText text with
  | true => rfl
  | false => rw [if_neg Bool.false_ne_true, hword]

mutual

theorem fillNode_fillNode (old : Chars) (hold : isBlankText old = false) (node : Dom) :
    fillNode word (fillNode old node) = fillNode word node := by
  cases node with
  | text text => rw [fillNode, fillNode, fillNode, isBlankText_fill old hold]
  | other => rfl
  | element name attributes children =>
    rw [fillNode, fillNode, fillNode, fill_fill old hold children]

/-- What is filled can be filled again. -/
theorem fill_fill (old : Chars) (hold : isBlankText old = false) (children : List Dom) :
    fill word (fill old children) = fill word children := by
  cases children with
  | nil => rfl
  | cons child children =>
    rw [fill, fill, fill, fillNode_fillNode old hold child, fill_fill old hold children]

end

theorem isNestedList_fillNode (node : Dom) :
    isNestedList (fillNode word node) = isNestedList node := by
  cases node with
  | text _ => rfl
  | other => rfl
  | element name attributes children => rfl

mutual

theorem silentNode_fillNode (hword : isBlankText word = false) (node : Dom) :
    silentNode cv (fillNode word node) = silentNode cv node := by
  cases node with
  | text text => exact isBlankText_fill word hword
  | other => rfl
  | element name attributes children =>
    rw [fillNode, silentNode, silentNode, silent_fill hword children]

theorem silent_fill (hword : isBlankText word = false) (children : List Dom) :
    silent cv (fill word children) = silent cv children := by
  cases children with
  | nil => rfl
  | cons child children =>
    rw [fill, silent, silent, silentNode_fillNode hword child, silent_fill hword children]

end

theorem orderly_fill (hword : isBlankText word = false) (late : Bool) (children : List Dom) :
    orderly cv late (fill word children) = orderly cv late children := by
  induction children generalizing late with
  | nil => rfl
  | cons child children ih =>
    rw [fill, orderly, orderly, isNestedList_fillNode, silentNode_fillNode cv word hword, ih, ih]

mutual

theorem wholeNode_fillNode (hword : isBlankText word = false) (place : Place) (node : Dom) :
    wholeNode cv place (fillNode word node) = wholeNode cv place node := by
  cases node with
  | text text => rw [fillNode, wholeNode, wholeNode, isBlankText_fill word hword]
  | other => rfl
  | element name attributes children =>
    rw [fillNode, wholeNode, wholeNode]
    rcases enter_cases cv place name with henter | ⟨next, henter⟩ | henter
    · rw [henter]
      dsimp only
      rw [silent_fill cv word hword]
    · rw [henter]
      dsimp only
      rw [whole_fill hword next children]
    · rw [henter]
      dsimp only
      rw [wholeItem_fill hword children, orderly_fill cv word hword]

theorem whole_fill (hword : isBlankText word = false) (place : Place) (children : List Dom) :
    whole cv place (fill word children) = whole cv place children := by
  cases children with
  | nil => rfl
  | cons child children =>
    rw [fill, whole, whole, wholeNode_fillNode hword place child,
      whole_fill hword place children]

/-- Whether a page is whole is seen from its outline. -/
theorem wholeItem_fill (hword : isBlankText word = false) (children : List Dom) :
    wholeItem cv (fill word children) = wholeItem cv children := by
  cases children with
  | nil => rfl
  | cons child children =>
    rw [fill, wholeItem, wholeItem, itemPlace, itemPlace, isNestedList_fillNode,
      wholeNode_fillNode hword _ child, wholeItem_fill hword children]

end

end

theorem Whole.of_sameOutline {cv : Converter} {root other : List Dom} (h : Whole cv root)
    (hsame : SameOutline root other) : Whole cv other := by
  rw [Whole, ← whole_fill cv ['0'] rfl, hsame, whole_fill cv ['0'] rfl]
  exact h

/-! ## Letters -/

mutual

/-- No element of the node has attributes. -/
def BareNode : Dom → Prop
  | .text _ | .other => True
  | .element _ attributes children => attributes = [] ∧ Bare children

/-- No element has attributes. -/
def Bare : List Dom → Prop
  | [] => True
  | child :: children => BareNode child ∧ Bare children

end

/-- The letters of the texts. -/
def lettersOf (texts : List Reached) : Chars := letters (texts.flatMap Reached.text)

@[simp] theorem lettersOf_nil : lettersOf [] = [] := rfl

@[simp] theorem lettersOf_append (ss ts : List Reached) :
    lettersOf (ss ++ ts) = lettersOf ss ++ lettersOf ts := by
  rw [lettersOf, List.flatMap_append, letters_append]
  rfl

theorem lettersOf_text (text : Chars) (inside : Bool) : lettersOf [⟨text, inside⟩] = letters text :=
  congrArg letters (List.append_nil text)

section

variable (cv : Converter) (kind : String → Bool)

mutual

theorem letters_rawNode (inside : Bool) (node : Dom) :
    letters (rawNode node) = lettersOf (reachedNode cv kind inside .raw node) := by
  cases node with
  | text text => exact (lettersOf_text text inside).symm
  | other => rfl
  | element name attributes children =>
    rw [rawNode]
    split
    · rename_i hskip
      have hclosed : Place.raw.enter cv name = [] := if_pos hskip
      rw [reachedNode_of_closed cv kind hclosed]
      rfl
    · rename_i hskip
      have hopen : Place.raw.enter cv name = [.raw] := if_neg hskip
      rw [reachedNode_of_enter cv kind hopen]
      exact letters_collectRawText _ children

theorem letters_collectRawText (inside : Bool) (children : List Dom) :
    letters (collectRawText children) = lettersOf (reached cv kind inside .raw children) := by
  cases children with
  | nil => rfl
  | cons child children =>
    rw [reached, collectRawText, lettersOf_append, letters_append, letters_rawNode inside child,
      letters_collectRawText inside children]

end

mutual

theorem letters_inlineNode (inside : Bool) {node : Dom} (h : BareNode node) :
    letters (inlineNode cv node) = lettersOf (reachedNode cv kind inside .inline node) := by
  cases node with
  | text text =>
    have htext : letters (collapseWs text) = letters text := (respaced_collapseFrom false text).letters
    exact htext.trans (lettersOf_text text inside).symm
  | other => rfl
  | element name attributes children =>
    obtain ⟨hattributes, hchildren⟩ := h
    have hinline := letters_inlineChildren (inside || kind name) hchildren
    have hraw := letters_collectRawText cv kind (inside || kind name) children
    rw [inlineNode, hattributes]
    split
    · rename_i hskip
      have hclosed : Place.inline.enter cv name = [] := if_pos hskip
      rw [reachedNode_of_closed cv kind hclosed]
      rfl
    · rename_i hskip
      have hplaces : Place.inline.enter cv name = (inlineKind name).places := if_neg hskip
      cases hkind : inlineKind name with
      | link =>
        rw [hkind] at hplaces
        rw [reachedNode_of_enter cv kind hplaces]
        exact hinline
      | image =>
        rw [hkind] at hplaces
        rw [reachedNode_of_closed cv kind hplaces]
        rfl
      | lineBreak =>
        rw [hkind] at hplaces
        rw [reachedNode_of_closed cv kind hplaces]
        rfl
      | wordBreak =>
        rw [hkind] at hplaces
        rw [reachedNode_of_closed cv kind hplaces]
        rfl
      | emphasis marker =>
        rw [hkind] at hplaces
        rw [reachedNode_of_enter cv kind hplaces, ← hinline]
        exact (keeps_wrapEmphasis _ (letters_marker hkind)).letters
      | code =>
        rw [hkind] at hplaces
        rw [reachedNode_of_enter cv kind hplaces, ← hraw]
        exact (keeps_inlineCode _).letters
      | other =>
        rw [hkind] at hplaces
        rw [reachedNode_of_enter cv kind hplaces]
        exact hinline

theorem letters_inlineChildren (inside : Bool) {children : List Dom} (h : Bare children) :
    letters (inlineChildren cv children) = lettersOf (reached cv kind inside .inline children) := by
  cases children with
  | nil => rfl
  | cons child children =>
    rw [reached, inlineChildren, lettersOf_append, letters_append, letters_inlineNode inside h.1,
      letters_inlineChildren inside h.2]

end

theorem letters_itemInline (inside : Bool) {children : List Dom} (h : Bare children) :
    letters (itemInline cv children) = lettersOf (reached cv kind inside .itemText children) := by
  induction children with
  | nil => rfl
  | cons child children ih =>
    have hinline := letters_inlineNode cv kind inside h.1
    rw [reached, lettersOf_append, ← ih h.2]
    cases child with
    | text text =>
      show letters (inlineNode cv (.text text) ++ itemInline cv children) = _
      rw [letters_append, hinline]
      rfl
    | other => rfl
    | element name attributes grandchildren =>
      rw [itemInline]
      split
      · rename_i hdrop
        have hclosed : Place.itemText.enter cv name = [] := if_pos hdrop
        rw [reachedNode_of_closed cv kind hclosed]
        rfl
      · rename_i hkeep
        have hsame : Place.itemText.enter cv name = Place.inline.enter cv name := if_neg hkeep
        rw [reachedNode_congr cv kind hsame, ← hinline, letters_append]

theorem letters_rowCells (inside : Bool) {children : List Dom} (h : Bare children) :
    letters (Framing.terminated '\n' ((rowCells cv children).map Prod.snd)) =
      lettersOf (reached cv kind inside .row children) := by
  induction children with
  | nil => rfl
  | cons child children ih =>
    rw [reached, lettersOf_append, ← ih h.2]
    cases child with
    | text text => rfl
    | other => rfl
    | element name attributes grandchildren =>
      rw [rowCells]
      split
      · rename_i hcell
        have hopen : Place.row.enter cv name = [.inline] := if_pos hcell
        rw [reachedNode_of_enter cv kind hopen, List.map_cons, Framing.terminated_cons,
          letters_append, letters_cellText, letters_inlineChildren cv kind _ h.1.2, letters_cons]
        rfl
      · rename_i hother
        have hclosed : Place.row.enter cv name = [] := if_neg hother
        rw [reachedNode_of_closed cv kind hclosed]
        rfl

theorem letters_tableRow (inside inThead : Bool) {children : List Dom} (h : Bare children) :
    letters (rowsText (tableRow cv inThead children)) =
      lettersOf (reached cv kind inside .row children) := by
  have hcells := letters_rowCells cv kind inside h
  unfold tableRow
  dsimp only
  split
  · rename_i hnil
    rw [hnil] at hcells
    exact hcells
  · show letters (Framing.terminated '\n' [Framing.terminated '\n' _]) = _
    rw [terminated_singleton, letters_append, hcells]
    exact List.append_nil _

mutual

theorem letters_rowsOf (inside inThead : Bool) {node : Dom} (h : BareNode node) :
    letters (rowsText (rowsOf cv inThead node)) =
      lettersOf (reachedNode cv kind inside .rows node) := by
  cases node with
  | text text => rfl
  | other => rfl
  | element name attributes children =>
    have hrows := fun next => letters_collectRows (inside || kind name) next h.2
    unfold rowsOf
    split
    · rw [reachedNode_rows cv kind (by decide)]
      exact hrows true
    · rw [reachedNode_rows cv kind (by decide)]
      exact hrows false
    · rw [reachedNode_rows cv kind (by decide)]
      exact hrows false
    · have hopen : ∀ name, name = "tr" → Place.rows.enter cv name = [.row] :=
        fun _ hname => if_pos hname
      rw [reachedNode_of_enter cv kind (hopen _ rfl)]
      exact letters_tableRow cv kind _ inThead h.2
    · rename_i hrow
      rw [reachedNode_rows cv kind hrow]
      exact hrows inThead

theorem letters_collectRows (inside inThead : Bool) {children : List Dom} (h : Bare children) :
    letters (rowsText (collectRows cv inThead children)) =
      lettersOf (reached cv kind inside .rows children) := by
  cases children with
  | nil => rfl
  | cons child children =>
    rw [reached, collectRows, lettersOf_append, rowsText_append, letters_append,
      letters_rowsOf inside inThead h.1, letters_collectRows inside inThead h.2]

end

mutual

theorem letters_renderItems (inside ordered : Bool) (depth index : Nat) {items : List Dom}
    (h : Bare items) : letters (Framing.terminated '\n' (renderItems cv ordered depth index items)) =
      lettersOf (reached cv kind inside .items items) := by
  cases items with
  | nil => rfl
  | cons item items =>
    rw [reached, lettersOf_append, renderItems]
    split
    · rename_i hitem
      rw [terminated_append, letters_append, letters_renderItem inside ordered depth index hitem h.1,
        letters_renderItems inside ordered depth (index + 1) h.2]
    · rename_i hother
      rw [reachedNode_items cv kind hother, letters_renderItems inside ordered depth index h.2]
      rfl

theorem letters_renderItem (inside ordered : Bool) (depth index : Nat) {item : Dom}
    (hitem : isItem item = true) (h : BareNode item) :
    letters (Framing.terminated '\n' (renderItem cv ordered depth index item)) =
      lettersOf (reachedNode cv kind inside .items item) := by
  cases item with
  | text _ => cases hitem
  | other => cases hitem
  | element name attributes children =>
    have hopen : Place.items.enter cv name = [.itemText, .itemLists] := if_pos hitem
    rw [reachedNode, hopen, List.flatMap_cons, List.flatMap_singleton, lettersOf_append, renderItem,
      Framing.terminated_cons, letters_append, (keeps_itemLine cv ordered depth index children).letters,
      letters_itemInline cv kind _ h.2, letters_cons, letters_nestedLists _ (depth + 1) h.2]
    rfl

theorem letters_nestedLists (inside : Bool) (depth : Nat) {children : List Dom} (h : Bare children) :
    letters (Framing.terminated '\n' (nestedLists cv depth children)) =
      lettersOf (reached cv kind inside .itemLists children) := by
  cases children with
  | nil => rfl
  | cons child children =>
    rw [reached, lettersOf_append, nestedLists, terminated_append, letters_append,
      letters_nestedList inside depth h.1, letters_nestedLists inside depth h.2]

theorem letters_nestedList (inside : Bool) (depth : Nat) {node : Dom} (h : BareNode node) :
    letters (Framing.terminated '\n' (nestedList cv depth node)) =
      lettersOf (reachedNode cv kind inside .itemLists node) := by
  cases node with
  | text _ => rfl
  | other => rfl
  | element name attributes children =>
    rw [nestedList]
    split
    · rename_i hlist
      have hopen : Place.itemLists.enter cv name = [.items] := if_pos hlist
      rw [reachedNode_of_enter cv kind hopen]
      exact letters_renderItems _ _ depth 1 h.2
    · rename_i hother
      have hclosed : Place.itemLists.enter cv name = [] := if_neg hother
      rw [reachedNode_of_closed cv kind hclosed]
      rfl

end

/-- Without a class there is no language hint. -/
theorem codeLanguage_bare {children : List Dom} (h : Bare children) :
    codeLanguage children = none := by
  induction children with
  | nil => rfl
  | cons child children ih =>
    cases child with
    | text _ => exact ih h.2
    | other => exact ih h.2
    | element name attributes grandchildren =>
      rw [codeLanguage, ih h.2, h.1.1]
      split
      · rfl
      · rfl

theorem letters_renderPre (inside : Bool) {children : List Dom} (h : Bare children) :
    letters (renderPre children) = lettersOf (reached cv kind inside .raw children) := by
  have hfence : letters (codeFence (collectRawText children)) = [] := letters_replicate rfl _
  have hlang : letters (Option.getD (none : Option Chars) []) = [] := rfl
  have hfeed : letters ['\n'] = [] := rfl
  have hclosing : letters (if (collectRawText children).getLast? = some '\n' then []
      else ['\n']) = [] := by
    split
    · rfl
    · rfl
  unfold renderPre
  dsimp only
  rw [codeLanguage_bare h]
  simp only [letters_append, hfence, hlang, hfeed, hclosing, List.nil_append, List.append_nil]
  exact letters_collectRawText cv kind inside children

mutual

theorem letters_renderBlocks (inside : Bool) (inline : Chars) {children : List Dom}
    (h : Bare children) : letters (Framing.terminated '\n' (renderBlocks cv inline children)) =
      letters inline ++ lettersOf (reached cv kind inside .blocks children) := by
  cases children with
  | nil =>
    rw [reached, renderBlocks, (keeps_flushInline inline).letters, lettersOf_nil, List.append_nil]
  | cons child children =>
    rw [reached, lettersOf_append, renderBlocks]
    split
    · rename_i hkind
      rw [childKind_dropped cv kind hkind]
      exact letters_renderBlocks inside inline h.2
    · rename_i hkind
      rw [childKind_inline cv kind hkind, letters_renderBlocks inside _ h.2, letters_append,
        letters_inlineNode cv kind inside h.1, List.append_assoc]
    · rename_i hkind
      rw [terminated_append, terminated_append, letters_append, letters_append,
        (keeps_flushInline inline).letters, letters_renderBlockElement inside hkind h.1,
        letters_renderBlocks inside [] h.2, List.append_assoc]
      rfl

theorem letters_renderBlockElement (inside : Bool) {node : Dom}
    (hblock : childKind cv node = .block) (h : BareNode node) :
    letters (Framing.terminated '\n' (renderBlockElement cv node)) =
      lettersOf (reachedNode cv kind inside .blocks node) := by
  cases node with
  | text _ => cases hblock
  | other => cases hblock
  | element name attributes children =>
    have hplaces := childKind_block cv hblock
    have hinline := letters_inlineChildren cv kind (inside || kind name) h.2
    rw [renderBlockElement]
    cases hkind : blockKind name with
    | heading level =>
      rw [hkind] at hplaces
      rw [reachedNode_of_enter cv kind hplaces, ← hinline]
      exact (keeps_headingBlock level _).letters
    | list ordered =>
      rw [hkind] at hplaces
      rw [reachedNode_of_enter cv kind hplaces, ← letters_renderItems cv kind _ ordered 0 1 h.2]
      exact (keeps_listBlock _).letters
    | table =>
      rw [hkind] at hplaces
      rw [reachedNode_of_enter cv kind hplaces, ← letters_collectRows cv kind _ false h.2]
      exact (keeps_renderTable cv children).letters
    | pre =>
      rw [hkind] at hplaces
      rw [reachedNode_of_enter cv kind hplaces, ← letters_renderPre cv kind _ h.2]
      show letters (Framing.terminated '\n' [renderPre children]) = _
      rw [terminated_singleton, letters_append]
      exact List.append_nil _
    | blockquote =>
      rw [hkind] at hplaces
      rw [reachedNode_of_enter cv kind hplaces]
      exact (keeps_quoteBlock _).letters.trans (letters_renderBlocks (inside || kind name) [] h.2)
    | rule =>
      rw [hkind] at hplaces
      rw [reachedNode_of_closed cv kind hplaces]
      rfl
    | paragraph =>
      rw [hkind] at hplaces
      rw [reachedNode_of_enter cv kind hplaces, ← hinline]
      exact (keeps_flushInline _).letters
    | container =>
      rw [hkind] at hplaces
      rw [reachedNode_of_enter cv kind hplaces]
      exact letters_renderBlocks (inside || kind name) [] h.2

end

/-- Without attributes the Markdown has the letters of the texts that are reached. -/
theorem letters_toMarkdown {root : List Dom} (h : Bare root) :
    letters (toMarkdown cv root) = lettersOf (reached cv kind false .blocks root) :=
  (keeps_joinBlocks _).letters.trans (letters_renderBlocks cv kind false [] h)

end

/-! ## Necessary -/

/-- A text has no letter but one. -/
def Only (c : Char) (text : Chars) : Prop := ∀ d ∈ letters text, d = c

theorem only_nil (c : Char) : Only c [] := fun _ h => (List.not_mem_nil h).elim

theorem Only.append {c : Char} {s t : Chars} (hs : Only c s) (ht : Only c t) : Only c (s ++ t) := by
  intro d hd
  rw [letters_append] at hd
  rcases List.mem_append.mp hd with hd | hd
  · exact hs d hd
  · exact ht d hd

/-- A digit in the place of the letter: there are none. -/
theorem Only.none {c : Char} (hc : isLetter c = false) {text : Chars} (h : Only c text) :
    letters text = [] := by
  refine List.eq_nil_iff_forall_not_mem.mpr fun d hd => ?_
  have hletter := (List.mem_filter.mp hd).2
  rw [h d hd, hc] at hletter
  cases hletter

section

variable (cv : Converter) (c : Char)

theorem only_fillText (text : Chars) : Only c (if isBlankText text then [' '] else [c]) := by
  intro d hd
  split at hd
  · cases hd
  · exact List.mem_singleton.mp (List.mem_filter.mp hd).1

mutual

theorem bareNode_fillNode (word : Chars) (node : Dom) : BareNode (fillNode word node) := by
  cases node with
  | text _ => trivial
  | other => trivial
  | element name attributes children => exact ⟨rfl, bare_fill word children⟩

theorem bare_fill (word : Chars) (children : List Dom) : Bare (fill word children) := by
  cases children with
  | nil => trivial
  | cons child children => exact ⟨bareNode_fillNode word child, bare_fill word children⟩

end

mutual

theorem only_contentNode (node : Dom) : Only c (contentNode cv (fillNode [c] node)).flatten := by
  cases node with
  | text text =>
    rw [fillNode, contentNode, List.flatten_singleton]
    exact only_fillText c text
  | other => exact only_nil c
  | element name attributes children =>
    rw [fillNode, contentNode]
    split
    · exact only_nil c
    · exact only_content children

theorem only_content (children : List Dom) : Only c (content cv (fill [c] children)).flatten := by
  cases children with
  | nil => exact only_nil c
  | cons child children =>
    rw [fill, content, List.flatten_append]
    exact (only_contentNode child).append (only_content children)

end

mutual

theorem only_reachedNode (kind : String → Bool) (inside : Bool) (place : Place) (node : Dom) :
    Only c ((reachedNode cv kind inside place (fillNode [c] node)).flatMap Reached.text) := by
  cases node with
  | text text =>
    rw [fillNode, reachedNode]
    split
    · rw [List.flatMap_singleton]
      exact only_fillText c text
    · exact only_nil c
  | other => exact only_nil c
  | element name attributes children =>
    rw [fillNode, reachedNode]
    induction place.enter cv name with
    | nil => exact only_nil c
    | cons next places ih =>
      rw [List.flatMap_cons, List.flatMap_append]
      exact (only_reached kind _ next children).append ih

theorem only_reached (kind : String → Bool) (inside : Bool) (place : Place) (children : List Dom) :
    Only c ((reached cv kind inside place (fill [c] children)).flatMap Reached.text) := by
  cases children with
  | nil => exact only_nil c
  | cons child children =>
    rw [fill, reached, List.flatMap_append]
    exact (only_reachedNode kind inside place child).append
      (only_reached kind inside place children)

end

mutual

theorem mem_contentNode (hc : isLetter c = true) {node : Dom} (h : silentNode cv node = false) :
    c ∈ letters (contentNode cv (fillNode [c] node)).flatten := by
  cases node with
  | text text =>
    have hblank : isBlankText text = false := h
    rw [fillNode, contentNode, hblank, List.flatten_singleton]
    exact List.mem_filter.mpr ⟨List.mem_singleton_self c, hc⟩
  | other => cases h
  | element name attributes children =>
    obtain ⟨hhides, hsilent⟩ := Bool.or_eq_false_iff.mp h
    rw [fillNode, contentNode, hhides]
    exact mem_content hc hsilent

theorem mem_content (hc : isLetter c = true) {children : List Dom}
    (h : silent cv children = false) : c ∈ letters (content cv (fill [c] children)).flatten := by
  cases children with
  | nil => cases h
  | cons child children =>
    rw [fill, content, List.flatten_append, letters_append]
    rcases Bool.and_eq_false_iff.mp h with hchild | hrest
    · exact List.mem_append_left _ (mem_contentNode hc hchild)
    · exact List.mem_append_right _ (mem_content hc hrest)

end

end

section

variable (cv : Converter)

/-- The letters of the content of a node. -/
def inkNode (node : Dom) : Chars := letters (contentNode cv node).flatten

/-- The letters of the content. -/
def inkOf (children : List Dom) : Chars := letters (content cv children).flatten

/-- The letters that a traversal takes of a node. -/
def seenNode (place : Place) (node : Dom) : Chars :=
  lettersOf (reachedNode cv cv.hides false place node)

/-- The letters that a traversal takes. -/
def seen (place : Place) (children : List Dom) : Chars :=
  lettersOf (reached cv cv.hides false place children)

theorem inkOf_cons (child : Dom) (children : List Dom) :
    inkOf cv (child :: children) = inkNode cv child ++ inkOf cv children := by
  rw [inkOf, content, List.flatten_append, letters_append]
  rfl

theorem seen_cons (place : Place) (child : Dom) (children : List Dom) :
    seen cv place (child :: children) = seenNode cv place child ++ seen cv place children := by
  rw [seen, reached, lettersOf_append]
  rfl

theorem inkOf_append (front back : List Dom) :
    inkOf cv (front ++ back) = inkOf cv front ++ inkOf cv back := by
  induction front with
  | nil => rfl
  | cons child front ih => rw [List.cons_append, inkOf_cons, inkOf_cons, ih, List.append_assoc]

theorem seen_append (place : Place) (front back : List Dom) :
    seen cv place (front ++ back) = seen cv place front ++ seen cv place back := by
  induction front with
  | nil => rfl
  | cons child front ih => rw [List.cons_append, seen_cons, seen_cons, ih, List.append_assoc]

theorem inkNode_zero (node : Dom) : inkNode cv (fillNode ['0'] node) = [] :=
  (only_contentNode cv '0' node).none rfl

theorem inkOf_zero (children : List Dom) : inkOf cv (fill ['0'] children) = [] :=
  (only_content cv '0' children).none rfl

theorem seenNode_zero (place : Place) (node : Dom) :
    seenNode cv place (fillNode ['0'] node) = [] :=
  (only_reachedNode cv '0' cv.hides false place node).none rfl

theorem seen_zero (place : Place) (children : List Dom) :
    seen cv place (fill ['0'] children) = [] :=
  (only_reached cv '0' cv.hides false place children).none rfl

/-- A page of the same outline, without attributes. -/
structure Filling (children filled : List Dom) : Prop where
  outline : fill ['0'] filled = fill ['0'] children
  bare : Bare filled

/-- A node of the same outline, without attributes. -/
structure FillingNode (node filled : Dom) : Prop where
  outline : fillNode ['0'] filled = fillNode ['0'] node
  bare : BareNode filled

theorem fillingNode_fillNode {word : Chars} (h : isBlankText word = false) (node : Dom) :
    FillingNode node (fillNode word node) :=
  ⟨fillNode_fillNode ['0'] word h node, bareNode_fillNode word node⟩

theorem filling_fill {word : Chars} (h : isBlankText word = false) (children : List Dom) :
    Filling children (fill word children) :=
  ⟨fill_fill ['0'] word h children, bare_fill word children⟩

theorem FillingNode.cons {child filledChild : Dom} {children filled : List Dom}
    (hchild : FillingNode child filledChild) (hrest : Filling children filled) :
    Filling (child :: children) (filledChild :: filled) where
  outline := by rw [fill, fill, hchild.outline, hrest.outline]
  bare := ⟨hchild.bare, hrest.bare⟩

theorem Filling.append {front filledFront back filledBack : List Dom}
    (hfront : Filling front filledFront) (hback : Filling back filledBack) :
    Filling (front ++ back) (filledFront ++ filledBack) := by
  induction front generalizing filledFront with
  | nil =>
    cases filledFront with
    | nil => exact hback
    | cons _ _ => cases hfront.outline
  | cons child front ih =>
    cases filledFront with
    | nil => cases hfront.outline
    | cons filledChild filledFront =>
      have houtline := hfront.outline
      rw [fill, fill, List.cons.injEq] at houtline
      have hchild : FillingNode child filledChild := ⟨houtline.1, hfront.bare.1⟩
      exact hchild.cons (ih ⟨houtline.2, hfront.bare.2⟩)

theorem FillingNode.element {name : String} (attributes : List (String × String))
    {children filled : List Dom} (h : Filling children filled) :
    FillingNode (.element name attributes children) (.element name [] filled) where
  outline := by rw [fillNode, fillNode, h.outline]
  bare := ⟨rfl, h.bare⟩

theorem FillingNode.isNestedList {node filled : Dom} (h : FillingNode node filled) :
    isNestedList filled = isNestedList node := by
  rw [← isNestedList_fillNode ['0'] filled, h.outline, isNestedList_fillNode]

/-- Content of a list item behind a nested list with content. -/
theorem exists_late {late : Bool} {children : List Dom} (h : orderly cv late children = false) :
    (∃ front list middle node back, children = front ++ list :: middle ++ node :: back ∧
      isNestedList list = true ∧ silentNode cv list = false ∧
      isNestedList node = false ∧ silentNode cv node = false) ∨
    (late = true ∧ ∃ front node back, children = front ++ node :: back ∧
      isNestedList node = false ∧ silentNode cv node = false) := by
  induction children generalizing late with
  | nil => cases h
  | cons child children ih =>
    rw [orderly] at h
    cases hlist : isNestedList child with
    | true =>
      rw [hlist, if_pos rfl] at h
      rcases ih h with ⟨front, list, middle, node, back, rfl, hfound⟩ |
        ⟨hlate, front, node, back, rfl, hfound⟩
      · exact .inl ⟨child :: front, list, middle, node, back, rfl, hfound⟩
      · cases hsilent : silentNode cv child with
        | true =>
          rw [hsilent, Bool.not_true, Bool.or_false] at hlate
          exact .inr ⟨hlate, child :: front, node, back, rfl, hfound⟩
        | false => exact .inl ⟨[], child, front, node, back, rfl, hlist, hsilent, hfound⟩
    | false =>
      rw [hlist, if_neg Bool.false_ne_true] at h
      rcases Bool.and_eq_false_iff.mp h with hnow | hrest
      · obtain ⟨hlate, hsilent⟩ := Bool.or_eq_false_iff.mp hnow
        rw [Bool.not_eq_false'] at hlate
        exact .inr ⟨hlate, [], child, children, rfl, hlist, hsilent⟩
      · rcases ih hrest with ⟨front, list, middle, node, back, rfl, hfound⟩ |
          ⟨hlate, front, node, back, rfl, hfound⟩
        · exact .inl ⟨child :: front, list, middle, node, back, rfl, hfound⟩
        · exact .inr ⟨hlate, child :: front, node, back, rfl, hfound⟩

/-- A list item that goes on behind a nested list: its letters come in another order. -/
theorem exists_disorder {children : List Dom} (h : orderly cv false children = false) :
    ∃ filled, Filling children filled ∧
      ¬ (inkOf cv filled).Sublist (seen cv .itemText filled ++ seen cv .itemLists filled) := by
  rcases exists_late cv h with ⟨front, list, middle, node, back, rfl, hlist, hsilent, hnode,
    hshown⟩ | ⟨hlate, -⟩
  · have hlist' : isNestedList (fillNode ['y'] list) = true := by
      rw [isNestedList_fillNode, hlist]
    have hnode' : isNestedList (fillNode ['x'] node) = false := by
      rw [isNestedList_fillNode, hnode]
    refine ⟨fill ['0'] front ++ fillNode ['y'] list :: fill ['0'] middle ++
      fillNode ['x'] node :: fill ['0'] back, ?_, fun hsub => ?_⟩
    · have hword : ∀ c : Char, isWhitespace c = false → isBlankText [c] = false := by
        intro c hc
        rw [isBlankText, List.all_cons, hc]
        rfl
      have hfront := filling_fill (hword '0' rfl) front
      have hmiddle := (fillingNode_fillNode (hword 'y' rfl) list).cons
        (filling_fill (hword '0' rfl) middle)
      have hback := (fillingNode_fillNode (hword 'x' rfl) node).cons
        (filling_fill (hword '0' rfl) back)
      exact (hfront.append hmiddle).append hback
    · rw [inkOf_append, inkOf_append, inkOf_cons, inkOf_cons, inkOf_zero, inkOf_zero, inkOf_zero,
        seen_append, seen_append, seen_cons, seen_cons, seen_zero, seen_zero, seen_zero,
        seen_append, seen_append, seen_cons, seen_cons, seen_zero, seen_zero, seen_zero] at hsub
      have hnoText : seenNode cv .itemText (fillNode ['y'] list) = [] := by
        rw [seenNode, reachedNode_itemText cv hlist']
        rfl
      have hnoList : seenNode cv .itemLists (fillNode ['x'] node) = [] := by
        rw [seenNode, reachedNode_itemLists cv hnode']
        rfl
      rw [hnoText, hnoList] at hsub
      simp only [List.nil_append, List.append_nil] at hsub
      -- the list comes first in the content, and last in what is seen
      have hboth : List.Sublist ['y', 'x']
          (inkNode cv (fillNode ['y'] list) ++ inkNode cv (fillNode ['x'] node)) :=
        (List.singleton_sublist.mpr (mem_contentNode cv 'y' rfl hsilent)).append
          (List.singleton_sublist.mpr (mem_contentNode cv 'x' rfl hshown))
      obtain ⟨early, late, heq, hearly, hlate⟩ := List.sublist_append_iff.mp (hboth.trans hsub)
      have hx : ∀ d ∈ early, d = 'x' := fun d hd =>
        only_reachedNode cv 'x' cv.hides false .itemText node d (hearly.subset hd)
      have hy : ∀ d ∈ late, d = 'y' := fun d hd =>
        only_reachedNode cv 'y' cv.hides false .itemLists list d (hlate.subset hd)
      cases early with
      | nil =>
        rw [List.nil_append] at heq
        rw [← heq] at hy
        exact absurd (hy 'x' (List.mem_cons_of_mem _ List.mem_cons_self)) (by decide)
      | cons first early =>
        rw [List.cons_append, List.cons.injEq] at heq
        have hfirst := hx first List.mem_cons_self
        rw [← heq.1] at hfirst
        exact absurd hfirst (by decide)
  · cases hlate

mutual

/-- Where a node is not whole, letters of its content can be missing or out of order. -/
theorem exists_lossNode {place : Place} {node : Dom} (h : wholeNode cv place node = false) :
    ∃ filled, FillingNode node filled ∧
      ¬ (inkNode cv filled).Sublist (seenNode cv place filled) := by
  cases node with
  | text text =>
    obtain ⟨hreads, hblank⟩ := Bool.or_eq_false_iff.mp h
    refine ⟨fillNode ['x'] (.text text), fillingNode_fillNode rfl _, fun hsub => ?_⟩
    have hmem := hsub.subset (mem_contentNode cv 'x' rfl hblank)
    rw [fillNode, seenNode, reachedNode, hreads] at hmem
    cases hmem
  | other => cases h
  | element name attributes children =>
    rw [wholeNode] at h
    obtain ⟨hhides, h⟩ := Bool.or_eq_false_iff.mp h
    have hink : ∀ filled, inkNode cv (.element name [] filled) = inkOf cv filled := by
      intro filled
      rw [inkNode, contentNode, hhides]
      rfl
    rcases enter_cases cv place name with henter | ⟨next, henter⟩ | henter
    · rw [henter] at h
      refine ⟨fillNode ['x'] (.element name attributes children), fillingNode_fillNode rfl _,
        fun hsub => ?_⟩
      have hsilent : silentNode cv (.element name attributes children) = false :=
        Bool.or_eq_false_iff.mpr ⟨hhides, h⟩
      have hmem := hsub.subset (mem_contentNode cv 'x' rfl hsilent)
      rw [fillNode, seenNode, reachedNode_of_closed cv cv.hides henter] at hmem
      cases hmem
    · rw [henter] at h
      obtain ⟨filled, hfilled, hloss⟩ := exists_loss h
      refine ⟨.element name [] filled, .element attributes hfilled, ?_⟩
      rw [hink, seenNode, reachedNode_of_enter cv cv.hides henter, hhides]
      exact hloss
    · rw [henter] at h
      have hlossItem : ∃ filled, Filling children filled ∧
          ¬ (inkOf cv filled).Sublist (seen cv .itemText filled ++ seen cv .itemLists filled) := by
        rcases Bool.and_eq_false_iff.mp h with hwhole | horder
        · exact exists_lossItem hwhole
        · exact exists_disorder cv horder
      obtain ⟨filled, hfilled, hloss⟩ := hlossItem
      refine ⟨.element name [] filled, .element attributes hfilled, ?_⟩
      rw [hink, seenNode, reachedNode, henter, hhides, List.flatMap_cons, List.flatMap_singleton,
        lettersOf_append]
      exact hloss

theorem exists_loss {place : Place} {children : List Dom} (h : whole cv place children = false) :
    ∃ filled, Filling children filled ∧ ¬ (inkOf cv filled).Sublist (seen cv place filled) := by
  cases children with
  | nil => cases h
  | cons child children =>
    rcases Bool.and_eq_false_iff.mp h with hchild | hrest
    · obtain ⟨filled, hfilled, hloss⟩ := exists_lossNode hchild
      refine ⟨filled :: fill ['0'] children, hfilled.cons (filling_fill rfl children), ?_⟩
      rw [inkOf_cons, seen_cons, inkOf_zero, seen_zero, List.append_nil, List.append_nil]
      exact hloss
    · obtain ⟨filled, hfilled, hloss⟩ := exists_loss hrest
      refine ⟨fillNode ['0'] child :: filled, (fillingNode_fillNode rfl child).cons hfilled, ?_⟩
      rw [inkOf_cons, seen_cons, inkNode_zero, seenNode_zero]
      exact hloss

theorem exists_lossItem {children : List Dom} (h : wholeItem cv children = false) :
    ∃ filled, Filling children filled ∧
      ¬ (inkOf cv filled).Sublist (seen cv .itemText filled ++ seen cv .itemLists filled) := by
  cases children with
  | nil => cases h
  | cons child children =>
    rcases Bool.and_eq_false_iff.mp h with hchild | hrest
    · obtain ⟨filled, hfilled, hloss⟩ := exists_lossNode hchild
      refine ⟨filled :: fill ['0'] children, hfilled.cons (filling_fill rfl children), ?_⟩
      rw [inkOf_cons, seen_cons, seen_cons, inkOf_zero, seen_zero, seen_zero, List.append_nil,
        List.append_nil, List.append_nil]
      have hnested := hfilled.isNestedList
      cases hlist : isNestedList child with
      | true =>
        rw [hlist] at hnested
        rw [itemPlace, if_pos hlist] at hloss
        rw [seenNode, reachedNode_itemText cv hnested]
        exact hloss
      | false =>
        rw [hlist] at hnested
        rw [itemPlace, if_neg (by rw [hlist]; exact Bool.false_ne_true)] at hloss
        have hnone : seenNode cv .itemLists filled = [] := by
          rw [seenNode, reachedNode_itemLists cv hnested]
          rfl
        rw [hnone, List.append_nil]
        exact hloss
    · obtain ⟨filled, hfilled, hloss⟩ := exists_lossItem hrest
      refine ⟨fillNode ['0'] child :: filled, (fillingNode_fillNode rfl child).cons hfilled, ?_⟩
      rw [inkOf_cons, seen_cons, seen_cons, inkNode_zero, seenNode_zero, seenNode_zero]
      exact hloss

end

end

/-- The words that are shown have no other letters than the text. -/
theorem Shows.letters_sublist {words : List Chars} {text : Chars} (h : Shows words text) :
    (letters words.flatten).Sublist (letters text) := by
  obtain ⟨shown, hspelt, hshown⟩ := h
  have hletters : letters words.flatten = letters shown.flatten := by
    clear hshown
    induction hspelt with
    | nil => rfl
    | cons hone _ ih =>
      rw [List.flatten_cons, List.flatten_cons, letters_append, letters_append, ih]
      rcases hone with rfl | rfl
      · rfl
      · rw [letters_replaceChar rfl rfl]
  rw [hletters]
  exact hshown.flatten_sublist.filter _

theorem letters_wordsIn (texts : List Chars) :
    letters (wordsIn texts).flatten = letters texts.flatten := by
  induction texts with
  | nil => rfl
  | cons text texts ih =>
    have hcons : wordsIn (text :: texts) = splitWhite text ++ wordsIn texts := rfl
    rw [hcons, List.flatten_append, List.flatten_cons, letters_append, letters_append,
      letters_splitWhite, ih]

/-- **Content is kept**, whatever the texts of a page, exactly when its outline is whole. -/
theorem keepsContent_iff (cv : Converter) (root : List Dom) :
    (∀ other, SameOutline root other → KeepsContent cv other) ↔ Whole cv root := by
  constructor
  · intro h
    by_contra hbroken
    rw [Whole, Bool.not_eq_true] at hbroken
    obtain ⟨filled, hfilled, hloss⟩ := exists_loss cv hbroken
    have hkept := (h filled hfilled.outline).letters_sublist
    rw [letters_wordsIn, letters_toMarkdown cv cv.hides hfilled.bare] at hkept
    exact hloss hkept
  · intro h other hsame
    exact keepsContent_of_whole (h.of_sameOutline hsame)

/-- A table with a caption. -/
def captioned : List Dom :=
  [.element "table" [] [.element "caption" [] [.text "Totals".toList], .element "tbody" [] [
    .element "tr" [] [.element "td" [] [.text "1".toList]]]]]

/-- The caption is lost. -/
theorem not_keepsContent : ¬ KeepsContent bodyConverter captioned := by
  intro h
  have hnone : letters (toMarkdown bodyConverter captioned) = [] := by decide
  have hsome : letters (wordsIn (content bodyConverter captioned)).flatten = "Totals".toList := by
    decide
  have hsub := h.letters_sublist
  rw [hnone, hsome] at hsub
  cases hsub

end Basecrawl.Core.Markdown
