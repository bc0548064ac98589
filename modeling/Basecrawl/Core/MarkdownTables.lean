/-
  Tables keep their shape when no cell has a pipe that the escaping leaves alive.

  1. **Reader** — `splitLive` cuts a row at the pipes behind an even number of backslashes, and
     `readRow` takes the cells between the outer pipes, trimmed and with `\|` read as a pipe.
  2. **Cells** — `cell_text` puts one backslash before each pipe, so a pipe behind an odd number of
     them stays alive and cuts its cell in two; `livePipes` counts these.
  3. **Rows** — a printed row has as many pieces as cells, and one more for each live pipe
     (`length_splitLive_rowCells`); without live pipes the pieces are the cells.
  4. **Tables** — `tableShape_iff`.
-/
import Basecrawl.Core.Markdown

namespace Basecrawl.Core.Markdown

open Text Chars

/-! ## Reader -/

/-- The pieces between the live pipes; the number counts the backslashes just passed. -/
def splitLive : Nat → Chars → List Chars
  | _, [] => [[]]
  | run, c :: cs =>
      if c = '|' ∧ run % 2 = 0 then [] :: splitLive 0 cs
      else (splitLive (if c = '\\' then run + 1 else 0) cs).modifyHead (c :: ·)

/-- An escaped pipe is a pipe. -/
def unescapePipes : Chars → Chars
  | [] => []
  | [c] => [c]
  | c :: d :: cs =>
      if c = '\\' ∧ d = '|' then '|' :: unescapePipes cs else c :: unescapePipes (d :: cs)

/-- The cells of a printed row. -/
def readRow (line : Chars) : Option (List Chars) :=
  match splitLive 0 line with
  | [] => none
  | first :: pieces =>
      if first = [] ∧ pieces.getLast? = some [] then
        some (pieces.dropLast.map fun piece => unescapePipes (trim piece))
      else none

/-! ## Cells -/

/-- The trimmed, newline-flattened text of a cell. -/
def flatText (text : Chars) : Chars := replaceChar '\n' [' '] (trim text)

/-- The pipes that stay alive behind one more backslash. -/
def livePipes : Nat → Chars → Nat
  | _, [] => 0
  | run, c :: cs =>
      if c = '|' then (if run % 2 = 1 then 1 else 0) + livePipes 0 cs
      else livePipes (if c = '\\' then run + 1 else 0) cs

/-- Every pipe of the text is behind an even number of backslashes. -/
def SafePipes (text : Chars) : Prop := livePipes 0 text = 0

instance (text : Chars) : Decidable (SafePipes text) :=
  inferInstanceAs (Decidable (livePipes 0 text = 0))

/-- The pipes escaped. -/
abbrev escapePipes (text : Chars) : Chars := replaceChar '|' ['\\', '|'] text

theorem cellText_eq (text : Chars) : cellText text = escapePipes (flatText text) := rfl

theorem escapePipes_pipe (cs : Chars) : escapePipes ('|' :: cs) = '\\' :: '|' :: escapePipes cs :=
  replaceChar_cons_self cs

theorem escapePipes_cons {c : Char} (h : c ≠ '|') (cs : Chars) :
    escapePipes (c :: cs) = c :: escapePipes cs :=
  replaceChar_cons_ne h cs

/-- Reading undoes the escaping, whatever else the text has. -/
theorem unescapePipes_escapePipes (text : Chars) : unescapePipes (escapePipes text) = text := by
  -- no escaped text begins with a pipe
  have hhead : ∀ cs : Chars, (escapePipes cs).head? ≠ some '|' := by
    intro cs
    cases cs with
    | nil => exact Option.some_ne_none _ ∘ Eq.symm
    | cons c cs =>
      by_cases hc : c = '|'
      · rw [hc, escapePipes_pipe]
        exact fun h => absurd (Option.some.inj h) (by decide)
      · rw [escapePipes_cons hc]
        exact fun h => hc (Option.some.inj h)
  induction text with
  | nil => rfl
  | cons c text ih =>
    by_cases hc : c = '|'
    · rw [hc, escapePipes_pipe, unescapePipes, if_pos ⟨rfl, rfl⟩, ih]
    · rw [escapePipes_cons hc]
      cases hrest : escapePipes text with
      | nil =>
        rw [hrest] at ih
        rw [← ih]
        rfl
      | cons d rest =>
        have hd : d ≠ '|' := fun hd => hhead text (by rw [hrest, hd]; rfl)
        rw [unescapePipes, if_neg fun h => hd h.2, ← hrest, ih]

/-- What follows a character that is no live pipe joins its piece. -/
theorem splitLive_cons {run : Nat} {c : Char} (h : ¬ (c = '|' ∧ run % 2 = 0)) (cs : Chars) :
    splitLive run (c :: cs) =
      (splitLive (if c = '\\' then run + 1 else 0) cs).modifyHead (c :: ·) :=
  if_neg h

theorem splitLive_live (cs : Chars) : splitLive 0 ('|' :: cs) = [] :: splitLive 0 cs :=
  if_pos ⟨rfl, rfl⟩

theorem splitLive_blank (run : Nat) (cs : Chars) :
    splitLive run (' ' :: cs) = (splitLive 0 cs).modifyHead (' ' :: ·) :=
  splitLive_cons (fun h => absurd h.1 (by decide)) cs

theorem splitLive_backslash (run : Nat) (cs : Chars) :
    splitLive run ('\\' :: cs) = (splitLive (run + 1) cs).modifyHead ('\\' :: ·) :=
  splitLive_cons (fun h => absurd h.1 (by decide)) cs

/-- An escaped cell adds a piece for each of its live pipes. -/
theorem length_splitLive_cell (run : Nat) (text rest : Chars) :
    (splitLive run (escapePipes text ++ ' ' :: rest)).length =
      livePipes run text + (splitLive 0 rest).length := by
  induction text generalizing run with
  | nil =>
    show (splitLive run (' ' :: rest)).length = 0 + _
    rw [splitLive_blank, List.length_modifyHead, Nat.zero_add]
  | cons c text ih =>
    by_cases hc : c = '|'
    · rw [hc, escapePipes_pipe, List.cons_append, List.cons_append, splitLive_backslash,
        List.length_modifyHead, livePipes, if_pos rfl]
      by_cases hrun : run % 2 = 1
      · have hlive : (run + 1) % 2 = 0 := by omega
        rw [splitLive, if_pos ⟨rfl, hlive⟩, List.length_cons, ih, if_pos hrun]
        omega
      · have hdead : ¬ ('|' = '|' ∧ (run + 1) % 2 = 0) := by omega
        rw [splitLive_cons hdead, List.length_modifyHead, if_neg (by decide), ih, if_neg hrun,
          Nat.zero_add]
    · rw [escapePipes_cons hc, List.cons_append, splitLive_cons fun h => hc h.1,
        List.length_modifyHead, ih, livePipes, if_neg hc]

/-- Without live pipes it stays one piece. -/
theorem splitLive_cell {run : Nat} {text : Chars} (h : livePipes run text = 0) (rest : Chars) :
    splitLive run (escapePipes text ++ ' ' :: rest) =
      (splitLive 0 rest).modifyHead (fun piece => escapePipes text ++ ' ' :: piece) := by
  induction text generalizing run with
  | nil => exact splitLive_blank run rest
  | cons c text ih =>
    by_cases hc : c = '|'
    · rw [livePipes, if_pos hc] at h
      have hdead : ¬ ('|' = '|' ∧ (run + 1) % 2 = 0) := by
        split at h
        · omega
        · omega
      rw [hc, escapePipes_pipe, List.cons_append, List.cons_append, splitLive_backslash,
        splitLive_cons hdead, if_neg (by decide), ih (Nat.eq_zero_of_add_eq_zero_left h),
        List.modifyHead_modifyHead, List.modifyHead_modifyHead]
      rfl
    · rw [livePipes, if_neg hc] at h
      rw [escapePipes_cons hc, List.cons_append, splitLive_cons fun h => hc h.1, ih h,
        List.modifyHead_modifyHead]
      rfl

/-! ## Rows -/

/-- A printed row, cell by cell. -/
def rowText (cells : List Chars) : Chars :=
  cells.flatMap (fun cell => '|' :: ' ' :: (cell ++ [' '])) ++ ['|']

theorem rowText_cons (cell : Chars) (cells : List Chars) :
    rowText (cell :: cells) = '|' :: ' ' :: (cell ++ ' ' :: rowText cells) := by
  rw [rowText, List.flatMap_cons, rowText]
  simp

theorem joined_row {cells : List Chars} (h : cells ≠ []) :
    "| ".toList ++ " | ".toList.intercalate cells ++ " |".toList = rowText cells := by
  induction cells with
  | nil => exact absurd rfl h
  | cons cell cells ih =>
    cases cells with
    | nil =>
      rw [List.intercalate_singleton, rowText_cons]
      simp [rowText]
    | cons next cells =>
      rw [rowText_cons, ← ih (List.cons_ne_nil _ _)]
      simp [List.intercalate_cons_cons]

/-- The padded cells. -/
def padded (cells : List Chars) (cols : Nat) : List Chars :=
  cells ++ List.replicate (cols - cells.length) []

theorem length_padded {cells : List Chars} {cols : Nat} (h : cells.length ≤ cols) :
    (padded cells cols).length = cols := by
  rw [padded, List.length_append, List.length_replicate]
  omega

theorem renderRow_eq {cells : List Chars} {cols : Nat} (hcols : 0 < cols)
    (h : cells.length ≤ cols) : renderRow cells cols = rowText (padded cells cols) := by
  have hlength := length_padded h
  unfold renderRow
  rw [← padded, List.take_of_length_le hlength.le]
  refine joined_row fun hnil => ?_
  rw [hnil] at hlength
  exact absurd hlength.symm hcols.ne'

/-- The live pipes of a row. -/
def rowLivePipes : List Chars → Nat
  | [] => 0
  | text :: texts => livePipes 0 text + rowLivePipes texts

theorem rowLivePipes_eq_zero {texts : List Chars} :
    rowLivePipes texts = 0 ↔ ∀ text ∈ texts, SafePipes text := by
  induction texts with
  | nil => exact ⟨fun _ _ h => (List.not_mem_nil h).elim, fun _ => rfl⟩
  | cons text texts ih =>
    rw [List.forall_mem_cons, ← ih, rowLivePipes, SafePipes]
    omega

/-- A row has a piece for each cell and each live pipe, and two at its ends. -/
theorem length_splitLive_rowText (texts : List Chars) :
    (splitLive 0 (rowText (texts.map escapePipes))).length =
      rowLivePipes texts + texts.length + 2 := by
  induction texts with
  | nil => rfl
  | cons text texts ih =>
    rw [List.map_cons, rowText_cons, splitLive_live, List.length_cons, splitLive_blank,
      List.length_modifyHead, length_splitLive_cell, ih, rowLivePipes, List.length_cons]
    omega

/-- Without live pipes the pieces are the cells between blanks. -/
theorem splitLive_rowText {texts : List Chars} (h : ∀ text ∈ texts, SafePipes text) :
    splitLive 0 (rowText (texts.map escapePipes)) =
      [] :: (texts.map fun text => ' ' :: (escapePipes text ++ [' '])) ++ [[]] := by
  induction texts with
  | nil => rfl
  | cons text texts ih =>
    rw [List.map_cons, rowText_cons, splitLive_live, splitLive_blank,
      splitLive_cell (h text List.mem_cons_self),
      ih fun other hother => h other (List.mem_cons_of_mem _ hother)]
    rfl

/-- A trimmed and flattened text has no white ends, before and after its pipes are escaped. -/
theorem solid_flatText (text : Chars) : Solid (flatText text) :=
  (solid_trim text).replaceChar (Or.inl (by decide))

theorem solid_escapePipes {text : Chars} (h : Solid text) : Solid (escapePipes text) := by
  refine h.replaceChar (Or.inr ⟨List.cons_ne_nil _ _, ⟨fun c hc => ?_, fun c hc => ?_⟩⟩)
  · cases hc
    decide
  · cases hc
    decide

/-- A row of solid texts without live pipes is read back. -/
theorem readRow_rowText {texts : List Chars} (hsafe : ∀ text ∈ texts, SafePipes text)
    (hsolid : ∀ text ∈ texts, Solid text) :
    readRow (rowText (texts.map escapePipes)) = some texts := by
  unfold readRow
  rw [splitLive_rowText hsafe]
  dsimp only [List.cons_append]
  rw [if_pos ⟨rfl, List.getLast?_concat⟩, List.dropLast_concat, List.map_map]
  congr 1
  refine List.map_congr_left (fun text htext => ?_) |>.trans (List.map_id texts)
  have hblank : Blank [' '] := by
    intro c hc
    rw [List.mem_singleton.mp hc]
    decide
  have htrim := (solid_escapePipes (hsolid text htext)).trim_append hblank hblank
  show unescapePipes (trim ([' '] ++ (escapePipes text ++ [' ']))) = text
  rw [← List.append_assoc, htrim, unescapePipes_escapePipes]

/-! ## Tables -/

theorem livePipes_replaceChar (run : Nat) (cs : Chars) :
    livePipes run (replaceChar '\n' [' '] cs) = livePipes run cs := by
  induction cs generalizing run with
  | nil => rfl
  | cons c cs ih =>
    by_cases hc : c = '\n'
    · rw [hc, replaceChar_cons_self]
      exact ih 0
    · rw [replaceChar_cons_ne hc, livePipes, livePipes]
      split
      · rw [ih]
      · exact ih _

theorem livePipes_white {c : Char} (h : isWhitespace c = true) (run : Nat) (cs : Chars) :
    livePipes run (c :: cs) = livePipes 0 cs := by
  have hpipe : c ≠ '|' := by
    rintro rfl
    exact absurd h (by decide)
  have hslash : c ≠ '\\' := by
    rintro rfl
    exact absurd h (by decide)
  rw [livePipes, if_neg hpipe, if_neg hslash]

theorem livePipes_blank {cs : Chars} (h : Blank cs) (run : Nat) : livePipes run cs = 0 := by
  induction cs generalizing run with
  | nil => rfl
  | cons c cs ih =>
    rw [livePipes_white (h c List.mem_cons_self)]
    exact ih (fun d hd => h d (List.mem_cons_of_mem _ hd)) 0

theorem livePipes_trimStart (cs : Chars) : livePipes 0 (trimStart cs) = livePipes 0 cs := by
  induction cs with
  | nil => rfl
  | cons c cs ih =>
    cases hc : isWhitespace c with
    | true => rw [trimStart, List.dropWhile_cons_of_pos hc, livePipes_white hc, ← ih, trimStart]
    | false => rw [trimStart, List.dropWhile_cons_of_neg (by simp [hc])]

theorem livePipes_append_blank {post : Chars} (h : Blank post) (run : Nat) (cs : Chars) :
    livePipes run (cs ++ post) = livePipes run cs := by
  induction cs generalizing run with
  | nil => exact livePipes_blank h run
  | cons c cs ih =>
    rw [List.cons_append, livePipes, livePipes]
    split
    · rw [ih]
    · exact ih _

theorem livePipes_trimEnd (run : Nat) (cs : Chars) :
    livePipes run (trimEnd cs) = livePipes run cs := by
  have hsplit : cs = trimEnd cs ++ (cs.reverse.takeWhile isWhitespace).reverse := by
    rw [trimEnd, ← List.reverse_append, List.takeWhile_append_dropWhile, List.reverse_reverse]
  have hblank : Blank (cs.reverse.takeWhile isWhitespace).reverse :=
    fun c hc => List.mem_takeWhile_imp (List.mem_reverse.mp hc)
  conv_rhs => rw [hsplit, livePipes_append_blank hblank]

/-- Trimming and flattening leave the pipes behind their backslashes. -/
theorem safePipes_flatText {text : Chars} : SafePipes (flatText text) ↔ SafePipes text := by
  rw [SafePipes, flatText, livePipes_replaceChar, Chars.trim, livePipes_trimEnd, livePipes_trimStart,
    SafePipes]

/-- The row with each of its texts changed. -/
def Row.map (f : Chars → Chars) (row : Row) : Row := { row with cells := row.cells.map f }

/-- What a reader should find: a header, the separator, the other rows, padded. -/
def expectedRows (rows : List Row) : List (List Chars) :=
  let (header, body) := headerAndBody rows
  padded header (columns rows) :: List.replicate (columns rows) "---".toList ::
    body.map fun cells => padded cells (columns rows)

/-- The printed lines are read as the rows of the table, each as wide as the widest. -/
def KeepsShape (rows : List Row) : Prop :=
  ∀ lines, tableLines (rows.map (Row.map cellText)) = some lines →
    lines.map readRow = (expectedRows (rows.map (Row.map flatText))).map some ∧
      ∀ cells ∈ expectedRows (rows.map (Row.map flatText)), cells.length = columns rows

theorem columns_map (f : Chars → Chars) (rows : List Row) :
    columns (rows.map (Row.map f)) = columns rows := by
  rw [columns, columns, List.map_map]
  congr 1
  exact List.map_congr_left fun row _ => List.length_map f

theorem length_le_columns {rows : List Row} {row : Row} (h : row ∈ rows) :
    row.cells.length ≤ columns rows := by
  induction rows with
  | nil => cases h
  | cons first rows ih =>
    show row.cells.length ≤ Nat.max first.cells.length (columns rows)
    rcases List.mem_cons.mp h with rfl | h
    · exact Nat.le_max_left _ _
    · exact Nat.le_trans (ih h) (Nat.le_max_right _ _)

/-- The header and the body of changed rows are changed. -/
theorem headerAndBody_map {f : Chars → Chars} (hf : f [] = []) (rows : List Row) :
    headerAndBody (rows.map (Row.map f)) =
      ((headerAndBody rows).1.map f, (headerAndBody rows).2.map (List.map f)) := by
  cases rows with
  | nil => rfl
  | cons row rows =>
    obtain ⟨header, cells⟩ := row
    cases header with
    | true =>
      show (cells.map f, (rows.map (Row.map f)).map Row.cells) = _
      rw [List.map_map]
      show _ = (cells.map f, (rows.map Row.cells).map (List.map f))
      rw [List.map_map]
      rfl
    | false =>
      show (List.replicate (columns ((⟨false, cells⟩ :: rows).map (Row.map f))) [],
        ((⟨false, cells⟩ :: rows).map (Row.map f)).map Row.cells) = _
      rw [columns_map, List.map_map]
      show _ = ((List.replicate (columns (⟨false, cells⟩ :: rows)) []).map f,
        ((⟨false, cells⟩ :: rows).map Row.cells).map (List.map f))
      rw [List.map_replicate, hf, List.map_map]
      rfl

/-- A row that is printed is one of the table, or the empty header. -/
theorem mem_headerAndBody {rows : List Row} {cells : List Chars} :
    (cells = (headerAndBody rows).1 ∨ cells ∈ (headerAndBody rows).2) →
      cells = List.replicate (columns rows) [] ∨ ∃ row ∈ rows, row.cells = cells := by
  cases rows with
  | nil =>
    rintro (h | h)
    · exact Or.inl h
    · cases h
  | cons row rows =>
    obtain ⟨header, own⟩ := row
    cases header with
    | true =>
      rintro (h | h)
      · exact Or.inr ⟨_, List.mem_cons_self, h.symm⟩
      · obtain ⟨other, hother, hcells⟩ := List.mem_map.mp h
        exact Or.inr ⟨other, List.mem_cons_of_mem _ hother, hcells⟩
    | false =>
      rintro (h | h)
      · exact Or.inl h
      · obtain ⟨other, hother, hcells⟩ := List.mem_map.mp h
        exact Or.inr ⟨other, hother, hcells⟩

theorem mem_headerAndBody_of_row {rows : List Row} {row : Row} (h : row ∈ rows) :
    row.cells = (headerAndBody rows).1 ∨ row.cells ∈ (headerAndBody rows).2 := by
  cases rows with
  | nil => cases h
  | cons first rows =>
    obtain ⟨header, own⟩ := first
    cases header with
    | true =>
      rcases List.mem_cons.mp h with rfl | h
      · exact Or.inl rfl
      · exact Or.inr (List.mem_map_of_mem h)
    | false => exact Or.inr (List.mem_map_of_mem h)

/-- A row that is read has as many cells as pieces between its ends. -/
theorem length_splitLive_of_readRow {line : Chars} {cells : List Chars}
    (h : readRow line = some cells) : (splitLive 0 line).length = cells.length + 2 := by
  unfold readRow at h
  cases hpieces : splitLive 0 line with
  | nil =>
    rw [hpieces] at h
    cases h
  | cons first pieces =>
    rw [hpieces] at h
    dsimp only at h
    split at h
    · rename_i hends
      cases h
      have hne : pieces ≠ [] := fun hnil => by
        rw [hnil] at hends
        cases hends.2
      have hpos := List.length_pos_of_ne_nil hne
      rw [List.length_cons, List.length_map, List.length_dropLast]
      omega
    · cases h

/-- The printed form of a row of texts. -/
theorem renderRow_texts {cells : List Chars} {cols : Nat} (hcols : 0 < cols)
    (h : cells.length ≤ cols) : renderRow (cells.map cellText) cols =
      rowText (((padded cells cols).map flatText).map escapePipes) := by
  rw [renderRow_eq hcols (by rw [List.length_map]; exact h), List.map_map]
  congr 1
  show padded (cells.map cellText) cols = (padded cells cols).map cellText
  rw [padded, padded, List.length_map, List.map_append, List.map_replicate]
  rfl

theorem map_flatText_padded (cells : List Chars) (cols : Nat) :
    (padded cells cols).map flatText = padded (cells.map flatText) cols := by
  rw [padded, padded, List.length_map, List.map_append, List.map_replicate]
  rfl

/-- A row of texts is read back exactly when its pipes are safe. -/
theorem readRow_texts {cells : List Chars} {cols : Nat} (hcols : 0 < cols)
    (h : cells.length ≤ cols) (hsafe : ∀ cell ∈ cells, SafePipes cell) :
    readRow (renderRow (cells.map cellText) cols) = some (padded (cells.map flatText) cols) := by
  rw [renderRow_texts hcols h, ← map_flatText_padded]
  refine readRow_rowText (fun text htext => ?_) fun text htext => ?_
  · obtain ⟨cell, hcell, rfl⟩ := List.mem_map.mp htext
    rw [safePipes_flatText]
    rcases List.mem_append.mp hcell with hcell | hcell
    · exact hsafe cell hcell
    · rw [List.eq_of_mem_replicate hcell]
      rfl
  · obtain ⟨cell, -, rfl⟩ := List.mem_map.mp htext
    exact solid_flatText cell

theorem safePipes_of_readRow {cells read : List Chars} {cols : Nat} (hcols : 0 < cols)
    (h : cells.length ≤ cols) (hread : readRow (renderRow (cells.map cellText) cols) = some read)
    (hlength : read.length = cols) : ∀ cell ∈ cells, SafePipes cell := by
  have hpieces := length_splitLive_of_readRow hread
  rw [renderRow_texts hcols h, length_splitLive_rowText, List.length_map, length_padded h,
    hlength] at hpieces
  have hnone : rowLivePipes ((padded cells cols).map flatText) = 0 := by omega
  intro cell hcell
  rw [← safePipes_flatText]
  exact rowLivePipes_eq_zero.mp hnone _ (List.mem_map_of_mem (List.mem_append_left _ hcell))

/-- The separator row is read as its columns. -/
theorem readRow_separatorRow {cols : Nat} (hcols : 0 < cols) :
    readRow (separatorRow cols) = some (List.replicate cols "---".toList) := by
  have hne : List.replicate cols "---".toList ≠ [] := by
    intro hnil
    rw [List.replicate_eq_nil_iff] at hnil
    omega
  have htext : separatorRow cols = rowText ((List.replicate cols "---".toList).map escapePipes) := by
    rw [List.map_replicate]
    exact joined_row hne
  rw [htext]
  refine readRow_rowText (fun text h => ?_) fun text h => ?_
  · rw [List.eq_of_mem_replicate h]
    decide
  · rw [List.eq_of_mem_replicate h]
    refine ⟨fun c hc => ?_, fun c hc => ?_⟩
    · cases hc
      decide
    · cases hc
      decide

/-- The lines of a table that has any. -/
theorem tableLines_texts {rows : List Row} {lines : List Chars}
    (h : tableLines (rows.map (Row.map cellText)) = some lines) : 0 < columns rows ∧
      lines = renderRow ((headerAndBody rows).1.map cellText) (columns rows) ::
        separatorRow (columns rows) ::
        (headerAndBody rows).2.map fun cells => renderRow (cells.map cellText) (columns rows) := by
  unfold tableLines at h
  split at h
  · cases h
  split at h
  · cases h
  · rename_i hcols
    rw [columns_map] at hcols
    refine ⟨Nat.pos_of_ne_zero hcols, ?_⟩
    rw [headerAndBody_map rfl, columns_map] at h
    rw [← Option.some.inj h, List.map_map]
    rfl

theorem expectedRows_texts (rows : List Row) : expectedRows (rows.map (Row.map flatText)) =
    padded ((headerAndBody rows).1.map flatText) (columns rows) ::
      List.replicate (columns rows) "---".toList ::
      (headerAndBody rows).2.map fun cells => padded (cells.map flatText) (columns rows) := by
  unfold expectedRows
  rw [headerAndBody_map rfl, columns_map]
  dsimp only
  rw [List.map_map]
  rfl

/-- What is printed of a table is no wider than it. -/
theorem length_headerAndBody_le {rows : List Row} {cells : List Chars}
    (h : cells = (headerAndBody rows).1 ∨ cells ∈ (headerAndBody rows).2) :
    cells.length ≤ columns rows := by
  rcases mem_headerAndBody h with rfl | ⟨row, hrow, rfl⟩
  · exact (List.length_replicate ..).le
  · exact length_le_columns hrow

/-- **Tables**: the printed lines are read as the rows of the table exactly when each pipe of each
    cell is behind an even number of backslashes. -/
theorem keepsShape_iff (rows : List Row) :
    KeepsShape rows ↔ ∀ row ∈ rows, ∀ cell ∈ row.cells, SafePipes cell := by
  constructor
  · intro hkeeps row hrow cell hcell
    have hpos : 0 < columns rows :=
      Nat.lt_of_lt_of_le (List.length_pos_of_mem hcell) (length_le_columns hrow)
    have hprinted : ∃ lines, tableLines (rows.map (Row.map cellText)) = some lines := by
      unfold tableLines
      rw [columns_map, if_neg, if_neg hpos.ne']
      · exact ⟨_, rfl⟩
      · rw [List.isEmpty_iff]
        exact fun hnil => List.not_mem_nil (List.map_eq_nil_iff.mp hnil ▸ hrow)
    obtain ⟨lines, hlines⟩ := hprinted
    obtain ⟨hread, hwidth⟩ := hkeeps lines hlines
    have hown := mem_headerAndBody_of_row hrow
    have hline : renderRow (row.cells.map cellText) (columns rows) ∈ lines := by
      rw [(tableLines_texts hlines).2]
      rcases hown with heq | hmem
      · rw [heq]
        exact List.mem_cons_self
      · exact List.mem_cons_of_mem _ (List.mem_cons_of_mem _ (List.mem_map.mpr ⟨_, hmem, rfl⟩))
    obtain ⟨cells, hcells, hsame⟩ := List.mem_map.mp (hread ▸ List.mem_map_of_mem hline)
    exact safePipes_of_readRow hpos (length_headerAndBody_le hown) hsame.symm
      (hwidth cells hcells) cell hcell
  · intro hsafe lines hlines
    obtain ⟨hpos, hprinted⟩ := tableLines_texts hlines
    have hrow : ∀ cells, cells = (headerAndBody rows).1 ∨ cells ∈ (headerAndBody rows).2 →
        readRow (renderRow (cells.map cellText) (columns rows)) =
          some (padded (cells.map flatText) (columns rows)) := by
      intro cells hcells
      refine readRow_texts hpos (length_headerAndBody_le hcells) fun cell hcell => ?_
      rcases mem_headerAndBody hcells with rfl | ⟨row, hrow, rfl⟩
      · rw [List.eq_of_mem_replicate hcell]
        rfl
      · exact hsafe row hrow cell hcell
    constructor
    · rw [hprinted, expectedRows_texts, List.map_cons, List.map_cons, List.map_cons, List.map_cons,
        hrow _ (Or.inl rfl), readRow_separatorRow hpos, List.map_map, List.map_map]
      congr 2
      exact List.map_congr_left fun cells hcells => hrow cells (Or.inr hcells)
    · intro cells hcells
      rw [expectedRows_texts] at hcells
      have hlength : ∀ cells, cells = (headerAndBody rows).1 ∨ cells ∈ (headerAndBody rows).2 →
          (padded (cells.map flatText) (columns rows)).length = columns rows := by
        intro cells hcells
        exact length_padded (by rw [List.length_map]; exact length_headerAndBody_le hcells)
      rcases List.mem_cons.mp hcells with rfl | hcells
      · exact hlength _ (Or.inl rfl)
      rcases List.mem_cons.mp hcells with rfl | hcells
      · exact List.length_replicate ..
      · obtain ⟨own, hown, rfl⟩ := List.mem_map.mp hcells
        exact hlength own (Or.inr hown)

/-- A backslash in front of a pipe cuts its cell in two. -/
theorem not_keepsShape : ¬ ∀ rows : List Row, KeepsShape rows := by
  intro hclaim
  have hlines : tableLines ([⟨true, ["a\\|b".toList]⟩].map (Row.map cellText)) =
      some ["| a\\\\|b |".toList, "| --- |".toList] := by
    decide
  have hread := (hclaim [⟨true, ["a\\|b".toList]⟩] _ hlines).1
  have hcells : readRow "| a\\\\|b |".toList = some ["a\\\\".toList, "b".toList] := by
    decide
  rw [List.map_cons, hcells] at hread
  have hfirst := (List.cons.inj hread).1
  exact absurd hfirst (by decide)

end Basecrawl.Core.Markdown
