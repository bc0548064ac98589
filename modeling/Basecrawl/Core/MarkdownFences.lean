/-
  Code blocks in cleaned up Markdown.

  The clean-up and a reader of its output find the fences again, line by line; the blocks of the page
  are joined with blank lines before.

  1. **Reader** — `readCode` finds the code blocks of a text, with the fence rules of the clean-up.
  2. **Counting** — outside the blocks that are found there is no line with three backticks in front
     (`fences_readCode`), the clean-up loses none (`fences_normalizeLines`), and trimming can only add
     one, at the first line (`fences_startLines`).
  3. **Code** — the fence around a code is longer than every run of backticks in it
     (`backticks_le_longestRun`).
  4. **Layouts** — lines that are prose without fences and closed code blocks; the clean-up keeps
     them so (`Layout.normalizeLines`, `Layout.startLines`, `Layout.endLines`).
  5. **Keeping code** — `keepsCode_iff`: exactly when the blocks that are found are those of the
     page.
-/
import Basecrawl.Core.Markdown
import Basecrawl.Lib.TrimLines

namespace Basecrawl.Core.Markdown

open Text Chars Framing

/-! ## Reader -/

/-- A code block, by its lines; one that goes on to the end of the text is not closed. -/
structure CodeBlock where
  opening : Chars
  content : List Chars
  closing : Option Chars
deriving DecidableEq

/-- The lines of a code block. -/
def CodeBlock.lines (block : CodeBlock) : List Chars :=
  block.opening :: block.content ++ block.closing.toList

/-- The code blocks of a text, with the block that is open: the length of its fence, its opening and
    its content so far. -/
def readCode : Option (Nat × Chars × List Chars) → List Chars → List CodeBlock
  | none, [] => []
  | some (_, opening, content), [] => [⟨opening, content, none⟩]
  | none, line :: rest =>
      match openingFenceLen line with
      | some len => readCode (some (len, line, [])) rest
      | none => readCode none rest
  | some (len, opening, content), line :: rest =>
      if isClosingFence line len then ⟨opening, content, some line⟩ :: readCode none rest
      else readCode (some (len, opening, content ++ [line])) rest

/-! ## Counting -/

/-- The backticks in front of a line. -/
def backticks (line : Chars) : Nat := (line.takeWhile (· == '`')).length

/-- A line that may open a fence. -/
def isFence (line : Chars) : Bool := decide (3 ≤ backticks line)

/-- The lines of a list that may open a fence. -/
def fences (list : List Chars) : Nat := list.countP isFence

@[simp] theorem fences_nil : fences [] = 0 := rfl

theorem fences_cons (line : Chars) (list : List Chars) :
    fences (line :: list) = fences list + if isFence line then 1 else 0 := List.countP_cons

@[simp] theorem fences_append (xs ys : List Chars) : fences (xs ++ ys) = fences xs + fences ys :=
  List.countP_append

theorem openingFenceLen_of_fence {line : Chars} (h : isFence line = true) :
    openingFenceLen line = some (backticks line) := if_pos (of_decide_eq_true h)

theorem openingFenceLen_of_not_fence {line : Chars} (h : isFence line = false) :
    openingFenceLen line = none := if_neg (of_decide_eq_false h)

/-- The lines of the block that is open. -/
def pending : Option (Nat × Chars × List Chars) → List Chars
  | none => []
  | some (_, opening, content) => opening :: content

/-- **Counting**: every line that may open a fence is in one of the blocks that are found. -/
theorem fences_readCode (st : Option (Nat × Chars × List Chars)) (list : List Chars) :
    fences ((readCode st list).flatMap CodeBlock.lines) = fences (pending st) + fences list := by
  induction list generalizing st with
  | nil =>
    cases st with
    | none => rfl
    | some st =>
      obtain ⟨len, opening, content⟩ := st
      rw [readCode, List.flatMap_singleton]
      show fences (opening :: content ++ []) = fences (opening :: content) + 0
      rw [List.append_nil, Nat.add_zero]
  | cons line rest ih =>
    cases st with
    | none =>
      rw [readCode]
      cases hline : isFence line with
      | true =>
        rw [openingFenceLen_of_fence hline]
        show fences ((readCode (some (_, line, [])) rest).flatMap _) = _
        rw [ih]
        show fences ([line] ++ []) + fences rest = 0 + fences (line :: rest)
        rw [fences_cons, List.append_nil, fences_cons, fences_nil]
        omega
      | false =>
        rw [openingFenceLen_of_not_fence hline]
        show fences ((readCode none rest).flatMap _) = _
        rw [ih, fences_cons, hline, if_neg Bool.false_ne_true]
        rfl
    | some st =>
      obtain ⟨len, opening, content⟩ := st
      rw [readCode]
      split
      · rw [List.flatMap_cons, fences_append, ih, fences_cons]
        show fences (opening :: content ++ [line]) + (0 + fences rest) = _
        rw [fences_append, fences_cons line [], fences_nil, pending]
        omega
      · rw [ih, fences_cons]
        show fences (opening :: content ++ [line]) + fences rest = _
        rw [fences_append, fences_cons line [], fences_nil, pending]
        omega

/-- A block that is closed is closed by a fence that matches its opening. -/
theorem closing_of_mem_readCode {st : Option (Nat × Chars × List Chars)} {list : List Chars}
    (hst : ∀ len opening content, st = some (len, opening, content) →
      openingFenceLen opening = some len)
    {block : CodeBlock} (hblock : block ∈ readCode st list) {line : Chars}
    (hline : block.closing = some line) :
    ∃ len, openingFenceLen block.opening = some len ∧ isClosingFence line len = true := by
  induction list generalizing st with
  | nil =>
    cases st with
    | none => cases hblock
    | some st =>
      obtain ⟨len, opening, content⟩ := st
      rw [List.mem_singleton.mp hblock] at hline
      cases hline
  | cons first rest ih =>
    cases st with
    | none =>
      rw [readCode] at hblock
      split at hblock
      · rename_i len hopen
        refine ih (fun len' opening content heq => ?_) hblock
        cases heq
        exact hopen
      · exact ih (fun len opening content heq => by cases heq) hblock
    | some st =>
      obtain ⟨len, opening, content⟩ := st
      have hopen := hst len opening content rfl
      rw [readCode] at hblock
      split at hblock
      · rename_i hclose
        rcases List.mem_cons.mp hblock with rfl | hblock
        · cases hline
          exact ⟨len, hopen, hclose⟩
        · exact ih (fun len opening content heq => by cases heq) hblock
      · refine ih (fun len' opening' content' heq => ?_) hblock
        cases heq
        exact hopen

theorem isFence_iff {line : Chars} : isFence line = true ↔ List.replicate 3 '`' <+: line := by
  rw [isFence, decide_eq_true_iff, backticks]
  constructor
  · intro h
    have hticks : ∀ c ∈ line.takeWhile (· == '`'), c = '`' := by
      intro c hc
      have htick := List.mem_takeWhile_imp (p := fun c => c == '`') hc
      exact beq_iff_eq.mp htick
    have htake : line.takeWhile (· == '`') =
        List.replicate (line.takeWhile (· == '`')).length '`' :=
      List.eq_replicate_of_mem hticks
    have hprefix : List.replicate 3 '`' <+: line.takeWhile (· == '`') := by
      rw [htake]
      exact ⟨List.replicate ((line.takeWhile (· == '`')).length - 3) '`', by
        rw [← List.replicate_add]
        congr 1
        omega⟩
    exact hprefix.trans (List.takeWhile_prefix _)
  · rintro ⟨rest, rfl⟩
    rw [List.takeWhile_append_of_pos fun c hc => beq_iff_eq.mpr (List.eq_of_mem_replicate hc),
      List.length_append, List.length_replicate]
    exact Nat.le_add_right _ _

theorem isWhitespace_backtick : isWhitespace '`' = false := by decide

/-- A fence is no blank line. -/
theorem not_blank_of_isFence {line : Chars} (h : isFence line = true) :
    isBlankLine line = false := by
  cases hblank : isBlankLine line with
  | false => rfl
  | true =>
    obtain ⟨rest, rfl⟩ := isFence_iff.mp h
    have hwhite := isBlankLine_iff.mp hblank '`' List.mem_cons_self
    rw [isWhitespace_backtick] at hwhite
    cases hwhite

/-- White space behind a line has nothing to do with its fence. -/
theorem isFence_trimEnd (line : Chars) : isFence (trimEnd line) = isFence line := by
  have hsplit : line = trimEnd line ++ (line.reverse.takeWhile isWhitespace).reverse := by
    rw [trimEnd, ← List.reverse_append, List.takeWhile_append_dropWhile, List.reverse_reverse]
  rw [Bool.eq_iff_iff, isFence_iff, isFence_iff]
  constructor
  · intro h
    rw [hsplit]
    exact h.trans (List.prefix_append _ _)
  · rintro ⟨rest, rfl⟩
    by_cases hrest : trimEnd rest = []
    · rw [trimEnd_append (trimEnd_eq_nil hrest)]
      exact List.prefix_rfl
    · rw [trimEnd_append_of_ne_nil hrest]
      exact List.prefix_append _ _

/-- A fence has no white space in front. -/
theorem trimStart_of_isFence {line : Chars} (h : isFence line = true) : trimStart line = line := by
  obtain ⟨rest, rfl⟩ := isFence_iff.mp h
  exact dropWhile_of_head fun c hc => by
    cases hc
    exact isWhitespace_backtick

/-- **Cleaning up** loses no fence and makes none. -/
theorem fences_normalizeLines (fence : Option Nat) (blank : Nat) (list : List Chars) :
    fences (normalizeLines fence blank list) = fences list := by
  induction list generalizing fence blank with
  | nil =>
    cases fence with
    | none => rfl
    | some len => rfl
  | cons line rest ih =>
    cases fence with
    | some len => rw [normalizeLines, fences_cons, fences_cons, ih]
    | none =>
      rw [normalizeLines]
      cases hline : isFence line with
      | true =>
        rw [openingFenceLen_of_fence hline]
        dsimp only
        rw [fences_cons, fences_cons, ih]
      | false =>
        have htrimmed : isFence (trimEnd line) = false := (isFence_trimEnd line).trans hline
        rw [openingFenceLen_of_not_fence hline, fences_cons, hline, if_neg Bool.false_ne_true]
        dsimp only
        split
        · split
          · exact ih none _
          · rw [fences_cons, htrimmed, if_neg Bool.false_ne_true, ih]
        · rw [fences_cons, htrimmed, if_neg Bool.false_ne_true, ih]

/-- The first line that is not blank. -/
def firstLine (list : List Chars) : Option Chars := list.find? fun line => !isBlankLine line

/-- The first line becomes a fence when the white space in front of it is gone. -/
def opensLate (list : List Chars) : Bool :=
  (firstLine list).any fun line => isFence (trimStart line) && !isFence line

/-- Trimming can make the first line a fence. -/
theorem fences_startLines (list : List Chars) :
    fences (startLines list) = fences list + if opensLate list then 1 else 0 := by
  induction list with
  | nil => rfl
  | cons line rest ih =>
    rw [startLines, fences_cons]
    cases hblank : isBlankLine line with
    | true =>
      have hnot : isFence line = false := by
        cases hline : isFence line with
        | false => rfl
        | true =>
          rw [not_blank_of_isFence hline] at hblank
          cases hblank
      have hfirst : opensLate (line :: rest) = opensLate rest := by
        rw [opensLate, firstLine, List.find?_cons_of_neg (by simp [hblank])]
        rfl
      rw [if_pos rfl, ih, hfirst, hnot, if_neg Bool.false_ne_true]
      rfl
    | false =>
      have hfirst : opensLate (line :: rest) = (isFence (trimStart line) && !isFence line) := by
        rw [opensLate, firstLine, List.find?_cons_of_pos (by simp [hblank])]
        rfl
      rw [if_neg Bool.false_ne_true, fences_cons, hfirst]
      cases hline : isFence line with
      | true =>
        rw [trimStart_of_isFence hline, hline]
        rfl
      | false =>
        rw [Bool.not_false, Bool.and_true, if_neg Bool.false_ne_true]
        rfl

theorem fences_endLines (list : List Chars) : fences (endLines list) = fences list := by
  induction list with
  | nil => rfl
  | cons line rest ih =>
    rw [endLines, fences_cons, ← ih]
    split
    · rename_i hnil
      rw [hnil]
      split
      · rename_i hblank
        have hnot : isFence line = false := by
          cases hline : isFence line with
          | false => rfl
          | true =>
            rw [not_blank_of_isFence hline] at hblank
            cases hblank
        rw [hnot]
        rfl
      · rw [fences_cons, isFence_trimEnd]
    · rename_i kept more hkept
      rw [hkept, fences_cons]

/-- The clean-up keeps the first line, but for the white space behind it. -/
theorem opensLate_normalizeLines (blank : Nat) (list : List Chars) :
    opensLate (normalizeLines none blank list) = opensLate list := by
  induction list generalizing blank with
  | nil => rfl
  | cons line rest ih =>
    rw [normalizeLines]
    cases hline : isFence line with
    | true =>
      have hblank := not_blank_of_isFence hline
      rw [openingFenceLen_of_fence hline]
      dsimp only
      rw [opensLate, firstLine, List.find?_cons_of_pos (by simp [hblank]), opensLate, firstLine,
        List.find?_cons_of_pos (by simp [hblank])]
    | false =>
      rw [openingFenceLen_of_not_fence hline]
      dsimp only
      cases hblank : isBlankLine line with
      | true =>
        have hnil : trimEnd line = [] := trimEnd_blank (isBlankLine_iff.mp hblank)
        have hskip : ∀ (white : Chars) (others : List Chars), isBlankLine white = true →
            opensLate (white :: others) = opensLate others := by
          intro white others hwhite
          rw [opensLate, firstLine, List.find?_cons_of_neg (by simp [hwhite])]
          rfl
        rw [if_pos hnil, hskip line rest hblank]
        split
        · exact ih _
        · rw [hskip _ _ (by rw [hnil]; rfl)]
          exact ih _
      | false =>
        have hne : trimEnd line ≠ [] := fun hnil => by
          rw [isBlankLine_iff.mpr (trimEnd_eq_nil hnil)] at hblank
          cases hblank
        rw [if_neg hne, opensLate, firstLine,
          List.find?_cons_of_pos (by rw [isBlankLine_trimEnd, hblank]; rfl), opensLate, firstLine,
          List.find?_cons_of_pos (by simp [hblank])]
        show (isFence (trimStart (trimEnd line)) && !isFence (trimEnd line)) = _
        rw [trimStart_trimEnd, isFence_trimEnd, isFence_trimEnd]
        rfl

/-! ## Code -/

/-- The longest run of backticks in a code. -/
def longestRun (raw : Chars) : Nat := (raw.foldl backtickRun (0, 0)).1

/-- The runs that are counted only grow. -/
theorem foldl_backtickRun (raw : Chars) (longest current : Nat) (h : current ≤ longest) :
    longest ≤ (raw.foldl backtickRun (longest, current)).1 ∧
      current + backticks raw ≤ (raw.foldl backtickRun (longest, current)).1 := by
  induction raw generalizing longest current with
  | nil => exact ⟨Nat.le_refl _, h⟩
  | cons c raw ih =>
    rw [List.foldl_cons]
    by_cases hc : c = '`'
    · have hrun : backticks (c :: raw) = backticks raw + 1 := by
        rw [hc, backticks, List.takeWhile_cons]
        rfl
      rw [backtickRun, if_pos hc, hrun]
      obtain ⟨hlongest, hcurrent⟩ := ih (max longest (current + 1)) (current + 1) (by omega)
      dsimp only at hlongest hcurrent ⊢
      constructor
      · omega
      · omega
    · have hrun : backticks (c :: raw) = 0 := by
        rw [backticks, List.takeWhile_cons_of_neg (by simp [hc])]
        rfl
      rw [backtickRun, if_neg hc, hrun]
      obtain ⟨hlongest, -⟩ := ih longest 0 (Nat.zero_le _)
      dsimp only at hlongest ⊢
      constructor
      · omega
      · omega

/-- A run of backticks anywhere in a code is no longer than the longest one. -/
theorem backticks_le_longestRun {raw front rest : Chars} (h : raw = front ++ rest) :
    backticks rest ≤ longestRun raw := by
  have hfront : ∀ (front : Chars) (longest current : Nat), current ≤ longest →
      ∃ longest' current', front.foldl backtickRun (longest, current) = (longest', current') ∧
        current' ≤ longest' := by
    intro front
    induction front with
    | nil => exact fun longest current hle => ⟨longest, current, rfl, hle⟩
    | cons c front ih =>
      intro longest current hle
      rw [List.foldl_cons, backtickRun]
      split
      · exact ih _ _ (Nat.le_max_right _ _)
      · exact ih _ _ (Nat.zero_le _)
  obtain ⟨longest, current, hrun, hle⟩ := hfront front 0 0 (Nat.le_refl _)
  rw [longestRun, h, List.foldl_append, hrun]
  exact Nat.le_trans (Nat.le_add_left _ _) (foldl_backtickRun rest longest current hle).2

/-- A line of a text stands somewhere in it. -/
theorem exists_of_mem_splitOn {text line : Chars} (h : line ∈ text.splitOn '\n') :
    ∃ front rest, text = front ++ (line ++ rest) := by
  induction text with
  | nil =>
    rw [List.mem_singleton.mp h]
    exact ⟨[], [], rfl⟩
  | cons c text ih =>
    rw [List.splitOn_cons_eq_if_modifyHead] at h
    split at h
    · rcases List.mem_cons.mp h with rfl | h
      · exact ⟨[], c :: text, rfl⟩
      · obtain ⟨front, rest, rfl⟩ := ih h
        exact ⟨c :: front, rest, rfl⟩
    · obtain ⟨first, others, hsplit⟩ := List.exists_cons_of_ne_nil (List.splitOn_ne_nil '\n' text)
      rw [hsplit, List.modifyHead_cons] at h
      rcases List.mem_cons.mp h with rfl | h
      · -- the first line of the text, with one more character
        have hjoin : ['\n'].intercalate (text.splitOn '\n') = text := List.intercalate_splitOn '\n'
        rw [hsplit] at hjoin
        cases others with
        | nil =>
          rw [List.intercalate_singleton] at hjoin
          exact ⟨[], [], by rw [hjoin, List.append_nil]; rfl⟩
        | cons second others =>
          rw [List.intercalate_cons_cons] at hjoin
          refine ⟨[], ['\n'] ++ ['\n'].intercalate (second :: others), ?_⟩
          rw [← hjoin, List.append_assoc]
          rfl
      · obtain ⟨front, rest, hfront⟩ := ih (hsplit ▸ List.mem_cons_of_mem _ h)
        exact ⟨c :: front, rest, by rw [hfront]; rfl⟩

theorem backticks_le_append (line rest : Chars) : backticks line ≤ backticks (line ++ rest) := by
  rw [backticks, backticks, List.takeWhile_append]
  split
  · rw [List.length_append]
    omega
  · exact Nat.le_refl _

/-- A line of a code has no longer run in front than the longest one. -/
theorem backticks_line_le {raw line : Chars} (h : line ∈ raw.splitOn '\n') :
    backticks line ≤ longestRun raw := by
  obtain ⟨front, rest, hraw⟩ := exists_of_mem_splitOn h
  exact Nat.le_trans (backticks_le_append line rest) (backticks_le_longestRun hraw)

/-- The language hint of a code block. -/
def languageHint (children : List Dom) : Chars := (codeLanguage children).getD []

/-- The lines of a code. -/
def codeLines (raw : Chars) : List Chars :=
  if raw.getLast? = some '\n' then (raw.splitOn '\n').dropLast else raw.splitOn '\n'

/-- The code block of a `pre`. -/
def codeBlock (children : List Dom) : CodeBlock where
  opening := codeFence (collectRawText children) ++ languageHint children
  content := codeLines (collectRawText children)
  closing := some (codeFence (collectRawText children))

theorem not_mem_of_mem_splitOn {sep : Char} {text piece : Chars} (h : piece ∈ text.splitOn sep) :
    sep ∉ piece := by
  intro hsep
  have hflat : sep ∈ (text.splitOn sep).flatten := List.mem_flatten.mpr ⟨piece, h, hsep⟩
  rw [List.splitOn, flatten_splitOnP, List.mem_filter] at hflat
  exact absurd hflat.2 (by simp)

theorem not_mem_codeFence (raw : Chars) : '\n' ∉ codeFence raw := by
  intro h
  exact absurd (List.eq_of_mem_replicate h) (by decide)

theorem not_mem_splitWhitespace {text token : Chars} (h : token ∈ splitWhitespace text) :
    '\n' ∉ token := by
  intro hmem
  have hpiece := List.mem_of_mem_filter h
  have hflat : '\n' ∈ (text.splitOnP isWhitespace).flatten :=
    List.mem_flatten.mpr ⟨token, hpiece, hmem⟩
  rw [flatten_splitOnP, List.mem_filter] at hflat
  exact absurd hflat.2 (by decide)

theorem suffix_of_languageOfToken {token lang : Chars} (h : languageOfToken token = some lang) :
    lang <:+ token := by
  have hor := (Option.filter_eq_some_iff.mp h).1
  rcases Option.or_eq_some_iff.mp hor with hlang | ⟨-, hlang⟩
  · exact ⟨_, (isPrefixOf?_eq_some.mp hlang).symm⟩
  · exact ⟨_, (isPrefixOf?_eq_some.mp hlang).symm⟩

/-- A language hint is part of a line. -/
theorem not_mem_languageHint (children : List Dom) : '\n' ∉ languageHint children := by
  induction children with
  | nil => exact List.not_mem_nil
  | cons child children ih =>
    cases child with
    | text text => exact ih
    | other => exact ih
    | element name attributes inner =>
      unfold languageHint at ih ⊢
      rw [codeLanguage]
      split
      · cases hhint : (attr attributes "class").bind fun cls =>
          (splitWhitespace cls.toList).findSome? languageOfToken with
        | none => exact ih
        | some lang =>
          obtain ⟨cls, -, hfound⟩ := Option.bind_eq_some_iff.mp hhint
          obtain ⟨token, htoken, hlang⟩ := List.exists_of_findSome?_eq_some hfound
          exact fun hmem => not_mem_splitWhitespace htoken
            ((suffix_of_languageOfToken hlang).subset hmem)
      · exact ih

/-- The lines of what `render_pre` gives. -/
theorem splitOn_renderPre (children : List Dom) :
    (renderPre children).splitOn '\n' = (codeBlock children).lines := by
  have hopening : '\n' ∉ codeFence (collectRawText children) ++ languageHint children := by
    intro h
    rcases List.mem_append.mp h with h | h
    · exact not_mem_codeFence _ h
    · exact not_mem_languageHint _ h
  have hclosing : (codeFence (collectRawText children)).splitOn '\n' =
      [codeFence (collectRawText children)] := List.splitOn_eq_singleton (not_mem_codeFence _)
  have hsplit : ∀ body : Chars, (codeFence (collectRawText children) ++ languageHint children ++
      ['\n'] ++ body).splitOn '\n' =
      (codeFence (collectRawText children) ++ languageHint children) :: body.splitOn '\n' := by
    intro body
    rw [List.append_assoc _ ['\n'], List.singleton_append]
    exact List.splitOn_append_cons_self_of_not_mem hopening body
  have hlines : (codeBlock children).lines =
      (codeFence (collectRawText children) ++ languageHint children) ::
        (codeLines (collectRawText children) ++ [codeFence (collectRawText children)]) := rfl
  have hpre : renderPre children = codeFence (collectRawText children) ++ languageHint children ++
      ['\n'] ++ (collectRawText children ++
        ((if (collectRawText children).getLast? = some '\n' then [] else ['\n']) ++
          codeFence (collectRawText children))) := by
    rw [renderPre, languageHint]
    simp only [List.append_assoc]
  rw [hpre, hsplit, hlines]
  generalize codeFence (collectRawText children) = fence at *
  generalize collectRawText children = raw at *
  congr 1
  unfold codeLines
  split
  · rename_i hlast
    -- the last line of the code is empty, and the fence takes its place
    have hraw : raw = raw.dropLast ++ ['\n'] := (List.dropLast_append_getLast? '\n' hlast).symm
    have hcut : (raw.dropLast ++ '\n' :: ([] : Chars)).splitOn '\n' =
        raw.dropLast.splitOn '\n' ++ [[]] := List.splitOnP_append_cons _ _ (beq_self_eq_true _)
    have hfence : (raw.dropLast ++ '\n' :: fence).splitOn '\n' =
        raw.dropLast.splitOn '\n' ++ fence.splitOn '\n' :=
      List.splitOnP_append_cons _ _ (beq_self_eq_true _)
    rw [List.nil_append]
    conv_lhs => rw [hraw, List.append_assoc, List.singleton_append, hfence, hclosing]
    conv_rhs => rw [hraw, hcut, List.dropLast_concat]
  · rw [List.singleton_append]
    have hfence : (raw ++ '\n' :: fence).splitOn '\n' =
        raw.splitOn '\n' ++ fence.splitOn '\n' :=
      List.splitOnP_append_cons _ _ (beq_self_eq_true _)
    rw [hfence, hclosing]

/-! ## Layouts -/

/-- A code block that a reader finds as it is: its closing line, which has no white ends, is the
    first line that closes it. -/
structure CodeBlock.Closed (block : CodeBlock) (len : Nat) (line : Chars) : Prop where
  opening : openingFenceLen block.opening = some len
  content : ∀ line ∈ block.content, isClosingFence line len = false
  closing : block.closing = some line
  closes : isClosingFence line len = true
  solid : Solid line
  ne_nil : line ≠ []

/-- Lines that are prose without fences, and code blocks. -/
inductive Layout : List Chars → List CodeBlock → Prop where
  | nil : Layout [] []
  | prose {line : Chars} {rest : List Chars} {blocks : List CodeBlock}
      (hline : isFence line = false) (hrest : Layout rest blocks) : Layout (line :: rest) blocks
  | code {block : CodeBlock} {len : Nat} {line : Chars} {rest : List Chars}
      {blocks : List CodeBlock} (hblock : block.Closed len line) (hrest : Layout rest blocks) :
      Layout (block.lines ++ rest) (block :: blocks)

theorem Layout.append {xs ys : List Chars} {as bs : List CodeBlock} (hx : Layout xs as)
    (hy : Layout ys bs) : Layout (xs ++ ys) (as ++ bs) := by
  induction hx with
  | nil => exact hy
  | prose hline _ ih => exact .prose hline ih
  | code hblock _ ih =>
    rw [List.append_assoc, List.cons_append]
    exact .code hblock ih

theorem Layout.of_prose {list : List Chars} (h : ∀ line ∈ list, isFence line = false) :
    Layout list [] := by
  induction list with
  | nil => exact .nil
  | cons line rest ih =>
    exact .prose (h line List.mem_cons_self) (ih fun other hother =>
      h other (List.mem_cons_of_mem _ hother))

section

variable {block : CodeBlock} {len : Nat} {line : Chars}

theorem CodeBlock.Closed.isFence (h : block.Closed len line) : isFence block.opening = true := by
  cases hopen : Markdown.isFence block.opening with
  | true => rfl
  | false =>
    have hopening := h.opening
    rw [openingFenceLen_of_not_fence hopen] at hopening
    cases hopening

/-- The lines of a closed block. -/
theorem CodeBlock.Closed.lines_eq (h : block.Closed len line) :
    block.lines = block.opening :: (block.content ++ [line]) := by
  rw [CodeBlock.lines, h.closing]
  rfl

/-- A closed block is read to its closing line. -/
theorem CodeBlock.Closed.readCode (h : block.Closed len line) (rest : List Chars) :
    readCode none (block.lines ++ rest) = block :: readCode none rest := by
  have hcontent : ∀ (content before : List Chars),
      (∀ line ∈ content, isClosingFence line len = false) →
      Markdown.readCode (some (len, block.opening, before)) (content ++ line :: rest) =
        ⟨block.opening, before ++ content, some line⟩ :: Markdown.readCode none rest := by
    intro content
    induction content with
    | nil =>
      intro before _
      rw [List.nil_append, Markdown.readCode, if_pos h.closes, List.append_nil]
    | cons first content ih =>
      intro before hopen
      rw [List.cons_append, Markdown.readCode, hopen first List.mem_cons_self,
        if_neg Bool.false_ne_true, ih _ fun other hother => hopen other (List.mem_cons_of_mem _ hother),
        List.append_assoc, List.singleton_append]
  rw [h.lines_eq, List.cons_append, Markdown.readCode, h.opening, List.append_assoc,
    List.singleton_append]
  show Markdown.readCode (some (len, block.opening, [])) _ = _
  rw [hcontent block.content [] h.content, List.nil_append, ← h.closing]

/-- The clean-up keeps a closed block as it is. -/
theorem CodeBlock.Closed.normalizeLines (h : block.Closed len line) (blank : Nat)
    (rest : List Chars) : normalizeLines none blank (block.lines ++ rest) =
      block.lines ++ normalizeLines none 0 rest := by
  have hcontent : ∀ (content : List Chars) (blank : Nat),
      (∀ line ∈ content, isClosingFence line len = false) →
      Markdown.normalizeLines (some len) blank (content ++ line :: rest) =
        content ++ line :: Markdown.normalizeLines none 0 rest := by
    intro content
    induction content with
    | nil =>
      intro blank _
      rw [List.nil_append, Markdown.normalizeLines, if_pos h.closes, List.nil_append]
    | cons first content ih =>
      intro blank hopen
      rw [List.cons_append, Markdown.normalizeLines, hopen first List.mem_cons_self,
        if_neg Bool.false_ne_true, ih _ fun other hother => hopen other (List.mem_cons_of_mem _ hother)]
      rfl
  rw [h.lines_eq, List.cons_append, Markdown.normalizeLines, h.opening, List.append_assoc,
    List.singleton_append]
  show block.opening :: Markdown.normalizeLines (some len) 0 _ = _
  rw [hcontent block.content 0 h.content, List.cons_append, List.append_assoc, List.singleton_append]

end

/-- The blocks of a layout are the ones that are found. -/
theorem Layout.readCode {list : List Chars} {blocks : List CodeBlock} (h : Layout list blocks) :
    readCode none list = blocks := by
  induction h with
  | nil => rfl
  | prose hline _ ih => rw [Markdown.readCode, openingFenceLen_of_not_fence hline, ih]
  | code hblock _ ih => rw [hblock.readCode, ih]

/-- **Cleaning up** keeps the layout. -/
theorem Layout.normalizeLines {list : List Chars} {blocks : List CodeBlock}
    (h : Layout list blocks) (blank : Nat) : Layout (normalizeLines none blank list) blocks := by
  induction h generalizing blank with
  | nil => exact .nil
  | @prose line rest blocks hline _ ih =>
    have htrimmed : isFence (trimEnd line) = false := (isFence_trimEnd line).trans hline
    rw [Markdown.normalizeLines, openingFenceLen_of_not_fence hline]
    dsimp only
    split
    · split
      · exact ih _
      · exact .prose htrimmed (ih _)
    · exact .prose htrimmed (ih _)
  | code hblock _ ih =>
    rw [hblock.normalizeLines]
    exact .code hblock (ih 0)

/-- Trimming the first line keeps the layout, when it does not make it a fence. -/
theorem Layout.startLines {list : List Chars} {blocks : List CodeBlock} (h : Layout list blocks)
    (hlate : opensLate list = false) : Layout (startLines list) blocks := by
  induction h with
  | nil => exact .nil
  | @prose line rest blocks hline hrest ih =>
    rw [Chars.startLines]
    cases hblank : isBlankLine line with
    | true =>
      rw [opensLate, firstLine, List.find?_cons_of_neg (by simp [hblank])] at hlate
      exact ih hlate
    | false =>
      rw [opensLate, firstLine, List.find?_cons_of_pos (by simp [hblank])] at hlate
      have hstart : (isFence (trimStart line) && !isFence line) = false := hlate
      rw [hline, Bool.not_false, Bool.and_true] at hstart
      exact .prose hstart hrest
  | @code block len line rest blocks hblock hrest ih =>
    have hkeep : Chars.startLines (block.lines ++ rest) = block.lines ++ rest := by
      rw [hblock.lines_eq, List.cons_append, Chars.startLines,
        not_blank_of_isFence hblock.isFence, if_neg Bool.false_ne_true,
        trimStart_of_isFence hblock.isFence]
    rw [hkeep]
    exact .code hblock hrest

theorem endLines_append_of_ne_nil {xs ys : List Chars} (h : endLines ys ≠ []) :
    endLines (xs ++ ys) = xs ++ endLines ys := by
  induction xs with
  | nil => rfl
  | cons x xs ih =>
    rw [List.cons_append, endLines, ih]
    cases hmore : xs ++ endLines ys with
    | nil => exact absurd (List.append_eq_nil_iff.mp hmore).2 h
    | cons kept more => rw [List.cons_append, hmore]

theorem endLines_append_of_nil {xs ys : List Chars} (h : endLines ys = []) :
    endLines (xs ++ ys) = endLines xs := by
  induction xs with
  | nil => exact h
  | cons x xs ih => rw [List.cons_append, endLines, endLines, ih]

/-- Trimming the last line keeps the layout. -/
theorem Layout.endLines {list : List Chars} {blocks : List CodeBlock} (h : Layout list blocks) :
    Layout (endLines list) blocks := by
  induction h with
  | nil => exact .nil
  | @prose line rest blocks hline _ ih =>
    rw [Chars.endLines]
    cases hrest : Chars.endLines rest with
    | nil =>
      rw [hrest] at ih
      dsimp only
      split
      · exact ih
      · exact .prose ((isFence_trimEnd line).trans hline) ih
    | cons kept more =>
      rw [hrest] at ih
      exact .prose hline ih
  | @code block len line rest blocks hblock _ ih =>
    by_cases hrest : Chars.endLines rest = []
    · have hlast : Chars.endLines [line] = [line] := by
        have hsolid : isBlankLine line = false := by
          obtain ⟨c, more, rfl⟩ := List.exists_cons_of_ne_nil hblock.ne_nil
          rw [isBlankLine, List.all_cons, hblock.solid.head c rfl, Bool.false_and]
        rw [Chars.endLines, Chars.endLines]
        dsimp only
        rw [hsolid, if_neg Bool.false_ne_true, hblock.solid.trimEnd]
      have hkeep : Chars.endLines block.lines = block.lines := by
        have hne : Chars.endLines [line] ≠ [] := by
          rw [hlast]
          exact List.cons_ne_nil _ _
        rw [hblock.lines_eq, ← List.cons_append, endLines_append_of_ne_nil hne, hlast]
      rw [endLines_append_of_nil hrest, hkeep]
      rw [hrest] at ih
      have hwhole := Layout.code hblock ih
      rwa [List.append_nil] at hwhole
    · rw [endLines_append_of_ne_nil hrest]
      exact .code hblock ih

/-! ## Keeping code -/

/-- A block of a page: a `pre`, or any other text. -/
inductive Block where
  | pre (children : List Dom)
  | prose (text : Chars)

/-- What a block is rendered as. -/
def Block.text : Block → Chars
  | .pre children => renderPre children
  | .prose text => text

/-- The code block that a block is. -/
def Block.code? : Block → Option CodeBlock
  | .pre children => some (codeBlock children)
  | .prose _ => none

/-- In the clean text of the blocks, a reader finds their code blocks and no others, with every line
    as it was. -/
def KeepsCode (blocks : List Block) : Prop :=
  readCode none ((joinBlocks (blocks.map Block.text)).splitOn '\n') = blocks.filterMap Block.code?

/-- The lines of the blocks, with an empty one between any two. -/
def documentLines : List Block → List Chars
  | [] => [[]]
  | [block] => block.text.splitOn '\n'
  | block :: more => block.text.splitOn '\n' ++ [[]] ++ documentLines more

/-- The text that is cleaned up has these lines. -/
theorem splitOn_intercalate_text (blocks : List Block) :
    ("\n\n".toList.intercalate (blocks.map Block.text)).splitOn '\n' = documentLines blocks := by
  induction blocks with
  | nil => rfl
  | cons block blocks ih =>
    cases blocks with
    | nil => rw [List.map_singleton, List.intercalate_singleton, documentLines]
    | cons next more =>
      have hcut : ∀ text rest : Chars, (text ++ "\n\n".toList ++ rest).splitOn '\n' =
          text.splitOn '\n' ++ [[]] ++ rest.splitOn '\n' := by
        intro text rest
        have hsplit : text ++ "\n\n".toList ++ rest = text ++ '\n' :: ([] ++ '\n' :: rest) := by
          rw [List.append_assoc]
          rfl
        have hfirst : (text ++ '\n' :: ([] ++ '\n' :: rest)).splitOn '\n' =
            text.splitOn '\n' ++ ([] ++ '\n' :: rest).splitOn '\n' :=
          List.splitOnP_append_cons _ _ (beq_self_eq_true _)
        have hsecond : (([] : Chars) ++ '\n' :: rest).splitOn '\n' = [[]] ++ rest.splitOn '\n' :=
          List.splitOnP_append_cons _ _ (beq_self_eq_true _)
        rw [hsplit, hfirst, hsecond, List.append_assoc]
      have hlines : documentLines (block :: next :: more) =
          block.text.splitOn '\n' ++ [[]] ++ documentLines (next :: more) := rfl
      rw [hlines, ← ih, List.map_cons, List.map_cons, List.intercalate_cons_cons, hcut]

/-- The lines of the prose. -/
def proseLines (blocks : List Block) : List Chars :=
  blocks.flatMap fun
    | .pre _ => []
    | .prose text => text.splitOn '\n'

theorem fences_documentLines (blocks : List Block) : fences (documentLines blocks) =
    fences ((blocks.filterMap Block.code?).flatMap CodeBlock.lines) +
      fences (proseLines blocks) := by
  have hblock : ∀ (block : Block) (blocks : List Block), fences (block.text.splitOn '\n') +
      (fences ((blocks.filterMap Block.code?).flatMap CodeBlock.lines) +
        fences (proseLines blocks)) =
      fences (((block :: blocks).filterMap Block.code?).flatMap CodeBlock.lines) +
        fences (proseLines (block :: blocks)) := by
    intro block blocks
    cases block with
    | pre children =>
      have hcode : ((Block.pre children :: blocks).filterMap Block.code?).flatMap CodeBlock.lines =
          (codeBlock children).lines ++ (blocks.filterMap Block.code?).flatMap CodeBlock.lines := rfl
      have hprose : proseLines (Block.pre children :: blocks) = proseLines blocks := rfl
      rw [hcode, hprose, fences_append, Block.text, splitOn_renderPre]
      omega
    | prose text =>
      have hcode : ((Block.prose text :: blocks).filterMap Block.code?).flatMap CodeBlock.lines =
          (blocks.filterMap Block.code?).flatMap CodeBlock.lines := rfl
      have hprose : proseLines (Block.prose text :: blocks) =
          text.splitOn '\n' ++ proseLines blocks := rfl
      rw [hcode, hprose, fences_append, Block.text]
      omega
  induction blocks with
  | nil => rfl
  | cons block blocks ih =>
    rw [← hblock]
    cases blocks with
    | nil => rfl
    | cons next more =>
      have hlines : documentLines (block :: next :: more) =
          block.text.splitOn '\n' ++ [[]] ++ documentLines (next :: more) := rfl
      rw [hlines, fences_append, fences_append, ih]
      rfl

theorem not_mem_documentLines {blocks : List Block} :
    ∀ line ∈ documentLines blocks, '\n' ∉ line := by
  rw [← splitOn_intercalate_text]
  exact fun line hline => not_mem_of_mem_splitOn hline

theorem not_mem_normalizeLines {c : Char} {fence : Option Nat} {blank : Nat} {list : List Chars}
    (h : ∀ line ∈ list, c ∉ line) : ∀ line ∈ normalizeLines fence blank list, c ∉ line := by
  induction list generalizing fence blank with
  | nil =>
    cases fence with
    | none => exact h
    | some len => exact h
  | cons first rest ih =>
    have hfirst := h first List.mem_cons_self
    have hrest : ∀ line ∈ rest, c ∉ line := fun line hline => h line (List.mem_cons_of_mem _ hline)
    have htrimmed : c ∉ trimEnd first := by
      intro hc
      have hrev := (List.dropWhile_suffix _).subset (List.mem_reverse.mp hc)
      exact hfirst (List.mem_reverse.mp hrev)
    cases fence with
    | some len =>
      rw [normalizeLines]
      exact List.forall_mem_cons.mpr ⟨hfirst, ih hrest⟩
    | none =>
      rw [normalizeLines]
      split
      · exact List.forall_mem_cons.mpr ⟨hfirst, ih hrest⟩
      · dsimp only
        split
        · split
          · exact ih hrest
          · exact List.forall_mem_cons.mpr ⟨htrimmed, ih hrest⟩
        · exact List.forall_mem_cons.mpr ⟨htrimmed, ih hrest⟩

/-- The lines of the clean text. -/
theorem splitOn_joinBlocks (blocks : List Block) :
    (joinBlocks (blocks.map Block.text)).splitOn '\n' =
      if tidyLines (normalizeLines none 0 (documentLines blocks)) = [] then [[]]
      else tidyLines (normalizeLines none 0 (documentLines blocks)) := by
  rw [joinBlocks, normalize, splitOn_intercalate_text]
  exact splitOn_trim_terminated (not_mem_normalizeLines not_mem_documentLines)

/-- What the clean-up can rely on. -/
structure Orderly (blocks : List Block) : Prop where
  hints : ∀ children, .pre children ∈ blocks → (languageHint children).head? ≠ some '`'
  prose : ∀ line ∈ proseLines blocks, isFence line = false
  first : opensLate (documentLines blocks) = false

/-- The fence around a code. -/
theorem codeFence_eq (raw : Chars) :
    codeFence raw = List.replicate (max (longestRun raw + 1) 3) '`' := rfl

theorem backticks_replicate_append (n : Nat) {rest : Chars} (h : rest.head? ≠ some '`') :
    backticks (List.replicate n '`' ++ rest) = n := by
  rw [backticks, List.takeWhile_append_of_pos fun c hc =>
    beq_iff_eq.mpr (List.eq_of_mem_replicate hc), List.length_append, List.length_replicate]
  cases rest with
  | nil => rfl
  | cons c rest =>
    rw [List.takeWhile_cons_of_neg]
    · rfl
    · intro hc
      rw [beq_iff_eq] at hc
      rw [hc] at h
      exact h rfl

/-- A hint with a backtick in front makes the fence longer. -/
theorem backticks_codeFence_append {raw hint : Chars} (h : hint.head? = some '`') :
    (codeFence raw).length < backticks (codeFence raw ++ hint) := by
  cases hint with
  | nil => cases h
  | cons c hint =>
    cases h
    have hlonger : codeFence raw ++ '`' :: hint = (codeFence raw ++ ['`']) ++ hint := by
      rw [List.append_assoc]
      rfl
    have hticks : ∀ c ∈ codeFence raw ++ ['`'], (c == '`') = true := by
      intro c hc
      rcases List.mem_append.mp hc with hc | hc
      · exact beq_iff_eq.mpr (List.eq_of_mem_replicate hc)
      · exact beq_iff_eq.mpr (List.mem_singleton.mp hc)
    rw [hlonger, backticks, List.takeWhile_append_of_pos hticks, List.length_append,
      List.length_append, List.length_singleton]
    omega

/-- A code block with a hint that is no fence is found as it is. -/
theorem codeBlock_closed {children : List Dom} (h : (languageHint children).head? ≠ some '`') :
    (codeBlock children).Closed (max (longestRun (collectRawText children) + 1) 3)
      (codeFence (collectRawText children)) := by
  have hopening : backticks (codeBlock children).opening =
      max (longestRun (collectRawText children) + 1) 3 := backticks_replicate_append _ h
  have hfence : backticks (codeFence (collectRawText children)) =
      max (longestRun (collectRawText children) + 1) 3 := by
    have hempty : backticks (codeFence (collectRawText children) ++ []) =
        max (longestRun (collectRawText children) + 1) 3 :=
      backticks_replicate_append _ (by simp)
    rwa [List.append_nil] at hempty
  have hcontent : ∀ line ∈ codeLines (collectRawText children),
      backticks line ≤ longestRun (collectRawText children) := by
    intro line hline
    unfold codeLines at hline
    split at hline
    · exact backticks_line_le (List.mem_of_mem_dropLast hline)
    · exact backticks_line_le hline
  constructor
  · have hlong : isFence (codeBlock children).opening = true := by
      rw [isFence, hopening]
      exact decide_eq_true (Nat.le_max_right _ _)
    rw [openingFenceLen_of_fence hlong, hopening]
  · intro line hline
    have hshort := hcontent line hline
    have hless : ¬ max (longestRun (collectRawText children) + 1) 3 ≤ backticks line := by omega
    show (decide (_ ≤ backticks line) && _) = false
    rw [decide_eq_false hless, Bool.false_and]
  · rfl
  · have hdrop : (codeFence (collectRawText children)).drop
        (backticks (codeFence (collectRawText children))) = [] := by
      rw [hfence, codeFence_eq]
      exact List.drop_of_length_le (by rw [List.length_replicate])
    show (decide (_ ≤ backticks (codeFence _)) &&
      (trim ((codeFence _).drop (backticks (codeFence _)))).isEmpty) = true
    rw [hdrop, hfence, decide_eq_true (Nat.le_refl _)]
    rfl
  · have hticks : ∀ c ∈ codeFence (collectRawText children), isWhitespace c = false := by
      intro c hc
      rw [List.eq_of_mem_replicate hc]
      exact isWhitespace_backtick
    exact ⟨fun c hc => hticks c (List.mem_of_head? hc), fun c hc => hticks c (List.mem_of_getLast? hc)⟩
  · intro hnil
    have hlength := congrArg List.length hnil
    rw [codeFence_eq, List.length_replicate, List.length_nil] at hlength
    omega

theorem Orderly.layout {blocks : List Block} (h : Orderly blocks) :
    Layout (documentLines blocks) (blocks.filterMap Block.code?) := by
  have hblock : ∀ block ∈ blocks,
      Layout (block.text.splitOn '\n') ([block].filterMap Block.code?) := by
    intro block hmem
    cases block with
    | pre children =>
      rw [Block.text, splitOn_renderPre, ← List.append_nil (codeBlock children).lines]
      exact .code (codeBlock_closed (h.hints children hmem)) .nil
    | prose text =>
      exact .of_prose fun line hline =>
        h.prose line (List.mem_flatMap.mpr ⟨.prose text, hmem, hline⟩)
  have hempty : Layout [[]] [] := .prose rfl .nil
  clear h
  induction blocks with
  | nil => exact hempty
  | cons block blocks ih =>
    have hfirst := hblock block List.mem_cons_self
    have hrest := ih fun other hother => hblock other (List.mem_cons_of_mem _ hother)
    cases blocks with
    | nil => exact hfirst
    | cons next more =>
      have hlines : documentLines (block :: next :: more) =
          block.text.splitOn '\n' ++ ([[]] ++ documentLines (next :: more)) :=
        List.append_assoc _ _ _
      have hcodes : (block :: next :: more).filterMap Block.code? =
          [block].filterMap Block.code? ++ (next :: more).filterMap Block.code? :=
        List.filterMap_append (l := [block])
      rw [hlines, hcodes]
      exact hfirst.append (hempty.append hrest)

/-- **Keeping code**: the blocks that are found are those of the page exactly when no hint starts
    with a backtick, no line of the prose starts with three, and none does once the white space in
    front of the text is gone. -/
theorem keepsCode_iff (blocks : List Block) : KeepsCode blocks ↔ Orderly blocks := by
  have hlines := splitOn_joinBlocks blocks
  constructor
  · intro h
    unfold KeepsCode at h
    have hcount : fences ((joinBlocks (blocks.map Block.text)).splitOn '\n') =
        fences (documentLines blocks) + if opensLate (documentLines blocks) then 1 else 0 := by
      have htidy : fences (tidyLines (normalizeLines none 0 (documentLines blocks))) =
          fences (documentLines blocks) + if opensLate (documentLines blocks) then 1 else 0 := by
        rw [tidyLines, fences_endLines, fences_startLines, fences_normalizeLines,
          opensLate_normalizeLines]
      rw [hlines, ← htidy]
      split
      · rename_i hnil
        rw [hnil]
        rfl
      · rfl
    -- what is found has all lines that may open a fence, so the prose has none
    have hfound := fences_readCode none ((joinBlocks (blocks.map Block.text)).splitOn '\n')
    rw [h, hcount, fences_documentLines] at hfound
    have hnone : fences (proseLines blocks) = 0 ∧ opensLate (documentLines blocks) = false := by
      cases hlate : opensLate (documentLines blocks) with
      | true =>
        rw [hlate, if_pos rfl] at hfound
        have hzero : fences (pending none) = 0 := rfl
        omega
      | false =>
        rw [hlate, if_neg Bool.false_ne_true] at hfound
        have hzero : fences (pending none) = 0 := rfl
        exact ⟨by omega, rfl⟩
    refine ⟨?_, ?_, hnone.2⟩
    · intro children hmem hhint
      have hcode : codeBlock children ∈ readCode none
          ((joinBlocks (blocks.map Block.text)).splitOn '\n') := by
        rw [h]
        exact List.mem_filterMap.mpr ⟨.pre children, hmem, rfl⟩
      obtain ⟨len, hopen, hclose⟩ := closing_of_mem_readCode
        (fun len opening content heq => by cases heq) hcode rfl
      -- the closing fence is shorter than the run that the hint makes longer
      have hclosed : len ≤ backticks (codeFence (collectRawText children)) :=
        of_decide_eq_true (Bool.and_eq_true_iff.mp hclose).1
      have hshort : backticks (codeFence (collectRawText children)) ≤
          (codeFence (collectRawText children)).length := (List.takeWhile_prefix _).length_le
      have hopened : len = backticks (codeBlock children).opening := by
        unfold openingFenceLen at hopen
        dsimp only at hopen
        split at hopen
        · exact (Option.some.inj hopen).symm
        · cases hopen
      have hlong : (codeFence (collectRawText children)).length <
          backticks (codeFence (collectRawText children) ++ languageHint children) :=
        backticks_codeFence_append hhint
      have hopening : (codeBlock children).opening =
          codeFence (collectRawText children) ++ languageHint children := rfl
      rw [hopening] at hopened
      omega
    · intro line hline
      have hzero := List.countP_eq_zero.mp hnone.1 line hline
      rwa [Bool.not_eq_true] at hzero
  · intro h
    have hlate : opensLate (normalizeLines none 0 (documentLines blocks)) = false := by
      rw [opensLate_normalizeLines]
      exact h.first
    have htidy := ((h.layout.normalizeLines 0).startLines hlate).endLines
    unfold KeepsCode
    rw [hlines]
    split
    · rename_i hnil
      rw [tidyLines] at hnil
      rw [hnil] at htidy
      exact htidy.readCode
    · exact htidy.readCode

/-- A paragraph that shows a fence, and a code block behind it. -/
def fencedProse : List Block := [.prose "```".toList, .pre [.text "x".toList]]

/-- The reader takes the fence of the paragraph for an opening one. -/
theorem not_keepsCode : ¬ KeepsCode fencedProse := by
  unfold KeepsCode
  decide

end Basecrawl.Core.Markdown
