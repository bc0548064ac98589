/-
  Trimming a text, line by line.

  White lines at either end of a text go away as a whole, and the first and the last line that are
  left are trimmed on their outer side (`trim_terminated`); the lines of what is left are these
  (`splitOn_trim_terminated`).
-/
import Basecrawl.Lib.Chars
import Basecrawl.Lib.Framing

namespace Basecrawl.Chars

open Text Framing

/-- A line with nothing but white space. -/
def isBlankLine (line : Chars) : Bool := line.all isWhitespace

/-- The lines from the first one that is not blank on, which loses the white space in front. -/
def startLines : List Chars → List Chars
  | [] => []
  | line :: rest => if isBlankLine line then startLines rest else trimStart line :: rest

/-- The lines up to the last one that is not blank, which loses the white space behind. -/
def endLines : List Chars → List Chars
  | [] => []
  | line :: rest =>
      match endLines rest with
      | [] => if isBlankLine line then [] else [trimEnd line]
      | kept :: more => line :: kept :: more

/-- The lines of a trimmed text. -/
def tidyLines (list : List Chars) : List Chars := endLines (startLines list)

theorem isBlankLine_iff {line : Chars} : isBlankLine line = true ↔ Blank line := List.all_eq_true

theorem trimStart_append_of_not_blank {as : Chars} (h : isBlankLine as = false) (bs : Chars) :
    trimStart (as ++ bs) = trimStart as ++ bs := by
  unfold trimStart
  rw [List.dropWhile_append]
  have hne : as.dropWhile isWhitespace ≠ [] := by
    intro hnil
    have hblank : isBlankLine as = true := isBlankLine_iff.mpr (List.dropWhile_eq_nil_iff.mp hnil)
    rw [h] at hblank
    cases hblank
  rw [if_neg (by simpa using hne)]

theorem trimStart_blank {cs : Chars} (h : Blank cs) : trimStart cs = [] :=
  List.dropWhile_eq_nil_iff.mpr h

/-- White space in front of a text is lost line by line. -/
theorem trimStart_terminated (list : List Chars) :
    trimStart (terminated '\n' list) = terminated '\n' (startLines list) := by
  induction list with
  | nil => rfl
  | cons line rest ih =>
    rw [terminated_cons, startLines]
    cases hblank : isBlankLine line with
    | true =>
      have hfeed : Blank (line ++ ['\n']) := by
        intro c hc
        rcases List.mem_append.mp hc with hc | hc
        · exact isBlankLine_iff.mp hblank c hc
        · rw [List.mem_singleton.mp hc]
          rfl
      have hsplit : line ++ '\n' :: terminated '\n' rest =
          line ++ ['\n'] ++ terminated '\n' rest := by
        rw [List.append_assoc, List.singleton_append]
      rw [if_pos rfl, hsplit, trimStart_append hfeed, ih]
    | false =>
      rw [if_neg Bool.false_ne_true, trimStart_append_of_not_blank hblank, terminated_cons]

theorem trimEnd_append_of_ne_nil {as bs : Chars} (h : trimEnd bs ≠ []) :
    trimEnd (as ++ bs) = as ++ trimEnd bs := by
  unfold trimEnd at h ⊢
  rw [List.reverse_append, List.dropWhile_append, if_neg, List.reverse_append,
    List.reverse_reverse]
  intro hnil
  rw [List.isEmpty_iff.mp hnil] at h
  exact h rfl

theorem trimEnd_eq_nil {cs : Chars} (h : trimEnd cs = []) : Blank cs := by
  have hnil := List.reverse_eq_nil_iff.mp h
  exact fun c hc => List.dropWhile_eq_nil_iff.mp hnil c (List.mem_reverse.mpr hc)

theorem isBlankLine_trimEnd (line : Chars) : isBlankLine (trimEnd line) = isBlankLine line := by
  rw [Bool.eq_iff_iff, isBlankLine_iff, isBlankLine_iff]
  constructor
  · intro h
    by_cases hnil : trimEnd line = []
    · exact trimEnd_eq_nil hnil
    · have hlast := (List.getLast?_isSome.mpr hnil)
      obtain ⟨c, hc⟩ := Option.isSome_iff_exists.mp hlast
      have hwhite := h c (List.mem_of_getLast? hc)
      rw [trimEnd, List.getLast?_reverse] at hc
      rw [head_dropWhile hc] at hwhite
      cases hwhite
  · intro h
    rw [trimEnd_blank h]
    exact fun _ hc => (List.not_mem_nil hc).elim

/-- The two ends are trimmed in any order. -/
theorem trimStart_trimEnd (line : Chars) : trimStart (trimEnd line) = trimEnd (trimStart line) := by
  by_cases hnil : trimEnd (trimStart line) = []
  · have hblank : Blank line := by
      intro c hc
      rw [← List.takeWhile_append_dropWhile (p := isWhitespace) (l := line)] at hc
      rcases List.mem_append.mp hc with hc | hc
      · exact List.mem_takeWhile_imp hc
      · exact trimEnd_eq_nil hnil c hc
    rw [trimEnd_blank hblank, hnil]
    rfl
  · have hsplit : line = line.takeWhile isWhitespace ++ trimStart line :=
      (List.takeWhile_append_dropWhile).symm
    have hfront : Blank (line.takeWhile isWhitespace) := fun c hc => List.mem_takeWhile_imp hc
    conv_lhs => rw [hsplit, trimEnd_append_of_ne_nil hnil, trimStart_append hfront]
    exact dropWhile_of_head fun c hc => head_dropWhile (head_trimEnd hc)

/-- White space behind a text is lost line by line. -/
theorem trimEnd_terminated (list : List Chars) :
    trimEnd (terminated '\n' list) = ['\n'].intercalate (endLines list) ∧
      (trimEnd (terminated '\n' list) = [] ↔ endLines list = []) := by
  induction list with
  | nil => exact ⟨rfl, Iff.intro (fun _ => rfl) fun _ => rfl⟩
  | cons line rest ih =>
    obtain ⟨htext, hnil⟩ := ih
    have hsplit : line ++ '\n' :: terminated '\n' rest =
        line ++ (['\n'] ++ terminated '\n' rest) := rfl
    rw [terminated_cons, endLines, hsplit]
    cases hrest : endLines rest with
    | nil =>
      have hblank : Blank (['\n'] ++ terminated '\n' rest) := by
        intro c hc
        rcases List.mem_append.mp hc with hc | hc
        · rw [List.mem_singleton.mp hc]
          rfl
        · exact trimEnd_eq_nil (hnil.mpr hrest) c hc
      rw [trimEnd_append hblank]
      dsimp only
      cases hline : isBlankLine line with
      | true =>
        rw [if_pos rfl, trimEnd_blank (isBlankLine_iff.mp hline)]
        exact ⟨rfl, Iff.intro (fun _ => rfl) fun _ => rfl⟩
      | false =>
        rw [if_neg Bool.false_ne_true, List.intercalate_singleton]
        refine ⟨rfl, Iff.intro (fun heq => ?_) fun heq => ?_⟩
        · rw [isBlankLine_iff.mpr (trimEnd_eq_nil heq)] at hline
          cases hline
        · cases heq
    | cons kept more =>
      have hne : trimEnd (terminated '\n' rest) ≠ [] := by
        intro heq
        rw [hnil.mp heq] at hrest
        cases hrest
      have hfeed : trimEnd (['\n'] ++ terminated '\n' rest) =
          ['\n'] ++ trimEnd (terminated '\n' rest) := trimEnd_append_of_ne_nil hne
      have hne' : trimEnd (['\n'] ++ terminated '\n' rest) ≠ [] := by
        rw [hfeed]
        exact List.cons_ne_nil _ _
      rw [trimEnd_append_of_ne_nil hne', hfeed, htext, hrest]
      dsimp only
      rw [List.intercalate_cons_cons, List.append_assoc]
      refine ⟨rfl, Iff.intro (fun heq => ?_) fun heq => ?_⟩
      · have hlength := congrArg List.length heq
        simp at hlength
      · cases heq

theorem trim_terminated (list : List Chars) :
    trim (terminated '\n' list) = ['\n'].intercalate (tidyLines list) := by
  rw [trim, trimStart_terminated, (trimEnd_terminated _).1, tidyLines]

section

variable {c : Char}

theorem not_mem_startLines {list : List Chars} (h : ∀ line ∈ list, c ∉ line) :
    ∀ line ∈ startLines list, c ∉ line := by
  induction list with
  | nil => exact h
  | cons line rest ih =>
    rw [startLines]
    split
    · exact ih fun other hother => h other (List.mem_cons_of_mem _ hother)
    · intro other hother
      rcases List.mem_cons.mp hother with rfl | hother
      · exact fun hc => h line List.mem_cons_self ((List.dropWhile_suffix _).subset hc)
      · exact h other (List.mem_cons_of_mem _ hother)

theorem not_mem_endLines {list : List Chars} (h : ∀ line ∈ list, c ∉ line) :
    ∀ line ∈ endLines list, c ∉ line := by
  induction list with
  | nil => exact h
  | cons line rest ih =>
    have hrest := ih fun other hother => h other (List.mem_cons_of_mem _ hother)
    rw [endLines]
    split
    · split
      · exact fun _ hmem => (List.not_mem_nil hmem).elim
      · intro other hother
        rw [List.mem_singleton.mp hother]
        intro hc
        have hrev := (List.dropWhile_suffix _).subset (List.mem_reverse.mp hc)
        exact h line List.mem_cons_self (List.mem_reverse.mp hrev)
    · rename_i kept more hkept
      rw [hkept] at hrest
      intro other hother
      rcases List.mem_cons.mp hother with rfl | hother
      · exact h _ List.mem_cons_self
      · exact hrest other hother

end

/-- The lines of a text that is trimmed. -/
theorem splitOn_trim_terminated {list : List Chars} (h : ∀ line ∈ list, '\n' ∉ line) :
    (trim (terminated '\n' list)).splitOn '\n' =
      if tidyLines list = [] then [[]] else tidyLines list := by
  rw [trim_terminated]
  split
  · rename_i hnil
    rw [hnil]
    rfl
  · rename_i hne
    exact List.splitOn_intercalate '\n' (not_mem_endLines (not_mem_startLines h)) hne

end Basecrawl.Chars
