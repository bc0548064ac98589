/-
  Python's `str.splitlines`, and the lines of a file.

  A file has lines that end at a line feed, and keep it here (`rawLines`).  Python ends a line at
  other characters as well, so each line of the file is one or several of Python's: those of the
  whole text are those of its lines, in turn (`splitlines_rawLines`).
-/
import Basecrawl.Lib.Chars
import Basecrawl.Lib.PyText

namespace Basecrawl.PyLines

open Chars PyText

/-- The ends of a line for `str.splitlines`. -/
def isLineBreak (c : Char) : Bool :=
  let n := c.toNat
  (0x0a ≤ n && n ≤ 0x0d) || (0x1c ≤ n && n ≤ 0x1e) || n == 0x85 || n == 0x2028 || n == 0x2029

/-- Put a character in front of the first line. -/
def inFront (c : Char) : List Chars → List Chars
  | [] => [[c]]
  | line :: more => (c :: line) :: more

/-- `str.splitlines()`. -/
def splitlines : Chars → List Chars
  | [] => []
  | c :: rest =>
    if c = '\r' ∧ rest.head? = some '\n' then splitlines rest
    else if isLineBreak c then [] :: splitlines rest
    else inFront c (splitlines rest)

/-- The lines of a file, with their ends. -/
def rawLines : Chars → List Chars
  | [] => []
  | c :: rest => if c = '\n' then [c] :: rawLines rest else inFront c (rawLines rest)

/-- The maximal runs of `\S`. -/
def words (line : Chars) : List Chars := (line.splitOnP isSpace).filter (!·.isEmpty)

theorem splitlines_ne_nil {text : Chars} (h : text ≠ []) : splitlines text ≠ [] := by
  induction text with
  | nil => exact absurd rfl h
  | cons c rest ih =>
    rw [splitlines]
    split
    · -- a return in front of a line feed is part of the end of that line
      rename_i hpair
      apply ih
      intro hnil
      rw [hnil] at hpair
      cases hpair.2
    split
    · exact List.cons_ne_nil _ _
    · cases splitlines rest with
      | nil => exact List.cons_ne_nil _ _
      | cons line more => exact List.cons_ne_nil _ _

theorem flatten_inFront (c : Char) (list : List Chars) :
    (inFront c list).flatten = c :: list.flatten := by
  cases list with
  | nil => rfl
  | cons line more => rfl

theorem rawLines_flatten (text : Chars) : (rawLines text).flatten = text := by
  induction text with
  | nil => rfl
  | cons c rest ih =>
    rw [rawLines]
    split
    · rw [List.flatten_cons, ih]
      rfl
    · rw [flatten_inFront, ih]

theorem ne_nil_of_mem_rawLines {text line : Chars} (h : line ∈ rawLines text) : line ≠ [] := by
  induction text generalizing line with
  | nil => cases h
  | cons c rest ih =>
    rw [rawLines] at h
    split at h
    · rcases List.mem_cons.mp h with rfl | h
      · exact List.cons_ne_nil _ _
      · exact ih h
    · cases hlines : rawLines rest with
      | nil =>
        rw [hlines] at h
        rw [List.mem_singleton.mp h]
        exact List.cons_ne_nil _ _
      | cons first more =>
        rw [hlines] at h
        rcases List.mem_cons.mp h with rfl | h
        · exact List.cons_ne_nil _ _
        · exact ih (hlines ▸ List.mem_cons_of_mem _ h)

/-- A character in front of a line that is not empty goes into the first of its lines. -/
theorem splitlines_cons_append (c : Char) {line : Chars} (hline : line ≠ [])
    {rest : Chars} {more : List Chars} (h : splitlines (line ++ rest) = splitlines line ++ more) :
    splitlines (c :: (line ++ rest)) = splitlines (c :: line) ++ more := by
  obtain ⟨first, behind, rfl⟩ := List.exists_cons_of_ne_nil hline
  rw [splitlines, splitlines, h]
  have hhead : (first :: behind ++ rest).head? = (first :: behind).head? := rfl
  by_cases hpair : c = '\r' ∧ (first :: behind).head? = some '\n'
  · rw [if_pos hpair, if_pos (hhead ▸ hpair)]
  rw [if_neg hpair, if_neg (hhead ▸ hpair)]
  by_cases hbreak : isLineBreak c = true
  · rw [if_pos hbreak, if_pos hbreak]
    rfl
  · rw [if_neg hbreak, if_neg hbreak]
    cases hsplit : splitlines (first :: behind) with
    | nil => exact absurd hsplit (splitlines_ne_nil (List.cons_ne_nil _ _))
    | cons one others => rfl

/-- **The lines of a text** are those of the lines of the file. -/
theorem splitlines_rawLines (text : Chars) :
    splitlines text = (rawLines text).flatMap splitlines := by
  induction text with
  | nil => rfl
  | cons c rest ih =>
    rw [rawLines]
    split
    · rename_i hend
      rw [List.flatMap_cons, ← ih, hend]
      rfl
    · have hflatten := rawLines_flatten rest
      cases hlines : rawLines rest with
      | nil =>
        rw [hlines] at hflatten
        rw [← hflatten]
        exact (List.append_nil _).symm
      | cons line more =>
        rw [hlines, List.flatten_cons] at hflatten
        rw [hlines, List.flatMap_cons, ← hflatten] at ih
        have hline : line ≠ [] := ne_nil_of_mem_rawLines (hlines ▸ List.mem_cons_self)
        rw [← hflatten, splitlines_cons_append c hline ih]
        rfl

end Basecrawl.PyLines
