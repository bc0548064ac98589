/-
  Reading a line of a text file: its comment, its name and its value.

  1. **White ends** — `trim` does not see what is white at either end (`trim_append_left`,
     `trim_append_right`).
  2. **A name and a value** — a line is trimmed and then cut at its first separator; the parts, each
     trimmed, are the parts of the untrimmed line (`splitOnce_trim`).
  3. **Comments** — `headD_split`: what stands in front of a comment.
  4. **The first line** — the whole text, or what stands in front of its first line feed
     (`lines_single`, `headD_lines`).
-/
import Mathlib.Data.List.TakeWhile
import Basecrawl.Lib.Text

namespace Basecrawl.Text

/-- White space alone. -/
def Blank (s : String) : Prop := ∀ c ∈ s.toList, isWhitespace c = true

/-! ## White ends -/

theorem dropWhile_append_cons {α : Type} {p : α → Bool} {b : α} (hb : p b = false)
    (as bs : List α) : (as ++ b :: bs).dropWhile p = as.dropWhile p ++ b :: bs := by
  induction as with
  | nil => exact List.dropWhile_cons_of_neg (by simp [hb])
  | cons a as ih =>
    rw [List.cons_append]
    cases ha : p a with
    | true => rw [List.dropWhile_cons_of_pos ha, List.dropWhile_cons_of_pos ha, ih]
    | false =>
      rw [List.dropWhile_cons_of_neg (by simp [ha]), List.dropWhile_cons_of_neg (by simp [ha]),
        List.cons_append]

theorem trim_append_left {pre s : String} (h : Blank pre) : trim (pre ++ s) = trim s := by
  rw [trim, String.toList_append, List.dropWhile_append_of_pos h, trim]

theorem trim_append_right {s post : String} (h : Blank post) : trim (s ++ post) = trim s := by
  rw [trim, trim, String.toList_append, List.dropWhile_append]
  have hpost : post.toList.dropWhile isWhitespace = [] :=
    List.dropWhile_eq_nil_iff.mpr h
  cases hs : s.toList.dropWhile isWhitespace with
  | nil => rw [List.isEmpty_nil, if_pos rfl, hpost]
  | cons c cs =>
    rw [List.isEmpty_cons, if_neg Bool.false_ne_true, List.reverse_append,
      List.dropWhile_append_of_pos fun d hd => h d (List.mem_reverse.mp hd)]

/-- What is left when the white characters in front are dropped. -/
theorem trim_dropWhile (s : String) : trim (String.ofList (s.toList.dropWhile isWhitespace)) =
    trim s := by
  have hsplit : s = String.ofList (s.toList.takeWhile isWhitespace) ++
      String.ofList (s.toList.dropWhile isWhitespace) := by
    rw [← String.ofList_append, List.takeWhile_append_dropWhile, String.ofList_toList]
  have hblank : Blank (String.ofList (s.toList.takeWhile isWhitespace)) := by
    intro c hc
    rw [String.toList_ofList] at hc
    exact List.mem_takeWhile_imp hc
  rw [← trim_append_left hblank, ← hsplit]

theorem trim_dropWhile_end (s : String) :
    trim (String.ofList (s.toList.reverse.dropWhile isWhitespace).reverse) = trim s := by
  have hsplit : s = String.ofList (s.toList.reverse.dropWhile isWhitespace).reverse ++
      String.ofList (s.toList.reverse.takeWhile isWhitespace).reverse := by
    rw [← String.ofList_append, ← List.reverse_append, List.takeWhile_append_dropWhile,
      List.reverse_reverse, String.ofList_toList]
  have hblank : Blank (String.ofList (s.toList.reverse.takeWhile isWhitespace).reverse) := by
    intro c hc
    rw [String.toList_ofList, List.mem_reverse] at hc
    exact List.mem_takeWhile_imp hc
  rw [← trim_append_right hblank, ← hsplit]

/-! ## A name and a value -/

theorem splitOnce_append {a b : String} {sep : Char} (h : sep ∉ a.toList) :
    splitOnce (a ++ String.singleton sep ++ b) sep = some (a, b) := by
  have hlist : (a ++ String.singleton sep ++ b).toList = a.toList ++ sep :: b.toList := by simp
  have hkeep : ∀ c ∈ a.toList, decide (c ≠ sep) = true := fun c hc =>
    decide_eq_true fun heq => h (heq ▸ hc)
  have htake : (a.toList ++ sep :: b.toList).takeWhile (fun c => decide (c ≠ sep)) = a.toList := by
    rw [List.takeWhile_append_of_pos hkeep, List.takeWhile_cons_of_neg (by simp), List.append_nil]
  have hdrop : (a.toList ++ sep :: b.toList).dropWhile (fun c => decide (c ≠ sep)) =
      sep :: b.toList := by
    rw [List.dropWhile_append_of_pos hkeep, List.dropWhile_cons_of_neg (by simp)]
  rw [splitOnce, hlist, if_pos (by simp), htake, hdrop, String.ofList_toList, List.drop_one,
    List.tail_cons, String.ofList_toList]

theorem splitOnce_eq_none {s : String} {sep : Char} (h : sep ∉ s.toList) :
    splitOnce s sep = none :=
  if_neg h

/-- **A line that is trimmed first** is cut at the same separator, into the same parts up to white
ends. -/
theorem splitOnce_trim {a b : String} {sep : Char} (hsep : isWhitespace sep = false)
    (ha : sep ∉ a.toList) :
    ∃ name value, splitOnce (trim (a ++ String.singleton sep ++ b)) sep = some (name, value) ∧
      trim name = trim a ∧ trim value = trim b := by
  have hlist : (a ++ String.singleton sep ++ b).toList = a.toList ++ sep :: b.toList := by simp
  have htrim : trim (a ++ String.singleton sep ++ b) =
      String.ofList (a.toList.dropWhile isWhitespace) ++ String.singleton sep ++
        String.ofList (b.toList.reverse.dropWhile isWhitespace).reverse := by
    apply String.toList_injective
    rw [trim, String.toList_ofList, hlist, dropWhile_append_cons hsep, List.reverse_append,
      List.reverse_cons, List.append_assoc, List.singleton_append, dropWhile_append_cons hsep,
      List.reverse_append, List.reverse_cons, List.reverse_reverse]
    simp
  have hname : sep ∉ (String.ofList (a.toList.dropWhile isWhitespace)).toList := by
    rw [String.toList_ofList]
    exact fun hmem => ha ((List.dropWhile_suffix _).subset hmem)
  refine ⟨_, _, ?_, trim_dropWhile a, trim_dropWhile_end b⟩
  rw [htrim, splitOnce_append hname]

theorem not_mem_trim {s : String} {c : Char} (h : c ∉ s.toList) : c ∉ (trim s).toList := by
  rw [trim, String.toList_ofList, List.mem_reverse]
  intro hmem
  have hmem' := (List.dropWhile_suffix _).subset hmem
  rw [List.mem_reverse] at hmem'
  exact h ((List.dropWhile_suffix _).subset hmem')

/-! ## Comments -/

/-- Nothing, or a comment to the end of the line. -/
def IsComment (mark : Char) (s : String) : Prop :=
  s = "" ∨ ∃ text, s = String.singleton mark ++ text

/-- What stands in front of a comment. -/
theorem headD_split {s comment : String} {mark : Char} (hs : mark ∉ s.toList)
    (hcomment : IsComment mark comment) : (split (s ++ comment) mark).headD "" = s := by
  rcases hcomment with rfl | ⟨text, rfl⟩
  · rw [String.append_empty, split_eq_singleton hs]
    rfl
  · rw [← String.append_assoc, split_append_cons hs]
    rfl

/-! ## The first line -/

/-- One line, without a line feed. -/
theorem lines_single {s : String} (h : '\n' ∉ s.toList) (hne : s ≠ "") : lines s = [s] := by
  have hlast : [s].getLast? = some s := rfl
  rw [lines, split_eq_singleton h]
  simp only [hlast]
  rfl

/-- A line that is ended by a line feed. -/
theorem headD_lines {a b : String} (h : '\n' ∉ a.toList) :
    (lines (a ++ String.singleton '\n' ++ b)).headD "" = (stripSuffix a '\r').getD a := by
  have hne : split b '\n' ≠ [] := by
    rw [split, ne_eq, List.map_eq_nil_iff]
    exact List.splitOn_ne_nil _ _
  obtain ⟨piece, pieces, hpieces⟩ := List.exists_cons_of_ne_nil hne
  rw [lines, split_append_cons h, hpieces]
  simp only [List.dropLast_cons_cons, List.map_cons]
  split
  · rfl
  · rfl
  · rfl

/-! ## Two lines -/

/-- Two lines, the last without a line feed. -/
theorem lines_two {a b : String} (ha : '\n' ∉ a.toList) (hcr : stripSuffix a '\r' = none)
    (hb : '\n' ∉ b.toList) (hne : b ≠ "") : lines (a ++ "\n" ++ b) = [a, b] := by
  have hnewline : "\n" = String.singleton '\n' := rfl
  have hpieces : split (a ++ "\n" ++ b) '\n' = [a, b] := by
    rw [hnewline, split_append_cons ha, split_eq_singleton hb]
  have hended : [a, b].dropLast.map (fun piece => (stripSuffix piece '\r').getD piece) = [a] := by
    show [(stripSuffix a '\r').getD a] = [a]
    rw [hcr]
    rfl
  have hlast : [a, b].getLast? = some b := rfl
  rw [lines, hpieces]
  simp only [hended, hlast]
  rfl

end Basecrawl.Text
