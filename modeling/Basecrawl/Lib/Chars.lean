/-
  Text as a list of characters: the operations of `str` that cut, join and replace.

  1. **White ends** — `trim` does not see what is white at either end (`trim_append`), and leaves
     alone what has no white end (`trim_of_solid`); what it leaves has none (`solid_trim`).
  2. **Replacing** — what a replacement does character by character.
  3. **Ends of a kind** — `trimWith` cuts one kind of characters off both ends; a wider kind cuts off
     what a narrower one left (`trimWith_trimWith`), and not the other way around.
  4. **Ink** — the characters that are not white, which splitting and joining keep in order
     (`flatten_splitOnP`, `ink_intercalate`).
-/
import Mathlib.Data.List.TakeWhile
import Basecrawl.Lib.Text

namespace Basecrawl

/-- A text, by its characters. -/
abbrev Chars := List Char

namespace Chars

open Text

/-- `str::trim_start`. -/
def trimStart (cs : Chars) : Chars := cs.dropWhile isWhitespace

/-- `str::trim_end`. -/
def trimEnd (cs : Chars) : Chars := (cs.reverse.dropWhile isWhitespace).reverse

/-- `str::trim`. -/
def trim (cs : Chars) : Chars := trimEnd (trimStart cs)

/-- `str::replace` of a character. -/
def replaceChar (pat : Char) (rep cs : Chars) : Chars :=
  cs.flatMap fun c => if c = pat then rep else [c]

/-- `str::lines`: pieces ended by a line feed, without a carriage return before it. -/
def lines (cs : Chars) : List Chars :=
  let pieces := cs.splitOn '\n'
  let ended := pieces.dropLast.map fun piece =>
    if piece.getLast? = some '\r' then piece.dropLast else piece
  match pieces.getLast? with
  | none | some [] => ended
  | some last => ended ++ [last]

/-! ## White ends -/

/-- White space alone. -/
def Blank (cs : Chars) : Prop := ∀ c ∈ cs, isWhitespace c = true

/-- No white space at either end. -/
structure Solid (cs : Chars) : Prop where
  head : ∀ c, cs.head? = some c → isWhitespace c = false
  last : ∀ c, cs.getLast? = some c → isWhitespace c = false

theorem dropWhile_of_head {p : Char → Bool} {cs : Chars}
    (h : ∀ c, cs.head? = some c → p c = false) : cs.dropWhile p = cs := by
  cases cs with
  | nil => rfl
  | cons c cs => exact List.dropWhile_cons_of_neg (by simp [h c rfl])

theorem head_dropWhile {p : Char → Bool} {cs : Chars} {c : Char}
    (h : (cs.dropWhile p).head? = some c) : p c = false := by
  induction cs with
  | nil => cases h
  | cons d cs ih =>
    cases hd : p d with
    | true =>
      rw [List.dropWhile_cons_of_pos hd] at h
      exact ih h
    | false =>
      rw [List.dropWhile_cons_of_neg (by simp [hd])] at h
      cases h
      exact hd

theorem trimStart_append {pre : Chars} (h : Blank pre) (cs : Chars) :
    trimStart (pre ++ cs) = trimStart cs :=
  List.dropWhile_append_of_pos h

theorem trimEnd_append {post : Chars} (h : Blank post) (cs : Chars) :
    trimEnd (cs ++ post) = trimEnd cs := by
  rw [trimEnd, List.reverse_append,
    List.dropWhile_append_of_pos fun c hc => h c (List.mem_reverse.mp hc), trimEnd]

theorem trimEnd_blank {cs : Chars} (h : Blank cs) : trimEnd cs = [] := by
  have hall : cs.reverse.dropWhile isWhitespace = [] :=
    List.dropWhile_eq_nil_iff.mpr fun c hc => h c (List.mem_reverse.mp hc)
  rw [trimEnd, hall]
  rfl

theorem Solid.trimStart {cs : Chars} (h : Solid cs) : trimStart cs = cs := dropWhile_of_head h.head

theorem Solid.trimEnd {cs : Chars} (h : Solid cs) : trimEnd cs = cs := by
  have hkeep : cs.reverse.dropWhile isWhitespace = cs.reverse :=
    dropWhile_of_head fun c hc => h.last c (List.head?_reverse ▸ hc)
  rw [Chars.trimEnd, hkeep, List.reverse_reverse]

/-- Between white ends a solid text is what is left. -/
theorem Solid.trim_append {pre cs post : Chars} (h : Solid cs) (hpre : Blank pre)
    (hpost : Blank post) : trim (pre ++ cs ++ post) = cs := by
  unfold trim
  rw [List.append_assoc, trimStart_append hpre]
  cases cs with
  | nil =>
    show Chars.trimEnd (Chars.trimStart post) = []
    exact trimEnd_blank fun c hc => hpost c ((List.dropWhile_suffix _).subset hc)
  | cons c cs =>
    have hstart : Chars.trimStart (c :: cs ++ post) = c :: cs ++ post :=
      dropWhile_of_head fun d hd => h.head d hd
    rw [hstart, trimEnd_append hpost, h.trimEnd]

theorem head_trimEnd {cs : Chars} {c : Char} (h : (trimEnd cs).head? = some c) :
    cs.head? = some c := by
  have hsplit : cs = trimEnd cs ++ (cs.reverse.takeWhile isWhitespace).reverse := by
    rw [trimEnd, ← List.reverse_append, List.takeWhile_append_dropWhile, List.reverse_reverse]
  rw [hsplit, List.head?_append, h]
  rfl

theorem solid_trim (cs : Chars) : Solid (trim cs) where
  head := fun _ h => head_dropWhile (head_trimEnd h)
  last := by
    intro c h
    rw [trim, trimEnd, List.getLast?_reverse] at h
    exact head_dropWhile h

/-! ## Replacing -/

section

variable {pat : Char} {rep : Chars}

@[simp] theorem replaceChar_nil : replaceChar pat rep [] = [] := rfl

theorem replaceChar_cons_self (cs : Chars) :
    replaceChar pat rep (pat :: cs) = rep ++ replaceChar pat rep cs := by
  rw [replaceChar, List.flatMap_cons, if_pos rfl]
  rfl

theorem replaceChar_cons_ne {c : Char} (h : c ≠ pat) (cs : Chars) :
    replaceChar pat rep (c :: cs) = c :: replaceChar pat rep cs := by
  rw [replaceChar, List.flatMap_cons, if_neg h]
  rfl

theorem replaceChar_append (cs ds : Chars) :
    replaceChar pat rep (cs ++ ds) = replaceChar pat rep cs ++ replaceChar pat rep ds :=
  List.flatMap_append

/-- A solid text stays solid when what is put in its place is, or when what is replaced is white. -/
theorem Solid.replaceChar {cs : Chars} (h : Solid cs)
    (hrep : isWhitespace pat = true ∨ rep ≠ [] ∧ Solid rep) : Solid (replaceChar pat rep cs) := by
  have hkeep : ∀ c, isWhitespace c = false →
      ∃ ds, (if c = pat then rep else [c]) = ds ∧ ds ≠ [] ∧ Solid ds := by
    intro c hc
    refine ⟨_, rfl, ?_⟩
    split
    · rename_i hpat
      rcases hrep with hwhite | hrep
      · rw [hpat, hwhite] at hc
        cases hc
      · exact hrep
    · refine ⟨List.cons_ne_nil _ _, ⟨fun d hd => ?_, fun d hd => ?_⟩⟩
      · cases hd
        exact hc
      · cases hd
        exact hc
  constructor
  · intro d hd
    cases cs with
    | nil => cases hd
    | cons c cs =>
      obtain ⟨ds, hds, hne, hsolid⟩ := hkeep c (h.head c rfl)
      rw [Chars.replaceChar, List.flatMap_cons, hds] at hd
      rw [List.head?_append_of_ne_nil _ hne] at hd
      exact hsolid.head d hd
  · intro d hd
    rcases List.eq_nil_or_concat cs with rfl | ⟨front, c, rfl⟩
    · cases hd
    · obtain ⟨ds, hds, hne, hsolid⟩ := hkeep c (h.last c (by simp))
      rw [List.concat_eq_append, replaceChar_append] at hd
      have hone : Chars.replaceChar pat rep [c] = ds := by
        rw [Chars.replaceChar, List.flatMap_singleton, hds]
      rw [hone, List.getLast?_append_of_ne_nil _ hne] at hd
      exact hsolid.last d hd

end

/-! ## Ends of a kind -/

/-- `str::trim_matches`. -/
def trimWith (p : Char → Bool) (cs : Chars) : Chars :=
  ((cs.dropWhile p).reverse.dropWhile p).reverse

theorem trim_eq_trimWith (cs : Chars) : trim cs = trimWith isWhitespace cs := rfl

section

variable {p q : Char → Bool}

theorem trimWith_append_left {pre : Chars} (h : ∀ c ∈ pre, p c = true) (cs : Chars) :
    trimWith p (pre ++ cs) = trimWith p cs := by
  rw [trimWith, List.dropWhile_append_of_pos h, trimWith]

theorem trimWith_append_right {post : Chars} (h : ∀ c ∈ post, p c = true) (cs : Chars) :
    trimWith p (cs ++ post) = trimWith p cs := by
  rw [trimWith, trimWith, List.dropWhile_append]
  cases hcs : cs.dropWhile p with
  | nil =>
    rw [List.isEmpty_nil, if_pos rfl, List.dropWhile_eq_nil_iff.mpr h]
  | cons c rest =>
    rw [List.isEmpty_cons, if_neg Bool.false_ne_true, List.reverse_append,
      List.dropWhile_append_of_pos fun d hd => h d (List.mem_reverse.mp hd)]

/-- What is cut off is of the kind. -/
theorem exists_trimWith (p : Char → Bool) (cs : Chars) : ∃ pre post,
    cs = pre ++ trimWith p cs ++ post ∧ (∀ c ∈ pre, p c = true) ∧ ∀ c ∈ post, p c = true := by
  refine ⟨cs.takeWhile p, ((cs.dropWhile p).reverse.takeWhile p).reverse, ?_,
    fun c hc => List.mem_takeWhile_imp hc,
    fun c hc => List.mem_takeWhile_imp (List.mem_reverse.mp hc)⟩
  rw [trimWith, List.append_assoc, ← List.reverse_append, List.takeWhile_append_dropWhile,
    List.reverse_reverse, List.takeWhile_append_dropWhile]

theorem trimWith_subset (p : Char → Bool) (cs : Chars) : trimWith p cs ⊆ cs := by
  obtain ⟨pre, post, hcs, -⟩ := exists_trimWith p cs
  intro c hc
  rw [hcs]
  exact List.mem_append_left _ (List.mem_append_right _ hc)

theorem mem_trimWith {cs : Chars} {c : Char} (hc : c ∈ cs) (hp : p c = false) :
    c ∈ trimWith p cs := by
  obtain ⟨pre, post, hcs, hpre, hpost⟩ := exists_trimWith p cs
  have hout : ∀ ds : Chars, (∀ d ∈ ds, p d = true) → c ∉ ds := by
    intro ds hds hmem
    rw [hds c hmem] at hp
    cases hp
  rw [hcs, List.append_assoc] at hc
  rcases List.mem_append.mp hc with hc | hc
  · exact absurd hc (hout pre hpre)
  rcases List.mem_append.mp hc with hc | hc
  · exact hc
  · exact absurd hc (hout post hpost)

/-- A wider kind cuts off what a narrower one would. -/
theorem trimWith_trimWith (h : ∀ c, p c = true → q c = true) (cs : Chars) :
    trimWith q (trimWith p cs) = trimWith q cs := by
  obtain ⟨pre, post, hcs, hpre, hpost⟩ := exists_trimWith p cs
  conv_rhs => rw [hcs]
  rw [trimWith_append_right fun c hc => h c (hpost c hc),
    trimWith_append_left fun c hc => h c (hpre c hc)]

theorem head_trimWith {cs : Chars} {c : Char} (h : (trimWith p cs).head? = some c) :
    p c = false := by
  have hsplit : cs.dropWhile p =
      trimWith p cs ++ ((cs.dropWhile p).reverse.takeWhile p).reverse := by
    rw [trimWith, ← List.reverse_append, List.takeWhile_append_dropWhile, List.reverse_reverse]
  have hhead : (cs.dropWhile p).head? = some c := by
    rw [hsplit, List.head?_append, h]
    rfl
  exact head_dropWhile hhead

theorem last_trimWith {cs : Chars} {c : Char} (h : (trimWith p cs).getLast? = some c) :
    p c = false := by
  rw [trimWith, List.getLast?_reverse] at h
  exact head_dropWhile h

/-- After a wider kind there is nothing left for a narrower one. -/
theorem trimWith_of_wider (h : ∀ c, p c = true → q c = true) (cs : Chars) :
    trimWith p (trimWith q cs) = trimWith q cs := by
  have hnot : ∀ c, q c = false → p c = false := by
    intro c hq
    cases hp : p c with
    | false => rfl
    | true =>
      rw [h c hp] at hq
      cases hq
  have hhead : (trimWith q cs).dropWhile p = trimWith q cs :=
    dropWhile_of_head fun c hc => hnot c (head_trimWith hc)
  have hlast : (trimWith q cs).reverse.dropWhile p = (trimWith q cs).reverse :=
    dropWhile_of_head fun c hc => hnot c (last_trimWith (List.head?_reverse ▸ hc))
  conv_lhs => rw [trimWith]
  rw [hhead, hlast, List.reverse_reverse]

end

/-! ## Ink -/

/-- The characters that are not white. -/
def ink (cs : Chars) : Chars := cs.filter fun c => !isWhitespace c

@[simp] theorem ink_nil : ink [] = [] := rfl

@[simp] theorem ink_append (cs ds : Chars) : ink (cs ++ ds) = ink cs ++ ink ds :=
  List.filter_append _ _

theorem ink_blank {cs : Chars} (h : Blank cs) : ink cs = [] :=
  List.filter_eq_nil_iff.mpr fun c hc => by simp [h c hc]

theorem mem_ink {cs : Chars} {c : Char} : c ∈ ink cs ↔ c ∈ cs ∧ isWhitespace c = false := by
  rw [ink, List.mem_filter, Bool.not_eq_true']

/-- Splitting drops the separators, and nothing else. -/
theorem flatten_splitOnP (p : Char → Bool) (cs : Chars) :
    (cs.splitOnP p).flatten = cs.filter fun c => !p c := by
  induction cs with
  | nil => rfl
  | cons c cs ih =>
    rw [List.splitOnP_cons_eq_if_modifyHead]
    cases hc : p c with
    | true =>
      rw [if_pos rfl, List.flatten_cons, List.nil_append, ih,
        List.filter_cons_of_neg (by simp [hc])]
    | false =>
      obtain ⟨piece, rest, hsplit⟩ := List.exists_cons_of_ne_nil (List.splitOnP_ne_nil p cs)
      rw [hsplit, List.flatten_cons] at ih
      rw [if_neg Bool.false_ne_true, hsplit, List.modifyHead_cons, List.flatten_cons,
        List.cons_append, ih, List.filter_cons_of_pos (by simp [hc])]

/-- Joining with white separators adds no ink. -/
theorem ink_intercalate {sep : Chars} (h : Blank sep) (pieces : List Chars) :
    ink (sep.intercalate pieces) = ink pieces.flatten := by
  induction pieces with
  | nil => rfl
  | cons piece pieces ih =>
    cases pieces with
    | nil => rw [List.intercalate_singleton, List.flatten_singleton]
    | cons next pieces =>
      rw [List.intercalate_cons_cons, ink_append, ink_append, ih, ink_blank h, List.append_nil,
        ← ink_append]
      rfl

theorem flatten_filter_isEmpty (pieces : List Chars) :
    (pieces.filter (!·.isEmpty)).flatten = pieces.flatten := by
  induction pieces with
  | nil => rfl
  | cons piece pieces ih =>
    cases piece with
    | nil => exact ih
    | cons c piece =>
      rw [List.filter_cons_of_pos rfl, List.flatten_cons, List.flatten_cons, ih]

/-- Splitting at white characters loses no ink. -/
theorem ink_flatten_splitOnP {p : Char → Bool} (h : ∀ c, p c = true → isWhitespace c = true)
    (cs : Chars) : ink (cs.splitOnP p).flatten = ink cs := by
  rw [flatten_splitOnP, ink, List.filter_filter]
  refine List.filter_congr fun c _ => ?_
  cases hc : p c with
  | true => rw [h c hc]; rfl
  | false => rw [Bool.not_false, Bool.and_true]

end Chars

namespace Text

theorem solid_trim_toList (s : String) : Chars.Solid (trim s).toList := by
  rw [trim, String.toList_ofList]
  exact Chars.solid_trim s.toList

theorem trim_solid {s : String} (h : Chars.Solid s.toList) : trim s = s := by
  have htrim : Chars.trim ([] ++ s.toList ++ []) = s.toList :=
    h.trim_append (fun c hc => (List.not_mem_nil hc).elim) fun c hc => (List.not_mem_nil hc).elim
  rw [List.nil_append, List.append_nil] at htrim
  show String.ofList (Chars.trim s.toList) = s
  rw [htrim, String.ofList_toList]

end Text
end Basecrawl
