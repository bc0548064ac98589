/-
  Words that occur in a text, one after another.

  1. **Order** — `InOrder pieces text`: the pieces occur in the text, apart and in their order.
  2. **The cut** — a text that holds words can be cut at any white space between them
     (`InOrder.cut`), since no word goes across.
  3. **Keeping** — `KeepsWords s t`: what words occur in `s` still do in `t`; `Keeps s t`: and `t`
     has no other letters than `s`.  Both hold of what puts marks in the place of white space
     (`Respaced.keeps`), and of what is done to a text line by line (`Keeps.terminated`).
-/
import Basecrawl.Lib.Chars
import Basecrawl.Lib.Framing

namespace Basecrawl.Chars

open Text Framing

/-! ## Order -/

/-- The pieces occur in the text, apart and in their order. -/
def InOrder : List Chars → Chars → Prop
  | [], _ => True
  | piece :: pieces, text => ∃ pre post, text = pre ++ piece ++ post ∧ InOrder pieces post

/-- Pieces that have no white space, and are not empty. -/
def Words (pieces : List Chars) : Prop :=
  ∀ piece ∈ pieces, piece ≠ [] ∧ ∀ c ∈ piece, isWhitespace c = false

/-- `str::split_whitespace`. -/
def splitWhite (text : Chars) : List Chars := (text.splitOnP isWhitespace).filter (!·.isEmpty)

section

variable {ps qs : List Chars} {s t u : Chars}

theorem InOrder.before (pre : Chars) (h : InOrder ps t) : InOrder ps (pre ++ t) := by
  cases ps with
  | nil => trivial
  | cons piece pieces =>
    obtain ⟨front, post, rfl, hpost⟩ := h
    exact ⟨pre ++ front, post, by simp only [List.append_assoc], hpost⟩

theorem InOrder.after (post : Chars) (h : InOrder ps t) : InOrder ps (t ++ post) := by
  induction ps generalizing t with
  | nil => trivial
  | cons piece pieces ih =>
    obtain ⟨pre, back, rfl, hback⟩ := h
    exact ⟨pre, back ++ post, by simp only [List.append_assoc], ih hback⟩

theorem InOrder.append (hs : InOrder ps s) (ht : InOrder qs t) : InOrder (ps ++ qs) (s ++ t) := by
  induction ps generalizing s with
  | nil => exact ht.before s
  | cons piece pieces ih =>
    obtain ⟨pre, back, rfl, hback⟩ := hs
    exact ⟨pre, back ++ t, by simp only [List.append_assoc], ih hback⟩

/-- Fewer pieces occur in the same order. -/
theorem InOrder.sublist (hsub : qs.Sublist ps) (h : InOrder ps t) : InOrder qs t := by
  induction hsub generalizing t with
  | slnil => trivial
  | cons piece _ ih =>
    obtain ⟨pre, post, rfl, hpost⟩ := h
    exact (ih hpost).before (pre ++ piece)
  | cons_cons piece _ ih =>
    obtain ⟨pre, post, rfl, hpost⟩ := h
    exact ⟨pre, post, rfl, ih hpost⟩

theorem InOrder.single (piece : Chars) : InOrder [piece] piece :=
  ⟨[], [], (List.append_nil _).symm, trivial⟩

/-- A piece is no longer than the text it occurs in. -/
theorem InOrder.length_le {piece : Chars} (h : InOrder ps t) (hmem : piece ∈ ps) :
    piece.length ≤ t.length := by
  have hone : InOrder [piece] t := h.sublist (List.singleton_sublist.mpr hmem)
  obtain ⟨pre, post, rfl, -⟩ := hone
  simp only [List.length_append]
  omega

/-- The characters of the pieces occur in their order, too. -/
theorem InOrder.flatten_sublist (h : InOrder ps t) : ps.flatten.Sublist t := by
  induction ps generalizing t with
  | nil => exact List.nil_sublist t
  | cons piece pieces ih =>
    obtain ⟨pre, post, rfl, hpost⟩ := h
    rw [List.flatten_cons, List.append_assoc]
    exact ((List.Sublist.refl piece).append (ih hpost)).trans (List.sublist_append_right _ _)

theorem words_nil : Words [] := fun _ h => (List.not_mem_nil h).elim

theorem Words.of_cons {piece : Chars} (h : Words (piece :: ps)) : Words ps :=
  fun other hother => h other (List.mem_cons_of_mem _ hother)

theorem Words.append (hp : Words ps) (hq : Words qs) : Words (ps ++ qs) := by
  intro piece hmem
  rcases List.mem_append.mp hmem with hmem | hmem
  · exact hp piece hmem
  · exact hq piece hmem

theorem not_of_mem_splitOnP {p : Char → Bool} {text piece : Chars}
    (h : piece ∈ text.splitOnP p) : ∀ c ∈ piece, p c = false := by
  induction text generalizing piece with
  | nil =>
    rw [List.splitOnP_nil] at h
    rw [List.mem_singleton.mp h]
    exact fun c hc => (List.not_mem_nil hc).elim
  | cons d text ih =>
    obtain ⟨first, rest, hsplit⟩ := List.exists_cons_of_ne_nil (List.splitOnP_ne_nil p text)
    rw [List.splitOnP_cons_eq_if_modifyHead, hsplit] at h
    rw [hsplit] at ih
    cases hd : p d with
    | true =>
      rw [hd, if_pos rfl] at h
      rcases List.mem_cons.mp h with rfl | h
      · exact fun c hc => (List.not_mem_nil hc).elim
      · exact ih h
    | false =>
      rw [hd, if_neg Bool.false_ne_true, List.modifyHead_cons] at h
      rcases List.mem_cons.mp h with rfl | h
      · exact List.forall_mem_cons.mpr ⟨hd, ih List.mem_cons_self⟩
      · exact ih (List.mem_cons_of_mem _ h)

theorem words_splitWhite (text : Chars) : Words (splitWhite text) := by
  intro piece hmem
  obtain ⟨hpiece, hne⟩ := List.mem_filter.mp hmem
  refine ⟨by simpa using hne, ?_⟩
  exact not_of_mem_splitOnP hpiece

/-! ## The cut -/

/-- **The cut**: what is before a white character and what is behind it hold their own words. -/
theorem InOrder.cut {c : Char} (hwords : Words ps) (hc : isWhitespace c = true)
    (h : InOrder ps (s ++ c :: t)) :
    ∃ front back, ps = front ++ back ∧ InOrder front s ∧ InOrder back t := by
  induction ps generalizing s with
  | nil => exact ⟨[], [], rfl, trivial, trivial⟩
  | cons piece pieces ih =>
    obtain ⟨pre, post, heq, hpost⟩ := h
    obtain ⟨hne, hsolid⟩ := hwords piece List.mem_cons_self
    rw [List.append_assoc] at heq
    rcases List.append_eq_append_iff.mp heq with ⟨more, hpre, hrest⟩ | ⟨more, hs, hrest⟩
    · -- the first piece begins at the white character or behind it
      cases more with
      | nil =>
        obtain ⟨d, tail, hpiece⟩ := List.exists_cons_of_ne_nil hne
        rw [hpiece, List.nil_append, List.cons_append, List.cons.injEq] at hrest
        have hwhite := hsolid d (hpiece ▸ List.mem_cons_self)
        rw [← hrest.1, hc] at hwhite
        cases hwhite
      | cons d more =>
        rw [List.cons_append, List.cons.injEq] at hrest
        refine ⟨[], piece :: pieces, rfl, trivial, more, post, ?_, hpost⟩
        rw [hrest.2, List.append_assoc]
    · -- it begins before, so it ends before
      rcases List.append_eq_append_iff.mp hrest with ⟨tail, hmore, hback⟩ | ⟨tail, hpiece, hback⟩
      · rw [hback] at hpost
        obtain ⟨front, back, hsplit, hfront, hbehind⟩ := ih hwords.of_cons hpost
        refine ⟨piece :: front, back, by rw [hsplit]; rfl, ⟨pre, tail, ?_, hfront⟩, hbehind⟩
        rw [hs, hmore, List.append_assoc]
      · cases tail with
        | nil =>
          rw [List.nil_append] at hback
          rw [← hback] at hpost
          obtain ⟨front, back, hsplit, hfront, hbehind⟩ := ih (s := []) hwords.of_cons hpost
          refine ⟨piece :: front, back, by rw [hsplit]; rfl, ⟨pre, [], ?_, hfront⟩, hbehind⟩
          rw [hs, hpiece, List.append_nil, List.append_nil]
        | cons d tail =>
          rw [List.cons_append, List.cons.injEq] at hback
          have hwhite := hsolid d (hpiece ▸ List.mem_append_right _ List.mem_cons_self)
          rw [← hback.1, hc] at hwhite
          cases hwhite

end

/-! ## Words of a text -/

theorem inOrder_of_splitOnP {p : Char → Bool} {text first : Chars} {rest : List Chars}
    (h : text.splitOnP p = first :: rest) : ∃ post, text = first ++ post ∧ InOrder rest post := by
  induction text generalizing first rest with
  | nil =>
    rw [List.splitOnP_nil] at h
    cases h
    exact ⟨[], rfl, trivial⟩
  | cons c text ih =>
    obtain ⟨next, more, hsplit⟩ := List.exists_cons_of_ne_nil (List.splitOnP_ne_nil p text)
    obtain ⟨post, htext, hmore⟩ := ih hsplit
    rw [List.splitOnP_cons_eq_if_modifyHead, hsplit] at h
    cases hc : p c with
    | true =>
      rw [hc, if_pos rfl] at h
      cases h
      exact ⟨c :: text, rfl, [c], post, by rw [htext]; rfl, hmore⟩
    | false =>
      rw [hc, if_neg Bool.false_ne_true, List.modifyHead_cons] at h
      cases h
      exact ⟨post, by rw [htext]; rfl, hmore⟩

/-- The words of a text occur in it. -/
theorem inOrder_splitWhite (text : Chars) : InOrder (splitWhite text) text := by
  obtain ⟨first, rest, hsplit⟩ :=
    List.exists_cons_of_ne_nil (List.splitOnP_ne_nil isWhitespace text)
  obtain ⟨post, htext, hrest⟩ := inOrder_of_splitOnP hsplit
  have hall : InOrder (first :: rest) text := ⟨[], post, htext, hrest⟩
  rw [splitWhite, hsplit]
  exact hall.sublist List.filter_sublist

/-- A text without white space is one word. -/
theorem splitWhite_of_word {text : Chars} (hne : text ≠ [])
    (h : ∀ c ∈ text, isWhitespace c = false) : splitWhite text = [text] := by
  have hone : text.splitOnP isWhitespace = [text] := by
    clear hne
    induction text with
    | nil => rfl
    | cons c text ih =>
      obtain ⟨hc, hrest⟩ := List.forall_mem_cons.mp h
      rw [List.splitOnP_cons_eq_if_modifyHead, ih hrest, hc, if_neg Bool.false_ne_true]
      rfl
  rw [splitWhite, hone, List.filter_cons_of_pos (by simpa using hne)]
  rfl

/-! ## Letters -/

/-- A letter of ASCII. -/
def isLetter (c : Char) : Bool :=
  let n := c.toNat
  (0x41 ≤ n && n ≤ 0x5A) || (0x61 ≤ n && n ≤ 0x7A)

/-- The letters of a text. -/
def letters (text : Chars) : Chars := text.filter isLetter

@[simp] theorem letters_nil : letters [] = [] := rfl

@[simp] theorem letters_append (s t : Chars) : letters (s ++ t) = letters s ++ letters t :=
  List.filter_append _ _

theorem letters_cons (c : Char) (text : Chars) : letters (c :: text) = letters [c] ++ letters text :=
  letters_append [c] text

theorem isLetter_white {c : Char} (h : isWhitespace c = true) : isLetter c = false := by
  unfold isWhitespace at h
  unfold isLetter
  simp only [Bool.or_eq_true, Bool.and_eq_true, decide_eq_true_eq, beq_iff_eq] at h
  simp only [Bool.or_eq_false_iff, Bool.and_eq_false_iff, decide_eq_false_iff_not]
  omega

theorem letters_white {c : Char} (h : isWhitespace c = true) : letters [c] = [] :=
  List.filter_cons_of_neg (by rw [isLetter_white h]; exact Bool.false_ne_true)

theorem letters_replicate {c : Char} (h : isLetter c = false) (n : Nat) :
    letters (List.replicate n c) = [] :=
  List.filter_eq_nil_iff.mpr fun d hd => by
    rw [List.eq_of_mem_replicate hd, h]
    exact Bool.false_ne_true

theorem letters_flatten {list : List Chars} (h : ∀ text ∈ list, letters text = []) :
    letters list.flatten = [] := by
  induction list with
  | nil => rfl
  | cons text rest ih =>
    obtain ⟨htext, hrest⟩ := List.forall_mem_cons.mp h
    rw [List.flatten_cons, letters_append, htext, ih hrest]
    rfl

theorem letters_replaceChar {pat : Char} {rep : Chars} (hpat : letters [pat] = [])
    (hrep : letters rep = []) (text : Chars) : letters (replaceChar pat rep text) = letters text := by
  induction text with
  | nil => rfl
  | cons c text ih =>
    by_cases hc : c = pat
    · rw [hc, replaceChar_cons_self, letters_append, hrep, letters_cons pat, hpat, ih]
    · rw [replaceChar_cons_ne hc, letters_cons, ih, ← letters_cons]

theorem letters_intercalate {sep : Chars} (h : letters sep = []) (pieces : List Chars) :
    letters (sep.intercalate pieces) = letters pieces.flatten := by
  induction pieces with
  | nil => rfl
  | cons piece pieces ih =>
    cases pieces with
    | nil => rw [List.intercalate_singleton, List.flatten_singleton]
    | cons next pieces =>
      rw [List.intercalate_cons_cons, letters_append, letters_append, ih, h, List.append_nil,
        ← letters_append]
      rfl

theorem letters_splitWhite (text : Chars) : letters (splitWhite text).flatten = letters text := by
  rw [splitWhite, flatten_filter_isEmpty, flatten_splitOnP, letters, List.filter_filter]
  refine List.filter_congr fun c _ => ?_
  cases hc : isWhitespace c with
  | true => rw [isLetter_white hc]; rfl
  | false => rw [Bool.not_false, Bool.and_true]

/-! ## Keeping -/

/-- What words occur in `s` occur in `t`. -/
def KeepsWords (s t : Chars) : Prop := ∀ pieces, Words pieces → InOrder pieces s → InOrder pieces t

/-- What words occur in `s` occur in `t`, which has the letters of `s` and no others. -/
structure Keeps (s t : Chars) : Prop where
  words : KeepsWords s t
  letters : letters t = letters s

/-- `t` is `s` with marks in the place of some white characters. -/
inductive Respaced : Chars → Chars → Prop
  | nil : Respaced [] []
  | keep (c : Char) {s t : Chars} : Respaced s t → Respaced (c :: s) (c :: t)
  | white (mark : Chars) {c : Char} {s t : Chars} :
      isWhitespace c = true → letters mark = [] → Respaced s t → Respaced (c :: s) (mark ++ t)

theorem KeepsWords.refl (s : Chars) : KeepsWords s s := fun _ _ h => h

theorem KeepsWords.trans {s t u : Chars} (hst : KeepsWords s t) (htu : KeepsWords t u) :
    KeepsWords s u := fun ps hwords h => htu ps hwords (hst ps hwords h)

theorem keepsWords_around (pre t post : Chars) : KeepsWords t (pre ++ t ++ post) :=
  fun _ _ h => (h.before pre).after post

theorem Keeps.refl (s : Chars) : Keeps s s := ⟨.refl s, rfl⟩

theorem Keeps.trans {s t u : Chars} (hst : Keeps s t) (htu : Keeps t u) : Keeps s u :=
  ⟨hst.words.trans htu.words, htu.letters.trans hst.letters⟩

/-- Marks around a text. -/
theorem keeps_around {pre post : Chars} (hpre : letters pre = []) (t : Chars)
    (hpost : letters post = []) : Keeps t (pre ++ t ++ post) where
  words := keepsWords_around pre t post
  letters := by rw [letters_append, letters_append, hpre, hpost, List.append_nil, List.nil_append]

theorem keeps_after (t : Chars) {post : Chars} (hpost : letters post = []) : Keeps t (t ++ post) :=
  keeps_around letters_nil t hpost

theorem keeps_before {pre : Chars} (hpre : letters pre = []) (t : Chars) : Keeps t (pre ++ t) where
  words := fun _ _ h => h.before pre
  letters := by rw [letters_append, hpre, List.nil_append]

theorem Respaced.refl (s : Chars) : Respaced s s := by
  induction s with
  | nil => exact .nil
  | cons c s ih => exact .keep c ih

theorem Respaced.append {s t u v : Chars} (hst : Respaced s t) (huv : Respaced u v) :
    Respaced (s ++ u) (t ++ v) := by
  induction hst with
  | nil => exact huv
  | keep c _ ih => exact .keep c ih
  | white mark hc hmark _ ih =>
    rw [List.append_assoc]
    exact .white mark hc hmark ih

theorem Respaced.of_blank {s : Chars} (h : Blank s) : Respaced s [] := by
  induction s with
  | nil => exact .nil
  | cons c s ih =>
    exact .white [] (h c List.mem_cons_self) rfl
      (ih fun d hd => h d (List.mem_cons_of_mem _ hd))

/-- No word goes across what was white, so all of them stay. -/
theorem Respaced.keepsWords {s t : Chars} (h : Respaced s t) : KeepsWords s t := by
  intro ps hwords hs
  have hall : ∀ (u : Chars) (ps : List Chars), Words ps → InOrder ps (u ++ s) →
      InOrder ps (u ++ t) := by
    clear hs hwords
    induction h with
    | nil => exact fun u ps _ h => h
    | keep c _ ih =>
      intro u ps hwords hs
      rw [List.append_cons] at hs ⊢
      exact ih _ _ hwords hs
    | white mark hc _ _ ih =>
      intro u ps hwords hs
      obtain ⟨front, back, rfl, hfront, hback⟩ := hs.cut hwords hc
      have hback' := ih [] back (fun p hp => hwords p (List.mem_append_right _ hp)) hback
      exact hfront.append (hback'.before mark)
  exact hall [] ps hwords hs

/-- Neither white space nor marks are letters. -/
theorem Respaced.letters {s t : Chars} (h : Respaced s t) :
    Chars.letters t = Chars.letters s := by
  induction h with
  | nil => rfl
  | keep c _ ih => rw [letters_cons, ih, ← letters_cons]
  | white mark hc hmark _ ih =>
    rw [letters_append, hmark, letters_cons, letters_white hc, ih]

theorem Respaced.keeps {s t : Chars} (h : Respaced s t) : Keeps s t := ⟨h.keepsWords, h.letters⟩

theorem respaced_trim (s : Chars) : Respaced s (trim s) := by
  obtain ⟨pre, post, hs, hpre, hpost⟩ := exists_trimWith isWhitespace s
  have hrespaced : Respaced (pre ++ trim s ++ post) ([] ++ trim s ++ []) :=
    ((Respaced.of_blank hpre).append (.refl _)).append (Respaced.of_blank hpost)
  rwa [List.nil_append, List.append_nil, trim_eq_trimWith, ← hs] at hrespaced

theorem respaced_trimEnd (s : Chars) : Respaced s (trimEnd s) := by
  have hs : s = trimEnd s ++ (s.reverse.takeWhile isWhitespace).reverse := by
    rw [trimEnd, ← List.reverse_append, List.takeWhile_append_dropWhile, List.reverse_reverse]
  have hblank : Blank (s.reverse.takeWhile isWhitespace).reverse :=
    fun c hc => List.mem_takeWhile_imp (List.mem_reverse.mp hc)
  have hrespaced := (Respaced.refl (trimEnd s)).append (.of_blank hblank)
  rwa [← hs, List.append_nil] at hrespaced

theorem respaced_replaceChar {pat : Char} (h : isWhitespace pat = true) {rep : Chars}
    (hrep : letters rep = []) (s : Chars) : Respaced s (replaceChar pat rep s) := by
  induction s with
  | nil => exact .nil
  | cons c s ih =>
    by_cases hc : c = pat
    · rw [hc, replaceChar_cons_self]
      exact .white rep h hrep ih
    · rw [replaceChar_cons_ne hc]
      exact .keep c ih

/-! ## Lines -/

section

variable {c : Char} {f : Chars → Chars} {list : List Chars}

theorem terminated_append (xs ys : List Chars) : Framing.terminated c (xs ++ ys) =
    Framing.terminated c xs ++ Framing.terminated c ys := List.flatMap_append

theorem terminated_singleton (line : Chars) : Framing.terminated c [line] = line ++ [c] :=
  List.flatMap_singleton _ _

theorem Respaced.terminated (h : ∀ line ∈ list, Respaced line (f line)) :
    Respaced (terminated c list) (terminated c (list.map f)) := by
  induction list with
  | nil => exact .nil
  | cons line rest ih =>
    rw [List.map_cons, terminated_cons, terminated_cons]
    exact (h line List.mem_cons_self).append
      (.keep c (ih fun other hother => h other (List.mem_cons_of_mem _ hother)))

/-- Line by line, a text is kept when each line is. -/
theorem Keeps.terminated {ι : Type} {list : List ι} {f g : ι → Chars}
    (hc : isWhitespace c = true) (h : ∀ i ∈ list, Keeps (f i) (g i)) :
    Keeps (terminated c (list.map f)) (terminated c (list.map g)) := by
  induction list with
  | nil => exact .refl _
  | cons i rest ih =>
    have hrest := ih fun other hother => h other (List.mem_cons_of_mem _ hother)
    have hi := h i List.mem_cons_self
    rw [List.map_cons, List.map_cons, terminated_cons, terminated_cons]
    constructor
    · intro ps hwords hps
      obtain ⟨front, back, rfl, hfront, hback⟩ := hps.cut hwords hc
      have hfront' := hi.words front (fun p hp => hwords p (List.mem_append_left _ hp)) hfront
      have hback' := hrest.words back (fun p hp => hwords p (List.mem_append_right _ hp)) hback
      exact hfront'.append (hback'.before [c])
    · rw [letters_append, letters_append, hi.letters, letters_cons, hrest.letters, ← letters_cons]

/-- A separator between lines, in the place of a white character after each. -/
theorem respaced_intercalate (hc : isWhitespace c = true) {sep : Chars} (hsep : letters sep = [])
    (list : List Chars) : Respaced (Framing.terminated c list) (sep.intercalate list) := by
  induction list with
  | nil => exact .nil
  | cons line rest ih =>
    rw [terminated_cons]
    cases rest with
    | nil =>
      rw [List.intercalate_singleton]
      have hend : Respaced (line ++ [c]) (line ++ ([] ++ [])) :=
        (Respaced.refl line).append (.white [] hc rfl .nil)
      rwa [List.append_nil, List.append_nil] at hend
    | cons next more =>
      rw [List.intercalate_cons_cons, List.append_assoc]
      exact (Respaced.refl line).append (.white sep hc hsep ih)

end

/-- The lines of a text. -/
theorem keeps_splitOn (text : Chars) :
    Keeps text (Framing.terminated '\n' (text.splitOn '\n')) := by
  have hne : text.splitOn '\n' ≠ [] := List.splitOnP_ne_nil _ _
  rw [← intercalate_append_sep hne, List.intercalate_splitOn]
  exact keeps_after text rfl

theorem keeps_lines (text : Chars) :
    Keeps text (Framing.terminated '\n' (Chars.lines text)) := by
  obtain ⟨front, last, hpieces⟩ : ∃ front last, text.splitOn '\n' = front ++ [last] := by
    rcases List.eq_nil_or_concat (text.splitOn '\n') with hnil | ⟨front, last, hlast⟩
    · exact absurd hnil (List.splitOnP_ne_nil _ _)
    · exact ⟨front, last, by rw [hlast, List.concat_eq_append]⟩
  have htext : text = Framing.terminated '\n' front ++ last := by
    rw [← intercalate_concat, ← hpieces, List.intercalate_splitOn]
  -- a carriage return before a line feed is white
  have hended : ∀ piece ∈ front, Respaced piece
      (if piece.getLast? = some '\r' then piece.dropLast else piece) := by
    intro piece _
    split
    · rename_i hlast
      have hsplit := List.dropLast_append_getLast? '\r' hlast
      have hdrop := (Respaced.refl piece.dropLast).append (.white [] (c := '\r') rfl rfl .nil)
      rwa [hsplit, List.append_nil, List.append_nil] at hdrop
    · exact .refl piece
  have hlines : Chars.lines text =
      (front.map fun piece => if piece.getLast? = some '\r' then piece.dropLast else piece) ++
        if last = [] then [] else [last] := by
    unfold Chars.lines
    rw [hpieces]
    dsimp only
    rw [List.getLast?_concat, List.dropLast_concat]
    cases last with
    | nil => rw [if_pos rfl, List.append_nil]
    | cons c last => rw [if_neg (List.cons_ne_nil _ _)]
  have hkeep := ((Respaced.terminated (c := '\n') hended).append (.refl last)).keeps
  rw [← htext] at hkeep
  refine hkeep.trans ?_
  rw [hlines, terminated_append]
  split
  · rename_i hnil
    rw [hnil]
    exact .refl _
  · rw [terminated_singleton, ← List.append_assoc]
    exact keeps_after _ rfl

end Basecrawl.Chars
