/-
  Error details: words, URLs and quoted paths.

  1. **Details** — a detail is written as a list of items (`Item`, `render`).
  2. **What is published** — the words, the scheme, host and port of a URL, and a digest for each
     path (`Published`); `Concealed` says when nothing else can be.
  3. **What stands right behind a URL** is a part of it: `gather` puts it there.  The text is the
     same (`render_gather`), and whether it is concealed too (`concealed_gather`).
-/
import Basecrawl.Core.HostSafe

namespace Basecrawl.Core

open Text
open Seal (Bytes32 schemeMark pathRef endsAuthority IsScheme destinationText withoutCredentials)

/-! ## Details -/

/-- A part of an error detail: words, an absolute URL, or an absolute path in single quotes. -/
inductive Item where
  | words (text : List Char)
  | url (scheme authority tail : List Char)
  | path (tail : List Char)

/-- How a part is written.  The tail of a URL is its path without the first slash, its query and its
fragment. -/
def Item.text : Item → List Char
  | .words text => text
  | .url scheme authority tail => scheme ++ (schemeMark ++ (authority ++ '/' :: tail))
  | .path tail => '\'' :: '/' :: (tail ++ ['\''])

def render (items : List Item) : List Char := items.flatMap Item.text

/-- What `Url` leaves in a URL: it encodes blanks, double quotes and angle brackets. -/
def urlChar (c : Char) : Bool := !isWhitespace c && c != '"' && c != '>'

/-- Words have no quotes, no slash and no question mark. -/
def Item.Valid : Item → Prop
  | .words text => ∀ c ∈ text, c ≠ '\'' ∧ c ≠ '"' ∧ c ≠ '/' ∧ c ≠ '?'
  | .url scheme authority tail => IsScheme scheme ∧
      (∀ c ∈ authority, endsAuthority c = false ∧ urlChar c = true) ∧ ∀ c ∈ tail, urlChar c = true
  | .path _ => True

def Item.isUrl : Item → Bool
  | .url .. => true
  | _ => false

/-- A URL and what stands right behind it. -/
def glue (scheme authority : List Char) : List Char → List Item → List Item
  | tail, .words text :: items =>
      let glued := text.takeWhile fun c => !endsUrl c
      let more := text.dropWhile fun c => !endsUrl c
      if more.isEmpty then glue scheme authority (tail ++ glued) items
      else .url scheme authority (tail ++ glued) :: .words more :: items
  | tail, .url scheme' authority' tail' :: items =>
      glue scheme authority (tail ++ (Item.url scheme' authority' tail').text) items
  | tail, .path tail' :: items => .url scheme authority tail :: .path tail' :: items
  | tail, [] => [.url scheme authority tail]

/-- Every URL with what stands right behind it. -/
def gather : List Item → List Item
  | [] => []
  | .words text :: items => .words text :: gather items
  | .url scheme authority tail :: items => glue scheme authority tail (gather items)
  | .path tail :: items => .path tail :: gather items

/-- **What is published**: the words, for a URL its scheme, its host and port and a digest, for a
path a digest. -/
def Published (sha256 : Bytes → Bytes32) : List Item → List Char → Prop
  | [], out => out = []
  | .words text :: items, out => ∃ rest, out = text ++ rest ∧ Published sha256 items rest
  | .url scheme authority _ :: items, out => ∃ material rest,
      out = destinationText scheme (withoutCredentials authority) ++
        (pathRef sha256 material ++ rest) ∧ Published sha256 items rest
  | .path _ :: items, out => ∃ material rest,
      out = '\'' :: (pathRef sha256 material ++ '\'' :: rest) ∧ Published sha256 items rest

/-- No URL has an apostrophe, no path has one or a `://`, and no path stands in front of a URL. -/
def Concealed : List Item → Prop
  | [] => True
  | .words _ :: items => Concealed items
  | .url _ authority tail :: items => '\'' ∉ authority ∧ '\'' ∉ tail ∧ Concealed items
  | .path tail :: items => '\'' ∉ tail ∧ ¬ schemeMark <:+: tail ∧
      (∀ item ∈ items, item.isUrl = false) ∧ Concealed items

theorem render_cons (item : Item) (items : List Item) :
    render (item :: items) = item.text ++ render items := rfl

/-! ## What stands right behind a URL -/

theorem url_text_append (scheme authority tail more : List Char) :
    (Item.url scheme authority (tail ++ more)).text =
      (Item.url scheme authority tail).text ++ more := by
  simp only [Item.text, List.append_assoc, List.cons_append]

theorem render_glue (scheme authority tail : List Char) (items : List Item) :
    render (glue scheme authority tail items) =
      (Item.url scheme authority tail).text ++ render items := by
  induction items generalizing tail with
  | nil => rfl
  | cons item items ih =>
    cases item with
    | words text =>
      have htext := @List.takeWhile_append_dropWhile _ (fun c => !endsUrl c) text
      rw [glue]
      split
      · next hmore =>
        rw [List.isEmpty_iff] at hmore
        rw [hmore, List.append_nil] at htext
        rw [ih, url_text_append, htext, List.append_assoc]
        rfl
      · rw [render_cons, url_text_append, List.append_assoc, render_cons, render_cons]
        refine congrArg _ ?_
        show _ ++ (List.dropWhile _ text ++ render items) = text ++ render items
        rw [← List.append_assoc, htext]
    | url scheme' authority' tail' =>
      rw [glue, ih, url_text_append, render_cons, List.append_assoc]
    | path tail' => rfl

/-- The text is the same. -/
theorem render_gather (items : List Item) : render (gather items) = render items := by
  induction items with
  | nil => rfl
  | cons item items ih =>
    cases item with
    | words text => rw [gather, render_cons, ih, render_cons]
    | url scheme authority tail => rw [gather, render_glue, ih, render_cons]
    | path tail => rw [gather, render_cons, ih, render_cons]

/-- A character that ends no region can be in a URL. -/
theorem urlChar_of_open {c : Char} (h : endsUrl c = false) : urlChar c = true := by
  simp only [endsUrl, Bool.or_eq_false_iff] at h
  simp only [urlChar, bne, h.1.1.1, h.1.2, h.2]
  rfl

theorem isSchemeChar_of_scheme {scheme : List Char} (h : IsScheme scheme) :
    ∀ c ∈ scheme, isSchemeChar c = true := by
  obtain ⟨c, cs, rfl, hc, hcs⟩ := h
  intro d hd
  rcases List.mem_cons.mp hd with rfl | hd
  · simp [isSchemeChar, Char.isAlphanum, hc]
  · rcases hcs d hd with h | h | h | h
    · simp [isSchemeChar, h]
    · simp [isSchemeChar, h]
    · simp [isSchemeChar, h]
    · simp [isSchemeChar, h]

theorem count_scheme {scheme : List Char} (h : IsScheme scheme) : scheme.count '\'' = 0 :=
  List.count_eq_zero_of_not_mem fun hmem => absurd (isSchemeChar_of_scheme h _ hmem) (by decide)

theorem valid_words {text : List Char} (h : (Item.words text).Valid) {c : Char} (hc : c ∈ text) :
    c ≠ '\'' ∧ c ≠ '"' ∧ c ≠ '/' :=
  ⟨(h c hc).1, (h c hc).2.1, (h c hc).2.2.1⟩

theorem urlChar_url {scheme authority tail : List Char}
    (h : (Item.url scheme authority tail).Valid) :
    ∀ c ∈ (Item.url scheme authority tail).text, urlChar c = true := by
  obtain ⟨hscheme, hauthority, htail⟩ := h
  intro c hc
  rcases List.mem_append.mp hc with hc | hc
  · exact urlChar_of_open (isSchemeChar_spec (isSchemeChar_of_scheme hscheme c hc)).2.1
  · rcases List.mem_append.mp hc with hc | hc
    · have hall : schemeMark.all urlChar = true := by decide
      exact List.all_eq_true.mp hall c hc
    · rcases List.mem_append.mp hc with hc | hc
      · exact (hauthority c hc).2
      · rcases List.mem_cons.mp hc with rfl | hc
        · decide
        · exact htail c hc

/-- The apostrophes of a URL are in its authority and its tail. -/
theorem count_url {scheme authority tail : List Char}
    (h : (Item.url scheme authority tail).Valid) :
    (Item.url scheme authority tail).text.count '\'' =
      authority.count '\'' + tail.count '\'' := by
  have hmark : schemeMark.count '\'' = 0 := by decide
  simp only [Item.text, List.count_append, List.count_cons, count_scheme h.1, hmark, Nat.zero_add]
  rfl

/-- What is left of a text begins with what ends a URL. -/
theorem dropWhile_open {text : List Char}
    (h : (text.dropWhile fun c => !endsUrl c).isEmpty = false) :
    ∃ c cs, (text.dropWhile fun c => !endsUrl c) = c :: cs ∧ endsUrl c = true := by
  cases hmore : text.dropWhile fun c => !endsUrl c with
  | nil =>
    rw [hmore] at h
    cases h
  | cons c cs =>
    have hne : (text.dropWhile fun c => !endsUrl c) ≠ [] := by
      rw [hmore]
      exact List.cons_ne_nil c cs
    have hc := List.head_dropWhile_not (fun c => !endsUrl c) hne
    simp only [hmore, List.head_cons, Bool.not_eq_false'] at hc
    exact ⟨c, cs, rfl, hc⟩

theorem valid_glue {scheme authority tail : List Char} {items : List Item}
    (h : (Item.url scheme authority tail).Valid) (hitems : ∀ item ∈ items, item.Valid) :
    ∀ item ∈ glue scheme authority tail items, item.Valid := by
  have hjoin : ∀ {tail more : List Char}, (Item.url scheme authority tail).Valid →
      (∀ c ∈ more, urlChar c = true) → (Item.url scheme authority (tail ++ more)).Valid := by
    intro tail more h hmore
    exact ⟨h.1, h.2.1, fun c hc => (List.mem_append.mp hc).elim (h.2.2 c) (hmore c)⟩
  induction items generalizing tail with
  | nil =>
    intro item hitem
    rw [glue, List.mem_singleton] at hitem
    exact hitem ▸ h
  | cons item items ih =>
    rw [List.forall_mem_cons] at hitems
    obtain ⟨hitem, hitems⟩ := hitems
    cases item with
    | words text =>
      have hglued : ∀ c ∈ text.takeWhile fun c => !endsUrl c, urlChar c = true := fun c hc => by
        refine urlChar_of_open ?_
        simpa using List.all_eq_true.mp List.all_takeWhile c hc
      rw [glue]
      split
      · exact ih (hjoin h hglued) hitems
      · rw [List.forall_mem_cons, List.forall_mem_cons]
        refine ⟨hjoin h hglued, fun c hc => ?_, hitems⟩
        exact hitem c (List.dropWhile_subset _ hc)
    | url scheme' authority' tail' => exact ih (hjoin h (urlChar_url hitem)) hitems
    | path tail' =>
      rw [glue, List.forall_mem_cons, List.forall_mem_cons]
      exact ⟨h, hitem, hitems⟩

theorem valid_gather {items : List Item} (h : ∀ item ∈ items, item.Valid) :
    ∀ item ∈ gather items, item.Valid := by
  induction items with
  | nil => exact h
  | cons item items ih =>
    rw [List.forall_mem_cons] at h
    obtain ⟨hitem, hitems⟩ := h
    cases item with
    | words text => exact List.forall_mem_cons.mpr ⟨hitem, ih hitems⟩
    | url scheme authority tail => exact valid_glue hitem (ih hitems)
    | path tail => exact List.forall_mem_cons.mpr ⟨hitem, ih hitems⟩

/-- Nothing stands right behind a URL but what ends it. -/
def Apart : List Item → Prop
  | [] => True
  | .words _ :: items => Apart items
  | .url .. :: items =>
      (render items = [] ∨ ∃ c cs, render items = c :: cs ∧ endsUrl c = true) ∧ Apart items
  | .path _ :: items => Apart items

theorem apart_glue (scheme authority tail : List Char) {items : List Item} (h : Apart items) :
    Apart (glue scheme authority tail items) := by
  induction items generalizing tail with
  | nil => exact ⟨Or.inl rfl, trivial⟩
  | cons item items ih =>
    cases item with
    | words text =>
      rw [glue]
      split
      · exact ih _ h
      · next hmore =>
        obtain ⟨c, cs, hcs, hc⟩ := dropWhile_open (Bool.eq_false_iff.mpr hmore)
        refine ⟨Or.inr ⟨c, cs ++ render items, ?_, hc⟩, h⟩
        rw [render_cons, Item.text, hcs]
        rfl
    | url scheme' authority' tail' => exact ih _ h.2
    | path tail' => exact ⟨Or.inr ⟨_, _, rfl, by decide⟩, h⟩

theorem apart_gather (items : List Item) : Apart (gather items) := by
  induction items with
  | nil => trivial
  | cons item items ih =>
    cases item with
    | words text => exact ih
    | url scheme authority tail => exact apart_glue scheme authority tail ih
    | path tail => exact ih

theorem glue_head (scheme authority tail : List Char) (items : List Item) :
    ∃ tail' rest, glue scheme authority tail items = .url scheme authority tail' :: rest := by
  induction items generalizing tail with
  | nil => exact ⟨tail, [], rfl⟩
  | cons item items ih =>
    cases item with
    | words text =>
      rw [glue]
      split
      · exact ih _
      · exact ⟨_, _, rfl⟩
    | url scheme' authority' tail' => exact ih _
    | path tail' => exact ⟨_, _, rfl⟩

theorem isUrl_gather {items : List Item} :
    (∀ item ∈ gather items, item.isUrl = false) ↔ ∀ item ∈ items, item.isUrl = false := by
  induction items with
  | nil => exact Iff.rfl
  | cons item items ih =>
    cases item with
    | words text => rw [gather, List.forall_mem_cons, ih, List.forall_mem_cons]
    | url scheme authority tail =>
      obtain ⟨tail', rest, hglue⟩ := glue_head scheme authority tail (gather items)
      rw [gather, hglue, List.forall_mem_cons, List.forall_mem_cons]
      exact ⟨fun h => Bool.noConfusion h.1, fun h => Bool.noConfusion h.1⟩
    | path tail => rw [gather, List.forall_mem_cons, ih, List.forall_mem_cons]

theorem concealed_glue {scheme authority tail : List Char} {items : List Item}
    (hitems : ∀ item ∈ items, item.Valid) :
    Concealed (glue scheme authority tail items) ↔
      '\'' ∉ authority ∧ '\'' ∉ tail ∧ Concealed items := by
  induction items generalizing tail with
  | nil => exact Iff.rfl
  | cons item items ih =>
    rw [List.forall_mem_cons] at hitems
    obtain ⟨hitem, hitems⟩ := hitems
    cases item with
    | words text =>
      have hglued : '\'' ∉ text.takeWhile fun c => !endsUrl c := fun hmem =>
        (hitem _ (List.takeWhile_subset _ hmem)).1 rfl
      have htail : '\'' ∉ tail ++ text.takeWhile (fun c => !endsUrl c) ↔ '\'' ∉ tail := by
        rw [List.mem_append, not_or, and_iff_left hglued]
      rw [glue]
      split
      · rw [ih hitems, htail]
        rfl
      · rw [← htail]
        exact Iff.rfl
    | url scheme' authority' tail' =>
      have hcount := count_url hitem
      rw [glue, ih hitems, List.mem_append, not_or]
      have hmem : '\'' ∉ (Item.url scheme' authority' tail').text ↔
          '\'' ∉ authority' ∧ '\'' ∉ tail' := by
        rw [← List.count_eq_zero, ← List.count_eq_zero, ← List.count_eq_zero, hcount]
        omega
      rw [hmem, Concealed]
      exact ⟨fun h => ⟨h.1, h.2.1.1, h.2.1.2.1, h.2.1.2.2, h.2.2⟩,
        fun h => ⟨h.1, ⟨h.2.1, h.2.2.1, h.2.2.2.1⟩, h.2.2.2.2⟩⟩
    | path tail' => exact Iff.rfl

theorem concealed_gather {items : List Item} (hitems : ∀ item ∈ items, item.Valid) :
    Concealed (gather items) ↔ Concealed items := by
  induction items with
  | nil => exact Iff.rfl
  | cons item items ih =>
    rw [List.forall_mem_cons] at hitems
    obtain ⟨-, hitems⟩ := hitems
    cases item with
    | words text => exact ih hitems
    | url scheme authority tail =>
      rw [gather, concealed_glue (valid_gather hitems), ih hitems]
      rfl
    | path tail => rw [gather, Concealed, Concealed, ih hitems, isUrl_gather]

end Basecrawl.Core
