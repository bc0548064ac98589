/-
  Which paths an error shows to the host.

  1. **The two passes** — the loop takes the URLs and the second pass the quoted paths
     (`region_at`, `scrubFrom_published`).
  2. **Concealed details** — they are published as they should be (`publishes_of_concealed`).
  3. **Apostrophes** — none is lost by either pass (`stripLoop_quotes`, `scrubFrom_quotes`), so when
     the output is what should be published they are all in hosts (`published_quotes`).
  4. **Other details** — up to the first item that is not concealed the output is known, and there
     it differs (`concealed_of_published`).
-/
import Basecrawl.Core.HostSafeItems

namespace Basecrawl.Core

open Text Outcome Slices Replace
open Panic (Checked)
open Seal (Bytes32 schemeMark urlRef urlPathQueryRef_eq pathRef endsAuthority IsScheme IsRemainder
  destinationText withoutCredentials hostText destinationText_eq hostText_sublist)

/-! ## The two passes -/

variable {ε : Type} {sha256 : Bytes → Bytes32}

/-- What has no quote and no slash. -/
def Plain (front : List Char) : Prop := ∀ c ∈ front, c ≠ '\'' ∧ c ≠ '"' ∧ c ≠ '/'

theorem plain_nil : Plain [] := fun _ hc => absurd hc List.not_mem_nil

theorem Plain.append_words {front text : List Char} (h : Plain front)
    (htext : (Item.words text).Valid) : Plain (front ++ text) := fun c hc =>
  (List.mem_append.mp hc).elim (h c) (valid_words htext)

theorem Plain.unmarked {front : List Char} (h : Plain front) : ¬ schemeMark <:+: front := by
  intro hin
  exact (h '/' (hin.subset (by decide))).2.2 rfl

theorem scrubFrom_plain {front rest out : List Char} (h : Plain front)
    (hrest : (scrubFrom sha256 none rest : Checked ε _) = .ok out) :
    (scrubFrom sha256 none (front ++ rest) : Checked ε _) = .ok (front ++ out) := by
  induction front with
  | nil => exact hrest
  | cons c front ih =>
    have hc := h c List.mem_cons_self
    have hno : ¬ (c = '\'' ∨ c = '"') := by
      rw [not_or]
      exact ⟨hc.1, hc.2.1⟩
    rw [List.cons_append, scrubFrom, if_neg hno, ih fun d hd => h d (List.mem_cons_of_mem c hd)]
    rfl

/-- A token ends with its quote. -/
theorem scrubFrom_inside {quote : Char} {more : List Char} (h : quote ∉ more)
    (token rest : List Char) :
    (scrubFrom sha256 (some (quote, token)) (more ++ quote :: rest) : Checked ε _) = (do
      let shown ← scrubToken sha256 quote (token ++ more)
      let out ← scrubFrom sha256 none rest
      .ok (shown ++ out)) := by
  induction more generalizing token with
  | nil =>
    rw [List.nil_append, scrubFrom, if_pos rfl, List.append_nil]
  | cons c more ih =>
    rw [List.mem_cons, not_or] at h
    rw [List.cons_append, scrubFrom, if_neg fun hc => h.1 hc.symm, ih h.2, List.append_assoc]
    rfl

/-- For a path there is a digest in quotes. -/
theorem scrubFrom_path {tail rest out : List Char} (h : '\'' ∉ tail)
    (hrest : (scrubFrom sha256 none rest : Checked ε _) = .ok out) :
    ∃ material, (scrubFrom sha256 none ((Item.path tail).text ++ rest) : Checked ε _) =
      .ok ('\'' :: (pathRef sha256 material ++ '\'' :: out)) := by
  obtain ⟨material, href⟩ :=
    @urlPathQueryRef_eq ε sha256 ("https://placeholder.invalid".toList ++ '/' :: tail)
  refine ⟨material, ?_⟩
  have hquote : '\'' ∉ '/' :: tail := by
    rw [List.mem_cons, not_or]
    exact ⟨by decide, h⟩
  have htext : (Item.path tail).text ++ rest = '\'' :: (('/' :: tail) ++ '\'' :: rest) := by
    simp only [Item.text, List.cons_append, List.append_assoc, List.nil_append]
  have htoken : (scrubToken sha256 '\'' ([] ++ '/' :: tail) : Checked ε _) =
      .ok ('\'' :: (pathRef sha256 material ++ ['\''])) := by
    rw [List.nil_append, scrubToken, href]
    rfl
  rw [htext, scrubFrom, if_pos (Or.inl rfl), scrubFrom_inside hquote, htoken, hrest]
  simp only [ok_bind, List.cons_append, List.append_assoc, List.nil_append]

/-- Words and paths are published by the second pass alone. -/
theorem scrubFrom_published {items : List Item} (hvalid : ∀ item ∈ items, item.Valid)
    (hurl : ∀ item ∈ items, item.isUrl = false) (h : Concealed items) :
    ∃ out, (scrubFrom sha256 none (render items) : Checked ε _) = .ok out ∧
      Published sha256 items out := by
  induction items with
  | nil => exact ⟨[], rfl, rfl⟩
  | cons item items ih =>
    rw [List.forall_mem_cons] at hvalid hurl
    cases item with
    | words text =>
      obtain ⟨out, hout, hpublished⟩ := ih hvalid.2 hurl.2 h
      refine ⟨text ++ out, ?_, out, rfl, hpublished⟩
      exact scrubFrom_plain (fun c hc => valid_words hvalid.1 hc) hout
    | url scheme authority tail => exact Bool.noConfusion hurl.1
    | path tail =>
      obtain ⟨out, hout, hpublished⟩ := ih hvalid.2 hurl.2 h.2.2.2
      obtain ⟨material, hshown⟩ := @scrubFrom_path ε sha256 tail _ out h.1 hout
      exact ⟨_, hshown, material, out, rfl, hpublished⟩

/-- The marks of words and paths are in the paths. -/
theorem unmarked_render {items : List Item} (hvalid : ∀ item ∈ items, item.Valid)
    (hurl : ∀ item ∈ items, item.isUrl = false) (h : Concealed items) {front : List Char}
    (hfront : Plain front) : ¬ schemeMark <:+: front ++ render items := by
  induction items generalizing front with
  | nil =>
    rw [render, List.flatMap_nil, List.append_nil]
    exact hfront.unmarked
  | cons item items ih =>
    rw [List.forall_mem_cons] at hvalid hurl
    cases item with
    | words text =>
      rw [render_cons, ← List.append_assoc]
      exact ih hvalid.2 hurl.2 h (hfront.append_words hvalid.1)
    | url scheme authority tail => exact Bool.noConfusion hurl.1
    | path tail =>
      obtain ⟨-, htail, -, hitems⟩ := h
      have hsplit : (Item.path tail).text ++ render items =
          '\'' :: ('/' :: tail ++ '\'' :: render items) := by
        simp only [Item.text, List.cons_append, List.append_assoc, List.nil_append]
      intro hin
      rw [render_cons, hsplit] at hin
      rcases infix_append_cons (by decide) hin with hin | hin
      · exact hfront.unmarked hin
      · rcases infix_append_cons (by decide) hin with hin | hin
        · rcases List.infix_cons_iff.mp hin with hin | hin
          · exact absurd (List.cons_prefix_cons.mp hin).1 (by decide)
          · exact htail hin
        · exact ih hvalid.2 hurl.2 hitems plain_nil hin

/-- The first region of words and a URL. -/
theorem region_at {front scheme behind after : List Char} (hfront : '/' ∉ front)
    (hscheme : ∀ c ∈ scheme, isSchemeChar c = true) (hbehind : ∀ c ∈ behind, endsUrl c = false)
    (hafter : after = [] ∨ ∃ c cs, after = c :: cs ∧ endsUrl c = true) :
    ∃ (r : Region) (more : List Char),
      r.text = front ++ (scheme ++ (schemeMark ++ (behind ++ after))) ∧
        front = r.before ++ more ∧ r.scheme = more ++ scheme ∧ r.behind = behind ∧
        r.after = after := by
  have hslash : '/' ∉ front ++ scheme := by
    intro hmem
    rcases List.mem_append.mp hmem with hmem | hmem
    · exact hfront hmem
    · exact slash_not_mem_scheme hscheme hmem
  rcases region_cases (front ++ (scheme ++ (schemeMark ++ (behind ++ after)))) with hno | ⟨r, hr⟩
  · refine absurd ⟨front ++ scheme, behind ++ after, ?_⟩ hno
    simp only [List.append_assoc]
  · have hmarks : (r.before ++ r.scheme) ++ (schemeMark ++ (r.behind ++ r.after)) =
        (front ++ scheme) ++ (schemeMark ++ (behind ++ after)) := by
      rw [← r.text_eq, hr, List.append_assoc]
    rcases mark_apart hmarks with ⟨hsame, hrest⟩ | ⟨cs, hcs, -⟩ | ⟨cs, hcs, -⟩
    · have hopen : r.behind = behind :=
        Seal.append_remainder_inj hrest r.behind_open hbehind r.after_ends hafter
      rw [hopen] at hrest
      have hrest' := List.append_cancel_left hrest
      rcases List.append_eq_append_iff.mp hsame with ⟨d, hd, hs⟩ | ⟨d, hd, hs⟩
      · exact ⟨r, d, hr, hd, hs, hopen, hrest'⟩
      · obtain rfl : d = [] := r.before_closed hd fun c hc =>
          hscheme c (hs ▸ List.mem_append_left _ hc)
        exact ⟨r, [], hr, by rw [hd, List.append_nil, List.append_nil], hs.symm, hopen, hrest'⟩
    · refine absurd ?_ hslash
      rw [hcs]
      exact List.mem_append_right _ (List.mem_append_left _ (by decide))
    · exact absurd ⟨_, cs, by rw [hcs, List.append_assoc]⟩ r.first

/-! ## Concealed details -/

theorem destinationText_append (more scheme hostport : List Char) :
    destinationText (more ++ scheme) hostport = more ++ destinationText scheme hostport := by
  rw [destinationText_eq, destinationText_eq, List.append_assoc]

/-- The authority of a region that begins with one. -/
theorem Region.urlRef_authority (r : Region) {authority more : List Char}
    (hbehind : r.behind = authority ++ more) (hauthority : ∀ c ∈ authority, endsAuthority c = false)
    (hmore : IsRemainder more) :
    ∃ material, (urlRef sha256 r.url : Checked ε _) = .ok
      (destinationText r.scheme (withoutCredentials authority) ++ pathRef sha256 material) := by
  obtain ⟨authority', more', material, hsplit, hauthority', hmore', href⟩ :=
    @Region.urlRef_eq ε sha256 r
  have hsame : authority' = authority :=
    Seal.append_remainder_inj (hsplit.symm.trans hbehind) hauthority' hauthority hmore' hmore
  rw [hsame] at href
  exact ⟨material, href⟩

/-- A URL ends at an apostrophe, if it does not end earlier. -/
theorem open_of_urlChar {c : Char} (hc : urlChar c = true) (hquote : c ≠ '\'') :
    endsUrl c = false := by
  simp only [urlChar, Bool.and_eq_true, Bool.not_eq_true', bne_iff_ne] at hc
  simp [endsUrl, hc.1.1, hc.1.2, hc.2, hquote]

/-- What a URL without apostrophes has behind its mark. -/
theorem behind_open {scheme authority tail : List Char}
    (h : (Item.url scheme authority tail).Valid) (hauthority : '\'' ∉ authority)
    (htail : '\'' ∉ tail) : ∀ c ∈ authority ++ '/' :: tail, endsUrl c = false := by
  intro c hc
  rcases List.mem_append.mp hc with hc | hc
  · exact open_of_urlChar (h.2.1 c hc).2 fun hquote => hauthority (hquote ▸ hc)
  · rcases List.mem_cons.mp hc with rfl | hc
    · decide
    · exact open_of_urlChar (h.2.2 c hc) fun hquote => htail (hquote ▸ hc)

/-- **What is concealed is published as it should be**: the loop takes the URLs, with the words in
front of each, and the second pass takes the paths. -/
theorem publishes_of_concealed {items : List Item} (hvalid : ∀ item ∈ items, item.Valid)
    (hapart : Apart items) (h : Concealed items) {front : List Char} (hfront : Plain front)
    {fuel : Nat} (hfuel : (front ++ render items).length ≤ fuel)
    (hbordered : Bordered (front ++ render items)) (out : List Char) :
    ∃ out' rest shown published,
      stripLoop sha256 (fuel + 1) out (front ++ render items) = .ok (out', rest) ∧
      (scrubFrom sha256 none rest : Checked OutOfFuel _) = .ok shown ∧
      out' ++ shown = out ++ (front ++ published) ∧ Published sha256 items published := by
  induction items generalizing front fuel out with
  | nil =>
    have htext : front ++ render [] = front := List.append_nil front
    have hscrub := @scrubFrom_plain OutOfFuel sha256 front [] [] hfront rfl
    rw [htext, stripLoop_plain hfront.unmarked]
    rw [List.append_nil] at hscrub
    exact ⟨out, front, front, [], rfl, hscrub, by rw [List.append_nil], rfl⟩
  | cons item items ih =>
    rw [List.forall_mem_cons] at hvalid
    cases item with
    | words text =>
      have hassoc : front ++ render (.words text :: items) = (front ++ text) ++ render items := by
        rw [render_cons, Item.text, List.append_assoc]
      rw [hassoc] at hfuel hbordered ⊢
      obtain ⟨out', rest, shown, published, hloop, hscrub, hshown, hpublished⟩ :=
        ih hvalid.2 hapart h (hfront.append_words hvalid.1) hfuel hbordered out
      refine ⟨out', rest, shown, text ++ published, hloop, hscrub, ?_, published, rfl, hpublished⟩
      rw [hshown, List.append_assoc]
    | url scheme authority tail =>
      obtain ⟨hauthority, htail, hitems⟩ := h
      obtain ⟨hafter, hapart⟩ := hapart
      obtain ⟨r, more, htext, hbefore, hscheme, hbehind, hrest⟩ :=
        region_at (fun hmem => (hfront _ hmem).2.2 rfl) (isSchemeChar_of_scheme hvalid.1.1)
          (behind_open hvalid.1 hauthority htail) hafter
      obtain ⟨material, href⟩ := @Region.urlRef_authority OutOfFuel sha256 r _ _ hbehind
        (fun c hc => (hvalid.1.2.1 c hc).1) (Or.inr ⟨'/', tail, rfl, by decide⟩)
      have htext' : front ++ render (.url scheme authority tail :: items) = r.text := by
        rw [htext, render_cons]
        simp only [Item.text, List.append_assoc, List.cons_append]
      rw [htext'] at hfuel hbordered ⊢
      obtain ⟨hnarrow, hbordered⟩ := (bordered_region r).mp hbordered
      have hlen := r.length_after
      rw [hrest] at hbordered hlen
      obtain ⟨fuel, rfl⟩ : ∃ n, fuel = n + 1 := ⟨fuel - 1, by omega⟩
      have hshort : (render items).length ≤ fuel := by omega
      rw [stripLoop_region hnarrow href, hrest]
      obtain ⟨out', rest, shown, published, hloop, hscrub, hshown, hpublished⟩ :=
        ih hvalid.2 hapart hitems plain_nil hshort hbordered _
      refine ⟨out', rest, shown, _, hloop, hscrub, ?_, material, published, rfl, hpublished⟩
      rw [hshown, hscheme, destinationText_append, hbefore]
      simp only [List.append_assoc, List.nil_append]
    | path tail =>
      obtain ⟨hquote, hmark, hurl, hitems⟩ := h
      obtain ⟨published, hpublished, hitems'⟩ :=
        @scrubFrom_published OutOfFuel sha256 items hvalid.2 hurl hitems
      obtain ⟨material, hshown⟩ := scrubFrom_path hquote hpublished
      have hplain : ¬ schemeMark <:+: front ++ render (.path tail :: items) := by
        refine unmarked_render (List.forall_mem_cons.mpr hvalid)
          (List.forall_mem_cons.mpr ⟨rfl, hurl⟩) ⟨hquote, hmark, hurl, hitems⟩ hfront
      rw [stripLoop_plain hplain]
      exact ⟨out, _, _, _, rfl, scrubFrom_plain hfront hshown, rfl, material, published, rfl,
        hitems'⟩

/-! ## Apostrophes -/

theorem scrubToken_eq (quote : Char) (token : List Char) : ∃ shown,
    (scrubToken sha256 quote token : Checked ε _) = .ok (quote :: (shown ++ [quote])) := by
  rw [scrubToken]
  obtain ⟨material, href⟩ :=
    @urlPathQueryRef_eq ε sha256 ("https://placeholder.invalid".toList ++ token)
  rw [href]
  split
  · exact ⟨_, rfl⟩
  · exact ⟨token, rfl⟩

/-- A quote that was met is shown. -/
theorem mem_scrubFrom {quote : Char} {token input out : List Char}
    (h : (scrubFrom sha256 (some (quote, token)) input : Checked ε _) = .ok out) : quote ∈ out := by
  obtain ⟨shown, hshown⟩ := @scrubToken_eq ε sha256 quote token
  induction input generalizing token shown with
  | nil =>
    rw [scrubFrom, hshown] at h
    rw [← Except.ok.inj h]
    exact List.mem_cons_self
  | cons n input ih =>
    rw [scrubFrom] at h
    split at h
    · rw [hshown, ok_bind] at h
      obtain ⟨more, -, hmore⟩ := bind_eq_ok.mp h
      rw [← Except.ok.inj hmore]
      exact List.mem_cons_self
    · obtain ⟨shown', hshown'⟩ := @scrubToken_eq ε sha256 quote (token ++ [n])
      exact ih h shown' hshown'

/-- **The second pass loses no apostrophe**, and one that is not closed is closed; a double quote
would be shown. -/
theorem scrubFrom_quotes (input : List Char) :
    (∀ out, (scrubFrom sha256 none input : Checked ε _) = .ok out → '"' ∉ out →
      input.count '\'' ≤ out.count '\'') ∧
    ∀ token out, (scrubFrom sha256 (some ('\'', token)) input : Checked ε _) = .ok out → '"' ∉ out →
      input.count '\'' + 1 ≤ out.count '\'' := by
  induction input with
  | nil =>
    refine ⟨fun out _ _ => Nat.zero_le _, fun token out h _ => ?_⟩
    exact List.count_pos_iff.mpr (mem_scrubFrom h)
  | cons c input ih =>
    constructor
    · intro out h hout
      rw [scrubFrom] at h
      split at h
      · next hquote =>
        rcases hquote with rfl | rfl
        · rw [List.count_cons_self]
          exact ih.2 [] out h hout
        · exact absurd (mem_scrubFrom h) hout
      · next hquote =>
        obtain ⟨more, hmore, hcons⟩ := bind_eq_ok.mp h
        obtain rfl := Except.ok.inj hcons
        rw [List.mem_cons, not_or] at hout
        have hle := ih.1 more hmore hout.2
        rw [List.count_cons, List.count_cons]
        omega
    · intro token out h hout
      rw [scrubFrom] at h
      split at h
      · next hquote =>
        obtain ⟨shown, hshown⟩ := @scrubToken_eq ε sha256 '\'' token
        rw [hshown, ok_bind] at h
        obtain ⟨more, hmore, hcons⟩ := bind_eq_ok.mp h
        obtain rfl := Except.ok.inj hcons
        rw [List.mem_append, not_or] at hout
        have hle := ih.1 more hmore hout.2
        -- the token is shown in its quotes
        rw [hquote, List.count_cons_self, List.count_append, List.count_cons_self,
          List.count_append, List.count_singleton_self]
        omega
      · next hquote =>
        have hle := ih.2 _ out h hout
        rw [List.count_cons_of_ne hquote]
        exact hle

theorem Region.count_text (r : Region) :
    r.text.count '\'' = r.before.count '\'' + r.after.count '\'' := by
  have hurl : r.url.count '\'' = 0 := List.count_eq_zero_of_not_mem fun hmem =>
    absurd (r.url_open _ hmem) (by decide)
  rw [Region.text, List.count_append, List.count_append, hurl, Nat.zero_add]

/-- **The loop loses no apostrophe**: none is in a region. -/
theorem stripLoop_quotes {fuel : Nat} {out text out' rest : List Char}
    (h : stripLoop sha256 fuel out text = .ok (out', rest)) :
    ∃ printed, out' = out ++ printed ∧
      text.count '\'' ≤ printed.count '\'' + rest.count '\'' := by
  induction fuel generalizing out text with
  | zero => cases h
  | succ fuel ih =>
    rcases region_cases text with hplain | ⟨r, rfl⟩
    · rw [stripLoop_plain hplain] at h
      obtain ⟨rfl, rfl⟩ := Prod.mk.inj (Except.ok.inj h)
      exact ⟨[], (List.append_nil out).symm, Nat.le_add_left _ _⟩
    · by_cases hr : r.Narrow
      · obtain ⟨_, _, _, -, -, -, href⟩ := @Region.urlRef_eq OutOfFuel sha256 r
        rw [stripLoop_region hr href] at h
        obtain ⟨printed, rfl, hle⟩ := ih h
        refine ⟨_, List.append_assoc out _ printed, ?_⟩
        rw [r.count_text, List.count_append, List.count_append]
        omega
      · rw [stripLoop_wide hr] at h
        cases h

/-- An item of which every apostrophe is shown. -/
def Item.KeepsQuotes : Item → Prop
  | .words _ => True
  | .url _ authority tail => '\'' ∉ tail ∧
      authority.count '\'' = (hostText (withoutCredentials authority)).count '\''
  | .path tail => '\'' ∉ tail

theorem count_destinationText {scheme : List Char} (hscheme : IsScheme scheme)
    (hostport : List Char) :
    (destinationText scheme hostport).count '\'' = (hostText hostport).count '\'' := by
  have hmark : schemeMark.count '\'' = 0 := by decide
  have hslash : ['/'].count '\'' = 0 := by decide
  rw [destinationText_eq, List.count_append, List.count_append, List.count_append,
    count_scheme hscheme, hmark, hslash, Nat.zero_add, Nat.zero_add, Nat.add_zero]

theorem count_pathRef (material : List Char) : (pathRef sha256 material).count '\'' = 0 :=
  List.count_eq_zero_of_not_mem fun hmem => (Seal.mem_pathRef hmem).elim (by decide) (by decide)

theorem dquote_not_mem_destinationText {scheme authority tail : List Char}
    (h : (Item.url scheme authority tail).Valid) :
    '"' ∉ destinationText scheme (withoutCredentials authority) := by
  rw [destinationText_eq]
  intro hmem
  rcases List.mem_append.mp hmem with hmem | hmem
  · exact absurd (isSchemeChar_of_scheme h.1 _ hmem) (by decide)
  · rcases List.mem_append.mp hmem with hmem | hmem
    · exact absurd hmem (by decide)
    · rcases List.mem_append.mp hmem with hmem | hmem
      · exact absurd (h.2.1 _ ((hostText_sublist authority).subset hmem)).2 (by decide)
      · exact absurd hmem (by decide)

/-- **In what is published** there is no double quote, and when no apostrophe of the text is missing
each item keeps its own. -/
theorem published_quotes {items : List Item} (hvalid : ∀ item ∈ items, item.Valid)
    {out : List Char} (h : Published sha256 items out) :
    '"' ∉ out ∧ out.count '\'' ≤ (render items).count '\'' ∧
      ((render items).count '\'' ≤ out.count '\'' → ∀ item ∈ items, item.KeepsQuotes) := by
  have hdigest : ∀ material, '"' ∉ pathRef sha256 material := fun material hmem =>
    (Seal.mem_pathRef hmem).elim (by decide) (by decide)
  induction items generalizing out with
  | nil =>
    obtain rfl : out = [] := h
    exact ⟨List.not_mem_nil, Nat.le_refl _, fun _ item hitem => absurd hitem List.not_mem_nil⟩
  | cons item items ih =>
    rw [List.forall_mem_cons] at hvalid
    rw [List.forall_mem_cons, render_cons, List.count_append]
    cases item with
    | words text =>
      obtain ⟨rest, rfl, hrest⟩ := h
      obtain ⟨hdquote, hle, hkeeps⟩ := ih hvalid.2 hrest
      rw [List.mem_append, not_or, List.count_append]
      refine ⟨⟨fun hmem => (hvalid.1 _ hmem).2.1 rfl, hdquote⟩, Nat.add_le_add_left hle _, ?_⟩
      intro hcount
      exact ⟨trivial, hkeeps (Nat.le_of_add_le_add_left hcount)⟩
    | url scheme authority tail =>
      obtain ⟨material, rest, rfl, hrest⟩ := h
      obtain ⟨hdquote, hle, hkeeps⟩ := ih hvalid.2 hrest
      have hshown := (hostText_sublist authority).count_le '\''
      rw [count_url hvalid.1, List.mem_append, List.mem_append, not_or, not_or, List.count_append,
        List.count_append, count_destinationText hvalid.1.1, count_pathRef]
      refine ⟨⟨dquote_not_mem_destinationText hvalid.1, hdigest material, hdquote⟩, by omega, ?_⟩
      intro hcount
      refine ⟨⟨List.count_eq_zero.mp (by omega), by omega⟩, hkeeps (by omega)⟩
    | path tail =>
      obtain ⟨material, rest, rfl, hrest⟩ := h
      obtain ⟨hdquote, hle, hkeeps⟩ := ih hvalid.2 hrest
      have htext : (Item.path tail).text.count '\'' = tail.count '\'' + 2 := by
        rw [Item.text, List.count_cons_self, List.count_cons_of_ne (by decide), List.count_append,
          List.count_singleton_self]
      have hshown : ('\'' :: (pathRef sha256 material ++ '\'' :: rest)).count '\'' =
          rest.count '\'' + 2 := by
        rw [List.count_cons_self, List.count_append, count_pathRef, List.count_cons_self,
          Nat.zero_add]
      rw [htext, hshown, List.mem_cons, List.mem_append, List.mem_cons, not_or, not_or, not_or]
      refine ⟨⟨by decide, hdigest material, by decide, hdquote⟩, by omega, ?_⟩
      intro hcount
      exact ⟨List.count_eq_zero.mp (by omega), hkeeps (by omega)⟩

/-! ## Other details -/

/-- Without a mark there is no URL, and the paths are concealed. -/
theorem concealed_of_unmarked {items : List Item} (hmark : ¬ schemeMark <:+: render items)
    (hkeeps : ∀ item ∈ items, item.KeepsQuotes) :
    (∀ item ∈ items, item.isUrl = false) ∧ Concealed items := by
  induction items with
  | nil => exact ⟨fun item hitem => absurd hitem List.not_mem_nil, trivial⟩
  | cons item items ih =>
    rw [List.forall_mem_cons] at hkeeps
    rw [render_cons] at hmark
    obtain ⟨hurl, hitems⟩ :=
      ih (fun hin => hmark (hin.trans (List.suffix_append _ _).isInfix)) hkeeps.2
    rw [List.forall_mem_cons]
    cases item with
    | words text => exact ⟨⟨rfl, hurl⟩, hitems⟩
    | url scheme authority tail =>
      refine absurd ⟨scheme, authority ++ '/' :: tail ++ render items, ?_⟩ hmark
      simp only [Item.text, List.append_assoc]
    | path tail =>
      refine ⟨⟨rfl, hurl⟩, hkeeps.1, fun hin => hmark ?_, hurl, hitems⟩
      obtain ⟨as, bs, rfl⟩ := hin
      refine ⟨'\'' :: '/' :: as, bs ++ ['\''] ++ render items, ?_⟩
      simp only [Item.text, List.append_assoc, List.cons_append]

/-- A region behind a quoted path begins behind its first slash. -/
theorem Region.before_path (r : Region) {front tail : List Char} (hfront : Plain front)
    (htext : r.text = front ++ '\'' :: '/' :: tail) :
    ∃ more, r.before = front ++ '\'' :: '/' :: more := by
  have hslash : '/' ∉ front := fun hmem => (hfront _ hmem).2.2 rfl
  rw [r.text_eq] at htext
  rcases occurrence_split (by decide) htext with ⟨w, hw, -⟩ | ⟨w, hw, hrest⟩
  · refine absurd ?_ hslash
    rw [hw]
    exact List.mem_append_right _ (List.mem_append_left _ (by decide))
  · cases w with
    | nil => exact absurd (List.cons.inj hrest).1 (by decide)
    | cons c w =>
      obtain ⟨rfl, -⟩ := List.cons.inj hrest
      have hsame : r.before ++ r.scheme = (front ++ ['\'']) ++ '/' :: w := by
        rw [hw, List.append_assoc]
        rfl
      have hscheme := slash_not_mem_scheme r.scheme_chars
      rcases List.append_eq_append_iff.mp hsame with ⟨d, -, hd⟩ | ⟨d, hbefore, hd⟩
      · exact absurd (hd ▸ List.mem_append_right d List.mem_cons_self) hscheme
      · cases d with
        | nil =>
          rw [List.nil_append] at hd
          exact absurd (hd ▸ List.mem_cons_self) hscheme
        | cons c d =>
          obtain ⟨rfl, -⟩ := List.cons.inj hd
          exact ⟨d, by rw [hbefore, List.append_assoc]; rfl⟩

/-- A loop that returns has pushed what stands in front of its first region, and a reference. -/
theorem stripLoop_pushed {fuel : Nat} {out out' rest : List Char} {r : Region}
    {reference : List Char} (href : (urlRef sha256 r.url : Checked OutOfFuel _) = .ok reference)
    (h : stripLoop sha256 fuel out r.text = .ok (out', rest)) :
    ∃ fuel' printed, out' = out ++ (r.before ++ reference) ++ printed ∧
      stripLoop sha256 fuel' (out ++ (r.before ++ reference)) r.after = .ok (out', rest) := by
  cases fuel with
  | zero => cases h
  | succ fuel =>
    by_cases hr : r.Narrow
    · rw [stripLoop_region hr href] at h
      obtain ⟨printed, hprinted, -⟩ := stripLoop_quotes h
      exact ⟨fuel, printed, hprinted, h⟩
    · rw [stripLoop_wide hr] at h
      cases h

/-- The words in front of a region are pushed with it. -/
theorem Region.reference_shown {r : Region} {front more scheme hostport digest : List Char}
    (hbefore : front = r.before ++ more) (hscheme : r.scheme = more ++ scheme)
    {out out' printed shown published : List Char}
    (hprinted : out' =
      out ++ (r.before ++ (destinationText r.scheme hostport ++ digest)) ++ printed)
    (hshown : out' ++ shown = out ++ (front ++ published)) :
    destinationText scheme hostport ++ (digest ++ (printed ++ shown)) = published := by
  rw [hprinted, hscheme, destinationText_append, hbefore] at hshown
  simpa only [List.append_assoc, List.append_cancel_left_eq] using hshown

/-- The host of a URL that is cut inside of its authority is another one. -/
theorem hostText_cut {scheme authority cut rest rest' : List Char}
    (hauthority : ∀ c ∈ authority, endsAuthority c = false)
    (hcut : ∀ c ∈ cut, endsAuthority c = false)
    (h : destinationText scheme (withoutCredentials cut) ++ rest =
      destinationText scheme (withoutCredentials authority) ++ rest') :
    hostText (withoutCredentials cut) = hostText (withoutCredentials authority) := by
  have hslash : ∀ {as : List Char}, (∀ c ∈ as, endsAuthority c = false) →
      ∀ c ∈ hostText (withoutCredentials as), (c == '/') = false := by
    intro as has c hc
    have hopen := has c ((hostText_sublist as).subset hc)
    rw [beq_eq_false_iff_ne]
    rintro rfl
    exact absurd hopen (by decide)
  rw [destinationText_eq, destinationText_eq] at h
  simp only [List.append_assoc, List.singleton_append, List.append_cancel_left_eq] at h
  exact Seal.append_remainder_inj h (hslash hcut) (hslash hauthority)
    (Or.inr ⟨'/', rest, rfl, rfl⟩) (Or.inr ⟨'/', rest', rfl, rfl⟩)

/-- **What is published as it should be is concealed.**  The induction is on the items, with the
words that the loop has not pushed yet. -/
theorem concealed_of_published {items : List Item} (hvalid : ∀ item ∈ items, item.Valid)
    (hapart : Apart items) (hkeeps : ∀ item ∈ items, item.KeepsQuotes) {front : List Char}
    (hfront : Plain front) {fuel : Nat} {out out' rest shown published : List Char}
    (hloop : stripLoop sha256 fuel out (front ++ render items) = .ok (out', rest))
    (hshown : out' ++ shown = out ++ (front ++ published))
    (hpublished : Published sha256 items published) : Concealed items := by
  induction items generalizing front fuel out published with
  | nil => trivial
  | cons item items ih =>
    have hvalid' := List.forall_mem_cons.mp hvalid
    have hkeeps' := List.forall_mem_cons.mp hkeeps
    cases item with
    | words text =>
      -- words go to the front, which stays plain
      obtain ⟨published, rfl, hpublished⟩ := hpublished
      have hassoc : front ++ render (.words text :: items) = (front ++ text) ++ render items := by
        rw [render_cons, Item.text, List.append_assoc]
      rw [hassoc] at hloop
      rw [← List.append_assoc front] at hshown
      exact ih hvalid'.2 hapart hkeeps'.2 (hfront.append_words hvalid'.1) hloop hshown hpublished
    | url scheme authority tail =>
      obtain ⟨material, published, rfl, hpublished⟩ := hpublished
      obtain ⟨hafter, hapart⟩ := hapart
      obtain ⟨htail, hcount⟩ := hkeeps'.1
      have hslash : '/' ∉ front := fun hmem => (hfront _ hmem).2.2 rfl
      have hscheme := isSchemeChar_of_scheme hvalid'.1.1
      by_cases hauthority : '\'' ∈ authority
      · -- the host is cut at its first apostrophe
        exfalso
        obtain ⟨cut, more, hsplit, hcut⟩ := List.eq_append_cons_of_mem hauthority
        have hvalidAuthority := hvalid'.1.2.1
        rw [hsplit] at hvalidAuthority
        have hcutAuthority : ∀ c ∈ cut, endsAuthority c = false := fun c hc =>
          (hvalidAuthority c (List.mem_append_left _ hc)).1
        have hcutOpen : ∀ c ∈ cut, endsUrl c = false := fun c hc =>
          open_of_urlChar (hvalidAuthority c (List.mem_append_left _ hc)).2 fun hquote =>
            hcut (hquote ▸ hc)
        obtain ⟨r, glued, htext, hbefore, hglued, hbehind, -⟩ :=
          @region_at front scheme cut ('\'' :: (more ++ '/' :: tail ++ render items)) hslash hscheme
            hcutOpen (Or.inr ⟨'\'', _, rfl, by decide⟩)
        obtain ⟨material', href⟩ := @Region.urlRef_authority OutOfFuel sha256 r cut []
          (hbehind.trans (List.append_nil cut).symm) hcutAuthority (Or.inl rfl)
        have htext' : front ++ render (.url scheme authority tail :: items) = r.text := by
          rw [htext, render_cons, hsplit]
          simp only [Item.text, List.append_assoc, List.cons_append]
        rw [htext'] at hloop
        obtain ⟨-, printed, hprinted, -⟩ := stripLoop_pushed href hloop
        have hsame := hostText_cut (fun c hc => (hvalid'.1.2.1 c hc).1) hcutAuthority
          (Region.reference_shown hbefore hglued hprinted hshown)
        have hnone : cut.count '\'' = 0 := List.count_eq_zero_of_not_mem hcut
        have hle := (hostText_sublist cut).count_le '\''
        have hpos := List.count_pos_iff.mpr hauthority
        rw [hsame, hnone] at hle
        omega
      -- the authority is whole: the region is the URL, and its reference takes its place
      · obtain ⟨r, glued, htext, hbefore, hglued, hbehind, hrest⟩ :=
          region_at hslash hscheme (behind_open hvalid'.1 hauthority htail) hafter
        obtain ⟨material', href⟩ := @Region.urlRef_authority OutOfFuel sha256 r _ _ hbehind
          (fun c hc => (hvalid'.1.2.1 c hc).1) (Or.inr ⟨'/', tail, rfl, by decide⟩)
        have htext' : front ++ render (.url scheme authority tail :: items) = r.text := by
          rw [htext, render_cons]
          simp only [Item.text, List.append_assoc, List.cons_append]
        rw [htext'] at hloop
        obtain ⟨fuel', printed, hprinted, hloop⟩ := stripLoop_pushed href hloop
        have hsame := Region.reference_shown hbefore hglued hprinted hshown
        obtain ⟨-, hbehindShown⟩ := List.append_inj (List.append_cancel_left hsame)
          ((Seal.length_pathRef material').trans (Seal.length_pathRef material).symm)
        rw [hrest] at hloop
        refine ⟨hauthority, htail, ih hvalid'.2 hapart hkeeps'.2 plain_nil hloop ?_ hpublished⟩
        rw [hprinted, List.append_assoc, hbehindShown, List.nil_append]
    | path tail =>
      by_cases hmark : schemeMark <:+: front ++ render (.path tail :: items)
      · -- the first slash of the path is pushed
        exfalso
        obtain ⟨material, published, rfl, -⟩ := hpublished
        rcases region_cases (front ++ render (.path tail :: items)) with hno | ⟨r, hr⟩
        · exact hno hmark
        · obtain ⟨_, _, _, -, -, -, href⟩ := @Region.urlRef_eq OutOfFuel sha256 r
          rw [← hr] at hloop
          obtain ⟨-, printed, hprinted, -⟩ := stripLoop_pushed href hloop
          have htext : r.text = front ++ '\'' :: '/' :: (tail ++ ['\''] ++ render items) := hr
          obtain ⟨more, hbefore⟩ := r.before_path hfront htext
          rw [hprinted, hbefore] at hshown
          simp only [List.append_assoc, List.append_cancel_left_eq, List.cons_append,
            List.cons.injEq, true_and] at hshown
          exact absurd (List.cons.inj hshown).1 (by decide)
      -- without a mark nothing behind is pushed
      · have hrest : ¬ schemeMark <:+: render (.path tail :: items) := fun hin =>
          hmark (hin.trans (List.suffix_append front _).isInfix)
        exact (concealed_of_unmarked hrest hkeeps).2

/-! ## What a message shows -/

/-- A detail that is left alone has words only. -/
theorem published_plain {items : List Item} (hmark : ¬ schemeMark <:+: render items)
    (hquote : '\'' ∉ render items) : Published sha256 items (render items) := by
  induction items with
  | nil => rfl
  | cons item items ih =>
    rw [render_cons] at hmark hquote
    have hitems := ih (fun hin => hmark (hin.trans (List.suffix_append _ _).isInfix))
      fun hmem => hquote (List.mem_append_right _ hmem)
    cases item with
    | words text => exact ⟨render items, rfl, hitems⟩
    | url scheme authority tail =>
      refine absurd ⟨scheme, authority ++ '/' :: tail ++ render items, ?_⟩ hmark
      simp only [Item.text, List.append_assoc]
    | path tail => exact absurd List.mem_cons_self hquote

theorem plainDetail_unquoted {detail : List Char} (h : plainDetail detail = true) :
    '\'' ∉ detail := by
  simp only [plainDetail, Bool.and_eq_true, Bool.not_eq_true', List.contains_eq_mem,
    decide_eq_false_iff_not] at h
  exact h.2.2

theorem strips_of_concealed {items : List Item} (hvalid : ∀ item ∈ items, item.Valid)
    (hapart : Apart items) (hbordered : Bordered (render items)) (h : Concealed items) :
    ∃ out, stripUrlShaped sha256 (render items) = .ok out ∧ Published sha256 items out := by
  cases hplain : plainDetail (render items) with
  | true =>
    refine ⟨render items, if_pos hplain, ?_⟩
    exact published_plain (plainDetail_unmarked hplain) (plainDetail_unquoted hplain)
  | false =>
    obtain ⟨out', rest, shown, published, hloop, hscrub, hshown, hpublished⟩ :=
      @publishes_of_concealed sha256 items hvalid hapart h [] plain_nil _ (Nat.le_refl _) hbordered
        []
    obtain ⟨shown', hscrub', hstrip⟩ := stripUrlShaped_loop hplain hloop
    obtain rfl : shown' = shown := Except.ok.inj (hscrub'.symm.trans hscrub)
    rw [hshown] at hstrip
    exact ⟨published, hstrip, hpublished⟩

theorem concealed_of_strips {items : List Item} (hvalid : ∀ item ∈ items, item.Valid)
    (hapart : Apart items) {out : List Char}
    (hstrip : stripUrlShaped sha256 (render items) = .ok out)
    (hpublished : Published sha256 items out) : Concealed items := by
  obtain ⟨hdquote, -, hkeeps⟩ := published_quotes hvalid hpublished
  cases hplain : plainDetail (render items) with
  | true =>
    have hout : render items = out := Except.ok.inj ((if_pos hplain).symm.trans hstrip)
    rw [hout] at hkeeps
    exact (concealed_of_unmarked (plainDetail_unmarked hplain) (hkeeps (Nat.le_refl _))).2
  | false =>
    cases hloop : stripLoop sha256 ((render items).length + 1) [] (render items) with
    | error e =>
      rw [stripUrlShaped_error hplain hloop] at hstrip
      cases hstrip
    | ok result =>
      obtain ⟨out', rest⟩ := result
      obtain ⟨shown, hscrub, hshown⟩ := stripUrlShaped_loop hplain hloop
      obtain rfl : out = out' ++ shown := Except.ok.inj (hstrip.symm.trans hshown)
      obtain ⟨printed, hprinted, hle⟩ := stripLoop_quotes hloop
      obtain rfl : out' = printed := hprinted
      have hscrubbed := (scrubFrom_quotes rest).1 shown hscrub fun hmem =>
        hdquote (List.mem_append_right out' hmem)
      have hcount : (render items).count '\'' ≤ (out' ++ shown).count '\'' := by
        rw [List.count_append]
        omega
      exact @concealed_of_published sha256 items hvalid hapart (hkeeps hcount) [] plain_nil _ []
        _ rest shown _ hloop rfl hpublished

/-- **A message shows no path**, only the words, the scheme, host and port of each URL, and digests,
exactly when a slice is never cut inside of a character, no URL has an apostrophe, no quoted path
has one or a `://`, and no quoted path stands in front of a URL. -/
theorem stripUrlShaped_publishes_iff (sha256 : Bytes → Bytes32) {items : List Item}
    (hvalid : ∀ item ∈ items, item.Valid) :
    (∃ out, stripUrlShaped sha256 (render items) = .ok out ∧
      Published sha256 (gather items) out) ↔ Bordered (render items) ∧ Concealed items := by
  have hvalid' := valid_gather hvalid
  rw [← render_gather items, ← concealed_gather hvalid]
  constructor
  · rintro ⟨out, hstrip, hpublished⟩
    refine ⟨?_, concealed_of_strips hvalid' (apart_gather items) hstrip hpublished⟩
    exact bordered_of_strips hstrip
  · rintro ⟨hbordered, hconcealed⟩
    exact strips_of_concealed hvalid' (apart_gather items) hbordered hconcealed

theorem valid_https {tail : List Char} (htail : tail.all urlChar = true) :
    (Item.url "https".toList "a.test".toList tail).Valid := by
  refine ⟨⟨'h', "ttps".toList, by decide, by decide, fun d hd => Or.inl ?_⟩, fun c hc => ?_,
    fun c hc => List.all_eq_true.mp htail c hc⟩
  · have hall : "ttps".toList.all Char.isAlphanum = true := by decide
    exact List.all_eq_true.mp hall d hd
  · have hall : "a.test".toList.all (fun c => !endsAuthority c && urlChar c) = true := by
      decide
    have hc := List.all_eq_true.mp hall c hc
    rw [Bool.and_eq_true, Bool.not_eq_true'] at hc
    exact hc

/-- A URL with a path and a query, and a quoted path. -/
theorem stripUrlShaped_publishes_url :
    ∃ out, stripUrlShaped (fun _ => Vector.replicate 32 0) (render [.url "https".toList
        "a.test".toList "secret?token=1".toList, .path "secret".toList]) = .ok out ∧
      Published (fun _ => Vector.replicate 32 0) (gather [.url "https".toList "a.test".toList
        "secret?token=1".toList, .path "secret".toList]) out := by
  refine (stripUrlShaped_publishes_iff _ ?_).mpr ⟨bordered_of_ascii (by decide), ?_⟩
  · rw [List.forall_mem_cons, List.forall_mem_singleton]
    exact ⟨valid_https (by decide), trivial⟩
  · exact ⟨by decide, by decide, by decide, by decide,
      fun item hitem => absurd hitem List.not_mem_nil, trivial⟩

/-- A quoted path in front of a URL is shown. -/
theorem stripUrlShaped_shows : ¬ ∀ (sha256 : Bytes → Bytes32) (items : List Item),
    (∀ item ∈ items, item.Valid) → ∃ out, stripUrlShaped sha256 (render items) = .ok out ∧
      Published sha256 (gather items) out := by
  intro h
  have hvalid : ∀ item ∈ [Item.path "secret".toList, .words " moved to ".toList,
      .url "https".toList "a.test".toList []], item.Valid := by
    rw [List.forall_mem_cons, List.forall_mem_cons, List.forall_mem_singleton]
    refine ⟨trivial, fun c hc => ?_, valid_https rfl⟩
    have hall : " moved to ".toList.all (fun c => decide (c ≠ '\'' ∧ c ≠ '"' ∧ c ≠ '/' ∧ c ≠ '?')) =
        true := by decide
    exact of_decide_eq_true (List.all_eq_true.mp hall c hc)
  obtain ⟨out, hstrip, hpublished⟩ := h (fun _ => Vector.replicate 32 0) _ hvalid
  rw [← render_gather] at hstrip
  have hconcealed := concealed_of_strips (valid_gather hvalid) (apart_gather _) hstrip hpublished
  rw [concealed_gather hvalid] at hconcealed
  exact Bool.noConfusion (hconcealed.2.2.1 _ (List.mem_cons_of_mem _ List.mem_cons_self))

end Basecrawl.Core
