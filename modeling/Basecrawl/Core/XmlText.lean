/-
  Character data of XML: the locations of a sitemap and the text of an office document.

  The XML reader is outside; it reports the references of a text (`&amp;`) as events of their own,
  between the texts around them.

  1. **Readers** — `parseSitemap` is with the robots policy; `xmlText` reads an office part, and
     `normalizeText` cleans up what was read.
  2. **Events** — what the reader reports for a text in a location and in a run.
  3. **Locations** — each reader leaves the references out (`foldl_locationEvents`,
     `foldlM_runEvents`).
  4. **Runs of text** — cleaning up keeps every character that is not white (`mem_normalizeText`).
  5. **Decoding** — `decodes_iff`: a text is read back iff it has nothing to refer to.
-/
import Basecrawl.Core.SitemapSearch
import Basecrawl.Core.Path
import Basecrawl.Lib.Chars

namespace Basecrawl.Core

open Text Chars

/-! ## Readers -/

/-- An event of the reader of an office part; text comes decoded, or with the decoder's error. -/
inductive OfficeEvent where
  | text (decoded : Except String Chars)
  | cdata (decoded : Except String Chars)
  | empty (name : Bytes)
  | finish (name : Bytes)
  | other

/-- What the reader reports: events up to the end, or up to an error. -/
structure OfficeReading where
  events : List OfficeEvent
  failure : Option String

/-- `is_break`. -/
def isBreak (name : Bytes) : Bool := [utf8 "br", utf8 "line-break"].contains (localName name)

/-- `is_paragraph`. -/
def isParagraph (name : Bytes) : Bool :=
  [utf8 "p", utf8 "h", utf8 "row"].contains (localName name)

/-- `append_text`: a blank between two pieces that have none. -/
def appendText (target text : Chars) : Chars :=
  if target = [] ∨ target.getLast?.any isWhitespace ∨ text = [] then target ++ text
  else target ++ [' '] ++ text

/-- One turn of `xml_text`. -/
def readOffice (text : Chars) : OfficeEvent → Except String Chars
  | .text (.ok value) | .cdata (.ok value) => .ok (appendText text value)
  | .text (.error e) | .cdata (.error e) => .error ("could not decode office XML text: " ++ e)
  | .empty name => .ok (if isBreak name then text ++ ['\n'] else text)
  | .finish name => .ok (if isParagraph name then text ++ ['\n'] else text)
  | .other => .ok text

/-- `xml_text`. -/
def xmlText (read : String → OfficeReading) (source : String) : Except String Chars := do
  let text ← (read source).events.foldlM readOffice []
  match (read source).failure with
  | some e => .error ("could not parse office XML: " ++ e)
  | none => .ok text

/-- `line.split_whitespace()`, joined by blanks. -/
def joinWords (line : Chars) : Chars :=
  [' '].intercalate ((line.splitOnP isWhitespace).filter (!·.isEmpty))

/-- `normalize_text`. -/
def normalizeText (text : Chars) : Chars :=
  ['\n'].intercalate (((Chars.lines text).map joinWords).filter (!·.isEmpty))

/-! ## Events -/

/-- The characters that are written as references. -/
def isEscaped (c : Char) : Bool := "&<>\"'".toList.contains c

/-- What stands between the references of an escaped text. -/
def pieces (s : Chars) : List Chars := s.splitOnP isEscaped

/-- White space of XML. -/
def isXmlSpace (c : Char) : Bool := [' ', '\t', '\r', '\n'].contains c

/-- `trim_text(true)` of the reader. -/
def trimXml (s : Chars) : Chars := trimWith isXmlSpace s

/-- Events with a reference between every two of the list. -/
def withReferences {ε : Type} (reference : ε) (events : List (List ε)) : List ε :=
  (events.intersperse [reference]).flatten

/-- The text of a location: the reader trims every piece, and reports none that is empty. -/
def locationEvents (s : Chars) : List XmlEvent :=
  withReferences .other ((pieces s).map fun piece =>
    if trimXml piece = [] then [] else [.text (some (String.ofList (trimXml piece)))])

/-- The element around a location. -/
def SitemapParent.tag : SitemapParent → Bytes
  | .url => utf8 "url"
  | .sitemap => utf8 "sitemap"

/-- The events of an entry of a sitemap. -/
def entryEvents (entry : SitemapParent × Chars) : List XmlEvent :=
  [.start entry.1.tag, .start (utf8 "loc")] ++ locationEvents entry.2 ++
    [.finish (utf8 "loc"), .finish entry.1.tag]

/-- The events of a sitemap: its root is not one of the elements that are looked for. -/
def sitemapEvents (entries : List (SitemapParent × Chars)) : List XmlEvent :=
  .other :: entries.flatMap entryEvents ++ [.other]

/-- The text of one run, which the reader does not trim, in some elements. -/
def runEvents (tags : List Bytes) (s : Chars) : List OfficeEvent :=
  tags.map (fun _ => .other) ++
    withReferences .other ((pieces s).map fun piece =>
      if piece = [] then [] else [.text (.ok piece)]) ++
    tags.reverse.map .finish

/-! ## Locations -/

/-- A reader that ignores references reads what stands between them. -/
theorem foldlM_withReferences {ε τ : Type} {m : Type → Type} [Monad m] [LawfulMonad m]
    {f : τ → ε → m τ} {reference : ε} (h : ∀ t, f t reference = pure t)
    (events : List (List ε)) (t : τ) :
    (withReferences reference events).foldlM f t = events.flatten.foldlM f t := by
  induction events generalizing t with
  | nil => rfl
  | cons first events ih =>
    cases events with
    | nil => rfl
    | cons second events =>
      have hstep : withReferences reference (first :: second :: events) =
          first ++ reference :: withReferences reference (second :: events) := rfl
      rw [hstep, List.flatten_cons, List.foldlM_append, List.foldlM_append]
      refine bind_congr fun t => ?_
      rw [List.foldlM_cons, h, pure_bind, ih]

theorem foldl_withReferences {ε τ : Type} {f : τ → ε → τ} {reference : ε}
    (h : ∀ t, f t reference = t) (events : List (List ε)) (t : τ) :
    (withReferences reference events).foldl f t = events.flatten.foldl f t := by
  rw [List.foldl_eq_foldlM, List.foldl_eq_foldlM]
  exact congrArg Id.run (foldlM_withReferences (m := Id) h events t)

/-- The text of a location that is read: the references are left out. -/
def keptLocation (s : Chars) : Chars := ((pieces s).map trimXml).flatten

/-- The pieces of a location are put together as they come. -/
theorem foldl_locationEvents (lib : RobotsLib) (base : Url) (s : Chars) {st : SitemapState}
    (h : st.inLoc = true) :
    (locationEvents s).foldl (SitemapState.event lib base) st =
      { st with location := st.location ++ String.ofList (keptLocation s) } := by
  rw [locationEvents, foldl_withReferences fun _ => rfl, keptLocation]
  generalize pieces s = list
  induction list generalizing st with
  | nil =>
    show st = { st with location := st.location ++ "" }
    rw [String.append_empty]
  | cons piece list ih =>
    rw [List.map_cons, List.flatten_cons, List.foldl_append, List.map_cons, List.flatten_cons]
    split
    · rename_i hnil
      rw [hnil]
      exact ih h
    · have hevent : st.event lib base (.text (some (String.ofList (trimXml piece)))) =
          { st with location := st.location ++ String.ofList (trimXml piece) } := if_pos h
      have hrest := @ih { st with location := st.location ++ String.ofList (trimXml piece) } h
      rw [List.foldl_cons, List.foldl_nil, hevent, hrest, String.ofList_append]
      dsimp only
      rw [String.append_assoc]

/-- What an entry adds to a sitemap, given the URL of its location. -/
def locatedEntry (parent : SitemapParent) (joined : Option Url) : SitemapDocument :=
  match joined with
  | none => {}
  | some url =>
      if isHttp url then
        match parent with
        | .url => { urlSeeds := [url.toString] }
        | .sitemap => { nestedSitemaps := [url] }
      else {}

/-- One sitemap and another. -/
def SitemapDocument.append (a b : SitemapDocument) : SitemapDocument :=
  ⟨a.urlSeeds ++ b.urlSeeds, a.nestedSitemaps ++ b.nestedSitemaps⟩

@[simp] theorem SitemapDocument.append_empty (a : SitemapDocument) : a.append {} = a := by
  unfold append
  rw [List.append_nil, List.append_nil]

@[simp] theorem SitemapDocument.empty_append (a : SitemapDocument) : append {} a = a := rfl

theorem SitemapDocument.append_assoc (a b c : SitemapDocument) :
    (a.append b).append c = a.append (b.append c) := by
  unfold append
  rw [List.append_assoc, List.append_assoc]

/-- The end of a location. -/
theorem SitemapState.closeLocation_eq (lib : RobotsLib) (base : Url) {st : SitemapState}
    {parent : SitemapParent} (h : st.parent = some parent) :
    st.closeLocation lib base =
      { st with
        inLoc := false
        result := st.result.append
          (locatedEntry parent (lib.url.join base (trim st.location))) } := by
  unfold closeLocation locatedEntry
  dsimp only
  cases lib.url.join base (Text.trim st.location) with
  | none =>
    dsimp only
    rw [SitemapDocument.append_empty]
  | some url =>
    dsimp only
    split
    · rw [h]
      cases parent with
      | url => simp [SitemapDocument.append]
      | sitemap => simp [SitemapDocument.append]
    · rw [SitemapDocument.append_empty]

/-- What an entry is read as. -/
def readEntry (lib : RobotsLib) (base : Url) (entry : SitemapParent × Chars) : SitemapDocument :=
  locatedEntry entry.1 (lib.url.join base (Text.trim (String.ofList (keptLocation entry.2))))

/-- An entry is read on its own. -/
theorem foldl_entryEvents (lib : RobotsLib) (base : Url) (entry : SitemapParent × Chars)
    (st : SitemapState) :
    (entryEvents entry).foldl (SitemapState.event lib base) st =
      { result := st.result.append (readEntry lib base entry)
        parent := none
        inLoc := false
        location := String.ofList (keptLocation entry.2) } := by
  obtain ⟨parent, s⟩ := entry
  have hstart : st.event lib base (.start parent.tag) = { st with parent := some parent } := by
    cases parent with
    | url => rfl
    | sitemap => rfl
  have hopen : ({ st with parent := some parent } : SitemapState).event lib base
      (.start (utf8 "loc")) =
      { st with parent := some parent, inLoc := true, location := "" } := rfl
  have hclose : ∀ st : SitemapState, st.inLoc = true →
      st.event lib base (.finish (utf8 "loc")) = st.closeLocation lib base :=
    fun st hst => if_pos ⟨rfl, hst⟩
  have hfinish : ∀ st : SitemapState,
      st.event lib base (.finish parent.tag) = { st with parent := none } := by
    intro st
    cases parent with
    | url => rfl
    | sitemap => rfl
  show (([XmlEvent.start parent.tag, .start (utf8 "loc")] ++ locationEvents s ++
    [XmlEvent.finish (utf8 "loc"), .finish parent.tag]).foldl _ st) = _
  have hopened : [XmlEvent.start parent.tag, .start (utf8 "loc")].foldl
      (SitemapState.event lib base) st =
      { st with parent := some parent, inLoc := true, location := "" } := by
    rw [List.foldl_cons, hstart]
    exact hopen
  rw [List.foldl_append, List.foldl_append, hopened, foldl_locationEvents lib base s rfl,
    List.foldl_cons, List.foldl_cons, List.foldl_nil, hclose _ rfl,
    SitemapState.closeLocation_eq lib base rfl, hfinish]
  dsimp only
  rw [String.empty_append]
  rfl

/-- What a list of entries is read as. -/
def readEntries (lib : RobotsLib) (base : Url) (entries : List (SitemapParent × Chars)) :
    SitemapDocument :=
  ((sitemapEvents entries).foldl (SitemapState.event lib base) {}).result

theorem foldl_entries (lib : RobotsLib) (base : Url) (entries : List (SitemapParent × Chars))
    (st : SitemapState) :
    ((entries.flatMap entryEvents).foldl (SitemapState.event lib base) st).result =
      entries.foldl (fun document entry => document.append (readEntry lib base entry))
        st.result := by
  induction entries generalizing st with
  | nil => rfl
  | cons entry entries ih =>
    rw [List.flatMap_cons, List.foldl_append, foldl_entryEvents, ih, List.foldl_cons]

theorem readEntries_eq (lib : RobotsLib) (base : Url) (entries : List (SitemapParent × Chars)) :
    readEntries lib base entries =
      entries.foldl (fun document entry => document.append (readEntry lib base entry)) {} := by
  rw [readEntries, sitemapEvents, List.foldl_append, List.foldl_cons]
  exact foldl_entries lib base entries {}

theorem foldl_append_eq (f : SitemapParent × Chars → SitemapDocument)
    (entries : List (SitemapParent × Chars)) (document : SitemapDocument) :
    entries.foldl (fun document entry => document.append (f entry)) document =
      document.append (entries.foldl (fun document entry => document.append (f entry)) {}) := by
  induction entries generalizing document with
  | nil => rw [List.foldl_nil, List.foldl_nil, SitemapDocument.append_empty]
  | cons entry entries ih =>
    rw [List.foldl_cons, List.foldl_cons, ih, ih (SitemapDocument.append {} (f entry)),
      SitemapDocument.empty_append, SitemapDocument.append_assoc]

/-- **Entries** are read one by one. -/
theorem readEntries_append_cons (lib : RobotsLib) (base : Url)
    (before after : List (SitemapParent × Chars)) (entry : SitemapParent × Chars) :
    readEntries lib base (before ++ entry :: after) =
      ((readEntries lib base before).append (readEntry lib base entry)).append
        (readEntries lib base after) := by
  rw [readEntries_eq, List.foldl_append, List.foldl_cons, foldl_append_eq, ← readEntries_eq,
    ← readEntries_eq]

/-! ## Runs of text -/

/-- The text of a run that is read: the pieces between its references, with blanks between them. -/
def keptRun (s : Chars) : Chars := (pieces s).foldl appendText []

theorem foldlM_pieces (list : List Chars) (text : Chars) :
    ((list.map fun piece => if piece = [] then [] else
      [OfficeEvent.text (.ok piece)]).flatten).foldlM readOffice text =
      .ok (list.foldl appendText text) := by
  induction list generalizing text with
  | nil => rfl
  | cons piece list ih =>
    rw [List.map_cons, List.flatten_cons, List.foldlM_append, List.foldl_cons]
    split
    · rename_i hnil
      rw [hnil, appendText, if_pos (Or.inr (Or.inr rfl)), List.append_nil]
      exact ih text
    · exact ih (appendText text piece)

/-- Elements that end add line feeds. -/
theorem foldlM_finish (names : List Bytes) (text : Chars) : ∃ feeds : Chars,
    (∀ c ∈ feeds, c = '\n') ∧
      (names.map OfficeEvent.finish).foldlM readOffice text = .ok (text ++ feeds) := by
  induction names generalizing text with
  | nil => exact ⟨[], fun _ h => (List.not_mem_nil h).elim, by rw [List.append_nil]; rfl⟩
  | cons name names ih =>
    cases hname : isParagraph name with
    | true =>
      obtain ⟨feeds, hfeeds, hrun⟩ := ih (text ++ ['\n'])
      refine ⟨'\n' :: feeds, ?_, ?_⟩
      · intro c hc
        rcases List.mem_cons.mp hc with rfl | hc
        · rfl
        · exact hfeeds c hc
      · rw [List.map_cons, List.foldlM_cons, readOffice, if_pos hname]
        show (names.map OfficeEvent.finish).foldlM readOffice (text ++ ['\n']) = _
        rw [hrun, List.append_assoc, List.singleton_append]
    | false =>
      obtain ⟨feeds, hfeeds, hrun⟩ := ih text
      refine ⟨feeds, hfeeds, ?_⟩
      rw [List.map_cons, List.foldlM_cons, readOffice, if_neg (by simp [hname])]
      exact hrun

theorem foldlM_other (tags : List Bytes) (text : Chars) :
    (tags.map fun _ => OfficeEvent.other).foldlM readOffice text = .ok text := by
  induction tags with
  | nil => rfl
  | cons tag tags ih => exact ih

/-- **A run** is read without its references. -/
theorem xmlText_run {read : String → OfficeReading} {source : String} {tags : List Bytes}
    {s : Chars} (h : read source = ⟨runEvents tags s, none⟩) : ∃ feeds : Chars,
    (∀ c ∈ feeds, c = '\n') ∧ xmlText read source = .ok (keptRun s ++ feeds) := by
  obtain ⟨feeds, hfeeds, hrun⟩ := foldlM_finish tags.reverse (keptRun s)
  refine ⟨feeds, hfeeds, ?_⟩
  have hevents : (runEvents tags s).foldlM readOffice [] = .ok (keptRun s ++ feeds) := by
    rw [runEvents, List.foldlM_append, List.foldlM_append, foldlM_other]
    show (withReferences _ _).foldlM readOffice [] >>= _ = _
    rw [foldlM_withReferences fun _ => rfl, foldlM_pieces]
    exact hrun
  rw [xmlText, h]
  dsimp only
  rw [hevents]
  rfl

theorem joinWords_append_white {c : Char} (h : isWhitespace c = true) (line : Chars) :
    joinWords (line ++ [c]) = joinWords line := by
  rw [joinWords, List.splitOnP_append_cons line [] h, List.filter_append, List.splitOnP_nil]
  show [' '].intercalate (_ ++ []) = _
  rw [List.append_nil]
  rfl

/-- Carriage returns at the end of a line, and a last line that is empty, make no difference. -/
theorem normalizeText_eq (text : Chars) : normalizeText text =
    ['\n'].intercalate (((text.splitOn '\n').map joinWords).filter (!·.isEmpty)) := by
  have hstrip : (joinWords ∘ fun piece : Chars =>
      if piece.getLast? = some '\r' then piece.dropLast else piece) = joinWords := by
    funext piece
    show joinWords (if piece.getLast? = some '\r' then piece.dropLast else piece) = _
    split
    · rename_i hlast
      conv_rhs => rw [← List.dropLast_append_getLast? '\r' hlast]
      rw [joinWords_append_white rfl]
    · rfl
  rw [normalizeText, Chars.lines]
  rcases List.eq_nil_or_concat (text.splitOn '\n') with hnil | ⟨init, last, hsplit⟩
  · exact absurd hnil (List.splitOn_ne_nil _ _)
  · rw [hsplit, List.concat_eq_append, List.getLast?_concat, List.dropLast_concat]
    cases last with
    | nil =>
      rw [List.map_map, hstrip, List.map_append, List.filter_append]
      show _ = ['\n'].intercalate (_ ++ [])
      rw [List.append_nil]
    | cons c last => rw [List.map_append, List.map_map, hstrip, List.map_append]

theorem normalizeText_append_feeds {feeds : Chars} (h : ∀ c ∈ feeds, c = '\n') (text : Chars) :
    normalizeText (text ++ feeds) = normalizeText text := by
  induction feeds generalizing text with
  | nil => rw [List.append_nil]
  | cons c feeds ih =>
    obtain rfl := h c List.mem_cons_self
    have hfeed : normalizeText (text ++ ['\n']) = normalizeText text := by
      rw [normalizeText_eq, normalizeText_eq, List.splitOn, List.splitOnP_append_cons text [] rfl,
        List.map_append, List.filter_append]
      show ['\n'].intercalate (_ ++ []) = _
      rw [List.append_nil]
      rfl
    calc normalizeText (text ++ '\n' :: feeds)
        = normalizeText (text ++ ['\n'] ++ feeds) := by rw [List.append_assoc]; rfl
      _ = normalizeText (text ++ ['\n']) := ih (fun d hd => h d (List.mem_cons_of_mem _ hd)) _
      _ = normalizeText text := hfeed

theorem ink_joinWords (line : Chars) : ink (joinWords line) = ink line := by
  have hblank : Blank [' '] := fun c hc => by
    rw [List.mem_singleton.mp hc]
    rfl
  rw [joinWords, ink_intercalate hblank, flatten_filter_isEmpty]
  exact ink_flatten_splitOnP (fun _ h => h) line

/-- **Cleaning up** keeps every character that is not white, in order. -/
theorem ink_normalizeText (text : Chars) : ink (normalizeText text) = ink text := by
  have hblank : Blank ['\n'] := fun c hc => by
    rw [List.mem_singleton.mp hc]
    rfl
  have hlines : ∀ list : List Chars, ink (list.map joinWords).flatten = ink list.flatten := by
    intro list
    induction list with
    | nil => rfl
    | cons line list ih =>
      rw [List.map_cons, List.flatten_cons, List.flatten_cons, ink_append, ink_append,
        ink_joinWords, ih]
  rw [normalizeText_eq, ink_intercalate hblank, flatten_filter_isEmpty, hlines]
  refine ink_flatten_splitOnP (fun c hc => ?_) text
  rw [show c = '\n' from beq_iff_eq.mp hc]
  rfl

/-! ## Decoding -/

/-- The blanks at both ends. -/
def trimBlanks (s : Chars) : Chars := trimWith (· == ' ') s

/-- Blanks around a reference are no part of it. -/
def UrlLib.IgnoresBlanks (lib : UrlLib) : Prop :=
  ∀ base reference,
    lib.join base reference = lib.join base (String.ofList (trimBlanks reference.toList))

/-- In every sitemap, a text in a location is the reference that is joined. -/
def Locates (s : Chars) : Prop :=
  ∀ (lib : RobotsLib), lib.url.IgnoresBlanks → ∀ (base : Url)
      (before after : List (SitemapParent × Chars)) (parent : SitemapParent) (source : String),
    lib.xmlEvents source = sitemapEvents (before ++ (parent, s) :: after) →
    parseSitemap lib source base =
      ((readEntries lib base before).append
        (locatedEntry parent (lib.url.join base (String.ofList s)))).append
        (readEntries lib base after)

/-- In an office part, the text of a run is read back up to white space. -/
def ReadsBack (s : Chars) : Prop :=
  ∀ (read : String → OfficeReading) (source : String) (tags : List Bytes),
    read source = ⟨runEvents tags s, none⟩ →
    ∃ text, xmlText read source = .ok text ∧ normalizeText text = normalizeText s

/-- Both readers give back a text that was escaped. -/
def Decodes (s : Chars) : Prop := Locates s ∧ ReadsBack s

theorem isXmlSpace_white {c : Char} (h : isXmlSpace c = true) : isWhitespace c = true := by
  rcases List.mem_cons.mp (List.contains_iff_mem.mp h) with rfl | h
  · rfl
  rcases List.mem_cons.mp h with rfl | h
  · rfl
  rcases List.mem_cons.mp h with rfl | h
  · rfl
  · rw [List.mem_singleton.mp h]
    rfl

theorem isBlank_white {c : Char} (h : (c == ' ') = true) : isWhitespace c = true := by
  rw [beq_iff_eq.mp h]
  rfl

theorem isEscaped_not_white {c : Char} (h : isEscaped c = true) : isWhitespace c = false := by
  have hall : ("&<>\"'".toList.all fun c => !isWhitespace c) = true := by decide
  have hc := List.all_eq_true.mp hall c (List.contains_iff_mem.mp h)
  rwa [Bool.not_eq_true'] at hc

/-- Nothing that is escaped is left of a piece. -/
theorem isEscaped_of_mem_pieces {s piece : Chars} {c : Char} (hpiece : piece ∈ pieces s)
    (hc : c ∈ piece) : isEscaped c = false := by
  have hmem : c ∈ (pieces s).flatten := List.mem_flatten.mpr ⟨piece, hpiece, hc⟩
  rw [pieces, flatten_splitOnP, List.mem_filter, Bool.not_eq_true'] at hmem
  exact hmem.2

theorem isEscaped_of_mem_keptLocation {s : Chars} {c : Char} (hc : c ∈ keptLocation s) :
    isEscaped c = false := by
  obtain ⟨trimmed, htrimmed, hc⟩ := List.mem_flatten.mp hc
  obtain ⟨piece, hpiece, rfl⟩ := List.mem_map.mp htrimmed
  exact isEscaped_of_mem_pieces hpiece (trimWith_subset _ _ hc)

theorem ink_keptRun (s : Chars) : ink (keptRun s) = ink (pieces s).flatten := by
  have happend : ∀ text piece : Chars, ink (appendText text piece) = ink text ++ ink piece := by
    intro text piece
    unfold appendText
    split
    · exact ink_append _ _
    · rw [ink_append, ink_append]
      show ink text ++ [] ++ ink piece = _
      rw [List.append_nil]
  have hfold : ∀ (list : List Chars) (text : Chars),
      ink (list.foldl appendText text) = ink text ++ ink list.flatten := by
    intro list
    induction list with
    | nil =>
      intro text
      exact (List.append_nil _).symm
    | cons piece list ih =>
      intro text
      rw [List.foldl_cons, ih, happend, List.flatten_cons, ink_append, List.append_assoc]
  exact hfold (pieces s) []

section

variable {s : Chars}

theorem pieces_of_plain (h : ∀ c ∈ s, isEscaped c = false) : pieces s = [s] :=
  List.splitOnP_eq_singleton h

/-- A text with nothing to refer to is located when its ends are blank at most. -/
theorem locates_of_plain (h : ∀ c ∈ s, isEscaped c = false)
    (hends : Chars.trim s = trimBlanks s) : Locates s := by
  intro lib hlib base before after parent source hsource
  have hkept : Text.trim (String.ofList (keptLocation s)) = String.ofList (trimBlanks s) := by
    rw [keptLocation, pieces_of_plain h, List.map_singleton, List.flatten_singleton, ← hends,
      trim_eq_trimWith, ← trimWith_trimWith fun _ => isXmlSpace_white]
    rw [Text.trim, String.toList_ofList]
    rfl
  have hread : readEntry lib base (parent, s) =
      locatedEntry parent (lib.url.join base (String.ofList s)) := by
    rw [hlib base (String.ofList s), String.toList_ofList, ← hkept]
    rfl
  rw [← hread, ← readEntries_append_cons, readEntries, ← hsource]
  rfl

theorem readsBack_of_plain (h : ∀ c ∈ s, isEscaped c = false) : ReadsBack s := by
  intro read source tags hsource
  obtain ⟨feeds, hfeeds, htext⟩ := xmlText_run hsource
  have hkept : keptRun s = s := by
    rw [keptRun, pieces_of_plain h]
    show appendText [] s = s
    rw [appendText, if_pos (Or.inl rfl), List.nil_append]
  refine ⟨_, htext, ?_⟩
  rw [normalizeText_append_feeds hfeeds, hkept]

/-- What is referred to is lost in a run. -/
theorem plain_of_readsBack (h : ReadsBack s) : ∀ c ∈ s, isEscaped c = false := by
  intro c hc
  cases hescaped : isEscaped c with
  | false => rfl
  | true =>
    exfalso
    let read : String → OfficeReading := fun _ => ⟨runEvents [] s, none⟩
    have hread : read "" = ⟨runEvents [] s, none⟩ := rfl
    obtain ⟨text, htext, hsame⟩ := h read "" [] hread
    obtain ⟨feeds, hfeeds, hrun⟩ := xmlText_run hread
    obtain rfl := Except.ok.inj (htext.symm.trans hrun)
    have hink : ink (pieces s).flatten = ink s := by
      rw [← ink_keptRun, ← ink_normalizeText, ← normalizeText_append_feeds hfeeds, hsame,
        ink_normalizeText]
    have hmem : c ∈ ink (pieces s).flatten := by
      rw [hink]
      exact mem_ink.mpr ⟨hc, isEscaped_not_white hescaped⟩
    obtain ⟨piece, hpiece, hcpiece⟩ := List.mem_flatten.mp (mem_ink.mp hmem).1
    rw [isEscaped_of_mem_pieces hpiece hcpiece] at hescaped
    cases hescaped

/-- The other crates with a text in the only location of every sitemap, and a reference that is told
    from all others but for the blanks around it. -/
def probeLib (s : Chars) : RobotsLib :=
  { scriptedScrapeLib.toRobotsLib with
    url :=
      { parse := fun _ => .error .other
        join := fun _ reference =>
          if trimBlanks reference.toList = trimBlanks s then some (shopUrl "/") else none }
    xmlEvents := fun _ => sitemapEvents [(.url, s)] }

theorem probeLib_join (s : Chars) (base : Url) (reference : String) :
    (probeLib s).url.join base reference =
      if trimBlanks reference.toList = trimBlanks s then some (shopUrl "/") else none :=
  rfl

theorem probeLib_ignoresBlanks (s : Chars) : (probeLib s).url.IgnoresBlanks := by
  intro base reference
  have hagain : trimBlanks (trimBlanks reference.toList) = trimBlanks reference.toList :=
    trimWith_of_wider (fun _ h => h) _
  rw [probeLib_join, probeLib_join, String.toList_ofList, hagain]

/-- What is read of a location is what stood there, but for blanks. -/
theorem trim_keptLocation_of_locates (h : Locates s) :
    trimBlanks (Chars.trim (keptLocation s)) = trimBlanks s := by
  have hread := h (probeLib s) (probeLib_ignoresBlanks s) (shopUrl "/") [] [] .url "" rfl
  have hjoined : (probeLib s).url.join (shopUrl "/") (String.ofList s) = some (shopUrl "/") := by
    rw [probeLib_join, String.toList_ofList, if_pos rfl]
  have hseeds : (readEntry (probeLib s) (shopUrl "/") (.url, s)).urlSeeds =
      [(shopUrl "/").toString] := by
    have hentry : parseSitemap (probeLib s) "" (shopUrl "/") =
        readEntries (probeLib s) (shopUrl "/") [(.url, s)] := by
      rw [parseSitemap, readEntries]
      rfl
    have hlocated : locatedEntry .url (some (shopUrl "/")) =
        { urlSeeds := [(shopUrl "/").toString] } := by
      have hweb : isHttp (shopUrl "/") = true := rfl
      rw [locatedEntry, if_pos hweb]
    have hnone : readEntries (probeLib s) (shopUrl "/") [] = {} := rfl
    rw [hentry, readEntries_eq, List.foldl_cons, List.foldl_nil, hnone, hjoined, hlocated,
      SitemapDocument.append_empty, SitemapDocument.empty_append,
      SitemapDocument.empty_append] at hread
    rw [hread]
  by_contra hne
  have hnone : readEntry (probeLib s) (shopUrl "/") (.url, s) = {} := by
    have hjoin : (probeLib s).url.join (shopUrl "/")
        (Text.trim (String.ofList (keptLocation s))) = none := by
      rw [probeLib_join, Text.trim, String.toList_ofList, String.toList_ofList]
      exact if_neg hne
    rw [readEntry]
    dsimp only
    rw [hjoin]
    rfl
  rw [hnone] at hseeds
  cases hseeds

end

/-- **Decoding**: a text that is escaped is read back, as a location and as a run, exactly when it
    has no character that is escaped and no white space but blanks at its ends. -/
theorem decodes_iff (s : Chars) : Decodes s ↔
    (∀ c ∈ s, isEscaped c = false) ∧ Chars.trim s = trimBlanks s := by
  constructor
  · rintro ⟨hlocates, hreads⟩
    have hplain := plain_of_readsBack hreads
    refine ⟨hplain, ?_⟩
    have hkept := trim_keptLocation_of_locates hlocates
    rw [keptLocation, pieces_of_plain hplain, List.map_singleton, List.flatten_singleton,
      trim_eq_trimWith, trimXml, trimWith_trimWith fun _ => isXmlSpace_white, trimBlanks,
      trimWith_of_wider fun _ => isBlank_white] at hkept
    exact hkept
  · rintro ⟨hplain, hends⟩
    exact ⟨locates_of_plain hplain hends, readsBack_of_plain hplain⟩

/-- A second parameter of a query is enough for a text that is not read back. -/
theorem not_decodes : ¬ Decodes "/list?page=2&sort=name".toList := by
  rintro ⟨-, hreads⟩
  have hplain := plain_of_readsBack hreads '&' (by decide)
  exact absurd hplain (by decide)

end Basecrawl.Core
