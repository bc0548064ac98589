/-
  What `response.headers_hash` commits to.

  The field lines are rendered as text, sorted and joined.  The order of the fields is given up on
  purpose; the crux is the rendering, which reads a value lossily.  So the digest determines the
  fields as a multiset exactly when no value needs, or holds, a U+FFFD (`headerLines_commit_iff`).
-/
import Basecrawl.Lib.Framing
import Basecrawl.Lib.Lossy
import Basecrawl.Core.Fetch

namespace Basecrawl.Core

open Text Framing

/-! ## Lines -/

/-- `format!("{name}: {}", String::from_utf8_lossy(value))`. -/
def headerLine (field : String × Bytes) : String := field.1 ++ ": " ++ fromUtf8Lossy field.2

/-- The bytes fed to SHA-256 by `hash_header_lines`. -/
def headerLinesPreimage (headers : List (String × Bytes)) : Bytes :=
  utf8 (String.intercalate "\n" ((headers.map headerLine).insertionSort (· ≤ ·)))

theorem hashHeaderLines_eq (lib : FetchLib) (hlossy : lib.fromUtf8Lossy = fromUtf8Lossy)
    (headers : List (String × Bytes)) :
    hashHeaderLines lib headers = sha256Hex lib.digests (headerLinesPreimage headers) := by
  unfold hashHeaderLines
  rw [hlossy]
  rfl

/-- A field as `parse_http_response` returns it: a lower-cased token, and any bytes but CR, LF and
    NUL. -/
structure Received (field : String × Bytes) : Prop where
  nonempty : field.1 ≠ ""
  token : (utf8 field.1).all isTokenByte = true
  lower : asciiLower field.1 = field.1
  noCr : 0x0d ∉ field.2
  noLf : 0x0a ∉ field.2
  noNul : 0 ∉ field.2

/-- The bytes of a character are among the bytes of the text. -/
theorem encode_subset_utf8 {c : Char} {s : String} (h : c ∈ s.toList) :
    String.utf8EncodeChar c ⊆ utf8 s := by
  intro b hb
  rw [utf8_eq_flatMap]
  exact List.mem_flatMap.mpr ⟨c, h, hb⟩

/-- A name is cut off by the first colon, and holds no line feed. -/
theorem Received.name_chars {field : String × Bytes} (h : Received field) :
    ':' ∉ field.1.toList ∧ '\n' ∉ field.1.toList := by
  have htoken := List.all_eq_true.mp h.token
  constructor
  · intro hmem
    exact absurd (htoken 0x3a (encode_subset_utf8 hmem (by decide))) (by decide)
  · intro hmem
    exact absurd (htoken 0x0a (encode_subset_utf8 hmem (by decide))) (by decide)

/-- A line is not empty and is one line. -/
theorem Received.line_chars {field : String × Bytes} (h : Received field) :
    (headerLine field).toList ≠ [] ∧ '\n' ∉ (headerLine field).toList := by
  constructor
  · simp [headerLine]
  · simp only [headerLine, String.toList_append, List.mem_append, not_or]
    refine ⟨⟨h.name_chars.2, by decide⟩, ?_⟩
    intro hmem
    exact h.noLf (ascii_mem_fromUtf8Lossy (by decide) (encode_subset_utf8 hmem (by decide)))

/-- Equal preimages were made of the same lines. -/
theorem perm_of_preimage_eq {hs gs : List (String × Bytes)} (hh : ∀ f ∈ hs, Received f)
    (hg : ∀ f ∈ gs, Received f) (h : headerLinesPreimage hs = headerLinesPreimage gs) :
    (hs.map headerLine).Perm (gs.map headerLine) := by
  have hchars : ∀ fs : List (String × Bytes), (∀ f ∈ fs, Received f) →
      ∀ x ∈ ((fs.map headerLine).insertionSort (· ≤ ·)).map String.toList, x ≠ [] ∧ '\n' ∉ x := by
    intro fs hfs x hx
    obtain ⟨line, hline, rfl⟩ := List.mem_map.mp hx
    obtain ⟨f, hf, rfl⟩ := List.mem_map.mp ((List.perm_insertionSort (· ≤ ·) _).mem_iff.mp hline)
    exact (hfs f hf).line_chars
  have htext := congrArg String.toList (utf8_injective h)
  rw [String.toList_intercalate, String.toList_intercalate] at htext
  have hsorted := (List.map_inj_right fun _ _ => String.toList_injective).mp
    (intercalate_inj (hchars hs hh) (hchars gs hg) htext)
  exact ((List.perm_insertionSort (· ≤ ·) _).symm.trans (List.Perm.of_eq hsorted)).trans
    (List.perm_insertionSort (· ≤ ·) _)

/-! ## Reading a line back -/

/-- Name and text of a line. -/
def readLine (line : String) : String × Bytes :=
  (String.ofList (line.toList.takeWhile (· ≠ ':')),
    utf8 (String.ofList ((line.toList.dropWhile (· ≠ ':')).drop 2)))

theorem readLine_headerLine {field : String × Bytes} (h : Received field) :
    readLine (headerLine field) = (field.1, utf8 (fromUtf8Lossy field.2)) := by
  have hname : ∀ c ∈ field.1.toList, (decide (c ≠ ':')) = true := by
    intro c hc
    exact decide_eq_true (fun he => h.name_chars.1 (he ▸ hc))
  have hchars : (headerLine field).toList =
      field.1.toList ++ ':' :: ' ' :: (fromUtf8Lossy field.2).toList := by
    simp [headerLine]
  have htake : (headerLine field).toList.takeWhile (· ≠ ':') = field.1.toList := by
    rw [hchars, List.takeWhile_append_of_pos hname]
    simp
  have hdrop : (headerLine field).toList.dropWhile (· ≠ ':') =
      ':' :: ' ' :: (fromUtf8Lossy field.2).toList := by
    rw [hchars, List.dropWhile_append_of_pos hname]
    simp
  rw [readLine, htake, hdrop]
  show (String.ofList field.1.toList, utf8 (String.ofList (fromUtf8Lossy field.2).toList)) = _
  rw [String.ofList_toList, String.ofList_toList]

/-- A value that the text of its line determines: UTF-8, and without a U+FFFD of its own. -/
def Legible (value : Bytes) : Prop := ∃ s : String, value = utf8 s ∧ replacement ∉ s.toList

theorem legible_iff {value : Bytes} :
    Legible value ↔ replacement ∉ (fromUtf8Lossy value).toList := by
  constructor
  · rintro ⟨s, rfl, hs⟩
    rw [fromUtf8Lossy_utf8]
    exact hs
  · intro h
    exact ⟨fromUtf8Lossy value, (utf8_fromUtf8Lossy h).symm, h⟩

/-- Other bytes that stand for the same text can be received in place of a value. -/
theorem Received.withValue {field : String × Bytes} (h : Received field) {value : Bytes}
    (hascii : ∀ b ∈ value, b < 0x80 → b ∈ field.2) : Received (field.1, value) where
  nonempty := h.nonempty
  token := h.token
  lower := h.lower
  noCr := fun hmem => h.noCr (hascii _ hmem (by decide))
  noLf := fun hmem => h.noLf (hascii _ hmem (by decide))
  noNul := fun hmem => h.noNul (hascii _ hmem (by decide))

/-- A value that is not legible has another with the same line. -/
theorem exists_same_line {field : String × Bytes} (hreceived : Received field)
    (hbroken : ¬ Legible field.2) :
    ∃ other, Received other ∧ headerLine other = headerLine field ∧ other ≠ field := by
  rw [legible_iff, not_not] at hbroken
  obtain ⟨value, hne, hsame, hascii⟩ := exists_collision hbroken
  refine ⟨(field.1, value), hreceived.withValue hascii, ?_, ?_⟩
  · rw [headerLine, headerLine, hsame]
  · intro heq
    exact hne (congrArg Prod.snd heq)

/-- The line of a legible field is read back in full. -/
theorem readLine_of_legible {field : String × Bytes} (hreceived : Received field)
    (hlegible : Legible field.2) : readLine (headerLine field) = field := by
  rw [readLine_headerLine hreceived, utf8_fromUtf8Lossy (legible_iff.mp hlegible)]

/-- A field with the line of a legible one is legible too. -/
theorem Legible.of_line {f g : String × Bytes} (hlegible : Legible f.2) (hf : Received f)
    (hg : Received g) (hline : headerLine f = headerLine g) : Legible g.2 := by
  have hpair := congrArg readLine hline
  rw [readLine_headerLine hf, readLine_headerLine hg] at hpair
  have htext := utf8_injective (congrArg Prod.snd hpair)
  rw [legible_iff, ← htext]
  exact legible_iff.mp hlegible

theorem map_readLine {fields : List (String × Bytes)} (hreceived : ∀ f ∈ fields, Received f)
    (hlegible : ∀ f ∈ fields, Legible f.2) : (fields.map headerLine).map readLine = fields := by
  have hid : fields.map (readLine ∘ headerLine) = fields.map id :=
    List.map_congr_left fun f hf => readLine_of_legible (hreceived f hf) (hlegible f hf)
  rw [List.map_map, hid, List.map_id]

/-- **The digest commits to the received fields**, as a multiset, exactly when every value is UTF-8
    text without U+FFFD: else other fields render to the same lines. -/
theorem headerLines_commit_iff (headers : List (String × Bytes))
    (hreceived : ∀ field ∈ headers, Received field) :
    (∀ others, (∀ field ∈ others, Received field) →
      headerLinesPreimage headers = headerLinesPreimage others → headers.Perm others) ↔
    ∀ field ∈ headers, Legible field.2 := by
  constructor
  · intro h field hfield
    by_contra hbroken
    obtain ⟨other, hother, hline, hne⟩ := exists_same_line (hreceived field hfield) hbroken
    obtain ⟨before, after, rfl⟩ := List.append_of_mem hfield
    have hperm := h (before ++ other :: after) ?_ ?_
    · have hone := (List.perm_append_right_iff after).mp
        (show ([field] ++ after).Perm ([other] ++ after) from
          (List.perm_append_left_iff before).mp hperm)
      exact hne (List.singleton_perm_singleton.mp hone).symm
    · intro f hf
      rw [List.mem_append, List.mem_cons] at hf
      rcases hf with hf | rfl | hf
      · exact hreceived f (List.mem_append_left _ hf)
      · exact hother
      · exact hreceived f (List.mem_append_right _ (List.mem_cons_of_mem _ hf))
    · simp only [headerLinesPreimage, List.map_append, List.map_cons, hline]
  · intro hlegible others hothers h
    have hlines := perm_of_preimage_eq hreceived hothers h
    have hothersLegible : ∀ g ∈ others, Legible g.2 := by
      intro g hg
      obtain ⟨f, hf, hline⟩ := List.mem_map.mp
        (hlines.mem_iff.mpr (List.mem_map.mpr ⟨g, hg, rfl⟩))
      exact (hlegible f hf).of_line (hreceived f hf) (hothers g hg) hline
    have hback := hlines.map readLine
    rwa [map_readLine hreceived hlegible, map_readLine hothers hothersLegible] at hback

/-- A field with one byte for a value. -/
def byteField (b : UInt8) : String × Bytes := ("x-a", [b])

theorem received_byteField {b : UInt8} (hb : 0x20 ≤ b) : Received (byteField b) where
  nonempty := by
    show "x-a" ≠ ""
    decide
  token := by
    show (utf8 "x-a").all isTokenByte = true
    decide
  lower := by
    show asciiLower "x-a" = "x-a"
    decide
  noCr := by
    rw [byteField, List.mem_singleton]
    rintro rfl
    exact absurd hb (by decide)
  noLf := by
    rw [byteField, List.mem_singleton]
    rintro rfl
    exact absurd hb (by decide)
  noNul := by
    rw [byteField, List.mem_singleton]
    rintro rfl
    exact absurd hb (by decide)

theorem headerLines_commit_iff_ascii :
    headerLinesPreimage [byteField 0x41] ≠ headerLinesPreimage [byteField 0x42] := by
  intro h
  have hperm := (headerLines_commit_iff [byteField 0x41] (by
    intro f hf
    rw [List.mem_singleton.mp hf]
    exact received_byteField (by decide))).mpr (by
    intro f hf
    rw [List.mem_singleton.mp hf]
    exact ⟨"A", by decide, by decide⟩) [byteField 0x42] (by
    intro f hf
    rw [List.mem_singleton.mp hf]
    exact received_byteField (by decide)) h
  exact absurd (List.singleton_perm_singleton.mp hperm) (by decide)

/-- The bytes `fe` and `ff` in a value are not told apart. -/
theorem headerLines_collision :
    (∀ f ∈ [byteField 0xfe], Received f) ∧ (∀ f ∈ [byteField 0xff], Received f) ∧
    headerLinesPreimage [byteField 0xfe] = headerLinesPreimage [byteField 0xff] ∧
    ¬ [byteField 0xfe].Perm [byteField 0xff] := by
  refine ⟨?_, ?_, by decide, ?_⟩
  · intro f hf
    rw [List.mem_singleton.mp hf]
    exact received_byteField (by decide)
  · intro f hf
    rw [List.mem_singleton.mp hf]
    exact received_byteField (by decide)
  · intro h
    exact absurd (List.singleton_perm_singleton.mp h) (by decide)

end Basecrawl.Core
