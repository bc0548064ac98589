/-
  UTF-8 decoding that never fails.

  `String::from_utf8_lossy` writes U+FFFD for every sequence that breaks off: the longest piece of
  it that some encoding could have started with.  The crux is what of the bytes survives
  (`utf8_fromUtf8Lossy`): a text without U+FFFD determines its bytes, and a text with one never does
  (`exists_collision`).
-/
import Basecrawl.Lib.Text

namespace Basecrawl.Text

/-! ## Decoding -/

/-- The character whose encoding is at the head of the bytes. -/
def decodeChar (bytes : Bytes) : Option Char := ByteArray.utf8DecodeChar? ⟨bytes.toArray⟩ 0

/-- A continuation byte. -/
def isContinuation (b : UInt8) : Bool := b &&& 0xc0 == 0x80

/-- The second byte goes with the first byte of a three-byte encoding. -/
def fitsThree (first second : UInt8) : Bool :=
  (first == 0xe0 && 0xa0 ≤ second && second ≤ 0xbf) ||
    (0xe1 ≤ first && first ≤ 0xec && 0x80 ≤ second && second ≤ 0xbf) ||
    (first == 0xed && 0x80 ≤ second && second ≤ 0x9f) ||
    (0xee ≤ first && first ≤ 0xef && 0x80 ≤ second && second ≤ 0xbf)

/-- The second byte goes with the first byte of a four-byte encoding. -/
def fitsFour (first second : UInt8) : Bool :=
  (first == 0xf0 && 0x90 ≤ second && second ≤ 0xbf) ||
    (0xf1 ≤ first && first ≤ 0xf3 && 0x80 ≤ second && second ≤ 0xbf) ||
    (first == 0xf4 && 0x80 ≤ second && second ≤ 0x8f)

/-- How many bytes a sequence that breaks off is given up for. -/
def brokenLength : Bytes → Nat
  | first :: second :: rest =>
      if fitsThree first second then 2
      else if fitsFour first second then
        match rest with
        | third :: _ => if isContinuation third then 3 else 2
        | [] => 2
      else 1
  | _ => 1

/-- The replacement character. -/
def replacement : Char := '\uFFFD'

/-- Decode from left to right; the number counts the bytes of a sequence still to be passed over. -/
def lossyChars : Bytes → Nat → List Char
  | [], _ => []
  | _ :: bytes, passed + 1 => lossyChars bytes passed
  | b :: bytes, 0 =>
      match decodeChar (b :: bytes) with
      | some c => c :: lossyChars bytes (c.utf8Size - 1)
      | none => replacement :: lossyChars bytes (brokenLength (b :: bytes) - 1)

/-- `String::from_utf8_lossy`. -/
def fromUtf8Lossy (bytes : Bytes) : String := String.ofList (lossyChars bytes 0)

/-! ## One sequence -/

theorem decodeChar_encode_append (c : Char) (rest : Bytes) :
    decodeChar (String.utf8EncodeChar c ++ rest) = some c := by
  have hbytes : (⟨(String.utf8EncodeChar c ++ rest).toArray⟩ : ByteArray) =
      (String.utf8EncodeChar c).toByteArray ++ ⟨rest.toArray⟩ := by
    apply ByteArray.ext
    simp
  rw [decodeChar, hbytes]
  exact ByteArray.utf8DecodeChar?_utf8EncodeChar_append

theorem decodeChar_eq_some {bytes : Bytes} {c : Char} :
    decodeChar bytes = some c ↔ ∃ rest, bytes = String.utf8EncodeChar c ++ rest := by
  constructor
  · intro h
    obtain ⟨rest, hrest⟩ := ByteArray.exists_of_utf8DecodeChar?_eq_some h
    refine ⟨rest.data.toList, ?_⟩
    have hdata := congrArg (fun b : ByteArray => b.data.toList) hrest
    simpa using hdata
  · rintro ⟨rest, rfl⟩
    exact decodeChar_encode_append c rest

/-- No encoding starts with `0xff`. -/
theorem decodeChar_ff (rest : Bytes) : decodeChar (0xff :: rest) = none := by
  cases h : decodeChar (0xff :: rest) with
  | none => rfl
  | some c =>
    exfalso
    have hfirst := ByteArray.isUTF8FirstByte_of_isSome_utf8DecodeChar? (i := 0)
      (b := ⟨(0xff :: rest).toArray⟩) (by rw [← decodeChar, h]; rfl)
    revert hfirst
    show ¬ UInt8.IsUTF8FirstByte 0xff
    decide

theorem lossyChars_passed (bytes : Bytes) : ∀ passed,
    lossyChars bytes passed = lossyChars (bytes.drop passed) 0 := by
  induction bytes with
  | nil => intro passed; simp [lossyChars]
  | cons b bytes ih =>
    intro passed
    cases passed with
    | zero => rfl
    | succ passed => exact ih passed

/-- A proper encoding is read as its character. -/
theorem lossyChars_encode (c : Char) (rest : Bytes) :
    lossyChars (String.utf8EncodeChar c ++ rest) 0 = c :: lossyChars rest 0 := by
  have hlen := String.length_utf8EncodeChar c
  have hpos := c.utf8Size_pos
  have hdecode := decodeChar_encode_append c rest
  cases hbytes : String.utf8EncodeChar c with
  | nil =>
    rw [hbytes, List.length_nil] at hlen
    omega
  | cons b tail =>
    rw [hbytes, List.length_cons] at hlen
    rw [hbytes, List.cons_append] at hdecode
    have hdrop : (tail ++ rest).drop (c.utf8Size - 1) = rest := List.drop_left' (by omega)
    rw [List.cons_append, lossyChars, hdecode]
    show c :: lossyChars (tail ++ rest) (c.utf8Size - 1) = _
    rw [lossyChars_passed, hdrop]

theorem brokenLength_pos (bytes : Bytes) : 0 < brokenLength bytes := by
  unfold brokenLength
  repeat' split
  all_goals omega

/-- A broken sequence is read as U+FFFD. -/
theorem lossyChars_broken {bytes : Bytes} (hne : bytes ≠ []) (hbroken : decodeChar bytes = none) :
    lossyChars bytes 0 = replacement :: lossyChars (bytes.drop (brokenLength bytes)) 0 := by
  cases bytes with
  | nil => exact absurd rfl hne
  | cons b bytes =>
    have hpos := brokenLength_pos (b :: bytes)
    rw [lossyChars, hbroken]
    show replacement :: lossyChars bytes (brokenLength (b :: bytes) - 1) = _
    rw [lossyChars_passed]
    cases hlen : brokenLength (b :: bytes) with
    | zero => omega
    | succ n => rfl

/-- What holds of a text sequence by sequence holds of it. -/
theorem lossy_induction {P : Bytes → Prop} (hnil : P [])
    (hchar : ∀ c rest, P rest → P (String.utf8EncodeChar c ++ rest))
    (hbroken : ∀ bytes, bytes ≠ [] → decodeChar bytes = none →
      P (bytes.drop (brokenLength bytes)) → P bytes) (bytes : Bytes) : P bytes := by
  induction hlen : bytes.length using Nat.strongRecOn generalizing bytes with
  | ind n ih =>
    by_cases hne : bytes = []
    · rw [hne]
      exact hnil
    · cases hdecode : decodeChar bytes with
      | none =>
        have hpos := brokenLength_pos bytes
        have hbytes := List.length_pos_iff.mpr hne
        refine hbroken bytes hne hdecode (ih _ ?_ _ rfl)
        rw [List.length_drop]
        omega
      | some c =>
        obtain ⟨rest, rfl⟩ := decodeChar_eq_some.mp hdecode
        have hsize := String.length_utf8EncodeChar c
        have hpos := c.utf8Size_pos
        refine hchar c rest (ih _ ?_ rest rfl)
        rw [List.length_append] at hlen
        omega

/-! ## Whole texts -/

theorem lossyChars_encode_append (cs : List Char) (rest : Bytes) :
    lossyChars (cs.flatMap String.utf8EncodeChar ++ rest) 0 = cs ++ lossyChars rest 0 := by
  induction cs with
  | nil => rfl
  | cons c cs ih =>
    rw [List.flatMap_cons, List.append_assoc, lossyChars_encode, ih, List.cons_append]

/-- A proper text is read as itself. -/
theorem fromUtf8Lossy_utf8 (s : String) : fromUtf8Lossy (utf8 s) = s := by
  have hchars := lossyChars_encode_append s.toList []
  rw [List.append_nil] at hchars
  rw [fromUtf8Lossy, utf8_eq_flatMap, hchars]
  show String.ofList (s.toList ++ []) = s
  rw [List.append_nil, String.ofList_toList]

/-- **What survives**: a text without U+FFFD has all the bytes it was read from. -/
theorem utf8_fromUtf8Lossy {bytes : Bytes} (h : replacement ∉ (fromUtf8Lossy bytes).toList) :
    utf8 (fromUtf8Lossy bytes) = bytes := by
  rw [fromUtf8Lossy, String.toList_ofList] at h
  rw [fromUtf8Lossy, utf8_eq_flatMap, String.toList_ofList]
  revert h
  refine lossy_induction (P := fun bytes => replacement ∉ lossyChars bytes 0 →
    (lossyChars bytes 0).flatMap String.utf8EncodeChar = bytes) ?_ ?_ ?_ bytes
  · intro _
    rfl
  · intro c rest ih h
    rw [lossyChars_encode, List.mem_cons, not_or] at h
    rw [lossyChars_encode, List.flatMap_cons, ih h.2]
  · intro bytes hne hbroken _ h
    rw [lossyChars_broken hne hbroken] at h
    exact absurd List.mem_cons_self h

/-- No ASCII byte is made up: those of the text were in the bytes. -/
theorem ascii_mem_fromUtf8Lossy {bytes : Bytes} {b : UInt8} (hascii : b < 0x80)
    (h : b ∈ utf8 (fromUtf8Lossy bytes)) : b ∈ bytes := by
  rw [fromUtf8Lossy, utf8_eq_flatMap, String.toList_ofList] at h
  revert h
  refine lossy_induction (P := fun bytes => b ∈ (lossyChars bytes 0).flatMap String.utf8EncodeChar →
    b ∈ bytes) ?_ ?_ ?_ bytes
  · intro h
    exact h
  · intro c rest ih h
    rw [lossyChars_encode, List.flatMap_cons, List.mem_append] at h
    exact List.mem_append.mpr (h.imp_right ih)
  · intro bytes hne hbroken ih h
    rw [lossyChars_broken hne hbroken, List.flatMap_cons, List.mem_append] at h
    rcases h with h | h
    · have hhigh : (String.utf8EncodeChar replacement).all (fun b => 0x80 ≤ b) = true := by decide
      have hb := of_decide_eq_true (List.all_eq_true.mp hhigh b h)
      exact absurd hascii (UInt8.not_lt.mpr hb)
    · exact List.mem_of_mem_drop (ih h)

/-- **What does not**: bytes that are read with U+FFFD share their text with other bytes, in which
    no new ASCII byte occurs. -/
theorem exists_collision {bytes : Bytes} (h : replacement ∈ (fromUtf8Lossy bytes).toList) :
    ∃ other, other ≠ bytes ∧ fromUtf8Lossy other = fromUtf8Lossy bytes ∧
      ∀ b ∈ other, b < 0x80 → b ∈ bytes := by
  by_cases hproper : utf8 (fromUtf8Lossy bytes) = bytes
  · -- the text holds a U+FFFD of its own: a broken byte in its place reads the same
    obtain ⟨before, after, hsplit⟩ := List.append_of_mem h
    have hbytes : bytes = before.flatMap String.utf8EncodeChar ++
        (String.utf8EncodeChar replacement ++ after.flatMap String.utf8EncodeChar) := by
      rw [← hproper, utf8_eq_flatMap, hsplit, List.flatMap_append, List.flatMap_cons]
    refine ⟨before.flatMap String.utf8EncodeChar ++ 0xff :: after.flatMap String.utf8EncodeChar,
      ?_, ?_, ?_⟩
    · rw [hbytes]
      intro he
      have hlen := congrArg List.length (List.append_cancel_left he)
      have hsize : (String.utf8EncodeChar replacement).length = 3 := by decide
      rw [List.length_append, List.length_cons, hsize] at hlen
      omega
    · have hone : brokenLength (0xff :: after.flatMap String.utf8EncodeChar) = 1 := by
        cases after.flatMap String.utf8EncodeChar with
        | nil => rfl
        | cons b rest => simp [brokenLength, fitsThree, fitsFour]
      have hafter := lossyChars_encode_append after []
      simp only [List.append_nil] at hafter
      have hother : lossyChars (before.flatMap String.utf8EncodeChar ++
          0xff :: after.flatMap String.utf8EncodeChar) 0 = before ++ replacement :: after := by
        rw [lossyChars_encode_append, lossyChars_broken (by simp) (decodeChar_ff _), hone,
          List.drop_one, List.tail_cons, hafter]
        simp [lossyChars]
      rw [fromUtf8Lossy, hother, ← hsplit, String.ofList_toList]
    · intro b hb hascii
      rw [List.mem_append, List.mem_cons] at hb
      rw [hbytes, List.mem_append, List.mem_append]
      rcases hb with hb | rfl | hb
      · exact Or.inl hb
      · exact absurd hascii (by decide)
      · exact Or.inr (Or.inr hb)
  · refine ⟨utf8 (fromUtf8Lossy bytes), hproper, fromUtf8Lossy_utf8 _, ?_⟩
    intro b hb hascii
    exact ascii_mem_fromUtf8Lossy hascii hb

/-- Two broken pieces, of one byte and of three. -/
example : fromUtf8Lossy [0x41, 0xff, 0xf0, 0x9f, 0x98, 0x42] = "A\uFFFD\uFFFDB" := by decide

end Basecrawl.Text
