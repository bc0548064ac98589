/-
  The certificate timestamps of a leaf certificate.

  The extension holds an RFC 6962 list: a 16-bit total length and entries with 16-bit lengths,
  sometimes inside a DER OCTET STRING.  `parseSctList` reads the list and nothing else
  (`parseSctList_encode`, `parseSctList_foreign`).  `parseSctExtension` tells the wrapped form from
  the bare one by trying the wrapper first, so a bare list is misread when it happens to spell a
  wrapper: that is so for two shapes of list (`ReadsAsOctetString`) and no other.
-/
import Basecrawl.Lib.Base64Url
import Basecrawl.Lib.Frames
import Basecrawl.Lib.Panic

namespace Basecrawl.Core

open Text Frames Panic

/-! ## The parser -/

/-- `std::mem::size_of::<usize>()`. -/
def sizeOfUsize : Nat := 8

/-- The loop of `parse_sct_list`, over the bytes from `offset` on. -/
def sctEntries : Bytes → List String → List String
  | high :: low :: rest, scts =>
    let length := beNat [high, low]
    if rest.length < length then []
    else if length = 0 then []
    else sctEntries (rest.drop length) (scts ++ [Base64Url.encodeStandard (rest.take length)])
  | [], scts => scts
  | [_], _ => []
termination_by value => value.length
decreasing_by
  rw [List.length_drop, List.length_cons, List.length_cons]
  omega

def parseSctList : Bytes → List String
  | high :: low :: entries =>
    if beNat [high, low] ≠ entries.length then [] else sctEntries entries []
  | _ => []

/-- The length and the offset of the contents.  At most eight length bytes are folded, so no bit is
shifted out. -/
def derLengthAndOffset (value : Bytes) (firstLength : UInt8) : Option (Nat × Nat) :=
  if firstLength &&& 0x80 = 0 then some (firstLength.toNat, 2)
  else
    let lengthBytes := (firstLength &&& 0x7f).toNat
    if lengthBytes = 0 ∨ lengthBytes > sizeOfUsize then none
    else
      (getRange value 2 (2 + lengthBytes)).map fun bytes =>
        (bytes.foldl (fun length byte => length <<< 8 ||| byte.toNat) 0, 2 + lengthBytes)

def derOctetStringContents (value : Bytes) : Option Bytes := do
  let tag ← value[0]?
  if tag ≠ 0x04 then none
  let firstLength ← value[1]?
  let (length, offset) ← derLengthAndOffset value firstLength
  let contents ← getRange value offset (offset + length)
  if offset + contents.length = value.length then some contents else none

def parseSctExtension (value : Bytes) : List String :=
  match derOctetStringContents value with
  | some contents => parseSctList contents
  | none => parseSctList value

/-! ## The format -/

/-- A `SignedCertificateTimestampList`. -/
structure SctList where
  entries : List Bytes
  nonempty : entries ≠ []
  filled : ∀ sct ∈ entries, sct ≠ []
  fits : (entries.flatMap (prefixed 2)).length < 65536

def SctList.encode (list : SctList) : Bytes := prefixed 2 (list.entries.flatMap (prefixed 2))

/-- The timestamps as the proof carries them. -/
def SctList.base64 (list : SctList) : List String := list.entries.map Base64Url.encodeStandard

/-- A length in DER, on as few bytes as possible. -/
def derLength (n : Nat) : Bytes :=
  if n < 128 then [UInt8.ofNat n]
  else
    let bytes := (Nat.digits 256 n).reverse.map UInt8.ofNat
    UInt8.ofNat (128 + bytes.length) :: bytes

/-- A DER OCTET STRING. -/
def derOctetString (contents : Bytes) : Bytes := 0x04 :: (derLength contents.length ++ contents)

/-! ## The list -/

/-- An entry: its length and its bytes. -/
def sctLayout : Layout where
  header := 2
  size := beNat
  header_pos := Nat.two_pos

variable {bytes rest header payload : Bytes} {scts : List String}

theorem framed_sct {sct : Bytes} (h : sct.length < 65536) :
    Framed sctLayout (beBytes 2 sct.length, sct) :=
  ⟨length_beBytes 2 _, (beNat_beBytes h).symm⟩

theorem eq_prefixed (h : Framed sctLayout (header, payload)) :
    header ++ payload = prefixed 2 payload := by
  rw [prefixed, h.2]
  exact congrArg (· ++ payload) (beBytes_beNat h.1).symm

theorem sctEntries_nil : sctEntries [] scts = scts := by rw [sctEntries]

theorem sctEntries_one (b : UInt8) : sctEntries [b] scts = [] := by rw [sctEntries]

theorem sctEntries_unfinished (hheader : header.length = 2) (hpart : rest.length < beNat header) :
    sctEntries (header ++ rest) scts = [] := by
  obtain ⟨high, low, rfl⟩ := List.length_eq_two.mp hheader
  rw [List.cons_append, List.singleton_append, sctEntries]
  exact if_pos hpart

theorem sctEntries_frame (h : Framed sctLayout (header, payload)) :
    sctEntries (header ++ payload ++ rest) scts =
      if payload = [] then []
      else sctEntries rest (scts ++ [Base64Url.encodeStandard payload]) := by
  obtain ⟨high, low, rfl⟩ := List.length_eq_two.mp h.1
  have hsize : beNat [high, low] = payload.length := h.2.symm
  rw [List.append_assoc, List.cons_append, List.singleton_append, sctEntries]
  simp only [hsize, List.take_left, List.drop_left, List.length_eq_zero_iff]
  exact if_neg (by rw [List.length_append]; omega)

/-- The loop reads back entries that are there. -/
theorem sctEntries_flatMap {entries : List Bytes} (hfilled : ∀ sct ∈ entries, sct ≠ [])
    (hfits : ∀ sct ∈ entries, sct.length < 65536) :
    sctEntries (entries.flatMap (prefixed 2)) scts =
      scts ++ entries.map Base64Url.encodeStandard := by
  induction entries generalizing scts with
  | nil => rw [List.flatMap_nil, sctEntries_nil, List.map_nil, List.append_nil]
  | cons sct entries ih =>
    obtain ⟨hne, hfilled⟩ := List.forall_mem_cons.mp hfilled
    obtain ⟨hlen, hfits⟩ := List.forall_mem_cons.mp hfits
    rw [List.flatMap_cons, prefixed, sctEntries_frame (framed_sct hlen), if_neg hne,
      ih hfilled hfits, List.append_assoc, List.map_cons]
    rfl

/-- What the loop reads are entries that fill the bytes. -/
theorem sctEntries_sound (hne : sctEntries bytes scts ≠ []) : ∃ entries : List Bytes,
    bytes = entries.flatMap (prefixed 2) ∧ (∀ sct ∈ entries, sct ≠ []) ∧
      sctEntries bytes scts = scts ++ entries.map Base64Url.encodeStandard := by
  induction hn : bytes.length using Nat.strongRecOn generalizing bytes scts with
  | ind n ih =>
    rcases frameCases sctLayout bytes with hshort | ⟨header, part, hheader, hpart, rfl⟩ |
      ⟨⟨header, payload⟩, rest, hframe, rfl⟩
    · rcases bytes with _ | ⟨b, _ | ⟨c, tail⟩⟩
      · refine ⟨[], rfl, fun _ hmem => absurd hmem List.not_mem_nil, ?_⟩
        rw [sctEntries_nil, List.map_nil, List.append_nil]
      · exact absurd (sctEntries_one b) hne
      · have htwo : tail.length + 2 < 2 := hshort
        omega
    · exact absurd (sctEntries_unfinished hheader hpart) hne
    · rw [sctEntries_frame hframe] at hne ⊢
      have hfilled : payload ≠ [] := fun h => hne (if_pos h)
      rw [if_neg hfilled] at hne ⊢
      have hless : rest.length < n := by
        have hheader : header.length = 2 := hframe.1
        simp only [List.length_append] at hn
        omega
      obtain ⟨entries, rfl, hentries, hread⟩ := ih _ hless hne rfl
      refine ⟨payload :: entries, ?_, List.forall_mem_cons.mpr ⟨hfilled, hentries⟩, ?_⟩
      · rw [List.flatMap_cons, ← eq_prefixed hframe]
      · rw [hread, List.append_assoc, List.map_cons]
        rfl

theorem length_of_mem_flatMap {entries : List Bytes} {sct : Bytes} (h : sct ∈ entries) :
    sct.length ≤ (entries.flatMap (prefixed 2)).length := by
  obtain ⟨before, after, rfl⟩ := List.append_of_mem h
  rw [List.flatMap_append, List.flatMap_cons, List.length_append, List.length_append,
    length_prefixed]
  omega

theorem parseSctList_prefixed {entries : Bytes} (h : entries.length < 65536) :
    parseSctList (prefixed 2 entries) = sctEntries entries [] := by
  obtain ⟨high, low, htwo⟩ := List.length_eq_two.mp (length_beBytes 2 entries.length)
  have hlen : beNat [high, low] = entries.length := by rw [← htwo, beNat_beBytes h]
  rw [prefixed, htwo]
  exact if_neg (not_not.mpr hlen)

/-- **The list is read back.** -/
theorem parseSctList_encode (list : SctList) : parseSctList list.encode = list.base64 := by
  rw [SctList.encode, parseSctList_prefixed list.fits, sctEntries_flatMap list.filled]
  · rfl
  · intro sct hmem
    exact Nat.lt_of_le_of_lt (length_of_mem_flatMap hmem) list.fits

/-- What is read is a list. -/
theorem parseSctList_sound {value : Bytes} (hne : parseSctList value ≠ []) :
    ∃ list : SctList, value = list.encode := by
  rcases value with _ | ⟨high, _ | ⟨low, rest⟩⟩
  · exact absurd rfl hne
  · exact absurd rfl hne
  · rw [parseSctList] at hne
    have hlen : beNat [high, low] = rest.length := by
      by_contra hlen
      exact hne (if_pos hlen)
    rw [if_neg (not_not.mpr hlen)] at hne
    obtain ⟨entries, rfl, hfilled, hread⟩ := sctEntries_sound hne
    have hfits := beNat_two_lt high low
    rw [hlen] at hfits
    refine ⟨⟨entries, ?_, hfilled, hfits⟩, ?_⟩
    · rintro rfl
      exact hne (hread.trans rfl)
    · rw [SctList.encode, prefixed, ← hlen, beBytes_beNat (k := 2) rfl]
      rfl

/-- **Nothing else is read.** -/
theorem parseSctList_foreign {value : Bytes} (h : ∀ list : SctList, value ≠ list.encode) :
    parseSctList value = [] := by
  by_contra hne
  obtain ⟨list, hvalue⟩ := parseSctList_sound hne
  exact h list hvalue

/-! ## The wrapper -/

theorem and_0x80_eq_zero (b : UInt8) : b &&& 0x80 = 0 ↔ b.toNat < 128 := by
  have hall : ∀ n : Fin 256, UInt8.ofNat n &&& 0x80 = 0 ↔ n.val < 128 := by decide +kernel
  have h := hall ⟨b.toNat, b.toNat_lt⟩
  rwa [UInt8.ofNat_toNat] at h

theorem toNat_and_0x7f (b : UInt8) : (b &&& 0x7f).toNat = b.toNat % 128 := by
  have hall : ∀ n : Fin 256, (UInt8.ofNat n &&& 0x7f).toNat = n.val % 128 := by decide +kernel
  have h := hall ⟨b.toNat, b.toNat_lt⟩
  rwa [UInt8.ofNat_toNat] at h

/-- A value spells an OCTET STRING: the tag, a short or a long length, and as many bytes. -/
inductive Spells (value contents : Bytes) : Prop where
  | short (b : UInt8) (hvalue : value = 0x04 :: b :: contents) (hb : b.toNat < 128)
      (hlength : b.toNat = contents.length)
  | long (b : UInt8) (lengthBytes : Bytes) (hvalue : value = 0x04 :: b :: (lengthBytes ++ contents))
      (hb : b.toNat = 128 + lengthBytes.length) (hpos : 0 < lengthBytes.length)
      (hwidth : lengthBytes.length ≤ sizeOfUsize) (hlength : beNat lengthBytes = contents.length)

theorem derOctetStringContents_cons (b : UInt8) (tail : Bytes) :
    derOctetStringContents (0x04 :: b :: tail) =
      (derLengthAndOffset (0x04 :: b :: tail) b).bind fun header =>
        (getRange (0x04 :: b :: tail) header.2 (header.2 + header.1)).bind fun contents =>
          if header.2 + contents.length = tail.length + 2 then some contents else none := by
  rfl

theorem getRange_two {a b : UInt8} (x y z : Bytes) :
    getRange (a :: b :: (x ++ (y ++ z))) (2 + x.length) (2 + x.length + y.length) = some y := by
  have hsplit : a :: b :: (x ++ (y ++ z)) = ([a, b] ++ x) ++ (y ++ z) := rfl
  have hlen : 2 + x.length = ([a, b] ++ x).length := by
    rw [List.length_append]
    rfl
  rw [getRange, if_pos (by simp only [List.length_cons, List.length_append]; omega), hsplit, hlen,
    List.drop_left, Nat.add_sub_cancel_left, List.take_left]

theorem getRange_contents {a b : UInt8} (x y : Bytes) :
    getRange (a :: b :: (x ++ y)) (2 + x.length) (2 + x.length + y.length) = some y := by
  have h := getRange_two (a := a) (b := b) x y []
  rwa [List.append_nil] at h

theorem derOctetStringContents_of_spells {value contents : Bytes} (h : Spells value contents) :
    derOctetStringContents value = some contents := by
  cases h with
  | short b hvalue hb hlength =>
    have hheader : derLengthAndOffset (0x04 :: b :: contents) b = some (contents.length, 2) := by
      rw [derLengthAndOffset, if_pos ((and_0x80_eq_zero b).mpr hb), hlength]
    have hrange : getRange (0x04 :: b :: contents) 2 (2 + contents.length) = some contents :=
      getRange_contents [] contents
    rw [hvalue, derOctetStringContents_cons, hheader, Option.bind_some, hrange, Option.bind_some,
      if_pos (Nat.add_comm ..)]
  | long b lengthBytes hvalue hb hpos hwidth hlength =>
    have hbyte := b.toNat_lt
    have hlong : ¬ b &&& 0x80 = 0 := by
      rw [and_0x80_eq_zero]
      omega
    have hk : (b &&& 0x7f).toNat = lengthBytes.length := by
      rw [toNat_and_0x7f]
      omega
    have hrange : getRange (0x04 :: b :: (lengthBytes ++ contents)) 2 (2 + lengthBytes.length) =
        some lengthBytes := getRange_two [] lengthBytes contents
    have hheader : derLengthAndOffset (0x04 :: b :: (lengthBytes ++ contents)) b =
        some (contents.length, 2 + lengthBytes.length) := by
      rw [derLengthAndOffset, if_neg hlong]
      simp only [hk]
      rw [if_neg (by omega), hrange, Option.map_some, foldl_shift_or, hlength]
    rw [hvalue, derOctetStringContents_cons, hheader, Option.bind_some, getRange_contents,
      Option.bind_some, if_pos (by rw [List.length_append]; omega)]

theorem getRange_eq_some {a b : UInt8} {tail ys : Bytes} {lo hi : Nat} (hlo : 2 ≤ lo)
    (h : getRange (a :: b :: tail) lo hi = some ys) :
    ∃ x z, tail = x ++ (ys ++ z) ∧ lo = 2 + x.length ∧ hi = lo + ys.length := by
  rw [getRange, Option.ite_none_right_eq_some] at h
  obtain ⟨⟨hle, hin⟩, hys⟩ := h
  rw [List.length_cons, List.length_cons] at hin
  obtain ⟨skipped, rfl⟩ := Nat.exists_eq_add_of_le hlo
  have hdrop : (a :: b :: tail).drop (2 + skipped) = tail.drop skipped := by
    rw [Nat.add_comm]
    rfl
  rw [hdrop, Option.some.injEq] at hys
  refine ⟨tail.take skipped, (tail.drop skipped).drop (hi - (2 + skipped)), ?_, ?_, ?_⟩
  · rw [← hys, List.take_append_drop, List.take_append_drop]
  · rw [List.length_take]
    omega
  · rw [← hys, List.length_take, List.length_drop]
    omega

theorem spells_of_derOctetStringContents {value contents : Bytes}
    (h : derOctetStringContents value = some contents) : Spells value contents := by
  rcases value with _ | ⟨tag, _ | ⟨b, tail⟩⟩
  · cases h
  · exact absurd h (by simp [derOctetStringContents])
  · by_cases htag : tag = 0x04
    · subst htag
      rw [derOctetStringContents_cons, Option.bind_eq_some_iff] at h
      obtain ⟨⟨length, offset⟩, hheader, h⟩ := h
      obtain ⟨found, hfound, h⟩ := Option.bind_eq_some_iff.mp h
      rw [Option.ite_none_right_eq_some] at h
      obtain ⟨hwhole, h⟩ := h
      cases h
      simp only at hfound hwhole
      rw [derLengthAndOffset] at hheader
      split at hheader
      · next hshort =>
        cases hheader
        obtain ⟨x, z, rfl, hx, hlength⟩ := getRange_eq_some (Nat.le_refl _) hfound
        obtain rfl : x = [] := List.length_eq_zero_iff.mp (by omega)
        obtain rfl : z = [] := List.length_eq_zero_iff.mp (by
          simp only [List.length_append] at hwhole
          omega)
        rw [List.append_nil] at hfound ⊢
        exact .short b rfl ((and_0x80_eq_zero b).mp hshort) (by omega)
      · next hlong =>
        simp only [Option.ite_none_left_eq_some, Option.map_eq_some_iff] at hheader
        obtain ⟨hwidth, lengthBytes, hlengthBytes, hheader⟩ := hheader
        cases hheader
        -- the two ranges are next to each other
        obtain ⟨x, z, htail, hx, hk⟩ := getRange_eq_some (Nat.le_refl _) hlengthBytes
        obtain rfl : x = [] := List.length_eq_zero_iff.mp (by omega)
        obtain ⟨x', z', htail', hx', hlength⟩ := getRange_eq_some (Nat.le_add_right ..) hfound
        have hsame : x'.length = lengthBytes.length := by omega
        rw [htail', List.nil_append] at htail
        obtain ⟨rfl, rfl⟩ := List.append_inj htail hsame
        obtain rfl : z' = [] := List.length_eq_zero_iff.mp (by
          rw [htail'] at hwhole
          simp only [List.length_append] at hwhole
          omega)
        rw [List.append_nil] at htail'
        rw [and_0x80_eq_zero] at hlong
        rw [toNat_and_0x7f] at hk hwidth
        have hbyte := b.toNat_lt
        subst htail'
        rw [foldl_shift_or] at hlength
        exact .long b x' rfl (by omega) (by omega) (by omega) (by omega)
    · exact absurd h (by simp [derOctetStringContents, htag])

theorem derOctetStringContents_eq_some {value contents : Bytes} :
    derOctetStringContents value = some contents ↔ Spells value contents :=
  ⟨spells_of_derOctetStringContents, derOctetStringContents_of_spells⟩

/-- The long form of a length spells it. -/
theorem beNat_digits (n : Nat) :
    beNat ((Nat.digits 256 n).reverse.map UInt8.ofNat) = n := by
  have hdigits : ((Nat.digits 256 n).map UInt8.ofNat).map UInt8.toNat = Nat.digits 256 n := by
    rw [List.map_map]
    calc (Nat.digits 256 n).map (UInt8.toNat ∘ UInt8.ofNat)
        = (Nat.digits 256 n).map id := by
          refine List.map_congr_left fun d hd => ?_
          have hlt : d < 256 := Nat.digits_lt_base (by omega) hd
          show (UInt8.ofNat d).toNat = d
          rw [UInt8.toNat_ofNat']
          omega
      _ = Nat.digits 256 n := List.map_id _
  rw [beNat_eq, ← List.map_reverse, List.reverse_reverse, LittleEndian.leNat, hdigits,
    Nat.ofDigits_digits]

/-- What was wrapped is unwrapped. -/
theorem derOctetStringContents_derOctetString {contents : Bytes}
    (h : contents.length < 256 ^ sizeOfUsize) :
    derOctetStringContents (derOctetString contents) = some contents := by
  rw [derOctetStringContents_eq_some, derOctetString, derLength]
  split
  · next hshort =>
    have hbyte : (UInt8.ofNat contents.length).toNat = contents.length := by
      rw [UInt8.toNat_ofNat']
      omega
    exact .short _ rfl (by omega) hbyte
  · next hlong =>
    have hlen : (Nat.digits 256 contents.length).length ≤ sizeOfUsize :=
      (Nat.digits_length_le_iff (by omega) _).mpr h
    have hpos : 0 < (Nat.digits 256 contents.length).length := by
      rw [List.length_pos_iff, Nat.digits_ne_nil_iff_ne_zero]
      omega
    have hwidth : sizeOfUsize = 8 := rfl
    refine .long _ ((Nat.digits 256 contents.length).reverse.map UInt8.ofNat) rfl ?_ ?_ ?_
      (beNat_digits _)
    · simp only [List.length_map, List.length_reverse, UInt8.toNat_ofNat']
      omega
    · rwa [List.length_map, List.length_reverse]
    · rwa [List.length_map, List.length_reverse]

/-! ## The two readings -/

theorem SctList.base64_ne_nil (list : SctList) : list.base64 ≠ [] := by
  intro h
  exact list.nonempty (List.map_eq_nil_iff.mp h)

theorem SctList.encode_eq_of_base64 {list other : SctList} (h : list.base64 = other.base64) :
    list.encode = other.encode := by
  rw [SctList.encode, SctList.encode,
    List.map_injective_iff.mpr Base64Url.encodeStandard_injective h]

theorem SctList.length_encode (list : SctList) :
    list.encode.length = 2 + (list.entries.flatMap (prefixed 2)).length := by
  rw [SctList.encode, length_prefixed]

/-- The wrapped list is read. -/
theorem parseSctExtension_wrapped (list : SctList) :
    parseSctExtension (derOctetString list.encode) = list.base64 := by
  have hfits : list.encode.length < 256 ^ sizeOfUsize := by
    have hlist := list.fits
    have hbound : 65538 ≤ 256 ^ sizeOfUsize := by decide
    have hlen := list.length_encode
    omega
  rw [parseSctExtension, derOctetStringContents_derOctetString hfits]
  exact parseSctList_encode list

/-- The bare list is read unless it spells a wrapper, and then something else is. -/
theorem parseSctExtension_bare (list : SctList) :
    parseSctExtension list.encode = list.base64 ↔ derOctetStringContents list.encode = none := by
  rw [parseSctExtension]
  cases hcontents : derOctetStringContents list.encode with
  | none => exact iff_of_true (parseSctList_encode list) rfl
  | some contents =>
    refine iff_of_false (fun hsame => ?_) (by simp)
    have hread : parseSctList contents = list.base64 := hsame
    obtain ⟨other, rfl⟩ := parseSctList_sound (hread ▸ list.base64_ne_nil)
    rw [parseSctList_encode] at hread
    have hspells := derOctetStringContents_eq_some.mp hcontents
    rw [← SctList.encode_eq_of_base64 hread] at hspells
    -- a value is longer than its contents
    have hlonger : other.encode.length < other.encode.length := by
      cases hspells with
      | short b hvalue =>
        have := congrArg List.length hvalue
        simp only [List.length_cons] at this
        omega
      | long b lengthBytes hvalue =>
        have := congrArg List.length hvalue
        simp only [List.length_cons, List.length_append] at this
        omega
    exact absurd hlonger (Nat.lt_irrefl _)

/-- A list that spells a wrapper: one timestamp of 1152 bytes, or 1155 bytes of list that start with
a timestamp of four bytes, the first of them `0x80`. -/
def ReadsAsOctetString (list : SctList) : Prop :=
  (∃ sct, list.entries = [sct] ∧ sct.length = 1152) ∨
  ∃ sct more, list.entries = (0x80 :: sct) :: more ∧ sct.length = 3 ∧
    (list.entries.flatMap (prefixed 2)).length = 1155

/-- The total length of the list, and its first entry. -/
theorem SctList.split (list : SctList) : ∃ high low x y sct more,
    list.entries = sct :: more ∧ list.encode =
      high :: low :: x :: y :: (sct ++ more.flatMap (prefixed 2)) ∧
    beNat [high, low] = 2 + (sct.length + (more.flatMap (prefixed 2)).length) ∧
    beNat [x, y] = sct.length ∧ sct ≠ [] := by
  obtain ⟨entries, hne, hfilled, hfits⟩ := list
  obtain ⟨sct, more, rfl⟩ := List.exists_cons_of_ne_nil hne
  have hsct := length_of_mem_flatMap (List.mem_cons_self (a := sct) (l := more))
  obtain ⟨high, low, htotal⟩ :=
    List.length_eq_two.mp (length_beBytes 2 ((sct :: more).flatMap (prefixed 2)).length)
  obtain ⟨x, y, hentry⟩ := List.length_eq_two.mp (length_beBytes 2 sct.length)
  refine ⟨high, low, x, y, sct, more, rfl, ?_, ?_, ?_, hfilled sct List.mem_cons_self⟩
  · rw [SctList.encode, prefixed, htotal, List.flatMap_cons, prefixed, hentry]
    rfl
  · rw [← htotal, beNat_beBytes hfits, List.flatMap_cons, List.length_append, length_prefixed]
    omega
  · rw [← hentry, beNat_beBytes (Nat.lt_of_le_of_lt hsct hfits)]

/-- Eight lengths of a length: only on two and on three bytes can 1152 stand before a list. -/
theorem lengthBytes_cases {x y : UInt8} {lengthBytes contents tail : Bytes}
    (h : x :: y :: tail = lengthBytes ++ contents) (hne : beNat [x, y] ≠ 0)
    (hpos : 0 < lengthBytes.length) (hwidth : lengthBytes.length ≤ sizeOfUsize)
    (hlength : beNat lengthBytes = 1152) :
    (lengthBytes.length = 2 ∧ beNat [x, y] = 1152 ∧ tail = contents) ∨
    (lengthBytes.length = 3 ∧ beNat [x, y] = 4 ∧ tail = 0x80 :: contents) := by
  have hspelled : lengthBytes = beBytes lengthBytes.length 1152 := by
    rw [← hlength, beBytes_beNat rfl]
  have hwide : sizeOfUsize = 8 := rfl
  obtain hk | hk | hk | hk : lengthBytes.length = 1 ∨ lengthBytes.length = 2 ∨
    lengthBytes.length = 3 ∨ 4 ≤ lengthBytes.length := by omega
  · have hlt := beNat_lt lengthBytes
    rw [hk] at hlt
    omega
  · rw [hk] at hspelled
    have htwo : beBytes 2 1152 = [0x04, 0x80] := by decide
    rw [hspelled, htwo] at h
    cases h
    exact .inl ⟨hk, by decide, rfl⟩
  · rw [hk] at hspelled
    have hthree : beBytes 3 1152 = [0x00, 0x04, 0x80] := by decide
    rw [hspelled, hthree] at h
    cases h
    exact .inr ⟨hk, by decide, rfl⟩
  · -- the first two bytes are zero, and no timestamp is empty
    have hzero : (beBytes lengthBytes.length 1152).take 2 = [0, 0] := by
      have hall : ∀ k : Fin 9, 4 ≤ k.val → (beBytes k 1152).take 2 = [0, 0] := by decide
      exact hall ⟨lengthBytes.length, by omega⟩ hk
    have htake := congrArg (List.take 2) h
    rw [List.take_append_of_le_length (by omega), hspelled, hzero] at htake
    cases htake
    exact absurd rfl hne

theorem spells_encode_iff (list : SctList) :
    (∃ contents, Spells list.encode contents) ↔ ReadsAsOctetString list := by
  obtain ⟨high, low, x, y, sct, more, hentries, hencode, htotal, hentry, hfilled⟩ := list.split
  have hfilled := List.length_pos_iff.mpr hfilled
  rw [beNat_two] at htotal
  rw [ReadsAsOctetString, hentries, hencode]
  constructor
  · rintro ⟨contents, hspells⟩
    cases hspells with
    | short b hvalue hb hlength =>
      cases hvalue
      simp only [List.length_cons, List.length_append, UInt8.reduceToNat] at hlength htotal
      omega
    | long b lengthBytes hvalue hb hpos hwidth hlength =>
      obtain ⟨htag, hfirst⟩ := List.cons.inj hvalue
      obtain ⟨hlow, hrest⟩ := List.cons.inj hfirst
      subst htag hlow
      have hlen := congrArg List.length hrest
      simp only [List.length_cons, List.length_append, UInt8.reduceToNat] at hlen htotal
      have hnonzero : beNat [x, y] ≠ 0 := by omega
      have hcontents : beNat lengthBytes = 1152 := by omega
      -- the length of the content is two bytes of a size, or starts inside the first entry
      rcases lengthBytes_cases hrest hnonzero hpos hwidth hcontents with
        ⟨hk, hsize, rfl⟩ | ⟨hk, hsize, htail⟩
      · refine .inl ⟨sct, ?_, by omega⟩
        rcases more with _ | ⟨other, more⟩
        · rfl
        · rw [List.flatMap_cons, List.length_append, length_prefixed] at hlen htotal
          omega
      · rcases sct with _ | ⟨first, sct⟩
        · exact absurd rfl (List.length_pos_iff.mp hfilled)
        · obtain ⟨rfl, -⟩ := List.cons.inj htail
          rw [List.length_cons] at hentry hlen htotal
          refine .inr ⟨sct, more, rfl, by omega, ?_⟩
          rw [List.flatMap_cons, List.length_append, length_prefixed, List.length_cons]
          omega
  · rintro (⟨only, hlist, hlen⟩ | ⟨four, others, hlist, hlen, hwhole⟩)
    · cases hlist
      rw [hlen, List.flatMap_nil, List.length_nil] at htotal
      rw [hlen] at hentry
      have hhead : [high, low] = [0x04, 0x82] := beNat_inj rfl (by rw [beNat_two, htotal]; decide)
      have hsize : [x, y] = [0x04, 0x80] := beNat_inj rfl (by rw [hentry]; decide)
      cases hhead
      cases hsize
      exact ⟨sct ++ [], .long 0x82 [0x04, 0x80] rfl (by decide) (by decide) (by decide)
        (by rw [List.append_nil, hlen]; decide)⟩
    · cases hlist
      rw [List.flatMap_cons, List.length_append, length_prefixed, List.length_cons] at hwhole
      rw [List.length_cons] at htotal hentry
      have hcontents : four.length + (more.flatMap (prefixed 2)).length = 1152 := by omega
      have hhead : [high, low] = [0x04, 0x83] := beNat_inj rfl (by
        have hvalue : beNat [0x04, 0x83] = 1155 := by decide
        rw [beNat_two, htotal, hvalue]
        omega)
      have hsize : [x, y] = [0x00, 0x04] := beNat_inj rfl (by rw [hentry, hlen]; decide)
      cases hhead
      cases hsize
      refine ⟨four ++ more.flatMap (prefixed 2), .long 0x83 [0x00, 0x04, 0x80] rfl (by decide)
        (by decide) (by decide) ?_⟩
      rw [List.length_append, hcontents]
      decide

/-- **The two readings agree unless a bare list spells a wrapper.**  A list is read back, what is no
list reads as no timestamps, and a list reads alike bare and wrapped exactly when it is not of one
of the two shapes. -/
theorem sctReadings_iff (list : SctList) :
    (parseSctList list.encode = list.base64 ∧
      (∀ value, (∀ other : SctList, value ≠ other.encode) → parseSctList value = []) ∧
      parseSctExtension list.encode = parseSctExtension (derOctetString list.encode)) ↔
    ¬ ReadsAsOctetString list := by
  rw [parseSctExtension_wrapped, ← spells_encode_iff]
  have hnone : derOctetStringContents list.encode = none ↔
      ¬ ∃ contents, Spells list.encode contents := by
    simp only [Option.eq_none_iff_forall_ne_some, ← derOctetStringContents_eq_some, not_exists, ne_eq]
  rw [← hnone, ← parseSctExtension_bare]
  exact ⟨fun h => h.2.2, fun h => ⟨parseSctList_encode list, fun _ => parseSctList_foreign, h⟩⟩

/-- A list of one timestamp. -/
theorem single_filled {sct : Bytes} (h : sct ≠ []) : ∀ s ∈ [sct], s ≠ [] := by
  intro s hs
  rwa [List.mem_singleton.mp hs]

theorem single_fits {sct : Bytes} (h : sct.length < 65534) :
    ([sct].flatMap (prefixed 2)).length < 65536 := by
  rw [List.flatMap_cons, List.flatMap_nil, List.append_nil, length_prefixed]
  omega

theorem longSct_length : (List.replicate 1152 (0 : UInt8)).length < 65534 := by
  rw [List.length_replicate]
  decide

/-- One timestamp of 1152 zero bytes. -/
def longSct : SctList where
  entries := [List.replicate 1152 0]
  nonempty := List.cons_ne_nil _ _
  filled := single_filled (List.cons_ne_nil _ _)
  fits := single_fits longSct_length

/-- Bare, the list of that timestamp spells a wrapper, and the timestamp is lost. -/
theorem sctReadings_longSct : ¬ ∀ list : SctList,
    parseSctExtension list.encode = parseSctExtension (derOctetString list.encode) := by
  intro h
  have hsame := h longSct
  rw [parseSctExtension_wrapped, parseSctExtension_bare] at hsame
  have hspells : ∃ contents, Spells longSct.encode contents :=
    (spells_encode_iff longSct).mpr (.inl ⟨_, rfl, List.length_replicate⟩)
  obtain ⟨contents, hspells⟩ := hspells
  rw [derOctetStringContents_eq_some.mpr hspells] at hsame
  cases hsame

end Basecrawl.Core
