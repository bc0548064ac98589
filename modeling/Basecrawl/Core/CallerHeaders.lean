/-
  The headers of a caller, and what is emitted of them.

  `validate_caller_headers` asks for tokens and plain values, for no name that a transport writes,
  and for no name twice whatever its case: nothing in that depends on an order
  (`validateCallerHeaders_perm`).  The effective list of a profile is emittable when its own fields
  and the caller's are (`validateFields_effective`).
-/
import Basecrawl.Core.Options
import Basecrawl.Fp.Profile

namespace Basecrawl.Core

open Text Outcome

/-! ## Emittable fields -/

theorem validateHeaderPair_eq_ok {name value : String} :
    validateHeaderPair name value = .ok () ↔
      (utf8 name ≠ [] ∧ ∀ b ∈ utf8 name, isTokenByte b = true) ∧
        ∀ b ∈ utf8 value, (b == 0x09 || (b ≥ 0x20 && b != 0x7f)) = true := by
  simp only [validateHeaderPair, require_eq_ok, Bool.and_eq_true, Bool.not_eq_true',
    List.isEmpty_eq_false_iff, List.all_eq_true]

theorem validateFields_eq_ok {fields : List (String × String)} :
    validateFields fields = .ok () ↔
      ∀ field ∈ fields, validateHeaderPair field.1 field.2 = .ok () := by
  induction fields with
  | nil => exact iff_of_true rfl fun field h => absurd h List.not_mem_nil
  | cons field fields ih =>
    rw [validateFields, bind_eq_ok, List.forall_mem_cons, ← ih]
    constructor
    · rintro ⟨_, hfield, hfields⟩
      exact ⟨hfield, hfields⟩
    · rintro ⟨hfield, hfields⟩
      exact ⟨(), hfield, hfields⟩

/-- A token byte of a name is one in lower case. -/
theorem isTokenByte_lower {c : Char} (hascii : c.toNat < 128)
    (h : isTokenByte (UInt8.ofNat c.toNat) = true) :
    c.toLower.toNat < 128 ∧ isTokenByte (UInt8.ofNat c.toLower.toNat) = true := by
  have hall : ∀ n : Fin 128, isTokenByte (UInt8.ofNat n) = true →
      (Char.ofNat n).toLower.toNat < 128 ∧
        isTokenByte (UInt8.ofNat (Char.ofNat n).toLower.toNat) = true := by decide
  have hc := hall ⟨c.toNat, hascii⟩ h
  rw [Char.ofNat_toNat] at hc
  exact hc

/-- The characters of a token. -/
theorem token_chars {name : String} :
    (∀ b ∈ utf8 name, isTokenByte b = true) ↔
      ∀ c ∈ name.toList, c.toNat < 128 ∧ isTokenByte (UInt8.ofNat c.toNat) = true := by
  constructor
  · intro h
    have hbound : ∀ n : Fin 256, isTokenByte (UInt8.ofNat n) = true → n.val < 128 := by
      decide +kernel
    have hascii := toNat_lt_of_utf8 fun b hb => by
      have hb' := hbound ⟨b.toNat, b.toNat_lt⟩
      rw [UInt8.ofNat_toNat] at hb'
      exact hb' (h b hb)
    intro c hc
    refine ⟨hascii c hc, h _ ?_⟩
    rw [utf8_ascii hascii]
    exact List.mem_map.mpr ⟨c, hc, rfl⟩
  · intro h b hb
    rw [utf8_ascii fun c hc => (h c hc).1] at hb
    obtain ⟨c, hc, rfl⟩ := List.mem_map.mp hb
    exact (h c hc).2

theorem utf8_ne_nil {s : String} : utf8 s ≠ [] ↔ s.toList ≠ [] := by
  rw [Ne, Ne, String.toList_eq_nil_iff, ← utf8_empty, utf8_inj]

/-- An emittable field is emittable in lower case. -/
theorem validateHeaderPair_lower {name value : String}
    (h : validateHeaderPair name value = .ok ()) :
    validateHeaderPair (asciiLower name) value = .ok () := by
  rw [validateHeaderPair_eq_ok, utf8_ne_nil, token_chars] at h ⊢
  obtain ⟨⟨hname, htoken⟩, hvalue⟩ := h
  rw [asciiLower, String.toList_ofList]
  refine ⟨⟨fun hnil => hname (List.map_eq_nil_iff.mp hnil), fun c hc => ?_⟩, hvalue⟩
  obtain ⟨d, hd, rfl⟩ := List.mem_map.mp hc
  exact isTokenByte_lower (htoken d hd).1 (htoken d hd).2

/-! ## Accepted headers -/

theorem validateCallerHeaders_eq_ok {headers : List (String × String)} : ∀ {seen : List String},
    validateCallerHeaders seen headers = .ok () ↔
      (∀ header ∈ headers, validateHeaderPair header.1 header.2 = .ok () ∧
        asciiLower header.1 ∉ transportManagedHeaders ∧ asciiLower header.1 ∉ seen) ∧
      (headers.map fun header => asciiLower header.1).Nodup := by
  induction headers with
  | nil => exact iff_of_true rfl ⟨fun header h => absurd h List.not_mem_nil, List.nodup_nil⟩
  | cons header headers ih =>
    intro seen
    have hnew : ∀ names : List String, (!names.contains (asciiLower header.1)) = true ↔
        asciiLower header.1 ∉ names := by
      intro names
      rw [Bool.not_eq_true', List.contains_eq_mem, decide_eq_false_iff_not]
    rw [validateCallerHeaders, List.map_cons, List.nodup_cons, List.forall_mem_cons]
    simp only [bind_eq_ok, require_eq_ok, hnew, ih]
    constructor
    · rintro ⟨_, hpair, _, hmanaged, _, hseen, hrest, hnodup⟩
      refine ⟨⟨⟨hpair, hmanaged, hseen⟩, fun h hh => ?_⟩, fun hmem => ?_, hnodup⟩
      · obtain ⟨hpair', hmanaged', hseen'⟩ := hrest h hh
        exact ⟨hpair', hmanaged', fun hmem => hseen' (List.mem_cons_of_mem _ hmem)⟩
      · obtain ⟨h, hh, hsame⟩ := List.mem_map.mp hmem
        exact (hrest h hh).2.2 (hsame ▸ List.mem_cons_self)
    · rintro ⟨⟨⟨hpair, hmanaged, hseen⟩, hrest⟩, hfresh, hnodup⟩
      refine ⟨(), hpair, (), hmanaged, (), hseen, fun h hh => ?_, hnodup⟩
      obtain ⟨hpair', hmanaged', hseen'⟩ := hrest h hh
      refine ⟨hpair', hmanaged', fun hmem => ?_⟩
      rcases List.mem_cons.mp hmem with hsame | hmem
      · exact hfresh (List.mem_map.mpr ⟨h, hh, hsame⟩)
      · exact hseen' hmem

/-- **Acceptance asks for no order.** -/
theorem validateCallerHeaders_perm {headers headers' : List (String × String)}
    (h : headers.Perm headers') :
    validateCallerHeaders [] headers = .ok () ↔ validateCallerHeaders [] headers' = .ok () := by
  rw [validateCallerHeaders_eq_ok, validateCallerHeaders_eq_ok,
    (h.map fun header => asciiLower header.1).nodup_iff]
  exact and_congr_left' (forall_congr' fun header => imp_congr_left h.mem_iff)

/-! ## The effective list -/

open Fp (effectiveFingerprintHeaders isSeedOwned)

/-- The fields a profile has of its own, in the order of the seed. -/
def seededFields (profile : Fp.FingerprintProfile) : List (String × String) :=
  profile.headerNames.filterMap fun name => (profile.slotValue name).map fun value => (name, value)

/-- The field a header of the caller becomes, if it is not the seed's. -/
def callerField (header : String × String) : Option (String × String) :=
  if isSeedOwned header.1 then none else some (asciiLower header.1, header.2)

theorem callerFields_eq (headers : List (String × String)) :
    headers.filterMap callerField =
      (headers.filter fun header => !isSeedOwned header.1).map fun header =>
        (asciiLower header.1, header.2) := by
  rw [← List.filterMap_eq_map, List.filterMap_filter]
  refine List.filterMap_congr fun header _ => ?_
  rw [callerField]
  cases isSeedOwned header.1 <;> rfl

theorem effectiveFingerprintHeaders_eq (profile : Fp.FingerprintProfile)
    (headers : List (String × String)) :
    effectiveFingerprintHeaders profile headers =
      seededFields profile ++ headers.filterMap callerField := by
  rw [effectiveFingerprintHeaders, seededFields, callerFields_eq]

/-- **The effective list is emittable** when the profile's fields are and the caller's headers are
accepted. -/
theorem validateFields_effective {profile : Fp.FingerprintProfile}
    {headers : List (String × String)} (h : validateCallerHeaders [] headers = .ok ()) :
    validateFields (effectiveFingerprintHeaders profile headers) = .ok () ↔
      validateFields (effectiveFingerprintHeaders profile []) = .ok () := by
  have hcaller : ∀ field ∈ headers.filterMap callerField,
      validateHeaderPair field.1 field.2 = .ok () := by
    intro field hfield
    obtain ⟨header, hheader, hsome⟩ := List.mem_filterMap.mp hfield
    rw [callerField] at hsome
    split at hsome
    · cases hsome
    · cases hsome
      exact validateHeaderPair_lower ((validateCallerHeaders_eq_ok.mp h).1 header hheader).1
  rw [effectiveFingerprintHeaders_eq, effectiveFingerprintHeaders_eq, List.filterMap_nil,
    List.append_nil, validateFields_eq_ok, validateFields_eq_ok, List.forall_mem_append,
    and_iff_left hcaller]

/-- What is emitted of accepted headers has different names. -/
theorem callerField_nodup {headers : List (String × String)}
    (h : validateCallerHeaders [] headers = .ok ()) :
    ((headers.filterMap callerField).map Prod.fst).Nodup := by
  rw [callerFields_eq, List.map_map]
  exact (List.filter_sublist.map _).nodup (validateCallerHeaders_eq_ok.mp h).2

end Basecrawl.Core
