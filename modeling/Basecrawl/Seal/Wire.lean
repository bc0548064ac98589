/-
  The wire helpers that `task.rs` and `result.rs` each carry a copy of.

  An opened sealed box is `aad || 0x00 || json`; a ciphertext travels as unpadded URL-safe base64.
  Each helper gets the one lemma its callers use:

  1. **Cutting** — `splitAadPlaintext_eq_ok`: the cut is at the first zero byte.
  2. **Comparing** — `constantTimeEq_iff`: the constant-time comparison decides equality.
  3. **Transport** — `decodeB64url_encodeB64url`: what is encoded decodes to itself.
-/
import Basecrawl.Lib.Base64Url
import Basecrawl.Seal.Identity

namespace Basecrawl.Seal

open Text Outcome

/-! ## Cutting -/

/-- `split_aad_plaintext`. -/
def splitAadPlaintext (authenticated : Bytes) : Except SealError (Bytes × Bytes) := do
  let pos ← okOr (authenticated.findIdx? (· == 0)) .malformedPlaintext
  .ok (authenticated.take pos, authenticated.drop (pos + 1))

/-- The cut is at the first zero byte: nothing before it is zero. -/
theorem splitAadPlaintext_eq_ok {authenticated aad rest : Bytes} :
    splitAadPlaintext authenticated = .ok (aad, rest) ↔
      0 ∉ aad ∧ authenticated = aad ++ 0 :: rest := by
  unfold splitAadPlaintext
  simp only [bind_eq_ok, okOr_eq_ok, Except.ok.injEq, Prod.mk.injEq,
    List.findIdx?_eq_some_iff_getElem, beq_iff_eq]
  constructor
  · rintro ⟨pos, ⟨hlt, hzero, hbefore⟩, rfl, rfl⟩
    constructor
    · intro hmem
      obtain ⟨i, hi, h0⟩ := List.getElem_of_mem hmem
      rw [List.length_take] at hi
      rw [List.getElem_take] at h0
      exact hbefore i (by omega) h0
    · have hdrop : authenticated.drop pos = 0 :: authenticated.drop (pos + 1) := by
        rw [List.drop_eq_getElem_cons hlt, hzero]
      rw [← hdrop, List.take_append_drop]
  · rintro ⟨hnot, rfl⟩
    refine ⟨aad.length, ⟨by simp, by simp, ?_⟩, by simp, by simp⟩
    intro j hj h0
    rw [List.getElem_append_left hj] at h0
    exact hnot (h0 ▸ List.getElem_mem hj)

/-- Without a zero byte there is nothing to cut. -/
theorem splitAadPlaintext_eq_error {authenticated : Bytes} {e : SealError}
    (h : splitAadPlaintext authenticated = .error e) : e = .malformedPlaintext := by
  unfold splitAadPlaintext at h
  rcases bind_eq_error.mp h with h | ⟨pos, -, h⟩
  · exact (okOr_eq_error.mp h).2.symm
  · cases h

/-! ## Comparing -/

/-- `constant_time_eq`: or together the differences of all byte pairs. -/
def constantTimeEq (a b : Bytes) : Bool :=
  if a.length ≠ b.length then false
  else (a.zip b).foldl (fun diff p => diff ||| (p.1 ^^^ p.2)) 0 == 0

/-- The accumulated difference is zero when it started at zero and no pair differs. -/
theorem foldl_or_xor_eq_zero (ps : List (UInt8 × UInt8)) : ∀ diff : UInt8,
    ps.foldl (fun diff p => diff ||| (p.1 ^^^ p.2)) diff = 0 ↔
      diff = 0 ∧ ∀ p ∈ ps, p.1 = p.2 := by
  induction ps with
  | nil => simp
  | cons p ps ih =>
    intro diff
    rw [List.foldl_cons, ih, UInt8.or_eq_zero_iff, UInt8.xor_eq_zero_iff, List.forall_mem_cons,
      and_assoc]

theorem constantTimeEq_iff {a b : Bytes} : constantTimeEq a b = true ↔ a = b := by
  unfold constantTimeEq
  split
  · rename_i hlen
    simp only [Bool.false_eq_true, false_iff]
    exact fun h => hlen (congrArg List.length h)
  · rename_i hlen
    rw [beq_iff_eq, foldl_or_xor_eq_zero]
    constructor
    · rintro ⟨-, hall⟩
      apply List.ext_getElem (not_not.mp hlen)
      intro i hia hib
      have hi : i < (a.zip b).length := by
        rw [List.length_zip]
        omega
      exact hall (a[i], b[i]) (List.mem_iff_getElem.mpr ⟨i, hi, List.getElem_zip⟩)
    · rintro rfl
      refine ⟨rfl, ?_⟩
      intro p hp
      obtain ⟨i, hi, rfl⟩ := List.getElem_of_mem hp
      simp

/-! ## Transport -/

/-- `encode_b64url`. -/
def encodeB64url (bytes : Bytes) : String := String.ofList (Base64Url.encode bytes)

/-- `decode_b64url`.  The length is a byte count in the source; it is looked at only for texts of
    one-byte characters, where it is the number of characters. -/
def decodeB64url (value : String) : Except SealError Bytes := do
  let cs := value.toList
  require (!cs.isEmpty) (.invalidEnvelope "ciphertext is empty")
  require (cs.all (Base64Url.alphabet.contains ·) && cs.length % 4 != 1)
    (.invalidEnvelope "ciphertext is not valid base64url")
  okOr (Base64Url.decode (Base64Url.pad cs)) (.invalidEnvelope "ciphertext is not valid base64url")

theorem decodeB64url_encodeB64url {bytes : Bytes} (h : bytes ≠ []) :
    decodeB64url (encodeB64url bytes) = .ok bytes := by
  have hne : (Base64Url.encode bytes).isEmpty = false := by
    rw [List.isEmpty_eq_false_iff]
    exact Base64Url.encode_ne_nil h
  have halpha : (Base64Url.encode bytes).all (Base64Url.alphabet.contains ·) = true := by
    rw [List.all_eq_true]
    exact fun ch hch => List.contains_iff_mem.mpr (Base64Url.encode_subset bytes ch hch)
  have hmod : ((Base64Url.encode bytes).length % 4 != 1) = true :=
    bne_iff_ne.mpr (Base64Url.length_encode_mod bytes)
  simp only [decodeB64url, encodeB64url, String.toList_ofList, hne, halpha, hmod,
    Base64Url.decode_pad_encode, Bool.not_false, Bool.and_true, require_true, okOr_some, ok_bind]

/-- An encoding of something is not the empty text. -/
theorem encodeB64url_ne_empty {bytes : Bytes} (h : bytes ≠ []) : encodeB64url bytes ≠ "" := by
  intro he
  have hl := congrArg String.toList he
  rw [encodeB64url, String.toList_ofList] at hl
  exact Base64Url.encode_ne_nil h hl

end Basecrawl.Seal
