/-
  What the associated data binds.

  Both texts put the ids between `|name=` labels without escaping, and the ids are arbitrary, so a
  text can be cut in another place wherever an id holds the label of the next field.  The key id
  at the end has a fixed length, so only the ids before it can move:

  1. **Texts** — `aadText_inj_iff` and `resultAadText_inj_iff` strip the fixed parts.
  2. **Binding** — `buildAad_binds_iff`: the fields are bound exactly when `Splice` finds no other
     cut.
-/
import Basecrawl.Lib.Splice
import Basecrawl.Seal.Task
import Basecrawl.Seal.Result

namespace Basecrawl.Seal

open Text Splice

/-- The label between the task id and the nonce. -/
def nonceLabel : String := "|nonce="

/-- The label between the nonce and the result hash. -/
def resultHashLabel : String := "|result_hash="

theorem isLabel_nonce : IsLabel '|' nonceLabel.toList := ⟨⟨"nonce=".toList, rfl, by decide⟩⟩

theorem isLabel_resultHash : IsLabel '|' resultHashLabel.toList :=
  ⟨⟨"result_hash=".toList, rfl, by decide⟩⟩

/-! ## The texts without their fixed parts -/

/-- Two strings that end in key ids are cut at the same place. -/
theorem append_keyId_inj {a a' k k' : String} (hk : isKeyId k = true) (hk' : isKeyId k' = true)
    (h : utf8 (a ++ k) = utf8 (a' ++ k')) : a = a' ∧ k = k' := by
  rw [utf8_append, utf8_append] at h
  have hlen : (utf8 k).length = (utf8 k').length := by rw [length_keyId hk, length_keyId hk']
  obtain ⟨ha, hkey⟩ := List.append_inj' h hlen
  exact ⟨utf8_inj.mp ha, utf8_inj.mp hkey⟩

/-- Equal heads and equal tails, whatever they are, leave the middle to be compared. -/
theorem append_middle_inj (pre post : String) {a a' : String} :
    pre ++ a ++ post = pre ++ a' ++ post ↔ a.toList = a'.toList := by
  rw [← String.toList_inj]
  simp only [String.toList_append, List.append_assoc, List.append_cancel_left_eq,
    List.append_cancel_right_eq]

theorem aadText_inj_iff {t n k t' n' k' : String} (hk : isKeyId k = true)
    (hk' : isKeyId k' = true) :
    utf8 (aadText t n k) = utf8 (aadText t' n' k') ↔
      t.toList ++ (nonceLabel.toList ++ n.toList) = t'.toList ++ (nonceLabel.toList ++ n'.toList) ∧ k = k' := by
  have htext : ∀ t n k, aadText t n k = (taskSealDomain ++ "|task_id=") ++ (t ++ (nonceLabel ++ n)) ++
      "|recipient_key_id=" ++ k := by
    intro t n k
    simp only [aadText, nonceLabel, String.append_assoc]
  have hmid : ∀ t n : String,
      (t ++ (nonceLabel ++ n)).toList = t.toList ++ (nonceLabel.toList ++ n.toList) := by
    intro t n
    simp only [String.toList_append]
  rw [htext, htext, ← hmid, ← hmid, ← append_middle_inj (taskSealDomain ++ "|task_id=")
    "|recipient_key_id="]
  constructor
  · exact append_keyId_inj hk hk'
  · rintro ⟨heq, rfl⟩
    rw [heq]

theorem resultAadText_inj_iff {t n h k t' n' h' k' : String} (hk : isKeyId k = true)
    (hk' : isKeyId k' = true) :
    utf8 (resultAadText t n h k) = utf8 (resultAadText t' n' h' k') ↔
      t.toList ++ (nonceLabel.toList ++ (n.toList ++ (resultHashLabel.toList ++ h.toList))) =
        t'.toList ++ (nonceLabel.toList ++ (n'.toList ++ (resultHashLabel.toList ++ h'.toList))) ∧
      k = k' := by
  have htext : ∀ t n h k, resultAadText t n h k = (resultSealDomain ++ "|task_id=") ++
      (t ++ (nonceLabel ++ (n ++ (resultHashLabel ++ h)))) ++ "|recipient_key_id=" ++ k ++
        ("|recipient=" ++ resultRecipientRole) := by
    intro t n h k
    simp only [resultAadText, nonceLabel, resultHashLabel, String.append_assoc]
  have hmid : ∀ t n h : String, (t ++ (nonceLabel ++ (n ++ (resultHashLabel ++ h)))).toList =
      t.toList ++ (nonceLabel.toList ++ (n.toList ++ (resultHashLabel.toList ++ h.toList))) := by
    intro t n h
    simp only [String.toList_append]
  rw [htext, htext, ← hmid, ← hmid, ← append_middle_inj (resultSealDomain ++ "|task_id=")
    "|recipient_key_id=", utf8_append, utf8_append (t := "|recipient=" ++ _)]
  constructor
  · -- the recipient role closes the text on both sides
    exact fun heq => append_keyId_inj hk hk' (List.append_cancel_right heq)
  · rintro ⟨heq, rfl⟩
    rw [heq]

/-! ## Binding -/

theorem toList_ne_nil {s : String} : s.toList ≠ [] ↔ s ≠ "" := by
  rw [ne_eq, ne_eq, ← String.toList_inj, String.toList_empty]

/-- The task text binds its fields unless an id holds the nonce label on the side of the other. -/
theorem aad_binds_iff {t n k : String} {aad : Bytes} (h : buildAad t n k = .ok aad) :
    (∀ t' n' k', buildAad t' n' k' = .ok aad → t = t' ∧ n = n' ∧ k = k') ↔
      ¬ HoldsAfter nonceLabel.toList t.toList ∧ ¬ HoldsBefore nonceLabel.toList n.toList := by
  obtain ⟨ht, hn, hk, rfl⟩ := buildAad_eq_ok.mp h
  rw [← pair_unique_iff isLabel_nonce (toList_ne_nil.mpr ht) (toList_ne_nil.mpr hn)]
  constructor
  · intro huniq x' y' hx' hy' heq
    have hother : buildAad (String.ofList x') (String.ofList y') k = .ok (utf8 (aadText t n k)) := by
      refine buildAad_eq_ok.mpr ⟨?_, ?_, hk, (aadText_inj_iff hk hk).mpr ⟨?_, rfl⟩⟩
      · rwa [← toList_ne_nil, String.toList_ofList]
      · rwa [← toList_ne_nil, String.toList_ofList]
      · rwa [String.toList_ofList, String.toList_ofList]
    obtain ⟨rfl, rfl, -⟩ := huniq _ _ _ hother
    exact ⟨String.toList_ofList, String.toList_ofList⟩
  · intro huniq t' n' k' h'
    obtain ⟨ht', hn', hk', heq⟩ := buildAad_eq_ok.mp h'
    obtain ⟨hids, rfl⟩ := (aadText_inj_iff hk hk').mp heq
    obtain ⟨htt, hnn⟩ := huniq _ _ (toList_ne_nil.mpr ht') (toList_ne_nil.mpr hn') hids
    exact ⟨String.toList_inj.mp htt, String.toList_inj.mp hnn, rfl⟩

/-- The result text binds its fields unless one holds a neighbouring label on the outer side. -/
theorem resultAad_binds_iff {t n h k : String} {aad : Bytes}
    (hok : buildResultAad t n h k = .ok aad) :
    (∀ t' n' h' k', buildResultAad t' n' h' k' = .ok aad → t = t' ∧ n = n' ∧ h = h' ∧ k = k') ↔
      ¬ HoldsAfter nonceLabel.toList t.toList ∧ ¬ HoldsBefore nonceLabel.toList n.toList ∧
        ¬ HoldsAfter resultHashLabel.toList n.toList ∧ ¬ HoldsBefore resultHashLabel.toList h.toList := by
  obtain ⟨ht, hn, hh, hk, rfl⟩ := buildResultAad_eq_ok.mp hok
  rw [← triple_unique_iff isLabel_nonce isLabel_resultHash (by decide) (by decide)
    (toList_ne_nil.mpr ht) (toList_ne_nil.mpr hn) (toList_ne_nil.mpr hh)]
  constructor
  · intro huniq x' y' z' hx' hy' hz' heq
    have hother : buildResultAad (String.ofList x') (String.ofList y') (String.ofList z') k =
        .ok (utf8 (resultAadText t n h k)) := by
      refine buildResultAad_eq_ok.mpr ⟨?_, ?_, ?_, hk, (resultAadText_inj_iff hk hk).mpr ⟨?_, rfl⟩⟩
      · rwa [← toList_ne_nil, String.toList_ofList]
      · rwa [← toList_ne_nil, String.toList_ofList]
      · rwa [← toList_ne_nil, String.toList_ofList]
      · rwa [String.toList_ofList, String.toList_ofList, String.toList_ofList]
    obtain ⟨rfl, rfl, rfl, -⟩ := huniq _ _ _ _ hother
    exact ⟨String.toList_ofList, String.toList_ofList, String.toList_ofList⟩
  · intro huniq t' n' h' k' hok'
    obtain ⟨ht', hn', hh', hk', heq⟩ := buildResultAad_eq_ok.mp hok'
    obtain ⟨hids, rfl⟩ := (resultAadText_inj_iff hk hk').mp heq
    obtain ⟨htt, hnn, hhh⟩ := huniq _ _ _ (toList_ne_nil.mpr ht') (toList_ne_nil.mpr hn')
      (toList_ne_nil.mpr hh') hids
    exact ⟨String.toList_inj.mp htt, String.toList_inj.mp hnn, String.toList_inj.mp hhh, rfl⟩

/-- **Binding, exactly.**  On what each writer accepts, its text belongs to these fields alone if
    and only if no field holds a neighbouring label with text of its own on the outer side. -/
theorem associatedData_binds_iff (t n h k : String) :
    (∀ aad, buildAad t n k = .ok aad →
      ((∀ t' n' k', buildAad t' n' k' = .ok aad → t = t' ∧ n = n' ∧ k = k') ↔
        ¬ HoldsAfter nonceLabel.toList t.toList ∧ ¬ HoldsBefore nonceLabel.toList n.toList)) ∧
    (∀ aad, buildResultAad t n h k = .ok aad →
      ((∀ t' n' h' k', buildResultAad t' n' h' k' = .ok aad →
          t = t' ∧ n = n' ∧ h = h' ∧ k = k') ↔
        ¬ HoldsAfter nonceLabel.toList t.toList ∧ ¬ HoldsBefore nonceLabel.toList n.toList ∧
          ¬ HoldsAfter resultHashLabel.toList n.toList ∧
          ¬ HoldsBefore resultHashLabel.toList h.toList)) :=
  ⟨fun _ hok => aad_binds_iff hok, fun _ hok => resultAad_binds_iff hok⟩

/-- Texts of the usual ids are bound. -/
theorem associatedData_binds_plain :
    (∀ t' n' k', buildAad t' n' k' =
        .ok (utf8 (aadText "task-1" "nonce-1" fixedIdentity.keyId)) →
      "task-1" = t' ∧ "nonce-1" = n' ∧ fixedIdentity.keyId = k') ∧
    (∀ t' n' h' k', buildResultAad t' n' h' k' =
        .ok (utf8 (resultAadText "task-1" "nonce-1" emptyDigest fixedIdentity.keyId)) →
      "task-1" = t' ∧ "nonce-1" = n' ∧ emptyDigest = h' ∧ fixedIdentity.keyId = k') := by
  have hafter : ∀ l x : List Char, ¬ l <:+: x → ¬ HoldsAfter l x :=
    fun l x hno ⟨a, b, _, hx⟩ => hno ⟨a, b, by rw [hx, List.append_assoc]⟩
  have hbefore : ∀ l x : List Char, ¬ l <:+: x → ¬ HoldsBefore l x :=
    fun l x hno ⟨a, b, _, hx⟩ => hno ⟨a, b, by rw [hx, List.append_assoc]⟩
  refine ⟨((associatedData_binds_iff _ _ emptyDigest _).1 _ ?_).mpr ⟨?_, ?_⟩,
    ((associatedData_binds_iff _ _ _ _).2 _ ?_).mpr ⟨?_, ?_, ?_, ?_⟩⟩
  · exact buildAad_eq_ok.mpr ⟨by decide, by decide, fixedIdentity.isKeyId, rfl⟩
  · exact hafter _ _ (by decide)
  · exact hbefore _ _ (by decide)
  · exact buildResultAad_eq_ok.mpr ⟨by decide, by decide, by decide, fixedIdentity.isKeyId, rfl⟩
  · exact hafter _ _ (by decide)
  · exact hbefore _ _ (by decide)
  · exact hafter _ _ (by decide)
  · exact hbefore _ _ (by decide)

/-- The nonce label inside a task id and inside a nonce: two pairs of ids, one text. -/
theorem associatedData_collision :
    ∃ aad aad', buildAad "a|nonce=b" "c" fixedIdentity.keyId = .ok aad ∧
      buildAad "a" "b|nonce=c" fixedIdentity.keyId = .ok aad ∧
      buildResultAad "a|nonce=b" "c" emptyDigest fixedIdentity.keyId = .ok aad' ∧
      buildResultAad "a" "b|nonce=c" emptyDigest fixedIdentity.keyId = .ok aad' ∧
      "a|nonce=b" ≠ "a" := by
  have hk := fixedIdentity.isKeyId
  refine ⟨_, _, buildAad_eq_ok.mpr ⟨by decide, by decide, hk, rfl⟩,
    buildAad_eq_ok.mpr ⟨by decide, by decide, hk, (aadText_inj_iff hk hk).mpr ⟨by decide, rfl⟩⟩,
    buildResultAad_eq_ok.mpr ⟨by decide, by decide, by decide, hk, rfl⟩,
    buildResultAad_eq_ok.mpr ⟨by decide, by decide, by decide, hk,
      (resultAadText_inj_iff hk hk).mpr ⟨by decide, rfl⟩⟩, by decide⟩

end Basecrawl.Seal
