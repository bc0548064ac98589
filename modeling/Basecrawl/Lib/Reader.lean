/-
  Readers, and the byte stream a reader delivers.

  1. **Sequences** — what `take`, `get?` and `drop` make of a sequence that starts with a list.
  2. **Readers** — a read returns as many bytes as it likes, up to the room it is given, and may
     fail.  A reader *delivers* a stream when its reads are fronts of what is left of it and a read
     of nothing is the end (`Delivers`).  The stream need not be finite.
  3. **Segments** — the reader of a list of segments delivers their concatenation.
-/
import Mathlib.Data.Seq.Basic
import Basecrawl.Lib.Run
import Basecrawl.Lib.Segments

namespace Basecrawl.Reading

open Text Stream'

/-! ## Sequences that start with a list -/

section

variable {α : Type} (xs : List α) (rest : Seq α)

theorem take_ofList_append (n : Nat) :
    ((Seq.ofList xs).append rest).take n = xs.take n ++ rest.take (n - xs.length) := by
  induction xs generalizing n with
  | nil =>
    rw [Seq.ofList_nil, Seq.nil_append, List.take_nil, List.nil_append, List.length_nil,
      Nat.sub_zero]
  | cons x xs ih =>
    rw [Seq.ofList_cons, Seq.cons_append]
    cases n with
    | zero => rw [Seq.take_zero, List.take_zero, Nat.zero_sub, Seq.take_zero, List.append_nil]
    | succ n =>
      rw [Seq.take_succ_cons, ih, List.take_succ_cons, List.length_cons, Nat.add_sub_add_right,
        List.cons_append]

theorem get?_ofList_append (n : Nat) :
    ((Seq.ofList xs).append rest).get? (xs.length + n) = rest.get? n := by
  induction xs with
  | nil => rw [Seq.ofList_nil, Seq.nil_append, List.length_nil, Nat.zero_add]
  | cons x xs ih =>
    rw [Seq.ofList_cons, Seq.cons_append, List.length_cons, Nat.add_right_comm, Seq.get?_cons_succ,
      ih]

theorem drop_ofList_append (n : Nat) :
    ((Seq.ofList xs).append rest).drop (xs.length + n) = rest.drop n := by
  induction xs with
  | nil => rw [Seq.ofList_nil, Seq.nil_append, List.length_nil, Nat.zero_add]
  | cons x xs ih =>
    rw [Seq.ofList_cons, Seq.cons_append, List.length_cons, Nat.add_right_comm, Seq.drop_succ_cons,
      ih]

theorem take_ofList (n : Nat) : (Seq.ofList xs).take n = xs.take n := by
  have h := take_ofList_append xs Seq.nil n
  rwa [Seq.append_nil, Seq.take_nil, List.append_nil] at h

end

/-! ## Readers -/

variable {ι ε σ : Type}

/-- What a read leaves at the front of a buffer. -/
abbrev Got (room : Nat) : Type := {bytes : Bytes // bytes.length ≤ room}

/-- `Read::read` into a buffer of so many bytes. -/
abbrev Reader (ι σ : Type) : Type := (room : Nat) → EStateM ι σ (Got room)

/-- **The contract of `Read`**: `left` is what the reader still has to give. -/
structure Delivers (reader : Reader ι σ) (left : σ → Seq UInt8) : Prop where
  front : ∀ {room : Nat} {s s' : σ} {got : Got room}, reader room s = .ok got s' →
    left s = (Seq.ofList got.val).append (left s')
  ends : ∀ {room : Nat} {s s' : σ} {got : Got room}, reader room s = .ok got s' → 0 < room →
    got.val = [] → left s = Seq.nil

/-- `Result::map_err`. -/
def mapErr {α : Type} (f : ι → ε) (x : EStateM ι σ α) : EStateM ε σ α := fun s =>
  match x s with
  | .ok a s' => .ok a s'
  | .error e s' => .error (f e) s'

theorem mapErr_cases {α : Type} (f : ι → ε) (x : EStateM ι σ α) (s : σ) :
    (∃ e s', x s = .error e s' ∧ mapErr f x s = .error (f e) s') ∨
      ∃ a s', x s = .ok a s' ∧ mapErr f x s = .ok a s' := by
  unfold mapErr
  cases x s with
  | ok a s' => exact Or.inr ⟨a, s', rfl, rfl⟩
  | error e s' => exact Or.inl ⟨e, s', rfl, rfl⟩

/-- At the end, reading leaves the reader there. -/
theorem Delivers.ended {reader : Reader ι σ} {left : σ → Seq UInt8} (h : Delivers reader left)
    {room : Nat} {s s' : σ} {got : Got room} (hread : reader room s = .ok got s')
    (hroom : 0 < room) (hnil : got.val = []) : left s = Seq.nil ∧ left s' = Seq.nil := by
  have hend := h.ends hread hroom hnil
  have hfront := h.front hread
  rw [hnil, Seq.ofList_nil, Seq.nil_append] at hfront
  exact ⟨hend, hfront ▸ hend⟩

/-- A read of one byte tells whether there is one, and takes it. -/
theorem Delivers.probe {reader : Reader ι σ} {left : σ → Seq UInt8} (h : Delivers reader left)
    {s s' : σ} {got : Got 1} (hread : reader 1 s = .ok got s') :
    decide (got.val ≠ []) = ((left s).get? 0).isSome ∧ left s' = (left s).drop 1 := by
  by_cases hnil : got.val = []
  · obtain ⟨hs, hs'⟩ := h.ended hread Nat.one_pos hnil
    rw [hs, hs', hnil]
    exact ⟨rfl, Seq.drop_nil.symm⟩
  · -- a read into one byte returns that byte
    have hlength : got.val.length = 1 :=
      Nat.le_antisymm got.property (List.length_pos_iff.mpr hnil)
    obtain ⟨byte, hbyte⟩ := List.length_eq_one_iff.mp hlength
    rw [h.front hread, hbyte]
    constructor
    · rw [Seq.ofList_cons, Seq.cons_append, Seq.get?_cons_zero]
      rfl
    · exact (drop_ofList_append [byte] (left s') 0).symm

/-! ## Segments -/

/-- Segments that are all there: a reader that does not fail. -/
def segmented : Reader ι {segments : List Bytes // Segments.Filled segments} := fun room s =>
  .ok ⟨(Segments.read room s.val).1, Segments.read_le room s.val⟩
    ⟨(Segments.read room s.val).2, Segments.read_filled s.property⟩

/-- What segments are the pieces of. -/
def joined (s : {segments : List Bytes // Segments.Filled segments}) : Seq UInt8 :=
  Seq.ofList s.val.flatten

theorem segmented_delivers : Delivers (@segmented ι) joined where
  front hread := by
    injection hread with hgot hs'
    rw [← hgot, ← hs']
    unfold joined
    rw [← Seq.ofList_append, Segments.read_flatten]
  ends hread hroom hnil := by
    injection hread with hgot _
    rw [← hgot] at hnil
    unfold joined
    rw [(Segments.read_eq_nil_iff (Subtype.property _) hroom).mp hnil, Seq.ofList_nil]

end Basecrawl.Reading
