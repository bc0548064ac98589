/-
  Byte streams that arrive in segments.

  A stream is the list of segments that reads will find, the last of them followed by the end.  One
  `read` returns what there is of the next segment, up to the room the caller has.  What a loop of
  reads returns does not depend on where the stream is cut: `readExact` (`readExact_eq`) and a read
  up to a limit are functions of the joined bytes.
-/
import Basecrawl.Lib.Text

namespace Basecrawl.Segments

open Text

/-- No segment is empty: a read of no bytes is the end. -/
def Filled (segments : List Bytes) : Prop := ∀ segment ∈ segments, segment ≠ []

/-- `Read::read` into `room` bytes. -/
def read (room : Nat) : List Bytes → Bytes × List Bytes
  | [] => ([], [])
  | segment :: rest =>
    (segment.take room, if segment.length ≤ room then rest else segment.drop room :: rest)

variable {segments : List Bytes} {room n : Nat}

theorem read_flatten (room : Nat) (segments : List Bytes) :
    (read room segments).1 ++ (read room segments).2.flatten = segments.flatten := by
  cases segments with
  | nil => rfl
  | cons segment rest =>
    rw [read]
    simp only
    split
    · next h => rw [List.take_of_length_le h, List.flatten_cons]
    · rw [List.flatten_cons, List.flatten_cons, ← List.append_assoc, List.take_append_drop]

theorem read_filled (h : Filled segments) : Filled (read room segments).2 := by
  cases segments with
  | nil => exact h
  | cons segment rest =>
    obtain ⟨-, hrest⟩ := List.forall_mem_cons.mp h
    rw [read]
    simp only
    split
    · exact hrest
    · next hlong =>
      refine List.forall_mem_cons.mpr ⟨?_, hrest⟩
      rw [ne_eq, List.drop_eq_nil_iff]
      exact hlong

theorem read_le (room : Nat) (segments : List Bytes) : (read room segments).1.length ≤ room := by
  cases segments with
  | nil => exact Nat.zero_le room
  | cons segment rest => exact List.length_take_le room segment

/-- A read of no bytes is the end. -/
theorem read_eq_nil_iff (h : Filled segments) (hroom : 0 < room) :
    (read room segments).1 = [] ↔ segments.flatten = [] := by
  cases segments with
  | nil => exact iff_of_true rfl rfl
  | cons segment rest =>
    obtain ⟨hne, -⟩ := List.forall_mem_cons.mp h
    have htake : segment.take room ≠ [] := by
      rw [ne_eq, List.take_eq_nil_iff]
      exact not_or.mpr ⟨Nat.ne_of_gt hroom, hne⟩
    exact iff_of_false htake (by rw [List.flatten_cons]; exact List.append_ne_nil_of_left_ne_nil hne _)

/-- `Read::read_exact`: `none` when the stream ends before the buffer is full. -/
def readExact (n : Nat) (segments : List Bytes) : Option (Bytes × List Bytes) :=
  if _h : n = 0 then some ([], segments)
  else
    if _hend : (read n segments).1 = [] then none
    else
      (readExact (n - (read n segments).1.length) (read n segments).2).map fun more =>
        ((read n segments).1 ++ more.1, more.2)
termination_by n
decreasing_by
  have hpos := List.length_pos_iff.mpr _hend
  omega

/-- What is left after `n` bytes, however they arrived. -/
structure Rest (segments : List Bytes) (n : Nat) (rest : List Bytes) : Prop where
  filled : Filled rest
  flatten : rest.flatten = segments.flatten.drop n

theorem rest_zero (h : Filled segments) : Rest segments 0 segments := ⟨h, rfl⟩

/-- The bytes that one read returned are the first ones. -/
theorem read_rest (h : Filled segments) (room : Nat) :
    (read room segments).1 = segments.flatten.take (read room segments).1.length ∧
      Rest segments (read room segments).1.length (read room segments).2 := by
  have hsplit := read_flatten room segments
  refine ⟨?_, read_filled h, ?_⟩
  · rw [← hsplit, List.take_left]
  · rw [← hsplit, List.drop_left]

theorem Rest.trans {rest more : List Bytes} {k : Nat} (h : Rest segments n rest)
    (h' : Rest rest k more) : Rest segments (n + k) more where
  filled := h'.filled
  flatten := by rw [h'.flatten, h.flatten, List.drop_drop]

/-- **The segments do not matter**: the buffer holds the first `n` bytes. -/
theorem readExact_eq (h : Filled segments) (hn : n ≤ segments.flatten.length) :
    ∃ rest, readExact n segments = some (segments.flatten.take n, rest) ∧ Rest segments n rest := by
  induction n using Nat.strongRecOn generalizing segments with
  | ind n ih =>
    by_cases hzero : n = 0
    · subst hzero
      exact ⟨segments, by rw [readExact, dif_pos rfl, List.take_zero], rest_zero h⟩
    · have hne : (read n segments).1 ≠ [] := by
        rw [ne_eq, read_eq_nil_iff h (Nat.pos_of_ne_zero hzero)]
        intro hnil
        rw [hnil] at hn
        exact hzero (Nat.le_zero.mp hn)
      have hpos := List.length_pos_iff.mpr hne
      have hle := read_le n segments
      obtain ⟨hgot, hrest⟩ := read_rest h n
      have hleft : n - (read n segments).1.length ≤ (read n segments).2.flatten.length := by
        rw [hrest.flatten, List.length_drop]
        omega
      obtain ⟨rest, hread, hmore⟩ := ih _ (by omega) hrest.filled hleft
      have hsum : (read n segments).1.length + (n - (read n segments).1.length) = n := by omega
      refine ⟨rest, ?_, hsum ▸ hrest.trans hmore⟩
      rw [readExact, dif_neg hzero, dif_neg hne, hread, Option.map_some]
      refine congrArg (fun bytes => some (bytes, rest)) ?_
      calc (read n segments).1 ++ (read n segments).2.flatten.take (n - (read n segments).1.length)
          = segments.flatten.take (read n segments).1.length ++
              (segments.flatten.drop (read n segments).1.length).take
                (n - (read n segments).1.length) := by rw [← hgot, hrest.flatten]
        _ = segments.flatten.take n := by rw [← List.take_add, hsum]

/-- A buffer that is filled from a known front. -/
theorem readExact_append {front tail : Bytes} (h : Filled segments)
    (hsegments : segments.flatten = front ++ tail) :
    ∃ rest, readExact front.length segments = some (front, rest) ∧ Filled rest ∧
      rest.flatten = tail := by
  have hn : front.length ≤ segments.flatten.length := by
    rw [hsegments, List.length_append]
    omega
  obtain ⟨rest, hread, hrest⟩ := readExact_eq h hn
  have hflatten := hrest.flatten
  rw [hsegments, List.take_left] at hread
  rw [hsegments, List.drop_left] at hflatten
  exact ⟨rest, hread, hrest.filled, hflatten⟩

/-- The stream ends first. -/
theorem readExact_none (h : Filled segments) (hn : segments.flatten.length < n) :
    readExact n segments = none := by
  induction n using Nat.strongRecOn generalizing segments with
  | ind n ih =>
    rw [readExact, dif_neg (Nat.ne_zero_of_lt hn)]
    split
    · rfl
    · next hne =>
      have hpos := List.length_pos_iff.mpr hne
      have hsplit : segments.flatten.length =
          (read n segments).1.length + (read n segments).2.flatten.length := by
        rw [← read_flatten n segments, List.length_append]
      rw [ih _ (by omega) (read_filled h) (by omega), Option.map_none]

end Basecrawl.Segments
