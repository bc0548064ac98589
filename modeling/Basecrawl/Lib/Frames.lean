/-
  Byte strings made of frames.

  A frame is a header of fixed length and a payload whose length the header gives.  `cut` takes a
  byte string apart from the front, as a loop does that stops when no whole header is left:

    * `cut_flatten`      what was framed comes apart into the same frames, and the rest is cut on;
    * `cut_unfinished`   a header without its whole payload makes the cut fail;
    * `cut_eq_some`      a cut that succeeds is the only way to frame the bytes.

  `frameCases` is the case split of such a loop: too short for a header, a header without its
  payload, or a frame.  Lengths on the wire are big-endian numbers (`beNat`, `beBytes`).
-/
import Basecrawl.Lib.LittleEndian

namespace Basecrawl.Frames

open Text LittleEndian

/-! ## Big-endian numbers -/

/-- `uN::from_be_bytes`. -/
def beNat (bytes : Bytes) : Nat := bytes.foldl (fun n b => n * 256 + b.toNat) 0

/-- `uN::to_be_bytes` on `k` bytes. -/
def beBytes (k n : Nat) : Bytes := (leBytes k n).reverse

@[simp] theorem length_beBytes (k n : Nat) : (beBytes k n).length = k := by
  rw [beBytes, List.length_reverse, length_leBytes]

theorem beNat_concat (bytes : Bytes) (b : UInt8) :
    beNat (bytes ++ [b]) = beNat bytes * 256 + b.toNat := by
  rw [beNat, List.foldl_append]
  rfl

theorem beNat_eq (bytes : Bytes) : beNat bytes = leNat bytes.reverse := by
  induction bytes using List.reverseRecOn with
  | nil => rfl
  | append_singleton bytes b ih =>
    rw [beNat_concat, ih, List.reverse_append, List.reverse_singleton, List.singleton_append,
      leNat_cons]
    omega

theorem beNat_beBytes {k n : Nat} (h : n < 256 ^ k) : beNat (beBytes k n) = n := by
  rw [beNat_eq, beBytes, List.reverse_reverse, leNat_leBytes h]

theorem beBytes_beNat {k : Nat} {bytes : Bytes} (h : bytes.length = k) :
    beBytes k (beNat bytes) = bytes := by
  rw [beBytes, beNat_eq, ← h, ← List.length_reverse, leBytes_leNat, List.reverse_reverse]

theorem beNat_lt (bytes : Bytes) : beNat bytes < 256 ^ bytes.length := by
  rw [beNat_eq, ← List.length_reverse]
  exact leNat_lt bytes.reverse

/-- The number as a reader shifts it together. -/
theorem foldl_shift_or (bytes : Bytes) :
    bytes.foldl (fun length byte => length <<< 8 ||| byte.toNat) 0 = beNat bytes := by
  have hstep : (fun (length : Nat) (byte : UInt8) => length <<< 8 ||| byte.toNat) =
      fun n b => n * 256 + b.toNat := by
    funext length byte
    rw [← Nat.shiftLeft_add_eq_or_of_lt byte.toNat_lt, Nat.shiftLeft_eq]
  rw [hstep, beNat]

theorem shift_or_three (a b c : UInt8) :
    a.toNat <<< 16 ||| b.toNat <<< 8 ||| c.toNat = beNat [a, b, c] := by
  have hb := b.toNat_lt
  have hc := c.toNat_lt
  have hlow : b.toNat <<< 8 ||| c.toNat = b.toNat * 256 + c.toNat := by
    rw [← Nat.shiftLeft_add_eq_or_of_lt hc, Nat.shiftLeft_eq]
  rw [Nat.or_assoc, hlow, ← Nat.shiftLeft_add_eq_or_of_lt (by omega), Nat.shiftLeft_eq]
  simp only [beNat, List.foldl_cons, List.foldl_nil]
  omega

theorem beNat_two (a b : UInt8) : beNat [a, b] = a.toNat * 256 + b.toNat := by
  rw [beNat, List.foldl_cons, List.foldl_cons, List.foldl_nil]
  omega

theorem beNat_two_lt (a b : UInt8) : beNat [a, b] < 65536 := by
  have ha := a.toNat_lt
  have hb := b.toNat_lt
  rw [beNat_two]
  omega

theorem beNat_inj {x y : Bytes} (hlen : x.length = y.length) (h : beNat x = beNat y) : x = y := by
  rw [← beBytes_beNat hlen, h, beBytes_beNat rfl]

/-- A string with its length on `k` bytes before it. -/
def prefixed (k : Nat) (s : Bytes) : Bytes := beBytes k s.length ++ s

@[simp] theorem length_prefixed (k : Nat) (s : Bytes) : (prefixed k s).length = k + s.length := by
  rw [prefixed, List.length_append, length_beBytes]

/-! ## Frames -/

/-- Where a frame ends. -/
structure Layout where
  header : Nat
  size : Bytes → Nat
  header_pos : 0 < header

/-- A header and its payload. -/
abbrev Frame := Bytes × Bytes

/-- A frame of the layout. -/
def Framed (layout : Layout) (frame : Frame) : Prop :=
  frame.1.length = layout.header ∧ frame.2.length = layout.size frame.1

def flatten (frames : List Frame) : Bytes := frames.flatMap fun frame => frame.1 ++ frame.2

/-- The frames at the front, and the bytes that are too short for another header. -/
def cut (layout : Layout) (bytes : Bytes) : Option (List Frame × Bytes) :=
  if bytes.length < layout.header then some ([], bytes)
  else
    let header := bytes.take layout.header
    let stop := layout.header + layout.size header
    if bytes.length < stop then none
    else (cut layout (bytes.drop stop)).map fun rest =>
      ((header, (bytes.take stop).drop layout.header) :: rest.1, rest.2)
termination_by bytes.length
decreasing_by
  have hpos := layout.header_pos
  rw [List.length_drop]
  omega

variable {layout : Layout} {frame : Frame} {frames : List Frame} {bytes rest : Bytes}

@[simp] theorem flatten_nil : flatten [] = [] := rfl

@[simp] theorem flatten_cons (frame : Frame) (frames : List Frame) :
    flatten (frame :: frames) = frame.1 ++ frame.2 ++ flatten frames := rfl

/-- The cases of a loop over frames. -/
theorem frameCases (layout : Layout) (bytes : Bytes) :
    bytes.length < layout.header ∨
    (∃ header part, header.length = layout.header ∧ part.length < layout.size header ∧
      bytes = header ++ part) ∨
    ∃ frame rest, Framed layout frame ∧ bytes = frame.1 ++ frame.2 ++ rest := by
  rcases Nat.lt_or_ge bytes.length layout.header with h | h
  · exact .inl h
  obtain ⟨header, tail, hheader, rfl⟩ := cut_bytes bytes _ h
  rcases Nat.lt_or_ge tail.length (layout.size header) with hpart | hpart
  · exact .inr (.inl ⟨header, tail, hheader, hpart, rfl⟩)
  obtain ⟨payload, rest, hpayload, rfl⟩ := cut_bytes tail _ hpart
  exact .inr (.inr ⟨(header, payload), rest, ⟨hheader, hpayload⟩, (List.append_assoc ..).symm⟩)

/-- The first frame is determined. -/
theorem frame_unique {frame' : Frame} {rest' : Bytes} (h : Framed layout frame)
    (h' : Framed layout frame') (hsame : frame.1 ++ frame.2 ++ rest = frame'.1 ++ frame'.2 ++ rest') :
    frame = frame' ∧ rest = rest' := by
  obtain ⟨header, payload⟩ := frame
  obtain ⟨header', payload'⟩ := frame'
  simp only [List.append_assoc] at hsame
  obtain ⟨rfl, hpayload⟩ := List.append_inj hsame (h.1.trans h'.1.symm)
  obtain ⟨rfl, hrest⟩ := List.append_inj hpayload (h.2.trans h'.2.symm)
  exact ⟨rfl, hrest⟩

/-- A frame that is not whole is no frame. -/
theorem unfinished_ne_frame {header part : Bytes} (hheader : header.length = layout.header)
    (hpart : part.length < layout.size header) (h : Framed layout frame) :
    header ++ part ≠ frame.1 ++ frame.2 ++ rest := by
  intro hsame
  rw [List.append_assoc] at hsame
  obtain ⟨rfl, hrest⟩ := List.append_inj hsame (hheader.trans h.1.symm)
  have hpayload := h.2
  rw [hrest, List.length_append] at hpart
  omega

theorem cut_short (h : bytes.length < layout.header) : cut layout bytes = some ([], bytes) := by
  rw [cut, if_pos h]

theorem cut_unfinished {header part : Bytes} (hheader : header.length = layout.header)
    (hpart : part.length < layout.size header) : cut layout (header ++ part) = none := by
  rw [cut, if_neg (by rw [List.length_append]; omega), ← hheader, List.take_left,
    if_pos (by rw [List.length_append]; omega)]

theorem cut_frame (h : Framed layout frame) :
    cut layout (frame.1 ++ frame.2 ++ rest) =
      (cut layout rest).map fun more => (frame :: more.1, more.2) := by
  obtain ⟨header, payload⟩ := frame
  obtain ⟨hheader, hpayload⟩ := h
  simp only at hheader hpayload ⊢
  have htake : (header ++ payload ++ rest).take layout.header = header := by
    rw [List.append_assoc, ← hheader, List.take_left]
  have hstop : layout.header + layout.size header = (header ++ payload).length := by
    rw [List.length_append]
    omega
  rw [cut, if_neg (by simp only [List.length_append]; omega)]
  simp only [htake, hstop]
  rw [if_neg (by simp only [List.length_append]; omega), List.drop_left, List.take_left, ← hheader,
    List.drop_left]

/-- **Round trip**: what was framed comes apart into the same frames. -/
theorem cut_flatten (h : ∀ frame ∈ frames, Framed layout frame) :
    cut layout (flatten frames ++ rest) =
      (cut layout rest).map fun more => (frames ++ more.1, more.2) := by
  induction frames with
  | nil => cases hrest : cut layout rest <;> simp [hrest]
  | cons frame frames ih =>
    obtain ⟨hframe, hframes⟩ := List.forall_mem_cons.mp h
    rw [flatten_cons, List.append_assoc, cut_frame hframe, ih hframes, Option.map_map]
    rfl

theorem cut_flatten_short (h : ∀ frame ∈ frames, Framed layout frame)
    (hrest : rest.length < layout.header) :
    cut layout (flatten frames ++ rest) = some (frames, rest) := by
  rw [cut_flatten h, cut_short hrest, Option.map_some, List.append_nil]

theorem cut_flatten_unfinished {header part : Bytes} (h : ∀ frame ∈ frames, Framed layout frame)
    (hheader : header.length = layout.header) (hpart : part.length < layout.size header) :
    cut layout (flatten frames ++ (header ++ part)) = none := by
  rw [cut_flatten h, cut_unfinished hheader hpart, Option.map_none]

/-- **A cut is the framing of the bytes.** -/
theorem cut_eq_some : cut layout bytes = some (frames, rest) ↔
    bytes = flatten frames ++ rest ∧ (∀ frame ∈ frames, Framed layout frame) ∧
      rest.length < layout.header := by
  constructor
  · intro h
    induction hn : bytes.length using Nat.strongRecOn generalizing bytes frames with
    | ind n ih =>
      rcases frameCases layout bytes with hshort | ⟨header, part, hheader, hpart, rfl⟩ |
        ⟨frame, tail, hframe, rfl⟩
      · rw [cut_short hshort] at h
        cases h
        exact ⟨rfl, fun _ hmem => absurd hmem List.not_mem_nil, hshort⟩
      · rw [cut_unfinished hheader hpart] at h
        cases h
      · rw [cut_frame hframe, Option.map_eq_some_iff] at h
        obtain ⟨⟨more, last⟩, hmore, hsame⟩ := h
        cases hsame
        have hless : tail.length < n := by
          have hpos := layout.header_pos
          have hheader := hframe.1
          simp only [List.length_append] at hn
          omega
        obtain ⟨htail, hframed, hlast⟩ := ih _ hless hmore rfl
        refine ⟨?_, List.forall_mem_cons.mpr ⟨hframe, hframed⟩, hlast⟩
        rw [htail, flatten_cons]
        simp only [List.append_assoc]
  · rintro ⟨rfl, hframed, hrest⟩
    exact cut_flatten_short hframed hrest

/-- Bytes are framed in one way. -/
theorem flatten_unique {frames' : List Frame} {rest' : Bytes}
    (h : ∀ frame ∈ frames, Framed layout frame) (h' : ∀ frame ∈ frames', Framed layout frame)
    (hrest : rest.length < layout.header) (hrest' : rest'.length < layout.header)
    (hsame : flatten frames ++ rest = flatten frames' ++ rest') :
    frames = frames' ∧ rest = rest' := by
  have hcut := cut_flatten_short h hrest
  rw [hsame, cut_flatten_short h' hrest'] at hcut
  cases hcut
  exact ⟨rfl, rfl⟩

end Basecrawl.Frames
