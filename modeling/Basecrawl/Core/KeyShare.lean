/-
  The server's key share, read from the recorded wire.

  The recorder keeps the inbound bytes of a handshake.  `parseServerKeyShare` joins the handshake
  fragments of the TLS records, goes through the handshake messages and keeps the key of the last
  ServerHello that has one; three loops over length-delimited items, nested.  Each loop is the
  `cut` of its layout (`handshakeLoop_eq`, `keyShareLoop_eq`), or stops at the first item it looks
  for (`extensionsLoop_decides`), so the result is a function of the handshake bytes.  Of a record
  that is still on its way the parser ignores up to four bytes; from the fifth on it returns nothing,
  whatever was received before.
-/
import Basecrawl.Lib.Frames
import Basecrawl.Lib.Panic

namespace Basecrawl.Core

open Text Frames Panic Outcome

/-! ## The parser

`Err(())` is `None`.  Offsets are at most the length of the slice, which is below `2^63`, so the sums
do not overflow and `checked_add` decides as the comparison after it does. -/

abbrev Parsed (α : Type) := Checked Unit α

/-- `u16::from_be_bytes([bytes[i], bytes[i + 1]])`. -/
def u16FromBeBytes (bytes : Bytes) (i : Nat) : Parsed Nat := do
  let high ← index bytes i
  let low ← index bytes (i + 1)
  return beNat [high, low]

/-- The loop over the extensions of a ServerHello. -/
def extensionsLoop (serverHello : Bytes) (extensionsEnd offset : Nat) : Parsed Bytes :=
  if _h : offset + 4 ≤ extensionsEnd then do
    let extensionType ← u16FromBeBytes serverHello offset
    let length ← u16FromBeBytes serverHello (offset + 2)
    let stop := offset + 4 + length
    if stop > extensionsEnd then fail ()
    else if extensionType = 0x0033 ∧ length ≥ 4 then do
      let keyLength ← u16FromBeBytes serverHello (offset + 4 + 2)
      if keyLength ≠ 0 ∧ keyLength + 4 = length then
        okOr (getRange serverHello (offset + 4 + 4) stop) (.err ())
      else extensionsLoop serverHello extensionsEnd stop
    else extensionsLoop serverHello extensionsEnd stop
  else fail ()
termination_by extensionsEnd - offset

def parseServerHelloKeyShare (serverHello : Bytes) : Parsed Bytes := do
  let sessionIdLength ← okOr serverHello[34]? (.err ())
  let extensionsStart := 35 + sessionIdLength.toNat + 3
  let high ← okOr serverHello[extensionsStart]? (.err ())
  let low ← okOr serverHello[extensionsStart + 1]? (.err ())
  let extensionsLength := beNat [high, low]
  let offset := extensionsStart + 2
  let extensionsEnd := offset + extensionsLength
  if extensionsEnd > serverHello.length then fail ()
  else extensionsLoop serverHello extensionsEnd offset

/-- A `None` that is not passed on. -/
def optional {α : Type} : Parsed α → Parsed (Option α)
  | .ok a => .ok (some a)
  | .error (.err ()) => .ok none
  | .error .panic => .error .panic

/-- The loop over the handshake messages. -/
def keyShareLoop (handshake : Bytes) (offset : Nat) (keyShare : Option Bytes) :
    Parsed (Option Bytes) :=
  if _h : offset + 4 ≤ handshake.length then do
    let messageType ← index handshake offset
    let high ← index handshake (offset + 1)
    let middle ← index handshake (offset + 2)
    let low ← index handshake (offset + 3)
    let length := high.toNat <<< 16 ||| middle.toNat <<< 8 ||| low.toNat
    let stop := offset + (4 + length)
    if stop > handshake.length then fail ()
    else if messageType = 2 then do
      let serverHello ← slice handshake (offset + 4) stop
      let found ← optional (parseServerHelloKeyShare serverHello)
      keyShareLoop handshake stop (found.or keyShare)
    else keyShareLoop handshake stop keyShare
  else return keyShare
termination_by handshake.length - offset

/-- The loop over the records. -/
def handshakeLoop (records : Bytes) (offset : Nat) (handshake : Bytes) : Parsed Bytes :=
  if _h : offset + 5 ≤ records.length then do
    let contentType ← index records offset
    let length ← u16FromBeBytes records (offset + 3)
    let stop := offset + (5 + length)
    if stop > records.length then fail ()
    else if contentType = 22 then do
      let fragment ← slice records (offset + 5) stop
      handshakeLoop records stop (handshake ++ fragment)
    else handshakeLoop records stop handshake
  else return handshake
termination_by records.length - offset

def parseServerKeyShare (records : Bytes) : Parsed Bytes := do
  let handshake ← handshakeLoop records 0 []
  let keyShare ← keyShareLoop handshake 0 none
  okOr keyShare (.err ())

/-! ## The wire -/

/-- A TLS record: type, version and length, and the fragment. -/
def recordLayout : Layout where
  header := 5
  size header := beNat (header.drop 3)
  header_pos := Nat.succ_pos 4

/-- A handshake message: type and length, and the body. -/
def messageLayout : Layout where
  header := 4
  size header := beNat (header.drop 1)
  header_pos := Nat.succ_pos 3

/-- An extension: type and length, and the data. -/
def extensionLayout : Layout where
  header := 4
  size header := beNat (header.drop 2)
  header_pos := Nat.succ_pos 3

def handshakeType : UInt8 := 22
def serverHelloType : UInt8 := 2

/-- The handshake bytes that records carry. -/
def handshakeBytes (records : List Frame) : Bytes :=
  (records.filter fun record => record.1.head? = some handshakeType).flatMap Prod.snd

/-- A full `key_share` entry of a server: a group and a key. -/
def IsKeyShareEntry (extension : Frame) (key : Bytes) : Prop :=
  extension.1.take 2 = [0x00, 0x33] ∧ key ≠ [] ∧ key.length < 65536 ∧
    ∃ group, group.length = 2 ∧ extension.2 = group ++ prefixed 2 key

/-- The first full entry of an extension block. -/
inductive FirstEntry : Bytes → Bytes → Prop where
  | here {extension : Frame} {key rest : Bytes} (hframed : Framed extensionLayout extension)
      (hentry : IsKeyShareEntry extension key) :
      FirstEntry (extension.1 ++ extension.2 ++ rest) key
  | later {extension : Frame} {key rest : Bytes} (hframed : Framed extensionLayout extension)
      (hother : ∀ key, ¬ IsKeyShareEntry extension key) (hrest : FirstEntry rest key) :
      FirstEntry (extension.1 ++ extension.2 ++ rest) key

/-- The body of a ServerHello that carries a key: version and random, session id, suite and
compression, and the extension block. -/
def CarriesKey (serverHello key : Bytes) : Prop :=
  ∃ front sessionId suite extensions trailing : Bytes, front.length = 34 ∧
    sessionId.length < 256 ∧ suite.length = 3 ∧ extensions.length < 65536 ∧
    serverHello =
      front ++ (prefixed 1 sessionId ++ (suite ++ (prefixed 2 extensions ++ trailing))) ∧
    FirstEntry extensions key

/-- A ServerHello message that carries a key. -/
def IsKeyMessage (message : Frame) (key : Bytes) : Prop :=
  message.1.head? = some serverHelloType ∧ CarriesKey message.2 key

/-- The key of the last ServerHello that carries one. -/
def LastKey (messages : List Frame) (key : Bytes) : Prop :=
  ∃ before serverHello after, messages = before ++ serverHello :: after ∧
    IsKeyMessage serverHello key ∧ ∀ message ∈ after, ∀ other, ¬ IsKeyMessage message other

/-! ## Extensions -/

theorem u16_of_drop (bytes : Bytes) {rest : Bytes} {i : Nat} {a b : UInt8}
    (h : bytes.drop i = a :: b :: rest) :
    u16FromBeBytes bytes i = .ok (beNat [a, b]) := by
  have hnext : bytes.drop (i + 1) = b :: rest := by
    rw [← List.drop_drop, h]
    rfl
  rw [u16FromBeBytes, index_of_drop bytes h, ok_bind, index_of_drop bytes hnext, ok_bind]
  rfl

theorem drop_skip (done todo : Bytes) (i : Nat) :
    (done ++ todo).drop (done.length + i) = todo.drop i := by
  rw [← List.drop_drop, List.drop_left]

theorem four_of_length {header : Bytes} (h : header.length = 4) :
    ∃ a b c d, header = [a, b, c, d] := by
  rcases header with _ | ⟨a, _ | ⟨b, _ | ⟨c, _ | ⟨d, _ | ⟨e, more⟩⟩⟩⟩⟩ <;>
    simp only [List.length_nil, List.length_cons] at h
  all_goals first | omega | exact ⟨a, b, c, d, rfl⟩

/-- An entry is told by its type and its two lengths. -/
theorem isKeyShareEntry_iff {extension : Frame} {key : Bytes} :
    IsKeyShareEntry extension key ↔ extension.1.take 2 = [0x00, 0x33] ∧
      ∃ a b c d, extension.2 = a :: b :: c :: d :: key ∧ beNat [c, d] ≠ 0 ∧
        beNat [c, d] = key.length := by
  constructor
  · rintro ⟨htype, hne, hfits, group, hgroup, hdata⟩
    obtain ⟨a, b, rfl⟩ := List.length_eq_two.mp hgroup
    obtain ⟨c, d, hlength⟩ := List.length_eq_two.mp (length_beBytes 2 key.length)
    have hkey : beNat [c, d] = key.length := by rw [← hlength, beNat_beBytes hfits]
    refine ⟨htype, a, b, c, d, ?_, ?_, hkey⟩
    · rw [hdata, prefixed, hlength]
      rfl
    · rw [hkey]
      exact fun h => hne (List.length_eq_zero_iff.mp h)
  · rintro ⟨htype, a, b, c, d, hdata, hne, hlen⟩
    refine ⟨htype, ?_, hlen ▸ beNat_two_lt c d, [a, b], rfl, ?_⟩
    · rintro rfl
      exact hne hlen
    · rw [hdata, prefixed, ← hlen, beBytes_beNat (k := 2) rfl]
      rfl

/-- One turn of the loop: the key of a full entry, or on to the next extension. -/
theorem extensionsLoop_turn (done rest trailing : Bytes) {extension : Frame}
    (h : Framed extensionLayout extension) :
    (∃ key, IsKeyShareEntry extension key ∧
      extensionsLoop (done ++ (extension.1 ++ (extension.2 ++ (rest ++ trailing))))
        (done.length + (extension.1 ++ extension.2 ++ rest).length) done.length = .ok key) ∨
    ((∀ key, ¬ IsKeyShareEntry extension key) ∧
      extensionsLoop (done ++ (extension.1 ++ (extension.2 ++ (rest ++ trailing))))
        (done.length + (extension.1 ++ extension.2 ++ rest).length) done.length =
      extensionsLoop (done ++ (extension.1 ++ (extension.2 ++ (rest ++ trailing))))
        (done.length + (extension.1 ++ extension.2 ++ rest).length)
        (done.length + 4 + extension.2.length)) := by
  obtain ⟨header, data⟩ := extension
  obtain ⟨t, u, l, m, rfl⟩ := four_of_length h.1
  have hlength : beNat [l, m] = data.length := h.2.symm
  have hfour : (([t, u, l, m] : Bytes) ++ data ++ rest).length =
      4 + (data.length + rest.length) := by
    simp only [List.length_append, List.length_cons, List.length_nil]
    omega
  have htype := u16_of_drop (done ++ ([t, u, l, m] ++ (data ++ (rest ++ trailing))))
    (i := done.length) (by rw [List.drop_left]; rfl)
  have hsize := u16_of_drop (done ++ ([t, u, l, m] ++ (data ++ (rest ++ trailing))))
    (i := done.length + 2) (by rw [drop_skip]; rfl)
  have hkeyShare : beNat [t, u] = 0x0033 ↔ [t, u] = [0x00, 0x33] :=
    ⟨fun h => beNat_inj rfl (h.trans (by decide)), fun h => by rw [h]; decide⟩
  simp only at hlength hfour ⊢
  rw [extensionsLoop, dif_pos (by omega), htype, ok_bind, hsize, ok_bind, hlength]
  simp only
  rw [if_neg (by omega)]
  -- the code checks the type and the size of the frame, not the list inside it
  by_cases hlong : beNat [t, u] = 0x0033 ∧ data.length ≥ 4
  · rw [if_pos hlong]
    rcases data with _ | ⟨a, _ | ⟨b, _ | ⟨c, _ | ⟨d, key⟩⟩⟩⟩
    · exact absurd hlong.2 (by decide)
    · exact absurd hlong.2 (by simp)
    · exact absurd hlong.2 (by simp)
    · exact absurd hlong.2 (by simp)
    have hkeyLength := u16_of_drop
      (done ++ ([t, u, l, m] ++ (a :: b :: c :: d :: key ++ (rest ++ trailing))))
      (i := done.length + 4 + 2) (by rw [Nat.add_assoc, drop_skip]; rfl)
    rw [hkeyLength, ok_bind]
    -- a full entry ends the loop; anything shorter or longer is passed over
    by_cases hfull : beNat [c, d] ≠ 0 ∧ beNat [c, d] + 4 = (a :: b :: c :: d :: key).length
    · rw [if_pos hfull]
      refine .inl ⟨key, isKeyShareEntry_iff.mpr ⟨hkeyShare.mp hlong.1, a, b, c, d, rfl, hfull.1, ?_⟩, ?_⟩
      · have hlen := hfull.2
        simp only [List.length_cons] at hlen
        omega
      · rw [@getRange_of_drop _ _ key (rest ++ trailing), okOr_some]
        · simp only [List.length_append, List.length_cons]
          omega
        · rw [Nat.add_assoc, drop_skip]
          rfl
        · simp only [List.length_cons]
          omega
    · rw [if_neg hfull]
      refine .inr ⟨fun key' hentry => hfull ?_, rfl⟩
      obtain ⟨-, a', b', c', d', hdata, hne, hlen⟩ := isKeyShareEntry_iff.mp hentry
      cases hdata
      refine ⟨hne, ?_⟩
      rw [hlen]
      rfl
  · rw [if_neg hlong]
    refine .inr ⟨fun key hentry => hlong ?_, rfl⟩
    obtain ⟨htake, a, b, c, d, hdata, -⟩ := isKeyShareEntry_iff.mp hentry
    cases hdata
    exact ⟨hkeyShare.mpr htake, by simp⟩

/-- A header that announces more than the block holds ends the loop. -/
theorem extensionsLoop_unfinished {done header part trailing : Bytes}
    (hheader : header.length = extensionLayout.header)
    (hpart : part.length < extensionLayout.size header) :
    extensionsLoop (done ++ (header ++ part ++ trailing)) (done.length + (header ++ part).length)
      done.length = fail () := by
  obtain ⟨t, u, l, m, rfl⟩ := four_of_length hheader
  have hlength : part.length < beNat [l, m] := hpart
  have hfour : (([t, u, l, m] : Bytes) ++ part).length = 4 + part.length := by
    simp only [List.length_append, List.length_cons, List.length_nil]
  have htype := u16_of_drop (done ++ ([t, u, l, m] ++ part ++ trailing))
    (i := done.length) (by rw [List.drop_left]; rfl)
  have hsize := u16_of_drop (done ++ ([t, u, l, m] ++ part ++ trailing))
    (i := done.length + 2) (by rw [drop_skip]; rfl)
  rw [extensionsLoop, dif_pos (by omega), htype, ok_bind, hsize, ok_bind]
  exact if_pos (by omega)

theorem firstEntry_short {extensions key : Bytes} (h : extensions.length < extensionLayout.header) :
    ¬ FirstEntry extensions key := by
  intro hfirst
  cases hfirst with
  | here hframed =>
    have hheader := hframed.1
    simp only [List.length_append] at h
    omega
  | later hframed =>
    have hheader := hframed.1
    simp only [List.length_append] at h
    omega

theorem firstEntry_unfinished {header part key : Bytes}
    (hheader : header.length = extensionLayout.header)
    (hpart : part.length < extensionLayout.size header) : ¬ FirstEntry (header ++ part) key := by
  intro hfirst
  generalize hbytes : header ++ part = bytes at hfirst
  cases hfirst with
  | here hframed => exact unfinished_ne_frame hheader hpart hframed hbytes
  | later hframed => exact unfinished_ne_frame hheader hpart hframed hbytes

theorem firstEntry_frame {extension : Frame} {rest key : Bytes}
    (h : Framed extensionLayout extension) :
    FirstEntry (extension.1 ++ extension.2 ++ rest) key ↔ IsKeyShareEntry extension key ∨
      (∀ other, ¬ IsKeyShareEntry extension other) ∧ FirstEntry rest key := by
  constructor
  · intro hfirst
    generalize hbytes : extension.1 ++ extension.2 ++ rest = bytes at hfirst
    cases hfirst with
    | here hframed hentry =>
      obtain ⟨rfl, -⟩ := frame_unique h hframed hbytes
      exact .inl hentry
    | later hframed hother hrest =>
      obtain ⟨rfl, rfl⟩ := frame_unique h hframed hbytes
      exact .inr ⟨hother, hrest⟩
  · rintro (hentry | ⟨hother, hrest⟩)
    · exact .here h hentry
    · exact .later h hother hrest

theorem IsKeyShareEntry.unique {extension : Frame} {key key' : Bytes}
    (h : IsKeyShareEntry extension key) (h' : IsKeyShareEntry extension key') : key' = key := by
  obtain ⟨-, _, _, _, _, hdata, -⟩ := isKeyShareEntry_iff.mp h
  obtain ⟨-, _, _, _, _, hdata', -⟩ := isKeyShareEntry_iff.mp h'
  rw [hdata] at hdata'
  cases hdata'
  rfl

/-- **The loop finds the first full entry** of the block, wherever the block stands. -/
theorem extensionsLoop_finds {done extensions trailing : Bytes} :
    Finds (extensionsLoop (done ++ (extensions ++ trailing)) (done.length + extensions.length)
      done.length) (FirstEntry extensions) := by
  induction hn : extensions.length using Nat.strongRecOn generalizing done extensions with
  | ind n ih =>
    subst hn
    rcases frameCases extensionLayout extensions with hshort | ⟨header, part, hheader, hpart, rfl⟩ |
      ⟨extension, rest, hframe, rfl⟩
    · have hfour : extensions.length < 4 := hshort
      rw [extensionsLoop, dif_neg (by omega)]
      exact finds_fail fun key => firstEntry_short hshort
    · rw [extensionsLoop_unfinished hheader hpart]
      exact finds_fail fun key => firstEntry_unfinished hheader hpart
    · have hheader : extension.1.length = 4 := hframe.1
      rcases extensionsLoop_turn done rest trailing hframe with
        ⟨key, hentry, hturn⟩ | ⟨hother, hturn⟩
      · simp only [← List.append_assoc] at hturn ⊢
        rw [hturn]
        refine finds_ok fun other => ?_
        rw [firstEntry_frame hframe]
        constructor
        · rintro (h | ⟨h, -⟩)
          · exact hentry.unique h
          · exact absurd hentry (h key)
        · rintro rfl
          exact .inl hentry
      · have hless : rest.length < (extension.1 ++ extension.2 ++ rest).length := by
          simp only [List.length_append]
          omega
        have hrest := @ih _ hless (done ++ (extension.1 ++ extension.2)) _ rfl
        have hend : (done ++ (extension.1 ++ extension.2)).length + rest.length =
            done.length + (extension.1 ++ extension.2 ++ rest).length := by
          simp only [List.length_append]
          omega
        have hstart : (done ++ (extension.1 ++ extension.2)).length =
            done.length + 4 + extension.2.length := by
          simp only [List.length_append]
          omega
        rw [hend, hstart] at hrest
        simp only [← List.append_assoc] at hturn hrest ⊢
        rw [hturn]
        refine hrest.congr fun key => ?_
        rw [firstEntry_frame hframe]
        constructor
        · exact fun h => .inr ⟨hother, h⟩
        · rintro (h | ⟨-, h⟩)
          · exact absurd h (hother key)
          · exact h

/-! ## Messages -/

/-- The two lengths of a ServerHello as its bytes spell them. -/
theorem carriesKey_iff {serverHello key : Bytes} : CarriesKey serverHello key ↔
    ∃ front s sessionId suite high low extensions trailing, front.length = 34 ∧
      s.toNat = sessionId.length ∧ suite.length = 3 ∧ beNat [high, low] = extensions.length ∧
      serverHello =
        front ++ (s :: (sessionId ++ (suite ++ (high :: low :: (extensions ++ trailing))))) ∧
      FirstEntry extensions key := by
  constructor
  · rintro ⟨front, sessionId, suite, extensions, trailing, hfront, hsession, hsuite, hextensions, rfl,
      hfirst⟩
    obtain ⟨s, hs⟩ := List.length_eq_one_iff.mp (length_beBytes 1 sessionId.length)
    obtain ⟨high, low, hlow⟩ := List.length_eq_two.mp (length_beBytes 2 extensions.length)
    refine ⟨front, s, sessionId, suite, high, low, extensions, trailing, hfront, ?_, hsuite, ?_, ?_,
      hfirst⟩
    · have hvalue := beNat_beBytes (k := 1) hsession
      rw [hs] at hvalue
      rw [← hvalue]
      simp only [beNat, List.foldl_cons, List.foldl_nil]
      omega
    · rw [← hlow, beNat_beBytes hextensions]
    · rw [prefixed, prefixed, hs, hlow]
      simp only [List.cons_append, List.nil_append]
  · rintro ⟨front, s, sessionId, suite, high, low, extensions, trailing, hfront, hs, hsuite, hlow, rfl,
      hfirst⟩
    have hone : beBytes 1 sessionId.length = [s] := by
      have hvalue : sessionId.length = beNat [s] := by
        rw [← hs]
        simp only [beNat, List.foldl_cons, List.foldl_nil]
        omega
      rw [hvalue, beBytes_beNat (k := 1) rfl]
    have htwo : beBytes 2 extensions.length = [high, low] := by
      rw [← hlow, beBytes_beNat (k := 2) rfl]
    refine ⟨front, sessionId, suite, extensions, trailing, hfront, hs ▸ s.toNat_lt, hsuite,
      hlow ▸ beNat_two_lt high low, ?_, hfirst⟩
    rw [prefixed, prefixed, hone, htwo]
    simp only [List.cons_append, List.nil_append]

/-- Behind the fixed fields. -/
theorem carriesKey_front {front rest key : Bytes} {s : UInt8} (hfront : front.length = 34) :
    CarriesKey (front ++ s :: rest) key ↔ ∃ sessionId suite high low extensions trailing,
      s.toNat = sessionId.length ∧ suite.length = 3 ∧ beNat [high, low] = extensions.length ∧
      rest = sessionId ++ (suite ++ (high :: low :: (extensions ++ trailing))) ∧
      FirstEntry extensions key := by
  rw [carriesKey_iff]
  constructor
  · rintro ⟨front', s', sessionId, suite, high, low, extensions, trailing, hfront', hs, hsuite, hlow,
      hsame, hfirst⟩
    obtain ⟨rfl, htail⟩ := List.append_inj hsame (hfront.trans hfront'.symm)
    cases htail
    exact ⟨sessionId, suite, high, low, extensions, trailing, hs, hsuite, hlow, rfl, hfirst⟩
  · rintro ⟨sessionId, suite, high, low, extensions, trailing, hs, hsuite, hlow, rfl, hfirst⟩
    exact ⟨front, s, sessionId, suite, high, low, extensions, trailing, hfront, hs, hsuite, hlow, rfl,
      hfirst⟩

/-- Behind the length of the extension block. -/
theorem carriesKey_block {front sessionId suite body key : Bytes} {s high low : UInt8}
    (hfront : front.length = 34) (hsession : sessionId.length = s.toNat) (hsuite : suite.length = 3) :
    CarriesKey (front ++ s :: (sessionId ++ (suite ++ high :: low :: body))) key ↔
      ∃ extensions trailing, beNat [high, low] = extensions.length ∧
        body = extensions ++ trailing ∧ FirstEntry extensions key := by
  rw [carriesKey_front hfront]
  constructor
  · rintro ⟨sessionId', suite', high', low', extensions, trailing, hs, hsuite', hlow, hsame, hfirst⟩
    obtain ⟨rfl, htail⟩ := List.append_inj hsame (hsession.trans hs)
    obtain ⟨rfl, hblock⟩ := List.append_inj htail (hsuite.trans hsuite'.symm)
    cases hblock
    exact ⟨extensions, trailing, hlow, rfl, hfirst⟩
  · rintro ⟨extensions, trailing, hlow, rfl, hfirst⟩
    exact ⟨sessionId, suite, high, low, extensions, trailing, hsession.symm, hsuite, hlow, rfl,
      hfirst⟩

/-- **The parser of a ServerHello finds its key.** -/
theorem parseServerHelloKeyShare_finds (serverHello : Bytes) :
    Finds (parseServerHelloKeyShare serverHello) (CarriesKey serverHello) := by
  -- at each cut the parser stops, and a message that carries a key would be longer
  rcases Nat.lt_or_ge serverHello.length 35 with hshort | hlong
  · have hnone : serverHello[34]? = none := List.getElem?_eq_none (by omega)
    rw [parseServerHelloKeyShare, hnone]
    refine finds_fail fun key hcarries => ?_
    obtain ⟨front, s, sessionId, suite, high, low, extensions, trailing, hfront, -, -, -, rfl, -⟩ :=
      carriesKey_iff.mp hcarries
    simp only [List.length_append, List.length_cons] at hshort
    omega
  obtain ⟨front, tail, hfront, rfl⟩ := LittleEndian.cut_bytes serverHello 34 (by omega)
  rcases tail with _ | ⟨s, rest⟩
  · rw [List.append_nil] at hlong
    omega
  have hs : (front ++ s :: rest)[34]? = some s :=
    @getElem?_of_drop _ _ rest _ _ (by rw [← hfront, List.drop_left])
  rw [parseServerHelloKeyShare, hs, okOr_some, ok_bind]
  simp only
  rcases Nat.lt_or_ge rest.length (s.toNat + 5) with hcut | hwhole
  · -- the length of the block is not there
    have hlast : (front ++ s :: rest)[35 + s.toNat + 3 + 1]? = none :=
      List.getElem?_eq_none (by simp only [List.length_append, List.length_cons]; omega)
    have hfail : ∀ key, ¬ CarriesKey (front ++ s :: rest) key := by
      intro key hcarries
      obtain ⟨sessionId, suite, high, low, extensions, trailing, hs, hsuite, -, rfl, -⟩ :=
        (carriesKey_front hfront).mp hcarries
      simp only [List.length_append, List.length_cons] at hcut
      omega
    rw [hlast]
    cases (front ++ s :: rest)[35 + s.toNat + 3]? with
    | none => exact finds_fail hfail
    | some high => exact finds_fail hfail
  obtain ⟨sessionId, rest, hsession, rfl⟩ := LittleEndian.cut_bytes rest s.toNat (by omega)
  rw [List.length_append] at hwhole
  obtain ⟨suite, rest, hsuite, rfl⟩ := LittleEndian.cut_bytes rest 3 (by omega)
  rw [List.length_append] at hwhole
  rcases rest with _ | ⟨high, _ | ⟨low, body⟩⟩
  · rw [List.length_nil] at hwhole
    omega
  · rw [List.length_singleton] at hwhole
    omega
  have hsplit : front ++ s :: (sessionId ++ (suite ++ high :: low :: body)) =
      (front ++ s :: (sessionId ++ suite)) ++ high :: low :: body := by
    simp only [List.append_assoc, List.cons_append]
  have hstart : (front ++ s :: (sessionId ++ suite)).length = 35 + s.toNat + 3 := by
    simp only [List.length_append, List.length_cons]
    omega
  have hhigh : (front ++ s :: (sessionId ++ (suite ++ high :: low :: body)))[35 + s.toNat + 3]? =
      some high :=
    @getElem?_of_drop _ _ (low :: body) _ _ (by rw [hsplit, ← hstart, List.drop_left])
  have hlow : (front ++ s :: (sessionId ++ (suite ++ high :: low :: body)))[35 + s.toNat + 3 + 1]? =
      some low :=
    @getElem?_of_drop _ _ body _ _ (by rw [hsplit, ← hstart, drop_skip]; rfl)
  rw [hhigh, okOr_some, ok_bind, hlow, okOr_some, ok_bind]
  rcases Nat.lt_or_ge body.length (beNat [high, low]) with hcut | hwhole
  -- the block is announced longer than what is left
  · rw [if_pos (by simp only [List.length_append, List.length_cons]; omega)]
    refine finds_fail fun key hcarries => ?_
    obtain ⟨extensions, trailing, hlen, rfl, -⟩ :=
      (carriesKey_block hfront hsession hsuite).mp hcarries
    rw [List.length_append] at hcut
    omega
  -- the block is there, and its loop is the scan of the extensions
  · obtain ⟨extensions, trailing, hlen, rfl⟩ := LittleEndian.cut_bytes body _ hwhole
    rw [if_neg (by simp only [List.length_append, List.length_cons]; omega)]
    have hdone : (front ++ s :: (sessionId ++ (suite ++ [high, low]))).length =
        35 + s.toNat + 3 + 2 := by
      simp only [List.length_append, List.length_cons, List.length_nil]
      omega
    have hfinds := @extensionsLoop_finds (front ++ s :: (sessionId ++ (suite ++ [high, low])))
      extensions trailing
    rw [hdone, hlen] at hfinds
    simp only [List.append_assoc, List.cons_append, List.nil_append] at hfinds
    refine hfinds.congr fun key => ?_
    rw [carriesKey_block hfront hsession hsuite]
    constructor
    · exact fun hfirst => ⟨extensions, trailing, hlen.symm, rfl, hfirst⟩
    · rintro ⟨extensions', trailing', hlen', hsame, hfirst⟩
      obtain ⟨rfl, -⟩ := List.append_inj hsame (hlen.trans hlen')
      exact hfirst

theorem optional_eq {α : Type} {x : Parsed α} (h : x ≠ .error .panic) :
    optional x = .ok x.toOption := by
  rcases x with (_ | ⟨⟨⟩⟩) | a
  · exact absurd rfl h
  · rfl
  · rfl

/-- The key a message carries. -/
def messageKey (message : Frame) : Option Bytes :=
  if message.1.head? = some serverHelloType then (parseServerHelloKeyShare message.2).toOption
  else none

/-- The key that is kept after messages. -/
def latest (keyShare : Option Bytes) (messages : List Frame) : Option Bytes :=
  messages.foldl (fun keyShare message => (messageKey message).or keyShare) keyShare

theorem latest_cons (keyShare : Option Bytes) (message : Frame) (messages : List Frame) :
    latest keyShare (message :: messages) = latest ((messageKey message).or keyShare) messages := rfl

theorem messageKey_eq_some {message : Frame} {key : Bytes} :
    messageKey message = some key ↔ IsKeyMessage message key := by
  have hfinds := (parseServerHelloKeyShare_finds message.2).ok_iff key
  rw [messageKey, IsKeyMessage, ← hfinds, Option.ite_none_right_eq_some]
  refine and_congr_right fun _ => ?_
  cases parseServerHelloKeyShare message.2 <;> simp [Except.toOption]

theorem messageKey_eq_none {message : Frame} :
    messageKey message = none ↔ ∀ key, ¬ IsKeyMessage message key := by
  simp only [Option.eq_none_iff_forall_ne_some, ne_eq, messageKey_eq_some]

theorem not_lastKey_nil (key : Bytes) : ¬ LastKey [] key := by
  rintro ⟨before, serverHello, after, hnil, -⟩
  exact List.append_ne_nil_of_right_ne_nil before (List.cons_ne_nil _ _) hnil.symm

/-- A message at the end: it carries the last key, or none. -/
theorem lastKey_concat {messages : List Frame} {message : Frame} {key : Bytes} :
    LastKey (messages ++ [message]) key ↔ IsKeyMessage message key ∨
      (∀ other, ¬ IsKeyMessage message other) ∧ LastKey messages key := by
  constructor
  · rintro ⟨before, serverHello, after, hsame, hserverHello, hafter⟩
    rcases List.eq_nil_or_concat after with rfl | ⟨more, last, rfl⟩
    · obtain ⟨-, hlast⟩ := List.append_inj' hsame rfl
      cases hlast
      exact .inl hserverHello
    · rw [List.concat_eq_append, ← List.cons_append, ← List.append_assoc] at hsame
      obtain ⟨rfl, hlast⟩ := List.append_inj' hsame rfl
      cases hlast
      exact .inr ⟨hafter message (by simp), before, serverHello, more, rfl, hserverHello,
        fun m hm => hafter m (by simp [hm])⟩
  · rintro (hmessage | ⟨hnone, before, serverHello, after, rfl, hserverHello, hafter⟩)
    · exact ⟨messages, message, [], rfl, hmessage, fun _ hmem => absurd hmem List.not_mem_nil⟩
    · refine ⟨before, serverHello, after ++ [message], ?_, hserverHello, ?_⟩
      · rw [List.append_assoc, List.cons_append]
      · intro other hmem
        rcases List.mem_append.mp hmem with hmem | hmem
        · exact hafter other hmem
        · rw [List.mem_singleton.mp hmem]
          exact hnone

/-- What is kept is the key of the last message that has one. -/
theorem latest_eq_some {messages : List Frame} {key : Bytes} :
    latest none messages = some key ↔ LastKey messages key := by
  induction messages using List.reverseRecOn with
  | nil => exact iff_of_false (by simp [latest]) (not_lastKey_nil key)
  | append_singleton messages message ih =>
    have hlast : latest none (messages ++ [message]) =
        (messageKey message).or (latest none messages) := by
      rw [latest, List.foldl_append]
      rfl
    rw [hlast, lastKey_concat, ← ih, ← messageKey_eq_some, ← messageKey_eq_none]
    cases messageKey message <;> simp

/-- One turn of the message loop, from the header on. -/
theorem keyShareLoop_turn {done tail : Bytes} {t a b c : UInt8} {keyShare : Option Bytes} :
    keyShareLoop (done ++ ([t, a, b, c] ++ tail)) done.length keyShare =
      if tail.length < beNat [a, b, c] then fail ()
      else if t = serverHelloType then do
        let serverHello ← slice (done ++ ([t, a, b, c] ++ tail)) (done.length + 4)
          (done.length + (4 + beNat [a, b, c]))
        let found ← optional (parseServerHelloKeyShare serverHello)
        keyShareLoop (done ++ ([t, a, b, c] ++ tail)) (done.length + (4 + beNat [a, b, c]))
          (found.or keyShare)
      else
        keyShareLoop (done ++ ([t, a, b, c] ++ tail)) (done.length + (4 + beNat [a, b, c]))
          keyShare := by
  have htype := index_of_drop (ε := Unit) (done ++ ([t, a, b, c] ++ tail))
    (i := done.length) (by rw [List.drop_left]; rfl)
  have hhigh := index_of_drop (ε := Unit) (done ++ ([t, a, b, c] ++ tail))
    (i := done.length + 1) (by rw [drop_skip]; rfl)
  have hmiddle := index_of_drop (ε := Unit) (done ++ ([t, a, b, c] ++ tail))
    (i := done.length + 2) (by rw [drop_skip]; rfl)
  have hlow := index_of_drop (ε := Unit) (done ++ ([t, a, b, c] ++ tail))
    (i := done.length + 3) (by rw [drop_skip]; rfl)
  have hall : (done ++ ([t, a, b, c] ++ tail)).length = done.length + (4 + tail.length) := by
    simp only [List.length_append, List.length_cons, List.length_nil]
  rw [keyShareLoop, dif_pos (by omega), htype, ok_bind, hhigh, ok_bind, hmiddle, ok_bind, hlow,
    ok_bind, shift_or_three]
  by_cases hcut : tail.length < beNat [a, b, c]
  · rw [if_pos hcut]
    exact if_pos (by omega)
  · rw [if_neg hcut]
    exact if_neg (by omega)

/-- The message loop goes through the messages. -/
theorem keyShareLoop_eq {done todo : Bytes} {keyShare : Option Bytes} :
    keyShareLoop (done ++ todo) done.length keyShare =
      okOr ((cut messageLayout todo).map fun messages => latest keyShare messages.1) (.err ()) := by
  induction hn : todo.length using Nat.strongRecOn generalizing done todo keyShare with
  | ind n ih =>
    subst hn
    rcases frameCases messageLayout todo with hshort | ⟨header, part, hheader, hpart, rfl⟩ |
      ⟨⟨header, body⟩, rest, hframe, rfl⟩
    · have hfour : todo.length < 4 := hshort
      rw [keyShareLoop, dif_neg (by rw [List.length_append]; omega), cut_short hshort]
      rfl
    · rw [cut_unfinished hheader hpart]
      obtain ⟨t, a, b, c, rfl⟩ := four_of_length hheader
      rw [keyShareLoop_turn]
      exact if_pos hpart
    · rw [cut_frame hframe, Option.map_map]
      obtain ⟨t, a, b, c, rfl⟩ := four_of_length hframe.1
      have hlength : beNat [a, b, c] = body.length := hframe.2.symm
      have hsplit : done ++ ([t, a, b, c] ++ body ++ rest) =
          done ++ ([t, a, b, c] ++ (body ++ rest)) := by rw [List.append_assoc]
      have hnext : done ++ ([t, a, b, c] ++ (body ++ rest)) = done ++ [t, a, b, c] ++ body ++ rest := by
        simp only [List.append_assoc]
      have hoffset : done.length + (4 + body.length) = (done ++ [t, a, b, c] ++ body).length := by
        simp only [List.length_append, List.length_cons, List.length_nil]
        omega
      have hless : rest.length < ([t, a, b, c] ++ body ++ rest : Bytes).length := by
        simp only [List.length_append, List.length_cons]
        omega
      have hslice : slice (done ++ ([t, a, b, c] ++ (body ++ rest))) (done.length + 4)
          (done.length + (4 + body.length)) = (.ok body : Parsed Bytes) :=
        slice_of_drop (by simp only [List.length_append, List.length_cons]; omega)
          (by rw [drop_skip]; rfl) (by omega)
      rw [hsplit, keyShareLoop_turn, if_neg (by rw [hlength, List.length_append]; omega), hlength]
      by_cases htype : t = serverHelloType
      · rw [if_pos htype, hslice, ok_bind,
          optional_eq (parseServerHelloKeyShare_finds body).no_panic, ok_bind, hnext, hoffset,
          ih _ hless rfl]
        have hkey : messageKey ([t, a, b, c], body) = (parseServerHelloKeyShare body).toOption :=
          if_pos (by rw [htype]; rfl)
        rw [← hkey]
        rfl
      · have hkey : messageKey ([t, a, b, c], body) = none :=
          if_neg fun h => htype (Option.some.inj h)
        rw [if_neg htype, hnext, hoffset, ih _ hless rfl]
        simp only [Function.comp_def, latest_cons, hkey, Option.none_or]

/-! ## Records -/

/-- One turn of the record loop, from the header on. -/
theorem handshakeLoop_turn {done tail handshake : Bytes} {t u v l m : UInt8} :
    handshakeLoop (done ++ ([t, u, v, l, m] ++ tail)) done.length handshake =
      if tail.length < beNat [l, m] then fail ()
      else if t = handshakeType then do
        let fragment ← slice (done ++ ([t, u, v, l, m] ++ tail)) (done.length + 5)
          (done.length + (5 + beNat [l, m]))
        handshakeLoop (done ++ ([t, u, v, l, m] ++ tail)) (done.length + (5 + beNat [l, m]))
          (handshake ++ fragment)
      else
        handshakeLoop (done ++ ([t, u, v, l, m] ++ tail)) (done.length + (5 + beNat [l, m]))
          handshake := by
  have htype := index_of_drop (ε := Unit) (done ++ ([t, u, v, l, m] ++ tail))
    (i := done.length) (by rw [List.drop_left]; rfl)
  have hlength := u16_of_drop (done ++ ([t, u, v, l, m] ++ tail))
    (i := done.length + 3) (by rw [drop_skip]; rfl)
  have hall : (done ++ ([t, u, v, l, m] ++ tail)).length = done.length + (5 + tail.length) := by
    simp only [List.length_append, List.length_cons, List.length_nil]
  rw [handshakeLoop, dif_pos (by omega), htype, ok_bind, hlength, ok_bind]
  by_cases hcut : tail.length < beNat [l, m]
  · rw [if_pos hcut]
    exact if_pos (by omega)
  · rw [if_neg hcut]
    exact if_neg (by omega)

theorem five_of_length {header : Bytes} (h : header.length = 5) :
    ∃ a b c d e, header = [a, b, c, d, e] := by
  obtain ⟨front, last, hfront, rfl⟩ := LittleEndian.cut_bytes header 4 (by omega)
  obtain ⟨a, b, c, d, rfl⟩ := four_of_length hfront
  rw [List.length_append, hfront] at h
  obtain ⟨e, rfl⟩ := List.length_eq_one_iff.mp (Nat.add_left_cancel h)
  exact ⟨a, b, c, d, e, rfl⟩

theorem handshakeBytes_cons (record : Frame) (records : List Frame) :
    handshakeBytes (record :: records) =
      (if record.1.head? = some handshakeType then record.2 else []) ++ handshakeBytes records := by
  rw [handshakeBytes, List.filter_cons]
  by_cases h : record.1.head? = some handshakeType
  · rw [if_pos (decide_eq_true h), if_pos h]
    rfl
  · rw [if_neg (by simpa using h), if_neg h]
    rfl

/-- The record loop joins the handshake fragments. -/
theorem handshakeLoop_eq {done todo handshake : Bytes} :
    handshakeLoop (done ++ todo) done.length handshake =
      okOr ((cut recordLayout todo).map fun records => handshake ++ handshakeBytes records.1)
        (.err ()) := by
  induction hn : todo.length using Nat.strongRecOn generalizing done todo handshake with
  | ind n ih =>
    subst hn
    rcases frameCases recordLayout todo with hshort | ⟨header, part, hheader, hpart, rfl⟩ |
      ⟨⟨header, fragment⟩, rest, hframe, rfl⟩
    · have hfive : todo.length < 5 := hshort
      rw [handshakeLoop, dif_neg (by rw [List.length_append]; omega), cut_short hshort,
        Option.map_some, handshakeBytes, List.filter_nil, List.flatMap_nil, List.append_nil]
      rfl
    · rw [cut_unfinished hheader hpart]
      obtain ⟨t, u, v, l, m, rfl⟩ := five_of_length hheader
      rw [handshakeLoop_turn]
      exact if_pos hpart
    · rw [cut_frame hframe, Option.map_map]
      obtain ⟨t, u, v, l, m, rfl⟩ := five_of_length hframe.1
      have hlength : beNat [l, m] = fragment.length := hframe.2.symm
      have hsplit : done ++ ([t, u, v, l, m] ++ fragment ++ rest) =
          done ++ ([t, u, v, l, m] ++ (fragment ++ rest)) := by rw [List.append_assoc]
      have hnext : done ++ ([t, u, v, l, m] ++ (fragment ++ rest)) =
          done ++ [t, u, v, l, m] ++ fragment ++ rest := by
        simp only [List.append_assoc]
      have hoffset : done.length + (5 + fragment.length) =
          (done ++ [t, u, v, l, m] ++ fragment).length := by
        simp only [List.length_append, List.length_cons, List.length_nil]
        omega
      have hless : rest.length < ([t, u, v, l, m] ++ fragment ++ rest : Bytes).length := by
        simp only [List.length_append, List.length_cons]
        omega
      have hslice : slice (done ++ ([t, u, v, l, m] ++ (fragment ++ rest))) (done.length + 5)
          (done.length + (5 + fragment.length)) = (.ok fragment : Parsed Bytes) :=
        slice_of_drop (by simp only [List.length_append, List.length_cons]; omega)
          (by rw [drop_skip]; rfl) (by omega)
      rw [hsplit, handshakeLoop_turn, if_neg (by rw [hlength, List.length_append]; omega), hlength]
      by_cases htype : t = handshakeType
      · have hhead : ([t, u, v, l, m] : Bytes).head? = some handshakeType := by
          rw [htype]
          rfl
        rw [if_pos htype, hslice, ok_bind, hnext, hoffset, ih _ hless rfl]
        simp only [Function.comp_def, handshakeBytes_cons, hhead, if_true, List.append_assoc]
      · have hhead : ([t, u, v, l, m] : Bytes).head? ≠ some handshakeType :=
          fun h => htype (Option.some.inj h)
        rw [if_neg htype, hnext, hoffset, ih _ hless rfl]
        simp only [Function.comp_def, handshakeBytes_cons, hhead, if_false, List.nil_append]

/-- **The result is read off the frames**: the records, then the messages in them, then the keys. -/
theorem parseServerKeyShare_eq (records : Bytes) :
    parseServerKeyShare records = okOr ((cut recordLayout records).bind fun records =>
      (cut messageLayout (handshakeBytes records.1)).bind fun messages =>
        latest none messages.1) (.err ()) := by
  have hrecords := @handshakeLoop_eq [] records []
  rw [parseServerKeyShare]
  rw [List.nil_append, List.length_nil] at hrecords
  rw [hrecords]
  cases cut recordLayout records with
  | none => rfl
  | some records =>
    have hmessages := @keyShareLoop_eq [] (handshakeBytes records.1) none
    rw [List.nil_append, List.length_nil] at hmessages
    rw [Option.map_some, okOr_some, ok_bind, List.nil_append, hmessages, Option.bind_some]
    cases cut messageLayout (handshakeBytes records.1) with
    | none => rfl
    | some messages => rfl

theorem parseServerKeyShare_no_panic (records : Bytes) :
    parseServerKeyShare records ≠ .error .panic := by
  rw [parseServerKeyShare_eq]
  cases (cut recordLayout records).bind fun records =>
    (cut messageLayout (handshakeBytes records.1)).bind fun messages => latest none messages.1 with
  | none => simp [okOr]
  | some key => simp [okOr]

/-- Complete records: their handshake bytes decide. -/
theorem parseServerKeyShare_records {records : List Frame} {tail : Bytes}
    (h : ∀ record ∈ records, Framed recordLayout record) (htail : tail.length < 5) :
    parseServerKeyShare (flatten records ++ tail) =
      okOr ((cut messageLayout (handshakeBytes records)).bind fun messages =>
        latest none messages.1) (.err ()) := by
  rw [parseServerKeyShare_eq, cut_flatten_short h htail, Option.bind_some]

/-- A record that is not whole: nothing is returned. -/
theorem parseServerKeyShare_unfinished {records : List Frame} {header part : Bytes}
    (h : ∀ record ∈ records, Framed recordLayout record) (hheader : header.length = 5)
    (hpart : part.length < recordLayout.size header) :
    parseServerKeyShare (flatten records ++ (header ++ part)) = fail () := by
  rw [parseServerKeyShare_eq, cut_flatten_unfinished h hheader hpart, Option.bind_none]
  rfl

/-! ## What the result depends on -/

/-- What the recorder holds: complete records, and a strict prefix of a further one. -/
structure Recorded where
  records : List Frame
  framed : ∀ record ∈ records, Framed recordLayout record
  tail : Bytes
  further : ∃ record missing, Framed recordLayout record ∧ missing ≠ [] ∧
    record.1 ++ record.2 = tail ++ missing

/-- The complete records carry a key: whole messages, one of them a ServerHello with a key, and at
most the beginning of another header. -/
def Recorded.HasKey (recorded : Recorded) : Prop :=
  ∃ messages rest, (∀ message ∈ messages, Framed messageLayout message) ∧ rest.length < 4 ∧
    handshakeBytes recorded.records = flatten messages ++ rest ∧
    ∃ message ∈ messages, ∃ key, IsKeyMessage message key

/-- The result is a function of the handshake content received in complete records. -/
structure DependsOnContent (recorded : Recorded) : Prop where
  /-- What is there of a further record does not matter. -/
  tail : parseServerKeyShare (flatten recorded.records ++ recorded.tail) =
    parseServerKeyShare (flatten recorded.records)
  /-- How the handshake bytes are split into records does not matter. -/
  regrouped : ∀ records, (∀ record ∈ records, Framed recordLayout record) →
    handshakeBytes records = handshakeBytes recorded.records →
    parseServerKeyShare (flatten records) = parseServerKeyShare (flatten recorded.records)
  /-- On whole messages it is the key of the last ServerHello that carries one. -/
  last : ∀ messages, (∀ message ∈ messages, Framed messageLayout message) →
    handshakeBytes recorded.records = flatten messages → ∀ key,
      parseServerKeyShare (flatten recorded.records) = .ok key ↔ LastKey messages key
  no_panic : ∀ bytes, parseServerKeyShare bytes ≠ .error .panic

/-- There is a last one when there is one. -/
theorem exists_lastKey {messages : List Frame} :
    (∃ key, LastKey messages key) ↔ ∃ message ∈ messages, ∃ key, IsKeyMessage message key := by
  induction messages using List.reverseRecOn with
  | nil => simp [not_lastKey_nil]
  | append_singleton messages message ih =>
    simp only [lastKey_concat, exists_or, exists_and_left, ih, List.mem_append, List.mem_singleton,
      or_and_right, exists_eq_left]
    by_cases hmessage : ∃ key, IsKeyMessage message key
    · simp [hmessage]
    · simp [not_exists.mp hmessage]

/-- The complete records alone. -/
theorem Recorded.parse_records (recorded : Recorded) :
    parseServerKeyShare (flatten recorded.records) =
      okOr ((cut messageLayout (handshakeBytes recorded.records)).bind fun messages =>
        latest none messages.1) (.err ()) := by
  have h := @parseServerKeyShare_records _ [] recorded.framed (by decide)
  rwa [List.append_nil] at h

theorem Recorded.hasKey_iff (recorded : Recorded) :
    recorded.HasKey ↔ ∃ key, parseServerKeyShare (flatten recorded.records) = .ok key := by
  simp only [recorded.parse_records, okOr_eq_ok, Option.bind_eq_some_iff, latest_eq_some]
  constructor
  · rintro ⟨messages, rest, hframed, hrest, hbytes, hsome⟩
    obtain ⟨key, hkey⟩ := exists_lastKey.mpr hsome
    exact ⟨key, (messages, rest), cut_eq_some.mpr ⟨hbytes, hframed, hrest⟩, hkey⟩
  · rintro ⟨key, ⟨messages, rest⟩, hcut, hkey⟩
    obtain ⟨hbytes, hframed, hrest⟩ := cut_eq_some.mp hcut
    exact ⟨messages, rest, hframed, hrest, hbytes, exists_lastKey.mp ⟨key, hkey⟩⟩

/-- Five bytes of a further record lose the key. -/
theorem Recorded.parse_tail (recorded : Recorded) (h : 5 ≤ recorded.tail.length) :
    parseServerKeyShare (flatten recorded.records ++ recorded.tail) = fail () := by
  obtain ⟨⟨header, fragment⟩, missing, hframe, hmissing, hsame⟩ := recorded.further
  obtain ⟨front, part, hfront, htail⟩ := LittleEndian.cut_bytes recorded.tail 5 h
  rw [htail, List.append_assoc] at hsame
  obtain ⟨rfl, rfl⟩ := List.append_inj hsame (hframe.1.trans hfront.symm)
  rw [htail]
  refine parseServerKeyShare_unfinished recorded.framed hfront ?_
  have hlen : (part ++ missing).length = recordLayout.size header := hframe.2
  have hpos := List.length_pos_iff.mpr hmissing
  rw [List.length_append] at hlen
  show part.length < recordLayout.size header
  omega

/-- Nothing is returned when there is no key. -/
theorem Recorded.parse_none (recorded : Recorded) (h : ¬ recorded.HasKey) :
    parseServerKeyShare (flatten recorded.records) = fail () := by
  rw [recorded.hasKey_iff, recorded.parse_records] at h
  rw [recorded.parse_records]
  cases hkey : (cut messageLayout (handshakeBytes recorded.records)).bind fun messages =>
    latest none messages.1 with
  | none => rfl
  | some key =>
    rw [hkey] at h
    exact absurd ⟨key, rfl⟩ h

/-- **The result depends on the complete records only, unless a key is lost to a further record.** -/
theorem parseServerKeyShare_iff (recorded : Recorded) :
    DependsOnContent recorded ↔ recorded.tail.length < 5 ∨ ¬ recorded.HasKey := by
  constructor
  · intro h
    by_contra hneither
    obtain ⟨hlong, hkey⟩ := not_or.mp hneither
    obtain ⟨key, hkey⟩ := recorded.hasKey_iff.mp (not_not.mp hkey)
    have htail := h.tail
    rw [recorded.parse_tail (Nat.not_lt.mp hlong), hkey] at htail
    cases htail
  · intro h
    refine ⟨?_, ?_, ?_, parseServerKeyShare_no_panic⟩
    · rcases Nat.lt_or_ge recorded.tail.length 5 with hshort | hlong
      · rw [parseServerKeyShare_records recorded.framed hshort, recorded.parse_records]
      · have hnone := h.resolve_left (Nat.not_lt.mpr hlong)
        rw [recorded.parse_tail hlong, recorded.parse_none hnone]
    · intro records hframed hsame
      have hrecords := @parseServerKeyShare_records _ [] hframed (by decide)
      rw [List.append_nil] at hrecords
      rw [hrecords, hsame, recorded.parse_records]
    · intro messages hframed hbytes key
      have hcut := @cut_flatten_short messageLayout _ [] hframed (by decide)
      rw [List.append_nil] at hcut
      rw [recorded.parse_records, hbytes, hcut, Option.bind_some, okOr_eq_ok, latest_eq_some]

/-! ## A key that is lost -/

/-- A ServerHello with an X25519 key of two bytes. -/
def helloBody : Bytes :=
  [0x03, 0x03] ++ List.replicate 32 0 ++ [0] ++ [0x13, 0x01] ++ [0] ++ [0, 10] ++
    [0, 0x33, 0, 6, 0, 0x1d, 0, 2, 0xaa, 0xbb]

def helloMessage : Frame := ([2, 0, 0, 50], helloBody)

def helloRecord : Frame := ([22, 3, 3, 0, 54], helloMessage.1 ++ helloMessage.2)

theorem framed_helloRecord : ∀ record ∈ [helloRecord], Framed recordLayout record := by
  intro record hmem
  rw [List.mem_singleton.mp hmem]
  exact ⟨by decide, by decide⟩

theorem further_record : ∃ record missing, Framed recordLayout record ∧ missing ≠ [] ∧
    record.1 ++ record.2 = ([23, 3, 3, 0, 1] : Bytes) ++ missing :=
  ⟨([23, 3, 3, 0, 1], [0]), [0], ⟨by decide, by decide⟩, by decide, by decide⟩

/-- The record of the ServerHello, and the header of the first encrypted record. -/
def helloAndHeader : Recorded where
  records := [helloRecord]
  framed := framed_helloRecord
  tail := [23, 3, 3, 0, 1]
  further := further_record

theorem helloMessage_carriesKey : IsKeyMessage helloMessage [0xaa, 0xbb] := by
  have hentry : IsKeyShareEntry ([0, 0x33, 0, 6], [0, 0x1d, 0, 2, 0xaa, 0xbb]) [0xaa, 0xbb] :=
    ⟨by decide, by decide, by decide, [0, 0x1d], by decide, by decide⟩
  have hframed : Framed extensionLayout ([0, 0x33, 0, 6], [0, 0x1d, 0, 2, 0xaa, 0xbb]) :=
    ⟨by decide, by decide⟩
  exact ⟨rfl, [0x03, 0x03] ++ List.replicate 32 0, [], [0x13, 0x01, 0], _, [], by decide, by decide,
    by decide, by decide, by decide, @FirstEntry.here _ _ [] hframed hentry⟩

theorem helloAndHeader_hasKey : helloAndHeader.HasKey := by
  refine ⟨[helloMessage], [], ?_, by decide, by decide, helloMessage, List.mem_singleton_self _, _,
    helloMessage_carriesKey⟩
  intro message hmem
  rw [List.mem_singleton.mp hmem]
  exact ⟨by decide, by decide⟩

/-- With the header of the next record the key of a complete ServerHello is lost. -/
theorem parseServerKeyShare_helloAndHeader :
    ¬ ∀ recorded : Recorded, parseServerKeyShare (flatten recorded.records ++ recorded.tail) =
      parseServerKeyShare (flatten recorded.records) := by
  intro h
  obtain ⟨key, hkey⟩ := helloAndHeader.hasKey_iff.mp helloAndHeader_hasKey
  have hsame := h helloAndHeader
  rw [helloAndHeader.parse_tail (by decide), hkey] at hsame
  cases hsame

end Basecrawl.Core
