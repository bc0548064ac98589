/-
  What a lookup comes to, whoever answers.

  Whatever a server sends, and however it arrives, a lookup neither panics nor runs on behind its
  deadline (`lookup_any_server`).  A pass of a read loop reads the clock, and so the time that is
  left bounds the passes (`readSome_ticks`).
-/
import Basecrawl.Seal.Lookup

namespace Basecrawl.Seal.Dns

open Text Outcome Panic Run Frames IpText Numerals Rfc1035 Reading Windows
open Stream' (Seq)
open Core.ReadCapped (IoError IoErrorKind)

variable {σ : Type} {tls : Tls σ}

/-! ## Any server -/

/-- The clock moves on whenever it is read, and never back. -/
structure Ticks (tls : Tls σ) (time : σ → Nat) : Prop where
  shows : ∀ s, (tls.now s).1 = time s
  moves : ∀ s, time s < time (tls.now s).2
  reads : ∀ room s, time s ≤ time (final (tls.read room s))

/-- An error that the caller is told. -/
def Told (e : Halt) (_ : σ) : Prop := ∃ t, e = .seal t

theorem triple_tried {ι ε α : Type} {P : σ → Prop} {x : EStateM ι σ α}
    {Q : Except ι α → σ → Prop} {E : ε → σ → Prop}
    (h : ∀ s, P s → Q (outcome (x s)) (final (x s))) : Triple P (tried x) Q E :=
  fun s hs => Or.inl ⟨_, _, rfl, h s hs⟩

theorem triple_elapsed {P : σ → Prop} {Q : Bool → σ → Prop} {E : Halt → σ → Prop} {deadline : Nat}
    (h : ∀ s, P s → Q (decide (deadline ≤ (tls.now s).1)) (tls.now s).2) :
    Triple P (elapsed tls deadline) Q E := fun s hs => Or.inl ⟨_, _, rfl, h s hs⟩

/-- A pass takes time: one pass less is enough behind it. -/
theorem readSome_ticks {time : σ → Nat} (hticks : Ticks tls time) (deadline passes room : Nat)
    (late timedOut context : String) :
    Triple (fun s => deadline - time s < passes + 1)
      (readSome tls deadline late timedOut context room)
      (fun _ s => deadline - time s < passes) Told := by
  refine (triple_elapsed (Q := fun passed s => passed = false → deadline - time s < passes)
    ?_).bind fun passed => ?_
  · intro s hs hearly
    have hmoves := hticks.moves s
    rw [hticks.shows, decide_eq_false_iff_not] at hearly
    omega
  · cases passed with
    | true => exact triple_throw fun _ _ => ⟨_, rfl⟩
    | false =>
      refine (triple_tried (Q := fun _ s => deadline - time s < passes) ?_).bind fun r => ?_
      · intro s hs
        have hreads := hticks.reads room s
        have hpasses := hs rfl
        omega
      · cases r with
        | ok got => exact triple_pure fun _ hs => hs
        | error e =>
          dsimp only
          cases e.kind with
          | wouldBlock => exact triple_pure fun _ hs => hs
          | timedOut => exact triple_throw fun _ _ => ⟨_, rfl⟩
          | other => exact triple_throw fun _ _ => ⟨_, rfl⟩

/-- The loop ends before its passes do, and within the bound on the size of a reply. -/
theorem readReply_any {time : σ → Nat} (hticks : Ticks tls time) (deadline : Nat) :
    ∀ (passes : Nat) (raw : Bytes), raw.length ≤ 65536 →
      Triple (fun s => deadline - time s < passes) (readReply tls deadline passes raw)
        (fun bytes _ => bytes.length ≤ 65536) Told
  | 0, _, _ => fun s hs => absurd hs (Nat.not_lt_zero _)
  | passes + 1, raw, hraw => by
    rw [readReply]
    refine (readSome_ticks hticks deadline passes 4096 _ _ _).bind fun r => ?_
    cases r with
    | none => exact readReply_any hticks deadline passes raw hraw
    | some got =>
      by_cases hend : got.val = []
      · simp only [if_pos hend]
        exact triple_pure fun _ _ => hraw
      · by_cases hlong : (raw ++ got.val).length > 64 * 1024
        · simp only [if_neg hend, if_pos hlong]
          exact triple_throw fun _ _ => ⟨_, rfl⟩
        · simp only [if_neg hend, if_neg hlong]
          exact readReply_any hticks deadline passes _ (Nat.not_lt.mp hlong)

theorem readExactDeadline_any {time : σ → Nat} (hticks : Ticks tls time) (deadline size : Nat) :
    ∀ (passes : Nat) (filled : Bytes), filled.length ≤ size →
      Triple (fun s => deadline - time s < passes)
        (readExactDeadline tls deadline size passes filled)
        (fun bytes _ => bytes.length = size) Told
  | 0, _, _ => fun s hs => absurd hs (Nat.not_lt_zero _)
  | passes + 1, filled, hfilled => by
    rw [readExactDeadline]
    by_cases hmore : filled.length < size
    · rw [if_pos hmore]
      refine (readSome_ticks hticks deadline passes _ _ _ _).bind fun r => ?_
      cases r with
      | none => exact readExactDeadline_any hticks deadline size passes filled hfilled
      | some got =>
        by_cases hend : got.val = []
        · simp only [if_pos hend]
          exact triple_throw fun _ _ => ⟨_, rfl⟩
        · simp only [if_neg hend]
          refine readExactDeadline_any hticks deadline size passes _ ?_
          have hroom := got.property
          rw [List.length_append]
          omega
    · rw [if_neg hmore]
      exact triple_pure fun _ _ => Nat.le_antisymm hfilled (Nat.not_lt.mp hmore)

theorem told_mapErr {ι α : Type} {P : σ → Prop} (x : EStateM ι σ α) (f : ι → SealError) :
    Triple P (mapErr (fun e => Halt.seal (f e)) x) (fun _ _ => True) Told := by
  intro s _
  rcases mapErr_cases (fun e => Halt.seal (f e)) x s with ⟨e, s', -, hrun⟩ | ⟨a, s', -, hrun⟩
  · exact Or.inr ⟨_, s', hrun, f e, rfl⟩
  · exact Or.inl ⟨a, s', hrun, trivial⟩

theorem connectTls_any (endpoint : ResolverEndpoint) (deadline : Nat) :
    Triple (fun _ => True) (connectTls tls endpoint deadline) (fun _ _ => True) Told := by
  have hremaining : Triple (fun _ => True) (remaining tls deadline) (fun _ _ => True) Told := by
    intro s _
    unfold remaining
    split
    · exact Or.inl ⟨_, _, rfl, trivial⟩
    · exact Or.inr ⟨_, _, rfl, _, rfl⟩
  refine hremaining.bind fun left => (told_mapErr _ id).bind fun _ => ?_
  split
  · exact triple_throw fun _ _ => ⟨_, rfl⟩
  · refine (told_mapErr _ id).bind fun version => ?_
    split
    · exact triple_pure fun _ _ => trivial
    · exact triple_throw fun _ _ => ⟨_, rfl⟩
    · exact triple_throw fun _ _ => ⟨_, rfl⟩

theorem splitHttpBody_length {w : Nat} {raw body : Bytes} (h : splitHttpBody w raw = .ok body) :
    body.length ≤ raw.length := by
  obtain ⟨sep, -, h⟩ := bind_eq_ok.mp h
  obtain ⟨_, -, h⟩ := bind_eq_ok.mp h
  have hdrop : (raw.drop (sep + 4)).length ≤ raw.length := by
    rw [List.length_drop]
    exact Nat.sub_le _ _
  split at h
  · split at h
    · cases h
    · obtain rfl := Except.ok.inj h
      exact (List.length_take_le' _ _).trans hdrop
  · obtain rfl := Except.ok.inj h
    exact hdrop

theorem told_mapError {α : Type} {P : σ → Prop} (r : Except SealError α) :
    Triple P (ofResult (r.mapError Halt.seal)) (fun a _ => r = .ok a) Told := by
  refine triple_ofResult (fun a ha _ _ => mapError_eq_ok.mp ha) fun e he _ _ => ?_
  cases r with
  | ok a => cases he
  | error t => exact ⟨t, (Except.error.inj he).symm⟩

theorem exchangeDoh_any {time : σ → Nat} (hticks : Ticks tls time) (w : Nat) {passes deadline : Nat}
    (hpasses : deadline < passes) (endpoint : ResolverEndpoint) (query : Bytes) :
    Triple (fun _ => True) (exchangeDoh tls w passes endpoint query deadline)
      (fun message _ => message.length ≤ 65536) Told := by
  refine (connectTls_any endpoint deadline).bind fun _ => (told_mapErr _ _).bind fun _ => ?_
  refine (told_mapErr _ _).bind fun _ => (told_mapErr _ _).bind fun _ => ?_
  have hread := readReply_any hticks deadline passes [] (Nat.zero_le _)
  refine (hread.mono (fun s _ => by omega) (fun _ _ h => h) fun _ _ h => h).bind fun raw => ?_
  intro s hraw
  rcases told_mapError (P := fun _ => True) (splitHttpBody w raw) s trivial with
    ⟨body, s', hrun, hbody⟩ | herror
  · exact Or.inl ⟨body, s', hrun, (splitHttpBody_length hbody).trans hraw⟩
  · exact Or.inr herror

theorem exchangeDot_any {time : σ → Nat} (hticks : Ticks tls time) {passes deadline : Nat}
    (hpasses : deadline < passes) (endpoint : ResolverEndpoint) (query : Bytes) :
    Triple (fun _ => True) (exchangeDot tls passes endpoint query deadline)
      (fun message _ => message.length ≤ 65536) Told := by
  refine (connectTls_any endpoint deadline).bind fun _ => ?_
  split
  · exact triple_throw fun _ _ => ⟨_, rfl⟩
  · refine (told_mapErr _ _).bind fun _ => (told_mapErr _ _).bind fun _ => ?_
    refine (told_mapErr _ _).bind fun _ => ?_
    have hframe := readExactDeadline_any hticks deadline 2 passes [] (Nat.zero_le _)
    refine (hframe.mono (fun s _ => by omega) (fun _ _ _ => trivial) fun _ _ h => h).bind
      fun lenBuf => ?_
    simp only
    split
    · exact triple_throw fun _ _ => ⟨_, rfl⟩
    · next hbounds =>
      have hbody := readExactDeadline_any hticks deadline (beNat lenBuf) passes [] (Nat.zero_le _)
      refine hbody.mono (fun s _ => by omega) (fun message _ h => ?_) fun _ _ h => h
      omega

/-- A message that was read is parsed without a panic. -/
theorem lookupType_any {time : σ → Nat} (hticks : Ticks tls time) {w passes deadline : Nat}
    (hw : 32 ≤ w) (hpasses : deadline < passes) (endpoint : ResolverEndpoint) (name : String)
    (qtype id : UInt16) :
    Triple (fun _ => True) (lookupType tls w passes endpoint name qtype id deadline)
      (fun _ _ => True) Told := by
  refine ((told_mapError _).mono (fun _ h => h) (fun _ _ _ => trivial) fun _ _ h => h).bind
    fun query => ?_
  have hexchange : Triple (fun _ => True) (exchange tls w passes endpoint query deadline)
      (fun message _ => message.length ≤ 65536) Told := by
    unfold exchange
    cases endpoint.mode with
    | doh => exact exchangeDoh_any hticks w hpasses endpoint query
    | dot => exact exchangeDot_any hticks hpasses endpoint query
  refine hexchange.bind fun message => ?_
  intro s hmessage
  have hfits : message.length < 2 ^ (w - 1) := by
    have hpow : 2 ^ 31 ≤ 2 ^ (w - 1) := Nat.pow_le_pow_right (by decide) (by omega)
    omega
  have hsafe := (parseAnswers_safe ⟨message, hw, hfits⟩ qtype).no_panic
  cases hparsed : parseAnswers w message qtype with
  | ok addresses => exact Or.inl ⟨addresses, s, rfl, trivial⟩
  | error stop =>
    cases stop with
    | panic => exact absurd hparsed hsafe
    | err t => exact Or.inr ⟨.seal t, s, rfl, t, rfl⟩

theorem lookup_told {time : σ → Nat} (hticks : Ticks tls time) {w passes deadline : Nat}
    (hw : 32 ≤ w) (hpasses : deadline < passes) (endpoint : ResolverEndpoint)
    (ids : UInt16 × UInt16) (name : String) :
    Triple (fun _ => True) (lookup tls w passes endpoint ids name deadline)
      (fun result _ => result.addresses ≠ [] ∧ result.via = endpoint) Told := by
  refine ((told_mapError _).mono (fun _ h => h) (fun _ _ _ => trivial) fun _ _ h => h).bind
    fun name => ?_
  refine (lookupType_any hticks hw hpasses endpoint name qtypeA ids.1).bind fun addresses => ?_
  have haaaa : Triple (fun _ => True)
      (orDefault (lookupType tls w passes endpoint name qtypeAaaa ids.2 deadline))
      (fun _ _ => True) Told := by
    intro s _
    unfold orDefault
    rcases lookupType_any hticks hw hpasses endpoint name qtypeAaaa ids.2 s trivial with
      ⟨aaaa, s', hrun, -⟩ | ⟨e, s', hrun, t, rfl⟩
    · rw [hrun]
      exact Or.inl ⟨aaaa, s', rfl, trivial⟩
    · rw [hrun]
      exact Or.inl ⟨[], s', rfl, trivial⟩
  refine haaaa.bind fun aaaa => ?_
  simp only
  split
  · exact triple_throw fun _ _ => ⟨_, rfl⟩
  · next hsome => exact triple_pure fun _ _ => ⟨hsome, rfl⟩

/-- **Any server.**  Whatever is sent, and however it arrives, a lookup returns some addresses or an
error by its deadline. -/
theorem lookup_any_server {time : σ → Nat} (hticks : Ticks tls time) {w passes deadline : Nat}
    (hw : 32 ≤ w) (hpasses : deadline < passes) (endpoint : ResolverEndpoint)
    (ids : UInt16 × UInt16) (name : String) (s : σ) :
    (∃ result s', lookup tls w passes endpoint ids name deadline s = .ok result s' ∧
      result.addresses ≠ [] ∧ result.via = endpoint) ∨
    ∃ e s', lookup tls w passes endpoint ids name deadline s = .error (.seal e) s' := by
  rcases lookup_told hticks hw hpasses endpoint ids name s trivial with
    ⟨result, s', hrun, hresult⟩ | ⟨e, s', hrun, t, rfl⟩
  · exact Or.inl ⟨result, s', hrun, hresult⟩
  · exact Or.inr ⟨t, s', hrun⟩

/-- A connection to a server that sends one reply, in pieces. -/
def wired (reply : Bytes) (piece : Nat) : Tls Replay :=
  { replaying (fun _ => reply) piece with
    connect := fun _ _ s => .ok () s
    serverName := fun _ => true
    handshake := fun _ _ s => .ok (some .tls13) { s with sent := [], pending := [] } }

theorem wired_ticks (reply : Bytes) (piece : Nat) : Ticks (wired reply piece) Replay.clock where
  shows := fun _ => rfl
  moves := fun _ => Nat.lt_succ_self _
  reads := fun _ _ => Nat.le_refl _

theorem lookup_any_server_wired :
    (∃ result s', lookup (wired [0, 0] 0) 64 9 defaultDotEndpoint (1, 2) "example.com" 8
        ⟨0, [], []⟩ = .ok result s' ∧ result.addresses ≠ [] ∧ result.via = defaultDotEndpoint) ∨
    ∃ e s', lookup (wired [0, 0] 0) 64 9 defaultDotEndpoint (1, 2) "example.com" 8 ⟨0, [], []⟩ =
      .error (.seal e) s' :=
  lookup_any_server (wired_ticks _ _) (Nat.le_of_ble_eq_true rfl) (Nat.lt_succ_self 8) _ _ _ _

end Basecrawl.Seal.Dns
