/-
  No answer is lost: who can read a channel, and what lies in it, over whole runs of the DevTools
  transport.

  1. **Ids** — as long as the counter has not wrapped, no two registrations share an id
     (`Tickets.distinct`: made or about to be made, an id is counted once).
  2. **Claims** — no two calls hold the same receiver, whatever the counter does.
  3. **Waits** — a live registration is in the map, on its way, or answered.
  4. **The end** — `cancel_outstanding_method_calls` reaches every live registration, and what lies
     in a queue stays there until its own call reads it.
-/
import Basecrawl.Cdp.Answers

namespace Basecrawl.Cdp

open Threads
open scoped List

variable {E : Type} {protocol : Protocol E}

/-! ## Ids -/

/-- The ids of all the registrations there ever were. -/
def WaitingCallRegistry.ids (registry : WaitingCallRegistry) : List UInt32 :=
  registry.channels.map Channel.callId

theorem ids_of_keeps {registry registry' : WaitingCallRegistry}
    (hlength : registry'.channels.length = registry.channels.length)
    (hkeeps : Keeps registry registry') : registry'.ids = registry.ids := by
  refine List.ext_getElem? ?_
  intro c
  rw [WaitingCallRegistry.ids, WaitingCallRegistry.ids, List.getElem?_map, List.getElem?_map]
  cases hchannel : registry.channels[c]? with
  | none =>
    have hlt := List.getElem?_eq_none_iff.mp hchannel
    rw [List.getElem?_eq_none_iff.mpr (by omega)]
  | some channel =>
    obtain ⟨channel', hchannel', hid, -⟩ := hkeeps c channel hchannel
    rw [hchannel', Option.map_some, Option.map_some, hid]

theorem ids_registerCall (registry : WaitingCallRegistry) (now : Nat) (callId : UInt32) :
    (registry.registerCall now callId).1.ids = registry.ids ++ [callId] := by
  rw [WaitingCallRegistry.ids, WaitingCallRegistry.registerCall, List.map_append]
  rfl

/-- The ids a counter of 32 bits can draw before it wraps. -/
def idSpace : Nat := 2 ^ 32

/-- Every id was drawn, and none twice. -/
structure Tickets (s : Shared E) (threads : List Call) : Prop where
  counter : s.counter = UInt32.ofNat s.issued
  registered : ∀ id ∈ s.registry.ids, id.toNat < s.issued
  numbered : ∀ t ∈ threads, ∀ id, t.numbered = some id → id.toNat < s.issued
  distinct : ∀ id, s.registry.ids.count id + threads.countP (fun t => t.numbered == some id) ≤ 1

theorem Tickets.nodup {s : Shared E} {threads : List Call} (h : Tickets s threads) :
    s.registry.ids.Nodup := by
  rw [List.nodup_iff_count]
  intro id
  exact (Nat.le_add_right _ _).trans (h.distinct id)

/-- Two registrations with different receivers have different ids. -/
theorem Tickets.callId_ne {s : Shared E} {threads : List Call} (h : Tickets s threads)
    {p q : Pending} (hp : p.On s.registry) (hq : q.On s.registry) (hne : p.rx ≠ q.rx) :
    p.callId ≠ q.callId := by
  obtain ⟨channel, hchannel, hid⟩ := hp
  obtain ⟨channel', hchannel', hid'⟩ := hq
  intro heq
  have hget : s.registry.ids[p.rx]? = some p.callId := by
    rw [WaitingCallRegistry.ids, List.getElem?_map, hchannel, Option.map_some, hid]
  have hget' : s.registry.ids[q.rx]? = some p.callId := by
    rw [WaitingCallRegistry.ids, List.getElem?_map, hchannel', Option.map_some, hid', heq]
  obtain ⟨hlt, -⟩ := List.getElem?_eq_some_iff.mp hget
  exact hne ((List.getElem?_inj hlt h.nodup).mp (hget.trans hget'.symm))

/-- A registration has another id than the ones still to be made. -/
theorem Tickets.callId_ne_numbered {s : Shared E} {threads : List Call} (h : Tickets s threads)
    {p : Pending} (hp : p.On s.registry) {t : Call} (ht : t ∈ threads) {id : UInt32}
    (hnumbered : t.numbered = some id) : p.callId ≠ id := by
  obtain ⟨channel, hchannel, hid⟩ := hp
  intro heq
  have hmem : id ∈ s.registry.ids := by
    rw [← heq, ← hid]
    exact List.mem_map_of_mem (List.mem_of_getElem? hchannel)
  have hregistered : 0 < s.registry.ids.count id := List.count_pos_iff.mpr hmem
  have hdrawn : 0 < threads.countP (fun t => t.numbered == some id) := by
    rw [List.countP_pos_iff]
    exact ⟨t, ht, beq_iff_eq.mpr hnumbered⟩
  have hdistinct := h.distinct id
  omega

/-- Nothing is drawn or registered. -/
theorem tickets_of_ids {s s' : Shared E} {threads : List Call} (h : Tickets s threads)
    (hcounter : s'.counter = s.counter) (hissued : s'.issued = s.issued)
    (hids : s'.registry.ids = s.registry.ids) : Tickets s' threads := by
  refine ⟨?_, ?_, ?_, ?_⟩
  · rw [hcounter, hissued]
    exact h.counter
  · rw [hids, hissued]
    exact h.registered
  · rw [hissued]
    exact h.numbered
  · rw [hids]
    exact h.distinct

/-- A call that has no number before and after. -/
theorem tickets_replace {s : Shared E} {before after : List Call} {t t' : Call}
    (h : Tickets s (before ++ t :: after)) (ht : t.numbered = none) (ht' : t'.numbered = none) :
    Tickets s (before ++ t' :: after) := by
  refine ⟨h.counter, h.registered, forall_replace h.numbered ?_, ?_⟩
  · intro id hid
    rw [ht'] at hid
    exact absurd hid (Option.some_ne_none _).symm
  · intro id
    rw [countP_replace_of_eq _ before t t' after (by rw [ht, ht'])]
    exact h.distinct id

theorem toNat_counter {n : Nat} (h : n < idSpace) : (UInt32.ofNat n).toNat = n := by
  rw [UInt32.toNat_ofNat']
  exact Nat.mod_eq_of_lt h

/-- An id is drawn: it is above all the others. -/
theorem tickets_draw {s : Shared E} {before after : List Call} {t t' : Call}
    (h : Tickets s (before ++ t :: after)) (hissued : s.issued < idSpace)
    (ht : t.numbered = none) (ht' : t'.numbered = none ∨ t'.numbered = some s.counter) :
    Tickets { s with counter := s.counter + 1, issued := s.issued + 1 }
      (before ++ t' :: after) := by
  have hnew : s.counter.toNat = s.issued := by
    rw [h.counter]
    exact toNat_counter hissued
  have hnumbered : ∀ u ∈ before ++ t :: after, ∀ id, u.numbered = some id →
      id.toNat < s.issued + 1 := by
    intro u hu id hid
    have hlt := h.numbered u hu id hid
    omega
  refine ⟨?_, ?_, forall_replace hnumbered ?_, ?_⟩
  · rw [h.counter, UInt32.ofNat_add]
    rfl
  · intro id hid
    have hlt := h.registered id hid
    simp only
    omega
  · intro id hid
    rcases ht' with hnone | hsome
    · exact absurd (hnone.symm.trans hid) (Option.some_ne_none _).symm
    · obtain rfl := Option.some.inj (hsome.symm.trans hid)
      simp only
      omega
  · intro id
    have hreplace := countP_replace (fun u : Call => u.numbered == some id) before t t' after
    have hold := h.distinct id
    have hnone : (t.numbered == some id).toNat = 0 := by
      rw [ht]
      rfl
    rcases ht' with hnumber | hnumber
    · have hnone' : (t'.numbered == some id).toNat = 0 := by
        rw [hnumber]
        rfl
      simp only
      omega
    · rw [hnumber] at hreplace
      by_cases hid : s.counter = id
      · -- the new id was neither registered nor drawn
        have hregistered : s.registry.ids.count id = 0 := by
          rw [List.count_eq_zero]
          intro hmem
          have hlt := h.registered id hmem
          rw [← hid] at hlt
          omega
        have hdrawn : (before ++ t :: after).countP (fun u => u.numbered == some id) = 0 := by
          rw [List.countP_eq_zero]
          intro u hu heq
          have hlt := h.numbered u hu id (beq_iff_eq.mp heq)
          rw [← hid] at hlt
          omega
        have hone : (some s.counter == some id).toNat ≤ 1 := Bool.toNat_le _
        simp only
        omega
      · have hother : (some s.counter == some id).toNat = 0 := by
          rw [beq_eq_false_iff_ne.mpr fun heq => hid (Option.some.inj heq)]
          rfl
        simp only
        omega

/-- A drawn id is registered. -/
theorem tickets_register {s : Shared E} {before after : List Call} {t t' : Call} {callId : UInt32}
    (h : Tickets s (before ++ t :: after)) (ht : t.numbered = some callId)
    (ht' : t'.numbered = none) :
    Tickets { s with registry := (s.registry.registerCall s.log.length callId).1 }
      (before ++ t' :: after) := by
  have hmem : t ∈ before ++ t :: after := List.mem_append_right _ List.mem_cons_self
  refine ⟨h.counter, ?_, forall_replace h.numbered ?_, ?_⟩
  · intro id hid
    rw [ids_registerCall] at hid
    rcases List.mem_append.mp hid with hold | hnew
    · exact h.registered id hold
    · obtain rfl := List.mem_singleton.mp hnew
      exact h.numbered t hmem _ ht
  · intro id hid
    rw [ht'] at hid
    exact absurd hid (Option.some_ne_none _).symm
  · intro id
    have hreplace := countP_replace (fun u : Call => u.numbered == some id) before t t' after
    have hold := h.distinct id
    have hleft : (t'.numbered == some id).toNat = 0 := by
      rw [ht']
      rfl
    rw [ids_registerCall, List.count_append, List.count_singleton]
    by_cases hid : callId = id
    · have htaken : (t.numbered == some id).toNat = 1 := by
        rw [ht, hid, beq_self_eq_true]
        rfl
      rw [hid, beq_self_eq_true, if_pos rfl]
      omega
    · have hother : (t.numbered == some id).toNat = 0 := by
        rw [ht, beq_eq_false_iff_ne.mpr fun heq => hid (Option.some.inj heq)]
        rfl
      rw [beq_eq_false_iff_ne.mpr hid, if_neg Bool.false_ne_true]
      omega

/-- A step of a call keeps it, as long as the counter does not wrap. -/
theorem tickets_callMethod {choice : Choice} {s s' : Shared E} {before after : List Call}
    {t t' : Call} (hstep : callMethod protocol choice s t = some (s', t'))
    (h : s.issued ≤ idSpace → Tickets s (before ++ t :: after)) (hissued : s'.issued ≤ idSpace) :
    Tickets s' (before ++ t' :: after) := by
  rcases callMethod_cases hstep with ⟨rfl, hnone, hdrops⟩ | ⟨rfl, hnone, hdrops | hnumbered⟩ |
    ⟨callId, pending, hnumbered, -, -, -, rfl, hnone, -⟩ |
    ⟨pending, carried, reply, rfl, -, rfl, rfl⟩ | ⟨pending, carried, error, rfl, rfl, rfl⟩
  · exact tickets_replace (h hissued) hnone hdrops.numbered
  · exact tickets_draw (h (Nat.le_of_succ_le hissued)) hissued hnone (.inl hdrops.numbered)
  · exact tickets_draw (h (Nat.le_of_succ_le hissued)) hissued hnone (.inr hnumbered.1)
  · exact tickets_register (h hissued) hnumbered hnone
  · refine tickets_of_ids (tickets_replace (h hissued) rfl (numbered_returning _ _ _)) rfl rfl ?_
    exact ids_of_keeps (List.length_modify _ _ _) (keeps_tryRecv _ _)
  · exact tickets_of_ids (tickets_replace (h hissued) rfl (numbered_returning _ _ _)) rfl rfl rfl

theorem start_calls {calls : List (Option String × (Json.Tree → Bool))} {t : Call}
    (h : t ∈ (start (E := E) calls).threads) :
    t.numbered = none ∧ t.pendings = [] ∧ t.live = [] ∧ t.answer = none := by
  obtain ⟨⟨sessionId, accepts⟩, -, rfl⟩ := List.mem_map.mp h
  cases sessionId with
  | none => exact ⟨rfl, rfl, rfl, rfl⟩
  | some sessionId => exact ⟨rfl, rfl, rfl, rfl⟩

theorem tickets_start (calls : List (Option String × (Json.Tree → Bool))) :
    Tickets (start (E := E) calls).shared (start (E := E) calls).threads := by
  refine ⟨rfl, ?_, ?_, ?_⟩
  · intro id hid
    exact absurd hid List.not_mem_nil
  · intro t ht id hid
    rw [(start_calls ht).1] at hid
    exact absurd hid (Option.some_ne_none _).symm
  · intro id
    have hzero : (start (E := E) calls).threads.countP (fun t => t.numbered == some id) = 0 := by
      rw [List.countP_eq_zero]
      intro t ht heq
      rw [(start_calls ht).1] at heq
      exact absurd heq Bool.false_ne_true
    rw [hzero]
    exact Nat.zero_le _

/-! ## Claims -/

/-- How often a call holds a receiver. -/
def Call.holds (c : Nat) (t : Call) : Nat := (t.pendings.map Pending.rx).count c

/-- Nobody shares a receiver, and nobody holds one twice. -/
def Claims (threads : List Call) : Prop := ∀ c, weight (Call.holds c) threads ≤ 1

theorem holds_le {t t' : Call} (h : t'.pendings <+ t.pendings) (c : Nat) :
    t'.holds c ≤ t.holds c := (h.map Pending.rx).count_le c

theorem claims_replace {before after : List Call} {t t' : Call}
    (h : Claims (before ++ t :: after)) (hpendings : t'.pendings <+ t.pendings) :
    Claims (before ++ t' :: after) := by
  intro c
  have hweight := weight_replace (Call.holds c) before t t' after
  have hle := holds_le hpendings c
  have hold := h c
  omega

/-- A receiver that nobody holds is taken. -/
theorem claims_take {before after : List Call} {t t' : Call} {pending : Pending}
    (h : Claims (before ++ t :: after))
    (hfresh : ∀ u ∈ before ++ t :: after, ∀ p ∈ u.pendings, p.rx ≠ pending.rx)
    (hpendings : t'.pendings <+ pending :: t.pendings) : Claims (before ++ t' :: after) := by
  intro c
  have hweight := weight_replace (Call.holds c) before t t' after
  have hle : t'.holds c ≤ ((pending :: t.pendings).map Pending.rx).count c :=
    (hpendings.map Pending.rx).count_le c
  rw [List.map_cons, List.count_cons] at hle
  change _ ≤ t.holds c + _ at hle
  by_cases hc : pending.rx = c
  · have hzero : weight (Call.holds c) (before ++ t :: after) = 0 := by
      rw [weight_eq_zero]
      intro u hu
      refine List.count_eq_zero.mpr ?_
      intro hmem
      obtain ⟨p, hp, hrx⟩ := List.mem_map.mp hmem
      exact hfresh u hu p hp (hrx.trans hc.symm)
    rw [if_pos (beq_iff_eq.mpr hc)] at hle
    omega
  · rw [if_neg (by simpa using hc)] at hle
    have hold := h c
    omega

/-- What the others hold, and what a call carries, is not the receiver it waits on. -/
theorem Claims.rx_ne {before after : List Call} {t : Call} {pending p : Pending}
    {carried : List Pending} (h : Claims (before ++ t :: after))
    (ht : t.pendings = pending :: carried)
    (hp : p ∈ carried ∨ ∃ u, (u ∈ before ∨ u ∈ after) ∧ p ∈ u.pendings) : p.rx ≠ pending.rx := by
  intro heq
  have hweight := weight_replace (Call.holds pending.rx) before t (.finished none .panicked) after
  have hnone : Call.holds pending.rx (.finished none .panicked) = 0 := rfl
  have hown : t.holds pending.rx = (carried.map Pending.rx).count pending.rx + 1 := by
    rw [Call.holds, ht, List.map_cons, List.count_cons_self]
  have hall := h pending.rx
  have hmem : ∀ ps : List Pending, p ∈ ps → pending.rx ∈ ps.map Pending.rx := by
    intro ps hps
    rw [← heq]
    exact List.mem_map_of_mem hps
  rcases hp with hcarried | ⟨u, hu, hheld⟩
  · have hpos : 0 < (carried.map Pending.rx).count pending.rx :=
      List.count_pos_iff.mpr (hmem _ hcarried)
    omega
  · have hrest :
        weight (Call.holds pending.rx) (before ++ .finished none .panicked :: after) = 0 := by
      omega
    have hzero : u.holds pending.rx = 0 := by
      refine weight_eq_zero.mp hrest u ?_
      rcases hu with hbefore | hafter
      · exact List.mem_append_left _ hbefore
      · exact List.mem_append_right _ (List.mem_cons_of_mem _ hafter)
    exact absurd (hmem _ hheld) (List.count_eq_zero.mp hzero)

/-- A registered receiver is below the next one. -/
theorem rx_lt {registry : WaitingCallRegistry} {p : Pending} (h : p.On registry) :
    p.rx < registry.channels.length := by
  obtain ⟨channel, hchannel, -⟩ := h
  exact (List.getElem?_eq_some_iff.mp hchannel).1

/-- A step of a call keeps it. -/
theorem claims_callMethod {choice : Choice} {s s' : Shared E} {before after : List Call}
    {t t' : Call} (hstep : callMethod protocol choice s t = some (s', t'))
    (hsound : Sound s (before ++ t :: after)) (h : Claims (before ++ t :: after)) :
    Claims (before ++ t' :: after) := by
  rcases callMethod_cases hstep with ⟨-, -, hdrops⟩ | ⟨-, -, hdrops | ⟨-, -, hpendings, -⟩⟩ |
    ⟨callId, pending, -, -, hrx, hpendings, -, -, hlive, hpendings', -⟩ |
    ⟨pending, carried, reply, rfl, -, -, rfl⟩ | ⟨pending, carried, error, rfl, -, rfl⟩
  · exact claims_replace h hdrops.pendings
  · exact claims_replace h hdrops.pendings
  · refine claims_replace h ?_
    rw [hpendings]
  · rw [← hpendings', ← hpendings] at hlive
    refine claims_take h ?_ hlive
    intro u hu p hp
    have hlt := rx_lt (hsound.known u hu p hp)
    rw [← hrx] at hlt
    exact Nat.ne_of_lt hlt
  · exact claims_replace h (pendings_returning carried (some pending) _)
  · exact claims_replace h (pendings_returning carried (some pending) _)

/-! ## Waits -/

/-- A registration is still in the map, its response is on its way, or something lies in its
    queue. -/
def Awaited (s : Shared E) (p : Pending) : Prop :=
  (p.callId, p.rx) ∈ s.registry.calls ∨ (∃ response, s.loop.delivers = some (p.rx, response)) ∨
    ∃ channel : Channel, s.registry.channels[p.rx]? = some channel ∧ channel.queue ≠ []

/-- Every live registration is awaited. -/
def Waits (s : Shared E) (threads : List Call) : Prop := ∀ t ∈ threads, ∀ p ∈ t.live, Awaited s p

/-- The end of the connection is told to those only that no response was handled for, and only by a
    loop that handles no more. -/
def Closed (s : Shared E) : Prop :=
  ∀ (c : Nat) (channel : Channel), s.registry.channels[c]? = some channel →
    .connectionClosed ∈ channel.queue → firstFor s.log channel = none ∧ s.loop.told = true

theorem awaited_quiet {s s' : Shared E} {p : Pending} (hquiet : Quiet s s') (h : Awaited s p) :
    Awaited s' p := by
  rw [Awaited, hquiet.registry, hquiet.delivers]
  exact h

/-- A response takes the sender of its own call only. -/
theorem awaited_resolve {s : Shared E} {p : Pending} (response : Response)
    (hkeyed : s.registry.Keyed) (hdelivers : s.loop.delivers = none) (h : Awaited s p) :
    Awaited (resolveCall response s) p := by
  rcases h with hmem | ⟨response', hnone⟩ | hqueue
  · by_cases hid : p.callId = response.callId
    · right; left
      have hsender := (WaitingCallRegistry.sender_eq_some hkeyed).mpr hmem
      rw [hid] at hsender
      refine ⟨response, ?_⟩
      simp only [resolveCall, hsender]
      rfl
    · exact .inl (WaitingCallRegistry.mem_unregisterCall.mpr ⟨hmem, hid⟩)
  · exact absurd (hdelivers.symm.trans hnone) (Option.some_ne_none _).symm
  · exact .inr (.inr hqueue)

theorem awaited_deliver {s : Shared E} {p : Pending} {rx : Nat} {response : Response}
    (hloop : s.loop = .delivering rx response) (hon : p.On s.registry) (h : Awaited s p) :
    Awaited { s with registry := s.registry.send rx (.response response), loop := .checking }
      p := by
  obtain ⟨channel, hchannel, -⟩ := hon
  have hsent := WaitingCallRegistry.channel_send rx (.response response) hchannel
  rcases h with hmem | ⟨response', hdelivers⟩ | ⟨channel', hchannel', hqueue⟩
  · exact .inl hmem
  · right; right
    rw [hloop] at hdelivers
    obtain ⟨hrx, -⟩ := Prod.mk.inj (Option.some.inj hdelivers)
    rw [if_pos hrx] at hsent
    exact ⟨_, hsent, List.append_ne_nil_of_right_ne_nil _ (List.cons_ne_nil _ _)⟩
  · right; right
    obtain rfl := Option.some.inj (hchannel'.symm.trans hchannel)
    refine ⟨_, hsent, ?_⟩
    split
    · exact List.append_ne_nil_of_left_ne_nil hqueue _
    · exact hqueue

/-- **The end reaches everyone**: whoever is awaited when the calls are told has something in its
    queue afterwards. -/
theorem queue_cancel {s : Shared E} {p : Pending} (hloop : s.loop = .cancelling)
    (hon : p.On s.registry) (h : Awaited s p) : ∃ channel : Channel,
      s.registry.cancelOutstandingMethodCalls.channels[p.rx]? = some channel ∧
        channel.queue ≠ [] := by
  obtain ⟨channel, hchannel, -⟩ := hon
  refine ⟨_, WaitingCallRegistry.channel_cancel hchannel, ?_⟩
  rcases h with hmem | ⟨response, hdelivers⟩ | ⟨channel', hchannel', hqueue⟩
  · have hpos : 0 < s.registry.calls.countP fun entry => entry.2 == p.rx := by
      rw [List.countP_pos_iff]
      exact ⟨_, hmem, beq_self_eq_true _⟩
    refine List.append_ne_nil_of_right_ne_nil _ ?_
    intro hnil
    have hzero := (List.replicate_eq_nil_iff _).mp hnil
    omega
  · rw [hloop] at hdelivers
    exact absurd hdelivers (Option.some_ne_none _).symm
  · obtain rfl := Option.some.inj (hchannel'.symm.trans hchannel)
    exact List.append_ne_nil_of_left_ne_nil hqueue _

/-- A step of a call that takes no other id out of the map and reads no other queue. -/
theorem awaited_registry {s : Shared E} {registry : WaitingCallRegistry} {p : Pending}
    (hcalls : (p.callId, p.rx) ∈ s.registry.calls → (p.callId, p.rx) ∈ registry.calls)
    (hqueue : ∀ channel : Channel, s.registry.channels[p.rx]? = some channel →
      registry.channels[p.rx]? = some channel) (h : Awaited s p) :
    Awaited { s with registry := registry } p := by
  rcases h with hmem | hdelivers | ⟨channel, hchannel, hne⟩
  · exact .inl (hcalls hmem)
  · exact .inr (.inl hdelivers)
  · exact .inr (.inr ⟨channel, hqueue channel hchannel, hne⟩)

/-- A step of a call keeps it: it registers and unregisters its own ids, and reads its own queue. -/
theorem waits_callMethod {choice : Choice} {s s' : Shared E} {before after : List Call}
    {t t' : Call} (hstep : callMethod protocol choice s t = some (s', t'))
    (hsound : Sound s (before ++ t :: after)) (hclaims : Claims (before ++ t :: after))
    (htickets : Tickets s (before ++ t :: after)) (h : Waits s (before ++ t :: after)) :
    Waits s' (before ++ t' :: after) := by
  have hmem : t ∈ before ++ t :: after := List.mem_append_right _ List.mem_cons_self
  have hon : ∀ u ∈ before ++ t :: after, ∀ p ∈ u.live, p.On s.registry := fun u hu p hp =>
    hsound.known u hu p ((live_sublist u).mem hp)
  have hother : ∀ {u : Call}, u ∈ before ∨ u ∈ after → u ∈ before ++ t :: after := by
    intro u hu
    rcases hu with hbefore | hafter
    · exact List.mem_append_left _ hbefore
    · exact List.mem_append_right _ (List.mem_cons_of_mem _ hafter)
  rcases callMethod_cases hstep with ⟨rfl, -, hdrops⟩ | ⟨rfl, -, hkept⟩ |
    ⟨callId, pending, hnumbered, hid, hrx, -, rfl, -, hlive, -⟩ |
    ⟨pending, carried, reply, rfl, -, rfl, rfl⟩ | ⟨pending, carried, error, rfl, rfl, rfl⟩
  · exact forall_replace h fun p hp => h t hmem p (hdrops.live.mem hp)
  · refine forall_replace h fun p hp => h t hmem p ?_
    rcases hkept with hdrops | ⟨-, hlive, -⟩
    · exact hdrops.live.mem hp
    · rwa [hlive] at hp
  · -- an id that is registered is not the one drawn last
    have hkept : ∀ u ∈ before ++ t :: after, ∀ p ∈ u.live,
        Awaited { s with registry := (s.registry.registerCall s.log.length callId).1 } p := by
      intro u hu p hp
      refine awaited_registry ?_ (fun _ => WaitingCallRegistry.channel_registerCall) (h u hu p hp)
      intro hin
      exact WaitingCallRegistry.mem_registerCall.mpr
        (.inr ⟨hin, htickets.callId_ne_numbered (hon u hu p hp) hmem hnumbered⟩)
    refine forall_replace hkept ?_
    intro p hp
    rcases List.mem_cons.mp (hlive.mem hp) with rfl | hold
    · exact .inl (WaitingCallRegistry.mem_registerCall.mpr (.inl ⟨hid, hrx⟩))
    · exact hkept t hmem p hold
  · -- the others, and the carried one, wait on other channels
    have hread : ∀ p, Awaited s p → p.rx ≠ pending.rx →
        Awaited { s with registry := s.registry.tryRecv pending.rx } p := by
      intro p hp hne
      refine awaited_registry id ?_ hp
      intro channel hchannel
      rw [WaitingCallRegistry.channel_tryRecv _ hchannel, if_neg (Ne.symm hne)]
    intro u hu p hp
    rcases mem_replace (t := Call.waiting pending carried) hu with rfl | ⟨hwhere, hold⟩
    · have hcarried := (live_returning carried (some pending) _).mem hp
      exact hread p (h _ hmem p (List.mem_cons_of_mem _ hcarried))
        (hclaims.rx_ne rfl (.inl hcarried))
    · exact hread p (h u hold p hp)
        (hclaims.rx_ne rfl (.inr ⟨u, hwhere, (live_sublist u).mem hp⟩))
  · -- and have other ids
    have htaken : ∀ p, Awaited s p → p.callId ≠ pending.callId →
        Awaited { s with registry := s.registry.unregisterCall pending.callId } p := by
      intro p hp hne
      refine awaited_registry ?_ (fun _ hchannel => hchannel) hp
      intro hin
      exact WaitingCallRegistry.mem_unregisterCall.mpr ⟨hin, hne⟩
    have hown : pending.On s.registry := hsound.known _ hmem pending List.mem_cons_self
    intro u hu p hp
    rcases mem_replace (t := Call.unregistering pending carried error) hu with rfl | ⟨hwhere, hold⟩
    · have hcarried := (live_returning carried (some pending) _).mem hp
      have hne := hclaims.rx_ne rfl (.inl hcarried)
      refine htaken p (h _ hmem p hcarried) (htickets.callId_ne ?_ hown hne)
      exact hsound.known _ hmem p (List.mem_cons_of_mem _ hcarried)
    · have hne := hclaims.rx_ne rfl (.inr ⟨u, hwhere, (live_sublist u).mem hp⟩)
      exact htaken p (h u hold p hp) (htickets.callId_ne (hon u hold p hp) hown hne)

theorem closed_quiet {s s' : Shared E} (hquiet : Quiet s s') (h : Closed s) : Closed s' := by
  obtain ⟨entries, hlog, hentries⟩ := hquiet.log
  intro c channel hchannel hmem
  rw [hquiet.registry] at hchannel
  rw [hquiet.told, hlog, firstFor_events hentries]
  exact h c channel hchannel hmem

/-- The loop is not through: nobody has been told. -/
theorem Closed.not_mem {s : Shared E} (h : Closed s) (htold : s.loop.told = false) {c : Nat}
    {channel : Channel} (hchannel : s.registry.channels[c]? = some channel) :
    Reply.connectionClosed ∉ channel.queue := by
  intro hmem
  have htrue := (h c channel hchannel hmem).2
  rw [htold] at htrue
  exact Bool.false_ne_true htrue

theorem closed_deliver {s : Shared E} {rx : Nat} {response : Response}
    (hloop : s.loop = .delivering rx response) (h : Closed s) :
    Closed { s with registry := s.registry.send rx (.response response), loop := .checking } := by
  have htold : s.loop.told = false := by
    rw [hloop]
    rfl
  intro c channel' hchannel' hmem
  obtain ⟨channel, hchannel, -, -⟩ :=
    channel_before (List.length_modify _ _ _) (keeps_send _ _ _) hchannel'
  have hsent := WaitingCallRegistry.channel_send rx (.response response) hchannel
  obtain rfl := Option.some.inj (hchannel'.symm.trans hsent)
  split at hmem
  · rcases List.mem_append.mp hmem with hold | hnew
    · exact absurd hold (h.not_mem htold hchannel)
    · exact absurd (List.mem_singleton.mp hnew) Reply.noConfusion
  · exact absurd hmem (h.not_mem htold hchannel)

theorem closed_cancel {s : Shared E} {threads : List Call} (hloop : s.loop = .cancelling)
    (hsound : Sound s threads) (h : Closed s) :
    Closed { s with registry := s.registry.cancelOutstandingMethodCalls, loop := .clearing } := by
  have htold : s.loop.told = false := by
    rw [hloop]
    rfl
  intro c channel' hchannel' hmem
  obtain ⟨channel, hchannel, -, -⟩ :=
    channel_before WaitingCallRegistry.length_channels_cancel (keeps_cancel _) hchannel'
  have htold' := WaitingCallRegistry.channel_cancel hchannel
  obtain rfl := Option.some.inj (hchannel'.symm.trans htold')
  refine ⟨?_, rfl⟩
  rcases List.mem_append.mp hmem with hold | hnew
  · exact absurd hold (h.not_mem htold hchannel)
  · -- only a sender that is still in the map is told
    have hpos := Nat.pos_of_ne_zero (List.mem_replicate.mp hnew).1
    obtain ⟨⟨id, c'⟩, hentry, hc⟩ := List.countP_pos_iff.mp hpos
    obtain rfl := beq_iff_eq.mp hc
    obtain ⟨found, hfound, -, hnone⟩ := hsound.entries id _ hentry
    obtain rfl := Option.some.inj (hfound.symm.trans hchannel)
    exact hnone

theorem closed_callMethod {choice : Choice} {s s' : Shared E} {t t' : Call}
    (hstep : callMethod protocol choice s t = some (s', t')) (h : Closed s) : Closed s' := by
  rcases callMethod_cases hstep with ⟨rfl, -⟩ | ⟨rfl, -⟩ |
    ⟨callId, pending, -, -, -, -, rfl, -⟩ | ⟨pending, carried, reply, -, -, rfl, -⟩ |
    ⟨pending, carried, error, -, rfl, -⟩
  · exact h
  · exact h
  · intro c channel hchannel hmem
    rcases WaitingCallRegistry.channel_of_registerCall hchannel with hold | ⟨-, rfl⟩
    · exact h c channel hold hmem
    · exact absurd hmem List.not_mem_nil
  · intro c channel' hchannel' hmem
    obtain ⟨channel, hchannel, hid, hsince⟩ :=
      channel_before (List.length_modify _ _ _) (keeps_tryRecv _ _) hchannel'
    have hread := WaitingCallRegistry.channel_tryRecv pending.rx hchannel
    obtain rfl := Option.some.inj (hchannel'.symm.trans hread)
    rw [firstFor_congr hid hsince]
    refine h c channel hchannel ?_
    split at hmem
    · exact List.mem_of_mem_tail hmem
    · exact hmem
  · exact h

/-! ## The invariant -/

/-- Everything that every reachable state has. -/
structure Inv (s : Shared E) (threads : List Call) : Prop where
  sound : Sound s threads
  claims : Claims threads
  closed : Closed s
  tickets : s.issued ≤ idSpace → Tickets s threads
  waits : s.issued ≤ idSpace → Waits s threads

/-- **Every step keeps the invariant**, one bullet a kind of step. -/
theorem inv_final (protocol : Protocol E) (actions : List (Action E)) {pool : Pool (Shared E) Call}
    (h : Inv pool.shared pool.threads) :
    Inv (History.final (step protocol) actions pool).shared
      (History.final (step protocol) actions pool).threads := by
  refine run_invariant (P := Inv) ?_ ?_ ?_ ?_ ?_ actions h
  · intro s s' threads hquiet hinv
    refine ⟨sound_quiet hquiet hinv.sound, hinv.claims, closed_quiet hquiet hinv.closed, ?_, ?_⟩
    · intro hissued
      rw [hquiet.issued] at hissued
      refine tickets_of_ids (hinv.tickets hissued) hquiet.counter hquiet.issued ?_
      rw [hquiet.registry]
    · intro hissued t ht p hp
      rw [hquiet.issued] at hissued
      exact awaited_quiet hquiet (hinv.waits hissued t ht p hp)
  · intro response s threads hdelivers htold hinv
    refine ⟨sound_resolve response hinv.sound, hinv.claims, ?_, ?_, ?_⟩
    · intro c channel hchannel hmem
      exact absurd hmem (hinv.closed.not_mem htold hchannel)
    · intro hissued
      exact tickets_of_ids (hinv.tickets hissued) rfl rfl rfl
    · intro hissued t ht p hp
      exact awaited_resolve response hinv.sound.keyed hdelivers (hinv.waits hissued t ht p hp)
  · intro rx response s threads hloop hinv
    refine ⟨sound_deliver hloop hinv.sound, hinv.claims, closed_deliver hloop hinv.closed, ?_, ?_⟩
    · intro hissued
      exact tickets_of_ids (hinv.tickets hissued) rfl rfl
        (ids_of_keeps (List.length_modify _ _ _) (keeps_send _ _ _))
    · intro hissued t ht p hp
      have hon := hinv.sound.known t ht p ((live_sublist t).mem hp)
      exact awaited_deliver hloop hon (hinv.waits hissued t ht p hp)
  · intro s threads hloop hinv
    refine ⟨sound_cancel hinv.sound, hinv.claims, closed_cancel hloop hinv.sound hinv.closed, ?_,
      ?_⟩
    · intro hissued
      exact tickets_of_ids (hinv.tickets hissued) rfl rfl
        (ids_of_keeps WaitingCallRegistry.length_channels_cancel (keeps_cancel _))
    · intro hissued t ht p hp
      have hon := hinv.sound.known t ht p ((live_sublist t).mem hp)
      exact .inr (.inr (queue_cancel hloop hon (hinv.waits hissued t ht p hp)))
  · intro choice s before t after s' t' hstep hinv
    have hissued_le : s.issued ≤ s'.issued := by
      rcases callMethod_cases hstep with ⟨rfl, -⟩ | ⟨rfl, -⟩ | ⟨_, _, -, -, -, -, rfl, -⟩ |
        ⟨_, _, _, -, -, rfl, -⟩ | ⟨_, _, _, -, rfl, -⟩
      · exact Nat.le_refl _
      · exact Nat.le_succ _
      · exact Nat.le_refl _
      · exact Nat.le_refl _
      · exact Nat.le_refl _
    refine ⟨sound_callMethod hstep hinv.sound, claims_callMethod hstep hinv.sound hinv.claims,
      closed_callMethod hstep hinv.closed, tickets_callMethod hstep hinv.tickets, ?_⟩
    intro hissued
    have hbefore := hissued_le.trans hissued
    exact waits_callMethod hstep hinv.sound hinv.claims (hinv.tickets hbefore) (hinv.waits hbefore)

theorem inv_after (protocol : Protocol E) (calls : List (Option String × (Json.Tree → Bool)))
    (actions : List (Action E)) :
    Inv (after protocol calls actions).shared (after protocol calls actions).threads := by
  refine inv_final protocol actions ⟨sound_start calls, ?_, ?_, fun _ => tickets_start calls, ?_⟩
  · intro c
    have hzero : weight (Call.holds c) (start (E := E) calls).threads = 0 := by
      rw [weight_eq_zero]
      intro t ht
      rw [Call.holds, (start_calls ht).2.1]
      rfl
    rw [hzero]
    exact Nat.zero_le _
  · intro c channel hchannel
    exact absurd hchannel (Option.some_ne_none _).symm
  · intro _ t ht p hp
    rw [(start_calls ht).2.2.1] at hp
    exact absurd hp List.not_mem_nil

/-! ## The theorems -/

/-- Two calls never hold one receiver. -/
theorem Claims.rx_ne_of_ne {threads : List Call} (h : Claims threads) {i j : Nat} (hij : i ≠ j)
    {t u : Call} (ht : threads[i]? = some t) (hu : threads[j]? = some u) {p q : Pending}
    (hp : p ∈ t.pendings) (hq : q ∈ u.pendings) : p.rx ≠ q.rx := by
  intro heq
  have hpair := (add_le_weight (f := Call.holds p.rx) hij ht hu).trans (h p.rx)
  have hfirst : 0 < t.holds p.rx := List.count_pos_iff.mpr (List.mem_map_of_mem hp)
  have hsecond : 0 < u.holds p.rx := by
    rw [heq]
    exact List.count_pos_iff.mpr (List.mem_map_of_mem hq)
  omega

/-- **Answers belong to their calls.**  In every interleaving, a call that returns an answer returns
    the first response with its id that the loop has taken since it registered, read by its own
    deserializer; and while the counter has not wrapped, the other calls have other ids. -/
theorem answered_with_first (protocol : Protocol E)
    (calls : List (Option String × (Json.Tree → Bool))) (actions : List (Action E)) {i : Nat}
    {p : Pending} {response : Response}
    (h : (after protocol calls actions).threads[i]? =
      some (.finished (some p) (.answered response))) :
    (∃ destination, calls[i]? = some (destination, p.accepts)) ∧
    parseResponse p.accepts response = .ok ∧
    (∃ channel : Channel,
      (after protocol calls actions).shared.registry.channels[p.rx]? = some channel ∧
      channel.callId = p.callId ∧
      firstFor (after protocol calls actions).shared.log channel = some response) ∧
    ((after protocol calls actions).shared.issued ≤ idSpace → ∀ (j : Nat) (u : Call), j ≠ i →
      (after protocol calls actions).threads[j]? = some u →
      ∀ q ∈ u.pendings, q.callId ≠ response.callId) := by
  have hinv := inv_after protocol calls actions
  have hmem := List.mem_of_getElem? h
  obtain ⟨channel, hchannel, hfirst, hparse⟩ := hinv.sound.answers _ hmem p response rfl
  have hon := hinv.sound.known _ hmem p List.mem_cons_self
  obtain ⟨found, hfound, hid⟩ := hon
  obtain rfl := Option.some.inj (hfound.symm.trans hchannel)
  refine ⟨own_after protocol calls actions i _ p.accepts h rfl, hparse,
    ⟨found, hchannel, hid, hfirst⟩, ?_⟩
  intro hissued j u hji hu q hq
  have hrx := hinv.claims.rx_ne_of_ne hji hu h hq List.mem_cons_self
  have hother := hinv.sound.known u (List.mem_of_getElem? hu) q hq
  have hne := (hinv.tickets hissued).callId_ne hother ⟨found, hfound, hid⟩ hrx
  rw [callId_of_firstFor hfirst, hid]
  exact hne

/-- A protocol that reads no message in a message and every acknowledgement. -/
def plain : Protocol Unit := ⟨fun _ => none, fun _ => true⟩

/-- An answer to the call with id 0. -/
def reply0 : Response := ⟨0, some .null, none⟩

/-- One call to the browser is made and waits, and its answer is taken out of the registry. -/
def toDelivery : List (Action Unit) :=
  [.call 0 .go, .call 0 .go, .call 0 .go, .call 0 .go, .arrive (.response reply0), .loop, .loop]

theorem answered_with_first_reply0 :
    ∃ destination, [((none : Option String), fun _ : Json.Tree => true)][0]? =
      some (destination, fun _ => true) := by
  have hanswered : (after plain [(none, fun _ => true)]
      (toDelivery ++ [.loop, .call 0 .go])).threads[0]? =
        some (.finished (some ⟨0, 0, fun _ => true⟩) (.answered reply0)) := rfl
  exact (answered_with_first plain _ _ hanswered).1

/-- **No answer is lost.**  While the counter has not wrapped, a response that the loop has taken
    for a call that still waits, or for the call that carries it, lies first in that call's queue,
    or the loop is about to put it there. -/
theorem response_reaches_call (protocol : Protocol E)
    (calls : List (Option String × (Json.Tree → Bool))) (actions : List (Action E))
    (hissued : (after protocol calls actions).shared.issued ≤ idSpace) {t : Call}
    (ht : t ∈ (after protocol calls actions).threads) {p : Pending} (hp : p ∈ t.live)
    (channel : Channel)
    (hchannel : (after protocol calls actions).shared.registry.channels[p.rx]? = some channel)
    (response : Response)
    (hfirst : firstFor (after protocol calls actions).shared.log channel = some response) :
    (after protocol calls actions).shared.loop = .delivering p.rx response ∨
      (after protocol calls actions).shared.registry.peek p.rx = some (.response response) := by
  have hinv := inv_after protocol calls actions
  rcases hinv.waits hissued t ht p hp with hentry | ⟨response', hdelivers⟩ | ⟨found, hfound, hqueue⟩
  · -- a sender that is in the map has nothing to send
    obtain ⟨found, hfound, -, hnone⟩ := hinv.sound.entries _ _ hentry
    obtain rfl := Option.some.inj (hfound.symm.trans hchannel)
    exact absurd (hnone.symm.trans hfirst) (Option.some_ne_none _).symm
  · left
    obtain ⟨found, hfound, hsome⟩ := hinv.sound.delivering _ _ hdelivers
    obtain rfl := Option.some.inj (hfound.symm.trans hchannel)
    obtain rfl := Option.some.inj (hsome.symm.trans hfirst)
    exact eq_of_delivers hdelivers
  · right
    obtain rfl := Option.some.inj (hfound.symm.trans hchannel)
    obtain ⟨reply, rest, hreply⟩ := List.exists_cons_of_ne_nil hqueue
    have hmem : reply ∈ found.queue := by
      rw [hreply]
      exact List.mem_cons_self
    rw [WaitingCallRegistry.peek, hchannel, Option.bind_some, hreply, List.head?_cons]
    cases reply with
    | response response' =>
      have hsome := hinv.sound.queues _ found response' hchannel hmem
      obtain rfl := Option.some.inj (hsome.symm.trans hfirst)
      rfl
    | connectionClosed =>
      have hnone := (hinv.closed _ found hchannel hmem).1
      exact absurd (hnone.symm.trans hfirst) (Option.some_ne_none _).symm

theorem response_reaches_call_reply0 :
    (after plain [(none, fun _ => true)] toDelivery).shared.loop = .delivering 0 reply0 ∨
      (after plain [(none, fun _ => true)] toDelivery).shared.registry.peek 0 =
        some (.response reply0) :=
  response_reaches_call plain [(none, fun _ => true)] toDelivery (by decide)
    (t := .waiting ⟨0, 0, fun _ => true⟩ none) List.mem_cons_self (p := ⟨0, 0, fun _ => true⟩)
    List.mem_cons_self ⟨0, 0, []⟩ rfl reply0 rfl

/-! ## The end -/

/-- Something lies in the queue of a registration. -/
def Queued (s : Shared E) (p : Pending) : Prop :=
  ∃ channel : Channel, s.registry.channels[p.rx]? = some channel ∧ channel.queue ≠ []

theorem peek_of_queued {s : Shared E} {p : Pending} (h : Queued s p) :
    s.registry.peek p.rx ≠ none := by
  obtain ⟨channel, hchannel, hqueue⟩ := h
  obtain ⟨reply, rest, hreply⟩ := List.exists_cons_of_ne_nil hqueue
  rw [WaitingCallRegistry.peek, hchannel, Option.bind_some, hreply, List.head?_cons]
  exact Option.some_ne_none _

/-- The loop never empties a queue. -/
theorem queued_loop {s : Shared E} {p : Pending} (h : Queued s p) :
    Queued (handleIncomingMessages protocol s) p := by
  obtain ⟨channel, hchannel, hqueue⟩ := h
  rcases handleIncomingMessages_cases protocol s with
    hquiet | ⟨response, s₀, hfirst, -, -, hnext⟩ | ⟨rx, response, -, hnext⟩ | ⟨-, hnext⟩
  · refine ⟨channel, ?_, hqueue⟩
    rw [hquiet.registry]
    exact hchannel
  · refine ⟨channel, ?_, hqueue⟩
    rw [hnext, resolveCall, WaitingCallRegistry.channels_unregisterCall, hfirst.registry]
    exact hchannel
  · rw [hnext]
    refine ⟨_, WaitingCallRegistry.channel_send _ _ hchannel, ?_⟩
    split
    · exact List.append_ne_nil_of_left_ne_nil hqueue _
    · exact hqueue
  · rw [hnext]
    exact ⟨_, WaitingCallRegistry.channel_cancel hchannel,
      List.append_ne_nil_of_left_ne_nil hqueue _⟩

/-- A step of another call empties no queue but the one it waits on. -/
theorem queued_other {choice : Choice} {s s' : Shared E} {t t' : Call} {p : Pending}
    (hstep : callMethod protocol choice s t = some (s', t'))
    (hne : ∀ q ∈ t.pendings, p.rx ≠ q.rx) (h : Queued s p) : Queued s' p := by
  obtain ⟨channel, hchannel, hqueue⟩ := h
  rcases callMethod_cases hstep with ⟨rfl, -⟩ | ⟨rfl, -⟩ | ⟨_, _, -, -, -, -, rfl, -⟩ |
    ⟨pending, carried, _, rfl, -, rfl, -⟩ | ⟨_, _, _, -, rfl, -⟩
  · exact ⟨channel, hchannel, hqueue⟩
  · exact ⟨channel, hchannel, hqueue⟩
  · exact ⟨channel, WaitingCallRegistry.channel_registerCall hchannel, hqueue⟩
  · refine ⟨channel, ?_, hqueue⟩
    rw [WaitingCallRegistry.channel_tryRecv _ hchannel,
      if_neg (Ne.symm (hne pending List.mem_cons_self))]
  · exact ⟨channel, hchannel, hqueue⟩

/-- A call that reads a queue waits on it no more. -/
theorem queued_own {choice : Choice} {s s' : Shared E} {t t' : Call} {p : Pending}
    (hstep : callMethod protocol choice s t = some (s', t')) (hholds : ∀ c, t.holds c ≤ 1)
    (hon : p.rx < s.registry.channels.length) (h : p ∈ t.live → Queued s p)
    (hp : p ∈ t'.live) : Queued s' p := by
  rcases callMethod_cases hstep with ⟨rfl, -, hdrops⟩ | ⟨rfl, -, hkept⟩ |
    ⟨callId, pending, -, -, hrx, -, rfl, -, hlive, -⟩ |
    ⟨pending, carried, reply, rfl, -, rfl, rfl⟩ | ⟨pending, carried, error, rfl, rfl, rfl⟩
  · exact h (hdrops.live.mem hp)
  · refine h ?_
    rcases hkept with hdrops | ⟨-, hlive, -⟩
    · exact hdrops.live.mem hp
    · rwa [hlive] at hp
  · rcases List.mem_cons.mp (hlive.mem hp) with rfl | hold
    · -- the new receiver is above all the others
      omega
    · obtain ⟨channel, hchannel, hqueue⟩ := h hold
      exact ⟨channel, WaitingCallRegistry.channel_registerCall hchannel, hqueue⟩
  · have hcarried := (live_returning carried (some pending) _).mem hp
    obtain ⟨channel, hchannel, hqueue⟩ := h (List.mem_cons_of_mem _ hcarried)
    refine ⟨channel, ?_, hqueue⟩
    have hne : pending.rx ≠ p.rx := by
      intro heq
      have htwice := hholds p.rx
      have hpos : 0 < (carried.toList.map Pending.rx).count p.rx :=
        List.count_pos_iff.mpr (List.mem_map_of_mem hcarried)
      rw [Call.holds, Call.pendings, List.map_cons, heq, List.count_cons_self] at htwice
      omega
    rw [WaitingCallRegistry.channel_tryRecv _ hchannel, if_neg hne]
  · exact h ((live_returning carried (some pending) _).mem hp)

theorem keeps_callMethod {choice : Choice} {s s' : Shared E} {t t' : Call}
    (hstep : callMethod protocol choice s t = some (s', t')) : Keeps s.registry s'.registry := by
  rcases callMethod_cases hstep with ⟨rfl, -⟩ | ⟨rfl, -⟩ | ⟨_, _, -, -, -, -, rfl, -⟩ |
    ⟨_, _, _, -, -, rfl, -⟩ | ⟨_, _, _, -, rfl, -⟩
  · exact keeps_refl _
  · exact keeps_refl _
  · exact keeps_registerCall _ _ _
  · exact keeps_tryRecv _ _
  · exact keeps_refl _

theorem keeps_loop (protocol : Protocol E) (s : Shared E) :
    Keeps s.registry (handleIncomingMessages protocol s).registry := by
  rcases handleIncomingMessages_cases protocol s with
    hquiet | ⟨response, s₀, hfirst, -, -, hnext⟩ | ⟨rx, response, -, hnext⟩ | ⟨-, hnext⟩
  · rw [hquiet.registry]
    exact keeps_refl _
  · rw [hnext, resolveCall, hfirst.registry]
    exact keeps_refl _
  · rw [hnext]
    exact keeps_send _ _ _
  · rw [hnext]
    exact keeps_cancel _

/-- What is queued for a call, if it waits for it. -/
structure Kept (p : Pending) (i : Nat) (pool : Pool (Shared E) Call) : Prop where
  inv : Inv pool.shared pool.threads
  on : p.On pool.shared.registry
  queued : ∀ t, pool.threads[i]? = some t → p ∈ t.live → Queued pool.shared p

theorem kept_move {p : Pending} {i k : Nat} {choice : Choice} {pool : Pool (Shared E) Call}
    (hinv : Inv (move (callMethod protocol choice) k pool).shared
      (move (callMethod protocol choice) k pool).threads)
    (h : Kept p i pool) : Kept p i (move (callMethod protocol choice) k pool) := by
  rcases move_cases (callMethod protocol choice) k pool with
    ⟨-, hstill⟩ | ⟨before, u, after, s', u', hthreads, hk, hstep, hnext⟩
  · rw [hstill]
    exact h
  · refine ⟨hinv, ?_, ?_⟩
    · rw [hnext]
      exact h.on.mono (keeps_callMethod hstep)
    · have hu : pool.threads[k]? = some u := by
        rw [hthreads, ← hk]
        simp
      intro t ht hp
      by_cases hi : k = i
      · -- the call itself: what it has read it waits for no more
        have hself : (move (callMethod protocol choice) k pool).threads[k]? = some u' := by
          rw [hnext, ← hk]
          simp
        rw [← hi] at ht
        obtain rfl := Option.some.inj (hself.symm.trans ht)
        rw [hnext]
        refine queued_own hstep ?_ (rx_lt h.on) (h.queued u (hi ▸ hu)) hp
        intro c
        exact (le_weight (List.mem_of_getElem? hu)).trans (h.inv.claims c)
      · -- another one: it waits on other channels
        rw [getElem?_move_of_ne (callMethod protocol choice) hi] at ht
        rw [hnext]
        refine queued_other hstep ?_ (h.queued t ht hp)
        intro q hq
        exact h.inv.claims.rx_ne_of_ne (Ne.symm hi) ht hu ((live_sublist t).mem hp) hq

/-- **What lies in a queue stays there** until the call that waits on it reads it. -/
theorem kept_final (actions : List (Action E)) {p : Pending} {i : Nat}
    {pool : Pool (Shared E) Call} (h : Kept p i pool) :
    Kept p i (History.final (step protocol) actions pool) := by
  refine History.final_induction ?_ actions h
  intro action pool hpool
  have hinv := inv_final protocol [action] hpool.inv
  have hquiet := quiet_outside action pool.shared
  have houtside : p.On (outside action pool.shared).registry ∧
      ∀ t, pool.threads[i]? = some t → p ∈ t.live → Queued (outside action pool.shared) p := by
    rw [Queued, hquiet.registry]
    exact ⟨hpool.on, hpool.queued⟩
  cases action with
  | call k choice => exact kept_move hinv hpool
  | loop =>
    refine ⟨hinv, hpool.on.mono (keeps_loop protocol pool.shared), ?_⟩
    intro t ht hp
    exact queued_loop (hpool.queued t ht hp)
  | timeout => exact ⟨hinv, houtside.1, houtside.2⟩
  | arrive message => exact ⟨hinv, houtside.1, houtside.2⟩
  | shutdown => exact ⟨hinv, houtside.1, houtside.2⟩
  | drop => exact ⟨hinv, houtside.1, houtside.2⟩
  | listen id => exact ⟨hinv, houtside.1, houtside.2⟩
  | close k => exact ⟨hinv, houtside.1, houtside.2⟩

/-- **Nobody waits for a closed connection.**  While the counter has not wrapped, every call that
    holds a registration when the loop tells the waiting calls has something to read from then on,
    until it has read it. -/
theorem end_reaches_calls (protocol : Protocol E)
    (calls : List (Option String × (Json.Tree → Bool))) (actions more : List (Action E))
    (hissued : (after protocol calls actions).shared.issued ≤ idSpace)
    (hloop : (after protocol calls actions).shared.loop = .cancelling) {i : Nat} {t t' : Call}
    (ht : (after protocol calls actions).threads[i]? = some t) {p : Pending} (hp : p ∈ t.live)
    (ht' : (after protocol calls (actions ++ .loop :: more)).threads[i]? = some t')
    (hp' : p ∈ t'.live) :
    (after protocol calls (actions ++ .loop :: more)).shared.registry.peek p.rx ≠ none := by
  have hinv := inv_after protocol calls actions
  have hon := hinv.sound.known t (List.mem_of_getElem? ht) p ((live_sublist t).mem hp)
  have hawaited := hinv.waits hissued t (List.mem_of_getElem? ht) p hp
  rw [after, History.final_append] at ht' ⊢
  rw [History.final] at ht' ⊢
  refine peek_of_queued ((kept_final more ?_).queued t' ht' hp')
  refine ⟨inv_final protocol [.loop] hinv, hon.mono (keeps_loop protocol _), ?_⟩
  intro _ _ _
  have htold := queue_cancel hloop hon hawaited
  change Queued (handleIncomingMessages protocol (after protocol calls actions).shared) p
  rw [handleIncomingMessages, hloop]
  exact htold

/-- One call to the browser waits when the transport is shut down. -/
def toCancel : List (Action Unit) :=
  [.call 0 .go, .call 0 .go, .call 0 .go, .call 0 .go, .shutdown, .loop, .loop]

theorem end_reaches_calls_one :
    (after plain [(none, fun _ => true)] (toCancel ++ .loop :: [])).shared.registry.peek 0 ≠
      none := by
  have hbefore : (after plain [(none, fun _ => true)] toCancel).threads[0]? =
      some (.waiting ⟨0, 0, fun _ => true⟩ none) := rfl
  have hafter : (after plain [(none, fun _ => true)] (toCancel ++ .loop :: [])).threads[0]? =
      some (.waiting ⟨0, 0, fun _ => true⟩ none) := rfl
  exact end_reaches_calls plain _ toCancel [] (by decide) rfl hbefore List.mem_cons_self hafter
    List.mem_cons_self

end Basecrawl.Cdp
