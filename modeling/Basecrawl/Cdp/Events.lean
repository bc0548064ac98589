/-
  Events of the DevTools transport, and the life of its loop.

  1. **What has been handled** — the log of a run is what the messages taken so far say, in the
     order in which they arrived (`Logged`).
  2. **Listeners** — a listener is sent the events of its session in order and without a gap, all of
     them while it is registered and listens.
  3. **The loop** — only a shutdown, a dropped transport, a silence, the end of the connection or a
     listener that went away ends it; no response and no caller does.
-/
import Basecrawl.Cdp.Transport
import Mathlib.Data.List.Nodup

namespace Basecrawl.Cdp

open Threads
open scoped List

variable {E : Type} {protocol : Protocol E}

/-! ## What has been handled -/

/-- What the loop makes of a message. -/
def Protocol.entry (protocol : Protocol E) : Message E → Option (Entry E)
  | .connectionShutdown => none
  | .response response => some (.response response)
  | .event (.receivedMessageFromTarget sessionId raw) =>
      match protocol.parseRawMessage raw with
      | some (.event event) => some (.event (.sessionId sessionId) event)
      | some (.response response) => some (.response response)
      | some .connectionShutdown => none
      | none => none
  | .event (.other event) => some (.event .browser (.other event))

/-- The message that arrives, if one does. -/
def Action.arrival : Action E → Option (Message E)
  | .arrive message => some message
  | _ => none

/-- The messages that arrive in a run. -/
def arrivals (actions : List (Action E)) : List (Message E) := actions.filterMap Action.arrival

theorem log_emit (id : ListenerId) (event : Event E) (s : Shared E) :
    (emit id event s).log = s.log ++ [.event id event] ∧ (emit id event s).inbox = s.inbox := by
  rw [emit]
  split
  · exact ⟨rfl, rfl⟩
  · split
    · exact ⟨rfl, rfl⟩
    · exact ⟨rfl, rfl⟩

theorem log_handleMessage (protocol : Protocol E) (message : Message E) (s : Shared E) :
    (handleMessage protocol message s).log = s.log ++ (protocol.entry message).toList ∧
      (handleMessage protocol message s).inbox = s.inbox := by
  cases message with
  | connectionShutdown => exact ⟨(List.append_nil _).symm, rfl⟩
  | response response => exact ⟨rfl, rfl⟩
  | event event =>
    cases event with
    | other event => exact log_emit _ _ s
    | receivedMessageFromTarget sessionId raw =>
      simp only [handleMessage, Protocol.entry]
      cases protocol.parseRawMessage raw with
      | none => exact ⟨(List.append_nil _).symm, rfl⟩
      | some message =>
        cases message with
        | event event => exact log_emit _ _ s
        | response response => exact ⟨rfl, rfl⟩
        | connectionShutdown => exact ⟨(List.append_nil _).symm, rfl⟩

/-- The messages of a run are the ones taken, which the log lists, and the ones in the inbox. -/
def Logged (protocol : Protocol E) (arrived : List (Message E)) (s : Shared E) : Prop :=
  ∃ taken, arrived = taken ++ s.inbox ∧ s.log = taken.filterMap protocol.entry

theorem logged_loop {arrived : List (Message E)} {s : Shared E} (h : Logged protocol arrived s) :
    Logged protocol arrived (handleIncomingMessages protocol s) := by
  obtain ⟨taken, harrived, hlog⟩ := h
  cases hloop : s.loop with
  | receiving =>
    cases hinbox : s.inbox with
    | nil =>
      simp only [handleIncomingMessages, hloop, hinbox]
      exact ⟨taken, harrived, hlog⟩
    | cons message rest =>
      simp only [handleIncomingMessages, hloop, hinbox]
      obtain ⟨hlog', hinbox'⟩ := log_handleMessage protocol message { s with inbox := rest }
      rw [hloop] at hlog' hinbox'
      refine ⟨taken ++ [message], ?_, ?_⟩
      · rw [hinbox', harrived, hinbox, List.append_assoc]
        rfl
      · rw [hlog', List.filterMap_append, ← hlog]
        cases hentry : protocol.entry message with
        | none => simp [hentry]
        | some entry => simp [hentry]
  | checking =>
    simp only [handleIncomingMessages, hloop]
    split
    · exact ⟨taken, harrived, hlog⟩
    · split
      · exact ⟨taken, harrived, hlog⟩
      · exact ⟨taken, harrived, hlog⟩
  | delivering rx response =>
    simp only [handleIncomingMessages, hloop]
    exact ⟨taken, harrived, hlog⟩
  | closing =>
    simp only [handleIncomingMessages, hloop]
    exact ⟨taken, harrived, hlog⟩
  | cancelling =>
    simp only [handleIncomingMessages, hloop]
    exact ⟨taken, harrived, hlog⟩
  | clearing =>
    simp only [handleIncomingMessages, hloop]
    exact ⟨taken, harrived, hlog⟩
  | ended =>
    simp only [handleIncomingMessages, hloop]
    exact ⟨taken, harrived, hlog⟩

/-- A call changes the counter and the registry only. -/
theorem callMethod_frame {choice : Choice} {s s' : Shared E} {t t' : Call}
    (h : callMethod protocol choice s t = some (s', t')) :
    ∃ counter issued registry,
      s' = { s with counter := counter, issued := issued, registry := registry } := by
  rcases callMethod_cases h with ⟨rfl, -⟩ | ⟨rfl, -⟩ | ⟨_, _, -, -, -, -, rfl, -⟩ |
    ⟨_, _, _, -, -, rfl, -⟩ | ⟨_, _, _, -, rfl, -⟩
  · exact ⟨_, _, _, rfl⟩
  · exact ⟨_, _, _, rfl⟩
  · exact ⟨_, _, _, rfl⟩
  · exact ⟨_, _, _, rfl⟩
  · exact ⟨_, _, _, rfl⟩

/-- What a property needs to hold after every run, if the counter and the registry are no part of
    it. -/
theorem shared_step {P Q : Shared E → Prop} {action : Action E} {pool : Pool (Shared E) Call}
    (hcall : ∀ i choice s counter issued registry, action = .call i choice → P s →
      Q { s with counter := counter, issued := issued, registry := registry })
    (hloop : action = .loop → P pool.shared → Q (handleIncomingMessages protocol pool.shared))
    (houtside : P pool.shared → Q (outside action pool.shared)) (h : P pool.shared) :
    Q (step protocol action pool).2.shared := by
  cases action with
  | call i choice =>
    simp only [step]
    rcases move_cases (callMethod protocol choice) i pool with
      ⟨-, hstill⟩ | ⟨before, t, after, s', t', -, -, hstep, hnext⟩
    · rw [hstill]
      exact hcall i choice pool.shared pool.shared.counter pool.shared.issued
        pool.shared.registry rfl h
    · rw [hnext]
      obtain ⟨counter, issued, registry, rfl⟩ := callMethod_frame hstep
      exact hcall i choice _ _ _ _ rfl h
  | loop => exact hloop rfl h
  | timeout => exact houtside h
  | arrive message => exact houtside h
  | shutdown => exact houtside h
  | drop => exact houtside h
  | listen id => exact houtside h
  | close k => exact houtside h

theorem logged_outside {action : Action E} {arrived : List (Message E)} {s : Shared E}
    (h : Logged protocol arrived s) :
    Logged protocol (arrived ++ action.arrival.toList) (outside action s) := by
  obtain ⟨taken, harrived, hlog⟩ := h
  have hkept : arrived ++ [] = taken ++ s.inbox := (List.append_nil _).trans harrived
  cases action with
  | arrive message =>
    refine ⟨taken, ?_, hlog⟩
    rw [harrived, List.append_assoc]
    rfl
  | timeout =>
    simp only [outside]
    split
    · exact ⟨taken, hkept, hlog⟩
    · exact ⟨taken, hkept, hlog⟩
  | shutdown =>
    simp only [outside]
    split
    · exact ⟨taken, hkept, hlog⟩
    · exact ⟨taken, hkept, hlog⟩
  | call i choice => exact ⟨taken, hkept, hlog⟩
  | loop => exact ⟨taken, hkept, hlog⟩
  | drop => exact ⟨taken, hkept, hlog⟩
  | listen id => exact ⟨taken, hkept, hlog⟩
  | close k => exact ⟨taken, hkept, hlog⟩

theorem logged_step (action : Action E) {arrived : List (Message E)}
    {pool : Pool (Shared E) Call} (h : Logged protocol arrived pool.shared) :
    Logged protocol (arrived ++ action.arrival.toList) (step protocol action pool).2.shared := by
  refine shared_step (P := fun s => Logged protocol arrived s)
    (Q := fun s => Logged protocol (arrived ++ action.arrival.toList) s) ?_ ?_ logged_outside h
  · intro i choice s counter issued registry haction hlogged
    rw [haction]
    exact (List.append_nil arrived).symm ▸ hlogged
  · intro haction hlogged
    rw [haction]
    exact (List.append_nil arrived).symm ▸ logged_loop hlogged

theorem logged_final : ∀ (actions : List (Action E)) {arrived : List (Message E)}
    {pool : Pool (Shared E) Call}, Logged protocol arrived pool.shared →
      Logged protocol (arrived ++ arrivals actions)
        (History.final (step protocol) actions pool).shared
  | [], arrived, pool, h => by
      rw [arrivals, List.filterMap_nil, List.append_nil]
      exact h
  | action :: actions, arrived, pool, h => by
      have hrest := logged_final actions (logged_step action h)
      rw [List.append_assoc] at hrest
      have hcons : arrivals (action :: actions) = action.arrival.toList ++ arrivals actions := by
        rw [arrivals, List.filterMap_cons]
        cases action.arrival with
        | none => rfl
        | some message => rfl
      rw [hcons]
      exact hrest

/-! ## Listeners -/

def Entry.event? (id : ListenerId) : Entry E → Option (Event E)
  | .response _ => none
  | .event id' e => if id' = id then some e else none

/-- The events of the listener's session that the loop has taken since it registered. -/
def eventsFor (log : List (Entry E)) (channel : EventChannel E) : List (Event E) :=
  (log.drop channel.since).filterMap (Entry.event? channel.id)

theorem eventsFor_append {log : List (Entry E)} {channel : EventChannel E}
    (hsince : channel.since ≤ log.length) (entry : Entry E) :
    eventsFor (log ++ [entry]) channel =
      eventsFor log channel ++ (entry.event? channel.id).toList := by
  rw [eventsFor, List.drop_append, Nat.sub_eq_zero_of_le hsince, List.drop_zero,
    List.filterMap_append]
  cases hentry : entry.event? channel.id with
  | none => simp [hentry, eventsFor]
  | some event => simp [hentry, eventsFor]

/-- A map with one entry a key. -/
theorem eq_of_keyed {κ β : Type} {entries : List (κ × β)} (h : (entries.map Prod.fst).Nodup)
    {key : κ} {a b : β} (ha : (key, a) ∈ entries) (hb : (key, b) ∈ entries) : a = b := by
  have heq := List.inj_on_of_nodup_map h ha hb rfl
  exact (Prod.mk.inj heq).2

/-- What the listeners have been sent. -/
structure Heard (s : Shared E) : Prop where
  keyed : (s.listeners.map Prod.fst).Nodup
  since : ∀ (k : Nat) (channel : EventChannel E), s.eventChannels[k]? = some channel →
    channel.since ≤ s.log.length
  sent : ∀ (k : Nat) (channel : EventChannel E), s.eventChannels[k]? = some channel →
    channel.sent <+: eventsFor s.log channel
  listed : ∀ id k, (id, k) ∈ s.listeners → ∃ channel : EventChannel E,
    s.eventChannels[k]? = some channel ∧ channel.id = id ∧
      (channel.closed = false → channel.sent = eventsFor s.log channel)

/-- What is handled without being sent: nobody listens to it any more. -/
theorem heard_unsent {s s' : Shared E} {entry : Entry E} (h : Heard s)
    (hlog : s'.log = s.log ++ [entry]) (hlisteners : s'.listeners = s.listeners)
    (hchannels : s'.eventChannels = s.eventChannels)
    (hskip : ∀ id k (channel : EventChannel E), (id, k) ∈ s.listeners →
      s.eventChannels[k]? = some channel → (entry.event? id).isSome → channel.closed = true) :
    Heard s' := by
  refine ⟨hlisteners ▸ h.keyed, ?_, ?_, ?_⟩
  · rw [hchannels, hlog, List.length_append]
    intro k channel hchannel
    exact (h.since k channel hchannel).trans (Nat.le_add_right _ _)
  · rw [hchannels, hlog]
    intro k channel hchannel
    rw [eventsFor_append (h.since k channel hchannel)]
    exact (h.sent k channel hchannel).trans (List.prefix_append _ _)
  · rw [hchannels, hlisteners, hlog]
    intro id k hmem
    obtain ⟨channel, hchannel, hid, hsent⟩ := h.listed id k hmem
    refine ⟨channel, hchannel, hid, ?_⟩
    intro hopen
    rw [eventsFor_append (h.since k channel hchannel), hid]
    cases hevent : entry.event? id with
    | none => exact (hsent hopen).trans (List.append_nil _).symm
    | some event =>
      have hclosed := hskip id k channel hmem hchannel (Option.isSome_iff_exists.mpr ⟨_, hevent⟩)
      exact absurd (hopen.symm.trans hclosed) Bool.false_ne_true

/-- The event is sent to the one listener of its session. -/
theorem heard_sent {s s' : Shared E} {id : ListenerId} {event : Event E} {k : Nat} (h : Heard s)
    (hlisted : (id, k) ∈ s.listeners)
    (hopen : ∀ channel : EventChannel E, s.eventChannels[k]? = some channel →
      channel.closed = false)
    (hlog : s'.log = s.log ++ [.event id event]) (hlisteners : s'.listeners = s.listeners)
    (hchannels : s'.eventChannels = s.eventChannels.modify k (EventChannel.push event)) :
    Heard s' := by
  obtain ⟨listener, hlistener, hid, hsent⟩ := h.listed id k hlisted
  have hself : (Entry.event id event).event? id = some event := if_pos rfl
  -- the channels after the step, each with the one it was
  have hbefore : ∀ (k' : Nat) (channel' : EventChannel E), s'.eventChannels[k']? = some channel' →
      ∃ channel, s.eventChannels[k']? = some channel ∧
        channel' = if k = k' then channel.push event else channel := by
    intro k' channel' hchannel'
    rw [hchannels, List.getElem?_modify] at hchannel'
    obtain ⟨channel, hchannel, rfl⟩ := Option.map_eq_some_iff.mp hchannel'
    exact ⟨channel, hchannel, rfl⟩
  have hevents : eventsFor s'.log (listener.push event) = eventsFor s.log listener ++ [event] := by
    rw [hlog]
    have happend := eventsFor_append (h.since k listener hlistener) (.event id event)
    refine Eq.trans happend ?_
    rw [hid, hself]
    rfl
  have hequal : (listener.push event).sent = eventsFor s'.log (listener.push event) := by
    rw [hevents, ← hsent (hopen listener hlistener)]
    rfl
  refine ⟨hlisteners ▸ h.keyed, ?_, ?_, ?_⟩
  · intro k' channel' hchannel'
    obtain ⟨channel, hchannel, rfl⟩ := hbefore k' channel' hchannel'
    have hold := h.since k' channel hchannel
    rw [hlog, List.length_append]
    split
    · exact hold.trans (Nat.le_add_right _ _)
    · exact hold.trans (Nat.le_add_right _ _)
  · intro k' channel' hchannel'
    obtain ⟨channel, hchannel, rfl⟩ := hbefore k' channel' hchannel'
    split
    · rename_i hk
      subst hk
      obtain rfl := Option.some.inj (hlistener.symm.trans hchannel)
      exact ⟨[], (List.append_nil _).trans hequal⟩
    · rw [hlog, eventsFor_append (h.since k' channel hchannel)]
      exact (h.sent k' channel hchannel).trans (List.prefix_append _ _)
  · rw [hlisteners]
    intro id' k' hmem
    obtain ⟨channel, hchannel, hid', hsent'⟩ := h.listed id' k' hmem
    have hafter : s'.eventChannels[k']? =
        some (if k = k' then channel.push event else channel) := by
      rw [hchannels, List.getElem?_modify, hchannel]
      rfl
    refine ⟨_, hafter, ?_, ?_⟩
    · split
      · exact hid'
      · exact hid'
    · intro hclosed
      by_cases hk : k = k'
      · subst hk
        obtain rfl := Option.some.inj (hlistener.symm.trans hchannel)
        rw [if_pos rfl]
        exact hequal
      · rw [if_neg hk] at hclosed ⊢
        -- another place in the map has another session
        have hne : id ≠ id' := by
          intro heq
          subst heq
          exact hk (eq_of_keyed h.keyed hlisted hmem)
        rw [hlog, eventsFor_append (h.since k' channel hchannel), hid']
        have hnone : (Entry.event id event).event? id' = none := if_neg hne
        rw [hnone]
        exact (hsent' hclosed).trans (List.append_nil _).symm

/-- An event goes to the listener of its session, if there is one that listens. -/
theorem heard_emit {s : Shared E} (id : ListenerId) (event : Event E) (h : Heard s) :
    Heard (emit id event s) := by
  have hsame : ∀ id', ((Entry.event id event).event? id').isSome → id = id' := by
    intro id' hsome
    by_contra hne
    rw [Entry.event?, if_neg hne] at hsome
    exact absurd hsome Bool.false_ne_true
  rw [emit]
  split
  · rename_i hlookup
    refine heard_unsent h rfl rfl rfl ?_
    intro id' k channel hmem _ hsome
    have hnone := (List.lookup_eq_none_iff.mp hlookup) _ hmem
    rw [hsame id' hsome] at hnone
    simp at hnone
  · rename_i k hlookup
    have hlisted : (id, k) ∈ s.listeners := by
      obtain ⟨before, after, hsplit, -⟩ := List.lookup_eq_some_iff.mp hlookup
      rw [hsplit]
      exact List.mem_append_right _ List.mem_cons_self
    split
    · rename_i hclosed
      refine heard_unsent h rfl rfl rfl ?_
      intro id' k' channel hmem hchannel hsome
      have hid := hsame id' hsome
      subst hid
      obtain rfl := eq_of_keyed h.keyed hlisted hmem
      rw [hchannel] at hclosed
      exact hclosed
    · rename_i hopen
      refine heard_sent h hlisted ?_ rfl rfl rfl
      intro channel hchannel
      rw [hchannel] at hopen
      exact Bool.eq_false_iff.mpr hopen

theorem heard_congr {s s' : Shared E} (h : Heard s) (hlog : s'.log = s.log)
    (hlisteners : s'.listeners = s.listeners) (hchannels : s'.eventChannels = s.eventChannels) :
    Heard s' := by
  refine ⟨hlisteners ▸ h.keyed, ?_, ?_, ?_⟩
  · rw [hchannels, hlog]
    exact h.since
  · rw [hchannels, hlog]
    exact h.sent
  · rw [hlisteners, hchannels, hlog]
    exact h.listed

theorem heard_resolve {s : Shared E} (response : Response) (h : Heard s) :
    Heard (resolveCall response s) := by
  refine heard_unsent h rfl rfl rfl ?_
  intro id k channel _ _ hsome
  exact absurd hsome Bool.false_ne_true

theorem heard_handleMessage {s : Shared E} (message : Message E) (h : Heard s) :
    Heard (handleMessage protocol message s) := by
  cases message with
  | connectionShutdown => exact heard_congr h rfl rfl rfl
  | response response => exact heard_resolve response h
  | event event =>
    cases event with
    | other event => exact heard_emit _ _ h
    | receivedMessageFromTarget sessionId raw =>
      simp only [handleMessage]
      split
      · exact heard_emit _ _ h
      · exact heard_resolve _ h
      · exact heard_congr h rfl rfl rfl
      · exact heard_congr h rfl rfl rfl

theorem heard_loop {s : Shared E} (h : Heard s) : Heard (handleIncomingMessages protocol s) := by
  cases hloop : s.loop with
  | receiving =>
    cases hinbox : s.inbox with
    | nil =>
      simp only [handleIncomingMessages, hloop, hinbox]
      exact h
    | cons message rest =>
      simp only [handleIncomingMessages, hloop, hinbox]
      exact heard_handleMessage message (heard_congr h rfl rfl rfl)
  | checking =>
    simp only [handleIncomingMessages, hloop]
    split
    · exact heard_congr h rfl rfl rfl
    · split
      · exact heard_congr h rfl rfl rfl
      · exact heard_congr h rfl rfl rfl
  | delivering rx response =>
    simp only [handleIncomingMessages, hloop]
    exact heard_congr h rfl rfl rfl
  | closing =>
    simp only [handleIncomingMessages, hloop]
    exact heard_congr h rfl rfl rfl
  | cancelling =>
    simp only [handleIncomingMessages, hloop]
    exact heard_congr h rfl rfl rfl
  | clearing =>
    simp only [handleIncomingMessages, hloop]
    refine ⟨List.nodup_nil, h.since, h.sent, ?_⟩
    intro id k hmem
    exact absurd hmem List.not_mem_nil
  | ended =>
    simp only [handleIncomingMessages, hloop]
    exact h

/-- A new listener has heard nothing, and takes the place of the old one. -/
theorem heard_listen {s : Shared E} (id : ListenerId) (h : Heard s) :
    Heard (outside (.listen id) s) := by
  have hnew : ∀ (k : Nat) (channel : EventChannel E),
      (s.eventChannels ++ [⟨id, s.log.length, [], false⟩])[k]? = some channel →
      s.eventChannels[k]? = some channel ∨ channel = ⟨id, s.log.length, [], false⟩ := by
    intro k channel hchannel
    by_cases hlt : k < s.eventChannels.length
    · left
      rwa [List.getElem?_append_left hlt] at hchannel
    · right
      rw [List.getElem?_append_right (Nat.le_of_not_lt hlt)] at hchannel
      exact List.mem_singleton.mp (List.mem_of_getElem? hchannel)
  have hnothing : eventsFor s.log (⟨id, s.log.length, [], false⟩ : EventChannel E) = [] := by
    rw [eventsFor, List.drop_length]
    rfl
  refine ⟨?_, ?_, ?_, ?_⟩
  · refine List.nodup_cons.mpr ⟨?_, (List.filter_sublist.map Prod.fst).nodup h.keyed⟩
    intro hmem
    obtain ⟨entry, hentry, heq⟩ := List.mem_map.mp hmem
    exact absurd heq (bne_iff_ne.mp (List.mem_filter.mp hentry).2)
  · intro k channel hchannel
    rcases hnew k channel hchannel with hold | rfl
    · exact h.since k channel hold
    · exact Nat.le_refl _
  · intro k channel hchannel
    rcases hnew k channel hchannel with hold | rfl
    · exact h.sent k channel hold
    · exact List.nil_prefix
  · intro id' k hmem
    rcases List.mem_cons.mp hmem with heq | hold
    · obtain ⟨rfl, rfl⟩ := Prod.mk.inj heq
      refine ⟨⟨id', s.log.length, [], false⟩, ?_, rfl, fun _ => hnothing.symm⟩
      simp only [outside]
      rw [List.getElem?_append_right (Nat.le_refl _), Nat.sub_self]
      rfl
    · obtain ⟨channel, hchannel, hrest⟩ := h.listed id' k (List.mem_filter.mp hold).1
      obtain ⟨hlt, -⟩ := List.getElem?_eq_some_iff.mp hchannel
      refine ⟨channel, ?_, hrest⟩
      simp only [outside]
      rw [List.getElem?_append_left hlt, hchannel]

theorem heard_close {s : Shared E} (k : Nat) (h : Heard s) : Heard (outside (.close k) s) := by
  have hbefore : ∀ (k' : Nat) (channel' : EventChannel E),
      (s.eventChannels.modify k EventChannel.close)[k']? = some channel' →
      ∃ channel, s.eventChannels[k']? = some channel ∧ channel'.since = channel.since ∧
        channel'.sent = channel.sent ∧ eventsFor s.log channel' = eventsFor s.log channel := by
    intro k' channel' hchannel'
    rw [List.getElem?_modify] at hchannel'
    obtain ⟨channel, hchannel, rfl⟩ := Option.map_eq_some_iff.mp hchannel'
    refine ⟨channel, hchannel, ?_⟩
    split
    · exact ⟨rfl, rfl, rfl⟩
    · exact ⟨rfl, rfl, rfl⟩
  refine ⟨h.keyed, ?_, ?_, ?_⟩
  · intro k' channel' hchannel'
    obtain ⟨channel, hchannel, hsince, -, -⟩ := hbefore k' channel' hchannel'
    rw [hsince]
    exact h.since k' channel hchannel
  · intro k' channel' hchannel'
    obtain ⟨channel, hchannel, -, hsent, hevents⟩ := hbefore k' channel' hchannel'
    rw [hsent]
    exact hevents ▸ h.sent k' channel hchannel
  · intro id k' hmem
    obtain ⟨channel, hchannel, hid, hsent⟩ := h.listed id k' hmem
    refine ⟨if k = k' then channel.close else channel, ?_, ?_, ?_⟩
    · simp only [outside]
      rw [List.getElem?_modify, hchannel]
      rfl
    · split
      · exact hid
      · exact hid
    · intro hopen
      split at hopen
      · exact absurd hopen Bool.true_eq_false.mp
      · rename_i hk
        rw [if_neg hk]
        exact hsent hopen

theorem heard_outside (action : Action E) {s : Shared E} (h : Heard s) :
    Heard (outside action s) := by
  cases action with
  | listen id => exact heard_listen id h
  | close k => exact heard_close k h
  | timeout =>
    simp only [outside]
    split
    · exact heard_congr h rfl rfl rfl
    · exact h
  | shutdown =>
    simp only [outside]
    split
    · exact heard_congr h rfl rfl rfl
    · exact h
  | call i choice => exact h
  | loop => exact h
  | arrive message => exact heard_congr h rfl rfl rfl
  | drop => exact heard_congr h rfl rfl rfl

theorem heard_after (protocol : Protocol E) (calls : List (Option String × (Json.Tree → Bool)))
    (actions : List (Action E)) : Heard (after protocol calls actions).shared := by
  refine History.final_induction (P := fun pool : Pool (Shared E) Call => Heard pool.shared)
    ?_ actions ?_
  · intro action pool h
    refine shared_step ?_ (fun _ => heard_loop) (heard_outside action) h
    intro i choice s counter issued registry _ hheard
    exact heard_congr hheard rfl rfl rfl
  · refine ⟨List.nodup_nil, ?_, ?_, ?_⟩
    · intro k channel hchannel
      exact absurd hchannel (Option.some_ne_none _).symm
    · intro k channel hchannel
      exact absurd hchannel (Option.some_ne_none _).symm
    · intro id k hmem
      exact absurd hmem List.not_mem_nil

/-- **Listeners hear their session.**  In every interleaving, what the loop has handled is what the
    messages it has taken say, in the order in which they arrived; a listener was sent the events of
    its session since it registered, in that order and without a gap, and all of them while it is
    registered and its receiver is there. -/
theorem listeners_hear (protocol : Protocol E)
    (calls : List (Option String × (Json.Tree → Bool))) (actions : List (Action E)) :
    (∃ taken, arrivals actions = taken ++ (after protocol calls actions).shared.inbox ∧
      (after protocol calls actions).shared.log = taken.filterMap protocol.entry) ∧
    ∀ (k : Nat) (channel : EventChannel E),
      (after protocol calls actions).shared.eventChannels[k]? = some channel →
      channel.sent <+: eventsFor (after protocol calls actions).shared.log channel ∧
      ∀ id, (id, k) ∈ (after protocol calls actions).shared.listeners →
        channel.id = id ∧ (channel.closed = false →
          channel.sent = eventsFor (after protocol calls actions).shared.log channel) := by
  have hheard := heard_after protocol calls actions
  constructor
  · have hlogged : Logged protocol [] (start (E := E) calls).shared := ⟨[], rfl, rfl⟩
    exact logged_final actions hlogged
  · intro k channel hchannel
    refine ⟨hheard.sent k channel hchannel, ?_⟩
    intro id hmem
    obtain ⟨found, hfound, hrest⟩ := hheard.listed id k hmem
    obtain rfl := Option.some.inj (hfound.symm.trans hchannel)
    exact hrest

/-! ## The loop -/

/-- The loop takes messages, or is sending an answer. -/
def Loop.runs : Loop → Bool
  | .checking | .receiving | .delivering _ _ => true
  | _ => false

/-- The loop has closed the transport. -/
def Loop.closed : Loop → Bool
  | .cancelling | .clearing | .ended => true
  | _ => false

/-- What can end the loop: a silence, a shutdown, the transport dropped, a listener gone, or the end
    of the connection. -/
def Action.stops : Action E → Bool
  | .timeout | .shutdown | .drop | .close _ | .arrive .connectionShutdown => true
  | _ => false

/-- Nothing that ends the loop has happened. -/
structure Alive (s : Shared E) : Prop where
  runs : s.loop.runs = true
  shutdowns : s.shutdowns = 0
  dropped : s.dropped = false
  listening : ∀ channel ∈ s.eventChannels, channel.closed = false
  inbox : Message.connectionShutdown ∉ s.inbox

theorem alive_emit {s : Shared E} (id : ListenerId) (event : Event E) (h : Alive s) :
    Alive (emit id event s) := by
  have hclosed : ∀ k : Nat, (s.eventChannels[k]?).any EventChannel.closed = false := by
    intro k
    cases hchannel : s.eventChannels[k]? with
    | none => rfl
    | some channel => exact h.listening channel (List.mem_of_getElem? hchannel)
  rw [emit]
  split
  · exact ⟨rfl, h.shutdowns, h.dropped, h.listening, h.inbox⟩
  · rename_i k _
    rw [hclosed k, if_neg Bool.false_ne_true]
    refine ⟨rfl, h.shutdowns, h.dropped, ?_, h.inbox⟩
    intro channel' hmem
    obtain ⟨k', hchannel'⟩ := List.mem_iff_getElem?.mp hmem
    rw [List.getElem?_modify] at hchannel'
    obtain ⟨channel, hchannel, rfl⟩ := Option.map_eq_some_iff.mp hchannel'
    have hopen := h.listening channel (List.mem_of_getElem? hchannel)
    split
    · exact hopen
    · exact hopen

theorem alive_resolve {s : Shared E} (response : Response) (h : Alive s) :
    Alive (resolveCall response s) := by
  refine ⟨?_, h.shutdowns, h.dropped, h.listening, h.inbox⟩
  simp only [resolveCall]
  split
  · rfl
  · rfl

theorem alive_handleMessage {s : Shared E} {message : Message E}
    (hmessage : message ≠ .connectionShutdown) (h : Alive s) :
    Alive (handleMessage protocol message s) := by
  have hchecking : Alive { s with loop := .checking } :=
    ⟨rfl, h.shutdowns, h.dropped, h.listening, h.inbox⟩
  cases message with
  | connectionShutdown => exact absurd rfl hmessage
  | response response => exact alive_resolve response h
  | event event =>
    cases event with
    | other event => exact alive_emit _ _ h
    | receivedMessageFromTarget sessionId raw =>
      simp only [handleMessage]
      split
      · exact alive_emit _ _ h
      · exact alive_resolve _ h
      · exact hchecking
      · exact hchecking

theorem alive_loop {s : Shared E} (h : Alive s) : Alive (handleIncomingMessages protocol s) := by
  have hruns := h.runs
  cases hloop : s.loop with
  | checking =>
    have hnone : ¬ 0 < s.shutdowns := by
      rw [h.shutdowns]
      exact Nat.lt_irrefl 0
    simp only [handleIncomingMessages, hloop, if_neg hnone, h.dropped, Bool.false_eq_true, if_false]
    exact ⟨rfl, h.shutdowns, rfl, h.listening, h.inbox⟩
  | receiving =>
    cases hinbox : s.inbox with
    | nil =>
      simp only [handleIncomingMessages, hloop, hinbox]
      exact h
    | cons message rest =>
      have hall := h.inbox
      rw [hinbox] at hall
      have hmessage : message ≠ .connectionShutdown := by
        rintro rfl
        exact hall List.mem_cons_self
      simp only [handleIncomingMessages, hloop, hinbox]
      refine alive_handleMessage hmessage ⟨rfl, h.shutdowns, h.dropped, h.listening, ?_⟩
      intro hrest
      exact hall (List.mem_cons_of_mem _ hrest)
  | delivering rx response =>
    simp only [handleIncomingMessages, hloop]
    exact ⟨rfl, h.shutdowns, h.dropped, h.listening, h.inbox⟩
  | closing =>
    rw [hloop] at hruns
    exact absurd hruns Bool.false_ne_true
  | cancelling =>
    rw [hloop] at hruns
    exact absurd hruns Bool.false_ne_true
  | clearing =>
    rw [hloop] at hruns
    exact absurd hruns Bool.false_ne_true
  | ended =>
    rw [hloop] at hruns
    exact absurd hruns Bool.false_ne_true

theorem alive_outside {action : Action E} (haction : action.stops = false) {s : Shared E}
    (h : Alive s) : Alive (outside action s) := by
  cases action with
  | call i choice => exact h
  | loop => exact h
  | timeout => exact absurd haction.symm Bool.false_ne_true
  | shutdown => exact absurd haction.symm Bool.false_ne_true
  | drop => exact absurd haction.symm Bool.false_ne_true
  | close k => exact absurd haction.symm Bool.false_ne_true
  | arrive message =>
    refine ⟨h.runs, h.shutdowns, h.dropped, h.listening, ?_⟩
    intro hmem
    rcases List.mem_append.mp hmem with hold | hnew
    · exact h.inbox hold
    · rw [← List.mem_singleton.mp hnew] at haction
      exact absurd haction.symm Bool.false_ne_true
  | listen id =>
    refine ⟨h.runs, h.shutdowns, h.dropped, ?_, h.inbox⟩
    intro channel hmem
    rcases List.mem_append.mp hmem with hold | hnew
    · exact h.listening channel hold
    · rw [List.mem_singleton.mp hnew]

theorem alive_final : ∀ (actions : List (Action E)) {pool : Pool (Shared E) Call},
    (∀ action ∈ actions, action.stops = false) → Alive pool.shared →
      Alive (History.final (step protocol) actions pool).shared
  | [], _, _, h => h
  | action :: actions, pool, hactions, h => by
      refine alive_final actions
        (fun action' hmem => hactions action' (List.mem_cons_of_mem _ hmem)) ?_
      have hcalm := hactions action List.mem_cons_self
      refine shared_step ?_ (fun _ => alive_loop) (alive_outside hcalm) h
      intro i choice s counter issued registry _ halive
      exact ⟨halive.runs, halive.shutdowns, halive.dropped, halive.listening, halive.inbox⟩

/-- The flag says where the loop stands. -/
def Flagged (s : Shared E) : Prop := s.isOpen = !s.loop.closed

theorem flagged_handleMessage {s : Shared E} (message : Message E) (h : s.isOpen = true) :
    Flagged (handleMessage protocol message s) := by
  have hemit : ∀ id event, Flagged (emit id event s) := by
    intro id event
    rw [emit]
    split
    · exact h
    · split
      · exact h
      · exact h
  have hresolve : ∀ response, Flagged (resolveCall response s) := by
    intro response
    simp only [Flagged, resolveCall]
    split
    · exact h
    · exact h
  cases message with
  | connectionShutdown => exact h
  | response response => exact hresolve response
  | event event =>
    cases event with
    | other event => exact hemit _ _
    | receivedMessageFromTarget sessionId raw =>
      simp only [handleMessage]
      split
      · exact hemit _ _
      · exact hresolve _
      · exact h
      · exact h

theorem flagged_loop {s : Shared E} (h : Flagged s) :
    Flagged (handleIncomingMessages protocol s) := by
  rw [Flagged] at h
  cases hloop : s.loop with
  | checking =>
    rw [hloop] at h
    simp only [handleIncomingMessages, hloop]
    split
    · exact h
    · split
      · exact h
      · exact h
  | receiving =>
    rw [hloop] at h
    cases hinbox : s.inbox with
    | nil =>
      simp only [handleIncomingMessages, hloop, hinbox]
      rw [Flagged, hloop]
      exact h
    | cons message rest =>
      simp only [handleIncomingMessages, hloop, hinbox]
      exact flagged_handleMessage message h
  | delivering rx response =>
    rw [hloop] at h
    simp only [handleIncomingMessages, hloop]
    exact h
  | closing =>
    simp only [handleIncomingMessages, hloop]
    rfl
  | cancelling =>
    rw [hloop] at h
    simp only [handleIncomingMessages, hloop]
    exact h
  | clearing =>
    rw [hloop] at h
    simp only [handleIncomingMessages, hloop]
    exact h
  | ended =>
    rw [hloop] at h
    simp only [handleIncomingMessages, hloop]
    rw [Flagged, hloop]
    exact h

theorem flagged_after (calls : List (Option String × (Json.Tree → Bool)))
    (actions : List (Action E)) : Flagged (after protocol calls actions).shared := by
  refine History.final_induction (P := fun pool : Pool (Shared E) Call => Flagged pool.shared)
    ?_ actions rfl
  intro action pool h
  refine shared_step (fun _ _ _ _ _ _ _ hflag => hflag) (fun _ => flagged_loop) ?_ h
  intro hflag
  cases action with
  | timeout =>
    simp only [outside]
    split
    · rename_i hloop _
      rw [Flagged, hloop] at hflag
      exact hflag
    · exact hflag
  | shutdown =>
    simp only [outside]
    split
    · exact hflag
    · exact hflag
  | call i choice => exact hflag
  | loop => exact hflag
  | arrive message => exact hflag
  | drop => exact hflag
  | listen id => exact hflag
  | close k => exact hflag

/-- **The loop outlives its calls.**  In every interleaving the transport calls itself open exactly
    until the loop has closed it; and as long as nobody shuts it down or drops it, no listener goes
    away, the connection neither ends nor falls silent, it runs: no response, late, unknown or
    repeated, no unreadable message and nothing a caller does ends it. -/
theorem loop_outlives_calls (protocol : Protocol E)
    (calls : List (Option String × (Json.Tree → Bool))) (actions : List (Action E)) :
    ((after protocol calls actions).shared.isOpen = true ↔
      (after protocol calls actions).shared.loop.closed = false) ∧
    ((∀ action ∈ actions, action.stops = false) →
      (after protocol calls actions).shared.loop.runs = true) := by
  constructor
  · have hflag : (after protocol calls actions).shared.isOpen =
        !(after protocol calls actions).shared.loop.closed := flagged_after calls actions
    rw [hflag, Bool.not_eq_true']
  · intro hactions
    have hstart : Alive (start (E := E) calls).shared :=
      ⟨rfl, rfl, rfl, fun _ hmem => absurd hmem List.not_mem_nil, List.not_mem_nil⟩
    exact (alive_final actions hactions hstart).runs

end Basecrawl.Cdp
