/-
  Answers belong to their calls: the registry and the loop of the DevTools transport over whole
  runs.

  1. **The first response** — what the loop has handled for a channel since it was made.
  2. **`Sound`** — the map, the loop, the queues and the answers against that log.  The crux is
     `Sound.entries`: a sender that is still in the map has been sent nothing.
  3. **Steps** — one lemma for each kind of step of the loop, `sound_callMethod` for the calls.
  4. **Deserializers** — a call reads its answer with its own.
-/
import Basecrawl.Cdp.Transport

namespace Basecrawl.Cdp

open Threads
open scoped List

variable {E : Type}

/-! ## The first response -/

/-- The first response with the channel's id that the loop has taken since the channel was made. -/
def firstFor (log : List (Entry E)) (channel : Channel) : Option Response :=
  ((log.drop channel.since).filterMap Entry.response?).find? fun response =>
    response.callId == channel.callId

variable {log : List (Entry E)} {channel : Channel} {response : Response}

/-- What was first stays first. -/
theorem firstFor_append (h : firstFor log channel = some response) (more : List (Entry E)) :
    firstFor (log ++ more) channel = some response := by
  rw [firstFor, List.drop_append, List.filterMap_append, List.find?_append]
  rw [firstFor] at h
  rw [h, Option.some_or]

theorem filterMap_response_eq_nil {entries : List (Entry E)}
    (h : ∀ entry ∈ entries, entry.response? = none) (n : Nat) :
    (entries.drop n).filterMap Entry.response? = [] := by
  rw [List.filterMap_eq_nil_iff]
  intro entry hentry
  exact h entry (List.mem_of_mem_drop hentry)

/-- Events are no responses. -/
theorem firstFor_events {entries : List (Entry E)}
    (h : ∀ entry ∈ entries, entry.response? = none) (channel : Channel) :
    firstFor (log ++ entries) channel = firstFor log channel := by
  rw [firstFor, List.drop_append, List.filterMap_append, filterMap_response_eq_nil h,
    List.append_nil]
  rfl

/-- One more response is the first one if it has the id and none came before. -/
theorem firstFor_response (hsince : channel.since ≤ log.length)
    (hnone : firstFor log channel = none) (response : Response) :
    firstFor (log ++ [.response response]) channel =
      if response.callId = channel.callId then some response else none := by
  have hnew : ([Entry.response (E := E) response].drop (channel.since - log.length)).filterMap
      Entry.response? = [response] := by
    rw [Nat.sub_eq_zero_of_le hsince]
    rfl
  rw [firstFor, List.drop_append, List.filterMap_append, hnew, List.find?_append]
  rw [firstFor] at hnone
  rw [hnone, Option.none_or, List.find?_singleton]
  simp only [beq_iff_eq]

theorem firstFor_new (callId : UInt32) (queue : List Reply) :
    firstFor log ⟨callId, log.length, queue⟩ = none := by
  rw [firstFor, List.drop_length]
  rfl

theorem callId_of_firstFor (h : firstFor log channel = some response) :
    response.callId = channel.callId := by
  have hfound := List.find?_some h
  exact beq_iff_eq.mp hfound

/-! ## Soundness -/

/-- A registered call and its channel. -/
def Pending.On (pending : Pending) (registry : WaitingCallRegistry) : Prop :=
  ∃ channel : Channel, registry.channels[pending.rx]? = some channel ∧
    channel.callId = pending.callId

/-- What ties the map, the loop, the queues and the answers to the log. -/
structure Sound (s : Shared E) (threads : List Call) : Prop where
  keyed : s.registry.Keyed
  since : ∀ (c : Nat) (channel : Channel), s.registry.channels[c]? = some channel →
    channel.since ≤ s.log.length
  entries : ∀ id c, (id, c) ∈ s.registry.calls → ∃ channel : Channel,
    s.registry.channels[c]? = some channel ∧ channel.callId = id ∧ firstFor s.log channel = none
  delivering : ∀ rx response, s.loop.delivers = some (rx, response) → ∃ channel : Channel,
    s.registry.channels[rx]? = some channel ∧ firstFor s.log channel = some response
  queues : ∀ (c : Nat) (channel : Channel) (response : Response),
    s.registry.channels[c]? = some channel → .response response ∈ channel.queue → firstFor s.log channel = some response
  known : ∀ t ∈ threads, ∀ p ∈ t.pendings, p.On s.registry
  answers : ∀ t ∈ threads, ∀ p response, t.answer = some (p, response) → ∃ channel : Channel,
    s.registry.channels[p.rx]? = some channel ∧ firstFor s.log channel = some response ∧
      parseResponse p.accepts response = .ok

/-- The channels of a registry stay, up to what is queued on them. -/
def Keeps (registry registry' : WaitingCallRegistry) : Prop :=
  ∀ (c : Nat) (channel : Channel), registry.channels[c]? = some channel → ∃ channel' : Channel,
    registry'.channels[c]? = some channel' ∧ channel'.callId = channel.callId ∧
      channel'.since = channel.since

/-- What is first for a channel does not depend on its queue. -/
theorem firstFor_congr {channel channel' : Channel} (hid : channel'.callId = channel.callId)
    (hsince : channel'.since = channel.since) : firstFor log channel' = firstFor log channel := by
  rw [firstFor, firstFor, hid, hsince]

theorem Pending.On.mono {registry registry' : WaitingCallRegistry} {p : Pending}
    (h : p.On registry) (hkeeps : Keeps registry registry') : p.On registry' := by
  obtain ⟨channel, hchannel, hid⟩ := h
  obtain ⟨channel', hchannel', hid', -⟩ := hkeeps _ _ hchannel
  exact ⟨channel', hchannel', hid'.trans hid⟩

/-- What is known of the threads stays known while the channels stay and the log grows. -/
theorem Sound.threads_mono {s : Shared E} {threads : List Call} (h : Sound s threads)
    (s' : Shared E) (hkeeps : Keeps s.registry s'.registry) (hlog : ∃ more, s'.log = s.log ++ more) :
    (∀ t ∈ threads, ∀ p ∈ t.pendings, p.On s'.registry) ∧
    ∀ t ∈ threads, ∀ p response, t.answer = some (p, response) → ∃ channel : Channel,
      s'.registry.channels[p.rx]? = some channel ∧ firstFor s'.log channel = some response ∧
        parseResponse p.accepts response = .ok := by
  obtain ⟨more, hmore⟩ := hlog
  constructor
  · intro t ht p hp
    exact (h.known t ht p hp).mono hkeeps
  · intro t ht p response hanswer
    obtain ⟨channel, hchannel, hfirst, hparse⟩ := h.answers t ht p response hanswer
    obtain ⟨channel', hchannel', hid, hsince⟩ := hkeeps _ _ hchannel
    refine ⟨channel', hchannel', ?_, hparse⟩
    rw [firstFor_congr hid hsince, hmore]
    exact firstFor_append hfirst more

theorem keeps_refl (registry : WaitingCallRegistry) : Keeps registry registry :=
  fun _ channel hchannel => ⟨channel, hchannel, rfl, rfl⟩

theorem keeps_send (registry : WaitingCallRegistry) (rx : Nat) (reply : Reply) :
    Keeps registry (registry.send rx reply) := by
  intro c channel hchannel
  refine ⟨_, WaitingCallRegistry.channel_send rx reply hchannel, ?_⟩
  split
  · exact ⟨rfl, rfl⟩
  · exact ⟨rfl, rfl⟩

theorem keeps_tryRecv (registry : WaitingCallRegistry) (rx : Nat) :
    Keeps registry (registry.tryRecv rx) := by
  intro c channel hchannel
  refine ⟨_, WaitingCallRegistry.channel_tryRecv rx hchannel, ?_⟩
  split
  · exact ⟨rfl, rfl⟩
  · exact ⟨rfl, rfl⟩

theorem keeps_cancel (registry : WaitingCallRegistry) :
    Keeps registry registry.cancelOutstandingMethodCalls :=
  fun _ _ hchannel => ⟨_, WaitingCallRegistry.channel_cancel hchannel, rfl, rfl⟩

theorem keeps_registerCall (registry : WaitingCallRegistry) (now : Nat) (callId : UInt32) :
    Keeps registry (registry.registerCall now callId).1 :=
  fun _ channel hchannel => ⟨channel, WaitingCallRegistry.channel_registerCall hchannel, rfl, rfl⟩

/-- A channel that is there afterwards was there, with the same id and age. -/
theorem channel_before {registry registry' : WaitingCallRegistry}
    (hlength : registry'.channels.length = registry.channels.length)
    (hkeeps : Keeps registry registry') {c : Nat} {channel' : Channel}
    (h : registry'.channels[c]? = some channel') : ∃ channel : Channel,
      registry.channels[c]? = some channel ∧ channel'.callId = channel.callId ∧
        channel'.since = channel.since := by
  obtain ⟨hlt, -⟩ := List.getElem?_eq_some_iff.mp h
  have hbefore := List.getElem?_eq_getElem (l := registry.channels) (by omega : c < _)
  obtain ⟨found, hfound, hid, hsince⟩ := hkeeps _ _ hbefore
  obtain rfl := Option.some.inj (hfound.symm.trans h)
  exact ⟨_, hbefore, hid, hsince⟩

theorem sound_quiet {s s' : Shared E} {threads : List Call} (hquiet : Quiet s s')
    (h : Sound s threads) : Sound s' threads := by
  obtain ⟨entries, hlog, hentries⟩ := hquiet.log
  have hfirst : ∀ channel, firstFor s'.log channel = firstFor s.log channel := by
    intro channel
    rw [hlog]
    exact firstFor_events hentries channel
  have hkeeps : Keeps s.registry s'.registry := by
    rw [hquiet.registry]
    exact keeps_refl _
  obtain ⟨hknown, hanswers⟩ := h.threads_mono s' hkeeps ⟨entries, hlog⟩
  refine ⟨?_, ?_, ?_, ?_, ?_, hknown, hanswers⟩
  · rw [hquiet.registry]
    exact h.keyed
  · rw [hquiet.registry, hlog, List.length_append]
    intro c channel hchannel
    exact (h.since c channel hchannel).trans (Nat.le_add_right _ _)
  · simp only [hquiet.registry, hfirst]
    exact h.entries
  · simp only [hquiet.registry, hquiet.delivers, hfirst]
    exact h.delivering
  · simp only [hquiet.registry, hfirst]
    exact h.queues

/-- **The crux**: the sender that a response finds has been sent nothing, so the response is the
    first one for it; the other senders in the map have another id. -/
theorem sound_resolve {s : Shared E} {threads : List Call} (response : Response)
    (h : Sound s threads) : Sound (resolveCall response s) threads := by
  obtain ⟨hknown, hanswers⟩ := h.threads_mono (resolveCall response s)
    (keeps_refl s.registry) ⟨_, rfl⟩
  refine ⟨WaitingCallRegistry.keyed_unregisterCall h.keyed, ?_, ?_, ?_, ?_, hknown, hanswers⟩
  · intro c channel hchannel
    have hold := h.since c channel hchannel
    simp only [resolveCall, List.length_append]
    omega
  · intro id c hmem
    obtain ⟨hmem, hne⟩ := WaitingCallRegistry.mem_unregisterCall.mp hmem
    obtain ⟨channel, hchannel, hid, hnone⟩ := h.entries id c hmem
    refine ⟨channel, hchannel, hid, ?_⟩
    have hfirst := firstFor_response (h.since c channel hchannel) hnone response
    rwa [if_neg fun heq => hne (hid.symm.trans heq.symm)] at hfirst
  · intro rx response' hdelivers
    simp only [resolveCall] at hdelivers
    split at hdelivers
    · rename_i rx' hsender
      obtain ⟨rfl, rfl⟩ := Prod.mk.inj (Option.some.inj hdelivers)
      have hmem := (WaitingCallRegistry.sender_eq_some h.keyed).mp hsender
      obtain ⟨channel, hchannel, hid, hnone⟩ := h.entries _ _ hmem
      refine ⟨channel, hchannel, ?_⟩
      have hfirst := firstFor_response (h.since _ channel hchannel) hnone response
      rwa [if_pos hid.symm] at hfirst
    · exact absurd hdelivers (Option.some_ne_none _).symm
  · intro c channel response' hchannel hmem
    exact firstFor_append (h.queues c channel response' hchannel hmem) _

theorem sound_deliver {s : Shared E} {threads : List Call} {rx : Nat} {response : Response}
    (hloop : s.loop = .delivering rx response) (h : Sound s threads) :
    Sound { s with registry := s.registry.send rx (.response response), loop := .checking }
      threads := by
  have hkeeps := keeps_send s.registry rx (.response response)
  have hlength : (s.registry.send rx (.response response)).channels.length =
      s.registry.channels.length := List.length_modify _ _ _
  have hdelivers : s.loop.delivers = some (rx, response) := by
    rw [hloop]
    rfl
  obtain ⟨hknown, hanswers⟩ := h.threads_mono
    { s with registry := s.registry.send rx (.response response), loop := .checking }
    hkeeps ⟨[], (List.append_nil _).symm⟩
  refine ⟨h.keyed, ?_, ?_, ?_, ?_, hknown, hanswers⟩
  · intro c channel' hchannel'
    obtain ⟨channel, hchannel, -, hsince⟩ := channel_before hlength hkeeps hchannel'
    rw [hsince]
    exact h.since c channel hchannel
  · intro id c hmem
    obtain ⟨channel, hchannel, hid, hnone⟩ := h.entries id c hmem
    obtain ⟨channel', hchannel', hid', hsince⟩ := hkeeps _ _ hchannel
    exact ⟨channel', hchannel', hid'.trans hid, (firstFor_congr hid' hsince).trans hnone⟩
  · intro rx' response' hnone
    exact absurd hnone (Option.some_ne_none _).symm
  · intro c channel' response' hchannel' hmem
    obtain ⟨channel, hchannel, hid, hsince⟩ := channel_before hlength hkeeps hchannel'
    have hfirst : firstFor s.log channel' = firstFor s.log channel := firstFor_congr hid hsince
    have hsent := WaitingCallRegistry.channel_send rx (.response response) hchannel
    obtain rfl := Option.some.inj (hchannel'.symm.trans hsent)
    simp only [hfirst]
    split at hmem
    · rename_i hrx
      subst hrx
      rcases List.mem_append.mp hmem with hold | hnew
      · exact h.queues _ channel response' hchannel hold
      · obtain ⟨found, hfound, hresponse⟩ := h.delivering _ _ hdelivers
        obtain rfl := Option.some.inj (hfound.symm.trans hchannel)
        obtain rfl := Reply.response.inj (List.mem_singleton.mp hnew)
        exact hresponse
    · exact h.queues c channel response' hchannel hmem

theorem sound_cancel {s : Shared E} {threads : List Call} (h : Sound s threads) :
    Sound { s with registry := s.registry.cancelOutstandingMethodCalls, loop := .clearing }
      threads := by
  have hkeeps := keeps_cancel s.registry
  obtain ⟨hknown, hanswers⟩ := h.threads_mono
    { s with registry := s.registry.cancelOutstandingMethodCalls, loop := .clearing }
    hkeeps ⟨[], (List.append_nil _).symm⟩
  refine ⟨?_, ?_, ?_, ?_, ?_, hknown, hanswers⟩
  · rw [WaitingCallRegistry.Keyed, WaitingCallRegistry.calls_cancelOutstandingMethodCalls]
    exact h.keyed
  · intro c channel' hchannel'
    obtain ⟨channel, hchannel, -, hsince⟩ :=
      channel_before WaitingCallRegistry.length_channels_cancel hkeeps hchannel'
    rw [hsince]
    exact h.since c channel hchannel
  · intro id c hmem
    rw [WaitingCallRegistry.calls_cancelOutstandingMethodCalls] at hmem
    obtain ⟨channel, hchannel, hid, hnone⟩ := h.entries id c hmem
    obtain ⟨channel', hchannel', hid', hsince⟩ := hkeeps _ _ hchannel
    exact ⟨channel', hchannel', hid'.trans hid, (firstFor_congr hid' hsince).trans hnone⟩
  · intro rx response hnone
    exact absurd hnone (Option.some_ne_none _).symm
  · intro c channel' response hchannel' hmem
    obtain ⟨channel, hchannel, -, -⟩ :=
      channel_before WaitingCallRegistry.length_channels_cancel hkeeps hchannel'
    have htold := WaitingCallRegistry.channel_cancel hchannel
    obtain rfl := Option.some.inj (hchannel'.symm.trans htold)
    rcases List.mem_append.mp hmem with hold | hnew
    · exact h.queues c channel response hchannel hold
    · -- the news that the connection closed is no response
      exact absurd (List.eq_of_mem_replicate hnew) Reply.noConfusion

/-- A step of a call that leaves the log and the loop alone, and keeps the channels. -/
theorem sound_call {s : Shared E} {registry : WaitingCallRegistry} {before after : List Call}
    {t t' : Call} (h : Sound s (before ++ t :: after)) (hkeeps : Keeps s.registry registry)
    (hkeyed : registry.Keyed)
    (hsince : ∀ (c : Nat) (channel : Channel), registry.channels[c]? = some channel →
      channel.since ≤ s.log.length)
    (hentries : ∀ id c, (id, c) ∈ registry.calls → ∃ channel : Channel,
      registry.channels[c]? = some channel ∧ channel.callId = id ∧ firstFor s.log channel = none)
    (hqueues : ∀ (c : Nat) (channel : Channel) (response : Response),
      registry.channels[c]? = some channel → .response response ∈ channel.queue → firstFor s.log channel = some response)
    (hknown : ∀ p ∈ t'.pendings, p.On registry)
    (hanswer : ∀ p response, t'.answer = some (p, response) → ∃ channel : Channel,
      registry.channels[p.rx]? = some channel ∧ firstFor s.log channel = some response ∧
        parseResponse p.accepts response = .ok) :
    Sound { s with registry := registry } (before ++ t' :: after) := by
  obtain ⟨hknowns, hanswers⟩ := h.threads_mono { s with registry := registry }
    hkeeps ⟨[], (List.append_nil _).symm⟩
  refine ⟨hkeyed, hsince, hentries, ?_, hqueues, forall_replace hknowns hknown,
    forall_replace hanswers hanswer⟩
  intro rx response hdelivers
  obtain ⟨channel, hchannel, hfirst⟩ := h.delivering rx response hdelivers
  obtain ⟨channel', hchannel', hid, hsince'⟩ := hkeeps _ _ hchannel
  exact ⟨channel', hchannel', (firstFor_congr hid hsince').trans hfirst⟩

/-- A call that holds nothing new. -/
theorem sound_drops {s : Shared E} {before after : List Call} {t t' : Call}
    (h : Sound s (before ++ t :: after)) (hpendings : t'.pendings <+ t.pendings)
    (hanswer : t'.answer = none) : Sound s (before ++ t' :: after) := by
  have hmem : t ∈ before ++ t :: after := List.mem_append_right _ List.mem_cons_self
  refine sound_call h (keeps_refl _) h.keyed h.since h.entries h.queues ?_ ?_
  · intro p hp
    exact h.known t hmem p (hpendings.mem hp)
  · intro p response hsome
    rw [hanswer] at hsome
    exact absurd hsome (Option.some_ne_none _).symm

/-- The counter is no part of it. -/
theorem sound_counter {s : Shared E} {threads : List Call} {counter : UInt32} {issued : Nat}
    (h : Sound s threads) : Sound { s with counter := counter, issued := issued } threads :=
  ⟨h.keyed, h.since, h.entries, h.delivering, h.queues, h.known, h.answers⟩

theorem sound_register {s : Shared E} {before after : List Call} {t t' : Call} {callId : UInt32}
    {pending : Pending} (h : Sound s (before ++ t :: after)) (hid : pending.callId = callId)
    (hrx : pending.rx = s.registry.channels.length) (hpendings : t.pendings = t.live)
    (hlive : t'.live <+ pending :: t.live) (hpendings' : t'.pendings = t'.live)
    (hanswer : t'.answer = none) :
    Sound { s with registry := (s.registry.registerCall s.log.length callId).1 }
      (before ++ t' :: after) := by
  have hmem : t ∈ before ++ t :: after := List.mem_append_right _ List.mem_cons_self
  have hkeeps := keeps_registerCall s.registry s.log.length callId
  refine sound_call h hkeeps (WaitingCallRegistry.keyed_registerCall h.keyed) ?_ ?_ ?_ ?_ ?_
  · intro c channel hchannel
    rcases WaitingCallRegistry.channel_of_registerCall hchannel with hold | ⟨-, rfl⟩
    · exact h.since c channel hold
    · exact Nat.le_refl _
  · intro id c hentry
    rcases WaitingCallRegistry.mem_registerCall.mp hentry with ⟨rfl, rfl⟩ | ⟨hold, -⟩
    · exact ⟨_, WaitingCallRegistry.channel_registered, rfl, firstFor_new _ _⟩
    · obtain ⟨channel, hchannel, hrest⟩ := h.entries id c hold
      exact ⟨channel, WaitingCallRegistry.channel_registerCall hchannel, hrest⟩
  · intro c channel response hchannel hqueue
    rcases WaitingCallRegistry.channel_of_registerCall hchannel with hold | ⟨-, rfl⟩
    · exact h.queues c channel response hold hqueue
    · exact absurd hqueue List.not_mem_nil
  · intro p hp
    rw [hpendings'] at hp
    rcases List.mem_cons.mp (hlive.mem hp) with rfl | hold
    · refine ⟨⟨callId, s.log.length, []⟩, ?_, hid.symm⟩
      rw [hrx]
      exact WaitingCallRegistry.channel_registered
    · rw [← hpendings] at hold
      exact (h.known t hmem p hold).mono hkeeps
  · intro p response hsome
    rw [hanswer] at hsome
    exact absurd hsome (Option.some_ne_none _).symm

/-- A reply is read: what the caller makes of a response is what was first for its channel. -/
theorem sound_recv {s : Shared E} {before after : List Call} {pending : Pending}
    {carried : Option Pending} {reply : Reply}
    (h : Sound s (before ++ .waiting pending carried :: after))
    (hpeek : s.registry.peek pending.rx = some reply) :
    Sound { s with registry := s.registry.tryRecv pending.rx }
      (before ++ returning carried (some pending) (settle pending.accepts reply) :: after) := by
  have hmem : Call.waiting pending carried ∈ before ++ .waiting pending carried :: after :=
    List.mem_append_right _ List.mem_cons_self
  have hkeeps := keeps_tryRecv s.registry pending.rx
  have hlength : (s.registry.tryRecv pending.rx).channels.length = s.registry.channels.length :=
    List.length_modify _ _ _
  refine sound_call h hkeeps h.keyed ?_ ?_ ?_ ?_ ?_
  · intro c channel' hchannel'
    obtain ⟨channel, hchannel, -, hsince⟩ := channel_before hlength hkeeps hchannel'
    rw [hsince]
    exact h.since c channel hchannel
  · intro id c hentry
    obtain ⟨channel, hchannel, hid, hnone⟩ := h.entries id c hentry
    obtain ⟨channel', hchannel', hid', hsince⟩ := hkeeps _ _ hchannel
    exact ⟨channel', hchannel', hid'.trans hid, (firstFor_congr hid' hsince).trans hnone⟩
  · intro c channel' response hchannel' hqueue
    obtain ⟨channel, hchannel, hid, hsince⟩ := channel_before hlength hkeeps hchannel'
    rw [firstFor_congr hid hsince]
    refine h.queues c channel response hchannel ?_
    have hread := WaitingCallRegistry.channel_tryRecv pending.rx hchannel
    obtain rfl := Option.some.inj (hchannel'.symm.trans hread)
    split at hqueue
    · exact List.mem_of_mem_tail hqueue
    · exact hqueue
  · intro p hp
    have hp' : p ∈ (Call.waiting pending carried).pendings :=
      (pendings_returning carried (some pending) _).mem hp
    exact (h.known _ hmem p hp').mono hkeeps
  · intro p response hsome
    obtain ⟨hown, hsettle⟩ := answer_returning hsome
    obtain rfl := Option.some.inj hown
    obtain ⟨rfl, hparse⟩ := settle_eq_answered hsettle
    obtain ⟨channel, hchannel, hhead⟩ := Option.bind_eq_some_iff.mp hpeek
    have hfirst := h.queues _ channel response hchannel (List.mem_of_mem_head? hhead)
    obtain ⟨channel', hchannel', hid, hsince⟩ := hkeeps _ _ hchannel
    exact ⟨channel', hchannel', (firstFor_congr hid hsince).trans hfirst, hparse⟩

/-- A registration is taken back; the call that made it is lost with an error. -/
theorem sound_unregister {s : Shared E} {before after : List Call} {pending : Pending}
    {carried : Option Pending} {error : CallError}
    (h : Sound s (before ++ .unregistering pending carried error :: after)) :
    Sound { s with registry := s.registry.unregisterCall pending.callId }
      (before ++ returning carried (some pending) (.error error) :: after) := by
  have hmem : Call.unregistering pending carried error ∈
      before ++ .unregistering pending carried error :: after :=
    List.mem_append_right _ List.mem_cons_self
  refine sound_call h (keeps_refl _) (WaitingCallRegistry.keyed_unregisterCall h.keyed) h.since ?_
    h.queues ?_ ?_
  · intro id c hentry
    exact h.entries id c (WaitingCallRegistry.mem_unregisterCall.mp hentry).1
  · intro p hp
    exact h.known _ hmem p ((pendings_returning carried (some pending) _).mem hp)
  · intro p response hsome
    exact absurd (answer_returning hsome).2 CallResult.noConfusion

theorem sound_start (calls : List (Option String × (Json.Tree → Bool))) :
    Sound (start (E := E) calls).shared (start (E := E) calls).threads := by
  have hpendings : ∀ t ∈ (start (E := E) calls).threads, t.pendings = [] ∧ t.answer = none := by
    intro t ht
    obtain ⟨⟨sessionId, accepts⟩, -, rfl⟩ := List.mem_map.mp ht
    cases sessionId with
    | none => exact ⟨rfl, rfl⟩
    | some sessionId => exact ⟨rfl, rfl⟩
  refine ⟨List.nodup_nil, ?_, ?_, ?_, ?_, ?_, ?_⟩
  · intro c channel hchannel
    exact absurd hchannel (Option.some_ne_none _).symm
  · intro id c hmem
    exact absurd hmem List.not_mem_nil
  · intro rx response hdelivers
    exact absurd hdelivers (Option.some_ne_none _).symm
  · intro c channel response hchannel
    exact absurd hchannel (Option.some_ne_none _).symm
  · intro t ht p hp
    rw [(hpendings t ht).1] at hp
    exact absurd hp List.not_mem_nil
  · intro t ht p response hanswer
    rw [(hpendings t ht).2] at hanswer
    exact absurd hanswer (Option.some_ne_none _).symm

/-- A step of a call keeps it, whichever of the five kinds it is. -/
theorem sound_callMethod {protocol : Protocol E} {choice : Choice} {s s' : Shared E}
    {before after : List Call} {t t' : Call}
    (hstep : callMethod protocol choice s t = some (s', t')) (h : Sound s (before ++ t :: after)) : Sound s' (before ++ t' :: after) := by
  rcases callMethod_cases hstep with ⟨rfl, -, hdrops⟩ | ⟨rfl, -, hdrops | hnumbered⟩ |
    ⟨callId, pending, -, hid, hrx, hpendings, rfl, -, hlive, hpendings', hanswer⟩ |
    ⟨pending, carried, reply, rfl, hpeek, rfl, rfl⟩ | ⟨pending, carried, error, rfl, rfl, rfl⟩
  · exact sound_drops h hdrops.pendings hdrops.answer
  · exact sound_drops (sound_counter h) hdrops.pendings hdrops.answer
  · obtain ⟨-, -, hpendings, hanswer⟩ := hnumbered
    refine sound_drops (sound_counter h) ?_ hanswer
    rw [hpendings]
  · exact sound_register h hid hrx hpendings hlive hpendings' hanswer
  · exact sound_recv h hpeek
  · exact sound_unregister h

/-! ## Deserializers -/

/-- The deserializer of the caller's own method, also while an inner call is under way. -/
def Call.accepts : Call → Option (Json.Tree → Bool)
  | .entering request | .numbering request | .registering request _ =>
      some ((request.destination.carried.map Pending.accepts).getD request.accepts)
  | .sending pending carried | .waiting pending carried | .unregistering pending carried _ =>
      some ((carried.map Pending.accepts).getD pending.accepts)
  | .finished pending _ => pending.map Pending.accepts

theorem accepts_returning (carried own : Option Pending) (result : CallResult) :
    (returning carried own result).accepts = (carried.or own).map Pending.accepts := by
  cases carried with
  | none => rfl
  | some outer => cases result <;> rfl

/-- A step of a call keeps its deserializer, unless it ends before it has registered. -/
theorem accepts_callMethod {protocol : Protocol E} {choice : Choice} {s s' : Shared E}
    {t t' : Call} (h : callMethod protocol choice s t = some (s', t')) :
    t'.accepts = t.accepts ∨ t'.accepts = none := by
  -- what is returned to is the call that carries this one, if there is one
  have hreturn : ∀ (carried : Option Pending) (result : CallResult) (accepts : Json.Tree → Bool),
      (returning carried none result).accepts = some ((carried.map Pending.accepts).getD accepts) ∨
        (returning carried none result).accepts = none := by
    intro carried result accepts
    rw [accepts_returning, Option.or_none]
    cases carried with
    | none => exact .inr rfl
    | some outer => exact .inl rfl
  have hown : ∀ (carried : Option Pending) (pending : Pending) (result : CallResult),
      (returning carried (some pending) result).accepts =
        some ((carried.map Pending.accepts).getD pending.accepts) := by
    intro carried pending result
    rw [accepts_returning]
    cases carried with
    | none => rfl
    | some outer => rfl
  cases t with
  | entering request =>
    simp only [callMethod] at h
    split at h
    · obtain ⟨-, rfl⟩ := Prod.mk.inj (Option.some.inj h)
      exact .inl rfl
    · obtain ⟨-, rfl⟩ := Prod.mk.inj (Option.some.inj h)
      exact hreturn _ _ _
  | numbering request =>
    simp only [callMethod] at h
    split at h
    · obtain ⟨-, rfl⟩ := Prod.mk.inj (Option.some.inj h)
      exact hreturn _ _ _
    · obtain ⟨-, rfl⟩ := Prod.mk.inj (Option.some.inj h)
      exact .inl rfl
  | registering request callId =>
    obtain ⟨destination, accepts⟩ := request
    left
    cases destination with
    | target sessionId =>
      obtain ⟨-, rfl⟩ := Prod.mk.inj (Option.some.inj h)
      rfl
    | browser carried =>
      obtain ⟨-, rfl⟩ := Prod.mk.inj (Option.some.inj h)
      rfl
  | sending pending carried =>
    left
    simp only [callMethod] at h
    split at h
    · obtain ⟨-, rfl⟩ := Prod.mk.inj (Option.some.inj h)
      rfl
    · obtain ⟨-, rfl⟩ := Prod.mk.inj (Option.some.inj h)
      rfl
  | waiting pending carried =>
    left
    simp only [callMethod] at h
    split at h
    · obtain ⟨-, rfl⟩ := Prod.mk.inj (Option.some.inj h)
      exact hown _ _ _
    · cases hpeek : s.registry.peek pending.rx with
      | none =>
        rw [hpeek] at h
        exact absurd h (Option.some_ne_none _).symm
      | some reply =>
        rw [hpeek] at h
        obtain ⟨-, rfl⟩ := Prod.mk.inj (Option.some.inj h)
        exact hown _ _ _
  | unregistering pending carried error =>
    left
    obtain ⟨-, rfl⟩ := Prod.mk.inj (Option.some.inj h)
    exact hown _ _ _
  | finished pending result => exact absurd h (Option.some_ne_none _).symm

/-- Every call that holds a deserializer holds the one it was made with. -/
def Own (calls : List (Option String × (Json.Tree → Bool))) (pool : Pool (Shared E) Call) : Prop :=
  ∀ (i : Nat) (t : Call) accepts, pool.threads[i]? = some t → t.accepts = some accepts →
    ∃ destination, calls[i]? = some (destination, accepts)

theorem own_start (calls : List (Option String × (Json.Tree → Bool))) :
    Own calls (start (E := E) calls) := by
  intro i t accepts ht haccepts
  rw [start, List.getElem?_map] at ht
  obtain ⟨⟨destination, own⟩, hcall, rfl⟩ := Option.map_eq_some_iff.mp ht
  have hown : own = accepts := by
    cases destination with
    | none => exact Option.some.inj haccepts
    | some sessionId => exact Option.some.inj haccepts
  exact ⟨destination, hown ▸ hcall⟩

theorem own_move {calls : List (Option String × (Json.Tree → Bool))} {protocol : Protocol E}
    {choice : Choice} {k : Nat} {pool : Pool (Shared E) Call} (h : Own calls pool) :
    Own calls (move (callMethod protocol choice) k pool) := by
  intro i t' accepts ht' haccepts
  by_cases hk : k = i
  · subst hk
    have hlen : (move (callMethod protocol choice) k pool).threads.length = pool.threads.length :=
      length_move k pool
    obtain ⟨hlt, -⟩ := List.getElem?_eq_some_iff.mp ht'
    have ht := List.getElem?_eq_getElem (l := pool.threads) (by omega : k < _)
    rcases move_self (callMethod protocol choice) ht with ⟨-, hstill⟩ | ⟨s', u, hstep, -, hu⟩
    · rw [hstill] at ht'
      exact h k t' accepts ht' haccepts
    · obtain rfl := Option.some.inj (hu.symm.trans ht')
      rcases accepts_callMethod hstep with heq | hnone
      · exact h k _ accepts ht (heq.symm.trans haccepts)
      · exact absurd (hnone.symm.trans haccepts) (Option.some_ne_none _).symm
  · rw [getElem?_move_of_ne (callMethod protocol choice) hk] at ht'
    exact h i t' accepts ht' haccepts

theorem own_after (protocol : Protocol E) (calls : List (Option String × (Json.Tree → Bool)))
    (actions : List (Action E)) : Own calls (after protocol calls actions) := by
  refine History.final_induction ?_ actions (own_start calls)
  intro action pool h
  cases action with
  | call i choice => exact own_move h
  | loop => exact h
  | timeout => exact h
  | arrive message => exact h
  | shutdown => exact h
  | drop => exact h
  | listen id => exact h
  | close k => exact h

end Basecrawl.Cdp
