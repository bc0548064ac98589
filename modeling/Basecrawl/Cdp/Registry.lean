/-
  The waiting calls of the DevTools transport: `browser/transport/waiting_call_registry.rs`, with
  the messages of `types.rs`.

  A call registers its id and keeps the receiving end of a fresh channel; the map keeps the sending
  end.  A response takes its entry out of the map under the lock and is sent afterwards, so the two
  are two operations here (`take`, then `send`).

  1. **Messages** — responses, and what a caller reads in one (`parseResponse`).
  2. **The registry** — the map, and the channels it made.
  3. **What the operations leave alone** — one lemma an operation for the map, one for a channel.

  A receiver that its caller has dropped only makes a `send` fail, and every `send` of this file
  forgets whether it failed: receivers are not counted here.
-/
import Basecrawl.Lib.Json
import Mathlib.Data.List.Basic

namespace Basecrawl.Cdp

/-! ## Messages -/

/-- `types.rs RemoteError` -/
structure RemoteError where
  code : Int32
  message : String

/-- `types.rs Response` -/
structure Response where
  callId : UInt32
  result : Option Json.Tree
  error : Option RemoteError

/-- How reading a response can end; `unwrap` of a missing result panics. -/
inductive Parsed where
  | ok
  | failed
  | panicked
deriving DecidableEq

/-- `types.rs parse_response`, with `accepts` the deserializer of the method's return object. -/
def parseResponse (accepts : Json.Tree → Bool) (response : Response) : Parsed :=
  match response.error, response.result with
  | some _, _ => .failed
  | none, none => .panicked
  | none, some value => if accepts value then .ok else .failed

/-- What a channel carries: `Result<Response>`, whose only error is `ConnectionClosed`. -/
inductive Reply where
  | response (response : Response)
  | connectionClosed

/-! ## The registry -/

/-- One channel.  `since` only serves the theorems: how much had been handled when it was made. -/
structure Channel where
  callId : UInt32
  since : Nat
  queue : List Reply

/-- Replies at the end of the queue. -/
def Channel.push (replies : List Reply) (channel : Channel) : Channel :=
  { channel with queue := channel.queue ++ replies }

/-- The queue without its first reply. -/
def Channel.pop (channel : Channel) : Channel := { channel with queue := channel.queue.tail }

/-- `WaitingCallRegistry`: the map from ids to senders, and the channels behind the senders. -/
structure WaitingCallRegistry where
  calls : List (UInt32 × Nat)
  channels : List Channel

namespace WaitingCallRegistry

/-- `register_call`; inserting replaces. -/
def registerCall (now : Nat) (callId : UInt32) (registry : WaitingCallRegistry) :
    WaitingCallRegistry × Nat :=
  (⟨(callId, registry.channels.length) :: registry.calls.filter fun entry => entry.1 != callId,
    registry.channels ++ [⟨callId, now, []⟩]⟩, registry.channels.length)

/-- `unregister_call` -/
def unregisterCall (callId : UInt32) (registry : WaitingCallRegistry) : WaitingCallRegistry :=
  { registry with calls := registry.calls.filter fun entry => entry.1 != callId }

/-- The sender that `resolve_call` removes under the lock. -/
def sender (callId : UInt32) (registry : WaitingCallRegistry) : Option Nat :=
  registry.calls.lookup callId

/-- A reply sent to one channel. -/
def send (rx : Nat) (reply : Reply) (registry : WaitingCallRegistry) : WaitingCallRegistry :=
  { registry with channels := registry.channels.modify rx (Channel.push [reply]) }

/-- `cancel_outstanding_method_calls`, which keeps the lock while it sends. -/
def cancelOutstandingMethodCalls (registry : WaitingCallRegistry) : WaitingCallRegistry :=
  registry.calls.foldl (fun registry entry => registry.send entry.2 .connectionClosed) registry

/-- The reply that `try_recv` would take. -/
def peek (rx : Nat) (registry : WaitingCallRegistry) : Option Reply :=
  (registry.channels[rx]?).bind fun channel => channel.queue.head?

/-- The channels once `try_recv` has taken a reply. -/
def tryRecv (rx : Nat) (registry : WaitingCallRegistry) : WaitingCallRegistry :=
  { registry with channels := registry.channels.modify rx Channel.pop }

/-! ## What the operations leave alone -/

variable {registry : WaitingCallRegistry} {callId id : UInt32} {now rx c : Nat} {reply : Reply}
  {channel : Channel}

@[simp] theorem calls_send : (registry.send rx reply).calls = registry.calls := rfl

@[simp] theorem calls_tryRecv : (registry.tryRecv rx).calls = registry.calls := rfl

@[simp] theorem channels_unregisterCall :
    (registry.unregisterCall callId).channels = registry.channels := rfl

/-- Unregistering takes the entries of one id out. -/
theorem mem_unregisterCall :
    (id, c) ∈ (registry.unregisterCall callId).calls ↔ (id, c) ∈ registry.calls ∧ id ≠ callId := by
  rw [unregisterCall, List.mem_filter, bne_iff_ne]

/-- Registering puts one entry in, and takes the others of its id out. -/
theorem mem_registerCall : (id, c) ∈ (registry.registerCall now callId).1.calls ↔
    (id = callId ∧ c = registry.channels.length) ∨ ((id, c) ∈ registry.calls ∧ id ≠ callId) := by
  rw [registerCall, List.mem_cons, List.mem_filter, bne_iff_ne, Prod.mk.injEq]

/-- No id has two senders. -/
def Keyed (registry : WaitingCallRegistry) : Prop := (registry.calls.map Prod.fst).Nodup

theorem keyed_unregisterCall (h : registry.Keyed) : (registry.unregisterCall callId).Keyed :=
  (List.filter_sublist.map Prod.fst).nodup h

theorem keyed_registerCall (h : registry.Keyed) : (registry.registerCall now callId).1.Keyed := by
  have hrest : ((registry.calls.filter fun entry => entry.1 != callId).map Prod.fst).Nodup :=
    (List.filter_sublist.map Prod.fst).nodup h
  refine List.nodup_cons.mpr ⟨?_, hrest⟩
  intro hmem
  obtain ⟨entry, hentry, heq⟩ := List.mem_map.mp hmem
  obtain ⟨-, hne⟩ := List.mem_filter.mp hentry
  exact absurd heq (bne_iff_ne.mp hne)

/-- With one sender an id, looking an id up finds the entry there is. -/
theorem sender_eq_some (h : registry.Keyed) :
    registry.sender id = some c ↔ (id, c) ∈ registry.calls := by
  constructor
  · intro hlookup
    obtain ⟨before, after, hsplit, -⟩ := List.lookup_eq_some_iff.mp hlookup
    rw [hsplit]
    exact List.mem_append_right _ List.mem_cons_self
  · intro hmem
    obtain ⟨before, after, hsplit⟩ := List.append_of_mem hmem
    rw [Keyed, hsplit, List.map_append, List.map_cons, List.nodup_append] at h
    rw [sender, hsplit, List.lookup_eq_some_iff]
    refine ⟨before, after, rfl, ?_⟩
    intro entry hentry
    have hne := h.2.2 entry.1 (List.mem_map_of_mem hentry) id List.mem_cons_self
    exact bne_iff_ne.mpr (Ne.symm hne)

theorem sender_eq_none : registry.sender id = none ↔ ∀ c, (id, c) ∉ registry.calls := by
  rw [sender, List.lookup_eq_none_iff]
  constructor
  · intro h c hmem
    have hne := h (id, c) hmem
    simp at hne
  · intro h entry hentry
    by_contra heq
    have hid : id = entry.1 := by simpa using heq
    subst hid
    exact h entry.2 hentry

/-! ### One channel -/

theorem channel_send (rx : Nat) (reply : Reply) (h : registry.channels[c]? = some channel) :
    (registry.send rx reply).channels[c]? =
      some (if rx = c then channel.push [reply] else channel) := by
  rw [send, List.getElem?_modify, h, Option.map_eq_map, Option.map_some]

theorem channel_tryRecv (rx : Nat) (h : registry.channels[c]? = some channel) :
    (registry.tryRecv rx).channels[c]? = some (if rx = c then channel.pop else channel) := by
  rw [tryRecv, List.getElem?_modify, h, Option.map_eq_map, Option.map_some]

/-- The channels there are stay what they are. -/
theorem channel_registerCall (h : registry.channels[c]? = some channel) :
    (registry.registerCall now callId).1.channels[c]? = some channel := by
  obtain ⟨hlt, -⟩ := List.getElem?_eq_some_iff.mp h
  rw [registerCall, List.getElem?_append_left hlt, h]

/-- The channel that a call gets. -/
theorem channel_registered :
    (registry.registerCall now callId).1.channels[registry.channels.length]? =
      some ⟨callId, now, []⟩ := by
  rw [registerCall, List.getElem?_append_right (Nat.le_refl _), Nat.sub_self]
  rfl

/-- A channel that is there afterwards was there before, or is the new one. -/
theorem channel_of_registerCall
    (h : (registry.registerCall now callId).1.channels[c]? = some channel) :
    registry.channels[c]? = some channel ∨
      (c = registry.channels.length ∧ channel = ⟨callId, now, []⟩) := by
  rw [registerCall] at h
  by_cases hlt : c < registry.channels.length
  · left
    rwa [List.getElem?_append_left hlt] at h
  · right
    rw [List.getElem?_append_right (Nat.le_of_not_lt hlt), List.getElem?_singleton] at h
    split at h
    · rename_i hzero
      exact ⟨by omega, (Option.some.inj h).symm⟩
    · exact absurd h (Option.some_ne_none _).symm

theorem cancel_go : ∀ (entries : List (UInt32 × Nat)) (registry : WaitingCallRegistry),
    let after := entries.foldl (fun registry entry => registry.send entry.2 .connectionClosed)
      registry
    after.calls = registry.calls ∧ after.channels.length = registry.channels.length ∧
    ∀ c, after.channels[c]? = (registry.channels[c]?).map (Channel.push
      (List.replicate (entries.countP fun entry => entry.2 == c) .connectionClosed))
  | [], registry => by
      refine ⟨rfl, rfl, ?_⟩
      intro c
      rw [List.foldl_nil]
      cases registry.channels[c]? with
      | none => rfl
      | some channel => simp [Channel.push]
  | entry :: entries, registry => by
      obtain ⟨hcalls, hlen, hchannels⟩ :=
        cancel_go entries (registry.send entry.2 .connectionClosed)
      refine ⟨hcalls, hlen.trans (List.length_modify _ _ _), ?_⟩
      intro c
      refine (hchannels c).trans ?_
      rw [send, List.getElem?_modify]
      cases registry.channels[c]? with
      | none => rfl
      | some channel =>
        simp only [Option.map_eq_map, Option.map_some, Option.some.injEq, List.countP_cons]
        by_cases hc : entry.2 = c
        · simp [hc, Channel.push, List.replicate_succ]
        · simp [hc]

@[simp] theorem calls_cancelOutstandingMethodCalls :
    registry.cancelOutstandingMethodCalls.calls = registry.calls :=
  (cancel_go registry.calls registry).1

@[simp] theorem length_channels_cancel :
    registry.cancelOutstandingMethodCalls.channels.length = registry.channels.length :=
  (cancel_go registry.calls registry).2.1

/-- A channel is told as often as it is registered. -/
theorem channel_cancel (h : registry.channels[c]? = some channel) :
    registry.cancelOutstandingMethodCalls.channels[c]? =
      some (channel.push
        (List.replicate (registry.calls.countP fun entry => entry.2 == c) .connectionClosed)) := by
  have hchannel := (cancel_go registry.calls registry).2.2 c
  rw [h, Option.map_some] at hchannel
  exact hchannel

end WaitingCallRegistry

end Basecrawl.Cdp
