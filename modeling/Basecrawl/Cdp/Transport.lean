/-
  The DevTools transport: `browser/transport/mod.rs`.

  Callers and one loop share the registry, the listeners, the `open` flag and the counter of ids.
  Every access is one step of its own, so a schedule of steps is an interleaving of the threads.

  1. **State** — what is shared, where the loop stands, where a call stands.
  2. **The loop** — `handle_incoming_messages`, one step an access.
  3. **The calls** — `call_method`; a call to a target makes an inner call to the browser and goes
     on waiting for its own id when the inner one has been answered.
  4. **Runs** — the steps of the two, and what the world outside does: messages arrive, receives
     time out, sends fail, listeners come and go.
  5. **What a step can do** — one inversion lemma for the calls, one for the loop.

  What Chrome sends is read by deserializers that the build generates from the protocol; they are
  the fields of `Protocol`.  `issued`, `log` and the `since` of a channel only serve the theorems:
  they count the ids drawn and list what the loop has handled.
-/
import Basecrawl.Cdp.Registry
import Basecrawl.Lib.History
import Basecrawl.Lib.Threads

namespace Basecrawl.Cdp

open Threads
open scoped List

/-! ## State -/

/-- `protocol::cdp::types::Event`, of which the loop itself opens one -/
inductive Event (E : Type) where
  | receivedMessageFromTarget (sessionId message : String)
  | other (event : E)

/-- `types.rs Message` -/
inductive Message (E : Type) where
  | event (event : Event E)
  | response (response : Response)
  | connectionShutdown

/-- The deserializers: of a message in a message, and of what `Target.sendMessageToTarget`
    returns. -/
structure Protocol (E : Type) where
  parseRawMessage : String → Option (Message E)
  acceptsAck : Json.Tree → Bool

/-- `ListenerId` -/
inductive ListenerId where
  | sessionId (id : String)
  | browser
deriving DecidableEq

/-- What the loop has handled. -/
inductive Entry (E : Type) where
  | response (response : Response)
  | event (id : ListenerId) (event : Event E)

/-- The channel of a listener: everything sent on it, and whether its receiver is gone. -/
structure EventChannel (E : Type) where
  id : ListenerId
  since : Nat
  sent : List (Event E)
  closed : Bool

/-- Where the loop stands. -/
inductive Loop where
  | checking
  | receiving
  | delivering (rx : Nat) (response : Response)
  | closing
  | cancelling
  | clearing
  | ended

structure Shared (E : Type) where
  isOpen : Bool
  counter : UInt32
  issued : Nat
  registry : WaitingCallRegistry
  inbox : List (Message E)
  loop : Loop
  shutdowns : Nat
  dropped : Bool
  listeners : List (ListenerId × Nat)
  eventChannels : List (EventChannel E)
  log : List (Entry E)

/-- A registered call: its id, its receiver and its deserializer. -/
structure Pending where
  callId : UInt32
  rx : Nat
  accepts : Json.Tree → Bool

/-- `MethodDestination`; an inner call carries the call to a target that made it. -/
inductive Destination where
  | target (sessionId : String)
  | browser (carried : Option Pending)

structure Request where
  destination : Destination
  accepts : Json.Tree → Bool

/-- The errors of a call: `ConnectionClosed`, one of the sockets and deserializers, or no answer in
    time. -/
inductive CallError where
  | connectionClosed
  | failed
  | timedOut

/-- How a call can end. -/
inductive CallResult where
  | answered (response : Response)
  | error (error : CallError)
  | panicked

/-- Where a call stands. -/
inductive Call where
  | entering (request : Request)
  | numbering (request : Request)
  | registering (request : Request) (callId : UInt32)
  | sending (pending : Pending) (carried : Option Pending)
  | waiting (pending : Pending) (carried : Option Pending)
  | unregistering (pending : Pending) (carried : Option Pending) (error : CallError)
  | finished (pending : Option Pending) (result : CallResult)

/-! ## The loop -/

section

variable {E : Type}

/-- `resolve_call` up to the end of its critical section. -/
def resolveCall (response : Response) (s : Shared E) : Shared E :=
  { s with
    log := s.log ++ [.response response]
    registry := s.registry.unregisterCall response.callId
    loop := match s.registry.sender response.callId with
      | some rx => .delivering rx response
      | none => .checking }

def EventChannel.push (event : Event E) (channel : EventChannel E) : EventChannel E :=
  { channel with sent := channel.sent ++ [event] }

def EventChannel.close (channel : EventChannel E) : EventChannel E :=
  { channel with closed := true }

/-- An event for a listener; one whose receiver is gone ends the loop. -/
def emit (id : ListenerId) (event : Event E) (s : Shared E) : Shared E :=
  let logged : Shared E := { s with log := s.log ++ [.event id event] }
  match s.listeners.lookup id with
  | none => { logged with loop := .checking }
  | some k =>
      if (s.eventChannels[k]?).any EventChannel.closed then { logged with loop := .closing }
      else { logged with
        loop := .checking
        eventChannels := s.eventChannels.modify k (EventChannel.push event) }

/-- One message. -/
def handleMessage (protocol : Protocol E) (message : Message E) (s : Shared E) : Shared E :=
  match message with
  | .connectionShutdown => { s with loop := .closing }
  | .response response => resolveCall response s
  | .event (.receivedMessageFromTarget sessionId raw) =>
      match protocol.parseRawMessage raw with
      | some (.event event) => emit (.sessionId sessionId) event s
      | some (.response response) => resolveCall response s
      | some .connectionShutdown => { s with loop := .checking }
      | none => { s with loop := .checking }
  | .event (.other event) => emit .browser (.other event) s

/-- `handle_incoming_messages`, one access; it waits while the inbox is empty. -/
def handleIncomingMessages (protocol : Protocol E) (s : Shared E) : Shared E :=
  match s.loop with
  | .checking =>
      if 0 < s.shutdowns then { s with shutdowns := s.shutdowns - 1, loop := .closing }
      else if s.dropped then { s with loop := .closing }
      else { s with loop := .receiving }
  | .receiving =>
      match s.inbox with
      | [] => s
      | message :: rest => handleMessage protocol message { s with inbox := rest }
  | .delivering rx response =>
      { s with registry := s.registry.send rx (.response response), loop := .checking }
  | .closing => { s with isOpen := false, loop := .cancelling }
  | .cancelling =>
      { s with registry := s.registry.cancelOutstandingMethodCalls, loop := .clearing }
  | .clearing => { s with listeners := [], loop := .ended }
  | .ended => s

end

/-! ## The calls -/

/-- What the world outside decides of a step of a call. -/
inductive Choice where
  | go
  | fail
  | late
deriving DecidableEq

/-- What a reply means to its caller. -/
def settle (accepts : Json.Tree → Bool) : Reply → CallResult
  | .connectionClosed => .error .connectionClosed
  | .response response =>
      match parseResponse accepts response with
      | .ok => .answered response
      | .failed => .error .failed
      | .panicked => .panicked

/-- A call returns; the call that carries an inner one goes on waiting, unregisters, or unwinds. -/
def returning (carried own : Option Pending) (result : CallResult) : Call :=
  match carried, result with
  | none, result => .finished own result
  | some outer, .answered _ => .waiting outer none
  | some outer, .panicked => .finished (some outer) .panicked
  | some outer, .error error => .unregistering outer none error

/-- The call that carries this one. -/
def Destination.carried : Destination → Option Pending
  | .target _ => none
  | .browser carried => carried

/-- `call_method`, one access.  The deadline is looked at before each wait and after the answer, so
    a caller can be late whatever its queue holds. -/
def callMethod {E : Type} (protocol : Protocol E) (choice : Choice) (s : Shared E) :
    Call → Option (Shared E × Call)
  | .entering request =>
      if s.isOpen then some (s, .numbering request)
      else some (s, returning request.destination.carried none (.error .connectionClosed))
  | .numbering request =>
      let drawn := { s with counter := s.counter + 1, issued := s.issued + 1 }
      -- `serde_json::to_string` comes after the id
      if choice = .fail then
        some (drawn, returning request.destination.carried none (.error .failed))
      else some (drawn, .registering request s.counter)
  | .registering request callId =>
      let (registry, rx) := s.registry.registerCall s.log.length callId
      let pending : Pending := ⟨callId, rx, request.accepts⟩
      match request.destination with
      | .target _ =>
          some ({ s with registry }, .entering ⟨.browser (some pending), protocol.acceptsAck⟩)
      | .browser carried => some ({ s with registry }, .sending pending carried)
  | .sending pending carried =>
      if choice = .fail then some (s, .unregistering pending carried .failed)
      else some (s, .waiting pending carried)
  | .waiting pending carried =>
      if choice = .late then some (s, returning carried (some pending) (.error .timedOut))
      else match s.registry.peek pending.rx with
        | none => none
        | some reply => some ({ s with registry := s.registry.tryRecv pending.rx },
            returning carried (some pending) (settle pending.accepts reply))
  | .unregistering pending carried error =>
      some ({ s with registry := s.registry.unregisterCall pending.callId },
        returning carried (some pending) (.error error))
  | .finished _ _ => none

/-! ## Runs -/

variable {E : Type}

/-- What can happen next. -/
inductive Action (E : Type) where
  | call (i : Nat) (choice : Choice)
  | loop
  | timeout
  | arrive (message : Message E)
  | shutdown
  | drop
  | listen (id : ListenerId)
  | close (k : Nat)

/-- The slots of `loop_shutdown_tx`; a sender waits for one while the loop is there. -/
def shutdownSlots : Nat := 100

/-- What the callers of the transport and the socket do to the shared state. -/
def outside (action : Action E) (s : Shared E) : Shared E :=
  match action with
  | .call _ _ | .loop => s
  | .timeout =>
      match s.loop, s.inbox with
      | .receiving, [] => { s with loop := .closing }
      | _, _ => s
  | .arrive message => { s with inbox := s.inbox ++ [message] }
  | .shutdown =>
      if s.shutdowns < shutdownSlots then { s with shutdowns := s.shutdowns + 1 } else s
  | .drop => { s with dropped := true }
  | .listen id => { s with
      listeners := (id, s.eventChannels.length) :: s.listeners.filter fun entry => entry.1 != id
      eventChannels := s.eventChannels ++ [⟨id, s.log.length, [], false⟩] }
  | .close k => { s with eventChannels := s.eventChannels.modify k EventChannel.close }

/-- One step of the whole. -/
def step (protocol : Protocol E) (action : Action E) (pool : Pool (Shared E) Call) :
    Unit × Pool (Shared E) Call :=
  match action with
  | .call i choice => ((), move (callMethod protocol choice) i pool)
  | .loop => ((), { pool with shared := handleIncomingMessages protocol pool.shared })
  | action => ((), { pool with shared := outside action pool.shared })

/-- `Transport::new`, with the calls that will be made on it; each begins when it first moves. -/
def start (calls : List (Option String × (Json.Tree → Bool))) : Pool (Shared E) Call where
  shared :=
    { isOpen := true, counter := 0, issued := 0, registry := ⟨[], []⟩, inbox := []
      loop := .checking, shutdowns := 0, dropped := false, listeners := [], eventChannels := []
      log := [] }
  threads := calls.map fun call => .entering
    ⟨match call.1 with | some sessionId => .target sessionId | none => .browser none, call.2⟩

/-- The state a run leaves. -/
def after (protocol : Protocol E) (calls : List (Option String × (Json.Tree → Bool)))
    (actions : List (Action E)) : Pool (Shared E) Call :=
  History.final (step protocol) actions (start calls)

/-! ## What a call holds -/

/-- The id that a call has drawn and not registered yet. -/
def Call.numbered : Call → Option UInt32
  | .registering _ callId => some callId
  | _ => none

/-- The registrations a call has made and not given back, its own and the one it carries. -/
def Call.live : Call → List Pending
  | .entering request | .numbering request | .registering request _ =>
      request.destination.carried.toList
  | .sending pending carried | .waiting pending carried => pending :: carried.toList
  | .unregistering _ carried _ => carried.toList
  | .finished _ _ => []

/-- The registrations a call knows of. -/
def Call.pendings : Call → List Pending
  | .entering request | .numbering request | .registering request _ =>
      request.destination.carried.toList
  | .sending pending carried | .waiting pending carried | .unregistering pending carried _ =>
      pending :: carried.toList
  | .finished pending _ => pending.toList

/-- The answer a call has returned. -/
def Call.answer : Call → Option (Pending × Response)
  | .finished (some pending) (.answered response) => some (pending, response)
  | _ => none

theorem numbered_returning (carried own : Option Pending) (result : CallResult) :
    (returning carried own result).numbered = none := by
  cases carried with
  | none => rfl
  | some outer => cases result <;> rfl

theorem live_returning (carried own : Option Pending) (result : CallResult) :
    (returning carried own result).live <+ carried.toList := by
  cases carried with
  | none => exact List.nil_sublist _
  | some outer =>
    cases result with
    | answered response => exact List.Sublist.refl _
    | error error => exact List.nil_sublist _
    | panicked => exact List.nil_sublist _

theorem pendings_returning (carried own : Option Pending) (result : CallResult) :
    (returning carried own result).pendings <+ own.toList ++ carried.toList := by
  cases carried with
  | none => exact List.sublist_append_left _ _
  | some outer =>
    have hcarried : [outer] <+ own.toList ++ [outer] := List.sublist_append_right _ _
    cases result with
    | answered response => exact hcarried
    | error error => exact hcarried
    | panicked => exact hcarried

/-- Only a call of its own returns an answer, and only the one it was given. -/
theorem answer_returning {carried own : Option Pending} {result : CallResult} {p : Pending}
    {response : Response} (h : (returning carried own result).answer = some (p, response)) :
    own = some p ∧ result = .answered response := by
  cases carried with
  | some outer => cases result <;> exact absurd h (Option.some_ne_none _).symm
  | none =>
    cases own with
    | none => exact absurd h (Option.some_ne_none _).symm
    | some own =>
      cases result with
      | answered r =>
        obtain ⟨rfl, rfl⟩ := Prod.mk.inj (Option.some.inj h)
        exact ⟨rfl, rfl⟩
      | error error => exact absurd h (Option.some_ne_none _).symm
      | panicked => exact absurd h (Option.some_ne_none _).symm

/-- A call that is still live is one that is known. -/
theorem live_sublist (t : Call) : t.live <+ t.pendings := by
  cases t with
  | entering request => exact List.Sublist.refl _
  | numbering request => exact List.Sublist.refl _
  | registering request callId => exact List.Sublist.refl _
  | sending pending carried => exact List.Sublist.refl _
  | waiting pending carried => exact List.Sublist.refl _
  | unregistering pending carried error => exact List.sublist_cons_self _ _
  | finished pending result => exact List.nil_sublist _

/-- A reply is answered with itself. -/
theorem settle_eq_answered {accepts : Json.Tree → Bool} {reply : Reply} {response : Response}
    (h : settle accepts reply = .answered response) :
    reply = .response response ∧ parseResponse accepts response = .ok := by
  cases reply with
  | connectionClosed => exact absurd h CallResult.noConfusion
  | response r =>
    rw [settle] at h
    split at h
    · rename_i hok
      obtain rfl := CallResult.answered.inj h
      exact ⟨rfl, hok⟩
    · exact absurd h CallResult.noConfusion
    · exact absurd h CallResult.noConfusion

/-! ## What a step can do -/

/-- A call moves on and holds nothing new. -/
structure Call.Drops (t t' : Call) : Prop where
  numbered : t'.numbered = none
  live : t'.live <+ t.live
  pendings : t'.pendings <+ t.pendings
  answer : t'.answer = none

theorem answer_returning_of_ne {carried own : Option Pending} {result : CallResult}
    (h : ∀ response, result ≠ .answered response) :
    (returning carried own result).answer = none := by
  cases hanswer : (returning carried own result).answer with
  | none => rfl
  | some found => exact absurd (answer_returning hanswer).2 (h found.2)

/-- **A step of a call**: nothing shared changes; an id is drawn; a registration is made; a reply is
    read; or a registration is taken back. -/
theorem callMethod_cases {protocol : Protocol E} {choice : Choice} {s s' : Shared E} {t t' : Call}
    (h : callMethod protocol choice s t = some (s', t')) :
    (s' = s ∧ t.numbered = none ∧ t.Drops t') ∨
    (s' = { s with counter := s.counter + 1, issued := s.issued + 1 } ∧ t.numbered = none ∧
      (t.Drops t' ∨ (t'.numbered = some s.counter ∧ t'.live = t.live ∧ t'.pendings = t.pendings ∧
        t'.answer = none))) ∨
    (∃ callId pending, t.numbered = some callId ∧ pending.callId = callId ∧
      pending.rx = s.registry.channels.length ∧ t.pendings = t.live ∧
      s' = { s with registry := (s.registry.registerCall s.log.length callId).1 } ∧
      t'.numbered = none ∧ t'.live <+ pending :: t.live ∧ t'.pendings = t'.live ∧
      t'.answer = none) ∨
    (∃ pending carried reply, t = .waiting pending carried ∧
      s.registry.peek pending.rx = some reply ∧
      s' = { s with registry := s.registry.tryRecv pending.rx } ∧
      t' = returning carried (some pending) (settle pending.accepts reply)) ∨
    (∃ pending carried error, t = .unregistering pending carried error ∧
      s' = { s with registry := s.registry.unregisterCall pending.callId } ∧
      t' = returning carried (some pending) (.error error)) := by
  cases t with
  | entering request =>
    left
    simp only [callMethod] at h
    split at h
    · obtain ⟨rfl, rfl⟩ := Prod.mk.inj (Option.some.inj h)
      exact ⟨rfl, rfl, rfl, List.Sublist.refl _, List.Sublist.refl _, rfl⟩
    · obtain ⟨rfl, rfl⟩ := Prod.mk.inj (Option.some.inj h)
      exact ⟨rfl, rfl, numbered_returning _ _ _, live_returning _ _ _, pendings_returning _ _ _,
        answer_returning_of_ne fun _ => CallResult.noConfusion⟩
  | numbering request =>
    right; left
    simp only [callMethod] at h
    split at h
    · obtain ⟨rfl, rfl⟩ := Prod.mk.inj (Option.some.inj h)
      exact ⟨rfl, rfl, .inl ⟨numbered_returning _ _ _, live_returning _ _ _,
        pendings_returning _ _ _, answer_returning_of_ne fun _ => CallResult.noConfusion⟩⟩
    · obtain ⟨rfl, rfl⟩ := Prod.mk.inj (Option.some.inj h)
      exact ⟨rfl, rfl, .inr ⟨rfl, rfl, rfl, rfl⟩⟩
  | registering request callId =>
    right; right; left
    obtain ⟨destination, accepts⟩ := request
    refine ⟨callId, ⟨callId, s.registry.channels.length, accepts⟩, rfl, rfl, rfl, rfl, ?_⟩
    cases destination with
    | target sessionId =>
      obtain ⟨rfl, rfl⟩ := Prod.mk.inj (Option.some.inj h)
      exact ⟨rfl, rfl, List.Sublist.refl _, rfl, rfl⟩
    | browser carried =>
      obtain ⟨rfl, rfl⟩ := Prod.mk.inj (Option.some.inj h)
      exact ⟨rfl, rfl, List.Sublist.refl _, rfl, rfl⟩
  | sending pending carried =>
    left
    simp only [callMethod] at h
    split at h
    · obtain ⟨rfl, rfl⟩ := Prod.mk.inj (Option.some.inj h)
      exact ⟨rfl, rfl, rfl, List.sublist_cons_self _ _, List.Sublist.refl _, rfl⟩
    · obtain ⟨rfl, rfl⟩ := Prod.mk.inj (Option.some.inj h)
      exact ⟨rfl, rfl, rfl, List.Sublist.refl _, List.Sublist.refl _, rfl⟩
  | waiting pending carried =>
    simp only [callMethod] at h
    split at h
    · -- late: the registration stays behind
      left
      obtain ⟨rfl, rfl⟩ := Prod.mk.inj (Option.some.inj h)
      exact ⟨rfl, rfl, numbered_returning _ _ _,
        (live_returning _ _ _).trans (List.sublist_cons_self _ _), pendings_returning _ _ _,
        answer_returning_of_ne fun _ => CallResult.noConfusion⟩
    · right; right; right; left
      cases hpeek : s.registry.peek pending.rx with
      | none =>
        rw [hpeek] at h
        exact absurd h (Option.some_ne_none _).symm
      | some reply =>
        rw [hpeek] at h
        obtain ⟨rfl, rfl⟩ := Prod.mk.inj (Option.some.inj h)
        exact ⟨pending, carried, reply, rfl, hpeek, rfl, rfl⟩
  | unregistering pending carried error =>
    right; right; right; right
    obtain ⟨rfl, rfl⟩ := Prod.mk.inj (Option.some.inj h)
    exact ⟨pending, carried, error, rfl, rfl, rfl⟩
  | finished pending result => exact absurd h (Option.some_ne_none _).symm

/-- The response that the loop has taken out of the registry and not sent yet. -/
def Loop.delivers : Loop → Option (Nat × Response)
  | .delivering rx response => some (rx, response)
  | _ => none

theorem eq_of_delivers {loop : Loop} {rx : Nat} {response : Response}
    (h : loop.delivers = some (rx, response)) : loop = .delivering rx response := by
  cases loop with
  | delivering rx' response' =>
    obtain ⟨rfl, rfl⟩ := Prod.mk.inj (Option.some.inj h)
    rfl
  | checking => exact absurd h (Option.some_ne_none _).symm
  | receiving => exact absurd h (Option.some_ne_none _).symm
  | closing => exact absurd h (Option.some_ne_none _).symm
  | cancelling => exact absurd h (Option.some_ne_none _).symm
  | clearing => exact absurd h (Option.some_ne_none _).symm
  | ended => exact absurd h (Option.some_ne_none _).symm

/-- The waiting calls have been told that the connection is closed. -/
def Loop.told : Loop → Bool
  | .clearing | .ended => true
  | _ => false

def Entry.response? : Entry E → Option Response
  | .response r => some r
  | .event _ _ => none

/-- Nothing happens to the calls: no id, no registration, no response. -/
structure Quiet (s s' : Shared E) : Prop where
  counter : s'.counter = s.counter
  issued : s'.issued = s.issued
  registry : s'.registry = s.registry
  log : ∃ entries, s'.log = s.log ++ entries ∧ ∀ entry ∈ entries, entry.response? = none
  delivers : s'.loop.delivers = s.loop.delivers
  told : s'.loop.told = s.loop.told

theorem Quiet.refl (s : Shared E) : Quiet s s :=
  ⟨rfl, rfl, rfl, ⟨[], (List.append_nil _).symm, fun _ h => absurd h List.not_mem_nil⟩, rfl, rfl⟩

theorem Quiet.trans {s s' s'' : Shared E} (h : Quiet s s') (h' : Quiet s' s'') : Quiet s s'' := by
  obtain ⟨entries, hlog, hentries⟩ := h.log
  obtain ⟨entries', hlog', hentries'⟩ := h'.log
  refine ⟨h'.counter.trans h.counter, h'.issued.trans h.issued, h'.registry.trans h.registry,
    ⟨entries ++ entries', ?_, ?_⟩, h'.delivers.trans h.delivers, h'.told.trans h.told⟩
  · rw [hlog', hlog, List.append_assoc]
  · intro entry hentry
    rcases List.mem_append.mp hentry with hold | hnew
    · exact hentries entry hold
    · exact hentries' entry hnew

/-- What the world outside does is quiet. -/
theorem quiet_outside (action : Action E) (s : Shared E) : Quiet s (outside action s) := by
  obtain ⟨entries, hlog, hentries⟩ := (Quiet.refl s).log
  cases action with
  | call i choice => exact Quiet.refl s
  | loop => exact Quiet.refl s
  | timeout =>
    simp only [outside]
    split
    · rename_i hloop hinbox
      exact ⟨rfl, rfl, rfl, ⟨entries, hlog, hentries⟩, by rw [hloop]; rfl, by rw [hloop]; rfl⟩
    · exact Quiet.refl s
  | arrive message => exact ⟨rfl, rfl, rfl, ⟨entries, hlog, hentries⟩, rfl, rfl⟩
  | shutdown =>
    simp only [outside]
    split
    · exact ⟨rfl, rfl, rfl, ⟨entries, hlog, hentries⟩, rfl, rfl⟩
    · exact Quiet.refl s
  | drop => exact ⟨rfl, rfl, rfl, ⟨entries, hlog, hentries⟩, rfl, rfl⟩
  | listen id => exact ⟨rfl, rfl, rfl, ⟨entries, hlog, hentries⟩, rfl, rfl⟩
  | close k => exact ⟨rfl, rfl, rfl, ⟨entries, hlog, hentries⟩, rfl, rfl⟩

/-- An event is quiet. -/
theorem quiet_emit {s : Shared E} (id : ListenerId) (event : Event E)
    (hdelivers : s.loop.delivers = none) (htold : s.loop.told = false) :
    Quiet s (emit id event s) := by
  have hlog : ∃ entries, s.log ++ [Entry.event id event] = s.log ++ entries ∧
      ∀ entry ∈ entries, entry.response? = none := by
    refine ⟨_, rfl, ?_⟩
    intro entry hentry
    rw [List.mem_singleton.mp hentry]
    rfl
  rw [emit]
  split
  · exact ⟨rfl, rfl, rfl, hlog, hdelivers.symm, htold.symm⟩
  · split
    · exact ⟨rfl, rfl, rfl, hlog, hdelivers.symm, htold.symm⟩
    · exact ⟨rfl, rfl, rfl, hlog, hdelivers.symm, htold.symm⟩

/-- A message is quiet, or a response that the loop takes. -/
theorem handleMessage_cases (protocol : Protocol E) (message : Message E) {s : Shared E}
    (hdelivers : s.loop.delivers = none) (htold : s.loop.told = false) :
    Quiet s (handleMessage protocol message s) ∨
      ∃ response, handleMessage protocol message s = resolveCall response s := by
  have hlog := (Quiet.refl s).log
  cases message with
  | connectionShutdown => exact .inl ⟨rfl, rfl, rfl, hlog, hdelivers.symm, htold.symm⟩
  | response response => exact .inr ⟨response, rfl⟩
  | event event =>
    cases event with
    | other event => exact .inl (quiet_emit _ _ hdelivers htold)
    | receivedMessageFromTarget sessionId raw =>
      simp only [handleMessage]
      split
      · exact .inl (quiet_emit _ _ hdelivers htold)
      · exact .inr ⟨_, rfl⟩
      · exact .inl ⟨rfl, rfl, rfl, hlog, hdelivers.symm, htold.symm⟩
      · exact .inl ⟨rfl, rfl, rfl, hlog, hdelivers.symm, htold.symm⟩

/-- **A step of the loop** is quiet, takes a response, sends it, or tells the waiting calls. -/
theorem handleIncomingMessages_cases (protocol : Protocol E) (s : Shared E) :
    Quiet s (handleIncomingMessages protocol s) ∨
    (∃ response s₀, Quiet s s₀ ∧ s.loop.delivers = none ∧ s.loop.told = false ∧
      handleIncomingMessages protocol s = resolveCall response s₀) ∨
    (∃ rx response, s.loop = .delivering rx response ∧ handleIncomingMessages protocol s =
      { s with registry := s.registry.send rx (.response response), loop := .checking }) ∨
    (s.loop = .cancelling ∧ handleIncomingMessages protocol s =
      { s with registry := s.registry.cancelOutstandingMethodCalls, loop := .clearing }) := by
  have hlog := (Quiet.refl s).log
  cases hloop : s.loop with
  | checking =>
    left
    simp only [handleIncomingMessages, hloop]
    split
    · exact ⟨rfl, rfl, rfl, hlog, by rw [hloop]; rfl, by rw [hloop]; rfl⟩
    · split
      · exact ⟨rfl, rfl, rfl, hlog, by rw [hloop]; rfl, by rw [hloop]; rfl⟩
      · exact ⟨rfl, rfl, rfl, hlog, by rw [hloop]; rfl, by rw [hloop]; rfl⟩
  | receiving =>
    have hdelivers : s.loop.delivers = none := by
      rw [hloop]
      rfl
    have htold : s.loop.told = false := by
      rw [hloop]
      rfl
    cases hinbox : s.inbox with
    | nil =>
      left
      simp only [handleIncomingMessages, hloop, hinbox]
      exact Quiet.refl s
    | cons message rest =>
      -- taking the message is quiet already
      have htake : Quiet s { s with inbox := rest } := ⟨rfl, rfl, rfl, hlog, rfl, rfl⟩
      have hnext : handleIncomingMessages protocol s =
          handleMessage protocol message { s with inbox := rest } := by
        simp only [handleIncomingMessages, hloop, hinbox]
      rw [hnext]
      have hcases := handleMessage_cases protocol message (s := { s with inbox := rest })
        hdelivers htold
      rcases hcases with hquiet | ⟨response, hresolve⟩
      · exact .inl (htake.trans hquiet)
      · exact .inr (.inl ⟨response, _, htake, rfl, rfl, hresolve⟩)
  | delivering rx response =>
    right; right; left
    refine ⟨rx, response, rfl, ?_⟩
    simp only [handleIncomingMessages, hloop]
  | closing =>
    left
    simp only [handleIncomingMessages, hloop]
    exact ⟨rfl, rfl, rfl, hlog, by rw [hloop]; rfl, by rw [hloop]; rfl⟩
  | cancelling =>
    right; right; right
    refine ⟨rfl, ?_⟩
    simp only [handleIncomingMessages, hloop]
  | clearing =>
    left
    simp only [handleIncomingMessages, hloop]
    exact ⟨rfl, rfl, rfl, hlog, by rw [hloop]; rfl, by rw [hloop]; rfl⟩
  | ended =>
    left
    simp only [handleIncomingMessages, hloop]
    exact Quiet.refl s

/-- **Invariants**: what quiet steps keep, the three steps of an answer, and every step of a call,
    every run keeps. -/
theorem run_invariant {protocol : Protocol E} {P : Shared E → List Call → Prop}
    (hquiet : ∀ s s' threads, Quiet s s' → P s threads → P s' threads)
    (hresolve : ∀ response s threads, s.loop.delivers = none → s.loop.told = false →
      P s threads → P (resolveCall response s) threads)
    (hdeliver : ∀ rx response s threads, s.loop = .delivering rx response → P s threads →
      P { s with registry := s.registry.send rx (.response response), loop := .checking } threads)
    (hcancel : ∀ s threads, s.loop = .cancelling → P s threads →
      P { s with registry := s.registry.cancelOutstandingMethodCalls, loop := .clearing } threads)
    (hcall : ∀ choice s before t after s' t', callMethod protocol choice s t = some (s', t') →
      P s (before ++ t :: after) → P s' (before ++ t' :: after))
    (actions : List (Action E)) {pool : Pool (Shared E) Call} (h : P pool.shared pool.threads) :
    P (History.final (step protocol) actions pool).shared
      (History.final (step protocol) actions pool).threads := by
  refine History.final_induction
    (P := fun pool : Pool (Shared E) Call => P pool.shared pool.threads) ?_ actions h
  intro action pool hpool
  have houtside : P (outside action pool.shared) pool.threads :=
    hquiet _ _ _ (quiet_outside action pool.shared) hpool
  cases action with
  | call i choice =>
    simp only [step]
    rcases move_cases (callMethod protocol choice) i pool with
      ⟨-, hstill⟩ | ⟨before, t, after, s', t', hthreads, -, hstep, hnext⟩
    · rw [hstill]
      exact hpool
    · rw [hnext]
      rw [hthreads] at hpool
      exact hcall choice _ before t after s' t' hstep hpool
  | loop =>
    simp only [step]
    rcases handleIncomingMessages_cases protocol pool.shared with
      hstep | ⟨response, s₀, hfirst, hdelivers, htold, hnext⟩ | ⟨rx, response, hloop, hnext⟩ |
      ⟨hloop, hnext⟩
    · exact hquiet _ _ _ hstep hpool
    · rw [hnext]
      exact hresolve response s₀ _ (hfirst.delivers.trans hdelivers) (hfirst.told.trans htold)
        (hquiet _ _ _ hfirst hpool)
    · rw [hnext]
      exact hdeliver rx response _ _ hloop hpool
    · rw [hnext]
      exact hcancel _ _ hloop hpool
  | timeout => exact houtside
  | arrive message => exact houtside
  | shutdown => exact houtside
  | drop => exact houtside
  | listen id => exact houtside
  | close k => exact houtside

end Basecrawl.Cdp
