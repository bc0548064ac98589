/-
  Programs at one end of a connection.

  A dialog reads exactly so many bytes, writes, and calls on things outside the connection; `Port`
  keeps what it will read, in the segments it arrives in, and what it has written and called.

  1. **Runs** — `Runs x inp out calls r`: from any stream that begins with `inp`, however it is cut,
     `x` takes `inp` and no byte more, writes `out`, calls `calls` and ends with `r`.
  2. **Starves** — `Starves x inp out calls e`: when the stream ends after `inp`, `x` has written
     `out` before it finds that out.  This is what the other end has got while `x` waits for more.

  There is one rule for each way to build a dialog, so the runs of a program are read off its text.
-/
import Basecrawl.Lib.Run
import Basecrawl.Lib.Segments

namespace Basecrawl.Connection

open Text Segments Run

variable {ev ε α β : Type}

/-- One end of a connection. -/
structure Port (ev : Type) where
  inbound : List Bytes
  sent : Bytes := []
  calls : List ev := []

abbrev Dialog (ev ε α : Type) := EStateM ε (Port ev) α

/-! ## Steps -/

def send (bytes : Bytes) : Dialog ev ε Unit := update fun port =>
  { port with sent := port.sent ++ bytes }

def call (e : ev) : Dialog ev ε Unit := update fun port => { port with calls := port.calls ++ [e] }

/-- Read `n` bytes, or to the end of the stream and fail. -/
def recv (e : ε) (n : Nat) : Dialog ev ε Bytes := fun port =>
  match readExact n port.inbound with
  | some (bytes, rest) => .ok bytes { port with inbound := rest }
  | none => .error e { port with inbound := [] }

/-- Run a dialog for its result; what it did stays done. -/
def result {ε' : Type} (x : Dialog ev ε α) : Dialog ev ε' (Except ε α) := fun port =>
  .ok (outcome (x port)) (final (x port))

/-! ## Runs -/

/-- The bytes that are still to be read. -/
structure Holds (port : Port ev) (bytes : Bytes) : Prop where
  filled : Filled port.inbound
  flatten : port.inbound.flatten = bytes

/-- What became of a port: `out` was written, `calls` were called, and `tail` is still to be read. -/
structure After (port : Port ev) (out : Bytes) (calls : List ev) (tail : Bytes)
    (port' : Port ev) : Prop where
  holds : Holds port' tail
  sent : port'.sent = port.sent ++ out
  calls : port'.calls = port.calls ++ calls

theorem Holds.after {port : Port ev} {bytes : Bytes} (h : Holds port bytes) :
    After port [] [] bytes port where
  holds := h
  sent := (List.append_nil _).symm
  calls := (List.append_nil _).symm

theorem After.trans {port port' port'' : Port ev} {out out' tail tail' : Bytes} {calls calls' : List ev}
    (h : After port out calls tail port') (h' : After port' out' calls' tail' port'') :
    After port (out ++ out') (calls ++ calls') tail' port'' where
  holds := h'.holds
  sent := by rw [h'.sent, h.sent, List.append_assoc]
  calls := by rw [h'.calls, h.calls, List.append_assoc]

def Runs (x : Dialog ev ε α) (inp out : Bytes) (calls : List ev) (r : Except ε α) : Prop :=
  ∀ port tail, Holds port (inp ++ tail) →
    outcome (x port) = r ∧ After port out calls tail (final (x port))

def Starves (x : Dialog ev ε α) (inp out : Bytes) (calls : List ev) (e : ε) : Prop :=
  ∀ port, Holds port inp → outcome (x port) = .error e ∧ After port out calls [] (final (x port))

theorem outcome_eq_ok {r : EStateM.Result ε (Port ev) α} {a : α} (h : outcome r = .ok a) :
    r = .ok a (final r) := by
  cases r with
  | ok b port =>
    cases h
    rfl
  | error e port => cases h

theorem outcome_eq_error {r : EStateM.Result ε (Port ev) α} {e : ε} (h : outcome r = .error e) :
    r = .error e (final r) := by
  cases r with
  | ok b port => cases h
  | error e port =>
    cases h
    rfl

/-! ## Rules -/

theorem runs_pure (a : α) : Runs (pure a : Dialog ev ε α) [] [] [] (.ok a) :=
  fun _ _ h => ⟨rfl, h.after⟩

theorem runs_throw (e : ε) : Runs (throw e : Dialog ev ε α) [] [] [] (.error e) :=
  fun _ _ h => ⟨rfl, h.after⟩

theorem runs_ofResult (r : Except ε α) : Runs (ofResult r : Dialog ev ε α) [] [] [] r := by
  cases r with
  | ok a => exact runs_pure a
  | error e => exact runs_throw e

theorem runs_send (bytes : Bytes) : Runs (send bytes : Dialog ev ε Unit) [] bytes [] (.ok ()) :=
  fun _ _ h => ⟨rfl, ⟨h.filled, h.flatten⟩, rfl, (List.append_nil _).symm⟩

theorem runs_call (e : ev) : Runs (call e : Dialog ev ε Unit) [] [] [e] (.ok ()) :=
  fun _ _ h => ⟨rfl, ⟨h.filled, h.flatten⟩, (List.append_nil _).symm, rfl⟩

/-- A read takes the bytes it asked for. -/
theorem runs_recv (e : ε) {n : Nat} {bytes : Bytes} (hn : bytes.length = n) :
    Runs (recv e n : Dialog ev ε Bytes) bytes [] [] (.ok bytes) := by
  intro port tail h
  obtain ⟨rest, hread, hfilled, hflatten⟩ := readExact_append h.filled h.flatten
  subst hn
  rw [recv, hread]
  exact ⟨rfl, ⟨hfilled, hflatten⟩, (List.append_nil _).symm, (List.append_nil _).symm⟩

/-- A read finds the end of the stream. -/
theorem starves_recv (e : ε) {n : Nat} {bytes : Bytes} (hn : bytes.length < n) :
    Starves (recv e n : Dialog ev ε Bytes) bytes [] [] e := by
  intro port h
  rw [recv, readExact_none h.filled (by rwa [h.flatten])]
  exact ⟨rfl, ⟨fun _ hmem => absurd hmem List.not_mem_nil, rfl⟩, (List.append_nil _).symm,
    (List.append_nil _).symm⟩

variable {x : Dialog ev ε α} {f : α → Dialog ev ε β} {inp inp' out out' : Bytes}
  {calls calls' : List ev} {a : α} {e : ε} {r : Except ε β}

theorem Runs.bind (hx : Runs x inp out calls (.ok a)) (hf : Runs (f a) inp' out' calls' r) :
    Runs (x >>= f) (inp ++ inp') (out ++ out') (calls ++ calls') r := by
  intro port tail h
  rw [List.append_assoc] at h
  obtain ⟨hok, hafter⟩ := hx port (inp' ++ tail) h
  obtain ⟨hr, hafter'⟩ := hf _ tail hafter.holds
  rw [bind_of_ok f (outcome_eq_ok hok)]
  exact ⟨hr, hafter.trans hafter'⟩

/-- A sequence, with what it takes and does put together. -/
theorem Runs.seq {inp'' out'' : Bytes} {calls'' : List ev} (hx : Runs x inp out calls (.ok a))
    (hf : Runs (f a) inp' out' calls' r) (hinp : inp'' = inp ++ inp') (hout : out'' = out ++ out')
    (hcalls : calls'' = calls ++ calls') : Runs (x >>= f) inp'' out'' calls'' r := by
  subst hinp hout hcalls
  exact hx.bind hf

theorem Runs.bind_error (hx : Runs x inp out calls (.error e)) :
    Runs (x >>= f) inp out calls (.error e) := by
  intro port tail h
  obtain ⟨herror, hafter⟩ := hx port tail h
  rw [bind_of_error f (outcome_eq_error herror)]
  exact ⟨rfl, hafter⟩

theorem Starves.bind (hx : Starves x inp out calls e) : Starves (x >>= f) inp out calls e := by
  intro port h
  obtain ⟨herror, hafter⟩ := hx port h
  rw [bind_of_error f (outcome_eq_error herror)]
  exact ⟨rfl, hafter⟩

theorem Runs.starves_bind (hx : Runs x inp out calls (.ok a))
    (hf : Starves (f a) inp' out' calls' e) :
    Starves (x >>= f) (inp ++ inp') (out ++ out') (calls ++ calls') e := by
  intro port h
  obtain ⟨hok, hafter⟩ := hx port inp' h
  obtain ⟨hr, hafter'⟩ := hf _ hafter.holds
  rw [bind_of_ok f (outcome_eq_ok hok)]
  exact ⟨hr, hafter.trans hafter'⟩

/-! ### One step, then the rest -/

theorem runs_recv_bind (bytes : Bytes) {e : ε} {n : Nat} {g : Bytes → Dialog ev ε β}
    (hn : bytes.length = n) (hg : Runs (g bytes) inp out calls r) :
    Runs (recv e n >>= g) (bytes ++ inp) out calls r := (runs_recv e hn).bind hg

theorem runs_send_bind (bytes : Bytes) {g : Unit → Dialog ev ε β}
    (hg : Runs (g ()) inp out calls r) :
    Runs (send bytes >>= g) inp (bytes ++ out) calls r := (runs_send bytes).bind hg

theorem runs_call_bind (c : ev) {g : Unit → Dialog ev ε β} (hg : Runs (g ()) inp out calls r) :
    Runs (call c >>= g) inp out (c :: calls) r := (runs_call c).bind hg

theorem runs_ofResult_bind {s : Except ε α} (hs : s = .ok a) (hf : Runs (f a) inp out calls r) :
    Runs (ofResult s >>= f) inp out calls r := by
  subst hs
  exact (runs_ofResult _).bind hf

theorem starves_recv_bind (bytes : Bytes) {n : Nat} {g : Bytes → Dialog ev ε β}
    (hn : bytes.length = n) (hg : Starves (g bytes) inp out calls e) {e' : ε} :
    Starves (recv e' n >>= g) (bytes ++ inp) out calls e := (runs_recv e' hn).starves_bind hg

theorem starves_send_bind (bytes : Bytes) {g : Unit → Dialog ev ε β}
    (hg : Starves (g ()) inp out calls e) :
    Starves (send bytes >>= g) inp (bytes ++ out) calls e := (runs_send bytes).starves_bind hg

theorem Runs.result {ε' : Type} {s : Except ε α} (hx : Runs x inp out calls s) :
    Runs (result x : Dialog ev ε' (Except ε α)) inp out calls (.ok s) := by
  intro port tail h
  obtain ⟨hs, hafter⟩ := hx port tail h
  exact ⟨congrArg Except.ok hs, hafter⟩

/-! ## What is called -/

section Calls

variable {Φ : Except ε α → List ev → Prop}

theorem emits_call_bind {c : ev} {g : Unit → Dialog ev ε α}
    (hg : Emits Port.calls (g ()) fun r es => Φ r (c :: es)) :
    Emits Port.calls (call c >>= g) Φ := by
  have hcall : Emits Port.calls (call c : Dialog ev ε Unit) fun r es => es = [c] ∧ r = .ok () :=
    fun _ => ⟨[c], rfl, rfl, rfl⟩
  refine hcall.bind ?_ ?_
  · rintro e es ⟨-, h⟩
    cases h
  · rintro u es ⟨rfl, -⟩
    exact hg

/-- A dialog that is run for its result, and what is made of it. -/
theorem emits_result_bind {ε' : Type} {x : Dialog ev ε α} {g : Except ε α → Dialog ev ε' β}
    {Ψ : Except ε' β → List ev → Prop} (hx : Emits Port.calls x Φ)
    (hg : ∀ r es, Φ r es → Emits Port.calls (g r) fun r' es' => Ψ r' (es ++ es')) :
    Emits Port.calls (result x >>= g) Ψ := by
  have hresult : Emits Port.calls (result x : Dialog ev ε' (Except ε α)) fun r es =>
      ∃ r', r = .ok r' ∧ Φ r' es := by
    intro port
    obtain ⟨es, hlog, hes⟩ := hx port
    exact ⟨es, hlog, _, rfl, hes⟩
  refine hresult.bind ?_ ?_
  · rintro e es ⟨r', h, -⟩
    cases h
  · rintro r es ⟨r', h, hes⟩
    cases h
    exact hg r es hes

end Calls

end Basecrawl.Connection
