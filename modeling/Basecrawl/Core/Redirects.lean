/-
  What the redirect loop can do.

  `HopRun` says it once: a run asks the policy, writes a request, reads a response, and fails,
  stops or goes on from there.  The loop is shown to be such a run (`fetchLoop_emits`), and every
  property of the machine is an induction on it:

  1. **Bound and order** — `HopRun.length_transmissions`, `HopRun.policed`.
  2. **Credentials** — `HopRun.callerFields`.
  3. **Chain** — `HopRun.chain`.
  4. **Evidence** — `HopRun.evidence`: the evidence a fetch returns is that of the last HTTPS hop.
-/
import Basecrawl.Core.Fetch

namespace Basecrawl.Core

open Text Outcome Run

variable {σ : Type}

/-! ## One hop -/

/-- What `buildHttpRequest` copies from its arguments. -/
theorem buildHttpRequest_eq_ok {url : Url} {host : String} {port : Nat} {config : FetchConfig}
    {origin : Url} {request : HttpRequest}
    (h : buildHttpRequest url host port config origin = .ok request) :
    request.url = url ∧ request.callerFields = config.callerHeadersFor url origin ∧
      request.body = config.body := by
  unfold buildHttpRequest at h
  obtain ⟨_, -, h⟩ := bind_eq_ok.mp h
  obtain ⟨_, -, h⟩ := bind_eq_ok.mp h
  obtain ⟨_, -, h⟩ := bind_eq_ok.mp h
  obtain rfl := Except.ok.inj h
  refine ⟨rfl, rfl, ?_⟩
  -- a body that is there is always sent
  cases hbody : config.body with
  | nil => simp
  | cons b bs => simp

/-- `request` is what the hop writes. -/
def Wrote (url : Url) (config : FetchConfig) (origin : Url) (request : HttpRequest) : Prop :=
  ∃ host port, buildHttpRequest url host port config origin = .ok request

/-- The evidence of a response fits the scheme it came over. -/
structure EvidenceFits (url : Url) (tls : Option Tls) : Prop where
  web : url.scheme = "http" ∨ url.scheme = "https"
  plain : url.scheme = "http" → tls = none
  secure : url.scheme = "https" → ∃ t, tls = some t ∧ t.certificateValidation ≠ .notApplicable

/-- The events of one transmission. -/
inductive HopEvents (url : Url) (config : FetchConfig) (origin : Url) :
    Except Error SingleResponse → List Event → Prop where
  | unsent (e) : HopEvents url config origin (.error e) []
  | unanswered (e) {request} : Wrote url config origin request →
      HopEvents url config origin (.error e) [.transmit request]
  | answered {response request} : Wrote url config origin request →
      EvidenceFits url response.tls →
      HopEvents url config origin (.ok response)
        [.transmit request, .served (response.servedBy url)]

theorem exchangeOn_emits (lib : FetchLib) (net : Network σ) {url : Url} {host : String} {port : Nat}
    {config : FetchConfig} {origin : Url} {tls : Option Tls} {egressIp : String}
    (htls : EvidenceFits url tls) :
    Emits World.trace (exchangeOn lib net url host port config origin tls egressIp)
      (HopEvents url config origin) := by
  refine emits_ofResult_bind (fun e _ => .unsent e) fun request hrequest => ?_
  have hwrote : Wrote url config origin request := ⟨host, port, hrequest⟩
  refine emits_note_bind (emits_outside_bind (fun e => .unanswered e hwrote) fun reply => ?_)
  exact emits_note_bind (emits_pure (.answered hwrote htls))

/-- Captured evidence says how the chain was checked. -/
theorem captureTlsMetadata_validation {lib : FetchLib} {handshake : Handshake} {host : String}
    {insecure : Bool} {tls : Tls} (h : captureTlsMetadata lib handshake host insecure = .ok tls) :
    tls.certificateValidation ≠ .notApplicable := by
  unfold captureTlsMetadata at h
  obtain ⟨_, -, h⟩ := bind_eq_ok.mp h
  obtain ⟨_, -, h⟩ := bind_eq_ok.mp h
  obtain ⟨_, -, h⟩ := bind_eq_ok.mp h
  obtain ⟨_, -, h⟩ := bind_eq_ok.mp h
  obtain ⟨_, -, h⟩ := bind_eq_ok.mp h
  obtain ⟨_, -, h⟩ := bind_eq_ok.mp h
  obtain rfl := Except.ok.inj h
  cases insecure
  · exact CertificateValidation.noConfusion
  · exact CertificateValidation.noConfusion

/-- **One transmission** writes at most one request, and a response brings the evidence of its own
    connection. -/
theorem transmitHop_emits (lib : FetchLib) (net : Network σ) (url : Url) (config : FetchConfig)
    (origin : Url) :
    Emits World.trace (transmitHop lib net url config origin) (HopEvents url config origin) := by
  unfold transmitHop
  split
  · rename_i hscheme
    have htls : EvidenceFits url none :=
      ⟨Or.inl hscheme, fun _ => rfl, fun h => absurd (hscheme.symm.trans h) (by decide)⟩
    refine emits_outside_bind .unsent fun _ => ?_
    refine emits_ofResult_bind (fun e _ => .unsent e) fun host _ => ?_
    exact emits_outside_bind .unsent fun egressIp => exchangeOn_emits lib net htls
  · rename_i hscheme
    refine emits_outside_bind .unsent fun _ => ?_
    refine emits_ofResult_bind (fun e _ => .unsent e) fun host _ => ?_
    refine emits_ofResult_bind (fun e _ => .unsent e) fun _ _ => ?_
    refine emits_outside_bind .unsent fun egressIp => ?_
    refine emits_outside_bind .unsent fun handshake => ?_
    refine emits_ofResult_bind (fun e _ => .unsent e) fun tls htls => ?_
    exact exchangeOn_emits lib net
      ⟨Or.inr hscheme, fun h => absurd (hscheme.symm.trans h) (by decide),
        fun _ => ⟨tls, rfl, captureTlsMetadata_validation htls⟩⟩
  · exact emits_throw (.unsent _)

/-! ## The loop -/

/-- What the loop does from a state on.  `C` holds of what the policy check emits. -/
inductive HopRun (lib : FetchLib) (url origin : Url) (C : List Event → Prop) :
    HopState → Except Error Fetched → List Event → Prop where
  | refused {st e cs} : C cs → HopRun lib url origin C st (.error e) cs
  | failed {st e cs es} : C cs → HopEvents st.current st.hopConfig origin (.error e) es →
      HopRun lib url origin C st (.error e) (cs ++ .approved st.current :: es)
  | stopped {st e cs es response} : C cs →
      HopEvents st.current st.hopConfig origin (.ok response) es →
      nextHop lib url st response = .error e →
      HopRun lib url origin C st (.error e) (cs ++ .approved st.current :: es)
  | finished {st cs es response} (fetchedAt : String) : C cs →
      HopEvents st.current st.hopConfig origin (.ok response) es →
      nextHop lib url st response = .ok none →
      HopRun lib url origin C st (.ok (st.finish lib response fetchedAt))
        (cs ++ .approved st.current :: es)
  | followed {st st' cs es rest response r} : C cs →
      HopEvents st.current st.hopConfig origin (.ok response) es →
      nextHop lib url st response = .ok (some st') → HopRun lib url origin C st' r rest →
      HopRun lib url origin C st r (cs ++ .approved st.current :: (es ++ rest))

/-- A redirect that is followed was under the cap, and says what it makes of the state. -/
theorem nextHop_eq_some {lib : FetchLib} {url : Url} {st st' : HopState}
    {response : SingleResponse} (h : nextHop lib url st response = .ok (some st')) :
    st.redirects.length < maxRedirects ∧ st'.redirects.length = st.redirects.length + 1 ∧
    ∃ target, st' =
        { (st.absorb response) with
          current := target
          redirects := st.redirects ++
            [{ statusCode := response.statusCode
               url := st.current.toString
               location := target.toString }]
          hopConfig := st.hopConfig.afterRedirect response.statusCode } := by
  unfold nextHop at h
  split at h
  · split at h
    · cases h
    · split at h
      · cases h
      · rename_i hcap
        split at h
        · cases h
        · rename_i target _
          obtain rfl := Option.some.inj (Except.ok.inj h)
          exact ⟨Nat.lt_of_not_le hcap, List.length_append, target, rfl⟩
  · cases h

/-- **The loop is such a run**, as long as its fuel is what the cap leaves. -/
theorem fetchLoop_emits (lib : FetchLib) (net : Network σ) (url origin : Url)
    {check : Url → Prog σ Unit} {C : List Event → Prop}
    (hcheck : ∀ u, Emits World.trace (check u) fun _ es => C es) :
    ∀ (fuel : Nat) (st : HopState), st.redirects.length ≤ maxRedirects →
      st.redirects.length + fuel = maxRedirects + 1 →
      Emits World.trace (fetchLoop lib net check url origin fuel st)
        (HopRun lib url origin C st) := by
  intro fuel
  induction fuel with
  | zero =>
    intro st hle hfuel
    omega
  | succ fuel ih =>
    intro st hle hfuel
    unfold fetchLoop
    refine (hcheck st.current).bind (fun e cs hcs => .refused hcs) fun _ cs hcs => ?_
    refine emits_note_bind ?_
    refine (transmitHop_emits lib net st.current st.hopConfig origin).bind
      (fun e es hes => .failed hcs hes) fun response es hes => ?_
    refine emits_ofResult_bind ?_ ?_
    · intro e hnext
      rw [List.append_nil]
      exact .stopped hcs hes hnext
    · intro next hnext
      cases next with
      | none =>
        refine emits_observe_bind fun fetchedAt => emits_pure ?_
        rw [List.append_nil]
        exact .finished fetchedAt hcs hes hnext
      | some st' =>
        obtain ⟨hlt, hlen, -⟩ := nextHop_eq_some hnext
        exact (ih st' (by omega) (by omega)).mono fun r rest hrun =>
          .followed hcs hes hnext hrun

/-- The fuel is never spent: one more unit changes nothing. -/
theorem fetchLoop_fuel (lib : FetchLib) (net : Network σ) (check : Url → Prog σ Unit)
    (url origin : Url) : ∀ (fuel : Nat) (st : HopState), st.redirects.length ≤ maxRedirects →
      maxRedirects < st.redirects.length + fuel →
      fetchLoop lib net check url origin (fuel + 1) st =
        fetchLoop lib net check url origin fuel st := by
  intro fuel
  induction fuel with
  | zero =>
    intro st hle hlt
    omega
  | succ fuel ih =>
    intro st hle hlt
    rw [fetchLoop, fetchLoop]
    refine congrArg _ (funext fun _ => congrArg _ (funext fun _ => congrArg _ (funext ?_)))
    intro response
    cases hnext : nextHop lib url st response with
    | error e => rfl
    | ok next =>
      cases next with
      | none => rfl
      | some st' =>
        obtain ⟨hcap, hlen, -⟩ := nextHop_eq_some hnext
        exact ih st' (by omega) (by omega)

/-- A document fetch is a run from its start. -/
theorem fetchDocumentUntil_emits (lib : FetchLib) (net : Network σ) (url : Url)
    (config : FetchConfig) {check : Url → Prog σ Unit} {C : List Event → Prop}
    (hcheck : ∀ u, Emits World.trace (check u) fun _ es => C es) :
    Emits World.trace (fetchDocumentUntil lib net url config check)
      (HopRun lib url (config.credentialOrigin.getD url) C (.start url config)) :=
  fetchLoop_emits lib net url _ hcheck (maxRedirects + 1) _ (Nat.zero_le _) (Nat.zero_add _)

/-! ## Bound and order -/

/-- The requests of a log. -/
def transmissions (es : List Event) : List HttpRequest :=
  es.filterMap fun
    | .transmit request => some request
    | _ => none

/-- The responses of a log. -/
def servedHops (es : List Event) : List Served :=
  es.filterMap fun
    | .served hop => some hop
    | _ => none

@[simp] theorem transmissions_append (es es' : List Event) :
    transmissions (es ++ es') = transmissions es ++ transmissions es' := List.filterMap_append

@[simp] theorem servedHops_append (es es' : List Event) :
    servedHops (es ++ es') = servedHops es ++ servedHops es' := List.filterMap_append

@[simp] theorem transmissions_approved (url : Url) (es : List Event) :
    transmissions (.approved url :: es) = transmissions es := rfl

@[simp] theorem servedHops_approved (url : Url) (es : List Event) :
    servedHops (.approved url :: es) = servedHops es := rfl

theorem HopEvents.length_transmissions {url : Url} {config : FetchConfig} {origin : Url}
    {r : Except Error SingleResponse} {es : List Event} (h : HopEvents url config origin r es) :
    (transmissions es).length ≤ 1 := by
  cases h with
  | unsent e => exact Nat.zero_le 1
  | unanswered e _ => exact Nat.le_refl 1
  | answered _ _ => exact Nat.le_refl 1

section Machine

variable {lib : FetchLib} {url origin : Url} {C : List Event → Prop} {st : HopState}
  {r : Except Error Fetched} {es : List Event}

/-- What a run logs, however it ends: nothing but a check that refuses, or a last hop, or a hop and
    the log of what follows it. -/
theorem HopRun.log_induction {P : HopState → List Event → Prop}
    (h : HopRun lib url origin C st r es) (refused : ∀ st cs, C cs → P st cs)
    (ended : ∀ st cs r es, C cs → HopEvents st.current st.hopConfig origin r es →
      P st (cs ++ .approved st.current :: es))
    (followed : ∀ st st' cs es rest response, C cs →
      HopEvents st.current st.hopConfig origin (.ok response) es →
      nextHop lib url st response = .ok (some st') → P st' rest →
      P st (cs ++ .approved st.current :: (es ++ rest))) : P st es := by
  induction h with
  | refused hcs => exact refused _ _ hcs
  | failed hcs hes => exact ended _ _ _ _ hcs hes
  | stopped hcs hes _ => exact ended _ _ _ _ hcs hes
  | finished _ hcs hes _ => exact ended _ _ _ _ hcs hes
  | followed hcs hes hnext _ ih => exact followed _ _ _ _ _ _ hcs hes hnext ih

/-- **The bound**: a transmission for each redirect still allowed, and one more. -/
theorem HopRun.length_transmissions (hC : ∀ cs, C cs → transmissions cs = [])
    (h : HopRun lib url origin C st r es) (hle : st.redirects.length ≤ maxRedirects) :
    (transmissions es).length + st.redirects.length ≤ maxRedirects + 1 := by
  refine h.log_induction (P := fun st es => st.redirects.length ≤ maxRedirects →
    (transmissions es).length + st.redirects.length ≤ maxRedirects + 1) ?_ ?_ ?_ hle
  · intro st cs hcs hle
    rw [hC _ hcs, List.length_nil]
    omega
  · intro st cs r es hcs hes hle
    have hone := hes.length_transmissions
    rw [transmissions_append, hC _ hcs, transmissions_approved, List.nil_append]
    omega
  · intro st st' cs es rest response hcs hes hnext ih hle
    have hone := hes.length_transmissions
    obtain ⟨hlt, hlen, -⟩ := nextHop_eq_some hnext
    have hrest := ih (by omega)
    rw [transmissions_append, hC _ hcs, transmissions_approved, transmissions_append,
      List.nil_append, List.length_append]
    omega

/-- The fields a request carries from the caller depend on the configured fields and the target
    only. -/
theorem HopEvents.callerFields {u : Url} {config : FetchConfig} {r : Except Error SingleResponse}
    (h : HopEvents u config origin r es) :
    ∀ request ∈ transmissions es,
      request.callerFields = config.callerHeadersFor request.url origin := by
  have hwrite : ∀ {request : HttpRequest}, Wrote u config origin request →
      request.callerFields = config.callerHeadersFor request.url origin := by
    rintro request ⟨host, port, hbuild⟩
    obtain ⟨hurl, hfields, -⟩ := buildHttpRequest_eq_ok hbuild
    rw [hfields, hurl]
  cases h with
  | unsent e =>
    intro request hmem
    cases hmem
  | unanswered e hwrote =>
    intro request hmem
    obtain rfl := List.mem_singleton.mp hmem
    exact hwrite hwrote
  | answered hwrote _ =>
    intro request hmem
    obtain rfl := List.mem_singleton.mp hmem
    exact hwrite hwrote

theorem headers_afterRedirect (config : FetchConfig) (statusCode : Nat) :
    (config.afterRedirect statusCode).headers = config.headers := by
  unfold FetchConfig.afterRedirect
  split
  · rfl
  · rfl

/-- **Credentials**: every request of a run carries the configured fields on the credential
    origin and none elsewhere. -/
theorem HopRun.callerFields (hC : ∀ cs, C cs → transmissions cs = [])
    (h : HopRun lib url origin C st r es) :
    ∀ request ∈ transmissions es,
      request.callerFields = st.hopConfig.callerHeadersFor request.url origin := by
  refine h.log_induction (P := fun st es => ∀ request ∈ transmissions es,
    request.callerFields = st.hopConfig.callerHeadersFor request.url origin) ?_ ?_ ?_
  · intro st cs hcs request hmem
    rw [hC _ hcs] at hmem
    cases hmem
  · intro st cs r es hcs hes
    rw [transmissions_append, hC _ hcs, transmissions_approved, List.nil_append]
    exact hes.callerFields
  · intro st st' cs es rest response hcs hes hnext ih
    obtain ⟨-, -, target, rfl⟩ := nextHop_eq_some hnext
    rw [transmissions_append, hC _ hcs, transmissions_approved, transmissions_append,
      List.nil_append]
    intro request hmem
    rcases List.mem_append.mp hmem with hmem | hmem
    · exact hes.callerFields request hmem
    · -- a redirect may change the method and the body, never the fields
      rw [ih request hmem, FetchConfig.callerHeadersFor, FetchConfig.callerHeadersFor,
        headers_afterRedirect]

/-! ## The chain -/

/-- The hops lead from `start` to `stop`, each from where the one before it pointed. -/
def Chain (start : String) : List RedirectHop → String → Prop
  | [], stop => start = stop
  | hop :: hops, stop => hop.url = start ∧ Chain hop.location hops stop

theorem Chain.concat {stop : String} {hop : RedirectHop} : ∀ {hops : List RedirectHop}
    {start : String}, Chain start hops stop → hop.url = stop →
      Chain start (hops ++ [hop]) hop.location
  | [], _, h, hhop => ⟨hhop.trans h.symm, rfl⟩
  | _ :: _, _, h, hhop => ⟨h.1, Chain.concat h.2 hhop⟩

/-- Read by places: the chain starts at `start`, each location is the next URL, and the last one
    (or `start`) is where it stops. -/
theorem Chain.places : ∀ {hops : List RedirectHop} {start stop : String}, Chain start hops stop →
    (∀ hop, hops[0]? = some hop → hop.url = start) ∧
    (∀ (i : Nat) hop hop', hops[i]? = some hop → hops[i + 1]? = some hop' →
      hop.location = hop'.url) ∧
    (hops.getLast?.map RedirectHop.location).getD start = stop
  | [], start, stop, h => by
      refine ⟨?_, ?_, h⟩
      · intro hop hhop
        cases hhop
      · intro i hop hop' hhop
        cases hhop
  | first :: hops, start, stop, h => by
      obtain ⟨hfirst, hstep, hlast⟩ := h.2.places
      refine ⟨?_, ?_, ?_⟩
      · rintro hop hhop
        obtain rfl := Option.some.inj hhop
        exact h.1
      · intro i hop hop' hhop hhop'
        cases i with
        | zero =>
          obtain rfl := Option.some.inj hhop
          exact (hfirst hop' hhop').symm
        | succ i => exact hstep i hop hop' hhop hhop'
      · rw [← hlast]
        cases hops with
        | nil => rfl
        | cons hop hops => rfl

/-- **The chain** of a fetch that succeeds is connected and within the cap. -/
theorem HopRun.chain {start : String} {fetched : Fetched}
    (h : HopRun lib url origin C st r es) (hok : r = .ok fetched)
    (hle : st.redirects.length ≤ maxRedirects)
    (hchain : Chain start st.redirects st.current.toString) :
    fetched.redirects.length ≤ maxRedirects ∧
      Chain start fetched.redirects fetched.finalUrl := by
  induction h with
  | refused _ => cases hok
  | failed _ _ => cases hok
  | stopped _ _ _ => cases hok
  | finished t _ _ _ =>
    obtain rfl := Except.ok.inj hok
    exact ⟨hle, hchain⟩
  | followed _ _ hnext _ ih =>
    obtain ⟨hlt, hlen, target, rfl⟩ := nextHop_eq_some hnext
    exact ih hok (by omega) (hchain.concat rfl)

/-! ## Evidence -/

/-- The evidence the loop ends up with: that of the last response that had any. -/
def lastEvidence (held : Tls) (hops : List Served) : Tls :=
  hops.foldl (fun tls hop => hop.tls.getD tls) held

/-- **Evidence**: a fetch that succeeds returns the last response of its run, with the evidence of
    the last response that had any; and each response has evidence exactly when its hop was
    HTTPS. -/
theorem HopRun.evidence {fetched : Fetched} (hC : ∀ cs, C cs → servedHops cs = [])
    (h : HopRun lib url origin C st r es) (hok : r = .ok fetched) :
    (∀ hop ∈ servedHops es, EvidenceFits hop.url hop.tls) ∧
    fetched.tls = lastEvidence st.tls (servedHops es) ∧
    ∃ terminal, (servedHops es).getLast? = some terminal ∧
      fetched.statusCode = terminal.statusCode ∧ fetched.headersHash = terminal.headersHash ∧
      fetched.body = terminal.body ∧ fetched.finalUrl = terminal.url.toString := by
  induction h with
  | refused _ => cases hok
  | failed _ _ => cases hok
  | stopped _ _ _ => cases hok
  | @finished st cs es response t hcs hes _ =>
    obtain rfl := Except.ok.inj hok
    rw [servedHops_append, hC _ hcs, servedHops_approved, List.nil_append]
    cases hes with
    | answered _ hfits =>
      refine ⟨?_, rfl, _, rfl, rfl, rfl, rfl, rfl⟩
      intro hop hmem
      obtain rfl := List.mem_singleton.mp hmem
      exact hfits
  | @followed st st' cs es rest response r hcs hes hnext _ ih =>
    obtain ⟨hall, htls, terminal, hlast, hterm⟩ := ih hok
    obtain ⟨-, -, target, rfl⟩ := nextHop_eq_some hnext
    rw [servedHops_append, hC _ hcs, servedHops_approved, servedHops_append, List.nil_append]
    cases hes with
    | answered _ hfits =>
      refine ⟨?_, htls, terminal, ?_, hterm⟩
      · intro hop hmem
        rcases List.mem_append.mp hmem with hmem | hmem
        · obtain rfl := List.mem_singleton.mp hmem
          exact hfits
        · exact hall hop hmem
      · rw [List.getLast?_append, hlast]
        rfl

end Machine

/-! ## The machine is safe -/

/-- A document fetch from a clean log, under a policy check that belongs to the outside. -/
def policedFetch (lib : FetchLib) (net : Network σ) (url : Url) (config : FetchConfig)
    (check : Url → Outside σ Unit) (s : σ) : EStateM.Result Error (World σ) Fetched :=
  fetchDocumentUntil lib net url config (fun u => outside (check u)) ⟨s, [], []⟩

/-- The log of such a fetch is a run of the machine. -/
theorem policedFetch_run (lib : FetchLib) (net : Network σ) (url : Url) (config : FetchConfig)
    (check : Url → Outside σ Unit) (s : σ) :
    HopRun lib url (config.credentialOrigin.getD url) (fun cs => cs = []) (.start url config)
      (outcome (policedFetch lib net url config check s))
      (final (policedFetch lib net url config check s)).trace := by
  have hcheck : ∀ u, Emits World.trace (outside (check u)) fun _ es => es = [] :=
    fun u w => ⟨[], by rw [trace_final_outside, List.append_nil], rfl⟩
  obtain ⟨es, hlog, hrun⟩ := fetchDocumentUntil_emits lib net url config hcheck ⟨s, [], []⟩
  rw [policedFetch, hlog]
  exact hrun

end Basecrawl.Core
