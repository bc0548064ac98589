/-
  Whose evidence a fetch returns.

  The loop keeps the evidence of the last response that had any.  After a redirect from HTTPS to
  plain HTTP that is not the response it returns: `policedFetch_tls_iff` says exactly when the
  evidence belongs to the returned response.
-/
import Basecrawl.Core.Redirects

namespace Basecrawl.Core

open Text Outcome Run

/-- Plain hops leave the held evidence alone. -/
theorem lastEvidence_plain : ∀ {hops : List Served} {held : Tls},
    (∀ hop ∈ hops, EvidenceFits hop.url hop.tls) → (∀ hop ∈ hops, hop.url.scheme = "http") →
      lastEvidence held hops = held
  | [], _, _, _ => rfl
  | hop :: hops, held, hfits, hplain => by
      have hnone : hop.tls = none :=
        (hfits hop List.mem_cons_self).plain (hplain hop List.mem_cons_self)
      rw [lastEvidence, List.foldl_cons, hnone]
      exact lastEvidence_plain (fun h hmem => hfits h (List.mem_cons_of_mem _ hmem))
        fun h hmem => hplain h (List.mem_cons_of_mem _ hmem)

/-- Evidence that was captured once is never lost: it is replaced by captured evidence only. -/
theorem lastEvidence_captured : ∀ {hops : List Served} {held : Tls},
    (∀ hop ∈ hops, EvidenceFits hop.url hop.tls) →
      held.certificateValidation ≠ .notApplicable ∨ (∃ hop ∈ hops, hop.url.scheme = "https") →
      (lastEvidence held hops).certificateValidation ≠ .notApplicable
  | [], held, _, h => by
      rcases h with h | ⟨hop, hmem, -⟩
      · exact h
      · cases hmem
  | hop :: hops, held, hfits, h => by
      rw [lastEvidence, List.foldl_cons]
      refine lastEvidence_captured (fun h hmem => hfits h (List.mem_cons_of_mem _ hmem)) ?_
      have hhop := hfits hop List.mem_cons_self
      rcases hhop.web with hweb | hweb
      · rw [hhop.plain hweb]
        rcases h with h | ⟨hop', hmem, hsecure⟩
        · exact Or.inl h
        · rcases List.mem_cons.mp hmem with rfl | hmem
          · exact absurd (hweb.symm.trans hsecure) (by decide)
          · exact Or.inr ⟨hop', hmem, hsecure⟩
      · obtain ⟨tls, htls, hne⟩ := hhop.secure hweb
        rw [htls]
        exact Or.inl hne

/-- The evidence of the terminal hop comes last. -/
theorem lastEvidence_concat {hops : List Served} {hop : Served} {held : Tls} :
    lastEvidence held (hops ++ [hop]) = hop.tls.getD (lastEvidence held hops) := by
  rw [lastEvidence, List.foldl_append]
  rfl

variable {σ : Type}

/-- **Evidence, exactly.**  A fetch that succeeds returns the status, headers and body of its last
    hop; its evidence is that hop's own if and only if that hop was HTTPS or no hop was. -/
theorem policedFetch_tls_iff (lib : FetchLib) (net : Network σ) (url : Url) (config : FetchConfig)
    (check : Url → Outside σ Unit) (s : σ) (fetched : Fetched) (w : World σ)
    (h : policedFetch lib net url config check s = .ok fetched w) :
    ∃ terminal, (servedHops w.trace).getLast? = some terminal ∧
      fetched.statusCode = terminal.statusCode ∧ fetched.headersHash = terminal.headersHash ∧
      fetched.body = terminal.body ∧
      (fetched.tls = terminal.tls.getD .default ↔
        terminal.url.scheme = "https" ∨
          ∀ hop ∈ servedHops w.trace, hop.url.scheme = "http") := by
  have hrun : HopRun lib url (config.credentialOrigin.getD url) (fun cs => cs = [])
      (.start url config) (.ok fetched) w.trace := by
    have hrun := policedFetch_run lib net url config check s
    rw [h] at hrun
    exact hrun
  have hC : ∀ cs : List Event, cs = [] → servedHops cs = [] := by
    rintro cs rfl
    rfl
  obtain ⟨hfits, htls, terminal, hlast, hstatus, hheaders, hbody, -⟩ := hrun.evidence hC rfl
  refine ⟨terminal, hlast, hstatus, hheaders, hbody, ?_⟩
  obtain ⟨earlier, hhops⟩ := List.getLast?_eq_some_iff.mp hlast
  have hterminal : terminal ∈ servedHops w.trace := by
    rw [hhops]
    exact List.mem_append_right _ (List.mem_singleton_self _)
  constructor
  · intro hsame
    rcases (hfits terminal hterminal).web with hweb | hweb
    · right
      intro hop hmem
      rcases (hfits hop hmem).web with hhop | hhop
      · exact hhop
      · -- an HTTPS hop left captured evidence behind, which is not the plain default
        rw [(hfits terminal hterminal).plain hweb, htls] at hsame
        have hcaptured : (lastEvidence (HopState.start url config).tls
            (servedHops w.trace)).certificateValidation ≠ .notApplicable :=
          lastEvidence_captured hfits (Or.inr ⟨hop, hmem, hhop⟩)
        rw [hsame] at hcaptured
        exact absurd rfl hcaptured
    · exact Or.inl hweb
  · rintro (hweb | hplain)
    · obtain ⟨tls, hsome, -⟩ := (hfits terminal hterminal).secure hweb
      rw [htls, hhops, lastEvidence_concat, hsome]
      rfl
    · rw [htls, lastEvidence_plain hfits hplain,
        (hfits terminal hterminal).plain (hplain terminal hterminal)]
      rfl

/-! ## Two runs -/

/-- A network that answers from a list. -/
def scriptedNetwork : Network (List Reply) where
  pace := fun _ => pure ()
  dial := fun _ _ _ => pure "192.0.2.1"
  handshake := fun _ _ => pure
    { version := some .tls13
      peerCertificates := some [[0x30]]
      serverKeyShare := some [0x04]
      transcriptHash := some "e3b0c44298fc1c149afbf4c8996fb92427ae41e4649b934ca495991b7852b855"
      cipherSuite := some .tls13Aes128GcmSha256
      embeddedScts := []
      ocsp := none }
  exchange := fun _ replies =>
    match replies with
    | reply :: replies => .ok reply replies
    | [] => .error (.transport "connection reset by peer") []
  nowUtc := fun _ => "2026-07-12T12:34:56Z"

/-- `https://secure.test/` and `http://plain.test/`. -/
def secureUrl : Url := { scheme := "https", host := some "secure.test", path := "/" }

def plainUrl : Url := { scheme := "http", host := some "plain.test", path := "/" }

/-- Just enough of the other crates for these runs. -/
def scriptedLib : FetchLib where
  url :=
    { parse := fun _ => .error .other
      join := fun _ location => if location = plainUrl.toString then some plainUrl else none }
  digests := zeroDigests
  base64 := fun _ => "MA=="
  fromUtf8Lossy := fun _ => ""
  isServerName := fun _ => true

/-- A page. -/
def okReply : Reply where
  statusCode := 200
  headers := []
  body := utf8 "hello"
  bodyTruncated := false

/-- A redirect to `http://plain.test/`. -/
def downgradeReply : Reply where
  statusCode := 302
  headers := [("location", utf8 "http://plain.test/")]
  body := []
  bodyTruncated := false

/-- A fetch of the HTTPS page over the scripted network, every document allowed. -/
def scriptedRun (replies : List Reply) : EStateM.Result Error (World (List Reply)) Fetched :=
  policedFetch scriptedLib scriptedNetwork secureUrl {} (fun _ => pure ()) replies

example : (transmissions (final (scriptedRun [downgradeReply, okReply])).trace).length = 2 := by
  decide

/-- The terminal hop was plain HTTP, yet the proof would carry the certificate of the hop that
    redirected to it. -/
theorem policedFetch_tls_downgrade :
    ∃ fetched w, scriptedRun [downgradeReply, okReply] = .ok fetched w ∧
      (servedHops w.trace).map (fun hop => hop.url.scheme) = ["https", "http"] ∧
      (servedHops w.trace).map Served.tls = [some fetched.tls, none] ∧ fetched.tls ≠ .default := by
  refine ⟨_, _, rfl, ?_, ?_, ?_⟩
  · decide
  · decide
  · decide

/-- Without the redirect the evidence is that of the only hop. -/
theorem policedFetch_tls_secure :
    ∃ fetched w terminal, scriptedRun [okReply] = .ok fetched w ∧
      (servedHops w.trace).getLast? = some terminal ∧
      fetched.tls = terminal.tls.getD .default := by
  obtain ⟨terminal, hlast, -, -, -, htls⟩ :=
    policedFetch_tls_iff scriptedLib scriptedNetwork secureUrl {} (fun _ => pure ()) [okReply] _ _
      rfl
  refine ⟨_, _, terminal, rfl, hlast, htls.mpr (Or.inl ?_)⟩
  obtain rfl := Option.some.inj (hlast.symm.trans (show _ = some _ from rfl))
  rfl

end Basecrawl.Core
