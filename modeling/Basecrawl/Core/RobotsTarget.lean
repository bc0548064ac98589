/-
  The string that the robots rules are applied to, and the target that is requested.

  `consult` applies the rules to the path of a URL, and a request line carries the path and the
  query.

  1. **Patterns and targets** — a pattern under an anchor matches no target that ends in a wildcard
     character (`anchored_star`), and one without an anchor stops at the first (`open_extend`).
  2. **Telling targets apart** — a document with one rule denies the one target and not the other
     (`denied_of_rule`, `told_apart`).
  3. **Consultations** — what a consultation decides (`consult_decides`), over a network that serves
     any document (`served_document`).
  4. **The target governs** — `consult_target_iff`.
-/
import Basecrawl.Core.Evidence
import Basecrawl.Core.RequestWire
import Basecrawl.Core.RobotsChoice
import Basecrawl.Core.RobotsGroups
import Basecrawl.Core.RobotsPatterns

namespace Basecrawl.Core

open Text Glob Outcome Run

/-! ## Patterns and targets -/

/-- The bytes of a literal. -/
def isLiteral (b : UInt8) : Bool := decide (b ≠ star)

/-- A match needs a value with as many literal bytes. -/
theorem anchored_countP {pattern value : Bytes}
    (h : wildcardMatchesPrefix pattern value true = true) :
    pattern.countP isLiteral ≤ value.countP isLiteral := by
  obtain ⟨rest, rfl, hplace⟩ := (matches_anchored_iff pattern value).mp h
  have hpieces := (leaves_of_place hplace).countP_le isLiteral
  have hfilter : pattern.countP isLiteral =
      (headOf pattern ++ (piecesOf pattern).flatten).countP isLiteral := by
    rw [headOf, piecesOf, pieces_flatten, List.countP_filter]
    exact List.countP_congr fun b _ => by rw [isLiteral, Bool.and_self]
  rw [hfilter, List.countP_append, List.countP_append]
  omega

/-- A pattern under an anchor matches nothing that ends in a wildcard character. -/
theorem anchored_star (pattern value : Bytes) :
    wildcardMatchesPrefix pattern (value ++ [star]) true = false := by
  rw [← Bool.not_eq_true, matches_anchored_iff]
  rintro ⟨rest, hvalue, hplace⟩
  rcases List.eq_nil_or_concat rest with rfl | ⟨rest', b, hconcat⟩
  · rw [List.append_nil] at hvalue
    have hmem : star ∈ headOf pattern :=
      hvalue ▸ List.mem_append_right _ (List.mem_singleton_self star)
    exact star_notMem_head star pattern hmem
  · rw [List.concat_eq_append] at hconcat
    rw [hconcat, ← List.append_assoc] at hvalue
    obtain ⟨-, hb⟩ := List.append_inj' hvalue rfl
    rw [hconcat, ← (List.cons.inj hb).1] at hplace
    obtain ⟨w, hw, hmem⟩ := place_last hplace
    exact star_notMem_pieces star pattern w hw hmem

/-- A pattern matches itself under an anchor, unless it ends in a wildcard. -/
theorem anchored_self {pattern : Bytes} (h : ∀ q, pattern ≠ q ++ [star]) :
    wildcardMatchesPrefix pattern pattern true = true :=
  (matches_anchored_iff pattern pattern).mpr ⟨_, pattern_eq pattern, place_self h⟩

/-- Without an anchor nothing behind the first wildcard character of a value counts. -/
theorem open_extend (pattern : Bytes) {value : Bytes} (h : star ∈ value) (more : Bytes) :
    wildcardMatchesPrefix pattern (value ++ more) false =
      wildcardMatchesPrefix pattern value false := by
  have hhead : star ∉ headOf pattern := star_notMem_head star pattern
  rw [Bool.eq_iff_iff, matches_open_iff, matches_open_iff]
  have hlonger : ∀ v, star ∈ v → ¬ v <+: headOf pattern := fun v hv hpre => hhead (hpre.subset hv)
  rw [or_iff_left (hlonger _ (List.mem_append_left more h)), or_iff_left (hlonger _ h)]
  constructor
  · intro hpre
    rcases List.prefix_or_prefix_of_prefix hpre (List.prefix_append value more) with hfit | hover
    · exact hfit
    · exact absurd hover (hlonger value h)
  · exact fun hpre => hpre.trans (List.prefix_append value more)

/-! ## Telling targets apart -/

/-- What is sent as a target: the `url` crate writes visible ASCII, and cuts a fragment off. -/
def IsTarget (target : String) : Prop :=
  ∀ c ∈ target.toList, 0x21 ≤ c.toNat ∧ c.toNat < 0x7f ∧ c ≠ '#'

theorem not_white_of_visible {c : Char} (h : 0x21 ≤ c.toNat ∧ c.toNat < 0x7f) :
    isWhitespace c = false := by
  have hall : ∀ n : Fin 127, 0x21 ≤ n.val → isWhitespace (Char.ofNat n.val) = false := by
    decide
  have hc := hall ⟨c.toNat, h.2⟩ h.1
  rw [Char.ofNat_toNat] at hc
  exact hc

/-- A document that denies exactly one target. -/
def denying (target : String) : String := "User-agent: *\nDisallow: " ++ target ++ "$"

theorem denying_ascii {target : String} (h : IsTarget target) :
    ∀ c ∈ (denying target).toList, c.toNat < 128 := by
  intro c hc
  have hmem : c ∈ ("User-agent: *\nDisallow: " : String).toList ++ target.toList ++
      ("$" : String).toList := by
    rwa [← String.toList_append, ← String.toList_append]
  rcases List.mem_append.mp hmem with hc | hc
  · rcases List.mem_append.mp hc with hc | hc
    · have hfront : (("User-agent: *\nDisallow: " : String).toList.all fun c =>
          decide (c.toNat < 128)) = true := by decide
      exact of_decide_eq_true (List.all_eq_true.mp hfront c hc)
    · exact Nat.lt_of_lt_of_le (h c hc).2.1 (by decide)
  · obtain rfl := List.mem_singleton.mp hc
    decide

theorem denying_agents : ["*"] ≠ [] := List.cons_ne_nil _ _

theorem denying_rules (target : String) : [(false, target ++ "$")] ≠ [] := List.cons_ne_nil _ _

/-- Its one record. -/
def denyingRecord (target : String) : Record :=
  ⟨["*"], [(false, target ++ "$")], denying_agents, denying_rules target⟩

theorem parse_denying {target : String} (h : IsTarget target) :
    (parse (denying target)).groups = [⟨["*"], [⟨false, target ++ "$"⟩]⟩] := by
  have hvalue : IsTarget (target ++ "$") := by
    intro c hc
    rw [String.toList_append, List.mem_append] at hc
    rcases hc with hc | hc
    · exact h c hc
    · obtain rfl := List.mem_singleton.mp hc
      decide
  have htrim : trim (target ++ "$") = target ++ "$" :=
    trim_eq_self fun c hc => not_white_of_visible ⟨(hvalue c hc).1, (hvalue c hc).2.1⟩
  have hmark : '#' ∉ (target ++ "$").toList := fun hc => (hvalue _ hc).2.2 rfl
  have hlast : Reads ("Disallow: " ++ (target ++ "$")) (.rule false (target ++ "$")) := by
    have hsays := @says_plain "Disallow" " " (target ++ "$") blank_space (by decide) (by decide)
      (by decide) htrim hmark
    rw [show "Disallow" ++ ":" ++ " " = "Disallow: " from rfl] at hsays
    exact .disallow hsays
  have hlines : lines (denying target) = ["User-agent: *", "Disallow: " ++ (target ++ "$")] := by
    have hsplit : denying target =
        "User-agent: *" ++ "\n" ++ ("Disallow: " ++ (target ++ "$")) := by
      have hfront : "User-agent: *\nDisallow: " = "User-agent: *" ++ "\n" ++ "Disallow: " := by
        decide
      unfold denying
      rw [hfront, String.append_assoc, @String.append_assoc ("User-agent: *" ++ "\n")]
    have hline : '\n' ∉ ("Disallow: " ++ (target ++ "$")).toList := by
      rw [String.toList_append, List.mem_append]
      rintro (hc | hc)
      · exact absurd hc (by decide)
      · exact absurd (hvalue _ hc).1 (by decide)
    have hne : "Disallow: " ++ (target ++ "$") ≠ "" := by
      intro hnil
      have hlen := congrArg (fun s => s.toList.length) hnil
      simp at hlen
    rw [hsplit]
    exact lines_two (by decide) (by decide) hline hne
  have hreads : List.Forall₂ Reads (lines (denying target))
      [.agent "*", .rule false (target ++ "$")] := by
    rw [hlines]
    exact .cons reads_agent_all (.cons hlast .nil)
  rw [@parse_joined _ _ [denyingRecord target] hreads rfl]
  show [Record.group _] = _
  have hne : target ++ "$" ≠ "" := by
    intro hnil
    have hlen := congrArg (fun s => s.toList.length) hnil
    simp at hlen
  have hstored : storedRule (false, target ++ "$") = some ⟨false, target ++ "$"⟩ := if_neg hne
  rw [Record.group, denyingRecord, List.filterMap_cons_some hstored]
  rfl

theorem ruleMatches_anchor (path target : String) :
    ruleMatches path (target ++ "$") = wildcardMatchesPrefix (utf8 target) (utf8 path) true := by
  have hstrip : stripSuffix (target ++ "$") '$' = some target := by
    have hlist : (target ++ "$").toList = target.toList ++ ['$'] := by
      rw [String.toList_append]
      rfl
    rw [stripSuffix, hlist, List.getLast?_concat, if_pos rfl, List.dropLast_concat,
      String.ofList_toList]
  rw [ruleMatches, hstrip]

/-- What the document decides: it denies what the pattern matches. -/
theorem disposition_denying {target : String} (h : IsTarget target) (path : String) :
    disposition path (parse (denying target)).groups =
      if wildcardMatchesPrefix (utf8 target) (utf8 path) true then some false else none := by
  rw [parse_denying h, disposition, ← ruleMatches_anchor]
  have hfit : ([(⟨["*"], [⟨false, target ++ "$"⟩]⟩ : Group)].filterMap groupAgentMatch).max? =
      some 0 := rfl
  rw [matchingRule, hfit]
  show Option.map Rule.allow (Option.map Prod.snd (selectRule path none ⟨false, target ++ "$"⟩)) = _
  rw [selectRule]
  show Option.map Rule.allow (Option.map Prod.snd (if ruleMatches path (target ++ "$") = true
    then some (_, (⟨false, target ++ "$"⟩ : Rule)) else none)) = _
  split
  · rfl
  · rfl

/-- The text ends in a wildcard character. -/
def EndsInStar (s : String) : Prop := s.toList.getLast? = some '*'

theorem utf8_of_endsInStar {s : String} (h : EndsInStar s) : ∃ q, utf8 s = q ++ [star] := by
  obtain ⟨cs, hcs⟩ := List.getLast?_eq_some_iff.mp h
  refine ⟨utf8 (String.ofList cs), ?_⟩
  have hs : s = String.ofList cs ++ "*" := by
    apply String.toList_injective
    rw [hcs, String.toList_append, String.toList_ofList]
    rfl
  rw [hs, utf8_append]
  rfl

theorem utf8_ne_of_endsInStar {s : String} (htarget : IsTarget s) (h : ¬ EndsInStar s) :
    ∀ q, utf8 s ≠ q ++ [star] := by
  intro q hq
  have hascii : ∀ c ∈ s.toList, c.toNat < 128 := fun c hc =>
    Nat.lt_of_lt_of_le (htarget c hc).2.1 (by decide)
  rw [utf8_ascii hascii] at hq
  obtain ⟨cs, last, hcs, -, hlast⟩ := List.map_eq_append_iff.mp hq
  obtain ⟨c, rfl, hc⟩ := List.map_eq_singleton_iff.mp hlast
  apply h
  rw [EndsInStar, hcs, List.getLast?_concat]
  have hbound := hascii c (hcs ▸ List.mem_append_right _ (List.mem_singleton_self c))
  have hnat : c.toNat = 0x2a := by
    have hbyte := congrArg UInt8.toNat hc
    rw [UInt8.toNat_ofNat', Nat.mod_eq_of_lt (by omega)] at hbyte
    exact hbyte
  rw [← Char.ofNat_toNat c, hnat]

/-- A target with more literal bytes is denied where the path is not. -/
theorem told_apart {path target : String} (htarget : IsTarget target) (hstar : ¬ EndsInStar target)
    (hmore : (utf8 path).countP isLiteral < (utf8 target).countP isLiteral) :
    disposition target (parse (denying target)).groups = some false ∧
      disposition path (parse (denying target)).groups = none := by
  rw [disposition_denying htarget, disposition_denying htarget]
  refine ⟨if_pos (anchored_self (utf8_ne_of_endsInStar htarget hstar)), if_neg fun h => ?_⟩
  exact absurd (anchored_countP h) (by omega)

/-- A path that does not end in a wildcard character is denied where such a target is not. -/
theorem told_apart_star {path target : String} (hpath : IsTarget path)
    (hplain : ¬ EndsInStar path) (hstar : EndsInStar target) :
    disposition path (parse (denying path)).groups = some false ∧
      disposition target (parse (denying path)).groups = none := by
  rw [disposition_denying hpath, disposition_denying hpath]
  refine ⟨if_pos (anchored_self (utf8_ne_of_endsInStar hpath hplain)), if_neg ?_⟩
  obtain ⟨q, hq⟩ := utf8_of_endsInStar hstar
  rw [hq, anchored_star]
  exact Bool.false_ne_true

theorem ruleMatches_star {path more : String} (hpath : EndsInStar path)
    (hmore : EndsInStar (path ++ more)) (rule : String) :
    ruleMatches (path ++ more) rule = ruleMatches path rule := by
  obtain ⟨q, hq⟩ := utf8_of_endsInStar hpath
  obtain ⟨q', hq'⟩ := utf8_of_endsInStar hmore
  rw [ruleMatches, ruleMatches]
  split
  · rw [hq, hq', anchored_star, anchored_star]
  · have hmem : star ∈ utf8 path := hq ▸ List.mem_append_right _ (List.mem_singleton_self star)
    rw [utf8_append]
    exact open_extend _ hmem _

/-- Targets that the same rules match are treated alike. -/
theorem disposition_of_ruleMatches {path target : String}
    (h : ∀ rule, ruleMatches target rule = ruleMatches path rule) (groups : List Group) :
    disposition target groups = disposition path groups := by
  have hselect : selectRule target = selectRule path := by
    funext selected rule
    unfold selectRule
    rw [h]
  rw [disposition, disposition, matchingRule, matchingRule, hselect]

/-! ## The target of a URL -/

/-- What stands in front of the query. -/
def Url.requestPath (url : Url) : String := if url.path = "" then "/" else url.path

theorem requestTarget_none {url : Url} (h : url.query = none) :
    url.requestTarget = url.requestPath := by
  rw [Url.requestTarget, h]
  rfl

theorem requestTarget_some {url : Url} {query : String} (h : url.query = some query) :
    url.requestTarget = url.requestPath ++ "?" ++ query := by
  rw [Url.requestTarget, h]
  rfl

theorem requestPath_literals (url : Url) :
    (utf8 url.path).countP isLiteral ≤ (utf8 url.requestPath).countP isLiteral ∧
      (url.path = "" → (utf8 url.path).countP isLiteral <
        (utf8 url.requestPath).countP isLiteral) := by
  rw [Url.requestPath]
  split
  · next h =>
    rw [h]
    decide
  · next h => exact ⟨Nat.le_refl _, fun hempty => absurd hempty h⟩

/-- A target that is not the path has more literal bytes. -/
theorem requestTarget_literals {url : Url} (h : ¬ (url.path ≠ "" ∧ url.query = none)) :
    (utf8 url.path).countP isLiteral < (utf8 url.requestTarget).countP isLiteral := by
  obtain ⟨hle, hlt⟩ := requestPath_literals url
  cases hquery : url.query with
  | none =>
    rw [requestTarget_none hquery]
    exact hlt (by_contra fun hpath => h ⟨hpath, hquery⟩)
  | some query =>
    have hmark : (utf8 "?").countP isLiteral = 1 := by decide
    rw [requestTarget_some hquery, utf8_append, utf8_append, List.countP_append,
      List.countP_append, hmark]
    omega

theorem isTarget_path {url : Url} (h : IsTarget url.requestTarget) : IsTarget url.path := by
  intro c hc
  have hne : url.path ≠ "" := by
    intro hempty
    rw [hempty, String.toList_empty] at hc
    exact List.not_mem_nil hc
  apply h c
  have hpath : url.requestPath = url.path := if_neg hne
  cases hquery : url.query with
  | none => rwa [requestTarget_none hquery, hpath]
  | some query =>
    rw [requestTarget_some hquery, hpath, String.toList_append, String.toList_append]
    exact List.mem_append_left _ (List.mem_append_left _ hc)

/-- The target is the path, or both end in a wildcard character. -/
def TargetIsPath (url : Url) : Prop :=
  (url.path ≠ "" ∧ url.query = none) ∨
    (EndsInStar url.path ∧ ∃ query, url.query = some query ∧ EndsInStar query)

theorem endsInStar_requestTarget {url : Url} (hquery : url.query ≠ none)
    (h : EndsInStar url.requestTarget) : ∃ query, url.query = some query ∧ EndsInStar query := by
  obtain ⟨query, hquery⟩ := Option.ne_none_iff_exists'.mp hquery
  refine ⟨query, hquery, ?_⟩
  rw [requestTarget_some hquery, EndsInStar, String.toList_append, String.toList_append] at h
  cases hlast : query.toList with
  | nil =>
    rw [hlast, List.append_nil, show ("?" : String).toList = ['?'] from rfl,
      List.getLast?_concat] at h
    exact absurd h (by decide)
  | cons c cs =>
    rw [EndsInStar, hlast]
    rw [hlast, List.getLast?_append_of_ne_nil _ (List.cons_ne_nil c cs)] at h
    exact h

theorem disposition_targetIsPath {url : Url} (h : TargetIsPath url) (groups : List Group) :
    disposition url.requestTarget groups = disposition url.path groups := by
  rcases h with ⟨hpath, hquery⟩ | ⟨hpath, query, hquery, hstar⟩
  · rw [requestTarget_none hquery, Url.requestPath, if_neg hpath]
  · have hne : url.path ≠ "" := by
      intro hempty
      rw [EndsInStar, hempty] at hpath
      cases hpath
    have htarget : url.requestTarget = url.path ++ ("?" ++ query) := by
      rw [requestTarget_some hquery, Url.requestPath, if_neg hne, String.append_assoc]
    rw [htarget]
    refine disposition_of_ruleMatches (ruleMatches_star hpath ?_) groups
    rw [EndsInStar, String.toList_append, String.toList_append, List.getLast?_append,
      List.getLast?_append, hstar]
    rfl

/-! ## Consultations -/

/-- How a decision names a disposition. -/
def dispositionText : Option Bool → String
  | none => "unmatched"
  | some true => "allowed"
  | some false => "denied"

theorem dispositionText_injective {a b : Option Bool} (h : dispositionText a = dispositionText b) :
    a = b := by
  rcases a with _ | _ | _ <;> rcases b with _ | _ | _ <;> first | rfl | exact absurd h (by decide)

/-- The groups of a policy document that was fetched. -/
def fetchedGroups (lib : RobotsLib) (fetched : Fetched) : List Group :=
  (parse (lib.decodeBody fetched.body fetched.contentType false)).groups

theorem evaluateRobots_disposition (lib : RobotsLib) (url : Url) (policy : RobotsPolicy)
    (fetched : Fetched) : (evaluateRobots lib url policy fetched).disposition =
      dispositionText (disposition url.path (fetchedGroups lib fetched)) := by
  have hgroups : (parse (lib.decodeBody fetched.body fetched.contentType false)).groups =
      fetchedGroups lib fetched := rfl
  simp only [evaluateRobots, disposition, hgroups]
  cases matchingRule url.path (fetchedGroups lib fetched) with
  | none => rfl
  | some rule =>
    show (if rule.allow then "allowed" else "denied") = dispositionText (some rule.allow)
    cases rule.allow <;> rfl

/-- **What a consultation decides** with a document that was served. -/
theorem consult_decides {σ : Type} {lib : RobotsLib} {net : Network σ} {url : Url}
    {config : FetchConfig} {policy : RobotsPolicy} {w w' : World σ} {fetched : Fetched}
    (hpolicy : policy ≠ .ignore)
    (hfetched : fetchUntil lib.toFetchLib net (robotsUrl url) config w = .ok fetched w')
    (hsuccess : isSuccess fetched.statusCode = true) :
    consult lib net url config policy w = .ok (evaluateRobots lib url policy fetched) w' := by
  have hrun : (attempt (fetchUntil lib.toFetchLib net (robotsUrl url) config) >>= fun fetched =>
      ofResult (robotsOutcome lib url policy fetched)) w =
        .ok (evaluateRobots lib url policy fetched) w' := by
    rw [bind_apply, attempt, hfetched]
    show ofResult (robotsOutcome lib url policy (.ok fetched)) w' = _
    rw [robotsOutcome, if_pos hsuccess]
    rfl
  cases policy with
  | ignore => exact absurd rfl hpolicy
  | enforce => exact hrun
  | observe => exact hrun

theorem buildHttpRequest_default (url : Url) (host : String) (port : Nat) (origin : Url) :
    ∃ request, buildHttpRequest url host port {} origin = .ok request := by
  have hcallers : FetchConfig.callerHeadersFor {} url origin =
      [("user-agent", defaultUserAgent)] ∨ FetchConfig.callerHeadersFor {} url origin = [] := by
    rw [FetchConfig.callerHeadersFor]
    split
    · exact Or.inl rfl
    · exact Or.inr rfl
  unfold buildHttpRequest
  rcases hcallers with h | h
  · rw [h]
    exact ⟨_, rfl⟩
  · rw [h]
    exact ⟨_, rfl⟩

/-- A URL that can be fetched. -/
def Fetchable (lib : FetchLib) (url : Url) (host : String) : Prop :=
  url.host = some host ∧
    (url.scheme = "http" ∨ (url.scheme = "https" ∧ lib.isServerName host = true))

/-- A reply that is a policy document. -/
def documentReply (document : String) : Reply := ⟨200, [], utf8 document, false⟩

/-- A network whose replies are all this document. -/
def serving (document : String) : World (List Reply) := ⟨[documentReply document], [], []⟩

theorem exchange_document (lib : FetchLib) (url : Url) (host : String) (port : Nat) (origin : Url)
    (tls : Option Tls) (egressIp document : String) (hops : List DocumentHop)
    (trace : List Event) :
    ∃ w', exchangeOn lib scriptedNetwork url host port {} origin tls egressIp
        ⟨[documentReply document], hops, trace⟩ =
      .ok (singleResponse lib (documentReply document) tls egressIp) w' := by
  obtain ⟨request, hrequest⟩ := buildHttpRequest_default url host port origin
  unfold exchangeOn
  rw [hrequest]
  exact ⟨_, rfl⟩

/-- The scripted handshake passes for a connection that was checked. -/
theorem scripted_handshake : ∃ handshake : Handshake,
    (∀ host s, scriptedNetwork.handshake {} host s = .ok handshake s) ∧
      ∀ (lib : FetchLib) (host : String), ∃ tls,
        captureTlsMetadata lib handshake host false = .ok tls :=
  ⟨_, fun _ _ => rfl, fun _ _ => ⟨_, rfl⟩⟩

theorem transmit_document {lib : FetchLib} {url : Url} {host : String} (h : Fetchable lib url host)
    (origin : Url) (document : String) (trace : List Event) :
    ∃ tls egressIp w', transmitHop lib scriptedNetwork url {} origin
        ⟨[documentReply document], [], trace⟩ =
      .ok (singleResponse lib (documentReply document) tls egressIp) w' := by
  obtain ⟨hhost, hscheme⟩ := h
  let w : World (List Reply) := ⟨[documentReply document], [], trace⟩
  unfold transmitHop
  rcases hscheme with hscheme | ⟨hscheme, hname⟩
  · rw [hscheme]
    simp only [fetchHttp, hhost]
    obtain ⟨w', hw'⟩ := exchange_document lib url host (url.portOrKnownDefault.getD 80) origin none
      "192.0.2.1" document [] trace
    refine ⟨none, "192.0.2.1", w', bind_run_eq_ok.mpr ⟨(), w, rfl, ?_⟩⟩
    refine bind_run_eq_ok.mpr ⟨host, w, rfl, ?_⟩
    exact bind_run_eq_ok.mpr ⟨"192.0.2.1", w, rfl, hw'⟩
  · rw [hscheme]
    simp only [fetchHttps, hhost]
    obtain ⟨handshake, hshaken, hcapture⟩ := scripted_handshake
    obtain ⟨tls, htls⟩ := hcapture lib host
    obtain ⟨w', hw'⟩ := exchange_document lib url host (url.portOrKnownDefault.getD 443) origin
      (some tls) "192.0.2.1" document [] trace
    have hnamed : ofResult (require (lib.isServerName host) (Error.invalidUrl url.toString)) w =
        .ok () w := by
      rw [hname]
      rfl
    have hhandshake : outside (scriptedNetwork.handshake {} host) w = .ok handshake w := by
      rw [outside, hshaken]
    have hcaptured : ofResult (captureTlsMetadata lib handshake host false) w = .ok tls w := by
      rw [htls]
      rfl
    refine ⟨some tls, "192.0.2.1", w', bind_run_eq_ok.mpr ⟨(), w, rfl, ?_⟩⟩
    refine bind_run_eq_ok.mpr ⟨host, w, rfl, bind_run_eq_ok.mpr ⟨(), w, hnamed, ?_⟩⟩
    refine bind_run_eq_ok.mpr ⟨"192.0.2.1", w, rfl, ?_⟩
    refine bind_run_eq_ok.mpr ⟨handshake, w, hhandshake, ?_⟩
    exact bind_run_eq_ok.mpr ⟨tls, w, hcaptured, hw'⟩

/-- **Any document can be served** for a URL that can be fetched. -/
theorem served_document {lib : FetchLib} {url : Url} {host : String} (h : Fetchable lib url host)
    (document : String) :
    ∃ fetched w', fetchUntil lib scriptedNetwork url {} (serving document) = .ok fetched w' ∧
      fetched.statusCode = 200 ∧ fetched.body = utf8 document ∧ fetched.contentType = none := by
  obtain ⟨tls, egressIp, w', hw'⟩ := transmit_document h url document [.approved url]
  have hrun : fetchUntil lib scriptedNetwork url {} (serving document) =
      .ok ((HopState.start url {}).finish lib
        (singleResponse lib (documentReply document) tls egressIp) "2026-07-12T12:34:56Z") w' := by
    refine bind_run_eq_ok.mpr ⟨(), serving document, rfl, ?_⟩
    refine bind_run_eq_ok.mpr ⟨(), ⟨[documentReply document], [], [.approved url]⟩, rfl, ?_⟩
    exact bind_run_eq_ok.mpr ⟨_, w', hw', bind_run_eq_ok.mpr ⟨none, w', rfl, rfl⟩⟩
  exact ⟨_, w', hrun, rfl, rfl, rfl⟩

/-! ## The target governs -/

/-- Whatever document is served and whatever request is built for a URL, a consultation decides what
the rules say about the target of the request. -/
def TargetGoverns (lib : RobotsLib) (url : Url) (host : String) : Prop :=
  ∀ (σ : Type) (net : Network σ) (config sent : FetchConfig) (policy : RobotsPolicy)
    (w w' : World σ) (fetched : Fetched) (port : Nat) (origin : Url) (request : HttpRequest),
    policy ≠ .ignore →
    fetchUntil lib.toFetchLib net (robotsUrl url) config w = .ok fetched w' →
    isSuccess fetched.statusCode = true →
    buildHttpRequest url host port sent origin = .ok request →
    ∃ decision, consult lib net url config policy w = .ok decision w' ∧
      decision.disposition =
        dispositionText (disposition request.target (fetchedGroups lib fetched))

/-- The target governs when all documents treat it and the path alike. -/
theorem targetGoverns_of_disposition {lib : RobotsLib} {url : Url} {host : String}
    (h : ∀ groups, disposition url.requestTarget groups = disposition url.path groups) :
    TargetGoverns lib url host := by
  intro σ net config sent policy w w' fetched port origin request hpolicy hfetched hsuccess hrequest
  refine ⟨_, consult_decides hpolicy hfetched hsuccess, ?_⟩
  rw [evaluateRobots_disposition, (built_parts hrequest).2.1, h]

/-- And only then, as far as documents go that can be decoded. -/
theorem disposition_of_targetGoverns {lib : RobotsLib} {url : Url} {host : String}
    (hfetch : Fetchable lib.toFetchLib url host) (h : TargetGoverns lib url host)
    {document : String} (hdecode : lib.decodeBody (utf8 document) none false = document) :
    disposition url.requestTarget (parse document).groups =
      disposition url.path (parse document).groups := by
  have hrobots : Fetchable lib.toFetchLib (robotsUrl url) host := hfetch
  obtain ⟨fetched, w', hfetched, hstatus, hbody, htype⟩ := served_document hrobots document
  obtain ⟨request, hrequest⟩ := buildHttpRequest_default url host 80 url
  have hsuccess : isSuccess fetched.statusCode = true := by
    rw [hstatus]
    decide
  have hgroups : fetchedGroups lib fetched = (parse document).groups := by
    rw [fetchedGroups, hbody, htype, hdecode]
  obtain ⟨decision, hdecision, hsame⟩ := h _ scriptedNetwork {} {} .enforce _ w' fetched 80 url
    request (by decide) hfetched hsuccess hrequest
  rw [consult_decides (by decide) hfetched hsuccess] at hdecision
  obtain rfl := (EStateM.Result.ok.inj hdecision).1
  rw [evaluateRobots_disposition, hgroups, (built_parts hrequest).2.1] at hsame
  exact (dispositionText_injective hsame).symm

/-- **The rules are applied to the target that is sent**, for every document, exactly when the
target is the path or both end in a wildcard character. -/
theorem consult_target_iff {lib : RobotsLib} {url : Url} {host : String}
    (hfetch : Fetchable lib.toFetchLib url host) (htarget : IsTarget url.requestTarget)
    (hdecode : ∀ document, (∀ c ∈ document.toList, c.toNat < 128) →
      lib.decodeBody (utf8 document) none false = document) :
    TargetGoverns lib url host ↔ TargetIsPath url := by
  refine ⟨fun h => ?_, fun h => targetGoverns_of_disposition (disposition_targetIsPath h)⟩
  have halike : ∀ target, IsTarget target →
      disposition url.requestTarget (parse (denying target)).groups =
        disposition url.path (parse (denying target)).groups :=
    fun target ht => disposition_of_targetGoverns hfetch h (hdecode _ (denying_ascii ht))
  by_contra hnot
  rw [TargetIsPath, not_or] at hnot
  obtain ⟨hplain, hstars⟩ := hnot
  by_cases hstar : EndsInStar url.requestTarget
  · -- the target ends in a wildcard character, so the path does not
    have hpath : ¬ EndsInStar url.path := by
      intro hpath
      have hne : url.path ≠ "" := by
        intro hempty
        rw [EndsInStar, hempty] at hpath
        cases hpath
      exact hstars ⟨hpath, endsInStar_requestTarget (fun hnone => hplain ⟨hne, hnone⟩) hstar⟩
    obtain ⟨hdenied, hnone⟩ := told_apart_star (isTarget_path htarget) hpath hstar
    rw [halike _ (isTarget_path htarget), hdenied] at hnone
    cases hnone
  · obtain ⟨hdenied, hnone⟩ := told_apart htarget hstar (requestTarget_literals hplain)
    rw [← halike _ htarget, hdenied] at hnone
    cases hnone

/-- Just enough of the other crates: a document is UTF-8. -/
def plainRobotsLib : RobotsLib where
  toFetchLib := scriptedLib
  decodeBody := fun body _ _ => (fromUtf8 body).getD ""
  xmlEvents := fun _ => []

theorem plainRobotsLib_decodes (document : String) :
    plainRobotsLib.decodeBody (utf8 document) none false = document := by
  show (fromUtf8 (utf8 document)).getD "" = document
  rw [fromUtf8_utf8]
  rfl

/-- `http://plain.test/search?q=1`. -/
def searchUrl : Url :=
  { scheme := "http", host := some "plain.test", path := "/search", query := some "q=1" }

theorem isTarget_of_all {target : String}
    (h : (target.toList.all fun c =>
      decide (0x21 ≤ c.toNat ∧ c.toNat < 0x7f ∧ c ≠ '#')) = true) : IsTarget target :=
  fun c hc => of_decide_eq_true (List.all_eq_true.mp h c hc)

/-- The rules govern a page without a query. -/
theorem consult_target_plain : TargetGoverns plainRobotsLib plainUrl "plain.test" :=
  (consult_target_iff ⟨rfl, Or.inl rfl⟩ (isTarget_of_all (by decide))
    fun document _ => plainRobotsLib_decodes document).mpr (Or.inl ⟨by decide, rfl⟩)

/-- **A rule for the bare page decides about a search**: the target `/search?q=1` does not match
`/search$`, and the page is denied. -/
theorem consult_target_query :
    ¬ ∀ (lib : RobotsLib) (url : Url) (host : String), Fetchable lib.toFetchLib url host →
      IsTarget url.requestTarget →
      (∀ document, (∀ c ∈ document.toList, c.toNat < 128) →
        lib.decodeBody (utf8 document) none false = document) →
      TargetGoverns lib url host := by
  intro h
  have hfetch : Fetchable plainRobotsLib.toFetchLib searchUrl "plain.test" := ⟨rfl, Or.inl rfl⟩
  have hgoverns := h plainRobotsLib searchUrl "plain.test" hfetch
    (isTarget_of_all (by decide)) fun document _ => plainRobotsLib_decodes document
  have hsame := disposition_of_targetGoverns hfetch hgoverns
    (plainRobotsLib_decodes "User-agent: *\nDisallow: /search$")
  exact absurd hsame (by decide)

end Basecrawl.Core
