/-
  The robots policy of a site, and its sitemaps.

  1. **Rules** — `parse` groups the lines of a policy document; `matchingRule` picks the
     most specific rule of the most specific groups; `wildcardMatchesPrefix` is the pattern loop.
  2. **Policy** — `consult` fetches and evaluates the document; `DocumentPolicy.check` records the
     decision and refuses a denied target.
  3. **Sitemaps** — `discoverSitemapUrls` follows sitemap indexes within a bound.
  4. **The wire** — all three log nothing but fetches, and an ignored policy logs nothing.
-/
import Basecrawl.Core.Redirects

namespace Basecrawl.Core

open Text Outcome Run

/-! ## Rules -/

/-- The robots user-agent token of the policy evaluator, `USER_AGENT`. -/
def robotsUserAgent : String := "basecrawl"

/-- A rule line. -/
structure Rule where
  allow : Bool
  path : String
deriving DecidableEq

/-- A run of user agents with their rules. -/
structure Group where
  agents : List String
  rules : List Rule
deriving DecidableEq

/-- A policy document. -/
structure ParsedRobots where
  groups : List Group
  sitemapUrls : List String
deriving DecidableEq

/-- The variables of `parse`. -/
structure ParseState where
  parsed : ParsedRobots
  current : Option Group

/-- A user agent continues a group without rules and starts a new one after a rule. -/
def ParseState.userAgent (st : ParseState) (agent : String) : ParseState :=
  match st.current with
  | none => { st with current := some ⟨[agent], []⟩ }
  | some group =>
      if group.rules.isEmpty then
        { st with current := some { group with agents := group.agents ++ [agent] } }
      else
        { parsed := { st.parsed with groups := st.parsed.groups ++ [group] }
          current := some ⟨[agent], []⟩ }

/-- A rule belongs to the current group; an empty one, or one before any agent, is dropped. -/
def ParseState.rule (st : ParseState) (allow : Bool) (path : String) : ParseState :=
  match st.current with
  | some group =>
      if path = "" ∨ group.agents.isEmpty then st
      else { st with current := some { group with rules := group.rules ++ [⟨allow, path⟩] } }
  | none => st

/-- A sitemap line counts wherever it stands. -/
def ParseState.sitemap (st : ParseState) (value : String) : ParseState :=
  if value = "" then st
  else { st with parsed := { st.parsed with sitemapUrls := st.parsed.sitemapUrls ++ [value] } }

/-- One line: the comment is cut off, the name is read without case. -/
def ParseState.line (st : ParseState) (rawLine : String) : ParseState :=
  match splitOnce (trim ((split rawLine '#').headD "")) ':' with
  | none => st
  | some (name, value) =>
      match asciiLower (trim name) with
      | "sitemap" => st.sitemap (trim value)
      | "user-agent" => st.userAgent (asciiLower (trim value))
      | "allow" => st.rule true (trim value)
      | "disallow" => st.rule false (trim value)
      -- other directives are no policy
      | _ => st

/-- `parse`. -/
def parse (source : String) : ParsedRobots :=
  let st := (lines source).foldl ParseState.line ⟨⟨[], []⟩, none⟩
  { st.parsed with groups := st.parsed.groups ++ st.current.toList }

/-- The wildcard byte. -/
def star : UInt8 := 0x2a

/-- What is left of the pattern when the value is used up. -/
def patternDone (pattern : Bytes) (anchored : Bool) (patternIndex : Nat) : Bool :=
  ((pattern.drop patternIndex).dropWhile (· == star)).isEmpty || !anchored

/-- The variables of `wildcard_matches_prefix`: the places in pattern and value, the last wildcard
    and the place in the value it is tried at. -/
structure Wildcard where
  patternIndex : Nat
  valueIndex : Nat
  wildcard : Option Nat
  wildcardValueIndex : Nat

/-- Before the loop. -/
def Wildcard.start : Wildcard := ⟨0, 0, none, 0⟩

/-- One pass of the loop: on with other variables, or out with a verdict. -/
def Wildcard.step (pattern value : Bytes) (anchored : Bool) (st : Wildcard) : Wildcard ⊕ Bool :=
  if st.valueIndex < value.length then
    if st.patternIndex = pattern.length then .inr !anchored
    else if pattern[st.patternIndex]? = some star then
      .inl ⟨st.patternIndex + 1, st.valueIndex, some st.patternIndex, st.valueIndex⟩
    else if pattern[st.patternIndex]? = value[st.valueIndex]? then
      .inl ⟨st.patternIndex + 1, st.valueIndex + 1, st.wildcard, st.wildcardValueIndex⟩
    else
      match st.wildcard with
      -- back to the last wildcard, which takes one byte more of the value
      | some starIndex =>
          .inl ⟨starIndex + 1, st.wildcardValueIndex + 1, st.wildcard, st.wildcardValueIndex + 1⟩
      | none => .inr false
  else .inr (patternDone pattern anchored st.patternIndex)

/-- The loop; `wildcardLoop_fuel` bounds the fuel. -/
def wildcardLoop (pattern value : Bytes) (anchored : Bool) : Nat → Wildcard → Bool
  | 0, _ => false
  | fuel + 1, st =>
      match st.step pattern value anchored with
      | .inl st' => wildcardLoop pattern value anchored fuel st'
      | .inr verdict => verdict

/-- Enough steps for every pattern and value. -/
def wildcardFuel (pattern value : Bytes) : Nat :=
  value.length * (pattern.length + 2) + pattern.length + 1

/-- `wildcard_matches_prefix`. -/
def wildcardMatchesPrefix (pattern value : Bytes) (anchored : Bool) : Bool :=
  wildcardLoop pattern value anchored (wildcardFuel pattern value) .start

/-- `rule_matches`. -/
def ruleMatches (path rule : String) : Bool :=
  match stripSuffix rule '$' with
  | some pattern => wildcardMatchesPrefix (utf8 pattern) (utf8 path) true
  | none => wildcardMatchesPrefix (utf8 rule) (utf8 path) false

/-- How well one agent line fits this crawler. -/
def agentMatch (agent : String) : Option Nat :=
  if agent = "*" then some 0
  -- the line is looked for in this crawler's token, not the other way round
  else if contains robotsUserAgent agent then some (utf8 agent).length
  else none

/-- `group_agent_match`. -/
def groupAgentMatch (group : Group) : Option Nat := (group.agents.filterMap agentMatch).max?

/-- The bytes of a rule's path that are not wildcards. -/
def specificity (rule : Rule) : Nat := (utf8 rule.path).countP (· != star)

/-- A matching rule replaces a less specific one, and an equally specific one that disallows. -/
def selectRule (path : String) (selected : Option (Nat × Rule)) (rule : Rule) :
    Option (Nat × Rule) :=
  if ruleMatches path rule.path then
    match selected with
    | none => some (specificity rule, rule)
    | some (current, selectedRule) =>
        if specificity rule > current ∨
            (specificity rule = current ∧ rule.allow ∧ !selectedRule.allow) then
          some (specificity rule, rule)
        else selected
  else selected

/-- `matching_rule`. -/
def matchingRule (path : String) (groups : List Group) : Option Rule :=
  match (groups.filterMap groupAgentMatch).max? with
  | none => none
  | some best =>
      (((groups.filter fun group => groupAgentMatch group == some best).flatMap
        Group.rules).foldl (selectRule path) none).map Prod.snd

/-- The places stay in bounds. -/
structure Wildcard.InBounds (pattern : Bytes) (st : Wildcard) : Prop where
  inPattern : st.patternIndex ≤ pattern.length
  inValue : st.wildcardValueIndex ≤ st.valueIndex
  inWildcard : ∀ starIndex, st.wildcard = some starIndex → starIndex < pattern.length

/-- What the loop has left to do: for each place left for the wildcard, the whole pattern again. -/
def Wildcard.left (pattern value : Bytes) (st : Wildcard) : Nat :=
  (value.length - st.wildcardValueIndex) * (pattern.length + 2) +
    (pattern.length - st.patternIndex)

/-- A pass that goes on stays in bounds and leaves less to do. -/
theorem Wildcard.step_left {pattern value : Bytes} {anchored : Bool} {st st' : Wildcard}
    (h : st.step pattern value anchored = .inl st') (hst : st.InBounds pattern) :
    st'.InBounds pattern ∧ st'.left pattern value < st.left pattern value := by
  obtain ⟨hpattern, hvalue, hwildcard⟩ := hst
  unfold Wildcard.step at h
  split at h
  · rename_i hlt
    split at h
    · cases h
    · rename_i hend
      split at h
      · -- a wildcard is tried at the current place, and that place only moves forward
        obtain rfl := Sum.inl.inj h
        have hforward : (value.length - st.valueIndex) * (pattern.length + 2) ≤
            (value.length - st.wildcardValueIndex) * (pattern.length + 2) :=
          Nat.mul_le_mul_right _ (by omega)
        refine ⟨⟨?_, Nat.le_refl _, ?_⟩, ?_⟩
        · show st.patternIndex + 1 ≤ pattern.length
          omega
        · intro starIndex hstar
          obtain rfl := Option.some.inj hstar
          omega
        · simp only [Wildcard.left]
          omega
      · split at h
        · obtain rfl := Sum.inl.inj h
          refine ⟨⟨?_, ?_, hwildcard⟩, ?_⟩
          · show st.patternIndex + 1 ≤ pattern.length
            omega
          · show st.wildcardValueIndex ≤ st.valueIndex + 1
            omega
          · simp only [Wildcard.left]
            omega
        · split at h
          · -- one place less for the wildcard pays for the way back in the pattern
            rename_i starIndex hstar
            obtain rfl := Sum.inl.inj h
            have hback := hwildcard starIndex hstar
            have hpay : (value.length - st.wildcardValueIndex) * (pattern.length + 2) =
                (value.length - (st.wildcardValueIndex + 1)) * (pattern.length + 2) +
                  (pattern.length + 2) := by
              rw [← Nat.succ_mul]
              congr 1
              omega
            refine ⟨⟨hback, Nat.le_refl _, hwildcard⟩, ?_⟩
            simp only [Wildcard.left]
            omega
          · cases h
  · cases h

/-- An event of the XML reader; text comes decoded, when it can be. -/
inductive XmlEvent where
  | start (name : Bytes)
  | text (decoded : Option String)
  | cdata (decoded : Option String)
  | finish (name : Bytes)
  | other

/-- What the policy calls of other crates: decoding a body, and reading XML up to its end or its
    first error. -/
structure RobotsLib extends FetchLib where
  decodeBody : Bytes → Option String → Bool → String
  xmlEvents : String → List XmlEvent

/-- `RobotsPolicy::as_str`. -/
def RobotsPolicy.asStr : RobotsPolicy → String
  | .enforce => "enforce"
  | .observe => "observe"
  | .ignore => "ignore"

/-- `denies_fetch`. -/
def RobotsDecision.deniesFetch (decision : RobotsDecision) : Bool :=
  decision.policy == .enforce && decision.disposition == "denied"

/-- The matched rule as JSON. -/
def MatchedRule.toValue (rule : MatchedRule) : Json.Tree :=
  .object [("directive", .string rule.directive), ("path", .string rule.path)]

/-- An unsigned number as JSON. -/
def jsonNat (n : Nat) : Json.Tree := .number (.posInt (UInt64.ofNat n))

/-- The members of a decision, in key order, before and after the place of `targetUrl`. -/
def RobotsDecision.members (decision : RobotsDecision) : List (String × Json.Tree) :=
  [("disposition", .string decision.disposition),
    ("fetched", .bool decision.fetched),
    ("matched_rule", (decision.matchedRule.map MatchedRule.toValue).getD .null),
    ("policy", .string decision.policy.asStr),
    ("robotsUrl", .string decision.robotsUrl),
    ("statusCode", (decision.statusCode.map jsonNat).getD .null)]

/-- `RobotsDecision::to_value`. -/
def RobotsDecision.toValue (decision : RobotsDecision) : Json.Tree := .object decision.members

/-- `DocumentHop::to_value`: the target comes last in key order. -/
def DocumentHop.toValue (hop : DocumentHop) : Json.Tree :=
  .object (hop.decision.members ++ [("targetUrl", .string hop.targetUrl)])

/-- The decision without a document that says anything: `unavailable_decision` and the ignored
    policy. -/
def silentDecision (policy : RobotsPolicy) (robots : Url) (disposition : String) (fetched : Bool)
    (statusCode : Option Nat) : RobotsDecision where
  policy := policy
  fetched := fetched
  statusCode := statusCode
  robotsUrl := robots.toString
  disposition := disposition
  matchedRule := none
  sitemapUrls := []

/-- `unavailable_decision`. -/
def unavailableDecision (policy : RobotsPolicy) (robots : Url) (fetched : Bool)
    (statusCode : Option Nat) : RobotsDecision :=
  silentDecision policy robots "unavailable" fetched statusCode

/-- Whether a status is a success. -/
def isSuccess (statusCode : Nat) : Bool := 200 ≤ statusCode && statusCode < 300

/-- The decision a policy document makes for a URL. -/
def evaluateRobots (lib : RobotsLib) (url : Url) (policy : RobotsPolicy) (fetched : Fetched) :
    RobotsDecision :=
  let robots := robotsUrl url
  let parsed := parse (lib.decodeBody fetched.body fetched.contentType false)
  let matched := matchingRule url.path parsed.groups
  { policy := policy
    fetched := true
    statusCode := some fetched.statusCode
    robotsUrl := robots.toString
    disposition :=
      match matched with
      | none => "unmatched"
      | some rule => if rule.allow then "allowed" else "denied"
    matchedRule := matched.map fun rule =>
      { directive := if rule.allow then "allow" else "disallow", path := rule.path }
    sitemapUrls := (parsed.sitemapUrls.filterMap (lib.url.join robots)).filter isHttp }

/-- What a policy fetch decides: a timeout is passed on, any other failure is permissive. -/
def robotsOutcome (lib : RobotsLib) (url : Url) (policy : RobotsPolicy) :
    Except Error Fetched → Except Error RobotsDecision
  | .error (.timeout message) => .error (.timeout message)
  | .error _ => .ok (unavailableDecision policy (robotsUrl url) false none)
  | .ok fetched =>
      if isSuccess fetched.statusCode then .ok (evaluateRobots lib url policy fetched)
      else .ok (unavailableDecision policy (robotsUrl url) true (some fetched.statusCode))

variable {σ α : Type}

/-- `consult`. -/
def consult (lib : RobotsLib) (net : Network σ) (url : Url) (config : FetchConfig)
    (policy : RobotsPolicy) : Prog σ RobotsDecision :=
  match policy with
  -- an ignored policy is not fetched
  | .ignore => pure (silentDecision policy (robotsUrl url) "ignored" false none)
  | .enforce | .observe => do
      let fetched ← attempt (fetchUntil lib.toFetchLib net (robotsUrl url) config)
      ofResult (robotsOutcome lib url policy fetched)

/-- Shared robots consultation for all document hops of one scrape; the hops are kept in the
    world. -/
structure DocumentPolicy where
  config : FetchConfig
  policy : RobotsPolicy

/-- `DocumentPolicy::check`. -/
def DocumentPolicy.check (lib : RobotsLib) (net : Network σ) (self : DocumentPolicy)
    (target : Url) : Prog σ Unit := do
  let decision ← consult lib net target self.config self.policy
  let hop : DocumentHop := ⟨target.toString, decision⟩
  update fun w => { w with hops := w.hops ++ [hop] }
  ofResult (require (!decision.deniesFetch) (.robotsDenied hop.toValue))

/-! ## Sitemaps -/

/-- `MAX_SITEMAPS`. -/
def maxSitemaps : Nat := 32

/-- `MAX_SITEMAP_URLS`. -/
def maxSitemapUrls : Nat := 10000

/-- The seeds and the nested indexes of a sitemap. -/
structure SitemapDocument where
  urlSeeds : List String := []
  nestedSitemaps : List Url := []

/-- The element a location stands in. -/
inductive SitemapParent where
  | url
  | sitemap
deriving DecidableEq

/-- The variables of `parse_sitemap`. -/
structure SitemapState where
  result : SitemapDocument := {}
  parent : Option SitemapParent := none
  inLoc : Bool := false
  location : String := ""

/-- `local_name`: what follows the last colon. -/
def localName (name : Bytes) : Bytes := (name.reverse.takeWhile (· != 0x3a)).reverse

/-- The end of a location: a web URL goes to the seeds or to the indexes. -/
def SitemapState.closeLocation (lib : RobotsLib) (base : Url) (st : SitemapState) :
    SitemapState :=
  let st := { st with inLoc := false }
  match lib.url.join base (trim st.location) with
  | none => st
  | some url =>
      if isHttp url then
        match st.parent with
        | some .url =>
            { st with
              result := { st.result with urlSeeds := st.result.urlSeeds ++ [url.toString] } }
        | some .sitemap =>
            { st with
              result := { st.result with nestedSitemaps := st.result.nestedSitemaps ++ [url] } }
        | none => st
      else st

/-- One event of the XML reader. -/
def SitemapState.event (lib : RobotsLib) (base : Url) (st : SitemapState) :
    XmlEvent → SitemapState
  | .start name =>
      if localName name = utf8 "url" then { st with parent := some .url }
      else if localName name = utf8 "sitemap" then { st with parent := some .sitemap }
      else if localName name = utf8 "loc" ∧ st.parent.isSome then
        { st with inLoc := true, location := "" }
      else st
  | .text decoded | .cdata decoded =>
      if st.inLoc then { st with location := st.location ++ decoded.getD "" } else st
  | .finish name =>
      if localName name = utf8 "loc" ∧ st.inLoc then st.closeLocation lib base
      else if localName name = utf8 "url" ∨ localName name = utf8 "sitemap" then
        { st with parent := none }
      else st
  | .other => st

/-- `parse_sitemap`. -/
def parseSitemap (lib : RobotsLib) (source : String) (base : Url) : SitemapDocument :=
  ((lib.xmlEvents source).foldl (SitemapState.event lib base) {}).result

/-- What a sitemap fetch contributes: nothing on a failure, but a timeout is passed on. -/
def sitemapOutcome (lib : RobotsLib) (url : Url) : Except Error Fetched →
    Except Error SitemapDocument
  | .error (.timeout message) => .error (.timeout message)
  | .error _ => .ok {}
  | .ok fetched =>
      if isSuccess fetched.statusCode then
        .ok (parseSitemap lib (lib.decodeBody fetched.body fetched.contentType false) url)
      else .ok {}

/-- Add new seeds in order; `true` when the bound was met with a seed left. -/
def addSeeds : List String → List String → List String × Bool
  | seeds, [] => (seeds, false)
  | seeds, url :: urls =>
      if seeds.length ≥ maxSitemapUrls then (seeds, true)
      else addSeeds (if seeds.contains url then seeds else seeds ++ [url]) urls

/-- Pop sitemaps until one was not seen; a target that is not on the web ends the search. -/
def popSitemap (seen : List String) : List Url → Option (Url × List Url)
  | [] => none
  | url :: stack =>
      if !isHttp url then none
      else if seen.contains url.toString then popSitemap seen stack
      else some (url, stack)

/-- The loop of `discover_sitemap_urls`; the number counts the sitemaps that may still be seen, and
    the queue has its end first. -/
def sitemapLoop (lib : RobotsLib) (net : Network σ) (config : FetchConfig) :
    Nat → List String → List String → List Url → Prog σ (List String)
  | 0, _, seeds, _ => pure seeds
  | remaining + 1, seen, seeds, stack =>
      match popSitemap seen stack with
      | none => pure seeds
      | some (url, stack) => do
          let fetched ← attempt (fetchUntil lib.toFetchLib net url config)
          let document ← ofResult (sitemapOutcome lib url fetched)
          match addSeeds seeds document.urlSeeds with
          -- the bound on the seeds ends the whole search
          | (seeds, true) => pure seeds
          | (seeds, false) =>
              sitemapLoop lib net config remaining (url.toString :: seen) seeds
                (document.nestedSitemaps.reverse ++ stack)

/-- `discover_sitemap_urls`. -/
def discoverSitemapUrls (lib : RobotsLib) (net : Network σ) (target : Url) (config : FetchConfig)
    (robotsSitemaps : List Url) : Prog σ (List String) :=
  sitemapLoop lib net config maxSitemaps [] [] (robotsSitemaps.reverse ++ [defaultSitemapUrl target])

/-! ## The wire -/

theorem HopEvents.wire {url origin : Url} {config : FetchConfig} {r : Except Error SingleResponse}
    {es : List Event} (h : HopEvents url config origin r es) : ∀ e ∈ es, e.isWire = true := by
  cases h with
  | unsent e =>
    intro e' he
    cases he
  | unanswered e _ =>
    intro e' he
    obtain rfl := List.mem_singleton.mp he
    rfl
  | answered _ _ =>
    intro e' he
    rcases List.mem_pair.mp he with rfl | rfl
    · rfl
    · rfl

/-- A run of the loop whose policy checks log fetches only logs fetches only. -/
theorem HopRun.wire {lib : FetchLib} {url origin : Url} {C : List Event → Prop} {st : HopState}
    {r : Except Error Fetched} {es : List Event} (hC : ∀ cs, C cs → ∀ e ∈ cs, e.isWire = true)
    (h : HopRun lib url origin C st r es) : ∀ e ∈ es, e.isWire = true := by
  have happroved : ∀ {u : Url} {cs rest : List Event}, C cs →
      (∀ e ∈ rest, e.isWire = true) → ∀ e ∈ cs ++ .approved u :: rest, e.isWire = true := by
    intro u cs rest hcs hrest e he
    rcases List.mem_append.mp he with he | he
    · exact hC _ hcs e he
    rcases List.mem_cons.mp he with rfl | he
    · rfl
    · exact hrest e he
  refine h.log_induction (P := fun _ es => ∀ e ∈ es, e.isWire = true) ?_ ?_ ?_
  · exact fun _ cs hcs => hC cs hcs
  · exact fun _ _ _ _ hcs hes => happroved hcs hes.wire
  · intro st st' cs es rest response hcs hes _ ih
    refine happroved hcs ?_
    intro e he
    rcases List.mem_append.mp he with he | he
    · exact hes.wire e he
    · exact ih e he

/-- What a document fetch logs. -/
abbrev Wire (x : Prog σ α) : Prop := EmitsOnly World.trace (fun e => e.isWire = true) x

theorem fetchDocumentUntil_wire {lib : FetchLib} {net : Network σ} {url : Url}
    {config : FetchConfig} {check : Url → Prog σ Unit} (hcheck : ∀ u, Wire (check u)) :
    Wire (fetchDocumentUntil lib net url config check) :=
  (fetchDocumentUntil_emits lib net url config hcheck).mono fun _ _ h => h.wire fun _ hcs => hcs

theorem fetchUntil_wire {lib : FetchLib} {net : Network σ} {url : Url} {config : FetchConfig} :
    Wire (fetchUntil lib net url config) :=
  fetchDocumentUntil_wire fun _ => emitsOnly_pure

theorem consult_wire {lib : RobotsLib} {net : Network σ} {url : Url} {config : FetchConfig}
    {policy : RobotsPolicy} : Wire (consult lib net url config policy) := by
  cases policy with
  | ignore => exact emitsOnly_pure
  | enforce => exact fetchUntil_wire.attempt.bind fun _ => emitsOnly_ofResult
  | observe => exact fetchUntil_wire.attempt.bind fun _ => emitsOnly_ofResult

/-- Recording a hop and refusing a target log nothing, so a check logs what its consultation does. -/
theorem DocumentPolicy.check_emitsOnly {p : Event → Prop} {lib : RobotsLib} {net : Network σ}
    {self : DocumentPolicy} {target : Url}
    (h : EmitsOnly World.trace p (consult lib net target self.config self.policy)) :
    EmitsOnly World.trace p (self.check lib net target) := by
  refine h.bind fun decision => ?_
  exact (emitsOnly_of_log_eq fun _ => rfl).bind fun _ => emitsOnly_ofResult

theorem DocumentPolicy.check_wire {lib : RobotsLib} {net : Network σ} {self : DocumentPolicy}
    {target : Url} : Wire (self.check lib net target) :=
  check_emitsOnly consult_wire

/-- An ignored policy is not consulted. -/
theorem DocumentPolicy.check_ignore {p : Event → Prop} {lib : RobotsLib} {net : Network σ}
    {self : DocumentPolicy} {target : Url} (h : self.policy = .ignore) :
    EmitsOnly World.trace p (self.check lib net target) := by
  refine check_emitsOnly ?_
  rw [h]
  exact emitsOnly_pure

theorem sitemapLoop_wire {lib : RobotsLib} {net : Network σ} {config : FetchConfig} :
    ∀ (remaining : Nat) (seen seeds : List String) (stack : List Url),
      Wire (sitemapLoop lib net config remaining seen seeds stack) := by
  intro remaining
  induction remaining with
  | zero => exact fun _ _ _ => emitsOnly_pure
  | succ remaining ih =>
    intro seen seeds stack
    unfold sitemapLoop
    split
    · exact emitsOnly_pure
    · refine fetchUntil_wire.attempt.bind fun fetched => ?_
      refine emitsOnly_ofResult.bind fun document => ?_
      split
      · exact emitsOnly_pure
      · exact ih _ _ _

theorem discoverSitemapUrls_wire {lib : RobotsLib} {net : Network σ} {target : Url}
    {config : FetchConfig} {robotsSitemaps : List Url} :
    Wire (discoverSitemapUrls lib net target config robotsSitemaps) :=
  sitemapLoop_wire _ _ _ _

end Basecrawl.Core
