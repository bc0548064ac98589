/-
  The records of a robots document and the groups `parse` makes of them.

  1. **The grammar** — a line says `name: value` (`Says`); a document is a sequence of records, each
     a run of agent lines and a run of rule lines, with other lines anywhere between them.
  2. **A line** — the parser reads each line as the grammar does (`ParseState.line_reads`).
  3. **Records** — the parser ends a group at the rules it stored, so a group without rules is
     joined with the next one (`joined`); `parse_joined` is the run lemma.
  4. **One group a record** — so it is exactly when each record but the last stored a rule.
-/
import Basecrawl.Core.Robots
import Basecrawl.Lib.TextLines

namespace Basecrawl.Core

open Text

/-! ## The grammar -/

/-- A raw line that says `name: value`: white space around the parts, and perhaps a comment. -/
def Says (name value raw : String) : Prop :=
  ∃ before word mid after tail comment,
    raw = before ++ word ++ mid ++ ":" ++ after ++ value ++ tail ++ comment ∧
    Blank before ∧ Blank mid ∧ Blank after ∧ Blank tail ∧ IsComment '#' comment ∧
    asciiLower word = name ∧ trim word = word ∧ ':' ∉ word.toList ∧ '#' ∉ word.toList ∧
    trim value = value ∧ '#' ∉ value.toList

/-- What the lines of a document are. -/
inductive RobotsLine where
  | agent (value : String)
  | rule (allow : Bool) (path : String)
  | other
deriving DecidableEq

/-- How a raw line reads. Blank lines, comments, sitemaps, unknown directives and lines that are no
directive are other lines. -/
inductive Reads (raw : String) : RobotsLine → Prop
  | agent {value : String} : Says "user-agent" value raw → Reads raw (.agent value)
  | allow {path : String} : Says "allow" path raw → Reads raw (.rule true path)
  | disallow {path : String} : Says "disallow" path raw → Reads raw (.rule false path)
  | directive {name value : String} : Says name value raw →
      name ∉ ["user-agent", "allow", "disallow"] → Reads raw .other
  | text {text comment : String} : raw = text ++ comment → IsComment '#' comment →
      ':' ∉ text.toList → '#' ∉ text.toList → Reads raw .other

/-- A record: a run of agents and a run of rules. A rule's path may be empty. -/
structure Record where
  agents : List String
  rules : List (Bool × String)
  agents_ne : agents ≠ []
  rules_ne : rules ≠ []

/-- The lines of a record. -/
def Record.lines (record : Record) : List RobotsLine :=
  record.agents.map .agent ++ record.rules.map fun rule => .rule rule.1 rule.2

/-- A rule that is worth storing. -/
def storedRule (rule : Bool × String) : Option Rule :=
  if rule.2 = "" then none else some ⟨rule.1, rule.2⟩

/-- The group of a record: its agents in lower case and its rules with a path. -/
def Record.group (record : Record) : Group :=
  ⟨record.agents.map asciiLower, record.rules.filterMap storedRule⟩

theorem blank_none : Blank "" := by
  intro c hc
  rw [String.toList_empty] at hc
  exact absurd hc List.not_mem_nil

theorem blank_space : Blank " " := by
  intro c hc
  obtain rfl := List.mem_singleton.mp hc
  decide

/-- A line as it is mostly written. -/
theorem says_plain {word after value : String} (hafter : Blank after) (hword : trim word = word)
    (hcolon : ':' ∉ word.toList) (hmark : '#' ∉ word.toList) (hvalue : trim value = value)
    (hvmark : '#' ∉ value.toList) :
    Says (asciiLower word) value (word ++ ":" ++ after ++ value) := by
  refine ⟨"", word, "", after, "", "", ?_, blank_none, blank_none, hafter, blank_none, .inl rfl,
    rfl, hword, hcolon, hmark, hvalue, hvmark⟩
  rw [String.empty_append, String.append_empty, String.append_empty, String.append_empty]

/-! ## A line -/

/-- What the parser does with a line of the grammar. -/
def ParseState.read (st : ParseState) : RobotsLine → ParseState
  | .agent value => st.userAgent (asciiLower value)
  | .rule allow path => st.rule allow path
  | .other => st

/-- Two states that differ in their sitemaps at most. -/
def SameGroups (st st' : ParseState) : Prop :=
  st.parsed.groups = st'.parsed.groups ∧ st.current = st'.current

theorem SameGroups.sitemap {st st' : ParseState} (h : SameGroups st st') (value : String) :
    SameGroups (st.sitemap value) st' := by
  unfold ParseState.sitemap
  split
  · exact h
  · exact h

theorem SameGroups.userAgent {st st' : ParseState} (h : SameGroups st st') (agent : String) :
    SameGroups (st.userAgent agent) (st'.userAgent agent) := by
  obtain ⟨⟨groups, urls⟩, current⟩ := st
  obtain ⟨⟨groups', urls'⟩, current'⟩ := st'
  obtain ⟨rfl, rfl⟩ : groups = groups' ∧ current = current' := h
  cases current with
  | none => exact ⟨rfl, rfl⟩
  | some group =>
    simp only [ParseState.userAgent]
    split
    · exact ⟨rfl, rfl⟩
    · exact ⟨rfl, rfl⟩

theorem SameGroups.rule {st st' : ParseState} (h : SameGroups st st') (allow : Bool)
    (path : String) : SameGroups (st.rule allow path) (st'.rule allow path) := by
  obtain ⟨⟨groups, urls⟩, current⟩ := st
  obtain ⟨⟨groups', urls'⟩, current'⟩ := st'
  obtain ⟨rfl, rfl⟩ : groups = groups' ∧ current = current' := h
  cases current with
  | none => exact ⟨rfl, rfl⟩
  | some group =>
    simp only [ParseState.rule]
    split
    · exact ⟨rfl, rfl⟩
    · exact ⟨rfl, rfl⟩

theorem colon_not_white : isWhitespace ':' = false := by decide

theorem mark_not_white : isWhitespace '#' = false := by decide

theorem not_mem_of_blank {s : String} {c : Char} (h : Blank s) (hc : isWhitespace c = false) :
    c ∉ s.toList := by
  intro hmem
  rw [h c hmem] at hc
  exact Bool.noConfusion hc

/-- The name and the value a line says, as the parser cuts them. -/
theorem says_cut {name value raw : String} (h : Says name value raw) :
    ∃ left right, splitOnce (trim ((split raw '#').headD "")) ':' = some (left, right) ∧
      asciiLower (trim left) = name ∧ trim right = value := by
  obtain ⟨before, word, mid, after, tail, comment, rfl, hbefore, hmid, hafter, htail, hcomment,
    hname, hword, hcolon, hmark, hvalue, hvmark⟩ := h
  have hfront : '#' ∉ (before ++ word ++ mid ++ ":" ++ after ++ value ++ tail).toList := by
    have hbetween : '#' ∉ (":" : String).toList := by decide
    simp only [String.toList_append, List.mem_append, not_or]
    exact ⟨⟨⟨⟨⟨⟨not_mem_of_blank hbefore mark_not_white, hmark⟩,
      not_mem_of_blank hmid mark_not_white⟩, hbetween⟩, not_mem_of_blank hafter mark_not_white⟩,
      hvmark⟩, not_mem_of_blank htail mark_not_white⟩
  have hleft : ':' ∉ (before ++ word ++ mid).toList := by
    simp only [String.toList_append, List.mem_append, not_or]
    exact ⟨⟨not_mem_of_blank hbefore colon_not_white, hcolon⟩,
      not_mem_of_blank hmid colon_not_white⟩
  have hparts : before ++ word ++ mid ++ ":" ++ after ++ value ++ tail =
      before ++ word ++ mid ++ String.singleton ':' ++ (after ++ value ++ tail) := by
    rw [show String.singleton ':' = ":" from rfl]
    simp only [String.append_assoc]
  obtain ⟨left, right, hcut, htleft, htright⟩ :=
    @splitOnce_trim _ (after ++ value ++ tail) ':' colon_not_white hleft
  refine ⟨left, right, ?_, ?_, ?_⟩
  · rw [headD_split hfront hcomment, hparts]
    exact hcut
  · rw [htleft, trim_append_right hmid, trim_append_left hbefore, hword, hname]
  · rw [htright, trim_append_right htail, trim_append_left hafter, hvalue]

/-- **The parser reads a line as the grammar does**, but for the sitemaps. -/
theorem ParseState.line_reads {st st' : ParseState} {raw : String} {line : RobotsLine}
    (hst : SameGroups st st') (h : Reads raw line) :
    SameGroups (st.line raw) (st'.read line) := by
  cases h with
  | @agent value hsays =>
    obtain ⟨left, right, hcut, hname, hvalue⟩ := says_cut hsays
    have hline : st.line raw = st.userAgent (asciiLower value) := by
      simp only [ParseState.line, hcut, hname, hvalue]
    rw [hline]
    exact hst.userAgent _
  | @allow path hsays =>
    obtain ⟨left, right, hcut, hname, hvalue⟩ := says_cut hsays
    have hline : st.line raw = st.rule true path := by
      simp only [ParseState.line, hcut, hname, hvalue]
    rw [hline]
    exact hst.rule _ _
  | @disallow path hsays =>
    obtain ⟨left, right, hcut, hname, hvalue⟩ := says_cut hsays
    have hline : st.line raw = st.rule false path := by
      simp only [ParseState.line, hcut, hname, hvalue]
    rw [hline]
    exact hst.rule _ _
  | directive hsays hname =>
    obtain ⟨left, right, hcut, rfl, rfl⟩ := says_cut hsays
    simp only [List.mem_cons, List.not_mem_nil, or_false, not_or] at hname
    obtain ⟨hagent, hallow, hdisallow⟩ := hname
    rw [ParseState.line, hcut]
    dsimp only
    split
    · exact hst.sitemap _
    · exact absurd ‹_› hagent
    · exact absurd ‹_› hallow
    · exact absurd ‹_› hdisallow
    · exact hst
  | @text text comment hraw hcomment hcolon hmark =>
    rw [ParseState.line, hraw, headD_split hmark hcomment,
      splitOnce_eq_none (not_mem_trim hcolon)]
    exact hst

theorem ParseState.lines_read {raws : List String} {doc : List RobotsLine}
    (h : List.Forall₂ Reads raws doc) {st st' : ParseState} (hst : SameGroups st st') :
    SameGroups (raws.foldl ParseState.line st) (doc.foldl ParseState.read st') := by
  induction h generalizing st st' with
  | nil => exact hst
  | cons hline _ ih =>
    rw [List.foldl_cons, List.foldl_cons]
    exact ih (line_reads hst hline)

/-- Other lines do nothing. -/
theorem ParseState.read_filter (doc : List RobotsLine) (st : ParseState) :
    doc.foldl ParseState.read st = (doc.filter (· != .other)).foldl ParseState.read st := by
  induction doc generalizing st with
  | nil => rfl
  | cons line doc ih =>
    rw [List.foldl_cons, ih]
    by_cases hline : line = .other
    · rw [hline, List.filter_cons_of_neg (by simp)]
      rfl
    · rw [List.filter_cons_of_pos (by simpa using hline), List.foldl_cons]

/-! ## Records -/

theorem ParseState.read_agents (agents : List String) (groups : List Group) (urls : List String)
    (before : List String) :
    (agents.map RobotsLine.agent).foldl ParseState.read ⟨⟨groups, urls⟩, some ⟨before, []⟩⟩ =
      ⟨⟨groups, urls⟩, some ⟨before ++ agents.map asciiLower, []⟩⟩ := by
  induction agents generalizing before with
  | nil => rw [List.map_nil, List.map_nil, List.append_nil, List.foldl_nil]
  | cons agent agents ih =>
    rw [List.map_cons, List.foldl_cons, List.map_cons, List.append_cons]
    exact ih (before ++ [asciiLower agent])

theorem ParseState.read_rules (rules : List (Bool × String)) (groups : List Group)
    (urls agents : List String) (hagents : agents ≠ []) (before : List Rule) :
    (rules.map fun rule => RobotsLine.rule rule.1 rule.2).foldl ParseState.read
        ⟨⟨groups, urls⟩, some ⟨agents, before⟩⟩ =
      ⟨⟨groups, urls⟩, some ⟨agents, before ++ rules.filterMap storedRule⟩⟩ := by
  induction rules generalizing before with
  | nil => rw [List.map_nil, List.filterMap_nil, List.append_nil, List.foldl_nil]
  | cons rule rules ih =>
    obtain ⟨allow, path⟩ := rule
    rw [List.map_cons, List.foldl_cons]
    show (rules.map _).foldl ParseState.read
      (ParseState.rule ⟨⟨groups, urls⟩, some ⟨agents, before⟩⟩ allow path) = _
    by_cases hpath : path = ""
    · have hskip : storedRule (allow, path) = none := if_pos hpath
      rw [List.filterMap_cons_none hskip, ← ih before]
      simp only [ParseState.rule, if_pos (Or.inl hpath)]
    · have hstored : storedRule (allow, path) = some ⟨allow, path⟩ := if_neg hpath
      have hkept : ¬ (path = "" ∨ agents.isEmpty = true) := by
        rintro (h | h)
        · exact hpath h
        · exact hagents (List.isEmpty_iff.mp h)
      rw [List.filterMap_cons_some hstored, List.append_cons, ← ih (before ++ [_])]
      simp only [ParseState.rule, if_neg hkept]

/-- A run of groups as the parser keeps them: a group without rules takes in the next one. -/
def joined (group : Group) : List Group → List Group
  | [] => [group]
  | next :: rest =>
      if group.rules.isEmpty then joined ⟨group.agents ++ next.agents, next.rules⟩ rest
      else group :: joined next rest

/-- What the parser has after the lines so far, were they the last. -/
def ParseState.groups (st : ParseState) : List Group := st.parsed.groups ++ st.current.toList

/-- A record in a group with rules starts a new group, and one in a group without continues it. -/
theorem ParseState.read_record (record : Record) (groups : List Group) (urls : List String)
    (current : Group) :
    record.lines.foldl ParseState.read ⟨⟨groups, urls⟩, some current⟩ =
      if current.rules.isEmpty then
        ⟨⟨groups, urls⟩, some ⟨current.agents ++ record.group.agents, record.group.rules⟩⟩
      else ⟨⟨groups ++ [current], urls⟩, some record.group⟩ := by
  obtain ⟨agents, rules, hagents, -⟩ := record
  obtain ⟨agent, agents, rfl⟩ := List.exists_cons_of_ne_nil hagents
  obtain ⟨before, stored⟩ := current
  rw [Record.lines, List.foldl_append, List.map_cons, List.foldl_cons]
  cases stored with
  | nil =>
    show (rules.map _).foldl read ((agents.map RobotsLine.agent).foldl read
      ⟨⟨groups, urls⟩, some ⟨before ++ [asciiLower agent], []⟩⟩) = _
    rw [read_agents, read_rules _ _ _ _ (by simp), List.append_assoc]
    rfl
  | cons rule stored =>
    show (rules.map _).foldl read ((agents.map RobotsLine.agent).foldl read
      ⟨⟨groups ++ [⟨before, rule :: stored⟩], urls⟩, some ⟨[asciiLower agent], []⟩⟩) = _
    rw [read_agents, read_rules _ _ _ _ (by simp)]
    rfl

theorem ParseState.read_first (record : Record) (groups : List Group) (urls : List String) :
    record.lines.foldl ParseState.read ⟨⟨groups, urls⟩, none⟩ =
      ⟨⟨groups, urls⟩, some record.group⟩ := by
  obtain ⟨agents, rules, hagents, -⟩ := record
  obtain ⟨agent, agents, rfl⟩ := List.exists_cons_of_ne_nil hagents
  rw [Record.lines, List.foldl_append, List.map_cons, List.foldl_cons]
  show (rules.map _).foldl read ((agents.map RobotsLine.agent).foldl read
    ⟨⟨groups, urls⟩, some ⟨[asciiLower agent], []⟩⟩) = _
  rw [read_agents, read_rules _ _ _ _ (by simp)]
  rfl

theorem ParseState.read_records (records : List Record) (groups : List Group)
    (urls : List String) (current : Group) :
    ((records.flatMap Record.lines).foldl ParseState.read ⟨⟨groups, urls⟩, some current⟩).groups =
      groups ++ joined current (records.map Record.group) := by
  induction records generalizing groups current with
  | nil => rfl
  | cons record records ih =>
    rw [List.flatMap_cons, List.foldl_append, read_record, List.map_cons, joined]
    split
    · exact ih groups _
    · rw [ih (groups ++ [current]) record.group, List.append_assoc, List.singleton_append]

/-- The groups of a run of records. -/
def joinedRecords : List Record → List Group
  | [] => []
  | record :: records => joined record.group (records.map Record.group)

/-- **The parser keeps the records, joined.** -/
theorem parse_joined {source : String} {doc : List RobotsLine} {records : List Record}
    (hreads : List.Forall₂ Reads (lines source) doc)
    (hdoc : doc.filter (· != .other) = records.flatMap Record.lines) :
    (parse source).groups = joinedRecords records := by
  have hsame := ParseState.lines_read hreads
    (⟨rfl, rfl⟩ : SameGroups ⟨⟨[], []⟩, none⟩ ⟨⟨[], []⟩, none⟩)
  have hparse : (parse source).groups =
      (doc.foldl ParseState.read ⟨⟨[], []⟩, none⟩).groups := by
    show _ ++ _ = _ ++ _
    rw [hsame.1, hsame.2]
  rw [hparse, ParseState.read_filter, hdoc]
  cases records with
  | nil => rfl
  | cons record records =>
    rw [List.flatMap_cons, List.foldl_append, ParseState.read_first]
    exact ParseState.read_records records [] [] record.group

/-! ## One group a record -/

theorem length_joined_le (group : Group) (rest : List Group) :
    (joined group rest).length ≤ rest.length + 1 := by
  induction rest generalizing group with
  | nil => exact Nat.le_refl _
  | cons next rest ih =>
    rw [joined]
    split
    · exact Nat.le_succ_of_le (ih _)
    · exact Nat.succ_le_succ (ih next)

/-- Nothing is joined when each group but the last has rules. -/
theorem joined_eq_iff (group : Group) (rest : List Group) :
    joined group rest = group :: rest ↔ ∀ g ∈ (group :: rest).dropLast, g.rules ≠ [] := by
  induction rest generalizing group with
  | nil => simp [joined]
  | cons next rest ih =>
    rw [joined, List.dropLast_cons_cons, List.forall_mem_cons]
    by_cases hrules : group.rules = []
    · -- a joined group is one group less
      refine ⟨fun h => ?_, fun h => absurd hrules h.1⟩
      rw [if_pos (List.isEmpty_iff.mpr hrules)] at h
      have hlength := length_joined_le ⟨group.agents ++ next.agents, next.rules⟩ rest
      rw [h, List.length_cons, List.length_cons] at hlength
      omega
    · rw [if_neg (fun h => hrules (List.isEmpty_iff.mp h)), List.cons_inj_right, ih next]
      exact ⟨fun h => ⟨hrules, h⟩, fun h => h.2⟩

theorem Record.group_rules_ne {record : Record} :
    record.group.rules ≠ [] ↔ ∃ rule ∈ record.rules, rule.2 ≠ "" := by
  show record.rules.filterMap storedRule ≠ [] ↔ _
  rw [Ne, List.filterMap_eq_nil_iff]
  constructor
  · intro h
    by_contra hnone
    apply h
    intro rule hrule
    exact if_pos (by_contra fun hpath => hnone ⟨rule, hrule, hpath⟩)
  · rintro ⟨rule, hrule, hpath⟩ h
    have hnone := h rule hrule
    rw [storedRule, if_neg hpath] at hnone
    cases hnone

/-- **One group for each record**, exactly when each record but the last has a rule with a path. -/
theorem parse_records_iff {source : String} {doc : List RobotsLine} {records : List Record}
    (hreads : List.Forall₂ Reads (lines source) doc)
    (hdoc : doc.filter (· != .other) = records.flatMap Record.lines) :
    (parse source).groups = records.map Record.group ↔
      ∀ record ∈ records.dropLast, ∃ rule ∈ record.rules, rule.2 ≠ "" := by
  rw [parse_joined hreads hdoc]
  cases records with
  | nil => exact ⟨fun _ _ h => (List.not_mem_nil h).elim, fun _ => rfl⟩
  | cons record records =>
    show joined record.group (records.map Record.group) =
      record.group :: records.map Record.group ↔ _
    rw [joined_eq_iff, ← List.map_cons, ← List.map_dropLast, List.forall_mem_map]
    constructor
    · exact fun h r hr => Record.group_rules_ne.mp (h r hr)
    · exact fun h r hr => Record.group_rules_ne.mpr (h r hr)

/-- A record for every crawler that allows all, and one that names a crawler. -/
def openRecord : Record := ⟨["*"], [(false, "")], List.cons_ne_nil _ _, List.cons_ne_nil _ _⟩

/-- A record that closes a site to one crawler. -/
def closedRecord : Record := ⟨["Bot"], [(false, "/")], List.cons_ne_nil _ _, List.cons_ne_nil _ _⟩

theorem reads_agent_bot : Reads "User-agent: Bot" (.agent "Bot") :=
  .agent (@says_plain "User-agent" " " "Bot" blank_space (by decide) (by decide) (by decide)
    (by decide) (by decide))

theorem reads_disallow_all : Reads "Disallow: /" (.rule false "/") :=
  .disallow (@says_plain "Disallow" " " "/" blank_space (by decide) (by decide) (by decide)
    (by decide) (by decide))

theorem reads_agent_all : Reads "User-agent: *" (.agent "*") :=
  .agent (@says_plain "User-agent" " " "*" blank_space (by decide) (by decide) (by decide)
    (by decide) (by decide))

theorem reads_disallow_none : Reads "Disallow:" (.rule false "") :=
  .disallow (@says_plain "Disallow" "" "" blank_none (by decide) (by decide) (by decide)
    (by decide) (by decide))

/-- At the end of a document a record that allows all has its own group. -/
theorem parse_records_last :
    (parse "User-agent: Bot\nDisallow: /\nUser-agent: *\nDisallow:").groups =
      [closedRecord, openRecord].map Record.group := by
  have hreads : List.Forall₂ Reads
      (lines "User-agent: Bot\nDisallow: /\nUser-agent: *\nDisallow:")
      [.agent "Bot", .rule false "/", .agent "*", .rule false ""] :=
    .cons reads_agent_bot (.cons reads_disallow_all (.cons reads_agent_all
      (.cons reads_disallow_none .nil)))
  refine (@parse_records_iff _ _ [closedRecord, openRecord] hreads rfl).mpr ?_
  intro record hrecord
  obtain rfl := List.mem_singleton.mp hrecord
  exact ⟨_, List.mem_singleton_self _, by decide⟩

/-- **A record that allows all inherits the rules of the next one.** -/
theorem parse_records_open :
    ¬ ∀ (source : String) (doc : List RobotsLine) (records : List Record),
      List.Forall₂ Reads (lines source) doc →
      doc.filter (· != .other) = records.flatMap Record.lines →
      (parse source).groups = records.map Record.group := by
  intro h
  have hreads : List.Forall₂ Reads
      (lines "User-agent: *\nDisallow:\nUser-agent: Bot\nDisallow: /")
      [.agent "*", .rule false "", .agent "Bot", .rule false "/"] :=
    .cons reads_agent_all (.cons reads_disallow_none (.cons reads_agent_bot
      (.cons reads_disallow_all .nil)))
  have hgroups := h _ _ [openRecord, closedRecord] hreads rfl
  rw [@parse_joined _ _ [openRecord, closedRecord] hreads rfl] at hgroups
  exact absurd (congrArg List.length hgroups) (by decide)

end Basecrawl.Core
