/-
  The pin check of a Dockerfile.

  1. **Program** — `validateDockerfile` scans the lines that Python sees, with an environment of
     `ARG` defaults and a set of stage names.  The patterns are read on the words of a line, since
     `\s+` and `\S+` stand for gaps and words in all of them.
  2. **Docker** — what Docker makes of a line, its substitution and its comparison of stage names
     are parameters; its scoping is not: only defaults in front of the first `FROM` reach a `FROM`.
  3. **The scan** — its environment and its stage names are functions of the lines read so far
     (`scan_args`, `scan_stageAliases`), and what it records stays recorded (`scan_records`).
  4. **Soundness** — a report without unpinned images vouches for each `FROM` that the scan examined
     (`settled_of_examined`), and for no other (`sound_iff_unexamined_settled`).  Where every `FROM`
     is written plainly the scan examines them all (`sound_of_plain`).
-/
import Basecrawl.Lib.PyLines

namespace Basecrawl.Image.Dockerfile

open Chars PyLines

/-! ## Program -/

def isNameStart (c : Char) : Bool := c.isAlpha || c == '_'

def isNameChar (c : Char) : Bool := c.isAlphanum || c == '_'

/-- `[A-Za-z_][A-Za-z0-9_]*`, the whole of it. -/
def isName : Chars → Bool
  | [] => false
  | c :: rest => isNameStart c && rest.all isNameChar

/-- `_ARG.match(line)`: the groups. -/
def matchArg (line : Chars) : Option (Chars × Option Chars) :=
  match words line with
  | [keyword, word] =>
    let name := word.takeWhile isNameChar
    if keyword = "ARG".toList ∧ isName name = true then
      match word.dropWhile isNameChar with
      | [] => some (name, none)
      | '=' :: value => if value.isEmpty then none else some (name, some value)
      | _ => none
    else none
  | _ => none

/-- `[Aa][Ss]`. -/
def isAs (word : Chars) : Bool :=
  ["AS".toList, "As".toList, "aS".toList, "as".toList].contains word

/-- `[A-Za-z0-9_.-]`. -/
def isAliasChar (c : Char) : Bool := c.isAlphanum || c == '_' || c == '.' || c == '-'

/-- `(\S+)(?:\s+[Aa][Ss]\s+([A-Za-z0-9_.-]+))?\s*$`. -/
def matchStage : List Chars → Option (Chars × Option Chars)
  | [image] => some (image, none)
  | [image, as, stage] =>
    if isAs as && stage.all isAliasChar then some (image, some stage) else none
  | _ => none

/-- `--platform=\S+`. -/
def isPlatform (word : Chars) : Bool :=
  "--platform=".toList.isPrefixOf word && decide (11 < word.length)

/-- `_FROM.match(line)`: the groups.  A platform is tried first, and left out when what follows it
    does not match. -/
def matchFrom (line : Chars) : Option (Chars × Option Chars) :=
  match words line with
  | keyword :: word :: rest =>
    if keyword = "FROM".toList then
      (if isPlatform word then matchStage rest else none).or (matchStage (word :: rest))
    else none
  | _ => none

/-- `_SUBSTITUTION` behind its `$`: the name, and how many characters it takes. -/
def reference : Chars → Option (Chars × Nat)
  | '\x7b' :: rest =>
    let name := rest.takeWhile isNameChar
    if isName name && (rest.dropWhile isNameChar).head? == some '\x7d' then
      some (name, name.length + 2)
    else none
  | rest =>
    let name := rest.takeWhile isNameChar
    if isName name then some (name, name.length) else none

/-- `_SUBSTITUTION.sub`, by what stands for a name that is written in a certain way. -/
def substitute (value : Chars → Chars → Chars) : Nat → Chars → Chars
  | 0, _ => []
  | _ + 1, [] => []
  | fuel + 1, c :: rest =>
    match (if c = '$' then reference rest else none) with
    | some (name, taken) =>
      value name (c :: rest.take taken) ++ substitute value fuel (rest.drop taken)
    | none => c :: substitute value fuel rest

/-- A `dict` of strings, the last entry first. -/
abbrev Env := List (Chars × Chars)

/-- `_resolve_args`. -/
def resolveArgs (args : Env) (value : Chars) : Chars :=
  substitute (fun name written => (args.lookup name).getD written) value.length value

/-- A mark and 64 lower-case hex digits, at the end. -/
def endsInDigest (mark : Chars) (image : Chars) : Bool :=
  let digits := image.drop (image.length - 64)
  digits.length == 64 && digits.all (fun c => c.isDigit || ('a' ≤ c && c ≤ 'f')) &&
    mark.isSuffixOf (image.take (image.length - 64))

/-- `_DIGEST_PIN.search`. -/
def isPinned (image : Chars) : Bool := endsInDigest "@sha256:".toList image

/-- `_LATEST_TAG.search`. -/
def isLatest (image : Chars) : Bool := endsInDigest ":latest@sha256:".toList image

/-- `ReproducibilityError`. -/
structure ReproducibilityError where
  message : String
  code : String
deriving DecidableEq

structure DockerfileReport where
  externalImages : List Chars
  unpinnedImages : List Chars
deriving DecidableEq

/-- `args[name] = default`. -/
def declareArg (args : Env) (line : Chars) : Env :=
  match matchArg line with
  | some (name, some default) => (name, default) :: args
  | _ => args

/-- What the scan has of the lines so far. -/
structure Scan where
  args : Env := []
  stageAliases : List Chars := []
  external : List Chars := []

def scratch : Chars := "scratch".toList

/-- A line that `_FROM` matches. -/
def Scan.fromImage (st : Scan) (word : Chars) (stage : Option Chars) : Scan :=
  let image := resolveArgs st.args word
  { st with
    external :=
      if image ∉ st.stageAliases ∧ image ≠ scratch then st.external ++ [image] else st.external
    stageAliases := stage.toList ++ st.stageAliases }

/-- A pass of the loop. -/
def Scan.line (st : Scan) (line : Chars) : Scan :=
  match matchArg line with
  | some _ => { st with args := declareArg st.args line }
  | none =>
    match matchFrom line with
    | some (word, stage) => st.fromImage word stage
    | none => st

def scan (lines : List Chars) : Scan := lines.foldl Scan.line {}

/-- `validate_dockerfile`. -/
def validateDockerfile (text : Chars) : Except ReproducibilityError DockerfileReport :=
  let external := (scan (splitlines text)).external
  let unpinned := external.filter fun image => !isPinned image || isLatest image
  if external.isEmpty then
    .error ⟨"Dockerfile contains no external base images", "reproducibility_error"⟩
  else .ok ⟨external, unpinned⟩

/-! ## Docker -/

/-- What a line is for Docker. -/
inductive Instruction where
  | arg (defaults : List (Chars × Option Chars))
  | fromImage (image : Chars) (stage : Option Chars)
  | other
deriving DecidableEq

/-- What Docker makes of a line of the file, how it expands a word, and when it takes two names for
    the same stage. -/
structure Docker where
  read : Chars → Instruction
  expand : Env → Chars → Chars
  sameStage : Chars → Chars → Bool

/-- What Docker knows in front of a line. -/
structure Build where
  args : Env := []
  stages : List Chars := []
  started : Bool := false

variable (docker : Docker)

/-- A default is expanded with those in front of it. -/
def Docker.declare (args : Env) (name : Chars) : Option Chars → Env
  | some default => (name, docker.expand args default) :: args
  | none => args

/-- The scoping of Docker: an `ARG` inside a stage is no concern of a `FROM`. -/
def Docker.step (st : Build) (line : Chars) : Build :=
  match docker.read line with
  | .arg defaults =>
    if st.started then st
    else { st with args := defaults.foldl (fun args d => docker.declare args d.1 d.2) st.args }
  | .fromImage _ stage => { st with stages := stage.toList ++ st.stages, started := true }
  | .other => st

def Docker.build (lines : List Chars) : Build := lines.foldl docker.step {}

/-- The name of an earlier stage. -/
def Docker.IsStage (before : List Chars) (name : Chars) : Prop :=
  ∃ stage ∈ (docker.build before).stages, docker.sameStage stage name = true

/-- Behind these lines, a line is a `FROM` that names this image. -/
def Docker.Names (before : List Chars) (line name : Chars) : Prop :=
  ∃ word stage, docker.read line = .fromImage word stage ∧
    docker.expand (docker.build before).args word = name

/-- `scratch`, an earlier stage, or an image by digest. -/
def Docker.Settled (before : List Chars) (name : Chars) : Prop :=
  name = scratch ∨ docker.IsStage before name ∨ isPinned name = true

/-- Something about every `FROM` of a file: the lines in front of it, the line, and the name. -/
def Docker.EveryFrom (text : Chars) (P : List Chars → Chars → Chars → Prop) : Prop :=
  ∀ before line after name, rawLines text = before ++ line :: after →
    docker.Names before line name → P before line name

/-- No `FROM` names an unpinned image. -/
def Docker.Sound (text : Chars) : Prop :=
  docker.EveryFrom text fun before _ name => docker.Settled before name

/-! ## The scan -/

/-- The names of the stages that the scan has seen. -/
def nameStage (stageAliases : List Chars) (line : Chars) : List Chars :=
  match matchFrom line with
  | some (_, stage) => stage.toList ++ stageAliases
  | none => stageAliases

/-- The environment behind some lines. -/
def argsOf (lines : List Chars) : Env := lines.foldl declareArg []

/-- The stage names behind some lines. -/
def aliasesOf (lines : List Chars) : List Chars := lines.foldl nameStage []

/-- A line that `_ARG` matches is none that `_FROM` matches. -/
theorem matchFrom_of_matchArg {line : Chars} (h : matchArg line ≠ none) :
    matchFrom line = none := by
  unfold matchArg at h
  unfold matchFrom
  split at h
  · rename_i keyword word hwords
    rw [hwords]
    dsimp only at h ⊢
    split at h
    · rename_i hkeyword
      rw [hkeyword.1, if_neg (by decide)]
    · exact absurd rfl h
  · exact absurd rfl h

theorem Scan.line_args (st : Scan) (line : Chars) :
    (st.line line).args = declareArg st.args line := by
  unfold Scan.line
  cases harg : matchArg line with
  | some found => rfl
  | none =>
    have hdeclare : declareArg st.args line = st.args := by
      unfold declareArg
      rw [harg]
    rw [hdeclare]
    dsimp only
    split
    · rfl
    · rfl

theorem Scan.line_stageAliases (st : Scan) (line : Chars) :
    (st.line line).stageAliases = nameStage st.stageAliases line := by
  unfold Scan.line nameStage
  cases harg : matchArg line with
  | some found =>
    rw [matchFrom_of_matchArg (harg ▸ Option.some_ne_none found)]
  | none =>
    dsimp only
    split
    · rfl
    · rfl

theorem scan_args (lines : List Chars) : (scan lines).args = argsOf lines :=
  (List.foldl_hom Scan.args fun st line => (Scan.line_args st line).symm).symm

theorem scan_stageAliases (lines : List Chars) : (scan lines).stageAliases = aliasesOf lines :=
  (List.foldl_hom Scan.stageAliases fun st line => (Scan.line_stageAliases st line).symm).symm

/-- What a pass recorded before stays recorded. -/
theorem Scan.line_records (st : Scan) (line : Chars) : st.external ⊆ (st.line line).external := by
  unfold Scan.line
  split
  · exact List.Subset.refl _
  split
  · unfold Scan.fromImage
    dsimp only
    split
    · exact List.subset_append_left _ _
    · exact List.Subset.refl _
  · exact List.Subset.refl _

theorem scan_append (front back : List Chars) :
    scan (front ++ back) = back.foldl Scan.line (scan front) := List.foldl_append

theorem scan_records (front back : List Chars) :
    (scan front).external ⊆ (scan (front ++ back)).external := by
  rw [scan_append]
  generalize scan front = st
  induction back generalizing st with
  | nil => exact List.Subset.refl _
  | cons line back ih => exact List.Subset.trans (Scan.line_records st line) (ih (st.line line))

/-- A `FROM` line: its image is a stage, or `scratch`, or recorded. -/
theorem Scan.line_of_matchFrom {st : Scan} {line word : Chars} {stage : Option Chars}
    (h : matchFrom line = some (word, stage)) :
    resolveArgs st.args word ∈ st.stageAliases ∨ resolveArgs st.args word = scratch ∨
      resolveArgs st.args word ∈ (st.line line).external := by
  have harg : matchArg line = none := by
    by_contra hne
    rw [matchFrom_of_matchArg hne] at h
    cases h
  unfold Scan.line
  rw [harg, h]
  unfold Scan.fromImage
  dsimp only
  by_cases hstage : resolveArgs st.args word ∈ st.stageAliases
  · exact Or.inl hstage
  by_cases hscratch : resolveArgs st.args word = scratch
  · exact Or.inr (Or.inl hscratch)
  · rw [if_pos ⟨hstage, hscratch⟩]
    exact Or.inr (Or.inr (List.mem_append_right _ (List.mem_singleton_self _)))

/-! ## Soundness -/

/-- The lines of Python in some lines of the file. -/
def pieces (lines : List Chars) : List Chars := lines.flatMap splitlines

variable {docker}

/-- **The scan examines the name**: one of the lines of Python matches `_FROM`, with a word that the
    defaults so far resolve to the name that Docker has; and if the scan takes it for a stage, so
    does Docker. -/
def Docker.Examined (docker : Docker) (before : List Chars) (line name : Chars) : Prop :=
  ∃ front piece back word stage, splitlines line = front ++ piece :: back ∧
    matchFrom piece = some (word, stage) ∧
    resolveArgs (argsOf (pieces before ++ front)) word = name ∧
    (name ∈ aliasesOf (pieces before ++ front) → docker.IsStage before name)

theorem unpinned_eq_nil {text : Chars} {report : DockerfileReport}
    (hreport : validateDockerfile text = .ok report) (hclean : report.unpinnedImages = []) :
    ∀ image ∈ (scan (splitlines text)).external, isPinned image = true := by
  unfold validateDockerfile at hreport
  dsimp only at hreport
  split at hreport
  · cases hreport
  · cases hreport
    intro image himage
    have hnone := List.filter_eq_nil_iff.mp hclean image himage
    cases hpinned : isPinned image with
    | true => rfl
    | false =>
      rw [hpinned] at hnone
      exact absurd rfl hnone

/-- **What the scan examined** is settled, in a report without unpinned images. -/
theorem settled_of_examined {text line name : Chars} {before after : List Chars}
    (hclean : ∀ image ∈ (scan (splitlines text)).external, isPinned image = true)
    (htext : rawLines text = before ++ line :: after)
    (h : docker.Examined before line name) : docker.Settled before name := by
  obtain ⟨front, piece, back, word, stage, hline, hfrom, hname, hstage⟩ := h
  have hsplit : splitlines text =
      (pieces before ++ front) ++ [piece] ++ (back ++ pieces after) := by
    rw [splitlines_rawLines, htext, List.flatMap_append, List.flatMap_cons, hline]
    simp only [pieces, List.append_assoc, List.cons_append, List.nil_append]
  rw [← scan_args] at hname
  -- the scan took the name for a stage, passed over it, or recorded it
  rcases @Scan.line_of_matchFrom (scan (pieces before ++ front)) piece word stage hfrom with
    halias | hscratch | hrecorded
  · rw [hname, scan_stageAliases] at halias
    exact Or.inr (Or.inl (hstage halias))
  · exact Or.inl (hname ▸ hscratch)
  · rw [hname] at hrecorded
    refine Or.inr (Or.inr (hclean name ?_))
    rw [hsplit]
    apply scan_records
    rw [scan_append]
    exact hrecorded

/-- A keyword in another case than `FROM` hides its line from the scan. -/
theorem not_examined_of_keyword {before : List Chars} {line : Chars}
    (h : ∀ piece ∈ splitlines line, (words piece).head? ≠ some "FROM".toList) (name : Chars) :
    ¬ docker.Examined before line name := by
  rintro ⟨front, piece, back, word, stage, hline, hfrom, -⟩
  apply h piece (hline ▸ List.mem_append_right front List.mem_cons_self)
  unfold matchFrom at hfrom
  split at hfrom
  · rename_i keyword word rest hwords
    rw [hwords]
    split at hfrom
    · rename_i hkeyword
      exact congrArg some hkeyword
    · cases hfrom
  · cases hfrom

/-! ## Plain files -/

theorem mem_aliasesOf {lines : List Chars} {stage : Chars} : stage ∈ aliasesOf lines ↔
    ∃ line ∈ lines, ∃ word, matchFrom line = some (word, some stage) := by
  induction lines using List.reverseRecOn with
  | nil => exact iff_of_false List.not_mem_nil (by rintro ⟨line, hline, -⟩; cases hline)
  | append_singleton lines line ih =>
    have hlast : aliasesOf (lines ++ [line]) = nameStage (aliasesOf lines) line :=
      List.foldl_append
    simp only [hlast, List.mem_append, List.mem_singleton, or_and_right, exists_or, ← ih,
      exists_eq_left]
    unfold nameStage
    cases hfrom : matchFrom line with
    | none => simp
    | some found =>
      obtain ⟨word, named⟩ := found
      cases named with
      | none => simp
      | some named => simp [eq_comm, or_comm]

theorem mem_stages {lines : List Chars} {stage : Chars} : stage ∈ (docker.build lines).stages ↔
    ∃ line ∈ lines, ∃ word, docker.read line = .fromImage word (some stage) := by
  induction lines using List.reverseRecOn with
  | nil => exact iff_of_false List.not_mem_nil (by rintro ⟨line, hline, -⟩; cases hline)
  | append_singleton lines line ih =>
    have hlast : docker.build (lines ++ [line]) = docker.step (docker.build lines) line :=
      List.foldl_append
    simp only [hlast, List.mem_append, List.mem_singleton, or_and_right, exists_or, ← ih,
      exists_eq_left]
    unfold Docker.step
    cases hread : docker.read line with
    | other => simp
    | arg defaults =>
      dsimp only
      split
      · simp
      · simp
    | fromImage word found =>
      cases found with
      | none => simp
      | some found => simp [eq_comm, or_comm]

/-- A word without a character that a substitution or a quotation starts with. -/
def Literal (word : Chars) : Prop := ∀ c ∈ word, c ∉ ['$', '\\', '"', '\'']

theorem substitute_literal {value : Chars → Chars → Chars} {word : Chars} (h : '$' ∉ word) :
    substitute value word.length word = word := by
  induction word with
  | nil => rfl
  | cons c rest ih =>
    have hc : c ≠ '$' := fun hc => h (hc ▸ List.mem_cons_self)
    rw [List.length_cons, substitute, if_neg hc]
    exact congrArg (c :: ·) (ih fun hrest => h (List.mem_cons_of_mem c hrest))

/-- **A plain line**: what is a `FROM` for Docker is one line of Python, on which `_FROM` finds the
    same words, with a literal image; and what `_FROM` finds anywhere is a `FROM` for Docker. -/
structure Docker.PlainLine (docker : Docker) (line : Chars) : Prop where
  seen : ∀ word stage, docker.read line = .fromImage word stage →
    Literal word ∧ ∃ piece, splitlines line = [piece] ∧ matchFrom piece = some (word, stage)
  real : ∀ piece ∈ splitlines line, ∀ word stage, matchFrom piece = some (word, stage) →
    docker.read line = .fromImage word stage

/-- **Plain files**: a report without unpinned images is right about them, for a Docker that leaves
    literal words alone. -/
theorem sound_of_plain {text : Chars} {report : DockerfileReport}
    (hreport : validateDockerfile text = .ok report) (hclean : report.unpinnedImages = [])
    (hexpand : ∀ env word, Literal word → docker.expand env word = word)
    (hsame : ∀ stage, docker.sameStage stage stage = true)
    (hplain : ∀ line ∈ rawLines text, docker.PlainLine line) : docker.Sound text := by
  rintro before line after name htext ⟨word, stage, hread, hname⟩
  have hmem : ∀ other ∈ before ++ line :: after, docker.PlainLine other := htext ▸ hplain
  obtain ⟨hliteral, piece, hpiece, hfrom⟩ :=
    (hmem line (List.mem_append_right _ List.mem_cons_self)).seen word stage hread
  have hdollar : '$' ∉ word := fun hin => hliteral '$' hin List.mem_cons_self
  rw [hexpand _ word hliteral] at hname
  apply settled_of_examined (unpinned_eq_nil hreport hclean) htext
  refine ⟨[], piece, [], word, stage, hpiece, hfrom, ?_, fun halias => ?_⟩
  · rw [← hname]
    exact substitute_literal hdollar
  · rw [List.append_nil] at halias
    obtain ⟨other, hother, word', hfrom'⟩ := mem_aliasesOf.mp halias
    obtain ⟨line', hline', hin⟩ := List.mem_flatMap.mp hother
    have hread' := (hmem line' (List.mem_append_left _ hline')).real other hin word' (some name)
      hfrom'
    exact ⟨name, mem_stages.mpr ⟨line', hline', word', hread'⟩, hsame name⟩

/-! ## Exactly -/

/-- **A report without unpinned images is right** exactly when each `FROM` that the scan did not
    examine names `scratch`, an earlier stage or a pinned image anyway. -/
theorem sound_iff_unexamined_settled {text : Chars} {report : DockerfileReport}
    (hreport : validateDockerfile text = .ok report) (hclean : report.unpinnedImages = []) :
    docker.Sound text ↔ docker.EveryFrom text fun before line name =>
      ¬ docker.Examined before line name → docker.Settled before name := by
  constructor
  · intro hsound before line after name htext hnames _
    exact hsound before line after name htext hnames
  · intro hunexamined before line after name htext hnames
    by_cases hexamined : docker.Examined before line name
    · exact settled_of_examined (unpinned_eq_nil hreport hclean) htext hexamined
    · exact hunexamined before line after name htext hnames hexamined

def lower (word : Chars) : Chars := word.map Char.toLower

/-- `name` or `name=default`. -/
def assignment (word : Chars) : Chars × Option Chars :=
  (word.takeWhile (· != '='),
    if '=' ∈ word then some ((word.dropWhile (· != '=')).drop 1) else none)

/-- Docker on lines without quotes, escapes and continuations: keywords of any case. -/
def plainRead (line : Chars) : Instruction :=
  match words line with
  | [] => .other
  | keyword :: rest =>
    if lower keyword = "from".toList then
      match rest.dropWhile fun word => "--".toList.isPrefixOf word with
      | [image] => .fromImage image none
      | [image, as, stage] =>
        if lower as = "as".toList then .fromImage image (some (lower stage)) else .other
      | _ => .other
    else if lower keyword = "arg".toList then .arg (rest.map assignment)
    else .other

/-- What has no default is empty. -/
def plainDocker : Docker where
  read := plainRead
  expand args word := substitute (fun name _ => (args.lookup name).getD []) word.length word
  sameStage stage name := lower stage == lower name

/-- A pinned base, and one that is not, behind a keyword in lower case. -/
def hidden : Chars :=
  "FROM a@sha256:".toList ++ List.replicate 64 '0' ++ "\nfrom ubuntu\n".toList

def hiddenReport : DockerfileReport :=
  ⟨["a@sha256:".toList ++ List.replicate 64 '0'], []⟩

set_option maxRecDepth 8000 in
theorem validateDockerfile_hidden : validateDockerfile hidden = .ok hiddenReport := by decide

theorem not_sound_hidden : ¬ plainDocker.Sound hidden := by
  intro hsound
  have hsettled := hsound ["FROM a@sha256:".toList ++ List.replicate 64 '0' ++ ['\n']]
    "from ubuntu\n".toList [] "ubuntu".toList (by decide)
    ⟨"ubuntu".toList, none, by decide, by decide⟩
  rcases hsettled with hscratch | ⟨stage, hstage, -⟩ | hpinned
  · exact absurd hscratch (by decide)
  · have hnone : (plainDocker.build
        ["FROM a@sha256:".toList ++ List.replicate 64 '0' ++ ['\n']]).stages = [] := by decide
    rw [hnone] at hstage
    cases hstage
  · exact absurd hpinned (by decide)

theorem sound_iff_unexamined_settled_hidden :
    ¬ plainDocker.EveryFrom hidden fun before line name =>
      ¬ plainDocker.Examined before line name → plainDocker.Settled before name := by
  intro h
  exact not_sound_hidden
    ((sound_iff_unexamined_settled validateDockerfile_hidden rfl).mpr h)

/-- The lower-case `FROM` is not examined: the report is clean, and the base is not pinned. -/
theorem hidden_accepted : ∃ report, validateDockerfile hidden = .ok report ∧
    report.unpinnedImages = [] ∧ ¬ plainDocker.Sound hidden :=
  ⟨hiddenReport, validateDockerfile_hidden, rfl, not_sound_hidden⟩

end Basecrawl.Image.Dockerfile
