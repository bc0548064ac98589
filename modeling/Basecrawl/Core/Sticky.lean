/-
  Sticky browser profiles: the directories of the tasks, and who wipes them.

  1. **Program** — a task key is normalised into a name; the registry maps it to a directory below
     the profile root, `acquire` creates or re-attaches it, `wipe` removes it.
  2. **Containment** — the name is one safe component, so it leads to a child of the root unless it
     is `.` or `..` (`directChild_iff`).
  3. **Isolation** — the registry only ever holds `key ↦ root/key`; a wipe touches nothing but the
     directory of its own name, unless that name is `.`, `..` or the reserved `__all__`.
-/
import Basecrawl.Core.Canonical
import Basecrawl.Lib.History
import Basecrawl.Lib.LittleEndian
import Basecrawl.Lib.Paths

namespace Basecrawl.Core.Sticky

open Text Paths History

/-! ## Task keys -/

/-- Alphanumeric, or one of a few separators. -/
def isSafe (c : Char) : Bool := c.isAlphanum || c == '-' || c == '_' || c == '.'

/-- The first half of a digest, in hex without leading zeros. -/
def overflowName (digests : Digests) (trimmed : String) : String :=
  let digest := (digests.sha256 (utf8 trimmed)).toList
  "t-" ++ String.ofList (Nat.toDigits 16 (LittleEndian.leNat (digest.take 16).reverse))

def normalizeTaskKey (digests : Digests) (taskKey : String) : String :=
  let trimmed := trim taskKey
  if trimmed = "" then "anonymous"
  else
    let safe := String.ofList (trimmed.toList.map fun c => if isSafe c then c else '_')
    if safe.utf8ByteSize > 96 then overflowName digests trimmed else safe

/-! ## The registry and the disk -/

inductive StealthPolicyError where
  | hardPathDisabled (reason : String)
  | profile (detail : String)

/-- What a process sees: its disk, its working directory, `sticky_profile_root`, SHA-256. -/
structure Site (σ β : Type) where
  disk : Disk σ β
  cwd : Location
  root : String
  digests : Digests

variable {σ β : Type}

def Site.locate (site : Site σ β) (path : String) : Location := resolve site.cwd path

/-- The name of a task's directory. -/
def Site.key (site : Site σ β) (taskKey : String) : String := normalizeTaskKey site.digests taskKey

/-- Where the directory of a task is. -/
def Site.home (site : Site σ β) (taskKey : String) : Location :=
  site.locate (join site.root (site.key taskKey))

/-- `STICKY_PROFILES`, `LAST_STICKY_KEY` and the disk. -/
structure Profiles (σ : Type) where
  registry : List (String × String)
  lastKey : Option String
  disk : σ

/-- `HashMap::remove`. -/
def erase (key : String) (registry : List (String × String)) : List (String × String) :=
  registry.filter fun entry => entry.1 != key

/-- An acquired directory, as it is registered. -/
def Profiles.register (key dir : String) (p : Profiles σ) : Profiles σ :=
  { p with registry := (key, dir) :: erase key p.registry, lastKey := some key }

/-- The directory of a key that is not registered: re-attached where it exists, else created. -/
def attach (site : Site σ β) (key : String) (p : Profiles σ) :
    Except StealthPolicyError String × Profiles σ :=
  match site.disk.createDirAll (site.locate site.root) p.disk with
  | (.error error, disk) =>
      (.error (.profile ("create sticky profile root failed: " ++ error)), { p with disk := disk })
  | (.ok (), disk) =>
      let dir := join site.root key
      if site.disk.holdsDir (site.locate dir) disk then
        (.ok dir, { p with disk := disk }.register key dir)
      else
        match site.disk.createDirAll (site.locate dir) disk with
        | (.error error, disk) =>
            (.error (.profile ("create sticky profile dir failed: " ++ error)),
              { p with disk := disk })
        | (.ok (), disk) => (.ok dir, { p with disk := disk }.register key dir)

def acquireStickyProfile (site : Site σ β) (taskKey : String) (p : Profiles σ) :
    Except StealthPolicyError String × Profiles σ :=
  let key := site.key taskKey
  match p.registry.lookup key with
  | some existing =>
      if site.disk.holdsDir (site.locate existing) p.disk then
        (.ok existing, { p with lastKey := some key })
      else attach site key { p with registry := erase key p.registry }
  | none => attach site key p

def wipeStickyProfile (site : Site σ β) (taskKey : String) (p : Profiles σ) : Profiles σ :=
  let key := site.key taskKey
  if key = "__all__" then
    { registry := [], lastKey := none,
      disk := p.registry.foldl (fun disk entry =>
        site.disk.removeDirAll (site.locate entry.2) disk) p.disk }
  else
    { registry := erase key p.registry,
      lastKey := if p.lastKey = some key then none else p.lastKey,
      disk := match p.registry.lookup key with
        | some dir => site.disk.removeDirAll (site.locate dir) p.disk
        | none => p.disk }

/-! ## Containment -/

theorem isSafe_of_mem_toDigits (n : Nat) : ∀ c ∈ Nat.toDigits 16 n, isSafe c = true := by
  induction n using Nat.strongRecOn with
  | ind n ih =>
    intro c hc
    rw [Nat.toDigits_eq_if (by decide)] at hc
    have hdigit : ∀ d < 16, isSafe (Nat.digitChar d) = true := by decide
    by_cases hlt : n < 16
    · rw [if_pos hlt, List.mem_singleton] at hc
      rw [hc]
      exact hdigit n hlt
    · rw [if_neg hlt, List.mem_append, List.mem_singleton] at hc
      rcases hc with hc | rfl
      · exact ih (n / 16) (by omega) c hc
      · exact hdigit (n % 16) (Nat.mod_lt _ (by decide))

/-- A name is made of safe characters, whatever the key. -/
theorem isSafe_of_mem_normalizeTaskKey (digests : Digests) (taskKey : String) :
    ∀ c ∈ (normalizeTaskKey digests taskKey).toList, isSafe c = true := by
  intro c hc
  simp only [normalizeTaskKey] at hc
  split at hc
  · have hall : "anonymous".toList.all isSafe = true := by decide
    exact List.all_eq_true.mp hall c hc
  · split at hc
    · rw [overflowName, String.toList_append, List.mem_append] at hc
      rcases hc with hc | hc
      · have hall : "t-".toList.all isSafe = true := by decide
        exact List.all_eq_true.mp hall c hc
      · rw [String.toList_ofList] at hc
        exact isSafe_of_mem_toDigits _ c hc
    · rw [String.toList_ofList, List.mem_map] at hc
      obtain ⟨d, -, rfl⟩ := hc
      by_cases hsafe : isSafe d = true
      · rw [if_pos hsafe]
        exact hsafe
      · rw [if_neg hsafe]
        decide

theorem slash_not_mem_normalizeTaskKey (digests : Digests) (taskKey : String) :
    '/' ∉ (normalizeTaskKey digests taskKey).toList := by
  intro h
  exact absurd (isSafe_of_mem_normalizeTaskKey digests taskKey _ h) (by decide)

/-- Only dots become dots. -/
theorem map_safe_eq_dots {ds : List Char} (hds : ∀ d ∈ ds, d = '.') : ∀ {cs : List Char},
    cs.map (fun c => if isSafe c then c else '_') = ds ↔ cs = ds := by
  induction ds with
  | nil => simp
  | cons d ds ih =>
    intro cs
    have hd : d = '.' := hds d List.mem_cons_self
    have ih' := @ih fun e he => hds e (List.mem_cons_of_mem _ he)
    cases cs with
    | nil => simp
    | cons c cs =>
      rw [List.map_cons, List.cons.injEq, List.cons.injEq, ih', hd]
      refine and_congr_left fun _ => ?_
      by_cases hsafe : isSafe c = true
      · rw [if_pos hsafe]
      · rw [if_neg hsafe]
        constructor
        · intro h
          exact absurd h (by decide)
        · rintro rfl
          exact absurd (show isSafe '.' = true by decide) hsafe

/-- A name of dots, `.` or `..`, comes from itself. -/
theorem normalizeTaskKey_eq_dots (digests : Digests) (taskKey dots : String)
    (hne : dots ≠ "") (hshort : dots.utf8ByteSize ≤ 96)
    (hall : (dots.toList.all fun c => c == '.') = true) :
    normalizeTaskKey digests taskKey = dots ↔ trim taskKey = dots := by
  have hdots : ∀ c ∈ dots.toList, c = '.' := by simpa using hall
  have hfirst : ∀ name : String, name.toList.head? = some 'a' ∨ name.toList.head? = some 't' →
      name ≠ dots := by
    rintro name hhead rfl
    cases hchars : name.toList with
    | nil => exact hne (String.toList_injective hchars)
    | cons c cs =>
      rw [hchars] at hhead hdots
      have hc : c = '.' := hdots c List.mem_cons_self
      rw [hc] at hhead
      revert hhead
      simp
  have hmap :
      String.ofList ((trim taskKey).toList.map fun c => if isSafe c then c else '_') = dots ↔
        trim taskKey = dots := by
    rw [← String.toList_inj, String.toList_ofList, map_safe_eq_dots hdots, String.toList_inj]
  simp only [normalizeTaskKey]
  by_cases hempty : trim taskKey = ""
  · rw [if_pos hempty, hempty]
    exact ⟨fun h => absurd h (hfirst _ (Or.inl rfl)), fun h => absurd h.symm hne⟩
  · rw [if_neg hempty]
    by_cases hlong : 96 <
        (String.ofList ((trim taskKey).toList.map fun c => if isSafe c then c else '_')).utf8ByteSize
    · rw [if_pos hlong]
      constructor
      · intro h
        refine absurd h (hfirst _ (Or.inr ?_))
        rw [overflowName, String.toList_append]
        rfl
      · intro h
        rw [hmap.mpr h] at hlong
        omega
    · rw [if_neg hlong]
      exact hmap

theorem ordinary_normalizeTaskKey_iff (digests : Digests) (taskKey : String) :
    Ordinary (normalizeTaskKey digests taskKey) ↔ trim taskKey ≠ "." ∧ trim taskKey ≠ ".." := by
  unfold Ordinary
  rw [ne_eq, ne_eq,
    normalizeTaskKey_eq_dots digests taskKey "." (by decide) (by decide) (by decide),
    normalizeTaskKey_eq_dots digests taskKey ".." (by decide) (by decide) (by decide)]

theorem normalizeTaskKey_ne_empty (digests : Digests) (taskKey : String) :
    normalizeTaskKey digests taskKey ≠ "" := by
  simp only [normalizeTaskKey]
  split
  · decide
  · rename_i hne
    split
    · intro h
      have := congrArg String.toList h
      rw [overflowName, String.toList_append] at this
      simp at this
    · intro h
      have := congrArg String.toList h
      rw [String.toList_ofList] at this
      exact hne (String.toList_injective (List.map_eq_nil_iff.mp this))

/-- The directory of a task is its name below the root. -/
theorem home_eq (site : Site σ β) (taskKey : String) :
    site.home taskKey = descend (site.locate site.root) (site.key taskKey) := by
  unfold Site.home Site.locate Site.key
  exact resolve_join_name (normalizeTaskKey_ne_empty site.digests taskKey)
    (slash_not_mem_normalizeTaskKey site.digests taskKey) site.cwd site.root

/-- **A profile is a child of the root exactly when its task key is not `.` or `..`.** -/
theorem home_directChild_iff (site : Site σ β) (taskKey : String) :
    DirectChild (site.locate site.root) (site.home taskKey) ↔
      trim taskKey ≠ "." ∧ trim taskKey ≠ ".." := by
  rw [home_eq, directChild_descend_iff]
  exact ordinary_normalizeTaskKey_iff site.digests taskKey

/-- The task `..` is given the parent of the profile root. -/
theorem home_of_dots :
    ¬ ∀ (site : Site (List Location) Bool) (taskKey : String),
      DirectChild (site.locate site.root) (site.home taskKey) := by
  intro hclaim
  have hchild := hclaim ⟨listDisk, [], "/tmp/basecrawl-sticky-profiles", zeroDigests⟩ ".."
  rw [home_eq, directChild_descend_iff] at hchild
  exact absurd hchild (by decide)

/-! ## What a call does -/

theorem lookup_erase_of_ne {k key : String} (h : k ≠ key) (registry : List (String × String)) :
    (erase key registry).lookup k = registry.lookup k := by
  induction registry with
  | nil => rfl
  | cons entry registry ih =>
    unfold erase at ih ⊢
    by_cases hkey : entry.1 = key
    · rw [List.filter_cons_of_neg (by simp [hkey]), ih, List.lookup_cons,
        beq_false_of_ne (by rw [hkey]; exact h)]
    · rw [List.filter_cons_of_pos (by simp [hkey]), List.lookup_cons, List.lookup_cons, ih]

theorem mem_of_lookup {k dir : String} : ∀ {registry : List (String × String)},
    registry.lookup k = some dir → (k, dir) ∈ registry
  | [], h => by cases h
  | (k', dir') :: registry, h => by
      rw [List.lookup_cons] at h
      by_cases hk : k = k'
      · subst hk
        rw [beq_self_eq_true] at h
        cases h
        exact List.mem_cons_self
      · rw [beq_false_of_ne hk] at h
        exact List.mem_cons_of_mem _ (mem_of_lookup h)

/-- Every registered directory is the one its key names below the root. -/
def Registered (site : Site σ β) (p : Profiles σ) : Prop :=
  ∀ entry ∈ p.registry, entry.2 = join site.root entry.1

theorem Registered.erase {site : Site σ β} {p : Profiles σ} (h : Registered site p) (key : String) :
    ∀ entry ∈ erase key p.registry, entry.2 = join site.root entry.1 :=
  fun entry hentry => h entry (List.mem_filter.mp hentry).1

theorem Registered.dir_eq {site : Site σ β} {p : Profiles σ} (h : Registered site p)
    {key dir : String} (hlookup : p.registry.lookup key = some dir) : dir = join site.root key :=
  h (key, dir) (mem_of_lookup hlookup)

/-- What an acquisition of `key` does: it returns the directory the key names, which is registered
    and exists, and leaves the other keys and every other directory alone. -/
structure Acquires (site : Site σ β) (key : String) (p : Profiles σ)
    (result : Except StealthPolicyError String × Profiles σ) : Prop where
  dir_eq : ∀ dir, result.1 = .ok dir → dir = join site.root key
  lookup_eq : ∀ dir, result.1 = .ok dir → result.2.registry.lookup key = some dir
  exists_dir : site.disk.Lawful → ∀ dir, result.1 = .ok dir →
    site.disk.holdsDir (site.locate dir) result.2.disk = true
  registered : Registered site result.2
  others : ∀ k, k ≠ key → result.2.registry.lookup k = p.registry.lookup k
  keeps : site.disk.Lawful → ∀ loc, site.disk.holdsDir loc p.disk = true →
    site.disk.holdsDir loc result.2.disk = true

variable {site : Site σ β} {key : String} {p : Profiles σ}

theorem acquires_error {error : StealthPolicyError} {disk : σ} (h : Registered site p)
    (hkeeps : site.disk.Lawful → ∀ loc, site.disk.holdsDir loc p.disk = true →
      site.disk.holdsDir loc disk = true) :
    Acquires site key p (.error error, { p with disk := disk }) where
  dir_eq := by
    intro dir h
    cases h
  lookup_eq := by
    intro dir h
    cases h
  exists_dir := by
    intro _ dir h
    cases h
  registered := h
  others := fun _ _ => rfl
  keeps := hkeeps

theorem acquires_register {disk : σ} (h : Registered site p)
    (hdir : site.disk.Lawful →
      site.disk.holdsDir (site.locate (join site.root key)) disk = true)
    (hkeeps : site.disk.Lawful → ∀ loc, site.disk.holdsDir loc p.disk = true →
      site.disk.holdsDir loc disk = true) :
    Acquires site key p (.ok (join site.root key),
      { p with disk := disk }.register key (join site.root key)) where
  dir_eq := by
    intro dir h
    cases h
    rfl
  lookup_eq := by
    intro dir h
    cases h
    exact List.lookup_cons_self
  exists_dir := by
    intro hlawful dir h
    cases h
    exact hdir hlawful
  registered := by
    intro entry hentry
    rcases List.mem_cons.mp hentry with rfl | hentry
    · rfl
    · exact h.erase key entry hentry
  others := by
    intro k hk
    show ((key, join site.root key) :: erase key p.registry).lookup k = _
    rw [List.lookup_cons, beq_false_of_ne hk]
    exact lookup_erase_of_ne hk p.registry
  keeps := hkeeps

theorem attach_acquires (key : String) (h : Registered site p) :
    Acquires site key p (attach site key p) := by
  have hroot : ∀ {result disk}, site.disk.createDirAll (site.locate site.root) p.disk =
      (result, disk) → site.disk.Lawful → ∀ loc, site.disk.holdsDir loc p.disk = true →
      site.disk.holdsDir loc disk = true := by
    intro result disk hcreate hlawful loc hloc
    have hkept := hlawful.create_keeps (site.locate site.root) hloc
    rw [hcreate] at hkept
    exact hkept
  unfold attach
  split
  · rename_i error disk hcreate
    exact acquires_error h (hroot hcreate)
  · rename_i disk hcreate
    by_cases hdir : site.disk.holdsDir (site.locate (join site.root key)) disk = true
    · simp only [if_pos hdir]
      exact acquires_register h (fun _ => hdir) (hroot hcreate)
    · simp only [if_neg hdir]
      split
      · rename_i error disk' hcreate'
        refine acquires_error h fun hlawful loc hloc => ?_
        have hkept := hlawful.create_keeps (site.locate (join site.root key))
          (hroot hcreate hlawful loc hloc)
        rw [hcreate'] at hkept
        exact hkept
      · rename_i disk' hcreate'
        refine acquires_register h (fun hlawful => ?_) fun hlawful loc hloc => ?_
        · have hok := hlawful.create_ok (site.locate (join site.root key)) disk
          rw [hcreate'] at hok
          exact hok rfl
        · have hkept := hlawful.create_keeps (site.locate (join site.root key))
            (hroot hcreate hlawful loc hloc)
          rw [hcreate'] at hkept
          exact hkept

/-- **`acquire_sticky_profile`.** -/
theorem acquireStickyProfile_acquires (taskKey : String) (h : Registered site p) :
    Acquires site (site.key taskKey) p (acquireStickyProfile site taskKey p) := by
  simp only [acquireStickyProfile]
  cases hlookup : p.registry.lookup (site.key taskKey) with
  | none => exact attach_acquires _ h
  | some existing =>
    dsimp only
    have hexisting : existing = join site.root (site.key taskKey) := h.dir_eq hlookup
    by_cases hdir : site.disk.holdsDir (site.locate existing) p.disk = true
    · simp only [if_pos hdir]
      refine ⟨?_, ?_, ?_, h, fun _ _ => rfl, fun _ _ hloc => hloc⟩
      · intro dir hok
        cases hok
        exact hexisting
      · intro dir hok
        cases hok
        exact hlookup
      · intro _ dir hok
        cases hok
        exact hdir
    · simp only [if_neg hdir]
      have hfresh := attach_acquires (site.key taskKey)
        (p := { p with registry := erase (site.key taskKey) p.registry })
        (h.erase (site.key taskKey))
      refine ⟨hfresh.dir_eq, hfresh.lookup_eq, hfresh.exists_dir, hfresh.registered, ?_,
        hfresh.keeps⟩
      intro k hk
      rw [hfresh.others k hk]
      exact lookup_erase_of_ne hk p.registry

theorem wipeStickyProfile_registered (taskKey : String) (h : Registered site p) :
    Registered site (wipeStickyProfile site taskKey p) := by
  unfold wipeStickyProfile
  by_cases hall : site.key taskKey = "__all__"
  · simp only [if_pos hall]
    intro entry hentry
    cases hentry
  · simp only [if_neg hall]
    exact h.erase _

/-- **`wipe_sticky_profile`**, of a key that is not the reserved one: the other keys and everything
    outside the directory of the key are left alone. -/
theorem wipeStickyProfile_spec {taskKey : String} (hall : site.key taskKey ≠ "__all__")
    (h : Registered site p) :
    (∀ k, k ≠ site.key taskKey →
      (wipeStickyProfile site taskKey p).registry.lookup k = p.registry.lookup k) ∧
    (site.disk.Lawful → ∀ loc, ¬ site.home taskKey <+: loc →
      site.disk.read (wipeStickyProfile site taskKey p).disk loc = site.disk.read p.disk loc) := by
  unfold wipeStickyProfile
  simp only [if_neg hall]
  refine ⟨fun k hk => lookup_erase_of_ne hk p.registry, fun hlawful loc hloc => ?_⟩
  cases hlookup : p.registry.lookup (site.key taskKey) with
  | none => rfl
  | some dir =>
    have hdir : dir = join site.root (site.key taskKey) := h.dir_eq hlookup
    refine hlawful.remove_keeps ?_
    rw [hdir]
    exact hloc

/-! ## Histories of calls -/

inductive Call where
  | acquire (taskKey : String)
  | wipe (taskKey : String)

def Call.taskKey : Call → String
  | .acquire taskKey => taskKey
  | .wipe taskKey => taskKey

/-- One call; an acquisition returns a directory. -/
def step (site : Site σ β) (call : Call) (p : Profiles σ) :
    Except StealthPolicyError (Option String) × Profiles σ :=
  match call with
  | .acquire taskKey =>
      ((acquireStickyProfile site taskKey p).1.map some, (acquireStickyProfile site taskKey p).2)
  | .wipe taskKey => (.ok none, wipeStickyProfile site taskKey p)

/-- A process that has not acquired anything yet. -/
def started (disk : σ) : Profiles σ := ⟨[], none, disk⟩

/-- Distinct tasks never share a directory. -/
def NeverShared (site : Site σ β) (events : List (History.Event (Profiles σ) Call
    (Except StealthPolicyError (Option String)))) : Prop :=
  ∀ e ∈ events, ∀ e' ∈ events, ∀ a b dir dir', e.call = .acquire a → e'.call = .acquire b →
    e.outcome = .ok (some dir) → e'.outcome = .ok (some dir') → trim a ≠ trim b →
    site.locate dir ≠ site.locate dir'

/-- Wiping one task leaves the registry entry of every other one alone, and everything in its
    directory. -/
def WipesAlone (site : Site σ β) (tasks : List String)
    (events : List (History.Event (Profiles σ) Call
      (Except StealthPolicyError (Option String)))) : Prop :=
  ∀ e ∈ events, ∀ a, e.call = .wipe a → ∀ b ∈ tasks, trim a ≠ trim b →
    e.after.registry.lookup (site.key b) = e.before.registry.lookup (site.key b) ∧
    ∀ rest, site.disk.read e.after.disk (site.home b ++ rest) =
      site.disk.read e.before.disk (site.home b ++ rest)

/-- A name that stands for one directory below the root. -/
def Plain (name : String) : Prop := Ordinary name ∧ name ≠ "__all__"

instance (name : String) : Decidable (Plain name) := inferInstanceAs (Decidable (_ ∧ _))

/-- Two task keys are kept apart: by their names, neither of which means more than itself. -/
def Apart (digests : Digests) (a b : String) : Prop :=
  normalizeTaskKey digests a ≠ normalizeTaskKey digests b ∧
    Plain (normalizeTaskKey digests a) ∧ Plain (normalizeTaskKey digests b)

instance (digests : Digests) (a b : String) : Decidable (Apart digests a b) :=
  inferInstanceAs (Decidable (_ ∧ _ ∧ _))

theorem home_of_plain {taskKey : String} (h : Plain (site.key taskKey)) :
    site.home taskKey = site.locate site.root ++ [site.key taskKey] := by
  rw [home_eq, descend, if_neg h.1.1, if_neg h.1.2]

theorem not_prefix_home {a b : String} (h : Apart site.digests a b) (rest : Location) :
    ¬ site.home a <+: site.home b ++ rest := by
  rw [home_of_plain h.2.1, home_of_plain h.2.2]
  exact not_prefix_of_siblings h.1 rest

theorem home_ne_of_apart {a b : String} (h : Apart site.digests a b) :
    site.home a ≠ site.home b := by
  intro heq
  refine not_prefix_home h [] ?_
  rw [heq, List.append_nil]

theorem step_registered (call : Call) (h : Registered site p) :
    Registered site (step site call p).2 := by
  cases call with
  | acquire taskKey =>
    simp only [step]
    exact (acquireStickyProfile_acquires taskKey h).registered
  | wipe taskKey =>
    simp only [step]
    exact wipeStickyProfile_registered taskKey h

/-- In every history the registry holds nothing but `key ↦ root/key`. -/
theorem registered_of_mem_trace : ∀ (calls : List Call) {p : Profiles σ}, Registered site p →
    ∀ e ∈ trace (step site) calls p, Registered site e.before
  | [], _, _, e, he => absurd he List.not_mem_nil
  | call :: calls, p, h, e, he => by
      rcases List.mem_cons.mp he with rfl | he
      · exact h
      · exact registered_of_mem_trace calls (step_registered call h) e he

theorem registered_started (site : Site σ β) (disk : σ) : Registered site (started disk) :=
  fun _ hentry => absurd hentry List.not_mem_nil

theorem call_of_mem_trace : ∀ {calls : List Call} {p : Profiles σ},
    ∀ e ∈ trace (step site) calls p, e.call ∈ calls
  | [], _, e, he => absurd he List.not_mem_nil
  | call :: calls, p, e, he => by
      rcases List.mem_cons.mp he with rfl | he
      · exact List.mem_cons_self
      · exact List.mem_cons_of_mem _ (call_of_mem_trace e he)

/-- An acquisition of any history returns the home of its task. -/
theorem locate_of_acquired
    {e : History.Event (Profiles σ) Call (Except StealthPolicyError (Option String))}
    (hstep : step site e.call e.before = (e.outcome, e.after)) (h : Registered site e.before)
    {taskKey dir : String} (hcall : e.call = .acquire taskKey) (hok : e.outcome = .ok (some dir)) :
    site.locate dir = site.home taskKey := by
  rw [hcall, step, Prod.mk.injEq, hok] at hstep
  have hacquires := acquireStickyProfile_acquires taskKey h
  cases hresult : (acquireStickyProfile site taskKey e.before).1 with
  | error error =>
    rw [hresult] at hstep
    cases hstep.1
  | ok dir' =>
    rw [hresult] at hstep
    cases hstep.1
    rw [hacquires.dir_eq dir hresult]
    rfl

/-- **Isolation.**  Over task keys that are pairwise apart, in every history of calls, distinct
    tasks never share a directory and wiping one leaves the others alone. -/
theorem sticky_isolation (site : Site σ β) (hlawful : site.disk.Lawful) (tasks : List String)
    (hapart : ∀ a ∈ tasks, ∀ b ∈ tasks, trim a ≠ trim b → Apart site.digests a b)
    (calls : List Call) (hcalls : ∀ call ∈ calls, call.taskKey ∈ tasks) (disk : σ) :
    NeverShared site (trace (step site) calls (started disk)) ∧
    WipesAlone site tasks (trace (step site) calls (started disk)) := by
  have hregistered := registered_of_mem_trace calls (registered_started site disk)
  constructor
  · intro e he e' he' a b dir dir' hacquire hacquire' hok hok' hne
    have ha := hcalls e.call (call_of_mem_trace e he)
    have hb := hcalls e'.call (call_of_mem_trace e' he')
    rw [hacquire] at ha
    rw [hacquire'] at hb
    rw [locate_of_acquired (of_mem_trace he) (hregistered e he) hacquire hok,
      locate_of_acquired (of_mem_trace he') (hregistered e' he') hacquire' hok']
    exact home_ne_of_apart (hapart a ha b hb hne)
  · intro e he a hwipe b hb hne
    have ha := hcalls e.call (call_of_mem_trace e he)
    rw [hwipe] at ha
    have hsep := hapart a ha b hb hne
    have hafter : e.after = wipeStickyProfile site a e.before := by
      have hstep := of_mem_trace he
      rw [hwipe, step, Prod.mk.injEq] at hstep
      exact hstep.2.symm
    obtain ⟨hothers, hkeeps⟩ := wipeStickyProfile_spec hsep.2.1.2 (hregistered e he)
    rw [hafter]
    exact ⟨hothers _ hsep.1.symm, fun rest => hkeeps hlawful _ (not_prefix_home hsep rest)⟩

/-- A process with an empty disk. -/
def freshSite (root : String) : Site (List Location) Bool where
  disk := listDisk
  cwd := []
  root := root
  digests := zeroDigests

/-- Two tasks, one of them wiped. -/
theorem sticky_isolation_two_tasks :
    NeverShared (freshSite "/tmp/profiles") (trace (step (freshSite "/tmp/profiles"))
      [.acquire "task-A", .acquire "task-B", .wipe "task-B"] (started [])) ∧
    WipesAlone (freshSite "/tmp/profiles") ["task-A", "task-B"]
      (trace (step (freshSite "/tmp/profiles"))
        [.acquire "task-A", .acquire "task-B", .wipe "task-B"] (started [])) :=
  sticky_isolation (freshSite "/tmp/profiles") listDisk_lawful ["task-A", "task-B"] (by decide)
    [.acquire "task-A", .acquire "task-B", .wipe "task-B"] (by decide) []

/-- The tasks `a/b` and `a_b` share a directory. -/
theorem slash_shares_directory :
    ¬ ∀ (site : Site (List Location) Bool), site.disk.Lawful → ∀ (tasks : List String)
      (calls : List Call), (∀ call ∈ calls, call.taskKey ∈ tasks) → ∀ disk : List Location,
      NeverShared site (trace (step site) calls (started disk)) ∧
        WipesAlone site tasks (trace (step site) calls (started disk)) := by
  intro hclaim
  have hshared := (hclaim (freshSite "/p") listDisk_lawful ["a/b", "a_b"]
    [.acquire "a/b", .acquire "a_b"] (by decide) []).1
  rw [trace_two] at hshared
  exact hshared _ List.mem_cons_self _ (List.mem_cons_of_mem _ List.mem_cons_self) "a/b" "a_b"
    "/p/a_b" "/p/a_b" rfl rfl rfl rfl (by decide) rfl

end Basecrawl.Core.Sticky
