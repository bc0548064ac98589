/-
  Paths, the locations they denote, and the disk below them.

  1. **Paths** — a path is a string; the location it denotes is what is left of its components once
     `.` and `..` are resolved, from the root or from the working directory (`resolve_join`).
  2. **Names** — a name that is neither `.` nor `..` and holds no separator denotes a direct child
     of the directory it is joined to (`resolve_join_name`).
  3. **Disks** — a disk is a parameter; `Disk.Lawful` says what the removal and the creation of a
     directory leave alone.
-/
import Basecrawl.Lib.Text

namespace Basecrawl.Paths

open Text

/-- The components of a location, from the root of the file system. -/
abbrev Location := List String

/-! ## Paths -/

/-- `Path::is_absolute`. -/
def isAbsolute (path : String) : Bool := path.toList.head? == some '/'

def components (path : String) : List String := (split path '/').filter (· != "")

/-- `Path::join`. -/
def join (base path : String) : String :=
  if isAbsolute path then path
  else if base = "" ∨ base.toList.getLast? = some '/' then base ++ path
  else base ++ "/" ++ path

/-- One component further. -/
def descend (loc : Location) (component : String) : Location :=
  if component = "." then loc
  else if component = ".." then loc.dropLast
  else loc ++ [component]

/-- What a path denotes, seen from a working directory. -/
def resolve (cwd : Location) (path : String) : Location :=
  (components path).foldl descend (if isAbsolute path then [] else cwd)

theorem components_append_sep (a b : String) :
    components (a ++ "/" ++ b) = components a ++ components b := by
  have hlist : (a ++ "/" ++ b).toList = a.toList ++ '/' :: b.toList := by simp
  unfold components split
  rw [hlist, List.splitOn_append_cons_self, List.map_append, List.filter_append]

theorem components_empty : components "" = [] := rfl

/-- A separator at the end of a path adds nothing to it. -/
theorem components_append {a : String} (h : a = "" ∨ a.toList.getLast? = some '/') (b : String) :
    components (a ++ b) = components a ++ components b := by
  rcases h with rfl | hlast
  · rw [String.empty_append, components_empty, List.nil_append]
  · obtain ⟨init, hinit⟩ := List.getLast?_eq_some_iff.mp hlast
    have ha : a = String.ofList init ++ "/" := by
      apply String.toList_injective
      rw [hinit]
      simp
    have hsep := components_append_sep (String.ofList init) ""
    rw [String.append_empty, components_empty, List.append_nil] at hsep
    rw [ha, components_append_sep, hsep]

theorem isAbsolute_append {a : String} (h : a ≠ "") (b : String) :
    isAbsolute (a ++ b) = isAbsolute a := by
  unfold isAbsolute
  rw [String.toList_append, List.head?_append_of_ne_nil]
  intro hnil
  exact h (String.toList_injective hnil)

/-- **A relative path goes on where the base stands.** -/
theorem resolve_join {path : String} (h : isAbsolute path = false) (cwd : Location)
    (base : String) :
    resolve cwd (join base path) = (components path).foldl descend (resolve cwd base) := by
  unfold join
  rw [if_neg (by rw [h]; exact Bool.false_ne_true)]
  by_cases hbase : base = ""
  · subst hbase
    rw [if_pos (Or.inl rfl), String.empty_append]
    unfold resolve
    rw [h]
    rfl
  · have habs : ∀ rest, isAbsolute (base ++ rest) = isAbsolute base := isAbsolute_append hbase
    by_cases hlast : base.toList.getLast? = some '/'
    · rw [if_pos (Or.inr hlast)]
      unfold resolve
      rw [habs, components_append (Or.inr hlast), List.foldl_append]
    · rw [if_neg (by tauto)]
      unfold resolve
      rw [String.append_assoc, habs, ← String.append_assoc, components_append_sep,
        List.foldl_append]

/-! ## Names -/

/-- A name that stands for a file or directory of its own. -/
def Ordinary (name : String) : Prop := name ≠ "." ∧ name ≠ ".."

instance (name : String) : Decidable (Ordinary name) :=
  inferInstanceAs (Decidable (_ ∧ _))

theorem isAbsolute_of_name {name : String} (h : '/' ∉ name.toList) : isAbsolute name = false := by
  unfold isAbsolute
  cases hchars : name.toList with
  | nil => rfl
  | cons c cs =>
    rw [hchars] at h
    have hc : c ≠ '/' := fun hc => h (hc ▸ List.mem_cons_self)
    simp [hc]

theorem components_of_name {name : String} (hne : name ≠ "") (h : '/' ∉ name.toList) :
    components name = [name] := by
  unfold components
  rw [split_eq_singleton h]
  simp [hne]

theorem resolve_join_name {name : String} (hne : name ≠ "") (h : '/' ∉ name.toList)
    (cwd : Location) (base : String) :
    resolve cwd (join base name) = descend (resolve cwd base) name := by
  rw [resolve_join (isAbsolute_of_name h), components_of_name hne h]
  rfl

/-- `loc` is one name below `root`. -/
def DirectChild (root loc : Location) : Prop := ∃ name, loc = root ++ [name]

/-- Only an ordinary name leads to a child. -/
theorem directChild_descend_iff {root : Location} {name : String} :
    DirectChild root (descend root name) ↔ Ordinary name := by
  unfold DirectChild descend Ordinary
  by_cases hdot : name = "."
  · simp [hdot]
  · by_cases hdots : name = ".."
    · rw [if_neg hdot, if_pos hdots]
      simp only [hdots, ne_eq, not_true_eq_false, and_false, iff_false, not_exists]
      intro child heq
      have hlen := congrArg List.length heq
      rw [List.length_dropLast, List.length_append] at hlen
      simp at hlen
    · rw [if_neg hdot, if_neg hdots]
      simp [hdot, hdots]

/-- Two ordinary names lead to places apart. -/
theorem not_prefix_of_siblings {root : Location} {a b : String} (h : a ≠ b) (rest : Location) :
    ¬ root ++ [a] <+: root ++ [b] ++ rest := by
  rintro ⟨more, heq⟩
  rw [List.append_assoc, List.append_assoc, List.append_cancel_left_eq] at heq
  simp only [List.cons_append, List.nil_append, List.cons.injEq] at heq
  exact h heq.1

/-- An ordinary name leads to no place above where another name leads. -/
theorem not_prefix_descend {root : Location} {a b : String} (ha : Ordinary a) (h : a ≠ b) :
    ¬ descend root a <+: descend root b := by
  unfold descend
  rw [if_neg ha.1, if_neg ha.2]
  split_ifs
  · intro hprefix
    have hlen := hprefix.length_le
    simp only [List.length_append, List.length_cons, List.length_nil] at hlen
    omega
  · intro hprefix
    have hlen := hprefix.length_le
    simp only [List.length_append, List.length_cons, List.length_nil,
      List.length_dropLast] at hlen
    omega
  · have hsiblings : ¬ root ++ [a] <+: root ++ [b] ++ [] := not_prefix_of_siblings h []
    rw [List.append_nil] at hsiblings
    exact hsiblings

/-! ## Disks -/

/-- A disk in states `σ`, with what stands at a location (`β`). -/
structure Disk (σ β : Type) where
  read : σ → Location → β
  isDir : β → Bool
  /-- `fs::create_dir_all`. -/
  createDirAll : Location → σ → Except String Unit × σ
  /-- `fs::remove_dir_all`, its result ignored. -/
  removeDirAll : Location → σ → σ

/-- A path is a directory. -/
def Disk.holdsDir {σ β : Type} (disk : Disk σ β) (loc : Location) (s : σ) : Bool :=
  disk.isDir (disk.read s loc)

/-- What the documentation of the two calls promises. -/
structure Disk.Lawful {σ β : Type} (disk : Disk σ β) : Prop where
  create_ok : ∀ loc s, (disk.createDirAll loc s).1 = .ok () →
    disk.holdsDir loc (disk.createDirAll loc s).2 = true
  create_keeps : ∀ loc {other s}, disk.holdsDir other s = true →
    disk.holdsDir other (disk.createDirAll loc s).2 = true
  remove_keeps : ∀ {loc other s}, ¬ loc <+: other →
    disk.read (disk.removeDirAll loc s) other = disk.read s other

/-- The directories that exist, and nothing else. -/
def listDisk : Disk (List Location) Bool where
  read dirs loc := dirs.contains loc
  isDir found := found
  createDirAll loc dirs := (.ok (), dirs ++ loc.inits)
  removeDirAll loc dirs := dirs.filter fun other => !decide (loc <+: other)

theorem listDisk_lawful : listDisk.Lawful where
  create_ok := by
    intro loc s _
    simp [Disk.holdsDir, listDisk, List.mem_inits]
  create_keeps := by
    intro loc other s h
    simp only [Disk.holdsDir, listDisk, List.contains_iff_mem] at h ⊢
    exact List.mem_append_left _ h
  remove_keeps := by
    intro loc other s h
    simp [listDisk, h]

end Basecrawl.Paths
