/-
  Values and the JSON trees they are written as, as derived `Serialize` and `Deserialize` do it.

  1. **Codecs** — a writer, a reader, and which values are read back: `decode_encode` says what the
     reader makes of what was written, read back or refused.
  2. **Tables** — a `BTreeMap` is a list of entries in key order; entries read one after the other
     are collected, the last of two with one key stays (`collect_entries`).
  3. **Records** — a record is written member by member, some left out; the crux is that a member is
     found by its name however many are left out (`Record.read_write`).
-/
import Mathlib.Data.String.Basic
import Basecrawl.Lib.Json

namespace Basecrawl.Codecs

open Json

/-! ## Codecs -/

/-- How values are written as trees and read off trees. -/
structure Codec (α : Type) where
  encode : α → Tree
  decode : Tree → Option α
  /-- The values that are read back; the others are written as something no value is read off. -/
  valid : α → Bool
  decode_encode : ∀ a, decode (encode a) = if valid a then some a else none

variable {α β γ : Type}

theorem Codec.decode_encode_iff (c : Codec α) {a : α} :
    c.decode (c.encode a) = some a ↔ c.valid a = true := by
  rw [c.decode_encode]
  cases c.valid a with
  | true => exact iff_of_true rfl rfl
  | false =>
    constructor
    · intro h
      cases h
    · intro h
      cases h

/-- Values that are read back are told apart. -/
theorem Codec.encode_injOn (c : Codec α) {a b : α} (ha : c.valid a = true) (hb : c.valid b = true)
    (h : c.encode a = c.encode b) : a = b := by
  have hread := c.decode_encode_iff.mpr ha
  rw [h, c.decode_encode_iff.mpr hb] at hread
  exact (Option.some.inj hread).symm

def string : Codec String where
  encode := .string
  decode
    | .string s => some s
    | _ => none
  valid _ := true
  decode_encode _ := rfl

def bool : Codec Bool where
  encode := .bool
  decode
    | .bool b => some b
    | _ => none
  valid _ := true
  decode_encode _ := rfl

def u64 : Codec UInt64 where
  encode n := .number (.posInt n)
  decode
    | .number (.posInt n) => some n
    | _ => none
  valid _ := true
  decode_encode _ := rfl

def u32 : Codec UInt32 where
  encode n := .number (.posInt n.toUInt64)
  decode
    | .number (.posInt n) => if n.toNat < 2 ^ 32 then some n.toUInt32 else none
    | _ => none
  valid _ := true
  decode_encode n := by
    have hn : n.toUInt64.toNat < 2 ^ 32 := by
      rw [UInt32.toNat_toUInt64]
      exact n.toNat_lt
    show (if n.toUInt64.toNat < 2 ^ 32 then some n.toUInt64.toUInt32 else none) = some n
    rw [if_pos hn, UInt32.toUInt32_toUInt64]

def u16 : Codec UInt16 where
  encode n := .number (.posInt n.toUInt64)
  decode
    | .number (.posInt n) => if n.toNat < 2 ^ 16 then some n.toUInt16 else none
    | _ => none
  valid _ := true
  decode_encode n := by
    have hn : n.toUInt64.toNat < 2 ^ 16 := by
      rw [UInt16.toNat_toUInt64]
      exact n.toNat_lt
    show (if n.toUInt64.toNat < 2 ^ 16 then some n.toUInt64.toUInt16 else none) = some n
    rw [if_pos hn, UInt16.toUInt16_toUInt64]

/-- How integers become floats. -/
structure FloatOps where
  ofU64 : UInt64 → UInt64
  ofI64 : Int64 → UInt64

/-- `f64::is_finite`, on the bits. -/
def isFinite (bits : UInt64) : Bool := (Number.float bits).wellFormed

/-- `f64`, by its bits: what is not finite is written as `null`, and read back as nothing. -/
def f64 (ops : FloatOps) : Codec UInt64 where
  encode bits := if isFinite bits then .number (.float bits) else .null
  decode
    | .number (.float bits) => some bits
    | .number (.posInt n) => some (ops.ofU64 n)
    | .number (.negInt n) => some (ops.ofI64 n)
    | _ => none
  valid := isFinite
  decode_encode bits := by
    cases isFinite bits with
    | true => rfl
    | false => rfl

/-- A unit enum, by the names of its variants; the name may also be the key of a `null`. -/
def enum (name : α → String) (variants : List α)
    (found : ∀ a, variants.find? (fun b => name b == name a) = some a) : Codec α where
  encode a := .string (name a)
  decode
    | .string s => variants.find? fun b => name b == s
    | .object [(s, .null)] => variants.find? fun b => name b == s
    | _ => none
  valid _ := true
  decode_encode a := found a

/-- `Option<T>`, for values that are not written as `null`. -/
def optional (c : Codec α) (hnull : ∀ a, c.encode a ≠ .null) : Codec (Option α) where
  encode
    | none => .null
    | some a => c.encode a
  decode
    | .null => some none
    | tree => (c.decode tree).map some
  valid
    | none => true
    | some a => c.valid a
  decode_encode
    | none => rfl
    | some a => by
      have hread : (match c.encode a with
          | .null => some none
          | tree => (c.decode tree).map some) = (c.decode (c.encode a)).map some := by
        cases htree : c.encode a with
        | null => exact absurd htree (hnull a)
        | bool b => rfl
        | number n => rfl
        | string s => rfl
        | array items => rfl
        | object members => rfl
      refine hread.trans ?_
      show (c.decode (c.encode a)).map some = if c.valid a then some (some a) else none
      rw [c.decode_encode]
      cases c.valid a with
      | true => rfl
      | false => rfl

theorem mapM_decode (c : Codec α) (items : List α) :
    (items.map c.encode).mapM c.decode = if items.all c.valid then some items else none := by
  induction items with
  | nil => rfl
  | cons a items ih =>
    rw [List.map_cons, List.mapM_cons, ih, c.decode_encode, List.all_cons]
    cases c.valid a with
    | false => rfl
    | true =>
      cases items.all c.valid with
      | false => rfl
      | true => rfl

/-- `Vec<T>`. -/
def list (c : Codec α) : Codec (List α) where
  encode items := .array (items.map c.encode)
  decode
    | .array items => items.mapM c.decode
    | _ => none
  valid items := items.all c.valid
  decode_encode items := mapM_decode c items

/-! ## Tables -/

/-- `BTreeMap::insert`, on the entries in key order. -/
def insertEntry (key : String) (value : α) : List (String × α) → List (String × α)
  | [] => [(key, value)]
  | (k, v) :: entries =>
      if key < k then (key, value) :: (k, v) :: entries
      else if key = k then (key, value) :: entries
      else (k, v) :: insertEntry key value entries

/-- The entries in key order, the last of those with one key. -/
def collect (entries : List (String × α)) : List (String × α) :=
  entries.foldl (fun acc entry => insertEntry entry.1 entry.2 acc) []

/-- The keys come in order, each of them once. -/
def Ordered (entries : List (String × α)) : Prop := (entries.map Prod.fst).Pairwise (· < ·)

instance (entries : List (String × α)) : Decidable (Ordered entries) :=
  inferInstanceAs (Decidable ((entries.map Prod.fst).Pairwise (· < ·)))

theorem mem_keys_insertEntry {key k : String} {value : α} {entries : List (String × α)} :
    k ∈ (insertEntry key value entries).map Prod.fst ↔ k = key ∨ k ∈ entries.map Prod.fst := by
  induction entries with
  | nil => simp [insertEntry]
  | cons entry entries ih =>
    obtain ⟨k', v⟩ := entry
    unfold insertEntry
    split
    · simp
    · split
      · next hkey => simp [hkey]
      · rw [List.map_cons, List.map_cons, List.mem_cons, List.mem_cons, ih]
        exact or_left_comm

theorem ordered_insertEntry {key : String} {value : α} {entries : List (String × α)}
    (h : Ordered entries) : Ordered (insertEntry key value entries) := by
  induction entries with
  | nil => exact List.pairwise_singleton _ _
  | cons entry entries ih =>
    obtain ⟨k, v⟩ := entry
    obtain ⟨hfirst, hrest⟩ := List.pairwise_cons.mp h
    unfold insertEntry
    split
    · next hlt =>
      refine List.pairwise_cons.mpr ⟨?_, h⟩
      intro k' hk'
      rcases List.mem_cons.mp hk' with rfl | hk'
      · exact hlt
      · exact hlt.trans (hfirst k' hk')
    · split
      · next hkey => exact List.pairwise_cons.mpr ⟨hkey ▸ hfirst, hrest⟩
      · next hge hne =>
        refine List.pairwise_cons.mpr ⟨?_, ih hrest⟩
        intro k' hk'
        rcases mem_keys_insertEntry.mp hk' with rfl | hk'
        · exact lt_of_le_of_ne (not_lt.mp hge) (Ne.symm hne)
        · exact hfirst k' hk'

theorem ordered_collect (entries : List (String × α)) : Ordered (collect entries) := by
  have hfold : ∀ (entries acc : List (String × α)), Ordered acc →
      Ordered (entries.foldl (fun acc entry => insertEntry entry.1 entry.2 acc) acc) := by
    intro entries
    induction entries with
    | nil => exact fun acc h => h
    | cons entry entries ih => exact fun acc h => ih _ (ordered_insertEntry h)
  exact hfold entries [] List.Pairwise.nil

/-- A key behind all others goes to the end. -/
theorem insertEntry_last {key : String} {value : α} {entries : List (String × α)}
    (h : ∀ k ∈ entries.map Prod.fst, k < key) :
    insertEntry key value entries = entries ++ [(key, value)] := by
  induction entries with
  | nil => rfl
  | cons entry entries ih =>
    obtain ⟨k, v⟩ := entry
    have hk : k < key := h k List.mem_cons_self
    rw [insertEntry, if_neg (not_lt.mpr hk.le), if_neg (Ne.symm hk.ne),
      ih fun k' hk' => h k' (List.mem_cons_of_mem k hk'), List.cons_append]

/-- **Entries in order are collected as they are.** -/
theorem collect_entries {entries : List (String × α)} (h : Ordered entries) :
    collect entries = entries := by
  have hfold : ∀ (entries acc : List (String × α)), Ordered (acc ++ entries) →
      entries.foldl (fun acc entry => insertEntry entry.1 entry.2 acc) acc = acc ++ entries := by
    intro entries
    induction entries with
    | nil => exact fun acc _ => (List.append_nil acc).symm
    | cons entry entries ih =>
      intro acc hacc
      have hlast : ∀ k ∈ acc.map Prod.fst, k < entry.1 := by
        intro k hk
        rw [Ordered, List.map_append, List.map_cons] at hacc
        exact (List.pairwise_append.mp hacc).2.2 k hk entry.1 List.mem_cons_self
      have hsplit : acc ++ entry :: entries = acc ++ [(entry.1, entry.2)] ++ entries := by
        rw [List.append_assoc]
        rfl
      rw [List.foldl_cons, insertEntry_last hlast, hsplit]
      exact ih _ (hsplit ▸ hacc)
  exact hfold entries [] h

/-- `BTreeMap<String, T>`. -/
structure Entries (α : Type) where
  entries : List (String × α)
  ordered : Ordered entries

theorem Entries.ext_entries {a b : Entries α} (h : a.entries = b.entries) : a = b := by
  cases a
  cases b
  cases h
  rfl

/-- `BTreeMap::get`. -/
def Entries.get (table : Entries α) (key : String) : Option α := table.entries.lookup key

/-- Entries read one after the other, as a table. -/
def Entries.ofList (entries : List (String × α)) : Entries α :=
  ⟨collect entries, ordered_collect entries⟩

theorem Entries.ofList_entries (table : Entries α) : Entries.ofList table.entries = table :=
  Entries.ext_entries (collect_entries table.ordered)

theorem mapM_decode_entries (c : Codec α) (entries : List (String × α)) :
    (entries.map fun entry => (entry.1, c.encode entry.2)).mapM
        (fun member => (c.decode member.2).map fun value => (member.1, value)) =
      if entries.all (fun entry => c.valid entry.2) then some entries else none := by
  induction entries with
  | nil => rfl
  | cons entry entries ih =>
    rw [List.map_cons, List.mapM_cons, ih, c.decode_encode, List.all_cons]
    cases c.valid entry.2 with
    | false => rfl
    | true =>
      cases entries.all (fun entry => c.valid entry.2) with
      | false => rfl
      | true => rfl

/-- A table is written as an object, and read off one in any order. -/
def table (c : Codec α) : Codec (Entries α) where
  encode t := .object (t.entries.map fun entry => (entry.1, c.encode entry.2))
  decode
    | .object members =>
      (members.mapM fun member => (c.decode member.2).map fun value => (member.1, value)).map
        Entries.ofList
    | _ => none
  valid t := t.entries.all fun entry => c.valid entry.2
  decode_encode t := by
    show Option.map Entries.ofList ((t.entries.map fun entry => (entry.1, c.encode entry.2)).mapM
      fun member => (c.decode member.2).map fun value => (member.1, value)) = _
    rw [mapM_decode_entries]
    cases t.entries.all fun entry => c.valid entry.2 with
    | false => rfl
    | true => exact congrArg some (Entries.ofList_entries t)

/-! ## Any value -/

mutual

/-- A text's tree as `serde_json::Value` holds it: every object is a B-tree map. -/
def sortTree : Tree → Tree
  | .null => .null
  | .bool b => .bool b
  | .number n => .number n
  | .string s => .string s
  | .array items => .array (sortItems items)
  | .object members => .object (collect (sortMembers members))

def sortItems : List Tree → List Tree
  | [] => []
  | item :: items => sortTree item :: sortItems items

def sortMembers : List (String × Tree) → List (String × Tree)
  | [] => []
  | (key, value) :: members => (key, sortTree value) :: sortMembers members

end

mutual

theorem sortTree_wellFormed : ∀ {tree : Tree}, tree.wellFormed = true → sortTree tree = tree
  | .null, _ => rfl
  | .bool _, _ => rfl
  | .number _, _ => rfl
  | .string _, _ => rfl
  | .array _, h => by
    rw [Tree.wellFormed] at h
    rw [sortTree, sortItems_wellFormed h]
  | .object _, h => by
    rw [Tree.wellFormed, Bool.and_eq_true, decide_eq_true_iff] at h
    rw [sortTree, sortMembers_wellFormed h.2, collect_entries h.1]

theorem sortItems_wellFormed : ∀ {items : List Tree}, wellFormedItems items = true →
    sortItems items = items
  | [], _ => rfl
  | _ :: _, h => by
    rw [wellFormedItems, Bool.and_eq_true] at h
    rw [sortItems, sortTree_wellFormed h.1, sortItems_wellFormed h.2]

theorem sortMembers_wellFormed : ∀ {members : List (String × Tree)},
    wellFormedMembers members = true → sortMembers members = members
  | [], _ => rfl
  | (_, _) :: _, h => by
    rw [wellFormedMembers, Bool.and_eq_true] at h
    rw [sortMembers, sortTree_wellFormed h.1, sortMembers_wellFormed h.2]

end

/-- `serde_json::Value`: read off any tree whose numbers are proper. -/
def value : Codec Value where
  encode v := v.tree
  decode tree :=
    if h : (sortTree tree).wellFormed = true then some ⟨sortTree tree, h⟩ else none
  valid _ := true
  decode_encode v := by
    have hsorted := sortTree_wellFormed v.wellFormed
    rw [dif_pos (by rw [hsorted]; exact v.wellFormed), if_pos rfl]
    exact congrArg some (Value.ext hsorted)

/-! ## Records -/

/-- One member of a record. -/
structure Member (α : Type) where
  name : String
  codec : Codec α
  /-- What stands for a member that is not there. -/
  missing : Option α := none
  /-- The same, where the record is read off an array. -/
  missingItem : Option α := none
  /-- The values that are not written. -/
  skip : α → Bool := fun _ => false
  skipped : ∀ a, skip a = true → missing = some a ∧ codec.valid a = true := by
    intro a h
    cases h

/-- The members of a record: how they are written in order, and read by name or in order. -/
structure Record (α : Type) where
  names : List String
  write : α → List (String × Tree)
  read : (String → Option Tree) → Option α
  readItems : List Tree → Option (α × List Tree)
  valid : α → Bool
  distinct : names.Nodup
  written : ∀ a, ((write a).map Prod.fst).Sublist names
  read_write : ∀ a find, (∀ name ∈ names, find name = (write a).lookup name) →
    read find = if valid a then some a else none

/-- The record without members. -/
def Record.nil : Record Unit where
  names := []
  write _ := []
  read _ := some ()
  readItems items := some ((), items)
  valid _ := true
  distinct := List.nodup_nil
  written _ := List.Sublist.slnil
  read_write _ _ _ := rfl

theorem lookup_eq_none {name : String} {members : List (String × Tree)}
    (h : name ∉ members.map Prod.fst) : members.lookup name = none := by
  induction members with
  | nil => rfl
  | cons member members ih =>
    obtain ⟨k, v⟩ := member
    rw [List.map_cons, List.mem_cons, not_or] at h
    rw [List.lookup_cons, beq_false_of_ne h.1]
    exact ih h.2

/-- What is written of one member. -/
def Member.write (f : Member α) (a : α) : List (String × Tree) :=
  if f.skip a then [] else [(f.name, f.codec.encode a)]

theorem Member.lookup_write (f : Member α) (a : α) (members : List (String × Tree)) {name : String}
    (h : name ≠ f.name) : (f.write a ++ members).lookup name = members.lookup name := by
  unfold Member.write
  split
  · rfl
  · rw [List.singleton_append, List.lookup_cons, beq_false_of_ne h]

/-- A member, if there is one by its name. -/
def Member.read (f : Member α) : Option Tree → Option α
  | some tree => f.codec.decode tree
  | none => f.missing

/-- **A member is read back**, written or left out. -/
theorem Member.read_write (f : Member α) (a : α) {members : List (String × Tree)}
    (h : f.name ∉ members.map Prod.fst) :
    f.read ((f.write a ++ members).lookup f.name) = if f.codec.valid a then some a else none := by
  unfold Member.write
  cases hskip : f.skip a with
  | true =>
    obtain ⟨hmissing, hvalid⟩ := f.skipped a hskip
    rw [if_pos rfl, List.nil_append, lookup_eq_none h, hvalid, if_pos rfl]
    exact hmissing
  | false =>
    rw [if_neg Bool.false_ne_true, List.singleton_append, List.lookup_cons_self]
    exact f.codec.decode_encode a

/-- One more member in front. -/
def Record.cons (f : Member α) (r : Record β) (h : f.name ∉ r.names := by exact of_decide_eq_true rfl) :
    Record (α × β) where
  names := f.name :: r.names
  write ab := f.write ab.1 ++ r.write ab.2
  read find := do
    let a ← f.read (find f.name)
    let b ← r.read find
    return (a, b)
  readItems items := do
    let (a, rest) ← match items with
      | [] => f.missingItem.map fun a => (a, [])
      | item :: rest => (f.codec.decode item).map fun a => (a, rest)
    let (b, rest) ← r.readItems rest
    return ((a, b), rest)
  valid ab := f.codec.valid ab.1 && r.valid ab.2
  distinct := List.nodup_cons.mpr ⟨h, r.distinct⟩
  written ab := by
    rw [List.map_append]
    unfold Member.write
    split
    · exact (r.written ab.2).cons f.name
    · exact (r.written ab.2).cons_cons f.name
  read_write ab find hfind := by
    have habsent : f.name ∉ (r.write ab.2).map Prod.fst := fun hmem =>
      h ((r.written ab.2).subset hmem)
    have hrest : ∀ name ∈ r.names, find name = (r.write ab.2).lookup name := by
      intro name hname
      have hne : name ≠ f.name := fun heq => h (heq ▸ hname)
      rw [hfind name (List.mem_cons_of_mem f.name hname), f.lookup_write ab.1 _ hne]
    rw [hfind f.name List.mem_cons_self, f.read_write ab.1 habsent, r.read_write ab.2 find hrest]
    cases f.codec.valid ab.1 with
    | false => rfl
    | true =>
      cases r.valid ab.2 with
      | false => rfl
      | true => rfl

/-- No member of the record is there twice. -/
def once (names : List String) (members : List (String × Tree)) : Bool :=
  decide ((members.map Prod.fst).filter (names.contains ·)).Nodup

/-- A structure with the members of a record, in the order of its declaration.  It is read off an
object by names, others skipped, and off an array by places. -/
def Record.codec (r : Record α) (parts : γ → α) (build : α → γ)
    (build_parts : ∀ g, build (parts g) = g) : Codec γ where
  encode g := .object (r.write (parts g))
  decode
    | .object members =>
      if once r.names members then (r.read fun name => members.lookup name).map build else none
    | .array items =>
      match r.readItems items with
      | some (a, []) => some (build a)
      | _ => none
    | _ => none
  valid g := r.valid (parts g)
  decode_encode g := by
    have honce : once r.names (r.write (parts g)) = true :=
      decide_eq_true ((List.filter_sublist.trans (r.written (parts g))).nodup r.distinct)
    show (if once r.names (r.write (parts g)) = true then
      (r.read fun name => (r.write (parts g)).lookup name).map build else none) = _
    rw [if_pos honce, r.read_write (parts g) _ fun _ _ => rfl]
    cases r.valid (parts g) with
    | false => rfl
    | true => exact congrArg some (build_parts g)

/-! ## Values that are always read back -/

/-- Every value is read back. -/
def Codec.Total (c : Codec α) : Prop := ∀ a, c.valid a = true

theorem Codec.Total.optional {c : Codec α} (hc : c.Total) (hnull : ∀ a, c.encode a ≠ .null) :
    (optional c hnull).Total := by
  intro a
  cases a with
  | none => rfl
  | some a => exact hc a

theorem Codec.Total.list {c : Codec α} (hc : c.Total) : (list c).Total := fun _ =>
  List.all_eq_true.mpr fun a _ => hc a

theorem Codec.Total.table {c : Codec α} (hc : c.Total) : (table c).Total := fun _ =>
  List.all_eq_true.mpr fun entry _ => hc entry.2

def Record.Total (r : Record α) : Prop := ∀ a, r.valid a = true

theorem Record.total_nil : Record.nil.Total := fun _ => rfl

theorem Record.Total.cons {f : Member α} {r : Record β} {h : f.name ∉ r.names}
    (hf : f.codec.Total) (hr : r.Total) : (Record.cons f r h).Total := by
  intro ab
  exact Bool.and_eq_true_iff.mpr ⟨hf ab.1, hr ab.2⟩

theorem Record.Total.codec {r : Record α} {parts : γ → α} {build : α → γ}
    {build_parts : ∀ g, build (parts g) = g} (hr : r.Total) :
    (r.codec parts build build_parts).Total := fun g => hr (parts g)

theorem Record.codec_valid (r : Record α) (parts : γ → α) (build : α → γ)
    (build_parts : ∀ g, build (parts g) = g) (g : γ) :
    (r.codec parts build build_parts).valid g = r.valid (parts g) := rfl

/-- A member that is always read back does not matter. -/
theorem Record.valid_cons {f : Member α} {r : Record β} {h : f.name ∉ r.names}
    (hf : f.codec.Total) (a : α) (b : β) : (Record.cons f r h).valid (a, b) = r.valid b := by
  show (f.codec.valid a && r.valid b) = r.valid b
  rw [hf a, Bool.true_and]

/-- Nor do the members behind, if all of them are always read back. -/
theorem Record.valid_cons_total {f : Member α} {r : Record β} {h : f.name ∉ r.names}
    (hr : r.Total) (a : α) (b : β) : (Record.cons f r h).valid (a, b) = f.codec.valid a := by
  show (f.codec.valid a && r.valid b) = f.codec.valid a
  rw [hr b, Bool.and_true]

theorem Record.encode_ne_null (r : Record α) (parts : γ → α) (build : α → γ)
    (build_parts : ∀ g, build (parts g) = g) (g : γ) :
    (r.codec parts build build_parts).encode g ≠ .null := Tree.noConfusion

end Basecrawl.Codecs
