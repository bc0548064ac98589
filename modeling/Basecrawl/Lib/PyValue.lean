/-
  What Python's `json` reads: values whose objects keep their members in order.

  1. **Order is no part of a value** — `Same` compares values up to the order of members, at every
     depth; `sortKeys` lists the members of every object by key.
  2. **One of each** — values without repeated keys are the same exactly when they are equal once
     sorted (`same_iff_sortKeys`).

  Keys and strings are of any type with a linear order, numbers of any type.
-/
import Mathlib.Data.List.Sort

namespace Basecrawl.PyValue

/-- A `dict`, a `list`, or what can stand in one. -/
inductive Value (S N : Type) where
  | null
  | bool (b : Bool)
  | number (n : N)
  | string (s : S)
  | array (items : List (Value S N))
  | object (members : List (S × Value S N))

variable {S N : Type}

/-- `value is None`. -/
def Value.isNull : Value S N → Bool
  | .null => true
  | _ => false

/-! ## Keys -/

mutual

/-- No object has a key twice. -/
def Value.Distinct : Value S N → Prop
  | .array items => DistinctItems items
  | .object members => (members.map Prod.fst).Nodup ∧ DistinctMembers members
  | _ => True

def DistinctItems : List (Value S N) → Prop
  | [] => True
  | item :: items => item.Distinct ∧ DistinctItems items

def DistinctMembers : List (S × Value S N) → Prop
  | [] => True
  | (_, value) :: members => value.Distinct ∧ DistinctMembers members

end

mutual

instance decidableDistinct [DecidableEq S] : (value : Value S N) → Decidable value.Distinct
  | .array items => decidableDistinctItems items
  | .object members =>
      haveI : Decidable (DistinctMembers members) := decidableDistinctMembers members
      inferInstanceAs (Decidable ((members.map Prod.fst).Nodup ∧ DistinctMembers members))
  | .null | .bool _ | .number _ | .string _ => inferInstanceAs (Decidable True)

instance decidableDistinctItems [DecidableEq S] :
    (items : List (Value S N)) → Decidable (DistinctItems items)
  | [] => inferInstanceAs (Decidable True)
  | item :: items =>
      haveI : Decidable item.Distinct := decidableDistinct item
      haveI : Decidable (DistinctItems items) := decidableDistinctItems items
      inferInstanceAs (Decidable (item.Distinct ∧ DistinctItems items))

instance decidableDistinctMembers [DecidableEq S] :
    (members : List (S × Value S N)) → Decidable (DistinctMembers members)
  | [] => inferInstanceAs (Decidable True)
  | (_, value) :: members =>
      haveI : Decidable value.Distinct := decidableDistinct value
      haveI : Decidable (DistinctMembers members) := decidableDistinctMembers members
      inferInstanceAs (Decidable (value.Distinct ∧ DistinctMembers members))

end

/-- A `dict`. -/
structure Dict (S N : Type) where
  members : List (S × Value S N)
  distinct : (Value.object members).Distinct

/-! ## Up to the order of members -/

mutual

/-- Equal up to the order of members. -/
def Value.Same : Value S N → Value S N → Prop
  | .null, .null => True
  | .bool a, .bool b => a = b
  | .number m, .number n => m = n
  | .string s, .string t => s = t
  | .array items, .array others => SameItems items others
  | .object members, .object others => SameMembers members others
  | _, _ => False

def SameItems : List (Value S N) → List (Value S N) → Prop
  | [], others => others = []
  | item :: items, others =>
      ∃ other rest, others = other :: rest ∧ item.Same other ∧ SameItems items rest

/-- Each member has its own among the others. -/
def SameMembers : List (S × Value S N) → List (S × Value S N) → Prop
  | [], others => others = []
  | (key, value) :: members, others =>
      ∃ other rest, others.Perm ((key, other) :: rest) ∧ value.Same other ∧
        SameMembers members rest

end

variable [LinearOrder S]

/-! ## By key -/

section

variable {α : Type}

/-- `sorted(members)`, of members whose keys are distinct. -/
def sortByKey (members : List (S × α)) : List (S × α) :=
  members.insertionSort fun a b => a.1 ≤ b.1

theorem sortByKey_perm (members : List (S × α)) : (sortByKey members).Perm members :=
  List.perm_insertionSort _ _

theorem sortByKey_le (members : List (S × α)) :
    (sortByKey members).Pairwise fun a b => a.1 ≤ b.1 :=
  haveI : Std.Total (fun a b : S × α => a.1 ≤ b.1) := ⟨fun a b => le_total a.1 b.1⟩
  haveI : IsTrans (S × α) fun a b => a.1 ≤ b.1 := ⟨fun _ _ _ hab hbc => hab.trans hbc⟩
  List.pairwise_insertionSort _ _

theorem sortByKey_of_le {members : List (S × α)} (h : members.Pairwise fun a b => a.1 ≤ b.1) :
    sortByKey members = members :=
  List.Pairwise.insertionSort_eq h

theorem sortByKey_sortByKey (members : List (S × α)) :
    sortByKey (sortByKey members) = sortByKey members :=
  sortByKey_of_le (sortByKey_le members)

theorem sortByKey_lt {members : List (S × α)} (h : (members.map Prod.fst).Nodup) :
    (sortByKey members).Pairwise fun a b => a.1 < b.1 := by
  have hne : (sortByKey members).Pairwise fun a b => a.1 ≠ b.1 :=
    List.pairwise_map.mp (((sortByKey_perm members).map Prod.fst).nodup_iff.mpr h)
  exact ((sortByKey_le members).and hne).imp fun hab => lt_of_le_of_ne hab.1 hab.2

/-- Members with distinct keys are sorted in one way. -/
theorem sortByKey_eq_iff {members others : List (S × α)} (h : (members.map Prod.fst).Nodup) :
    sortByKey members = sortByKey others ↔ members.Perm others := by
  constructor
  · intro heq
    exact (sortByKey_perm members).symm.trans (heq ▸ sortByKey_perm others)
  · intro hperm
    have h' : (others.map Prod.fst).Nodup := (hperm.map Prod.fst).nodup_iff.mp h
    have hsorted : (sortByKey members).Perm (sortByKey others) :=
      (sortByKey_perm members).trans (hperm.trans (sortByKey_perm others).symm)
    refine hsorted.eq_of_pairwise ?_ (sortByKey_lt h) (sortByKey_lt h')
    intro a b _ _ hab hba
    exact absurd hab hba.asymm

end

mutual

/-- The members of every object by key. -/
def Value.sortKeys : Value S N → Value S N
  | .array items => .array (sortItems items)
  | .object members => .object (sortByKey (sortMembers members))
  | value => value

def sortItems : List (Value S N) → List (Value S N)
  | [] => []
  | item :: items => item.sortKeys :: sortItems items

def sortMembers : List (S × Value S N) → List (S × Value S N)
  | [] => []
  | (key, value) :: members => (key, value.sortKeys) :: sortMembers members

end

theorem sortMembers_eq (members : List (S × Value S N)) :
    sortMembers members = members.map fun member => (member.1, member.2.sortKeys) := by
  induction members with
  | nil => rfl
  | cons member members ih => rw [sortMembers, ih, List.map_cons]

theorem keys_sortMembers (members : List (S × Value S N)) :
    (sortMembers members).map Prod.fst = members.map Prod.fst := by
  rw [sortMembers_eq, List.map_map]
  rfl

theorem sortMembers_perm {members others : List (S × Value S N)} (h : members.Perm others) :
    (sortMembers members).Perm (sortMembers others) := by
  rw [sortMembers_eq, sortMembers_eq]
  exact h.map _

omit [LinearOrder S] in
theorem distinctMembers_iff {members : List (S × Value S N)} :
    DistinctMembers members ↔ ∀ member ∈ members, member.2.Distinct := by
  induction members with
  | nil => exact iff_of_true trivial (List.forall_mem_nil _)
  | cons member members ih =>
    rw [List.forall_mem_cons, ← ih]
    rfl

mutual

theorem distinct_sortKeys {value : Value S N} (h : value.Distinct) : value.sortKeys.Distinct := by
  cases value with
  | array items => exact distinctItems_sort h
  | object members =>
    have hkeys : ((sortByKey (sortMembers members)).map Prod.fst).Nodup := by
      rw [((sortByKey_perm (sortMembers members)).map Prod.fst).nodup_iff, keys_sortMembers]
      exact h.1
    refine ⟨hkeys, distinctMembers_iff.mpr fun member hmem => ?_⟩
    exact distinctMembers_iff.mp (distinctMembers_sort h.2) member
      ((sortByKey_perm _).mem_iff.mp hmem)
  | _ => trivial

theorem distinctItems_sort {items : List (Value S N)} (h : DistinctItems items) :
    DistinctItems (sortItems items) := by
  cases items with
  | nil => trivial
  | cons item items => exact ⟨distinct_sortKeys h.1, distinctItems_sort h.2⟩

theorem distinctMembers_sort {members : List (S × Value S N)} (h : DistinctMembers members) :
    DistinctMembers (sortMembers members) := by
  cases members with
  | nil => trivial
  | cons member members => exact ⟨distinct_sortKeys h.1, distinctMembers_sort h.2⟩

end

mutual

theorem sortKeys_sortKeys (value : Value S N) : value.sortKeys.sortKeys = value.sortKeys := by
  cases value with
  | array items => rw [Value.sortKeys, Value.sortKeys, sortItems_sortItems items]
  | object members =>
    have hsorted : sortMembers (sortByKey (sortMembers members)) =
        sortByKey (sortMembers members) := by
      rw [sortMembers_eq (sortByKey _)]
      refine (List.map_congr_left fun member hmem => ?_).trans (List.map_id _)
      exact Prod.ext rfl (sortMembers_sorted members member ((sortByKey_perm _).mem_iff.mp hmem))
    rw [Value.sortKeys, Value.sortKeys, hsorted, sortByKey_sortByKey]
  | _ => rfl

theorem sortItems_sortItems (items : List (Value S N)) :
    sortItems (sortItems items) = sortItems items := by
  cases items with
  | nil => rfl
  | cons item items =>
    rw [sortItems, sortItems, sortKeys_sortKeys item, sortItems_sortItems items]

theorem sortMembers_sorted (members : List (S × Value S N)) :
    ∀ member ∈ sortMembers members, member.2.sortKeys = member.2 := by
  cases members with
  | nil => exact List.forall_mem_nil _
  | cons member members =>
    rw [sortMembers, List.forall_mem_cons]
    exact ⟨sortKeys_sortKeys member.2, sortMembers_sorted members⟩

end

/-! ## One of each -/

mutual

theorem sortKeys_of_same {value other : Value S N} (hdistinct : value.Distinct)
    (h : value.Same other) : value.sortKeys = other.sortKeys := by
  cases value with
  | null =>
    cases other with
    | null => rfl
    | _ => exact False.elim h
  | bool a =>
    cases other with
    | bool b => exact congrArg Value.bool h
    | _ => exact False.elim h
  | number n =>
    cases other with
    | number m => exact congrArg Value.number h
    | _ => exact False.elim h
  | string s =>
    cases other with
    | string t => exact congrArg Value.string h
    | _ => exact False.elim h
  | array items =>
    cases other with
    | array others => exact congrArg Value.array (sortItems_of_same hdistinct h)
    | _ => exact False.elim h
  | object members =>
    cases other with
    | object others =>
      have hperm := sortMembers_of_same hdistinct.2 h
      have hkeys : ((sortMembers members).map Prod.fst).Nodup := by
        rw [keys_sortMembers]
        exact hdistinct.1
      exact congrArg Value.object ((sortByKey_eq_iff hkeys).mpr hperm)
    | _ => exact False.elim h

theorem sortItems_of_same {items others : List (Value S N)} (hdistinct : DistinctItems items)
    (h : SameItems items others) : sortItems items = sortItems others := by
  cases items with
  | nil =>
    obtain rfl : others = [] := h
    rfl
  | cons item items =>
    obtain ⟨other, rest, rfl, hitem, hitems⟩ := h
    rw [sortItems, sortItems, sortKeys_of_same hdistinct.1 hitem,
      sortItems_of_same hdistinct.2 hitems]

theorem sortMembers_of_same {members others : List (S × Value S N)}
    (hdistinct : DistinctMembers members) (h : SameMembers members others) :
    (sortMembers members).Perm (sortMembers others) := by
  cases members with
  | nil =>
    obtain rfl : others = [] := h
    exact .refl _
  | cons member members =>
    obtain ⟨key, value⟩ := member
    obtain ⟨other, rest, hothers, hvalue, hmembers⟩ := h
    have hrest := sortMembers_of_same hdistinct.2 hmembers
    rw [sortMembers, sortKeys_of_same hdistinct.1 hvalue]
    exact (hrest.cons _).trans (sortMembers_perm hothers).symm

end

mutual

theorem same_of_sortKeys {value other : Value S N} (h : value.sortKeys = other.sortKeys) :
    value.Same other := by
  cases value with
  | null =>
    cases other with
    | null => trivial
    | _ => cases h
  | bool a =>
    cases other with
    | bool b => exact Value.bool.inj h
    | _ => cases h
  | number n =>
    cases other with
    | number m => exact Value.number.inj h
    | _ => cases h
  | string s =>
    cases other with
    | string t => exact Value.string.inj h
    | _ => cases h
  | array items =>
    cases other with
    | array others => exact sameItems_of_sort (Value.array.inj h)
    | _ => cases h
  | object members =>
    cases other with
    | object others =>
      have hsorted : sortByKey (sortMembers members) = sortByKey (sortMembers others) :=
        Value.object.inj h
      exact sameMembers_of_sort
        ((sortByKey_perm _).symm.trans (hsorted ▸ sortByKey_perm (sortMembers others)))
    | _ => cases h

theorem sameItems_of_sort {items others : List (Value S N)}
    (h : sortItems items = sortItems others) : SameItems items others := by
  cases items with
  | nil =>
    cases others with
    | nil => rfl
    | cons other others => cases h
  | cons item items =>
    cases others with
    | nil => cases h
    | cons other others =>
      obtain ⟨hitem, hitems⟩ := List.cons.inj h
      exact ⟨other, others, rfl, same_of_sortKeys hitem, sameItems_of_sort hitems⟩

theorem sameMembers_of_sort {members others : List (S × Value S N)}
    (h : (sortMembers members).Perm (sortMembers others)) : SameMembers members others := by
  cases members with
  | nil =>
    have hnil : sortMembers others = [] := List.nil_perm.mp h
    rw [sortMembers_eq, List.map_eq_nil_iff] at hnil
    exact hnil
  | cons member members =>
    obtain ⟨key, value⟩ := member
    -- the member is among the others, sorted, so it comes from one of them
    have hmem : (key, value.sortKeys) ∈ sortMembers others := h.subset List.mem_cons_self
    rw [sortMembers_eq] at hmem
    obtain ⟨⟨key', other⟩, hother, heq⟩ := List.mem_map.mp hmem
    obtain ⟨rfl, hvalue⟩ := Prod.mk.inj heq
    obtain ⟨before, after, rfl⟩ := List.append_of_mem hother
    have hfront : (before ++ (key', other) :: after).Perm ((key', other) :: (before ++ after)) :=
      List.perm_middle
    have hrest : (sortMembers members).Perm (sortMembers (before ++ after)) := by
      have hall := h.trans (sortMembers_perm hfront)
      rw [sortMembers, sortMembers, ← hvalue] at hall
      exact hall.cons_inv
    exact ⟨other, before ++ after, hfront, same_of_sortKeys hvalue.symm, sameMembers_of_sort hrest⟩

end

/-- **Sorted, a value is the only one of its kind.** -/
theorem same_iff_sortKeys {value other : Value S N} (hdistinct : value.Distinct) :
    value.Same other ↔ value.sortKeys = other.sortKeys :=
  ⟨sortKeys_of_same hdistinct, same_of_sortKeys⟩

end Basecrawl.PyValue
