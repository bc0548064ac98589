/-
  JSON values as `serde_json` holds them.

  `Tree` is the raw syntax.  A `serde_json` object is a B-tree map, so its keys are distinct and
  come in order; its numbers are never infinite or NaN and a `NegInt` is negative.  `Value` and
  `Map` carry these facts, so that two of them are equal exactly when Rust says so.
-/
import Mathlib.Data.String.Basic

namespace Basecrawl.Json

/-- `serde_json::Number`: the three representations a parsed number can have. -/
inductive Number where
  | posInt (n : UInt64)
  | negInt (n : Int64)
  | float (bits : UInt64)
deriving DecidableEq, Repr

/-- The raw syntax of a JSON value. -/
inductive Tree where
  | null
  | bool (b : Bool)
  | number (n : Number)
  | string (s : String)
  | array (items : List Tree)
  | object (members : List (String × Tree))
deriving Repr

/-- A number `serde_json` can hold: a negative `NegInt`, a finite float. -/
def Number.wellFormed : Number → Bool
  | .posInt _ => true
  | .negInt n => n < 0
  | .float bits => (bits >>> 52) &&& 0x7ff != 0x7ff

mutual

/-- Every object lists its members in key order without repetition, every number is proper. -/
def Tree.wellFormed : Tree → Bool
  | .null => true
  | .bool _ => true
  | .number n => n.wellFormed
  | .string _ => true
  | .array items => wellFormedItems items
  | .object members =>
      decide ((members.map Prod.fst).Pairwise (· < ·)) && wellFormedMembers members

/-- `Tree.wellFormed` of every item of an array. -/
def wellFormedItems : List Tree → Bool
  | [] => true
  | item :: items => item.wellFormed && wellFormedItems items

/-- `Tree.wellFormed` of every member of an object. -/
def wellFormedMembers : List (String × Tree) → Bool
  | [] => true
  | (_, item) :: members => item.wellFormed && wellFormedMembers members

end

/-- `serde_json::Value`. -/
@[ext] structure Value where
  tree : Tree
  wellFormed : tree.wellFormed = true

/-- `serde_json::Map<String, Value>`. -/
@[ext] structure Map where
  members : List (String × Tree)
  wellFormed : (Tree.object members).wellFormed = true

/-! ## Equality -/

mutual

/-- `==` on values. -/
def Tree.beq : Tree → Tree → Bool
  | .null, .null => true
  | .bool a, .bool b => a == b
  | .number a, .number b => a == b
  | .string a, .string b => a == b
  | .array as, .array bs => beqItems as bs
  | .object as, .object bs => beqMembers as bs
  | _, _ => false

/-- `==` on the items of two arrays. -/
def beqItems : List Tree → List Tree → Bool
  | [], [] => true
  | a :: as, b :: bs => a.beq b && beqItems as bs
  | _, _ => false

/-- `==` on the members of two objects. -/
def beqMembers : List (String × Tree) → List (String × Tree) → Bool
  | [], [] => true
  | (k, a) :: as, (l, b) :: bs => k == l && a.beq b && beqMembers as bs
  | _, _ => false

end

mutual

theorem Tree.beq_iff : ∀ a b : Tree, a.beq b = true ↔ a = b
  | .null, b => by cases b <;> simp [Tree.beq]
  | .bool _, b => by cases b <;> simp [Tree.beq]
  | .number _, b => by cases b <;> simp [Tree.beq]
  | .string _, b => by cases b <;> simp [Tree.beq]
  | .array as, b => by cases b <;> simp [Tree.beq, beqItems_iff as]
  | .object as, b => by cases b <;> simp [Tree.beq, beqMembers_iff as]

theorem beqItems_iff : ∀ as bs : List Tree, beqItems as bs = true ↔ as = bs
  | [], bs => by cases bs <;> simp [beqItems]
  | a :: as, bs => by cases bs <;> simp [beqItems, Tree.beq_iff a, beqItems_iff as]

theorem beqMembers_iff : ∀ as bs : List (String × Tree), beqMembers as bs = true ↔ as = bs
  | [], bs => by cases bs <;> simp [beqMembers]
  | (k, a) :: as, bs => by
      cases bs <;> simp [beqMembers, Tree.beq_iff a, beqMembers_iff as, Prod.ext_iff]

end

instance : DecidableEq Tree := fun a b => decidable_of_iff _ (Tree.beq_iff a b)

instance : DecidableEq Map := fun m n =>
  decidable_of_iff (m.members = n.members) ⟨Map.ext, congrArg Map.members⟩

/-! ## Members -/

/-- `Map::get`. -/
def Map.get (m : Map) (key : String) : Option Tree := m.members.lookup key

/-- `Map::is_empty`. -/
def Map.isEmpty (m : Map) : Bool := m.members.isEmpty

/-- `Map::insert`, on the members in key order. -/
def insertMember (key : String) (value : Tree) : List (String × Tree) → List (String × Tree)
  | [] => [(key, value)]
  | (k, v) :: members =>
      if key < k then (key, value) :: (k, v) :: members
      else if key = k then (key, value) :: members
      else (k, v) :: insertMember key value members

/-- What was inserted is found. -/
theorem lookup_insertMember (key : String) (value : Tree) (members : List (String × Tree)) :
    (insertMember key value members).lookup key = some value := by
  induction members with
  | nil => exact List.lookup_cons_self
  | cons member members ih =>
    obtain ⟨k, v⟩ := member
    unfold insertMember
    split
    · exact List.lookup_cons_self
    · split
      · exact List.lookup_cons_self
      · rename_i hne
        rw [List.lookup_cons, beq_false_of_ne hne]
        exact ih

/-- The other members are left alone. -/
theorem lookup_insertMember_of_ne {key other : String} (value : Tree) (h : other ≠ key) :
    ∀ members : List (String × Tree),
      (insertMember key value members).lookup other = members.lookup other
  | [] => by rw [insertMember, List.lookup_cons, beq_false_of_ne h]
  | (k, v) :: members => by
      have ih := lookup_insertMember_of_ne value h members
      unfold insertMember
      split
      · rw [List.lookup_cons, beq_false_of_ne h]
      · split
        · rename_i hkey
          rw [List.lookup_cons, List.lookup_cons, beq_false_of_ne h, ← hkey, beq_false_of_ne h]
        · rw [List.lookup_cons, List.lookup_cons, ih]

/-- Insertion adds one key. -/
theorem mem_keys_insertMember {key k : String} {value : Tree} {members : List (String × Tree)} :
    k ∈ (insertMember key value members).map Prod.fst ↔
      k = key ∨ k ∈ members.map Prod.fst := by
  induction members with
  | nil => simp [insertMember]
  | cons member members ih =>
    obtain ⟨k', v⟩ := member
    unfold insertMember
    split
    · simp
    · split
      · rename_i hkey
        simp [hkey]
      · rw [List.map_cons, List.map_cons, List.mem_cons, List.mem_cons, ih]
        exact or_left_comm

/-- Insertion keeps the keys in order. -/
theorem pairwise_insertMember {key : String} {value : Tree} {members : List (String × Tree)}
    (h : (members.map Prod.fst).Pairwise (· < ·)) :
    ((insertMember key value members).map Prod.fst).Pairwise (· < ·) := by
  induction members with
  | nil => simp [insertMember]
  | cons member members ih =>
    obtain ⟨k, v⟩ := member
    rw [List.map_cons, List.pairwise_cons] at h
    obtain ⟨hfirst, hrest⟩ := h
    unfold insertMember
    split
    · rename_i hlt
      rw [List.map_cons, List.map_cons, List.pairwise_cons, List.pairwise_cons]
      refine ⟨?_, hfirst, hrest⟩
      intro k' hk'
      rcases List.mem_cons.mp hk' with rfl | hk'
      · exact hlt
      · exact hlt.trans (hfirst k' hk')
    · split
      · rename_i hkey
        rw [List.map_cons, List.pairwise_cons]
        exact ⟨hkey ▸ hfirst, hrest⟩
      · rename_i hge hne
        rw [List.map_cons, List.pairwise_cons]
        refine ⟨?_, ih hrest⟩
        intro k' hk'
        rcases mem_keys_insertMember.mp hk' with rfl | hk'
        · exact lt_of_le_of_ne (not_lt.mp hge) (Ne.symm hne)
        · exact hfirst k' hk'

theorem wellFormedMembers_iff {members : List (String × Tree)} :
    wellFormedMembers members = true ↔ ∀ member ∈ members, member.2.wellFormed = true := by
  induction members with
  | nil => simp [wellFormedMembers]
  | cons member members ih =>
    obtain ⟨k, v⟩ := member
    rw [wellFormedMembers, Bool.and_eq_true, ih, List.forall_mem_cons]

/-- What is in the object after an insertion was inserted or was there before. -/
theorem mem_insertMember {key : String} {value : Tree} {member : String × Tree}
    {members : List (String × Tree)} (h : member ∈ insertMember key value members) :
    member = (key, value) ∨ member ∈ members := by
  induction members with
  | nil => exact Or.inl (List.mem_singleton.mp h)
  | cons first members ih =>
    obtain ⟨k, v⟩ := first
    unfold insertMember at h
    split at h
    · exact List.mem_cons.mp h
    · split at h
      · exact (List.mem_cons.mp h).imp_right (List.mem_cons_of_mem _)
      · rcases List.mem_cons.mp h with rfl | h
        · exact Or.inr List.mem_cons_self
        · exact (ih h).imp_right (List.mem_cons_of_mem _)

/-- `Map::insert`. -/
def Map.insert (m : Map) (key : String) (value : Value) : Map where
  members := insertMember key value.tree m.members
  wellFormed := by
    have hm := m.wellFormed
    rw [Tree.wellFormed, Bool.and_eq_true, decide_eq_true_iff, wellFormedMembers_iff] at hm ⊢
    refine ⟨pairwise_insertMember hm.1, ?_⟩
    intro member hmember
    rcases mem_insertMember hmember with rfl | hmember
    · exact value.wellFormed
    · exact hm.2 member hmember

/-- `Map::new`. -/
def Map.empty : Map := ⟨[], rfl⟩

@[simp] theorem Map.get_insert (m : Map) (key : String) (value : Value) :
    (m.insert key value).get key = some value.tree :=
  lookup_insertMember key value.tree m.members

theorem Map.get_insert_of_ne (m : Map) {key other : String} (value : Value) (h : other ≠ key) :
    (m.insert key value).get other = m.get other :=
  lookup_insertMember_of_ne value.tree h m.members

/-- A text as a value. -/
def Value.string (s : String) : Value := ⟨.string s, rfl⟩

/-- An optional text as `json!` writes it. -/
def Value.ofOption : Option String → Value
  | some s => .string s
  | none => ⟨.null, rfl⟩

/-- An object as a value. -/
def Value.object (m : Map) : Value := ⟨.object m.members, m.wellFormed⟩

/-- `Value::as_object`. -/
def Value.asObject : Value → Option Map
  | ⟨.object members, h⟩ => some ⟨members, h⟩
  | _ => none

/-- `Value::as_str`. -/
def Tree.asStr : Tree → Option String
  | .string s => some s
  | _ => none

theorem asStr_bind_eq_some {value : Option Tree} {text : String} :
    value.bind Tree.asStr = some text ↔ value = some (.string text) := by
  cases value with
  | none => simp
  | some tree => cases tree <;> simp [Tree.asStr]

/-- `Value::as_bool`. -/
def Tree.asBool : Tree → Option Bool
  | .bool b => some b
  | _ => none

/-- `Value::get` with a member name: only an object has members. -/
def Tree.get (key : String) : Tree → Option Tree
  | .object members => members.lookup key
  | _ => none

/-- `value == Value::Null`. -/
def Value.isNull (v : Value) : Bool :=
  match v.tree with
  | .null => true
  | _ => false

end Basecrawl.Json
