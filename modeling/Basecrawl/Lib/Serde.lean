/-
  Reading a record off a JSON tree, as a derived `Deserialize` does.

  A record is read off an object by names, off an array by places.  A member that is not there gets
  its default, a member that is there twice is an error, members with other names are skipped; an
  array may be shorter than the record but not longer.  A map is read off an object, and the last of
  two entries with one key stays.
-/
import Basecrawl.Lib.Json
import Basecrawl.Lib.Unordered

namespace Basecrawl.Serde

open Json Unordered

/-- How a value is read off a tree; the text of the error is not of interest. -/
abbrev Reader (α : Type) := Tree → Option α

variable {α : Type}

def string : Reader String
  | .string s => some s
  | _ => none

def bool : Reader Bool
  | .bool b => some b
  | _ => none

/-- `u64`, and `usize` on 64 bits; a float is not one. -/
def u64 : Reader UInt64
  | .number (.posInt n) => some n
  | _ => none

/-- `Vec<T>`. -/
def list (read : Reader α) : Reader (List α)
  | .array items => items.mapM read
  | _ => none

/-- `HashMap<String, T>`. -/
def table (read : Reader α) : Reader (Table String α)
  | .object members =>
      (members.mapM fun entry => (read entry.2).map fun value => (entry.1, value)).map Table.collect
  | _ => none

/-- `Option<T>`. -/
def optional (read : Reader α) : Reader (Option α)
  | .null => some none
  | tree => (read tree).map some

/-- The subtree of a member, if it is there; none at all when the record cannot be read. -/
def member (names : List String) (place : Nat) : Tree → Option (Option Tree)
  | .object members =>
      match members.filter fun entry => names.contains entry.1 with
      | [] => some none
      | [entry] => some (some entry.2)
      | _ :: _ :: _ => none
  | .array items => some items[place]?
  | _ => none

/-- A member with a default: `#[serde(default)]` on an `Option`. -/
def defaulted (names : List String) (place : Nat) (read : Reader α) (tree : Tree) :
    Option (Option α) :=
  (member names place tree).bind fun found =>
    match found with
    | none => some none
    | some value => optional read value

/-- An array has no more items than the record has members. -/
def fits (count : Nat) : Tree → Bool
  | .array items => items.length ≤ count
  | _ => true

end Basecrawl.Serde
