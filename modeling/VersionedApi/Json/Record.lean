import VersionedApi.Json.Value

/-!
# Records in JSON

Readers of the entries of an object, by key. Each is `none` if the entry has the wrong form:

* `text?` : a string that has to be there;
* `textOrNull?` : a string, which may be null or not there;
* `flag?`, `texts?` : a truth value and a list of strings, which may be not there but not null;
* `word?` : a word of a fixed set;
* `record?` : an object, which may be written as the array of its values.
-/

namespace VersionedApi.Json.Value

def entries? : Value → Option (List (String × Value))
  | object entries => some entries
  | _ => none

def asText? : Value → Option String
  | string s => some s
  | _ => none

def asBool? : Value → Option Bool
  | bool b => some b
  | _ => none

def asArray? : Value → Option (List Value)
  | array items => some items
  | _ => none

/-- An integer that is not negative. -/
def asNat? : Value → Option Nat
  | number (.integer n) => if 0 ≤ n then some n.toNat else none
  | _ => none

def asTexts? (v : Value) : Option (List String) := v.asArray?.bind (·.mapM asText?)

/-- What `read` makes of a value that may be null. -/
def orNull? {α : Type} (read : Value → Option α) : Value → Option (Option α)
  | null => some none
  | v => (read v).map some

def text? (v : Value) (key : String) : Option String := (v.get? key).bind asText?

/-- What `read` makes of the value under a key; `none` inside if that is null or not there. -/
def optional? {α : Type} (read : Value → Option α) (v : Value) (key : String) :
    Option (Option α) :=
  match v.get? key with
  | some w => orNull? read w
  | none => some none

/-- The string under a key, if there is one. -/
def textOrNull? (v : Value) (key : String) : Option (Option String) := optional? asText? v key

/-- What `read` makes of the value under a key, or `default` if there is none. -/
def orDefault? {α : Type} (read : Value → Option α) (default : α) (v : Value) (key : String) :
    Option α :=
  match v.get? key with
  | some w => read w
  | none => some default

/-- The truth value under a key, false if there is none. -/
def flag? (v : Value) (key : String) : Option Bool := orDefault? asBool? false v key

def texts? (v : Value) (key : String) : Option (List String) := orDefault? asTexts? [] v key

/-- A word of a fixed set, as a string or as the only key of an object, the value of which has to
be `empty`. -/
def word? (empty : Value → Bool) : Value → Option String
  | string s => some s
  | object [(s, v)] => if empty v then some s else none
  | _ => none

def isNull : Value → Bool
  | null => true
  | _ => false

def isEmptyObject : Value → Bool
  | object [] => true
  | _ => false

/-- A record with the given keys: an object, or an array of the values of all keys in order. -/
def record? (keys : List String) : Value → Option Value
  | object entries => some (object entries)
  | array items => if items.length = keys.length then some (object (keys.zip items)) else none
  | _ => none

end VersionedApi.Json.Value
