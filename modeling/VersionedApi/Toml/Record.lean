import VersionedApi.Toml.Value

/-!
# Records in TOML

Readers of values by their form, and of the entries of a record by key (`Record`). A reader is
`none` on a value of another form; an entry that is not there has a default or is an error.
-/

namespace VersionedApi.Toml

abbrev Record := List (String × Value)

namespace Value

def asText? : Value → Option String
  | string s => some s
  | _ => none

def asBool? : Value → Option Bool
  | boolean b => some b
  | _ => none

def asArray? : Value → Option (List Value)
  | array items => some items
  | tables items => some items
  | _ => none

/-- What `read` makes of every item of an array. -/
def asList? {α : Type} (read : Value → Option α) (v : Value) : Option (List α) :=
  v.asArray?.bind (·.mapM read)

def asTexts? (v : Value) : Option (List String) := v.asList? asText?

/-- The entries of a table. An array gives its items to the keys of the record in order, and a
moment is a record whose keys are never asked for. -/
def asRecord? (keys : List String) : Value → Option Record
  | table _ entries => some entries
  | array items => some (keys.zip items)
  | tables items => some (keys.zip items)
  | moment _ => some []
  | _ => none

end Value

namespace Record

/-- What `read` makes of the value under a key, which has to be there. -/
def required? {α : Type} (read : Value → Option α) (r : Record) (key : String) : Option α :=
  (r.lookup key).bind read

/-- What `read` makes of the value under a key, or `default` if there is none. -/
def orDefault? {α : Type} (read : Value → Option α) (default : α) (r : Record) (key : String) :
    Option α :=
  match r.lookup key with
  | some v => read v
  | none => some default

/-- What `read` makes of the value under a key, if there is one. -/
def optional? {α : Type} (read : Value → Option α) (r : Record) (key : String) :
    Option (Option α) :=
  r.orDefault? (fun v => (read v).map some) none key

end Record

end VersionedApi.Toml
