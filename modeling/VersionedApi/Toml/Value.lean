/-!
# TOML values

* `Value` : a value as a configuration needs it. Numbers and moments keep their text, since nothing
  computes with them;
* `Form` : how a table came about, which decides what may still be added to it;
* `Value.descend?` : a change to the table under a path of keys.
-/

namespace VersionedApi.Toml

/-- How a table came about. -/
inductive Form where
  /-- By its own header. -/
  | header
  /-- By the header of a table inside it. -/
  | wrapper
  /-- By a dotted key. -/
  | dotted
  /-- By braces; such a table is complete. -/
  | inline
deriving DecidableEq, Repr

inductive Value where
  | string (s : String)
  | boolean (b : Bool)
  | number (text : String)
  | moment (text : String)
  | array (items : List Value)
  /-- An array whose items are tables, each with a header of its own. -/
  | tables (items : List Value)
  | table (form : Form) (entries : List (String × Value))
deriving Repr, Inhabited

namespace Value

/-- Entries with another value under a key; a new key goes to the end. -/
def setEntry (key : String) (v : Value) : List (String × Value) → List (String × Value)
  | [] => [(key, v)]
  | (k, w) :: rest => if k == key then (k, v) :: rest else (k, w) :: setEntry key v rest

/-- The table `v` with `change` made to the table under a path. Tables that are not there are made,
in the given form; a path leads into the last item of an array of tables. A dotted key does not
lead into a table that has a header of its own, and no path into anything else. -/
def descend? (form : Form) (change : Value → Option Value) : List String → Value → Option Value
  | [], v => change v
  | key :: keys, table own entries =>
    match entries.lookup key with
    | none => do
      let child ← descend? form change keys (table form [])
      return table own (setEntry key child entries)
    | some (tables items) => do
      let last ← items.getLast?
      let child ← descend? form change keys last
      return table own (setEntry key (tables (items.dropLast ++ [child])) entries)
    | some (table inner es) => do
      if inner == .inline || (form == .dotted && inner == .header) then none
      let child ← descend? form change keys (table inner es)
      return table own (setEntry key child entries)
    | some _ => none
  | _ :: _, _ => none

/-- The table with one entry more under a path that was written as a dotted key. Keys are unique,
and a dotted key only adds to tables that dotted keys have made. -/
def define? (t : Value) (path : List String) (key : String) (v : Value) : Option Value :=
  descend? .dotted
    (fun
      | table form entries =>
        if (form == .dotted) == path.isEmpty || (entries.lookup key).isSome then none
        else some (table form (entries ++ [(key, v)]))
      | _ => none)
    path t

end Value

end VersionedApi.Toml
