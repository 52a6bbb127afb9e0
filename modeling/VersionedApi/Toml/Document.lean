import VersionedApi.Toml.Token
import VersionedApi.Toml.Value

/-!
# TOML documents

* `value?` : a value, with arrays and inline tables inside it;
* `Reading` : a document as far as it is read: the tables that are complete, and the one that lines
  are being added to;
* `read?` : the table of a whole text, or `none` if the text is not TOML.
-/

namespace VersionedApi.Toml

def depthLimit : Nat := 80

/-! ## Values -/

def scalarValue? (word : List Char) : Option Value :=
  if word == "true".toList then some (.boolean true)
  else if word == "false".toList then some (.boolean false)
  else if isNumber word then some (.number (String.ofList word))
  else if isMoment word then some (.moment (String.ofList word))
  else none

/-- A dotted key and the equals sign behind it: the path, the last key, and what follows. -/
def assigned? (cs : List Char) : Option (List String × String × List Char) := do
  let (keys, rest) ← dottedKey? (depthLimit - 1) cs
  let last ← keys.getLast?
  match rest with
  | '=' :: rest => return (keys.dropLast, last, blanks rest)
  | _ => none

mutual

/-- A value at the start of a text, and what follows it. The first argument bounds the steps, the
second the depth. -/
def value? : Nat → Nat → List Char → Option (Value × List Char)
  | 0, _, _ => none
  | steps + 1, depth, cs =>
    match cs with
    | '\"' :: _ | '\x27' :: _ => (string? cs).map fun (s, rest) => (.string s, rest)
    | '[' :: rest =>
      match depth with
      | 0 => none
      | depth + 1 => (items? steps depth rest).map fun (vs, rest) => (.array vs, rest)
    | '\x7b' :: rest =>
      match depth, blanks rest with
      | 0, _ => none
      | _ + 1, '\x7d' :: rest => some (.table .inline [], rest)
      | depth + 1, rest => entries? steps depth (.table .inline []) rest
    | _ => do
      let (word, rest) ← scalar? cs
      let v ← scalarValue? word
      return (v, rest)

/-- The items of an array up to its closing bracket; a comma may stand behind the last. -/
def items? : Nat → Nat → List Char → Option (List Value × List Char)
  | 0, _, _ => none
  | steps + 1, depth, cs =>
    match skipLines cs.length cs with
    | ']' :: rest => some ([], rest)
    | start =>
      (value? steps depth start).bind fun (v, rest) =>
        match skipLines rest.length rest with
        | ']' :: rest => some ([v], rest)
        | ',' :: rest => (items? steps depth rest).map fun (vs, rest) => (v :: vs, rest)
        | _ => none

/-- The entries of an inline table up to its closing brace, added to `t`. -/
def entries? : Nat → Nat → Value → List Char → Option (Value × List Char)
  | 0, _, _, _ => none
  | steps + 1, depth, t, cs =>
    (assigned? cs).bind fun (path, key, rest) =>
      (value? steps depth rest).bind fun (v, rest) =>
        (t.define? path key v).bind fun t =>
          match blanks rest with
          | '\x7d' :: rest => some (t, rest)
          | ',' :: rest => entries? steps depth t rest
          | _ => none

end

/-! ## Lines -/

/-- A document as far as it is read. -/
structure Reading where
  /-- The tables that are complete. -/
  root : Value
  /-- The header of the table that is being read; none before the first header. -/
  path : List String := []
  /-- The table is an item of an array of tables. -/
  isItem : Bool := false
  /-- The table that is being read. -/
  current : Value

namespace Reading

def start : Reading := { root := .table .header [], current := .table .header [] }

/-- The table with `change` made to the entry of the last key of a path. -/
def atLast? (change : Option Value → Option Value) (path : List String) (root : Value) :
    Option Value := do
  let key ← path.getLast?
  Value.descend? .wrapper
    (fun
      | .table form entries => do
        let v ← change (entries.lookup key)
        return .table form (Value.setEntry key v entries)
      | _ => none)
    path.dropLast root

def finish? (r : Reading) : Option Value :=
  if r.path.isEmpty then some r.current
  else if r.isItem then
    atLast?
      (fun
        | none => some (.tables [r.current])
        | some (.tables items) => some (.tables (items ++ [r.current]))
        | some _ => none)
      r.path r.root
  else
    atLast?
      (fun
        | none | some (.table .wrapper _) => some r.current
        | some _ => none)
      r.path r.root

/-- The header of a table: it starts empty, or with what headers of tables inside it have made. -/
def openTable? (r : Reading) (path : List String) : Option Reading := do
  let root ← r.finish?
  let key ← path.getLast?
  let parent ← Value.descend? .wrapper some path.dropLast root
  let found := lookupPath path.dropLast parent
  match found.bind (·.lookup key) with
  | none => return { root := parent, path, current := .table .header [] }
  | some (.table .wrapper entries) =>
    return { root := parent, path, current := .table .header entries }
  | some _ => none
where
  /-- The entries of the table under a path. -/
  lookupPath : List String → Value → Option (List (String × Value))
    | [], .table _ entries => some entries
    | key :: keys, .table _ entries =>
      match entries.lookup key with
      | some (.tables items) => items.getLast?.bind (lookupPath keys)
      | some v => lookupPath keys v
      | none => none
    | _, _ => none

def openItem? (r : Reading) (path : List String) : Option Reading := do
  let root ← r.finish?
  let root ← atLast?
    (fun
      | none => some (.tables [])
      | some (.tables items) => some (.tables items)
      | some _ => none)
    path root
  return { root, path, isItem := true, current := .table .header [] }

def define? (r : Reading) (path : List String) (key : String) (v : Value) : Option Reading :=
  (r.current.define? path key v).map fun current => { r with current }

end Reading

def header? (r : Reading) (cs : List Char) : Option (Reading × List Char) :=
  match cs with
  | '[' :: rest => do
    let (keys, rest) ← dottedKey? (depthLimit - 1) rest
    match rest with
    | ']' :: ']' :: rest =>
      let rest ← lineEnd? rest
      let r ← r.openItem? keys
      return (r, rest)
    | _ => none
  | _ => do
    let (keys, rest) ← dottedKey? (depthLimit - 1) cs
    match rest with
    | ']' :: rest =>
      let rest ← lineEnd? rest
      let r ← r.openTable? keys
      return (r, rest)
    | _ => none

/-- The lines of a document; the first argument bounds their number. -/
def lines? : Nat → Reading → List Char → Option Reading
  | 0, _, _ => none
  | n + 1, r, cs =>
    match blanks cs with
    | [] => some r
    | '#' :: rest => (lineEnd? ('#' :: rest)).bind (lines? n r)
    | '[' :: rest => (header? r rest).bind fun (r, rest) => lines? n r rest
    | c :: rest =>
      match newline? (c :: rest) with
      | some rest => lines? n r rest
      | none => do
        let (path, key, rest) ← assigned? (c :: rest)
        let (v, rest) ← value? (2 * rest.length + 1) (depthLimit - 1) rest
        let rest ← lineEnd? rest
        let r ← r.define? path key v
        lines? n r rest

/-- The table of a text, which may start with a byte order mark. -/
def read? (text : String) : Option Value := do
  let cs := match text.toList with
    | '\ufeff' :: rest => rest
    | cs => cs
  let r ← lines? (cs.length + 1) .start cs
  r.finish?

end VersionedApi.Toml
