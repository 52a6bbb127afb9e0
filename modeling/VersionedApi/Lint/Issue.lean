import VersionedApi.Error
import VersionedApi.Json.Record

/-!
# Lint issues

* `Issue` : something that is wrong or missing, with its place and sometimes a hint;
* `Findings` : the issues of a number of sources, with what was looked at and counts by severity;
  `Findings.push` counts one issue more, `Findings.merge` puts two runs together;
* `Findings.toJson`, `Findings.ofJson?` : their serialized form.
-/

namespace VersionedApi.Lint

open VersionedApi.Json

/-- How bad an issue is. -/
inductive Severity where
  | error
  | warning
  | info
deriving DecidableEq, Repr

def Severity.key : Severity → String
  | error => "error"
  | warning => "warning"
  | info => "info"

def Severity.ofKey? (name : String) : Option Severity :=
  [error, warning, info].find? (·.key == name)

structure Issue where
  severity : Severity
  code : String
  message : String
  file : String
  line : Nat
  suggestion : Option String
deriving DecidableEq, Repr

/-- What an author may do about a fault. -/
def suggestion? : Fault → Option String
  | .missingVisibility tag => some s!"Write `@api-{tag}:public` or `@api-{tag}:private`"
  | .missingDirective tag => some s!"Add an `@api-{tag}` annotation"
  | .unknownScope _ => some "Declare the scope under [[scopes]] in apidoc.toml"
  | .unknownRepresentation _ => some "Document the representation or fix the class name"
  | .badRangeUse _ => some "Use a plain version like `3.2` instead"
  | .scalarParent _ parent _ => some s!"Document `{parent}` as `object` or `array<object>`"
  | _ => none

def Issue.ofError (e : Error) (file : String) (line : Nat) : Issue :=
  { severity := .error
    code := e.code
    message := e.message
    file
    line
    suggestion :=
      match e with
      | .documentation fault _ => suggestion? fault
      | _ => none }

/-- The result of a lint run. Counts have 64 bits, and their sums wrap around. -/
structure Findings where
  files : UInt64 := 0
  actions : UInt64 := 0
  representations : UInt64 := 0
  issues : List Issue := []
  errors : UInt64 := 0
  warnings : UInt64 := 0
deriving DecidableEq, Repr

namespace Findings

/-- One issue more, counted by its severity. -/
def push (f : Findings) (i : Issue) : Findings :=
  let counted := match i.severity with
    | .error => { f with errors := f.errors + 1 }
    | .warning => { f with warnings := f.warnings + 1 }
    | .info => f
  { counted with issues := counted.issues ++ [i] }

def pushError (f : Findings) (e : Error) (file : String) (line : Nat) : Findings :=
  f.push (.ofError e file line)

def passed (f : Findings) : Bool := f.errors == 0

/-- The findings of two runs, one after the other. -/
def merge (f g : Findings) : Findings :=
  { files := f.files + g.files
    actions := f.actions + g.actions
    representations := f.representations + g.representations
    issues := f.issues ++ g.issues
    errors := f.errors + g.errors
    warnings := f.warnings + g.warnings }

end Findings

/-! ## Serialized form -/

def Issue.toJson (i : Issue) : Value :=
  .object
    [("severity", .string i.severity.key),
      ("code", .string i.code),
      ("message", .string i.message),
      ("location", .object [("file", .string i.file), ("line", .ofNat i.line)]),
      ("suggestion", .ofString? i.suggestion)]

def Severity.ofJson? (v : Value) : Option Severity := (v.word? Value.isNull).bind ofKey?

def Issue.ofJson? (v : Value) : Option Issue := do
  let v ← v.record? ["severity", "code", "message", "location", "suggestion"]
  let location ← (v.get? "location").bind (Value.record? ["file", "line"])
  return {
    severity := ← (v.get? "severity").bind Severity.ofJson?
    code := ← v.text? "code"
    message := ← v.text? "message"
    file := ← location.text? "file"
    line := ← (location.get? "line").bind Value.asNat?
    suggestion := ← v.textOrNull? "suggestion" }

namespace Findings

def toJson (f : Findings) : Value :=
  .object
    [("files_checked", .ofNat f.files.toNat),
      ("actions_checked", .ofNat f.actions.toNat),
      ("representations_checked", .ofNat f.representations.toNat),
      ("issues", .array (f.issues.map Issue.toJson)),
      ("errors", .ofNat f.errors.toNat),
      ("warnings", .ofNat f.warnings.toNat)]

/-- The findings of a serialized form; all entries have to be there. -/
def ofJson? (v : Value) : Option Findings := do
  let v ← v.record?
    ["files_checked", "actions_checked", "representations_checked", "issues", "errors", "warnings"]
  let count (key : String) := ((v.get? key).bind Value.asNat?).map Nat.toUInt64
  let issues ← (v.get? "issues").bind Value.asArray?
  return {
    files := ← count "files_checked"
    actions := ← count "actions_checked"
    representations := ← count "representations_checked"
    issues := ← issues.mapM Issue.ofJson?
    errors := ← count "errors"
    warnings := ← count "warnings" }

end Findings

end VersionedApi.Lint
