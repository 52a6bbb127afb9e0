import VersionedApi.Action.Basic
import VersionedApi.Directive.Read

/-!
# Reading actions

`Action.read` makes an action of the docblock of a controller's method. The docblock has to have one
label, at most one description, a content type (at most one for all versions), at most one first
version, and a path; if all paths are private, nothing else may be public. The first of these
conditions that fails, in this order, is the error.
-/

namespace VersionedApi

open VersionedApi.Text VersionedApi.Docblock

/-- The docblock of a controller's method, and where it was found. -/
structure ActionSource where
  owner : String
  method : String
  docblock : String
  file : Option String := none
  line : Nat := 0
deriving DecidableEq, Repr

namespace ActionSource

/-- The source of a method whose name is put in upper case. -/
def ofMethod (owner method docblock : String) : ActionSource :=
  { owner, method := String.ofList (upper method.toList), docblock }

/-- The place that faults of the docblock are reported at. -/
def context (s : ActionSource) : Context := .ofMethod s.owner s.method s.docblock

end ActionSource

namespace Action

/-- A tag and the version in force where it stands. -/
abbrev ScopedTag := Tag × Option Version.Range

def ofKind (kind : Kind) (tags : List ScopedTag) : List ScopedTag :=
  tags.filter fun t => Kind.ofTag? t.1.name == some kind

/-- Kinds of directives that an action keeps beside label, description and content type. -/
def isKept : Kind → Bool
  | .vendorTag | .param | .minVersion | .returns | .scope | .throws | .uri | .uriSegment => true
  | _ => false

def missing {α : Type} (kind : Kind) (context : Context) : Except Error α :=
  .error (.documentation (.missingDirective kind.tag) context)

def repeated {α : Type} (kind : Kind) (context : Context) : Except Error α :=
  .error (.documentation (.repeatedDirective kind.tag) context)

def readLabel (registry : Registry) (context : Context) (tags : List ScopedTag) :
    Except Error String :=
  match ofKind .label tags with
  | [] => missing .label context
  | [(tag, _)] => do
    let d ← Directive.read registry context .label tag none
    match d.content with
    | .label text => .ok text
    | _ => missing .label context
  | _ => repeated .label context

def readDescription (registry : Registry) (context : Context) (tags : List ScopedTag) :
    Except Error (Option String) :=
  match ofKind .description tags with
  | [] => .ok none
  | [(tag, version)] => do
    let d ← Directive.read registry context .description tag version
    match d.content with
    | .description text => .ok (some text)
    | _ => .ok none
  | _ => repeated .description context

def readContentType (registry : Registry) (context : Context) (tag : ScopedTag) :
    Except Error ContentType := do
  let d ← Directive.read registry context .contentType tag.1 tag.2
  match d.content with
  | .contentType mediaType => .ok ⟨mediaType, d.traits.version⟩
  | _ => missing .contentType context

/-- The content types: at least one, and at most one without a version. -/
def readContentTypes (registry : Registry) (context : Context) (tags : List ScopedTag) :
    Except Error (List ContentType) :=
  let found := ofKind .contentType tags
  if found.isEmpty then missing .contentType context
  else if 1 < (found.filter (·.2.isNone)).length then repeated .contentType context
  else found.mapM (readContentType registry context)

/-- The directives that are kept, in order; `begun` says that a first version was given. -/
def readKept (registry : Registry) (context : Context) (begun : Bool) :
    List ScopedTag → Except Error (List Directive)
  | [] => .ok []
  | (tag, version) :: rest =>
    match (Kind.ofTag? tag.name).filter isKept with
    | none => readKept registry context begun rest
    | some kind =>
      if kind == .minVersion && begun then repeated .minVersion context
      else do
        let d ← Directive.read registry context kind tag version
        let ds ← readKept registry context (begun || kind == .minVersion) rest
        return d :: ds

/-- A public directive of an action that is private on all its paths. -/
def exposed? (a : Action) : Option Directive :=
  if a.uniformVisibility? == some .internal then
    a.directives.find? fun d => d.kind != .uri && d.traits.isPublic
  else none

def read (registry : Registry) (source : ActionSource) : Except Error Action := do
  let context := source.context
  let tags ← versionScopes context (tagsOf source.docblock)
  let label ← readLabel registry context tags
  let description ← readDescription registry context tags
  let contentTypes ← readContentTypes registry context tags
  let directives ← readKept registry context false tags
  if !directives.any (·.kind == .uri) then missing .uri context
  else
    let action : Action :=
      { owner := source.owner
        method := source.method
        label, description, contentTypes, directives }
    match action.exposed? with
    | some d => .error (.documentation (.publicOnPrivate d.kind.tag) context)
    | none => .ok action

end Action

end VersionedApi
