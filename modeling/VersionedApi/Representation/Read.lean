import VersionedApi.Directive.Serialized
import VersionedApi.Representation.Basic

/-!
# Reading representations

* `fieldsOf` : the fields that the docblock of a member documents. A reference in it stands for the
  fields of the docblock that it points at, taken over by `DataField.reuse`; chains of references
  have at most `maxHops` hops.
* `Representation.read` : a class with the fields of all its members. Names are unique, and a field
  whose name extends the name of another by one part is nested under something that can hold it.

Docblocks are looked up by a function from class and method, such as `DocblockIndex.find?`.
-/

namespace VersionedApi

open VersionedApi.Text VersionedApi.Docblock

/-- The items with those of `extra` behind them that are not there yet. -/
def mergeUnique (items extra : List String) : List String :=
  extra.foldl (fun acc x => if acc.contains x then acc else acc ++ [x]) items

def maxHops : Nat := 8

namespace DataField

/-- The field bound to more scopes and vendor tags. -/
def gate (f : DataField) (scopes vendorTags : List String) : DataField :=
  { f with traits :=
    { f.traits with
      scopes := mergeUnique f.traits.scopes scopes
      vendorTags := mergeUnique f.traits.vendorTags vendorTags } }

/-- The field as a reference takes it over, by way of its serialized form: its name goes under that
of the reference, the reference's own version counts before its version, and it stands where the
reference stands. -/
def reuse (f : DataField) (reference : Reference) (traits : Traits) : Except Error DataField := do
  let renamed := f.toJson.set "field" (.string (reference.rename f.name))
  let version := traits.version.or f.traits.version
  let d ← Directive.hydrate .data renamed version traits.context
  match d.content with
  | .data field => .ok (gate ⟨field, d.traits⟩ traits.scopes traits.vendorTags)
  | _ => .ok f

end DataField

def scopesIn (directives : List Directive) : List String :=
  directives.filterMap fun d =>
    match d.content with
    | .scope name _ => some name
    | _ => none

def vendorTagsIn (directives : List Directive) : List String :=
  directives.filterMap fun d =>
    match d.content with
    | .vendorTag name => some name
    | _ => none

/-- The fields that a directive documents, given what a reference stands for. -/
def fieldsUnder (follow : Reference → Traits → Except Error (List DataField)) (d : Directive) :
    Except Error (List DataField) :=
  match d.content with
  | .data field => .ok [⟨field, d.traits⟩]
  | .see reference => follow reference d.traits
  | _ => .ok []

/-- The fields of a docblock, given what each reference in it stands for; all are bound to the
scopes and vendor tags that the docblock names. -/
def gatherFields (registry : Registry) (follow : Reference → Traits → Except Error (List DataField))
    (context : Context) (docblock : String) : Except Error (List DataField) := do
  let directives ← directivesOf registry context (tagsOf docblock)
  let fields ← directives.mapM (fieldsUnder follow)
  return fields.flatten.map (·.gate (scopesIn directives) (vendorTagsIn directives))

def unresolved (reference : Reference) (context : Context) : Error :=
  .documentation (.unresolvedReference reference.target) context

/-- What a reference stands for: the fields of the docblock that it points at, each taken over. -/
def follow (docblockOf : String → String → Option String)
    (fieldsAt : Context → String → Except Error (List DataField)) (reference : Reference)
    (traits : Traits) : Except Error (List DataField) :=
  match docblockOf reference.owner reference.method with
  | none => .error (unresolved reference traits.context)
  | some docblock => do
    let context := Context.ofMethod (normalizeClass reference.owner) reference.method docblock
    let nested ← fieldsAt context docblock
    nested.mapM (·.reuse reference traits)

/-- The fields of a docblock, references in it being followed over at most `hops` hops. -/
def fieldsOf (registry : Registry) (docblockOf : String → String → Option String) :
    (hops : Nat) → Context → String → Except Error (List DataField)
  | 0 => gatherFields registry fun reference traits => .error (unresolved reference traits.context)
  | hops + 1 => gatherFields registry (follow docblockOf (fieldsOf registry docblockOf hops))

namespace Representation

/-- The first field of a list with a name that was seen before it. -/
def duplicate? (seen : List String) : List DataField → Option DataField
  | [] => none
  | f :: fs => if seen.contains f.name then some f else duplicate? (f.name :: seen) fs

/-- The fields of members in order, none of them with a name in `seen`. -/
def readMembers (registry : Registry) (docblockOf : String → String → Option String)
    (owner : String) (seen : List String) : List MemberSource → Except Error (List DataField)
  | [] => .ok []
  | m :: ms => do
    let context := Context.ofMethod owner m.method m.docblock
    let fields ← fieldsOf registry docblockOf maxHops context m.docblock
    match duplicate? seen fields with
    | some f => .error (.documentation (.duplicateField f.name owner) context)
    | none =>
      let rest ← readMembers registry docblockOf owner (fields.map DataField.name ++ seen) ms
      return fields ++ rest

def parent? (name : String) : Option String :=
  match (pieces (· == '.') name.toList).dropLast with
  | [] => none
  | parts => some (String.ofList (joinWith ['.'] parts))

/-- The fault of a field that is nested under one that holds no others. -/
def misplaced? (fields : List DataField) (f : DataField) : Option Error := do
  let parent ← parent? f.name
  let outer ← fields.find? (·.name == parent)
  if outer.field.isNestable then none
  else some (.documentation (.scalarParent f.name parent outer.field.typeText) f.traits.context)

/-- Label and description of a class, the first of them that is repeated being the error. -/
def readHeading (context : Context) :
    Option String → Option String → List Directive →
      Except Error (Option String × Option String)
  | label, description, [] => .ok (label, description)
  | label, description, d :: ds =>
    match d.content with
    | .label text =>
      if label.isSome then .error (.documentation (.repeatedDirective Kind.label.tag) context)
      else readHeading context (some text) description ds
    | .description text =>
      if description.isSome then
        .error (.documentation (.repeatedDirective Kind.description.tag) context)
      else readHeading context label (some text) ds
    | _ => readHeading context label description ds

def read (registry : Registry) (docblockOf : String → String → Option String)
    (source : RepresentationSource) : Except Error Representation := do
  let context := Context.ofClass source.owner source.docblock
  let tags := tagsOf source.docblock
  if tags.isEmpty then .error (.documentation .noDirectives context)
  else
    let directives ← directivesOf registry context tags
    match ← readHeading context none none directives with
    | (none, _) => .error (.documentation (.missingDirective Kind.label.tag) context)
    | (some label, description) =>
      let fields ← readMembers registry docblockOf source.owner [] source.members
      if fields.isEmpty then .error (.documentation .noDirectives context)
      else
        match fields.findSome? (misplaced? fields) with
        | some e => .error e
        | none => .ok { owner := source.owner, label, description, fields }

end Representation

end VersionedApi
