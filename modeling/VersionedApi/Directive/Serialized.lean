import VersionedApi.Directive.Read
import VersionedApi.Json.Record

/-!
# The serialized form of directives

* `Directive.toJson` : content and traits in one object; `Directive.toTaggedJson` names the kind
  as well; the place of a directive is not part of it;
* `Directive.hydrate` : the directive of a serialized form, under a version and at a place that are
  given from outside.
-/

namespace VersionedApi

open VersionedApi.Json

/-! ## Writing -/

namespace Field

/-- The options of an enumeration as an object. -/
def valuesJson (values : List (String × String)) : Value :=
  .object (values.map fun (option, text) => (option, .string text))

/-- The entries of a field; all are always there. -/
def entries (f : Field) : List (String × Value) :=
  [("field", .string f.name),
    ("sample_data", .ofString? f.sample),
    ("type", .string f.typeName),
    ("subtype", .ofString? f.subtype),
    ("required", .bool f.required),
    ("nullable", .bool f.nullable),
    ("capability", .ofString? f.capability),
    ("description", .ofString? f.description),
    ("values", .ofOption valuesJson f.values)]

end Field

/-- The entries of a response; all are always there. -/
def Response.entries (r : Response) : List (String × Value) :=
  [("http_code", .ofNat r.code),
    ("representation", .ofString? r.representation),
    ("error_code", .ofString? r.errorCode),
    ("capability", .ofString? r.capability),
    ("description", .ofString? r.description)]

/-- The entries of the traits; what says nothing is left out. -/
def Traits.entries (t : Traits) : List (String × Value) :=
  (t.version.map fun r => ("version", Value.string r.text)).toList ++
    (t.visibility.map fun v => ("visibility", Value.string v.word)).toList ++
    (if t.deprecated then [("deprecated", Value.bool true)] else []) ++
    (if t.scopes.isEmpty then [] else [("scopes", Value.ofStrings t.scopes)]) ++
    (if t.vendorTags.isEmpty then [] else [("vendor_tags", Value.ofStrings t.vendorTags)])

def Content.entries : Content → List (String × Value)
  | label text => [("label", .string text)]
  | description text => [("description", .string text)]
  | uri group path => [("group", .string group), ("path", .string path)]
  | uriSegment path field => ("uri", .ofString? path) :: field.entries
  | param field => field.entries
  | returns response => response.entries
  | throws response => response.entries
  | contentType mediaType => [("content_type", .string mediaType)]
  | scope name text => [("scope", .string name), ("description", .ofString? text)]
  | vendorTag name => [("vendor_tag", .string name)]
  | minVersion version => [("minimum_version", .string version.text)]
  | data field => field.entries
  | see r =>
    [("class", .string r.owner), ("method", .string r.method), ("prefix", .ofString? r.under)]

namespace Directive

def toJson (d : Directive) : Value := .object (d.content.entries ++ d.traits.entries)

/-- The serialized form with the kind in front. -/
def toTaggedJson (d : Directive) : Value :=
  .object (("kind", .string d.kind.key) :: d.content.entries ++ d.traits.entries)

end Directive

def DataField.toJson (f : DataField) : Value := f.directive.toJson

/-! ## Reading -/

/-- The string texts of an object's values. -/
def Field.values? (v : Value) : Option (List (String × String)) :=
  v.entries?.bind (·.mapM fun (option, text) => text.asText?.map fun t => (option, t))

def Field.ofJson? (v : Value) : Option Field := do
  return {
    name := ← v.text? "field"
    sample := ← v.textOrNull? "sample_data"
    typeName := ← v.text? "type"
    subtype := ← v.textOrNull? "subtype"
    required := ← v.flag? "required"
    nullable := ← v.flag? "nullable"
    capability := ← v.textOrNull? "capability"
    description := ← v.textOrNull? "description"
    values := ← v.optional? Field.values? "values" }

def Response.ofJson? (v : Value) : Option Response := do
  return {
    code := ← ((v.get? "http_code").bind Value.asNat?).filter (· ≤ 65535)
    representation := ← v.textOrNull? "representation"
    errorCode := ← v.textOrNull? "error_code"
    capability := ← v.textOrNull? "capability"
    description := ← v.textOrNull? "description" }

def Visibility.ofJson? (v : Value) : Option Visibility :=
  match Value.word? (fun w => w.isNull || w.isEmptyObject) v with
  | some "public" => some .published
  | some "private" => some .internal
  | _ => none

def rangeOfJson? (v : Value) : Option Version.Range :=
  v.asText?.bind fun s => (Version.Range.read s).toOption

def numberOfJson? (v : Value) : Option Version.Number :=
  v.asText?.bind fun s => Version.Number.ofText? s.toList

def Traits.ofJson? (v : Value) : Option Traits := do
  return {
    version := ← v.optional? rangeOfJson? "version"
    visibility := ← v.optional? Visibility.ofJson? "visibility"
    deprecated := ← v.flag? "deprecated"
    scopes := ← v.texts? "scopes"
    vendorTags := ← v.texts? "vendor_tags" }

/-- The content of an object, by kind. -/
def Content.ofJson? (kind : Kind) (v : Value) : Option Content := do
  match kind with
  | .label => return .label (← v.text? "label")
  | .description => return .description (← v.text? "description")
  | .uri => return .uri (← v.text? "group") (← v.text? "path")
  | .uriSegment => return .uriSegment (← v.textOrNull? "uri") (← Field.ofJson? v)
  | .param => return .param (← Field.ofJson? v)
  | .returns => return .returns (← Response.ofJson? v)
  | .throws => return .throws (← Response.ofJson? v)
  | .contentType => return .contentType (← v.text? "content_type")
  | .scope => return .scope (← v.text? "scope") (← v.textOrNull? "description")
  | .vendorTag => return .vendorTag (← v.text? "vendor_tag")
  | .minVersion => return .minVersion (← (v.get? "minimum_version").bind numberOfJson?)
  | .data => return .data (← Field.ofJson? v)
  | .see =>
    return .see ⟨← v.text? "class", ← v.text? "method", ← v.textOrNull? "prefix"⟩

/-- The directive of a serialized form. Its version is the given one, if the kind has versions at
all, and not the serialized one, which only has to be readable. -/
def Directive.hydrate (kind : Kind) (v : Value) (version : Option Version.Range)
    (context : Context) : Except Error Directive :=
  let read? : Option Directive := do
    let content ← Content.ofJson? kind v
    let traits ← Traits.ofJson? v
    return ⟨content, { traits with
      version := if kind.isVersioned then version else none
      context }⟩
  match read? with
  | some d => .ok d
  | none => .error .malformedValue

end VersionedApi
