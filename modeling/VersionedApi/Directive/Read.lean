import VersionedApi.Directive.Basic
import VersionedApi.Docblock.Tag
import VersionedApi.Error

/-!
# Reading directives

* `decorate` : the traits that the decorators of a tag give, if its kind allows them;
* `Content.read` : the content of a tag's body, by kind;
* `Directive.read` : both together, with the version in force and the place;
* `versionScopes` : the version in force at each tag; `directivesOf` : all directives of a docblock.
-/

namespace VersionedApi

open VersionedApi.Text VersionedApi.Docblock

/-! ## Decorators -/

def decorateOne (kind : Kind) (traits : Traits) (decorator : String) : Except Fault Traits :=
  let refused := Fault.unsupportedDecorator kind.tag decorator
  match decorator with
  | "public" =>
    if kind.needsVisibility then .ok { traits with visibility := some .published }
    else .error refused
  | "private" =>
    if kind.needsVisibility then .ok { traits with visibility := some .internal }
    else .error refused
  | "deprecated" =>
    if kind.allowsDeprecation then .ok { traits with deprecated := true } else .error refused
  | _ => .error refused

/-- The traits of a list of decorators; the first one that the kind does not allow is a fault, and
so is a visibility that is needed and not there. -/
def decorate (kind : Kind) (decorators : List String) : Except Fault Traits := do
  let traits ← decorators.foldlM (decorateOne kind) {}
  if kind.needsVisibility && traits.visibility.isNone then .error (.missingVisibility kind.tag)
  else .ok traits

/-! ## Contents -/

/-- A value, or the fault that a field of a directive is missing. -/
def orMissing {α : Type} (kind : Kind) (field : String) : Option α → Except Fault α
  | some a => .ok a
  | none => .error (.missingField kind.tag field)

def nonempty? (cs : List Char) : Option String :=
  if cs.isEmpty then none else some (String.ofList cs)

/-- The text between braces at the start of a trimmed text, and what follows it behind blanks. -/
def braced? (cs : List Char) : Option (List Char × List Char) :=
  match cs with
  | '\x7b' :: rest =>
    (cutAt ['\x7d'] rest).map fun (inner, behind) => (inner, trimStart behind)
  | _ => none

def readDescribed (kind : Kind) (body : String) : Except Fault Field := do
  let field ← Field.read kind.tag body
  if field.description.isNone then .error (.missingField kind.tag "description") else .ok field

def readUri (body : List Char) : Except Fault Content := do
  let (inner, rest) ← orMissing .uri "group" (braced? (trim body))
  let group ← orMissing .uri "group" (nonempty? (trim inner))
  let path ← orMissing .uri "path" ((words rest).head?.filter (·.head? == some '/'))
  return .uri group (String.ofList path)

/-- A parameter of a path: with the tag `uriSegment` the path that it belongs to stands before it
in braces. -/
def readUriSegment (tag : Tag) : Except Fault Content := do
  if tag.name == "urisegment" then
    let (inner, rest) ← orMissing .uriSegment "uri" (braced? (trim tag.body.toList))
    let uri ← orMissing .uriSegment "uri" (nonempty? (trim inner))
    let field ← readDescribed .uriSegment (String.ofList rest)
    return .uriSegment (some uri) field
  else
    let field ← readDescribed .uriSegment tag.body
    return .uriSegment none field

/-- A scope, and behind a blank its description. -/
def readScope (registry : Registry) (body : List Char) : Except Fault Content := do
  let text := trim body
  let name := text.takeWhile (!isBlank ·)
  let scope ← orMissing .scope "scope" (nonempty? name)
  if registry.hasScope scope then
    return .scope scope (collapsed? (text.dropWhile (!isBlank ·)))
  else .error (.unknownScope scope)

/-- The pointer of a reference: a class, two colons, a method, and a dotted name behind a blank. -/
def reference? (cs : List Char) : Option Reference := do
  let owner := cs.takeWhile isQualified
  let rest ← after? [':', ':'] (cs.dropWhile isQualified)
  let method := rest.takeWhile isWord
  let under := rest.dropWhile isWord
  if owner.isEmpty || method.isEmpty then none
  else if under.isEmpty then some ⟨String.ofList owner, String.ofList method, none⟩
  else
    let outer := trimStart under
    if under.head?.any isBlank && !outer.isEmpty && outer.all (fun c => isWord c || c == '.') then
      some ⟨String.ofList owner, String.ofList method, some (String.ofList outer)⟩
    else none

namespace Content

def read (registry : Registry) (kind : Kind) (tag : Tag) : Except Fault Content :=
  let body := tag.body.toList
  match kind with
  | .label => (orMissing kind "label" (collapsed? body)).map .label
  | .description => (orMissing kind "description" (nonempty? (dedent body))).map .description
  | .uri => readUri body
  | .uriSegment => readUriSegment tag
  | .param => (readDescribed kind tag.body).map .param
  | .returns => do
    let response ← Response.read registry kind.tag tag.body
    if response.errorCode.isSome then .error (.invalidShorthand kind.tag (trimmed tag.body))
    else .ok (.returns response)
  | .throws => do
    let response ← Response.read registry kind.tag tag.body
    if response.representation.isNone then .error (.missingField kind.tag "representation")
    else .ok (.throws response)
  | .contentType => do
    let word ← orMissing kind "content_type" (words body).head?
    return .contentType (String.ofList word)
  | .scope => readScope registry body
  | .vendorTag => do
    let word ← orMissing kind "vendor_tag" (words body).head?
    return .vendorTag (String.ofList word)
  | .minVersion =>
    if allBlank body then .error (.missingField kind.tag "minimum_version")
    else (Version.Number.read tag.body).map .minVersion
  | .data => (readDescribed kind tag.body).map .data
  | .see => (orMissing kind "target" (reference? (trim body))).map .see

end Content

/-! ## Directives and docblocks -/

def Directive.read (registry : Registry) (context : Context) (kind : Kind) (tag : Tag)
    (version : Option Version.Range) : Except Error Directive :=
  located context do
    let traits ← decorate kind tag.decorators
    let content ← Content.read registry kind tag
    return ⟨content, { traits with
      version := if kind.isVersioned then version else none
      context }⟩

/-- The tags other than `@api-version`, each with the version that the last one of these before it
sets, or else `current`. -/
def versionScopesFrom (context : Context) (current : Option Version.Range) :
    List Tag → Except Error (List (Tag × Option Version.Range))
  | [] => .ok []
  | tag :: tags =>
    if tag.name == "version" then do
      let range ← located context (Version.Range.read tag.body)
      versionScopesFrom context (some range) tags
    else do
      let rest ← versionScopesFrom context current tags
      return (tag, current) :: rest

/-- Every tag of a docblock but the version tags, with the version in force there. -/
def versionScopes (context : Context) (tags : List Tag) :
    Except Error (List (Tag × Option Version.Range)) := versionScopesFrom context none tags

/-- The directives of a list of tags; tags of no known kind are passed over. -/
def directivesOf (registry : Registry) (context : Context) (tags : List Tag) :
    Except Error (List Directive) := do
  let entries ← versionScopes context tags
  let known := entries.filterMap fun (tag, version) =>
    (Kind.ofTag? tag.name).map fun kind => (kind, tag, version)
  known.mapM fun (kind, tag, version) => Directive.read registry context kind tag version

end VersionedApi
