import VersionedApi.Directive.Kind
import VersionedApi.Response
import VersionedApi.Version.Range

/-!
# Directives

* `Traits` : what a directive of any kind can carry: version, visibility, deprecation, scopes,
  vendor tags, and the place where it stands;
* `Content` : what a directive says, by kind; `Reference` : a pointer to the fields of another
  docblock;
* `Directive` : content with traits; `DataField` : the directives that document a field.
-/

namespace VersionedApi

open VersionedApi.Text

/-- Who may see a directive. -/
inductive Visibility where
  /-- Marked `:public`. -/
  | published
  /-- Marked `:private`. -/
  | internal
deriving DecidableEq, Repr

def Visibility.word : Visibility → String
  | published => "public"
  | internal => "private"

/-- What directives of all kinds share. -/
structure Traits where
  version : Option Version.Range := none
  visibility : Option Visibility := none
  deprecated : Bool := false
  scopes : List String := []
  vendorTags : List String := []
  context : Context := {}
deriving DecidableEq, Repr

namespace Traits

def isPublic (t : Traits) : Bool := t.visibility == some .published

def isPrivate (t : Traits) : Bool := t.visibility == some .internal

/-- In force at a version; without a version, at every one. -/
def isAt (t : Traits) (v : Version.Number) : Bool := t.version.all (·.contains v)

end Traits

/-- A pointer to the fields that the docblock of `owner::method` documents, to be taken over under
the dotted name `under`. -/
structure Reference where
  owner : String
  method : String
  under : Option String := none
deriving DecidableEq, Repr

namespace Reference

def target (r : Reference) : String := r.owner ++ "::" ++ r.method

/-- The name of a field that is taken over. -/
def rename (r : Reference) (name : String) : String :=
  match r.under with
  | some outer => outer ++ "." ++ name
  | none => name

end Reference

/-- What a directive says. -/
inductive Content where
  | label (text : String)
  | description (text : String)
  | uri (group path : String)
  | uriSegment (uri : Option String) (field : Field)
  | param (field : Field)
  | returns (response : Response)
  | throws (response : Response)
  | contentType (mediaType : String)
  | scope (name : String) (description : Option String)
  | vendorTag (name : String)
  | minVersion (version : Version.Number)
  | data (field : Field)
  | see (reference : Reference)
deriving DecidableEq, Repr

namespace Content

def kind : Content → Kind
  | label _ => .label
  | description _ => .description
  | uri .. => .uri
  | uriSegment .. => .uriSegment
  | param _ => .param
  | returns _ => .returns
  | throws _ => .throws
  | contentType _ => .contentType
  | scope .. => .scope
  | vendorTag _ => .vendorTag
  | minVersion _ => .minVersion
  | data _ => .data
  | see _ => .see

/-- The capability written into a shorthand. -/
def capability? : Content → Option String
  | uriSegment _ field => field.capability
  | param field => field.capability
  | data field => field.capability
  | returns response => response.capability
  | throws response => response.capability
  | _ => none

/-- A documented part of a path belongs to the path that it names, or to all if it names none. -/
def appliesTo : Content → String → Bool
  | uriSegment own _, path => own.all (· == path)
  | _, _ => false

def representation? : Content → Option String
  | returns response => response.representation
  | throws response => some (response.representation.getD "")
  | _ => none

end Content

structure Directive where
  content : Content
  traits : Traits
deriving DecidableEq, Repr

namespace Directive

def kind (d : Directive) : Kind := d.content.kind

/-- All vendor tags that a directive is bound to, the capability of its shorthand first. -/
def vendorTags (d : Directive) : List String := d.content.capability?.toList ++ d.traits.vendorTags

end Directive

/-- A documented field of a representation. -/
structure DataField where
  field : Field
  traits : Traits
deriving DecidableEq, Repr

namespace DataField

def name (f : DataField) : String := f.field.name

def directive (f : DataField) : Directive := ⟨.data f.field, f.traits⟩

def vendorTags (f : DataField) : List String := f.directive.vendorTags

end DataField

namespace Text

/-- A path whose parameters, names behind plus signs, are put in braces. -/
def cleanPath (path : String) : String := String.ofList (go none path.toList)
where
  /-- `name` holds the characters of a parameter, the latest first, once its plus sign is read. -/
  go (name : Option (List Char)) : List Char → List Char
    | [] => closed name
    | c :: cs =>
      match name with
      | some letters =>
        if isWord c then go (some (c :: letters)) cs
        else if c == '+' then closed name ++ go (some []) cs
        else closed name ++ c :: go none cs
      | none => if c == '+' then go (some []) cs else c :: go none cs
  /-- The text of a parameter; a plus sign without a name stays as it is. -/
  closed : Option (List Char) → List Char
    | none => []
    | some [] => ['+']
    | some letters => '\x7b' :: letters.reverse ++ ['\x7d']

end Text

end VersionedApi
