/-!
# Kinds of directives

A `Kind` is what an `@api-` tag is about. `Kind.ofTag?` finds it from a tag, `Kind.tag` names it in
messages, `Kind.key` in serialized form; the predicates say what a directive of the kind may carry.
-/

namespace VersionedApi

inductive Kind where
  | label
  | description
  | uri
  | uriSegment
  | param
  | returns
  | throws
  | contentType
  | scope
  | vendorTag
  | minVersion
  | data
  | see
deriving DecidableEq, Repr

namespace Kind

/-- The kind of a tag in lower case; several have two spellings. -/
def ofTag? : String → Option Kind
  | "label" => some label
  | "description" => some description
  | "uri" | "path" => some uri
  | "urisegment" | "pathparam" => some uriSegment
  | "param" => some param
  | "return" => some returns
  | "throws" | "error" => some throws
  | "contenttype" => some contentType
  | "scope" => some scope
  | "capability" | "vendortag" => some vendorTag
  | "minversion" => some minVersion
  | "data" => some data
  | "see" => some see
  | _ => none

/-- The tag by which messages name the kind. -/
def tag : Kind → String
  | label => "label"
  | description => "description"
  | uri => "uri"
  | uriSegment => "uriSegment"
  | param => "param"
  | returns => "return"
  | throws => "throws"
  | contentType => "contentType"
  | scope => "scope"
  | vendorTag => "vendorTag"
  | minVersion => "minVersion"
  | data => "data"
  | see => "see"

/-- The name of the kind in serialized form. -/
def key : Kind → String
  | label => "label"
  | description => "description"
  | uri => "uri"
  | uriSegment => "uri_segment"
  | param => "param"
  | returns => "return"
  | throws => "error"
  | contentType => "content_type"
  | scope => "scope"
  | vendorTag => "vendor_tag"
  | minVersion => "min_version"
  | data => "data"
  | see => "see"

def all : List Kind :=
  [label, description, uri, uriSegment, param, returns, throws, contentType, scope, vendorTag,
    minVersion, data, see]

def ofKey? (name : String) : Option Kind := all.find? (·.key == name)

/-- A version scope applies to directives of the kind. -/
def isVersioned : Kind → Bool
  | param | returns | throws | contentType | data | see => true
  | _ => false

/-- A directive of the kind says whether it is public or private. -/
def needsVisibility : Kind → Bool
  | uri | param | returns | throws => true
  | _ => false

def allowsDeprecation : Kind → Bool
  | uri | param | data => true
  | _ => false

def allowsScopes : Kind → Bool
  | data | see => true
  | _ => false

def allowsVendorTags : Kind → Bool
  | param | returns | throws | data | see => true
  | _ => false

end Kind

end VersionedApi
