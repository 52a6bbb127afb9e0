import VersionedApi.Error
import VersionedApi.Graph.Filter
import VersionedApi.Json.Value
import VersionedApi.Path
import VersionedApi.Response
import VersionedApi.Toml.Document
import VersionedApi.Toml.Record

/-!
# Configuration

* `Config` : the supported versions of a project, the names that it declares, where its sources
  are, and what of them is compiled;
* `Config.read` : the configuration of a TOML text. Supported versions ascend, and the default
  version is one of them (`Config.fault?`).
-/

namespace VersionedApi

structure Scope where
  name : String
  description : Option String := none
deriving DecidableEq, Repr

structure Config where
  name : String := "API"
  supported : List Version.Number := [.one]
  /-- The version that is shown if none is asked for; the latest if not given. -/
  preferred : Option Version.Number := none
  capabilities : List String := []
  scopes : List Scope := []
  controllers : List String := ["src/Controllers"]
  representations : List String := ["src/Representations"]
  filter : Filter := {}
  /-- The directory that relative paths start from. -/
  root : String := "."
deriving DecidableEq, Repr

namespace Config

open VersionedApi.Toml

/-! ## Reading -/

def version? (v : Toml.Value) : Option Version.Number :=
  v.asText?.bind fun s => Version.Number.ofText? s.toList

/-- The supported versions and the default one. -/
def versions? (v : Toml.Value) : Option (List Version.Number × Option Version.Number) := do
  let r ← v.asRecord? ["supported", "default"]
  let supported ← r.required? (·.asList? version?) "supported"
  let preferred ← r.optional? version? "default"
  return (supported, preferred)

def scope? (v : Toml.Value) : Option Scope := do
  let r ← v.asRecord? ["name", "description"]
  let name ← r.required? Value.asText? "name"
  let description ← r.optional? Value.asText? "description"
  return { name, description }

/-- The directories of controllers and of representations. -/
def paths? (v : Toml.Value) : Option (List String × List String) := do
  let r ← v.asRecord? ["controllers", "representations"]
  let base : Config := {}
  let controllers ← r.orDefault? Value.asTexts? base.controllers "controllers"
  let representations ← r.orDefault? Value.asTexts? base.representations "representations"
  return (controllers, representations)

/-- What is compiled. -/
def filter? (v : Toml.Value) : Option Filter := do
  let r ← v.asRecord? ["excluded_groups", "include_private", "vendor_tags"]
  let excludedGroups ← r.orDefault? Value.asTexts? [] "excluded_groups"
  let includePrivate ← r.orDefault? Value.asBool? false "include_private"
  let vendorTags ← r.optional? Value.asTexts? "vendor_tags"
  return { includePrivate, vendorTags, excludedGroups }

/-- The configuration of a table; keys that it does not know do not count. -/
def ofToml? (v : Toml.Value) : Option Config := do
  let r ← v.asRecord? []
  let base : Config := {}
  let name ← r.orDefault? Value.asText? base.name "name"
  let (supported, preferred) ← r.required? versions? "versions"
  let capabilities ← r.orDefault? Value.asTexts? [] "capabilities"
  let scopes ← r.orDefault? (·.asList? scope?) [] "scopes"
  let (controllers, representations) ←
    r.orDefault? paths? (base.controllers, base.representations) "paths"
  let filter ← r.orDefault? filter? {} "compile"
  return {
    name, supported, preferred, capabilities, scopes, controllers, representations, filter
    root := "" }

/-- The first pair of neighbours that does not ascend. -/
def descent? : List Version.Number → Option (Version.Number × Version.Number)
  | [] => none
  | [_] => none
  | a :: b :: rest => if a < b then descent? (b :: rest) else some (a, b)

/-- What is wrong with the versions of a configuration. -/
def fault? (c : Config) : Option ConfigFault :=
  if c.supported.isEmpty then some .noVersions
  else
    match descent? c.supported with
    | some (a, b) => some (.unordered a b)
    | none => (c.preferred.filter (!c.supported.contains ·)).map .unsupportedDefault

def read (text : String) : Except Error Config :=
  match (Toml.read? text).bind ofToml? with
  | none => .error (.configuration .malformed)
  | some c =>
    match c.fault? with
    | some fault => .error (.configuration fault)
    | none => .ok c

/-! ## Use -/

def firstVersion (c : Config) : Version.Number := c.supported.head?.getD .one

/-- The version that is shown if none is asked for. -/
def defaultVersion (c : Config) : Version.Number :=
  (c.preferred.or c.supported.getLast?).getD .one

/-- The names that are declared. -/
def registry (c : Config) : Registry := .ofNames c.capabilities (c.scopes.map Scope.name)

/-- A path of the configuration, from the working directory. -/
def resolve (c : Config) (path : String) : String := Path.join c.root path

def controllerDirs (c : Config) : List String := c.controllers.map c.resolve

def representationDirs (c : Config) : List String := c.representations.map c.resolve

/-! ## Serialized form -/

def filterJson (f : Filter) : Json.Value :=
  .object
    [("excluded_groups", .ofStrings f.excludedGroups),
      ("include_private", .bool f.includePrivate),
      ("vendor_tags", .ofOption .ofStrings f.vendorTags)]

/-- The serialized form of a configuration; the root is not part of it. -/
def toJson (c : Config) : Json.Value :=
  .object
    [("name", .string c.name),
      ("versions", .object
        [("supported", .ofStrings (c.supported.map Version.Number.text)),
          ("default", .ofString? (c.preferred.map Version.Number.text))]),
      ("capabilities", .ofStrings c.capabilities),
      ("scopes", .array (c.scopes.map fun s =>
        .object [("name", .string s.name), ("description", .ofString? s.description)])),
      ("paths", .object
        [("controllers", .ofStrings c.controllers),
          ("representations", .ofStrings c.representations)]),
      ("compile", filterJson c.filter)]

end Config

end VersionedApi
