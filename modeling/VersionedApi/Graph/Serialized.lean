import VersionedApi.Directive.Serialized
import VersionedApi.Graph.Compile

/-!
# The serialized form of a documentation

The JSON forms of actions, representations, views and compilations. A label or a description is an
object with one entry, as it is for the directive of that kind.
-/

namespace VersionedApi

open VersionedApi.Json

def labelJson (text : String) : Value := .object [("label", .string text)]

def descriptionJson (text : Option String) : Value :=
  .ofOption (fun t => .object [("description", .string t)]) text

/-- A content type with the versions that it is bound to. -/
def ContentType.toJson (c : ContentType) : Value :=
  .object (("content_type", .string c.mediaType) ::
    (c.version.map fun r => ("version", Value.string r.text)).toList)

def Action.toJson (a : Action) : Value :=
  .object
    [("class", .string a.owner),
      ("method", .string a.method),
      ("label", labelJson a.label),
      ("description", descriptionJson a.description),
      ("content_types", .array (a.contentTypes.map ContentType.toJson)),
      ("annotations", .array (a.directives.map Directive.toTaggedJson))]

def Representation.toJson (r : Representation) : Value :=
  .object
    [("class", .string r.owner),
      ("label", labelJson r.label),
      ("description", descriptionJson r.description),
      ("fields", .array (r.fields.map DataField.toJson))]

def View.toJson (v : View) : Value :=
  .object
    [("version", .string v.version.text),
      ("actions", .array (v.actions.map Action.toJson)),
      ("representations", .array (v.representations.map Representation.toJson))]

def Compilation.toJson (c : Compilation) : Value :=
  .object [("versions", .array (c.views.map View.toJson)), ("changelog", c.changelog.toJson)]

end VersionedApi
