import VersionedApi.Action.Basic
import VersionedApi.Changelog.Index
import VersionedApi.Representation.Basic

/-!
# What changes from version to version

`Changelog.build` compares what is documented along a timeline of supported versions: every
constraint adds something where it begins and removes it where it is over, a content type that is
bound to versions changes there, and an action with a first version is added at it. A change of an
action is listed for each of its paths.
-/

namespace VersionedApi

open VersionedApi.Json

/-- A payload: an object with its keys in order. -/
def payloadOf (entries : List (String × Value)) : Value := (Value.object entries).canonical

namespace Action

def changesOf (a : Action) (version : Version.Number) (definition : Definition)
    (subject : Subject) (payload : Value) : List Change :=
  a.routes.map fun route =>
    { version, definition, subject
      group := route.group
      owner := a.owner
      path := some (Text.cleanPath route.path)
      payload }

/-- What a directive says of an action as a change, if changelogs list directives of its kind. -/
def payload? (a : Action) (d : Directive) : Option (Subject × Value) :=
  let method : String × Value := ("method", .string a.method)
  match d.content with
  | .param field =>
    some (.actionParam, payloadOf
      [method, ("field", .string field.name), ("description", .ofString? field.description)])
  | .returns response =>
    some (.actionReturn, payloadOf
      [method, ("http_code", .ofNat response.code),
        ("representation", .ofString? response.representation)])
  | .throws response =>
    some (.actionThrows, payloadOf
      [method, ("http_code", .ofNat response.code),
        ("representation", .ofString? response.representation),
        ("description", .ofString? response.description)])
  | _ => none

/-- The versions that an action exists in, if it has a first one. -/
def lifetime (a : Action) : Except Error (Option Version.Range) :=
  match a.minVersion? with
  | none => .ok none
  | some first => (located {} (Version.Range.since first)).map some

/-- The action itself, where the versions that it exists in begin. -/
def ownChanges (supported : List Version.Number) (a : Action) (lifetime : Version.Range) :
    List Change :=
  (Version.introduced? lifetime.toInterval supported).toList.flatMap fun v =>
    a.changesOf v .added .action
      (payloadOf [("method", .string a.method), ("label", .string a.label)])

/-- A directive, where its versions begin and where they are over. -/
def directiveChanges (supported : List Version.Number) (a : Action) (d : Directive) :
    List Change :=
  match d.traits.version, a.payload? d with
  | some range, some (subject, payload) =>
    ((Version.introduced? range.toInterval supported).toList.flatMap fun v =>
      a.changesOf v .added subject payload) ++
    ((Version.removed? range.toInterval supported).toList.flatMap fun v =>
      a.changesOf v .removed subject payload)
  | _, _ => []

/-- The media type in force where the versions of a content type begin and where they are over. -/
def contentTypeChanges (supported : List Version.Number) (a : Action) (c : ContentType) :
    List Change :=
  match c.version with
  | none => []
  | some range =>
    ((Version.introduced? range.toInterval supported).toList ++
      (Version.removed? range.toInterval supported).toList).flatMap fun v =>
        (a.contentTypeAt? (some v)).toList.flatMap fun mediaType =>
          a.changesOf v .changed .contentType
            (payloadOf [("method", .string a.method), ("content_type", .string mediaType)])

def changes (supported : List Version.Number) (a : Action) : Except Error (List Change) := do
  let lifetime ← a.lifetime
  return lifetime.toList.flatMap (a.ownChanges supported) ++
    a.directives.flatMap (a.directiveChanges supported) ++
    a.contentTypes.flatMap (a.contentTypeChanges supported)

end Action

namespace Representation

def payload (f : DataField) : Value :=
  payloadOf
    [("field", .string f.field.name), ("type", .string f.field.typeName),
      ("description", .ofString? f.field.description)]

def fieldChanges (supported : List Version.Number) (r : Representation) (f : DataField) :
    List Change :=
  match f.traits.version with
  | none => []
  | some range =>
    let change (definition : Definition) (version : Version.Number) : Change :=
      { version, definition
        subject := .representationData
        group := r.label
        owner := r.owner
        path := none
        payload := payload f }
    ((Version.introduced? range.toInterval supported).map (change .added)).toList ++
      ((Version.removed? range.toInterval supported).map (change .removed)).toList

def changes (supported : List Version.Number) (r : Representation) : List Change :=
  r.fields.flatMap (r.fieldChanges supported)

end Representation

def Changelog.build (supported : List Version.Number) (actions : List Action)
    (representations : List Representation) : Except Error Changelog := do
  let ofActions ← actions.mapM (·.changes supported)
  let (result, builder) := Builder.recordAll {}
    (ofActions.flatten ++ representations.flatMap (·.changes supported))
  result
  return builder.build

end VersionedApi
