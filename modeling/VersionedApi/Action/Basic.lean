import VersionedApi.Directive.Basic

/-!
# Actions

* `Action` : one method of a controller with all that is documented about it;
* `Action.routes`, `Action.params`, … : its directives by kind, in order;
* `Action.contentTypeAt?` : the media type in force at a version;
* `Action.breakpoints` : the versions at which something documented holds;
* `Action.at?` : the action as it exists in one version.
-/

namespace VersionedApi

/-- The media type of what an action answers, possibly for some versions only. -/
structure ContentType where
  mediaType : String
  version : Option Version.Range := none
deriving DecidableEq, Repr

/-- A path on which an action is reached. -/
structure Route where
  group : String
  path : String
  traits : Traits
deriving DecidableEq, Repr

/-- One documented method of a controller. -/
structure Action where
  owner : String
  method : String
  label : String
  description : Option String
  contentTypes : List ContentType
  directives : List Directive
deriving DecidableEq, Repr

namespace Action

def routes (a : Action) : List Route :=
  a.directives.filterMap fun d =>
    match d.content with
    | .uri group path => some ⟨group, path, d.traits⟩
    | _ => none

/-- The documented parts of its paths: the path, if the part belongs to one, and the field. -/
def segments (a : Action) : List (Option String × Field) :=
  a.directives.filterMap fun d =>
    match d.content with
    | .uriSegment uri field => some (uri, field)
    | _ => none

def params (a : Action) : List Field :=
  a.directives.filterMap fun d =>
    match d.content with
    | .param field => some field
    | _ => none

def returned (a : Action) : List Response :=
  a.directives.filterMap fun d =>
    match d.content with
    | .returns response => some response
    | _ => none

def thrown (a : Action) : List Response :=
  a.directives.filterMap fun d =>
    match d.content with
    | .throws response => some response
    | _ => none

def scopes (a : Action) : List String :=
  a.directives.filterMap fun d =>
    match d.content with
    | .scope name _ => some name
    | _ => none

/-- The capabilities that the whole action is bound to. -/
def capabilities (a : Action) : List String :=
  a.directives.filterMap fun d =>
    match d.content with
    | .vendorTag name => some name
    | _ => none

def minVersion? (a : Action) : Option Version.Number :=
  a.directives.findSome? fun d =>
    match d.content with
    | .minVersion version => some version
    | _ => none

def responses (a : Action) : List Directive :=
  a.directives.filter (·.kind == .returns) ++ a.directives.filter (·.kind == .throws)

def group (a : Action) : String := (a.routes.head?.map Route.group).getD ""

/-- The media type at a version: the last one bound to versions that include it, or else the first
one not bound to versions, or else the last of all. -/
def contentTypeAt? (a : Action) (version : Option Version.Number) : Option String :=
  let forked := version.bind fun v =>
    (a.contentTypes.filter fun c => c.version.any (·.contains v)).getLast?
  ((forked.or (a.contentTypes.find? (·.version.isNone))).or a.contentTypes.getLast?).map
    ContentType.mediaType

def isPublic (a : Action) : Bool := a.routes.any (·.traits.isPublic)

/-- The visibility that all its paths share, if they do. -/
def uniformVisibility? (a : Action) : Option Visibility :=
  match a.routes.filterMap (·.traits.visibility) with
  | [] => none
  | v :: vs => if vs.all (· == v) then some v else none

def ranges (a : Action) : List Version.Range :=
  a.directives.filterMap (·.traits.version) ++ a.contentTypes.filterMap (·.version)

/-- The versions from one tenth to another, in order. -/
def stretch (first last : Version.Number) : List Version.Number :=
  (List.range (last.tenths + 1 - first.tenths).toNat).filterMap fun (i : Nat) =>
    Version.Number.ofTenths? (first.tenths + i)

/-- The latest of `lower` and the ends of some constraints. -/
def latestEnd (lower : Version.Number) (ranges : List Version.Range) : Version.Number :=
  (ranges.flatMap fun r => r.first.toList ++ r.last.toList).foldl max lower

/-- The versions, from `since` and from the first version of the action on, at which a constraint
holds; an open end reaches to the latest version that a constraint names. The first version of all
is among them. -/
def breakpoints (a : Action) (since : Version.Number) : List Version.Number :=
  let lower := (a.minVersion?.map (max · since)).getD since
  let latest := latestEnd lower a.ranges
  let points := a.ranges.flatMap fun r =>
    stretch (max (r.first.getD lower) lower) (r.last.getD latest)
  ((lower :: points).mergeSort fun x y => decide (x ≤ y)).eraseReps

/-- The action as it exists in a version, or `none` before its first one: the directives in force
and the one media type in force. -/
def at? (a : Action) (v : Version.Number) : Option Action :=
  if a.minVersion?.any (v < ·) then none
  else some
    { a with
      contentTypes :=
        (a.contentTypes.find? fun c => a.contentTypeAt? (some v) == some c.mediaType).toList
      directives := a.directives.filter (·.traits.isAt v) }

end Action

end VersionedApi
