import VersionedApi.Changelog.Build
import VersionedApi.Graph.Filter
import VersionedApi.Representation.Read
import VersionedApi.Sources

/-!
# The graph of a documentation

* `Graph` : all actions and representations, with the supported versions;
* `compile` : the graph of some sources, or the first error in them. Responses name only
  representations of the graph (`missingReference?`).
* `Graph.view` : what exists in one version under a filter; `Graph.changelog` : what changes from
  version to version; `Graph.compilation` : the views of all versions and the changelog.
-/

namespace VersionedApi

structure Graph where
  supported : List Version.Number
  actions : List Action
  representations : List Representation
deriving DecidableEq, Repr

structure View where
  version : Version.Number
  actions : List Action
  representations : List Representation
deriving DecidableEq, Repr

/-- The documentation of all versions, the newest first, and its changelog. -/
structure Compilation where
  views : List View
  changelog : Changelog
deriving Repr

/-- The fault of a response that names a representation which is not known. -/
def unknownReference? (known : List String) (d : Directive) : Option Error :=
  (d.content.representation?.filter fun name => !known.contains (normalizeClass name)).map
    fun name => .documentation (.unknownRepresentation name) d.traits.context

/-- The first fault of this kind among the responses of some actions. -/
def missingReference? (known : List String) (actions : List Action) : Option Error :=
  (actions.flatMap Action.responses).findSome? (unknownReference? known)

def compile (registry : Registry) (supported : List Version.Number) (sources : Sources) :
    Except Error Graph := do
  let index := DocblockIndex.ofSources sources.representations
  let representations ← sources.representations.mapM (Representation.read registry index.find?)
  let actions ← sources.actions.mapM (Action.read registry)
  match missingReference? (representations.map Representation.owner) actions with
  | some e => .error e
  | none => .ok { supported, actions, representations }

namespace Graph

def representation? (g : Graph) (owner : String) : Option Representation :=
  g.representations.find? (·.owner == normalizeClass owner)

/-- What exists in a version under a filter. -/
def view (g : Graph) (version : Version.Number) (filter : Filter) : View :=
  { version
    actions := (g.actions.filterMap filter.action?).filterMap (·.at? version)
    representations :=
      g.representations.map fun r => (filter.representation r).atVersion version }

def changelog (g : Graph) (filter : Filter) : Except Error Changelog :=
  Changelog.build g.supported (g.actions.filterMap filter.action?)
    (g.representations.map filter.representation)

/-- The views of all supported versions, the newest first, and the changelog. -/
def compilation (g : Graph) (filter : Filter) : Except Error Compilation := do
  let changelog ← g.changelog filter
  return { views := g.supported.reverse.map fun v => g.view v filter, changelog }

end Graph

end VersionedApi
