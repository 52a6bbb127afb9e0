import VersionedApi.Graph.Compile
import VersionedApi.Lint.Issue

/-!
# Linting sources

`lint` reads every source and reports all that is wrong with it, where `compile` stops at the first
error: representations first, then actions, which may refer only to representations that were read.
-/

namespace VersionedApi.Lint

/-- One representation more: an issue if its source is rejected, or else its class becomes known. -/
def checkRepresentation (registry : Registry) (index : DocblockIndex)
    (run : Findings × List String) (source : RepresentationSource) : Findings × List String :=
  let f := { run.1 with representations := run.1.representations + 1 }
  match Representation.read registry index.find? source with
  | .ok r => (f, run.2 ++ [r.owner])
  | .error e => (f.pushError e (source.file.getD "") source.line, run.2)

/-- One response more: an issue if its representation is not known. -/
def checkResponse (known : List String) (source : ActionSource) (f : Findings) (d : Directive) :
    Findings :=
  match unknownReference? known d with
  | some e => f.pushError e (source.file.getD "") source.line
  | none => f

def warning (source : ActionSource) (a : Action) (code lack hint : String) : Issue :=
  { severity := .warning
    code
    message := a.owner ++ "::" ++ a.method ++ " " ++ lack
    file := source.file.getD ""
    line := source.line
    suggestion := some hint }

/-- One action more: an issue if its source is rejected, or else those of its responses and what it
lacks. -/
def checkAction (registry : Registry) (known : List String) (f : Findings)
    (source : ActionSource) : Findings :=
  let f := { f with actions := f.actions + 1 }
  match Action.read registry source with
  | .error e => f.pushError e (source.file.getD "") source.line
  | .ok a =>
    let f := a.responses.foldl (checkResponse known source) f
    let f := if a.description.isNone then
        f.push (warning source a "W001" "has no @api-description" "Add @api-description <text>")
      else f
    if a.responses.isEmpty then
      f.push (warning source a "W002" "documents no responses" "Add @api-return or @api-throws")
    else f

def lint (registry : Registry) (sources : Sources) : Findings :=
  let index := DocblockIndex.ofSources sources.representations
  let (f, known) := sources.representations.foldl (checkRepresentation registry index) ({}, [])
  sources.actions.foldl (checkAction registry known) f

end VersionedApi.Lint
