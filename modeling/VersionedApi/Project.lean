import VersionedApi.Config
import VersionedApi.FileTree
import VersionedApi.Lint.Check

/-!
# Projects

* `Project` : a configuration with the source files that it names;
* `Project.load` : the project of a configuration file;
* `Project.sources`, `Project.graph` : what is documented in the files; an unreadable one is an
  error;
* `Project.lint` : all issues; an unreadable file is one of them.
-/

namespace VersionedApi

/-- A file with its text, or why it has none. -/
structure SourceFile where
  path : String
  text : Except ReadFault String

def SourceFile.read (f : SourceFile) : Except Error String :=
  f.text.mapError (.unreadable f.path)

/-- A configuration and the source files that it names. -/
structure Project where
  config : Config
  controllers : List SourceFile
  representations : List SourceFile

/-- The configuration of a file. Its paths start from the directory of the file. -/
def Config.load (file : SourceFile) : Except Error Config := do
  let text ← file.read
  let config ← Config.read text
  return { config with root := Path.parentOf file.path }

namespace Project

def fileOf (tree : FileTree) (path : String) : SourceFile := ⟨path, tree.read path⟩

def load (tree : FileTree) (path : String) : Except Error Project := do
  let config ← Config.load (fileOf tree path)
  return {
    config
    controllers := (tree.sourceFiles config.controllerDirs).map (fileOf tree)
    representations := (tree.sourceFiles config.representationDirs).map (fileOf tree) }

def actionsOf (f : SourceFile) : Except Error (List ActionSource) :=
  f.read.map fun text => actionsIn text (some f.path)

def representationsOf (f : SourceFile) : Except Error (List RepresentationSource) :=
  f.read.map fun text => representationsIn text (some f.path)

/-- All that is documented. -/
def sources (p : Project) : Except Error Sources := do
  let actions ← p.controllers.mapM actionsOf
  let representations ← p.representations.mapM representationsOf
  return { actions := actions.flatten, representations := representations.flatten }

def graph (p : Project) : Except Error Graph := do
  let sources ← p.sources
  compile p.config.registry p.config.supported sources

/-- What is documented in one file more; an issue if the file cannot be read. -/
def collect {α : Type} (extract : SourceFile → Except Error (List α))
    (run : Lint.Findings × List α) (f : SourceFile) : Lint.Findings × List α :=
  match extract f with
  | .ok found => (run.1, run.2 ++ found)
  | .error e => (run.1.pushError e f.path 0, run.2)

/-- The issues of all files: first those that cannot be read, then those of the documentation in
the others. -/
def lint (p : Project) : Lint.Findings :=
  let start : Lint.Findings :=
    { files := (p.controllers.length + p.representations.length).toUInt64 }
  let (f, actions) := p.controllers.foldl (collect actionsOf) (start, [])
  let (f, representations) := p.representations.foldl (collect representationsOf) (f, [])
  f.merge (Lint.lint p.config.registry { actions, representations })

end Project

end VersionedApi
