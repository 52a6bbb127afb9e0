import VersionedApi.Command

/-!
# The program

Reads the files that a command needs, runs it, and prints its outcome.
-/

namespace VersionedApi

/-- A file of the file system; the reason of a failure is told from what stands at the path. -/
def readSourceFile (path : String) : IO SourceFile := do
  let text ← try
      let bytes ← IO.FS.readBinFile path
      pure ((String.fromUTF8? bytes).elim (.error .notText) .ok)
    catch
      | .noFileOrDirectory .. => pure (.error .notFound)
      | .inappropriateType .. => pure (.error .isDirectory)
      | _ => pure (.error .notDirectory)
  return { path, text }

/-- The paths of the source files at or below a path, in the order of their names. The first
argument bounds the depth. -/
def sourcePaths : Nat → String → IO (List String)
  | 0, _ => pure []
  | depth + 1, path => do
    let entry : IO.FS.DirEntry := { root := path, fileName := "." }
    let children ← try
        pure (some (← entry.path.readDir))
      catch _ => pure none
    match children with
    | some entries =>
      let names := (entries.toList.map (·.fileName)).mergeSort fun a b => decide (a ≤ b)
      let below ← names.mapM fun name => sourcePaths depth (Path.join path name)
      return below.flatten
    | none =>
      match (← readSourceFile path).text with
      | .error .notFound => return []
      | _ => return if Path.isSourceFile path then [path] else []

def sourceFilesOf (dirs : List String) : IO (List SourceFile) := do
  let paths ← dirs.mapM (sourcePaths 1024)
  paths.flatten.mapM readSourceFile

def loadProject (path : String) : IO (Except Error Project) := do
  match Config.load (← readSourceFile path) with
  | .error e => return .error e
  | .ok config =>
    let controllers ← sourceFilesOf config.controllerDirs
    let representations ← sourceFilesOf config.representationDirs
    return .ok { config, controllers, representations }

def outcomeOf (args : List String) : IO Outcome := do
  match Request.read? args with
  | none => return .misuse
  | some .showVersion => return .version
  | some (.run command) => return command.run (← loadProject command.config)

end VersionedApi

/-- The command line of the program. -/
def main (args : List String) : IO UInt32 := do
  let outcome ← VersionedApi.outcomeOf args
  IO.print outcome.output
  match outcome.complaint with
  | some text => IO.eprint text
  | none => pure ()
  return outcome.exitCode.toUInt32
