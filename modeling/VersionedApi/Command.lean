import VersionedApi.Project
import VersionedApi.Report

/-!
# The command line

* `Task` : what is asked for; `Command` : a task with its configuration file and format;
* `Request.read?` : the request of a list of arguments, or `none` if they make none;
* `Command.run` : what a command prints, and its exit code (`Outcome`).
-/

namespace VersionedApi

/-! ## Arguments -/

/-- An option of a command. -/
structure Switch where
  name : String
  /-- The letter that may stand for the name behind a single dash. -/
  letter : Option Char := none
  takesValue : Bool := true
deriving DecidableEq, Repr

def Switch.config : Switch := { name := "config", letter := some 'c' }

def Switch.format : Switch := { name := "format", letter := some 'f' }

def Switch.apiVersion : Switch := { name := "api-version" }

def Switch.all : Switch := { name := "all", takesValue := false }

/-- Private directives are shown, too. -/
def Switch.unveil : Switch := { name := "private", takesValue := false }

def Switch.version : Switch := { name := "version", letter := some 'V', takesValue := false }

/-- The options that are given, with their values. -/
abbrev Given := List (String × String)

/-- One argument that is an option: the option, and the value if it stands in the argument. Behind
a letter whose option takes no value nothing is read. -/
def Switch.match? (switches : List Switch) (arg : List Char) :
    Option (Switch × Option String) :=
  match arg with
  | '-' :: '-' :: body => do
    let name := String.ofList (body.takeWhile (· != '='))
    let s ← switches.find? (·.name == name)
    match body.dropWhile (· != '=') with
    | [] => return (s, none)
    | _ :: text => return (s, some (String.ofList text))
  | '-' :: letter :: text => do
    let s ← switches.find? (·.letter == some letter)
    if text.isEmpty || !s.takesValue then return (s, none)
    return (s, some (String.ofList ((Text.after? ['='] text).getD text)))
  | _ => none

/-- The argument can be the value of the option before it. -/
def isValue (arg : String) : Bool := arg == "-" || arg.toList.head? != some '-'

def Switch.accepts (s : Switch) (text : String) : Bool :=
  if s.name == Switch.config.name then !text.isEmpty
  else if s.name == Switch.format.name then (Format.ofWord? text).isSome
  else true

def Given.add? (given : Given) (s : Switch) (text : String) : Option Given :=
  if (given.lookup s.name).isSome || !s.accepts text then none else some ((s.name, text) :: given)

/-- The options at the start of the arguments, up to the first argument that is no option; an option
may be waiting for its value. The version of the program ends the reading at once. -/
def readSwitches? (switches : List Switch) :
    Option Switch → Given → List String → Option (Given × List String)
  | none, given, [] => some (given, [])
  | some _, _, [] => none
  | some s, given, arg :: args =>
    if isValue arg then (given.add? s arg).bind fun g => readSwitches? switches none g args
    else none
  | none, given, arg :: args =>
    if arg == "--" || isValue arg then some (given, arg :: args)
    else
      match Switch.match? switches arg.toList with
      | none => none
      | some (s, some text) =>
        if s.takesValue then (given.add? s text).bind fun g => readSwitches? switches none g args
        else none
      | some (s, none) =>
        if s.takesValue then readSwitches? switches (some s) given args
        else
          (given.add? s "").bind fun g =>
            if s.name == Switch.version.name then some (g, [])
            else readSwitches? switches none g args

/-! ## Commands -/

inductive Task where
  | lint
  | compile (version : Option String) (all showPrivate : Bool)
  | changelog (showPrivate : Bool)
deriving DecidableEq, Repr

structure Command where
  task : Task
  config : String
  format : Format
deriving DecidableEq, Repr

/-- What the program is started for. -/
inductive Request where
  | showVersion
  | run (command : Command)
deriving DecidableEq, Repr

def defaultConfig : String := "apidoc.toml"

namespace Task

/-- The options of a task and its usual format, by the word for it. -/
def options? : String → Option (List Switch × Format)
  | "lint" => some ([], .text)
  | "compile" => some ([.apiVersion, .all, .unveil], .pretty)
  | "changelog" => some ([.unveil], .text)
  | _ => none

/-- The task of a word with the options that are given. -/
def ofWord? (word : String) (given : Given) : Option Task :=
  let has (s : Switch) := (given.lookup s.name).isSome
  match word with
  | "lint" => some .lint
  | "compile" => some (.compile (given.lookup Switch.apiVersion.name) (has .all) (has .unveil))
  | "changelog" => some (.changelog (has .unveil))
  | _ => none

end Task

def Command.read? (config : Option String) (word : String) (args : List String) :
    Option Command := do
  let (own, format) ← Task.options? word
  let (given, rest) ← readSwitches? (.config :: .format :: own) none [] args
  if rest != [] && rest != ["--"] then none
  let task ← Task.ofWord? word given
  return {
    task
    config := ((given.lookup Switch.config.name).or config).getD defaultConfig
    format := ((given.lookup Switch.format.name).bind Format.ofWord?).getD format }

def Request.read? (args : List String) : Option Request := do
  let (given, rest) ← readSwitches? [.config, .version] none [] args
  if (given.lookup Switch.version.name).isSome then return .showVersion
  match rest with
  | [] => none
  | word :: rest =>
    let command ← Command.read? (given.lookup Switch.config.name) word rest
    return .run command

/-! ## Outcomes -/

/-- What a run of the program leaves behind. -/
structure Outcome where
  exitCode : Nat
  output : String := ""
  /-- What is written about an error. -/
  complaint : Option String := none
deriving DecidableEq, Repr

namespace Outcome

def success (text : String) : Outcome := { exitCode := 0, output := text ++ "\n" }

def failure (exitCode : Nat) (e : Error) : Outcome :=
  { exitCode, complaint := some ("Error: " ++ e.message ++ "\n") }

/-- Arguments that make no request. -/
def misuse : Outcome := { exitCode := 2 }

def version : Outcome := success "apidoc 0.1.0"

def ofReport : Except Error String → Outcome
  | .ok text => success text
  | .error e => failure 1 e

end Outcome

/-- The filter of a project, which may be told to show what is private. -/
def Project.filter (p : Project) (showPrivate : Bool) : Filter :=
  { p.config.filter with includePrivate := p.config.filter.includePrivate || showPrivate }

/-- The version with this text, or the one that is shown by default. -/
def Project.version (p : Project) : Option String → Except Error Version.Number
  | some text => located {} (Version.Number.read text)
  | none => .ok p.config.defaultVersion

def Task.run (task : Task) (format : Format) (p : Project) : Outcome :=
  match task with
  | .lint =>
    let findings := p.lint
    { Outcome.success (findings.report format) with exitCode := if findings.passed then 0 else 1 }
  | .compile text all showPrivate =>
    match p.version text with
    | .error e => .failure 2 e
    | .ok version =>
      .ofReport do
        let graph ← p.graph
        let filter := p.filter showPrivate
        if all then
          let compilation ← graph.compilation filter
          return compilation.report format
        else return (graph.view version filter).report format
  | .changelog showPrivate =>
    .ofReport do
      let graph ← p.graph
      let log ← graph.changelog (p.filter showPrivate)
      return log.report format

/-- What a command prints, given the project of its configuration file. -/
def Command.run (c : Command) (project : Except Error Project) : Outcome :=
  match project with
  | .error e => .failure 2 e
  | .ok p => c.task.run c.format p

/-- What the program prints for some arguments in a tree of files. -/
def run (tree : FileTree) (args : List String) : Outcome :=
  match Request.read? args with
  | none => .misuse
  | some .showVersion => .version
  | some (.run command) => command.run (Project.load tree command.config)

end VersionedApi
