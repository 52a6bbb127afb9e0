import VersionedApi.Changelog.Text
import VersionedApi.Graph.Serialized
import VersionedApi.Lint.Issue

/-!
# Reports

What is shown of findings, views, compilations and changelogs, in one of three formats: text for
people (`text`), or the serialized form on one line or on many (`Format.render`).
-/

namespace VersionedApi

open VersionedApi.Json

/-- How a report is written. -/
inductive Format where
  | text
  | json
  | pretty
deriving DecidableEq, Repr

namespace Format

def word : Format → String
  | text => "text"
  | json => "json"
  | pretty => "json-pretty"

def ofWord? (w : String) : Option Format := [text, json, pretty].find? (·.word == w)

/-- A report of which the serialized form and the text are given. -/
def render (format : Format) (value : Value) (plain : String) : String :=
  match format with
  | text => plain
  | json => value.compact
  | pretty => value.pretty

end Format

/-- Texts one after the other. -/
def concatenated (texts : List String) : String := "".intercalate texts

/-! ## Findings -/

namespace Lint

def Severity.mark : Severity → String
  | error => "ERROR"
  | warning => "WARN"
  | info => "INFO"

/-- An issue, with its hint on a line of its own. -/
def Issue.text (i : Issue) : String :=
  i.severity.mark ++ " " ++ i.file ++ ":" ++ toString i.line ++ " - " ++ i.message ++
    " (" ++ i.code ++ ")\n" ++
    match i.suggestion with
    | some hint => "  hint: " ++ hint ++ "\n"
    | none => ""

def Findings.verdict (f : Findings) : String :=
  if 0 < f.errors then
    toString f.errors ++ " errors, " ++ toString f.warnings ++ " warnings\n"
  else if 0 < f.warnings then "OK " ++ toString f.warnings ++ " warnings\n"
  else "OK No issues found\n"

/-- Findings as text: the issues, then what was checked. -/
def Findings.text (f : Findings) : String :=
  concatenated (f.issues.map Issue.text) ++ "\nChecked " ++ toString f.files ++ " files, " ++
    toString f.actions ++ " actions, " ++ toString f.representations ++ " representations\n" ++
    f.verdict

def Findings.report (f : Findings) (format : Format) : String := format.render f.toJson f.text

end Lint

/-! ## Views, changelogs, compilations -/

/-- An action in a version: a line for every path, the label, the media type. -/
def Action.textAt (a : Action) (version : Version.Number) : String :=
  concatenated (a.routes.map fun r =>
    "    " ++ a.method ++ " " ++ Text.cleanPath r.path ++ " [" ++ r.group ++ "]\n") ++
  "      " ++ a.label ++ "\n" ++
  match a.contentTypeAt? (some version) with
  | some mediaType => "      content type: " ++ mediaType ++ "\n"
  | none => ""

def View.text (v : View) : String :=
  "Version " ++ v.version.text ++ "\n\n  Actions (" ++ toString v.actions.length ++ "):\n" ++
    concatenated (v.actions.map (·.textAt v.version)) ++
    "\n  Representations (" ++ toString v.representations.length ++ "):\n" ++
    concatenated (v.representations.map fun r =>
      "    " ++ r.label ++ " (" ++ toString r.fields.length ++ " fields)\n")

def View.report (v : View) (format : Format) : String := format.render v.toJson v.text

def Changelog.report (log : Changelog) (format : Format) : String :=
  format.render log.toJson log.text

def Compilation.text (c : Compilation) : String :=
  concatenated (c.views.map fun v => v.text ++ "\n") ++ "Changelog\n" ++ c.changelog.text

def Compilation.report (c : Compilation) (format : Format) : String :=
  format.render c.toJson c.text

end VersionedApi
