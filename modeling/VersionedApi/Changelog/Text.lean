import VersionedApi.Changelog.Index
import VersionedApi.Text.Blank

/-!
# A changelog as text

* `describe` : an entry in one line;
* `Changelog.text` : a heading for every version, a title for every definition in it, and a line
  for every entry.
-/

namespace VersionedApi

open VersionedApi.Json

/-- The value under a key of a payload as text; strings without quotes, null as nothing. -/
def payloadText (payload : Value) (key : String) : String :=
  match payload.get? key with
  | none | some .null => ""
  | some (.string s) => s
  | some v => v.compact

namespace Entry

/-- What is changed. -/
def payload (e : Entry) : Value := (e.changes.head?.map Change.payload).getD .null

/-- The paths on which it is changed, in the order of recording. -/
def paths (e : Entry) : List String := e.changes.filterMap Change.path

end Entry

def describe (e : Entry) : String :=
  let text := payloadText (Entry.payload e)
  let target := text "method" ++ " " ++ ", ".intercalate (Entry.paths e)
  let verb (now past : String) := if e.definition = .removed then past else now
  match e.subject with
  | .action => target ++ " was added"
  | .actionParam =>
    target ++ " " ++ verb "now accepts" "no longer accepts" ++ " `" ++ text "field" ++ "`"
  | .actionReturn =>
    target ++ " " ++ verb "now returns" "no longer returns" ++ " a " ++ text "http_code" ++
      " `" ++ text "representation" ++ "`"
  | .actionThrows =>
    let line := target ++ " " ++ verb "now throws" "no longer throws" ++ " a " ++
      text "http_code" ++ " `" ++ text "representation" ++ "` " ++ text "description"
    String.ofList (Text.trimEnd line.toList)
  | .contentType => target ++ " now returns a `" ++ text "content_type" ++ "` content type"
  | .representationData =>
    "`" ++ text "field" ++ "` " ++ verb "was added to" "was removed from" ++
      " `" ++ e.owner ++ "`"

def Definition.title : Definition → String
  | added => "Added"
  | changed => "Changed"
  | removed => "Removed"

def entryLine (e : Entry) : String := "    - [" ++ e.group ++ "] " ++ describe e ++ "\n"

/-- The text of entries below a heading, which is the version and the definition of the entry
before them. -/
def entriesText : Option (String × Definition) → List Entry → String
  | _, [] => ""
  | heading, e :: es =>
    let v := e.version
    let d := e.definition
    let sameVersion := heading.any (·.1 == v)
    (if sameVersion then "" else "\n" ++ v ++ "\n") ++
      (if sameVersion && heading.any (·.2 == d) then "" else "  " ++ d.title ++ "\n") ++
      entryLine e ++ entriesText (some (v, d)) es

def Changelog.text (log : Changelog) : String :=
  if log.isEmpty then "No changes between supported versions\n" else entriesText none log.entries

end VersionedApi
