import VersionedApi.Fault
import VersionedApi.Json.Value
import VersionedApi.Text.Prose
import VersionedApi.Text.Word

/-!
# Field descriptors

A field is written on one line as

    name `sample` (type<subtype>, required, nullable, CAPABILITY) - description

and the options of an enumeration as a list of members below it. `Field` is what such a text says
and `Field.read` reads it: first the shape of the line (`Shape`), then the type, the flags and the
members.
-/

namespace VersionedApi

open VersionedApi.Text

/-- One documented value: its name, type and meaning. -/
structure Field where
  name : String
  sample : Option String := none
  typeName : String
  subtype : Option String := none
  required : Bool := false
  nullable : Bool := false
  capability : Option String := none
  description : Option String := none
  /-- The options of an enumeration with their descriptions, in the order of the options. -/
  values : Option (List (String × String)) := none
deriving DecidableEq, Repr

namespace Field

def supportedTypes : List String :=
  ["array", "boolean", "datetime", "enum", "float", "integer", "number", "object", "string",
    "timestamp"]

def isSupportedType (typeName : String) : Bool := supportedTypes.contains typeName

/-! ## The shape of the line -/

def isNameChar (c : Char) : Bool := isWord c || c == '.' || c == '*' || c == '-'

structure Shape where
  name : List Char
  sample : Option (List Char)
  attributes : List Char
  description : Option (List Char)
deriving DecidableEq, Repr

/-- What follows the closing parenthesis of a shorthand: nothing, or a dash and a description.
The outer option is `none` for anything else. -/
def dashed? (cs : List Char) : Option (Option (List Char)) :=
  match trimStart cs with
  | [] => some none
  | '-' :: rest => some (some (trim rest))
  | _ => none

/-- The text between parentheses at the start of a text, and what is dashed behind it. -/
def parenthesized? : List Char → Option (List Char × Option (List Char))
  | '(' :: cs =>
    (cutAt [')'] cs).bind fun (inner, rest) => (dashed? rest).map fun description =>
      (inner, description)
  | _ => none

/-- A sample between backquotes, which a blank has to precede, and what follows; a text that has
none is left as it is. -/
def sampled? (cs : List Char) : Option (Option (List Char) × List Char) :=
  match trimStart cs with
  | '\x60' :: rest =>
    if cs.head?.any isBlank then
      (cutAt ['\x60'] rest).map fun (sample, behind) => (some sample, behind)
    else none
  | _ => some (none, cs)

/-- The parts of a trimmed text, if it has the shape of a field. -/
def shape? (cs : List Char) : Option Shape := do
  let name := cs.takeWhile isNameChar
  if name.isEmpty then none
  let (sample, rest) ← sampled? (cs.dropWhile isNameChar)
  let (attributes, description) ← parenthesized? (trimStart rest)
  return { name, sample, attributes, description }

/-! ## Type and flags -/

def isHeadChar (c : Char) : Bool := isAsciiLetter c || c == '_'

/-- A type, and its subtype between angle brackets. -/
def type? (token : List Char) : Option (List Char × Option (List Char)) :=
  if token.head?.any isHeadChar then
    match token.dropWhile isWord with
    | [] => some (token, none)
    | '<' :: rest =>
      let inner := rest.dropLast
      if rest.getLast? = some '>' && !inner.isEmpty && inner.all isQualified
      then some (token.takeWhile isWord, some inner)
      else none
    | _ => none
  else none

def isCapability : List Char → Bool
  | [] => false
  | c :: cs => isHeadChar c && cs.all fun c => isWord c || c == '-'

structure Flags where
  required : Bool := false
  nullable : Bool := false
  capability : Option String := none
deriving DecidableEq, Repr

/-- The flags after one more token; there is place for one capability. -/
def Flags.add? (flags : Flags) (token : List Char) : Option Flags :=
  match String.ofList token with
  | "required" => some { flags with required := true }
  | "optional" => some { flags with required := false }
  | "nullable" => some { flags with nullable := true }
  | name =>
    if flags.capability.isNone && isCapability token then
      some { flags with capability := some name }
    else none

def flags? (tokens : List (List Char)) : Option Flags := tokens.foldlM Flags.add? {}

/-! ## Members -/

/-- What follows the heading of a list of members, the plus sign of which has been read: the word
`Members` alone to the end of its line. -/
def afterHeading? (cs : List Char) : Option (List Char) :=
  (after? "Members".toList (trimStart cs)).bind fun rest =>
    let blanks := rest.takeWhile isBlank
    if blanks.contains '\n' || blanks.length == rest.length then some rest else none

/-- The text before and behind the first heading of a list of members. `fresh` says that only
blanks stand between the last line feed and here. -/
def cutMembers (fresh : Bool) : List Char → Option (List Char × List Char)
  | [] => none
  | c :: cs =>
    match if fresh && c == '+' then afterHeading? cs else none with
    | some rest => some ([], rest)
    | none =>
      (cutMembers (c == '\n' || (fresh && isBlank c)) cs).map fun (before, rest) =>
        (c :: before, rest)

/-- A member's line: a dash, an option between backquotes, and its description behind another
dash. -/
def member? (line : List Char) : Option (List Char × List Char) :=
  match trimStart line with
  | '-' :: rest =>
    match trimStart rest with
    | '\x60' :: quoted =>
      (cutAt ['\x60'] quoted).bind fun (option, behind) =>
        match trimStart behind with
        | [] => some (option, [])
        | '-' :: description => some (option, trimStart description)
        | _ => none
    | _ => none
  | _ => none

/-- The members of a list of lines, given the one being read: other lines that are not blank belong
to the member above them, and to nothing before the first. -/
def membersFrom (current : Option (List Char × List Char)) :
    List (List Char) → List (List Char × List Char)
  | [] => current.toList
  | l :: ls =>
    match member? l with
    | some m => current.toList ++ membersFrom (some m) ls
    | none =>
      if allBlank l then membersFrom current ls
      else membersFrom (current.map fun (option, text) => (option, text ++ '\n' :: l)) ls

def members (block : List Char) : List (String × String) :=
  SortedMap.ofList compare <| (membersFrom none (lines block)).map fun (option, text) =>
    (String.ofList option, String.ofList (collapse text))

/-- A description and the members below it. -/
def describe (raw : List Char) : Option String × Option (List (String × String)) :=
  match cutMembers true raw with
  | some (text, block) => (collapsed? text, some (members block))
  | none => (collapsed? raw, none)

/-! ## The reader -/

/-- The field that the body of a directive describes; `tag` names the directive. -/
def read (tag content : String) : Except Fault Field :=
  let text := trim content.toList
  let refused := Fault.invalidShorthand tag (String.ofList text)
  match shape? text with
  | none => .error refused
  | some shape =>
    match (tokens shape.attributes).head?.bind type? with
    | none => .error refused
    | some (typeName, subtype) =>
      let typeName := String.ofList typeName
      let subtype := subtype.map String.ofList
      if !isSupportedType typeName then .error (.unsupportedType tag typeName)
      else
        match subtype.filter fun s => s.toList.head? != some '\\' && !isSupportedType s with
        | some other => .error (.unsupportedType tag other)
        | none =>
          match flags? (tokens shape.attributes).tail with
          | none => .error refused
          | some flags =>
            let name := String.ofList shape.name
            let (description, values) := match shape.description with
              | some raw => describe raw
              | none => (none, none)
            if typeName == "enum" && (values.getD []).isEmpty then
              .error (.missingEnumOptions tag name)
            else
              .ok
                { name
                  sample := shape.sample.map String.ofList
                  typeName
                  subtype
                  required := flags.required
                  nullable := flags.nullable
                  capability := flags.capability
                  description
                  values }

/-- The type as it is written, with its subtype. -/
def typeText (f : Field) : String :=
  match f.subtype with
  | some sub => f.typeName ++ "<" ++ sub ++ ">"
  | none => f.typeName

/-- Other fields may be nested under this one: it is an object, or an array of objects. -/
def isNestable (f : Field) : Bool :=
  match f.typeName with
  | "object" => true
  | "array" => f.subtype.all fun sub => sub == "object" || sub.toList.head? == some '\\'
  | _ => false

end Field

end VersionedApi
