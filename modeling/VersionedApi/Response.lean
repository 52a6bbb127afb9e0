import VersionedApi.Field

/-!
# Response descriptors

A response is written as

    (code, Representation, errorCode, CAPABILITY) - description

with everything but the code optional. `Response.read` reads it; a third token that stands alone
is a capability if the registry declares it and an error code otherwise.

A `Registry` answers which capabilities and scopes a project declares.
-/

namespace VersionedApi

open VersionedApi.Text

/-- The names that a project declares: no capability and every scope if nothing is said. -/
structure Registry where
  hasCapability : String → Bool := fun _ => false
  hasScope : String → Bool := fun _ => true

/-- The registry of some names. Scopes are checked only if there are any. -/
def Registry.ofNames (capabilities scopes : List String) : Registry where
  hasCapability name := capabilities.contains name
  hasScope name := scopes.isEmpty || scopes.contains name

structure Response where
  code : Nat
  representation : Option String := none
  errorCode : Option String := none
  capability : Option String := none
  description : Option String := none
deriving DecidableEq, Repr

namespace Response

def code? (token : List Char) : Option Nat :=
  (natural? 65535 token).filter fun n => 100 ≤ n && n ≤ 599

/-- Error code and capability of the tokens behind the representation. -/
def extras (registry : Registry) : List (List Char) → Option String × Option String
  | [] => (none, none)
  | [third] =>
    let name := String.ofList third
    if registry.hasCapability name then (none, some name) else (some name, none)
  | third :: fourth :: _ => (some (String.ofList third), some (String.ofList fourth))

def read (registry : Registry) (tag content : String) : Except Fault Response :=
  let text := trim content.toList
  let refused := Fault.invalidShorthand tag (String.ofList text)
  match Field.parenthesized? text with
  | none => .error refused
  | some (attributes, description) =>
    let parts := tokens attributes
    if 4 < parts.length || parts.any List.isEmpty then .error refused
    else
      match parts.head?.bind code? with
      | none => .error refused
      | some code =>
        let (errorCode, capability) := extras registry (parts.drop 2)
        .ok
          { code
            representation := parts[1]?.map String.ofList
            errorCode
            capability
            description := description.bind collapsed? }

end Response

end VersionedApi
