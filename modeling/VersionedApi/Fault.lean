/-!
# What can be wrong with a piece of documentation

* `Context` : the class, method and docblock that a fault is found in;
* `Fault` : the causes, each with a stable lint code (`Fault.code`) and a sentence
  (`Fault.sentence`).

Readers of small texts return bare faults; whoever knows the docblock adds the context.
-/

namespace VersionedApi

/-- Where documentation stands, as far as that is known. -/
structure Context where
  owner : Option String := none
  method : Option String := none
  docblock : Option String := none
deriving DecidableEq, Repr, Inhabited

namespace Context

def ofClass (owner docblock : String) : Context := ⟨some owner, none, some docblock⟩

def ofMethod (owner method docblock : String) : Context := ⟨some owner, some method, some docblock⟩

/-- The place as it is added to a message. -/
def place : Context → String
  | ⟨some owner, some method, _⟩ => s!" (in {owner}::{method})"
  | ⟨some owner, none, _⟩ => s!" (in {owner})"
  | ⟨none, _, _⟩ => ""

end Context

/-- Causes of a rejected docblock; `tag` is the name of the directive at fault. -/
inductive Fault where
  | unrecognizedSchema (constraint : String)
  | lopsidedRange (constraint : String)
  | badRangeUse (constraint : String)
  | operatorsWithinRange (constraint : String)
  | missingField (tag field : String)
  | invalidShorthand (tag content : String)
  | unsupportedType (tag typeName : String)
  | missingEnumOptions (tag field : String)
  | missingVisibility (tag : String)
  | unsupportedDecorator (tag decorator : String)
  | publicOnPrivate (tag : String)
  | missingDirective (tag : String)
  | repeatedDirective (tag : String)
  | noDirectives
  | duplicateField (field representation : String)
  | scalarParent (field parent parentType : String)
  | unknownScope (scope : String)
  | unknownRepresentation (representation : String)
  | unresolvedReference (target : String)
deriving DecidableEq, Repr

namespace Fault

def code : Fault → String
  | unrecognizedSchema .. => "E101"
  | lopsidedRange .. => "E102"
  | badRangeUse .. => "E103"
  | operatorsWithinRange .. => "E104"
  | missingField .. => "E201"
  | invalidShorthand .. => "E202"
  | unsupportedType .. => "E203"
  | missingEnumOptions .. => "E204"
  | missingDirective .. => "E205"
  | noDirectives => "E206"
  | missingVisibility .. => "E301"
  | unsupportedDecorator .. => "E302"
  | publicOnPrivate .. => "E303"
  | repeatedDirective .. => "E304"
  | duplicateField .. => "E305"
  | unknownScope .. => "E306"
  | unknownRepresentation .. => "E307"
  | unresolvedReference .. => "E308"
  | scalarParent .. => "E309"

/-- The cause in a sentence, without the place. -/
def sentence : Fault → String
  | unrecognizedSchema constraint => s!"Unrecognized version schema `{constraint}`"
  | lopsidedRange constraint => s!"Version range `{constraint}` ends before it starts"
  | badRangeUse constraint =>
    s!"Version range `{constraint}` starts and ends on the same version, " ++
      "use a plain version instead"
  | operatorsWithinRange constraint => s!"Version range `{constraint}` may not contain operators"
  | missingField tag field => s!"`@api-{tag}` is missing its required `{field}` field"
  | invalidShorthand tag content => s!"`@api-{tag}` has invalid MSON syntax: `{content}`"
  | unsupportedType tag typeName => s!"`@api-{tag}` uses unsupported type `{typeName}`"
  | missingEnumOptions tag field =>
    s!"Enum field `{field}` on `@api-{tag}` has no `+ Members` options"
  | missingVisibility tag =>
    s!"`@api-{tag}` requires a `:public` or `:private` visibility decorator"
  | unsupportedDecorator tag decorator =>
    s!"`@api-{tag}` does not support the `:{decorator}` decorator"
  | publicOnPrivate tag =>
    s!"`@api-{tag}` is marked `:public` on an action that is only private"
  | missingDirective tag => s!"Required annotation `@api-{tag}` is missing"
  | repeatedDirective tag => s!"Only one `@api-{tag}` annotation is allowed"
  | noDirectives => "No `@api-` annotations found"
  | duplicateField field representation =>
    s!"Field `{field}` is documented more than once on `{representation}`"
  | scalarParent field parent parentType =>
    s!"Field `{field}` is nested under `{parent}`, which is a `{parentType}` instead of an object"
  | unknownScope scope => s!"Scope `{scope}` is not declared in the configuration"
  | unknownRepresentation representation =>
    s!"Representation `{representation}` is not documented"
  | unresolvedReference target =>
    s!"`@api-see {target}` does not point at a documented field docblock"

end Fault

end VersionedApi
