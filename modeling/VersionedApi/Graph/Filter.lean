import VersionedApi.Action.Basic
import VersionedApi.Representation.Basic

/-!
# Filters

A `Filter` says what readers of a documentation may see: private directives or not, which vendor
tags, and which groups of actions not at all.
-/

namespace VersionedApi

structure Filter where
  includePrivate : Bool := false
  /-- The vendor tags that are allowed; `none` allows all. -/
  vendorTags : Option (List String) := none
  excludedGroups : List String := []
deriving DecidableEq, Repr

namespace Filter

def allowsTags (f : Filter) (tags : List String) : Bool :=
  f.vendorTags.all fun allowed => tags.all allowed.contains

def allows (f : Filter) (d : Directive) : Bool :=
  (f.includePrivate || !d.traits.isPrivate) && f.allowsTags d.vendorTags

/-- An action without what may not be seen; `none` if it is excluded as a whole or keeps no path. -/
def action? (f : Filter) (a : Action) : Option Action :=
  if f.excludedGroups.contains a.group || !f.allowsTags a.capabilities then none
  else
    let directives := a.directives.filter f.allows
    if directives.any (·.kind == .uri) then some { a with directives } else none

/-- A representation without the fields that may not be seen. -/
def representation (f : Filter) (r : Representation) : Representation :=
  { r with fields := r.fields.filter fun field => f.allowsTags field.vendorTags }

end Filter

end VersionedApi
