import VersionedApi.Directive.Read
import VersionedApi.Proofs.Outcome

/-!
# What can be wrong with a directive

* `Fault.Concerns` : the faults of a directive of some kind; but for a scope that is not declared
  and a version that cannot be read, all of them name its tag;
* `Fault.IsOfVersion` : the faults of a version constraint;
* `Directive.failsOnly_read`, `failsOnly_versionScopes`, `failsOnly_directivesOf` : a docblock is
  refused for one of these, and at its own place.
-/

namespace VersionedApi

open VersionedApi.Text VersionedApi.Docblock

namespace Fault

/-- What can be wrong with a directive of a kind. -/
inductive Concerns (kind : Kind) : Fault → Prop
  | decorator (name : String) : Concerns kind (.unsupportedDecorator kind.tag name)
  | visibility : Concerns kind (.missingVisibility kind.tag)
  | missing (field : String) : Concerns kind (.missingField kind.tag field)
  | shorthand (content : String) : Concerns kind (.invalidShorthand kind.tag content)
  | type (name : String) : Concerns kind (.unsupportedType kind.tag name)
  | options (field : String) : Concerns kind (.missingEnumOptions kind.tag field)
  | scope (hkind : kind = .scope) (name : String) : Concerns kind (.unknownScope name)
  | version (hkind : kind = .minVersion) (text : String) : Concerns kind (.unrecognizedSchema text)

/-- What can be wrong with a version constraint. -/
inductive IsOfVersion : Fault → Prop
  | schema (text : String) : IsOfVersion (.unrecognizedSchema text)
  | lopsided (text : String) : IsOfVersion (.lopsidedRange text)
  | point (text : String) : IsOfVersion (.badRangeUse text)
  | operators (text : String) : IsOfVersion (.operatorsWithinRange text)

/-- What can be wrong with a docblock on its own: with one of its directives or its versions. -/
def IsOfDocblock (fault : Fault) : Prop := fault.IsOfVersion ∨ ∃ kind, fault.Concerns kind

end Fault

/-! ## Versions -/

namespace Version

theorem Number.failsOnly_read (s : String) :
    FailsOnly (fun fault => ∃ text, fault = .unrecognizedSchema text) (Number.read s) := by
  unfold Number.read
  split
  · exact .ok _
  · exact .error ⟨_, rfl⟩

theorem Interval.failsOnly_readSingle (cs : List Char) :
    FailsOnly Fault.IsOfVersion (Interval.readSingle cs) := by
  have hnumber : ∀ s, FailsOnly Fault.IsOfVersion (Number.read s) := fun s =>
    (Number.failsOnly_read s).imp fun fault ⟨text, h⟩ => h ▸ .schema text
  unfold Interval.readSingle
  dsimp only
  split
  · refine .ite ((hnumber _).bind fun n => ?_) (.error (.schema _))
    split
    · exact .ok _
    · exact .error (.schema _)
  · refine .ite ((hnumber _).bind fun n => .ok _) ?_
    split
    · exact .ok _
    · exact .error (.schema _)

theorem Interval.failsOnly_readRange (whole lower upper : List Char) :
    FailsOnly Fault.IsOfVersion (Interval.readRange whole lower upper) := by
  refine .ite (.error (.operators _)) ?_
  split
  · split
    · exact .ite (.error (.lopsided _)) (.ite (.error (.point _)) (.ok _))
    · exact .ok _
  · exact .error (.schema _)

theorem Range.failsOnly_read (s : String) : FailsOnly Fault.IsOfVersion (Range.read s) := by
  unfold Range.read
  refine FailsOnly.map ?_
  split
  · exact Interval.failsOnly_readRange _ _ _
  · exact Interval.failsOnly_readSingle _

end Version

/-! ## Decorators and contents -/

section Contents
variable {kind : Kind}

theorem failsOnly_decorateOne (traits : Traits) (decorator : String) :
    FailsOnly (Fault.Concerns kind) (decorateOne kind traits decorator) := by
  unfold decorateOne
  dsimp only
  split
  · exact .ite (.ok _) (.error (.decorator _))
  · exact .ite (.ok _) (.error (.decorator _))
  · exact .ite (.ok _) (.error (.decorator _))
  · exact .error (.decorator _)

theorem failsOnly_decorate (decorators : List String) :
    FailsOnly (Fault.Concerns kind) (decorate kind decorators) := by
  refine (FailsOnly.foldlM decorators failsOnly_decorateOne {}).bind fun traits => ?_
  exact .ite (.error .visibility) (.ok _)

theorem failsOnly_orMissing {α : Type} (field : String) (o : Option α) :
    FailsOnly (Fault.Concerns kind) (orMissing kind field o) := by
  cases o with
  | some a => exact .ok a
  | none => exact .error (.missing field)

theorem Field.failsOnly_read (content : String) :
    FailsOnly (Fault.Concerns kind) (Field.read kind.tag content) := by
  unfold Field.read
  dsimp only
  split
  · exact .error (.shorthand _)
  · split
    · exact .error (.shorthand _)
    · refine .ite (.error (.type _)) ?_
      split
      · exact .error (.type _)
      · split
        · exact .error (.shorthand _)
        · split
          · exact .ite (.error (.options _)) (.ok _)
          · exact .ite (.error (.options _)) (.ok _)

theorem Response.failsOnly_read (registry : Registry) (content : String) :
    FailsOnly (Fault.Concerns kind) (Response.read registry kind.tag content) := by
  unfold Response.read
  dsimp only
  split
  · exact .error (.shorthand _)
  · refine .ite (.error (.shorthand _)) ?_
    split
    · exact .error (.shorthand _)
    · exact .ok _

theorem failsOnly_readDescribed (body : String) :
    FailsOnly (Fault.Concerns kind) (readDescribed kind body) :=
  (Field.failsOnly_read body).bind fun _ => .ite (.error (.missing _)) (.ok _)

theorem failsOnly_readUri (body : List Char) : FailsOnly (Fault.Concerns .uri) (readUri body) :=
  (failsOnly_orMissing _ _).bind fun _ => (failsOnly_orMissing _ _).bind fun _ =>
    (failsOnly_orMissing _ _).bind fun _ => .ok _

theorem failsOnly_readUriSegment (tag : Tag) :
    FailsOnly (Fault.Concerns .uriSegment) (readUriSegment tag) := by
  refine .ite ?_ ?_
  · exact (failsOnly_orMissing _ _).bind fun _ => (failsOnly_orMissing _ _).bind fun _ =>
      (failsOnly_readDescribed _).bind fun _ => .ok _
  · exact (failsOnly_readDescribed _).bind fun _ => .ok _

theorem failsOnly_readScope (registry : Registry) (body : List Char) :
    FailsOnly (Fault.Concerns .scope) (readScope registry body) :=
  (failsOnly_orMissing _ _).bind fun scope => .ite (.ok _) (.error (.scope rfl scope))

theorem Content.failsOnly_read (registry : Registry) (kind : Kind) (tag : Tag) :
    FailsOnly (Fault.Concerns kind) (Content.read registry kind tag) := by
  cases kind with
  | label => exact (failsOnly_orMissing _ _).map
  | description => exact (failsOnly_orMissing _ _).map
  | uri => exact failsOnly_readUri _
  | uriSegment => exact failsOnly_readUriSegment tag
  | param => exact (failsOnly_readDescribed _).map
  | data => exact (failsOnly_readDescribed _).map
  | see => exact (failsOnly_orMissing _ _).map
  | scope => exact failsOnly_readScope registry _
  | contentType => exact (failsOnly_orMissing _ _).bind fun _ => .ok _
  | vendorTag => exact (failsOnly_orMissing _ _).bind fun _ => .ok _
  | returns =>
    exact (Response.failsOnly_read registry _).bind fun response =>
      .ite (.error (.shorthand _)) (.ok _)
  | throws =>
    exact (Response.failsOnly_read registry _).bind fun response =>
      .ite (.error (.missing _)) (.ok _)
  | minVersion =>
    have hnumber : FailsOnly (Fault.Concerns .minVersion) (Version.Number.read tag.body) :=
      (Version.Number.failsOnly_read _).imp fun fault ⟨text, h⟩ => h ▸ .version rfl text
    exact .ite (.error (.missing _)) hnumber.map

end Contents

/-! ## Directives and docblocks -/

section Docblocks
variable (registry : Registry) (context : Context)

/-- A directive is refused at the place that it is read at, and by its tag. -/
theorem Directive.failsOnly_read (kind : Kind) (tag : Tag) (version : Option Version.Range) :
    FailsOnly (fun e => ∃ fault, e = .documentation fault context ∧ fault.Concerns kind)
      (Directive.read registry context kind tag version) :=
  ((failsOnly_decorate _).bind fun _ => (Content.failsOnly_read registry kind tag).bind
    fun _ => .ok _).located context

theorem failsOnly_versionScopes (tags : List Tag) :
    FailsOnly (fun e => ∃ fault, e = .documentation fault context ∧ fault.IsOfVersion)
      (versionScopes context tags) := by
  unfold versionScopes
  generalize (none : Option Version.Range) = current
  induction tags generalizing current with
  | nil => exact .ok _
  | cons tag tags ih =>
    unfold versionScopesFrom
    split
    · exact ((Version.Range.failsOnly_read tag.body).located context).bind fun range => ih _
    · exact (ih current).bind fun rest => .ok _

/-- A docblock is refused at its own place, for its versions or one of its directives. -/
theorem failsOnly_directivesOf (tags : List Tag) :
    FailsOnly (fun e => ∃ fault, e = .documentation fault context ∧ fault.IsOfDocblock)
      (directivesOf registry context tags) := by
  unfold directivesOf
  refine ((failsOnly_versionScopes context tags).imp ?_).bind fun entries => .mapM fun t ht => ?_
  · rintro e ⟨fault, he, hfault⟩
    exact ⟨fault, he, Or.inl hfault⟩
  · refine (Directive.failsOnly_read registry context t.1 t.2.1 t.2.2).imp ?_
    rintro e ⟨fault, he, hfault⟩
    exact ⟨fault, he, Or.inr ⟨t.1, hfault⟩⟩

end Docblocks

end VersionedApi
