import VersionedApi.Proofs.Directive.RoundTrip
import VersionedApi.Representation.Read

/-!
# Fields taken over by references

* `mem_mergeUnique`, `nodup_mergeUnique` : names put together without repetition;
* `Directive.ReadAt` : what is known of a directive of a docblock; `readAt_of_mem_directivesOf`;
* `DataField.takenOver` : the field that a reference makes of another; `DataField.reuse_eq` : it is
  what the way through the serialized form gives, if the traits of the field are faithful;
* `faithful_of_mem_fieldsOf` : which they are for every field of a docblock, so that this way never
  fails (`reuse_of_mem_fieldsOf`);
* `fieldsOf_eq_ok_iff` : the fields of a docblock, directive by directive (`Documents`).
-/

namespace VersionedApi

open VersionedApi.Docblock

/-! ## Names without repetition -/

theorem mergeUnique_cons (items : List String) (x : String) (extra : List String) :
    mergeUnique items (x :: extra) =
      mergeUnique (if items.contains x then items else items ++ [x]) extra := rfl

theorem mem_mergeUnique {items extra : List String} {x : String} :
    x ∈ mergeUnique items extra ↔ x ∈ items ∨ x ∈ extra := by
  induction extra generalizing items with
  | nil => simp [mergeUnique]
  | cons y extra ih =>
    rw [mergeUnique_cons, ih]
    by_cases hy : y ∈ items
    · have hx : x = y → x ∈ items := fun e => by rwa [e]
      simp only [List.contains_eq_mem, hy, decide_true, if_true, List.mem_cons]
      tauto
    · simp only [List.contains_eq_mem, hy, decide_false, Bool.false_eq_true, if_false,
        List.mem_append, List.mem_cons]
      tauto

theorem nodup_mergeUnique {items : List String} (h : items.Nodup) (extra : List String) :
    (mergeUnique items extra).Nodup := by
  induction extra generalizing items with
  | nil => exact h
  | cons y extra ih =>
    rw [mergeUnique_cons]
    apply ih
    split
    · exact h
    · rename_i hy
      have hnot : y ∉ items := by simpa using hy
      rw [List.nodup_append]
      refine ⟨h, List.pairwise_singleton _ y, ?_⟩
      intro a ha b hb
      rw [List.mem_singleton.1 hb]
      exact fun e => hnot (by rwa [← e])

/-! ## The directives of a docblock -/

/-- What is known of a directive that was read in a docblock at a place. -/
structure Directive.ReadAt (context : Context) (d : Directive) : Prop where
  context : d.traits.context = context
  faithful : d.traits.Faithful
  scopes : d.traits.scopes = []
  vendorTags : d.traits.vendorTags = []

theorem faithful_versionScopesFrom {context : Context} {current : Option Version.Range}
    {tags : List Tag} {entries : List (Tag × Option Version.Range)}
    (hcurrent : ∀ r, current = some r → Version.Range.read r.text = .ok r)
    (h : versionScopesFrom context current tags = .ok entries) :
    ∀ e ∈ entries, ∀ r, e.2 = some r → Version.Range.read r.text = .ok r := by
  induction tags generalizing current entries with
  | nil =>
    cases h
    intro e he
    cases he
  | cons tag tags ih =>
    unfold versionScopesFrom at h
    split at h
    · obtain ⟨range, hrange, h⟩ := bind_eq_ok.1 h
      have hread := Version.Range.read_text (located_eq_ok.1 hrange)
      apply ih (fun r hr => ?_) h
      rw [← Option.some_inj.1 hr]
      exact hread
    · obtain ⟨rest, hrest, h⟩ := bind_eq_ok.1 h
      cases h
      intro e he
      rcases List.mem_cons.1 he with rfl | he
      · exact hcurrent
      · exact ih hcurrent hrest e he

theorem readAt_of_mem_directivesOf {registry : Registry} {context : Context} {tags : List Tag}
    {ds : List Directive} {d : Directive} (h : directivesOf registry context tags = .ok ds)
    (hd : d ∈ ds) : d.ReadAt context := by
  unfold directivesOf at h
  obtain ⟨entries, hentries, h⟩ := bind_eq_ok.1 h
  obtain ⟨⟨kind, tag, version⟩, hmem, hread⟩ := exists_of_mem_mapM h hd
  obtain ⟨e, he, hkind⟩ := List.mem_filterMap.1 hmem
  obtain ⟨k, -, hk⟩ := Option.map_eq_some_iff.1 hkind
  have hversion : e.2 = version := by cases hk; rfl
  have hfaithful := faithful_versionScopesFrom (by rintro r ⟨⟩) hentries e he
  have has := Directive.readAs hread
  refine ⟨Directive.context_of_read hread, ?_, has.scopes, has.vendorTags⟩
  apply Directive.faithful_of_read hread
  rw [← hversion]
  exact hfaithful

/-! ## Reuse -/

namespace DataField

/-- The field that a reference makes of another: its name goes under that of the reference, the
reference's own version counts before its version, and it stands where the reference stands. -/
def takenOver (f : DataField) (reference : Reference) (traits : Traits) : DataField :=
  gate
    { field := { f.field with name := reference.rename f.name }
      traits :=
        { f.traits with
          version := traits.version.or f.traits.version
          context := traits.context } }
    traits.scopes traits.vendorTags

/-- The way through the serialized form gives exactly this field. -/
theorem reuse_eq {f : DataField} (hf : f.traits.Faithful) (reference : Reference)
    (traits : Traits) : f.reuse reference traits = .ok (f.takenOver reference traits) := by
  unfold reuse
  dsimp only
  rw [hydrate_renamed f hf]
  rfl

theorem faithful_takenOver {f : DataField} {traits : Traits} (hf : f.traits.Faithful)
    (ht : traits.Faithful) (reference : Reference) :
    (f.takenOver reference traits).traits.Faithful := by
  intro r hr
  change traits.version.or f.traits.version = some r at hr
  rcases Option.or_eq_some_iff.1 hr with hr | ⟨-, hr⟩
  · exact ht r hr
  · exact hf r hr

end DataField

theorem mapM_reuse {fields : List DataField} (h : ∀ f ∈ fields, f.traits.Faithful)
    (reference : Reference) (traits : Traits) :
    fields.mapM (·.reuse reference traits) = .ok (fields.map (·.takenOver reference traits)) := by
  induction fields with
  | nil => rfl
  | cons f fields ih =>
    obtain ⟨hf, hfields⟩ := List.forall_mem_cons.1 h
    rw [List.mapM_cons, DataField.reuse_eq hf, ih hfields]
    rfl

/-! ## The fields of a docblock -/

variable {registry : Registry} {docblockOf : String → String → Option String} {context : Context}
variable {docblock : String} {hops : Nat} {fields : List DataField}

theorem gatherFields_eq_ok {visit : Reference → Traits → Except Error (List DataField)} :
    gatherFields registry visit context docblock = .ok fields ↔
      ∃ ds parts, directivesOf registry context (tagsOf docblock) = .ok ds ∧
        List.Forall₂ (fun d part => fieldsUnder visit d = .ok part) ds parts ∧
        fields = parts.flatten.map (·.gate (scopesIn ds) (vendorTagsIn ds)) := by
  unfold gatherFields
  constructor
  · intro h
    obtain ⟨ds, hds, h⟩ := bind_eq_ok.1 h
    obtain ⟨parts, hparts, h⟩ := bind_eq_ok.1 h
    cases h
    exact ⟨ds, parts, hds, mapM_eq_ok.1 hparts, rfl⟩
  · rintro ⟨ds, parts, hds, hparts, rfl⟩
    exact bind_eq_ok.2 ⟨ds, hds, bind_eq_ok.2 ⟨parts, mapM_eq_ok.2 hparts, rfl⟩⟩

theorem faithful_of_mem_gatherFields {visit : Reference → Traits → Except Error (List DataField)}
    (hvisit : ∀ r traits part, traits.Faithful → visit r traits = .ok part →
      ∀ f ∈ part, f.traits.Faithful)
    (h : gatherFields registry visit context docblock = .ok fields) :
    ∀ f ∈ fields, f.traits.Faithful := by
  obtain ⟨ds, parts, hds, hparts, rfl⟩ := gatherFields_eq_ok.1 h
  intro f hf
  obtain ⟨g, hg, rfl⟩ := List.mem_map.1 hf
  obtain ⟨part, hpart, hg⟩ := List.mem_flatten.1 hg
  obtain ⟨d, hd, hunder⟩ := exists_of_mem_mapM (mapM_eq_ok.2 hparts) hpart
  have hread := readAt_of_mem_directivesOf hds hd
  -- the gate does not touch the version
  change g.traits.Faithful
  unfold fieldsUnder at hunder
  split at hunder
  · cases hunder
    rw [List.mem_singleton.1 hg]
    exact hread.faithful
  · exact hvisit _ _ part hread.faithful hunder g hg
  · cases hunder
    cases hg

/-- The version of every field of a docblock is what its text says, over any number of hops. -/
theorem faithful_of_mem_fieldsOf
    (h : fieldsOf registry docblockOf hops context docblock = .ok fields) :
    ∀ f ∈ fields, f.traits.Faithful := by
  induction hops generalizing context docblock fields with
  | zero =>
    refine faithful_of_mem_gatherFields (fun r traits part _ hpart => ?_) h
    cases hpart
  | succ hops ih =>
    refine faithful_of_mem_gatherFields (fun r traits part ht hpart => ?_) h
    unfold follow at hpart
    split at hpart
    · cases hpart
    · obtain ⟨nested, hnested, hpart⟩ := bind_eq_ok.1 hpart
      have hfaithful := ih hnested
      rw [mapM_reuse hfaithful] at hpart
      cases hpart
      intro f hf
      obtain ⟨g, hg, rfl⟩ := List.mem_map.1 hf
      exact DataField.faithful_takenOver (hfaithful g hg) ht r

theorem reuse_of_mem_fieldsOf (h : fieldsOf registry docblockOf hops context docblock = .ok fields)
    {f : DataField} (hf : f ∈ fields) (r : Reference) (traits : Traits) :
    f.reuse r traits = .ok (f.takenOver r traits) :=
  DataField.reuse_eq (faithful_of_mem_fieldsOf h f hf) r traits

/-! ## Directive by directive -/

structure Site where
  context : Context
  docblock : String
deriving DecidableEq, Repr

def Site.directives (registry : Registry) (s : Site) : Except Error (List Directive) :=
  directivesOf registry s.context (tagsOf s.docblock)

/-- The docblock that a reference leads to. -/
def Reference.site? (docblockOf : String → String → Option String) (r : Reference) :
    Option Site :=
  (docblockOf r.owner r.method).map fun docblock =>
    ⟨.ofMethod (normalizeClass r.owner) r.method docblock, docblock⟩

/-- The part of a docblock's fields that a directive documents: a field, what a reference takes
over from the docblock that it leads to, or nothing. -/
inductive Documents (registry : Registry) (docblockOf : String → String → Option String) :
    Nat → Directive → List DataField → Prop
  | field {hops : Nat} {d : Directive} {field : Field} (h : d.content = .data field) :
      Documents registry docblockOf hops d [⟨field, d.traits⟩]
  | reference {hops : Nat} {d : Directive} {r : Reference} {t : Site} {nested : List DataField}
      (h : d.content = .see r) (ht : r.site? docblockOf = some t)
      (hnested : fieldsOf registry docblockOf hops t.context t.docblock = .ok nested) :
      Documents registry docblockOf (hops + 1) d (nested.map (·.takenOver r d.traits))
  | other {hops : Nat} {d : Directive} (hdata : ∀ field, d.content ≠ .data field)
      (hsee : ∀ r, d.content ≠ .see r) : Documents registry docblockOf hops d []

theorem follow_eq_ok_iff {d : Directive} {r : Reference} {part : List DataField}
    (hr : d.content = .see r) :
    follow docblockOf (fieldsOf registry docblockOf hops) r d.traits = .ok part ↔
      Documents registry docblockOf (hops + 1) d part := by
  constructor
  · intro h
    unfold follow at h
    split at h
    · cases h
    · rename_i target htarget
      obtain ⟨nested, hnested, h⟩ := bind_eq_ok.1 h
      rw [mapM_reuse (faithful_of_mem_fieldsOf hnested)] at h
      cases h
      exact .reference hr (Option.map_eq_some_iff.2 ⟨target, htarget, rfl⟩) hnested
  · intro h
    cases h with
    | field h => rw [hr] at h; cases h
    | reference h ht hnested =>
      rw [hr] at h
      cases h
      obtain ⟨target, htarget, rfl⟩ := Option.map_eq_some_iff.1 ht
      unfold follow
      rw [htarget]
      exact bind_eq_ok.2 ⟨_, hnested, mapM_reuse (faithful_of_mem_fieldsOf hnested) r d.traits⟩
    | other _ hsee => exact absurd hr (hsee r)

theorem fieldsUnder_eq_ok_iff {visit : Reference → Traits → Except Error (List DataField)}
    (hvisit : ∀ {d : Directive} {r part}, d.content = .see r →
      (visit r d.traits = .ok part ↔ Documents registry docblockOf hops d part))
    {d : Directive} {part : List DataField} :
    fieldsUnder visit d = .ok part ↔ Documents registry docblockOf hops d part := by
  unfold fieldsUnder
  split
  · rename_i field hfield
    constructor
    · intro h
      cases h
      exact .field hfield
    · intro h
      cases h with
      | field h =>
        rw [hfield] at h
        cases h
        rfl
      | reference h => rw [hfield] at h; cases h
      | other hdata _ => exact absurd hfield (hdata field)
  · rename_i r hr
    exact hvisit hr
  · rename_i hdata hsee
    constructor
    · intro h
      cases h
      exact .other hdata hsee
    · intro h
      cases h with
      | field h => exact absurd h (hdata _)
      | reference h => exact absurd h (hsee _)
      | other => rfl

/-- The fields of a docblock are those that its directives document, bound to its scopes and vendor
tags. -/
theorem fieldsOf_eq_ok_iff {s : Site} :
    fieldsOf registry docblockOf hops s.context s.docblock = .ok fields ↔
      ∃ ds parts, s.directives registry = .ok ds ∧
        List.Forall₂ (Documents registry docblockOf hops) ds parts ∧
        fields = parts.flatten.map (·.gate (scopesIn ds) (vendorTagsIn ds)) := by
  cases hops with
  | zero =>
    -- over no hops a reference documents nothing, and reading it is an error
    have hunder := @fieldsUnder_eq_ok_iff registry docblockOf 0
      (fun r traits => .error (unresolved r traits.context)) (fun {d r part} hr => by
        refine ⟨fun h => (by cases h), fun h => ?_⟩
        cases h with
        | field h => rw [hr] at h; cases h
        | other _ hsee => exact absurd hr (hsee r))
    rw [fieldsOf, gatherFields_eq_ok]
    simp only [hunder]
    rfl
  | succ hops =>
    rw [fieldsOf, gatherFields_eq_ok]
    simp only [fieldsUnder_eq_ok_iff follow_eq_ok_iff]
    rfl

end VersionedApi
