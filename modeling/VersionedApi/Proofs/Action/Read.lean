import VersionedApi.Proofs.Action.Parts

/-!
# The directives of an action that is read

`Action.readAs_of_mem` : each of them was read as one of the kinds that actions keep, so all that
`Directive.ReadAs` says holds of it. In particular a first version is not negative
(`Action.minVersion_nonneg`), and no filter hides it, since it is neither private nor bound to a
vendor tag (`Action.minVersion?_filter`). Directives of a kind without versions are in force at each
(`Action.isAt_of_read`). Media types are not among the directives of an action, but each was read
from one (`Action.exists_of_mem_contentTypes`). The paths of an action are its directives of one
kind (`Action.mem_routes`). Where only some directives are left, these are the paths, the parts of
paths and the capabilities of some (`Action.routes_filter`, `Action.segments_filter`,
`Action.capabilities_filter`).
-/

namespace VersionedApi

open VersionedApi.Docblock

namespace Action

theorem read_ok {registry : Registry} {source : ActionSource} {a : Action}
    (h : Action.read registry source = .ok a) :
    ∃ tags, versionScopes source.context (tagsOf source.docblock) = .ok tags ∧
      readLabel registry source.context tags = .ok a.label ∧
      readDescription registry source.context tags = .ok a.description ∧
      readContentTypes registry source.context tags = .ok a.contentTypes ∧
      readKept registry source.context false tags = .ok a.directives ∧
      a.directives.any (·.kind == .uri) = true ∧ a.exposed? = none ∧
      a.owner = source.owner ∧ a.method = source.method := by
  unfold Action.read at h
  obtain ⟨tags, htags, h⟩ := bind_eq_ok.1 h
  obtain ⟨label, hlabel, h⟩ := bind_eq_ok.1 h
  obtain ⟨description, hdescription, h⟩ := bind_eq_ok.1 h
  obtain ⟨contentTypes, htypes, h⟩ := bind_eq_ok.1 h
  obtain ⟨directives, hdirectives, h⟩ := bind_eq_ok.1 h
  split at h
  · cases h
  · rename_i huri
    dsimp only at h
    split at h
    · cases h
    · rename_i hexposed
      cases h
      exact ⟨tags, htags, hlabel, hdescription, htypes, hdirectives, by simpa using huri, hexposed,
        rfl, rfl⟩

theorem read_of_parts {registry : Registry} {source : ActionSource} {a : Action}
    {tags : List ScopedTag}
    (htags : versionScopes source.context (tagsOf source.docblock) = .ok tags)
    (hlabel : readLabel registry source.context tags = .ok a.label)
    (hdescription : readDescription registry source.context tags = .ok a.description)
    (htypes : readContentTypes registry source.context tags = .ok a.contentTypes)
    (hkept : readKept registry source.context false tags = .ok a.directives)
    (huri : a.directives.any (·.kind == .uri) = true) (hexposed : a.exposed? = none)
    (howner : a.owner = source.owner) (hmethod : a.method = source.method) :
    Action.read registry source = .ok a := by
  obtain ⟨owner, method, label, description, types, directives⟩ := a
  obtain rfl : owner = source.owner := howner
  obtain rfl : method = source.method := hmethod
  refine bind_eq_ok.2 ⟨tags, htags, bind_eq_ok.2 ⟨label, hlabel, bind_eq_ok.2
    ⟨description, hdescription, bind_eq_ok.2 ⟨types, htypes, bind_eq_ok.2
      ⟨directives, hkept, ?_⟩⟩⟩⟩⟩
  dsimp only at huri
  rw [huri]
  simp only [Bool.not_true, Bool.false_eq_true, if_false, hexposed]

theorem readAs_of_mem {registry : Registry} {source : ActionSource} {a : Action} {d : Directive}
    (h : Action.read registry source = .ok a) (hd : d ∈ a.directives) :
    ∃ kind version, isKept kind = true ∧ d.ReadAs kind version := by
  obtain ⟨tags, -, -, -, -, hkept, -⟩ := read_ok h
  obtain ⟨t, -, kind, -, hkind, hread⟩ :=
    exists_of_mem_forall₂ (readKept_eq_ok_iff.1 hkept).2 hd
  exact ⟨kind, t.2, hkind, Directive.readAs hread⟩

/-- What is of a kind without versions is in force at each. -/
theorem isAt_of_read {registry : Registry} {source : ActionSource} {a : Action} {d : Directive}
    (h : Action.read registry source = .ok a) (hd : d ∈ a.directives)
    (hkind : d.kind.isVersioned = false) (v : Version.Number) : d.traits.isAt v = true := by
  obtain ⟨kind, version, -, hread⟩ := readAs_of_mem h hd
  have hversion : d.traits.version = none := by
    rw [hread.version, ← hread.kind, hkind]
    rfl
  rw [Traits.isAt, hversion]
  rfl

/-! ## Media types -/

/-- The media type was read from this directive, which is one of the docblock. -/
def MediaReadFrom (registry : Registry) (source : ActionSource) (t : ContentType)
    (d : Directive) : Prop :=
  ∃ tags, versionScopes source.context (tagsOf source.docblock) = .ok tags ∧
    ∃ tag ∈ ofKind .contentType tags,
      Directive.read registry source.context .contentType tag.1 tag.2 = .ok d ∧
        d.content = .contentType t.mediaType ∧ d.traits.version = t.version

theorem exists_of_mem_contentTypes {registry : Registry} {source : ActionSource} {a : Action}
    {t : ContentType} (h : Action.read registry source = .ok a) (ht : t ∈ a.contentTypes) :
    ∃ d, MediaReadFrom registry source t d := by
  obtain ⟨tags, htags, -, -, htypes, -⟩ := read_ok h
  obtain ⟨tag, htag, hread⟩ := exists_of_mem_forall₂ (readContentTypes_eq_ok_iff.1 htypes).2
    (List.mem_map_of_mem ht)
  exact ⟨typed source.context t, tags, htags, tag, htag, hread, rfl, rfl⟩

/-! ## Paths -/

theorem exists_uri_of_kind {d : Directive} (h : d.kind = .uri) :
    ∃ group path, d.content = .uri group path := by
  unfold Directive.kind at h
  cases hcontent : d.content <;> rw [hcontent] at h <;> cases h
  exact ⟨_, _, rfl⟩

theorem mem_routes {a : Action} {route : Route} :
    route ∈ a.routes ↔ ∃ d ∈ a.directives, d.content = .uri route.group route.path ∧
      d.traits = route.traits := by
  unfold routes
  rw [List.mem_filterMap]
  constructor
  · rintro ⟨d, hd, hroute⟩
    refine ⟨d, hd, ?_⟩
    split at hroute
    · rename_i group path hcontent
      cases hroute
      exact ⟨hcontent, rfl⟩
    · cases hroute
  · rintro ⟨d, hd, hcontent, htraits⟩
    refine ⟨d, hd, ?_⟩
    rw [hcontent, htraits]

/-- What is selected from some directives, where the test on them is one on what is selected. -/
theorem select_filter {α : Type} {ds : List Directive} {select : Directive → Option α}
    {p : Directive → Bool} {q : α → Bool}
    (h : ∀ d ∈ ds, ∀ x, select d = some x → p d = q x) :
    (ds.filter p).filterMap select = (ds.filterMap select).filter q := by
  rw [List.filterMap_filter, List.filter_filterMap]
  apply List.filterMap_congr
  intro d hd
  cases hselect : select d with
  | none => simp
  | some x =>
    rw [h d hd x hselect]
    cases hq : q x <;> simp [Option.filter, hq]

/-- The paths of some of the directives of an action, where the test on them is one on paths. -/
theorem routes_filter {a : Action} {p : Directive → Bool} {q : Route → Bool}
    (h : ∀ d ∈ a.directives, ∀ group path, d.content = .uri group path →
      p d = q ⟨group, path, d.traits⟩) :
    ({ a with directives := a.directives.filter p } : Action).routes = a.routes.filter q := by
  apply select_filter
  intro d hd route hroute
  split at hroute
  · rename_i group path hcontent
    cases hroute
    exact h d hd group path hcontent
  · cases hroute

theorem segments_filter {a : Action} {p : Directive → Bool} {q : Option String × Field → Bool}
    (h : ∀ d ∈ a.directives, ∀ uri field, d.content = .uriSegment uri field →
      p d = q (uri, field)) :
    ({ a with directives := a.directives.filter p } : Action).segments = a.segments.filter q := by
  apply select_filter
  intro d hd segment hsegment
  split at hsegment
  · rename_i uri field hcontent
    cases hsegment
    exact h d hd uri field hcontent
  · cases hsegment

theorem capabilities_filter {a : Action} {p : Directive → Bool} {q : String → Bool}
    (h : ∀ d ∈ a.directives, ∀ name, d.content = .vendorTag name → p d = q name) :
    ({ a with directives := a.directives.filter p } : Action).capabilities =
      a.capabilities.filter q := by
  apply select_filter
  intro d hd tag htag
  split at htag
  · rename_i name hcontent
    cases htag
    exact h d hd tag hcontent
  · cases htag

/-! ## First versions -/

theorem exists_of_minVersion? {a : Action} {first : Version.Number}
    (h : a.minVersion? = some first) : ∃ d ∈ a.directives, d.content = .minVersion first := by
  obtain ⟨d, hd, hcontent⟩ := List.exists_of_findSome?_eq_some h
  refine ⟨d, hd, ?_⟩
  split at hcontent
  · rename_i heq
    cases hcontent
    exact heq
  · cases hcontent

theorem minVersion_nonneg {registry : Registry} {source : ActionSource} {a : Action}
    (h : Action.read registry source = .ok a) {first : Version.Number}
    (hfirst : a.minVersion? = some first) : 0 ≤ first.tenths := by
  obtain ⟨d, hd, hcontent⟩ := exists_of_minVersion? hfirst
  obtain ⟨kind, version, -, hread⟩ := readAs_of_mem h hd
  exact hread.minVersion first hcontent

theorem minVersion?_filter {a : Action} {p : Directive → Bool}
    (h : ∀ d ∈ a.directives, d.kind = .minVersion → p d = true) :
    ({ a with directives := a.directives.filter p } : Action).minVersion? = a.minVersion? := by
  unfold minVersion?
  dsimp only
  generalize a.directives = ds at h
  induction ds with
  | nil => rfl
  | cons d ds ih =>
    have hrest := ih fun d' hd' => h d' (List.mem_cons_of_mem d hd')
    by_cases hd : p d = true
    · rw [List.filter_cons_of_pos hd, List.findSome?_cons, List.findSome?_cons, hrest]
    · -- a directive that goes is of another kind, so the search passes it
      rw [List.filter_cons_of_neg hd, List.findSome?_cons, hrest]
      have hkind : d.kind ≠ .minVersion := fun hk => hd (h d List.mem_cons_self hk)
      split
      · rename_i first hfirst
        split at hfirst
        · rename_i hcontent
          exact absurd (by rw [Directive.kind, hcontent]; rfl) hkind
        · cases hfirst
      · rfl

end Action

end VersionedApi
