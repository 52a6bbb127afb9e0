import VersionedApi.Proofs.Action.WellFormed
import VersionedApi.Proofs.Docblock.Classes
import VersionedApi.Proofs.Graph.Compiled
import VersionedApi.Proofs.Representation.Names
import VersionedApi.Proofs.Text.Cut

/-!
# Responses name representations that exist

* `Content.Names` : a response names a representation; if it was read, that is what is looked up
  (`Content.Proper.representation?_eq_some_iff`);
* `Sources.Dangling`, `Sources.FirstDangling` : a response names a class that no source has, and is
  the first to do so: in the order of the actions, and in an action the responses of success before
  the others;
* `compile_of_dangling` : then compiling fails at it;
* `Graph.exists_representation` : a compiled graph has the representations that its responses name;
* `Graph.references_resolve` : so do all its views, and nothing else compiles.
-/

namespace VersionedApi

open VersionedApi.Text

/-! ## Names in responses -/

inductive Content.Names : Content → String → Prop
  | returns {response : Response} {name : String} :
      response.representation = some name → Names (.returns response) name
  | throws {response : Response} {name : String} :
      response.representation = some name → Names (.throws response) name

theorem Content.Names.kind {c : Content} {name : String} (h : c.Names name) :
    c.kind = .returns ∨ c.kind = .throws := by
  cases h with
  | returns => exact Or.inl rfl
  | throws => exact Or.inr rfl

/-- Failures that were read name a representation, so what is looked up is what they name. -/
theorem Content.Proper.representation?_eq_some_iff {registry : Registry} {c : Content}
    (hc : c.Proper registry) {name : String} : c.representation? = some name ↔ c.Names name := by
  constructor
  · intro h
    cases c with
    | returns response => exact .returns h
    | throws response =>
      obtain ⟨name', hname'⟩ := Option.isSome_iff_exists.1 hc.2
      rw [Content.representation?, hname'] at h
      cases h
      exact .throws hname'
    | _ => cases h
  · intro h
    cases h with
    | returns h => exact h
    | throws h => rw [Content.representation?, h, Option.getD_some]

theorem Action.proper_of_mem {registry : Registry} {source : ActionSource} {a : Action}
    (h : Action.read registry source = .ok a) {d : Directive} (hd : d ∈ a.directives) :
    d.content.Proper registry := by
  obtain ⟨tags, hmade⟩ := exists_madeFrom h
  exact hmade.proper hd

theorem unknownReference?_eq_some_iff {registry : Registry} {known : List String} {d : Directive}
    (hd : d.content.Proper registry) {e : Error} :
    unknownReference? known d = some e ↔ ∃ name, d.content.Names name ∧
      normalizeClass name ∉ known ∧
      e = .documentation (.unknownRepresentation name) d.traits.context := by
  simp only [unknownReference?, Option.map_eq_some_iff, Option.filter_eq_some_iff,
    hd.representation?_eq_some_iff, Bool.not_eq_true', List.contains_eq_mem,
    decide_eq_false_iff_not]
  constructor
  · rintro ⟨name, ⟨hname, hmissing⟩, rfl⟩
    exact ⟨name, hname, hmissing, rfl⟩
  · rintro ⟨name, hname, hmissing, rfl⟩
    exact ⟨name, ⟨hname, hmissing⟩, rfl⟩

/-! ## The first response that names nothing -/

/-- The response names a class that no source has. -/
structure Sources.Dangling (sources : Sources) (d : Directive) (name : String) : Prop where
  names : d.content.Names name
  missing : ∀ s ∈ sources.representations, normalizeClass s.owner ≠ normalizeClass name

/-- The class that the response names, if it names one, is that of a source. -/
def Sources.Settles (sources : Sources) (d : Directive) : Prop :=
  ∀ name, ¬ sources.Dangling d name

/-- No response of an earlier action names a class that is missing, nor does a response of the same
kind before this one, and if this one is a failure, all responses of success are settled too. -/
structure Sources.FirstDangling (sources : Sources) (actions : List Action) (d : Directive)
    (name : String) : Prop where
  dangling : sources.Dangling d name
  first : ∃ before a after, actions = before ++ a :: after ∧
    (∀ b ∈ before, ∀ x ∈ b.directives, sources.Settles x) ∧
    (∃ earlier later, a.directives = earlier ++ d :: later ∧
      ∀ x ∈ earlier, x.kind = d.kind → sources.Settles x) ∧
    (d.kind = .throws → ∀ x ∈ a.directives, x.kind = .returns → sources.Settles x)

theorem findSome?_flatMap {α β γ : Type} {f : α → List β} {p : β → Option γ} (xs : List α) :
    (xs.flatMap f).findSome? p = xs.findSome? fun x => (f x).findSome? p := by
  induction xs with
  | nil => rfl
  | cons x xs ih =>
    rw [List.flatMap_cons, List.findSome?_append, ih, List.findSome?_cons]
    cases (f x).findSome? p <;> rfl

/-- The first of the elements that satisfy `q` stands behind none that does so and is chosen. -/
theorem findSome?_filter_eq_some {α β : Type} {q : α → Bool} {p : α → Option β} {xs : List α}
    {y : β} (h : (xs.filter q).findSome? p = some y) :
    ∃ earlier x later, xs = earlier ++ x :: later ∧ q x = true ∧ p x = some y ∧
      ∀ z ∈ earlier, q z = true → p z = none := by
  obtain ⟨chosen, x, rest, hfilter, hx, hnone⟩ := List.findSome?_eq_some_iff.1 h
  obtain ⟨front, back, rfl, rfl, hback⟩ := List.filter_eq_append_iff.1 hfilter
  obtain ⟨skipped, later, rfl, hskipped, hq, -⟩ := List.filter_eq_cons_iff.1 hback
  refine ⟨front ++ skipped, x, later, (List.append_assoc ..).symm, hq, hx, fun z hz hzq => ?_⟩
  rcases List.mem_append.1 hz with hz | hz
  · exact hnone z (List.mem_filter.2 ⟨hz, hzq⟩)
  · exact absurd hzq (hskipped z hz)

theorem Action.mem_responses {a : Action} {d : Directive} :
    d ∈ a.responses ↔ d ∈ a.directives ∧ (d.kind = .returns ∨ d.kind = .throws) := by
  simp only [responses, List.mem_append, List.mem_filter, beq_iff_eq]
  exact and_or_left.symm

section Dangling
variable {registry : Registry} {supported : List Version.Number} {sources : Sources}
  {actions : List Action}

theorem owners_of_read {docblockOf : String → String → Option String}
    {ss : List RepresentationSource} {rs : List Representation}
    (h : ss.mapM (Representation.read registry docblockOf) = .ok rs) :
    rs.map Representation.owner = ss.map RepresentationSource.owner := by
  have hall := mapM_eq_ok.1 h
  clear h
  induction hall with
  | nil => rfl
  | cons hread _ ih => rw [List.map_cons, List.map_cons, ih, (Representation.read_ok hread).2.2.2]

variable (hnew : ∀ s ∈ sources.representations, ∃ owner, s.owner = normalizeClass owner)
include hnew

theorem dangling_iff {d : Directive} {name : String} :
    sources.Dangling d name ↔ d.content.Names name ∧
      normalizeClass name ∉ sources.representations.map RepresentationSource.owner := by
  have hnormal : ∀ s ∈ sources.representations, normalizeClass s.owner = s.owner := by
    intro s hs
    obtain ⟨owner, howner⟩ := hnew s hs
    rw [howner, normalizeClass_normalizeClass]
  constructor
  · rintro ⟨hnames, hmissing⟩
    refine ⟨hnames, fun hmem => ?_⟩
    obtain ⟨s, hs, howner⟩ := List.mem_map.1 hmem
    exact hmissing s hs ((hnormal s hs).trans howner)
  · rintro ⟨hnames, hmissing⟩
    refine ⟨hnames, fun s hs howner => hmissing (List.mem_map.2 ⟨s, hs, ?_⟩)⟩
    exact (hnormal s hs).symm.trans howner

theorem unknown_iff_dangling {d : Directive} (hd : d.content.Proper registry) {e : Error} :
    unknownReference? (sources.representations.map RepresentationSource.owner) d = some e ↔
      ∃ name, sources.Dangling d name ∧
        e = .documentation (.unknownRepresentation name) d.traits.context := by
  simp only [unknownReference?_eq_some_iff hd, dangling_iff hnew, and_assoc]

theorem settles_of_unknown {d : Directive} (hd : d.content.Proper registry)
    (h : unknownReference? (sources.representations.map RepresentationSource.owner) d = none) :
    sources.Settles d := by
  intro name hdangling
  rw [(unknown_iff_dangling hnew hd).2 ⟨name, hdangling, rfl⟩] at h
  cases h

theorem settles_of_responses {a : Action} (ha : ∀ d ∈ a.directives, d.content.Proper registry)
    (h : a.responses.findSome? (unknownReference?
      (sources.representations.map RepresentationSource.owner)) = none)
    {d : Directive} (hd : d ∈ a.directives) : sources.Settles d := by
  intro name hdangling
  have hmem : d ∈ a.responses := Action.mem_responses.2 ⟨hd, hdangling.names.kind⟩
  have hnone := List.findSome?_eq_none_iff.1 h d hmem
  exact settles_of_unknown hnew (ha d hd) hnone name hdangling

/-- Of several actions, the reference that is reported is the first that dangles. -/
theorem firstDangling_of_missing
    (hactions : ∀ a ∈ actions, ∀ d ∈ a.directives, d.content.Proper registry) {e : Error}
    (h : missingReference? (sources.representations.map RepresentationSource.owner) actions =
      some e) :
    ∃ d name, sources.FirstDangling actions d name ∧
      e = .documentation (.unknownRepresentation name) d.traits.context := by
  rw [missingReference?, findSome?_flatMap] at h
  obtain ⟨before, a, after, rfl, ha, hbefore⟩ := List.findSome?_eq_some_iff.1 h
  have hproper := hactions a (by simp)
  have hsettled : ∀ b ∈ before, ∀ x ∈ b.directives, sources.Settles x := fun b hb x hx =>
    settles_of_responses hnew (hactions b (List.mem_append_left _ hb)) (hbefore b hb) hx
  -- among responses of one kind the first is found that dangles
  have hkind : ∀ {kind : Kind}, (kind = .throws →
        ∀ x ∈ a.directives, x.kind = .returns → sources.Settles x) →
      (a.directives.filter (·.kind == kind)).findSome? (unknownReference?
        (sources.representations.map RepresentationSource.owner)) = some e →
      ∃ d name, sources.FirstDangling (before ++ a :: after) d name ∧
        e = .documentation (.unknownRepresentation name) d.traits.context := by
    intro kind hreturns hfind
    obtain ⟨earlier, d, later, hsplit, hd, he, hearlier⟩ := findSome?_filter_eq_some hfind
    obtain rfl : d.kind = kind := eq_of_beq hd
    have hmem : ∀ x ∈ earlier ++ d :: later, x.content.Proper registry := hsplit ▸ hproper
    obtain ⟨name, hdangling, rfl⟩ := (unknown_iff_dangling hnew (hmem d (by simp))).1 he
    refine ⟨d, name, ⟨hdangling, before, a, after, rfl, hsettled, ⟨earlier, later, hsplit, ?_⟩,
      hreturns⟩, rfl⟩
    intro x hx hxkind
    exact settles_of_unknown hnew (hmem x (List.mem_append_left _ hx))
      (hearlier x hx (beq_iff_eq.2 hxkind))
  rw [Action.responses, List.findSome?_append, Option.or_eq_some_iff] at ha
  rcases ha with ha | ⟨hreturns, ha⟩
  · exact hkind (fun hthrows => by cases hthrows) ha
  · refine hkind (fun _ x hx hxkind => settles_of_unknown hnew (hproper x hx) ?_) ha
    exact List.findSome?_eq_none_iff.1 hreturns x (List.mem_filter.2 ⟨hx, beq_iff_eq.2 hxkind⟩)

/-- If all sources are read and a response dangles, compiling fails at the first that does. -/
theorem compile_of_dangling
    (hrepresentations : ∀ s ∈ sources.representations, ∃ r, Representation.read registry
      (DocblockIndex.ofSources sources.representations).find? s = .ok r)
    (hactions : List.Forall₂ (fun s a => Action.read registry s = .ok a) sources.actions actions)
    {a : Action} {d : Directive} {name : String} (ha : a ∈ actions) (hd : d ∈ a.directives)
    (hdangling : sources.Dangling d name) :
    ∃ d name, sources.FirstDangling actions d name ∧ compile registry supported sources =
      .error (.documentation (.unknownRepresentation name) d.traits.context) := by
  have hproper : ∀ a ∈ actions, ∀ d ∈ a.directives, d.content.Proper registry := by
    intro a ha d hd
    obtain ⟨s, -, hread⟩ := exists_of_mem_forall₂ hactions ha
    exact Action.proper_of_mem hread hd
  obtain ⟨rs, hrs⟩ := exists_mapM_eq_ok.2 hrepresentations
  have hcompile := compile_eq supported hrs (mapM_eq_ok.2 hactions)
  rw [owners_of_read hrs] at hcompile
  cases hmissing : missingReference?
      (sources.representations.map RepresentationSource.owner) actions with
  | some e =>
    obtain ⟨d, name, hfirst, rfl⟩ := firstDangling_of_missing hnew hproper hmissing
    exact ⟨d, name, hfirst, hcompile.trans (by rw [hmissing])⟩
  | none =>
    rw [missingReference?, findSome?_flatMap] at hmissing
    have hnone := List.findSome?_eq_none_iff.1 hmissing a ha
    exact absurd hdangling (settles_of_responses hnew (hproper a ha) hnone hd name)

end Dangling

/-! ## Compiled graphs -/

namespace Graph

variable {registry : Registry} {supported : List Version.Number} {sources : Sources} {g : Graph}
  {a : Action} {d : Directive} {name : String}

theorem exists_representation (h : compile registry supported sources = .ok g)
    (ha : a ∈ g.actions) (hd : d ∈ a.directives) (hname : d.content.Names name) :
    ∃ r ∈ g.representations, r.owner = normalizeClass name := by
  obtain ⟨source, -, hread⟩ := exists_source h ha
  have hproper := Action.proper_of_mem hread hd
  by_contra hnone
  have hunknown : normalizeClass name ∉ g.representations.map Representation.owner := by
    intro hmem
    obtain ⟨r, hr, howner⟩ := List.mem_map.1 hmem
    exact hnone ⟨r, hr, howner⟩
  have hresponse : d ∈ g.actions.flatMap Action.responses :=
    List.mem_flatMap.2 ⟨a, ha, Action.mem_responses.2 ⟨hd, hname.kind⟩⟩
  have hfound := List.findSome?_eq_none_iff.1 (compile_ok h).2.2.2 d hresponse
  rw [(unknownReference?_eq_some_iff hproper).2 ⟨name, hname, hunknown, rfl⟩] at hfound
  cases hfound

theorem representation?_of_names (h : compile registry supported sources = .ok g)
    (ha : a ∈ g.actions) (hd : d ∈ a.directives) (hname : d.content.Names name) :
    ∃ r, g.representation? name = some r ∧ r.owner = normalizeClass name := by
  obtain ⟨r, hr, howner⟩ := exists_representation h ha hd hname
  obtain ⟨found, hfound⟩ := Option.isSome_iff_exists.1
    (List.find?_isSome.2 ⟨r, hr, beq_iff_eq.2 howner⟩ : (g.representation? name).isSome = true)
  have hnormal := List.find?_some hfound
  exact ⟨found, hfound, eq_of_beq hnormal⟩

theorem exists_of_mem_view (h : compile registry supported sources = .ok g) {v : Version.Number}
    {f : Filter} {b : Action} (hb : b ∈ (g.view v f).actions) (hd : d ∈ b.directives) :
    ∃ a ∈ g.actions, d ∈ a.directives := by
  rw [view_actions] at hb
  obtain ⟨a, ha, hentry⟩ := List.mem_filterMap.1 hb
  obtain ⟨-, rfl⟩ := (entry?_eq_some_iff h ha).1 hentry
  exact ⟨a, ha, (List.mem_filter.1 (List.mem_filter.1 hd).1).1⟩

theorem exists_view_representation {v : Version.Number} {f : Filter} {r : Representation}
    (hr : r ∈ g.representations) : ∃ r' ∈ (g.view v f).representations, r'.owner = r.owner :=
  ⟨_, List.mem_map.2 ⟨r, hr, rfl⟩, rfl⟩

/-- Sources with normal classes that compile have all representations that their responses name, in
the graph and in every view. If they are all read and a response names a class that none of them
has, compiling fails, and names the first such response. -/
theorem references_resolve (registry : Registry) (supported : List Version.Number)
    (sources : Sources)
    (hnew : ∀ s ∈ sources.representations, ∃ owner, s.owner = normalizeClass owner) :
    (∀ g, compile registry supported sources = .ok g →
      (∀ a ∈ g.actions, ∀ d ∈ a.directives, ∀ name, d.content.Names name →
        ∃ r, g.representation? name = some r ∧ r.owner = normalizeClass name) ∧
      ∀ v f, ∀ a ∈ (g.view v f).actions, ∀ d ∈ a.directives, ∀ name, d.content.Names name →
        (∃ r ∈ (g.view v f).representations, r.owner = normalizeClass name) ∧
          ∃ r, g.representation? name = some r ∧ r.owner = normalizeClass name) ∧
    ∀ actions, List.Forall₂ (fun s a => Action.read registry s = .ok a) sources.actions actions →
      (∀ s ∈ sources.representations, ∃ r, Representation.read registry
        (DocblockIndex.ofSources sources.representations).find? s = .ok r) →
      (∃ a ∈ actions, ∃ d ∈ a.directives, ∃ name, sources.Dangling d name) →
      ∃ d name, sources.FirstDangling actions d name ∧ compile registry supported sources =
        .error (.documentation (.unknownRepresentation name) d.traits.context) := by
  constructor
  · intro g h
    refine ⟨fun a ha d hd name hname => representation?_of_names h ha hd hname, ?_⟩
    intro v f b hb d hd name hname
    obtain ⟨a, ha, hd⟩ := exists_of_mem_view h hb hd
    obtain ⟨r, hr, howner⟩ := exists_representation h ha hd hname
    obtain ⟨r', hr', howner'⟩ := exists_view_representation hr
    exact ⟨⟨r', hr', howner'.trans howner⟩, representation?_of_names h ha hd hname⟩
  · rintro actions hactions hrepresentations ⟨a, ha, d, hd, name, hdangling⟩
    exact compile_of_dangling hnew hrepresentations hactions ha hd hdangling

end Graph

/-! ## An action whose failure stands before its success -/

namespace Answers

def docblock : String :=
  "/**\n * @api-label Movie\n * @api-uri:public \x7bM\x7d /m\n * @api-contentType a/b\n" ++
  " * @api-throws:public (404, Movie)\n * @api-return:public (200, \\Movie)\n */"

def traits : Traits :=
  { visibility := some .published, context := .ofMethod "\\M" "GET" docblock }

def failure : Directive := ⟨.throws { code := 404, representation := some "Movie" }, traits⟩

def success : Directive := ⟨.returns { code := 200, representation := some "\\Movie" }, traits⟩

def action : Action :=
  { owner := "\\M"
    method := "GET"
    label := "Movie"
    description := none
    contentTypes := [⟨"a/b", none⟩]
    directives := [⟨.uri "M" "/m", traits⟩, failure, success] }

def sources (representations : List RepresentationSource) : Sources :=
  { actions := [{ owner := "\\M", method := "GET", docblock }], representations }

def graph : Graph :=
  { supported := Movies.versions, actions := [action], representations := [Movies.representation] }

theorem read : Action.read {} { owner := "\\M", method := "GET", docblock } = .ok action :=
  toOption_eq_some.1 (by decide +kernel)

theorem read_all (representations : List RepresentationSource) :
    (sources representations).actions.mapM (Action.read {}) = .ok [action] :=
  mapM_eq_ok.2 (.cons read .nil)

theorem compiled :
    compile {} Movies.versions (sources Movies.documentation.representations) = .ok graph := by
  have hmissing : missingReference? ([Movies.representation].map Representation.owner) [action] =
      none := by decide +kernel
  have hread : (sources Movies.documentation.representations).representations.mapM
      (Representation.read {} (DocblockIndex.ofSources
        (sources Movies.documentation.representations).representations).find?) =
      .ok [Movies.representation] := (compile_ok Movies.compiled).2.1
  rw [compile_eq Movies.versions hread (read_all _), hmissing]
  rfl

theorem refused : compile {} Movies.versions (sources []) =
    .error (.documentation (.unknownRepresentation "\\Movie") traits.context) := by
  have hmissing : missingReference? ([].map Representation.owner) [action] =
      some (.documentation (.unknownRepresentation "\\Movie") traits.context) := by decide +kernel
  have hread : (sources []).representations.mapM (Representation.read {}
      (DocblockIndex.ofSources (sources []).representations).find?) = .ok [] := rfl
  rw [compile_eq Movies.versions hread (read_all _), hmissing]

end Answers

/-- Both spellings of the class lead to its representation. Without a source for it the response of
success is the one that is reported, though the failure stands before it. -/
theorem Graph.references_resolve_answers :
    (compile {} Movies.versions (Answers.sources Movies.documentation.representations) =
        .ok Answers.graph ∧
      (∃ r ∈ (Answers.graph.view .one {}).representations, r.owner = normalizeClass "Movie") ∧
      ∃ r, Answers.graph.representation? "Movie" = some r ∧ r.owner = normalizeClass "Movie") ∧
    ∃ d, (Answers.sources []).FirstDangling [Answers.action] d "\\Movie" ∧
      compile {} Movies.versions (Answers.sources []) =
        .error (.documentation (.unknownRepresentation "\\Movie") d.traits.context) := by
  have hnew : ∀ s ∈ Movies.documentation.representations, ∃ owner, s.owner = normalizeClass owner :=
    List.forall_mem_singleton.2 ⟨"Movie", by decide +kernel⟩
  have hview := ((references_resolve {} Movies.versions (Answers.sources _) hnew).1 _
    Answers.compiled).2 .one {}
  have hmem : Answers.action ∈ (Answers.graph.view .one {}).actions := by decide +kernel
  refine ⟨⟨Answers.compiled, hview _ hmem Answers.failure (by decide +kernel) _ (.throws rfl)⟩, ?_⟩
  have hdangling : (Answers.sources []).Dangling Answers.success "\\Movie" :=
    ⟨.returns rfl, fun s hs => by cases hs⟩
  obtain ⟨d, name, hfirst, hcompile⟩ :=
    (references_resolve {} Movies.versions (Answers.sources [])
      (fun s hs => by cases hs)).2 [Answers.action]
      (.cons Answers.read .nil) (fun s hs => by cases hs)
      ⟨_, List.mem_singleton.2 rfl, _, by decide +kernel, _, hdangling⟩
  have herror := hcompile.symm.trans Answers.refused
  injection herror with herror
  injection herror with hfault
  injection hfault with hname
  exact ⟨d, hname ▸ hfirst, hname ▸ hcompile⟩

end VersionedApi
