import VersionedApi.Proofs.Action.Read
import VersionedApi.Proofs.Directive.Content

/-!
# Actions that are accepted are well formed

* `Action.documented` : everything that an action says, as directives: label, description, media
  types, and the directives that it keeps;
* `Action.MadeFrom` : these are the directives of the tags of a docblock, in order;
* `Action.WellFormed` : what readers of an action rely on;
* `Action.read_eq_ok_iff_wellFormed` : a docblock is read as an action exactly if the action is made
  from it and well formed.
-/

namespace VersionedApi

open VersionedApi.Docblock

namespace Action

def documented (a : Action) (place : Context) : List Directive :=
  labelled place a.label :: (a.description.toList.map (described place) ++
    a.contentTypes.map (typed place) ++ a.directives)

/-- An action says what the tags of a docblock say, where the versions in force are those of
`tags`. -/
structure MadeFrom (registry : Registry) (source : ActionSource) (tags : List ScopedTag)
    (a : Action) : Prop where
  owner : a.owner = source.owner
  method : a.method = source.method
  inForce : versionScopes source.context (tagsOf source.docblock) = .ok tags
  allTags : tags.map (·.1) = (tagsOf source.docblock).filter (·.name != "version")
  inOrder : tags.Pairwise fun s t => s.1.line < t.1.line
  label : List.Forall₂ (Reads registry source.context .label) (ofKind .label tags)
    [labelled source.context a.label]
  description : List.Forall₂ (Reads registry source.context .description)
    (ofKind .description tags) (a.description.toList.map (described source.context))
  contentTypes : List.Forall₂ (Reads registry source.context .contentType)
    (ofKind .contentType tags) (a.contentTypes.map (typed source.context))
  directives : List.Forall₂ (ReadsKept registry source.context) (tags.filter isKeptTag)
    a.directives

/-- What holds of every action that is accepted. -/
structure WellFormed (registry : Registry) (place : Context) (a : Action) : Prop where
  label : a.label ≠ ""
  contentTypes : a.contentTypes ≠ []
  unversioned : (a.contentTypes.filter (·.version.isNone)).length ≤ 1
  path : ∃ d ∈ a.directives, d.kind = .uri
  firstVersion : firstVersions a.directives ≤ 1
  kept : ∀ d ∈ a.directives, d.kind ∈
    [.vendorTag, .param, .minVersion, .returns, .scope, .throws, .uri, .uriSegment]
  visibility : ∀ d ∈ a.documented place,
    d.traits.visibility.isSome = true ↔ d.kind ∈ [.uri, .param, .returns, .throws]
  version : ∀ d ∈ a.documented place,
    d.traits.version.isSome = true → d.kind ∈ [.param, .returns, .throws, .contentType]
  deprecated : ∀ d ∈ a.documented place, d.traits.deprecated = true → d.kind ∈ [.uri, .param]
  thrown : ∀ d ∈ a.directives, ∀ r, d.content = .throws r → r.representation.isSome = true
  returned : ∀ d ∈ a.directives, ∀ r, d.content = .returns r → r.errorCode = none
  params : ∀ d ∈ a.directives, ∀ f, d.content = .param f → f.description.isSome = true
  segments : ∀ d ∈ a.directives, ∀ uri f, d.content = .uriSegment uri f →
    f.description.isSome = true
  scopes : ∀ d ∈ a.directives, ∀ name text, d.content = .scope name text →
    registry.hasScope name = true
  hidden : (∀ d ∈ a.directives, d.kind = .uri → d.traits.visibility = some .internal) →
    ∀ d ∈ a.documented place, d.traits.visibility ≠ some .published

/-! ## What the kinds allow -/

theorem needsVisibility_iff (kind : Kind) :
    kind.needsVisibility = true ↔ kind ∈ [Kind.uri, .param, .returns, .throws] := by
  cases kind <;> decide

theorem isKept_iff (kind : Kind) : isKept kind = true ↔
    kind ∈ [Kind.vendorTag, .param, .minVersion, .returns, .scope, .throws, .uri, .uriSegment] := by
  cases kind <;> decide

/-- The kinds of the directives that an action can say something by. -/
def isDocumented (kind : Kind) : Bool :=
  isKept kind || kind == .label || kind == .description || kind == .contentType

theorem mem_of_isVersioned {kind : Kind} (hkind : isDocumented kind = true)
    (h : kind.isVersioned = true) : kind ∈ [Kind.param, .returns, .throws, .contentType] := by
  revert hkind h
  cases kind <;> decide

theorem mem_of_allowsDeprecation {kind : Kind} (hkind : isDocumented kind = true)
    (h : kind.allowsDeprecation = true) : kind ∈ [Kind.uri, .param] := by
  revert hkind h
  cases kind <;> decide

/-! ## Where the directives come from -/

namespace MadeFrom

variable {registry : Registry} {source : ActionSource} {tags : List ScopedTag} {a : Action}

theorem exists_readsKept (h : MadeFrom registry source tags a) {d : Directive}
    (hd : d ∈ a.directives) : ∃ t, ReadsKept registry source.context t d := by
  obtain ⟨t, -, ht⟩ := exists_of_mem_forall₂ h.directives hd
  exact ⟨t, ht⟩

theorem exists_reads (h : MadeFrom registry source tags a) {d : Directive}
    (hd : d ∈ a.documented source.context) :
    ∃ kind t, isDocumented kind = true ∧ Reads registry source.context kind t d := by
  unfold documented at hd
  rw [List.mem_cons, List.mem_append, List.mem_append] at hd
  rcases hd with rfl | (hd | hd) | hd
  · obtain ⟨t, -, ht⟩ := exists_of_mem_forall₂ h.label List.mem_cons_self
    exact ⟨.label, t, rfl, ht⟩
  · obtain ⟨t, -, ht⟩ := exists_of_mem_forall₂ h.description hd
    exact ⟨.description, t, rfl, ht⟩
  · obtain ⟨t, -, ht⟩ := exists_of_mem_forall₂ h.contentTypes hd
    exact ⟨.contentType, t, rfl, ht⟩
  · obtain ⟨t, kind, -, hkept, ht⟩ := h.exists_readsKept hd
    exact ⟨kind, t, by simp [isDocumented, hkept], ht⟩

end MadeFrom

theorem mem_documented {a : Action} {place : Context} {d : Directive} (hd : d ∈ a.directives) :
    d ∈ a.documented place := by
  unfold documented
  simp [hd]

/-! ## What follows from the parts -/

namespace MadeFrom

variable {registry : Registry} {source : ActionSource} {tags : List ScopedTag} {a : Action}

theorem label_ne_empty (h : MadeFrom registry source tags a) : a.label ≠ "" := by
  obtain ⟨t, -, ht⟩ := exists_of_mem_forall₂ h.label List.mem_cons_self
  exact Directive.proper_of_read ht

theorem isKept_kind (h : MadeFrom registry source tags a) {d : Directive} (hd : d ∈ a.directives) :
    isKept d.kind = true := by
  obtain ⟨t, kind, -, hkept, ht⟩ := h.exists_readsKept hd
  rw [(Directive.readAs ht).kind]
  exact hkept

theorem proper (h : MadeFrom registry source tags a) {d : Directive} (hd : d ∈ a.directives) :
    d.content.Proper registry := by
  obtain ⟨t, kind, -, -, ht⟩ := h.exists_readsKept hd
  exact Directive.proper_of_read ht

theorem visibility_iff (h : MadeFrom registry source tags a) {d : Directive}
    (hd : d ∈ a.documented source.context) :
    d.traits.visibility.isSome = true ↔ d.kind ∈ [.uri, .param, .returns, .throws] := by
  obtain ⟨kind, t, -, ht⟩ := h.exists_reads hd
  have hread := Directive.readAs ht
  rw [hread.visibility, hread.kind]
  exact needsVisibility_iff kind

theorem kind_of_version (h : MadeFrom registry source tags a) {d : Directive}
    (hd : d ∈ a.documented source.context) (hversion : d.traits.version.isSome = true) :
    d.kind ∈ [.param, .returns, .throws, .contentType] := by
  obtain ⟨kind, t, hkind, ht⟩ := h.exists_reads hd
  have hread := Directive.readAs ht
  rw [hread.version] at hversion
  rw [hread.kind]
  split at hversion
  · rename_i hversioned
    exact mem_of_isVersioned hkind hversioned
  · cases hversion

theorem kind_of_deprecated (h : MadeFrom registry source tags a) {d : Directive}
    (hd : d ∈ a.documented source.context) (hdeprecated : d.traits.deprecated = true) :
    d.kind ∈ [.uri, .param] := by
  obtain ⟨kind, t, hkind, ht⟩ := h.exists_reads hd
  have hread := Directive.readAs ht
  rw [hread.kind]
  exact mem_of_allowsDeprecation hkind (hread.deprecated hdeprecated)

theorem exposed?_eq_none_iff (h : MadeFrom registry source tags a)
    (hpath : ∃ d ∈ a.directives, d.kind = .uri) : a.exposed? = none ↔
      ((∀ d ∈ a.directives, d.kind = .uri → d.traits.visibility = some .internal) →
        ∀ d ∈ a.documented source.context, d.traits.visibility ≠ some .published) := by
  have hvisible : ∀ d ∈ a.directives, d.kind = .uri → d.traits.visibility.isSome = true := by
    intro d hd hkind
    rw [h.visibility_iff (mem_documented hd), hkind]
    decide
  rw [Action.exposed?_eq_none_iff hpath hvisible]
  constructor
  · intro hhidden hinternal d hd hpublic
    -- label, description and media types have no visibility, so this is a kept directive
    have hmem : d ∈ a.directives := by
      unfold documented at hd
      rw [List.mem_cons, List.mem_append, List.mem_append, List.mem_map, List.mem_map] at hd
      rcases hd with rfl | (⟨text, -, rfl⟩ | ⟨c, -, rfl⟩) | hd
      · cases hpublic
      · cases hpublic
      · cases hpublic
      · exact hd
    by_cases huri : d.kind = .uri
    · rw [hinternal d hmem huri] at hpublic
      cases hpublic
    · exact hhidden hinternal d hmem huri hpublic
  · intro hhidden hinternal d hd _
    exact hhidden hinternal d (mem_documented hd)

end MadeFrom

/-! ## Accepted docblocks -/

variable {registry : Registry} {source : ActionSource} {a : Action}

/-- The parts of an action that is read are those of its docblock. -/
theorem exists_madeFrom (h : Action.read registry source = .ok a) :
    ∃ tags, MadeFrom registry source tags a := by
  obtain ⟨tags, hscoped, hlabel, hdescription, htypes, hkept, -, -, howner, hmethod⟩ := read_ok h
  have htags := map_fst_versionScopes hscoped
  refine ⟨tags, howner, hmethod, hscoped, htags, ?_, readLabel_eq_ok_iff.1 hlabel,
    readDescription_eq_ok_iff.1 hdescription, (readContentTypes_eq_ok_iff.1 htypes).2,
    (readKept_eq_ok_iff.1 hkept).2⟩
  have hlines := (pairwise_line_tagsOf source.docblock).filter (·.name != "version")
  rw [← htags, List.pairwise_map] at hlines
  exact hlines

theorem wellFormed_of_read (h : Action.read registry source = .ok a) :
    WellFormed registry source.context a := by
  obtain ⟨tags, hmade⟩ := exists_madeFrom h
  obtain ⟨tags', -, -, -, htypes, hkept, huri, hexposed, -⟩ := read_ok h
  obtain ⟨⟨htypesNe, hone⟩, -⟩ := readContentTypes_eq_ok_iff.1 htypes
  have hpath : ∃ d ∈ a.directives, d.kind = .uri := by simpa using huri
  exact
    { label := hmade.label_ne_empty
      contentTypes := htypesNe
      unversioned := hone
      path := hpath
      firstVersion := (readKept_eq_ok_iff.1 hkept).1
      kept := fun d hd => (isKept_iff d.kind).1 (hmade.isKept_kind hd)
      visibility := fun d hd => hmade.visibility_iff hd
      version := fun d hd => hmade.kind_of_version hd
      deprecated := fun d hd => hmade.kind_of_deprecated hd
      thrown := fun d hd r hr => (hr ▸ hmade.proper hd : Content.Proper registry (.throws r)).2
      returned := fun d hd r hr => (hr ▸ hmade.proper hd : Content.Proper registry (.returns r)).2
      params := fun d hd f hf => (hf ▸ hmade.proper hd : Content.Proper registry (.param f))
      segments := fun d hd uri f hf =>
        (hf ▸ hmade.proper hd : Content.Proper registry (.uriSegment uri f))
      scopes := fun d hd name text hs =>
        (hs ▸ hmade.proper hd : Content.Proper registry (.scope name text))
      hidden := (hmade.exposed?_eq_none_iff hpath).1 hexposed }

/-- An action that is made from a docblock and well formed is what the docblock is read as. -/
theorem read_of_wellFormed {tags : List ScopedTag} (hmade : MadeFrom registry source tags a)
    (hwell : WellFormed registry source.context a) : Action.read registry source = .ok a := by
  have htypes := readContentTypes_eq_ok_iff.2
    ⟨⟨hwell.contentTypes, hwell.unversioned⟩, hmade.contentTypes⟩
  have hkept : readKept registry source.context false tags = .ok a.directives :=
    readKept_eq_ok_iff.2 ⟨hwell.firstVersion, hmade.directives⟩
  have huri : a.directives.any (·.kind == .uri) = true := by simpa using hwell.path
  have hexposed := (hmade.exposed?_eq_none_iff hwell.path).2 hwell.hidden
  exact read_of_parts hmade.inForce (readLabel_eq_ok_iff.2 hmade.label)
    (readDescription_eq_ok_iff.2 hmade.description) htypes hkept huri hexposed hmade.owner
    hmade.method

/-- A docblock is read as an action exactly if the action says what the tags of the docblock say, in
their order, and is well formed. -/
theorem read_eq_ok_iff_wellFormed : Action.read registry source = .ok a ↔
    (∃ tags, MadeFrom registry source tags a) ∧ WellFormed registry source.context a := by
  constructor
  · intro h
    exact ⟨exists_madeFrom h, wellFormed_of_read h⟩
  · rintro ⟨⟨tags, hmade⟩, hwell⟩
    exact read_of_wellFormed hmade hwell

namespace Movies

/-- The docblock of a private list, of which one parameter exists since version 1.4. -/
def privateList : ActionSource := .ofMethod "Movies" "get" <|
  "/**\n * @api-label List movies\n * @api-uri:private \x7bMovies\x7d /movies\n" ++
  " * @api-scope edit\n * @api-contentType application/json\n * @api-version >=1.4\n" ++
  " * @api-param:private:deprecated page (integer) - Page\n */"

def list : Action :=
  { owner := "Movies", method := "GET", label := "List movies", description := none
    contentTypes := [⟨"application/json", none⟩]
    directives :=
      [⟨.uri "Movies" "/movies", { visibility := some .internal, context := privateList.context }⟩,
        ⟨.scope "edit" none, { context := privateList.context }⟩,
        ⟨.param { name := "page", typeName := "integer", description := some "Page" },
          { version := some ⟨⟨some ⟨14, by decide, by decide⟩, none⟩, ">=1.4"⟩
            visibility := some .internal, deprecated := true, context := privateList.context }⟩] }

end Movies

/-- The docblock is accepted, so the list is well formed. -/
theorem wellFormed_movies : Action.read {} Movies.privateList = .ok Movies.list ∧
    (∃ tags, MadeFrom {} Movies.privateList tags Movies.list) ∧
      WellFormed {} Movies.privateList.context Movies.list := by
  have hread : Action.read {} Movies.privateList = .ok Movies.list :=
    toOption_eq_some.1 (by decide +kernel)
  exact ⟨hread, read_eq_ok_iff_wellFormed.1 hread⟩

end Action

end VersionedApi
