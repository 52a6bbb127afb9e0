import VersionedApi.Proofs.Action.WellFormed

/-!
# An action and the directives of its docblock

An action is read from the tags of its docblock, part by part and without `directivesOf`. Where all
directives of the docblock can be read, both ways agree:

* `directivesOf_ok` : the directives are those of the tags of known kinds, in order;
* `Action.reads_iff`, `Action.readsKept_iff` : so what a part reads are the directives of its kinds;
* `Action.Selects` : an action that is put together from the directives of a docblock by their
  kinds; `Action.Acceptable` : the conditions on these directives alone;
* `Action.read_agrees_directives` : the docblock is read as an action exactly if its directives are
  acceptable, and the action selects them.
-/

namespace VersionedApi

open VersionedApi.Docblock

variable {registry : Registry} {place : Context} {ds : List Directive}

namespace Action

/-! ## The directives of the known tags -/

def isKnownTag (t : ScopedTag) : Bool := (Kind.ofTag? t.1.name).isSome

/-- A tag is read as this directive, of the kind that it names. -/
def ReadsKnown (registry : Registry) (place : Context) (t : ScopedTag) (d : Directive) : Prop :=
  ∃ kind, Kind.ofTag? t.1.name = some kind ∧ Reads registry place kind t d

/-- The directives of a docblock are those of its known tags, in order. -/
theorem directivesOf_ok {tags : List Tag} (h : directivesOf registry place tags = .ok ds) :
    ∃ entries, versionScopes place tags = .ok entries ∧
      List.Forall₂ (ReadsKnown registry place) (entries.filter isKnownTag) ds := by
  unfold directivesOf at h
  obtain ⟨entries, hentries, hreads⟩ := bind_eq_ok.1 h
  refine ⟨entries, hentries, ?_⟩
  replace hreads := mapM_eq_ok.1 hreads
  clear h hentries
  induction entries generalizing ds with
  | nil =>
    rw [List.forall₂_nil_left_iff.1 hreads]
    exact .nil
  | cons t entries ih =>
    obtain ⟨tag, version⟩ := t
    rw [List.filterMap_cons] at hreads
    cases hkind : Kind.ofTag? tag.name with
    | none =>
      rw [List.filter_cons_of_neg (by simp [isKnownTag, hkind])]
      simp only [hkind, Option.map_none] at hreads
      exact ih hreads
    | some kind =>
      rw [List.filter_cons_of_pos (by simp [isKnownTag, hkind])]
      simp only [hkind, Option.map_some] at hreads
      obtain ⟨d, rest, hread, hrest, rfl⟩ := List.forall₂_cons_left_iff.1 hreads
      exact .cons ⟨kind, hkind, hread⟩ (ih hrest)

/-! ## What the parts of an action read -/

section Parts
variable {tags : List ScopedTag} {xs : List Directive}
  (h : List.Forall₂ (ReadsKnown registry place) (tags.filter isKnownTag) ds)
include h

theorem forall₂_select_iff {S : ScopedTag → Directive → Prop} {p : ScopedTag → Bool}
    {q : Directive → Bool} (hpq : ∀ t d, ReadsKnown registry place t d → p t = q d)
    (hknown : ∀ t, p t = true → isKnownTag t = true)
    (hS : ∀ t d, ReadsKnown registry place t d → p t = true → S t d)
    (hunique : Relator.RightUnique S) :
    List.Forall₂ S (tags.filter p) xs ↔ ds.filter q = xs := by
  have hfilter : (tags.filter isKnownTag).filter p = tags.filter p := by
    rw [List.filter_filter]
    apply List.filter_congr
    intro t _
    cases hp : p t with
    | false => rfl
    | true => rw [hknown t hp, Bool.and_true]
  have hread : List.Forall₂ S (tags.filter p) (ds.filter q) := by
    rw [← hfilter]
    exact forall₂_filter h hpq hS
  constructor
  · intro hxs
    exact List.right_unique_forall₂' hunique hread hxs
  · rintro rfl
    exact hread

theorem reads_iff {kind : Kind} :
    List.Forall₂ (Reads registry place kind) (ofKind kind tags) xs ↔
      ds.filter (·.kind == kind) = xs := by
  apply forall₂_select_iff h
  · rintro t d ⟨k, hk, hd⟩
    rw [hk, (Directive.readAs hd).kind]
    rfl
  · intro t ht
    rw [isKnownTag, beq_iff_eq.1 ht]
    rfl
  · rintro t d ⟨k, hk, hd⟩ ht
    obtain rfl : k = kind := Option.some.inj (hk.symm.trans (beq_iff_eq.1 ht))
    exact hd
  · intro t d e hd he
    exact Except.ok.inj (hd.symm.trans he)

theorem readsKept_iff :
    List.Forall₂ (ReadsKept registry place) (tags.filter isKeptTag) xs ↔
      ds.filter (isKept ·.kind) = xs := by
  have hkept : ∀ {t : ScopedTag} {k : Kind}, Kind.ofTag? t.1.name = some k →
      isKeptTag t = isKept k := by
    intro t k hk
    rw [isKeptTag, hk]
    cases hkind : isKept k <;> simp [Option.filter, hkind]
  apply forall₂_select_iff h
  · rintro t d ⟨k, hk, hd⟩
    rw [hkept hk, (Directive.readAs hd).kind]
  · intro t ht
    unfold isKnownTag
    cases hk : Kind.ofTag? t.1.name with
    | none => simp [isKeptTag, hk] at ht
    | some k => rfl
  · rintro t d ⟨k, hk, hd⟩ ht
    exact ⟨k, hk, (hkept hk).symm.trans ht, hd⟩
  · rintro t d e ⟨k, hk, -, hd⟩ ⟨k', hk', -, he⟩
    obtain rfl : k = k' := Option.some.inj (hk.symm.trans hk')
    exact Except.ok.inj (hd.symm.trans he)

end Parts

/-! ## Actions by selection -/

/-- The kinds that actions keep beside label, description and content type. -/
def keptKinds : List Kind :=
  [.vendorTag, .param, .minVersion, .returns, .scope, .throws, .uri, .uriSegment]

/-- The parts of an action are directives of a docblock, selected by their kinds. -/
structure Selects (a : Action) (place : Context) (ds : List Directive) : Prop where
  label : ds.filter (·.kind == .label) = [labelled place a.label]
  description : ds.filter (·.kind == .description) = a.description.toList.map (described place)
  contentTypes : ds.filter (·.kind == .contentType) = a.contentTypes.map (typed place)
  directives : a.directives = ds.filter (·.kind ∈ keptKinds)

/-- The directives of a docblock can be put together to an action. -/
structure Acceptable (ds : List Directive) : Prop where
  label : ds.countP (·.kind == .label) = 1
  description : ds.countP (·.kind == .description) ≤ 1
  contentType : ∃ d ∈ ds, d.kind = .contentType
  unversioned : ds.countP (fun d => d.kind == .contentType && d.traits.version.isNone) ≤ 1
  firstVersion : ds.countP (·.kind == .minVersion) ≤ 1
  path : ∃ d ∈ ds, d.kind = .uri
  hidden : ¬ ((∀ d ∈ ds, d.kind = .uri → d.traits.visibility = some .internal) ∧
    ∃ d ∈ ds, d.kind ∈ keptKinds ∧ d.kind ≠ .uri ∧ d.traits.visibility = some .published)

theorem filter_isKept (ds : List Directive) :
    ds.filter (isKept ·.kind) = ds.filter (·.kind ∈ keptKinds) := by
  apply List.filter_congr
  intro d _
  rw [Bool.eq_iff_iff, decide_eq_true_eq]
  exact isKept_iff d.kind

namespace Selects

variable {a : Action}

theorem mem_directives (h : a.Selects place ds) {d : Directive} :
    d ∈ a.directives ↔ d ∈ ds ∧ d.kind ∈ keptKinds := by
  rw [h.directives, List.mem_filter, decide_eq_true_eq]

theorem mem_directives_of_uri (h : a.Selects place ds) {d : Directive} (hkind : d.kind = .uri) :
    d ∈ a.directives ↔ d ∈ ds := by
  rw [h.mem_directives, hkind]
  exact and_iff_left (by decide)

theorem contentTypes_ne_nil_iff (h : a.Selects place ds) :
    a.contentTypes ≠ [] ↔ ∃ d ∈ ds, d.kind = .contentType := by
  have hfilter : ds.filter (·.kind == .contentType) ≠ [] ↔ ∃ d ∈ ds, d.kind = .contentType := by
    simp
  rw [← hfilter, h.contentTypes, ne_eq, ne_eq, List.map_eq_nil_iff]

theorem length_unversioned_eq (h : a.Selects place ds) :
    (a.contentTypes.filter (·.version.isNone)).length =
      ds.countP (fun d => d.kind == .contentType && d.traits.version.isNone) := by
  have htyped : (a.contentTypes.map (typed place)).filter (·.traits.version.isNone) =
      (a.contentTypes.filter (·.version.isNone)).map (typed place) := List.filter_map
  rw [← List.length_map (typed place), ← htyped, ← h.contentTypes, List.filter_filter,
    List.countP_eq_length_filter]
  simp only [Bool.and_comm]

theorem firstVersions_eq (h : a.Selects place ds) :
    firstVersions a.directives = ds.countP (·.kind == .minVersion) := by
  unfold firstVersions
  rw [h.directives, List.countP_filter]
  apply List.countP_congr
  intro d _
  rw [Bool.and_eq_true, decide_eq_true_eq, beq_iff_eq]
  constructor
  · exact And.left
  · intro hkind
    exact ⟨hkind, by rw [hkind]; decide⟩

theorem exists_uri_iff (h : a.Selects place ds) :
    (∃ d ∈ a.directives, d.kind = .uri) ↔ ∃ d ∈ ds, d.kind = .uri := by
  constructor
  · rintro ⟨d, hd, hkind⟩
    exact ⟨d, (h.mem_directives_of_uri hkind).1 hd, hkind⟩
  · rintro ⟨d, hd, hkind⟩
    exact ⟨d, (h.mem_directives_of_uri hkind).2 hd, hkind⟩

/-- What is checked of the directives that are kept says the same of those of the docblock. -/
theorem hidden_iff (h : a.Selects place ds) :
    ((∀ d ∈ a.directives, d.kind = .uri → d.traits.visibility = some .internal) →
        ∀ d ∈ a.directives, d.kind ≠ .uri → d.traits.visibility ≠ some .published) ↔
      ¬ ((∀ d ∈ ds, d.kind = .uri → d.traits.visibility = some .internal) ∧
        ∃ d ∈ ds, d.kind ∈ keptKinds ∧ d.kind ≠ .uri ∧
          d.traits.visibility = some .published) := by
  have hpaths : (∀ d ∈ a.directives, d.kind = .uri → d.traits.visibility = some .internal) ↔
      ∀ d ∈ ds, d.kind = .uri → d.traits.visibility = some .internal := by
    constructor
    · intro hall d hd hkind
      exact hall d ((h.mem_directives_of_uri hkind).2 hd) hkind
    · intro hall d hd hkind
      exact hall d ((h.mem_directives_of_uri hkind).1 hd) hkind
  rw [hpaths]
  constructor
  · rintro hhidden ⟨hall, d, hd, hkept, hkind, hpublic⟩
    exact hhidden hall d (h.mem_directives.2 ⟨hd, hkept⟩) hkind hpublic
  · intro hhidden hall d hd hkind hpublic
    obtain ⟨hmem, hkept⟩ := h.mem_directives.1 hd
    exact hhidden ⟨hall, d, hmem, hkept, hkind, hpublic⟩

/-- In terms of the action that selects them, directives are acceptable if it passes its checks. -/
theorem acceptable_iff (h : a.Selects place ds) :
    Acceptable ds ↔ (a.contentTypes ≠ [] ∧ (a.contentTypes.filter (·.version.isNone)).length ≤ 1) ∧
      firstVersions a.directives ≤ 1 ∧ (∃ d ∈ a.directives, d.kind = .uri) ∧
        ((∀ d ∈ a.directives, d.kind = .uri → d.traits.visibility = some .internal) →
          ∀ d ∈ a.directives, d.kind ≠ .uri → d.traits.visibility ≠ some .published) := by
  have hlabel : ds.countP (·.kind == .label) = 1 := by
    rw [List.countP_eq_length_filter, h.label]
    rfl
  have hdescription : ds.countP (·.kind == .description) ≤ 1 := by
    rw [List.countP_eq_length_filter, h.description, List.length_map]
    exact Option.length_toList_le
  rw [h.contentTypes_ne_nil_iff, h.length_unversioned_eq, h.firstVersions_eq, h.exists_uri_iff,
    h.hidden_iff]
  constructor
  · intro hacc
    exact ⟨⟨hacc.contentType, hacc.unversioned⟩, hacc.firstVersion, hacc.path, hacc.hidden⟩
  · rintro ⟨⟨htype, hone⟩, hfirst, hpath, hhidden⟩
    exact ⟨hlabel, hdescription, htype, hone, hfirst, hpath, hhidden⟩

end Selects

/-! ## Both ways agree -/

section Agreement
variable {tags : List ScopedTag}
  (h : List.Forall₂ (ReadsKnown registry place) (tags.filter isKnownTag) ds)
include h

theorem exists_reads_of_mem {d : Directive} (hd : d ∈ ds) :
    ∃ t, Reads registry place d.kind t d := by
  obtain ⟨t, -, kind, -, hread⟩ := exists_of_mem_forall₂ h hd
  rw [(Directive.readAs hread).kind]
  exact ⟨t, hread⟩

/-- Every path says who may see it, so the check of what is public means what it says. -/
theorem Selects.exposed?_eq_none_iff {a : Action} (hselects : a.Selects place ds)
    (hpath : ∃ d ∈ a.directives, d.kind = .uri) : a.exposed? = none ↔
      ((∀ d ∈ a.directives, d.kind = .uri → d.traits.visibility = some .internal) →
        ∀ d ∈ a.directives, d.kind ≠ .uri → d.traits.visibility ≠ some .published) := by
  apply Action.exposed?_eq_none_iff hpath
  intro d hd hkind
  obtain ⟨t, hread⟩ := exists_reads_of_mem h (hselects.mem_directives.1 hd).1
  rw [(Directive.readAs hread).visibility, hkind]
  rfl

theorem exists_filter_eq_map {α : Type} {kind : Kind} {make : α → Directive}
    (hmake : ∀ t d, Reads registry place kind t d → ∃ x, d = make x) :
    ∃ xs : List α, ds.filter (·.kind == kind) = xs.map make := by
  have hall : ∀ d ∈ ds.filter (·.kind == kind), ∃ x, d = make x := by
    intro d hd
    obtain ⟨hmem, hkind⟩ := List.mem_filter.1 hd
    obtain ⟨t, hread⟩ := exists_reads_of_mem h hmem
    rw [beq_iff_eq.1 hkind] at hread
    exact hmake t d hread
  obtain ⟨xs, hxs⟩ := exists_forall₂_iff.2 hall
  refine ⟨xs, ?_⟩
  rwa [← List.forall₂_eq_eq_eq, List.forall₂_map_right_iff]

theorem exists_selects (hacc : Acceptable ds) (owner method : String) :
    ∃ a : Action, a.owner = owner ∧ a.method = method ∧ a.Selects place ds := by
  obtain ⟨labels, hlabels⟩ := exists_filter_eq_map h fun _ _ => Reads.exists_labelled
  obtain ⟨descriptions, hdescriptions⟩ := exists_filter_eq_map h fun _ _ => Reads.exists_described
  obtain ⟨types, htypes⟩ : ∃ types : List ContentType,
      ds.filter (·.kind == .contentType) = types.map (typed place) := by
    apply exists_filter_eq_map h
    intro t d hread
    obtain ⟨mediaType, rfl⟩ := Reads.exists_typed hread
    exact ⟨_, rfl⟩
  have hone : labels.length = 1 := by
    rw [← hacc.label, List.countP_eq_length_filter, hlabels, List.length_map]
  have hmost : descriptions.length ≤ 1 := by
    rw [← List.length_map (described place), ← hdescriptions, ← List.countP_eq_length_filter]
    exact hacc.description
  obtain ⟨label, rfl⟩ := List.length_eq_one_iff.1 hone
  obtain ⟨description, rfl⟩ : ∃ text? : Option String, text?.toList = descriptions := by
    rcases descriptions with _ | ⟨text, _ | ⟨other, rest⟩⟩
    · exact ⟨none, rfl⟩
    · exact ⟨some text, rfl⟩
    · simp at hmost
  exact ⟨⟨owner, method, label, description, types, ds.filter (·.kind ∈ keptKinds)⟩, rfl, rfl,
    hlabels, hdescriptions, htypes, rfl⟩

end Agreement

variable {source : ActionSource} {a : Action}

/-- A docblock whose directives can all be read is read as an action exactly if the action selects
these directives and they are acceptable. -/
theorem read_eq_ok_iff_selects
    (h : directivesOf registry source.context (tagsOf source.docblock) = .ok ds) :
    Action.read registry source = .ok a ↔ (a.owner = source.owner ∧ a.method = source.method) ∧
      a.Selects source.context ds ∧ Acceptable ds := by
  obtain ⟨tags, htags, hreads⟩ := directivesOf_ok h
  constructor
  · intro hread
    obtain ⟨tags', htags', hlabel, hdescription, htypes, hkept, huri, hexposed, howner, hmethod⟩ :=
      read_ok hread
    obtain rfl : tags = tags' := Except.ok.inj (htags.symm.trans htags')
    obtain ⟨hchecked, htypes⟩ := readContentTypes_eq_ok_iff.1 htypes
    obtain ⟨hfirst, hkept⟩ := readKept_eq_ok_iff.1 hkept
    have hselects : a.Selects source.context ds :=
      { label := (reads_iff hreads).1 (readLabel_eq_ok_iff.1 hlabel)
        description := (reads_iff hreads).1 (readDescription_eq_ok_iff.1 hdescription)
        contentTypes := (reads_iff hreads).1 htypes
        directives := by rw [← (readsKept_iff hreads).1 hkept, filter_isKept] }
    have hpath : ∃ d ∈ a.directives, d.kind = .uri := by simpa using huri
    exact ⟨⟨howner, hmethod⟩, hselects, hselects.acceptable_iff.2
      ⟨hchecked, hfirst, hpath, (hselects.exposed?_eq_none_iff hreads hpath).1 hexposed⟩⟩
  · rintro ⟨⟨howner, hmethod⟩, hselects, hacc⟩
    obtain ⟨hchecked, hfirst, hpath, hhidden⟩ := hselects.acceptable_iff.1 hacc
    have hkept : ds.filter (isKept ·.kind) = a.directives := by
      rw [hselects.directives, filter_isKept]
    exact read_of_parts htags (readLabel_eq_ok_iff.2 ((reads_iff hreads).2 hselects.label))
      (readDescription_eq_ok_iff.2 ((reads_iff hreads).2 hselects.description))
      (readContentTypes_eq_ok_iff.2 ⟨hchecked, (reads_iff hreads).2 hselects.contentTypes⟩)
      (readKept_eq_ok_iff.2 ⟨hfirst, (readsKept_iff hreads).2 hkept⟩) (by simpa using hpath)
      ((hselects.exposed?_eq_none_iff hreads hpath).2 hhidden) howner hmethod

/-- Reading an action and reading all directives of its docblock agree. Where the latter succeeds,
the docblock is an action exactly if its directives are acceptable, and then label, description and
content types of the action are theirs, and it keeps those of the eight kept kinds in order. -/
theorem read_agrees_directives
    (h : directivesOf registry source.context (tagsOf source.docblock) = .ok ds) :
    ((∃ a, Action.read registry source = .ok a) ↔ Acceptable ds) ∧
      ∀ a, Action.read registry source = .ok a → a.Selects source.context ds := by
  refine ⟨⟨?_, ?_⟩, ?_⟩
  · rintro ⟨a, hread⟩
    exact ((read_eq_ok_iff_selects h).1 hread).2.2
  · intro hacc
    obtain ⟨tags, -, hreads⟩ := directivesOf_ok h
    obtain ⟨a, howner, hmethod, hselects⟩ :=
      exists_selects hreads hacc source.owner source.method
    exact ⟨a, (read_eq_ok_iff_selects h).2 ⟨⟨howner, hmethod⟩, hselects, hacc⟩⟩
  · intro a hread
    exact ((read_eq_ok_iff_selects h).1 hread).2.1

namespace Movies

/-- The docblock of a list that tells its readers of a field and of a tag that nobody knows, of
which an action keeps neither. -/
def annotatedList : ActionSource := .ofMethod "Movies" "get" <|
  "/**\n * @api-label Movies\n * @api-path:public \x7bMovies\x7d /movies\n" ++
  " * @api-data id (integer) - ID\n * @api-since 2020\n * @api-contentType application/json\n" ++
  " * @api-version >=1.7\n * @api-contentType text/xml\n */"

def late : Version.Range := ⟨⟨some ⟨17, by decide, by decide⟩, none⟩, ">=1.7"⟩

def annotations : List Directive :=
  [labelled annotatedList.context "Movies",
    ⟨.uri "Movies" "/movies",
      { visibility := some .published, context := annotatedList.context }⟩,
    ⟨.data { name := "id", typeName := "integer", description := some "ID" },
      { context := annotatedList.context }⟩,
    typed annotatedList.context ⟨"application/json", none⟩,
    typed annotatedList.context ⟨"text/xml", some late⟩]

end Movies

/-- The directives of the docblock can be read and are acceptable, so it is an action, which selects
them. -/
theorem read_agrees_directives_movies :
    directivesOf {} Movies.annotatedList.context (tagsOf Movies.annotatedList.docblock) =
        .ok Movies.annotations ∧
      Acceptable Movies.annotations ∧ ∃ a, Action.read {} Movies.annotatedList = .ok a ∧
        a.Selects Movies.annotatedList.context Movies.annotations := by
  have hread : directivesOf {} Movies.annotatedList.context
      (tagsOf Movies.annotatedList.docblock) = .ok Movies.annotations :=
    toOption_eq_some.1 (by decide +kernel)
  have hacc : Acceptable Movies.annotations := by
    constructor <;> decide +kernel
  obtain ⟨hiff, hselects⟩ := read_agrees_directives hread
  obtain ⟨a, ha⟩ := hiff.2 hacc
  exact ⟨hread, hacc, a, ha, hselects a ha⟩

end Action

end VersionedApi
