import VersionedApi.Proofs.Action.Read
import VersionedApi.Proofs.Changelog.Build
import VersionedApi.Proofs.Graph.Filter

/-!
# Compiled graphs

* `compile_ok`, `compile_eq` : a compiled graph holds what was read from each source, in order;
* `Filter.action?_minVersion?` : a filter never touches the first version of an action;
* `Filter.entry?_eq_some_iff` : so an action has an entry in a view exactly if it survives, and the
  entry has the directives that are shown and in force;
* `Graph.changelog_ok` : there is a changelog under every filter, and it lists what the actions and
  representations that pass the filter undergo.
-/

namespace VersionedApi

variable {registry : Registry} {supported : List Version.Number} {sources : Sources} {g : Graph}

theorem compile_ok (h : compile registry supported sources = .ok g) :
    g.supported = supported ∧
      sources.representations.mapM (Representation.read registry
        (DocblockIndex.ofSources sources.representations).find?) = .ok g.representations ∧
      sources.actions.mapM (Action.read registry) = .ok g.actions ∧
      missingReference? (g.representations.map Representation.owner) g.actions = none := by
  unfold compile at h
  obtain ⟨representations, hrepresentations, h⟩ := bind_eq_ok.1 h
  obtain ⟨actions, hactions, h⟩ := bind_eq_ok.1 h
  split at h
  · cases h
  · rename_i hmissing
    cases h
    exact ⟨rfl, hrepresentations, hactions, hmissing⟩

theorem compile_eq (supported : List Version.Number) {rs : List Representation}
    {actions : List Action}
    (hrs : sources.representations.mapM (Representation.read registry
      (DocblockIndex.ofSources sources.representations).find?) = .ok rs)
    (hactions : sources.actions.mapM (Action.read registry) = .ok actions) :
    compile registry supported sources =
      match missingReference? (rs.map Representation.owner) actions with
      | some e => .error e
      | none => .ok { supported, actions, representations := rs } := by
  rw [compile, hrs, hactions]
  rfl

theorem Action.at?_routes_of_isAt {a b : Action} {v : Version.Number}
    (h : ∀ d ∈ a.directives, ∀ group path, d.content = .uri group path → d.traits.isAt v = true)
    (hb : a.at? v = some b) : b.routes = a.routes := by
  obtain ⟨-, rfl⟩ := at?_eq_some_iff.1 hb
  have hroutes := routes_filter (a := a) (p := (·.traits.isAt v)) (q := fun _ => true) h
  rw [List.filter_true] at hroutes
  exact hroutes

namespace Filter

variable {source : ActionSource} {f : Filter} {a b : Action}

/-- No filter hides what has neither a visibility nor a capability. -/
theorem shows_of_readAs {kind : Kind} {version : Option Version.Range} {d : Directive}
    (hd : d.ReadAs kind version) (hvisibility : kind.needsVisibility = false)
    (hinline : kind ∉ [Kind.uriSegment, .param, .data, .returns, .throws]) : f.Shows d := by
  refine ⟨fun hprivate => ?_, fun tag htag => ?_, fun tag htag => ?_⟩
  · have hvisible := hd.visibility
    rw [hprivate, hvisibility] at hvisible
    cases hvisible
  · have hmem := htag.kind_mem
    rw [show d.content.kind = kind from hd.kind] at hmem
    exact absurd hmem hinline
  · rw [hd.vendorTags] at htag
    cases htag

theorem shows_minVersion (h : Action.read registry source = .ok a) {d : Directive}
    (hd : d ∈ a.directives) (hkind : d.kind = .minVersion) : f.Shows d := by
  obtain ⟨kind, version, -, hd⟩ := Action.readAs_of_mem h hd
  obtain rfl : Kind.minVersion = kind := hkind.symm.trans hd.kind
  exact shows_of_readAs hd rfl (by decide)

theorem action?_minVersion? (h : Action.read registry source = .ok a)
    (hb : f.action? a = some b) : b.minVersion? = a.minVersion? := by
  obtain ⟨-, rfl⟩ := action?_eq_some_iff.1 hb
  exact Action.minVersion?_filter fun d hd hkind => allows_iff.2 (shows_minVersion h hd hkind)

/-- An action has an entry in a view exactly if it survives. The entry has the directives that are
shown and in force, in their order, and the one media type in force. -/
theorem entry?_eq_some_iff (h : Action.read registry source = .ok a) {v : Version.Number}
    {e : Action} :
    f.entry? v a = some e ↔ f.Survives v a ∧
      e = { a with
        contentTypes :=
          (a.contentTypes.find? fun t => a.contentTypeAt? (some v) == some t.mediaType).toList
        directives := (a.directives.filter f.allows).filter (·.traits.isAt v) } := by
  unfold entry?
  rw [Option.bind_eq_some_iff]
  constructor
  · rintro ⟨b, hb, he⟩
    have hfirst := action?_minVersion? h hb
    obtain ⟨⟨hgroup, hcapabilities, hrouted⟩, rfl⟩ := action?_eq_some_iff.1 hb
    obtain ⟨hsince, rfl⟩ := Action.at?_eq_some_iff.1 he
    rw [hfirst] at hsince
    exact ⟨⟨hgroup, hcapabilities, hsince, hrouted⟩, rfl⟩
  · rintro ⟨⟨hgroup, hcapabilities, hsince, hrouted⟩, rfl⟩
    have hb := action?_eq_some_iff.2 ⟨⟨hgroup, hcapabilities, hrouted⟩, rfl⟩
    refine ⟨_, hb, Action.at?_eq_some_iff.2 ⟨?_, rfl⟩⟩
    rw [action?_minVersion? h hb]
    exact hsince

end Filter

namespace Graph

variable {f : Filter} {a b : Action}

theorem exists_source (h : compile registry supported sources = .ok g) (ha : a ∈ g.actions) :
    ∃ source ∈ sources.actions, Action.read registry source = .ok a :=
  exists_of_mem_mapM (compile_ok h).2.2.1 ha

theorem action?_minVersion? (h : compile registry supported sources = .ok g) (ha : a ∈ g.actions)
    (hb : f.action? a = some b) : b.minVersion? = a.minVersion? := by
  obtain ⟨source, -, hread⟩ := exists_source h ha
  exact Filter.action?_minVersion? hread hb

theorem entry?_eq_some_iff (h : compile registry supported sources = .ok g) (ha : a ∈ g.actions)
    {v : Version.Number} {e : Action} :
    f.entry? v a = some e ↔ f.Survives v a ∧
      e = { a with
        contentTypes :=
          (a.contentTypes.find? fun t => a.contentTypeAt? (some v) == some t.mediaType).toList
        directives := (a.directives.filter f.allows).filter (·.traits.isAt v) } := by
  obtain ⟨source, -, hread⟩ := exists_source h ha
  exact Filter.entry?_eq_some_iff hread

theorem mem_entry_iff (h : compile registry supported sources = .ok g) (ha : a ∈ g.actions)
    {v : Version.Number} {d : Directive} (hd : d ∈ a.directives) :
    (∃ e, f.entry? v a = some e ∧ d ∈ e.directives) ↔
      f.Survives v a ∧ f.Shows d ∧ d.traits.isAt v = true := by
  constructor
  · rintro ⟨e, he, hmem⟩
    obtain ⟨hsurvives, rfl⟩ := (entry?_eq_some_iff h ha).1 he
    simp only [List.mem_filter, Filter.allows_iff] at hmem
    exact ⟨hsurvives, hmem.1.2, hmem.2⟩
  · rintro ⟨hsurvives, hshows, hat⟩
    refine ⟨_, (entry?_eq_some_iff h ha).2 ⟨hsurvives, rfl⟩, ?_⟩
    simp only [List.mem_filter, Filter.allows_iff]
    exact ⟨⟨hd, hshows⟩, hat⟩

/-! ## The changelog -/

/-- There is a changelog under every filter, and it lists what passes the filter and changes. -/
theorem changelog_ok (h : compile registry supported sources = .ok g) (f : Filter) :
    ∃ log, g.changelog f = .ok log ∧ ∀ c, c ∈ log.changes ↔
      (∃ a ∈ g.actions, ∃ b, f.action? a = some b ∧ b.Undergoes g.supported c) ∨
        ∃ r ∈ g.representations, c ∈ (f.representation r).changes g.supported := by
  have hfirst : ∀ b ∈ g.actions.filterMap f.action?, ∀ first, b.minVersion? = some first →
      0 ≤ first.tenths := by
    intro b hb first hfirst
    obtain ⟨a, ha, hb⟩ := List.mem_filterMap.1 hb
    obtain ⟨source, -, hread⟩ := exists_source h ha
    rw [action?_minVersion? h ha hb] at hfirst
    exact Action.minVersion_nonneg hread hfirst
  obtain ⟨log, hlog, hmem⟩ := Changelog.build_ok g.supported
    (g.representations.map f.representation) hfirst
  refine ⟨log, hlog, fun c => ?_⟩
  rw [hmem]
  simp only [List.mem_filterMap, List.mem_map]
  constructor
  · rintro (⟨b, ⟨a, ha, hb⟩, hc⟩ | ⟨_, ⟨r, hr, rfl⟩, hc⟩)
    · exact Or.inl ⟨a, ha, b, hb, hc⟩
    · exact Or.inr ⟨r, hr, hc⟩
  · rintro (⟨a, ha, b, hb, hc⟩ | ⟨r, hr, hc⟩)
    · exact Or.inl ⟨b, ⟨a, ha, hb⟩, hc⟩
    · exact Or.inr ⟨_, ⟨r, hr, rfl⟩, hc⟩

end Graph

/-! ## A small documentation

One action with a public and a private path, which begins with version 1.2 and has a parameter in
version 1.1 only, and one class with a field for all versions and another from 1.1 on. -/

namespace Movies

def second : Version.Number := ⟨11, by decide, by decide⟩

def third : Version.Number := ⟨12, by decide, by decide⟩

def versions : List Version.Number := [.one, second, third]

def listing : String :=
  "/**\n * @api-label Movies\n * @api-uri:public \x7bMovies\x7d /movies\n" ++
  " * @api-uri:private \x7bMovies\x7d /all\n" ++
  " * @api-contentType application/json\n * @api-minVersion 1.2\n * @api-version 1.1\n" ++
  " * @api-param:public page (integer) - Page\n */"

def tags : List Docblock.Tag :=
  [⟨"label", [], "Movies", 2⟩, ⟨"uri", ["public"], "\x7bMovies\x7d /movies", 3⟩,
    ⟨"uri", ["private"], "\x7bMovies\x7d /all", 4⟩, ⟨"contenttype", [], "application/json", 5⟩,
    ⟨"minversion", [], "1.2", 6⟩, ⟨"version", [], "1.1", 7⟩,
    ⟨"param", ["public"], "page (integer) - Page", 8⟩]

def identity : String := "/** @api-data id (integer) - ID */"

def genre : String := "/**\n * @api-version >=1.1\n * @api-data genre (string) - Genre\n */"

def documentation : Sources :=
  { actions := [{ owner := "\\Movies", method := "GET", docblock := listing }]
    representations :=
      [{ owner := "\\Movie"
         docblock := "/** @api-label Movie */"
         members := [⟨"getId", identity⟩, ⟨"getGenre", genre⟩] }] }

def page : Directive :=
  { content := .param
      { name := "page", sample := none, typeName := "integer", subtype := none
        required := false, nullable := false, capability := none
        description := some "Page", values := none }
    traits :=
      { version := some { first := some second, last := some second, text := "1.1" }
        visibility := some .published
        context := .ofMethod "\\Movies" "GET" listing } }

def action : Action :=
  { owner := "\\Movies"
    method := "GET"
    label := "Movies"
    description := none
    contentTypes := [⟨"application/json", none⟩]
    directives :=
      [⟨.uri "Movies" "/movies",
          { visibility := some .published, context := .ofMethod "\\Movies" "GET" listing }⟩,
        ⟨.uri "Movies" "/all",
          { visibility := some .internal, context := .ofMethod "\\Movies" "GET" listing }⟩,
        ⟨.minVersion third, { context := .ofMethod "\\Movies" "GET" listing }⟩,
        page] }

def shown : Action := { action with directives := action.directives.eraseIdx 1 }

/-- The field that is there from version 1.1 on. -/
def genreField : DataField :=
  { field :=
      { name := "genre", sample := none, typeName := "string", subtype := none
        required := false, nullable := false, capability := none
        description := some "Genre", values := none }
    traits :=
      { version := some { first := some second, last := none, text := ">=1.1" }
        context := .ofMethod "\\Movie" "getGenre" genre } }

def representation : Representation :=
  { owner := "\\Movie"
    label := "Movie"
    description := none
    fields :=
      [{ field :=
          { name := "id", sample := none, typeName := "integer", subtype := none
            required := false, nullable := false, capability := none
            description := some "ID", values := none }
         traits := { context := .ofMethod "\\Movie" "getId" identity } },
       genreField] }

def graph : Graph :=
  { supported := versions, actions := [action], representations := [representation] }

theorem ascending : versions.Pairwise (· < ·) := by decide

theorem compiled : compile {} versions documentation = .ok graph := by
  have htags : Docblock.tagsOf listing = tags := by
    unfold Docblock.tagsOf listing
    simp only [String.toList_append]
    decide +kernel
  have haction : Action.read {} { owner := "\\Movies", method := "GET", docblock := listing } =
      .ok action := by
    unfold Action.read
    rw [htags]
    exact toOption_eq_some.1 (by decide +kernel)
  have hrepresentation : documentation.representations.mapM (Representation.read {}
      (DocblockIndex.ofSources documentation.representations).find?) = .ok [representation] :=
    toOption_eq_some.1 (by decide +kernel)
  rw [compile_eq versions hrepresentation (mapM_eq_ok.2 (.cons haction .nil))]
  rfl

theorem passes : Filter.action? {} action = some shown := rfl

theorem page_mem : page ∈ shown.directives :=
  List.mem_cons_of_mem _ (List.mem_cons_of_mem _ List.mem_cons_self)

end Movies

/-! Another one: a movie that the staff reaches on a path of its own, with a description of that
path and a parameter for the staff, in three formats. XML is for version 1.1 only, as is the
parameter, and YAML from 1.1 on. -/

namespace Formats

def listing : String :=
  "/**\n * @api-label Movie\n * @api-uri:public \x7bMovies\x7d /movies/+id\n" ++
  " * @api-uri:private \x7bMovies\x7d /staff/+id\n" ++
  " * @api-uriSegment \x7b/staff/+id\x7d id (integer) - ID\n" ++
  " * @api-contentType application/json\n * @api-version 1.1\n" ++
  " * @api-contentType application/xml\n * @api-param:private cut (string) - Cut\n" ++
  " * @api-version >=1.1\n * @api-contentType application/yaml\n */"

def tags : List Docblock.Tag :=
  [⟨"label", [], "Movie", 2⟩, ⟨"uri", ["public"], "\x7bMovies\x7d /movies/+id", 3⟩,
    ⟨"uri", ["private"], "\x7bMovies\x7d /staff/+id", 4⟩,
    ⟨"urisegment", [], "\x7b/staff/+id\x7d id (integer) - ID", 5⟩,
    ⟨"contenttype", [], "application/json", 6⟩, ⟨"version", [], "1.1", 7⟩,
    ⟨"contenttype", [], "application/xml", 8⟩, ⟨"param", ["private"], "cut (string) - Cut", 9⟩,
    ⟨"version", [], ">=1.1", 10⟩, ⟨"contenttype", [], "application/yaml", 11⟩]

def documentation : Sources :=
  { actions := [{ owner := "\\Movies", method := "GET", docblock := listing }] }

def outer : Route :=
  ⟨"Movies", "/movies/+id",
    { visibility := some .published, context := .ofMethod "\\Movies" "GET" listing }⟩

def inner : Route :=
  ⟨"Movies", "/staff/+id",
    { visibility := some .internal, context := .ofMethod "\\Movies" "GET" listing }⟩

/-- The part of the path of the staff that is described. -/
def identifier : Field := { name := "id", typeName := "integer", description := some "ID" }

def json : ContentType := ⟨"application/json", none⟩

def xml : ContentType :=
  ⟨"application/xml",
    some { first := some Movies.second, last := some Movies.second, text := "1.1" }⟩

def yaml : ContentType :=
  ⟨"application/yaml", some { first := some Movies.second, last := none, text := ">=1.1" }⟩

def action : Action :=
  { owner := "\\Movies", method := "GET", label := "Movie", description := none
    contentTypes := [json, xml, yaml]
    directives :=
      [⟨.uri outer.group outer.path, outer.traits⟩, ⟨.uri inner.group inner.path, inner.traits⟩,
        ⟨.uriSegment (some inner.path) identifier,
          { context := .ofMethod "\\Movies" "GET" listing }⟩,
        ⟨.param { name := "cut", typeName := "string", description := some "Cut" },
          { version := xml.version, visibility := some .internal
            context := .ofMethod "\\Movies" "GET" listing }⟩] }

def shown : Action :=
  { action with directives := (action.directives.eraseIdx 3).eraseIdx 1 }

def graph : Graph := { supported := Movies.versions, actions := [action], representations := [] }

theorem compiled : compile {} Movies.versions documentation = .ok graph := by
  have htags : Docblock.tagsOf listing = tags := by
    unfold Docblock.tagsOf listing
    simp only [String.toList_append]
    decide +kernel
  have haction : Action.read {} { owner := "\\Movies", method := "GET", docblock := listing } =
      .ok action := by
    unfold Action.read
    rw [htags]
    exact toOption_eq_some.1 (by decide +kernel)
  have hnone : documentation.representations.mapM (Representation.read {}
      (DocblockIndex.ofSources documentation.representations).find?) = .ok [] := rfl
  rw [compile_eq Movies.versions hnone (mapM_eq_ok.2 (.cons haction .nil))]
  rfl

theorem passes : Filter.action? {} action = some shown := rfl

end Formats

end VersionedApi
