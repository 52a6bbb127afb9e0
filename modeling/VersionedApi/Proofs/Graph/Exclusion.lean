import VersionedApi.Proofs.Graph.Compiled

/-!
# Excluded groups in views

The group of an action is that of its first path. A filter looks at it before it takes private paths
away, so the action that is left can have another group.

* `Filter.action?_routes` : of the paths of a compiled action those stay that are shown, and no
  version takes one away (`Filter.entry?_routes`);
* `Filter.Uncovers` : the paths begin with hidden ones, and the first one that is shown is in an
  excluded group; `Filter.group_mem_excluded_iff` : then the action that is left is in that group;
* `Filter.action?_of_passed` : the filter lets pass what it has made, unless that is in an excluded
  group;
* `Graph.excluded_groups_iff` : excluded groups stay out of a view, and nothing that passed a filter
  is dropped by it, exactly as far as no paths are uncovered.
-/

namespace VersionedApi

variable {registry : Registry} {supported : List Version.Number} {sources : Sources} {g : Graph}
variable {f : Filter} {a b : Action}

/-! ## The paths that are left -/

namespace Filter

def showsRoute (f : Filter) (route : Route) : Bool := f.includePrivate || !route.traits.isPrivate

theorem showsRoute_eq_false_iff {route : Route} : f.showsRoute route = false ↔
    f.includePrivate = false ∧ route.traits.visibility = some .internal := by
  simp [showsRoute, Traits.isPrivate]

/-- Paths are bound to no tags, so whether one is shown depends on its visibility alone. -/
theorem allows_uri (h : compile registry supported sources = .ok g) (ha : a ∈ g.actions)
    {d : Directive} (hd : d ∈ a.directives) {group path : String}
    (hcontent : d.content = .uri group path) : f.allows d = f.showsRoute ⟨group, path, d.traits⟩ := by
  obtain ⟨source, -, hread⟩ := Graph.exists_source h ha
  obtain ⟨kind, version, -, hd⟩ := Action.readAs_of_mem hread hd
  have htags : d.vendorTags = [] := by
    rw [Directive.vendorTags, hcontent, hd.vendorTags]
    rfl
  have hall : f.allowsTags [] = true := allowsTags_iff.2 (by simp)
  rw [allows, htags, hall, Bool.and_true]
  rfl

/-- Paths have no version, so they are in force at each. -/
theorem isAt_uri (h : compile registry supported sources = .ok g) (ha : a ∈ g.actions)
    {d : Directive} (hd : d ∈ a.directives) {group path : String}
    (hcontent : d.content = .uri group path) (v : Version.Number) : d.traits.isAt v = true := by
  obtain ⟨source, -, hread⟩ := Graph.exists_source h ha
  exact Action.isAt_of_read hread hd (by rw [Directive.kind, hcontent]; rfl) v

section Compiled
variable (h : compile registry supported sources = .ok g) (ha : a ∈ g.actions)
include h ha

theorem action?_routes (hb : f.action? a = some b) :
    b.routes = a.routes.filter f.showsRoute := by
  obtain ⟨-, rfl⟩ := action?_eq_some_iff.1 hb
  exact Action.routes_filter fun d hd group path hcontent => allows_uri h ha hd hcontent

theorem entry?_routes {v : Version.Number} {e : Action} (hb : f.action? a = some b)
    (he : b.at? v = some e) : e.routes = b.routes := by
  refine Action.at?_routes_of_isAt (fun d hd group path hcontent => ?_) he
  exact isAt_uri h ha (shows_of_mem hb hd).1 hcontent v

theorem exists_first_shown (hb : f.action? a = some b) :
    ∃ route, a.routes.find? f.showsRoute = some route ∧ b.group = route.group := by
  have hhead : b.routes.head? = a.routes.find? f.showsRoute := by
    rw [action?_routes h ha hb, List.head?_filter]
  cases hfind : a.routes.find? f.showsRoute with
  | some route =>
    refine ⟨route, rfl, ?_⟩
    rw [Action.group, hhead, hfind]
    rfl
  | none =>
    -- the action has passed because one of its paths is shown
    obtain ⟨⟨-, -, d, hd, hkind, hshows⟩, -⟩ := action?_eq_some_iff.1 hb
    obtain ⟨group, path, hcontent⟩ := Action.exists_uri_of_kind hkind
    have hroute := List.find?_eq_none.1 hfind ⟨group, path, d.traits⟩
      (Action.mem_routes.2 ⟨d, hd, hcontent, rfl⟩)
    rw [← allows_uri h ha hd hcontent, allows_iff] at hroute
    exact absurd hshows hroute

/-! ## Groups that come back -/

/-- The paths of an action begin with hidden ones, and the first one that is shown is in an excluded
group. -/
def Uncovers (f : Filter) (a : Action) : Prop :=
  f.includePrivate = false ∧ ∃ hidden route rest, a.routes = hidden ++ route :: rest ∧
    hidden ≠ [] ∧ (∀ r ∈ hidden, r.traits.visibility = some .internal) ∧
      route.traits.visibility ≠ some .internal ∧ route.group ∈ f.excludedGroups

omit h ha in
theorem group_eq_of_routes {route : Route} {rest : List Route} (hroutes : a.routes = route :: rest) :
    a.group = route.group := by
  rw [Action.group, hroutes]
  rfl

theorem group_mem_excluded_iff (hb : f.action? a = some b) :
    b.group ∈ f.excludedGroups ↔ f.Uncovers a := by
  obtain ⟨first, hfirst, hgroup⟩ := exists_first_shown h ha hb
  rw [hgroup]
  constructor
  · intro hmem
    obtain ⟨hshows, hidden, rest, hroutes, hnot⟩ := List.find?_eq_some_iff_append.1 hfirst
    have hhidden : ∀ r ∈ hidden, f.includePrivate = false ∧
        r.traits.visibility = some .internal := by
      intro r hr
      exact showsRoute_eq_false_iff.1 (by simpa using hnot r hr)
    have hne : hidden ≠ [] := by
      rintro rfl
      obtain ⟨⟨hallowed, -⟩, -⟩ := action?_eq_some_iff.1 hb
      rw [group_eq_of_routes hroutes] at hallowed
      exact hallowed hmem
    obtain ⟨r, hr⟩ := List.exists_mem_of_ne_nil _ hne
    have hprivate := (hhidden r hr).1
    refine ⟨hprivate, hidden, first, rest, hroutes, hne, fun r hr => (hhidden r hr).2, ?_, hmem⟩
    intro hinternal
    rw [showsRoute_eq_false_iff.2 ⟨hprivate, hinternal⟩] at hshows
    cases hshows
  · rintro ⟨hprivate, hidden, route, rest, hroutes, -, hhidden, hvisible, hmem⟩
    have hroute : a.routes.find? f.showsRoute = some route := by
      refine List.find?_eq_some_iff_append.2 ⟨?_, hidden, rest, hroutes, fun r hr => ?_⟩
      · rw [← Bool.not_eq_false, showsRoute_eq_false_iff]
        exact fun hinternal => hvisible hinternal.2
      · rw [showsRoute_eq_false_iff.2 ⟨hprivate, hhidden r hr⟩]
        rfl
    obtain rfl : route = first := Option.some.inj (hroute.symm.trans hfirst)
    exact hmem

end Compiled

/-- The filter leaves what it has made as it is, unless that is in an excluded group. -/
theorem action?_of_passed (hb : f.action? a = some b) :
    f.action? b = if b.group ∈ f.excludedGroups then none else some b := by
  split
  · rename_i hexcluded
    rw [Option.eq_none_iff_forall_ne_some]
    intro c hc
    exact (action?_eq_some_iff.1 hc).1.1 hexcluded
  · rename_i hallowed
    obtain ⟨⟨-, hcapabilities, d, hd, hkind, hshows⟩, rfl⟩ := action?_eq_some_iff.1 hb
    refine action?_eq_some_iff.2 ⟨⟨hallowed, ?_, d, ?_, hkind, hshows⟩, ?_⟩
    · intro tag htag
      have hsublist : (a.directives.filter f.allows).Sublist a.directives := List.filter_sublist
      exact hcapabilities tag ((hsublist.filterMap _).subset htag)
    · exact List.mem_filter.2 ⟨hd, allows_iff.2 hshows⟩
    · simp only [List.filter_filter, Bool.and_self]

end Filter

/-! ## Views -/

namespace Graph

theorem entry?_group_mem_iff (h : compile registry supported sources = .ok g) (ha : a ∈ g.actions)
    {v : Version.Number} {e : Action} (he : f.entry? v a = some e) :
    e.group ∈ f.excludedGroups ↔ f.Uncovers a := by
  obtain ⟨b, hb, he⟩ := Option.bind_eq_some_iff.1 he
  have hgroup : e.group = b.group := by
    rw [Action.group, Filter.entry?_routes h ha hb he, Action.group]
  rw [hgroup]
  exact Filter.group_mem_excluded_iff h ha hb

/-- Excluded groups stay out of a view exactly if no action that survives there uncovers one, and a
filter lets pass what it has let pass before exactly if that action uncovers none. -/
theorem excluded_groups_iff (h : compile registry supported sources = .ok g) (f : Filter) :
    (∀ v, (∀ e ∈ (g.view v f).actions, e.group ∉ f.excludedGroups) ↔
      ∀ a ∈ g.actions, f.Survives v a → ¬ f.Uncovers a) ∧
    ∀ a ∈ g.actions, ∀ b, f.action? a = some b →
      (f.action? b = some b ↔ ¬ f.Uncovers a) ∧ (f.action? b = none ↔ f.Uncovers a) := by
  refine ⟨fun v => ⟨?_, ?_⟩, ?_⟩
  · intro hout a ha hsurvives huncovers
    have he := (entry?_eq_some_iff h ha).2 ⟨hsurvives, rfl⟩
    exact hout _ (mem_view_actions ha he) ((entry?_group_mem_iff h ha he).2 huncovers)
  · intro hcovered e he hexcluded
    rw [view_actions] at he
    obtain ⟨a, ha, he⟩ := List.mem_filterMap.1 he
    exact hcovered a ha ((entry?_eq_some_iff h ha).1 he).1
      ((entry?_group_mem_iff h ha he).1 hexcluded)
  · intro a ha b hb
    rw [Filter.action?_of_passed hb, ← Filter.group_mem_excluded_iff h ha hb]
    by_cases hexcluded : b.group ∈ f.excludedGroups
    · simp [hexcluded]
    · simp [hexcluded]

/-! A list of movies that the staff reaches on a path of its own, which stands first. -/

namespace Staff

def listing : String :=
  "/**\n * @api-label Movies\n * @api-uri:private \x7bStaff\x7d /staff/movies\n" ++
  " * @api-uri:public \x7bMovies\x7d /movies\n * @api-contentType application/json\n */"

def documentation : Sources :=
  { actions := [{ owner := "\\Movies", method := "GET", docblock := listing }] }

def inner : Route :=
  ⟨"Staff", "/staff/movies",
    { visibility := some .internal, context := .ofMethod "\\Movies" "GET" listing }⟩

def outer : Route :=
  ⟨"Movies", "/movies",
    { visibility := some .published, context := .ofMethod "\\Movies" "GET" listing }⟩

def action : Action :=
  { owner := "\\Movies", method := "GET", label := "Movies", description := none
    contentTypes := [⟨"application/json", none⟩]
    directives :=
      [⟨.uri inner.group inner.path, inner.traits⟩, ⟨.uri outer.group outer.path, outer.traits⟩] }

def shown : Action := { action with directives := action.directives.tail }

def graph : Graph := { supported := [.one], actions := [action], representations := [] }

/-- Movies are not to be seen. -/
def filter : Filter := { excludedGroups := ["Movies"] }

theorem compiled : compile {} [.one] documentation = .ok graph :=
  toOption_eq_some.1 (by decide +kernel)

end Staff

/-- The list uncovers the group of movies, so this group is in the view. -/
theorem excluded_groups_staff : compile {} [.one] Staff.documentation = .ok Staff.graph ∧
    Staff.filter.Uncovers Staff.action ∧
      ¬ ∀ e ∈ (Staff.graph.view .one Staff.filter).actions,
        e.group ∉ Staff.filter.excludedGroups := by
  have huncovers : Staff.filter.Uncovers Staff.action :=
    ⟨rfl, [Staff.inner], Staff.outer, [], rfl, by decide, by decide, by decide, by decide⟩
  refine ⟨Staff.compiled, huncovers, fun hout => ?_⟩
  have hentry : Staff.filter.entry? .one Staff.action = some Staff.shown := by decide +kernel
  have hsurvives := ((entry?_eq_some_iff Staff.compiled List.mem_cons_self).1 hentry).1
  exact ((excluded_groups_iff Staff.compiled Staff.filter).1 .one).1 hout _ List.mem_cons_self
    hsurvives huncovers

/-- The staff's path is taken away after the group was looked at, so the list comes through in an
excluded group, and the same filter then drops it. -/
theorem excluded_group_in_view : compile {} [.one] Staff.documentation = .ok Staff.graph ∧
    ∃ e ∈ (Staff.graph.view .one Staff.filter).actions,
      e.group ∈ Staff.filter.excludedGroups ∧ Staff.filter.action? Staff.action = some e ∧
        Staff.filter.action? e = none := by
  refine ⟨Staff.compiled, Staff.shown, ?_⟩
  decide +kernel

end Graph

end VersionedApi
