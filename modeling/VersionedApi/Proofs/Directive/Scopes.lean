import VersionedApi.Proofs.Directive.Read

/-!
# The version in force at a tag

* `scopeAfter` : the version that the last version tag of a list sets;
* `KnownTag`, `knownTags` : the tags that make directives, with their places;
* `versionScopesFrom_eq_error` : a version tag that cannot be read decides, whatever else is wrong;
  `versionScopesFrom_eq` : without one, every other tag gets the version set before it;
* `directivesOf_eq` : each known tag is then read with that version;
* `directivesOf_append` : tags further on do not change what was made of those before them;
* `directivesOf_scoped` : what all of this says of a docblock.
-/

namespace VersionedApi

open VersionedApi.Text VersionedApi.Docblock

/-- A version tag with a constraint that cannot be read. -/
def isUnreadableVersion (t : Tag) : Bool :=
  t.name == "version" && (Version.Range.read t.body).toOption.isNone

/-- The version in force behind some tags: the one that the last version tag among them sets. -/
def scopeAfter (tags : List Tag) : Option Version.Range :=
  (tags.filter (·.name == "version")).getLast?.bind fun t => (Version.Range.read t.body).toOption

/-- A tag that makes a directive, and its place among the tags of the docblock. -/
structure KnownTag where
  place : Nat
  kind : Kind
  tag : Tag
deriving DecidableEq, Repr

def knownFrom (place : Nat) (tags : List Tag) : List KnownTag :=
  (tags.zipIdx place).filterMap fun e => (Kind.ofTag? e.1.name).map fun kind => ⟨e.2, kind, e.1⟩

def knownTags (tags : List Tag) : List KnownTag := knownFrom 0 tags

/-- The directive of a known tag of a docblock, under the version in force at its place. -/
def KnownTag.read (registry : Registry) (context : Context) (tags : List Tag) (k : KnownTag) :
    Except Error Directive :=
  Directive.read registry context k.kind k.tag (scopeAfter (tags.take k.place))

/-! ## The version behind some tags -/

section Scope
variable {t : Tag}

theorem scopeAfter_concat_version (tags : List Tag) (ht : t.name = "version") {r : Version.Range}
    (hr : Version.Range.read t.body = .ok r) : scopeAfter (tags ++ [t]) = some r := by
  unfold scopeAfter
  rw [List.filter_append, List.filter_cons_of_pos (by simpa using ht), List.filter_nil,
    List.getLast?_concat, Option.bind_some, hr]
  rfl

theorem scopeAfter_concat_other (tags : List Tag) (ht : t.name ≠ "version") :
    scopeAfter (tags ++ [t]) = scopeAfter tags := by
  unfold scopeAfter
  rw [List.filter_append, List.filter_cons_of_neg (by simpa using ht), List.filter_nil,
    List.append_nil]

theorem read_of_not_unreadable (h : ¬ isUnreadableVersion t = true) (ht : t.name = "version") :
    ∃ r, Version.Range.read t.body = .ok r := by
  unfold isUnreadableVersion at h
  cases hr : Version.Range.read t.body with
  | ok r => exact ⟨r, rfl⟩
  | error fault => simp [ht, hr, Except.toOption] at h

theorem read_of_unreadable (h : isUnreadableVersion t = true) :
    t.name = "version" ∧ ∃ fault, Version.Range.read t.body = .error fault := by
  unfold isUnreadableVersion at h
  cases hr : Version.Range.read t.body with
  | ok r => simp [hr, Except.toOption] at h
  | error fault => exact ⟨by simpa [hr, Except.toOption] using h, fault, rfl⟩

end Scope

section Scopes
variable {tags : List Tag}

theorem versionScopesFrom_eq_error (context : Context) (current : Option Version.Range) {t : Tag}
    (h : tags.find? isUnreadableVersion = some t) :
    ∃ fault, Version.Range.read t.body = .error fault ∧
      versionScopesFrom context current tags = .error (.documentation fault context) := by
  induction tags generalizing current with
  | nil => cases h
  | cons u tags ih =>
    unfold versionScopesFrom
    by_cases hu : isUnreadableVersion u = true
    · rw [List.find?_cons_of_pos hu, Option.some.injEq] at h
      subst h
      obtain ⟨hname, fault, hfault⟩ := read_of_unreadable hu
      refine ⟨fault, hfault, ?_⟩
      rw [if_pos (by simpa using hname), hfault]
      rfl
    · rw [List.find?_cons_of_neg hu] at h
      by_cases hname : u.name = "version"
      · obtain ⟨r, hr⟩ := read_of_not_unreadable hu hname
        obtain ⟨fault, hfault, herror⟩ := ih (some r) h
        refine ⟨fault, hfault, ?_⟩
        rw [if_pos (by simpa using hname), hr]
        exact herror
      · obtain ⟨fault, hfault, herror⟩ := ih current h
        refine ⟨fault, hfault, ?_⟩
        rw [if_neg (by simpa using hname), herror]
        rfl

/-- Where all versions can be read, every other tag gets the one set by the tags before it, those of
the list itself and the ones in `seen` before them. -/
theorem versionScopesFrom_eq (context : Context) (seen : List Tag)
    (h : tags.find? isUnreadableVersion = none) :
    versionScopesFrom context (scopeAfter seen) tags =
      .ok (((tags.zipIdx seen.length).filter (·.1.name != "version")).map fun e =>
        (e.1, scopeAfter ((seen ++ tags).take e.2))) := by
  induction tags generalizing seen with
  | nil => rfl
  | cons t tags ih =>
    have ht : ¬ isUnreadableVersion t = true := by
      intro ht
      rw [List.find?_cons_of_pos ht] at h
      cases h
    rw [List.find?_cons_of_neg ht] at h
    have hrest := ih (seen ++ [t]) h
    rw [List.append_assoc, List.singleton_append, List.length_append, List.length_singleton]
      at hrest
    unfold versionScopesFrom
    rw [List.zipIdx_cons]
    by_cases hname : t.name = "version"
    · obtain ⟨r, hr⟩ := read_of_not_unreadable ht hname
      rw [scopeAfter_concat_version seen hname hr] at hrest
      rw [if_pos (by simpa using hname), hr, List.filter_cons_of_neg (by simpa using hname)]
      exact hrest
    · rw [scopeAfter_concat_other seen hname] at hrest
      rw [if_neg (by simpa using hname), hrest, List.filter_cons_of_pos (by simpa using hname),
        List.map_cons, List.take_left]
      rfl

end Scopes

/-! ## Directives -/

section Directives
variable {registry : Registry} {context : Context} {tags : List Tag}

theorem directivesOf_eq_error (registry : Registry) (context : Context) {t : Tag}
    (h : tags.find? isUnreadableVersion = some t) :
    ∃ fault, Version.Range.read t.body = .error fault ∧
      directivesOf registry context tags = .error (.documentation fault context) := by
  obtain ⟨fault, hfault, herror⟩ := versionScopesFrom_eq_error context none h
  refine ⟨fault, hfault, ?_⟩
  unfold directivesOf versionScopes
  rw [herror]
  rfl

theorem directivesOf_eq (h : tags.find? isUnreadableVersion = none) :
    directivesOf registry context tags =
      (knownTags tags).mapM (KnownTag.read registry context tags) := by
  have hscopes : versionScopes context tags = _ := versionScopesFrom_eq context [] h
  rw [List.nil_append] at hscopes
  have hknown : (((tags.zipIdx 0).filter (·.1.name != "version")).map fun e =>
        (e.1, scopeAfter (tags.take e.2))).filterMap (fun e =>
          (Kind.ofTag? e.1.name).map fun kind => (kind, e.1, e.2)) =
      (knownTags tags).map fun k => (k.kind, k.tag, scopeAfter (tags.take k.place)) := by
    rw [knownTags, knownFrom, List.map_filterMap, List.filterMap_map, List.filterMap_filter]
    apply List.filterMap_congr
    intro e _
    split
    · cases hkind : Kind.ofTag? e.1.name <;> simp [hkind]
    · -- a version tag is of no kind
      rename_i hname
      rw [show e.1.name = "version" by simpa using hname]
      rfl
  unfold directivesOf
  rw [hscopes]
  refine (congrArg (List.mapM fun e => Directive.read registry context e.1 e.2.1 e.2.2)
    hknown).trans ?_
  rw [List.mapM_map]
  rfl

theorem find?_eq_none_of_directivesOf {ds : List Directive}
    (h : directivesOf registry context tags = .ok ds) :
    tags.find? isUnreadableVersion = none := by
  cases hfind : tags.find? isUnreadableVersion with
  | none => rfl
  | some t =>
    obtain ⟨fault, -, herror⟩ := directivesOf_eq_error registry context hfind
    rw [h] at herror
    cases herror

theorem forall₂_of_directivesOf {ds : List Directive}
    (h : directivesOf registry context tags = .ok ds) :
    List.Forall₂ (fun k d => KnownTag.read registry context tags k = .ok d)
      (knownTags tags) ds := by
  rw [directivesOf_eq (find?_eq_none_of_directivesOf h)] at h
  exact mapM_eq_ok.1 h

/-! ## Tags further on -/

theorem knownTags_append (front back : List Tag) :
    knownTags (front ++ back) = knownTags front ++ knownFrom front.length back := by
  unfold knownTags knownFrom
  rw [List.zipIdx_append, List.filterMap_append, Nat.zero_add]

theorem place_of_mem_knownFrom {place : Nat} {k : KnownTag} (h : k ∈ knownFrom place tags) :
    place ≤ k.place ∧ k.place < place + tags.length := by
  obtain ⟨e, he, hk⟩ := List.mem_filterMap.1 h
  obtain ⟨kind, -, rfl⟩ := Option.map_eq_some_iff.1 hk
  obtain ⟨hle, hlt, -⟩ := List.mem_zipIdx he
  exact ⟨hle, hlt⟩

/-- What is made of some tags begins with what is made of the first of them alone. -/
theorem directivesOf_append {front back : List Tag} {ds : List Directive}
    (h : directivesOf registry context (front ++ back) = .ok ds) :
    directivesOf registry context front = .ok (ds.take (knownTags front).length) := by
  have hreadable := find?_eq_none_of_directivesOf h
  rw [List.find?_append, Option.or_eq_none_iff] at hreadable
  have hall := List.forall₂_take (knownTags front).length (forall₂_of_directivesOf h)
  rw [knownTags_append, List.take_left] at hall
  rw [directivesOf_eq hreadable.1, mapM_eq_ok]
  have hplaces : ∀ k ∈ knownTags front, k.place < front.length := fun k hk => by
    simpa using (place_of_mem_knownFrom hk).2
  refine ((List.forall₂_and_left _ _).2 ⟨hplaces, hall⟩).imp fun k d ⟨hplace, hread⟩ => ?_
  -- at a place in front, the tags before it are the same
  unfold KnownTag.read at hread ⊢
  rwa [List.take_append_of_le_length hplace.le] at hread

theorem directivesOf_take {ds : List Directive} (h : directivesOf registry context tags = .ok ds)
    (i : Nat) : ∃ first, directivesOf registry context (tags.take (i + 1)) = .ok first ∧
      ((knownTags tags).zip ds).filter (·.1.place ≤ i) =
        (knownTags (tags.take (i + 1))).zip first := by
  have hsplit := List.take_append_drop (i + 1) tags
  generalize hfront : tags.take (i + 1) = front at hsplit
  generalize hback : tags.drop (i + 1) = back at hsplit
  have hlength : front.length = min (i + 1) tags.length := by rw [← hfront, List.length_take]
  have htotal : tags.length = front.length + back.length := by rw [← hsplit, List.length_append]
  rw [← hsplit] at h
  have hcount := (forall₂_of_directivesOf h).length_eq
  rw [← hsplit]
  refine ⟨_, directivesOf_append h, ?_⟩
  rw [knownTags_append, List.length_append] at hcount
  rw [knownTags_append]
  conv_lhs => rw [← List.take_append_drop (knownTags front).length ds]
  rw [List.zip_append (by rw [List.length_take]; omega), List.filter_append,
    List.filter_eq_self.2, List.filter_eq_nil_iff.2, List.append_nil]
  · intro e he
    have hplace := place_of_mem_knownFrom (List.of_mem_zip he).1
    simp only [decide_eq_true_eq]
    omega
  · intro e he
    have hplace := place_of_mem_knownFrom (List.of_mem_zip he).1
    simp only [decide_eq_true_eq]
    omega

/-- A docblock with version tags that cannot be read is refused for the first of them. Else every
known tag makes one directive, in order, under the version that the last version tag before it
sets, if directives of its kind have versions. What is made of the first tags is the same whatever
follows them. -/
theorem directivesOf_scoped (registry : Registry) (context : Context) (tags : List Tag) :
    (∀ t, tags.find? isUnreadableVersion = some t →
      ∃ fault, Version.Range.read t.body = .error fault ∧
        directivesOf registry context tags = .error (.documentation fault context)) ∧
    (tags.find? isUnreadableVersion = none →
      directivesOf registry context tags =
        (knownTags tags).mapM (KnownTag.read registry context tags)) ∧
    ∀ ds, directivesOf registry context tags = .ok ds →
      ds.map (fun d => (d.kind, d.traits.version)) = (knownTags tags).map (fun k =>
        (k.kind, if k.kind.isVersioned then scopeAfter (tags.take k.place) else none)) ∧
      ∀ tags' ds' i, tags.take (i + 1) = tags'.take (i + 1) →
        directivesOf registry context tags' = .ok ds' →
          ((knownTags tags).zip ds).filter (·.1.place ≤ i) =
            ((knownTags tags').zip ds').filter (·.1.place ≤ i) := by
  refine ⟨fun t => directivesOf_eq_error registry context, directivesOf_eq, fun ds h => ⟨?_, ?_⟩⟩
  · rw [eq_comm, ← List.forall₂_eq_eq_eq, List.forall₂_map_left_iff, List.forall₂_map_right_iff]
    refine (forall₂_of_directivesOf h).imp fun k d hread => ?_
    have hreadAs := Directive.readAs hread
    rw [hreadAs.kind, hreadAs.version]
  · intro tags' ds' i hsame h'
    obtain ⟨first, hfirst, hzip⟩ := directivesOf_take h i
    obtain ⟨first', hfirst', hzip'⟩ := directivesOf_take h' i
    rw [← hsame, hfirst] at hfirst'
    cases hfirst'
    rw [hzip, hzip', hsame]

end Directives

/-! Two parameters around a version and a tag of another tool. -/

namespace Runtime

def title : Tag := ⟨"param", ["public"], "title (string) - Title", 1⟩

def since : Tag := ⟨"version", [], ">=1.1", 2⟩

def todo : Tag := ⟨"todo", [], "Shorten", 3⟩

def length : Tag := ⟨"param", ["public"], "runtime (integer) - Runtime", 4⟩

def label : Tag := ⟨"label", [], "Movies", 5⟩

def tags : List Tag := [title, since, todo, length, label]

def reissued : List Tag := [title, since, todo, length, since]

/-- A parameter that does not say who may see it, before a version that cannot be read. -/
def faulty : List Tag := [⟨"param", [], "title (string) - Title", 1⟩, ⟨"version", [], "soon", 2⟩]

end Runtime

/-- Only what stands behind the version and can have one is bound to it, and the last tag makes no
difference to those before it. A version that cannot be read counts before a parameter that is
wrong. -/
theorem directivesOf_scoped_runtime :
    (∃ fault, Version.Range.read "soon" = .error fault ∧
      directivesOf {} {} Runtime.faulty = .error (.documentation fault {})) ∧
    ∃ ds ds', directivesOf {} {} Runtime.tags = .ok ds ∧
      directivesOf {} {} Runtime.reissued = .ok ds' ∧
      ds.map (fun d => (d.kind, d.traits.version)) =
        [(.param, none), (.param, scopeAfter [Runtime.since]), (.label, none)] ∧
      ((knownTags Runtime.tags).zip ds).filter (·.1.place ≤ 3) =
        ((knownTags Runtime.reissued).zip ds').filter (·.1.place ≤ 3) := by
  obtain ⟨ds, hds⟩ : ∃ ds, (directivesOf {} {} Runtime.tags).toOption = some ds :=
    Option.isSome_iff_exists.1 (by decide +kernel)
  obtain ⟨ds', hds'⟩ : ∃ ds', (directivesOf {} {} Runtime.reissued).toOption = some ds' :=
    Option.isSome_iff_exists.1 (by decide +kernel)
  rw [toOption_eq_some] at hds hds'
  obtain ⟨hversions, hfirst⟩ := (directivesOf_scoped {} {} Runtime.tags).2.2 ds hds
  refine ⟨(directivesOf_scoped {} {} Runtime.faulty).1 ⟨"version", [], "soon", 2⟩
    (by decide +kernel), ds, ds', hds, hds', ?_, hfirst Runtime.reissued ds' 3 rfl hds'⟩
  rw [hversions]
  decide +kernel

end VersionedApi
