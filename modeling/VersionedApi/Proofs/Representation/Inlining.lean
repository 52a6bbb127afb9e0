import VersionedApi.Proofs.Representation.References

/-!
# References as inlining

* `Trail` : a way from a docblock over references to a field that is documented at its end;
  `Trail.From` : the trails of a docblock; `trailsOf` : those with a bounded number of references,
  in the order of the docblocks;
* `mem_trailsOf`, `pairwise_trailsOf` : each trail is there once, at the place that its path gives;
* `Trail.Inlined` : a field is what the trail makes of the field at its end;
* `forall₂_trailsOf` : the fields of a docblock are those that its trails make, one for each;
* `fieldsOf_inlines` : so it is over the eight hops that are allowed, and no trail is missing.
-/

namespace VersionedApi

/-! ## Trails -/

/-- A way over references to a field: the place of the directive taken in each docblock, what these
docblocks say, the references, and the field at the end. -/
structure Trail where
  path : List Nat
  docblocks : List (List Directive)
  references : List (Reference × Traits)
  goal : DataField

namespace Trail

def here (i : Nat) (ds : List Directive) (f : DataField) : Trail := ⟨[i], [ds], [], f⟩

def behind (i : Nat) (ds : List Directive) (r : Reference) (traits : Traits) (trail : Trail) :
    Trail :=
  ⟨i :: trail.path, ds :: trail.docblocks, (r, traits) :: trail.references, trail.goal⟩

/-- The trails that begin in a docblock. -/
inductive From (registry : Registry) (docblockOf : String → String → Option String) :
    Site → Trail → Prop
  | field {s : Site} {ds : List Directive} {i : Nat} {d : Directive} {field : Field}
      (hs : s.directives registry = .ok ds) (hd : ds[i]? = some d) (h : d.content = .data field) :
      From registry docblockOf s (here i ds ⟨field, d.traits⟩)
  | reference {s t : Site} {ds : List Directive} {i : Nat} {d : Directive} {r : Reference}
      {trail : Trail} (hs : s.directives registry = .ok ds) (hd : ds[i]? = some d)
      (h : d.content = .see r) (ht : r.site? docblockOf = some t)
      (rest : From registry docblockOf t trail) :
      From registry docblockOf s (behind i ds r d.traits trail)

theorem From.chain {registry : Registry} {docblockOf : String → String → Option String} {s : Site}
    {trail : Trail} (h : From registry docblockOf s trail) :
    ∃ t, Chain registry docblockOf trail.references.length s t := by
  induction h with
  | field => exact ⟨_, .nil _⟩
  | reference hs hd h ht _ ih =>
    obtain ⟨u, chain⟩ := ih
    exact ⟨u, .cons ⟨_, hs, _, List.mem_of_getElem? hd, _, h, ht⟩ chain⟩

end Trail

section Enumeration
variable (registry : Registry) (docblockOf : String → String → Option String)

def trailsAt (next : Site → List Trail) (ds : List Directive) (i : Nat) (d : Directive) :
    List Trail :=
  match d.content with
  | .data field => [.here i ds ⟨field, d.traits⟩]
  | .see r => ((r.site? docblockOf).map next).getD [] |>.map (.behind i ds r d.traits)
  | _ => []

/-- The trails of a docblock, given those of other docblocks. -/
def trailsThrough (next : Site → List Trail) (s : Site) : List Trail :=
  match s.directives registry with
  | .ok ds => ds.zipIdx.flatMap fun (d, i) => trailsAt docblockOf next ds i d
  | .error _ => []

/-- The trails of a docblock with at most `hops` references, in the order of the docblocks. -/
def trailsOf : (hops : Nat) → Site → List Trail
  | 0 => trailsThrough registry docblockOf fun _ => []
  | hops + 1 => trailsThrough registry docblockOf (trailsOf hops)

end Enumeration

section Membership
variable {registry : Registry} {docblockOf : String → String → Option String}
variable {next : Site → List Trail} {s : Site} {trail : Trail}

theorem mem_trailsAt {ds : List Directive} {i : Nat} {d : Directive} :
    trail ∈ trailsAt docblockOf next ds i d ↔
      (∃ field, d.content = .data field ∧ trail = .here i ds ⟨field, d.traits⟩) ∨
        ∃ r t rest, d.content = .see r ∧ r.site? docblockOf = some t ∧ rest ∈ next t ∧
          trail = .behind i ds r d.traits rest := by
  unfold trailsAt
  split
  · rename_i field hd
    simp [hd]
  · rename_i r hd
    cases ht : r.site? docblockOf with
    | none => simp [hd, ht]
    | some t => simp [hd, ht, eq_comm]
  · rename_i hdata hsee
    refine iff_of_false List.not_mem_nil ?_
    rintro (⟨field, hd, -⟩ | ⟨r, t, rest, hd, -⟩)
    · exact hdata field hd
    · exact hsee r hd

theorem mem_trailsThrough :
    trail ∈ trailsThrough registry docblockOf next s ↔
      ∃ ds i d, s.directives registry = .ok ds ∧ ds[i]? = some d ∧
        trail ∈ trailsAt docblockOf next ds i d := by
  unfold trailsThrough
  split
  · rename_i ds hds
    simp only [hds, Except.ok.injEq, List.mem_flatMap, Prod.exists, List.mem_zipIdx_iff_getElem?]
    constructor
    · rintro ⟨d, i, hd, h⟩
      exact ⟨ds, i, d, rfl, hd, h⟩
    · rintro ⟨_, i, d, rfl, hd, h⟩
      exact ⟨d, i, hd, h⟩
  · rename_i e hds
    simp [hds]

/-- One docblock more on the way: if the trails of the others are there up to a length, so are its
own, which are longer by one. -/
theorem mem_trailsThrough_iff {hops : Nat} (hnext : ∀ t rest, rest ∈ next t ↔
      rest.From registry docblockOf t ∧ rest.references.length < hops) :
    trail ∈ trailsThrough registry docblockOf next s ↔
      trail.From registry docblockOf s ∧ trail.references.length ≤ hops := by
  rw [mem_trailsThrough]
  constructor
  · rintro ⟨ds, i, d, hds, hd, h⟩
    rcases mem_trailsAt.1 h with ⟨field, hfield, rfl⟩ | ⟨r, t, rest, hr, ht, hrest, rfl⟩
    · exact ⟨.field hds hd hfield, Nat.zero_le hops⟩
    · obtain ⟨hfrom, hlength⟩ := (hnext t rest).1 hrest
      exact ⟨.reference hds hd hr ht hfrom, hlength⟩
  · rintro ⟨h, hlength⟩
    cases h with
    | field hs hd h => exact ⟨_, _, _, hs, hd, mem_trailsAt.2 (Or.inl ⟨_, h, rfl⟩)⟩
    | reference hs hd h ht rest =>
      have hrest := (hnext _ _).2 ⟨rest, hlength⟩
      exact ⟨_, _, _, hs, hd, mem_trailsAt.2 (Or.inr ⟨_, _, _, h, ht, hrest, rfl⟩)⟩

theorem mem_trailsOf {hops : Nat} :
    trail ∈ trailsOf registry docblockOf hops s ↔
      trail.From registry docblockOf s ∧ trail.references.length ≤ hops := by
  induction hops generalizing s trail with
  | zero => exact mem_trailsThrough_iff fun t rest => by simp
  | succ hops ih => exact mem_trailsThrough_iff fun t rest => by rw [ih, Nat.lt_succ_iff]

/-! ## Order -/

theorem path_of_mem_trailsAt {ds : List Directive} {i : Nat} {d : Directive}
    (h : trail ∈ trailsAt docblockOf next ds i d) : ∃ path, trail.path = i :: path := by
  rcases mem_trailsAt.1 h with ⟨field, -, rfl⟩ | ⟨r, t, rest, -, -, -, rfl⟩
  · exact ⟨[], rfl⟩
  · exact ⟨rest.path, rfl⟩

theorem pairwise_trailsAt (hnext : ∀ t, (next t).Pairwise (·.path < ·.path))
    (ds : List Directive) (i : Nat) (d : Directive) :
    (trailsAt docblockOf next ds i d).Pairwise (·.path < ·.path) := by
  unfold trailsAt
  split
  · exact List.pairwise_singleton _ _
  · rename_i r hr
    rw [List.pairwise_map]
    cases r.site? docblockOf with
    | none => exact List.Pairwise.nil
    | some t => exact (hnext t).imp fun hlt => List.cons_lt_cons_iff.2 (Or.inr ⟨rfl, hlt⟩)
  · exact List.Pairwise.nil

theorem pairwise_trailsThrough (hnext : ∀ t, (next t).Pairwise (·.path < ·.path)) (s : Site) :
    (trailsThrough registry docblockOf next s).Pairwise (·.path < ·.path) := by
  unfold trailsThrough
  split
  · rename_i ds hds
    rw [List.pairwise_flatMap]
    refine ⟨fun p _ => pairwise_trailsAt hnext ds p.2 p.1, ?_⟩
    have hplaces : (ds.zipIdx.map Prod.snd).Pairwise (· < ·) := by
      rw [List.zipIdx_map_snd]
      exact List.pairwise_lt_range'
    refine (List.pairwise_map.1 hplaces).imp fun {p q} hlt a ha b hb => ?_
    obtain ⟨restA, hpathA⟩ := path_of_mem_trailsAt ha
    obtain ⟨restB, hpathB⟩ := path_of_mem_trailsAt hb
    rw [hpathA, hpathB]
    exact List.cons_lt_cons_iff.2 (Or.inl hlt)
  · exact List.Pairwise.nil

/-- Trails stand in the order of their paths: first by the directive of the first docblock, then by
that of the next one. -/
theorem pairwise_trailsOf (hops : Nat) (s : Site) :
    (trailsOf registry docblockOf hops s).Pairwise (·.path < ·.path) := by
  induction hops generalizing s with
  | zero => exact pairwise_trailsThrough (fun _ => List.Pairwise.nil) s
  | succ hops ih => exact pairwise_trailsThrough ih s

end Membership

/-! ## What a trail makes of its field -/

theorem mem_scopesIn {ds : List Directive} {x : String} :
    x ∈ scopesIn ds ↔ ∃ d ∈ ds, ∃ text, d.content = .scope x text := by
  unfold scopesIn
  simp only [List.mem_filterMap]
  refine exists_congr fun d => and_congr_right fun _ => ?_
  split <;> simp_all

theorem mem_vendorTagsIn {ds : List Directive} {x : String} :
    x ∈ vendorTagsIn ds ↔ ∃ d ∈ ds, d.content = .vendorTag x := by
  unfold vendorTagsIn
  simp only [List.mem_filterMap]
  refine exists_congr fun d => and_congr_right fun _ => ?_
  split <;> simp_all

theorem intercalate_cons_append (outer : String) (parts : List String) (name : String) :
    ".".intercalate (outer :: (parts ++ [name])) =
      outer ++ "." ++ ".".intercalate (parts ++ [name]) := by
  cases parts with
  | nil => rw [List.nil_append, String.intercalate_cons_cons]
  | cons part parts => rw [List.cons_append, String.intercalate_cons_cons]

/-- What the field at the end of a trail becomes at its beginning. -/
structure Trail.Inlined (context : Context) (trail : Trail) (f : DataField) : Prop where
  /-- The names of the references that have one stand before its own. -/
  name : f.name = ".".intercalate (trail.references.filterMap (·.1.under) ++ [trail.goal.name])
  /-- All else that its line says is kept. -/
  field : f.field = { trail.goal.field with name := f.name }
  /-- The first version on the way counts. -/
  version : f.traits.version =
    (trail.references.map (·.2.version) ++ [trail.goal.traits.version]).findSome? id
  visibility : f.traits.visibility = trail.goal.traits.visibility
  deprecated : f.traits.deprecated = trail.goal.traits.deprecated
  /-- It is bound to what any docblock on the way names. -/
  scopes : ∀ x, x ∈ f.traits.scopes ↔
    ∃ ds ∈ trail.docblocks, ∃ d ∈ ds, ∃ text, d.content = .scope x text
  scopes_nodup : f.traits.scopes.Nodup
  vendorTags : ∀ x, x ∈ f.traits.vendorTags ↔
    ∃ ds ∈ trail.docblocks, ∃ d ∈ ds, d.content = .vendorTag x
  vendorTags_nodup : f.traits.vendorTags.Nodup
  context : f.traits.context = context

namespace Trail

theorem inlined_here {context : Context} {d : Directive} (hd : d.ReadAt context) (field : Field)
    (i : Nat) (ds : List Directive) :
    (here i ds ⟨field, d.traits⟩).Inlined context
      (DataField.gate ⟨field, d.traits⟩ (scopesIn ds) (vendorTagsIn ds)) where
  name := String.intercalate_singleton.symm
  field := rfl
  version := by
    change d.traits.version = [d.traits.version].findSome? id
    cases d.traits.version <;> rfl
  visibility := rfl
  deprecated := rfl
  scopes x := by
    simp [DataField.gate, here, hd.scopes, mem_mergeUnique, mem_scopesIn]
  scopes_nodup := nodup_mergeUnique (by rw [hd.scopes]; exact List.nodup_nil) _
  vendorTags x := by
    simp [DataField.gate, here, hd.vendorTags, mem_mergeUnique, mem_vendorTagsIn]
  vendorTags_nodup := nodup_mergeUnique (by rw [hd.vendorTags]; exact List.nodup_nil) _
  context := hd.context

/-- One reference more: what it takes over is what the longer trail makes. -/
theorem Inlined.behind {context outer : Context} {d : Directive} (hd : d.ReadAt outer)
    {trail : Trail} {f : DataField} (h : trail.Inlined context f) (r : Reference) (i : Nat)
    (ds : List Directive) :
    (behind i ds r d.traits trail).Inlined outer
      ((f.takenOver r d.traits).gate (scopesIn ds) (vendorTagsIn ds)) where
  name := by
    change r.rename f.name = ".".intercalate
      (((r, d.traits) :: trail.references).filterMap (·.1.under) ++ [trail.goal.name])
    rw [h.name, List.filterMap_cons]
    unfold Reference.rename
    cases r.under with
    | none => rfl
    | some outer => exact (intercalate_cons_append ..).symm
  field := by
    change { f.field with name := r.rename f.name } =
      { trail.goal.field with name := r.rename f.name }
    rw [h.field]
  version := by
    change d.traits.version.or f.traits.version =
      (d.traits.version :: (trail.references.map (·.2.version) ++
        [trail.goal.traits.version])).findSome? id
    rw [h.version]
    cases d.traits.version <;> rfl
  visibility := h.visibility
  deprecated := h.deprecated
  scopes x := by
    simp only [DataField.gate, DataField.takenOver, Trail.behind, hd.scopes, mem_mergeUnique,
      mem_scopesIn, h.scopes, List.exists_mem_cons_iff, List.not_mem_nil, or_false]
    exact or_comm
  scopes_nodup := nodup_mergeUnique (nodup_mergeUnique h.scopes_nodup _) _
  vendorTags x := by
    simp only [DataField.gate, DataField.takenOver, Trail.behind, hd.vendorTags, mem_mergeUnique,
      mem_vendorTagsIn, h.vendorTags, List.exists_mem_cons_iff, List.not_mem_nil, or_false]
    exact or_comm
  vendorTags_nodup := nodup_mergeUnique (nodup_mergeUnique h.vendorTags_nodup _) _
  context := hd.context

end Trail

section Inlining
variable {registry : Registry} {docblockOf : String → String → Option String}

/-- What a directive documents, bound to what its docblock names, is what the trails that begin
with it make. -/
theorem forall₂_trailsAt {next : Site → List Trail} {hops : Nat} {context : Context}
    (hnext : ∀ n t nested, hops = n + 1 →
      fieldsOf registry docblockOf n t.context t.docblock = .ok nested →
        List.Forall₂ (Trail.Inlined t.context) (next t) nested)
    {d : Directive} {part : List DataField} (hd : d.ReadAt context)
    (h : Documents registry docblockOf hops d part) (i : Nat) (ds : List Directive) :
    List.Forall₂ (Trail.Inlined context) (trailsAt docblockOf next ds i d)
      (part.map (·.gate (scopesIn ds) (vendorTagsIn ds))) := by
  unfold trailsAt
  cases h with
  | @field _ _ field hfield =>
    rw [hfield]
    exact .cons (Trail.inlined_here hd field i ds) .nil
  | @reference _ _ r t nested hr ht hnested =>
    simp only [hr, ht, Option.map_some, Option.getD_some, List.forall₂_map_left_iff,
      List.forall₂_map_right_iff]
    exact (hnext _ t nested rfl hnested).imp fun trail f hf => hf.behind hd r i ds
  | other hdata hsee =>
    split
    · rename_i field hfield
      exact absurd hfield (hdata field)
    · rename_i r hr
      exact absurd hr (hsee r)
    · exact .nil

theorem forall₂_trailsThrough {next : Site → List Trail} {hops : Nat}
    (hnext : ∀ n t nested, hops = n + 1 →
      fieldsOf registry docblockOf n t.context t.docblock = .ok nested →
        List.Forall₂ (Trail.Inlined t.context) (next t) nested)
    {s : Site} {fields : List DataField}
    (h : fieldsOf registry docblockOf hops s.context s.docblock = .ok fields) :
    List.Forall₂ (Trail.Inlined s.context) (trailsThrough registry docblockOf next s) fields := by
  obtain ⟨ds, parts, hds, hparts, rfl⟩ := fieldsOf_eq_ok_iff.1 h
  have hread : ∀ d ∈ ds, d.ReadAt s.context := fun d hd => readAt_of_mem_directivesOf hds hd
  -- directives with their places, against the parts of the fields
  have hplaced : List.Forall₂ (fun (p : Directive × Nat) part => p.1.ReadAt s.context ∧
      Documents registry docblockOf hops p.1 part) ds.zipIdx parts := by
    rw [← List.forall₂_map_left_iff (R := fun (d : Directive) part => d.ReadAt s.context ∧
      Documents registry docblockOf hops d part), List.zipIdx_map_fst]
    exact (List.forall₂_and_left ds parts).2 ⟨hread, hparts⟩
  unfold trailsThrough
  simp only [hds, List.map_flatten, List.flatMap_def]
  apply List.rel_flatten
  rw [List.forall₂_map_left_iff, List.forall₂_map_right_iff]
  exact hplaced.imp fun p part ⟨hd, hpart⟩ => forall₂_trailsAt hnext hd hpart p.2 ds

theorem forall₂_trailsOf {hops : Nat} {s : Site} {fields : List DataField}
    (h : fieldsOf registry docblockOf hops s.context s.docblock = .ok fields) :
    List.Forall₂ (Trail.Inlined s.context) (trailsOf registry docblockOf hops s) fields := by
  induction hops generalizing s fields with
  | zero =>
    refine forall₂_trailsThrough (fun n t nested hn _ => ?_) h
    cases hn
  | succ hops ih =>
    refine forall₂_trailsThrough (fun n t nested hn hnested => ?_) h
    cases hn
    exact ih hnested

end Inlining

/-- The fields of a docblock are exactly one for each trail that begins in it, in the order of the
trails, and each is the field at the end of its trail with the names, the version and the gates
collected on the way. Taking over a field of a docblock never fails. -/
theorem fieldsOf_inlines (registry : Registry) (docblockOf : String → String → Option String)
    (context : Context) (docblock : String) :
    (∀ fields, fieldsOf registry docblockOf maxHops context docblock = .ok fields →
      ∃ trails : List Trail,
        (∀ trail, trail ∈ trails ↔ trail.From registry docblockOf ⟨context, docblock⟩) ∧
        trails.Pairwise (·.path < ·.path) ∧
        List.Forall₂ (Trail.Inlined context) trails fields) ∧
    ∀ hops (s : Site) nested, fieldsOf registry docblockOf hops s.context s.docblock = .ok nested →
      ∀ f ∈ nested, ∀ reference traits, ∃ f', f.reuse reference traits = .ok f' := by
  constructor
  · intro fields h
    let s : Site := ⟨context, docblock⟩
    have hbound := (exists_fieldsOf_iff.1 (⟨fields, h⟩ : ∃ fields, fieldsOf registry docblockOf
      maxHops s.context s.docblock = .ok fields)).2
    refine ⟨trailsOf registry docblockOf maxHops s, fun trail => ?_, pairwise_trailsOf maxHops s,
      forall₂_trailsOf (s := s) h⟩
    rw [mem_trailsOf]
    refine ⟨And.left, fun hfrom => ⟨hfrom, ?_⟩⟩
    obtain ⟨t, chain⟩ := hfrom.chain
    exact hbound _ t chain
  · intro hops s nested h f hf reference traits
    exact ⟨_, reuse_of_mem_fieldsOf h hf reference traits⟩

/-- A film takes over two fields, one from the docblock it refers to and one from behind that; both
are bound to the vendor tags of both docblocks and have the version of the first reference. -/
theorem fieldsOf_inlines_films :
    ∃ fields, fieldsOf {} Films.docblockOf maxHops (.ofMethod "\\Film" "getCredits" Films.credits)
        Films.credits = .ok fields ∧
      fields.map (fun f => (f.name, f.traits.vendorTags, f.traits.version.map (·.text))) =
        [("person.role", ["staff", "beta"], some ">=1.1"),
          ("person.who.name", ["staff", "beta"], some ">=1.1")] ∧
      ∃ trails : List Trail,
        (∀ trail, trail ∈ trails ↔ trail.From {} Films.docblockOf
          ⟨.ofMethod "\\Film" "getCredits" Films.credits, Films.credits⟩) ∧
        trails.Pairwise (·.path < ·.path) ∧
        List.Forall₂ (Trail.Inlined (.ofMethod "\\Film" "getCredits" Films.credits)) trails
          fields := by
  have hfields : ((fieldsOf {} Films.docblockOf maxHops
      (.ofMethod "\\Film" "getCredits" Films.credits) Films.credits).toOption.map
        (·.map fun f => (f.name, f.traits.vendorTags, f.traits.version.map (·.text)))) =
      some [("person.role", ["staff", "beta"], some ">=1.1"),
        ("person.who.name", ["staff", "beta"], some ">=1.1")] := by
    decide +kernel
  obtain ⟨fields, hread, hsummary⟩ := Option.map_eq_some_iff.1 hfields
  have hread := toOption_eq_some.1 hread
  exact ⟨fields, hread, hsummary, (fieldsOf_inlines {} Films.docblockOf _ _).1 fields hread⟩

end VersionedApi
