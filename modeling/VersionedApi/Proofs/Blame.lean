import VersionedApi.Action.Read
import VersionedApi.Proofs.Directive.Faults
import VersionedApi.Proofs.Representation.Inlining

/-!
# Errors stand where they come from

* `Action.failsOnly_read` : an action is refused at its own docblock;
* `Site.Faulty` : what is wrong with a docblock that references are followed from: it cannot be
  read, or one of its references leads nowhere or too far; `fieldsOf_eq_error` : the fields of a
  docblock are not found because of a docblock like that at the end of a chain of references, and
  there the error stands;
* `RepresentationSource.Blames` : the faults of a class and their places: the docblock of the class,
  of a member, or of the target of a reference;
* `Representation.explains_of_read` : a class is refused for one of these;
  `RepresentationSource.Blames.member_of_conflict` : fields in conflict are reported at a member,
  also if they are taken over from elsewhere.
-/

namespace VersionedApi

open VersionedApi.Docblock

/-- The error is a fault of the documentation at this place. -/
def Error.IsAt (context : Context) (e : Error) : Prop := ∃ fault, e = .documentation fault context

/-! ## Actions -/

namespace Action

variable (registry : Registry) (context : Context)

theorem isAt_read (kind : Kind) (tag : Tag) (version : Option Version.Range) :
    FailsOnly (Error.IsAt context) (Directive.read registry context kind tag version) :=
  (Directive.failsOnly_read registry context kind tag version).imp fun _ h => h.imp fun _ h => h.1

theorem isAt_readLabel (tags : List ScopedTag) :
    FailsOnly (Error.IsAt context) (readLabel registry context tags) := by
  unfold readLabel
  split
  · exact .error ⟨_, rfl⟩
  · refine (isAt_read registry context _ _ _).bind fun d => ?_
    split
    · exact .ok _
    · exact .error ⟨_, rfl⟩
  · exact .error ⟨_, rfl⟩

theorem isAt_readDescription (tags : List ScopedTag) :
    FailsOnly (Error.IsAt context) (readDescription registry context tags) := by
  unfold readDescription
  split
  · exact .ok _
  · refine (isAt_read registry context _ _ _).bind fun d => ?_
    split
    · exact .ok _
    · exact .ok _
  · exact .error ⟨_, rfl⟩

theorem isAt_readContentTypes (tags : List ScopedTag) :
    FailsOnly (Error.IsAt context) (readContentTypes registry context tags) := by
  refine .ite (.error ⟨_, rfl⟩) (.ite (.error ⟨_, rfl⟩) (.mapM fun tag _ => ?_))
  refine (isAt_read registry context _ _ _).bind fun d => ?_
  split
  · exact .ok _
  · exact .error ⟨_, rfl⟩

theorem isAt_readKept (tags : List ScopedTag) (begun : Bool) :
    FailsOnly (Error.IsAt context) (readKept registry context begun tags) := by
  induction tags generalizing begun with
  | nil => exact .ok _
  | cons tag tags ih =>
    unfold readKept
    split
    · exact ih begun
    · refine .ite (.error ⟨_, rfl⟩) ((isAt_read registry context _ _ _).bind fun d => ?_)
      exact (ih _).bind fun ds => .ok _

/-- An action is refused at its own docblock. -/
theorem failsOnly_read (source : ActionSource) :
    FailsOnly (Error.IsAt source.context) (Action.read registry source) := by
  have hscopes := (failsOnly_versionScopes source.context (tagsOf source.docblock)).imp
    fun e (h : ∃ fault, _) => (h.imp fun _ h => h.1 : e.IsAt source.context)
  refine hscopes.bind fun tags => (isAt_readLabel registry _ tags).bind fun label =>
    (isAt_readDescription registry _ tags).bind fun description =>
      (isAt_readContentTypes registry _ tags).bind fun contentTypes =>
        (isAt_readKept registry _ tags false).bind fun directives => .ite (.error ⟨_, rfl⟩) ?_
  dsimp only
  split
  · exact .error ⟨_, rfl⟩
  · exact .ok _

end Action

/-! ## Docblocks that references lead to -/

section Sites
variable (registry : Registry) (docblockOf : String → String → Option String)

def Site.Refers (s : Site) (r : Reference) : Prop :=
  ∃ ds, s.directives registry = .ok ds ∧ ∃ d ∈ ds, d.content = .see r

/-- What is wrong with a docblock, if references in it may be followed over `hops` hops. -/
inductive Site.Faulty (hops : Nat) (s : Site) : Fault → Prop
  | unreadable {fault : Fault}
      (h : s.directives registry = .error (.documentation fault s.context)) :
      Faulty hops s fault
  | unresolved {r : Reference} (hr : s.Refers registry r)
      (h : docblockOf r.owner r.method = none ∨ hops = 0) :
      Faulty hops s (.unresolvedReference r.target)

end Sites

section Following
variable {registry : Registry} {docblockOf : String → String → Option String} {hops : Nat}
variable {s t : Site} {e : Error}

theorem Chain.eq_or_target {n : Nat} (h : Chain registry docblockOf n s t) :
    n = 0 ∧ t = s ∨ ∃ m u r docblock, n = m + 1 ∧ Chain registry docblockOf m s u ∧
      u.Refers registry r ∧ docblockOf r.owner r.method = some docblock ∧
      t = ⟨.ofMethod (normalizeClass r.owner) r.method docblock, docblock⟩ := by
  induction h with
  | nil s => exact Or.inl ⟨rfl, rfl⟩
  | @cons n s t u hop chain ih =>
    right
    rcases ih with ⟨rfl, rfl⟩ | ⟨m, v, r, docblock, rfl, hchain, hr, hdocblock, hu⟩
    · obtain ⟨ds, hds, d, hd, r, hr, ht⟩ := hop
      obtain ⟨docblock, hdocblock, rfl⟩ := Option.map_eq_some_iff.1 ht
      exact ⟨0, s, r, docblock, rfl, .nil s, ⟨ds, hds, d, hd, hr⟩, hdocblock, rfl⟩
    · exact ⟨m + 1, v, r, docblock, rfl, .cons hop hchain, hr, hdocblock, hu⟩

theorem gatherFields_eq_error {visit : Reference → Traits → Except Error (List DataField)}
    (h : gatherFields registry visit s.context s.docblock = .error e) :
    s.directives registry = .error e ∨ ∃ ds, s.directives registry = .ok ds ∧
      ∃ d ∈ ds, ∃ r, d.content = .see r ∧ visit r d.traits = .error e := by
  rcases bind_eq_error.1 h with h | ⟨ds, hds, h⟩
  · exact Or.inl h
  · right
    rcases bind_eq_error.1 h with h | ⟨parts, -, h⟩
    · obtain ⟨d, hd, h⟩ := exists_of_mapM_eq_error h
      unfold fieldsUnder at h
      split at h
      · cases h
      · rename_i r hr
        exact ⟨ds, hds, d, hd, r, hr, h⟩
      · cases h
    · cases h

theorem faulty_of_directives (hops : Nat) (h : s.directives registry = .error e) :
    ∃ fault, s.Faulty registry docblockOf hops fault ∧ e = .documentation fault s.context := by
  obtain ⟨fault, rfl, -⟩ := failsOnly_directivesOf registry s.context (tagsOf s.docblock) e h
  exact ⟨fault, .unreadable h, rfl⟩

/-- The fields of a docblock are not found because of what is wrong with one that a chain of
references leads to, and there the error stands. -/
theorem fieldsOf_eq_error
    (h : fieldsOf registry docblockOf hops s.context s.docblock = .error e) :
    ∃ n rest t fault, hops = n + rest ∧ Chain registry docblockOf n s t ∧
      t.Faulty registry docblockOf rest fault ∧ e = .documentation fault t.context := by
  induction hops generalizing s with
  | zero =>
    rcases gatherFields_eq_error h with h | ⟨ds, hds, d, hd, r, hr, h⟩
    · obtain ⟨fault, hfault, he⟩ := faulty_of_directives 0 h
      exact ⟨0, 0, s, fault, rfl, .nil s, hfault, he⟩
    · refine ⟨0, 0, s, _, rfl, .nil s, .unresolved ⟨ds, hds, d, hd, hr⟩ (Or.inr rfl), ?_⟩
      cases h
      rw [unresolved, (readAt_of_mem_directivesOf hds hd).context]
  | succ hops ih =>
    rcases gatherFields_eq_error h with h | ⟨ds, hds, d, hd, r, hr, h⟩
    · obtain ⟨fault, hfault, he⟩ := faulty_of_directives (hops + 1) h
      exact ⟨0, hops + 1, s, fault, (Nat.zero_add _).symm, .nil s, hfault, he⟩
    · unfold follow at h
      split at h
      · rename_i hnone
        refine ⟨0, hops + 1, s, _, (Nat.zero_add _).symm, .nil s,
          .unresolved ⟨ds, hds, d, hd, hr⟩ (Or.inl hnone), ?_⟩
        cases h
        rw [unresolved, (readAt_of_mem_directivesOf hds hd).context]
      · rename_i docblock hdocblock
        rcases bind_eq_error.1 h with h | ⟨nested, hnested, h⟩
        · -- what the reference leads to is one hop away
          let next : Site := ⟨.ofMethod (normalizeClass r.owner) r.method docblock, docblock⟩
          have hnext : r.site? docblockOf = some next :=
            Option.map_eq_some_iff.2 ⟨docblock, hdocblock, rfl⟩
          obtain ⟨n, rest, t, fault, rfl, hchain, hfault, he⟩ := @ih next h
          exact ⟨n + 1, rest, t, fault, Nat.add_right_comm n rest 1,
            .cons ⟨ds, hds, d, hd, r, hr, hnext⟩ hchain, hfault, he⟩
        · rw [mapM_reuse (faithful_of_mem_fieldsOf hnested)] at h
          cases h

theorem context_of_mem_fieldsOf {fields : List DataField}
    (h : fieldsOf registry docblockOf hops s.context s.docblock = .ok fields) {f : DataField}
    (hf : f ∈ fields) : f.traits.context = s.context := by
  obtain ⟨trail, -, htrail⟩ := exists_of_mem_forall₂ (forall₂_trailsOf h) hf
  exact htrail.context

end Following

/-! ## Representations -/

/-- Two fields do not go together: they have one name, or one is nested under the other and must not
be. -/
def Fault.IsConflict (fault : Fault) : Prop :=
  (∃ field owner, fault = .duplicateField field owner) ∨
    ∃ field parent parentType, fault = .scalarParent field parent parentType

/-- A docblock is in no conflict with itself. -/
theorem Fault.IsOfDocblock.not_isConflict {fault : Fault} (h : fault.IsOfDocblock) :
    ¬ fault.IsConflict := by
  rintro (⟨field, owner, rfl⟩ | ⟨field, parent, parentType, rfl⟩)
  · rcases h with h | ⟨kind, h⟩
    · cases h
    · cases h
  · rcases h with h | ⟨kind, h⟩
    · cases h
    · cases h

theorem not_isConflict_of_directives {registry : Registry} {s : Site} {fault : Fault}
    {context : Context}
    (h : s.directives registry = .error (.documentation fault context)) : ¬ fault.IsConflict := by
  obtain ⟨fault', he, hfault⟩ := failsOnly_directivesOf registry s.context (tagsOf s.docblock) _ h
  cases he
  exact hfault.not_isConflict

theorem Site.Faulty.not_isConflict {registry : Registry}
    {docblockOf : String → String → Option String} {hops : Nat} {s : Site} {fault : Fault}
    (h : s.Faulty registry docblockOf hops fault) : ¬ fault.IsConflict := by
  cases h with
  | unreadable h => exact not_isConflict_of_directives h
  | unresolved => rintro (⟨_, _, h⟩ | ⟨_, _, _, h⟩) <;> cases h

namespace RepresentationSource

def heading (source : RepresentationSource) : Site :=
  ⟨.ofClass source.owner source.docblock, source.docblock⟩

def site (source : RepresentationSource) (m : MemberSource) : Site :=
  ⟨.ofMethod source.owner m.method m.docblock, m.docblock⟩

variable (registry : Registry) (docblockOf : String → String → Option String)
  (source : RepresentationSource)

/-- What is wrong with the docblock of a class. -/
inductive Unheaded : Fault → Prop
  | unreadable {fault : Fault}
      (h : source.heading.directives registry =
        .error (.documentation fault source.heading.context)) : Unheaded fault
  | empty (h : tagsOf source.docblock = [] ∨
      Representation.readMembers registry docblockOf source.owner [] source.members = .ok []) :
      Unheaded .noDirectives
  | unlabelled {ds : List Directive} (hds : source.heading.directives registry = .ok ds)
      (h : ∀ d ∈ ds, d.kind ≠ .label) : Unheaded (.missingDirective Kind.label.tag)
  | repeated {ds : List Directive} {kind : Kind} (hds : source.heading.directives registry = .ok ds)
      (hkind : kind = .label ∨ kind = .description) (h : 1 < ds.countP (·.kind == kind)) :
      Unheaded (.repeatedDirective kind.tag)

/-- A fault of a class and the place that it is reported at. -/
inductive Blames : Fault → Context → Prop
  /-- The docblock of the class. -/
  | heading {fault : Fault} (h : source.Unheaded registry docblockOf fault) :
      Blames fault (.ofClass source.owner source.docblock)
  /-- The docblock of a member. -/
  | member {m : MemberSource} {fault : Fault} (hm : m ∈ source.members)
      (h : (source.site m).Faulty registry docblockOf maxHops fault) :
      Blames fault (.ofMethod source.owner m.method m.docblock)
  /-- The docblock of the target of a reference, at the end of a chain that begins at a member. -/
  | target {m : MemberSource} {n rest : Nat} {t : Site} {r : Reference} {docblock : String}
      {fault : Fault} (hm : m ∈ source.members) (hhops : maxHops = n + 1 + rest)
      (chain : Chain registry docblockOf n (source.site m) t) (hr : t.Refers registry r)
      (hdocblock : docblockOf r.owner r.method = some docblock)
      (h : Site.Faulty registry docblockOf rest
        ⟨.ofMethod (normalizeClass r.owner) r.method docblock, docblock⟩ fault) :
      Blames fault (.ofMethod (normalizeClass r.owner) r.method docblock)
  /-- The docblock of a member with a field whose name was used before. -/
  | duplicate {m : MemberSource} {fields : List DataField} {f : DataField} (hm : m ∈ source.members)
      (hfields : fieldsOf registry docblockOf maxHops (source.site m).context m.docblock =
        .ok fields) (hf : f ∈ fields) :
      Blames (.duplicateField f.name source.owner) (.ofMethod source.owner m.method m.docblock)
  /-- The docblock of a member with a field under one that holds no others. -/
  | scalarParent {m : MemberSource} {fields : List DataField} {f : DataField}
      {parent parentType : String} (hm : m ∈ source.members)
      (hfields : fieldsOf registry docblockOf maxHops (source.site m).context m.docblock =
        .ok fields) (hf : f ∈ fields) :
      Blames (.scalarParent f.name parent parentType)
        (.ofMethod source.owner m.method m.docblock)

/-- The error is such a fault at its place. -/
def Explains (e : Error) : Prop :=
  ∃ fault context, e = .documentation fault context ∧
    source.Blames registry docblockOf fault context

variable {registry docblockOf source}

theorem Unheaded.not_isConflict {fault : Fault} (h : source.Unheaded registry docblockOf fault) :
    ¬ fault.IsConflict := by
  cases h with
  | unreadable h => exact not_isConflict_of_directives h
  | empty | unlabelled | repeated => rintro (⟨_, _, h⟩ | ⟨_, _, _, h⟩) <;> cases h

theorem Blames.member_of_conflict {fault : Fault} {context : Context}
    (h : source.Blames registry docblockOf fault context) (hconflict : fault.IsConflict) :
    ∃ m ∈ source.members, context = .ofMethod source.owner m.method m.docblock := by
  cases h with
  | heading h => exact absurd hconflict h.not_isConflict
  | target _ _ _ _ _ h => exact absurd hconflict h.not_isConflict
  | member hm | duplicate hm | scalarParent hm => exact ⟨_, hm, rfl⟩

theorem explains_of_fieldsOf {m : MemberSource} (hm : m ∈ source.members) {e : Error}
    (h : fieldsOf registry docblockOf maxHops (source.site m).context m.docblock = .error e) :
    source.Explains registry docblockOf e := by
  obtain ⟨n, rest, t, fault, hhops, hchain, hfault, he⟩ :=
    fieldsOf_eq_error (s := source.site m) h
  refine ⟨fault, t.context, he, ?_⟩
  rcases hchain.eq_or_target with ⟨rfl, rfl⟩ | ⟨k, u, r, docblock, rfl, hu, hr, hdocblock, rfl⟩
  · rw [Nat.zero_add] at hhops
    subst hhops
    exact .member hm hfault
  · exact .target hm hhops hu hr hdocblock hfault

end RepresentationSource

namespace Representation

variable {registry : Registry} {docblockOf : String → String → Option String}
  {source : RepresentationSource} {e : Error}

theorem mem_of_duplicate? {seen : List String} {fields : List DataField} {f : DataField}
    (h : duplicate? seen fields = some f) : f ∈ fields := by
  induction fields generalizing seen with
  | nil => cases h
  | cons g fields ih =>
    unfold duplicate? at h
    split at h
    · cases h
      exact List.mem_cons_self
    · exact List.mem_cons_of_mem g (ih h)

/-- The fields of members are not put together because those of a member are not found, or one of
them has a name that was used before. -/
theorem readMembers_eq_error {owner : String} {seen : List String} {members : List MemberSource}
    (h : readMembers registry docblockOf owner seen members = .error e) :
    ∃ m ∈ members,
      fieldsOf registry docblockOf maxHops (.ofMethod owner m.method m.docblock) m.docblock =
        .error e ∨
      ∃ fields f, fieldsOf registry docblockOf maxHops (.ofMethod owner m.method m.docblock)
          m.docblock = .ok fields ∧ f ∈ fields ∧
        e = .documentation (.duplicateField f.name owner)
          (.ofMethod owner m.method m.docblock) := by
  induction members generalizing seen with
  | nil => cases h
  | cons m members ih =>
    unfold readMembers at h
    rcases bind_eq_error.1 h with h | ⟨fields, hfields, h⟩
    · exact ⟨m, List.mem_cons_self, Or.inl h⟩
    · split at h
      · rename_i f hf
        cases h
        exact ⟨m, List.mem_cons_self, Or.inr ⟨fields, f, hfields, mem_of_duplicate? hf, rfl⟩⟩
      · rcases bind_eq_error.1 h with h | ⟨rest, -, h⟩
        · obtain ⟨m', hm', h⟩ := ih h
          exact ⟨m', List.mem_cons_of_mem m hm', h⟩
        · cases h

theorem exists_of_mem_readMembers {owner : String} {seen : List String}
    {members : List MemberSource} {fields : List DataField}
    (h : readMembers registry docblockOf owner seen members = .ok fields) {f : DataField}
    (hf : f ∈ fields) :
    ∃ m ∈ members, ∃ own,
      fieldsOf registry docblockOf maxHops (.ofMethod owner m.method m.docblock) m.docblock =
        .ok own ∧ f ∈ own := by
  induction members generalizing seen fields with
  | nil =>
    cases h
    cases hf
  | cons m members ih =>
    unfold readMembers at h
    obtain ⟨own, hown, h⟩ := bind_eq_ok.1 h
    split at h
    · cases h
    · obtain ⟨rest, hrest, h⟩ := bind_eq_ok.1 h
      cases h
      rcases List.mem_append.1 hf with hf | hf
      · exact ⟨m, List.mem_cons_self, own, hown, hf⟩
      · obtain ⟨m', hm', h⟩ := ih hrest hf
        exact ⟨m', List.mem_cons_of_mem m hm', h⟩

theorem misplaced?_eq_some {fields : List DataField} {f : DataField}
    (h : misplaced? fields f = some e) :
    ∃ parent parentType,
      e = .documentation (.scalarParent f.name parent parentType) f.traits.context := by
  unfold misplaced? at h
  obtain ⟨parent, -, h⟩ := Option.bind_eq_some_iff.1 h
  obtain ⟨outer, -, h⟩ := Option.bind_eq_some_iff.1 h
  split at h
  · cases h
  · cases h
    exact ⟨parent, outer.field.typeText, rfl⟩

theorem readHeading_eq_error {context : Context} {label description : Option String}
    {ds : List Directive} (h : readHeading context label description ds = .error e) :
    ∃ kind, (kind = .label ∧ 1 < label.toList.length + ds.countP (·.kind == kind) ∨
        kind = .description ∧ 1 < description.toList.length + ds.countP (·.kind == kind)) ∧
      e = .documentation (.repeatedDirective kind.tag) context := by
  induction ds generalizing label description with
  | nil => cases h
  | cons d ds ih =>
    have hmore : ∀ kind, ds.countP (·.kind == kind) ≤ (d :: ds).countP (·.kind == kind) :=
      fun kind => (List.sublist_cons_self d ds).countP_le
    have hlabels := hmore .label
    have hdescriptions := hmore .description
    unfold readHeading at h
    split at h
    · rename_i text hcontent
      have hcount : (d :: ds).countP (·.kind == .label) = ds.countP (·.kind == .label) + 1 :=
        List.countP_cons_of_pos (by rw [Directive.kind, hcontent]; rfl)
      by_cases hsome : label.isSome = true
      · obtain ⟨old, rfl⟩ := Option.isSome_iff_exists.1 hsome
        cases h
        exact ⟨.label, Or.inl ⟨rfl, by simp [hcount]⟩, rfl⟩
      · rw [if_neg hsome] at h
        obtain ⟨kind, ⟨rfl, hlt⟩ | ⟨rfl, hlt⟩, he⟩ := ih h
        · rw [Option.toList_some, List.length_singleton] at hlt
          exact ⟨.label, Or.inl ⟨rfl, by omega⟩, he⟩
        · exact ⟨.description, Or.inr ⟨rfl, by omega⟩, he⟩
    · rename_i text hcontent
      have hcount : (d :: ds).countP (·.kind == .description) =
          ds.countP (·.kind == .description) + 1 :=
        List.countP_cons_of_pos (by rw [Directive.kind, hcontent]; rfl)
      by_cases hsome : description.isSome = true
      · obtain ⟨old, rfl⟩ := Option.isSome_iff_exists.1 hsome
        cases h
        exact ⟨.description, Or.inr ⟨rfl, by simp [hcount]⟩, rfl⟩
      · rw [if_neg hsome] at h
        obtain ⟨kind, ⟨rfl, hlt⟩ | ⟨rfl, hlt⟩, he⟩ := ih h
        · exact ⟨.label, Or.inl ⟨rfl, by omega⟩, he⟩
        · rw [Option.toList_some, List.length_singleton] at hlt
          exact ⟨.description, Or.inr ⟨rfl, by omega⟩, he⟩
    · obtain ⟨kind, ⟨rfl, hlt⟩ | ⟨rfl, hlt⟩, he⟩ := ih h
      · exact ⟨.label, Or.inl ⟨rfl, by omega⟩, he⟩
      · exact ⟨.description, Or.inr ⟨rfl, by omega⟩, he⟩

theorem label_of_readHeading {context : Context} {label description told : Option String}
    {ds : List Directive} (h : readHeading context label description ds = .ok (none, told)) :
    label = none ∧ ∀ d ∈ ds, d.kind ≠ .label := by
  induction ds generalizing label description with
  | nil =>
    cases h
    exact ⟨rfl, fun d hd => by cases hd⟩
  | cons d ds ih =>
    unfold readHeading at h
    split at h
    · split at h
      · cases h
      · cases (ih h).1
    · rename_i text hcontent
      split at h
      · cases h
      · refine ⟨(ih h).1, List.forall_mem_cons.2 ⟨?_, (ih h).2⟩⟩
        rw [Directive.kind, hcontent]
        rintro ⟨⟩
    · rename_i hlabel _
      refine ⟨(ih h).1, List.forall_mem_cons.2 ⟨fun hkind => ?_, (ih h).2⟩⟩
      cases hcontent : d.content with
      | label text => exact hlabel text hcontent
      | _ =>
        rw [Directive.kind, hcontent] at hkind
        cases hkind

theorem explains_of_readMembers
    (h : readMembers registry docblockOf source.owner [] source.members = .error e) :
    source.Explains registry docblockOf e := by
  obtain ⟨m, hm, h | ⟨fields, f, hfields, hf, rfl⟩⟩ := readMembers_eq_error h
  · exact RepresentationSource.explains_of_fieldsOf hm h
  · exact ⟨_, _, rfl, .duplicate hm hfields hf⟩

/-- A field stands at the member that it comes from, so there it is misplaced. -/
theorem explains_of_misplaced {fields : List DataField}
    (hfields : readMembers registry docblockOf source.owner [] source.members = .ok fields)
    (h : fields.findSome? (misplaced? fields) = some e) :
    source.Explains registry docblockOf e := by
  obtain ⟨f, hf, h⟩ := List.exists_of_findSome?_eq_some h
  obtain ⟨parent, parentType, rfl⟩ := misplaced?_eq_some h
  obtain ⟨m, hm, own, hown, hf⟩ := exists_of_mem_readMembers hfields hf
  have hcontext := context_of_mem_fieldsOf (s := source.site m) hown hf
  rw [hcontext]
  exact ⟨_, _, rfl, .scalarParent hm hown hf⟩

theorem explains_of_read (h : Representation.read registry docblockOf source = .error e) :
    source.Explains registry docblockOf e := by
  have hheading : ∀ {fault}, source.Unheaded registry docblockOf fault →
      source.Explains registry docblockOf (.documentation fault source.heading.context) :=
    fun hfault => ⟨_, _, rfl, .heading hfault⟩
  unfold Representation.read at h
  dsimp only at h
  split at h
  · rename_i hempty
    cases h
    exact hheading (.empty (Or.inl (List.isEmpty_iff.1 hempty)))
  rcases bind_eq_error.1 h with h | ⟨ds, hds, h⟩
  · obtain ⟨fault, rfl, -⟩ := failsOnly_directivesOf registry _ _ e h
    exact hheading (.unreadable h)
  rcases bind_eq_error.1 h with h | ⟨⟨label, description⟩, hread, h⟩
  · obtain ⟨kind, hkind, rfl⟩ := readHeading_eq_error h
    simp only [Option.toList_none, List.length_nil, Nat.zero_add] at hkind
    rcases hkind with ⟨hkind, hlt⟩ | ⟨hkind, hlt⟩
    · exact hheading (.repeated hds (Or.inl hkind) hlt)
    · exact hheading (.repeated hds (Or.inr hkind) hlt)
  split at h
  · rename_i hnone
    cases hnone
    cases h
    exact hheading (.unlabelled hds (label_of_readHeading hread).2)
  rcases bind_eq_error.1 h with h | ⟨fields, hfields, h⟩
  · exact explains_of_readMembers h
  split at h
  · rename_i hempty
    cases h
    rw [List.isEmpty_iff.1 hempty] at hfields
    exact hheading (.empty (Or.inr hfields))
  split at h
  · rename_i e' hmisplaced
    cases h
    exact explains_of_misplaced hfields hmisplaced
  · cases h

end Representation

/-- An action is refused at its own docblock. A class is refused for a fault of its docblock, of
that of a member or of that of the target of a reference, and at this docblock; a conflict of fields
is always reported at a member. -/
theorem errors_placed (registry : Registry) :
    (∀ source e, Action.read registry source = .error e →
      e.context? = some (.ofMethod source.owner source.method source.docblock)) ∧
    ∀ docblockOf source e, Representation.read registry docblockOf source = .error e →
      ∃ fault context, e = .documentation fault context ∧ e.context? = some context ∧
        source.Blames registry docblockOf fault context ∧
        (fault.IsConflict → ∃ m ∈ source.members,
          context = .ofMethod source.owner m.method m.docblock) := by
  constructor
  · intro source e h
    obtain ⟨fault, rfl⟩ := Action.failsOnly_read registry source e h
    rfl
  · intro docblockOf source e h
    obtain ⟨fault, context, rfl, hblames⟩ := Representation.explains_of_read h
    exact ⟨fault, context, rfl, rfl, hblames, hblames.member_of_conflict⟩

namespace Films

def crew : RepresentationSource :=
  { owner := "\\Crew"
    docblock := "/** @api-label Crew */"
    members := [⟨"getActor", "/** @api-see Person::getName */"⟩,
      ⟨"getWriter", "/** @api-see Person::getName */"⟩] }

theorem crew_refused : Representation.read {} docblockOf crew =
    .error (.documentation (.duplicateField "name" "\\Crew")
      (.ofMethod "\\Crew" "getWriter" "/** @api-see Person::getName */")) := by
  have herror : (match Representation.read {} docblockOf crew with
      | .error e => some e
      | .ok _ => none) = some (.documentation (.duplicateField "name" "\\Crew")
        (.ofMethod "\\Crew" "getWriter" "/** @api-see Person::getName */")) := by decide +kernel
  cases hread : Representation.read {} docblockOf crew with
  | error e =>
    rw [hread] at herror
    rw [Option.some.inj herror]
  | ok r =>
    rw [hread] at herror
    cases herror

end Films

/-- An action that says nothing is refused at its docblock. The second of two members that take over
the same field is reported, not the docblock that they take it from. -/
theorem errors_placed_films :
    (∃ e, Action.read {} ⟨"\\Films", "GET", "", none, 0⟩ = .error e ∧
      e.context? = some (.ofMethod "\\Films" "GET" "")) ∧
    (∃ e, Representation.read {} Films.docblockOf Films.crew = .error e ∧
      e.context? = some (.ofMethod "\\Crew" "getWriter" "/** @api-see Person::getName */") ∧
      Films.crew.Blames {} Films.docblockOf (.duplicateField "name" "\\Crew")
        (.ofMethod "\\Crew" "getWriter" "/** @api-see Person::getName */")) := by
  obtain ⟨hactions, hrepresentations⟩ := errors_placed {}
  have haction : Action.read {} ⟨"\\Films", "GET", "", none, 0⟩ = .error (.documentation
      (.missingDirective "label") (.ofMethod "\\Films" "GET" "")) := rfl
  obtain ⟨fault, context, he, hcontext, hblames, -⟩ :=
    hrepresentations Films.docblockOf Films.crew _ Films.crew_refused
  cases he
  exact ⟨⟨_, haction, hactions _ _ haction⟩, _, Films.crew_refused, hcontext, hblames⟩

end VersionedApi
