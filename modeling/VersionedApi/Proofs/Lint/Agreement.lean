import VersionedApi.Proofs.Graph.Compiled
import VersionedApi.Proofs.Lint.Loops

/-!
# Linting and compiling

* `Faulty` : an error that a source makes, on its own or by naming a representation that was not
  read, with the place of the source;
* `compile_eq_error`, `exists_compile_iff` : compiling stops at one of these errors, and succeeds
  exactly if there is none;
* `mem_lint_issues_iff` : linting lists all of them and no other error;
* `lint_agrees` : so both agree on which sources are in order.
-/

namespace VersionedApi.Lint

/-! ## The errors of sources -/

/-- An error that a source makes, and where the source was found. -/
inductive Faulty (registry : Registry) (sources : Sources) : Error → String → Nat → Prop
  | representation {s : RepresentationSource} {e : Error} (hs : s ∈ sources.representations)
      (h : Representation.read registry (DocblockIndex.ofSources sources.representations).find? s =
        .error e) :
      Faulty registry sources e (s.file.getD "") s.line
  | action {s : ActionSource} {e : Error} (hs : s ∈ sources.actions)
      (h : Action.read registry s = .error e) : Faulty registry sources e (s.file.getD "") s.line
  | reference {s : ActionSource} {a : Action} {d : Directive} {name : String}
      (hs : s ∈ sources.actions) (h : Action.read registry s = .ok a) (hd : d ∈ a.responses)
      (hname : d.content.representation? = some name)
      (hnot : ¬ Accepted registry sources (normalizeClass name)) :
      Faulty registry sources (.documentation (.unknownRepresentation name) d.traits.context)
        (s.file.getD "") s.line

variable {registry : Registry} {supported : List Version.Number} {sources : Sources} {e : Error}

/-! ## Compiling -/

theorem mem_owners {representations : List Representation}
    (h : sources.representations.mapM (Representation.read registry
      (DocblockIndex.ofSources sources.representations).find?) = .ok representations)
    (owner : String) :
    owner ∈ representations.map Representation.owner ↔ Accepted registry sources owner := by
  rw [List.mem_map]
  constructor
  · rintro ⟨r, hr, rfl⟩
    obtain ⟨s, hs, hread⟩ := exists_of_mem_mapM h hr
    exact ⟨s, hs, r, hread, rfl⟩
  · rintro ⟨s, hs, r, hread, rfl⟩
    exact ⟨r, mem_mapM_of_mem h hs hread, rfl⟩

theorem missingReference?_eq_some {known : List String} {actions : List Action}
    (h : missingReference? known actions = some e) :
    ∃ a ∈ actions, ∃ d ∈ a.responses, unknownReference? known d = some e := by
  obtain ⟨d, hd, he⟩ := List.exists_of_findSome?_eq_some h
  obtain ⟨a, ha, hd⟩ := List.mem_flatMap.1 hd
  exact ⟨a, ha, d, hd, he⟩

theorem compile_eq_error (h : compile registry supported sources = .error e) :
    ∃ file line, Faulty registry sources e file line := by
  unfold compile at h
  rcases bind_eq_error.1 h with h | ⟨representations, hrepresentations, h⟩
  · obtain ⟨s, hs, h⟩ := exists_of_mapM_eq_error h
    exact ⟨_, _, .representation hs h⟩
  · rcases bind_eq_error.1 h with h | ⟨actions, hactions, h⟩
    · obtain ⟨s, hs, h⟩ := exists_of_mapM_eq_error h
      exact ⟨_, _, .action hs h⟩
    · split at h
      · rename_i e' hmissing
        cases h
        obtain ⟨a, ha, d, hd, he⟩ := missingReference?_eq_some hmissing
        obtain ⟨s, hs, hread⟩ := exists_of_mem_mapM hactions ha
        obtain ⟨name, hname, hnot, rfl⟩ :=
          (unknownReference?_eq_some_iff (mem_owners hrepresentations)).1 he
        exact ⟨_, _, .reference hs hread hd hname hnot⟩
      · cases h

theorem not_faulty_of_compile {g : Graph} (h : compile registry supported sources = .ok g)
    {file : String} {line : Nat} : ¬ Faulty registry sources e file line := by
  obtain ⟨-, hrepresentations, hactions, hmissing⟩ := compile_ok h
  have hresponses := List.findSome?_eq_none_iff.1 hmissing
  intro hfaulty
  cases hfaulty with
  | representation hs he =>
    obtain ⟨r, hr⟩ := exists_mapM_eq_ok.1 ⟨_, hrepresentations⟩ _ hs
    rw [hr] at he
    cases he
  | action hs he =>
    obtain ⟨a, ha⟩ := exists_mapM_eq_ok.1 ⟨_, hactions⟩ _ hs
    rw [ha] at he
    cases he
  | @reference s a d name hs hread hd hname hnot =>
    have ha := mem_mapM_of_mem hactions hs hread
    have he := (unknownReference?_eq_some_iff (mem_owners hrepresentations)).2
      ⟨name, hname, hnot, rfl⟩
    rw [hresponses d (List.mem_flatMap.2 ⟨a, ha, hd⟩)] at he
    cases he

theorem exists_compile_iff :
    (∃ g, compile registry supported sources = .ok g) ↔
      ∀ e file line, ¬ Faulty registry sources e file line := by
  constructor
  · rintro ⟨g, h⟩ e file line
    exact not_faulty_of_compile h
  · intro hnone
    cases h : compile registry supported sources with
    | ok g => exact ⟨g, rfl⟩
    | error e =>
      obtain ⟨file, line, hfaulty⟩ := compile_eq_error h
      exact absurd hfaulty (hnone e file line)

/-! ## Linting -/

variable {i : Issue}

theorem RepresentationReport.mem_iff {index : DocblockIndex} {s : RepresentationSource}
    {issues : List Issue} (h : RepresentationReport registry index s issues) :
    i ∈ issues ↔ ∃ e, Representation.read registry index.find? s = .error e ∧
      i = .ofError e (s.file.getD "") s.line := by
  cases h with
  | accepted h => simp [h]
  | rejected h => simp [h]

theorem ReferenceErrors.mem_iff {accepted : String → Prop} {s : ActionSource}
    {ds : List Directive} {issues : List Issue} (h : ReferenceErrors accepted s ds issues) :
    i ∈ issues ↔ ∃ d ∈ ds, ∃ name, d.content.representation? = some name ∧
      ¬ accepted (normalizeClass name) ∧
      i = .ofError (.documentation (.unknownRepresentation name) d.traits.context)
        (s.file.getD "") s.line := by
  induction h with
  | nil => simp
  | resolved h _ ih =>
    rw [ih, List.exists_mem_cons_iff, or_iff_right]
    rintro ⟨name, hname, hnot, -⟩
    exact hnot (h name hname)
  | missing h hnot _ ih =>
    rw [List.mem_cons, ih, List.exists_mem_cons_iff]
    simp [h, hnot]

theorem not_mem_lackWarnings {s : ActionSource} {a : Action} (h : i.severity = .error) :
    i ∉ lackWarnings s a := by
  intro hi
  unfold lackWarnings at hi
  rcases List.mem_append.1 hi with hi | hi
  · split at hi
    · rw [List.mem_singleton.1 hi] at h
      cases h
    · cases hi
  · split at hi
    · rw [List.mem_singleton.1 hi] at h
      cases h
    · cases hi

theorem ActionReport.mem_iff {accepted : String → Prop} {s : ActionSource} {issues : List Issue}
    (h : ActionReport registry accepted s issues) (hseverity : i.severity = .error) :
    i ∈ issues ↔
      (∃ e, Action.read registry s = .error e ∧ i = .ofError e (s.file.getD "") s.line) ∨
        ∃ a, Action.read registry s = .ok a ∧ ∃ d ∈ a.responses, ∃ name,
          d.content.representation? = some name ∧ ¬ accepted (normalizeClass name) ∧
          i = .ofError (.documentation (.unknownRepresentation name) d.traits.context)
            (s.file.getD "") s.line := by
  cases h with
  | read h herrors =>
    rw [List.mem_append, or_iff_left (not_mem_lackWarnings hseverity), herrors.mem_iff]
    simp [h]
  | rejected h => simp [h]

/-- What stands in the reports of some sources comes from one of them. -/
theorem mem_flatten_iff {α : Type} {Report : α → List Issue → Prop} {P : α → Prop}
    (hP : ∀ x issues, Report x issues → (i ∈ issues ↔ P x)) {xs : List α}
    {reports : List (List Issue)} (h : List.Forall₂ Report xs reports) :
    i ∈ reports.flatten ↔ ∃ x ∈ xs, P x := by
  induction h with
  | nil => simp
  | cons hreport _ ih =>
    rw [List.flatten_cons, List.mem_append, hP _ _ hreport, ih, List.exists_mem_cons_iff]

theorem mem_lint_issues_iff (hseverity : i.severity = .error) :
    i ∈ (lint registry sources).issues ↔
      ∃ e file line, Faulty registry sources e file line ∧ i = .ofError e file line := by
  obtain ⟨ofRepresentations, ofActions, hadds, hrepresentations, hactions⟩ :=
    lint_adds registry sources
  rw [hadds.issues, List.nil_append, List.mem_append,
    mem_flatten_iff (fun _ _ h => h.mem_iff) hrepresentations,
    mem_flatten_iff (fun _ _ h => h.mem_iff hseverity) hactions]
  constructor
  · rintro (⟨s, hs, e, he, rfl⟩ |
      ⟨s, hs, ⟨e, he, rfl⟩ | ⟨a, ha, d, hd, name, hname, hnot, rfl⟩⟩)
    · exact ⟨e, _, _, .representation hs he, rfl⟩
    · exact ⟨e, _, _, .action hs he, rfl⟩
    · exact ⟨_, _, _, .reference hs ha hd hname hnot, rfl⟩
  · rintro ⟨e, file, line, hfaulty, rfl⟩
    cases hfaulty with
    | representation hs he => exact Or.inl ⟨_, hs, e, he, rfl⟩
    | action hs he => exact Or.inr ⟨_, hs, Or.inl ⟨e, he, rfl⟩⟩
    | reference hs ha hd hname hnot =>
      exact Or.inr ⟨_, hs, Or.inr ⟨_, ha, _, hd, _, hname, hnot, rfl⟩⟩

theorem counted_lint (registry : Registry) (sources : Sources) :
    (lint registry sources).Counted := by
  obtain ⟨_, _, hadds, -⟩ := lint_adds registry sources
  exact hadds.counted Findings.counted_empty

/-- As long as the count of errors does not wrap around, a run passes exactly if it lists none. -/
theorem passed_iff (h : (lint registry sources).issues.length < UInt64.size) :
    (lint registry sources).passed = true ↔
      ∀ i ∈ (lint registry sources).issues, i.severity ≠ .error := by
  have hcount := Nat.lt_of_le_of_lt (List.countP_le_length (p := (·.severity == .error))) h
  unfold Findings.passed
  rw [(counted_lint registry sources).errors, Findings.number, beq_iff_eq, ← UInt64.toNat_inj,
    Nat.toUInt64, UInt64.toNat_ofNat', Nat.mod_eq_of_lt hcount, UInt64.toNat_zero,
    List.countP_eq_zero]
  simp

/-- Compiling succeeds exactly if linting lists no error, and then the run passes; if compiling
fails, its error is among those that linting lists. -/
theorem lint_agrees (registry : Registry) (supported : List Version.Number) (sources : Sources) :
    ((∃ g, compile registry supported sources = .ok g) ↔
      ∀ i ∈ (lint registry sources).issues, i.severity ≠ .error) ∧
    ((lint registry sources).issues.length < UInt64.size →
      ((lint registry sources).passed = true ↔
        ∃ g, compile registry supported sources = .ok g)) ∧
    ∀ e, compile registry supported sources = .error e →
      ∃ i ∈ (lint registry sources).issues, i.severity = .error ∧ i.code = e.code ∧
        i.message = e.message := by
  have hiff : (∃ g, compile registry supported sources = .ok g) ↔
      ∀ i ∈ (lint registry sources).issues, i.severity ≠ .error := by
    rw [exists_compile_iff]
    constructor
    · intro hnone i hi hseverity
      obtain ⟨e, file, line, hfaulty, -⟩ := (mem_lint_issues_iff hseverity).1 hi
      exact hnone e file line hfaulty
    · intro hnone e file line hfaulty
      exact hnone _ ((mem_lint_issues_iff rfl).2 ⟨e, file, line, hfaulty, rfl⟩) rfl
  refine ⟨hiff, fun hlength => (passed_iff hlength).trans hiff.symm, fun e he => ?_⟩
  obtain ⟨file, line, hfaulty⟩ := compile_eq_error he
  exact ⟨_, (mem_lint_issues_iff rfl).2 ⟨e, file, line, hfaulty, rfl⟩, rfl, rfl, rfl⟩

def undocumented : Sources :=
  { Movies.documentation with representations := [⟨"\\Movie", "", [], none, 0⟩] }

/-- The movies compile and pass; with a class that says nothing they do not compile, and linting
says why. -/
theorem lint_agrees_movies :
    ((lint {} Movies.documentation).issues.length < UInt64.size ∧
      compile {} Movies.versions Movies.documentation = .ok Movies.graph ∧
      (lint {} Movies.documentation).passed = true) ∧
    compile {} Movies.versions undocumented =
      .error (.documentation .noDirectives (.ofClass "\\Movie" "")) ∧
    ∃ i ∈ (lint {} undocumented).issues, i.severity = .error ∧
      i.code = (Error.documentation .noDirectives (.ofClass "\\Movie" "")).code ∧
      i.message = (Error.documentation .noDirectives (.ofClass "\\Movie" "")).message := by
  have hlength : (lint {} Movies.documentation).issues.length < UInt64.size := by decide +kernel
  have herror : compile {} Movies.versions undocumented =
      .error (.documentation .noDirectives (.ofClass "\\Movie" "")) := rfl
  exact ⟨⟨hlength, Movies.compiled,
      ((lint_agrees {} Movies.versions Movies.documentation).2.1 hlength).2 ⟨_, Movies.compiled⟩⟩,
    herror, (lint_agrees {} Movies.versions undocumented).2.2 _ herror⟩

end VersionedApi.Lint
