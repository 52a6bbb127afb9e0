import Mathlib.Data.List.Forall2
import VersionedApi.Lint.Check

/-!
# The loops of linting

* `Findings.Counted` : errors and warnings are counted; `Findings.Adds` : findings with some issues
  more and so many sources more, which are counted if they were counted before. One issue is pushed
  so (`Findings.adds_push`), and additions follow one another (`Findings.Adds.trans`);
* `RepresentationReport`, `ActionReport` : the issues of one source. One step of a loop adds the
  report of its source (`checkRepresentation_adds`, `checkAction_adds`), so a loop adds the reports
  of all its sources, one after the other (`adds_foldl`);
* `mem_known` : the classes that are known behind the first loop are the accepted ones;
* `lint_adds` : so a run adds the reports of all sources to the empty findings.
-/

namespace VersionedApi.Lint

/-! ## Counted issues -/

namespace Findings

def number (f : Findings) (severity : Severity) : Nat := f.issues.countP (·.severity == severity)

/-- Errors and warnings are counted, in 64 bits. -/
structure Counted (f : Findings) : Prop where
  errors : f.errors = (f.number .error).toUInt64
  warnings : f.warnings = (f.number .warning).toUInt64

/-- From `f` to `g` come some representations, some actions and some issues, which stay counted. -/
structure Adds (f g : Findings) (representations actions : Nat) (issues : List Issue) : Prop where
  representations : g.representations = f.representations + representations.toUInt64
  actions : g.actions = f.actions + actions.toUInt64
  issues : g.issues = f.issues ++ issues
  counted : f.Counted → g.Counted

variable {f g h : Findings} {is js : List Issue}

theorem counted_empty : ({} : Findings).Counted := ⟨rfl, rfl⟩

theorem Adds.refl (f : Findings) : f.Adds f 0 0 [] :=
  ⟨(UInt64.add_zero _).symm, (UInt64.add_zero _).symm, (List.append_nil _).symm, id⟩

theorem Adds.trans {r a r' a' : Nat} (hfg : f.Adds g r a is) (hgh : g.Adds h r' a' js) :
    f.Adds h (r + r') (a + a') (is ++ js) where
  representations := by
    rw [hgh.representations, hfg.representations, UInt64.add_assoc]
    exact congrArg _ (UInt64.ofNat_add r r').symm
  actions := by
    rw [hgh.actions, hfg.actions, UInt64.add_assoc]
    exact congrArg _ (UInt64.ofNat_add a a').symm
  issues := by rw [hgh.issues, hfg.issues, List.append_assoc]
  counted := fun hf => hgh.counted (hfg.counted hf)

theorem adds_representation (f : Findings) :
    f.Adds { f with representations := f.representations + 1 } 1 0 [] :=
  ⟨rfl, (UInt64.add_zero _).symm, (List.append_nil _).symm, fun hf => ⟨hf.errors, hf.warnings⟩⟩

theorem adds_action (f : Findings) : f.Adds { f with actions := f.actions + 1 } 0 1 [] :=
  ⟨(UInt64.add_zero _).symm, rfl, (List.append_nil _).symm, fun hf => ⟨hf.errors, hf.warnings⟩⟩

theorem number_push (f : Findings) (i : Issue) (severity : Severity) :
    (f.push i).number severity = f.number severity + if i.severity = severity then 1 else 0 := by
  have hissues : (f.push i).issues = f.issues ++ [i] := by
    unfold push
    cases i.severity <;> rfl
  rw [number, hissues, List.countP_append, List.countP_singleton]
  simp [number]

/-- One issue is pushed behind the others, and the count of its severity goes up with it. -/
theorem adds_push (f : Findings) (i : Issue) : f.Adds (f.push i) 0 0 [i] := by
  have hone (n : Nat) : (n + 1).toUInt64 = n.toUInt64 + 1 := UInt64.ofNat_add n 1
  have hcounted (hf : f.Counted) : (f.push i).Counted := by
    refine ⟨?_, ?_⟩
    · rw [number_push]
      cases hi : i.severity <;> simp [push, hi, hone, hf.errors]
    · rw [number_push]
      cases hi : i.severity <;> simp [push, hi, hone, hf.warnings]
  refine ⟨?_, ?_, ?_, hcounted⟩
  · cases hi : i.severity <;> simp [push, hi, Nat.toUInt64]
  · cases hi : i.severity <;> simp [push, hi, Nat.toUInt64]
  · cases hi : i.severity <;> simp [push, hi]

theorem adds_pushError (f : Findings) (e : Error) (file : String) (line : Nat) :
    f.Adds (f.pushError e file line) 0 0 [.ofError e file line] := adds_push f _

end Findings

/-! ## The issues of one source -/

/-- The class of a representation whose source is accepted. -/
def Accepted (registry : Registry) (sources : Sources) (owner : String) : Prop :=
  ∃ s ∈ sources.representations, ∃ r, Representation.read registry
    (DocblockIndex.ofSources sources.representations).find? s = .ok r ∧ r.owner = owner

/-- The issues of the source of a representation: none, or its error at its own place. -/
inductive RepresentationReport (registry : Registry) (index : DocblockIndex)
    (s : RepresentationSource) : List Issue → Prop
  | accepted {r : Representation} (h : Representation.read registry index.find? s = .ok r) :
      RepresentationReport registry index s []
  | rejected {e : Error} (h : Representation.read registry index.find? s = .error e) :
      RepresentationReport registry index s [.ofError e (s.file.getD "") s.line]

/-- The errors of some responses of an action: one for each that names a representation of a class
that is not accepted. -/
inductive ReferenceErrors (accepted : String → Prop) (s : ActionSource) :
    List Directive → List Issue → Prop
  | nil : ReferenceErrors accepted s [] []
  | resolved {d : Directive} {ds : List Directive} {issues : List Issue}
      (h : ∀ name, d.content.representation? = some name → accepted (normalizeClass name))
      (rest : ReferenceErrors accepted s ds issues) : ReferenceErrors accepted s (d :: ds) issues
  | missing {d : Directive} {ds : List Directive} {issues : List Issue} {name : String}
      (h : d.content.representation? = some name) (hname : ¬ accepted (normalizeClass name))
      (rest : ReferenceErrors accepted s ds issues) :
      ReferenceErrors accepted s (d :: ds)
        (.ofError (.documentation (.unknownRepresentation name) d.traits.context)
          (s.file.getD "") s.line :: issues)

def lackWarnings (s : ActionSource) (a : Action) : List Issue :=
  (if a.description = none then
    [warning s a "W001" "has no @api-description" "Add @api-description <text>"] else []) ++
  if a.responses = [] then
    [warning s a "W002" "documents no responses" "Add @api-return or @api-throws"] else []

/-- The issues of the source of an action: its error at its own place, or the errors of its
responses and then the warnings. -/
inductive ActionReport (registry : Registry) (accepted : String → Prop) (s : ActionSource) :
    List Issue → Prop
  | read {a : Action} {errors : List Issue} (h : Action.read registry s = .ok a)
      (herrors : ReferenceErrors accepted s a.responses errors) :
      ActionReport registry accepted s (errors ++ lackWarnings s a)
  | rejected {e : Error} (h : Action.read registry s = .error e) :
      ActionReport registry accepted s [.ofError e (s.file.getD "") s.line]

/-! ## Steps -/

variable {registry : Registry} {index : DocblockIndex} {known : List String}
  {accepted : String → Prop} {sources : Sources}

theorem checkRepresentation_adds (run : Findings × List String) (s : RepresentationSource) :
    ∃ issues, run.1.Adds (checkRepresentation registry index run s).1 1 0 issues ∧
      RepresentationReport registry index s issues := by
  unfold checkRepresentation
  dsimp only
  split
  · rename_i r hr
    exact ⟨[], run.1.adds_representation, .accepted hr⟩
  · rename_i e he
    exact ⟨_, run.1.adds_representation.trans (Findings.adds_pushError _ e _ _), .rejected he⟩

theorem unknownReference?_eq_some_iff (hknown : ∀ owner, owner ∈ known ↔ accepted owner)
    {d : Directive} {e : Error} :
    unknownReference? known d = some e ↔ ∃ name, d.content.representation? = some name ∧
      ¬ accepted (normalizeClass name) ∧
      e = .documentation (.unknownRepresentation name) d.traits.context := by
  simp only [unknownReference?, Option.map_eq_some_iff, Option.filter_eq_some_iff, Bool.not_eq_true',
    List.contains_eq_mem, decide_eq_false_iff_not, hknown, and_assoc, @eq_comm _ _ e]

theorem checkResponses_adds (hknown : ∀ owner, owner ∈ known ↔ accepted owner)
    (s : ActionSource) (ds : List Directive) (f : Findings) :
    ∃ errors, f.Adds (ds.foldl (checkResponse known s) f) 0 0 errors ∧
      ReferenceErrors accepted s ds errors := by
  induction ds generalizing f with
  | nil => exact ⟨[], .refl f, .nil⟩
  | cons d ds ih =>
    obtain ⟨errors, hadds, hrest⟩ := ih (checkResponse known s f d)
    rw [List.foldl_cons]
    cases he : unknownReference? known d with
    | none =>
      have hstep : checkResponse known s f d = f := by
        unfold checkResponse
        rw [he]
      rw [hstep] at hadds ⊢
      refine ⟨errors, hadds, .resolved (fun name hname => ?_) hrest⟩
      by_contra hnot
      rw [(unknownReference?_eq_some_iff hknown).2 ⟨name, hname, hnot, rfl⟩] at he
      cases he
    | some e =>
      have hstep : checkResponse known s f d = f.pushError e (s.file.getD "") s.line := by
        unfold checkResponse
        rw [he]
      rw [hstep] at hadds ⊢
      obtain ⟨name, hname, hnot, rfl⟩ := (unknownReference?_eq_some_iff hknown).1 he
      exact ⟨_, (f.adds_pushError _ _ _).trans hadds, .missing hname hnot hrest⟩

theorem adds_pushIf (c : Bool) (f : Findings) (i : Issue) :
    f.Adds (if c then f.push i else f) 0 0 (if c then [i] else []) := by
  cases c with
  | false => exact .refl f
  | true => exact f.adds_push i

theorem checkAction_adds (hknown : ∀ owner, owner ∈ known ↔ accepted owner) (f : Findings)
    (s : ActionSource) :
    ∃ issues, f.Adds (checkAction registry known f s) 0 1 issues ∧
      ActionReport registry accepted s issues := by
  unfold checkAction
  dsimp only
  split
  · rename_i e he
    exact ⟨_, f.adds_action.trans (Findings.adds_pushError _ e _ _), .rejected he⟩
  · rename_i a ha
    obtain ⟨errors, hadds, herrors⟩ :=
      checkResponses_adds hknown s a.responses { f with actions := f.actions + 1 }
    refine ⟨errors ++ lackWarnings s a, ?_, .read ha herrors⟩
    have hwarnings := ((f.adds_action.trans hadds).trans (adds_pushIf a.description.isNone _
      (warning s a "W001" "has no @api-description" "Add @api-description <text>"))).trans
      (adds_pushIf a.responses.isEmpty _
        (warning s a "W002" "documents no responses" "Add @api-return or @api-throws"))
    simpa [lackWarnings] using hwarnings

/-! ## Runs -/

/-- If every step adds the report of its source, a loop adds the reports of all, in order. -/
theorem adds_foldl {σ α : Type} (findings : σ → Findings) {step : σ → α → σ} {r a : Nat}
    {Report : α → List Issue → Prop}
    (hstep : ∀ st x, ∃ issues, (findings st).Adds (findings (step st x)) r a issues ∧
      Report x issues) (xs : List α) (st : σ) :
    ∃ reports, (findings st).Adds (findings (xs.foldl step st)) (xs.length * r) (xs.length * a)
        reports.flatten ∧ List.Forall₂ Report xs reports := by
  induction xs generalizing st with
  | nil =>
    rw [List.length_nil, Nat.zero_mul, Nat.zero_mul]
    exact ⟨[], .refl _, .nil⟩
  | cons x xs ih =>
    obtain ⟨issues, hadds, hreport⟩ := hstep st x
    obtain ⟨reports, hrest, hreports⟩ := ih (step st x)
    refine ⟨issues :: reports, ?_, .cons hreport hreports⟩
    rw [List.length_cons, Nat.succ_mul, Nat.succ_mul, Nat.add_comm, Nat.add_comm (_ * a)]
    exact hadds.trans hrest

/-- Behind the first loop the accepted classes are known, besides those that were known before. -/
theorem mem_known {owner : String} (ss : List RepresentationSource)
    (run : Findings × List String) :
    owner ∈ (ss.foldl (checkRepresentation registry index) run).2 ↔ owner ∈ run.2 ∨
      ∃ s ∈ ss, ∃ r, Representation.read registry index.find? s = .ok r ∧ r.owner = owner := by
  induction ss generalizing run with
  | nil => simp
  | cons s ss ih =>
    rw [List.foldl_cons, ih, List.exists_mem_cons_iff]
    unfold checkRepresentation
    dsimp only
    split
    · rename_i r hr
      simp [hr, eq_comm, or_assoc]
    · rename_i e he
      simp [he]

/-- A run adds the reports of all sources to the empty findings, the representations first. -/
theorem lint_adds (registry : Registry) (sources : Sources) :
    ∃ ofRepresentations ofActions,
      Findings.Adds {} (lint registry sources) sources.representations.length
        sources.actions.length (ofRepresentations.flatten ++ ofActions.flatten) ∧
      List.Forall₂ (RepresentationReport registry (DocblockIndex.ofSources sources.representations))
        sources.representations ofRepresentations ∧
      List.Forall₂ (ActionReport registry (Accepted registry sources))
        sources.actions ofActions := by
  obtain ⟨ofRepresentations, hfirst, hrepresentations⟩ := adds_foldl Prod.fst
    (fun run s => checkRepresentation_adds run s) sources.representations ({}, [])
  have hknown (owner : String) : owner ∈ (sources.representations.foldl (checkRepresentation registry
      (.ofSources sources.representations)) ({}, [])).2 ↔ Accepted registry sources owner := by
    rw [mem_known]
    simp [Accepted]
  obtain ⟨ofActions, hsecond, hactions⟩ := adds_foldl id
    (fun f s => checkAction_adds hknown f s) sources.actions _
  refine ⟨ofRepresentations, ofActions, ?_, hrepresentations, hactions⟩
  have hrun := hfirst.trans hsecond
  rw [Nat.mul_one, Nat.mul_zero, Nat.mul_one, Nat.mul_zero, Nat.add_zero, Nat.zero_add] at hrun
  exact hrun

end VersionedApi.Lint
