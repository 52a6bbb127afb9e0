import Mathlib.Order.Bounds.Defs
import VersionedApi.Proofs.Action.WellFormed
import VersionedApi.Proofs.Occurrence
import VersionedApi.Proofs.Version.Literal
import VersionedApi.Proofs.Version.Timeline

/-!
# The versions that an action documents

* `Version.Walk` : the way from a version to the next one and so on, up to a last one or to the end
  of the axis; `Version.walk_stretch` : it ends, and `Action.stretch` lists what it passes;
* `isGreatest_latestEnd` : where open ends are cut off;
* `isGreatest_earliest` : where the versions of an accepted action begin;
* `breakpoints_eq`, `mem_breakpoints`, `pairwise_breakpoints` : the versions at which a constraint
  holds, in order;
* `breakpoints_documented` : the versions that an accepted action documents, and that it exists in
  all of them.
-/

namespace VersionedApi

namespace Version

/-! ## From one version to the next -/

/-- The versions passed on the way from a version, if there is one, to the next and the next: the
way ends where the axis does, and before a version that is past `last`. -/
inductive Walk (last : Number) : Option Number → List Number → Prop
  | offAxis : Walk last none []
  | past {p : Number} (h : last < p) : Walk last (some p) []
  | step {p : Number} {ps : List Number} (h : p ≤ last) (rest : Walk last p.next? ps) :
      Walk last (some p) (p :: ps)

theorem stretch_of_lt {first last : Number} (h : last < first) : Action.stretch first last = [] := by
  have hcount : (last.tenths + 1 - first.tenths).toNat = 0 := by
    rw [Number.lt_iff_tenths] at h
    omega
  rw [Action.stretch, hcount, List.range_zero, List.filterMap_nil]

theorem stretch_of_le {first last : Number} (h : first ≤ last) :
    Action.stretch first last =
      first :: (first.next?.map fun next => Action.stretch next last).getD [] := by
  obtain ⟨n, hcount⟩ : ∃ n, (last.tenths + 1 - first.tenths).toNat = n + 1 := by
    rw [Number.le_iff_tenths] at h
    exact ⟨(last.tenths - first.tenths).toNat, by omega⟩
  have hhead : Number.ofTenths? (first.tenths + (0 : Nat)) = some first := by
    rw [Number.ofTenths?_eq_some_iff]
    omega
  rw [Action.stretch, hcount, List.range_succ_eq_map, List.filterMap_cons, hhead]
  dsimp only
  rw [List.filterMap_map]
  congr 1
  cases hnext : first.next? with
  | some next =>
    have htenths := Number.next?_eq_some_iff.1 hnext
    have hrest : (last.tenths + 1 - next.tenths).toNat = n := by omega
    rw [Option.map_some, Option.getD_some, Action.stretch, hrest]
    congr 1
    funext i
    simp only [Function.comp_apply, Nat.succ_eq_add_one, Nat.cast_add, Nat.cast_one]
    congr 1
    omega
  | none =>
    -- the axis ends here, and `last` is on it
    have hend : n = 0 := by
      have htop := Number.next?_eq_none_iff.1 hnext
      have hlast := last.le_axisMax
      omega
    rw [hend, List.range_zero, List.filterMap_nil, Option.map_none, Option.getD_none]

/-- The way to `last` ends, and the stretch is what it passes. -/
theorem walk_stretch (first last : Number) :
    Walk last (some first) (Action.stretch first last) := by
  induction hn : (last.tenths + 1 - first.tenths).toNat generalizing first with
  | zero =>
    have hpast : last < first := by
      rw [Number.lt_iff_tenths]
      omega
    rw [stretch_of_lt hpast]
    exact Walk.past hpast
  | succ n ih =>
    have hle : first ≤ last := by
      rw [Number.le_iff_tenths]
      omega
    rw [stretch_of_le hle]
    apply Walk.step hle
    cases hnext : first.next? with
    | none => exact Walk.offAxis
    | some next =>
      have htenths := Number.next?_eq_some_iff.1 hnext
      exact ih next (by omega)

theorem mem_stretch {first last p : Number} :
    p ∈ Action.stretch first last ↔ first ≤ p ∧ p ≤ last := by
  unfold Action.stretch
  simp only [List.mem_filterMap, List.mem_range, Number.ofTenths?_eq_some_iff,
    Number.le_iff_tenths]
  constructor
  · rintro ⟨i, hi, hp⟩
    omega
  · rintro ⟨hfirst, hlast⟩
    exact ⟨(p.tenths - first.tenths).toNat, by omega, by omega⟩

end Version

namespace Action

open Version

/-! ## The ends of the stretch -/

theorem isGreatest_foldl_max (lower : Number) (ns : List Number) :
    IsGreatest {v | v = lower ∨ v ∈ ns} (ns.foldl max lower) := by
  induction ns generalizing lower with
  | nil => simp [IsGreatest, upperBounds, Number.le_iff_tenths]
  | cons n ns ih =>
    obtain ⟨hmem, hbound⟩ := ih (max lower n)
    rw [List.foldl_cons]
    have htop : max lower n ≤ ns.foldl max (max lower n) := hbound (Or.inl rfl)
    rw [max_le_iff] at htop
    constructor
    · rcases hmem with heq | hmem
      · rcases max_choice lower n with hmax | hmax
        · exact Or.inl (heq.trans hmax)
        · exact Or.inr (List.mem_cons.2 (Or.inl (heq.trans hmax)))
      · exact Or.inr (List.mem_cons_of_mem n hmem)
    · rintro v (rfl | hv)
      · exact htop.1
      · rcases List.mem_cons.1 hv with rfl | hv
        · exact htop.2
        · exact hbound (Or.inr hv)

/-- The constraint is that of a directive or of a content type of the action. -/
def Constrains (a : Action) (r : Range) : Prop :=
  (∃ d ∈ a.directives, d.traits.version = some r) ∨ ∃ c ∈ a.contentTypes, c.version = some r

theorem mem_ranges {a : Action} {r : Range} : r ∈ a.ranges ↔ a.Constrains r := by
  simp only [ranges, Constrains, List.mem_append, List.mem_filterMap]

theorem isGreatest_latestEnd (a : Action) (lower : Number) :
    IsGreatest {v | v = lower ∨ ∃ r, a.Constrains r ∧ (r.first = some v ∨ r.last = some v)}
      (latestEnd lower a.ranges) := by
  have h := isGreatest_foldl_max lower (a.ranges.flatMap fun r => r.first.toList ++ r.last.toList)
  simp only [List.mem_flatMap, List.mem_append, Option.mem_toList, mem_ranges] at h
  exact h

theorem minVersion?_eq_some_iff {a : Action} (h : firstVersions a.directives ≤ 1) {v : Number} :
    a.minVersion? = some v ↔ ∃ d ∈ a.directives, d.content = .minVersion v := by
  refine ⟨exists_of_minVersion?, ?_⟩
  unfold minVersion?
  generalize a.directives = ds at h ⊢
  rintro ⟨d, hd, hcontent⟩
  have hkind : d.kind = .minVersion := by
    rw [Directive.kind, hcontent]
    rfl
  induction ds with
  | nil => cases hd
  | cons e ds ih =>
    rw [firstVersions_cons] at h
    rw [List.findSome?_cons]
    by_cases he : e.kind = .minVersion
    · -- no other directive has this kind, so this is the one
      rcases List.mem_cons.1 hd with rfl | hd
      · rw [hcontent]
      · have hcount : 0 < firstVersions ds :=
          List.countP_pos_iff.2 ⟨d, hd, by rw [hkind]; rfl⟩
        rw [he] at h
        simp at h
        omega
    · have hrest : d ∈ ds := by
        rcases List.mem_cons.1 hd with rfl | hd
        · exact absurd hkind he
        · exact hd
      have hother : ∀ w, e.content ≠ .minVersion w := by
        intro w hw
        rw [Directive.kind, hw] at he
        exact he rfl
      split
      · rename_i w hw
        split at hw
        · exact absurd (by assumption) (hother _)
        · cases hw
      · exact ih (by omega) hrest

/-- The version at which the documentation of an action begins. -/
def earliest (a : Action) (since : Number) : Number := (a.minVersion?.map (max · since)).getD since

theorem isGreatest_earliest {a : Action} (h : firstVersions a.directives ≤ 1) (since : Number) :
    IsGreatest {v | v = since ∨ ∃ d ∈ a.directives, d.content = .minVersion v}
      (a.earliest since) := by
  unfold earliest
  simp only [← minVersion?_eq_some_iff h]
  cases a.minVersion? with
  | none => simp [IsGreatest, upperBounds, Number.le_iff_tenths]
  | some first =>
    rw [Option.map_some, Option.getD_some]
    constructor
    · rcases max_choice first since with hmax | hmax
      · exact Or.inr (by rw [hmax])
      · exact Or.inl hmax
    · rintro v (rfl | hv)
      · exact le_max_right first v
      · cases hv
        exact le_max_left first since

/-! ## The versions between -/

/-- Of a constraint of the action, the versions between both ends are passed on the way from its
first version to its last one, an open end being cut off. -/
theorem mem_clipped_iff {a : Action} {r : Range} (hr : a.Constrains r) (lower p : Number) :
    p ∈ stretch (max (r.first.getD lower) lower) (r.last.getD (latestEnd lower a.ranges)) ↔
      lower ≤ p ∧ p ≤ latestEnd lower a.ranges ∧ r.contains p = true := by
  have hbound := (isGreatest_latestEnd a lower).2
  rw [mem_stretch, max_le_iff, Interval.contains_iff]
  constructor
  · rintro ⟨⟨hfirst, hlower⟩, hlast⟩
    refine ⟨hlower, ?_, ?_, ?_⟩
    · cases hend : r.last with
      | none => rwa [hend] at hlast
      | some e =>
        have he : e ≤ latestEnd lower a.ranges := hbound (Or.inr ⟨r, hr, Or.inr hend⟩)
        rw [hend, Option.getD_some] at hlast
        exact Int.le_trans hlast he
    · intro s hs
      rwa [hs] at hfirst
    · intro e he
      rwa [he] at hlast
  · rintro ⟨hlower, htop, hfirst, hlast⟩
    refine ⟨⟨?_, hlower⟩, ?_⟩
    · cases hs : r.first with
      | none => exact hlower
      | some s => exact hfirst s hs
    · cases he : r.last with
      | none => exact htop
      | some e => exact hlast e he

/-- The points of all constraints, clipped to what is documented at all. -/
def points (a : Action) (lower : Number) : List Number :=
  lower :: a.ranges.flatMap fun r =>
    stretch (max (r.first.getD lower) lower) (r.last.getD (latestEnd lower a.ranges))

theorem breakpoints_eq (a : Action) (since : Number) : a.breakpoints since =
    ((a.points (a.earliest since)).mergeSort fun x y => decide (x ≤ y)).eraseReps := by
  unfold breakpoints points earliest
  rfl

theorem mem_breakpoints {a : Action} {since p : Number} : p ∈ a.breakpoints since ↔
    p = a.earliest since ∨ a.earliest since ≤ p ∧
      p ≤ latestEnd (a.earliest since) a.ranges ∧ ∃ r, a.Constrains r ∧ r.contains p = true := by
  rw [breakpoints_eq, mem_eraseReps, List.mem_mergeSort, points, List.mem_cons, List.mem_flatMap]
  apply or_congr_right
  constructor
  · rintro ⟨r, hr, hp⟩
    obtain ⟨hlower, htop, hcontains⟩ := (mem_clipped_iff (mem_ranges.1 hr) _ p).1 hp
    exact ⟨hlower, htop, r, mem_ranges.1 hr, hcontains⟩
  · rintro ⟨hlower, htop, r, hr, hcontains⟩
    exact ⟨r, mem_ranges.2 hr, (mem_clipped_iff hr _ p).2 ⟨hlower, htop, hcontains⟩⟩

theorem pairwise_sorted (ps : List Number) :
    (ps.mergeSort fun x y => decide (x ≤ y)).Pairwise (· ≤ ·) := by
  refine (List.pairwise_mergeSort ?_ ?_ ps).imp ?_
  · intro x y z hxy hyz
    simp only [decide_eq_true_eq] at hxy hyz ⊢
    exact Int.le_trans hxy hyz
  · intro x y
    simp only [Bool.or_eq_true, decide_eq_true_eq]
    exact Int.le_total x.tenths y.tenths
  · intro x y hxy
    exact decide_eq_true_eq.mp hxy

theorem pairwise_breakpoints (a : Action) (since : Number) :
    (a.breakpoints since).Pairwise (· < ·) := by
  rw [breakpoints_eq]
  apply pairwise_eraseReps
  · intro x y z hxy hyz
    exact Int.lt_trans hxy hyz
  · refine (pairwise_sorted _).imp fun {x y} hxy => ?_
    rw [Number.le_iff_tenths] at hxy
    by_cases heq : x.tenths = y.tenths
    · exact Or.inl (Number.eq_of_tenths heq)
    · exact Or.inr (by rw [Number.lt_iff_tenths]; omega)

theorem at?_isSome_of_le {a : Action} {since p : Number} (h : a.earliest since ≤ p) :
    (a.at? p).isSome = true := by
  unfold at?
  rw [if_neg]
  · rfl
  · intro hany
    obtain ⟨first, hfirst, hlt⟩ := (Option.any_eq_true _ _).1 hany
    rw [earliest, hfirst, Option.map_some, Option.getD_some, max_le_iff] at h
    have hle := h.1
    simp only [decide_eq_true_eq, Number.lt_iff_tenths] at hlt
    rw [Number.le_iff_tenths] at hle
    omega

/-- The points are the version `lower` and all versions from there to `top` at which a constraint of
the action holds. -/
structure DocumentsBetween (a : Action) (lower top : Number) (points : List Number) : Prop where
  /-- The way along each constraint ends, and passes the versions at which it holds. -/
  walk : ∀ r, a.Constrains r → ∃ ps : List Number,
    Walk (r.last.getD top) (some (max (r.first.getD lower) lower)) ps ∧
      ∀ p, p ∈ ps ↔ lower ≤ p ∧ p ≤ top ∧ r.contains p = true
  mem : ∀ p, p ∈ points ↔
    p = lower ∨ lower ≤ p ∧ p ≤ top ∧ ∃ r, a.Constrains r ∧ r.contains p = true
  ascending : points.Pairwise (· < ·)
  exist : ∀ p ∈ points, (a.at? p).isSome = true

/-- The breakpoints of an accepted action lie between the later of `since` and its first version, if
it names one, and the latest version that one of its constraints names. -/
theorem breakpoints_documented {registry : Registry} {source : ActionSource} {a : Action}
    (h : Action.read registry source = .ok a) (since : Number) : ∃ lower top : Number,
      IsGreatest {v | v = since ∨ ∃ d ∈ a.directives, d.content = .minVersion v} lower ∧
      IsGreatest {v | v = lower ∨ ∃ r, a.Constrains r ∧ (r.first = some v ∨ r.last = some v)} top ∧
      a.DocumentsBetween lower top (a.breakpoints since) := by
  refine ⟨a.earliest since, latestEnd (a.earliest since) a.ranges,
    isGreatest_earliest (wellFormed_of_read h).firstVersion since, isGreatest_latestEnd a _, ?_⟩
  constructor
  · intro r hr
    exact ⟨_, walk_stretch _ _, mem_clipped_iff hr _⟩
  · intro p
    exact mem_breakpoints
  · exact pairwise_breakpoints a since
  · intro p hp
    rcases mem_breakpoints.1 hp with rfl | ⟨hlower, -⟩
    · exact at?_isSome_of_le (Int.le_refl _)
    · exact at?_isSome_of_le hlower

/-! ## An action up to the end of the axis

It begins with version 1.5, has one media type up to 1.6 and a parameter in the last version that
there is. -/

namespace Journal

def source : ActionSource := .ofMethod "Log" "get" <|
  "/**\n * @api-label Log\n * @api-uri:public \x7bLog\x7d /log\n * @api-minVersion 1.5\n" ++
  " * @api-version <=1.6\n * @api-contentType text/csv\n" ++
  " * @api-version >214748364.6\n * @api-param:public at (integer) - At\n */"

def begun : Number := ⟨15, by decide, by decide⟩

def behind : Number := ⟨16, by decide, by decide⟩

def final : Number := ⟨2147483647, by decide, by decide⟩

def log : Action :=
  { owner := "Log", method := "GET", label := "Log", description := none
    contentTypes := [⟨"text/csv", some ⟨⟨none, some behind⟩, "<=1.6"⟩⟩]
    directives :=
      [⟨.uri "Log" "/log", { visibility := some .published, context := source.context }⟩,
        ⟨.minVersion begun, { context := source.context }⟩,
        ⟨.param { name := "at", typeName := "integer", description := some "At" },
          { version := some ⟨⟨some final, none⟩, ">214748364.6"⟩
            visibility := some .published, context := source.context }⟩] }

theorem read : Action.read {} source = .ok log := toOption_eq_some.1 (by decide +kernel)

theorem breakpoints_log : log.breakpoints .one = [begun, behind, final] := by
  have hlower : log.earliest .one = begun := by decide +kernel
  -- the sort does not compute, but what it can give is known
  have hperm : (log.points begun).Perm [begun, begun, behind, final] := by decide +kernel
  have hsorted : [begun, begun, behind, final].Pairwise (· ≤ ·) := by decide
  have heq := ((List.mergeSort_perm _ _).trans hperm).eq_of_pairwise
    (fun x y _ _ hxy hyx => Number.eq_of_tenths (Int.le_antisymm hxy hyx))
    (pairwise_sorted _) hsorted
  rw [breakpoints_eq, hlower, heq]
  decide

end Journal

/-- The constraint up to 1.6 is clipped below, the other one by the end of the axis. -/
theorem breakpoints_documented_journal : Action.read {} Journal.source = .ok Journal.log ∧
    Journal.log.breakpoints .one = [Journal.begun, Journal.behind, Journal.final] ∧
      ∃ lower top : Number,
        IsGreatest {v | v = .one ∨ ∃ d ∈ Journal.log.directives, d.content = .minVersion v} lower ∧
        IsGreatest {v | v = lower ∨ ∃ r, Journal.log.Constrains r ∧
          (r.first = some v ∨ r.last = some v)} top ∧
        Journal.log.DocumentsBetween lower top (Journal.log.breakpoints .one) :=
  ⟨Journal.read, Journal.breakpoints_log, breakpoints_documented Journal.read .one⟩

end Action

end VersionedApi
