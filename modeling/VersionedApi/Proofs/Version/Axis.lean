import Mathlib.Order.Bounds.Basic
import VersionedApi.Proofs.Version.Written

/-!
# Steps on the version axis

* `Number.ofTenths?_eq_some_iff`, `Number.ofTenths?_eq_none_iff` : the axis has a version for every
  number of tenths between its ends;
* `Number.instLinearOrder` : the order of the tenths;
* `Number.next?_eq_some_iff`, `Number.previous?_eq_some_iff` : neighbours are one tenth apart, and
  only the ends of the axis lack one (`Number.next?_eq_none_iff`, `Number.previous?_eq_none_iff`);
* `wholesFrom` : the whole versions that are not below a number of tenths, on the axis or beyond it;
* `Number.ceil?_eq_some_iff` : rounding up gives the least of them, except below the first whole
  version of the axis, `lowestWhole`, where there is no whole version to start from;
* `Number.RoundsUp`, `Number.steps_exact` : so rounding up is exact from `lowestWhole` on, and the
  steps to the neighbours are exact everywhere.
-/

namespace VersionedApi.Version

/-- The whole versions that are not below `t`, in tenths. -/
def wholesFrom (t : Int) : Set Int := {m | 10 ∣ m ∧ t ≤ m}

def lowestWhole : Int := -2147483640

theorem isLeast_wholesFrom_iff {t c : Int} :
    IsLeast (wholesFrom t) c ↔ 10 ∣ c ∧ t ≤ c ∧ c < t + 10 := by
  constructor
  · rintro ⟨⟨hwhole, hle⟩, hleast⟩
    refine ⟨hwhole, hle, ?_⟩
    by_contra hfar
    -- otherwise the whole version before `c` is not below `t` either
    have hbefore : c ≤ c - 10 := hleast ⟨by omega, by omega⟩
    omega
  · rintro ⟨hwhole, hle, hlt⟩
    refine ⟨⟨hwhole, hle⟩, ?_⟩
    rintro m ⟨hm, htm⟩
    omega

theorem isLeast_lowestWhole : IsLeast (wholesFrom axisMin) lowestWhole := by
  rw [isLeast_wholesFrom_iff]
  decide

theorem exists_isLeast_wholesFrom (t : Int) : ∃ c, IsLeast (wholesFrom t) c := by
  refine ⟨(t + 9) / 10 * 10, ?_⟩
  rw [isLeast_wholesFrom_iff]
  omega

/-- The whole version at or below `t` is on the axis exactly from the first whole version on. -/
theorem axisMin_le_floor_iff (t : Int) : axisMin ≤ t / 10 * 10 ↔ lowestWhole ≤ t := by
  unfold axisMin lowestWhole
  omega

namespace Number

variable {n m : Number} {t c : Int}

/-! ## Versions by their tenths -/

theorem ofTenths?_eq_some_iff : ofTenths? t = some n ↔ n.tenths = t := by
  constructor
  · intro h
    unfold ofTenths? at h
    split at h
    · cases h
      rfl
    · cases h
  · rintro rfl
    exact ofTenths?_tenths n

theorem ofTenths?_eq_none_iff : ofTenths? t = none ↔ t < axisMin ∨ axisMax < t := by
  unfold ofTenths?
  split <;> simp <;> omega

theorem eq_of_tenths (h : m.tenths = n.tenths) : m = n := by
  cases m
  cases n
  cases h
  rfl

/-! ## The order of the axis -/

instance : Min Number := minOfLe

/-- Versions are in the order of their tenths. -/
instance : LinearOrder Number :=
  LinearOrder.lift tenths (fun _ _ => eq_of_tenths)
    (fun m n => by
      show (if m ≤ n then n else m).tenths = max m.tenths n.tenths
      rw [max_def, apply_ite tenths]
      rfl)
    fun m n => by
      show (if m ≤ n then m else n).tenths = min m.tenths n.tenths
      rw [min_def, apply_ite tenths]
      rfl

/-! ## Neighbours -/

theorem next?_eq_some_iff : n.next? = some m ↔ m.tenths = n.tenths + 1 := ofTenths?_eq_some_iff

theorem previous?_eq_some_iff : n.previous? = some m ↔ m.tenths = n.tenths - 1 :=
  ofTenths?_eq_some_iff

theorem next?_eq_none_iff : n.next? = none ↔ n.tenths = axisMax := by
  have hmin := n.axisMin_le
  have hmax := n.le_axisMax
  rw [next?, ofTenths?_eq_none_iff]
  omega

theorem previous?_eq_none_iff : n.previous? = none ↔ n.tenths = axisMin := by
  have hmin := n.axisMin_le
  have hmax := n.le_axisMax
  rw [previous?, ofTenths?_eq_none_iff]
  omega

/-! ## Rounding up -/

theorem ceil?_eq_some_iff :
    n.ceil? = some m ↔ lowestWhole ≤ n.tenths ∧ IsLeast (wholesFrom n.tenths) m.tenths := by
  have hmax := n.le_axisMax
  rw [isLeast_wholesFrom_iff, ← axisMin_le_floor_iff]
  unfold ceil?
  cases hfloor : ofTenths? (n.tenths / 10 * 10) with
  | none =>
    have hoff := ofTenths?_eq_none_iff.1 hfloor
    simp only [Option.bind_none, reduceCtorEq, false_iff]
    omega
  | some floor =>
    have htenths := ofTenths?_eq_some_iff.1 hfloor
    have hon := floor.axisMin_le
    rw [Option.bind_some]
    split
    · rw [Option.some_inj]
      constructor
      · rintro rfl
        omega
      · intro h
        apply eq_of_tenths
        omega
    · rw [ofTenths?_eq_some_iff]
      omega

theorem ceil?_eq_none_iff : n.ceil? = none ↔
    n.tenths < lowestWhole ∨ ∀ m : Number, 10 ∣ m.tenths → m.tenths < n.tenths := by
  have hmin := n.axisMin_le
  constructor
  · intro hnone
    by_contra hboth
    simp only [not_or, not_lt, not_forall, exists_prop] at hboth
    obtain ⟨hlow, m, hwhole, hle⟩ := hboth
    obtain ⟨c, hc⟩ := exists_isLeast_wholesFrom n.tenths
    have hcm : c ≤ m.tenths := hc.2 ⟨hwhole, hle⟩
    have hnc : n.tenths ≤ c := hc.1.2
    -- the axis reaches from `n` to `m`, so it has the version in between
    let up : Number := ⟨c, hmin.trans hnc, hcm.trans m.le_axisMax⟩
    have hup : n.ceil? = some up := ceil?_eq_some_iff.2 ⟨hlow, hc⟩
    rw [hnone] at hup
    cases hup
  · intro hnot
    rw [Option.eq_none_iff_forall_ne_some]
    intro m hm
    obtain ⟨hlow, hleast⟩ := ceil?_eq_some_iff.1 hm
    rcases hnot with hbelow | habove
    · omega
    · have hlt := habove m hleast.1.1
      have hle : n.tenths ≤ m.tenths := hleast.1.2
      omega

/-- Rounding up gives the least whole version that is not below `n`, if the axis has it, and none
otherwise. -/
def RoundsUp (n : Number) : Prop :=
  ∃ c, IsLeast (wholesFrom n.tenths) c ∧
    n.ceil?.map (·.tenths) = if c ≤ axisMax then some c else none

theorem roundsUp_iff : n.RoundsUp ↔ lowestWhole ≤ n.tenths := by
  have hmin := n.axisMin_le
  constructor
  · rintro ⟨c, hc, hceil⟩
    by_contra hlow
    have hnone : n.ceil? = none := ceil?_eq_none_iff.2 (Or.inl (not_le.1 hlow))
    -- `lowestWhole` itself is on the axis and not below `n`
    have hle : c ≤ lowestWhole := hc.2 ⟨by decide, (not_le.1 hlow).le⟩
    have hmax : lowestWhole ≤ axisMax := by decide
    rw [hnone, if_pos (hle.trans hmax)] at hceil
    cases hceil
  · intro hlow
    obtain ⟨c, hc⟩ := exists_isLeast_wholesFrom n.tenths
    refine ⟨c, hc, ?_⟩
    have hnc : n.tenths ≤ c := hc.1.2
    split
    · rename_i hmax
      have hup : n.ceil? = some ⟨c, hmin.trans hnc, hmax⟩ := ceil?_eq_some_iff.2 ⟨hlow, hc⟩
      rw [hup]
      rfl
    · rename_i hmax
      have hnone : n.ceil? = none := by
        refine ceil?_eq_none_iff.2 (Or.inr fun m hwhole => ?_)
        by_contra hle
        have hcm : c ≤ m.tenths := hc.2 ⟨hwhole, not_lt.1 hle⟩
        exact hmax (hcm.trans m.le_axisMax)
      rw [hnone]
      rfl

/-- Rounding up gives the least whole version at or above, or none if that is beyond the axis,
exactly from the first whole version of the axis on; below that it gives none. The neighbours of a
version are one tenth away, only the ends of the axis lack one, and going on and going back are
inverse to each other. -/
theorem steps_exact (n : Number) :
    (n.RoundsUp ↔ lowestWhole ≤ n.tenths) ∧
      (n.ceil? = none ↔
        n.tenths < lowestWhole ∨ ∀ m : Number, 10 ∣ m.tenths → m.tenths < n.tenths) ∧
      (n.next? = none ↔ n.tenths = axisMax) ∧ (n.previous? = none ↔ n.tenths = axisMin) ∧
      ∀ m : Number, (n.next? = some m ↔ m.tenths = n.tenths + 1) ∧
        (n.next? = some m ↔ m.previous? = some n) := by
  refine ⟨roundsUp_iff, ceil?_eq_none_iff, next?_eq_none_iff, previous?_eq_none_iff, fun m =>
    ⟨next?_eq_some_iff, ?_⟩⟩
  rw [next?_eq_some_iff, previous?_eq_some_iff]
  omega

def lowest : Number := ⟨axisMin, le_refl axisMin, by decide⟩

/-- The first version, `-214748364.8`, is not rounded up, although the least whole version that is
not below it, `-214748364.0`, is on the axis. -/
theorem ceil?_lowest :
    lowest.ceil? = none ∧ IsLeast (wholesFrom lowest.tenths) lowestWhole ∧ lowestWhole ≤ axisMax ∧
      ¬ lowest.RoundsUp := by
  refine ⟨by decide, isLeast_lowestWhole, by decide, ?_⟩
  rw [roundsUp_iff]
  decide

end Number

end VersionedApi.Version
