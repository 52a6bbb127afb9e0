import VersionedApi.Version.Range

/-!
# Where an interval begins and is over, seen from neighbouring versions

On an ascending timeline an interval is one unbroken run of versions (`Interval.contains_between`).
So the two scans of a timeline agree with the comparison of neighbours:

* `introduced?_eq_some_iff` : an interval begins at `w` exactly if it contains `w` and not the
  supported version before it;
* `removed?_eq_some_iff` : it is over at `w` exactly if it contains the version before and not `w`.

Neighbours `u`, `w` are written `[u, w] <:+: timeline`. `Begins` and `Ends` say the same of a
constraint that may be absent; what holds without a constraint neither begins nor ends.
-/

namespace VersionedApi.Version

namespace Number

theorem le_iff_tenths (a b : Number) : a ≤ b ↔ a.tenths ≤ b.tenths := Iff.rfl

theorem lt_iff_tenths (a b : Number) : a < b ↔ a.tenths < b.tenths := Iff.rfl

end Number

namespace Interval

theorem contains_iff (i : Interval) (n : Number) :
    i.contains n = true ↔ (∀ a, i.first = some a → a ≤ n) ∧ ∀ b, i.last = some b → n ≤ b := by
  simp [contains, Option.all_eq_true]

theorem contains_between {i : Interval} {u v w : Number} (hu : i.contains u = true)
    (hw : i.contains w = true) (huv : u ≤ v) (hvw : v ≤ w) : i.contains v = true := by
  rw [contains_iff] at hu hw ⊢
  constructor
  · intro a ha
    have := hu.1 a ha
    simp only [Number.le_iff_tenths] at *
    omega
  · intro b hb
    have := hw.2 b hb
    simp only [Number.le_iff_tenths] at *
    omega

theorem contains_onwards (m n : Number) :
    (⟨some m, none⟩ : Interval).contains n = true ↔ m ≤ n := by
  simp [contains]

end Interval

section Neighbours
variable {timeline : List Number} {u w : Number}

theorem le_of_mem_before {s t : List Number} {x : Number}
    (h : (s ++ u :: w :: t).Pairwise (· < ·)) (hx : x ∈ s ++ [u]) : x ≤ u ∧ x < w := by
  have hcross := (List.pairwise_append.1 h).2.2
  have htail := (List.pairwise_cons.1 (List.pairwise_append.1 h).2.1).1
  rw [List.mem_append, List.mem_singleton] at hx
  rcases hx with hx | rfl
  · have hxu := hcross x hx u (by simp)
    have hxw := hcross x hx w (by simp)
    simp only [Number.le_iff_tenths, Number.lt_iff_tenths] at *
    omega
  · have hxw := htail w (by simp)
    simp only [Number.le_iff_tenths, Number.lt_iff_tenths] at *
    omega

theorem le_of_mem_behind {s t : List Number} {x : Number}
    (h : (s ++ u :: w :: t).Pairwise (· < ·)) (hx : x ∈ w :: t) : u ≤ w ∧ w ≤ x := by
  have hu := (List.pairwise_cons.1 (List.pairwise_append.1 h).2.1).1
  have hw := (List.pairwise_cons.1 (List.pairwise_cons.1 (List.pairwise_append.1 h).2.1).2).1
  have huw := hu w (by simp)
  rw [List.mem_cons] at hx
  rcases hx with rfl | hx
  · simp only [Number.le_iff_tenths, Number.lt_iff_tenths] at *
    omega
  · have hwx := hw x hx
    simp only [Number.le_iff_tenths, Number.lt_iff_tenths] at *
    omega

theorem head?_ne_of_neighbours (h : timeline.Pairwise (· < ·)) (hn : [u, w] <:+: timeline) :
    timeline.head? ≠ some w := by
  obtain ⟨s, t, rfl⟩ := hn
  rw [List.append_assoc] at h ⊢
  intro hhead
  have hmem : w ∈ s ++ [u] := by
    cases s with
    | nil => simpa using hhead.symm
    | cons x s =>
      have hx : x = w := by simpa using hhead
      simp [hx]
  have := (le_of_mem_before h hmem).2
  simp only [Number.lt_iff_tenths] at this
  omega

/-- If an interval has a version and not the one before it, it has none before that either. -/
theorem find?_of_neighbours {i : Interval} (h : timeline.Pairwise (· < ·))
    (hn : [u, w] <:+: timeline) (hw : i.contains w = true) (hu : i.contains u = false) :
    timeline.find? i.contains = some w := by
  obtain ⟨s, t, rfl⟩ := hn
  rw [List.append_assoc] at h ⊢
  have hbefore : (s ++ [u]).find? i.contains = none := by
    rw [List.find?_eq_none]
    intro x hx hcontains
    -- `u` lies between `x` and `w`, so the interval would contain it
    obtain ⟨hxu, -⟩ := le_of_mem_before h hx
    have huw := (le_of_mem_behind h (List.mem_cons_self (a := w) (l := t))).1
    have := Interval.contains_between hcontains hw hxu huw
    rw [hu] at this
    cases this
  have hsplit : s ++ ([u, w] ++ t) = (s ++ [u]) ++ w :: t := by simp
  rw [hsplit, List.find?_append, hbefore, Option.none_or, List.find?_cons_of_pos hw]

/-- An interval begins at a version exactly if it contains it and not the one before. -/
theorem introduced?_eq_some_iff {i : Interval} (h : timeline.Pairwise (· < ·)) :
    introduced? i timeline = some w ↔
      ∃ u, [u, w] <:+: timeline ∧ i.contains u = false ∧ i.contains w = true := by
  unfold introduced?
  rw [Option.filter_eq_some_iff]
  constructor
  · rintro ⟨hfind, hhead⟩
    obtain ⟨hw, s, t, rfl, hs⟩ := List.find?_eq_some_iff_append.1 hfind
    rcases List.eq_nil_or_concat s with rfl | ⟨s, u, rfl⟩
    · simp at hhead
    · have hu := hs u (by simp)
      exact ⟨u, ⟨s, t, by simp⟩, by simpa using hu, hw⟩
  · rintro ⟨u, hn, hu, hw⟩
    refine ⟨find?_of_neighbours h hn hw hu, ?_⟩
    simpa using head?_ne_of_neighbours h hn

theorem removed?_append {i : Interval} (s : List Number) {t : List Number}
    (h : t.any i.contains = true) : removed? i (s ++ t) = removed? i t := by
  induction s with
  | nil => rfl
  | cons x s ih =>
    have hany : (s ++ t).any i.contains = true := by simp [List.any_append, h]
    rw [List.cons_append, removed?, if_pos hany, ih]

/-- An interval is over at a version exactly if it contains the one before and not that one. -/
theorem removed?_eq_some_iff {i : Interval} (h : timeline.Pairwise (· < ·)) :
    removed? i timeline = some w ↔
      ∃ u, [u, w] <:+: timeline ∧ i.contains u = true ∧ i.contains w = false := by
  constructor
  · -- the scan only finds such neighbours, in whatever order the versions stand
    intro hr
    clear h
    induction timeline with
    | nil => cases hr
    | cons n later ih =>
      rw [removed?] at hr
      split at hr
      · obtain ⟨u, hn, hu, hw⟩ := ih hr
        exact ⟨u, hn.trans (List.suffix_cons n later).isInfix, hu, hw⟩
      · rename_i hany
        split at hr
        · rename_i hu
          cases later with
          | nil => cases hr
          | cons x t =>
            obtain rfl : x = w := by simpa using hr
            simp only [List.any_cons, Bool.or_eq_true, not_or, Bool.not_eq_true] at hany
            exact ⟨n, ⟨[], t, rfl⟩, hu, hany.1⟩
        · cases hr
  · rintro ⟨u, ⟨s, t, rfl⟩, hu, hw⟩
    rw [List.append_assoc] at h ⊢
    have hbehind : ∀ x ∈ w :: t, i.contains x = false := by
      intro x hx
      obtain ⟨huw, hwx⟩ := le_of_mem_behind h hx
      rw [Bool.eq_false_iff]
      intro hcontains
      -- `w` lies between `u` and `x`
      have := Interval.contains_between hu hcontains huw hwx
      rw [hw] at this
      cases this
    have hany : (w :: t).any i.contains = false := by
      rw [List.any_eq_false]
      intro x hx
      simp [hbehind x hx]
    rw [removed?_append s (by simp [hu])]
    change removed? i (u :: w :: t) = some w
    rw [removed?, if_neg (by simp [hany]), if_pos hu, List.head?_cons]

end Neighbours

/-! ## Constraints that may be absent -/

/-- There is a constraint, and it begins at the version. -/
def Begins (timeline : List Number) (version : Option Range) (w : Number) : Prop :=
  ∃ range, version = some range ∧ introduced? range.toInterval timeline = some w

/-- There is a constraint, and it is over at the version. -/
def Ends (timeline : List Number) (version : Option Range) (w : Number) : Prop :=
  ∃ range, version = some range ∧ removed? range.toInterval timeline = some w

section Absent
variable {timeline : List Number} {version : Option Range} {w : Number}

theorem begins_iff (h : timeline.Pairwise (· < ·)) :
    Begins timeline version w ↔ ∃ u, [u, w] <:+: timeline ∧
      version.all (·.contains u) = false ∧ version.all (·.contains w) = true := by
  cases version with
  | none => simp [Begins]
  | some range => simp [Begins, introduced?_eq_some_iff h]

theorem ends_iff (h : timeline.Pairwise (· < ·)) :
    Ends timeline version w ↔ ∃ u, [u, w] <:+: timeline ∧
      version.all (·.contains u) = true ∧ version.all (·.contains w) = false := by
  cases version with
  | none => simp [Ends]
  | some range => simp [Ends, removed?_eq_some_iff h]

theorem Begins.head?_ne (h : timeline.Pairwise (· < ·)) (hw : Begins timeline version w) :
    timeline.head? ≠ some w ∧ version ≠ none := by
  obtain ⟨u, hn, -⟩ := (begins_iff h).1 hw
  obtain ⟨range, rfl, -⟩ := hw
  exact ⟨head?_ne_of_neighbours h hn, Option.some_ne_none range⟩

theorem Ends.head?_ne (h : timeline.Pairwise (· < ·)) (hw : Ends timeline version w) :
    timeline.head? ≠ some w ∧ version ≠ none := by
  obtain ⟨u, hn, -⟩ := (ends_iff h).1 hw
  obtain ⟨range, rfl, -⟩ := hw
  exact ⟨head?_ne_of_neighbours h hn, Option.some_ne_none range⟩

end Absent

end VersionedApi.Version
