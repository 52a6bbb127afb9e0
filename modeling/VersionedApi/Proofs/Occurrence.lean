import Mathlib.Data.List.Induction
import Mathlib.Data.List.Nodup

/-!
# First occurrences

`List.eraseDups` keeps the first of equal elements. One element more at the end counts only if it is
new (`eraseDups_concat`), so no two that are kept are equal (`nodup_eraseDups`). `List.eraseDupsBy`
does so for elements that are equal in some respect (`map_eraseDupsBy`).

`List.eraseReps` keeps the first of equal neighbours (`eraseReps_cons_cons`). Nothing is lost by it
(`mem_eraseReps`), and a list in order is then in strict order (`pairwise_eraseReps`).
-/

namespace VersionedApi

theorem eraseDupsBy_loop_concat {α : Type} (r : α → α → Bool) (xs kept : List α) (x : α) :
    List.eraseDupsBy.loop r (xs ++ [x]) kept =
      if (List.eraseDupsBy.loop r xs kept).any (r x) then List.eraseDupsBy.loop r xs kept
      else List.eraseDupsBy.loop r xs kept ++ [x] := by
  induction xs generalizing kept with
  | nil =>
    rw [List.nil_append, List.eraseDupsBy.loop, List.eraseDupsBy.loop, List.any_reverse]
    cases kept.any (r x) with
    | true => simp [List.eraseDupsBy.loop]
    | false => simp [List.eraseDupsBy.loop]
  | cons y xs ih =>
    rw [List.cons_append, List.eraseDupsBy.loop, List.eraseDupsBy.loop]
    split
    · exact ih kept
    · exact ih (y :: kept)

/-- One element more counts only if it repeats none that is kept. -/
theorem eraseDupsBy_concat {α : Type} (r : α → α → Bool) (xs : List α) (x : α) :
    (xs ++ [x]).eraseDupsBy r =
      if (xs.eraseDupsBy r).any (r x) then xs.eraseDupsBy r else xs.eraseDupsBy r ++ [x] :=
  eraseDupsBy_loop_concat r xs [] x

variable {α : Type} [DecidableEq α]

theorem eraseDups_concat (xs : List α) (x : α) :
    (xs ++ [x]).eraseDups = if x ∈ xs then xs.eraseDups else xs.eraseDups ++ [x] := by
  rw [List.eraseDups_append]
  by_cases hx : x ∈ xs
  · rw [if_pos hx, List.removeAll, List.filter_cons_of_neg (by simpa using hx)]
    simp
  · rw [if_neg hx, List.removeAll, List.filter_cons_of_pos (by simpa using hx)]
    rfl

theorem nodup_eraseDups (xs : List α) : xs.eraseDups.Nodup := by
  induction xs using List.reverseRecOn with
  | nil => exact List.nodup_nil
  | append_singleton xs x ih =>
    rw [eraseDups_concat]
    by_cases hx : x ∈ xs
    · rwa [if_pos hx]
    · rw [if_neg hx, ← List.concat_eq_append, List.nodup_concat, List.mem_eraseDups]
      exact ⟨hx, ih⟩

theorem eraseDups_eq_self {xs : List α} (h : xs.Nodup) : xs.eraseDups = xs := by
  induction xs using List.reverseRecOn with
  | nil => rfl
  | append_singleton xs x ih =>
    rw [← List.concat_eq_append, List.nodup_concat] at h
    rw [eraseDups_concat, if_neg h.1, ih h.2]

/-! ## Elements that are equal in some respect -/

section By
variable {β : Type} {r : β → β → Bool} {xs : List β}

theorem mem_of_mem_eraseDupsBy {x : β} (h : x ∈ xs.eraseDupsBy r) : x ∈ xs := by
  induction xs using List.reverseRecOn with
  | nil => exact h
  | append_singleton xs y ih =>
    rw [eraseDupsBy_concat] at h
    split at h
    · exact List.mem_append_left _ (ih h)
    · exact List.mem_append.2 ((List.mem_append.1 h).imp_left ih)

theorem map_eraseDupsBy {f : β → α} (hr : ∀ x y, r x y = true ↔ f x = f y) (xs : List β) :
    (xs.eraseDupsBy r).map f = (xs.map f).eraseDups := by
  induction xs using List.reverseRecOn with
  | nil => rfl
  | append_singleton xs x ih =>
    have hany : (xs.eraseDupsBy r).any (r x) = true ↔ f x ∈ xs.map f := by
      rw [← List.mem_eraseDups, ← ih, List.any_eq_true, List.mem_map]
      simp only [hr, eq_comm]
    rw [eraseDupsBy_concat, List.map_append, List.map_singleton, eraseDups_concat, ← ih]
    simp only [hany]
    split
    · rfl
    · rw [List.map_append, List.map_singleton]

/-- If the filter does not tell equal elements apart, it can be applied before or after. -/
theorem filter_eraseDupsBy {p : β → Bool}
    (h : ∀ x ∈ xs, ∀ y ∈ xs, r x y = true → p x = p y) :
    (xs.eraseDupsBy r).filter p = (xs.filter p).eraseDupsBy r := by
  induction xs using List.reverseRecOn with
  | nil => rfl
  | append_singleton xs x ih =>
    have hxs := ih fun y hy z hz => h y (List.mem_append_left _ hy) z (List.mem_append_left _ hz)
    rw [eraseDupsBy_concat, List.filter_append]
    by_cases hx : p x = true
    · have hany : ((xs.eraseDupsBy r).filter p).any (r x) = (xs.eraseDupsBy r).any (r x) := by
        rw [Bool.eq_iff_iff, List.any_eq_true, List.any_eq_true]
        constructor
        · rintro ⟨y, hy, hxy⟩
          exact ⟨y, (List.mem_filter.1 hy).1, hxy⟩
        · rintro ⟨y, hy, hxy⟩
          have hmem := List.mem_append_left [x] (mem_of_mem_eraseDupsBy hy)
          have hpy : p x = p y := h x (by simp) y hmem hxy
          exact ⟨y, List.mem_filter.2 ⟨hy, hpy ▸ hx⟩, hxy⟩
      rw [List.filter_cons_of_pos hx, List.filter_nil, eraseDupsBy_concat, ← hxs, hany]
      split
      · rfl
      · rw [List.filter_append, List.filter_cons_of_pos hx, List.filter_nil]
    · rw [List.filter_cons_of_neg hx, List.filter_nil, List.append_nil, ← hxs]
      split
      · rfl
      · rw [List.filter_append, List.filter_cons_of_neg hx, List.filter_nil, List.append_nil]

end By

/-! ## Neighbours -/

theorem eraseRepsBy_loop_append (a : α) (xs acc : List α) :
    List.eraseRepsBy.loop (· == ·) a xs acc =
      acc.reverse ++ List.eraseRepsBy.loop (· == ·) a xs [] := by
  induction xs generalizing a acc with
  | nil => simp [List.eraseRepsBy.loop]
  | cons b xs ih =>
    rw [List.eraseRepsBy.loop, List.eraseRepsBy.loop]
    split
    · exact ih a acc
    · rw [ih b (a :: acc), ih b [a]]
      simp

theorem eraseReps_cons_cons (a b : α) (xs : List α) :
    (a :: b :: xs).eraseReps =
      if a = b then (b :: xs).eraseReps else a :: (b :: xs).eraseReps := by
  show List.eraseRepsBy.loop (· == ·) a (b :: xs) [] = _
  rw [List.eraseRepsBy.loop]
  by_cases hab : a = b
  · rw [if_pos hab, hab, beq_self_eq_true]
    rfl
  · rw [if_neg hab, beq_false_of_ne hab]
    exact eraseRepsBy_loop_append b xs [a]

theorem mem_eraseReps {xs : List α} {x : α} : x ∈ xs.eraseReps ↔ x ∈ xs := by
  induction xs with
  | nil => rfl
  | cons a xs ih =>
    cases xs with
    | nil => rfl
    | cons b xs =>
      rw [eraseReps_cons_cons]
      split
      · rename_i hab
        rw [ih, hab]
        simp
      · rw [List.mem_cons, ih, List.mem_cons (l := b :: xs)]

/-- Where each element equals those behind it or precedes them, it precedes those that are left. -/
theorem pairwise_eraseReps {R : α → α → Prop} (htrans : ∀ a b c, R a b → R b c → R a c)
    {xs : List α} (h : xs.Pairwise fun a b => a = b ∨ R a b) : xs.eraseReps.Pairwise R := by
  induction xs with
  | nil => exact List.Pairwise.nil
  | cons a xs ih =>
    obtain ⟨ha, hxs⟩ := List.pairwise_cons.1 h
    cases xs with
    | nil => exact List.pairwise_singleton R a
    | cons b xs =>
      rw [eraseReps_cons_cons]
      split
      · exact ih hxs
      · rename_i hab
        have hR : R a b := (ha b List.mem_cons_self).resolve_left hab
        refine List.pairwise_cons.2 ⟨fun x hx => ?_, ih hxs⟩
        rcases List.mem_cons.1 (mem_eraseReps.1 hx) with rfl | hx
        · exact hR
        · rcases (List.pairwise_cons.1 hxs).1 x hx with rfl | hbx
          · exact hR
          · exact htrans a b x hR hbx

end VersionedApi
