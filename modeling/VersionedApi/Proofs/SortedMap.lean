import Mathlib.Order.Lattice
import VersionedApi.Json.Value

/-!
# Sorted association lists

* `Says`, `says_then` : what a comparison says, and what two say in turn;
* `Agrees`, `Compares` : a comparison of keys agrees with an order;
* `SortedMap.pairwise_alter` : then an update keeps the keys in order;
* `SortedMap.exists_alter_eq` : it makes the entry of its key from what stood there, in its place, and
  leaves the others as they are; `SortedMap.lookup_alter` : the same by looking them up;
* `SortedMap.under`, `SortedMap.Proper` : what is listed under a key of a map of lists, and maps that
  are in order and list nothing empty; `SortedMap.under_modify`, `SortedMap.keeps_modify` : what an
  update of such a map does;
* `SortedMap.pairwise_ofList`, `SortedMap.mem_of_mem_ofList`, `SortedMap.ofList_eq_self` : the map
  of a list is in order and holds nothing else, and a list in order is its own map.
-/

namespace VersionedApi

/-! ## Comparisons and what they say -/

/-- Of three statements the one that a comparison stands for holds. -/
def Says (o : Ordering) (lt eq gt : Prop) : Prop :=
  match o with
  | .lt => lt
  | .eq => eq
  | .gt => gt

theorem Says.imp {o : Ordering} {lt eq gt lt' eq' gt' : Prop} (h : Says o lt eq gt)
    (hlt : lt → lt') (heq : eq → eq') (hgt : gt → gt') : Says o lt' eq' gt' := by
  cases o with
  | lt => exact hlt h
  | eq => exact heq h
  | gt => exact hgt h

/-- A second comparison decides where the first leaves it open. -/
theorem says_then {α : Type} [LinearOrder α] (a b : α) {o : Ordering} {lt eq gt : Prop}
    (h : Says o lt eq gt) :
    Says ((compare a b).then o) (a < b ∨ a = b ∧ lt) (a = b ∧ eq) (b < a ∨ b = a ∧ gt) := by
  rcases lt_trichotomy a b with hlt | rfl | hgt
  · rw [compare_lt_iff_lt.2 hlt]
    exact Or.inl hlt
  · rw [compare_eq_iff_eq.2 rfl, Ordering.eq_then]
    exact h.imp (fun h => Or.inr ⟨rfl, h⟩) (fun h => ⟨rfl, h⟩) fun h => Or.inr ⟨rfl, h⟩
  · rw [compare_gt_iff_gt.2 hgt]
    exact Or.inl hgt

/-- The comparison of two keys is what an order says of them. -/
def Agrees {κ : Type} (before : κ → κ → Prop) (cmp : κ → κ → Ordering) (k l : κ) : Prop :=
  Says (cmp k l) (before k l) (k = l) (before l k)

theorem agrees_compare_lt {α : Type} [LinearOrder α] (a b : α) : Agrees (· < ·) compare a b := by
  unfold Agrees
  rcases lt_trichotomy a b with hlt | rfl | hgt
  · rw [compare_lt_iff_lt.2 hlt]
    exact hlt
  · rw [compare_eq_iff_eq.2 rfl]
    exact rfl
  · rw [compare_gt_iff_gt.2 hgt]
    exact hgt

/-- Keys are compared by a strict order. -/
structure Compares {κ : Type} (before : κ → κ → Prop) (cmp : κ → κ → Ordering) : Prop where
  agrees : ∀ k l, Agrees before cmp k l
  irrefl : ∀ k, ¬ before k k
  trans : ∀ {k l m}, before k l → before l m → before k m

theorem compares_lt {α : Type} [LinearOrder α] :
    Compares (· < ·) (compare : α → α → Ordering) :=
  ⟨agrees_compare_lt, lt_irrefl, lt_trans⟩

theorem Compares.trichotomy {κ : Type} {before : κ → κ → Prop} {cmp : κ → κ → Ordering}
    (h : Compares before cmp) (k l : κ) :
    cmp k l = .lt ∧ before k l ∨ cmp k l = .eq ∧ k = l ∨ cmp k l = .gt ∧ before l k := by
  have hk := h.agrees k l
  unfold Agrees at hk
  cases hc : cmp k l with
  | lt => exact Or.inl ⟨rfl, by rwa [hc] at hk⟩
  | eq => exact Or.inr (Or.inl ⟨rfl, by rwa [hc] at hk⟩)
  | gt => exact Or.inr (Or.inr ⟨rfl, by rwa [hc] at hk⟩)

/-! ## Updates -/

namespace SortedMap

variable {κ α : Type} {cmp : κ → κ → Ordering} {before : κ → κ → Prop} {k : κ}
  {f : Option α → α} {entries : List (κ × α)}

theorem fst_of_mem_alter {e : κ × α} (h : e ∈ alter cmp k f entries) :
    e.1 = k ∨ ∃ d ∈ entries, d.1 = e.1 := by
  induction entries with
  | nil =>
    rw [alter, List.mem_singleton] at h
    exact Or.inl (by rw [h])
  | cons d rest ih =>
    obtain ⟨k', v⟩ := d
    rw [alter] at h
    split at h
    · rcases List.mem_cons.1 h with rfl | h
      · exact Or.inl rfl
      · exact Or.inr ⟨e, h, rfl⟩
    · rcases List.mem_cons.1 h with rfl | h
      · exact Or.inr ⟨(k', v), List.mem_cons_self, rfl⟩
      · exact Or.inr ⟨e, List.mem_cons_of_mem _ h, rfl⟩
    · rcases List.mem_cons.1 h with rfl | h
      · exact Or.inr ⟨(k', v), List.mem_cons_self, rfl⟩
      · rcases ih h with h | ⟨d, hd, h⟩
        · exact Or.inl h
        · exact Or.inr ⟨d, List.mem_cons_of_mem _ hd, h⟩

theorem lookup_eq_none [BEq κ] [LawfulBEq κ] (h : ∀ e ∈ entries, e.1 ≠ k) :
    entries.lookup k = none :=
  List.lookup_eq_none_iff.2 fun e he => bne_iff_ne.2 (h e he).symm

section Sorted
variable (hcmp : Compares before cmp) (hsorted : entries.Pairwise fun d e => before d.1 e.1)
include hcmp hsorted

theorem pairwise_alter : (alter cmp k f entries).Pairwise fun d e => before d.1 e.1 := by
  induction entries with
  | nil => exact List.pairwise_singleton _ _
  | cons d rest ih =>
    obtain ⟨k', v⟩ := d
    obtain ⟨hfirst, hrest⟩ := List.pairwise_cons.1 hsorted
    rw [alter]
    rcases hcmp.trichotomy k k' with ⟨hc, hk⟩ | ⟨hc, rfl⟩ | ⟨hc, hk⟩
    · rw [hc]
      refine List.pairwise_cons.2 ⟨?_, hsorted⟩
      intro e he
      rcases List.mem_cons.1 he with rfl | he
      · exact hk
      · exact hcmp.trans hk (hfirst e he)
    · rw [hc]
      exact List.pairwise_cons.2 ⟨hfirst, hrest⟩
    · rw [hc]
      refine List.pairwise_cons.2 ⟨?_, ih hrest⟩
      intro e he
      rcases fst_of_mem_alter he with h | ⟨d, hd, h⟩
      · rw [h]
        exact hk
      · rw [← h]
        exact hfirst d hd

/-- An update changes the entry of its key in its place, or puts one between the others. -/
theorem exists_alter_eq (f : Option α → α) : ∃ (front : List (κ × α)) (old : Option α)
    (back : List (κ × α)), entries = front ++ (old.toList.map (k, ·) ++ back) ∧
      (∀ e ∈ front ++ back, e.1 ≠ k) ∧ alter cmp k f entries = front ++ (k, f old) :: back := by
  induction entries with
  | nil => exact ⟨[], none, [], rfl, by simp, rfl⟩
  | cons d rest ih =>
    obtain ⟨k', v⟩ := d
    obtain ⟨hfirst, hrest⟩ := List.pairwise_cons.1 hsorted
    rw [alter]
    rcases hcmp.trichotomy k k' with ⟨hc, hk⟩ | ⟨hc, rfl⟩ | ⟨hc, hk⟩
    · rw [hc]
      refine ⟨[], none, (k', v) :: rest, rfl, ?_, rfl⟩
      rintro e he rfl
      rcases List.mem_cons.1 he with rfl | he
      · exact hcmp.irrefl _ hk
      · exact hcmp.irrefl _ (hcmp.trans hk (hfirst e he))
    · rw [hc]
      refine ⟨[], some v, rest, rfl, ?_, rfl⟩
      rintro e he rfl
      exact hcmp.irrefl _ (hfirst e he)
    · rw [hc]
      obtain ⟨front, old, back, heq, hne, halter⟩ := ih hrest
      refine ⟨(k', v) :: front, old, back, by rw [heq]; rfl, ?_, by dsimp only; rw [halter]; rfl⟩
      intro e he
      rcases List.mem_cons.1 he with rfl | he
      · rintro rfl
        exact hcmp.irrefl _ hk
      · exact hne e he

section Lookup
variable [BEq κ] [LawfulBEq κ]

theorem exists_alter_lookup (f : Option α → α) : ∃ front back : List (κ × α),
    entries = front ++ ((entries.lookup k).toList.map (k, ·) ++ back) ∧
      (∀ e ∈ front ++ back, e.1 ≠ k) ∧
        alter cmp k f entries = front ++ (k, f (entries.lookup k)) :: back := by
  obtain ⟨front, old, back, heq, hne, halter⟩ := exists_alter_eq hcmp hsorted f
  have hold : entries.lookup k = old := by
    have hfront := lookup_eq_none fun e he => hne e (List.mem_append_left back he)
    have hback := lookup_eq_none fun e he => hne e (List.mem_append_right front he)
    rw [heq, List.lookup_append, hfront, Option.none_or, List.lookup_append, hback, Option.or_none]
    cases old <;> simp
  exact ⟨front, back, by rw [hold]; exact heq, hne, by rw [hold]; exact halter⟩

/-- Under the key of an update stands what it makes of what stood there, and under other keys what
stood there. -/
theorem lookup_alter [DecidableEq κ] (l : κ) : (alter cmp k f entries).lookup l =
    if l = k then some (f (entries.lookup k)) else entries.lookup l := by
  obtain ⟨front, back, heq, hne, halter⟩ := exists_alter_lookup hcmp hsorted f
  rw [halter, List.lookup_append, List.lookup_cons]
  by_cases hl : l = k
  · have hfront := lookup_eq_none fun e he => hne e (List.mem_append_left back he)
    rw [if_pos hl, hl, hfront, Option.none_or, beq_self_eq_true]
  · have hkey : (l == k) = false := by simpa using hl
    rw [if_neg hl, hkey]
    conv_rhs => rw [heq]
    rw [List.lookup_append, List.lookup_append]
    cases entries.lookup k <;> simp [List.lookup_cons, hkey]

theorem lookup_of_mem {e : κ × α} (he : e ∈ entries) : entries.lookup e.1 = some e.2 := by
  obtain ⟨front, back, rfl⟩ := List.append_of_mem he
  have hfront : front.lookup e.1 = none := lookup_eq_none fun d hd heq => by
    have hbefore : before d.1 e.1 := (List.pairwise_append.1 hsorted).2.2 d hd e List.mem_cons_self
    exact hcmp.irrefl e.1 (heq ▸ hbefore)
  rw [List.lookup_append, hfront, Option.none_or, List.lookup_cons_self]

end Lookup

end Sorted

/-! ## The map of a list -/

section OfList
variable (hcmp : Compares before cmp)
include hcmp

theorem pairwise_ofList (es : List (κ × α)) :
    (ofList cmp es).Pairwise fun d e => before d.1 e.1 := by
  have hrun (m : List (κ × α)) (hm : m.Pairwise fun d e => before d.1 e.1) :
      (es.foldl (fun m e => insert cmp e.1 e.2 m) m).Pairwise fun d e => before d.1 e.1 := by
    induction es generalizing m with
    | nil => exact hm
    | cons e es ih => exact ih _ (pairwise_alter hcmp hm)
  exact hrun [] List.Pairwise.nil

theorem mem_of_mem_ofList {es : List (κ × α)} {e : κ × α} (h : e ∈ ofList cmp es) : e ∈ es := by
  have hrun (es m : List (κ × α)) (hm : m.Pairwise fun d e => before d.1 e.1)
      (he : e ∈ es.foldl (fun m e => insert cmp e.1 e.2 m) m) : e ∈ m ∨ e ∈ es := by
    induction es generalizing m with
    | nil => exact Or.inl he
    | cons d es ih =>
      rcases ih _ (pairwise_alter hcmp hm) he with he | he
      · obtain ⟨front, old, back, heq, -, halter⟩ := exists_alter_eq hcmp hm fun _ => d.2
        change e ∈ alter cmp d.1 (fun _ => d.2) m at he
        rw [halter, List.mem_append, List.mem_cons] at he
        rcases he with he | rfl | he
        · exact Or.inl (by rw [heq]; simp [he])
        · exact Or.inr List.mem_cons_self
        · exact Or.inl (by rw [heq]; simp [he])
      · exact Or.inr (List.mem_cons_of_mem d he)
  exact (hrun es [] List.Pairwise.nil h).resolve_left List.not_mem_nil

theorem alter_last (h : ∀ e ∈ entries, before e.1 k) :
    alter cmp k f entries = entries ++ [(k, f none)] := by
  induction entries with
  | nil => rfl
  | cons d rest ih =>
    obtain ⟨k', v⟩ := d
    have hlast : before k' k := h (k', v) List.mem_cons_self
    rw [alter]
    rcases hcmp.trichotomy k k' with ⟨hc, hk⟩ | ⟨hc, rfl⟩ | ⟨hc, hk⟩
    · exact absurd (hcmp.trans hk hlast) (hcmp.irrefl k)
    · exact absurd hlast (hcmp.irrefl k)
    · rw [hc]
      dsimp only
      rw [ih fun e he => h e (List.mem_cons_of_mem _ he), List.cons_append]

theorem ofList_eq_self {es : List (κ × α)} (h : es.Pairwise fun d e => before d.1 e.1) :
    ofList cmp es = es := by
  have hrun (es m : List (κ × α)) (hm : (m ++ es).Pairwise fun d e => before d.1 e.1) :
      es.foldl (fun m e => insert cmp e.1 e.2 m) m = m ++ es := by
    induction es generalizing m with
    | nil => rw [List.foldl_nil, List.append_nil]
    | cons e es ih =>
      have hlast : ∀ d ∈ m, before d.1 e.1 := fun d hd =>
        (List.pairwise_append.1 hm).2.2 d hd e List.mem_cons_self
      have happend : m ++ e :: es = m ++ [e] ++ es := by simp
      rw [happend] at hm ⊢
      rw [List.foldl_cons, insert, alter_last hcmp hlast]
      exact ih (m ++ [e]) hm
  exact hrun es [] h

end OfList

/-! ## Lists under keys -/

section Lists
variable {β γ : Type} [DecidableEq κ] {inner : List β → Prop} {m : List (κ × List β)}

def under (m : List (κ × List β)) (k : κ) : List β := (m.lookup k).getD []

/-- The keys are in order, and something is listed under each of them that satisfies `inner`. -/
structure Proper (before : κ → κ → Prop) (inner : List β → Prop) (m : List (κ × List β)) :
    Prop where
  sorted : m.Pairwise fun d e => before d.1 e.1
  full : ∀ e ∈ m, e.2 ≠ []
  inner : ∀ e ∈ m, inner e.2

/-- What is made of a list satisfies `inner` as the list does, and is not empty. -/
def Keeps (inner : List β → Prop) (f : List β → List β) : Prop :=
  ∀ l, inner l → f l ≠ [] ∧ inner (f l)

omit [DecidableEq κ] in
theorem flatMap_cons (e : κ × List β) (m : List (κ × List β)) (f : κ → List β → List γ) :
    flatMap (e :: m) f = f e.1 e.2 ++ flatMap m f := rfl

omit [DecidableEq κ] in
theorem Proper.nil : Proper before inner [] := ⟨List.Pairwise.nil, by simp, by simp⟩

/-- Looking behind the change of a list sees what `g` makes of it if `P` holds, and what was there
if not. -/
def Sees (inner : List β → Prop) (f : List β → List β) (find : List β → γ) (P : Prop)
    [Decidable P] (g : γ → γ) : Prop :=
  ∀ l, inner l → find (f l) = if P then g (find l) else find l

theorem mem_of_under {k : κ} (h : under m k ≠ []) : (k, under m k) ∈ m := by
  unfold under at *
  cases hk : m.lookup k with
  | none =>
    rw [hk] at h
    exact absurd rfl h
  | some l =>
    obtain ⟨front, back, rfl, -⟩ := List.lookup_eq_some_iff.1 hk
    simp

theorem Proper.inner_under (h : Proper before inner m) (hnil : inner []) (k : κ) :
    inner (under m k) := by
  by_cases hk : under m k = []
  · rwa [hk]
  · exact h.inner _ (mem_of_under hk)

variable (hcmp : Compares before cmp)
include hcmp

theorem Proper.under_eq (h : Proper before inner m) {e : κ × List β} (he : e ∈ m) :
    under m e.1 = e.2 := by
  rw [under, lookup_of_mem hcmp h.sorted he, Option.getD_some]

/-- An entry is what is listed under its key, and that is something. -/
theorem Proper.mem_iff (h : Proper before inner m) {k : κ} {l : List β} :
    (k, l) ∈ m ↔ under m k = l ∧ l ≠ [] := by
  constructor
  · intro hmem
    exact ⟨h.under_eq hcmp hmem, h.full _ hmem⟩
  · rintro ⟨rfl, hne⟩
    exact mem_of_under hne

theorem under_modify (hsorted : m.Pairwise fun d e => before d.1 e.1) (k : κ)
    (f : List β → List β) (l : κ) :
    under (modify cmp k f m) l = if l = k then f (under m k) else under m l := by
  rw [under, modify, lookup_alter hcmp hsorted]
  split
  · rfl
  · rfl

theorem keeps_modify (hnil : inner []) {f : List β → List β} (hf : Keeps inner f) (k : κ) :
    Keeps (Proper before inner) (modify cmp k f) := by
  intro m hm
  obtain ⟨front, back, heq, -, halter⟩ :=
    exists_alter_lookup hcmp hm.sorted fun old => f (old.getD [])
  have hmem : ∀ e ∈ modify cmp k f m, e = (k, f (under m k)) ∨ e ∈ m := by
    intro e he
    rw [modify, halter, List.mem_append, List.mem_cons] at he
    rcases he with he | rfl | he
    · exact Or.inr (by rw [heq]; simp [he])
    · exact Or.inl rfl
    · exact Or.inr (by rw [heq]; simp [he])
  have hnew := hf _ (hm.inner_under hnil k)
  refine ⟨by rw [modify, halter]; simp, pairwise_alter hcmp hm.sorted, ?_, ?_⟩
  · intro e he
    rcases hmem e he with rfl | he
    · exact hnew.1
    · exact hm.full e he
  · intro e he
    rcases hmem e he with rfl | he
    · exact hnew.2
    · exact hm.inner e he

theorem sees_modify (hnil : inner []) {f : List β → List β} {find : List β → γ} {P : Prop}
    [Decidable P] {g : γ → γ} (hf : Sees inner f find P g) (k l : κ) :
    Sees (Proper before inner) (modify cmp k f) (fun m => find (under m l)) (l = k ∧ P) g := by
  intro m hm
  dsimp only
  rw [under_modify hcmp hm.sorted]
  by_cases hl : l = k
  · subst hl
    rw [if_pos rfl, hf _ (hm.inner_under hnil l)]
    exact if_congr (and_iff_right rfl).symm rfl rfl
  · rw [if_neg hl, if_neg fun h => hl h.1]

theorem Proper.mem_flatMap (h : Proper before inner m) {f : κ → List β → List γ}
    (hf : ∀ k, f k [] = []) {x : γ} : x ∈ flatMap m f ↔ ∃ k, x ∈ f k (under m k) := by
  rw [SortedMap.flatMap, List.mem_flatMap]
  constructor
  · rintro ⟨e, he, hx⟩
    exact ⟨e.1, by rwa [h.under_eq hcmp he]⟩
  · rintro ⟨k, hx⟩
    refine ⟨(k, under m k), mem_of_under fun hnil => ?_, hx⟩
    rw [hnil, hf] at hx
    cases hx

end Lists

end SortedMap

end VersionedApi
