import Mathlib.Data.List.Sort
import Mathlib.Data.String.Basic
import VersionedApi.Json.Value
import VersionedApi.Proofs.SortedMap

/-!
# Canonical values

* `Value.induction` : induction over values, with the items and entries as members of their lists;
* `Value.Alike` : two values are the same up to the order of the entries in their objects;
* `SortedMap.ofList_eq_iff` : the maps of two lists are equal exactly if the lists hold the same
  under every key, the last of equal keys counting;
* `Value.canonical_eq_iff` : so values have the same canonical form exactly if they are alike.
-/

namespace VersionedApi.SortedMap

variable {κ α : Type} {cmp : κ → κ → Ordering} {before : κ → κ → Prop}

section Lookup
variable [DecidableEq κ] (hcmp : Compares before cmp)
include hcmp

theorem lookup_ofList (es : List (κ × α)) (k : κ) :
    (ofList cmp es).lookup k = es.reverse.lookup k := by
  have hrun (m : List (κ × α)) (hm : m.Pairwise fun d e => before d.1 e.1) :
      (es.foldl (fun m e => insert cmp e.1 e.2 m) m).lookup k =
        (es.reverse.lookup k).or (m.lookup k) := by
    induction es generalizing m with
    | nil => rw [List.foldl_nil, List.reverse_nil, List.lookup_nil, Option.none_or]
    | cons e es ih =>
      have hlast : (insert cmp e.1 e.2 m).lookup k = ([e].lookup k).or (m.lookup k) := by
        rw [insert, lookup_alter hcmp hm]
        by_cases hk : k = e.1
        · rw [if_pos hk, List.lookup_cons, hk, beq_self_eq_true, Option.some_or]
        · rw [if_neg hk, List.lookup_cons, beq_eq_false_iff_ne.2 hk, List.lookup_nil, Option.none_or]
      have hsorted : (insert cmp e.1 e.2 m).Pairwise fun d e => before d.1 e.1 :=
        pairwise_alter hcmp hm
      rw [List.foldl_cons, ih _ hsorted, hlast, List.reverse_cons, List.lookup_append,
        Option.or_assoc]
  have h := hrun [] List.Pairwise.nil
  rwa [List.lookup_nil, Option.or_none] at h

theorem ofList_eq_iff {es fs : List (κ × α)} :
    ofList cmp es = ofList cmp fs ↔ ∀ k, es.reverse.lookup k = fs.reverse.lookup k := by
  constructor
  · intro h k
    rw [← lookup_ofList hcmp, h, lookup_ofList hcmp]
  · intro h
    have hmem (es : List (κ × α)) (e : κ × α) :
        e ∈ ofList cmp es ↔ es.reverse.lookup e.1 = some e.2 := by
      rw [← lookup_ofList hcmp]
      constructor
      · exact lookup_of_mem hcmp (pairwise_ofList hcmp es)
      · intro hlookup
        obtain ⟨front, back, heq, -⟩ := List.lookup_eq_some_iff.1 hlookup
        rw [heq]
        exact List.mem_append_right front List.mem_cons_self
    have : Std.Irrefl fun d e : κ × α => before d.1 e.1 := ⟨fun e => hcmp.irrefl e.1⟩
    have : Std.Antisymm fun d e : κ × α => before d.1 e.1 :=
      ⟨fun d _ hde hed => absurd (hcmp.trans hde hed) (hcmp.irrefl d.1)⟩
    apply List.Pairwise.eq_of_mem_iff (pairwise_ofList hcmp es) (pairwise_ofList hcmp fs)
    intro e
    rw [hmem, hmem, h]

end Lookup

end VersionedApi.SortedMap

namespace VersionedApi.Json.Value

/-! ## Induction over values -/

/-- What holds of a value if it holds of all items or entries in it holds of every value. -/
theorem induction {motive : Value → Prop} (null : motive .null) (bool : ∀ b, motive (.bool b))
    (number : ∀ n, motive (.number n)) (string : ∀ s, motive (.string s))
    (array : ∀ items, (∀ v ∈ items, motive v) → motive (.array items))
    (object : ∀ entries, (∀ e ∈ entries, motive e.2) → motive (.object entries)) (v : Value) :
    motive v :=
  @Value.rec motive (fun items => ∀ v ∈ items, motive v) (fun entries => ∀ e ∈ entries, motive e.2)
    (fun e => motive e.2) null bool number string array object
    (fun _ h => absurd h List.not_mem_nil)
    (fun _ _ hv hvs => List.forall_mem_cons.2 ⟨hv, hvs⟩)
    (fun _ h => absurd h List.not_mem_nil)
    (fun _ _ he hes => List.forall_mem_cons.2 ⟨he, hes⟩) (fun _ _ hv => hv) v

/-! ## Values up to the order of their entries -/

/-- The same value, whatever the order of the entries in objects: arrays have alike items in the
same places, and objects have the same keys and alike values under each of them. -/
inductive Alike : Value → Value → Prop
  | null : Alike null null
  | bool (b : Bool) : Alike (bool b) (bool b)
  | number (n : Number) : Alike (number n) (number n)
  | string (s : String) : Alike (string s) (string s)
  | array {vs ws : List Value} (hlength : vs.length = ws.length)
      (hitems : ∀ (i : Nat) v w, vs[i]? = some v → ws[i]? = some w → Alike v w) :
      Alike (array vs) (array ws)
  | object {es fs : List (String × Value)}
      (hkeys : ∀ key, ((object es).get? key).isSome = ((object fs).get? key).isSome)
      (hentries : ∀ key v w, (object es).get? key = some v → (object fs).get? key = some w →
        Alike v w) :
      Alike (object es) (object fs)

theorem canonicalItems_eq (items : List Value) : canonicalItems items = items.map canonical := by
  induction items with
  | nil => rfl
  | cons v vs ih => rw [canonicalItems, ih, List.map_cons]

theorem canonicalEntries_eq (entries : List (String × Value)) :
    canonicalEntries entries = entries.map fun e => (e.1, e.2.canonical) := by
  induction entries with
  | nil => rfl
  | cons e es ih => rw [canonicalEntries, ih, List.map_cons]

theorem get?_canonicalEntries (entries : List (String × Value)) (key : String) :
    (canonicalEntries entries).reverse.lookup key = ((object entries).get? key).map canonical := by
  rw [canonicalEntries_eq, ← List.map_reverse, get?]
  induction entries.reverse with
  | nil => rfl
  | cons e es ih =>
    rw [List.map_cons, List.lookup_cons, List.lookup_cons, ih]
    cases key == e.1 <;> rfl

theorem canonical_object_eq_iff {es fs : List (String × Value)} :
    (object es).canonical = (object fs).canonical ↔
      ∀ key, ((object es).get? key).map canonical = ((object fs).get? key).map canonical := by
  rw [canonical, canonical, object.injEq,
    SortedMap.ofList_eq_iff compares_lt]
  simp only [get?_canonicalEntries]

theorem mem_of_get? {entries : List (String × Value)} {key : String} {v : Value}
    (h : (object entries).get? key = some v) : (key, v) ∈ entries := by
  obtain ⟨front, back, heq, -⟩ := List.lookup_eq_some_iff.1 h
  rw [← List.mem_reverse, heq]
  exact List.mem_append_right front List.mem_cons_self

theorem Alike.canonical_eq {v w : Value} (h : Alike v w) : v.canonical = w.canonical := by
  induction h with
  | null | bool | number | string => rfl
  | @array vs ws hlength _ ih =>
    rw [canonical, canonical, canonicalItems_eq, canonicalItems_eq, array.injEq]
    apply List.ext_getElem?
    intro i
    rw [List.getElem?_map, List.getElem?_map]
    by_cases hi : i < vs.length
    · have hi' : i < ws.length := hlength ▸ hi
      rw [List.getElem?_eq_getElem hi, List.getElem?_eq_getElem hi', Option.map_some,
        Option.map_some, ih i _ _ (List.getElem?_eq_getElem hi) (List.getElem?_eq_getElem hi')]
    · rw [List.getElem?_eq_none (by omega), List.getElem?_eq_none (by omega)]
  | @object es fs hkeys _ ih =>
    rw [canonical_object_eq_iff]
    intro key
    have hkey := hkeys key
    cases hv : (Value.object es).get? key with
    | none =>
      rw [hv, Option.isSome_none, eq_comm, Option.isSome_eq_false_iff, Option.isNone_iff_eq_none]
        at hkey
      rw [hkey]
    | some v =>
      rw [hv, Option.isSome_some, eq_comm, Option.isSome_iff_exists] at hkey
      obtain ⟨w, hw⟩ := hkey
      rw [hw, Option.map_some, Option.map_some, ih key v w hv hw]

theorem alike_of_canonical_eq {v w : Value} (h : v.canonical = w.canonical) : Alike v w := by
  induction v using Value.induction generalizing w with
  | null => cases w <;> cases h; exact .null
  | bool b => cases w <;> cases h; exact .bool b
  | number n => cases w <;> cases h; exact .number n
  | string s => cases w <;> cases h; exact .string s
  | array vs ih =>
    cases w with
    | array ws =>
      rw [canonical, canonical, canonicalItems_eq, canonicalItems_eq, array.injEq] at h
      refine .array (by simpa using congrArg List.length h) fun i v w hv hw => ?_
      have hi := congrArg (·[i]?) h
      simp only [List.getElem?_map, hv, hw, Option.map_some, Option.some_inj] at hi
      exact ih v (List.mem_of_getElem? hv) hi
    | _ => cases h
  | object es ih =>
    cases w with
    | object fs =>
      rw [canonical_object_eq_iff] at h
      refine .object (fun key => ?_) fun key v w hv hw => ?_
      · simpa using congrArg Option.isSome (h key)
      · have hkey := h key
        rw [hv, hw, Option.map_some, Option.map_some, Option.some_inj] at hkey
        exact ih (key, v) (mem_of_get? hv) hkey
    | _ => cases h

/-- Values have the same canonical form exactly if they are alike. -/
theorem canonical_eq_iff {v w : Value} : v.canonical = w.canonical ↔ v.Alike w :=
  ⟨alike_of_canonical_eq, Alike.canonical_eq⟩

end VersionedApi.Json.Value
