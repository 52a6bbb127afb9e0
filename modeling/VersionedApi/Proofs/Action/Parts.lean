import Mathlib.Data.List.Forall2
import VersionedApi.Action.Read
import VersionedApi.Proofs.Directive.Read
import VersionedApi.Proofs.Docblock.Sections

/-!
# The parts of an action

An action is read in parts, and each part is read exactly if its tags are and its own condition
holds:

* `Action.Reads` : a tag is read as a directive of a kind; for the kinds without decorators the
  directive is known from its text (`Action.labelled`, `Action.described`, `Action.typed`);
* `Action.readLabel_eq_ok_iff`, `Action.readDescription_eq_ok_iff`,
  `Action.readContentTypes_eq_ok_iff`, `Action.readKept_eq_ok_iff` : the parts;
* `Action.exposed?_eq_none_iff` : nothing is public on an action whose paths are all private.

The tags come in the order of the docblock (`Docblock.pairwise_line_tagsOf`), of which only the
version tags are left out (`map_fst_versionScopes`).
-/

namespace VersionedApi

open VersionedApi.Text VersionedApi.Docblock

theorem map_fst_versionScopesFrom {context : Context} {current : Option Version.Range}
    {tags : List Tag} {entries : List (Tag × Option Version.Range)}
    (h : versionScopesFrom context current tags = .ok entries) :
    entries.map (·.1) = tags.filter (·.name != "version") := by
  induction tags generalizing current entries with
  | nil =>
    cases h
    rfl
  | cons tag tags ih =>
    unfold versionScopesFrom at h
    split at h
    · rename_i hname
      obtain ⟨range, -, h⟩ := bind_eq_ok.1 h
      rw [List.filter_cons_of_neg (by simp [bne, hname]), ih h]
    · rename_i hname
      obtain ⟨rest, hrest, h⟩ := bind_eq_ok.1 h
      cases h
      rw [List.filter_cons_of_pos (by simpa [bne] using hname), List.map_cons, ih hrest]

/-- Only the version tags are left out, and the order stays. -/
theorem map_fst_versionScopes {context : Context} {tags : List Tag}
    {entries : List (Tag × Option Version.Range)} (h : versionScopes context tags = .ok entries) :
    entries.map (·.1) = tags.filter (·.name != "version") := map_fst_versionScopesFrom h

namespace Action

variable {registry : Registry} {place : Context} {tags : List ScopedTag}

/-- A tag is read as this directive of the kind. -/
def Reads (registry : Registry) (place : Context) (kind : Kind) (t : ScopedTag) (d : Directive) :
    Prop := Directive.read registry place kind t.1 t.2 = .ok d

/-! ## Label, description and media types -/

def labelled (place : Context) (text : String) : Directive := ⟨.label text, { context := place }⟩

def described (place : Context) (text : String) : Directive :=
  ⟨.description text, { context := place }⟩

def typed (place : Context) (c : ContentType) : Directive :=
  ⟨.contentType c.mediaType, { version := c.version, context := place }⟩

section Reads
variable {t : ScopedTag} {d : Directive}

theorem Reads.exists_labelled (h : Reads registry place .label t d) :
    ∃ text, d = labelled place text := by
  have hkind : d.content.kind = .label := (Directive.readAs h).kind
  rw [Directive.eq_of_read h rfl rfl]
  cases hcontent : d.content <;> rw [hcontent] at hkind <;> cases hkind
  exact ⟨_, rfl⟩

theorem Reads.exists_described (h : Reads registry place .description t d) :
    ∃ text, d = described place text := by
  have hkind : d.content.kind = .description := (Directive.readAs h).kind
  rw [Directive.eq_of_read h rfl rfl]
  cases hcontent : d.content <;> rw [hcontent] at hkind <;> cases hkind
  exact ⟨_, rfl⟩

theorem Reads.exists_typed (h : Reads registry place .contentType t d) :
    ∃ mediaType, d = typed place ⟨mediaType, t.2⟩ := by
  have hkind : d.content.kind = .contentType := (Directive.readAs h).kind
  rw [Directive.eq_of_read h rfl rfl]
  cases hcontent : d.content <;> rw [hcontent] at hkind <;> cases hkind
  exact ⟨_, rfl⟩

end Reads

theorem readLabel_eq_ok_iff {text : String} : readLabel registry place tags = .ok text ↔
    List.Forall₂ (Reads registry place .label) (ofKind .label tags) [labelled place text] := by
  unfold readLabel
  rcases ofKind .label tags with _ | ⟨⟨tag, version⟩, _ | ⟨t, ts⟩⟩
  · simp [missing]
  · rw [List.forall₂_cons, List.forall₂_nil_left_iff, eq_self, and_true]
    -- labels have no version, so it does not matter that the tag is read without its own
    show (Directive.read registry place .label tag none >>= _) = _ ↔
      Directive.read registry place .label tag none = _
    rw [bind_eq_ok]
    constructor
    · rintro ⟨d, hread, h⟩
      obtain ⟨text', rfl⟩ := Reads.exists_labelled (t := (tag, none)) hread
      cases h
      exact hread
    · intro hread
      exact ⟨_, hread, rfl⟩
  · simp [repeated]

theorem readDescription_eq_ok_iff {text? : Option String} :
    readDescription registry place tags = .ok text? ↔
      List.Forall₂ (Reads registry place .description) (ofKind .description tags)
        (text?.toList.map (described place)) := by
  unfold readDescription
  rcases ofKind .description tags with _ | ⟨t, _ | ⟨t', ts⟩⟩
  · cases text? <;> simp
  · show (Directive.read registry place .description t.1 t.2 >>= _) = _ ↔ _
    rw [bind_eq_ok]
    constructor
    · rintro ⟨d, hread, h⟩
      obtain ⟨text, rfl⟩ := Reads.exists_described hread
      cases h
      exact List.Forall₂.cons hread List.Forall₂.nil
    · intro h
      cases text? with
      | none => cases h
      | some text =>
        have hread := (List.forall₂_cons.1 h).1
        exact ⟨_, hread, rfl⟩
  · cases text? <;> simp [repeated]

theorem readContentType_eq_ok_iff {t : ScopedTag} {c : ContentType} :
    readContentType registry place t = .ok c ↔
      Reads registry place .contentType t (typed place c) := by
  unfold readContentType
  rw [bind_eq_ok]
  constructor
  · rintro ⟨d, hread, h⟩
    obtain ⟨mediaType, rfl⟩ := Reads.exists_typed hread
    cases h
    exact hread
  · intro hread
    exact ⟨_, hread, rfl⟩

theorem length_unversioned {ts : List ScopedTag} {cs : List ContentType}
    (h : List.Forall₂ (fun t c => Reads registry place .contentType t (typed place c)) ts cs) :
    (ts.filter (·.2.isNone)).length = (cs.filter (·.version.isNone)).length := by
  apply (List.rel_filter ?_ h).length_eq
  intro t c hread
  obtain ⟨mediaType, heq⟩ := Reads.exists_typed hread
  have hversion : c.version = t.2 := congrArg (·.traits.version) heq
  show t.2.isNone = true ↔ c.version.isNone = true
  rw [hversion]

theorem readContentTypes_eq_ok_iff {cs : List ContentType} :
    readContentTypes registry place tags = .ok cs ↔
      (cs ≠ [] ∧ (cs.filter (·.version.isNone)).length ≤ 1) ∧
        List.Forall₂ (Reads registry place .contentType) (ofKind .contentType tags)
          (cs.map (typed place)) := by
  rw [List.forall₂_map_right_iff]
  unfold readContentTypes
  dsimp only
  generalize ofKind .contentType tags = found
  constructor
  · intro h
    split at h
    · cases h
    · split at h
      · cases h
      · rename_i hne hone
        have hreads := (mapM_eq_ok.1 h).imp fun _ _ => readContentType_eq_ok_iff.1
        refine ⟨⟨?_, ?_⟩, hreads⟩
        · rintro rfl
          rw [List.forall₂_nil_right_iff.1 hreads] at hne
          exact hne rfl
        · rw [← length_unversioned hreads]
          omega
  · rintro ⟨⟨hne, hone⟩, hreads⟩
    rw [← length_unversioned hreads] at hone
    have hfound : found ≠ [] := by
      rintro rfl
      exact hne (List.forall₂_nil_left_iff.1 hreads)
    rw [if_neg (by simpa using hfound), if_neg (by omega), mapM_eq_ok]
    exact hreads.imp fun _ _ => readContentType_eq_ok_iff.2

/-! ## The directives that are kept -/

def isKeptTag (t : ScopedTag) : Bool := ((Kind.ofTag? t.1.name).filter isKept).isSome

/-- A tag is read as this directive, of a kind that actions keep. -/
def ReadsKept (registry : Registry) (place : Context) (t : ScopedTag) (d : Directive) : Prop :=
  ∃ kind, Kind.ofTag? t.1.name = some kind ∧ isKept kind = true ∧ Reads registry place kind t d

def firstVersions (ds : List Directive) : Nat := ds.countP (·.kind == .minVersion)

theorem firstVersions_cons (d : Directive) (ds : List Directive) :
    firstVersions (d :: ds) = firstVersions ds + (d.kind == .minVersion).toNat := by
  unfold firstVersions
  rw [List.countP_cons]
  cases d.kind == .minVersion <;> rfl

theorem one_more_iff (n : Nat) (next begun : Bool) :
    (next && begun) = false ∧ n + (begun || next).toNat ≤ 1 ↔
      n + next.toNat + begun.toNat ≤ 1 := by
  cases next <;> cases begun <;> simp

/-- A kept tag is read first, unless it would give a second first version. -/
theorem readKept_cons_eq_ok_iff {begun : Bool} {t : ScopedTag} {kind : Kind} {ds : List Directive}
    (hkind : Kind.ofTag? t.1.name = some kind) (hkept : isKept kind = true) :
    readKept registry place begun (t :: tags) = .ok ds ↔
      (kind == .minVersion && begun) = false ∧ ∃ d rest, Reads registry place kind t d ∧
        readKept registry place (begun || kind == .minVersion) tags = .ok rest ∧
          ds = d :: rest := by
  obtain ⟨tag, version⟩ := t
  have hfilter : (Kind.ofTag? tag.name).filter isKept = some kind :=
    Option.filter_eq_some_iff.2 ⟨hkind, hkept⟩
  rw [readKept, hfilter]
  dsimp only
  cases kind == .minVersion && begun with
  | true => simp [repeated]
  | false =>
    rw [if_neg Bool.false_ne_true, bind_eq_ok, eq_self, true_and]
    constructor
    · rintro ⟨d, hread, h⟩
      obtain ⟨rest, hrest, h⟩ := bind_eq_ok.1 h
      cases h
      exact ⟨d, rest, hread, hrest, rfl⟩
    · rintro ⟨d, rest, hread, hrest, rfl⟩
      exact ⟨d, hread, bind_eq_ok.2 ⟨rest, hrest, rfl⟩⟩

/-- The kept directives are those of the kept tags, in order, with at most one first version;
`begun` counts for one. -/
theorem readKept_eq_ok_iff {begun : Bool} {ds : List Directive} :
    readKept registry place begun tags = .ok ds ↔
      firstVersions ds + begun.toNat ≤ 1 ∧
        List.Forall₂ (ReadsKept registry place) (tags.filter isKeptTag) ds := by
  induction tags generalizing begun ds with
  | nil =>
    have hbegun := begun.toNat_le
    simp only [readKept, List.filter_nil, List.forall₂_nil_left_iff, Except.ok.injEq]
    constructor
    · rintro rfl
      exact ⟨by simpa [firstVersions] using hbegun, rfl⟩
    · rintro ⟨-, rfl⟩
      rfl
  | cons t tags ih =>
    rcases hfilter : (Kind.ofTag? t.1.name).filter isKept with _ | kind
    · rw [readKept, hfilter, List.filter_cons_of_neg (by simp [isKeptTag, hfilter])]
      exact ih
    · obtain ⟨hkind, hkept⟩ := Option.filter_eq_some_iff.1 hfilter
      rw [readKept_cons_eq_ok_iff hkind hkept,
        List.filter_cons_of_pos (by simp [isKeptTag, hfilter]), List.forall₂_cons_left_iff]
      constructor
      · rintro ⟨hone, d, rest, hread, hrest, rfl⟩
        obtain ⟨hcount, hreads⟩ := ih.1 hrest
        refine ⟨?_, d, rest, ⟨kind, hkind, hkept, hread⟩, hreads, rfl⟩
        rw [firstVersions_cons, (Directive.readAs hread).kind]
        exact (one_more_iff ..).1 ⟨hone, hcount⟩
      · rintro ⟨hcount, d, rest, ⟨kind', hkind', -, hread⟩, hreads, rfl⟩
        obtain rfl : kind = kind' := Option.some.inj (hkind.symm.trans hkind')
        rw [firstVersions_cons, (Directive.readAs hread).kind] at hcount
        obtain ⟨hone, hrest⟩ := (one_more_iff ..).2 hcount
        exact ⟨hone, d, rest, hread, ih.2 ⟨hrest, hreads⟩, rfl⟩

/-! ## Public directives on private paths -/

theorem visibilities_routes (a : Action) : a.routes.filterMap (·.traits.visibility) =
    (a.directives.filter (·.kind == .uri)).filterMap (·.traits.visibility) := by
  unfold routes
  rw [List.filterMap_filterMap, List.filterMap_filter]
  apply List.filterMap_congr
  intro d hd
  unfold Directive.kind
  cases d.content <;> rfl

/-- All paths share a visibility if there is one, and no other. -/
theorem uniformVisibility?_eq_some_iff {a : Action} {v : Visibility} :
    a.uniformVisibility? = some v ↔
      a.routes.filterMap (·.traits.visibility) ≠ [] ∧
        ∀ w ∈ a.routes.filterMap (·.traits.visibility), w = v := by
  unfold uniformVisibility?
  generalize a.routes.filterMap (·.traits.visibility) = vs
  rcases vs with _ | ⟨w, ws⟩
  · simp
  · simp only [List.all_eq_true, beq_iff_eq, Option.ite_none_right_eq_some, Option.some.injEq,
      ne_eq, reduceCtorEq, not_false_eq_true, true_and, List.forall_mem_cons]
    constructor
    · rintro ⟨hall, rfl⟩
      exact ⟨rfl, hall⟩
    · rintro ⟨rfl, hall⟩
      exact ⟨hall, rfl⟩

theorem exposed?_eq_none_iff {a : Action} (hpath : ∃ d ∈ a.directives, d.kind = .uri)
    (hvisible : ∀ d ∈ a.directives, d.kind = .uri → d.traits.visibility.isSome = true) :
    a.exposed? = none ↔
      ((∀ d ∈ a.directives, d.kind = .uri → d.traits.visibility = some .internal) →
        ∀ d ∈ a.directives, d.kind ≠ .uri → d.traits.visibility ≠ some .published) := by
  have huniform : a.uniformVisibility? = some .internal ↔
      ∀ d ∈ a.directives, d.kind = .uri → d.traits.visibility = some .internal := by
    rw [uniformVisibility?_eq_some_iff, visibilities_routes]
    constructor
    · rintro ⟨-, hall⟩ d hd hkind
      obtain ⟨v, hv⟩ := Option.isSome_iff_exists.1 (hvisible d hd hkind)
      rw [hv, hall v (List.mem_filterMap.2 ⟨d, List.mem_filter.2 ⟨hd, by simp [hkind]⟩, hv⟩)]
    · intro hall
      obtain ⟨d, hd, hkind⟩ := hpath
      refine ⟨List.ne_nil_of_mem (List.mem_filterMap.2
        ⟨d, List.mem_filter.2 ⟨hd, by simp [hkind]⟩, hall d hd hkind⟩), fun w hw => ?_⟩
      obtain ⟨e, he, hew⟩ := List.mem_filterMap.1 hw
      obtain ⟨hmem, hk⟩ := List.mem_filter.1 he
      rw [hall e hmem (by simpa using hk)] at hew
      exact (Option.some.inj hew).symm
  rw [← huniform]
  unfold exposed?
  by_cases hprivate : a.uniformVisibility? = some .internal
  · simp [hprivate, Traits.isPublic]
  · simp [hprivate]

end Action

end VersionedApi
