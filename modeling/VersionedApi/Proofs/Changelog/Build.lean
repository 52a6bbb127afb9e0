import VersionedApi.Changelog.Build
import VersionedApi.Proofs.Changelog.Entries
import VersionedApi.Proofs.Json.Compact
import VersionedApi.Proofs.Outcome
import VersionedApi.Proofs.Version.Timeline
import VersionedApi.Proofs.Version.Written

/-!
# What a changelog is built from

* `Action.changeOn`, `Representation.changeOf` : one change of an action on one path, of a field;
* `Action.Undergoes` : the changes of an action along a timeline, by their reasons: it comes with
  its first version, gains and loses directives, switches its media type;
* `Action.changes_ok` : its changes are exactly those, and they can be listed whenever its first
  version is not negative;
* `Undergoes.exact`, `Representation.exact_of_mem_changes` : no payload has a double in it, so equal
  changes are one change (`Changelog.Builder.mem_changes_of_exact`);
* `Changelog.build_ok` : the changelog then exists and lists the changes of all actions and all
  representations, and nothing else.
-/

namespace VersionedApi

open VersionedApi.Json

/-! ## Payloads -/

theorem exact_payloadOf {entries : List (String × Value)} (h : ∀ e ∈ entries, e.2.Exact) :
    (payloadOf entries).Exact := (Value.Exact.object h).canonical

theorem exact_ofString? (s : Option String) : (Value.ofString? s).Exact := by
  cases s with
  | none => exact .null
  | some s => exact .string s

theorem exact_ofNat (n : Nat) : (Value.ofNat n).Exact := .integer n

namespace Action

variable {supported : List Version.Number} {a : Action} {c : Change}

def changeOn (a : Action) (route : Route) (version : Version.Number) (definition : Definition)
    (subject : Subject) (payload : Value) : Change :=
  { version, definition, subject
    group := route.group
    owner := a.owner
    path := some (Text.cleanPath route.path)
    payload }

def ownPayload (a : Action) : Value :=
  payloadOf [("method", .string a.method), ("label", .string a.label)]

def mediaPayload (a : Action) (mediaType : String) : Value :=
  payloadOf [("method", .string a.method), ("content_type", .string mediaType)]

theorem mem_changesOf {version : Version.Number} {definition : Definition} {subject : Subject}
    {payload : Value} : c ∈ a.changesOf version definition subject payload ↔
      ∃ route ∈ a.routes, c = a.changeOn route version definition subject payload := by
  simp [changesOf, changeOn, eq_comm]

/-- The changes of an action along a timeline. -/
inductive Undergoes (supported : List Version.Number) (a : Action) : Change → Prop
  | comes {route : Route} {first w : Version.Number} (hroute : route ∈ a.routes)
      (hfirst : a.minVersion? = some first)
      (hw : Version.introduced? ⟨some first, none⟩ supported = some w) :
      Undergoes supported a (a.changeOn route w .added .action a.ownPayload)
  | gains {route : Route} {d : Directive} {subject : Subject} {payload : Value}
      {w : Version.Number} (hroute : route ∈ a.routes) (hd : d ∈ a.directives)
      (hpayload : a.payload? d = some (subject, payload))
      (hw : Version.Begins supported d.traits.version w) :
      Undergoes supported a (a.changeOn route w .added subject payload)
  | loses {route : Route} {d : Directive} {subject : Subject} {payload : Value}
      {w : Version.Number} (hroute : route ∈ a.routes) (hd : d ∈ a.directives)
      (hpayload : a.payload? d = some (subject, payload))
      (hw : Version.Ends supported d.traits.version w) :
      Undergoes supported a (a.changeOn route w .removed subject payload)
  | switches {route : Route} {t : ContentType} {mediaType : String} {w : Version.Number}
      (hroute : route ∈ a.routes) (ht : t ∈ a.contentTypes)
      (hw : Version.Begins supported t.version w ∨ Version.Ends supported t.version w)
      (hmedia : a.contentTypeAt? (some w) = some mediaType) :
      Undergoes supported a (a.changeOn route w .changed .contentType (a.mediaPayload mediaType))

/-! ## The three kinds of changes -/

theorem mem_ownChanges {lifetime : Version.Range} :
    c ∈ a.ownChanges supported lifetime ↔ ∃ route ∈ a.routes, ∃ w,
      Version.introduced? lifetime.toInterval supported = some w ∧
        c = a.changeOn route w .added .action a.ownPayload := by
  simp only [ownChanges, List.mem_flatMap, Option.mem_toList, mem_changesOf]
  constructor
  · rintro ⟨w, hw, route, hroute, hc⟩
    exact ⟨route, hroute, w, hw, hc⟩
  · rintro ⟨route, hroute, w, hw, hc⟩
    exact ⟨w, hw, route, hroute, hc⟩

theorem mem_directiveChanges {d : Directive} :
    c ∈ a.directiveChanges supported d ↔ ∃ route ∈ a.routes, ∃ subject payload w,
      a.payload? d = some (subject, payload) ∧
        (Version.Begins supported d.traits.version w ∧
            c = a.changeOn route w .added subject payload ∨
          Version.Ends supported d.traits.version w ∧
            c = a.changeOn route w .removed subject payload) := by
  unfold directiveChanges
  split
  · rename_i range subject payload hversion hpayload
    simp only [hversion, hpayload, List.mem_append, List.mem_flatMap, Option.mem_toList,
      mem_changesOf, Version.Begins, Version.Ends, Option.some.injEq, Prod.mk.injEq,
      exists_eq_left']
    constructor
    · rintro (⟨w, hw, route, hroute, hc⟩ | ⟨w, hw, route, hroute, hc⟩)
      · exact ⟨route, hroute, subject, payload, w, ⟨rfl, rfl⟩, Or.inl ⟨hw, hc⟩⟩
      · exact ⟨route, hroute, subject, payload, w, ⟨rfl, rfl⟩, Or.inr ⟨hw, hc⟩⟩
    · rintro ⟨route, hroute, _, _, w, ⟨rfl, rfl⟩, ⟨hw, hc⟩ | ⟨hw, hc⟩⟩
      · exact Or.inl ⟨w, hw, route, hroute, hc⟩
      · exact Or.inr ⟨w, hw, route, hroute, hc⟩
  · rename_i hnone
    constructor
    · intro hc
      cases hc
    · rintro ⟨route, hroute, subject, payload, w, hpayload, hcase⟩
      exfalso
      rcases hcase with ⟨⟨range, hversion, -⟩, -⟩ | ⟨⟨range, hversion, -⟩, -⟩
      · exact hnone range subject payload hversion hpayload
      · exact hnone range subject payload hversion hpayload

theorem mem_contentTypeChanges {t : ContentType} :
    c ∈ a.contentTypeChanges supported t ↔ ∃ route ∈ a.routes, ∃ w mediaType,
      (Version.Begins supported t.version w ∨ Version.Ends supported t.version w) ∧
        a.contentTypeAt? (some w) = some mediaType ∧
        c = a.changeOn route w .changed .contentType (a.mediaPayload mediaType) := by
  unfold contentTypeChanges
  cases hversion : t.version with
  | none => simp [Version.Begins, Version.Ends]
  | some range =>
    simp only [List.mem_flatMap, List.mem_append, Option.mem_toList, mem_changesOf,
      Version.Begins, Version.Ends, Option.some.injEq, exists_eq_left']
    constructor
    · rintro ⟨w, hw, mediaType, hmedia, route, hroute, hc⟩
      exact ⟨route, hroute, w, mediaType, hw, hmedia, hc⟩
    · rintro ⟨route, hroute, w, mediaType, hw, hmedia, hc⟩
      exact ⟨w, hw, mediaType, hmedia, route, hroute, hc⟩

/-! ## All changes of an action -/

theorem lifetime_eq (h : ∀ first, a.minVersion? = some first → 0 ≤ first.tenths) :
    a.lifetime = .ok (a.minVersion?.map fun first =>
      { first := some first, last := none, text := ">=" ++ first.text }) := by
  unfold lifetime
  cases hfirst : a.minVersion? with
  | none => rfl
  | some first =>
    dsimp only
    rw [Version.Range.since_eq (h first hfirst)]
    rfl

/-- The changes of an action are those that it undergoes. -/
theorem changes_ok (supported : List Version.Number)
    (h : ∀ first, a.minVersion? = some first → 0 ≤ first.tenths) :
    ∃ cs, a.changes supported = .ok cs ∧ ∀ c, c ∈ cs ↔ a.Undergoes supported c := by
  refine ⟨_, bind_eq_ok.2 ⟨_, lifetime_eq h, rfl⟩, fun c => ?_⟩
  simp only [List.mem_append, List.mem_flatMap, Option.mem_toList, mem_ownChanges,
    mem_directiveChanges, mem_contentTypeChanges, Option.map_eq_some_iff]
  constructor
  · rintro ((⟨_, ⟨first, hfirst, rfl⟩, route, hroute, w, hw, rfl⟩ |
      ⟨d, hd, route, hroute, subject, payload, w, hpayload, ⟨hw, rfl⟩ | ⟨hw, rfl⟩⟩) |
      ⟨t, ht, route, hroute, w, mediaType, hw, hmedia, rfl⟩)
    · exact .comes hroute hfirst hw
    · exact .gains hroute hd hpayload hw
    · exact .loses hroute hd hpayload hw
    · exact .switches hroute ht hw hmedia
  · intro hc
    cases hc with
    | comes hroute hfirst hw =>
      exact Or.inl (Or.inl ⟨_, ⟨_, hfirst, rfl⟩, _, hroute, _, hw, rfl⟩)
    | gains hroute hd hpayload hw =>
      exact Or.inl (Or.inr ⟨_, hd, _, hroute, _, _, _, hpayload, Or.inl ⟨hw, rfl⟩⟩)
    | loses hroute hd hpayload hw =>
      exact Or.inl (Or.inr ⟨_, hd, _, hroute, _, _, _, hpayload, Or.inr ⟨hw, rfl⟩⟩)
    | switches hroute ht hw hmedia =>
      exact Or.inr ⟨_, ht, _, hroute, _, _, hw, hmedia, rfl⟩

theorem subject_of_payload? {d : Directive} {subject : Subject} {payload : Value}
    (h : a.payload? d = some (subject, payload)) :
    subject = .actionParam ∨ subject = .actionReturn ∨ subject = .actionThrows := by
  unfold payload? at h
  dsimp only at h
  split at h
  · cases h
    exact Or.inl rfl
  · cases h
    exact Or.inr (Or.inl rfl)
  · cases h
    exact Or.inr (Or.inr rfl)
  · cases h

theorem exact_of_payload? {d : Directive} {subject : Subject} {payload : Value}
    (h : a.payload? d = some (subject, payload)) : payload.Exact := by
  unfold payload? at h
  dsimp only at h
  split at h
  · cases h
    exact exact_payloadOf (by simp [Value.Exact.string, exact_ofString?])
  · cases h
    exact exact_payloadOf (by simp [Value.Exact.string, exact_ofNat, exact_ofString?])
  · cases h
    exact exact_payloadOf (by simp [Value.Exact.string, exact_ofNat, exact_ofString?])
  · cases h

theorem Undergoes.exact (h : a.Undergoes supported c) : c.payload.Exact := by
  cases h with
  | comes => exact exact_payloadOf (by simp [Value.Exact.string])
  | gains _ _ hpayload _ => exact exact_of_payload? hpayload
  | loses _ _ hpayload _ => exact exact_of_payload? hpayload
  | switches => exact exact_payloadOf (by simp [Value.Exact.string])

/-- A changelog can hold every change of an action, and none of them is about a field. -/
theorem Undergoes.isRecordable (h : a.Undergoes supported c) :
    isRecordable c.definition c.subject = true ∧ c.subject ≠ .representationData := by
  cases h with
  | comes => exact ⟨rfl, by simp [changeOn]⟩
  | gains _ _ hpayload _ =>
    rcases subject_of_payload? hpayload with rfl | rfl | rfl
    · exact ⟨rfl, by simp [changeOn]⟩
    · exact ⟨rfl, by simp [changeOn]⟩
    · exact ⟨rfl, by simp [changeOn]⟩
  | loses _ _ hpayload _ =>
    rcases subject_of_payload? hpayload with rfl | rfl | rfl
    · exact ⟨rfl, by simp [changeOn]⟩
    · exact ⟨rfl, by simp [changeOn]⟩
    · exact ⟨rfl, by simp [changeOn]⟩
  | switches => exact ⟨rfl, by simp [changeOn]⟩

end Action

/-! ## Representations -/

namespace Representation

variable {supported : List Version.Number} {r : Representation} {c : Change}

def changeOf (r : Representation) (f : DataField) (definition : Definition)
    (version : Version.Number) : Change :=
  { version, definition
    subject := .representationData
    group := r.label
    owner := r.owner
    path := none
    payload := payload f }

theorem mem_fieldChanges {f : DataField} :
    c ∈ r.fieldChanges supported f ↔ ∃ w,
      Version.Begins supported f.traits.version w ∧ c = r.changeOf f .added w ∨
        Version.Ends supported f.traits.version w ∧ c = r.changeOf f .removed w := by
  unfold fieldChanges
  cases hversion : f.traits.version with
  | none => simp [Version.Begins, Version.Ends]
  | some range =>
    simp only [List.mem_append, Option.mem_toList, Option.map_eq_some_iff, Version.Begins,
      Version.Ends, Option.some.injEq, exists_eq_left']
    constructor
    · rintro (⟨w, hw, rfl⟩ | ⟨w, hw, rfl⟩)
      · exact ⟨w, Or.inl ⟨hw, rfl⟩⟩
      · exact ⟨w, Or.inr ⟨hw, rfl⟩⟩
    · rintro ⟨w, ⟨hw, rfl⟩ | ⟨hw, rfl⟩⟩
      · exact Or.inl ⟨w, hw, rfl⟩
      · exact Or.inr ⟨w, hw, rfl⟩

theorem mem_changes : c ∈ r.changes supported ↔ ∃ f ∈ r.fields, ∃ w,
    Version.Begins supported f.traits.version w ∧ c = r.changeOf f .added w ∨
      Version.Ends supported f.traits.version w ∧ c = r.changeOf f .removed w := by
  simp only [changes, List.mem_flatMap, mem_fieldChanges]

theorem isRecordable_of_mem_changes (h : c ∈ r.changes supported) :
    isRecordable c.definition c.subject = true ∧ c.subject = .representationData := by
  obtain ⟨f, -, w, ⟨-, rfl⟩ | ⟨-, rfl⟩⟩ := mem_changes.1 h
  · exact ⟨rfl, rfl⟩
  · exact ⟨rfl, rfl⟩

theorem exact_of_mem_changes (h : c ∈ r.changes supported) : c.payload.Exact := by
  have hpayload (f : DataField) : (payload f).Exact :=
    exact_payloadOf (by simp [Value.Exact.string, exact_ofString?])
  obtain ⟨f, -, w, ⟨-, rfl⟩ | ⟨-, rfl⟩⟩ := mem_changes.1 h
  · exact hpayload f
  · exact hpayload f

end Representation

/-! ## The changelog -/

theorem Change.Same.eq_of_exact {c d : Change} (h : c.Same d) (hc : c.payload.Exact)
    (hd : d.payload.Exact) : c = d := by
  unfold Same plain at h
  rwa [hc.plainZeros_eq, hd.plainZeros_eq] at h

theorem Changelog.Builder.mem_changes_of_exact {cs : List Change} {c : Change}
    (hrecordable : ∀ c ∈ cs, isRecordable c.definition c.subject = true)
    (hexact : ∀ c ∈ cs, c.payload.Exact) : c ∈ (after cs).build.changes ↔ c ∈ cs := by
  have haccepted := accepted_eq_self hrecordable
  constructor
  · intro hc
    rw [← haccepted]
    exact mem_accepted_of_mem_changes hc
  · intro hc
    rw [← haccepted] at hc
    obtain ⟨d, hd, -, hsame⟩ := exists_mem_changes hc
    rw [haccepted] at hc
    have hmem : d ∈ cs := haccepted ▸ mem_accepted_of_mem_changes hd
    rwa [← hsame.eq_of_exact (hexact d hmem) (hexact c hc)]

theorem Changelog.build_eq_ok_iff {supported : List Version.Number} {actions : List Action}
    {representations : List Representation} {log : Changelog} :
    Changelog.build supported actions representations = .ok log ↔
      ∃ css, actions.mapM (·.changes supported) = .ok css ∧
        (∀ c ∈ css.flatten ++ representations.flatMap (·.changes supported),
          isRecordable c.definition c.subject = true) ∧
        log = (Builder.after
          (css.flatten ++ representations.flatMap (·.changes supported))).build := by
  unfold Changelog.build
  rw [bind_eq_ok]
  refine exists_congr fun css => and_congr_right fun _ => ?_
  generalize css.flatten ++ representations.flatMap (·.changes supported) = cs
  constructor
  · intro h
    obtain ⟨⟨⟩, hresult, hlog⟩ := bind_eq_ok.1 h
    obtain ⟨hrecordable, hnext⟩ := Builder.recordAll_eq_ok_iff.1 (Prod.ext hresult rfl)
    refine ⟨hrecordable, ?_⟩
    rw [Builder.after, ← hnext]
    exact (Except.ok.inj hlog).symm
  · rintro ⟨hrecordable, rfl⟩
    rw [Builder.recordAll_eq_ok_iff.2 ⟨hrecordable, rfl⟩]
    rfl

/-- The changelog exists and lists what actions and representations undergo, and nothing else. -/
theorem Changelog.build_ok (supported : List Version.Number) {actions : List Action}
    (representations : List Representation)
    (h : ∀ a ∈ actions, ∀ first, a.minVersion? = some first → 0 ≤ first.tenths) :
    ∃ log, Changelog.build supported actions representations = .ok log ∧
      ∀ c, c ∈ log.changes ↔ (∃ a ∈ actions, a.Undergoes supported c) ∨
        ∃ r ∈ representations, c ∈ r.changes supported := by
  obtain ⟨css, hcss⟩ : ∃ css, actions.mapM (·.changes supported) = .ok css :=
    exists_mapM_eq_ok.2 fun a ha => by
      obtain ⟨cs, hcs, -⟩ := Action.changes_ok supported (h a ha)
      exact ⟨cs, hcs⟩
  have hactions : ∀ c, c ∈ css.flatten ↔ ∃ a ∈ actions, a.Undergoes supported c := by
    intro c
    rw [List.mem_flatten]
    constructor
    · rintro ⟨cs, hmem, hc⟩
      obtain ⟨a, ha, hchanges⟩ := exists_of_mem_mapM hcss hmem
      obtain ⟨cs', hcs', hiff⟩ := Action.changes_ok supported (h a ha)
      rw [hchanges] at hcs'
      cases hcs'
      exact ⟨a, ha, (hiff c).1 hc⟩
    · rintro ⟨a, ha, hc⟩
      obtain ⟨cs, hcs, hiff⟩ := Action.changes_ok supported (h a ha)
      exact ⟨cs, mem_mapM_of_mem hcss ha hcs, (hiff c).2 hc⟩
  have hknown : ∀ c ∈ css.flatten ++ representations.flatMap (·.changes supported),
      isRecordable c.definition c.subject = true ∧ c.payload.Exact := by
    intro c hc
    rw [List.mem_append, List.mem_flatMap] at hc
    rcases hc with hc | ⟨r, -, hc⟩
    · obtain ⟨a, -, ha⟩ := (hactions c).1 hc
      exact ⟨ha.isRecordable.1, ha.exact⟩
    · exact ⟨(Representation.isRecordable_of_mem_changes hc).1,
        Representation.exact_of_mem_changes hc⟩
  have hrecordable := fun c hc => (hknown c hc).1
  refine ⟨_, Changelog.build_eq_ok_iff.2 ⟨css, hcss, hrecordable, rfl⟩, fun c => ?_⟩
  rw [Builder.mem_changes_of_exact hrecordable fun c hc => (hknown c hc).2, List.mem_append,
    hactions, List.mem_flatMap]

end VersionedApi
