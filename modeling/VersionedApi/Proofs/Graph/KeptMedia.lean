import Mathlib.Data.List.Nodup
import VersionedApi.Proofs.Graph.Projection

/-!
# The content type that a version keeps

Of the content types that cover a version the last one is in force there. A version keeps one
content type, which it finds by the media type in force: the first that is spelled so. The two are
the same where each media type is written once.

* `Action.InForce` : the content type in force at a version;
* `Action.Shadowed` : another one of the same media type, which does not cover the version, stands
  before all those that do;
* `Action.at?_covers_iff` : the content type that is kept covers the version exactly if the one in
  force is not shadowed;
* `Action.at?_keeps_elapsed` : a media type that is written once for each of two versions is kept,
  at the second one, as that of the first.
-/

namespace VersionedApi

namespace Action

variable {registry : Registry} {source : ActionSource} {a : Action} {v : Version.Number}
variable {t kept : ContentType}

/-- The last of the content types that cover a version. -/
def InForce (a : Action) (v : Version.Number) (t : ContentType) : Prop :=
  ∃ before behind, a.contentTypes = before ++ t :: behind ∧ t.covers v = true ∧
    ∀ x ∈ behind, x.covers v = false

/-- A content type of the same media type that does not cover the version stands before all those
that do. -/
def Shadowed (a : Action) (v : Version.Number) (t : ContentType) : Prop :=
  ∃ before x behind, a.contentTypes = before ++ x :: behind ∧ x.mediaType = t.mediaType ∧
    x.covers v = false ∧ ∀ y ∈ before, y.mediaType = t.mediaType → y.covers v = false

theorem exists_inForce (ht : t ∈ a.contentTypes) (hcovers : t.covers v = true) :
    ∃ current, a.InForce v current := by
  obtain ⟨current, before, behind, htypes, hcovered, hbehind⟩ :=
    exists_leads (w := v) ht (Or.inl hcovers)
  have hcovered : current.covers v = true := by simpa using hcovered
  exact ⟨current, before, behind, htypes, hcovered, fun x hx => (hbehind x hx).1⟩

theorem InForce.mem (h : a.InForce v t) : t ∈ a.contentTypes := by
  obtain ⟨before, behind, htypes, -⟩ := h
  simp [htypes]

theorem InForce.contentTypeAt? (h : a.InForce v t) :
    a.contentTypeAt? (some v) = some t.mediaType := by
  obtain ⟨before, behind, htypes, hcovers, hbehind⟩ := h
  exact contentTypeAt?_of_covers htypes hcovers hbehind

/-- The first content type of a media type covers a version exactly if the others of that media type
are not shadowed there. -/
theorem covers_iff_not_shadowed {before behind : List ContentType}
    (htypes : a.contentTypes = before ++ kept :: behind)
    (hfirst : ∀ x ∈ before, x.mediaType ≠ kept.mediaType) (hsame : kept.mediaType = t.mediaType) :
    kept.covers v = true ↔ ¬ a.Shadowed v t := by
  constructor
  · rintro hcovers ⟨before', x, behind', htypes', hmedia, hnot, hbefore'⟩
    -- the first of its media type stands at `x` or before it
    rw [htypes, List.append_eq_append_iff] at htypes'
    rcases htypes' with ⟨between, rfl, hcons⟩ | ⟨between, rfl, hcons⟩
    · cases between with
      | nil =>
        obtain ⟨rfl, -⟩ := List.cons.inj hcons
        simp [hcovers] at hnot
      | cons y between =>
        obtain ⟨rfl, -⟩ := List.cons.inj hcons
        have hnone := hbefore' kept (by simp) hsame
        simp [hcovers] at hnone
    · cases between with
      | nil =>
        obtain ⟨rfl, -⟩ := List.cons.inj hcons
        simp [hcovers] at hnot
      | cons y between =>
        obtain ⟨rfl, -⟩ := List.cons.inj hcons
        exact hfirst x (by simp) (hmedia.trans hsame.symm)
  · intro hshadowed
    by_contra hcovers
    have hcovers : kept.covers v = false := by simpa using hcovers
    refine hshadowed ⟨before, kept, behind, htypes, hsame, hcovers, fun y hy hmedia => ?_⟩
    exact absurd (hmedia.trans hsame.symm) (hfirst y hy)

/-- Where some content type of an action covers a version, the action at that version has one
content type. It has the media type in force, it covers the version exactly if the content type in
force is not shadowed, and it is the one in force if no media type is written twice. -/
theorem at?_covers_iff (h : Action.read registry source = .ok a)
    (hsince : ∀ first, a.minVersion? = some first → first ≤ v)
    (hcovers : ∃ t ∈ a.contentTypes, t.covers v = true) :
    ∃ b kept current, a.at? v = some b ∧ b.contentTypes = [kept] ∧ a.InForce v current ∧
      kept.mediaType = current.mediaType ∧ (kept.covers v = true ↔ ¬ a.Shadowed v current) ∧
      ((a.contentTypes.map ContentType.mediaType).Nodup → kept = current) := by
  obtain ⟨t, ht, htcovers⟩ := hcovers
  obtain ⟨current, hcurrent⟩ := exists_inForce ht htcovers
  have hb := at?_eq_some_iff.2 ⟨hsince, rfl⟩
  obtain ⟨before, kept, behind, htypes, hkept, hforce, hfirst⟩ := at?_keeps_first h hb
  have hsame : kept.mediaType = current.mediaType := by
    rw [hcurrent.contentTypeAt?] at hforce
    exact (Option.some.inj hforce).symm
  refine ⟨_, kept, current, hb, hkept, hcurrent, hsame,
    covers_iff_not_shadowed htypes hfirst hsame, fun hnodup => ?_⟩
  have hmem : kept ∈ a.contentTypes := by simp [htypes]
  exact List.inj_on_of_nodup_map hnodup hmem hcurrent.mem hsame

end Action

/-! A list that is in XML at version 1.0 and, by a tag of its own, at version 1.1 as well. -/

namespace Reissue

def listing : ActionSource :=
  { owner := "\\Movies", method := "GET"
    docblock :=
      "/**\n * @api-label Movies\n * @api-uri:public \x7bMovies\x7d /movies\n" ++
      " * @api-version 1.0\n * @api-contentType text/xml\n" ++
      " * @api-version 1.1\n * @api-contentType text/xml\n */" }

def firstXml : ContentType :=
  ⟨"text/xml", some { first := some .one, last := some .one, text := "1.0" }⟩

def secondXml : ContentType :=
  ⟨"text/xml", some { first := some Movies.second, last := some Movies.second, text := "1.1" }⟩

def action : Action :=
  { owner := "\\Movies", method := "GET", label := "Movies", description := none
    contentTypes := [firstXml, secondXml]
    directives :=
      [⟨.uri "Movies" "/movies", { visibility := some .published, context := listing.context }⟩] }

theorem read : Action.read {} listing = .ok action := toOption_eq_some.1 (by decide +kernel)

theorem since (v : Version.Number) (first : Version.Number) (h : action.minVersion? = some first) :
    first ≤ v := by
  have hnone : action.minVersion? = none := rfl
  rw [hnone] at h
  cases h

theorem at_first : action.at? .one = some { action with contentTypes := [firstXml] } := by
  decide +kernel

theorem at_second :
    action.at? Movies.second = some { action with contentTypes := [firstXml] } := by
  decide +kernel

end Reissue

namespace Action

/-- At version 1.0 the list keeps what is in force, at version 1.1 it does not. -/
theorem at?_covers_reissue : Action.read {} Reissue.listing = .ok Reissue.action ∧
    (∃ current, Reissue.action.InForce .one current ∧ ¬ Reissue.action.Shadowed .one current) ∧
    ∃ current, Reissue.action.InForce Movies.second current ∧
      Reissue.action.Shadowed Movies.second current := by
  refine ⟨Reissue.read, ?_, ?_⟩
  · have hcovers : Reissue.firstXml.covers .one = true := by decide
    obtain ⟨b, kept, current, hb, hkept, hcurrent, -, hiff, -⟩ :=
      at?_covers_iff Reissue.read (Reissue.since .one) ⟨Reissue.firstXml, List.mem_cons_self, hcovers⟩
    rw [Reissue.at_first] at hb
    cases hb
    cases hkept
    exact ⟨current, hcurrent, hiff.1 hcovers⟩
  · have hcovers : Reissue.secondXml.covers Movies.second = true := by decide
    have hnot : Reissue.firstXml.covers Movies.second = false := by decide
    have hmem : Reissue.secondXml ∈ Reissue.action.contentTypes := by simp [Reissue.action]
    obtain ⟨b, kept, current, hb, hkept, hcurrent, -, hiff, -⟩ :=
      at?_covers_iff Reissue.read (Reissue.since _) ⟨Reissue.secondXml, hmem, hcovers⟩
    rw [Reissue.at_second] at hb
    cases hb
    cases hkept
    refine ⟨current, hcurrent, ?_⟩
    by_contra hshadowed
    have hkept := hiff.2 hshadowed
    simp [hnot] at hkept

/-- Not every version keeps a content type that covers it where there is one. -/
theorem at?_keeps_elapsed :
    ¬ ∀ (registry : Registry) (source : ActionSource) (a b : Action) (v : Version.Number),
      Action.read registry source = .ok a → a.at? v = some b →
      (∃ t ∈ a.contentTypes, t.covers v = true) → ∀ t ∈ b.contentTypes, t.covers v = true := by
  intro hall
  have hmem : Reissue.secondXml ∈ Reissue.action.contentTypes := by simp [Reissue.action]
  have hcovers : Reissue.secondXml.covers Movies.second = true := by decide
  have hkept := hall {} _ _ _ _ Reissue.read Reissue.at_second ⟨_, hmem, hcovers⟩
    Reissue.firstXml List.mem_cons_self
  exact absurd hkept (by decide)

end Action

end VersionedApi
