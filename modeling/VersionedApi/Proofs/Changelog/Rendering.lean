import VersionedApi.Proofs.Changelog.Grouping
import VersionedApi.Report

/-!
# A changelog as text, section by section

The text of a changelog is made from its entries in one pass, with a heading wherever the version or
the definition differs from those of the entry before.

* `streamed` : the pieces of the text that the pass makes; `Changelog.sections` : the pieces of a
  section for each version, and in it one for each definition;
* `Changelog.Builder.Proper.streamed_entries` : they are the same, since no version and, in a version,
  no definition comes twice and none is without entries;
* `Changelog.report_sections` : so the text is the sections, and nothing in it is said twice.
-/

namespace VersionedApi

open SortedMap

/-! ## Pieces of the text -/

/-- A piece of the text of a changelog. -/
inductive Piece where
  | heading (v : String)
  | title (v : String) (d : Definition)
  | line (e : Entry)
deriving DecidableEq

namespace Piece

/-- A blank line and the version, the title of a definition, or the line of an entry. -/
def text : Piece → String
  | heading v => "\n" ++ v ++ "\n"
  | title _ d => "  " ++ d.title ++ "\n"
  | line e => entryLine e

def version : Piece → String
  | heading v => v
  | title v _ => v
  | line e => e.version

def definition? : Piece → Option Definition
  | heading _ => none
  | title _ d => some d
  | line e => some e.definition

def entry? : Piece → Option Entry
  | line e => some e
  | _ => none

end Piece

/-- What is made of entries in one pass: the pieces of their text below the version and the
definition of the entry before them. -/
def streamed : Option (String × Definition) → List Entry → List Piece
  | _, [] => []
  | heading, e :: es =>
    let v := e.version
    let d := e.definition
    (if heading.any (·.1 == v) then [] else [.heading v]) ++
      ((if heading.any (·.1 == v) && heading.any (·.2 == d) then [] else [.title v d]) ++
        .line e :: streamed (some (v, d)) es)

theorem concatenated_cons (t : String) (ts : List String) :
    concatenated (t :: ts) = t ++ concatenated ts := by
  unfold concatenated
  cases ts with
  | nil => simp
  | cons u us => simp

theorem concatenated_append (ts us : List String) :
    concatenated (ts ++ us) = concatenated ts ++ concatenated us := by
  induction ts with
  | nil => simp [concatenated]
  | cons t ts ih =>
    rw [List.cons_append, concatenated_cons, ih, concatenated_cons, String.append_assoc]

theorem entriesText_eq (heading : Option (String × Definition)) (es : List Entry) :
    entriesText heading es = concatenated ((streamed heading es).map Piece.text) := by
  have hif (b : Bool) (p : Piece) : concatenated ((if b then [] else [p]).map Piece.text) =
      if b then "" else p.text := by
    cases b <;> rfl
  induction es generalizing heading with
  | nil => rfl
  | cons e es ih =>
    simp only [entriesText, streamed, List.map_append, List.map_cons, concatenated_append,
      concatenated_cons, hif, ih, Piece.text, String.append_assoc]

/-! ## One pass -/

/-- The version and the definition above what follows some entries. -/
def above (heading : Option (String × Definition)) (es : List Entry) :
    Option (String × Definition) :=
  (es.getLast?.map fun e => (e.version, e.definition)).or heading

theorem streamed_append (heading : Option (String × Definition)) (es fs : List Entry) :
    streamed heading (es ++ fs) = streamed heading es ++ streamed (above heading es) fs := by
  induction es generalizing heading with
  | nil => rfl
  | cons e es ih =>
    have habove : above (some (e.version, e.definition)) es = above heading (e :: es) := by
      cases hlast : es.getLast? <;> simp [above, List.getLast?_cons, hlast]
    rw [List.cons_append, streamed, streamed, ih, habove]
    simp only [List.append_assoc, List.cons_append]

section Run
variable {v : String} {d : Definition} {es : List Entry}
  (hes : ∀ e ∈ es, e.version = v ∧ e.definition = d)
include hes

theorem streamed_same : streamed (some (v, d)) es = es.map .line := by
  induction es with
  | nil => rfl
  | cons e es ih =>
    obtain ⟨hv, hd⟩ := hes e List.mem_cons_self
    rw [streamed, hv, hd, ih fun f hf => hes f (List.mem_cons_of_mem e hf)]
    simp

variable (hne : es ≠ [])
include hne

theorem above_run (heading : Option (String × Definition)) :
    above heading es = some (v, d) := by
  obtain ⟨hv, hd⟩ := hes _ (List.getLast_mem hne)
  rw [above, List.getLast?_eq_some_getLast hne, Option.map_some, hv, hd]
  rfl

/-- Entries of one version and definition: a heading and a title, as far as they are new. -/
theorem streamed_run (heading : Option (String × Definition)) :
    streamed heading es =
      (if heading.any (·.1 == v) then [] else [.heading v]) ++
        ((if heading.any (·.1 == v) && heading.any (·.2 == d) then [] else [.title v d]) ++
          es.map .line) := by
  obtain ⟨e, es, rfl⟩ := List.exists_cons_of_ne_nil hne
  obtain ⟨hv, hd⟩ := hes e List.mem_cons_self
  rw [streamed, hv, hd, streamed_same fun f hf => hes f (List.mem_cons_of_mem e hf)]
  rfl

end Run

def titled (v : String) (d : Definition) (es : List Entry) : List Piece :=
  .title v d :: es.map .line

namespace Changelog

section Titles
variable {v : String} {m : ByDefinition} (hfull : ∀ x ∈ m, entriesUnder v x.1 x.2 ≠ [])
include hfull

theorem streamed_titles {c : Definition} (hkeys : (c :: m.map Prod.fst).Nodup) :
    streamed (some (v, c)) (entriesOf v m) =
      flatMap m fun d parts => titled v d (entriesUnder v d parts) := by
  induction m generalizing c with
  | nil => rfl
  | cons x m ih =>
    obtain ⟨hc, hkeys⟩ := List.nodup_cons.1 hkeys
    have hrun : ∀ e ∈ entriesUnder v x.1 x.2, e.version = v ∧ e.definition = x.1 :=
      fun _ => version_definition_of_mem
    have hne := hfull x List.mem_cons_self
    have hcd : c ≠ x.1 := fun heq => hc (heq ▸ List.mem_cons_self)
    have hrest := ih (fun y hy => hfull y (List.mem_cons_of_mem x hy)) hkeys
    unfold entriesOf at hrest ⊢
    rw [flatMap_cons, streamed_append, streamed_run hrun hne, above_run hrun hne, hrest]
    simp [titled, hcd, flatMap_cons]

/-- Below another version the version is new too, once. -/
theorem streamed_section (hkeys : (m.map Prod.fst).Nodup) (hne : m ≠ [])
    {heading : Option (String × Definition)} (hnew : heading.any (·.1 == v) = false) :
    streamed heading (entriesOf v m) =
      .heading v :: flatMap m fun d parts => titled v d (entriesUnder v d parts) := by
  obtain ⟨x, m, rfl⟩ := List.exists_cons_of_ne_nil hne
  have hrun : ∀ e ∈ entriesUnder v x.1 x.2, e.version = v ∧ e.definition = x.1 :=
    fun _ => version_definition_of_mem
  have hne := hfull x List.mem_cons_self
  have hrest := streamed_titles (fun y hy => hfull y (List.mem_cons_of_mem x hy)) hkeys
  unfold entriesOf at hrest ⊢
  rw [flatMap_cons, streamed_append, streamed_run hrun hne, above_run hrun hne, hrest, hnew]
  rfl

end Titles

/-! ## Sections -/

/-- The section of a version: its heading, then every definition with its entries. -/
def sectionOf (v : VersionChanges) : List Piece :=
  .heading v.version ::
    flatMap v.changes fun d parts => titled v.version d (entriesUnder v.version d parts)

def sections (log : Changelog) : List Piece := log.versions.flatMap sectionOf

theorem version_of_mem_sectionOf {v : VersionChanges} {p : Piece} (h : p ∈ sectionOf v) :
    p.version = v.version := by
  rcases List.mem_cons.1 h with rfl | h
  · rfl
  · obtain ⟨x, -, h⟩ := List.mem_flatMap.1 h
    rcases List.mem_cons.1 h with rfl | h
    · rfl
    · obtain ⟨e, he, rfl⟩ := List.mem_map.1 h
      exact (version_definition_of_mem he).1

theorem definition?_of_mem_titled {v : String} {d : Definition} {parts : ByPart} {p : Piece}
    (h : p ∈ titled v d (entriesUnder v d parts)) : p.definition? = some d := by
  rcases List.mem_cons.1 h with rfl | h
  · rfl
  · obtain ⟨e, he, rfl⟩ := List.mem_map.1 h
    exact congrArg some (version_definition_of_mem he).2

theorem entries_sections (log : Changelog) :
    log.sections.filterMap Piece.entry? = log.entries := by
  have hlines (es : List Entry) : (es.map Piece.line).filterMap Piece.entry? = es := by
    rw [List.filterMap_map]
    exact List.filterMap_some
  have htitled (v : String) (d : Definition) (es : List Entry) :
      (titled v d es).filterMap Piece.entry? = es := by
    rw [titled, List.filterMap_cons_none rfl, hlines]
  have hsection (v : VersionChanges) :
      (sectionOf v).filterMap Piece.entry? = entriesOf v.version v.changes := by
    rw [sectionOf, List.filterMap_cons_none rfl, SortedMap.flatMap, List.filterMap_flatMap]
    simp only [htitled]
    rfl
  rw [sections, List.filterMap_flatMap, entries_eq]
  simp only [hsection]

namespace Builder

variable {b : Builder} (h : b.Proper)
include h

theorem Proper.nodup_keys {v : VersionChanges} (hv : v ∈ b.build.versions) :
    (v.changes.map Prod.fst).Nodup := by
  refine List.pairwise_map.2 ((h.inner _ (mem_versions.1 hv)).sorted.imp fun {x y} hlt heq => ?_)
  rw [heq] at hlt
  exact lt_irrefl _ hlt

theorem Proper.entriesUnder_ne_nil {v : VersionChanges} (hv : v ∈ b.build.versions) :
    ∀ x ∈ v.changes, entriesUnder v.version x.1 x.2 ≠ [] := by
  intro x hx
  have hproper := h.inner _ (mem_versions.1 hv)
  exact Changelog.entriesUnder_ne_nil (hproper.inner x hx) (hproper.full x hx)

theorem Proper.nodup_versions : (b.build.versions.map (·.version)).Nodup := by
  refine List.pairwise_map.2 (h.pairwise_versions.imp fun {v w} hearlier heq => ?_)
  rw [heq] at hearlier
  exact Version.Earlier.irrefl _ hearlier

/-- One pass over the entries makes the sections of the versions. -/
theorem Proper.streamed_entries : streamed none b.build.entries = b.build.sections := by
  -- the versions that are still to come all differ from the one above
  have hpass (vs : List VersionChanges) (hmem : ∀ v ∈ vs, v ∈ b.build.versions)
      (hvs : (vs.map (·.version)).Nodup) (heading : Option (String × Definition))
      (hnew : ∀ v ∈ vs, heading.any (·.1 == v.version) = false) :
      streamed heading (vs.flatMap fun v => entriesOf v.version v.changes) =
        vs.flatMap sectionOf := by
    induction vs generalizing heading with
    | nil => rfl
    | cons v vs ih =>
      obtain ⟨hv, hvs⟩ := List.nodup_cons.1 hvs
      have hversion := hmem v List.mem_cons_self
      have hindex := mem_versions.1 hversion
      rw [List.flatMap_cons, List.flatMap_cons, streamed_append,
        streamed_section (h.entriesUnder_ne_nil hversion) (h.nodup_keys hversion)
          (h.full _ hindex) (hnew v List.mem_cons_self)]
      refine congrArg (sectionOf v ++ ·) (ih (fun w hw => hmem w (List.mem_cons_of_mem v hw))
        hvs _ fun w hw => ?_)
      have hne : entriesOf v.version v.changes ≠ [] :=
        entriesOf_ne_nil (h.inner _ hindex) (h.full _ hindex)
      have hlast := ((mem_entriesOf (h.inner _ hindex)).1 (List.getLast_mem hne)).1
      have hvw : v.version ≠ w.version := fun heq => hv (List.mem_map.2 ⟨w, hw, heq.symm⟩)
      rw [above, List.getLast?_eq_some_getLast hne]
      simp [hlast, hvw]
  rw [entries_eq]
  exact hpass b.build.versions (fun _ => id) h.nodup_versions none fun _ _ => rfl

theorem Proper.heading_mem_sections {t : String} :
    .heading t ∈ b.build.sections ↔ ∃ e ∈ b.build.entries, e.version = t := by
  rw [← h.exists_version_iff, sections, List.mem_flatMap]
  constructor
  · rintro ⟨v, hv, hmem⟩
    exact ⟨v, hv, (version_of_mem_sectionOf hmem).symm⟩
  · rintro ⟨v, hv, rfl⟩
    exact ⟨v, hv, List.mem_cons_self⟩

theorem Proper.title_mem_sections {t : String} {d : Definition} :
    .title t d ∈ b.build.sections ↔
      ∃ e ∈ b.build.entries, e.version = t ∧ e.definition = d := by
  rw [entries_eq, sections, List.mem_flatMap]
  constructor
  · rintro ⟨v, hv, hmem⟩
    obtain rfl : t = v.version := version_of_mem_sectionOf hmem
    obtain ⟨x, hx, hmem⟩ := List.mem_flatMap.1 ((List.mem_cons.1 hmem).resolve_left (by simp))
    obtain rfl : d = x.1 := Option.some.inj (definition?_of_mem_titled hmem)
    obtain ⟨e, he⟩ := List.exists_mem_of_ne_nil _ (h.entriesUnder_ne_nil hv x hx)
    have hentry : e ∈ entriesOf v.version v.changes := List.mem_flatMap.2 ⟨x, hx, he⟩
    exact ⟨e, List.mem_flatMap.2 ⟨v, hv, hentry⟩, version_definition_of_mem he⟩
  · rintro ⟨e, he, rfl, rfl⟩
    obtain ⟨v, hv, he⟩ := List.mem_flatMap.1 he
    obtain ⟨x, hx, he⟩ := List.mem_flatMap.1 he
    obtain ⟨hversion, hdefinition⟩ := version_definition_of_mem he
    rw [hversion, hdefinition]
    refine ⟨v, hv, List.mem_cons_of_mem _ ?_⟩
    exact List.mem_flatMap.2 ⟨x, hx, List.mem_cons_self⟩

theorem Proper.nodup_sectionOf {v : VersionChanges} (hv : v ∈ b.build.versions) :
    (sectionOf v).Nodup := by
  refine List.nodup_cons.2 ⟨fun hmem => ?_, List.nodup_flatMap.2 ⟨fun x hx => ?_, ?_⟩⟩
  · obtain ⟨x, -, hmem⟩ := List.mem_flatMap.1 hmem
    cases definition?_of_mem_titled hmem
  · refine List.nodup_cons.2 ⟨by simp, ?_⟩
    have hpaths : (entriesOf v.version v.changes).Pairwise fun d e => d.path < e.path :=
      pairwise_entriesOf (h.inner _ (mem_versions.1 hv))
    refine List.Nodup.map (fun _ _ => Piece.line.inj) ?_
    refine ((List.pairwise_flatMap.1 hpaths).1 x hx).imp fun {d e} hlt heq => ?_
    rw [heq] at hlt
    exact lt_irrefl _ hlt
  · refine (List.pairwise_map.1 (h.nodup_keys hv)).imp ?_
    intro x y hne p hx hy
    have heq := (definition?_of_mem_titled hx).symm.trans (definition?_of_mem_titled hy)
    exact hne (Option.some.inj heq)

theorem Proper.nodup_sections : b.build.sections.Nodup := by
  refine List.nodup_flatMap.2 ⟨fun v hv => h.nodup_sectionOf hv, ?_⟩
  refine (List.pairwise_map.1 h.nodup_versions).imp ?_
  intro v w hne p hv hw
  exact hne ((version_of_mem_sectionOf hv).symm.trans (version_of_mem_sectionOf hw))

end Builder

/-- Whatever changes are recorded, the text of the changelog says that there are none if it is
empty, and is otherwise its sections: the versions, the newest first, each below a heading of its
own, and in it the definitions that it has entries of, each below a title of its own. Nothing stands
there twice, the headings and titles are those of the changes, and the lines are the entries in
order. -/
theorem report_sections {cs : List Change} {b : Builder}
    (h : Builder.recordAll {} cs = (.ok (), b)) :
    b.build.report .text =
        (if b.build.isEmpty then "No changes between supported versions\n"
          else concatenated (b.build.sections.map Piece.text)) ∧
      b.build.versions.Pairwise
        (fun v w => Version.compareDotted w.version v.version = .lt) ∧
      (∀ v ∈ b.build.versions, v.changes.Pairwise fun x y => x.1.key < y.1.key) ∧
      b.build.sections.Nodup ∧
      (∀ t, .heading t ∈ b.build.sections ↔ ∃ c ∈ cs, c.version.text = t) ∧
      (∀ t d, .title t d ∈ b.build.sections ↔
        ∃ c ∈ cs, c.version.text = t ∧ c.definition = d) ∧
      b.build.sections.filterMap Piece.entry? = b.build.entries := by
  obtain ⟨hrecordable, rfl⟩ := Builder.recordAll_eq_ok_iff.1 h
  have hproper : (Builder.after cs).Proper := Builder.proper_after cs
  have hentry := Builder.exists_entry_of_recordable hrecordable
  refine ⟨?_, ?_, ?_, hproper.nodup_sections, fun t => ?_, fun t d => ?_, entries_sections _⟩
  · show (Builder.after cs).build.text = _
    rw [Changelog.text, entriesText_eq, hproper.streamed_entries]
    rfl
  · exact hproper.pairwise_versions.imp fun hearlier => Version.compareDotted_eq_lt_iff.2 hearlier
  · exact fun v hv => (hproper.inner _ (Builder.mem_versions.1 hv)).sorted
  · rw [← hentry fun version _ => version = t]
    exact hproper.heading_mem_sections
  · rw [← hentry fun version definition => version = t ∧ definition = d]
    exact hproper.title_mem_sections

namespace Movies

def sortAdded : Change :=
  { pageAdded with payload := .object [("method", .string "GET"), ("field", .string "sort")] }

def sortRemoved : Change :=
  { sortAdded with version := pageAddedLater.version, definition := .removed }

def orderAdded : Change :=
  { pageAddedLater with payload := .object [("method", .string "GET"), ("field", .string "order")] }

end Movies

/-- Additions in two versions in a row, each below a title of its own. -/
theorem report_sections_movies :
    ∃ b : Builder,
      Builder.recordAll {} [Movies.sortAdded, Movies.sortRemoved, Movies.orderAdded] =
        (.ok (), b) ∧
      b.build.report .text =
        "\n10.0\n  Added\n    - [Movies] GET /movies now accepts `order`\n" ++
          "  Removed\n    - [Movies] GET /movies no longer accepts `sort`\n" ++
          "\n9.9\n  Added\n    - [Movies] GET /movies now accepts `sort`\n" := by
  have hrecord : Builder.recordAll {} [Movies.sortAdded, Movies.sortRemoved, Movies.orderAdded] =
      (.ok (), Builder.after [Movies.sortAdded, Movies.sortRemoved, Movies.orderAdded]) :=
    Builder.recordAll_eq_ok_iff.2 ⟨by decide, rfl⟩
  have hnewer : Movies.sortRemoved.key.Before Movies.sortAdded.key := Or.inl (by decide)
  have hfirst : Movies.orderAdded.key.Before Movies.sortRemoved.key :=
    Or.inr ⟨rfl, List.cons_lt_cons_iff.2 (Or.inl (by decide))⟩
  have hperm : [Movies.sortAdded, Movies.sortRemoved, Movies.orderAdded].Perm
      [Movies.orderAdded, Movies.sortRemoved, Movies.sortAdded] := (List.reverse_perm _).symm
  have hentries := Builder.entries_after_of_perm (by decide) hperm
    (by simp [hfirst, hnewer, hfirst.trans hnewer]) (by decide)
  obtain ⟨hreport, -, -, -, hheading, -⟩ := report_sections hrecord
  refine ⟨_, hrecord, ?_⟩
  rw [hreport, if_neg, ← (Builder.proper_after _).streamed_entries, hentries]
  · decide +kernel
  · intro hempty
    have hmem := (hheading "9.9").2 ⟨Movies.sortAdded, by simp, by decide⟩
    rw [sections, List.isEmpty_iff.1 hempty] at hmem
    cases hmem

end Changelog

end VersionedApi
