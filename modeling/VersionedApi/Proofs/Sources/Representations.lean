import VersionedApi.Proofs.Docblock.Classes
import VersionedApi.Proofs.Occurrence
import VersionedApi.Sources

/-!
# The representations of a source text

* `Scan.documented` : the blocks that hold tags and belong to a class, each with its class;
* `gathered` : the source that all blocks of one class make together;
* `foldl_addBlock_of_normal` : blocks of classes in their normal spelling are gathered, class by
  class; `foldl_addBlock_of_ne` : blocks whose class is never found make a source each;
* `representationsIn_distinct_iff` : so a class has one source if the text has a proper namespace, or
  if no class has two blocks, and only then.
-/

namespace VersionedApi

open VersionedApi.Text VersionedApi.Docblock

namespace Docblock

/-- The class that a block documents, if it holds tags. -/
def Block.documents? (b : Block) : Option String := if hasMarker b.text then b.owner else none

def Block.isOfClass (b : Block) : Bool :=
  match b.declaration with
  | some (.ofClass _) => true
  | _ => false

def Block.member? (b : Block) : Option MemberSource :=
  match b.declaration with
  | some (.ofMethod name) => some ⟨name, b.text⟩
  | _ => none

namespace Scan

/-- The blocks that document a class or its members, each with the name of the class. -/
def documented (s : Scan) : List (String × Block) :=
  s.blocks.filterMap fun b => b.documents?.map fun owner => (owner, b)

def classes (s : Scan) : List String := s.documented.map (·.1)

end Scan

/-- Of blocks with their classes, those of one class. -/
def blocksOf (owner : String) (entries : List (String × Block)) : List Block :=
  (entries.filter (·.1 == owner)).map (·.2)

theorem blocksOf_concat (owner : String) (entries : List (String × Block)) (e : String × Block) :
    blocksOf owner (entries ++ [e]) =
      if e.1 = owner then blocksOf owner entries ++ [e.2] else blocksOf owner entries := by
  unfold blocksOf
  by_cases h : e.1 = owner
  · rw [if_pos h, List.filter_append, List.filter_cons_of_pos (by simpa using h)]
    simp
  · rw [if_neg h, List.filter_append, List.filter_cons_of_neg (by simpa using h)]
    simp

theorem blocksOf_eq_nil {owner : String} {entries : List (String × Block)}
    (h : owner ∉ entries.map (·.1)) : blocksOf owner entries = [] := by
  unfold blocksOf
  rw [List.map_eq_nil_iff, List.filter_eq_nil_iff]
  intro e he hname
  exact h (List.mem_map.2 ⟨e, he, by simpa using hname⟩)

theorem blocksOf_ne_nil {owner : String} {entries : List (String × Block)}
    (h : owner ∈ entries.map (·.1)) : blocksOf owner entries ≠ [] := by
  obtain ⟨e, he, rfl⟩ := List.mem_map.1 h
  have hmem : e.2 ∈ blocksOf e.1 entries :=
    List.mem_map.2 ⟨e, List.mem_filter.2 ⟨he, by simp⟩, rfl⟩
  exact List.ne_nil_of_mem hmem

theorem blocksOf_of_nodup {entries : List (String × Block)} (h : (entries.map (·.1)).Nodup)
    {e : String × Block} (he : e ∈ entries) : blocksOf e.1 entries = [e.2] := by
  induction entries using List.reverseRecOn with
  | nil => cases he
  | append_singleton entries d ih =>
    rw [List.map_append, List.map_singleton, ← List.concat_eq_append, List.nodup_concat] at h
    rw [blocksOf_concat]
    rcases List.mem_append.1 he with hmem | hlast
    · have hne : ¬ d.1 = e.1 := fun heq => h.1 (heq ▸ List.mem_map_of_mem hmem)
      rw [if_neg hne, ih h.2 hmem]
    · rw [List.mem_singleton.1 hlast, if_pos rfl, blocksOf_eq_nil h.1, List.nil_append]

theorem isName_of_mem_documented {content : String} {e : String × Block}
    (h : e ∈ (scan content).documented) : IsName e.1 := by
  obtain ⟨b, hb, hentry⟩ := List.mem_filterMap.1 h
  obtain ⟨owner, howner, rfl⟩ := Option.map_eq_some_iff.1 hentry
  unfold Block.documents? at howner
  split at howner
  · exact isName_of_mem_blocks hb howner
  · cases howner

end Docblock

/-! ## What blocks of one class make together -/

/-- The source of a class with some blocks: the last docblock of the class itself, and the members
in order. It stands where that docblock does, or else where the first block does. -/
def gathered (owner : String) (file : Option String) (blocks : List Block) :
    RepresentationSource :=
  let ownBlock? := (blocks.filter Block.isOfClass).getLast?
  { owner := normalizeClass owner
    docblock := (ownBlock?.map Block.text).getD ""
    members := blocks.filterMap Block.member?
    file
    line := ((ownBlock?.or blocks.head?).map Block.firstLine).getD 0 }

section Gather
variable (owner : String) (file : Option String)

theorem gathered_singleton (b : Block) :
    ({ RepresentationSource.ofClass owner "" [] with file, line := b.firstLine }).add b =
      gathered owner file [b] := by
  unfold RepresentationSource.add gathered
  split <;> simp_all [RepresentationSource.ofClass, Block.isOfClass, Block.member?]

theorem gathered_concat {blocks : List Block} (h : blocks ≠ []) (b : Block) :
    (gathered owner file blocks).add b = gathered owner file (blocks ++ [b]) := by
  have hhead : (blocks ++ [b]).head? = blocks.head? := List.head?_append_of_ne_nil blocks h
  unfold RepresentationSource.add gathered
  rw [List.filter_append, List.filterMap_append, hhead]
  split <;> simp_all [Block.isOfClass, Block.member?]

end Gather

/-! ## One block after the other -/

section Fold
variable {file : Option String}

theorem addBlock_of_ne {owner : String} {sources : List RepresentationSource} (b : Block)
    (h : ∀ s ∈ sources, s.owner ≠ owner) :
    addBlock owner file b sources = sources ++ [gathered owner file [b]] := by
  induction sources with
  | nil => rw [addBlock, gathered_singleton, List.nil_append]
  | cons s sources ih =>
    have hs : ¬ (s.owner == owner) = true := by simpa using h s List.mem_cons_self
    rw [addBlock, if_neg hs, ih fun t ht => h t (List.mem_cons_of_mem s ht), List.cons_append]

theorem addBlock_of_mem {q name : String} {names : List String}
    {source : String → RepresentationSource} (b : Block)
    (hsource : ∀ n ∈ names, (source n).owner = q ↔ n = name) (hnodup : names.Nodup)
    (hmem : name ∈ names) :
    addBlock q file b (names.map source) =
      names.map fun n => if n = name then (source n).add b else source n := by
  induction names with
  | nil => cases hmem
  | cons n names ih =>
    obtain ⟨hn, hrest⟩ := List.nodup_cons.1 hnodup
    rw [List.map_cons, List.map_cons, addBlock]
    by_cases heq : n = name
    · have hfound : ((source n).owner == q) = true := by
        simpa using (hsource n List.mem_cons_self).2 heq
      rw [if_pos hfound, if_pos heq]
      congr 1
      apply List.map_congr_left
      intro m hm
      rw [if_neg]
      rintro rfl
      exact hn (heq ▸ hm)
    · have hother : ¬ ((source n).owner == q) = true := by
        simpa using fun h => heq ((hsource n List.mem_cons_self).1 h)
      have htail : name ∈ names := (List.mem_cons.1 hmem).resolve_left fun h => heq h.symm
      rw [if_neg hother, if_neg heq,
        ih (fun m hm => hsource m (List.mem_cons_of_mem n hm)) hrest htail]

/-- If every spelling is normal, the blocks of each class are gathered in one source, and the
classes stand in the order of their first blocks. -/
theorem foldl_addBlock_of_normal {spell : String → String} {entries : List (String × Block)}
    (hinj : ∀ a b, spell a = spell b → a = b)
    (hnormal : ∀ e ∈ entries, normalizeClass (spell e.1) = spell e.1) :
    entries.foldl (fun sources e => addBlock (spell e.1) file e.2 sources) [] =
      (entries.map (·.1)).eraseDups.map fun owner =>
        gathered (spell owner) file (blocksOf owner entries) := by
  induction entries using List.reverseRecOn with
  | nil => rfl
  | append_singleton entries e ih =>
    have hbefore : ∀ n ∈ (entries.map (·.1)).eraseDups, normalizeClass (spell n) = spell n := by
      intro n hn
      obtain ⟨d, hd, rfl⟩ := List.mem_map.1 (List.mem_eraseDups.1 hn)
      exact hnormal d (List.mem_append_left _ hd)
    rw [List.foldl_append, List.foldl_cons, List.foldl_nil,
      ih fun d hd => hnormal d (List.mem_append_left _ hd), List.map_append, List.map_singleton,
      eraseDups_concat]
    by_cases hmem : e.1 ∈ entries.map (·.1)
    · rw [if_pos hmem, addBlock_of_mem e.2 ?_ (nodup_eraseDups _) (List.mem_eraseDups.2 hmem)]
      · apply List.map_congr_left
        intro n hn
        rw [blocksOf_concat]
        by_cases hne : n = e.1
        · rw [if_pos hne, if_pos hne.symm,
            gathered_concat _ _ (blocksOf_ne_nil (List.mem_eraseDups.1 hn))]
        · rw [if_neg hne, if_neg fun h => hne h.symm]
      · intro n hn
        show normalizeClass (spell n) = spell e.1 ↔ n = e.1
        rw [hbefore n hn]
        exact ⟨hinj n e.1, fun h => by rw [h]⟩
    · have hnew : blocksOf e.1 (entries ++ [e]) = [e.2] := by
        rw [blocksOf_concat, if_pos rfl, blocksOf_eq_nil hmem, List.nil_append]
      rw [if_neg hmem, addBlock_of_ne, List.map_append, List.map_singleton, hnew]
      · congr 1
        apply List.map_congr_left
        intro n hn
        have hne : ¬ e.1 = n := by
          rintro rfl
          exact hmem (List.mem_eraseDups.1 hn)
        rw [blocksOf_concat, if_neg hne]
      · intro s hs
        obtain ⟨n, hn, rfl⟩ := List.mem_map.1 hs
        show normalizeClass (spell n) ≠ spell e.1
        rw [hbefore n hn]
        intro h
        exact hmem (hinj n e.1 h ▸ List.mem_eraseDups.1 hn)

/-- If no spelling is the normal one of any class, every block makes a source of its own. -/
theorem foldl_addBlock_of_ne {spell : String → String} {entries : List (String × Block)}
    (hne : ∀ d ∈ entries, ∀ e ∈ entries, normalizeClass (spell d.1) ≠ spell e.1) :
    entries.foldl (fun sources e => addBlock (spell e.1) file e.2 sources) [] =
      entries.map fun e => gathered (spell e.1) file [e.2] := by
  induction entries using List.reverseRecOn with
  | nil => rfl
  | append_singleton entries e ih =>
    rw [List.foldl_append, List.foldl_cons, List.foldl_nil,
      ih fun d hd c hc => hne d (List.mem_append_left _ hd) c (List.mem_append_left _ hc),
      addBlock_of_ne, List.map_append, List.map_singleton]
    intro s hs
    obtain ⟨d, hd, rfl⟩ := List.mem_map.1 hs
    exact hne d (List.mem_append_left _ hd) e (by simp)

end Fold

/-! ## Whole source texts -/

section Text
variable (content : String) (file : Option String)

/-- Only blocks that document something count. -/
theorem representationsIn_eq :
    representationsIn content file =
      (scan content).documented.foldl
        (fun sources e => addBlock ((scan content).qualify e.1) file e.2 sources) [] := by
  unfold representationsIn Scan.documented
  rw [List.foldl_filterMap]
  dsimp only
  congr 1
  funext sources b
  unfold Block.documents?
  cases b.owner with
  | none => simp
  | some owner =>
    by_cases hmarker : hasMarker b.text = true
    · simp [hmarker]
    · simp [hmarker]

variable {content}

theorem representationsIn_of_named (h : (scan content).IsNamed) :
    representationsIn content file = (scan content).classes.eraseDups.map fun owner =>
      gathered ((scan content).qualify owner) file (blocksOf owner (scan content).documented) := by
  rw [representationsIn_eq, foldl_addBlock_of_normal (fun a b => Scan.qualify_inj)]
  · rfl
  · intro e he
    exact normalizeClass_qualify h (isName_of_mem_documented he)

theorem representationsIn_of_not_named (h : ¬ (scan content).IsNamed) :
    representationsIn content file = (scan content).documented.map fun e =>
      gathered ((scan content).qualify e.1) file [e.2] := by
  rw [representationsIn_eq, foldl_addBlock_of_ne]
  intro d hd e he
  exact qualify_ne_of_not_named h (isName_of_mem_documented hd) (isName_of_mem_documented he)

theorem nodup_owners_of_named (h : (scan content).IsNamed) :
    ((representationsIn content file).map (·.owner)).Nodup := by
  rw [representationsIn_of_named file h, List.map_map]
  apply List.Nodup.map_on _ (nodup_eraseDups _)
  intro a ha b hb heq
  have hname : ∀ n ∈ (scan content).classes.eraseDups,
      normalizeClass ((scan content).qualify n) = (scan content).qualify n := by
    intro n hn
    obtain ⟨e, he, rfl⟩ := List.mem_map.1 (List.mem_eraseDups.1 hn)
    exact normalizeClass_qualify h (isName_of_mem_documented he)
  change normalizeClass ((scan content).qualify a) = normalizeClass ((scan content).qualify b) at heq
  rw [hname a ha, hname b hb] at heq
  exact Scan.qualify_inj heq

theorem nodup_owners_of_not_named (h : ¬ (scan content).IsNamed) :
    ((representationsIn content file).map (·.owner)).Nodup ↔ (scan content).classes.Nodup := by
  have howners : (representationsIn content file).map (·.owner) =
      (scan content).classes.map fun n => normalizeClass ((scan content).qualify n) := by
    rw [representationsIn_of_not_named file h, Scan.classes, List.map_map, List.map_map]
    rfl
  rw [howners]
  refine ⟨List.Nodup.of_map _, fun hnodup => List.Nodup.map_on ?_ hnodup⟩
  intro a ha b hb heq
  obtain ⟨d, hd, rfl⟩ := List.mem_map.1 ha
  obtain ⟨e, he, rfl⟩ := List.mem_map.1 hb
  have hlist := congrArg String.toList heq
  rw [normalizeClass_qualify_of_not_named h (isName_of_mem_documented hd),
    normalizeClass_qualify_of_not_named h (isName_of_mem_documented he),
    List.cons_inj_right] at hlist
  exact String.toList_inj.1 hlist

theorem representationsIn_of_nodup (h : (scan content).classes.Nodup) :
    representationsIn content file = (scan content).classes.eraseDups.map fun owner =>
      gathered ((scan content).qualify owner) file (blocksOf owner (scan content).documented) := by
  by_cases hnamed : (scan content).IsNamed
  · exact representationsIn_of_named file hnamed
  · rw [representationsIn_of_not_named file hnamed, eraseDups_eq_self h, Scan.classes, List.map_map]
    apply List.map_congr_left
    intro e he
    rw [Function.comp_apply, blocksOf_of_nodup h he]

variable (content)

/-- The classes of the sources are distinct exactly if the text has a namespace that names
something, or no class in it has two documented blocks. Then each class has all its blocks in one
source. A text without such a namespace has a source for every block. -/
theorem representationsIn_distinct_iff :
    (((representationsIn content file).map (·.owner)).Nodup ↔
        (scan content).IsNamed ∨ (scan content).classes.Nodup) ∧
      ((scan content).IsNamed ∨ (scan content).classes.Nodup →
        representationsIn content file = (scan content).classes.eraseDups.map fun owner =>
          gathered ((scan content).qualify owner) file
            (blocksOf owner (scan content).documented)) ∧
      (¬ (scan content).IsNamed →
        representationsIn content file = (scan content).documented.map fun e =>
          gathered ((scan content).qualify e.1) file [e.2]) := by
  refine ⟨?_, ?_, representationsIn_of_not_named file⟩
  · by_cases hnamed : (scan content).IsNamed
    · exact iff_of_true (nodup_owners_of_named file hnamed) (Or.inl hnamed)
    · rw [nodup_owners_of_not_named file hnamed, or_iff_right hnamed]
  · rintro (hnamed | hnodup)
    · exact representationsIn_of_named file hnamed
    · exact representationsIn_of_nodup file hnodup

end Text

def looseMovie : String :=
  "/** @api-label Movie */\nclass Movie\n\x7b\n" ++
    "    /** @api-data id (integer) - ID */\n    function getId()\n\x7d\n"

/-- Its docblock and that of its member come apart: there are two sources of one class. -/
theorem representationsIn_movie_apart :
    representationsIn looseMovie none =
        [{ owner := "\\Movie", docblock := "/** @api-label Movie */", line := 1 },
          { owner := "\\Movie"
            docblock := ""
            members := [⟨"getId", "    /** @api-data id (integer) - ID */"⟩]
            line := 4 }] ∧
      ¬ ((representationsIn looseMovie none).map (·.owner)).Nodup := by
  decide +kernel

end VersionedApi
