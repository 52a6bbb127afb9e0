import VersionedApi.Proofs.Docblock.Sections
import VersionedApi.Proofs.Sources.Representations

/-!
# Every documented method is found once

* `Scan.methods` : the methods that the blocks of a source text document, in order;
* `mem_addBlock`, `membersIn_addBlock` : what one block more does to the sources of representations;
  `membersIn_sourcesOf`, `members_sublist` : so all blocks together give each documented method to one
  source, and keep the order inside each;
* `marker_of_tagsOf` : a docblock with tags holds the marker that is looked for;
* `extraction_conserves` : representations and actions of a source text have the documented methods,
  each once.
-/

namespace VersionedApi

open VersionedApi.Text VersionedApi.Docblock

namespace Docblock

/-- A documented method of a class, and its block. -/
structure Method where
  owner : String
  name : String
  block : Block
deriving DecidableEq, Repr

namespace Method

def member (m : Method) : MemberSource := ⟨m.name, m.block.text⟩

def verb (m : Method) : String := String.ofList (upper m.name.toList)

/-- The action that it makes if it is named after an HTTP method. -/
def action (s : Scan) (file : Option String) (m : Method) : ActionSource :=
  { owner := s.qualify m.owner
    method := m.verb
    docblock := m.block.text
    file
    line := m.block.firstLine }

end Method

/-- The method that a block documents: the block holds the marker of tags, belongs to a class and
stands before the declaration of a method. -/
def Block.method? (b : Block) : Option Method :=
  match b.declaration, b.owner with
  | some (.ofMethod name), some owner => if hasMarker b.text then some ⟨owner, name, b⟩ else none
  | _, _ => none

def Scan.methods (s : Scan) : List Method := s.blocks.filterMap Block.method?

/-- A documented block with its class, seen as a method. -/
def methodOf? (e : String × Block) : Option Method :=
  match e.2.declaration with
  | some (.ofMethod name) => some ⟨e.1, name, e.2⟩
  | _ => none

theorem methods_eq (s : Scan) : s.methods = s.documented.filterMap methodOf? := by
  unfold Scan.methods Scan.documented
  rw [List.filterMap_filterMap]
  congr 1
  funext b
  unfold Block.method? Block.documents?
  by_cases hmarker : hasMarker b.text = true
  · rw [if_pos hmarker]
    cases b.owner with
    | none => simp
    | some owner =>
      rcases hdeclaration : b.declaration with _ | ⟨name⟩ | ⟨name⟩
      all_goals simp [methodOf?, hdeclaration, hmarker]
  · rcases b.declaration with _ | ⟨name⟩ | ⟨name⟩ <;> cases b.owner <;> simp [hmarker]

theorem member?_eq (e : String × Block) : e.2.member? = (methodOf? e).map Method.member := by
  unfold Block.member? methodOf?
  rcases e.2.declaration with _ | ⟨name⟩ | ⟨name⟩ <;> rfl

theorem owner_of_methodOf? {e : String × Block} {m : Method} (h : methodOf? e = some m) :
    m.owner = e.1 := by
  unfold methodOf? at h
  split at h
  · cases h
    rfl
  · cases h

end Docblock

/-! ## One block more -/

namespace RepresentationSource

theorem owner_add (s : RepresentationSource) (b : Block) : (s.add b).owner = s.owner := by
  unfold add
  split <;> rfl

theorem members_add (s : RepresentationSource) (b : Block) :
    (s.add b).members = s.members ++ b.member?.toList := by
  unfold add Block.member?
  rcases b.declaration with _ | ⟨name⟩ | ⟨name⟩ <;> simp

end RepresentationSource

def membersIn (sources : List RepresentationSource) : List (String × MemberSource) :=
  sources.flatMap fun s => s.members.map fun m => (s.owner, m)

section AddBlock
variable {owner : String} {file : Option String} {b : Block} {sources : List RepresentationSource}

theorem members_gathered : (gathered owner file [b]).members = b.member?.toList := by
  unfold gathered
  cases hb : b.member? <;> simp [hb]

theorem mem_addBlock {r : RepresentationSource} (h : r ∈ addBlock owner file b sources) :
    r ∈ sources ∨ (∃ s ∈ sources, s.owner = owner ∧ r = s.add b) ∨
      r = gathered owner file [b] := by
  induction sources with
  | nil =>
    rw [addBlock, gathered_singleton, List.mem_singleton] at h
    exact Or.inr (Or.inr h)
  | cons s ss ih =>
    rw [addBlock] at h
    split at h
    · rename_i howner
      rcases List.mem_cons.1 h with rfl | h
      · exact Or.inr (Or.inl ⟨s, List.mem_cons_self, by simpa using howner, rfl⟩)
      · exact Or.inl (List.mem_cons_of_mem s h)
    · rcases List.mem_cons.1 h with rfl | h
      · exact Or.inl List.mem_cons_self
      · rcases ih h with hmem | ⟨t, ht, howner, rfl⟩ | rfl
        · exact Or.inl (List.mem_cons_of_mem s hmem)
        · exact Or.inr (Or.inl ⟨t, List.mem_cons_of_mem s ht, howner, rfl⟩)
        · exact Or.inr (Or.inr rfl)

theorem normal_addBlock (hnormal : ∀ s ∈ sources, normalizeClass s.owner = s.owner) :
    ∀ s ∈ addBlock owner file b sources, normalizeClass s.owner = s.owner := by
  intro r hr
  rcases mem_addBlock hr with hmem | ⟨s, hs, -, rfl⟩ | rfl
  · exact hnormal r hmem
  · rw [RepresentationSource.owner_add]
    exact hnormal s hs
  · exact normalizeClass_normalizeClass owner

/-- The member of a block is added to those that the sources have, and nothing else changes. -/
theorem membersIn_addBlock (hnormal : ∀ s ∈ sources, normalizeClass s.owner = s.owner) :
    (membersIn (addBlock owner file b sources)).Perm
      (membersIn sources ++ b.member?.toList.map fun m => (normalizeClass owner, m)) := by
  induction sources with
  | nil =>
    rw [addBlock, gathered_singleton, membersIn, List.flatMap_singleton, members_gathered]
    exact List.Perm.refl _
  | cons s ss ih =>
    rw [addBlock]
    split
    · -- the class is found, so the name that was looked for is normal
      rename_i howner
      have hspelling : normalizeClass owner = s.owner := by
        rw [← beq_iff_eq.1 howner]
        exact hnormal s List.mem_cons_self
      simp only [membersIn, List.flatMap_cons, RepresentationSource.owner_add,
        RepresentationSource.members_add, List.map_append, hspelling, List.append_assoc]
      exact List.perm_append_comm.append_left _
    · have hrest := ih fun t ht => hnormal t (List.mem_cons_of_mem s ht)
      simp only [membersIn, List.flatMap_cons, List.append_assoc] at hrest ⊢
      exact hrest.append_left _

end AddBlock

/-! ## All blocks -/

section Fold
variable {file : Option String} (spell : String → String) (entries : List (String × Block))

def sourcesOf (file : Option String) : List RepresentationSource :=
  entries.foldl (fun sources e => addBlock (spell e.1) file e.2 sources) []

theorem sourcesOf_concat (e : String × Block) : sourcesOf spell (entries ++ [e]) file =
    addBlock (spell e.1) file e.2 (sourcesOf spell entries file) := by
  unfold sourcesOf
  rw [List.foldl_append, List.foldl_cons, List.foldl_nil]

theorem normal_sourcesOf : ∀ s ∈ sourcesOf spell entries file, normalizeClass s.owner = s.owner := by
  induction entries using List.reverseRecOn with
  | nil =>
    intro s hs
    cases hs
  | append_singleton entries e ih =>
    rw [sourcesOf_concat]
    exact normal_addBlock ih

theorem membersIn_sourcesOf : (membersIn (sourcesOf spell entries file)).Perm
    ((entries.filterMap methodOf?).map fun m => (normalizeClass (spell m.owner), m.member)) := by
  induction entries using List.reverseRecOn with
  | nil => exact List.Perm.refl _
  | append_singleton entries e ih =>
    have hstep : (membersIn (addBlock (spell e.1) file e.2 (sourcesOf spell entries file))).Perm
        (membersIn (sourcesOf spell entries file) ++
          e.2.member?.toList.map fun m => (normalizeClass (spell e.1), m)) :=
      membersIn_addBlock (normal_sourcesOf spell entries)
    rw [sourcesOf_concat, List.filterMap_append, List.map_append]
    refine hstep.trans (ih.append ?_)
    rw [member?_eq]
    cases hm : methodOf? e with
    | none => simp [hm]
    | some m => simp [hm, owner_of_methodOf? hm]

theorem members_sublist : ∀ r ∈ sourcesOf spell entries file, r.members.Sublist
    (((entries.filterMap methodOf?).filter fun m => normalizeClass (spell m.owner) == r.owner).map
      Method.member) := by
  induction entries using List.reverseRecOn with
  | nil =>
    intro r hr
    cases hr
  | append_singleton entries e ih =>
    intro r hr
    rw [sourcesOf_concat] at hr
    rw [List.filterMap_append, List.filter_append, List.map_append]
    -- what a block of the class of `r` adds is the last member of the class
    have hlast : normalizeClass (spell e.1) = r.owner → (([e].filterMap methodOf?).filter
        fun m => normalizeClass (spell m.owner) == r.owner).map Method.member =
          e.2.member?.toList := by
      intro howner
      rw [member?_eq]
      cases hm : methodOf? e with
      | none => simp [hm]
      | some m => simp [hm, owner_of_methodOf? hm, howner]
    rcases mem_addBlock hr with hmem | ⟨s, hs, howner, rfl⟩ | rfl
    · exact (ih r hmem).trans (List.sublist_append_left _ _)
    · have hspelling : normalizeClass (spell e.1) = (s.add e.2).owner := by
        rw [RepresentationSource.owner_add, ← howner]
        exact normal_sourcesOf spell entries s hs
      rw [hlast hspelling, RepresentationSource.members_add, RepresentationSource.owner_add]
      exact (ih s hs).append (List.Sublist.refl _)
    · rw [hlast rfl]
      rw [members_gathered]
      exact List.sublist_append_right _ _

end Fold

/-! ## Actions -/

/-- A block makes an action exactly if it documents a method that is named after an HTTP method. -/
theorem actionOf?_eq (s : Scan) (file : Option String) (b : Block) : actionOf? s file b =
    (b.method?.filter fun m => httpMethods.contains m.verb).map (Method.action s file) := by
  unfold actionOf? Block.method?
  rcases b.declaration with _ | ⟨name⟩ | ⟨name⟩
  · rfl
  · rfl
  · cases b.owner with
    | none => rfl
    | some owner =>
      by_cases hmarker : hasMarker b.text = true
      · by_cases hverb : String.ofList (upper name.toList) ∈ httpMethods
        · simp [hmarker, Option.filter, Method.action, Method.verb, hverb]
        · simp [hmarker, Option.filter, Method.verb, hverb]
      · simp [hmarker]

theorem actionsIn_eq (content : String) (file : Option String) : actionsIn content file =
    ((scan content).methods.filter fun m => httpMethods.contains m.verb).map
      (Method.action (scan content) file) := by
  unfold actionsIn Scan.methods
  rw [List.filter_filterMap, List.map_filterMap]
  dsimp only
  congr 1
  funext b
  exact actionOf?_eq (scan content) file b

/-! ## The marker -/

namespace Docblock

theorem isSuffix_dropSpace (cs : List Char) : dropSpace cs <:+ cs := by
  unfold dropSpace
  split
  · exact List.suffix_cons _ _
  · exact List.suffix_rfl

theorem isPrefix_dropClose (cs : List Char) : dropClose cs <+: cs := by
  unfold dropClose
  split
  · rename_i before hcs
    rw [← List.reverse_suffix, hcs, List.reverse_reverse]
    exact ⟨['/', '*'], rfl⟩
  · exact List.prefix_rfl

theorem isInfix_stripGutter (raw : List Char) : stripGutter raw <:+: raw := by
  have hend : trimEnd raw <+: raw := List.rdropWhile_prefix isBlank raw
  have hline : dropClose (trimEnd raw) <:+: raw :=
    ((isPrefix_dropClose _).trans hend).isInfix
  have hbare : trimStart (dropClose (trimEnd raw)) <:+: raw :=
    (List.dropWhile_suffix isBlank).isInfix.trans hline
  unfold stripGutter
  dsimp only
  split
  · rename_i rest hrest
    rw [hrest] at hbare
    exact ((isSuffix_dropSpace rest).isInfix.trans ⟨['/', '*', '*'], [], by simp⟩).trans hbare
  · rename_i rest hrest
    rw [hrest] at hbare
    exact ((isSuffix_dropSpace rest).isInfix.trans ⟨['*'], [], by simp⟩).trans hbare
  · exact hline

theorem marker_of_tagsOf {docblock : String} (h : tagsOf docblock ≠ []) :
    marker <:+: docblock.toList := by
  obtain ⟨t, ht⟩ := List.exists_mem_of_ne_nil _ h
  rw [tagsOf_eq] at ht
  obtain ⟨k, hk⟩ : ∃ k, t.line = 1 + k :=
    ⟨t.line - 1, by have := le_line_of_mem_tagsFrom ht; omega⟩
  obtain ⟨l, hl, name, decorators, said, hopening⟩ :=
    exists_line_iff.1 ⟨t, ht, hk⟩
  obtain ⟨blanks, -, -, hbare⟩ := hopening.written
  have hbegins : marker <+: trimStart l := ⟨_, hbare.symm⟩
  have hstart : marker <:+: l := hbegins.isInfix.trans (List.dropWhile_suffix isBlank).isInfix
  obtain ⟨raw, hraw, rfl⟩ := List.mem_map.1 (List.mem_of_getElem? hl)
  exact (hstart.trans (isInfix_stripGutter raw)).trans (infix_of_mem_lines hraw)

end Docblock

/-- The members of the representations of a source text are its documented methods, each once, and
in order inside each class. Its actions are those of them that are named after an HTTP method, in
order. No block with tags is left out. -/
theorem extraction_conserves (content : String) (file : Option String) :
    (membersIn (representationsIn content file)).Perm ((scan content).methods.map fun m =>
        (normalizeClass ((scan content).qualify m.owner), m.member)) ∧
      (∀ r ∈ representationsIn content file, r.members.Sublist
        (((scan content).methods.filter fun m =>
          normalizeClass ((scan content).qualify m.owner) == r.owner).map Method.member)) ∧
      actionsIn content file =
        ((scan content).methods.filter fun m => httpMethods.contains m.verb).map
          (Method.action (scan content) file) ∧
      ∀ b ∈ (scan content).blocks, tagsOf b.text ≠ [] → "@api-".toList <:+: b.text.toList := by
  have hsources : representationsIn content file =
      sourcesOf (scan content).qualify (scan content).documented file :=
    representationsIn_eq content file
  refine ⟨?_, ?_, actionsIn_eq content file, fun b _ => marker_of_tagsOf⟩
  · rw [hsources, methods_eq]
    exact membersIn_sourcesOf _ _
  · rw [hsources, methods_eq]
    exact members_sublist _ _

/-- Two classes of one namespace, of which the first is documented in two places. -/
def reopened : String :=
  "namespace N;\nclass A\n/** @api-a */\nfn get()\nclass B\n/** @api-b */\nfn b()\n" ++
    "class A\n/** @api-c */\nfn c()\n"

/-- The members of the first class come together, so the order of all is another one. -/
theorem extraction_conserves_reopened :
    membersIn (representationsIn reopened none) =
        [("\\N\\A", ⟨"get", "/** @api-a */"⟩), ("\\N\\A", ⟨"c", "/** @api-c */"⟩),
          ("\\N\\B", ⟨"b", "/** @api-b */"⟩)] ∧
      (actionsIn reopened none).map (·.method) = ["GET"] ∧
      (membersIn (representationsIn reopened none)).Perm ((scan reopened).methods.map fun m =>
        (normalizeClass ((scan reopened).qualify m.owner), m.member)) :=
  ⟨by decide +kernel, by decide +kernel, (extraction_conserves reopened none).1⟩

end VersionedApi
