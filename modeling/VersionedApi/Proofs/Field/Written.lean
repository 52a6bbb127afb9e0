import VersionedApi.Proofs.Docblock.Classes
import VersionedApi.Proofs.Field.Members

/-!
# Fields read back from their texts

* `Field.Valid` : the fields that can be written;
* `Field.shape?_eq_some`, `Field.isQualified_of_type?`, `Field.isCapabilityName_of_flags?` : what is
  known of the parts of a text; `Field.valid_of_read` : so a field that is read is valid;
* `Field.written` : the text of a field; `Valid.shape?_written`, `Valid.type?_typeText`,
  `Valid.flags?_flagTokens` : its parts are found in it; `Valid.read_written` : so it is read back;
* `Field.text_round_trips` : both together.
-/

namespace VersionedApi.Field

open VersionedApi.Text

/-- A name that may stand for a capability: no word with a meaning of its own. -/
structure IsCapabilityName (s : String) : Prop where
  shape : ∃ c cs, s.toList = c :: cs ∧ (isAsciiLetter c = true ∨ c = '_') ∧
    ∀ d ∈ cs, isWord d = true ∨ d = '-'
  not_flag : s ∉ ["required", "optional", "nullable"]

/-- A supported type, or the name of a class behind a backslash. -/
def IsSubtype (s : String) : Prop :=
  s ∈ supportedTypes ∨ ∃ cs, s.toList = '\\' :: cs ∧ ∀ c ∈ cs, isWord c = true ∨ c = '\\'

/-- Fields that can be written so that they are read back. -/
structure Valid (f : Field) : Prop where
  name_ne : f.name ≠ ""
  name : ∀ c ∈ f.name.toList, isWord c = true ∨ c = '.' ∨ c = '*' ∨ c = '-'
  sample : ∀ s ∈ f.sample, '\x60' ∉ s.toList
  typeName : f.typeName ∈ supportedTypes
  subtype : ∀ s ∈ f.subtype, IsSubtype s
  capability : ∀ s ∈ f.capability, IsCapabilityName s
  description : ∀ d ∈ f.description, IsDescription d
  values : ∀ es ∈ f.values, IsMembers es
  options : f.typeName = "enum" → ∃ es ∈ f.values, es ≠ []

theorem isNameChar_iff {c : Char} :
    isNameChar c = true ↔ isWord c = true ∨ c = '.' ∨ c = '*' ∨ c = '-' := by
  simp [isNameChar, or_assoc]

/-! ## What is read is valid -/

theorem shape?_eq_some {cs : List Char} {shape : Shape} (h : shape? cs = some shape) :
    shape.name ≠ [] ∧ (∀ c ∈ shape.name, isNameChar c = true) ∧
      ∀ s ∈ shape.sample, '\x60' ∉ s := by
  unfold shape? at h
  dsimp only at h
  split at h
  · cases h
  · rename_i hname
    obtain ⟨⟨sample, rest⟩, hsampled, h⟩ := Option.bind_eq_some_iff.1 h
    obtain ⟨⟨attributes, description⟩, -, h⟩ := Option.bind_eq_some_iff.1 h
    cases h
    refine ⟨by simpa using hname, fun c hc => List.mem_takeWhile_imp hc, ?_⟩
    rintro s ⟨⟩
    unfold sampled? at hsampled
    split at hsampled
    · split at hsampled
      · obtain ⟨⟨quoted, behind⟩, hcut, heq⟩ := Option.map_eq_some_iff.1 hsampled
        cases heq
        exact (cutAt_mark_eq_some_iff.1 hcut).1
      · cases hsampled
    · cases hsampled

theorem isQualified_of_type? {token typeName : List Char} {subtype : Option (List Char)}
    (h : type? token = some (typeName, subtype)) :
    ∀ s ∈ subtype, ∀ c ∈ s, isQualified c = true := by
  unfold type? at h
  dsimp only at h
  split at h
  · split at h
    · cases h
      simp
    · split at h
      · rename_i hinner
        cases h
        rintro s ⟨⟩
        simp only [Bool.and_eq_true, List.all_eq_true] at hinner
        exact hinner.2
      · cases h
    · cases h
  · cases h

theorem add?_cases {flags flags' : Flags} {token : List Char}
    (h : flags.add? token = some flags') :
    flags'.capability = flags.capability ∨
      flags'.capability = some (String.ofList token) ∧ isCapability token = true ∧
        String.ofList token ∉ ["required", "optional", "nullable"] := by
  unfold Flags.add? at h
  split at h
  · cases h
    exact Or.inl rfl
  · cases h
    exact Or.inl rfl
  · cases h
    exact Or.inl rfl
  · rename_i hrequired hoptional hnullable
    split at h
    · rename_i hcapability
      rw [Bool.and_eq_true] at hcapability
      cases h
      refine Or.inr ⟨rfl, hcapability.2, ?_⟩
      simpa using ⟨hrequired, hoptional, hnullable⟩
    · cases h

theorem isCapabilityName_of_isCapability {token : List Char} (h : isCapability token = true)
    (hflag : String.ofList token ∉ ["required", "optional", "nullable"]) :
    IsCapabilityName (String.ofList token) := by
  refine ⟨?_, hflag⟩
  cases token with
  | nil => cases h
  | cons c cs =>
    rw [isCapability, Bool.and_eq_true, isHeadChar, Bool.or_eq_true, beq_iff_eq,
      List.all_eq_true] at h
    exact ⟨c, cs, String.toList_ofList, h.1, by simpa using h.2⟩

/-- All tokens together: a capability is one of them, whatever flags stand between. -/
theorem isCapabilityName_of_flags? {ts : List (List Char)} {flags : Flags}
    (h : flags? ts = some flags) : ∀ s ∈ flags.capability, IsCapabilityName s := by
  have hrun (ts : List (List Char)) (start : Flags)
      (hstart : ∀ s ∈ start.capability, IsCapabilityName s)
      (h : ts.foldlM Flags.add? start = some flags) :
      ∀ s ∈ flags.capability, IsCapabilityName s := by
    induction ts generalizing start with
    | nil =>
      cases h
      exact hstart
    | cons t ts ih =>
      rw [List.foldlM_cons] at h
      obtain ⟨next, hnext, h⟩ := Option.bind_eq_some_iff.1 h
      refine ih next (fun s hs => ?_) h
      rcases add?_cases hnext with heq | ⟨heq, hcapability, hflag⟩
      · exact hstart s (by rwa [heq] at hs)
      · rw [heq] at hs
        cases hs
        exact isCapabilityName_of_isCapability hcapability hflag
  exact hrun ts {} (by simp) h

theorem read_eq_ok {tag content : String} {f : Field} (h : read tag content = .ok f) :
    ∃ (shape : Shape) (token typeName : List Char) (subtype : Option (List Char)) (flags : Flags),
      shape? (trim content.toList) = some shape ∧ type? token = some (typeName, subtype) ∧
      isSupportedType (String.ofList typeName) = true ∧
      (∀ s ∈ subtype, s.head? = some '\\' ∨ isSupportedType (String.ofList s) = true) ∧
      flags? (tokens shape.attributes).tail = some flags ∧
      (String.ofList typeName = "enum" → ((described shape.description).2.getD []) ≠ []) ∧
      f = { name := String.ofList shape.name
            sample := shape.sample.map String.ofList
            typeName := String.ofList typeName
            subtype := subtype.map String.ofList
            required := flags.required
            nullable := flags.nullable
            capability := flags.capability
            description := (described shape.description).1
            values := (described shape.description).2 } := by
  unfold read at h
  dsimp only at h
  split at h
  · cases h
  · rename_i shape hshape
    split at h
    · cases h
    · rename_i typeName subtype htype
      obtain ⟨token, -, htoken⟩ := Option.bind_eq_some_iff.1 htype
      split at h
      · cases h
      · rename_i hsupported
        split at h
        · cases h
        · rename_i hsubtype
          split at h
          · cases h
          · rename_i flags hflags
            have hoptions : ¬ (String.ofList typeName == "enum" &&
                ((described shape.description).2.getD []).isEmpty) = true := by
              intro hmissing
              cases (if_pos hmissing).symm.trans h
            refine ⟨shape, token, typeName, subtype, flags, hshape, htoken, by simpa using hsupported,
              ?_, hflags, by simpa using hoptions, ?_⟩
            · rintro s ⟨⟩
              simpa [or_iff_not_imp_left] using hsubtype
            · exact (Except.ok.inj ((if_neg hoptions).symm.trans h)).symm

theorem isDescription_of_described {raw : Option (List Char)} :
    (∀ d ∈ (described raw).1, IsDescription d) ∧ ∀ es ∈ (described raw).2, IsMembers es := by
  cases raw with
  | none => simp [described]
  | some raw => exact isDescription_of_describe

theorem valid_of_read {tag content : String} {f : Field} (h : read tag content = .ok f) :
    f.Valid := by
  obtain ⟨shape, token, typeName, subtype, flags, hshape, htype, hsupported, hsubtype, hflags,
    hoptions, rfl⟩ := read_eq_ok h
  obtain ⟨hne, hname, hsample⟩ := shape?_eq_some hshape
  obtain ⟨hdescription, hvalues⟩ := @isDescription_of_described shape.description
  refine ⟨by simpa using hne, ?_, ?_, by simpa [isSupportedType] using hsupported, ?_,
    isCapabilityName_of_flags? hflags, hdescription, hvalues, ?_⟩
  · intro c hc
    rw [String.toList_ofList] at hc
    exact isNameChar_iff.1 (hname c hc)
  · intro s hs
    obtain ⟨sample, hsome, rfl⟩ := Option.map_eq_some_iff.1 hs
    rw [String.toList_ofList]
    exact hsample sample hsome
  · intro s hs
    obtain ⟨sub, hsome, rfl⟩ := Option.map_eq_some_iff.1 hs
    rcases hsubtype sub hsome with hclass | hsupported
    · obtain ⟨cs, rfl⟩ := List.head?_eq_some_iff.1 hclass
      refine Or.inr ⟨cs, String.toList_ofList, fun c hc => ?_⟩
      have hqualified := isQualified_of_type? htype _ hsome c (List.mem_cons_of_mem _ hc)
      simpa [isQualified] using hqualified
    · exact Or.inl (by simpa [isSupportedType] using hsupported)
  · intro henum
    have hsome := hoptions henum
    dsimp only
    cases hmembers : (described shape.description).2 with
    | none =>
      rw [hmembers] at hsome
      exact absurd rfl hsome
    | some es =>
      rw [hmembers] at hsome
      exact ⟨es, rfl, hsome⟩

/-! ## What is valid is read back -/

def flagTokens (f : Field) : List (List Char) :=
  ((if f.required then ["required"] else []) ++ (if f.nullable then ["nullable"] else []) ++
    f.capability.toList).map String.toList

def quoted (sample : Option String) : List Char :=
  (sample.map fun s => [' ', '\x60'] ++ (s.toList ++ ['\x60'])).getD []

/-- The text of a field; what is absent is left out. -/
def written (f : Field) : String :=
  String.ofList (f.name.toList ++ (quoted f.sample ++
    ' ' :: parenthesized (f.typeText.toList :: f.flagTokens) (behind f.description f.values)))

theorem parenthesized_ne_nil (ts : List (List Char)) (behind : List Char) :
    parenthesized ts behind ≠ [] := List.cons_ne_nil _ _

/-- A sample is found before a parenthesis, or none is. -/
theorem sampled?_quoted {sample : Option String} (h : ∀ s ∈ sample, '\x60' ∉ s.toList)
    (ts : List (List Char)) (behind : List Char) :
    sampled? (quoted sample ++ ' ' :: parenthesized ts behind) =
      some (sample.map String.toList, ' ' :: parenthesized ts behind) := by
  cases sample with
  | none => rfl
  | some s =>
    have hquoted : quoted (some s) ++ ' ' :: parenthesized ts behind =
        ' ' :: '\x60' :: (s.toList ++ '\x60' :: ' ' :: parenthesized ts behind) := by
      simp [quoted]
    have hstart (cs : List Char) : trimStart (' ' :: '\x60' :: cs) = '\x60' :: cs := rfl
    have hspace (cs : List Char) : (' ' :: cs).head?.any isBlank = true := rfl
    simp only [hquoted, sampled?, hstart, hspace, cutAt_mark _ (h s rfl), if_true, Option.map_some]

theorem isToken_of_forall {cs : List Char} (hne : cs ≠ [])
    (h : ∀ c ∈ cs, isBlank c = false ∧ c ≠ ',' ∧ c ≠ ')') : IsToken cs where
  ne_nil := hne
  trimmed := trim_eq_self fun c hc => (h c hc).1
  comma hmem := (h ',' hmem).2.1 rfl
  paren hmem := (h ')' hmem).2.2 rfl

theorem token_of_isWord {c : Char} (h : isWord c = true) :
    isBlank c = false ∧ c ≠ ',' ∧ c ≠ ')' := by
  refine ⟨isBlank_of_isWord h, ?_, ?_⟩ <;> rintro rfl <;> exact absurd h (by decide)

theorem isToken_of_isWord {cs : List Char} (hne : cs ≠ []) (h : ∀ c ∈ cs, isWord c = true) :
    IsToken cs :=
  isToken_of_forall hne fun c hc => token_of_isWord (h c hc)

theorem of_mem_supportedTypes {s : String} (h : s ∈ supportedTypes) :
    s.toList.head?.any isHeadChar = true ∧ ∀ c ∈ s.toList, isWord c = true := by
  have hall : (supportedTypes.all fun s => s.toList.head?.any isHeadChar && s.toList.all isWord) =
      true := by decide
  have hs := List.all_eq_true.1 hall s h
  rw [Bool.and_eq_true, List.all_eq_true] at hs
  exact hs

theorem ne_nil_of_mem_supportedTypes {s : String} (h : s ∈ supportedTypes) : s.toList ≠ [] := by
  intro hnil
  have hhead := (of_mem_supportedTypes h).1
  rw [hnil] at hhead
  cases hhead

theorem IsSubtype.isQualified {s : String} (h : IsSubtype s) :
    s.toList ≠ [] ∧ ∀ c ∈ s.toList, isQualified c = true := by
  rcases h with h | ⟨cs, hcs, hqualified⟩
  · obtain ⟨-, hword⟩ := of_mem_supportedTypes h
    exact ⟨ne_nil_of_mem_supportedTypes h, fun c hc => by simp [Text.isQualified, hword c hc]⟩
  · rw [hcs]
    refine ⟨List.cons_ne_nil _ _, List.forall_mem_cons.2 ⟨by decide, fun c hc => ?_⟩⟩
    simpa [Text.isQualified] using hqualified c hc

theorem IsCapabilityName.isCapability {s : String} (h : IsCapabilityName s) :
    isCapability s.toList = true := by
  obtain ⟨c, cs, hcs, hc, hrest⟩ := h.shape
  rw [hcs, Field.isCapability, Bool.and_eq_true, isHeadChar, Bool.or_eq_true, beq_iff_eq,
    List.all_eq_true]
  exact ⟨hc, by simpa using hrest⟩

theorem isWord_of_isHeadChar {c : Char} (h : isHeadChar c = true) : isWord c = true := by
  rw [isHeadChar, Bool.or_eq_true, beq_iff_eq] at h
  rcases h with h | rfl
  · have hplain : c.toNat < 0x80 := by
      simp only [isAsciiLetter, Bool.or_eq_true, Bool.and_eq_true, decide_eq_true_eq] at h
      rcases h with ⟨-, hle⟩ | ⟨-, hle⟩
      · exact Nat.lt_of_le_of_lt hle (by decide)
      · exact Nat.lt_of_le_of_lt hle (by decide)
    rw [isWord, if_pos hplain, h]
    rfl
  · decide

theorem IsCapabilityName.isToken {s : String} (h : IsCapabilityName s) : IsToken s.toList := by
  obtain ⟨c, cs, hcs, hc, hrest⟩ := h.shape
  rw [hcs]
  refine isToken_of_forall (List.cons_ne_nil c cs) (List.forall_mem_cons.2 ⟨?_, fun d hd => ?_⟩)
  · exact token_of_isWord (isWord_of_isHeadChar (by simpa [isHeadChar] using hc))
  · rcases hrest d hd with hword | rfl
    · exact token_of_isWord hword
    · decide

/-- A token that is no flag is taken for the capability. -/
theorem IsCapabilityName.add? {s : String} (h : IsCapabilityName s) {flags : Flags}
    (hnone : flags.capability = none) :
    flags.add? s.toList = some { flags with capability := some s } := by
  have hflag := h.not_flag
  unfold Flags.add?
  rw [String.ofList_toList]
  split
  · exact absurd (by simp) hflag
  · exact absurd (by simp) hflag
  · exact absurd (by simp) hflag
  · rw [hnone, h.isCapability]
    rfl

namespace Valid

variable {f : Field} (hf : f.Valid)
include hf

theorem flags?_flagTokens : flags? f.flagTokens =
    some { required := f.required, nullable := f.nullable, capability := f.capability } := by
  have hcapability (required nullable : Bool) :
      (f.capability.toList.map String.toList).foldlM Flags.add? { required, nullable } =
        some { required, nullable, capability := f.capability } := by
    cases hsome : f.capability with
    | none => rfl
    | some s =>
      rw [Option.toList_some, List.map_singleton, List.foldlM_cons,
        (hf.capability s hsome).add? rfl]
      rfl
  have hrequired (flags : Flags) :
      flags.add? "required".toList = some { flags with required := true } := rfl
  have hnullable (flags : Flags) :
      flags.add? "nullable".toList = some { flags with nullable := true } := rfl
  unfold flags? flagTokens
  cases f.required <;> cases f.nullable <;>
    simp only [Bool.false_eq_true, if_true, if_false, List.nil_append, List.cons_append,
      List.map_cons, List.foldlM_cons, hrequired, hnullable, Option.bind_eq_bind, Option.bind_some,
      hcapability]

theorem type?_typeText : type? f.typeText.toList =
    some (f.typeName.toList, f.subtype.map String.toList) := by
  obtain ⟨hhead, hword⟩ := of_mem_supportedTypes hf.typeName
  unfold typeText
  cases hsome : f.subtype with
  | none =>
    have hrest : f.typeName.toList.dropWhile isWord = [] := List.dropWhile_eq_nil_iff.2 hword
    unfold type?
    rw [if_pos hhead, hrest]
    rfl
  | some sub =>
    obtain ⟨hne, hqualified⟩ := (hf.subtype sub hsome).isQualified
    have htext : (f.typeName ++ "<" ++ sub ++ ">").toList =
        f.typeName.toList ++ '<' :: (sub.toList ++ ['>']) := by simp
    have hopens : ∀ c, ('<' :: (sub.toList ++ ['>'])).head? = some c → isWord c = false := by
      rintro c ⟨⟩
      decide
    have hstart : (f.typeName.toList ++ '<' :: (sub.toList ++ ['>'])).head?.any isHeadChar =
        true := by
      rwa [List.head?_append_of_ne_nil _ (ne_nil_of_mem_supportedTypes hf.typeName)]
    dsimp only
    rw [htext, type?, if_pos hstart, dropWhile_append_eq hword hopens,
      takeWhile_append_eq hword hopens]
    simpa [hne] using hqualified

theorem isToken_typeText : IsToken f.typeText.toList := by
  obtain ⟨-, hword⟩ := of_mem_supportedTypes hf.typeName
  have hne := ne_nil_of_mem_supportedTypes hf.typeName
  unfold typeText
  cases hsome : f.subtype with
  | none => exact isToken_of_isWord hne hword
  | some sub =>
    obtain ⟨-, hqualified⟩ := (hf.subtype sub hsome).isQualified
    refine isToken_of_forall (by simp [hne]) fun c hc => ?_
    simp only [String.toList_append, List.mem_append] at hc
    rcases hc with ((hc | hc) | hc) | hc
    · exact token_of_isWord (hword c hc)
    · rw [List.mem_singleton.1 hc]
      decide
    · have hc := hqualified c hc
      rw [Text.isQualified, Bool.or_eq_true, beq_iff_eq] at hc
      rcases hc with hc | rfl
      · exact token_of_isWord hc
      · decide
    · rw [List.mem_singleton.1 hc]
      decide

theorem isToken_of_mem_tokens : ∀ t ∈ f.typeText.toList :: f.flagTokens, IsToken t := by
  have hrequired : IsToken "required".toList :=
    isToken_of_isWord (by decide) (List.all_eq_true.1 (by decide))
  have hnullable : IsToken "nullable".toList :=
    isToken_of_isWord (by decide) (List.all_eq_true.1 (by decide))
  intro t ht
  rcases List.mem_cons.1 ht with rfl | ht
  · exact hf.isToken_typeText
  · obtain ⟨s, hs, rfl⟩ := List.mem_map.1 ht
    rw [List.mem_append, List.mem_append] at hs
    rcases hs with (hs | hs) | hs
    · split at hs
      · rw [List.mem_singleton.1 hs]
        exact hrequired
      · cases hs
    · split at hs
      · rw [List.mem_singleton.1 hs]
        exact hnullable
      · cases hs
    · exact (hf.capability s (Option.mem_toList.1 hs)).isToken

theorem shape?_written {raw : Option (List Char)}
    (hraw : dashed? (behind f.description f.values) = some raw) :
    shape? f.written.toList = some
      { name := f.name.toList
        sample := f.sample.map String.toList
        attributes := commaSeparated (f.typeText.toList :: f.flagTokens)
        description := raw } := by
  have hname : ∀ c ∈ f.name.toList, isNameChar c = true := fun c hc =>
    isNameChar_iff.2 (hf.name c hc)
  have hne : f.name.toList.isEmpty = false := by simpa using hf.name_ne
  have hparts := parenthesized?_parenthesized hf.isToken_of_mem_tokens hraw
  have hspace : ∀ c, (quoted f.sample ++ ' ' :: parenthesized (f.typeText.toList :: f.flagTokens)
      (behind f.description f.values)).head? = some c → isNameChar c = false := by
    cases f.sample <;> (rintro c ⟨⟩; decide)
  unfold shape?
  rw [written, String.toList_ofList]
  dsimp only
  rw [takeWhile_append_eq hname hspace, dropWhile_append_eq hname hspace, hne,
    sampled?_quoted hf.sample]
  have hstart (ts : List (List Char)) (behind : List Char) :
      trimStart (' ' :: parenthesized ts behind) = parenthesized ts behind := rfl
  rw [if_neg Bool.false_ne_true, Option.bind_eq_bind, Option.bind_some, hstart, hparts]
  rfl

theorem trim_written : trim f.written.toList = f.written.toList := by
  rw [written, String.toList_ofList, trim_eq_self_iff]
  constructor
  · intro c hc
    have hne : f.name.toList ≠ [] := by simpa using hf.name_ne
    rw [List.head?_append_of_ne_nil _ hne] at hc
    rcases hf.name c (List.mem_of_head? hc) with hword | rfl | rfl | rfl
    · exact isBlank_of_isWord hword
    all_goals decide
  · intro c hc
    rw [← List.append_assoc, List.getLast?_append_of_ne_nil _ (List.cons_ne_nil _ _),
      ← List.singleton_append, List.getLast?_append_of_ne_nil _ (parenthesized_ne_nil _ _)] at hc
    exact isBlank_of_getLast?_parenthesized
      (fun d hd => isBlank_of_getLast?_behind hf.description hf.values hd) hc

theorem read_written (tag : String) : read tag f.written = .ok f := by
  obtain ⟨raw, hraw, hdescribed⟩ := exists_dashed?_behind hf.description hf.values
  have htokens : tokens (commaSeparated (f.typeText.toList :: f.flagTokens)) =
      f.typeText.toList :: f.flagTokens :=
    tokens_commaSeparated (List.cons_ne_nil _ _) hf.isToken_of_mem_tokens
  have hsupported : (!isSupportedType f.typeName) = false := by
    simpa [isSupportedType] using hf.typeName
  have hsubtype : f.subtype.filter (fun s => s.toList.head? != some '\\' && !isSupportedType s) =
      none := by
    rw [Option.filter_eq_none_iff]
    intro s hs
    rcases hf.subtype s hs with hs | ⟨cs, hcs, -⟩
    · simp [isSupportedType, hs]
    · simp [hcs]
  have hoptions : (f.typeName == "enum" && (f.values.getD []).isEmpty) = false := by
    rw [Bool.and_eq_false_iff, beq_eq_false_iff_ne]
    by_cases henum : f.typeName = "enum"
    · obtain ⟨es, hes, hne⟩ := hf.options henum
      rw [Option.mem_def.1 hes]
      exact Or.inr (by simpa using hne)
    · exact Or.inl henum
  have hchange (o : Option String) : (o.map String.toList).map String.ofList = o := by
    cases o <;> simp
  unfold read
  dsimp only
  rw [hf.trim_written, hf.shape?_written hraw]
  dsimp only
  rw [htokens, List.head?_cons, Option.bind_some, hf.type?_typeText, List.tail_cons,
    hf.flags?_flagTokens]
  dsimp only
  rw [String.ofList_toList, hsupported, hchange, hsubtype]
  change (if (f.typeName == "enum" && ((described raw).2.getD []).isEmpty) = true then _ else
    Except.ok { f with
      name := String.ofList f.name.toList
      sample := (f.sample.map String.toList).map String.ofList
      description := (described raw).1
      values := (described raw).2 }) = _
  rw [hdescribed, if_neg (by simp [hoptions]), String.ofList_toList, hchange]

end Valid

/-- Every field that is read is valid, and the text of a valid field is read as that field. -/
theorem text_round_trips (tag : String) (f : Field) :
    (∀ content, read tag content = .ok f → f.Valid) ∧ (f.Valid → read tag f.written = .ok f) :=
  ⟨fun _ h => valid_of_read h, fun h => h.read_written tag⟩

/-- An enumeration whose description starts as a heading does. -/
def rating : Field :=
  { name := "film.rating"
    sample := some "PG"
    typeName := "enum"
    nullable := true
    capability := some "RATE"
    description := some "+ Members only"
    values := some [("G", ""), ("PG", "With a parent")] }

def looseRating : String :=
  "film.rating  `PG`(enum,optional,RATE ,nullable) -+ Members only\n+Members\n" ++
    "- `PG` -With a\n  parent\n- `G`"

theorem text_round_trips_rating :
    read "api-data" looseRating = .ok rating ∧ rating.Valid ∧
      rating.written = "film.rating `PG` (enum, nullable, RATE) - + Members only\n" ++
        "  + Members\n    - `G`\n    - `PG` - With a parent" ∧
      read "api-data" rating.written = .ok rating := by
  have hround := text_round_trips "api-data" rating
  have hread : read "api-data" looseRating = .ok rating := by decide +kernel
  have hvalid := hround.1 looseRating hread
  exact ⟨hread, hvalid, by decide +kernel, hround.2 hvalid⟩

end VersionedApi.Field
