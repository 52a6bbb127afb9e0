import Mathlib.Data.String.Basic
import VersionedApi.Proofs.Shorthand
import VersionedApi.Proofs.SortedMap

/-!
# Descriptions and the members below them

* `IsHeading` : a line that heads a list of members; `afterHeading?_eq_some_iff` : what stands behind
  its plus sign;
* `cutMembers_blanks`, `cutMembers_line`, `exists_of_cutMembers` : where a heading is found, what is
  passed over, and what stands before it;
* `IsDescription`, `isDescription_of_describe`, `describe_line` : a description is never a heading, and
  any other line describes itself;
* `IsMembers`, `isMembers_members`, `members_memberLines` : members are read in order from their lines,
  and read back from the lines that are written for them;
* `exists_dashed?_behind` : so are a description and the members below it.
-/

namespace VersionedApi.Field

open VersionedApi.Text

/-! ## Headings -/

/-- A line that heads a list of members: a plus sign and the word `Members`. -/
def IsHeading (cs : List Char) : Prop :=
  ∃ gap, (∀ c ∈ gap, isBlank c = true) ∧ cs = '+' :: (gap ++ "Members".toList)

/-- Nothing but blanks stands in what is left of a line. -/
def EndsLine (cs : List Char) : Prop :=
  '\n' ∈ cs.takeWhile isBlank ∨ ∀ c ∈ cs, isBlank c = true

theorem endsLine_iff (cs : List Char) : EndsLine cs ↔
    ((cs.takeWhile isBlank).contains '\n' || (cs.takeWhile isBlank).length == cs.length) = true := by
  have hlength : (cs.takeWhile isBlank).length = cs.length ↔ ∀ c ∈ cs, isBlank c = true := by
    rw [← List.takeWhile_eq_self_iff]
    exact ⟨fun h => (List.takeWhile_prefix isBlank).eq_of_length h, fun h => by rw [h]⟩
  rw [Bool.or_eq_true, List.contains_iff_mem, beq_iff_eq, hlength]
  rfl

theorem afterHeading?_eq_some_iff {cs rest : List Char} : afterHeading? cs = some rest ↔
    EndsLine rest ∧ ∃ gap, (∀ c ∈ gap, isBlank c = true) ∧
      cs = gap ++ ("Members".toList ++ rest) := by
  unfold afterHeading?
  dsimp only
  constructor
  · intro h
    obtain ⟨behind, hafter, hends⟩ := Option.bind_eq_some_iff.1 h
    split at hends
    · rename_i hcondition
      cases hends
      refine ⟨(endsLine_iff _).2 hcondition, cs.takeWhile isBlank,
        fun c hc => List.mem_takeWhile_imp hc, ?_⟩
      rw [← after?_eq_some_iff.1 hafter]
      exact List.takeWhile_append_dropWhile.symm
    · cases hends
  · rintro ⟨hends, gap, hgap, rfl⟩
    have hstart : trimStart (gap ++ ("Members".toList ++ rest)) = "Members".toList ++ rest :=
      dropWhile_append_eq hgap (by rintro c ⟨⟩; decide)
    rw [hstart, after?_eq_some_iff.2 rfl, Option.bind_some, if_pos ((endsLine_iff rest).1 hends)]

/-! ## The first heading -/

theorem cutMembers_blanks {blanks cs rest : List Char} (hblanks : ∀ c ∈ blanks, isBlank c = true)
    (h : afterHeading? cs = some rest) :
    cutMembers true (blanks ++ '+' :: cs) = some (blanks, rest) := by
  induction blanks with
  | nil => simp [cutMembers, h]
  | cons b blanks ih =>
    have hb := hblanks b List.mem_cons_self
    have hplus : (b == '+') = false := by
      rw [beq_eq_false_iff_ne]
      rintro rfl
      exact absurd hb (by decide)
    have hrest := ih fun c hc => hblanks c (List.mem_cons_of_mem b hc)
    simp [cutMembers, hplus, hb, hrest]

theorem cutMembers_line {line : List Char} (tail : List Char) (h : '\n' ∉ line) :
    cutMembers false (line ++ tail) =
      (cutMembers false tail).map fun (before, rest) => (line ++ before, rest) := by
  induction line with
  | nil => simp
  | cons c line ih =>
    have hc : (c == '\n') = false := by
      rw [beq_eq_false_iff_ne]
      rintro rfl
      exact h List.mem_cons_self
    have hline := ih fun hmem => h (List.mem_cons_of_mem c hmem)
    simp [cutMembers, hc, hline, Function.comp_def]

/-- Before the first heading stand blanks from the start, or from a line feed on. -/
theorem exists_of_cutMembers {fresh : Bool} {cs before rest : List Char}
    (h : cutMembers fresh cs = some (before, rest)) :
    (∃ tail, cs = before ++ '+' :: tail ∧ afterHeading? tail = some rest) ∧
      ((fresh = true ∧ ∀ c ∈ before, isBlank c = true) ∨
        ∃ front blanks, before = front ++ '\n' :: blanks ∧ ∀ c ∈ blanks, isBlank c = true) := by
  induction cs generalizing fresh before with
  | nil => cases h
  | cons c cs ih =>
    rw [cutMembers] at h
    split at h
    · rename_i found hfound
      cases h
      split at hfound
      · rename_i hplus
        rw [Bool.and_eq_true, beq_iff_eq] at hplus
        exact ⟨⟨cs, by rw [hplus.2]; rfl, hfound⟩, Or.inl ⟨hplus.1, by simp⟩⟩
      · cases hfound
    · obtain ⟨⟨before', rest'⟩, hcut, heq⟩ := Option.map_eq_some_iff.1 h
      cases heq
      obtain ⟨⟨tail, hcs, htail⟩, hbefore⟩ := ih hcut
      refine ⟨⟨tail, by rw [hcs]; rfl, htail⟩, ?_⟩
      rcases hbefore with ⟨hfresh, hblank⟩ | ⟨front, blanks, rfl, hblank⟩
      · rw [Bool.or_eq_true, Bool.and_eq_true, beq_iff_eq] at hfresh
        rcases hfresh with rfl | ⟨hfresh, hc⟩
        · exact Or.inr ⟨[], before', rfl, hblank⟩
        · exact Or.inl ⟨hfresh, List.forall_mem_cons.2 ⟨hc, hblank⟩⟩
      · exact Or.inr ⟨c :: front, blanks, rfl, hblank⟩

/-! ## Descriptions are no headings -/

theorem IsHeading.words {d : List Char} (h : IsHeading d) :
    words d = ["+Members".toList] ∨ words d = [['+'], "Members".toList] := by
  obtain ⟨gap, hgap, rfl⟩ := h
  cases gap with
  | nil => exact Or.inl (by decide)
  | cons b gap =>
    right
    have hword : Text.words "Members".toList = ["Members".toList] := by decide
    have hsplit := words_append_cons (hgap b List.mem_cons_self) ['+'] (gap ++ "Members".toList)
    rw [words_blanks_append fun c hc => hgap c (List.mem_cons_of_mem b hc), hword] at hsplit
    exact hsplit

theorem isBlank_of_words_eq_nil {cs : List Char} (h : words cs = []) :
    ∀ c ∈ cs, isBlank c = true := by
  rcases words_cases cs with ⟨hblank, -⟩ | ⟨blanks, w, rest, -, -, -, hwords⟩
  · exact hblank
  · rw [h] at hwords
    cases hwords

theorem exists_heading_of_words {cs d : List Char} (hd : IsHeading d) (h : words cs = words d) :
    ∃ before gap behind, (∀ c ∈ before, isBlank c = true) ∧ (∀ c ∈ gap, isBlank c = true) ∧
      (∀ c ∈ behind, isBlank c = true) ∧
        cs = before ++ '+' :: (gap ++ ("Members".toList ++ behind)) := by
  rcases words_cases cs with ⟨-, hnone⟩ | ⟨before, w, rest, hbefore, -, hcs, hwords⟩
  · rw [hnone] at h
    rcases hd.words with hd | hd <;> rw [hd] at h <;> cases h
  · rw [hwords] at h
    rcases hd.words with hd | hd <;> rw [hd] at h <;> obtain ⟨rfl, hrest⟩ := List.cons.inj h
    · exact ⟨before, [], rest, hbefore, by simp, isBlank_of_words_eq_nil hrest, hcs⟩
    · rcases words_cases rest with ⟨-, hnone⟩ | ⟨gap, v, behind, hgap, -, rfl, hwords⟩
      · rw [hnone] at hrest
        cases hrest
      · rw [hwords] at hrest
        obtain ⟨rfl, hbehind⟩ := List.cons.inj hrest
        exact ⟨before, gap, behind, hbefore, hgap, isBlank_of_words_eq_nil hbehind, hcs⟩

theorem words_of_collapsed? {cs : List Char} {d : String} (h : collapsed? cs = some d) :
    words cs = words d.toList := by
  unfold collapsed? at h
  dsimp only at h
  split at h
  · cases h
  · cases h
    rw [String.toList_ofList, words_collapse]

theorem not_isHeading_of_none {cs : List Char} {d : String} (h : cutMembers true cs = none)
    (hd : collapsed? cs = some d) : ¬ IsHeading d.toList := by
  intro hheading
  obtain ⟨before, gap, behind, hbefore, hgap, hbehind, rfl⟩ :=
    exists_heading_of_words hheading (words_of_collapsed? hd)
  rw [cutMembers_blanks hbefore (afterHeading?_eq_some_iff.2 ⟨Or.inr hbehind, gap, hgap, rfl⟩)] at h
  cases h

/-- Blanks from the last line feed on stand behind whatever else there is. -/
theorem feed_mem_of_append_eq {front blanks xs behind : List Char} {c : Char}
    (hblanks : ∀ b ∈ blanks, isBlank b = true) (hc : isBlank c = false)
    (h : front ++ '\n' :: blanks = xs ++ c :: behind) : '\n' ∈ behind := by
  have hfeed : '\n' :: blanks <:+ xs ++ c :: behind := ⟨front, h⟩
  rcases List.suffix_or_suffix_of_suffix hfeed (List.suffix_append xs (c :: behind)) with hs | hs
  · rcases List.mem_cons.1 (hs.subset List.mem_cons_self) with rfl | hmem
    · exact absurd hc (by decide)
    · exact hmem
  · rcases List.mem_cons.1 (hs.subset List.mem_cons_self) with rfl | hmem
    · exact absurd hc (by decide)
    · rw [hblanks c hmem] at hc
      cases hc

/-- Nor does what stands before the first heading: it would have been the first one. -/
theorem not_isHeading_of_some {cs text block : List Char} {d : String}
    (h : cutMembers true cs = some (text, block)) (hd : collapsed? text = some d) :
    ¬ IsHeading d.toList := by
  intro hheading
  obtain ⟨before, gap, behind, hbefore, hgap, hbehind, rfl⟩ :=
    exists_heading_of_words hheading (words_of_collapsed? hd)
  obtain ⟨⟨tail, rfl, -⟩, hfresh⟩ := exists_of_cutMembers h
  rcases hfresh with ⟨-, hblank⟩ | ⟨front, blanks, hfront, hblanks⟩
  · exact absurd (hblank '+' (by simp)) (by decide)
  · have hsplit : front ++ '\n' :: blanks =
        before ++ '+' :: (gap ++ "Member".toList) ++ 's' :: behind := by
      rw [← hfront]
      simp
    have hfeed : '\n' ∈ behind := feed_mem_of_append_eq hblanks (by decide) hsplit
    have hends : EndsLine (behind ++ '+' :: tail) := by
      left
      rwa [takeWhile_append_eq hbehind (by rintro c ⟨⟩; decide)]
    have hfound := cutMembers_blanks hbefore (afterHeading?_eq_some_iff.2 ⟨hends, gap, hgap, rfl⟩)
    have hshape : before ++ '+' :: (gap ++ ("Members".toList ++ (behind ++ '+' :: tail))) =
        before ++ '+' :: (gap ++ ("Members".toList ++ behind)) ++ '+' :: tail := by simp
    rw [hshape, h] at hfound
    have hshort := congrArg List.length (Prod.mk.inj (Option.some.inj hfound)).1
    simp only [List.length_append, List.length_cons] at hshort
    omega

/-! ## Descriptions as they are written -/

/-- What may stand as the description of a field: a line that is not taken for a heading. -/
structure IsDescription (d : String) : Prop extends IsLine d where
  not_heading : ¬ IsHeading d.toList

theorem not_endsLine {cs tail : List Char} {c : Char} (hc : c ∈ cs) (hblank : isBlank c = false)
    (hfeed : '\n' ∉ cs) : ¬ EndsLine (cs ++ tail) := by
  rintro (hmem | hall)
  · have hrun : (cs ++ tail).takeWhile isBlank <+: cs ++ tail := List.takeWhile_prefix isBlank
    rcases List.prefix_or_prefix_of_prefix hrun (List.prefix_append cs tail) with hp | hp
    · exact hfeed (hp.subset hmem)
    · have htrue := List.mem_takeWhile_imp (hp.subset hc)
      rw [hblank] at htrue
      cases htrue
  · rw [hall c (List.mem_append_left tail hc)] at hblank
    cases hblank

/-- A line that starts with a plus sign and is no heading is not taken for one. What follows it is on
another line, where the word of a heading does not stand. -/
theorem afterHeading?_eq_none {line tail : List Char} (htrim : trim ('+' :: line) = '+' :: line)
    (hfeed : '\n' ∉ line) (hheading : ¬ IsHeading ('+' :: line))
    (htail : ∀ c, tail.head? = some c → c = '\n')
    (hnext : ∀ c, (trimStart tail).head? = some c → c = '+') :
    afterHeading? (line ++ tail) = none := by
  rw [Option.eq_none_iff_forall_ne_some]
  intro rest hrest
  obtain ⟨hends, gap, hgap, hsplit⟩ := afterHeading?_eq_some_iff.1 hrest
  rcases List.append_eq_append_iff.1 hsplit with ⟨a, hgap', htail'⟩ | ⟨a, rfl, hrest'⟩
  · -- the word would stand in `tail`
    have ha : ∀ c ∈ a, isBlank c = true := fun c hc => hgap c (by rw [hgap']; simp [hc])
    rw [htail', trimStart, dropWhile_append_eq ha (by rintro c ⟨⟩; decide)] at hnext
    exact absurd (hnext 'M' rfl) (by decide)
  · rcases List.append_eq_append_iff.1 hrest' with ⟨b, rfl, rfl⟩ | ⟨b, hword, htail'⟩
    · -- something that is not blank would stand behind the word on its line
      cases hb : b.getLast? with
      | none =>
        rw [List.getLast?_eq_none_iff.1 hb, List.append_nil] at hheading
        exact hheading ⟨gap, hgap, rfl⟩
      | some c =>
        have hc : isBlank c = false := by
          refine (trim_eq_self_iff.1 htrim).2 c ?_
          rw [← List.append_assoc, ← List.cons_append, List.getLast?_append, hb, Option.some_or]
        have hmem : c ∈ b := List.mem_of_getLast? hb
        refine not_endsLine hmem hc (fun hmem => hfeed ?_) hends
        simp [hmem]
    · cases b with
      | nil =>
        rw [List.append_nil] at hword
        exact hheading ⟨gap, hgap, by rw [hword]⟩
      | cons c b =>
        have hc : c = '\n' := htail c (by rw [htail']; rfl)
        have hmem : '\n' ∈ "Members".toList := by
          rw [hword, hc]
          simp
        exact absurd hmem (by decide)

/-- A description is passed over, whatever it starts with. -/
theorem cutMembers_description {d : String} (hd : IsDescription d) {tail : List Char}
    (htail : ∀ c, tail.head? = some c → c = '\n')
    (hnext : ∀ c, (trimStart tail).head? = some c → c = '+') :
    cutMembers true (d.toList ++ tail) =
      (cutMembers false tail).map fun (before, rest) => (d.toList ++ before, rest) := by
  have htrim := hd.trimmed
  have hfeed := hd.feed
  have hheading := hd.not_heading
  have hne : d.toList ≠ [] := by simpa using hd.ne_empty
  obtain ⟨c, line, hline⟩ := List.exists_cons_of_ne_nil hne
  rw [hline] at htrim hfeed hheading ⊢
  have hblank : isBlank c = false := (trim_eq_self_iff.1 htrim).1 c rfl
  have hc : (c == '\n') = false := by
    rw [beq_eq_false_iff_ne]
    rintro rfl
    exact hfeed List.mem_cons_self
  have hrest : '\n' ∉ line := fun hmem => hfeed (List.mem_cons_of_mem c hmem)
  have hplus : (if true && c == '+' then afterHeading? (line ++ tail) else none) = none := by
    split
    · rename_i hplus
      rw [Bool.true_and, beq_iff_eq] at hplus
      subst hplus
      exact afterHeading?_eq_none htrim hrest hheading htail hnext
    · rfl
  rw [List.cons_append, cutMembers, hplus]
  dsimp only
  rw [hc, hblank, Bool.and_false, Bool.or_false, cutMembers_line tail hrest, Option.map_map]
  rfl

theorem describe_line {d : String} (hd : IsDescription d) : describe d.toList = (some d, none) := by
  have hcut : cutMembers true (d.toList ++ []) = none :=
    cutMembers_description hd (by simp) (by simp [trimStart])
  rw [List.append_nil] at hcut
  unfold describe
  rw [hcut, collapsed?_of_trim hd.toIsLine hd.trimmed]

/-! ## Members -/

/-- An option of a list of members and its description. -/
structure IsMember (e : String × String) : Prop where
  quote : '\x60' ∉ e.1.toList
  line : '\n' ∉ e.1.toList
  trimmed : trim e.2.toList = e.2.toList
  feed : '\n' ∉ e.2.toList

/-- Members in the order of their options, each option once. -/
structure IsMembers (es : List (String × String)) : Prop where
  isMember : ∀ e ∈ es, IsMember e
  sorted : es.Pairwise fun d e => d.1 < e.1

theorem mem_of_member? {line option text : List Char} (h : member? line = some (option, text)) :
    '\x60' ∉ option ∧ ∀ c ∈ option, c ∈ line := by
  unfold member? at h
  split at h
  · rename_i rest hdash
    split at h
    · rename_i quoted hquote
      obtain ⟨⟨option', behind⟩, hcut, h⟩ := Option.bind_eq_some_iff.1 h
      have hoption : option' = option := by
        dsimp only at h
        split at h <;> cases h <;> rfl
      subst hoption
      obtain ⟨hnot, rfl⟩ := cutAt_mark_eq_some_iff.1 hcut
      refine ⟨hnot, fun c hc => ?_⟩
      have hrest : c ∈ rest := mem_of_mem_trimStart (by rw [hquote]; simp [hc])
      exact mem_of_mem_trimStart (by rw [hdash]; exact List.mem_cons_of_mem '-' hrest)
    · cases h
  · cases h

theorem of_mem_membersFrom {p : List Char → Prop} {current : Option (List Char × List Char)}
    {ls : List (List Char)} (hcurrent : ∀ m ∈ current, p m.1)
    (hls : ∀ l ∈ ls, ∀ m, member? l = some m → p m.1) :
    ∀ m ∈ membersFrom current ls, p m.1 := by
  induction ls generalizing current with
  | nil =>
    intro m hm
    exact hcurrent m (Option.mem_toList.1 hm)
  | cons l ls ih =>
    have hrest : ∀ k ∈ ls, ∀ m, member? k = some m → p m.1 := fun k hk =>
      hls k (List.mem_cons_of_mem l hk)
    intro m hm
    rw [membersFrom] at hm
    split at hm
    · rename_i next hnext
      rcases List.mem_append.1 hm with hm | hm
      · exact hcurrent m (Option.mem_toList.1 hm)
      · refine ih (fun m' hm' => ?_) hrest m hm
        cases hm'
        exact hls l List.mem_cons_self next hnext
    · split at hm
      · exact ih hcurrent hrest m hm
      · refine ih (fun m' hm' => ?_) hrest m hm
        obtain ⟨m'', hm'', rfl⟩ := Option.map_eq_some_iff.1 hm'
        exact hcurrent m'' hm''

theorem isMembers_members (block : List Char) : IsMembers (members block) where
  isMember e he := by
    have hmem := SortedMap.mem_of_mem_ofList compares_lt he
    obtain ⟨⟨option, text⟩, hm, rfl⟩ := List.mem_map.1 hmem
    have hlines : ∀ l ∈ lines block, ∀ m, member? l = some m →
        '\x60' ∉ m.1 ∧ '\n' ∉ m.1 := by
      intro l hl m hm
      obtain ⟨hquote, hline⟩ := mem_of_member? hm
      exact ⟨hquote, fun hfeed => not_feed_of_mem_lines hl (hline _ hfeed)⟩
    obtain ⟨hquote, hline⟩ := of_mem_membersFrom
      (p := fun option => '\x60' ∉ option ∧ '\n' ∉ option) (by simp) hlines _ hm
    constructor
    · rwa [String.toList_ofList]
    · rwa [String.toList_ofList]
    · rw [String.toList_ofList, trim_collapse]
    · rw [String.toList_ofList]
      exact not_feed_of_mem_collapse text
  sorted := SortedMap.pairwise_ofList compares_lt _

/-- What is read from a description is a description, with members in order. -/
theorem isDescription_of_describe {raw : List Char} :
    (∀ d ∈ (describe raw).1, IsDescription d) ∧ ∀ es ∈ (describe raw).2, IsMembers es := by
  unfold describe
  cases hcut : cutMembers true raw with
  | none =>
    exact ⟨fun d hd => ⟨isLine_of_collapsed? hd, not_isHeading_of_none hcut hd⟩, by simp⟩
  | some parts =>
    obtain ⟨text, block⟩ := parts
    refine ⟨fun d hd => ⟨isLine_of_collapsed? hd, not_isHeading_of_some hcut hd⟩, ?_⟩
    rintro es ⟨⟩
    exact isMembers_members block

/-! ## Members as they are written -/

def memberLine (e : String × String) : List Char :=
  [' ', ' ', ' ', ' ', '-', ' ', '\x60'] ++
    (e.1.toList ++ '\x60' :: if e.2 = "" then [] else dashed e.2.toList)

def memberLines (es : List (String × String)) : List Char :=
  es.flatMap fun e => '\n' :: memberLine e

def memberList (es : List (String × String)) : List Char :=
  ['\n', ' ', ' ', '+', ' '] ++ ("Members".toList ++ memberLines es)

theorem isBlank_of_mem_margin : ∀ c ∈ ['\n', ' ', ' '], isBlank c = true :=
  List.all_eq_true.1 (by decide)

namespace IsMember

variable {e : String × String} (he : IsMember e)
include he

theorem member?_memberLine : member? (memberLine e) = some (e.1.toList, e.2.toList) := by
  have hdash (cs : List Char) : trimStart ([' ', ' ', ' ', ' ', '-', ' ', '\x60'] ++ cs) =
      '-' :: ' ' :: '\x60' :: cs := rfl
  have hquote (cs : List Char) : trimStart (' ' :: '\x60' :: cs) = '\x60' :: cs := rfl
  by_cases hempty : e.2 = ""
  · simp only [member?, memberLine, hdash, hquote, cutAt_mark _ he.quote, Option.bind_some, hempty,
      if_pos]
    rfl
  · have hspace : trimStart (' ' :: e.2.toList) = e.2.toList := by
      rw [← he.trimmed]
      exact trimStart_trim e.2.toList
    have hbehind : trimStart (dashed e.2.toList) = '-' :: ' ' :: e.2.toList := rfl
    simp only [member?, memberLine, hdash, hquote, cutAt_mark _ he.quote, Option.bind_some, hempty,
      if_false, hbehind, hspace]

theorem not_feed_memberLine : '\n' ∉ memberLine e := by
  have hbehind : '\n' ∉ (if e.2 = "" then [] else dashed e.2.toList) := by
    split
    · exact List.not_mem_nil
    · simp [dashed, he.feed]
  simp [memberLine, he.line, hbehind]

theorem isBlank_of_getLast?_memberLine {c : Char} (hc : (memberLine e).getLast? = some c) :
    isBlank c = false := by
  rw [memberLine, ← List.append_assoc] at hc
  refine isBlank_of_getLast?_append_cons (by decide) (fun d hd => ?_) hc
  split at hd
  · cases hd
  · rename_i hne
    exact isBlank_of_getLast?_dashed (by simpa using hne) he.trimmed hd

end IsMember

theorem membersFrom_memberLines {es : List (String × String)} (hes : ∀ e ∈ es, IsMember e)
    (current : Option (List Char × List Char)) :
    membersFrom current (es.map memberLine) =
      current.toList ++ es.map fun e => (e.1.toList, e.2.toList) := by
  induction es generalizing current with
  | nil => simp [membersFrom]
  | cons e es ih =>
    have he := (hes e List.mem_cons_self).member?_memberLine
    rw [List.map_cons, membersFrom, he]
    dsimp only
    rw [ih fun d hd => hes d (List.mem_cons_of_mem e hd)]
    rfl

theorem lines_memberLines {es : List (String × String)} (hes : ∀ e ∈ es, IsMember e)
    (hne : es ≠ []) : lines (memberLines es) = [] :: es.map memberLine := by
  have hjoin : memberLines es = joinWith ['\n'] ([] :: es.map memberLine) := by
    rw [joinWith_cons, List.flatMap_map]
    rfl
  rw [hjoin]
  apply lines_joinWith
  · intro l hl
    rcases List.mem_cons.1 hl with rfl | hl
    · exact List.not_mem_nil
    · obtain ⟨e, he, rfl⟩ := List.mem_map.1 hl
      exact (hes e he).not_feed_memberLine
  · intro l hl hreturn
    rcases List.mem_cons.1 hl with rfl | hl
    · cases hreturn
    · obtain ⟨e, he, rfl⟩ := List.mem_map.1 hl
      exact absurd ((hes e he).isBlank_of_getLast?_memberLine hreturn) (by decide)
  · intro hlast
    have hlines : es.map memberLine ≠ [] := by simpa using hne
    rw [← List.singleton_append, List.getLast?_append_of_ne_nil _ hlines] at hlast
    obtain ⟨e, -, he⟩ := List.mem_map.1 (List.mem_of_getLast? hlast)
    cases he

theorem members_memberLines {es : List (String × String)} (hes : IsMembers es) :
    members (memberLines es) = es := by
  have hcollapse : ∀ e ∈ es, (String.ofList e.1.toList, String.ofList (collapse e.2.toList)) = e := by
    intro e he
    have hmember := hes.isMember e he
    have hline : '\n' ∉ trim e.2.toList := by
      rw [hmember.trimmed]
      exact hmember.feed
    rw [collapse_of_line hline, hmember.trimmed, String.ofList_toList, String.ofList_toList]
  by_cases hne : es = []
  · rw [hne]
    rfl
  · have hself := SortedMap.ofList_eq_self compares_lt hes.sorted
    have hskip : membersFrom none ([] :: es.map memberLine) =
        membersFrom none (es.map memberLine) := rfl
    unfold members
    rw [lines_memberLines hes.isMember hne, hskip, membersFrom_memberLines hes.isMember,
      Option.toList_none, List.nil_append, List.map_map]
    exact (congrArg _ ((List.map_congr_left hcollapse).trans (List.map_id es))).trans hself

theorem afterHeading?_memberLines (es : List (String × String)) :
    afterHeading? (' ' :: ("Members".toList ++ memberLines es)) = some (memberLines es) := by
  refine afterHeading?_eq_some_iff.2 ⟨?_, [' '], by simp [isBlank_space], rfl⟩
  cases es with
  | nil => exact Or.inr fun c hc => nomatch hc
  | cons e es =>
    left
    rw [memberLines, List.flatMap_cons, List.cons_append, List.takeWhile_cons_of_pos (by decide)]
    exact List.mem_cons_self

theorem isBlank_of_getLast?_memberLines {es : List (String × String)} (hes : ∀ e ∈ es, IsMember e)
    {c : Char} (hc : (memberLines es).getLast? = some c) : isBlank c = false := by
  rcases List.eq_nil_or_concat' es with rfl | ⟨front, e, rfl⟩
  · cases hc
  · have hne : memberLine e ≠ [] := List.cons_ne_nil _ _
    rw [memberLines, List.flatMap_append, List.flatMap_singleton,
      List.getLast?_append_of_ne_nil _ (List.cons_ne_nil _ _), ← List.singleton_append,
      List.getLast?_append_of_ne_nil _ hne] at hc
    exact (hes e (by simp)).isBlank_of_getLast?_memberLine hc

theorem isBlank_of_getLast?_memberList {es : List (String × String)} (hes : ∀ e ∈ es, IsMember e)
    {c : Char} (hc : (memberList es).getLast? = some c) : isBlank c = false := by
  have hsplit : memberList es =
      ['\n', ' ', ' ', '+', ' '] ++ "Member".toList ++ 's' :: memberLines es := by
    simp [memberList]
  rw [hsplit] at hc
  exact isBlank_of_getLast?_append_cons (by decide)
    (fun d hd => isBlank_of_getLast?_memberLines hes hd) hc

theorem memberList_ne_nil (es : List (String × String)) : memberList es ≠ [] := List.cons_ne_nil _ _

theorem trim_memberList {es : List (String × String)} (hes : ∀ e ∈ es, IsMember e) :
    trim (memberList es) = '+' :: ' ' :: ("Members".toList ++ memberLines es) := by
  have hsplit : memberList es =
      ['\n', ' ', ' '] ++ '+' :: ' ' :: ("Members".toList ++ memberLines es) := rfl
  have hlast : ∀ c, (memberList es).getLast? = some c → isBlank c = false := fun c hc =>
    isBlank_of_getLast?_memberList hes hc
  rw [hsplit, List.getLast?_append_of_ne_nil _ (List.cons_ne_nil _ _)] at hlast
  rw [hsplit, trim_blanks_append isBlank_of_mem_margin, trim_eq_self_iff]
  exact ⟨by rintro c ⟨⟩; decide, hlast⟩

/-- What stands behind the parentheses of a field: a description, or a list of members behind one. -/
def behind (description : Option String) : Option (List (String × String)) → List Char
  | none => dashedLine description
  | some es => [' ', '-'] ++
      ((description.map fun d => ' ' :: d.toList).getD [] ++ memberList es)

def described (raw : Option (List Char)) : Option String × Option (List (String × String)) :=
  match raw with
  | some raw => describe raw
  | none => (none, none)

theorem describe_heading {es : List (String × String)} (hes : IsMembers es) :
    describe ('+' :: ' ' :: ("Members".toList ++ memberLines es)) = (none, some es) := by
  have hcut : cutMembers true ([] ++ '+' :: ' ' :: ("Members".toList ++ memberLines es)) =
      some ([], memberLines es) := cutMembers_blanks (by simp) (afterHeading?_memberLines es)
  unfold describe
  rw [List.nil_append] at hcut
  rw [hcut]
  dsimp only
  rw [members_memberLines hes]
  rfl

theorem describe_memberList {d : String} (hd : IsDescription d) {es : List (String × String)}
    (hes : IsMembers es) : describe (d.toList ++ memberList es) = (some d, some es) := by
  have hfound : cutMembers true ([' ', ' '] ++ '+' :: ' ' :: ("Members".toList ++ memberLines es)) =
      some ([' ', ' '], memberLines es) :=
    cutMembers_blanks (by simp [isBlank_space]) (afterHeading?_memberLines es)
  have hlist : cutMembers false (memberList es) = some (['\n', ' ', ' '], memberLines es) :=
    congrArg (Option.map fun p : List Char × List Char => ('\n' :: p.1, p.2)) hfound
  have hcut : cutMembers true (d.toList ++ memberList es) =
      (cutMembers false (memberList es)).map fun p => (d.toList ++ p.1, p.2) :=
    cutMembers_description hd (by rintro c ⟨⟩; rfl) (by rintro c ⟨⟩; rfl)
  have hline : trim (d.toList ++ ['\n', ' ', ' ']) = d.toList := by
    rw [trim_append_blanks isBlank_of_mem_margin, hd.trimmed]
  unfold describe
  rw [hcut, hlist, Option.map_some]
  dsimp only
  rw [members_memberLines hes, collapsed?_of_trim hd.toIsLine hline]

/-- A description and a list of members are read back from what is written. -/
theorem exists_dashed?_behind {description : Option String}
    {values : Option (List (String × String))} (hd : ∀ d ∈ description, IsDescription d)
    (hes : ∀ es ∈ values, IsMembers es) :
    ∃ raw, dashed? (behind description values) = some raw ∧
      described raw = (description, values) := by
  cases values with
  | none =>
    cases description with
    | none => exact ⟨none, rfl, rfl⟩
    | some d =>
      have hline := hd d rfl
      refine ⟨some (trim d.toList), dashed?_dashed d.toList, ?_⟩
      rw [described, hline.trimmed, describe_line hline]
  | some es =>
    have hmembers := hes es rfl
    cases description with
    | none =>
      refine ⟨some (trim (memberList es)), rfl, ?_⟩
      rw [described, trim_memberList hmembers.isMember, describe_heading hmembers]
    | some d =>
      have hline := hd d rfl
      refine ⟨some (trim ([' '] ++ (d.toList ++ memberList es))), rfl, ?_⟩
      have htrim : trim (d.toList ++ memberList es) = d.toList ++ memberList es := by
        rw [trim_eq_self_iff]
        constructor
        · intro c hc
          rw [List.head?_append_of_ne_nil _ (by simpa using hline.ne_empty)] at hc
          exact (trim_eq_self_iff.1 hline.trimmed).1 c hc
        · intro c hc
          rw [List.getLast?_append_of_ne_nil _ (memberList_ne_nil es)] at hc
          exact isBlank_of_getLast?_memberList hmembers.isMember hc
      rw [described, trim_blanks_append (by simp [isBlank_space]), htrim,
        describe_memberList hline hmembers]

theorem isBlank_of_getLast?_behind {description : Option String}
    {values : Option (List (String × String))} (hd : ∀ d ∈ description, IsDescription d)
    (hes : ∀ es ∈ values, IsMembers es) {c : Char}
    (hc : (behind description values).getLast? = some c) : isBlank c = false := by
  cases values with
  | none => exact isBlank_of_getLast?_dashedLine (fun d h => (hd d h).toIsLine) hc
  | some es =>
    rw [behind, ← List.append_assoc, List.getLast?_append_of_ne_nil _ (memberList_ne_nil es)] at hc
    exact isBlank_of_getLast?_memberList (hes es rfl).isMember hc

end VersionedApi.Field
