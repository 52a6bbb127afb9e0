import VersionedApi.Proofs.Shorthand
import VersionedApi.Proofs.Version.Written
import VersionedApi.Response

/-!
# Responses read back from their shorthands

* `Response.Valid` : the responses that can be written under a registry;
* `Response.read_eq_ok` : what a reading takes from a shorthand; `valid_of_read` : the response is
  valid;
* `Response.written` : the shorthand of a response; `Valid.extras_parts` : the registry tells what a
  third token alone is; `Valid.read_written` : so a valid response is read back;
* `Response.read_round_trips` : both together.
-/

namespace VersionedApi.Response

open VersionedApi.Text

/-- Responses that a registry allows to write: the optional tokens can stand between commas, those
behind the representation do not stand without it, and the registry tells a capability without an
error code from an error code without a capability. -/
structure Valid (registry : Registry) (r : Response) : Prop where
  le_code : 100 ≤ r.code
  code_le : r.code ≤ 599
  representation : ∀ s ∈ r.representation, IsToken s.toList
  errorCode : ∀ s ∈ r.errorCode, IsToken s.toList
  capability : ∀ s ∈ r.capability, IsToken s.toList
  based : r.errorCode.isSome = true ∨ r.capability.isSome = true →
    r.representation.isSome = true
  registered : r.errorCode = none → ∀ s ∈ r.capability, registry.hasCapability s = true
  unregistered : r.capability = none → ∀ s ∈ r.errorCode, registry.hasCapability s = false
  description : ∀ s ∈ r.description, IsLine s

/-! ## What is read is valid -/

/-- What stands behind the representation is among the tokens there, and the registry has decided
what a token alone is. -/
theorem extras_spec (registry : Registry) (ts : List (List Char)) :
    (∀ s ∈ (extras registry ts).1, s.toList ∈ ts) ∧
    (∀ s ∈ (extras registry ts).2, s.toList ∈ ts) ∧
    ((extras registry ts).1 = none →
      ∀ s ∈ (extras registry ts).2, registry.hasCapability s = true) ∧
    ((extras registry ts).2 = none →
      ∀ s ∈ (extras registry ts).1, registry.hasCapability s = false) := by
  match ts with
  | [] => simp [extras]
  | [third] =>
    cases hregistered : registry.hasCapability (String.ofList third) <;>
      simp [extras, hregistered]
  | third :: fourth :: rest => simp [extras]

theorem read_eq_ok {registry : Registry} {tag content : String} {r : Response}
    (h : read registry tag content = .ok r) :
    ∃ (parts : List (List Char)) (description : Option (List Char)) (code : Nat),
      (∀ t ∈ parts, IsToken t) ∧ parts.length ≤ 4 ∧ parts.head?.bind code? = some code ∧
      r = { code
            representation := parts[1]?.map String.ofList
            errorCode := (extras registry (parts.drop 2)).1
            capability := (extras registry (parts.drop 2)).2
            description := description.bind collapsed? } := by
  unfold read at h
  dsimp only at h
  split at h
  · cases h
  · rename_i inner description hparenthesized
    obtain ⟨rest, -, hparen, -⟩ := Field.parenthesized?_eq_some_iff.1 hparenthesized
    split at h
    · cases h
    · rename_i hparts
      rw [Bool.or_eq_true, decide_eq_true_eq, List.any_eq_true] at hparts
      split at h
      · cases h
      · rename_i code hcode
        refine ⟨tokens inner, description, code, fun t ht => ?_, by omega, hcode, ?_⟩
        · refine isToken_of_mem_tokens ht (fun hnil => hparts (Or.inr ⟨t, ht, ?_⟩)) hparen
          rw [hnil]
          rfl
        · cases h
          rfl

theorem code_of_head {parts : List (List Char)} {code : Nat}
    (h : parts.head?.bind code? = some code) : 100 ≤ code ∧ code ≤ 599 := by
  obtain ⟨token, -, htoken⟩ := Option.bind_eq_some_iff.1 h
  have hrange := (Option.filter_eq_some_iff.1 htoken).2
  simpa using hrange

theorem valid_of_read {registry : Registry} {tag content : String} {r : Response}
    (h : read registry tag content = .ok r) : r.Valid registry := by
  obtain ⟨parts, description, code, htokens, hlength, hcode, rfl⟩ := read_eq_ok h
  obtain ⟨herror, hcapability, hregistered, hunregistered⟩ := extras_spec registry (parts.drop 2)
  refine ⟨(code_of_head hcode).1, (code_of_head hcode).2, ?_,
    fun s hs => htokens _ (List.mem_of_mem_drop (herror s hs)),
    fun s hs => htokens _ (List.mem_of_mem_drop (hcapability s hs)), ?_,
    hregistered, hunregistered, ?_⟩
  · intro s hs
    obtain ⟨token, htoken, rfl⟩ := Option.map_eq_some_iff.1 hs
    rw [String.toList_ofList]
    exact htokens token (List.mem_of_getElem? htoken)
  · intro hextra
    have hdrop : ∃ token, token ∈ parts.drop 2 := by
      rcases hextra with hextra | hextra <;> obtain ⟨s, hs⟩ := Option.isSome_iff_exists.1 hextra
      · exact ⟨_, herror s hs⟩
      · exact ⟨_, hcapability s hs⟩
    obtain ⟨token, htoken⟩ := hdrop
    have hlong := List.length_pos_of_mem htoken
    rw [List.length_drop] at hlong
    have hsecond : 1 < parts.length := by omega
    simp [hsecond]
  · intro s hs
    obtain ⟨text, -, hs⟩ := Option.bind_eq_some_iff.1 hs
    exact isLine_of_collapsed? hs

/-! ## What is valid is read back -/

def parts (r : Response) : List (List Char) :=
  digits r.code ::
    (r.representation.toList ++ r.errorCode.toList ++ r.capability.toList).map String.toList

def written (r : Response) : String :=
  String.ofList (Field.parenthesized r.parts (Field.dashedLine r.description))

theorem isToken_digits (n : Nat) : IsToken (digits n) where
  ne_nil := Nat.toDigits_ne_nil
  trimmed := trim_eq_self fun c hc => isBlank_of_mem_digits hc
  comma hmem := absurd (isAsciiDigit_of_mem_digits hmem) (by decide)
  paren hmem := absurd (isAsciiDigit_of_mem_digits hmem) (by decide)

theorem code?_digits {n : Nat} (hle : 100 ≤ n) (hle' : n ≤ 599) : code? (digits n) = some n := by
  rw [code?, natural?_digits (by omega)]
  simp [hle, hle']

namespace Valid

variable {registry : Registry} {r : Response} (hr : r.Valid registry)
include hr

theorem isToken_of_mem_parts : ∀ t ∈ r.parts, IsToken t := by
  intro t ht
  rcases List.mem_cons.1 ht with rfl | ht
  · exact isToken_digits r.code
  · obtain ⟨s, hs, rfl⟩ := List.mem_map.1 ht
    simp only [List.mem_append, Option.mem_toList] at hs
    rcases hs with (hs | hs) | hs
    · exact hr.representation s hs
    · exact hr.errorCode s hs
    · exact hr.capability s hs

theorem extras_of_none (h : r.representation = none) : r.errorCode = none ∧ r.capability = none := by
  have hbased := hr.based
  rw [h] at hbased
  simpa using hbased

/-- Each token stands in the place where its reader looks for it. -/
theorem extras_parts : extras registry (r.parts.drop 2) = (r.errorCode, r.capability) := by
  unfold parts
  cases hrep : r.representation with
  | none =>
    rw [(hr.extras_of_none hrep).1, (hr.extras_of_none hrep).2]
    rfl
  | some rep =>
    cases herror : r.errorCode with
    | none =>
      cases hcapability : r.capability with
      | none => rfl
      | some capability =>
        have hcap := hr.registered herror capability hcapability
        simp [extras, hcap]
    | some error =>
      cases hcapability : r.capability with
      | none =>
        have hcap := hr.unregistered hcapability error herror
        simp [extras, hcap]
      | some capability => simp [extras]

theorem representation_parts : r.parts[1]?.map String.ofList = r.representation := by
  unfold parts
  cases hrep : r.representation with
  | none =>
    rw [(hr.extras_of_none hrep).1, (hr.extras_of_none hrep).2]
    rfl
  | some rep => simp

omit hr in
theorem length_parts : r.parts.length ≤ 4 := by
  have hlength (o : Option String) : o.toList.length ≤ 1 := by cases o <;> simp
  have h₁ := hlength r.representation
  have h₂ := hlength r.errorCode
  have h₃ := hlength r.capability
  simp only [parts, List.length_cons, List.length_map, List.length_append]
  omega

theorem trim_written : trim r.written.toList = r.written.toList := by
  rw [written, String.toList_ofList, trim_eq_self_iff]
  constructor
  · intro c hc
    cases hc
    decide
  · intro c hc
    exact Field.isBlank_of_getLast?_parenthesized
      (fun d hd => Field.isBlank_of_getLast?_dashedLine hr.description hd) hc

theorem read_written (tag : String) : read registry tag r.written = .ok r := by
  have htokens := hr.isToken_of_mem_parts
  obtain ⟨raw, hraw, hdescription⟩ := Field.exists_dashed?_dashedLine hr.description
  have hshape : Field.parenthesized? (trim r.written.toList) =
      some (commaSeparated r.parts, raw) := by
    rw [hr.trim_written, written, String.toList_ofList]
    exact Field.parenthesized?_parenthesized htokens hraw
  have hparts : tokens (commaSeparated r.parts) = r.parts :=
    tokens_commaSeparated (List.cons_ne_nil _ _) htokens
  have hproper : ¬ (4 < r.parts.length || r.parts.any List.isEmpty) = true := by
    rw [Bool.or_eq_true, decide_eq_true_eq, List.any_eq_true]
    rintro (hlong | ⟨t, ht, hempty⟩)
    · have hlength : r.parts.length ≤ 4 := length_parts
      omega
    · exact (htokens t ht).ne_nil (List.isEmpty_iff.1 hempty)
  have hcode : r.parts.head?.bind code? = some r.code := code?_digits hr.le_code hr.code_le
  unfold read
  dsimp only
  rw [hshape]
  dsimp only
  rw [hparts, if_neg hproper, hcode]
  dsimp only
  rw [hr.extras_parts, hr.representation_parts, hdescription]

end Valid

/-- Every response that is read is valid, and the shorthand of a valid response is read as that
response. -/
theorem read_round_trips (registry : Registry) (tag : String) (r : Response) :
    (∀ content, read registry tag content = .ok r → r.Valid registry) ∧
      (r.Valid registry → read registry tag r.written = .ok r) :=
  ⟨fun _ h => valid_of_read h, fun h => h.read_written tag⟩

/-- A response whose third token is a capability, with no error code. -/
def soldOut : Response :=
  { code := 403
    representation := some "\\Error"
    capability := some "BUY_TICKETS"
    description := some "Sold out for tonight." }

theorem read_round_trips_soldOut :
    read (.ofNames ["BUY_TICKETS"] []) "api-error"
        " ( 403,\\Error ,BUY_TICKETS ) -Sold out\n   for tonight. " = .ok soldOut ∧
      soldOut.Valid (.ofNames ["BUY_TICKETS"] []) ∧
      soldOut.written = "(403, \\Error, BUY_TICKETS) - Sold out for tonight." ∧
      read (.ofNames ["BUY_TICKETS"] []) "api-error" soldOut.written = .ok soldOut := by
  have hround := read_round_trips (.ofNames ["BUY_TICKETS"] []) "api-error" soldOut
  have hread : read (.ofNames ["BUY_TICKETS"] []) "api-error"
      " ( 403,\\Error ,BUY_TICKETS ) -Sold out\n   for tonight. " = .ok soldOut := by
    decide +kernel
  have hvalid := hround.1 _ hread
  exact ⟨hread, hvalid, by decide +kernel, hround.2 hvalid⟩

end VersionedApi.Response
