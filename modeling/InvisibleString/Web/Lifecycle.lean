import InvisibleString.Compiler.Compile
import InvisibleString.Runtime.EnvNames

/- # `Web.Lifecycle` — what the agent editor says of an agent

An agent that is saved is shown as published or as behind what is published.  The editor tells
by canonical texts of the two definitions, which it writes on its own, and by the slugs of the
name now and at the publish.

**Proved here.**

    the texts are the compiler's, where that has one  (`canonicalJson_of_compiler`)
    an agent is shown as published exactly when the compiler's hash would be taken of the same
      text as at the publish  (`lifecycle_follows_hash`)
-/

namespace InvisibleString.Web

open Checks
open Json (JsString NumberFormat ascii join quote sortBy sortBy_forall₂ stringify)
open Compiler hiding canonicalJson canonicalItems canonicalMembers
open InvisibleString.Runtime (CaseMapping asciiCase slugifyName)

variable {N : Type} (F : NumberFormat N) (U : CaseMapping) (S : SchemaLibrary N)

/-! ## The states -/

mutual

/-- `none` where `JSON.stringify` throws, at a bigint. -/
def canonicalJson : JsValue N → Option JsString
  | .undefined | .null | .nonFinite _ => some (ascii "null")
  | .bool true => some (ascii "true")
  | .bool false => some (ascii "false")
  | .num n => some (F.print n)
  | .str s => some (quote s)
  | .other type => if type = ascii "bigint" then none else some (ascii "null")
  | .arr items => do
    let texts ← canonicalItems items
    some (ascii "[" ++ join (ascii ",") texts ++ ascii "]")
  | .obj members => do
    let entries ← (sortBy Prod.fst (canonicalMembers members)).mapM Prod.snd
    some (ascii "\x7b" ++ join (ascii ",") entries ++ ascii "\x7d")

def canonicalItems : List (JsValue N) → Option (List JsString)
  | [] => some []
  | item :: items => do
    let text ← canonicalJson item
    let texts ← canonicalItems items
    some (text :: texts)

def canonicalMembers : List (JsString × JsValue N) → List (JsString × Option JsString)
  | [] => []
  | (_, .undefined) :: members => canonicalMembers members
  | (key, value) :: members =>
    (key, (canonicalJson value).map fun text => quote key ++ ascii ":" ++ text) ::
      canonicalMembers members

end

def definitionsEquivalent (a b : JsValue N) : Option Bool := do
  let left ← canonicalJson F a
  let right ← canonicalJson F b
  some (decide (left = right))

/-- The slug that the compiler bakes into the artifact. -/
def agentSlugOf (name : JsString) : JsString :=
  if slugifyName U name = [] then ascii "agent" else slugifyName U name

def renamedSincePublish : Option JsString → Option JsString → Bool
  | some currentName, some publishedName =>
    decide (agentSlugOf U currentName ≠ agentSlugOf U publishedName)
  | _, _ => false

inductive AgentLifecycleState where
  | draft | unsaved | unpublished | published

structure AgentLifecycleInput (N : Type) where
  hasUnsavedChanges : Bool
  savedDefinition : JsValue N
  publishedDefinition : Option (JsValue N)
  currentName : Option JsString
  publishedName : Option JsString

def agentLifecycleState (input : AgentLifecycleInput N) : Option AgentLifecycleState :=
  if input.hasUnsavedChanges then some .unsaved
  else
    match input.publishedDefinition with
    | none => some .draft
    | some served =>
      if renamedSincePublish U input.currentName input.publishedName then some .unpublished
      else
        match parseDefinition S served with
        | none => some .published
        | some published => do
          let same ← definitionsEquivalent F input.savedDefinition published.js
          some (if same then .published else .unpublished)

/-- What the compile service resolves, for an agent of this name. -/
def named (deps : CompileDeps N) (name : JsString) : CompileDeps N :=
  { deps with agentSlug := agentSlugOf U name }

/-! ## Two canonical texts -/

theorem mapM_of_ok {l : List (JsString × Except JsString JsString)}
    {l' : List (JsString × Option JsString)} {texts : List JsString}
    (h : List.Forall₂ (fun e e' => e'.1 = e.1 ∧ ∀ text, e.2 = .ok text → e'.2 = some text) l l')
    (hl : l.mapM Prod.snd = .ok texts) : l'.mapM Prod.snd = some texts := by
  induction h generalizing texts with
  | nil =>
    cases hl
    rfl
  | cons he _ ih =>
    obtain ⟨text, rest, htext, hrest, rfl⟩ := mapM_cons_ok hl
    rw [List.mapM_cons, he.2 text htext, ih hrest]
    rfl

mutual

theorem canonicalJson_of_compiler (v : JsValue N) {text : JsString}
    (h : Compiler.canonicalJson F v = .ok text) : canonicalJson F v = some text := by
  cases v with
  | undefined | nonFinite | other => cases h
  | null | num | str => exact congrArg some (Except.ok.inj h)
  | bool b => cases b <;> exact congrArg some (Except.ok.inj h)
  | arr items =>
    rw [Compiler.canonicalJson] at h
    obtain ⟨texts, htexts, h⟩ := bind_eq_ok h
    cases h
    rw [canonicalJson, canonicalItems_of_compiler items htexts]
    rfl
  | obj members =>
    rw [Compiler.canonicalJson] at h
    obtain ⟨entries, hentries, h⟩ := bind_eq_ok h
    cases h
    have hmembers := sortBy_forall₂ (canonicalMembers_of_compiler members) fun _ _ he => he.1
    rw [canonicalJson, mapM_of_ok hmembers hentries]
    rfl

theorem canonicalItems_of_compiler (items : List (JsValue N)) {texts : List JsString}
    (h : Compiler.canonicalItems F items = .ok texts) : canonicalItems F items = some texts := by
  cases items with
  | nil => exact congrArg some (Except.ok.inj h)
  | cons item items =>
    by_cases hu : item = .undefined
    · subst hu
      obtain ⟨rest, hrest, h⟩ := bind_eq_ok h
      cases h
      rw [canonicalItems, canonicalItems_of_compiler items hrest]
      rfl
    · rw [Compiler.canonicalItems_cons F hu] at h
      obtain ⟨text, htext, h⟩ := bind_eq_ok h
      obtain ⟨rest, hrest, h⟩ := bind_eq_ok h
      cases h
      rw [canonicalItems, canonicalJson_of_compiler item htext,
        canonicalItems_of_compiler items hrest]
      rfl

theorem canonicalMembers_of_compiler (members : List (JsString × JsValue N)) :
    List.Forall₂ (fun e e' => e'.1 = e.1 ∧ ∀ text, e.2 = .ok text → e'.2 = some text)
      (Compiler.canonicalMembers F members) (canonicalMembers F members) := by
  cases members with
  | nil => exact .nil
  | cons m members =>
    rcases m with ⟨key, value⟩
    have ih := canonicalMembers_of_compiler members
    by_cases hu : value = .undefined
    · subst hu
      exact ih
    · have hvalue : canonicalMembers F ((key, value) :: members) =
          (key, (canonicalJson F value).map fun text => quote key ++ ascii ":" ++ text) ::
            canonicalMembers F members := by
        cases value with
        | undefined => exact absurd rfl hu
        | null | bool | num | nonFinite | str | other | arr | obj => rfl
      rw [Compiler.canonicalMembers_cons F hu, hvalue]
      refine .cons ⟨rfl, fun text htext => ?_⟩ ih
      cases hv : Compiler.canonicalJson F value with
      | error e =>
        rw [hv] at htext
        cases htext
      | ok t =>
        rw [hv] at htext
        cases htext
        rw [canonicalJson_of_compiler value hv]
        rfl

end

/-! ## The state and the hash -/

section

variable {F} {definition published : AgentDefinition} {saved : JsValue N} {deps : CompileDeps N}
  {text : JsString}

/-- What is hashed holds the definition, so that has a canonical text too. -/
theorem canonical_definition
    (h : Compiler.canonicalJson F (hashInput COMPILER_VERSION (definition, deps)) = .ok text) :
    ∃ t, Compiler.canonicalJson F definition.js = .ok t := by
  obtain ⟨u, hu, -⟩ := canonicalJson_ok F h
  obtain ⟨ms, -, hms⟩ := normalize_obj hu
  obtain ⟨w, -, hw⟩ := (mem_of_normalize_obj hms).mp (mem_normalizeMembers.mpr
    ⟨definition.js, List.mem_cons_of_mem _ (List.mem_cons_of_mem _ List.mem_cons_self), nofun, rfl⟩)
  exact ⟨stringify F w, by rw [Compiler.canonicalJson_eq_stringify, hw]; rfl⟩

theorem definitionsEquivalent_eq {t t' : JsString}
    (ht : Compiler.canonicalJson F definition.js = .ok t)
    (ht' : Compiler.canonicalJson F published.js = .ok t') (hsaved : Same definition.js saved)
    (honce : saved.KeysOnce) :
    definitionsEquivalent F saved published.js = some (decide (t = t')) := by
  have hs := (canonicalJson_eq_iff F (keysOnce_definition definition) honce ht).mpr hsaved
  rw [definitionsEquivalent, canonicalJson_of_compiler F saved hs,
    canonicalJson_of_compiler F _ ht']
  rfl

/-- The hashed texts are the same exactly when the definitions and the slugs are. -/
theorem hashed_eq_iff {name publishedName text' : JsString}
    (h : Compiler.canonicalJson F
      (hashInput COMPILER_VERSION (published, named U deps publishedName)) = .ok text)
    (h' : Compiler.canonicalJson F
      (hashInput COMPILER_VERSION (definition, named U deps name)) = .ok text') :
    text' = text ↔
      agentSlugOf U name = agentSlugOf U publishedName ∧ definition = published := by
  have halike := ((hashInput_eq_iff F h).mp h).2
  have htext : text' = text ↔ published = definition ∧
      (named U deps publishedName).Alike (named U deps name) := by
    rw [← hashInput_eq_iff F h, h', Except.ok.injEq]
  rw [htext]
  constructor
  · rintro ⟨rfl, hnamed⟩
    exact ⟨hnamed.agentSlug.symm, rfl⟩
  · rintro ⟨hslug, rfl⟩
    exact ⟨rfl, { halike with agentSlug := hslug.symm }⟩

end

/-- Nothing unsaved, the state is what a comparison with the hash of the publish would say. -/
theorem lifecycle_follows_hash {definition published : AgentDefinition} {saved served : JsValue N}
    {deps : CompileDeps N} {name publishedName text text' : JsString}
    (hsaved : Same definition.js saved) (honce : saved.KeysOnce)
    (hserved : parseDefinition S served = some published)
    (h : Compiler.canonicalJson F
      (hashInput COMPILER_VERSION (published, named U deps publishedName)) = .ok text)
    (h' : Compiler.canonicalJson F
      (hashInput COMPILER_VERSION (definition, named U deps name)) = .ok text') :
    agentLifecycleState F U S ⟨false, saved, some served, some name, some publishedName⟩ =
      some (if text' = text then .published else .unpublished) := by
  obtain ⟨t, ht⟩ := canonical_definition h'
  obtain ⟨t', ht'⟩ := canonical_definition h
  have hsame : t = t' ↔ definition = published := by
    rw [← same_agentDefinition, ← canonicalJson_eq_iff F (keysOnce_definition definition)
      (keysOnce_definition published) ht, ht', Except.ok.injEq, eq_comm]
  simp only [hashed_eq_iff U h h', ← hsame]
  by_cases hslug : agentSlugOf U name = agentSlugOf U publishedName
  · have hrenamed : renamedSincePublish U (some name) (some publishedName) = false :=
      decide_eq_false (not_not.mpr hslug)
    rw [agentLifecycleState]
    simp [hrenamed, hserved, definitionsEquivalent_eq ht ht' hsaved honce, hslug]
  · have hrenamed : renamedSincePublish U (some name) (some publishedName) = true :=
      decide_eq_true hslug
    rw [agentLifecycleState]
    simp [hrenamed, hslug]

/-- A draft that lists its keys in another order, and a name in capitals. -/
theorem lifecycle_follows_hash_reordered : ∃ saved : JsValue Int,
    agentLifecycleState plainToolchain.numbers asciiCase plainToolchain.schema
      ⟨false, saved, some searchDefinition₁, some (ascii "HELPER"), some (ascii "Helper")⟩ =
      some .published := by
  have hcanonical : (Compiler.canonicalJson plainToolchain.numbers (hashInput COMPILER_VERSION
      (searchParsed, named asciiCase searchDeps₁ (ascii "Helper")))).toBool = true := by
    rw [Compiler.canonicalJson_toBool]
    decide +kernel
  obtain ⟨text, h⟩ := ok_of_toBool hcanonical
  have hslug : agentSlugOf asciiCase (ascii "Helper") = agentSlugOf asciiCase (ascii "HELPER") := by
    decide +kernel
  have h' := h
  rw [named, hslug] at h'
  have hsame : Same (searchParsed.js : JsValue Int)
      (.obj [(ascii "context", searchParsed.context.js), (ascii "model", searchParsed.model.js),
        (ascii "persona", .str searchParsed.persona)]) := by
    refine same_obj_of_mem fun m => ?_
    simp only [List.map_cons, List.map_nil, List.mem_cons, List.not_mem_nil, or_false]
    exact or_rotate.trans or_left_comm
  have honce := keysOnce_definition (N := Int) searchParsed
  refine ⟨_, (lifecycle_follows_hash plainToolchain.numbers asciiCase plainToolchain.schema hsame
    ?_ rfl h h').trans (by rw [if_pos rfl])⟩
  exact ⟨of_decide_eq_true rfl, honce.2.2.2.1, honce.2.2.1, honce.2.1, trivial⟩

end InvisibleString.Web
