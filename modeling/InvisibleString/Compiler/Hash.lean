import InvisibleString.Compiler.Types

/- # `Compiler.Hash` — the hash of an agent version

The hash is taken over the canonical text of the whole input of a compilation, the resolved
rows sorted by their slugs.

**Proved here.**

    two inputs have one canonical text exactly when they agree in all but the order of the
      resolved rows and of the keys  (`hashInput_eq_iff`)
-/

namespace InvisibleString.Compiler

open Json

variable {N : Type} (F : NumberFormat N)

/-! ## The hashed value -/

/-- An object written field by field. -/
def record {A : Type} (fields : List (JsString × (A → JsValue N))) (a : A) : JsValue N :=
  .obj (fields.map fun f => (f.1, f.2 a))

/-- A property that may be missing. -/
def optional {A : Type} (js : A → JsValue N) : Option A → JsValue N
  | none => .undefined
  | some a => js a

def strings (l : List JsString) : JsValue N := .arr (l.map .str)

def JsRecord.js (r : JsRecord JsString) : JsValue N := .obj (r.entries.map fun e => (e.1, .str e.2))

def AgentModel.js : AgentModel → JsValue N :=
  record [(ascii "preset", fun m => .str m.preset.text),
    (ascii "modelId", fun m => optional .str m.modelId),
    (ascii "reasoning", fun m => optional (fun effort => .str effort.text) m.reasoning)]

def AgentContext.js : AgentContext → JsValue N :=
  record [(ascii "mcpConnectionIds", fun c => strings c.mcpConnectionIds),
    (ascii "skillIds", fun c => strings c.skillIds)]

def AgentDefinition.js : AgentDefinition → JsValue N :=
  record [(ascii "persona", fun d => .str d.persona), (ascii "model", fun d => d.model.js),
    (ascii "context", fun d => d.context.js)]

def ResolvedModel.js : ResolvedModel → JsValue N :=
  record [(ascii "provider", fun m => .str m.provider), (ascii "modelId", fun m => .str m.modelId),
    (ascii "reasoning", fun m => .str m.reasoning)]

def ConnectionAuthSpec.js : ConnectionAuthSpec → JsValue N
  | .none => .obj [(ascii "kind", .str (ascii "none"))]
  | .bearerToken => .obj [(ascii "kind", .str (ascii "bearerToken"))]
  | .headers entries => .obj [(ascii "kind", .str (ascii "headers")), (ascii "headers", entries.js)]
  | .oauth connectionId =>
    .obj [(ascii "kind", .str (ascii "oauth")), (ascii "connectionId", .str connectionId)]

def ToolFilterSpec.js : ToolFilterSpec → JsValue N :=
  record [(ascii "allow", fun t => optional strings t.allow),
    (ascii "block", fun t => optional strings t.block)]

def RuleDecision.text : RuleDecision → JsString
  | .ask => ascii "ask"
  | .allow => ascii "allow"
  | .deny => ascii "deny"

def Fallback.text : Fallback → JsString
  | .allow => ascii "allow"
  | .ask => ascii "ask"

def ApprovalRule.js : ApprovalRule → JsValue N :=
  record [(ascii "tool", fun r => .str r.tool), (ascii "decision", fun r => .str r.decision.text)]

def ApprovalSpec.js : ApprovalSpec → JsValue N
  | .never => .obj [(ascii "mode", .str (ascii "never"))]
  | .once => .obj [(ascii "mode", .str (ascii "once"))]
  | .always => .obj [(ascii "mode", .str (ascii "always"))]
  | .custom rules fallback =>
    .obj [(ascii "mode", .str (ascii "custom")), (ascii "rules", .arr (rules.map ApprovalRule.js)),
      (ascii "fallback", .str fallback.text)]

def ResolvedMcpConnection.js : ResolvedMcpConnection → JsValue N :=
  record [(ascii "id", fun c => .str c.id), (ascii "slug", fun c => .str c.slug),
    (ascii "url", fun c => .str c.url), (ascii "description", fun c => .str c.description),
    (ascii "auth", fun c => c.auth.js), (ascii "tools", fun c => optional ToolFilterSpec.js c.tools),
    (ascii "approval", fun c => c.approval.js)]

def ResolvedSkill.js : ResolvedSkill → JsValue N :=
  record [(ascii "id", fun s => .str s.id), (ascii "slug", fun s => .str s.slug),
    (ascii "description", fun s => .str s.description),
    (ascii "markdown", fun s => .str s.markdown),
    (ascii "files", fun s => optional JsRecord.js s.files)]

/-- `[...rows].sort((a, b) => a.slug < b.slug ? -1 : 1)`. -/
def sortedConnections (deps : CompileDeps N) : List ResolvedMcpConnection :=
  sortBy ResolvedMcpConnection.slug deps.connections

def sortedSkills (deps : CompileDeps N) : List ResolvedSkill :=
  sortBy ResolvedSkill.slug deps.skills

def resolvedJs : CompileDeps N → JsValue N :=
  record [(ascii "agentId", fun d => .str d.agentId), (ascii "agentSlug", fun d => .str d.agentSlug),
    (ascii "connections", fun d => .arr ((sortedConnections d).map ResolvedMcpConnection.js)),
    (ascii "options", fun d => .obj [(ascii "dev", .bool d.dev)]),
    (ascii "resolvedModel", fun d => d.resolvedModel.js),
    (ascii "skills", fun d => .arr ((sortedSkills d).map ResolvedSkill.js)),
    (ascii "workspaceSlug", fun d => .str d.workspaceSlug)]

def COMPILER_VERSION : JsString := ascii "5.0.0"

/-- What `computeAgentHash` hands to `canonicalJson`. -/
def hashInput (compilerVersion : JsString) : AgentDefinition × CompileDeps N → JsValue N :=
  record [(ascii "buildEnv", fun i => optional .num i.2.buildEnvEpoch),
    (ascii "compilerVersion", fun _ => .str compilerVersion),
    (ascii "definition", fun i => i.1.js),
    (ascii "resolved", fun i => resolvedJs i.2),
    (ascii "versions", fun i => .obj i.2.versions.members)]

/-- `sha256` gives the digest of a text in hex. -/
def computeAgentHash (sha256 : JsString → JsString) (definition : AgentDefinition)
    (deps : CompileDeps N) (compilerVersion : JsString) : Except JsString JsString :=
  (canonicalJson F (hashInput compilerVersion (definition, deps))).map sha256

/-! ## Inputs that agree -/

inductive ConnectionAuthSpec.Alike : ConnectionAuthSpec → ConnectionAuthSpec → Prop
  | none : Alike .none .none
  | bearerToken : Alike .bearerToken .bearerToken
  | headers {headers headers' : JsRecord JsString} (h : headers.entries.Perm headers'.entries) :
    Alike (.headers headers) (.headers headers')
  | oauth (connectionId : JsString) : Alike (.oauth connectionId) (.oauth connectionId)

/-- One connection up to the order of its headers. -/
structure ResolvedMcpConnection.Alike (c c' : ResolvedMcpConnection) : Prop where
  id : c.id = c'.id
  slug : c.slug = c'.slug
  url : c.url = c'.url
  description : c.description = c'.description
  auth : c.auth.Alike c'.auth
  tools : c.tools = c'.tools
  approval : c.approval = c'.approval

/-- One skill up to the order of its files. -/
structure ResolvedSkill.Alike (s s' : ResolvedSkill) : Prop where
  id : s.id = s'.id
  slug : s.slug = s'.slug
  description : s.description = s'.description
  markdown : s.markdown = s'.markdown
  files : Option.Rel (fun r r' => r.entries.Perm r'.entries) s.files s'.files

/-- Two inputs that differ in the order of rows and keys only. -/
structure CompileDeps.Alike (deps deps' : CompileDeps N) : Prop where
  versions : Same (.obj deps.versions.members) (.obj deps'.versions.members)
  resolvedModel : deps.resolvedModel = deps'.resolvedModel
  workspaceSlug : deps.workspaceSlug = deps'.workspaceSlug
  agentId : deps.agentId = deps'.agentId
  agentSlug : deps.agentSlug = deps'.agentSlug
  connections : List.Forall₂ ResolvedMcpConnection.Alike (sortedConnections deps)
    (sortedConnections deps')
  skills : List.Forall₂ ResolvedSkill.Alike (sortedSkills deps) (sortedSkills deps')
  dev : deps.dev = deps'.dev
  buildEnvEpoch : deps.buildEnvEpoch = deps'.buildEnvEpoch

/-! ## Records -/

section

variable {A : Type} {fields : List (JsString × (A → JsValue N))} {a b : A}

theorem uniqueKeys_record (hk : (fields.map Prod.fst).Nodup) (a : A) :
    OrderedMap.UniqueKeys (fields.map fun f => (f.1, f.2 a)) := by
  change ((fields.map fun f => (f.1, f.2 a)).map Prod.fst).Nodup
  rw [List.map_map]
  exact hk

theorem keysOnce_record (hk : (fields.map Prod.fst).Nodup)
    (ha : ∀ f ∈ fields, (f.2 a).KeysOnce) : (record fields a).KeysOnce := by
  refine ⟨uniqueKeys_record hk a, membersOnce_iff.mpr fun key value hm => ?_⟩
  obtain ⟨f, hf, heq⟩ := List.mem_map.mp hm
  cases heq
  exact ha f hf

/-- Two records with the same fields are the same field by field. -/
theorem same_record (hk : (fields.map Prod.fst).Nodup) :
    Same (record fields a) (record fields b) ↔ ∀ f ∈ fields, Same (f.2 a) (f.2 b) := by
  constructor
  · rintro ⟨members', heq, hwithin, hback⟩ f hf
    cases heq
    have hfa : (f.1, f.2 a) ∈ fields.map fun f => (f.1, f.2 a) := List.mem_map.mpr ⟨f, hf, rfl⟩
    have hfb : (f.1, f.2 b) ∈ fields.map fun f => (f.1, f.2 b) := List.mem_map.mpr ⟨f, hf, rfl⟩
    by_cases hu : f.2 a = .undefined
    · rw [hu]
      by_contra hne
      obtain ⟨value, hm, hd⟩ := hback f.1 (f.2 b) hfb hne
      exact hd ((Prod.mk.inj (eq_of_key_eq (uniqueKeys_record hk a) hm hfa rfl)).2.trans hu)
    · obtain ⟨value', hm, hsame⟩ := within_iff.mp hwithin f.1 (f.2 a) hfa hu
      cases eq_of_key_eq (uniqueKeys_record hk b) hm hfb rfl
      exact hsame
  · intro h
    refine same_obj_of_forall₂ ?_
    rw [List.forall₂_map_left_iff, List.forall₂_map_right_iff]
    exact List.forall₂_same.mpr fun f hf => ⟨rfl, h f hf⟩

end

theorem same_str {s s' : JsString} : Same (.str s : JsValue N) (.str s') ↔ s = s' :=
  ⟨fun h => by cases h; rfl, fun h => by rw [h]; rfl⟩

theorem same_optional {A : Type} {js : A → JsValue N} {R : A → A → Prop} (hd : ∀ a, js a ≠ .undefined)
    (h : ∀ a b, Same (js a) (js b) ↔ R a b) {a b : Option A} :
    Same (optional js a) (optional js b) ↔ Option.Rel R a b := by
  cases a with
  | none =>
    cases b with
    | none => exact ⟨fun _ => .none, fun _ => rfl⟩
    | some b => exact ⟨fun hs => absurd hs (hd b), nofun⟩
  | some a =>
    cases b with
    | none => exact ⟨fun hs => absurd (Same.undefined_iff hs |>.mpr rfl) (hd a), nofun⟩
    | some b =>
      rw [optional, optional, h]
      exact ⟨.some, fun hr => by cases hr with | some hr => exact hr⟩

theorem same_arr_map {A : Type} {js : A → JsValue N} {R : A → A → Prop}
    (hd : ∀ a, js a ≠ .undefined ∧ js a ≠ .null) (h : ∀ a b, Same (js a) (js b) ↔ R a b)
    {l l' : List A} : Same (.arr (l.map js)) (.arr (l'.map js)) ↔ List.Forall₂ R l l' := by
  have hforall : List.Forall₂ Same (l.map js) (l'.map js) ↔ List.Forall₂ R l l' := by
    rw [List.forall₂_map_left_iff, List.forall₂_map_right_iff]
    exact ⟨fun hf => hf.imp fun a b => (h a b).mp, fun hf => hf.imp fun a b => (h a b).mpr⟩
  constructor
  · rintro ⟨items', heq, hs⟩
    cases heq
    refine hforall.mp (hs.forall₂ fun item hm => ?_)
    obtain ⟨a, _, rfl⟩ := List.mem_map.mp hm
    exact hd a
  · exact fun hf => ⟨_, rfl, sameItems_of_forall₂ (hforall.mpr hf)⟩

theorem same_strings {l l' : List JsString} : Same (strings l : JsValue N) (strings l') ↔ l = l' := by
  rw [strings, strings, @same_arr_map N JsString .str Eq (fun _ => ⟨nofun, nofun⟩)
    fun _ _ => same_str, List.forall₂_eq_eq_eq]

theorem optionRel_eq {A : Type} {a b : Option A} : Option.Rel Eq a b ↔ a = b := by
  constructor
  · rintro (h | _)
    · rw [h]
    · rfl
  · rintro rfl
    cases a with
    | none => exact .none
    | some a => exact .some rfl

theorem same_optional_str {a b : Option JsString} :
    Same (optional .str a : JsValue N) (optional .str b) ↔ a = b :=
  (@same_optional N JsString .str Eq (fun _ => nofun) fun _ _ => same_str).trans optionRel_eq

theorem same_optional_strings {a b : Option (List JsString)} :
    Same (optional strings a : JsValue N) (optional strings b) ↔ a = b :=
  (@same_optional N (List JsString) strings Eq (fun _ => nofun) fun _ _ => same_strings).trans
    optionRel_eq

theorem same_jsRecord {r r' : JsRecord JsString} :
    Same (r.js : JsValue N) r'.js ↔ r.entries.Perm r'.entries := by
  have hmem : ∀ (r : JsRecord JsString) k s, ((k, .str s) : JsString × JsValue N) ∈
      (r.entries.map fun e => (e.1, .str e.2)) ↔ (k, s) ∈ r.entries := by
    intro r k s
    rw [List.mem_map]
    constructor
    · rintro ⟨e, he, heq⟩
      cases heq
      exact he
    · exact fun he => ⟨(k, s), he, rfl⟩
  constructor
  · rintro ⟨members', heq, hwithin, hback⟩
    cases heq
    have hto : ∀ e, e ∈ r.entries → e ∈ r'.entries := by
      rintro ⟨k, s⟩ he
      obtain ⟨value', hm, hsame⟩ := within_iff.mp hwithin k (.str s) ((hmem r k s).mpr he) nofun
      cases hsame
      exact (hmem r' k s).mp hm
    refine (List.perm_ext_iff_of_nodup r.once.of_map r'.once.of_map).mpr fun e => ⟨hto e, ?_⟩
    rcases e with ⟨k, s⟩
    intro he
    obtain ⟨value, hm, _⟩ := hback k (.str s) ((hmem r' k s).mpr he) nofun
    obtain ⟨⟨k', s'⟩, he', heq⟩ := List.mem_map.mp hm
    cases heq
    cases eq_of_key_eq r'.once (hto _ he') he rfl
    exact he'
  · intro h
    exact same_obj_of_mem fun m => (h.map _).mem_iff

/-! ## Field by field -/

theorem same_agentModel {m m' : AgentModel} : Same (m.js : JsValue N) m'.js ↔ m = m' := by
  rw [AgentModel.js, same_record (of_decide_eq_true rfl)]
  simp only [List.forall_mem_cons, List.not_mem_nil, false_imp_iff, implies_true, and_true]
  have heffort : ∀ a b : Option ReasoningEffort,
      Same (optional (fun effort => .str effort.text) a : JsValue N)
        (optional (fun effort => .str effort.text) b) ↔ a = b := fun a b =>
    (@same_optional N ReasoningEffort (fun effort => .str effort.text) Eq (fun _ => nofun) fun a b =>
      same_str.trans ⟨ReasoningEffort.text_injective a b, fun h => by rw [h]⟩).trans optionRel_eq
  rw [same_str, same_optional_str, heffort]
  rcases m with ⟨preset, modelId, reasoning⟩
  rcases m' with ⟨preset', modelId', reasoning'⟩
  constructor
  · rintro ⟨hp, hm, hr⟩
    rw [AgentModel.mk.injEq]
    exact ⟨ModelPreset.text_injective _ _ hp, hm, hr⟩
  · rintro h
    cases h
    exact ⟨rfl, rfl, rfl⟩

theorem same_agentContext {c c' : AgentContext} : Same (c.js : JsValue N) c'.js ↔ c = c' := by
  rw [AgentContext.js, same_record (of_decide_eq_true rfl)]
  simp only [List.forall_mem_cons, List.not_mem_nil, false_imp_iff, implies_true, and_true]
  rw [same_strings, same_strings]
  rcases c with ⟨_, _⟩
  rcases c' with ⟨_, _⟩
  rw [AgentContext.mk.injEq]

theorem same_agentDefinition {d d' : AgentDefinition} :
    Same (d.js : JsValue N) d'.js ↔ d = d' := by
  rw [AgentDefinition.js, same_record (of_decide_eq_true rfl)]
  simp only [List.forall_mem_cons, List.not_mem_nil, false_imp_iff, implies_true, and_true]
  rw [same_str, same_agentModel, same_agentContext]
  rcases d with ⟨_, _, _⟩
  rcases d' with ⟨_, _, _⟩
  rw [AgentDefinition.mk.injEq]

theorem same_resolvedModel {m m' : ResolvedModel} : Same (m.js : JsValue N) m'.js ↔ m = m' := by
  rw [ResolvedModel.js, same_record (of_decide_eq_true rfl)]
  simp only [List.forall_mem_cons, List.not_mem_nil, false_imp_iff, implies_true, and_true]
  rw [same_str, same_str, same_str]
  rcases m with ⟨_, _, _⟩
  rcases m' with ⟨_, _, _⟩
  rw [ResolvedModel.mk.injEq]

theorem same_toolFilter {t t' : ToolFilterSpec} : Same (t.js : JsValue N) t'.js ↔ t = t' := by
  rw [ToolFilterSpec.js, same_record (of_decide_eq_true rfl)]
  simp only [List.forall_mem_cons, List.not_mem_nil, false_imp_iff, implies_true, and_true]
  rw [same_optional_strings, same_optional_strings]
  rcases t with ⟨_, _⟩
  rcases t' with ⟨_, _⟩
  rw [ToolFilterSpec.mk.injEq]

theorem same_approvalRule {r r' : ApprovalRule} : Same (r.js : JsValue N) r'.js ↔ r = r' := by
  have htext : ∀ d d' : RuleDecision, d.text = d'.text ↔ d = d' := by
    intro d d'
    cases d <;> cases d' <;> decide
  rw [ApprovalRule.js, same_record (of_decide_eq_true rfl)]
  simp only [List.forall_mem_cons, List.not_mem_nil, false_imp_iff, implies_true, and_true]
  rw [same_str, same_str, htext]
  rcases r with ⟨_, _⟩
  rcases r' with ⟨_, _⟩
  rw [ApprovalRule.mk.injEq]

theorem same_tag {ms ms' : List (JsString × JsValue N)} {key t t' : JsString}
    (hk : OrderedMap.UniqueKeys ((key, .str t') :: ms'))
    (h : Same (.obj ((key, .str t) :: ms)) (.obj ((key, .str t') :: ms'))) : t = t' := by
  obtain ⟨members', heq, hwithin, _⟩ := h
  cases heq
  obtain ⟨value', hv, hsame⟩ := within_iff.mp hwithin key (.str t) List.mem_cons_self nofun
  cases hsame
  exact JsValue.str.inj (Prod.mk.inj (eq_of_key_eq hk hv List.mem_cons_self rfl)).2

def ApprovalSpec.mode : ApprovalSpec → JsString
  | .never => ascii "never"
  | .once => ascii "once"
  | .always => ascii "always"
  | .custom _ _ => ascii "custom"

theorem ApprovalSpec.mode_eq {a a' : ApprovalSpec} (h : Same (a.js : JsValue N) a'.js) :
    a.mode = a'.mode := by
  have hjs : ∀ a : ApprovalSpec, ∃ ms : List (JsString × JsValue N),
      a.js = .obj ((ascii "mode", .str a.mode) :: ms) ∧
      OrderedMap.UniqueKeys ((ascii "mode", .str a.mode) :: ms) := by
    intro a
    cases a <;> exact ⟨_, rfl, of_decide_eq_true rfl⟩
  obtain ⟨ms, hms, _⟩ := hjs a
  obtain ⟨ms', hms', hk⟩ := hjs a'
  rw [hms, hms'] at h
  exact same_tag hk h

theorem same_customApproval {rules rules' : List ApprovalRule} {fallback fallback' : Fallback} :
    Same ((ApprovalSpec.custom rules fallback).js : JsValue N)
      (ApprovalSpec.custom rules' fallback').js ↔ rules = rules' ∧ fallback = fallback' := by
  have hrecord : ∀ (rules : List ApprovalRule) (fallback : Fallback),
      ((ApprovalSpec.custom rules fallback).js : JsValue N) =
        record [(ascii "mode", fun _ => .str (ascii "custom")),
          (ascii "rules", fun p : List ApprovalRule × Fallback => .arr (p.1.map ApprovalRule.js)),
          (ascii "fallback", fun p => .str p.2.text)] (rules, fallback) := fun _ _ => rfl
  have htext : ∀ f f' : Fallback, f.text = f'.text ↔ f = f' := by
    intro f f'
    cases f <;> cases f' <;> decide
  rw [hrecord, hrecord, same_record (of_decide_eq_true rfl)]
  simp only [List.forall_mem_cons, List.not_mem_nil, false_imp_iff, implies_true, and_true]
  rw [@same_arr_map N ApprovalRule ApprovalRule.js Eq (fun _ => ⟨nofun, nofun⟩)
    fun _ _ => same_approvalRule, List.forall₂_eq_eq_eq, same_str, same_str, htext]
  exact ⟨fun h => h.2, fun h => ⟨rfl, h⟩⟩

theorem same_approvalSpec {a a' : ApprovalSpec} : Same (a.js : JsValue N) a'.js ↔ a = a' := by
  constructor
  · intro h
    have hmode := ApprovalSpec.mode_eq h
    cases a <;> cases a' <;> first | rfl | exact absurd hmode (of_decide_eq_false rfl) | skip
    obtain ⟨rfl, rfl⟩ := same_customApproval.mp h
    rfl
  · rintro rfl
    exact Same.refl _

def ConnectionAuthSpec.kind : ConnectionAuthSpec → JsString
  | .none => ascii "none"
  | .bearerToken => ascii "bearerToken"
  | .headers _ => ascii "headers"
  | .oauth _ => ascii "oauth"

theorem ConnectionAuthSpec.kind_eq {a a' : ConnectionAuthSpec} (h : Same (a.js : JsValue N) a'.js) :
    a.kind = a'.kind := by
  have hjs : ∀ a : ConnectionAuthSpec, ∃ ms : List (JsString × JsValue N),
      a.js = .obj ((ascii "kind", .str a.kind) :: ms) ∧
      OrderedMap.UniqueKeys ((ascii "kind", .str a.kind) :: ms) := by
    intro a
    cases a <;> exact ⟨_, rfl, of_decide_eq_true rfl⟩
  obtain ⟨ms, hms, _⟩ := hjs a
  obtain ⟨ms', hms', hk⟩ := hjs a'
  rw [hms, hms'] at h
  exact same_tag hk h

theorem same_headers {r r' : JsRecord JsString} :
    Same ((ConnectionAuthSpec.headers r).js : JsValue N) (ConnectionAuthSpec.headers r').js ↔
      r.entries.Perm r'.entries := by
  have hrecord : ∀ r : JsRecord JsString, ((ConnectionAuthSpec.headers r).js : JsValue N) =
      record [(ascii "kind", fun _ => .str (ascii "headers")), (ascii "headers", JsRecord.js)] r :=
    fun _ => rfl
  rw [hrecord, hrecord, same_record (of_decide_eq_true rfl)]
  simp only [List.forall_mem_cons, List.not_mem_nil, false_imp_iff, implies_true, and_true]
  rw [same_str, same_jsRecord]
  exact ⟨fun h => h.2, fun h => ⟨rfl, h⟩⟩

theorem same_oauth {connectionId connectionId' : JsString} :
    Same ((ConnectionAuthSpec.oauth connectionId).js : JsValue N)
      (ConnectionAuthSpec.oauth connectionId').js ↔ connectionId = connectionId' := by
  have hrecord : ∀ id : JsString, ((ConnectionAuthSpec.oauth id).js : JsValue N) =
      record [(ascii "kind", fun _ => .str (ascii "oauth")), (ascii "connectionId", .str)] id :=
    fun _ => rfl
  rw [hrecord, hrecord, same_record (of_decide_eq_true rfl)]
  simp only [List.forall_mem_cons, List.not_mem_nil, false_imp_iff, implies_true, and_true]
  rw [same_str, same_str]
  exact ⟨fun h => h.2, fun h => ⟨rfl, h⟩⟩

theorem same_connectionAuth {a a' : ConnectionAuthSpec} :
    Same (a.js : JsValue N) a'.js ↔ a.Alike a' := by
  constructor
  · intro h
    have hkind := ConnectionAuthSpec.kind_eq h
    cases a <;> cases a' <;> first | exact absurd hkind (of_decide_eq_false rfl) | skip
    case none.none => exact .none
    case bearerToken.bearerToken => exact .bearerToken
    case headers.headers => exact .headers (same_headers.mp h)
    case oauth.oauth =>
      obtain rfl := same_oauth.mp h
      exact .oauth _
  · intro h
    cases h with
    | none => exact Same.refl _
    | bearerToken => exact Same.refl _
    | headers h => exact same_headers.mpr h
    | oauth => exact Same.refl _

theorem same_connection {c c' : ResolvedMcpConnection} :
    Same (c.js : JsValue N) c'.js ↔ c.Alike c' := by
  have htools : Same (optional ToolFilterSpec.js c.tools : JsValue N)
      (optional ToolFilterSpec.js c'.tools) ↔ c.tools = c'.tools :=
    (@same_optional N ToolFilterSpec ToolFilterSpec.js Eq (fun _ => nofun)
      fun _ _ => same_toolFilter).trans optionRel_eq
  rw [ResolvedMcpConnection.js, same_record (of_decide_eq_true rfl)]
  simp only [List.forall_mem_cons, List.not_mem_nil, false_imp_iff, implies_true, and_true]
  rw [same_str, same_str, same_str, same_str, same_connectionAuth, htools, same_approvalSpec]
  constructor
  · rintro ⟨hid, hslug, hurl, hdescription, hauth, htools, happroval⟩
    exact ⟨hid, hslug, hurl, hdescription, hauth, htools, happroval⟩
  · rintro ⟨hid, hslug, hurl, hdescription, hauth, htools, happroval⟩
    exact ⟨hid, hslug, hurl, hdescription, hauth, htools, happroval⟩

theorem same_skill {s s' : ResolvedSkill} : Same (s.js : JsValue N) s'.js ↔ s.Alike s' := by
  have hfiles := @same_optional N (JsRecord JsString) JsRecord.js
    (fun r r' => r.entries.Perm r'.entries) (fun _ => nofun) (fun _ _ => same_jsRecord)
    s.files s'.files
  rw [ResolvedSkill.js, same_record (of_decide_eq_true rfl)]
  simp only [List.forall_mem_cons, List.not_mem_nil, false_imp_iff, implies_true, and_true]
  rw [same_str, same_str, same_str, same_str, hfiles]
  constructor
  · rintro ⟨hid, hslug, hdescription, hmarkdown, hfiles⟩
    exact ⟨hid, hslug, hdescription, hmarkdown, hfiles⟩
  · rintro ⟨hid, hslug, hdescription, hmarkdown, hfiles⟩
    exact ⟨hid, hslug, hdescription, hmarkdown, hfiles⟩

/-! ## The whole input -/

theorem itemsOnce_map {A : Type} {js : A → JsValue N} (h : ∀ a, (js a).KeysOnce) (l : List A) :
    ItemsOnce (l.map js) := by
  induction l with
  | nil => trivial
  | cons a l ih => exact ⟨h a, ih⟩

theorem keysOnce_optional {A : Type} {js : A → JsValue N} (h : ∀ a, (js a).KeysOnce)
    (a : Option A) : (optional js a).KeysOnce := by
  cases a with
  | none => trivial
  | some a => exact h a

theorem keysOnce_str (s : JsString) : (.str s : JsValue N).KeysOnce := trivial

theorem keysOnce_strings (l : List JsString) : (strings l : JsValue N).KeysOnce :=
  itemsOnce_map keysOnce_str l

theorem keysOnce_jsRecord (r : JsRecord JsString) : (r.js : JsValue N).KeysOnce := by
  refine ⟨?_, membersOnce_iff.mpr fun key value hm => ?_⟩
  · change ((r.entries.map fun e => (e.1, JsValue.str e.2)).map Prod.fst).Nodup
    rw [List.map_map]
    exact r.once
  · obtain ⟨e, _, heq⟩ := List.mem_map.mp hm
    cases heq
    trivial

theorem keysOnce_definition (d : AgentDefinition) : (d.js : JsValue N).KeysOnce := by
  refine keysOnce_record (of_decide_eq_true rfl) ?_
  simp only [List.forall_mem_cons, List.not_mem_nil, false_imp_iff, implies_true, and_true]
  refine ⟨trivial, keysOnce_record (of_decide_eq_true rfl) ?_,
    keysOnce_record (of_decide_eq_true rfl) ?_⟩
  · simp only [List.forall_mem_cons, List.not_mem_nil, false_imp_iff, implies_true, and_true]
    exact ⟨trivial, keysOnce_optional keysOnce_str _,
      keysOnce_optional (fun effort : ReasoningEffort => keysOnce_str effort.text) _⟩
  · simp only [List.forall_mem_cons, List.not_mem_nil, false_imp_iff, implies_true, and_true]
    exact ⟨keysOnce_strings _, keysOnce_strings _⟩

theorem keysOnce_connection (c : ResolvedMcpConnection) : (c.js : JsValue N).KeysOnce := by
  refine keysOnce_record (of_decide_eq_true rfl) ?_
  simp only [List.forall_mem_cons, List.not_mem_nil, false_imp_iff, implies_true, and_true]
  refine ⟨trivial, trivial, trivial, trivial, ?_, keysOnce_optional (fun t => ?_) _, ?_⟩
  · cases c.auth with
    | headers r => exact ⟨of_decide_eq_true rfl, trivial, keysOnce_jsRecord r, trivial⟩
    | none | bearerToken => exact ⟨of_decide_eq_true rfl, trivial, trivial⟩
    | oauth => exact ⟨of_decide_eq_true rfl, trivial, trivial, trivial⟩
  · refine keysOnce_record (of_decide_eq_true rfl) ?_
    simp only [List.forall_mem_cons, List.not_mem_nil, false_imp_iff, implies_true, and_true]
    exact ⟨keysOnce_optional keysOnce_strings _, keysOnce_optional keysOnce_strings _⟩
  · cases c.approval with
    | never | once | always => exact ⟨of_decide_eq_true rfl, trivial, trivial⟩
    | custom rules fallback =>
      refine ⟨of_decide_eq_true rfl, trivial, itemsOnce_map (fun r => ?_) rules, trivial, trivial⟩
      refine keysOnce_record (of_decide_eq_true rfl) ?_
      simp only [List.forall_mem_cons, List.not_mem_nil, false_imp_iff, implies_true, and_true]
      exact ⟨trivial, trivial⟩

theorem keysOnce_skill (s : ResolvedSkill) : (s.js : JsValue N).KeysOnce := by
  refine keysOnce_record (of_decide_eq_true rfl) ?_
  simp only [List.forall_mem_cons, List.not_mem_nil, false_imp_iff, implies_true, and_true]
  exact ⟨trivial, trivial, trivial, trivial, keysOnce_optional keysOnce_jsRecord _⟩

theorem keysOnce_resolved (deps : CompileDeps N) : (resolvedJs deps).KeysOnce := by
  refine keysOnce_record (of_decide_eq_true rfl) ?_
  simp only [List.forall_mem_cons, List.not_mem_nil, false_imp_iff, implies_true, and_true]
  refine ⟨trivial, trivial, itemsOnce_map keysOnce_connection _,
    ⟨of_decide_eq_true rfl, trivial, trivial⟩, keysOnce_record (of_decide_eq_true rfl) ?_,
    itemsOnce_map keysOnce_skill _, trivial⟩
  simp only [List.forall_mem_cons, List.not_mem_nil, false_imp_iff, implies_true, and_true]
  exact ⟨trivial, trivial, trivial⟩

theorem keysOnce_hashInput (compilerVersion : JsString) (input : AgentDefinition × CompileDeps N) :
    (hashInput compilerVersion input).KeysOnce := by
  refine keysOnce_record (of_decide_eq_true rfl) ?_
  simp only [List.forall_mem_cons, List.not_mem_nil, false_imp_iff, implies_true, and_true]
  have hnum : ∀ n : N, (JsValue.num n).KeysOnce := fun _ => trivial
  exact ⟨keysOnce_optional hnum _, trivial, keysOnce_definition _,
    keysOnce_resolved _, input.2.versions.once⟩

theorem same_resolved {deps deps' : CompileDeps N} :
    Same (resolvedJs deps) (resolvedJs deps') ↔
      deps.agentId = deps'.agentId ∧ deps.agentSlug = deps'.agentSlug ∧
      List.Forall₂ ResolvedMcpConnection.Alike (sortedConnections deps) (sortedConnections deps') ∧
      deps.dev = deps'.dev ∧ deps.resolvedModel = deps'.resolvedModel ∧
      List.Forall₂ ResolvedSkill.Alike (sortedSkills deps) (sortedSkills deps') ∧
      deps.workspaceSlug = deps'.workspaceSlug := by
  have hdev : ∀ b b' : Bool, Same (.obj [(ascii "dev", .bool b)] : JsValue N)
      (.obj [(ascii "dev", .bool b')]) ↔ b = b' := by
    intro b b'
    constructor
    · rintro ⟨members', heq, hwithin, _⟩
      cases heq
      obtain ⟨value', hm, hsame⟩ := hwithin.1 nofun
      cases hsame
      rw [List.mem_singleton] at hm
      exact JsValue.bool.inj (Prod.mk.inj hm).2
    · rintro rfl
      exact Same.refl _
  rw [resolvedJs, same_record (of_decide_eq_true rfl)]
  simp only [List.forall_mem_cons, List.not_mem_nil, false_imp_iff, implies_true, and_true]
  rw [same_str, same_str, same_str, hdev, same_resolvedModel,
    @same_arr_map N ResolvedMcpConnection ResolvedMcpConnection.js _ (fun _ => ⟨nofun, nofun⟩)
      fun _ _ => same_connection,
    @same_arr_map N ResolvedSkill ResolvedSkill.js _ (fun _ => ⟨nofun, nofun⟩)
      fun _ _ => same_skill]

theorem same_hashInput {compilerVersion : JsString} {definition definition' : AgentDefinition}
    {deps deps' : CompileDeps N} :
    Same (hashInput compilerVersion (definition, deps))
      (hashInput compilerVersion (definition', deps')) ↔
      definition = definition' ∧ deps.Alike deps' := by
  have hepoch : Same (optional .num deps.buildEnvEpoch : JsValue N)
      (optional .num deps'.buildEnvEpoch) ↔ deps.buildEnvEpoch = deps'.buildEnvEpoch := by
    refine (@same_optional N N .num Eq (fun _ => nofun) fun a b => ?_).trans optionRel_eq
    exact ⟨fun h => by cases h; rfl, fun h => by rw [h]; rfl⟩
  rw [hashInput, same_record (of_decide_eq_true rfl)]
  simp only [List.forall_mem_cons, List.not_mem_nil, false_imp_iff, implies_true, and_true]
  rw [hepoch, same_str, same_agentDefinition, same_resolved]
  constructor
  · rintro ⟨hepoch, _, hdefinition, ⟨hid, hslug, hconnections, hdev, hmodel, hskills, hworkspace⟩,
      hversions⟩
    exact ⟨hdefinition, hversions, hmodel, hworkspace, hid, hslug, hconnections, hskills, hdev,
      hepoch⟩
  · rintro ⟨hdefinition, hversions, hmodel, hworkspace, hid, hslug, hconnections, hskills, hdev,
      hepoch⟩
    exact ⟨hepoch, rfl, hdefinition, ⟨hid, hslug, hconnections, hdev, hmodel, hskills, hworkspace⟩,
      hversions⟩

theorem hashInput_eq_iff {compilerVersion : JsString} {definition definition' : AgentDefinition}
    {deps deps' : CompileDeps N} {text : JsString}
    (h : canonicalJson F (hashInput compilerVersion (definition, deps)) = .ok text) :
    canonicalJson F (hashInput compilerVersion (definition', deps')) = .ok text ↔
      definition = definition' ∧ deps.Alike deps' :=
  (canonicalJson_eq_iff F (keysOnce_hashInput _ _) (keysOnce_hashInput _ _) h).trans same_hashInput

end InvisibleString.Compiler
