import InvisibleString.Compiler.Strings
import InvisibleString.Lib.Checks

/- # `Compiler.Approval` — a connection's approval policy, from its row to the generated gate

The row keeps a default and decisions for some tools.  The adapter turns it into a spec with a
mode, the compiler checks the spec, and the generated module answers for each qualified tool
name, with one of eve's helpers or with lists of names and a fallback.  The spec has no word
for "ask once" beside rules: the adapter writes `allow` there.

**Proved here.**

    the module's answer for a tool is the row's own, except where the default is `once`,
      some tool has a decision, and this one has none  (`approval_kept_iff`)
-/

namespace InvisibleString.Compiler

open Json
open Checks (bind_eq_ok mapM_cons_ok)

variable {N : Type} (F : NumberFormat N)

/-! ## The stored policy -/

/-- The column of a row: the members of its object, or null. -/
abbrev ApprovalPolicy (N : Type) := Option (List (JsString × Value N))

/-- The defaults the adapter knows. -/
inductive ApprovalDefault where
  | never
  | once
  | always
  deriving DecidableEq

/-- `String(value)`. -/
def coerce : Value N → JsString
  | .null => ascii "null"
  | .bool true => ascii "true"
  | .bool false => ascii "false"
  | .num n => F.print n
  | .str s => s
  | .arr items => coerceItems items
  | .obj _ => ascii "[object Object]"
where
  /-- The items with commas between them, a null one as the empty text. -/
  coerceItems : List (Value N) → JsString
    | [] => []
    | [item] => coerceItem item
    | item :: items => coerceItem item ++ ascii "," ++ coerceItems items
  coerceItem : Value N → JsString
    | .null => []
    | item => coerce item

/-- `policy[key]`. -/
def member (key : String) (policy : List (JsString × Value N)) : Option (Value N) :=
  OrderedMap.get? (ascii key) policy

/-- `policy.default ?? "never"`. -/
def policyDefault (policy : List (JsString × Value N)) : Value N :=
  match member "default" policy with
  | none | some .null => .str (ascii "never")
  | some mode => mode

/-- The members of `DB_DECISIONS`. -/
def ApprovalDefault.read : Value N → Option ApprovalDefault
  | .str s =>
    if s = ascii "never" then some .never
    else if s = ascii "once" then some .once
    else if s = ascii "always" then some .always
    else none
  | _ => none

/-- `Object.keys(tools).length`, nothing at all counted as no key. -/
def keyCount : Option (Value N) → Nat
  | some (.obj members) => members.length
  | some (.arr items) => items.length
  | some (.str s) => s.length
  | _ => 0

/-! ## The adapter -/

inductive RuleDecision where
  | ask
  | allow
  | deny
  deriving DecidableEq

structure ApprovalRule where
  tool : JsString
  decision : RuleDecision

inductive Fallback where
  | allow
  | ask
  deriving DecidableEq

inductive ApprovalSpec where
  | never
  | once
  | always
  | custom (rules : List ApprovalRule) (fallback : Fallback)

structure CompileIssue where
  path : Option JsString
  message : JsString

/-- The issues of an `AgentCompileError`. -/
abbrev AgentCompileError := List CompileIssue

def policyPath (connectionName : JsString) (field : String) : JsString :=
  ascii "connections." ++ connectionName ++ ascii ".approvalPolicy." ++ ascii field

/-- What a stored decision is for the compiler. -/
def RuleDecision.read : Value N → Option RuleDecision
  | .str s =>
    if s = ascii "always" then some .ask
    else if s = ascii "never" then some .allow
    else if s = ascii "deny" then some .deny
    else none
  | _ => none

/-- One entry of `tools`. -/
def ruleFrom (connectionName : JsString) (entry : JsString × Value N) :
    Except AgentCompileError ApprovalRule :=
  match RuleDecision.read entry.2 with
  | some decision => .ok ⟨entry.1, decision⟩
  | none => .error [⟨some (policyPath connectionName "tools." ++ entry.1),
      ascii "unknown decision \"" ++ coerce F entry.2 ++
        ascii "\" (expected always|never|deny)"⟩]

def ApprovalDefault.spec : ApprovalDefault → ApprovalSpec
  | .never => .never
  | .once => .once
  | .always => .always

def ApprovalDefault.fallback : ApprovalDefault → Fallback
  | .always => .ask
  | _ => .allow

def approvalSpecFromPolicy (connectionName : JsString) :
    ApprovalPolicy N → Except AgentCompileError ApprovalSpec
  | none => .ok .never
  | some policy =>
    match ApprovalDefault.read (policyDefault policy) with
    | none => .error [⟨some (policyPath connectionName "default"),
        ascii "unknown approval default \"" ++ coerce F (policyDefault policy) ++
          ascii "\" (expected never|once|always)"⟩]
    | some mode =>
      let tools := member "tools" policy
      if keyCount tools = 0 then .ok mode.spec
      else
        match tools with
        | some (.obj members) => do
          let rules ← members.mapM (ruleFrom F connectionName)
          .ok (.custom rules mode.fallback)
        | _ => .error [⟨some (policyPath connectionName "tools"), ascii "tools must be an object"⟩]

/-! ## The compiler's check -/

/-- A `CompileError`: its code, its message and its details. -/
structure CompileError where
  code : JsString
  message : JsString
  details : List (JsString × JsString)

def invalidApproval (slug : JsString) (message : JsString) (details : List (JsString × JsString)) :
    CompileError :=
  ⟨ascii "INVALID_APPROVAL", ascii "connection \"" ++ slug ++ ascii "\" " ++ message,
    (ascii "slug", slug) :: details⟩

/-- The rules one by one, `seen` the tools so far. -/
def validateRules (slug : JsString) (seen : List JsString) :
    List ApprovalRule → Except CompileError Unit
  | [] => .ok ()
  | rule :: rules =>
    if trim rule.tool = [] then
      .error (invalidApproval slug (ascii "custom approval has an empty tool name") [])
    else if includes (ascii "__") rule.tool then
      .error (invalidApproval slug
        (ascii "approval rule tool \"" ++ rule.tool ++
          ascii "\" must be the BARE remote tool name — the compiler qualifies it as \"" ++ slug ++
          ascii "__<tool>\"") [(ascii "tool", rule.tool)])
    else if rule.tool ∈ seen then
      .error (invalidApproval slug
        (ascii "has duplicate approval rules for tool \"" ++ rule.tool ++ ascii "\"")
        [(ascii "tool", rule.tool)])
    else validateRules slug (rule.tool :: seen) rules

/-- The approval part of `validateConnection`. -/
def validateApproval (slug : JsString) : ApprovalSpec → Except CompileError Unit
  | .custom rules _ =>
    if rules = [] then
      .error (invalidApproval slug
        (ascii "custom approval has no rules — use mode \"never\"/\"once\"/\"always\" instead") [])
    else validateRules slug [] rules
  | _ => .ok ()

/-! ## The generated gate -/

/-- What a gate answers to eve. -/
inductive Status where
  | notApplicable
  | userApproval
  | denied
  deriving DecidableEq

/-- What a gate is asked: the qualified name, and whether the session has approved it before. -/
structure ToolCall where
  toolName : JsString
  approved : Bool

/-- How much a status holds a call back. -/
def Status.rank : Status → Nat
  | .notApplicable => 0
  | .userApproval => 1
  | .denied => 2

/-- The module `eve/tools/approval`. -/
structure ApprovalHelpers where
  never : ToolCall → Status
  once : ToolCall → Status
  always : ToolCall → Status
  never_eq : ∀ call, never call = .notApplicable
  once_eq : ∀ call, once call = if call.approved then .notApplicable else .userApproval
  always_eq : ∀ call, always call = .userApproval

/-- The `approval` expression of a generated connection. -/
inductive ApprovalExpression where
  | never
  | once
  | always
  /-- `if (NAMES.includes(toolName)) return status;` for each, then `return fallback;` -/
  | checks (lists : List (List JsString × Status)) (fallback : Status)

def qualify (slug : JsString) (tools : List JsString) : List JsString :=
  tools.map fun tool => slug ++ ascii "__" ++ tool

def byDecision (rules : List ApprovalRule) (decision : RuleDecision) : List JsString :=
  (rules.filter fun rule => rule.decision = decision).map ApprovalRule.tool

def RuleDecision.status : RuleDecision → Status
  | .deny => .denied
  | .ask => .userApproval
  | .allow => .notApplicable

def Fallback.status : Fallback → Status
  | .ask => .userApproval
  | .allow => .notApplicable

/-- An empty list is not emitted. -/
def customApprovalCode (slug : JsString) (rules : List ApprovalRule) (fallback : Fallback) :
    ApprovalExpression :=
  let lists := [RuleDecision.deny, .ask, .allow].map fun decision =>
    (qualify slug (byDecision rules decision), decision.status)
  .checks (lists.filter fun list => !list.1.isEmpty) fallback.status

def approvalExpression (slug : JsString) : ApprovalSpec → ApprovalExpression
  | .never => .never
  | .once => .once
  | .always => .always
  | .custom rules fallback => customApprovalCode slug rules fallback

def runChecks (fallback : Status) (toolName : JsString) :
    List (List JsString × Status) → Status
  | [] => fallback
  | list :: lists => if toolName ∈ list.1 then list.2 else runChecks fallback toolName lists

/-- The answer of the generated module. -/
def ApprovalExpression.answer (eve : ApprovalHelpers) (call : ToolCall) :
    ApprovalExpression → Status
  | .never => eve.never call
  | .once => eve.once call
  | .always => eve.always call
  | .checks lists fallback => runChecks fallback call.toolName lists

/-- The adapter, the compiler's check and the emitter in a row; the adapter reports what the
compiler throws. -/
def compileApproval (connectionName slug : JsString) (policy : ApprovalPolicy N) :
    Except AgentCompileError ApprovalExpression := do
  let spec ← approvalSpecFromPolicy F connectionName policy
  match validateApproval slug spec with
  | .error e => .error [⟨none, e.code ++ ascii ": " ++ e.message⟩]
  | .ok () => .ok (approvalExpression slug spec)

/-! ## What the policy says

Read off the row alone, for a bare tool name. -/

def ApprovalDefault.status (approved : Bool) : ApprovalDefault → Status
  | .never => .notApplicable
  | .once => if approved then .notApplicable else .userApproval
  | .always => .userApproval

/-- The default of a row, if it is one. -/
def storedDefault : ApprovalPolicy N → Option ApprovalDefault
  | none => some .never
  | some policy => ApprovalDefault.read (policyDefault policy)

/-- The decisions of a row. -/
def storedTools : ApprovalPolicy N → List (JsString × Value N)
  | none => []
  | some policy =>
    match member "tools" policy with
    | some (.obj members) => members
    | _ => []

/-- The row's decision for a tool that has one. -/
def storedRule (policy : ApprovalPolicy N) (tool : JsString) : Option RuleDecision :=
  (OrderedMap.get? tool (storedTools policy)).bind RuleDecision.read

/-- The row's answer: the tool's decision, else the default with its own meaning. -/
def storedStatus (policy : ApprovalPolicy N) (tool : JsString) (approved : Bool) :
    Option Status :=
  match storedRule policy tool with
  | some decision => some decision.status
  | none => (storedDefault policy).map (ApprovalDefault.status approved)

/-- The row with a decision for one more tool: the default it had, and the decisions it had
with this one set. -/
def setOverride (tool : JsString) (decision : Value N) (policy : ApprovalPolicy N) :
    ApprovalPolicy N :=
  some [(ascii "default", (policy.map policyDefault).getD (.str (ascii "never"))),
    (ascii "tools", .obj (OrderedMap.set tool decision (storedTools policy)))]

/-! ## The adapter against the row -/

section

variable {F} {policy : ApprovalPolicy N} {spec : ApprovalSpec} {connectionName slug tool : JsString}

theorem storedTools_eq_nil {policy : List (JsString × Value N)}
    (h : keyCount (member "tools" policy) = 0) : storedTools (some policy) = [] := by
  rw [storedTools]
  cases hm : member "tools" policy with
  | none => rfl
  | some v =>
    rw [hm] at h
    cases v with
    | obj members => exact List.length_eq_zero_iff.mp h
    | null | bool | num | str | arr => rfl

theorem storedRule_of_nil (h : storedTools policy = []) : storedRule policy tool = none := by
  rw [storedRule, h]
  rfl

/-- The rule a spec has for a tool. -/
def ruleDecision (rules : List ApprovalRule) (tool : JsString) : Option RuleDecision :=
  (rules.find? fun rule => rule.tool = tool).map ApprovalRule.decision

theorem ruleDecision_cons {rule : ApprovalRule} {rules : List ApprovalRule} :
    ruleDecision (rule :: rules) tool =
      if rule.tool = tool then some rule.decision else ruleDecision rules tool := by
  rw [ruleDecision, List.find?_cons]
  by_cases h : rule.tool = tool
  · rw [if_pos h, decide_eq_true h]
    rfl
  · rw [if_neg h, decide_eq_false h]
    rfl

/-- The rules of a spec are the entries of the row, each decision read. -/
theorem ruleDecision_mapM {members : List (JsString × Value N)} {rules : List ApprovalRule}
    (h : members.mapM (ruleFrom F connectionName) = .ok rules) :
    ruleDecision rules tool = (OrderedMap.get? tool members).bind RuleDecision.read := by
  induction members generalizing rules with
  | nil =>
    cases h
    rfl
  | cons entry members ih =>
    obtain ⟨rule, rest, hrule, hrest, rfl⟩ := mapM_cons_ok h
    rw [ruleFrom] at hrule
    cases hd : RuleDecision.read entry.2 with
    | none =>
      rw [hd] at hrule
      cases hrule
    | some decision =>
      rw [hd] at hrule
      cases hrule
      rw [ruleDecision_cons, OrderedMap.get?_cons, ih hrest]
      by_cases ht : entry.1 = tool
      · rw [if_pos ht, if_pos ht]
        exact hd.symm
      · rw [if_neg ht, if_neg ht]

theorem approvalSpec_cases (h : approvalSpecFromPolicy F connectionName policy = .ok spec) :
    ∃ mode, storedDefault policy = some mode ∧
      ((storedTools policy = [] ∧ spec = mode.spec) ∨
        (storedTools policy ≠ [] ∧ ∃ rules, spec = .custom rules mode.fallback ∧
          ∀ tool, ruleDecision rules tool = storedRule policy tool)) := by
  cases policy with
  | none =>
    cases h
    exact ⟨.never, rfl, .inl ⟨rfl, rfl⟩⟩
  | some policy =>
    simp only [approvalSpecFromPolicy] at h
    cases hm : ApprovalDefault.read (policyDefault policy) with
    | none =>
      rw [hm] at h
      cases h
    | some mode =>
      rw [hm] at h
      refine ⟨mode, hm, ?_⟩
      by_cases hk : keyCount (member "tools" policy) = 0
      · simp only [if_pos hk] at h
        cases h
        exact .inl ⟨storedTools_eq_nil hk, rfl⟩
      · simp only [if_neg hk] at h
        cases ht : member "tools" policy with
        | none =>
          rw [ht] at h
          cases h
        | some v =>
          rw [ht] at h hk
          cases v with
          | null | bool | num | str | arr => cases h
          | obj members =>
            obtain ⟨rules, hrules, h⟩ := bind_eq_ok h
            cases h
            have hstored : storedTools (some policy) = members := by rw [storedTools, ht]
            refine .inr ⟨?_, rules, rfl, fun tool => ?_⟩
            · rw [hstored]
              rintro rfl
              exact hk rfl
            · rw [storedRule, hstored]
              exact ruleDecision_mapM hrules

/-! ## The gate against the spec -/

theorem nodup_of_validateRules {seen : List JsString} {rules : List ApprovalRule}
    (h : validateRules slug seen rules = .ok ()) :
    (rules.map ApprovalRule.tool).Nodup ∧ ∀ rule ∈ rules, rule.tool ∉ seen := by
  induction rules generalizing seen with
  | nil => exact ⟨.nil, fun _ hr => nomatch hr⟩
  | cons rule rules ih =>
    rw [validateRules] at h
    split at h
    · cases h
    split at h
    · cases h
    split at h
    · cases h
    next hseen =>
      obtain ⟨hnodup, hnew⟩ := ih h
      refine ⟨List.nodup_cons.mpr ⟨fun hr => ?_, hnodup⟩, ?_⟩
      · obtain ⟨rule', hmem, heq⟩ := List.mem_map.mp hr
        exact hnew rule' hmem (heq ▸ List.mem_cons_self)
      · intro rule' hr
        rcases List.mem_cons.mp hr with rfl | hr
        · exact hseen
        · exact fun hs => hnew rule' hr (List.mem_cons_of_mem _ hs)

theorem mem_byDecision {rules : List ApprovalRule} {decision : RuleDecision}
    (h : (rules.map ApprovalRule.tool).Nodup) :
    tool ∈ byDecision rules decision ↔ ruleDecision rules tool = some decision := by
  induction rules with
  | nil => exact ⟨nofun, nofun⟩
  | cons rule rules ih =>
    rw [List.map_cons, List.nodup_cons] at h
    have hskip : tool ∈ byDecision (rule :: rules) decision ↔
        (rule.decision = decision ∧ rule.tool = tool) ∨ tool ∈ byDecision rules decision := by
      rw [byDecision, List.filter_cons]
      by_cases hd : rule.decision = decision
      · rw [if_pos (decide_eq_true hd), List.map_cons, List.mem_cons]
        exact or_congr ⟨fun ht => ⟨hd, ht.symm⟩, fun ht => ht.2.symm⟩ Iff.rfl
      · rw [if_neg (by simpa using hd)]
        exact ⟨.inr, fun ht => ht.resolve_left fun hc => hd hc.1⟩
    rw [hskip, ruleDecision_cons]
    by_cases ht : rule.tool = tool
    · -- a later rule for the tool would be a second one
      have hlater : tool ∉ byDecision rules decision := by
        intro hm
        obtain ⟨rule', hr, heq⟩ := List.mem_map.mp hm
        exact h.1 (List.mem_map.mpr ⟨rule', (List.mem_filter.mp hr).1, heq.trans ht.symm⟩)
      rw [if_pos ht, Option.some.injEq]
      exact ⟨fun hc => (hc.resolve_right hlater).1, fun hd => .inl ⟨hd, ht⟩⟩
    · rw [if_neg ht, ← ih h.2]
      exact ⟨fun hc => hc.resolve_left fun hd => ht hd.2, .inr⟩

theorem mem_qualify {tools : List JsString} :
    slug ++ ascii "__" ++ tool ∈ qualify slug tools ↔ tool ∈ tools := by
  rw [qualify, List.mem_map]
  constructor
  · rintro ⟨tool', hm, heq⟩
    exact List.append_cancel_left heq ▸ hm
  · intro hm
    exact ⟨tool, hm, rfl⟩

theorem runChecks_filter {fallback : Status} {name : JsString}
    (lists : List (List JsString × Status)) :
    runChecks fallback name (lists.filter fun list => !list.1.isEmpty) =
      runChecks fallback name lists := by
  induction lists with
  | nil => rfl
  | cons list lists ih =>
    rcases list with ⟨_ | ⟨n, ns⟩, status⟩
    · rw [List.filter_cons_of_neg (by simp), ih, runChecks, if_neg List.not_mem_nil]
    · rw [List.filter_cons_of_pos (by simp), runChecks, ih]
      rfl

theorem answer_custom {eve : ApprovalHelpers} {rules : List ApprovalRule} {fallback : Fallback}
    {approved : Bool} (h : (rules.map ApprovalRule.tool).Nodup) :
    (customApprovalCode slug rules fallback).answer eve ⟨slug ++ ascii "__" ++ tool, approved⟩ =
      match ruleDecision rules tool with
      | some decision => decision.status
      | none => fallback.status := by
  rw [customApprovalCode, ApprovalExpression.answer, runChecks_filter]
  simp only [List.map_cons, List.map_nil, runChecks, mem_qualify, mem_byDecision h]
  cases ruleDecision rules tool with
  | none => rfl
  | some decision => cases decision <;> rfl

theorem answer_spec {eve : ApprovalHelpers} {mode : ApprovalDefault} {call : ToolCall} :
    (approvalExpression slug mode.spec).answer eve call = mode.status call.approved := by
  cases mode with
  | never => exact eve.never_eq call
  | once => exact eve.once_eq call
  | always => exact eve.always_eq call

theorem answer_compiled {gate : ApprovalExpression} (eve : ApprovalHelpers)
    (h : compileApproval F connectionName slug policy = .ok gate) :
    ∃ mode, storedDefault policy = some mode ∧ ∀ tool approved,
      gate.answer eve ⟨slug ++ ascii "__" ++ tool, approved⟩ =
        match storedRule policy tool with
        | some decision => decision.status
        | none => if storedTools policy = [] then mode.status approved else mode.fallback.status := by
  obtain ⟨spec, hspec, h⟩ := bind_eq_ok h
  obtain ⟨mode, hmode, hcase⟩ := approvalSpec_cases hspec
  refine ⟨mode, hmode, fun tool approved => ?_⟩
  rcases hcase with ⟨hnil, rfl⟩ | ⟨hcons, rules, rfl, hrules⟩
  · have hgate : gate = approvalExpression slug mode.spec := by
      cases mode <;> cases h <;> rfl
    rw [storedRule_of_nil hnil, hgate, answer_spec]
    simp only [if_pos hnil]
  · rw [validateApproval] at h
    split at h
    · cases h
    next hvalid =>
      cases h
      split at hvalid
      · cases hvalid
      rw [approvalExpression, answer_custom (nodup_of_validateRules hvalid).1, hrules]
      simp only [if_neg hcons]

/-! ## A further rule -/

theorem policyDefault_ne_null (policy : List (JsString × Value N)) :
    policyDefault policy ≠ .null := by
  rw [policyDefault]
  split
  · nofun
  · nofun
  next hnull _ => exact hnull

theorem storedDefault_setOverride {t : JsString} {decision : Value N} :
    storedDefault (setOverride t decision policy) = storedDefault policy := by
  cases policy with
  | none => rfl
  | some policy =>
    have hmember : ∀ v : Value N, v ≠ .null → ∀ w,
        policyDefault [(ascii "default", v), (ascii "tools", w)] = v := by
      intro v hv w
      cases v with
      | null => exact absurd rfl hv
      | bool | num | str | arr | obj => rfl
    exact congrArg ApprovalDefault.read (hmember _ (policyDefault_ne_null policy) _)

theorem storedTools_setOverride {t : JsString} {decision : Value N} :
    storedTools (setOverride t decision policy) =
      OrderedMap.set t decision (storedTools policy) := rfl

theorem storedTools_setOverride_ne_nil {t : JsString} {decision : Value N} :
    storedTools (setOverride t decision policy) ≠ [] := by
  rw [storedTools_setOverride]
  intro hnil
  have hget : OrderedMap.get? t (OrderedMap.set t decision (storedTools policy)) = some decision := by
    rw [OrderedMap.get?_set, if_pos rfl]
  rw [hnil] at hget
  cases hget

theorem storedRule_setOverride {t : JsString} {decision : Value N} (h : t ≠ tool) :
    storedRule (setOverride t decision policy) tool = storedRule policy tool := by
  rw [storedRule, storedTools_setOverride, OrderedMap.get?_set, if_neg (Ne.symm h)]
  rfl

/-- The gate answers as the row does unless the row asks once, has decisions for other tools
and none for this one; and a decision for one tool does not weaken the answer for another
unless it is the first and the row asks once. -/
theorem approval_kept_iff {eve : ApprovalHelpers} {gate : ApprovalExpression}
    (h : compileApproval F connectionName slug policy = .ok gate) :
    ((∀ approved, some (gate.answer eve ⟨slug ++ ascii "__" ++ tool, approved⟩) =
        storedStatus policy tool approved) ↔
      ¬ (storedDefault policy = some .once ∧ storedTools policy ≠ [] ∧
        storedRule policy tool = none)) ∧
    ∀ t decision gate', compileApproval F connectionName slug (setOverride t decision policy) =
        .ok gate' → t ≠ tool →
      ((∀ approved, (gate.answer eve ⟨slug ++ ascii "__" ++ tool, approved⟩).rank ≤
          (gate'.answer eve ⟨slug ++ ascii "__" ++ tool, approved⟩).rank) ↔
        ¬ (storedDefault policy = some .once ∧ storedTools policy = [])) := by
  obtain ⟨mode, hmode, hanswer⟩ := answer_compiled eve h
  constructor
  · simp only [hanswer, storedStatus, hmode, Option.some.injEq]
    cases hrule : storedRule policy tool with
    | some decision => simp
    | none =>
      by_cases hnil : storedTools policy = []
      · simp [hnil]
      · simp only [if_neg hnil, Option.map_some, Option.some.injEq]
        cases mode <;> simp [ApprovalDefault.fallback, ApprovalDefault.status, Fallback.status, hnil]
  · intro t decision gate' h' ht
    obtain ⟨mode', hmode', hanswer'⟩ := answer_compiled eve h'
    rw [storedDefault_setOverride, hmode, Option.some.injEq] at hmode'
    subst hmode'
    simp only [hanswer, hanswer', storedRule_setOverride ht, if_neg storedTools_setOverride_ne_nil,
      hmode, Option.some.injEq]
    cases hrule : storedRule policy tool with
    | some decision =>
      have hcons : storedTools policy ≠ [] := by
        intro hnil
        rw [storedRule_of_nil hnil] at hrule
        cases hrule
      simp [hcons]
    | none =>
      by_cases hnil : storedTools policy = []
      · simp only [if_pos hnil]
        cases mode <;>
          simp [ApprovalDefault.fallback, ApprovalDefault.status, Fallback.status, Status.rank, hnil]
      · simp [hnil]

end

/-- The helpers of eve. -/
def approvalHelpers : ApprovalHelpers where
  never _ := .notApplicable
  once call := if call.approved then .notApplicable else .userApproval
  always _ := .userApproval
  never_eq _ := rfl
  once_eq _ := rfl
  always_eq _ := rfl

/-- A policy that asks once, and allows one tool outright. -/
def searchFree : ApprovalPolicy Int :=
  some [(ascii "default", .str (ascii "once")),
    (ascii "tools", .obj [(ascii "search", .str (ascii "never"))])]

theorem approval_kept_iff_search :
    some ((ApprovalExpression.checks [([ascii "cms__search"], .notApplicable)]
        .notApplicable).answer approvalHelpers ⟨ascii "cms" ++ ascii "__" ++ ascii "search", false⟩) =
      storedStatus searchFree (ascii "search") false := by
  have hgate : compileApproval decimal (ascii "CMS") (ascii "cms") searchFree =
      .ok (.checks [([ascii "cms__search"], .notApplicable)] .notApplicable) := rfl
  refine (approval_kept_iff hgate).1.mpr ?_ false
  rintro ⟨-, -, hrule⟩
  cases hrule

/-- The other tools are not asked for at all. -/
theorem once_lost :
    (compileApproval decimal (ascii "CMS") (ascii "cms") searchFree).map (fun gate =>
        gate.answer approvalHelpers ⟨ascii "cms__delete", false⟩) = .ok .notApplicable ∧
      storedStatus searchFree (ascii "delete") false = some .userApproval :=
  ⟨rfl, rfl⟩

end InvisibleString.Compiler
