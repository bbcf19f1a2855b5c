import InvisibleString.Compiler.Compile
import InvisibleString.Connections.Siblings

/- # `Connections.Reach` — the tools of a connection, for a pipeline step and for an agent

A tool step reads the lists of the row as they are.  An agent gets a module that is compiled
from the row: there an empty list is no list, and the policy has a word.

**Proved here.**

    the step alone reaches the tools that the policy denies, the agent alone those of an empty
      allow list; they agree on all others  (`tools_reached_iff`)
-/

namespace InvisibleString.Connections

open Checks Json
open Compiler

variable {N : Type} (F : NumberFormat N)

/-- A row with the columns that decide about tools. -/
structure ToolRow (N : Type) extends ConnectionRow where
  approvalPolicy : ApprovalPolicy N

/-- The filter checks of `executeToolStep`: the message of the one that fails. -/
def toolFilterError (row : ToolRow N) (tool : JsString) : Option JsString :=
  if (row.toolAllow.any fun allow => tool ∉ allow) = true then
    some (ascii "tool \"" ++ tool ++ ascii "\" is not on connection \"" ++ row.name ++
      ascii "\"'s tool allowlist")
  else if (row.toolBlock.any fun block => tool ∈ block) = true then
    some (ascii "tool \"" ++ tool ++ ascii "\" is blocked on connection \"" ++ row.name ++
      ascii "\"")
  else none

/-- What the generated module of a connection says about tools. -/
structure ToolModule where
  tools : Option ToolFilterSpec
  approval : ApprovalExpression

/-- The adapter, the compiler's checks and the emitter for these columns. -/
def compileTools (slug : JsString) (row : ToolRow N) : Except AgentCompileError ToolModule := do
  let tools ← (toolFilterFrom row.toConnectionRow).mapError (List.map ConnectionProblem.issue)
  let spec ← approvalSpecFromPolicy F row.name row.approvalPolicy
  (validateTools slug tools >>= fun _ => validateApproval slug spec).mapError fun e =>
    [⟨none, e.code ++ ascii ": " ++ e.message⟩]
  .ok ⟨tools, approvalExpression slug spec⟩

/-- What eve makes of the `tools` of a connection. -/
structure ToolFilters where
  exposes : Option ToolFilterSpec → JsString → Bool
  none_eq : ∀ tool, exposes none tool = true
  allow_eq : ∀ allow tool, exposes (some ⟨some allow, none⟩) tool = decide (tool ∈ allow)
  block_eq : ∀ block tool, exposes (some ⟨none, some block⟩) tool = decide (tool ∉ block)

/-- The module shows the tool to the agent and never denies it. -/
def ToolModule.Reaches (eveFilters : ToolFilters) (eve : ApprovalHelpers) (slug : JsString)
    (built : ToolModule) (tool : JsString) : Prop :=
  eveFilters.exposes built.tools tool = true ∧
    ∀ approved, built.approval.answer eve ⟨slug ++ ascii "__" ++ tool, approved⟩ ≠ .denied

/-- No list that filters withholds the tool. -/
def Listed (row : ToolRow N) (tool : JsString) : Prop :=
  (filters row.toolAllow = true → tool ∈ row.toolAllow.getD []) ∧ tool ∉ row.toolBlock.getD []

section

variable {F} {eveFilters : ToolFilters} {eve : ApprovalHelpers} {slug tool : JsString}
  {row : ToolRow N} {policy : ApprovalPolicy N}

theorem filters_eq_true {tools : Option (List JsString)} (h : filters tools = true) :
    ∃ names, tools = some names ∧ names ≠ [] := by
  cases tools with
  | none => cases h
  | some names => exact ⟨names, rfl, of_decide_eq_true h⟩

theorem getD_of_not_filters {tools : Option (List JsString)} (h : filters tools = false) :
    tools.getD [] = [] := by
  cases tools with
  | none => rfl
  | some names => exact not_not.mp (of_decide_eq_false h)

theorem exposes_iff {tools : Option ToolFilterSpec}
    (h : toolFilterFrom row.toConnectionRow = .ok tools) :
    eveFilters.exposes tools tool = true ↔ Listed row tool := by
  rcases row with ⟨⟨id, name, allow, block⟩, policy⟩
  rw [Listed]
  simp only [toolFilterFrom, filterConflict] at h
  cases hallow : filters allow with
  | true =>
    obtain ⟨names, rfl, -⟩ := filters_eq_true hallow
    cases hblock : filters block with
    | true =>
      rw [hallow, hblock] at h
      cases h
    | false =>
      rw [hallow, hblock] at h
      cases h
      rw [eveFilters.allow_eq, getD_of_not_filters hblock]
      simp
  | false =>
    cases hblock : filters block with
    | true =>
      obtain ⟨names, rfl, -⟩ := filters_eq_true hblock
      rw [hallow, hblock] at h
      cases h
      rw [eveFilters.block_eq]
      simp
    | false =>
      rw [hallow, hblock] at h
      cases h
      rw [eveFilters.none_eq, getD_of_not_filters hblock]
      simp

theorem answer_ne_denied {name : JsString} {spec : ApprovalSpec}
    (hspec : approvalSpecFromPolicy F name policy = .ok spec)
    (hvalid : validateApproval slug spec = .ok ()) :
    (∀ approved, (approvalExpression slug spec).answer eve
        ⟨slug ++ ascii "__" ++ tool, approved⟩ ≠ .denied) ↔
      storedRule policy tool ≠ some .deny := by
  have hgate : compileApproval F name slug policy = .ok (approvalExpression slug spec) := by
    rw [compileApproval, bind_of_eq_ok hspec, hvalid]
  obtain ⟨mode, -, hanswer⟩ := answer_compiled eve hgate
  simp only [hanswer]
  cases hrule : storedRule policy tool with
  | some decision => cases decision <;> simp [Compiler.RuleDecision.status]
  | none =>
    refine ⟨fun _ => nofun, fun _ approved => ?_⟩
    by_cases hnil : storedTools policy = []
    · simp only [if_pos hnil]
      cases mode <;> cases approved <;> exact nofun
    · simp only [if_neg hnil]
      cases mode <;> exact nofun

theorem reaches_iff {built : ToolModule} (h : compileTools F slug row = .ok built) :
    built.Reaches eveFilters eve slug tool ↔
      Listed row tool ∧ storedRule row.approvalPolicy tool ≠ some .deny := by
  obtain ⟨tools, htools, h⟩ := bind_eq_ok h
  obtain ⟨spec, hspec, h⟩ := bind_eq_ok h
  obtain ⟨_, hvalid, h⟩ := bind_eq_ok h
  cases h
  exact and_congr (exposes_iff (mapError_ok.mp htools))
    (answer_ne_denied hspec (then_ok.mp (mapError_ok.mp hvalid)).2)

/-- The step goes on with the listed tools, and with none where the allow list is empty. -/
theorem toolFilterError_iff :
    toolFilterError row tool = none ↔ Listed row tool ∧ row.toolAllow ≠ some [] := by
  have hallow : (row.toolAllow.any fun allow => tool ∉ allow) = true ↔
      ¬ ((filters row.toolAllow = true → tool ∈ row.toolAllow.getD []) ∧
        row.toolAllow ≠ some []) := by
    rcases row.toolAllow with _ | (_ | ⟨first, allow⟩) <;> simp [filters]
  have hblock : (row.toolBlock.any fun block => tool ∈ block) = true ↔
      tool ∈ row.toolBlock.getD [] := by
    cases row.toolBlock <;> simp
  rw [toolFilterError, Listed, and_right_comm]
  by_cases ha : (row.toolAllow.any fun allow => tool ∉ allow) = true
  · rw [if_pos ha]
    exact iff_of_false (Option.some_ne_none _) fun h => hallow.mp ha h.1
  by_cases hb : (row.toolBlock.any fun block => tool ∈ block) = true
  · rw [if_neg ha, if_pos hb]
    exact iff_of_false (Option.some_ne_none _) fun h => h.2 (hblock.mp hb)
  · rw [if_neg ha, if_neg hb]
    exact ⟨fun _ => ⟨not_not.mp (mt hallow.mpr ha), mt hblock.mpr hb⟩, fun _ => rfl⟩

end

/-- Of the tools that no filtering list withholds, the step alone reaches those that the policy
denies, unless the allow list is empty; the agent alone reaches all the others when it is. -/
theorem tools_reached_iff (eveFilters : ToolFilters) (eve : ApprovalHelpers) {slug : JsString}
    {row : ToolRow N} {built : ToolModule} (h : compileTools F slug row = .ok built)
    (tool : JsString) :
    (toolFilterError row tool = none ∧ ¬ built.Reaches eveFilters eve slug tool ↔
      Listed row tool ∧ row.toolAllow ≠ some [] ∧
        storedRule row.approvalPolicy tool = some .deny) ∧
    (toolFilterError row tool ≠ none ∧ built.Reaches eveFilters eve slug tool ↔
      Listed row tool ∧ row.toolAllow = some [] ∧
        storedRule row.approvalPolicy tool ≠ some .deny) := by
  simp only [Ne, toolFilterError_iff, reaches_iff h]
  constructor
  · constructor
    · rintro ⟨⟨hlisted, hallow⟩, hno⟩
      exact ⟨hlisted, hallow, not_not.mp fun hdeny => hno ⟨hlisted, hdeny⟩⟩
    · rintro ⟨hlisted, hallow, hdeny⟩
      exact ⟨⟨hlisted, hallow⟩, fun hreached => hreached.2 hdeny⟩
  · constructor
    · rintro ⟨hno, hlisted, hdeny⟩
      exact ⟨hlisted, not_not.mp fun hallow => hno ⟨hlisted, hallow⟩, hdeny⟩
    · rintro ⟨hlisted, hallow, hdeny⟩
      exact ⟨fun hgoes => hgoes.2 hallow, hlisted, hdeny⟩

/-- Tool lists as eve reads them. -/
def toolFilters : ToolFilters where
  exposes
    | none, _ => true
    | some tools, tool =>
      (tools.allow.all fun allow => decide (tool ∈ allow)) &&
        tools.block.all fun block => decide (tool ∉ block)
  none_eq _ := rfl
  allow_eq _ _ := Bool.and_true _
  block_eq _ _ := rfl

/-- An empty allow list, and no policy. -/
theorem tools_reached_iff_empty : ∃ (row : ToolRow Int) (built : ToolModule),
    compileTools decimal (ascii "cms") row = .ok built ∧
      toolFilterError row (ascii "search") ≠ none ∧
      built.Reaches toolFilters Compiler.approvalHelpers (ascii "cms") (ascii "search") := by
  have hbuilt : compileTools decimal (ascii "cms")
      (⟨⟨ascii "cn_0", ascii "CMS", some [], none⟩, none⟩ : ToolRow Int) = .ok ⟨none, .never⟩ := rfl
  exact ⟨_, _, hbuilt, (tools_reached_iff decimal toolFilters Compiler.approvalHelpers hbuilt
    (ascii "search")).2.mpr ⟨⟨nofun, List.not_mem_nil⟩, rfl, nofun⟩⟩

end InvisibleString.Connections
