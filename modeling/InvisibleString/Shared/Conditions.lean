import InvisibleString.Lib.Checks
import InvisibleString.Lib.JsonEquality
import InvisibleString.Lib.Text
import InvisibleString.Shared.Scope
import Mathlib.Data.List.Infix

/- # `Shared.Conditions` — evaluating the conditions of a workflow

A condition is a tree of `and`, `or` and `not` over comparisons of operands, and an operand is a
literal or a reference into the scope.  The evaluator goes through the tree in order, stops where
the answer is known, and throws at a node nested deeper than the cap.

**Proved here.**

    when the equality of the code is the equality of JSON  (`deepEquals_iff`)
    an operand is what the data has, or null, where the reference stays on the data
                                                                        (`operand_iff`)
    where the operands and the comparisons are right, a node throws when the evaluation comes
      to a node beyond the cap, and has its truth value otherwise  (`evaluateNode_spec`)
    a condition means what is documented exactly where its operands stay on the data, no two
      compared values are only alike, and a node beyond the cap is come to
                                                                        (`conditions_documented`)
-/

namespace InvisibleString.Shared

open Json
open Pipeline (JsonValue JsonRecord PipelineCondition ConditionOperand)

/-! ## The operators -/

mutual

/-- `deepEquals` from a value of the data on. -/
def deepEqualsData : JsonValue → JsValue Rat → Bool
  | .null, .data .null => true
  | .bool a, .data (.bool b) => a = b
  | .num a, .data (.num b) => a = b
  | .str a, .data (.str b) => a = b
  | .arr items, .data (.arr items') => deepEqualsItems items items'
  | .obj members, .data (.obj members') =>
    members.length = members'.length && deepEqualsMembers members members'
  -- no own member of `Object.prototype` is enumerable
  | .obj members, .prototype => members.isEmpty
  | _, _ => false

def deepEqualsItems : List JsonValue → List JsonValue → Bool
  | [], [] => true
  | item :: items, item' :: items' =>
    deepEqualsData item (.data item') && deepEqualsItems items items'
  | _, _ => false

/-- The members of the one against the properties of the other. -/
def deepEqualsMembers : JsonRecord → JsonRecord → Bool
  | [], _ => true
  | (key, value) :: members, members' =>
    (property members' key).any (deepEqualsData value) && deepEqualsMembers members members'

end

def deepEquals : JsValue Rat → JsValue Rat → Bool
  | .data a, b => deepEqualsData a b
  | .prototype, .prototype => true
  | .prototype, .data (.obj members) => members.isEmpty
  | .method a, .method b => a = b
  | _, _ => false

inductive Comparison where
  | gt
  | gte
  | lt
  | lte

def Comparison.test {α : Type} [LT α] [LE α] [DecidableLT α] [DecidableLE α] :
    Comparison → α → α → Bool
  | .gt, a, b => a > b
  | .gte, a, b => a ≥ b
  | .lt, a, b => a < b
  | .lte, a, b => a ≤ b

/-- Numbers as numbers, strings by code units. -/
def compare (op : Comparison) : JsValue Rat → JsValue Rat → Bool
  | .data (.num a), .data (.num b) => op.test a b
  | .data (.str a), .data (.str b) => op.test a b
  | _, _ => false

def containsValue : JsValue Rat → JsValue Rat → Bool
  | .data (.str haystack), .data (.str needle) => includes needle haystack
  | .data (.arr items), needle => items.any fun entry => deepEquals (.data entry) needle
  | _, _ => false

def startsWith : JsValue Rat → JsValue Rat → Bool
  | .data (.str a), .data (.str b) => b.isPrefixOf a
  | _, _ => false

def endsWith : JsValue Rat → JsValue Rat → Bool
  | .data (.str a), .data (.str b) => b.isSuffixOf a
  | _, _ => false

/-- `Boolean(value)`. -/
def truthy : JsValue Rat → Bool
  | .data .null => false
  | .data (.bool b) => b
  | .data (.num n) => n ≠ 0
  | .data (.str s) => s ≠ []
  | _ => true

def isEmptyValue : JsValue Rat → Bool
  | .data .null => true
  | .data (.str s) => s = []
  | .data (.arr items) => items = []
  | .data (.obj members) => members.isEmpty
  | .prototype => true
  | _ => false

def isNull : JsValue Rat → Bool
  | .data .null => true
  | _ => false

def inList (needle : JsValue Rat) : JsValue Rat → Bool
  | .data (.arr items) => items.any fun entry => deepEquals (.data entry) needle
  | _ => false

/-! ## The evaluator -/

/-- A missing path is `null`. -/
def operand (scope : PipelineScope) : ConditionOperand → JsValue Rat
  | .literal value => .data value
  | .ref path => (resolveScopePath scope path).getD (.data .null)

def maxConditionDepth : Nat := 8

def depthMessage : JsString := ascii "condition nesting exceeds the depth cap of 8"

section Evaluate

variable (scope : PipelineScope)

/-- The operators on operands. -/
def evaluateLeaf : PipelineCondition → Bool
  | .eq a b => deepEquals (operand scope a) (operand scope b)
  | .ne a b => !deepEquals (operand scope a) (operand scope b)
  | .gt a b => compare .gt (operand scope a) (operand scope b)
  | .gte a b => compare .gte (operand scope a) (operand scope b)
  | .lt a b => compare .lt (operand scope a) (operand scope b)
  | .lte a b => compare .lte (operand scope a) (operand scope b)
  | .contains a b => containsValue (operand scope a) (operand scope b)
  | .startsWith a b => startsWith (operand scope a) (operand scope b)
  | .endsWith a b => endsWith (operand scope a) (operand scope b)
  | .exists a => !isNull (operand scope a)
  | .truthy a => truthy (operand scope a)
  | .empty a => isEmptyValue (operand scope a)
  | .in a b => inList (operand scope a) (operand scope b)
  | .and _ | .or _ | .not _ => false

mutual

def evaluateNode (condition : PipelineCondition) (depth : Nat) : Except JsString Bool :=
  if depth > maxConditionDepth then throw depthMessage
  else
    match condition with
    | .and children => evaluateEvery children (depth + 1)
    | .or children => evaluateSome children (depth + 1)
    | .not child => do return !(← evaluateNode child (depth + 1))
    | leaf => return evaluateLeaf scope leaf

def evaluateEvery (children : List PipelineCondition) (depth : Nat) : Except JsString Bool :=
  match children with
  | [] => return true
  | child :: children => do
    if ← evaluateNode child depth then evaluateEvery children depth else return false

def evaluateSome (children : List PipelineCondition) (depth : Nat) : Except JsString Bool :=
  match children with
  | [] => return false
  | child :: children => do
    if ← evaluateNode child depth then return true else evaluateSome children depth

end

def evaluateCondition (condition : PipelineCondition) : Except JsString Bool :=
  evaluateNode scope condition 1

end Evaluate

/-! ## What is documented -/

/-- The value of an operand as far as the data goes. -/
def operandData (scope : PipelineScope) : ConditionOperand → JsonValue
  | .literal value => value
  | .ref path => (scope.dataAt path).getD .null

/-- Less, of two numbers or two strings. -/
def Less : JsonValue → JsonValue → Prop
  | .num a, .num b => a < b
  | .str a, .str b => a < b
  | _, _ => False

def LessOrEqual : JsonValue → JsonValue → Prop
  | .num a, .num b => a ≤ b
  | .str a, .str b => a ≤ b
  | _, _ => False

/-- A part of a string, or an element of an array. -/
def Contains : JsonValue → JsonValue → Prop
  | .str haystack, .str needle => needle <:+: haystack
  | .arr items, needle => ∃ entry ∈ items, JsonEq entry needle
  | _, _ => False

def StartsWith : JsonValue → JsonValue → Prop
  | .str a, .str b => b <+: a
  | _, _ => False

def EndsWith : JsonValue → JsonValue → Prop
  | .str a, .str b => b <:+ a
  | _, _ => False

def Truthy : JsonValue → Prop
  | .null => False
  | .bool b => b = true
  | .num n => n ≠ 0
  | .str s => s ≠ []
  | .arr _ | .obj _ => True

def Empty : JsonValue → Prop
  | .null => True
  | .str s => s = []
  | .arr items => items = []
  | .obj members => members = []
  | .bool _ | .num _ => False

def In (needle : JsonValue) : JsonValue → Prop
  | .arr items => ∃ entry ∈ items, JsonEq entry needle
  | _ => False

section Documented

variable (scope : PipelineScope)

def LeafHolds : PipelineCondition → Prop
  | .eq a b => JsonEq (operandData scope a) (operandData scope b)
  | .ne a b => ¬ JsonEq (operandData scope a) (operandData scope b)
  | .gt a b => Less (operandData scope b) (operandData scope a)
  | .gte a b => LessOrEqual (operandData scope b) (operandData scope a)
  | .lt a b => Less (operandData scope a) (operandData scope b)
  | .lte a b => LessOrEqual (operandData scope a) (operandData scope b)
  | .contains a b => Contains (operandData scope a) (operandData scope b)
  | .startsWith a b => StartsWith (operandData scope a) (operandData scope b)
  | .endsWith a b => EndsWith (operandData scope a) (operandData scope b)
  | .exists a => operandData scope a ≠ .null
  | .truthy a => Truthy (operandData scope a)
  | .empty a => Empty (operandData scope a)
  | .in a b => In (operandData scope a) (operandData scope b)
  | .and _ | .or _ | .not _ => False

mutual

/-- The condition is true of the scope. -/
def Holds : PipelineCondition → Prop
  | .and children => HoldsEvery children
  | .or children => HoldsSome children
  | .not child => ¬ Holds child
  | leaf => LeafHolds scope leaf

def HoldsEvery : List PipelineCondition → Prop
  | [] => True
  | child :: children => Holds child ∧ HoldsEvery children

def HoldsSome : List PipelineCondition → Prop
  | [] => False
  | child :: children => Holds child ∨ HoldsSome children

end

end Documented

mutual

/-- How deep the nodes of a condition are nested; the root is at depth 1. -/
def nesting : PipelineCondition → Nat
  | .and children => nestingAll children + 1
  | .or children => nestingAll children + 1
  | .not child => nesting child + 1
  | _ => 1

def nestingAll : List PipelineCondition → Nat
  | [] => 0
  | child :: children => max (nesting child) (nestingAll children)

end

mutual

/-- Every leaf satisfies `P`. -/
def Leaves (P : PipelineCondition → Prop) : PipelineCondition → Prop
  | .and children => LeavesAll P children
  | .or children => LeavesAll P children
  | .not child => Leaves P child
  | leaf => P leaf

def LeavesAll (P : PipelineCondition → Prop) : List PipelineCondition → Prop
  | [] => True
  | child :: children => Leaves P child ∧ LeavesAll P children

end

def operands : PipelineCondition → List ConditionOperand
  | .eq a b | .ne a b | .gt a b | .gte a b | .lt a b | .lte a b | .contains a b
  | .startsWith a b | .endsWith a b | .in a b => [a, b]
  | .exists a | .truthy a | .empty a => [a]
  | .and _ | .or _ | .not _ => []

def against (needle : JsonValue) : JsonValue → List (JsonValue × JsonValue)
  | .arr items => items.map fun entry => (entry, needle)
  | _ => []

/-- The pairs of values whose equality a leaf asks for. -/
def compared (scope : PipelineScope) : PipelineCondition → List (JsonValue × JsonValue)
  | .eq a b | .ne a b => [(operandData scope a, operandData scope b)]
  | .contains a b => against (operandData scope b) (operandData scope a)
  | .in a b => against (operandData scope a) (operandData scope b)
  | _ => []

/-- The operands are resolved as documented, and equality is that of JSON. -/
def LeafRight (scope : PipelineScope) (leaf : PipelineCondition) : Prop :=
  (∀ value ∈ operands leaf, operand scope value = .data (operandData scope value)) ∧
    ∀ pair ∈ compared scope leaf,
      deepEquals (.data pair.1) (.data pair.2) = true ↔ JsonEq pair.1 pair.2

/-- The condition means what is documented. -/
structure Documented (scope : PipelineScope) (condition : PipelineCondition) : Prop where
  leaves : Leaves (LeafRight scope) condition
  beyond : maxConditionDepth < nesting condition →
    evaluateCondition scope condition = .error depthMessage
  within : nesting condition ≤ maxConditionDepth →
    ∃ answer, evaluateCondition scope condition = .ok answer ∧
      (answer = true ↔ Holds scope condition)

/-! ## Where it does -/

mutual

/-- The second value is like the first, except that an object of the first may have a member
`__proto__` with the value `{}` where the object of the second, of the same size, has none. -/
def Alike : JsonValue → JsonValue → Prop
  | .null, .null => True
  | .bool a, .bool b => a = b
  | .num a, .num b => a = b
  | .str a, .str b => a = b
  | .arr items, .arr items' => AlikeItems items items'
  | .obj members, .obj members' =>
    members.length = members'.length ∧ AlikeMembers members members'
  | _, _ => False

def AlikeItems : List JsonValue → List JsonValue → Prop
  | [], [] => True
  | item :: items, item' :: items' => Alike item item' ∧ AlikeItems items items'
  | _, _ => False

def AlikeMembers : JsonRecord → JsonRecord → Prop
  | [], _ => True
  | (key, value) :: members, members' =>
    (match OrderedMap.get? key members' with
      | some value' => Alike value value'
      | none => key = protoName ∧ value = .obj []) ∧ AlikeMembers members members'

end

/-- The reference stays on the data, or runs into `null`. -/
def OnData (scope : PipelineScope) : ConditionOperand → Prop
  | .literal _ => True
  | .ref path => scope.meetsPrototype path = false ∨ scope.meetsNull path = true

/-- The operands stay on the data, and compared values that are alike are equal. -/
def LeafPlain (scope : PipelineScope) (leaf : PipelineCondition) : Prop :=
  (∀ value ∈ operands leaf, OnData scope value) ∧
    ∀ pair ∈ compared scope leaf, Alike pair.1 pair.2 → JsonEq pair.1 pair.2

/-- A literal is a scalar or an array of scalars. -/
def isScalar : JsonValue → Bool
  | .arr _ | .obj _ => false
  | _ => true

def ParsedOperand : ConditionOperand → Prop
  | .literal (.arr items) => ∀ item ∈ items, isScalar item = true
  | .literal value => isScalar value = true
  | .ref _ => True

def Parsed (condition : PipelineCondition) : Prop :=
  Leaves (fun leaf => ∀ value ∈ operands leaf, ParsedOperand value) condition

/-- No object of the scope lists a key twice. -/
structure PipelineScope.KeysOnce (scope : PipelineScope) : Prop where
  trigger : (Value.obj scope.trigger).KeysOnce
  steps : scope.stepsObject.KeysOnce
  state : (Value.obj scope.state).KeysOnce
  item : ∀ item ∈ scope.item, item.KeysOnce

mutual

/-- The evaluation comes to a node beyond the cap. -/
def Reaches (scope : PipelineScope) (condition : PipelineCondition) (depth : Nat) : Prop :=
  depth > maxConditionDepth ∨
    match condition with
    | .and children => ReachesEvery scope children (depth + 1)
    | .or children => ReachesSome scope children (depth + 1)
    | .not child => Reaches scope child (depth + 1)
    | _ => False

/-- As long as the children before are true. -/
def ReachesEvery (scope : PipelineScope) (children : List PipelineCondition) (depth : Nat) :
    Prop :=
  match children with
  | [] => False
  | child :: children =>
    Reaches scope child depth ∨ Holds scope child ∧ ReachesEvery scope children depth

/-- As long as they are false. -/
def ReachesSome (scope : PipelineScope) (children : List PipelineCondition) (depth : Nat) :
    Prop :=
  match children with
  | [] => False
  | child :: children =>
    Reaches scope child depth ∨ ¬ Holds scope child ∧ ReachesSome scope children depth

end

/-! ## Equality -/

theorem deepEqualsData_prototype {value : JsonValue} :
    deepEqualsData value .prototype = true ↔ value = .obj [] := by
  cases value with
  | obj members =>
    cases members with
    | nil => exact iff_of_true rfl rfl
    | cons => exact iff_of_false nofun nofun
  | null | bool | num | str | arr => exact iff_of_false nofun nofun

theorem deepEqualsData_method (value : JsonValue) (name : JsString) :
    deepEqualsData value (.method name) = false := by
  cases value with
  | null | bool | num | str | arr | obj => rfl

/-- A member against what an object without it answers. -/
theorem deepEqualsData_inherited {key : JsString} {value : JsonValue} :
    (inheritedProperty key).any (deepEqualsData value) = true ↔
      key = protoName ∧ value = .obj [] := by
  rw [inheritedProperty]
  by_cases hproto : key = protoName
  · rw [if_pos hproto]
    exact deepEqualsData_prototype.trans (iff_and_self.mpr fun _ => hproto)
  · rw [if_neg hproto]
    refine iff_of_false ?_ fun h => hproto h.1
    by_cases hmethod : key ∈ prototypeMethods
    · rw [if_pos hmethod, Option.any_some, deepEqualsData_method]
      intro h
      cases h
    · rw [if_neg hmethod]
      intro h
      cases h

mutual

theorem deepEqualsData_iff : (a b : JsonValue) → (deepEqualsData a (.data b) = true ↔ Alike a b)
  | .null, b => by cases b <;> simp [deepEqualsData, Alike]
  | .bool _, b => by cases b <;> simp [deepEqualsData, Alike]
  | .num _, b => by cases b <;> simp [deepEqualsData, Alike]
  | .str _, b => by cases b <;> simp [deepEqualsData, Alike]
  | .arr items, b => by
    cases b with
    | arr items' => exact deepEqualsItems_iff items items'
    | null | bool | num | str | obj => exact iff_of_false nofun nofun
  | .obj members, b => by
    cases b with
    | obj members' =>
      rw [deepEqualsData, Alike, Bool.and_eq_true, decide_eq_true_eq,
        deepEqualsMembers_iff members members']
    | null | bool | num | str | arr => exact iff_of_false nofun nofun

theorem deepEqualsItems_iff : (items items' : List JsonValue) →
    (deepEqualsItems items items' = true ↔ AlikeItems items items')
  | [], items' => by cases items' <;> simp [deepEqualsItems, AlikeItems]
  | item :: items, [] => iff_of_false nofun nofun
  | item :: items, item' :: items' => by
    rw [deepEqualsItems, AlikeItems, Bool.and_eq_true, deepEqualsData_iff item item',
      deepEqualsItems_iff items items']

theorem deepEqualsMembers_iff : (members members' : JsonRecord) →
    (deepEqualsMembers members members' = true ↔ AlikeMembers members members')
  | [], _ => iff_of_true rfl trivial
  | (key, value) :: members, members' => by
    rw [deepEqualsMembers, AlikeMembers, Bool.and_eq_true,
      deepEqualsMembers_iff members members']
    refine and_congr_left fun _ => ?_
    cases hown : OrderedMap.get? key members' with
    | some value' =>
      rw [property_of_own hown]
      exact deepEqualsData_iff value value'
    | none =>
      rw [property_of_absent hown]
      exact deepEqualsData_inherited

end

mutual

theorem alike_of_jsonEq : (a b : JsonValue) → a.KeysOnce → b.KeysOnce → JsonEq a b → Alike a b
  | .null, b, _, _, h => by
    cases b with
    | null => trivial
    | bool | num | str | arr | obj => cases h
  | .bool _, b, _, _, h => by
    cases b with
    | bool =>
      cases h
      rfl
    | null | num | str | arr | obj => cases h
  | .num _, b, _, _, h => by
    cases b with
    | num =>
      cases h
      rfl
    | null | bool | str | arr | obj => cases h
  | .str _, b, _, _, h => by
    cases b with
    | str =>
      cases h
      rfl
    | null | bool | num | arr | obj => cases h
  | .arr items, b, ha, hb, h => by
    cases b with
    | arr items' => exact alikeItems_of_jsonEq items items' ha hb (jsonEq_arr.mp h)
    | null | bool | num | str | obj => cases h
  | .obj members, b, ha, hb, h => by
    cases b with
    | obj members' =>
      obtain ⟨hlength, hmembers⟩ := (jsonEq_obj ha.1 hb.1).mp h
      exact ⟨hlength, alikeMembers_of_jsonEq members members' ha.2 hb.2 hmembers⟩
    | null | bool | num | str | arr => cases h

theorem alikeItems_of_jsonEq : (items items' : List JsonValue) → KeysOnceItems items →
    KeysOnceItems items' → List.Forall₂ JsonEq items items' → AlikeItems items items'
  | [], _, _, _, h => by
    cases h
    trivial
  | item :: items, _, ha, hb, h => by
    cases h with
    | cons hitem hitems =>
      exact ⟨alike_of_jsonEq item _ ha.1 hb.1 hitem,
        alikeItems_of_jsonEq items _ ha.2 hb.2 hitems⟩

theorem alikeMembers_of_jsonEq : (members members' : JsonRecord) → KeysOnceMembers members →
    KeysOnceMembers members' →
    (∀ key value, (key, value) ∈ members →
      ∃ value', OrderedMap.get? key members' = some value' ∧ JsonEq value value') →
    AlikeMembers members members'
  | [], _, _, _, _ => trivial
  | (key, value) :: members, members', ha, hb, h => by
    obtain ⟨value', hget, heq⟩ := h key value List.mem_cons_self
    refine ⟨?_, alikeMembers_of_jsonEq members members' ha.2 hb fun key value hmem =>
      h key value (List.mem_cons_of_mem _ hmem)⟩
    rw [hget]
    have hb' := keysOnce_of_mem_members hb (OrderedMap.mem_of_get? hget)
    exact alike_of_jsonEq value value' ha.1 hb' heq

end

/-- The equality of the code is that of JSON exactly where alike values are equal. -/
theorem deepEquals_iff {a b : JsonValue} (ha : a.KeysOnce) (hb : b.KeysOnce) :
    (deepEquals (.data a) (.data b) = true ↔ JsonEq a b) ↔ (Alike a b → JsonEq a b) := by
  show (deepEqualsData a (.data b) = true ↔ _) ↔ _
  rw [deepEqualsData_iff]
  exact ⟨Iff.mp, fun h => ⟨h, alike_of_jsonEq a b ha hb⟩⟩

/-! ## Operands -/

theorem operand_iff (scope : PipelineScope) (value : ConditionOperand) :
    operand scope value = .data (operandData scope value) ↔ OnData scope value := by
  cases value with
  | literal => exact iff_of_true rfl trivial
  | ref path =>
    show (resolveScopePath scope path).getD _ = .data ((scope.dataAt path).getD .null) ↔
      scope.meetsPrototype path = false ∨ scope.meetsNull path = true
    cases hmeets : scope.meetsPrototype path with
    | false =>
      rw [resolveScopePath_data hmeets]
      refine iff_of_true ?_ (.inl rfl)
      cases scope.dataAt path with
      | none => rfl
      | some found => rfl
    | true =>
      obtain ⟨hnone, hfound⟩ := resolveScopePath_inherits hmeets
      rw [hnone]
      rw [FoundOff] at hfound
      split at hfound
      · next hnull =>
        rw [hfound]
        exact iff_of_true rfl (.inr hnull)
      · next hnull =>
        have hoff : ¬ (true = false ∨ scope.meetsNull path = true) := by
          rintro (h | h)
          · cases h
          · exact hnull h
        obtain ⟨found, hfound, rfl | ⟨name, rfl⟩⟩ := hfound
        · rw [hfound]
          exact iff_of_false (by intro h; cases h) hoff
        · rw [hfound]
          exact iff_of_false (by intro h; cases h) hoff

theorem keysOnce_of_isScalar {value : JsonValue} (h : isScalar value = true) :
    value.KeysOnce := by
  cases value with
  | null | bool | num | str => trivial
  | arr | obj => cases h

theorem keysOnceItems_of_isScalar {items : List JsonValue}
    (h : ∀ item ∈ items, isScalar item = true) : KeysOnceItems items := by
  induction items with
  | nil => trivial
  | cons item items ih =>
    exact ⟨keysOnce_of_isScalar (h item List.mem_cons_self),
      ih fun item hmem => h item (List.mem_cons_of_mem _ hmem)⟩

theorem keysOnce_ownSegment {value value' : JsonValue} {segment : JsString}
    (h : value.KeysOnce) (hown : ownSegment value segment = some value') : value'.KeysOnce := by
  cases value with
  | arr items =>
    obtain ⟨index, -, hitem⟩ := Option.bind_eq_some_iff.mp hown
    exact keysOnce_of_mem_items h (List.mem_of_getElem? hitem)
  | obj members => exact keysOnce_of_mem_members h.2 (OrderedMap.mem_of_get? hown)
  | null | bool | num | str => cases hown

theorem keysOnce_ownPath {value value' : JsonValue} {segments : List JsString}
    (h : value.KeysOnce) (hown : ownPath (some value) segments = some value') :
    value'.KeysOnce := by
  induction segments generalizing value with
  | nil =>
    cases hown
    exact h
  | cons segment segments ih =>
    rw [ownPath_cons] at hown
    cases hsegment : ownSegment value segment with
    | none =>
      rw [hsegment, ownPath_none] at hown
      cases hown
    | some next =>
      rw [hsegment] at hown
      exact ih (keysOnce_ownSegment h hsegment) hown

theorem PipelineScope.KeysOnce.part {scope : PipelineScope} (h : scope.KeysOnce)
    {head : JsString} {value : JsonValue} (hpart : scope.part head = some value) :
    value.KeysOnce := by
  rw [PipelineScope.part] at hpart
  split at hpart
  · cases hpart
    exact h.trigger
  · split at hpart
    · cases hpart
      exact h.steps
    · split at hpart
      · cases hpart
        exact h.state
      · split at hpart
        · exact h.item value hpart
        · split at hpart
          · cases hpart
            trivial
          · cases hpart

theorem PipelineScope.KeysOnce.dataAt {scope : PipelineScope} (h : scope.KeysOnce)
    {path : JsString} {value : JsonValue} (hdata : scope.dataAt path = some value) :
    value.KeysOnce := by
  rw [PipelineScope.dataAt] at hdata
  cases hpart : scope.part ((path.splitOn (unit '.')).headD []) with
  | none =>
    rw [hpart, ownPath_none] at hdata
    cases hdata
  | some root =>
    rw [hpart] at hdata
    exact keysOnce_ownPath (h.part hpart) hdata

theorem keysOnce_operandData {scope : PipelineScope} (hscope : scope.KeysOnce)
    {value : ConditionOperand} (h : ParsedOperand value) : (operandData scope value).KeysOnce := by
  cases value with
  | literal value =>
    cases value with
    | arr items => exact keysOnceItems_of_isScalar h
    | null | bool | num | str => trivial
    | obj => cases h
  | ref path =>
    show ((scope.dataAt path).getD .null).KeysOnce
    cases hdata : scope.dataAt path with
    | none => trivial
    | some value => exact hscope.dataAt hdata

/-! ## Leaves -/

theorem keysOnce_against {needle list : JsonValue} (hneedle : needle.KeysOnce)
    (hlist : list.KeysOnce) {pair : JsonValue × JsonValue} (hpair : pair ∈ against needle list) :
    pair.1.KeysOnce ∧ pair.2.KeysOnce := by
  cases list with
  | arr items =>
    obtain ⟨entry, hentry, rfl⟩ := List.mem_map.mp hpair
    exact ⟨keysOnce_of_mem_items hlist hentry, hneedle⟩
  | null | bool | num | str | obj => cases hpair

theorem keysOnce_compared {scope : PipelineScope} (hscope : scope.KeysOnce)
    {leaf : PipelineCondition} (h : ∀ value ∈ operands leaf, ParsedOperand value)
    {pair : JsonValue × JsonValue} (hpair : pair ∈ compared scope leaf) :
    pair.1.KeysOnce ∧ pair.2.KeysOnce := by
  have hoperand {value : ConditionOperand} (hmem : value ∈ operands leaf) :
      (operandData scope value).KeysOnce := keysOnce_operandData hscope (h value hmem)
  cases leaf with
  | eq a b =>
    rw [List.mem_singleton.mp hpair]
    exact ⟨hoperand List.mem_cons_self, hoperand (List.mem_cons_of_mem _ List.mem_cons_self)⟩
  | ne a b =>
    rw [List.mem_singleton.mp hpair]
    exact ⟨hoperand List.mem_cons_self, hoperand (List.mem_cons_of_mem _ List.mem_cons_self)⟩
  | contains a b =>
    exact keysOnce_against (hoperand (List.mem_cons_of_mem _ List.mem_cons_self))
      (hoperand List.mem_cons_self) hpair
  | «in» a b =>
    exact keysOnce_against (hoperand List.mem_cons_self)
      (hoperand (List.mem_cons_of_mem _ List.mem_cons_self)) hpair
  | and | or | not | gt | gte | lt | lte | startsWith | endsWith | «exists» | truthy | empty =>
    cases hpair

theorem leafRight_iff {scope : PipelineScope} (hscope : scope.KeysOnce) {leaf : PipelineCondition}
    (h : ∀ value ∈ operands leaf, ParsedOperand value) :
    LeafRight scope leaf ↔ LeafPlain scope leaf := by
  refine and_congr ?_ ?_
  · exact forall₂_congr fun value _ => operand_iff scope value
  · refine forall₂_congr fun pair hpair => ?_
    obtain ⟨ha, hb⟩ := keysOnce_compared hscope h hpair
    exact deepEquals_iff ha hb

theorem compare_gt (a b : JsonValue) : compare .gt (.data a) (.data b) = true ↔ Less b a := by
  cases a <;> cases b <;> simp [compare, Comparison.test, Less]

theorem compare_gte (a b : JsonValue) :
    compare .gte (.data a) (.data b) = true ↔ LessOrEqual b a := by
  cases a <;> cases b <;> simp [compare, Comparison.test, LessOrEqual]

theorem compare_lt (a b : JsonValue) : compare .lt (.data a) (.data b) = true ↔ Less a b := by
  cases a <;> cases b <;> simp [compare, Comparison.test, Less]

theorem compare_lte (a b : JsonValue) :
    compare .lte (.data a) (.data b) = true ↔ LessOrEqual a b := by
  cases a <;> cases b <;> simp [compare, Comparison.test, LessOrEqual]

theorem includes_iff {part s : JsString} : includes part s = true ↔ part <:+: s := by
  rw [includes, List.any_eq_true, List.infix_iff_prefix_suffix]
  refine exists_congr fun rest => ?_
  rw [List.mem_tails, List.isPrefixOf_iff_prefix, and_comm]

theorem any_deepEquals_iff {items : List JsonValue} {needle : JsonValue}
    (h : ∀ pair ∈ against needle (.arr items),
      deepEquals (.data pair.1) (.data pair.2) = true ↔ JsonEq pair.1 pair.2) :
    (items.any fun entry => deepEquals (.data entry) (.data needle)) = true ↔
      ∃ entry ∈ items, JsonEq entry needle := by
  rw [List.any_eq_true]
  refine exists_congr fun entry => and_congr_right fun hentry => ?_
  exact h _ (List.mem_map.mpr ⟨entry, hentry, rfl⟩)

theorem containsValue_iff {haystack needle : JsonValue}
    (h : ∀ pair ∈ against needle haystack,
      deepEquals (.data pair.1) (.data pair.2) = true ↔ JsonEq pair.1 pair.2) :
    containsValue (.data haystack) (.data needle) = true ↔ Contains haystack needle := by
  cases haystack with
  | arr items => exact any_deepEquals_iff h
  | str haystack =>
    cases needle with
    | str needle => exact includes_iff
    | null | bool | num | arr | obj => exact iff_of_false nofun nofun
  | null | bool | num | obj => exact iff_of_false nofun nofun

theorem inList_iff {needle list : JsonValue}
    (h : ∀ pair ∈ against needle list,
      deepEquals (.data pair.1) (.data pair.2) = true ↔ JsonEq pair.1 pair.2) :
    inList (.data needle) (.data list) = true ↔ In needle list := by
  cases list with
  | arr items => exact any_deepEquals_iff h
  | null | bool | num | str | obj => exact iff_of_false nofun nofun

theorem startsWith_iff (a b : JsonValue) :
    startsWith (.data a) (.data b) = true ↔ StartsWith a b := by
  cases a <;> cases b <;> simp [startsWith, StartsWith]

theorem endsWith_iff (a b : JsonValue) : endsWith (.data a) (.data b) = true ↔ EndsWith a b := by
  cases a <;> cases b <;> simp [endsWith, EndsWith]

theorem isNull_iff (a : JsonValue) : (!isNull (.data a)) = true ↔ a ≠ .null := by
  cases a <;> simp [isNull]

theorem truthy_iff (a : JsonValue) : truthy (.data a) = true ↔ Truthy a := by
  cases a <;> simp [truthy, Truthy]

theorem isEmptyValue_iff (a : JsonValue) : isEmptyValue (.data a) = true ↔ Empty a := by
  cases a <;> simp [isEmptyValue, Empty]

theorem evaluateLeaf_iff {scope : PipelineScope} {leaf : PipelineCondition}
    (h : LeafRight scope leaf) : evaluateLeaf scope leaf = true ↔ LeafHolds scope leaf := by
  obtain ⟨hoperands, hcompared⟩ := h
  have hpair {a b : ConditionOperand} (hab : operands leaf = [a, b]) :
      operand scope a = .data (operandData scope a) ∧
        operand scope b = .data (operandData scope b) := by
    rw [hab] at hoperands
    exact ⟨hoperands a List.mem_cons_self,
      hoperands b (List.mem_cons_of_mem _ List.mem_cons_self)⟩
  have hone {a : ConditionOperand} (ha : operands leaf = [a]) :
      operand scope a = .data (operandData scope a) := by
    rw [ha] at hoperands
    exact hoperands a List.mem_cons_self
  cases leaf with
  | eq a b =>
    rw [evaluateLeaf, (hpair rfl).1, (hpair rfl).2]
    exact hcompared _ List.mem_cons_self
  | ne a b =>
    rw [evaluateLeaf, (hpair rfl).1, (hpair rfl).2, Bool.not_eq_true', ← Bool.not_eq_true]
    exact not_congr (hcompared _ List.mem_cons_self)
  | gt a b =>
    rw [evaluateLeaf, (hpair rfl).1, (hpair rfl).2]
    exact compare_gt _ _
  | gte a b =>
    rw [evaluateLeaf, (hpair rfl).1, (hpair rfl).2]
    exact compare_gte _ _
  | lt a b =>
    rw [evaluateLeaf, (hpair rfl).1, (hpair rfl).2]
    exact compare_lt _ _
  | lte a b =>
    rw [evaluateLeaf, (hpair rfl).1, (hpair rfl).2]
    exact compare_lte _ _
  | contains a b =>
    rw [evaluateLeaf, (hpair rfl).1, (hpair rfl).2]
    exact containsValue_iff hcompared
  | startsWith a b =>
    rw [evaluateLeaf, (hpair rfl).1, (hpair rfl).2]
    exact startsWith_iff _ _
  | endsWith a b =>
    rw [evaluateLeaf, (hpair rfl).1, (hpair rfl).2]
    exact endsWith_iff _ _
  | «exists» a =>
    rw [evaluateLeaf, hone rfl]
    exact isNull_iff _
  | truthy a =>
    rw [evaluateLeaf, hone rfl]
    exact truthy_iff _
  | empty a =>
    rw [evaluateLeaf, hone rfl]
    exact isEmptyValue_iff _
  | «in» a b =>
    rw [evaluateLeaf, (hpair rfl).1, (hpair rfl).2]
    exact inList_iff hcompared
  | and | or | not => exact iff_of_false nofun id

/-! ## Nodes -/

section Nodes

variable {scope : PipelineScope}

/-- An error where a node beyond the cap is come to, the truth value elsewhere. -/
def Answers (result : Except JsString Bool) (reaches holds : Prop) : Prop :=
  (reaches → result = .error depthMessage) ∧
    (¬ reaches → ∃ answer, result = .ok answer ∧ (answer = true ↔ holds))

theorem Answers.congr {result : Except JsString Bool} {reaches reaches' holds holds' : Prop}
    (h : Answers result reaches holds) (hreaches : reaches' ↔ reaches) (hholds : holds' ↔ holds) :
    Answers result reaches' holds' := by
  rw [propext hreaches, propext hholds]
  exact h

theorem evaluateNode_beyond {condition : PipelineCondition} {depth : Nat}
    (h : depth > maxConditionDepth) :
    evaluateNode scope condition depth = .error depthMessage := by
  cases condition <;> exact if_pos h

/-- One more child of an `and`. -/
theorem answers_every {child : PipelineCondition} {children : List PipelineCondition} {depth : Nat}
    (hchild : Answers (evaluateNode scope child depth) (Reaches scope child depth)
      (Holds scope child))
    (hchildren : Answers (evaluateEvery scope children depth)
      (ReachesEvery scope children depth) (HoldsEvery scope children)) :
    Answers (evaluateEvery scope (child :: children) depth)
      (ReachesEvery scope (child :: children) depth) (HoldsEvery scope (child :: children)) := by
  rw [evaluateEvery, ReachesEvery, HoldsEvery]
  by_cases hreaches : Reaches scope child depth
  · rw [hchild.1 hreaches]
    exact ⟨fun _ => rfl, fun h => absurd (.inl hreaches) h⟩
  · obtain ⟨answer, hanswer, hiff⟩ := hchild.2 hreaches
    rw [hanswer]
    cases answer with
    | true =>
      have hholds := hiff.mp rfl
      refine hchildren.congr ?_ (and_iff_right hholds)
      rw [or_iff_right hreaches, and_iff_right hholds]
    | false =>
      have hholds : ¬ Holds scope child := fun h => Bool.false_ne_true (hiff.mpr h)
      refine ⟨fun h => ?_, fun _ => ⟨false, rfl, iff_of_false nofun fun h => hholds h.1⟩⟩
      rcases h with h | h
      · exact absurd h hreaches
      · exact absurd h.1 hholds

theorem answers_some {child : PipelineCondition} {children : List PipelineCondition} {depth : Nat}
    (hchild : Answers (evaluateNode scope child depth) (Reaches scope child depth)
      (Holds scope child))
    (hchildren : Answers (evaluateSome scope children depth)
      (ReachesSome scope children depth) (HoldsSome scope children)) :
    Answers (evaluateSome scope (child :: children) depth)
      (ReachesSome scope (child :: children) depth) (HoldsSome scope (child :: children)) := by
  rw [evaluateSome, ReachesSome, HoldsSome]
  by_cases hreaches : Reaches scope child depth
  · rw [hchild.1 hreaches]
    exact ⟨fun _ => rfl, fun h => absurd (.inl hreaches) h⟩
  · obtain ⟨answer, hanswer, hiff⟩ := hchild.2 hreaches
    rw [hanswer]
    cases answer with
    | true =>
      have hholds := hiff.mp rfl
      refine ⟨fun h => ?_, fun _ => ⟨true, rfl, iff_of_true rfl (.inl hholds)⟩⟩
      rcases h with h | h
      · exact absurd h hreaches
      · exact absurd hholds h.1
    | false =>
      have hholds : ¬ Holds scope child := fun h => Bool.false_ne_true (hiff.mpr h)
      refine hchildren.congr ?_ (or_iff_right hholds)
      rw [or_iff_right hreaches, and_iff_right hholds]

theorem answers_leaf {leaf : PipelineCondition} {depth : Nat} (h : LeafRight scope leaf)
    (hnode : evaluateNode scope leaf depth = .ok (evaluateLeaf scope leaf))
    (hreaches : ¬ Reaches scope leaf depth) :
    Answers (evaluateNode scope leaf depth) (Reaches scope leaf depth) (LeafHolds scope leaf) := by
  rw [hnode]
  exact ⟨fun h => absurd h hreaches, fun _ => ⟨_, rfl, evaluateLeaf_iff h⟩⟩

mutual

/-- Where operands and comparisons are right, a node throws or has its truth value. -/
theorem evaluateNode_spec : (condition : PipelineCondition) → (depth : Nat) →
    Leaves (LeafRight scope) condition →
    Answers (evaluateNode scope condition depth) (Reaches scope condition depth)
      (Holds scope condition) := by
  intro condition depth hleaves
  by_cases hdepth : depth > maxConditionDepth
  · rw [evaluateNode_beyond hdepth]
    refine ⟨fun _ => rfl, fun h => absurd ?_ h⟩
    cases condition <;> exact .inl hdepth
  · match condition, hleaves with
    | .and children, hleaves =>
      rw [evaluateNode, if_neg hdepth, Reaches]
      exact (evaluateEvery_spec children (depth + 1) hleaves).congr (or_iff_right hdepth) .rfl
    | .or children, hleaves =>
      rw [evaluateNode, if_neg hdepth, Reaches]
      exact (evaluateSome_spec children (depth + 1) hleaves).congr (or_iff_right hdepth) .rfl
    | .not child, hleaves =>
      rw [evaluateNode, if_neg hdepth, Reaches, or_iff_right hdepth]
      obtain ⟨hbeyond, hwithin⟩ := evaluateNode_spec child (depth + 1) hleaves
      refine ⟨fun h => ?_, fun h => ?_⟩
      · rw [hbeyond h]
        rfl
      · obtain ⟨answer, hanswer, hiff⟩ := hwithin h
        rw [hanswer]
        refine ⟨!answer, rfl, ?_⟩
        rw [Bool.not_eq_true', ← Bool.not_eq_true]
        exact not_congr hiff
    | .eq _ _, h | .ne _ _, h | .gt _ _, h | .gte _ _, h | .lt _ _, h | .lte _ _, h
    | .contains _ _, h | .startsWith _ _, h | .endsWith _ _, h | .exists _, h | .truthy _, h
    | .empty _, h | .in _ _, h =>
      exact answers_leaf h (if_neg hdepth) fun h => h.elim hdepth id

theorem evaluateEvery_spec : (children : List PipelineCondition) → (depth : Nat) →
    LeavesAll (LeafRight scope) children →
    Answers (evaluateEvery scope children depth) (ReachesEvery scope children depth)
      (HoldsEvery scope children)
  | [], _, _ => ⟨nofun, fun _ => ⟨true, rfl, iff_of_true rfl trivial⟩⟩
  | child :: children, depth, h =>
    answers_every (evaluateNode_spec child depth h.1) (evaluateEvery_spec children depth h.2)

theorem evaluateSome_spec : (children : List PipelineCondition) → (depth : Nat) →
    LeavesAll (LeafRight scope) children →
    Answers (evaluateSome scope children depth) (ReachesSome scope children depth)
      (HoldsSome scope children)
  | [], _, _ => ⟨nofun, fun _ => ⟨false, rfl, iff_of_false nofun id⟩⟩
  | child :: children, depth, h =>
    answers_some (evaluateNode_spec child depth h.1) (evaluateSome_spec children depth h.2)

end

theorem nesting_pos (condition : PipelineCondition) : 0 < nesting condition := by
  cases condition <;> exact Nat.succ_pos _

mutual

/-- A condition in which a node beyond the cap is come to is nested deeper than the cap. -/
theorem lt_nesting_of_reaches : (condition : PipelineCondition) → (depth : Nat) →
    Reaches scope condition depth → maxConditionDepth + 1 < depth + nesting condition
  | .and children, depth, h => by
    rcases h with h | h
    · have := nesting_pos (.and children)
      omega
    · have := lt_nestingAll_of_reachesEvery children (depth + 1) h
      rw [nesting]
      omega
  | .or children, depth, h => by
    rcases h with h | h
    · have := nesting_pos (.or children)
      omega
    · have := lt_nestingAll_of_reachesSome children (depth + 1) h
      rw [nesting]
      omega
  | .not child, depth, h => by
    rcases h with h | h
    · have := nesting_pos (.not child)
      omega
    · have := lt_nesting_of_reaches child (depth + 1) h
      rw [nesting]
      omega
  | .eq _ _, _, h | .ne _ _, _, h | .gt _ _, _, h | .gte _ _, _, h | .lt _ _, _, h
  | .lte _ _, _, h | .contains _ _, _, h | .startsWith _ _, _, h | .endsWith _ _, _, h
  | .exists _, _, h | .truthy _, _, h | .empty _, _, h | .in _ _, _, h => by
    rcases h with h | h
    · exact Nat.add_lt_add_right h 1
    · cases h

theorem lt_nestingAll_of_reachesEvery : (children : List PipelineCondition) → (depth : Nat) →
    ReachesEvery scope children depth → maxConditionDepth + 1 < depth + nestingAll children
  | [], _, h => by cases h
  | child :: children, depth, h => by
    rw [nestingAll]
    rcases h with h | h
    · have := lt_nesting_of_reaches child depth h
      omega
    · have := lt_nestingAll_of_reachesEvery children depth h.2
      omega

theorem lt_nestingAll_of_reachesSome : (children : List PipelineCondition) → (depth : Nat) →
    ReachesSome scope children depth → maxConditionDepth + 1 < depth + nestingAll children
  | [], _, h => by cases h
  | child :: children, depth, h => by
    rw [nestingAll]
    rcases h with h | h
    · have := lt_nesting_of_reaches child depth h
      omega
    · have := lt_nestingAll_of_reachesSome children depth h.2
      omega

end

end Nodes

mutual

theorem leaves_congr {P Q R : PipelineCondition → Prop}
    (h : ∀ leaf, R leaf → (P leaf ↔ Q leaf)) : (condition : PipelineCondition) →
    Leaves R condition → (Leaves P condition ↔ Leaves Q condition)
  | .and children, hleaves => leavesAll_congr h children hleaves
  | .or children, hleaves => leavesAll_congr h children hleaves
  | .not child, hleaves => leaves_congr h child hleaves
  | .eq _ _, hleaf | .ne _ _, hleaf | .gt _ _, hleaf | .gte _ _, hleaf | .lt _ _, hleaf
  | .lte _ _, hleaf | .contains _ _, hleaf | .startsWith _ _, hleaf | .endsWith _ _, hleaf
  | .exists _, hleaf | .truthy _, hleaf | .empty _, hleaf | .in _ _, hleaf => h _ hleaf

theorem leavesAll_congr {P Q R : PipelineCondition → Prop}
    (h : ∀ leaf, R leaf → (P leaf ↔ Q leaf)) : (children : List PipelineCondition) →
    LeavesAll R children → (LeavesAll P children ↔ LeavesAll Q children)
  | [], _ => .rfl
  | child :: children, hleaves =>
    and_congr (leaves_congr h child hleaves.1) (leavesAll_congr h children hleaves.2)

end

/-- A condition means what is documented exactly where its leaves are plain and a node beyond the
cap is come to, if there is one. -/
theorem documented_iff {scope : PipelineScope} (hscope : scope.KeysOnce)
    {condition : PipelineCondition} (hparsed : Parsed condition) :
    Documented scope condition ↔ Leaves (LeafPlain scope) condition ∧
      (maxConditionDepth < nesting condition → Reaches scope condition 1) := by
  have hleaves : Leaves (LeafRight scope) condition ↔ Leaves (LeafPlain scope) condition :=
    leaves_congr (fun leaf h => leafRight_iff hscope h) condition hparsed
  rw [← hleaves]
  constructor
  · rintro ⟨hright, hbeyond, -⟩
    refine ⟨hright, fun hdeep => ?_⟩
    by_contra hreaches
    obtain ⟨answer, hanswer, -⟩ := (evaluateNode_spec condition 1 hright).2 hreaches
    have hthrows : evaluateNode scope condition 1 = .error depthMessage := hbeyond hdeep
    rw [hanswer] at hthrows
    cases hthrows
  · rintro ⟨hright, hreaches⟩
    obtain ⟨hthrows, hanswers⟩ := evaluateNode_spec condition 1 hright
    refine ⟨hright, fun hdeep => hthrows (hreaches hdeep), fun hshallow => hanswers fun h => ?_⟩
    have := lt_nesting_of_reaches condition 1 h
    omega

/-! ## Laws -/

/-- Two numbers or two strings. -/
def Comparable : JsValue Rat → JsValue Rat → Prop
  | .data (.num _), .data (.num _) => True
  | .data (.str _), .data (.str _) => True
  | _, _ => False

/-- The laws of the operators, as far as the evaluator answers. -/
structure ConditionLaws (scope : PipelineScope) : Prop where
  negation : ∀ {condition answer answer'}, evaluateCondition scope condition = .ok answer →
    evaluateCondition scope (.not condition) = .ok answer' → answer' = !answer
  conjunction : ∀ {children answer} {answers : PipelineCondition → Bool},
    (∀ child ∈ children, evaluateCondition scope child = .ok (answers child)) →
    evaluateCondition scope (.and children) = .ok answer → answer = children.all answers
  disjunction : ∀ {children answer} {answers : PipelineCondition → Bool},
    (∀ child ∈ children, evaluateCondition scope child = .ok (answers child)) →
    evaluateCondition scope (.or children) = .ok answer → answer = children.any answers
  ne_eq : ∀ a b, evaluateCondition scope (.ne a b) =
    (evaluateCondition scope (.eq a b)).map (!·)
  in_contains : ∀ a b items, operand scope b = .data (.arr items) →
    evaluateCondition scope (.in a b) = evaluateCondition scope (.contains b a)
  gt_lt : ∀ a b, evaluateCondition scope (.gt a b) = evaluateCondition scope (.lt b a)
  gte_lte : ∀ a b, evaluateCondition scope (.gte a b) = evaluateCondition scope (.lte b a)
  lte_gt : ∀ a b, Comparable (operand scope a) (operand scope b) →
    evaluateCondition scope (.lte a b) = (evaluateCondition scope (.gt a b)).map (!·)
  lt_irrefl : ∀ a, evaluateCondition scope (.lt a a) = .ok false
  lt_trans : ∀ a b c, evaluateCondition scope (.lt a b) = .ok true →
    evaluateCondition scope (.lt b c) = .ok true → evaluateCondition scope (.lt a c) = .ok true
  lt_total : ∀ a b, Comparable (operand scope a) (operand scope b) →
    evaluateCondition scope (.lt a b) = .ok true ∨
      evaluateCondition scope (.gt a b) = .ok true ∨ operand scope a = operand scope b
  incomparable : ∀ a b, ¬ Comparable (operand scope a) (operand scope b) →
    ∀ condition ∈ [.gt a b, .gte a b, .lt a b, .lte a b],
      evaluateCondition scope condition = .ok false

section Laws

variable {scope : PipelineScope}

theorem within_of_ok {condition : PipelineCondition} {depth : Nat} {answer : Bool}
    (h : evaluateNode scope condition depth = .ok answer) : ¬ depth > maxConditionDepth := by
  intro hdepth
  rw [evaluateNode_beyond hdepth] at h
  cases h

theorem evaluateNode_and {children : List PipelineCondition} {depth : Nat} {answer : Bool}
    (h : evaluateNode scope (.and children) depth = .ok answer) :
    evaluateEvery scope children (depth + 1) = .ok answer := by
  have hdepth := within_of_ok h
  rw [evaluateNode, if_neg hdepth] at h
  exact h

theorem evaluateNode_or {children : List PipelineCondition} {depth : Nat} {answer : Bool}
    (h : evaluateNode scope (.or children) depth = .ok answer) :
    evaluateSome scope children (depth + 1) = .ok answer := by
  have hdepth := within_of_ok h
  rw [evaluateNode, if_neg hdepth] at h
  exact h

theorem evaluateNode_not {child : PipelineCondition} {depth : Nat} {answer : Bool}
    (h : evaluateNode scope (.not child) depth = .ok answer) :
    ∃ answer', evaluateNode scope child (depth + 1) = .ok answer' ∧ answer = !answer' := by
  have hdepth := within_of_ok h
  rw [evaluateNode, if_neg hdepth] at h
  obtain ⟨answer', hchild, h⟩ := Checks.bind_eq_ok h
  cases h
  exact ⟨answer', hchild, rfl⟩

theorem evaluateEvery_cons {child : PipelineCondition} {children : List PipelineCondition}
    {depth : Nat} {answer : Bool} (h : evaluateEvery scope (child :: children) depth = .ok answer) :
    (evaluateNode scope child depth = .ok true ∧
        evaluateEvery scope children depth = .ok answer) ∨
      (evaluateNode scope child depth = .ok false ∧ answer = false) := by
  rw [evaluateEvery] at h
  obtain ⟨first, hchild, h⟩ := Checks.bind_eq_ok h
  cases first with
  | true => exact .inl ⟨hchild, h⟩
  | false =>
    cases h
    exact .inr ⟨hchild, rfl⟩

theorem evaluateSome_cons {child : PipelineCondition} {children : List PipelineCondition}
    {depth : Nat} {answer : Bool} (h : evaluateSome scope (child :: children) depth = .ok answer) :
    (evaluateNode scope child depth = .ok true ∧ answer = true) ∨
      (evaluateNode scope child depth = .ok false ∧
        evaluateSome scope children depth = .ok answer) := by
  rw [evaluateSome] at h
  obtain ⟨first, hchild, h⟩ := Checks.bind_eq_ok h
  cases first with
  | true =>
    cases h
    exact .inl ⟨hchild, rfl⟩
  | false => exact .inr ⟨hchild, h⟩

mutual

/-- What a node answers does not depend on its depth. -/
theorem evaluateNode_agree : (condition : PipelineCondition) → {depth depth' : Nat} →
    {answer answer' : Bool} → evaluateNode scope condition depth = .ok answer →
    evaluateNode scope condition depth' = .ok answer' → answer = answer'
  | .and children, _, _, _, _, h, h' =>
    evaluateEvery_agree children (evaluateNode_and h) (evaluateNode_and h')
  | .or children, _, _, _, _, h, h' =>
    evaluateSome_agree children (evaluateNode_or h) (evaluateNode_or h')
  | .not child, _, _, _, _, h, h' => by
    obtain ⟨first, hfirst, rfl⟩ := evaluateNode_not h
    obtain ⟨second, hsecond, rfl⟩ := evaluateNode_not h'
    rw [evaluateNode_agree child hfirst hsecond]
  | .eq _ _, _, _, _, _, h, h' | .ne _ _, _, _, _, _, h, h' | .gt _ _, _, _, _, _, h, h'
  | .gte _ _, _, _, _, _, h, h' | .lt _ _, _, _, _, _, h, h' | .lte _ _, _, _, _, _, h, h'
  | .contains _ _, _, _, _, _, h, h' | .startsWith _ _, _, _, _, _, h, h'
  | .endsWith _ _, _, _, _, _, h, h' | .exists _, _, _, _, _, h, h' | .truthy _, _, _, _, _, h, h'
  | .empty _, _, _, _, _, h, h' | .in _ _, _, _, _, _, h, h' => by
    have hdepth := within_of_ok h
    have hdepth' := within_of_ok h'
    have heq := (if_neg hdepth).symm.trans h
    have heq' := (if_neg hdepth').symm.trans h'
    exact Except.ok.inj (heq.symm.trans heq')

theorem evaluateEvery_agree : (children : List PipelineCondition) → {depth depth' : Nat} →
    {answer answer' : Bool} → evaluateEvery scope children depth = .ok answer →
    evaluateEvery scope children depth' = .ok answer' → answer = answer'
  | [], _, _, _, _, h, h' => by
    cases h
    cases h'
    rfl
  | child :: children, _, _, _, _, h, h' => by
    rcases evaluateEvery_cons h with ⟨hchild, h⟩ | ⟨hchild, rfl⟩
    · rcases evaluateEvery_cons h' with ⟨-, h'⟩ | ⟨hchild', -⟩
      · exact evaluateEvery_agree children h h'
      · exact absurd (evaluateNode_agree child hchild hchild') (by decide)
    · rcases evaluateEvery_cons h' with ⟨hchild', -⟩ | ⟨-, rfl⟩
      · exact absurd (evaluateNode_agree child hchild hchild') (by decide)
      · rfl

theorem evaluateSome_agree : (children : List PipelineCondition) → {depth depth' : Nat} →
    {answer answer' : Bool} → evaluateSome scope children depth = .ok answer →
    evaluateSome scope children depth' = .ok answer' → answer = answer'
  | [], _, _, _, _, h, h' => by
    cases h
    cases h'
    rfl
  | child :: children, _, _, _, _, h, h' => by
    rcases evaluateSome_cons h with ⟨hchild, rfl⟩ | ⟨hchild, h⟩
    · rcases evaluateSome_cons h' with ⟨-, rfl⟩ | ⟨hchild', -⟩
      · rfl
      · exact absurd (evaluateNode_agree child hchild hchild') (by decide)
    · rcases evaluateSome_cons h' with ⟨hchild', -⟩ | ⟨-, h'⟩
      · exact absurd (evaluateNode_agree child hchild hchild') (by decide)
      · exact evaluateSome_agree children h h'

end

theorem evaluateEvery_all {children : List PipelineCondition} {depth depth' : Nat}
    {answers : PipelineCondition → Bool} {answer : Bool}
    (hchildren : ∀ child ∈ children, evaluateNode scope child depth = .ok (answers child))
    (h : evaluateEvery scope children depth' = .ok answer) : answer = children.all answers := by
  induction children with
  | nil =>
    cases h
    rfl
  | cons child children ih =>
    have hfirst := hchildren child List.mem_cons_self
    rw [List.all_cons]
    rcases evaluateEvery_cons h with ⟨hchild, h⟩ | ⟨hchild, rfl⟩
    · rw [← evaluateNode_agree child hchild hfirst, Bool.true_and]
      exact ih (fun child hmem => hchildren child (List.mem_cons_of_mem _ hmem)) h
    · rw [← evaluateNode_agree child hchild hfirst, Bool.false_and]

theorem evaluateSome_any {children : List PipelineCondition} {depth depth' : Nat}
    {answers : PipelineCondition → Bool} {answer : Bool}
    (hchildren : ∀ child ∈ children, evaluateNode scope child depth = .ok (answers child))
    (h : evaluateSome scope children depth' = .ok answer) : answer = children.any answers := by
  induction children with
  | nil =>
    cases h
    rfl
  | cons child children ih =>
    have hfirst := hchildren child List.mem_cons_self
    rw [List.any_cons]
    rcases evaluateSome_cons h with ⟨hchild, rfl⟩ | ⟨hchild, h⟩
    · rw [← evaluateNode_agree child hchild hfirst, Bool.true_or]
    · rw [← evaluateNode_agree child hchild hfirst, Bool.false_or]
      exact ih (fun child hmem => hchildren child (List.mem_cons_of_mem _ hmem)) h

theorem compare_lt_cases {a b : JsValue Rat} (h : compare .lt a b = true) :
    (∃ m n, a = .data (.num m) ∧ b = .data (.num n) ∧ m < n) ∨
      ∃ s t, a = .data (.str s) ∧ b = .data (.str t) ∧ s < t := by
  rw [compare.eq_def] at h
  split at h
  · exact .inl ⟨_, _, rfl, rfl, of_decide_eq_true h⟩
  · exact .inr ⟨_, _, rfl, rfl, of_decide_eq_true h⟩
  · cases h

theorem compare_lt_irrefl (a : JsValue Rat) : compare .lt a a = false := by
  rw [Bool.eq_false_iff]
  intro h
  rcases compare_lt_cases h with ⟨m, n, rfl, heq, hlt⟩ | ⟨s, t, rfl, heq, hlt⟩
  · cases heq
    exact absurd hlt (lt_irrefl m)
  · cases heq
    exact absurd hlt (List.lt_irrefl s)

theorem compare_lt_trans {a b c : JsValue Rat} (h : compare .lt a b = true)
    (h' : compare .lt b c = true) : compare .lt a c = true := by
  rcases compare_lt_cases h with ⟨m, n, rfl, rfl, hlt⟩ | ⟨s, t, rfl, rfl, hlt⟩
  · rcases compare_lt_cases h' with ⟨_, p, heq, rfl, hlt'⟩ | ⟨_, _, heq, -, -⟩
    · cases heq
      exact decide_eq_true (lt_trans hlt hlt')
    · cases heq
  · rcases compare_lt_cases h' with ⟨_, _, heq, -, -⟩ | ⟨_, u, heq, rfl, hlt'⟩
    · cases heq
    · cases heq
      exact decide_eq_true (List.lt_trans hlt hlt')

theorem comparable_cases {a b : JsValue Rat} (h : Comparable a b) :
    (∃ m n, a = .data (.num m) ∧ b = .data (.num n)) ∨
      ∃ s t, a = .data (.str s) ∧ b = .data (.str t) := by
  rw [Comparable.eq_def] at h
  split at h
  · exact .inl ⟨_, _, rfl, rfl⟩
  · exact .inr ⟨_, _, rfl, rfl⟩
  · cases h

theorem compare_total {a b : JsValue Rat} (h : Comparable a b) :
    compare .lt a b = true ∨ compare .gt a b = true ∨ a = b := by
  rcases comparable_cases h with ⟨m, n, rfl, rfl⟩ | ⟨s, t, rfl, rfl⟩
  · rcases lt_trichotomy m n with hlt | rfl | hlt
    · exact .inl (decide_eq_true hlt)
    · exact .inr (.inr rfl)
    · exact .inr (.inl (decide_eq_true hlt))
  · by_cases hlt : s < t
    · exact .inl (decide_eq_true hlt)
    · by_cases hgt : t < s
      · exact .inr (.inl (decide_eq_true hgt))
      · rw [List.le_antisymm hgt hlt]
        exact .inr (.inr rfl)

theorem compare_lte_eq {a b : JsValue Rat} (h : Comparable a b) :
    compare .lte a b = !compare .gt a b := by
  rcases comparable_cases h with ⟨m, n, rfl, rfl⟩ | ⟨s, t, rfl, rfl⟩
  · show decide (m ≤ n) = !decide (n < m)
    rw [← decide_not, decide_eq_decide, not_lt]
  · show decide (s ≤ t) = !decide (t < s)
    rw [← decide_not, decide_eq_decide, List.not_lt]

theorem compare_swap (a b : JsValue Rat) :
    compare .gt a b = compare .lt b a ∧ compare .gte a b = compare .lte b a := by
  rw [compare.eq_def .gt, compare.eq_def .gte]
  split
  · exact ⟨rfl, rfl⟩
  · exact ⟨rfl, rfl⟩
  · next hnum hstr =>
    rw [compare.eq_def .lt, compare.eq_def .lte]
    split
    · next n m => exact absurd rfl (hnum m n rfl)
    · next t s => exact absurd rfl (hstr s t rfl)
    · exact ⟨rfl, rfl⟩

theorem compare_incomparable (op : Comparison) {a b : JsValue Rat} (h : ¬ Comparable a b) :
    compare op a b = false := by
  rw [compare.eq_def]
  split
  · exact absurd trivial h
  · exact absurd trivial h
  · rfl

theorem conditionLaws (scope : PipelineScope) : ConditionLaws scope where
  negation := by
    intro condition answer answer' h hnot
    obtain ⟨answer'', hchild, rfl⟩ := evaluateNode_not hnot
    rw [evaluateNode_agree condition hchild h]
  conjunction := by
    intro children answer answers hchildren h
    exact evaluateEvery_all hchildren (evaluateNode_and h)
  disjunction := by
    intro children answer answers hchildren h
    exact evaluateSome_any hchildren (evaluateNode_or h)
  ne_eq := fun _ _ => rfl
  in_contains := by
    intro a b items hb
    show Except.ok (inList (operand scope a) (operand scope b)) =
      .ok (containsValue (operand scope b) (operand scope a))
    rw [hb]
    rfl
  gt_lt := fun a b => congrArg Except.ok (compare_swap (operand scope a) (operand scope b)).1
  gte_lte := fun a b => congrArg Except.ok (compare_swap (operand scope a) (operand scope b)).2
  lte_gt := fun _ _ h => congrArg Except.ok (compare_lte_eq h)
  lt_irrefl := fun a => congrArg Except.ok (compare_lt_irrefl (operand scope a))
  lt_trans := fun _ _ _ h h' =>
    congrArg Except.ok (compare_lt_trans (Except.ok.inj h) (Except.ok.inj h'))
  lt_total := by
    intro a b h
    rcases compare_total h with h | h | h
    · exact .inl (congrArg Except.ok h)
    · exact .inr (.inl (congrArg Except.ok h))
    · exact .inr (.inr h)
  incomparable := by
    intro a b h condition hmem
    simp only [List.mem_cons, List.not_mem_nil, or_false] at hmem
    rcases hmem with rfl | rfl | rfl | rfl
    · exact congrArg Except.ok (compare_incomparable .gt h)
    · exact congrArg Except.ok (compare_incomparable .gte h)
    · exact congrArg Except.ok (compare_incomparable .lt h)
    · exact congrArg Except.ok (compare_incomparable .lte h)

end Laws

/-- A parsed condition means what is documented on a scope exactly where its operands stay on the
data, compared values that are alike are equal, and a node beyond the cap is come to if there is
one; the operators obey their laws everywhere, and so does JSON's equality. -/
theorem conditions_documented {scope : PipelineScope} (hscope : scope.KeysOnce)
    {condition : PipelineCondition} (hparsed : Parsed condition) :
    (Documented scope condition ↔ Leaves (LeafPlain scope) condition ∧
      (maxConditionDepth < nesting condition → Reaches scope condition 1)) ∧
      ConditionLaws scope ∧ Equivalence (@JsonEq Rat) ∧
      ∀ members members' : JsonRecord, OrderedMap.UniqueKeys members → members.Perm members' →
        JsonEq (.obj members) (.obj members') :=
  ⟨documented_iff hscope hparsed, conditionLaws scope, jsonEq_equivalence,
    fun _ _ => jsonEq_of_perm⟩

def emptyScope : PipelineScope :=
  { trigger := [], steps := [], state := [], item := none, now := [] }

theorem keysOnce_of_trigger {trigger : JsonRecord} (h : (Value.obj trigger).KeysOnce) :
    { emptyScope with trigger := trigger }.KeysOnce where
  trigger := h
  steps := ⟨List.nodup_nil, trivial⟩
  state := ⟨List.nodup_nil, trivial⟩
  item := nofun

/-- `trigger.a` is 1. -/
def oneScope : PipelineScope := { emptyScope with trigger := [(ascii "a", .num 1)] }

/-- `{"and": [{"eq": [{"$ref": "trigger.a"}, 1]}]}`. -/
def oneCondition : PipelineCondition :=
  .and [.eq (.ref (ascii "trigger.a")) (.literal (.num 1))]

theorem conditions_documented_one : Documented oneScope oneCondition := by
  have hscope : oneScope.KeysOnce :=
    keysOnce_of_trigger ⟨List.nodup_singleton _, trivial, trivial⟩
  have hparsed : Parsed oneCondition := by
    refine ⟨fun value hvalue => ?_, trivial⟩
    rcases List.mem_cons.mp hvalue with rfl | hvalue
    · trivial
    · rw [List.mem_singleton.mp hvalue]
      rfl
  refine (conditions_documented hscope hparsed).1.mpr ⟨⟨⟨fun value hvalue => ?_, ?_⟩, trivial⟩, ?_⟩
  · rcases List.mem_cons.mp hvalue with rfl | hvalue
    · exact .inl (by decide)
    · rw [List.mem_singleton.mp hvalue]
      trivial
  · intro pair hpair _
    rw [List.mem_singleton.mp hpair]
    rfl
  · intro h
    exact absurd h (by decide)

/-- Eight negations below the second child of an `or` that its first child decides. -/
def deepCondition : PipelineCondition :=
  .or [.eq (.literal (.num 1)) (.literal (.num 1)),
    .not (.not (.not (.not (.not (.not (.not (.not (.eq (.literal .null) (.literal .null)))))))))]

/-- `{"a": {"__proto__": {}}, "b": {"z": 1}}`. -/
def protoTrigger : JsonRecord :=
  [(ascii "a", .obj [(protoName, .obj [])]), (ascii "b", .obj [(ascii "z", .num 1)])]

def protoScope : PipelineScope := { emptyScope with trigger := protoTrigger }

/-- A condition beyond the cap has an answer; equality is not symmetric and holds of two different
values; a name that is not in the data exists. -/
theorem conditions_slip :
    (Parsed deepCondition ∧ maxConditionDepth < nesting deepCondition ∧
      ∀ scope, evaluateCondition scope deepCondition = .ok true) ∧
    (protoScope.KeysOnce ∧
      evaluateCondition protoScope (.eq (.ref (ascii "trigger.a")) (.ref (ascii "trigger.b"))) =
        .ok true ∧
      evaluateCondition protoScope (.eq (.ref (ascii "trigger.b")) (.ref (ascii "trigger.a"))) =
        .ok false) ∧
    (emptyScope.dataAt (ascii "trigger.constructor") = none ∧
      evaluateCondition emptyScope (.exists (.ref (ascii "trigger.constructor"))) = .ok true) := by
  refine ⟨⟨?_, by decide, fun _ => rfl⟩, ⟨?_, by decide, by decide⟩, by decide, by decide⟩
  · refine ⟨fun value hvalue => ?_, fun value hvalue => ?_, trivial⟩
    · simp only [operands, List.mem_cons, List.not_mem_nil, or_false, or_self] at hvalue
      rw [hvalue]
      rfl
    · simp only [operands, List.mem_cons, List.not_mem_nil, or_false, or_self] at hvalue
      rw [hvalue]
      rfl
  · refine keysOnce_of_trigger ⟨by decide, ?_, ?_, trivial⟩
    · exact ⟨List.nodup_singleton _, ⟨List.nodup_nil, trivial⟩, trivial⟩
    · exact ⟨List.nodup_singleton _, trivial, trivial⟩

end InvisibleString.Shared
