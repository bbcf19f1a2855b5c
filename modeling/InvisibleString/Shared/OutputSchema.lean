import InvisibleString.Lib.Prototype
import InvisibleString.Pipeline.Config

/- # `Shared.OutputSchema` — validating a step's output

An output schema is a tree of types.  The validator walks the schema and the value together and
collects error texts; a node is skipped once 25 have been collected, while the required names of
one object are all looked at.  Members are looked up as JavaScript does it, with the names of
`Object.prototype` present on every object.

**Proved here.**

    the number of errors is what the problems found at each place add up to, until the cap
                                                                        (`length_validateNode`)
    no problem is found exactly on the values that pass  (`chunks_eq_zero_iff`)
    the validator decides conformance with at most 25 errors exactly where inherited names do not
      tell and the cap is not passed at one object  (`validator_decides`)
-/

namespace InvisibleString.Shared.OutputSchema

open Json
open Pipeline (JsonValue JsonRecord)

inductive OutputSchemaNode where
  /-- with its closed set of values -/
  | string (enum : Option (List JsString))
  | number
  | boolean
  | array (items : OutputSchemaNode)
  | object (properties : List (JsString × OutputSchemaNode)) (required : Option (List JsString))

/-! ## The schemas -/

mutual

def outputSchemaDepth : OutputSchemaNode → Nat
  | .array items => 1 + outputSchemaDepth items
  | .object properties _ => 1 + deepest properties
  | _ => 1

def deepest : List (JsString × OutputSchemaNode) → Nat
  | [] => 0
  | (_, child) :: properties => max (outputSchemaDepth child) (deepest properties)

end

def maxOutputSchemaDepth : Nat := 5

mutual

/-- No values of an `enum` are empty, nor is the `enum`; each required name is a property of the
record of properties. -/
def checkRequired : OutputSchemaNode → Bool
  | .string none => true
  | .string (some options) => options ≠ [] && options.all fun option => option ≠ []
  | .number => true
  | .boolean => true
  | .array items => checkRequired items
  | .object properties required =>
    ((required.getD []).all fun name =>
      name ∈ properties.map Prod.fst || isInherited name) && checkProperties properties

def checkProperties : List (JsString × OutputSchemaNode) → Bool
  | [] => true
  | (_, child) :: properties => checkRequired child && checkProperties properties

end

/-- The root schema parses. -/
def outputSchemaSchema (node : OutputSchemaNode) : Bool :=
  outputSchemaDepth node ≤ maxOutputSchemaDepth && checkRequired node

/-! ## The validator -/

def maxValidationErrors : Nat := 25

def describe : JsValue Rat → JsString
  | .data .null => ascii "null"
  | .data (.arr _) => ascii "array"
  | .data (.bool _) => ascii "boolean"
  | .data (.num _) => ascii "number"
  | .data (.str _) => ascii "string"
  | .data (.obj _) | .prototype => ascii "object"
  | .method _ => ascii "function"

def joinPath (path segment : JsString) : JsString :=
  if path = [] then segment else path ++ ascii "." ++ segment

/-- Where an error is. -/
def place (path : JsString) : JsString := if path = [] then ascii "(root)" else path

def expected (type path : JsString) (value : JsValue Rat) : JsString :=
  place path ++ ascii ": expected " ++ type ++ ascii ", got " ++ describe value

def unlisted (path : JsString) (options : List JsString) (value : JsString) : JsString :=
  place path ++ ascii ": expected one of " ++
    (ascii ", ").intercalate (options.map quote) ++ ascii ", got " ++ quote value

def missingRequired (path name : JsString) : JsString :=
  place path ++ ascii ": missing required property \"" ++ name ++ ascii "\""

/-- An object that is no array. -/
def isRecord : JsValue Rat → Bool
  | .data (.obj _) | .prototype => true
  | _ => false

/-- `record[name]`. -/
def propertyOf (record : JsValue Rat) (name : JsString) : Option (JsValue Rat) :=
  match record with
  | .data (.obj members) => property members name
  | .prototype => prototypeProperty name
  | _ => none

/-- The required names that are not found. -/
def missing (required : Option (List JsString)) (record : JsValue Rat) : List JsString :=
  (required.getD []).filter fun name => (propertyOf record name).isNone

mutual

def validateNode (node : OutputSchemaNode) (value : JsValue Rat) (path : JsString)
    (errors : List JsString) : List JsString :=
  if errors.length ≥ maxValidationErrors then errors
  else
    match node with
    | .string options =>
      match value with
      | .data (.str s) =>
        if options.all fun listed => s ∈ listed then errors
        else errors ++ [unlisted path (options.getD []) s]
      | value => errors ++ [expected (ascii "string") path value]
    | .number =>
      match value with
      | .data (.num _) => errors
      | value => errors ++ [expected (ascii "number") path value]
    | .boolean =>
      match value with
      | .data (.bool _) => errors
      | value => errors ++ [expected (ascii "boolean") path value]
    | .array items =>
      match value with
      | .data (.arr entries) =>
        entries.zipIdx.foldl (fun errors entry =>
          validateNode items (.data entry.1) (joinPath path (printNat entry.2)) errors) errors
      | value => errors ++ [expected (ascii "array") path value]
    | .object properties required =>
      if isRecord value then
        validateProperties properties value path
          (errors ++ (missing required value).map (missingRequired path))
      else errors ++ [expected (ascii "object") path value]

/-- Absent optional members are fine. -/
def validateProperties (properties : List (JsString × OutputSchemaNode)) (record : JsValue Rat)
    (path : JsString) (errors : List JsString) : List JsString :=
  match properties with
  | [] => errors
  | (key, child) :: properties =>
    match propertyOf record key with
    | none => validateProperties properties record path errors
    | some value =>
      validateProperties properties record path
        (validateNode child value (joinPath path key) errors)

end

inductive OutputSchemaValidationResult where
  | ok (value : JsonValue)
  | failed (errors : List JsString)

def compileOutputSchema (schema : OutputSchemaNode) (value : JsonValue) :
    OutputSchemaValidationResult :=
  match validateNode schema (.data value) [] [] with
  | [] => .ok value
  | errors => .failed errors

/-! ## Conformance -/

mutual

/-- Types and enums at every depth, required names as own members, present members conforming. -/
def Conforms : OutputSchemaNode → JsonValue → Prop
  | .string options, .str s => ∀ listed ∈ options, s ∈ listed
  | .number, .num _ => True
  | .boolean, .bool _ => True
  | .array items, .arr entries => ∀ entry ∈ entries, Conforms items entry
  | .object properties required, .obj members =>
    (∀ name ∈ required.getD [], OrderedMap.get? name members ≠ none) ∧
      PropertiesConform properties members
  | _, _ => False

def PropertiesConform : List (JsString × OutputSchemaNode) → JsonRecord → Prop
  | [], _ => True
  | (key, child) :: properties, members =>
    (∀ value ∈ OrderedMap.get? key members, Conforms child value) ∧
      PropertiesConform properties members

end

/-- The validator decides whether the value conforms. -/
structure Decides (schema : OutputSchemaNode) (value : JsonValue) : Prop where
  accepts : Conforms schema value → compileOutputSchema schema value = .ok value
  rejects : ¬ Conforms schema value → ∃ errors,
    compileOutputSchema schema value = .failed errors ∧ 1 ≤ errors.length ∧
      errors.length ≤ maxValidationErrors

/-! ## Where it does -/

/-- `Object.prototype` passes for an object of this schema: it has the required names and none of
the declared ones. -/
def AdmitsPrototype : OutputSchemaNode → Prop
  | .object properties required =>
    (∀ name ∈ required.getD [], isInherited name = true) ∧
      ∀ key ∈ properties.map Prod.fst, isInherited key = false
  | _ => False

/-- A declared name that the object does not own: it is not inherited, or what is inherited
passes. -/
def Unseen (key : JsString) (child : OutputSchemaNode) : Prop :=
  isInherited key = true → key = protoName ∧ AdmitsPrototype child

mutual

/-- No object of the value lacks a declared name that it inherits. -/
def DeclaredOwned : OutputSchemaNode → JsonValue → Prop
  | .array items, .arr entries => ∀ entry ∈ entries, DeclaredOwned items entry
  | .object properties _, .obj members => DeclaredMembersOwned properties members
  | _, _ => True

def DeclaredMembersOwned : List (JsString × OutputSchemaNode) → JsonRecord → Prop
  | [], _ => True
  | (key, child) :: properties, members =>
    (match OrderedMap.get? key members with
      | some value => DeclaredOwned child value
      | none => Unseen key child) ∧ DeclaredMembersOwned properties members

end

mutual

/-- The value conforms as far as inherited names count as members. -/
def Passes : OutputSchemaNode → JsonValue → Prop
  | .string options, .str s => ∀ listed ∈ options, s ∈ listed
  | .number, .num _ => True
  | .boolean, .bool _ => True
  | .array items, .arr entries => ∀ entry ∈ entries, Passes items entry
  | .object properties required, .obj members =>
    (∀ name ∈ required.getD [], OrderedMap.get? name members ≠ none ∨ isInherited name = true) ∧
      PropertiesPass properties members
  | _, _ => False

def PropertiesPass : List (JsString × OutputSchemaNode) → JsonRecord → Prop
  | [], _ => True
  | (key, child) :: properties, members =>
    (match OrderedMap.get? key members with
      | some value => Passes child value
      | none => Unseen key child) ∧ PropertiesPass properties members

end

mutual

/-- How many problems there are at each place of the value, in the order of the walk. -/
def chunks : OutputSchemaNode → JsValue Rat → List Nat
  | .string options, .data (.str s) => [if options.all fun listed => s ∈ listed then 0 else 1]
  | .number, .data (.num _) => [0]
  | .boolean, .data (.bool _) => [0]
  | .array items, .data (.arr entries) =>
    0 :: entries.flatMap fun entry => chunks items (.data entry)
  | .object properties required, value =>
    if isRecord value then (missing required value).length :: propertyChunks properties value
    else [1]
  | _, _ => [1]

def propertyChunks : List (JsString × OutputSchemaNode) → JsValue Rat → List Nat
  | [], _ => []
  | (key, child) :: properties, record =>
    match propertyOf record key with
    | none => propertyChunks properties record
    | some value => chunks child value ++ propertyChunks properties record

end

/-- With fewer than 25 problems before it, one place has so many that there are more than 25. -/
def Overflows (counts : List Nat) : Prop :=
  ∃ before count after, counts = before ++ count :: after ∧
    before.sum < maxValidationErrors ∧ maxValidationErrors < before.sum + count

/-! ## Counting the errors -/

/-- One more place, unless the cap has been reached. -/
def addChunk (total count : Nat) : Nat :=
  if total ≥ maxValidationErrors then total else total + count

theorem foldl_addChunk_full {total : Nat} (h : total ≥ maxValidationErrors) (counts : List Nat) :
    counts.foldl addChunk total = total := by
  induction counts with
  | nil => rfl
  | cons count counts ih =>
    rw [List.foldl_cons, addChunk, if_pos h]
    exact ih

theorem foldl_addChunk_cons {total : Nat} (h : ¬ total ≥ maxValidationErrors) (count : Nat)
    (counts : List Nat) :
    (count :: counts).foldl addChunk total = counts.foldl addChunk (total + count) := by
  rw [List.foldl_cons, addChunk, if_neg h]

theorem foldl_addChunk_eq_zero {counts : List Nat} :
    counts.foldl addChunk 0 = 0 ↔ ∀ count ∈ counts, count = 0 := by
  have hmono (counts : List Nat) (total : Nat) : total ≤ counts.foldl addChunk total := by
    induction counts generalizing total with
    | nil => exact Nat.le_refl total
    | cons count counts ih =>
      refine Nat.le_trans ?_ (ih (addChunk total count))
      rw [addChunk]
      split
      · exact Nat.le_refl total
      · exact Nat.le_add_right total count
  induction counts with
  | nil => exact iff_of_true rfl nofun
  | cons count counts ih =>
    rw [foldl_addChunk_cons (by decide), List.forall_mem_cons, Nat.zero_add]
    constructor
    · intro h
      have := hmono counts count
      obtain rfl : count = 0 := by omega
      exact ⟨rfl, ih.mp h⟩
    · rintro ⟨rfl, h⟩
      exact ih.mpr h

/-- The cap is passed exactly where one place takes the total beyond it. -/
theorem lt_foldl_addChunk_iff {counts : List Nat} {total : Nat} (h : total ≤ maxValidationErrors) :
    maxValidationErrors < counts.foldl addChunk total ↔
      ∃ before count after, counts = before ++ count :: after ∧
        total + before.sum < maxValidationErrors ∧
        maxValidationErrors < total + before.sum + count := by
  induction counts generalizing total with
  | nil =>
    refine iff_of_false (Nat.not_lt.mpr h) ?_
    rintro ⟨before, count, after, hcounts, -⟩
    cases before <;> cases hcounts
  | cons first counts ih =>
    by_cases hfull : total ≥ maxValidationErrors
    · rw [foldl_addChunk_full hfull]
      refine iff_of_false (Nat.not_lt.mpr h) ?_
      rintro ⟨before, -, -, -, hlt, -⟩
      omega
    · rw [foldl_addChunk_cons hfull]
      by_cases hfirst : total + first ≤ maxValidationErrors
      · rw [ih hfirst]
        constructor
        · rintro ⟨before, count, after, rfl, hbefore, hcount⟩
          refine ⟨first :: before, count, after, rfl, ?_, ?_⟩
          · rw [List.sum_cons]
            omega
          · rw [List.sum_cons]
            omega
        · rintro ⟨before, count, after, hcounts, hbefore, hcount⟩
          cases before with
          | nil =>
            obtain ⟨rfl, -⟩ := List.cons.inj hcounts
            rw [List.sum_nil] at hcount
            omega
          | cons first' before =>
            obtain ⟨rfl, rfl⟩ := List.cons.inj hcounts
            rw [List.sum_cons] at hbefore hcount
            exact ⟨before, count, after, rfl, by omega, by omega⟩
      · rw [foldl_addChunk_full (by omega)]
        refine iff_of_true (by omega) ⟨[], first, counts, rfl, ?_, ?_⟩
        · rw [List.sum_nil]
          omega
        · rw [List.sum_nil]
          omega

theorem validateNode_full {errors : List JsString} (h : errors.length ≥ maxValidationErrors)
    (node : OutputSchemaNode) (value : JsValue Rat) (path : JsString) :
    validateNode node value path errors = errors := by
  cases node <;> exact if_pos h

theorem length_mismatch {errors : List JsString} (h : ¬ errors.length ≥ maxValidationErrors)
    (error : JsString) : (errors ++ [error]).length = [1].foldl addChunk errors.length := by
  rw [foldl_addChunk_cons h, List.length_append]
  rfl

theorem length_match {errors : List JsString} (h : ¬ errors.length ≥ maxValidationErrors) :
    errors.length = [0].foldl addChunk errors.length := by
  rw [foldl_addChunk_cons h]
  rfl

theorem length_entries {items : OutputSchemaNode}
    (hitems : ∀ value path errors, (validateNode items value path errors).length =
      (chunks items value).foldl addChunk errors.length)
    (path : JsString) (entries : List JsonValue) (start : Nat) (errors : List JsString) :
    ((entries.zipIdx start).foldl (fun errors entry =>
      validateNode items (.data entry.1) (joinPath path (printNat entry.2)) errors)
        errors).length =
      (entries.flatMap fun entry => chunks items (.data entry)).foldl addChunk errors.length := by
  induction entries generalizing start errors with
  | nil => rfl
  | cons entry entries ih =>
    rw [List.zipIdx_cons, List.foldl_cons, ih, hitems, List.flatMap_cons, List.foldl_append]

mutual

theorem length_validateNode : (node : OutputSchemaNode) → (value : JsValue Rat) →
    (path : JsString) → (errors : List JsString) →
    (validateNode node value path errors).length =
      (chunks node value).foldl addChunk errors.length := by
  intro node value path errors
  by_cases hfull : errors.length ≥ maxValidationErrors
  · rw [validateNode_full hfull, foldl_addChunk_full hfull]
  · match node with
    | .string options =>
      refine (congrArg List.length (if_neg hfull)).trans ?_
      cases value with
      | data value =>
        cases value with
        | str s =>
          show (if options.all fun listed => s ∈ listed then errors else _).length =
            [if options.all fun listed => s ∈ listed then 0 else 1].foldl addChunk errors.length
          split
          · exact length_match hfull
          · exact length_mismatch hfull _
        | null | bool | num | arr | obj => exact length_mismatch hfull _
      | prototype | method => exact length_mismatch hfull _
    | .number =>
      refine (congrArg List.length (if_neg hfull)).trans ?_
      cases value with
      | data value =>
        cases value with
        | num n => exact length_match hfull
        | null | bool | str | arr | obj => exact length_mismatch hfull _
      | prototype | method => exact length_mismatch hfull _
    | .boolean =>
      refine (congrArg List.length (if_neg hfull)).trans ?_
      cases value with
      | data value =>
        cases value with
        | bool b => exact length_match hfull
        | null | num | str | arr | obj => exact length_mismatch hfull _
      | prototype | method => exact length_mismatch hfull _
    | .array items =>
      refine (congrArg List.length (if_neg hfull)).trans ?_
      cases value with
      | data value =>
        cases value with
        | arr entries =>
          rw [chunks, foldl_addChunk_cons hfull]
          exact length_entries (length_validateNode items) path entries 0 errors
        | null | bool | num | str | obj => exact length_mismatch hfull _
      | prototype | method => exact length_mismatch hfull _
    | .object properties required =>
      rw [validateNode, if_neg hfull, chunks]
      split
      · rw [foldl_addChunk_cons hfull, length_validateProperties properties value path,
          List.length_append, List.length_map]
      · exact length_mismatch hfull _

theorem length_validateProperties : (properties : List (JsString × OutputSchemaNode)) →
    (record : JsValue Rat) → (path : JsString) → (errors : List JsString) →
    (validateProperties properties record path errors).length =
      (propertyChunks properties record).foldl addChunk errors.length
  | [], _, _, _ => rfl
  | (key, child) :: properties, record, path, errors => by
    rw [validateProperties, propertyChunks]
    cases propertyOf record key with
    | none => exact length_validateProperties properties record path errors
    | some value =>
      dsimp only
      rw [length_validateProperties properties record path, length_validateNode child value,
        List.foldl_append]

end

/-! ## Where no problem is found -/

def NoProblem (counts : List Nat) : Prop := ∀ count ∈ counts, count = 0

theorem noProblem_cons {count : Nat} {counts : List Nat} :
    NoProblem (count :: counts) ↔ count = 0 ∧ NoProblem counts := List.forall_mem_cons

theorem noProblem_append {counts counts' : List Nat} :
    NoProblem (counts ++ counts') ↔ NoProblem counts ∧ NoProblem counts' := List.forall_mem_append

theorem not_noProblem_one : ¬ NoProblem [1] := fun h =>
  Nat.one_ne_zero (h 1 List.mem_cons_self)

theorem chunks_method (node : OutputSchemaNode) (name : JsString) :
    chunks node (.method name) = [1] := by
  cases node <;> rfl

theorem chunks_null (node : OutputSchemaNode) : chunks node (.data .null) = [1] := by
  cases node <;> rfl

theorem missing_eq_zero {required : Option (List JsString)} {record : JsValue Rat} :
    (missing required record).length = 0 ↔
      ∀ name ∈ required.getD [], propertyOf record name ≠ none := by
  rw [List.length_eq_zero_iff, missing, List.filter_eq_nil_iff]
  refine forall₂_congr fun name _ => ?_
  rw [Option.isNone_iff_eq_none]

theorem not_noProblem_prototypeProperty {key : JsString} {value : JsValue Rat}
    (h : prototypeProperty key = some value) (node : OutputSchemaNode) :
    ¬ NoProblem (chunks node value) := by
  rw [prototypeProperty] at h
  split at h
  · cases h
    rw [chunks_null]
    exact not_noProblem_one
  · split at h
    · cases h
      rw [chunks_method]
      exact not_noProblem_one
    · cases h

theorem prototypeProperty_ne_none {name : JsString} :
    (prototypeProperty name : Option (JsValue Rat)) ≠ none ↔ isInherited name = true := by
  rw [Ne, prototypeProperty_eq_none, Bool.not_eq_false]

theorem propertyChunks_prototype (properties : List (JsString × OutputSchemaNode)) :
    NoProblem (propertyChunks properties .prototype) ↔
      ∀ key ∈ properties.map Prod.fst, isInherited key = false := by
  induction properties with
  | nil => exact iff_of_true nofun nofun
  | cons property properties ih =>
    obtain ⟨key, child⟩ := property
    rw [propertyChunks, List.map_cons, List.forall_mem_cons]
    show NoProblem (match prototypeProperty key with
      | none => propertyChunks properties .prototype
      | some value => chunks child value ++ propertyChunks properties .prototype) ↔ _
    cases hfound : (prototypeProperty key : Option (JsValue Rat)) with
    | none => exact ih.trans (and_iff_right (prototypeProperty_eq_none.mp hfound)).symm
    | some value =>
      have hinherited : isInherited key = true := by
        rw [← prototypeProperty_ne_none, hfound]
        nofun
      refine iff_of_false (fun h => ?_) fun h => ?_
      · exact not_noProblem_prototypeProperty hfound child (noProblem_append.mp h).1
      · rw [hinherited] at h
        exact Bool.noConfusion h.1

theorem chunks_prototype (node : OutputSchemaNode) :
    NoProblem (chunks node .prototype) ↔ AdmitsPrototype node := by
  cases node with
  | object properties required =>
    show NoProblem ((missing required .prototype).length :: _) ↔ _
    rw [noProblem_cons, missing_eq_zero, propertyChunks_prototype, AdmitsPrototype]
    exact and_congr_left fun _ => forall₂_congr fun name _ => prototypeProperty_ne_none
  | string | number | boolean | array => exact iff_of_false not_noProblem_one id

/-- What an object without the member answers passes exactly where it is not seen. -/
theorem inherited_iff (key : JsString) (child : OutputSchemaNode) :
    (∀ value ∈ (inheritedProperty key : Option (JsValue Rat)), NoProblem (chunks child value)) ↔
      Unseen key child := by
  rw [Unseen, inheritedProperty, isInherited]
  by_cases hproto : key = protoName
  · rw [if_pos hproto, decide_eq_true hproto, Bool.true_or]
    constructor
    · exact fun h _ => ⟨hproto, (chunks_prototype child).mp (h _ rfl)⟩
    · intro h value hvalue
      cases hvalue
      exact (chunks_prototype child).mpr (h rfl).2
  · rw [if_neg hproto, decide_eq_false hproto, Bool.false_or]
    by_cases hmethod : key ∈ prototypeMethods
    · rw [if_pos hmethod]
      refine iff_of_false (fun h => ?_) fun h => hproto (h (decide_eq_true hmethod)).1
      have := h _ rfl
      rw [chunks_method] at this
      exact not_noProblem_one this
    · rw [if_neg hmethod]
      exact iff_of_true (by intro value h; cases h) fun h => absurd (of_decide_eq_true h) hmethod

theorem required_iff {required : Option (List JsString)} {members : JsonRecord} :
    (missing required (.data (.obj members))).length = 0 ↔
      ∀ name ∈ required.getD [],
        OrderedMap.get? name members ≠ none ∨ isInherited name = true := by
  rw [missing_eq_zero]
  refine forall₂_congr fun name _ => ?_
  rw [propertyOf, Ne, property_eq_none, not_and_or, Bool.not_eq_false]

mutual

theorem chunks_eq_zero_iff : (node : OutputSchemaNode) → (value : JsonValue) →
    (NoProblem (chunks node (.data value)) ↔ Passes node value)
  | .string options, value => by
    cases value with
    | str s =>
      rw [chunks, Passes, NoProblem, List.forall_mem_singleton]
      have hlisted : (options.all fun listed => decide (s ∈ listed)) = true ↔
          ∀ listed ∈ options, s ∈ listed := by
        cases options <;> simp
      rw [← hlisted]
      split
      · next h => exact iff_of_true rfl h
      · next h => exact iff_of_false Nat.one_ne_zero h
    | null | bool | num | arr | obj => exact iff_of_false not_noProblem_one id
  | .number, value => by
    cases value with
    | num n => exact iff_of_true (List.forall_mem_singleton.mpr rfl) trivial
    | null | bool | str | arr | obj => exact iff_of_false not_noProblem_one id
  | .boolean, value => by
    cases value with
    | bool b => exact iff_of_true (List.forall_mem_singleton.mpr rfl) trivial
    | null | num | str | arr | obj => exact iff_of_false not_noProblem_one id
  | .array items, value => by
    cases value with
    | arr entries =>
      rw [chunks, noProblem_cons, and_iff_right rfl, Passes]
      constructor
      · intro h entry hentry
        exact (chunks_eq_zero_iff items entry).mp fun count hcount =>
          h count (List.mem_flatMap.mpr ⟨entry, hentry, hcount⟩)
      · intro h count hcount
        obtain ⟨entry, hentry, hcount⟩ := List.mem_flatMap.mp hcount
        exact (chunks_eq_zero_iff items entry).mpr (h entry hentry) count hcount
    | null | bool | num | str | obj => exact iff_of_false not_noProblem_one id
  | .object properties required, value => by
    cases value with
    | obj members =>
      show NoProblem ((missing required (.data (.obj members))).length :: _) ↔ _
      rw [noProblem_cons, required_iff, propertyChunks_eq_zero_iff properties members, Passes]
    | null | bool | num | str | arr => exact iff_of_false not_noProblem_one id

theorem propertyChunks_eq_zero_iff : (properties : List (JsString × OutputSchemaNode)) →
    (members : JsonRecord) →
    (NoProblem (propertyChunks properties (.data (.obj members))) ↔
      PropertiesPass properties members)
  | [], _ => iff_of_true nofun trivial
  | (key, child) :: properties, members => by
    rw [propertyChunks, PropertiesPass, ← propertyChunks_eq_zero_iff properties members]
    show NoProblem (match property members key with
      | none => propertyChunks properties (.data (.obj members))
      | some value => chunks child value ++ propertyChunks properties (.data (.obj members))) ↔ _
    cases hown : OrderedMap.get? key members with
    | some value =>
      rw [property_of_own hown]
      dsimp only
      rw [noProblem_append, chunks_eq_zero_iff child value]
    | none =>
      rw [property_of_absent hown, ← inherited_iff]
      cases (inheritedProperty key : Option (JsValue Rat)) with
      | none => exact (and_iff_right nofun).symm
      | some value =>
        dsimp only
        rw [noProblem_append]
        exact and_congr_left fun _ => ⟨fun h _ hvalue => Option.some.inj hvalue ▸ h,
          fun h => h value rfl⟩

end

mutual

/-- A conforming value passes exactly where the declared names that it lacks are not seen. -/
theorem passes_iff_of_conforms : (node : OutputSchemaNode) → (value : JsonValue) →
    Conforms node value → (Passes node value ↔ DeclaredOwned node value)
  | .string _, value, h => by
    cases value with
    | str => exact iff_of_true h trivial
    | null | bool | num | arr | obj => cases h
  | .number, value, h => by
    cases value with
    | num => exact iff_of_true h trivial
    | null | bool | str | arr | obj => cases h
  | .boolean, value, h => by
    cases value with
    | bool => exact iff_of_true h trivial
    | null | num | str | arr | obj => cases h
  | .array items, value, h => by
    cases value with
    | arr entries =>
      exact forall₂_congr fun entry hentry => passes_iff_of_conforms items entry (h entry hentry)
    | null | bool | num | str | obj => cases h
  | .object properties required, value, h => by
    cases value with
    | obj members =>
      obtain ⟨hrequired, hmembers⟩ := h
      rw [Passes, DeclaredOwned, ← propertiesPass_iff_of_conform properties members hmembers]
      exact and_iff_right fun name hname => .inl (hrequired name hname)
    | null | bool | num | str | arr => cases h

theorem propertiesPass_iff_of_conform : (properties : List (JsString × OutputSchemaNode)) →
    (members : JsonRecord) → PropertiesConform properties members →
    (PropertiesPass properties members ↔ DeclaredMembersOwned properties members)
  | [], _, _ => .rfl
  | (key, child) :: properties, members, h => by
    rw [PropertiesPass, DeclaredMembersOwned, propertiesPass_iff_of_conform properties members h.2]
    refine and_congr_left fun _ => ?_
    cases hown : OrderedMap.get? key members with
    | some value => exact passes_iff_of_conforms child value (h.1 value hown)
    | none => exact .rfl

end

/-! ## The validator -/

theorem compileOutputSchema_cases (schema : OutputSchemaNode) (value : JsonValue) :
    (Passes schema value ∧ compileOutputSchema schema value = .ok value) ∨
      ¬ Passes schema value ∧ ∃ errors, compileOutputSchema schema value = .failed errors ∧
        1 ≤ errors.length ∧ errors.length = (chunks schema (.data value)).foldl addChunk 0 := by
  have hlength := length_validateNode schema (.data value) [] []
  rw [← chunks_eq_zero_iff, NoProblem, ← foldl_addChunk_eq_zero]
  rw [List.length_nil] at hlength
  rw [← hlength, compileOutputSchema]
  cases validateNode schema (.data value) [] [] with
  | nil => exact .inl ⟨rfl, rfl⟩
  | cons error errors =>
    exact .inr ⟨Nat.succ_ne_zero _, error :: errors, rfl, Nat.succ_pos _, rfl⟩

/-- The validator decides conformance exactly where a conforming value lacks no declared name that
it inherits, a value does not fail to conform by required names alone that it inherits, and no
place has so many problems that the cap is passed. -/
theorem validator_decides (schema : OutputSchemaNode) (value : JsonValue) :
    Decides schema value ↔
      (Conforms schema value → DeclaredOwned schema value) ∧
      (Passes schema value → Conforms schema value) ∧
      ¬ Overflows (chunks schema (.data value)) := by
  have hoverflows : Overflows (chunks schema (.data value)) ↔
      maxValidationErrors < (chunks schema (.data value)).foldl addChunk 0 := by
    rw [lt_foldl_addChunk_iff (Nat.zero_le _), Overflows]
    simp only [Nat.zero_add]
  rw [hoverflows, Nat.not_lt]
  rcases compileOutputSchema_cases schema value with
    ⟨hpasses, hok⟩ | ⟨hpasses, errors, hfailed, hone, hlength⟩
  · have hzero : (chunks schema (.data value)).foldl addChunk 0 = 0 :=
      foldl_addChunk_eq_zero.mpr ((chunks_eq_zero_iff schema value).mpr hpasses)
    constructor
    · intro h
      have hconforms : Conforms schema value := by
        by_contra hnot
        obtain ⟨errors, hfailed, -⟩ := h.rejects hnot
        rw [hok] at hfailed
        cases hfailed
      refine ⟨fun _ => (passes_iff_of_conforms schema value hconforms).mp hpasses,
        fun _ => hconforms, ?_⟩
      rw [hzero]
      exact Nat.zero_le _
    · rintro ⟨-, hconforms, -⟩
      exact ⟨fun _ => hok, fun hnot => absurd (hconforms hpasses) hnot⟩
  · constructor
    · intro h
      have hnot : ¬ Conforms schema value := by
        intro hconforms
        have := h.accepts hconforms
        rw [hfailed] at this
        cases this
      refine ⟨fun hconforms => absurd hconforms hnot, fun h => absurd h hpasses, ?_⟩
      obtain ⟨errors', hfailed', -, hle⟩ := h.rejects hnot
      rw [hfailed] at hfailed'
      cases hfailed'
      rw [← hlength]
      exact hle
    · rintro ⟨howned, -, hle⟩
      constructor
      · intro hconforms
        exact absurd ((passes_iff_of_conforms schema value hconforms).mpr (howned hconforms)) hpasses
      · intro _
        rw [← hlength] at hle
        exact ⟨errors, hfailed, hone, hle⟩

/-- An optional `toString`. -/
def optionalSchema : OutputSchemaNode := .object [(ascii "toString", .string none)] none

/-- A required `constructor`. -/
def requiredSchema : OutputSchemaNode := .object [] (some [ascii "constructor"])

/-- The names `p0` to `p25`. -/
def manyNames : List JsString := (List.range 26).map fun n => unit 'p' :: printNat n

def manySchema : OutputSchemaNode :=
  .object (manyNames.map fun name => (name, .string none)) (some manyNames)

/-- Of the empty object: a conforming one is rejected, one that lacks a required name is accepted,
and 26 errors are returned. -/
theorem validator_slips :
    (outputSchemaSchema optionalSchema = true ∧ Conforms optionalSchema (.obj []) ∧
      compileOutputSchema optionalSchema (.obj []) =
        .failed [ascii "toString: expected string, got function"]) ∧
    (outputSchemaSchema requiredSchema = true ∧ ¬ Conforms requiredSchema (.obj []) ∧
      compileOutputSchema requiredSchema (.obj []) = .ok (.obj [])) ∧
    (outputSchemaSchema manySchema = true ∧ ¬ Conforms manySchema (.obj []) ∧
      ∃ errors, compileOutputSchema manySchema (.obj []) = .failed errors ∧
        errors.length = 26) := by
  refine ⟨⟨by decide, ⟨nofun, nofun, trivial⟩, rfl⟩, ⟨by decide, ?_, rfl⟩,
    ⟨by decide, ?_, _, rfl, rfl⟩⟩
  · rintro ⟨h, -⟩
    exact h _ List.mem_cons_self rfl
  · rintro ⟨h, -⟩
    exact h _ List.mem_cons_self rfl

end InvisibleString.Shared.OutputSchema
