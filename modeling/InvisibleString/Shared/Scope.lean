import InvisibleString.Lib.Prototype
import InvisibleString.Pipeline.Config
import InvisibleString.Shared.References

/- # `Shared.Scope` — what a path resolves to in the scope of a run

A dot path names a part of the scope by its first segment and walks from there: by name into
objects, by a decimal index into arrays.  The walk looks names up on JavaScript objects, which
answer to the names of `Object.prototype` as well; `dataAt` is the same walk over the data alone.

**Proved here.**

    off the prototype's names the walk sees only the data  (`resolveScopePath_data`)
    on them it finds a built-in value, or null, where the data has nothing
                                                              (`resolveScopePath_inherits`)
    a markdown reference resolves the path it writes down  (`resolveReference_path`)
-/

namespace InvisibleString.Shared

open Json
open Pipeline (JsonValue JsonRecord)

structure PipelineScope where
  /-- the trigger event's `data` -/
  trigger : JsonRecord
  /-- step outputs by slug -/
  steps : List (JsString × JsonRecord)
  state : JsonRecord
  /-- the current item of a loop -/
  item : Option JsonValue
  now : JsString

/-! ## The walk -/

/-- One segment further. -/
def segmentOf (current : JsValue Rat) (segment : JsString) : Option (JsValue Rat) :=
  match current with
  | .data (.arr items) => do return .data (← items[← digits? segment]?)
  | .data (.obj members) => property members segment
  | .prototype => prototypeProperty segment
  | .data _ | .method _ => none

def resolveSegments (root : Option (JsValue Rat)) (segments : List JsString) :
    Option (JsValue Rat) :=
  segments.foldl (fun current segment => current.bind fun value => segmentOf value segment) root

/-- The steps of a scope as one object. -/
def PipelineScope.stepsObject (scope : PipelineScope) : JsonValue :=
  .obj (scope.steps.map fun entry => (entry.1, .obj entry.2))

def resolveScopePath (scope : PipelineScope) (path : JsString) : Option (JsValue Rat) :=
  if path = [] then none
  else
    let segments := path.splitOn (unit '.')
    let head := segments.headD []
    let rest := segments.tail
    if head = ascii "trigger" then resolveSegments (some (.data (.obj scope.trigger))) rest
    else if head = ascii "steps" then resolveSegments (some (.data scope.stepsObject)) rest
    else if head = ascii "state" then resolveSegments (some (.data (.obj scope.state))) rest
    else if head = ascii "item" then resolveSegments (scope.item.map .data) rest
    else if head = ascii "now" then
      if rest = [] then some (.data (.str scope.now)) else none
    else none

/-! ## The data alone -/

/-- The own member, or the item in range. -/
def ownSegment (value : JsonValue) (segment : JsString) : Option JsonValue :=
  match value with
  | .arr items => (digits? segment).bind fun index => items[index]?
  | .obj members => OrderedMap.get? segment members
  | _ => none

def ownPath (root : Option JsonValue) (segments : List JsString) : Option JsonValue :=
  segments.foldl (fun current segment => current.bind fun value => ownSegment value segment) root

/-- The part of the scope that a first segment names. -/
def PipelineScope.part (scope : PipelineScope) (head : JsString) : Option JsonValue :=
  if head = ascii "trigger" then some (.obj scope.trigger)
  else if head = ascii "steps" then some scope.stepsObject
  else if head = ascii "state" then some (.obj scope.state)
  else if head = ascii "item" then scope.item
  else if head = ascii "now" then some (.str scope.now)
  else none

/-- What the data has at a path. -/
def PipelineScope.dataAt (scope : PipelineScope) (path : JsString) : Option JsonValue :=
  ownPath (scope.part ((path.splitOn (unit '.')).headD [])) (path.splitOn (unit '.')).tail

/-! ## Where the walk leaves the data -/

/-- From an object without the first of them, these names lead along `Object.prototype`. -/
def inheritedPath : List JsString → Bool
  | [name] => isInherited name
  | [first, name] => first = protoName && isInherited name
  | _ => false

/-- These two lead to the prototype of the prototype. -/
def leadsToNull : List JsString → Bool
  | [first, second] => first = protoName && second = protoName
  | _ => false

def isObject : JsonValue → Bool
  | .obj _ => true
  | _ => false

/-- The walk from `value` asks some object for a name that it only inherits. -/
def inherits (value : JsonValue) : List JsString → Bool
  | [] => false
  | segment :: rest =>
    match ownSegment value segment with
    | some value' => inherits value' rest
    | none => isObject value && inheritedPath (segment :: rest)

/-- It ends there in `null`. -/
def inheritsNull (value : JsonValue) : List JsString → Bool
  | [] => false
  | segment :: rest =>
    match ownSegment value segment with
    | some value' => inheritsNull value' rest
    | none => isObject value && leadsToNull (segment :: rest)

def PipelineScope.meetsPrototype (scope : PipelineScope) (path : JsString) : Bool :=
  (scope.part ((path.splitOn (unit '.')).headD [])).any fun value =>
    inherits value (path.splitOn (unit '.')).tail

def PipelineScope.meetsNull (scope : PipelineScope) (path : JsString) : Bool :=
  (scope.part ((path.splitOn (unit '.')).headD [])).any fun value =>
    inheritsNull value (path.splitOn (unit '.')).tail

/-- A value that is not data. -/
def IsBuiltin (value : JsValue Rat) : Prop := value = .prototype ∨ ∃ name, value = .method name

/-- What is found off the data: `null` or a built-in value. -/
def FoundOff (isNull : Bool) (found : Option (JsValue Rat)) : Prop :=
  if isNull then found = some (.data .null) else ∃ value, found = some value ∧ IsBuiltin value

/-! ## The two walks -/

theorem resolveSegments_none (segments : List JsString) : resolveSegments none segments = none := by
  induction segments with
  | nil => rfl
  | cons segment segments ih => exact ih

theorem ownPath_none (segments : List JsString) : ownPath none segments = none := by
  induction segments with
  | nil => rfl
  | cons segment segments ih => exact ih

theorem resolveSegments_cons (value : JsValue Rat) (segment : JsString)
    (segments : List JsString) :
    resolveSegments (some value) (segment :: segments) =
      resolveSegments (segmentOf value segment) segments := rfl

theorem ownPath_cons (value : JsonValue) (segment : JsString) (segments : List JsString) :
    ownPath (some value) (segment :: segments) = ownPath (ownSegment value segment) segments := rfl

theorem segmentOf_own {value value' : JsonValue} {segment : JsString}
    (h : ownSegment value segment = some value') :
    segmentOf (.data value) segment = some (.data value') := by
  cases value with
  | arr items =>
    obtain ⟨index, hindex, hitem⟩ := Option.bind_eq_some_iff.mp h
    rw [segmentOf, hindex]
    show Option.bind items[index]? _ = _
    rw [hitem]
    rfl
  | obj members => exact property_of_own h
  | null => cases h
  | bool => cases h
  | num => cases h
  | str => cases h

theorem segmentOf_absent {value : JsonValue} {segment : JsString}
    (h : ownSegment value segment = none) :
    segmentOf (.data value) segment =
      if isObject value then inheritedProperty segment else none := by
  cases value with
  | arr items =>
    show Option.bind (digits? segment) _ = none
    cases hindex : digits? segment with
    | none => rfl
    | some index =>
      have hitem : items[index]? = none := by
        rw [ownSegment, hindex] at h
        exact h
      show Option.bind items[index]? _ = none
      rw [hitem]
      rfl
  | obj members => exact property_of_absent h
  | null => rfl
  | bool => rfl
  | num => rfl
  | str => rfl

theorem resolveSegments_method (name segment : JsString) (segments : List JsString) :
    resolveSegments (some (.method name)) (segment :: segments) = none :=
  resolveSegments_none segments

theorem resolveSegments_null (segment : JsString) (segments : List JsString) :
    resolveSegments (some (.data .null)) (segment :: segments) = none :=
  resolveSegments_none segments

/-- Behind a property of the prototype nothing more is found. -/
theorem resolveSegments_prototypeProperty (name segment : JsString) (segments : List JsString) :
    resolveSegments (prototypeProperty name) (segment :: segments) = none := by
  rw [prototypeProperty]
  by_cases hproto : name = protoName
  · rw [if_pos hproto, resolveSegments_null]
  · rw [if_neg hproto]
    by_cases hmethod : name ∈ prototypeMethods
    · rw [if_pos hmethod, resolveSegments_method]
    · rw [if_neg hmethod, resolveSegments_none]

theorem foundOff_inheritedProperty {name : JsString} (h : isInherited name = true) :
    FoundOff false (inheritedProperty name) := by
  rw [FoundOff, if_neg Bool.false_ne_true, inheritedProperty]
  by_cases hproto : name = protoName
  · rw [if_pos hproto]
    exact ⟨_, rfl, .inl rfl⟩
  · rw [isInherited, decide_eq_false hproto, Bool.false_or] at h
    rw [if_neg hproto, if_pos (of_decide_eq_true h)]
    exact ⟨_, rfl, .inr ⟨name, rfl⟩⟩

theorem foundOff_prototypeProperty {name : JsString} (h : isInherited name = true) :
    FoundOff (name = protoName) (prototypeProperty name) := by
  rw [FoundOff, prototypeProperty]
  by_cases hproto : name = protoName
  · rw [if_pos hproto, if_pos (decide_eq_true hproto)]
  · rw [isInherited, decide_eq_false hproto, Bool.false_or] at h
    rw [if_neg hproto, decide_eq_false hproto, if_neg Bool.false_ne_true,
      if_pos (of_decide_eq_true h)]
    exact ⟨_, rfl, .inr ⟨name, rfl⟩⟩

theorem resolveSegments_inherited (segment : JsString) (segments : List JsString) :
    (inheritedPath (segment :: segments) = false →
      resolveSegments (inheritedProperty segment) segments = none) ∧
    (inheritedPath (segment :: segments) = true →
      FoundOff (leadsToNull (segment :: segments))
        (resolveSegments (inheritedProperty segment) segments)) := by
  match segments with
  | [] => exact ⟨inheritedProperty_eq_none.mpr, foundOff_inheritedProperty⟩
  | [name] =>
    rw [inheritedPath, leadsToNull, inheritedProperty]
    by_cases hproto : segment = protoName
    · rw [if_pos hproto, decide_eq_true hproto, Bool.true_and, Bool.true_and]
      exact ⟨prototypeProperty_eq_none.mpr, foundOff_prototypeProperty⟩
    · rw [if_neg hproto, decide_eq_false hproto, Bool.false_and]
      refine ⟨fun _ => ?_, by intro h; cases h⟩
      by_cases hmethod : segment ∈ prototypeMethods
      · rw [if_pos hmethod, resolveSegments_method]
      · rw [if_neg hmethod, resolveSegments_none]
  | name :: name' :: segments =>
    refine ⟨fun _ => ?_, by intro h; cases h⟩
    rw [inheritedProperty]
    by_cases hproto : segment = protoName
    · rw [if_pos hproto]
      exact resolveSegments_prototypeProperty name name' segments
    · rw [if_neg hproto]
      by_cases hmethod : segment ∈ prototypeMethods
      · rw [if_pos hmethod, resolveSegments_method]
      · rw [if_neg hmethod, resolveSegments_none]

/-- The walk from a value gives what the data has, or what it inherits. -/
theorem resolveSegments_data (value : JsonValue) (segments : List JsString) :
    (inherits value segments = false →
      resolveSegments (some (.data value)) segments =
        (ownPath (some value) segments).map .data) ∧
    (inherits value segments = true →
      ownPath (some value) segments = none ∧
        FoundOff (inheritsNull value segments)
          (resolveSegments (some (.data value)) segments)) := by
  induction segments generalizing value with
  | nil => exact ⟨fun _ => rfl, nofun⟩
  | cons segment segments ih =>
    rw [resolveSegments_cons, ownPath_cons, inherits, inheritsNull]
    cases hown : ownSegment value segment with
    | some value' =>
      rw [segmentOf_own hown]
      exact ih value'
    | none =>
      rw [segmentOf_absent hown, ownPath_none]
      cases hobject : isObject value with
      | false =>
        refine ⟨fun _ => ?_, nofun⟩
        exact resolveSegments_none segments
      | true =>
        obtain ⟨hnone, hfound⟩ := resolveSegments_inherited segment segments
        exact ⟨hnone, fun h => ⟨rfl, hfound h⟩⟩

theorem resolveScopePath_eq (scope : PipelineScope) (path : JsString) :
    resolveScopePath scope path =
      resolveSegments ((scope.part ((path.splitOn (unit '.')).headD [])).map .data)
        (path.splitOn (unit '.')).tail := by
  rw [resolveScopePath, PipelineScope.part]
  by_cases hempty : path = []
  · subst hempty
    rfl
  · rw [if_neg hempty]
    dsimp only
    split
    · rfl
    · split
      · rfl
      · split
        · rfl
        · split
          · rfl
          · split
            · split
              · next hrest =>
                rw [hrest]
                rfl
              · next hrest =>
                cases htail : (path.splitOn (unit '.')).tail with
                | nil => exact absurd htail hrest
                | cons segment segments => exact (resolveSegments_none segments).symm
            · exact (resolveSegments_none _).symm

/-- Where the path does not meet the prototype, it resolves to what the data has. -/
theorem resolveScopePath_data {scope : PipelineScope} {path : JsString}
    (h : scope.meetsPrototype path = false) :
    resolveScopePath scope path = (scope.dataAt path).map .data := by
  rw [resolveScopePath_eq, PipelineScope.dataAt]
  rw [PipelineScope.meetsPrototype] at h
  cases hpart : scope.part ((path.splitOn (unit '.')).headD []) with
  | none =>
    show resolveSegments none _ = _
    rw [resolveSegments_none, ownPath_none]
    rfl
  | some value =>
    rw [hpart] at h
    exact (resolveSegments_data value _).1 h

theorem resolveScopePath_inherits {scope : PipelineScope} {path : JsString}
    (h : scope.meetsPrototype path = true) :
    scope.dataAt path = none ∧
      FoundOff (scope.meetsNull path) (resolveScopePath scope path) := by
  rw [resolveScopePath_eq, PipelineScope.dataAt, PipelineScope.meetsNull]
  rw [PipelineScope.meetsPrototype] at h
  cases hpart : scope.part ((path.splitOn (unit '.')).headD []) with
  | none =>
    rw [hpart] at h
    cases h
  | some value =>
    rw [hpart] at h
    exact (resolveSegments_data value _).2 h

/-! ## References -/

def joinPath (head rest : JsString) : JsString := if rest = [] then head else head ++ dot ++ rest

/-- One parsed markdown reference. -/
def resolveReference (scope : PipelineScope) : ReferenceKind → Option (JsValue Rat)
  | .trigger path => resolveScopePath scope (joinPath (ascii "trigger") path)
  | .step slug path =>
    resolveScopePath scope (joinPath (joinPath (ascii "steps") slug) path)
  | .state key => resolveScopePath scope (joinPath (ascii "state") key)
  | .item path =>
    if path = [] then scope.item.map .data
    else resolveScopePath scope (joinPath (ascii "item") path)
  | .now => some (.data (.str scope.now))
  | .skill _ | .connection _ => none

/-- The path into the scope that a reference writes down. -/
def ReferenceKind.path? : ReferenceKind → Option JsString
  | .trigger path => some (joinPath (ascii "trigger") path)
  | .step slug path => some (joinPath (joinPath (ascii "steps") slug) path)
  | .state key => some (joinPath (ascii "state") key)
  | .item path => some (joinPath (ascii "item") path)
  | .now => some (ascii "now")
  | .skill _ | .connection _ => none

theorem resolveReference_path (scope : PipelineScope) {kind : ReferenceKind} {path : JsString}
    (h : kind.path? = some path) : resolveReference scope kind = resolveScopePath scope path := by
  cases kind with
  | item rest =>
    cases h
    by_cases hrest : rest = []
    · subst hrest
      rfl
    · exact if_neg hrest
  | trigger | step | state | now =>
    cases h
    rfl
  | skill | connection => cases h

/-! ## Markdown values -/

/-- Strings as they are, other values as JSON; a method's text is `undefined` in a template. -/
def formatTriggerValue (F : NumberFormat Rat) : Option (JsValue Rat) → JsString
  | none => ascii "(not provided)"
  | some (.data (.str s)) => s
  | some (.data value) => stringify F value
  | some .prototype => ascii "\x7b\x7d"
  | some (.method _) => ascii "undefined"

/-- The text that stands in for a reference. -/
def replacement (F : NumberFormat Rat) (scope : PipelineScope) : ReferenceKind → JsString
  | .connection name => ascii "the \"" ++ name ++ ascii "\" connection"
  | .skill slug => ascii "the \"" ++ slug ++ ascii "\" skill"
  | kind => formatTriggerValue F (resolveReference scope kind)

end InvisibleString.Shared
