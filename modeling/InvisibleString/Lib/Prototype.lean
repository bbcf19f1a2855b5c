import InvisibleString.Lib.Json

/- # `Prototype` — property lookup on JavaScript objects

`object[name]` finds an own member of the object, else what `Object.prototype` has under that
name: a method, or its accessor `__proto__`, which gives the prototype.  On data read from JSON
the two are told apart here.

**Proved here.**

    a lookup gives nothing exactly where neither the object nor its prototype has the name
                                                                        (`property_eq_none`)
-/

namespace Json

variable {N : Type}

/-- What a property can be on the objects that JSON makes. -/
inductive JsValue (N : Type) where
  | data (value : Value N)
  /-- `Object.prototype` -/
  | prototype
  /-- the method of that name -/
  | method (name : JsString)

def protoName : JsString := ascii "__proto__"

/-- The other own names of `Object.prototype`. -/
def prototypeMethods : List JsString :=
  [ascii "constructor", ascii "__defineGetter__", ascii "__defineSetter__",
    ascii "hasOwnProperty", ascii "__lookupGetter__", ascii "__lookupSetter__",
    ascii "isPrototypeOf", ascii "propertyIsEnumerable", ascii "toString", ascii "valueOf",
    ascii "toLocaleString"]

/-- Every object answers to this name. -/
def isInherited (name : JsString) : Bool := name = protoName || name ∈ prototypeMethods

/-- `Object.prototype[name]`; its own prototype is `null`. -/
def prototypeProperty (name : JsString) : Option (JsValue N) :=
  if name = protoName then some (.data .null)
  else if name ∈ prototypeMethods then some (.method name) else none

/-- What an object without the member answers. -/
def inheritedProperty (name : JsString) : Option (JsValue N) :=
  if name = protoName then some .prototype
  else if name ∈ prototypeMethods then some (.method name) else none

/-- `object[name]`. -/
def property (members : List (JsString × Value N)) (name : JsString) : Option (JsValue N) :=
  match OrderedMap.get? name members with
  | some value => some (.data value)
  | none => inheritedProperty name

variable {members : List (JsString × Value N)} {name : JsString}

theorem property_of_own {value : Value N} (h : OrderedMap.get? name members = some value) :
    property members name = some (.data value) := by
  rw [property, h]

theorem property_of_absent (h : OrderedMap.get? name members = none) :
    property members name = inheritedProperty name := by
  rw [property, h]

theorem inheritedProperty_eq_none :
    (inheritedProperty name : Option (JsValue N)) = none ↔ isInherited name = false := by
  rw [inheritedProperty, isInherited]
  by_cases hproto : name = protoName
  · simp [hproto]
  · by_cases hmethod : name ∈ prototypeMethods
    · simp [hproto, hmethod]
    · simp [hproto, hmethod]

theorem prototypeProperty_eq_none :
    (prototypeProperty name : Option (JsValue N)) = none ↔ isInherited name = false := by
  rw [prototypeProperty, isInherited]
  by_cases hproto : name = protoName
  · simp [hproto]
  · by_cases hmethod : name ∈ prototypeMethods
    · simp [hproto, hmethod]
    · simp [hproto, hmethod]

theorem property_eq_none :
    property members name = none ↔
      OrderedMap.get? name members = none ∧ isInherited name = false := by
  rw [← inheritedProperty_eq_none (N := N)]
  cases hown : OrderedMap.get? name members with
  | some value =>
    rw [property_of_own hown]
    constructor
    · nofun
    · rintro ⟨h, -⟩
      cases h
  | none =>
    rw [property_of_absent hown]
    exact ⟨fun h => ⟨rfl, h⟩, And.right⟩

end Json
