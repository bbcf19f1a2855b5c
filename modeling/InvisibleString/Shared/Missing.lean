import InvisibleString.Shared.Conditions
import InvisibleString.Shared.Template

/- # `Shared.Missing` — a path that the data does not have

Three surfaces resolve paths: a condition asks whether there is a value, a `$ref` puts the value
into a tree, a markdown reference puts its text into a text.  Each has its own answer to a path
that leads nowhere.

**Proved here.**

    a path shows the data and nothing else, on all three surfaces, exactly where it asks no object
      for a name that it only inherits  (`path_sees_data`)
-/

namespace InvisibleString.Shared

open Json
open Pipeline (JsonValue JsonRecord)

/-- `{"$ref": path}`. -/
def refTemplate (path : JsString) : JsonValue := .obj [(ascii "$ref", .str path)]

/-- The path resolves to what the data has; where the data has nothing it does not exist, a
structured reference to it is dropped, and a markdown reference to it renders as not provided. -/
structure SeesData (F : NumberFormat Rat) (scope : PipelineScope) (path : JsString) : Prop where
  resolved : resolveScopePath scope path = (scope.dataAt path).map .data
  absent : scope.dataAt path = none →
    evaluateCondition scope (.exists (.ref path)) = .ok false
  dropped : scope.dataAt path = none → renderTemplateValue F scope (refTemplate path) = none
  notProvided : scope.dataAt path = none → ∀ kind : ReferenceKind, kind.path? = some path →
    replacement F scope kind = ascii "(not provided)"

variable {F : NumberFormat Rat} {scope : PipelineScope} {path : JsString}

/-- A path that resolves to nothing is nothing on each surface. -/
theorem sees_nothing (h : resolveScopePath scope path = none) :
    evaluateCondition scope (.exists (.ref path)) = .ok false ∧
      renderTemplateValue F scope (refTemplate path) = none ∧
      ∀ kind : ReferenceKind, kind.path? = some path →
        replacement F scope kind = ascii "(not provided)" := by
  refine ⟨?_, ?_, fun kind hkind => ?_⟩
  · show Except.ok (!isNull ((resolveScopePath scope path).getD (.data .null))) = _
    rw [h]
    rfl
  · rw [refTemplate, renderTemplateValue]
    show (resolveScopePath scope path).map Rendered.leaf = none
    rw [h]
    rfl
  · rw [replacement_path F scope hkind, h]
    rfl

theorem path_sees_data (F : NumberFormat Rat) (scope : PipelineScope) (path : JsString) :
    SeesData F scope path ↔ scope.meetsPrototype path = false := by
  constructor
  · rintro ⟨hresolved, -, -, -⟩
    rw [Bool.eq_false_iff]
    intro hmeets
    obtain ⟨hnone, hfound⟩ := resolveScopePath_inherits hmeets
    rw [hresolved, hnone, FoundOff] at hfound
    split at hfound
    · cases hfound
    · obtain ⟨value, hvalue, -⟩ := hfound
      cases hvalue
  · intro hmeets
    have hresolved := resolveScopePath_data hmeets
    have hnothing (h : scope.dataAt path = none) : resolveScopePath scope path = none := by
      rw [hresolved, h]
      rfl
    have hsurfaces (h : scope.dataAt path = none) := @sees_nothing F scope path (hnothing h)
    exact ⟨hresolved, fun h => (hsurfaces h).1, fun h => (hsurfaces h).2.1,
      fun h => (hsurfaces h).2.2⟩

/-- `trigger.constructor` is not in an empty trigger, and yet it exists, stays in a template and
renders as something. -/
theorem constructor_found :
    emptyScope.dataAt (ascii "trigger.constructor") = none ∧
      resolveScopePath emptyScope (ascii "trigger.constructor") =
        some (.method (ascii "constructor")) ∧
      evaluateCondition emptyScope (.exists (.ref (ascii "trigger.constructor"))) = .ok true ∧
      ∀ F, ¬ SeesData F emptyScope (ascii "trigger.constructor") ∧
        renderTemplateValue F emptyScope (refTemplate (ascii "trigger.constructor")) =
          some (.leaf (.method (ascii "constructor"))) ∧
        replacement F emptyScope (.trigger (ascii "constructor")) = ascii "undefined" := by
  have hresolved : resolveScopePath emptyScope (ascii "trigger.constructor") =
      some (.method (ascii "constructor")) := by rfl
  refine ⟨by decide, hresolved, by decide, fun F => ⟨fun h => ?_, ?_, ?_⟩⟩
  · have := h.resolved
    rw [hresolved] at this
    cases hdata : emptyScope.dataAt (ascii "trigger.constructor") with
    | none =>
      rw [hdata] at this
      cases this
    | some value =>
      rw [hdata] at this
      cases this
  · rw [refTemplate, renderTemplateValue]
    show (resolveScopePath emptyScope (ascii "trigger.constructor")).map Rendered.leaf = _
    rw [hresolved]
    rfl
  · show formatTriggerValue F (resolveScopePath emptyScope (ascii "trigger.constructor")) = _
    rw [hresolved]
    rfl

end InvisibleString.Shared
