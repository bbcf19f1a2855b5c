import InvisibleString.Shared.Markdown

/- # `Shared.Template` — rendering tagged JSON

A template is JSON whose objects with the sole key `$ref` or `$tpl` are tags.  The renderer walks
it once; an object is built by assignment, so that a member named `__proto__` sets the prototype
of the object instead of becoming a member.  The meaning of a template is said in two steps: the
tags are replaced by what the data has, and the tree is then what `JSON.stringify` and
`JSON.parse` make of it.

**Proved here.**

    a template without tags means itself  (`meaning_of_tagless`)
    the rendered text of a `$tpl` is right exactly where its references stay on the data
                                                                        (`renderText_iff`)
    a template renders to its meaning exactly where its references stay on the data and no
      member that has a value is named `__proto__`  (`template_renders`)
-/

namespace InvisibleString.Shared

open Json Spans
open Pipeline (JsonValue JsonRecord)

/-! ## The renderer -/

inductive Tag where
  | ref (path : JsString)
  | tpl (text : JsString)

/-- `{"$ref": "…"}` and `{"$tpl": "…"}`, with no other key. -/
def tag? : JsonRecord → Option Tag
  | [(key, .str text)] =>
    if key = ascii "$ref" then some (.ref text)
    else if key = ascii "$tpl" then some (.tpl text) else none
  | _ => none

/-- A rendered tree: what a `$ref` has found stands in it as a leaf. -/
inductive Rendered where
  | leaf (value : JsValue Rat)
  | arr (items : List Rendered)
  | obj (members : List (JsString × Rendered))

/-- `out[key] = rendered`, in front of the members assigned later; the keys of a template object
are distinct. -/
def assign (key : JsString) (rendered : Rendered) (members : List (JsString × Rendered)) :
    List (JsString × Rendered) :=
  if key = protoName then members else (key, rendered) :: members

section Render

variable (F : NumberFormat Rat) (scope : PipelineScope)

mutual

/-- `none` is `undefined`. -/
def renderTemplateValue : JsonValue → Option Rendered
  | .arr items => some (.arr (renderItems items))
  | .obj members =>
    match tag? members with
    | some (.ref path) => (resolveScopePath scope path).map .leaf
    | some (.tpl text) => some (.leaf (.data (.str (renderMarkdownTemplate F text scope))))
    | none => some (.obj (renderTemplateRecord members))
  | value => some (.leaf (.data value))

/-- An undefined item is `null`. -/
def renderItems : List JsonValue → List Rendered
  | [] => []
  | item :: items => (renderTemplateValue item).getD (.leaf (.data .null)) :: renderItems items

/-- Tool arguments and state; the members of an object node too. -/
def renderTemplateRecord : JsonRecord → List (JsString × Rendered)
  | [] => []
  | (key, entry) :: members =>
    match renderTemplateValue entry with
    | some rendered => assign key rendered (renderTemplateRecord members)
    | none => renderTemplateRecord members

end

end Render

mutual

/-- The JSON a rendered tree is, if nothing built in stands in it. -/
def Rendered.toJson? : Rendered → Option JsonValue
  | .leaf (.data value) => some value
  | .leaf _ => none
  | .arr items => (itemsToJson? items).map .arr
  | .obj members => (membersToJson? members).map .obj

def itemsToJson? : List Rendered → Option (List JsonValue)
  | [] => some []
  | item :: items => do return (← item.toJson?) :: (← itemsToJson? items)

def membersToJson? : List (JsString × Rendered) → Option JsonRecord
  | [] => some []
  | (key, member) :: members => do return (key, ← member.toJson?) :: (← membersToJson? members)

end

/-! ## What a template means -/

/-- A tree in which a tag can be undefined. -/
inductive Substituted where
  | undefined
  | data (value : JsonValue)
  | arr (items : List Substituted)
  | obj (members : List (JsString × Substituted))

section Meaning

variable (F : NumberFormat Rat) (scope : PipelineScope)

/-- The text of a reference as far as the data goes. -/
def dataText (kind : ReferenceKind) : JsString :=
  match kind.path? with
  | some path => formatTriggerValue F ((scope.dataAt path).map .data)
  | none => replacement F scope kind

def dataSpan (ref : ParsedReference) : Span CodeUnit :=
  ⟨ref.start, ref.stop, dataText F scope ref.kind⟩

/-- A `$tpl` read once. -/
def substituteText (text : JsString) : JsString :=
  onePass text 0 ((parseReferences text).map (dataSpan F scope))

mutual

/-- Every tag replaced. -/
def substitute : JsonValue → Substituted
  | .arr items => .arr (substituteItems items)
  | .obj members =>
    match tag? members with
    | some (.ref path) => (scope.dataAt path).elim .undefined .data
    | some (.tpl text) => .data (.str (substituteText F scope text))
    | none => .obj (substituteMembers members)
  | value => .data value

def substituteItems : List JsonValue → List Substituted
  | [] => []
  | item :: items => substitute item :: substituteItems items

def substituteMembers : JsonRecord → List (JsString × Substituted)
  | [] => []
  | (key, entry) :: members => (key, substitute entry) :: substituteMembers members

end

mutual

/-- `JSON.parse(JSON.stringify(tree))`. -/
def Substituted.roundTrip : Substituted → Option JsonValue
  | .undefined => none
  | .data value => some value
  | .arr items => some (.arr (roundTripItems items))
  | .obj members => some (.obj (roundTripMembers members))

def roundTripItems : List Substituted → List JsonValue
  | [] => []
  | item :: items => item.roundTrip.getD .null :: roundTripItems items

def roundTripMembers : List (JsString × Substituted) → JsonRecord
  | [] => []
  | (key, member) :: members =>
    match member.roundTrip with
    | some value => (key, value) :: roundTripMembers members
    | none => roundTripMembers members

end

def meaning (template : JsonValue) : Option JsonValue := (substitute F scope template).roundTrip

def meaningRecord (record : JsonRecord) : JsonRecord :=
  roundTripMembers (substituteMembers F scope record)

/-- The template renders to its meaning. -/
def RendersAs (template : JsonValue) : Prop :=
  (renderTemplateValue F scope template).map Rendered.toJson? =
    (meaning F scope template).map some

def RecordRendersAs (record : JsonRecord) : Prop :=
  membersToJson? (renderTemplateRecord F scope record) = some (meaningRecord F scope record)

end Meaning

/-! ## Where it renders to its meaning -/

/-- No reference of the text leaves the data. -/
def PlainText (scope : PipelineScope) (text : JsString) : Prop :=
  ∀ ref ∈ parseReferences text, ∀ path, ref.kind.path? = some path →
    scope.meetsPrototype path = false

/-- A `$ref` that runs into `null` off the data. -/
def NullRef (scope : PipelineScope) : JsonValue → Prop
  | .obj members => ∃ path, tag? members = some (.ref path) ∧
      scope.meetsPrototype path = true ∧ scope.meetsNull path = true
  | _ => False

section Plain

variable (F : NumberFormat Rat) (scope : PipelineScope)

mutual

/-- Every reference stays on the data, and a member named `__proto__` has no value. -/
def Plain : JsonValue → Prop
  | .arr items => PlainItems items
  | .obj members =>
    match tag? members with
    | some (.ref path) => scope.meetsPrototype path = false
    | some (.tpl text) => PlainText scope text
    | none => PlainMembers members
  | _ => True

/-- In an array `null` and `undefined` are one. -/
def PlainItems : List JsonValue → Prop
  | [] => True
  | item :: items => (Plain item ∨ NullRef scope item) ∧ PlainItems items

def PlainMembers : JsonRecord → Prop
  | [] => True
  | (key, entry) :: members =>
    (if key = protoName then meaning F scope entry = none else Plain entry) ∧
      PlainMembers members

end

end Plain

mutual

/-- No tag stands in the template. -/
def Tagless : JsonValue → Prop
  | .arr items => TaglessItems items
  | .obj members => tag? members = none ∧ TaglessMembers members
  | _ => True

def TaglessItems : List JsonValue → Prop
  | [] => True
  | item :: items => Tagless item ∧ TaglessItems items

def TaglessMembers : JsonRecord → Prop
  | [] => True
  | (_, entry) :: members => Tagless entry ∧ TaglessMembers members

end

/-! ## Text -/

section Text

variable (F : NumberFormat Rat) (scope : PipelineScope)

/-- Off the data the text of a reference differs from the text of nothing at once. -/
theorem diverge_of_foundOff {isNull : Bool} {found : Option (JsValue Rat)}
    (h : FoundOff isNull found) :
    Diverge (formatTriggerValue F found) (formatTriggerValue F none) := by
  rw [FoundOff] at h
  cases isNull with
  | true =>
    rw [if_pos rfl] at h
    rw [h]
    exact ⟨_, _, _, _, rfl, rfl, by decide⟩
  | false =>
    rw [if_neg Bool.false_ne_true] at h
    obtain ⟨value, rfl, rfl | ⟨name, rfl⟩⟩ := h
    · exact ⟨_, _, _, _, rfl, rfl, by decide⟩
    · exact ⟨_, _, _, _, rfl, rfl, by decide⟩

theorem replacement_path {kind : ReferenceKind} {path : JsString} (h : kind.path? = some path) :
    replacement F scope kind = formatTriggerValue F (resolveScopePath scope path) := by
  rw [← resolveReference_path scope h]
  cases kind with
  | trigger | step | state | item | now => rfl
  | skill | connection => cases h

/-- The text of a reference is that of the data, where it stays on the data. -/
theorem replacement_cases (kind : ReferenceKind) :
    (replacement F scope kind = dataText F scope kind ∧
      ∀ path, kind.path? = some path → scope.meetsPrototype path = false) ∨
    (Diverge (replacement F scope kind) (dataText F scope kind) ∧
      ∃ path, kind.path? = some path ∧ scope.meetsPrototype path = true) := by
  rw [dataText]
  cases hpath : kind.path? with
  | none => exact .inl ⟨rfl, nofun⟩
  | some path =>
    dsimp only
    rw [replacement_path F scope hpath]
    cases hmeets : scope.meetsPrototype path with
    | false =>
      refine .inl ⟨by rw [resolveScopePath_data hmeets], ?_⟩
      intro path' heq
      cases heq
      exact hmeets
    | true =>
      obtain ⟨hnone, hfound⟩ := resolveScopePath_inherits hmeets
      rw [hnone]
      exact .inr ⟨diverge_of_foundOff F hfound, path, rfl, hmeets⟩

theorem renderText_iff (text : JsString) :
    renderMarkdownTemplate F text scope = substituteText F scope text ↔ PlainText scope text := by
  have hdiverge (ref : ParsedReference) :
      (spanOf F scope ref).replacement = (dataSpan F scope ref).replacement ∨
        Diverge (spanOf F scope ref).replacement (dataSpan F scope ref).replacement := by
    rcases replacement_cases F scope ref.kind with ⟨heq, -⟩ | ⟨hne, -⟩
    · exact .inl heq
    · exact .inr hne
  rw [(markdown_single_pass F text).2 scope, substituteText]
  refine (onePass_eq_iff (spanOf F scope) (dataSpan F scope) (fun _ => ⟨rfl, rfl⟩)
    (fun ref _ => hdiverge ref) 0).trans ?_
  refine forall₂_congr fun ref _ => ?_
  show replacement F scope ref.kind = dataText F scope ref.kind ↔ _
  rcases replacement_cases F scope ref.kind with ⟨heq, hplain⟩ | ⟨hne, path, hpath, hmeets⟩
  · exact ⟨fun _ => hplain, fun _ => heq⟩
  · constructor
    · intro heq
      rw [heq] at hne
      exact absurd rfl (hne.append_ne [] [])
    · intro hplain
      rw [hplain path hpath] at hmeets
      cases hmeets

end Text

/-! ## Templates without tags -/

section Tagless

variable (F : NumberFormat Rat) (scope : PipelineScope)

mutual

theorem meaning_of_tagless : (template : JsonValue) → Tagless template →
    meaning F scope template = some template
  | .null, _ => rfl
  | .bool _, _ => rfl
  | .num _, _ => rfl
  | .str _, _ => rfl
  | .arr items, h => by
    show some (Value.arr (roundTripItems (substituteItems F scope items))) = _
    rw [roundTripItems_of_tagless items h]
  | .obj members, h => by
    obtain ⟨htag, hmembers⟩ := h
    rw [meaning, substitute, htag]
    show some (Value.obj (roundTripMembers (substituteMembers F scope members))) = _
    rw [roundTripMembers_of_tagless members hmembers]

theorem roundTripItems_of_tagless : (items : List JsonValue) → TaglessItems items →
    roundTripItems (substituteItems F scope items) = items
  | [], _ => rfl
  | item :: items, h => by
    rw [substituteItems, roundTripItems, roundTripItems_of_tagless items h.2]
    rw [show (substitute F scope item).roundTrip = some item from meaning_of_tagless item h.1]
    rfl

theorem roundTripMembers_of_tagless : (members : JsonRecord) → TaglessMembers members →
    roundTripMembers (substituteMembers F scope members) = members
  | [], _ => rfl
  | (key, entry) :: members, h => by
    rw [substituteMembers, roundTripMembers]
    rw [show (substitute F scope entry).roundTrip = some entry from
      meaning_of_tagless entry h.1]
    rw [roundTripMembers_of_tagless members h.2]

end

end Tagless

/-! ## Rendering to the meaning -/

section Renders

variable (F : NumberFormat Rat) (scope : PipelineScope)

/-- The keys of what a record renders to, and of what it means, are keys of the record. -/
theorem key_of_mem_roundTripMembers {record : JsonRecord} {key : JsString} {value : JsonValue}
    (h : (key, value) ∈ meaningRecord F scope record) : key ∈ record.map Prod.fst := by
  induction record with
  | nil => cases h
  | cons member record ih =>
    obtain ⟨key', entry⟩ := member
    rw [meaningRecord, substituteMembers, roundTripMembers] at h
    split at h
    · rcases List.mem_cons.mp h with heq | h
      · cases heq
        exact List.mem_cons_self
      · exact List.mem_cons_of_mem _ (ih h)
    · exact List.mem_cons_of_mem _ (ih h)

theorem key_of_mem_membersToJson? {record : JsonRecord} {members : JsonRecord} {key : JsString}
    {value : JsonValue} (h : membersToJson? (renderTemplateRecord F scope record) = some members)
    (hmem : (key, value) ∈ members) : key ∈ record.map Prod.fst := by
  induction record generalizing members with
  | nil =>
    cases h
    cases hmem
  | cons member record ih =>
    obtain ⟨key', entry⟩ := member
    rw [renderTemplateRecord] at h
    split at h
    · next rendered _ =>
      rw [assign] at h
      split at h
      · exact List.mem_cons_of_mem _ (ih h hmem)
      · obtain ⟨value', hvalue, h⟩ := Option.bind_eq_some_iff.mp h
        obtain ⟨rest, hrest, h⟩ := Option.bind_eq_some_iff.mp h
        cases h
        rcases List.mem_cons.mp hmem with heq | hmem
        · cases heq
          exact List.mem_cons_self
        · exact List.mem_cons_of_mem _ (ih hrest hmem)
    · exact List.mem_cons_of_mem _ (ih h hmem)

theorem renders_ref {members : JsonRecord} {path : JsString}
    (htag : tag? members = some (.ref path)) :
    RendersAs F scope (.obj members) ↔ scope.meetsPrototype path = false := by
  rw [RendersAs, renderTemplateValue, meaning, substitute, htag]
  show ((resolveScopePath scope path).map .leaf).map Rendered.toJson? =
    ((scope.dataAt path).elim Substituted.undefined .data).roundTrip.map some ↔ _
  cases hmeets : scope.meetsPrototype path with
  | false =>
    rw [resolveScopePath_data hmeets]
    refine iff_of_true ?_ rfl
    cases scope.dataAt path with
    | none => rfl
    | some value => rfl
  | true =>
    obtain ⟨hnone, hfound⟩ := resolveScopePath_inherits hmeets
    rw [hnone]
    refine iff_of_false ?_ (by intro h; cases h)
    rw [FoundOff] at hfound
    split at hfound
    · rw [hfound]
      intro h
      cases h
    · obtain ⟨value, hvalue, -⟩ := hfound
      rw [hvalue]
      intro h
      cases h

theorem renders_tpl {members : JsonRecord} {text : JsString}
    (htag : tag? members = some (.tpl text)) :
    RendersAs F scope (.obj members) ↔ PlainText scope text := by
  rw [RendersAs, renderTemplateValue, meaning, substitute, htag, ← renderText_iff F]
  show some (some (Value.str _)) = some (some (Value.str _)) ↔ _
  rw [Option.some.injEq, Option.some.injEq, Value.str.injEq]

theorem renders_node {members : JsonRecord} (htag : tag? members = none) :
    RendersAs F scope (.obj members) ↔ RecordRendersAs F scope members := by
  rw [RendersAs, renderTemplateValue, meaning, substitute, htag]
  show some ((membersToJson? (renderTemplateRecord F scope members)).map Value.obj) =
    some (some (Value.obj (meaningRecord F scope members))) ↔ _
  rw [RecordRendersAs, Option.some.injEq]
  cases membersToJson? (renderTemplateRecord F scope members) with
  | none => exact iff_of_false nofun nofun
  | some members' => rw [Option.map_some, Option.some.injEq, Value.obj.injEq, Option.some.injEq]

theorem slot_iff (item : JsonValue) :
    ((renderTemplateValue F scope item).getD (.leaf (.data .null))).toJson? =
      some ((meaning F scope item).getD .null) ↔
    RendersAs F scope item ∨ NullRef scope item := by
  -- a value on both sides: the slot says what the item says
  have hvalue {rendered : Rendered} {value : JsonValue}
      (hrendered : renderTemplateValue F scope item = some rendered)
      (hmeaning : meaning F scope item = some value) (hnull : ¬ NullRef scope item) :
      ((renderTemplateValue F scope item).getD (.leaf (.data .null))).toJson? =
        some ((meaning F scope item).getD .null) ↔
      RendersAs F scope item ∨ NullRef scope item := by
    rw [RendersAs, hrendered, hmeaning, or_iff_left hnull]
    show _ ↔ some rendered.toJson? = some (some value)
    rw [Option.some.injEq]
    rfl
  cases item with
  | null => exact hvalue rfl rfl id
  | bool => exact hvalue rfl rfl id
  | num => exact hvalue rfl rfl id
  | str => exact hvalue rfl rfl id
  | arr => exact hvalue rfl rfl id
  | obj members =>
    cases htag : tag? members with
    | none =>
      refine hvalue (by rw [renderTemplateValue, htag]) (by rw [meaning, substitute, htag]; rfl) ?_
      rintro ⟨path, hpath, -⟩
      rw [htag] at hpath
      cases hpath
    | some tag =>
      cases tag with
      | tpl text =>
        refine hvalue (by rw [renderTemplateValue, htag])
          (by rw [meaning, substitute, htag]; rfl) ?_
        rintro ⟨path, hpath, -⟩
        rw [htag] at hpath
        cases hpath
      | ref path =>
        have hnullref : NullRef scope (.obj members) ↔
            scope.meetsPrototype path = true ∧ scope.meetsNull path = true := by
          constructor
          · rintro ⟨path', hpath, h⟩
            rw [htag] at hpath
            cases hpath
            exact h
          · exact fun h => ⟨path, htag, h⟩
        rw [renders_ref F scope htag, hnullref, renderTemplateValue, meaning, substitute, htag]
        show (((resolveScopePath scope path).map Rendered.leaf).getD _).toJson? =
          some (((scope.dataAt path).elim Substituted.undefined .data).roundTrip.getD .null) ↔ _
        cases hmeets : scope.meetsPrototype path with
        | false =>
          rw [resolveScopePath_data hmeets]
          refine iff_of_true ?_ (.inl rfl)
          cases scope.dataAt path with
          | none => rfl
          | some value => rfl
        | true =>
          obtain ⟨hnone, hfound⟩ := resolveScopePath_inherits hmeets
          rw [hnone]
          rw [FoundOff] at hfound
          split at hfound
          · next hnull =>
            rw [hfound]
            exact iff_of_true rfl (.inr ⟨rfl, hnull⟩)
          · next hnull =>
            have hneither : ¬ (true = false ∨ true = true ∧ scope.meetsNull path = true) := by
              rintro (h | ⟨-, h⟩)
              · cases h
              · exact hnull h
            obtain ⟨value, hvalue, rfl | ⟨name, rfl⟩⟩ := hfound
            · rw [hvalue]
              exact iff_of_false (by intro h; cases h) hneither
            · rw [hvalue]
              exact iff_of_false (by intro h; cases h) hneither

theorem member_iff {key : JsString} {entry : JsonValue} {record : JsonRecord}
    (hkey : key ∉ record.map Prod.fst) :
    RecordRendersAs F scope ((key, entry) :: record) ↔
      (if key = protoName then meaning F scope entry = none else RendersAs F scope entry) ∧
        RecordRendersAs F scope record := by
  have hmeant (value : JsonValue) : (key, value) ∉ meaningRecord F scope record := fun h =>
    hkey (key_of_mem_roundTripMembers F scope h)
  have hrendered {members : JsonRecord} (value : JsonValue)
      (h : membersToJson? (renderTemplateRecord F scope record) = some members) :
      (key, value) ∉ members := fun hmem => hkey (key_of_mem_membersToJson? F scope h hmem)
  have hmeaning : meaningRecord F scope ((key, entry) :: record) =
      match meaning F scope entry with
      | some value => (key, value) :: meaningRecord F scope record
      | none => meaningRecord F scope record := rfl
  rw [RecordRendersAs, RecordRendersAs, renderTemplateRecord, hmeaning]
  by_cases hproto : key = protoName
  · have hassign : (match renderTemplateValue F scope entry with
        | some rendered => assign key rendered (renderTemplateRecord F scope record)
        | none => renderTemplateRecord F scope record) = renderTemplateRecord F scope record := by
      cases renderTemplateValue F scope entry with
      | none => rfl
      | some rendered => exact if_pos hproto
    rw [hassign, if_pos hproto]
    cases meaning F scope entry with
    | none => exact ⟨fun h => ⟨rfl, h⟩, And.right⟩
    | some value =>
      refine iff_of_false (fun h => ?_) (fun h => nomatch h.1)
      exact hrendered value h List.mem_cons_self
  · rw [if_neg hproto, RendersAs]
    cases renderTemplateValue F scope entry with
    | none =>
      cases meaning F scope entry with
      | none => exact ⟨fun h => ⟨rfl, h⟩, And.right⟩
      | some value =>
        refine iff_of_false (fun h => ?_) (fun h => nomatch h.1)
        exact hrendered value h List.mem_cons_self
    | some rendered =>
      dsimp only
      rw [assign, if_neg hproto]
      show (rendered.toJson?.bind fun value =>
        (membersToJson? (renderTemplateRecord F scope record)).bind fun members =>
          some ((key, value) :: members)) = _ ↔ some rendered.toJson? = _ ∧ _
      cases meaning F scope entry with
      | none =>
        refine iff_of_false (fun h => ?_) (fun h => nomatch h.1)
        obtain ⟨value, -, h⟩ := Option.bind_eq_some_iff.mp h
        obtain ⟨members, -, h⟩ := Option.bind_eq_some_iff.mp h
        have hmem : (key, value) ∈ (key, value) :: members := List.mem_cons_self
        rw [Option.some.inj h] at hmem
        exact hmeant value hmem
      | some value =>
        constructor
        · intro h
          obtain ⟨value', hvalue, h⟩ := Option.bind_eq_some_iff.mp h
          obtain ⟨members, hmembers, h⟩ := Option.bind_eq_some_iff.mp h
          obtain ⟨heq, rfl⟩ := List.cons.inj (Option.some.inj h)
          cases heq
          exact ⟨congrArg some hvalue, hmembers⟩
        · rintro ⟨hvalue, hmembers⟩
          rw [Option.some.inj hvalue, hmembers]
          rfl

mutual

theorem renders_iff : (template : JsonValue) → template.KeysOnce →
    (RendersAs F scope template ↔ Plain F scope template)
  | .null, _ => iff_of_true rfl trivial
  | .bool _, _ => iff_of_true rfl trivial
  | .num _, _ => iff_of_true rfl trivial
  | .str _, _ => iff_of_true rfl trivial
  | .arr items, h => by
    rw [RendersAs, renderTemplateValue, meaning, substitute, Plain, ← items_iff items h]
    show some ((itemsToJson? (renderItems F scope items)).map Value.arr) =
      some (some (Value.arr (roundTripItems (substituteItems F scope items)))) ↔ _
    rw [Option.some.injEq]
    cases itemsToJson? (renderItems F scope items) with
    | none => exact iff_of_false nofun nofun
    | some items' => rw [Option.map_some, Option.some.injEq, Value.arr.injEq, Option.some.injEq]
  | .obj members, h => by
    rw [Plain]
    cases htag : tag? members with
    | none =>
      rw [renders_node F scope htag]
      exact members_iff members h.1 h.2
    | some tag =>
      cases tag with
      | ref path => exact renders_ref F scope htag
      | tpl text => exact renders_tpl F scope htag

theorem items_iff : (items : List JsonValue) → KeysOnceItems items →
    (itemsToJson? (renderItems F scope items) =
      some (roundTripItems (substituteItems F scope items)) ↔ PlainItems F scope items)
  | [], _ => iff_of_true rfl trivial
  | item :: items, h => by
    rw [PlainItems, ← renders_iff item h.1, ← items_iff items h.2, ← slot_iff F scope item]
    show ((Rendered.toJson? (Option.getD _ _)).bind fun value =>
      (itemsToJson? (renderItems F scope items)).bind fun values => some (value :: values)) =
        some ((meaning F scope item).getD .null :: _) ↔ _
    constructor
    · intro h
      obtain ⟨value, hvalue, h⟩ := Option.bind_eq_some_iff.mp h
      obtain ⟨values, hvalues, h⟩ := Option.bind_eq_some_iff.mp h
      obtain ⟨rfl, rfl⟩ := List.cons.inj (Option.some.inj h)
      exact ⟨hvalue, hvalues⟩
    · rintro ⟨hvalue, hvalues⟩
      rw [hvalue, hvalues]
      rfl

theorem members_iff : (record : JsonRecord) → OrderedMap.UniqueKeys record →
    KeysOnceMembers record → (RecordRendersAs F scope record ↔ PlainMembers F scope record)
  | [], _, _ => iff_of_true rfl trivial
  | (key, entry) :: record, hunique, h => by
    obtain ⟨hkey, hunique⟩ := List.nodup_cons.mp hunique
    rw [PlainMembers, member_iff F scope hkey, renders_iff entry h.1,
      members_iff record hunique h.2]

end

end Renders

end InvisibleString.Shared
