import InvisibleString.Compiler.Approval
import InvisibleString.Compiler.Types
import InvisibleString.Lib.Checks
import InvisibleString.Lib.Transition
import InvisibleString.Runtime.EnvNames

/- # `Connections.Siblings` — the connections of one scope under concurrent requests

`createConnection` and `updateConnection` read the scope's names, or the row, decide on what
they have read and write later.  The database refuses an exact name that is taken; slugs and
the two tool lists it knows nothing of.

The compiler refuses connections of one agent whose names give one slug, and a connection
with both a tool allow list and a block list.

**Proved here.**

    a name is found free exactly when no sibling has its slug  (`assertNameAndSlugFree_ok`)
    connections with different slugs and one list at most are not refused for either
                                                                        (`publish_of_sound`)
    every state of a run has such connections exactly when every write finds the slug and the
      lists as its request has read them  (`connections_sound_iff`)
    two creates of different names with one slug, and two updates that set one list each, break
      it  (`creates_clash`)
-/

namespace InvisibleString.Connections

open Checks Json Transition
open Compiler (CompileIssue ToolFilterSpec)
open InvisibleString.Runtime (CaseMapping asciiCase slugifyName)

/-! ## Rows -/

/-- The columns the checks are about. -/
structure ConnectionRow where
  id : JsString
  name : JsString
  toolAllow : Option (List JsString)
  toolBlock : Option (List JsString)
  deriving DecidableEq

/-- A list that filters. -/
def filters (tools : Option (List JsString)) : Bool := tools.any fun tools => tools ≠ []

def filterConflict (allow block : Option (List JsString)) : Bool := filters allow && filters block

/-- A `PATCH`: a field left out keeps its column, `null` clears a list. -/
structure ConnectionUpdate where
  name : Option JsString
  toolAllow : Option (Option (List JsString))
  toolBlock : Option (Option (List JsString))

def ConnectionUpdate.apply (input : ConnectionUpdate) (row : ConnectionRow) : ConnectionRow :=
  { row with
    name := input.name.getD row.name
    toolAllow := input.toolAllow.getD row.toolAllow
    toolBlock := input.toolBlock.getD row.toolBlock }

/-- `UPDATE … WHERE id`. -/
def ConnectionUpdate.patch (input : ConnectionUpdate) (id : JsString) (row : ConnectionRow) :
    ConnectionRow :=
  if row.id = id then input.apply row else row

inductive ConnectionError where
  | notFound
  | duplicateConnectionName (name : JsString)
  | duplicateConnectionSlug (name clashingName : JsString)
  | toolFilterConflict
  /-- the unique index on the scope's names -/
  | uniqueViolation
  /-- whatever else refuses a request: its schema, a recipe, a statement that throws -/
  | other

/-- The message of an error of the checks. -/
def ConnectionError.message : ConnectionError → Option JsString
  | .duplicateConnectionName name =>
    some (ascii "a connection named \"" ++ name ++ ascii "\" already exists in this scope")
  | .duplicateConnectionSlug name clashingName =>
    some (ascii "connection name \"" ++ name ++ ascii "\" collides with existing connection \"" ++
      clashingName ++ ascii "\" " ++ [0x2014] ++
      ascii " both produce the same identifier; pick a more distinct name")
  | .toolFilterConflict =>
    some (ascii "set a tool allowlist OR a blocklist on a connection, not both")
  | .notFound | .uniqueViolation | .other => none

/-! ## The compiler's view -/

inductive ConnectionProblem where
  | emptySlug (name : JsString)
  | slugClash (clash name slug : JsString)
  | filterConflict (name : JsString)

def ConnectionProblem.issue : ConnectionProblem → CompileIssue
  | .emptySlug name =>
    ⟨ascii "connections." ++ name,
      ascii "connection name \"" ++ name ++ ascii "\" produces an empty slug"⟩
  | .slugClash clash name slug =>
    ⟨ascii "connections." ++ name,
      ascii "connections \"" ++ clash ++ ascii "\" and \"" ++ name ++
        ascii "\" both slugify to \"" ++ slug ++ ascii "\" " ++ [0x2014] ++ ascii " rename one"⟩
  | .filterConflict name =>
    ⟨ascii "connections." ++ name ++ ascii ".tools",
      ascii "a connection may set a tool allowlist OR a blocklist, not both"⟩

variable (U : CaseMapping)

/-- The slugs of an agent's connections; `bySlug` are those taken so far. -/
def slugsFrom (bySlug : List (JsString × ConnectionRow)) :
    List ConnectionRow → List ConnectionProblem × List (ConnectionRow × JsString)
  | [] => ([], [])
  | row :: rest =>
    let slug := slugifyName U row.name
    if slug = [] then
      let (problems, slugs) := slugsFrom bySlug rest
      (.emptySlug row.name :: problems, slugs)
    else match OrderedMap.get? slug bySlug with
      | some clash =>
        let (problems, slugs) := slugsFrom bySlug rest
        (.slugClash clash.name row.name slug :: problems, slugs)
      | none =>
        let (problems, slugs) := slugsFrom (OrderedMap.set slug row bySlug) rest
        (problems, (row, slug) :: slugs)

def uniqueSlugs (rows : List ConnectionRow) :
    Except (List ConnectionProblem) (List (ConnectionRow × JsString)) :=
  let (problems, slugs) := slugsFrom U [] rows
  if problems.isEmpty then .ok slugs else .error problems

def toolFilterFrom (connection : ConnectionRow) :
    Except (List ConnectionProblem) (Option ToolFilterSpec) :=
  if filterConflict connection.toolAllow connection.toolBlock then
    .error [.filterConflict connection.name]
  else if filters connection.toolAllow then .ok (some ⟨connection.toolAllow, none⟩)
  else if filters connection.toolBlock then .ok (some ⟨none, connection.toolBlock⟩)
  else .ok none

def resolveConnection (entry : ConnectionRow × JsString) :
    Except (List ConnectionProblem) (JsString × Option ToolFilterSpec) := do
  return (entry.2, ← toolFilterFrom entry.1)

/-- What a publish makes of the connections' names and lists. -/
def resolveConnections (rows : List ConnectionRow) :
    Except (List ConnectionProblem) (List (JsString × Option ToolFilterSpec)) := do
  (← uniqueSlugs U rows).mapM resolveConnection

/-! ## The checks of the requests -/

/-- `siblings` are the ids and names of the scope. -/
def assertNameAndSlugFree (name : JsString) (excludeId : Option JsString) :
    List (JsString × JsString) → Except ConnectionError Unit
  | [] => .ok ()
  | (id, sibling) :: rest =>
    if excludeId = some id then assertNameAndSlugFree name excludeId rest
    else if sibling = name then .error (.duplicateConnectionName name)
    else if slugifyName U sibling = slugifyName U name then
      .error (.duplicateConnectionSlug name sibling)
    else assertNameAndSlugFree name excludeId rest

/-- How far a request is. -/
inductive ConnectionRequest where
  | idle
  /-- a create before it reads the scope's names -/
  | creating (id name : JsString)
  | insertable (id name : JsString) (siblings : List (JsString × JsString))
  | loading (id : JsString) (input : ConnectionUpdate)
  /-- a rename before it reads the scope's names -/
  | renames (id name : JsString) (input : ConnectionUpdate) (existing : ConnectionRow)
  /-- `siblings` are none where the name is not changed -/
  | writable (id : JsString) (input : ConnectionUpdate) (existing : ConnectionRow)
      (siblings : List (JsString × JsString))
  | done (answer : Except ConnectionError Unit)

/-- `updateConnection` from the row it loads to its next `await`. -/
def afterLoad (id : JsString) (input : ConnectionUpdate) :
    Option ConnectionRow → ConnectionRequest
  | none => .done (.error .notFound)
  | some existing =>
    if filterConflict (input.toolAllow.getD existing.toolAllow)
        (input.toolBlock.getD existing.toolBlock) then
      .done (.error .toolFilterConflict)
    else match input.name with
      | some name =>
        if name ≠ existing.name then .renames id name input existing
        else .writable id input existing []
      | none => .writable id input existing []

def afterSiblings (siblings : List (JsString × JsString)) : ConnectionRequest → ConnectionRequest
  | .creating id name =>
    match assertNameAndSlugFree U name none siblings with
    | .ok _ => .insertable id name siblings
    | .error error => .done (.error error)
  | .renames id name input existing =>
    match assertNameAndSlugFree U name (some id) siblings with
    | .ok _ => .writable id input existing siblings
    | .error error => .done (.error error)
  | request => request

/-- The request reads the scope's names next. -/
def ConnectionRequest.isNaming : ConnectionRequest → Bool
  | .creating _ _ | .renames _ _ _ _ => true
  | .idle | .insertable _ _ _ | .loading _ _ | .writable _ _ _ _ | .done _ => false

/-! ## Requests side by side -/

structure ScopeState where
  rows : List ConnectionRow
  requests : Nat → ConnectionRequest

def ScopeState.empty : ScopeState where
  rows := []
  requests _ := .idle

def ScopeState.setRequest (s : ScopeState) (p : Nat) (request : ConnectionRequest) : ScopeState :=
  { s with requests := Function.update s.requests p request }

def ScopeState.names (s : ScopeState) : List (JsString × JsString) :=
  s.rows.map fun row => (row.id, row.name)

inductive ScopeEvent where
  | create (p : Nat) (id name : JsString)
  | update (p : Nat) (id : JsString) (input : ConnectionUpdate)
  | load (p : Nat)
  | readNames (p : Nat)
  | write (p : Nat)
  | refuse (p : Nat) (error : ConnectionError)
  | delete (id : JsString)

/-- One statement of a request.

    insert, patch     the unique index lets them pass: no other row has the exact name
    refuse            the unique index does not, or anything else throws
    ids are drawn at random -/
inductive ScopeStep : ScopeState → ScopeEvent → ScopeState → Prop
  | create {s} (p) (id) (name) : s.requests p = .idle →
      ScopeStep s (.create p id name) (s.setRequest p (.creating id name))
  | update {s} (p) (id) (input) : s.requests p = .idle →
      ScopeStep s (.update p id input) (s.setRequest p (.loading id input))
  | load {s} (p) {id input} : s.requests p = .loading id input →
      ScopeStep s (.load p)
        (s.setRequest p (afterLoad id input (s.rows.find? fun row => row.id = id)))
  | readNames {s} (p) : (s.requests p).isNaming = true →
      ScopeStep s (.readNames p) (s.setRequest p (afterSiblings U s.names (s.requests p)))
  | insert {s} (p) {id name siblings} : s.requests p = .insertable id name siblings →
      (∀ row ∈ s.rows, row.id ≠ id ∧ row.name ≠ name) →
      ScopeStep s (.write p)
        { s.setRequest p (.done (.ok ())) with rows := s.rows ++ [⟨id, name, none, none⟩] }
  | patch {s} (p) {id input existing siblings} :
      s.requests p = .writable id input existing siblings →
      (∀ name, input.name = some name → ∀ row ∈ s.rows, row.id ≠ id → row.name ≠ name) →
      ScopeStep s (.write p)
        { s.setRequest p (.done (.ok ())) with
          rows := s.rows.map (input.patch id) }
  | refuse {s} (p) (error) : ScopeStep s (.refuse p error) (s.setRequest p (.done (.error error)))
  | delete {s} (id) :
      ScopeStep s (.delete id) { s with rows := s.rows.filter fun row => row.id ≠ id }

def DifferentSlugs (row row' : ConnectionRow) : Prop :=
  slugifyName U row.name ≠ slugifyName U row'.name

instance : Std.Symm (DifferentSlugs U) := ⟨fun _ _ h => Ne.symm h⟩

/-- Connections of the scope have different slugs, none has both lists, and a publish of any of
them is refused for neither. -/
structure ScopeSound (rows : List ConnectionRow) : Prop where
  slugs : rows.Pairwise (DifferentSlugs U)
  lists : ∀ row ∈ rows, filterConflict row.toolAllow row.toolBlock = false
  publishes : ∀ used : List ConnectionRow, used.Nodup → (∀ row ∈ used, row ∈ rows) →
    ∀ problems, resolveConnections U used = .error problems →
      ∀ problem ∈ problems, ∃ name, problem = .emptySlug name

/-- The write of a name finds no other connection that took its slug after the request looked. -/
def NameStillFree (rows : List ConnectionRow) (id name : JsString)
    (siblings : List (JsString × JsString)) : Prop :=
  ∀ row ∈ rows, row.id ≠ id → slugifyName U row.name = slugifyName U name →
    (row.id, row.name) ∈ siblings

/-- The write of one list finds the other one, which it leaves as it is, as empty as the request
has read it. -/
def ListsAsRead (input : ConnectionUpdate) (existing row : ConnectionRow) : Prop :=
  (filters (input.toolAllow.getD none) = true → input.toolBlock = none →
    filters row.toolBlock = true → filters existing.toolBlock = true) ∧
  (filters (input.toolBlock.getD none) = true → input.toolAllow = none →
    filters row.toolAllow = true → filters existing.toolAllow = true)

/-- Every write finds what its request has read. -/
def FindsAsRead (m : Move ScopeState ScopeEvent) : Prop :=
  ∀ p, m.event = .write p →
    (∀ id name siblings, m.before.requests p = .insertable id name siblings →
      NameStillFree U m.before.rows id name siblings) ∧
    ∀ id input existing siblings, m.before.requests p = .writable id input existing siblings →
      ∀ row ∈ m.before.rows, row.id = id → ListsAsRead input existing row ∧
        ∀ name, input.name = some name → NameStillFree U m.before.rows id name siblings

/-! ## Publishing -/

variable {U}

theorem assertNameAndSlugFree_ok {name : JsString} {excludeId : Option JsString}
    {siblings : List (JsString × JsString)} :
    assertNameAndSlugFree U name excludeId siblings = .ok () ↔
      ∀ sibling ∈ siblings, excludeId ≠ some sibling.1 →
        slugifyName U sibling.2 ≠ slugifyName U name := by
  induction siblings with
  | nil => exact ⟨fun _ _ h => absurd h List.not_mem_nil, fun _ => rfl⟩
  | cons sibling rest ih =>
    rcases sibling with ⟨id, sibling⟩
    rw [assertNameAndSlugFree, List.forall_mem_cons]
    split
    · next hid => rw [ih, and_iff_right (fun hne => absurd hid hne)]
    next hid =>
      split
      · next heq =>
        constructor
        · exact fun h => by cases h
        · exact fun h => absurd (congrArg _ heq) (h.1 hid)
      split
      · next hslug =>
        constructor
        · exact fun h => by cases h
        · exact fun h => absurd hslug (h.1 hid)
      next hslug => rw [ih, and_iff_right (fun _ => hslug)]

/-- Different slugs raise no clash, whatever the order. -/
theorem slugsFrom_spec {rows : List ConnectionRow} {bySlug : List (JsString × ConnectionRow)}
    (hslugs : rows.Pairwise (DifferentSlugs U))
    (hfree : ∀ row ∈ rows, OrderedMap.get? (slugifyName U row.name) bySlug = none) :
    (∀ problem ∈ (slugsFrom U bySlug rows).1, ∃ name, problem = .emptySlug name) ∧
      ∀ entry ∈ (slugsFrom U bySlug rows).2, entry.1 ∈ rows := by
  induction rows generalizing bySlug with
  | nil => exact ⟨fun _ h => absurd h List.not_mem_nil, fun _ h => absurd h List.not_mem_nil⟩
  | cons row rest ih =>
    obtain ⟨hrow, hrest⟩ := List.pairwise_cons.mp hslugs
    rw [List.forall_mem_cons] at hfree
    simp only [slugsFrom, hfree.1]
    split
    · obtain ⟨hproblems, hentries⟩ := ih hrest hfree.2
      refine ⟨?_, fun entry hentry => List.mem_cons_of_mem _ (hentries entry hentry)⟩
      exact List.forall_mem_cons.mpr ⟨⟨row.name, rfl⟩, hproblems⟩
    · have hfree' : ∀ row' ∈ rest, OrderedMap.get? (slugifyName U row'.name)
          (OrderedMap.set (slugifyName U row.name) row bySlug) = none := by
        intro row' hrow'
        rw [OrderedMap.get?_set, if_neg (Ne.symm (hrow row' hrow'))]
        exact hfree.2 row' hrow'
      obtain ⟨hproblems, hentries⟩ := ih hrest hfree'
      refine ⟨hproblems, List.forall_mem_cons.mpr ⟨List.mem_cons_self, fun entry hentry => ?_⟩⟩
      exact List.mem_cons_of_mem _ (hentries entry hentry)

theorem toolFilterFrom_ok {row : ConnectionRow}
    (h : filterConflict row.toolAllow row.toolBlock = false) :
    ∃ spec, toolFilterFrom row = .ok spec := by
  rw [toolFilterFrom, h, if_neg Bool.false_ne_true]
  split
  · exact ⟨_, rfl⟩
  split
  · exact ⟨_, rfl⟩
  · exact ⟨_, rfl⟩

/-- A publish of connections with different slugs and one list at most is refused for empty slugs
only. -/
theorem publish_of_sound {rows : List ConnectionRow}
    (hslugs : rows.Pairwise (DifferentSlugs U))
    (hlists : ∀ row ∈ rows, filterConflict row.toolAllow row.toolBlock = false)
    {used : List ConnectionRow} (hnodup : used.Nodup) (hused : ∀ row ∈ used, row ∈ rows)
    {problems : List ConnectionProblem} (h : resolveConnections U used = .error problems) :
    ∀ problem ∈ problems, ∃ name, problem = .emptySlug name := by
  have hdifferent : used.Pairwise (DifferentSlugs U) :=
    hnodup.imp_of_mem fun hrow hrow' hne => hslugs.forall (hused _ hrow) (hused _ hrow') hne
  obtain ⟨hproblems, hentries⟩ :=
    slugsFrom_spec hdifferent fun _ _ => (rfl : OrderedMap.get? _ [] = none)
  by_cases hnone : (slugsFrom U [] used).1.isEmpty = true
  · have hslugs : uniqueSlugs U used = .ok (slugsFrom U [] used).2 := if_pos hnone
    rw [resolveConnections, bind_of_eq_ok hslugs] at h
    have hall : ∀ entry ∈ (slugsFrom U [] used).2, ∃ resolved,
        resolveConnection entry = .ok resolved := by
      intro entry hentry
      obtain ⟨spec, hspec⟩ := toolFilterFrom_ok (hlists _ (hused _ (hentries entry hentry)))
      exact ⟨(entry.2, spec), bind_of_eq_ok hspec⟩
    obtain ⟨resolved, hresolved⟩ := mapM_ok_of_forall hall
    rw [hresolved] at h
    cases h
  · have hslugs : uniqueSlugs U used = .error (slugsFrom U [] used).1 := if_neg hnone
    rw [resolveConnections, hslugs] at h
    cases h
    exact hproblems

theorem ScopeSound.of {rows : List ConnectionRow}
    (hslugs : rows.Pairwise (DifferentSlugs U))
    (hlists : ∀ row ∈ rows, filterConflict row.toolAllow row.toolBlock = false) :
    ScopeSound U rows :=
  ⟨hslugs, hlists, fun _ hnodup hused _ h => publish_of_sound hslugs hlists hnodup hused h⟩

/-! ## The invariant -/

/-- What a request has decided on: its name was free and its lists did not conflict. -/
def ConnectionRequest.Ok (U : CaseMapping) : ConnectionRequest → Prop
  | .insertable _ name siblings =>
    ∀ sibling ∈ siblings, slugifyName U sibling.2 ≠ slugifyName U name
  | .renames _ name input existing => input.name = some name ∧
      filterConflict (input.toolAllow.getD existing.toolAllow)
        (input.toolBlock.getD existing.toolBlock) = false
  | .writable id input existing siblings =>
    filterConflict (input.toolAllow.getD existing.toolAllow)
        (input.toolBlock.getD existing.toolBlock) = false ∧
      ∀ name, input.name = some name → ∀ sibling ∈ siblings, sibling.1 ≠ id →
        slugifyName U sibling.2 ≠ slugifyName U name
  | .idle | .creating _ _ | .loading _ _ | .done _ => True

theorem ok_afterLoad (id : JsString) (input : ConnectionUpdate) (row : Option ConnectionRow) :
    (afterLoad id input row).Ok U := by
  cases row with
  | none => trivial
  | some existing =>
    rw [afterLoad]
    split
    · trivial
    next hconflict =>
      have hfree := Bool.eq_false_iff.mpr hconflict
      split
      · next name hname =>
        split
        · exact ⟨hname, hfree⟩
        · exact ⟨hfree, fun _ _ _ h => absurd h List.not_mem_nil⟩
      · exact ⟨hfree, fun _ _ _ h => absurd h List.not_mem_nil⟩

theorem ok_afterSiblings (siblings : List (JsString × JsString)) {request : ConnectionRequest}
    (h : request.Ok U) : (afterSiblings U siblings request).Ok U := by
  cases request with
  | creating id name =>
    rw [afterSiblings]
    split
    · next hfree =>
      exact fun sibling hsibling =>
        assertNameAndSlugFree_ok.mp hfree sibling hsibling fun heq => by cases heq
    · trivial
  | renames id name input existing =>
    rw [afterSiblings]
    split
    · next hfree =>
      refine ⟨h.2, fun name' hname' sibling hsibling hid => ?_⟩
      rw [Option.some.inj (hname'.symm.trans h.1)]
      refine assertNameAndSlugFree_ok.mp hfree sibling hsibling fun heq => ?_
      exact hid (Option.some.inj heq).symm
    · trivial
  | idle | insertable | loading | writable | done => exact h

structure ScopeInv (U : CaseMapping) (s : ScopeState) : Prop where
  sound : ScopeSound U s.rows
  ids : s.rows.Pairwise fun row row' => row.id ≠ row'.id
  each : ∀ p, (s.requests p).Ok U

variable {s s' : ScopeState}

theorem ScopeInv.empty : ScopeInv U .empty :=
  ⟨.of .nil fun _ h => absurd h List.not_mem_nil, .nil, fun _ => trivial⟩

theorem ScopeInv.moved (h : ScopeInv U s) {p : Nat} {request : ConnectionRequest}
    (hok : request.Ok U) : ScopeInv U (s.setRequest p request) where
  sound := h.sound
  ids := h.ids
  each := (Function.forall_update_iff s.requests fun _ request => request.Ok U).mpr
    ⟨hok, fun q _ => h.each q⟩

/-- An insert keeps the scope sound exactly when the name's slug is still free. -/
theorem sound_insert_iff {rows : List ConnectionRow} (h : ScopeSound U rows) {id name : JsString}
    {siblings : List (JsString × JsString)}
    (hok : ∀ sibling ∈ siblings, slugifyName U sibling.2 ≠ slugifyName U name)
    (hid : ∀ row ∈ rows, row.id ≠ id) :
    ScopeSound U (rows ++ [⟨id, name, none, none⟩]) ↔ NameStillFree U rows id name siblings := by
  constructor
  · intro hsound row hrow _ hslug
    have hpair := (List.pairwise_append.mp hsound.slugs).2.2 row hrow _ List.mem_cons_self
    exact absurd hslug hpair
  · intro hfree
    refine .of (List.pairwise_append.mpr ⟨h.slugs, List.pairwise_singleton _ _, ?_⟩) ?_
    · intro row hrow new hnew hslug
      rw [List.mem_singleton.mp hnew] at hslug
      exact hok _ (hfree row hrow (hid row hrow) hslug) hslug
    · intro row hrow
      rcases List.mem_append.mp hrow with hrow | hrow
      · exact h.lists row hrow
      · rw [List.mem_singleton.mp hrow]
        rfl

/-- The two lists of a row after a patch conflict exactly when the one that is left as it is has
begun to filter since the request read it. -/
theorem conflict_apply_iff {input : ConnectionUpdate} {existing row : ConnectionRow}
    (hok : filterConflict (input.toolAllow.getD existing.toolAllow)
      (input.toolBlock.getD existing.toolBlock) = false)
    (hrow : filterConflict row.toolAllow row.toolBlock = false) :
    filterConflict (input.apply row).toolAllow (input.apply row).toolBlock = false ↔
      ListsAsRead input existing row := by
  rcases input with ⟨name, allow, block⟩
  cases allow with
  | none =>
    cases block with
    | none => exact ⟨fun _ => ⟨nofun, nofun⟩, fun _ => hrow⟩
    | some block =>
      simp only [ConnectionUpdate.apply, ListsAsRead, filterConflict, Option.getD_none,
        Option.getD_some, Bool.and_eq_false_iff] at hok ⊢
      cases hblock : filters block <;> cases hallow : filters row.toolAllow <;>
        cases hread : filters existing.toolAllow <;> simp_all [filters]
  | some allow =>
    cases block with
    | none =>
      simp only [ConnectionUpdate.apply, ListsAsRead, filterConflict, Option.getD_none,
        Option.getD_some, Bool.and_eq_false_iff] at hok ⊢
      cases hallow : filters allow <;> cases hblock : filters row.toolBlock <;>
        cases hread : filters existing.toolBlock <;> simp_all [filters]
    | some block => exact ⟨fun _ => ⟨nofun, nofun⟩, fun _ => hok⟩

theorem patch_id (input : ConnectionUpdate) (id : JsString) (row : ConnectionRow) :
    (input.patch id row).id = row.id := by
  rw [ConnectionUpdate.patch]
  split
  · rfl
  · rfl

/-- A patch keeps the scope sound exactly when the slug of its name is still free and the list it
leaves as it is does not filter anew. -/
theorem sound_patch_iff {rows : List ConnectionRow} (h : ScopeSound U rows)
    (hids : rows.Pairwise fun row row' => row.id ≠ row'.id) {id : JsString}
    {input : ConnectionUpdate} {existing : ConnectionRow} {siblings : List (JsString × JsString)}
    (hok : (ConnectionRequest.writable id input existing siblings).Ok U) :
    ScopeSound U (rows.map (input.patch id)) ↔ ∀ row ∈ rows, row.id = id →
      ListsAsRead input existing row ∧
        ∀ name, input.name = some name → NameStillFree U rows id name siblings := by
  constructor
  · intro hsound row hrow hid
    have hpatch : input.patch id row = input.apply row := if_pos hid
    have hmem : input.apply row ∈ rows.map (input.patch id) := by
      rw [← hpatch]
      exact List.mem_map_of_mem hrow
    refine ⟨(conflict_apply_iff hok.1 (h.lists row hrow)).mp (hsound.lists _ hmem), ?_⟩
    intro name hname row' hrow' hid' hslug
    have hother : input.patch id row' = row' := if_neg hid'
    have hmem' : row' ∈ rows.map (input.patch id) := by
      rw [← hother]
      exact List.mem_map_of_mem hrow'
    have hne : row' ≠ input.apply row := fun heq => hid' (heq ▸ hid)
    have hpair : slugifyName U row'.name ≠ slugifyName U (input.apply row).name :=
      hsound.slugs.forall hmem' hmem hne
    rw [ConnectionUpdate.apply, hname] at hpair
    exact absurd hslug hpair
  · intro hread
    -- the patched row against any other one
    have hfree : ∀ row ∈ rows, ∀ row' ∈ rows, row.id = id → row'.id ≠ id →
        slugifyName U row.name ≠ slugifyName U row'.name →
        slugifyName U (input.apply row).name ≠ slugifyName U row'.name := by
      intro row hrow row' hrow' hid hid' hne
      cases hname : input.name with
      | none =>
        rw [ConnectionUpdate.apply, hname]
        exact hne
      | some name =>
        rw [ConnectionUpdate.apply, hname]
        intro hslug
        have hsibling := (hread row hrow hid).2 name hname row' hrow' hid' hslug.symm
        exact hok.2 name hname _ hsibling hid' hslug.symm
    refine .of (List.pairwise_map.mpr ?_) ?_
    · refine (h.slugs.and hids).imp_of_mem fun {row row'} hrow hrow' hpair => ?_
      obtain ⟨hslug, hne⟩ := hpair
      by_cases hid : row.id = id <;> by_cases hid' : row'.id = id
      · exact absurd (hid.trans hid'.symm) hne
      · rw [ConnectionUpdate.patch, ConnectionUpdate.patch, if_pos hid, if_neg hid']
        exact hfree row hrow row' hrow' hid hid' hslug
      · rw [ConnectionUpdate.patch, ConnectionUpdate.patch, if_neg hid, if_pos hid']
        exact Ne.symm (hfree row' hrow' row hrow hid' hid (Ne.symm hslug))
      · rw [ConnectionUpdate.patch, ConnectionUpdate.patch, if_neg hid, if_neg hid']
        exact hslug
    · intro row' hrow'
      obtain ⟨row, hrow, rfl⟩ := List.mem_map.mp hrow'
      rw [ConnectionUpdate.patch]
      split
      · next hid => exact (conflict_apply_iff hok.1 (h.lists row hrow)).mpr (hread row hrow hid).1
      · exact h.lists row hrow

/-! ## Runs -/

theorem ScopeSound.sublist {rows rows' : List ConnectionRow} (h : ScopeSound U rows)
    (hsub : rows'.Sublist rows) : ScopeSound U rows' :=
  .of (h.slugs.sublist hsub) fun row hrow => h.lists row (hsub.subset hrow)

theorem sound_iff_of_not_write {e : ScopeEvent} (hsound : ScopeSound U s'.rows)
    (he : ∀ p, e ≠ .write p) : ScopeSound U s'.rows ↔ FindsAsRead U ⟨s, e, s'⟩ :=
  ⟨fun _ p hp => absurd hp (he p), fun _ => hsound⟩

/-- In a sound scope a step keeps it so exactly when a write finds what its request has read; ids
and decisions stay in order anyway. -/
theorem ScopeInv.step {e : ScopeEvent} (h : ScopeInv U s) (hstep : ScopeStep U s e s') :
    (ScopeSound U s'.rows ↔ FindsAsRead U ⟨s, e, s'⟩) ∧
      s'.rows.Pairwise (fun row row' => row.id ≠ row'.id) ∧ ∀ p, (s'.requests p).Ok U := by
  have hdone : (ConnectionRequest.done (.ok ())).Ok U := trivial
  cases hstep with
  | create p id name _ =>
    exact ⟨sound_iff_of_not_write h.sound (fun _ he => by cases he), h.ids,
      (h.moved (show (ConnectionRequest.creating id name).Ok U from trivial)).each⟩
  | update p id input _ =>
    exact ⟨sound_iff_of_not_write h.sound (fun _ he => by cases he), h.ids,
      (h.moved (show (ConnectionRequest.loading id input).Ok U from trivial)).each⟩
  | refuse p error =>
    exact ⟨sound_iff_of_not_write h.sound (fun _ he => by cases he), h.ids,
      (h.moved (show (ConnectionRequest.done (.error error)).Ok U from trivial)).each⟩
  | @load p id input _ =>
    exact ⟨sound_iff_of_not_write h.sound (fun _ he => by cases he), h.ids,
      (h.moved (ok_afterLoad id input _)).each⟩
  | readNames p _ =>
    exact ⟨sound_iff_of_not_write h.sound (fun _ he => by cases he), h.ids,
      (h.moved (ok_afterSiblings _ (h.each p))).each⟩
  | @insert p id name siblings hp hfresh =>
    have hok := h.each p
    rw [hp] at hok
    refine ⟨?_, ?_, (h.moved (p := p) hdone).each⟩
    · rw [sound_insert_iff h.sound hok fun row hrow => (hfresh row hrow).1]
      constructor
      · intro hfree q hq
        cases hq
        refine ⟨fun id' name' siblings' hp' => ?_, fun id' input existing siblings' hp' => ?_⟩
        · change s.requests p = _ at hp'
          rw [hp] at hp'
          cases hp'
          exact hfree
        · change s.requests p = _ at hp'
          rw [hp] at hp'
          cases hp'
      · exact fun hread => (hread p rfl).1 id name siblings hp
    · refine List.pairwise_append.mpr ⟨h.ids, List.pairwise_singleton _ _, ?_⟩
      intro row hrow new hnew
      rw [List.mem_singleton.mp hnew]
      exact (hfresh row hrow).1
  | @patch p id input existing siblings hp _ =>
    have hok := h.each p
    rw [hp] at hok
    refine ⟨?_, ?_, (h.moved (p := p) hdone).each⟩
    · rw [sound_patch_iff h.sound h.ids hok]
      constructor
      · intro hread q hq
        cases hq
        refine ⟨fun id' name' siblings' hp' => ?_, fun id' input' existing' siblings' hp' => ?_⟩
        · change s.requests p = _ at hp'
          rw [hp] at hp'
          cases hp'
        · change s.requests p = _ at hp'
          rw [hp] at hp'
          cases hp'
          exact hread
      · exact fun hread => (hread p rfl).2 id input existing siblings hp
    · exact List.pairwise_map.mpr (h.ids.imp fun {row row'} hne => by rwa [patch_id, patch_id])
  | delete id =>
    exact ⟨sound_iff_of_not_write (h.sound.sublist List.filter_sublist) (fun _ he => by cases he),
      h.ids.sublist List.filter_sublist, h.each⟩

/-- In every run the scope is sound after every step exactly when every write finds what its
request has read. -/
theorem connections_sound_iff {moves : List (Move ScopeState ScopeEvent)}
    (h : Trace (ScopeStep U) .empty moves s) :
    (∀ m ∈ moves, ScopeSound U m.after.rows) ↔ ∀ m ∈ moves, FindsAsRead U m :=
  h.forall_iff (ScopeInv U) (fun _ => True) (fun _ hstep _ hinv => (hinv.step hstep).1)
    (fun _ hstep _ hinv hsound => ⟨hsound, (hinv.step hstep).2.1, (hinv.step hstep).2.2⟩)
    (fun _ _ => trivial) .empty

/-! ## Two requests at a time -/

/-- Two connections created one after the other. -/
theorem connections_sound_iff_creates : ∃ s moves, Trace (ScopeStep asciiCase) .empty moves s ∧
    s.rows.map ConnectionRow.name = [ascii "a", ascii "b"] ∧
      ((∀ m ∈ moves, ScopeSound asciiCase m.after.rows) ↔
        ∀ m ∈ moves, FindsAsRead asciiCase m) := by
  have h : Trace (ScopeStep asciiCase) .empty _ _ :=
    .cons (.create 0 (ascii "cn_0") (ascii "a") rfl) <| .cons (.readNames 0 rfl) <|
    .cons (.insert 0 rfl (by decide)) <|
    .cons (.create 1 (ascii "cn_1") (ascii "b") rfl) <| .cons (.readNames 1 rfl) <|
    .cons (.insert 1 rfl (by decide)) <| .nil _
  exact ⟨_, _, h, rfl, connections_sound_iff h⟩

/-- Two creates of `a b` and `a-b` that both read the names before either inserts; then one update
that sets the allow list and one that sets the block list, both having read neither. -/
theorem creates_clash :
    (∃ s moves, Trace (ScopeStep asciiCase) .empty moves s ∧
      ∃ row row', s.rows = [row, row'] ∧
        slugifyName asciiCase row.name = slugifyName asciiCase row'.name ∧
        ¬ ScopeSound asciiCase s.rows) ∧
    ∃ s moves, Trace (ScopeStep asciiCase) .empty moves s ∧
      ∃ row, s.rows = [row] ∧ filterConflict row.toolAllow row.toolBlock = true ∧
        ¬ ScopeSound asciiCase s.rows := by
  constructor
  · have h : Trace (ScopeStep asciiCase) .empty _ _ :=
      .cons (.create 0 (ascii "cn_0") (ascii "a b") rfl) <|
      .cons (.create 1 (ascii "cn_1") (ascii "a-b") rfl) <|
      .cons (.readNames 0 rfl) <| .cons (.readNames 1 rfl) <|
      .cons (.insert 0 rfl (by decide)) <| .cons (.insert 1 rfl (by decide)) <| .nil _
    refine ⟨_, _, h, _, _, rfl, by decide, fun hsound => ?_⟩
    exact List.rel_of_pairwise_cons hsound.slugs List.mem_cons_self (by decide)
  · have h : Trace (ScopeStep asciiCase) .empty _ _ :=
      .cons (.create 0 (ascii "cn_0") (ascii "a") rfl) <| .cons (.readNames 0 rfl) <|
      .cons (.insert 0 rfl (by decide)) <|
      .cons (.update 1 (ascii "cn_0") ⟨none, some (some [ascii "search"]), none⟩ rfl) <|
      .cons (.update 2 (ascii "cn_0") ⟨none, none, some (some [ascii "delete"])⟩ rfl) <|
      .cons (.load 1 rfl) <| .cons (.load 2 rfl) <|
      .cons (.patch 1 rfl (by decide)) <| .cons (.patch 2 rfl (by decide)) <| .nil _
    refine ⟨_, _, h, _, rfl, by decide, fun hsound => ?_⟩
    have hlists := hsound.lists _ List.mem_cons_self
    exact absurd hlists (by decide)

end InvisibleString.Connections
