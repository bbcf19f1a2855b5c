import InvisibleString.Runtime.AgentEnv

/- # `Runtime.Wiring` — edits of the connections between publish and dispatch

The names of a version's variables are baked into its modules at publish, from the names the
connections have then.  At every dispatch the variables are filled from the rows as they are
by then: a rename moves a connection's secrets to other variables, and another connection may
move in.

**Proved here.**

    an edit keeps every row decryptable, and a run of edits does  (`updateConnection_written`)
    a module reads no other connection's secret exactly when no other row has one behind a
      name that the module was published with  (`wiring_iff`)
-/

namespace InvisibleString.Runtime

open Json
open Checks (bind_eq_ok bind_of_eq_ok mapM_eq_ok mapM_bind_ok)

/-! ## Stored connections -/

inductive Scope where
  | workspace (organizationId : JsString)
  | user (userId : JsString)
  deriving DecidableEq

inductive ConnectionSource where
  | custom
  | catalog
  | registry
  deriving DecidableEq

/-- A row of the connections: what an edit checks, beside the auth. -/
structure StoredConnection extends ConnectionRow where
  scope : Scope
  source : ConnectionSource
  url : JsString
  transport : JsString
  toolAllow : Option (List JsString)
  toolBlock : Option (List JsString)
  enabled : Bool

/-- The body of an edit; `none` leaves a column as it is. -/
structure ConnectionPatch where
  name : Option JsString
  url : Option JsString
  transport : Option JsString
  toolAllow : Option (Option (List JsString))
  toolBlock : Option (Option (List JsString))
  enabled : Option Bool
  auth : Option McpAuthWrite

inductive ResourceError where
  | notFound
  | invalidBody (path : String) (source : ConnectionSource)
  | toolFilterConflict
  | duplicateConnectionName (name : JsString)
  | duplicateConnectionSlug (name sibling : JsString)
  | env (error : EnvError)

variable (U : CaseMapping)

def loadOwned (rows : List StoredConnection) (scope : Scope) (id : JsString) :
    Except ResourceError StoredConnection :=
  match rows.find? fun row => row.id = id ∧ row.scope = scope with
  | none => .error .notFound
  | some row => .ok row

/-- No other row of the scope has the name or its slug. -/
def assertNameAndSlugFree (name id : JsString) : List StoredConnection → Except ResourceError Unit
  | [] => .ok ()
  | sibling :: siblings =>
    if sibling.id = id then assertNameAndSlugFree name id siblings
    else if sibling.name = name then .error (.duplicateConnectionName name)
    else if slugifyName U sibling.name = slugifyName U name then
      .error (.duplicateConnectionSlug name sibling.name)
    else assertNameAndSlugFree name id siblings

def nonEmptyList (tools : Option (List JsString)) : Bool := tools.any fun l => !l.isEmpty

/-- A patch with its auth encrypted. -/
def applyPatch (patch : ConnectionPatch) (auth : Option (ConnectionAuthType × Option JsString))
    (row : StoredConnection) : StoredConnection :=
  { row with
    name := patch.name.getD row.name
    url := patch.url.getD row.url
    transport := patch.transport.getD row.transport
    toolAllow := patch.toolAllow.getD row.toolAllow
    toolBlock := patch.toolBlock.getD row.toolBlock
    enabled := patch.enabled.getD row.enabled
    authType := (auth.map Prod.fst).getD row.authType
    authConfigEncrypted := (auth.map Prod.snd).getD row.authConfigEncrypted }

/-- What an edit may not do, whatever the name. -/
def assertPatchAllowed (existing : StoredConnection) (patch : ConnectionPatch) :
    Except ResourceError Unit :=
  -- only custom connections may be pointed elsewhere
  if existing.source ≠ .custom ∧ (patch.url.isSome ∨ patch.transport.isSome) then
    .error (.invalidBody (if patch.url.isSome then "url" else "transport") existing.source)
  else if nonEmptyList (patch.toolAllow.getD existing.toolAllow) ∧
      nonEmptyList (patch.toolBlock.getD existing.toolBlock) then
    .error .toolFilterConflict
  else .ok ()

def assertRenameFree (rows : List StoredConnection) (scope : Scope) (existing : StoredConnection)
    (patch : ConnectionPatch) : Except ResourceError Unit :=
  match patch.name with
  | none => .ok ()
  | some name =>
    if name = existing.name then .ok ()
    else assertNameAndSlugFree U name existing.id (rows.filter fun row => row.scope = scope)

/-- The auth columns of a patch: left out keeps them, `none` clears, the others replace. -/
def patchAuth (vault : Option Vault) (id : JsString) (patch : ConnectionPatch) :
    Except ResourceError (Option (ConnectionAuthType × Option JsString)) :=
  match patch.auth with
  | none => .ok none
  | some auth =>
    match encryptConnectionAuthConfig vault auth id with
    | .error error => .error (.env error)
    | .ok envelope => .ok (some (authTypeOf auth, envelope))

def updateConnection (vault : Option Vault) (rows : List StoredConnection) (scope : Scope)
    (id : JsString) (patch : ConnectionPatch) : Except ResourceError (List StoredConnection) := do
  let existing ← loadOwned rows scope id
  assertPatchAllowed existing patch
  assertRenameFree U rows scope existing patch
  let auth ← patchAuth vault id patch
  return rows.map fun row =>
    if row.id = id ∧ row.scope = scope then applyPatch patch auth row else row

/-! ## Publish -/

/-- The row of a connection the definition names. -/
def contextConnection (rows : List StoredConnection) (organizationId runAsUserId id : JsString) :
    Except CompileError StoredConnection :=
  match rows.find? fun row => row.id = id with
  | none => .error (.contextResourceNotFound id)
  | some row =>
    if row.enabled ∧ (row.scope = .workspace organizationId ∨ row.scope = .user runAsUserId) then
      .ok row
    else .error (.contextResourceNotFound id)

def resolveCompileInputs (vault : Option Vault) (rows : List StoredConnection)
    (organizationId runAsUserId : JsString) (mcpConnectionIds : List JsString) :
    Except CompileError (List CompileConnection) :=
  mcpConnectionIds.mapM fun id => do
    let row ← contextConnection rows organizationId runAsUserId id
    (resolveCompileInput U vault row.toConnectionRow).mapError .env

/-- The modules of a version that is published with these connections. -/
def publishVersion (vault : Option Vault) (rows : List StoredConnection)
    (organizationId runAsUserId : JsString) (mcpConnectionIds : List JsString) :
    Except CompileError (List ConnectionModule) := do
  let inputs ← resolveCompileInputs U vault rows organizationId runAsUserId mcpConnectionIds
  compileInputs U inputs

/-- The variables a module reads. -/
def ConnectionModule.envVars : ConnectionModule → List JsString
  | .plain | .broker _ => []
  | .bearer envVar => [envVar]
  | .headers entries => entries.map Prod.snd

/-! ## Edits -/

/-- One edit of a connection, of whichever scope. -/
def Edit (vault : Vault) (rows rows' : List StoredConnection) : Prop :=
  ∃ scope id patch, updateConnection U (some vault) rows scope id patch = .ok rows'

/-- Edits one after the other. -/
inductive Edits (vault : Vault) (rows : List StoredConnection) : List StoredConnection → Prop
  | none : Edits vault rows rows
  | step {rows' rows'' : List StoredConnection} : Edits vault rows rows' →
      Edit U vault rows' rows'' → Edits vault rows rows''

/-- The auth of the row was written by the write path. -/
def Written (vault : Vault) (row : StoredConnection) : Prop :=
  ∃ c : Connection, row.toConnectionRow = c.row vault

section

variable {vault : Vault} {rows rows' : List StoredConnection}

theorem patchAuth_ok {id : JsString} {patch : ConnectionPatch}
    {auth : Option (ConnectionAuthType × Option JsString)}
    (h : patchAuth (some vault) id patch = .ok auth) :
    auth = none ∨ ∃ write envelope, auth = some (authTypeOf write, envelope) ∧
      encryptConnectionAuthConfig (some vault) write id = .ok envelope := by
  unfold patchAuth at h
  split at h
  · cases h
    exact Or.inl rfl
  · next write _ =>
    split at h
    · cases h
    · next envelope henc =>
      cases h
      exact Or.inr ⟨write, envelope, rfl, henc⟩

/-- What a successful edit does to the rows. -/
theorem updateConnection_ok {scope : Scope} {id : JsString} {patch : ConnectionPatch}
    (h : updateConnection U (some vault) rows scope id patch = .ok rows') :
    ∃ auth, patchAuth (some vault) id patch = .ok auth ∧ rows' = rows.map fun row =>
      if row.id = id ∧ row.scope = scope then applyPatch patch auth row else row := by
  obtain ⟨existing, -, h⟩ := bind_eq_ok h
  obtain ⟨_, -, h⟩ := bind_eq_ok h
  obtain ⟨_, -, h⟩ := bind_eq_ok h
  obtain ⟨auth, hauth, h⟩ := bind_eq_ok h
  cases h
  exact ⟨auth, hauth, rfl⟩

theorem written_applyPatch {row : StoredConnection} {patch : ConnectionPatch}
    {auth : Option (ConnectionAuthType × Option JsString)} (h : Written vault row)
    (hauth : patchAuth (some vault) row.id patch = .ok auth) :
    Written vault (applyPatch patch auth row) := by
  obtain ⟨c, hc⟩ := h
  rcases patchAuth_ok hauth with rfl | ⟨write, envelope, rfl, henc⟩
  · refine ⟨⟨c.id, patch.name.getD c.name, c.auth⟩, ?_⟩
    show ConnectionRow.mk row.id (patch.name.getD row.name) row.authType row.authConfigEncrypted = _
    rw [show row.id = c.id from congrArg ConnectionRow.id hc,
      show row.name = c.name from congrArg ConnectionRow.name hc,
      show row.authType = authTypeOf c.auth from congrArg ConnectionRow.authType hc,
      show row.authConfigEncrypted = (c.row vault).authConfigEncrypted from
        congrArg ConnectionRow.authConfigEncrypted hc]
    rfl
  · refine ⟨⟨row.id, patch.name.getD row.name, write⟩, ?_⟩
    rw [Connection.row, henc]
    rfl

theorem updateConnection_written {scope : Scope} {id : JsString} {patch : ConnectionPatch}
    (h : updateConnection U (some vault) rows scope id patch = .ok rows')
    (hrows : ∀ row ∈ rows, Written vault row) : ∀ row ∈ rows', Written vault row := by
  obtain ⟨auth, hauth, rfl⟩ := updateConnection_ok U h
  intro row hm
  obtain ⟨row₀, hm₀, rfl⟩ := List.mem_map.mp hm
  split
  · next hid =>
    obtain ⟨rfl, -⟩ := hid
    exact written_applyPatch (hrows row₀ hm₀) hauth
  · exact hrows row₀ hm₀

theorem Edits.written (h : Edits U vault rows rows') (hrows : ∀ row ∈ rows, Written vault row) :
    ∀ row ∈ rows', Written vault row := by
  induction h with
  | none => exact hrows
  | step _ hedit ih =>
    obtain ⟨scope, id, patch, h⟩ := hedit
    exact updateConnection_written U h ih

/-! ## What a published module reads -/

theorem module_envVars (c : Connection) :
    (c.module U).envVars.Perm ((c.vars U).map Prod.fst) := by
  rcases c with ⟨id, name, _ | _ | ⟨token, ht⟩ | values⟩
  · exact List.Perm.refl _
  · exact List.Perm.refl _
  · exact List.Perm.refl _
  · have hsort := List.mergeSort_perm
      (values.entries.map fun e => (e.1, mcpHeaderEnvName U name e.1)) fun a b => decide (a.1 ≤ b.1)
    refine (hsort.map Prod.snd).trans (List.Perm.of_eq ?_)
    rw [Connection.vars, Connection.secrets, List.map_map, List.map_map, List.map_map]
    rfl

theorem contextConnection_ok {organizationId runAsUserId id : JsString} {row : StoredConnection}
    (h : contextConnection rows organizationId runAsUserId id = .ok row) :
    row ∈ rows ∧ row.id = id := by
  unfold contextConnection at h
  split at h
  · cases h
  · next row' hfind =>
    split at h
    · cases h
      exact ⟨List.mem_of_find?_eq_some hfind, by simpa using List.find?_some hfind⟩
    · cases h

theorem publishVersion_ok {organizationId runAsUserId : JsString} {ids : List JsString}
    {modules : List ConnectionModule} (hrows : ∀ row ∈ rows, Written vault row)
    (h : publishVersion U (some vault) rows organizationId runAsUserId ids = .ok modules) :
    List.Forall₂ (fun id m => ∃ row ∈ rows, row.id = id ∧
      m.envVars.Perm ((row.vars U vault).map Prod.fst)) ids modules := by
  have : Nonempty Connection := ⟨⟨[], [], .none⟩⟩
  choose! conn hconn using hrows
  obtain ⟨inputs, hinputs, h⟩ := bind_eq_ok h
  obtain ⟨bs, hbs, hmap⟩ := mapM_bind_ok hinputs
  have hflip : List.Forall₂ (fun b id => b ∈ rows ∧ b.id = id) bs ids :=
    (hbs.imp fun _ _ hb => contextConnection_ok hb).flip
  obtain ⟨hmem, hids⟩ := (List.forall₂_and_left _ _).mp hflip
  have hresolve : ∀ b ∈ bs,
      (resolveCompileInput U (some vault) b.toConnectionRow).mapError CompileError.env =
        .ok ((conn b).input U) := by
    intro b hb
    rw [hconn b (hmem b hb), resolveCompileInput_row]
    rfl
  rw [mapM_eq_ok hresolve] at hmap
  have hconns : compileAgent U (some vault) ((bs.map conn).map (Connection.row vault)) =
      .ok modules := by
    refine (bind_of_eq_ok (congrArg (Except.mapError CompileError.env)
      (resolveCompileInputs_rows U))).trans ?_
    cases hmap
    rw [List.map_map]
    exact h
  obtain ⟨-, rfl⟩ := compileAgent_rows U hconns
  rw [List.map_map, List.forall₂_map_right_iff]
  refine ((List.forall₂_and_left _ _).mpr ⟨hmem, hids⟩).flip.imp fun id b hb => ?_
  refine ⟨b, hb.1, hb.2, ?_⟩
  have hvars : b.vars U vault = (conn b).vars U := by
    rw [hconn b hb.1, vars_row]
  rw [hvars]
  exact module_envVars U (conn b)

/-! ## What a dispatch fills in -/

theorem connectionEnv_written {row : ConnectionRow} (h : ∃ c : Connection, row = c.row vault) :
    connectionEnv U (some vault) row = .ok (row.vars U vault) := by
  obtain ⟨c, rfl⟩ := h
  rw [connectionEnv_row, vars_row]

theorem decryptMcpEnv_written {order : List StoredConnection}
    (h : ∀ row ∈ order, Written vault row) :
    ∃ env, decryptMcpEnv U (some vault) (order.map StoredConnection.toConnectionRow) = .ok env ∧
      ∀ name, OrderedMap.get? name env =
        OrderedMap.get? name (order.flatMap fun row => row.vars U vault).reverse := by
  have hrow : ∀ row ∈ order.map StoredConnection.toConnectionRow,
      connectionEnv U (some vault) row = .ok (row.vars U vault) := by
    intro row hm
    obtain ⟨stored, hs, rfl⟩ := List.mem_map.mp hm
    exact connectionEnv_written U (h stored hs)
  refine ⟨_, decryptMcpEnv_eq_ok U hrow, fun name => ?_⟩
  rw [OrderedMap.get?_setAll, List.flatMap_map]
  exact Option.or_none

/-- `value` is the last of the row's secrets that is alike to the secret `t` behind `slug`. -/
def Carries (vault : Vault) (row : StoredConnection) (slug : JsString) (t : SecretName)
    (value : JsString) : Prop :=
  ∃ before s after, row.secrets vault = before ++ (s, value) :: after ∧
    Alike U (mcpConnectionSlug U row.name) s slug t ∧
    ∀ a ∈ after, ¬ Alike U (mcpConnectionSlug U row.name) a.1 slug t

theorem carries_iff {row : StoredConnection} {name : JsString} {t : SecretName}
    {value : JsString} : Carries U vault row (mcpConnectionSlug U name) t value ↔
      OrderedMap.get? (t.envName U name) (row.vars U vault).reverse = some value := by
  rw [OrderedMap.get?_reverse_eq_some, ConnectionRow.vars]
  constructor
  · rintro ⟨before, s, after, hsplit, halike, hafter⟩
    rw [hsplit, List.map_append, List.map_cons]
    refine ⟨_, _, by rw [secretEnvName_eq_iff U |>.mpr halike], fun e hm heq => ?_⟩
    obtain ⟨a, ha, rfl⟩ := List.mem_map.mp hm
    exact hafter a ha ((secretEnvName_eq_iff U).mp heq)
  · rintro ⟨before, after, hsplit, hafter⟩
    obtain ⟨before', rest, hrest, -, hcons⟩ := List.map_eq_append_iff.mp hsplit
    obtain ⟨s, after', rfl, hs, rfl⟩ := List.map_eq_cons_iff.mp hcons
    obtain ⟨hname, rfl⟩ := Prod.mk.inj hs
    refine ⟨before', s.1, after', hrest, (secretEnvName_eq_iff U).mp hname, fun a ha halike => ?_⟩
    exact hafter _ (List.mem_map_of_mem ha) ((secretEnvName_eq_iff U).mpr halike)

/-- A module's variables hold secrets of its own connection, or nothing. -/
def ReadsOwn (vault : Vault) (rows : List StoredConnection) (env : Env) (id : JsString)
    (module : ConnectionModule) : Prop :=
  ∀ name ∈ module.envVars, ∀ value, OrderedMap.get? name env = some value →
    ∃ own ∈ rows, own.id = id ∧ value ∈ (own.secrets vault).map Prod.snd

theorem exists_of_forall₂ {α β : Type} {R S : α → β → Prop} {l : List α} {u : List β} {a : α}
    (h : List.Forall₂ R l u) (h' : List.Forall₂ S l u) (ha : a ∈ l) : ∃ b, R a b ∧ S a b := by
  induction h with
  | nil => cases ha
  | cons hab _ ih =>
    cases h' with
    | cons hab' h' =>
      rcases List.mem_cons.mp ha with rfl | ha
      · exact ⟨_, hab, hab'⟩
      · exact ih h' ha

end

/-! ## The wiring survives -/

/-- A custom connection of a workspace, with a bearer token. -/
def bearerRow (id name token : JsString) (h : token ≠ []) : StoredConnection where
  toConnectionRow := (⟨id, name, .bearer token h⟩ : Connection).row openVault
  scope := .workspace (ascii "org")
  source := .custom
  url := ascii "https://mcp.example"
  transport := ascii "http"
  toolAllow := none
  toolBlock := none
  enabled := true

def fooRow (name : JsString) : StoredConnection :=
  bearerRow (ascii "c1") name (ascii "foo-secret") (List.cons_ne_nil _ _)

def barRow (name : JsString) : StoredConnection :=
  bearerRow (ascii "c2") name (ascii "bar-secret") (List.cons_ne_nil _ _)

def renameTo (name : JsString) : ConnectionPatch where
  name := some name
  url := none
  transport := none
  toolAllow := none
  toolBlock := none
  enabled := none
  auth := none

/-- After any edits, in whatever order the rows are read: no module of the version reads another
connection's secret exactly when no other connection of the version now keeps, behind its name
of now, a secret alike to one the module was published with (unless the module's own connection
keeps the same value). -/
theorem wiring_iff (U : CaseMapping) (vault : Vault) (rows rows' : List StoredConnection)
    (organizationId runAsUserId : JsString) (ids : List JsString)
    (modules : List ConnectionModule) (hrows : ∀ row ∈ rows, Written vault row)
    (hunique : (rows.map fun row => row.id).Nodup)
    (hpublish : publishVersion U (some vault) rows organizationId runAsUserId ids = .ok modules)
    (hedits : Edits U vault rows rows') :
    (∀ order : List StoredConnection, order.Perm (rows'.filter fun row => row.id ∈ ids) →
      ∃ env, decryptMcpEnv U (some vault) (order.map StoredConnection.toConnectionRow) = .ok env ∧
        List.Forall₂ (ReadsOwn vault rows' env) ids modules) ↔
      ∀ row ∈ rows, row.id ∈ ids → ∀ other ∈ rows', other.id ∈ ids → other.id ≠ row.id →
        ∀ t ∈ (row.secrets vault).map Prod.fst, ∀ value,
          Carries U vault other (mcpConnectionSlug U row.name) t value →
            ∃ own ∈ rows', own.id = row.id ∧ value ∈ (own.secrets vault).map Prod.snd := by
  have hpublished := publishVersion_ok U hrows hpublish
  have hwritten := hedits.written U hrows
  constructor
  · intro hown row hrow hid other hother hoid hne t ht value hcarries
    have hread : other ∈ rows'.filter fun row => row.id ∈ ids :=
      List.mem_filter.mpr ⟨hother, decide_eq_true hoid⟩
    obtain ⟨front, back, hsplit⟩ := List.append_of_mem hread
    -- the other row is read last
    have hperm : ((front ++ back) ++ [other]).Perm (rows'.filter fun row => row.id ∈ ids) := by
      rw [hsplit, List.append_assoc]
      exact List.Perm.append_left _ List.perm_append_comm
    obtain ⟨env, henv, hget⟩ := decryptMcpEnv_written U fun row hm =>
      hwritten row (List.mem_filter.mp (hperm.mem_iff.mp hm)).1
    obtain ⟨env', henv', hall⟩ := hown _ hperm
    rw [henv] at henv'
    cases henv'
    obtain ⟨m, ⟨row₀, hrow₀, hid₀, hvars⟩, hreads⟩ := exists_of_forall₂ hpublished hall hid
    obtain rfl : row₀ = row := List.inj_on_of_nodup_map hunique hrow₀ hrow hid₀
    have hname : t.envName U row₀.name ∈ m.envVars := by
      obtain ⟨s, hs, rfl⟩ := List.mem_map.mp ht
      rw [hvars.mem_iff, ConnectionRow.vars, List.map_map]
      exact List.mem_map_of_mem hs
    refine hreads _ hname value ?_
    rw [hget, List.flatMap_append, List.reverse_append, OrderedMap.get?_append]
    rw [show [other].flatMap (fun row => row.vars U vault) = other.vars U vault from
      List.flatMap_singleton _ _, (carries_iff U).mp hcarries]
    rfl
  · intro hcond order hperm
    have hmem : ∀ row ∈ order, row ∈ rows' ∧ row.id ∈ ids := fun row hm =>
      ⟨(List.mem_filter.mp (hperm.mem_iff.mp hm)).1,
        of_decide_eq_true (List.mem_filter.mp (hperm.mem_iff.mp hm)).2⟩
    obtain ⟨env, henv, hget⟩ := decryptMcpEnv_written U fun row hm => hwritten row (hmem row hm).1
    refine ⟨env, henv, ?_⟩
    have hids : List.Forall₂ _ ids modules :=
      (List.forall₂_and_left (p := fun id => id ∈ ids) _ _).mpr ⟨fun _ h => h, hpublished⟩
    refine hids.imp fun id m hm name hname value hvalue => ?_
    obtain ⟨hid, row, hrow, rfl, hvars⟩ := hm
    rw [hvars.mem_iff, ConnectionRow.vars, List.map_map] at hname
    obtain ⟨s, hs, rfl⟩ := List.mem_map.mp hname
    rw [hget] at hvalue
    obtain ⟨other, hother, hlast⟩ := OrderedMap.get?_reverse_flatMap hvalue
    have hcarries : Carries U vault other (mcpConnectionSlug U row.name) s.1 value :=
      (carries_iff U).mpr hlast
    by_cases hsame : other.id = row.id
    · obtain ⟨before, s', after, hsplit, -⟩ := hcarries
      refine ⟨other, (hmem other hother).1, hsame, ?_⟩
      rw [hsplit]
      exact List.mem_map.mpr
        ⟨(s', value), List.mem_append_right _ List.mem_cons_self, rfl⟩
    · exact hcond row hrow hid other (hmem other hother).1 (hmem other hother).2 hsame s.1
        (List.mem_map_of_mem hs) value hcarries

/-- A connection that is renamed alone: its module reads nothing. -/
theorem wiring_iff_renamed :
    Edits asciiCase openVault [fooRow (ascii "Foo"), barRow (ascii "Bar")]
      [fooRow (ascii "Baz"), barRow (ascii "Bar")] ∧
    ∀ order : List StoredConnection,
      order.Perm ([fooRow (ascii "Baz"), barRow (ascii "Bar")].filter fun row =>
        row.id ∈ [ascii "c1", ascii "c2"]) →
      ∃ env, decryptMcpEnv asciiCase (some openVault)
          (order.map StoredConnection.toConnectionRow) = .ok env ∧
        List.Forall₂ (ReadsOwn openVault [fooRow (ascii "Baz"), barRow (ascii "Bar")] env)
          [ascii "c1", ascii "c2"]
          [.bearer (ascii "MCP_FOO_TOKEN"), .bearer (ascii "MCP_BAR_TOKEN")] := by
  have hedits : Edits asciiCase openVault [fooRow (ascii "Foo"), barRow (ascii "Bar")]
      [fooRow (ascii "Baz"), barRow (ascii "Bar")] :=
    Edits.none.step ⟨.workspace (ascii "org"), ascii "c1", renameTo (ascii "Baz"), rfl⟩
  refine ⟨hedits, ?_⟩
  refine (wiring_iff asciiCase openVault [fooRow (ascii "Foo"), barRow (ascii "Bar")] _
    (ascii "org") (ascii "user") _ _ ?_ (by decide) rfl hedits).mpr ?_
  · intro row hrow
    rcases List.mem_cons.mp hrow with rfl | hrow
    · exact ⟨_, rfl⟩
    · obtain rfl := List.mem_singleton.mp hrow
      exact ⟨_, rfl⟩
  · have hapart : ∀ row other : StoredConnection, ∀ t,
        OrderedMap.get? (t.envName asciiCase row.name) (other.vars asciiCase openVault).reverse =
          none → ∀ value, ¬ Carries asciiCase openVault other
            (mcpConnectionSlug asciiCase row.name) t value := by
      intro row other t hnone value hcarries
      rw [(carries_iff asciiCase).mp hcarries] at hnone
      cases hnone
    intro row hrow _ other hother _ hne t ht value hcarries
    rcases List.mem_cons.mp hrow with rfl | hrow
    · obtain rfl := List.mem_singleton.mp ht
      rcases List.mem_cons.mp hother with rfl | hother
      · exact absurd rfl hne
      · obtain rfl := List.mem_singleton.mp hother
        exact absurd hcarries (hapart _ _ _ rfl value)
    · obtain rfl := List.mem_singleton.mp hrow
      obtain rfl := List.mem_singleton.mp ht
      rcases List.mem_cons.mp hother with rfl | hother
      · exact absurd hcarries (hapart _ _ _ rfl value)
      · obtain rfl := List.mem_singleton.mp hother
        exact absurd rfl hne

/-- Two connections exchange their names: the module of the first reads the other's token. -/
theorem wiring_exchanged :
    publishVersion asciiCase (some openVault) [fooRow (ascii "Foo"), barRow (ascii "Bar")]
        (ascii "org") (ascii "user") [ascii "c1", ascii "c2"] =
      .ok [.bearer (ascii "MCP_FOO_TOKEN"), .bearer (ascii "MCP_BAR_TOKEN")] ∧
    Edits asciiCase openVault [fooRow (ascii "Foo"), barRow (ascii "Bar")]
      [fooRow (ascii "Bar"), barRow (ascii "Foo")] ∧
    ∃ env, decryptMcpEnv asciiCase (some openVault)
        ([fooRow (ascii "Bar"), barRow (ascii "Foo")].map StoredConnection.toConnectionRow) =
        .ok env ∧
      (ConnectionModule.bearer (ascii "MCP_FOO_TOKEN")).evaluate env =
        .ok (.token (ascii "bar-secret")) := by
  refine ⟨rfl, ?_, _, rfl, rfl⟩
  have hscratch : Edits asciiCase openVault [fooRow (ascii "Foo"), barRow (ascii "Bar")]
      [fooRow (ascii "Scratch"), barRow (ascii "Bar")] :=
    Edits.none.step ⟨.workspace (ascii "org"), ascii "c1", renameTo (ascii "Scratch"), rfl⟩
  have hfoo : Edits asciiCase openVault [fooRow (ascii "Foo"), barRow (ascii "Bar")]
      [fooRow (ascii "Scratch"), barRow (ascii "Foo")] :=
    hscratch.step ⟨.workspace (ascii "org"), ascii "c2", renameTo (ascii "Foo"), rfl⟩
  exact hfoo.step ⟨.workspace (ascii "org"), ascii "c1", renameTo (ascii "Bar"), rfl⟩

end InvisibleString.Runtime
