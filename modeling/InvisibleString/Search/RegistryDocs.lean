import InvisibleString.Lib.Json
import InvisibleString.Lib.OrderedMap

/- # `Search.RegistryDocs` — registry entries as documents of the search index

An entry of the upstream list is a JSON object, `{server, _meta}` or a flat server.
`mapRegistryEntry` trims it to a summary and `syncEntryToAction` decides what it does to the
index: store a document, delete one, or nothing.

**Proved here.**

    an entry stores a document iff it is latest, active, valid and has a remote, and then it is
      the document of its name  (`syncEntryToAction_spec`)
    an entry that deletes is the latest of its name and not installable
                                                                     (`syncEntryToAction_spec`)
    a latest entry that does neither is active and fails the schema  (`syncEntryToAction_spec`)
-/

namespace InvisibleString.Search

open Json

variable {N : Type}

/-! ## Reading JSON -/

/-- `Record<string, unknown>`. -/
abbrev JsonObject (N : Type) := List (JsString × Value N)

def asObject : Option (Value N) → Option (JsonObject N)
  | some (.obj members) => some members
  | _ => none

def asArray : Option (Value N) → List (Value N)
  | some (.arr items) => items
  | _ => []

/-- The value when `typeof value === "string"`. -/
def asString : Option (Value N) → Option JsString
  | some (.str s) => some s
  | _ => none

def isTrue : Option (Value N) → Bool
  | some (.bool b) => b
  | _ => false

/-- `object[key]`, `none` for `undefined`. -/
def field (key : String) (object : JsonObject N) : Option (Value N) :=
  OrderedMap.get? (ascii key) object

/-! ## The summary of an entry -/

structure EnvVarDeclaration where
  name : JsString
  description : Option JsString
  isRequired : Bool
  isSecret : Bool
  format : Option JsString
  default : Option JsString
  deriving DecidableEq

structure RegistryRemote where
  type : JsString
  url : JsString
  headers : List EnvVarDeclaration
  deriving DecidableEq

inductive IconTheme where
  | light
  | dark
  deriving DecidableEq

structure RegistryIcon where
  src : JsString
  mimeType : Option JsString
  sizes : Option JsString
  theme : Option IconTheme
  deriving DecidableEq

structure RegistryServerSummary where
  name : JsString
  title : Option JsString
  description : JsString
  version : JsString
  remotes : List RegistryRemote
  envVarDeclarations : List EnvVarDeclaration
  icons : Option (List RegistryIcon)

/-- The registry's official `_meta` extension. -/
def officialMeta (entry : JsonObject N) : Option (JsonObject N) := do
  let extensions ← asObject (field "_meta" entry)
  asObject (field "io.modelcontextprotocol.registry/official" extensions)

def serverAndMeta (entry : JsonObject N) : JsonObject N × Option (JsonObject N) :=
  match asObject (field "server" entry) with
  | some nested => (nested, officialMeta entry)
  | none => (entry, officialMeta entry)

/-- `meta.status === undefined || meta.status === "active"`. -/
def statusActive (info : JsonObject N) : Bool :=
  match field "status" info with
  | none => true
  | some (.str s) => s = ascii "active"
  | some _ => false

/-- `meta.isLatest === undefined || meta.isLatest === true`. -/
def latestOrUnset (info : JsonObject N) : Bool :=
  match field "isLatest" info with
  | none => true
  | some (.bool b) => b
  | some _ => false

def isActiveLatest : Option (JsonObject N) → Bool
  | none => true
  | some info => statusActive info && latestOrUnset info

def mapEnvVars (raw : Option (Value N)) : List EnvVarDeclaration :=
  (asArray raw).filterMap fun item => do
    let obj ← asObject (some item)
    let name ← asString (field "name" obj)
    return { name
             description := asString (field "description" obj)
             isRequired := isTrue (field "isRequired" obj)
             isSecret := isTrue (field "isSecret" obj)
             format := asString (field "format" obj)
             default := asString (field "default" obj) }

def lowerLetter (c : CodeUnit) : CodeUnit :=
  if unit 'A' ≤ c && c ≤ unit 'Z' then c + 32 else c

/-- `/^https?:\/\//i`. -/
def isHttpUrl (s : JsString) : Bool :=
  (ascii "http://").isPrefixOf (s.map lowerLetter) ||
    (ascii "https://").isPrefixOf (s.map lowerLetter)

def mapRemotes (raw : Option (Value N)) : List RegistryRemote :=
  (asArray raw).filterMap fun item => do
    let obj ← asObject (some item)
    let type ← asString (field "type" obj)
    let url ← (asString (field "url" obj)).filter isHttpUrl
    return { type, url, headers := mapEnvVars (field "headers" obj) }

/-- The declarations of all packages, the first of each name. -/
def mapPackagesEnv (raw : Option (Value N)) : List EnvVarDeclaration :=
  ((asArray raw).flatMap fun pkg =>
    match asObject (some pkg) with
    | some obj => mapEnvVars (field "environmentVariables" obj)
    | none => []).foldl
    (fun out env => if env.name ∈ out.map (·.name) then out else out ++ [env]) []

def readTheme (raw : Option (Value N)) : Option IconTheme :=
  (asString raw).bind fun theme =>
    if theme = ascii "light" then some .light
    else if theme = ascii "dark" then some .dark else none

def mapIcons (raw : Option (Value N)) : Option (List RegistryIcon) :=
  let icons := (asArray raw).filterMap fun item => do
    let obj ← asObject (some item)
    let src ← (asString (field "src" obj)).filter isHttpUrl
    return { src
             mimeType := asString (field "mimeType" obj)
             sizes := asString (field "sizes" obj)
             theme := readTheme (field "theme" obj) : RegistryIcon }
  if icons.isEmpty then none else some icons

/-! ### The schema

`parseUrl` is zod's `z.url()`: the string it hands on, if it takes the value. -/

variable (parseUrl : JsString → Option JsString)

def httpUrlSchema (value : JsString) : Option JsString := (parseUrl value).filter isHttpUrl

/-- `z.string().min(1)`. -/
def nonEmpty (s : JsString) : Option JsString := if s = [] then none else some s

def envVarDeclarationSchema (env : EnvVarDeclaration) : Option EnvVarDeclaration := do
  let name ← nonEmpty env.name
  return { env with name }

def remoteSchema (remote : RegistryRemote) : Option RegistryRemote := do
  let type ← nonEmpty remote.type
  let url ← httpUrlSchema parseUrl remote.url
  let headers ← remote.headers.mapM envVarDeclarationSchema
  return { type, url, headers }

def iconSchema (icon : RegistryIcon) : Option RegistryIcon := do
  let src ← httpUrlSchema parseUrl icon.src
  return { icon with src }

def iconsSchema : Option (List RegistryIcon) → Option (Option (List RegistryIcon))
  | none => some none
  | some icons => (icons.mapM (iconSchema parseUrl)).map some

/-- `mapRegistryEntry`: the trimmed entry, parsed by `registryServerSummarySchema`. -/
def mapRegistryEntry (entry : JsonObject N) : Option RegistryServerSummary :=
  let (server, info) := serverAndMeta entry
  if isActiveLatest info then do
    let name ← (asString (field "name" server)).bind nonEmpty
    let version ← (asString (field "version" server)).bind nonEmpty
    let remotes ← (mapRemotes (field "remotes" server)).mapM (remoteSchema parseUrl)
    let envVarDeclarations ←
      (mapPackagesEnv (field "packages" server)).mapM envVarDeclarationSchema
    let icons ← iconsSchema parseUrl (mapIcons (field "icons" server))
    return { name
             title := asString (field "title" server)
             description := (asString (field "description" server)).getD []
             version, remotes, envVarDeclarations, icons }
  else none

/-! ## Documents -/

/-- The bytes of a code point above the first 128. -/
def utf8Point (point : Nat) : List Nat :=
  if point < 0x800 then [0xC0 + point / 64, 0x80 + point % 64]
  else if point < 0x10000 then
    [0xE0 + point / 4096, 0x80 + point / 64 % 64, 0x80 + point % 64]
  else
    [0xF0 + point / 262144, 0x80 + point / 4096 % 64, 0x80 + point / 64 % 64, 0x80 + point % 64]

/-- UTF-8; a surrogate that stands alone is written as U+FFFD. -/
def utf8 : JsString → List Nat
  | [] => []
  | [c] =>
    if c < 0x80 then [c.toNat]
    else utf8Point (if isLeading c || isTrailing c then 0xFFFD else c.toNat)
  | c :: d :: rest =>
    if c < 0x80 then c.toNat :: utf8 (d :: rest)
    else if isLeading c && isTrailing d then
      utf8Point (0x10000 + (c.toNat - 0xD800) * 1024 + (d.toNat - 0xDC00)) ++ utf8 rest
    else
      utf8Point (if isLeading c || isTrailing c then 0xFFFD else c.toNat) ++ utf8 (d :: rest)

def base64urlAlphabet : JsString :=
  ascii "ABCDEFGHIJKLMNOPQRSTUVWXYZabcdefghijklmnopqrstuvwxyz0123456789-_"

def sextet (n : Nat) : CodeUnit := base64urlAlphabet.getD n 0

/-- `toString("base64url")`, without padding. -/
def base64url : List Nat → JsString
  | [] => []
  | [a] => [sextet (a / 4), sextet (a % 4 * 16)]
  | [a, b] => [sextet (a / 4), sextet (a % 4 * 16 + b / 16), sextet (b % 16 * 4)]
  | a :: b :: c :: rest =>
    sextet (a / 4) :: sextet (a % 4 * 16 + b / 16) :: sextet (b % 16 * 4 + c / 64) ::
      sextet (c % 64) :: base64url rest

def registryDocId (name : JsString) : JsString := base64url (utf8 name)

structure RegistryDocument where
  id : JsString
  name : JsString
  title : Option JsString
  description : JsString
  websiteUrl : Option JsString
  remotes : List RegistryRemote
  verified : Bool
  updatedAt : Option JsString
  deriving DecidableEq

inductive SyncAction where
  | upsert (doc : RegistryDocument)
  | delete (id : JsString)
  | skip

/-- `server.name`, `""` when it is no string. -/
def entryName (entry : JsonObject N) : JsString :=
  (asString (field "name" (serverAndMeta entry).1)).getD []

/-- `meta.isLatest` is set and not `true`. -/
def isOldVersion (entry : JsonObject N) : Bool :=
  match (serverAndMeta entry).2 with
  | some info => !latestOrUnset info
  | none => false

/-- `meta.status` is set and not `"active"`. -/
def isInactive (entry : JsonObject N) : Bool :=
  match (serverAndMeta entry).2 with
  | some info => !statusActive info
  | none => false

def documentOf (entry : JsonObject N) (summary : RegistryServerSummary) : RegistryDocument :=
  let (server, info) := serverAndMeta entry
  { id := registryDocId summary.name
    name := summary.name
    title := summary.title
    description := summary.description
    websiteUrl := (asString (field "websiteUrl" server)).filter isHttpUrl
    remotes := summary.remotes
    verified := !(ascii "io.github.").isPrefixOf summary.name
    updatedAt := info.bind fun info => asString (field "updatedAt" info) }

def syncEntryToAction (entry : JsonObject N) : SyncAction :=
  let name := entryName entry
  if name = [] then .skip
  else if isOldVersion entry then .skip
  else if isInactive entry then .delete (registryDocId name)
  else
    match mapRegistryEntry parseUrl entry with
    | none => .skip
    | some summary =>
      if summary.remotes = [] then .delete (registryDocId summary.name)
      else .upsert (documentOf entry summary)

/-! ## What an entry is worth -/

/-- The document of an entry that is active, latest and installable. -/
def document (entry : JsonObject N) : Option RegistryDocument :=
  (mapRegistryEntry parseUrl entry).bind fun summary =>
    if summary.remotes = [] then none else some (documentOf entry summary)

/-- Latest and active by its `_meta`, yet not a server the schema takes. -/
def FailsSchema (entry : JsonObject N) : Prop :=
  isInactive entry = false ∧ mapRegistryEntry parseUrl entry = none

variable {parseUrl} {entry : JsonObject N}

theorem nonEmpty_eq_some {s t : JsString} (h : nonEmpty s = some t) : s = t ∧ t ≠ [] := by
  rw [nonEmpty] at h
  split at h
  · cases h
  · rename_i hs
    cases h
    exact ⟨rfl, hs⟩

theorem isActiveLatest_eq_true (h : isActiveLatest (serverAndMeta entry).2 = true) :
    isInactive entry = false ∧ isOldVersion entry = false := by
  rw [isInactive, isOldVersion]
  cases hinfo : (serverAndMeta entry).2 with
  | none => exact ⟨rfl, rfl⟩
  | some info =>
    rw [hinfo, isActiveLatest, Bool.and_eq_true] at h
    exact ⟨congrArg not h.1, congrArg not h.2⟩

/-- A trimmed entry is active and latest and keeps its name. -/
theorem mapRegistryEntry_eq_some {summary : RegistryServerSummary}
    (h : mapRegistryEntry parseUrl entry = some summary) :
    isActiveLatest (serverAndMeta entry).2 = true ∧ summary.name = entryName entry ∧
      entryName entry ≠ [] := by
  rw [mapRegistryEntry] at h
  rw [entryName]
  simp only at h
  split at h
  · rename_i hactive
    obtain ⟨name, hname, h⟩ := Option.bind_eq_some_iff.mp h
    obtain ⟨version, -, h⟩ := Option.bind_eq_some_iff.mp h
    obtain ⟨remotes, -, h⟩ := Option.bind_eq_some_iff.mp h
    obtain ⟨env, -, h⟩ := Option.bind_eq_some_iff.mp h
    obtain ⟨icons, -, h⟩ := Option.bind_eq_some_iff.mp h
    cases h
    obtain ⟨raw, hraw, hname⟩ := Option.bind_eq_some_iff.mp hname
    obtain ⟨rfl, hne⟩ := nonEmpty_eq_some hname
    rw [hraw]
    exact ⟨hactive, rfl, hne⟩
  · cases h

theorem document_eq_some {doc : RegistryDocument} (h : document parseUrl entry = some doc) :
    doc.id = registryDocId (entryName entry) := by
  obtain ⟨summary, hmap, h⟩ := Option.bind_eq_some_iff.mp h
  split at h
  · cases h
  · cases h
    rw [← (mapRegistryEntry_eq_some hmap).2.1]
    rfl

theorem syncEntryToAction_skip (h : entryName entry = [] ∨ isOldVersion entry = true) :
    syncEntryToAction parseUrl entry = .skip := by
  rw [syncEntryToAction]
  split
  · rfl
  · rename_i hname
    exact if_pos (h.resolve_left hname)

/-- The entry's status is `"deleted"`. -/
def isDeleted (entry : JsonObject N) : Bool :=
  match (serverAndMeta entry).2 with
  | some info => asString (field "status" info) = some (ascii "deleted")
  | none => false

theorem document_of_isDeleted (h : isDeleted entry = true) : document parseUrl entry = none := by
  cases hmap : mapRegistryEntry parseUrl entry with
  | none => rw [document, hmap]; rfl
  | some summary =>
    have hactive := (mapRegistryEntry_eq_some hmap).1
    rw [isDeleted] at h
    cases hinfo : (serverAndMeta entry).2 with
    | none => rw [hinfo] at h; cases h
    | some info =>
      rw [hinfo] at h hactive
      have hstatus : asString (field "status" info) = some (ascii "deleted") := of_decide_eq_true h
      rw [isActiveLatest, statusActive] at hactive
      cases hvalue : field "status" info with
      | none => rw [hvalue] at hstatus; cases hstatus
      | some value =>
        rw [hvalue] at hstatus hactive
        cases value with
        | str s =>
          cases hstatus
          cases hactive
        | _ => cases hstatus

variable (parseUrl) in
/-- A named entry of a latest version: it stores its document, or it has none and is deleted, or
it fails the schema and does nothing. -/
theorem syncEntryToAction_spec (hname : entryName entry ≠ [])
    (hlatest : isOldVersion entry = false) :
    (∃ doc, document parseUrl entry = some doc ∧ syncEntryToAction parseUrl entry = .upsert doc) ∨
    (document parseUrl entry = none ∧
      syncEntryToAction parseUrl entry = .delete (registryDocId (entryName entry))) ∨
    (FailsSchema parseUrl entry ∧ document parseUrl entry = none ∧
      syncEntryToAction parseUrl entry = .skip) := by
  have haction : syncEntryToAction parseUrl entry =
      if isInactive entry then .delete (registryDocId (entryName entry))
      else match mapRegistryEntry parseUrl entry with
        | none => .skip
        | some summary =>
          if summary.remotes = [] then .delete (registryDocId summary.name)
          else .upsert (documentOf entry summary) := by
    rw [syncEntryToAction, if_neg hname, if_neg (by rw [hlatest]; exact Bool.false_ne_true)]
  rw [haction]
  cases hinactive : isInactive entry with
  | true =>
    refine .inr (.inl ⟨?_, rfl⟩)
    cases hmap : mapRegistryEntry parseUrl entry with
    | none => rw [document, hmap]; rfl
    | some summary =>
      have hactive := isActiveLatest_eq_true (mapRegistryEntry_eq_some hmap).1
      rw [hinactive] at hactive
      exact absurd hactive.1 (by decide)
  | false =>
    cases hmap : mapRegistryEntry parseUrl entry with
    | none =>
      refine .inr (.inr ⟨⟨hinactive, hmap⟩, ?_, rfl⟩)
      rw [document, hmap]
      rfl
    | some summary =>
      by_cases hremotes : summary.remotes = []
      · refine .inr (.inl ⟨?_, ?_⟩)
        · rw [document, hmap, Option.bind_some, if_pos hremotes]
        · rw [← (mapRegistryEntry_eq_some hmap).2.1]
          exact if_pos hremotes
      · refine .inl ⟨documentOf entry summary, ?_, if_neg hremotes⟩
        rw [document, hmap, Option.bind_some, if_neg hremotes]

end InvisibleString.Search
