import InvisibleString.Lib.OrderedMap
import InvisibleString.Lib.Prototype
import InvisibleString.Logs.Redaction
import InvisibleString.Net.Literals

/- # `Logs.Logger` — secrets and the events a logger hands to its sink

`createStructuredLogger` and its children merge the ids and fields they are bound to with those of
a call, put the duration and the error among the fields, redact the fields and hand an event to
the sink.  The redaction replaces what is under a secret-named key and the credentials in the URLs
of strings.  The message is handed over as it is.

Two calls agree if they differ only under secret-named keys and in the userinfo of URLs.  The key
`__proto__` is assigned like any other by the redaction, which leaves no member.

**Proved here.**

    fields that agree are redacted to the same fields exactly when all credentials in which they
      differ are hidden  (`redactMembers_eq_iff`)
    redacted fields agree with the fields exactly when nothing outside of authorities is replaced
      and no key is `__proto__`  (`agreeMembers_redact_iff`)
    merged fields of calls that agree, agree  (`agreeMembers_mergedFields`)
    two loggers and two calls that agree hand the same event to the sink, and redaction leaves
      the rest unchanged, exactly below the level or when the messages are the same and the
      fields are as above  (`noninterfering_iff`)
    the worker's plain messages are told apart, credentials or not (`stringLogAdapter_eq_iff`)
-/

namespace InvisibleString.Logs

open Json OrderedMap

variable {N : Type} (lower : JsString → JsString)

/-! ## Redaction of fields -/

def secretFieldPatterns : List JsString :=
  [ascii "password", ascii "passwd", ascii "passphrase", ascii "secret", ascii "token",
    ascii "apikey", ascii "api_key", ascii "accesskey", ascii "access_key", ascii "privatekey",
    ascii "private_key", ascii "signingkey", ascii "signing_key", ascii "credential",
    ascii "authorization", ascii "bearer", ascii "cookie", ascii "session_token",
    ascii "encryptionkey", ascii "encryption_key", ascii "jwt"]

def isSecretFieldKey (key : JsString) : Bool :=
  secretFieldPatterns.any fun pattern => includes pattern (lower key)

mutual

def redactLogValue : Value N → Value N
  | .null => .null
  | .bool b => .bool b
  | .num n => .num n
  | .str s => .str (redactUrlCredentials s)
  | .arr items => .arr (redactItems items)
  | .obj members => .obj (redactMembers members)

def redactItems : List (Value N) → List (Value N)
  | [] => []
  | item :: items => redactLogValue item :: redactItems items

/-- `out[key] = …` for each entry.  The keys are different; `__proto__` sets the prototype, if
anything, and makes no member. -/
def redactMembers : List (JsString × Value N) → List (JsString × Value N)
  | [] => []
  | (key, value) :: members =>
    if key = protoName then redactMembers members
    else
      (key, if isSecretFieldKey lower key then .str redactionPlaceholder
        else redactLogValue value) :: redactMembers members

end

def redactLogFields (fields : List (JsString × Value N)) : List (JsString × Value N) :=
  redactMembers lower fields

/-! ## The logger -/

inductive LogLevel where
  | debug
  | info
  | warn
  | error
deriving DecidableEq

def LogLevel.priority : LogLevel → Nat
  | .debug => 10
  | .info => 20
  | .warn => 30
  | .error => 40

structure LogCorrelation where
  workspaceId : Option JsString := none
  workflowId : Option JsString := none
  workflowVersionId : Option JsString := none
  sessionId : Option JsString := none
  runId : Option JsString := none
  workerId : Option JsString := none
deriving DecidableEq

/-- `{...base, ...pickCorrelation(source)}`. -/
def LogCorrelation.merge (base source : LogCorrelation) : LogCorrelation where
  workspaceId := source.workspaceId.or base.workspaceId
  workflowId := source.workflowId.or base.workflowId
  workflowVersionId := source.workflowVersionId.or base.workflowVersionId
  sessionId := source.sessionId.or base.sessionId
  runId := source.runId.or base.runId
  workerId := source.workerId.or base.workerId

structure LogBindings (N : Type) where
  correlation : LogCorrelation := {}
  fields : Option (List (JsString × Value N)) := none

/-- `err`: an `Error`, or another value by its `String(err)`. -/
inductive Caught where
  | error (message name : JsString)
  | other (text : JsString)

structure LogOptions (N : Type) where
  correlation : LogCorrelation := {}
  msg : Option JsString := none
  durationMs : Option N := none
  fields : Option (List (JsString × Value N)) := none
  err : Option Caught := none

structure StructuredLogEvent (N : Type) where
  emittedAt : JsString
  level : LogLevel
  event : JsString
  msg : Option JsString
  correlation : LogCorrelation
  fields : Option (List (JsString × Value N))

structure StructuredLogger (N : Type) where
  minLevel : LogLevel
  baseCorrelation : LogCorrelation
  baseFields : List (JsString × Value N)

def createStructuredLogger (base : LogBindings N) (minLevel : Option LogLevel) :
    StructuredLogger N where
  minLevel := minLevel.getD .info
  baseCorrelation := LogCorrelation.merge {} base.correlation
  baseFields := base.fields.getD []

namespace StructuredLogger

def child (logger : StructuredLogger N) (bindings : LogBindings N) : StructuredLogger N where
  minLevel := logger.minLevel
  baseCorrelation := logger.baseCorrelation.merge bindings.correlation
  baseFields := setAll (bindings.fields.getD []) logger.baseFields

/-- What `err` puts among the fields. -/
def errorFields : Option Caught → List (JsString × Value N)
  | none => []
  | some (.error message name) =>
    (ascii "error", .str message) ::
      if name = [] then [] else [(ascii "errorName", .str name)]
  | some (.other text) => [(ascii "error", .str text)]

def durationFields : Option N → List (JsString × Value N)
  | none => []
  | some duration => [(ascii "durationMs", .num duration)]

def mergedFields (logger : StructuredLogger N) (opts : LogOptions N) :
    List (JsString × Value N) :=
  setAll (errorFields opts.err)
    (setAll (durationFields opts.durationMs) (setAll (opts.fields.getD []) logger.baseFields))

/-- The event for the sink, if the level is not below the logger's. -/
def emit (logger : StructuredLogger N) (level : LogLevel) (event : JsString)
    (opts : LogOptions N) (now : JsString) : Option (StructuredLogEvent N) :=
  if level.priority < logger.minLevel.priority then none
  else
    let redacted := redactLogFields lower (logger.mergedFields opts)
    some {
      emittedAt := now
      level
      event
      msg := opts.msg
      correlation := logger.baseCorrelation.merge opts.correlation
      fields := if redacted = [] then none else some redacted }

end StructuredLogger

/-- The worker's adapter for plain messages. -/
def stringLogAdapter (logger : StructuredLogger N) (message now : JsString) :
    Option (StructuredLogEvent N) :=
  logger.emit lower .info (ascii "worker.log") { msg := some message } now

/-! ## Values that agree -/

section Agree

variable (hidden : JsString → Bool) (same : JsString → JsString → Prop)

mutual

/-- The same, but for what is under a hidden key and for strings, of which `same` decides. -/
def Agree : Value N → Value N → Prop
  | .null, .null => True
  | .bool b, .bool c => b = c
  | .num n, .num m => n = m
  | .str s, .str t => same s t
  | .arr items, .arr items' => AgreeItems items items'
  | .obj members, .obj members' => AgreeMembers members members'
  | _, _ => False

def AgreeItems : List (Value N) → List (Value N) → Prop
  | [], [] => True
  | v :: vs, w :: ws => Agree v w ∧ AgreeItems vs ws
  | _, _ => False

def AgreeMembers : List (JsString × Value N) → List (JsString × Value N) → Prop
  | [], [] => True
  | (k, v) :: ms, (l, w) :: ns => k = l ∧ (hidden k = true ∨ Agree v w) ∧ AgreeMembers ms ns
  | _, _ => False

end

variable {hidden same}

mutual

theorem agree_refl (hrefl : ∀ s, same s s) : ∀ v : Value N, Agree hidden same v v
  | .null => trivial
  | .bool _ => rfl
  | .num _ => rfl
  | .str s => hrefl s
  | .arr items => agreeItems_refl hrefl items
  | .obj members => agreeMembers_refl hrefl members

theorem agreeItems_refl (hrefl : ∀ s, same s s) :
    ∀ items : List (Value N), AgreeItems hidden same items items
  | [] => trivial
  | v :: vs => ⟨agree_refl hrefl v, agreeItems_refl hrefl vs⟩

theorem agreeMembers_refl (hrefl : ∀ s, same s s) :
    ∀ members : List (JsString × Value N), AgreeMembers hidden same members members
  | [] => trivial
  | (_, v) :: ms => ⟨rfl, Or.inr (agree_refl hrefl v), agreeMembers_refl hrefl ms⟩

end

theorem AgreeMembers.length_eq {ms ns : List (JsString × Value N)}
    (h : AgreeMembers hidden same ms ns) : ms.length = ns.length := by
  induction ms generalizing ns with
  | nil =>
    cases ns with
    | nil => rfl
    | cons n ns => exact h.elim
  | cons m ms ih =>
    cases ns with
    | nil => exact h.elim
    | cons n ns => rw [List.length_cons, List.length_cons, ih h.2.2]

theorem AgreeMembers.set {ms ns : List (JsString × Value N)} (h : AgreeMembers hidden same ms ns)
    (k : JsString) {v w : Value N} (hvw : hidden k = true ∨ Agree hidden same v w) :
    AgreeMembers hidden same (OrderedMap.set k v ms) (OrderedMap.set k w ns) := by
  induction ms generalizing ns with
  | nil =>
    cases ns with
    | nil => exact ⟨rfl, hvw, trivial⟩
    | cons n ns => exact h.elim
  | cons m ms ih =>
    cases ns with
    | nil => exact h.elim
    | cons n ns =>
      obtain ⟨hkey, hvalue, hrest⟩ := h
      rw [OrderedMap.set, OrderedMap.set, ← hkey]
      split
      · exact ⟨rfl, hvw, hrest⟩
      · exact ⟨rfl, hvalue, ih hrest⟩

theorem AgreeMembers.setAll {news news' ms ns : List (JsString × Value N)}
    (hnews : AgreeMembers hidden same news news') (h : AgreeMembers hidden same ms ns) :
    AgreeMembers hidden same (OrderedMap.setAll news ms) (OrderedMap.setAll news' ns) := by
  induction news generalizing news' ms ns with
  | nil =>
    cases news' with
    | nil => exact h
    | cons n news' => exact hnews.elim
  | cons m news ih =>
    cases news' with
    | nil => exact hnews.elim
    | cons n news' =>
      obtain ⟨hkey, hvalue, hrest⟩ := hnews
      have hset := h.set m.1 hvalue
      rw [hkey] at hset
      have hset' : AgreeMembers hidden same (OrderedMap.set m.1 m.2 ms)
          (OrderedMap.set n.1 n.2 ns) := by
        rw [hkey]
        exact hset
      have hall := ih hrest hset'
      exact hall

end Agree

/-- The userinfo aside, the strings are one. -/
def SamePublic (s t : JsString) : Prop := publicText s = publicText t

theorem samePublic_refl (s : JsString) : SamePublic s s := rfl

/-- What is under the key does not reach the redacted fields. -/
def isLost (key : JsString) : Bool := isSecretFieldKey lower key || decide (key = protoName)

/-! ## What redaction hides -/

mutual

theorem redactLogValue_eq_iff : ∀ v w : Value N, Agree (isSecretFieldKey lower) SamePublic v w →
    (redactLogValue lower v = redactLogValue lower w ↔ Agree (isLost lower) HidesCredentials v w)
  | .null, w, h => by
    cases w with
    | null => exact ⟨fun _ => trivial, fun _ => rfl⟩
    | _ => exact h.elim
  | .bool b, w, h => by
    cases w with
    | bool c =>
      have hbc : b = c := h
      rw [hbc]
      exact ⟨fun _ => rfl, fun _ => rfl⟩
    | _ => exact h.elim
  | .num n, w, h => by
    cases w with
    | num m =>
      have hnm : n = m := h
      rw [hnm]
      exact ⟨fun _ => rfl, fun _ => rfl⟩
    | _ => exact h.elim
  | .str s, w, h => by
    cases w with
    | str t =>
      rw [redactLogValue, redactLogValue, Value.str.injEq]
      exact redact_eq_iff s t
    | _ => exact h.elim
  | .arr items, w, h => by
    cases w with
    | arr items' =>
      rw [redactLogValue, redactLogValue, Value.arr.injEq]
      exact redactItems_eq_iff items items' h
    | _ => exact h.elim
  | .obj members, w, h => by
    cases w with
    | obj members' =>
      rw [redactLogValue, redactLogValue, Value.obj.injEq]
      exact redactMembers_eq_iff members members' h
    | _ => exact h.elim

theorem redactItems_eq_iff : ∀ vs ws : List (Value N),
    AgreeItems (isSecretFieldKey lower) SamePublic vs ws →
    (redactItems lower vs = redactItems lower ws ↔
      AgreeItems (isLost lower) HidesCredentials vs ws)
  | [], [], _ => ⟨fun _ => trivial, fun _ => rfl⟩
  | [], _ :: _, h => h.elim
  | _ :: _, [], h => h.elim
  | v :: vs, w :: ws, h => by
    rw [redactItems, redactItems, List.cons.injEq, redactLogValue_eq_iff v w h.1,
      redactItems_eq_iff vs ws h.2]
    rfl

/-- Fields that agree are redacted to the same exactly when the credentials in which they differ
are hidden. -/
theorem redactMembers_eq_iff : ∀ ms ns : List (JsString × Value N),
    AgreeMembers (isSecretFieldKey lower) SamePublic ms ns →
    (redactMembers lower ms = redactMembers lower ns ↔
      AgreeMembers (isLost lower) HidesCredentials ms ns)
  | [], [], _ => ⟨fun _ => trivial, fun _ => rfl⟩
  | [], _ :: _, h => h.elim
  | _ :: _, [], h => h.elim
  | (k, v) :: ms, (l, w) :: ns, h => by
    obtain ⟨rfl, hvw, hrest⟩ := h
    have ih := redactMembers_eq_iff ms ns hrest
    rw [redactMembers, redactMembers, AgreeMembers, ← ih]
    by_cases hproto : k = protoName
    · have hlost : isLost lower k = true := by
        rw [isLost, decide_eq_true hproto, Bool.or_true]
      rw [if_pos hproto, if_pos hproto]
      exact ⟨fun h => ⟨rfl, Or.inl hlost, h⟩, fun h => h.2.2⟩
    · rw [if_neg hproto, if_neg hproto, List.cons.injEq, Prod.mk.injEq]
      cases hsecret : isSecretFieldKey lower k with
      | true =>
        have hlost : isLost lower k = true := by
          rw [isLost, hsecret, Bool.true_or]
        rw [if_pos rfl, if_pos rfl]
        exact ⟨fun h => ⟨rfl, Or.inl hlost, h.2⟩, fun h => ⟨⟨rfl, rfl⟩, h.2.2⟩⟩
      | false =>
        have hkept : isLost lower k = false := by
          rw [isLost, hsecret, decide_eq_false hproto, Bool.or_false]
        rw [hsecret] at hvw
        have hvalue := redactLogValue_eq_iff v w (hvw.resolve_left Bool.false_ne_true)
        rw [hkept, if_neg Bool.false_ne_true, if_neg Bool.false_ne_true, hvalue]
        exact ⟨fun h => ⟨rfl, Or.inr h.1.2, h.2⟩,
          fun h => ⟨⟨rfl, h.2.1.resolve_left Bool.false_ne_true⟩, h.2.2⟩⟩

end

/-! ## What redaction leaves -/

mutual

/-- Nothing outside of authorities is replaced in the strings, and no key is `__proto__`. -/
def Untouched : Value N → Prop
  | .str s => SparesText s
  | .arr items => UntouchedItems items
  | .obj members => UntouchedMembers members
  | _ => True

def UntouchedItems : List (Value N) → Prop
  | [] => True
  | v :: vs => Untouched v ∧ UntouchedItems vs

def UntouchedMembers : List (JsString × Value N) → Prop
  | [] => True
  | (k, v) :: ms =>
    k ≠ protoName ∧ (isSecretFieldKey lower k = true ∨ Untouched v) ∧ UntouchedMembers ms

end

theorem length_redactMembers_le (ms : List (JsString × Value N)) :
    (redactMembers lower ms).length ≤ ms.length := by
  induction ms with
  | nil => exact Nat.le_refl _
  | cons m ms ih =>
    rw [redactMembers, List.length_cons]
    split
    · omega
    · rw [List.length_cons]
      omega

mutual

theorem agree_redact_iff : ∀ v : Value N,
    Agree (isSecretFieldKey lower) SamePublic v (redactLogValue lower v) ↔ Untouched lower v
  | .null => ⟨fun _ => trivial, fun _ => trivial⟩
  | .bool _ => ⟨fun _ => trivial, fun _ => rfl⟩
  | .num _ => ⟨fun _ => trivial, fun _ => rfl⟩
  | .str s => by
    rw [redactLogValue, Untouched, ← publicText_redact_iff]
    exact eq_comm
  | .arr items => by
    rw [redactLogValue]
    exact agreeItems_redact_iff items
  | .obj members => by
    rw [redactLogValue]
    exact agreeMembers_redact_iff members

theorem agreeItems_redact_iff : ∀ vs : List (Value N),
    AgreeItems (isSecretFieldKey lower) SamePublic vs (redactItems lower vs) ↔
      UntouchedItems lower vs
  | [] => ⟨fun _ => trivial, fun _ => trivial⟩
  | v :: vs => by
    rw [redactItems, AgreeItems, UntouchedItems, agree_redact_iff v, agreeItems_redact_iff vs]

/-- Redacted fields agree with the fields exactly when they are untouched. -/
theorem agreeMembers_redact_iff : ∀ ms : List (JsString × Value N),
    AgreeMembers (isSecretFieldKey lower) SamePublic ms (redactMembers lower ms) ↔
      UntouchedMembers lower ms
  | [] => ⟨fun _ => trivial, fun _ => trivial⟩
  | (k, v) :: ms => by
    rw [redactMembers, UntouchedMembers]
    by_cases hproto : k = protoName
    · rw [if_pos hproto]
      refine ⟨fun h => ?_, fun h => absurd hproto h.1⟩
      have hlength := h.length_eq
      have hle := length_redactMembers_le lower ms
      rw [List.length_cons] at hlength
      omega
    · rw [if_neg hproto, AgreeMembers, agreeMembers_redact_iff ms]
      cases hsecret : isSecretFieldKey lower k with
      | true => exact ⟨fun h => ⟨hproto, Or.inl rfl, h.2.2⟩, fun h => ⟨rfl, Or.inl rfl, h.2.2⟩⟩
      | false =>
        rw [if_neg Bool.false_ne_true, agree_redact_iff v]
        exact ⟨fun h => ⟨hproto, h.2⟩, fun h => ⟨rfl, h.2⟩⟩

end

/-! ## Calls -/

/-- What is public of a caught error. -/
def Caught.publicPart : Caught → List (Bool × JsString) × Option JsString
  | .error message name => (publicText message, some name)
  | .other text => (publicText text, none)

/-- Two fields that may be missing. -/
def FieldsAgree (fields fields' : Option (List (JsString × Value N))) : Prop :=
  AgreeMembers (isSecretFieldKey lower) SamePublic (fields.getD []) (fields'.getD [])

/-- The bindings differ only under secret-named keys and in the userinfo of URLs. -/
structure BindingsAgree (bindings bindings' : LogBindings N) : Prop where
  correlation : bindings.correlation = bindings'.correlation
  fields : FieldsAgree lower bindings.fields bindings'.fields

structure CallsAgree (opts opts' : LogOptions N) : Prop where
  correlation : opts.correlation = opts'.correlation
  msg : opts.msg.map publicText = opts'.msg.map publicText
  durationMs : opts.durationMs = opts'.durationMs
  fields : FieldsAgree lower opts.fields opts'.fields
  err : opts.err.map Caught.publicPart = opts'.err.map Caught.publicPart

structure LoggersAgree (logger logger' : StructuredLogger N) : Prop where
  minLevel : logger.minLevel = logger'.minLevel
  baseCorrelation : logger.baseCorrelation = logger'.baseCorrelation
  baseFields : AgreeMembers (isSecretFieldKey lower) SamePublic logger.baseFields
    logger'.baseFields

/-- A logger, and the children of which it is the last. -/
def loggerOf (base : LogBindings N) (minLevel : Option LogLevel) (chain : List (LogBindings N)) :
    StructuredLogger N :=
  chain.foldl StructuredLogger.child (createStructuredLogger base minLevel)

theorem LoggersAgree.child {logger logger' : StructuredLogger N}
    {bindings bindings' : LogBindings N} (h : LoggersAgree lower logger logger')
    (hb : BindingsAgree lower bindings bindings') :
    LoggersAgree lower (logger.child bindings) (logger'.child bindings') where
  minLevel := h.minLevel
  baseCorrelation := by
    show logger.baseCorrelation.merge _ = logger'.baseCorrelation.merge _
    rw [h.baseCorrelation, hb.correlation]
  baseFields := AgreeMembers.setAll hb.fields h.baseFields

theorem loggersAgree_loggerOf {base base' : LogBindings N} (minLevel : Option LogLevel)
    {chain chain' : List (LogBindings N)} (hbase : BindingsAgree lower base base')
    (hchain : List.Forall₂ (BindingsAgree lower) chain chain') :
    LoggersAgree lower (loggerOf base minLevel chain) (loggerOf base' minLevel chain') := by
  have hstart : LoggersAgree lower (createStructuredLogger base minLevel)
      (createStructuredLogger base' minLevel) := by
    refine ⟨rfl, ?_, hbase.fields⟩
    show LogCorrelation.merge {} _ = LogCorrelation.merge {} _
    rw [hbase.correlation]
  rw [loggerOf, loggerOf]
  generalize createStructuredLogger base minLevel = logger at hstart ⊢
  generalize createStructuredLogger base' minLevel = logger' at hstart ⊢
  induction hchain generalizing logger logger' with
  | nil => exact hstart
  | cons hb _ ih => exact ih _ _ (hstart.child lower hb)

theorem agreeMembers_errorFields {hidden : JsString → Bool} {err err' : Option Caught}
    (h : err.map Caught.publicPart = err'.map Caught.publicPart) :
    AgreeMembers (N := N) hidden SamePublic (StructuredLogger.errorFields err)
      (StructuredLogger.errorFields err') := by
  cases err with
  | none =>
    cases err' with
    | none => trivial
    | some caught' => cases h
  | some caught =>
    cases err' with
    | none => cases h
    | some caught' =>
      have hpart := Option.some.inj h
      cases caught with
      | error message name =>
        cases caught' with
        | error message' name' =>
          obtain ⟨hmessage, hname⟩ := Prod.mk.inj hpart
          rw [StructuredLogger.errorFields, StructuredLogger.errorFields, Option.some.inj hname]
          exact ⟨rfl, Or.inr hmessage, agreeMembers_refl samePublic_refl _⟩
        | other text' => cases (Prod.mk.inj hpart).2
      | other text =>
        cases caught' with
        | error message' name' => cases (Prod.mk.inj hpart).2
        | other text' => exact ⟨rfl, Or.inr (Prod.mk.inj hpart).1, trivial⟩

/-- Merged fields of calls that agree, agree. -/
theorem agreeMembers_mergedFields {logger logger' : StructuredLogger N} {opts opts' : LogOptions N}
    (hlogger : LoggersAgree lower logger logger') (h : CallsAgree lower opts opts') :
    AgreeMembers (isSecretFieldKey lower) SamePublic (logger.mergedFields opts)
      (logger'.mergedFields opts') := by
  have hduration : AgreeMembers (isSecretFieldKey lower) SamePublic
      (StructuredLogger.durationFields opts.durationMs)
      (StructuredLogger.durationFields opts'.durationMs) := by
    rw [h.durationMs]
    exact agreeMembers_refl samePublic_refl _
  have hfields : AgreeMembers (isSecretFieldKey lower) SamePublic (opts.fields.getD [])
      (opts'.fields.getD []) := h.fields
  exact (agreeMembers_errorFields h.err).setAll
    (hduration.setAll (hfields.setAll hlogger.baseFields))

theorem getD_fields (fields : List (JsString × Value N)) [Decidable (fields = [])] :
    (if fields = [] then none else some fields).getD [] = fields := by
  by_cases h : fields = []
  · rw [if_pos h, h]
    rfl
  · rw [if_neg h]
    rfl

/-- What is promised of the events of two such calls. -/
structure Noninterfering (logger logger' : StructuredLogger N) (level : LogLevel)
    (event now : JsString) (opts opts' : LogOptions N) : Prop where
  same : logger.emit lower level event opts now = logger'.emit lower level event opts' now
  /-- Redaction leaves every other value. -/
  left : ∀ e, logger.emit lower level event opts now = some e →
    e.msg.map publicText = opts.msg.map publicText ∧
    AgreeMembers (isSecretFieldKey lower) SamePublic (logger.mergedFields opts) (e.fields.getD [])

/-- The condition on what is logged. -/
structure HidesSecrets (logger logger' : StructuredLogger N) (opts opts' : LogOptions N) :
    Prop where
  /-- The message is handed over as it is. -/
  msg : opts.msg = opts'.msg
  fields : AgreeMembers (isLost lower) HidesCredentials (logger.mergedFields opts)
    (logger'.mergedFields opts')
  untouched : UntouchedMembers lower (logger.mergedFields opts)

/-- Two loggers and two calls that agree: one event, and redaction leaves the rest unchanged,
exactly below the level or when all differing credentials are hidden. -/
theorem noninterfering_iff (base base' : LogBindings N) (minLevel : Option LogLevel)
    (chain chain' : List (LogBindings N)) (level : LogLevel) (event now : JsString)
    (opts opts' : LogOptions N) (hbase : BindingsAgree lower base base')
    (hchain : List.Forall₂ (BindingsAgree lower) chain chain')
    (hopts : CallsAgree lower opts opts') :
    Noninterfering lower (loggerOf base minLevel chain) (loggerOf base' minLevel chain') level
        event now opts opts' ↔
      level.priority < (minLevel.getD .info).priority ∨
      HidesSecrets lower (loggerOf base minLevel chain) (loggerOf base' minLevel chain') opts
        opts' := by
  have hlogger := loggersAgree_loggerOf lower minLevel hbase hchain
  have hmin : (loggerOf base minLevel chain).minLevel = minLevel.getD .info := by
    rw [loggerOf]
    generalize hstart : createStructuredLogger base minLevel = start
    have hmin : start.minLevel = minLevel.getD .info := by
      rw [← hstart]
      rfl
    clear hstart hchain hlogger
    induction chain generalizing start with
    | nil => exact hmin
    | cons bindings chain ih => exact ih (start.child bindings) hmin
  rw [← hmin]
  generalize loggerOf base minLevel chain = logger at hlogger ⊢
  generalize loggerOf base' minLevel chain' = logger' at hlogger ⊢
  have hagree := agreeMembers_mergedFields lower hlogger hopts
  by_cases hlevel : level.priority < logger.minLevel.priority
  · refine ⟨fun _ => Or.inl hlevel, fun _ => ⟨?_, fun e he => ?_⟩⟩
    · rw [StructuredLogger.emit, StructuredLogger.emit, ← hlogger.minLevel, if_pos hlevel,
        if_pos hlevel]
    · rw [StructuredLogger.emit, if_pos hlevel] at he
      cases he
  · have hemit : ∀ (l : StructuredLogger N) (o : LogOptions N), l.minLevel = logger.minLevel →
        l.emit lower level event o now = some {
          emittedAt := now
          level
          event
          msg := o.msg
          correlation := l.baseCorrelation.merge o.correlation
          fields := if redactMembers lower (l.mergedFields o) = [] then none
            else some (redactMembers lower (l.mergedFields o)) } := by
      intro l o hl
      rw [← hl] at hlevel
      exact if_neg hlevel
    have hfirst := hemit logger opts rfl
    have hsecond := hemit logger' opts' hlogger.minLevel.symm
    constructor
    · intro hpromises
      have hevent := hpromises.same
      rw [hfirst, hsecond] at hevent
      have hevent := Option.some.inj hevent
      have hleft := (hpromises.left _ hfirst).2
      rw [getD_fields] at hleft
      have hfields := congrArg (fun e => e.fields.getD []) hevent
      simp only [getD_fields] at hfields
      exact Or.inr ⟨congrArg StructuredLogEvent.msg hevent,
        (redactMembers_eq_iff lower _ _ hagree).mp hfields,
        (agreeMembers_redact_iff lower _).mp hleft⟩
    · rintro (hbelow | hhides)
      · exact absurd hbelow hlevel
      · have hfields := (redactMembers_eq_iff lower _ _ hagree).mpr hhides.fields
        refine ⟨?_, fun e he => ?_⟩
        · rw [hfirst, hsecond, hhides.msg, hopts.correlation, hfields, hlogger.baseCorrelation]
        · rw [hfirst] at he
          cases he
          rw [getD_fields]
          exact ⟨rfl, (agreeMembers_redact_iff lower _).mpr hhides.untouched⟩

theorem stringLogAdapter_eq_iff (logger : StructuredLogger N) (message message' now : JsString) :
    stringLogAdapter lower logger message now = stringLogAdapter lower logger message' now ↔
      LogLevel.info.priority < logger.minLevel.priority ∨ message = message' := by
  rw [stringLogAdapter, stringLogAdapter, StructuredLogger.emit, StructuredLogger.emit]
  by_cases hlevel : LogLevel.info.priority < logger.minLevel.priority
  · rw [if_pos hlevel, if_pos hlevel]
    exact ⟨fun _ => Or.inl hlevel, fun _ => rfl⟩
  · rw [if_neg hlevel, if_neg hlevel]
    constructor
    · intro h
      have hmsg := congrArg (StructuredLogEvent.msg ∘ fun e => e) (Option.some.inj h)
      exact Or.inr (Option.some.inj hmsg)
    · rintro (hbelow | rfl)
      · exact absurd hbelow hlevel
      · rfl

/-- `toLowerCase` of an ASCII key. -/
def asciiLowerCase (key : JsString) : JsString := key.map Net.asciiLower

/-- A call about a connection to a database. -/
def connectCall (password : JsString) : LogOptions Int where
  msg := some (ascii "connected")
  fields := some [(ascii "dbPassword", .str password),
    (ascii "worldUrl", .str (ascii "postgres://app:" ++ password ++ ascii "@db"))]

theorem noninterfering_connectCall :
    Noninterfering asciiLowerCase (loggerOf {} none []) (loggerOf {} none []) .info
      (ascii "worker.log") [] (connectCall (ascii "one")) (connectCall (ascii "two")) := by
  have hurl : SparesText (ascii "postgres://app:one@db") :=
    (publicText_redact_iff _).mp (by decide)
  have hhides : HidesCredentials (ascii "postgres://app:one@db") (ascii "postgres://app:two@db") :=
    (redact_eq_iff _ _).mp (by decide)
  refine (noninterfering_iff asciiLowerCase {} {} none [] [] .info (ascii "worker.log") []
    (connectCall (ascii "one")) (connectCall (ascii "two")) ⟨rfl, trivial⟩ .nil
    ⟨rfl, rfl, rfl, ⟨rfl, Or.inl (by decide), rfl, Or.inr ?_, trivial⟩, rfl⟩).mpr
    (Or.inr ⟨rfl, ⟨rfl, Or.inl (by decide), rfl, Or.inr hhides, trivial⟩,
      ⟨by decide, Or.inl (by decide), by decide, Or.inr hurl, trivial⟩⟩)
  show publicText (ascii "postgres://app:one@db") = publicText (ascii "postgres://app:two@db")
  decide

/-- `postgres://app:one@db` and `postgres://app:two@db`, as messages. -/
theorem message_credentials_kept :
    ¬ ∀ (base base' : LogBindings Int) (minLevel : Option LogLevel)
      (chain chain' : List (LogBindings Int)) (level : LogLevel) (event now : JsString)
      (opts opts' : LogOptions Int), BindingsAgree asciiLowerCase base base' →
      List.Forall₂ (BindingsAgree asciiLowerCase) chain chain' →
      CallsAgree asciiLowerCase opts opts' →
      Noninterfering asciiLowerCase (loggerOf base minLevel chain)
        (loggerOf base' minLevel chain') level event now opts opts' := by
  intro h
  have hagree : CallsAgree (N := Int) asciiLowerCase
      { msg := some (ascii "postgres://app:one@db") }
      { msg := some (ascii "postgres://app:two@db") } := by
    refine ⟨rfl, ?_, rfl, trivial, rfl⟩
    decide
  have hsame := (h {} {} none [] [] .info [] [] _ _ ⟨rfl, trivial⟩ .nil hagree).same
  have hmsg := congrArg (fun e => e.map StructuredLogEvent.msg) hsame
  exact absurd hmsg (by decide)

end InvisibleString.Logs
