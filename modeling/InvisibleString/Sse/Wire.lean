import InvisibleString.Sse.Follow

/- # `Sse.Wire` — the text of a run stream, written and read

The server writes each frame as a few `field: value` lines and a blank one
(`sendEventFrame`, `sendStatusFrame`), the payload as JSON on its `data:` line; comments and
`retry:` hints stand between the frames.  The client cuts the text it has received into
lines by a pattern (`SseParser`) and turns what a blank line closes into frames (`consume`).

Text is UTF-16 code units.  The pattern's `.` matches no line terminator of the language,
and U+2028 and U+2029 are two of them; the lines it looks for end in LF or CR only.
`JSON.stringify` leaves U+2028 and U+2029 as they are.

**Proved here.**

    text may be cut anywhere  (`feedAll_client`)
    what the client makes of a prefix of the stream  (`messages_of_isPrefix`)
    every frame arrives with its blank line, as it was sent
      ⟺  no string has U+2028 or U+2029, and the schemas accept  (`roundTrip_iff`)
-/

namespace InvisibleString.Sse

open Json Tailer

/-- JavaScript's numbers, as far as a stream needs them: natural numbers below 2⁵³ are exact
and print as decimal digits.  `toNat?` is the number where it is a non-negative integer,
`read` is `Number` on strings and the value of a JSON number token. -/
structure JsNumber (N : Type) extends NumberFormat N where
  ofNat : Nat → N
  toNat? : N → Option Nat
  print_ofNat : ∀ n < 2 ^ 53, print (ofNat n) = printNat n
  toNat?_ofNat : ∀ n < 2 ^ 53, toNat? (ofNat n) = some n

variable {N : Type} (J : JsNumber N)

/-- An event as it is stored: a JSON value whose objects list no key twice. -/
abbrev Payload (N : Type) := { v : Value N // v.KeysOnce }

/-! ## The server's side -/

def statusText : RunStatus → JsString
  | .queued => ascii "queued"
  | .running => ascii "running"
  | .waiting => ascii "waiting"
  | .succeeded => ascii "succeeded"
  | .failed => ascii "failed"
  | .canceled => ascii "canceled"

def RunEventFrame.json (frame : RunEventFrame (Payload N)) : Value N :=
  .obj ([(ascii "runId", .str frame.runId), (ascii "seq", .num (J.ofNat frame.seq)),
      (ascii "event", frame.event.val), (ascii "at", .str frame.at_)] ++
    (frame.eventId.map fun id => (ascii "eventId", Value.str id)).toList)

def errorJson : Option JsString → Value N
  | none => .null
  | some error => .str error

def RunStatusFrame.json (frame : RunStatusFrame) : Value N :=
  .obj ([(ascii "runId", .str frame.runId), (ascii "status", .str (statusText frame.status))] ++
    (frame.error.map fun error => (ascii "error", errorJson error)).toList)

/-- The lines of a chunk, without the blank one that ends it. -/
def Chunk.fields : Chunk (Payload N) → List JsString
  | .retry => [ascii "retry: 3000"]
  | .heartbeat => [ascii ": hb"]
  | .event frame =>
    [ascii "event: run_event", ascii "id: " ++ J.print (J.ofNat frame.seq),
      ascii "data: " ++ stringify J.toNumberFormat (frame.json J)]
  | .status frame =>
    [ascii "event: run_status", ascii "data: " ++ stringify J.toNumberFormat frame.json]

/-- Lines, each with its line feed. -/
def unlines (ls : List JsString) : JsString := ls.flatMap fun l => l ++ [0x0A]

/-- What `send` is given. -/
def Chunk.text (chunk : Chunk (Payload N)) : JsString := unlines (chunk.fields J) ++ [0x0A]

/-- One call of the server: a frame, a heartbeat or a retry hint. -/
def Connection.emit {E : Type} (c : Connection E) : Chunk E → Connection E
  | .event frame => c.sendEventFrame frame
  | .status frame => c.sendStatusFrame frame ⟨0, 0⟩
  | .heartbeat => c.send .heartbeat
  | .retry => c.send .retry

/-- What is written when the server is called for `sends`, in order. -/
def serverWrites {E : Type} (sends : List (Chunk E)) : List (Chunk E) :=
  (sends.foldl Connection.emit (.fresh none)).written

def wire (chunks : List (Chunk (Payload N))) : JsString := chunks.flatMap (Chunk.text J)

/-! ## The parser -/

structure SseMessage where
  event : JsString
  data : JsString
  id : Option JsString
  retry : Option Nat
  deriving DecidableEq

structure SseParser where
  buffer : JsString
  eventName : JsString
  dataLines : List JsString
  id : Option JsString
  retry : Option Nat
  deriving DecidableEq

/-- A line terminator of the language. -/
def isLineTerminator (c : CodeUnit) : Bool :=
  c == 0x0A || c == 0x0D || c == 0x2028 || c == 0x2029

/-- `buffer.match(/^(.*?)(\r\n|\n|\r)/)`: the line, and the buffer behind the match. -/
def matchLine (buffer : JsString) : Option (JsString × JsString) :=
  match buffer.dropWhile fun c => !isLineTerminator c with
  | [] => none
  | c :: rest =>
    if c = 0x0A then some (buffer.takeWhile fun c => !isLineTerminator c, rest)
    else if c = 0x0D then
      some (buffer.takeWhile fun c => !isLineTerminator c,
        if rest.head? = some 0x0A then rest.tail else rest)
    else none

namespace SseParser

def fresh : SseParser := ⟨[], [], [], none, none⟩

def dispatch (p : SseParser) : SseParser × Option SseMessage :=
  let message : SseMessage :=
    ⟨p.eventName, List.intercalate [0x0A] p.dataLines, p.id, p.retry⟩
  ({ p with eventName := [], dataLines := [], id := none, retry := none },
    -- a blank line with no data and no event is a keepalive boundary
    if message.data = [] ∧ message.event = [] ∧ message.id = none then
      if message.retry = none then none else some message
    else some message)

/-- The value behind the colon, less one leading blank. -/
def fieldValue (line : JsString) : JsString :=
  let value := (line.dropWhile (· ≠ unit ':')).tail
  if value.head? = some (unit ' ') then value.tail else value

def setRetry (p : SseParser) : Option Nat → SseParser
  | some ms => { p with retry := some ms }
  | none => p

def processLine (p : SseParser) (line : JsString) : SseParser × Option SseMessage :=
  if line = [] then p.dispatch
  else if line.head? = some (unit ':') then (p, none)
  else
    let field := line.takeWhile (· ≠ unit ':')
    let value := fieldValue line
    if field = ascii "event" then ({ p with eventName := value }, none)
    else if field = ascii "data" then ({ p with dataLines := p.dataLines ++ [value] }, none)
    else if field = ascii "id" then
      (if 0 ∈ value then p else { p with id := some value }, none)
    else if field = ascii "retry" then
      (p.setRetry ((J.read value).bind J.toNat?), none)
    else (p, none)

/-- The loop of `push`; a line takes a unit at least off the buffer. -/
def drain : Nat → SseParser → SseParser × List SseMessage
  | 0, p => (p, [])
  | n + 1, p =>
    match matchLine p.buffer with
    | none => (p, [])
    | some (line, rest) =>
      let r := { p with buffer := rest }.processLine J line
      let s := drain n r.1
      (s.1, r.2.toList ++ s.2)

def push (p : SseParser) (chunk : JsString) : SseParser × List SseMessage :=
  drain J (p.buffer ++ chunk).length { p with buffer := p.buffer ++ chunk }

end SseParser

/-! ## The client -/

/-- What a handler is given. -/
inductive Frame (E : Type) where
  | event (frame : RunEventFrame E)
  | status (frame : RunStatusFrame)

/-- The client's variables; `ended` says that `consume` has returned. -/
structure Client (N : Type) where
  lastEventId : Option Nat
  retryBase : Nat
  delivered : List (Frame (Value N))
  ended : Bool

def field (k : JsString) : Value N → Option (Value N)
  | .obj ms => OrderedMap.get? k ms
  | _ => none

/-- `z.string().min(1)`. -/
def nonemptyString : Option (Value N) → Option JsString
  | some (.str s) => if s = [] then none else some s
  | _ => none

/-- `z.string().min(1).optional()`. -/
def optionalString : Option (Value N) → Option (Option JsString)
  | none => some none
  | v => (nonemptyString v).map some

/-- `z.number().int().nonnegative()`; an `int` is a safe integer. -/
def naturalNumber : Option (Value N) → Option Nat
  | some (.num n) => (J.toNat? n).filter (· < 2 ^ 53)
  | _ => none

/-- `z.looseObject({ type: z.string().min(1) })`. -/
def typedObject (v : Option (Value N)) : Option (Value N) := do
  let v ← v
  let _ ← nonemptyString (field (ascii "type") v)
  some v

def runEventFrameSchema (v : Value N) : Option (RunEventFrame (Value N)) := do
  let runId ← nonemptyString (field (ascii "runId") v)
  let seq ← naturalNumber J (field (ascii "seq") v)
  let event ← typedObject (field (ascii "event") v)
  let at_ ← nonemptyString (field (ascii "at") v)
  let eventId ← optionalString (field (ascii "eventId") v)
  some ⟨runId, seq, event, at_, eventId⟩

def runStatusSchema : Option (Value N) → Option RunStatus
  | some (.str s) =>
    [RunStatus.queued, .running, .waiting, .succeeded, .failed, .canceled].find?
      fun status => statusText status = s
  | _ => none

/-- `z.string().nullable().optional()`. -/
def nullableString : Option (Value N) → Option (Option (Option JsString))
  | none => some none
  | some .null => some (some none)
  | some (.str s) => some (some (some s))
  | _ => none

def runStatusFrameSchema (v : Value N) : Option RunStatusFrame := do
  let runId ← nonemptyString (field (ascii "runId") v)
  let status ← runStatusSchema (field (ascii "status") v)
  let error ← nullableString (field (ascii "error") v)
  some ⟨runId, status, error⟩

def parseJson {α : Type} (data : JsString) (schema : Value N → Option α) : Option α :=
  (parse J.toNumberFormat data).bind schema

namespace Client

def onRunEvent (initialDelay : Nat) (c : Client N) (frame : RunEventFrame (Value N)) : Client N :=
  { c with retryBase := initialDelay, delivered := c.delivered ++ [.event frame] }

def onRunStatus (initialDelay : Nat) (c : Client N) (frame : RunStatusFrame) : Client N :=
  { c with
    retryBase := initialDelay
    delivered := c.delivered ++ [.status frame]
    ended := isStreamTerminalStatus frame.status }

/-- What `consume` does with a message; nothing once it has returned. -/
def handle (initialDelay : Nat) (c : Client N) (message : SseMessage) : Client N :=
  if c.ended then c
  else
    let c := match message.retry with
      | some ms => { c with retryBase := max 1 ms }
      | none => c
    let c := match (message.id.bind J.read).bind J.toNat? with
      | some seq => { c with lastEventId := some seq }
      | none => c
    if message.event = ascii "run_event" then
      match parseJson J message.data (runEventFrameSchema J) with
      | some frame => c.onRunEvent initialDelay frame
      | none => c
    else if message.event = ascii "run_status" then
      match parseJson J message.data runStatusFrameSchema with
      | some frame => c.onRunStatus initialDelay frame
      | none => c
    else c

end Client

/-- One connection being consumed. -/
structure Reader (N : Type) where
  parser : SseParser
  client : Client N

/-- One `reader.read()`, decoded. -/
def Reader.feed (initialDelay : Nat) (r : Reader N) (chunk : JsString) : Reader N :=
  if r.client.ended then r
  else
    let pushed := r.parser.push J chunk
    ⟨pushed.1, pushed.2.foldl (Client.handle J initialDelay) r.client⟩

/-- `consume` over the chunks of a connection. -/
def consume (initialDelay : Nat) (c : Client N) (chunks : List JsString) : Client N :=
  (chunks.foldl (Reader.feed J initialDelay) ⟨.fresh, c⟩).client

/-! ## Lines -/

section Lines

/-- No LF and no CR. -/
def NoBreak (s : JsString) : Prop := ∀ c ∈ s, c ≠ 0x0A ∧ c ≠ 0x0D

/-- No line terminator of the language. -/
def Clean (s : JsString) : Prop := ∀ c ∈ s, isLineTerminator c = false

variable {s l rest t : JsString}

theorem takeWhile_clean (h : Clean l) {c : CodeUnit} (hc : isLineTerminator c = true)
    (rest : JsString) :
    (l ++ c :: rest).takeWhile (fun c => !isLineTerminator c) = l ∧
      (l ++ c :: rest).dropWhile (fun c => !isLineTerminator c) = c :: rest := by
  have hl : ∀ d ∈ l, (!isLineTerminator d) = true := fun d hd => by rw [h d hd]; rfl
  rw [List.takeWhile_append_of_pos hl, List.dropWhile_append_of_pos hl, List.takeWhile_cons,
    List.dropWhile_cons, hc]
  exact ⟨List.append_nil l, rfl⟩

theorem matchLine_clean (h : Clean l) : matchLine (l ++ 0x0A :: rest) = some (l, rest) := by
  obtain ⟨htake, hdrop⟩ := takeWhile_clean h (c := 0x0A) rfl rest
  unfold matchLine
  rw [hdrop]
  simp only [if_true]
  rw [htake]

/-- A text splits at its first line terminator. -/
theorem clean_or_split (s : JsString) :
    Clean s ∨ ∃ l c rest, s = l ++ c :: rest ∧ Clean l ∧ isLineTerminator c = true := by
  induction s with
  | nil => exact Or.inl fun c hc => absurd hc List.not_mem_nil
  | cons c s ih =>
    rcases Bool.eq_false_or_eq_true (isLineTerminator c) with hc | hc
    · exact Or.inr ⟨[], c, s, rfl, fun d hd => absurd hd List.not_mem_nil, hc⟩
    · rcases ih with h | ⟨l, d, rest, rfl, hl, hd⟩
      · exact Or.inl fun d hd => (List.mem_cons.mp hd).elim (fun he => he ▸ hc) (h d)
      · exact Or.inr ⟨c :: l, d, rest, rfl,
          fun e he => (List.mem_cons.mp he).elim (fun h => h ▸ hc) (hl e), hd⟩

theorem matchLine_of_clean (h : Clean s) : matchLine s = none := by
  have hdrop : s.dropWhile (fun c => !isLineTerminator c) = [] := by
    rw [← List.append_nil s, List.dropWhile_append_of_pos fun c hc => by rw [h c hc]; rfl]
    rfl
  unfold matchLine
  rw [hdrop]

theorem matchLine_blocked (hs : NoBreak l) (hl : ¬ Clean l) : matchLine (l ++ rest) = none := by
  rcases clean_or_split l with h | ⟨l', c, r, rfl, hl', hc⟩
  · exact absurd h hl
  · obtain ⟨-, hdrop⟩ := takeWhile_clean hl' hc (r ++ rest)
    obtain ⟨hlf, hcr⟩ := hs c (List.mem_append_right _ List.mem_cons_self)
    unfold matchLine
    rw [List.append_assoc, List.cons_append, hdrop]
    simp only [if_neg hlf, if_neg hcr]

theorem matchLine_of_noBreak (h : NoBreak s) : matchLine s = none := by
  by_cases hs : Clean s
  · exact matchLine_of_clean hs
  · rw [← List.append_nil s]
    exact matchLine_blocked h hs

theorem mem_of_matchLine (h : matchLine s = some (l, rest)) {c : CodeUnit} (hc : c ∈ rest) :
    c ∈ s := by
  have hmem := (List.dropWhile_sublist (fun c => !isLineTerminator c) (l := s)).subset
  unfold matchLine at h
  revert h
  cases hd : s.dropWhile fun c => !isLineTerminator c with
  | nil =>
    intro h
    cases h
  | cons d r =>
    rw [hd] at hmem
    intro h
    dsimp only at h
    split at h
    · obtain ⟨-, rfl⟩ := Prod.mk.inj (Option.some.inj h)
      exact hmem (List.mem_cons_of_mem _ hc)
    split at h
    · obtain ⟨-, rfl⟩ := Prod.mk.inj (Option.some.inj h)
      split at hc
      · exact hmem (List.mem_cons_of_mem _ (List.mem_of_mem_tail hc))
      · exact hmem (List.mem_cons_of_mem _ hc)
    · cases h

theorem matchLine_eq_some (hcr : (0x0D : CodeUnit) ∉ s) (h : matchLine s = some (l, rest)) :
    s = l ++ 0x0A :: rest ∧ Clean l := by
  rcases clean_or_split s with hs | ⟨l', c, r, rfl, hl', hc⟩
  · rw [matchLine_of_clean hs] at h
    cases h
  · obtain ⟨htake, hdrop⟩ := takeWhile_clean hl' hc r
    unfold matchLine at h
    rw [hdrop, htake] at h
    dsimp only at h
    have hne : c ≠ 0x0D := by
      rintro rfl
      exact hcr (List.mem_append_right _ List.mem_cons_self)
    by_cases hlf : c = 0x0A
    · rw [if_pos hlf] at h
      obtain ⟨rfl, rfl⟩ := Prod.mk.inj (Option.some.inj h)
      exact ⟨by rw [hlf], hl'⟩
    · rw [if_neg hlf, if_neg hne] at h
      cases h

end Lines

/-! ## The parser's loop -/

namespace SseParser

variable {J}

theorem processLine_buffer (p : SseParser) (b line : JsString) :
    ({ p with buffer := b }.processLine J line) =
      ({ (p.processLine J line).1 with buffer := b }, (p.processLine J line).2) := by
  unfold processLine
  split
  · rfl
  split
  · rfl
  dsimp only
  split
  · rfl
  split
  · rfl
  split
  · split
    · rfl
    · rfl
  split
  · cases (J.read (fieldValue line)).bind J.toNat? with
    | none => rfl
    | some ms => rfl
  · rfl

theorem processLine_keeps_buffer (p : SseParser) (line : JsString) :
    (p.processLine J line).1.buffer = p.buffer := by
  have h := congrArg (fun r => r.1.buffer) (processLine_buffer (J := J) p p.buffer line)
  exact h

theorem processLine_none (p : SseParser) {line : JsString} (h : line ≠ []) :
    (p.processLine J line).2 = none := by
  unfold processLine
  rw [if_neg h]
  split
  · rfl
  dsimp only
  split
  · rfl
  split
  · rfl
  split
  · rfl
  split
  · rfl
  · rfl

end SseParser

namespace SseParser

variable {J}

/-- The loop of `push`, on what is in the buffer. -/
def run (J : JsNumber N) (p : SseParser) : SseParser × List SseMessage := drain J p.buffer.length p

theorem push_eq_run (p : SseParser) (chunk : JsString) :
    p.push J chunk = run J { p with buffer := p.buffer ++ chunk } := rfl

theorem length_of_matchLine {s l rest : JsString} (h : matchLine s = some (l, rest)) :
    rest.length < s.length := by
  unfold matchLine at h
  have hlen := (List.dropWhile_sublist (fun c => !isLineTerminator c) (l := s)).length_le
  revert h
  cases hd : s.dropWhile fun c => !isLineTerminator c with
  | nil =>
    intro h
    cases h
  | cons c r =>
    rw [hd, List.length_cons] at hlen
    intro h
    dsimp only at h
    split at h
    · obtain ⟨-, rfl⟩ := Prod.mk.inj (Option.some.inj h)
      omega
    split at h
    · obtain ⟨-, rfl⟩ := Prod.mk.inj (Option.some.inj h)
      split
      · rw [List.length_tail]
        omega
      · omega
    · cases h

theorem drain_eq_run (p : SseParser) (n : Nat) (hn : p.buffer.length ≤ n) :
    drain J n p = run J p := by
  unfold run
  generalize hm : p.buffer.length = m
  rw [hm] at hn
  induction m using Nat.strong_induction_on generalizing p n with
  | _ m ih =>
    cases hmatch : matchLine p.buffer with
    | none =>
      have hnone : ∀ k, drain J k p = (p, []) := by
        intro k
        cases k with
        | zero => rfl
        | succ k => rw [drain, hmatch]
      rw [hnone, hnone]
    | some r =>
      rcases r with ⟨line, rest⟩
      have hlt := length_of_matchLine hmatch
      obtain ⟨n, rfl⟩ : ∃ k, n = k + 1 := ⟨n - 1, by omega⟩
      obtain ⟨m, rfl⟩ : ∃ k, m = k + 1 := ⟨m - 1, by omega⟩
      rw [drain, drain, hmatch]
      dsimp only
      have hbuf : ({ p with buffer := rest }.processLine J line).1.buffer = rest :=
        processLine_keeps_buffer _ _
      rw [ih rest.length (by omega) _ n (by omega) (by rw [hbuf]),
        ih rest.length (by omega) _ m (by omega) (by rw [hbuf])]

theorem run_none {p : SseParser} (h : matchLine p.buffer = none) : run J p = (p, []) := by
  unfold run
  cases p.buffer.length with
  | zero => rfl
  | succ n => rw [drain, h]

theorem run_some {p : SseParser} {line rest : JsString}
    (h : matchLine p.buffer = some (line, rest)) :
    run J p = ((run J ({ p with buffer := rest }.processLine J line).1).1,
      ({ p with buffer := rest }.processLine J line).2.toList ++
        (run J ({ p with buffer := rest }.processLine J line).1).2) := by
  have hlt := length_of_matchLine h
  have hbuf : ({ p with buffer := rest }.processLine J line).1.buffer = rest :=
    processLine_keeps_buffer _ _
  obtain ⟨n, hn⟩ : ∃ k, p.buffer.length = k + 1 := ⟨p.buffer.length - 1, by omega⟩
  conv_lhs => unfold run
  rw [hn, drain, h]
  dsimp only
  rw [drain_eq_run _ n (by rw [hbuf]; omega)]

/-- The loop stops where no line is complete; what is left was the end of the buffer. -/
theorem run_drained (p : SseParser) :
    matchLine (run J p).1.buffer = none ∧ ∀ c ∈ (run J p).1.buffer, c ∈ p.buffer := by
  generalize hm : p.buffer.length = m
  induction m using Nat.strong_induction_on generalizing p with
  | _ m ih =>
    cases hmatch : matchLine p.buffer with
    | none =>
      rw [run_none hmatch]
      exact ⟨hmatch, fun c hc => hc⟩
    | some r =>
      rcases r with ⟨line, rest⟩
      have hlt := length_of_matchLine hmatch
      have hbuf : ({ p with buffer := rest }.processLine J line).1.buffer = rest :=
        processLine_keeps_buffer _ _
      rw [run_some hmatch]
      obtain ⟨hnone, hmem⟩ := ih rest.length (by omega) _ (congrArg List.length hbuf)
      refine ⟨hnone, fun c hc => ?_⟩
      have := hmem c hc
      rw [hbuf] at this
      exact mem_of_matchLine hmatch this

theorem run_append (p : SseParser) (t : JsString) (hcr : (0x0D : CodeUnit) ∉ p.buffer ++ t) :
    run J { p with buffer := p.buffer ++ t } =
      ((run J { (run J p).1 with buffer := (run J p).1.buffer ++ t }).1,
        (run J p).2 ++ (run J { (run J p).1 with buffer := (run J p).1.buffer ++ t }).2) := by
  generalize hm : p.buffer.length = m
  induction m using Nat.strong_induction_on generalizing p with
  | _ m ih =>
    cases hmatch : matchLine p.buffer with
    | none =>
      rw [run_none hmatch]
      rfl
    | some r =>
      rcases r with ⟨line, rest⟩
      have hlt := length_of_matchLine hmatch
      rw [List.mem_append, not_or] at hcr
      obtain ⟨heq, hclean⟩ := matchLine_eq_some hcr.1 hmatch
      have hmatch' : matchLine (p.buffer ++ t) = some (line, rest ++ t) := by
        rw [heq, List.append_assoc, List.cons_append]
        exact matchLine_clean hclean
      have hbuf : ({ p with buffer := rest }.processLine J line).1.buffer = rest :=
        processLine_keeps_buffer _ _
      have hstep : ({ p with buffer := rest ++ t }.processLine J line) =
          ({ ({ p with buffer := rest }.processLine J line).1 with
            buffer := ({ p with buffer := rest }.processLine J line).1.buffer ++ t },
            ({ p with buffer := rest }.processLine J line).2) := by
        rw [hbuf]
        exact processLine_buffer { p with buffer := rest } (rest ++ t) line
      have hcr' : (0x0D : CodeUnit) ∉
          ({ p with buffer := rest }.processLine J line).1.buffer ++ t := by
        rw [hbuf, List.mem_append, not_or]
        refine ⟨fun h => hcr.1 ?_, hcr.2⟩
        rw [heq]
        exact List.mem_append_right _ (List.mem_cons_of_mem _ h)
      rw [run_some (p := { p with buffer := p.buffer ++ t }) hmatch', run_some hmatch]
      dsimp only
      rw [hstep]
      dsimp only
      rw [ih rest.length (by omega) _ hcr' (congrArg List.length hbuf)]
      dsimp only
      rw [List.append_assoc]

/-- The messages of a text that comes in pieces. -/
def pushAll (J : JsNumber N) : SseParser → List JsString → List SseMessage
  | _, [] => []
  | p, chunk :: chunks => (p.push J chunk).2 ++ pushAll J (p.push J chunk).1 chunks

/-- A text may be cut anywhere. -/
theorem pushAll_eq_run (chunks : List JsString) (p : SseParser) (hp : matchLine p.buffer = none)
    (hcr : (0x0D : CodeUnit) ∉ p.buffer ++ chunks.flatten) :
    pushAll J p chunks = (run J { p with buffer := p.buffer ++ chunks.flatten }).2 := by
  induction chunks generalizing p with
  | nil =>
    rw [List.flatten_nil, List.append_nil, run_none hp]
    rfl
  | cons chunk chunks ih =>
    rw [List.flatten_cons, ← List.append_assoc] at hcr ⊢
    obtain ⟨hnone, hmem⟩ := run_drained (J := J) { p with buffer := p.buffer ++ chunk }
    rw [run_append { p with buffer := p.buffer ++ chunk } chunks.flatten hcr, pushAll,
      push_eq_run, ih _ hnone]
    rw [List.mem_append, not_or] at hcr ⊢
    exact ⟨fun h => hcr.1 (hmem _ h), hcr.2⟩

end SseParser

/-! ## The client's loop -/

section Client

variable {J} {d : Nat}

theorem handle_ended {c : Client N} (h : c.ended = true) (ms : List SseMessage) :
    ms.foldl (Client.handle J d) c = c := by
  induction ms with
  | nil => rfl
  | cons m ms ih => rw [List.foldl_cons, Client.handle, if_pos h, ih]

theorem feedAll_client (chunks : List JsString) (r : Reader N)
    (hp : matchLine r.parser.buffer = none)
    (hcr : (0x0D : CodeUnit) ∉ r.parser.buffer ++ chunks.flatten) :
    (chunks.foldl (Reader.feed J d) r).client =
      (r.parser.pushAll J chunks).foldl (Client.handle J d) r.client := by
  induction chunks generalizing r with
  | nil => rfl
  | cons chunk chunks ih =>
    rw [List.foldl_cons, SseParser.pushAll, List.foldl_append]
    rcases Bool.eq_false_or_eq_true r.client.ended with hend | hend
    · have hfeed : ∀ chunks : List JsString, chunks.foldl (Reader.feed J d) r = r := by
        intro chunks
        induction chunks with
        | nil => rfl
        | cons chunk chunks ih => rw [List.foldl_cons, Reader.feed, if_pos hend, ih]
      rw [Reader.feed, if_pos hend, hfeed, handle_ended hend, handle_ended hend]
    · rw [List.flatten_cons, ← List.append_assoc] at hcr
      obtain ⟨hnone, hmem⟩ := SseParser.run_drained (J := J)
        { r.parser with buffer := r.parser.buffer ++ chunk }
      rw [Reader.feed, if_neg (by rw [hend]; exact Bool.false_ne_true)]
      refine ih _ hnone ?_
      rw [List.mem_append, not_or] at hcr ⊢
      exact ⟨fun h => hcr.1 (hmem _ h), hcr.2⟩

/-- What the client makes of a stream without CR does not depend on how the stream was cut:
neither the messages nor, with frames that are dropped and the end of the run, its variables. -/
theorem consume_chunking (client : Client N) {chunks chunks' : List JsString}
    (hsame : chunks.flatten = chunks'.flatten) (hcr : (0x0D : CodeUnit) ∉ chunks.flatten) :
    SseParser.fresh.pushAll J chunks = SseParser.fresh.pushAll J chunks' ∧
      consume J d client chunks = consume J d client chunks' := by
  have hmessages : SseParser.fresh.pushAll J chunks = SseParser.fresh.pushAll J chunks' := by
    rw [SseParser.pushAll_eq_run chunks .fresh rfl hcr,
      SseParser.pushAll_eq_run chunks' .fresh rfl (hsame ▸ hcr), hsame]
  refine ⟨hmessages, ?_⟩
  rw [consume, consume, feedAll_client chunks ⟨.fresh, client⟩ rfl hcr,
    feedAll_client chunks' ⟨.fresh, client⟩ rfl (hsame ▸ hcr), hmessages]

end Client

/-! ## Reading a stream -/

/-- A frame of a chunk. -/
def Chunk.frame {E : Type} : Chunk E → Option (Frame E)
  | .event frame => some (.event frame)
  | .status frame => some (.status frame)
  | _ => none

/-- The JSON on a frame's data line. -/
def Frame.json : Frame (Payload N) → Value N
  | .event frame => frame.json J
  | .status frame => frame.json

/-- What a blank line hands on of a chunk. -/
def Chunk.message : Chunk (Payload N) → Option SseMessage
  | .retry => some ⟨[], [], none, some 3000⟩
  | .heartbeat => none
  | .event frame => some ⟨ascii "run_event", stringify J.toNumberFormat (frame.json J),
      some (J.print (J.ofNat frame.seq)), none⟩
  | .status frame =>
    some ⟨ascii "run_status", stringify J.toNumberFormat frame.json, none, none⟩

/-- No string of the value has a line or paragraph separator. -/
def Unseparated (v : Value N) : Prop := ¬ v.Mentions 0x2028 ∧ ¬ v.Mentions 0x2029

section Stream

variable {J}

theorem raw_lineSeparator : Raw 0x2028 := ⟨by decide, by decide, by decide⟩

theorem raw_paragraphSeparator : Raw 0x2029 := ⟨by decide, by decide, by decide⟩

theorem noBreak_stringify (v : Value N) : NoBreak (stringify J.toNumberFormat v) := by
  intro c hc
  have hge := ge_of_mem_stringify J.toNumberFormat v c hc
  constructor
  · rintro rfl
    exact absurd hge (by decide)
  · rintro rfl
    exact absurd hge (by decide)

theorem clean_stringify (v : Value N) :
    Clean (stringify J.toNumberFormat v) ↔ Unseparated v := by
  have hsep : ∀ c, isLineTerminator c = true → c ≠ 0x0A → c ≠ 0x0D → c = 0x2028 ∨ c = 0x2029 := by
    intro c hc hlf hcr
    simp only [isLineTerminator, Bool.or_eq_true, beq_iff_eq] at hc
    rcases hc with ((hc | hc) | hc) | hc
    · exact absurd hc hlf
    · exact absurd hc hcr
    · exact Or.inl hc
    · exact Or.inr hc
  constructor
  · intro h
    constructor
    · intro hm
      have := h _ ((raw_lineSeparator.mem_stringify J.toNumberFormat v).mpr hm)
      exact absurd this (by decide)
    · intro hm
      have := h _ ((raw_paragraphSeparator.mem_stringify J.toNumberFormat v).mpr hm)
      exact absurd this (by decide)
  · intro h c hc
    rcases Bool.eq_false_or_eq_true (isLineTerminator c) with ht | ht
    · obtain ⟨hlf, hcr⟩ := noBreak_stringify (J := J) v c hc
      rcases hsep c ht hlf hcr with rfl | rfl
      · exact absurd ((raw_lineSeparator.mem_stringify J.toNumberFormat v).mp hc) h.1
      · exact absurd ((raw_paragraphSeparator.mem_stringify J.toNumberFormat v).mp hc) h.2
    · exact ht

theorem Clean.append {s t : JsString} (hs : Clean s) (ht : Clean t) : Clean (s ++ t) :=
  fun c hc => (List.mem_append.mp hc).elim (hs c) (ht c)

theorem clean_of_printable {s : JsString} (h : s.all isPrintable = true) : Clean s := by
  intro c hc
  have hp := List.all_eq_true.mp h c hc
  rcases Bool.eq_false_or_eq_true (isLineTerminator c) with ht | ht
  · simp only [isLineTerminator, Bool.or_eq_true, beq_iff_eq] at ht
    rcases ht with ((rfl | rfl) | rfl) | rfl
    · exact absurd hp (by decide)
    · exact absurd hp (by decide)
    · exact absurd hp (by decide)
    · exact absurd hp (by decide)
  · exact ht

theorem clean_ascii_data : Clean (ascii "data: ") := clean_of_printable (by decide)

theorem clean_ascii_id : Clean (ascii "id: ") := clean_of_printable (by decide)

theorem clean_print (n : N) : Clean (J.print n) :=
  clean_of_printable (List.all_eq_true.mpr fun c hc =>
    isPrintable_of_isNumberUnit (J.isNumberUnit_of_mem n c hc))

/-- The data line can be read iff the frame is unseparated. -/
theorem clean_dataLine (v : Value N) :
    Clean (ascii "data: " ++ stringify J.toNumberFormat v) ↔ Unseparated v := by
  rw [← clean_stringify (J := J)]
  exact ⟨fun h c hc => h c (List.mem_append_right _ hc), fun h => clean_ascii_data.append h⟩

theorem Clean.noBreak {s : JsString} (h : Clean s) : NoBreak s := by
  intro c hc
  have := h c hc
  constructor
  · rintro rfl
    exact absurd this (by decide)
  · rintro rfl
    exact absurd this (by decide)

theorem NoBreak.append {s t : JsString} (hs : NoBreak s) (ht : NoBreak t) : NoBreak (s ++ t) :=
  fun c hc => (List.mem_append.mp hc).elim (hs c) (ht c)

/-! ### Lines of a stream -/

theorem run_line (p : SseParser) {l rest : JsString} (hl : Clean l) :
    SseParser.run J { p with buffer := l ++ 0x0A :: rest } =
      ((SseParser.run J { (p.processLine J l).1 with buffer := rest }).1,
        (p.processLine J l).2.toList ++
          (SseParser.run J { (p.processLine J l).1 with buffer := rest }).2) := by
  refine (SseParser.run_some (p := { p with buffer := l ++ 0x0A :: rest })
    (matchLine_clean hl)).trans ?_
  show ((SseParser.run J ({ p with buffer := rest }.processLine J l).1).1,
    ({ p with buffer := rest }.processLine J l).2.toList ++
      (SseParser.run J ({ p with buffer := rest }.processLine J l).1).2) = _
  rw [SseParser.processLine_buffer]

theorem unlines_cons (l : JsString) (ls : List JsString) :
    unlines (l :: ls) = l ++ 0x0A :: unlines ls := by
  rw [unlines, List.flatMap_cons, List.append_assoc]
  rfl

theorem prefix_append_cases {t a b : JsString} (h : t <+: a ++ b) :
    t <+: a ∨ ∃ t', t = a ++ t' ∧ t' <+: b := by
  rcases List.prefix_or_prefix_of_prefix h (List.prefix_append a b) with hta | ⟨t', rfl⟩
  · exact Or.inl hta
  · exact Or.inr ⟨t', rfl, (List.prefix_append_right_inj a).mp h⟩

/-- Lines that are not blank hand nothing on, however far they have arrived. -/
theorem run_silent (ls : List JsString) (hne : ∀ l ∈ ls, l ≠ []) (hnb : ∀ l ∈ ls, NoBreak l)
    (p : SseParser) {t : JsString} (ht : t <+: unlines ls) :
    (SseParser.run J { p with buffer := t }).2 = [] := by
  induction ls generalizing p t with
  | nil =>
    rw [List.prefix_nil.mp ht, SseParser.run_none rfl]
  | cons l ls ih =>
    rw [unlines_cons] at ht
    have hl := hnb l List.mem_cons_self
    have hshort : ∀ {t : JsString}, t <+: l → (SseParser.run J { p with buffer := t }).2 = [] := by
      intro t ht
      rw [SseParser.run_none]
      exact matchLine_of_noBreak fun c hc => hl c (ht.subset hc)
    rcases prefix_append_cases ht with ht | ⟨t', rfl, ht'⟩
    · exact hshort ht
    rcases List.prefix_cons_iff.mp ht' with rfl | ⟨t'', rfl, htl⟩
    · exact hshort (by rw [List.append_nil])
    by_cases hclean : Clean l
    · rw [run_line p hclean, SseParser.processLine_none p (hne l List.mem_cons_self)]
      exact ih (fun l hl => hne l (List.mem_cons_of_mem _ hl))
        (fun l hl => hnb l (List.mem_cons_of_mem _ hl)) _ htl
    · rw [SseParser.run_none]
      exact matchLine_blocked hl hclean

/-- A separator on one of them, and nothing behind it is handed on either. -/
theorem run_blocked (ls : List JsString) (hne : ∀ l ∈ ls, l ≠ []) (hnb : ∀ l ∈ ls, NoBreak l)
    (hsep : ∃ l ∈ ls, ¬ Clean l) (p : SseParser) (t : JsString) :
    (SseParser.run J { p with buffer := unlines ls ++ t }).2 = [] := by
  induction ls generalizing p with
  | nil =>
    obtain ⟨l, hl, -⟩ := hsep
    cases hl
  | cons l ls ih =>
    rw [unlines_cons, List.append_assoc, List.cons_append]
    by_cases hclean : Clean l
    · obtain ⟨l', hl', hsep'⟩ := hsep
      have hmem : l' ∈ ls := by
        rcases List.mem_cons.mp hl' with rfl | h
        · exact absurd hclean hsep'
        · exact h
      rw [run_line p hclean, SseParser.processLine_none p (hne l List.mem_cons_self)]
      exact ih (fun l hl => hne l (List.mem_cons_of_mem _ hl))
        (fun l hl => hnb l (List.mem_cons_of_mem _ hl)) ⟨l', hmem, hsep'⟩ _
    · rw [SseParser.run_none]
      exact matchLine_blocked (hnb l List.mem_cons_self) hclean

/-! ### One chunk -/

theorem noBreak_fields (chunk : Chunk (Payload N)) :
    ∀ l ∈ chunk.fields J, l ≠ [] ∧ NoBreak l := by
  have hclosed : ∀ s : String, ascii s ≠ [] → (ascii s).all isPrintable = true →
      ascii s ≠ [] ∧ NoBreak (ascii s) := fun s hne h => ⟨hne, (clean_of_printable h).noBreak⟩
  have hdata : ∀ v : Value N, ascii "data: " ++ stringify J.toNumberFormat v ≠ [] ∧
      NoBreak (ascii "data: " ++ stringify J.toNumberFormat v) :=
    fun v => ⟨List.cons_ne_nil _ _, clean_ascii_data.noBreak.append (noBreak_stringify v)⟩
  intro l hl
  cases chunk with
  | retry =>
    rw [List.mem_singleton.mp hl]
    exact hclosed _ (by decide) (by decide)
  | heartbeat =>
    rw [List.mem_singleton.mp hl]
    exact hclosed _ (by decide) (by decide)
  | event frame =>
    simp only [Chunk.fields, List.mem_cons, List.not_mem_nil, or_false] at hl
    rcases hl with rfl | rfl | rfl
    · exact hclosed _ (by decide) (by decide)
    · exact ⟨List.cons_ne_nil _ _, (clean_ascii_id.append (clean_print _)).noBreak⟩
    · exact hdata _
  | status frame =>
    simp only [Chunk.fields, List.mem_cons, List.not_mem_nil, or_false] at hl
    rcases hl with rfl | rfl
    · exact hclosed _ (by decide) (by decide)
    · exact hdata _

theorem clean_fields (chunk : Chunk (Payload N)) :
    (∀ l ∈ chunk.fields J, Clean l) ↔ ∀ frame ∈ chunk.frame, Unseparated (frame.json J) := by
  cases chunk with
  | retry =>
    refine iff_of_true (fun l hl => ?_) fun frame hframe => by cases hframe
    rw [List.mem_singleton.mp hl]
    exact clean_of_printable (by decide)
  | heartbeat =>
    refine iff_of_true (fun l hl => ?_) fun frame hframe => by cases hframe
    rw [List.mem_singleton.mp hl]
    exact clean_of_printable (by decide)
  | event frame =>
    constructor
    · intro h frame' hframe'
      rw [← Option.some.inj hframe']
      exact (clean_dataLine (J := J) _).mp (h _ (by simp [Chunk.fields, Frame.json]))
    · intro h l hl
      simp only [Chunk.fields, List.mem_cons, List.not_mem_nil, or_false] at hl
      rcases hl with rfl | rfl | rfl
      · exact clean_of_printable (by decide)
      · exact clean_ascii_id.append (clean_print _)
      · exact (clean_dataLine _).mpr (h _ rfl)
  | status frame =>
    constructor
    · intro h frame' hframe'
      rw [← Option.some.inj hframe']
      exact (clean_dataLine (J := J) _).mp (h _ (by simp [Chunk.fields, Frame.json]))
    · intro h l hl
      simp only [Chunk.fields, List.mem_cons, List.not_mem_nil, or_false] at hl
      rcases hl with rfl | rfl
      · exact clean_of_printable (by decide)
      · exact (clean_dataLine _).mpr (h _ rfl)

theorem splitField {f : JsString} (hf : unit ':' ∉ f) (v : JsString) :
    (f ++ unit ':' :: unit ' ' :: v).takeWhile (· ≠ unit ':') = f ∧
      SseParser.fieldValue (f ++ unit ':' :: unit ' ' :: v) = v := by
  have hall : ∀ c ∈ f, decide (c ≠ unit ':') = true := by
    intro c hc
    rw [decide_eq_true_eq]
    rintro rfl
    exact hf hc
  constructor
  · rw [List.takeWhile_append_of_pos hall]
    simp
  · unfold SseParser.fieldValue
    rw [List.dropWhile_append_of_pos hall]
    simp

theorem processLine_field (p : SseParser) {f : JsString} (hne : f ≠ []) (hf : unit ':' ∉ f)
    (v : JsString) : p.processLine J (f ++ unit ':' :: unit ' ' :: v) =
      if f = ascii "event" then ({ p with eventName := v }, none)
      else if f = ascii "data" then ({ p with dataLines := p.dataLines ++ [v] }, none)
      else if f = ascii "id" then (if 0 ∈ v then p else { p with id := some v }, none)
      else if f = ascii "retry" then
        (p.setRetry ((J.read v).bind J.toNat?), none)
      else (p, none) := by
  obtain ⟨hfield, hvalue⟩ := splitField hf v
  have hhead : (f ++ unit ':' :: unit ' ' :: v).head? ≠ some (unit ':') := by
    rcases f with _ | ⟨c, f⟩
    · exact absurd rfl hne
    · rw [List.cons_append, List.head?_cons]
      intro h
      exact hf (Option.some.inj h ▸ List.mem_cons_self)
  unfold SseParser.processLine
  rw [if_neg (by simp), if_neg hhead]
  dsimp only
  rw [hfield, hvalue]

theorem processLine_event (p : SseParser) (v : JsString) :
    p.processLine J (ascii "event: " ++ v) = ({ p with eventName := v }, none) := by
  have h := processLine_field (J := J) p (f := ascii "event") (by decide) (by decide) v
  rw [if_pos rfl] at h
  exact h

theorem processLine_data (p : SseParser) (v : JsString) :
    p.processLine J (ascii "data: " ++ v) = ({ p with dataLines := p.dataLines ++ [v] }, none) := by
  have h := processLine_field (J := J) p (f := ascii "data") (by decide) (by decide) v
  rw [if_neg (by decide), if_pos rfl] at h
  exact h

theorem processLine_id (p : SseParser) {v : JsString} (hv : 0 ∉ v) :
    p.processLine J (ascii "id: " ++ v) = ({ p with id := some v }, none) := by
  have h := processLine_field (J := J) p (f := ascii "id") (by decide) (by decide) v
  rw [if_neg (by decide), if_neg (by decide), if_pos rfl, if_neg hv] at h
  exact h

theorem processLine_retry (p : SseParser) {v : JsString} {ms : Nat}
    (hv : (J.read v).bind J.toNat? = some ms) :
    p.processLine J (ascii "retry: " ++ v) = ({ p with retry := some ms }, none) := by
  have h := processLine_field (J := J) p (f := ascii "retry") (by decide) (by decide) v
  rw [if_neg (by decide), if_neg (by decide), if_neg (by decide), if_pos rfl, hv] at h
  exact h

theorem processLine_blank (p : SseParser) (h : p.eventName ≠ []) :
    p.processLine J [] = ({ p with eventName := [], dataLines := [], id := none, retry := none },
      some ⟨p.eventName, List.intercalate [0x0A] p.dataLines, p.id, p.retry⟩) := by
  rw [SseParser.processLine, if_pos rfl, SseParser.dispatch]
  dsimp only
  rw [if_neg]
  exact fun hall => h hall.2.1

theorem zero_not_mem_print (n : N) : 0 ∉ J.print n := by
  intro h
  exact absurd (J.isNumberUnit_of_mem n 0 h) (by decide)

theorem read_retry : (J.read (ascii "3000")).bind J.toNat? = some 3000 := by
  have hprint : J.print (J.ofNat 3000) = ascii "3000" :=
    (J.print_ofNat 3000 (by decide)).trans (by decide +kernel)
  rw [← hprint, J.read_print]
  exact J.toNat?_ofNat 3000 (by decide)

/-- A chunk that can be read hands its message on and leaves the parser as it was. -/
theorem run_chunk (chunk : Chunk (Payload N))
    (hclean : ∀ frame ∈ chunk.frame, Unseparated (frame.json J)) (rest : JsString) :
    (SseParser.run J { SseParser.fresh with buffer := chunk.text J ++ rest }).2 =
      (chunk.message J).toList ++
        (SseParser.run J { SseParser.fresh with buffer := rest }).2 := by
  have hfields := (clean_fields (J := J) chunk).mpr hclean
  have hblank : Clean [] := fun c hc => absurd hc List.not_mem_nil
  have hone : ∀ data : JsString,
      List.intercalate [0x0A] (SseParser.fresh.dataLines ++ [data]) = data := by
    intro data
    simp [List.intercalate, SseParser.fresh]
  cases chunk with
  | retry =>
    show (SseParser.run J { SseParser.fresh with
      buffer := ascii "retry: 3000" ++ 0x0A :: ([] ++ 0x0A :: rest) }).2 = _
    have hline : SseParser.fresh.processLine J (ascii "retry: 3000") =
        ({ SseParser.fresh with retry := some 3000 }, none) := processLine_retry _ read_retry
    rw [run_line _ (hfields _ List.mem_cons_self), hline]
    dsimp only
    rw [run_line { SseParser.fresh with retry := some 3000 } hblank]
    rfl
  | heartbeat =>
    show (SseParser.run J { SseParser.fresh with
      buffer := ascii ": hb" ++ 0x0A :: ([] ++ 0x0A :: rest) }).2 = _
    have hline : SseParser.fresh.processLine J (ascii ": hb") = (SseParser.fresh, none) := rfl
    rw [run_line _ (hfields _ List.mem_cons_self), hline]
    dsimp only
    rw [run_line SseParser.fresh hblank]
    rfl
  | event frame =>
    generalize hdata : stringify J.toNumberFormat (frame.json J) = data at *
    have htext : (Chunk.event frame).text J ++ rest = ascii "event: run_event" ++ 0x0A ::
        ((ascii "id: " ++ J.print (J.ofNat frame.seq)) ++ 0x0A ::
          ((ascii "data: " ++ data) ++ 0x0A :: ([] ++ 0x0A :: rest))) := by
      rw [Chunk.text, Chunk.fields, hdata, unlines_cons, unlines_cons, unlines_cons]
      simp [unlines]
    rw [htext, run_line _ (hfields _ (by simp [Chunk.fields])),
      show ascii "event: run_event" = ascii "event: " ++ ascii "run_event" from rfl,
      processLine_event]
    dsimp only
    rw [run_line { SseParser.fresh with eventName := ascii "run_event" }
      (hfields _ (by simp [Chunk.fields])), processLine_id _ (zero_not_mem_print _)]
    dsimp only
    rw [run_line { SseParser.fresh with
      eventName := ascii "run_event", id := some (J.print (J.ofNat frame.seq)) }
      (hfields _ (by simp [Chunk.fields, hdata])), processLine_data]
    dsimp only
    rw [run_line { SseParser.fresh with
      eventName := ascii "run_event", id := some (J.print (J.ofNat frame.seq)),
      dataLines := SseParser.fresh.dataLines ++ [data] } hblank,
      processLine_blank _ (show ascii "run_event" ≠ [] by decide), Chunk.message, hdata]
    dsimp only
    rw [hone]
    rfl
  | status frame =>
    generalize hdata : stringify J.toNumberFormat frame.json = data at *
    have htext : (Chunk.status frame).text J ++ rest = ascii "event: run_status" ++ 0x0A ::
        ((ascii "data: " ++ data) ++ 0x0A :: ([] ++ 0x0A :: rest)) := by
      rw [Chunk.text, Chunk.fields, hdata, unlines_cons, unlines_cons]
      simp [unlines]
    rw [htext, run_line _ (hfields _ (by simp [Chunk.fields])),
      show ascii "event: run_status" = ascii "event: " ++ ascii "run_status" from rfl,
      processLine_event]
    dsimp only
    rw [run_line { SseParser.fresh with eventName := ascii "run_status" }
      (hfields _ (by simp [Chunk.fields, hdata])), processLine_data]
    dsimp only
    rw [run_line { SseParser.fresh with
      eventName := ascii "run_status", dataLines := SseParser.fresh.dataLines ++ [data] } hblank,
      processLine_blank _ (show ascii "run_status" ≠ [] by decide), Chunk.message, hdata]
    dsimp only
    rw [hone]
    rfl

/-! ### The whole stream -/

/-- The chunks whose blank line is among the first `n` units. -/
def arrived (J : JsNumber N) : List (Chunk (Payload N)) → Nat → List (Chunk (Payload N))
  | [], _ => []
  | chunk :: chunks, n =>
    if (chunk.text J).length ≤ n then chunk :: arrived J chunks (n - (chunk.text J).length)
    else []

/-- A prefix of the stream: the chunks that have arrived, and a piece of the next one. -/
theorem arrived_split (chunks : List (Chunk (Payload N))) {t : JsString}
    (ht : t <+: wire J chunks) :
    ∃ t', t = wire J (arrived J chunks t.length) ++ t' ∧
      (t' = [] ∨ ∃ chunk ∈ chunks, t' <+: unlines (chunk.fields J)) := by
  induction chunks generalizing t with
  | nil => exact ⟨[], by rw [List.prefix_nil.mp ht]; rfl, Or.inl rfl⟩
  | cons chunk chunks ih =>
    rw [wire, List.flatMap_cons] at ht
    rcases prefix_append_cases ht with hshort | ⟨t', rfl, ht'⟩
    · by_cases hlen : (chunk.text J).length ≤ t.length
      · have heq : t = chunk.text J := hshort.eq_of_length (Nat.le_antisymm hshort.length_le hlen)
        refine ⟨[], ?_, Or.inl rfl⟩
        rw [arrived, if_pos hlen, wire, List.flatMap_cons, heq, Nat.sub_self]
        have hnil : arrived J chunks 0 = [] := by
          cases chunks with
          | nil => rfl
          | cons c cs =>
            rw [arrived, if_neg]
            rw [Chunk.text, List.length_append, List.length_singleton]
            omega
        rw [hnil]
        simp
      · refine ⟨t, by rw [arrived, if_neg hlen]; rfl, Or.inr ⟨chunk, List.mem_cons_self, ?_⟩⟩
        rw [Chunk.text] at hshort hlen
        rcases prefix_append_cases hshort with h | ⟨t', rfl, -⟩
        · exact h
        · simp only [List.length_append, List.length_singleton] at hlen
          have : t' = [] := List.eq_nil_of_length_eq_zero (by omega)
          rw [this, List.append_nil]
    · obtain ⟨t'', heq, hpiece⟩ := ih ht'
      have hpiece' : t'' = [] ∨ ∃ c ∈ chunk :: chunks, t'' <+: unlines (c.fields J) := by
        rcases hpiece with h | ⟨c, hc, h⟩
        · exact Or.inl h
        · exact Or.inr ⟨c, List.mem_cons_of_mem _ hc, h⟩
      refine ⟨t'', ?_, hpiece'⟩
      rw [List.length_append, arrived, if_pos (Nat.le_add_right _ _), Nat.add_sub_cancel_left, wire,
        List.flatMap_cons, List.append_assoc]
      exact congrArg _ heq

theorem run_wire (chunks : List (Chunk (Payload N)))
    (hclean : ∀ chunk ∈ chunks, ∀ frame ∈ chunk.frame, Unseparated (frame.json J))
    (rest : JsString) :
    (SseParser.run J { SseParser.fresh with buffer := wire J chunks ++ rest }).2 =
      chunks.filterMap (Chunk.message J) ++
        (SseParser.run J { SseParser.fresh with buffer := rest }).2 := by
  induction chunks with
  | nil => rfl
  | cons chunk chunks ih =>
    rw [wire, List.flatMap_cons, List.append_assoc,
      run_chunk chunk (hclean chunk List.mem_cons_self)]
    have := ih fun c hc => hclean c (List.mem_cons_of_mem _ hc)
    rw [wire] at this
    rw [this, ← List.append_assoc]
    congr 1
    cases hm : chunk.message J with
    | none => rw [List.filterMap_cons_none hm]; rfl
    | some m => rw [List.filterMap_cons_some hm]; rfl

/-- The messages of a prefix of the stream: those of the chunks that have arrived. -/
theorem messages_of_isPrefix (chunks : List (Chunk (Payload N)))
    (hclean : ∀ chunk ∈ chunks, ∀ frame ∈ chunk.frame, Unseparated (frame.json J))
    {t : JsString} (ht : t <+: wire J chunks) :
    (SseParser.run J { SseParser.fresh with buffer := t }).2 =
      (arrived J chunks t.length).filterMap (Chunk.message J) := by
  obtain ⟨t', heq, hpiece⟩ := arrived_split chunks ht
  have hmem : ∀ chunk ∈ arrived J chunks t.length, chunk ∈ chunks := by
    intro chunk hc
    generalize t.length = n at hc
    clear ht heq hclean hpiece
    induction chunks generalizing n with
    | nil => cases hc
    | cons c cs ih =>
      rw [arrived] at hc
      split at hc
      · rcases List.mem_cons.mp hc with rfl | hc
        · exact List.mem_cons_self
        · exact List.mem_cons_of_mem _ (ih _ hc)
      · cases hc
  conv_lhs => rw [heq]
  rw [run_wire _ fun c hc => hclean c (hmem c hc)]
  have hnil : (SseParser.run J { SseParser.fresh with buffer := t' }).2 = [] := by
    rcases hpiece with rfl | ⟨chunk, -, hpre⟩
    · rw [SseParser.run_none rfl]
    · exact run_silent _ (fun l hl => (noBreak_fields chunk l hl).1)
        (fun l hl => (noBreak_fields chunk l hl).2) SseParser.fresh hpre
  rw [hnil, List.append_nil]

theorem messages_of_blocked (pre post : List (Chunk (Payload N))) (chunk : Chunk (Payload N))
    (hclean : ∀ chunk ∈ pre, ∀ frame ∈ chunk.frame, Unseparated (frame.json J))
    (hblocked : ¬ ∀ frame ∈ chunk.frame, Unseparated (frame.json J)) :
    (SseParser.run J { SseParser.fresh with buffer := wire J (pre ++ chunk :: post) }).2 =
      pre.filterMap (Chunk.message J) := by
  have hsep : ∃ l ∈ chunk.fields J, ¬ Clean l := by
    by_contra h
    refine hblocked ((clean_fields chunk).mp fun l hl => ?_)
    by_contra hl'
    exact h ⟨l, hl, hl'⟩
  have hwire : wire J (pre ++ chunk :: post) =
      wire J pre ++ (unlines (chunk.fields J) ++ ([0x0A] ++ wire J post)) := by
    simp [wire, Chunk.text]
  have hnil := run_blocked (J := J) _ (fun l hl => (noBreak_fields chunk l hl).1)
    (fun l hl => (noBreak_fields chunk l hl).2) hsep SseParser.fresh ([0x0A] ++ wire J post)
  rw [hwire, run_wire pre hclean, hnil, List.append_nil]

end Stream

/-! ## Frames -/

/-- A frame as the client holds it. -/
def RunEventFrame.value (frame : RunEventFrame (Payload N)) : RunEventFrame (Value N) :=
  ⟨frame.runId, frame.seq, frame.event.val, frame.at_, frame.eventId⟩

def Frame.value : Frame (Payload N) → Frame (Value N)
  | .event frame => .event frame.value
  | .status frame => .status frame

/-- What the schemas ask of a frame. -/
def Frame.Valid : Frame (Payload N) → Prop
  | .event frame => frame.runId ≠ [] ∧ frame.seq < 2 ^ 53 ∧
      nonemptyString (field (ascii "type") frame.event.val) ≠ none ∧ frame.at_ ≠ [] ∧
        frame.eventId ≠ some []
  | .status frame => frame.runId ≠ []

/-- What the client makes of a chunk's frame. -/
def Chunk.received : Chunk (Payload N) → Option (Frame (Value N))
  | .event frame => (runEventFrameSchema J (frame.json J)).map .event
  | .status frame => (runStatusFrameSchema (N := N) frame.json).map .status
  | _ => none

/-- A stream-terminal status. -/
def Chunk.terminal {E : Type} : Chunk E → Bool
  | .status frame => isStreamTerminalStatus frame.status
  | _ => false

def Frame.seq {E : Type} : Frame E → Option Nat
  | .event frame => some frame.seq
  | .status _ => none

/-- The number of the last event, if there is one. -/
def lastSeq {E : Type} (frames : List (Frame E)) : Option Nat :=
  (frames.filterMap Frame.seq).getLast?

section Frames

variable {J}

theorem keysOnce_eventJson (frame : RunEventFrame (Payload N)) : (frame.json J).KeysOnce := by
  rw [RunEventFrame.json, Value.KeysOnce]
  cases frame.eventId with
  | none =>
    refine ⟨?_, trivial, trivial, frame.event.property, trivial, trivial⟩
    show [ascii "runId", ascii "seq", ascii "event", ascii "at"].Nodup
    decide
  | some id =>
    refine ⟨?_, trivial, trivial, frame.event.property, trivial, trivial, trivial⟩
    show [ascii "runId", ascii "seq", ascii "event", ascii "at", ascii "eventId"].Nodup
    decide

theorem keysOnce_statusJson (frame : RunStatusFrame) : (frame.json (N := N)).KeysOnce := by
  rw [RunStatusFrame.json, Value.KeysOnce]
  rcases frame with ⟨runId, status, none | none | error⟩
  · refine ⟨?_, trivial, trivial, trivial⟩
    show [ascii "runId", ascii "status"].Nodup
    decide
  · refine ⟨?_, trivial, trivial, trivial, trivial⟩
    show [ascii "runId", ascii "status", ascii "error"].Nodup
    decide
  · refine ⟨?_, trivial, trivial, trivial, trivial⟩
    show [ascii "runId", ascii "status", ascii "error"].Nodup
    decide

theorem keysOnce_json (frame : Frame (Payload N)) : (frame.json J).KeysOnce := by
  cases frame with
  | event frame => exact keysOnce_eventJson frame
  | status frame => exact keysOnce_statusJson frame

theorem nonemptyString_str (s : JsString) :
    nonemptyString (some (.str s : Value N)) = if s = [] then none else some s := rfl

theorem nonemptyString_eq_some {s t : JsString} :
    nonemptyString (some (.str s : Value N)) = some t ↔ s ≠ [] ∧ s = t := by
  rw [nonemptyString_str]
  split
  · rename_i h
    exact ⟨fun h => absurd h (by simp), fun h' => absurd h h'.1⟩
  · rename_i h
    exact ⟨fun h' => ⟨h, Option.some.inj h'⟩, fun h' => congrArg some h'.2⟩

theorem naturalNumber_ofNat (n : Nat) :
    naturalNumber J (some (.num (J.ofNat n))) = some n ↔ n < 2 ^ 53 := by
  rw [naturalNumber, Option.filter_eq_some_iff, decide_eq_true_eq]
  exact ⟨fun h => h.2, fun h => ⟨J.toNat?_ofNat n h, h⟩⟩

theorem optionalString_str (s : Option JsString) :
    optionalString (s.map (Value.str (N := N))) = some s ↔ s ≠ some [] := by
  cases s with
  | none => exact ⟨fun _ => by decide, fun _ => rfl⟩
  | some s =>
    show (nonemptyString (some (.str s : Value N))).map some = some (some s) ↔ _
    rw [nonemptyString_str]
    split
    · rename_i h
      rw [h]
      exact ⟨fun h => absurd h (by simp), fun h => absurd rfl h⟩
    · rename_i h
      exact ⟨fun _ h' => h (Option.some.inj h'), fun _ => rfl⟩

theorem typedObject_some (v : Value N) :
    typedObject (some v) = some v ↔ nonemptyString (field (ascii "type") v) ≠ none := by
  show (nonemptyString (field (ascii "type") v)).bind (fun _ => some v) = some v ↔ _
  cases nonemptyString (field (ascii "type") v) with
  | none => exact ⟨fun h => absurd h (by simp), fun h => absurd rfl h⟩
  | some t => exact ⟨fun _ => by simp, fun _ => rfl⟩

/-- The schema takes exactly the valid event frames, and gives them back. -/
theorem runEventFrameSchema_json (frame : RunEventFrame (Payload N)) :
    runEventFrameSchema J (frame.json J) = some frame.value ↔ (Frame.event frame).Valid := by
  have hrun : field (ascii "runId") (frame.json J) = some (.str frame.runId) := rfl
  have hseq : field (ascii "seq") (frame.json J) = some (.num (J.ofNat frame.seq)) := rfl
  have hevent : field (ascii "event") (frame.json J) = some frame.event.val := rfl
  have hat : field (ascii "at") (frame.json J) = some (.str frame.at_) := rfl
  have hid : field (ascii "eventId") (frame.json J) = frame.eventId.map .str := by
    rw [RunEventFrame.json]
    cases frame.eventId with
    | none => rfl
    | some id => rfl
  rw [runEventFrameSchema, hrun, hseq, hevent, hat, hid]
  constructor
  · intro h
    simp only [Option.bind_eq_bind, Option.bind_eq_some_iff] at h
    obtain ⟨runId, hr, seq, hs, event, he, at_, ha, eventId, hi, heq⟩ := h
    obtain ⟨h1, h2, h3, h4, h5⟩ := RunEventFrame.mk.inj (Option.some.inj heq)
    subst h1 h2 h3 h4 h5
    exact ⟨(nonemptyString_eq_some.mp hr).1, (naturalNumber_ofNat _).mp hs,
      (typedObject_some _).mp he, (nonemptyString_eq_some.mp ha).1, (optionalString_str _).mp hi⟩
  · rintro ⟨hr, hs, he, ha, hi⟩
    rw [nonemptyString_eq_some.mpr ⟨hr, rfl⟩, (naturalNumber_ofNat _).mpr hs,
      (typedObject_some _).mpr he, nonemptyString_eq_some.mpr ⟨ha, rfl⟩,
      (optionalString_str _).mpr hi]
    rfl

theorem runStatusFrameSchema_json (frame : RunStatusFrame) :
    runStatusFrameSchema (frame.json (N := N)) = if frame.runId = [] then none else some frame := by
  have hrun : field (ascii "runId") (frame.json (N := N)) = some (.str frame.runId) := rfl
  have hstatus : runStatusSchema (field (ascii "status") (frame.json (N := N))) =
      some frame.status := by
    show runStatusSchema (some (.str (statusText frame.status) : Value N)) = some frame.status
    cases frame.status with
    | queued => rfl
    | running => rfl
    | waiting => rfl
    | succeeded => rfl
    | failed => rfl
    | canceled => rfl
  have herror : nullableString (field (ascii "error") (frame.json (N := N))) =
      some frame.error := by
    rw [RunStatusFrame.json]
    rcases frame.error with _ | _ | error
    · rfl
    · rfl
    · rfl
  rw [runStatusFrameSchema, hrun, hstatus, herror, nonemptyString_str]
  split
  · rfl
  · rfl

end Frames

/-! ## The client over a stream -/

section Stream

variable {J} {d : Nat}

theorem parseJson_stringify {α : Type} (frame : Frame (Payload N)) (schema : Value N → Option α) :
    parseJson J (stringify J.toNumberFormat (frame.json J)) schema = schema (frame.json J) := by
  rw [parseJson, parse_stringify _ _ (keysOnce_json frame)]
  rfl

theorem handle_retry {c : Client N} (hc : c.ended = false) :
    Client.handle J d c ⟨[], [], none, some 3000⟩ = { c with retryBase := 3000 } := by
  rw [Client.handle, if_neg (by rw [hc]; exact Bool.false_ne_true)]
  rfl

theorem handle_event {c : Client N} (hc : c.ended = false) (frame : RunEventFrame (Payload N)) :
    Client.handle J d c ⟨ascii "run_event", stringify J.toNumberFormat (frame.json J),
        some (J.print (J.ofNat frame.seq)), none⟩ =
      let c' := { c with lastEventId := (J.toNat? (J.ofNat frame.seq)).or c.lastEventId }
      (runEventFrameSchema J (frame.json J)).elim c' (c'.onRunEvent d) := by
  rw [Client.handle, if_neg (by rw [hc]; exact Bool.false_ne_true)]
  dsimp only
  rw [Option.bind_some, J.read_print, Option.bind_some, if_pos rfl,
    show RunEventFrame.json J frame = (Frame.event frame).json J from rfl, parseJson_stringify]
  cases J.toNat? (J.ofNat frame.seq) with
  | none =>
    cases runEventFrameSchema J ((Frame.event frame).json J) with
    | none => rfl
    | some f => rfl
  | some n =>
    cases runEventFrameSchema J ((Frame.event frame).json J) with
    | none => rfl
    | some f => rfl

theorem handle_status {c : Client N} (hc : c.ended = false) (frame : RunStatusFrame) :
    Client.handle J d c ⟨ascii "run_status", stringify J.toNumberFormat frame.json, none, none⟩ =
      if frame.runId = [] then c else c.onRunStatus d frame := by
  rw [Client.handle, if_neg (by rw [hc]; exact Bool.false_ne_true)]
  dsimp only
  rw [if_neg (by decide), if_pos rfl,
    show (frame.json : Value N) = (Frame.status frame).json J from rfl, parseJson_stringify]
  have hs : runStatusFrameSchema ((Frame.status frame).json J) =
      if frame.runId = [] then none else some frame := runStatusFrameSchema_json frame
  by_cases hid : frame.runId = []
  · rw [hs, if_pos hid, if_pos hid]
    rfl
  · rw [hs, if_neg hid, if_neg hid]
    rfl

/-- A chunk read by a client that still reads. -/
def Client.read (J : JsNumber N) (d : Nat) (c : Client N) (chunk : Chunk (Payload N)) : Client N :=
  (chunk.message J).toList.foldl (Client.handle J d) c

theorem read_delivered {c : Client N} (hc : c.ended = false) (chunk : Chunk (Payload N)) :
    (c.read J d chunk).delivered = c.delivered ++ (chunk.received J).toList ∧
      ((c.read J d chunk).ended = true → chunk.terminal = true) := by
  have hne : ¬ (c.ended = true) := by rw [hc]; exact Bool.false_ne_true
  cases chunk with
  | retry =>
    have heq : c.read J d .retry = { c with retryBase := 3000 } :=
      handle_retry (J := J) (d := d) hc
    rw [heq]
    exact ⟨(List.append_nil _).symm, fun h => absurd h hne⟩
  | heartbeat => exact ⟨(List.append_nil _).symm, fun h => absurd h hne⟩
  | event frame =>
    have heq := handle_event (J := J) (d := d) hc frame
    show (Client.handle J d c _).delivered = _ ∧ ((Client.handle J d c _).ended = true → _)
    rw [heq, Chunk.received]
    cases runEventFrameSchema J (frame.json J) with
    | none => exact ⟨(List.append_nil _).symm, fun h => absurd h hne⟩
    | some f => exact ⟨rfl, fun h => absurd h hne⟩
  | status frame =>
    have heq := handle_status (J := J) (d := d) hc frame
    show (Client.handle J d c _).delivered = _ ∧ ((Client.handle J d c _).ended = true → _)
    rw [heq, Chunk.received, runStatusFrameSchema_json]
    by_cases hid : frame.runId = []
    · rw [if_pos hid, if_pos hid]
      exact ⟨(List.append_nil _).symm, fun h => absurd h hne⟩
    · rw [if_neg hid, if_neg hid]
      exact ⟨rfl, fun h => h⟩

/-- The cursor after a chunk: the number of its event. -/
theorem read_lastEventId {c : Client N} (hc : c.ended = false) (chunk : Chunk (Payload N))
    (hvalid : ∀ frame ∈ chunk.frame, frame.Valid) :
    (c.read J d chunk).lastEventId = (lastSeq chunk.frame.toList).or c.lastEventId := by
  cases chunk with
  | retry =>
    have heq : c.read J d .retry = { c with retryBase := 3000 } :=
      handle_retry (J := J) (d := d) hc
    rw [heq]
    rfl
  | heartbeat => rfl
  | event frame =>
    have heq := handle_event (J := J) (d := d) hc frame
    obtain ⟨-, hseq, -⟩ := hvalid _ rfl
    show (Client.handle J d c _).lastEventId = _
    rw [heq, J.toNat?_ofNat _ hseq]
    cases runEventFrameSchema J (frame.json J) with
    | none => rfl
    | some f => rfl
  | status frame =>
    have heq := handle_status (J := J) (d := d) hc frame
    show (Client.handle J d c _).lastEventId = _
    rw [heq]
    split
    · rfl
    · rfl

theorem lastSeq_append {E : Type} (a b : List (Frame E)) :
    lastSeq (a ++ b) = (lastSeq b).or (lastSeq a) := by
  rw [lastSeq, List.filterMap_append, List.getLast?_append]
  rfl

theorem foldl_read (chunks : List (Chunk (Payload N)))
    (hlast : ∀ chunk ∈ chunks.dropLast, chunk.terminal = false) {c : Client N}
    (hc : c.ended = false) :
    ((chunks.filterMap (Chunk.message J)).foldl (Client.handle J d) c).delivered =
        c.delivered ++ chunks.filterMap (Chunk.received J) ∧
      ((∀ chunk ∈ chunks, ∀ frame ∈ chunk.frame, frame.Valid) →
        ((chunks.filterMap (Chunk.message J)).foldl (Client.handle J d) c).lastEventId =
          (lastSeq (chunks.filterMap Chunk.frame)).or c.lastEventId) := by
  induction chunks generalizing c with
  | nil => exact ⟨(List.append_nil _).symm, fun _ => rfl⟩
  | cons chunk chunks ih =>
    have hmsgs : (chunk :: chunks).filterMap (Chunk.message J) =
        (chunk.message J).toList ++ chunks.filterMap (Chunk.message J) := by
      cases hm : chunk.message J with
      | none => rw [List.filterMap_cons_none hm]; rfl
      | some m => rw [List.filterMap_cons_some hm]; rfl
    have hrecv : (chunk :: chunks).filterMap (Chunk.received J) =
        (chunk.received J).toList ++ chunks.filterMap (Chunk.received J) := by
      cases hm : chunk.received J with
      | none => rw [List.filterMap_cons_none hm]; rfl
      | some m => rw [List.filterMap_cons_some hm]; rfl
    have hframes : (chunk :: chunks).filterMap Chunk.frame =
        chunk.frame.toList ++ chunks.filterMap Chunk.frame := by
      cases hm : chunk.frame with
      | none => rw [List.filterMap_cons_none hm]; rfl
      | some m => rw [List.filterMap_cons_some hm]; rfl
    obtain ⟨hdel, hend⟩ := read_delivered (J := J) (d := d) hc chunk
    rw [hmsgs, hrecv, hframes, List.foldl_append, ← List.append_assoc, ← hdel]
    show ((chunks.filterMap (Chunk.message J)).foldl (Client.handle J d)
      (c.read J d chunk)).delivered = _ ∧ (_ → ((chunks.filterMap (Chunk.message J)).foldl
        (Client.handle J d) (c.read J d chunk)).lastEventId = _)
    have hid : (∀ chunk' ∈ chunk :: chunks, ∀ frame ∈ chunk'.frame, frame.Valid) →
        (c.read J d chunk).lastEventId = (lastSeq chunk.frame.toList).or c.lastEventId :=
      fun hv => read_lastEventId hc chunk (hv chunk List.mem_cons_self)
    cases chunks with
    | nil =>
      refine ⟨(List.append_nil _).symm, fun hv => ?_⟩
      show (c.read J d chunk).lastEventId = _
      rw [hid hv]
      simp
    | cons chunk' chunks =>
      have hopen : (c.read J d chunk).ended = false := by
        rcases Bool.eq_false_or_eq_true (c.read J d chunk).ended with h | h
        · have := hlast chunk (by rw [List.dropLast_cons_cons]; exact List.mem_cons_self)
          rw [hend h] at this
          exact absurd this (by decide)
        · exact h
      obtain ⟨hdel', hid'⟩ := ih (fun x hx => hlast x
        (by rw [List.dropLast_cons_cons]; exact List.mem_cons_of_mem _ hx)) hopen
      refine ⟨hdel', fun hv => ?_⟩
      rw [hid' fun x hx => hv x (List.mem_cons_of_mem _ hx), hid hv, lastSeq_append]
      cases lastSeq (List.filterMap Chunk.frame (chunk' :: chunks)) with
      | none => rfl
      | some n => rfl

end Stream

/-! ## What the server writes -/

section Server

variable {E : Type}

/-- Nothing is written behind a stream-terminal status. -/
structure EndsOnce (c : Connection E) : Prop where
  errored : c.errored = false
  open_ : c.closed = false → ∀ chunk ∈ c.written, chunk.terminal = false
  last : ∀ chunk ∈ c.written.dropLast, chunk.terminal = false

theorem EndsOnce.send {c : Connection E} (h : EndsOnce c) (chunk : Chunk E)
    (ht : chunk.terminal = false) : EndsOnce (c.send chunk) := by
  rw [Connection.send]
  split
  · exact h
  · rename_i hopen
    rw [Bool.not_eq_true] at hopen
    rw [if_neg (by rw [h.errored]; exact Bool.false_ne_true)]
    refine ⟨h.errored, fun _ x hx => ?_, fun x hx => ?_⟩
    · rcases List.mem_append.mp hx with hx | hx
      · exact h.open_ hopen x hx
      · rw [List.mem_singleton.mp hx]
        exact ht
    · rw [List.dropLast_concat] at hx
      exact h.open_ hopen x hx

theorem EndsOnce.emit {c : Connection E} (h : EndsOnce c) (chunk : Chunk E) :
    EndsOnce (c.emit chunk) := by
  cases chunk with
  | retry => exact h.send _ rfl
  | heartbeat => exact h.send _ rfl
  | event frame => exact h.send _ rfl
  | status frame =>
    rw [Connection.emit, Connection.sendStatusFrame]
    split
    · rcases Bool.eq_false_or_eq_true c.closed with hc | hc
      · rw [Connection.send, if_pos hc, Connection.close, if_pos hc]
        exact h
      · have hno : ¬ c.closed = true := by rw [hc]; exact Bool.false_ne_true
        have hsend : c.send (.status frame) = { c with written := c.written ++ [.status frame] } := by
          rw [Connection.send, if_neg hno, if_neg (by rw [h.errored]; exact Bool.false_ne_true)]
        rw [hsend, Connection.close, if_neg hno]
        refine ⟨h.errored, fun hc' => absurd hc' (by simp [Connection.cleanup]), fun x hx => ?_⟩
        have hx' : x ∈ (c.written ++ [Chunk.status frame]).dropLast := hx
        rw [List.dropLast_concat] at hx'
        exact h.open_ hc x hx'
    · rename_i ht
      rw [Bool.not_eq_true] at ht
      exact h.send _ ht

theorem serverWrites_endsOnce (sends : List (Chunk E)) :
    ∀ chunk ∈ (serverWrites sends).dropLast, chunk.terminal = false := by
  suffices h : ∀ c : Connection E, EndsOnce c → EndsOnce (sends.foldl Connection.emit c) by
    refine (h _ ⟨rfl, fun _ x hx => ?_, fun x hx => ?_⟩).last
    · cases hx
    · cases hx
  induction sends with
  | nil => exact fun c h => h
  | cons chunk sends ih => exact fun c h => ih _ (h.emit chunk)

end Server

/-! ## Round trip -/

/-- A message carries a frame: its name, its JSON value, and an event's number as the id. -/
def Carries (J : JsNumber N) (message : SseMessage) : Frame (Payload N) → Prop
  | .event frame => message.event = ascii "run_event" ∧
      parse J.toNumberFormat message.data = some (frame.json J) ∧
        message.id = some (printNat frame.seq)
  | .status frame => message.event = ascii "run_status" ∧
      parse J.toNumberFormat message.data = some frame.json ∧ message.id = none

/-- The pieces of a stream's beginning hand on exactly `frames`, in order, and leave the
cursor at the last event. -/
structure Delivers (J : JsNumber N) (pieces : List JsString) (frames : List (Frame (Payload N))) :
    Prop where
  messages : List.Forall₂ (Carries J)
    ((SseParser.fresh.pushAll J pieces).filter fun message => message.event ≠ []) frames
  delivered : ∀ initialDelay (client : Client N), client.ended = false →
    (consume J initialDelay client pieces).delivered = client.delivered ++ frames.map Frame.value
  lastEventId : ∀ initialDelay (client : Client N), client.ended = false →
    (consume J initialDelay client pieces).lastEventId =
      (lastSeq frames).or client.lastEventId

/-- The wire round trip of what the server writes for `sends`: however its text is cut, each
frame is delivered as soon as its blank line has arrived. -/
def RoundTrip (J : JsNumber N) (sends : List (Chunk (Payload N))) : Prop :=
  ∀ pieces : List JsString, pieces.flatten <+: wire J (serverWrites sends) →
    Delivers J pieces ((arrived J (serverWrites sends) pieces.flatten.length).filterMap Chunk.frame)

/-- Every frame the server writes passes the schemas, and none of its strings has U+2028 or
U+2029. -/
def Readable (J : JsNumber N) (sends : List (Chunk (Payload N))) : Prop :=
  ∀ chunk ∈ serverWrites sends, ∀ frame ∈ chunk.frame, frame.Valid ∧ Unseparated (frame.json J)

section RoundTrip

variable {J}

theorem cr_not_mem {chunks : List (Chunk (Payload N))} {t : JsString}
    (ht : t <+: wire J chunks) : (0x0D : CodeUnit) ∉ t := by
  intro h
  obtain ⟨chunk, -, hc⟩ := List.mem_flatMap.mp (ht.subset h)
  rw [Chunk.text, List.mem_append] at hc
  rcases hc with hc | hc
  · obtain ⟨l, hl, hc⟩ := List.mem_flatMap.mp hc
    rcases List.mem_append.mp hc with hc | hc
    · exact ((noBreak_fields chunk l hl).2 _ hc).2 rfl
    · revert hc
      decide
  · revert hc
    decide

/-- The client over the pieces of a stream's beginning. -/
theorem consume_eq (d : Nat) (client : Client N) {chunks : List (Chunk (Payload N))}
    {pieces : List JsString} (ht : pieces.flatten <+: wire J chunks) :
    consume J d client pieces =
        (SseParser.run J { SseParser.fresh with buffer := pieces.flatten }).2.foldl
          (Client.handle J d) client ∧
      SseParser.fresh.pushAll J pieces =
        (SseParser.run J { SseParser.fresh with buffer := pieces.flatten }).2 := by
  have hpush := SseParser.pushAll_eq_run (J := J) pieces SseParser.fresh rfl
    (cr_not_mem ht)
  refine ⟨?_, hpush⟩
  have hclient := feedAll_client (J := J) (d := d) pieces ⟨SseParser.fresh, client⟩ rfl
    (cr_not_mem ht)
  exact hclient.trans (congrArg (List.foldl (Client.handle J d) client) hpush)

theorem received_eq_value (chunk : Chunk (Payload N))
    (hvalid : ∀ frame ∈ chunk.frame, frame.Valid) :
    chunk.received J = chunk.frame.map Frame.value := by
  cases chunk with
  | retry => rfl
  | heartbeat => rfl
  | event frame =>
    rw [Chunk.received, (runEventFrameSchema_json frame).mpr (hvalid _ rfl)]
    rfl
  | status frame =>
    rw [Chunk.received, runStatusFrameSchema_json, if_neg (hvalid (.status frame) rfl)]
    rfl

theorem received_of_frame {chunk : Chunk (Payload N)} (h : chunk.frame = none) :
    chunk.received J = none := by
  cases chunk with
  | retry => rfl
  | heartbeat => rfl
  | event frame => cases h
  | status frame => cases h

theorem valid_of_received {chunk : Chunk (Payload N)} {frame : Frame (Payload N)}
    (hf : chunk.frame = some frame) (h : chunk.received J = some frame.value) : frame.Valid := by
  cases chunk with
  | retry => cases hf
  | heartbeat => cases hf
  | event f =>
    cases hf
    rw [Chunk.received] at h
    cases hs : runEventFrameSchema J (f.json J) with
    | none =>
      rw [hs] at h
      cases h
    | some g =>
      rw [hs] at h
      have hg : g = f.value := Frame.event.inj (Option.some.inj h)
      exact (runEventFrameSchema_json f).mp (by rw [hs, hg])
  | status f =>
    cases hf
    rw [Chunk.received, runStatusFrameSchema_json] at h
    intro hid
    rw [if_pos hid] at h
    cases h

theorem length_received_le (chunks : List (Chunk (Payload N))) :
    (chunks.filterMap (Chunk.received J)).length ≤ (chunks.filterMap Chunk.frame).length := by
  induction chunks with
  | nil => exact Nat.le_refl _
  | cons c cs ih =>
    cases hf : c.frame with
    | none =>
      rw [List.filterMap_cons_none hf, List.filterMap_cons_none (received_of_frame hf)]
      exact ih
    | some f =>
      rw [List.filterMap_cons_some hf, List.length_cons]
      cases hr : c.received J with
      | none =>
        rw [List.filterMap_cons_none hr]
        exact Nat.le_succ_of_le ih
      | some g =>
        rw [List.filterMap_cons_some hr, List.length_cons]
        exact Nat.succ_le_succ ih

/-- Frames received as they were sent, of chunks the client could read. -/
theorem all_received {chunks : List (Chunk (Payload N))}
    (h : chunks.filterMap (Chunk.received J) = (chunks.filterMap Chunk.frame).map Frame.value) :
    ∀ chunk ∈ chunks, ∀ frame ∈ chunk.frame, frame.Valid := by
  induction chunks with
  | nil => exact fun chunk hc => absurd hc List.not_mem_nil
  | cons c cs ih =>
    cases hf : c.frame with
    | none =>
      rw [List.filterMap_cons_none hf, List.filterMap_cons_none (received_of_frame hf)] at h
      intro chunk hc frame hframe
      rcases List.mem_cons.mp hc with rfl | hc
      · rw [hf] at hframe
        cases hframe
      · exact ih h chunk hc frame hframe
    | some f =>
      rw [List.filterMap_cons_some hf, List.map_cons] at h
      cases hr : c.received J with
      | none =>
        rw [List.filterMap_cons_none hr] at h
        have := congrArg List.length h
        rw [List.length_cons, List.length_map] at this
        exact absurd (length_received_le (J := J) cs) (by omega)
      | some g =>
        rw [List.filterMap_cons_some hr] at h
        obtain ⟨hg, h⟩ := List.cons.inj h
        intro chunk hc frame hframe
        rcases List.mem_cons.mp hc with rfl | hc
        · rw [hf] at hframe
          rw [← Option.some.inj hframe]
          exact valid_of_received hf (by rw [hr, hg])
        · exact ih h chunk hc frame hframe

theorem carries_messages {chunks : List (Chunk (Payload N))}
    (hvalid : ∀ chunk ∈ chunks, ∀ frame ∈ chunk.frame, frame.Valid) :
    List.Forall₂ (Carries J)
      ((chunks.filterMap (Chunk.message J)).filter fun message => message.event ≠ [])
      (chunks.filterMap Chunk.frame) := by
  induction chunks with
  | nil => exact .nil
  | cons chunk chunks ih =>
    have ih := ih fun c hc => hvalid c (List.mem_cons_of_mem _ hc)
    cases chunk with
    | retry => exact ih
    | heartbeat => exact ih
    | event frame =>
      obtain ⟨-, hseq, -⟩ := hvalid _ List.mem_cons_self _ rfl
      refine .cons ⟨rfl, ?_, ?_⟩ ih
      · exact parse_stringify _ _ (keysOnce_eventJson frame)
      · exact congrArg some (J.print_ofNat _ hseq)
    | status frame => exact .cons ⟨rfl, parse_stringify _ _ (keysOnce_statusJson frame), rfl⟩ ih

theorem arrived_isPrefix (chunks : List (Chunk (Payload N))) (n : Nat) :
    arrived J chunks n <+: chunks := by
  induction chunks generalizing n with
  | nil => exact List.prefix_refl _
  | cons chunk chunks ih =>
    rw [arrived]
    split
    · exact List.cons_prefix_cons.mpr ⟨rfl, ih _⟩
    · exact List.nil_prefix

theorem arrived_all (chunks : List (Chunk (Payload N))) :
    arrived J chunks (wire J chunks).length = chunks := by
  induction chunks with
  | nil => rfl
  | cons chunk chunks ih =>
    rw [wire, List.flatMap_cons, List.length_append, arrived, if_pos (Nat.le_add_right _ _),
      Nat.add_sub_cancel_left]
    exact congrArg _ ih

theorem mem_dropLast_of_isPrefix {α : Type} {a b : List α} (h : a <+: b) {x : α} (hx : x ∈ a.dropLast) :
    x ∈ b.dropLast := by
  obtain ⟨t, rfl⟩ := h
  cases t with
  | nil => rwa [List.append_nil]
  | cons c t =>
    rw [List.dropLast_append_of_ne_nil (List.cons_ne_nil c t)]
    exact List.mem_append_left _ (List.mem_of_mem_dropLast hx)

theorem forall_or_first {α : Type} (P : α → Prop) (l : List α) :
    (∀ x ∈ l, P x) ∨ ∃ pre x post, l = pre ++ x :: post ∧ (∀ y ∈ pre, P y) ∧ ¬ P x := by
  induction l with
  | nil => exact Or.inl fun x hx => absurd hx List.not_mem_nil
  | cons a l ih =>
    by_cases ha : P a
    · rcases ih with h | ⟨pre, x, post, rfl, hpre, hx⟩
      · exact Or.inl fun x hx => (List.mem_cons.mp hx).elim (fun h => h ▸ ha) (h x)
      · exact Or.inr ⟨a :: pre, x, post, rfl,
          fun y hy => (List.mem_cons.mp hy).elim (fun h => h ▸ ha) (hpre y), hx⟩
    · exact Or.inr ⟨[], a, l, rfl, fun y hy => absurd hy List.not_mem_nil, ha⟩

theorem roundTrip_of_readable {sends : List (Chunk (Payload N))} (h : Readable J sends) :
    RoundTrip J sends := by
  intro pieces ht
  generalize hcs : serverWrites sends = chunks at ht
  have hread : ∀ chunk ∈ chunks, ∀ frame ∈ chunk.frame,
      frame.Valid ∧ Unseparated (frame.json J) := hcs ▸ h
  have hend : ∀ chunk ∈ chunks.dropLast, chunk.terminal = false :=
    hcs ▸ serverWrites_endsOnce sends
  have hpre := arrived_isPrefix (J := J) chunks pieces.flatten.length
  have hmsgs := messages_of_isPrefix chunks (fun c hc f hf => (hread c hc f hf).2) ht
  have hvalid : ∀ chunk ∈ arrived J chunks pieces.flatten.length, ∀ frame ∈ chunk.frame,
      frame.Valid := fun c hc f hf => (hread c (hpre.subset hc) f hf).1
  have hlast : ∀ chunk ∈ (arrived J chunks pieces.flatten.length).dropLast,
      chunk.terminal = false := fun c hc => hend c (mem_dropLast_of_isPrefix hpre hc)
  refine ⟨?_, fun d client hc => ?_, fun d client hc => ?_⟩
  · rw [(consume_eq 0 ⟨none, 0, [], false⟩ ht).2, hmsgs]
    exact carries_messages hvalid
  · rw [(consume_eq d client ht).1, hmsgs, (foldl_read _ hlast hc).1]
    congr 1
    rw [List.map_filterMap]
    exact List.filterMap_congr fun c hc => received_eq_value c (hvalid c hc)
  · rw [(consume_eq d client ht).1, hmsgs, (foldl_read _ hlast hc).2 hvalid]

theorem readable_of_roundTrip {sends : List (Chunk (Payload N))} (h : RoundTrip J sends) :
    Readable J sends := by
  have hend := serverWrites_endsOnce sends
  have hwhole : [wire J (serverWrites sends)].flatten = wire J (serverWrites sends) := by simp
  have hall := h [wire J (serverWrites sends)] (by rw [hwhole])
  rw [hwhole, arrived_all] at hall
  have hdel := hall.delivered 0 ⟨none, 0, [], false⟩ rfl
  have hpre : [wire J (serverWrites sends)].flatten <+: wire J (serverWrites sends) := by rw [hwhole]
  rw [(consume_eq 0 ⟨none, 0, [], false⟩ hpre).1, hwhole] at hdel
  unfold Readable
  generalize serverWrites sends = chunks at hend hdel ⊢
  rcases forall_or_first (fun chunk => ∀ frame ∈ chunk.frame, Unseparated (frame.json J)) chunks with
    hclean | ⟨pre, chunk, post, rfl, hpre, hblocked⟩
  · have hmsgs := messages_of_isPrefix chunks hclean (List.prefix_refl _)
    rw [arrived_all] at hmsgs
    rw [hmsgs, (foldl_read chunks hend rfl).1] at hdel
    have hvalid := all_received (J := J) hdel
    exact fun c hc f hf => ⟨hvalid c hc f hf, hclean c hc f hf⟩
  · have hmsgs := messages_of_blocked pre post chunk hpre hblocked
    have hlast : ∀ c ∈ pre.dropLast, c.terminal = false :=
      fun c hc => hend c (mem_dropLast_of_isPrefix (List.prefix_append _ _) hc)
    rw [hmsgs, (foldl_read pre hlast rfl).1] at hdel
    -- the blocked chunk is a frame, so one frame at least is missing
    exfalso
    obtain ⟨frame, hframe⟩ : ∃ frame, chunk.frame = some frame := by
      cases hf : chunk.frame with
      | none => exact absurd (fun frame hframe => by rw [hf] at hframe; cases hframe) hblocked
      | some frame => exact ⟨frame, rfl⟩
    have hlen := congrArg List.length hdel
    rw [List.nil_append, List.nil_append, List.length_map, List.filterMap_append,
      List.filterMap_cons_some hframe, List.length_append, List.length_cons] at hlen
    exact absurd (length_received_le (J := J) pre) (by omega)

end RoundTrip

/-- The wire round trip holds exactly where every frame is readable. -/
theorem roundTrip_iff (J : JsNumber N) (sends : List (Chunk (Payload N))) :
    RoundTrip J sends ↔ Readable J sends :=
  ⟨readable_of_roundTrip, roundTrip_of_readable⟩

/-- Integers in decimal digits. -/
def decimalNumber : JsNumber Int where
  toNumberFormat := decimal
  ofNat n := n
  toNat? n := if 0 ≤ n then some n.toNat else none
  print_ofNat _ _ := rfl
  toNat?_ofNat n _ := by simp

/-- A comment line that arrives in two pieces. -/
theorem consume_chunking_comment :
    consume decimalNumber 0 ⟨none, 0, [], false⟩ [ascii ": h", ascii "b\n\n"] =
      consume decimalNumber 0 ⟨none, 0, [], false⟩ [ascii ": hb\n\n"] := by
  have hsame : [ascii ": h", ascii "b\n\n"].flatten = [ascii ": hb\n\n"].flatten := rfl
  exact (consume_chunking _ hsame (by decide)).2

/-- An event whose one string has a line separator. -/
def separatedEvent : RunEventFrame (Payload Int) :=
  ⟨ascii "r", 0, ⟨.obj [(ascii "type", .str [unit 'x', 0x2028])],
    by unfold OrderedMap.UniqueKeys; decide, trivial, trivial⟩, ascii "t", none⟩

/-- The client never sees the event, nor anything behind it. -/
theorem separated_event_lost :
    ¬ RoundTrip decimalNumber [.event separatedEvent, .heartbeat] := by
  intro h
  have hread := readable_of_roundTrip h (.event separatedEvent) List.mem_cons_self _ rfl
  refine hread.2.1 ?_
  refine Or.inr (Or.inr (Or.inr (Or.inr (Or.inr (Or.inl (Or.inr (Or.inl ?_)))))))
  exact List.mem_cons_of_mem _ List.mem_cons_self

theorem roundTrip_iff_separated :
    RoundTrip decimalNumber [.event separatedEvent, .heartbeat] ↔
      Readable decimalNumber [.event separatedEvent, .heartbeat] :=
  roundTrip_iff decimalNumber _

end InvisibleString.Sse
