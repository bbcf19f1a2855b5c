import InvisibleString.Lib.Text
import InvisibleString.Lib.Utf8

/- # `Tailer.Ndjson` — the events of a byte stream

eve's stream is one JSON object a line.  `ndjsonEvents` reads it in whatever chunks the network
hands over, decodes each behind the last, and keeps the text that no line feed has ended yet.

**Proved here.**

    however the stream is cut, the events are those of its lines, read one by
    one off the text of all its bytes  (`ndjson_chunking`)
    events written one a line are read back, however cut  (`ndjson_round_trip`)
-/

namespace InvisibleString.Tailer

open Json Utf8

variable {N : Type} (F : NumberFormat N)

def newline : CodeUnit := unit '\n'

/-- A JSON object whose `type` is a string. -/
def parseLine (line : JsString) : Option (Value N) :=
  if line.length = 0 then none
  else
    match parse F line with
    | some (.obj members) =>
      match OrderedMap.get? (ascii "type") members with
      | some (.str _) => some (.obj members)
      | _ => none
    -- no other value has a string `type`, and `null` throws
    | _ => none

theorem length_rest_lt {buffer rest : JsString} {c : CodeUnit}
    (h : buffer.dropWhile (· != newline) = c :: rest) : rest.length < buffer.length := by
  have hsuffix := (List.dropWhile_suffix (p := (· != newline)) (l := buffer)).length_le
  rw [h, List.length_cons] at hsuffix
  omega

/-- The lines that `buffer` completes are taken off it, and their events yielded. -/
def takeLines (buffer : JsString) : List (Value N) × JsString :=
  match _h : buffer.dropWhile (· != newline) with
  | [] => ([], buffer)
  | _ :: rest =>
    let event := parseLine F (trim (buffer.takeWhile (· != newline)))
    (event.toList ++ (takeLines rest).1, (takeLines rest).2)
termination_by buffer.length
decreasing_by all_goals exact length_rest_lt ‹_›

/-- The reads that are left, with the decoder and the text of the line begun. -/
def readChunks (decoder : TextDecoder) (buffer : JsString) : List (List Byte) → List (Value N)
  | [] => (parseLine F (trim (buffer ++ decoder.finish []))).toList
  | chunk :: chunks =>
    let (decoder, text) := decoder.decode chunk
    let (events, buffer) := takeLines F (buffer ++ text)
    events ++ readChunks decoder buffer chunks

/-- What is yielded until the stream ends. -/
def ndjsonEvents (chunks : List (List Byte)) : List (Value N) :=
  readChunks F .fresh [] chunks

/-! ## The lines of the whole text -/

/-- `v` is an object whose member `type` is a string. -/
def hasType : Value N → Bool
  | .obj members =>
    match OrderedMap.get? (ascii "type") members with
    | some (.str _) => true
    | _ => false
  | _ => false

/-- What the line says, the white space around it aside. -/
def lineEvent (line : JsString) : Option (Value N) := (parse F (trim line)).filter hasType

/-- The lines read one by one. -/
def textEvents (text : JsString) : List (Value N) :=
  (text.splitOn newline).filterMap (lineEvent F)

/-- The text of all the bytes. -/
def wholeText (bytes : List Byte) : JsString := TextDecoder.fresh.finish bytes

theorem parseLine_eq (line : JsString) : parseLine F line = (parse F line).filter hasType := by
  rw [parseLine]
  cases line with
  | nil => rfl
  | cons c line =>
    have hlength : (c :: line).length ≠ 0 := Nat.succ_ne_zero _
    rw [if_neg hlength]
    cases parse F (c :: line) with
    | none => rfl
    | some v =>
      cases v with
      | obj members =>
        rw [Option.filter_some, hasType]
        dsimp only
        split
        · rfl
        · rfl
      | _ => rfl

theorem parseLine_trim (line : JsString) : parseLine F (trim line) = lineEvent F line :=
  parseLine_eq F (trim line)

/-! ## Taking lines -/

theorem takeWhile_append_dropWhile_eq {buffer rest : JsString} {c : CodeUnit}
    (h : buffer.dropWhile (· != newline) = c :: rest) :
    buffer = buffer.takeWhile (· != newline) ++ newline :: rest := by
  have hc : (c != newline) = false := by
    have hhead := List.head?_dropWhile_not (· != newline) buffer
    rw [h] at hhead
    exact hhead
  have hwhole := List.takeWhile_append_dropWhile (p := (· != newline)) (l := buffer)
  rw [h, bne_eq_false_iff_eq.mp hc] at hwhole
  exact hwhole.symm

theorem newline_not_mem_takeWhile (buffer : JsString) :
    newline ∉ buffer.takeWhile (· != newline) := by
  intro h
  have := List.mem_takeWhile_imp h
  rw [bne_self_eq_false] at this
  exact Bool.false_ne_true this

/-- A line and the line feed behind it. -/
theorem textEvents_line {line : JsString} (h : newline ∉ line) (rest : JsString) :
    textEvents F (line ++ newline :: rest) = (lineEvent F line).toList ++ textEvents F rest := by
  rw [textEvents, List.splitOn_append_cons_self_of_not_mem h, List.filterMap_cons]
  cases lineEvent F line with
  | none => rfl
  | some event => rfl

theorem textEvents_last {line : JsString} (h : newline ∉ line) :
    textEvents F line = (lineEvent F line).toList := by
  rw [textEvents, List.splitOn_eq_singleton h, List.filterMap_cons, List.filterMap_nil]
  cases lineEvent F line with
  | none => rfl
  | some event => rfl

/-- The lines taken off `buffer`, and those that what is left of it begins. -/
theorem takeLines_spec (buffer : JsString) : newline ∉ (takeLines F buffer).2 ∧
    ∀ text, textEvents F (buffer ++ text) =
      (takeLines F buffer).1 ++ textEvents F ((takeLines F buffer).2 ++ text) := by
  fun_induction takeLines F buffer with
  | case1 buffer hnone =>
    refine ⟨fun hmem => ?_, fun text => rfl⟩
    rw [List.dropWhile_eq_nil_iff] at hnone
    have := hnone newline hmem
    rw [bne_self_eq_false] at this
    exact Bool.false_ne_true this
  | case2 buffer c rest hsome event ih =>
    refine ⟨ih.1, fun text => ?_⟩
    have hbuffer := takeWhile_append_dropWhile_eq hsome
    rw [List.append_assoc, ← ih.2 text, show event = _ from parseLine_trim F _,
      ← textEvents_line F (newline_not_mem_takeWhile buffer), ← List.cons_append,
      ← List.append_assoc, ← hbuffer]

/-! ## Chunks -/

theorem newline_not_mem_finish (d : TextDecoder) : newline ∉ d.finish [] := by
  show newline ∉ (withoutMark d.bomSeen d.state.flush).flatMap utf16
  rw [State.flush]
  split
  · exact List.not_mem_nil
  · have hmark : withoutMark d.bomSeen [0xFFFD] = [0xFFFD] := by
      cases d.bomSeen with
      | true => rfl
      | false => rfl
    rw [hmark]
    decide

theorem readChunks_cons (d : TextDecoder) (buffer : JsString) (chunk : List Byte)
    (chunks : List (List Byte)) : readChunks F d buffer (chunk :: chunks) =
      (takeLines F (buffer ++ (d.decode chunk).2)).1 ++
        readChunks F (d.decode chunk).1 (takeLines F (buffer ++ (d.decode chunk).2)).2 chunks := rfl

theorem readChunks_eq (d : TextDecoder) {buffer : JsString} (h : newline ∉ buffer)
    (chunks : List (List Byte)) :
    readChunks F d buffer chunks = textEvents F (buffer ++ d.finish chunks.flatten) := by
  induction chunks generalizing d buffer with
  | nil =>
    rw [readChunks, parseLine_trim, List.flatten_nil, textEvents_last]
    intro hmem
    rcases List.mem_append.mp hmem with hmem | hmem
    · exact h hmem
    · exact newline_not_mem_finish d hmem
  | cons chunk chunks ih =>
    obtain ⟨hrest, hlines⟩ := takeLines_spec F (buffer ++ (d.decode chunk).2)
    rw [readChunks_cons, ih _ hrest, List.flatten_cons, finish_append, ← List.append_assoc, hlines]

/-- The events do not depend on how the stream is cut. -/
theorem ndjson_chunking (chunks : List (List Byte)) :
    ndjsonEvents F chunks = textEvents F (wholeText chunks.flatten) ∧
    ∀ text, (∀ c, [c] ∈ points text → isSurrogate c = false) →
      text.head? ≠ some byteOrderMark → chunks.flatten = encode text →
      ndjsonEvents F chunks = textEvents F text := by
  have hevents : ndjsonEvents F chunks = textEvents F (wholeText chunks.flatten) :=
    readChunks_eq F .fresh List.not_mem_nil chunks
  refine ⟨hevents, fun text hpaired hmark hbytes => ?_⟩
  rw [hevents, hbytes, wholeText, finish_encode hpaired hmark]

theorem paired_of_all {text : JsString} (h : text.all (fun c => !isSurrogate c) = true) :
    ∀ c, [c] ∈ points text → isSurrogate c = false := by
  intro c hc
  have hmem : c ∈ (points text).flatten := List.mem_flatten_of_mem hc List.mem_cons_self
  rw [flatten_points] at hmem
  exact (Bool.not_eq_true' _).mp (List.all_eq_true.mp h c hmem)

/-- An event cut inside a character of two bytes. -/
theorem ndjson_chunking_split :
    ndjsonEvents decimal [(encode (ascii "\x7b\"type\":\"é\"\x7d\n")).take 10,
      (encode (ascii "\x7b\"type\":\"é\"\x7d\n")).drop 10] =
      textEvents decimal (ascii "\x7b\"type\":\"é\"\x7d\n") :=
  (ndjson_chunking decimal _).2 (ascii "\x7b\"type\":\"é\"\x7d\n") (paired_of_all (by decide))
    (by decide) (by decide)

/-! ## Writing -/

/-- Events as a stream has them. -/
def ndjson (events : List (Value N)) : JsString :=
  events.flatMap fun event => stringify F event ++ [newline]

section

variable {F}

mutual

theorem paired_stringify : ∀ v : Value N, Paired (stringify F v)
  | .null => .of_printable (by rw [stringify]; decide)
  | .bool true => .of_printable (by rw [stringify]; decide)
  | .bool false => .of_printable (by rw [stringify]; decide)
  | .num n => by
    rw [stringify]
    exact .of_printable (List.all_eq_true.mpr fun c hc =>
      isPrintable_of_isNumberUnit (F.isNumberUnit_of_mem n c hc))
  | .str s => by
    rw [stringify]
    exact .quote s
  | .arr [] => .of_printable (by rw [stringify]; decide)
  | .arr (v :: vs) => by
    rw [stringify]
    exact .single rfl ((paired_stringify v).append (paired_stringifyItems vs))
  | .obj [] => .of_printable (by rw [stringify]; decide)
  | .obj ((k, v) :: ms) => by
    rw [stringify]
    exact .single rfl (.append (.quote k)
      (.single rfl ((paired_stringify v).append (paired_stringifyMembers ms))))

theorem paired_stringifyItems : ∀ vs : List (Value N), Paired (stringifyItems F vs)
  | [] => .of_printable (by rw [stringifyItems]; decide)
  | v :: vs => by
    rw [stringifyItems]
    exact .single rfl ((paired_stringify v).append (paired_stringifyItems vs))

theorem paired_stringifyMembers : ∀ ms : List (JsString × Value N), Paired (stringifyMembers F ms)
  | [] => .of_printable (by rw [stringifyMembers]; decide)
  | (k, v) :: ms => by
    rw [stringifyMembers]
    exact .single rfl (.append (.quote k)
      (.single rfl ((paired_stringify v).append (paired_stringifyMembers ms))))

end

theorem stringifyMembers_eq (ms : List (JsString × Value N)) :
    ∃ body, stringifyMembers F ms = body ++ [unit '\x7d'] := by
  induction ms with
  | nil => exact ⟨[], by rw [stringifyMembers]; rfl⟩
  | cons m ms ih =>
    obtain ⟨body, hbody⟩ := ih
    rw [stringifyMembers, hbody]
    exact ⟨unit ',' :: (quote m.1 ++ unit ':' :: (stringify F m.2 ++ body)), by simp⟩

theorem stringify_obj (ms : List (JsString × Value N)) :
    ∃ body, stringify F (.obj ms) = unit '\x7b' :: (body ++ [unit '\x7d']) := by
  cases ms with
  | nil => exact ⟨[], by rw [stringify]; rfl⟩
  | cons m ms =>
    obtain ⟨body, hbody⟩ := stringifyMembers_eq (F := F) ms
    rw [stringify, hbody]
    exact ⟨quote m.1 ++ unit ':' :: (stringify F m.2 ++ body), by simp⟩

/-- An object has no white space around it. -/
theorem trim_stringify (ms : List (JsString × Value N)) :
    trim (stringify F (.obj ms)) = stringify F (.obj ms) := by
  obtain ⟨body, hbody⟩ := stringify_obj (F := F) ms
  have hopen : isWhite (unit '\x7b') = false := by decide
  have hclose : isWhite (unit '\x7d') = false := by decide
  rw [hbody, trim, List.dropWhile_cons_of_neg (ne_true_of_eq_false hopen), List.reverse_cons,
    List.reverse_append, List.reverse_singleton, List.singleton_append, List.cons_append,
    List.dropWhile_cons_of_neg (ne_true_of_eq_false hclose)]
  simp

theorem lineEvent_stringify {event : Value N} (hkeys : event.KeysOnce)
    (htype : hasType event = true) : lineEvent F (stringify F event) = some event := by
  cases event with
  | obj ms => rw [lineEvent, trim_stringify, parse_stringify F _ hkeys, Option.filter_some, if_pos htype]
  | null | bool | num | str | arr => cases htype

end

/-- What is written as one event a line is read back, event by event, however the bytes come. -/
theorem ndjson_round_trip (events : List (Value N))
    (hevents : ∀ event ∈ events, event.KeysOnce ∧ hasType event = true) (chunks : List (List Byte))
    (hbytes : chunks.flatten = encode (ndjson F events)) : ndjsonEvents F chunks = events := by
  have hpaired : Paired (ndjson F events) := by
    clear hevents hbytes
    induction events with
    | nil => exact .nil
    | cons event events ih =>
      rw [ndjson, List.flatMap_cons]
      exact .append (.append (paired_stringify event) (.single rfl .nil)) ih
  have hmark : (ndjson F events).head? ≠ some byteOrderMark := by
    cases events with
    | nil => exact nofun
    | cons event events =>
      have htype := (hevents event List.mem_cons_self).2
      cases event with
      | obj ms =>
        obtain ⟨body, hbody⟩ := stringify_obj (F := F) ms
        rw [ndjson, List.flatMap_cons, hbody]
        exact fun h => absurd (Option.some.inj h) (by decide)
      | null | bool | num | str | arr => cases htype
  have hread : ndjsonEvents F chunks = textEvents F ([] ++ TextDecoder.fresh.finish chunks.flatten) :=
    readChunks_eq F .fresh List.not_mem_nil chunks
  rw [hread, hbytes, finish_encode (fun c hc => hpaired.points hc) hmark, List.nil_append]
  clear hpaired hmark hread hbytes
  induction events with
  | nil => exact textEvents_last F List.not_mem_nil
  | cons event events ih =>
    obtain ⟨hkeys, htype⟩ := hevents event List.mem_cons_self
    have hline : newline ∉ stringify F event := fun hmem =>
      absurd (ge_of_mem_stringify F event _ hmem) (by decide)
    rw [ndjson, List.flatMap_cons, List.append_assoc, List.singleton_append,
      textEvents_line F hline, lineEvent_stringify hkeys htype]
    exact congrArg (event :: ·) (ih fun e he => hevents e (List.mem_cons_of_mem _ he))

theorem ndjson_round_trip_split :
    ndjsonEvents decimal [(encode (ndjson decimal [.obj [(ascii "type", .str (ascii "é"))]])).take 10,
        (encode (ndjson decimal [.obj [(ascii "type", .str (ascii "é"))]])).drop 10] =
      [.obj [(ascii "type", .str (ascii "é"))]] :=
  ndjson_round_trip decimal [.obj [(ascii "type", .str (ascii "é"))]] (List.forall_mem_singleton.mpr
      ⟨⟨by unfold OrderedMap.UniqueKeys; decide, trivial, trivial⟩, rfl⟩) _
    ((List.flatten_cons.trans (congrArg _ (List.append_nil _))).trans (List.take_append_drop _ _))

end InvisibleString.Tailer
