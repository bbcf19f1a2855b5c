import InvisibleString.Lib.Calendar
import InvisibleString.Lib.Checks
import InvisibleString.Lib.Json
import InvisibleString.Lib.Text
import Mathlib.Data.List.Sort

/- # `Triggers.Cron` — 5-field UTC cron expressions and their next instant

The parser takes the grammar of five fields (lists of values, ranges and steps), the search
walks the days from the minute after a given instant and takes the first matching hour and
minute of the first matching day, or gives up after `MAX_SEARCH_DAYS` days.

Numbers of an expression are exact here; beyond any field's range a rounded one is out of
range as well, and a rounded step passes the range's end like the exact one.

**Proved here.**

    what the search returns lies strictly after the given instant, is a whole minute, and
      matches the expression  (`nextFire_spec`)
-/

namespace InvisibleString.Triggers

open Calendar Checks Json

/-! ## Parsing -/

/-- `CronParseError`; its text is ``invalid cron expression "…": detail``. -/
structure CronParseError where
  expression : JsString
  detail : JsString

structure FieldSpec where
  name : String
  min : Nat
  max : Nat

def minuteField : FieldSpec := ⟨"minute", 0, 59⟩

def hourField : FieldSpec := ⟨"hour", 0, 23⟩

def dayOfMonthField : FieldSpec := ⟨"day-of-month", 1, 31⟩

def monthField : FieldSpec := ⟨"month", 1, 12⟩

def dayOfWeekField : FieldSpec := ⟨"day-of-week", 0, 7⟩

/-- A set of values of a field, in the order of their insertion. -/
def FieldValues (field : FieldSpec) : Type :=
  { values : List Nat // ∀ value ∈ values, field.min ≤ value ∧ value ≤ field.max }

/-- `for (value = low; value <= high; value += step) values.add(value)`. -/
def FieldValues.addRange {field : FieldSpec} (values : FieldValues field) (low high step : Nat)
    (hlow : field.min ≤ low) (hhigh : high ≤ field.max) : FieldValues field :=
  ⟨values.1 ++ ((List.range ((high - low) / step + 1)).map fun i => low + i * step).filter
      fun value => value ≤ high ∧ value ∉ values.1, fun value hvalue => by
    rcases List.mem_append.mp hvalue with hvalue | hvalue
    · exact values.2 value hvalue
    · obtain ⟨hmem, hle⟩ := List.mem_filter.mp hvalue
      obtain ⟨i, _, rfl⟩ := List.mem_map.mp hmem
      exact ⟨Nat.le_trans hlow (Nat.le_add_right low _),
        Nat.le_trans (of_decide_eq_true hle).1 hhigh⟩⟩

/-- `/^(\d+)(?:-(\d+))?$/`: the first number, and the second if there is one. -/
def range? (text : JsString) : Option (Nat × Option Nat) :=
  match text.splitOn (unit '-') with
  | [low] => (digits? low).map fun low => (low, none)
  | [low, high] => do return (← digits? low, some (← digits? high))
  | _ => none

/-- A decimal number as text. -/
def natText (n : Nat) : JsString := ascii (toString n)

section Parse

variable (expression : JsString) (field : FieldSpec)

/-- `fail` of `parseField`. -/
def cronFail {α : Type} (detail : JsString) : Except CronParseError α :=
  .error ⟨expression, ascii field.name ++ ascii " field: " ++ detail⟩

def quoted (text : JsString) : JsString := unit '"' :: text ++ [unit '"']

/-- The step of an item. -/
def parseStep (item : JsString) : List JsString → Except CronParseError Nat
  | [] => return 1
  | [stepText] =>
    match digits? stepText with
    | none =>
      cronFail expression field (ascii "step " ++ quoted stepText ++ ascii " is not a number")
    | some step =>
      if step < 1 then cronFail expression field (ascii "step must be >= 1") else return step
  | _ => cronFail expression field (quoted item ++ ascii " has more than one \"/\"")

/-- One item of a field's list. -/
def parseItem (values : FieldValues field) (item : JsString) :
    Except CronParseError (FieldValues field) :=
  if item = [] then cronFail expression field (ascii "empty list item")
  else do
    let parts := item.splitOn (unit '/')
    let rangeText := parts.headD []
    let stepParts := parts.tail
    let step ← parseStep expression field item stepParts
    if rangeText = [unit '*'] then
      return values.addRange field.min field.max step (Nat.le_refl _) (Nat.le_refl _)
    else match range? rangeText with
      | none => cronFail expression field (quoted item ++ ascii " is not *, a number, or a range")
      | some (low, high?) =>
        let high := high?.getD low
        if high? = none ∧ stepParts.length = 1 then
          cronFail expression field (quoted item ++ ascii " applies a step to a single value")
        else if high < low then
          cronFail expression field (ascii "range " ++ natText low ++ ascii "-" ++ natText high ++
            ascii " is reversed (no wraparound)")
        else if h : field.min ≤ low ∧ high ≤ field.max then
          return values.addRange low high step h.1 h.2
        else
          cronFail expression field (ascii "value out of range " ++ natText field.min ++
            ascii "-" ++ natText field.max)

def parseField (text : JsString) : Except CronParseError (FieldValues field) := do
  let values ← (text.splitOn (unit ',')).foldlM (parseItem expression field) ⟨[], nofun⟩
  if values.1 = [] then cronFail expression field (ascii "matches no values") else return values

end Parse

structure CronSchedule where
  minutes : FieldValues minuteField
  hours : FieldValues hourField
  daysOfMonth : FieldValues dayOfMonthField
  months : FieldValues monthField
  /-- 7 (Sunday) is 0 here -/
  daysOfWeek : List Nat
  /-- the field's text does not begin with `*` -/
  domRestricted : Bool
  dowRestricted : Bool

/-- `text.split(/\s+/)` of a trimmed text. -/
def splitWhite (text : JsString) : List JsString :=
  if text = [] then [[]] else (text.splitOnP isWhite).filter fun part => part ≠ []

def startsWithStar (text : JsString) : Bool := text.head? == some (unit '*')

def parseCronExpression (expression : JsString) : Except CronParseError CronSchedule :=
  match splitWhite (trim expression) with
  | [minuteText, hourText, domText, monthText, dowText] => do
    let daysOfWeekRaw ← parseField expression dayOfWeekField dowText
    return {
      minutes := ← parseField expression minuteField minuteText
      hours := ← parseField expression hourField hourText
      daysOfMonth := ← parseField expression dayOfMonthField domText
      months := ← parseField expression monthField monthText
      daysOfWeek := daysOfWeekRaw.1.map fun day => if day = 7 then 0 else day
      domRestricted := !startsWithStar domText
      dowRestricted := !startsWithStar dowText }
  | fields => .error ⟨expression,
      ascii "expected 5 fields (minute hour day-of-month month day-of-week), got " ++
        natText fields.length⟩

/-! ## The search -/

/-- A date matches when either day field does, if both are restricted, else when both do. -/
def CronSchedule.dayMatches (schedule : CronSchedule) (dom dow : Nat) : Bool :=
  if schedule.domRestricted && schedule.dowRestricted then
    dom ∈ schedule.daysOfMonth.1 || dow ∈ schedule.daysOfWeek
  else dom ∈ schedule.daysOfMonth.1 && dow ∈ schedule.daysOfWeek

/-- The month and the day match. -/
def CronSchedule.dateMatches (schedule : CronSchedule) (day : Nat) : Bool :=
  monthFromDay day + 1 ∈ schedule.months.1 && schedule.dayMatches (dateFromDay day) (weekDay day)

/-- `t` is a whole minute that matches the schedule. -/
def CronSchedule.Matches (schedule : CronSchedule) (t : Nat) : Prop :=
  t % msPerMinute = 0 ∧ minuteOf t ∈ schedule.minutes.1 ∧ hourOf t ∈ schedule.hours.1 ∧
    schedule.dateMatches (dayOf t) = true

def MAX_SEARCH_DAYS : Nat := 3000

/-- The first hour and minute of a day, on the first day not before those of `start`. -/
def firstTime (hours minutes : List Nat) (isFirstDay : Bool) (start : Nat) : Option (Nat × Nat) :=
  hours.findSome? fun hour =>
    if isFirstDay && hour < hourOf start then none
    else (minutes.find? fun minute =>
      !(isFirstDay && hour == hourOf start && minute < minuteOf start)).map (hour, ·)

/-- The days from `cursor` on, `n` of them at most. -/
def CronSchedule.walkDays (schedule : CronSchedule) (hours minutes : List Nat) (start : Nat) :
    Nat → Nat → Option Nat
  | 0, _ => none
  | n + 1, cursor =>
    match
      if schedule.dateMatches cursor then firstTime hours minutes (cursor == dayOf start) start
      else none with
    | some (hour, minute) =>
      some (utc (yearFromDay cursor) (monthFromDay cursor) (dateFromDay cursor) hour minute)
    | none => schedule.walkDays hours minutes start n (cursor + 1)

/-- The next instant strictly after `after` that matches, at minute precision. -/
def CronSchedule.nextFire (schedule : CronSchedule) (after : Nat) : Option Nat :=
  let hours := schedule.hours.1.insertionSort (· ≤ ·)
  let minutes := schedule.minutes.1.insertionSort (· ≤ ·)
  let start := after / msPerMinute * msPerMinute + msPerMinute
  schedule.walkDays hours minutes start MAX_SEARCH_DAYS (dayOf start)

/-- `nextFire` of an expression. -/
def nextFire (expression : JsString) (after : Nat) : Except CronParseError (Option Nat) := do
  return (← parseCronExpression expression).nextFire after

/-! ## What it finds -/

theorem firstTime_spec {hours minutes : List Nat} {isFirstDay : Bool} {start hour minute : Nat}
    (h : firstTime hours minutes isFirstDay start = some (hour, minute)) :
    hour ∈ hours ∧ minute ∈ minutes ∧ (isFirstDay = true →
      hourOf start < hour ∨ hour = hourOf start ∧ minuteOf start ≤ minute) := by
  obtain ⟨hour', hhour, h⟩ := List.exists_of_findSome?_eq_some h
  split at h
  · cases h
  next hstart =>
    obtain ⟨minute', hfind, heq⟩ := Option.map_eq_some_iff.mp h
    cases heq
    have hmem := List.mem_of_find?_eq_some hfind
    have hcond := List.find?_some hfind
    refine ⟨hhour, hmem, fun hfirst => ?_⟩
    rw [hfirst, Bool.true_and, decide_eq_true_eq] at hstart
    rw [hfirst, Bool.true_and, Bool.not_eq_true', Bool.and_eq_false_iff, beq_eq_false_iff_ne,
      decide_eq_false_iff_not] at hcond
    rcases hcond with hne | hle
    · exact Or.inl (by omega)
    · by_cases heq : hour = hourOf start
      · exact Or.inr ⟨heq, by omega⟩
      · exact Or.inl (by omega)

/-- The walk finds a matching minute, not before the start. -/
theorem CronSchedule.walkDays_spec {schedule : CronSchedule} {hours minutes : List Nat}
    {start n cursor t : Nat} (hstart : start % msPerMinute = 0)
    (hhours : ∀ hour ∈ hours, hour ∈ schedule.hours.1)
    (hminutes : ∀ minute ∈ minutes, minute ∈ schedule.minutes.1) (hcursor : dayOf start ≤ cursor)
    (h : schedule.walkDays hours minutes start n cursor = some t) :
    start ≤ t ∧ schedule.Matches t := by
  induction n generalizing cursor with
  | zero => cases h
  | succ n ih =>
    rw [CronSchedule.walkDays] at h
    split at h
    · next hour minute htime =>
      split at htime
      · next hdate =>
        obtain ⟨hhour, hminute, hfirst⟩ := firstTime_spec htime
        have hhour' := hhours hour hhour
        have hminute' := hminutes minute hminute
        have hlthour : hour < 24 := Nat.lt_succ_of_le (schedule.hours.2 hour hhour').2
        have hltminute : minute < 60 := Nat.lt_succ_of_le (schedule.minutes.2 minute hminute').2
        rw [utc_fromDay, Option.some.injEq] at h
        subst h
        refine ⟨?_, ?_, ?_, ?_, ?_⟩
        · rw [eq_of_minute start hstart]
          rw [beq_iff_eq] at hfirst
          have hstarthour : hourOf start < 24 := Nat.mod_lt _ (by decide)
          have hstartminute : minuteOf start < 60 := Nat.mod_lt _ (by decide)
          rw [msPerDay, msPerHour, msPerMinute]
          rcases Nat.lt_or_ge (dayOf start) cursor with hlt | hge
          · omega
          · have := hfirst (Nat.le_antisymm hge hcursor)
            omega
        · rw [msPerDay, msPerHour, msPerMinute]
          omega
        · rw [minuteOf_utc hltminute]
          exact hminute'
        · rw [hourOf_utc hlthour hltminute]
          exact hhour'
        · rw [dayOf_utc hlthour hltminute]
          exact hdate
      · cases htime
    · exact ih (Nat.le_succ_of_le hcursor) h

theorem CronSchedule.nextFire_spec {schedule : CronSchedule} {after t : Nat}
    (h : schedule.nextFire after = some t) : after < t ∧ schedule.Matches t := by
  have hstart : (after / msPerMinute * msPerMinute + msPerMinute) % msPerMinute = 0 := by
    rw [Nat.add_mod_right, Nat.mul_mod_left]
  obtain ⟨hle, hmatches⟩ := CronSchedule.walkDays_spec hstart
    (fun hour hmem => (List.mem_insertionSort _).mp hmem)
    (fun minute hmem => (List.mem_insertionSort _).mp hmem) (Nat.le_refl _) h
  refine ⟨?_, hmatches⟩
  rw [msPerMinute] at hle
  omega

/-- A stored instant that `expression` matches. -/
def CronMatches (expression : JsString) (t : Nat) : Prop :=
  ∃ schedule, parseCronExpression expression = .ok schedule ∧ schedule.Matches t

theorem nextFire_spec {expression : JsString} {after t : Nat}
    (h : nextFire expression after = .ok (some t)) : after < t ∧ CronMatches expression t := by
  obtain ⟨schedule, hparse, h⟩ := bind_eq_ok h
  obtain ⟨hlt, hmatches⟩ := CronSchedule.nextFire_spec (Except.ok.inj h)
  exact ⟨hlt, schedule, hparse, hmatches⟩

end InvisibleString.Triggers
