import InvisibleString.Triggers.Cron

/- # `Triggers.NextFire` — the least matching minute, and where the search gives up

What a cron expression means is said from its text: an item covers values, a field covers what
one of its items covers, a minute fires when the fields cover it.  The parser's sets say the
same.  The search then returns the least minute that fires, as long as one lies in the
`MAX_SEARCH_DAYS` days it walks.

**Proved here.**

    the parsed fields contain what the texts cover  (`parseField_covers`,
                                                                         `matches_iff_fires`)
    what the search finds is the least firing minute, and what it does not find is not in its
      window  (`nextFire_minimal`)
    so it is right, and iterating it lists every firing minute, exactly while the window holds
      one whenever there is one  (`nextFire_least`)
    a first of January that must be a Sunday can be eleven years away  (`nextFire_gives_up`)
-/

namespace InvisibleString.Triggers

open Calendar Checks Json

/-! ## What an expression means -/

/-- `*`, a value or a range. -/
def itemRange (field : FieldSpec) (text : JsString) : Option (Nat × Nat) :=
  if text = [unit '*'] then some (field.min, field.max)
  else (range? text).map fun range => (range.1, range.2.getD range.1)

/-- The range and the step that an item writes down. -/
def itemSays (field : FieldSpec) (item : JsString) : Option ((Nat × Nat) × Nat) :=
  match item.splitOn (unit '/') with
  | [text] => (itemRange field text).map fun range => (range, 1)
  | [text, stepText] => do return (← itemRange field text, ← digits? stepText)
  | _ => none

def ItemCovers (field : FieldSpec) (item : JsString) (value : Nat) : Prop :=
  ∃ low high step, itemSays field item = some ((low, high), step) ∧ low ≤ value ∧ value ≤ high ∧
    step ∣ value - low

def FieldCovers (field : FieldSpec) (text : JsString) (value : Nat) : Prop :=
  ∃ item ∈ text.splitOn (unit ','), ItemCovers field item value

/-- Either day field when both are restricted, both otherwise; 0 and 7 are Sunday. -/
def DayCovers (domText dowText : JsString) (dom dow : Nat) : Prop :=
  let domHit := FieldCovers dayOfMonthField domText dom
  let dowHit := ∃ value, FieldCovers dayOfWeekField dowText value ∧ value % 7 = dow
  (startsWithStar domText = false ∧ startsWithStar dowText = false ∧ (domHit ∨ dowHit)) ∨
    ((startsWithStar domText = true ∨ startsWithStar dowText = true) ∧ domHit ∧ dowHit)

/-- The whole minute `t` is one that the five fields of `expression` cover. -/
def Fires (expression : JsString) (t : Nat) : Prop :=
  ∃ minuteText hourText domText monthText dowText,
    splitWhite (trim expression) = [minuteText, hourText, domText, monthText, dowText] ∧
    t % msPerMinute = 0 ∧ FieldCovers minuteField minuteText (minuteOf t) ∧
    FieldCovers hourField hourText (hourOf t) ∧
    FieldCovers monthField monthText (monthFromDay (dayOf t) + 1) ∧
    DayCovers domText dowText (dateFromDay (dayOf t)) (weekDay (dayOf t))

/-! ## The parsed sets -/

section Parse

variable {expression : JsString} {field : FieldSpec}

theorem cronFail_ne_ok {α : Type} {detail : JsString} {a : α} :
    cronFail expression field detail ≠ .ok a := nofun

theorem FieldValues.mem_addRange {values : FieldValues field} {low high step : Nat}
    {hlow : field.min ≤ low} {hhigh : high ≤ field.max} (hstep : 0 < step) (v : Nat) :
    v ∈ (values.addRange low high step hlow hhigh).1 ↔
      v ∈ values.1 ∨ low ≤ v ∧ v ≤ high ∧ step ∣ v - low := by
  have hiff : v ∈ ((List.range ((high - low) / step + 1)).map fun i => low + i * step) ∧
      v ≤ high ↔ low ≤ v ∧ v ≤ high ∧ step ∣ v - low := by
    constructor
    · rintro ⟨hmem, hle⟩
      obtain ⟨i, -, rfl⟩ := List.mem_map.mp hmem
      refine ⟨Nat.le_add_right _ _, hle, ?_⟩
      rw [Nat.add_sub_cancel_left]
      exact Nat.dvd_mul_left _ _
    · rintro ⟨hge, hle, k, hk⟩
      refine ⟨List.mem_map.mpr ⟨k, List.mem_range.mpr ?_, ?_⟩, hle⟩
      · rw [Nat.lt_succ_iff, Nat.le_div_iff_mul_le hstep, Nat.mul_comm, ← hk]
        omega
      · rw [Nat.mul_comm, ← hk]
        omega
  rw [← hiff]
  show v ∈ values.1 ++ _ ↔ _
  rw [List.mem_append, List.mem_filter, decide_eq_true_eq]
  constructor
  · rintro (hmem | ⟨hmem, hle, -⟩)
    · exact .inl hmem
    · exact .inr ⟨hmem, hle⟩
  · rintro (hmem | ⟨hmem, hle⟩)
    · exact .inl hmem
    · by_cases hold : v ∈ values.1
      · exact .inl hold
      · exact .inr ⟨hmem, hle, hold⟩

theorem parseStep_ok {item : JsString} {stepParts : List JsString} {step : Nat}
    (h : parseStep expression field item stepParts = .ok step) :
    0 < step ∧ (stepParts = [] ∧ step = 1 ∨
      ∃ stepText, stepParts = [stepText] ∧ digits? stepText = some step) := by
  match stepParts with
  | [] =>
    cases h
    exact ⟨Nat.one_pos, .inl ⟨rfl, rfl⟩⟩
  | [stepText] =>
    rw [parseStep] at h
    split at h
    · exact absurd h cronFail_ne_ok
    · next step' hdigits =>
      split at h
      · exact absurd h cronFail_ne_ok
      · next hpos =>
        cases h
        exact ⟨Nat.pos_of_ne_zero fun hzero => hpos (by omega), .inr ⟨_, rfl, hdigits⟩⟩
  | _ :: _ :: _ => exact absurd h cronFail_ne_ok

/-- The step the parser has read is the one the item writes down. -/
theorem itemSays_of_parseStep {item : JsString} {step : Nat} {range : Nat × Nat}
    (h : parseStep expression field item (item.splitOn (unit '/')).tail = .ok step)
    (hrange : itemRange field ((item.splitOn (unit '/')).headD []) = some range) :
    itemSays field item = some (range, step) := by
  obtain ⟨-, hparts⟩ := parseStep_ok h
  rw [itemSays]
  match hsplit : item.splitOn (unit '/') with
  | [] => exact absurd hsplit (List.splitOn_ne_nil _ _)
  | text :: stepParts =>
    rw [hsplit] at hparts hrange
    rcases hparts with ⟨htail, rfl⟩ | ⟨stepText, htail, hdigits⟩
    · cases htail
      exact congrArg (Option.map fun range => (range, 1)) hrange
    · cases htail
      show (itemRange field text).bind (fun range => (digits? stepText).bind fun step =>
        some (range, step)) = _
      rw [show itemRange field text = some range from hrange, hdigits]
      rfl

theorem parseItem_covers {values values' : FieldValues field} {item : JsString}
    (h : parseItem expression field values item = .ok values') (v : Nat) :
    v ∈ values'.1 ↔ v ∈ values.1 ∨ ItemCovers field item v := by
  rw [parseItem] at h
  split at h
  · exact absurd h cronFail_ne_ok
  · obtain ⟨step, hstep, h⟩ := bind_eq_ok h
    have hpos := (parseStep_ok hstep).1
    -- the range is known: the step and the range make up the item
    have hadds {low high : Nat} {hlow : field.min ≤ low} {hhigh : high ≤ field.max}
        (hrange : itemRange field ((item.splitOn (unit '/')).headD []) = some (low, high))
        (hvalues : values' = values.addRange low high step hlow hhigh) :
        v ∈ values'.1 ↔ v ∈ values.1 ∨ ItemCovers field item v := by
      rw [hvalues, FieldValues.mem_addRange hpos]
      have hitem := itemSays_of_parseStep hstep hrange
      constructor
      · rintro (hold | hcovers)
        · exact .inl hold
        · exact .inr ⟨low, high, step, hitem, hcovers⟩
      · rintro (hold | ⟨low', high', step', hitem', hcovers⟩)
        · exact .inl hold
        · rw [hitem] at hitem'
          cases hitem'
          exact .inr hcovers
    split at h
    · next hstar =>
      exact hadds (if_pos hstar) (Except.ok.inj h).symm
    · next hstar =>
      split at h
      · exact absurd h cronFail_ne_ok
      · next low high? hrange =>
        dsimp only at h
        split at h
        · exact absurd h cronFail_ne_ok
        · split at h
          · exact absurd h cronFail_ne_ok
          · split at h
            · refine hadds ?_ (Except.ok.inj h).symm
              rw [itemRange, if_neg hstar, hrange]
              rfl
            · exact absurd h cronFail_ne_ok

theorem foldlM_covers {items : List JsString} {values values' : FieldValues field}
    (h : items.foldlM (parseItem expression field) values = .ok values') (v : Nat) :
    v ∈ values'.1 ↔ v ∈ values.1 ∨ ∃ item ∈ items, ItemCovers field item v := by
  induction items generalizing values with
  | nil =>
    cases h
    constructor
    · exact .inl
    · rintro (hold | ⟨item, hitem, -⟩)
      · exact hold
      · cases hitem
  | cons item items ih =>
    rw [List.foldlM_cons] at h
    obtain ⟨values₁, hitem, h⟩ := bind_eq_ok h
    rw [ih h, parseItem_covers hitem, or_assoc, List.exists_mem_cons_iff]

theorem parseField_covers {text : JsString} {values : FieldValues field}
    (h : parseField expression field text = .ok values) (v : Nat) :
    v ∈ values.1 ↔ FieldCovers field text v := by
  rw [parseField] at h
  obtain ⟨values', hfold, h⟩ := bind_eq_ok h
  split at h
  · exact absurd h cronFail_ne_ok
  · cases h
    rw [foldlM_covers hfold]
    constructor
    · rintro (hold | hcovers)
      · cases hold
      · exact hcovers
    · exact .inr

end Parse

theorem mem_daysOfWeek {daysOfWeek : FieldValues dayOfWeekField} {dow : Nat} :
    dow ∈ daysOfWeek.1.map (fun day => if day = 7 then 0 else day) ↔
      ∃ value ∈ daysOfWeek.1, value % 7 = dow := by
  have hfold (value : Nat) (hvalue : value ∈ daysOfWeek.1) :
      (if value = 7 then 0 else value) = value % 7 := by
    have hle : value ≤ 7 := (daysOfWeek.2 value hvalue).2
    by_cases hseven : value = 7
    · rw [if_pos hseven, hseven]
    · rw [if_neg hseven, Nat.mod_eq_of_lt (by omega)]
  rw [List.mem_map]
  constructor
  · rintro ⟨value, hvalue, heq⟩
    exact ⟨value, hvalue, (hfold value hvalue).symm.trans heq⟩
  · rintro ⟨value, hvalue, heq⟩
    exact ⟨value, hvalue, (hfold value hvalue).trans heq⟩

theorem dayMatches_iff {expression domText dowText : JsString}
    {daysOfMonth : FieldValues dayOfMonthField} {daysOfWeek : FieldValues dayOfWeekField}
    (hdom : parseField expression dayOfMonthField domText = .ok daysOfMonth)
    (hdow : parseField expression dayOfWeekField dowText = .ok daysOfWeek)
    {schedule : CronSchedule} (hdays : schedule.daysOfMonth = daysOfMonth)
    (hweek : schedule.daysOfWeek = daysOfWeek.1.map fun day => if day = 7 then 0 else day)
    (hdomstar : schedule.domRestricted = !startsWithStar domText)
    (hdowstar : schedule.dowRestricted = !startsWithStar dowText) (dom dow : Nat) :
    schedule.dayMatches dom dow = true ↔ DayCovers domText dowText dom dow := by
  have hdomhit : dom ∈ daysOfMonth.1 ↔ FieldCovers dayOfMonthField domText dom :=
    parseField_covers hdom dom
  have hdowhit : dow ∈ schedule.daysOfWeek ↔
      ∃ value, FieldCovers dayOfWeekField dowText value ∧ value % 7 = dow := by
    rw [hweek, mem_daysOfWeek]
    refine exists_congr fun value => and_congr_left fun _ => ?_
    exact parseField_covers hdow value
  rw [CronSchedule.dayMatches, hdomstar, hdowstar, hdays, DayCovers, ← hdomhit, ← hdowhit]
  cases startsWithStar domText <;> cases startsWithStar dowText <;> simp

/-- The parser's schedule matches the minutes that the expression's text covers. -/
theorem matches_iff_fires {expression : JsString} {schedule : CronSchedule}
    (h : parseCronExpression expression = .ok schedule) (t : Nat) :
    schedule.Matches t ↔ Fires expression t := by
  rw [parseCronExpression] at h
  split at h
  · next minuteText hourText domText monthText dowText hsplit =>
    obtain ⟨daysOfWeek, hdow, h⟩ := bind_eq_ok h
    obtain ⟨minutes, hminutes, h⟩ := bind_eq_ok h
    obtain ⟨hours, hhours, h⟩ := bind_eq_ok h
    obtain ⟨daysOfMonth, hdom, h⟩ := bind_eq_ok h
    obtain ⟨months, hmonths, h⟩ := bind_eq_ok h
    have hday : schedule.dayMatches (dateFromDay (dayOf t)) (weekDay (dayOf t)) = true ↔ _ :=
      dayMatches_iff hdom hdow (by cases h; rfl) (by cases h; rfl) (by cases h; rfl)
        (by cases h; rfl) _ _
    cases h
    rw [CronSchedule.Matches, CronSchedule.dateMatches, Bool.and_eq_true, decide_eq_true_eq]
    rw [parseField_covers hminutes, parseField_covers hhours, parseField_covers hmonths, hday]
    constructor
    · rintro ⟨hwhole, hminute, hhour, hmonth, hday⟩
      exact ⟨_, _, _, _, _, hsplit, hwhole, hminute, hhour, hmonth, hday⟩
    · rintro ⟨_, _, _, _, _, hsplit', hwhole, hminute, hhour, hmonth, hday⟩
      rw [hsplit] at hsplit'
      cases hsplit'
      exact ⟨hwhole, hminute, hhour, hmonth, hday⟩
  · cases h

/-! ## The first time of a day -/

/-- Not before the start, on its day. -/
def NotBefore (isFirstDay : Bool) (start hour minute : Nat) : Prop :=
  isFirstDay = true → hourOf start < hour ∨ hour = hourOf start ∧ minuteOf start ≤ minute

theorem firstTime_inner {isFirstDay : Bool} {start hour minute : Nat} :
    (isFirstDay && hour < hourOf start) = false ∧
      (!(isFirstDay && hour == hourOf start && minute < minuteOf start)) = true ↔
      NotBefore isFirstDay start hour minute := by
  rw [NotBefore]
  cases isFirstDay with
  | false => simp
  | true =>
    simp only [Bool.true_and, decide_eq_false_iff_not, Bool.not_eq_true', Bool.and_eq_false_iff,
      beq_eq_false_iff_ne, true_implies]
    omega

/-- No time is left on the day. -/
theorem firstTime_none {hours minutes : List Nat} {isFirstDay : Bool} {start : Nat}
    (h : firstTime hours minutes isFirstDay start = none) {hour minute : Nat}
    (hhour : hour ∈ hours) (hminute : minute ∈ minutes) :
    ¬ NotBefore isFirstDay start hour minute := by
  intro hnot
  obtain ⟨hlate, hlater⟩ := firstTime_inner.mpr hnot
  have hfind := List.findSome?_eq_none_iff.mp h hour hhour
  rw [if_neg (by rw [hlate]; exact Bool.false_ne_true), Option.map_eq_none_iff,
    List.find?_eq_none] at hfind
  exact hfind minute hminute hlater

theorem firstTime_least {hours minutes : List Nat} {isFirstDay : Bool} {start hour minute : Nat}
    (h : firstTime hours minutes isFirstDay start = some (hour, minute))
    (hhours : hours.Pairwise (· ≤ ·)) (hminutes : minutes.Pairwise (· ≤ ·)) {hour' minute' : Nat}
    (hhour : hour' ∈ hours) (hminute : minute' ∈ minutes)
    (hnot : NotBefore isFirstDay start hour' minute') :
    hour < hour' ∨ hour = hour' ∧ minute ≤ minute' := by
  obtain ⟨hlate, hlater⟩ := firstTime_inner.mpr hnot
  obtain ⟨before, found, rest, hsplit, hfound, hskipped⟩ := List.findSome?_eq_some_iff.mp h
  split at hfound
  · cases hfound
  · obtain ⟨found', hfind, heq⟩ := Option.map_eq_some_iff.mp hfound
    cases heq
    -- `hour'` is none of those skipped: a minute of it would have been found
    have hrest : hour' ∈ hour :: rest := by
      rw [hsplit, List.mem_append] at hhour
      refine hhour.resolve_left fun hbefore => ?_
      have hnone := hskipped hour' hbefore
      rw [if_neg (by rw [hlate]; exact Bool.false_ne_true), Option.map_eq_none_iff,
        List.find?_eq_none] at hnone
      exact hnone minute' hminute hlater
    rw [hsplit] at hhours
    have hle : hour ≤ hour' := by
      rcases List.mem_cons.mp hrest with rfl | hmem
      · exact Nat.le_refl _
      · exact (List.pairwise_cons.mp (List.pairwise_append.mp hhours).2.1).1 hour' hmem
    rcases Nat.lt_or_eq_of_le hle with hlt | rfl
    · exact .inl hlt
    · refine .inr ⟨rfl, ?_⟩
      obtain ⟨-, earlier, later, hminutesplit, hearlier⟩ := List.find?_eq_some_iff_append.mp hfind
      rw [hminutesplit, List.mem_append] at hminute
      have hmem : minute' ∈ minute :: later := by
        refine hminute.resolve_left fun hmem => ?_
        have := hearlier minute' hmem
        rw [hlater] at this
        cases this
      rcases List.mem_cons.mp hmem with rfl | hmem
      · exact Nat.le_refl _
      · rw [hminutesplit] at hminutes
        exact (List.pairwise_cons.mp (List.pairwise_append.mp hminutes).2.1).1 minute' hmem

/-! ## The walk -/

section Walk

variable {schedule : CronSchedule} {hours minutes : List Nat} {start n cursor t : Nat}

/-- A matching minute not before the start is not before it on its day. -/
theorem notBefore_of_le {t : Nat} (hstart : start % msPerMinute = 0) (ht : t % msPerMinute = 0)
    (hle : start ≤ t) : NotBefore (dayOf t == dayOf start) start (hourOf t) (minuteOf t) := by
  intro hday
  have hday := eq_of_beq hday
  rw [eq_of_minute start hstart, eq_of_minute t ht, hday] at hle
  have hminute : minuteOf start < 60 := Nat.mod_lt _ (by decide)
  have hminute' : minuteOf t < 60 := Nat.mod_lt _ (by decide)
  rw [msPerDay, msPerHour, msPerMinute] at hle
  omega

theorem CronSchedule.passed_day (hstart : start % msPerMinute = 0)
    (hhours : ∀ hour ∈ schedule.hours.1, hour ∈ hours)
    (hminutes : ∀ minute ∈ schedule.minutes.1, minute ∈ minutes)
    (h : (if schedule.dateMatches cursor then firstTime hours minutes (cursor == dayOf start) start
      else none) = none) (hle : start ≤ t) (hmatches : schedule.Matches t) : dayOf t ≠ cursor := by
  intro hday
  obtain ⟨hwhole, hminute, hhour, hdate⟩ := hmatches
  rw [hday] at hdate
  rw [if_pos hdate] at h
  refine firstTime_none h (hhours _ hhour) (hminutes _ hminute) ?_
  rw [← hday]
  exact notBefore_of_le hstart hwhole hle

theorem CronSchedule.walkDays_none (hstart : start % msPerMinute = 0)
    (hhours : ∀ hour ∈ schedule.hours.1, hour ∈ hours)
    (hminutes : ∀ minute ∈ schedule.minutes.1, minute ∈ minutes)
    (h : schedule.walkDays hours minutes start n cursor = none) (hle : start ≤ t)
    (hmatches : schedule.Matches t) (hcursor : cursor ≤ dayOf t) : cursor + n ≤ dayOf t := by
  induction n generalizing cursor with
  | zero => exact hcursor
  | succ n ih =>
    rw [CronSchedule.walkDays] at h
    split at h
    · cases h
    · next hpassed =>
      have hne := CronSchedule.passed_day hstart hhours hminutes hpassed hle hmatches
      have := ih h (by omega)
      omega

/-- A walk that ends returns the least matching minute, on one of its days. -/
theorem CronSchedule.walkDays_least {fire : Nat} (hstart : start % msPerMinute = 0)
    (hhours : ∀ hour, hour ∈ schedule.hours.1 ↔ hour ∈ hours)
    (hminutes : ∀ minute, minute ∈ schedule.minutes.1 ↔ minute ∈ minutes)
    (hsortedhours : hours.Pairwise (· ≤ ·)) (hsortedminutes : minutes.Pairwise (· ≤ ·))
    (h : schedule.walkDays hours minutes start n cursor = some fire) :
    dayOf fire < cursor + n ∧ ∀ t, start ≤ t → schedule.Matches t → cursor ≤ dayOf t →
      fire ≤ t := by
  induction n generalizing cursor with
  | zero => cases h
  | succ n ih =>
    rw [CronSchedule.walkDays] at h
    split at h
    · next hour minute htime =>
      rw [utc_fromDay, Option.some.injEq] at h
      subst h
      split at htime
      · obtain ⟨hhour, hminute, -⟩ := firstTime_spec htime
        have hlthour : hour < 24 :=
          Nat.lt_succ_of_le (schedule.hours.2 hour ((hhours hour).mpr hhour)).2
        have hltminute : minute < 60 :=
          Nat.lt_succ_of_le (schedule.minutes.2 minute ((hminutes minute).mpr hminute)).2
        refine ⟨?_, ?_⟩
        · rw [dayOf_utc hlthour hltminute]
          omega
        · intro t hle hmatches hcursor
          obtain ⟨hwhole, hminute', hhour', -⟩ := hmatches
          rw [eq_of_minute t hwhole, msPerDay, msPerHour, msPerMinute]
          rcases Nat.lt_or_eq_of_le hcursor with hlt | hday
          · omega
          · have hnot := notBefore_of_le hstart hwhole hle
            rw [← hday] at hnot
            have hleast := firstTime_least htime hsortedhours hsortedminutes
              ((hhours _).mp hhour') ((hminutes _).mp hminute') hnot
            omega
      · cases htime
    · next hpassed =>
      obtain ⟨hbound, hleast⟩ := ih h
      refine ⟨by omega, ?_⟩
      intro t hle hmatches hcursor
      have hne := CronSchedule.passed_day hstart (fun hour => (hhours hour).mp)
        (fun minute => (hminutes minute).mp) hpassed hle hmatches
      exact hleast t hle hmatches (by omega)

end Walk

/-! ## The next instant -/

/-- The first minute the search looks at. -/
def nextMinute (after : Nat) : Nat := after / msPerMinute * msPerMinute + msPerMinute

theorem nextMinute_le {after t : Nat} (ht : t % msPerMinute = 0) :
    nextMinute after ≤ t ↔ after < t := by
  rw [msPerMinute] at ht
  rw [nextMinute, msPerMinute]
  omega

section Next

variable (P : Nat → Prop)

/-- The least instant with `P` after an instant, or none when there is none. -/
def IsNext (after : Nat) : Option Nat → Prop
  | some fire => IsLeast {t | after < t ∧ P t} fire
  | none => ∀ t, after < t → ¬ P t

/-- When a later instant has `P`, one has within the days of the search. -/
def WithinSearch (after : Nat) : Prop :=
  (∃ t, after < t ∧ P t) →
    ∃ t, after < t ∧ P t ∧ dayOf t < dayOf (nextMinute after) + MAX_SEARCH_DAYS

/-- The lists are the instants with `P`, one after the other. -/
structure Enumerates (after : Nat) (fires : Nat → List Nat) : Prop where
  increasing : ∀ n, (after :: fires n).Pairwise (· < ·)
  sound : ∀ n, ∀ t ∈ fires n, P t
  complete : ∀ t, after < t → P t → ∃ n, t ∈ fires n

end Next

/-- `n` times the next instant. -/
def CronSchedule.fires (schedule : CronSchedule) : Nat → Nat → List Nat
  | 0, _ => []
  | n + 1, after =>
    match schedule.nextFire after with
    | none => []
    | some fire => fire :: schedule.fires n fire

theorem CronSchedule.nextFire_minimal (schedule : CronSchedule) (after : Nat) :
    (∀ fire, schedule.nextFire after = some fire →
      IsLeast {t | after < t ∧ schedule.Matches t} fire ∧
        dayOf fire < dayOf (nextMinute after) + MAX_SEARCH_DAYS) ∧
    (schedule.nextFire after = none → ∀ t, after < t → schedule.Matches t →
      dayOf (nextMinute after) + MAX_SEARCH_DAYS ≤ dayOf t) := by
  have hstart : nextMinute after % msPerMinute = 0 := by
    rw [nextMinute, Nat.add_mod_right, Nat.mul_mod_left]
  have hdays {t : Nat} (hlt : after < t) (ht : schedule.Matches t) :
      nextMinute after ≤ t ∧ dayOf (nextMinute after) ≤ dayOf t := by
    have hle := (nextMinute_le ht.1).mpr hlt
    exact ⟨hle, Nat.div_le_div_right hle⟩
  constructor
  · intro fire h
    obtain ⟨hbound, hleast⟩ := CronSchedule.walkDays_least hstart
      (fun hour => (List.mem_insertionSort _).symm) (fun minute => (List.mem_insertionSort _).symm)
      (List.pairwise_insertionSort _ _) (List.pairwise_insertionSort _ _) h
    refine ⟨⟨CronSchedule.nextFire_spec h, ?_⟩, hbound⟩
    rintro t ⟨hlt, ht⟩
    obtain ⟨hle, hday⟩ := hdays hlt ht
    exact hleast t hle ht hday
  · intro h t hlt ht
    obtain ⟨hle, hday⟩ := hdays hlt ht
    exact CronSchedule.walkDays_none hstart (fun hour => (List.mem_insertionSort _).mpr)
      (fun minute => (List.mem_insertionSort _).mpr) h hle ht hday

theorem CronSchedule.isNext_iff (schedule : CronSchedule) (after : Nat) :
    IsNext schedule.Matches after (schedule.nextFire after) ↔
      WithinSearch schedule.Matches after := by
  obtain ⟨hsome, hnone⟩ := schedule.nextFire_minimal after
  cases hfire : schedule.nextFire after with
  | some fire =>
    obtain ⟨hleast, hbound⟩ := hsome fire hfire
    constructor
    · intro _ _
      exact ⟨fire, hleast.1.1, hleast.1.2, hbound⟩
    · exact fun _ => hleast
  | none =>
    constructor
    · rintro hnever ⟨t, hlt, ht⟩
      exact absurd ht (hnever t hlt)
    · intro hwindow t hlt ht
      obtain ⟨t', hlt', ht', hbound⟩ := hwindow ⟨t, hlt, ht⟩
      exact absurd (hnone hfire t' hlt' ht') (Nat.not_le.mpr hbound)

/-- The first instant of the list, and the list from there. -/
theorem CronSchedule.fires_succ {schedule : CronSchedule} {after fire : Nat}
    (h : schedule.nextFire after = some fire) (n : Nat) :
    schedule.fires (n + 1) after = fire :: schedule.fires n fire := by
  rw [CronSchedule.fires, h]

theorem CronSchedule.fires_spec (schedule : CronSchedule) (n after : Nat) :
    (after :: schedule.fires n after).Pairwise (· < ·) ∧
      ∀ t ∈ schedule.fires n after, schedule.Matches t := by
  induction n generalizing after with
  | zero => exact ⟨List.pairwise_singleton _ _, nofun⟩
  | succ n ih =>
    cases hfire : schedule.nextFire after with
    | none =>
      rw [CronSchedule.fires, hfire]
      exact ⟨List.pairwise_singleton _ _, nofun⟩
    | some fire =>
      obtain ⟨hlt, hmatches⟩ := CronSchedule.nextFire_spec hfire
      obtain ⟨hincreasing, hsound⟩ := ih fire
      rw [CronSchedule.fires_succ hfire, List.forall_mem_cons]
      refine ⟨List.pairwise_cons.mpr ⟨?_, hincreasing⟩, hmatches, hsound⟩
      intro t ht
      rcases List.mem_cons.mp ht with rfl | ht
      · exact hlt
      · exact Nat.lt_trans hlt ((List.pairwise_cons.mp hincreasing).1 t ht)

/-- Every matching minute is listed: each step of the iteration comes closer to it. -/
theorem CronSchedule.fires_complete {schedule : CronSchedule} {t : Nat} (ht : schedule.Matches t)
    (d : Nat) {after : Nat} (hwindow : ∀ u, after ≤ u → WithinSearch schedule.Matches u)
    (hlt : after < t) (hd : t ≤ after + d) : ∃ n, t ∈ schedule.fires n after := by
  induction d generalizing after with
  | zero => omega
  | succ d ih =>
    have hnext := (schedule.isNext_iff after).mpr (hwindow after (Nat.le_refl _))
    cases hfire : schedule.nextFire after with
    | none =>
      rw [hfire] at hnext
      exact absurd ht (hnext t hlt)
    | some fire =>
      rw [hfire] at hnext
      have hafter : after < fire := hnext.1.1
      rcases Nat.lt_or_eq_of_le (hnext.2 ⟨hlt, ht⟩) with hfirelt | heq
      · obtain ⟨n, hn⟩ := ih (fun u hu => hwindow u (by omega)) hfirelt (by omega)
        refine ⟨n + 1, ?_⟩
        rw [CronSchedule.fires_succ hfire]
        exact List.mem_cons_of_mem _ hn
      · refine ⟨1, ?_⟩
        rw [CronSchedule.fires_succ hfire, heq]
        exact List.mem_cons_self

/-- The search is right exactly when its window holds a firing minute or there is none; where
that is so from an instant on, iterating it lists all firing minutes. -/
theorem nextFire_least {expression : JsString} {schedule : CronSchedule}
    (h : parseCronExpression expression = .ok schedule) (after : Nat) :
    (∃ fire?, nextFire expression after = .ok fire? ∧
      (IsNext (Fires expression) after fire? ↔ WithinSearch (Fires expression) after)) ∧
    ((∀ u, after ≤ u → WithinSearch (Fires expression) u) →
      Enumerates (Fires expression) after fun n => schedule.fires n after) := by
  have hfires : Fires expression = schedule.Matches := by
    funext t
    exact propext (matches_iff_fires h t).symm
  rw [hfires]
  constructor
  · refine ⟨schedule.nextFire after, ?_, schedule.isNext_iff after⟩
    rw [nextFire, h]
    rfl
  · intro hwindow
    refine ⟨fun n => (schedule.fires_spec n after).1, fun n => (schedule.fires_spec n after).2, ?_⟩
    intro t hlt ht
    exact CronSchedule.fires_complete ht t hwindow hlt (Nat.le_add_left _ _)

/-- `* * 1-31 * 0-6`: every minute, since the day of the week hits. -/
def minutely : CronSchedule where
  minutes := ⟨List.range 60, by decide⟩
  hours := ⟨List.range 24, by decide⟩
  daysOfMonth := ⟨List.range' 1 31, by decide⟩
  months := ⟨List.range' 1 12, by decide⟩
  daysOfWeek := List.range 7
  domRestricted := true
  dowRestricted := true

theorem minutely_parsed :
    parseCronExpression (ascii "* * 1-31 * 0-6") = .ok minutely := by
  rfl

theorem minutely_matches (after : Nat) : minutely.Matches (nextMinute after) := by
  have hmonth : monthFromDay (dayOf (nextMinute after)) ≤ 11 := Nat.findGreatest_le 11
  refine ⟨?_, List.mem_range.mpr (Nat.mod_lt _ (by decide)),
    List.mem_range.mpr (Nat.mod_lt _ (by decide)), ?_⟩
  · rw [nextMinute, Nat.add_mod_right, Nat.mul_mod_left]
  · have hweek : weekDay (dayOf (nextMinute after)) ∈ minutely.daysOfWeek :=
      List.mem_range.mpr (Nat.mod_lt _ (by decide))
    have hmonths : monthFromDay (dayOf (nextMinute after)) + 1 ∈ minutely.months.1 :=
      List.mem_range'_1.mpr ⟨by omega, by omega⟩
    rw [CronSchedule.dateMatches, decide_eq_true hmonths, Bool.true_and]
    show (decide _ || decide _) = true
    rw [decide_eq_true hweek, Bool.or_true]

/-- Every minute is listed. -/
theorem nextFire_least_minutely :
    Enumerates (Fires (ascii "* * 1-31 * 0-6")) 0 fun n => minutely.fires n 0 := by
  refine (nextFire_least minutely_parsed 0).2 fun u _ _ => ?_
  have hmatches := minutely_matches u
  refine ⟨nextMinute u, (nextMinute_le hmatches.1).mp (Nat.le_refl _), ?_, ?_⟩
  · exact (matches_iff_fires minutely_parsed _).mp hmatches
  · exact Nat.lt_add_of_pos_right (by decide)

/-! ## Where it gives up -/

/-- `0 0 1 1 */7`: midnight of a first of January that is a Sunday. -/
def newYearSunday : CronSchedule where
  minutes := ⟨[0], by decide⟩
  hours := ⟨[0], by decide⟩
  daysOfMonth := ⟨[1], by decide⟩
  months := ⟨[1], by decide⟩
  daysOfWeek := [0, 0]
  domRestricted := true
  dowRestricted := false

theorem newYearSunday_parsed :
    parseCronExpression (ascii "0 0 1 1 */7") = .ok newYearSunday := by
  rfl

/-- The years whose first of January the search from New Year 2023 meets. -/
theorem year_of_newYear {day : Nat} (hlow : 19358 ≤ day) (hhigh : day < 22358)
    (hday : day = dayFromYear (yearFromDay day)) :
    ∃ i < 9, yearFromDay day = 2023 + i := by
  have hle := le_dayFromYear (yearFromDay day) (le_yearFromDay day)
  have hge := hlow.trans (Nat.le_of_eq hday)
  rw [dayFromYear] at hge
  exact ⟨yearFromDay day - 2023, by omega, by omega⟩

theorem newYearSunday_dark {t : Nat} (hlt : 1672531200000 < t) (h : newYearSunday.Matches t) :
    22358 ≤ dayOf t := by
  obtain ⟨hwhole, hminute, hhour, hdate⟩ := h
  obtain ⟨hmonth, hday⟩ := Bool.and_eq_true_iff.mp hdate
  obtain ⟨hdom, hdow⟩ := Bool.and_eq_true_iff.mp (show (_ && _) = true from hday)
  have hmonth : monthFromDay (dayOf t) = 0 := by
    have := List.mem_singleton.mp (of_decide_eq_true hmonth)
    omega
  have hdom : dateFromDay (dayOf t) = 1 := List.mem_singleton.mp (of_decide_eq_true hdom)
  have hdow : weekDay (dayOf t) = 0 := by
    rcases List.mem_cons.mp (of_decide_eq_true hdow) with hzero | hzero
    · exact hzero
    · exact List.mem_singleton.mp hzero
  have hfirst : dayOf t = dayFromYear (yearFromDay (dayOf t)) := by
    have hmake := makeDay_fromDay (dayOf t)
    have hstart : monthStart (isLeapYear (yearFromDay (dayOf t))) 0 = 0 := by
      cases isLeapYear (yearFromDay (dayOf t)) <;> rfl
    rw [hmonth, hdom, makeDay, hstart] at hmake
    exact hmake.symm
  have hmidnight : t = dayOf t * msPerDay := by
    have hsplit := eq_of_minute t hwhole
    rw [List.mem_singleton.mp hminute, List.mem_singleton.mp hhour] at hsplit
    omega
  by_contra hhigh
  rw [msPerDay] at hmidnight
  obtain ⟨i, hi, hyear⟩ := year_of_newYear (by omega) (Nat.lt_of_not_le hhigh) hfirst
  rw [hyear] at hfirst
  rw [hfirst] at hdow hmidnight
  -- 2023 is the year we are in, the others begin on other days of the week
  have hnone : ∀ i < 9, weekDay (dayFromYear (2023 + i)) = 0 → dayFromYear (2023 + i) = 19358 := by
    decide
  rw [hnone i hi hdow] at hmidnight
  omega

/-- From New Year 2023 the search for the next New Year on a Sunday returns none; New Year 2034
is one. -/
theorem nextFire_gives_up :
    nextFire (ascii "0 0 1 1 */7") 1672531200000 = .ok none ∧ 1672531200000 < 2019686400000 ∧
      Fires (ascii "0 0 1 1 */7") 2019686400000 := by
  refine ⟨?_, by decide, ?_⟩
  · have hnone : newYearSunday.nextFire 1672531200000 = none := by
      cases hfire : newYearSunday.nextFire 1672531200000 with
      | none => rfl
      | some fire =>
        obtain ⟨⟨⟨hlt, hmatches⟩, -⟩, hbound⟩ :=
          (newYearSunday.nextFire_minimal 1672531200000).1 fire hfire
        have hdark := newYearSunday_dark hlt hmatches
        exact absurd hbound (Nat.not_lt.mpr hdark)
    rw [nextFire, newYearSunday_parsed]
    exact congrArg Except.ok hnone
  · rw [← matches_iff_fires newYearSunday_parsed]
    exact ⟨by decide, by decide, by decide, by decide +kernel⟩

end InvisibleString.Triggers
