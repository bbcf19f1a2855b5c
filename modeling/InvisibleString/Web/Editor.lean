import InvisibleString.Lib.Transition
import Mathlib.Data.List.Basic

/- # `Web.Editor` — what an editor saves and publishes

The workflow editor and the agent editor are one machine: edits arm a timer, the timer sends a
save, a publish first flushes what is unsaved and then asks the server to publish the draft it
has.  Saves share one baseline and one reference to the save in flight, and none of them fails
as far as its caller can tell.

**Proved here.**

    when each save is confirmed while the server still has what it saved, a publish goes on from a
      save that was confirmed and was of what the editor held, and no other save reaches the
      server before the publish has read the draft, then every publish that reports success has
      published what the editor held, and an editor that shows saved and not dirty with no save in
      flight shows the server's draft  (`publish_snapshots`)
    a publish goes on from a save that failed, and two saves that change places on their way leave
      the older one on the server  (`publish_snapshots_older`)
-/

namespace InvisibleString.Web

open Transition

/-- The workflow editor, or the agent editor. -/
inductive EditorKind where
  | workflow
  | agent
  deriving DecidableEq

inductive SaveStatus where
  | idle
  | saving
  | saved
  | error
  deriving DecidableEq

/-- One `save`. -/
inductive SavePhase (D : Type) where
  | unsent
  | sent (next : D)
  /-- the server has written the draft; its answer is on the way -/
  | applied (next : D)
  /-- answered; a dry run is awaited before the promise resolves -/
  | confirmed (next : D)
  /-- the promise is resolved, whatever became of the request -/
  | settled (next : D) (ok : Bool)

/-- One call of `publish`; `held` is the definition the editor held. -/
inductive PublishPhase (D C : Type) where
  | idle
  /-- `flush` awaits a save -/
  | flushing (held : D) (save : Nat)
  /-- the request is on its way -/
  | posted (held : D)
  /-- the server has read and validated the draft -/
  | loaded (held : D) (config : C)
  /-- it has published the config; its answer is on the way -/
  | stored (held : D) (config : C)
  | succeeded (held : D) (config : C)
  | failed
  /-- the call got the promise of a publish in flight -/
  | joined (held : D) (running : Nat)

variable {D C : Type}

def PublishPhase.held : PublishPhase D C → Option D
  | flushing held _ | posted held | loaded held _ | stored held _ | succeeded held _ => some held
  | idle | failed | joined _ _ => none

structure EditorState (D C : Type) where
  definition : D
  /-- `savedRef`, the baseline -/
  saved : D
  status : SaveStatus
  /-- what the timer is going to save -/
  timer : Option D
  inFlightSave : Option Nat
  inFlightPublish : Option Nat
  saves : Nat → SavePhase D
  /-- saves sent so far -/
  sends : Nat
  publishes : Nat → PublishPhase D C
  /-- on the server -/
  draft : D
  published : Option C

def EditorState.opened (d : D) (published : Option C) : EditorState D C where
  definition := d
  saved := d
  status := .idle
  timer := none
  inFlightSave := none
  inFlightPublish := none
  saves := fun _ => .unsent
  sends := 0
  publishes := fun _ => .idle
  draft := d
  published := published

namespace EditorState

variable (s : EditorState D C)

/-- `save`, up to the request. -/
def send (next : D) : EditorState D C :=
  { s with
    status := .saving
    inFlightSave := some s.sends
    saves := Function.update s.saves s.sends (.sent next)
    sends := s.sends + 1 }

def setSave (n : Nat) (phase : SavePhase D) : EditorState D C :=
  { s with saves := Function.update s.saves n phase }

def setPublish (p : Nat) (phase : PublishPhase D C) : EditorState D C :=
  { s with publishes := Function.update s.publishes p phase }

/-- The effect that follows a render. -/
def rearm [DecidableEq D] : EditorState D C :=
  { s with timer := if s.definition = s.saved then none else some s.definition }

/-- With nothing to save, `flush` waits for the save in flight. -/
def flushPhase (held : D) : PublishPhase D C :=
  match s.inFlightSave with
  | some n => .flushing held n
  | none => .posted held

/-- `publish` up to its first `await`. -/
def beginPublish [DecidableEq D] (p : Nat) : EditorState D C :=
  if s.definition ≠ s.saved then
    { (s.send s.definition).setPublish p (.flushing s.definition s.sends) with timer := none }
  else
    { s.setPublish p (s.flushPhase s.definition) with timer := none }

theorem flushPhase_cases (held : D) :
    (∃ n, s.inFlightSave = some n ∧ s.flushPhase held = .flushing held n) ∨
      s.inFlightSave = none ∧ s.flushPhase held = .posted held := by
  cases hflight : s.inFlightSave with
  | some n =>
    refine .inl ⟨n, rfl, ?_⟩
    rw [flushPhase, hflight]
  | none =>
    refine .inr ⟨rfl, ?_⟩
    rw [flushPhase, hflight]

theorem inFlightPublish_beginPublish [DecidableEq D] (p : Nat) :
    (s.beginPublish p).inFlightPublish = s.inFlightPublish := by
  rw [beginPublish]
  split
  · rfl
  · rfl

end EditorState

inductive EditorEvent (D : Type) where
  | edit (d : D)
  | rerender
  | fire
  | arrive (n : Nat)
  | confirm (n : Nat)
  | dryRun (n : Nat)
  | failSave (n : Nat)
  | publish (p : Nat)
  | post (p : Nat)
  | load (p : Nat)
  | store (p : Nat)
  | answer (p : Nat)
  | failPublish (p : Nat)

/-- The editor, a request or the server takes a step.

    fire        the timer sends a save
    arrive      a save reaches the server
    failSave    it does not, or its answer does not reach the editor
    post        the flush is over and the request to publish is sent
    load        it reaches the server, which reads the draft and validates it -/
inductive EditorStep [DecidableEq D] (kind : EditorKind) (parse : D → Option C) :
    EditorState D C → EditorEvent D → EditorState D C → Prop
  | edit {s} (d) : EditorStep kind parse s (.edit d) { s with definition := d }.rearm
  | rerender {s} : EditorStep kind parse s .rerender s.rearm
  | fire {s d} : s.timer = some d →
      EditorStep kind parse s .fire { s.send d with timer := none }
  | arrive {s} (n) {d} : s.saves n = .sent d →
      EditorStep kind parse s (.arrive n) { s.setSave n (.applied d) with draft := d }
  | confirm {s} (n) {d} : s.saves n = .applied d →
      EditorStep kind parse s (.confirm n)
        { s.setSave n (.settled d true) with
          saved := d
          status := .saved
          inFlightSave := none }
  | confirmBare {s} (n) {d} : kind = .agent → s.saves n = .applied d →
      EditorStep kind parse s (.confirm n)
        { s.setSave n (.confirmed d) with
          saved := d
          status := .saved }
  | dryRun {s} (n) {d} : s.saves n = .confirmed d →
      EditorStep kind parse s (.dryRun n)
        { s.setSave n (.settled d true) with inFlightSave := none }
  | failSave {s} (n) {d} : s.saves n = .sent d ∨ s.saves n = .applied d →
      EditorStep kind parse s (.failSave n)
        { s.setSave n (.settled d false) with
          status := .error
          inFlightSave := none }
  | publish {s} (p) : kind = .workflow → s.publishes p = .idle →
      EditorStep kind parse s (.publish p) (s.beginPublish p)
  | publishFirst {s} (p) : kind = .agent → s.publishes p = .idle → s.inFlightPublish = none →
      EditorStep kind parse s (.publish p)
        { s.beginPublish p with inFlightPublish := some p }
  | join {s} (p) {q} : kind = .agent → s.publishes p = .idle → s.inFlightPublish = some q →
      EditorStep kind parse s (.publish p) (s.setPublish p (.joined s.definition q))
  | post {s} (p) {held n d ok} : s.publishes p = .flushing held n → s.saves n = .settled d ok →
      EditorStep kind parse s (.post p) (s.setPublish p (.posted held))
  | load {s} (p) {held config} : s.publishes p = .posted held → parse s.draft = some config →
      EditorStep kind parse s (.load p) (s.setPublish p (.loaded held config))
  | store {s} (p) {held config} : s.publishes p = .loaded held config →
      EditorStep kind parse s (.store p)
        { s.setPublish p (.stored held config) with published := some config }
  | answer {s} (p) {held config} : s.publishes p = .stored held config →
      EditorStep kind parse s (.answer p)
        { s.setPublish p (.succeeded held config) with inFlightPublish := none }
  | failPublish {s} (p) {held config} : s.publishes p = .posted held ∨
      s.publishes p = .loaded held config ∨ s.publishes p = .stored held config →
      EditorStep kind parse s (.failPublish p)
        { s.setPublish p .failed with inFlightPublish := none }

/-! ## What the user sees -/

/-- The save is not on its way, and its answer is not. -/
def SavePhase.Answered (phase : SavePhase D) : Prop :=
  ∀ d, phase ≠ .sent d ∧ phase ≠ .applied d

def EditorState.Settled (s : EditorState D C) : Prop := ∀ n, (s.saves n).Answered

structure EditorState.Faithful (parse : D → Option C) (s : EditorState D C) : Prop where
  /-- a publish that reports success has published what the editor held -/
  published : ∀ p held config, s.publishes p = .succeeded held config → parse held = some config
  /-- so has the publish that a call has joined -/
  joined : ∀ p q held held' config, s.publishes p = .joined held q →
    s.publishes q = .succeeded held' config → parse held = some config
  /-- saved and not dirty, the editor shows the server's draft -/
  saved : s.Settled → s.status = .saved → s.definition = s.saved → s.draft = s.definition

/-- A save has been confirmed. -/
def SavePhase.Confirmed (phase : SavePhase D) (d : D) : Prop :=
  phase = .confirmed d ∨ phase = .settled d true

theorem SavePhase.Confirmed.answered {phase : SavePhase D} {d : D} (h : phase.Confirmed d) :
    phase.Answered := by
  rcases h with rfl | rfl
  · exact fun _ => ⟨nofun, nofun⟩
  · exact fun _ => ⟨nofun, nofun⟩

/-- The publish goes on, or is about to, and has not read the draft. -/
def EditorState.Awaits (s : EditorState D C) (p : Nat) (held : D) : Prop :=
  s.publishes p = .posted held ∨
    ∃ n, s.publishes p = .flushing held n ∧ (s.saves n).Confirmed held

/-- What a step has to find.

    confirm     the server's draft is what was saved
    publish     with no request to wait for and nothing to save: no other save is unanswered, and
                if the last one failed, it has not reached the server; in the agent editor with a
                publish in flight: that one holds the definition
    post        the save awaited was confirmed, and was of what the editor held
    arrive      no publish that holds another definition is about to read the draft -/
def KeepsUp (kind : EditorKind) (m : Move (EditorState D C) (EditorEvent D)) : Prop :=
  match m.event with
  | .confirm n => ∀ d, m.before.saves n = .applied d → m.before.draft = d
  | .publish _ =>
    (∀ q held, kind = .agent → m.before.inFlightPublish = some q →
      (m.before.publishes q).held = some held → held = m.before.definition) ∧
    ((kind = .workflow ∨ m.before.inFlightPublish = none) →
      m.before.definition = m.before.saved →
      (∀ n, m.before.inFlightSave = some n → (m.before.saves n).Answered) →
      m.before.Settled ∧ (m.before.status = .error → m.before.draft = m.before.saved))
  | .post p => ∀ held n, m.before.publishes p = .flushing held n →
      m.before.saves n = .settled held true
  | .arrive n => ∀ d, m.before.saves n = .sent d → ∀ p held, m.before.Awaits p held → d = held
  | _ => True

/-! ## The invariant -/

/-- What a publish has read. -/
def PublishPhase.read : PublishPhase D C → Option (D × C)
  | loaded held config | stored held config | succeeded held config => some (held, config)
  | _ => none

structure EditorInv (parse : D → Option C) (s : EditorState D C) : Prop where
  fresh : ∀ n, s.sends ≤ n → s.saves n = .unsent
  awaited : ∀ p held n, s.publishes p = .flushing held n → n < s.sends
  flight : ∀ n, s.inFlightSave = some n → n < s.sends
  saving : s.status = .saving → ¬ s.Settled
  /-- with no save unanswered and the last one confirmed the baseline is right -/
  base : s.Settled → s.status = .idle ∨ s.status = .saved → s.draft = s.saved
  awaits : ∀ p held, s.Awaits p held → s.draft = held
  read : ∀ p held config, (s.publishes p).read = some (held, config) → parse held = some config
  running : ∀ q, s.inFlightPublish = some q → s.publishes q ≠ .idle
  joins : ∀ p q held, s.publishes p = .joined held q →
    s.publishes q ≠ .idle ∧ ∀ held', (s.publishes q).held = some held' → held' = held

section Steps

variable {parse : D → Option C} {s : EditorState D C}

theorem EditorInv.ne_of_unsent (h : EditorInv parse s) {n m : Nat} (hn : s.saves n ≠ .unsent)
    (hm : s.sends ≤ m) : m ≠ n := by
  rintro rfl
  exact hn (h.fresh m hm)

/-- Nothing else of the state is looked at. -/
theorem EditorInv.frame (h : EditorInv parse s) (definition : D) (timer : Option D)
    (published : Option C) :
    EditorInv parse { s with definition := definition, timer := timer, published := published } :=
  ⟨h.fresh, h.awaited, h.flight, h.saving, h.base, h.awaits, h.read, h.running, h.joins⟩

theorem EditorInv.draft_eq (h : EditorInv parse s) (hsettled : s.Settled)
    (herror : s.status = .error → s.draft = s.saved) : s.draft = s.saved := by
  cases hstatus : s.status with
  | idle => exact h.base hsettled (.inl hstatus)
  | saving => exact absurd hsettled (h.saving hstatus)
  | saved => exact h.base hsettled (.inr hstatus)
  | error => exact herror hstatus

theorem not_settled_send (next : D) : ¬ (s.send next).Settled := by
  intro hsettled
  exact (hsettled s.sends next).1 (Function.update_self ..)

theorem EditorInv.send (h : EditorInv parse s) (next : D) : EditorInv parse (s.send next) where
  fresh n hn := by
    have hlt : s.sends < n := hn
    exact (Function.update_of_ne (Nat.ne_of_gt hlt) _ _).trans (h.fresh n (Nat.le_of_lt hlt))
  awaited p held n hp := Nat.lt_succ_of_lt (h.awaited p held n hp)
  flight n hn := by
    cases hn
    exact Nat.lt_succ_self _
  saving _ := not_settled_send next
  base hsettled _ := absurd hsettled (not_settled_send next)
  awaits p held hawaits := by
    rcases hawaits with hposted | ⟨n, hflushing, hconfirmed⟩
    · exact h.awaits p held (.inl hposted)
    · have hne : n ≠ s.sends := Nat.ne_of_lt (h.awaited p held n hflushing)
      have hsame : (s.send next).saves n = s.saves n := Function.update_of_ne hne _ _
      rw [hsame] at hconfirmed
      exact h.awaits p held (.inr ⟨n, hflushing, hconfirmed⟩)
  read := h.read
  running := h.running
  joins := h.joins

theorem awaits_setSave {n : Nat} {phase : SavePhase D} {p : Nat} {held : D}
    (h : (s.setSave n phase).Awaits p held) :
    s.Awaits p held ∨ s.publishes p = .flushing held n ∧ phase.Confirmed held := by
  rcases h with hposted | ⟨m, hflushing, hconfirmed⟩
  · exact .inl (.inl hposted)
  · by_cases hm : m = n
    · subst hm
      have hself : (s.setSave m phase).saves m = phase := Function.update_self ..
      rw [hself] at hconfirmed
      exact .inr ⟨hflushing, hconfirmed⟩
    · have hsame : (s.setSave n phase).saves m = s.saves m := Function.update_of_ne hm _ _
      rw [hsame] at hconfirmed
      exact .inl (.inr ⟨m, hflushing, hconfirmed⟩)

theorem EditorInv.moved (h : EditorInv parse s) {n : Nat} (hn : s.saves n ≠ .unsent)
    (phase : SavePhase D) (saved : D) (status : SaveStatus) {flight : Option Nat} (draft : D)
    (hflight : ∀ m, flight = some m → s.inFlightSave = some m)
    (hsaving : status = .saving → ¬ (s.setSave n phase).Settled)
    (hbase : (s.setSave n phase).Settled → status = .idle ∨ status = .saved → draft = saved)
    (hawaits : ∀ p held, (s.setSave n phase).Awaits p held → draft = held) :
    EditorInv parse { s.setSave n phase with
      saved := saved
      status := status
      inFlightSave := flight
      draft := draft } where
  fresh m hm := (Function.update_of_ne (h.ne_of_unsent hn hm) _ _).trans (h.fresh m hm)
  awaited := h.awaited
  flight m hm := h.flight m (hflight m hm)
  saving := hsaving
  base := hbase
  awaits := hawaits
  read := h.read
  running := h.running
  joins := h.joins

theorem EditorInv.setPublish (h : EditorInv parse s) (p : Nat) (phase : PublishPhase D C)
    (running : Option Nat) (hphase : phase ≠ .idle)
    (hflushing : ∀ held n, phase = .flushing held n → n < s.sends ∧
      ((s.saves n).Confirmed held → s.draft = held))
    (hposted : ∀ held, phase = .posted held → s.draft = held)
    (hread : ∀ held config, phase.read = some (held, config) → parse held = some config)
    (hjoined : ∀ held q, phase = .joined held q → s.publishes q ≠ .idle ∧
      ∀ held', (s.publishes q).held = some held' → held' = held)
    (hheld : s.publishes p = .idle ∨ phase.held = none ∨ phase.held = (s.publishes p).held)
    (hrunning : ∀ q, running = some q → q = p ∨ s.inFlightPublish = some q) :
    EditorInv parse { s.setPublish p phase with inFlightPublish := running } := by
  have hself : Function.update s.publishes p phase p = phase := Function.update_self ..
  have hother {q : Nat} (hq : q ≠ p) :
      Function.update s.publishes p phase q = s.publishes q := Function.update_of_ne hq _ _
  have hstarted {q : Nat} (hq : s.publishes q ≠ .idle) :
      Function.update s.publishes p phase q ≠ .idle := by
    by_cases heq : q = p
    · subst heq
      rw [hself]
      exact hphase
    · rw [hother heq]
      exact hq
  refine ⟨h.fresh, ?_, h.flight, h.saving, h.base, ?_, ?_, ?_, ?_⟩
  · intro q held n hq
    by_cases heq : q = p
    · subst heq
      exact (hflushing held n (hself.symm.trans hq)).1
    · exact h.awaited q held n ((hother heq).symm.trans hq)
  · intro q held hawaits
    by_cases heq : q = p
    · subst heq
      rcases hawaits with hq | ⟨n, hq, hconfirmed⟩
      · exact hposted held (hself.symm.trans hq)
      · exact (hflushing held n (hself.symm.trans hq)).2 hconfirmed
    · refine h.awaits q held ?_
      rcases hawaits with hq | ⟨n, hq, hconfirmed⟩
      · exact .inl ((hother heq).symm.trans hq)
      · exact .inr ⟨n, (hother heq).symm.trans hq, hconfirmed⟩
  · intro q held config hq
    by_cases heq : q = p
    · subst heq
      exact hread held config ((congrArg PublishPhase.read hself).symm.trans hq)
    · exact h.read q held config ((congrArg PublishPhase.read (hother heq)).symm.trans hq)
  · intro q hq
    rcases hrunning q hq with rfl | hq
    · show Function.update s.publishes q phase q ≠ _
      rw [hself]
      exact hphase
    · exact hstarted (h.running q hq)
  · intro q r held hq
    obtain ⟨hidle, hsame⟩ : s.publishes r ≠ .idle ∧
        ∀ held', (s.publishes r).held = some held' → held' = held := by
      by_cases heq : q = p
      · subst heq
        exact hjoined held r (hself.symm.trans hq)
      · exact h.joins q r held ((hother heq).symm.trans hq)
    refine ⟨hstarted hidle, fun held' hheld' => ?_⟩
    by_cases heq : r = p
    · subst heq
      have hnew : phase.held = some held' := (congrArg PublishPhase.held hself).symm.trans hheld'
      rcases hheld with hr | hr | hr
      · exact absurd hr hidle
      · rw [hr] at hnew
        cases hnew
      · exact hsame held' (hr.symm.trans hnew)
    · exact hsame held' ((congrArg PublishPhase.held (hother heq)).symm.trans hheld')

theorem EditorInv.publishing (h : EditorInv parse s) (p : Nat) (phase : PublishPhase D C)
    (running : Option Nat) (hphase : phase ≠ .idle)
    (hposted : ∀ held, phase = .posted held → s.draft = held)
    (hread : ∀ held config, phase.read = some (held, config) → parse held = some config)
    (hflushing : ∀ held n, phase ≠ .flushing held n) (hjoined : ∀ held q, phase ≠ .joined held q)
    (hheld : phase.held = none ∨ phase.held = (s.publishes p).held)
    (hrunning : ∀ q, running = some q → s.inFlightPublish = some q) :
    EditorInv parse { s.setPublish p phase with inFlightPublish := running } :=
  h.setPublish p phase running hphase (fun held n heq => absurd heq (hflushing held n)) hposted
    hread
    (fun held q heq => absurd heq (hjoined held q)) (.inr hheld) fun q hq => .inr (hrunning q hq)

theorem EditorInv.beginPublish [DecidableEq D] (h : EditorInv parse s) {p : Nat}
    (hp : s.publishes p = .idle) {running : Option Nat}
    (hrunning : ∀ q, running = some q → q = p ∨ s.inFlightPublish = some q)
    (hgood : s.definition = s.saved →
      (∀ n, s.inFlightSave = some n → (s.saves n).Answered) →
      s.Settled ∧ (s.status = .error → s.draft = s.saved)) :
    EditorInv parse { s.beginPublish p with inFlightPublish := running } := by
  rw [EditorState.beginPublish]
  split
  · have hnew : (s.send s.definition).saves s.sends = .sent s.definition :=
      Function.update_self ..
    have hinv := (h.send s.definition).setPublish p (.flushing s.definition s.sends) running
      nofun ?_ nofun nofun nofun
      (.inl hp) hrunning
    · exact hinv.frame s.definition none s.published
    · intro held n heq
      cases heq
      refine ⟨Nat.lt_succ_self _, fun hconfirmed => ?_⟩
      rw [hnew] at hconfirmed
      rcases hconfirmed with hconfirmed | hconfirmed
      · cases hconfirmed
      · cases hconfirmed
  · next hclean =>
    have hclean : s.definition = s.saved := Decidable.not_not.mp hclean
    have hdraft (hanswered : ∀ n, s.inFlightSave = some n → (s.saves n).Answered) :
        s.draft = s.definition := by
      obtain ⟨hsettled, herror⟩ := hgood hclean hanswered
      rw [hclean]
      exact h.draft_eq hsettled herror
    rcases s.flushPhase_cases s.definition with ⟨n, hflight, hphase⟩ | ⟨hflight, hphase⟩
    · rw [hphase]
      have hinv := h.setPublish p (.flushing s.definition n) running nofun ?_ nofun
        nofun nofun (.inl hp) hrunning
      · exact hinv.frame s.definition none s.published
      · intro held m heq
        cases heq
        refine ⟨h.flight n hflight, fun hconfirmed => hdraft fun m hm => ?_⟩
        rw [hflight] at hm
        cases hm
        exact hconfirmed.answered
    · rw [hphase]
      have hinv := h.setPublish p (.posted s.definition) running nofun nofun ?_ nofun
        nofun (.inl hp) hrunning
      · exact hinv.frame s.definition none s.published
      · intro held heq
        cases heq
        refine hdraft fun m hm => ?_
        rw [hflight] at hm
        cases hm

theorem EditorInv.arrive (h : EditorInv parse s) {n : Nat} {d : D} (hsent : s.saves n = .sent d)
    (hgood : ∀ p held, s.Awaits p held → d = held) :
    EditorInv parse { s.setSave n (.applied d) with draft := d } := by
  have hunsettled : ¬ (s.setSave n (.applied d)).Settled := fun hsettled =>
    (hsettled n d).2 (Function.update_self ..)
  refine h.moved (by rw [hsent]; nofun) (.applied d) s.saved s.status d (fun _ hm => hm)
    (fun _ => hunsettled) (fun hsettled _ => absurd hsettled hunsettled) ?_
  intro p held hawaits
  rcases awaits_setSave hawaits with hbefore | ⟨-, hconfirmed | hconfirmed⟩
  · exact hgood p held hbefore
  · cases hconfirmed
  · cases hconfirmed

theorem EditorInv.confirm (h : EditorInv parse s) {n : Nat} {d : D}
    (happlied : s.saves n = .applied d) (hgood : s.draft = d) {phase : SavePhase D}
    (hphase : ∀ held, phase.Confirmed held → held = d) {flight : Option Nat}
    (hflight : ∀ m, flight = some m → s.inFlightSave = some m) :
    EditorInv parse { s.setSave n phase with
      saved := d
      status := .saved
      inFlightSave := flight } := by
  refine h.moved (by rw [happlied]; nofun) phase d .saved s.draft hflight nofun
    (fun _ _ => hgood) ?_
  intro p held hawaits
  rcases awaits_setSave hawaits with hbefore | ⟨-, hconfirmed⟩
  · exact h.awaits p held hbefore
  · rw [hphase held hconfirmed]
    exact hgood

theorem EditorInv.dryRun (h : EditorInv parse s) {n : Nat} {d : D}
    (hconfirmed : s.saves n = .confirmed d) :
    EditorInv parse { s.setSave n (.settled d true) with inFlightSave := none } := by
  have hsettled : (s.setSave n (.settled d true)).Settled → s.Settled := by
    intro hsettled m
    by_cases hm : m = n
    · subst hm
      rw [hconfirmed]
      exact fun _ => ⟨nofun, nofun⟩
    · have hsame : (s.setSave n (.settled d true)).saves m = s.saves m :=
        Function.update_of_ne hm _ _
      have hanswered := hsettled m
      rw [hsame] at hanswered
      exact hanswered
  have hsaving : s.status = .saving → ¬ (s.setSave n (.settled d true)).Settled :=
    fun hstatus hnow => h.saving hstatus (hsettled hnow)
  refine h.moved (by rw [hconfirmed]; nofun) (.settled d true) s.saved s.status s.draft nofun
    hsaving (fun hnow => h.base (hsettled hnow)) ?_
  intro p held hawaits
  rcases awaits_setSave hawaits with hbefore | ⟨hflushing, hnow | hnow⟩
  · exact h.awaits p held hbefore
  · cases hnow
  · cases hnow
    exact h.awaits p d (.inr ⟨n, hflushing, .inl hconfirmed⟩)

theorem EditorInv.failSave (h : EditorInv parse s) {n : Nat} {d : D}
    (hn : s.saves n = .sent d ∨ s.saves n = .applied d) :
    EditorInv parse { s.setSave n (.settled d false) with
      status := .error
      inFlightSave := none } := by
  have hunsent : s.saves n ≠ .unsent := by
    rcases hn with hn | hn
    · rw [hn]
      nofun
    · rw [hn]
      nofun
  refine h.moved hunsent (.settled d false) s.saved .error s.draft nofun nofun ?_ ?_
  · rintro - (hstatus | hstatus)
    · cases hstatus
    · cases hstatus
  · intro p held hawaits
    rcases awaits_setSave hawaits with hbefore | ⟨-, hconfirmed | hconfirmed⟩
    · exact h.awaits p held hbefore
    · cases hconfirmed
    · cases hconfirmed

theorem EditorInv.step [DecidableEq D] {kind : EditorKind} {s' : EditorState D C}
    {e : EditorEvent D} (h : EditorInv parse s) (hstep : EditorStep kind parse s e s')
    (hgood : KeepsUp kind ⟨s, e, s'⟩) : EditorInv parse s' := by
  cases hstep with
  | edit d => exact h.frame d _ s.published
  | rerender => exact h.frame s.definition _ s.published
  | fire _ => exact (h.send _).frame s.definition none s.published
  | arrive n hsent => exact h.arrive hsent (hgood _ hsent)
  | confirm n happlied =>
    refine h.confirm happlied (hgood _ happlied) ?_ nofun
    rintro held (hconfirmed | hconfirmed)
    · cases hconfirmed
    · cases hconfirmed
      rfl
  | confirmBare n _ happlied =>
    refine h.confirm happlied (hgood _ happlied) ?_ fun _ hm => hm
    rintro held (hconfirmed | hconfirmed)
    · cases hconfirmed
      rfl
    · cases hconfirmed
  | dryRun n hconfirmed => exact h.dryRun hconfirmed
  | failSave n hn => exact h.failSave hn
  | publish p hkind hidle =>
    refine h.beginPublish hidle (fun q hq => .inr ?_) (hgood.2 (.inl hkind))
    exact (s.inFlightPublish_beginPublish p).symm.trans hq
  | publishFirst p _ hidle hnone =>
    refine h.beginPublish hidle (fun q hq => .inl ?_) (hgood.2 (.inr hnone))
    exact (Option.some.inj hq).symm
  | @join p q hkind hidle hrunning =>
    refine h.setPublish _ _ _ nofun nofun nofun nofun ?_ (.inl hidle) fun r hr => .inr hr
    intro held r heq
    cases heq
    exact ⟨h.running q hrunning, fun held' => hgood.1 q held' hkind hrunning⟩
  | @post p held n d ok hflushing hsettled =>
    refine h.publishing _ _ _ nofun ?_ nofun nofun nofun (.inr ?_) fun _ hq => hq
    · intro held' heq
      cases heq
      exact h.awaits p held (.inr ⟨n, hflushing, .inr (hgood held n hflushing)⟩)
    · rw [hflushing]
      rfl
  | @load p held config hposted hparse =>
    refine h.publishing _ _ _ nofun nofun ?_ nofun nofun (.inr ?_) fun _ hq => hq
    · intro held' config' heq
      cases heq
      rw [← h.awaits p held (.inl hposted)]
      exact hparse
    · rw [hposted]
      rfl
  | @store p held config hloaded =>
    have hinv := h.publishing p (.stored held config) s.inFlightPublish nofun nofun ?_
      nofun nofun (.inr ?_) fun _ hq => hq
    · exact hinv.frame s.definition s.timer (some config)
    · intro held' config' heq
      cases heq
      exact h.read p held config (congrArg PublishPhase.read hloaded)
    · rw [hloaded]
      rfl
  | @answer p held config hstored =>
    refine h.publishing _ _ _ nofun nofun ?_ nofun nofun (.inr ?_) nofun
    · intro held' config' heq
      cases heq
      exact h.read p held config (congrArg PublishPhase.read hstored)
    · rw [hstored]
      rfl
  | failPublish p _ => exact h.publishing _ _ _ nofun nofun nofun nofun nofun (.inl rfl) nofun

end Steps

theorem EditorInv.opened (parse : D → Option C) (d : D) (published : Option C) :
    EditorInv parse (.opened d published) where
  fresh _ _ := rfl
  awaited := nofun
  flight := nofun
  saving := nofun
  base _ _ := rfl
  awaits := by
    rintro p held (hposted | ⟨n, hflushing, -⟩)
    · cases hposted
    · cases hflushing
  read := nofun
  running := nofun
  joins := nofun

theorem EditorInv.faithful {parse : D → Option C} {s : EditorState D C} (h : EditorInv parse s) :
    s.Faithful parse where
  published p held config hp := h.read p held config (congrArg PublishPhase.read hp)
  joined p q held held' config hp hq := by
    have hsame : held' = held := (h.joins p q held hp).2 held' (congrArg PublishPhase.held hq)
    rw [← hsame]
    exact h.read q held' config (congrArg PublishPhase.read hq)
  saved hsettled hstatus hclean := by
    rw [hclean]
    exact h.base hsettled (.inr hstatus)

/-- While saves are confirmed in the order they arrive, a publish goes on from a save that was
confirmed and of what it holds, and no other save comes between it and the server's read, the
user gets published what the user saw. -/
theorem publish_snapshots [DecidableEq D] {kind : EditorKind} {parse : D → Option C} {d : D}
    {published : Option C} {s : EditorState D C}
    {moves : List (Move (EditorState D C) (EditorEvent D))}
    (h : Trace (EditorStep kind parse) (.opened d published) moves s)
    (hgood : ∀ m ∈ moves, KeepsUp kind m) : s.Faithful parse :=
  (h.invariant (EditorInv parse) (KeepsUp kind) (fun _ hstep hgood hinv => hinv.step hstep hgood)
    hgood (.opened parse d published)).faithful

/-- An edit, and a publish that flushes it. -/
theorem publish_snapshots_edit : ∃ (s : EditorState Nat Nat) (moves : List _),
    Trace (EditorStep .agent some) (.opened 0 none) moves s ∧ s.Faithful some ∧
      s.publishes 0 = .succeeded 1 1 ∧ s.published = some 1 := by
  have h : Trace (EditorStep .agent some) (.opened 0 none) _ _ :=
    .cons (.edit 1) <| .cons (.publishFirst 0 rfl rfl rfl) <| .cons (.arrive 0 rfl) <|
    .cons (.confirm 0 rfl) <| .cons (.post 0 rfl rfl) <| .cons (.load 0 rfl rfl) <|
    .cons (.store 0 rfl) <| .cons (.answer 0 rfl) <| .nil _
  refine ⟨_, _, h, publish_snapshots h ?_, rfl, rfl⟩
  simp only [List.forall_mem_cons, List.not_mem_nil, false_implies, implies_true, and_true]
  refine ⟨trivial, ⟨?_, ?_⟩, ?_, ?_, ?_, trivial, trivial, trivial⟩
  · intro q held _ hflight
    cases hflight
  · intro _ hclean
    cases hclean
  · rintro d hsent (_ | p) held (hposted | ⟨n, hflushing, hconfirmed⟩)
    · cases hposted
    · cases hflushing
      rcases hconfirmed with hconfirmed | hconfirmed
      · cases hconfirmed
      · cases hconfirmed
    · cases hposted
    · cases hflushing
  · intro d happlied
    cases happlied
    rfl
  · intro held n hflushing
    cases hflushing
    rfl

theorem failed_flush_publishes (kind : EditorKind) :
    ∃ (s : EditorState Nat Nat) (moves : List _),
      Trace (EditorStep kind some) (.opened 0 none) moves s ∧
        s.publishes 0 = .succeeded 1 0 ∧ s.published = some 0 := by
  cases kind with
  | workflow =>
    have h : Trace (EditorStep .workflow some) (.opened 0 none) _ _ :=
      .cons (.edit 1) <| .cons (.publish 0 rfl rfl) <| .cons (.failSave 0 (.inl rfl)) <|
      .cons (.post 0 rfl rfl) <| .cons (.load 0 rfl rfl) <| .cons (.store 0 rfl) <|
      .cons (.answer 0 rfl) <| .nil _
    exact ⟨_, _, h, rfl, rfl⟩
  | agent =>
    have h : Trace (EditorStep .agent some) (.opened 0 none) _ _ :=
      .cons (.edit 1) <| .cons (.publishFirst 0 rfl rfl rfl) <|
      .cons (.failSave 0 (.inl rfl)) <| .cons (.post 0 rfl rfl) <| .cons (.load 0 rfl rfl) <|
      .cons (.store 0 rfl) <| .cons (.answer 0 rfl) <| .nil _
    exact ⟨_, _, h, rfl, rfl⟩

theorem overtaken_save_stays (kind : EditorKind) :
    ∃ (s : EditorState Nat Nat) (moves : List _),
      Trace (EditorStep kind some) (.opened 0 none) moves s ∧ s.Settled ∧ s.status = .saved ∧
        s.definition = 2 ∧ s.saved = 2 ∧ s.draft = 1 := by
  have h : Trace (EditorStep kind some) (.opened 0 none) _ _ :=
    .cons (.edit 1) <| .cons (.fire rfl) <| .cons (.edit 2) <| .cons (.fire rfl) <|
    .cons (.arrive 1 rfl) <| .cons (.arrive 0 rfl) <| .cons (.confirm 0 rfl) <|
    .cons (.confirm 1 rfl) <| .nil _
  refine ⟨_, _, h, ?_, rfl, rfl, rfl, rfl⟩
  rintro (_ | _ | n) d
  · exact ⟨nofun, nofun⟩
  · exact ⟨nofun, nofun⟩
  · exact ⟨nofun, nofun⟩

/-- In both editors a publish goes on from a flush that has failed and publishes the older draft,
and of two saves that change places the older one stays on the server while the editor shows
saved. -/
theorem publish_snapshots_older :
    (∃ (s : EditorState Nat Nat) (moves : List _),
      Trace (EditorStep .workflow some) (.opened 0 none) moves s ∧ s.publishes 0 = .succeeded 1 0 ∧
        s.published = some 0 ∧ ¬ s.Faithful some) ∧
    (∃ (s : EditorState Nat Nat) (moves : List _),
      Trace (EditorStep .agent some) (.opened 0 none) moves s ∧ s.publishes 0 = .succeeded 1 0 ∧
        s.published = some 0 ∧ ¬ s.Faithful some) ∧
    (∃ (s : EditorState Nat Nat) (moves : List _),
      Trace (EditorStep .workflow some) (.opened 0 none) moves s ∧ s.Settled ∧
        s.status = .saved ∧ s.definition = 2 ∧ s.saved = 2 ∧ s.draft = 1) ∧
    ∃ (s : EditorState Nat Nat) (moves : List _),
      Trace (EditorStep .agent some) (.opened 0 none) moves s ∧ s.Settled ∧
        s.status = .saved ∧ s.definition = 2 ∧ s.saved = 2 ∧ s.draft = 1 := by
  have hunfaithful {s : EditorState Nat Nat} (hp : s.publishes 0 = .succeeded 1 0) :
      ¬ s.Faithful some := by
    intro hfaithful
    cases hfaithful.published 0 1 0 hp
  obtain ⟨s, moves, h, hp, hpublished⟩ := failed_flush_publishes .workflow
  obtain ⟨s', moves', h', hp', hpublished'⟩ := failed_flush_publishes .agent
  exact ⟨⟨s, moves, h, hp, hpublished, hunfaithful hp⟩,
    ⟨s', moves', h', hp', hpublished', hunfaithful hp'⟩, overtaken_save_stays .workflow,
    overtaken_save_stays .agent⟩

end InvisibleString.Web
