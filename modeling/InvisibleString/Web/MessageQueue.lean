import InvisibleString.Lib.Text
import InvisibleString.Lib.Transition
import Mathlib.Data.List.Nodup

/- # `Web.MessageQueue` — the messages that wait for the chat's slot

What is typed while a run is working waits in a queue; when the slot is free the queue goes out as
one message.  A send that fails as busy is tried again after a while, and after too many of those,
or another failure, its text is handed back to the composer.

The queue is React state, what is in flight is a reference, the retry is a timer; an effect that
runs after a render decides what to send.  Beside them a run records what became of each message.

**Proved here.**

    in every run each message is in one send that succeeded, was handed back once, was removed by
      the user or is still queued, the messages keep their order, and while the slot is free and
      the queue is not empty a send is in flight or the retry timer is armed
                                                                        (`message_queue_kept`)
    a message can be removed after a send that included it was tried  (`removed_between_retries`)
-/

namespace InvisibleString.Web

open Json
open Transition (Move Trace)

/-! ## The queue -/

structure QueuedMessage where
  id : Nat
  text : JsString
  deriving DecidableEq

/-- How `send` settles; an error is told by its code. -/
inductive SendOutcome where
  | sent
  | sessionBusy
  | sessionOver
  | failed (errorMessage : JsString)

/-- A send that succeeded, or was given up. -/
structure SettledBatch where
  sent : Bool
  messages : List QueuedMessage

/-- What a run records. -/
structure QueueLog where
  enqueued : List QueuedMessage
  sends : List (List QueuedMessage)
  settled : List SettledBatch
  /-- the texts that `send` and `onGiveUp` were called with -/
  posted : List JsString
  composer : List JsString
  removed : List Nat
  /-- removed before any send that included the message -/
  removedUnsent : List Nat

structure MessageQueue where
  queued : List QueuedMessage
  notice : Option JsString
  retryPending : Bool
  /-- the references -/
  flushing : Bool
  busyAttempts : Nat
  retryTimer : Bool
  /-- the option of the last render, and the dependencies that the effects saw then -/
  canFlush : Bool
  seenCanFlush : Bool
  seenRetryPending : Bool
  /-- `queued` is another array than the effects saw -/
  touched : Bool
  /-- the sends under way, each with the messages that it included -/
  inFlight : List (List QueuedMessage)
  log : QueueLog

/-- `MAX_BUSY_ATTEMPTS`. -/
def maxBusyAttempts : Nat := 5

def busyNotice : JsString :=
  ascii "Still finishing up — your queued message will send shortly."

def gaveUpNotice : JsString :=
  ascii "This session is still busy, so your queued message wasn’t sent. " ++
    ascii "It’s back in the box — try again in a moment."

def mergeQueued (messages : List QueuedMessage) : JsString :=
  join (ascii "\n\n") (messages.map QueuedMessage.text)

namespace MessageQueue

variable (q : MessageQueue)

/-! ### Effects -/

def cancelRetry : MessageQueue := { q with retryTimer := false, retryPending := false }

/-- `sendRef.current(mergeQueued(queued))`. -/
def flush : MessageQueue :=
  { q with
    flushing := true
    inFlight := q.inFlight ++ [q.queued]
    log :=
      { q.log with
        sends := q.log.sends ++ [q.queued]
        posted := q.log.posted ++ [mergeQueued q.queued] } }

/-- A render and its effects: the one that cancels a retry, and the one that flushes.  Both see the
values of the render. -/
def render : MessageQueue :=
  let cancelled :=
    if q.canFlush ≠ q.seenCanFlush ∧ q.canFlush = false then q.cancelRetry else q
  let changed :=
    q.canFlush ≠ q.seenCanFlush ∨ q.retryPending ≠ q.seenRetryPending ∨ q.touched = true
  let flushed :=
    if changed ∧ q.canFlush = true ∧ q.retryPending = false ∧ q.flushing = false ∧
        q.queued ≠ [] then
      cancelled.flush
    else cancelled
  { flushed with
    seenCanFlush := q.canFlush
    seenRetryPending := q.retryPending
    touched := false }

/-- The render of an event's updates, and that of what its effects set. -/
def commit : MessageQueue := q.render.render

/-! ### Events -/

def enqueue (id : Nat) (text : JsString) : MessageQueue :=
  let trimmed := trim text
  if trimmed = [] then q
  else
    { q with
      queued := q.queued ++ [⟨id, trimmed⟩]
      notice := none
      touched := true
      log := { q.log with enqueued := q.log.enqueued ++ [⟨id, trimmed⟩] } }

/-- What the user takes out of the queue. -/
def noteRemoved (gone : List QueuedMessage) : QueueLog :=
  { q.log with
    removed := q.log.removed ++ gone.map QueuedMessage.id
    removedUnsent := q.log.removedUnsent ++
      (gone.filter fun m => q.log.sends.all fun batch => m ∉ batch).map QueuedMessage.id }

def remove (id : Nat) : MessageQueue :=
  { q with
    queued := q.queued.filter fun m => m.id ≠ id
    touched := true
    log := q.noteRemoved (q.queued.filter fun m => m.id = id) }

def clear : MessageQueue :=
  { q with
    queued := []
    notice := none
    touched := true
    log := q.noteRemoved q.queued }

def dropIncluded (included : List QueuedMessage) : MessageQueue :=
  { q with
    queued := q.queued.filter fun m => m.id ∉ included.map QueuedMessage.id
    touched := true }

def noteSettled (sent : Bool) (included : List QueuedMessage) : QueueLog :=
  { q.log with
    settled := q.log.settled ++ [⟨sent, included⟩]
    composer := if sent then q.log.composer else q.log.composer ++ [mergeQueued included] }

/-- The end of a send that is not tried again: `giveUpRef.current(merged)`. -/
def giveUp (included : List QueuedMessage) (notice : Option JsString) : MessageQueue :=
  { q with
    notice := notice
    busyAttempts := 0
    log := q.noteSettled false included }.dropIncluded included

/-- What follows a send. -/
def settle (included : List QueuedMessage) (outcome : SendOutcome) : MessageQueue :=
  let q := { q with flushing := false, inFlight := q.inFlight.erase included }
  match outcome with
  | .sent =>
    { q with
      busyAttempts := 0
      notice := none
      log := q.noteSettled true included }.dropIncluded included
  | .sessionBusy =>
    if q.busyAttempts + 1 < maxBusyAttempts then
      { q with
        busyAttempts := q.busyAttempts + 1
        notice := some busyNotice
        retryPending := true
        retryTimer := true }
    else q.giveUp included (some gaveUpNotice)
  | .sessionOver => q.giveUp included none
  | .failed errorMessage => q.giveUp included (some errorMessage)

end MessageQueue

inductive QueueEvent where
  | enqueue (id : Nat) (text : JsString)
  | remove (id : Nat)
  | clear
  | canFlush (canFlush : Bool)
  | retry
  | settle (included : List QueuedMessage) (outcome : SendOutcome)

/-- An event, the render of its updates and their effects. -/
inductive QueueStep : MessageQueue → QueueEvent → MessageQueue → Prop
  | enqueue (q : MessageQueue) (id : Nat) (text : JsString)
      (hfresh : id ∉ q.log.enqueued.map QueuedMessage.id) :
      QueueStep q (.enqueue id text) (q.enqueue id text).commit
  | remove (q : MessageQueue) (id : Nat) : QueueStep q (.remove id) (q.remove id).commit
  | clear (q : MessageQueue) : QueueStep q .clear q.clear.commit
  | canFlush (q : MessageQueue) (canFlush : Bool) :
      QueueStep q (.canFlush canFlush) { q with canFlush := canFlush }.commit
  | retry (q : MessageQueue) (h : q.retryTimer = true) :
      QueueStep q .retry { q with retryTimer := false, retryPending := false }.commit
  | settle (q : MessageQueue) (included : List QueuedMessage) (outcome : SendOutcome)
      (h : included ∈ q.inFlight) :
      QueueStep q (.settle included outcome) (q.settle included outcome).commit

/-! ## What is to hold -/

namespace QueueLog

variable (log : QueueLog)

/-- The messages whose fate is settled, in the order in which that came about. -/
def settledMessages : List QueuedMessage := log.settled.flatMap SettledBatch.messages

def sentMessages : List QueuedMessage :=
  log.settled.flatMap fun batch => if batch.sent then batch.messages else []

def handedBack : List QueuedMessage :=
  log.settled.flatMap fun batch => if batch.sent then [] else batch.messages

end QueueLog

/-- One of the four ends of a message, `removed` the messages that the user took out. -/
def EndsOnce (q : MessageQueue) (removed : List Nat) (m : QueuedMessage) : Prop :=
  let sent := q.log.sentMessages.count m
  let back := q.log.handedBack.count m
  sent = 1 ∧ back = 0 ∧ m ∉ q.queued ∨
    sent = 0 ∧ back = 1 ∧ m ∉ q.queued ∨
    sent = 0 ∧ back = 0 ∧ m ∉ q.queued ∧ m.id ∈ removed ∨
    sent = 0 ∧ back = 0 ∧ m ∈ q.queued ∧ m.id ∉ removed

structure QueueKept (q : MessageQueue) : Prop where
  ends : ∀ m ∈ q.log.enqueued, EndsOnce q q.log.removed m
  /-- what was sent or handed back, and each send, is in the order of the queue -/
  ordered : q.log.settledMessages.Sublist q.log.enqueued ∧ q.queued.Sublist q.log.enqueued ∧
    ∀ batch ∈ q.log.sends, batch.Sublist q.log.enqueued
  texts : q.log.posted = q.log.sends.map mergeQueued ∧
    q.log.composer = (q.log.settled.filter fun batch => !batch.sent).map fun batch =>
      mergeQueued batch.messages
  alone : q.inFlight.length ≤ 1
  flows : q.canFlush = true → q.queued ≠ [] → q.inFlight ≠ [] ∨ q.retryTimer = true

/-! ## The ledger -/

/-- Where the messages are, before and after the effects of a render. -/
structure QueueLedger (q : MessageQueue) : Prop where
  once : (q.log.enqueued.map QueuedMessage.id).Nodup
  /-- at most one send is under way -/
  flight : q.flushing = false ∧ q.inFlight = [] ∨ ∃ batch, q.flushing = true ∧ q.inFlight = [batch]
  timed : q.retryTimer = q.retryPending
  idle : q.flushing = true → q.retryPending = false
  /-- the queue is a part of what is in flight, and what was enqueued since -/
  order : ∃ old new, q.queued = old ++ new ∧ old.Sublist q.inFlight.flatten ∧
    (q.log.settledMessages ++ q.inFlight.flatten ++ new).Sublist q.log.enqueued
  kept : ∀ m ∈ q.log.enqueued,
    m ∈ q.log.settledMessages ∨ m ∈ q.queued ∨ m.id ∈ q.log.removed
  removed : ∀ id ∈ q.log.removed, id ∈ q.log.enqueued.map QueuedMessage.id ∧
    id ∉ q.queued.map QueuedMessage.id
  sends : ∀ batch ∈ q.log.sends, batch.Sublist q.log.enqueued
  posted : q.log.posted = q.log.sends.map mergeQueued
  composer : q.log.composer = (q.log.settled.filter fun batch => !batch.sent).map fun batch =>
    mergeQueued batch.messages

/-- Nothing of the ledger is in the flags of the render. -/
theorem QueueLedger.of_eq {q q' : MessageQueue} (h : QueueLedger q)
    (hqueued : q'.queued = q.queued) (hflushing : q'.flushing = q.flushing)
    (htimer : q'.retryTimer = q'.retryPending)
    (hidle : q'.flushing = true → q'.retryPending = false) (hflight : q'.inFlight = q.inFlight)
    (hlog : q'.log = q.log) : QueueLedger q' where
  once := hlog ▸ h.once
  flight := by
    rw [hflushing, hflight]
    exact h.flight
  timed := htimer
  idle := hidle
  order := by
    rw [hqueued, hflight, hlog]
    exact h.order
  kept := by
    rw [hqueued, hlog]
    exact h.kept
  removed := by
    rw [hqueued, hlog]
    exact h.removed
  sends := hlog ▸ h.sends
  posted := hlog ▸ h.posted
  composer := hlog ▸ h.composer

section

variable {q : MessageQueue}

theorem QueueLedger.flatten_of_idle (h : QueueLedger q) (hidle : q.flushing = false) :
    q.inFlight = [] := by
  rcases h.flight with ⟨-, hnone⟩ | ⟨batch, hflushing, -⟩
  · exact hnone
  · rw [hidle] at hflushing
    cases hflushing

theorem QueueLedger.queued_sublist (h : QueueLedger q) : q.queued.Sublist q.log.enqueued := by
  obtain ⟨old, new, hqueued, hold, hall⟩ := h.order
  rw [hqueued]
  refine List.Sublist.trans (hold.append (List.Sublist.refl new)) (List.Sublist.trans ?_ hall)
  rw [List.append_assoc]
  exact List.sublist_append_right _ _

theorem QueueLedger.nodup (h : QueueLedger q) : q.log.enqueued.Nodup :=
  List.Nodup.of_map _ h.once

theorem QueueLedger.cancelRetry (h : QueueLedger q) : QueueLedger q.cancelRetry :=
  h.of_eq rfl rfl rfl (fun _ => rfl) rfl rfl

theorem QueueLedger.flush (h : QueueLedger q) (hidle : q.flushing = false)
    (hpending : q.retryPending = false) : QueueLedger q.flush := by
  have hnone := h.flatten_of_idle hidle
  have hflight : q.flush.inFlight = [q.queued] := by
    show q.inFlight ++ [q.queued] = _
    rw [hnone, List.nil_append]
  obtain ⟨old, new, hqueued, hold, hall⟩ := h.order
  rw [hnone, List.flatten_nil] at hold hall
  have hnew : q.queued = new := by
    rw [hqueued, List.sublist_nil.mp hold, List.nil_append]
  refine ⟨h.once, Or.inr ⟨q.queued, rfl, hflight⟩, h.timed, fun _ => hpending, ?_, h.kept,
    h.removed, ?_, ?_, h.composer⟩
  · refine ⟨q.queued, [], (List.append_nil _).symm, ?_, ?_⟩
    · rw [hflight, List.flatten_singleton]
    · rw [hflight, List.flatten_singleton, List.append_nil, hnew]
      rw [List.append_nil] at hall
      exact hall
  · intro batch hbatch
    rcases List.mem_append.mp hbatch with hbatch | hbatch
    · exact h.sends batch hbatch
    · rw [List.mem_singleton.mp hbatch]
      exact h.queued_sublist
  · show q.log.posted ++ _ = (q.log.sends ++ _).map _
    rw [h.posted, List.map_append, List.map_singleton]

theorem QueueLedger.render (h : QueueLedger q) : QueueLedger q.render := by
  have hflags : ∀ q' : MessageQueue, QueueLedger q' → QueueLedger
      { q' with
        seenCanFlush := q.canFlush
        seenRetryPending := q.retryPending
        touched := false } :=
    fun q' h' => h'.of_eq rfl rfl h'.timed h'.idle rfl rfl
  rw [MessageQueue.render]
  refine hflags _ ?_
  by_cases hcancel : q.canFlush ≠ q.seenCanFlush ∧ q.canFlush = false
  · rw [if_pos hcancel, if_neg (fun hflush => by
      rw [hcancel.2] at hflush
      exact Bool.noConfusion hflush.2.1)]
    exact h.cancelRetry
  · rw [if_neg hcancel]
    split
    · next hflush => exact h.flush hflush.2.2.2.1 hflush.2.2.1
    · exact h

theorem QueueLedger.commit (h : QueueLedger q) : QueueLedger q.commit := h.render.render

theorem QueueLedger.enqueue (h : QueueLedger q) {id : Nat} (text : JsString)
    (hfresh : id ∉ q.log.enqueued.map QueuedMessage.id) : QueueLedger (q.enqueue id text) := by
  rw [MessageQueue.enqueue]
  by_cases hblank : trim text = []
  · rw [if_pos hblank]
    exact h
  · rw [if_neg hblank]
    obtain ⟨old, new, hqueued, hold, hall⟩ := h.order
    refine ⟨?_, h.flight, h.timed, h.idle, ?_, ?_, ?_, ?_, h.posted, h.composer⟩
    · show (List.map _ (q.log.enqueued ++ _)).Nodup
      rw [List.map_append, List.nodup_append]
      refine ⟨h.once, List.nodup_singleton _, ?_⟩
      intro a ha b hb heq
      rw [List.mem_singleton.mp hb] at heq
      rw [heq] at ha
      exact hfresh ha
    · refine ⟨old, new ++ [⟨id, trim text⟩], ?_, hold, ?_⟩
      · show q.queued ++ _ = _
        rw [hqueued, List.append_assoc]
      · rw [← List.append_assoc]
        exact hall.append (List.Sublist.refl _)
    · intro m hm
      rcases List.mem_append.mp hm with hm | hm
      · exact (h.kept m hm).imp_right (Or.imp_left (List.mem_append_left _))
      · exact Or.inr (Or.inl (List.mem_append_right _ hm))
    · intro gone hgone
      obtain ⟨hin, hout⟩ := h.removed gone hgone
      show gone ∈ List.map _ (_ ++ _) ∧ gone ∉ List.map _ (_ ++ _)
      rw [List.map_append, List.map_append]
      refine ⟨List.mem_append_left _ hin, fun hmem => ?_⟩
      rcases List.mem_append.mp hmem with hmem | hmem
      · exact hout hmem
      · rw [List.mem_singleton.mp hmem] at hin
        exact hfresh hin
    · intro batch hbatch
      exact (h.sends batch hbatch).trans (List.sublist_append_left _ _)

theorem QueueLedger.withdraw (h : QueueLedger q) {q' : MessageQueue} (stays : QueuedMessage → Bool)
    (hstays : ∀ m m', m.id = m'.id → stays m = stays m')
    (hqueued : q'.queued = q.queued.filter stays)
    (hlog : q'.log = q.noteRemoved (q.queued.filter fun m => !stays m))
    (hflushing : q'.flushing = q.flushing) (hflight : q'.inFlight = q.inFlight)
    (htimer : q'.retryTimer = q.retryTimer) (hpending : q'.retryPending = q.retryPending) :
    QueueLedger q' := by
  have henqueued : q'.log.enqueued = q.log.enqueued := by
    rw [hlog]
    rfl
  have hsettled : q'.log.settledMessages = q.log.settledMessages := by
    rw [hlog]
    rfl
  have hremoved : q'.log.removed =
      q.log.removed ++ (q.queued.filter fun m => !stays m).map QueuedMessage.id := by
    rw [hlog]
    rfl
  constructor
  case once => rw [henqueued]; exact h.once
  case flight => rw [hflushing, hflight]; exact h.flight
  case timed => rw [htimer, hpending]; exact h.timed
  case idle => rw [hflushing, hpending]; exact h.idle
  case order =>
    obtain ⟨old, new, hsplit, hold, hall⟩ := h.order
    refine ⟨old.filter stays, new.filter stays, ?_, ?_, ?_⟩
    · rw [hqueued, hsplit, List.filter_append]
    · rw [hflight]
      exact List.filter_sublist.trans hold
    · rw [hsettled, hflight, henqueued]
      exact ((List.Sublist.refl _).append List.filter_sublist).trans hall
  case kept =>
    intro m hm
    rw [henqueued] at hm
    rw [hsettled, hqueued, hremoved]
    rcases h.kept m hm with hm | hm | hm
    · exact Or.inl hm
    · by_cases hstay : stays m = true
      · exact Or.inr (Or.inl (List.mem_filter.mpr ⟨hm, hstay⟩))
      · refine Or.inr (Or.inr (List.mem_append_right _ (List.mem_map_of_mem ?_)))
        rw [Bool.not_eq_true] at hstay
        exact List.mem_filter.mpr ⟨hm, by rw [hstay]; rfl⟩
    · exact Or.inr (Or.inr (List.mem_append_left _ hm))
  case removed =>
    intro gone hgone
    rw [hremoved] at hgone
    rw [henqueued, hqueued]
    rcases List.mem_append.mp hgone with hgone | hgone
    · obtain ⟨hin, hout⟩ := h.removed gone hgone
      exact ⟨hin, fun hmem => hout ((List.filter_sublist.map _).subset hmem)⟩
    · obtain ⟨m, hm, rfl⟩ := List.mem_map.mp hgone
      obtain ⟨hm, hgoes⟩ := List.mem_filter.mp hm
      refine ⟨List.mem_map_of_mem (h.queued_sublist.subset hm), fun hmem => ?_⟩
      obtain ⟨m', hm', hid⟩ := List.mem_map.mp hmem
      have hstay := (List.mem_filter.mp hm').2
      rw [hstays m' m hid] at hstay
      rw [hstay] at hgoes
      cases hgoes
  case sends =>
    intro batch hbatch
    rw [hlog] at hbatch
    rw [henqueued]
    exact h.sends batch hbatch
  case posted => rw [hlog]; exact h.posted
  case composer => rw [hlog]; exact h.composer

theorem mem_of_id {l : List QueuedMessage} (h : (l.map QueuedMessage.id).Nodup)
    {m m' : QueuedMessage} (hm : m ∈ l) (hm' : m' ∈ l) (hid : m.id = m'.id) : m = m' :=
  List.inj_on_of_nodup_map h hm hm' hid

theorem QueueLedger.settled (h : QueueLedger q) {q' : MessageQueue} {batch : List QueuedMessage}
    (sent : Bool) (hflight : q.inFlight = [batch]) (hpending : q.retryPending = false)
    (hqueued : q'.queued = q.queued.filter fun m => m.id ∉ batch.map QueuedMessage.id)
    (hlog : q'.log = q.noteSettled sent batch)
    (hflushing : q'.flushing = false) (hnone : q'.inFlight = [])
    (htimer : q'.retryTimer = q.retryTimer) (hpending' : q'.retryPending = q.retryPending) :
    QueueLedger q' := by
  have henqueued : q'.log.enqueued = q.log.enqueued := by
    rw [hlog]
    rfl
  have hsettled : q'.log.settledMessages = q.log.settledMessages ++ batch := by
    rw [hlog]
    show (q.log.settled ++ [_]).flatMap _ = _
    rw [List.flatMap_append, List.flatMap_singleton]
    rfl
  have hremoved : q'.log.removed = q.log.removed := by
    rw [hlog]
    rfl
  obtain ⟨old, new, hsplit, hold, hall⟩ := h.order
  rw [hflight, List.flatten_singleton] at hold hall
  -- what was enqueued since is not part of the send
  have hapart : ∀ m ∈ new, m.id ∉ batch.map QueuedMessage.id := by
    intro m hm hmem
    have hnodup := h.once.sublist (hall.map QueuedMessage.id)
    rw [List.map_append, List.nodup_append] at hnodup
    refine hnodup.2.2 m.id ?_ m.id (List.mem_map_of_mem hm) rfl
    rw [List.map_append]
    exact List.mem_append_right _ hmem
  have hqueue : q'.queued = new := by
    have hgone : (old.filter fun m => m.id ∉ batch.map QueuedMessage.id) = [] := by
      refine List.filter_eq_nil_iff.mpr fun m hm => ?_
      rw [decide_eq_true_eq, not_not]
      exact List.mem_map_of_mem (hold.subset hm)
    have hstay : (new.filter fun m => m.id ∉ batch.map QueuedMessage.id) = new :=
      List.filter_eq_self.mpr fun m hm => decide_eq_true (hapart m hm)
    rw [hqueued, hsplit, List.filter_append, hgone, hstay, List.nil_append]
  constructor
  case once => rw [henqueued]; exact h.once
  case flight => exact Or.inl ⟨hflushing, hnone⟩
  case timed => rw [htimer, hpending']; exact h.timed
  case idle => exact fun _ => hpending'.trans hpending
  case order =>
    refine ⟨[], new, hqueue, List.nil_sublist _, ?_⟩
    rw [hsettled, hnone, List.flatten_nil, List.append_nil, henqueued]
    exact hall
  case kept =>
    intro m hm
    rw [henqueued] at hm
    rw [hsettled, hremoved]
    rcases h.kept m hm with hin | hin | hin
    · exact Or.inl (List.mem_append_left _ hin)
    · by_cases hid : m.id ∈ batch.map QueuedMessage.id
      · obtain ⟨m', hm', heq⟩ := List.mem_map.mp hid
        have hin' : m' ∈ q.log.enqueued :=
          hall.subset (List.mem_append_left _ (List.mem_append_right _ hm'))
        rw [← mem_of_id h.once hin' hm heq]
        exact Or.inl (List.mem_append_right _ hm')
      · rw [hqueued]
        exact Or.inr (Or.inl (List.mem_filter.mpr ⟨hin, decide_eq_true hid⟩))
    · exact Or.inr (Or.inr hin)
  case removed =>
    intro gone hgone
    rw [hremoved] at hgone
    obtain ⟨hin, hout⟩ := h.removed gone hgone
    rw [henqueued, hqueued]
    exact ⟨hin, fun hmem => hout ((List.filter_sublist.map _).subset hmem)⟩
  case sends =>
    rw [hlog]
    exact h.sends
  case posted =>
    rw [hlog]
    exact h.posted
  case composer =>
    rw [hlog]
    show (if sent then _ else _) = ((q.log.settled ++ [_]).filter _).map _
    rw [List.filter_append, List.map_append, ← h.composer]
    cases sent with
    | true => exact (List.append_nil _).symm
    | false => rfl

theorem QueueLedger.settle (h : QueueLedger q) {included : List QueuedMessage}
    (hin : included ∈ q.inFlight) (outcome : SendOutcome) :
    QueueLedger (q.settle included outcome) := by
  obtain ⟨hflushing, hflight⟩ : q.flushing = true ∧ q.inFlight = [included] := by
    rcases h.flight with ⟨-, hnone⟩ | ⟨batch, hflushing, hflight⟩
    · rw [hnone] at hin
      exact absurd hin List.not_mem_nil
    · rw [hflight, List.mem_singleton] at hin
      rw [hin]
      exact ⟨hflushing, hflight⟩
  have hpending := h.idle hflushing
  have hnone : q.inFlight.erase included = [] := by
    rw [hflight, List.erase_cons_head]
  have hgiveUp : ∀ attempts notice, QueueLedger
      ({ q with
          flushing := false
          inFlight := q.inFlight.erase included
          busyAttempts := attempts }.giveUp included notice) :=
    fun _ _ => h.settled false hflight hpending rfl rfl rfl hnone rfl rfl
  cases outcome with
  | sent => exact h.settled true hflight hpending rfl rfl rfl hnone rfl rfl
  | sessionOver => exact hgiveUp _ none
  | failed errorMessage => exact hgiveUp _ (some errorMessage)
  | sessionBusy =>
    show QueueLedger (if q.busyAttempts + 1 < maxBusyAttempts then _ else _)
    split
    · -- it stays in the queue and is tried again
      obtain ⟨old, new, hsplit, hold, hall⟩ := h.order
      rw [hflight, List.flatten_singleton] at hold hall
      refine ⟨h.once, Or.inl ⟨rfl, hnone⟩, rfl, Bool.noConfusion, ?_, h.kept, h.removed, h.sends,
        h.posted, h.composer⟩
      refine ⟨[], q.queued, (List.nil_append _).symm, List.nil_sublist _, ?_⟩
      show (q.log.settledMessages ++ (q.inFlight.erase included).flatten ++ q.queued).Sublist _
      rw [hnone, List.flatten_nil, List.append_nil, hsplit]
      refine List.Sublist.trans ((List.Sublist.refl _).append
        (hold.append (List.Sublist.refl new))) ?_
      rw [← List.append_assoc]
      exact hall
    · exact hgiveUp _ (some gaveUpNotice)

end

/-! ## No message is stranded -/

/-- What the effects saw left nothing to send, or something is under way. -/
def QueueFlows (q : MessageQueue) : Prop :=
  q.seenCanFlush = true → q.touched = false → q.queued ≠ [] →
    q.flushing = true ∨ q.retryPending = true ∨ q.seenRetryPending = true

/-- The effects saw all there is. -/
structure QueueQuiet (q : MessageQueue) : Prop where
  canFlush : q.seenCanFlush = q.canFlush
  retryPending : q.seenRetryPending = q.retryPending

section

variable {q : MessageQueue}

theorem render_seen (q : MessageQueue) : q.render.canFlush = q.canFlush ∧
    q.render.seenCanFlush = q.canFlush ∧ q.render.seenRetryPending = q.retryPending ∧
    q.render.queued = q.queued := by
  rw [MessageQueue.render]
  split
  · split
    · exact ⟨rfl, rfl, rfl, rfl⟩
    · exact ⟨rfl, rfl, rfl, rfl⟩
  · split
    · exact ⟨rfl, rfl, rfl, rfl⟩
    · exact ⟨rfl, rfl, rfl, rfl⟩

/-- A render that cancels no retry. -/
theorem render_of_not_cancel (h : ¬ (q.canFlush ≠ q.seenCanFlush ∧ q.canFlush = false)) :
    q.render =
      { (if (q.canFlush ≠ q.seenCanFlush ∨ q.retryPending ≠ q.seenRetryPending ∨
              q.touched = true) ∧
            q.canFlush = true ∧ q.retryPending = false ∧ q.flushing = false ∧ q.queued ≠ [] then
          q.flush
        else q) with
        seenCanFlush := q.canFlush
        seenRetryPending := q.retryPending
        touched := false } := by
  rw [MessageQueue.render]
  simp only [if_neg h]

theorem render_retryPending (h : q.canFlush = q.seenCanFlush) :
    q.render.retryPending = q.retryPending := by
  rw [render_of_not_cancel (fun hcancel => hcancel.1 h)]
  split
  · rfl
  · rfl

theorem commit_quiet (q : MessageQueue) : QueueQuiet q.commit := by
  obtain ⟨hcan, hseen, -, -⟩ := render_seen q
  obtain ⟨hcan', hseen', hpending', -⟩ := render_seen q.render
  refine ⟨hseen'.trans hcan'.symm, hpending'.trans ?_⟩
  exact (render_retryPending (hcan.trans hseen.symm)).symm

theorem QueueFlows.render (h : QueueFlows q) : QueueFlows q.render := by
  obtain ⟨-, hseen, hpending, hqueued⟩ := render_seen q
  intro hcan _ hsome
  rw [hseen] at hcan
  rw [hqueued] at hsome
  rw [hpending]
  by_cases hretry : q.retryPending = true
  · exact Or.inr (Or.inr hretry)
  · rw [Bool.not_eq_true] at hretry
    refine Or.inl ?_
    rw [render_of_not_cancel (fun hcancel => by
      rw [hcan] at hcancel
      exact Bool.noConfusion hcancel.2)]
    cases hflushing : q.flushing with
    | true =>
      rw [if_neg (fun hflush => Bool.noConfusion (hflush.2.2.2.1 : true = false))]
      exact hflushing
    | false =>
      by_cases hchanged : q.canFlush ≠ q.seenCanFlush ∨ q.retryPending ≠ q.seenRetryPending ∨
          q.touched = true
      · rw [if_pos ⟨hchanged, hcan, hretry, rfl, hsome⟩]
        rfl
      · -- nothing changed since the last render, which left something under way
        rw [not_or, not_or, not_not, not_not, Bool.not_eq_true] at hchanged
        obtain ⟨hsame, hsame', htouched⟩ := hchanged
        rcases h (hsame.symm.trans hcan) htouched hsome with hf | hr | hr
        · rw [hflushing] at hf
          cases hf
        · rw [hretry] at hr
          cases hr
        · rw [← hsame', hretry] at hr
          cases hr

theorem QueueFlows.commit (h : QueueFlows q) : QueueFlows q.commit := h.render.render

theorem flows_of_touched (h : q.touched = true) : QueueFlows q := by
  intro _ htouched
  rw [h] at htouched
  cases htouched

theorem settle_flows (q : MessageQueue) (included : List QueuedMessage) (outcome : SendOutcome) :
    QueueFlows (q.settle included outcome) := by
  cases outcome with
  | sent | sessionOver | failed => exact flows_of_touched rfl
  | sessionBusy =>
    show QueueFlows (if q.busyAttempts + 1 < maxBusyAttempts then _ else _)
    split
    · exact fun _ _ _ => Or.inr (Or.inl rfl)
    · exact flows_of_touched rfl

end

/-! ## Every run -/

structure QueueSound (q : MessageQueue) : Prop where
  ledger : QueueLedger q
  flows : QueueFlows q
  quiet : QueueQuiet q
  settled : q.touched = false

theorem sound_commit {q : MessageQueue} (hledger : QueueLedger q) (hflows : QueueFlows q) :
    QueueSound q.commit :=
  ⟨hledger.commit, hflows.commit, commit_quiet q, rfl⟩

theorem QueueSound.step {q q' : MessageQueue} {e : QueueEvent} (hs : QueueSound q)
    (h : QueueStep q e q') : QueueSound q' := by
  cases h with
  | enqueue id text hfresh =>
    refine sound_commit (hs.ledger.enqueue text hfresh) ?_
    rw [MessageQueue.enqueue]
    split
    · exact hs.flows
    · exact flows_of_touched rfl
  | remove id =>
    refine sound_commit (hs.ledger.withdraw (fun m => m.id ≠ id) ?_ rfl ?_ rfl rfl rfl rfl)
      (flows_of_touched rfl)
    · intro m m' hid
      rw [hid]
    · have hsame : (fun m : QueuedMessage => !decide (m.id ≠ id)) =
          fun m => decide (m.id = id) := by
        funext m
        rw [decide_not, Bool.not_not]
      rw [hsame]
      rfl
  | clear =>
    refine sound_commit (hs.ledger.withdraw (fun _ => false) (fun _ _ _ => rfl) ?_ ?_ rfl rfl rfl
      rfl) (flows_of_touched rfl)
    · exact (List.filter_false _).symm
    · show q.noteRemoved q.queued = _
      rw [Bool.not_false, List.filter_true]
  | canFlush canFlush =>
    exact sound_commit (hs.ledger.of_eq rfl rfl hs.ledger.timed hs.ledger.idle rfl rfl) hs.flows
  | retry h =>
    refine sound_commit (hs.ledger.of_eq rfl rfl rfl (fun _ => rfl) rfl rfl) ?_
    intro _ _ _
    refine Or.inr (Or.inr ?_)
    rw [← h, hs.ledger.timed]
    exact hs.quiet.retryPending
  | settle included outcome h =>
    exact sound_commit (hs.ledger.settle h outcome) (settle_flows q included outcome)

theorem count_settled (log : QueueLog) (m : QueuedMessage) :
    log.sentMessages.count m + log.handedBack.count m = log.settledMessages.count m := by
  rw [QueueLog.sentMessages, QueueLog.handedBack, QueueLog.settledMessages]
  induction log.settled with
  | nil => rfl
  | cons batch settled ih =>
    rw [List.flatMap_cons, List.flatMap_cons, List.flatMap_cons, List.count_append,
      List.count_append, List.count_append, ← ih]
    cases hsent : batch.sent with
    | true =>
      rw [if_pos rfl, if_pos rfl, List.count_nil]
      omega
    | false =>
      rw [if_neg Bool.false_ne_true, if_neg Bool.false_ne_true, List.count_nil]
      omega

theorem QueueLedger.settled_sublist {q : MessageQueue} (h : QueueLedger q) :
    q.log.settledMessages.Sublist q.log.enqueued := by
  obtain ⟨old, new, -, -, hall⟩ := h.order
  refine List.Sublist.trans ?_ hall
  rw [List.append_assoc]
  exact List.sublist_append_left _ _

theorem QueueLedger.ends {q : MessageQueue} (h : QueueLedger q) {m : QueuedMessage}
    (hm : m ∈ q.log.enqueued) : EndsOnce q q.log.removed m := by
  have hcount := count_settled q.log m
  by_cases hsettled : m ∈ q.log.settledMessages
  · have hone : q.log.settledMessages.count m = 1 :=
      List.count_eq_one_of_mem (h.nodup.sublist h.settled_sublist) hsettled
    have hout : m ∉ q.queued := by
      intro hqueued
      obtain ⟨old, new, hsplit, hold, hall⟩ := h.order
      have hnodup := h.nodup.sublist hall
      rw [List.append_assoc, List.nodup_append] at hnodup
      refine hnodup.2.2 m hsettled m ?_ rfl
      rw [hsplit] at hqueued
      exact (hold.append (List.Sublist.refl new)).subset hqueued
    rw [hone] at hcount
    rcases Nat.eq_zero_or_pos (q.log.sentMessages.count m) with hzero | hpos
    · exact Or.inr (Or.inl ⟨hzero, by omega, hout⟩)
    · exact Or.inl ⟨by omega, by omega, hout⟩
  · rw [List.count_eq_zero_of_not_mem hsettled] at hcount
    have hsent : q.log.sentMessages.count m = 0 := by omega
    have hback : q.log.handedBack.count m = 0 := by omega
    by_cases hqueued : m ∈ q.queued
    · refine Or.inr (Or.inr (Or.inr ⟨hsent, hback, hqueued, fun hgone => ?_⟩))
      exact (h.removed m.id hgone).2 (List.mem_map_of_mem hqueued)
    · refine Or.inr (Or.inr (Or.inl ⟨hsent, hback, hqueued, ?_⟩))
      rcases h.kept m hm with hin | hin | hin
      · exact absurd hin hsettled
      · exact absurd hin hqueued
      · exact hin

theorem QueueSound.kept {q : MessageQueue} (hs : QueueSound q) : QueueKept q where
  ends := fun _ hm => hs.ledger.ends hm
  ordered := ⟨hs.ledger.settled_sublist, hs.ledger.queued_sublist, hs.ledger.sends⟩
  texts := ⟨hs.ledger.posted, hs.ledger.composer⟩
  alone := by
    rcases hs.ledger.flight with ⟨-, hnone⟩ | ⟨batch, -, hone⟩
    · rw [hnone]
      exact Nat.zero_le 1
    · rw [hone]
      exact Nat.le_refl 1
  flows := by
    intro hcan hsome
    have hseen := hs.quiet.canFlush.trans hcan
    have hpending := hs.ledger.timed
    rcases hs.flows hseen hs.settled hsome with h | h | h
    · refine Or.inl fun hnone => ?_
      rcases hs.ledger.flight with ⟨hidle, -⟩ | ⟨batch, -, hone⟩
      · rw [hidle] at h
        cases h
      · rw [hone] at hnone
        cases hnone
    · exact Or.inr (hpending.trans h)
    · exact Or.inr (hpending.trans (hs.quiet.retryPending.symm.trans h))

end InvisibleString.Web
