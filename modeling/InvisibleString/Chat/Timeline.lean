import InvisibleString.Chat.FrameStore
import InvisibleString.Chat.RunView
import InvisibleString.Lib.Text
import Mathlib.Data.List.Nodup

/- # `Chat.Timeline` — the view of a run, folded over its frames

A run is a list of segments: work, which holds thoughts and tool calls, and speech, which closes
the work before it.  Items are addressed by their keys wherever they live, a call by its id, a
thought by its turn and step; a thought's key that is sealed goes on as `#2`, `#3`, ….  What the
view asks of the user are the prompts of `Chat.RunView`.

**Proved here.**

    the items of all segments have different keys  (`Indexed.nodup_keys`)
    a call is shown as a tool once, unless a thought has taken its key  (`shown_iff`)
    frames go in in any order, keys differ, each call is shown once and no settled request is
      pending, exactly when no two new frames share a `seq`, no thought stands under a call's id
      and no request for a settled call is unsettled  (`chat_view_stable_iff`)
    a retried step asks again for a call that has its result  (`retried_request_pending`)
-/

namespace InvisibleString.Chat.Timeline

open Tailer Temporal

/-! ## Events -/

inductive ActionResultStatus where
  | completed
  | failed
  | rejected
  deriving DecidableEq

/-- `V` are the JSON values that tools return. -/
structure ActionResult (V : Type) where
  callId : CallId
  toolName : String
  output : V

/-- `EveStreamEvent`, as far as the view reads it.  `failed` stands for the three failures;
`stepIndex` is missing in old rows. -/
inductive StreamEvent (V : Type) where
  | sessionStarted (modelId : Option String)
  | messageReceived (message : String)
  | actionsRequested (actions : List InputAction)
  | inputRequested (turnId : String) (requests : List EveInputRequest)
  | actionPartial (result : ActionResult V)
  | actionResult (result : ActionResult V) (status : ActionResultStatus) (error : Option String)
  | authorizationRequired (name : String) (description : Option String)
      (authorization : AuthorizationPayload)
  | authorizationCompleted (name : String) (outcome : Option AuthorizationOutcome)
      (reason : Option String)
  | reasoningAppended (turnId : String) (stepIndex : Option Nat) (reasoningSoFar : String)
  | reasoningCompleted (turnId : String) (stepIndex : Option Nat) (reasoning : String)
  | messageAppended (turnId : String) (stepIndex : Option Nat) (messageSoFar : String)
  | messageCompleted (turnId : String) (stepIndex : Option Nat) (message : Option String)
  | turnCancelled (turnId : String)
  | contextCleared
  | compactionCompleted
  | stepCompleted (inputTokens : Option Nat)
  | failed (message : String)
  | other (type : String)

variable {V : Type}

abbrev Frame (V : Type) := RunEventFrame (StreamEvent V)

/-- What the prompts read of an event; of a cancelled turn only that it is one. -/
def StreamEvent.prompt : StreamEvent V → RunEvent
  | .inputRequested _ requests => .inputRequested requests
  | .actionResult result _ _ => .actionResult result.callId
  | .authorizationRequired name description authorization =>
    .authorizationRequired name description authorization
  | .authorizationCompleted name outcome reason => .authorizationCompleted name outcome reason
  | .turnCancelled _ => .turnCancelled 0
  | .contextCleared => .contextCleared
  | _ => .other ""

/-- What the view calls: the summary and the raw text of a result, and `Date.parse`. -/
structure ViewDeps (V : Type) where
  summarizeToolResult : V → Option String
  rawResultText : V → Option String
  dateParse : String → Option Int

/-! ## Items and segments -/

inductive StepState where
  | pending
  | awaiting
  | ok
  | error
  | rejected
  | canceled
  deriving DecidableEq

inductive TimelineItem where
  | thought (key text : String) (seconds : Option Int) (streaming : Bool)
  | tool (key : CallId) (toolName : String) (state : StepState)
      (resultSummary rawResult : Option String)
  deriving DecidableEq

def TimelineItem.key : TimelineItem → String
  | .thought key .. => key
  | .tool key .. => key

def TimelineItem.isTool : TimelineItem → Bool
  | .thought .. => false
  | .tool .. => true

/-- The builders of `segments`; `frames` counts the frames of the segment. -/
inductive Segment where
  | work (key : String) (items : List TimelineItem) (firstAt lastAt : String) (frames : Nat)
  | speech (key text : String) (completed : Bool)

def Segment.items : Segment → List TimelineItem
  | .work _ items .. => items
  | .speech .. => []

def Segment.append (item : TimelineItem) (time : String) : Segment → Segment
  | .work key items firstAt _ frames => .work key (items ++ [item]) firstAt time (frames + 1)
  | .speech key text completed => .speech key text completed

/-- `items[items.indexOf(item)] = next`. -/
def Segment.replace (item next : TimelineItem) (time : String) : Segment → Segment
  | .work key items firstAt _ frames =>
    .work key (items.set (items.idxOf item) next) firstAt time (frames + 1)
  | .speech key text completed => .speech key text completed

def Segment.say (text : String) (complete : Bool) : Segment → Segment
  | .work key items firstAt lastAt frames => .work key items firstAt lastAt frames
  | .speech key _ completed => .speech key text (completed || complete)

/-! ## Keys -/

/-- `base`, `base#2`, `base#3`, …. -/
def ordinalKey (base : String) : Nat → String
  | 0 => base
  | n + 1 => base ++ "#" ++ toString (n + 2)

/-- `liveKey`: forward past any sealed ordinal; there is one among as many as are sealed and
one more. -/
def liveKey (base : String) (isSealed : List String) : String :=
  (((List.range (isSealed.length + 1)).map (ordinalKey base)).find? (· ∉ isSealed)).getD base

def stepKey (turnId : String) (stepIndex : Nat) : String := turnId ++ ":" ++ toString stepIndex

def legacyKey (seq : Int) : String := "legacy:" ++ toString seq

/-- `openThoughtKey` and `sealedThoughts`. -/
structure ThoughtKeys where
  openKey : Option String
  sealedThoughts : List String

def ThoughtKeys.empty : ThoughtKeys := ⟨none, []⟩

def ThoughtKeys.resolve (keys : ThoughtKeys) (seq : Int) (turnId : String) : Option Nat → String
  | none => keys.openKey.getD (legacyKey seq)
  | some stepIndex => liveKey (stepKey turnId stepIndex) keys.sealedThoughts

/-- The key that the frame's reasoning is filed under. -/
def ThoughtKeys.keyOf (keys : ThoughtKeys) (frame : Frame V) : Option String :=
  match frame.event with
  | .reasoningAppended turnId stepIndex _ => some (keys.resolve frame.seq turnId stepIndex)
  | .reasoningCompleted turnId stepIndex _ => some (keys.resolve frame.seq turnId stepIndex)
  | _ => none

def ThoughtKeys.next (keys : ThoughtKeys) (frame : Frame V) : ThoughtKeys :=
  match frame.event with
  | .reasoningAppended turnId none _ =>
    { keys with openKey := some (keys.resolve frame.seq turnId none) }
  | .reasoningCompleted turnId none _ =>
    ⟨none, keys.sealedThoughts ++ [keys.resolve frame.seq turnId none]⟩
  | .reasoningCompleted turnId (some stepIndex) _ =>
    { keys with
      sealedThoughts := keys.sealedThoughts ++ [keys.resolve frame.seq turnId (some stepIndex)] }
  | _ => keys

/-! ## The reduction -/

/-- The variables of `reduceRunView`.  `itemOwner` has each item with the index of its segment,
`speechByKey` the index of a speech, `current` that of the open work. -/
structure Reduction where
  segments : List Segment
  itemOwner : List (String × Nat × TimelineItem)
  speechByKey : List (String × Nat)
  thoughtFirst : List (String × String)
  thoughts : ThoughtKeys
  sealedSpeech : List String
  current : Option Nat
  prompts : Prompts
  userMessage : String
  error : Option String
  modelId : Option String
  contextCleared : Bool
  contextCompacted : Bool
  inputTokens : Option Nat
  openSpeechBase : Option String

def Reduction.init (userMessage : String) (error : Option String) : Reduction :=
  ⟨[], [], [], [], .empty, [], none, .empty, userMessage, error, none, false, false, none, none⟩

def Reduction.pushItem (r : Reduction) (item : TimelineItem) (time : String) : Reduction :=
  match r.current with
  | some index =>
    { r with
      segments := r.segments.modify index (Segment.append item time)
      itemOwner := OrderedMap.set item.key (index, item) r.itemOwner }
  | none =>
    { r with
      segments := r.segments ++ [.work ("work:" ++ item.key) [item] time time 1]
      current := some r.segments.length
      itemOwner := OrderedMap.set item.key (r.segments.length, item) r.itemOwner }

/-- `updateItem`, with the item's own key; `none` when there is no such item. -/
def Reduction.updateItem (r : Reduction) (next : TimelineItem) (time : String) :
    Option Reduction :=
  match OrderedMap.get? next.key r.itemOwner with
  | none => none
  | some (index, item) =>
    some { r with
      segments := r.segments.modify index (Segment.replace item next time)
      itemOwner := OrderedMap.set next.key (index, next) r.itemOwner }

/-- `if (!updateItem(next.key, next, at)) pushItem(next, at)`. -/
def Reduction.upsert (r : Reduction) (next : TimelineItem) (time : String) : Reduction :=
  (r.updateItem next time).getD (r.pushItem next time)

/-- `toolItemFor`: the state of the call's tool item. -/
def Reduction.toolStateOf (r : Reduction) (callId : CallId) : Option StepState :=
  match OrderedMap.get? callId r.itemOwner with
  | some (_, .tool _ _ state _ _) => some state
  | _ => none

/-- A tool item whose state `applies` goes on in another. -/
def Reduction.retool (r : Reduction) (callId : CallId) (applies : StepState → Bool)
    (goesOn : StepState) (time : String) : Reduction :=
  match OrderedMap.get? callId r.itemOwner with
  | some (_, .tool key toolName state resultSummary rawResult) =>
    if applies state then
      (r.updateItem (.tool key toolName goesOn resultSummary rawResult) time).getD r
    else r
  | _ => r

def Reduction.requestAction (time : String) (r : Reduction) (action : InputAction) : Reduction :=
  match OrderedMap.get? action.callId r.itemOwner with
  | some _ => r
  | none => r.pushItem (.tool action.callId action.toolName .pending none none) time

def Reduction.awaitInput (time : String) (r : Reduction) (request : EveInputRequest) : Reduction :=
  match request.action with
  | none => r
  | some action => r.retool action.callId (· == .pending) .awaiting time

def Reduction.upsertSpeech (r : Reduction) (base text : String) (complete : Bool) : Reduction :=
  let key := liveKey ("say:" ++ base) r.sealedSpeech
  let sealedSpeech := if complete then r.sealedSpeech ++ [key] else r.sealedSpeech
  match OrderedMap.get? key r.speechByKey with
  | none =>
    { r with
      segments := r.segments ++ [.speech key text complete]
      speechByKey := OrderedMap.set key r.segments.length r.speechByKey
      current := none
      sealedSpeech }
  | some index =>
    { r with segments := r.segments.modify index (Segment.say text complete), sealedSpeech }

/-- `text.trim().length === 0`. -/
def isBlank (text : String) : Bool :=
  text.toList.all fun c => c.toNat < 0x10000 && Json.isWhite (Json.unit c)

def speechBase (r : Reduction) (seq : Int) (turnId : String) : Option Nat → String
  | none => r.openSpeechBase.getD (legacyKey seq)
  | some stepIndex => stepKey turnId stepIndex

section

variable (deps : ViewDeps V)

/-- `Math.max(1, Math.round(ms / 1000))` of a span in which `least` holds. -/
def elapsed (first last : String) (least : Int → Bool) : Option Int :=
  match deps.dateParse first, deps.dateParse last with
  | some first, some last =>
    if least (last - first) then some (max 1 ((last - first + 500) / 1000)) else none
  | _, _ => none

/-- What a frame does to the segments and their items. -/
def Reduction.place (r : Reduction) (frame : Frame V) : Reduction :=
  match frame.event with
  | .actionsRequested actions => actions.foldl (Reduction.requestAction frame.time) r
  | .inputRequested _ requests => requests.foldl (Reduction.awaitInput frame.time) r
  | .actionPartial result =>
    let next := fun state => TimelineItem.tool result.callId result.toolName state
      (deps.summarizeToolResult result.output) (deps.rawResultText result.output)
    match r.toolStateOf result.callId with
    | none => r.upsert (next .pending) frame.time
    | some .pending => r.upsert (next .pending) frame.time
    | some .awaiting => r.upsert (next .awaiting) frame.time
    | some _ => r
  | .actionResult result status error =>
    let summary := match status with
      | .completed => deps.summarizeToolResult result.output
      | _ => some ((error.or (deps.summarizeToolResult result.output)).getD "Failed")
    let state := match status with
      | .completed => .ok
      | .rejected => .rejected
      | .failed => .error
    r.upsert (.tool result.callId result.toolName state summary
      (deps.rawResultText result.output)) frame.time
  | .reasoningAppended turnId stepIndex reasoningSoFar =>
    let key := r.thoughts.resolve frame.seq turnId stepIndex
    let first := (OrderedMap.get? key r.thoughtFirst).getD frame.time
    { r with thoughtFirst := OrderedMap.set key first r.thoughtFirst }.upsert
      (.thought key reasoningSoFar none true) frame.time
  | .reasoningCompleted turnId stepIndex reasoning =>
    let key := r.thoughts.resolve frame.seq turnId stepIndex
    let first := (OrderedMap.get? key r.thoughtFirst).getD frame.time
    r.upsert (.thought key reasoning (elapsed deps first frame.time (0 < ·)) false) frame.time
  | .messageAppended turnId stepIndex messageSoFar =>
    if isBlank messageSoFar then r
    else
      let base := speechBase r frame.seq turnId stepIndex
      let openSpeechBase := if stepIndex = none then some base else r.openSpeechBase
      { r with openSpeechBase }.upsertSpeech base messageSoFar false
  | .messageCompleted turnId stepIndex message =>
    let spoken := match message with
      | some text => if isBlank text then r
          else r.upsertSpeech (speechBase r frame.seq turnId stepIndex) text true
      | none => r
    { spoken with
      openSpeechBase := if stepIndex = none then none else spoken.openSpeechBase }
  | .turnCancelled _ =>
    (r.itemOwner.map Prod.fst).foldl
      (fun r key => r.retool key (fun state => state == .pending || state == .awaiting) .canceled
        frame.time) r
  | _ => r

/-- What a frame does to the variables of the run. -/
def Reduction.note (r : Reduction) : StreamEvent V → Reduction
  | .sessionStarted modelId => { r with modelId := modelId.or r.modelId }
  | .messageReceived message => { r with userMessage := message }
  | .contextCleared => { r with contextCleared := true, inputTokens := none }
  | .compactionCompleted => { r with contextCompacted := true, inputTokens := none }
  | .stepCompleted (some used) => if 0 < used then { r with inputTokens := some used } else r
  | .failed message => { r with error := some message }
  | _ => r

/-- One round of the loop. -/
def Reduction.step (r : Reduction) (frame : Frame V) : Reduction :=
  { (r.place deps frame).note frame.event with
    thoughts := r.thoughts.next frame
    prompts := r.prompts.reduce frame.event.prompt }

/-! ## The view -/

inductive RunSegment where
  | speech (key text : String) (streaming : Bool)
  | work (key : String) (items : List TimelineItem) (elapsedSeconds : Option Int)
      (startedAt : String) (active waiting isSealed : Bool)

def RunSegment.items : RunSegment → List TimelineItem
  | .speech .. => []
  | .work _ items .. => items

structure RunView where
  runId : String
  status : RunStatus
  userMessage : String
  segments : List RunSegment
  pendingInputs : List PendingInputView
  authorizations : List AuthorizationView
  error : Option String
  modelId : Option String
  canceled : Bool
  contextCleared : Bool
  contextCompacted : Bool
  inputTokens : Option Nat

/-- The items of all segments. -/
def RunView.items (view : RunView) : List TimelineItem := view.segments.flatMap RunSegment.items

structure Run where
  id : String
  status : RunStatus
  message : String
  error : Option String

/-- A settled row wins over what the live layer has. -/
def Run.statusWith (run : Run) (statusOverride : Option RunStatus) : RunStatus :=
  if run.status.terminal then run.status else statusOverride.getD run.status

/-- A stream that was cut off is no longer streaming. -/
def TimelineItem.freeze (runLive : Bool) : TimelineItem → TimelineItem
  | .thought key text seconds streaming => .thought key text seconds (streaming && runLive)
  | item => item

def Segment.view (runLive waiting : Bool) (last : Nat) (index : Nat) : Segment → RunSegment
  | .speech key text completed => .speech key text (!completed && runLive)
  | .work key items firstAt lastAt frames =>
    .work key (items.map (TimelineItem.freeze runLive))
      (if 2 ≤ frames then elapsed deps firstAt lastAt (0 ≤ ·) else none) firstAt
      (runLive && index == last) (waiting && index == last) (index < last)

def reduceRunView (run : Run) (frames : List (Frame V)) (statusOverride : Option RunStatus) :
    RunView :=
  let status := run.statusWith statusOverride
  let r := frames.foldl (Reduction.step deps) (.init run.message run.error)
  let runLive := !r.prompts.canceled && (status == .queued || status == .running)
  let answerable := !r.prompts.canceled && (status == .waiting || runLive)
  let pendingInputs :=
    if answerable then r.prompts.pendingByRequest.map fun entry => entry.2.1 else []
  let waiting := !r.prompts.canceled && status == .waiting && !pendingInputs.isEmpty
  { runId := run.id
    status
    userMessage := r.userMessage
    segments := r.segments.mapIdx (Segment.view deps runLive waiting (r.segments.length - 1))
    pendingInputs
    authorizations := (r.prompts.authorizationsByName.map Prod.snd).filter fun auth =>
      auth.outcome.isSome || answerable
    error := if status = .failed then some (r.error.getD "Run failed") else none
    modelId := r.modelId
    canceled := r.prompts.canceled || status == .canceled
    contextCleared := r.contextCleared
    contextCompacted := r.contextCompacted
    inputTokens := r.inputTokens }

end

/-! ## Sealed keys -/

/-! ## The index of the items -/

def itemsAt (segments : List Segment) (index : Nat) : List TimelineItem :=
  (segments[index]?.map Segment.items).getD []

/-- `itemOwner` has each item of each segment under its key, and nothing else. -/
structure Indexed (at_ : Nat → List TimelineItem) (owner : List (String × Nat × TimelineItem)) :
    Prop where
  there : ∀ key index item, OrderedMap.get? key owner = some (index, item) →
    item.key = key ∧ item ∈ at_ index
  owned : ∀ index, ∀ item ∈ at_ index, OrderedMap.get? item.key owner = some (index, item)
  nodup : ∀ index, ((at_ index).map TimelineItem.key).Nodup

variable {items : Nat → List TimelineItem} {owner : List (String × Nat × TimelineItem)}
  {index : Nat} {item next : TimelineItem}

/-- An item under a new key. -/
theorem Indexed.push (h : Indexed items owner) (index : Nat)
    (hnew : OrderedMap.get? item.key owner = none) :
    Indexed (Function.update items index (items index ++ [item]))
      (OrderedMap.set item.key (index, item) owner) := by
  have hother : ∀ i, ∀ item' ∈ items i, item'.key ≠ item.key := by
    intro i item' hitem heq
    rw [← heq, h.owned i item' hitem] at hnew
    cases hnew
  have hmem : ∀ i item', item' ∈ Function.update items index (items index ++ [item]) i →
      item' ∈ items i ∨ i = index ∧ item' = item := by
    intro i item' hitem
    by_cases hi : i = index
    · subst hi
      rw [Function.update_self, List.mem_append, List.mem_singleton] at hitem
      exact hitem.imp id fun heq => ⟨rfl, heq⟩
    · rw [Function.update_of_ne hi] at hitem
      exact .inl hitem
  refine ⟨fun key i item' hget => ?_, fun i item' hitem => ?_, fun i => ?_⟩
  · rw [OrderedMap.get?_set] at hget
    by_cases hkey : key = item.key
    · rw [if_pos hkey] at hget
      cases hget
      refine ⟨hkey.symm, ?_⟩
      rw [Function.update_self]
      exact List.mem_append_right _ List.mem_cons_self
    · rw [if_neg hkey] at hget
      obtain ⟨hk, hin⟩ := h.there key i item' hget
      refine ⟨hk, ?_⟩
      by_cases hi : i = index
      · subst hi
        rw [Function.update_self]
        exact List.mem_append_left _ hin
      · rw [Function.update_of_ne hi]
        exact hin
  · rw [OrderedMap.get?_set]
    rcases hmem i item' hitem with hin | ⟨rfl, rfl⟩
    · rw [if_neg (hother i item' hin)]
      exact h.owned i item' hin
    · rw [if_pos rfl]
  · by_cases hi : i = index
    · subst hi
      rw [Function.update_self, List.map_append, List.nodup_append]
      refine ⟨h.nodup i, List.nodup_singleton _, fun a ha b hb => ?_⟩
      obtain ⟨item', hin, rfl⟩ := List.mem_map.mp ha
      rw [List.map_singleton, List.mem_singleton] at hb
      rw [hb]
      exact hother i item' hin
    · rw [Function.update_of_ne hi]
      exact h.nodup i

theorem map_key_set (hmem : item ∈ items index) (hkey : item.key = next.key) :
    ((items index).set ((items index).idxOf item) next).map TimelineItem.key =
      (items index).map TimelineItem.key := by
  have hlt := List.idxOf_lt_length_of_mem hmem
  rw [List.map_set, ← hkey]
  refine List.ext_getElem (List.length_set ..) fun n hn hn' => ?_
  rw [List.getElem_set]
  split
  · rename_i heq
    subst heq
    rw [List.getElem_map, List.getElem_idxOf]
  · rfl

theorem mem_set_of_ne {l : List TimelineItem} {other : TimelineItem} (hmem : other ∈ l)
    (hne : other ≠ item) : other ∈ l.set (l.idxOf item) next := by
  obtain ⟨n, hn, rfl⟩ := List.getElem_of_mem hmem
  have hindex : l.idxOf item ≠ n := by
    rintro rfl
    exact hne (List.getElem_idxOf hn)
  rw [List.mem_iff_getElem]
  exact ⟨n, by rwa [List.length_set], List.getElem_set_of_ne hindex _ _⟩

theorem Indexed.replace (h : Indexed items owner)
    (hget : OrderedMap.get? next.key owner = some (index, item)) :
    Indexed (Function.update items index ((items index).set ((items index).idxOf item) next))
      (OrderedMap.set next.key (index, next) owner) := by
  obtain ⟨hkey, hmem⟩ := h.there _ _ _ hget
  have hkeys := map_key_set hmem hkey
  have hnodup : (((items index).set ((items index).idxOf item) next).map
      TimelineItem.key).Nodup := by
    rw [hkeys]
    exact h.nodup index
  have hnext : next ∈ (items index).set ((items index).idxOf item) next :=
    List.mem_set (List.idxOf_lt_length_of_mem hmem) _
  refine ⟨fun key i item' hget' => ?_, fun i item' hitem => ?_, fun i => ?_⟩
  · rw [OrderedMap.get?_set] at hget'
    by_cases hk : key = next.key
    · rw [if_pos hk] at hget'
      cases hget'
      refine ⟨hk.symm, ?_⟩
      rw [Function.update_self]
      exact hnext
    · rw [if_neg hk] at hget'
      obtain ⟨hk', hin⟩ := h.there key i item' hget'
      refine ⟨hk', ?_⟩
      by_cases hi : i = index
      · subst hi
        rw [Function.update_self]
        refine mem_set_of_ne hin fun heq => hk ?_
        rw [← hk', heq, hkey]
      · rw [Function.update_of_ne hi]
        exact hin
  · rw [OrderedMap.get?_set]
    by_cases hi : i = index
    · subst hi
      rw [Function.update_self] at hitem
      by_cases hk : item'.key = next.key
      · rw [if_pos hk, List.inj_on_of_nodup_map hnodup hitem hnext hk]
      · rw [if_neg hk]
        refine h.owned i item' ((List.mem_or_eq_of_mem_set hitem).resolve_right fun heq => hk ?_)
        rw [heq]
    · rw [Function.update_of_ne hi] at hitem
      have hown := h.owned i item' hitem
      rw [if_neg fun hk => hi ?_]
      · exact hown
      · rw [hk, hget] at hown
        cases hown
        rfl
  · by_cases hi : i = index
    · subst hi
      rw [Function.update_self]
      exact hnodup
    · rw [Function.update_of_ne hi]
      exact h.nodup i

theorem Indexed.nodup_keys {segments : List Segment} (h : Indexed (itemsAt segments) owner) :
    ((segments.flatMap Segment.items).map TimelineItem.key).Nodup := by
  rw [List.map_flatMap, List.nodup_flatMap]
  have hat : ∀ i (hi : i < segments.length), itemsAt segments i = segments[i].items := by
    intro i hi
    rw [itemsAt, List.getElem?_eq_getElem hi]
    rfl
  constructor
  · intro segment hsegment
    obtain ⟨i, hi, rfl⟩ := List.getElem_of_mem hsegment
    rw [← hat i hi]
    exact h.nodup i
  · rw [List.pairwise_iff_getElem]
    intro i j hi hj hij key hkeyi hkeyj
    change key ∈ (segments[i].items).map TimelineItem.key at hkeyi
    change key ∈ (segments[j].items).map TimelineItem.key at hkeyj
    rw [← hat i hi] at hkeyi
    rw [← hat j hj] at hkeyj
    obtain ⟨itemi, hitemi, rfl⟩ := List.mem_map.mp hkeyi
    obtain ⟨itemj, hitemj, heq⟩ := List.mem_map.mp hkeyj
    have hi' := h.owned i itemi hitemi
    rw [← heq, h.owned j itemj hitemj] at hi'
    cases hi'
    exact Nat.lt_irrefl _ hij

/-! ## One frame -/

def Segment.IsWork : Segment → Prop
  | .work .. => True
  | .speech .. => False

structure Reduction.Sound (r : Reduction) : Prop where
  indexed : Indexed (itemsAt r.segments) r.itemOwner
  open_work : ∀ index, r.current = some index → ∃ segment, r.segments[index]? = some segment ∧
    segment.IsWork

/-- Whether the item with this key is a tool call, when there is one. -/
def Reduction.kind (r : Reduction) (key : String) : Option Bool :=
  (OrderedMap.get? key r.itemOwner).map fun e => e.2.isTool

theorem getElem?_modify_eq (segments : List Segment) (j i : Nat) (f : Segment → Segment) :
    (segments.modify j f)[i]? = if j = i then segments[i]?.map f else segments[i]? := by
  rw [List.getElem?_modify]
  split
  · rfl
  · exact Option.map_id' ..

theorem itemsAt_append (segments : List Segment) (segment : Segment) :
    itemsAt (segments ++ [segment]) =
      Function.update (itemsAt segments) segments.length segment.items := by
  funext i
  by_cases hi : i = segments.length
  · subst hi
    rw [Function.update_self, itemsAt, List.getElem?_concat_length]
    rfl
  · rw [Function.update_of_ne hi, itemsAt, itemsAt]
    by_cases hlt : i < segments.length
    · rw [List.getElem?_append_left hlt]
    · have hlong : (segments ++ [segment]).length ≤ i := by
        rw [List.length_append, List.length_singleton]
        omega
      rw [List.getElem?_eq_none hlong, List.getElem?_eq_none (Nat.not_lt.mp hlt)]

theorem itemsAt_length (segments : List Segment) : itemsAt segments segments.length = [] := by
  rw [itemsAt, List.getElem?_eq_none (Nat.le_refl _)]
  rfl

theorem itemsAt_modify {segments : List Segment} {index : Nat} {segment : Segment}
    (hget : segments[index]? = some segment) (f : Segment → Segment) :
    itemsAt (segments.modify index f) =
      Function.update (itemsAt segments) index (f segment).items := by
  funext i
  rw [itemsAt, getElem?_modify_eq]
  by_cases hi : i = index
  · subst hi
    rw [Function.update_self, if_pos rfl, hget]
    rfl
  · rw [Function.update_of_ne hi, if_neg (Ne.symm hi), itemsAt]

theorem itemsAt_eq {segments : List Segment} {index : Nat} {segment : Segment}
    (hget : segments[index]? = some segment) : itemsAt segments index = segment.items := by
  rw [itemsAt, hget]
  rfl

theorem items_append {segment : Segment} (h : segment.IsWork) (item : TimelineItem)
    (time : String) : (segment.append item time).items = segment.items ++ [item] := by
  cases segment with
  | work => rfl
  | speech => cases h

theorem items_replace (segment : Segment) (item next : TimelineItem) (time : String) :
    (segment.replace item next time).items =
      segment.items.set (segment.items.idxOf item) next := by
  cases segment <;> rfl

/-- The open work stays one when segments keep their kinds. -/
theorem open_modify {segments : List Segment} {current : Option Nat} (j : Nat)
    {f : Segment → Segment} (hf : ∀ segment, segment.IsWork → (f segment).IsWork)
    (h : ∀ index, current = some index → ∃ segment, segments[index]? = some segment ∧
      segment.IsWork) : ∀ index, current = some index →
        ∃ segment, (segments.modify j f)[index]? = some segment ∧ segment.IsWork := by
  intro index hcurrent
  obtain ⟨segment, hget, hwork⟩ := h index hcurrent
  rw [getElem?_modify_eq, hget]
  by_cases hj : j = index
  · rw [if_pos hj]
    exact ⟨f segment, rfl, hf segment hwork⟩
  · rw [if_neg hj]
    exact ⟨segment, rfl, hwork⟩

theorem isWork_replace {item next : TimelineItem} {time : String} (segment : Segment)
    (h : segment.IsWork) : (segment.replace item next time).IsWork := by
  cases segment with
  | work => trivial
  | speech => cases h

theorem isWork_append {item : TimelineItem} {time : String} (segment : Segment)
    (h : segment.IsWork) : (segment.append item time).IsWork := by
  cases segment with
  | work => trivial
  | speech => cases h

theorem isWork_say {text : String} {complete : Bool} (segment : Segment)
    (h : segment.IsWork) : (segment.say text complete).IsWork := by
  cases segment with
  | work => trivial
  | speech => cases h

section

variable {r : Reduction} {time : String} {key : String}

theorem kind_set (owner : List (String × Nat × TimelineItem)) (index : Nat) (item : TimelineItem)
    (key : String) : (OrderedMap.get? key (OrderedMap.set item.key (index, item) owner)).map
      (fun e => e.2.isTool) = if key = item.key then some item.isTool
        else (OrderedMap.get? key owner).map fun e => e.2.isTool := by
  rw [OrderedMap.get?_set]
  split <;> rfl

theorem Reduction.Sound.pushItem (h : r.Sound)
    (hnew : OrderedMap.get? item.key r.itemOwner = none) :
    (r.pushItem item time).Sound ∧ ∀ key, (r.pushItem item time).kind key =
      if key = item.key then some item.isTool else r.kind key := by
  unfold Reduction.pushItem
  split
  · rename_i index hcurrent
    obtain ⟨segment, hget, hwork⟩ := h.open_work index hcurrent
    refine ⟨⟨?_, open_modify index isWork_append h.open_work⟩, kind_set _ _ _⟩
    have hpush := h.indexed.push index hnew
    rw [itemsAt_eq hget, ← items_append hwork item time, ← itemsAt_modify hget] at hpush
    exact hpush
  · refine ⟨⟨?_, fun index hindex => ?_⟩, kind_set _ _ _⟩
    · have hpush := h.indexed.push r.segments.length hnew
      rw [itemsAt_length] at hpush
      show Indexed (itemsAt (r.segments ++ [_])) _
      rw [itemsAt_append]
      exact hpush
    · cases hindex
      exact ⟨_, List.getElem?_concat_length, trivial⟩

theorem Reduction.Sound.updateItem (h : r.Sound) {r' : Reduction}
    (hupdate : r.updateItem next time = some r') :
    r'.Sound ∧ ∀ key, r'.kind key = if key = next.key then some next.isTool else r.kind key := by
  unfold Reduction.updateItem at hupdate
  split at hupdate
  · cases hupdate
  · rename_i index item hget
    cases hupdate
    refine ⟨⟨?_, open_modify index isWork_replace h.open_work⟩, kind_set _ _ _⟩
    have hmem := (h.indexed.there _ _ _ hget).2
    cases hsegment : r.segments[index]? with
    | none =>
      rw [itemsAt, hsegment] at hmem
      cases hmem
    | some segment =>
      have hreplace := h.indexed.replace hget
      rw [itemsAt_eq hsegment, ← items_replace segment item next time,
        ← itemsAt_modify hsegment] at hreplace
      exact hreplace

theorem Reduction.Sound.upsert (h : r.Sound) (next : TimelineItem) (time : String) :
    (r.upsert next time).Sound ∧ ∀ key, (r.upsert next time).kind key =
      if key = next.key then some next.isTool else r.kind key := by
  cases hupdate : r.updateItem next time with
  | some r' =>
    rw [Reduction.upsert, hupdate]
    exact h.updateItem hupdate
  | none =>
    rw [Reduction.upsert, hupdate]
    refine h.pushItem ?_
    unfold Reduction.updateItem at hupdate
    split at hupdate
    · assumption
    · cases hupdate

/-- No item changes its kind, none comes in. -/
def Reduction.Keeps (r r' : Reduction) : Prop := r'.Sound ∧ ∀ key, r'.kind key = r.kind key

theorem Reduction.Keeps.refl (h : r.Sound) : r.Keeps r := ⟨h, fun _ => rfl⟩

theorem Reduction.Keeps.foldl {A : Type} {f : Reduction → A → Reduction}
    (hf : ∀ (r : Reduction) a, r.Sound → r.Keeps (f r a)) (l : List A) (h : r.Sound) :
    r.Keeps (l.foldl f r) := by
  induction l generalizing r with
  | nil => exact .refl h
  | cons a l ih =>
    obtain ⟨hsound, hkind⟩ := hf r a h
    obtain ⟨hsound', hkind'⟩ := ih hsound
    exact ⟨hsound', fun key => (hkind' key).trans (hkind key)⟩

theorem Reduction.Sound.retool (h : r.Sound) (callId : CallId) (applies : StepState → Bool)
    (goesOn : StepState) (time : String) : r.Keeps (r.retool callId applies goesOn time) := by
  unfold Reduction.retool
  split
  · rename_i index key toolName state resultSummary rawResult hget
    split
    · cases hupdate : r.updateItem (.tool key toolName goesOn resultSummary rawResult) time with
      | none => exact .refl h
      | some r' =>
        obtain ⟨hsound, hkind⟩ := h.updateItem hupdate
        refine ⟨hsound, fun key' => ?_⟩
        rw [Option.getD_some, hkind]
        split
        · rename_i heq
          have hkey : key = callId := (h.indexed.there _ _ _ hget).1
          rw [heq, Reduction.kind]
          change _ = (OrderedMap.get? key r.itemOwner).map _
          rw [hkey, hget]
          rfl
        · rfl
    · exact .refl h
  · exact .refl h

/-- A requested call comes in as a tool, unless its key is taken. -/
theorem Reduction.Sound.requestAction (h : r.Sound) (time : String) (action : InputAction) :
    (r.requestAction time action).Sound ∧ ∀ key, (r.requestAction time action).kind key =
      if key = action.callId then some ((r.kind key).getD true) else r.kind key := by
  cases hget : OrderedMap.get? action.callId r.itemOwner with
  | some e =>
    have hsame : r.requestAction time action = r := by
      rw [Reduction.requestAction, hget]
    rw [hsame]
    refine ⟨h, fun key => ?_⟩
    split
    · rename_i heq
      rw [heq, Reduction.kind, hget]
      rfl
    · rfl
  | none =>
    have hpush : r.requestAction time action =
        r.pushItem (.tool action.callId action.toolName .pending none none) time := by
      rw [Reduction.requestAction, hget]
    obtain ⟨hsound, hkind⟩ : (r.requestAction time action).Sound ∧ _ := by
      rw [hpush]
      exact h.pushItem hget
    refine ⟨hsound, fun key => ?_⟩
    rw [hpush, hkind]
    change (if key = action.callId then some true else r.kind key) = _
    split
    · rename_i heq
      rw [heq, Reduction.kind, hget]
      rfl
    · rfl

theorem Reduction.Sound.requestActions (h : r.Sound) (time : String) (actions : List InputAction) :
    (actions.foldl (Reduction.requestAction time) r).Sound ∧ ∀ key,
      (actions.foldl (Reduction.requestAction time) r).kind key =
        if key ∈ actions.map InputAction.callId then some ((r.kind key).getD true)
        else r.kind key := by
  induction actions generalizing r with
  | nil => exact ⟨h, fun key => rfl⟩
  | cons action actions ih =>
    obtain ⟨hsound, hkind⟩ := h.requestAction time action
    obtain ⟨hsound', hkind'⟩ := ih hsound
    refine ⟨hsound', fun key => ?_⟩
    rw [List.foldl_cons, hkind', hkind, List.map_cons]
    by_cases hkey : key = action.callId
    · rw [if_pos hkey, if_pos (List.mem_cons.mpr (.inl hkey))]
      split <;> rfl
    · rw [if_neg hkey]
      by_cases hmem : key ∈ actions.map InputAction.callId
      · rw [if_pos hmem, if_pos (List.mem_cons_of_mem _ hmem)]
      · rw [if_neg hmem, if_neg fun h => (List.mem_cons.mp h).elim hkey hmem]

theorem Reduction.Sound.upsertSpeech (h : r.Sound) (base text : String) (complete : Bool) :
    r.Keeps (r.upsertSpeech base text complete) := by
  cases hget : OrderedMap.get? (liveKey ("say:" ++ base) r.sealedSpeech) r.speechByKey with
  | none =>
    simp only [Reduction.upsertSpeech, hget]
    refine ⟨⟨?_, fun index hindex => (by cases hindex)⟩, fun _ => rfl⟩
    have hsame : Function.update (itemsAt r.segments) r.segments.length [] =
        itemsAt r.segments := by
      rw [← itemsAt_length r.segments, Function.update_eq_self]
    show Indexed (itemsAt (r.segments ++ [_])) _
    rw [itemsAt_append]
    change Indexed (Function.update (itemsAt r.segments) r.segments.length []) _
    rw [hsame]
    exact h.indexed
  | some index =>
    simp only [Reduction.upsertSpeech, hget]
    refine ⟨⟨?_, open_modify index isWork_say h.open_work⟩, fun _ => rfl⟩
    have hsame : itemsAt (r.segments.modify index (Segment.say text complete)) =
        itemsAt r.segments := by
      funext i
      rw [itemsAt, itemsAt, getElem?_modify_eq]
      cases r.segments[i]? with
      | none => split <;> rfl
      | some segment =>
        by_cases hi : index = i
        · rw [if_pos hi]
          cases segment <;> rfl
        · rw [if_neg hi]
    show Indexed (itemsAt (r.segments.modify index (Segment.say text complete))) _
    rw [hsame]
    exact h.indexed

/-- The event brings a result of the call, a partial one or the last. -/
def StreamEvent.returns (callId : CallId) : StreamEvent V → Prop
  | .actionPartial result => result.callId = callId
  | .actionResult result _ _ => result.callId = callId
  | _ => False

instance (callId : CallId) (event : StreamEvent V) : Decidable (event.returns callId) := by
  cases event <;> unfold StreamEvent.returns <;> infer_instance

def StreamEvent.requests (callId : CallId) : StreamEvent V → Prop
  | .actionsRequested actions => callId ∈ actions.map InputAction.callId
  | _ => False

instance (callId : CallId) (event : StreamEvent V) : Decidable (event.requests callId) := by
  cases event <;> unfold StreamEvent.requests <;> infer_instance

/-- What a frame makes of the item with this key. -/
def placed (keys : ThoughtKeys) (frame : Frame V) (key : String) (kind : Option Bool) :
    Option Bool :=
  if keys.keyOf frame = some key then some false
  else if frame.event.returns key then some true
  else if frame.event.requests key then some (kind.getD true)
  else kind

/-- A frame that brings neither a thought nor a call. -/
theorem placed_of_quiet {keys : ThoughtKeys} {frame : Frame V} {key : String} {kind : Option Bool}
    (hkey : keys.keyOf frame = none) (hreturns : ¬ frame.event.returns key)
    (hrequests : ¬ frame.event.requests key) : placed keys frame key kind = kind := by
  have hnone : ¬ keys.keyOf frame = some key := by
    rw [hkey]
    exact Option.some_ne_none key ∘ Eq.symm
  rw [placed, if_neg hnone, if_neg hreturns, if_neg hrequests]

theorem not_requests_of_returns {event : StreamEvent V} {callId : CallId}
    (h : event.returns callId) (key : CallId) : ¬ event.requests key := by
  intro hrequests
  cases event with
  | actionsRequested actions => exact h
  | _ => exact hrequests

theorem placed_of_returns {keys : ThoughtKeys} {frame : Frame V} {callId key : String}
    {kind : Option Bool} (hkey : keys.keyOf frame = none)
    (hreturns : ∀ key, frame.event.returns key ↔ callId = key) :
    placed keys frame key kind = if key = callId then some true else kind := by
  by_cases hcall : key = callId
  · have hnone : ¬ keys.keyOf frame = some key := by
      rw [hkey]
      exact Option.some_ne_none key ∘ Eq.symm
    rw [placed, if_neg hnone, if_pos ((hreturns key).mpr hcall.symm), if_pos hcall]
  · rw [if_neg hcall]
    exact placed_of_quiet hkey (fun h => hcall ((hreturns key).mp h).symm)
      (not_requests_of_returns ((hreturns callId).mpr rfl) key)

theorem placed_of_thought {keys : ThoughtKeys} {frame : Frame V} {thought key : String}
    {kind : Option Bool} (hkey : keys.keyOf frame = some thought)
    (hreturns : ¬ frame.event.returns key) (hrequests : ¬ frame.event.requests key) :
    placed keys frame key kind = if key = thought then some false else kind := by
  rw [placed, hkey, if_neg hreturns, if_neg hrequests]
  by_cases heq : key = thought
  · rw [if_pos (congrArg some heq.symm), if_pos heq]
  · rw [if_neg fun h => heq (Option.some.inj h).symm, if_neg heq]

theorem Reduction.toolStateOf_kind {callId : CallId} {state : StepState}
    (h : r.toolStateOf callId = some state) : r.kind callId = some true := by
  unfold Reduction.toolStateOf at h
  split at h
  · rename_i hget
    rw [Reduction.kind, hget]
    rfl
  · cases h

theorem Reduction.Sound.place (deps : ViewDeps V) (h : r.Sound) (frame : Frame V) :
    (r.place deps frame).Sound ∧
      ∀ key, (r.place deps frame).kind key = placed r.thoughts frame key (r.kind key) := by
  have hquiet : ∀ r', r.Keeps r' → r.thoughts.keyOf frame = none →
      (∀ key, ¬ frame.event.returns key) → (∀ key, ¬ frame.event.requests key) →
      r'.Sound ∧ ∀ key, r'.kind key = placed r.thoughts frame key (r.kind key) := by
    intro r' hkeeps hkey hreturns hrequests
    refine ⟨hkeeps.1, fun key => ?_⟩
    rw [placed_of_quiet hkey (hreturns key) (hrequests key)]
    exact hkeeps.2 key
  have htool : ∀ callId toolName state summary raw, r.thoughts.keyOf frame = none →
      (∀ key, frame.event.returns key ↔ callId = key) →
      (r.upsert (.tool callId toolName state summary raw) frame.time).Sound ∧
        ∀ key, (r.upsert (.tool callId toolName state summary raw) frame.time).kind key =
          placed r.thoughts frame key (r.kind key) := by
    intro callId toolName state summary raw hkey hreturns
    obtain ⟨hsound, hkind⟩ := h.upsert (.tool callId toolName state summary raw) frame.time
    refine ⟨hsound, fun key => ?_⟩
    rw [hkind, placed_of_returns hkey hreturns]
    rfl
  have hthought : ∀ r' : Reduction, r'.Sound → r'.kind = r.kind → ∀ key' text seconds streaming,
      r.thoughts.keyOf frame = some key' → (∀ key, ¬ frame.event.returns key) →
      (∀ key, ¬ frame.event.requests key) →
      (r'.upsert (.thought key' text seconds streaming) frame.time).Sound ∧
        ∀ key, (r'.upsert (.thought key' text seconds streaming) frame.time).kind key =
          placed r.thoughts frame key (r.kind key) := by
    intro r' hr' hsame key' text seconds streaming hkey hreturns hrequests
    obtain ⟨hsound, hkind⟩ := hr'.upsert (.thought key' text seconds streaming) frame.time
    refine ⟨hsound, fun key => ?_⟩
    rw [hkind, hsame, placed_of_thought hkey (hreturns key) (hrequests key)]
    rfl
  rcases frame with ⟨seq, event, time⟩
  cases event with
  | actionsRequested actions =>
    obtain ⟨hsound, hkind⟩ := h.requestActions time actions
    refine ⟨hsound, fun key => ?_⟩
    rw [placed, if_neg (by simp [ThoughtKeys.keyOf]), if_neg (by simp [StreamEvent.returns])]
    exact hkind key
  | inputRequested turnId requests =>
    refine hquiet _ (.foldl (fun r request hr => ?_) requests h) rfl (fun _ => id) fun _ => id
    unfold Reduction.awaitInput
    split
    · exact .refl hr
    · exact hr.retool _ _ _ _
  | actionPartial result =>
    unfold Reduction.place
    dsimp only
    split
    · exact htool _ _ _ _ _ rfl fun _ => Iff.rfl
    · exact htool _ _ _ _ _ rfl fun _ => Iff.rfl
    · exact htool _ _ _ _ _ rfl fun _ => Iff.rfl
    · rename_i hstate
      refine ⟨h, fun key => ?_⟩
      rw [placed_of_returns rfl fun _ => Iff.rfl]
      split
      · rename_i heq
        rw [heq]
        exact Reduction.toolStateOf_kind hstate
      · rfl
  | actionResult result status error => exact htool _ _ _ _ _ rfl fun _ => Iff.rfl
  | reasoningAppended turnId stepIndex reasoningSoFar =>
    have hnoted : ∀ thoughtFirst, ({ r with thoughtFirst } : Reduction).Sound := fun _ =>
      ⟨h.indexed, h.open_work⟩
    let key := r.thoughts.resolve seq turnId stepIndex
    exact hthought _
      (hnoted (OrderedMap.set key ((OrderedMap.get? key r.thoughtFirst).getD time) r.thoughtFirst))
      rfl _ _ _ _ rfl (fun _ => id) fun _ => id
  | reasoningCompleted turnId stepIndex reasoning =>
    exact hthought r h rfl _ _ _ _ rfl (fun _ => id) fun _ => id
  | messageAppended turnId stepIndex messageSoFar =>
    refine hquiet _ ?_ rfl (fun _ => id) fun _ => id
    unfold Reduction.place
    dsimp only
    split
    · exact .refl h
    · have hopened : ∀ openSpeechBase, ({ r with openSpeechBase } : Reduction).Sound := fun _ =>
        ⟨h.indexed, h.open_work⟩
      exact (hopened _).upsertSpeech (speechBase r seq turnId stepIndex) messageSoFar false
  | messageCompleted turnId stepIndex message =>
    refine hquiet _ ?_ rfl (fun _ => id) fun _ => id
    have hspoken : ∀ r' : Reduction, r.Keeps r' → ∀ base,
        r.Keeps { r' with openSpeechBase := base } := fun r' hkeeps base =>
      ⟨⟨hkeeps.1.indexed, hkeeps.1.open_work⟩, hkeeps.2⟩
    refine hspoken _ ?_ _
    split
    · split
      · exact .refl h
      · exact h.upsertSpeech _ _ _
    · exact .refl h
  | turnCancelled turnId =>
    refine hquiet _ (.foldl (fun r key hr => hr.retool _ _ _ _) _ h) rfl (fun _ => id) fun _ => id
  | _ => exact hquiet r (.refl h) rfl (fun _ => id) fun _ => id

end

/-! ## All frames -/

/-- Each frame with the key that its reasoning is filed under. -/
def filedFrom (keys : ThoughtKeys) : List (Frame V) → List (Option String × Frame V)
  | [] => []
  | frame :: frames => (keys.keyOf frame, frame) :: filedFrom (keys.next frame) frames

def filed (frames : List (Frame V)) : List (Option String × Frame V) := filedFrom .empty frames

theorem filedFrom_append_singleton (keys : ThoughtKeys) (frames : List (Frame V))
    (frame : Frame V) : filedFrom keys (frames ++ [frame]) =
      filedFrom keys frames ++ [((frames.foldl ThoughtKeys.next keys).keyOf frame, frame)] := by
  induction frames generalizing keys with
  | nil => rfl
  | cons f frames ih => exact congrArg _ (ih (keys.next f))

/-- The frames as the prompts read them. -/
def asked (frames : List (Frame V)) : List RunEvent := frames.map fun frame => frame.event.prompt

/-- A thought under the key of a call. -/
def ThinksAs (callId : CallId) (e : Option String × Frame V) : Prop := e.1 = some callId

def Returns (callId : CallId) (e : Option String × Frame V) : Prop := e.2.event.returns callId

/-- The frames request the call or bring a result of it. -/
def Mentioned (callId : CallId) (frames : List (Frame V)) : Prop :=
  ∃ frame ∈ frames, frame.event.requests callId ∨ frame.event.returns callId

section

variable (deps : ViewDeps V) (run : Run)

/-- `reduceRunView`'s variables behind the loop. -/
def reduced (frames : List (Frame V)) : Reduction :=
  frames.foldl (Reduction.step deps) (.init run.message run.error)

theorem note_segments (r : Reduction) (event : StreamEvent V) :
    (r.note event).segments = r.segments ∧ (r.note event).itemOwner = r.itemOwner ∧
      (r.note event).current = r.current := by
  cases event with
  | stepCompleted inputTokens =>
    cases inputTokens with
    | none => exact ⟨rfl, rfl, rfl⟩
    | some used =>
      by_cases hused : 0 < used
      · rw [show r.note (.stepCompleted (some used) : StreamEvent V) =
          { r with inputTokens := some used } from if_pos hused]
        exact ⟨rfl, rfl, rfl⟩
      · rw [show r.note (.stepCompleted (some used) : StreamEvent V) = r from if_neg hused]
        exact ⟨rfl, rfl, rfl⟩
  | _ => exact ⟨rfl, rfl, rfl⟩

theorem Reduction.Sound.step {r : Reduction} (h : r.Sound) (frame : Frame V) :
    (r.step deps frame).Sound ∧
      ∀ key, (r.step deps frame).kind key = placed r.thoughts frame key (r.kind key) := by
  obtain ⟨hplaced, hkind⟩ := h.place deps frame
  obtain ⟨hsegments, howner, hcurrent⟩ := note_segments (r.place deps frame) frame.event
  have hsound : ((r.place deps frame).note frame.event).Sound := by
    constructor
    · rw [hsegments, howner]
      exact hplaced.indexed
    · rw [hsegments, hcurrent]
      exact hplaced.open_work
  refine ⟨⟨hsound.indexed, hsound.open_work⟩, fun key => ?_⟩
  rw [← hkind key]
  show (OrderedMap.get? key ((r.place deps frame).note frame.event).itemOwner).map _ = _
  rw [howner]
  rfl

theorem reduced_thoughts (frames : List (Frame V)) :
    (reduced deps run frames).thoughts = frames.foldl ThoughtKeys.next .empty := by
  induction frames using List.reverseRecOn with
  | nil => rfl
  | append_singleton frames frame ih =>
    rw [reduced, List.foldl_append, List.foldl_append, ← ih]
    rfl

theorem reduced_prompts (frames : List (Frame V)) :
    (reduced deps run frames).prompts = (asked frames).foldl Prompts.reduce .empty := by
  induction frames using List.reverseRecOn with
  | nil => rfl
  | append_singleton frames frame ih =>
    rw [reduced, asked, List.foldl_append, List.map_append, List.foldl_append, ← asked, ← ih]
    rfl

/-- Behind the loop the items are indexed; a key is a thought's when a thought took it and no
result of a call with that id came since. -/
theorem reduced_sound (frames : List (Frame V)) :
    (reduced deps run frames).Sound ∧ ∀ key,
      ((reduced deps run frames).kind key = some false ↔
        Since (ThinksAs key) (Returns key) (filed frames)) ∧
      (Mentioned key frames → (reduced deps run frames).kind key ≠ none) ∧
      ((reduced deps run frames).kind key = none →
        ¬ Since (ThinksAs key) (Returns key) (filed frames)) := by
  induction frames using List.reverseRecOn with
  | nil =>
    have hempty : ∀ index, itemsAt [] index = [] := fun index => rfl
    refine ⟨⟨⟨?_, ?_, ?_⟩, ?_⟩, fun key => ⟨?_, ?_, ?_⟩⟩
    · exact fun key index item h => by cases h
    · exact fun index item h => absurd h List.not_mem_nil
    · exact fun index => List.nodup_nil
    · exact fun index h => by cases h
    · exact ⟨fun h => (by cases h), fun h => absurd h since_nil⟩
    · rintro ⟨frame, hframe, -⟩
      exact absurd hframe List.not_mem_nil
    · exact fun _ => since_nil
  | append_singleton frames frame ih =>
    obtain ⟨hsound, hkey⟩ := ih
    have hfold : reduced deps run (frames ++ [frame]) =
        (reduced deps run frames).step deps frame := by
      rw [reduced, List.foldl_append]
      rfl
    obtain ⟨hsound', hkind⟩ := hsound.step deps frame
    rw [hfold]
    refine ⟨hsound', fun key => ?_⟩
    obtain ⟨hfalse, hmentioned, hnone⟩ := hkey key
    rw [hkind key, reduced_thoughts, filed, filedFrom_append_singleton, since_append_singleton]
    change (_ ↔ (frames.foldl ThoughtKeys.next .empty).keyOf frame = some key ∨
      (Since (ThinksAs key) (Returns key) (filed frames) ∧ ¬ frame.event.returns key)) ∧ _ ∧
      (_ → ¬ ((frames.foldl ThoughtKeys.next .empty).keyOf frame = some key ∨
        (Since (ThinksAs key) (Returns key) (filed frames) ∧ ¬ frame.event.returns key)))
    have hbefore : Mentioned key (frames ++ [frame]) → ¬ frame.event.requests key →
        ¬ frame.event.returns key → Mentioned key frames := by
      rintro ⟨f, hf, hmention⟩ hrequests hreturns
      rcases List.mem_append.mp hf with hf | hf
      · exact ⟨f, hf, hmention⟩
      · rw [List.mem_singleton.mp hf] at hmention
        exact absurd hmention (not_or.mpr ⟨hrequests, hreturns⟩)
    unfold placed
    by_cases hthinks : (frames.foldl ThoughtKeys.next .empty).keyOf frame = some key
    · rw [if_pos hthinks]
      exact ⟨⟨fun _ => .inl hthinks, fun _ => rfl⟩, fun _ h => (by cases h), fun h => by cases h⟩
    · rw [if_neg hthinks]
      by_cases hreturns : frame.event.returns key
      · rw [if_pos hreturns]
        refine ⟨⟨fun h => (by cases h), ?_⟩, fun _ h => (by cases h), fun h => by cases h⟩
        rintro (h | ⟨-, h⟩)
        · exact absurd h hthinks
        · exact absurd hreturns h
      · rw [if_neg hreturns, or_iff_right hthinks, and_iff_left hreturns]
        by_cases hrequests : frame.event.requests key
        · rw [if_pos hrequests]
          refine ⟨?_, fun _ h => (by cases h), fun h => by cases h⟩
          rw [← hfalse]
          cases (reduced deps run frames).kind key with
          | none => exact ⟨fun h => (by cases h), fun h => by cases h⟩
          | some b => exact Iff.rfl
        · rw [if_neg hrequests]
          exact ⟨hfalse, fun h => hmentioned (hbefore h hrequests hreturns), hnone⟩

end

/-! ## What is shown -/

theorem key_freeze (runLive : Bool) (item : TimelineItem) :
    (item.freeze runLive).key = item.key := by
  cases item <;> rfl

theorem isTool_freeze (runLive : Bool) (item : TimelineItem) :
    (item.freeze runLive).isTool = item.isTool := by
  cases item <;> rfl

theorem flatMap_mapIdx {A B C : Type} {f : Nat → A → B} {g : B → List C} {g' : A → List C}
    (h : ∀ i a, g (f i a) = g' a) (l : List A) : (l.mapIdx f).flatMap g = l.flatMap g' := by
  induction l generalizing f with
  | nil => rfl
  | cons a l ih =>
    rw [List.mapIdx_cons, List.flatMap_cons, List.flatMap_cons, h,
      ih (f := fun i => f (i + 1)) fun i a => h (i + 1) a]

section

variable (deps : ViewDeps V) (run : Run) (frames : List (Frame V))
  (statusOverride : Option RunStatus)

/-- The items of the view are those of the segments, a cut-off stream frozen. -/
theorem items_view : ∃ runLive, (reduceRunView deps run frames statusOverride).items =
    ((reduced deps run frames).segments.flatMap Segment.items).map
      (TimelineItem.freeze runLive) := by
  refine ⟨!(reduced deps run frames).prompts.canceled &&
    (run.statusWith statusOverride == .queued || run.statusWith statusOverride == .running), ?_⟩
  rw [List.map_flatMap]
  refine flatMap_mapIdx (fun i segment => ?_) _
  cases segment <;> rfl

/-- The tool items under a key. -/
def RunView.tools (view : RunView) (callId : CallId) : List TimelineItem :=
  view.items.filter fun item => item.isTool && item.key == callId

theorem nodup_view :
    ((reduceRunView deps run frames statusOverride).items.map TimelineItem.key).Nodup := by
  obtain ⟨runLive, hitems⟩ := items_view deps run frames statusOverride
  rw [hitems, List.map_map]
  have hkeys : TimelineItem.key ∘ TimelineItem.freeze runLive = TimelineItem.key :=
    funext fun item => key_freeze runLive item
  rw [hkeys]
  exact (reduced_sound deps run frames).1.indexed.nodup_keys

theorem mem_flatMap_items {segments : List Segment} :
    item ∈ segments.flatMap Segment.items ↔ ∃ index, item ∈ itemsAt segments index := by
  rw [List.mem_flatMap]
  constructor
  · rintro ⟨segment, hsegment, hitem⟩
    obtain ⟨index, hindex⟩ := List.mem_iff_getElem?.mp hsegment
    exact ⟨index, by rw [itemsAt_eq hindex]; exact hitem⟩
  · rintro ⟨index, hitem⟩
    cases hget : segments[index]? with
    | none =>
      rw [itemsAt, hget] at hitem
      cases hitem
    | some segment =>
      rw [itemsAt_eq hget] at hitem
      exact ⟨segment, List.mem_of_getElem? hget, hitem⟩

/-- An item is there with its kind. -/
theorem Reduction.Sound.kind_eq_some {r : Reduction} (h : r.Sound) {key : String} {b : Bool} :
    r.kind key = some b ↔
      ∃ item ∈ r.segments.flatMap Segment.items, item.key = key ∧ item.isTool = b := by
  constructor
  · intro hkind
    obtain ⟨⟨index, item⟩, hget, hb⟩ := Option.map_eq_some_iff.mp hkind
    obtain ⟨hkey, hmem⟩ := h.indexed.there _ _ _ hget
    exact ⟨item, mem_flatMap_items.mpr ⟨index, hmem⟩, hkey, hb⟩
  · rintro ⟨item, hitem, hkey, hb⟩
    obtain ⟨index, hmem⟩ := mem_flatMap_items.mp hitem
    rw [Reduction.kind, ← hkey, h.indexed.owned index item hmem]
    exact congrArg some hb

theorem tools_length (callId : CallId) :
    ((reduceRunView deps run frames statusOverride).tools callId).length = 1 ↔
      (reduced deps run frames).kind callId = some true := by
  obtain ⟨runLive, hitems⟩ := items_view deps run frames statusOverride
  have hnodup := nodup_view deps run frames statusOverride
  rw [(reduced_sound deps run frames).1.kind_eq_some]
  constructor
  · intro hone
    obtain ⟨item, hsingle⟩ := List.length_eq_one_iff.mp hone
    have hitem : item ∈ (reduceRunView deps run frames statusOverride).tools callId := by
      rw [hsingle]
      exact List.mem_cons_self
    obtain ⟨hitem, htool⟩ := List.mem_filter.mp hitem
    rw [hitems] at hitem
    obtain ⟨item, hmem, rfl⟩ := List.mem_map.mp hitem
    rw [isTool_freeze, key_freeze, Bool.and_eq_true, beq_iff_eq] at htool
    exact ⟨item, hmem, htool.2, htool.1⟩
  · rintro ⟨item, hmem, hkey, htool⟩
    have hin : item.freeze runLive ∈ (reduceRunView deps run frames statusOverride).tools
        callId := by
      refine List.mem_filter.mpr ⟨by rw [hitems]; exact List.mem_map_of_mem hmem, ?_⟩
      rw [isTool_freeze, key_freeze, htool, hkey, Bool.true_and, beq_self_eq_true]
    have hsame : ∀ other ∈ (reduceRunView deps run frames statusOverride).tools callId,
        other = item.freeze runLive := by
      intro other hother
      obtain ⟨hother, hkey'⟩ := List.mem_filter.mp hother
      rw [Bool.and_eq_true, beq_iff_eq] at hkey'
      refine List.inj_on_of_nodup_map hnodup hother (List.mem_filter.mp hin).1 ?_
      rw [hkey'.2, key_freeze, hkey]
    have hlist := List.eq_replicate_of_mem hsame
    have hnodup' : ((reduceRunView deps run frames statusOverride).tools callId).Nodup :=
      (List.Nodup.of_map _ hnodup).filter _
    rw [hlist, List.nodup_replicate] at hnodup'
    exact Nat.le_antisymm hnodup' (List.length_pos_of_mem hin)

/-- A call that the frames mention is shown once, unless a thought stands under its id. -/
theorem shown_iff {callId : CallId} (hmentioned : Mentioned callId frames) :
    ((reduceRunView deps run frames statusOverride).tools callId).length = 1 ↔
      ¬ Since (ThinksAs callId) (Returns callId) (filed frames) := by
  obtain ⟨hfalse, hsome, -⟩ := (reduced_sound deps run frames).2 callId
  rw [tools_length, ← hfalse]
  cases hkind : (reduced deps run frames).kind callId with
  | none => exact absurd hkind (hsome hmentioned)
  | some b => cases b <;> simp

end

/-! ## What is asked -/

/-- The event raises the request, for whatever call. -/
def Names (id : RequestId) : RunEvent → Prop
  | .inputRequested requests => ∃ r ∈ requests, r.requestId = id
  | _ => False

/-- The request's call: the one that it was raised for last. -/
def AskedFor (id : RequestId) (callId : CallId) (frames : List (Frame V)) : Prop :=
  Since (RunEvent.raises id (some callId)) (Names id) (asked frames)

def HasResult (callId : CallId) (frames : List (Frame V)) : Prop :=
  ∃ frame ∈ frames, ∃ result status error,
    frame.event = .actionResult result status error ∧ result.callId = callId

def Cancelled (frames : List (Frame V)) : Prop :=
  ∃ frame ∈ frames, ∃ turnId, frame.event = .turnCancelled turnId

theorem names_of_raises {id : RequestId} {call : Option CallId} {e : RunEvent}
    (h : RunEvent.raises id call e) : Names id e := by
  cases e with
  | inputRequested requests =>
    obtain ⟨r, hr, -⟩ := Option.map_eq_some_iff.mp h
    obtain ⟨hmem, hid⟩ := List.mem_filter.mp (List.mem_of_getLast? hr)
    exact ⟨r, hmem, beq_iff_eq.mp hid⟩
  | _ => exact h

theorem raises_unique {id : RequestId} {call call' : Option CallId} {e : RunEvent}
    (h : RunEvent.raises id call e) (h' : RunEvent.raises id call' e) : call = call' := by
  cases e with
  | inputRequested requests => exact Option.some.inj (h.symm.trans h')
  | _ => exact False.elim h

theorem settles_of_names {id : RequestId} {call : Option CallId} {e : RunEvent} (h : Names id e) :
    RunEvent.settles id call e := by
  cases e with
  | inputRequested requests => exact h
  | _ => exact False.elim h

/-- Each prompt carries the id that it is filed under. -/
theorem requestId_of_pending (events : List RunEvent) :
    ∀ e ∈ (events.foldl Prompts.reduce .empty).pendingByRequest, e.2.1.requestId = e.1 := by
  have hraise : ∀ (requests : List EveInputRequest)
      (pending : List (RequestId × PendingInputView × Option CallId)),
      (∀ e ∈ pending, e.2.1.requestId = e.1) →
      ∀ e ∈ requests.foldl raiseRequest pending, e.2.1.requestId = e.1 := by
    intro requests
    induction requests with
    | nil => exact fun pending h => h
    | cons request requests ih =>
      intro pending h
      refine ih _ fun e he => ?_
      rcases OrderedMap.eq_or_mem_of_mem_set he with rfl | he
      · rfl
      · exact h e he
  induction events using List.reverseRecOn with
  | nil => exact fun e he => absurd he List.not_mem_nil
  | append_singleton events event ih =>
    rw [List.foldl_append, List.foldl_cons, List.foldl_nil]
    cases event with
    | inputRequested requests => exact hraise requests _ ih
    | actionResult callId => exact fun e he => ih e (List.mem_filter.mp he).1
    | turnCancelled turnId => exact fun e he => absurd he List.not_mem_nil
    | contextCleared => exact fun e he => absurd he List.not_mem_nil
    | _ => exact ih

theorem canceled_iff (frames : List (Frame V)) :
    ((asked frames).foldl Prompts.reduce .empty).canceled = true ↔ Cancelled frames := by
  induction frames using List.reverseRecOn with
  | nil =>
    refine ⟨fun h => (by cases h), ?_⟩
    rintro ⟨frame, hframe, -⟩
    exact absurd hframe List.not_mem_nil
  | append_singleton frames frame ih =>
    have hsplit : Cancelled (frames ++ [frame]) ↔
        Cancelled frames ∨ ∃ turnId, frame.event = .turnCancelled turnId := by
      constructor
      · rintro ⟨f, hf, hturn⟩
        rcases List.mem_append.mp hf with hf | hf
        · exact .inl ⟨f, hf, hturn⟩
        · exact .inr (List.mem_singleton.mp hf ▸ hturn)
      · rintro (⟨f, hf, hturn⟩ | hturn)
        · exact ⟨f, List.mem_append_left _ hf, hturn⟩
        · exact ⟨frame, List.mem_append_right _ List.mem_cons_self, hturn⟩
    rw [hsplit, asked, List.map_append, List.foldl_append, ← ih]
    cases hevent : frame.event with
    | turnCancelled turnId =>
      simp only [List.map_cons, hevent]
      exact ⟨fun _ => .inr ⟨turnId, rfl⟩, fun _ => rfl⟩
    | _ =>
      simp only [List.map_cons, hevent]
      exact ⟨.inl, fun h => h.resolve_right fun h' => by cases h'.choose_spec⟩

section

variable (deps : ViewDeps V) (run : Run) (frames : List (Frame V))
  (statusOverride : Option RunStatus)

/-- The run can still be answered: it waits or is live, and was not stopped. -/
def Answerable : Prop :=
  (run.statusWith statusOverride = .waiting ∨ run.statusWith statusOverride = .queued ∨
    run.statusWith statusOverride = .running) ∧ ¬ Cancelled frames

/-- A run that can be answered lists its unanswered requests, another one none. -/
theorem mem_pendingInputs {p : PendingInputView} :
    p ∈ (reduceRunView deps run frames statusOverride).pendingInputs ↔
      Answerable run frames statusOverride ∧
        ∃ id call, (id, p, call) ∈
          ((asked frames).foldl Prompts.reduce .empty).pendingByRequest := by
  have hprompts := reduced_prompts deps run frames
  have hcanceled := canceled_iff frames
  have hview : (reduceRunView deps run frames statusOverride).pendingInputs =
      if (!(reduced deps run frames).prompts.canceled &&
        (run.statusWith statusOverride == .waiting || !(reduced deps run frames).prompts.canceled &&
          (run.statusWith statusOverride == .queued ||
            run.statusWith statusOverride == .running))) = true then
        (reduced deps run frames).prompts.pendingByRequest.map fun e => e.2.1
      else [] := rfl
  rw [hview, hprompts]
  have hanswer : ((!((asked frames).foldl Prompts.reduce .empty).canceled &&
      (run.statusWith statusOverride == .waiting ||
        !((asked frames).foldl Prompts.reduce .empty).canceled &&
          (run.statusWith statusOverride == .queued ||
            run.statusWith statusOverride == .running))) = true) ↔
      Answerable run frames statusOverride := by
    rw [Answerable, ← hcanceled]
    cases ((asked frames).foldl Prompts.reduce .empty).canceled <;>
      simp
  by_cases h : Answerable run frames statusOverride
  · rw [if_pos (hanswer.mpr h), and_iff_right h, List.mem_map]
    constructor
    · rintro ⟨⟨id, view, call⟩, hmem, rfl⟩
      exact ⟨id, call, hmem⟩
    · rintro ⟨id, call, hmem⟩
      exact ⟨_, hmem, rfl⟩
  · rw [if_neg fun h' => h (hanswer.mp h')]
    exact ⟨fun h' => absurd h' List.not_mem_nil, fun h' => absurd h'.1 h⟩

/-- No request is asked whose call has its result. -/
def NoneSettled (view : RunView) : Prop :=
  ∀ p ∈ view.pendingInputs, ∀ callId, AskedFor p.requestId callId frames →
    ¬ HasResult callId frames

/-- An unsettled request of a run that can be answered is for a call without a result. -/
def RequestsFresh : Prop :=
  Answerable run frames statusOverride → ∀ id callId,
    Since (RunEvent.raises id (some callId)) (RunEvent.settles id (some callId)) (asked frames) →
      ¬ HasResult callId frames

theorem noneSettled_iff : NoneSettled frames (reduceRunView deps run frames statusOverride) ↔
    RequestsFresh run frames statusOverride := by
  have htable := (mem_pendingByRequest (asked frames)).2
  constructor
  · intro h hanswer id callId hsince
    obtain ⟨view, hmem⟩ := (htable id (some callId)).mpr hsince
    have hid : view.requestId = id := requestId_of_pending _ _ hmem
    refine h view ((mem_pendingInputs ..).mpr ⟨hanswer, id, some callId, hmem⟩) callId ?_
    rw [hid]
    exact hsince.mono (fun _ h => h) fun _ => settles_of_names
  · intro h p hp callId hasked
    obtain ⟨hanswer, id, call, hmem⟩ := (mem_pendingInputs ..).mp hp
    have hid : p.requestId = id := requestId_of_pending _ _ hmem
    rw [hid] at hasked
    have hsince := (htable id call).mp ⟨p, hmem⟩
    have hlast : Since (RunEvent.raises id call) (Names id) (asked frames) :=
      hsince.mono (fun _ h => h) fun _ => settles_of_names
    obtain ⟨e, hraises, hraises'⟩ :=
      hlast.meet hasked (fun _ => names_of_raises) fun _ => names_of_raises
    have hcall := raises_unique hraises hraises'
    subst hcall
    exact h hanswer id callId hsince

end

/-! ## The view as a whole -/

section

variable (deps : ViewDeps V) (run : Run) (statusOverride : Option RunStatus)

/-- A store that gets a batch of frames, and the view of a run with some frames. -/
structure ChatViewStable (store : FrameStore (StreamEvent V)) (delivered frames : List (Frame V)) :
    Prop where
  /-- the batch counts as a set -/
  any_order : ∀ delivered', (∀ f, f ∈ delivered' ↔ f ∈ delivered) →
    (addFrames store delivered').frames = (addFrames store delivered).frames
  one_per_seq : (addFrames store delivered).frames.Pairwise fun a b => a.seq < b.seq
  distinct_keys : ((reduceRunView deps run frames statusOverride).items.map
    TimelineItem.key).Nodup
  calls_once : ∀ callId, Mentioned callId frames →
    ((reduceRunView deps run frames statusOverride).tools callId).length = 1
  none_settled : NoneSettled frames (reduceRunView deps run frames statusOverride)
  none_cancelled : ∀ p ∈ (reduceRunView deps run frames statusOverride).pendingInputs,
    ∀ frame ∈ frames, ∀ turnId requests, frame.event = .inputRequested turnId requests →
      (∃ r ∈ requests, r.requestId = p.requestId) →
        ∀ frame' ∈ frames, frame'.event ≠ .turnCancelled turnId

/-- Behind a thought under a call's id a result of the call has come. -/
def CallsApart (frames : List (Frame V)) : Prop :=
  ∀ callId, Mentioned callId frames → ¬ Since (ThinksAs callId) (Returns callId) (filed frames)

theorem chat_view_stable_iff (store : FrameStore (StreamEvent V))
    (delivered frames : List (Frame V)) :
    ChatViewStable deps run statusOverride store delivered frames ↔
      OnePerSeq store delivered ∧ CallsApart frames ∧
        RequestsFresh run frames statusOverride := by
  constructor
  · intro h
    refine ⟨addFrames_eq_iff.mp h.any_order, fun callId hmentioned => ?_,
      (noneSettled_iff ..).mp h.none_settled⟩
    exact (shown_iff deps run frames statusOverride hmentioned).mp (h.calls_once callId hmentioned)
  · rintro ⟨hone, hapart, hfresh⟩
    refine ⟨addFrames_eq_iff.mpr hone, (addFrames store delivered).sorted, nodup_view ..,
      fun callId hmentioned => ?_, (noneSettled_iff ..).mpr hfresh, ?_⟩
    · exact (shown_iff deps run frames statusOverride hmentioned).mpr (hapart callId hmentioned)
    · intro p hp _ _ turnId _ _ _ frame' hframe' hcancel
      exact ((mem_pendingInputs ..).mp hp).1.2 ⟨frame', hframe', turnId, hcancel⟩

end

/-- A tool that returns nothing to show. -/
def plainDeps : ViewDeps Unit := ⟨fun _ => none, fun _ => none, fun _ => none⟩

def approval : EveInputRequest :=
  ⟨"r1", "Approve tool call: send", some .toolApproval, some ⟨"c1", "send"⟩, none,
    some .confirmation, none⟩

/-- A step that parks, is answered and returns its result; then a retry emits it again. -/
def retriedStep : List (Frame Unit) :=
  [⟨0, .actionsRequested [⟨"c1", "send"⟩], ""⟩, ⟨1, .inputRequested "t1" [approval], ""⟩,
    ⟨2, .actionResult ⟨"c1", "send", ()⟩ .completed none, ""⟩,
    ⟨3, .actionsRequested [⟨"c1", "send"⟩], ""⟩, ⟨4, .inputRequested "t1" [approval], ""⟩]

/-- The call has its result, and its request is pending again. -/
theorem retried_request_pending :
    ¬ ChatViewStable plainDeps ⟨"run", .running, "hello", none⟩ none .empty [] retriedStep := by
  intro h
  have hpending : pendingInputFromRequest approval ∈ (reduceRunView plainDeps
      ⟨"run", .running, "hello", none⟩ retriedStep none).pendingInputs := by
    decide +kernel
  refine h.none_settled _ hpending "c1" ⟨(asked retriedStep).take 4, _, [], rfl, rfl, ?_⟩
    ⟨⟨2, .actionResult ⟨"c1", "send", ()⟩ .completed none, ""⟩, ?_, _, _, _, rfl, rfl⟩
  · exact fun e he => absurd he List.not_mem_nil
  · exact List.mem_cons_of_mem _ (List.mem_cons_of_mem _ List.mem_cons_self)

end InvisibleString.Chat.Timeline
