import InvisibleString.Lib.Json
import Mathlib.Data.List.Basic

/- # `Delivery.ThreadKey` — the keys of Slack threads

A thread is known by the text `integration:channel:timestamp`.  The ingress builds it, the agent
step qualifies it for a second agent of the same thread, the delivery takes it apart again, and
the ingress asks which stored keys belong to a thread.

**Proved here.**

    the key of a thread is read back, no qualified key is read as a thread, no two keys that
      mean different things are equal, and a stored key is matched by the thread it is the key
      of, bare or qualified, and by no other  (`thread_keys_exact`)
    the sessions that make a thread known  (`isKnownSlackThread_iff`)
-/

namespace InvisibleString.Delivery

open Json

/-! ## Keys -/

def slackThreadKey (integrationId channel threadTs : JsString) : JsString :=
  integrationId ++ unit ':' :: (channel ++ unit ':' :: threadTs)

structure ParsedSlackThreadKey where
  integrationId : JsString
  channel : JsString
  threadTs : JsString
  deriving DecidableEq

def parseSlackThreadKey (key : JsString) : Option ParsedSlackThreadKey :=
  match key.splitOn (unit ':') with
  | [integrationId, channel, threadTs] =>
    if integrationId = [] ∨ channel = [] ∨ threadTs = [] then none
    else some ⟨integrationId, channel, threadTs⟩
  | _ => none

def agentQualifiedThreadKeyPrefix (threadKey : JsString) : JsString :=
  threadKey ++ ascii ":agent:"

def agentQualifiedThreadKey (threadKey agentId : JsString) : JsString :=
  agentQualifiedThreadKeyPrefix threadKey ++ agentId

/-! ## Known threads -/

inductive SlackSessionStatus where
  | active
  | closed
  | error
  deriving DecidableEq

inductive SlackSessionOrigin where
  | slack
  | other
  deriving DecidableEq

/-- The columns of an agent session that the lookups read. -/
structure ThreadSession where
  organizationId : JsString
  workflowId : JsString
  origin : SlackSessionOrigin
  eveSessionId : Option JsString
  status : SlackSessionStatus
  slackThreadKey : Option JsString

/-- `slack_thread_key = key OR starts_with(slack_thread_key, prefix)`. -/
def claims (threadKey stored : JsString) : Bool :=
  stored = threadKey || (agentQualifiedThreadKeyPrefix threadKey).isPrefixOf stored

/-- Its session can be continued. -/
def ThreadSession.continuable (row : ThreadSession) : Bool :=
  row.eveSessionId.isSome && row.status ∉ [.closed, .error]

/-- A Slack session of the workflow. -/
def ThreadSession.ofWorkflow (organizationId workflowId : JsString) (row : ThreadSession) : Bool :=
  row.organizationId = organizationId && row.workflowId = workflowId && row.origin = .slack

/-- `rows` come in the order of the database, which has one at most. -/
def findSlackThreadSession (rows : List ThreadSession)
    (organizationId workflowId threadKey : JsString) : Option ThreadSession :=
  (rows.find? fun row => row.ofWorkflow organizationId workflowId &&
    row.slackThreadKey = some threadKey).filter ThreadSession.continuable

def isKnownSlackThread (rows : List ThreadSession)
    (organizationId workflowId threadKey : JsString) : Bool :=
  rows.any fun row => row.ofWorkflow organizationId workflowId && row.continuable &&
    row.slackThreadKey.any (claims threadKey)

/-! ## Threads -/

/-- A part of a key. -/
def IsPart (s : JsString) : Prop := s ≠ [] ∧ unit ':' ∉ s

structure SlackThread where
  integrationId : JsString
  channel : JsString
  threadTs : JsString
  integration : IsPart integrationId
  channels : IsPart channel
  timestamp : IsPart threadTs

def SlackThread.key (thread : SlackThread) : JsString :=
  slackThreadKey thread.integrationId thread.channel thread.threadTs

theorem splitOn_slackThreadKey (integrationId channel threadTs : JsString) :
    (slackThreadKey integrationId channel threadTs).splitOn (unit ':') =
      integrationId.splitOn (unit ':') ++ (channel.splitOn (unit ':') ++
        threadTs.splitOn (unit ':')) := by
  rw [slackThreadKey, List.splitOn_append_cons_self, List.splitOn_append_cons_self]

theorem IsPart.splitOn {s : JsString} (h : IsPart s) : s.splitOn (unit ':') = [s] :=
  List.splitOn_eq_singleton h.2

theorem SlackThread.splitOn (thread : SlackThread) : thread.key.splitOn (unit ':') =
    [thread.integrationId, thread.channel, thread.threadTs] := by
  rw [key, splitOn_slackThreadKey, thread.integration.splitOn, thread.channels.splitOn,
    thread.timestamp.splitOn]
  rfl

/-- The key of a thread says which thread it is. -/
theorem SlackThread.eq_of_splitOn {thread thread' : SlackThread}
    (h : thread.key.splitOn (unit ':') = thread'.key.splitOn (unit ':')) : thread = thread' := by
  rw [thread.splitOn, thread'.splitOn] at h
  cases thread
  cases thread'
  cases h
  rfl

theorem parseSlackThreadKey_key (thread : SlackThread) : parseSlackThreadKey thread.key =
    some ⟨thread.integrationId, thread.channel, thread.threadTs⟩ := by
  rw [parseSlackThreadKey, thread.splitOn]
  refine if_neg ?_
  rintro (h | h | h)
  · exact thread.integration.1 h
  · exact thread.channels.1 h
  · exact thread.timestamp.1 h

theorem splitOn_qualified (threadKey agentId : JsString) :
    (agentQualifiedThreadKey threadKey agentId).splitOn (unit ':') =
      threadKey.splitOn (unit ':') ++ ascii "agent" :: agentId.splitOn (unit ':') := by
  have hsplit : agentQualifiedThreadKey threadKey agentId =
      threadKey ++ unit ':' :: (ascii "agent" ++ unit ':' :: agentId) := by
    rw [agentQualifiedThreadKey, agentQualifiedThreadKeyPrefix, List.append_assoc]
    rfl
  have hagent : (ascii "agent").splitOn (unit ':') = [ascii "agent"] :=
    List.splitOn_eq_singleton (by decide)
  rw [hsplit, List.splitOn_append_cons_self, List.splitOn_append_cons_self, hagent]
  rfl

theorem parseSlackThreadKey_qualified (integrationId channel threadTs agentId : JsString) :
    parseSlackThreadKey
      (agentQualifiedThreadKey (slackThreadKey integrationId channel threadTs) agentId) = none := by
  have hlong : 3 < ((agentQualifiedThreadKey
      (slackThreadKey integrationId channel threadTs) agentId).splitOn (unit ':')).length := by
    have hpos : ∀ s : JsString, 0 < (s.splitOn (unit ':')).length := fun s =>
      List.length_pos_iff.mpr (List.splitOn_ne_nil _ s)
    have hintegration := hpos integrationId
    have hchannel := hpos channel
    have hts := hpos threadTs
    rw [splitOn_qualified, splitOn_slackThreadKey]
    simp only [List.length_append, List.length_cons]
    omega
  rw [parseSlackThreadKey]
  split
  · next hsplit =>
    rw [hsplit] at hlong
    cases Nat.lt_irrefl 3 hlong
  · rfl

theorem qualified_ne_key (thread thread' : SlackThread) (agentId : JsString) :
    agentQualifiedThreadKey thread.key agentId ≠ thread'.key := by
  intro heq
  have hread := parseSlackThreadKey_key thread'
  rw [← heq, SlackThread.key, parseSlackThreadKey_qualified] at hread
  cases hread

theorem qualified_injective {thread thread' : SlackThread} {agentId agentId' : JsString}
    (h : agentQualifiedThreadKey thread.key agentId =
      agentQualifiedThreadKey thread'.key agentId') : thread = thread' ∧ agentId = agentId' := by
  have hsplit := congrArg (List.splitOn (unit ':')) h
  rw [splitOn_qualified, splitOn_qualified] at hsplit
  have hlength : (thread.key.splitOn (unit ':')).length =
      (thread'.key.splitOn (unit ':')).length := by
    rw [thread.splitOn, thread'.splitOn]
    rfl
  obtain rfl := SlackThread.eq_of_splitOn (List.append_inj_left hsplit hlength)
  exact ⟨rfl, List.append_cancel_left h⟩

theorem claims_iff {threadKey stored : JsString} : claims threadKey stored = true ↔
    stored = threadKey ∨ ∃ agentId, stored = agentQualifiedThreadKey threadKey agentId := by
  rw [claims, Bool.or_eq_true, decide_eq_true_iff, List.isPrefixOf_iff_prefix]
  refine or_congr_right ?_
  constructor
  · rintro ⟨agentId, heq⟩
    exact ⟨agentId, heq.symm⟩
  · rintro ⟨agentId, heq⟩
    exact ⟨agentId, heq.symm⟩

theorem claims_thread {thread thread' : SlackThread} {stored : JsString}
    (hstored : stored = thread'.key ∨ ∃ agentId, stored = agentQualifiedThreadKey thread'.key agentId)
    (h : claims thread.key stored = true) : thread' = thread := by
  rcases claims_iff.mp h with rfl | ⟨agentId, rfl⟩
  · rcases hstored with heq | ⟨agentId, heq⟩
    · exact (SlackThread.eq_of_splitOn (congrArg _ heq)).symm
    · exact absurd heq.symm (qualified_ne_key thread' thread agentId)
  · rcases hstored with heq | ⟨agentId', heq⟩
    · exact absurd heq (qualified_ne_key thread thread' agentId)
    · exact (qualified_injective heq).1.symm

theorem isKnownSlackThread_iff {rows : List ThreadSession}
    {organizationId workflowId threadKey : JsString} :
    isKnownSlackThread rows organizationId workflowId threadKey = true ↔
      ∃ row ∈ rows, row.ofWorkflow organizationId workflowId = true ∧ row.continuable = true ∧
        ∃ stored, row.slackThreadKey = some stored ∧ claims threadKey stored = true := by
  rw [isKnownSlackThread, List.any_eq_true]
  refine exists_congr fun row => and_congr_right fun _ => ?_
  rw [Bool.and_eq_true, Bool.and_eq_true, and_assoc]
  refine and_congr_right fun _ => and_congr_right fun _ => ?_
  rw [Option.any_eq_true]

theorem findSlackThreadSession_key {rows : List ThreadSession}
    {organizationId workflowId threadKey : JsString} {row : ThreadSession}
    (h : findSlackThreadSession rows organizationId workflowId threadKey = some row) :
    row ∈ rows ∧ row.continuable = true ∧ row.slackThreadKey = some threadKey := by
  obtain ⟨hfind, hcontinuable⟩ := Option.filter_eq_some_iff.mp h
  have hmatch := List.find?_some hfind
  rw [Bool.and_eq_true] at hmatch
  exact ⟨List.mem_of_find?_eq_some hfind, hcontinuable, of_decide_eq_true hmatch.2⟩

/-- Keys of threads are read back, kept apart from qualified ones, and matched exactly. -/
theorem thread_keys_exact :
    (∀ thread : SlackThread, parseSlackThreadKey thread.key =
      some ⟨thread.integrationId, thread.channel, thread.threadTs⟩) ∧
    (∀ (thread : SlackThread) (agentId : JsString),
      parseSlackThreadKey (agentQualifiedThreadKey thread.key agentId) = none) ∧
    (∀ (thread thread' : SlackThread) (agentId : JsString),
      agentQualifiedThreadKey thread.key agentId ≠ thread'.key) ∧
    (∀ (thread thread' : SlackThread) (agentId agentId' : JsString),
      agentQualifiedThreadKey thread.key agentId = agentQualifiedThreadKey thread'.key agentId' →
        thread = thread' ∧ agentId = agentId') ∧
    (∀ threadKey stored : JsString, claims threadKey stored = true ↔
      stored = threadKey ∨ ∃ agentId, stored = agentQualifiedThreadKey threadKey agentId) ∧
    (∀ (thread thread' : SlackThread) (stored : JsString), claims thread.key stored = true →
      (stored = thread'.key ∨ ∃ agentId, stored = agentQualifiedThreadKey thread'.key agentId) →
        thread' = thread) ∧
    (∀ (rows : List ThreadSession) (organizationId workflowId threadKey : JsString),
      isKnownSlackThread rows organizationId workflowId threadKey = true ↔
        ∃ row ∈ rows, row.ofWorkflow organizationId workflowId = true ∧ row.continuable = true ∧
          ∃ stored, row.slackThreadKey = some stored ∧ claims threadKey stored = true) ∧
    ∀ (rows : List ThreadSession) (organizationId workflowId threadKey : JsString) row,
      findSlackThreadSession rows organizationId workflowId threadKey = some row →
        row ∈ rows ∧ row.continuable = true ∧ row.slackThreadKey = some threadKey :=
  ⟨parseSlackThreadKey_key, fun _ => parseSlackThreadKey_qualified _ _ _, qualified_ne_key,
    fun _ _ _ _ => qualified_injective, fun _ _ => claims_iff,
    fun _ _ _ h hstored => claims_thread hstored h, fun _ _ _ _ => isKnownSlackThread_iff,
    fun _ _ _ _ _ => findSlackThreadSession_key⟩

end InvisibleString.Delivery
