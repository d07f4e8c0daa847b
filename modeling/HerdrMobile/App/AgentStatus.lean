import HerdrMobile.App.PlainStore
import HerdrMobile.Lib.LinkedMap
import HerdrMobile.Proto.Tree

/-!
# The notification log

`agent_status.dart`: the log of status changes, what a person has acknowledged of it, and the
messages that come in one after the other while acknowledgements are read and stored. Names,
titles and the attention of the tree are left out.
-/
namespace HerdrMobile.App.AgentStatus

open HerdrMobile.Lib HerdrMobile.Lib.Strings HerdrMobile.Lib.LinkedMap HerdrMobile.App.PlainStore
open HerdrMobile.Proto.Tree (AgentStatusKind)

set_option autoImplicit false

def statusName : AgentStatusKind → Text
  | .idle => "idle".toList
  | .working => "working".toList
  | .blocked => "blocked".toList
  | .done => "done".toList
  | .unknown => "unknown".toList

/-- A status change of a pane, as far as it identifies it. -/
structure AttentionItem where
  hostId : Text
  paneId : Text
  status : AgentStatusKind
  «at» : Option Text
deriving DecidableEq

/-- A row of the log. Rows are compared by `identical`, so each is a numbered object. -/
structure NotificationItem where
  item : AttentionItem
  seen : Bool
  object : Nat
deriving DecidableEq

structure AgentSummary where
  paneId : Text
  status : Text
  statusAt : Option Text
deriving DecidableEq

/-- A message of the queue. A snapshot is of the computer that was connected when it came. -/
inductive Message where
  | agentStatus (status : AttentionItem)
  | treeSnapshot (hostId : Text) (agents : List AgentSummary)
deriving DecidableEq

def Message.hostId : Message → Text
  | .agentStatus status => status.hostId
  | .treeSnapshot hostId _ => hostId

/-- A live status of another kind is dropped. -/
def Message.taken : Message → Bool
  | .agentStatus status => status.status = .blocked || status.status = .done
  | .treeSnapshot _ _ => true

/-- The text of a snapshot's agent that is kept in the log. -/
def attentionKind (status : Text) : Option AgentStatusKind :=
  if status = "blocked".toList then some .blocked
  else if status = "done".toList then some .done
  else none

/-- `DateTime.tryParse` as an instant, and `String.compareTo`. -/
structure Times where
  tryParse : Text → Option Int
  compareTo : Text → Text → Ordering
  compareTo_self : ∀ t, compareTo t t = .eq

def compareAt (times : Times) (a b : Option Text) : Ordering :=
  match a.bind times.tryParse, b.bind times.tryParse with
  | some pa, some pb => compare pa pb
  | _, _ => times.compareTo (a.getD []) (b.getD [])

def key (hostId paneId : Text) : Text := hostId ++ '\x00' :: paneId

def AttentionItem.key (item : AttentionItem) : Text := AgentStatus.key item.hostId item.paneId

def AttentionItem.ack (item : AttentionItem) (removed : Bool) : NotificationAck where
  hostId := item.hostId
  paneId := item.paneId
  status := statusName item.status
  «at» := item.at
  removed := removed

/-- How far the message at the head of the queue is: its acknowledgements are being read, have
been read from the store, or are there. -/
inductive Loading where
  | idle
  | reading
  | captured (acks : List NotificationAck)
  | ready
deriving DecidableEq

/-- A call of `saveNotificationAck` that has not returned. `object` is the row to which the
transition is applied; `markSeen` has applied it before. -/
structure Save where
  item : AttentionItem
  removed : Bool
  object : Option Nat
deriving DecidableEq

/-- The service beside the store. The last four fields record what has happened: the identities
that calls which returned `Ok` have acknowledged, those that they have removed, the alerts that
were posted, and the changes that were reported. -/
structure State where
  currentHostId : Text := []
  log : Linked Text NotificationItem := []
  objects : Nat := 0
  acks : Text → Option NotificationAck := fun _ => none
  acksHostId : Option Text := none
  queue : List Message := []
  loading : Loading := .idle
  store : List NotificationAck := []
  saves : List Save := []
  acknowledged : List AttentionItem := []
  removed : List AttentionItem := []
  posted : List AttentionItem := []
  reported : List AttentionItem := []

/-- The last acknowledgement of a pane counts. -/
def fill (acks : Text → Option NotificationAck) (list : List NotificationAck) :
    Text → Option NotificationAck :=
  list.foldl (fun acks ack paneId => if paneId = ack.paneId then some ack else acks paneId) acks

def ackFor (times : Times) (acks : Text → Option NotificationAck) (paneId : Text)
    (status : AgentStatusKind) («at» : Option Text) : Option NotificationAck :=
  match acks paneId with
  | none => none
  | some ack =>
    if ack.status ≠ statusName status then none
    else if compareAt times «at» ack.at = .gt then none
    else some ack

/-- What the log keeps of an agent in a snapshot. -/
def agentItem (hostId : Text) (agent : AgentSummary) : Option AttentionItem :=
  (attentionKind agent.status).map fun kind => ⟨hostId, agent.paneId, kind, agent.statusAt⟩

/-- The changes that a message reports, in the order in which they are applied. -/
def Message.reports : Message → List AttentionItem
  | .agentStatus status => [status]
  | .treeSnapshot hostId agents => agents.filterMap (agentItem hostId)

namespace State

variable (times : Times) (s : State)

/-- A new object takes the place of the row. -/
def putItem (item : AttentionItem) (seen : Bool) : State :=
  { s with log := put s.log item.key ⟨item, seen, s.objects⟩, objects := s.objects + 1 }

def removeItem (item : AttentionItem) : State := { s with log := LinkedMap.remove s.log item.key }

def report (item : AttentionItem) : State := { s with reported := item :: s.reported }

def onLiveAgentStatus (status : AttentionItem) : State :=
  match ackFor times s.acks status.paneId status.status status.at with
  | none => { s.putItem status false with posted := status :: s.posted }
  | some ack => if ack.removed then s.removeItem status else s.putItem status true

/-- There is a row of this status that is as new. -/
def keeps (item : AttentionItem) : Bool :=
  match get s.log item.key with
  | some existing =>
    existing.item.status = item.status && compareAt times item.at existing.item.at ≠ .gt
  | none => false

def onAgent (item : AttentionItem) : State :=
  if s.keeps times item then s
  else
    match ackFor times s.acks item.paneId item.status item.at with
    | none => s.putItem item false
    | some ack => if ack.removed then s else s.putItem item true

def onTreeSnapshot (items : List AttentionItem) : State :=
  items.foldl (fun s item => (s.report item).onAgent times item) s

/-- What follows the loading of the acknowledgements. -/
def onMessage (message : Message) : State :=
  match message with
  | .agentStatus status => (s.report status).onLiveAgentStatus times status
  | .treeSnapshot _ _ => s.onTreeSnapshot times message.reports

/-- The start of the next message: acknowledgements of another computer are read anew. -/
def begin : Option State :=
  match s.loading, s.queue with
  | .idle, message :: rest =>
    if !message.taken then some { s with queue := rest }
    else if s.acksHostId = some message.hostId then some { s with loading := .ready }
    else
      some { s with
        acks := fun _ => none
        acksHostId := some message.hostId
        loading := .reading }
  | _, _ => none

def enqueue (save : Save) : State := { s with saves := s.saves ++ [save] }

/-- A row that is read already returns `Ok` at once. -/
def markSeen (paneId : Text) : State :=
  match get s.log (key s.currentHostId paneId) with
  | none => s
  | some entry =>
    if entry.seen then { s with acknowledged := entry.item :: s.acknowledged }
    else (s.putItem entry.item true).enqueue ⟨entry.item, false, none⟩

def remove (paneId : Text) : State :=
  match get s.log (key s.currentHostId paneId) with
  | none => s
  | some entry => s.enqueue ⟨entry.item, true, some entry.object⟩

/-- The rows of the connected computer that a call for all of them is about. -/
def own (removed : Bool) : List NotificationItem :=
  (s.log.map Prod.snd).filter fun entry =>
    entry.item.hostId = s.currentHostId && (removed || !entry.seen)

def transitionAll (removed : Bool) : State :=
  (s.own removed).foldl
    (fun s entry => s.enqueue ⟨entry.item, removed, some entry.object⟩) s

/-- The transition is skipped where the row is another object. -/
def applyTransition (save : Save) : State :=
  match get s.log save.item.key with
  | none => s
  | some entry =>
    if save.object = some entry.object then
      if save.removed then s.removeItem save.item else s.putItem save.item true
    else s

def written (save : Save) : State :=
  { s with store := savedAck s.store (save.item.ack save.removed) }

def remembered (save : Save) : State :=
  if s.acksHostId = some save.item.hostId then
    { s with acks := fill s.acks [save.item.ack save.removed] }
  else s

/-- What follows a successful save. A call for all rows returns `Ok` once each of its rows has. -/
def acknowledge (save : Save) : State :=
  { ((s.written save).remembered save).applyTransition save with
    acknowledged := save.item :: s.acknowledged
    removed := if save.removed then save.item :: s.removed else s.removed }

/-- The service starts again on the same store. -/
def restarted : State :=
  { currentHostId := []
    objects := s.objects
    store := s.store
    acknowledged := s.acknowledged
    removed := s.removed
    posted := s.posted
    reported := s.reported }

end State

inductive Event where
  | arrive (message : Message)
  | begin
  | read
  | loaded (ok : Bool)
  | apply
  | markSeen (paneId : Text)
  | markAllSeen
  | remove (paneId : Text)
  | removeAll
  | saved (ok : Bool)
  | switchTo (hostId : Text)
  | relaunch (written : Bool)
deriving DecidableEq

/-- A snapshot is of the connected computer; at a relaunch the first save may have been written. -/
def step (times : Times) (s : State) : Event → Option State
  | .arrive (.agentStatus status) => some { s with queue := s.queue ++ [.agentStatus status] }
  | .arrive (.treeSnapshot hostId agents) =>
    if hostId = s.currentHostId then
      some { s with queue := s.queue ++ [.treeSnapshot hostId agents] }
    else none
  | .begin => s.begin
  | .read =>
    match s.loading, s.acksHostId with
    | .reading, some hostId =>
      some { s with loading := .captured (s.store.filter (·.hostId = hostId)) }
    | _, _ => none
  | .loaded ok =>
    match s.loading with
    | .captured list =>
      some { s with acks := if ok then fill s.acks list else s.acks, loading := .ready }
    | _ => none
  | .apply =>
    match s.loading, s.queue with
    | .ready, message :: rest =>
      some (({ s with queue := rest, loading := .idle } : State).onMessage times message)
    | _, _ => none
  | .markSeen paneId => some (s.markSeen paneId)
  | .markAllSeen => some (s.transitionAll false)
  | .remove paneId => some (s.remove paneId)
  | .removeAll => some (s.transitionAll true)
  | .saved ok =>
    match s.saves with
    | save :: rest =>
      let s : State := { s with saves := rest }
      some (if ok then s.acknowledge save else s)
    | [] => none
  | .switchTo hostId => some { s with currentHostId := hostId }
  | .relaunch written =>
    match s.saves, written with
    | save :: _, true => some (s.written save).restarted
    | _, _ => some s.restarted

end HerdrMobile.App.AgentStatus
