import HerdrMobile.Lib.Run
import HerdrMobile.Host.Incoming

/-!
# The subscription of a session

The bridge thread with its one events subscription, at the grain at which Herdr can
change in between: opening a connection takes a snapshot for its entries, reaches Herdr
with `events.subscribe` and waits for the acknowledgement, and only then does the new
connection take the place of the old one. A push goes to every connection that Herdr has
open at that moment.
-/
namespace HerdrMobile.Host.Subscription

open HerdrMobile.Proto.Messages HerdrMobile.Proto.Tree HerdrMobile.App.Tree
open HerdrMobile.Host.Herdr HerdrMobile.Host.Input HerdrMobile.Host.Held HerdrMobile.Host.Watch
open HerdrMobile.Host.Session HerdrMobile.Host.Incoming

set_option autoImplicit false

variable {Hash : Type}

/-- What a reader thread puts on its channel: a push with its number, a line that is not
an event, one that is no JSON, a read error, and the end of the stream. -/
inductive Item where
  | push (number : Nat) (push : Incoming.Push)
  | other
  | malformed
  | failed
  | ended
  deriving DecidableEq

/-- A connection: the panes whose agent statuses it was opened for, and the items that
have not been read yet. -/
structure Connection where
  entries : PaneId → Bool
  items : List Item

def Connection.put (item : Item) (c : Connection) : Connection := { c with items := c.items ++ [item] }

/-- Why a connection is opened: the session starts, a `watch_pane` finds none, or a pane
has been created. -/
inductive Cause where
  | start
  | watch
  | created
  deriving DecidableEq

/-- Where the thread is: it opens a connection, serves requests, or runs a window of the
subscription. -/
inductive Phase where
  | toOpen (cause : Cause)
  | opening (cause : Cause) (entries : PaneId → Bool)
  | subscribed (cause : Cause) (connection : Connection)
  | serving
  | window

/-- `lostAt` is when the subscription was lost, or since then a try of the thread's own to
open one failed, and `waits` how long it waited before each such try. `pushed` has every
push that a connection was open for, `sent` the numbers of those whose status went to the
Device with what was sent, and `suppressed` the numbers of those within the settle window. -/
structure Thread (Hash : Type) where
  now : Nat
  world : World
  session : Session.Thread Hash
  settled : PaneId → Option Nat
  subscription : Option Connection
  phase : Phase
  resubscribe : Bool
  outgoing : List Message
  lostAt : Option Nat
  waits : List Nat
  pushed : List Incoming.Push
  sent : List (Nat × AgentStatus)
  suppressed : List Nat

def Thread.start (config : RelayConfig) (w : World) : Thread Hash where
  now := 0
  world := w
  session := .start config
  settled := fun _ => none
  subscription := none
  phase := .toOpen .start
  resubscribe := false
  outgoing := []
  lostAt := none
  waits := []
  pushed := []
  sent := []
  suppressed := []

/-- What changes at Herdr with a push. An agent goes with its pane. -/
def announce (w : World) (push : Incoming.Push) : World :=
  let tree := applyTreeUpdate w.tree push.update
  let agents : List RawAgent :=
    match push.event, paneIdOf push, push.agentStatus with
    | .paneAgentStatusChanged, some paneId, some status =>
      w.agents.filter (·.paneId ≠ paneId) ++ [⟨paneId, status⟩]
    | _, _, _ => w.agents
  { tree := tree
    agents := agents.filter fun agent =>
      (w.tree.panes agent.paneId).isNone || (tree.panes agent.paneId).isSome }

/-- A push carries the object that changed, and only `pane_created` brings a pane into
being. -/
def announceable (w : World) (push : Incoming.Push) : Bool :=
  match push.event with
  | .workspaceCreated | .workspaceUpdated | .workspaceRenamed | .workspaceClosed =>
    push.workspace.isSome
  | .tabCreated | .tabClosed | .tabRenamed | .tabFocused => push.tab.isSome
  | .paneCreated | .paneClosed => push.pane.isSome
  | .paneUpdated | .paneFocused => push.pane.any fun pane => (w.tree.panes pane.paneId).isSome
  | .paneAgentStatusChanged =>
    (push.pane.any fun pane => (w.tree.panes pane.paneId).isSome) && push.agentStatus.isSome
  | .layoutUpdated => true

/-- The calls, with the agents that Herdr has now. -/
def herdrNow (herdr : HerdrCalls) (w : World) : HerdrCalls :=
  { herdr with
    sessionSnapshot := fun log =>
      (herdr.sessionSnapshot log).map fun raw => { raw with agents := w.agents } }

inductive Request where
  | tree
  | watchPane (paneId : PaneId)
  | unwatchPane (paneId : PaneId)
  | input (request : SendInput) (corr : Option Text)
  | cancelPending

/-- `change` is Herdr's; `arrive` puts anything but a push on the channel of the
subscription, or of the connection that is being opened; `outside` is whatever else
reaches the session. The rest are the steps of the thread. -/
inductive Event where
  | advance (time : Nat)
  | change (push : Incoming.Push)
  | arrive (fresh : Bool) (item : Item)
  | outside (e : Session.Event)
  | open
  | subscribe (ok : Bool)
  | acknowledge (ok : Bool)
  | request (request : Request)
  | beginWindow
  | receive
  | poll
  | endWindow

namespace Thread

/-- The connections that Herdr pushes to. -/
def connected (s : Thread Hash) : Bool :=
  match s.phase with
  | .subscribed _ _ => true
  | _ => s.subscription.isSome

def putFresh (item : Item) : Phase → Phase
  | .subscribed cause connection => .subscribed cause (connection.put item)
  | phase => phase

def change (s : Thread Hash) (push : Incoming.Push) : Thread Hash :=
  { s with
    world := announce s.world push
    pushed := if s.connected then s.pushed ++ [push] else s.pushed
    subscription := s.subscription.map (Connection.put (.push s.pushed.length push))
    phase := putFresh (.push s.pushed.length push) s.phase }

def arrive (s : Thread Hash) (fresh : Bool) (item : Item) : Thread Hash :=
  if fresh then { s with phase := putFresh item s.phase }
  else { s with subscription := s.subscription.map (Connection.put item) }

/-- A try for a `watch_pane` is not one of the thread's own. -/
def openFailed (s : Thread Hash) (cause : Cause) : Thread Hash :=
  { s with
    subscription := none
    phase := .serving
    lostAt := if cause = .watch then s.lostAt.or (some s.now) else some s.now
    outgoing := if cause = .watch then s.outgoing ++ [.error] else s.outgoing }

def opened (s : Thread Hash) (connection : Connection) : Thread Hash :=
  { s with
    subscription := some connection
    phase := .serving
    lostAt := none
    waits := [] }

section Step

variable [DecidableEq Hash] (joins : Graphemes) (herdr : HerdrCalls) (frameHash : FrameHash Hash)

def act (s : Thread Hash) (e : Session.Event) : Session.Thread Hash :=
  Session.step joins (herdrNow herdr s.world) frameHash s.session e

/-- The replies to inputs go out, and so does a frame in the slot. -/
def drain (session : Session.Thread Hash) : Session.Thread Hash :=
  Session.step joins herdr frameHash session .drain

def logged (session : Session.Thread Hash) (log : Log) : Session.Thread Hash :=
  { session with shared := { session.shared with log := log } }

def beginOpen (s : Thread Hash) (cause : Cause) : Thread Hash :=
  let (entries, log) := currentSubscriptionEntries herdr s.world s.session.shared.log
  { s with
    session := logged s.session log
    phase := .opening cause entries
    waits := if cause = .watch then s.waits else s.waits ++ (s.lostAt.map (s.now - ·)).toList }

def serve (s : Thread Hash) : Request → Thread Hash
  | .tree =>
    let (tree, log) := fetchTree herdr s.world s.session.shared.log
    { s with
      session := logged s.session log
      outgoing := s.outgoing ++ [(tree.map Message.treeSnapshot).getD .error] }
  | .watchPane paneId =>
    let watched := (watchPane (herdrNow herdr s.world) frameHash s.now paneId s.session.bridge
      s.session.shared).1.isOk
    { s with
      session := drain joins herdr frameHash (s.act joins herdr frameHash (.watchPane s.now paneId))
      phase := if watched ∧ s.subscription.isNone then .toOpen .watch else s.phase }
  | .unwatchPane paneId =>
    { s with
      session := drain joins herdr frameHash (s.act joins herdr frameHash (.unwatchPane paneId)) }
  | .input request corr =>
    { s with
      session := drain joins herdr frameHash
        (s.act joins herdr frameHash (.input s.now request corr)) }
  | .cancelPending =>
    { s with session := drain joins herdr frameHash (s.act joins herdr frameHash .cancelPending) }

/-- The items that are left. -/
def popped (s : Thread Hash) (rest : List Item) : Thread Hash :=
  { s with subscription := s.subscription.map fun c => { c with items := rest } }

/-- What a push does to the watched pane and to a held submit. -/
def told (s : Thread Hash) (push : Incoming.Push) : Session.Thread Hash :=
  match push.forBridge with
  | some p => s.act joins herdr frameHash (.push s.now p)
  | none => s.session

/-- What `handle_subscription_line` does with a push, with the rest of the items. -/
def heard (s : Thread Hash) (rest : List Item) (number : Nat) (push : Incoming.Push) : Thread Hash :=
  let session := s.told joins herdr frameHash push
  let (notice, settled, log) := notify herdr s.world s.now push s.settled session.shared.log
  let (tree, log) := follow herdr s.world push log
  { s with
    session := logged session log
    settled := settled
    subscription := s.subscription.map fun c => { c with items := rest }
    resubscribe := s.resubscribe || actionOf push = .resubscribe
    outgoing := s.outgoing ++ messagesOf push notice tree
    sent := s.sent ++ (notice.map fun notice => (number, notice)).toList
    suppressed :=
      if (notable push).any fun (paneId, _) => !(settleAgentStatus paneId s.now s.settled).1 then
        s.suppressed ++ [number]
      else s.suppressed }

/-- The window ends with an error: the subscription is given up. -/
def giveUp (s : Thread Hash) : Thread Hash :=
  { s with
    session := drain joins herdr frameHash s.session
    subscription := none
    phase := .serving
    resubscribe := false
    lostAt := some s.now }

def step (s : Thread Hash) : Event → Option (Thread Hash)
  | .advance time => some { s with now := s.now + time }
  | .change push => if announceable s.world push then some (s.change push) else none
  | .arrive fresh item =>
    match item with
    | .push _ _ => none
    | item => some (s.arrive fresh item)
  | .outside e =>
    match e with
    | .inactive | .others _ _ => some { s with session := s.act joins herdr frameHash e }
    | _ => none
  | .open =>
    match s.phase with
    | .toOpen cause => some (s.beginOpen herdr cause)
    | _ => none
  | .subscribe ok =>
    match s.phase with
    | .opening cause entries =>
      some (if ok then { s with phase := .subscribed cause ⟨entries, []⟩ } else s.openFailed cause)
    | _ => none
  | .acknowledge ok =>
    match s.phase with
    | .subscribed cause connection =>
      some (if ok then s.opened connection else s.openFailed cause)
    | _ => none
  | .request request =>
    match s.phase with
    | .serving => some (s.serve joins herdr frameHash request)
    | _ => none
  | .beginWindow =>
    match s.phase, s.subscription with
    | .serving, some _ => some { s with phase := .window }
    | _, _ => none
  | .receive =>
    match s.phase, s.subscription.map Connection.items with
    | .window, some (.push number push :: rest) =>
      some (s.heard joins herdr frameHash rest number push)
    | .window, some (.other :: rest) =>
      some (s.popped rest)
    | .window, some (_ :: _) => some (s.giveUp joins herdr frameHash)
    | _, _ => none
  | .poll =>
    match s.phase with
    | .window => some { s with session := s.act joins herdr frameHash (.poll s.now) }
    | _ => none
  | .endWindow =>
    match s.phase with
    | .window =>
      some { s with
        session := drain joins herdr frameHash s.session
        phase := if s.resubscribe then .toOpen .created else .serving
        resubscribe := false }
    | _ => none

end Step

end Thread

end HerdrMobile.Host.Subscription
