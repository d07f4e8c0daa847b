import HerdrMobile.Host.Watch

/-!
# A Device session

The bridge thread of one session as a state machine. Requests are numbered as
they are served, and a submit that is held keeps the number of its request, so
that every reply and every send can be told which request it belongs to. The
trace records what leaves the thread, oldest first.
-/
namespace HerdrMobile.Host.Session

open HerdrMobile.Proto.Messages
open HerdrMobile.Host.Herdr HerdrMobile.Host.Input HerdrMobile.Host.Held HerdrMobile.Host.Watch

set_option autoImplicit false

variable {Hash : Type}

/-- A request and the correlation id it came with. -/
structure Ticket where
  number : Nat
  corr : Option Text
  deriving DecidableEq

inductive Action where
  | sent (ticket : Option Ticket) (send : Send) (ok : Bool)
  | reply (ack : SendInputAck) (ticket : Option Ticket)
  | watched (ack : WatchAck) (frame : PaneFrame)
  | put (frame : PaneFrame)
  deriving DecidableEq

structure Thread (Hash : Type) where
  bridge : Bridge Hash Ticket
  shared : Shared
  slot : Option PaneFrame
  requests : List (SendInput × Option Text)
  trace : List Action

/-- What reaches the thread. `drain` is the end of a request or of a window of the
subscription, where the replies and the slot are emptied; `cancelPending` comes
before an orderly end of the session and `inactive` is its end by whatever cause;
`others` is whatever another session does to the lines and with Herdr. -/
inductive Event where
  | input (now : Nat) (request : SendInput) (corr : Option Text)
  | watchPane (now : Nat) (paneId : PaneId)
  | unwatchPane (paneId : PaneId)
  | push (now : Nat) (push : Push)
  | poll (now : Nat)
  | drain
  | cancelPending
  | inactive
  | others (inputLines : PaneId → Text) (calls : Log)

def Thread.start (config : RelayConfig) : Thread Hash where
  bridge := ⟨config, none, none, none, some true, []⟩
  shared := .start
  slot := none
  requests := []
  trace := []

def sentCall : Entry → Option (Send × Bool)
  | .sent send ok => some (send, ok)
  | _ => none

/-- The sends among the calls that a log has gained. -/
def newSends (before after : Log) : List (Send × Bool) :=
  (after.drop before.length).filterMap sentCall

def sentFor (ticket : Option Ticket) (before after : Log) : List Action :=
  (newSends before after).map fun (send, ok) => .sent ticket send ok

def replies (replies : List (Reply Ticket)) : List Action :=
  replies.map fun (ack, ticket) => .reply ack ticket

section Step

variable [DecidableEq Hash] (joins : Graphemes) (herdr : HerdrCalls) (frameHash : FrameHash Hash)

def step (s : Thread Hash) : Event → Thread Hash
  | .input now request corr =>
    let ticket : Ticket := ⟨s.requests.length, corr⟩
    let (out, bridge, shared) :=
      serveInput joins herdr now request (some ticket) s.bridge s.shared
    { s with
      bridge := bridge
      shared := shared
      requests := s.requests ++ [(request, corr)]
      trace := s.trace ++ sentFor (some ticket) s.shared.log shared.log ++ replies out }
  | .watchPane now paneId =>
    let (result, bridge, shared) := Watch.watchPane herdr frameHash now paneId s.bridge s.shared
    let out := match result with
      | .ok (ack, frame) => [.watched ack frame]
      | .error _ => []
    { s with bridge := bridge, shared := shared, trace := s.trace ++ out }
  | .unwatchPane paneId => { s with bridge := Watch.unwatchPane paneId s.bridge }
  | .push now push =>
    let ticket := s.bridge.pendingInput.bind PendingInput.corr
    let (bridge, shared) := handleSubscriptionLine joins herdr now push s.bridge s.shared
    { s with
      bridge := bridge
      shared := shared
      trace := s.trace ++ sentFor ticket s.shared.log shared.log }
  | .poll now =>
    let (frame, bridge, shared) := pollScheduler herdr frameHash now s.bridge s.shared
    { s with
      bridge := bridge
      shared := shared
      slot := frame.or s.slot
      trace := s.trace ++ frame.toList.map .put }
  | .drain =>
    let (out, bridge) := takeInputReplies s.bridge
    { s with bridge := bridge, slot := none, trace := s.trace ++ replies out }
  | .cancelPending => { s with bridge := s.bridge.cancelPendingInputs }
  | .inactive => { s with bridge := { s.bridge with sessionActive := some false } }
  | .others inputLines calls => { s with shared := ⟨inputLines, s.shared.log ++ calls⟩ }

def runFrom (s : Thread Hash) (es : List Event) : Thread Hash :=
  es.foldl (step joins herdr frameHash) s

def run (config : RelayConfig) (es : List Event) : Thread Hash :=
  runFrom joins herdr frameHash (.start config) es

end Step

end HerdrMobile.Host.Session
