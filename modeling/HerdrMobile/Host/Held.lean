import HerdrMobile.Host.Input

/-!
# Held submits

Session-owned submit requests that wait for an agent to stop work, and the
arms of the bridge thread that serve terminal input.
-/
namespace HerdrMobile.Host.Held

open HerdrMobile.Proto.Messages
open HerdrMobile.Host.Keys HerdrMobile.Host.Herdr HerdrMobile.Host.Input

set_option autoImplicit false

variable {Hash Corr : Type} (joins : Graphemes) (herdr : HerdrCalls)

def working (snapshot : RawSnapshot) (paneId : PaneId) : Bool :=
  snapshot.agents.any fun agent => agent.paneId == paneId && agent.agentStatus == "working".toList

def deferCancel (request : SendInput) (b : Bridge Hash Corr) (m : Shared) :
    Except WatchError SendInputAck × Bridge Hash Corr × Shared :=
  if request.line.isSome ∨ request.text.isSome ∨ request.keys.isSome then
    (.error (.invalidInput "cancel cannot include line, text, or keys"), b, m)
  else
    let b := if b.pendingInput.any (·.paneId == request.paneId) then b.cancelPendingInputs else b
    (.ok ⟨request.paneId, true, false⟩, b, m)

/-- `request` no longer carries its `defer`. -/
def deferUntilIdle (now : Nat) (request : SendInput) (corr : Option Corr) (b : Bridge Hash Corr)
    (m : Shared) : Except WatchError SendInputAck × Bridge Hash Corr × Shared :=
  match b.requireWatched request.paneId with
  | .error e => (.error e, b, m)
  | .ok () =>
    if request.line.isSome ∨ request.text.isSome ∨
        !(request.keys.getD []).any fun key => eqIgnoreAsciiCase key "Enter".toList then
      (.error (.invalidInput "until_idle requires keys containing Enter and no line or text"), b, m)
    else
      match validateSendInput request with
      | .error e => (.error e, b, m)
      | .ok () =>
        match herdr.fetchSnapshot m.log with
        | (.error _, log) => (.ok ⟨request.paneId, false, false⟩, b, { m with log := log })
        | (.ok snapshot, log) =>
          let m := { m with log := log }
          let b := b.cancelPendingInputs
          if working snapshot request.paneId then
            let held : PendingInput Corr := ⟨request.paneId, request.keys.getD [], corr⟩
            (.ok ⟨request.paneId, true, true⟩, { b with pendingInput := some held }, m)
          else sendInput joins herdr now request b m

def deferred (now : Nat) (request : SendInput) (corr : Option Corr) (b : Bridge Hash Corr)
    (m : Shared) : Except WatchError SendInputAck × Bridge Hash Corr × Shared :=
  if request.bypassLine = some true then sendInput joins herdr now request b m
  else
    match request.defer with
    | some .cancel => deferCancel { request with defer := none } b m
    | some .untilIdle => deferUntilIdle joins herdr now { request with defer := none } corr b m
    | none => sendInput joins herdr now request b m

def orRefused (paneId : PaneId) : Except WatchError SendInputAck → SendInputAck
  | .ok ack => ack
  | .error _ => ⟨paneId, false, false⟩

def pushReply (b : Bridge Hash Corr) (reply : Reply Corr) : Bridge Hash Corr :=
  { b with inputReplies := b.inputReplies ++ [reply] }

def takeInputReplies (b : Bridge Hash Corr) : List (Reply Corr) × Bridge Hash Corr :=
  (b.inputReplies, { b with inputReplies := [] })

def handleDeferredInput (now : Nat) (request : SendInput) (corr : Option Corr)
    (b : Bridge Hash Corr) (m : Shared) : List (Reply Corr) × Bridge Hash Corr × Shared :=
  let (result, b, m) := deferred joins herdr now request corr b m
  let (replies, b) := takeInputReplies (pushReply b (orRefused request.paneId result, corr))
  (replies, b, m)

/-- The arm of the bridge thread for a `send_input` that is served alone. -/
def serveInput (now : Nat) (request : SendInput) (corr : Option Corr) (b : Bridge Hash Corr)
    (m : Shared) : List (Reply Corr) × Bridge Hash Corr × Shared :=
  if request.defer.isSome then handleDeferredInput joins herdr now request corr b m
  else
    let (result, b, m) := sendInput joins herdr now request b m
    let (rest, b) := takeInputReplies b
    ((orRefused request.paneId result, corr) :: rest, b, m)

def releasePendingInput (now : Nat) (paneId : PaneId) (b : Bridge Hash Corr) (m : Shared) :
    Bridge Hash Corr × Shared :=
  if b.sessionActive = some false then (b.cancelPendingInputs, m)
  else
    match b.pendingInput with
    | none => (b, m)
    | some pending =>
      if pending.paneId = paneId then
        let request : SendInput := { paneId := pending.paneId, keys := some pending.keys }
        let (result, b, m) := sendInput joins herdr now request { b with pendingInput := none } m
        (pushReply b (orRefused pending.paneId result, pending.corr), m)
      else (b, m)

end HerdrMobile.Host.Held
