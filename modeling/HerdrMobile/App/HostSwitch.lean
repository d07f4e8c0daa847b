import HerdrMobile.App.Attempts
import HerdrMobile.App.InputAgreement
import HerdrMobile.App.PlainStore
import HerdrMobile.App.Secrets

/-!
# The switch to another computer

`switchToHost`, from one `await` to the next. Between its steps the connection goes on by itself,
and the terminal watches and unwatches panes. The run of a switch is over with its outcome. What
the frame `device_info` says is left out.
-/
namespace HerdrMobile.App.HostSwitch

open HerdrMobile.Lib.Run HerdrMobile.Lib.Strings HerdrMobile.App.Connection
open HerdrMobile.App.PairingText (Dart RelayOrigin parseRelayOrigin)
open HerdrMobile.App.DartUri (Components)
open HerdrMobile.App.OriginText (withUri WritesOverlong plainParts parse_of_overlong parse_error)
open HerdrMobile.App.PlainStore (PairedHostRecord)
open HerdrMobile.App.Secrets (HostSecrets)
open HerdrMobile.App.Attempts (Honest Onward onward_step)

set_option autoImplicit false

inductive SwitchFailureReason where
  | offline
  | hostInUse
  | unknownHost
  | rejected
  | other
deriving DecidableEq

inductive SwitchOutcome where
  | succeeded (hostId hostName : Text)
  | failed (hostId : Text) (reason : SwitchFailureReason) (detail : Text)
deriving DecidableEq

/-- How an awaited call ends: with an `Ok`, with an `Err`, or with a throw. -/
inductive Answer (α : Type) where
  | ok (value : α)
  | err (message : Text)
  | thrown
deriving DecidableEq

/-- What the switch looks at when `connect` has returned: the name in `lastHostInfo`, whether the
handshake has failed, and the text of the cause. -/
structure Report where
  lastHostInfo : Option Text
  handshakeFailed : Bool
  text : Text
deriving DecidableEq

def classifyFailure (handshakeFailed : Bool) : Cause → SwitchFailureReason
  | .registration .hostInUse => .hostInUse
  | .registration _ => .unknownHost
  | .connect => if handshakeFailed then .rejected else .other
  | .locked | .notConnected => .other

/-- What the switch shares with the rest of the app. -/
structure Shared where
  connection : RelayConnection
  watchedPaneId : Option Text

/-- What the switch waits for. `id` is the attempt of its own `connect`. -/
inductive Phase where
  | idle
  | readingSecrets
  | buildingDeviceInfo (origin : RelayOrigin) (secrets : HostSecrets Text)
  | unlocking (origin : RelayOrigin) (secrets : HostSecrets Text)
  | disconnecting (origin : RelayOrigin) (secrets : HostSecrets Text)
  | connecting (id : Nat)
  | storingName (id : Nat) (hostName : Text)
  | completed (attempt : Option Nat) (outcome : SwitchOutcome)
  | threw
deriving DecidableEq

namespace Phase

def attempt : Phase → Option Nat
  | .connecting id | .storingName id _ => some id
  | .completed attempt _ => attempt
  | .idle | .readingSecrets | .buildingDeviceInfo _ _ | .unlocking _ _ | .disconnecting _ _
  | .threw => none

/-- The switch has got as far as disconnecting. -/
def left : Phase → Bool
  | .disconnecting _ _ | .connecting _ | .storingName _ _ => true
  | .completed attempt _ => attempt.isSome
  | .idle | .readingSecrets | .buildingDeviceInfo _ _ | .unlocking _ _ | .threw => false

def «over» : Phase → Bool
  | .completed _ _ | .threw => true
  | _ => false

/-- The steps that the switch has taken by now, at most. -/
def rank : Phase → Nat
  | .idle => 0
  | .readingSecrets => 1
  | .buildingDeviceInfo _ _ => 2
  | .unlocking _ _ => 3
  | .disconnecting _ _ => 4
  | .connecting _ => 5
  | .storingName _ _ => 6
  | .completed _ _ | .threw => 7

end Phase

structure World where
  shared : Shared
  phase : Phase

def Shared.start (appLockEnabled : Bool) : Shared := ⟨.start appLockEnabled, none⟩

def World.start (appLockEnabled : Bool) : World := ⟨.start appLockEnabled, .idle⟩

/-- `send` throws where this is false. -/
def canSend (s : RelayConnection) : Bool := s.isConnected && !s.gateLocked

/-- Up to the `send`, which may throw. -/
def Shared.watchPane (paneId : Text) (s : Shared) : Shared :=
  { s with watchedPaneId := some paneId }

def Shared.unwatchPane (paneId : Text) (s : Shared) : Shared :=
  if s.watchedPaneId = some paneId then { s with watchedPaneId := none } else s

/-- What goes on beside the switch. -/
inductive Outside where
  | relay (e : RelayConnection.Event)
  | watchPane (paneId : Text)
  | unwatchPane (paneId : Text)

def Shared.step (s : Shared) : Outside → Option Shared
  | .relay e => (s.connection.step e).map fun connection => { s with connection }
  | .watchPane paneId => some (s.watchPane paneId)
  | .unwatchPane paneId => some (s.unwatchPane paneId)

/-- The `connect` of a switch has no cancellation. -/
def Outside.cancels : Outside → Option Nat
  | .relay (.cancel id) => some id
  | _ => none

/-- The key as the connection has it. -/
def keyText (key : List UInt8) : Text := key.map fun byte => Char.ofNat byte.toNat

def addressOf (origin : RelayOrigin) (secrets : HostSecrets Text) : Address :=
  ⟨origin.canonical, secrets.routingHandle⟩

def modeOf (secrets : HostSecrets Text) : Mode :=
  .reconnect (keyText secrets.hostStaticPublicKey)

inductive Event where
  | called (hasNetwork : Bool)
  | secretsRead (answer : Answer (Option (HostSecrets Text)))
  | deviceInfoBuilt (answer : Answer Unit)
  | unlocked (answer : Answer Unit)
  | disconnected
  | connected (report : Report)
  | nameStored (answer : Answer Unit)
  | outside (e : Outside)

section Steps

variable {Time : Type} (dart : Dart) (parts : Components) (target : PairedHostRecord Time)

namespace World

variable (w : World)

def goto (phase : Phase) : World := { w with phase }

/-- A failure that is returned before the switch disconnects. -/
def refuse (reason : SwitchFailureReason) (detail : Text) : World :=
  w.goto (.completed none (.failed target.hostId reason detail))

def called (hasNetwork : Bool) : World :=
  if hasNetwork then w.goto .readingSecrets
  else w.refuse target .offline "This phone has no network.".toList

def secretsRead : Answer (Option (HostSecrets Text)) → World
  | .thrown => w.goto .threw
  | .err _ | .ok none =>
    w.refuse target .unknownHost "This phone has no stored key for that computer.".toList
  | .ok (some secrets) =>
    match secrets.relayOrigin with
    | none =>
      w.refuse target .other ("No relay address is stored for ".toList ++ target.hostName ++ ['.'])
    | some originUri =>
      match parseRelayOrigin (withUri dart parts) originUri with
      | .error .formatException => w.goto .threw
      | .error _ =>
        w.refuse target .other ("parse relay origin \"".toList ++ originUri ++ ['"'])
      | .ok origin => w.goto (.buildingDeviceInfo origin secrets)

def deviceInfoBuilt (origin : RelayOrigin) (secrets : HostSecrets Text) : Answer Unit → World
  | .thrown => w.goto .threw
  | .err message => w.refuse target .other message
  | .ok () => w.goto (.unlocking origin secrets)

/-- The watched pane is forgotten before `send` may throw. -/
def leave (origin : RelayOrigin) (secrets : HostSecrets Text) : World :=
  match w.shared.watchedPaneId with
  | some paneId =>
    let s := w.shared.unwatchPane paneId
    if canSend s.connection then
      ⟨{ s with connection := s.connection.disconnect }, .disconnecting origin secrets⟩
    else ⟨s, .threw⟩
  | none =>
    ⟨{ w.shared with connection := w.shared.connection.disconnect },
      .disconnecting origin secrets⟩

def unlocked (origin : RelayOrigin) (secrets : HostSecrets Text) : Answer Unit → World
  | .thrown => w.goto .threw
  | .err message => w.refuse target .other message
  | .ok () => w.leave origin secrets

def disconnected (origin : RelayOrigin) (secrets : HostSecrets Text) : Option World :=
  let s := w.shared.connection
  (s.step (.connect (addressOf origin secrets) (modeOf secrets))).map fun connection =>
    ⟨{ w.shared with connection }, .connecting s.made⟩

/-- The stored name is written again where the computer has another one. -/
def connected (id : Nat) (report : Report) : Result → World
  | .ok =>
    let hostName := report.lastHostInfo.getD target.hostName
    if hostName ≠ target.hostName then w.goto (.storingName id hostName)
    else w.goto (.completed (some id) (.succeeded target.hostId hostName))
  | .err cause =>
    w.goto (.completed (some id)
      (.failed target.hostId (classifyFailure report.handshakeFailed cause) report.text))
  | .cancelled | .thrown => w.goto .threw

def nameStored (id : Nat) (hostName : Text) : Answer Unit → World
  | .thrown => w.goto .threw
  | .err _ | .ok () => w.goto (.completed (some id) (.succeeded target.hostId hostName))

end World

def step (w : World) : Event → Option World
  | .called hasNetwork =>
    match w.phase with
    | .idle => some (w.called target hasNetwork)
    | _ => none
  | .secretsRead answer =>
    match w.phase with
    | .readingSecrets => some (w.secretsRead dart parts target answer)
    | _ => none
  | .deviceInfoBuilt answer =>
    match w.phase with
    | .buildingDeviceInfo origin secrets => some (w.deviceInfoBuilt target origin secrets answer)
    | _ => none
  | .unlocked answer =>
    match w.phase with
    | .unlocking origin secrets => some (w.unlocked target origin secrets answer)
    | _ => none
  | .disconnected =>
    match w.phase with
    | .disconnecting origin secrets => w.disconnected origin secrets
    | _ => none
  | .connected report =>
    match w.phase with
    | .connecting id =>
      match (w.shared.connection.attempt id).phase with
      | .over result => some (w.connected target id report result)
      | _ => none
    | _ => none
  | .nameStored answer =>
    match w.phase with
    | .storingName id hostName => some (w.nameStored target id hostName answer)
    | _ => none
  | .outside e =>
    if w.phase.over || (e.cancels.isSome && e.cancels = w.phase.attempt) then none
    else (w.shared.step e).map fun shared => { w with shared }

/-- The answers to what the switch waits for. -/
def Awaits (w : World) : Event → Prop
  | .called _ => w.phase = .idle
  | .secretsRead _ => w.phase = .readingSecrets
  | .deviceInfoBuilt _ => ∃ origin secrets, w.phase = .buildingDeviceInfo origin secrets
  | .unlocked _ => ∃ origin secrets, w.phase = .unlocking origin secrets
  | .disconnected => ∃ origin secrets, w.phase = .disconnecting origin secrets
  | .connected _ => ∃ id result, w.phase = .connecting id ∧
      (w.shared.connection.attempt id).phase = .over result
  | .nameStored _ => ∃ id hostName, w.phase = .storingName id hostName
  | .outside _ => False

/-- The session that the switch has asked for was published. -/
def Live (w : World) : Prop :=
  ∃ id, w.phase.attempt = some id ∧ id ∈ w.shared.connection.connected

def outside : Event → Option Outside
  | .outside e => some e
  | _ => none

/-- The record that was read has an origin. -/
def Read (es : List Event) (origin : RelayOrigin) (secrets : HostSecrets Text) : Prop :=
  .secretsRead (.ok (some secrets)) ∈ es ∧
    ∃ originUri, secrets.relayOrigin = some originUri ∧ parseRelayOrigin (withUri dart parts) originUri = .ok origin

/-- The attempt is for the handle, the origin and the pinned key of the record that was read. -/
def Asked (es : List Event) (s : RelayConnection) (id : Nat) : Prop :=
  ∃ origin secrets, Read dart parts es origin secrets ∧
    (s.attempt id).address = addressOf origin secrets ∧ (s.attempt id).mode = modeOf secrets

/-- A total and clean switch after the events `es`: it has not thrown, every answer brings it on
and seven end it; no pane is watched between the two computers; a success is a session of the
computer that was asked for; and before it disconnects the others alone have made what is shared. -/
structure Law (appLockEnabled : Bool) (es : List Event) (w : World) : Prop where
  returns : w.phase ≠ .threw
  goesOn : ∀ e, Awaits w e → ∃ w', step dart parts target w e = some w'
  ends : (es.filter fun e => (outside e).isNone).length ≤ 7
  forgets : w.phase.left = true → ¬ Live w → w.shared.watchedPaneId = none
  opened : ∀ attempt hostId hostName, w.phase = .completed attempt (.succeeded hostId hostName) →
    hostId = target.hostId ∧ ∃ id, attempt = some id ∧ id ∈ w.shared.connection.connected ∧
      Asked dart parts es w.shared.connection id
  untouched : w.phase.left = false →
    run Shared.step (.start appLockEnabled) (es.filterMap outside) = some w.shared

/-- Every state of the run is lawful. -/
def Holds (appLockEnabled : Bool) (es : List Event) : Prop :=
  ∀ pre post w, es = pre ++ post → run (step dart parts target) (.start appLockEnabled) pre = some w →
    Law dart parts target appLockEnabled pre w

/-- No call throws, `send` included, and until the new session is there nobody has a pane watched
again that the switch has had unwatched. -/
def Clean (w : World) : Event → Prop
  | .called _ | .disconnected => True
  | .secretsRead answer => answer ≠ .thrown ∧ ∀ secrets originUri, answer = .ok (some secrets) →
      secrets.relayOrigin = some originUri → ¬ WritesOverlong parts originUri
  | .deviceInfoBuilt answer => answer ≠ .thrown
  | .unlocked answer => answer ≠ .thrown ∧
      (answer = .ok () → w.shared.watchedPaneId ≠ none → canSend w.shared.connection = true)
  | .connected _ => ∀ id, w.phase = .connecting id →
      (w.shared.connection.attempt id).phase ≠ .over .thrown ∧
        (w.shared.connection.attempt id).phase ≠ .over .cancelled
  | .nameStored answer => answer ≠ .thrown
  | .outside (.watchPane _) => w.phase.left = true → Live w
  | .outside (.relay _) | .outside (.unwatchPane _) => True

inductive Moved (w : World) : Event → World → Prop
  | outside {e : Outside} {s : Shared} : w.shared.step e = some s →
      Moved w (.outside e) { w with shared := s }
  | refused {e : Event} {reason : SwitchFailureReason} {detail : Text} : outside e = none →
      w.phase.left = false → w.phase.over = false → Moved w e (w.refuse target reason detail)
  | threw {e : Event} {s : Shared} : outside e = none → ¬ Clean parts w e →
      s.connection = w.shared.connection → w.phase.over = false → Moved w e ⟨s, .threw⟩
  | begun : w.phase = .idle → Moved w (.called true) (w.goto .readingSecrets)
  | read {origin : RelayOrigin} {secrets : HostSecrets Text} {originUri : Text} :
      w.phase = .readingSecrets → secrets.relayOrigin = some originUri →
      parseRelayOrigin (withUri dart parts) originUri = .ok origin →
      Moved w (.secretsRead (.ok (some secrets))) (w.goto (.buildingDeviceInfo origin secrets))
  | built {origin : RelayOrigin} {secrets : HostSecrets Text} :
      w.phase = .buildingDeviceInfo origin secrets →
      Moved w (.deviceInfoBuilt (.ok ())) (w.goto (.unlocking origin secrets))
  | left {origin : RelayOrigin} {secrets : HostSecrets Text} :
      w.phase = .unlocking origin secrets →
      Moved w (.unlocked (.ok ()))
        ⟨⟨w.shared.connection.disconnect, none⟩, .disconnecting origin secrets⟩
  | connects {origin : RelayOrigin} {secrets : HostSecrets Text} {connection : RelayConnection} :
      w.phase = .disconnecting origin secrets →
      w.shared.connection.step (.connect (addressOf origin secrets) (modeOf secrets)) =
        some connection →
      Moved w .disconnected ⟨{ w.shared with connection }, .connecting w.shared.connection.made⟩
  | storesName {id : Nat} {report : Report} {hostName : Text} : w.phase = .connecting id →
      (w.shared.connection.attempt id).phase = .over .ok →
      Moved w (.connected report) (w.goto (.storingName id hostName))
  | reached {e : Event} {id : Nat} {hostName : Text} : outside e = none →
      (w.phase = .connecting id ∧ (w.shared.connection.attempt id).phase = .over .ok ∨
        ∃ stored, w.phase = .storingName id stored) →
      Moved w e (w.goto (.completed (some id) (.succeeded target.hostId hostName)))
  | failed {id : Nat} {report : Report} {reason : SwitchFailureReason} {detail : Text} :
      w.phase = .connecting id →
      Moved w (.connected report)
        (w.goto (.completed (some id) (.failed target.hostId reason detail)))

variable {dart parts target} {w w' : World} {e : Event}

theorem overlong_of_thrown {originUri : Text}
    (h : parseRelayOrigin (withUri dart parts) originUri = .error .formatException) :
    WritesOverlong parts originUri := by
  obtain ⟨hcause, -⟩ | ⟨-, ⟨-, hlong⟩ | ⟨hcause, -⟩⟩ := parse_error h
  · cases hcause
  · exact hlong
  · cases hcause

theorem moved_secretsRead {answer : Answer (Option (HostSecrets Text))}
    (hphase : w.phase = .readingSecrets) :
    Moved dart parts target w (.secretsRead answer) (w.secretsRead dart parts target answer) := by
  have hrefused : ∀ {reason : SwitchFailureReason} {detail : Text},
      Moved dart parts target w (.secretsRead answer) (w.refuse target reason detail) :=
    .refused rfl (by rw [hphase]; rfl) (by rw [hphase]; rfl)
  unfold World.secretsRead
  split
  · exact .threw rfl (fun h => h.1 rfl) rfl (by rw [hphase]; rfl)
  · exact hrefused
  · exact hrefused
  · split
    · exact hrefused
    · rename_i originUri horigin
      split
      · rename_i hparse
        refine .threw rfl (fun h => h.2 _ originUri rfl horigin ?_) rfl (by rw [hphase]; rfl)
        exact overlong_of_thrown hparse
      · exact hrefused
      · rename_i origin hparse
        exact .read hphase horigin hparse

theorem moved_unlocked {origin : RelayOrigin} {secrets : HostSecrets Text} {answer : Answer Unit}
    (hphase : w.phase = .unlocking origin secrets) :
    Moved dart parts target w (.unlocked answer) (w.unlocked target origin secrets answer) := by
  cases answer with
  | thrown => exact .threw rfl (fun h => h.1 rfl) rfl (by rw [hphase]; rfl)
  | err message => exact .refused rfl (by rw [hphase]; rfl) (by rw [hphase]; rfl)
  | ok =>
    simp only [World.unlocked, World.leave]
    cases hwatched : w.shared.watchedPaneId with
    | none =>
      have hleft := @Moved.left Time dart parts target w origin secrets hphase
      exact hleft
    | some paneId =>
      have hforgot : w.shared.unwatchPane paneId = ⟨w.shared.connection, none⟩ := if_pos hwatched
      simp only [hforgot]
      split
      · exact .left hphase
      · rename_i hsend
        refine .threw rfl (fun h => hsend (h.2 rfl ?_)) rfl (by rw [hphase]; rfl)
        rw [hwatched]
        nofun

theorem moved_connected {id : Nat} {report : Report} {result : Result}
    (hphase : w.phase = .connecting id)
    (hresult : (w.shared.connection.attempt id).phase = .over result) :
    Moved dart parts target w (.connected report) (w.connected target id report result) := by
  have hover : w.phase.over = false := by
    rw [hphase]
    rfl
  cases result with
  | ok =>
    simp only [World.connected]
    split
    · exact .storesName hphase hresult
    · exact .reached rfl (.inl ⟨hphase, hresult⟩)
  | err cause => exact .failed hphase
  | cancelled => exact .threw rfl (fun h => (h id hphase).2 hresult) rfl hover
  | thrown => exact .threw rfl (fun h => (h id hphase).1 hresult) rfl hover

theorem moved_of_step (hs : step dart parts target w e = some w') : Moved dart parts target w e w' := by
  cases e with
  | called hasNetwork =>
    simp only [step] at hs
    split at hs
    · rename_i hphase
      cases hs
      cases hasNetwork with
      | false => exact .refused rfl (by rw [hphase]; rfl) (by rw [hphase]; rfl)
      | true => exact .begun hphase
    · cases hs
  | secretsRead answer =>
    simp only [step] at hs
    split at hs
    · cases hs
      exact moved_secretsRead ‹_›
    · cases hs
  | deviceInfoBuilt answer =>
    simp only [step] at hs
    split at hs
    · rename_i origin secrets hphase
      cases hs
      cases answer with
      | ok => exact .built hphase
      | err message => exact .refused rfl (by rw [hphase]; rfl) (by rw [hphase]; rfl)
      | thrown => exact .threw rfl (fun h => h rfl) rfl (by rw [hphase]; rfl)
    · cases hs
  | unlocked answer =>
    simp only [step] at hs
    split at hs
    · cases hs
      exact moved_unlocked ‹_›
    · cases hs
  | disconnected =>
    simp only [step] at hs
    split at hs
    · rw [World.disconnected] at hs
      obtain ⟨connection, hconnect, rfl⟩ := Option.map_eq_some_iff.mp hs
      exact .connects ‹_› hconnect
    · cases hs
  | connected report =>
    simp only [step] at hs
    split at hs
    · split at hs
      · cases hs
        exact moved_connected ‹_› ‹_›
      · cases hs
    · cases hs
  | nameStored answer =>
    simp only [step] at hs
    split at hs
    · rename_i id hostName hphase
      cases hs
      cases answer with
      | ok => exact .reached rfl (.inr ⟨_, hphase⟩)
      | err message => exact .reached rfl (.inr ⟨_, hphase⟩)
      | thrown => exact .threw rfl (fun h => h rfl) rfl (by rw [hphase]; rfl)
    · cases hs
  | outside e =>
    simp only [step] at hs
    split at hs
    · cases hs
    · obtain ⟨s, hshared, rfl⟩ := Option.map_eq_some_iff.mp hs
      exact .outside hshared

theorem rank_lt_seven {phase : Phase} (h : phase.over = false) : phase.rank < 7 := by
  cases phase with
  | completed | threw => cases h
  | idle | readingSecrets | buildingDeviceInfo | unlocking | disconnecting | connecting
  | storingName => simp only [Phase.rank, Nat.reduceLT]

theorem rank_le_seven (phase : Phase) : phase.rank ≤ 7 := by
  cases hover : phase.over with
  | false => exact (rank_lt_seven hover).le
  | true =>
    cases phase with
    | completed | threw => exact Nat.le_refl _
    | idle | readingSecrets | buildingDeviceInfo | unlocking | disconnecting | connecting
    | storingName => cases hover

/-- Every step of its own brings the switch nearer to its end. -/
theorem rank_of_moved (hm : Moved dart parts target w e w') (hown : outside e = none) :
    w.phase.rank < w'.phase.rank := by
  cases hm with
  | outside => cases hown
  | refused _ hleft hover => exact rank_lt_seven hover
  | threw _ _ _ hover => exact rank_lt_seven hover
  | begun hphase =>
    rw [hphase]
    exact Nat.lt_succ_self _
  | read hphase =>
    rw [hphase]
    exact Nat.lt_succ_self _
  | built hphase =>
    rw [hphase]
    exact Nat.lt_succ_self _
  | left hphase =>
    rw [hphase]
    exact Nat.lt_succ_self _
  | connects hphase =>
    rw [hphase]
    exact Nat.lt_succ_self _
  | storesName hphase =>
    rw [hphase]
    exact Nat.lt_succ_self _
  | reached _ hphase =>
    obtain ⟨hphase, -⟩ | ⟨stored, hphase⟩ := hphase
    · rw [hphase]
      exact rank_lt_seven rfl
    · rw [hphase]
      exact rank_lt_seven rfl
  | failed hphase =>
    rw [hphase]
    exact rank_lt_seven rfl

/-- Before it disconnects, the switch leaves to the others what it shares with them. -/
theorem shared_of_moved (hm : Moved dart parts target w e w') (hown : outside e = none)
    (hleft : w'.phase.left = false) (hthrew : w'.phase ≠ .threw) :
    w'.shared = w.shared ∧ w.phase.left = false ∧ w.phase ≠ .threw := by
  cases hm with
  | outside => cases hown
  | refused _ hbefore hover =>
    refine ⟨rfl, hbefore, fun h => ?_⟩
    rw [h] at hover
    cases hover
  | threw => exact absurd rfl hthrew
  | begun hphase => exact ⟨rfl, by rw [hphase]; rfl, by rw [hphase]; nofun⟩
  | read hphase => exact ⟨rfl, by rw [hphase]; rfl, by rw [hphase]; nofun⟩
  | built hphase => exact ⟨rfl, by rw [hphase]; rfl, by rw [hphase]; nofun⟩
  | left | connects | storesName | reached | failed => cases hleft

theorem onward_outside {s s' : Shared} {e : Outside} (hs : s.step e = some s') :
    Onward s.connection s'.connection := by
  cases e with
  | relay e =>
    obtain ⟨connection, hstep, rfl⟩ := Option.map_eq_some_iff.mp hs
    exact onward_step hstep
  | watchPane paneId =>
    cases hs
    exact .refl _
  | unwatchPane paneId =>
    cases hs
    unfold Shared.unwatchPane
    split
    · exact .refl _
    · exact .refl _

/-- The record that the switch goes by before it connects. -/
def Phase.record : Phase → Option (RelayOrigin × HostSecrets Text)
  | .buildingDeviceInfo origin secrets | .unlocking origin secrets
  | .disconnecting origin secrets => some (origin, secrets)
  | _ => none

/-- The switch has reached the computer. -/
def Phase.reached : Phase → Option Nat
  | .storingName id _ => some id
  | .completed attempt (.succeeded _ _) => attempt
  | _ => none

structure Inv (dart : Dart) (parts : Components) (target : PairedHostRecord Time) (es : List Event) (w : World) :
    Prop where
  honest : Honest w.shared.connection
  read : ∀ origin secrets, w.phase.record = some (origin, secrets) → Read dart parts es origin secrets
  asked : ∀ id, w.phase.attempt = some id →
    id < w.shared.connection.made ∧ Asked dart parts es w.shared.connection id
  reached : ∀ id, w.phase.reached = some id → id ∈ w.shared.connection.connected
  named : ∀ attempt hostId hostName, w.phase = .completed attempt (.succeeded hostId hostName) →
    hostId = target.hostId ∧ attempt ≠ none

variable {es : List Event}

theorem Read.more {origin : RelayOrigin} {secrets : HostSecrets Text}
    (h : Read dart parts es origin secrets) (e : Event) : Read dart parts (es ++ [e]) origin secrets :=
  ⟨List.mem_append_left _ h.1, h.2⟩

theorem Asked.more {s t : RelayConnection} {id : Nat} (h : Asked dart parts es s id)
    (hon : Onward s t) (hid : id < s.made) (e : Event) : Asked dart parts (es ++ [e]) t id := by
  obtain ⟨origin, secrets, hread, haddress, hmode⟩ := h
  exact ⟨origin, secrets, hread.more e, (hon.address id hid).trans haddress,
    (hon.mode id hid).trans hmode⟩

theorem Inv.outside (h : Inv dart parts target es w) {s : Shared}
    (hon : Onward w.shared.connection s.connection) :
    Inv dart parts target (es ++ [e]) { w with shared := s } where
  honest := h.honest.onward hon
  read origin secrets hrecord := (h.read origin secrets hrecord).more e
  asked id hid := by
    obtain ⟨hmade, hasked⟩ := h.asked id hid
    exact ⟨Nat.lt_of_lt_of_le hmade hon.made, hasked.more hon hmade e⟩
  reached id hid := hon.connected id (h.reached id hid)
  named := h.named

/-- The switch goes on with nothing but what it knows. -/
theorem Inv.goto (h : Inv dart parts target es w) {phase : Phase}
    (hread : ∀ origin secrets, phase.record = some (origin, secrets) →
      Read dart parts (es ++ [e]) origin secrets)
    (hattempt : ∀ id, phase.attempt = some id → w.phase.attempt = some id)
    (hreached : ∀ id, phase.reached = some id → id ∈ w.shared.connection.connected)
    (hnamed : ∀ attempt hostId hostName, phase = .completed attempt (.succeeded hostId hostName) →
      hostId = target.hostId ∧ attempt ≠ none) :
    Inv dart parts target (es ++ [e]) (w.goto phase) where
  honest := h.honest
  read := hread
  asked id hid := by
    obtain ⟨hmade, hasked⟩ := h.asked id (hattempt id hid)
    exact ⟨hmade, hasked.more (.refl _) hmade e⟩
  reached := hreached
  named := hnamed

theorem inv_moved (h : Inv dart parts target es w) (hm : Moved dart parts target w e w') :
    Inv dart parts target (es ++ [e]) w' := by
  cases hm with
  | outside hs => exact h.outside (onward_outside hs)
  | refused => exact h.goto nofun nofun nofun nofun
  | threw hown hclean hconnection hover =>
    refine ⟨?_, nofun, nofun, nofun, nofun⟩
    show Honest _
    rw [hconnection]
    exact h.honest
  | begun => exact h.goto nofun nofun nofun nofun
  | read hphase horigin hparse =>
    refine h.goto ?_ nofun nofun nofun
    rintro _ _ ⟨⟩
    exact ⟨List.mem_append_right _ List.mem_cons_self, _, horigin, hparse⟩
  | built hphase =>
    refine h.goto ?_ nofun nofun nofun
    rintro _ _ ⟨⟩
    exact (h.read _ _ (by rw [hphase]; rfl)).more _
  | left hphase =>
    refine ⟨h.honest.onward (Attempts.onward_freely.disconnect _), ?_, nofun, nofun, nofun⟩
    rintro _ _ ⟨⟩
    exact (h.read _ _ (by rw [hphase]; rfl)).more _
  | @connects origin secrets connection hphase hconnect =>
    obtain ⟨hmade, haddress, hmode⟩ := Attempts.connect_made hconnect
    refine ⟨h.honest.onward (onward_step hconnect), nofun, ?_, nofun, nofun⟩
    rintro _ ⟨⟩
    exact ⟨hmade, origin, secrets, (h.read _ _ (by rw [hphase]; rfl)).more _, haddress, hmode⟩
  | @storesName id report hostName hphase hresult =>
    refine h.goto nofun ?_ ?_ nofun
    · rintro _ ⟨⟩
      rw [hphase]
      rfl
    · rintro _ ⟨⟩
      exact h.honest id (by rw [hresult]; rfl)
  | @reached _ id hostName hown hphase =>
    refine h.goto nofun ?_ ?_ ?_
    · rintro _ ⟨⟩
      obtain ⟨hphase, -⟩ | ⟨stored, hphase⟩ := hphase
      · rw [hphase]
        rfl
      · rw [hphase]
        rfl
    · rintro _ ⟨⟩
      obtain ⟨-, hresult⟩ | ⟨stored, hphase⟩ := hphase
      · exact h.honest id (by rw [hresult]; rfl)
      · exact h.reached id (by rw [hphase]; rfl)
    · rintro _ _ _ ⟨⟩
      exact ⟨rfl, nofun⟩
  | failed hphase =>
    refine h.goto nofun ?_ nofun nofun
    rintro _ ⟨⟩
    rw [hphase]
    rfl

theorem inv_start (appLockEnabled : Bool) : Inv dart parts target [] (.start appLockEnabled) :=
  ⟨Attempts.honest_start appLockEnabled, nofun, nofun, nofun, nofun⟩

/-- The events so far are at most as many as the phase says, the others' apart. -/
theorem counted_moved (h : (es.filter fun e => (HostSwitch.outside e).isNone).length ≤ w.phase.rank)
    (hm : Moved dart parts target w e w') :
    ((es ++ [e]).filter fun e => (HostSwitch.outside e).isNone).length ≤ w'.phase.rank := by
  rw [List.filter_append, List.length_append]
  cases hown : HostSwitch.outside e with
  | some o =>
    have hphase : w'.phase = w.phase := by
      cases hm with
      | outside => rfl
      | refused h | threw h | reached h => cases h.symm.trans hown
      | begun | read | built | left | connects | storesName | failed => cases hown
    rw [hphase]
    simpa [hown] using h
  | none =>
    have hnear := rank_of_moved hm hown
    have hone : ([e].filter fun e => (HostSwitch.outside e).isNone).length = 1 := by simp [hown]
    omega

/-- Before the switch disconnects, the others alone have made what is shared. -/
def Untouched (appLockEnabled : Bool) (es : List Event) (w : World) : Prop :=
  w.phase.left = false → w.phase ≠ .threw →
    run Shared.step (.start appLockEnabled) (es.filterMap HostSwitch.outside) = some w.shared

theorem untouched_moved {appLockEnabled : Bool} (h : Untouched appLockEnabled es w)
    (hm : Moved dart parts target w e w') : Untouched appLockEnabled (es ++ [e]) w' := by
  intro hleft hthrew
  rw [List.filterMap_append]
  cases hown : HostSwitch.outside e with
  | some o =>
    cases hm with
    | @outside o' s hs =>
      cases hown
      exact run_snoc (h hleft hthrew) hs
    | refused h | threw h | reached h => cases h.symm.trans hown
    | begun | read | built | left | connects | storesName | failed => cases hown
  | none =>
    obtain ⟨hshared, hbefore, hreturns⟩ := shared_of_moved hm hown hleft hthrew
    have hnothing : [e].filterMap HostSwitch.outside = [] := by simp [hown]
    rw [hnothing, List.append_nil, hshared]
    exact h hbefore hreturns

/-- The switch has not thrown, and has no pane watched where it has left. -/
structure Safe (w : World) : Prop where
  returns : w.phase ≠ .threw
  forgets : w.phase.left = true → ¬ Live w → w.shared.watchedPaneId = none

theorem safe_start (appLockEnabled : Bool) : Safe (.start appLockEnabled) where
  returns h := by cases h
  forgets h := by cases h

theorem Safe.goto (h : Safe w) {phase : Phase} (hreturns : phase ≠ .threw)
    (hleft : phase.left = true → w.phase.left = true)
    (hattempt : phase.attempt = w.phase.attempt) : Safe (w.goto phase) where
  returns := hreturns
  forgets hl hdead := by
    refine h.forgets (hleft hl) fun hlive => hdead ?_
    obtain ⟨id, hid, hconnected⟩ := hlive
    exact ⟨id, hattempt.trans hid, hconnected⟩

theorem Safe.outside (h : Safe w) {o : Outside} {s : Shared} (hclean : Clean parts w (.outside o))
    (hs : w.shared.step o = some s) : Safe { w with shared := s } where
  returns := h.returns
  forgets hleft hdead := by
    have hbefore : ¬ Live w := by
      rintro ⟨id, hid, hconnected⟩
      exact hdead ⟨id, hid, (onward_outside hs).connected id hconnected⟩
    have hnone := h.forgets hleft hbefore
    cases o with
    | relay e =>
      obtain ⟨connection, -, rfl⟩ := Option.map_eq_some_iff.mp hs
      exact hnone
    | watchPane paneId => exact absurd (hclean hleft) hbefore
    | unwatchPane paneId =>
      cases hs
      show (w.shared.unwatchPane paneId).watchedPaneId = none
      unfold Shared.unwatchPane
      split
      · rfl
      · exact hnone

theorem safe_moved (h : Safe w) (hclean : Clean parts w e) (hm : Moved dart parts target w e w') : Safe w' := by
  cases hm with
  | outside hs => exact h.outside hclean hs
  | refused => exact ⟨nofun, nofun⟩
  | threw _ hbad => exact absurd hclean hbad
  | begun => exact ⟨nofun, nofun⟩
  | read => exact ⟨nofun, nofun⟩
  | built => exact ⟨nofun, nofun⟩
  | left => exact ⟨nofun, fun _ _ => rfl⟩
  | connects hphase =>
    refine ⟨nofun, fun _ _ => h.forgets (by rw [hphase]; rfl) ?_⟩
    rintro ⟨id, hid, -⟩
    rw [hphase] at hid
    cases hid
  | storesName hphase => exact h.goto nofun (fun _ => by rw [hphase]; rfl) (by rw [hphase]; rfl)
  | reached _ hphase =>
    obtain ⟨hphase, -⟩ | ⟨stored, hphase⟩ := hphase
    · exact h.goto nofun (fun _ => by rw [hphase]; rfl) (by rw [hphase]; rfl)
    · exact h.goto nofun (fun _ => by rw [hphase]; rfl) (by rw [hphase]; rfl)
  | failed hphase => exact h.goto nofun (fun _ => by rw [hphase]; rfl) (by rw [hphase]; rfl)

/-- A step that is not clean ends in a throw, or in a pane that is watched again. -/
theorem clean_of_safe (hs : step dart parts target w e = some w') (h : Safe w') : Clean parts w e := by
  cases e with
  | called hasNetwork => trivial
  | disconnected => trivial
  | secretsRead answer =>
    simp only [step] at hs
    split at hs
    · cases hs
      constructor
      · rintro rfl
        exact h.returns rfl
      · rintro secrets originUri rfl horigin hlong
        refine h.returns ?_
        simp only [World.secretsRead, horigin, parse_of_overlong dart hlong]
        rfl
    · cases hs
  | deviceInfoBuilt answer | nameStored answer =>
    rintro rfl
    simp only [step] at hs
    split at hs
    · cases hs
      exact h.returns rfl
    · cases hs
  | unlocked answer =>
    simp only [step] at hs
    split at hs
    · constructor
      · rintro rfl
        cases hs
        exact h.returns rfl
      · rintro rfl hwatched
        obtain ⟨paneId, hpane⟩ := Option.ne_none_iff_exists'.mp hwatched
        have hforgot : w.shared.unwatchPane paneId = ⟨w.shared.connection, none⟩ := if_pos hpane
        by_contra hsend
        simp only [World.unlocked, World.leave, hpane, hforgot, if_neg hsend] at hs
        cases hs
        exact h.returns rfl
    · cases hs
  | connected report =>
    intro id hphase
    simp only [step, hphase] at hs
    constructor
    · intro hthrown
      simp only [hthrown] at hs
      cases hs
      exact h.returns rfl
    · intro hcancelled
      simp only [hcancelled] at hs
      cases hs
      exact h.returns rfl
  | outside o =>
    cases o with
    | relay e => trivial
    | unwatchPane paneId => trivial
    | watchPane paneId =>
      intro hleft
      by_contra hdead
      simp only [step] at hs
      split at hs
      · cases hs
      · cases hs
        cases h.forgets hleft hdead

theorem goes_on (he : Awaits w e) : ∃ w', step dart parts target w e = some w' := by
  cases e with
  | called hasNetwork =>
    have hphase : w.phase = .idle := he
    simp only [step, hphase]
    exact ⟨_, rfl⟩
  | secretsRead answer =>
    have hphase : w.phase = .readingSecrets := he
    simp only [step, hphase]
    exact ⟨_, rfl⟩
  | deviceInfoBuilt answer | unlocked answer | disconnected =>
    obtain ⟨origin, secrets, hphase⟩ := he
    simp only [step, hphase]
    exact ⟨_, rfl⟩
  | connected report =>
    obtain ⟨id, result, hphase, hresult⟩ := he
    simp only [step, hphase, hresult]
    exact ⟨_, rfl⟩
  | nameStored answer =>
    obtain ⟨id, hostName, hphase⟩ := he
    simp only [step, hphase]
    exact ⟨_, rfl⟩
  | outside o => exact he.elim

theorem law_of_safe {appLockEnabled : Bool} (hsafe : Safe w)
    (hr : run (step dart parts target) (.start appLockEnabled) es = some w) :
    Law dart parts target appLockEnabled es w where
  returns := hsafe.returns
  goesOn _ := goes_on
  ends := by
    refine (run_history
      (fun es w => (es.filter fun e => (HostSwitch.outside e).isNone).length ≤ w.phase.rank)
      (Nat.zero_le _) (fun h hs => counted_moved h (moved_of_step hs)) hr).trans ?_
    exact rank_le_seven _
  forgets := hsafe.forgets
  opened attempt hostId hostName hphase := by
    have hinv := run_history (Inv dart parts target) (inv_start appLockEnabled)
      (fun h hs => inv_moved h (moved_of_step hs)) hr
    obtain ⟨hnamed, hsome⟩ := hinv.named attempt hostId hostName hphase
    obtain ⟨id, rfl⟩ := Option.ne_none_iff_exists'.mp hsome
    exact ⟨hnamed, id, rfl, hinv.reached id (by rw [hphase]; rfl),
      (hinv.asked id (by rw [hphase]; rfl)).2⟩
  untouched hleft := by
    refine run_history (Untouched appLockEnabled) (fun _ _ => rfl)
      (fun h hs => untouched_moved h (moved_of_step hs)) hr hleft hsafe.returns

variable (dart parts target) in
/-- A switch is lawful in every state of a run exactly when no call throws in it, the stored origin
has no port that is too long to be read, the frame for the watched pane can be sent, and no pane is
watched between the two computers. -/
theorem host_switch_iff (appLockEnabled : Bool) (es : List Event) :
    Holds dart parts target appLockEnabled es ↔
      ∀ w e w', Occurs (step dart parts target) (.start appLockEnabled) es w e w' → Clean parts w e := by
  constructor
  · rintro h w e w' ⟨pre, post, hes, hr, hs⟩
    have hlaw := h (pre ++ [e]) post w' (by rw [hes, List.append_assoc]; rfl) (run_snoc hr hs)
    exact clean_of_safe hs ⟨hlaw.returns, hlaw.forgets⟩
  · intro h pre post w hes hr
    refine law_of_safe ?_ hr
    refine visits_invariant Safe (safe_start appLockEnabled) ?_ ⟨pre, post, hes, hr⟩
    intro s e t hs ho
    exact safe_moved hs (h s e t ho) (moved_of_step ho.step_eq)

end Steps

def studio : PairedHostRecord Unit := ⟨"h2".toList, "studio".toList, none⟩

def studioSecrets : HostSecrets Text :=
  ⟨[1], "handle".toList, some "https://relay.example.com".toList⟩

/-- The terminal watches a pane, and the link drops. -/
def linkLost : List Event :=
  Wanted.session.map (.outside ∘ .relay) ++
    [.outside (.watchPane "w1:p1".toList), .outside (.relay (.streamClosed 0 false)),
      .outside (.relay (.pumpClosed 0))]

def switched : List Event :=
  linkLost ++ [.called true, .secretsRead (.ok (some studioSecrets)), .deviceInfoBuilt (.ok ()),
    .unlocked (.ok ())]

/-- Every call of the store and of the gate is answered well, and the switch throws. -/
theorem host_switch_throws : ¬ Holds InputAgreement.plainDart plainParts studio true switched := by
  intro h
  have hthrows : (run (step InputAgreement.plainDart plainParts studio) (.start true) switched).any
      (fun w => decide (w.phase = .threw)) = true := by
    decide
  obtain ⟨w, hr, hthrew⟩ := (Option.any_eq_true _ _).mp hthrows
  exact (h switched [] w (List.append_nil _).symm hr).returns (of_decide_eq_true hthrew)

end HerdrMobile.App.HostSwitch
