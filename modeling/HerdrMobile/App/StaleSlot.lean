import HerdrMobile.App.Ends
import HerdrMobile.Lib.Run

/-!
# The stale slot

`ReconnectPolicy` under `RelayConnection`. The service is given a clock, and builds the policy
without handing it on: the policy goes by the time of the system. It knows of the end of a session
what the pump tells it. The account beside it takes every end of every established session.
-/
namespace HerdrMobile.App.StaleSlot

open HerdrMobile.Lib.Run HerdrMobile.App.Connection HerdrMobile.App.Ends

set_option autoImplicit false

def second : Nat := 1000000

/-- The delays of the first five attempts, in microseconds. -/
def schedule : List Nat := [500000, 1 * second, 2 * second, 5 * second, 10 * second]

def cap : Nat := 30 * second

def stableConnectionThreshold : Nat := 30 * second

def staleSlotWindow : Nat := 45 * second

/-- `ReconnectPolicy`, which reads `DateTime.now`. -/
structure Policy where
  attempt : Nat := 0
  connectedSince : Option Int := none
  disconnectedAt : Option Int := none
  deriving DecidableEq

namespace Policy

def delay (attempt : Nat) : Nat := schedule.getD attempt cap

/-- `nextDelay`: the delay, and the policy after it. -/
def nextDelay (p : Policy) : Nat × Policy := (delay p.attempt, { p with attempt := p.attempt + 1 })

def withinStaleSlotWindow (p : Policy) (now : Int) : Bool :=
  p.disconnectedAt.any fun droppedAt => decide (now - droppedAt < staleSlotWindow)

def noteConnected (p : Policy) (now : Int) : Policy := { p with connectedSince := some now }

def noteDisconnected (p : Policy) (now : Int) : Policy where
  connectedSince := none
  disconnectedAt := some now
  attempt :=
    if p.connectedSince.any fun since => decide (stableConnectionThreshold ≤ now - since) then 0
    else p.attempt

end Policy

/-- The sessions that were established and have not ended, with their beginnings, the last end,
and the attempts since the last end of a stable session. No step of the service reads it. -/
structure Account where
  sessions : List (Nat × Nat) := []
  lastEnd : Option Nat := none
  attempt : Nat := 0
  deriving DecidableEq

/-- A session has ended when it is not the current one and its pump has closed its socket. -/
def hasEnded (t : RelayConnection) (session : Nat × Nat) : Bool :=
  t.channel != some session.1 && !isClosing (t.attempt session.1).pump

def Account.begin (id now : Nat) (a : Account) : Account :=
  { a with sessions := (id, now) :: a.sessions }

/-- Every session that has ended is taken, once. -/
def Account.settle (t : RelayConnection) (now : Nat) (a : Account) : Account :=
  let ends := a.sessions.filter (hasEnded t)
  { sessions := a.sessions.filter fun session => !hasEnded t session
    lastEnd := if ends.isEmpty then a.lastEnd else some now
    attempt :=
      if ends.any fun session => decide (stableConnectionThreshold ≤ now - session.2) then 0
      else a.attempt }

def Account.advance (a : Account) : Account := { a with attempt := a.attempt + 1 }

/-- The last session ended less than the window ago. -/
def Account.recent (a : Account) (now : Nat) : Bool :=
  a.lastEnd.any fun lastEnd => decide (now - lastEnd < staleSlotWindow)

/-- `wall` is the time of the system and `now` that of the injected clock. `due` is when the
reconnect timer fires, and `noting` which pumps close their socket with the `noteDisconnected` to
follow. -/
structure Service where
  relay : RelayConnection
  policy : Policy := {}
  wall : Int
  now : Nat := 0
  due : Nat := 0
  noting : Nat → Bool := fun _ => false
  account : Account := {}

inductive Event where
  | relay (e : RelayConnection.Event)
  | elapse (duration : Nat) (wall : Int)

/-- The pump that closes the current session in its `finally`, or on the word of the Host that
the Device is revoked. -/
def notes (s : RelayConnection) : RelayConnection.Event → Option Nat
  | .received id => if s.channel = some id && s.gateLocked then some id else none
  | .decoded id outcome =>
    if s.channel = some id && (s.gateLocked || decide (outcome = .fatal true)) then some id
    else none
  | .streamClosed id _ => if s.channel = some id then some id else none
  | _ => none

def canSchedule (s : RelayConnection) : Bool :=
  s.lastParams.isSome && !(s.disposed || s.backgrounded || s.gate.isLocked)

/-- The failure of a timer's attempt keeps the schedule. -/
def keepsSchedule (a : Attempt) (staleSlot : Bool) : Bool :=
  match a.caller, a.phase with
  | .timer, .returned (.err cause) =>
    RelayConnection.afterFailure cause staleSlot == .reuseHandle
  | _, _ => false

/-- The step takes the next delay of the policy. -/
def takesDelay (s : RelayConnection) : RelayConnection.Event → Bool
  | .pumpClosed id =>
    decide ((s.attempt id).pump = .closing .reschedule) && canSchedule s
  | .returns id staleSlot => keepsSchedule (s.attempt id) staleSlot && canSchedule s
  | .networkStable =>
    canSchedule s && !s.gateLocked && !s.isConnected && s.reconnectTimer == Timer.idle
  | _ => false

/-- The pump has closed its socket and tells the policy. -/
def tells (s : Service) : RelayConnection.Event → Bool
  | .pumpClosed id => s.noting id
  | _ => false

/-- What the timer and the policy have to say about a step. -/
def allowed (s : Service) : RelayConnection.Event → Bool
  | .timerFires => decide (s.due ≤ s.now)
  | .returns _ staleSlot => staleSlot == s.policy.withinStaleSlotWindow s.wall
  | _ => true

namespace Service

def start (appLockEnabled : Bool) (wall : Int) : Service :=
  { relay := .start appLockEnabled, wall }

/-- `noteConnected` and `noteDisconnected`. -/
def note (s : Service) (e : RelayConnection.Event) (p : Policy) : Policy :=
  let p := if (connects s.relay e).isSome then p.noteConnected s.wall else p
  if tells s e then p.noteDisconnected s.wall else p

/-- The account of the sessions at the state after the step. -/
def keep (s : Service) (e : RelayConnection.Event) (t : RelayConnection) (a : Account) : Account :=
  let a :=
    match connects s.relay e with
    | some id => a.begin id s.now
    | none => a
  a.settle t s.now

/-- The pumps that are to tell the policy. -/
def mark (s : Service) (e : RelayConnection.Event) : Nat → Bool :=
  match notes s.relay e with
  | some id => Function.update s.noting id true
  | none => s.noting

/-- The service after a step of the connection to `t`. -/
def after (s : Service) (e : RelayConnection.Event) (t : RelayConnection) : Service :=
  let policy := s.note e s.policy
  let account := s.keep e t s.account
  if takesDelay s.relay e then
    { s with
      relay := t, noting := s.mark e, account := account.advance
      policy := policy.nextDelay.2, due := s.now + policy.nextDelay.1 }
  else { s with relay := t, noting := s.mark e, account := account, policy := policy }

end Service

def step (s : Service) : Event → Option Service
  | .relay e => if allowed s e then (s.relay.step e).map (s.after e) else none
  | .elapse duration wall => some { s with now := s.now + duration, wall }

/-- The relay has refused an attempt of the timer, as the Host is in use. -/
def Refused (s : Service) (id : Nat) : Prop :=
  (s.relay.attempt id).caller = .timer ∧
    (s.relay.attempt id).phase = .returned (.err (.registration .hostInUse))

structure Law (appLockEnabled : Bool) (wall : Int) (es : List Event) : Prop where
  recent : ∀ s t id staleSlot,
    Occurs step (.start appLockEnabled wall) es s (.relay (.returns id staleSlot)) t →
    Refused s id → s.account.recent s.now = true →
    t.relay.stopped = s.relay.stopped ∧ (canSchedule s.relay = true →
      (∃ params, t.relay.reconnectTimer = .pending params) ∧
        t.due = s.now + Policy.delay s.account.attempt)
  late : ∀ s t id staleSlot,
    Occurs step (.start appLockEnabled wall) es s (.relay (.returns id staleSlot)) t →
    Refused s id → s.account.recent s.now = false →
    t.relay.stopped = true ∧ t.relay.reconnectTimer = s.relay.reconnectTimer
  once : ∀ s, Visits step (.start appLockEnabled wall) es s → s.policy.attempt = s.account.attempt

/-- The step takes an established session away, and no pump is to tell the policy. -/
def silent (s : RelayConnection) (e : RelayConnection.Event) : Bool :=
  match s.channel, s.step e with
  | some id, some t =>
    isRunning (s.attempt id).pump && t.channel != some id && notes s e != some id
  | _, _ => false

/-- No session ends silently, none is established while another one is being closed, and the time
of the system goes on as the injected clock does. -/
def clean (s : Service) : Event → Bool
  | .relay e => !silent s.relay e && ((connects s.relay e).isNone || s.account.sessions.isEmpty)
  | .elapse duration wall => decide (wall = s.wall + duration)

def Idle (p : Pump) : Prop := isRunning p = false ∧ isClosing p = false

/-- The established session is in the account as long as the policy is to hear of its end. The time
of the system is `w` ahead of the clock. -/
inductive Books (w : Int) (s : Service) : Prop
  | none (hsessions : s.account.sessions = []) (hsince : s.policy.connectedSince = Option.none)
      (hidle : ∀ j, Idle (s.relay.attempt j).pump)
  | up (id since : Nat) (hsessions : s.account.sessions = [(id, since)])
      (hsince : s.policy.connectedSince = some (since + w)) (hchannel : s.relay.channel = some id)
      (hrunning : isRunning (s.relay.attempt id).pump = true)
      (hidle : ∀ j, j ≠ id → Idle (s.relay.attempt j).pump)
  | leaving (id since : Nat) (hsessions : s.account.sessions = [(id, since)])
      (hsince : s.policy.connectedSince = some (since + w)) (hchannel : s.relay.channel ≠ some id)
      (hclosing : isClosing (s.relay.attempt id).pump = true) (hnoting : s.noting id = true)
      (hidle : ∀ j, j ≠ id → Idle (s.relay.attempt j).pump)

/-- The policy and the account have the same attempts and the same last end. -/
structure Agrees (w : Int) (p : Policy) (a : Account) : Prop where
  attempt : p.attempt = a.attempt
  ended : p.disconnectedAt = a.lastEnd.map fun lastEnd => (lastEnd + w : Int)

structure Inv (w : Int) (s : Service) : Prop where
  sound : Sound s.relay
  wall : s.wall = s.now + w
  books : Books w s
  agrees : Agrees w s.policy s.account

section Steps

variable {w : Int} {s : Service} {t : RelayConnection} {e : RelayConnection.Event} {id : Nat}

theorem Idle.not_running {p : Pump} (h : Idle p) (hrunning : isRunning p = true) : False := by
  rw [h.1] at hrunning
  cases hrunning

theorem Idle.not_closing {p : Pump} (h : Idle p) (hclosing : isClosing p = true) : False := by
  rw [h.2] at hclosing
  cases hclosing

theorem after_relay : (s.after e t).relay = t := by
  unfold Service.after
  dsimp only
  split
  · rfl
  · rfl

theorem after_wall (h : s.wall = s.now + w) : (s.after e t).wall = (s.after e t).now + w := by
  unfold Service.after
  dsimp only
  split
  · exact h
  · exact h

theorem after_since :
    (s.after e t).policy.connectedSince = (s.note e s.policy).connectedSince := by
  unfold Service.after
  dsimp only
  split
  · rfl
  · rfl

theorem after_sessions :
    (s.after e t).account.sessions = (s.keep e t s.account).sessions := by
  unfold Service.after
  dsimp only
  split
  · rfl
  · rfl

theorem after_noting (h : s.noting id = true ∨ notes s.relay e = some id) :
    (s.after e t).noting id = true := by
  have hnoting : s.mark e id = true := by
    unfold Service.mark
    cases hnotes : notes s.relay e with
    | none =>
      rw [hnotes] at h
      exact h.resolve_right fun hsame => by cases hsame
    | some j =>
      dsimp only
      by_cases hid : id = j
      · rw [hid, Function.update_self]
      · rw [Function.update_of_ne hid]
        rw [hnotes] at h
        exact h.resolve_right fun hsame => hid (Option.some.inj hsame).symm
  unfold Service.after
  dsimp only
  split
  · exact hnoting
  · exact hnoting

/-- A delay is taken by the policy and counted by the account. -/
theorem agrees_after (h : Agrees w (s.note e s.policy) (s.keep e t s.account)) :
    Agrees w (s.after e t).policy (s.after e t).account := by
  unfold Service.after
  dsimp only
  split
  · exact ⟨congrArg (· + 1) h.attempt, h.ended⟩
  · exact h

theorem note_silent (hconnects : connects s.relay e = none) (htells : tells s e = false)
    (p : Policy) : s.note e p = p := by
  unfold Service.note
  rw [hconnects, htells]
  rfl

theorem settle_still {now : Nat} {a : Account}
    (h : ∀ session ∈ a.sessions, hasEnded t session = false) : a.settle t now = a := by
  have hends : a.sessions.filter (hasEnded t) = [] := by
    refine List.filter_eq_nil_iff.mpr fun session hsession hended => ?_
    rw [h session hsession] at hended
    cases hended
  have hall : (a.sessions.filter fun session => !hasEnded t session) = a.sessions := by
    refine List.filter_eq_self.mpr fun session hsession => ?_
    rw [h session hsession]
    rfl
  unfold Account.settle
  dsimp only
  rw [hends, hall]
  rfl

theorem keep_still (hconnects : connects s.relay e = none)
    (h : ∀ session ∈ s.account.sessions, hasEnded t session = false) :
    s.keep e t s.account = s.account := by
  unfold Service.keep
  rw [hconnects]
  exact settle_still h

theorem settle_ended {now since : Nat} {a : Account} (hsessions : a.sessions = [(id, since)])
    (hended : hasEnded t (id, since) = true) :
    a.settle t now = {
      sessions := []
      lastEnd := some now
      attempt := if stableConnectionThreshold ≤ now - since then 0 else a.attempt } := by
  unfold Account.settle
  dsimp only
  rw [hsessions, List.filter_cons_of_pos hended, List.filter_nil,
    List.filter_cons_of_neg (by rw [hended]; exact Bool.false_ne_true), List.filter_nil]
  simp only [List.isEmpty_cons, List.any_cons, List.any_nil, Bool.or_false, decide_eq_true_eq,
    Bool.false_eq_true, if_false]

/-- Nothing begins, and nothing ends. -/
theorem agrees_still (hagrees : Agrees w s.policy s.account)
    (hconnects : connects s.relay e = none) (htells : tells s e = false)
    (h : ∀ session ∈ s.account.sessions, hasEnded t session = false) :
    Agrees w (s.after e t).policy (s.after e t).account := by
  refine agrees_after ?_
  rw [note_silent hconnects htells, keep_still hconnects h]
  exact hagrees

theorem since_still (hconnects : connects s.relay e = none) (htells : tells s e = false) :
    (s.after e t).policy.connectedSince = s.policy.connectedSince := by
  rw [after_since, note_silent hconnects htells]

theorem sessions_still (hconnects : connects s.relay e = none)
    (h : ∀ session ∈ s.account.sessions, hasEnded t session = false) :
    (s.after e t).account.sessions = s.account.sessions := by
  rw [after_sessions, keep_still hconnects h]

theorem tells_of_none (hpump : pumpOf e = none) : tells s e = false := by
  cases e with
  | pumpClosed id => cases hpump
  | _ => rfl

theorem tells_of_running (hs : s.relay.step e = some t) (hpump : pumpOf e = some id)
    (hrunning : isRunning (s.relay.attempt id).pump = true) : tells s e = false := by
  cases e with
  | pumpClosed j =>
    cases hpump
    simp only [RelayConnection.step] at hs
    split at hs
    · next hclosing =>
      rw [hclosing] at hrunning
      cases hrunning
    · cases hs
  | _ => rfl

theorem notes_of_none {s : RelayConnection} (hpump : pumpOf e = none) : notes s e = none := by
  cases e with
  | received id => cases hpump
  | decoded id outcome => cases hpump
  | streamClosed id revoked => cases hpump
  | _ => rfl

theorem not_silent (hclean : clean s (.relay e) = true) (hs : s.relay.step e = some t)
    (hchannel : s.relay.channel = some id)
    (hrunning : isRunning (s.relay.attempt id).pump = true) :
    t.channel = some id ∨ notes s.relay e = some id := by
  simp only [clean, silent, hchannel, hs, hrunning, Bool.true_and, Bool.and_eq_true,
    Bool.not_eq_true', Bool.and_eq_false_iff, bne_eq_false_iff_eq] at hclean
  exact hclean.1

theorem not_ended_of_current {since : Nat} (hchannel : t.channel = some id) :
    hasEnded t (id, since) = false := by
  unfold hasEnded
  rw [hchannel, bne_self_eq_false]
  rfl

theorem not_ended_of_closing {since : Nat} (hclosing : isClosing (t.attempt id).pump = true) :
    hasEnded t (id, since) = false := by
  unfold hasEnded
  rw [hclosing]
  exact Bool.and_false _

theorem stay_none (h : Inv w s) (hsound : Sound t) (hconnects : connects s.relay e = none)
    (htells : tells s e = false) (hsessions : s.account.sessions = [])
    (hsince : s.policy.connectedSince = none) (hidle : ∀ j, Idle (t.attempt j).pump) :
    Inv w (s.after e t) := by
  have hstill : ∀ session ∈ s.account.sessions, hasEnded t session = false := by
    rw [hsessions]
    intro session hsession
    cases hsession
  refine ⟨?_, after_wall h.wall, .none ?_ ?_ fun j => ?_, agrees_still h.agrees hconnects htells hstill⟩
  · rw [after_relay]
    exact hsound
  · rw [sessions_still hconnects hstill]
    exact hsessions
  · rw [since_still hconnects htells]
    exact hsince
  · rw [after_relay]
    exact hidle j

theorem stay_up {since : Nat} (h : Inv w s) (hsound : Sound t) (hconnects : connects s.relay e = none)
    (htells : tells s e = false) (hsessions : s.account.sessions = [(id, since)])
    (hsince : s.policy.connectedSince = some (since + w)) (hchannel : t.channel = some id)
    (hrunning : isRunning (t.attempt id).pump = true)
    (hidle : ∀ j, j ≠ id → Idle (t.attempt j).pump) : Inv w (s.after e t) := by
  have hstill : ∀ session ∈ s.account.sessions, hasEnded t session = false := by
    rw [hsessions]
    intro session hsession
    cases List.mem_singleton.mp hsession
    exact not_ended_of_current hchannel
  refine ⟨?_, after_wall h.wall, .up id since ?_ ?_ ?_ ?_ fun j hj => ?_,
    agrees_still h.agrees hconnects htells hstill⟩
  · rw [after_relay]
    exact hsound
  · rw [sessions_still hconnects hstill]
    exact hsessions
  · rw [since_still hconnects htells]
    exact hsince
  · rw [after_relay]
    exact hchannel
  · rw [after_relay]
    exact hrunning
  · rw [after_relay]
    exact hidle j hj

theorem stay_leaving {since : Nat} (h : Inv w s) (hsound : Sound t)
    (hconnects : connects s.relay e = none) (htells : tells s e = false)
    (hsessions : s.account.sessions = [(id, since)])
    (hsince : s.policy.connectedSince = some (since + w)) (hchannel : t.channel ≠ some id)
    (hclosing : isClosing (t.attempt id).pump = true)
    (hnoting : s.noting id = true ∨ notes s.relay e = some id)
    (hidle : ∀ j, j ≠ id → Idle (t.attempt j).pump) : Inv w (s.after e t) := by
  have hstill : ∀ session ∈ s.account.sessions, hasEnded t session = false := by
    rw [hsessions]
    intro session hsession
    cases List.mem_singleton.mp hsession
    exact not_ended_of_closing hclosing
  refine ⟨?_, after_wall h.wall, .leaving id since ?_ ?_ ?_ ?_ (after_noting hnoting) fun j hj => ?_,
    agrees_still h.agrees hconnects htells hstill⟩
  · rw [after_relay]
    exact hsound
  · rw [sessions_still hconnects hstill]
    exact hsessions
  · rw [since_still hconnects htells]
    exact hsince
  · rw [after_relay]
    exact hchannel
  · rw [after_relay]
    exact hclosing
  · rw [after_relay]
    exact hidle j hj

theorem inv_steady (h : Inv w s) (hclean : clean s (.relay e) = true)
    (hs : s.relay.step e = some t) (hsound : Sound t) (hconnects : connects s.relay e = none)
    (hpump : pumpOf e = none) (hsteady : Steady s.relay t) : Inv w (s.after e t) := by
  have htells : tells s e = false := tells_of_none hpump
  cases h.books with
  | none hsessions hsince hidle =>
    refine stay_none h hsound hconnects htells hsessions hsince fun j => ?_
    rw [hsteady.pumps]
    exact hidle j
  | up id since hsessions hsince hchannel hrunning hidle =>
    have hstays : t.channel = some id := by
      refine (not_silent hclean hs hchannel hrunning).resolve_right fun hnotes => ?_
      rw [notes_of_none hpump] at hnotes
      cases hnotes
    refine stay_up h hsound hconnects htells hsessions hsince hstays ?_ fun j hj => ?_
    · rw [hsteady.pumps]
      exact hrunning
    · rw [hsteady.pumps]
      exact hidle j hj
  | leaving id since hsessions hsince hchannel hclosing hnoting hidle =>
    refine stay_leaving h hsound hconnects htells hsessions hsince ?_ ?_ (.inl hnoting)
      fun j hj => ?_
    · obtain hsame | hnone := hsteady.channel
      · rw [hsame]
        exact hchannel
      · rw [hnone]
        exact (Option.some_ne_none id).symm
    · rw [hsteady.pumps]
      exact hclosing
    · rw [hsteady.pumps]
      exact hidle j hj

theorem inv_installs (h : Inv w s) (hsound : Sound t) (hconnects : connects s.relay e = none)
    (hpump : pumpOf e = none) (hbefore : s.relay.channel = none)
    (hoff : (s.relay.attempt id).pump = .off) (hinstalled : t.channel = some id)
    (hpumps : Pumps id s.relay t)
    (hsame : (t.attempt id).pump = (s.relay.attempt id).pump) : Inv w (s.after e t) := by
  have htells : tells s e = false := tells_of_none hpump
  have hall : ∀ j, (t.attempt j).pump = (s.relay.attempt j).pump := by
    intro j
    by_cases hj : j = id
    · rw [hj]
      exact hsame
    · exact hpumps.others j hj
  cases h.books with
  | none hsessions hsince hidle =>
    refine stay_none h hsound hconnects htells hsessions hsince fun j => ?_
    rw [hall]
    exact hidle j
  | up id' since hsessions hsince hchannel hrunning hidle =>
    cases hbefore.symm.trans hchannel
  | leaving id' since hsessions hsince hchannel hclosing hnoting hidle =>
    refine stay_leaving h hsound hconnects htells hsessions hsince ?_ ?_ (.inl hnoting)
      fun j hj => ?_
    · intro hsome
      cases hinstalled.symm.trans hsome
      rw [hoff] at hclosing
      cases hclosing
    · rw [hall]
      exact hclosing
    · rw [hall]
      exact hidle j hj

/-- Only the pump of the established session runs. -/
theorem up_of_running (h : Inv w s) (hrunning : isRunning (s.relay.attempt id).pump = true) :
    ∃ since, s.account.sessions = [(id, since)] ∧ s.policy.connectedSince = some (since + w) ∧
      s.relay.channel = some id ∧ ∀ j, j ≠ id → Idle (s.relay.attempt j).pump := by
  cases h.books with
  | none hsessions hsince hidle => exact ((hidle id).not_running hrunning).elim
  | up id' since hsessions hsince hchannel hrunning' hidle =>
    by_cases hid : id = id'
    · rw [hid]
      exact ⟨since, hsessions, hsince, hchannel, hidle⟩
    · exact ((hidle id hid).not_running hrunning).elim
  | leaving id' since hsessions hsince hchannel hclosing hnoting hidle =>
    by_cases hid : id = id'
    · cases hpump : (s.relay.attempt id').pump with
      | closing after =>
        rw [hid, hpump] at hrunning
        cases hrunning
      | _ =>
        rw [hpump] at hclosing
        cases hclosing
    · exact ((hidle id hid).not_running hrunning).elim

theorem inv_goesOn (h : Inv w s) (hs : s.relay.step e = some t) (hsound : Sound t)
    (hconnects : connects s.relay e = none) (hpump : pumpOf e = some id)
    (hrunning : isRunning (s.relay.attempt id).pump = true)
    (hsame : t.channel = s.relay.channel) (hpumps : Pumps id s.relay t)
    (hafter : isRunning (t.attempt id).pump = true) : Inv w (s.after e t) := by
  obtain ⟨since, hsessions, hsince, hchannel, hidle⟩ := up_of_running h hrunning
  refine stay_up h hsound hconnects (tells_of_running hs hpump hrunning) hsessions hsince
    (hsame.trans hchannel) hafter fun j hj => ?_
  rw [hpumps.others j hj]
  exact hidle j hj

/-- The pump of the established session closes it, and is to tell the policy. -/
theorem inv_closes (h : Inv w s) (hclean : clean s (.relay e) = true)
    (hs : s.relay.step e = some t) (hsound : Sound t) (hconnects : connects s.relay e = none)
    (hpump : pumpOf e = some id) (hrunning : isRunning (s.relay.attempt id).pump = true)
    (hgone : t.channel = none) (hpumps : Pumps id s.relay t)
    (hafter : isClosing (t.attempt id).pump = true) : Inv w (s.after e t) := by
  obtain ⟨since, hsessions, hsince, hchannel, hidle⟩ := up_of_running h hrunning
  have hleft : t.channel ≠ some id := by
    rw [hgone]
    exact (Option.some_ne_none id).symm
  have hnotes := (not_silent hclean hs hchannel hrunning).resolve_left hleft
  refine stay_leaving h hsound hconnects (tells_of_running hs hpump hrunning) hsessions hsince
    hleft hafter (.inr hnotes) fun j hj => ?_
  rw [hpumps.others j hj]
  exact hidle j hj

theorem inv_succeeds (h : Inv w s) (hclean : clean s (.relay e) = true) (hsound : Sound t)
    (hconnects : connects s.relay e = some id) (hpump : pumpOf e = none)
    (hcurrent : s.relay.channel = some id) (hsame : t.channel = s.relay.channel)
    (hpumps : Pumps id s.relay t) (hreading : (t.attempt id).pump = .reading) :
    Inv w (s.after e t) := by
  have hsessions : s.account.sessions = [] := by
    simp only [clean, hconnects, Bool.and_eq_true, Option.isNone_some, Bool.false_or] at hclean
    exact List.isEmpty_iff.mp hclean.2
  have hidle : ∀ j, Idle (s.relay.attempt j).pump := by
    cases h.books with
    | none _ _ hidle => exact hidle
    | up id' since hup => cases hsessions.symm.trans hup
    | leaving id' since hleaving => cases hsessions.symm.trans hleaving
  have hchannel : t.channel = some id := hsame.trans hcurrent
  have hnote : s.note e s.policy = s.policy.noteConnected s.wall := by
    unfold Service.note
    rw [hconnects, tells_of_none hpump]
    rfl
  have hkeep : s.keep e t s.account = s.account.begin id s.now := by
    unfold Service.keep
    rw [hconnects]
    refine settle_still fun session hsession => ?_
    have hbegun : session ∈ (id, s.now) :: s.account.sessions := hsession
    rw [hsessions] at hbegun
    cases List.mem_singleton.mp hbegun
    exact not_ended_of_current hchannel
  refine ⟨?_, after_wall h.wall, .up id s.now ?_ ?_ ?_ ?_ fun j hj => ?_, agrees_after ?_⟩
  · rw [after_relay]
    exact hsound
  · rw [after_sessions, hkeep, Account.begin, hsessions]
  · rw [after_since, hnote]
    exact congrArg some h.wall
  · rw [after_relay]
    exact hchannel
  · rw [after_relay, hreading]
    rfl
  · rw [after_relay, hpumps.others j hj]
    exact hidle j
  · rw [hnote, hkeep]
    exact ⟨h.agrees.attempt, h.agrees.ended⟩

theorem leaving_of_closing (h : Inv w s) (hclosing : isClosing (s.relay.attempt id).pump = true) :
    ∃ since, s.account.sessions = [(id, since)] ∧ s.policy.connectedSince = some (since + w) ∧
      s.relay.channel ≠ some id ∧ s.noting id = true ∧
      ∀ j, j ≠ id → Idle (s.relay.attempt j).pump := by
  cases h.books with
  | none hsessions hsince hidle => exact ((hidle id).not_closing hclosing).elim
  | up id' since hsessions hsince hchannel hrunning hidle =>
    by_cases hid : id = id'
    · cases hpump : (s.relay.attempt id').pump with
      | closing after =>
        rw [hpump] at hrunning
        cases hrunning
      | _ =>
        rw [hid, hpump] at hclosing
        cases hclosing
    · exact ((hidle id hid).not_closing hclosing).elim
  | leaving id' since hsessions hsince hchannel hclosing' hnoting hidle =>
    by_cases hid : id = id'
    · rw [hid]
      exact ⟨since, hsessions, hsince, hchannel, hnoting, hidle⟩
    · exact ((hidle id hid).not_closing hclosing).elim

/-- The policy hears of the end, and the account takes the session. -/
theorem inv_closed (h : Inv w s) (hsound : Sound t) (hconnects : connects s.relay e = none)
    (he : e = .pumpClosed id) (hclosing : isClosing (s.relay.attempt id).pump = true)
    (hsame : t.channel = s.relay.channel) (hpumps : Pumps id s.relay t)
    (hdone : (t.attempt id).pump = .done) : Inv w (s.after e t) := by
  obtain ⟨since, hsessions, hsince, hchannel, hnoting, hidle⟩ := leaving_of_closing h hclosing
  have hnote : s.note e s.policy = s.policy.noteDisconnected s.wall := by
    unfold Service.note
    rw [hconnects, he]
    show (if s.noting id = true then _ else _) = _
    rw [if_pos hnoting]
    rfl
  have hended : hasEnded t (id, since) = true := by
    unfold hasEnded
    rw [hdone, Bool.and_eq_true, bne_iff_ne, hsame]
    exact ⟨hchannel, rfl⟩
  have hkeep : s.keep e t s.account = {
      sessions := []
      lastEnd := some s.now
      attempt :=
        if stableConnectionThreshold ≤ s.now - since then 0 else s.account.attempt } := by
    unfold Service.keep
    rw [hconnects]
    exact settle_ended hsessions hended
  refine ⟨?_, after_wall h.wall, .none ?_ ?_ fun j => ?_, agrees_after ?_⟩
  · rw [after_relay]
    exact hsound
  · rw [after_sessions, hkeep]
  · rw [after_since, hnote]
    rfl
  · rw [after_relay]
    by_cases hj : j = id
    · rw [hj, hdone]
      exact ⟨rfl, rfl⟩
    · rw [hpumps.others j hj]
      exact hidle j hj
  · rw [hnote, hkeep]
    have hlong : (stableConnectionThreshold : Int) ≤ s.wall - (since + w) ↔
        stableConnectionThreshold ≤ s.now - since := by
      rw [h.wall]
      unfold stableConnectionThreshold second
      omega
    refine ⟨?_, congrArg some h.wall⟩
    unfold Policy.noteDisconnected
    rw [hsince, h.agrees.attempt]
    simp only [Option.any_some, decide_eq_true_eq, hlong]

theorem inv_relay (h : Inv w s) (hclean : clean s (.relay e) = true)
    (hs : s.relay.step e = some t) : Inv w (s.after e t) := by
  have hsound : Sound t := h.sound.step hs
  cases step_kind h.sound.isolation h.sound.unmade h.sound.settled h.sound.handed hs with
  | steady hconnects hpump hsteady =>
    exact inv_steady h hclean hs hsound hconnects hpump hsteady
  | installs hconnects hpump id hbefore hoff hchannel hpumps hsame =>
    exact inv_installs h hsound hconnects hpump hbefore hoff hchannel hpumps hsame
  | succeeds id hconnects hpump hcurrent hmade hoff hchannel hpumps hreading =>
    exact inv_succeeds h hclean hsound hconnects hpump hcurrent hchannel hpumps hreading
  | goesOn hconnects id hpump hrunning hchannel hpumps hafter =>
    exact inv_goesOn h hs hsound hconnects hpump hrunning hchannel hpumps hafter
  | leaves hconnects id hpump hrunning hbefore hchannel hpumps hafter =>
    obtain ⟨since, hsessions, hsince, hcurrent, hidle⟩ := up_of_running h hrunning
    exact (hbefore hcurrent).elim
  | closes hconnects id hpump hrunning hbefore hchannel hpumps hafter =>
    exact inv_closes h hclean hs hsound hconnects hpump hrunning hchannel hpumps hafter
  | closed hconnects id he hclosing hchannel hpumps hafter =>
    exact inv_closed h hsound hconnects he hclosing hchannel hpumps hafter

end Steps

theorem inv_start (appLockEnabled : Bool) (wall : Int) : Inv wall (.start appLockEnabled wall) where
  sound := sound_start appLockEnabled
  wall := (Int.zero_add wall).symm
  books := .none rfl rfl fun _ => ⟨rfl, rfl⟩
  agrees := ⟨rfl, rfl⟩

theorem relay_of_step {s u : Service} {e : RelayConnection.Event} (hs : step s (.relay e) = some u) :
    allowed s e = true ∧ ∃ t, s.relay.step e = some t ∧ u = s.after e t := by
  simp only [step] at hs
  split at hs
  · next hallowed =>
    obtain ⟨t, ht, hu⟩ := Option.map_eq_some_iff.mp hs
    exact ⟨hallowed, t, ht, hu.symm⟩
  · cases hs

theorem inv_step {w : Int} {s u : Service} {e : Event} (h : Inv w s) (hclean : clean s e = true)
    (hs : step s e = some u) : Inv w u := by
  cases e with
  | elapse duration wall =>
    cases hs
    have hwall : wall = ((s.now + duration : Nat) : Int) + w := by
      have hnow := h.wall
      have hstep : wall = s.wall + duration := of_decide_eq_true hclean
      omega
    refine ⟨h.sound, hwall, ?_, h.agrees⟩
    cases h.books with
    | none hsessions hsince hidle => exact .none hsessions hsince hidle
    | up id since hsessions hsince hchannel hrunning hidle =>
      exact .up id since hsessions hsince hchannel hrunning hidle
    | leaving id since hsessions hsince hchannel hclosing hnoting hidle =>
      exact .leaving id since hsessions hsince hchannel hclosing hnoting hidle
  | relay e =>
    obtain ⟨-, t, ht, rfl⟩ := relay_of_step hs
    exact inv_relay h hclean ht

section Refusal

variable {w : Int} {s u : Service} {id : Nat} {staleSlot : Bool}

theorem schedule_pending {r : RelayConnection} (h : canSchedule r = true) :
    ∃ params, r.scheduleReconnect.reconnectTimer = .pending params := by
  unfold canSchedule at h
  rw [Bool.and_eq_true, Bool.not_eq_true'] at h
  obtain ⟨params, hparams⟩ := Option.isSome_iff_exists.mp h.1
  unfold RelayConnection.scheduleReconnect
  rw [hparams, h.2]
  exact ⟨params, rfl⟩

end Refusal

def home : Address := ⟨"wss://relay".toList, "handle".toList⟩

def session : List RelayConnection.Event :=
  [.unlock, .connect home (.reconnect ['k']), .oldClosed 0, .opened 0 true, .registered 0 .joined,
    .handshook 0 true, .firstFrame 0 .good ['k'], .deviceInfoSent 0, .returns 0 false]

/-- An attempt of the timer that finds the Host in use. -/
def refusal (id : Nat) (staleSlot : Bool) : List RelayConnection.Event :=
  [.timerFires, .oldClosed id, .opened id true, .registered id (.refused .hostInUse),
    .iteratorCancelled id, .closed id, .returns id staleSlot]

/-- The pump closes on a fragment that did not come, and does not tell the policy. -/
def timeout : List Event :=
  session.map .relay ++ [.relay (.timedOut 0), .relay (.pumpClosed 0),
      .elapse second second] ++
    (refusal 1 false).map .relay

end HerdrMobile.App.StaleSlot
