import HerdrMobile.App.Frames

/-!
# The reconnects that nobody asked for

An automatic attempt comes from the reconnect timer, or from the flag that a session is to be
opened again on the return. Both outlive the session they are about, and so do the saved
parameters. A run is watched for the computer that the last explicit `connect` asked for.
-/
namespace HerdrMobile.App.Wanted

open HerdrMobile.Lib.Run HerdrMobile.App.Connection HerdrMobile.App.Frames
open HerdrMobile.Proto.Messages

set_option autoImplicit false

/-- The connection with the attempt of the last explicit `connect`, and the key of the computer
that this attempt has reached. -/
structure Watched where
  connection : RelayConnection
  last : Option Nat
  key : Option Text

def Watched.start (appLockEnabled : Bool) : Watched := ⟨.start appLockEnabled, none, none⟩

/-- The key that an attempt is installed with is the one of its computer. -/
def keyAfter (o : Watched) (s : RelayConnection) : RelayConnection.Event → Option Text
  | .connect _ _ => none
  | .firstFrame id _ key =>
    if o.last = some id ∧ (s.attempt id).installed = true then o.key.or (some key) else o.key
  | _ => o.key

def lastAfter (o : Watched) : RelayConnection.Event → Option Nat
  | .connect _ _ => some o.connection.made
  | _ => o.last

def Watched.step (o : Watched) (e : RelayConnection.Event) : Option Watched :=
  (o.connection.step e).map fun s => ⟨s, lastAfter o e, keyAfter o s e⟩

/-- The computer is the one that was asked for. -/
def asksFor (asked : Option (Address × Mode)) (key : Option Text) (p : Params) : Bool :=
  match asked with
  | none => false
  | some (address, .pairing) => p.address == address && key == some p.pinnedHostKey
  | some (address, .reconnect remoteStaticPublicKey) =>
    p.address == address && p.pinnedHostKey == remoteStaticPublicKey

/-- An attempt to reach this computer is wanted: the last explicit `connect` asked for it, and
neither the person nor a refusal nor a revocation has ended the connection since. -/
def wanted (key : Option Text) (s : RelayConnection) (p : Params) : Bool :=
  !s.ended && asksFor s.asked key p

/-- The step begins an attempt that is not the person's. -/
def Automatic (s t : RelayConnection) : Prop :=
  s.made < t.made ∧ (t.attempt s.made).caller ≠ .person

instance {s t : RelayConnection} : Decidable (Automatic s t) :=
  inferInstanceAs (Decidable (_ ∧ _))

/-- The saved computer, if there is one, is wanted. -/
def savedWanted (key : Option Text) (s : RelayConnection) : Bool :=
  s.lastParams.all (wanted key s)

def timerWanted (key : Option Text) (s : RelayConnection) : Bool :=
  match s.reconnectTimer with
  | .pending p => wanted key s p
  | _ => true

/-- A `connect` of now takes its generation at once. -/
def takesHold (s : RelayConnection) : Bool :=
  !(s.disposed || s.backgrounded || s.gate.isLocked) && !s.gate.locked

/-- `_scheduleReconnect` goes through where there is a saved computer. -/
def schedules (s : RelayConnection) : Bool := !(s.disposed || s.backgrounded || s.gate.isLocked)

/-- No reconnect is to come. -/
def unarmed (s : RelayConnection) : Bool :=
  (match s.reconnectTimer with
    | .pending _ => false
    | _ => true) &&
  !(s.wasConnectedBeforeBackground && s.lastParams.isSome)

/-- A lock remembers the session of now, or the attempt. -/
def remembers (s : RelayConnection) : Bool :=
  s.gate.isLocked && s.observed && !s.disposed && (s.isConnected || s.pendingChannel.isSome)

/-- A reconnect is armed for a wanted computer only. What ends the connection finds none armed,
and an explicit `connect` none for another computer, but those that it cancels. -/
def clear (o : Watched) : RelayConnection.Event → Bool
  | .connect address mode =>
    let s := { o.connection with asked := some (address, mode), ended := false }
    (takesHold s || timerWanted none s) &&
      (!s.wasConnectedBeforeBackground || takesHold s && mode == .pairing || savedWanted none s)
  | .paused => !o.connection.isConnected || savedWanted o.key o.connection
  | .lock =>
    let s := { o.connection with gate := ⟨o.connection.gate.appLockEnabled, true,
      o.connection.gate.lockGeneration + 1⟩ }
    !remembers s || savedWanted o.key s
  | .setAppLockEnabled value =>
    let s := { o.connection with gate := { o.connection.gate with appLockEnabled := value } }
    o.connection.gate.appLockEnabled == value || !remembers s || savedWanted o.key s
  | .networkStable =>
    !schedules o.connection || o.connection.isConnected ||
      o.connection.reconnectTimer != Timer.idle || savedWanted o.key o.connection
  | .firstFrame id frame key =>
    frame != .good || (o.connection.checkAttempt id).isSome ||
      !o.connection.wasConnectedBeforeBackground ||
      wanted (if o.last = some id then o.key.or (some key) else o.key) o.connection
        ⟨(o.connection.attempt id).address, key⟩
  | .returns id staleSlot =>
    match (o.connection.attempt id).caller, (o.connection.attempt id).phase with
    | .timer, .returned (.err cause) =>
      match RelayConnection.afterFailure cause staleSlot with
      | .reuseHandle => !schedules o.connection || savedWanted o.key o.connection
      | .stop => unarmed o.connection
    | _, _ => true
  | .decoded id (.fatal true) =>
    o.connection.channel != some id || unarmed o.connection
  | .streamClosed id true => o.connection.channel != some id || unarmed o.connection
  | .pumpClosed id =>
    (o.connection.attempt id).pump != .closing .reschedule || !schedules o.connection ||
      savedWanted o.key o.connection
  | _ => true

/-- What is armed is wanted. -/
structure Safe (key : Option Text) (s : RelayConnection) : Prop where
  timer : ∀ p, s.reconnectTimer = .pending p → wanted key s p = true
  flag : s.wasConnectedBeforeBackground = true → ∀ p, s.lastParams = some p →
    wanted key s p = true

section Operations

variable {s t u : RelayConnection} {id : Nat} {key : Option Text}

structure Calm (s t : RelayConnection) : Prop where
  made : t.made = s.made
  asked : t.asked = s.asked
  ended : t.ended = s.ended
  timer : ∀ p, t.reconnectTimer = .pending p → s.reconnectTimer = .pending p
  flag : t.wasConnectedBeforeBackground = true → s.wasConnectedBeforeBackground = true
  saved : ∀ p, t.lastParams = some p → s.lastParams = some p
  who : ∀ j, (t.attempt j).caller = (s.attempt j).caller ∧
    (t.attempt j).address = (s.attempt j).address ∧ (t.attempt j).mode = (s.attempt j).mode

theorem Calm.trans (h : Calm s t) (h' : Calm t u) : Calm s u where
  made := h'.made.trans h.made
  asked := h'.asked.trans h.asked
  ended := h'.ended.trans h.ended
  timer p hp := h.timer p (h'.timer p hp)
  flag hf := h.flag (h'.flag hf)
  saved p hp := h.saved p (h'.saved p hp)
  who j := by
    obtain ⟨hcaller, haddress, hmode⟩ := h.who j
    obtain ⟨hcaller', haddress', hmode'⟩ := h'.who j
    exact ⟨hcaller'.trans hcaller, haddress'.trans haddress, hmode'.trans hmode⟩

/-- Nothing that the law speaks of differs. -/
theorem calm_same (hmade : t.made = s.made) (hasked : t.asked = s.asked)
    (hended : t.ended = s.ended) (htimer : t.reconnectTimer = s.reconnectTimer)
    (hflag : t.wasConnectedBeforeBackground = s.wasConnectedBeforeBackground)
    (hsaved : t.lastParams = s.lastParams) (hattempt : t.attempt = s.attempt) : Calm s t where
  made := hmade
  asked := hasked
  ended := hended
  timer p hp := htimer ▸ hp
  flag hf := hflag ▸ hf
  saved p hp := hsaved ▸ hp
  who j := by
    rw [hattempt]
    exact ⟨rfl, rfl, rfl⟩

theorem calm_refl (s : RelayConnection) : Calm s s := calm_same rfl rfl rfl rfl rfl rfl rfl

theorem calm_set {a : Attempt} (hcaller : a.caller = (s.attempt id).caller)
    (haddress : a.address = (s.attempt id).address) (hmode : a.mode = (s.attempt id).mode) :
    Calm s (s.set id a) where
  made := rfl
  asked := rfl
  ended := rfl
  timer _ hp := hp
  flag hf := hf
  saved _ hp := hp
  who j := by
    by_cases hj : j = id
    · rw [hj, s.attempt_set]
      exact ⟨hcaller, haddress, hmode⟩
    · rw [s.attempt_set_of_ne a hj]
      exact ⟨rfl, rfl, rfl⟩

theorem calm_goto {phase : Phase} : Calm s (s.goto id phase) := calm_set rfl rfl rfl

theorem calm_turn {pump : Pump} : Calm s (s.turn id pump) := calm_set rfl rfl rfl

theorem calm_askClose : Calm s (s.askClose id) := calm_set rfl rfl rfl

theorem calm_course : Course Calm where
  trans := Calm.trans
  askClose _ _ := calm_askClose
  drop _ _ := calm_same rfl rfl rfl rfl rfl rfl rfl
  move _ _ _ _ := calm_set rfl rfl rfl
  pend {s id} _ := by
    have hpending : Calm s { s with pendingChannel := some id } :=
      calm_same rfl rfl rfl rfl rfl rfl rfl
    exact hpending.trans (calm_set rfl rfl rfl)

theorem calm_succeeds (s : RelayConnection) (id : Nat) :
    Calm s ({ s with connected := id :: s.connected }.set id
      { s.attempt id with phase := .returned .ok, pump := .reading }) := by
  have hconnected : Calm s { s with connected := id :: s.connected } :=
    calm_same rfl rfl rfl rfl rfl rfl rfl
  exact hconnected.trans (calm_set rfl rfl rfl)

/-- The timer is cancelled. -/
theorem calm_overtake (h : Calm s t) : Calm s { t with
    generation := t.generation + 1, reconnectTimer := .idle, pendingChannel := none } := by
  refine ⟨h.made, h.asked, h.ended, ?_, h.flag, h.saved, h.who⟩
  intro p hp
  cases hp

theorem calm_interrupt (s : RelayConnection) : Calm s s.interruptPendingConnection := by
  unfold RelayConnection.interruptPendingConnection
  split
  · exact calm_overtake (calm_refl s)
  · exact calm_overtake calm_askClose

theorem interrupt_timer (s : RelayConnection) :
    s.interruptPendingConnection.reconnectTimer = .idle := rfl

theorem calm_close (s : RelayConnection) (frame : Bool) : Calm s (s.closeCurrentSocket frame) := by
  have hnone : Calm s { s with channel := none } := calm_same rfl rfl rfl rfl rfl rfl rfl
  unfold RelayConnection.closeCurrentSocket
  split
  · exact calm_refl s
  · dsimp only
    split
    · exact hnone.trans (calm_set rfl rfl rfl)
    · exact hnone.trans calm_askClose

theorem calm_forgetFor (s : RelayConnection) : Calm s (s.forgetFor id) := by
  unfold RelayConnection.forgetFor
  split
  · refine ⟨rfl, rfl, rfl, fun _ hp => hp, ?_, ?_, fun _ => ⟨rfl, rfl, rfl⟩⟩
    · intro hf
      cases hf
    · intro p hp
      cases hp
  · exact calm_refl s

theorem calm_begin (s : RelayConnection) : Calm s (s.begin id) := by
  unfold RelayConnection.begin
  split
  · exact calm_goto
  · split
    · exact calm_goto
    · have htake : Calm s (s.interruptPendingConnection.take id) :=
        (calm_interrupt s).trans (calm_set rfl rfl rfl)
      exact (htake.trans (calm_forgetFor _)).trans (calm_close _ false)

/-- One attempt more, and nothing armed. -/
structure Pushes (caller : Caller) (address : Address) (mode : Mode) (s t : RelayConnection) :
    Prop where
  made : t.made = s.made + 1
  asked : t.asked = s.asked
  ended : t.ended = s.ended
  timer : ∀ p, t.reconnectTimer = .pending p → s.reconnectTimer = .pending p
  flag : t.wasConnectedBeforeBackground = true → s.wasConnectedBeforeBackground = true
  saved : ∀ p, t.lastParams = some p → s.lastParams = some p
  caller : (t.attempt s.made).caller = caller
  address : (t.attempt s.made).address = address
  mode : (t.attempt s.made).mode = mode

theorem Pushes.calm {caller : Caller} {address : Address} {mode : Mode}
    (h : Pushes caller address mode s t) (h' : Calm t u) : Pushes caller address mode s u where
  made := h'.made.trans h.made
  asked := h'.asked.trans h.asked
  ended := h'.ended.trans h.ended
  timer p hp := h.timer p (h'.timer p hp)
  flag hf := h.flag (h'.flag hf)
  saved p hp := h.saved p (h'.saved p hp)
  caller := (h'.who s.made).1.trans h.caller
  address := (h'.who s.made).2.1.trans h.address
  mode := (h'.who s.made).2.2.trans h.mode

theorem pushes_push (s : RelayConnection) (caller : Caller) (address : Address) (mode : Mode)
    (phase : Phase) : Pushes caller address mode s (s.push caller address mode phase) := by
  have hat : (s.push caller address mode phase).attempt s.made =
      .new caller address mode phase s.asked s.ended :=
    RelayConnection.attempt_set _ s.made _
  refine ⟨rfl, rfl, rfl, fun _ hp => hp, fun hf => hf, fun _ hp => hp, ?_, ?_, ?_⟩
  · rw [hat]
    rfl
  · rw [hat]
    rfl
  · rw [hat]
    rfl

theorem pushes_connect (s : RelayConnection) (caller : Caller) (address : Address) (mode : Mode) :
    Pushes caller address mode s (s.connect caller address mode) := by
  unfold RelayConnection.connect
  split
  · exact pushes_push s caller address mode _
  · have hpush := pushes_push { s with observed := true } caller address mode .unlocking
    have hsame : Pushes caller address mode s
        ({ s with observed := true }.push caller address mode .unlocking) :=
      ⟨hpush.made, hpush.asked, hpush.ended, hpush.timer, hpush.flag, hpush.saved, hpush.caller,
        hpush.address, hpush.mode⟩
    dsimp only
    split
    · exact hsame
    · exact hsame.calm (calm_begin _)

end Operations

section Armed

variable {s t : RelayConnection} {id : Nat} {key : Option Text}

theorem wanted_eq (hasked : t.asked = s.asked) (hended : t.ended = s.ended) (p : Params) :
    wanted key t p = wanted key s p := by
  rw [wanted, wanted, hasked, hended]

theorem Safe.of (h : Safe key s) (hasked : t.asked = s.asked) (hended : t.ended = s.ended)
    (htimer : ∀ p, t.reconnectTimer = .pending p → s.reconnectTimer = .pending p)
    (hflag : t.wasConnectedBeforeBackground = true → s.wasConnectedBeforeBackground = true)
    (hsaved : ∀ p, t.lastParams = some p → s.lastParams = some p) : Safe key t := by
  constructor
  · intro p hp
    rw [wanted_eq hasked hended]
    exact h.timer p (htimer p hp)
  · intro hf p hp
    rw [wanted_eq hasked hended]
    exact h.flag (hflag hf) p (hsaved p hp)

theorem Safe.calm (h : Safe key s) (hcalm : Calm s t) : Safe key t :=
  h.of hcalm.asked hcalm.ended hcalm.timer hcalm.flag hcalm.saved

theorem Safe.push {caller : Caller} {address : Address} {mode : Mode} (h : Safe key s)
    (hpush : Pushes caller address mode s t) : Safe key t :=
  h.of hpush.asked hpush.ended hpush.timer hpush.flag hpush.saved

theorem savedWanted_iff :
    savedWanted key s = true ↔ ∀ p, s.lastParams = some p → wanted key s p = true := by
  unfold savedWanted
  cases s.lastParams with
  | none => simp
  | some p => simp

theorem Safe.schedule (h : Safe key s) (hclear : schedules s = true → savedWanted key s = true) :
    Safe key s.scheduleReconnect := by
  unfold RelayConnection.scheduleReconnect
  split
  · exact h
  · rename_i params hsaved
    split
    · exact h
    · rename_i hblocked
      have hschedules : schedules s = true := by
        rw [schedules, Bool.eq_false_iff.mpr hblocked]
        rfl
      have hwanted := (savedWanted_iff).mp (hclear hschedules) params hsaved
      refine ⟨?_, h.flag⟩
      intro p hp
      cases hp
      exact hwanted

/-- What ends the connection leaves nothing armed. -/
theorem Safe.ends (hunarmed : unarmed s = true)
    (htimer : ∀ p, t.reconnectTimer = .pending p → s.reconnectTimer = .pending p)
    (hflag : t.wasConnectedBeforeBackground = true → s.wasConnectedBeforeBackground = true)
    (hsaved : ∀ p, t.lastParams = some p → s.lastParams = some p) : Safe key t := by
  rw [unarmed, Bool.and_eq_true] at hunarmed
  constructor
  · intro p hp
    rw [htimer p hp] at hunarmed
    cases hunarmed.1
  · intro hf p hp
    rw [hflag hf, hsaved p hp] at hunarmed
    cases hunarmed.2

/-- An attempt that reaches its computer makes no other one unwanted. -/
theorem wanted_or (k : Text) {p : Params} (h : wanted key s p = true) :
    wanted (key.or (some k)) s p = true := by
  cases key with
  | some known => exact h
  | none =>
    unfold wanted asksFor at h ⊢
    cases hasked : s.asked with
    | none =>
      rw [hasked] at h
      exact h
    | some asked =>
      rw [hasked] at h
      obtain ⟨address, mode⟩ := asked
      cases mode with
      | pairing => simp at h
      | reconnect remoteStaticPublicKey => exact h

theorem Safe.mono {key' : Option Text} (h : Safe key s)
    (hmono : ∀ p, wanted key s p = true → wanted key' s p = true) : Safe key' s :=
  ⟨fun p hp => hmono p (h.timer p hp), fun hf p hp => hmono p (h.flag hf p hp)⟩

/-- What one step comes to. -/
structure Sound (key key' : Option Text) (s t : RelayConnection) : Prop where
  safe : Safe key' t
  ended : s.ended = true → t.ended = true
  welcome : Automatic s t → ∃ p, (t.attempt s.made).address = p.address ∧
    (t.attempt s.made).mode = .reconnect p.pinnedHostKey ∧ wanted key s p = true

theorem Sound.of_made {key' : Option Text} (hsafe : Safe key' t)
    (hended : s.ended = true → t.ended = true) (hmade : t.made = s.made) :
    Sound key key' s t := by
  refine ⟨hsafe, hended, fun hauto => ?_⟩
  have hmore := hauto.1
  rw [hmade] at hmore
  exact absurd hmore (Nat.lt_irrefl _)

theorem Sound.of_calm (h : Safe key s) (hcalm : Calm s t) : Sound key key s t :=
  .of_made (h.calm hcalm) (fun hended => hcalm.ended.trans hended) hcalm.made

theorem Sound.of_push {caller : Caller} {p : Params} (h : Safe key s)
    (hpush : Pushes caller p.address (.reconnect p.pinnedHostKey) s t)
    (hwanted : wanted key s p = true) : Sound key key s t :=
  ⟨h.push hpush, fun hended => hpush.ended.trans hended,
    fun _ => ⟨p, hpush.address, hpush.mode, hwanted⟩⟩

theorem Sound.after {u : RelayConnection} {key' : Option Text} (hcalm : Calm s t)
    (h : Sound key key' t u) : Sound key key' s u := by
  refine ⟨h.safe, fun hended => h.ended (hcalm.ended.trans hended), fun hauto => ?_⟩
  have hmade := hcalm.made
  unfold Automatic at hauto
  rw [← hmade] at hauto ⊢
  obtain ⟨p, haddress, hmode, hwanted⟩ := h.welcome hauto
  refine ⟨p, haddress, hmode, ?_⟩
  rw [← wanted_eq hcalm.asked hcalm.ended]
  exact hwanted

theorem sound_schedule (h : Safe key s)
    (hclear : schedules s = true → savedWanted key s = true) :
    Sound key key s s.scheduleReconnect := by
  have hkept : s.scheduleReconnect.ended = s.ended ∧ s.scheduleReconnect.made = s.made := by
    unfold RelayConnection.scheduleReconnect
    split
    · exact ⟨rfl, rfl⟩
    · split
      · exact ⟨rfl, rfl⟩
      · exact ⟨rfl, rfl⟩
  exact .of_made (h.schedule hclear) (fun hended => hkept.1.trans hended) hkept.2

theorem sound_resumed (h : Safe key s) : Sound key key s s.resumed := by
  have hfront : Calm s { s with backgrounded := false } := calm_same rfl rfl rfl rfl rfl rfl rfl
  unfold RelayConnection.resumed
  dsimp only
  split
  · exact .of_calm h hfront
  · rename_i params hsaved
    split
    · rename_i hgoes
      rw [Bool.and_eq_true] at hgoes
      have hwanted : wanted key s params = true := h.flag hgoes.2 params hsaved
      have hpush := pushes_connect { s with
        backgrounded := false
        wasConnectedBeforeBackground := false
        reconnectTimer := if s.reconnectTimer = Timer.idle then .idle else .spent }
        .resume params.address (.reconnect params.pinnedHostKey)
      have htimer : ∀ p, (if s.reconnectTimer = Timer.idle then Timer.idle else .spent) ≠
          .pending p := by
        intro p hp
        split at hp
        · cases hp
        · cases hp
      refine .of_push h ⟨hpush.made, hpush.asked, hpush.ended, ?_, ?_, hpush.saved, hpush.caller,
        hpush.address, hpush.mode⟩ hwanted
      · exact fun p hp => absurd (hpush.timer p hp) (htimer p)
      · exact fun hf => absurd (hpush.flag hf) Bool.false_ne_true
    · exact .of_calm h hfront

theorem Safe.remember (h : Safe key s) {wasConnected : Bool}
    (hclear : wasConnected = true → s.wasConnectedBeforeBackground = true ∨
      savedWanted key s = true) : Safe key (s.remember wasConnected) := by
  refine ⟨h.timer, ?_⟩
  intro hf p hp
  obtain hflag | hwanted := hclear hf
  · exact h.flag hflag p hp
  · exact (savedWanted_iff).mp hwanted p hp

theorem sound_paused (h : Safe key s)
    (hclear : s.isConnected = true → savedWanted key s = true) : Sound key key s s.paused := by
  have haway : Calm s { s with backgrounded := true } := calm_same rfl rfl rfl rfl rfl rfl rfl
  have hback : Calm s { s with backgrounded := true }.interruptPendingConnection :=
    haway.trans (calm_interrupt _)
  have hkept : { s with backgrounded := true }.interruptPendingConnection.channel = s.channel ∧
      { s with backgrounded := true }.interruptPendingConnection.lastParams = s.lastParams := by
    unfold RelayConnection.interruptPendingConnection
    dsimp only
    split
    · exact ⟨rfl, rfl⟩
    · exact ⟨rfl, rfl⟩
  unfold RelayConnection.paused
  generalize { s with backgrounded := true }.interruptPendingConnection = t at hback hkept
  obtain ⟨hchannel, hsaved⟩ := hkept
  dsimp only
  split
  · rename_i hconnected
    have hwas : s.isConnected = true := by
      rw [RelayConnection.isConnected, ← hchannel]
      exact hconnected
    have hsafe : Safe key (t.remember true) := by
      refine (h.calm hback).remember fun _ => .inr ((savedWanted_iff).mpr fun p hp => ?_)
      rw [wanted_eq hback.asked hback.ended]
      rw [hsaved] at hp
      exact (savedWanted_iff).mp (hclear hwas) p hp
    have hclose := calm_close (t.remember true) true
    exact .of_made (hsafe.calm hclose)
      (fun hended => hclose.ended.trans (hback.ended.trans hended)) (hclose.made.trans hback.made)
  · exact .of_calm h hback

theorem sound_onGateChanged (h : Safe key s)
    (hclear : s.gate.isLocked = true → (s.isConnected || s.pendingChannel.isSome) = true →
      savedWanted key s = true) : Sound key key s s.onGateChanged := by
  unfold RelayConnection.onGateChanged
  split
  · rename_i hlocked
    have hsafe : Safe key (s.remember (s.wasConnectedBeforeBackground || s.isConnected ||
        (s.lastParams.isSome && s.pendingChannel.isSome))) := by
      refine h.remember fun hwas => ?_
      rw [Bool.or_eq_true, Bool.or_eq_true, Bool.and_eq_true] at hwas
      obtain (hflag | hconnected) | hpending := hwas
      · exact .inl hflag
      · exact .inr (hclear hlocked (by rw [hconnected, Bool.true_or]))
      · exact .inr (hclear hlocked (by rw [hpending.2, Bool.or_true]))
    generalize (s.wasConnectedBeforeBackground || s.isConnected ||
      (s.lastParams.isSome && s.pendingChannel.isSome)) = was at hsafe
    dsimp only
    have hcalm := (calm_interrupt (s.remember was)).trans (calm_close _ false)
    exact .of_made (hsafe.calm hcalm) (fun hended => hcalm.ended.trans hended) hcalm.made
  · split
    · exact sound_resumed h
    · exact .of_calm h (calm_refl s)

theorem sound_notify (h : Safe key s)
    (hclear : remembers s = true → savedWanted key s = true) : Sound key key s s.notify := by
  have hcount : Calm s (if s.gate.isLocked then { s with lockings := s.lockings + 1 } else s) := by
    split
    · exact calm_same rfl rfl rfl rfl rfl rfl rfl
    · exact calm_refl s
  have hkept : ∀ t, t = (if s.gate.isLocked then { s with lockings := s.lockings + 1 } else s) →
      t.gate = s.gate ∧ t.observed = s.observed ∧ t.disposed = s.disposed ∧
        t.channel = s.channel ∧ t.pendingChannel = s.pendingChannel ∧
        t.lastParams = s.lastParams := by
    rintro t rfl
    split
    · exact ⟨rfl, rfl, rfl, rfl, rfl, rfl⟩
    · exact ⟨rfl, rfl, rfl, rfl, rfl, rfl⟩
  unfold RelayConnection.notify
  generalize ht : (if s.gate.isLocked then { s with lockings := s.lockings + 1 } else s) = t
    at hcount
  obtain ⟨hgate, hobserved, hdisposed, hchannel, hpending, hsaved⟩ := hkept t ht.symm
  dsimp only
  split
  · rename_i hhears
    rw [hobserved, hdisposed] at hhears
    refine Sound.after hcount (sound_onGateChanged (h.calm hcount) fun hlocked hone => ?_)
    refine (savedWanted_iff).mpr fun p hp => ?_
    rw [wanted_eq hcount.asked hcount.ended]
    rw [hsaved] at hp
    refine (savedWanted_iff).mp (hclear ?_) p hp
    rw [RelayConnection.isConnected, hchannel, hpending] at hone
    rw [hgate] at hlocked
    rw [Bool.and_eq_true] at hhears
    rw [remembers, hlocked, hhears.1, hhears.2, RelayConnection.isConnected, hone]
    rfl
  · exact .of_calm h hcount

theorem sound_networkStable (h : Safe key s)
    (hclear : schedules s = true → s.isConnected = false → s.reconnectTimer = .idle →
      savedWanted key s = true) : Sound key key s s.onNetworkStable := by
  unfold RelayConnection.onNetworkStable
  split
  · rename_i hgoes
    simp only [Bool.and_eq_true, Bool.not_eq_true', beq_iff_eq] at hgoes
    obtain ⟨⟨-, hidle⟩, htimer⟩ := hgoes
    exact sound_schedule h fun hschedules => hclear hschedules hidle htimer
  · exact .of_calm h (calm_refl s)

theorem sound_disconnect (s : RelayConnection) : Sound key key s s.disconnect := by
  have hcalm : Calm { s.remember false with ended := true, stopped := true } s.disconnect :=
    (calm_interrupt _).trans (calm_close _ true)
  have hsafe : Safe key s.disconnect := by
    have hbefore : Safe key
        { s.remember false with ended := true, stopped := true }.interruptPendingConnection := by
      refine ⟨fun p hp => ?_, fun hf => ?_⟩
      · rw [interrupt_timer] at hp
        cases hp
      · exact absurd ((calm_interrupt _).flag hf) Bool.false_ne_true
    exact hbefore.calm (calm_close _ true)
  exact .of_made hsafe (fun _ => hcalm.ended) hcalm.made

theorem sound_cancel (h : Safe key s) : Sound key key s (s.cancel id) := by
  have hset : Calm s (s.set id { s.attempt id with cancelled := true }) := calm_set rfl rfl rfl
  unfold RelayConnection.cancel
  generalize s.set id { s.attempt id with cancelled := true } = t at hset
  dsimp only
  split
  · have hnone : Safe key { t with
        lastParams := none, wasConnectedBeforeBackground := false, reconnectTimer := .idle,
        ended := true, stopped := true } := by
      refine ⟨fun p hp => ?_, fun hf => absurd hf Bool.false_ne_true⟩
      cases hp
    have hclose := calm_close { t with
        lastParams := none, wasConnectedBeforeBackground := false, reconnectTimer := .idle,
        ended := true, stopped := true } false
    exact .of_made (hnone.calm hclose) (fun _ => hclose.ended) (hclose.made.trans hset.made)
  · split
    · exact .of_calm h (hset.trans calm_askClose)
    · exact .of_calm h hset

/-- The saved computer is now the one of the attempt. -/
theorem sound_install {key' : Option Text} {k : Text} (h : Safe key s)
    (hmono : ∀ p, wanted key s p = true → wanted key' s p = true)
    (hclear : s.wasConnectedBeforeBackground = true →
      wanted key' s ⟨(s.attempt id).address, k⟩ = true) :
    Sound key key' s (s.install id k) := by
  refine .of_made ⟨?_, ?_⟩ (fun hended => hended) rfl
  · exact fun p hp => hmono p (h.timer p hp)
  · intro hf p hp
    cases hp
    exact hclear hf

theorem sound_returns {result : Result} {staleSlot : Bool} (h : Safe key s)
    (hreuse : ∀ cause, (s.attempt id).caller = .timer → result = .err cause →
      RelayConnection.afterFailure cause staleSlot = .reuseHandle → schedules s = true →
      savedWanted key s = true)
    (hstop : ∀ cause, (s.attempt id).caller = .timer → result = .err cause →
      RelayConnection.afterFailure cause staleSlot = .stop → unarmed s = true) :
    Sound key key s (s.returns id result staleSlot) := by
  have hgoto : Calm s (s.goto id (.over result)) := calm_goto
  unfold RelayConnection.returns
  dsimp only
  split
  · rename_i cause hcaller
    split
    · rename_i hstep
      refine Sound.after hgoto (sound_schedule (h.calm hgoto) fun hschedules => ?_)
      exact hreuse cause hcaller rfl hstep hschedules
    · rename_i hstep
      have hunarmed := hstop cause hcaller rfl hstep
      exact .of_made (Safe.ends hunarmed hgoto.timer hgoto.flag hgoto.saved) (fun _ => rfl)
        hgoto.made
  · exact .of_calm h hgoto

theorem sound_pumpEnds {revoked : Bool} (h : Safe key s)
    (hclear : revoked = true → s.channel = some id → unarmed s = true) :
    Sound key key s (s.pumpEnds id revoked) := by
  unfold RelayConnection.pumpEnds
  split
  · rename_i hcurrent
    have hcalm : Calm s ((s.closeCurrentSocket false).turn id
        (.closing (if revoked then .revoked else .reschedule))) :=
      (calm_close s false).trans calm_turn
    generalize (s.closeCurrentSocket false).turn id
      (.closing (if revoked then .revoked else .reschedule)) = t at hcalm
    cases revoked with
    | true =>
      have hsafe : Safe key { t with
          ended := s.ended || true
          stopped := s.stopped || true } :=
        Safe.ends (hclear rfl hcurrent) hcalm.timer hcalm.flag hcalm.saved
      exact .of_made hsafe (fun _ => Bool.or_true _) hcalm.made
    | false =>
      have hsafe : Safe key { t with
          ended := s.ended || false
          stopped := s.stopped || false } :=
        h.of hcalm.asked (Bool.or_false _) hcalm.timer hcalm.flag hcalm.saved
      exact .of_made hsafe (fun hended => (Bool.or_false _).trans hended) hcalm.made
  · exact .of_calm h calm_turn

theorem sound_received (h : Safe key s) : Sound key key s (s.received id) := by
  unfold RelayConnection.received
  split
  · exact .of_calm h calm_turn
  · exact sound_pumpEnds h fun hrevoked => absurd hrevoked Bool.false_ne_true

theorem sound_decoded {outcome : RelayConnection.Decoded} (h : Safe key s)
    (hclear : outcome = .fatal true → s.channel = some id → unarmed s = true) :
    Sound key key s (s.decoded id outcome) := by
  have hbroadcast : Calm s (s.broadcast id) := calm_same rfl rfl rfl rfl rfl rfl rfl
  unfold RelayConnection.decoded
  split
  · cases outcome with
    | nothing => exact .of_calm h calm_turn
    | message => exact .of_calm h (hbroadcast.trans calm_turn)
    | violation => exact sound_pumpEnds h fun hrevoked => absurd hrevoked Bool.false_ne_true
    | fatal revoked =>
      refine Sound.after hbroadcast (sound_pumpEnds (h.calm hbroadcast) ?_)
      intro hrevoked hcurrent
      exact hclear (congrArg _ hrevoked) hcurrent
  · exact sound_pumpEnds h fun hrevoked => absurd hrevoked Bool.false_ne_true

theorem sound_pumpClosed {after : After} (h : Safe key s)
    (hclear : after = .reschedule → schedules s = true → savedWanted key s = true) :
    Sound key key s (s.pumpClosed id after) := by
  have hturn : Calm s (s.turn id .done) := calm_turn
  cases after with
  | reschedule => exact Sound.after hturn (sound_schedule (h.calm hturn) (hclear rfl))
  | revoked =>
    have hnone : Calm (s.turn id .done) { s.turn id .done with lastParams := none } := by
      refine ⟨rfl, rfl, rfl, fun _ hp => hp, fun hf => hf, ?_, fun _ => ⟨rfl, rfl, rfl⟩⟩
      intro p hp
      cases hp
    exact .of_calm h (hturn.trans hnone)

theorem calm_deliver (s : RelayConnection) (m : Broadcast) : Calm s (s.deliver m) := by
  unfold RelayConnection.deliver
  split
  · exact calm_same rfl rfl rfl rfl rfl rfl rfl
  · exact calm_refl s

end Armed

section Step

variable {o : Watched} {t : RelayConnection} {e : RelayConnection.Event}

theorem sound_firstFrame {id : Nat} {frame : RelayConnection.FirstFrame} {key : Text}
    (h : Safe o.key o.connection) (hclear : clear o (.firstFrame id frame key) = true)
    (hphase : (o.connection.attempt id).phase = .hostInfo) :
    Sound o.key
      (keyAfter o (o.connection.firstFrame id frame key) (.firstFrame id frame key))
      o.connection (o.connection.firstFrame id frame key) := by
  have hmono : ∀ t p, wanted o.key o.connection p = true →
      wanted (keyAfter o t (.firstFrame id frame key)) o.connection p = true := by
    intro t p hp
    simp only [keyAfter]
    split
    · exact wanted_or key hp
    · exact hp
  have hcalm : ∀ t, Calm o.connection t →
      Sound o.key (keyAfter o t (.firstFrame id frame key)) o.connection t := by
    intro t ht
    refine .of_made ?_ (fun hended => ht.ended.trans hended) ht.made
    exact (h.mono (hmono t)).calm ht
  by_cases hgood : frame = .good
  · subst hgood
    simp only [RelayConnection.firstFrame, RelayConnection.guarded]
    cases hcheck : o.connection.checkAttempt id with
    | some result => exact hcalm _ calm_goto
    | none =>
      refine sound_install h (hmono _) fun hflag => ?_
      have hat := RelayConnection.attempt_set
        { o.connection with
          pendingChannel := none
          channel := some id
          stopped := false
          lastParams := some ⟨(o.connection.attempt id).address, key⟩ } id
        { o.connection.attempt id with installed := true, phase := .deviceInfo }
      have hinstalled : ((o.connection.install id key).attempt id).installed = true :=
        congrArg Attempt.installed hat
      rw [clear, hcheck, hflag] at hclear
      simpa [keyAfter, hinstalled] using hclear
  · exact hcalm _ (calm_course.firstFrame hphase fun h => absurd h hgood)

theorem sound_step (h : Safe o.key o.connection) (hclear : clear o e = true)
    (hexplicit : ∀ address mode, e ≠ .connect address mode)
    (hs : o.connection.step e = some t) : Sound o.key (keyAfter o t e) o.connection t := by
  cases RelayConnection.moved_of_step hs with
  | connect address mode => exact absurd rfl (hexplicit address mode)
  | timerFires params hpending =>
    have hpush := pushes_connect { o.connection with reconnectTimer := .idle } .timer
      params.address (.reconnect params.pinnedHostKey)
    have hidle : ∀ p, Timer.idle ≠ .pending p := by
      intro p hp
      cases hp
    refine .of_push h ⟨hpush.made, hpush.asked, hpush.ended, ?_, hpush.flag, hpush.saved,
      hpush.caller, hpush.address, hpush.mode⟩ (h.timer params hpending)
    exact fun p hp => absurd (hpush.timer p hp) (hidle p)
  | paused =>
    refine sound_paused h fun hconnected => ?_
    simpa [clear, hconnected] using hclear
  | resumed => exact sound_resumed h
  | networkStable =>
    refine sound_networkStable h fun hschedules hidle htimer => ?_
    simpa [clear, hschedules, hidle, htimer] using hclear
  | lock =>
    have hgate : Calm o.connection { o.connection with
        gate := ⟨o.connection.gate.appLockEnabled, true, o.connection.gate.lockGeneration + 1⟩ } :=
      calm_same rfl rfl rfl rfl rfl rfl rfl
    refine Sound.after hgate (sound_notify (h.calm hgate) fun hremembers => ?_)
    simpa [clear, hremembers] using hclear
  | unlock =>
    have hgate : Calm o.connection { o.connection with
        gate := { o.connection.gate with locked := false } } :=
      calm_same rfl rfl rfl rfl rfl rfl rfl
    refine Sound.after hgate (sound_notify (h.calm hgate) fun hremembers => ?_)
    simp [remembers, Gate.isLocked] at hremembers
  | unlocked => exact .of_calm h (calm_refl _)
  | setAppLockEnabled value hchanged =>
    have hgate : Calm o.connection { o.connection with
        gate := { o.connection.gate with appLockEnabled := value } } :=
      calm_same rfl rfl rfl rfl rfl rfl rfl
    refine Sound.after hgate (sound_notify (h.calm hgate) fun hremembers => ?_)
    simpa [clear, hremembers, hchanged] using hclear
  | appLockKept value => exact .of_calm h (calm_refl _)
  | disconnect => exact sound_disconnect _
  | cancel id => exact sound_cancel h
  | dispose =>
    have hdisposed : Calm o.connection { o.connection with disposed := true } :=
      calm_same rfl rfl rfl rfl rfl rfl rfl
    exact .of_calm h (hdisposed.trans (calm_interrupt _))
  | disposed _ => exact .of_calm h (calm_close _ false)
  | unlockEnded id _ => exact .of_calm h (calm_begin _)
  | oldClosed id hphase => exact .of_calm h (calm_course.oldClosed hphase)
  | opened id success hphase => exact .of_calm h (calm_course.opened hphase success)
  | registered id answer hphase => exact .of_calm h (calm_course.registered hphase answer)
  | handshook id success hphase => exact .of_calm h (calm_course.handshook hphase success)
  | firstFrame id frame key hphase _ => exact sound_firstFrame h hclear hphase
  | mismatchSent id hphase => exact .of_calm h (calm_course.mismatchSent hphase)
  | deviceInfoSent id hphase =>
    exact .of_calm h (calm_course.deviceInfoSent hphase (calm_succeeds _ id))
  | threw id hphase => exact .of_calm h (calm_course.threw hphase)
  | iteratorCancelled id result hphase =>
    exact .of_calm h (calm_course.iteratorCancelled hphase)
  | closed id result hphase => exact .of_calm h (calm_course.closed hphase)
  | returns id staleSlot result hphase =>
    refine sound_returns h ?_ ?_
    · rintro cause hcaller rfl hstep hschedules
      simpa [clear, hcaller, hphase, hstep, hschedules] using hclear
    · rintro cause hcaller rfl hstep
      simpa [clear, hcaller, hphase, hstep] using hclear
  | received id _ => exact sound_received h
  | decoded id outcome _ =>
    refine sound_decoded h ?_
    rintro rfl hcurrent
    simpa [clear, hcurrent] using hclear
  | timedOut id _ => exact sound_pumpEnds h fun hrevoked => absurd hrevoked Bool.false_ne_true
  | streamClosed id revoked _ =>
    refine sound_pumpEnds h ?_
    rintro rfl hcurrent
    simpa [clear, hcurrent] using hclear
  | pumpClosed id after hpump =>
    refine sound_pumpClosed h ?_
    rintro rfl hschedules
    simpa [clear, hpump, hschedules] using hclear
  | disconnectSent id _ => exact .of_calm h (calm_set rfl rfl rfl)
  | deliver index m _ => exact .of_calm h (calm_deliver _ m)

end Step

section Runs

variable {o o' : Watched} {e : RelayConnection.Event} {es : List RelayConnection.Event}
  {appLockEnabled : Bool}

theorem safe_start : Safe none (.start appLockEnabled) := by
  constructor
  · intro p hp
    cases hp
  · intro hflag
    cases hflag

end Runs

def home : Address := ⟨"wss://relay".toList, "handle".toList⟩

def session : List RelayConnection.Event :=
  [.unlock, .connect home (.reconnect ['k']), .oldClosed 0, .opened 0 true, .registered 0 .joined,
    .handshook 0 true, .firstFrame 0 .good ['k'], .deviceInfoSent 0, .returns 0 false]

/-- The link of a session drops, and a lock comes under the attempt that follows. -/
def dropped : List RelayConnection.Event :=
  session ++ [.streamClosed 0 false, .pumpClosed 0] ++
    [.timerFires, .oldClosed 1, .opened 1 true, .lock, .unlock]

end HerdrMobile.App.Wanted
