import HerdrMobile.App.Frames

/-!
# The reconnect that a Device owes

A session that has gone without anybody having ended it is owed a reconnect. The debt is carried
by the reconnect timer, by an attempt that is not over, by a pump that closes its socket, or,
while the app is away or locked, by the flag that a session is to be opened again.
-/
namespace HerdrMobile.App.Owed

open HerdrMobile.Lib.Run HerdrMobile.App.Connection HerdrMobile.App.Frames
open HerdrMobile.Proto.Messages

set_option autoImplicit false

def isOver (a : Attempt) : Bool :=
  match a.phase with
  | .over _ => true
  | _ => false

/-- The attempt has a result that its caller has not seen. -/
def ends (a : Attempt) : Bool :=
  match a.phase with
  | .failing _ | .closing _ | .returned _ => true
  | _ => false

/-- Nothing is between two steps of the app itself. -/
structure Quiescent (s : RelayConnection) : Prop where
  attempts : ∀ id < s.made, ends (s.attempt id) = false
  pumps : ∀ id < s.made, ∀ after, (s.attempt id).pump ≠ .closing after

/-- A session has been there, nobody has ended it, and none is there now. -/
def owed (s : RelayConnection) : Bool :=
  !s.disposed && s.lastParams.isSome && !s.stopped && s.channel.isNone

def timerPending (s : RelayConnection) : Bool :=
  match s.reconnectTimer with
  | .pending _ => true
  | _ => false

/-- In the foreground and unlocked, an attempt is running or the timer is pending. -/
def Progress (s : RelayConnection) : Prop :=
  s.backgrounded = false → s.gate.isLocked = false → owed s = true → Quiescent s →
    (∃ id, id < s.made ∧ isOver (s.attempt id) = false) ∨ timerPending s = true

/-- The attempt is still to return, or its pump to schedule. -/
def carries (a : Attempt) : Bool := !isOver a || a.pump == .closing .reschedule

def busy (s : RelayConnection) : Bool := (List.range s.made).any fun id => carries (s.attempt id)

/-- Another attempt carries the debt as well. -/
def busyBut (id : Nat) (s : RelayConnection) : Bool :=
  (List.range s.made).any fun j => j != id && carries (s.attempt j)

/-- The session is remembered until the return. -/
def away (s : RelayConnection) : Bool :=
  s.wasConnectedBeforeBackground && (s.backgrounded || s.gate.isLocked)

def schedules (s : RelayConnection) : Bool := !(s.disposed || s.backgrounded || s.gate.isLocked)

/-- The timer that a lock cancels is not all that there was. -/
def survivesGate (s : RelayConnection) : Bool :=
  !s.gate.isLocked || !owed s || s.wasConnectedBeforeBackground || s.pendingChannel.isSome || busy s

/-- The failure of a timer's attempt schedules the next one, or stops the schedule. -/
def goesOn (s : RelayConnection) (a : Attempt) (staleSlot : Bool) : Bool :=
  match a.caller, a.phase with
  | .timer, .returned (.err cause) =>
    match RelayConnection.afterFailure cause staleSlot with
    | .reuseHandle => schedules s
    | .stop => true
  | _, _ => false

/-- No step lets the debt fall: a background or a lock finds more than the timer, and the end of an
attempt or of a pump schedules or leaves the debt with something else. -/
def clear (s : RelayConnection) : RelayConnection.Event → Bool
  | .paused => !owed s || s.wasConnectedBeforeBackground || busy s
  | .lock =>
    survivesGate { s with gate := ⟨s.gate.appLockEnabled, true, s.gate.lockGeneration + 1⟩ }
  | .setAppLockEnabled value =>
    s.gate.appLockEnabled == value ||
      survivesGate { s with gate := { s.gate with appLockEnabled := value } }
  | .returns id staleSlot =>
    !owed s || timerPending s || away s || busyBut id s ||
      (s.attempt id).pump == .closing .reschedule || goesOn s (s.attempt id) staleSlot
  | .pumpClosed id =>
    !owed s || timerPending s || away s || busyBut id s || !isOver (s.attempt id) || schedules s
  | _ => true

/-- What is owed is carried, and the gate is listened to. -/
structure Inv (s : RelayConnection) : Prop where
  carried : owed s = true → (timerPending s || away s || busy s) = true
  observed : s.lastParams.isSome = true → s.observed = true

section Operations

variable {s t u : RelayConnection} {id : Nat}

theorem busy_iff : busy s = true ↔ ∃ id < s.made, carries (s.attempt id) = true := by
  simp [busy]

structure Keeps (s t : RelayConnection) : Prop where
  owes : owed t = true → owed s = true
  timer : timerPending s = true → timerPending t = true
  away : away s = true → away t = true
  busy : busy s = true → busy t = true
  observed : (s.lastParams.isSome = true → s.observed = true) →
    t.lastParams.isSome = true → t.observed = true

theorem Inv.keep (h : Inv s) (hkeep : Keeps s t) : Inv t := by
  refine ⟨fun howed => ?_, hkeep.observed h.observed⟩
  have hcarried := h.carried (hkeep.owes howed)
  rw [Bool.or_eq_true, Bool.or_eq_true] at hcarried ⊢
  obtain (htimer | haway) | hbusy := hcarried
  · exact .inl (.inl (hkeep.timer htimer))
  · exact .inl (.inr (hkeep.away haway))
  · exact .inr (hkeep.busy hbusy)

theorem Keeps.trans (h : Keeps s t) (h' : Keeps t u) : Keeps s u where
  owes howed := h.owes (h'.owes howed)
  timer ht := h'.timer (h.timer ht)
  away ha := h'.away (h.away ha)
  busy hb := h'.busy (h.busy hb)
  observed ho := h'.observed (h.observed ho)

theorem keeps_refl (s : RelayConnection) : Keeps s s := ⟨id, id, id, id, id⟩

theorem busy_set {a : Attempt}
    (hcarries : carries (s.attempt id) = true → carries a = true) (h : busy s = true) :
    busy (s.set id a) = true := by
  obtain ⟨j, hj, hcarried⟩ := (busy_iff).mp h
  refine (busy_iff).mpr ⟨j, hj, ?_⟩
  by_cases heq : j = id
  · rw [heq, s.attempt_set]
    exact hcarries (heq ▸ hcarried)
  · rw [s.attempt_set_of_ne a heq]
    exact hcarried

theorem keeps_set {a : Attempt}
    (hcarries : carries (s.attempt id) = true → carries a = true) : Keeps s (s.set id a) :=
  ⟨fun h => h, fun h => h, fun h => h, busy_set hcarries, fun h => h⟩

/-- An attempt that goes on is not over. -/
theorem keeps_course : Course Keeps where
  trans := Keeps.trans
  askClose _ _ := keeps_set fun h => h
  drop _ _ := ⟨fun h => h, fun h => h, fun h => h, fun h => h, fun h => h⟩
  move {s id phase} _ _ hplain _ := by
    refine keeps_set fun _ => ?_
    unfold carries isOver
    cases phase with
    | «over» result => cases hplain
    | _ => rfl
  pend {s id} _ := by
    have hpending : Keeps s { s with pendingChannel := some id } :=
      ⟨fun h => h, fun h => h, fun h => h, fun h => h, fun h => h⟩
    exact hpending.trans (keeps_set fun _ => rfl)

theorem keeps_schedule (s : RelayConnection) : Keeps s s.scheduleReconnect := by
  unfold RelayConnection.scheduleReconnect
  split
  · exact keeps_refl s
  · split
    · exact keeps_refl s
    · exact ⟨fun h => h, fun _ => rfl, fun h => h, fun h => h, fun h => h⟩

theorem busy_interrupt (h : busy s = true) : busy s.interruptPendingConnection = true := by
  unfold RelayConnection.interruptPendingConnection
  split
  · exact h
  · rename_i id hpending
    have hask : busy (s.askClose id) = true := busy_set (fun hcarries => hcarries) h
    exact hask

theorem busy_close (frame : Bool) (h : busy s = true) :
    busy (s.closeCurrentSocket frame) = true := by
  unfold RelayConnection.closeCurrentSocket
  split
  · exact h
  · split
    · exact @busy_set { s with channel := none } _ _ (fun hcarries => hcarries) h
    · exact @busy_set { s with channel := none } _ _ (fun hcarries => hcarries) h

/-- What the close of the current socket does not touch. -/
structure Untouched (s t : RelayConnection) : Prop where
  made : t.made = s.made
  disposed : t.disposed = s.disposed
  stopped : t.stopped = s.stopped
  lastParams : t.lastParams = s.lastParams
  observed : t.observed = s.observed
  flag : t.wasConnectedBeforeBackground = s.wasConnectedBeforeBackground
  backgrounded : t.backgrounded = s.backgrounded
  gate : t.gate = s.gate

theorem close_untouched (s : RelayConnection) (frame : Bool) :
    Untouched s (s.closeCurrentSocket frame) := by
  unfold RelayConnection.closeCurrentSocket
  split
  · exact ⟨rfl, rfl, rfl, rfl, rfl, rfl, rfl, rfl⟩
  · split
    · exact ⟨rfl, rfl, rfl, rfl, rfl, rfl, rfl, rfl⟩
    · exact ⟨rfl, rfl, rfl, rfl, rfl, rfl, rfl, rfl⟩

theorem interrupt_untouched (s : RelayConnection) :
    Untouched s s.interruptPendingConnection ∧
      s.interruptPendingConnection.channel = s.channel := by
  unfold RelayConnection.interruptPendingConnection
  split
  · exact ⟨⟨rfl, rfl, rfl, rfl, rfl, rfl, rfl, rfl⟩, rfl⟩
  · exact ⟨⟨rfl, rfl, rfl, rfl, rfl, rfl, rfl, rfl⟩, rfl⟩

theorem inv_of_busy (hbusy : busy t = true)
    (hobserved : t.lastParams.isSome = true → t.observed = true) : Inv t :=
  ⟨fun _ => by rw [hbusy, Bool.or_true], hobserved⟩

theorem inv_of_not_owed (howed : owed t = false)
    (hobserved : t.lastParams.isSome = true → t.observed = true) : Inv t :=
  ⟨fun h => absurd (howed.symm.trans h) Bool.false_ne_true, hobserved⟩

theorem busy_begin (hid : id < s.made) : busy (s.begin id) = true := by
  have hgoto : ∀ result, busy (s.goto id (.returned result)) = true := by
    intro result
    refine (busy_iff).mpr ⟨id, hid, ?_⟩
    rw [RelayConnection.goto, s.attempt_set]
    rfl
  unfold RelayConnection.begin
  split
  · exact hgoto _
  · split
    · exact hgoto _
    · apply busy_close
      have htake : busy (s.interruptPendingConnection.take id) = true := by
        refine (busy_iff).mpr ⟨id, ?_, ?_⟩
        · exact lt_of_lt_of_eq hid (interrupt_untouched s).1.made.symm
        · rw [RelayConnection.take, RelayConnection.attempt_set]
          rfl
      unfold RelayConnection.forgetFor
      split
      · exact htake
      · exact htake

theorem begin_observed (h : s.lastParams.isSome = true → s.observed = true)
    (hsome : (s.begin id).lastParams.isSome = true) : (s.begin id).observed = true := by
  unfold RelayConnection.begin at hsome ⊢
  split at hsome
  · rename_i hcancelled
    rw [if_pos hcancelled]
    exact h hsome
  · rename_i hcancelled
    rw [if_neg hcancelled]
    split at hsome
    · rename_i hlocked
      rw [if_pos hlocked]
      exact h hsome
    · rename_i hlocked
      rw [if_neg hlocked]
      obtain ⟨hkept, -⟩ := interrupt_untouched s
      have hclose := close_untouched ((s.interruptPendingConnection.take id).forgetFor id) false
      rw [hclose.lastParams] at hsome
      rw [hclose.observed]
      unfold RelayConnection.forgetFor at hsome ⊢
      split at hsome
      · cases hsome
      · rename_i hmode
        rw [if_neg hmode]
        refine hkept.observed.trans (h ?_)
        rw [← hkept.lastParams]
        exact hsome

/-- Whoever calls `connect` has an attempt that is not over. -/
theorem inv_connect {caller : Caller} {address : Address} {mode : Mode}
    (h : s.lastParams.isSome = true → s.observed = true) : Inv (s.connect caller address mode) := by
  have hpush : ∀ (u : RelayConnection) (phase : Phase), (∀ result, phase ≠ .over result) →
      busy (u.push caller address mode phase) = true := by
    intro u phase hphase
    refine (busy_iff).mpr ⟨u.made, Nat.lt_succ_self _, ?_⟩
    have hat := RelayConnection.attempt_set { u with made := u.made + 1 } u.made
      (.new caller address mode phase u.asked u.ended)
    rw [RelayConnection.push, hat, carries, isOver, Attempt.new]
    cases phase with
    | «over» result => exact absurd rfl (hphase result)
    | _ => rfl
  unfold RelayConnection.connect
  split
  · exact inv_of_busy (hpush s _ fun _ hr => by cases hr) h
  · dsimp only
    split
    · exact inv_of_busy (hpush _ _ fun _ hr => by cases hr) fun _ => rfl
    · exact inv_of_busy (busy_begin (Nat.lt_succ_self _)) (begin_observed fun _ => rfl)

end Operations

section Handlers

variable {s t : RelayConnection} {id : Nat}

theorem owed_iff : owed s = true ↔ s.disposed = false ∧ s.lastParams.isSome = true ∧
    s.stopped = false ∧ s.channel = none := by
  simp [owed, and_assoc]

/-- On the return the flag counts wherever it was set. -/
theorem inv_resumed (hobserved : s.lastParams.isSome = true → s.observed = true)
    (hcarried : owed s = true →
      (timerPending s || s.wasConnectedBeforeBackground || busy s) = true) : Inv s.resumed := by
  unfold RelayConnection.resumed
  dsimp only
  split
  · rename_i hnone
    refine inv_of_not_owed ?_ hobserved
    rw [owed, hnone]
    simp
  · rename_i params hsaved
    split
    · exact inv_connect hobserved
    · rename_i hstays
      refine ⟨fun howed => ?_, hobserved⟩
      have hbefore : owed s = true := howed
      obtain ⟨-, -, -, hchannel⟩ := (owed_iff).mp hbefore
      have hweak := hcarried hbefore
      rw [Bool.or_eq_true, Bool.or_eq_true] at hweak ⊢
      obtain (htimer | hflag) | hbusy := hweak
      · exact .inl (.inl htimer)
      · refine .inl (.inr ?_)
        have hidle : s.isConnected = false := by
          rw [RelayConnection.isConnected, hchannel]
          rfl
        have hlocked : s.gate.isLocked = true := by
          by_contra hopen
          apply hstays
          rw [Bool.not_eq_true] at hopen
          simp only [RelayConnection.isConnected, hchannel, hopen, hflag]
          rfl
        rw [away, hflag, hlocked]
        rfl
      · exact .inr hbusy

theorem inv_paused (h : Inv s)
    (hclear : owed s = true → s.wasConnectedBeforeBackground = true ∨ busy s = true) :
    Inv s.paused := by
  obtain ⟨hkept, hchannel⟩ := interrupt_untouched { s with backgrounded := true }
  have hbusy : busy s = true →
      busy { s with backgrounded := true }.interruptPendingConnection = true :=
    fun hbusy => @busy_interrupt { s with backgrounded := true } hbusy
  unfold RelayConnection.paused
  generalize { s with backgrounded := true }.interruptPendingConnection = t at hkept hchannel hbusy
  have hobserved : t.lastParams.isSome = true → t.observed = true := by
    rw [hkept.lastParams, hkept.observed]
    exact h.observed
  dsimp only
  split
  · have hclose := close_untouched (t.remember true) true
    refine ⟨fun _ => ?_, ?_⟩
    · rw [away, hclose.flag, hclose.backgrounded]
      have hback : (t.remember true).backgrounded = true := hkept.backgrounded
      rw [hback]
      simp [RelayConnection.remember]
    · rw [hclose.lastParams, hclose.observed]
      exact hobserved
  · refine ⟨fun howed => ?_, hobserved⟩
    have hbefore : owed s = true := by
      rw [owed, hkept.disposed, hkept.lastParams, hkept.stopped, hchannel] at howed
      exact howed
    rw [Bool.or_eq_true, Bool.or_eq_true]
    cases hclear hbefore with
    | inl hflag =>
      refine .inl (.inr ?_)
      rw [away, hkept.flag, hkept.backgrounded, hflag]
      rfl
    | inr hmore => exact .inr (hbusy hmore)

theorem inv_onGateChanged (hobserved : s.lastParams.isSome = true → s.observed = true)
    (hcarried : owed s = true →
      (timerPending s || s.wasConnectedBeforeBackground || busy s) = true)
    (hclear : s.gate.isLocked = true → owed s = true →
      s.wasConnectedBeforeBackground = true ∨ s.pendingChannel.isSome = true ∨ busy s = true) :
    Inv s.onGateChanged := by
  unfold RelayConnection.onGateChanged
  split
  · rename_i hlocked
    dsimp only
    generalize hwas : (s.wasConnectedBeforeBackground || s.isConnected ||
      (s.lastParams.isSome && s.pendingChannel.isSome)) = was
    obtain ⟨hkept, hchannel⟩ := interrupt_untouched (s.remember was)
    have hclose := close_untouched (s.remember was).interruptPendingConnection false
    refine ⟨fun howed => ?_, ?_⟩
    · rw [Bool.or_eq_true, Bool.or_eq_true]
      by_cases hflag : was = true
      · refine .inl (.inr ?_)
        rw [away, hclose.flag, hclose.gate, hkept.flag, hkept.gate]
        simp [RelayConnection.remember, hflag, hlocked]
      · rw [← hwas] at hflag
        simp only [Bool.or_eq_true, Bool.and_eq_true, not_or, not_and] at hflag
        obtain ⟨⟨hno, hidle⟩, hpending⟩ := hflag
        obtain ⟨hdisposed, hsaved, hstopped, -⟩ := (owed_iff).mp howed
        rw [hclose.disposed, hkept.disposed] at hdisposed
        rw [hclose.lastParams, hkept.lastParams] at hsaved
        rw [hclose.stopped, hkept.stopped] at hstopped
        have hbefore : owed s = true := by
          refine (owed_iff).mpr ⟨hdisposed, hsaved, hstopped, ?_⟩
          simpa [RelayConnection.isConnected] using hidle
        refine .inr ?_
        obtain hyes | hyes | hbusy := hclear hlocked hbefore
        · exact absurd hyes hno
        · exact absurd hyes (hpending hsaved)
        · exact busy_close false (@busy_interrupt (s.remember was) hbusy)
    · rw [hclose.lastParams, hclose.observed, hkept.lastParams, hkept.observed]
      exact hobserved
  · rename_i hopen
    split
    · exact inv_resumed hobserved hcarried
    · rename_i hstays
      refine ⟨fun howed => ?_, hobserved⟩
      have hweak := hcarried howed
      rw [Bool.or_eq_true, Bool.or_eq_true] at hweak ⊢
      obtain (htimer | hflag) | hbusy := hweak
      · exact .inl (.inl htimer)
      · refine .inl (.inr ?_)
        rw [hflag, Bool.and_true, Bool.not_eq_true', Bool.not_eq_false] at hstays
        rw [away, hflag, hstays]
        rfl
      · exact .inr hbusy

theorem inv_notify (hobserved : s.lastParams.isSome = true → s.observed = true)
    (hcarried : owed s = true →
      (timerPending s || s.wasConnectedBeforeBackground || busy s) = true)
    (hclear : survivesGate s = true) : Inv s.notify := by
  unfold RelayConnection.notify
  generalize ht : (if s.gate.isLocked then { s with lockings := s.lockings + 1 } else s) = t
  have hsame : (t.lastParams = s.lastParams ∧ t.observed = s.observed ∧ owed t = owed s) ∧
      timerPending t = timerPending s ∧
      t.wasConnectedBeforeBackground = s.wasConnectedBeforeBackground ∧ busy t = busy s ∧
      t.gate = s.gate ∧ t.pendingChannel = s.pendingChannel ∧ t.disposed = s.disposed := by
    rw [← ht]
    split
    · exact ⟨⟨rfl, rfl, rfl⟩, rfl, rfl, rfl, rfl, rfl, rfl⟩
    · exact ⟨⟨rfl, rfl, rfl⟩, rfl, rfl, rfl, rfl, rfl, rfl⟩
  obtain ⟨⟨hsaved, hseen, howed⟩, htimer, hflag, hbusy, hgate, hpending, hdisposed⟩ := hsame
  have hobs : t.lastParams.isSome = true → t.observed = true := by
    rw [hsaved, hseen]
    exact hobserved
  dsimp only
  split
  · refine inv_onGateChanged hobs ?_ ?_
    · rw [howed, htimer, hflag, hbusy]
      exact hcarried
    · rw [hgate, howed, hflag, hpending, hbusy]
      intro hlocked hdebt
      rw [survivesGate, hlocked, hdebt] at hclear
      simpa [or_assoc] using hclear
  · rename_i hdeaf
    refine inv_of_not_owed ?_ hobs
    refine Bool.eq_false_iff.mpr fun hdebt => hdeaf ?_
    obtain ⟨halive, hsome, -, -⟩ := (owed_iff).mp hdebt
    rw [hobs hsome, halive]
    rfl

theorem Inv.weak (h : Inv s) (howed : owed s = true) :
    (timerPending s || s.wasConnectedBeforeBackground || busy s) = true := by
  have hcarried := h.carried howed
  rw [Bool.or_eq_true, Bool.or_eq_true] at hcarried ⊢
  obtain (htimer | haway) | hbusy := hcarried
  · exact .inl (.inl htimer)
  · exact .inl (.inr (Bool.and_eq_true_iff.mp haway).1)
  · exact .inr hbusy

theorem inv_gate (h : Inv s) (g : Gate) (hclear : survivesGate { s with gate := g } = true) :
    Inv { s with gate := g }.notify :=
  inv_notify h.observed h.weak hclear

theorem inv_disconnect (h : Inv s) : Inv s.disconnect := by
  obtain ⟨hkept, -⟩ :=
    interrupt_untouched { s.remember false with ended := true, stopped := true }
  have hclose := close_untouched
    { s.remember false with ended := true, stopped := true }.interruptPendingConnection true
  refine inv_of_not_owed ?_ ?_
  · refine Bool.eq_false_iff.mpr fun howed => ?_
    have hstopped := ((owed_iff).mp howed).2.2.1
    have hstop : s.disconnect.stopped = true := hclose.stopped.trans hkept.stopped
    rw [hstop] at hstopped
    cases hstopped
  · intro hsome
    refine (hclose.observed.trans hkept.observed).trans (h.observed ?_)
    have hsaved : s.disconnect.lastParams = s.lastParams :=
      hclose.lastParams.trans hkept.lastParams
    rw [← hsaved]
    exact hsome

theorem inv_cancel (h : Inv s) : Inv (s.cancel id) := by
  have hset : Keeps s (s.set id { s.attempt id with cancelled := true }) :=
    keeps_set fun hcarries => hcarries
  unfold RelayConnection.cancel
  generalize s.set id { s.attempt id with cancelled := true } = t at hset
  dsimp only
  split
  · have hclose := close_untouched { t with
        lastParams := none, wasConnectedBeforeBackground := false, reconnectTimer := .idle,
        ended := true, stopped := true } false
    refine inv_of_not_owed ?_ ?_
    · rw [owed, hclose.lastParams]
      simp
    · intro hsome
      rw [hclose.lastParams] at hsome
      cases hsome
  · split
    · exact h.keep (hset.trans (keeps_course.askClose _ id))
    · exact h.keep hset

/-- A session that is there owes nothing. -/
theorem inv_firstFrame (h : Inv s) (hobserved : s.observed = true)
    (hphase : (s.attempt id).phase = .hostInfo) (frame : RelayConnection.FirstFrame)
    (key : Text) : Inv (s.firstFrame id frame key) := by
  by_cases hgood : frame = .good
  · subst hgood
    simp only [RelayConnection.firstFrame, RelayConnection.guarded]
    split
    · next result hcheck =>
      refine h.keep (keeps_course.goto ?_ rfl fun hok => ?_)
      · rw [hphase]
        rfl
      · exact checkAttempt_ne_ok s id (hcheck.trans hok)
    · refine inv_of_not_owed ?_ fun _ => hobserved
      have hchannel : (s.install id key).channel = some id := rfl
      rw [owed, hchannel]
      exact Bool.and_false _
  · exact h.keep (keeps_course.firstFrame hphase fun h => absurd h hgood)

theorem keeps_succeeds (s : RelayConnection) (id : Nat) :
    Keeps s ({ s with connected := id :: s.connected }.set id
      { s.attempt id with phase := .returned .ok, pump := .reading }) := by
  have hconnected : Keeps s { s with connected := id :: s.connected } :=
    ⟨fun h => h, fun h => h, fun h => h, fun h => h, fun h => h⟩
  exact hconnected.trans (keeps_set fun _ => rfl)

/-- What carries the debt where one attempt does not. -/
theorem busy_of_but {a : Attempt} (h : busyBut id s = true) : busy (s.set id a) = true := by
  simp only [busyBut, List.any_eq_true, Bool.and_eq_true, bne_iff_ne, List.mem_range] at h
  obtain ⟨j, hj, hne, hcarries⟩ := h
  refine (busy_iff).mpr ⟨j, hj, ?_⟩
  rw [s.attempt_set_of_ne a hne]
  exact hcarries

theorem schedule_pending (howed : owed s = true) (hschedules : schedules s = true) :
    timerPending s.scheduleReconnect = true := by
  obtain ⟨-, hsome, -, -⟩ := (owed_iff).mp howed
  obtain ⟨params, hsaved⟩ := Option.isSome_iff_exists.mp hsome
  rw [schedules, Bool.not_eq_true'] at hschedules
  unfold RelayConnection.scheduleReconnect
  rw [hsaved]
  dsimp only
  rw [hschedules, if_neg Bool.false_ne_true]
  rfl

/-- The attempt carries the debt, where nothing else does. -/
theorem inv_set {a : Attempt} (h : Inv s)
    (hrest : owed s = true → timerPending s = true ∨ away s = true ∨ busyBut id s = true ∨
      carries a = true) : Inv (s.set id a) := by
  refine ⟨fun howed => ?_, h.observed⟩
  have hdebt : owed s = true := howed
  rw [Bool.or_eq_true, Bool.or_eq_true]
  obtain htimer | haway | hbut | hcarries := hrest hdebt
  · exact .inl (.inl htimer)
  · exact .inl (.inr haway)
  · exact .inr (busy_of_but hbut)
  · have hcarried := h.carried hdebt
    rw [Bool.or_eq_true, Bool.or_eq_true] at hcarried
    exact hcarried.imp_right (busy_set fun _ => hcarries)

theorem inv_over {result : Result} (h : Inv s)
    (hrest : owed s = true → timerPending s = true ∨ away s = true ∨ busyBut id s = true ∨
      (s.attempt id).pump = .closing .reschedule) : Inv (s.goto id (.over result)) := by
  refine inv_set h fun howed => ?_
  refine (hrest howed).imp_right (Or.imp_right (Or.imp_right fun hpump => ?_))
  rw [carries, hpump]
  simp

/-- Only the failure of a timer's attempt is looked at. -/
theorem returns_quietly {result : Result} {staleSlot : Bool}
    (hphase : (s.attempt id).phase = .returned result)
    (hother : ∀ cause, (s.attempt id).caller = .timer → result ≠ .err cause) :
    s.returns id result staleSlot = s.goto id (.over result) ∧
      goesOn s (s.attempt id) staleSlot = false := by
  unfold RelayConnection.returns goesOn
  rw [hphase]
  cases hcaller : (s.attempt id).caller with
  | person => exact ⟨rfl, rfl⟩
  | resume => exact ⟨rfl, rfl⟩
  | timer =>
    cases result with
    | err cause => exact absurd rfl (hother cause hcaller)
    | ok => exact ⟨rfl, rfl⟩
    | cancelled => exact ⟨rfl, rfl⟩
    | thrown => exact ⟨rfl, rfl⟩

theorem inv_returns {result : Result} {staleSlot : Bool} (h : Inv s)
    (hphase : (s.attempt id).phase = .returned result)
    (hclear : clear s (.returns id staleSlot) = true) : Inv (s.returns id result staleSlot) := by
  have hrest : goesOn s (s.attempt id) staleSlot = false → Inv (s.goto id (.over result)) := by
    intro hends
    refine inv_over h fun hdebt => ?_
    rw [clear, hdebt, hends] at hclear
    simpa [or_assoc] using hclear
  by_cases hfails : ∃ cause, (s.attempt id).caller = .timer ∧ result = .err cause
  · obtain ⟨cause, hcaller, rfl⟩ := hfails
    cases hstep : RelayConnection.afterFailure cause staleSlot with
    | stop =>
      have heq : s.returns id (.err cause) staleSlot =
          { s.goto id (.over (.err cause)) with ended := true, stopped := true } := by
        simp only [RelayConnection.returns, hcaller, hstep]
      rw [heq]
      refine inv_of_not_owed ?_ h.observed
      rw [owed]
      simp
    | reuseHandle =>
      have heq : s.returns id (.err cause) staleSlot =
          (s.goto id (.over (.err cause))).scheduleReconnect := by
        simp only [RelayConnection.returns, hcaller, hstep]
      rw [heq]
      by_cases hschedules : schedules s = true
      · refine ⟨fun howed => ?_, (keeps_schedule _).observed h.observed⟩
        have hdebt : owed (s.goto id (.over (.err cause))) = true := (keeps_schedule _).owes howed
        rw [schedule_pending hdebt hschedules]
        rfl
      · refine (hrest ?_).keep (keeps_schedule _)
        simp only [goesOn, hcaller, hphase, hstep]
        exact Bool.eq_false_iff.mpr hschedules
  · obtain ⟨heq, hends⟩ := @returns_quietly s id result staleSlot hphase
      fun cause hcaller hresult => hfails ⟨cause, hcaller, hresult⟩
    rw [heq]
    exact hrest hends

theorem inv_pumpEnds {revoked : Bool} (h : Inv s) (hmade : s.channel = some id → id < s.made)
    (hpump : (s.attempt id).pump ≠ .closing .reschedule) : Inv (s.pumpEnds id revoked) := by
  unfold RelayConnection.pumpEnds
  split
  · rename_i hcurrent
    have hclose := close_untouched s false
    have hobserved : (s.closeCurrentSocket false).lastParams.isSome = true →
        (s.closeCurrentSocket false).observed = true := by
      rw [hclose.lastParams, hclose.observed]
      exact h.observed
    cases revoked with
    | true =>
      refine inv_of_not_owed ?_ hobserved
      rw [owed, Bool.or_true]
      simp
    | false =>
      refine inv_of_busy ((busy_iff).mpr ⟨id, ?_, ?_⟩) hobserved
      · exact lt_of_lt_of_eq (hmade hcurrent) hclose.made.symm
      · have hat := RelayConnection.attempt_set (s.closeCurrentSocket false) id
          { (s.closeCurrentSocket false).attempt id with pump := .closing .reschedule }
        have hpump : ((((s.closeCurrentSocket false).turn id (.closing .reschedule))).attempt
            id).pump = .closing .reschedule := congrArg Attempt.pump hat
        rw [carries]
        simp only [Bool.false_eq_true, if_false, hpump]
        simp
  · refine h.keep (keeps_set fun hcarries => ?_)
    have hover : isOver (s.attempt id) = false := by
      simpa [carries, hpump] using hcarries
    have hsame : isOver { s.attempt id with pump := .done } = isOver (s.attempt id) := rfl
    rw [carries, hsame, hover]
    rfl

/-- A pump that goes on has no debt of its own. -/
theorem keeps_turn {pump : Pump} (hpump : (s.attempt id).pump ≠ .closing .reschedule) :
    Keeps s (s.turn id pump) := by
  refine keeps_set fun hcarries => ?_
  have hover : isOver (s.attempt id) = false := by
    simpa [carries, hpump] using hcarries
  have hsame : isOver { s.attempt id with pump := pump } = isOver (s.attempt id) := rfl
  rw [carries, hsame, hover]
  rfl

theorem inv_pumpClosed {after : After} (h : Inv s)
    (hpump : (s.attempt id).pump = .closing after)
    (hclear : clear s (.pumpClosed id) = true) : Inv (s.pumpClosed id after) := by
  have hsame : isOver { s.attempt id with pump := .done } = isOver (s.attempt id) := rfl
  cases after with
  | revoked =>
    refine inv_of_not_owed ?_ ?_
    · rw [owed]
      simp [RelayConnection.pumpClosed]
    · intro hsome
      cases hsome
  | reschedule =>
    have heq : s.pumpClosed id .reschedule = (s.turn id .done).scheduleReconnect := rfl
    rw [heq]
    by_cases hschedules : schedules s = true
    · refine ⟨fun howed => ?_, (keeps_schedule _).observed h.observed⟩
      have hdebt : owed (s.turn id .done) = true := (keeps_schedule _).owes howed
      rw [schedule_pending hdebt hschedules]
      rfl
    · have hturn : Inv (s.turn id .done) := by
        refine inv_set h fun hdebt => ?_
        rw [clear, hdebt, Bool.eq_false_iff.mpr hschedules] at hclear
        simp only [Bool.not_true, Bool.false_or, Bool.or_false, Bool.or_eq_true,
          Bool.not_eq_true'] at hclear
        obtain ((htimer | haway) | hbut) | hover := hclear
        · exact .inl htimer
        · exact .inr (.inl haway)
        · exact .inr (.inr (.inl hbut))
        · rw [carries, hsame, hover]
          exact .inr (.inr (.inr rfl))
      exact hturn.keep (keeps_schedule _)

theorem keeps_broadcast (s : RelayConnection) : Keeps s (s.broadcast id) :=
  ⟨fun h => h, fun h => h, fun h => h, fun h => h, fun h => h⟩

theorem inv_received (h : Inv s) (hmade : s.channel = some id → id < s.made)
    (hpump : (s.attempt id).pump ≠ .closing .reschedule) : Inv (s.received id) := by
  unfold RelayConnection.received
  split
  · exact h.keep (keeps_turn hpump)
  · exact inv_pumpEnds h hmade hpump

theorem inv_decoded {outcome : RelayConnection.Decoded} (h : Inv s)
    (hmade : s.channel = some id → id < s.made)
    (hpump : (s.attempt id).pump ≠ .closing .reschedule) : Inv (s.decoded id outcome) := by
  unfold RelayConnection.decoded
  split
  · cases outcome with
    | nothing => exact h.keep (keeps_turn hpump)
    | message => exact (h.keep (keeps_broadcast s)).keep (keeps_turn hpump)
    | violation => exact inv_pumpEnds h hmade hpump
    | fatal revoked => exact inv_pumpEnds (h.keep (keeps_broadcast s)) hmade hpump
  · exact inv_pumpEnds h hmade hpump

theorem keeps_deliver (s : RelayConnection) (m : Broadcast) : Keeps s (s.deliver m) := by
  unfold RelayConnection.deliver
  split
  · exact ⟨fun h => h, fun h => h, fun h => h, fun h => h, fun h => h⟩
  · exact keeps_refl s

end Handlers

section Step

variable {s t : RelayConnection} {e : RelayConnection.Event}

theorem made_of_channel (h : Isolation.Inv s) {id : Nat} (hcurrent : s.channel = some id) :
    id < s.made := by
  by_contra hbeyond
  have hpos := (h.core.channel id hcurrent).2
  rw [h.core.pristine id (Nat.not_lt.mp hbeyond)] at hpos
  exact absurd hpos (Nat.lt_irrefl _)

theorem inv_step (hiso : Isolation.Inv s) (h : Inv s) (hclear : clear s e = true)
    (hs : s.step e = some t) : Inv t := by
  cases RelayConnection.moved_of_step hs with
  | connect address mode => exact inv_connect h.observed
  | timerFires params _ => exact inv_connect h.observed
  | paused =>
    refine inv_paused h fun hdebt => ?_
    rw [clear, hdebt] at hclear
    simpa using hclear
  | resumed => exact inv_resumed h.observed h.weak
  | networkStable =>
    unfold RelayConnection.onNetworkStable
    split
    · exact h.keep (keeps_schedule s)
    · exact h
  | lock => exact inv_gate h _ hclear
  | unlock =>
    refine inv_gate h _ ?_
    simp [survivesGate, Gate.isLocked]
  | unlocked => exact h
  | setAppLockEnabled value hchanged =>
    refine inv_gate h _ ?_
    rw [clear, Bool.or_eq_true, beq_iff_eq] at hclear
    exact hclear.resolve_left hchanged
  | appLockKept value => exact h
  | disconnect => exact inv_disconnect h
  | cancel id => exact inv_cancel h
  | dispose =>
    obtain ⟨hkept, -⟩ := interrupt_untouched { s with disposed := true }
    refine inv_of_not_owed ?_ ?_
    · rw [owed, hkept.disposed]
      rfl
    · rw [hkept.lastParams, hkept.observed]
      exact h.observed
  | disposed hdisposed =>
    have hclose := close_untouched s false
    refine inv_of_not_owed ?_ ?_
    · rw [owed, hclose.disposed, hdisposed]
      rfl
    · rw [hclose.lastParams, hclose.observed]
      exact h.observed
  | unlockEnded id hphase =>
    exact inv_of_busy (busy_begin (hiso.core.waiting id hphase).1) (begin_observed h.observed)
  | oldClosed id hphase => exact h.keep (keeps_course.oldClosed hphase)
  | opened id success hphase => exact h.keep (keeps_course.opened hphase success)
  | registered id answer hphase => exact h.keep (keeps_course.registered hphase answer)
  | handshook id success hphase => exact h.keep (keeps_course.handshook hphase success)
  | firstFrame id frame key hphase _ =>
    refine inv_firstFrame h (hiso.core.observed id ((hiso.core.phases id).begun ?_)) hphase frame key
    rw [hphase]
    rfl
  | mismatchSent id hphase => exact h.keep (keeps_course.mismatchSent hphase)
  | deviceInfoSent id hphase =>
    exact h.keep (keeps_course.deviceInfoSent hphase (keeps_succeeds s id))
  | threw id hphase => exact h.keep (keeps_course.threw hphase)
  | iteratorCancelled id result hphase => exact h.keep (keeps_course.iteratorCancelled hphase)
  | closed id result hphase => exact h.keep (keeps_course.closed hphase)
  | returns id staleSlot result hphase => exact inv_returns h hphase hclear
  | received id hpump =>
    refine inv_received h (made_of_channel hiso) ?_
    rw [hpump]
    exact fun heq => by cases heq
  | decoded id outcome hpump =>
    refine inv_decoded h (made_of_channel hiso) ?_
    rw [hpump]
    exact fun heq => by cases heq
  | timedOut id hpump =>
    refine inv_pumpEnds h (made_of_channel hiso) ?_
    rw [hpump]
    exact fun heq => by cases heq
  | streamClosed id revoked hpump =>
    have hruns : ∀ pump ∈ [Pump.reading, .decoding], pump ≠ .closing .reschedule := by decide
    exact inv_pumpEnds h (made_of_channel hiso) (hruns _ hpump)
  | pumpClosed id after hpump => exact inv_pumpClosed h hpump hclear
  | disconnectSent id _ => exact h.keep (keeps_set fun hcarries => hcarries)
  | deliver index m _ => exact h.keep (keeps_deliver s m)

end Step

/-- Where no step lets the debt fall, a reconnect is under way in every quiescent state that owes
one. -/
theorem reconnects_progress (appLockEnabled : Bool) (es : List RelayConnection.Event)
    (hclear : ∀ s e t, Occurs RelayConnection.step (.start appLockEnabled) es s e t →
      clear s e = true) :
    ∀ s, Visits RelayConnection.step (.start appLockEnabled) es s → Progress s := by
  intro s hv
  have hboth : Isolation.Inv s ∧ Inv s := by
    refine visits_invariant (fun s => Isolation.Inv s ∧ Inv s) ?_ ?_ hv
    · refine ⟨Isolation.inv_start appLockEnabled, inv_of_not_owed rfl fun hsome => ?_⟩
      cases hsome
    · rintro s e t ⟨hiso, hinv⟩ ho
      exact ⟨Isolation.inv_step hiso ho.step_eq,
        inv_step hiso hinv (hclear s e t ho) ho.step_eq⟩
  intro hfront hopen hdebt hquiet
  have hcarried := hboth.2.carried hdebt
  rw [Bool.or_eq_true, Bool.or_eq_true] at hcarried
  obtain (htimer | haway) | hbusy := hcarried
  · exact .inr htimer
  · rw [away, hfront, hopen, Bool.or_false, Bool.and_false] at haway
    cases haway
  · obtain ⟨id, hid, hcarries⟩ := (busy_iff).mp hbusy
    refine .inl ⟨id, hid, ?_⟩
    have hpump := hquiet.pumps id hid .reschedule
    simpa [carries, hpump] using hcarries

def home : Address := ⟨"wss://relay".toList, "handle".toList⟩

/-- A session whose link has dropped, with the timer pending. -/
def backOff : List RelayConnection.Event :=
  [.unlock, .connect home (.reconnect ['k']), .oldClosed 0, .opened 0 true, .registered 0 .joined,
    .handshook 0 true, .firstFrame 0 .good ['k'], .deviceInfoSent 0, .returns 0 false,
    .streamClosed 0 false, .pumpClosed 0]

/-- A lock under the attempt that the timer has begun, and the return. -/
def lockedOut : List RelayConnection.Event :=
  backOff ++ [.timerFires, .oldClosed 1, .opened 1 true, .lock, .registered 1 .unusable,
    .iteratorCancelled 1, .closed 1, .returns 1 false, .unlock]

theorem reconnects_progress_lockedOut :
    (∃ s, Visits RelayConnection.step (.start true) lockedOut s ∧ owed s = true ∧
      s.backgrounded = false ∧ s.gate.isLocked = false ∧ s.made = 3) ∧
    ∀ s, Visits RelayConnection.step (.start true) lockedOut s → Progress s := by
  have hall : everyStep RelayConnection.step clear (.start true) lockedOut = true := by
    decide
  refine ⟨?_, reconnects_progress true lockedOut fun _ _ _ ho => occurs_good hall ho⟩
  have hlast : (run RelayConnection.step (.start true) lockedOut).any (fun s =>
      decide (owed s = true ∧ s.backgrounded = false ∧ s.gate.isLocked = false ∧
        s.made = 3)) = true := by decide +kernel
  obtain ⟨s, hr, hp⟩ := (Option.any_eq_true _ _).mp hlast
  exact ⟨s, visits_end hr, of_decide_eq_true hp⟩

/-- The background cancels the timer and remembers nothing. -/
theorem reconnects_forgotten :
    ¬∀ appLockEnabled es s, Visits RelayConnection.step (.start appLockEnabled) es s →
      Progress s := by
  intro hall
  have hlast : (run RelayConnection.step (.start true) (backOff ++ [.paused, .resumed])).any
      (fun s => !s.backgrounded && !s.gate.isLocked && owed s && !timerPending s &&
        (List.range s.made).all fun id => isOver (s.attempt id) &&
          decide ((s.attempt id).pump = .done)) = true := by decide
  obtain ⟨s, hr, hp⟩ := (Option.any_eq_true _ _).mp hlast
  simp only [Bool.and_eq_true, Bool.not_eq_true', List.all_eq_true, List.mem_range,
    decide_eq_true_eq] at hp
  obtain ⟨⟨⟨⟨hfront, hopen⟩, hdebt⟩, htimer⟩, hattempts⟩ := hp
  have hquiet : Quiescent s := by
    refine ⟨fun id hid => ?_, fun id hid after hclosing => ?_⟩
    · have hover := (hattempts id hid).1
      unfold isOver at hover
      unfold ends
      split at hover
      · rename_i hphase
        rw [hphase]
      · cases hover
    · rw [(hattempts id hid).2] at hclosing
      cases hclosing
  obtain ⟨id, hid, hrunning⟩ | hpending := hall true _ s (visits_end hr) hfront hopen hdebt hquiet
  · rw [(hattempts id hid).1] at hrunning
    cases hrunning
  · rw [htimer] at hpending
    cases hpending

end HerdrMobile.App.Owed
