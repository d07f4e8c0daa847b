import HerdrMobile.App.Wanted

/-!
# What an attempt keeps

An attempt never changes whom it connects to, whatever comes in between, and one that tells of
success has published its session.
-/
namespace HerdrMobile.App.Attempts

open HerdrMobile.Lib.Run HerdrMobile.App.Connection HerdrMobile.Proto.Messages
open HerdrMobile.App.Frames
open HerdrMobile.App.Wanted (pushes_connect)

set_option autoImplicit false

/-- Who tells of success has published its session. -/
def Honest (s : RelayConnection) : Prop :=
  ∀ id, told (s.attempt id).phase = some .ok → id ∈ s.connected

structure Onward (s t : RelayConnection) : Prop where
  made : s.made ≤ t.made
  address : ∀ id < s.made, (t.attempt id).address = (s.attempt id).address
  mode : ∀ id < s.made, (t.attempt id).mode = (s.attempt id).mode
  connected : ∀ id ∈ s.connected, id ∈ t.connected
  told : ∀ id, told (t.attempt id).phase = some .ok →
    told (s.attempt id).phase = some .ok ∨ id ∈ t.connected

section Operations

variable {s t u : RelayConnection} {id : Nat}

theorem Onward.trans (h : Onward s t) (h' : Onward t u) : Onward s u where
  made := Nat.le_trans h.made h'.made
  address j hj := (h'.address j (Nat.lt_of_lt_of_le hj h.made)).trans (h.address j hj)
  mode j hj := (h'.mode j (Nat.lt_of_lt_of_le hj h.made)).trans (h.mode j hj)
  connected j hj := h'.connected j (h.connected j hj)
  told j hj := by
    obtain hbefore | hnow := h'.told j hj
    · exact (h.told j hbefore).imp_right (h'.connected j)
    · exact .inr hnow

theorem Honest.onward (h : Honest s) (hon : Onward s t) : Honest t := by
  intro j hj
  obtain hbefore | hnow := hon.told j hj
  · exact hon.connected j (h j hbefore)
  · exact hnow

/-- The attempts and the published sessions are as before. -/
theorem onward_same (hmade : t.made = s.made) (hattempt : t.attempt = s.attempt)
    (hconnected : t.connected = s.connected) : Onward s t where
  made := Nat.le_of_eq hmade.symm
  address j _ := by rw [hattempt]
  mode j _ := by rw [hattempt]
  connected j hj := hconnected ▸ hj
  told j hj := .inl (hattempt ▸ hj)

theorem Onward.refl (s : RelayConnection) : Onward s s := onward_same rfl rfl rfl

theorem onward_set {a : Attempt} (haddress : a.address = (s.attempt id).address)
    (hmode : a.mode = (s.attempt id).mode)
    (htold : Frames.told a.phase = some .ok →
      Frames.told (s.attempt id).phase = some .ok ∨ id ∈ s.connected) :
    Onward s (s.set id a) where
  made := Nat.le_refl _
  address j _ := by
    by_cases hj : j = id
    · rw [hj, s.attempt_set, haddress]
    · rw [s.attempt_set_of_ne a hj]
  mode j _ := by
    by_cases hj : j = id
    · rw [hj, s.attempt_set, hmode]
    · rw [s.attempt_set_of_ne a hj]
  connected _ hj := hj
  told j hj := by
    by_cases heq : j = id
    · rw [heq, s.attempt_set] at hj
      rw [heq]
      exact htold hj
    · rw [s.attempt_set_of_ne a heq] at hj
      exact .inl hj

theorem onward_freely : Freely Onward where
  trans := Onward.trans
  same hattempt hmade hconnected _ _ := onward_same hmade hattempt hconnected
  mark _ _ _ _ _ := onward_set rfl rfl .inl
  turn _ _ _ := onward_set rfl rfl .inl

theorem onward_course : Course Onward where
  trans := Onward.trans
  askClose _ _ := onward_set rfl rfl .inl
  drop _ _ := onward_same rfl rfl rfl
  move _ _ _ htold := onward_set rfl rfl fun hok => .inl (htold hok)
  pend {s id} _ := by
    have hpending : Onward s { s with pendingChannel := some id } := onward_same rfl rfl rfl
    exact hpending.trans (onward_set rfl rfl nofun)

theorem onward_begin (s : RelayConnection) (id : Nat) : Onward s (s.begin id) := by
  have hforget : ∀ t : RelayConnection, Onward t (t.forgetFor id) := by
    intro t
    unfold RelayConnection.forgetFor
    split
    · exact onward_same rfl rfl rfl
    · exact .refl t
  have htake : ∀ t : RelayConnection, Onward t (t.take id) := fun t => onward_set rfl rfl nofun
  unfold RelayConnection.begin
  split
  · exact onward_set rfl rfl nofun
  · split
    · exact onward_set rfl rfl nofun
    · refine Onward.trans ?_ (onward_freely.close _ false)
      exact ((onward_freely.interrupt s).trans (htake _)).trans (hforget _)

theorem onward_push (s : RelayConnection) (caller : Caller) (address : Address) (mode : Mode)
    {phase : Phase} (hphase : Frames.told phase ≠ some .ok) :
    Onward s (s.push caller address mode phase) := by
  have hother : ∀ j, j ≠ s.made →
      (s.push caller address mode phase).attempt j = s.attempt j := fun j hj =>
    RelayConnection.attempt_set_of_ne _ _ hj
  refine ⟨Nat.le_succ _, ?_, ?_, fun _ hj => hj, ?_⟩
  · intro j hj
    rw [hother j (Nat.ne_of_lt hj)]
  · intro j hj
    rw [hother j (Nat.ne_of_lt hj)]
  · intro j hj
    by_cases heq : j = s.made
    · rw [heq, RelayConnection.push, RelayConnection.attempt_set] at hj
      exact absurd hj hphase
    · rw [hother j heq] at hj
      exact .inl hj

theorem onward_connect (s : RelayConnection) (caller : Caller) (address : Address) (mode : Mode) :
    Onward s (s.connect caller address mode) := by
  unfold RelayConnection.connect
  split
  · exact onward_push s caller address mode nofun
  · have hobserved : Onward s { s with observed := true } := onward_same rfl rfl rfl
    have hpush : Onward s ({ s with observed := true }.push caller address mode .unlocking) :=
      hobserved.trans (onward_push _ caller address mode nofun)
    dsimp only
    split
    · exact hpush
    · exact hpush.trans (onward_begin _ _)

theorem onward_resumed (s : RelayConnection) : Onward s s.resumed :=
  onward_freely.resumed fun _ _ => onward_connect _ _ _ _

theorem onward_gate (s : RelayConnection) (g : Gate) : Onward s { s with gate := g }.notify := by
  have hgate : Onward s { s with gate := g } := onward_same rfl rfl rfl
  exact hgate.trans (onward_freely.notify fun _ => onward_resumed _)

/-- The session is published with the success. -/
theorem onward_succeeds (s : RelayConnection) (id : Nat) :
    Onward s ({ s with connected := id :: s.connected }.set id
      { s.attempt id with phase := .returned .ok, pump := .reading }) := by
  have hpublished : Onward s { s with connected := id :: s.connected } :=
    ⟨Nat.le_refl _, fun _ _ => rfl, fun _ _ => rfl, fun _ => List.mem_cons_of_mem _, fun _ => .inl⟩
  exact hpublished.trans (onward_set rfl rfl fun _ => .inr List.mem_cons_self)

theorem onward_install (s : RelayConnection) (id : Nat) (key : Text) :
    Onward s (s.install id key) := by
  have hcurrent : Onward s { s with
      pendingChannel := none, channel := some id, stopped := false
      lastParams := some ⟨(s.attempt id).address, key⟩ } := onward_same rfl rfl rfl
  exact hcurrent.trans (onward_set rfl rfl nofun)

theorem onward_over {result : Result} (hphase : (s.attempt id).phase = .returned result) :
    Onward s (s.goto id (.over result)) :=
  onward_set rfl rfl fun hok => .inl (by rw [hphase]; exact hok)

theorem onward_step {e : RelayConnection.Event} (hs : s.step e = some t) : Onward s t := by
  cases RelayConnection.moved_of_step hs with
  | connect address mode =>
    have hasked : Onward s { s with asked := some (address, mode), ended := false } :=
      onward_same rfl rfl rfl
    exact hasked.trans (onward_connect _ _ _ _)
  | timerFires params _ =>
    have hidle : Onward s { s with reconnectTimer := .idle } := onward_same rfl rfl rfl
    exact hidle.trans (onward_connect _ _ _ _)
  | paused => exact onward_freely.paused s
  | resumed => exact onward_resumed s
  | networkStable => exact onward_freely.onNetworkStable s
  | lock => exact onward_gate s _
  | unlock => exact onward_gate s _
  | unlocked => exact .refl s
  | setAppLockEnabled value _ => exact onward_gate s _
  | appLockKept value => exact .refl s
  | disconnect => exact onward_freely.disconnect s
  | cancel id => exact onward_freely.cancel s id
  | dispose => exact onward_freely.dispose s
  | disposed _ => exact onward_freely.close s false
  | unlockEnded id _ => exact onward_begin s id
  | oldClosed id hphase => exact onward_course.oldClosed hphase
  | opened id success hphase => exact onward_course.opened hphase success
  | registered id answer hphase => exact onward_course.registered hphase answer
  | handshook id success hphase => exact onward_course.handshook hphase success
  | firstFrame id frame key hphase _ =>
    refine onward_course.firstFrame hphase fun _ => onward_course.guarded ?_ (onward_install s id key)
    rw [hphase]
    rfl
  | mismatchSent id hphase => exact onward_course.mismatchSent hphase
  | deviceInfoSent id hphase => exact onward_course.deviceInfoSent hphase (onward_succeeds s id)
  | threw id hphase => exact onward_course.threw hphase
  | iteratorCancelled id result hphase => exact onward_course.iteratorCancelled hphase
  | closed id result hphase => exact onward_course.closed hphase
  | returns id staleSlot result hphase =>
    exact onward_freely.returns staleSlot (onward_over hphase)
  | received id _ => exact onward_freely.received s id
  | decoded id outcome _ => exact onward_freely.decoded s id outcome
  | timedOut id _ => exact onward_freely.pumpEnds s id false
  | streamClosed id revoked _ => exact onward_freely.pumpEnds s id revoked
  | pumpClosed id after _ => exact onward_freely.pumpClosed s id after
  | disconnectSent id _ => exact onward_set rfl rfl .inl
  | deliver index m _ => exact onward_freely.deliver s m

/-- The call of a person makes the next attempt, which is for what the person has asked. -/
theorem connect_made {address : Address} {mode : Mode}
    (hs : s.step (.connect address mode) = some t) :
    s.made < t.made ∧ (t.attempt s.made).address = address ∧ (t.attempt s.made).mode = mode := by
  cases hs
  have hpush := pushes_connect { s with asked := some (address, mode), ended := false }
    .person address mode
  exact ⟨Nat.lt_of_lt_of_eq (Nat.lt_succ_self _) hpush.made.symm, hpush.address, hpush.mode⟩

end Operations

theorem honest_start (appLockEnabled : Bool) : Honest (.start appLockEnabled) := nofun

end HerdrMobile.App.Attempts
