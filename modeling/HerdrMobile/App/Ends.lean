import HerdrMobile.App.Frames

/-!
# How a session ends

The current session is closed by its own pump, or by whatever overtakes it. Only the first step of
a pump and the pump itself change what a pump waits for.
-/
namespace HerdrMobile.App.Ends

open HerdrMobile.App.Connection HerdrMobile.App.Frames HerdrMobile.Proto.Messages
open HerdrMobile.App.Isolation (finished)

set_option autoImplicit false

def isClosing : Pump → Bool
  | .closing _ => true
  | _ => false

def isRunning : Pump → Bool
  | .reading | .decoding => true
  | _ => false

/-- A pump begins when its attempt has succeeded. -/
def Settled (a : Attempt) : Prop := a.pump ≠ .off → finished a.phase = true

/-- The attempt that has got through to the Host with its `device_info`. -/
def connects (s : RelayConnection) : RelayConnection.Event → Option Nat
  | .deviceInfoSent id => if s.mayUse id && (s.checkAttempt id).isNone then some id else none
  | _ => none

def sendsDeviceInfo : Phase → Bool
  | .deviceInfo => true
  | _ => false

/-- An attempt that sends its `device_info` is no longer pending. -/
def Handed (s : RelayConnection) : Prop :=
  ∀ j, sendsDeviceInfo (s.attempt j).phase = true → s.pendingChannel ≠ some j

/-- Nothing happens to a pump, and the current session is kept or closed. -/
structure Steady (s t : RelayConnection) : Prop where
  made : s.made ≤ t.made
  channel : t.channel = s.channel ∨ t.channel = none
  pumps : ∀ j, (t.attempt j).pump = (s.attempt j).pump
  settled : (∀ j, Settled (s.attempt j)) → ∀ j, Settled (t.attempt j)
  handed : Handed s → Handed t

/-- Every attempt that has not been made has its pump off. -/
def Unmade (s : RelayConnection) : Prop := ∀ j, s.made ≤ j → (s.attempt j).pump = .off

section Operations

variable {s t u : RelayConnection} {id : Nat}

theorem Steady.trans (h : Steady s t) (h' : Steady t u) : Steady s u where
  made := Nat.le_trans h.made h'.made
  channel := by
    obtain hsame | hnone := h'.channel
    · rw [hsame]
      exact h.channel
    · exact .inr hnone
  pumps j := (h'.pumps j).trans (h.pumps j)
  settled hs := h'.settled (h.settled hs)
  handed hs := h'.handed (h.handed hs)

theorem steady_same (hattempt : t.attempt = s.attempt) (hmade : t.made = s.made)
    (hchannel : t.channel = s.channel ∨ t.channel = none)
    (hpending : t.pendingChannel = s.pendingChannel ∨ t.pendingChannel = none) : Steady s t where
  made := Nat.le_of_eq hmade.symm
  channel := hchannel
  pumps j := by rw [hattempt]
  settled hs j := by
    rw [hattempt]
    exact hs j
  handed hs j hsends := by
    rw [hattempt] at hsends
    obtain hsame | hnone := hpending
    · rw [hsame]
      exact hs j hsends
    · rw [hnone]
      exact (Option.some_ne_none j).symm

/-- A start with the same attempts and the same session. -/
theorem Steady.of_same (h : Steady s t) (hattempt : s.attempt = u.attempt)
    (hmade : s.made = u.made) (hchannel : s.channel = u.channel)
    (hpending : s.pendingChannel = u.pendingChannel) : Steady u t :=
  Steady.trans (steady_same hattempt hmade (.inl hchannel) (.inl hpending)) h

theorem steady_refl (s : RelayConnection) : Steady s s := steady_same rfl rfl (.inl rfl) (.inl rfl)

theorem steady_set {a : Attempt} (hpump : a.pump = (s.attempt id).pump)
    (ha : Settled (s.attempt id) → Settled a)
    (hsends : sendsDeviceInfo a.phase = true → sendsDeviceInfo (s.attempt id).phase = true) :
    Steady s (s.set id a) where
  made := Nat.le_refl _
  channel := .inl rfl
  pumps j := by
    by_cases heq : j = id
    · rw [heq, s.attempt_set, hpump]
    · rw [s.attempt_set_of_ne a heq]
  settled hs j := by
    by_cases heq : j = id
    · rw [heq, s.attempt_set]
      exact ha (hs id)
    · rw [s.attempt_set_of_ne a heq]
      exact hs j
  handed hs j hj := by
    by_cases heq : j = id
    · rw [heq, s.attempt_set] at hj
      rw [heq]
      exact hs id (hsends hj)
    · rw [s.attempt_set_of_ne a heq] at hj
      exact hs j hj

/-- Another phase of an attempt whose pump has not begun. -/
theorem steady_phase {a : Attempt} (hpump : a.pump = (s.attempt id).pump)
    (hphase : finished (s.attempt id).phase = false) (hsends : sendsDeviceInfo a.phase = false) :
    Steady s (s.set id a) := by
  refine steady_set hpump (fun hs hne => ?_) fun h => ?_
  · rw [hs (hpump ▸ hne)] at hphase
    cases hphase
  · rw [h] at hsends
    cases hsends

theorem steady_aside : Aside Steady where
  trans := Steady.trans
  same hattempt hmade _ hchannel hpending := steady_same hattempt hmade hchannel hpending
  mark _ _ _ _ _ := steady_set rfl (fun hs => hs) fun h => h

theorem steady_course : Course Steady where
  trans := Steady.trans
  askClose := steady_aside.askClose
  drop s id := by
    refine steady_same rfl rfl (.inl rfl) ?_
    by_cases hpending : s.pendingChannel = some id
    · exact .inr (if_pos hpending)
    · exact .inl (if_neg hpending)
  move {s id phase} _ hopen hplain _ := by
    refine steady_phase rfl hopen ?_
    cases phase with
    | deviceInfo => cases hplain
    | _ => rfl
  pend {s id} hopen := by
    have hset := @steady_phase s id
      { s.attempt id with opened := true, phase := .registering } rfl hopen rfl
    refine ⟨hset.made, hset.channel, hset.pumps, hset.settled, fun hs j hsends hpending => ?_⟩
    cases hpending
    rw [RelayConnection.attempt_set] at hsends
    cases hsends

theorem steady_begin (hphase : (s.attempt id).phase = .unlocking) : Steady s (s.begin id) := by
  have hopen : finished (s.attempt id).phase = false := by rw [hphase]; rfl
  have hphase' : finished (s.interruptPendingConnection.attempt id).phase = false := by
    unfold RelayConnection.interruptPendingConnection
    cases s.pendingChannel with
    | none => exact hopen
    | some i =>
      show finished ((s.askClose i).attempt id).phase = false
      by_cases hi : id = i
      · rw [← hi, RelayConnection.askClose, s.attempt_set]
        exact hopen
      · rw [RelayConnection.askClose, s.attempt_set_of_ne _ hi]
        exact hopen
  have htake : Steady s (s.interruptPendingConnection.take id) :=
    (steady_aside.interrupt s).trans (steady_phase rfl hphase' rfl)
  have hforget : Steady s ((s.interruptPendingConnection.take id).forgetFor id) := by
    unfold RelayConnection.forgetFor
    split
    · exact htake.trans (steady_same rfl rfl (.inl rfl) (.inl rfl))
    · exact htake
  unfold RelayConnection.begin
  split
  · exact steady_phase rfl hopen rfl
  · split
    · exact steady_phase rfl hopen rfl
    · exact hforget.trans (steady_aside.close _ false)

theorem steady_push (hunmade : Unmade s) (caller : Caller) (address : Address) (mode : Mode)
    {phase : Phase} (hsends : sendsDeviceInfo phase = false) :
    Steady s (s.push caller address mode phase) := by
  have hoff : (s.attempt s.made).pump = .off := hunmade s.made (Nat.le_refl _)
  have hnew : Steady { s with made := s.made + 1 } (s.push caller address mode phase) := by
    refine steady_set hoff.symm (fun _ hne => absurd rfl hne) fun h => ?_
    rw [show sendsDeviceInfo phase = true from h] at hsends
    cases hsends
  exact ⟨Nat.le_trans (Nat.le_succ _) hnew.made, hnew.channel, hnew.pumps, hnew.settled,
    hnew.handed⟩

theorem steady_connect (hunmade : Unmade s) (caller : Caller) (address : Address) (mode : Mode) :
    Steady s (s.connect caller address mode) := by
  unfold RelayConnection.connect
  split
  · exact steady_push hunmade _ _ _ rfl
  · have hunmade' : Unmade { s with observed := true } := hunmade
    have hpush := @steady_push _ hunmade' caller address mode .unlocking rfl
    have hasked := @Steady.of_same _ _ s hpush rfl rfl rfl rfl
    dsimp only
    split
    · exact hasked
    · refine hasked.trans (steady_begin ?_)
      rw [RelayConnection.push, RelayConnection.attempt_set]
      rfl

theorem steady_resumed (hunmade : Unmade s) : Steady s s.resumed := by
  refine steady_aside.resumed fun timer params => steady_connect ?_ _ _ _
  exact hunmade

theorem steady_gate (hunmade : Unmade s) (g : Gate) : Steady s { s with gate := g }.notify := by
  have hgate : Steady s { s with gate := g } := steady_same rfl rfl (.inl rfl) (.inl rfl)
  refine hgate.trans (steady_aside.notify fun _ => steady_resumed ?_)
  exact hunmade

end Operations

/-- The pump that an event is about. -/
def pumpOf : RelayConnection.Event → Option Nat
  | .received id | .decoded id _ | .timedOut id | .streamClosed id _ | .pumpClosed id => some id
  | _ => none

/-- One pump goes on, and the others wait as before. -/
structure Pumps (id : Nat) (s t : RelayConnection) : Prop where
  made : s.made ≤ t.made
  others : ∀ j, j ≠ id → (t.attempt j).pump = (s.attempt j).pump
  settled : (∀ j, Settled (s.attempt j)) → ∀ j, Settled (t.attempt j)
  handed : Handed s → Handed t

/-- What a step does to the current session and to the pumps. -/
inductive Kind (s : RelayConnection) (e : RelayConnection.Event) (t : RelayConnection) : Prop
  | steady (hconnects : connects s e = none) (hpump : pumpOf e = none) (h : Steady s t)
  | installs (hconnects : connects s e = none) (hpump : pumpOf e = none) (id : Nat)
      (hbefore : s.channel = none) (hoff : (s.attempt id).pump = .off)
      (hchannel : t.channel = some id) (h : Pumps id s t)
      (hpumps : (t.attempt id).pump = (s.attempt id).pump)
  | succeeds (id : Nat) (hconnects : connects s e = some id) (hpump : pumpOf e = none)
      (hcurrent : s.channel = some id) (hmade : id < s.made) (hoff : (s.attempt id).pump = .off)
      (hchannel : t.channel = s.channel) (h : Pumps id s t)
      (hreading : (t.attempt id).pump = .reading)
  | goesOn (hconnects : connects s e = none) (id : Nat) (hpump : pumpOf e = some id)
      (hrunning : isRunning (s.attempt id).pump = true) (hchannel : t.channel = s.channel)
      (h : Pumps id s t) (hafter : isRunning (t.attempt id).pump = true)
  | leaves (hconnects : connects s e = none) (id : Nat) (hpump : pumpOf e = some id)
      (hrunning : isRunning (s.attempt id).pump = true) (hbefore : s.channel ≠ some id)
      (hchannel : t.channel = s.channel) (h : Pumps id s t)
      (hafter : (t.attempt id).pump = .done)
  | closes (hconnects : connects s e = none) (id : Nat) (hpump : pumpOf e = some id)
      (hrunning : isRunning (s.attempt id).pump = true) (hbefore : s.channel = some id)
      (hchannel : t.channel = none) (h : Pumps id s t)
      (hafter : isClosing (t.attempt id).pump = true)
  | closed (hconnects : connects s e = none) (id : Nat) (he : e = .pumpClosed id)
      (hclosing : isClosing (s.attempt id).pump = true) (hchannel : t.channel = s.channel)
      (h : Pumps id s t) (hafter : (t.attempt id).pump = .done)

section Step

variable {s t : RelayConnection} {e : RelayConnection.Event} {id : Nat}

theorem Pumps.trans (h : Pumps id s t) {u : RelayConnection} (h' : Steady t u) :
    Pumps id s u where
  made := Nat.le_trans h.made h'.made
  others j hj := (h'.pumps j).trans (h.others j hj)
  settled hs := h'.settled (h.settled hs)
  handed hs := h'.handed (h.handed hs)

/-- A pump that waits for something else has begun before. -/
theorem pumps_turn {pump : Pump} (hon : (s.attempt id).pump ≠ .off) :
    Pumps id s (s.turn id pump) where
  made := Nat.le_refl _
  others j hj := by rw [RelayConnection.turn, s.attempt_set_of_ne _ hj]
  settled hs j := by
    by_cases heq : j = id
    · rw [heq, RelayConnection.turn, s.attempt_set]
      exact fun _ => hs id hon
    · rw [RelayConnection.turn, s.attempt_set_of_ne _ heq]
      exact hs j
  handed hs j hj := by
    by_cases heq : j = id
    · rw [heq, RelayConnection.turn, s.attempt_set] at hj
      exact heq ▸ hs id hj
    · rw [RelayConnection.turn, s.attempt_set_of_ne _ heq] at hj
      exact hs j hj

theorem turn_pump (s : RelayConnection) (id : Nat) (pump : Pump) :
    ((s.turn id pump).attempt id).pump = pump := by
  rw [RelayConnection.turn, s.attempt_set]

theorem pumps_pumpEnds {revoked : Bool} (hon : (s.attempt id).pump ≠ .off) :
    Pumps id s (s.pumpEnds id revoked) := by
  unfold RelayConnection.pumpEnds
  split
  · next hchannel =>
    have hclose := steady_aside.close s false
    have hstill : ((s.closeCurrentSocket false).attempt id).pump ≠ .off := by
      rw [hclose.pumps]
      exact hon
    have hturn := @pumps_turn _ _ (.closing (if revoked then .revoked else .reschedule)) hstill
    exact ⟨Nat.le_trans hclose.made hturn.made,
      fun j hj => (hturn.others j hj).trans (hclose.pumps j),
      fun hs => hturn.settled (hclose.settled hs), fun hs => hturn.handed (hclose.handed hs)⟩
  · exact pumps_turn hon

/-- The pump that is current closes the session, and another one is done. -/
theorem kind_pumpEnds {revoked : Bool} (hconnects : connects s e = none)
    (hpump : pumpOf e = some id) (hrunning : isRunning (s.attempt id).pump = true) :
    Kind s e (s.pumpEnds id revoked) := by
  have hon : (s.attempt id).pump ≠ .off := by
    intro hoff
    rw [hoff] at hrunning
    cases hrunning
  have hpumps : Pumps id s (s.pumpEnds id revoked) := pumps_pumpEnds hon
  by_cases hcurrent : s.channel = some id
  · have hends : (s.pumpEnds id revoked).channel = none := by
      unfold RelayConnection.pumpEnds RelayConnection.closeCurrentSocket
      rw [if_pos hcurrent, hcurrent]
      rfl
    have hclosing : ((s.pumpEnds id revoked).attempt id).pump =
        .closing (if revoked then .revoked else .reschedule) := by
      unfold RelayConnection.pumpEnds
      rw [if_pos hcurrent]
      exact turn_pump ..
    refine .closes hconnects id hpump hrunning hcurrent hends hpumps ?_
    rw [hclosing]
    rfl
  · have hends : s.pumpEnds id revoked = s.turn id .done := if_neg hcurrent
    rw [hends] at hpumps ⊢
    exact .leaves hconnects id hpump hrunning hcurrent rfl hpumps (turn_pump s id .done)

theorem kind_turn {pump : Pump} (hconnects : connects s e = none) (hpump : pumpOf e = some id)
    (hrunning : isRunning (s.attempt id).pump = true) (hafter : isRunning pump = true) :
    Kind s e (s.turn id pump) := by
  have hon : (s.attempt id).pump ≠ .off := by
    intro hoff
    rw [hoff] at hrunning
    cases hrunning
  refine .goesOn hconnects id hpump hrunning rfl (pumps_turn hon) ?_
  rw [turn_pump]
  exact hafter

theorem kind_received (he : e = .received id) (hrunning : isRunning (s.attempt id).pump = true) :
    Kind s e (s.received id) := by
  have hconnects : connects s e = none := by rw [he]; rfl
  have hpump : pumpOf e = some id := by rw [he]; rfl
  unfold RelayConnection.received
  split
  · exact kind_turn hconnects hpump hrunning rfl
  · exact kind_pumpEnds hconnects hpump hrunning

/-- What the listeners are told is no matter of the pumps. -/
theorem Kind.of_broadcast {i : Nat} (hconnects : connects s e = none)
    (hpump : pumpOf e = some id) (h : Kind (s.broadcast i) e t) : Kind s e t := by
  have hpumps {j : Nat} (h : Pumps j (s.broadcast i) t) : Pumps j s t :=
    ⟨h.made, h.others, h.settled, h.handed⟩
  cases h with
  | steady _ hnone _ => cases hnone.symm.trans hpump
  | installs _ hnone => cases hnone.symm.trans hpump
  | succeeds _ _ hnone => cases hnone.symm.trans hpump
  | goesOn _ j hp hrunning hchannel h hafter =>
    exact .goesOn hconnects j hp hrunning hchannel (hpumps h) hafter
  | leaves _ j hp hrunning hbefore hchannel h hafter =>
    exact .leaves hconnects j hp hrunning hbefore hchannel (hpumps h) hafter
  | closes _ j hp hrunning hbefore hchannel h hafter =>
    exact .closes hconnects j hp hrunning hbefore hchannel (hpumps h) hafter
  | closed _ j he hclosing hchannel h hafter =>
    exact .closed hconnects j he hclosing hchannel (hpumps h) hafter

theorem kind_decoded {outcome : RelayConnection.Decoded} (he : e = .decoded id outcome)
    (hrunning : isRunning (s.attempt id).pump = true) : Kind s e (s.decoded id outcome) := by
  have hconnects : ∀ s : RelayConnection, connects s e = none := by
    intro s
    rw [he]
    rfl
  have hpump : pumpOf e = some id := by rw [he]; rfl
  have hrunning' : isRunning ((s.broadcast id).attempt id).pump = true := hrunning
  unfold RelayConnection.decoded
  split
  · cases outcome with
    | nothing => exact kind_turn (hconnects s) hpump hrunning rfl
    | message =>
      exact .of_broadcast (hconnects s) hpump (kind_turn (hconnects _) hpump hrunning' rfl)
    | violation => exact kind_pumpEnds (hconnects s) hpump hrunning
    | fatal revoked =>
      exact .of_broadcast (hconnects s) hpump (kind_pumpEnds (hconnects _) hpump hrunning')
  · exact kind_pumpEnds (hconnects s) hpump hrunning

theorem kind_pumpClosed {after : After} (he : e = .pumpClosed id)
    (hclosing : (s.attempt id).pump = .closing after) : Kind s e (s.pumpClosed id after) := by
  have hconnects : connects s e = none := by rw [he]; rfl
  have hon : (s.attempt id).pump ≠ .off := by
    rw [hclosing]
    intro hoff
    cases hoff
  have hdone : Pumps id s (s.turn id .done) := pumps_turn hon
  have hclosed : isClosing (s.attempt id).pump = true := by rw [hclosing]; rfl
  unfold RelayConnection.pumpClosed
  cases after with
  | revoked =>
    have hforget : Steady (s.turn id .done) { s.turn id .done with lastParams := none } :=
      steady_same rfl rfl (.inl rfl) (.inl rfl)
    exact .closed hconnects id he hclosed rfl (hdone.trans hforget) (turn_pump s id .done)
  | reschedule =>
    have hschedule := steady_aside.schedule (s.turn id .done)
    have hchannel : (s.turn id .done).scheduleReconnect.channel = s.channel := by
      unfold RelayConnection.scheduleReconnect
      split
      · rfl
      · split
        · rfl
        · rfl
    exact .closed hconnects id he hclosed hchannel (hdone.trans hschedule)
      ((hschedule.pumps id).trans (turn_pump s id .done))

/-- The attempt becomes the current one, and no session was. -/
theorem kind_firstFrame (hinv : Isolation.Inv s) (hsettled : ∀ j, Settled (s.attempt j))
    {frame : RelayConnection.FirstFrame} {key : Text}
    (hphase : (s.attempt id).phase = .hostInfo) (hconnects : connects s e = none)
    (hpump : pumpOf e = none) : Kind s e (s.firstFrame id frame key) := by
  have hopen : finished (s.attempt id).phase = false := by rw [hphase]; rfl
  have hoff : (s.attempt id).pump = .off := by
    by_contra hon
    rw [hsettled id hon] at hopen
    cases hopen
  by_cases hgood : frame = .good
  · subst hgood
    unfold RelayConnection.firstFrame
    dsimp only
    unfold RelayConnection.guarded
    split
    · exact .steady hconnects hpump (steady_phase rfl hopen rfl)
    · next hcheck =>
      have hchecked := Isolation.checked_of_none hcheck
      have hnone : s.channel = none := by
        by_contra hsome
        obtain ⟨j, hj⟩ := Option.ne_none_iff_exists'.mp hsome
        obtain ⟨hinstalled, hpos⟩ := hinv.core.channel j hj
        have hgen := (hinv.live.channel j hj).resolve_left (by simp [hchecked.disposed])
        have hsame := hinv.core.unique j id hpos (hgen.1.trans hchecked.generation.symm)
        rw [hsame, (hinv.core.phases id).uninstalled (by rw [hphase]; rfl)] at hinstalled
        cases hinstalled
      refine .installs hconnects hpump id hnone hoff rfl ⟨Nat.le_refl _, ?_, ?_, ?_⟩ ?_
      · intro j hj
        exact congrArg Attempt.pump (RelayConnection.attempt_set_of_ne _ _ hj)
      · intro hs j
        by_cases heq : j = id
        · rw [heq]
          intro hon
          rw [RelayConnection.install, RelayConnection.attempt_set] at hon
          exact absurd hoff hon
        · rw [RelayConnection.install, RelayConnection.attempt_set_of_ne _ _ heq]
          exact hs j
      · exact fun _ j _ => (Option.some_ne_none j).symm
      · rw [RelayConnection.install, RelayConnection.attempt_set]
  · exact .steady hconnects hpump (steady_course.firstFrame hphase fun h => absurd h hgood)

/-- The attempt has succeeded: it is the current one, and its pump begins. -/
theorem kind_deviceInfoSent (hinv : Isolation.Inv s) (hsettled : ∀ j, Settled (s.attempt j))
    (hhanded : Handed s) (hphase : (s.attempt id).phase = .deviceInfo)
    (he : e = .deviceInfoSent id) : Kind s e (s.deviceInfoSent id) := by
  have hopen : finished (s.attempt id).phase = false := by rw [hphase]; rfl
  have hpump : pumpOf e = none := by rw [he]; rfl
  have hoff : (s.attempt id).pump = .off := by
    by_contra hon
    rw [hsettled id hon] at hopen
    cases hopen
  have hconnects : connects s e =
      if s.mayUse id && (s.checkAttempt id).isNone then some id else none := by rw [he]; rfl
  unfold RelayConnection.deviceInfoSent
  split
  · next huse =>
    unfold RelayConnection.guarded
    split
    · next result hcheck =>
      rw [huse, hcheck] at hconnects
      exact .steady hconnects hpump (steady_phase rfl hopen rfl)
    · next hcheck =>
      rw [huse, hcheck] at hconnects
      have hcurrent : s.channel = some id := by
        unfold RelayConnection.mayUse at huse
        simp only [Bool.and_eq_true, Bool.or_eq_true, beq_iff_eq] at huse
        refine huse.2.resolve_right (hhanded id ?_)
        rw [hphase]
        rfl
      have hmade : id < s.made := by
        by_contra hle
        have hpos := (hinv.core.channel id hcurrent).2
        rw [hinv.core.pristine id (Nat.le_of_not_lt hle)] at hpos
        exact Nat.lt_irrefl _ hpos
      refine .succeeds id hconnects hpump hcurrent hmade hoff rfl ⟨Nat.le_refl _, ?_, ?_, ?_⟩ ?_
      · intro j hj
        exact congrArg Attempt.pump (RelayConnection.attempt_set_of_ne _ _ hj)
      · intro hs j
        by_cases heq : j = id
        · rw [heq, RelayConnection.attempt_set]
          exact fun _ => rfl
        · rw [RelayConnection.attempt_set_of_ne _ _ heq]
          exact hs j
      · intro hs j hj
        by_cases heq : j = id
        · rw [heq, RelayConnection.attempt_set] at hj
          cases hj
        · rw [RelayConnection.attempt_set_of_ne _ _ heq] at hj
          exact hs j hj
      · rw [RelayConnection.attempt_set]
  · next hnot =>
    rw [Bool.eq_false_iff.mpr hnot] at hconnects
    exact .steady hconnects hpump (steady_phase rfl hopen rfl)

/-- Every step is of one of the kinds. -/
theorem step_kind (hinv : Isolation.Inv s) (hunmade : Unmade s)
    (hsettled : ∀ j, Settled (s.attempt j)) (hhanded : Handed s) (hs : s.step e = some t) :
    Kind s e t := by
  cases RelayConnection.moved_of_step hs with
  | connect address mode =>
    have hunmade' : Unmade { s with asked := some (address, mode), ended := false } := hunmade
    exact .steady rfl rfl ((steady_connect hunmade' _ _ _).of_same rfl rfl rfl rfl)
  | timerFires params _ =>
    have hunmade' : Unmade { s with reconnectTimer := .idle } := hunmade
    exact .steady rfl rfl ((steady_connect hunmade' _ _ _).of_same rfl rfl rfl rfl)
  | paused => exact .steady rfl rfl (steady_aside.paused s)
  | resumed => exact .steady rfl rfl (steady_resumed hunmade)
  | networkStable => exact .steady rfl rfl (steady_aside.onNetworkStable s)
  | lock => exact .steady rfl rfl (steady_gate hunmade _)
  | unlock => exact .steady rfl rfl (steady_gate hunmade _)
  | unlocked => exact .steady rfl rfl (steady_refl s)
  | setAppLockEnabled value _ => exact .steady rfl rfl (steady_gate hunmade _)
  | appLockKept value => exact .steady rfl rfl (steady_refl s)
  | disconnect => exact .steady rfl rfl (steady_aside.disconnect s)
  | cancel id => exact .steady rfl rfl (steady_aside.cancel s id)
  | dispose => exact .steady rfl rfl (steady_aside.dispose s)
  | disposed _ => exact .steady rfl rfl (steady_aside.close s false)
  | unlockEnded id hphase => exact .steady rfl rfl (steady_begin hphase)
  | oldClosed id hphase => exact .steady rfl rfl (steady_course.oldClosed hphase)
  | opened id success hphase => exact .steady rfl rfl (steady_course.opened hphase success)
  | registered id answer hphase => exact .steady rfl rfl (steady_course.registered hphase answer)
  | handshook id success hphase => exact .steady rfl rfl (steady_course.handshook hphase success)
  | firstFrame id frame key hphase _ => exact kind_firstFrame hinv hsettled hphase rfl rfl
  | mismatchSent id hphase => exact .steady rfl rfl (steady_course.mismatchSent hphase)
  | deviceInfoSent id hphase => exact kind_deviceInfoSent hinv hsettled hhanded hphase rfl
  | threw id hphase => exact .steady rfl rfl (steady_course.threw hphase)
  | iteratorCancelled id result hphase =>
    exact .steady rfl rfl (steady_course.iteratorCancelled hphase)
  | closed id result hphase => exact .steady rfl rfl (steady_course.closed hphase)
  | returns id staleSlot result hphase =>
    have hover : Steady s (s.goto id (.over result)) :=
      steady_set rfl (fun _ _ => rfl) fun h => by cases h
    exact .steady rfl rfl (steady_aside.returns staleSlot hover)
  | received id hpump => exact kind_received rfl (by rw [hpump]; rfl)
  | decoded id outcome hpump => exact kind_decoded rfl (by rw [hpump]; rfl)
  | timedOut id hpump => exact kind_pumpEnds rfl rfl (by rw [hpump]; rfl)
  | streamClosed id revoked hpump =>
    have hruns : ∀ pump ∈ [Pump.reading, .decoding], isRunning pump = true := by decide
    exact kind_pumpEnds rfl rfl (hruns _ hpump)
  | pumpClosed id after hpump => exact kind_pumpClosed rfl hpump
  | disconnectSent id _ => exact .steady rfl rfl (steady_set rfl (fun hs => hs) fun h => h)
  | deliver index m _ => exact .steady rfl rfl (steady_aside.deliver s m)

structure Sound (s : RelayConnection) : Prop where
  isolation : Isolation.Inv s
  unmade : Unmade s
  settled : ∀ j, Settled (s.attempt j)
  handed : Handed s

theorem Pumps.unmade (h : Pumps id s t) (hunmade : Unmade s)
    (hid : id < s.made) : Unmade t := by
  intro j hj
  have hle := Nat.le_trans h.made hj
  rw [h.others j (Nat.ne_of_gt (Nat.lt_of_lt_of_le hid hle))]
  exact hunmade j hle

theorem Sound.step (h : Sound s) (hs : s.step e = some t) : Sound t := by
  have hiso := Isolation.inv_step h.isolation hs
  have hmade : ∀ id, isRunning (s.attempt id).pump = true ∨ isClosing (s.attempt id).pump = true →
      id < s.made := by
    intro id hon
    by_contra hle
    rw [h.unmade id (Nat.le_of_not_lt hle)] at hon
    obtain hrunning | hclosing := hon
    · cases hrunning
    · cases hclosing
  cases step_kind h.isolation h.unmade h.settled h.handed hs with
  | steady _ _ hsteady =>
    refine ⟨hiso, fun j hj => ?_, hsteady.settled h.settled, hsteady.handed h.handed⟩
    rw [hsteady.pumps]
    exact h.unmade j (Nat.le_trans hsteady.made hj)
  | installs _ _ id _ hoff _ hpumps hsame =>
    refine ⟨hiso, fun j hj => ?_, hpumps.settled h.settled, hpumps.handed h.handed⟩
    by_cases hid : j = id
    · rw [hid, hsame]
      exact hoff
    · rw [hpumps.others j hid]
      exact h.unmade j (Nat.le_trans hpumps.made hj)
  | succeeds id _ _ _ hlt _ _ hpumps _ =>
    exact ⟨hiso, hpumps.unmade h.unmade hlt, hpumps.settled h.settled, hpumps.handed h.handed⟩
  | goesOn _ id _ hrunning _ hpumps _ | leaves _ id _ hrunning _ _ hpumps _
  | closes _ id _ hrunning _ _ hpumps _ =>
    exact ⟨hiso, hpumps.unmade h.unmade (hmade id (.inl hrunning)), hpumps.settled h.settled,
      hpumps.handed h.handed⟩
  | closed _ id _ hclosing _ hpumps _ =>
    exact ⟨hiso, hpumps.unmade h.unmade (hmade id (.inr hclosing)), hpumps.settled h.settled,
      hpumps.handed h.handed⟩

theorem sound_start (appLockEnabled : Bool) : Sound (.start appLockEnabled) where
  isolation := Isolation.inv_start appLockEnabled
  unmade _ _ := rfl
  settled _ hon := absurd rfl hon
  handed _ hsends := by cases hsends

end Step

end HerdrMobile.App.Ends
