import HerdrMobile.Lib.Run

/-!
# The session gate

`BiometricGate` of `biometric_gate.dart`, with the key reads that it waits for. A key read that
completes while the app is in the background unlocks the gate and forgets since when the app has
been there.
-/
namespace HerdrMobile.App.Gate

open HerdrMobile.Lib.Run

set_option autoImplicit false

inductive AppLifecycleState where
  | resumed
  | inactive
  | hidden
  | paused
  | detached
deriving DecidableEq

/-- Instants and durations are in microseconds. -/
structure BiometricGate (KeyPair : Type) where
  appLockEnabled : Bool
  deviceStaticKey : Option KeyPair
  locked : Bool
  backgroundedAt : Option Nat
  authenticationGeneration : Nat
  nativeLocked : Bool
deriving DecidableEq

def backgroundLockTimeout : Nat := 120 * 1000000

namespace BiometricGate

variable {KeyPair : Type} (gate : BiometricGate KeyPair)

/-- The constructor. The native window is locked before any gate is made. -/
def new (appLockEnabled : Bool) : BiometricGate KeyPair :=
  { appLockEnabled, deviceStaticKey := none, locked := true, backgroundedAt := none,
    authenticationGeneration := 0, nativeLocked := appLockEnabled }

def isLocked : Bool := gate.appLockEnabled && gate.locked

/-- The getter `deviceStaticKey`. -/
def staticKey : Option KeyPair := if gate.locked then none else gate.deviceStaticKey

def setAppLockEnabled (value : Bool) : BiometricGate KeyPair :=
  if gate.appLockEnabled = value then gate
  else { gate with appLockEnabled := value, nativeLocked := value && gate.locked }

def lock : BiometricGate KeyPair :=
  { gate with
    authenticationGeneration := gate.authenticationGeneration + 1
    deviceStaticKey := none
    locked := true
    nativeLocked := if gate.locked then gate.nativeLocked else gate.appLockEnabled }

def markUnlocked (key : KeyPair) : BiometricGate KeyPair :=
  { gate with
    deviceStaticKey := some key
    locked := false
    nativeLocked := if gate.locked then false else gate.nativeLocked
    backgroundedAt := none }

/-- Whether a resume at `now` locks. -/
def timedOut (now : Nat) : Bool :=
  gate.backgroundedAt.any fun since => backgroundLockTimeout ≤ now - since

/-- Whether a lifecycle change locks. -/
def locksOn (now : Nat) : AppLifecycleState → Bool
  | .resumed => gate.timedOut now
  | .detached => true
  | _ => false

def noteLifecycleChange (now : Nat) (state : AppLifecycleState) : BiometricGate KeyPair :=
  match state with
  | .paused | .hidden => { gate with backgroundedAt := gate.backgroundedAt.or (some now) }
  | .resumed =>
    let back := { gate with backgroundedAt := none }
    if gate.timedOut now then back.lock else back
  | .detached => gate.lock
  | .inactive => gate

/-- `_authenticate` once the key read has completed. The generation is the one it began in. -/
def authenticated (generation : Nat) (key : Option KeyPair) : BiometricGate KeyPair :=
  if generation ≠ gate.authenticationGeneration then gate
  else key.elim gate gate.markUnlocked

end BiometricGate

/-- An authentication whose key read is not complete. `overtaken` says that the gate has locked
since it began. -/
structure Authentication where
  generation : Nat
  overtaken : Bool
deriving DecidableEq

/-- The gate and what it waits for. `background` is since when the app has been in the background
without a break, and `reads` are the keys read since the last lock. -/
structure Session (KeyPair : Type) where
  gate : BiometricGate KeyPair
  now : Nat
  authentications : List (Option Authentication)
  pendingUnlock : Option Nat
  background : Option Nat
  reads : List KeyPair
deriving DecidableEq

inductive Event (KeyPair : Type) where
  | advance (elapsed : Nat)
  | lifecycle (state : AppLifecycleState)
  | setAppLockEnabled (value : Bool)
  | unlock
  | reauthenticateForDestructiveAction
  | keyRead (i : Nat) (key : Option KeyPair)
  | unlockCompleted
deriving DecidableEq

section Step

variable {KeyPair : Type} (s : Session KeyPair)

/-- `_authenticate` up to its key read. -/
def Session.authenticate : Session KeyPair :=
  { s with
    authentications := s.authentications ++
      [some { generation := s.gate.authenticationGeneration, overtaken := false }] }

/-- The background begins with the first `paused` or `hidden` and ends with `resumed`. -/
def backgroundAfter (background : Option Nat) (now : Nat) : AppLifecycleState → Option Nat
  | .paused | .hidden => background.or (some now)
  | .resumed => none
  | _ => background

def overtake (authentication : Authentication) : Authentication :=
  { authentication with overtaken := true }

def Session.noteLifecycleChange (state : AppLifecycleState) : Session KeyPair :=
  let locks := s.gate.locksOn s.now state
  { s with
    gate := s.gate.noteLifecycleChange s.now state
    authentications := if locks then s.authentications.map (Option.map overtake)
      else s.authentications
    background := backgroundAfter s.background s.now state
    reads := if locks then [] else s.reads }

def step : Event KeyPair → Option (Session KeyPair)
  | .advance elapsed => some { s with now := s.now + elapsed }
  | .lifecycle state => some (s.noteLifecycleChange state)
  | .setAppLockEnabled value => some { s with gate := s.gate.setAppLockEnabled value }
  | .unlock =>
    if s.gate.locked ∧ s.pendingUnlock = none then
      some { s.authenticate with pendingUnlock := some s.authentications.length }
    else some s
  | .reauthenticateForDestructiveAction => some s.authenticate
  | .keyRead i key =>
    match s.authentications[i]? with
    | some (some authentication) =>
      some { s with
        gate := s.gate.authenticated authentication.generation key
        authentications := s.authentications.set i none
        reads := key.toList ++ s.reads }
    | _ => none
  | .unlockCompleted =>
    -- `whenComplete`, once the authentication of the unlock is over
    if ∃ i ∈ s.pendingUnlock, s.authentications[i]? = some none then
      some { s with pendingUnlock := none }
    else none

def start (appLockEnabled : Bool) (now : Nat) : Session KeyPair :=
  { gate := .new appLockEnabled, now, authentications := [], pendingUnlock := none,
    background := none, reads := [] }

end Step

variable {KeyPair : Type}

/-- What the background lock promises of a step. -/
structure Secure (s : Session KeyPair) (e : Event KeyPair) (t : Session KeyPair) : Prop where
  resumed : e = .lifecycle .resumed → s.gate.appLockEnabled = true →
    ∀ since, s.background = some since → backgroundLockTimeout ≤ s.now - since →
      t.gate.isLocked = true
  key : ∀ key, t.gate.staticKey = some key → key ∈ t.reads
  overtaken : ∀ i key authentication, e = .keyRead i key →
    s.authentications[i]? = some (some authentication) → authentication.overtaken = true →
      t.gate = s.gate

/-- The key read succeeds and the gate has not locked since it began. -/
def unlocks (s : Session KeyPair) : Event KeyPair → Prop
  | .keyRead i (some _) => ∃ authentication,
      s.authentications[i]? = some (some authentication) ∧ authentication.overtaken = false
  | _ => False

/-- No authentication unlocks while the app is in the background. -/
def InFront (s : Session KeyPair) (e : Event KeyPair) : Prop := unlocks s e → s.background = none

/-- `InFront`, evaluated. -/
def inFront (s : Session KeyPair) : Event KeyPair → Bool
  | .keyRead i (some _) =>
    s.background.isNone ||
      s.authentications[i]?.all fun found => found.all fun pending => pending.overtaken
  | _ => true

theorem inFront_sound {s : Session KeyPair} {e : Event KeyPair} (h : inFront s e = true) :
    InFront s e := by
  intro hu
  cases e with
  | keyRead i key =>
    cases key with
    | none => cases hu
    | some read =>
      obtain ⟨authentication, hi, ho⟩ := hu
      simp only [inFront, hi, Option.all_some, ho, Bool.or_false] at h
      exact Option.isNone_iff_eq_none.mp h
  | _ => cases hu

/-- The flag says whether the gate has locked since the authentication began. -/
structure Authentication.Fits (authentication : Authentication) (current : Nat) : Prop where
  le : authentication.generation ≤ current
  overtaken : authentication.overtaken = true ↔ authentication.generation ≠ current

structure Inv (s : Session KeyPair) : Prop where
  background : s.gate.backgroundedAt = s.background
  key : ∀ key, s.gate.deviceStaticKey = some key → key ∈ s.reads
  fits : ∀ authentication, some authentication ∈ s.authentications →
    authentication.Fits s.gate.authenticationGeneration

theorem inv_start (appLockEnabled : Bool) (now : Nat) :
    Inv (start appLockEnabled now : Session KeyPair) := by
  constructor
  · rfl
  · intro key hk
    cases hk
  · intro authentication ha
    cases ha

theorem inv_authenticate {s : Session KeyPair} (h : Inv s) : Inv s.authenticate := by
  refine ⟨h.background, h.key, ?_⟩
  intro authentication ha
  obtain ha | ha := List.mem_append.mp ha
  · exact h.fits authentication ha
  · cases List.mem_singleton.mp ha
    exact ⟨Nat.le_refl _, nofun, fun hne => absurd rfl hne⟩

section Lifecycle

variable (gate : BiometricGate KeyPair) (now : Nat) (state : AppLifecycleState)

theorem noteLifecycleChange_backgroundedAt :
    (gate.noteLifecycleChange now state).backgroundedAt =
      backgroundAfter gate.backgroundedAt now state := by
  cases state with
  | resumed =>
    simp only [BiometricGate.noteLifecycleChange, backgroundAfter]
    split <;> rfl
  | _ => rfl

theorem noteLifecycleChange_of_locks (h : gate.locksOn now state = true) :
    (gate.noteLifecycleChange now state).deviceStaticKey = none ∧
      (gate.noteLifecycleChange now state).locked = true ∧
      (gate.noteLifecycleChange now state).authenticationGeneration =
        gate.authenticationGeneration + 1 := by
  cases state with
  | resumed =>
    have ht : gate.timedOut now = true := h
    simp only [BiometricGate.noteLifecycleChange, ht, if_true]
    exact ⟨rfl, rfl, rfl⟩
  | detached => exact ⟨rfl, rfl, rfl⟩
  | _ => cases h

theorem noteLifecycleChange_of_stays (h : gate.locksOn now state = false) :
    (gate.noteLifecycleChange now state).deviceStaticKey = gate.deviceStaticKey ∧
      (gate.noteLifecycleChange now state).authenticationGeneration =
        gate.authenticationGeneration := by
  cases state with
  | resumed =>
    have ht : gate.timedOut now = false := h
    simp only [BiometricGate.noteLifecycleChange, ht]
    exact ⟨rfl, rfl⟩
  | detached => cases h
  | _ => exact ⟨rfl, rfl⟩

theorem noteLifecycleChange_appLockEnabled :
    (gate.noteLifecycleChange now state).appLockEnabled = gate.appLockEnabled := by
  cases state with
  | resumed =>
    simp only [BiometricGate.noteLifecycleChange]
    split <;> rfl
  | _ => rfl

end Lifecycle

/-- A lock overtakes whatever has begun. -/
theorem Authentication.Fits.overtake {authentication : Authentication} {current : Nat}
    (h : authentication.Fits current) : (Gate.overtake authentication).Fits (current + 1) := by
  have hle : authentication.generation ≤ current := h.le
  constructor
  · show authentication.generation ≤ current + 1
    omega
  · constructor
    · intro _
      show authentication.generation ≠ current + 1
      omega
    · intro _
      rfl

theorem inv_noteLifecycleChange {s : Session KeyPair} (state : AppLifecycleState) (h : Inv s) :
    Inv (s.noteLifecycleChange state) := by
  have hback : (s.gate.noteLifecycleChange s.now state).backgroundedAt =
      backgroundAfter s.background s.now state := by
    rw [noteLifecycleChange_backgroundedAt, h.background]
  cases hlocks : s.gate.locksOn s.now state with
  | true =>
    obtain ⟨hkey, _, hgen⟩ := noteLifecycleChange_of_locks s.gate s.now state hlocks
    refine ⟨hback, ?_, ?_⟩
    · intro key hk
      cases hkey.symm.trans hk
    · intro authentication ha
      simp only [Session.noteLifecycleChange, hlocks, if_true] at ha ⊢
      obtain ⟨old, hold, heq⟩ := List.mem_map.mp ha
      obtain ⟨old, rfl, rfl⟩ := Option.map_eq_some_iff.mp heq
      rw [hgen]
      exact (h.fits old hold).overtake
  | false =>
    obtain ⟨hkey, hgen⟩ := noteLifecycleChange_of_stays s.gate s.now state hlocks
    refine ⟨hback, ?_, ?_⟩
    · intro key hk
      simp only [Session.noteLifecycleChange, hlocks] at hk ⊢
      exact h.key key (hkey.symm.trans hk)
    · intro authentication ha
      simp only [Session.noteLifecycleChange, hlocks] at ha ⊢
      rw [hgen]
      exact h.fits authentication ha

section KeyRead

variable {gate : BiometricGate KeyPair} {generation : Nat} {key : Option KeyPair}

theorem authenticated_generation :
    (gate.authenticated generation key).authenticationGeneration =
      gate.authenticationGeneration := by
  simp only [BiometricGate.authenticated]
  split
  · rfl
  · cases key <;> rfl

theorem authenticated_key {found : KeyPair}
    (h : (gate.authenticated generation key).deviceStaticKey = some found) :
    gate.deviceStaticKey = some found ∨ key = some found := by
  simp only [BiometricGate.authenticated] at h
  split at h
  · exact .inl h
  · cases key with
    | none => exact .inl h
    | some read => exact .inr h

theorem authenticated_stale (h : generation ≠ gate.authenticationGeneration) :
    gate.authenticated generation key = gate := by
  rw [BiometricGate.authenticated, if_pos h]

/-- A read unlocks only in front, where there is no background to forget. -/
theorem authenticated_backgroundedAt
    (h : generation = gate.authenticationGeneration → key.isSome → gate.backgroundedAt = none) :
    (gate.authenticated generation key).backgroundedAt = gate.backgroundedAt := by
  by_cases hg : generation = gate.authenticationGeneration
  · cases key with
    | none =>
      rw [BiometricGate.authenticated, if_neg (not_not_intro hg)]
      rfl
    | some read =>
      rw [BiometricGate.authenticated, if_neg (not_not_intro hg), h hg rfl]
      rfl
  · rw [authenticated_stale hg]

end KeyRead

theorem inv_step {s t : Session KeyPair} {e : Event KeyPair} (h : Inv s) (he : InFront s e)
    (hs : step s e = some t) : Inv t := by
  cases e with
  | advance elapsed =>
    cases hs
    exact ⟨h.background, h.key, h.fits⟩
  | lifecycle state =>
    cases hs
    exact inv_noteLifecycleChange state h
  | setAppLockEnabled value =>
    cases hs
    have hsame : ∀ gate : BiometricGate KeyPair,
        (gate.setAppLockEnabled value).backgroundedAt = gate.backgroundedAt ∧
        (gate.setAppLockEnabled value).deviceStaticKey = gate.deviceStaticKey ∧
        (gate.setAppLockEnabled value).authenticationGeneration =
          gate.authenticationGeneration := by
      intro gate
      simp only [BiometricGate.setAppLockEnabled]
      split <;> exact ⟨rfl, rfl, rfl⟩
    obtain ⟨hback, hkey, hgen⟩ := hsame s.gate
    refine ⟨hback.trans h.background, ?_, ?_⟩
    · intro key hk
      exact h.key key (hkey.symm.trans hk)
    · intro authentication ha
      have hfits := h.fits authentication ha
      rw [← hgen] at hfits
      exact hfits
  | unlock =>
    simp only [step] at hs
    split at hs
    · cases hs
      have hauth := inv_authenticate h
      exact ⟨hauth.background, hauth.key, hauth.fits⟩
    · cases hs
      exact h
  | reauthenticateForDestructiveAction =>
    cases hs
    exact inv_authenticate h
  | keyRead i key =>
    simp only [step] at hs
    split at hs
    · rename_i authentication hi
      cases hs
      have hfits := h.fits authentication (List.mem_of_getElem? hi)
      refine ⟨?_, ?_, ?_⟩
      · show (s.gate.authenticated authentication.generation key).backgroundedAt = s.background
        rw [← h.background]
        apply authenticated_backgroundedAt
        intro hg hk
        cases key with
        | none => cases hk
        | some read =>
          rw [h.background]
          apply he
          refine ⟨authentication, hi, ?_⟩
          have hnot : ¬authentication.overtaken = true := fun ho => hfits.overtaken.mp ho hg
          simpa using hnot
      · intro found hf
        obtain hf | rfl := authenticated_key hf
        · exact List.mem_append_right _ (h.key found hf)
        · exact List.mem_append_left _ (List.mem_singleton_self _)
      · intro other ho
        show other.Fits
          (s.gate.authenticated authentication.generation key).authenticationGeneration
        rw [authenticated_generation]
        obtain ho | ho := List.mem_or_eq_of_mem_set ho
        · exact h.fits other ho
        · cases ho
    · cases hs
  | unlockCompleted =>
    simp only [step] at hs
    split at hs
    · cases hs
      exact ⟨h.background, h.key, h.fits⟩
    · cases hs

theorem secure_step {s t : Session KeyPair} {e : Event KeyPair} (h : Inv s) (he : InFront s e)
    (hs : step s e = some t) : Secure s e t := by
  constructor
  · rintro rfl hon since hsince htime
    cases hs
    have htimed : s.gate.timedOut s.now = true := by
      rw [BiometricGate.timedOut, h.background, hsince]
      exact decide_eq_true htime
    obtain ⟨_, hlocked, _⟩ := noteLifecycleChange_of_locks s.gate s.now .resumed htimed
    have happ := noteLifecycleChange_appLockEnabled s.gate s.now .resumed
    show (s.gate.noteLifecycleChange s.now .resumed).isLocked = true
    rw [BiometricGate.isLocked, happ, hlocked, hon]
    rfl
  · intro key hk
    apply (inv_step h he hs).key
    rw [BiometricGate.staticKey] at hk
    split at hk
    · cases hk
    · exact hk
  · rintro i key authentication rfl hi ho
    simp only [step, hi] at hs
    cases hs
    have hfits := h.fits authentication (List.mem_of_getElem? hi)
    exact authenticated_stale (hfits.overtaken.mp ho)

/-- Where no authentication unlocks in the background, every step of the gate is secure. -/
theorem gate_secure {appLockEnabled : Bool} {now : Nat} {es : List (Event KeyPair)}
    (hfront : ∀ s e t, Occurs step (start appLockEnabled now) es s e t → InFront s e)
    {s t : Session KeyPair} {e : Event KeyPair}
    (ho : Occurs step (start appLockEnabled now) es s e t) : Secure s e t := by
  have hinv : Inv s := by
    apply visits_invariant Inv (inv_start appLockEnabled now) _ ho.before
    intro s e t hi ho
    exact inv_step hi (hfront s e t ho) ho.step_eq
  exact secure_step hinv (hfront s e t ho) ho.step_eq

/-- Two minutes in the background after an unlock. -/
def away : List (Event Nat) :=
  [.unlock, .keyRead 0 (some 7), .unlockCompleted, .lifecycle .inactive, .lifecycle .hidden,
    .lifecycle .paused, .advance backgroundLockTimeout, .lifecycle .hidden, .lifecycle .resumed]

theorem gate_secure_away :
    ∃ s t, Occurs step (start true 0) away s (.lifecycle .resumed) t ∧
      Secure s (.lifecycle .resumed) t ∧ s.gate.isLocked = false ∧ t.gate.isLocked = true := by
  have hall : everyStep step inFront (start true 0) away = true := by decide
  obtain ⟨s, t, ho, hs, ht⟩ : ∃ s t, Occurs step (start true 0) away s (.lifecycle .resumed) t ∧
      s.gate.isLocked = false ∧ t.gate.isLocked = true :=
    ⟨_, _, ⟨away.take 8, [], rfl, rfl, rfl⟩, rfl, rfl⟩
  have hfront : ∀ s e t, Occurs step (start true 0) away s e t → InFront s e :=
    fun _ _ _ ho => inFront_sound (occurs_good hall ho)
  exact ⟨s, t, ho, gate_secure hfront ho, hs, ht⟩

/-- The same two minutes, but the person has confirmed a destructive action, and its key read
completes after the app has left the front. -/
def confirmedAway : List (Event Nat) :=
  [.unlock, .keyRead 0 (some 7), .unlockCompleted, .reauthenticateForDestructiveAction,
    .lifecycle .paused, .keyRead 1 (some 7), .advance backgroundLockTimeout, .lifecycle .resumed]

theorem confirmed_away_unlocked :
    ∃ s t, Occurs step (start true 0) confirmedAway s (.lifecycle .resumed) t ∧
      s.background = some 0 ∧ s.now = backgroundLockTimeout ∧ t.gate.isLocked = false ∧
      ¬Secure s (.lifecycle .resumed) t := by
  obtain ⟨s, t, ho, hb, hn, ha, ht⟩ :
      ∃ s t, Occurs step (start true 0) confirmedAway s (.lifecycle .resumed) t ∧
        s.background = some 0 ∧ s.now = backgroundLockTimeout ∧ s.gate.appLockEnabled = true ∧
        t.gate.isLocked = false :=
    ⟨_, _, ⟨confirmedAway.take 7, [], rfl, rfl, rfl⟩, rfl, rfl, rfl, rfl⟩
  refine ⟨s, t, ho, hb, hn, ht, fun h => ?_⟩
  have hlong : backgroundLockTimeout ≤ s.now - 0 := by
    rw [hn]
    exact Nat.le_refl _
  have hlocked := h.resumed rfl ha 0 hb hlong
  rw [ht] at hlocked
  cases hlocked

/-- Whenever an authentication does unlock in the background, the app can stay there for as long
as the timeout and come back to an open gate. -/
theorem unlocked_in_background {s t : Session KeyPair} {e : Event KeyPair} (hinv : Inv s)
    (hu : unlocks s e) {since : Nat} (hb : s.background = some since) (hs : step s e = some t)
    (elapsed : Nat) :
    ∃ u v, run step t [.advance elapsed] = some u ∧
      step u (.lifecycle .resumed) = some v ∧ u.background = some since ∧
      u.now = s.now + elapsed ∧ v.gate.isLocked = false := by
  cases e with
  | keyRead i key =>
    cases key with
    | none => cases hu
    | some read =>
      obtain ⟨authentication, hi, ho⟩ := hu
      have hfits := hinv.fits authentication (List.mem_of_getElem? hi)
      have hgen : authentication.generation = s.gate.authenticationGeneration := by
        by_contra hne
        have hover := hfits.overtaken.mpr hne
        rw [ho] at hover
        cases hover
      simp only [step, hi] at hs
      cases hs
      refine ⟨_, _, rfl, rfl, hb, rfl, ?_⟩
      simp only [Session.noteLifecycleChange, BiometricGate.authenticated, hgen, ne_eq,
        not_true_eq_false, if_false, Option.elim_some]
      exact Bool.and_false _
  | _ => cases hu

end HerdrMobile.App.Gate
