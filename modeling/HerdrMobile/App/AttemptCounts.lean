import HerdrMobile.App.HandshakeRuns
import HerdrMobile.App.PairingAttempt
import HerdrMobile.Bridge.PairingLoop
import HerdrMobile.Lib.Run

/-!
# Two counts of failed attempts

The Host counts each handshake that ends in an error, the Device each that it sees fail itself.
They agree while nothing fails but message 2, at the Device.
-/
namespace HerdrMobile.App.AttemptCounts

open HerdrMobile.Lib.Noise (Octets Suite Noted)
open HerdrMobile.Lib.Run HerdrMobile.Lib.Strings HerdrMobile.App.Noise
open HerdrMobile.App.PairingAttempt HerdrMobile.Bridge.PairingLoop
open HerdrMobile.Bridge.Store (Handle)
open HerdrMobile.Bridge.Host (HostState PairingSession maxAttempts markRegistered
  recordFailedAttempt)

set_option autoImplicit false

/-- One phrase with its keys. -/
structure Setting (S : Suite) where
  handle : Handle
  phrase : Text
  pskFromPhrase : Text → Octets
  hostKey : S.PrivateKey
  deviceKey : S.PrivateKey

/-- A registration of the Host, with the Device's attempt that the relay joins to it, if any. -/
structure Connection (S : Suite) where
  now : Nat
  pass : Pass S
  attempt : Option (Attempt S)

/-- `refusals` counts the connections in which a message of the handshake is refused; `told` says
that the Device has called the phrase spent. -/
structure State where
  host : HostState
  tracker : PairingAttemptTracker
  told : Bool
  refusals : Nat

section Sides

variable {S : Suite} (w : Setting S)

def psk : Octets := w.pskFromPhrase w.phrase

/-- The Device reads a message 2 and refuses it. -/
def deviceRefuses (attempt : Attempt S) : Bool :=
  attempt.shakes &&
    match awaitMessage2 w.deviceKey (w.pskFromPhrase attempt.phrase) attempt.handshake with
    | .ok (initiator, message) => (initiator.readMessage2 message).result.isNone
    | .error _ => false

/-- A message of the handshake is refused at either side. -/
def refused (c : Connection S) : Bool :=
  c.pass.refuses w.hostKey (psk w) || c.attempt.any (deviceRefuses w)

/-- The Device's part of a connection. -/
def attempted (s : State) : Option (Attempt S) → PairingAttemptTracker × Bool
  | none => (s.tracker, s.told)
  | some attempt =>
    let (result, tracker) := attemptPairing w.pskFromPhrase w.deviceKey attempt s.tracker
    (tracker, s.told || result.spent)

/-- The Host has a phrase for the connection. -/
def isOpen (s : State) (c : Connection S) : Bool :=
  (session s.host).any (·.handle c.now == some w.handle)

/-- A connection to the live phrase. -/
def step (s : State) (c : Connection S) : Option State :=
  if isOpen w s c then
    some {
      host := c.pass.run s.host w.handle c.now w.hostKey (psk w)
      tracker := (attempted w s c.attempt).1
      told := (attempted w s c.attempt).2
      refusals := if refused w c then s.refusals + 1 else s.refusals }
  else none

/-- The session has the phrase, or has had it until it was spent. -/
def Counting (s : State) : Prop :=
  (∃ generatedAt n, session s.host = some (.live w.handle generatedAt n)) ∨
    session s.host = some .spent

/-- Both sides have counted the refusals, and the Device calls the phrase spent when the Host has
spent it. -/
structure Lockstep (s : State) : Prop where
  host : ∀ generatedAt n, session s.host = some (.live w.handle generatedAt n) → n = s.refusals
  device : Counting w s → s.tracker.against w.phrase = s.refusals
  spent : s.told = true ↔ session s.host = some .spent

/-- A new phrase that the Device has not tried yet. -/
structure Start (s : State) : Prop where
  host : ∃ generatedAt, session s.host = some (.live w.handle generatedAt 0)
  tracker : s.tracker.against w.phrase = 0
  told : s.told = false
  refusals : s.refusals = 0

/-- A connection whose handshake fails at the Device or not at all. -/
structure InStep (s : State) (c : Connection S) : Prop where
  /-- The Host's handshake ends with an error only where the Device refuses message 2. -/
  host : c.pass.fails w.hostKey (psk w) = true →
    ∃ attempt, c.attempt = some attempt ∧ deviceRefuses w attempt = true
  /-- A message 2 is refused for its tag, in an attempt with the phrase that is not cancelled, and
  the Host's handshake ends with an error then. -/
  device : ∀ attempt, c.attempt = some attempt → deviceRefuses w attempt = true →
    attempt.cancelled = false ∧ attempt.phrase = w.phrase ∧
      c.pass.fails w.hostKey (psk w) = true ∧
      ∀ initiator message,
        awaitMessage2 w.deviceKey (psk w) attempt.handshake = .ok (initiator, message) →
          tagRefused (initiator.readMessage2 message) = true
  /-- The Device's stream has no error where it waits for message 2. -/
  stream : ∀ attempt, c.attempt = some attempt → attempt.cancelled = false →
    attempt.shakes = true →
    awaitMessage2 w.deviceKey (w.pskFromPhrase attempt.phrase) attempt.handshake ≠
      .error handshakeFailed
  /-- A Device that gets through is enrolled, or is so at its first attempt. -/
  through : ∀ attempt, c.attempt = some attempt → attempt.cancelled = false →
    connect w.deviceKey (w.pskFromPhrase attempt.phrase) attempt = .ok () →
    s.refusals = 0 ∨ c.pass.enrols = true ∨ c.pass.overdues = true

variable {w} {s t : State} {c : Connection S}

theorem connect_of_refuses {attempt : Attempt S} (h : deviceRefuses w attempt = true)
    (htag : ∀ initiator message,
      awaitMessage2 w.deviceKey (w.pskFromPhrase attempt.phrase) attempt.handshake =
        .ok (initiator, message) → tagRefused (initiator.readMessage2 message) = true) :
    connect w.deviceKey (w.pskFromPhrase attempt.phrase) attempt = .error handshakeFailed := by
  rw [deviceRefuses, Bool.and_eq_true] at h
  rw [connect_failed, defaultHandshaker_failed]
  refine ⟨h.1, .inr ?_⟩
  cases hawait : awaitMessage2 w.deviceKey (w.pskFromPhrase attempt.phrase) attempt.handshake with
  | error ending =>
    rw [hawait] at h
    exact absurd h.2 Bool.false_ne_true
  | ok pair =>
    rw [hawait] at h
    exact ⟨pair.1, pair.2, rfl, Option.isNone_iff_eq_none.mp h.2, htag pair.1 pair.2 hawait⟩

theorem connect_of_not_refuses {attempt : Attempt S} (h : deviceRefuses w attempt = false)
    (hstream : attempt.shakes = true →
      awaitMessage2 w.deviceKey (w.pskFromPhrase attempt.phrase) attempt.handshake ≠
        .error handshakeFailed) :
    connect w.deviceKey (w.pskFromPhrase attempt.phrase) attempt ≠ .error handshakeFailed := by
  rw [Ne, connect_failed, defaultHandshaker_failed]
  rintro ⟨hshakes, hfailed | ⟨initiator, message, hawait, hnone, -⟩⟩
  · exact hstream hshakes hfailed
  · rw [deviceRefuses, hshakes, hawait] at h
    have hreads : (initiator.readMessage2 message).result.isNone = false := h
    rw [hnone] at hreads
    cases hreads

/-- A connection in which a message is refused counts on both sides. -/
theorem attempted_refused {attempt : Attempt S} (hin : InStep w s c)
    (hattempt : c.attempt = some attempt) (h : deviceRefuses w attempt = true) :
    (attempted w s c.attempt).1.against w.phrase = s.tracker.against w.phrase + 1 ∧
      (attempted w s c.attempt).2 =
        (s.told || decide (s.tracker.against w.phrase + 1 ≥ 3)) := by
  obtain ⟨hcancelled, hphrase, -, htag⟩ := hin.device attempt hattempt h
  rw [← show w.pskFromPhrase attempt.phrase = psk w by rw [hphrase]; rfl] at htag
  have hconnect := connect_of_refuses h htag
  obtain ⟨htracker, hspent⟩ := (@attemptPairing_failed _ _ _ _ s.tracker) hcancelled hconnect
  obtain ⟨hagainst, hthird⟩ := (@recordFailure_against s.tracker w.phrase)
  rw [hattempt]
  show (attemptPairing w.pskFromPhrase w.deviceKey attempt s.tracker).2.against w.phrase = _ ∧
    (s.told || (attemptPairing w.pskFromPhrase w.deviceKey attempt s.tracker).1.spent) = _
  rw [htracker, hspent, hphrase, hagainst, hthird]
  exact ⟨rfl, rfl⟩

/-- Another connection counts on neither side, and a Device that gets through starts again. -/
theorem attempted_kept (hin : InStep w s c)
    (h : ∀ attempt, c.attempt = some attempt → deviceRefuses w attempt = false) :
    ((attempted w s c.attempt).1 = s.tracker ∨ (attempted w s c.attempt).1 = s.tracker.reset ∧
        (s.refusals = 0 ∨ c.pass.enrols = true ∨ c.pass.overdues = true)) ∧
      (attempted w s c.attempt).2 = s.told := by
  cases hattempt : c.attempt with
  | none => exact ⟨.inl rfl, rfl⟩
  | some attempt =>
    have hother : attempt.cancelled = true ∨
        connect w.deviceKey (w.pskFromPhrase attempt.phrase) attempt ≠
          .error handshakeFailed := by
      cases hcancelled : attempt.cancelled with
      | true => exact .inl rfl
      | false =>
        exact .inr (connect_of_not_refuses (h attempt hattempt)
          (hin.stream attempt hattempt hcancelled))
    obtain ⟨htracker, hspent⟩ := (@attemptPairing_other _ _ _ _ s.tracker) hother
    refine ⟨?_, ?_⟩
    · obtain hsame | ⟨hcancelled, hok, hreset⟩ := htracker
      · exact .inl hsame
      · exact .inr ⟨hreset, hin.through attempt hattempt hcancelled hok⟩
    · show (s.told || (attemptPairing w.pskFromPhrase w.deviceKey attempt s.tracker).1.spent) = _
      rw [hspent, Bool.or_false]

/-- The law, with a phrase that is alive as long as it may be. -/
structure Inv (w : Setting S) (s : State) : Prop extends Lockstep w s where
  few : (∃ generatedAt n, session s.host = some (.live w.handle generatedAt n)) → s.refusals < 3

theorem inv_start (h : Start w s) : Inv w s := by
  obtain ⟨⟨generatedAt, hlive⟩, htracker, htold, hrefusals⟩ := h
  refine ⟨⟨?_, ?_, ?_⟩, ?_⟩
  · intro other n h
    cases hlive.symm.trans h
    exact hrefusals.symm
  · intro _
    rw [htracker, hrefusals]
  · rw [htold, hlive]
    exact ⟨fun h => absurd h Bool.false_ne_true, fun h => by cases h⟩
  · intro _
    rw [hrefusals]
    decide

theorem inv_step (hinv : Inv w s) (hin : InStep w s c) (h : step w s c = some t) : Inv w t := by
  rw [step] at h
  split at h
  case isFalse => cases h
  rename_i hopen
  cases h
  obtain ⟨phrase, hs, hhandle⟩ : ∃ phrase, session s.host = some phrase ∧
      phrase.handle c.now = some w.handle := by
    rw [isOpen, Option.any_eq_true] at hopen
    obtain ⟨phrase, hs, hhandle⟩ := hopen
    exact ⟨phrase, hs, eq_of_beq hhandle⟩
  obtain ⟨n, hlive⟩ := liveAt_of_handle hhandle
  obtain ⟨generatedAt, rfl, -⟩ := id hlive
  have hn : n = s.refusals := hinv.host generatedAt n hs
  have hagainst : s.tracker.against w.phrase = s.refusals :=
    hinv.device (.inl ⟨generatedAt, n, hs⟩)
  have hfew : s.refusals < 3 := hinv.few ⟨generatedAt, n, hs⟩
  have htold : s.told = false := by
    rw [← Bool.not_eq_true, hinv.spent, hs]
    exact nofun
  have hsession := (@Pass.run_session _ _ _ _ w.hostKey (psk w)) hs hlive c.pass
  by_cases hfails : c.pass.fails w.hostKey (psk w) = true
  · -- message 2 has been refused, and both sides count that
    obtain ⟨attempt, hattempt, hrefuses⟩ := hin.host hfails
    obtain ⟨hcounted, hthird⟩ := attempted_refused (s := s) hin hattempt hrefuses
    have hrefused : refused w c = true := by
      rw [refused, hattempt, Bool.or_eq_true]
      exact .inr hrefuses
    obtain ⟨other, heq, hrecord⟩ := session_recordFailedAttempt
      (session_markRegistered.trans hs) hlive
    cases heq
    rw [if_pos hfails, hrecord] at hsession
    rw [hagainst] at hcounted hthird
    rw [htold, Bool.false_or] at hthird
    by_cases hlast : maxAttempts ≤ n + 1
    · rw [if_pos hlast] at hsession
      have hthree : s.refusals + 1 ≥ 3 := hn ▸ hlast
      refine ⟨⟨?_, ?_, ?_⟩, ?_⟩
      · intro other n h
        cases hsession.symm.trans h
      · intro _
        show (attempted w s c.attempt).1.against w.phrase = if refused w c then _ else _
        rw [hcounted, if_pos hrefused]
      · show (attempted w s c.attempt).2 = true ↔ _
        rw [hthird]
        exact iff_of_true (decide_eq_true hthree) hsession
      · rintro ⟨other, n, h⟩
        cases hsession.symm.trans h
    · rw [if_neg hlast] at hsession
      have hless : s.refusals + 1 < 3 := by
        have hlast : ¬3 ≤ n + 1 := hlast
        omega
      refine ⟨⟨?_, ?_, ?_⟩, ?_⟩
      · intro other m h
        cases hsession.symm.trans h
        show n + 1 = if refused w c then _ else _
        rw [if_pos hrefused, hn]
      · intro _
        show (attempted w s c.attempt).1.against w.phrase = if refused w c then _ else _
        rw [hcounted, if_pos hrefused]
      · show (attempted w s c.attempt).2 = true ↔ _
        rw [hthird]
        refine iff_of_false ?_ ?_
        · rw [decide_eq_true_iff]
          omega
        · intro h
          cases hsession.symm.trans h
      · intro _
        show (if refused w c then _ else _) < 3
        rw [if_pos hrefused]
        exact hless
  · -- nothing has been refused, and neither side counts anything
    have hkeeps : ∀ attempt, c.attempt = some attempt → deviceRefuses w attempt = false := by
      intro attempt hattempt
      rw [← Bool.not_eq_true]
      intro hrefuses
      exact hfails (hin.device attempt hattempt hrefuses).2.2.1
    obtain ⟨htracker, hsame⟩ := attempted_kept hin hkeeps
    have hrefused : refused w c = false := by
      rw [refused, Bool.or_eq_false_iff]
      refine ⟨?_, ?_⟩
      · rw [← Bool.not_eq_true]
        exact fun h => hfails (Pass.fails_of_refuses h)
      · cases hattempt : c.attempt with
        | none => rfl
        | some attempt => exact hkeeps attempt hattempt
    rw [if_neg hfails] at hsession
    have hrefusals : (if refused w c then s.refusals + 1 else s.refusals) = s.refusals := by
      rw [hrefused]
      rfl
    have htold' : ¬(attempted w s c.attempt).2 = true := by
      rw [hsame, htold]
      exact Bool.false_ne_true
    by_cases hends : (c.pass.enrols || c.pass.overdues) = true
    · rw [if_pos hends] at hsession
      refine ⟨⟨?_, ?_, ?_⟩, ?_⟩
      · intro other m h
        cases hsession.symm.trans h
      · rintro (⟨other, m, h⟩ | h)
        · cases hsession.symm.trans h
        · cases hsession.symm.trans h
      · refine iff_of_false htold' ?_
        intro h
        cases hsession.symm.trans h
      · rintro ⟨other, m, h⟩
        cases hsession.symm.trans h
    · rw [if_neg hends] at hsession
      refine ⟨⟨?_, ?_, ?_⟩, ?_⟩
      · intro other m h
        cases hsession.symm.trans h
        exact hn.trans hrefusals.symm
      · intro _
        show (attempted w s c.attempt).1.against w.phrase = if refused w c then _ else _
        rw [hrefusals]
        obtain htracker | ⟨hreset, hfirst⟩ := htracker
        · rw [htracker, hagainst]
        · obtain hfirst | hfirst := hfirst
          · rw [hreset, hfirst]
            rfl
          · rw [← Bool.or_eq_true] at hfirst
            exact absurd hfirst hends
      · refine iff_of_false htold' ?_
        intro h
        cases hsession.symm.trans h
      · intro _
        show (if refused w c then _ else _) < 3
        rw [hrefusals]
        exact hfew

/-- In every run of connections that fail at the Device or not at all, both sides have counted the
refused handshakes in every state, and they call the phrase spent together. -/
theorem counts_agree {s : State} {cs : List (Connection S)} (hstart : Start w s)
    (hin : Each (step w) (InStep w) s cs) {t : State} (hv : Visits (step w) s cs t) :
    Lockstep w t := by
  have hinv : Inv w t :=
    visits_invariant (Inv w) (inv_start hstart)
      (fun hinv ho => inv_step hinv (occurs_each hin ho) ho.step_eq) hv
  exact hinv.toLockstep

end Sides

def smallSetting : Setting HandshakeRuns.smallSuite where
  handle := 5
  phrase := "abacus-abdomen".toList
  pskFromPhrase _ := [1]
  hostKey := (7 : UInt8)
  deviceKey := (3 : UInt8)

/-- A pairing is open for a new phrase. -/
def freshHost : HostState where
  store := .empty
  openPairing := some ⟨.live 5 0 0, 0, false, 0⟩
  active := none
  link := Bridge.Host.linkIdle
  stopped := false
  keypair := 0
  registry := .new
  registrations := []
  stopTx := ⟨false, 0⟩

def freshState : State := ⟨freshHost, .new, false, 0⟩

theorem freshState_start : Start smallSetting freshState :=
  ⟨⟨0, rfl⟩, rfl, rfl, rfl⟩

/-- The relay loses the Host's socket, and no Device is there. -/
def dropped : Connection HandshakeRuns.smallSuite where
  now := 0
  pass := .shaken [] true (11 : UInt8) false false
  attempt := none

/-- The Device reads a message 2 of zeros. -/
def tried : Attempt HandshakeRuns.smallSuite where
  phrase := "abacus-abdomen".toList
  permitted := true
  current := true
  opens := true
  registration := .joined
  handshake := ⟨[.bytes (List.replicate 96 0)], fun _ => true, (5 : UInt8)⟩
  later := none
  cancelled := false

def garbled : Connection HandshakeRuns.smallSuite := { dropped with attempt := some tried }

/-- Three lost sockets spend the phrase. No handshake has failed, and the Device has counted
nothing. -/
theorem drops_spend_phrase : ∃ t, Start smallSetting freshState ∧
    run (step smallSetting) freshState [dropped, dropped, dropped] = some t ∧
    session t.host = some .spent ∧ t.refusals = 0 ∧
    t.tracker.against smallSetting.phrase = 0 ∧ ¬Lockstep smallSetting t :=
  ⟨_, freshState_start, rfl, rfl, rfl, rfl, fun h => absurd (h.spent.mpr rfl) Bool.false_ne_true⟩

theorem garbled_inStep (s : State) : InStep smallSetting s garbled := by
  have hrefuses : deviceRefuses smallSetting tried = true := by decide +kernel
  have htag : (match awaitMessage2 smallSetting.deviceKey (psk smallSetting) tried.handshake with
      | .ok (initiator, message) => tagRefused (initiator.readMessage2 message)
      | .error _ => false) = true := by
    decide +kernel
  have hread : ∀ initiator message,
      awaitMessage2 smallSetting.deviceKey (psk smallSetting) tried.handshake =
        .ok (initiator, message) → tagRefused (initiator.readMessage2 message) = true := by
    intro initiator message hawait
    rw [hawait] at htag
    exact htag
  constructor
  · intro _
    exact ⟨tried, rfl, hrefuses⟩
  · intro attempt hattempt _
    cases hattempt
    exact ⟨rfl, rfl, rfl, hread⟩
  · intro attempt hattempt _ _ hfailed
    cases hattempt
    have hfailed : awaitMessage2 smallSetting.deviceKey (psk smallSetting) tried.handshake =
        .error handshakeFailed := hfailed
    rw [hfailed] at htag
    exact absurd htag Bool.false_ne_true
  · intro attempt hattempt _ hok
    cases hattempt
    cases (connect_of_refuses hrefuses hread).symm.trans hok

/-- Three refused messages are counted three times on both sides. -/
theorem counts_agree_garbled : ∃ t,
    run (step smallSetting) freshState [garbled, garbled, garbled] = some t ∧
      Lockstep smallSetting t ∧ t.told = true := by
  have hin : Each (step smallSetting) (InStep smallSetting) freshState
      [garbled, garbled, garbled] :=
    ⟨garbled_inStep _, fun _ _ => ⟨garbled_inStep _, fun _ _ => ⟨garbled_inStep _, fun _ _ =>
      trivial⟩⟩⟩
  obtain ⟨t, hrun, hspent⟩ : ∃ t,
      run (step smallSetting) freshState [garbled, garbled, garbled] = some t ∧
        session t.host = some .spent := ⟨_, rfl, rfl⟩
  have hlockstep := counts_agree freshState_start hin (visits_end hrun)
  exact ⟨t, hrun, hlockstep, hlockstep.spent.mpr hspent⟩

end HerdrMobile.App.AttemptCounts
