import HerdrMobile.App.Connection
import HerdrMobile.Lib.Run

/-!
# The sessions of a Device do not mix

Every attempt takes a generation of its own, and whatever overtakes it takes the next. An
attempt installs its session in its own generation only, and a message is delivered in the
generation of its session only.
-/
namespace HerdrMobile.App.Isolation

open HerdrMobile.Lib.Run HerdrMobile.App.Connection HerdrMobile.Proto.Messages

set_option autoImplicit false

section Law

/-- The attempt has not got its socket. -/
def beforeSocket : Phase → Bool
  | .unlocking | .closingOld | .opening => true
  | _ => false

/-- The attempt has not become the current one. -/
def beforeInstall : Phase → Bool
  | .unlocking | .closingOld | .opening | .registering | .handshake | .hostInfo | .mismatch => true
  | _ => false

/-- The attempt waits for the relay or the Host. -/
def awaitsPeer : Phase → Bool
  | .registering | .handshake | .hostInfo => true
  | _ => false

/-- The attempt has its generation and no result. -/
def running : Phase → Bool
  | .closingOld | .opening | .registering | .handshake | .hostInfo | .mismatch
  | .deviceInfo => true
  | _ => false

def finished : Phase → Bool
  | .returned _ | .over _ => true
  | _ => false

/-- Another attempt, a lock, the background or a disconnect came after it. -/
def Overtaken (s : RelayConnection) (id : Nat) : Prop :=
  0 < (s.attempt id).generation ∧ (s.attempt id).generation < s.generation

/-- The message belongs to the current session or, where none is, to the last one: its attempt
is not overtaken, and the app has not been locked since that attempt began. -/
structure Right (s : RelayConnection) (d : Delivery) : Prop where
  unlocked : d.isLocked = false
  never : d.lockings = (s.attempt d.session).lockings
  since : d.generation = (s.attempt d.session).generation
  current : d.current = some d.session ∨ d.current = none

/-- What an attempt that was overtaken does: nothing but to close its socket. -/
structure Stays (s t : RelayConnection) (id : Nat) : Prop where
  channel : t.channel = some id → s.channel = some id
  connected : id ∈ t.connected → id ∈ s.connected
  closed : finished (s.attempt id).phase = false → finished (t.attempt id).phase = true →
    (t.attempt id).opened = true → (t.attempt id).closeAsked = true

end Law

/-- Where an attempt stands, with what it has of a socket. -/
structure Local (a : Attempt) (pending current : Prop) : Prop where
  unlocking : a.phase = .unlocking → a.generation = 0
  begun : running a.phase = true → 0 < a.generation
  unopened : beforeSocket a.phase = true → a.opened = false
  uninstalled : beforeInstall a.phase = true → a.installed = false
  awaits : awaitsPeer a.phase = true → pending ∨ a.closeAsked = true
  closing : ∀ result, a.phase = .closing result → a.closeAsked = true
  held : a.installed = true → current ∨ a.closeAsked = true ∨ a.leaving = true

structure Core (s : RelayConnection) : Prop where
  pristine : ∀ id, s.made ≤ id → (s.attempt id).generation = 0
  waiting : ∀ id, (s.attempt id).phase = .unlocking → id < s.made ∧ s.observed = true
  observed : ∀ id, 0 < (s.attempt id).generation → s.observed = true
  bound : ∀ id, (s.attempt id).generation ≤ s.generation
  unique : ∀ i j, 0 < (s.attempt i).generation →
    (s.attempt i).generation = (s.attempt j).generation → i = j
  phases : ∀ id, Local (s.attempt id) (s.pendingChannel = some id) (s.channel = some id)
  pending : ∀ id, s.pendingChannel = some id →
    0 < (s.attempt id).generation ∧ (s.attempt id).generation = s.generation
  channel : ∀ id, s.channel = some id →
    (s.attempt id).installed = true ∧ 0 < (s.attempt id).generation
  sent : ∀ m ∈ s.broadcasts, s.disposed = true ∨
    (0 < m.generation ∧ (s.attempt m.session).generation = m.generation)
  delivered : ∀ d ∈ s.delivered, 0 < d.generation ∧ Right s d

/-- The current session is of the current generation, in which the app was not locked. -/
structure Live (s : RelayConnection) : Prop where
  channel : ∀ id, s.channel = some id → s.disposed = true ∨
    ((s.attempt id).generation = s.generation ∧ s.gate.isLocked = false)
  lockings : ∀ id, 0 < (s.attempt id).generation → (s.attempt id).generation = s.generation →
    s.disposed = true ∨ (s.attempt id).lockings = s.lockings

section Operations

variable {s t : RelayConnection} {id : Nat}

/-- The two connections agree on all that the invariant speaks of. -/
structure Same (s t : RelayConnection) : Prop where
  made : t.made = s.made
  observed : t.observed = s.observed
  generation : t.generation = s.generation
  attempt : t.attempt = s.attempt
  pendingChannel : t.pendingChannel = s.pendingChannel
  channel : t.channel = s.channel
  broadcasts : t.broadcasts = s.broadcasts
  delivered : t.delivered = s.delivered
  disposed : s.disposed = true → t.disposed = true

theorem Core.same (h : Core s) (e : Same s t) : Core t where
  pristine id := by
    rw [e.made, e.attempt]
    exact h.pristine id
  waiting id := by
    rw [e.made, e.observed, e.attempt]
    exact h.waiting id
  observed id := by
    rw [e.observed, e.attempt]
    exact h.observed id
  bound id := by
    rw [e.generation, e.attempt]
    exact h.bound id
  unique i j := by
    rw [e.attempt]
    exact h.unique i j
  phases id := by
    rw [e.attempt, e.pendingChannel, e.channel]
    exact h.phases id
  pending id := by
    rw [e.attempt, e.pendingChannel, e.generation]
    exact h.pending id
  channel id := by
    rw [e.attempt, e.channel]
    exact h.channel id
  sent m hm := by
    rw [e.broadcasts] at hm
    rw [e.attempt]
    exact (h.sent m hm).imp_left e.disposed
  delivered d hd := by
    rw [e.delivered] at hd
    obtain ⟨hpos, hright⟩ := h.delivered d hd
    exact ⟨hpos, hright.unlocked, by rw [e.attempt]; exact hright.never,
      by rw [e.attempt]; exact hright.since, hright.current⟩

theorem Live.same (h : Live s) (e : Same s t) (hdisposed : t.disposed = s.disposed)
    (hgate : t.gate = s.gate) (hlockings : t.lockings = s.lockings) : Live t where
  channel id := by
    rw [e.channel, e.attempt, e.generation, hdisposed, hgate]
    exact h.channel id
  lockings id := by
    rw [e.attempt, e.generation, hdisposed, hlockings]
    exact h.lockings id

/-- The generation of every attempt is kept, and how often the app was locked before it. -/
structure Kept (s t : RelayConnection) : Prop where
  generation : ∀ j, (t.attempt j).generation = (s.attempt j).generation
  lockings : ∀ j, 0 < (s.attempt j).generation →
    (t.attempt j).lockings = (s.attempt j).lockings

theorem kept_set {a : Attempt} (hgen : a.generation = (s.attempt id).generation)
    (hlock : 0 < a.generation → a.lockings = (s.attempt id).lockings) :
    Kept s (s.set id a) := by
  constructor
  · intro j
    by_cases hj : j = id
    · rw [hj, ← hgen]
      exact congrArg Attempt.generation (s.attempt_set id a)
    · exact congrArg Attempt.generation (s.attempt_set_of_ne a hj)
  · intro j hpos
    by_cases hj : j = id
    · rw [hj] at hpos ⊢
      rw [← hlock (hgen ▸ hpos)]
      exact congrArg Attempt.lockings (s.attempt_set id a)
    · exact congrArg Attempt.lockings (s.attempt_set_of_ne a hj)

/-- One attempt changes and keeps its generation. -/
theorem Core.set (h : Core s) {a : Attempt} (hkept : Kept s (s.set id a))
    (hwaiting : a.phase = .unlocking → id < s.made ∧ s.observed = true)
    (hinst : s.channel = some id → a.installed = true)
    (hlocal : Local a (s.pendingChannel = some id) (s.channel = some id)) :
    Core (s.set id a) := by
  have hgens := hkept.generation
  refine ⟨?pristine, ?waiting, ?observed, ?bound, ?unique, ?phases, ?pending, ?channel, ?sent,
    ?delivered⟩
  case pristine => exact fun j hj => (hgens j).trans (h.pristine j hj)
  case waiting =>
    intro j
    show ((s.set id a).attempt j).phase = .unlocking → _
    by_cases heq : j = id
    · rw [heq, s.attempt_set]
      exact hwaiting
    · rw [s.attempt_set_of_ne a heq]
      exact h.waiting j
  case observed =>
    intro j
    rw [hgens]
    exact h.observed j
  case bound =>
    intro j
    rw [hgens]
    exact h.bound j
  case unique =>
    intro i j
    rw [hgens, hgens]
    exact h.unique i j
  case phases =>
    intro j
    show Local ((s.set id a).attempt j) _ _
    by_cases hj : j = id
    · rw [hj, s.attempt_set]
      exact hlocal
    · rw [s.attempt_set_of_ne a hj]
      exact h.phases j
  case pending =>
    intro j
    rw [hgens]
    exact h.pending j
  case channel =>
    intro j hj
    rw [hgens]
    refine ⟨?_, (h.channel j hj).2⟩
    show ((s.set id a).attempt j).installed = true
    by_cases heq : j = id
    · rw [heq] at hj ⊢
      rw [s.attempt_set]
      exact hinst hj
    · rw [s.attempt_set_of_ne a heq]
      exact (h.channel j hj).1
  case sent =>
    intro m hm
    rw [hgens]
    exact h.sent m hm
  case delivered =>
    intro d hd
    obtain ⟨hpos, hright⟩ := h.delivered d hd
    have hbegun : 0 < (s.attempt d.session).generation := hright.since ▸ hpos
    exact ⟨hpos, hright.unlocked, hright.never.trans (hkept.lockings _ hbegun).symm,
      hright.since.trans (hgens _).symm, hright.current⟩

theorem Live.set (h : Live s) {a : Attempt} (hkept : Kept s (s.set id a)) :
    Live (s.set id a) where
  channel j hj := by
    rw [hkept.generation]
    exact h.channel j hj
  lockings j hpos heq := by
    rw [hkept.generation] at hpos heq
    exact (h.lockings j hpos heq).imp_right fun hsame => (hkept.lockings j hpos).trans hsame

/-- A phase past the install has its socket, and waits for nobody. -/
theorem settled_of_past {phase : Phase} (hpast : beforeInstall phase = false) :
    phase ≠ .unlocking ∧ beforeSocket phase = false ∧ awaitsPeer phase = false := by
  cases phase with
  | unlocking | closingOld | opening | registering | handshake | hostInfo | mismatch => cases hpast
  | deviceInfo | failing | closing | returned | «over» => exact ⟨nofun, rfl, rfl⟩

theorem Local.to {a : Attempt} {p c : Prop} (h : Local a p c) {phase : Phase}
    (hbefore : beforeInstall phase = false ∧ running phase = false)
    (hclosing : ∀ result, phase = .closing result → a.closeAsked = true) :
    Local { a with phase := phase } p c := by
  obtain ⟨hlocked, hsocket, hawaits⟩ := settled_of_past hbefore.1
  refine ⟨fun hphase => absurd hphase hlocked, ?_, ?_, ?_, ?_, hclosing, h.held⟩
  · intro hphase
    exact absurd (hbefore.2.symm.trans hphase) Bool.false_ne_true
  · intro hphase
    exact absurd (hsocket.symm.trans hphase) Bool.false_ne_true
  · intro hphase
    exact absurd (hbefore.1.symm.trans hphase) Bool.false_ne_true
  · intro hphase
    exact absurd (hawaits.symm.trans hphase) Bool.false_ne_true

theorem Local.ask {a : Attempt} {p c : Prop} (h : Local a p c) :
    Local { a with closeAsked := true } p c where
  unlocking := h.unlocking
  begun := h.begun
  unopened := h.unopened
  uninstalled := h.uninstalled
  awaits _ := .inr rfl
  closing _ _ := rfl
  held _ := .inr (.inl rfl)

/-- An attempt that goes to its end, or to the exchange of a first frame. -/
theorem Core.goto (h : Core s) {phase : Phase} (hphase : phase ≠ .unlocking)
    (hlocal : Local { s.attempt id with phase := phase } (s.pendingChannel = some id)
      (s.channel = some id)) : Core (s.goto id phase) :=
  h.set (kept_set rfl fun _ => rfl) (fun heq => absurd heq hphase) (fun hc => (h.channel id hc).1) hlocal

theorem Live.goto (h : Live s) {phase : Phase} : Live (s.goto id phase) :=
  h.set (kept_set rfl fun _ => rfl)

theorem Core.turn (h : Core s) {pump : Pump} : Core (s.turn id pump) :=
  h.set (kept_set rfl fun _ => rfl) (h.waiting id)
    (fun hc => (h.channel id hc).1)
    ⟨(h.phases id).unlocking, (h.phases id).begun, (h.phases id).unopened, (h.phases id).uninstalled,
      (h.phases id).awaits, (h.phases id).closing, (h.phases id).held⟩

theorem Live.turn (h : Live s) {pump : Pump} : Live (s.turn id pump) :=
  h.set (kept_set rfl fun _ => rfl)

theorem Core.askClose (h : Core s) : Core (s.askClose id) :=
  h.set (kept_set rfl fun _ => rfl) (h.waiting id)
    (fun hc => (h.channel id hc).1) (h.phases id).ask

theorem Live.askClose (h : Live s) : Live (s.askClose id) :=
  h.set (kept_set rfl fun _ => rfl)

/-- The generation after every attempt. -/
def Fresh (s : RelayConnection) : Prop := ∀ id, (s.attempt id).generation < s.generation

/-- The pending attempt has been asked to close, and every attempt is overtaken. -/
theorem Core.overtake (h : Core s)
    (hasked : ∀ id, s.pendingChannel = some id → (s.attempt id).closeAsked = true) :
    Core { s with
      generation := s.generation + 1, reconnectTimer := .idle, pendingChannel := none } where
  pristine := h.pristine
  waiting := h.waiting
  observed := h.observed
  bound id := Nat.le_succ_of_le (h.bound id)
  unique := h.unique
  phases id := by
    have hlocal := h.phases id
    refine ⟨hlocal.unlocking, hlocal.begun, hlocal.unopened, hlocal.uninstalled, fun hphase => ?_,
      hlocal.closing, hlocal.held⟩
    cases hlocal.awaits hphase with
    | inl hpending => exact .inr (hasked id hpending)
    | inr hclose => exact .inr hclose
  pending := nofun
  channel := h.channel
  sent := h.sent
  delivered d hd := ⟨(h.delivered d hd).1, (h.delivered d hd).2.unlocked,
    (h.delivered d hd).2.never, (h.delivered d hd).2.since, (h.delivered d hd).2.current⟩

theorem Core.interrupt (h : Core s) :
    Core s.interruptPendingConnection ∧ Fresh s.interruptPendingConnection := by
  unfold RelayConnection.interruptPendingConnection
  cases hp : s.pendingChannel with
  | none =>
    refine ⟨h.overtake fun id heq => ?_, fun id => Nat.lt_succ_of_le (h.bound id)⟩
    cases hp.symm.trans heq
  | some id =>
    have hask : Core (s.askClose id) := h.askClose
    refine ⟨hask.overtake fun id' heq => ?_, fun id' => Nat.lt_succ_of_le (hask.bound id')⟩
    cases hp.symm.trans heq
    exact congrArg Attempt.closeAsked (s.attempt_set _ _)

/-- The current socket is given up. -/
theorem Core.leave (h : Core s)
    (hleft : ∀ id, s.channel = some id →
      (s.attempt id).closeAsked = true ∨ (s.attempt id).leaving = true) :
    Core { s with channel := none } where
  pristine := h.pristine
  waiting := h.waiting
  observed := h.observed
  bound := h.bound
  unique := h.unique
  phases id := by
    have hlocal := h.phases id
    refine ⟨hlocal.unlocking, hlocal.begun, hlocal.unopened, hlocal.uninstalled, hlocal.awaits,
      hlocal.closing, fun hinst => ?_⟩
    cases hlocal.held hinst with
    | inl hcurrent => exact .inr (hleft id hcurrent)
    | inr hgone => exact .inr hgone
  pending := h.pending
  channel := nofun
  sent := h.sent
  delivered d hd := ⟨(h.delivered d hd).1, (h.delivered d hd).2.unlocked,
    (h.delivered d hd).2.never, (h.delivered d hd).2.since, (h.delivered d hd).2.current⟩

theorem Core.closeCurrent (h : Core s) (frame : Bool) : Core (s.closeCurrentSocket frame) := by
  unfold RelayConnection.closeCurrentSocket
  cases hc : s.channel with
  | none => exact h
  | some id =>
    cases frame with
    | false =>
      have hask : Core (s.askClose id) := h.askClose
      refine hask.leave fun id' heq => .inl ?_
      cases hc.symm.trans heq
      exact congrArg Attempt.closeAsked (s.attempt_set _ _)
    | true =>
      have hleave : Core (s.set id { s.attempt id with leaving := true }) := by
        have hlocal := h.phases id
        refine h.set (kept_set rfl fun _ => rfl) (h.waiting id)
          (fun hc => (h.channel id hc).1) ?_
        exact ⟨hlocal.unlocking, hlocal.begun, hlocal.unopened, hlocal.uninstalled, hlocal.awaits,
          hlocal.closing, fun _ => .inr (.inr rfl)⟩
      refine hleave.leave fun id' heq => .inr ?_
      cases hc.symm.trans heq
      exact congrArg Attempt.leaving (s.attempt_set _ _)

theorem closeCurrent_channel (s : RelayConnection) (frame : Bool) :
    (s.closeCurrentSocket frame).channel = none := by
  unfold RelayConnection.closeCurrentSocket
  cases hc : s.channel with
  | none => exact hc
  | some id =>
    cases frame with
    | false => rfl
    | true => rfl

/-- What the close of the current socket leaves as it is. -/
theorem closeCurrent_kept (s : RelayConnection) (frame : Bool) :
    Kept s (s.closeCurrentSocket frame) ∧
      (s.closeCurrentSocket frame).generation = s.generation ∧
      (s.closeCurrentSocket frame).disposed = s.disposed ∧
      (s.closeCurrentSocket frame).lockings = s.lockings := by
  unfold RelayConnection.closeCurrentSocket
  cases hc : s.channel with
  | none => exact ⟨⟨fun _ => rfl, fun _ _ => rfl⟩, rfl, rfl, rfl⟩
  | some id =>
    cases frame with
    | false =>
      have hkept : Kept s (s.askClose id) := kept_set rfl fun _ => rfl
      exact ⟨⟨hkept.generation, hkept.lockings⟩, rfl, rfl, rfl⟩
    | true =>
      have hkept : Kept s (s.set id { s.attempt id with leaving := true }) :=
        kept_set rfl fun _ => rfl
      exact ⟨⟨hkept.generation, hkept.lockings⟩, rfl, rfl, rfl⟩

structure Inv (s : RelayConnection) : Prop where
  core : Core s
  live : Live s

/-- The attempt of the current generation, if there is one, began after the last lock. -/
def Recent (s : RelayConnection) : Prop :=
  ∀ id, 0 < (s.attempt id).generation → (s.attempt id).generation = s.generation →
    s.disposed = true ∨ (s.attempt id).lockings = s.lockings

theorem Fresh.recent (h : Fresh s) : Recent s :=
  fun id _ heq => absurd heq (Nat.ne_of_lt (h id))

/-- Once the current socket is given up, nothing is current. -/
theorem Core.closed (h : Core s) (hrecent : Recent s) (frame : Bool) :
    Inv (s.closeCurrentSocket frame) := by
  obtain ⟨hkept, hgen, hdisposed, hlock⟩ := closeCurrent_kept s frame
  refine ⟨h.closeCurrent frame, ?_, ?_⟩
  · intro id hc
    rw [closeCurrent_channel] at hc
    cases hc
  · intro id hpos heq
    rw [hkept.generation] at hpos heq
    rw [hgen] at heq
    rw [hdisposed, hlock]
    exact (hrecent id hpos heq).imp_right fun hsame => (hkept.lockings id hpos).trans hsame

theorem Inv.closeCurrent (h : Inv s) (frame : Bool) : Inv (s.closeCurrentSocket frame) :=
  h.core.closed h.live.lockings frame

theorem Inv.same (h : Inv s) (e : Same s t) (hdisposed : t.disposed = s.disposed)
    (hgate : t.gate = s.gate) (hlockings : t.lockings = s.lockings) : Inv t :=
  ⟨h.core.same e, h.live.same e hdisposed hgate hlockings⟩

theorem Inv.schedule (h : Inv s) : Inv s.scheduleReconnect := by
  unfold RelayConnection.scheduleReconnect
  split
  · exact h
  · split
    · exact h
    · exact h.same ⟨rfl, rfl, rfl, rfl, rfl, rfl, rfl, rfl, fun h => h⟩ rfl rfl rfl

/-- An attempt takes a generation of its own. -/
theorem Core.take (h : Core s) (hfresh : ∀ j, (s.attempt j).generation < s.generation)
    (hphase : (s.attempt id).phase = .unlocking) : Core (s.take id) := by
  unfold RelayConnection.take
  obtain ⟨hmade, hobserved⟩ := h.waiting id hphase
  have hlocal := h.phases id
  have hzero : (s.attempt id).generation = 0 := hlocal.unlocking hphase
  have hpos : 0 < s.generation := Nat.lt_of_le_of_lt (Nat.zero_le _) (hfresh id)
  generalize hnew : { s.attempt id with
    generation := s.generation, lockGeneration := s.gate.lockGeneration,
    lockings := s.lockings, phase := .closingOld } = a
  have hgen : a.generation = s.generation := by rw [← hnew]
  have hother : ∀ j, 0 < (s.attempt j).generation → (s.set id a).attempt j = s.attempt j := by
    intro j hj
    refine s.attempt_set_of_ne a ?_
    rintro rfl
    omega
  have hother' : ∀ j, j ≠ id → (s.set id a).attempt j = s.attempt j := fun j hj =>
    s.attempt_set_of_ne a hj
  refine ⟨?pristine, ?waiting, ?observed, ?bound, ?unique, ?phases, ?pending, ?channel, ?sent,
    ?delivered⟩
  case pristine =>
    intro j hj
    have hne : j ≠ id := by
      rintro rfl
      exact absurd hj (Nat.not_le_of_lt hmade)
    rw [hother' j hne]
    exact h.pristine j hj
  case waiting =>
    intro j
    by_cases hj : j = id
    · rw [hj, s.attempt_set, ← hnew]
      exact nofun
    · rw [hother' j hj]
      exact h.waiting j
  case observed =>
    intro j _
    exact hobserved
  case bound =>
    intro j
    by_cases hj : j = id
    · rw [hj, s.attempt_set, hgen]
      exact Nat.le_refl _
    · rw [hother' j hj]
      exact h.bound j
  case unique =>
    intro i j
    by_cases hi : i = id
    · by_cases hj : j = id
      · exact fun _ _ => hi.trans hj.symm
      · rw [hi, s.attempt_set, hother' j hj, hgen]
        intro _ heq
        exact absurd heq.symm (Nat.ne_of_lt (hfresh j))
    · by_cases hj : j = id
      · rw [hj, s.attempt_set, hother' i hi, hgen]
        intro _ heq
        exact absurd heq (Nat.ne_of_lt (hfresh i))
      · rw [hother' i hi, hother' j hj]
        exact h.unique i j
  case phases =>
    intro j
    by_cases hj : j = id
    · rw [hj, s.attempt_set, ← hnew]
      have hunopened := hlocal.unopened (by rw [hphase]; rfl)
      have huninstalled := hlocal.uninstalled (by rw [hphase]; rfl)
      exact ⟨nofun, fun _ => hpos, fun _ => hunopened, fun _ => huninstalled, nofun, nofun,
        hlocal.held⟩
    · rw [hother' j hj]
      exact h.phases j
  case pending =>
    intro j hj
    rw [hother j (h.pending j hj).1]
    exact h.pending j hj
  case channel =>
    intro j hj
    rw [hother j (h.channel j hj).2]
    exact h.channel j hj
  case sent =>
    intro m hm
    refine (h.sent m hm).imp_right fun hsent => ?_
    rw [hother m.session (hsent.2 ▸ hsent.1)]
    exact hsent
  case delivered =>
    intro d hd
    obtain ⟨hdpos, hright⟩ := h.delivered d hd
    have hsame := hother d.session (hright.since ▸ hdpos)
    exact ⟨hdpos, hright.unlocked, hsame ▸ hright.never, hsame ▸ hright.since, hright.current⟩

theorem Inv.goto (h : Inv s) {phase : Phase} (hphase : phase ≠ .unlocking)
    (hlocal : Local { s.attempt id with phase := phase } (s.pendingChannel = some id)
      (s.channel = some id)) : Inv (s.goto id phase) :=
  ⟨h.core.goto hphase hlocal, h.live.goto⟩

/-- An attempt that is past its sockets, or has never had one. -/
theorem Inv.ends (h : Inv s) {phase : Phase}
    (hbefore : beforeInstall phase = false ∧ running phase = false)
    (hclosing : ∀ result, phase = .closing result → (s.attempt id).closeAsked = true) :
    Inv (s.goto id phase) := by
  refine h.goto ?_ ((h.core.phases id).to hbefore hclosing)
  rintro rfl
  cases hbefore.1

theorem interrupt_phase (s : RelayConnection) (j : Nat) :
    (s.interruptPendingConnection.attempt j).phase = (s.attempt j).phase := by
  unfold RelayConnection.interruptPendingConnection
  cases s.pendingChannel with
  | none => rfl
  | some id =>
    show ((s.askClose id).attempt j).phase = _
    by_cases hj : j = id
    · rw [hj, RelayConnection.askClose, s.attempt_set]
    · rw [RelayConnection.askClose, s.attempt_set_of_ne _ hj]

/-- The attempt that has just taken its generation is the only one in it. -/
theorem recent_take (hfresh : Fresh s) : Recent (s.take id) := by
  unfold RelayConnection.take
  intro j _ heq
  by_cases hj : j = id
  · rw [hj, s.attempt_set]
    exact .inr rfl
  · rw [s.attempt_set_of_ne _ hj] at heq
    exact absurd heq (Nat.ne_of_lt (hfresh j))

theorem same_forgetFor (s : RelayConnection) (id : Nat) :
    Same s (s.forgetFor id) ∧ (Recent s → Recent (s.forgetFor id)) := by
  unfold RelayConnection.forgetFor
  split
  · exact ⟨⟨rfl, rfl, rfl, rfl, rfl, rfl, rfl, rfl, fun h => h⟩, fun h => h⟩
  · exact ⟨⟨rfl, rfl, rfl, rfl, rfl, rfl, rfl, rfl, fun h => h⟩, fun h => h⟩

theorem Inv.begin (h : Inv s) (hphase : (s.attempt id).phase = .unlocking) :
    Inv (s.begin id) := by
  unfold RelayConnection.begin
  split
  · exact h.ends ⟨rfl, rfl⟩ nofun
  · split
    · exact h.ends ⟨rfl, rfl⟩ nofun
    · obtain ⟨hcore, hfresh⟩ := h.core.interrupt
      have htaken := hcore.take hfresh ((interrupt_phase s id).trans hphase)
      obtain ⟨hsame, hrecent⟩ := same_forgetFor (s.interruptPendingConnection.take id) id
      exact (htaken.same hsame).closed (hrecent (recent_take hfresh)) false

/-- One more attempt waits for the key, or has failed already. -/
theorem Inv.push (h : Inv s) (caller : Caller) (address : Address) (mode : Mode) {phase : Phase}
    (hphase : phase = .unlocking ∧ s.observed = true ∨ ∃ result, phase = .returned result) :
    Inv (s.push caller address mode phase) := by
  have hzero := h.core.pristine s.made (Nat.le_refl _)
  have hmore : Inv { s with made := s.made + 1 } := by
    refine ⟨⟨fun id hid => h.core.pristine id (Nat.le_of_succ_le hid), fun id hid => ?_,
      h.core.observed, h.core.bound, h.core.unique, h.core.phases, h.core.pending,
      h.core.channel, h.core.sent, fun d hd => ?_⟩, h.live.channel, h.live.lockings⟩
    · exact (h.core.waiting id hid).imp_left Nat.lt_succ_of_lt
    · obtain ⟨hpos, hright⟩ := h.core.delivered d hd
      exact ⟨hpos, hright.unlocked, hright.never, hright.since, hright.current⟩
  have hkept : Kept { s with made := s.made + 1 } (s.push caller address mode phase) :=
    kept_set hzero.symm nofun
  refine ⟨hmore.core.set hkept ?_ ?_ ?_, hmore.live.set hkept⟩
  · intro hwaits
    refine ⟨Nat.lt_succ_self _, ?_⟩
    obtain ⟨_, hobserved⟩ | ⟨result, hresult⟩ := hphase
    · exact hobserved
    · cases hresult.symm.trans hwaits
  · intro hc
    have hpos := (h.core.channel s.made hc).2
    omega
  · obtain ⟨rfl, _⟩ | ⟨result, rfl⟩ := hphase
    · exact ⟨fun _ => rfl, nofun, fun _ => rfl, fun _ => rfl, nofun, nofun, nofun⟩
    · exact ⟨nofun, nofun, nofun, nofun, nofun, nofun, nofun⟩

theorem Inv.observe (h : Inv s) : Inv { s with observed := true } := by
  refine ⟨⟨h.core.pristine, fun id hid => ⟨(h.core.waiting id hid).1, rfl⟩, fun _ _ => rfl,
    h.core.bound, h.core.unique, h.core.phases, h.core.pending, h.core.channel, h.core.sent,
    fun d hd => ?_⟩, h.live.channel, h.live.lockings⟩
  obtain ⟨hpos, hright⟩ := h.core.delivered d hd
  exact ⟨hpos, hright.unlocked, hright.never, hright.since, hright.current⟩

theorem Inv.connect (h : Inv s) (caller : Caller) (address : Address) (mode : Mode) :
    Inv (s.connect caller address mode) := by
  unfold RelayConnection.connect
  split
  · exact h.push caller address mode (.inr ⟨_, rfl⟩)
  · have hpush := h.observe.push caller address mode (.inl ⟨rfl, rfl⟩)
    have hphase : (({ s with observed := true }.push caller address mode .unlocking).attempt
        s.made).phase = .unlocking := congrArg Attempt.phase (RelayConnection.attempt_set ..)
    generalize { s with observed := true }.push caller address mode .unlocking = t at hpush hphase
    dsimp only
    split
    · exact hpush
    · exact hpush.begin hphase

theorem Inv.resumed (h : Inv s) : Inv s.resumed := by
  have hfront : Inv { s with backgrounded := false } :=
    h.same ⟨rfl, rfl, rfl, rfl, rfl, rfl, rfl, rfl, fun h => h⟩ rfl rfl rfl
  unfold RelayConnection.resumed
  generalize { s with backgrounded := false } = t at hfront
  dsimp only
  split
  · exact hfront
  · split
    · refine Inv.connect ?_ _ _ _
      exact hfront.same ⟨rfl, rfl, rfl, rfl, rfl, rfl, rfl, rfl, fun h => h⟩ rfl rfl rfl
    · exact hfront

theorem Core.remember (h : Core s) (wasConnected : Bool) : Core (s.remember wasConnected) :=
  h.same ⟨rfl, rfl, rfl, rfl, rfl, rfl, rfl, rfl, fun h => h⟩

/-- The current attempt and the current session are given up together. -/
theorem Core.interruptClose (h : Core s) (frame : Bool) :
    Inv (s.interruptPendingConnection.closeCurrentSocket frame) := by
  obtain ⟨hcore, hfresh⟩ := h.interrupt
  exact hcore.closed hfresh.recent frame

/-- Nothing was current when the attempts were overtaken. -/
theorem Core.interruptIdle (h : Core s) (hidle : s.interruptPendingConnection.channel = none) :
    Inv s.interruptPendingConnection := by
  obtain ⟨hcore, hfresh⟩ := h.interrupt
  refine ⟨hcore, fun id hc => ?_, hfresh.recent⟩
  cases hidle.symm.trans hc

theorem Inv.paused (h : Inv s) : Inv s.paused := by
  have hback : Core { s with backgrounded := true } :=
    h.core.same ⟨rfl, rfl, rfl, rfl, rfl, rfl, rfl, rfl, fun h => h⟩
  unfold RelayConnection.paused
  generalize { s with backgrounded := true } = t at hback
  dsimp only
  split
  · obtain ⟨hcore, hfresh⟩ := hback.interrupt
    exact (hcore.remember true).closed hfresh.recent true
  · rename_i hidle
    exact hback.interruptIdle (by simpa [RelayConnection.isConnected] using hidle)

/-- The gate tells of a change. -/
theorem Core.notify (h : Core s) (hrecent : Recent s)
    (hcurrent : ∀ id, s.channel = some id →
      s.disposed = true ∨ (s.attempt id).generation = s.generation) : Inv s.notify := by
  unfold RelayConnection.notify
  by_cases hlocked : s.gate.isLocked = true
  · rw [if_pos hlocked]
    have hmore : Core { s with lockings := s.lockings + 1 } :=
      h.same ⟨rfl, rfl, rfl, rfl, rfl, rfl, rfl, rfl, fun h => h⟩
    dsimp only
    split
    · unfold RelayConnection.onGateChanged
      rw [if_pos hlocked]
      exact (hmore.remember _).interruptClose false
    · rename_i hdeaf
      have hdisposed : ∀ id, 0 < (s.attempt id).generation → s.disposed = true := by
        intro id hpos
        rw [h.observed id hpos] at hdeaf
        simpa using hdeaf
      refine ⟨hmore, fun id hc => .inl (hdisposed id (h.channel id hc).2), ?_⟩
      exact fun id hpos _ => .inl (hdisposed id hpos)
  · rw [if_neg hlocked]
    have hinv : Inv s := by
      refine ⟨h, fun id hc => ?_, hrecent⟩
      exact (hcurrent id hc).imp_right fun heq => ⟨heq, by simpa using hlocked⟩
    dsimp only
    split
    · unfold RelayConnection.onGateChanged
      rw [if_neg hlocked]
      split
      · exact hinv.resumed
      · exact hinv
    · exact hinv

theorem Inv.gate (h : Inv s) (g : Gate) : Inv { s with gate := g }.notify := by
  have hcore : Core { s with gate := g } := h.core.same ⟨rfl, rfl, rfl, rfl, rfl, rfl, rfl, rfl, fun h => h⟩
  refine hcore.notify h.live.lockings fun id hc => ?_
  exact (h.live.channel id hc).imp_right And.left

theorem Inv.onNetworkStable (h : Inv s) : Inv s.onNetworkStable := by
  unfold RelayConnection.onNetworkStable
  split
  · exact h.schedule
  · exact h

theorem Inv.disconnect (h : Inv s) : Inv s.disconnect := by
  have hended : Core { s.remember false with ended := true, stopped := true } :=
    h.core.same ⟨rfl, rfl, rfl, rfl, rfl, rfl, rfl, rfl, fun h => h⟩
  exact hended.interruptClose true

theorem Inv.cancel (h : Inv s) : Inv (s.cancel id) := by
  have hset : Inv (s.set id { s.attempt id with cancelled := true }) := by
    have hkept : Kept s (s.set id { s.attempt id with cancelled := true }) :=
      kept_set rfl fun _ => rfl
    have hlocal := h.core.phases id
    refine ⟨h.core.set hkept (h.core.waiting id)
      (fun hc => (h.core.channel id hc).1) ?_, h.live.set hkept⟩
    exact ⟨hlocal.unlocking, hlocal.begun, hlocal.unopened, hlocal.uninstalled, hlocal.awaits,
      hlocal.closing, hlocal.held⟩
  unfold RelayConnection.cancel
  generalize s.set id { s.attempt id with cancelled := true } = t at hset
  dsimp only
  split
  · refine Inv.closeCurrent ?_ false
    exact hset.same ⟨rfl, rfl, rfl, rfl, rfl, rfl, rfl, rfl, fun h => h⟩ rfl rfl rfl
  · split
    · exact ⟨hset.core.askClose, hset.live.askClose⟩
    · exact hset

theorem Inv.dispose (h : Inv s) : Inv { s with disposed := true }.interruptPendingConnection := by
  have hcore : Core { s with disposed := true } :=
    h.core.same ⟨rfl, rfl, rfl, rfl, rfl, rfl, rfl, rfl, fun _ => rfl⟩
  obtain ⟨hafter, hfresh⟩ := hcore.interrupt
  have hdisposed : { s with disposed := true }.interruptPendingConnection.disposed = true := by
    unfold RelayConnection.interruptPendingConnection
    cases s.pendingChannel with
    | none => rfl
    | some id => rfl
  exact ⟨hafter, fun _ _ => .inl hdisposed, hfresh.recent⟩

/-- What `checkAttempt` has made sure of. -/
structure Checked (s : RelayConnection) (id : Nat) : Prop where
  cancelled : (s.attempt id).cancelled = false
  disposed : s.disposed = false
  backgrounded : s.backgrounded = false
  isLocked : s.gate.isLocked = false
  generation : (s.attempt id).generation = s.generation

theorem checked_of_none (hcheck : s.checkAttempt id = none) : Checked s id := by
  unfold RelayConnection.checkAttempt at hcheck
  dsimp only at hcheck
  split at hcheck
  · cases hcheck
  · rename_i hcancelled
    split at hcheck
    · cases hcheck
    · rename_i hclear
      simp only [Bool.or_eq_true, bne_iff_ne, not_or, Bool.not_eq_true, Decidable.not_not]
        at hcancelled hclear
      exact ⟨hcancelled, hclear.1.1.1.1, hclear.1.1.1.2, hclear.1.1.2, hclear.2⟩

theorem Inv.guarded (h : Inv s) {next : RelayConnection} (hnext : Checked s id → Inv next) :
    Inv (s.guarded id next) := by
  unfold RelayConnection.guarded
  split
  · exact h.ends ⟨rfl, rfl⟩ nofun
  · exact hnext (checked_of_none ‹_›)

theorem Inv.fails (h : Inv s) (result : Result) : Inv (s.goto id (.failing result)) :=
  h.ends ⟨rfl, rfl⟩ nofun

theorem Inv.oldClosed (h : Inv s) (hphase : (s.attempt id).phase = .closingOld) :
    Inv (s.oldClosed id) := by
  unfold RelayConnection.oldClosed
  have hlocal := h.core.phases id
  split
  · exact h.ends ⟨rfl, rfl⟩ nofun
  · refine h.goto nofun ⟨nofun, fun _ => hlocal.begun (by rw [hphase]; rfl), fun _ => ?_,
      fun _ => ?_, nofun, nofun, hlocal.held⟩
    · exact hlocal.unopened (by rw [hphase]; rfl)
    · exact hlocal.uninstalled (by rw [hphase]; rfl)

/-- The attempt of the current generation is the only pending one. -/
theorem Core.alone (h : Core s) (hgen : (s.attempt id).generation = s.generation) {j : Nat}
    (hpending : s.pendingChannel = some j) : j = id := by
  obtain ⟨hjpos, hjgen⟩ := h.pending j hpending
  exact h.unique j id hjpos (hjgen.trans hgen.symm)

theorem Core.pend (h : Core s) (hpos : 0 < (s.attempt id).generation)
    (hgen : (s.attempt id).generation = s.generation) :
    Core { s with pendingChannel := some id } where
  pristine := h.pristine
  waiting := h.waiting
  observed := h.observed
  bound := h.bound
  unique := h.unique
  phases j := by
    have hlocal := h.phases j
    refine ⟨hlocal.unlocking, hlocal.begun, hlocal.unopened, hlocal.uninstalled, fun hphase => ?_,
      hlocal.closing, hlocal.held⟩
    cases hlocal.awaits hphase with
    | inl hpending => exact .inl (congrArg some (h.alone hgen hpending).symm)
    | inr hclose => exact .inr hclose
  pending j hj := by
    cases hj
    exact ⟨hpos, hgen⟩
  channel := h.channel
  sent := h.sent
  delivered d hd := ⟨(h.delivered d hd).1, (h.delivered d hd).2.unlocked,
    (h.delivered d hd).2.never, (h.delivered d hd).2.since, (h.delivered d hd).2.current⟩

theorem Inv.opened (h : Inv s) (hphase : (s.attempt id).phase = .opening) (success : Bool) :
    Inv (s.opened id success) := by
  unfold RelayConnection.opened
  have hlocal := h.core.phases id
  have hpos := hlocal.begun (by rw [hphase]; rfl)
  have huninstalled := hlocal.uninstalled (by rw [hphase]; rfl)
  cases success with
  | false => exact h.ends ⟨rfl, rfl⟩ nofun
  | true =>
    dsimp only
    rw [if_pos rfl]
    split
    · refine ⟨h.core.set (kept_set rfl fun _ => rfl) nofun (fun hc => (h.core.channel id hc).1) ?_,
        h.live.set (kept_set rfl fun _ => rfl)⟩
      exact ⟨nofun, nofun, nofun, nofun, nofun, nofun, hlocal.held⟩
    · have hgen := (checked_of_none ‹_›).generation
      have hpend := h.core.pend hpos hgen
      have hlive : Live { s with pendingChannel := some id } := ⟨h.live.channel, h.live.lockings⟩
      refine ⟨hpend.set (kept_set rfl fun _ => rfl) nofun (fun hc => (h.core.channel id hc).1) ?_,
        hlive.set (kept_set rfl fun _ => rfl)⟩
      exact ⟨nofun, fun _ => hpos, nofun, fun _ => huninstalled, fun _ => .inl rfl, nofun,
        hlocal.held⟩

/-- From one exchange before the install to the next. -/
theorem Inv.exchange (h : Inv s) {phase : Phase} (hphase : phase ≠ .unlocking)
    (hsocket : beforeSocket phase = false) (hclosing : ∀ result, phase ≠ .closing result)
    (hawaits : awaitsPeer (s.attempt id).phase = true) : Inv (s.goto id phase) := by
  have hlocal := h.core.phases id
  have hbefore : beforeInstall (s.attempt id).phase = true ∧
      running (s.attempt id).phase = true := by
    generalize (s.attempt id).phase = now at hawaits
    cases now with
    | registering | handshake | hostInfo => exact ⟨rfl, rfl⟩
    | unlocking | closingOld | opening | mismatch | deviceInfo | failing | closing | returned
    | «over» => cases hawaits
  refine h.goto hphase ⟨fun heq => absurd heq hphase, fun _ => hlocal.begun hbefore.2, ?_,
    fun _ => hlocal.uninstalled hbefore.1, fun _ => hlocal.awaits hawaits, ?_, hlocal.held⟩
  · intro heq
    exact absurd (hsocket.symm.trans heq) Bool.false_ne_true
  · intro result heq
    exact absurd heq (hclosing result)

theorem Inv.registered (h : Inv s) (hphase : (s.attempt id).phase = .registering)
    (answer : RelayConnection.Registration) : Inv (s.registered id answer) := by
  cases answer with
  | unusable => exact h.fails _
  | joined => exact h.guarded fun _ => h.exchange nofun rfl nofun (by rw [hphase]; rfl)
  | refused code => exact h.guarded fun _ => h.fails _
  | unknown => exact h.guarded fun _ => h.fails _

theorem Inv.handshook (h : Inv s) (hphase : (s.attempt id).phase = .handshake) (success : Bool) :
    Inv (s.handshook id success) := by
  cases success with
  | false => exact h.fails _
  | true => exact h.guarded fun _ => h.exchange nofun rfl nofun (by rw [hphase]; rfl)

/-- No session is up where an attempt is still the current one. -/
theorem Inv.idle (h : Inv s) (hchecked : Checked s id)
    (huninstalled : (s.attempt id).installed = false) : s.channel = none := by
  cases hc : s.channel with
  | none => rfl
  | some j =>
    cases h.live.channel j hc with
    | inl hdisposed => exact absurd (hchecked.disposed.symm.trans hdisposed) Bool.false_ne_true
    | inr hcurrent =>
      obtain ⟨hinst, hjpos⟩ := h.core.channel j hc
      cases h.core.unique j id hjpos (hcurrent.1.trans hchecked.generation.symm)
      exact absurd (huninstalled.symm.trans hinst) Bool.false_ne_true

/-- The current attempt becomes the current session: no other was. -/
theorem Inv.install (h : Inv s) (key : Text) (hphase : (s.attempt id).phase = .hostInfo)
    (hchecked : Checked s id) : Inv (s.install id key) := by
  have hlocal := h.core.phases id
  have hpos := hlocal.begun (by rw [hphase]; rfl)
  have hgen := hchecked.generation
  have hidle := h.idle hchecked (hlocal.uninstalled (by rw [hphase]; rfl))
  have hself : (s.install id key).attempt id =
      { s.attempt id with installed := true, phase := .deviceInfo } :=
    RelayConnection.attempt_set ..
  have hother : ∀ j, j ≠ id → (s.install id key).attempt j = s.attempt j := fun j hj =>
    RelayConnection.attempt_set_of_ne _ _ hj
  have hkept : Kept s (s.install id key) := by
    refine ⟨fun j => ?_, fun j _ => ?_⟩
    · by_cases hj : j = id
      · rw [hj, hself]
      · rw [hother j hj]
    · by_cases hj : j = id
      · rw [hj, hself]
      · rw [hother j hj]
  have hgens := hkept.generation
  refine ⟨⟨?pristine, ?waiting, ?observed, ?bound, ?unique, ?phases, ?pending, ?channel, ?sent,
    ?delivered⟩, ?current, ?lockings⟩
  case pristine => exact fun j hj => (hgens j).trans (h.core.pristine j hj)
  case waiting =>
    intro j
    by_cases heq : j = id
    · rw [heq, hself]
      exact nofun
    · rw [hother j heq]
      exact h.core.waiting j
  case observed =>
    intro j
    rw [hgens]
    exact h.core.observed j
  case bound =>
    intro j
    rw [hgens]
    exact h.core.bound j
  case unique =>
    intro i j
    rw [hgens, hgens]
    exact h.core.unique i j
  case phases =>
    intro j
    by_cases hj : j = id
    · rw [hj, hself]
      exact ⟨nofun, fun _ => hpos, nofun, nofun, nofun, nofun, fun _ => .inl rfl⟩
    · rw [hother j hj]
      have hlocalj := h.core.phases j
      refine ⟨hlocalj.unlocking, hlocalj.begun, hlocalj.unopened, hlocalj.uninstalled,
        fun hwaits => ?_, hlocalj.closing, fun hinst => ?_⟩
      · cases hlocalj.awaits hwaits with
        | inl hpending => exact absurd (h.core.alone hgen hpending) hj
        | inr hclose => exact .inr hclose
      · cases hlocalj.held hinst with
        | inl hcurrent => cases hidle.symm.trans hcurrent
        | inr hgone => exact .inr hgone
  case pending => exact nofun
  case channel =>
    intro j hj
    cases hj
    rw [hself]
    exact ⟨rfl, hpos⟩
  case sent =>
    intro m hm
    rw [hgens]
    exact h.core.sent m hm
  case delivered =>
    intro d hd
    obtain ⟨hdpos, hright⟩ := h.core.delivered d hd
    have hbegun : 0 < (s.attempt d.session).generation := hright.since ▸ hdpos
    exact ⟨hdpos, hright.unlocked, hright.never.trans (hkept.lockings _ hbegun).symm,
      hright.since.trans (hgens _).symm, hright.current⟩
  case current =>
    intro j hj
    cases hj
    rw [hgens]
    exact .inr ⟨hgen, hchecked.isLocked⟩
  case lockings =>
    intro j hj heq
    rw [hgens] at hj heq
    exact (h.live.lockings j hj heq).imp_right fun hsame => (hkept.lockings j hj).trans hsame

theorem Inv.firstFrame (h : Inv s) (hphase : (s.attempt id).phase = .hostInfo)
    (frame : RelayConnection.FirstFrame) (key : Text) : Inv (s.firstFrame id frame key) := by
  cases frame with
  | closed => exact h.fails _
  | unusable => exact h.fails _
  | other => exact h.guarded fun _ => h.fails _
  | newer => exact h.guarded fun _ => h.fails _
  | older => exact h.guarded fun _ => h.exchange nofun rfl nofun (by rw [hphase]; rfl)
  | good => exact h.guarded fun hchecked => h.install key hphase hchecked

theorem Inv.deviceInfoSent (h : Inv s) : Inv (s.deviceInfoSent id) := by
  unfold RelayConnection.deviceInfoSent
  split
  · refine h.guarded fun _ => ?_
    have hmore : Inv { s with connected := id :: s.connected } :=
      h.same ⟨rfl, rfl, rfl, rfl, rfl, rfl, rfl, rfl, fun h => h⟩ rfl rfl rfl
    have hlocal := h.core.phases id
    refine ⟨hmore.core.set (kept_set rfl fun _ => rfl) nofun (hmore.core.channel id · |>.1) ?_,
      hmore.live.set (kept_set rfl fun _ => rfl)⟩
    exact ⟨nofun, nofun, nofun, nofun, nofun, nofun, hlocal.held⟩
  · exact h.fails _

/-- A socket that waits for nobody is no longer pending. -/
theorem Inv.dropPending (h : Inv s) (hphase : awaitsPeer (s.attempt id).phase = false) :
    Inv { s with
      pendingChannel := if s.pendingChannel = some id then none else s.pendingChannel } := by
  refine ⟨⟨h.core.pristine, h.core.waiting, h.core.observed, h.core.bound, h.core.unique,
    fun j => ?_, fun j hj => ?_, h.core.channel, h.core.sent, fun d hd => ?_⟩, h.live.channel,
    h.live.lockings⟩
  · have hlocal := h.core.phases j
    refine ⟨hlocal.unlocking, hlocal.begun, hlocal.unopened, hlocal.uninstalled, fun hwaits => ?_,
      hlocal.closing, hlocal.held⟩
    have hne : j ≠ id := by
      rintro rfl
      exact absurd (hphase.symm.trans hwaits) Bool.false_ne_true
    cases hlocal.awaits hwaits with
    | inr hclose => exact .inr hclose
    | inl hpending =>
      refine .inl ?_
      show (if s.pendingChannel = some id then none else s.pendingChannel) = some j
      rw [if_neg, hpending]
      rw [hpending]
      exact fun heq => hne (Option.some.inj heq)
  · dsimp only at hj
    split at hj
    · cases hj
    · exact h.core.pending j hj
  · obtain ⟨hpos, hright⟩ := h.core.delivered d hd
    exact ⟨hpos, hright.unlocked, hright.never, hright.since, hright.current⟩

theorem Inv.endAttempt (h : Inv s) (result : Result) : Inv (s.endAttempt id result) := by
  have hgone : Inv (s.goto id (.returned result)) := h.ends ⟨rfl, rfl⟩ nofun
  have hphase : awaitsPeer ((s.goto id (.returned result)).attempt id).phase = false := by
    rw [RelayConnection.goto, s.attempt_set]
    rfl
  exact hgone.dropPending hphase

theorem Inv.returns (h : Inv s) (result : Result) (staleSlot : Bool) :
    Inv (s.returns id result staleSlot) := by
  unfold RelayConnection.returns
  have hover : Inv (s.goto id (.over result)) := h.ends ⟨rfl, rfl⟩ nofun
  generalize s.goto id (.over result) = t at hover
  dsimp only
  split
  · split
    · exact hover.schedule
    · exact hover.same ⟨rfl, rfl, rfl, rfl, rfl, rfl, rfl, rfl, fun h => h⟩ rfl rfl rfl
  · exact hover

theorem Inv.turn (h : Inv s) (pump : Pump) : Inv (s.turn id pump) :=
  ⟨h.core.turn, h.live.turn⟩

theorem Inv.pumpEnds (h : Inv s) (revoked : Bool) : Inv (s.pumpEnds id revoked) := by
  unfold RelayConnection.pumpEnds
  split
  · have hturn := (@Inv.turn _ id) (h.closeCurrent false)
      (.closing (if revoked then .revoked else .reschedule))
    generalize (s.closeCurrentSocket false).turn id
      (.closing (if revoked then .revoked else .reschedule)) = t at hturn
    exact hturn.same ⟨rfl, rfl, rfl, rfl, rfl, rfl, rfl, rfl, fun h => h⟩ rfl rfl rfl
  · exact h.turn .done

theorem Inv.received (h : Inv s) : Inv (s.received id) := by
  unfold RelayConnection.received
  split
  · exact h.turn .decoding
  · exact h.pumpEnds false

theorem Inv.broadcast (h : Inv s) (hchannel : s.channel = some id) : Inv (s.broadcast id) := by
  refine ⟨⟨h.core.pristine, h.core.waiting, h.core.observed, h.core.bound, h.core.unique,
    h.core.phases, h.core.pending, h.core.channel, fun m hm => ?_, fun d hd => ?_⟩,
    h.live.channel, h.live.lockings⟩
  · cases List.mem_append.mp hm with
    | inl hold => exact h.core.sent m hold
    | inr hnew =>
      cases List.mem_singleton.mp hnew
      refine (h.live.channel id hchannel).imp_right fun hcurrent => ?_
      exact ⟨hcurrent.1 ▸ (h.core.channel id hchannel).2, hcurrent.1⟩
  · obtain ⟨hpos, hright⟩ := h.core.delivered d hd
    exact ⟨hpos, hright.unlocked, hright.never, hright.since, hright.current⟩

theorem Inv.decoded (h : Inv s) (outcome : RelayConnection.Decoded) :
    Inv (s.decoded id outcome) := by
  unfold RelayConnection.decoded
  split
  · rename_i hcurrent
    have hchannel : s.channel = some id := by
      simp only [Bool.and_eq_true, decide_eq_true_eq] at hcurrent
      exact hcurrent.1
    cases outcome with
    | nothing => exact h.turn .reading
    | message => exact (h.broadcast hchannel).turn .reading
    | violation => exact h.pumpEnds false
    | fatal revoked => exact (h.broadcast hchannel).pumpEnds revoked
  · exact h.pumpEnds false

theorem Inv.pumpClosed (h : Inv s) (after : After) : Inv (s.pumpClosed id after) := by
  cases after with
  | reschedule => exact (h.turn .done).schedule
  | revoked =>
    have hturn := (@Inv.turn _ id) h .done
    exact hturn.same ⟨rfl, rfl, rfl, rfl, rfl, rfl, rfl, rfl, fun h => h⟩ rfl rfl rfl

theorem Inv.disconnectSent (h : Inv s) :
    Inv (s.set id { s.attempt id with leaving := false, closeAsked := true }) := by
  have hlocal := h.core.phases id
  refine ⟨h.core.set (kept_set rfl fun _ => rfl) (h.core.waiting id)
    (fun hc => (h.core.channel id hc).1) ?_, h.live.set (kept_set rfl fun _ => rfl)⟩
  exact ⟨hlocal.unlocking, hlocal.begun, hlocal.unopened, hlocal.uninstalled, fun _ => .inr rfl,
    fun _ _ => rfl, fun _ => .inr (.inl rfl)⟩

/-- A message of the current generation is of the current session, if there is one. -/
theorem Inv.deliver (h : Inv s) {m : Broadcast} (hm : m ∈ s.broadcasts) : Inv (s.deliver m) := by
  unfold RelayConnection.deliver
  split
  · rename_i hopen
    simp only [Bool.and_eq_true, Bool.not_eq_true', beq_iff_eq] at hopen
    obtain ⟨⟨hdisposed, hlocked⟩, hgen⟩ := hopen
    have hup : s.disposed ≠ true := by simp [hdisposed]
    obtain ⟨hpos, hsession⟩ := (h.core.sent m hm).resolve_left hup
    have hbegun : 0 < (s.attempt m.session).generation := hsession ▸ hpos
    have hobserved := h.core.observed m.session hbegun
    have hnow : (s.attempt m.session).generation = s.generation := hsession.trans hgen
    refine ⟨⟨h.core.pristine, h.core.waiting, h.core.observed, h.core.bound, h.core.unique,
      h.core.phases, h.core.pending, h.core.channel, h.core.sent, fun d hd => ?_⟩,
      h.live.channel, h.live.lockings⟩
    cases List.mem_cons.mp hd with
    | inr hold =>
      obtain ⟨hdpos, hright⟩ := h.core.delivered d hold
      exact ⟨hdpos, hright.unlocked, hright.never, hright.since, hright.current⟩
    | inl hnew =>
      cases hnew
      refine ⟨hgen ▸ hpos, ?_, ?_, hnow.symm, ?_⟩
      · simpa [RelayConnection.gateLocked, hobserved] using hlocked
      · exact ((h.live.lockings m.session hbegun hnow).resolve_left hup).symm
      · cases hc : s.channel with
        | none => exact .inr rfl
        | some j =>
          have hcurrent := (h.live.channel j hc).resolve_left hup
          have hsame := h.core.unique j m.session (h.core.channel j hc).2
            (hcurrent.1.trans hnow.symm)
          exact .inl (congrArg some hsame)
  · exact h

end Operations

theorem inv_start (appLockEnabled : Bool) : Inv (.start appLockEnabled) := by
  refine ⟨⟨fun _ _ => rfl, nofun, nofun, fun _ => Nat.le_refl _, nofun, fun _ => ?_, nofun, nofun,
    nofun, nofun⟩, nofun, nofun⟩
  exact ⟨nofun, nofun, nofun, nofun, nofun, nofun, nofun⟩

theorem inv_step {s t : RelayConnection} {e : RelayConnection.Event} (h : Inv s)
    (hs : s.step e = some t) : Inv t := by
  cases RelayConnection.moved_of_step hs with
  | connect address mode | timerFires params _ =>
    refine Inv.connect ?_ _ _ _
    exact h.same ⟨rfl, rfl, rfl, rfl, rfl, rfl, rfl, rfl, fun h => h⟩ rfl rfl rfl
  | paused => exact h.paused
  | resumed => exact h.resumed
  | networkStable => exact h.onNetworkStable
  | lock => exact h.gate _
  | unlock => exact h.gate _
  | unlocked => exact h
  | setAppLockEnabled value _ => exact h.gate _
  | appLockKept value => exact h
  | disconnect => exact h.disconnect
  | cancel id => exact h.cancel
  | dispose => exact h.dispose
  | disposed _ => exact h.closeCurrent false
  | unlockEnded id hphase => exact h.begin hphase
  | oldClosed id hphase => exact h.oldClosed hphase
  | opened id success hphase => exact h.opened hphase success
  | registered id answer hphase => exact h.registered hphase answer
  | handshook id success hphase => exact h.handshook hphase success
  | firstFrame id frame key hphase _ => exact h.firstFrame hphase frame key
  | mismatchSent id _ => exact h.fails _
  | deviceInfoSent id _ => exact h.deviceInfoSent
  | threw id _ => exact h.endAttempt .thrown
  | iteratorCancelled id result _ =>
    have hask : Inv (s.askClose id) := ⟨h.core.askClose, h.live.askClose⟩
    refine hask.ends ⟨rfl, rfl⟩ fun _ _ => ?_
    exact congrArg Attempt.closeAsked (s.attempt_set _ _)
  | closed id result _ => exact h.endAttempt _
  | returns id staleSlot result _ => exact h.returns _ staleSlot
  | received id _ => exact h.received
  | decoded id outcome _ => exact h.decoded outcome
  | timedOut id _ => exact h.pumpEnds false
  | streamClosed id revoked _ => exact h.pumpEnds revoked
  | pumpClosed id after _ => exact h.pumpClosed _
  | disconnectSent id _ => exact h.disconnectSent
  | deliver index m hm => exact h.deliver (List.mem_of_getElem? hm)

end HerdrMobile.App.Isolation
