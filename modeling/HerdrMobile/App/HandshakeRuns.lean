import Mathlib.Algebra.Ring.Nat
import HerdrMobile.App.Handshake
import HerdrMobile.Lib.Conversation

/-!
# Device and Host finish one handshake

A pairing or a reconnect whose messages come in as they were sent ends with two sessions
that agree. Keys that differ, and messages that were changed, are caught.
-/
namespace HerdrMobile.App.HandshakeRuns

open HerdrMobile.Lib.Noise (Octets Suite Noted Event HandshakeState Party Token Pattern dhLen
  hashLen tagLen Altered Caught Noticed Cut Only OnLine Sound)
open HerdrMobile.App.Noise HerdrMobile.Host.Noise HerdrMobile.App.Handshake

set_option autoImplicit false

variable {S : Suite}

/-- The key pairs of one side. -/
structure Side (S : Suite) where
  localStatic : S.PrivateKey
  localEphemeral : S.PrivateKey

/-- A static key that one side holds for the other one's. -/
structure PinnedKey where
  bytes : Octets
  length : bytes.length = dhLen

/-- What the two sides have when both have finished. -/
structure Finished where
  deviceHash : Octets
  hostHash : Octets
  session : NoiseSession
  transport : Transport
  hostRemoteStatic : Octets
  deriving DecidableEq

/-- A first pairing; each of the three messages goes over a network of its own. -/
def pairingRun (device host : Side S) (devicePsk hostPsk : Octets)
    (network₁ network₂ network₃ : Octets → Octets) : Noted Finished := do
  let i ← NoiseXxPsk0Initiator.init false device.localStatic
  let r ← pairingHandshake .responder host.localStatic host.localEphemeral hostPsk
  let (i, message) ← i.writeMessage1 devicePsk device.localEphemeral
  let message ← HandshakeState.carry network₁ message
  let (r, _) ← readHandshakeMessage r message
  let (r, message) ← writeHandshakeMessage r []
  let message ← HandshakeState.carry network₂ message
  let i ← i.readMessage2 message
  let (i, message) ← i.writeMessage3
  let message ← HandshakeState.carry network₃ message
  let session ← i.finish
  let (r, _) ← readHandshakeMessage r message
  let (transport, remoteStatic) ← finishHandshake r
  return {
    deviceHash := i.state.h
    hostHash := r.symmetric.hash
    session := session
    transport := transport
    hostRemoteStatic := remoteStatic }

def reconnectRun (device host : Side S) (devicePinned hostPinned : PinnedKey)
    (network₁ network₂ : Octets → Octets) : Noted Finished := do
  let i ← NoiseKkInitiator.init false device.localStatic devicePinned.bytes
  let r ← reconnectHandshake .responder host.localStatic host.localEphemeral hostPinned.bytes
  let (i, message) ← i.writeMessage1 device.localEphemeral
  let message ← HandshakeState.carry network₁ message
  let (r, _) ← readHandshakeMessage r message
  let (r, message) ← writeHandshakeMessage r []
  let message ← HandshakeState.carry network₂ message
  let i ← i.readMessage2 message
  let session ← i.finish
  let (transport, remoteStatic) ← finishHandshake r
  return {
    deviceHash := i.state.h
    hostHash := r.symmetric.hash
    session := session
    transport := transport
    hostRemoteStatic := remoteStatic }

/-- The end of a conversation of the specification's two parties. -/
def finished (a b : HandshakeState S) : Noted Finished := do
  let keys := a.symmetric.split S
  let rs ← Noted.ofOption a.rs
  let (transport, remoteStatic) ← finishHandshake b
  return {
    deviceHash := a.symmetric.hash
    hostHash := b.symmetric.hash
    session := { send := keys.1, receive := keys.2, remoteStaticPublicKey := rs }
    transport := transport
    hostRemoteStatic := remoteStatic }

theorem pairingRun_eq (device host : Side S) (devicePsk hostPsk : Octets)
    (network₁ network₂ network₃ : Octets → Octets) :
    pairingRun device host devicePsk hostPsk network₁ network₂ network₃ = (do
      let a ← pairingHandshake .initiator device.localStatic device.localEphemeral devicePsk
      let b ← pairingHandshake .responder host.localStatic host.localEphemeral hostPsk
      let (a, b) ← HandshakeState.converse [network₁, network₂, network₃] a b
      finished a b) := by
  unfold pairingRun
  refine Noted.bind_congr (init_pairing device.localStatic device.localEphemeral devicePsk)
    fun i hi => ?_
  refine congrArg (_ >>= ·) (funext fun r => ?_)
  simp only [HandshakeState.converse, bind_assoc, pure_bind]
  refine Noted.bind_congr (writeMessage1_pairing i devicePsk device.localEphemeral
    [[.e, .ee, .s, .es], [.s, .se]]) fun m₁ hm₁ => ?_
  refine congrArg (_ >>= ·) (funext fun message => ?_)
  refine congrArg (_ >>= ·) (funext fun r => ?_)
  refine congrArg (_ >>= ·) (funext fun r₂ => ?_)
  refine congrArg (_ >>= ·) (funext fun message => ?_)
  refine Eq.trans ?_ (Noted.map_bind_left Prod.fst _ fun a : HandshakeState S =>
    a.writeMessage [] >>= fun x =>
    HandshakeState.carry network₃ x.2 >>= fun m => r₂.1.readMessage m >>= fun y =>
      finished x.1 y.1)
  refine Noted.bind_congr (readMessage2_pairing m₁.1 devicePsk message device.localEphemeral
    [[.s, .se]] (writeMessage1_ephemeral hm₁)) fun i₂ hi₂ => ?_
  obtain ⟨⟨re, hre⟩, ⟨rs, hrs⟩, hkey⟩ := readMessage2_keys hi₂
  refine Noted.bind_congr (writeMessage3_pairing i₂ devicePsk re device.localEphemeral [] hre hkey)
    fun m₃ hm₃ => ?_
  refine congrArg (_ >>= ·) (funext fun message => ?_)
  have hrs₃ : m₃.1.remoteStatic = some rs := (writeMessage3_static hm₃).trans hrs
  simp only [NoiseXxPsk0Initiator.finish, finished, pairing, hrs₃, Noted.ofOption, pure_bind]
  rfl

theorem reconnectRun_eq (device host : Side S) (devicePinned hostPinned : PinnedKey)
    (network₁ network₂ : Octets → Octets) :
    reconnectRun device host devicePinned hostPinned network₁ network₂ = (do
      let a ← reconnectHandshake .initiator device.localStatic device.localEphemeral
        devicePinned.bytes
      let b ← reconnectHandshake .responder host.localStatic host.localEphemeral hostPinned.bytes
      let (a, b) ← HandshakeState.converse [network₁, network₂] a b
      finished a b) := by
  unfold reconnectRun
  refine Noted.bind_congr (init_reconnect device.localStatic device.localEphemeral
    devicePinned.bytes) fun i hi => ?_
  refine congrArg (_ >>= ·) (funext fun r => ?_)
  simp only [HandshakeState.converse, bind_assoc, pure_bind]
  refine Noted.bind_congr (writeMessage1_reconnect i device.localEphemeral [[.e, .ee, .se]])
    fun m₁ hm₁ => ?_
  refine congrArg (_ >>= ·) (funext fun message => ?_)
  refine congrArg (_ >>= ·) (funext fun r => ?_)
  refine congrArg (_ >>= ·) (funext fun r₂ => ?_)
  refine congrArg (_ >>= ·) (funext fun message => ?_)
  refine Eq.trans ?_ (Noted.map_bind_left Prod.fst _ fun a : HandshakeState S => finished a r₂.1)
  refine Noted.bind_congr (readMessage2_reconnect m₁.1 message device.localEphemeral []
    (writeMessage1_ephemeral_reconnect hm₁)) fun i₂ hi₂ => ?_
  rfl

structure Finished.Agrees (f : Finished) (device host : Side S) : Prop where
  hash : f.deviceHash = f.hostHash
  deviceSends : f.session.send = f.transport.receive
  hostSends : f.transport.send = f.session.receive
  deviceLearns : f.session.remoteStaticPublicKey = S.publicKey host.localStatic
  hostLearns : f.hostRemoteStatic = S.publicKey device.localStatic

theorem finished_agrees {K : HandshakeState.Known} {a b : HandshakeState S} {device host : Side S}
    (h : HandshakeState.Matched K a b) (hparty : a.party = .initiator) (hdone : a.messages = [])
    (hstatic : K.static .initiator = true ∧ K.static .responder = true)
    (ha : a.s = device.localStatic) (hb : b.s = host.localStatic) :
    ∃ f, (finished a b).result = some f ∧ f.Agrees device host := by
  have hpb : b.party = .responder := by
    rw [h.party, hparty]
    rfl
  have hrs : a.rs = some (S.publicKey host.localStatic) := by
    rw [h.ab.rs, hpb, if_pos hstatic.2, hb]
  have hrs' : b.rs = some (S.publicKey device.localStatic) := by
    rw [h.ba.rs, hparty, if_pos hstatic.1, ha]
  have hmb : b.messages = [] := h.messages ▸ hdone
  let keys := a.symmetric.split S
  refine ⟨{
    deviceHash := a.symmetric.hash
    hostHash := b.symmetric.hash
    session := {
      send := keys.1
      receive := keys.2
      remoteStaticPublicKey := S.publicKey host.localStatic }
    transport := { send := keys.2, receive := keys.1 }
    hostRemoteStatic := S.publicKey device.localStatic }, ?_, ?_⟩
  · simp only [finished, finishHandshake, intoTransportMode, hrs, hrs', hmb, hpb, ← h.symmetric]
    rfl
  · exact ⟨congrArg (·.hash) h.symmetric, rfl, rfl, rfl, rfl⟩

theorem finished_events (a b : HandshakeState S) : Only (fun _ => False) (finished a b) := by
  refine (Only.ofOption _).bind fun _ => Only.bind ?_ fun _ => Only.pure _
  refine (Only.ofOption _).bind fun _ => Only.bind ?_ fun _ => Only.pure _
  refine Only.ite ?_ Only.stop
  split
  · exact Only.pure _
  · exact Only.pure _

section Parts

variable {x y : Noted (HandshakeState S)} {networks : List (Octets → Octets)}

/-- A run of two parties that start and then converse. -/
def run (x y : Noted (HandshakeState S)) (networks : List (Octets → Octets)) : Noted Finished := do
  let a ← x
  let b ← y
  let (a, b) ← HandshakeState.converse networks a b
  finished a b

theorem run_only {p : Event → Prop} (h : Only p (run x y networks)) :
    Only p x ∧ (∀ a, x.result = some a → Only p y ∧ ∀ b, y.result = some b →
      Only p (HandshakeState.converse networks a b)) :=
  ⟨h.left, fun _ ha => ⟨(h.right ha).left, fun _ hb => ((h.right ha).right hb).left⟩⟩

theorem run_altered {a b : HandshakeState S} (hx : Only Event.Read x) (hy : Only Event.Read y)
    (ha : x.result = some a) (hb : y.result = some b) (h : Altered (run x y networks)) :
    Altered (HandshakeState.converse networks a b) := by
  have h₁ := h.of_bind ha fun _ _ hc => (hx _ hc).elim
  have h₂ := h₁.of_bind hb fun _ _ hc => (hy _ hc).elim
  exact h₂.of_quiet fun r => finished_events r.1 r.2

theorem run_caught {a b : HandshakeState S} (ha : x.result = some a) (hb : y.result = some b)
    (h : Caught (x.events ++ y.events) (HandshakeState.converse networks a b)) :
    Caught [] (run x y networks) := by
  refine .bind_right ha (.bind_right hb ?_)
  exact h.bind

/-- A pattern under a name that is hashed, with what its messages need. -/
structure Runs (pattern : Pattern) (psk : Option Octets) (static : Party → Bool) : Prop where
  long : hashLen < pattern.name.length
  short : pattern.name.length < hashLen + tagLen
  pre : ∀ p ∈ pattern.pre, static p = true
  fits : (HandshakeState.firstStage psk static).fitsAll .initiator pattern.messages = true
  learnt : ((HandshakeState.firstStage psk static).final .initiator
    pattern.messages).known.static = fun _ => true

section Starts

variable {pattern : Pattern} {device host : Side S} {rs rs' psk psk' : Option Octets}
  {static : Party → Bool} {E : List Event}

abbrev deviceStart (pattern : Pattern) (device : Side S) (rs psk : Option Octets) :
    Noted (HandshakeState S) :=
  HandshakeState.start pattern [] .initiator device.localStatic device.localEphemeral rs psk

abbrev hostStart (pattern : Pattern) (host : Side S) (rs psk : Option Octets) :
    Noted (HandshakeState S) :=
  HandshakeState.start pattern [] .responder host.localStatic host.localEphemeral rs psk

theorem start_line (pattern : Pattern) (device host : Side S) (rs rs' psk psk' : Option Octets)
    (T : List Octets) :
    OnLine S pattern.name E ((deviceStart pattern device rs psk).events ++
      (hostStart pattern host rs' psk').events) T :=
  (OnLine.of_read (HandshakeState.only_start _ _ _ _ _ _)).append
    (OnLine.of_read (HandshakeState.only_start _ _ _ _ _ _))

theorem run_ready (h : Runs pattern psk static)
    (hrs : rs = if static .responder then some (S.publicKey host.localStatic) else none)
    (hrs' : rs' = if static .initiator then some (S.publicKey device.localStatic) else none)
    (hE : Only (· ∈ E)
      (run (deviceStart pattern device rs psk) (hostStart pattern host rs' psk) networks)) :
    ∃ a b T, (deviceStart pattern device rs psk).result = some a ∧
      (hostStart pattern host rs' psk).result = some b ∧ .hashed pattern.name ∈ E ∧
      HandshakeState.Ready S pattern.name E
        ((deviceStart pattern device rs psk).events ++ (hostStart pattern host rs' psk).events)
        (HandshakeState.firstStage psk static) pattern.messages T a b ∧
      a.party = .initiator ∧ a.s = device.localStatic ∧ b.s = host.localStatic ∧
      Only (· ∈ E) (HandshakeState.converse networks a b) := by
  obtain ⟨hEa, hrest⟩ := run_only hE
  obtain ⟨a₀, ha₀⟩ : ∃ a, (deviceStart pattern device rs psk).result = some a := by
    obtain ⟨a, b, ha, -⟩ := HandshakeState.start_matched [] device.localEphemeral
      host.localEphemeral psk static h.pre hrs hrs'
    exact ⟨a, ha⟩
  obtain ⟨a, b, T, ha, hb, hin, hready, hpa, has, hbs⟩ :=
    HandshakeState.ready_of_start h.long h.pre hrs hrs' h.fits hEa (hrest a₀ ha₀).1
      (start_line pattern device host rs rs' psk psk)
  exact ⟨a, b, T, ha, hb, hin, hready, hpa, has, hbs, (hrest a ha).2 b hb⟩

theorem run_apart {tokens : List Token} {messages : List (List Token)}
    (h : Runs pattern psk static)
    (hsome : static .responder = true → rs.isSome = true)
    (hsome' : static .initiator = true → rs'.isSome = true)
    (hrs : ∀ key, rs = some key → key.length = dhLen)
    (hrs' : ∀ key, rs' = some key → key.length = dhLen)
    (hpsk : psk.isSome = psk'.isSome)
    (hmessages : pattern.messages = tokens :: messages)
    (hE : Only (· ∈ E)
      (run (deviceStart pattern device rs psk) (hostStart pattern host rs' psk') networks)) :
    ∃ a b, (deviceStart pattern device rs psk).result = some a ∧
      (hostStart pattern host rs' psk').result = some b ∧ .hashed pattern.name ∈ E ∧
      HandshakeState.Apart S pattern.name E
        ((deviceStart pattern device rs psk).events ++ (hostStart pattern host rs' psk').events)
        (HandshakeState.firstStage psk static) tokens messages
        ([] :: a.preKeys pattern.pre) a b ∧
      Lib.Noise.Transcript S pattern.name E ([] :: b.preKeys pattern.pre) b.symmetric.hash ∧
      a.psk = psk ∧ b.psk = psk' ∧ a.rs = rs ∧ b.rs = rs' ∧ a.s = device.localStatic ∧
      b.s = host.localStatic ∧ a.party = .initiator ∧ b.party = .responder ∧
      Only (· ∈ E) (HandshakeState.converse networks a b) := by
  obtain ⟨hEa, hrest⟩ := run_only hE
  have hpre : ∀ p ∈ pattern.pre, p ≠ .initiator → rs.isSome = true := by
    intro p hp hne
    cases p with
    | initiator => exact absurd rfl hne
    | responder => exact hsome (h.pre _ hp)
  have hfits : (HandshakeState.firstStage psk static).fits .initiator tokens = true := by
    have hall := h.fits
    rw [hmessages] at hall
    simp only [Lib.Noise.Stage.fitsAll, Bool.and_eq_true] at hall
    exact hall.1
  obtain ⟨a₀, ha₀, -⟩ := HandshakeState.start_transcript h.long hpre hrs hEa
  obtain ⟨a, b, ha, hb, hin, hapart, ht, hpa, hpb, har, hbr, has, hbs, hap, hbp⟩ :=
    HandshakeState.apart_of_start h.long h.pre hsome hsome' hrs hrs' hpsk hmessages hfits hEa
      (hrest a₀ ha₀).1 (start_line pattern device host rs rs' psk psk')
  exact ⟨a, b, ha, hb, hin, hapart, ht, hpa, hpb, har, hbr, has, hbs, hap, hbp,
    (hrest a ha).2 b hb⟩

theorem run_agrees (h : Runs pattern psk static)
    (hrs : rs = if static .responder then some (S.publicKey host.localStatic) else none)
    (hrs' : rs' = if static .initiator then some (S.publicKey device.localStatic) else none)
    (hn : networks.length = pattern.messages.length)
    (ha : ¬Altered
      (run (deviceStart pattern device rs psk) (hostStart pattern host rs' psk) networks)) :
    ∃ f, (run (deviceStart pattern device rs psk) (hostStart pattern host rs' psk)
      networks).result = some f ∧ f.Agrees device host := by
  let x := run (deviceStart pattern device rs psk) (hostStart pattern host rs' psk) networks
  have hall : Only (· ∈ x.events) x := fun _ he => he
  obtain ⟨a, b, T, hsa, hsb, -, hready, hpa, has, hbs, hE⟩ := run_ready h hrs hrs' hall
  have hnot : ¬Altered (HandshakeState.converse networks a b) := by
    intro hc
    exact ha (.bind_right hsa (.bind_right hsb hc.bind))
  obtain ⟨a', b', hres, hm, hka, hkb, hdone⟩ := hready.agree hE hnot hn
  have hstatic : ((HandshakeState.firstStage psk static).final a.party
      pattern.messages).known.static = fun _ => true := by
    rw [hpa]
    exact h.learnt
  obtain ⟨f, hf, hagree⟩ := finished_agrees hm (hka.party.trans hpa) hdone
    ⟨congrFun hstatic _, congrFun hstatic _⟩ (hka.s.trans has) (hkb.s.trans hbs)
  refine ⟨f, ?_, hagree⟩
  simp [run, hsa, hsb, hres, hf]

theorem run_altered_caught (h : Runs pattern psk static)
    (hrs : rs = if static .responder then some (S.publicKey host.localStatic) else none)
    (hrs' : rs' = if static .initiator then some (S.publicKey device.localStatic) else none)
    (hno : S.NoCollision
      (run (deviceStart pattern device rs psk) (hostStart pattern host rs' psk) networks).events)
    (ha : Altered
      (run (deviceStart pattern device rs psk) (hostStart pattern host rs' psk) networks)) :
    Caught []
      (run (deviceStart pattern device rs psk) (hostStart pattern host rs' psk) networks) := by
  let x := run (deviceStart pattern device rs psk) (hostStart pattern host rs' psk) networks
  have hall : Only (· ∈ x.events) x := fun _ he => he
  obtain ⟨a, b, T, hsa, hsb, hin, hready, -, -, -, hE⟩ := run_ready h hrs hrs' hall
  have hc := run_altered (HandshakeState.only_start _ _ _ _ _ _) (HandshakeState.only_start _ _ _ _ _ _) hsa hsb ha
  exact run_caught hsa hsb (hready.altered_caught ⟨hno, hin, h.long, h.short⟩ hE hc)

end Starts

end Parts

theorem runs_pairing (psk : Octets) : Runs xxPsk0Params (some psk) fun _ => false where
  long := by decide
  short := by decide
  pre p hp := by cases hp
  fits := rfl
  learnt := by funext p; cases p <;> rfl

theorem runs_reconnect : Runs kkParams none fun _ => true where
  long := by decide
  short := by decide
  pre _ _ := rfl
  fits := by decide
  learnt := by funext p; cases p <;> rfl

variable (device host : Side S)

theorem pairing_agrees (psk : Octets) (network₁ network₂ network₃ : Octets → Octets)
    (h : ¬Altered (pairingRun device host psk psk network₁ network₂ network₃)) :
    ∃ f, (pairingRun device host psk psk network₁ network₂ network₃).result = some f ∧
      f.Agrees device host := by
  rw [pairingRun_eq] at h ⊢
  exact run_agrees (runs_pairing psk) rfl rfl rfl h

theorem pairing_altered_caught (psk : Octets) (network₁ network₂ network₃ : Octets → Octets)
    (hno : S.NoCollision (pairingRun device host psk psk network₁ network₂ network₃).events)
    (h : Altered (pairingRun device host psk psk network₁ network₂ network₃)) :
    Caught [] (pairingRun device host psk psk network₁ network₂ network₃) := by
  rw [pairingRun_eq] at h hno ⊢
  exact run_altered_caught (runs_pairing psk) rfl rfl hno h

theorem start_pairing_symmetric {party : Party} {s e : S.PrivateKey} {psk : Octets}
    {a : HandshakeState S}
    (h : (HandshakeState.start xxPsk0Params [] party s e none (some psk)).result = some a) :
    a.symmetric =
      { key := none, nonce := 0, chainingKey := S.hash xxPsk0Params.name,
        hash := S.hash (S.hash xxPsk0Params.name ++ []) } := by
  cases h
  rfl

theorem pairing_psk_caught {devicePsk hostPsk : Octets} (hne : devicePsk ≠ hostPsk)
    (network₁ network₂ network₃ : Octets → Octets)
    (hno : S.NoCollision
      (pairingRun device host devicePsk hostPsk network₁ network₂ network₃).events) :
    Caught [] (pairingRun device host devicePsk hostPsk network₁ network₂ network₃) := by
  rw [pairingRun_eq] at hno ⊢
  let x := run (deviceStart xxPsk0Params device none (some devicePsk))
    (hostStart xxPsk0Params host none (some hostPsk)) [network₁, network₂, network₃]
  have hall : Only (· ∈ x.events) x := fun _ he => he
  have hruns := runs_pairing devicePsk
  have hsome : (some devicePsk).isSome = (some hostPsk).isSome := rfl
  obtain ⟨a, b, ha, hb, hin, hapart, -, hpa, hpb, -, -, -, -, -, -, hE⟩ :=
    run_apart hruns (fun h => by cases h) (fun h => by cases h) (fun _ h => by cases h)
      (fun _ h => by cases h) hsome rfl hall
  have hsame : b.symmetric = a.symmetric :=
    (start_pairing_symmetric hb).trans (start_pairing_symmetric ha).symm
  exact run_caught ha hb
    (hapart.psk_caught ⟨hno, hin, hruns.long, hruns.short⟩ hsame hpa hpb hne hE)

theorem reconnect_agrees {devicePinned hostPinned : PinnedKey}
    (hd : devicePinned.bytes = S.publicKey host.localStatic)
    (hh : hostPinned.bytes = S.publicKey device.localStatic)
    (network₁ network₂ : Octets → Octets)
    (h : ¬Altered (reconnectRun device host devicePinned hostPinned network₁ network₂)) :
    ∃ f, (reconnectRun device host devicePinned hostPinned network₁ network₂).result = some f ∧
      f.Agrees device host := by
  rw [reconnectRun_eq] at h ⊢
  exact run_agrees runs_reconnect (congrArg some hd) (congrArg some hh) rfl h

theorem reconnect_altered_caught {devicePinned hostPinned : PinnedKey}
    (hd : devicePinned.bytes = S.publicKey host.localStatic)
    (hh : hostPinned.bytes = S.publicKey device.localStatic)
    (network₁ network₂ : Octets → Octets)
    (hno : S.NoCollision
      (reconnectRun device host devicePinned hostPinned network₁ network₂).events)
    (h : Altered (reconnectRun device host devicePinned hostPinned network₁ network₂)) :
    Caught [] (reconnectRun device host devicePinned hostPinned network₁ network₂) := by
  rw [reconnectRun_eq] at h hno ⊢
  exact run_altered_caught runs_reconnect (congrArg some hd) (congrArg some hh) hno h

theorem reconnect_pinned_caught {devicePinned hostPinned : PinnedKey}
    (hne : devicePinned.bytes ≠ S.publicKey host.localStatic ∨
      hostPinned.bytes ≠ S.publicKey device.localStatic)
    (network₁ network₂ : Octets → Octets)
    (hno : S.NoCollision
      (reconnectRun device host devicePinned hostPinned network₁ network₂).events) :
    Caught [] (reconnectRun device host devicePinned hostPinned network₁ network₂) := by
  rw [reconnectRun_eq] at hno ⊢
  let x := run (deviceStart kkParams device (some devicePinned.bytes) none)
    (hostStart kkParams host (some hostPinned.bytes) none) [network₁, network₂]
  have hall : Only (· ∈ x.events) x := fun _ he => he
  obtain ⟨a, b, ha, hb, hin, hapart, ht, -, -, har, hbr, has, hbs, hpa, hpb, hE⟩ :=
    run_apart runs_reconnect (fun _ => rfl) (fun _ => rfl)
      (fun _ h => by cases h; exact devicePinned.length)
      (fun _ h => by cases h; exact hostPinned.length) rfl rfl hall
  have hkeys : a.preKeys kkParams.pre = [S.publicKey device.localStatic, devicePinned.bytes] := by
    simp [HandshakeState.preKeys, HandshakeState.staticKey, kkParams, hpa, har, has]
  have hkeys' : b.preKeys kkParams.pre = [hostPinned.bytes, S.publicKey host.localStatic] := by
    simp [HandshakeState.preKeys, HandshakeState.staticKey, kkParams, hpb, hbr, hbs]
  refine run_caught ha hb (hapart.static_caught ⟨hno, hin, (runs_reconnect).long,
    (runs_reconnect).short⟩ ht ?_ ?_ hE)
  · rw [hkeys, hkeys']
    rfl
  · rw [hkeys, hkeys']
    intro hsame
    simp only [List.cons.injEq, and_true, true_and] at hsame
    cases hne with
    | inl h => exact h hsame.2.symm
    | inr h => exact h hsame.1

/-- Both sides finish and agree when their keys fit and nothing was changed on the way. Else
one of them checks what nobody had sealed, and goes no further if the check fails, or it
stops at a message that came in cut short. -/
theorem handshakes_agree_or_caught (device host : Side S) :
    (∀ devicePsk hostPsk network₁ network₂ network₃,
      (devicePsk = hostPsk →
        ¬Altered (pairingRun device host devicePsk hostPsk network₁ network₂ network₃) →
        ∃ f, (pairingRun device host devicePsk hostPsk network₁ network₂ network₃).result =
          some f ∧ f.Agrees device host) ∧
      (S.NoCollision
          (pairingRun device host devicePsk hostPsk network₁ network₂ network₃).events →
        devicePsk ≠ hostPsk ∨
          Altered (pairingRun device host devicePsk hostPsk network₁ network₂ network₃) →
        Caught [] (pairingRun device host devicePsk hostPsk network₁ network₂ network₃))) ∧
    (∀ devicePinned hostPinned network₁ network₂,
      (devicePinned.bytes = S.publicKey host.localStatic →
        hostPinned.bytes = S.publicKey device.localStatic →
        ¬Altered (reconnectRun device host devicePinned hostPinned network₁ network₂) →
        ∃ f, (reconnectRun device host devicePinned hostPinned network₁ network₂).result =
          some f ∧ f.Agrees device host) ∧
      (S.NoCollision
          (reconnectRun device host devicePinned hostPinned network₁ network₂).events →
        devicePinned.bytes ≠ S.publicKey host.localStatic ∨
          hostPinned.bytes ≠ S.publicKey device.localStatic ∨
          Altered (reconnectRun device host devicePinned hostPinned network₁ network₂) →
        Caught [] (reconnectRun device host devicePinned hostPinned network₁ network₂))) := by
  refine ⟨?_, ?_⟩
  · intro devicePsk hostPsk network₁ network₂ network₃
    refine ⟨?_, ?_⟩
    · rintro rfl ha
      exact pairing_agrees device host devicePsk network₁ network₂ network₃ ha
    · intro hno h
      by_cases hsame : devicePsk = hostPsk
      · subst hsame
        have ha := h.resolve_left (fun hn => hn rfl)
        exact pairing_altered_caught device host devicePsk network₁ network₂ network₃ hno ha
      · exact pairing_psk_caught device host hsame network₁ network₂ network₃ hno
  · intro devicePinned hostPinned network₁ network₂
    refine ⟨?_, ?_⟩
    · intro hd hh ha
      exact reconnect_agrees device host hd hh network₁ network₂ ha
    · intro hno h
      by_cases hd : devicePinned.bytes = S.publicKey host.localStatic
      · by_cases hh : hostPinned.bytes = S.publicKey device.localStatic
        · have ha := (h.resolve_left (fun hn => hn hd)).resolve_left (fun hn => hn hh)
          exact reconnect_altered_caught device host hd hh network₁ network₂ hno ha
        · exact reconnect_pinned_caught device host (.inr hh) network₁ network₂ hno
      · exact reconnect_pinned_caught device host (.inl hd) network₁ network₂ hno

def digest (x : Octets) : Nat := x.foldl (fun n b => (n * 257 + b.toNat + 1) % (2 ^ 61 - 1)) 7

def smallHash (x : Octets) : Octets :=
  (List.range hashLen).map fun n => UInt8.ofNat (digest x / 256 ^ n)

def smallTag (key : Octets) (nonce : Nat) (ad plaintext : Octets) : Octets :=
  (smallHash (key ++ ad ++ plaintext ++ [UInt8.ofNat nonce])).take tagLen

/-- Small enough to run, with a checksum for a hash and for a tag. -/
def smallSuite : Suite where
  PrivateKey := UInt8
  publicKey k := List.replicate dhLen k
  dh a key := key.map (· * a)
  hash := smallHash
  encrypt key nonce ad plaintext := plaintext ++ smallTag key nonce ad plaintext
  decrypt key nonce ad ciphertext :=
    let plaintext := ciphertext.take (ciphertext.length - tagLen)
    if ciphertext = plaintext ++ smallTag key nonce ad plaintext then some plaintext else none
  length_publicKey _ := List.length_replicate ..
  dh_comm a b := by rw [List.map_replicate, List.map_replicate, UInt8.mul_comm]
  length_hash x := by simp [smallHash]
  length_encrypt k n ad p := by simp [smallTag, smallHash, hashLen, tagLen]
  decrypt_encrypt k n ad p := by simp [smallTag, smallHash, hashLen, tagLen]

def hashedInputs (events : List Event) : List Octets :=
  events.filterMap fun
    | .hashed x => some x
    | _ => none

def derivedInputs (events : List Event) : List (Octets × Octets) :=
  events.filterMap fun
    | .derived ck x => some (ck, x)
    | _ => none

/-- No two inputs collide. -/
def Apart (S : Suite) (events : List Event) : Prop :=
  (∀ x ∈ hashedInputs events, ∀ y ∈ hashedInputs events, S.hash x = S.hash y → x = y) ∧
  ∀ x ∈ derivedInputs events, ∀ y ∈ derivedInputs events, x.1 = y.1 →
    (S.hkdf3 x.1 x.2).2.1 = (S.hkdf3 y.1 y.2).2.1 → x.2 = y.2

instance (S : Suite) (events : List Event) : Decidable (Apart S events) :=
  inferInstanceAs (Decidable (_ ∧ _))

theorem noCollision_of_apart {events : List Event} (h : Apart S events) :
    S.NoCollision events where
  hash x y hx hy heq :=
    h.1 x (List.mem_filterMap.mpr ⟨_, hx, rfl⟩) y (List.mem_filterMap.mpr ⟨_, hy, rfl⟩) heq
  kdf ck x y hx hy heq :=
    h.2 (ck, x) (List.mem_filterMap.mpr ⟨_, hx, rfl⟩) (ck, y)
      (List.mem_filterMap.mpr ⟨_, hy, rfl⟩) rfl heq

def carriedMessages (events : List Event) : List (Octets × Octets) :=
  events.filterMap fun
    | .carried sent received => some (sent, received)
    | _ => none

theorem altered_iff {α : Type} {x : Noted α} :
    Altered x ↔ ∃ m ∈ carriedMessages x.events, m.2 ≠ m.1 := by
  constructor
  · rintro ⟨sent, received, hc, hne⟩
    exact ⟨(sent, received), List.mem_filterMap.mpr ⟨_, hc, rfl⟩, hne⟩
  · rintro ⟨m, hm, hne⟩
    obtain ⟨e, he, heq⟩ := List.mem_filterMap.mp hm
    cases e <;> cases heq
    exact ⟨_, _, he, hne⟩

def checks (events : List Event) : List (Octets × Octets × Octets) :=
  events.filterMap fun
    | .opened key ad ciphertext _ => some (key, ad, ciphertext)
    | _ => none

def smallDevice : Side smallSuite := ⟨(3 : UInt8), (5 : UInt8)⟩

def smallHost : Side smallSuite := ⟨(7 : UInt8), (11 : UInt8)⟩

def honest : Octets → Octets := id

/-- The first message comes in cut short: nobody checks anything. -/
theorem cut_message_unchecked :
    smallSuite.NoCollision
      (pairingRun smallDevice smallHost [1] [1] (fun _ => []) honest honest).events ∧
    Altered (pairingRun smallDevice smallHost [1] [1] (fun _ => []) honest honest) ∧
    ∀ key ad c r, .opened key ad c r ∉
      (pairingRun smallDevice smallHost [1] [1] (fun _ => []) honest honest).events := by
  have hrun : Apart smallSuite
      (pairingRun smallDevice smallHost [1] [1] (fun _ => []) honest honest).events ∧
      ∃ m ∈ carriedMessages (pairingRun smallDevice smallHost [1] [1] (fun _ => []) honest
        honest).events, m.2 ≠ m.1 := by
    decide +kernel
  refine ⟨noCollision_of_apart hrun.1, (altered_iff).mpr hrun.2, ?_⟩
  · intro key ad c r hc
    have hnone : checks (pairingRun smallDevice smallHost [1] [1] (fun _ => []) honest
        honest).events = [] := by
      decide
    have hmem : (key, ad, c) ∈ checks (pairingRun smallDevice smallHost [1] [1] (fun _ => [])
        honest honest).events := List.mem_filterMap.mpr ⟨_, hc, rfl⟩
    rw [hnone] at hmem
    cases hmem

def pinned (k : UInt8) : PinnedKey := ⟨List.replicate dhLen k, List.length_replicate ..⟩

/-- Both patterns between the small sides: with keys that fit, with a message that was
replaced, and with another pinned key. -/
theorem handshakes_agree_or_caught_small :
    (∃ f, (pairingRun smallDevice smallHost [1] [1] honest honest honest).result = some f ∧
      f.Agrees smallDevice smallHost) ∧
    Caught [] (pairingRun smallDevice smallHost [1] [1] honest (fun _ => List.replicate 96 0)
      honest) ∧
    (∃ f, (reconnectRun smallDevice smallHost (pinned 7) (pinned 3) honest honest).result =
      some f ∧ f.Agrees smallDevice smallHost) ∧
    Caught [] (reconnectRun smallDevice smallHost (pinned 7) (pinned 4) honest honest) := by
  refine ⟨?_, ?_, ?_, ?_⟩
  · have hrun : ¬∃ m ∈ carriedMessages
        (pairingRun smallDevice smallHost [1] [1] honest honest honest).events, m.2 ≠ m.1 := by
      decide +kernel
    exact ((handshakes_agree_or_caught smallDevice smallHost).1 [1] [1] honest honest
      honest).1 rfl (mt (altered_iff).mp hrun)
  · have hrun : Apart smallSuite
        (pairingRun smallDevice smallHost [1] [1] honest (fun _ => List.replicate 96 0)
          honest).events ∧
        ∃ m ∈ carriedMessages (pairingRun smallDevice smallHost [1] [1] honest
          (fun _ => List.replicate 96 0) honest).events, m.2 ≠ m.1 := by
      decide +kernel
    exact ((handshakes_agree_or_caught smallDevice smallHost).1 [1] [1] honest _ honest).2
      (noCollision_of_apart hrun.1) (.inr ((altered_iff).mpr hrun.2))
  · have hrun : ¬∃ m ∈ carriedMessages
        (reconnectRun smallDevice smallHost (pinned 7) (pinned 3) honest honest).events,
          m.2 ≠ m.1 := by
      decide +kernel
    exact ((handshakes_agree_or_caught smallDevice smallHost).2 (pinned 7) (pinned 3) honest
      honest).1 rfl rfl (mt (altered_iff).mp hrun)
  · have hrun : Apart smallSuite
        (reconnectRun smallDevice smallHost (pinned 7) (pinned 4) honest honest).events := by
      decide +kernel
    exact ((handshakes_agree_or_caught smallDevice smallHost).2 (pinned 7) (pinned 4) honest
      honest).2 (noCollision_of_apart hrun) (.inr (.inl (by decide)))

end HerdrMobile.App.HandshakeRuns
