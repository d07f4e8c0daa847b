import Mathlib.Data.List.Nodup
import HerdrMobile.Frame.DartCodec
import HerdrMobile.Lib.Run

/-!
# What a Device puts on the socket of a session

`send`, `_sendOn` and `_sendFrame` of the connection with the cipher of the session, from the
moment its socket is installed. A step runs one piece of a send from one `await` to the next.
The sends of callers go through a queue; `device_info` and the closing `disconnect` do not.
-/
namespace HerdrMobile.App.SendQueue

open HerdrMobile.Lib.Run
open HerdrMobile.Frame
open HerdrMobile.Proto.Codes (Bytes)

set_option autoImplicit false

/-- What a frame holds; a message of a caller with its `corr`. -/
inductive Content (M : Type) where
  | deviceInfo
  | disconnect
  | frameTooLarge
  | message (m : M)

structure Frame (M : Type) where
  content : Content M
  seq : Nat

/-- One call of the AEAD: the nonce and the fragment it seals. -/
structure Sealed where
  nonce : Nat
  plaintext : Bytes
deriving DecidableEq

/-- The fragments that `_sendFrame` seals for a frame; none, where it is too large. `envelope` is
the JSON text of the frame, in bytes. -/
def fragmentsOf {M D : Type} (z : DartCodec.ZLib D) (envelope : Frame M → Bytes)
    (frame : Frame M) : Option (List Bytes) :=
  if DartCodec.maxUncompressedLen < (envelope frame).length then none
  else
    match DartCodec.buildRecord z (envelope frame) with
    -- The codec has the same limit, so it refuses nothing that comes here.
    | .error _ => none
    | .ok record => some (DartCodec.splitIntoFragments record)

/-- Where a send waits. -/
inductive Phase where
  | sealing (nonce : Nat) (fragment : Bytes) (rest : List Bytes)
  | sealed (rest : List Bytes)
  | refused
  | added

/-- A `_sendOn` with the `_sendFrame` that it is in. -/
structure Task (M : Type) where
  frame : Frame M
  allowClosing : Bool
  generation : Nat
  ciphertexts : List Sealed
  phase : Phase
  reply : Bool

inductive Sender where
  | info
  | queue
  | closing
deriving DecidableEq

/-- What has been sent: the counter of the cipher, `_outgoingSeq`, a record for each loop that
added the fragments of a frame to the socket, and the calls of the AEAD. -/
structure Sent (M : Type) where
  nonce : Nat := 0
  outgoingSeq : Nat := 0
  wire : List (Frame M × List Sealed) := []
  calls : List Sealed := []

/-- The connection, as a session sees it. `current` says that its socket is `_channel`. -/
structure Connection (M : Type) where
  sent : Sent M := {}
  generation : Nat := 0
  current : Bool := true
  locked : Bool := false
  disposed : Bool := false
  waiting : List M := []
  info : Option (Task M) := none
  queued : Option (Task M) := none
  closing : Option (Task M) := none

inductive Event (M : Type) where
  | send (m : M)
  | run (sender : Sender)
  | disconnect
  | background
  | lock
  | unlock
  | connect
  | ended
  | dispose

section Steps

variable {M : Type} (split : Frame M → Option (List Bytes))

/-- The binary frames on the socket. -/
def Sent.socket (c : Sent M) : List Sealed := c.wire.flatMap Prod.snd

/-- The AEAD is called for a fragment. -/
def Sent.call (c : Sent M) (fragment : Bytes) : Sent M :=
  { c with calls := c.calls ++ [⟨c.nonce, fragment⟩] }

/-- `checkSession` does not throw. -/
def Connection.passes (s : Connection M) (allowClosing : Bool) (generation : Nat) : Bool :=
  !s.disposed && !s.locked && generation = s.generation && (allowClosing || s.current)

/-- `_sendFrame` up to its first `await`. -/
def sendFrame (s : Connection M) (frame : Frame M) (allowClosing reply : Bool) :
    Option (Task M) × Sent M :=
  if s.passes allowClosing s.generation then
    match split frame with
    | none => (some ⟨frame, allowClosing, s.generation, [], .refused, reply⟩, s.sent)
    | some [] => (some ⟨frame, allowClosing, s.generation, [], .sealed [], reply⟩, s.sent)
    | some (fragment :: rest) =>
      (some ⟨frame, allowClosing, s.generation, [], .sealing s.sent.nonce fragment rest, reply⟩,
        s.sent.call fragment)
  else (none, s.sent)

def sendOn (s : Connection M) (content : Content M) (allowClosing : Bool) :
    Option (Task M) × Sent M :=
  sendFrame split s ⟨content, s.sent.outgoingSeq + 1⟩ allowClosing false

/-- A send goes on to its next `await`. -/
def advance (s : Connection M) (t : Task M) : Option (Task M) × Sent M :=
  match t.phase with
  | .sealing nonce fragment rest =>
    (some { t with ciphertexts := t.ciphertexts ++ [⟨nonce, fragment⟩], phase := .sealed rest },
      { s.sent with nonce := s.sent.nonce + 1 })
  | .sealed (fragment :: rest) =>
    (some { t with phase := .sealing s.sent.nonce fragment rest }, s.sent.call fragment)
  | .sealed [] =>
    if s.passes t.allowClosing t.generation then
      (some { t with phase := .added },
        { s.sent with wire := s.sent.wire ++ [(t.frame, t.ciphertexts)] })
    else (none, s.sent)
  | .refused =>
    -- The reply takes the number of the frame that was not sent.
    if t.reply then (none, { s.sent with outgoingSeq := t.frame.seq })
    else sendFrame split s ⟨.frameTooLarge, t.frame.seq⟩ t.allowClosing true
  | .added => (none, { s.sent with outgoingSeq := t.frame.seq })

/-- `_closeCurrentSocket` with a `disconnect` frame, after `_interruptPendingConnection`. -/
def closeWithFrame (s : Connection M) : Connection M :=
  let s := { s with generation := s.generation + 1 }
  if s.current then
    let s := { s with current := false }
    let (task, sent) := sendOn split s .disconnect true
    { s with closing := task, sent := sent }
  else s

/-- The connection right after the socket is installed, with `device_info` under way. -/
def start : Connection M :=
  let (task, sent) := sendOn split {} .deviceInfo false
  { info := task, sent := sent }

def step (s : Connection M) : Event M → Option (Connection M)
  | .send m =>
    some (if s.current && !s.locked then { s with waiting := s.waiting ++ [m] } else s)
  | .run .info =>
    match s.info with
    | none => none
    | some t =>
      let (task, sent) := advance split s t
      some { s with info := task, sent := sent }
  | .run .queue =>
    match s.queued, s.waiting with
    | some t, _ =>
      let (task, sent) := advance split s t
      some { s with queued := task, sent := sent }
    | none, m :: rest =>
      let (task, sent) := sendOn split s (.message m) false
      some { s with queued := task, waiting := rest, sent := sent }
    | none, [] => none
  | .run .closing =>
    match s.closing with
    | none => none
    | some t =>
      let (task, sent) := advance split s t
      some { s with closing := task, sent := sent }
  | .disconnect => some (closeWithFrame split s)
  | .background => some (closeWithFrame split s)
  | .lock => some { s with locked := true, generation := s.generation + 1, current := false }
  | .unlock => some { s with locked := false }
  | .connect => some { s with generation := s.generation + 1, current := false }
  | .ended => some { s with current := false }
  | .dispose =>
    some { s with disposed := true, generation := s.generation + 1, current := false }

/-- The frames on the socket are sealed under one nonce after the other, no fragment of another
frame stands between those of a frame, `device_info` is first, and the numbers go up by one. No
nonce is used a second time, for a frame that is sent or not. -/
structure Orderly (c : Sent M) : Prop where
  nonces : c.socket.map Sealed.nonce = List.range c.socket.length
  whole : ∀ record ∈ c.wire, split record.1 = some (record.2.map Sealed.plaintext)
  first : ∀ record ∈ c.wire.head?, record.1.content = .deviceInfo
  numbered : c.wire.map (·.1.seq) = List.range' 1 c.wire.length
  once : (c.calls.map Sealed.nonce).Nodup

/-- What the Host decrypts, which counts the nonces itself. -/
def decryptAll : Nat → List Sealed → Option (List Bytes)
  | _, [] => some []
  | n, c :: rest =>
    if c.nonce = n then (decryptAll (n + 1) rest).map (c.plaintext :: ·) else none

/-- A send that has not been refused and is not over. -/
def Busy (t : Task M) : Bool :=
  match t.phase with
  | .refused => false
  | _ => true

/-- What the send that an event begins is to put on the socket. -/
def begins (s : Connection M) : Event M → Option (Content M)
  | .run .queue =>
    match s.queued, s.waiting with
    | none, m :: _ => if s.current then some (.message m) else none
    | _, _ => none
  | .disconnect => if s.current then some .disconnect else none
  | .background => if s.current then some .disconnect else none
  | _ => none

/-- No send begins while another one is under way. -/
def clear (s : Connection M) (e : Event M) : Bool :=
  (begins s e).isNone || s.info.isNone && s.queued.all fun t => !Busy t

/-- The AEAD works on a fragment of `device_info` or of a send of the queue. -/
def Sealing (s : Connection M) : Prop :=
  ∃ t nonce fragment rest, (s.info = some t ∨ s.queued = some t) ∧
    t.phase = .sealing nonce fragment rest

/-- As many nonces as frames on the socket, and as many numbers as records. -/
structure Rest (c : Sent M) : Prop where
  nonce : c.nonce = c.socket.length
  seq : c.outgoingSeq = c.wire.length

/-- The fragments that are sealed come next on the socket, and `rest` is still to be sealed. -/
structure Ready (c : Sent M) (t : Task M) (rest : List Bytes) : Prop where
  nonces : t.ciphertexts.map Sealed.nonce = List.range' c.socket.length t.ciphertexts.length
  reached : c.socket.length + t.ciphertexts.length = c.nonce
  split : split t.frame = some (t.ciphertexts.map Sealed.plaintext ++ rest)
  seq : t.frame.seq = c.wire.length + 1
  last : c.outgoingSeq = c.wire.length
  first : c.wire = [] → t.frame.content = .deviceInfo

/-- What is known of a send in each of its phases. -/
def Held (c : Sent M) (current : Bool) (t : Task M) : Prop :=
  match t.phase with
  | .sealing nonce fragment rest =>
    nonce = c.nonce ∧ c.calls.length = c.nonce + 1 ∧ Ready split c t (fragment :: rest)
  | .sealed rest => c.calls.length = c.nonce ∧ Ready split c t rest
  | .refused =>
    t.reply = false ∧ ((t.allowClosing || current) = true →
      c.calls.length = c.nonce ∧ Rest c ∧ t.frame.seq = c.wire.length + 1 ∧ c.wire ≠ [])
  | .added =>
    c.calls.length = c.nonce ∧ c.nonce = c.socket.length ∧ t.frame.seq = c.wire.length ∧
      c.wire ≠ []

/-- The law, with all calls of the AEAD counted. -/
structure Good (c : Sent M) : Prop extends Orderly split c where
  counted : c.calls.map Sealed.nonce = List.range c.calls.length

variable {split} {s : Connection M} {c : Sent M} {t : Task M} {rest : List Bytes}

theorem Held.drop {current : Bool} (h : Held split c current t) : Held split c false t := by
  unfold Held at h ⊢
  cases hphase : t.phase with
  | refused =>
    rw [hphase] at h
    refine ⟨h.1, fun hclosing => h.2 ?_⟩
    rw [Bool.or_false] at hclosing
    rw [hclosing, Bool.true_or]
  | sealing nonce fragment rest =>
    rw [hphase] at h
    exact h
  | sealed rest =>
    rw [hphase] at h
    exact h
  | added =>
    rw [hphase] at h
    exact h

/-- A send that waits for its refusal finds the session over, whatever was sent. -/
theorem Held.waits {current : Bool} (h : Held split c current t) (hidle : Busy t = false)
    (hno : t.allowClosing = false) (c' : Sent M) : Held split c' false t := by
  unfold Held at h ⊢
  unfold Busy at hidle
  cases hphase : t.phase with
  | refused =>
    rw [hphase] at h
    refine ⟨h.1, fun hgoes => ?_⟩
    rw [hno] at hgoes
    cases hgoes
  | sealing nonce fragment rest =>
    rw [hphase] at hidle
    cases hidle
  | sealed rest =>
    rw [hphase] at hidle
    cases hidle
  | added =>
    rw [hphase] at hidle
    cases hidle

theorem Good.call (h : Good split c) (hlen : c.calls.length = c.nonce) (fragment : Bytes) :
    Good split (c.call fragment) := by
  have hcounted : (c.call fragment).calls.map Sealed.nonce =
      List.range (c.call fragment).calls.length := by
    rw [Sent.call, List.map_append, h.counted, List.length_append, List.length_singleton,
      List.range_succ, ← hlen]
    rfl
  refine ⟨⟨h.nonces, h.whole, h.first, h.numbered, ?_⟩, hcounted⟩
  rw [hcounted]
  exact List.nodup_range

theorem Good.tick (h : Good split c) (n : Nat) : Good split { c with nonce := n } :=
  ⟨⟨h.nonces, h.whole, h.first, h.numbered, h.once⟩, h.counted⟩

theorem Good.number (h : Good split c) (n : Nat) : Good split { c with outgoingSeq := n } :=
  ⟨⟨h.nonces, h.whole, h.first, h.numbered, h.once⟩, h.counted⟩

theorem socket_add (c : Sent M) (frame : Frame M) (ciphertexts : List Sealed) :
    ({ c with wire := c.wire ++ [(frame, ciphertexts)] } : Sent M).socket =
      c.socket ++ ciphertexts := by
  simp [Sent.socket]

/-- A record that is ready goes on the socket. -/
theorem Good.add (h : Good split c) (hready : Ready split c t []) :
    Good split { c with wire := c.wire ++ [(t.frame, t.ciphertexts)] } := by
  refine ⟨⟨?_, ?_, ?_, ?_, h.once⟩, h.counted⟩
  · rw [socket_add, List.map_append, h.nonces, hready.nonces, List.length_append,
      List.range_eq_range', List.range_eq_range']
    have happend := @List.range'_append_1 0 c.socket.length t.ciphertexts.length
    rwa [Nat.zero_add] at happend
  · intro record hmem
    rcases List.mem_append.mp hmem with hmem | hmem
    · exact h.whole record hmem
    · rw [List.mem_singleton.mp hmem]
      simpa using hready.split
  · intro record hmem
    cases hwire : c.wire with
    | nil =>
      rw [hwire] at hmem
      cases hmem
      exact hready.first hwire
    | cons head tail =>
      rw [hwire] at hmem
      apply h.first record
      rw [hwire]
      exact hmem
  · simp only [List.map_append, h.numbered, List.length_append, List.length_singleton,
      List.map_cons, List.map_nil, hready.seq]
    rw [List.range'_concat, Nat.one_mul, Nat.add_comm]

/-- A fragment is sealed. -/
theorem Ready.next {fragment : Bytes} (h : Ready split c t (fragment :: rest)) (phase : Phase) :
    Ready split { c with nonce := c.nonce + 1 }
      { t with ciphertexts := t.ciphertexts ++ [⟨c.nonce, fragment⟩], phase := phase } rest := by
  have hnonces : (t.ciphertexts ++ [Sealed.mk c.nonce fragment]).map Sealed.nonce =
      List.range' c.socket.length (t.ciphertexts ++ [Sealed.mk c.nonce fragment]).length := by
    rw [List.map_append, h.nonces, List.length_append, List.length_singleton, List.range'_concat,
      Nat.one_mul, h.reached]
    rfl
  refine ⟨hnonces, ?_, ?_, h.seq, h.last, h.first⟩
  · rw [List.length_append, List.length_singleton, ← Nat.add_assoc]
    exact congrArg (· + 1) h.reached
  · rw [h.split, List.map_append, List.append_assoc]
    rfl

/-- A `_sendFrame` that begins where nothing else is under way. -/
theorem sendFrame_cases {frame : Frame M} {allowClosing reply : Bool} (hgood : Good split s.sent)
    (hat : s.passes allowClosing s.generation = true →
      s.sent.calls.length = s.sent.nonce ∧ Rest s.sent ∧ frame.seq = s.sent.wire.length + 1 ∧
        (s.sent.wire = [] → frame.content = .deviceInfo)) :
    (sendFrame split s frame allowClosing reply = (none, s.sent) ∧
        s.passes allowClosing s.generation = false) ∨
      (s.passes allowClosing s.generation = true ∧ split frame = none ∧
        sendFrame split s frame allowClosing reply =
          (some ⟨frame, allowClosing, s.generation, [], .refused, reply⟩, s.sent)) ∨
      s.passes allowClosing s.generation = true ∧
        ∃ t c, sendFrame split s frame allowClosing reply = (some t, c) ∧ Good split c ∧
          c.wire = s.sent.wire ∧ Busy t = true ∧ t.allowClosing = allowClosing ∧
          t.generation = s.generation ∧ ∀ current, Held split c current t := by
  rw [sendFrame]
  cases hpasses : s.passes allowClosing s.generation with
  | false => exact .inl ⟨rfl, rfl⟩
  | true =>
    obtain ⟨hcalls, hrest, hseq, hfirst⟩ := hat hpasses
    rw [if_pos rfl]
    right
    cases hsplit : split frame with
    | none => exact .inl ⟨rfl, rfl, rfl⟩
    | some pieces =>
      right
      refine ⟨rfl, ?_⟩
      cases pieces with
      | nil =>
        refine ⟨_, _, rfl, hgood, rfl, rfl, rfl, rfl, fun _ => ⟨hcalls, ?_⟩⟩
        exact ⟨rfl, hrest.nonce.symm, hsplit, hseq, hrest.seq, hfirst⟩
      | cons fragment rest =>
        refine ⟨_, _, rfl, hgood.call hcalls fragment, rfl, rfl, rfl, rfl, fun _ => ⟨rfl, ?_, ?_⟩⟩
        · rw [Sent.call, List.length_append, hcalls]
          rfl
        · exact ⟨rfl, hrest.nonce.symm, hsplit, hseq, hrest.seq, hfirst⟩

/-- What a step of a send comes to: it goes on, it ends with its number taken, or it ends because
the session is over. -/
inductive Outcome (split : Frame M → Option (List Bytes)) (s : Connection M) (t : Task M) :
    Option (Task M) → Sent M → Prop
  | more (u : Task M) (c : Sent M) (good : Good split c)
      (held : ∀ current, Held split c current u) (busy : Busy u = true)
      (closing : u.allowClosing = t.allowClosing) (grown : s.sent.wire ≠ [] → c.wire ≠ [])
      (generation : Busy t = true ∧ u.generation = t.generation ∨
        Busy t = false ∧ s.passes t.allowClosing s.generation = true ∧
          u.generation = s.generation) :
      Outcome split s t (some u) c
  | done (c : Sent M) (busy : Busy t = true) (good : Good split c)
      (calls : c.calls.length = c.nonce) (rest : Rest c) (wire : c.wire ≠ []) :
      Outcome split s t none c
  | ended (calls : Busy t = true ∨ (t.allowClosing || s.current) = true →
        s.sent.calls.length = s.sent.nonce)
      (fails : s.passes t.allowClosing (if Busy t then t.generation else s.generation) = false) :
      Outcome split s t none s.sent

theorem passes_current {allowClosing : Bool} {generation : Nat}
    (h : s.passes allowClosing generation = true) : (allowClosing || s.current) = true := by
  rw [Connection.passes, Bool.and_eq_true] at h
  exact h.2

theorem advance_sealing {nonce : Nat} {fragment : Bytes} (hgood : Good split s.sent)
    (hphase : t.phase = .sealing nonce fragment rest) (hheld : Held split s.sent s.current t) :
    Outcome split s t (advance split s t).1 (advance split s t).2 := by
  rw [Held, hphase] at hheld
  obtain ⟨rfl, hcalls, hready⟩ := hheld
  have hbusy : Busy t = true := by rw [Busy, hphase]
  have heq : advance split s t =
      (some { t with ciphertexts := t.ciphertexts ++ [⟨s.sent.nonce, fragment⟩],
                     phase := .sealed rest },
        { s.sent with nonce := s.sent.nonce + 1 }) := by
    unfold advance
    rw [hphase]
  rw [heq]
  exact .more _ _ (hgood.tick _) (fun _ => ⟨hcalls, hready.next _⟩) rfl rfl id (.inl ⟨hbusy, rfl⟩)

theorem advance_sealed (hgood : Good split s.sent) (hphase : t.phase = .sealed rest)
    (hheld : Held split s.sent s.current t) :
    Outcome split s t (advance split s t).1 (advance split s t).2 := by
  rw [Held, hphase] at hheld
  obtain ⟨hcalls, hready⟩ := hheld
  have hbusy : Busy t = true := by rw [Busy, hphase]
  cases rest with
  | cons fragment rest =>
    have heq : advance split s t =
        (some { t with phase := .sealing s.sent.nonce fragment rest }, s.sent.call fragment) := by
      unfold advance
      rw [hphase]
    rw [heq]
    refine .more _ _ (hgood.call hcalls fragment) (fun _ => ⟨rfl, ?_, ?_⟩) rfl rfl id
      (.inl ⟨hbusy, rfl⟩)
    · rw [Sent.call, List.length_append, hcalls]
      rfl
    · exact ⟨hready.nonces, hready.reached, hready.split, hready.seq, hready.last, hready.first⟩
  | nil =>
    have heq : advance split s t =
        if s.passes t.allowClosing t.generation then
          (some { t with phase := .added },
            { s.sent with wire := s.sent.wire ++ [(t.frame, t.ciphertexts)] })
        else (none, s.sent) := by
      unfold advance
      rw [hphase]
    rw [heq]
    cases hpasses : s.passes t.allowClosing t.generation with
    | true =>
      have hwire : s.sent.wire ++ [(t.frame, t.ciphertexts)] ≠ [] :=
        List.append_ne_nil_of_right_ne_nil _ (List.cons_ne_nil _ _)
      rw [if_pos rfl]
      refine .more _ _ (hgood.add hready) (fun _ => ⟨hcalls, ?_, ?_, hwire⟩) rfl rfl
        (fun _ => hwire) (.inl ⟨hbusy, rfl⟩)
      · rw [socket_add, List.length_append]
        exact hready.reached.symm
      · rw [List.length_append]
        exact hready.seq
    | false =>
      rw [if_neg Bool.false_ne_true]
      exact .ended (fun _ => hcalls) (by rw [if_pos hbusy, hpasses])

/-- The reply takes the place of a frame that was refused. -/
theorem advance_refused (hreply : ∀ seq, (split ⟨.frameTooLarge, seq⟩).isSome = true)
    (hgood : Good split s.sent) (hphase : t.phase = .refused)
    (hheld : Held split s.sent s.current t) :
    Outcome split s t (advance split s t).1 (advance split s t).2 := by
  rw [Held, hphase] at hheld
  obtain ⟨hno, hat⟩ := hheld
  have hbusy : Busy t = false := by rw [Busy, hphase]
  have hcases := @sendFrame_cases _ split s ⟨.frameTooLarge, t.frame.seq⟩ t.allowClosing true hgood
    fun hpasses => by
      obtain ⟨hcalls, hrest, hseq, hwire⟩ := hat (passes_current hpasses)
      exact ⟨hcalls, hrest, hseq, fun hnil => absurd hnil hwire⟩
  unfold advance
  rw [hphase]
  simp only [hno, Bool.false_eq_true, if_false]
  obtain ⟨heq, hfails⟩ | ⟨-, hnone, -⟩ | ⟨hpasses, u, c, heq, hg, hwire, hb, hclosing, hgen, hh⟩ :=
    hcases
  · rw [heq]
    refine .ended (fun h => ?_) ?_
    · rw [hbusy] at h
      exact (hat (h.resolve_left Bool.false_ne_true)).1
    · rw [hbusy]
      exact hfails
  · have hsome := hreply t.frame.seq
    rw [hnone] at hsome
    cases hsome
  · rw [heq]
    refine .more u c hg hh hb hclosing (fun h => ?_) (.inr ⟨hbusy, hpasses, hgen⟩)
    rw [hwire]
    exact h

theorem advance_cases (hreply : ∀ seq, (split ⟨.frameTooLarge, seq⟩).isSome = true)
    (hgood : Good split s.sent) (hheld : Held split s.sent s.current t) :
    Outcome split s t (advance split s t).1 (advance split s t).2 := by
  cases hphase : t.phase with
  | sealing nonce fragment rest => exact advance_sealing hgood hphase hheld
  | sealed rest => exact advance_sealed hgood hphase hheld
  | refused => exact advance_refused hreply hgood hphase hheld
  | added =>
    rw [Held, hphase] at hheld
    obtain ⟨hcalls, hnonce, hseq, hwire⟩ := hheld
    have hbusy : Busy t = true := by rw [Busy, hphase]
    unfold advance
    rw [hphase]
    exact .done _ hbusy (hgood.number _) hcalls ⟨hnonce, hseq⟩ hwire

theorem absent {o : Option (Task M)} {P : Task M → Prop} (h : o = none) : ∀ t ∈ o, P t := by
  intro t ht
  rw [h] at ht
  cases ht

/-- At most one send is under way, and where there is none, as many nonces are taken as frames
are on the socket. -/
structure Inv (split : Frame M → Option (List Bytes)) (s : Connection M) : Prop where
  good : Good split s.sent
  info : ∀ t ∈ s.info, Held split s.sent s.current t ∧ Busy t = true ∧ t.allowClosing = false ∧
    s.queued = none ∧ s.closing = none
  queued : ∀ t ∈ s.queued, Held split s.sent s.current t ∧ t.allowClosing = false
  closing : ∀ t ∈ s.closing, Held split s.sent s.current t ∧ t.allowClosing = true ∧
    s.current = false ∧ ∀ u ∈ s.queued, Busy u = false
  idle : s.info = none → (∀ t ∈ s.queued, Busy t = false) → s.closing = none →
    s.sent.calls.length = s.sent.nonce ∧ (s.current = true → Rest s.sent)
  live : s.current = true → s.locked = false ∧ s.disposed = false
  now : s.current = true → (∀ t ∈ s.info, t.generation = s.generation) ∧
    ∀ t ∈ s.queued, Busy t = true → t.generation = s.generation
  opened : s.current = true → s.info = none → s.sent.wire ≠ []

theorem Inv.drop (h : Inv split s) (generation : Nat) (locked disposed : Bool) :
    Inv split { s with generation := generation, current := false, locked := locked,
                       disposed := disposed } := by
  refine ⟨h.good, ?info, ?queued, ?closing, ?idle, ?live, ?now, ?opened⟩
  case info =>
    intro t ht
    obtain ⟨hheld, hrest⟩ := h.info t ht
    exact ⟨hheld.drop, hrest⟩
  case queued =>
    intro t ht
    obtain ⟨hheld, hno⟩ := h.queued t ht
    exact ⟨hheld.drop, hno⟩
  case closing =>
    intro t ht
    obtain ⟨hheld, hallow, -, hqueued⟩ := h.closing t ht
    exact ⟨hheld.drop, hallow, rfl, hqueued⟩
  case idle =>
    intro hinfo hqueued hclosing
    exact ⟨(h.idle hinfo hqueued hclosing).1, fun hcurrent => absurd hcurrent Bool.false_ne_true⟩
  case live => exact fun hcurrent => absurd hcurrent Bool.false_ne_true
  case now => exact fun hcurrent => absurd hcurrent Bool.false_ne_true
  case opened => exact fun hcurrent => absurd hcurrent Bool.false_ne_true

theorem Inv.wait (h : Inv split s) (waiting : List M) :
    Inv split { s with waiting := waiting } :=
  ⟨h.good, h.info, h.queued, h.closing, h.idle, h.live, h.now, h.opened⟩

theorem Inv.unlock (h : Inv split s) : Inv split { s with locked := false } :=
  ⟨h.good, h.info, h.queued, h.closing, h.idle, fun hcurrent => ⟨rfl, (h.live hcurrent).2⟩, h.now,
    h.opened⟩

theorem Inv.passes (h : Inv split s) (hcurrent : s.current = true) (allowClosing : Bool) :
    s.passes allowClosing s.generation = true := by
  obtain ⟨hlocked, hdisposed⟩ := h.live hcurrent
  simp [Connection.passes, hlocked, hdisposed, hcurrent]

theorem Inv.info_step (hreply : ∀ seq, (split ⟨.frameTooLarge, seq⟩).isSome = true)
    (h : Inv split s) (ht : s.info = some t) :
    Inv split { s with info := (advance split s t).1, sent := (advance split s t).2 } := by
  obtain ⟨hheld, hbusy, hno, hqueued, hclosing⟩ := h.info t ht
  have hcases := advance_cases hreply h.good hheld
  generalize (advance split s t).1 = task at hcases
  generalize (advance split s t).2 = sent at hcases
  cases hcases with
  | more u c good held busy allow grown generation =>
    have hu : ∀ v ∈ some u, v = u := fun v hv => (Option.some.inj hv).symm
    refine ⟨good, ?_, ?_, ?_, ?_, h.live, ?_, ?_⟩
    · intro v hv
      rw [hu v hv]
      exact ⟨held _, busy, allow.trans hno, hqueued, hclosing⟩
    · exact absent hqueued
    · exact absent hclosing
    · intro hnone
      cases hnone
    · intro hcurrent
      refine ⟨?_, ?_⟩
      · intro v hv
        rw [hu v hv]
        obtain ⟨-, hgen⟩ | ⟨hidle, -⟩ := generation
        · exact hgen.trans ((h.now hcurrent).1 t ht)
        · rw [hbusy] at hidle
          cases hidle
      · exact absent hqueued
    · intro _ hnone
      cases hnone
  | done c busy good calls rest wire =>
    refine ⟨good, ?_, ?_, ?_, ?_, h.live, ?_, ?_⟩
    · intro v hv
      cases hv
    · exact absent hqueued
    · exact absent hclosing
    · exact fun _ _ _ => ⟨calls, fun _ => rest⟩
    · intro hcurrent
      refine ⟨?_, (h.now hcurrent).2⟩
      intro v hv
      cases hv
    · exact fun _ _ => wire
  | ended calls fails =>
    have hgone : s.current = false := by
      refine Bool.eq_false_iff.mpr fun hcurrent => ?_
      rw [if_pos hbusy, (h.now hcurrent).1 t ht, h.passes hcurrent] at fails
      cases fails
    refine ⟨h.good, ?_, h.queued, h.closing, ?_, h.live, ?_, ?_⟩
    · intro v hv
      cases hv
    · intro _ _ _
      refine ⟨calls (.inl hbusy), fun hcurrent => ?_⟩
      rw [hgone] at hcurrent
      cases hcurrent
    · intro hcurrent
      rw [hgone] at hcurrent
      cases hcurrent
    · intro hcurrent
      rw [hgone] at hcurrent
      cases hcurrent

theorem Inv.queue_step (hreply : ∀ seq, (split ⟨.frameTooLarge, seq⟩).isSome = true)
    (h : Inv split s) (ht : s.queued = some t) :
    Inv split { s with queued := (advance split s t).1, sent := (advance split s t).2 } := by
  obtain ⟨hheld, hno⟩ := h.queued t ht
  have hinfo : s.info = none := by
    refine Option.eq_none_iff_forall_not_mem.mpr fun u hu => ?_
    have hnone := (h.info u hu).2.2.2.1
    rw [ht] at hnone
    cases hnone
  -- A `disconnect` on its way leaves the queue nothing to go on with.
  have hclosing : Busy t = true ∨ s.current = true → s.closing = none := by
    intro hgoes
    refine Option.eq_none_iff_forall_not_mem.mpr fun v hv => ?_
    obtain ⟨-, -, hgone, hidle⟩ := h.closing v hv
    rw [hidle t ht, hgone] at hgoes
    exact hgoes.elim Bool.false_ne_true Bool.false_ne_true
  have hcases := advance_cases hreply h.good hheld
  generalize (advance split s t).1 = task at hcases
  generalize (advance split s t).2 = sent at hcases
  cases hcases with
  | more u c good held busy allow grown generation =>
    have hu : ∀ v ∈ some u, v = u := fun v hv => (Option.some.inj hv).symm
    have hnone : s.closing = none := by
      apply hclosing
      obtain ⟨hbusy, -⟩ | ⟨-, hpasses, -⟩ := generation
      · exact .inl hbusy
      · have hcurrent := passes_current hpasses
        rw [hno] at hcurrent
        exact .inr hcurrent
    refine ⟨good, ?_, ?_, ?_, ?_, h.live, ?_, ?_⟩
    · exact absent hinfo
    · intro v hv
      rw [hu v hv]
      exact ⟨held _, allow.trans hno⟩
    · exact absent hnone
    · intro _ hidle _
      rw [hidle u rfl] at busy
      cases busy
    · intro hcurrent
      refine ⟨(h.now hcurrent).1, ?_⟩
      intro v hv _
      rw [hu v hv]
      obtain ⟨hbusy, hgen⟩ | ⟨-, -, hgen⟩ := generation
      · exact hgen.trans ((h.now hcurrent).2 t ht hbusy)
      · exact hgen
    · exact fun hcurrent _ => grown (h.opened hcurrent hinfo)
  | done c busy good calls rest wire =>
    refine ⟨good, ?_, ?_, ?_, ?_, h.live, ?_, ?_⟩
    · exact absent hinfo
    · intro v hv
      cases hv
    · intro v hv
      rw [hclosing (.inl busy)] at hv
      cases hv
    · exact fun _ _ _ => ⟨calls, fun _ => rest⟩
    · intro hcurrent
      refine ⟨(h.now hcurrent).1, ?_⟩
      intro v hv
      cases hv
    · exact fun _ _ => wire
  | ended calls fails =>
    have hgone : s.current = false := by
      refine Bool.eq_false_iff.mpr fun hcurrent => ?_
      cases hbusy : Busy t with
      | true =>
        rw [if_pos hbusy, (h.now hcurrent).2 t ht hbusy, h.passes hcurrent] at fails
        cases fails
      | false =>
        rw [hbusy, if_neg Bool.false_ne_true, h.passes hcurrent] at fails
        cases fails
    refine ⟨h.good, ?_, ?_, ?_, ?_, h.live, ?_, ?_⟩
    · exact absent hinfo
    · intro v hv
      cases hv
    · intro v hv
      obtain ⟨hheldv, hallow, -, -⟩ := h.closing v hv
      refine ⟨hheldv, hallow, hgone, ?_⟩
      intro u hu
      cases hu
    · intro _ _ hclosing
      refine ⟨?_, fun hcurrent => ?_⟩
      · cases hbusy : Busy t with
        | true => exact calls (.inl hbusy)
        | false =>
          refine (h.idle hinfo ?_ hclosing).1
          intro u hu
          rw [ht] at hu
          rw [← Option.some.inj hu, hbusy]
      · rw [hgone] at hcurrent
        cases hcurrent
    · intro hcurrent
      rw [hgone] at hcurrent
      cases hcurrent
    · intro hcurrent
      rw [hgone] at hcurrent
      cases hcurrent

theorem Inv.closing_step (hreply : ∀ seq, (split ⟨.frameTooLarge, seq⟩).isSome = true)
    (h : Inv split s) (ht : s.closing = some t) :
    Inv split { s with closing := (advance split s t).1, sent := (advance split s t).2 } := by
  obtain ⟨hheld, hallow, hgone, hqueued⟩ := h.closing t ht
  have hinfo : s.info = none := by
    refine Option.eq_none_iff_forall_not_mem.mpr fun u hu => ?_
    have hnone := (h.info u hu).2.2.2.2
    rw [ht] at hnone
    cases hnone
  have hno : ¬s.current = true := by
    rw [hgone]
    exact Bool.false_ne_true
  have hrefused : ∀ c : Sent M, ∀ u ∈ s.queued,
      Held split c s.current u ∧ u.allowClosing = false := by
    intro c u hu
    obtain ⟨hheldu, hnot⟩ := h.queued u hu
    rw [hgone]
    exact ⟨hheldu.waits (hqueued u hu) hnot c, hnot⟩
  have hcases := advance_cases hreply h.good hheld
  generalize (advance split s t).1 = task at hcases
  generalize (advance split s t).2 = sent at hcases
  cases hcases with
  | more u c good held busy allow grown generation =>
    refine ⟨good, ?_, hrefused sent, ?_, ?_, h.live, h.now, fun hcurrent => absurd hcurrent hno⟩
    · exact absent hinfo
    · intro v hv
      rw [← Option.some.inj hv]
      exact ⟨held _, allow.trans hallow, hgone, hqueued⟩
    · intro _ _ hnone
      cases hnone
  | done c busy good calls rest wire =>
    refine ⟨good, ?_, hrefused sent, ?_, ?_, h.live, h.now, fun hcurrent => absurd hcurrent hno⟩
    · exact absent hinfo
    · intro v hv
      cases hv
    · exact fun _ _ _ => ⟨calls, fun _ => rest⟩
  | ended calls fails =>
    refine ⟨h.good, ?_, hrefused _, ?_, ?_, h.live, h.now, fun hcurrent => absurd hcurrent hno⟩
    · exact absent hinfo
    · intro v hv
      cases hv
    · intro _ _ _
      refine ⟨calls (.inr ?_), fun hcurrent => absurd hcurrent hno⟩
      rw [hallow, Bool.true_or]

/-- A send that begins while no other is under way. -/
theorem Inv.sends {content : Content M} {allowClosing : Bool} (h : Inv split s)
    (hcan : s.passes allowClosing s.generation = true → s.sent.calls.length = s.sent.nonce ∧
      Rest s.sent ∧ s.sent.wire ≠ []) :
    sendOn split s content allowClosing = (none, s.sent) ∧
        s.passes allowClosing s.generation = false ∨
      ∃ t c, sendOn split s content allowClosing = (some t, c) ∧ Good split c ∧
        c.wire = s.sent.wire ∧ (∀ current, Held split c current t) ∧
        t.allowClosing = allowClosing ∧ t.generation = s.generation ∧
        s.passes allowClosing s.generation = true ∧ (Busy t = false → c = s.sent) := by
  have hseq : s.passes allowClosing s.generation = true →
      s.sent.outgoingSeq + 1 = s.sent.wire.length + 1 :=
    fun hpasses => congrArg (· + 1) (hcan hpasses).2.1.seq
  have hcases := @sendFrame_cases _ split s ⟨content, s.sent.outgoingSeq + 1⟩ allowClosing false
    h.good fun hpasses => by
      obtain ⟨hcalls, hrest, hwire⟩ := hcan hpasses
      exact ⟨hcalls, hrest, hseq hpasses, fun hnil => absurd hnil hwire⟩
  obtain hno | ⟨hpasses, -, heq⟩ | ⟨hpasses, t, c, heq, hg, hwire, hbusy, hallow, hgen, hheld⟩ :=
    hcases
  · exact .inl hno
  · obtain ⟨hcalls, hrest, hwire⟩ := hcan hpasses
    refine .inr ⟨_, _, heq, h.good, rfl, fun _ => ⟨rfl, fun _ => ?_⟩, rfl, rfl, hpasses,
      fun _ => rfl⟩
    exact ⟨hcalls, hrest, hseq hpasses, hwire⟩
  · refine .inr ⟨t, c, heq, hg, hwire, hheld, hallow, hgen, hpasses, fun hidle => ?_⟩
    rw [hbusy] at hidle
    cases hidle

theorem Inv.queue_begins {m : M} (h : Inv split s) (hqueued : s.queued = none)
    (hclear : s.current = true → s.info = none) :
    Inv split { s with queued := (sendOn split s (.message m) false).1,
                       sent := (sendOn split s (.message m) false).2 } := by
  have hclosing : s.current = true → s.closing = none := by
    intro hcurrent
    refine Option.eq_none_iff_forall_not_mem.mpr fun v hv => ?_
    have hgone := (h.closing v hv).2.2.1
    rw [hcurrent] at hgone
    cases hgone
  have hidle : ∀ t ∈ s.queued, Busy t = false := by
    intro t ht
    rw [hqueued] at ht
    cases ht
  have hcan : s.passes false s.generation = true → s.sent.calls.length = s.sent.nonce ∧
      Rest s.sent ∧ s.sent.wire ≠ [] := by
    intro hpasses
    have hcurrent : s.current = true := passes_current hpasses
    obtain ⟨hcalls, hrest⟩ := h.idle (hclear hcurrent) hidle (hclosing hcurrent)
    exact ⟨hcalls, hrest hcurrent, h.opened hcurrent (hclear hcurrent)⟩
  obtain ⟨heq, -⟩ | ⟨t, c, heq, hgood, hwire, hheld, hallow, hgen, hpasses, hsame⟩ :=
    @Inv.sends _ _ _ (.message m) _ h hcan
  · rw [heq, ← hqueued]
    exact h
  · have hcurrent : s.current = true := passes_current hpasses
    have ht : ∀ v ∈ some t, v = t := fun v hv => (Option.some.inj hv).symm
    rw [heq]
    refine ⟨hgood, ?_, ?_, ?_, ?_, h.live, ?_, ?_⟩
    · intro v hv
      rw [hclear hcurrent] at hv
      cases hv
    · intro v hv
      rw [ht v hv]
      exact ⟨hheld _, hallow⟩
    · intro v hv
      rw [hclosing hcurrent] at hv
      cases hv
    · intro _ hrefused _
      rw [hsame (hrefused t rfl)]
      obtain ⟨hcalls, hrest, -⟩ := hcan hpasses
      exact ⟨hcalls, fun _ => hrest⟩
    · intro _
      refine ⟨(h.now hcurrent).1, ?_⟩
      intro v hv _
      rw [ht v hv]
      exact hgen
    · intro _ _
      rw [hwire]
      exact h.opened hcurrent (hclear hcurrent)

theorem Inv.close (h : Inv split s)
    (hclear : s.current = true → s.info = none ∧ ∀ t ∈ s.queued, Busy t = false) :
    Inv split (closeWithFrame split s) := by
  unfold closeWithFrame
  cases hcurrent : s.current with
  | false =>
    have hdrop := h.drop (s.generation + 1) s.locked s.disposed
    simp only [Bool.false_eq_true, if_false]
    exact hdrop
  | true =>
    obtain ⟨hinfo, hidle⟩ := hclear hcurrent
    have hdrop := h.drop (s.generation + 1) s.locked s.disposed
    have hclosing : s.closing = none := by
      refine Option.eq_none_iff_forall_not_mem.mpr fun v hv => ?_
      have hgone := (h.closing v hv).2.2.1
      rw [hcurrent] at hgone
      cases hgone
    have hcan : s.sent.calls.length = s.sent.nonce ∧ Rest s.sent ∧ s.sent.wire ≠ [] := by
      obtain ⟨hcalls, hrest⟩ := h.idle hinfo hidle hclosing
      exact ⟨hcalls, hrest hcurrent, h.opened hcurrent hinfo⟩
    simp only [if_true]
    obtain ⟨heq, -⟩ | ⟨t, c, heq, hgood, hwire, hheld, hallow, hgen, hpasses, hsame⟩ :=
      @Inv.sends _ _ _ .disconnect true hdrop fun _ => hcan
    · rw [heq, ← hclosing]
      exact hdrop
    · rw [heq]
      have hno : ¬false = true := Bool.false_ne_true
      refine ⟨hgood, ?info, ?queued, ?closing, ?idle, ?live, ?now, ?opened⟩
      case info => exact absent hinfo
      case queued =>
        intro v hv
        obtain ⟨hheldv, hnot⟩ := h.queued v hv
        exact ⟨hheldv.waits (hidle v hv) hnot c, hnot⟩
      case closing =>
        intro v hv
        rw [← Option.some.inj hv]
        exact ⟨hheld _, hallow, rfl, hidle⟩
      case idle =>
        intro _ _ hnone
        cases hnone
      case live => exact fun hgoes => absurd hgoes hno
      case now => exact fun hgoes => absurd hgoes hno
      case opened => exact fun hgoes => absurd hgoes hno

theorem inv_start (hinfo : (split ⟨.deviceInfo, 1⟩).isSome = true) :
    Inv split (start split) := by
  have hgood : Good split ({} : Sent M) := by
    refine ⟨⟨rfl, ?_, ?_, rfl, List.nodup_nil⟩, rfl⟩
    · intro record hmem
      cases hmem
    · intro record hmem
      cases hmem
  have hcases := @sendFrame_cases _ split {} ⟨.deviceInfo, 1⟩ false false hgood
    fun _ => ⟨rfl, ⟨rfl, rfl⟩, rfl, fun _ => rfl⟩
  obtain ⟨-, hfails⟩ | ⟨-, hnone, -⟩ | ⟨-, t, c, heq, hg, -, hbusy, hallow, hgen, hheld⟩ := hcases
  · cases hfails
  · rw [hnone] at hinfo
    cases hinfo
  · have hstart : start split = { info := some t, sent := c } := by
      have hsend : sendOn split ({} : Connection M) .deviceInfo false = (some t, c) := heq
      rw [start, hsend]
    rw [hstart]
    have ht : ∀ v ∈ some t, v = t := fun v hv => (Option.some.inj hv).symm
    refine ⟨hg, ?_, ?_, ?_, ?_, fun _ => ⟨rfl, rfl⟩, ?_, ?_⟩
    · intro v hv
      rw [ht v hv]
      exact ⟨hheld _, hbusy, hallow, rfl, rfl⟩
    · intro v hv
      cases hv
    · intro v hv
      cases hv
    · intro hnone
      cases hnone
    · intro _
      refine ⟨?_, ?_⟩
      · intro v hv
        rw [ht v hv]
        exact hgen
      · intro v hv
        cases hv
    · intro _ hnone
      cases hnone

theorem clear_begins {e : Event M} (h : clear s e = true) (hbegins : (begins s e).isSome = true) :
    s.info = none ∧ ∀ t ∈ s.queued, Busy t = false := by
  have hsome : (begins s e).isNone = false := by
    rw [← Option.not_isSome, hbegins]
    rfl
  rw [clear, hsome, Bool.false_or, Bool.and_eq_true, Option.isNone_iff_eq_none] at h
  refine ⟨h.1, fun t ht => ?_⟩
  have hall := h.2
  rw [ht] at hall
  exact Bool.not_eq_true' _ ▸ hall

theorem inv_step {s' : Connection M} {e : Event M}
    (hreply : ∀ seq, (split ⟨.frameTooLarge, seq⟩).isSome = true) (h : Inv split s)
    (hclear : clear s e = true) (hs : step split s e = some s') : Inv split s' := by
  cases e with
  | send m =>
    cases hs
    split
    · exact h.wait _
    · exact h
  | run sender =>
    cases sender with
    | info =>
      cases ht : s.info with
      | none =>
        simp only [step, ht] at hs
        cases hs
      | some t =>
        simp only [step, ht] at hs
        cases hs
        exact h.info_step hreply ht
    | queue =>
      cases hqueued : s.queued with
      | some t =>
        simp only [step, hqueued] at hs
        cases hs
        exact h.queue_step hreply hqueued
      | none =>
        cases hwaiting : s.waiting with
        | nil =>
          simp only [step, hqueued, hwaiting] at hs
          cases hs
        | cons m rest =>
          simp only [step, hqueued, hwaiting] at hs
          cases hs
          have hinfo : s.current = true → s.info = none := by
            intro hcurrent
            refine (clear_begins hclear ?_).1
            simp [begins, hqueued, hwaiting, hcurrent]
          exact (@Inv.queue_begins _ _ _ m h hqueued hinfo).wait rest
    | closing =>
      cases ht : s.closing with
      | none =>
        simp only [step, ht] at hs
        cases hs
      | some t =>
        simp only [step, ht] at hs
        cases hs
        exact h.closing_step hreply ht
  | disconnect | background =>
    cases hs
    exact h.close fun hcurrent => clear_begins hclear (by simp [begins, hcurrent])
  | lock =>
    cases hs
    exact h.drop _ true _
  | unlock =>
    cases hs
    exact h.unlock
  | connect =>
    cases hs
    exact h.drop _ _ _
  | ended =>
    cases hs
    exact h.drop _ _ _
  | dispose =>
    cases hs
    exact h.drop _ _ true

/-- A fragment that is sealed while another one is takes the same nonce. -/
theorem Inv.reuses {content : Content M} {allowClosing : Bool} {fragment : Bytes}
    (h : Inv split s) (hsealing : Sealing s)
    (hpasses : s.passes allowClosing s.generation = true)
    (hsplit : split ⟨content, s.sent.outgoingSeq + 1⟩ = some (fragment :: rest)) :
    ¬((sendOn split s content allowClosing).2.calls.map Sealed.nonce).Nodup := by
  obtain ⟨t, nonce, under, left, hunder, hphase⟩ := hsealing
  have hheld : Held split s.sent s.current t :=
    hunder.elim (fun ht => (h.info t ht).1) fun ht => (h.queued t ht).1
  rw [Held, hphase] at hheld
  obtain ⟨-, hcalls, -⟩ := hheld
  have heq : (sendOn split s content allowClosing).2 = s.sent.call fragment := by
    rw [sendOn, sendFrame, if_pos hpasses, hsplit]
  intro hnodup
  rw [heq, Sent.call, List.map_append, h.good.counted, hcalls, List.nodup_append] at hnodup
  exact hnodup.2.2 s.sent.nonce (List.mem_range.mpr (Nat.lt_succ_self _)) s.sent.nonce
    (List.mem_singleton.mpr rfl) rfl

theorem decryptAll_range' {l : List Sealed} {n : Nat}
    (h : l.map Sealed.nonce = List.range' n l.length) :
    decryptAll n l = some (l.map Sealed.plaintext) := by
  induction l generalizing n with
  | nil => rfl
  | cons head tail ih =>
    rw [List.map_cons, List.length_cons, List.range'_succ, List.cons.injEq] at h
    rw [decryptAll, if_pos h.1, ih h.2]
    rfl

/-- The Host gets the fragments of the frames, one frame after the other. -/
theorem Orderly.decrypts (h : Orderly split c) :
    decryptAll 0 c.socket = some (c.wire.flatMap fun record => (split record.1).getD []) := by
  have hnonces := h.nonces
  rw [List.range_eq_range'] at hnonces
  rw [decryptAll_range' hnonces, Sent.socket, List.map_flatMap]
  refine congrArg some (List.flatMap_congr fun record hmem => ?_)
  rw [h.whole record hmem]
  rfl

theorem Inv.close_reuses {fragment : Bytes} (h : Inv split s) (hsealing : Sealing s)
    (hcurrent : s.current = true)
    (hsplit : split ⟨.disconnect, s.sent.outgoingSeq + 1⟩ = some (fragment :: rest)) :
    ¬((closeWithFrame split s).sent.calls.map Sealed.nonce).Nodup := by
  obtain ⟨hlocked, hdisposed⟩ := h.live hcurrent
  have hdrop := h.drop (s.generation + 1) s.locked s.disposed
  have hreuses := @Inv.reuses _ _ _ _ .disconnect true _ hdrop hsealing
    (by simp [Connection.passes, hlocked, hdisposed]) hsplit
  unfold closeWithFrame
  simp only [hcurrent, if_true]
  exact hreuses

/-- An event that begins a send under which the AEAD already works. -/
theorem Inv.overlaps {s' : Connection M} {e : Event M} {content : Content M} {fragment : Bytes}
    (h : Inv split s) (hs : step split s e = some s') (hbegins : begins s e = some content)
    (hsealing : Sealing s)
    (hsplit : split ⟨content, s.sent.outgoingSeq + 1⟩ = some (fragment :: rest)) :
    ¬(s'.sent.calls.map Sealed.nonce).Nodup := by
  cases e with
  | run sender =>
    cases sender with
    | queue =>
      cases hqueued : s.queued with
      | some t =>
        simp only [begins, hqueued] at hbegins
        cases hbegins
      | none =>
        cases hwaiting : s.waiting with
        | nil =>
          simp only [begins, hqueued, hwaiting] at hbegins
          cases hbegins
        | cons m left =>
          simp only [begins, hqueued, hwaiting, Option.ite_none_right_eq_some] at hbegins
          obtain ⟨hcurrent, hcontent⟩ := hbegins
          cases hcontent
          simp only [step, hqueued, hwaiting] at hs
          cases hs
          exact h.reuses hsealing (h.passes hcurrent false) hsplit
    | info => cases hbegins
    | closing => cases hbegins
  | disconnect | background =>
    simp only [begins, Option.ite_none_right_eq_some] at hbegins
    obtain ⟨hcurrent, hcontent⟩ := hbegins
    cases hcontent
    cases hs
    exact h.close_reuses hsealing hcurrent hsplit
  | send m => cases hbegins
  | lock => cases hbegins
  | unlock => cases hbegins
  | connect => cases hbegins
  | ended => cases hbegins
  | dispose => cases hbegins

end Steps

section Runs

variable {M D : Type} {split : Frame M → Option (List Bytes)} {es : List (Event M)}
  {s : Connection M}

theorem visits_inv (hinfo : (split ⟨.deviceInfo, 1⟩).isSome = true)
    (hreply : ∀ seq, (split ⟨.frameTooLarge, seq⟩).isSome = true)
    (hclear : ∀ s e s', Occurs (step split) (start split) es s e s' → clear s e = true)
    (hv : Visits (step split) (start split) es s) : Inv split s := by
  refine visits_invariant (Inv split) (inv_start hinfo) ?_ hv
  intro s e s' hi ho
  exact inv_step hreply hi (hclear s e s' ho) ho.step_eq

/-- While no send begins under another one, the socket is in order and the Host decrypts all of
it. A send that begins while the AEAD works for another one is sealed under a nonce that is in
use. -/
theorem socket_orderly (z : DartCodec.ZLib D) (envelope : Frame M → Bytes)
    (hinfo : (fragmentsOf z envelope ⟨.deviceInfo, 1⟩).isSome = true)
    (hreply : ∀ seq, (fragmentsOf z envelope ⟨.frameTooLarge, seq⟩).isSome = true)
    (es : List (Event M))
    (hclear : ∀ s e s', Occurs (step (fragmentsOf z envelope)) (start (fragmentsOf z envelope)) es
      s e s' → clear s e = true) :
    (∀ s, Visits (step (fragmentsOf z envelope)) (start (fragmentsOf z envelope)) es s →
      Orderly (fragmentsOf z envelope) s.sent ∧
      decryptAll 0 s.sent.socket =
        some (s.sent.wire.flatMap fun record => (fragmentsOf z envelope record.1).getD [])) ∧
    ∀ s, run (step (fragmentsOf z envelope)) (start (fragmentsOf z envelope)) es = some s →
      ∀ e s' content fragment rest, step (fragmentsOf z envelope) s e = some s' →
      begins s e = some content → Sealing s →
      fragmentsOf z envelope ⟨content, s.sent.outgoingSeq + 1⟩ = some (fragment :: rest) →
      ¬Orderly (fragmentsOf z envelope) s'.sent := by
  refine ⟨?_, ?_⟩
  · intro s hv
    have hinv := visits_inv hinfo hreply hclear hv
    exact ⟨hinv.good.toOrderly, hinv.good.toOrderly.decrypts⟩
  · intro s hr e s' content fragment rest hs hbegins hsealing hsplit horderly
    have hinv := visits_inv hinfo hreply hclear (visits_end hr)
    exact hinv.overlaps hs hbegins hsealing hsplit horderly.once

end Runs

theorem splitIntoFragments_one {record : Bytes} (hpos : 0 < record.length)
    (hlen : record.length ≤ DartCodec.maxChunkLen) :
    DartCodec.splitIntoFragments record = [0 :: 1 :: record] := by
  have hchunks : DartCodec.sublists DartCodec.maxChunkLen record 0 = [record] := by
    have hstop : (if 0 + DartCodec.maxChunkLen < record.length then 0 + DartCodec.maxChunkLen
        else record.length) - 0 = record.length := by
      split
      · omega
      · rfl
    have hend : ¬(0 + DartCodec.maxChunkLen < record.length ∧ 0 < DartCodec.maxChunkLen) := by
      omega
    rw [DartCodec.sublists, dif_pos ⟨hpos, by decide⟩, DartCodec.sublists, dif_neg hend]
    simp only [List.drop_zero]
    rw [hstop, List.take_length]
  rw [DartCodec.splitIntoFragments, hchunks]
  rfl

/-- A zlib that never gains. -/
def stored : DartCodec.ZLib Unit where
  convert body := body
  start := ()
  add _ body := some ([body], ())
  close _ := some []

/-- One byte for each kind of frame, with the number of the frame. -/
def body (frame : Frame UInt8) : Bytes :=
  match frame.content with
  | .deviceInfo => [0, .ofNat frame.seq]
  | .disconnect => [1, .ofNat frame.seq]
  | .frameTooLarge => [2, .ofNat frame.seq]
  | .message m => [m, .ofNat frame.seq]

def pieces (frame : Frame UInt8) : Option (List Bytes) :=
  some [[0, 1, 0, 0, 0, 0, 2] ++ body frame]

theorem body_length (frame : Frame UInt8) : (body frame).length = 2 := by
  unfold body
  cases frame.content with
  | _ => rfl

theorem fragmentsOf_body : fragmentsOf stored body = pieces := by
  funext frame
  have hlen := body_length frame
  have hfits : ¬DartCodec.maxUncompressedLen < (body frame).length := by
    rw [hlen]
    decide
  have hrecord : DartCodec.buildRecord stored (body frame) =
      .ok ([0, 0, 0, 0, 2] ++ body frame) := by
    have hsame : stored.convert (body frame) = body frame := rfl
    rw [DartCodec.buildRecord, if_neg hfits]
    simp only [hsame, Nat.lt_irrefl, if_false, hlen]
    rfl
  have hsplit : DartCodec.splitIntoFragments ([0, 0, 0, 0, 2] ++ body frame) =
      [0 :: 1 :: ([0, 0, 0, 0, 2] ++ body frame)] := by
    apply splitIntoFragments_one
    · rw [List.length_append, hlen]
      decide
    · rw [List.length_append, hlen]
      decide
  rw [fragmentsOf, if_neg hfits, hrecord]
  simp only [hsplit, pieces]
  rfl

/-- The queue begins under `device_info`, and both end. -/
def under : List (Event UInt8) :=
  [.send 7, .run .queue, .run .info, .run .info, .run .info, .run .queue, .run .queue,
    .run .queue]

/-- Both frames have the number 1 and the nonce 0, and the Host decrypts the first alone. -/
theorem socket_disordered :
    ¬∀ s, Visits (step (fragmentsOf stored body)) (start (fragmentsOf stored body)) under s →
      Orderly (fragmentsOf stored body) s.sent := by
  rw [fragmentsOf_body]
  intro h
  have hrun : ∃ s, run (step pieces) (start pieces) under = some s ∧
      s.sent.calls.map Sealed.nonce = [0, 0] ∧ s.sent.wire.map (·.1.seq) = [1, 1] ∧
      decryptAll 0 s.sent.socket = none :=
    ⟨_, rfl, rfl, rfl, rfl⟩
  obtain ⟨s, hr, hcalls, -, -⟩ := hrun
  have honce := (h s (visits_end hr)).once
  rw [hcalls] at honce
  exact absurd honce (by decide)

/-- A session with one send of the queue after the other, and a `disconnect` at its end. -/
def inTurn : List (Event UInt8) :=
  [.run .info, .run .info, .run .info, .send 7, .run .queue, .run .queue, .run .queue, .run .queue,
    .disconnect, .run .closing, .run .closing, .run .closing]

theorem socket_orderly_inTurn :
    (∀ s, Visits (step (fragmentsOf stored body)) (start (fragmentsOf stored body)) inTurn s →
      Orderly (fragmentsOf stored body) s.sent ∧
      decryptAll 0 s.sent.socket =
        some (s.sent.wire.flatMap fun record => (fragmentsOf stored body record.1).getD [])) ∧
    ∀ s, run (step (fragmentsOf stored body)) (start (fragmentsOf stored body)) inTurn = some s →
      ∀ e s' content fragment rest, step (fragmentsOf stored body) s e = some s' →
      begins s e = some content → Sealing s →
      fragmentsOf stored body ⟨content, s.sent.outgoingSeq + 1⟩ = some (fragment :: rest) →
      ¬Orderly (fragmentsOf stored body) s'.sent := by
  have hsome : ∀ frame, (fragmentsOf stored body frame).isSome = true := by
    intro frame
    rw [fragmentsOf_body]
    rfl
  have hall : everyStep (step (fragmentsOf stored body)) clear
      (start (fragmentsOf stored body)) inTurn = true := by
    rw [fragmentsOf_body]
    rfl
  exact socket_orderly stored body (hsome _) (fun _ => hsome _) inTurn
    fun _ _ _ ho => occurs_good hall ho

end HerdrMobile.App.SendQueue
