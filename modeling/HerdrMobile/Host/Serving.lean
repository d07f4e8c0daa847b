import HerdrMobile.Host.Outgoing
import HerdrMobile.Proto.Codes

/-!
# What a session sends

The loop of `serve_session`, from the messages that the bridge thread queues to the frames that it
gives to the transport. A message whose envelope is over the limit is not sent, and the session
ends with it: nothing takes its place.
-/
namespace HerdrMobile.Host.Serving

open HerdrMobile.Lib HerdrMobile.Host.Outgoing
open HerdrMobile.Proto.Envelope HerdrMobile.Proto.Payloads
open HerdrMobile.Proto.Messages (Text)
open HerdrMobile.Proto.Codes (Bytes)

set_option autoImplicit false

inductive CloseReason where
  | revoked
deriving DecidableEq, Repr

inductive DispatchOutcome where
  | continue
  | pong (corr : Option Text)
  | disconnect
  | deviceInfo
  | error

/-- Why `send_message` fails. -/
inductive SendError where
  | frame (error : FrameError)
  | socket

/-- Why the loop is left. -/
inductive End where
  | sendFailed (error : SendError)
  | receiveFailed
  | malformed
  | disconnected
  | closed
  | stopped
  | bridgeEnded

/-- `taken` has every message that `send_message` was called with, and `handed` every frame that
it gave to `send_frame`. -/
structure Session (F : Type) where
  seq : UInt64
  channel : List (Queued F)
  taken : List (Queued F)
  handed : List (Frame F)
  ended : Option End

namespace Session

variable {F : Type}

/-- The counter goes on from the handshake. -/
def start (seq : UInt64) : Session F := ⟨seq, [], [], [], none⟩

def finish (s : Session F) (reason : End) : Session F := { s with ended := some reason }

/-- What is taken from the channel at once. -/
def batch (s : Session F) : List (Queued F) :=
  match s.channel with
  | [] => []
  | first :: rx => drainOutgoing first rx

def emptied (s : Session F) : Session F := { s with channel := [] }

end Session

inductive Event (F : Type) where
  | queue (message : Queued F)
  | incoming (received : Option Bytes)
  | outgoing
  | close (reason : Option CloseReason)
  | stop
  | bridgeEnds

/-- An event, and which of the frames that are handed over for it the socket takes. -/
structure Turn (F : Type) where
  event : Event F
  sends : Nat → Bool

variable {F : Type}

def pongMessage : Message F := ⟨.pong, ⟨⟩⟩

def revokedMessage : Message F :=
  ⟨.error, ⟨.revoked, "This device has been revoked.".toList, true⟩⟩

section Source

variable (S : Serde F)

/-- The requests that go to the bridge thread are no concern of the loop. -/
def dispatchIncoming (bytes : Bytes) : DispatchOutcome :=
  match Frame.fromJsonBytes S bytes with
  | .error _ => .error
  | .ok frame =>
    match frame.message S with
    | .error _ => .error
    | .ok message =>
      match message.kind with
      | .ping => .pong frame.corr
      | .deviceInfo => .deviceInfo
      | .disconnect => .disconnect
      | _ => .continue

def sendMessage (sends : Bool) (s : Session F) (m : Queued F) :
    Except SendError Unit × Session F :=
  let seq := s.seq + 1
  let s := { s with seq, taken := s.taken ++ [m] }
  match Frame.wrap S seq m.2 m.1 with
  | .error error => (.error (.frame error), s)
  | .ok frame =>
    match frame.toJsonBytes S with
    | .error error => (.error (.frame error), s)
    | .ok _ =>
      (if sends then .ok () else .error .socket, { s with handed := s.handed ++ [frame] })

/-- Up to the first message that fails. -/
def sendEach (sends : Nat → Bool) (s : Session F) :
    List (Queued F) → Except SendError Unit × Session F
  | [] => (.ok (), s)
  | m :: rest =>
    match sendMessage S (sends 0) s m with
    | (.error error, s) => (.error error, s)
    | (.ok (), s) => sendEach (fun k => sends (k + 1)) s rest

/-- The loop goes on, or breaks. -/
def orFinish : Except SendError Unit × Session F → Session F
  | (.ok (), s) => s
  | (.error error, s) => s.finish (.sendFailed error)

def sayRevoked (s : Session F) : Option CloseReason → Session F
  | some .revoked => (sendMessage S true s (revokedMessage, none)).2
  | none => s

/-- One turn of `select!`, or a message that the bridge thread queues meanwhile. -/
def step (s : Session F) (turn : Turn F) : Session F :=
  if s.ended.isSome then s
  else
    match turn.event with
    | .queue m => { s with channel := s.channel ++ [m] }
    | .incoming none => s.finish .receiveFailed
    | .incoming (some bytes) =>
      match dispatchIncoming S bytes with
      | .pong corr => orFinish (sendMessage S (turn.sends 0) s (pongMessage, corr))
      | .continue | .deviceInfo => s
      | .disconnect => (sendEach S turn.sends s.emptied s.batch).2.finish .disconnected
      | .error => s.finish .malformed
    | .outgoing => orFinish (sendEach S turn.sends s.emptied s.batch)
    | .close reason =>
      (sayRevoked S (sendEach S turn.sends s.emptied s.batch).2 reason).finish .closed
    | .stop => (sendEach S turn.sends s.emptied s.batch).2.finish .stopped
    | .bridgeEnds => if s.channel = [] then s.finish .bridgeEnded else s

def after (seq : UInt64) (turns : List (Turn F)) : Session F :=
  turns.foldl (step S) (.start seq)

/-- The serialized envelope of the message with this number is within the limit. -/
def Fits (seq : UInt64) (m : Queued F) : Prop :=
  (S.write (.obj ((Frame.record S.reread).written (Frame.holding S seq m.2 m.1)))).length ≤
    maxFrameSize

def IsAnswer (seq : UInt64) (m : Queued F) (frame : Frame F) : Prop :=
  (Fits S seq m ∧ frame = Frame.holding S seq m.2 m.1) ∨
    (¬Fits S seq m ∧
      ∃ text, frame = Frame.holding S seq m.2 ⟨.error, ⟨.frameTooLarge, text, false⟩⟩)

/-- One frame for each message, with the numbers after `seq` one by one. -/
def Answers : UInt64 → List (Queued F) → List (Frame F) → Prop
  | _, [], frames => frames = []
  | seq, m :: rest, frames =>
    ∃ frame frames', frames = frame :: frames' ∧ IsAnswer S (seq + 1) m frame ∧
      Answers (seq + 1) rest frames'

structure Answered (seq : UInt64) (s : Session F) : Prop where
  answers : Answers S seq s.taken s.handed
  serving : ∀ error, s.ended ≠ some (.sendFailed (.frame error))

/-- So it is at every moment of the session. -/
def Survives (seq : UInt64) (turns : List (Turn F)) : Prop :=
  ∀ before, before <+: turns → Answered S seq (after S seq before)

/-- The messages of a batch up to the first one that the socket does not take. -/
def reached (sends : Nat → Bool) : List (Queued F) → List (Queued F)
  | [] => []
  | m :: rest => m :: if sends 0 then reached (fun k => sends (k + 1)) rest else []

/-- What a turn has to send. -/
def outbound (s : Session F) (turn : Turn F) : List (Queued F) :=
  if s.ended.isSome then []
  else
    match turn.event with
    | .incoming (some bytes) =>
      match dispatchIncoming S bytes with
      | .pong corr => [(pongMessage, corr)]
      | .disconnect => reached turn.sends s.batch
      | _ => []
    | .outgoing | .stop => reached turn.sends s.batch
    | .close (some .revoked) => reached turn.sends s.batch ++ [(revokedMessage, none)]
    | .close none => reached turn.sends s.batch
    | _ => []

def AllFit : UInt64 → List (Queued F) → Prop
  | _, [] => True
  | seq, m :: rest => Fits S (seq + 1) m ∧ AllFit (seq + 1) rest

/-- No turn has a message to send that is over the limit with its number. -/
def NoneTooLarge (seq : UInt64) (turns : List (Turn F)) : Prop :=
  ∀ before turn rest, turns = before ++ turn :: rest →
    AllFit S (after S seq before).seq (outbound S (after S seq before) turn)

end Source

variable {S : Serde F} {s t : Session F} {m : Queued F} {batch : List (Queued F)} {seq : UInt64}
  {sends : Nat → Bool} {turn : Turn F}

/-- The frames of the messages. -/
def frames (S : Serde F) : UInt64 → List (Queued F) → List (Frame F)
  | _, [] => []
  | seq, m :: rest => Frame.holding S (seq + 1) m.2 m.1 :: frames S (seq + 1) rest

/-- The number of the last of the messages. -/
def last : UInt64 → List (Queued F) → UInt64
  | seq, [] => seq
  | seq, _ :: rest => last (seq + 1) rest

theorem frames_append (seq : UInt64) (a b : List (Queued F)) :
    frames S seq (a ++ b) = frames S seq a ++ frames S (last seq a) b := by
  induction a generalizing seq with
  | nil => rfl
  | cons m a ih => exact congrArg _ (ih (seq + 1))

theorem last_append (seq : UInt64) (a b : List (Queued F)) :
    last seq (a ++ b) = last (last seq a) b := by
  induction a generalizing seq with
  | nil => rfl
  | cons m a ih => exact ih (seq + 1)

theorem allFit_append (seq : UInt64) (a b : List (Queued F)) :
    AllFit S seq (a ++ b) ↔ AllFit S seq a ∧ AllFit S (last seq a) b := by
  induction a generalizing seq with
  | nil => exact (true_and _).to_iff.symm
  | cons m a ih => rw [List.cons_append, AllFit, AllFit, last, ih, and_assoc]

theorem length_frames (seq : UInt64) (batch : List (Queued F)) :
    (frames S seq batch).length = batch.length := by
  induction batch generalizing seq with
  | nil => rfl
  | cons m batch ih => exact congrArg Nat.succ (ih (seq + 1))

theorem answers_frames (h : AllFit S seq batch) : Answers S seq batch (frames S seq batch) := by
  induction batch generalizing seq with
  | nil => rfl
  | cons m batch ih => exact ⟨_, _, rfl, .inl ⟨h.1, rfl⟩, ih h.2⟩

theorem length_of_answers {handed : List (Frame F)} (h : Answers S seq batch handed) :
    handed.length = batch.length := by
  induction batch generalizing seq handed with
  | nil =>
    rw [show handed = [] from h]
    rfl
  | cons m batch ih =>
    obtain ⟨frame, rest, rfl, -, hrest⟩ := h
    rw [List.length_cons, List.length_cons, ih hrest]

/-- The session with the messages sent. -/
def Session.sent (S : Serde F) (s : Session F) (batch : List (Queued F)) : Session F :=
  { s with
    seq := last s.seq batch
    taken := s.taken ++ batch
    handed := s.handed ++ frames S s.seq batch }

theorem Session.sent_nil : s.sent S [] = s := by simp [Session.sent, last, frames]

theorem Session.sent_sent (a b : List (Queued F)) : (s.sent S a).sent S b = s.sent S (a ++ b) := by
  simp only [Session.sent, frames_append, last_append, List.append_assoc]

theorem sendMessage_fits (h : Fits S (s.seq + 1) m) (sent : Bool) : sendMessage S sent s m =
    (if sent then .ok () else .error .socket, s.sent S [m]) := by
  have hsize : ¬_ > maxFrameSize := Nat.not_lt.mpr h
  simp only [sendMessage, Frame.wrap_eq, Frame.toJsonBytes, if_neg hsize]
  rfl

theorem sendMessage_large (h : ¬Fits S (s.seq + 1) m) (sent : Bool) :
    ∃ size, sendMessage S sent s m = (.error (.frame (.tooLarge size)),
      { s with seq := s.seq + 1, taken := s.taken ++ [m] }) := by
  have hsize : _ > maxFrameSize := Nat.not_le.mp h
  simp only [sendMessage, Frame.wrap_eq, Frame.toJsonBytes, if_pos hsize]
  exact ⟨_, rfl⟩

/-- A batch that fits is sent as far as the socket takes it. -/
theorem sendEach_fits (h : AllFit S s.seq (reached sends batch)) :
    (sendEach S sends s batch).2 = s.sent S (reached sends batch) ∧
      ∀ error, (sendEach S sends s batch).1 ≠ .error (.frame error) := by
  induction batch generalizing s sends with
  | nil => exact ⟨(Session.sent_nil).symm, fun error h => by cases h⟩
  | cons m batch ih =>
    obtain ⟨hm, hrest⟩ := h
    rw [sendEach, sendMessage_fits hm, reached]
    by_cases hsent : sends 0
    · rw [if_pos hsent] at hrest ⊢
      obtain ⟨hstate, hresult⟩ := ih (s := s.sent S [m]) hrest
      rw [if_pos hsent]
      refine ⟨?_, hresult⟩
      rw [hstate, Session.sent_sent]
      rfl
    · rw [if_neg hsent, if_neg hsent]
      exact ⟨rfl, fun error h => by cases h⟩

/-- More messages were to be sent than there are frames. -/
def Behind (s t : Session F) (n : Nat) : Prop :=
  t.handed.length + s.taken.length + n ≤ t.taken.length + s.handed.length

theorem sendMessage_behind (sent : Bool) : Behind s (sendMessage S sent s m).2 0 := by
  by_cases h : Fits S (s.seq + 1) m
  · rw [sendMessage_fits h, Behind]
    simp only [Session.sent, frames, List.length_append, List.length_singleton]
    omega
  · obtain ⟨size, heq⟩ := sendMessage_large h sent
    rw [heq, Behind]
    simp only [List.length_append, List.length_singleton]
    omega

theorem sendMessage_loses (h : ¬Fits S (s.seq + 1) m) (sent : Bool) :
    Behind s (sendMessage S sent s m).2 1 := by
  obtain ⟨size, heq⟩ := sendMessage_large h sent
  rw [heq, Behind]
  simp only [List.length_append, List.length_singleton]
  omega

/-- A batch with a message over the limit comes to that message. -/
theorem sendEach_loses (h : ¬AllFit S s.seq (reached sends batch)) :
    Behind s (sendEach S sends s batch).2 1 := by
  induction batch generalizing s sends with
  | nil => exact absurd trivial h
  | cons m batch ih =>
    rw [sendEach]
    by_cases hm : Fits S (s.seq + 1) m
    · rw [reached] at h
      by_cases hsent : sends 0
      · rw [if_pos hsent] at h
        rw [sendMessage_fits hm, if_pos hsent]
        have hrest : Behind (s.sent S [m])
            (sendEach S (fun k => sends (k + 1)) (s.sent S [m]) batch).2 1 :=
          ih fun hall => h ⟨hm, hall⟩
        simp only [Behind, Session.sent, frames, List.length_append, List.length_singleton] at hrest
        simp only [Behind, Session.sent, frames]
        omega
      · rw [if_neg hsent] at h
        exact absurd ⟨hm, trivial⟩ h
    · obtain ⟨size, heq⟩ := sendMessage_large hm (sends 0)
      have hloses := sendMessage_loses hm (sends 0)
      rw [heq] at hloses ⊢
      exact hloses

/-- What a turn does when everything that it has to send fits. -/
structure Hands (S : Serde F) (s t : Session F) (batch : List (Queued F)) : Prop where
  seq : t.seq = last s.seq batch
  taken : t.taken = s.taken ++ batch
  handed : t.handed = s.handed ++ frames S s.seq batch
  serving : ∀ error, t.ended = some (.sendFailed (.frame error)) → s.ended = t.ended

theorem Hands.nothing (h : t.seq = s.seq ∧ t.taken = s.taken ∧ t.handed = s.handed)
    (hserving : ∀ error, t.ended = some (.sendFailed (.frame error)) → s.ended = t.ended) :
    Hands S s t [] where
  seq := h.1
  taken := by rw [h.2.1, List.append_nil]
  handed := by rw [h.2.2, frames, List.append_nil]
  serving := hserving

theorem Hands.trans {u : Session F} {a b : List (Queued F)} (h : Hands S s t a)
    (h' : Hands S t u b) : Hands S s u (a ++ b) where
  seq := by rw [h'.seq, h.seq, last_append]
  taken := by rw [h'.taken, h.taken, List.append_assoc]
  handed := by rw [h'.handed, h.handed, h.seq, frames_append, List.append_assoc]
  serving error herror := by
    have hsame := h'.serving error herror
    exact (h.serving error (hsame.trans herror)).trans hsame

theorem Hands.finish (h : Hands S s t batch) {reason : End}
    (hreason : ∀ error, reason ≠ .sendFailed (.frame error)) :
    Hands S s (t.finish reason) batch where
  seq := h.seq
  taken := h.taken
  handed := h.handed
  serving error herror := absurd (Option.some.inj herror) (hreason error)

theorem Hands.orFinish {r : Except SendError Unit × Session F} (h : Hands S s r.2 batch)
    (hr : ∀ error, r.1 ≠ .error (.frame error)) : Hands S s (orFinish r) batch := by
  obtain ⟨result, state⟩ := r
  cases result with
  | ok _ => exact h
  | error e =>
    refine Hands.finish h fun error heq => hr error ?_
    rw [End.sendFailed.inj heq]

theorem hands_message (h : Fits S (s.seq + 1) m) (sent : Bool) :
    Hands S s (sendMessage S sent s m).2 [m] := by
  rw [sendMessage_fits h]
  exact ⟨rfl, rfl, rfl, fun _ _ => rfl⟩

theorem message_noFrameError (h : Fits S (s.seq + 1) m) (sent : Bool) (error : FrameError) :
    (sendMessage S sent s m).1 ≠ .error (.frame error) := by
  rw [sendMessage_fits h]
  cases sent <;> intro heq <;> cases heq

theorem hands_batch (h : AllFit S s.seq (reached sends s.batch)) :
    Hands S s (sendEach S sends s.emptied s.batch).2 (reached sends s.batch) := by
  rw [(sendEach_fits (s := s.emptied) h).1]
  exact ⟨rfl, rfl, rfl, fun _ _ => rfl⟩

theorem step_hands (h : AllFit S s.seq (outbound S s turn)) :
    Hands S s (step S s turn) (outbound S s turn) := by
  obtain ⟨event, sends⟩ := turn
  unfold outbound at h ⊢
  unfold step
  by_cases hended : s.ended.isSome
  · rw [if_pos hended, if_pos hended]
    exact .nothing ⟨rfl, rfl, rfl⟩ fun _ _ => rfl
  · rw [if_neg hended] at h
    rw [if_neg hended, if_neg hended]
    cases event with
    | queue m => exact .nothing ⟨rfl, rfl, rfl⟩ fun _ _ => rfl
    | incoming received =>
      cases received with
      | none => exact .finish (.nothing ⟨rfl, rfl, rfl⟩ fun _ _ => rfl) fun _ h => by cases h
      | some bytes =>
        simp only at h ⊢
        cases hdispatch : dispatchIncoming S bytes with
        | «continue» => exact .nothing ⟨rfl, rfl, rfl⟩ fun _ _ => rfl
        | deviceInfo => exact .nothing ⟨rfl, rfl, rfl⟩ fun _ _ => rfl
        | error => exact .finish (.nothing ⟨rfl, rfl, rfl⟩ fun _ _ => rfl) fun _ h => by cases h
        | pong corr =>
          simp only [hdispatch] at h
          exact .orFinish (hands_message h.1 _) (message_noFrameError h.1 _)
        | disconnect =>
          simp only [hdispatch] at h
          exact .finish (hands_batch h) fun _ h => by cases h
    | outgoing => exact .orFinish (hands_batch h) (sendEach_fits (s := s.emptied) h).2
    | close reason =>
      refine .finish ?_ fun _ h => by cases h
      cases reason with
      | none => exact hands_batch h
      | some _ =>
        obtain ⟨hbatch, hrevoked, -⟩ := (allFit_append ..).mp h
        have hfirst := hands_batch hbatch
        rw [← hfirst.seq] at hrevoked
        exact hfirst.trans (hands_message hrevoked true)
    | stop => exact .finish (hands_batch h) fun _ h => by cases h
    | bridgeEnds =>
      by_cases hchannel : s.channel = []
      · simp only [if_pos hchannel]
        exact .finish (.nothing ⟨rfl, rfl, rfl⟩ fun _ _ => rfl) fun _ h => by cases h
      · simp only [if_neg hchannel]
        exact .nothing ⟨rfl, rfl, rfl⟩ fun _ _ => rfl

theorem orFinish_lengths (r : Except SendError Unit × Session F) :
    (orFinish r).taken = r.2.taken ∧ (orFinish r).handed = r.2.handed := by
  obtain ⟨result, state⟩ := r
  cases result <;> exact ⟨rfl, rfl⟩

theorem sendEach_behind (batch : List (Queued F)) :
    Behind s (sendEach S sends s batch).2 0 := by
  by_cases h : AllFit S s.seq (reached sends batch)
  · rw [(sendEach_fits h).1, Behind]
    simp only [Session.sent, List.length_append, length_frames]
    omega
  · have hloses := sendEach_loses h
    unfold Behind at hloses ⊢
    omega

/-- A turn with a message over the limit leaves it without a frame. -/
theorem step_loses (h : ¬AllFit S s.seq (outbound S s turn)) : Behind s (step S s turn) 1 := by
  obtain ⟨event, sends⟩ := turn
  unfold outbound at h
  unfold step
  by_cases hended : s.ended.isSome
  · rw [if_pos hended] at h
    exact absurd trivial h
  · rw [if_neg hended] at h ⊢
    have hbatch (hlarge : ¬AllFit S s.seq (reached sends s.batch)) :
        Behind s (sendEach S sends s.emptied s.batch).2 1 := sendEach_loses (s := s.emptied) hlarge
    cases event with
    | queue m => exact absurd trivial h
    | incoming received =>
      cases received with
      | none => exact absurd trivial h
      | some bytes =>
        simp only at h ⊢
        cases hdispatch : dispatchIncoming S bytes with
        | «continue» | deviceInfo | error =>
          simp only [hdispatch] at h
          exact absurd trivial h
        | pong corr =>
          simp only [hdispatch] at h
          have hlarge : ¬Fits S (s.seq + 1) (pongMessage, corr) := fun hfits => h ⟨hfits, trivial⟩
          obtain ⟨htaken, hhanded⟩ :=
            orFinish_lengths (sendMessage S (sends 0) s (pongMessage, corr))
          simp only [Behind, htaken, hhanded]
          exact sendMessage_loses hlarge _
        | disconnect =>
          simp only [hdispatch] at h
          exact hbatch h
    | outgoing =>
      obtain ⟨htaken, hhanded⟩ := orFinish_lengths (sendEach S sends s.emptied s.batch)
      simp only [Behind, htaken, hhanded]
      exact hbatch h
    | close reason =>
      cases reason with
      | none => exact hbatch h
      | some _ =>
        have hsent := sendMessage_behind (S := S) (s := (sendEach S sends s.emptied s.batch).2)
          (m := (revokedMessage, none)) true
        by_cases hfits : AllFit S s.seq (reached sends s.batch)
        · have hfirst := hands_batch hfits
          have hlarge : ¬Fits S ((sendEach S sends s.emptied s.batch).2.seq + 1)
              (revokedMessage, none) := by
            rw [hfirst.seq]
            exact fun hfit => h ((allFit_append ..).mpr ⟨hfits, hfit, trivial⟩)
          have hloses := sendMessage_loses hlarge true
          have hall : Behind s.emptied (sendEach S sends s.emptied s.batch).2 0 :=
            sendEach_behind s.batch
          simp only [Behind, Session.finish, sayRevoked, Session.emptied] at *
          omega
        · have hloses := hbatch hfits
          simp only [Behind, Session.finish, sayRevoked, Session.emptied] at *
          omega
    | stop => exact hbatch h
    | bridgeEnds => exact absurd trivial h

variable {turns : List (Turn F)}

theorem after_snoc (seq : UInt64) (turns : List (Turn F)) (turn : Turn F) :
    after S seq (turns ++ [turn]) = step S (after S seq turns) turn := by
  rw [after, List.foldl_append]
  rfl

/-- Every message so far fits, and has its frame. -/
structure Level (S : Serde F) (seq : UInt64) (s : Session F) : Prop where
  fit : AllFit S seq s.taken
  number : s.seq = last seq s.taken
  handed : s.handed = frames S seq s.taken
  serving : ∀ error, s.ended ≠ some (.sendFailed (.frame error))

theorem level_start : Level S seq (.start seq) where
  fit := trivial
  number := rfl
  handed := rfl
  serving error h := by cases h

theorem Level.step (h : Level S seq s) (hfits : AllFit S s.seq (outbound S s turn)) :
    Level S seq (step S s turn) := by
  have hands := step_hands hfits
  rw [h.number] at hfits
  refine ⟨?_, ?_, ?_, fun error herror => ?_⟩
  · rw [hands.taken, allFit_append]
    exact ⟨h.fit, hfits⟩
  · rw [hands.seq, hands.taken, h.number, last_append]
  · rw [hands.handed, hands.taken, h.handed, h.number, frames_append]
  · exact h.serving error ((hands.serving error herror).trans herror)

theorem Level.answered (h : Level S seq s) : Answered S seq s where
  answers := by
    rw [h.handed]
    exact answers_frames h.fit
  serving := h.serving

theorem level_after (h : NoneTooLarge S seq turns) {before : List (Turn F)}
    (hbefore : before <+: turns) : Level S seq (after S seq before) := by
  induction before using List.reverseRecOn with
  | nil => exact level_start
  | append_singleton before turn ih =>
    obtain ⟨rest, rfl⟩ := hbefore
    rw [List.append_assoc] at h ih
    rw [after_snoc]
    exact (ih ⟨turn :: rest, rfl⟩).step (h before turn rest rfl)

/-- Where there is a frame for every message before and after a turn, it had none over the limit. -/
theorem fits_of_survives (h : Survives S seq turns) : NoneTooLarge S seq turns := by
  rintro before turn rest rfl
  by_contra hlarge
  have hbefore := h before ⟨turn :: rest, rfl⟩
  have hafter := h (before ++ [turn]) ⟨rest, by rw [List.append_assoc, List.singleton_append]⟩
  rw [after_snoc] at hafter
  have hloses := step_loses hlarge
  rw [Behind, length_of_answers hbefore.answers, length_of_answers hafter.answers] at hloses
  omega

/-- In every session, whatever the bridge thread queues and whatever comes in: every message gets
its frame if and only if none is over the limit. -/
theorem session_survives_iff (S : Serde F) (seq : UInt64) (turns : List (Turn F)) :
    Survives S seq turns ↔ NoneTooLarge S seq turns := by
  constructor
  · exact fits_of_survives
  · intro h before hbefore
    exact (level_after h hbefore).answered

/-- The text of a frame with 1 MiB of scrollback. -/
def longText : List UInt8 :=
  Utf8.utf8 ("\x7b\"v\":1,\"type\":\"scroll_response\",\"seq\":1,\"corr\":\"c1\",".toList ++
    "\"payload\":\x7b\"lines\":1000,\"pane_id\":\"p1\",\"text\":\"".toList) ++
  List.replicate maxFrameSize 0x61 ++ Utf8.utf8 "\",\"truncated\":false\x7d\x7d".toList

def longReply : Queued Empty :=
  (⟨.scrollResponse, ⟨"p1".toList, List.replicate maxFrameSize 'a', 1000, false⟩⟩,
    some "c1".toList)

/-- The serializer, as far as it writes this frame. -/
def longSerde : Serde Empty :=
  let frame := Frame.holding (.only .null []) 1 longReply.2 longReply.1
  .only (.obj ((Frame.record id).written frame)) longText

theorem length_longText : maxFrameSize < longText.length := by
  rw [longText, List.length_append, List.length_append, List.length_replicate]
  have hnonempty : 0 < (Utf8.utf8 "\",\"truncated\":false\x7d\x7d".toList).length := by decide
  omega

/-- The first reply is too long: no frame goes out, and the session is gone. -/
theorem long_reply_ends_session :
    ¬Survives longSerde 0 [⟨.queue longReply, fun _ => true⟩, ⟨.outgoing, fun _ => true⟩] := by
  intro h
  have hall := fits_of_survives h [⟨.queue longReply, fun _ => true⟩]
    ⟨.outgoing, fun _ => true⟩ [] rfl
  exact absurd hall.1 (Nat.not_le.mpr length_longText)

end HerdrMobile.Host.Serving
