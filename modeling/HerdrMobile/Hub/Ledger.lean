import Mathlib.Algebra.BigOperators.Group.Finset.Basic
import HerdrMobile.Hub.Counters
import HerdrMobile.Hub.Links
import HerdrMobile.Hub.Slots
import HerdrMobile.Lib.Totals

/-!
# What the metrics of the hub count

Each step of a task makes the calls that its branch of the source makes. A frame is counted when it
is read, before its peer is looked up, and a handle when its room is made.
-/
namespace HerdrMobile.Hub.Ledger

open Lib.Channel Lib.Run Lib.Table Proto.Codes Hub.Limits Hub.Session Hub.Relay Hub.Steps Hub.Rooms
open Hub.Links Hub.Counters

set_option autoImplicit false

/-- The close code, the name, the message and the counted reason of a refusal. -/
def describeRegisterError : RegisterError → CloseCode × String × String × Option RejectReason
  | .handleTaken => (.handleTaken, "handle_taken",
      "A Host is already registered under this handle", some .handleTaken)
  | .hostInUse => (.hostInUse, "host_in_use", "A Device is already active on this Host",
      some .hostInUse)
  | .handleUnknown => (.handleUnknown, "handle_unknown", "No Host is registered under this handle",
      none)
  | .pairingExpired => (.pairingExpired, "pairing_expired", "The pairing window has expired", none)
  | .handleRateLimited | .tooManyHandles => (.rateLimited, "rate_limited",
      "handle registration rate limit exceeded", some .rateLimited)

def registerRecords : Except RegisterError (OutboundTx × Bool) → List Record
  | .ok (_, isNew) => if isNew then [.handleCreated] else []
  | .error err =>
    let (code, _, _, reason) := describeRegisterError err
    .error code :: (reason.map Record.rejected).toList

/-- The frame passes the checks in front of both frame branches. -/
def passes (t : Task) (len now : Nat) : Bool := (t.allowFrame len "" now).1

/-- The call behind `send_close`. -/
def closeRecords (t : Task) : List Record :=
  match t.phase with
  | .sendClose frame =>
    if frame.code = CloseCode.frameTooLarge.code then [.error .frameTooLarge]
    else [.error .rateLimited]
  | _ => []

/-- The calls that a step makes. `lasted` is the time since `run_peer` began. -/
def recordsOf (cfg : Config) (lasted : OutboundTx → UInt64) (s : HubState) : Event → List Record
  | .register handle role ip pairing now =>
    -- A refusal is counted after its close frame, which no other call waits for.
    registerRecords
      (s.sessions.register handle role ip s.handleLimiter cfg.maxHandles pairing now).1
  | .read c (.binary bytes) now => (s.task c).elim [] fun t =>
      if passes t bytes.length now then [.forward t.role bytes.length] else []
  | .sinkDone c _ _ => (s.task c).elim [] closeRecords
  | .dropInbound c => [.sessionDuration (lasted c)]
  | _ => []

/-- The calls of a run, in its order. -/
def recordsOn (cfg : Config) (lasted : OutboundTx → UInt64) : HubState → List Event → List Record
  | _, [] => []
  | s, e :: es => recordsOf cfg lasted s e ++
      (step cfg s e).elim [] fun t => recordsOn cfg lasted t es

variable {cfg : Config} {lasted : OutboundTx → UInt64} {n : Nat} {s s' : HubState} {e : Event}
  {c d : OutboundTx} {t t' : Task} {es : List Event} {weight : Role → Bytes → Nat}

/-- A counter after a run holds what its steps add. -/
theorem tally_recordsOn (amount : Record → Nat) (s : HubState) (es : List Event) :
    tally amount (recordsOn cfg lasted s es) = UInt64.ofNat
      (total (step cfg) (fun s e => ((recordsOf cfg lasted s e).map amount).sum) s es) := by
  unfold tally
  congr 1
  induction es generalizing s with
  | nil => rfl
  | cons e es ih =>
    rw [recordsOn, total, List.map_append, List.sum_append]
    cases step cfg s e with
    | none => rfl
    | some t => exact congrArg _ (ih t)

/-- A frame and the role of its sender, weighed. -/
def weigh (weight : Role → Bytes → Nat) (frame : Option (Role × Bytes)) : Nat :=
  frame.elim 0 fun (role, bytes) => weight role bytes

/-- The frame that a step reads and counts. -/
def counted (s : HubState) : Event → Option (Role × Bytes)
  | .read c (.binary bytes) now => (s.task c).bind fun t =>
      if passes t bytes.length now then some (t.role, bytes) else none
  | _ => none

/-- The frame that a step puts on the queue of the peer. -/
def handedOver (s : HubState) (e : Event) : Option (Role × Bytes) :=
  (s.delivery e).bind fun (c, _, bytes) => (s.task c).map fun t => (t.role, bytes)

/-- What the poll of a pending send finds, and its frame. -/
def pollResult (s : HubState) (c : OutboundTx) (t : Task) : Option (Polled × Bytes) :=
  match t.phase with
  | .forward peer bytes => some (((s.sessions.chan peer).send c (.binary bytes)).1, bytes)
  | .awaitSpace peer bytes => some (((s.sessions.chan peer).resume c (.binary bytes)).1, bytes)
  | _ => none

/-- The frame that a step gives up: nobody has joined, or the peer's queue is closed. -/
def lost (s : HubState) : Event → Option (Role × Bytes)
  | .read c (.binary bytes) now => (s.task c).bind fun t =>
      if passes t bytes.length now && (s.sessions.peerOf t.handle t.role).isNone then
        some (t.role, bytes) else none
  | .pollForward c => (s.task c).bind fun t => (pollResult s c t).bind fun (r, bytes) =>
      if r = .refused then some (t.role, bytes) else none
  | _ => none

/-- The frame that a task holds between the read and the queue. -/
def inHand (t : Task) : Option (Role × Bytes) :=
  match t.phase with
  | .forward _ bytes | .awaitSpace _ bytes => some (t.role, bytes)
  | _ => none

/-- The frames that the tasks hold. -/
def held (weight : Role → Bytes → Nat) (s : HubState) : Nat :=
  ∑ c ∈ Finset.range s.sessions.made, weigh weight ((s.task c).bind inHand)

theorem inHand_none (h : t.phase.target = none) : inHand t = none := by
  unfold inHand
  cases hp : t.phase <;> rw [hp] at h <;> first | rfl | cases h

theorem held_setTask {S : HubState} (hmade : S.sessions.made = s.sessions.made)
    (htask : S.task = s.task) (hc : c < s.sessions.made) (ht : s.task c = some t) :
    held weight (S.setTask c t') + weigh weight (inHand t) =
      held weight s + weigh weight (inHand t') := by
  have hmem : c ∈ Finset.range s.sessions.made := Finset.mem_range.mpr hc
  have hrest : ∑ d ∈ (Finset.range s.sessions.made).erase c,
        weigh weight (((S.setTask c t').task d).bind inHand) =
      ∑ d ∈ (Finset.range s.sessions.made).erase c, weigh weight ((s.task d).bind inHand) :=
    Finset.sum_congr rfl fun d hd => by
      rw [setTask_ne (Finset.ne_of_mem_erase hd), htask]
  have hleft := Finset.add_sum_erase (Finset.range s.sessions.made)
    (fun d => weigh weight (((S.setTask c t').task d).bind inHand)) hmem
  have hright := Finset.add_sum_erase (Finset.range s.sessions.made)
    (fun d => weigh weight ((s.task d).bind inHand)) hmem
  rw [hrest] at hleft
  simp only [setTask_self, ht, Option.bind_some] at hleft hright
  unfold held
  rw [setTask_sessions, hmade]
  omega

/-- A new connection holds no frame. -/
theorem held_fresh {S : HubState} (hmade : S.sessions.made = s.sessions.made + 1)
    (hold : ∀ c < s.sessions.made, S.task c = s.task c)
    (hnew : (S.task s.sessions.made).bind inHand = none) : held weight S = held weight s := by
  unfold held
  rw [hmade, Finset.sum_range_succ, hnew]
  refine (Nat.add_zero _).trans (Finset.sum_congr rfl fun c hc => ?_)
  rw [hold c (Finset.mem_range.mp hc)]

theorem passes_eq {len now : Nat} (t : Task) (tooLarge : String) :
    (t.allowFrame len tooLarge now).1 = passes t len now := by
  unfold passes Task.allowFrame
  split
  · rfl
  · cases t.limiter.allow now with
    | mk ok l => cases ok <;> rfl

/-- The frame of a read is given up, or the reader holds it. -/
theorem inHand_read (hp : t.phase = .select) (ht : s.task c = some t) (frame : Incoming)
    (now : Nat) :
    weigh weight (inHand (s.onRead t frame now)) + weigh weight (lost s (.read c frame now)) =
      weigh weight (counted s (.read c frame now)) := by
  have hheld : inHand t = none := inHand_none (by rw [hp]; rfl)
  cases frame with
  | binary bytes =>
    have hpass := @passes_eq bytes.length now t "frame exceeds the 1 MiB limit"
    simp only [HubState.onRead, lost, counted, ht, Option.bind_some]
    cases h : t.allowFrame bytes.length "frame exceeds the 1 MiB limit" now with
    | mk ok u =>
      rw [h] at hpass
      cases ok with
      | false =>
        obtain ⟨-, frame, hf⟩ := allowFrame_false h
        have hnone : inHand u = none := inHand_none (by rw [hf]; rfl)
        simp [← hpass, hnone, weigh]
      | true =>
        obtain ⟨hs, hf⟩ := allowFrame_true h
        have hnone : inHand u = none := inHand_none (by rw [hf, hp]; rfl)
        simp only [HubState.lookupPeer, hs.handle, hs.role, ← hpass]
        cases s.sessions.peerOf t.handle t.role with
        | none => simp [hnone, weigh]
        | some peer => simp [inHand, Task.goto, hs.role, weigh]
  | text text accepted =>
    obtain ⟨-, htarget, -⟩ := onText_stay hp text accepted now
    simp [HubState.onRead, lost, counted, inHand_none htarget, weigh]
  | ping => simp [HubState.onRead, lost, counted, hheld, weigh]
  | pong =>
    have hpong : inHand { t with awaitingPongSince := none } = none :=
      inHand_none (by rw [hp]; rfl)
    simp [HubState.onRead, lost, counted, hpong, weigh]
  | close frame => simp [HubState.onRead, lost, counted, inHand, Task.goto, weigh]
  | ended => simp [HubState.onRead, lost, counted, inHand, Task.goto, weigh]

theorem handedOver_poll (ht : s.task c = some t) : handedOver s (.pollForward c) =
    (pollResult s c t).bind fun (r, bytes) =>
      if r = .delivered then some (t.role, bytes) else none := by
  simp only [handedOver, HubState.delivery, ht, Option.bind_some, pollResult]
  cases t.phase with
  | forward peer bytes =>
    dsimp only
    cases ((s.sessions.chan peer).send c (.binary bytes)).1 <;> simp [ht]
  | awaitSpace peer bytes =>
    dsimp only
    cases ((s.sessions.chan peer).resume c (.binary bytes)).1 <;> simp [ht]
  | _ => rfl

/-- The task keeps the frame exactly when its poll is pending. -/
theorem pollForward_cases (h : s.pollForward c t = some s') :
    ∃ r bytes t', pollResult s c t = some (r, bytes) ∧ inHand t = some (t.role, bytes) ∧
      s'.sessions.made = s.sessions.made ∧ s'.task = (s.setTask c t').task ∧
      inHand t' = if r = .pending then some (t.role, bytes) else none := by
  unfold HubState.pollForward at h
  split at h
  · next peer bytes hp =>
    have hpoll : pollResult s c t =
        some (((s.sessions.chan peer).send c (.binary bytes)).1, bytes) := by
      simp only [pollResult, hp]
    have hhand : inHand t = some (t.role, bytes) := by simp only [inHand, hp]
    cases hq : (s.sessions.chan peer).send c (.binary bytes) with
    | mk r q =>
      rw [hq] at h hpoll
      cases r with
      | pending =>
        cases h
        exact ⟨.pending, bytes, t.goto (.awaitSpace peer bytes), hpoll, hhand, rfl, rfl, rfl⟩
      | delivered | refused =>
        cases h
        exact ⟨_, bytes, t.goto .select, hpoll, hhand, rfl, rfl, rfl⟩
  · next peer bytes hp =>
    have hpoll : pollResult s c t =
        some (((s.sessions.chan peer).resume c (.binary bytes)).1, bytes) := by
      simp only [pollResult, hp]
    have hhand : inHand t = some (t.role, bytes) := by simp only [inHand, hp]
    cases hq : (s.sessions.chan peer).resume c (.binary bytes) with
    | mk r q =>
      rw [hq] at h hpoll
      cases r with
      | pending => cases h
      | delivered | refused =>
        cases h
        exact ⟨_, bytes, t.goto .select, hpoll, hhand, rfl, rfl, rfl⟩
  · cases h

/-- What a step puts into a queue or gives up. -/
def released (weight : Role → Bytes → Nat) (s : HubState) (e : Event) : Nat :=
  weigh weight (handedOver s e) + weigh weight (lost s e)

theorem held_register (hl : Linked s) {handle : Handle} {role : Role} {ip : IpAddr}
    {pairing : Bool} {now : Nat} :
    held weight (s.register cfg handle role ip pairing now) = held weight s := by
  have hnone : s.task s.sessions.made = none := by
    cases h : s.task s.sessions.made with
    | none => rfl
    | some t => exact absurd (hl.made _ t h) (Nat.lt_irrefl _)
  unfold HubState.register
  split
  · next err m l hr =>
    exact held_fresh (register_made hr) (fun _ _ => rfl) (by rw [hnone]; rfl)
  · next tx isNew m l hr =>
    obtain ⟨rfl, -⟩ := register_ok hr
    refine held_fresh (register_made hr) (fun c hc => setTask_ne (Nat.ne_of_lt hc)) ?_
    rw [setTask_self]
    rfl

/-- A step of a task that is no poll and no read of a frame. -/
theorem held_still {S : HubState} (hl : Linked s) (ht : s.task c = some t)
    (hmade : S.sessions.made = s.sessions.made) (htask : S.task = s.task)
    (hfrom : t.phase.target = none) (hto : t'.phase.target = none) :
    held weight (S.setTask c t') = held weight s := by
  have hmove := @held_setTask s c t t' weight S hmade htask (hl.made c t ht) ht
  rw [inHand_none hfrom, inHand_none hto] at hmove
  exact Nat.add_right_cancel hmove

theorem disconnect_made (m : SessionMap) (handle : Handle) (role : Role) (mine : OutboundTx)
    (peerClose : Option CloseFrame) : (m.disconnect handle role mine peerClose).made = m.made := by
  rcases disconnect_cases m handle role mine peerClose with ⟨he, -⟩ | ⟨frame, -, he⟩
  · rw [he]
  · rw [he, discard_made]

/-- A frame that is read is held until it is in the queue of the peer or given up. -/
theorem held_step (hl : Linked s) (h : step cfg s e = some s') :
    held weight s' + released weight s e = held weight s + weigh weight (counted s e) := by
  cases e with
  | register handle role ip pairing now =>
    cases h
    exact held_register hl
  | read c frame now =>
    obtain ⟨t, ht, h⟩ := Option.bind_eq_some_iff.mp h
    split at h
    · next hp =>
      cases h
      have hmove := @held_setTask s c t (s.onRead t frame now) weight s rfl rfl (hl.made c t ht) ht
      have hread := @inHand_read s c t weight hp ht frame now
      rw [inHand_none (by rw [hp]; rfl)] at hmove
      change _ + 0 = _ at hmove
      show _ + (0 + _) = _
      omega
    · cases h
  | pollForward c =>
    obtain ⟨t, ht, h⟩ := Option.bind_eq_some_iff.mp h
    obtain ⟨r, bytes, t', hresult, hheld, hmade, htask, hkept⟩ := pollForward_cases h
    have hmove := @held_setTask s c t t' weight s rfl rfl (hl.made c t ht) ht
    have hsame : held weight s' = held weight (s.setTask c t') := by
      unfold held
      rw [hmade, htask]
      rfl
    have hover := handedOver_poll ht
    have hlost : lost s (.pollForward c) = if r = .refused then some (t.role, bytes) else none := by
      simp only [lost, ht, Option.bind_some, hresult]
    rw [hresult, Option.bind_some] at hover
    rw [hkept, hheld] at hmove
    rw [hsame, released, hover, hlost]
    cases r <;> simpa [weigh, counted] using hmove
  | joined c now | heartbeat c event now | sinkDone c ok now =>
    cases move_of_step h with
    | stay _ ht _ hn _ htarget _ => exact held_still hl ht rfl rfl hn htarget
  | recv c =>
    cases move_of_step h with
    | stay _ ht _ hn _ htarget _ => exact held_still hl ht rfl rfl hn htarget
    | took ht hp _ => exact held_still hl ht rfl rfl (by rw [hp]; rfl) rfl
  | dropInbound c =>
    cases move_of_step h with
    | stay _ ht _ hn _ htarget _ => exact held_still hl ht rfl rfl hn htarget
    | dropped ht hp => exact held_still hl ht rfl rfl (by rw [hp]; rfl) rfl
  | disconnect c =>
    cases move_of_step h with
    | stay hm => cases hm
    | disconnected ht hp =>
      exact held_still hl ht (disconnect_made ..) rfl (by rw [hp]; rfl) rfl

theorem not_forward_registerRecords {result : Except RegisterError (OutboundTx × Bool)}
    {role : Role} {len : Nat} : Record.forward role len ∉ registerRecords result := by
  cases result with
  | ok placed =>
    obtain ⟨tx, isNew⟩ := placed
    cases isNew <;> simp [registerRecords]
  | error err => cases err <;> simp [registerRecords, describeRegisterError]

theorem not_forward_closeRecords {role : Role} {len : Nat} :
    Record.forward role len ∉ closeRecords t := by
  unfold closeRecords
  split
  · split <;> simp
  · exact List.not_mem_nil

/-- What the calls of a step add to a counter of forwarded frames. -/
theorem sum_recordsOf {amount : Record → Nat}
    (hforward : ∀ role (bytes : Bytes), amount (.forward role bytes.length) = weight role bytes)
    (hothers : ∀ r, (∀ role len, r ≠ .forward role len) → amount r = 0) (s : HubState) (e : Event) :
    ((recordsOf cfg lasted s e).map amount).sum = weigh weight (counted s e) := by
  have hnone : ∀ records : List Record, (∀ role len, Record.forward role len ∉ records) →
      (records.map amount).sum = 0 := by
    intro records hr
    refine List.sum_eq_zero fun a ha => ?_
    obtain ⟨r, hmem, rfl⟩ := List.mem_map.mp ha
    exact hothers r fun role len he => hr role len (he ▸ hmem)
  cases e with
  | register handle role ip pairing now => exact hnone _ fun _ _ => not_forward_registerRecords
  | read c frame now =>
    cases frame with
    | binary bytes =>
      simp only [recordsOf, counted]
      cases s.task c with
      | none => rfl
      | some t =>
        simp only [Option.elim_some, Option.bind_some]
        split
        · simp [hforward, weigh]
        · rfl
    | text text accepted | ping | pong | close frame | ended => rfl
  | sinkDone c ok now =>
    refine hnone _ fun role len => ?_
    rw [recordsOf]
    cases s.task c with
    | none => exact List.not_mem_nil
    | some t => exact not_forward_closeRecords
  | dropInbound c => exact hnone _ fun _ _ => by simp [recordsOf]
  | joined c now | pollForward c | recv c | heartbeat c event now | disconnect c => rfl

/-- A frame of one direction, and the bytes of one. -/
def oneOf (i : Fin 2) (role : Role) (_ : Bytes) : Nat := if directionIndex role = i then 1 else 0

def bytesOf (i : Fin 2) (role : Role) (bytes : Bytes) : Nat :=
  if directionIndex role = i then bytes.length else 0

/-- Over a run, what is read is what is handed over, given up or still held. -/
theorem counted_balance (hr : run (step cfg) (.start n) es = some s) :
    total (step cfg) (fun s e => weigh weight (counted s e)) (.start n) es =
      total (step cfg) (fun s e => weigh weight (handedOver s e)) (.start n) es +
        total (step cfg) (fun s e => weigh weight (lost s e)) (.start n) es + held weight s := by
  have hstep : ∀ {pre s e t}, run (step cfg) (.start n) pre = some s → step cfg s e = some t →
      held weight t + released weight s e = held weight s + weigh weight (counted s e) :=
    fun hpre hs => held_step (linked_visits (visits_end hpre)) hs
  have hbalance := total_balance hstep hr
  have hempty : held weight (HubState.start n) = 0 := rfl
  rw [hempty, Nat.zero_add] at hbalance
  rw [← hbalance, ← total_add]
  exact Nat.add_comm _ _

/-- After every run, a counter of `/metrics` shows the frames of its direction that were put on the
queue of the peer, that were given up because nobody reads there, and that a task still holds. -/
theorem forwarded_accounted (cfg : Config) (lasted : OutboundTx → UInt64) (n : Nat)
    (es : List Event) (s : HubState) (hr : run (step cfg) (.start n) es = some s) (i : Fin 2) :
    (after (recordsOn cfg lasted (.start n) es)).framesForwarded i = UInt64.ofNat
        (total (step cfg) (fun s e => weigh (oneOf i) (handedOver s e)) (.start n) es +
          total (step cfg) (fun s e => weigh (oneOf i) (lost s e)) (.start n) es +
          held (oneOf i) s) ∧
      (after (recordsOn cfg lasted (.start n) es)).bytesForwarded i = UInt64.ofNat
        (total (step cfg) (fun s e => weigh (bytesOf i) (handedOver s e)) (.start n) es +
          total (step cfg) (fun s e => weigh (bytesOf i) (lost s e)) (.start n) es +
          held (bytesOf i) s) := by
  have hzero : ∀ r, (∀ role len, r ≠ .forward role len) →
      sentFrames i r = 0 ∧ sentBytes i r = 0 := by
    intro r hr
    cases r with
    | forward role len => exact absurd rfl (hr role len)
    | _ => exact ⟨rfl, rfl⟩
  rw [after_eq]
  constructor
  · show tally (sentFrames i) _ = _
    rw [tally_recordsOn, ← counted_balance hr]
    refine congrArg (fun f => UInt64.ofNat (total (step cfg) f _ es)) (funext₂ fun s e => ?_)
    exact sum_recordsOf (fun _ _ => rfl) (fun r h => (hzero r h).1) s e
  · show tally (sentBytes i) _ = _
    rw [tally_recordsOn, ← counted_balance hr]
    refine congrArg (fun f => UInt64.ofNat (total (step cfg) f _ es)) (funext₂ fun s e => ?_)
    exact sum_recordsOf (fun _ _ => rfl) (fun r h => (hzero r h).2) s e

def limits : Config := ⟨10, 100⟩

/-- The Host (0) reads a frame before a Device joins. -/
def unheard : List Event :=
  [.register 5 .host (.v4 1) false 0, .joined 0 0, .read 0 (.binary [7, 7]) 0]

theorem forwarded_accounted_unheard : ∃ s, run (step limits) (.start 5) unheard = some s ∧
    (after (recordsOn limits (fun _ => 0) (.start 5) unheard)).framesForwarded 0 = 1 ∧
      total (step limits) (fun s e => weigh (oneOf 0) (handedOver s e)) (.start 5) unheard = 0 := by
  have hrun : ((run (step limits) (.start 5) unheard).any fun s =>
      held (oneOf 0) s == 0) = true := by decide
  obtain ⟨s, hs, hheld⟩ := (Option.any_eq_true ..).mp hrun
  have hover :
      total (step limits) (fun s e => weigh (oneOf 0) (handedOver s e)) (.start 5) unheard = 0 := by
    decide
  have hlost :
      total (step limits) (fun s e => weigh (oneOf 0) (lost s e)) (.start 5) unheard = 1 := by
    decide
  have haccounted := (forwarded_accounted limits (fun _ => 0) 5 unheard s hs 0).1
  rw [hover, hlost, eq_of_beq hheld] at haccounted
  exact ⟨s, hs, haccounted, hover⟩

/-- The rooms that a step discards. -/
def discarded (s : HubState) : Event → Nat
  | .register handle _ _ _ _ =>
    ((s.sessions.rooms.lookup handle).bind s.sessions.closedRole).elim 0 fun _ => 1
  | .disconnect c => (s.task c).elim 0 fun t =>
      if s.sessions.ownsSlot t.handle t.role c then 1 else 0
  | _ => 0

/-- The handles that a step counts. -/
def created (cfg : Config) (lasted : OutboundTx → UInt64) (s : HubState) (e : Event) : Nat :=
  ((recordsOf cfg lasted s e).map madeHandles).sum

theorem activeHandles_erase {m m' : SessionMap} {handle : Handle}
    (hrooms : m'.rooms = m.rooms.erase handle) (hmem : handle ∈ m.rooms) :
    m'.activeHandles + 1 = m.activeHandles := by
  show size m'.rooms + 1 = _
  rw [hrooms]
  exact size_erase hmem

/-- A registration discards a room of its own handle alone. -/
theorem finishTeardown_active {m : SessionMap} (hs : Seats m) (handle : Handle) :
    ((withQueue m).finishTeardown handle).activeHandles +
        (((m.rooms.lookup handle).bind m.closedRole).elim 0 fun _ => 1) =
      m.activeHandles := by
  have hsame : (withQueue m).rooms = m.rooms := rfl
  unfold SessionMap.finishTeardown
  rw [hsame]
  cases hr : m.rooms.lookup handle with
  | none => exact Nat.add_zero _
  | some room =>
    have hmem : handle ∈ m.rooms := AList.lookup_isSome.mp (by rw [hr]; rfl)
    simp only [Option.bind_some]
    rw [closedRole_withQueue hs hr]
    cases m.closedRole room with
    | none => exact Nat.add_zero _
    | some gone =>
      dsimp only
      cases room.slot gone.other with
      | none => exact activeHandles_erase rfl hmem
      | some peer => exact activeHandles_erase rfl hmem

theorem place_active {m m' : SessionMap} {tx : OutboundTx} {handle : Handle} {role : Role}
    {ip : IpAddr} {l l' : IpRateLimiter} {maxHandles now : Nat} {pairing isNew : Bool}
    (hp : m.place tx handle role ip l maxHandles pairing now = (.ok isNew, m', l')) :
    m'.activeHandles = m.activeHandles + if isNew then 1 else 0 := by
  rcases place_inv hp with ⟨rfl, hr, hroom, rfl⟩ | ⟨rfl, room, hr, -, rfl⟩
  · have hnew : isNew = true := by
      simp only [SessionMap.place, hr] at hp
      split at hp
      · cases hp
      · rw [if_neg (Nat.not_le.mpr hroom)] at hp
        cases hp
        rfl
    rw [hnew, if_pos rfl]
    exact size_insert_of_notMem (AList.lookup_eq_none.mp hr)
  · have hold : isNew = false := by
      simp only [SessionMap.place, hr] at hp
      split at hp
      · cases hp
      · split at hp
        · cases hp
        · cases hp
          rfl
    rw [hold]
    exact size_insert_of_mem (AList.lookup_isSome.mp (by rw [hr]; rfl))

/-- A registration counts a handle exactly when it makes a room. -/
theorem register_active {m m' : SessionMap} {handle : Handle} {role : Role} {ip : IpAddr}
    {l l' : IpRateLimiter} {maxHandles now : Nat} {pairing : Bool}
    {result : Except RegisterError (OutboundTx × Bool)} (hs : Seats m)
    (hr : m.register handle role ip l maxHandles pairing now = (result, m', l')) :
    m'.activeHandles +
        (((m.rooms.lookup handle).bind m.closedRole).elim 0 fun _ => 1) =
      m.activeHandles + ((registerRecords result).map madeHandles).sum := by
  have hteardown := finishTeardown_active hs handle
  rcases register_inv hr with ⟨isNew, rfl, hp⟩ | ⟨err, m₁, rfl, rfl, rfl⟩
  · have hcount : ((registerRecords (.ok (m.made, isNew))).map madeHandles).sum =
        if isNew then 1 else 0 := by
      cases isNew <;> rfl
    rw [hcount, place_active hp]
    omega
  · have hcount : ((registerRecords (.error err)).map madeHandles).sum = 0 := by
      cases err <;> rfl
    rw [hcount]
    exact hteardown

/-- A step that makes no call for a handle counts none. -/
theorem created_none (h : .handleCreated ∉ recordsOf cfg lasted s e) :
    created cfg lasted s e = 0 := by
  refine List.sum_eq_zero fun a ha => ?_
  obtain ⟨r, hmem, rfl⟩ := List.mem_map.mp ha
  cases r with
  | handleCreated => exact absurd hmem h
  | _ => rfl

theorem created_moves (he : movesRooms e = false) : created cfg lasted s e = 0 := by
  refine created_none ?_
  cases e with
  | register => cases he
  | read c frame now =>
    cases frame with
    | binary bytes =>
      rw [recordsOf]
      cases s.task c with
      | none => exact List.not_mem_nil
      | some t => simp only [Option.elim_some]; split <;> simp
    | _ => exact List.not_mem_nil
  | sinkDone c ok now =>
    rw [recordsOf]
    cases s.task c with
    | none => exact List.not_mem_nil
    | some t =>
      simp only [Option.elim_some, closeRecords]
      split
      · split <;> simp
      · exact List.not_mem_nil
  | dropInbound c => simp [recordsOf]
  | _ => exact List.not_mem_nil

/-- The active handles grow by the handles that are counted and shrink by the rooms that go. -/
theorem activeHandles_step (hl : Linked s) (h : step cfg s e = some s') :
    s'.sessions.activeHandles + discarded s e =
      s.sessions.activeHandles + created cfg lasted s e := by
  have hregister : ∀ {handle role ip pairing now result m l},
      s.sessions.register handle role ip s.handleLimiter cfg.maxHandles pairing now =
        (result, m, l) →
      m.activeHandles + discarded s (.register handle role ip pairing now) =
        s.sessions.activeHandles + created cfg lasted s (.register handle role ip pairing now) := by
    intro handle role ip pairing now result m l hr
    have hactive := register_active hl.seats hr
    rw [created, recordsOf, hr]
    exact hactive
  have hmoves := @created_moves cfg lasted s e
  cases move_of_step h with
  | refused hr => exact hregister hr
  | registered hr => exact hregister hr
  | stay he =>
    rw [hmoves he]
    cases e with
    | register | disconnect => cases he
    | _ => rfl
  | lookup | wait | sent | took | dropped =>
    rw [hmoves rfl]
    rfl
  | @disconnected c t ht hp =>
    have hcreated : created cfg lasted s (.disconnect c) = 0 := rfl
    simp only [hcreated, discarded, ht, Option.elim_some]
    rcases disconnect_cases s.sessions t.handle t.role c t.peerClose with
      ⟨he, hseat⟩ | ⟨frame, hseat, he⟩
    · rw [if_neg (fun ho => hseat ((ownsSlot_iff).mp ho))]
      exact congrArg SessionMap.activeHandles he
    · rw [if_pos ((ownsSlot_iff).mpr hseat)]
      obtain ⟨room, hr, -⟩ := hseat
      exact activeHandles_erase ((congrArg SessionMap.rooms he).trans (discard_rooms ..))
        (AList.lookup_isSome.mp (by rw [hr]; rfl))

/-- After every run, `/metrics` shows as many handles made as are active and as the steps of the
run discarded. -/
theorem handles_accounted (cfg : Config) (lasted : OutboundTx → UInt64) (n : Nat)
    (es : List Event) (s : HubState) (hr : run (step cfg) (.start n) es = some s) :
    (after (recordsOn cfg lasted (.start n) es)).handlesTotal = UInt64.ofNat
      (s.sessions.activeHandles + total (step cfg) discarded (.start n) es) := by
  have hstep : ∀ {pre s e t}, run (step cfg) (.start n) pre = some s → step cfg s e = some t →
      t.sessions.activeHandles + discarded s e =
        s.sessions.activeHandles + created cfg lasted s e :=
    fun hpre hs => activeHandles_step (linked_visits (visits_end hpre)) hs
  have hbalance := @total_balance _ _ _ _ _ _ (fun s : HubState => s.sessions.activeHandles)
    _ _ hstep hr
  have hempty : (HubState.start n).sessions.activeHandles = 0 := rfl
  rw [after_eq]
  show tally madeHandles _ = _
  rw [tally_recordsOn, hbalance, hempty, Nat.zero_add]
  rfl

/-- The Host (0) is gone without a `disconnect` when its handle is registered again. -/
def reclaimed : List Event :=
  [.register 5 .host (.v4 1) false 0, .joined 0 0, .read 0 .ended 0, .dropInbound 0,
    .register 5 .host (.v4 1) false 0]

theorem handles_accounted_reclaimed : ∃ s, run (step limits) (.start 5) reclaimed = some s ∧
    s.sessions.activeHandles = 1 ∧
      (after (recordsOn limits (fun _ => 0) (.start 5) reclaimed)).handlesTotal = 2 := by
  have hrun : ((run (step limits) (.start 5) reclaimed).any fun s =>
      s.sessions.activeHandles == 1) = true := by decide
  obtain ⟨s, hs, hactive⟩ := (Option.any_eq_true ..).mp hrun
  have hgone : total (step limits) discarded (.start 5) reclaimed = 1 := by decide
  have haccounted := handles_accounted limits (fun _ => 0) 5 reclaimed s hs
  rw [hgone, eq_of_beq hactive] at haccounted
  exact ⟨s, hs, eq_of_beq hactive, haccounted⟩

end HerdrMobile.Hub.Ledger
