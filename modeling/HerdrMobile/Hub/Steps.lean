import HerdrMobile.Hub.Relay

/-!
# What one step of the hub can do

`Move` lists the effects of a step once. `Linked` ties the handle map to the
tasks: a slot names a live connection of its own handle and role, and a queue is
closed exactly when its task dropped the receiver.
-/
namespace HerdrMobile.Hub.Steps

open Lib.Channel Lib.Run Proto.Codes Hub.Limits Hub.Session Hub.Relay

set_option autoImplicit false

variable {cfg : Config} {s s' : HubState} {e : Event} {c d p : OutboundTx} {t t' : Task}
  {m m' : SessionMap} {handle : Handle} {role : Role} {room : Room} {msg : Message}

@[simp] theorem setTask_self (s : HubState) (c : OutboundTx) (t : Task) :
    (s.setTask c t).task c = some t := if_pos rfl

theorem setTask_ne (h : d ≠ c) : (s.setTask c t).task d = s.task d := if_neg h

@[simp] theorem setTask_sessions (s : HubState) (c : OutboundTx) (t : Task) :
    (s.setTask c t).sessions = s.sessions := rfl

@[simp] theorem setChan_self (m : SessionMap) (c : OutboundTx) (q : Outbound) :
    (m.setChan c q).chan c = q := if_pos rfl

theorem setChan_ne {q : Outbound} (h : d ≠ c) : (m.setChan c q).chan d = m.chan d := if_neg h

@[simp] theorem goto_phase (t : Task) (phase : Phase) : (t.goto phase).phase = phase := rfl
@[simp] theorem other_other (r : Role) : r.other.other = r := by cases r <;> rfl
theorem other_ne (r : Role) : r.other ≠ r := by cases r <;> decide

/-- The two tasks are the same connection with the same messages taken. -/
structure SameConn (t t' : Task) : Prop where
  handle : t'.handle = t.handle
  role : t'.role = t.role
  taken : t'.taken = t.taken

/-- The events that run an operation of the map that can discard a room. -/
def movesRooms : Event → Bool
  | .register .. | .disconnect _ => true
  | _ => false

/-- The size and rate checks of a binary frame. -/
def admits (t : Task) (bytes : Bytes) (now : Nat) : Bool :=
  decide (bytes.length ≤ maxFrameBytes) && (t.limiter.allow now).1

/-- The effects of a step. `stay` covers every branch that only moves its own task
between phases in which it sends to no queue. -/
inductive Move (cfg : Config) (s : HubState) : Event → HubState → Prop
  | refused {handle : Handle} {role : Role} {ip : IpAddr} {pairing : Bool} {now : Nat}
      {err : RegisterError} {m : SessionMap} {l : IpRateLimiter} :
      s.sessions.register handle role ip s.handleLimiter cfg.maxHandles pairing now =
        (.error err, m, l) →
      Move cfg s (.register handle role ip pairing now) { s with sessions := m, handleLimiter := l }
  | registered {handle : Handle} {role : Role} {ip : IpAddr} {pairing : Bool} {now : Nat}
      {tx : OutboundTx} {isNew : Bool} {m : SessionMap} {l : IpRateLimiter} :
      s.sessions.register handle role ip s.handleLimiter cfg.maxHandles pairing now =
        (.ok (tx, isNew), m, l) →
      Move cfg s (.register handle role ip pairing now)
        ({ s with sessions := m, handleLimiter := l }.setTask tx
          ⟨handle, role, .announcing, .new cfg.frameRatePerSec now, none, none, []⟩)
  | stay {e : Event} {c : OutboundTx} {t t' : Task} : movesRooms e = false → s.task c = some t →
      t.phase.inLoop = true → t.phase.target = none → SameConn t t' →
      t'.phase.target = none → t'.phase.inLoop = true ∨ t'.phase = .exited →
      Move cfg s e (s.setTask c t')
  | lookup {c : OutboundTx} {t t' : Task} {now : Nat} {peer : OutboundTx} {bytes : Bytes} :
      s.task c = some t → t.phase = .select → SameConn t t' →
      s.sessions.peerOf t.handle t.role = some peer → t'.phase = .forward peer bytes →
      admits t bytes now = true →
      Move cfg s (.read c (.binary bytes) now) (s.setTask c t')
  | wait {c : OutboundTx} {t : Task} {peer : OutboundTx} {bytes : Bytes} {q : Outbound} :
      s.task c = some t → t.phase = .forward peer bytes →
      (s.sessions.chan peer).send c (.binary bytes) = (.pending, q) →
      Move cfg s (.pollForward c)
        ({ s with sessions := s.sessions.setChan peer q }.setTask c
          (t.goto (.awaitSpace peer bytes)))
  | sent {c : OutboundTx} {t : Task} {peer : OutboundTx} {bytes : Bytes} {r : Polled}
      {q : Outbound} : s.task c = some t → r ≠ .pending →
      (t.phase = .forward peer bytes ∧ (s.sessions.chan peer).send c (.binary bytes) = (r, q)) ∨
        (t.phase = .awaitSpace peer bytes ∧
          (s.sessions.chan peer).resume c (.binary bytes) = (r, q)) →
      Move cfg s (.pollForward c)
        ({ s with sessions := s.sessions.setChan peer q }.setTask c (t.goto .select))
  | took {c : OutboundTx} {t : Task} {msg : Message} {q : Outbound} :
      s.task c = some t → t.phase = .select → (s.sessions.chan c).recv = some (msg, q) →
      Move cfg s (.recv c)
        ({ s with sessions := s.sessions.setChan c q }.setTask c
          ({ t with taken := t.taken ++ [msg] }.goto (.sending msg)))
  | dropped {c : OutboundTx} {t : Task} : s.task c = some t → t.phase = .exited →
      Move cfg s (.dropInbound c)
        ({ s with sessions := s.sessions.setChan c (s.sessions.chan c).close }.setTask c
          (t.goto .dropped))
  | disconnected {c : OutboundTx} {t : Task} : s.task c = some t → t.phase = .dropped →
      Move cfg s (.disconnect c)
        ({ s with sessions := s.sessions.disconnect t.handle t.role c t.peerClose }.setTask c
          (t.goto .finished))

theorem allowFrame_false {len now : Nat} {tooLarge : String}
    (h : t.allowFrame len tooLarge now = (false, t')) :
    SameConn t t' ∧ ∃ frame, t'.phase = .sendClose frame := by
  unfold Task.allowFrame at h
  split at h
  · cases h
    exact ⟨⟨rfl, rfl, rfl⟩, _, rfl⟩
  · cases hl : t.limiter.allow now with
    | mk ok l =>
      cases ok <;> simp only [hl] at h <;> cases h
      exact ⟨⟨rfl, rfl, rfl⟩, _, rfl⟩

theorem allowFrame_true {len now : Nat} {tooLarge : String}
    (h : t.allowFrame len tooLarge now = (true, t')) : SameConn t t' ∧ t'.phase = t.phase := by
  unfold Task.allowFrame at h
  split at h
  · cases h
  · cases hl : t.limiter.allow now with
    | mk ok l =>
      cases ok <;> simp only [hl] at h <;> cases h
      exact ⟨⟨rfl, rfl, rfl⟩, rfl⟩

theorem allowFrame_admits {bytes : Bytes} {now : Nat} {tooLarge : String}
    (h : t.allowFrame bytes.length tooLarge now = (true, t')) : admits t bytes now = true := by
  unfold Task.allowFrame at h
  split at h
  · cases h
  · rename_i hlen
    cases hl : t.limiter.allow now with
    | mk ok l =>
      cases ok <;> simp only [hl] at h <;> cases h
      rw [admits, hl, Bool.and_true, decide_eq_true_eq]
      exact Nat.le_of_not_lt hlen

/-- A text frame never reaches a queue: the task stays in its loop. -/
theorem onText_stay (hp : t.phase = .select) (text : String) (accepted : Bool) (now : Nat) :
    SameConn t (t.onText text accepted now) ∧
      (t.onText text accepted now).phase.target = none ∧
      (t.onText text accepted now).phase.inLoop = true := by
  unfold Task.onText
  cases h : t.allowFrame text.utf8ByteSize "frame exceeds 1 MiB limit" now with
  | mk ok u =>
    cases ok with
    | false =>
      obtain ⟨hs, frame, hf⟩ := allowFrame_false h
      exact ⟨hs, by rw [hf]; rfl, by rw [hf]; rfl⟩
    | true =>
      obtain ⟨hs, hf⟩ := allowFrame_true h
      cases accepted with
      | true => exact ⟨hs, by simp only [if_true, hf, hp]; rfl, by simp only [if_true, hf, hp]; rfl⟩
      | false => exact ⟨⟨hs.handle, hs.role, hs.taken⟩, rfl, rfl⟩

theorem move_of_read {frame : Incoming} {now : Nat} (ht : s.task c = some t)
    (hp : t.phase = .select) :
    Move cfg s (.read c frame now) (s.setTask c (s.onRead t frame now)) := by
  have hl : t.phase.inLoop = true := by rw [hp]; rfl
  have hn : t.phase.target = none := by rw [hp]; rfl
  cases frame with
  | binary bytes =>
    simp only [HubState.onRead]
    cases h : t.allowFrame bytes.length "frame exceeds the 1 MiB limit" now with
    | mk ok u =>
      cases ok with
      | false =>
        obtain ⟨hs, frame, hf⟩ := allowFrame_false h
        exact .stay rfl ht hl hn hs (by rw [hf]; rfl) (Or.inl (by rw [hf]; rfl))
      | true =>
        obtain ⟨hs, hf⟩ := allowFrame_true h
        rw [hp] at hf
        simp only [HubState.lookupPeer]
        rw [hs.handle, hs.role]
        cases hpeer : s.sessions.peerOf t.handle t.role with
        | none => exact .stay rfl ht hl hn hs (by rw [hf]; rfl) (Or.inl (by rw [hf]; rfl))
        | some peer =>
          exact .lookup ht hp ⟨hs.handle, hs.role, hs.taken⟩ hpeer rfl (allowFrame_admits h)
  | text text accepted =>
    obtain ⟨hs, htarget, hloop⟩ := onText_stay hp text accepted now
    exact .stay rfl ht hl hn hs htarget (Or.inl hloop)
  | ping => exact .stay rfl ht hl hn ⟨rfl, rfl, rfl⟩ hn (Or.inl hl)
  | pong => exact .stay rfl ht hl hn ⟨rfl, rfl, rfl⟩ hn (Or.inl hl)
  | close frame => exact .stay rfl ht hl hn ⟨rfl, rfl, rfl⟩ rfl (Or.inr rfl)
  | ended => exact .stay rfl ht hl hn ⟨rfl, rfl, rfl⟩ rfl (Or.inr rfl)

theorem move_of_heartbeat {event : HeartbeatEvent} {now : Nat} (ht : s.task c = some t)
    (hp : t.phase = .select) (h : t.onHeartbeat event now = some t') :
    Move cfg s (.heartbeat c event now) (s.setTask c t') := by
  have hl : t.phase.inLoop = true := by rw [hp]; rfl
  have hn : t.phase.target = none := by rw [hp]; rfl
  cases event with
  | pingDue =>
    cases h
    exact .stay rfl ht hl hn ⟨rfl, rfl, rfl⟩ rfl (Or.inl rfl)
  | pongOverdue =>
    simp only [Task.onHeartbeat] at h
    split at h
    · cases h
    · split at h
      · cases h
        exact .stay rfl ht hl hn ⟨rfl, rfl, rfl⟩ rfl (Or.inr rfl)
      · cases h

theorem move_of_sinkDone {ok : Bool} {now : Nat} (ht : s.task c = some t)
    (h : t.onSinkDone ok now = some t') : Move cfg s (.sinkDone c ok now) (s.setTask c t') := by
  unfold Task.onSinkDone at h
  split at h
  · rename_i msg hp
    have hl : t.phase.inLoop = true := by rw [hp]; rfl
    have hn : t.phase.target = none := by rw [hp]; rfl
    cases ok with
    | true =>
      by_cases hm : msg = .ping
      · simp only [if_true, hm] at h
        cases h
        exact .stay rfl ht hl hn ⟨rfl, rfl, rfl⟩ rfl (Or.inl rfl)
      · simp only [if_true, hm, if_false] at h
        cases h
        exact .stay rfl ht hl hn ⟨rfl, rfl, rfl⟩ rfl (Or.inl rfl)
    | false =>
      cases h
      exact .stay rfl ht hl hn ⟨rfl, rfl, rfl⟩ rfl (Or.inr rfl)
  · rename_i frame hp
    cases h
    exact .stay rfl ht (by rw [hp]; rfl) (by rw [hp]; rfl) ⟨rfl, rfl, rfl⟩ rfl (Or.inr rfl)
  · cases h

theorem move_of_pollForward (ht : s.task c = some t) (h : s.pollForward c t = some s') :
    Move cfg s (.pollForward c) s' := by
  unfold HubState.pollForward at h
  split at h
  · rename_i peer bytes hp
    cases hq : (s.sessions.chan peer).send c (.binary bytes) with
    | mk r q =>
      rw [hq] at h
      cases r with
      | pending =>
        cases h
        exact .wait ht hp hq
      | delivered =>
        cases h
        exact .sent ht (by decide) (Or.inl ⟨hp, hq⟩)
      | refused =>
        cases h
        exact .sent ht (by decide) (Or.inl ⟨hp, hq⟩)
  · rename_i peer bytes hp
    cases hq : (s.sessions.chan peer).resume c (.binary bytes) with
    | mk r q =>
      rw [hq] at h
      cases r with
      | pending => cases h
      | delivered =>
        cases h
        exact .sent ht (by decide) (Or.inr ⟨hp, hq⟩)
      | refused =>
        cases h
        exact .sent ht (by decide) (Or.inr ⟨hp, hq⟩)
  · cases h

theorem move_of_step (h : step cfg s e = some s') : Move cfg s e s' := by
  cases e with
  | register handle role ip pairing now =>
    cases h
    unfold HubState.register
    split
    · rename_i err m l hr
      exact .refused hr
    · rename_i tx isNew m l hr
      exact .registered hr
  | joined c now =>
    obtain ⟨t, ht, h⟩ := Option.bind_eq_some_iff.mp h
    split at h
    · rename_i hp
      cases h
      exact .stay rfl ht (by rw [hp]; rfl) (by rw [hp]; rfl) ⟨rfl, rfl, rfl⟩ rfl (Or.inl rfl)
    · cases h
  | read c frame now =>
    obtain ⟨t, ht, h⟩ := Option.bind_eq_some_iff.mp h
    split at h
    · rename_i hp
      cases h
      exact move_of_read ht hp
    · cases h
  | pollForward c =>
    obtain ⟨t, ht, h⟩ := Option.bind_eq_some_iff.mp h
    exact move_of_pollForward ht h
  | recv c =>
    obtain ⟨t, ht, h⟩ := Option.bind_eq_some_iff.mp h
    split at h
    · rename_i hp
      unfold HubState.recv at h
      split at h
      · cases h
      · rename_i msg q hq
        cases h
        exact .took ht hp hq
    · cases h
  | heartbeat c event now =>
    obtain ⟨t, ht, h⟩ := Option.bind_eq_some_iff.mp h
    split at h
    · rename_i hp
      obtain ⟨t', ht', rfl⟩ := Option.map_eq_some_iff.mp h
      exact move_of_heartbeat ht hp ht'
    · cases h
  | sinkDone c ok now =>
    obtain ⟨t, ht, h⟩ := Option.bind_eq_some_iff.mp h
    obtain ⟨t', ht', rfl⟩ := Option.map_eq_some_iff.mp h
    exact move_of_sinkDone ht ht'
  | dropInbound c =>
    obtain ⟨t, ht, h⟩ := Option.bind_eq_some_iff.mp h
    split at h
    · rename_i hp
      cases h
      exact .dropped ht hp
    · cases h
  | disconnect c =>
    obtain ⟨t, ht, h⟩ := Option.bind_eq_some_iff.mp h
    split at h
    · rename_i hp
      cases h
      exact .disconnected ht hp
    · cases h

end HerdrMobile.Hub.Steps
