import Mathlib.Data.List.Nodup
import Mathlib.Data.List.Perm.Basic
import HerdrMobile.App.Requests
import HerdrMobile.Host.Actions

/-!
# What a Device tells of its actions

A Device with its Host. The requests of the Device go to the Host in the sessions they are
made in, the Host serves them one by one and answers, and a lost connection takes the
replies with it but not the requests. Every session has a thread of its own at the Host, so
the requests may be served in any order.
-/
namespace HerdrMobile.App.Actions

open HerdrMobile.Lib HerdrMobile.Lib.Run HerdrMobile.App.Requests HerdrMobile.Host.Actions
open HerdrMobile.Bridge.Store (DeviceStore)

set_option autoImplicit false

variable {F : Type}

/-- The listeners whose request is not repeated. -/
def acts : Listener → Bool
  | .sendHostAction | .invokeAction | .revoke => true
  | _ => false

/-- The request that a listener sends. -/
def sends : Listener → Host.Actions.Request F → Bool
  | .sendHostAction, .hostAction _ => true
  | .invokeAction, .hostAction action => action.action == .pluginInvoke
  | .revoke, .revokeDevice _ => true
  | _, _ => false

/-- The message that a response is to the Device. -/
def incoming : Response → Incoming
  | .acted (.ack payload) => .hostActionAck (payload.action == .pluginInvoke) payload.success
  | .acted (.error _) => .error
  | .revoked (.ok _) => .revokeResult
  | .revoked (.error _) => .error

structure Sent (F : Type) where
  id : Nat
  listener : Listener
  request : Host.Actions.Request F

/-- `unsent` are the actions that were refused because no link was up. A request at the Host
has the session it came in, and a reply the request that it answers. -/
structure Link (F : Type) where
  device : Device
  session : Nat
  requests : List (Sent F)
  unsent : List Nat
  toHost : List (Nat × Nat × Host.Actions.Request F)
  toDevice : List (Option Nat × Incoming)
  store : DeviceStore
  served : List (Nat × Served F)

def Link.start (store : DeviceStore) : Link F where
  device := .start
  session := 0
  requests := []
  unsent := []
  toHost := []
  toDevice := []
  store := store
  served := []

/-- `other` is what the Host sends besides: what answers no action. -/
inductive Event (F : Type) where
  | act (listener : Listener) (request : Host.Actions.Request F)
  | offline
  | device (event : Device.Event)
  | serve (index : Nat) (world : World)
  | other (answers : Option Nat) (incoming : Incoming)
  | deliver
  | drop

/-- The other things that happen on the Device. -/
def elsewhere : Device.Event → Bool
  | .message _ _ => false
  | .drop => false
  | .listen listener => !acts listener
  | _ => true

namespace Link

/-- A served request is answered in its session while that one lasts. -/
def serve (asF64 : Json F → Option F) (session id : Nat) (request : Host.Actions.Request F)
    (index : Nat) (world : World) (l : Link F) : Link F :=
  let served := Host.Actions.serve asF64 world l.store request
  { l with
    toHost := l.toHost.eraseIdx index
    toDevice :=
      if session = l.session then l.toDevice ++ [(some id, incoming served.response)]
      else l.toDevice
    store := served.after
    served := (id, served) :: l.served }

def step (asF64 : Json F → Option F) (l : Link F) : Event F → Option (Link F)
  | .act listener request =>
    if sends listener request then
      (l.device.step (.listen listener)).map fun device =>
        { l with
          device := device
          requests := ⟨l.device.nextId, listener, request⟩ :: l.requests
          toHost := l.toHost ++ [(l.session, l.device.nextId, request)] }
    else none
  | .offline =>
    some { l with
      device := { l.device with nextId := l.device.nextId + 1 }
      unsent := l.device.nextId :: l.unsent }
  | .device event =>
    if elsewhere event then
      (l.device.step event).map fun device => { l with device := device }
    else none
  | .serve index world =>
    l.toHost[index]?.map fun (session, id, request) =>
      l.serve asF64 session id request index world
  | .other answers incoming =>
    if answers.all fun id => id < l.device.nextId && l.requests.all (·.id != id) then
      some { l with toDevice := l.toDevice ++ [(answers, incoming)] }
    else none
  | .deliver =>
    match l.toDevice with
    | [] => none
    | (answers, incoming) :: rest =>
      some { l with device := l.device.onMessage answers incoming, toDevice := rest }
  | .drop =>
    some { l with device := l.device.drop, session := l.session + 1, toDevice := [] }

end Link

inductive Report where
  | applied
  | refused
  | unknown
  deriving DecidableEq

/-- What the person is told. -/
def report (s : Settled) : Report :=
  match s.cause with
  | .message _ _ => if s.ok then .applied else .refused
  | _ => .unknown

/-- What a report promises of the request under this id. -/
def Kept (l : Link F) (id : Nat) (listener : Listener) : Report → Prop
  | .applied => ∃ sent ∈ l.requests, sent.id = id ∧ sent.listener = listener ∧
      ∃ served, (id, served) ∈ l.served ∧ served.request = sent.request ∧ served.Performed
  | .refused => ∀ served, (id, served) ∈ l.served → served.Unchanged
  | .unknown => True

/-- Every report is kept, and what never left the Device is not done. -/
structure Honest (l : Link F) : Prop where
  settled : ∀ s ∈ l.device.settled, ∀ listener, s.request = .listen listener →
    acts listener = true → Kept l s.id listener (report s)
  unsent : ∀ id ∈ l.unsent, ∀ served, (id, served) ∉ l.served

/-- No failure follows a change at the Host, and no reply finds an action that it does not
answer. -/
def Meets (l : Link F) : Event F → Prop
  | .serve index world =>
    ∀ session id request, l.toHost[index]? = some (session, id, request) →
      Sound world l.store request
  | .deliver =>
    ∀ answers incoming, l.toDevice.head? = some (answers, incoming) →
      ∀ id listener, (id, listener) ∈ l.device.listeners → acts listener = true →
        (listener.onMessage incoming).isSome = true → answers = some id
  | _ => True

section Listeners

variable {d t u : Device}

/-- Nothing of a listener changes. -/
structure Quiet (d t : Device) : Prop where
  settled : ∀ s ∈ t.settled, s ∈ d.settled ∨ ∀ listener, s.request ≠ .listen listener
  listeners : t.listeners = d.listeners
  nextId : t.nextId = d.nextId

theorem Quiet.trans (h : Quiet d t) (h' : Quiet t u) : Quiet d u where
  settled s hs := by
    cases h'.settled s hs with
    | inl hold => exact h.settled s hold
    | inr hother => exact .inr hother
  listeners := h'.listeners.trans h.listeners
  nextId := h'.nextId.trans h.nextId

theorem Quiet.same (hs : t.settled = d.settled) (hl : t.listeners = d.listeners)
    (hn : t.nextId = d.nextId) : Quiet d t where
  settled _ h := .inl (hs ▸ h)
  listeners := hl
  nextId := hn

theorem Quiet.one {s : Settled} (hs : t.settled = s :: d.settled)
    (hother : ∀ listener, s.request ≠ .listen listener) (hl : t.listeners = d.listeners)
    (hn : t.nextId = d.nextId) : Quiet d t where
  settled s' h := by
    rw [hs] at h
    cases List.mem_cons.mp h with
    | inl heq => exact .inr (heq ▸ hother)
    | inr hold => exact .inl hold
  listeners := hl
  nextId := hn

theorem quiet_cancelScrollback (d : Device) : Quiet d d.cancelScrollback := by
  unfold Device.cancelScrollback
  dsimp only
  split
  · exact .same rfl rfl rfl
  · exact .one rfl nofun rfl rfl

theorem quiet_endAttach (d : Device) (ok : Bool) (cause : Cause) :
    Quiet d (d.endAttach ok cause) := by
  unfold Device.endAttach
  split
  · exact .same rfl rfl rfl
  · exact .one rfl nofun rfl rfl

theorem quiet_endFetch (d : Device) (ok : Bool) (cause : Cause) :
    Quiet d (d.endFetch ok cause) := by
  unfold Device.endFetch
  split
  · exact .same rfl rfl rfl
  · exact .one rfl nofun rfl rfl

theorem quiet_finishReply (d : Device) (id : Nat) (accepted : Bool) (cause : Cause) :
    Quiet d (d.finishReply id accepted cause) := by
  unfold Device.finishReply
  split
  · exact .same rfl rfl rfl
  · exact .one rfl nofun rfl rfl

theorem quiet_terminal (d : Device) (answers : Option Nat) (message : Incoming) :
    Quiet d (d.terminalOnMessage answers message) := by
  unfold Device.terminalOnMessage
  have hsame : Quiet d d := .same rfl rfl rfl
  cases message with
  | watchAck paneId =>
    dsimp only
    split
    · exact (quiet_endAttach d true _).trans (.same rfl rfl rfl)
    · exact hsame
  | scrollResponse paneId =>
    dsimp only
    split
    · exact quiet_endFetch d true _
    · exact hsame
  | sendInputAck paneId accepted queued =>
    dsimp only
    split
    · exact hsame
    · split
      · split
        · exact hsame
        · exact quiet_finishReply d _ accepted _
      · exact hsame
  | pong =>
    dsimp only
    split
    · exact hsame
    · split
      · exact quiet_finishReply d _ true _
      · exact hsame
  | error =>
    dsimp only
    split
    · exact quiet_finishReply d _ false _
    · exact (quiet_endAttach d false _).trans (quiet_endFetch _ false _)
  | _ => exact hsame

/-- A message settles the listeners that take it. -/
theorem message_listeners (d : Device) (answers : Option Nat) (message : Incoming) :
    (∀ s ∈ (d.onMessage answers message).settled, s ∈ d.settled ∨
      ∀ listener, s.request = .listen listener → (s.id, listener) ∈ d.listeners ∧
        listener.onMessage message = some s.ok ∧ s.cause = .message answers message) ∧
    (∀ w ∈ (d.onMessage answers message).listeners, w ∈ d.listeners) ∧
    (d.onMessage answers message).nextId = d.nextId := by
  have hquiet := quiet_terminal d answers message
  refine ⟨?_, ?_, hquiet.nextId⟩
  · intro s hs
    cases List.mem_append.mp hs with
    | inl hnew =>
      obtain ⟨w, hw, heq⟩ := List.mem_filterMap.mp hnew
      obtain ⟨ok, hok, rfl⟩ := Option.map_eq_some_iff.mp heq
      refine .inr fun listener hlistener => ?_
      cases hlistener
      exact ⟨hquiet.listeners ▸ hw, hok, rfl⟩
    | inr hold =>
      cases hquiet.settled s hold with
      | inl hold => exact .inl hold
      | inr hother => exact .inr fun listener h => absurd h (hother listener)
  · intro w hw
    exact hquiet.listeners ▸ (List.mem_filter.mp hw).1

/-- Anything but a message leaves the outcome of a listener unknown. -/
structure Unknown (d t : Device) (e : Device.Event) : Prop where
  settled : ∀ s ∈ t.settled, s ∈ d.settled ∨
    ∀ listener, s.request = .listen listener → report s = .unknown
  listeners : ∀ w ∈ t.listeners, w ∈ d.listeners ∨ (e = .listen w.2 ∧ w.1 = d.nextId)
  nextId : d.nextId ≤ t.nextId

theorem Quiet.unknown {e : Device.Event} (h : Quiet d t) : Unknown d t e where
  settled s hs := by
    cases h.settled s hs with
    | inl hold => exact .inl hold
    | inr hother => exact .inr fun listener heq => absurd heq (hother listener)
  listeners w hw := .inl (h.listeners ▸ hw)
  nextId := h.nextId.ge

theorem step_unknown {e : Device.Event} (hs : d.step e = some t)
    (hmessage : ∀ answers message, e ≠ .message answers message) : Unknown d t e := by
  cases e with
  | message answers message => exact absurd rfl (hmessage answers message)
  | attach paneId =>
    cases hs
    have hquiet := quiet_cancelScrollback d
    exact ⟨fun s h => (hquiet.settled s h).imp_right fun hother listener heq =>
        absurd heq (hother listener),
      fun w h => .inl (hquiet.listeners ▸ h), hquiet.nextId ▸ Nat.le_succ _⟩
  | detach =>
    cases hs
    have hquiet := quiet_cancelScrollback d
    exact Quiet.unknown ⟨hquiet.settled, hquiet.listeners, hquiet.nextId⟩
  | attachTimeout =>
    cases hs
    exact (quiet_endAttach d false .timeout).unknown
  | scrollTimeout =>
    cases hs
    exact (quiet_endFetch d false .timeout).unknown
  | abandonedTimeout id =>
    simp only [Device.step] at hs
    split at hs
    · cases hs
    · cases hs
      refine ⟨fun s h => ?_, fun w h => .inl h, Nat.le_refl _⟩
      cases List.mem_cons.mp h with
      | inl heq => exact .inr fun _ _ => heq ▸ rfl
      | inr hold => exact .inl hold
  | requestScrollback =>
    cases hs
    unfold Device.requestScrollback
    split
    · exact ⟨fun s h => .inl h, fun w h => .inl h, Nat.le_succ _⟩
    · exact (Quiet.same rfl rfl rfl).unknown
  | leaveHistory =>
    cases hs
    exact ⟨fun s h => .inl h, fun w h => .inl h, Nat.le_refl _⟩
  | input paneId =>
    cases hs
    exact ⟨fun s h => .inl h, fun w h => .inl h, Nat.le_succ _⟩
  | inputTimeout id =>
    cases hs
    exact (quiet_finishReply d id false .timeout).unknown
  | listen listener =>
    cases hs
    refine ⟨fun s h => .inl h, fun w h => ?_, Nat.le_succ _⟩
    cases List.mem_cons.mp h with
    | inl heq => exact .inr ⟨by rw [heq], by rw [heq]⟩
    | inr hold => exact .inl hold
  | listenTimeout id =>
    simp only [Device.step] at hs
    split at hs
    · cases hs
    · cases hs
      refine ⟨fun s h => ?_, fun w h => .inl (List.mem_filter.mp h).1, Nat.le_refl _⟩
      cases List.mem_cons.mp h with
      | inl heq => exact .inr fun _ _ => heq ▸ rfl
      | inr hold => exact .inl hold
  | drop =>
    cases hs
    refine ⟨fun s h => ?_, fun w h => absurd h List.not_mem_nil, Nat.le_refl _⟩
    cases List.mem_append.mp h with
    | inr hold => exact .inl hold
    | inl hnew =>
      refine .inr fun _ _ => ?_
      cases List.mem_append.mp hnew with
      | inl hinput =>
        obtain ⟨p, -, rfl⟩ := List.mem_map.mp hinput
        rfl
      | inr hlisten =>
        obtain ⟨w, -, rfl⟩ := List.mem_map.mp hlisten
        rfl

end Listeners

/-- What is known of a reply on its way: to an action, it is what the Host has served. -/
def Backed (l : Link F) (answers : Option Nat) (message : Incoming) : Prop :=
  ∀ id, answers = some id → id < l.device.nextId ∧ ∀ sent ∈ l.requests, sent.id = id →
    ∃ served, (id, served) ∈ l.served ∧ message = incoming served.response

/-- The ids at the Host, served or not. -/
def hostIds (l : Link F) : List Nat := l.served.map Prod.fst ++ l.toHost.map fun p => p.2.1

/-- The requests have their own ids, each is served at most once, and what the Host serves is
what was sent. -/
structure Inv (l : Link F) : Prop where
  fresh : ∀ sent ∈ l.requests, sent.id < l.device.nextId
  once : (l.requests.map Sent.id).Nodup
  atHost : ∀ p ∈ l.toHost, ∃ sent ∈ l.requests, sent.id = p.2.1 ∧ sent.request = p.2.2
  wasHost : ∀ p ∈ l.served, ∃ sent ∈ l.requests, sent.id = p.1 ∧ sent.request = p.2.request
  servedOnce : (hostIds l).Nodup
  unsent : ∀ id ∈ l.unsent, id < l.device.nextId ∧ ∀ sent ∈ l.requests, sent.id ≠ id
  replies : ∀ m ∈ l.toDevice, Backed l m.1 m.2
  waiting : ∀ w ∈ l.device.listeners, acts w.2 = true →
    ∃ sent ∈ l.requests, sent.id = w.1 ∧ sent.listener = w.2
  told : ∀ p ∈ l.served, (p.2.failed = false → p.2.Performed) ∧
    (p.2.failed = true → p.2.Unchanged)
  settled : ∀ s ∈ l.device.settled, ∀ listener, s.request = .listen listener →
    acts listener = true → report s = .unknown ∨
      ∃ sent ∈ l.requests, sent.id = s.id ∧ sent.listener = listener ∧
        ∃ served, (s.id, served) ∈ l.served ∧ (report s = .applied → served.failed = false) ∧
          (report s = .refused → served.failed = true)

section Inv

variable {l t : Link F} {asF64 : Json F → Option F}

/-- A listener that takes a message fails with an error and with nothing else. -/
theorem onMessage_error {listener : Listener} {message : Incoming} {ok : Bool}
    (h : listener.onMessage message = some ok) : (ok = false ↔ message = .error) := by
  unfold Listener.onMessage at h
  split at h
  · cases h
    exact ⟨fun _ => rfl, fun _ => rfl⟩
  all_goals
    cases h <;> exact ⟨nofun, nofun⟩

theorem incoming_error (response : Response) :
    incoming response = .error ↔ response.isError = true := by
  rcases response with (payload | cause) | (cause | result)
  · exact ⟨nofun, nofun⟩
  · exact ⟨fun _ => rfl, fun _ => rfl⟩
  · exact ⟨fun _ => rfl, fun _ => rfl⟩
  · exact ⟨nofun, nofun⟩

theorem inv_start (store : DeviceStore) : Inv (Link.start store : Link F) where
  fresh _ h := absurd h List.not_mem_nil
  once := List.nodup_nil
  atHost _ h := absurd h List.not_mem_nil
  wasHost _ h := absurd h List.not_mem_nil
  servedOnce := List.nodup_nil
  unsent _ h := absurd h List.not_mem_nil
  replies _ h := absurd h List.not_mem_nil
  waiting _ h := absurd h List.not_mem_nil
  told _ h := absurd h List.not_mem_nil
  settled _ h := absurd h List.not_mem_nil

/-- A step of the Device that settles nothing but unknown outcomes. -/
theorem Inv.device (h : Inv l) {device : Device} {e : Device.Event}
    (hu : Unknown l.device device e)
    (hlisten : ∀ listener, e = .listen listener → acts listener = false) :
    Inv { l with device := device } where
  fresh sent hmem := lt_of_lt_of_le (h.fresh sent hmem) hu.nextId
  once := h.once
  atHost := h.atHost
  wasHost := h.wasHost
  servedOnce := h.servedOnce
  unsent id hmem := ⟨lt_of_lt_of_le (h.unsent id hmem).1 hu.nextId, (h.unsent id hmem).2⟩
  replies m hmem id hid :=
    ⟨lt_of_lt_of_le (h.replies m hmem id hid).1 hu.nextId, (h.replies m hmem id hid).2⟩
  waiting w hmem hacts := by
    cases hu.listeners w hmem with
    | inl hold => exact h.waiting w hold hacts
    | inr hnew =>
      rw [hlisten w.2 hnew.1] at hacts
      cases hacts
  told := h.told
  settled s hmem listener hlistener hacts := by
    cases hu.settled s hmem with
    | inl hold => exact h.settled s hold listener hlistener hacts
    | inr hunknown => exact .inl (hunknown listener hlistener)

theorem Inv.hostIds_sent (h : Inv l) {id : Nat} (hmem : id ∈ hostIds l) :
    ∃ sent ∈ l.requests, sent.id = id := by
  cases List.mem_append.mp hmem with
  | inl hserved =>
    obtain ⟨p, hp, rfl⟩ := List.mem_map.mp hserved
    obtain ⟨sent, hsent, hid, -⟩ := h.wasHost p hp
    exact ⟨sent, hsent, hid⟩
  | inr hwaits =>
    obtain ⟨p, hp, rfl⟩ := List.mem_map.mp hwaits
    obtain ⟨sent, hsent, hid, -⟩ := h.atHost p hp
    exact ⟨sent, hsent, hid⟩

/-- An action is sent. -/
theorem Inv.act (h : Inv l) {listener : Listener} {request : Host.Actions.Request F}
    {device : Device} (hs : l.device.step (.listen listener) = some device) :
    Inv { l with
      device := device
      requests := ⟨l.device.nextId, listener, request⟩ :: l.requests
      toHost := l.toHost ++ [(l.session, l.device.nextId, request)] } := by
  cases hs
  refine ⟨?fresh, ?once, ?atHost, ?wasHost, ?servedOnce, ?unsent, ?replies, ?waiting, h.told,
    ?settled⟩
  case fresh =>
    intro sent hmem
    cases List.mem_cons.mp hmem with
    | inl heq =>
      rw [heq]
      exact Nat.lt_succ_self _
    | inr hold => exact Nat.lt_succ_of_lt (h.fresh sent hold)
  case once =>
    refine List.nodup_cons.mpr ⟨fun hmem => ?_, h.once⟩
    obtain ⟨sent, hsent, hid⟩ := List.mem_map.mp hmem
    exact absurd hid (Nat.ne_of_lt (h.fresh sent hsent))
  case atHost =>
    intro p hmem
    cases List.mem_append.mp hmem with
    | inl hold =>
      obtain ⟨sent, hsent, hsame⟩ := h.atHost p hold
      exact ⟨sent, List.mem_cons_of_mem _ hsent, hsame⟩
    | inr hnew =>
      cases List.mem_singleton.mp hnew
      exact ⟨_, List.mem_cons_self, rfl, rfl⟩
  case wasHost =>
    intro p hmem
    obtain ⟨sent, hsent, hsame⟩ := h.wasHost p hmem
    exact ⟨sent, List.mem_cons_of_mem _ hsent, hsame⟩
  case servedOnce =>
    have hids : hostIds { l with toHost := l.toHost ++ [(l.session, l.device.nextId, request)] } =
        hostIds l ++ [l.device.nextId] := by
      simp [hostIds]
    refine hids ▸ List.nodup_append.mpr ⟨h.servedOnce, List.nodup_singleton _, ?_⟩
    intro id hid id' hid' heq
    cases List.mem_singleton.mp hid'
    obtain ⟨sent, hsent, hsame⟩ := h.hostIds_sent hid
    have hlt := h.fresh sent hsent
    omega
  case unsent =>
    intro id hmem
    obtain ⟨hlt, hnone⟩ := h.unsent id hmem
    refine ⟨Nat.lt_succ_of_lt hlt, fun sent hsent => ?_⟩
    cases List.mem_cons.mp hsent with
    | inl heq => exact heq ▸ (Nat.ne_of_lt hlt).symm
    | inr hold => exact hnone sent hold
  case replies =>
    intro m hmem id hid
    obtain ⟨hlt, hbacked⟩ := h.replies m hmem id hid
    refine ⟨Nat.lt_succ_of_lt hlt, fun sent hsent hsame => ?_⟩
    cases List.mem_cons.mp hsent with
    | inl heq =>
      rw [heq] at hsame
      exact absurd hsame (Nat.ne_of_lt hlt).symm
    | inr hold => exact hbacked sent hold hsame
  case waiting =>
    intro w hmem hacts
    cases List.mem_cons.mp hmem with
    | inl heq => exact ⟨_, List.mem_cons_self, by rw [heq], by rw [heq]⟩
    | inr hold =>
      obtain ⟨sent, hsent, hsame⟩ := h.waiting w hold hacts
      exact ⟨sent, List.mem_cons_of_mem _ hsent, hsame⟩
  case settled =>
    intro s hmem listener' hlistener hacts
    cases h.settled s hmem listener' hlistener hacts with
    | inl hunknown => exact .inl hunknown
    | inr hknown =>
      obtain ⟨sent, hsent, hrest⟩ := hknown
      exact .inr ⟨sent, List.mem_cons_of_mem _ hsent, hrest⟩

/-- An action that finds no link up keeps its id to itself. -/
theorem Inv.offline (h : Inv l) :
    Inv { l with
      device := { l.device with nextId := l.device.nextId + 1 }
      unsent := l.device.nextId :: l.unsent } := by
  refine ⟨fun sent hmem => Nat.lt_succ_of_lt (h.fresh sent hmem), h.once, h.atHost, h.wasHost,
    h.servedOnce, ?_, ?_, h.waiting, h.told, h.settled⟩
  · intro id hmem
    cases List.mem_cons.mp hmem with
    | inl heq =>
      rw [heq]
      exact ⟨Nat.lt_succ_self _, fun sent hsent => Nat.ne_of_lt (h.fresh sent hsent)⟩
    | inr hold => exact ⟨Nat.lt_succ_of_lt (h.unsent id hold).1, (h.unsent id hold).2⟩
  · intro m hmem id hid
    exact ⟨Nat.lt_succ_of_lt (h.replies m hmem id hid).1, (h.replies m hmem id hid).2⟩

/-- The Host serves a request. -/
theorem Inv.serve (h : Inv l) {index session id : Nat} {request : Host.Actions.Request F}
    {world : World} (hat : l.toHost[index]? = some (session, id, request))
    (hsound : Sound world l.store request) :
    Inv (l.serve asF64 session id request index world) := by
  obtain ⟨sent, hsent, hid, hrequest⟩ := h.atHost _ (List.mem_of_getElem? hat)
  have hsame : (Host.Actions.serve asF64 world l.store request).request = request :=
    serve_request
  refine ⟨h.fresh, h.once, ?atHost, ?wasHost, ?servedOnce, ?unsent, ?replies, h.waiting, ?told,
    ?settled⟩
  case atHost =>
    intro p hmem
    exact h.atHost p (List.mem_of_mem_eraseIdx hmem)
  case wasHost =>
    intro p hmem
    cases List.mem_cons.mp hmem with
    | inl heq =>
      rw [heq, hsame]
      exact ⟨sent, hsent, hid, hrequest⟩
    | inr hold => exact h.wasHost p hold
  case servedOnce =>
    have hperm : List.Perm (hostIds (l.serve asF64 session id request index world))
        (hostIds l) := by
      obtain ⟨hlt, hget⟩ := List.getElem?_eq_some_iff.mp hat
      have herase := (List.getElem_cons_eraseIdx_perm hlt).map fun p => p.2.1
      rw [hget] at herase
      exact List.perm_middle.symm.trans (herase.append_left (l.served.map Prod.fst))
    exact hperm.nodup_iff.mpr h.servedOnce
  case unsent => exact h.unsent
  case replies =>
    have hold : ∀ m ∈ l.toDevice,
        Backed (l.serve asF64 session id request index world) m.1 m.2 := by
      intro m hmem id' hid'
      obtain ⟨hlt, hbacked⟩ := h.replies m hmem id' hid'
      refine ⟨hlt, fun sent' hsent' hsame' => ?_⟩
      obtain ⟨served, hserved, hmessage⟩ := hbacked sent' hsent' hsame'
      exact ⟨served, List.mem_cons_of_mem _ hserved, hmessage⟩
    intro m hmem
    unfold Link.serve at hmem
    dsimp only at hmem
    split at hmem
    · cases List.mem_append.mp hmem with
      | inl hmem => exact hold m hmem
      | inr hnew =>
        cases List.mem_singleton.mp hnew
        intro id' hid'
        cases hid'
        refine ⟨?_, fun _ _ _ => ⟨_, List.mem_cons_self, rfl⟩⟩
        have hid : sent.id = id := hid
        exact hid ▸ h.fresh sent hsent
    · exact hold m hmem
  case told =>
    intro p hmem
    cases List.mem_cons.mp hmem with
    | inl heq =>
      rw [heq]
      exact ⟨serve_performed, serve_unchanged_iff.mpr hsound⟩
    | inr hold => exact h.told p hold
  case settled =>
    intro s hmem listener hlistener hacts
    cases h.settled s hmem listener hlistener hacts with
    | inl hunknown => exact .inl hunknown
    | inr hknown =>
      obtain ⟨sent', hsent', hid', hlistener', served, hserved, htold⟩ := hknown
      exact .inr ⟨sent', hsent', hid', hlistener', served, List.mem_cons_of_mem _ hserved, htold⟩

/-- A reply is delivered, and no action takes it but the one that it answers. -/
theorem Inv.deliver (h : Inv l) {answers : Option Nat} {message : Incoming}
    {rest : List (Option Nat × Incoming)} (hdevice : l.toDevice = (answers, message) :: rest)
    (hclear : ∀ id listener, (id, listener) ∈ l.device.listeners → acts listener = true →
      (listener.onMessage message).isSome = true → answers = some id) :
    Inv { l with device := l.device.onMessage answers message, toDevice := rest } := by
  obtain ⟨hsettled, hlisteners, hnext⟩ := message_listeners l.device answers message
  have hlt : ∀ id, id < l.device.nextId → id < (l.device.onMessage answers message).nextId :=
    fun id hid => hnext ▸ hid
  refine ⟨fun sent hmem => hlt _ (h.fresh sent hmem), h.once, h.atHost, h.wasHost, h.servedOnce,
    fun id hmem => ⟨hlt _ (h.unsent id hmem).1, (h.unsent id hmem).2⟩, ?_,
    fun w hmem => h.waiting w (hlisteners w hmem), h.told, ?_⟩
  · intro m hmem id hid
    have hold := h.replies m (hdevice ▸ List.mem_cons_of_mem _ hmem) id hid
    exact ⟨hlt _ hold.1, hold.2⟩
  · intro s hmem listener hlistener hacts
    cases hsettled s hmem with
    | inl hold => exact h.settled s hold listener hlistener hacts
    | inr hnew =>
      obtain ⟨hwait, hok, hcause⟩ := hnew listener hlistener
      obtain ⟨sent, hsent, hid, hsame⟩ := h.waiting _ hwait hacts
      have hanswers := hclear s.id listener hwait hacts (by rw [hok]; rfl)
      have hbacked := h.replies (answers, message) (hdevice ▸ List.mem_cons_self) s.id hanswers
      obtain ⟨served, hserved, hmessage⟩ := hbacked.2 sent hsent hid
      have herror : s.ok = false ↔ served.failed = true := by
        have hmessage : message = incoming served.response := hmessage
        rw [onMessage_error hok, hmessage]
        exact incoming_error served.response
      refine .inr ⟨sent, hsent, hid, hsame, served, hserved, ?_⟩
      unfold report
      rw [hcause]
      cases hfailed : served.failed with
      | true =>
        rw [herror.mpr hfailed]
        exact ⟨nofun, fun _ => rfl⟩
      | false =>
        have hsucceeded : s.ok = true := by
          rw [← Bool.not_eq_false, herror, hfailed]
          nofun
        rw [hsucceeded]
        exact ⟨fun _ => rfl, nofun⟩

theorem inv_step {e : Event F} (h : Inv l) (hmeets : Meets l e) (hs : l.step asF64 e = some t) :
    Inv t := by
  cases e with
  | act listener request =>
    simp only [Link.step] at hs
    split at hs
    · obtain ⟨device, hdevice, rfl⟩ := Option.map_eq_some_iff.mp hs
      exact h.act hdevice
    · cases hs
  | offline =>
    cases hs
    exact h.offline
  | device event =>
    simp only [Link.step] at hs
    split at hs
    · rename_i helse
      obtain ⟨device, hdevice, rfl⟩ := Option.map_eq_some_iff.mp hs
      refine h.device (step_unknown hdevice ?_) ?_
      · rintro answers message rfl
        cases helse
      · rintro listener rfl
        simpa [elsewhere] using helse
    · cases hs
  | serve index world =>
    simp only [Link.step] at hs
    obtain ⟨⟨session, id, request⟩, hat, rfl⟩ := Option.map_eq_some_iff.mp hs
    exact h.serve hat (hmeets session id request hat)
  | other answers message =>
    simp only [Link.step] at hs
    split at hs
    · rename_i hfree
      cases hs
      refine ⟨h.fresh, h.once, h.atHost, h.wasHost, h.servedOnce, h.unsent, ?_, h.waiting,
        h.told, h.settled⟩
      intro m hmem
      cases List.mem_append.mp hmem with
      | inl hold => exact h.replies m hold
      | inr hnew =>
        cases List.mem_singleton.mp hnew
        rintro id rfl
        have hfree : id < l.device.nextId ∧ ∀ sent ∈ l.requests, sent.id ≠ id := by
          simpa using hfree
        exact ⟨hfree.1, fun sent hsent hid => absurd hid (hfree.2 sent hsent)⟩
    · cases hs
  | deliver =>
    simp only [Link.step] at hs
    split at hs
    · cases hs
    · rename_i answers message rest hdevice
      cases hs
      refine h.deliver hdevice (hmeets answers message ?_)
      rw [hdevice]
      rfl
  | drop =>
    cases hs
    have hdrop : l.device.step .drop = some l.device.drop := rfl
    have hafter := h.device (step_unknown hdrop nofun) nofun
    exact ⟨hafter.fresh, h.once, h.atHost, h.wasHost, h.servedOnce, hafter.unsent, nofun,
      hafter.waiting, h.told, hafter.settled⟩

theorem Inv.honest (h : Inv l) : Honest l where
  settled s hmem listener hlistener hacts := by
    cases h.settled s hmem listener hlistener hacts with
    | inl hunknown =>
      rw [hunknown]
      trivial
    | inr hknown =>
      obtain ⟨sent, hsent, hid, hlistener, served, hserved, happlied, hrefused⟩ := hknown
      cases hreport : report s with
      | unknown => trivial
      | applied =>
        refine ⟨sent, hsent, hid, hlistener, served, hserved, ?_,
          (h.told _ hserved).1 (happlied hreport)⟩
        obtain ⟨sent', hsent', hid', hsame⟩ := h.wasHost _ hserved
        have hone : sent' = sent :=
          List.inj_on_of_nodup_map h.once hsent' hsent (hid'.trans hid.symm)
        rw [← hone, hsame]
      | refused =>
        intro served' hserved'
        have hone : (s.id, served') = (s.id, served) :=
          List.inj_on_of_nodup_map (List.nodup_append.mp h.servedOnce).1 hserved' hserved rfl
        cases hone
        exact (h.told _ hserved).2 (hrefused hreport)
  unsent id hmem served hserved := by
    obtain ⟨sent, hsent, hid, -⟩ := h.wasHost _ hserved
    exact (h.unsent id hmem).2 sent hsent hid

end Inv

/-- The agent's pane is closed, with an empty list of devices at the Host. -/
def closing : List (Event Empty) :=
  [ .act .sendHostAction (.hostAction ⟨.close, some "p".toList, none, none, none, none, none⟩),
    .serve 0 ⟨⟨.done [], .error .herdr, .error .herdr, .error .herdr⟩, true, true⟩,
    .deliver ]

end HerdrMobile.App.Actions
