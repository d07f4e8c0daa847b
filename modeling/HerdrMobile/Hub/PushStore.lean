import Mathlib.Data.UInt
import HerdrMobile.Hub.Session
import HerdrMobile.Lib.Run
import HerdrMobile.Lib.Table
import HerdrMobile.Proto.Messages

/-!
# Push registrations

One registration for each handle, at most 4096 of them, numbered by a generation. A wake
starts a delivery, which runs beside everything else; when the provider says that the
token is gone, the registration goes if it still is the one the delivery was started
from. The providers are a parameter. The counters of the metrics are not modelled.
-/
namespace HerdrMobile.Hub.PushStore

open Lib.Run Lib.Table Hub.Limits Hub.Session
open Proto.Messages (Platform)

set_option autoImplicit false

def capacity : Nat := 4096

/-- R-11-246. -/
def collapse : Nat := 30 * second

/-- The control messages of a connection to the relay itself. -/
inductive RelayMessage where
  | pushRegister (platform : Platform) (token : String)
  | pushUnregister
  | pushWake

structure Entry where
  platform : Platform
  token : String
  generation : UInt64
  lastSent : Option Nat
  deriving DecidableEq

structure Store where
  entries : AList fun _ : Handle => Entry
  generation : UInt64

namespace Store

def empty : Store := ⟨∅, 0⟩

def oldest (s : Store) : Option Handle := least (fun entry => entry.generation.toNat) s.entries

/-- The entries after the eviction that makes room for a new handle. -/
def makeRoom (s : Store) (handle : Handle) : AList fun _ : Handle => Entry :=
  if size s.entries = capacity ∧ handle ∉ s.entries then
    match s.oldest with
    | some oldest => s.entries.erase oldest
    | none => s.entries
  else s.entries

/-- The generation wraps as the `u64` of a release build does. -/
def register (s : Store) (handle : Handle) (platform : Platform) (token : String) : Store :=
  let lastSent := (s.entries.lookup handle).bind Entry.lastSent
  let generation := s.generation + 1
  ⟨(s.makeRoom handle).insert handle ⟨platform, token, generation, lastSent⟩, generation⟩

def unregister (s : Store) (handle : Handle) : Store :=
  { s with entries := s.entries.erase handle }

def takeWake (s : Store) (handle : Handle) (now : Nat) :
    Option (Platform × String × UInt64) × Store :=
  match s.entries.lookup handle with
  | none => (none, s)
  | some entry =>
    if entry.lastSent.any fun last => now - last < collapse then (none, s)
    else (some (entry.platform, entry.token, entry.generation),
      { s with entries := s.entries.insert handle { entry with lastSent := some now } })

def removeGeneration (s : Store) (handle : Handle) (generation : UInt64) : Store :=
  if (s.entries.lookup handle).any fun entry => entry.generation == generation then
    s.unregister handle
  else s

end Store

/-- What `Providers` tells of its configuration. -/
structure Providers where
  enabled : Bool
  supports : Platform → Bool

/-- A push on its way to a provider. -/
structure Delivery where
  handle : Handle
  platform : Platform
  token : String
  generation : UInt64
  deriving DecidableEq

structure Push where
  store : Store
  deliveries : List Delivery

def Push.start : Push := ⟨.empty, []⟩

/-- The role check of a frame; `none` is one that is no `RelayMessage`. -/
def parse (frame : Option RelayMessage) (role : Role) : Except Unit RelayMessage :=
  match frame, role with
  | some (.pushRegister platform token), .device =>
    if token ≠ "" ∧ token.utf8ByteSize ≤ 4096 then .ok (.pushRegister platform token) else .error ()
  | some .pushUnregister, .device => .ok .pushUnregister
  | some .pushWake, .host => .ok .pushWake
  | _, _ => .error ()

/-- `joined` says that the Device is in the room and its queue is open. -/
def receive (providers : Providers) (frame : Option RelayMessage) (handle : Handle) (role : Role)
    (joined : Bool) (now : Nat) (p : Push) : Except Unit Unit × Push :=
  match parse frame role with
  | .error () => (.error (), p)
  | .ok frame =>
    if !providers.enabled then (.ok (), p)
    else
      match frame with
      | .pushRegister platform token =>
        if providers.supports platform then
          (.ok (), { p with store := p.store.register handle platform token })
        else (.ok (), p)
      | .pushUnregister => (.ok (), { p with store := p.store.unregister handle })
      | .pushWake =>
        if joined then (.ok (), p)
        else
          match p.store.takeWake handle now with
          | (none, store) => (.ok (), { p with store := store })
          | (some (platform, token, generation), store) =>
            (.ok (), ⟨store, p.deliveries ++ [⟨handle, platform, token, generation⟩]⟩)

inductive Event where
  | receive (frame : Option RelayMessage) (handle : Handle) (role : Role) (joined : Bool) (now : Nat)
  /-- The provider answered; `gone` is its word that the token is no longer in use. -/
  | answered (delivery : Delivery) (gone : Bool)

def step (providers : Providers) (p : Push) : Event → Option Push
  | .receive frame handle role joined now =>
    some (receive providers frame handle role joined now p).2
  | .answered delivery gone =>
    if delivery ∈ p.deliveries then
      some ⟨if gone then p.store.removeGeneration delivery.handle delivery.generation else p.store,
        p.deliveries.erase delivery⟩
    else none

/-- The registration that the event makes. -/
def registers (providers : Providers) : Event → Option (Handle × Platform × String)
  | .receive frame handle role _ _ =>
    match parse frame role with
    | .ok (.pushRegister platform token) =>
      if providers.enabled && providers.supports platform then some (handle, platform, token)
      else none
    | _ => none
  | .answered _ _ => none

/-- The event gets as far as `take_wake` of this handle, at this time. -/
def wakes (providers : Providers) : Event → Option (Handle × Nat)
  | .receive frame handle role joined now =>
    match parse frame role with
    | .ok .pushWake => if providers.enabled && !joined then some (handle, now) else none
    | _ => none
  | .answered _ _ => none

/-- The push that the event releases: its handle, its time and its delivery. -/
def released (providers : Providers) (p : Push) (e : Event) : Option (Handle × Nat × Delivery) :=
  (wakes providers e).bind fun wake => (p.store.takeWake wake.1 wake.2).1.map fun push =>
    (wake.1, wake.2, ⟨wake.1, push.1, push.2.1, push.2.2⟩)

variable {providers : Providers} {p p' : Push} {e : Event} {handle h : Handle} {now : Nat}
  {platform : Platform} {token : String} {entry : Entry}

/-- The last push of the entry is less than 30 seconds ago. -/
def Entry.recent (entry : Entry) (now : Nat) : Bool :=
  entry.lastSent.any fun last => now - last < collapse

inductive Move (providers : Providers) (p : Push) (e : Event) : Push → Prop
  | registered (handle : Handle) (platform : Platform) (token : String) :
      registers providers e = some (handle, platform, token) → released providers p e = none →
      Move providers p e ⟨p.store.register handle platform token, p.deliveries⟩
  | unregistered (handle : Handle) :
      registers providers e = none → released providers p e = none →
      Move providers p e ⟨p.store.unregister handle, p.deliveries⟩
  | woken (handle : Handle) (now : Nat) (entry : Entry) :
      registers providers e = none → wakes providers e = some (handle, now) →
      p.store.entries.lookup handle = some entry → entry.recent now = false →
      released providers p e
        = some (handle, now, ⟨handle, entry.platform, entry.token, entry.generation⟩) →
      Move providers p e ⟨{ p.store with
          entries := p.store.entries.insert handle { entry with lastSent := some now } },
        p.deliveries ++ [⟨handle, entry.platform, entry.token, entry.generation⟩]⟩
  | failed (delivery : Delivery) (entry : Entry) : delivery ∈ p.deliveries →
      registers providers e = none → released providers p e = none →
      p.store.entries.lookup delivery.handle = some entry → entry.generation = delivery.generation →
      Move providers p e ⟨p.store.unregister delivery.handle, p.deliveries.erase delivery⟩
  | still (deliveries : List Delivery) : deliveries.Sublist p.deliveries →
      registers providers e = none → released providers p e = none →
      Move providers p e ⟨p.store, deliveries⟩

theorem takeWake_cases (s : Store) (handle : Handle) (now : Nat) :
    (s.takeWake handle now = (none, s) ∧
      ∀ entry, s.entries.lookup handle = some entry → entry.recent now = true) ∨
    ∃ entry, s.entries.lookup handle = some entry ∧ entry.recent now = false ∧
      s.takeWake handle now = (some (entry.platform, entry.token, entry.generation),
        { s with entries := s.entries.insert handle { entry with lastSent := some now } }) := by
  unfold Store.takeWake
  cases hl : s.entries.lookup handle with
  | none => exact Or.inl ⟨rfl, fun entry h => nomatch h⟩
  | some entry =>
    dsimp only
    by_cases hr : entry.recent now = true
    · left
      rw [← Entry.recent, if_pos hr]
      refine ⟨rfl, fun entry' h => ?_⟩
      cases h
      exact hr
    · right
      refine ⟨entry, rfl, Bool.eq_false_iff.mpr hr, ?_⟩
      rw [← Entry.recent, if_neg hr]

theorem released_delivery {delivery : Delivery} {now : Nat}
    (hrel : released providers p e = some (h, now, delivery)) :
    wakes providers e = some (h, now) ∧ delivery.handle = h ∧
      ∃ entry, p.store.entries.lookup h = some entry ∧ entry.recent now = false ∧
        entry.generation = delivery.generation := by
  obtain ⟨⟨handle, now'⟩, hw, hrel⟩ := Option.bind_eq_some_iff.mp hrel
  obtain ⟨⟨platform, token, generation⟩, htake, hpush⟩ := Option.map_eq_some_iff.mp hrel
  simp only [Prod.mk.injEq] at hpush
  obtain ⟨rfl, rfl, rfl⟩ := hpush
  rcases takeWake_cases p.store handle now' with ⟨ht, -⟩ | ⟨entry, hl, hr, ht⟩
  · rw [ht] at htake
    cases htake
  · rw [ht] at htake
    cases htake
    exact ⟨hw, rfl, entry, hl, hr, rfl⟩

theorem removeGeneration_cases (s : Store) (handle : Handle) (generation : UInt64) :
    s.removeGeneration handle generation = s ∨
    ∃ entry, s.entries.lookup handle = some entry ∧ entry.generation = generation ∧
      s.removeGeneration handle generation = s.unregister handle := by
  unfold Store.removeGeneration
  cases hl : s.entries.lookup handle with
  | none => exact Or.inl rfl
  | some entry =>
    by_cases hg : entry.generation = generation
    · exact Or.inr ⟨entry, rfl, hg, if_pos (by simpa using hg)⟩
    · exact Or.inl (if_neg (by simpa using hg))

theorem move_of_step (hs : step providers p e = some p') : Move providers p e p' := by
  cases e with
  | receive frame handle role joined now =>
    obtain rfl := Option.some.inj hs
    unfold receive
    cases hf : parse frame role with
    | error u =>
      exact .still _ (List.Sublist.refl _) (by simp [registers, hf]) (by simp [released, wakes, hf])
    | ok message =>
      dsimp only
      by_cases hon : providers.enabled = true
      · rw [hon]
        cases message with
        | pushRegister platform token =>
          have hno : released providers p (.receive frame handle role joined now) = none := by
            simp [released, wakes, hf]
          by_cases hsup : providers.supports platform = true
          · simp only [Bool.not_true, Bool.false_eq_true, if_false, hsup, if_true]
            exact .registered handle platform token (by simp [registers, hf, hon, hsup]) hno
          · simp only [Bool.not_true, Bool.false_eq_true, if_false, hsup]
            exact .still _ (List.Sublist.refl _) (by simp [registers, hf, hsup]) hno
        | pushUnregister =>
          exact .unregistered handle (by simp [registers, hf]) (by simp [released, wakes, hf])
        | pushWake =>
          have hreg : registers providers (.receive frame handle role joined now) = none := by
            simp [registers, hf]
          cases joined with
          | true =>
            exact .still _ (List.Sublist.refl _) hreg (by simp [released, wakes, hf])
          | false =>
            have hw : wakes providers (.receive frame handle role false now)
                = some (handle, now) := by simp [wakes, hf, hon]
            simp only [Bool.not_true, Bool.false_eq_true, if_false]
            rcases takeWake_cases p.store handle now with ⟨ht, -⟩ | ⟨entry, hl, hr, ht⟩
            · rw [ht]
              exact .still _ (List.Sublist.refl _) hreg (by simp [released, hw, ht])
            · rw [ht]
              exact .woken handle now entry hreg hw hl hr (by simp [released, hw, ht])
      · rw [Bool.eq_false_iff.mpr hon]
        refine .still _ (List.Sublist.refl _) ?_ ?_
        · cases message <;> simp [registers, hf, hon]
        · cases message <;> simp [released, wakes, hf, hon]
  | answered delivery gone =>
    simp only [step] at hs
    split at hs
    · next hmem =>
      obtain rfl := Option.some.inj hs
      cases gone with
      | false => exact .still _ List.erase_sublist rfl rfl
      | true =>
        simp only [if_true]
        rcases removeGeneration_cases p.store delivery.handle delivery.generation with
          he | ⟨entry, hl, hg, he⟩
        · rw [he]
          exact .still _ List.erase_sublist rfl rfl
        · rw [he]
          exact .failed delivery entry hmem rfl rfl hl hg
    · cases hs

theorem makeRoom_lookup {s : Store} (hl : (s.makeRoom handle).lookup h = some entry) :
    s.entries.lookup h = some entry := by
  unfold Store.makeRoom at hl
  split at hl
  · split at hl
    · exact (lookup_erase_some hl).2
    · exact hl
  · exact hl

/-- Without an eviction there is room as it is. -/
theorem makeRoom_of_not {s : Store} (hn : ¬(size s.entries = capacity ∧ handle ∉ s.entries)) :
    s.makeRoom handle = s.entries := if_neg hn

/-- What is evicted is the entry with the least generation. -/
theorem makeRoom_full {s : Store} (hfull : size s.entries = capacity) (hnew : handle ∉ s.entries) :
    ∃ oldest entry, s.entries.lookup oldest = some entry ∧
      (∀ h e, s.entries.lookup h = some e → entry.generation.toNat ≤ e.generation.toNat) ∧
      s.makeRoom handle = s.entries.erase oldest := by
  obtain ⟨oldest, ho⟩ : ∃ oldest, s.oldest = some oldest := by
    refine least_of_pos ?_
    rw [hfull]
    decide
  obtain ⟨entry, hl, hleast⟩ := least_spec ho
  refine ⟨oldest, entry, hl, hleast, ?_⟩
  unfold Store.makeRoom
  rw [if_pos ⟨hfull, hnew⟩, ho]

/-- Where an entry comes from: it stood there before, or the event has registered it. -/
theorem entry_back (hm : Move providers p e p') (hl : p'.store.entries.lookup h = some entry) :
    (∃ old, p.store.entries.lookup h = some old ∧ entry.generation = old.generation ∧
      (entry.lastSent = old.lastSent ∨
        ∃ now delivery, released providers p e = some (h, now, delivery) ∧
          entry.lastSent = some now)) ∨
    ∃ platform token, registers providers e = some (h, platform, token) ∧
      entry = ⟨platform, token, p.store.generation + 1,
        (p.store.entries.lookup h).bind Entry.lastSent⟩ := by
  cases hm with
  | registered handle platform token hreg =>
    by_cases hh : h = handle
    · subst hh
      simp only [Store.register, AList.lookup_insert, Option.some.injEq] at hl
      exact Or.inr ⟨platform, token, hreg, hl.symm⟩
    · simp only [Store.register, AList.lookup_insert_ne hh] at hl
      exact Or.inl ⟨entry, makeRoom_lookup hl, rfl, Or.inl rfl⟩
  | unregistered handle => exact Or.inl ⟨entry, (lookup_erase_some hl).2, rfl, Or.inl rfl⟩
  | woken handle now old _ _ hold _ hrel =>
    by_cases hh : h = handle
    · subst hh
      simp only [AList.lookup_insert, Option.some.injEq] at hl
      subst hl
      exact Or.inl ⟨old, hold, rfl, Or.inr ⟨now, _, hrel, rfl⟩⟩
    · simp only [AList.lookup_insert_ne hh] at hl
      exact Or.inl ⟨entry, hl, rfl, Or.inl rfl⟩
  | failed delivery _ _ _ _ _ _ => exact Or.inl ⟨entry, (lookup_erase_some hl).2, rfl, Or.inl rfl⟩
  | still deliveries _ _ _ => exact Or.inl ⟨entry, hl, rfl, Or.inl rfl⟩

def both : Providers := ⟨true, fun _ => true⟩

def registerOf (handle : Handle) : Event :=
  .receive (some (.pushRegister .ios "t")) handle .device false 0

def unregisterOf (handle : Handle) : Event :=
  .receive (some .pushUnregister) handle .device false 0

def wakeOf (handle : Handle) (now : Nat) : Event :=
  .receive (some .pushWake) handle .host false now

end HerdrMobile.Hub.PushStore
