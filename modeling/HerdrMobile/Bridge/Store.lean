import HerdrMobile.Proto.Codes
import HerdrMobile.Proto.Messages

/-!
# The paired-device list

Every change is written to disk first and kept only when the write succeeds, so
an operation takes the outcome of its write. A handle is the parsed routing
handle; the entries of older files can have none.
-/
namespace HerdrMobile.Bridge.Store

open Proto.Codes Proto.Messages

set_option autoImplicit false

abbrev Handle := BitVec 128

abbrev DeviceId := Text

abbrev HostId := Text

structure PairedDevice where
  hostId : HostId
  handle : Option Handle
  deviceId : DeviceId
  staticPublicKey : Bytes

structure DeviceStore where
  devices : List PairedDevice
  oneEntry : devices.Pairwise fun a b => a.deviceId ≠ b.deviceId

variable {s : DeviceStore} {d : DeviceId} {e : PairedDevice}

namespace DeviceStore

def find (s : DeviceStore) (deviceId : DeviceId) : Option PairedDevice :=
  s.devices.find? fun device => device.deviceId == deviceId

def without (s : DeviceStore) (deviceId : DeviceId) : DeviceStore :=
  ⟨s.devices.filter fun device => !(device.deviceId == deviceId),
    s.oneEntry.sublist List.filter_sublist⟩

theorem oneEntry_push (s : DeviceStore) (e : PairedDevice) :
    ((s.without e.deviceId).devices ++ [e]).Pairwise fun a b => a.deviceId ≠ b.deviceId := by
  rw [List.pairwise_append]
  refine ⟨(s.without e.deviceId).oneEntry, List.pairwise_singleton _ e, ?_⟩
  intro a ha b hb
  obtain rfl : b = e := List.mem_singleton.mp hb
  simpa using (List.mem_filter.mp ha).2

/-- `none` is a failed save. -/
def add (s : DeviceStore) (entry : PairedDevice) (saved : Bool) : Option DeviceStore :=
  if saved then some ⟨(s.without entry.deviceId).devices ++ [entry], oneEntry_push s entry⟩
  else none

/-- The removed entry if there was one; `none` is a failed save. -/
def revoke (s : DeviceStore) (deviceId : DeviceId) (saved : Bool) :
    Option (Option PairedDevice × DeviceStore) :=
  match s.find deviceId with
  | none => some (none, s)
  | some device => if saved then some (some device, s.without deviceId) else none

def empty : DeviceStore := ⟨[], List.Pairwise.nil⟩

def clearAll (s : DeviceStore) (saved : Bool) : Option (List PairedDevice × DeviceStore) :=
  if saved then some (s.devices, empty) else none

end DeviceStore

theorem find_some (h : s.find d = some e) : e ∈ s.devices ∧ e.deviceId = d := by
  have hid := List.find?_some h
  exact ⟨List.mem_of_find?_eq_some h, eq_of_beq hid⟩

theorem find_of_mem (h : e ∈ s.devices) : s.find e.deviceId = some e := by
  unfold DeviceStore.find
  rw [List.find?_eq_some_iff_append]
  obtain ⟨pre, post, hsplit⟩ := List.append_of_mem h
  refine ⟨by simp, pre, post, hsplit, ?_⟩
  intro a ha
  have hone := s.oneEntry
  rw [hsplit, List.pairwise_append] at hone
  have hne := hone.2.2 a ha e List.mem_cons_self
  simpa using hne

theorem find_iff : s.find d = some e ↔ e ∈ s.devices ∧ e.deviceId = d := by
  constructor
  · exact find_some
  · rintro ⟨hmem, rfl⟩
    exact find_of_mem hmem

@[simp] theorem mem_without : e ∈ (s.without d).devices ↔ e ∈ s.devices ∧ e.deviceId ≠ d := by
  unfold DeviceStore.without
  simp

theorem find_without {d' : DeviceId} (h : d' ≠ d) : (s.without d).find d' = s.find d' := by
  apply Option.ext
  intro e
  rw [find_iff, find_iff, mem_without]
  constructor
  · rintro ⟨⟨hmem, _⟩, hid⟩
    exact ⟨hmem, hid⟩
  · rintro ⟨hmem, rfl⟩
    exact ⟨⟨hmem, h⟩, rfl⟩

theorem add_some {s' : DeviceStore} {saved : Bool} (h : s.add e saved = some s') :
    saved = true ∧ (∀ x, x ∈ s'.devices ↔ (x ∈ s.devices ∧ x.deviceId ≠ e.deviceId) ∨ x = e) := by
  unfold DeviceStore.add at h
  cases saved with
  | false => cases h
  | true =>
    obtain rfl := Option.some.inj h
    refine ⟨rfl, fun x => ?_⟩
    simp

end HerdrMobile.Bridge.Store
