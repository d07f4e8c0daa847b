import HerdrMobile.Bridge.Store
import HerdrMobile.Host.HostKeys
import HerdrMobile.Proto.Payloads

/-!
# The paired-device list and its file

`store.rs` of the bridge: every change is staged in a temporary file that replaces the
saved list, and the list in memory follows only when that has worked. Each operation is
given the outcome of its save. After any operations, some of which failed, the list is
what a fresh load of the file gives, and it is the list of `Store` with more of each
device.
-/

namespace HerdrMobile.Bridge.Saved

open Lib Proto
open Messages (Text Platform)
open Host.HostKeys (StaticKey Standard)

set_option autoImplicit false

/-- R-13-049. -/
structure PairedDevice where
  hostId : Text
  handle : Text
  deviceId : Text
  deviceName : Text
  platform : Platform
  osVersion : Text
  staticPublicKey : StaticKey
  pairedAt : Text
  lastSeen : Text

inductive StoreError where
  | read
  | parse
  | write

/-- What reading a file gives. -/
inductive ReadResult where
  | found (text : List UInt8)
  | notFound
  | failed

/-- The outcome of a save: the temporary file cannot be written, or it cannot replace the
saved list, or it does. -/
inductive Saving where
  | stageFails
  | renameFails
  | done

section Disk

variable {F ε : Type} (S : Serde F) (E : Engine ε)

def publicKeyBase64 : Codec S.reread StaticKey :=
  .via .text (fun key => E.encode key.bytes) fun text =>
    (E.decode text).toOption.bind StaticKey.ofBytes

abbrev pairedDevice : Record S.reread PairedDevice where
  fields :=
    .cons "host_id".toList (.required .text) <|
    .cons "handle".toList (.defaulted [] .text) <|
    .cons "device_id".toList (.required .text) <|
    .cons "device_name".toList (.required .text) <|
    .cons "platform".toList (.required Payloads.platform) <|
    .cons "os_version".toList (.required .text) <|
    .cons "static_public_key".toList (.required (publicKeyBase64 S E)) <|
    .cons "paired_at".toList (.required .text) <|
    .cons "last_seen".toList (.required .text) <|
    .nil
  split s :=
    (s.hostId, s.handle, s.deviceId, s.deviceName, s.platform, s.osVersion, s.staticPublicKey,
    s.pairedAt, s.lastSeen, ())
  join := fun
    | (hostId, handle, deviceId, deviceName, platform, osVersion, staticPublicKey, pairedAt,
    lastSeen, ()) =>
      ⟨hostId, handle, deviceId, deviceName, platform, osVersion, staticPublicKey, pairedAt,
      lastSeen⟩

def load : ReadResult → Except StoreError (List PairedDevice)
  | .found text =>
    match (S.read text).bind (pairedDevice S E).codec.list.dec with
    | some devices => .ok devices
    | none => .error .parse
  | .notFound => .ok []
  | .failed => .error .read

/-- A file that can be read. -/
def readFile : Option (List UInt8) → ReadResult
  | some text => .found text
  | none => .notFound

def savedValue (devices : List PairedDevice) : Json F :=
  .arr (devices.map fun device => .obj ((pairedDevice S E).written device))

/-- The file after a save; the rename replaces it or leaves it as it was. -/
def save (saving : Saving) (devices : List PairedDevice) (file : Option (List UInt8)) :
    Except StoreError Unit × Option (List UInt8) :=
  match saving with
  | .done => (.ok (), some (S.write (savedValue S E devices)))
  | .stageFails => (.error .write, file)
  | .renameFails => (.error .write, file)

variable {S E}

theorem total_pairedDevice (hE : Standard E) : (pairedDevice S E).Total := by
  have hkey : (publicKeyBase64 S E).Total := Codec.total_via inferInstance fun key => by
    rw [hE.decode_encode]
    exact StaticKey.ofBytes_bytes key
  infer_instance

/-- A list that was saved is loaded. -/
theorem load_save (hE : Standard E) {devices : List PairedDevice}
    (hserde : S.Rereads (savedValue S E devices)) :
    load S E (.found (S.write (savedValue S E devices))) = .ok devices := by
  have htotal := total_pairedDevice (S := S) hE
  have hthrough : S.read (S.write (savedValue S E devices)) =
      some (.arr (devices.map (pairedDevice S E).codec.enc)) := by
    rw [hserde]
    refine Json.through_arr_map fun device _ => Json.through_obj fun kv hkv => ?_
    exact ((pairedDevice S E).fields.kept _ (htotal.ok device) kv hkv).mono (Nat.zero_le _)
  have hdec : (pairedDevice S E).codec.list.dec (.arr (devices.map (pairedDevice S E).codec.enc)) =
      some devices :=
    (pairedDevice S E).codec.list.dec_enc devices fun device _ => htotal.ok device
  rw [load, hthrough, Option.bind_some, hdec]

end Disk

/-- The record of an enrolment (R-13-049), without the times. -/
structure Enrolment where
  hostId : Text
  handle : Text
  deviceId : Text
  deviceName : Text
  platform : Platform
  osVersion : Text
  staticPublicKey : StaticKey

def Enrolment.entry (e : Enrolment) (now : Text) : PairedDevice :=
  ⟨e.hostId, e.handle, e.deviceId, e.deviceName, e.platform, e.osVersion, e.staticPublicKey, now,
    now⟩

/-- The list in memory and the file it was loaded from. -/
structure DeviceStore where
  devices : List PairedDevice
  file : Option (List UInt8)

namespace DeviceStore

variable {F ε : Type} (S : Serde F) (E : Engine ε) (saving : Saving)

/-- `self.save(&devices)?`, and what is done once that has worked. -/
def saveThen {α : Type} (devices : List PairedDevice) (s : DeviceStore) (reply : α)
    (after : List PairedDevice) : Except StoreError α × DeviceStore :=
  match save S E saving devices s.file with
  | (.error err, file) => (.error err, { s with file })
  | (.ok (), file) => (.ok reply, ⟨after, file⟩)

def add (e : Enrolment) (now : Text) (s : DeviceStore) : Except StoreError Unit × DeviceStore :=
  let entry := e.entry now
  let devices := (s.devices.filter fun device => device.deviceId ≠ e.deviceId) ++ [entry]
  saveThen S E saving devices s ()
    ((s.devices.filter fun device => device.deviceId ≠ e.deviceId) ++ [entry])

def position (s : DeviceStore) (deviceId : Text) : Option Nat :=
  s.devices.findIdx? fun device => device.deviceId = deviceId

def revoke (deviceId : Text) (s : DeviceStore) :
    Except StoreError (Option PairedDevice) × DeviceStore :=
  match s.position deviceId with
  | none => (.ok none, s)
  | some index =>
    let devices := (s.devices.zipIdx.filter fun (_, i) => i ≠ index).map Prod.fst
    saveThen S E saving devices s s.devices[index]? (s.devices.eraseIdx index)

def clearAll (s : DeviceStore) : Except StoreError (List PairedDevice) × DeviceStore :=
  saveThen S E saving [] s s.devices []

def touchLastSeen (deviceId now : Text) (s : DeviceStore) : Except StoreError Bool × DeviceStore :=
  match s.position deviceId with
  | none => (.ok false, s)
  | some index =>
    let devices := s.devices.modify index fun device => { device with lastSeen := now }
    saveThen S E saving devices s true
      (s.devices.modify index fun device => { device with lastSeen := now })

end DeviceStore

inductive Op where
  | add (e : Enrolment) (now : Text)
  | revoke (deviceId : Text)
  | clearAll
  | touchLastSeen (deviceId now : Text)

inductive Reply where
  | added
  | revoked (entry : Option PairedDevice)
  | cleared (entries : List PairedDevice)
  | touched (known : Bool)

def Op.apply {F ε : Type} (S : Serde F) (E : Engine ε) (saving : Saving) (s : DeviceStore) :
    Op → Except StoreError Reply × DeviceStore
  | .add e now => (s.add S E saving e now).map (Except.map fun _ => .added) id
  | .revoke deviceId => (s.revoke S E saving deviceId).map (Except.map .revoked) id
  | .clearAll => (s.clearAll S E saving).map (Except.map .cleared) id
  | .touchLastSeen deviceId now =>
    (s.touchLastSeen S E saving deviceId now).map (Except.map .touched) id

/-- The list that an operation saves, if it saves one. -/
def Op.saves (s : DeviceStore) : Op → Option (List PairedDevice)
  | .add e now =>
    some ((s.devices.filter fun device => device.deviceId ≠ e.deviceId) ++ [e.entry now])
  | .revoke deviceId => (s.position deviceId).map s.devices.eraseIdx
  | .clearAll => some []
  | .touchLastSeen deviceId now => (s.position deviceId).map fun index =>
      s.devices.modify index fun device => { device with lastSeen := now }

theorem zipIdx_filter_ne {α : Type} (xs : List α) (start index : Nat) :
    ((xs.zipIdx start).filter fun (_, i) => i ≠ start + index).map Prod.fst =
      xs.eraseIdx index := by
  induction xs generalizing start index with
  | nil => rfl
  | cons x rest ih =>
    cases index with
    | zero =>
      have hall : ∀ p ∈ rest.zipIdx (start + 1), decide (p.2 ≠ start + 0) = true := fun p hp => by
        have hle := List.le_snd_of_mem_zipIdx hp
        exact decide_eq_true (by omega)
      rw [List.zipIdx_cons, List.filter_cons_of_neg (by simp), List.filter_eq_self.mpr hall,
        List.zipIdx_map_fst, List.eraseIdx_zero, List.tail_cons]
    | succ index =>
      have hrest := ih (start + 1) index
      rw [List.zipIdx_cons, List.filter_cons_of_pos (by simp), List.map_cons,
        List.eraseIdx_cons_succ, ← hrest]
      simp only [Nat.add_assoc, Nat.add_comm 1 index]

section Steps

variable {F ε : Type} {S : Serde F} {E : Engine ε} {saving : Saving} {s s' : DeviceStore} {op : Op}
  {r : Except StoreError Reply}

theorem saveThen_cases {α : Type} {devices : List PairedDevice} {reply : α} {f : α → Reply}
    (h : (s.saveThen S E saving devices reply devices).map (Except.map f) id = (r, s')) :
    (saving ≠ .done ∧ ∃ err, r = .error err ∧ s' = s) ∨
      saving = .done ∧ r = .ok (f reply) ∧
        s' = ⟨devices, some (S.write (savedValue S E devices))⟩ := by
  cases saving with
  | done =>
    cases h
    exact .inr ⟨rfl, rfl, rfl⟩
  | _ =>
    cases h
    exact .inl ⟨nofun, _, rfl, rfl⟩

/-- What an operation has done: it failed and changed nothing, or there was nothing to
save, or the list in memory is the one it saved. -/
theorem apply_cases (h : op.apply S E saving s = (r, s')) :
    (saving ≠ .done ∧ ∃ err, r = .error err ∧ s' = s) ∨
      (op.saves s = none ∧ (∃ reply, r = .ok reply) ∧ s' = s) ∨
      ∃ reply devices, saving = .done ∧ r = .ok reply ∧ op.saves s = some devices ∧
        s' = ⟨devices, some (S.write (savedValue S E devices))⟩ := by
  cases op with
  | add e now =>
    exact (saveThen_cases h).imp id fun ⟨hdone, hr, hs⟩ => .inr ⟨_, _, hdone, hr, rfl, hs⟩
  | clearAll =>
    exact (saveThen_cases h).imp id fun ⟨hdone, hr, hs⟩ => .inr ⟨_, _, hdone, hr, rfl, hs⟩
  | revoke deviceId =>
    rw [Op.apply, DeviceStore.revoke] at h
    rw [Op.saves]
    cases hpos : s.position deviceId with
    | none =>
      rw [hpos] at h
      exact .inr (.inl ⟨rfl, ⟨_, (Prod.mk.inj h).1.symm⟩, (Prod.mk.inj h).2.symm⟩)
    | some index =>
      have hsaved := zipIdx_filter_ne s.devices 0 index
      rw [Nat.zero_add] at hsaved
      rw [hpos] at h
      simp only [hsaved] at h
      exact (saveThen_cases h).imp id fun ⟨hdone, hr, hs⟩ => .inr ⟨_, _, hdone, hr, rfl, hs⟩
  | touchLastSeen deviceId now =>
    rw [Op.apply, DeviceStore.touchLastSeen] at h
    rw [Op.saves]
    cases hpos : s.position deviceId with
    | none =>
      rw [hpos] at h
      exact .inr (.inl ⟨rfl, ⟨_, (Prod.mk.inj h).1.symm⟩, (Prod.mk.inj h).2.symm⟩)
    | some index =>
      rw [hpos] at h
      exact (saveThen_cases h).imp id fun ⟨hdone, hr, hs⟩ => .inr ⟨_, _, hdone, hr, rfl, hs⟩

end Steps

def Unique (devices : List PairedDevice) : Prop :=
  devices.Pairwise fun a b => a.deviceId ≠ b.deviceId

section Lists

variable {devices : List PairedDevice} {d : Text} {i : Nat}

/-- The entries of the other devices. -/
def others (d : Text) (devices : List PairedDevice) : List PairedDevice :=
  devices.filter fun device => device.deviceId ≠ d

theorem others_cons_self {entry : PairedDevice} {rest : List PairedDevice}
    (hd : entry.deviceId = d) : others d (entry :: rest) = others d rest :=
  List.filter_cons_of_neg (by simpa using hd)

theorem others_cons_of_ne {entry : PairedDevice} {rest : List PairedDevice}
    (hd : entry.deviceId ≠ d) : others d (entry :: rest) = entry :: others d rest :=
  List.filter_cons_of_pos (by simpa using hd)

theorem unique_others (h : Unique devices) : Unique (others d devices) :=
  h.sublist List.filter_sublist

theorem others_of_head {entry : PairedDevice} {rest : List PairedDevice}
    (h : Unique (entry :: rest)) (hd : entry.deviceId = d) : others d rest = rest :=
  List.filter_eq_self.mpr fun device hdevice =>
    decide_eq_true fun heq => (List.pairwise_cons.mp h).1 device hdevice (hd.trans heq.symm)

/-- The position of a device is that of the head, or one after its position in the tail. -/
theorem position_cons {entry : PairedDevice} {rest : List PairedDevice}
    (h : (entry :: rest).findIdx? (fun device => device.deviceId = d) = some i) :
    (entry.deviceId = d ∧ i = 0) ∨ (entry.deviceId ≠ d ∧
      ∃ j, rest.findIdx? (fun device => device.deviceId = d) = some j ∧ i = j + 1) := by
  rw [List.findIdx?_cons] at h
  split at h
  · next hd => exact .inl ⟨of_decide_eq_true hd, (Option.some.inj h).symm⟩
  · next hd =>
    obtain ⟨j, hj, rfl⟩ := Option.map_eq_some_iff.mp h
    exact .inr ⟨of_decide_eq_false (eq_false_of_ne_true hd), j, hj, rfl⟩

theorem eraseIdx_position (hu : Unique devices)
    (h : devices.findIdx? (fun device => device.deviceId = d) = some i) :
    devices.eraseIdx i = others d devices := by
  induction devices generalizing i with
  | nil => cases h
  | cons entry rest ih =>
    rcases position_cons h with ⟨hd, rfl⟩ | ⟨hd, j, hj, rfl⟩
    · rw [others_cons_self hd]
      exact (others_of_head hu hd).symm
    · rw [others_cons_of_ne hd, List.eraseIdx_cons_succ, ih (List.pairwise_cons.mp hu).2 hj]

/-- A change at the position of a device is one of its entry. -/
theorem modify_position {f : PairedDevice → PairedDevice} (hu : Unique devices)
    (h : devices.findIdx? (fun device => device.deviceId = d) = some i) :
    devices.modify i f =
      devices.map fun device => if device.deviceId = d then f device else device := by
  induction devices generalizing i with
  | nil => cases h
  | cons entry rest ih =>
    rcases position_cons h with ⟨hd, rfl⟩ | ⟨hd, j, hj, rfl⟩
    · have hothers : ∀ device ∈ rest,
          (if device.deviceId = d then f device else device) = device := fun device hdevice =>
        if_neg fun heq => (List.pairwise_cons.mp hu).1 device hdevice (hd.trans heq.symm)
      rw [List.modify_zero_cons, List.map_cons, if_pos hd, List.map_congr_left hothers,
        List.map_id']
    · rw [List.modify_succ_cons, List.map_cons, if_neg hd, ih (List.pairwise_cons.mp hu).2 hj]

/-- A change of the entry of one device that keeps its id leaves the others. -/
theorem others_modify {f : PairedDevice → PairedDevice} (hf : ∀ e, (f e).deviceId = e.deviceId)
    (h : devices.findIdx? (fun device => device.deviceId = d) = some i) :
    others d (devices.modify i f) = others d devices := by
  induction devices generalizing i with
  | nil => cases h
  | cons entry rest ih =>
    rcases position_cons h with ⟨hd, rfl⟩ | ⟨hd, j, hj, rfl⟩
    · rw [List.modify_zero_cons, others_cons_self ((hf entry).trans hd), others_cons_self hd]
    · rw [List.modify_succ_cons, others_cons_of_ne hd, others_cons_of_ne hd, ih hj]

theorem ids_modify {f : PairedDevice → PairedDevice} (hf : ∀ e, (f e).deviceId = e.deviceId) :
    (devices.modify i f).map (·.deviceId) = devices.map (·.deviceId) := by
  induction devices generalizing i with
  | nil => cases i <;> rfl
  | cons entry rest ih =>
    cases i with
    | zero => rw [List.modify_zero_cons, List.map_cons, List.map_cons, hf]
    | succ i => rw [List.modify_succ_cons, List.map_cons, List.map_cons, ih]

theorem unique_iff_ids : Unique devices ↔ (devices.map (·.deviceId)).Nodup := by
  rw [List.Nodup, List.pairwise_map]
  rfl

end Lists

/-- The entries that an operation leaves alone. -/
def Op.untouched : Op → List PairedDevice → List PairedDevice
  | .add e _ => others e.deviceId
  | .revoke deviceId => others deviceId
  | .clearAll => fun _ => []
  | .touchLastSeen deviceId _ => others deviceId

section Saves

variable {s : DeviceStore} {op : Op} {devices : List PairedDevice}

theorem others_push {d : Text} {xs : List PairedDevice} {entry : PairedDevice}
    (hentry : entry.deviceId = d) : others d (others d xs ++ [entry]) = others d xs := by
  have hself : others d [entry] = [] := others_cons_self hentry
  rw [others, List.filter_append, ← others, ← others, hself, List.append_nil, others, others,
    List.filter_filter]
  simp only [Bool.and_self]

theorem untouched_saves (hu : Unique s.devices) (h : op.saves s = some devices) :
    op.untouched devices = op.untouched s.devices := by
  cases op with
  | add e now =>
    cases h
    exact others_push rfl
  | clearAll => rfl
  | revoke deviceId =>
    obtain ⟨index, hindex, rfl⟩ := Option.map_eq_some_iff.mp h
    rw [Op.untouched, eraseIdx_position hu hindex, others, others, List.filter_filter]
    simp only [Bool.and_self]
  | touchLastSeen deviceId now =>
    obtain ⟨index, hindex, rfl⟩ := Option.map_eq_some_iff.mp h
    exact others_modify (fun _ => rfl) hindex

theorem unique_saves (hu : Unique s.devices) (h : op.saves s = some devices) : Unique devices := by
  cases op with
  | add e now =>
    cases h
    refine List.pairwise_append.mpr ⟨unique_others hu, List.pairwise_singleton _ _, ?_⟩
    intro device hdevice entry hentry
    rw [List.mem_singleton.mp hentry]
    exact of_decide_eq_true (List.mem_filter.mp hdevice).2
  | clearAll =>
    cases h
    exact List.Pairwise.nil
  | revoke deviceId =>
    obtain ⟨index, hindex, rfl⟩ := Option.map_eq_some_iff.mp h
    exact hu.sublist (List.eraseIdx_sublist ..)
  | touchLastSeen deviceId now =>
    obtain ⟨index, -, rfl⟩ := Option.map_eq_some_iff.mp h
    refine (unique_iff_ids).mpr ?_
    rw [ids_modify]
    · exact (unique_iff_ids).mp hu
    · exact fun _ => rfl

end Saves

variable {F ε : Type} (S : Serde F) (E : Engine ε)

/-- What an operation from `s` to `s'` that returned `r` keeps. It works if its save does. -/
structure Sound (s : DeviceStore) (op : Op) (saving : Saving) (r : Except StoreError Reply)
    (s' : DeviceStore) : Prop where
  loaded : load S E (readFile s'.file) = .ok s'.devices
  failed : ∀ err, r = .error err → s' = s
  worked : saving = .done → ∃ reply, r = .ok reply
  unique : Unique s'.devices
  untouched : op.untouched s'.devices = op.untouched s.devices
  placed : ∀ deviceId now, op = .touchLastSeen deviceId now →
    s'.devices.map (·.deviceId) = s.devices.map (·.deviceId)
  replaced : ∀ e now reply, op = .add e now → r = .ok reply →
    s'.devices = others e.deviceId s.devices ++ [e.entry now]
  revoked : ∀ deviceId reply, op = .revoke deviceId → r = .ok reply →
    s'.devices = others deviceId s.devices
  cleared : ∀ reply, op = .clearAll → r = .ok reply → s'.devices = []
  touched : ∀ deviceId now reply, op = .touchLastSeen deviceId now → r = .ok reply →
    s'.devices = s.devices.map fun device =>
      if device.deviceId = deviceId then { device with lastSeen := now } else device

/-- The store after operations, each with the outcome of its save. -/
def after (s : DeviceStore) : List (Op × Saving) → DeviceStore
  | [] => s
  | (op, saving) :: rest => after (op.apply S E saving s).2 rest

/-- The operations save this list. -/
def Writes (s : DeviceStore) (ops : List (Op × Saving)) (devices : List PairedDevice) : Prop :=
  ∃ before op rest, ops = before ++ (op, .done) :: rest ∧
    op.saves (after S E s before) = some devices

variable {S E} {s s' : DeviceStore} {op : Op} {saving : Saving} {r : Except StoreError Reply}

/-- An operation that changes nothing is one that failed, or one that found nothing to
change. -/
theorem sound_of_same (hload : load S E (readFile s.file) = .ok s.devices)
    (hu : Unique s.devices) (hworked : saving = .done → ∃ reply, r = .ok reply)
    (hsame : (∃ err, r = .error err) ∨ op.saves s = none) : Sound S E s op saving r s where
  loaded := hload
  failed _ _ := rfl
  worked := hworked
  unique := hu
  untouched := rfl
  placed _ _ _ := rfl
  replaced e now reply hop hr := by
    subst hop hr
    rcases hsame with ⟨err, herr⟩ | hnone
    · cases herr
    · cases hnone
  revoked deviceId reply hop hr := by
    subst hop hr
    rcases hsame with ⟨err, herr⟩ | hnone
    · cases herr
    · have hposition := List.findIdx?_eq_none_iff.mp (Option.map_eq_none_iff.mp hnone)
      exact (List.filter_eq_self.mpr fun device hdevice => by
        simpa using hposition device hdevice).symm
  cleared reply hop hr := by
    subst hop hr
    rcases hsame with ⟨err, herr⟩ | hnone
    · cases herr
    · cases hnone
  touched deviceId now reply hop hr := by
    subst hop hr
    rcases hsame with ⟨err, herr⟩ | hnone
    · cases herr
    · have hposition := List.findIdx?_eq_none_iff.mp (Option.map_eq_none_iff.mp hnone)
      have hothers : ∀ device ∈ s.devices, (if device.deviceId = deviceId then
          { device with lastSeen := now } else device) = device := fun device hdevice =>
        if_neg (by simpa using hposition device hdevice)
      rw [List.map_congr_left hothers, List.map_id']

theorem apply_sound (hE : Standard E) (hload : load S E (readFile s.file) = .ok s.devices)
    (hu : Unique s.devices) (hserde : ∀ devices, saving = .done → op.saves s = some devices →
      S.Rereads (savedValue S E devices)) (h : op.apply S E saving s = (r, s')) :
    Sound S E s op saving r s' := by
  obtain ⟨hfails, err, hr, rfl⟩ | ⟨hnone, hok, rfl⟩ | ⟨reply, devices, hdone, rfl, hsaves, rfl⟩ :=
    apply_cases h
  · exact sound_of_same hload hu (absurd · hfails) (.inl ⟨err, hr⟩)
  · exact sound_of_same hload hu (fun _ => hok) (.inr hnone)
  · exact {
      loaded := load_save hE (hserde devices hdone hsaves)
      failed := fun _ => nofun
      worked := fun _ => ⟨reply, rfl⟩
      unique := unique_saves hu hsaves
      untouched := untouched_saves hu hsaves
      placed := by
        rintro deviceId now rfl
        obtain ⟨index, -, rfl⟩ := Option.map_eq_some_iff.mp hsaves
        exact ids_modify fun _ => rfl
      replaced := by
        rintro e now _ rfl -
        exact (Option.some.inj hsaves).symm
      revoked := by
        rintro deviceId _ rfl -
        obtain ⟨index, hindex, rfl⟩ := Option.map_eq_some_iff.mp hsaves
        exact eraseIdx_position hu hindex
      cleared := by
        rintro _ rfl -
        exact (Option.some.inj hsaves).symm
      touched := by
        rintro deviceId now _ rfl -
        obtain ⟨index, hindex, rfl⟩ := Option.map_eq_some_iff.mp hsaves
        exact modify_position hu hindex }

section Refinement

variable (parse : Text → Option Store.Handle)

/-- What the bridge uses of an entry; a handle that does not parse is none. -/
def forget (device : PairedDevice) : Store.PairedDevice :=
  ⟨device.hostId, parse device.handle, device.deviceId, device.staticPublicKey.bytes⟩

def shadow (devices : List PairedDevice) (hu : Unique devices) : Store.DeviceStore :=
  ⟨devices.map (forget parse), List.pairwise_map.mpr hu⟩

def Saving.worked : Saving → Bool
  | .done => true
  | _ => false

/-- The operation of `Store` on what it keeps of the list. -/
structure Refines (t : Store.DeviceStore) (op : Op) (saving : Saving)
    (r : Except StoreError Reply) (t' : Store.DeviceStore) : Prop where
  added : ∀ e now, op = .add e now →
    t.add (forget parse (e.entry now)) saving.worked = r.toOption.map fun _ => t'
  revoked : ∀ deviceId, op = .revoke deviceId →
    t.revoke deviceId saving.worked = r.toOption.map fun _ => (t.find deviceId, t')
  cleared : op = .clearAll →
    t.clearAll saving.worked = r.toOption.map fun _ => (t.devices, t')
  touched : ∀ deviceId now, op = .touchLastSeen deviceId now → t' = t

variable {parse} {devices : List PairedDevice} {d : Text} {e : Enrolment} {now : Text}

theorem store_ext {a b : Store.DeviceStore} (h : a.devices = b.devices) : a = b := by
  cases a
  cases b
  cases h
  rfl

theorem without_shadow (hu : Unique devices) :
    (shadow parse devices hu).without d = shadow parse (others d devices) (unique_others hu) := by
  refine store_ext ?_
  show (devices.map (forget parse)).filter (fun device => !(device.deviceId == d)) =
    (others d devices).map (forget parse)
  rw [List.filter_map, others]
  refine congrArg (List.map (forget parse)) (List.filter_congr fun device _ => ?_)
  show (!(device.deviceId == d)) = decide (device.deviceId ≠ d)
  rw [decide_not, beq_eq_decide]

theorem find_shadow (hu : Unique devices) :
    (shadow parse devices hu).find d =
      (devices.find? fun device => device.deviceId = d).map (forget parse) := by
  have hid : (fun device : Store.PairedDevice => device.deviceId == d) ∘ forget parse =
      fun device => decide (device.deviceId = d) := funext fun device => beq_eq_decide ..
  show (devices.map (forget parse)).find? (fun device => device.deviceId == d) = _
  rw [List.find?_map, hid]

variable (hu : Unique s.devices) (hu' : Unique s'.devices)

theorem add_refines (h : (Op.add e now).apply S E saving s = (r, s')) :
    (shadow parse s.devices hu).add (forget parse (e.entry now)) saving.worked =
      r.toOption.map fun _ => shadow parse s'.devices hu' := by
  cases saving with
  | done =>
    cases h
    refine congrArg some (store_ext ?_)
    show ((shadow parse s.devices hu).without e.deviceId).devices ++ [forget parse (e.entry now)] =
      (others e.deviceId s.devices ++ [e.entry now]).map (forget parse)
    rw [without_shadow, List.map_append]
    rfl
  | _ =>
    cases h
    rfl

theorem clearAll_refines (h : Op.clearAll.apply S E saving s = (r, s')) :
    (shadow parse s.devices hu).clearAll saving.worked =
      r.toOption.map fun _ =>
        ((shadow parse s.devices hu).devices, shadow parse s'.devices hu') := by
  cases saving with
  | done =>
    cases h
    rfl
  | _ =>
    cases h
    rfl

theorem revoke_refines (h : (Op.revoke d).apply S E saving s = (r, s')) :
    (shadow parse s.devices hu).revoke d saving.worked = r.toOption.map fun _ =>
      ((shadow parse s.devices hu).find d, shadow parse s'.devices hu') := by
  have hfind : s.devices.find? (fun device => device.deviceId = d) =
      (s.devices.findIdx? fun device => device.deviceId = d).bind (s.devices[·]?) :=
    List.find?_eq_bind_findIdx?_getElem?
  rw [Op.apply, DeviceStore.revoke] at h
  rw [Store.DeviceStore.revoke, find_shadow, hfind]
  cases hpos : s.position d with
  | none =>
    rw [hpos] at h
    rw [DeviceStore.position] at hpos
    rw [hpos]
    cases h
    rfl
  | some index =>
    rw [hpos] at h
    rw [DeviceStore.position] at hpos
    obtain ⟨hlt, -⟩ := List.findIdx?_eq_some_iff_getElem.mp hpos
    rw [hpos, Option.bind_some, List.getElem?_eq_getElem hlt]
    cases saving with
    | done =>
      cases h
      refine congrArg some (Prod.ext rfl ?_)
      show (shadow parse s.devices hu).without d = shadow parse (s.devices.eraseIdx index) hu'
      rw [without_shadow]
      exact store_ext (congrArg (List.map (forget parse)) (eraseIdx_position hu hpos).symm)
    | _ =>
      cases h
      rfl

/-- `Store` does not keep the times. -/
theorem touchLastSeen_refines (h : (Op.touchLastSeen d now).apply S E saving s = (r, s')) :
    shadow parse s'.devices hu' = shadow parse s.devices hu := by
  refine store_ext ?_
  obtain ⟨-, err, -, rfl⟩ | ⟨-, -, rfl⟩ | ⟨_, devices, -, -, hsaves, rfl⟩ := apply_cases h
  · rfl
  · rfl
  · obtain ⟨index, hindex, rfl⟩ := Option.map_eq_some_iff.mp hsaves
    show List.map (forget parse) (s.devices.modify index _) = List.map (forget parse) s.devices
    rw [modify_position hu hindex, List.map_map]
    refine List.map_congr_left fun device _ => ?_
    rw [Function.comp_apply]
    split <;> rfl

theorem refines_apply (h : op.apply S E saving s = (r, s')) :
    Refines parse (shadow parse s.devices hu) op saving r (shadow parse s'.devices hu') where
  added _ _ hop := add_refines hu hu' (hop ▸ h)
  revoked _ hop := revoke_refines hu hu' (hop ▸ h)
  cleared hop := clearAll_refines hu hu' (hop ▸ h)
  touched _ _ hop := touchLastSeen_refines hu hu' (hop ▸ h)

end Refinement

/-- Every operation of a run is sound, whichever saves have failed before it, and does to the
list what the one of `Store` does. -/
theorem memory_is_the_file (hE : Standard E) {ops : List (Op × Saving)}
    (hload : load S E (readFile s.file) = .ok s.devices) (hu : Unique s.devices)
    (hserde : ∀ devices, Writes S E s ops devices → S.Rereads (savedValue S E devices))
    (before : List (Op × Saving)) (op : Op) (saving : Saving) (rest : List (Op × Saving))
    (hops : ops = before ++ (op, saving) :: rest) :
    let t := after S E s before
    let (r, t') := op.apply S E saving t
    Sound S E t op saving r t' ∧
      ∀ parse hu hu', Refines parse (shadow parse t.devices hu) op saving r
        (shadow parse t'.devices hu') := by
  refine ⟨?_, fun _ hu hu' => refines_apply hu hu' rfl⟩
  induction before generalizing s ops with
  | nil =>
    refine apply_sound hE hload hu (fun devices hdone hsaves => hserde devices ?_) rfl
    exact ⟨[], op, rest, hdone ▸ hops, hsaves⟩
  | cons first before ih =>
    obtain ⟨op₁, saving₁⟩ := first
    have hfirst : Sound S E s op₁ saving₁ (op₁.apply S E saving₁ s).1
        (op₁.apply S E saving₁ s).2 := by
      refine apply_sound hE hload hu (fun devices hdone hsaves => hserde devices ?_) rfl
      exact ⟨[], op₁, _, hdone ▸ hops, hsaves⟩
    refine ih hfirst.loaded hfirst.unique (fun devices hwrites => hserde devices ?_) rfl
    obtain ⟨before', op', rest', heq, hsaves⟩ := hwrites
    exact ⟨(op₁, saving₁) :: before', op', rest', by rw [hops, List.cons_append, heq]; rfl, hsaves⟩

def pixel : Enrolment :=
  ⟨"h1".toList, [], "d1".toList, "Pixel".toList, .android, "15".toList, Host.HostKeys.keyOf 0⟩

def noon : Text := "2026-09-04T12:00:00Z".toList

/-- The saved list of one phone. -/
def pixelValue : Json Empty :=
  .arr [.obj [("host_id".toList, .str "h1".toList), ("handle".toList, .str []),
    ("device_id".toList, .str "d1".toList), ("device_name".toList, .str "Pixel".toList),
    ("platform".toList, .str "android".toList), ("os_version".toList, .str "15".toList),
    ("static_public_key".toList, .str Host.HostKeys.zerosText), ("paired_at".toList, .str noon),
    ("last_seen".toList, .str noon)]]

def pixelText : Text :=
  "[\n  \x7b\n    \"host_id\": \"h1\",\n    \"handle\": \"\",\n".toList ++
    "    \"device_id\": \"d1\",\n    \"device_name\": \"Pixel\",\n".toList ++
    "    \"platform\": \"android\",\n    \"os_version\": \"15\",\n".toList ++
    "    \"static_public_key\": \"".toList ++ Host.HostKeys.zerosText ++
    "\",\n    \"paired_at\": \"".toList ++ noon ++ "\",\n    \"last_seen\": \"".toList ++ noon ++
    "\"\n  \x7d\n]".toList

def pixelSerde : Serde Empty := .only pixelValue (Utf8.utf8 pixelText)

theorem savedValue_pixel :
    savedValue pixelSerde Host.HostKeys.standardEngine [pixel.entry noon] = pixelValue := by
  rw [pixelValue, ← Host.HostKeys.encode_zeros]
  rfl

theorem memory_is_the_file_pixel :
    let s := after pixelSerde Host.HostKeys.standardEngine ⟨[], none⟩ [(.add pixel noon, .done)]
    let op := Op.revoke "d1".toList
    let t := op.apply pixelSerde Host.HostKeys.standardEngine .renameFails s
    s.devices = [pixel.entry noon] ∧ t.2.devices = [pixel.entry noon] ∧
      Sound pixelSerde Host.HostKeys.standardEngine s op .renameFails t.1 t.2 ∧
      ∀ parse hu hu', Refines parse (shadow parse s.devices hu) op .renameFails t.1
        (shadow parse t.2.devices hu') := by
  refine ⟨rfl, rfl, memory_is_the_file (s := ⟨[], none⟩) Host.HostKeys.standard_standardEngine rfl
    List.Pairwise.nil ?_
    [(.add pixel noon, .done)] (.revoke "d1".toList) .renameFails [] rfl⟩
  rintro devices ⟨before, op, rest, hops, hsaves⟩
  cases before with
  | nil =>
    obtain ⟨hop, -⟩ := Prod.mk.inj (List.cons.inj hops).1
    subst hop
    obtain rfl : [pixel.entry noon] = devices := Option.some.inj hsaves
    rw [savedValue_pixel]
    exact Serde.rereads_only _ _
  | cons first before =>
    have hrest := (List.cons.inj hops).2
    cases before with
    | nil => cases hrest
    | cons second before => cases before <;> cases hrest

end HerdrMobile.Bridge.Saved
