import HerdrMobile.Lib.Attempt
import HerdrMobile.Lib.Strings

/-!
# The App Lock toggle

`retoggleProtection` of `keystore.dart`, with the platform storage and the App Lock preference
that it writes. Each call to the platform may fail, done or not done. A failed `persistAppLock`
that has stored the off policy is not undone.
-/
namespace HerdrMobile.App.Keystore

open HerdrMobile.Lib HerdrMobile.Lib.Strings

set_option autoImplicit false

inductive Protection where
  | plain
  | gated
deriving DecidableEq

/-- A storage is its options: whether what it writes asks for the person. -/
abbrev FlutterSecureStorage := Protection

def storageFor (appLockEnabled : Bool) : FlutterSecureStorage :=
  if appLockEnabled then .gated else .plain

structure Entry where
  value : Text
  protection : Protection
deriving DecidableEq

/-- The platform, the stored policy, the fields of the service, and the local variables of a
running `retoggleProtection`. -/
structure Device where
  entries : Text → Option Entry
  policy : Bool
  gated : FlutterSecureStorage
  appLockEnabled : Bool
  retoggling : Bool
  protectionFailure : Bool
  deviceSeed : Option Text
  deviceKeyTouched : Bool
  offPolicyPersisted : Bool
  onPolicyAttempted : Bool

def privateKeyStorageKey : Text := "device_x25519_private_key".toList

def hostPublicKeyStorageKey (hostId : Text) : Text := "host_static_public_key_".toList ++ hostId
def hostRoutingHandleStorageKey (hostId : Text) : Text := "host_routing_handle_".toList ++ hostId
def hostRelayOriginStorageKey (hostId : Text) : Text := "host_relay_origin_".toList ++ hostId

/-- The keys that a toggle moves, in its order. -/
def recordKeys (hostIds : List Text) : List Text :=
  hostIds.flatMap fun hostId =>
    [hostPublicKeyStorageKey hostId, hostRoutingHandleStorageKey hostId,
      hostRelayOriginStorageKey hostId]

inductive Op where
  | read
  | delete
  | write
deriving DecidableEq

/-- A call of `retoggleProtection` to the platform: of the record at an index, of the device key, or
to the preferences; and those of the recovery. -/
inductive Site where
  | record (i : Nat) (op : Op)
  | restoreRecord (i : Nat) (op : Op)
  | deviceKey (op : Op)
  | restoreKey (op : Op)
  | persist
  | persistBack
deriving DecidableEq

/-- A call that fails may have been done. `persistAppLock` may throw where it does not return an
error. -/
structure Fault where
  site : Site
  done : Bool
  throws : Bool
deriving DecidableEq

section Platform

variable (fault : Option Fault)

def faultAt (site : Site) : Option Fault := fault.filter (·.site = site)

def invoke (site : Site) (effect : Device → Device) : Attempt Device Unit where
  run d :=
    match faultAt fault site with
    | none => (effect d, some ())
    | some failed => (if failed.done then effect d else d, none)

def Device.set (d : Device) (key : Text) (entry : Option Entry) : Device :=
  { d with entries := fun k => if k = key then entry else d.entries k }

/-- The options a read or a delete is called with do not matter: the plugin finds a value by its
key under either. -/
def read (site : Site) (_storage : FlutterSecureStorage) (key : Text) :
    Attempt Device (Option Text) := do
  invoke fault site id
  let d ← Attempt.get
  return (d.entries key).map (·.value)

def delete (site : Site) (_storage : FlutterSecureStorage) (key : Text) : Attempt Device Unit :=
  invoke fault site fun d => d.set key none

/-- An entry that is there keeps its access control where `keepsFlags` says so. -/
def write (keepsFlags : Bool) (site : Site) (storage : FlutterSecureStorage) (key value : Text) :
    Attempt Device Unit :=
  invoke fault site fun d =>
    let protection := match d.entries key with
      | some old => if keepsFlags then old.protection else storage
      | none => storage
    d.set key (some { value, protection })

/-- `setAppLockEnabled` of the settings, as `persistAppLock` is called with it. -/
def persistAppLock (site : Site) (value : Bool) : Attempt Device Bool where
  run d :=
    match faultAt fault site with
    | none => ({ d with policy := value }, some true)
    | some failed =>
      (if failed.done then { d with policy := value } else d,
        if failed.throws then none else some false)

end Platform

section Toggle

variable (fault : Option Fault) (keepsFlags : Bool)

def restoreValue (site : Op → Site) (key value : Text) («from» «to» : FlutterSecureStorage) :
    Attempt Device Unit := do
  delete fault (site .delete) «from» key
  write fault keepsFlags (site .write) «to» key value

def move (i : Nat) (key : Text) («from» «to» : FlutterSecureStorage) : Attempt Device Unit := do
  let value ← read fault (.record i .read) «from» key
  match value with
  | none => return
  | some value =>
    Attempt.catching
      (do
        delete fault (.record i .delete) «from» key
        write fault keepsFlags (.record i .write) «to» key value)
      (do
        restoreValue fault keepsFlags (.restoreRecord i) key value «to» «from»
        Attempt.throw)

def moveAll : Nat → List Text → Attempt Device Unit
  | _, [] => return
  | i, key :: keys => do
    let d ← Attempt.get
    move fault keepsFlags i key d.gated .plain
    moveAll (i + 1) keys

/-- Whether the key is restored. -/
def restoreDeviceKey (seed : Text) («from» : FlutterSecureStorage) : Attempt Device Bool :=
  Attempt.catching
    (do
      let d ← Attempt.get
      restoreValue fault keepsFlags .restoreKey privateKeyStorageKey seed «from» d.gated
      return true)
    (do
      Attempt.update fun d => { d with protectionFailure := true }
      return false)

/-- Whether the off policy is saved again, after an on policy that may have been. -/
def takeBackOnPolicy : Attempt Device Bool := do
  let d ← Attempt.get
  if d.onPolicyAttempted then
    Attempt.catching (persistAppLock fault .persistBack false) (return false)
  else return true

def restore (newGated : FlutterSecureStorage) : Attempt Device Unit := do
  if ← takeBackOnPolicy fault then
    let d ← Attempt.get
    let restored ← restoreDeviceKey fault keepsFlags (d.deviceSeed.getD []) newGated
    let d ← Attempt.get
    if restored ∧ d.offPolicyPersisted then
      Attempt.catching
        (do
          if ← persistAppLock fault .persistBack true then
            Attempt.update fun d => { d with appLockEnabled := true })
        (Attempt.update fun d => { d with protectionFailure := true })
  else Attempt.update fun d => { d with gated := newGated }

/-- The off policy is saved before the key is touched; there is no going on where that fails. -/
def persistOff (appLockEnabled persists : Bool) : Attempt Device Bool := do
  if !appLockEnabled && persists then
    if ← persistAppLock fault .persist false then
      Attempt.update fun d => { d with offPolicyPersisted := true, appLockEnabled := false }
      return true
    else return false
  else return true

/-- The on policy is saved once the key is protected. -/
def persistOn (appLockEnabled persists : Bool) : Attempt Device Bool := do
  if appLockEnabled && persists then
    Attempt.update fun d => { d with onPolicyAttempted := true }
    persistAppLock fault .persist true
  else return true

/-- The `try` from the records on. The result says whether it is Ok. -/
def retoggleKey (appLockEnabled persists : Bool) (seed : Text) : Attempt Device Bool := do
  let newGated := storageFor appLockEnabled
  if ← persistOff fault appLockEnabled persists then
    Attempt.update fun d => { d with deviceKeyTouched := true }
    let d ← Attempt.get
    delete fault (.deviceKey .delete) d.gated privateKeyStorageKey
    write fault keepsFlags (.deviceKey .write) newGated privateKeyStorageKey seed
    if ← persistOn fault appLockEnabled persists then
      Attempt.update fun d => { d with gated := newGated, appLockEnabled }
      return true
    else
      restore fault keepsFlags newGated
      return false
  else return false

/-- The body of the `try`. -/
def retoggleBody (appLockEnabled : Bool) (hostIds : List Text) (persists : Bool) :
    Attempt Device Bool := do
  let d ← Attempt.get
  let deviceSeed ← read fault (.deviceKey .read) d.gated privateKeyStorageKey
  Attempt.update fun d => { d with deviceSeed }
  match deviceSeed with
  | none => return false
  | some seed =>
    moveAll fault keepsFlags 0 (recordKeys hostIds)
    retoggleKey fault keepsFlags appLockEnabled persists seed

/-- What catches an exception of the body. -/
def recoverBody (appLockEnabled : Bool) : Attempt Device Bool := do
  let d ← Attempt.get
  if d.deviceKeyTouched then restore fault keepsFlags (storageFor appLockEnabled)
  return false

/-- `persists` says whether the call comes with `persistAppLock`. -/
def retoggleProtection (appLockEnabled : Bool) (hostIds : List Text) (persists : Bool) :
    Attempt Device Bool := do
  let d ← Attempt.get
  if d.retoggling || d.protectionFailure then return false
  else if appLockEnabled = d.appLockEnabled then
    if persists then persistAppLock fault .persist appLockEnabled else return true
  else
    Attempt.update fun d =>
      { d with
        retoggling := true, deviceSeed := none, deviceKeyTouched := false
        offPolicyPersisted := false, onPolicyAttempted := false }
    let ok ← Attempt.catching (retoggleBody fault keepsFlags appLockEnabled hostIds persists)
      (recoverBody fault keepsFlags appLockEnabled)
    Attempt.update fun d => { d with retoggling := false }
    return ok

end Toggle

/-- The value stored under a key, under whatever protection. -/
def Device.value (d : Device) (key : Text) : Option Text := (d.entries key).map (·.value)

/-- The stored policy is on and the device key asks for nobody. -/
def Device.exposed (d : Device) : Bool :=
  d.policy && (d.entries privateKeyStorageKey).any (·.protection = .plain)

/-- As strict as before or stricter. -/
structure Stricter (before after : Device) : Prop where
  policy : before.policy = true → after.policy = true
  protection : ∀ old, before.entries privateKeyStorageKey = some old → old.protection = .gated →
    ∀ new, after.entries privateKeyStorageKey = some new → new.protection = .gated

/-- What a toggle from one state to another promises with its result; there is none where it
throws. -/
structure Atomic (before after : Device) (result : Option Bool) : Prop where
  seed : after.value privateKeyStorageKey = before.value privateKeyStorageKey
  readable : after.retoggling = before.retoggling ∧
    after.protectionFailure = before.protectionFailure
  secrets : ∀ key, after.value key = before.value key
  exposed : after.exposed = false
  failed : result ≠ some true → Stricter before after

end HerdrMobile.App.Keystore
