import HerdrMobile.App.Keystore
import HerdrMobile.Host.HostKeys
import Mathlib.Logic.Function.Basic

/-!
# The secrets of a computer

`storeHostSecrets`, `hostSecrets`, `deleteHostSecrets` and `storeHostRelayOrigin` of the keystore.
One record is three values under three keys of the platform, which are written and deleted one after
the other. A write that fails leaves those before it, and an origin that is not given stays.
-/
namespace HerdrMobile.App.Secrets

open HerdrMobile.Lib HerdrMobile.Lib.Strings HerdrMobile.App.Keystore
open HerdrMobile.Host.HostKeys (standard)

set_option autoImplicit false

/-- `Uri` of the core library, which reads back what it has written. -/
structure Origins (U : Type) where
  toText : U → Text
  parse : Text → Option U
  parse_toText : ∀ origin, parse (toText origin) = some origin

def base64Encode (bytes : List UInt8) : Text := standard.encodePadded '=' bytes

/-- Of the texts that `base64Encode` writes. -/
def base64Decode (text : Text) : Option (List UInt8) := standard.decodePadded '=' text

theorem base64Decode_encode (bytes : List UInt8) : base64Decode (base64Encode bytes) = some bytes :=
  standard.decodePadded_encodePadded '=' (by decide) bytes

structure HostSecrets (U : Type) where
  hostStaticPublicKey : List UInt8
  routingHandle : Text
  relayOrigin : Option U
deriving DecidableEq

/-- The values of `_plain` by their keys. -/
abbrev Store := Text → Option Text

/-- The platform call of an operation that fails, which may have been done. -/
structure Fault where
  call : Nat
  done : Bool

inductive Op (U : Type) where
  | storeHostSecrets (hostId : Text) (secrets : HostSecrets U)
  | deleteHostSecrets (hostId : Text)
  | storeHostRelayOrigin (hostId : Text) (origin : U)

def Op.hostId {U : Type} : Op U → Text
  | .storeHostSecrets hostId _ => hostId
  | .deleteHostSecrets hostId => hostId
  | .storeHostRelayOrigin hostId _ => hostId

structure Call (U : Type) where
  op : Op U
  fault : Option Fault

inductive FormatException where
  | publicKey
  | origin
deriving DecidableEq

section Operations

variable {U : Type} (D : Origins U) (fault : Option Fault)

def invoke (call : Nat) (effect : Store → Store) : Attempt Store Unit where
  run s :=
    match fault.filter (·.call = call) with
    | none => (effect s, some ())
    | some failed => (if failed.done then effect s else s, none)

def write (call : Nat) (key value : Text) : Attempt Store Unit :=
  invoke fault call fun s => Function.update s key (some value)

def delete (call : Nat) (key : Text) : Attempt Store Unit :=
  invoke fault call fun s => Function.update s key none

def storeHostSecrets (hostId : Text) (secrets : HostSecrets U) : Attempt Store Unit := do
  write fault 0 (hostPublicKeyStorageKey hostId) (base64Encode secrets.hostStaticPublicKey)
  write fault 1 (hostRoutingHandleStorageKey hostId) secrets.routingHandle
  match secrets.relayOrigin with
  | some origin => write fault 2 (hostRelayOriginStorageKey hostId) (D.toText origin)
  | none => pure ()

def deleteHostSecrets (hostId : Text) : Attempt Store Unit := do
  delete fault 0 (hostPublicKeyStorageKey hostId)
  delete fault 1 (hostRoutingHandleStorageKey hostId)
  delete fault 2 (hostRelayOriginStorageKey hostId)

def storeHostRelayOrigin (hostId : Text) (origin : U) : Attempt Store Unit :=
  write fault 0 (hostRelayOriginStorageKey hostId) (D.toText origin)

abbrev Answer (U : Type) := Except FormatException (Option (HostSecrets U))

/-- The reads of the platform succeed. -/
def hostSecrets (s : Store) (hostId : Text) : Answer U :=
  match s (hostPublicKeyStorageKey hostId), s (hostRoutingHandleStorageKey hostId) with
  | some publicKeyBase64, some routingHandle =>
    match base64Decode publicKeyBase64 with
    | none => .error .publicKey
    | some hostStaticPublicKey =>
      match s (hostRelayOriginStorageKey hostId) with
      | none => .ok (some { hostStaticPublicKey, routingHandle, relayOrigin := none })
      | some origin =>
        match D.parse origin with
        | none => .error .origin
        | some origin =>
          .ok (some { hostStaticPublicKey, routingHandle, relayOrigin := some origin })
  | _, _ => .ok none

def Call.attempt (call : Call U) : Attempt Store Unit :=
  match call.op with
  | .storeHostSecrets hostId secrets => Secrets.storeHostSecrets D call.fault hostId secrets
  | .deleteHostSecrets hostId => Secrets.deleteHostSecrets call.fault hostId
  | .storeHostRelayOrigin hostId origin =>
    Secrets.storeHostRelayOrigin D call.fault hostId origin

/-- The values after the calls. -/
def after (calls : List (Call U)) : Store :=
  calls.foldl (fun s call => ((call.attempt D).run s).1) fun _ => none

/-- The same record with another origin. -/
def withOrigin (origin : U) (answer : Answer U) : Answer U :=
  answer.map (Option.map fun secrets => { secrets with relayOrigin := some origin })

/-- What a store of whole records answers for a computer, before and after an operation that is
done or fails. -/
def Allowed (op : Op U) (ok : Bool) (hostId : Text) (old new : Answer U) : Prop :=
  if op.hostId = hostId then
    match op with
    | .storeHostSecrets _ secrets => new = if ok then .ok (some secrets) else old
    | .deleteHostSecrets _ => new = .ok none ∨ (ok = false ∧ new = old)
    | .storeHostRelayOrigin _ origin => new = withOrigin origin old ∨ (ok = false ∧ new = old)
  else new = old

/-- Every operation of the history, for every computer. -/
def Atomic (calls : List (Call U)) : Prop :=
  ∀ before call rest, calls = before ++ call :: rest → ∀ hostId,
    Allowed call.op ((call.attempt D).run (after D before)).2.isSome hostId
      (hostSecrets D (after D before) hostId)
      (hostSecrets D ((call.attempt D).run (after D before)).1 hostId)

/-- The values of a computer. -/
structure Cells where
  key : Option Text
  handle : Option Text
  origin : Option Text
deriving DecidableEq

def cells (s : Store) (hostId : Text) : Cells :=
  ⟨s (hostPublicKeyStorageKey hostId), s (hostRoutingHandleStorageKey hostId),
    s (hostRelayOriginStorageKey hostId)⟩

/-- How many writes the store of the secrets needs. -/
def writes (secrets : HostSecrets U) : Nat := if secrets.relayOrigin.isSome then 3 else 2

/-- How many of so many calls are done when one of them fails. -/
def brokenAfter (calls : Nat) : Option Fault → Option Nat
  | none => none
  | some failed =>
    if failed.call < calls then some (failed.call + if failed.done then 1 else 0) else none

/-- The first `n` values of the secrets are there already. -/
def There (c : Cells) (secrets : HostSecrets U) (n : Nat) : Prop :=
  (1 ≤ n → c.key = some (base64Encode secrets.hostStaticPublicKey)) ∧
    (2 ≤ n → c.handle = some secrets.routingHandle) ∧
      (3 ≤ n → c.origin = secrets.relayOrigin.map D.toText)

/-- A store that breaks off after `n` writes changes no value, or comes no further than the key
where there is no handle; and a store without an origin finds none. -/
def StoreKeeps (c : Cells) (secrets : HostSecrets U) : Option Nat → Prop
  | none => secrets.relayOrigin = none → c.origin = none
  | some n => There D c secrets n ∨ (n ≤ 1 ∧ c.handle = none)

def Keeps (s : Store) (call : Call U) : Prop :=
  match call.op with
  | .storeHostSecrets hostId secrets =>
    StoreKeeps D (cells s hostId) secrets (brokenAfter (writes secrets) call.fault)
  | .deleteHostSecrets _ | .storeHostRelayOrigin .. => True

def KeepsAll (calls : List (Call U)) : Prop :=
  ∀ before call rest, calls = before ++ call :: rest → Keeps D (after D before) call

end Operations

variable {U : Type} {D : Origins U} {s : Store} {hostId hostId' : Text} {value : Option Text}
  {c : Cells} {secrets : HostSecrets U} {fault : Option Fault} {n : Nat}

theorem key_ne_handle (a b : Text) :
    hostPublicKeyStorageKey a ≠ hostRoutingHandleStorageKey b := by
  intro h
  have hat : some 's' = some 'r' := congrArg (fun t => t[5]?) h
  cases hat

theorem key_ne_origin (a b : Text) : hostPublicKeyStorageKey a ≠ hostRelayOriginStorageKey b := by
  intro h
  have hat : some 's' = some 'r' := congrArg (fun t => t[5]?) h
  cases hat

theorem handle_ne_origin (a b : Text) :
    hostRoutingHandleStorageKey a ≠ hostRelayOriginStorageKey b := by
  intro h
  have hat : some 'o' = some 'e' := congrArg (fun t => t[6]?) h
  cases hat

theorem cells_key : cells (Function.update s (hostPublicKeyStorageKey hostId) value) hostId =
    { cells s hostId with key := value } := by
  simp [cells, key_ne_handle, key_ne_origin, Ne.symm]

theorem cells_handle :
    cells (Function.update s (hostRoutingHandleStorageKey hostId) value) hostId =
      { cells s hostId with handle := value } := by
  simp [cells, key_ne_handle, handle_ne_origin, Ne.symm]

theorem cells_origin :
    cells (Function.update s (hostRelayOriginStorageKey hostId) value) hostId =
      { cells s hostId with origin := value } := by
  simp [cells, key_ne_origin, handle_ne_origin]

/-- The values of another computer are under other keys. -/
theorem cells_other (hne : hostId ≠ hostId') :
    (∀ s value, cells (Function.update s (hostPublicKeyStorageKey hostId) value) hostId' =
      cells s hostId') ∧
    (∀ s value, cells (Function.update s (hostRoutingHandleStorageKey hostId) value) hostId' =
      cells s hostId') ∧
    ∀ s value, cells (Function.update s (hostRelayOriginStorageKey hostId) value) hostId' =
      cells s hostId' := by
  have hkey : hostPublicKeyStorageKey hostId' ≠ hostPublicKeyStorageKey hostId :=
    fun h => hne (List.append_cancel_left h).symm
  have hhandle : hostRoutingHandleStorageKey hostId' ≠ hostRoutingHandleStorageKey hostId :=
    fun h => hne (List.append_cancel_left h).symm
  have horigin : hostRelayOriginStorageKey hostId' ≠ hostRelayOriginStorageKey hostId :=
    fun h => hne (List.append_cancel_left h).symm
  refine ⟨fun s value => ?_, fun s value => ?_, fun s value => ?_⟩
  · simp [cells, hkey, key_ne_handle, key_ne_origin, Ne.symm]
  · simp [cells, hhandle, key_ne_handle, handle_ne_origin, Ne.symm]
  · simp [cells, horigin, key_ne_origin, handle_ne_origin]

/-- The values after the first `n` writes. -/
def put (D : Origins U) (hostId : Text) (secrets : HostSecrets U) (n : Nat) (s : Store) : Store :=
  let key := Function.update s (hostPublicKeyStorageKey hostId)
    (some (base64Encode secrets.hostStaticPublicKey))
  let handle := Function.update key (hostRoutingHandleStorageKey hostId)
    (some secrets.routingHandle)
  match n with
  | 0 => s
  | 1 => key
  | 2 => handle
  | _ =>
    Function.update handle (hostRelayOriginStorageKey hostId) (secrets.relayOrigin.map D.toText)

/-- The values after the first `n` deletes. -/
def remove (hostId : Text) (n : Nat) (s : Store) : Store :=
  let key := Function.update s (hostPublicKeyStorageKey hostId) none
  let handle := Function.update key (hostRoutingHandleStorageKey hostId) none
  match n with
  | 0 => s
  | 1 => key
  | 2 => handle
  | _ => Function.update handle (hostRelayOriginStorageKey hostId) none

theorem store_run (D : Origins U) (fault : Option Fault) (hostId : Text) (secrets : HostSecrets U)
    (s : Store) : (storeHostSecrets D fault hostId secrets).run s =
      match brokenAfter (writes secrets) fault with
      | none => (put D hostId secrets (writes secrets) s, some ())
      | some n => (put D hostId secrets n s, none) := by
  obtain ⟨key, handle, origin⟩ := secrets
  cases fault with
  | none => cases origin <;> rfl
  | some failed =>
    obtain ⟨_ | _ | _ | call, done⟩ := failed <;> cases origin <;> cases done <;> rfl

theorem delete_run (fault : Option Fault) (hostId : Text) (s : Store) :
    (deleteHostSecrets fault hostId).run s =
      match brokenAfter 3 fault with
      | none => (remove hostId 3 s, some ())
      | some n => (remove hostId n s, none) := by
  cases fault with
  | none => rfl
  | some failed => obtain ⟨_ | _ | _ | call, done⟩ := failed <;> cases done <;> rfl

theorem origin_run (D : Origins U) (fault : Option Fault) (hostId : Text) (origin : U)
    (s : Store) : (storeHostRelayOrigin D fault hostId origin).run s =
      let set := Function.update s (hostRelayOriginStorageKey hostId) (some (D.toText origin))
      match brokenAfter 1 fault with
      | none => (set, some ())
      | some n => (if n = 0 then s else set, none) := by
  cases fault with
  | none => rfl
  | some failed => obtain ⟨_ | call, done⟩ := failed <;> cases done <;> rfl

/-- The values as the service writes them. -/
def encoded (D : Origins U) (key : Option (List UInt8)) (handle : Option Text)
    (origin : Option U) : Cells :=
  ⟨key.map base64Encode, handle, origin.map D.toText⟩

variable {key : Option (List UInt8)} {handle : Option Text} {origin : Option U}

theorem answer_encoded (h : cells s hostId = encoded D key handle origin) :
    hostSecrets D s hostId = .ok (key.bind fun key => handle.map fun handle =>
      ⟨key, handle, origin⟩) := by
  obtain ⟨hkey, hhandle, horigin⟩ := Cells.mk.inj h
  unfold hostSecrets
  rw [hkey, hhandle, horigin]
  cases key with
  | none => rfl
  | some key =>
    cases handle with
    | none => rfl
    | some handle =>
      simp only [Option.map_some, base64Decode_encode]
      cases origin with
      | none => rfl
      | some origin => simp [D.parse_toText]

theorem put_encoded (h : cells s hostId = encoded D key handle origin) (hn : n ≤ 3) :
    cells (put D hostId secrets n s) hostId = encoded D
      (if 1 ≤ n then some secrets.hostStaticPublicKey else key)
      (if 2 ≤ n then some secrets.routingHandle else handle)
      (if 3 ≤ n then secrets.relayOrigin else origin) := by
  obtain rfl | rfl | rfl | rfl : n = 0 ∨ n = 1 ∨ n = 2 ∨ n = 3 := by omega
  · exact h
  · simp [put, cells_key, h, encoded]
  · simp [put, cells_handle, cells_key, h, encoded]
  · simp [put, cells_origin, cells_handle, cells_key, encoded]

theorem remove_encoded (h : cells s hostId = encoded D key handle origin) (hn : n ≤ 3) :
    cells (remove hostId n s) hostId = encoded D
      (if 1 ≤ n then none else key) (if 2 ≤ n then none else handle)
      (if 3 ≤ n then none else origin) := by
  obtain rfl | rfl | rfl | rfl : n = 0 ∨ n = 1 ∨ n = 2 ∨ n = 3 := by omega
  · exact h
  · simp [remove, cells_key, h, encoded]
  · simp [remove, cells_handle, cells_key, h, encoded]
  · simp [remove, cells_origin, cells_handle, cells_key, encoded]

theorem put_other (hne : hostId ≠ hostId') :
    cells (put D hostId secrets n s) hostId' = cells s hostId' := by
  obtain ⟨hkey, hhandle, horigin⟩ := cells_other hne
  unfold put
  split <;> simp only [hkey, hhandle, horigin]

theorem remove_other (hne : hostId ≠ hostId') :
    cells (remove hostId n s) hostId' = cells s hostId' := by
  obtain ⟨hkey, hhandle, horigin⟩ := cells_other hne
  unfold remove
  split <;> simp only [hkey, hhandle, horigin]

theorem base64Encode_inj {a b : List UInt8} : base64Encode a = base64Encode b ↔ a = b := by
  constructor
  · intro h
    have hdecode := base64Decode_encode a
    rw [h, base64Decode_encode] at hdecode
    exact (Option.some.inj hdecode).symm
  · exact congrArg base64Encode

theorem toText_inj {a b : U} (h : D.toText a = D.toText b) : a = b := by
  have hparse := D.parse_toText a
  rw [h, D.parse_toText] at hparse
  exact (Option.some.inj hparse).symm

theorem there_encoded : There D (encoded D key handle origin) secrets n ↔
    (1 ≤ n → key = some secrets.hostStaticPublicKey) ∧
      (2 ≤ n → handle = some secrets.routingHandle) ∧ (3 ≤ n → origin = secrets.relayOrigin) := by
  have hkey : key.map base64Encode = some (base64Encode secrets.hostStaticPublicKey) ↔
      key = some secrets.hostStaticPublicKey := by
    cases key with
    | none => simp
    | some key => simp [base64Encode_inj]
  have horigin : origin.map D.toText = secrets.relayOrigin.map D.toText ↔
      origin = secrets.relayOrigin :=
    (Option.map_injective fun _ _ => toText_inj).eq_iff
  rw [There, encoded, hkey, horigin]

variable {call : Call U}

/-- All that is stored is encoded. -/
def Encoded (D : Origins U) (s : Store) : Prop :=
  ∀ hostId, ∃ key handle origin, cells s hostId = encoded D key handle origin

theorem brokenAfter_le {calls : Nat} (h : brokenAfter calls fault = some n) : n ≤ calls := by
  cases fault with
  | none => cases h
  | some failed =>
    rw [brokenAfter, Option.ite_none_right_eq_some] at h
    obtain ⟨hcall, heq⟩ := h
    cases heq
    split <;> omega

theorem writes_le (secrets : HostSecrets U) : writes secrets ≤ 3 := by
  unfold writes
  split <;> omega

/-- What an operation leaves of the values of its computer: some of them put or removed. -/
theorem attempt_cells (call : Call U) (h : cells s call.op.hostId = encoded D key handle origin) :
    ∃ key' handle' origin', cells ((call.attempt D).run s).1 call.op.hostId =
      encoded D key' handle' origin' := by
  obtain ⟨op, fault⟩ := call
  cases op with
  | storeHostSecrets hostId secrets =>
    rw [Call.attempt, store_run]
    cases hbroken : brokenAfter (writes secrets) fault with
    | none => exact ⟨_, _, _, put_encoded h (writes_le secrets)⟩
    | some n =>
      exact ⟨_, _, _, put_encoded h ((brokenAfter_le hbroken).trans (writes_le secrets))⟩
  | deleteHostSecrets hostId =>
    rw [Call.attempt, delete_run]
    cases hbroken : brokenAfter 3 fault with
    | none => exact ⟨_, _, _, remove_encoded h (Nat.le_refl 3)⟩
    | some n => exact ⟨_, _, _, remove_encoded h (brokenAfter_le hbroken)⟩
  | storeHostRelayOrigin hostId new =>
    have hset : cells (Function.update s (hostRelayOriginStorageKey hostId)
        (some (D.toText new))) hostId = encoded D key handle (some new) := by
      rw [cells_origin, show cells s hostId = _ from h]
      rfl
    rw [Call.attempt, origin_run]
    dsimp only
    split
    · exact ⟨_, _, _, hset⟩
    · split
      · exact ⟨_, _, _, h⟩
      · exact ⟨_, _, _, hset⟩

theorem attempt_other (call : Call U) (hne : call.op.hostId ≠ hostId') :
    cells ((call.attempt D).run s).1 hostId' = cells s hostId' := by
  obtain ⟨op, fault⟩ := call
  cases op with
  | storeHostSecrets hostId secrets =>
    have hput n : cells (put D hostId secrets n s) hostId' = cells s hostId' := put_other hne
    rw [Call.attempt, store_run]
    split <;> exact hput _
  | deleteHostSecrets hostId =>
    have hremove n : cells (remove hostId n s) hostId' = cells s hostId' := remove_other hne
    rw [Call.attempt, delete_run]
    split
    · exact hremove 3
    · exact hremove _
  | storeHostRelayOrigin hostId new =>
    obtain ⟨-, -, horigin⟩ := cells_other hne
    rw [Call.attempt, origin_run]
    dsimp only
    split
    · exact horigin _ _
    · split
      · rfl
      · exact horigin _ _

theorem Encoded.attempt (h : Encoded D s) (call : Call U) :
    Encoded D ((call.attempt D).run s).1 := by
  intro hostId
  by_cases hhost : call.op.hostId = hostId
  · subst hhost
    obtain ⟨key, handle, origin, hcells⟩ := h call.op.hostId
    exact attempt_cells call hcells
  · rw [attempt_other call hhost]
    exact h hostId

/-- A store that is done or fails: when the record is as it has to be. -/
theorem store_allowed (h : cells s hostId = encoded D key handle origin) :
    (hostSecrets D ((storeHostSecrets D fault hostId secrets).run s).1 hostId =
      if ((storeHostSecrets D fault hostId secrets).run s).2.isSome then .ok (some secrets)
      else hostSecrets D s hostId) ↔
    StoreKeeps D (cells s hostId) secrets (brokenAfter (writes secrets) fault) := by
  rw [store_run]
  cases hbroken : brokenAfter (writes secrets) fault with
  | none =>
    simp only [answer_encoded (put_encoded h (writes_le secrets)), h, StoreKeeps]
    obtain ⟨key', handle', origin'⟩ := secrets
    cases origin' with
    | none => cases origin <;> simp [writes, encoded]
    | some origin' => simp [writes]
  | some n =>
    have hn := (brokenAfter_le hbroken).trans (writes_le secrets)
    simp only [answer_encoded (put_encoded h hn), answer_encoded h, h, StoreKeeps, there_encoded]
    obtain ⟨key', handle', origin'⟩ := secrets
    obtain rfl | rfl | rfl | rfl : n = 0 ∨ n = 1 ∨ n = 2 ∨ n = 3 := by omega
    · simp
    · cases key <;> cases handle <;> simp [encoded, eq_comm]
    · cases key <;> cases handle <;> simp [encoded, eq_comm]
    · cases key <;> cases handle <;> simp [encoded, eq_comm]

/-- A delete leaves no record, or has not begun. -/
theorem delete_allowed (h : cells s hostId = encoded D key handle origin) :
    hostSecrets D ((deleteHostSecrets fault hostId).run s).1 hostId = .ok none ∨
      (((deleteHostSecrets fault hostId).run s).2.isSome = false ∧
        hostSecrets D ((deleteHostSecrets fault hostId).run s).1 hostId =
          hostSecrets D s hostId) := by
  rw [delete_run]
  cases hbroken : brokenAfter 3 fault with
  | none => exact .inl (answer_encoded (remove_encoded h (Nat.le_refl 3)))
  | some n =>
    by_cases hn : n = 0
    · subst hn
      exact .inr ⟨rfl, rfl⟩
    · refine .inl ((answer_encoded (remove_encoded h (brokenAfter_le hbroken))).trans ?_)
      rw [if_pos (Nat.one_le_iff_ne_zero.mpr hn)]
      rfl

theorem origin_allowed {new : U} (h : cells s hostId = encoded D key handle origin) :
    hostSecrets D ((storeHostRelayOrigin D fault hostId new).run s).1 hostId =
        withOrigin new (hostSecrets D s hostId) ∨
      (((storeHostRelayOrigin D fault hostId new).run s).2.isSome = false ∧
        hostSecrets D ((storeHostRelayOrigin D fault hostId new).run s).1 hostId =
          hostSecrets D s hostId) := by
  have hset : cells (Function.update s (hostRelayOriginStorageKey hostId)
      (some (D.toText new))) hostId = encoded D key handle (some new) := by
    rw [cells_origin, h]
    rfl
  have hwith : hostSecrets D (Function.update s (hostRelayOriginStorageKey hostId)
      (some (D.toText new))) hostId = withOrigin new (hostSecrets D s hostId) := by
    rw [answer_encoded hset, answer_encoded h]
    cases key <;> cases handle <;> rfl
  rw [origin_run]
  dsimp only
  split
  · exact .inl hwith
  · split
    · exact .inr ⟨rfl, rfl⟩
    · exact .inl hwith

/-- The operation is one of the store of whole records exactly where it keeps them whole. -/
theorem allowed_iff (h : Encoded D s) (call : Call U) :
    (∀ hostId, Allowed call.op ((call.attempt D).run s).2.isSome hostId (hostSecrets D s hostId)
      (hostSecrets D ((call.attempt D).run s).1 hostId)) ↔ Keeps D s call := by
  obtain ⟨key, handle, origin, hcells⟩ := h call.op.hostId
  have hothers : (∀ hostId, Allowed call.op ((call.attempt D).run s).2.isSome hostId
        (hostSecrets D s hostId) (hostSecrets D ((call.attempt D).run s).1 hostId)) ↔
      Allowed call.op ((call.attempt D).run s).2.isSome call.op.hostId
        (hostSecrets D s call.op.hostId)
        (hostSecrets D ((call.attempt D).run s).1 call.op.hostId) := by
    refine ⟨fun hall => hall _, fun hself hostId => ?_⟩
    by_cases hhost : call.op.hostId = hostId
    · exact hhost ▸ hself
    · obtain ⟨key', handle', origin', hcells'⟩ := h hostId
      rw [Allowed.eq_def, if_neg hhost, answer_encoded hcells', answer_encoded
        ((attempt_other call hhost).trans hcells')]
  rw [hothers, Allowed.eq_def, if_pos rfl]
  obtain ⟨op, fault⟩ := call
  cases op with
  | storeHostSecrets hostId secrets => exact store_allowed hcells
  | deleteHostSecrets hostId => exact iff_of_true (delete_allowed hcells) trivial
  | storeHostRelayOrigin hostId new => exact iff_of_true (origin_allowed hcells) trivial

variable {calls : List (Call U)}

theorem after_snoc (calls : List (Call U)) (call : Call U) :
    after D (calls ++ [call]) = ((call.attempt D).run (after D calls)).1 := by
  rw [after, List.foldl_append]
  rfl

theorem encoded_after (D : Origins U) (calls : List (Call U)) : Encoded D (after D calls) := by
  induction calls using List.reverseRecOn with
  | nil => exact fun _ => ⟨none, none, none, rfl⟩
  | append_singleton calls call ih =>
    rw [after_snoc]
    exact ih.attempt call

/-- For every history of the three operations, whatever fails in it: the record of each computer is
always that of one pairing if and only if no store breaks a record or finds an old origin. -/
theorem host_secrets_atomic_iff (D : Origins U) (calls : List (Call U)) :
    Atomic D calls ↔ KeepsAll D calls := by
  refine forall_congr' fun before => forall_congr' fun call => forall_congr' fun rest =>
    imp_congr_right fun _ => ?_
  exact allowed_iff (encoded_after D before) call

theorem some_id (origin : Text) : some (id origin) = some origin := rfl

/-- Origins that are their texts. -/
def plainOrigins : Origins Text := ⟨id, some, some_id⟩

def firstPairing : HostSecrets Text := ⟨[1], "a".toList, some "https://r".toList⟩

def secondPairing : HostSecrets Text := ⟨[2], "b".toList, some "https://r".toList⟩

/-- A computer is paired again, and the write of the handle fails. -/
def pairedTwice : List (Call Text) :=
  [⟨.storeHostSecrets "h1".toList firstPairing, none⟩,
    ⟨.storeHostSecrets "h1".toList secondPairing, some ⟨1, false⟩⟩]

/-- The key is the new one, under the handle of the old pairing. -/
theorem paired_twice_mixes : hostSecrets plainOrigins (after plainOrigins pairedTwice) "h1".toList =
      .ok (some { firstPairing with hostStaticPublicKey := [2] }) ∧
    ¬Atomic plainOrigins pairedTwice := by
  refine ⟨by decide, fun h => ?_⟩
  have hkeeps := (allowed_iff (encoded_after plainOrigins _) _).mp (h [_] _ [] rfl)
  obtain ⟨hkey, -⟩ | ⟨-, hhandle⟩ := hkeeps
  · exact absurd (hkey (Nat.le_refl 1)) (by decide)
  · exact absurd hhandle (by decide)

end HerdrMobile.App.Secrets
