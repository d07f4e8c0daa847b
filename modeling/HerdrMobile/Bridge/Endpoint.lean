import HerdrMobile.Bridge.Control
import HerdrMobile.Lib.Utf8

/-!
# The published endpoint

Every bridge reads `state.json`, changes one key and writes the whole file in place. A shutdown
removes the key whoever has written it, so a bridge that is still running loses its clients to the
shutdown of another one.
-/
namespace HerdrMobile.Bridge.Endpoint

open Lib Bridge.Control
open Proto.Messages (Text)

set_option autoImplicit false

inductive ControlError where
  | read
  | parse
  | notAnObject
  | write
  deriving DecidableEq

/-- The outcome of `write_restricted_file`. -/
inductive Writing where
  /-- The directory cannot be made or restricted. -/
  | refused
  /-- The write fails and leaves this. -/
  | torn (left : List UInt8)
  /-- The file is written and cannot be restricted. -/
  | unrestricted
  | done

/-- How the calls of one operation go. -/
structure Disk where
  readable : Bool
  writing : Writing

inductive Op where
  /-- `write_endpoint`, when a bridge starts. -/
  | start (endpoint : ControlEndpoint)
  /-- `clear_endpoint`, when a bridge shuts down. -/
  | shutdown

section Operations

variable {F : Type} (S : Serde F)

def readState (readable : Bool) (file : Option (List UInt8)) :
    Except ControlError (Option (Json.Fields F)) :=
  if readable then
    match file with
    | none => .ok none
    | some text =>
      match S.read text with
      | some (.obj fields) => .ok (some fields)
      | some _ => .error .notAnObject
      | none => .error .parse
  else .error .read

def writeState (writing : Writing) (state : Json.Fields F) (file : Option (List UInt8)) :
    Except ControlError Unit × Option (List UInt8) :=
  match writing with
  | .refused => (.error .write, file)
  | .torn left => (.error .write, some left)
  | .unrestricted => (.error .write, some (S.write (.obj state)))
  | .done => (.ok (), some (S.write (.obj state)))

def control : Text := "control".toList

/-- The state that an operation writes over the one it has read, if it writes. -/
def Op.state (op : Op) (state : Option (Json.Fields F)) : Option (Json.Fields F) :=
  match op with
  | .start endpoint =>
    some (Json.insertField control ((controlEndpoint : Record S.reread _).codec.enc endpoint)
      (state.getD []))
  | .shutdown => state.map (Json.eraseField control)

def Op.apply (op : Op) (disk : Disk) (file : Option (List UInt8)) :
    Except ControlError Unit × Option (List UInt8) :=
  match readState S disk.readable file with
  | .error err => (.error err, file)
  | .ok state =>
    match op.state S state with
    | none => (.ok (), file)
    | some written => writeState S disk.writing written file

/-- The endpoint that a client dials. -/
def readEndpoint (readable : Bool) (file : Option (List UInt8)) :
    Except ControlError (Option ControlEndpoint) :=
  match readState S readable file with
  | .error err => .error err
  | .ok none => .ok none
  | .ok (some state) =>
    match state.lookup control with
    | none => .ok none
    | some value =>
      match (controlEndpoint : Record S.reread _).codec.dec value with
      | some endpoint => .ok (some endpoint)
      | none => .error .parse

def after (file : Option (List UInt8)) (ops : List (Op × Disk)) : Option (List UInt8) :=
  ops.foldl (fun file (op, disk) => (op.apply S disk file).2) file

/-- The states that the operations of a run write. -/
def writes : Option (List UInt8) → List (Op × Disk) → List (Json.Fields F)
  | _, [] => []
  | file, (op, disk) :: rest =>
    (((readState S disk.readable file).toOption.bind (op.state S)).toList) ++
      writes (op.apply S disk file).2 rest

/-- The value of a key in the file. -/
def keyOf (file : Option (List UInt8)) (key : Text) : Option (Json F) :=
  (file.bind S.read).bind fun value => value.get key

end Operations

/-- The operation reads the file and writes it. -/
def Disk.lands (disk : Disk) : Bool :=
  match disk.readable, disk.writing with
  | true, .done => true
  | true, .unrestricted => true
  | _, _ => false

def Disk.tears (disk : Disk) : Bool :=
  match disk.writing with
  | .torn _ => true
  | _ => false

def Op.publishes : Op → Option ControlEndpoint
  | .start endpoint => some endpoint
  | .shutdown => none

/-- What is published, by the operations alone. -/
def publish (endpoint : Option ControlEndpoint) (call : Op × Disk) : Option ControlEndpoint :=
  if call.2.lands then call.1.publishes else endpoint

variable {F : Type} {S : Serde F} {file file' : Option (List UInt8)} {op : Op} {disk : Disk}
  {ops : List (Op × Disk)} {endpoint : Option ControlEndpoint} {rest : Text → Option (Json F)}

/-- The file holds this endpoint and these other keys. -/
structure Holds (S : Serde F) (endpoint : Option ControlEndpoint) (rest : Text → Option (Json F))
    (state : Json.Fields F) : Prop where
  held : state.lookup control = endpoint.map (controlEndpoint : Record S.reread _).codec.enc
  others : ∀ key ≠ control, state.lookup key = rest key
  kept : ∀ kv ∈ state, kv.2.Kept S.reread 126

def Stands (S : Serde F) (endpoint : Option ControlEndpoint) (rest : Text → Option (Json F))
    (file : Option (List UInt8)) : Prop :=
  match file with
  | none => endpoint = none ∧ ∀ key ≠ control, rest key = none
  | some text => ∃ state, S.read text = some (.obj state) ∧ Holds S endpoint rest state

theorem holds_nil (h : ∀ key ≠ control, rest key = none) : Holds S none rest [] where
  held := rfl
  others key hkey := (h key hkey).symm
  kept _ hkv := absurd hkv List.not_mem_nil

theorem total_controlEndpoint : (controlEndpoint : Record S.reread ControlEndpoint).Total := by
  infer_instance

theorem Holds.insert {state : Json.Fields F} (h : Holds S endpoint rest state)
    (e : ControlEndpoint) :
    Holds S (some e) rest
      (Json.insertField control ((controlEndpoint : Record S.reread _).codec.enc e) state) where
  held := by
    rw [Json.lookup_insertField, if_pos rfl]
    rfl
  others key hkey := by
    rw [Json.lookup_insertField, if_neg hkey]
    exact h.others key hkey
  kept kv hkv := by
    rcases Json.mem_insertField hkv with rfl | hkv
    · exact (controlEndpoint.codec.kept e (total_controlEndpoint.ok e)).mono
        (Nat.le_of_ble_eq_true rfl)
    · exact h.kept kv hkv

theorem Holds.erase {state : Json.Fields F} (h : Holds S endpoint rest state) :
    Holds S none rest (Json.eraseField control state) where
  held := by
    rw [Json.lookup_eraseField, if_pos rfl]
    rfl
  others key hkey := by
    rw [Json.lookup_eraseField, if_neg hkey]
    exact h.others key hkey
  kept kv hkv := h.kept kv (List.mem_of_mem_filter hkv)

/-- A state that was written is read. -/
theorem stands_written {state : Json.Fields F} (h : Holds S endpoint rest state)
    (hserde : S.Rereads (.obj state)) :
    Stands S endpoint rest (some (S.write (.obj state))) := by
  refine ⟨Json.arrange state, ?_, ?_, fun key hkey => ?_, fun kv hkv => ?_⟩
  · rw [hserde]
    exact Json.through_obj h.kept
  · rw [Json.lookup_arrange]
    exact h.held
  · rw [Json.lookup_arrange]
    exact h.others key hkey
  · exact h.kept kv (Json.mem_arrange hkv)

theorem readState_stands (h : Stands S endpoint rest file) :
    ∃ state, readState S true file = .ok state ∧ Holds S endpoint rest (state.getD []) ∧
      (state = none → file = none) := by
  cases file with
  | none =>
    obtain ⟨rfl, hrest⟩ := h
    exact ⟨none, rfl, holds_nil hrest, fun _ => rfl⟩
  | some text =>
    obtain ⟨state, hread, hholds⟩ := h
    refine ⟨some state, ?_, hholds, nofun⟩
    unfold readState
    rw [if_pos rfl]
    dsimp only
    rw [hread]

theorem readState_unreadable (file : Option (List UInt8)) :
    readState S false file = .error .read := if_neg Bool.false_ne_true

/-- An operation that lands does what it says, and any other one nothing. -/
theorem stands_apply (h : Stands S endpoint rest file) (htears : disk.tears = false)
    (hserde : ∀ state ∈ (readState S disk.readable file).toOption.bind (op.state S),
      S.Rereads (.obj state)) :
    Stands S (publish endpoint (op, disk)) rest (op.apply S disk file).2 := by
  obtain ⟨readable, writing⟩ := disk
  cases readable with
  | false =>
    unfold Op.apply
    rw [readState_unreadable]
    exact h
  | true =>
    obtain ⟨state, hread, hholds, habsent⟩ := readState_stands h
    rw [hread] at hserde
    unfold Op.apply
    rw [hread]
    dsimp only
    cases hstate : op.state S state with
    | none =>
      cases op with
      | start e => cases hstate
      | shutdown =>
        obtain rfl := habsent (Option.map_eq_none_iff.mp hstate)
        refine ⟨?_, h.2⟩
        unfold publish
        split
        · rfl
        · exact h.1
    | some written =>
      have hwritten : Holds S op.publishes rest written := by
        cases op with
        | start e =>
          obtain rfl := Option.some.inj hstate
          exact hholds.insert e
        | shutdown =>
          obtain ⟨old, rfl, rfl⟩ := Option.map_eq_some_iff.mp hstate
          exact hholds.erase
      have hstands := stands_written hwritten (hserde written hstate)
      cases writing with
      | refused => exact h
      | torn left => cases htears
      | unrestricted => exact hstands
      | done => exact hstands

theorem readEndpoint_stands (h : Stands S endpoint rest file) :
    readEndpoint S true file = .ok endpoint := by
  cases file with
  | none =>
    obtain ⟨rfl, -⟩ := h
    rfl
  | some text =>
    obtain ⟨state, hread, hholds⟩ := h
    have hstate : readState S true (some text) = .ok (some state) := by
      unfold readState
      rw [if_pos rfl]
      dsimp only
      rw [hread]
    unfold readEndpoint
    rw [hstate]
    dsimp only
    rw [hholds.held]
    cases endpoint with
    | none => rfl
    | some e =>
      dsimp only [Option.map_some]
      rw [controlEndpoint.codec.dec_enc e (total_controlEndpoint.ok e)]

theorem keyOf_stands (h : Stands S endpoint rest file) {key : Text} (hkey : key ≠ control) :
    keyOf S file key = rest key := by
  cases file with
  | none => exact (h.2 key hkey).symm
  | some text =>
    obtain ⟨state, hread, hholds⟩ := h
    show (S.read text).bind _ = _
    rw [hread]
    exact hholds.others key hkey

theorem stands_after (h : Stands S endpoint rest file) (htears : ∀ call ∈ ops, call.2.tears = false)
    (hserde : ∀ state ∈ writes S file ops, S.Rereads (.obj state)) :
    Stands S (ops.foldl publish endpoint) rest (after S file ops) := by
  induction ops generalizing file endpoint with
  | nil => exact h
  | cons call ops ih =>
    obtain ⟨op, disk⟩ := call
    rw [writes] at hserde
    refine ih (stands_apply h (htears _ List.mem_cons_self) fun state hstate => ?_)
      (fun call hcall => htears call (List.mem_cons_of_mem _ hcall))
      fun state hstate => hserde state (List.mem_append_right _ hstate)
    exact hserde state (List.mem_append_left _ (Option.mem_toList.mpr hstate))

/-- No write of a run tears the file. Then a client reads the endpoint of the last start that has
taken effect, unless a shutdown has taken effect after it, whichever bridge it was of; the other
keys are as they were. -/
theorem endpoint_published (S : Serde F) (file : Option (List UInt8)) (ops : List (Op × Disk))
    (endpoint : Option ControlEndpoint)
    (hfile : Stands S endpoint (keyOf S file) file) (htears : ∀ call ∈ ops, call.2.tears = false)
    (hserde : ∀ state ∈ writes S file ops, S.Rereads (.obj state)) :
    readEndpoint S true (after S file ops) = .ok (ops.foldl publish endpoint) ∧
      ∀ key ≠ control, keyOf S (after S file ops) key = keyOf S file key := by
  have hstands := stands_after hfile htears hserde
  exact ⟨readEndpoint_stands hstands, fun _ hkey => keyOf_stands hstands hkey⟩

def first : ControlEndpoint := ⟨7, 8, "t".toList⟩

def second : ControlEndpoint := ⟨9, 10, "u".toList⟩

def kept : Json.Fields Empty := [("keep".toList, .bool true)]

def stateWith (endpoint : ControlEndpoint) : Json.Fields Empty :=
  Json.insertField control ((controlEndpoint : Record id _).codec.enc endpoint) kept

def keptText : List UInt8 := Utf8.utf8 "\x7b\"keep\":true\x7d".toList

def firstText : List UInt8 := Utf8.utf8
  "\x7b\"control\":\x7b\"pid\":7,\"port\":8,\"token\":\"t\"\x7d,\"keep\":true\x7d".toList

def secondText : List UInt8 := Utf8.utf8
  "\x7b\"control\":\x7b\"pid\":9,\"port\":10,\"token\":\"u\"\x7d,\"keep\":true\x7d".toList

/-- A serializer that knows the file without an endpoint and with either one. -/
def fileSerde : Serde Empty where
  write j :=
    match (j.get control).bind fun value => value.get "port".toList with
    | some (.posInt 8) => firstText
    | some _ => secondText
    | none => keptText
  read bytes :=
    if bytes = keptText then some (.obj kept)
    else if bytes = firstText then some (.obj (stateWith first))
    else if bytes = secondText then some (.obj (stateWith second))
    else none
  reread := id

/-- The second bridge is still running when the first one shuts down. -/
theorem endpoint_published_overlap :
    let ops : List (Op × Disk) := [(.start first, ⟨true, .done⟩), (.start second, ⟨true, .done⟩),
      (.shutdown, ⟨true, .done⟩)]
    readEndpoint fileSerde true (after fileSerde (some keptText) ops) = .ok none ∧
      ∀ key ≠ control,
        keyOf fileSerde (after fileSerde (some keptText) ops) key =
          keyOf fileSerde (some keptText) key := by
  refine endpoint_published fileSerde (some keptText) _ none ⟨kept, rfl, rfl, ?_, ?_⟩ ?_ ?_
  · exact fun _ _ => rfl
  · intro kv hkv
    obtain rfl := List.mem_singleton.mp hkv
    rfl
  · decide
  · intro state hstate
    have hwrites : writes fileSerde (some keptText) [(.start first, ⟨true, .done⟩),
        (.start second, ⟨true, .done⟩), (.shutdown, ⟨true, .done⟩)] =
          [stateWith first, stateWith second, kept] := rfl
    rw [hwrites] at hstate
    rcases List.mem_cons.mp hstate with rfl | hstate
    · rfl
    rcases List.mem_cons.mp hstate with rfl | hstate
    · rfl
    obtain rfl := List.mem_singleton.mp hstate
    rfl

end HerdrMobile.Bridge.Endpoint
