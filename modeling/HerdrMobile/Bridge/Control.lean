import HerdrMobile.Proto.Payloads

/-!
# The control transport

The bridge publishes its port and its token in `state.json`. A client sends one line with the
token and a command and reads one line back. The two halves are written apart, each with its own
bounds, and meet only in the texts of the two values.
-/
namespace HerdrMobile.Bridge.Control

open Lib Proto
open Messages (Text Platform)

set_option autoImplicit false

def requestMaxBytes : Nat := 4096

def replyMaxBytes : Nat := 65536

def newline : UInt8 := 10

/-- R-10-062. -/
structure ControlEndpoint where
  pid : UInt32
  port : UInt16
  token : Text

inductive Command where
  | status
  | openPairing
  | closePairing
  | revoke (deviceId : Text)
  | revokeAll
  | stop
  deriving DecidableEq

inductive ErrorCode where
  | unauthorized
  | badRequest
  | unknownCommand
  | notFound
  deriving DecidableEq

inductive LinkState where
  | connected
  | idle
  | offline
  | stopped
  deriving DecidableEq

structure LinkStatus where
  state : LinkState
  attempt : UInt32
  error : Option Text
  deriving DecidableEq

structure PairingStatus where
  registered : Bool
  uri : Option Text
  phrase : Option Text
  handle : Option Text
  expiresInS : UInt64
  deriving DecidableEq

structure DeviceRow where
  deviceId : Text
  deviceName : Text
  platform : Platform
  osVersion : Text
  fingerprint : Text
  pairedAt : Text
  lastSeen : Text
  connected : Bool
  deriving DecidableEq

structure Status where
  relayOrigin : Text
  link : LinkStatus
  pairing : Option PairingStatus
  devices : List DeviceRow
  deriving DecidableEq

inductive ClientError where
  | notRunning
  | io
  | protocol (message : String)
  | rejected (code : ErrorCode)
  deriving DecidableEq

section Values

variable {F : Type} {reread : F → F}

def commandName : Command → Text
  | .status => "status".toList
  | .openPairing => "open_pairing".toList
  | .closePairing => "close_pairing".toList
  | .revoke _ => "revoke".toList
  | .revokeAll => "revoke_all".toList
  | .stop => "stop".toList

def errorName : ErrorCode → Text
  | .unauthorized => "unauthorized".toList
  | .badRequest => "bad_request".toList
  | .unknownCommand => "unknown_command".toList
  | .notFound => "not_found".toList

def stateName : LinkState → Text
  | .connected => "connected".toList
  | .idle => "idle".toList
  | .offline => "offline".toList
  | .stopped => "stopped".toList

def errorCode : Codec reread ErrorCode :=
  .named errorName [.unauthorized, .badRequest, .unknownCommand, .notFound]

instance : (errorCode : Codec reread ErrorCode).Total :=
  Codec.total_named (by decide) fun a => by cases a <;> decide

def linkState : Codec reread LinkState :=
  .named stateName [.connected, .idle, .offline, .stopped]

instance : (linkState : Codec reread LinkState).Total :=
  Codec.total_named (by decide) fun a => by cases a <;> decide

def u16 : Codec reread UInt16 :=
  .via .u64 UInt16.toUInt64 fun n => if n.toNat < 65536 then some n.toUInt16 else none

instance : (u16 : Codec reread UInt16).Total := Codec.total_via inferInstance fun n => by
  have hlt : n.toUInt64.toNat < 65536 := n.toNat_lt
  rw [if_pos hlt]
  simp

abbrev controlEndpoint : Record reread ControlEndpoint where
  fields :=
    .cons "pid".toList (.required .u32) <|
    .cons "port".toList (.required u16) <|
    .cons "token".toList (.required .text) <|
    .nil
  split s := (s.pid, s.port, s.token, ())
  join := fun (pid, port, token, ()) => ⟨pid, port, token⟩

abbrev linkStatus : Record reread LinkStatus where
  fields :=
    .cons "state".toList (.required linkState) <|
    .cons "attempt".toList (.required .u32) <|
    .cons "error".toList (.nullable .text) <|
    .nil
  split s := (s.state, s.attempt, s.error, ())
  join := fun (state, attempt, error, ()) => ⟨state, attempt, error⟩

abbrev pairingStatus : Record reread PairingStatus where
  fields :=
    .cons "registered".toList (.required .bool) <|
    .cons "uri".toList (.nullable .text) <|
    .cons "phrase".toList (.nullable .text) <|
    .cons "handle".toList (.nullable .text) <|
    .cons "expires_in_s".toList (.required .u64) <|
    .nil
  split s := (s.registered, s.uri, s.phrase, s.handle, s.expiresInS, ())
  join := fun (registered, uri, phrase, handle, expiresInS, ()) =>
    ⟨registered, uri, phrase, handle, expiresInS⟩

abbrev deviceRow : Record reread DeviceRow where
  fields :=
    .cons "device_id".toList (.required .text) <|
    .cons "device_name".toList (.required .text) <|
    .cons "platform".toList (.required Payloads.platform) <|
    .cons "os_version".toList (.required .text) <|
    .cons "fingerprint".toList (.required .text) <|
    .cons "paired_at".toList (.required .text) <|
    .cons "last_seen".toList (.required .text) <|
    .cons "connected".toList (.required .bool) <|
    .nil
  split s := (s.deviceId, s.deviceName, s.platform, s.osVersion, s.fingerprint, s.pairedAt,
    s.lastSeen, s.connected, ())
  join := fun
    | (deviceId, deviceName, platform, osVersion, fingerprint, pairedAt, lastSeen, connected,
      ()) =>
      ⟨deviceId, deviceName, platform, osVersion, fingerprint, pairedAt, lastSeen, connected⟩

theorem devices_fresh : "devices".toList ∉ (Fields.nil : Fields reread Unit).keys :=
  List.not_mem_nil

abbrev status : Record reread Status where
  fields :=
    .cons "relay_origin".toList (.required .text) <|
    .cons "link".toList (.required linkStatus.codec) <|
    .cons "pairing".toList (.nullable pairingStatus.codec) <|
    .cons "devices".toList (.required deviceRow.codec.list) .nil devices_fresh
  split s := (s.relayOrigin, s.link, s.pairing, s.devices, ())
  join := fun (relayOrigin, link, pairing, devices, ()) => ⟨relayOrigin, link, pairing, devices⟩

instance : (status : Record reread Status).Total := by infer_instance

def commandFields (command : Command) : Json.Fields F :=
  ("command".toList, .str (commandName command)) ::
    match command with
    | .revoke deviceId => [("device_id".toList, .str deviceId)]
    | _ => []

/-- The token and, next to it, the fields of the command. -/
def requestValue (token : Text) (command : Command) : Json F :=
  .obj (("token".toList, .str token) :: commandFields command)

def replyValue : Except ErrorCode (Json F) → Json F
  | .ok result => .object [("ok".toList, .bool true), ("result".toList, result)]
  | .error code => .object [("ok".toList, .bool false), ("error".toList, .str (errorName code))]

end Values

section Bridge

variable {F : Type} (S : Serde F)

/-- `take(cap)` and `read_line`: the bytes through the first newline, or none within the cap. -/
def boundedLine (cap : Nat) (bytes : List UInt8) : Option (List UInt8) :=
  if newline ∈ bytes.take cap then some ((bytes.takeWhile (· ≠ newline)) ++ [newline]) else none

def knownCommands : List Text :=
  ["status".toList, "open_pairing".toList, "close_pairing".toList, "revoke".toList,
    "revoke_all".toList, "stop".toList]

/-- What the derived reader makes of an object whose command is known. -/
def readCommand (value : Json F) (name : Text) : Option Command :=
  if name = "status".toList then some .status
  else if name = "open_pairing".toList then some .openPairing
  else if name = "close_pairing".toList then some .closePairing
  else if name = "revoke".toList then
    ((value.get "device_id".toList).bind Json.asStr).map .revoke
  else if name = "revoke_all".toList then some .revokeAll
  else if name = "stop".toList then some .stop
  else none

def classify (value : Json F) (token : Text) : Except ErrorCode Command :=
  if (value.get "token".toList).bind Json.asStr ≠ some token then .error .unauthorized
  else
    match value.get "command".toList with
    | some (.str name) =>
      if name ∈ knownCommands then
        match readCommand value name with
        | some command => .ok command
        | none => .error .badRequest
      else .error .unknownCommand
    | _ => .error .badRequest

/-- The command that reaches the handler, and the bytes that are sent back. -/
structure Served where
  handled : Option Command
  reply : Option (List UInt8)
  deriving DecidableEq

def Served.closed : Served := ⟨none, none⟩

/-- A reply over the cap is not sent. -/
def sendReply (result : Except ErrorCode (Json F)) : Option (List UInt8) :=
  let body := S.write (replyValue result)
  if replyMaxBytes < body.length then none else some (body ++ [newline])

/-- `received` is what arrives before the end of the stream or the timeout. -/
def handleConnection (token : Text) (handler : Command → Except ErrorCode (Json F))
    (received : List UInt8) : Served :=
  match boundedLine (requestMaxBytes + 1) received with
  | none => .closed
  | some line =>
    match S.read line with
    | some (.obj fields) =>
      match classify (.obj fields) token with
      | .ok command => ⟨some command, sendReply S (handler command)⟩
      | .error code => ⟨none, sendReply S (.error code)⟩
    | _ => .closed

def asBool : Json F → Option Bool
  | .bool b => some b
  | _ => none

def errorOf (code : Text) : Except ClientError (Json F) :=
  if code = "unauthorized".toList then .error .notRunning
  else
    match (errorCode : Codec S.reread ErrorCode).dec (.str code) with
    | some code => .error (.rejected code)
    | none => .error (.protocol "an unknown error code")

def decodeReply (reply : Json F) : Except ClientError (Json F) :=
  match (reply.get "ok".toList).bind asBool with
  | some true =>
    match reply.get "result".toList with
    | some result => .ok result
    | none => .error (.protocol "an ok reply without a result")
  | some false =>
    match (reply.get "error".toList).bind Json.asStr with
    | some code => errorOf S code
    | none => .error (.protocol "an error reply without a code")
  | none => .error (.protocol "a reply without an ok flag")

/-- `received` is what arrives before the bridge closes. -/
def readReply (received : List UInt8) : Except ClientError (Json F) :=
  if received = [] then .error (.protocol "the bridge closed without a reply")
  else
    match boundedLine (replyMaxBytes + 1) received with
    | none => .error (.protocol "the reply was truncated or over the size cap")
    | some line =>
      match S.read line with
      | none => .error (.protocol "the reply was not one JSON object")
      | some reply => decodeReply S reply

inductive Dial where
  | refused
  | failed
  | connected

/-- `transport` gives what comes back for the bytes of the request; none is a failed or timed out
write or read. -/
def request (endpoint : Option ControlEndpoint) (dial : Dial)
    (transport : List UInt8 → Option (List UInt8)) (command : Command) :
    Except ClientError (Json F) :=
  match endpoint with
  | none => .error .notRunning
  | some endpoint =>
    match dial with
    | .refused => .error .notRunning
    | .failed => .error .io
    | .connected =>
      match transport (S.write (requestValue endpoint.token command) ++ [newline]) with
      | none => .error .io
      | some received => readReply S received

/-- The status object of a reply, for the pane. -/
def statusOf : Except ClientError (Json F) → Except ClientError Status
  | .error err => .error err
  | .ok value =>
    match (status : Record S.reread Status).codec.dec value with
    | some status => .ok status
    | none => .error (.protocol "the status object was malformed")

end Bridge

end HerdrMobile.Bridge.Control
