import HerdrMobile.Lib.Utf8
import HerdrMobile.Proto.Payloads

/-!
# The frame envelope

`frame.rs` of the protocol crate and the message union of `messages.rs`. A message is its
variant with the payload of that variant. `serde_json` is a parameter; that it reads back
what it wrote, up to the nesting it allows, is assumed of the frame at hand. The
alternative forms in which serde accepts a structure or an enumeration are not modelled.
-/

namespace HerdrMobile.Proto.Envelope

open HerdrMobile.Lib Payloads
open Messages (Text SendInput SendInputAck)
open Proto.Tree (TabSummary)

set_option autoImplicit false

variable {F : Type}

inductive Kind where
  | hostInfo
  | hostTheme
  | deviceInfo
  | treeRequest
  | treeSnapshot
  | treeUpdate
  | watchPane
  | watchAck
  | unwatchPane
  | paneFrame
  | scrollRequest
  | scrollResponse
  | sendInput
  | ping
  | pong
  | sendInputAck
  | agentStatus
  | agentPrompt
  | markSeen
  | agentPromptAck
  | hostAction
  | hostActionAck
  | deviceListRequest
  | deviceList
  | revokeDevice
  | revokeResult
  | error
  | disconnect
  | actionListRequest
  | actionList
  deriving DecidableEq

namespace Kind

def all : List Kind :=
  [hostInfo, hostTheme, deviceInfo, treeRequest, treeSnapshot, treeUpdate, watchPane, watchAck,
    unwatchPane, paneFrame, scrollRequest, scrollResponse, sendInput, ping, pong, sendInputAck,
    agentStatus, agentPrompt, markSeen, agentPromptAck, hostAction, hostActionAck,
    deviceListRequest, deviceList, revokeDevice, revokeResult, error, disconnect,
    actionListRequest, actionList]

/-- The variants of the union as the source names them. -/
def ident : Kind → Text
  | hostInfo => "HostInfo".toList
  | hostTheme => "HostTheme".toList
  | deviceInfo => "DeviceInfo".toList
  | treeRequest => "TreeRequest".toList
  | treeSnapshot => "TreeSnapshot".toList
  | treeUpdate => "TreeUpdate".toList
  | watchPane => "WatchPane".toList
  | watchAck => "WatchAck".toList
  | unwatchPane => "UnwatchPane".toList
  | paneFrame => "PaneFrame".toList
  | scrollRequest => "ScrollRequest".toList
  | scrollResponse => "ScrollResponse".toList
  | sendInput => "SendInput".toList
  | ping => "Ping".toList
  | pong => "Pong".toList
  | sendInputAck => "SendInputAck".toList
  | agentStatus => "AgentStatus".toList
  | agentPrompt => "AgentPrompt".toList
  | markSeen => "MarkSeen".toList
  | agentPromptAck => "AgentPromptAck".toList
  | hostAction => "HostAction".toList
  | hostActionAck => "HostActionAck".toList
  | deviceListRequest => "DeviceListRequest".toList
  | deviceList => "DeviceList".toList
  | revokeDevice => "RevokeDevice".toList
  | revokeResult => "RevokeResult".toList
  | error => "Error".toList
  | disconnect => "Disconnect".toList
  | actionListRequest => "ActionListRequest".toList
  | actionList => "ActionList".toList

/-- The tag the derived implementations read and write. -/
def tag (k : Kind) : Text := snakeCase k.ident

/-- The `type` of a frame. -/
def typeName : Kind → Text
  | hostInfo => "host_info".toList
  | hostTheme => "host_theme".toList
  | deviceInfo => "device_info".toList
  | treeRequest => "tree_request".toList
  | treeSnapshot => "tree_snapshot".toList
  | treeUpdate => "tree_update".toList
  | watchPane => "watch_pane".toList
  | watchAck => "watch_ack".toList
  | unwatchPane => "unwatch_pane".toList
  | paneFrame => "pane_frame".toList
  | scrollRequest => "scroll_request".toList
  | scrollResponse => "scroll_response".toList
  | sendInput => "send_input".toList
  | ping => "ping".toList
  | pong => "pong".toList
  | sendInputAck => "send_input_ack".toList
  | agentStatus => "agent_status".toList
  | agentPrompt => "agent_prompt".toList
  | markSeen => "mark_seen".toList
  | agentPromptAck => "agent_prompt_ack".toList
  | hostAction => "host_action".toList
  | hostActionAck => "host_action_ack".toList
  | deviceListRequest => "device_list_request".toList
  | deviceList => "device_list".toList
  | revokeDevice => "revoke_device".toList
  | revokeResult => "revoke_result".toList
  | error => "error".toList
  | disconnect => "disconnect".toList
  | actionListRequest => "action_list_request".toList
  | actionList => "action_list".toList

def ofTag (t : Text) : Option Kind := all.find? fun k => k.tag = t

theorem mem_all (k : Kind) : k ∈ all := by cases k <;> decide

/-- The table of type names and the derived tags agree. -/
theorem tag_eq_typeName (k : Kind) : k.tag = k.typeName := by
  have hall : ∀ k ∈ all, k.tag = k.typeName := by decide +kernel
  exact hall k k.mem_all

theorem typeNames_nodup : (all.map typeName).Nodup := by decide +kernel

theorem ofTag_tag (k : Kind) : ofTag k.tag = some k := by
  have htags : (all.map tag).Nodup := by
    rw [List.map_congr_left fun k _ => tag_eq_typeName k]
    exact typeNames_nodup
  rw [ofTag]
  exact Codec.find_name htags k.mem_all

theorem typeName_injective {k k' : Kind} (h : k.typeName = k'.typeName) : k = k' := by
  have hof := ofTag_tag k
  rw [tag_eq_typeName, h, ← tag_eq_typeName, ofTag_tag] at hof
  exact (Option.some.inj hof).symm

abbrev Payload (F : Type) : Kind → Type
  | hostInfo => HostInfo
  | hostTheme => HostTheme
  | deviceInfo => DeviceInfo
  | treeRequest => TreeRequest
  | treeSnapshot => TreeSnapshot
  | treeUpdate => TreeUpdate
  | watchPane => WatchPane
  | watchAck => WatchAck
  | unwatchPane => UnwatchPane
  | paneFrame => PaneFrame
  | scrollRequest => ScrollRequest
  | scrollResponse => ScrollResponse
  | sendInput => SendInput
  | ping => Ping
  | pong => Pong
  | sendInputAck => SendInputAck
  | agentStatus => AgentStatus
  | agentPrompt => AgentPrompt
  | markSeen => MarkSeen
  | agentPromptAck => AgentPromptAck
  | hostAction => HostAction F
  | hostActionAck => HostActionAck
  | deviceListRequest => DeviceListRequest
  | deviceList => DeviceList
  | revokeDevice => RevokeDevice
  | revokeResult => RevokeResult
  | error => ErrorMessage
  | disconnect => Disconnect
  | actionListRequest => ActionListRequest
  | actionList => ActionList

def record (reread : F → F) : (k : Kind) → Record reread (k.Payload F)
  | hostInfo => Payloads.hostInfo
  | hostTheme => Payloads.hostTheme
  | deviceInfo => Payloads.deviceInfo
  | treeRequest => Payloads.treeRequest
  | treeSnapshot => Payloads.treeSnapshot
  | treeUpdate => Payloads.treeUpdate
  | watchPane => Payloads.watchPane
  | watchAck => Payloads.watchAck
  | unwatchPane => Payloads.unwatchPane
  | paneFrame => Payloads.paneFrame
  | scrollRequest => Payloads.scrollRequest
  | scrollResponse => Payloads.scrollResponse
  | sendInput => Payloads.sendInput
  | ping => Payloads.ping
  | pong => Payloads.pong
  | sendInputAck => Payloads.sendInputAck
  | agentStatus => Payloads.agentStatus
  | agentPrompt => Payloads.agentPrompt
  | markSeen => Payloads.markSeen
  | agentPromptAck => Payloads.agentPromptAck
  | hostAction => Payloads.hostAction
  | hostActionAck => Payloads.hostActionAck
  | deviceListRequest => Payloads.deviceListRequest
  | deviceList => Payloads.deviceList
  | revokeDevice => Payloads.revokeDevice
  | revokeResult => Payloads.revokeResult
  | error => Payloads.errorMessage
  | disconnect => Payloads.disconnect
  | actionListRequest => Payloads.actionListRequest
  | actionList => Payloads.actionList

/-- No payload nests deeper than the parameters of an action do. -/
theorem depth_le (reread : F → F) (k : Kind) : (k.record reread).fields.depth ≤ paramsDepth := by
  cases k <;> exact Nat.le_of_ble_eq_true rfl

end Kind

structure Message (F : Type) where
  kind : Kind
  payload : kind.Payload F

namespace Message

/-- The derived serialization. -/
def toValue (S : Serde F) (m : Message F) : Json F :=
  Json.object [("type".toList, .str m.kind.tag),
    ("payload".toList, (m.kind.record S.reread).codec.enc m.payload)]

/-- The derived deserialization. -/
def ofValue (S : Serde F) : Json F → Option (Message F)
  | .obj fields =>
    match fields.lookup "type".toList with
    | some (.str tag) =>
      (Kind.ofTag tag).bind fun kind =>
        (fields.lookup "payload".toList).bind fun payload =>
          ((kind.record S.reread).codec.dec payload).map (⟨kind, ·⟩)
    | _ => none
  | _ => none

/-- The parameters of an action, where it has some, are not null, and are a value that
`serde_json` can read where they stand. -/
def Sendable (S : Serde F) : Message F → Prop
  | ⟨.hostAction, action⟩ =>
    ∀ params ∈ action.params, params ≠ .null ∧ params.Within S.reread paramsDepth
  | _ => True

end Message

def protocolVersion : UInt32 := 1

def maxFrameSize : Nat := 1048576

structure Frame (F : Type) where
  v : UInt32
  messageType : Text
  seq : UInt64
  corr : Option Text
  payload : Json F

inductive FrameError where
  | tooLarge (size : Nat)
  | malformed

namespace Frame

/-- The levels of nesting that are left for the payload of a frame. -/
def payloadDepth : Nat := Serde.readLimit - 1

abbrev record (reread : F → F) : Record reread (Frame F) where
  fields :=
    .cons "v".toList (.required .u32) <|
    .cons "type".toList (.required .text) <|
    .cons "seq".toList (.required .u64) <|
    .cons "corr".toList (.skipped .text) <|
    .cons "payload".toList (.required (.value reread payloadDepth)) <|
    .nil
  split s := (s.v, s.messageType, s.seq, s.corr, s.payload, ())
  join := fun (v, messageType, seq, corr, payload, ()) => ⟨v, messageType, seq, corr, payload⟩

variable (S : Serde F)

def wrap (seq : UInt64) (corr : Option Text) (message : Message F) :
    Except FrameError (Frame F) :=
  match message.toValue S with
  | .obj fields =>
    .ok { v := protocolVersion
          messageType := message.kind.typeName
          seq
          corr
          payload := (fields.lookup "payload".toList).getD (.obj []) }
  | _ => .error .malformed

/-- Recovers the message that `type` and `payload` describe. -/
def message (frame : Frame F) : Except FrameError (Message F) :=
  match Message.ofValue S (Json.object
      [("type".toList, .str frame.messageType), ("payload".toList, frame.payload)]) with
  | some message => .ok message
  | none => .error .malformed

def toJsonBytes (frame : Frame F) : Except FrameError (List UInt8) :=
  let bytes := S.write (.obj ((record S.reread).written frame))
  if bytes.length > maxFrameSize then .error (.tooLarge bytes.length) else .ok bytes

def fromJsonBytes (bytes : List UInt8) : Except FrameError (Frame F) :=
  if bytes.length > maxFrameSize then .error (.tooLarge bytes.length)
  else
    match (S.read bytes).bind (record S.reread).codec.dec with
    | some frame => .ok frame
    | none => .error .malformed

end Frame

variable (S : Serde F)

theorem Kind.record_total (reread : F → F) {k : Kind} (hk : k ≠ .hostAction) :
    (k.record reread).Total := by
  cases k with
  | hostAction => exact absurd rfl hk
  | _ =>
    rw [Kind.record]
    infer_instance

theorem Message.Sendable.ok {m : Message F} (hm : m.Sendable S) :
    (m.kind.record S.reread).ok m.payload := by
  obtain ⟨kind, payload⟩ := m
  by_cases h : kind = .hostAction
  · subst h
    have hparams : (Field.skipped (.value S.reread paramsDepth)).ok payload.params :=
      fun params hmem => ⟨(hm params hmem).2.kept, (hm params hmem).1⟩
    exact ⟨Field.Total.ok _, Field.Total.ok _, Field.Total.ok _, Field.Total.ok _,
      Field.Total.ok _, Field.Total.ok _, hparams, trivial⟩
  · exact (Kind.record_total S.reread h).ok payload

/-- The payload is read by the record of the variant that the tag names. -/
theorem Message.ofValue_tagged (k : Kind) (payload : Json F) :
    Message.ofValue S (Json.object
        [("type".toList, .str k.typeName), ("payload".toList, payload)]) =
      ((k.record S.reread).codec.dec payload).map (⟨k, ·⟩) := by
  let fields : Json.Fields F := [("type".toList, .str k.typeName), ("payload".toList, payload)]
  have htag : (Json.arrange fields).lookup "type".toList = some (.str k.typeName) := by
    rw [Json.lookup_arrange, List.lookup_cons_self]
  have hpayload : (Json.arrange fields).lookup "payload".toList = some payload := by
    rw [Json.lookup_arrange]
    rfl
  rw [Json.object, Message.ofValue, htag, hpayload]
  show (Kind.ofTag k.typeName).bind _ = _
  rw [← Kind.tag_eq_typeName, Kind.ofTag_tag]
  rfl

namespace Frame

/-- The frame of a message. -/
def holding (seq : UInt64) (corr : Option Text) (m : Message F) : Frame F :=
  ⟨protocolVersion, m.kind.typeName, seq, corr, (m.kind.record S.reread).codec.enc m.payload⟩

theorem wrap_eq (seq : UInt64) (corr : Option Text) (m : Message F) :
    wrap S seq corr m = .ok (holding S seq corr m) := by
  have hpayload : (Json.arrange [("type".toList, .str m.kind.tag),
      ("payload".toList, (m.kind.record S.reread).codec.enc m.payload)]).lookup "payload".toList =
        some ((m.kind.record S.reread).codec.enc m.payload) := by
    rw [Json.lookup_arrange]
    rfl
  rw [wrap, Message.toValue, Json.object]
  simp only [hpayload]
  rfl

variable {S}

/-- What a frame says is read from its type and payload alone. -/
theorem message_eq {f : Frame F} {k : Kind} (h : f.messageType = k.typeName) :
    f.message S = match (k.record S.reread).codec.dec f.payload with
      | some payload => .ok ⟨k, payload⟩
      | none => .error .malformed := by
  rw [message, h, Message.ofValue_tagged]
  cases (k.record S.reread).codec.dec f.payload <;> rfl

theorem message_holding {seq : UInt64} {corr : Option Text} {m : Message F} (hm : m.Sendable S) :
    (holding S seq corr m).message S = .ok m := by
  have hdec := (m.kind.record S.reread).codec.dec_enc m.payload hm.ok
  rw [message_eq rfl, holding, hdec]

theorem ok_holding {seq : UInt64} {corr : Option Text} {m : Message F} (hm : m.Sendable S) :
    (record S.reread).ok (holding S seq corr m) := by
  have hkept := (m.kind.record S.reread).codec.kept m.payload hm.ok
  have hdepth : (m.kind.record S.reread).codec.depth ≤ payloadDepth :=
    Nat.succ_le_succ (m.kind.depth_le S.reread)
  exact ⟨Field.Total.ok _, trivial, trivial, Field.Total.ok _, hkept.mono hdepth, trivial⟩

theorem fromJsonBytes_toJsonBytes {f : Frame F} (hf : (record S.reread).ok f)
    (hserde : S.Rereads (.obj ((record S.reread).written f))) {bytes : List UInt8}
    (hbytes : f.toJsonBytes S = .ok bytes) : fromJsonBytes S bytes = .ok f := by
  rw [toJsonBytes] at hbytes
  split at hbytes
  · cases hbytes
  · next hsize =>
    obtain rfl := Except.ok.inj hbytes
    have hkept := (record S.reread).fields.kept _ hf
    have hread : S.read (S.write (.obj ((record S.reread).written f))) =
        some ((record S.reread).codec.enc f) := by
      rw [hserde]
      exact Json.through_obj hkept
    rw [fromJsonBytes, if_neg hsize, hread, Option.bind_some, (record S.reread).codec.dec_enc f hf]

end Frame

end HerdrMobile.Proto.Envelope
