import HerdrMobile.Proto.Envelope

/-!
# A message survives its frame

A message that is wrapped, written, read and recovered is the same message with the same
sequence number and correlation id, and the readers of payloads ignore what they do not
know and fill in what the writers leave out. The one exception is the free-form parameter
value of a Host action: null parameters come back as none, and parameters nested too
deeply make a frame that cannot be read.
-/

namespace HerdrMobile.Proto.Envelope

open HerdrMobile.Lib Payloads
open Messages (Text SendInput SendInputAck)
open Proto.Tree (TabSummary)

set_option autoImplicit false

variable {F : Type}

inductive Part where
  | themePalette
  | workspaceSummary
  | tabSummary
  | paneSummary
  | paneScrollState
  | agentSummary
  | scrollOffsets
  | deviceListEntry
  | actionListEntry

namespace Part

abbrev Value : Part → Type
  | themePalette => ThemePalette
  | workspaceSummary => WorkspaceSummary
  | tabSummary => TabSummary
  | paneSummary => PaneSummary
  | paneScrollState => PaneScrollState
  | agentSummary => AgentSummary
  | scrollOffsets => ScrollOffsets
  | deviceListEntry => DeviceListEntry
  | actionListEntry => ActionListEntry

def record (reread : F → F) : (p : Part) → Record reread p.Value
  | themePalette => Payloads.themePalette
  | workspaceSummary => Payloads.workspaceSummary
  | tabSummary => Payloads.tabSummary
  | paneSummary => Payloads.paneSummary
  | paneScrollState => Payloads.paneScrollState
  | agentSummary => Payloads.agentSummary
  | scrollOffsets => Payloads.scrollOffsets
  | deviceListEntry => Payloads.deviceListEntry
  | actionListEntry => Payloads.actionListEntry

end Part

variable (S : Serde F)

/-- The message comes back from the bytes of its frame, with its sequence number and
correlation id, where the frame is not too large and `serde_json` reads back what it
wrote. -/
def Preserved (seq : UInt64) (corr : Option Text) (m : Message F) : Prop :=
  ∃ f, Frame.wrap S seq corr m = .ok f ∧
    let value := Json.obj ((Frame.record S.reread).written f)
    (S.write value).length ≤ maxFrameSize → S.Rereads value →
      ∃ bytes f', f.toJsonBytes S = .ok bytes ∧ Frame.fromJsonBytes S bytes = .ok f' ∧
        f'.message S = .ok m ∧ f'.seq = seq ∧ f'.corr = corr

theorem preserved_of_sendable (seq : UInt64) (corr : Option Text) {m : Message F}
    (hm : m.Sendable S) : Preserved S seq corr m := by
  refine ⟨Frame.holding S seq corr m, Frame.wrap_eq S seq corr m, fun hsize hserde => ?_⟩
  have hbytes : (Frame.holding S seq corr m).toJsonBytes S =
      .ok (S.write (.obj ((Frame.record S.reread).written (Frame.holding S seq corr m)))) :=
    if_neg (Nat.not_lt.mpr hsize)
  exact ⟨_, _, hbytes, Frame.fromJsonBytes_toJsonBytes (Frame.ok_holding hm) hserde hbytes,
    Frame.message_holding hm, rfl, rfl⟩

/-- A frame of a known type says the same with a further field in its payload. -/
def IgnoresUnknown : Prop :=
  ∀ (f : Frame F) (k : Kind), f.messageType = k.typeName → ∀ fields, f.payload = .obj fields →
    ∀ key ∉ (k.record S.reread).fields.keys, ∀ value,
      Frame.message S { f with payload := .obj (Json.insertField key value fields) } = f.message S

/-- Without a field that is left out for some payload, the frame of a message says the
message with the value for which that field is left out. -/
def FillsIn : Prop :=
  ∀ (seq : UInt64) (corr : Option Text) (m : Message F), m.Sendable S →
    let r := m.kind.record S.reread
    ∀ key ∈ r.fields.keys, (∃ p, (r.written p).lookup key = none) →
      ∃ p, Frame.message S { Frame.holding S seq corr m with
          payload := .obj (Json.eraseField key (Json.arrange (r.written m.payload))) } =
            .ok ⟨m.kind, p⟩ ∧
        ∀ k, (r.written p).lookup k = if k = key then none else (r.written m.payload).lookup k

theorem ignoresUnknown : IgnoresUnknown S := by
  intro f k hk fields hpayload key hkey value
  have hmore := Frame.message_eq (S := S)
    (f := { f with payload := .obj (Json.insertField key value fields) }) hk
  rw [hmore, Frame.message_eq hk, hpayload, (k.record S.reread).lenient.unknown key hkey]

theorem fillsIn : FillsIn S := by
  intro seq corr m hm r key hkey hout
  obtain ⟨p, hp, hlook⟩ := r.lenient.left_out key hkey hout m.payload hm.ok
  have hless := Frame.message_eq (S := S) (f := { Frame.holding S seq corr m with
    payload := .obj (Json.eraseField key (Json.arrange (r.written m.payload))) }) rfl
  rw [hp] at hless
  exact ⟨p, hless, hlook⟩

theorem message_survives_frame :
    (∀ (seq : UInt64) (corr : Option Text) (m : Message F), m.Sendable S →
      Preserved S seq corr m) ∧
    (∀ k k' : Kind, k.typeName = k'.typeName → k = k') ∧
    IgnoresUnknown S ∧ FillsIn S ∧
    (∀ k : Kind, (k.record S.reread).Lenient) ∧ ∀ p : Part, (p.record S.reread).Lenient :=
  ⟨fun seq corr _ hm => preserved_of_sendable S seq corr hm, fun _ _ => Kind.typeName_injective,
    ignoresUnknown S, fillsIn S, fun k => (k.record S.reread).lenient,
    fun p => (p.record S.reread).lenient⟩

/-- A `serde_json` for one object and its text. -/
def serdeFor (fields : Json.Fields Empty) (text : Text) : Serde Empty :=
  .only (.obj fields) (Utf8.utf8 text)

def enterLater : Message Empty :=
  ⟨.sendInput,
    { paneId := "w1:p2".toList, keys := some ["Enter".toList], defer := some .untilIdle }⟩

def enterLaterFields : Json.Fields Empty :=
  [("v".toList, .posInt 1), ("type".toList, .str "send_input".toList), ("seq".toList, .posInt 7),
    ("corr".toList, .str "c1".toList),
    ("payload".toList, .obj [("defer".toList, .str "until_idle".toList),
      ("keys".toList, .arr [.str "Enter".toList]), ("pane_id".toList, .str "w1:p2".toList)])]

def enterLaterText : Text :=
  "\x7b\"v\":1,\"type\":\"send_input\",\"seq\":7,\"corr\":\"c1\",\"payload\":".toList ++
    "\x7b\"defer\":\"until_idle\",\"keys\":[\"Enter\"],\"pane_id\":\"w1:p2\"\x7d\x7d".toList

set_option maxRecDepth 8000 in
theorem message_survives_frame_enterLater :
    let S := serdeFor enterLaterFields enterLaterText
    ∃ bytes f,
      (Frame.wrap S 7 (some "c1".toList) enterLater).bind (Frame.toJsonBytes S) = .ok bytes ∧
      Frame.fromJsonBytes S bytes = .ok f ∧ f.message S = .ok enterLater ∧ f.seq = 7 ∧
      f.corr = some "c1".toList := by
  intro S
  obtain ⟨f, hwrap, hlaw⟩ := (message_survives_frame S).1 7 (some "c1".toList) enterLater trivial
  obtain rfl : Frame.holding S 7 (some "c1".toList) enterLater = f :=
    Except.ok.inj ((Frame.wrap_eq S 7 _ enterLater).symm.trans hwrap)
  have hfields : (Frame.record S.reread).written (Frame.holding S 7 (some "c1".toList) enterLater) =
      enterLaterFields := rfl
  obtain ⟨bytes, f', hbytes, hf', hm, hseq, hcorr⟩ := hlaw (by decide)
    (hfields ▸ Serde.rereads_only _ _)
  refine ⟨bytes, f', ?_, hf', hm, hseq, hcorr⟩
  rw [hwrap]
  exact hbytes

def zoom (params : Json Empty) : Message Empty :=
  ⟨.hostAction, ⟨.zoom, none, none, none, none, none, some params⟩⟩

def zoomFields (params : Json Empty) : Json.Fields Empty :=
  [("v".toList, .posInt 1), ("type".toList, .str "host_action".toList), ("seq".toList, .posInt 1),
    ("payload".toList, .obj [("action".toList, .str "zoom".toList), ("params".toList, params)])]

def zoomText (params : Text) : Text :=
  "\x7b\"v\":1,\"type\":\"host_action\",\"seq\":1,\"payload\":".toList ++
    "\x7b\"action\":\"zoom\",\"params\":".toList ++ params ++ "\x7d\x7d".toList

def nestedText : Text :=
  List.replicate 126 '[' ++ "null".toList ++ List.replicate 126 ']'

def hasParams : Except FrameError (Message Empty) → Bool
  | .ok ⟨.hostAction, action⟩ => action.params.isSome
  | _ => false

/-- A frame of the zoom action that is preserved is read, and says the action. -/
theorem read_of_preserved {params : Json Empty} {text : Text}
    (hsize : (Utf8.utf8 (zoomText text)).length ≤ maxFrameSize)
    (h : Preserved (serdeFor (zoomFields params) (zoomText text)) 1 none (zoom params)) :
    ∃ j f, (Json.obj (zoomFields params)).through id Serde.readLimit = some j ∧
      (Frame.record id).codec.dec j = some f ∧
      f.message (serdeFor (zoomFields params) (zoomText text)) = .ok (zoom params) := by
  obtain ⟨f, hwrap, hlaw⟩ := h
  obtain rfl := Except.ok.inj ((Frame.wrap_eq _ 1 none (zoom params)).symm.trans hwrap)
  obtain ⟨bytes, f', hbytes, hf', hm, -, -⟩ := hlaw hsize
    (Serde.rereads_only _ _)
  have htext : Utf8.utf8 (zoomText text) = bytes :=
    Except.ok.inj ((if_neg (Nat.not_lt.mpr hsize)).symm.trans hbytes)
  rw [← htext, Frame.fromJsonBytes, if_neg (Nat.not_lt.mpr hsize)] at hf'
  have hread : (serdeFor (zoomFields params) (zoomText text)).read (Utf8.utf8 (zoomText text)) =
      (Json.obj (zoomFields params)).through id Serde.readLimit := if_pos rfl
  rw [hread] at hf'
  split at hf'
  · next frame hframe =>
    obtain rfl := Except.ok.inj hf'
    obtain ⟨j, hj, hdec⟩ := Option.bind_eq_some_iff.mp hframe
    exact ⟨j, frame, hj, hdec, hm⟩
  · cases hf'

/-- Null parameters come back as none, and parameters that nest 126 levels deep are not
read at all. -/
theorem params_not_preserved :
    ¬ Preserved (serdeFor (zoomFields .null) (zoomText "null".toList)) 1 none (zoom .null) ∧
      ¬ Preserved (serdeFor (zoomFields (Json.nest .null 126)) (zoomText nestedText)) 1 none
        (zoom (Json.nest .null 126)) := by
  constructor
  · intro h
    obtain ⟨j, f, hj, hf, hm⟩ := read_of_preserved (by decide) h
    obtain rfl := Option.some.inj (hj.symm.trans rfl)
    obtain rfl := Option.some.inj (hf.symm.trans rfl)
    exact absurd (congrArg hasParams hm) Bool.false_ne_true
  · intro h
    obtain ⟨j, _, hj, -⟩ := read_of_preserved (by decide +kernel) h
    have hparams := Json.through_nest id (.null : Json Empty) 125
    have hpayload : Json.through id 126 (.obj [("action".toList, .str "zoom".toList),
        ("params".toList, Json.nest (.null : Json Empty) 126)]) = none :=
      Json.through_obj_none (List.mem_cons_of_mem _ List.mem_cons_self) hparams
    have hframe : Json.through id 127 (Json.obj (zoomFields (Json.nest .null 126))) = none :=
      Json.through_obj_none (List.mem_cons_of_mem _ (List.mem_cons_of_mem _
        (List.mem_cons_of_mem _ List.mem_cons_self))) hpayload
    exact absurd (hframe.symm.trans hj) nofun

end HerdrMobile.Proto.Envelope
