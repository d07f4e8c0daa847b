import HerdrMobile.Bridge.Host
import HerdrMobile.Host.Herdr
import HerdrMobile.Proto.Payloads

/-!
# The actions of a Device

The handlers of `host_action`. Each one makes at most one call that changes something at
Herdr, and Herdr can fail that call before the change and after it. The calls that took
effect are listed, so that the reply can be compared with them.
-/
namespace HerdrMobile.Host.Actions

open HerdrMobile.Lib HerdrMobile.Proto.Messages HerdrMobile.Proto.Payloads
open HerdrMobile.Host.Herdr (WatchError)
open HerdrMobile.Bridge.Store (DeviceStore)

set_option autoImplicit false

variable {F : Type}

/-- The calls that change something at Herdr. -/
inductive Call (F : Type) where
  | workspaceCreate (params : Json F)
  | tabCreate (params : Json F)
  | paneSplit (params : Json F)
  | paneZoom (paneId mode : Text)
  | paneClose (paneId : Text)
  | paneRename (paneId : Text) (label : Option Text)
  | paneResize (paneId direction : Text) (amount : Option F)
  | pluginActionInvoke (params : Json F)

/-- What comes of such a call. `id` is what a create call has made. -/
inductive Taken where
  | done (id : Text)
  | failed (changed : Bool)
  deriving DecidableEq

/-- The ids of a snapshot, each with its `focused`. -/
structure Snapshot where
  workspaces : List (Text × Bool)
  tabs : List (Text × Bool)
  panes : List (Text × Bool)

/-- What Herdr does for one request: its call, and the three snapshots of `plugin.invoke`. -/
structure Herdr where
  taken : Taken
  context : Except WatchError Snapshot
  before : Except WatchError Snapshot
  after : Except WatchError Snapshot

abbrev Handler (F α : Type) := ExceptT WatchError (StateM (List (Call F))) α

/-- The call with its effect. -/
def change (herdr : Herdr) (call : Call F) : Handler F Text :=
  match herdr.taken with
  | .done id => do
    modify (· ++ [call])
    pure id
  | .failed changed => do
    if changed then modify (· ++ [call])
    throw .herdr

/-- A failure that the handler looks at itself. -/
def attempt {α : Type} (handler : Handler F α) : Handler F (Except WatchError α) :=
  ExceptT.lift handler.run

/-- What `Debug` writes of a kind. -/
def debugName : HostActionKind → String
  | .workspaceCreate => "WorkspaceCreate"
  | .tabCreate => "TabCreate"
  | .paneSplit => "PaneSplit"
  | .split => "Split"
  | .zoom => "Zoom"
  | .close => "Close"
  | .rename => "Rename"
  | .resize => "Resize"
  | .pluginInvoke => "PluginInvoke"

def requirePaneId (request : HostAction F) : Except WatchError Text :=
  match request.paneId with
  | some paneId => .ok paneId
  | none =>
    .error (.invalidInput ("host_action " ++ debugName request.action ++ " requires pane_id"))

def paramStr (params : Option (Json F)) (key : String) : Option Text :=
  (params.bind (·.get key.toList)).bind Json.asStr

def requireParamStr (params : Option (Json F)) (key : String) : Except WatchError Text :=
  match paramStr params key with
  | some text => .ok text
  | none =>
    .error (.invalidInput ("host_action params missing required field \"" ++ key ++ "\""))

/-- `asF64` reads any number of `serde_json` as a float. -/
def paramF64 (asF64 : Json F → Option F) (params : Option (Json F)) (key : String) : Option F :=
  (params.bind (·.get key.toList)).bind asF64

/-- `out[key] = value` where there is a value. -/
def putSome (key : String) (value : Option (Json F)) (out : Json F) : Json F :=
  match value with
  | some value => out.put key.toList value
  | none => out

/-- R-11-203: `focus` is always false. -/
def baseCreateParams (params : Option (Json F)) : Json F :=
  let out := Json.object [("focus".toList, .bool false)]
  let out := putSome "cwd" ((paramStr params "cwd").map .str) out
  putSome "env" (params.bind (·.get "env".toList)) out

/-- What a handler makes of its acknowledgement: `success`, `pane_id` and `result_id`. -/
abbrev Acked := Bool × Option Text × Option Text

section Handlers

variable (asF64 : Json F → Option F) (herdr : Herdr)

def actionWorkspaceCreate (request : HostAction F) : Handler F Acked := do
  let params := baseCreateParams request.params
  let params := putSome "label" ((paramStr request.params "label").map .str) params
  let workspaceId ← change herdr (.workspaceCreate params)
  return (true, none, some workspaceId)

def actionTabCreate (request : HostAction F) : Handler F Acked := do
  let params := baseCreateParams request.params
  let params := putSome "label" ((paramStr request.params "label").map .str) params
  let params := putSome "workspace_id" (request.workspaceId.map .str) params
  let tabId ← change herdr (.tabCreate params)
  return (true, none, some tabId)

/-- `pane.split` as a create action: it carries no label. -/
def actionPaneSplitCreate (request : HostAction F) : Handler F Acked := do
  let direction ← requireParamStr request.params "direction"
  let params := (baseCreateParams request.params).put "direction".toList (.str direction)
  let params := putSome "ratio" ((paramF64 asF64 request.params "ratio").map .float) params
  let params := putSome "workspace_id" (request.workspaceId.map .str) params
  let targetPaneId := request.paneId.or (paramStr request.params "target_pane_id")
  let params := putSome "target_pane_id" (targetPaneId.map .str) params
  let newPaneId ← change herdr (.paneSplit params)
  return (true, targetPaneId, some newPaneId)

def actionPaneSplitExisting (request : HostAction F) : Handler F Acked := do
  let paneId ← requirePaneId request
  let direction ← requireParamStr request.params "direction"
  let params := Json.object
    [("target_pane_id".toList, .str paneId), ("direction".toList, .str direction),
      ("focus".toList, .bool false)]
  let newPaneId ← change herdr (.paneSplit params)
  return (true, some paneId, some newPaneId)

def actionPaneZoom (request : HostAction F) : Handler F Acked := do
  let paneId ← requirePaneId request
  let mode := (paramStr request.params "mode").getD "toggle".toList
  let _ ← change herdr (.paneZoom paneId mode)
  return (true, some paneId, none)

def actionPaneClose (request : HostAction F) : Handler F Acked := do
  let paneId ← requirePaneId request
  let _ ← change herdr (.paneClose paneId)
  return (true, some paneId, none)

/-- R-02-022: no label clears it. -/
def actionPaneRename (request : HostAction F) : Handler F Acked := do
  let paneId ← requirePaneId request
  let label := paramStr request.params "label"
  let _ ← change herdr (.paneRename paneId label)
  return (true, some paneId, none)

def actionPaneResize (request : HostAction F) : Handler F Acked := do
  let paneId ← requirePaneId request
  let direction ← requireParamStr request.params "direction"
  let amount := paramF64 asF64 request.params "amount"
  let _ ← change herdr (.paneResize paneId direction amount)
  return (true, some paneId, none)

/-- What a handler answers with when it does not fail. -/
inductive Reply where
  | ack (payload : HostActionAck)
  | error (cause : WatchError)

def focused (entries : List (Text × Bool)) : Option Text := (entries.find? Prod.snd).map Prod.fst

def orNull (text : Option Text) : Json F := (text.map .str).getD .null

/-- R-11-216: five fields are null whatever the Device sends. -/
def buildInvocationContext (request : HostAction F) : Except WatchError (Json F) := do
  let tree ← herdr.context
  return Json.object
    [("focused_workspace_id".toList, orNull (request.workspaceId.or (focused tree.workspaces))),
      ("focused_tab_id".toList, orNull (request.tabId.or (focused tree.tabs))),
      ("focused_pane_id".toList, orNull (request.paneId.or (focused tree.panes))),
      ("selected_text".toList, .null), ("focused_pane_cwd".toList, .null),
      ("workspace_cwd".toList, .null), ("clicked_url".toList, .null),
      ("link_handler_id".toList, .null), ("invocation_source".toList, .str "herdr-remote".toList)]

def snapshotPaneIds (snapshot : Except WatchError Snapshot) : Except WatchError (List Text) :=
  snapshot.map fun tree => (tree.panes.map Prod.fst).dedup

/-- R-11-217a: the pane that appeared, when exactly one did. -/
def onlyNew (before after : List Text) : Option Text :=
  match after.filter (· ∉ before) with
  | [id] => some id
  | _ => none

def requireId (id : Option Text) (reason : String) : Except WatchError Text :=
  match id with
  | some id => .ok id
  | none => .error (.invalidInput reason)

/-- A call that Herdr rejects is answered here. A snapshot that fails is an error, the one
after the call too. -/
def actionPluginInvoke (request : HostAction F) : Handler F Reply := do
  let pluginId ← requireId request.pluginId "host_action plugin.invoke requires plugin_id"
  let actionId ← requireId request.actionId "host_action plugin.invoke requires action_id"
  let context ← buildInvocationContext herdr request
  let params := Json.object
    [("plugin_id".toList, .str pluginId), ("action_id".toList, .str actionId),
      ("context".toList, context)]
  let before ← snapshotPaneIds herdr.before
  match ← attempt (change herdr (.pluginActionInvoke params)) with
  | .error err => return .error err
  | .ok _ =>
    let after ← snapshotPaneIds herdr.after
    let paneId := onlyNew before after
    return .ack ⟨.pluginInvoke, true, paneId, paneId⟩

/-- Every action but `plugin.invoke` has its acknowledgement built here. -/
def hostAction (request : HostAction F) : Handler F Reply :=
  let acked (handler : Handler F Acked) : Handler F Reply := do
    let (success, paneId, resultId) ← handler
    return .ack ⟨request.action, success, paneId, resultId⟩
  match request.action with
  | .workspaceCreate => acked (actionWorkspaceCreate herdr request)
  | .tabCreate => acked (actionTabCreate herdr request)
  | .paneSplit => acked (actionPaneSplitCreate asF64 herdr request)
  | .split => acked (actionPaneSplitExisting herdr request)
  | .zoom => acked (actionPaneZoom herdr request)
  | .close => acked (actionPaneClose herdr request)
  | .rename => acked (actionPaneRename herdr request)
  | .resize => acked (actionPaneResize asF64 herdr request)
  | .pluginInvoke => actionPluginInvoke herdr request

/-- The arm of the bridge thread: an error of the handler is a reply as well. -/
def merge (result : Except WatchError Reply × List (Call F)) : Reply × List (Call F) :=
  match result with
  | (.ok reply, calls) => (reply, calls)
  | (.error cause, calls) => (.error cause, calls)

/-- What the Device gets, and the calls that took effect. -/
def answer (request : HostAction F) : Reply × List (Call F) :=
  merge ((hostAction asF64 herdr request).run.run [])

end Handlers

section Spec

variable {asF64 : Json F → Option F} {herdr : Herdr} {request : HostAction F} {α β : Type}

/-- The call is the one that the request is for. -/
def Asks (request : HostAction F) : Call F → Prop
  | .workspaceCreate _ => request.action = .workspaceCreate
  | .tabCreate params =>
    request.action = .tabCreate ∧
      ∀ id, request.workspaceId = some id → params.get "workspace_id".toList = some (.str id)
  | .paneSplit params =>
    (request.action = .paneSplit ∨ request.action = .split) ∧
      ∀ id, request.paneId = some id → params.get "target_pane_id".toList = some (.str id)
  | .paneZoom paneId _ => request.action = .zoom ∧ request.paneId = some paneId
  | .paneClose paneId => request.action = .close ∧ request.paneId = some paneId
  | .paneRename paneId label =>
    request.action = .rename ∧ request.paneId = some paneId ∧
      label = paramStr request.params "label"
  | .paneResize paneId direction _ =>
    request.action = .resize ∧ request.paneId = some paneId ∧
      paramStr request.params "direction" = some direction
  | .pluginActionInvoke params =>
    request.action = .pluginInvoke ∧
      params.get "plugin_id".toList = request.pluginId.map .str ∧
      params.get "action_id".toList = request.actionId.map .str

/-- The request gets as far as its call. -/
def Reaches (herdr : Herdr) (request : HostAction F) : Prop :=
  match request.action with
  | .workspaceCreate | .tabCreate => True
  | .paneSplit => (paramStr request.params "direction").isSome = true
  | .split | .resize =>
    request.paneId.isSome = true ∧ (paramStr request.params "direction").isSome = true
  | .zoom | .close | .rename => request.paneId.isSome = true
  | .pluginInvoke =>
    request.pluginId.isSome = true ∧ request.actionId.isSome = true ∧
      herdr.context.isOk = true ∧ herdr.before.isOk = true

/-- A handler fails before its call, or it ends as Herdr takes the call. -/
inductive Ended (herdr : Herdr) (request : HostAction F) (log : List (Call F)) :
    Except WatchError α × List (Call F) → Prop where
  | refused (cause : WatchError) (short : ¬Reaches herdr request) :
      Ended herdr request log (.error cause, log)
  | done (call : Call F) (id : Text) (value : α) (taken : herdr.taken = .done id)
      (asks : Asks request call) : Ended herdr request log (.ok value, log ++ [call])
  | failed (call : Call F) (changed : Bool) (reaches : Reaches herdr request)
      (taken : herdr.taken = .failed changed) (asks : Asks request call) :
      Ended herdr request log (.error .herdr, if changed then log ++ [call] else log)

def OneCall (herdr : Herdr) (request : HostAction F) (handler : Handler F α) : Prop :=
  ∀ log, Ended herdr request log (handler.run.run log)

theorem OneCall.check {found : Except WatchError β} {rest : β → Handler F α}
    (hreach : Reaches herdr request → found.isOk = true)
    (h : ∀ b, found = .ok b → OneCall herdr request (rest b)) :
    OneCall herdr request (liftM found >>= rest) := by
  intro log
  cases found with
  | error cause => exact .refused cause fun hr => Bool.noConfusion (hreach hr)
  | ok b => exact h b rfl log

theorem OneCall.call {call : Call F} (hreach : Reaches herdr request) (h : Asks request call)
    (f : Text → α) : OneCall herdr request (change herdr call >>= fun id => pure (f id)) := by
  intro log
  unfold change
  cases htaken : herdr.taken with
  | done id => exact .done call id (f id) htaken h
  | failed changed =>
    have hended := @Ended.failed F α herdr request log call changed hreach htaken h
    cases changed with
    | true => exact hended
    | false => exact hended

theorem run_map (handler : Handler F α) (f : α → β) (log : List (Call F)) :
    (handler >>= fun a => pure (f a)).run.run log =
      ((handler.run.run log).1.map f, (handler.run.run log).2) := by
  rw [ExceptT.run_bind, StateT.run_bind]
  generalize handler.run.run log = result
  obtain ⟨found, calls⟩ := result
  cases found with
  | error cause => rfl
  | ok value => rfl

end Spec

section Parameters

variable {j : Json F}

def IsObject (j : Json F) : Prop := ∃ fields, j = .obj fields

theorem IsObject.put (h : IsObject j) (key : Text) (value : Json F) :
    IsObject (j.put key value) := by
  obtain ⟨fields, rfl⟩ := h
  exact ⟨_, rfl⟩

theorem IsObject.putSome (h : IsObject j) (key : String) (value : Option (Json F)) :
    IsObject (putSome key value j) := by
  cases value with
  | none => exact h
  | some value => exact h.put key.toList value

theorem isObject_baseCreateParams (params : Option (Json F)) :
    IsObject (baseCreateParams params) := by
  refine IsObject.putSome (IsObject.putSome ?_ _ _) _ _
  exact ⟨_, rfl⟩

theorem putSome_get (h : IsObject j) (key : String) (text : Text) :
    (putSome key ((some text).map .str) j).get key.toList = some (.str text) := by
  obtain ⟨fields, rfl⟩ := h
  show ((Json.obj fields).put key.toList (.str text)).get key.toList = _
  rw [Json.get_put, if_pos rfl]

end Parameters

section Spec

variable (asF64 : Json F → Option F) (herdr : Herdr) (request : HostAction F)

theorem requirePaneId_isOk : (requirePaneId request).isOk = request.paneId.isSome := by
  unfold requirePaneId
  cases request.paneId with
  | none => rfl
  | some paneId => rfl

theorem requireParamStr_isOk (params : Option (Json F)) (key : String) :
    (requireParamStr params key).isOk = (paramStr params key).isSome := by
  unfold requireParamStr
  cases paramStr params key with
  | none => rfl
  | some text => rfl

theorem requirePaneId_ok {request : HostAction F} {paneId : Text}
    (h : requirePaneId request = .ok paneId) : request.paneId = some paneId := by
  unfold requirePaneId at h
  split at h
  · rename_i found hfound
    cases h
    exact hfound
  · cases h

theorem requireParamStr_ok {params : Option (Json F)} {key : String} {text : Text}
    (h : requireParamStr params key = .ok text) : paramStr params key = some text := by
  unfold requireParamStr at h
  split at h
  · rename_i found hfound
    cases h
    exact hfound
  · cases h

theorem workspaceCreate_oneCall (h : request.action = .workspaceCreate) :
    OneCall herdr request (actionWorkspaceCreate herdr request) := by
  refine OneCall.call ?_ ?_ _
  · unfold Reaches
    rw [h]
    trivial
  · exact h

theorem tabCreate_oneCall (h : request.action = .tabCreate) :
    OneCall herdr request (actionTabCreate herdr request) := by
  refine OneCall.call ?_ ?_ _
  · unfold Reaches
    rw [h]
    trivial
  · refine ⟨h, fun id hid => ?_⟩
    rw [hid]
    exact putSome_get ((isObject_baseCreateParams _).putSome _ _) _ id

theorem paneSplitCreate_oneCall (h : request.action = .paneSplit) :
    OneCall herdr request (actionPaneSplitCreate asF64 herdr request) := by
  have hreach : Reaches herdr request ↔
      (requireParamStr request.params "direction").isOk = true := by
    rw [requireParamStr_isOk, Reaches, h]
  refine OneCall.check hreach.mp fun direction hdir => OneCall.call ?_ ?_ _
  · rw [hreach, hdir]
    rfl
  · refine ⟨.inl h, fun id hid => ?_⟩
    rw [hid]
    refine putSome_get (IsObject.putSome (IsObject.putSome (IsObject.put ?_ _ _) _ _) _ _) _ id
    exact isObject_baseCreateParams _

/-- An action on a pane that asks for nothing more. -/
theorem reaches_pane (h : request.action = .zoom ∨ request.action = .close ∨
    request.action = .rename) :
    Reaches herdr request ↔ (requirePaneId request).isOk = true := by
  rw [requirePaneId_isOk, Reaches]
  rcases h with h | h | h <;> rw [h]

/-- An action on a pane that asks for a direction. -/
theorem reaches_direction (h : request.action = .split ∨ request.action = .resize) :
    Reaches herdr request ↔ (requirePaneId request).isOk = true ∧
      (requireParamStr request.params "direction").isOk = true := by
  rw [requirePaneId_isOk, requireParamStr_isOk, Reaches]
  rcases h with h | h <;> rw [h]

theorem paneSplitExisting_oneCall (h : request.action = .split) :
    OneCall herdr request (actionPaneSplitExisting herdr request) := by
  have hreach := reaches_direction herdr request (.inl h)
  refine OneCall.check (fun hr => (hreach.mp hr).1) fun paneId hpane =>
    OneCall.check (fun hr => (hreach.mp hr).2) fun direction hdir => OneCall.call ?_ ?_ _
  · rw [hreach, hpane, hdir]
    exact ⟨rfl, rfl⟩
  · refine ⟨.inr h, fun id hid => ?_⟩
    rw [requirePaneId_ok hpane] at hid
    cases hid
    rw [Json.get_object]
    rfl

theorem paneZoom_oneCall (h : request.action = .zoom) :
    OneCall herdr request (actionPaneZoom herdr request) := by
  have hreach := reaches_pane herdr request (.inl h)
  refine OneCall.check hreach.mp fun paneId hpane => OneCall.call ?_ ?_ _
  · rw [hreach, hpane]
    rfl
  · exact ⟨h, requirePaneId_ok hpane⟩

theorem paneClose_oneCall (h : request.action = .close) :
    OneCall herdr request (actionPaneClose herdr request) := by
  have hreach := reaches_pane herdr request (.inr (.inl h))
  refine OneCall.check hreach.mp fun paneId hpane => OneCall.call ?_ ?_ _
  · rw [hreach, hpane]
    rfl
  · exact ⟨h, requirePaneId_ok hpane⟩

theorem paneRename_oneCall (h : request.action = .rename) :
    OneCall herdr request (actionPaneRename herdr request) := by
  have hreach := reaches_pane herdr request (.inr (.inr h))
  refine OneCall.check hreach.mp fun paneId hpane => OneCall.call ?_ ?_ _
  · rw [hreach, hpane]
    rfl
  · exact ⟨h, requirePaneId_ok hpane, rfl⟩

theorem paneResize_oneCall (h : request.action = .resize) :
    OneCall herdr request (actionPaneResize asF64 herdr request) := by
  have hreach := reaches_direction herdr request (.inr h)
  refine OneCall.check (fun hr => (hreach.mp hr).1) fun paneId hpane =>
    OneCall.check (fun hr => (hreach.mp hr).2) fun direction hdir => OneCall.call ?_ ?_ _
  · rw [hreach, hpane, hdir]
    exact ⟨rfl, rfl⟩
  · exact ⟨h, requirePaneId_ok hpane, requireParamStr_ok hdir⟩

theorem requireId_isOk (id : Option Text) (reason : String) :
    (requireId id reason).isOk = id.isSome := by
  cases id with
  | none => rfl
  | some id => rfl

theorem requireId_ok {id : Option Text} {reason : String} {text : Text}
    (h : requireId id reason = .ok text) : id = some text := by
  unfold requireId at h
  split at h
  · cases h
    rfl
  · cases h

theorem buildInvocationContext_isOk :
    (buildInvocationContext herdr request).isOk = herdr.context.isOk := by
  unfold buildInvocationContext
  cases herdr.context with
  | error cause => rfl
  | ok tree => rfl

theorem snapshotPaneIds_isOk (snapshot : Except WatchError Snapshot) :
    (snapshotPaneIds snapshot).isOk = snapshot.isOk := by
  cases snapshot with
  | error cause => rfl
  | ok tree => rfl

/-- What a request comes to. Only `plugin.invoke` can do its call and then fail. -/
inductive Answered (herdr : Herdr) (request : HostAction F) : Reply × List (Call F) → Prop where
  | refused (cause : WatchError) (short : ¬Reaches herdr request) :
      Answered herdr request (.error cause, [])
  | done (call : Call F) (id : Text) (payload : HostActionAck) (taken : herdr.taken = .done id)
      (after : request.action = .pluginInvoke → herdr.after.isOk = true)
      (asks : Asks request call) : Answered herdr request (.ack payload, [call])
  | failed (call : Call F) (changed : Bool) (reaches : Reaches herdr request)
      (taken : herdr.taken = .failed changed) (asks : Asks request call) :
      Answered herdr request (.error .herdr, if changed then [call] else [])
  | lost (call : Call F) (id : Text) (cause : WatchError) (reaches : Reaches herdr request)
      (invokes : request.action = .pluginInvoke) (taken : herdr.taken = .done id)
      (after : herdr.after = .error cause) (asks : Asks request call) :
      Answered herdr request (.error cause, [call])

theorem Answered.check {β : Type} {herdr : Herdr} {request : HostAction F}
    {found : Except WatchError β} {rest : β → Handler F Reply}
    (hreach : Reaches herdr request → found.isOk = true)
    (h : ∀ b, found = .ok b → Answered herdr request (merge ((rest b).run.run []))) :
    Answered herdr request
      (merge ((liftM found >>= rest : Handler F Reply).run.run [])) := by
  cases found with
  | error cause => exact .refused cause fun hr => Bool.noConfusion (hreach hr)
  | ok b => exact h b rfl

theorem OneCall.answered {herdr : Herdr} {request : HostAction F} {handler : Handler F Acked}
    (h : OneCall herdr request handler) (hplain : request.action ≠ .pluginInvoke)
    (f : Acked → HostActionAck) :
    Answered herdr request
      (merge ((handler >>= fun acked => pure (Reply.ack (f acked))).run.run [])) := by
  rw [run_map]
  have hended := h []
  generalize handler.run.run [] = result at hended
  cases hended with
  | refused cause short => exact .refused cause short
  | done call id value taken asks =>
    exact .done call id (f value) taken (fun h => absurd h hplain) asks
  | failed call changed reaches taken asks => exact .failed call changed reaches taken asks

theorem pluginInvoke_answered (h : request.action = .pluginInvoke) :
    Answered herdr request (merge ((actionPluginInvoke herdr request).run.run [])) := by
  have hreach : Reaches herdr request ↔ request.pluginId.isSome = true ∧
      request.actionId.isSome = true ∧ herdr.context.isOk = true ∧ herdr.before.isOk = true := by
    rw [Reaches, h]
  refine Answered.check (fun hr => ?_) fun pluginId hplugin =>
    Answered.check (fun hr => ?_) fun actionId haction =>
    Answered.check (fun hr => ?_) fun context hcontext =>
    Answered.check (fun hr => ?_) fun before hbefore => ?_
  · rw [requireId_isOk]
    exact (hreach.mp hr).1
  · rw [requireId_isOk]
    exact (hreach.mp hr).2.1
  · rw [buildInvocationContext_isOk]
    exact (hreach.mp hr).2.2.1
  · rw [snapshotPaneIds_isOk]
    exact (hreach.mp hr).2.2.2
  have hreaches : Reaches herdr request := by
    rw [hreach, requireId_ok hplugin, requireId_ok haction,
      ← buildInvocationContext_isOk herdr request, hcontext, ← snapshotPaneIds_isOk, hbefore]
    exact ⟨rfl, rfl, rfl, rfl⟩
  have hasks : Asks request (.pluginActionInvoke (Json.object
      [("plugin_id".toList, .str pluginId), ("action_id".toList, .str actionId),
        ("context".toList, context)])) := by
    refine ⟨h, ?_, ?_⟩
    · rw [Json.get_object, requireId_ok hplugin]
      rfl
    · rw [Json.get_object, requireId_ok haction]
      rfl
  unfold change
  cases htaken : herdr.taken with
  | failed changed =>
    have hfailed := Answered.failed _ changed hreaches htaken hasks
    cases changed with
    | true => exact hfailed
    | false => exact hfailed
  | done id =>
    cases hafter : herdr.after with
    | error cause => exact .lost _ id cause hreaches h htaken hafter hasks
    | ok tree => exact .done _ id _ htaken (fun _ => by rw [hafter]; rfl) hasks

theorem answer_answered : Answered herdr request (answer asF64 herdr request) := by
  unfold answer hostAction
  cases h : request.action with
  | workspaceCreate => exact (workspaceCreate_oneCall herdr request h).answered (h ▸ nofun) _
  | tabCreate => exact (tabCreate_oneCall herdr request h).answered (h ▸ nofun) _
  | paneSplit => exact (paneSplitCreate_oneCall asF64 herdr request h).answered (h ▸ nofun) _
  | split => exact (paneSplitExisting_oneCall herdr request h).answered (h ▸ nofun) _
  | zoom => exact (paneZoom_oneCall herdr request h).answered (h ▸ nofun) _
  | close => exact (paneClose_oneCall herdr request h).answered (h ▸ nofun) _
  | rename => exact (paneRename_oneCall herdr request h).answered (h ▸ nofun) _
  | resize => exact (paneResize_oneCall asF64 herdr request h).answered (h ▸ nofun) _
  | pluginInvoke => exact pluginInvoke_answered herdr request h

end Spec

inductive Request (F : Type) where
  | hostAction (action : HostAction F)
  | revokeDevice (request : Bridge.Host.RevokeDevice)

/-- What one request meets at the Host: Herdr, the write of the list and the new keypair. -/
structure World where
  herdr : Herdr
  saved : Bool
  rotated : Bool

inductive Response where
  | acted (reply : Reply)
  | revoked (result : Except Bridge.Host.DeviceError Bridge.Registry.RevokeResult)

/-- The message is an `error`. -/
def Response.isError : Response → Bool
  | .acted (.error _) => true
  | .revoked (.error _) => true
  | _ => false

/-- The Host has a new keypair. -/
def Response.rotates : Response → Bool
  | .revoked (.ok result) => result.all
  | _ => false

/-- A request with what it has changed and what is answered. -/
structure Served (F : Type) where
  request : Request F
  calls : List (Call F)
  before : DeviceStore
  after : DeviceStore
  response : Response

def Served.failed (s : Served F) : Bool := s.response.isError

def serve (asF64 : Json F → Option F) (world : World) (store : DeviceStore) :
    Request F → Served F
  | .hostAction action =>
    let (reply, calls) := answer asF64 world.herdr action
    { request := .hostAction action, calls := calls, before := store, after := store,
      response := .acted reply }
  | .revokeDevice request =>
    let (result, after) := Bridge.Host.revokeDevice store request world.saved world.rotated
    { request := .revokeDevice request, calls := [], before := store, after := after,
      response := .revoked result }

/-- The Host has done what the request asks for. -/
def Served.Performed (s : Served F) : Prop :=
  match s.request with
  | .hostAction action => ∃ call, s.calls = [call] ∧ Asks action call
  | .revokeDevice request =>
    match request.deviceId with
    | some deviceId => ∀ device ∈ s.after.devices, device.deviceId ≠ deviceId
    | none => s.after.devices = [] ∧ s.response.rotates = true

/-- The Host has changed nothing for the request. -/
structure Served.Unchanged (s : Served F) : Prop where
  calls : s.calls = []
  store : s.after = s.before
  keys : s.response.rotates = false

/-- No failure follows a change: the call of an action that gets as far as one, the list of
panes after an invocation, and the new keypair once the list is cleared. -/
def Sound (world : World) (store : DeviceStore) : Request F → Prop
  | .hostAction action =>
    Reaches world.herdr action →
      world.herdr.taken ≠ .failed true ∧
        (action.action = .pluginInvoke → ∀ id, world.herdr.taken = .done id →
          world.herdr.after.isOk = true)
  | .revokeDevice request =>
    request.deviceId = none → request.all = some true → world.saved = true →
      store.devices ≠ [] → world.rotated = true

section Serve

variable {asF64 : Json F → Option F} {world : World} {store : DeviceStore} {request : Request F}

theorem serve_request : (serve asF64 world store request).request = request := by
  cases request <;> rfl

/-- What a revocation comes to: refused, one device, all of them, or all with the old key. -/
inductive Revoked (world : World) (store : DeviceStore) (request : Bridge.Host.RevokeDevice) :
    Except Bridge.Host.DeviceError Bridge.Registry.RevokeResult × DeviceStore → Prop where
  | refused (cause : Bridge.Host.DeviceError)
      (why : request.deviceId = none → request.all = some true → world.saved ≠ true) :
      Revoked world store request (.error cause, store)
  | one (deviceId : Text) (named : request.deviceId = some deviceId) (ids : List Text)
      (after : DeviceStore) (gone : ∀ device ∈ after.devices, device.deviceId ≠ deviceId) :
      Revoked world store request (.ok ⟨ids, false⟩, after)
  | all (everyone : request.deviceId = none) (rotated : world.rotated = true) (ids : List Text) :
      Revoked world store request (.ok ⟨ids, true⟩, .empty)
  | oldKey (everyone : request.deviceId = none) (all : request.all = some true)
      (saved : world.saved = true) (rotated : world.rotated = false) :
      Revoked world store request (.error .keys, .empty)

theorem revokeDevice_revoked (world : World) (store : DeviceStore)
    (request : Bridge.Host.RevokeDevice) :
    Revoked world store request
      (Bridge.Host.revokeDevice store request world.saved world.rotated) := by
  unfold Bridge.Host.revokeDevice
  split
  · rename_i hnone hall
    unfold DeviceStore.clearAll
    cases hsaved : world.saved with
    | false =>
      refine .refused _ fun _ _ => ?_
      rw [hsaved]
      nofun
    | true =>
      cases hrotated : world.rotated with
      | true => exact .all hnone hrotated _
      | false => exact .oldKey hnone (by simpa using hall) hsaved hrotated
  · rename_i deviceId hsome _
    have hnamed : request.deviceId ≠ none := by
      rw [hsome]
      nofun
    unfold DeviceStore.revoke
    cases hfind : store.find deviceId with
    | none =>
      refine .one deviceId hsome _ store fun device hmem => ?_
      have hnot := List.find?_eq_none.mp hfind device hmem
      simpa using hnot
    | some device =>
      cases world.saved with
      | false => exact .refused _ fun hnone => absurd hnone hnamed
      | true =>
        refine .one deviceId hsome _ _ fun device hmem => ?_
        exact (Bridge.Store.mem_without.mp hmem).2
  · rename_i hneither _
    refine .refused _ fun hnone hall => ?_
    exact absurd (by rw [hall]; rfl) (hneither hnone)

/-- A reply that is no error stands for what was asked. -/
theorem serve_performed (h : (serve asF64 world store request).failed = false) :
    (serve asF64 world store request).Performed := by
  cases request with
  | hostAction action =>
    have hanswered := answer_answered asF64 world.herdr action
    unfold serve at h ⊢
    dsimp only at h ⊢
    generalize answer asF64 world.herdr action = result at h hanswered
    cases hanswered with
    | refused cause short => cases h
    | done call id payload taken after asks => exact ⟨call, rfl, asks⟩
    | failed call changed reaches taken asks => cases h
    | lost call id cause reaches invokes taken after asks => cases h
  | revokeDevice request =>
    have hrevoked := revokeDevice_revoked world store request
    unfold serve Served.Performed at *
    dsimp only at h ⊢
    generalize Bridge.Host.revokeDevice store request world.saved world.rotated = result
      at h hrevoked
    cases hrevoked with
    | refused cause why => cases h
    | one deviceId named ids after gone =>
      rw [named]
      exact gone
    | all everyone rotated ids =>
      rw [everyone]
      exact ⟨rfl, rfl⟩
    | oldKey everyone all saved rotated => cases h

theorem store_empty (h : store.devices = []) : DeviceStore.empty = store := by
  obtain ⟨devices, oneEntry⟩ := store
  cases h
  rfl

/-- An error stands for no change exactly when no failure follows one. -/
theorem serve_unchanged_iff :
    ((serve asF64 world store request).failed = true →
      (serve asF64 world store request).Unchanged) ↔ Sound world store request := by
  cases request with
  | hostAction action =>
    have hanswered := answer_answered asF64 world.herdr action
    unfold serve Sound
    dsimp only
    generalize answer asF64 world.herdr action = result at hanswered
    cases hanswered with
    | refused cause short =>
      exact ⟨fun _ hreaches => absurd hreaches short, fun _ _ => ⟨rfl, rfl, rfl⟩⟩
    | done call id payload taken after asks =>
      refine ⟨fun _ _ => ⟨?_, fun hplugin _ _ => after hplugin⟩, nofun⟩
      rw [taken]
      nofun
    | failed call changed reaches taken asks =>
      cases changed with
      | false =>
        refine ⟨fun _ _ => ⟨?_, fun _ id hdone => ?_⟩, fun _ _ => ⟨rfl, rfl, rfl⟩⟩
        · rw [taken]
          nofun
        · cases taken.symm.trans hdone
      | true =>
        refine ⟨fun h => ?_, fun h => absurd taken (h reaches).1⟩
        cases (h rfl).calls
    | lost call id cause reaches invokes taken after asks =>
      constructor
      · intro h
        cases (h rfl).calls
      · intro h
        have hok := (h reaches).2 invokes id taken
        rw [after] at hok
        cases hok
  | revokeDevice request =>
    have hrevoked := revokeDevice_revoked world store request
    unfold serve Sound
    dsimp only
    generalize Bridge.Host.revokeDevice store request world.saved world.rotated = result
      at hrevoked
    cases hrevoked with
    | refused cause hwhy =>
      refine ⟨fun _ hnone hall hsaved => ?_, fun _ _ => ⟨rfl, rfl, rfl⟩⟩
      exact absurd hsaved (hwhy hnone hall)
    | one deviceId named ids after gone =>
      refine ⟨fun _ hnone => ?_, nofun⟩
      cases named.symm.trans hnone
    | all everyone rotated ids => exact ⟨fun _ _ _ _ _ => rotated, nofun⟩
    | oldKey everyone all saved rotated =>
      constructor
      · intro h _ _ _ hne
        have hsame : DeviceStore.empty = store := (h rfl).store
        rw [← hsame] at hne
        exact absurd rfl hne
      · intro h _
        by_cases hnil : store.devices = []
        · exact ⟨rfl, store_empty hnil, rfl⟩
        · have hrotated := h everyone all saved hnil
          rw [rotated] at hrotated
          cases hrotated

end Serve

end HerdrMobile.Host.Actions
