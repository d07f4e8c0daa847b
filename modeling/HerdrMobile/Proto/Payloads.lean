import HerdrMobile.Lib.Record
import HerdrMobile.Proto.Tree

/-!
# The payloads of the application messages

The payload structures of the protocol with their integer widths and, for each, the
record of its fields on the wire: which are required, left out, written as null or
defaulted, under the names the derived implementations give them.
-/

namespace HerdrMobile.Proto.Payloads

open HerdrMobile.Lib
open Messages (Text PaneId Platform Defer SendInput SendInputAck)
open Proto.Tree (TreeEvent TabSummary AgentStatusKind)

set_option autoImplicit false

/-- The rename rule of serde for the variants of an enumeration. -/
def snakeCase : Text → Text
  | [] => []
  | c :: rest =>
    c.toLower :: rest.flatMap fun c => if c.isUpper then ['_', c.toLower] else [c.toLower]

def platformName : Platform → Text
  | .ios => snakeCase "Ios".toList
  | .android => snakeCase "Android".toList

def deferName : Defer → Text
  | .untilIdle => snakeCase "UntilIdle".toList
  | .cancel => snakeCase "Cancel".toList

def agentStatusName : AgentStatusKind → Text
  | .idle => snakeCase "Idle".toList
  | .working => snakeCase "Working".toList
  | .blocked => snakeCase "Blocked".toList
  | .done => snakeCase "Done".toList
  | .unknown => snakeCase "Unknown".toList

def treeEventName : TreeEvent → Text
  | .workspaceCreated => "workspace.created".toList
  | .workspaceUpdated => "workspace.updated".toList
  | .workspaceRenamed => "workspace.renamed".toList
  | .workspaceClosed => "workspace.closed".toList
  | .tabCreated => "tab.created".toList
  | .tabClosed => "tab.closed".toList
  | .tabRenamed => "tab.renamed".toList
  | .tabFocused => "tab.focused".toList
  | .paneCreated => "pane.created".toList
  | .paneClosed => "pane.closed".toList
  | .paneUpdated => "pane.updated".toList
  | .paneFocused => "pane.focused".toList
  | .paneAgentStatusChanged => "pane.agent_status_changed".toList
  | .layoutUpdated => "layout.updated".toList

inductive HostActionKind where
  | workspaceCreate
  | tabCreate
  | paneSplit
  | split
  | zoom
  | close
  | rename
  | resize
  | pluginInvoke
  deriving DecidableEq

/-- R-11-202. -/
def hostActionName : HostActionKind → Text
  | .workspaceCreate => "workspace.create".toList
  | .tabCreate => "tab.create".toList
  | .paneSplit => "pane.split".toList
  | .split => "split".toList
  | .zoom => "zoom".toList
  | .close => "close".toList
  | .rename => "rename".toList
  | .resize => "resize".toList
  | .pluginInvoke => "plugin.invoke".toList

inductive ErrorCode where
  | protocolMismatch
  | herdrProtocolMismatch
  | unknownMessage
  | frameTooLarge
  | paneNotFound
  | agentNotFound
  | invalidRequest
  | invalidKey
  | timeout
  | agentPromptStalled
  | notWatching
  | revoked
  | handleUnknown
  | hostInUse
  | pairingExpired
  | rateLimited
  | handshakeFailed
  | pluginDisabled
  | actionUnknown
  | internalError
  deriving DecidableEq

def errorCodeName : ErrorCode → Text
  | .protocolMismatch => snakeCase "ProtocolMismatch".toList
  | .herdrProtocolMismatch => snakeCase "HerdrProtocolMismatch".toList
  | .unknownMessage => snakeCase "UnknownMessage".toList
  | .frameTooLarge => snakeCase "FrameTooLarge".toList
  | .paneNotFound => snakeCase "PaneNotFound".toList
  | .agentNotFound => snakeCase "AgentNotFound".toList
  | .invalidRequest => snakeCase "InvalidRequest".toList
  | .invalidKey => snakeCase "InvalidKey".toList
  | .timeout => snakeCase "Timeout".toList
  | .agentPromptStalled => snakeCase "AgentPromptStalled".toList
  | .notWatching => snakeCase "NotWatching".toList
  | .revoked => snakeCase "Revoked".toList
  | .handleUnknown => snakeCase "HandleUnknown".toList
  | .hostInUse => snakeCase "HostInUse".toList
  | .pairingExpired => snakeCase "PairingExpired".toList
  | .rateLimited => snakeCase "RateLimited".toList
  | .handshakeFailed => snakeCase "HandshakeFailed".toList
  | .pluginDisabled => snakeCase "PluginDisabled".toList
  | .actionUnknown => snakeCase "ActionUnknown".toList
  | .internalError => snakeCase "InternalError".toList

example : errorCodeName .herdrProtocolMismatch = "herdr_protocol_mismatch".toList := by decide

structure ThemePalette where
  name : Text
  accent : Text
  panelBg : Text
  surface0 : Text
  surface1 : Text
  surfaceDim : Text
  overlay0 : Text
  overlay1 : Text
  text : Text
  subtext0 : Text
  mauve : Text
  green : Text
  yellow : Text
  red : Text
  blue : Text
  teal : Text
  peach : Text

structure HostInfo where
  protocol : UInt32
  hostId : Text
  hostName : Text
  herdrVersion : Text
  herdrProtocol : UInt32
  paired : Bool
  theme : Option ThemePalette

structure HostTheme where
  theme : ThemePalette

structure DeviceInfo where
  protocol : UInt32
  deviceId : Text
  deviceName : Text
  platform : Platform
  osVersion : Text
  appVersion : Text

structure TreeRequest

structure WorkspaceSummary where
  workspaceId : Text
  name : Text
  focused : Bool
  repoName : Option Text
  isLinkedWorktree : Bool
  spaceId : Option Text

structure PaneScrollState where
  offsetFromBottom : UInt64
  maxOffsetFromBottom : UInt64
  viewportRows : UInt32

structure PaneSummary where
  paneId : Text
  workspaceId : Text
  tabId : Text
  terminalId : Text
  label : Text
  title : Text
  cwd : Text
  focused : Bool
  agent : Option Text
  agentStatus : Text
  revision : UInt64
  scroll : PaneScrollState

structure AgentSummary where
  agentKind : Text
  paneId : Text
  status : Text
  statusAt : Option Text
  session : Option Text

structure TreeSnapshot where
  workspaces : List WorkspaceSummary
  tabs : List TabSummary
  panes : List PaneSummary
  agents : List AgentSummary

structure TreeUpdate where
  event : TreeEvent
  pane : Option PaneSummary
  workspace : Option WorkspaceSummary
  tab : Option TabSummary

structure WatchPane where
  paneId : Text

structure ScrollOffsets where
  offsetFromBottom : UInt64
  maxOffsetFromBottom : UInt64

structure WatchAck where
  paneId : Text
  revision : UInt64
  viewportRows : UInt32
  width : UInt32
  scroll : ScrollOffsets
  line : Text

structure UnwatchPane where
  paneId : Text

structure PaneFrame where
  paneId : Text
  revision : UInt64
  viewportRows : UInt32
  width : UInt32
  text : Text

structure ScrollRequest where
  paneId : Text
  lines : UInt32

structure ScrollResponse where
  paneId : Text
  text : Text
  lines : UInt32
  truncated : Bool

structure Ping

structure Pong

structure AgentStatus where
  hostId : Text
  paneId : Text
  workspaceId : Text
  tabId : Text
  tabTitle : Text
  paneTitle : Text
  agentKind : Text
  status : AgentStatusKind
  changedAt : Text

structure AgentPrompt where
  target : Text
  text : Text

structure MarkSeen where
  paneId : Text

structure AgentPromptAck where
  target : Text
  accepted : Bool

structure HostAction (F : Type) where
  action : HostActionKind
  paneId : Option Text
  workspaceId : Option Text
  tabId : Option Text
  pluginId : Option Text
  actionId : Option Text
  params : Option (Json F)

structure HostActionAck where
  action : HostActionKind
  success : Bool
  paneId : Option Text
  resultId : Option Text

structure DeviceListRequest

structure DeviceListEntry where
  id : Text
  name : Text
  pairedAt : Text
  lastSeen : Text
  connected : Bool
  platform : Platform
  fingerprint : Text

structure DeviceList where
  devices : List DeviceListEntry

structure RevokeDevice where
  deviceId : Option Text
  all : Option Bool

structure RevokeResult where
  revoked : List Text
  all : Bool

structure ErrorMessage where
  code : ErrorCode
  message : Text
  fatal : Bool

structure Disconnect

structure ActionListRequest

structure ActionListEntry where
  pluginId : Text
  actionId : Text
  title : Text
  description : Option Text
  contexts : Option (List Text)

structure ActionList where
  actions : List ActionListEntry

variable {F : Type} {reread : F → F}

def platform : Codec reread Platform :=
  .named platformName [.ios, .android]

instance : (platform : Codec reread Platform).Total :=
  Codec.total_named (by decide) fun a => by cases a <;> decide

def defer : Codec reread Defer :=
  .named deferName [.untilIdle, .cancel]

instance : (defer : Codec reread Defer).Total :=
  Codec.total_named (by decide) fun a => by cases a <;> decide

def agentStatusKind : Codec reread AgentStatusKind :=
  .named agentStatusName [.idle, .working, .blocked, .done, .unknown]

instance : (agentStatusKind : Codec reread AgentStatusKind).Total :=
  Codec.total_named (by decide) fun a => by cases a <;> decide

def treeEvent : Codec reread TreeEvent :=
  .named treeEventName
    [.workspaceCreated, .workspaceUpdated, .workspaceRenamed, .workspaceClosed, .tabCreated,
      .tabClosed, .tabRenamed, .tabFocused, .paneCreated, .paneClosed, .paneUpdated, .paneFocused,
      .paneAgentStatusChanged, .layoutUpdated]

instance : (treeEvent : Codec reread TreeEvent).Total :=
  Codec.total_named (by decide) fun a => by cases a <;> decide

def hostActionKind : Codec reread HostActionKind :=
  .named hostActionName
    [.workspaceCreate, .tabCreate, .paneSplit, .split, .zoom, .close, .rename, .resize,
      .pluginInvoke]

instance : (hostActionKind : Codec reread HostActionKind).Total :=
  Codec.total_named (by decide) fun a => by cases a <;> decide

def errorCode : Codec reread ErrorCode :=
  .named errorCodeName
    [.protocolMismatch, .herdrProtocolMismatch, .unknownMessage, .frameTooLarge, .paneNotFound,
      .agentNotFound, .invalidRequest, .invalidKey, .timeout, .agentPromptStalled, .notWatching,
      .revoked, .handleUnknown, .hostInUse, .pairingExpired, .rateLimited, .handshakeFailed,
      .pluginDisabled, .actionUnknown, .internalError]

instance : (errorCode : Codec reread ErrorCode).Total :=
  Codec.total_named (by decide) fun a => by cases a <;> decide

/-- The levels of nesting that are left for the parameters of an action: `serde_json`
reads at most 127, of which the frame and its payload are two. -/
def paramsDepth : Nat := 125

abbrev themePalette : Record reread ThemePalette where
  fields :=
    .cons "name".toList (.required .text) <|
    .cons "accent".toList (.required .text) <|
    .cons "panel_bg".toList (.required .text) <|
    .cons "surface0".toList (.required .text) <|
    .cons "surface1".toList (.required .text) <|
    .cons "surface_dim".toList (.required .text) <|
    .cons "overlay0".toList (.required .text) <|
    .cons "overlay1".toList (.required .text) <|
    .cons "text".toList (.required .text) <|
    .cons "subtext0".toList (.required .text) <|
    .cons "mauve".toList (.required .text) <|
    .cons "green".toList (.required .text) <|
    .cons "yellow".toList (.required .text) <|
    .cons "red".toList (.required .text) <|
    .cons "blue".toList (.required .text) <|
    .cons "teal".toList (.required .text) <|
    .cons "peach".toList (.required .text) <|
    .nil
  split s :=
    (s.name, s.accent, s.panelBg, s.surface0, s.surface1, s.surfaceDim, s.overlay0, s.overlay1,
    s.text, s.subtext0, s.mauve, s.green, s.yellow, s.red, s.blue, s.teal, s.peach, ())
  join := fun
    | (name, accent, panelBg, surface0, surface1, surfaceDim, overlay0, overlay1, text, subtext0,
    mauve, green, yellow, red, blue, teal, peach, ()) =>
      ⟨name, accent, panelBg, surface0, surface1, surfaceDim, overlay0, overlay1, text, subtext0,
      mauve, green, yellow, red, blue, teal, peach⟩

abbrev hostInfo : Record reread HostInfo where
  fields :=
    .cons "protocol".toList (.required .u32) <|
    .cons "host_id".toList (.required .text) <|
    .cons "host_name".toList (.required .text) <|
    .cons "herdr_version".toList (.required .text) <|
    .cons "herdr_protocol".toList (.required .u32) <|
    .cons "paired".toList (.required .bool) <|
    .cons "theme".toList (.skipped themePalette.codec) <|
    .nil
  split s :=
    (s.protocol, s.hostId, s.hostName, s.herdrVersion, s.herdrProtocol, s.paired, s.theme, ())
  join := fun
    | (protocol, hostId, hostName, herdrVersion, herdrProtocol, paired, theme, ()) =>
      ⟨protocol, hostId, hostName, herdrVersion, herdrProtocol, paired, theme⟩

abbrev hostTheme : Record reread HostTheme where
  fields :=
    .cons "theme".toList (.required themePalette.codec) <|
    .nil
  split s := (s.theme, ())
  join := fun (theme, ()) => ⟨theme⟩

abbrev deviceInfo : Record reread DeviceInfo where
  fields :=
    .cons "protocol".toList (.required .u32) <|
    .cons "device_id".toList (.required .text) <|
    .cons "device_name".toList (.required .text) <|
    .cons "platform".toList (.required platform) <|
    .cons "os_version".toList (.required .text) <|
    .cons "app_version".toList (.required .text) <|
    .nil
  split s := (s.protocol, s.deviceId, s.deviceName, s.platform, s.osVersion, s.appVersion, ())
  join := fun
    | (protocol, deviceId, deviceName, platform, osVersion, appVersion, ()) =>
      ⟨protocol, deviceId, deviceName, platform, osVersion, appVersion⟩

abbrev treeRequest : Record reread TreeRequest where
  fields := .nil
  split _ := ()
  join _ := {}

abbrev workspaceSummary : Record reread WorkspaceSummary where
  fields :=
    .cons "workspace_id".toList (.required .text) <|
    .cons "name".toList (.required .text) <|
    .cons "focused".toList (.required .bool) <|
    .cons "repo_name".toList (.nullable .text) <|
    .cons "is_linked_worktree".toList (.defaulted false .bool) <|
    .cons "space_id".toList (.nullable .text) <|
    .nil
  split s := (s.workspaceId, s.name, s.focused, s.repoName, s.isLinkedWorktree, s.spaceId, ())
  join := fun
    | (workspaceId, name, focused, repoName, isLinkedWorktree, spaceId, ()) =>
      ⟨workspaceId, name, focused, repoName, isLinkedWorktree, spaceId⟩

abbrev tabSummary : Record reread TabSummary where
  fields :=
    .cons "tab_id".toList (.required .text) <|
    .cons "workspace_id".toList (.required .text) <|
    .cons "title".toList (.required .text) <|
    .cons "focused".toList (.required .bool) <|
    .nil
  split s := (s.tabId, s.workspaceId, s.title, s.focused, ())
  join := fun (tabId, workspaceId, title, focused, ()) => ⟨tabId, workspaceId, title, focused⟩

abbrev paneScrollState : Record reread PaneScrollState where
  fields :=
    .cons "offset_from_bottom".toList (.required .u64) <|
    .cons "max_offset_from_bottom".toList (.required .u64) <|
    .cons "viewport_rows".toList (.required .u32) <|
    .nil
  split s := (s.offsetFromBottom, s.maxOffsetFromBottom, s.viewportRows, ())
  join := fun
    | (offsetFromBottom, maxOffsetFromBottom, viewportRows, ()) =>
      ⟨offsetFromBottom, maxOffsetFromBottom, viewportRows⟩

abbrev paneSummary : Record reread PaneSummary where
  fields :=
    .cons "pane_id".toList (.required .text) <|
    .cons "workspace_id".toList (.required .text) <|
    .cons "tab_id".toList (.required .text) <|
    .cons "terminal_id".toList (.required .text) <|
    .cons "label".toList (.required .text) <|
    .cons "title".toList (.required .text) <|
    .cons "cwd".toList (.required .text) <|
    .cons "focused".toList (.required .bool) <|
    .cons "agent".toList (.nullable .text) <|
    .cons "agent_status".toList (.required .text) <|
    .cons "revision".toList (.required .u64) <|
    .cons "scroll".toList (.required paneScrollState.codec) <|
    .nil
  split s :=
    (s.paneId, s.workspaceId, s.tabId, s.terminalId, s.label, s.title, s.cwd, s.focused, s.agent,
    s.agentStatus, s.revision, s.scroll, ())
  join := fun
    | (paneId, workspaceId, tabId, terminalId, label, title, cwd, focused, agent, agentStatus,
    revision, scroll, ()) =>
      ⟨paneId, workspaceId, tabId, terminalId, label, title, cwd, focused, agent, agentStatus,
      revision, scroll⟩

abbrev agentSummary : Record reread AgentSummary where
  fields :=
    .cons "agent_kind".toList (.required .text) <|
    .cons "pane_id".toList (.required .text) <|
    .cons "status".toList (.required .text) <|
    .cons "status_at".toList (.skipped .text) <|
    .cons "session".toList (.nullable .text) <|
    .nil
  split s := (s.agentKind, s.paneId, s.status, s.statusAt, s.session, ())
  join := fun
    | (agentKind, paneId, status, statusAt, session, ()) =>
      ⟨agentKind, paneId, status, statusAt, session⟩

abbrev treeSnapshot : Record reread TreeSnapshot where
  fields :=
    .cons "workspaces".toList (.required (.list workspaceSummary.codec)) <|
    .cons "tabs".toList (.required (.list tabSummary.codec)) <|
    .cons "panes".toList (.required (.list paneSummary.codec)) <|
    .cons "agents".toList (.required (.list agentSummary.codec)) <|
    .nil
  split s := (s.workspaces, s.tabs, s.panes, s.agents, ())
  join := fun (workspaces, tabs, panes, agents, ()) => ⟨workspaces, tabs, panes, agents⟩

abbrev treeUpdate : Record reread TreeUpdate where
  fields :=
    .cons "event".toList (.required treeEvent) <|
    .cons "pane".toList (.skipped paneSummary.codec) <|
    .cons "workspace".toList (.skipped workspaceSummary.codec) <|
    .cons "tab".toList (.skipped tabSummary.codec) <|
    .nil
  split s := (s.event, s.pane, s.workspace, s.tab, ())
  join := fun (event, pane, workspace, tab, ()) => ⟨event, pane, workspace, tab⟩

abbrev watchPane : Record reread WatchPane where
  fields :=
    .cons "pane_id".toList (.required .text) <|
    .nil
  split s := (s.paneId, ())
  join := fun (paneId, ()) => ⟨paneId⟩

abbrev scrollOffsets : Record reread ScrollOffsets where
  fields :=
    .cons "offset_from_bottom".toList (.required .u64) <|
    .cons "max_offset_from_bottom".toList (.required .u64) <|
    .nil
  split s := (s.offsetFromBottom, s.maxOffsetFromBottom, ())
  join := fun
    | (offsetFromBottom, maxOffsetFromBottom, ()) =>
      ⟨offsetFromBottom, maxOffsetFromBottom⟩

abbrev watchAck : Record reread WatchAck where
  fields :=
    .cons "pane_id".toList (.required .text) <|
    .cons "revision".toList (.required .u64) <|
    .cons "viewport_rows".toList (.required .u32) <|
    .cons "width".toList (.required .u32) <|
    .cons "scroll".toList (.required scrollOffsets.codec) <|
    .cons "line".toList (.defaulted [] .text) <|
    .nil
  split s := (s.paneId, s.revision, s.viewportRows, s.width, s.scroll, s.line, ())
  join := fun
    | (paneId, revision, viewportRows, width, scroll, line, ()) =>
      ⟨paneId, revision, viewportRows, width, scroll, line⟩

abbrev unwatchPane : Record reread UnwatchPane where
  fields :=
    .cons "pane_id".toList (.required .text) <|
    .nil
  split s := (s.paneId, ())
  join := fun (paneId, ()) => ⟨paneId⟩

abbrev paneFrame : Record reread PaneFrame where
  fields :=
    .cons "pane_id".toList (.required .text) <|
    .cons "revision".toList (.required .u64) <|
    .cons "viewport_rows".toList (.required .u32) <|
    .cons "width".toList (.required .u32) <|
    .cons "text".toList (.required .text) <|
    .nil
  split s := (s.paneId, s.revision, s.viewportRows, s.width, s.text, ())
  join := fun
    | (paneId, revision, viewportRows, width, text, ()) =>
      ⟨paneId, revision, viewportRows, width, text⟩

abbrev scrollRequest : Record reread ScrollRequest where
  fields :=
    .cons "pane_id".toList (.required .text) <|
    .cons "lines".toList (.required .u32) <|
    .nil
  split s := (s.paneId, s.lines, ())
  join := fun (paneId, lines, ()) => ⟨paneId, lines⟩

abbrev scrollResponse : Record reread ScrollResponse where
  fields :=
    .cons "pane_id".toList (.required .text) <|
    .cons "text".toList (.required .text) <|
    .cons "lines".toList (.required .u32) <|
    .cons "truncated".toList (.required .bool) <|
    .nil
  split s := (s.paneId, s.text, s.lines, s.truncated, ())
  join := fun (paneId, text, lines, truncated, ()) => ⟨paneId, text, lines, truncated⟩

abbrev sendInput : Record reread SendInput where
  fields :=
    .cons "pane_id".toList (.required .text) <|
    .cons "line".toList (.skipped .text) <|
    .cons "text".toList (.skipped .text) <|
    .cons "keys".toList (.skipped (.list .text)) <|
    .cons "defer".toList (.skipped defer) <|
    .cons "bypass_line".toList (.skipped .bool) <|
    .nil
  split s := (s.paneId, s.line, s.text, s.keys, s.defer, s.bypassLine, ())
  join := fun
    | (paneId, line, text, keys, defer, bypassLine, ()) =>
      ⟨paneId, line, text, keys, defer, bypassLine⟩

abbrev ping : Record reread Ping where
  fields := .nil
  split _ := ()
  join _ := {}

abbrev pong : Record reread Pong where
  fields := .nil
  split _ := ()
  join _ := {}

abbrev sendInputAck : Record reread SendInputAck where
  fields :=
    .cons "pane_id".toList (.required .text) <|
    .cons "accepted".toList (.required .bool) <|
    .cons "queued".toList (.omitted false .bool) <|
    .nil
  split s := (s.paneId, s.accepted, s.queued, ())
  join := fun (paneId, accepted, queued, ()) => ⟨paneId, accepted, queued⟩

abbrev agentStatus : Record reread AgentStatus where
  fields :=
    .cons "host_id".toList (.required .text) <|
    .cons "pane_id".toList (.required .text) <|
    .cons "workspace_id".toList (.required .text) <|
    .cons "tab_id".toList (.required .text) <|
    .cons "tab_title".toList (.required .text) <|
    .cons "pane_title".toList (.required .text) <|
    .cons "agent_kind".toList (.required .text) <|
    .cons "status".toList (.required agentStatusKind) <|
    .cons "at".toList (.required .text) <|
    .nil
  split s :=
    (s.hostId, s.paneId, s.workspaceId, s.tabId, s.tabTitle, s.paneTitle, s.agentKind, s.status,
    s.changedAt, ())
  join := fun
    | (hostId, paneId, workspaceId, tabId, tabTitle, paneTitle, agentKind, status, changedAt, ()) =>
      ⟨hostId, paneId, workspaceId, tabId, tabTitle, paneTitle, agentKind, status, changedAt⟩

abbrev agentPrompt : Record reread AgentPrompt where
  fields :=
    .cons "target".toList (.required .text) <|
    .cons "text".toList (.required .text) <|
    .nil
  split s := (s.target, s.text, ())
  join := fun (target, text, ()) => ⟨target, text⟩

abbrev markSeen : Record reread MarkSeen where
  fields :=
    .cons "pane_id".toList (.required .text) <|
    .nil
  split s := (s.paneId, ())
  join := fun (paneId, ()) => ⟨paneId⟩

abbrev agentPromptAck : Record reread AgentPromptAck where
  fields :=
    .cons "target".toList (.required .text) <|
    .cons "accepted".toList (.required .bool) <|
    .nil
  split s := (s.target, s.accepted, ())
  join := fun (target, accepted, ()) => ⟨target, accepted⟩

abbrev hostAction : Record reread (HostAction F) where
  fields :=
    .cons "action".toList (.required hostActionKind) <|
    .cons "pane_id".toList (.skipped .text) <|
    .cons "workspace_id".toList (.skipped .text) <|
    .cons "tab_id".toList (.skipped .text) <|
    .cons "plugin_id".toList (.skipped .text) <|
    .cons "action_id".toList (.skipped .text) <|
    .cons "params".toList (.skipped (.value reread paramsDepth)) <|
    .nil
  split s := (s.action, s.paneId, s.workspaceId, s.tabId, s.pluginId, s.actionId, s.params, ())
  join := fun
    | (action, paneId, workspaceId, tabId, pluginId, actionId, params, ()) =>
      ⟨action, paneId, workspaceId, tabId, pluginId, actionId, params⟩

abbrev hostActionAck : Record reread HostActionAck where
  fields :=
    .cons "action".toList (.required hostActionKind) <|
    .cons "success".toList (.required .bool) <|
    .cons "pane_id".toList (.skipped .text) <|
    .cons "result_id".toList (.skipped .text) <|
    .nil
  split s := (s.action, s.success, s.paneId, s.resultId, ())
  join := fun (action, success, paneId, resultId, ()) => ⟨action, success, paneId, resultId⟩

abbrev deviceListRequest : Record reread DeviceListRequest where
  fields := .nil
  split _ := ()
  join _ := {}

abbrev deviceListEntry : Record reread DeviceListEntry where
  fields :=
    .cons "id".toList (.required .text) <|
    .cons "name".toList (.required .text) <|
    .cons "paired_at".toList (.required .text) <|
    .cons "last_seen".toList (.required .text) <|
    .cons "connected".toList (.required .bool) <|
    .cons "platform".toList (.required platform) <|
    .cons "fingerprint".toList (.required .text) <|
    .nil
  split s := (s.id, s.name, s.pairedAt, s.lastSeen, s.connected, s.platform, s.fingerprint, ())
  join := fun
    | (id, name, pairedAt, lastSeen, connected, platform, fingerprint, ()) =>
      ⟨id, name, pairedAt, lastSeen, connected, platform, fingerprint⟩

abbrev deviceList : Record reread DeviceList where
  fields :=
    .cons "devices".toList (.required (.list deviceListEntry.codec)) <|
    .nil
  split s := (s.devices, ())
  join := fun (devices, ()) => ⟨devices⟩

abbrev revokeDevice : Record reread RevokeDevice where
  fields :=
    .cons "device_id".toList (.skipped .text) <|
    .cons "all".toList (.skipped .bool) <|
    .nil
  split s := (s.deviceId, s.all, ())
  join := fun (deviceId, all, ()) => ⟨deviceId, all⟩

abbrev revokeResult : Record reread RevokeResult where
  fields :=
    .cons "revoked".toList (.required (.list .text)) <|
    .cons "all".toList (.required .bool) <|
    .nil
  split s := (s.revoked, s.all, ())
  join := fun (revoked, all, ()) => ⟨revoked, all⟩

abbrev errorMessage : Record reread ErrorMessage where
  fields :=
    .cons "code".toList (.required errorCode) <|
    .cons "message".toList (.required .text) <|
    .cons "fatal".toList (.required .bool) <|
    .nil
  split s := (s.code, s.message, s.fatal, ())
  join := fun (code, message, fatal, ()) => ⟨code, message, fatal⟩

abbrev disconnect : Record reread Disconnect where
  fields := .nil
  split _ := ()
  join _ := {}

abbrev actionListRequest : Record reread ActionListRequest where
  fields := .nil
  split _ := ()
  join _ := {}

abbrev actionListEntry : Record reread ActionListEntry where
  fields :=
    .cons "plugin_id".toList (.required .text) <|
    .cons "action_id".toList (.required .text) <|
    .cons "title".toList (.required .text) <|
    .cons "description".toList (.nullable .text) <|
    .cons "contexts".toList (.nullable (.list .text)) <|
    .nil
  split s := (s.pluginId, s.actionId, s.title, s.description, s.contexts, ())
  join := fun
    | (pluginId, actionId, title, description, contexts, ()) =>
      ⟨pluginId, actionId, title, description, contexts⟩

abbrev actionList : Record reread ActionList where
  fields :=
    .cons "actions".toList (.required (.list actionListEntry.codec)) <|
    .nil
  split s := (s.actions, ())
  join := fun (actions, ()) => ⟨actions⟩

end HerdrMobile.Proto.Payloads
