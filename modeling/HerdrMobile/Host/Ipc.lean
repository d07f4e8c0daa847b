import HerdrMobile.Host.Herdr
import HerdrMobile.Proto.Codes

/-!
# Calls on the socket of Herdr

One request, one connection, and a second connection at once when the first fails
below the response. What the socket does on each connection is a parameter, as is
the parser of a response line. The wire keeps the requests that Herdr has carried
out, oldest first.
-/
namespace HerdrMobile.Host.Ipc

open HerdrMobile.Proto.Codes HerdrMobile.Proto.Messages HerdrMobile.Host.Herdr

set_option autoImplicit false

/-- A JSON value; the text of a number is not looked at. -/
inductive Json where
  | null
  | bool (value : Bool)
  | number (text : Text)
  | str (text : Text)
  | arr (values : List Json)
  | obj (fields : List (String × Json))

namespace Json

def get (value : Json) (key : String) : Option Json :=
  match value with
  | .obj fields => fields.lookup key
  | _ => none

def asStr : Json → Option Text
  | .str text => some text
  | _ => none

end Json

inductive IpcError where
  | discover
  | connect
  | io
  | malformed (method : String)
  | rejected (method : String) (code message : Text)
  | missingPayload (method key : String)
  | protocolMismatch (actual : Nat)
  deriving DecidableEq

/-- R-10-015: only a transport-level failure is worth retrying. -/
def IpcError.isRetryable : IpcError → Bool
  | .connect | .io => true
  | _ => false

/-- What the socket does on one connection. Herdr can only carry out a request whose
line is complete; `reply` is what comes back in time, up to the end of the stream. -/
inductive Connection where
  | refused
  | cut
  | served (executed : Bool) (reply : Option Bytes)

structure Request where
  id : String
  method : String
  params : Json

structure Wire where
  opened : Nat
  counter : Nat
  executed : List Request

def Wire.start : Wire := ⟨0, 0, []⟩

structure HerdrClient where
  maxResponseBytes : Nat

def newline : UInt8 := 10

/-- `read_line` on a stream that ends after `maxBytes`. It fails on what is no UTF-8. -/
def readLine (maxBytes : Nat) (reply : Bytes) : Option Text :=
  let bytes := reply.take maxBytes
  let line := bytes.takeWhile (· ≠ newline) ++ (bytes.dropWhile (· ≠ newline)).take 1
  (String.fromUTF8? ⟨line.toArray⟩).map String.toList

section Call

variable (parse : Text → Option Json) (socket : Nat → Connection) (client : HerdrClient)

/-- What a response line says of its request. -/
def readResponse (method : String) (line : Text) : Except IpcError Json :=
  match parse line with
  | none => .error (.malformed method)
  | some parsed =>
    match parsed.get "error" with
    | some error =>
      .error (.rejected method
        (((error.get "code").bind Json.asStr).getD "unknown".toList)
        (((error.get "message").bind Json.asStr).getD []))
    | none => .ok parsed

def nextId (method : String) (counter : Nat) : String := s!"herdr-relay:{method}:{counter}"

def callOnce (method : String) (params : Json) (w : Wire) : Except IpcError Json × Wire :=
  let request : Request := ⟨nextId method w.counter, method, params⟩
  let opened : Wire := ⟨w.opened + 1, w.counter + 1, w.executed⟩
  match socket w.opened with
  | .refused => (.error .connect, opened)
  | .cut => (.error .io, opened)
  | .served executed reply =>
    let done := if executed then { opened with executed := w.executed ++ [request] } else opened
    match reply.bind (readLine client.maxResponseBytes) with
    | none => (.error .io, done)
    | some line => (readResponse parse method line, done)

def call (method : String) (params : Json) (w : Wire) : Except IpcError Json × Wire :=
  match callOnce parse socket client method params w with
  | (.ok value, w) => (.ok value, w)
  | (.error e, w) =>
    if e.isRetryable then callOnce parse socket client method params w else (.error e, w)

end Call

structure Call where
  method : String
  params : Json

def paneSendText (paneId : PaneId) (text : Text) : Call :=
  ⟨"pane.send_text", .obj [("pane_id", .str paneId), ("text", .str text)]⟩

def paneSendInput (paneId : PaneId) (text : Option Text) (keys : Option (List Text)) : Call :=
  ⟨"pane.send_input", .obj ([("pane_id", .str paneId)] ++
    (text.map fun text => ("text", .str text)).toList ++
    (keys.map fun keys => ("keys", .arr (keys.map .str))).toList)⟩

def agentPrompt (target text : Text) : Call :=
  ⟨"agent.prompt", .obj [("target", .str target), ("text", .str text)]⟩

def workspaceCreate (params : Json) : Call := ⟨"workspace.create", params⟩

def tabCreate (params : Json) : Call := ⟨"tab.create", params⟩

def paneSplit (params : Json) : Call := ⟨"pane.split", params⟩

def paneClose (paneId : PaneId) : Call := ⟨"pane.close", .obj [("pane_id", .str paneId)]⟩

def pluginActionInvoke (params : Json) : Call := ⟨"plugin.action.invoke", params⟩

/-- The call of a terminal input. -/
def sendCall : Send → Call
  | .sendText paneId text => paneSendText paneId text
  | .sendInput paneId text keys => paneSendInput paneId text keys

inductive Mutating : Call → Prop
  | send (send : Send) : Mutating (sendCall send)
  | agentPrompt (target text : Text) : Mutating (agentPrompt target text)
  | workspaceCreate (params : Json) : Mutating (workspaceCreate params)
  | tabCreate (params : Json) : Mutating (tabCreate params)
  | paneSplit (params : Json) : Mutating (paneSplit params)
  | paneClose (paneId : PaneId) : Mutating (paneClose paneId)
  | pluginActionInvoke (params : Json) : Mutating (pluginActionInvoke params)

section Serve

variable (parse : Text → Option Json) (socket : Nat → Connection) (client : HerdrClient)

/-- The calls that Device requests have led to, one after the other. -/
def serve (calls : List Call) : Wire :=
  calls.foldl (fun w c => (call parse socket client c.method c.params w).2) .start

/-- The requests that Herdr carries out during a call. -/
def executions (c : Call) (w : Wire) : List Request :=
  (call parse socket client c.method c.params w).2.executed.drop w.executed.length

namespace Connection

def executes : Connection → Bool
  | .served executed _ => executed
  | _ => false

/-- No response line comes of the connection. -/
def fails (maxBytes : Nat) : Connection → Bool
  | .served _ reply => (reply.bind (readLine maxBytes)).isNone
  | _ => true

end Connection

variable {parse socket client} {method : String} {params : Json} {c : Call} {w : Wire}

theorem readResponse_final {line : Text} {e : IpcError}
    (h : readResponse parse method line = .error e) : e.isRetryable = false := by
  unfold readResponse at h
  split at h
  · cases h
    rfl
  · split at h
    · cases h
      rfl
    · cases h

/-- One connection is used up, and Herdr has the request if it executes it there. -/
theorem callOnce_wire : (callOnce parse socket client method params w).2 =
    ⟨w.opened + 1, w.counter + 1, w.executed ++
      if (socket w.opened).executes then [⟨nextId method w.counter, method, params⟩] else []⟩ := by
  unfold callOnce
  cases socket w.opened with
  | refused => simp [Connection.executes]
  | cut => simp [Connection.executes]
  | served executed reply =>
    cases executed with
    | false =>
      cases hr : reply.bind (readLine client.maxResponseBytes) <;> simp [hr, Connection.executes]
    | true =>
      cases hr : reply.bind (readLine client.maxResponseBytes) <;> simp [hr, Connection.executes]

/-- A call is made a second time when no response line has come of the first. -/
theorem callOnce_retried :
    (∃ e, (callOnce parse socket client method params w).1 = .error e ∧ e.isRetryable = true) ↔
      (socket w.opened).fails client.maxResponseBytes = true := by
  unfold callOnce
  cases socket w.opened with
  | refused => exact ⟨fun _ => rfl, fun _ => ⟨.connect, rfl, rfl⟩⟩
  | cut => exact ⟨fun _ => rfl, fun _ => ⟨.io, rfl, rfl⟩⟩
  | served executed reply =>
    simp only [Connection.fails]
    cases hr : reply.bind (readLine client.maxResponseBytes) with
    | none => exact ⟨fun _ => rfl, fun _ => ⟨.io, rfl, rfl⟩⟩
    | some line =>
      constructor
      · rintro ⟨e, he, hretry⟩
        rw [readResponse_final he] at hretry
        exact absurd hretry (by decide)
      · intro h
        cases h

theorem call_wire : (call parse socket client method params w).2 =
    if (socket w.opened).fails client.maxResponseBytes then
      (callOnce parse socket client method params (callOnce parse socket client method params w).2).2
    else (callOnce parse socket client method params w).2 := by
  have hretry : (∃ e, (callOnce parse socket client method params w).1 = .error e ∧
      e.isRetryable = true) ↔ (socket w.opened).fails client.maxResponseBytes = true :=
    callOnce_retried
  unfold call
  cases hc : callOnce parse socket client method params w with
  | mk result w' =>
    rw [hc] at hretry
    cases result with
    | ok value =>
      have hf : ¬(socket w.opened).fails client.maxResponseBytes = true := by
        rw [← hretry]
        rintro ⟨e, he, -⟩
        cases he
      rw [if_neg hf]
    | error e =>
      by_cases he : e.isRetryable = true
      · rw [if_pos (hretry.mp ⟨e, rfl, he⟩)]
        simp only [he, if_true]
      · have hf : ¬(socket w.opened).fails client.maxResponseBytes = true := by
          rw [← hretry]
          rintro ⟨e', he', hr⟩
          cases he'
          exact he hr
        rw [if_neg hf]
        simp only [he]
        rfl

/-- The connections of a call, one or two, and what Herdr has carried out on them. -/
theorem executions_length : (executions parse socket client c w).length =
    (socket w.opened).executes.toNat +
      ((socket w.opened).fails client.maxResponseBytes && (socket (w.opened + 1)).executes).toNat := by
  unfold executions
  rw [call_wire]
  cases (socket w.opened).fails client.maxResponseBytes with
  | false =>
    rw [if_neg (by decide), callOnce_wire]
    cases (socket w.opened).executes <;> simp
  | true =>
    rw [if_pos rfl, callOnce_wire, callOnce_wire]
    cases (socket w.opened).executes <;> cases (socket (w.opened + 1)).executes <;> simp

variable (socket client) in
/-- The first connection of the `n`th call, counted from zero. -/
def firstConnection : Nat → Nat
  | 0 => 0
  | n + 1 =>
    let first := firstConnection n
    if (socket first).fails client.maxResponseBytes then first + 2 else first + 1

variable (parse socket client) in
theorem serve_opened (calls : List Call) :
    (serve parse socket client calls).opened = firstConnection socket client calls.length := by
  induction calls using List.reverseRecOn with
  | nil => rfl
  | append_singleton calls c ih =>
    have hserve : serve parse socket client (calls ++ [c]) =
        (call parse socket client c.method c.params (serve parse socket client calls)).2 :=
      List.foldl_append ..
    rw [hserve, call_wire, List.length_append, List.length_singleton]
    show _ = if (socket (firstConnection socket client calls.length)).fails client.maxResponseBytes
      then _ else _
    rw [← ih]
    split
    · rw [callOnce_wire, callOnce_wire]
    · rw [callOnce_wire]

variable (socket client) in
/-- A request that Herdr carries out without a response line, and then once more on the
next connection. -/
def Repeats (first : Nat) : Prop :=
  (socket first).executes = true ∧ (socket first).fails client.maxResponseBytes = true ∧
    (socket (first + 1)).executes = true

theorem executions_at_most_once_iff :
    (executions parse socket client c w).length ≤ 1 ↔ ¬Repeats socket client w.opened := by
  rw [executions_length]
  unfold Repeats
  cases (socket w.opened).executes <;> cases (socket w.opened).fails client.maxResponseBytes <;>
    cases (socket (w.opened + 1)).executes <;> decide

variable (parse socket client) in
theorem carried_out_once_iff (calls : List Call) :
    (∀ pre c post, calls = pre ++ c :: post → Mutating c →
      (executions parse socket client c (serve parse socket client pre)).length ≤ 1) ↔
    ∀ pre c post, calls = pre ++ c :: post → Mutating c →
      ¬Repeats socket client (firstConnection socket client pre.length) := by
  constructor
  · intro h pre c post hcalls hm
    have honce := h pre c post hcalls hm
    rwa [executions_at_most_once_iff, serve_opened] at honce
  · intro h pre c post hcalls hm
    rw [executions_at_most_once_iff, serve_opened]
    exact h pre c post hcalls hm

end Serve

/-- An Enter whose response comes too late is pressed again, and the call succeeds. -/
theorem late_response_repeats_enter :
    let enter := sendCall (.sendInput "w1:p1".toList none (some ["Enter".toList]))
    let parse : Text → Option Json := fun line => if line = "{}".toList then some (.obj []) else none
    let socket : Nat → Connection
      | 0 => .served true none
      | _ => .served true (some [123, 125])
    let client : HerdrClient := ⟨1024⟩
    (call parse socket client enter.method enter.params .start).1.isOk = true ∧
      (executions parse socket client enter .start).length = 2 ∧
      ¬∀ pre c post, [enter] = pre ++ c :: post → Mutating c →
        (executions parse socket client c (serve parse socket client pre)).length ≤ 1 := by
  intro enter parse socket client
  have htwo : (executions parse socket client enter .start).length = 2 := by
    rw [executions_length]
    rfl
  have hline : readLine client.maxResponseBytes [123, 125] = some "{}".toList := by decide
  have hok : (call parse socket client enter.method enter.params .start).1.isOk = true := by
    simp [call, callOnce, socket, Wire.start, IpcError.isRetryable, hline, readResponse, parse,
      Json.get, Except.isOk, Except.toBool]
  refine ⟨hok, htwo, ?_⟩
  intro h
  have hone : (executions parse socket client enter .start).length ≤ 1 := h [] enter [] rfl (.send _)
  omega

end HerdrMobile.Host.Ipc
