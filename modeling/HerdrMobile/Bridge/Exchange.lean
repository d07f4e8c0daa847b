import HerdrMobile.Bridge.Control
import HerdrMobile.Lib.Utf8

/-!
# One command and its reply

What a client makes of the reply, and whether its command has reached the handler, follow from
the sizes of the two lines and from the tokens.
-/
namespace HerdrMobile.Bridge.Exchange

open Lib Bridge.Control
open Proto.Messages (Text)

set_option autoImplicit false

variable {F : Type} {S : Serde F} {token : Text} {command : Command}
  {handler : Command → Except ErrorCode (Json F)} {result : Except ErrorCode (Json F)}

/-- The text of a value is one line: the serializer escapes a line break, and white space behind
the value is skipped. -/
structure OneLine (S : Serde F) (j : Json F) : Prop where
  plain : newline ∉ S.write j
  spaced : S.read (S.write j ++ [newline]) = S.read (S.write j)
  rereads : S.Rereads j

theorem boundedLine_line {cap : Nat} {body : List UInt8} (hplain : newline ∉ body) :
    boundedLine (cap + 1) (body ++ [newline]) =
      if body.length ≤ cap then some (body ++ [newline]) else none := by
  have hbody : ∀ b ∈ body, decide (b ≠ newline) = true := by
    intro b hb
    rw [decide_eq_true_eq]
    rintro rfl
    exact hplain hb
  have hline : (body ++ [newline]).takeWhile (· ≠ newline) = body := by
    rw [List.takeWhile_append_of_pos hbody]
    exact List.append_nil body
  unfold boundedLine
  rw [hline]
  by_cases hfits : body.length ≤ cap
  · have hall : (body ++ [newline]).take (cap + 1) = body ++ [newline] :=
      List.take_of_length_le (by simpa using hfits)
    rw [if_pos hfits, hall, if_pos (List.mem_append_right _ List.mem_cons_self)]
  · have hpart : (body ++ [newline]).take (cap + 1) = body.take (cap + 1) :=
      List.take_append_of_le_length (by omega)
    rw [if_neg hfits, hpart, if_neg fun h => hplain (List.mem_of_mem_take h)]

theorem kept_str (reread : F → F) (n : Nat) (text : Text) :
    (Json.str text : Json F).Kept reread n := by
  cases n <;> rfl

/-- The request as it is read. -/
def requestObject (token : Text) (command : Command) : Json F :=
  .object (("token".toList, .str token) :: commandFields command)

/-- The value that the bridge reads for a request. -/
theorem read_request (hline : OneLine S (requestValue token command)) :
    S.read (S.write (requestValue token command) ++ [newline]) =
      some (requestObject token command) := by
  rw [hline.spaced, hline.rereads]
  refine Json.through_obj fun kv hkv => ?_
  rcases List.mem_cons.mp hkv with rfl | hkv
  · exact kept_str ..
  · rcases List.mem_cons.mp hkv with rfl | hkv
    · exact kept_str ..
    · cases command with
      | revoke deviceId =>
        obtain rfl := List.mem_singleton.mp hkv
        exact kept_str ..
      | _ => cases hkv

theorem token_request (token : Text) (command : Command) :
    ((requestObject token command : Json F).get "token".toList).bind Json.asStr = some token := by
  rw [requestObject, Json.get_object]
  rfl

theorem command_request (token : Text) (command : Command) :
    (requestObject token command : Json F).get "command".toList =
      some (.str (commandName command)) := by
  rw [requestObject, Json.get_object]
  rfl

theorem known_command (command : Command) : commandName command ∈ knownCommands := by
  cases command with
  | revoke deviceId =>
    show "revoke".toList ∈ knownCommands
    decide
  | _ => decide

theorem readCommand_request (token : Text) (command : Command) :
    readCommand (requestObject token command : Json F) (commandName command) = some command := by
  cases command with
  | revoke deviceId =>
    have hid : ((requestObject token (.revoke deviceId) : Json F).get "device_id".toList).bind
        Json.asStr = some deviceId := by
      rw [requestObject, Json.get_object]
      rfl
    unfold readCommand
    rw [hid]
    rfl
  | _ => rfl

/-- A command is read as itself under its token and refused under every other. -/
theorem classify_request (token mine : Text) (command : Command) :
    classify (requestObject mine command : Json F) token =
      if mine = token then .ok command else .error .unauthorized := by
  unfold classify
  rw [token_request, command_request]
  by_cases hmine : mine = token
  · rw [if_neg (not_not_intro (congrArg some hmine)), if_pos hmine]
    dsimp only
    rw [if_pos (known_command command), readCommand_request]
  · rw [if_pos fun h => hmine (Option.some.inj h), if_neg hmine]

/-- What a client makes of an answer of the handler. -/
def seen : Except ErrorCode (Json F) → Except ClientError (Json F)
  | .ok value => .ok value
  | .error .unauthorized => .error .notRunning
  | .error code => .error (.rejected code)

theorem kept_reply (hkept : ∀ value, result = .ok value → value.Kept S.reread 126) :
    (replyValue result).Kept S.reread Serde.readLimit := by
  have hbool : ∀ b, (Json.bool b : Json F).Kept S.reread 126 := fun _ => rfl
  cases result with
  | ok value =>
    refine Json.kept_object fun kv hkv => ?_
    rcases List.mem_cons.mp hkv with rfl | hkv
    · exact hbool true
    · obtain rfl := List.mem_singleton.mp hkv
      exact hkept value rfl
  | error code =>
    refine Json.kept_object fun kv hkv => ?_
    rcases List.mem_cons.mp hkv with rfl | hkv
    · exact hbool false
    · obtain rfl := List.mem_singleton.mp hkv
      exact kept_str ..

theorem decodeReply_replyValue (S : Serde F) (result : Except ErrorCode (Json F)) :
    decodeReply S (replyValue result) = seen result := by
  unfold decodeReply
  cases result with
  | ok value =>
    rw [replyValue, Json.get_object, Json.get_object]
    rfl
  | error code =>
    rw [replyValue, Json.get_object, Json.get_object]
    cases code <;> rfl

theorem readReply_sendReply (hline : OneLine S (replyValue result))
    (hkept : ∀ value, result = .ok value → value.Kept S.reread 126) :
    readReply S ((sendReply S result).getD []) =
      if (S.write (replyValue result)).length ≤ replyMaxBytes then seen result
      else .error (.protocol "the bridge closed without a reply") := by
  unfold sendReply readReply
  by_cases hfits : (S.write (replyValue result)).length ≤ replyMaxBytes
  · have hread : S.read (S.write (replyValue result) ++ [newline]) = some (replyValue result) := by
      rw [hline.spaced, hline.rereads]
      exact kept_reply hkept
    rw [if_pos hfits, if_neg (Nat.not_lt.mpr hfits), Option.getD_some, if_neg (by simp),
      boundedLine_line hline.plain, if_pos hfits]
    dsimp only
    rw [hread]
    exact decodeReply_replyValue S result
  · rw [if_neg hfits, if_pos (Nat.lt_of_not_le hfits)]
    rfl

/-- What the handler answers, or what is sent in its place. -/
def answer (token mine : Text) (handler : Command → Except ErrorCode (Json F))
    (command : Command) : Except ErrorCode (Json F) :=
  if mine = token then handler command else .error .unauthorized

/-- The bridge gets the bytes of the request, the client what the bridge sends before it closes. -/
def exchange (S : Serde F) (token : Text) (handler : Command → Except ErrorCode (Json F))
    (endpoint : ControlEndpoint) (command : Command) :
    Option Command × Except ClientError (Json F) :=
  let bridge := handleConnection S token handler
  ((bridge (S.write (requestValue endpoint.token command) ++ [newline])).handled,
    request S (some endpoint) .connected (fun sent => some ((bridge sent).reply.getD [])) command)

theorem handleConnection_request {mine : Text} (hline : OneLine S (requestValue mine command)) :
    handleConnection S token handler (S.write (requestValue mine command) ++ [newline]) =
      if (S.write (requestValue mine command)).length ≤ requestMaxBytes then
        ⟨if mine = token then some command else none,
          sendReply S (answer token mine handler command)⟩
      else .closed := by
  unfold handleConnection
  rw [boundedLine_line hline.plain]
  by_cases hfits : (S.write (requestValue mine command)).length ≤ requestMaxBytes
  · rw [if_pos hfits, if_pos hfits]
    dsimp only
    rw [read_request hline]
    have hclassify := @classify_request F token mine command
    unfold requestObject Json.object at hclassify ⊢
    dsimp only
    rw [hclassify, answer]
    by_cases hmine : mine = token
    · rw [if_pos hmine, if_pos hmine, if_pos hmine]
    · rw [if_neg hmine, if_neg hmine, if_neg hmine]
  · rw [if_neg hfits, if_neg hfits]

/-- A command reaches the handler exactly when its line fits and the tokens agree. The client gets
the answer of the handler when both lines fit, and otherwise cannot tell whether the command has
run. -/
theorem exchange_outcome (S : Serde F) (token : Text)
    (handler : Command → Except ErrorCode (Json F)) (endpoint : ControlEndpoint)
    (command : Command) (hrequest : OneLine S (requestValue endpoint.token command))
    (hreply : OneLine S (replyValue (answer token endpoint.token handler command)))
    (hkept : ∀ value, handler command = .ok value → value.Kept S.reread 126) :
    let asked := (S.write (requestValue endpoint.token command)).length ≤ requestMaxBytes
    let result := answer token endpoint.token handler command
    exchange S token handler endpoint command =
      (if asked ∧ endpoint.token = token then some command else none,
        if asked ∧ (S.write (replyValue result)).length ≤ replyMaxBytes then seen result
        else .error (.protocol "the bridge closed without a reply")) := by
  have hresult : ∀ value, answer token endpoint.token handler command = .ok value →
      value.Kept S.reread 126 := by
    intro value h
    unfold answer at h
    split at h
    · exact hkept value h
    · cases h
  have hread := readReply_sendReply hreply hresult
  unfold exchange request
  dsimp only
  rw [handleConnection_request hrequest]
  by_cases hfits : (S.write (requestValue endpoint.token command)).length ≤ requestMaxBytes
  · rw [if_pos hfits]
    dsimp only
    rw [hread]
    simp only [hfits, true_and]
  · rw [if_neg hfits]
    simp only [hfits, false_and, if_false]
    rfl

/-- A serializer that knows the texts of one request and of one reply. -/
def lines (request reply : Json Empty) (requestText replyText : String) : Serde Empty where
  write j := if (j.get "ok".toList).isSome then Utf8.utf8 replyText.toList
    else Utf8.utf8 requestText.toList
  read bytes :=
    if bytes ∈ [Utf8.utf8 requestText.toList, Utf8.utf8 requestText.toList ++ [newline]] then
      request.through id Serde.readLimit
    else if bytes ∈ [Utf8.utf8 replyText.toList, Utf8.utf8 replyText.toList ++ [newline]] then
      reply.through id Serde.readLimit
    else none
  reread := id

def stopLines : Serde Empty :=
  lines (requestValue "t".toList .stop) (replyValue (.ok .null))
    "\x7b\"token\":\"t\",\"command\":\"stop\"\x7d" "\x7b\"ok\":true,\"result\":null\x7d"

theorem exchange_outcome_stop :
    exchange stopLines "t".toList (fun _ => .ok .null) ⟨1, 2, "t".toList⟩ .stop =
      (some .stop, .ok .null) :=
  (exchange_outcome stopLines "t".toList (fun _ => .ok .null) ⟨1, 2, "t".toList⟩ .stop
    ⟨by decide, rfl, rfl⟩ ⟨by decide, rfl, rfl⟩ fun _ h => Except.ok.inj h ▸ rfl).trans rfl

/-- The pane reads the status that the bridge has built, or an error, and never another status. -/
theorem status_arrives (S : Serde F) (token : Text) (endpoint : ControlEndpoint)
    (handler : Command → Except ErrorCode (Json F)) (built : Status)
    (hstatus : handler .status = .ok ((status : Record S.reread Status).codec.enc built))
    (hrequest : OneLine S (requestValue endpoint.token .status))
    (hreply : OneLine S (replyValue (answer token endpoint.token handler .status))) :
    statusOf S (exchange S token handler endpoint .status).2 =
      if (S.write (requestValue endpoint.token .status)).length ≤ requestMaxBytes ∧
          (S.write (replyValue (answer token endpoint.token handler .status))).length ≤
            replyMaxBytes then
        if endpoint.token = token then .ok built else .error .notRunning
      else .error (.protocol "the bridge closed without a reply") := by
  have htotal : (status : Record S.reread Status).Total := inferInstance
  have hkept : ∀ value, handler .status = .ok value → value.Kept S.reread 126 := by
    intro value hvalue
    obtain rfl : _ = value := Except.ok.inj (hstatus.symm.trans hvalue)
    refine (status.codec.kept built (htotal.ok built)).mono ?_
    exact Nat.le_of_ble_eq_true rfl
  have hread : statusOf S (.ok ((status : Record S.reread Status).codec.enc built)) =
      .ok built := by
    unfold statusOf
    dsimp only
    rw [status.codec.dec_enc built (htotal.ok built)]
  have hexchange := exchange_outcome S token handler endpoint .status hrequest hreply hkept
  dsimp only at hexchange
  rw [hexchange]
  dsimp only
  split
  · unfold answer
    split
    · rw [hstatus, seen, hread]
    · rfl
  · rfl

def quiet : Status := ⟨"http://r".toList, ⟨.idle, 0, none⟩, none, []⟩

def quietLines : Serde Empty :=
  lines (requestValue "t".toList .status)
    (replyValue (.ok ((status : Record id Status).codec.enc quiet)))
    "\x7b\"token\":\"t\",\"command\":\"status\"\x7d"
    ("\x7b\"ok\":true,\"result\":\x7b\"devices\":[],\"link\":\x7b\"attempt\":0,\"error\":null," ++
      "\"state\":\"idle\"\x7d,\"pairing\":null,\"relay_origin\":\"http://r\"\x7d\x7d")

set_option maxRecDepth 4000 in
theorem status_arrives_quiet :
    statusOf quietLines (exchange quietLines "t".toList
      (fun _ => .ok ((status : Record id Status).codec.enc quiet)) ⟨1, 2, "t".toList⟩ .status).2 =
        .ok quiet :=
  (status_arrives quietLines "t".toList ⟨1, 2, "t".toList⟩
    (fun _ => .ok ((status : Record id Status).codec.enc quiet)) quiet rfl
    ⟨by decide, rfl, rfl⟩ ⟨by decide, rfl, rfl⟩).trans rfl

end HerdrMobile.Bridge.Exchange
