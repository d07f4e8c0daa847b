import HerdrMobile.Lib.Json
import HerdrMobile.Lib.Run
import HerdrMobile.Lib.Serial

/-!
# The plain store

The paired computers and the notification acknowledgements of `plain_store.dart`. Every change of
either list reads the list, changes it and writes it, behind one queue for all instances. A
stored string that is JSON but no record throws an `Error`, and what fails with one of those
fails the queue for good.
-/
namespace HerdrMobile.App.PlainStore

open HerdrMobile.Lib HerdrMobile.Lib.Run HerdrMobile.Lib.Strings HerdrMobile.Lib.Serial

set_option autoImplicit false

structure PairedHostRecord (Time : Type) where
  hostId : Text
  hostName : Text
  lastSeen : Option Time
deriving DecidableEq

structure NotificationAck where
  hostId : Text
  paneId : Text
  status : Text
  «at» : Option Text
  removed : Bool
deriving DecidableEq

/-- `toIso8601String` and `DateTime.parse`, over the times that a text tells apart: in an hour
that a clock change repeats, two local times have one text. -/
structure DateTimes (Time : Type) where
  toIso8601String : Time → Text
  parse : Text → Option Time
  parse_iso : ∀ t, parse (toIso8601String t) = some t

/-- How a stored string is decoded: the mutations catch an exception and do not catch an error. -/
inductive Decoded (α : Type) where
  | ok (value : α)
  | exception
  | error
deriving DecidableEq

namespace Decoded

variable {α β γ : Type}

def map (f : α → β) : Decoded α → Decoded β
  | .ok value => .ok (f value)
  | .exception => .exception
  | .error => .error

end Decoded

variable {Time F : Type}

/-- A stored string as `jsonDecode` reads it. There is nothing where it is not JSON. -/
abbrev Stored (F : Type) := Option (Json F)

section Records

/-- `json[key] as String?`; a cast that fails is an error. -/
def optionalString (json : Json F) (key : Text) : Decoded (Option Text) :=
  match json.get key with
  | none | some .null => .ok none
  | some (.str text) => .ok (some text)
  | some _ => .error

/-- `json[key] as String`. -/
def string (json : Json F) (key : Text) : Decoded Text :=
  match json.get key with
  | some (.str text) => .ok text
  | _ => .error

/-- `json[key] as bool`. -/
def boolean (json : Json F) (key : Text) : Decoded Bool :=
  match json.get key with
  | some (.bool value) => .ok value
  | _ => .error

def optional (text : Option Text) : Json F := text.elim .null .str

namespace PairedHostRecord

variable (times : DateTimes Time)

def toJson (record : PairedHostRecord Time) : Json F :=
  .object [("hostId".toList, .str record.hostId), ("hostName".toList, .str record.hostName),
    ("lastSeen".toList, optional (record.lastSeen.map times.toIso8601String))]

/-- The arguments of the constructor are evaluated in their order. -/
def fromJson (json : Json F) : Decoded (PairedHostRecord Time) :=
  match optionalString json "lastSeen".toList with
  | .ok lastSeenText =>
    match string json "hostId".toList, string json "hostName".toList with
    | .ok hostId, .ok hostName =>
      match lastSeenText with
      | none => .ok { hostId, hostName, lastSeen := none }
      | some text =>
        match times.parse text with
        | some lastSeen => .ok { hostId, hostName, lastSeen := some lastSeen }
        | none => .exception
    | _, _ => .error
  | _ => .error

end PairedHostRecord

namespace NotificationAck

def toJson (ack : NotificationAck) : Json F :=
  .object [("host_id".toList, .str ack.hostId), ("pane_id".toList, .str ack.paneId),
    ("status".toList, .str ack.status), ("at".toList, optional ack.at),
    ("removed".toList, .bool ack.removed)]

def fromJson (json : Json F) : Decoded NotificationAck :=
  match string json "host_id".toList, string json "pane_id".toList, string json "status".toList,
      optionalString json "at".toList, boolean json "removed".toList with
  | .ok hostId, .ok paneId, .ok status, .ok «at», .ok removed =>
    .ok { hostId, paneId, status, «at», removed }
  | _, _, _, _, _ => .error

end NotificationAck

/-- How the records of a list are stored, and read again. -/
structure Codec (F α : Type) where
  toJson : α → Json F
  fromJson : Json F → Decoded α
  object : ∀ a, ∃ fields, toJson a = .obj fields
  fromJson_toJson : ∀ a, fromJson (toJson a) = .ok a

/-- `jsonDecode`, the cast to a map, and the record. -/
def Codec.decode {α : Type} (codec : Codec F α) : Stored F → Decoded α
  | none => .exception
  | some (.obj fields) => codec.fromJson (.obj fields)
  | some _ => .error

/-- The list, up to the first string that does not decode. -/
def Codec.readList {α : Type} (codec : Codec F α) : List (Stored F) → Decoded (List α)
  | [] => .ok []
  | stored :: rest =>
    match codec.decode stored with
    | .ok a => (codec.readList rest).map (a :: ·)
    | .exception => .exception
    | .error => .error

def Codec.writeList {α : Type} (codec : Codec F α) (list : List α) : List (Stored F) :=
  list.map fun a => some (codec.toJson a)

theorem optionalString_optional {json : Json F} {key : Text} {text : Option Text}
    (h : json.get key = some (optional text)) : optionalString json key = .ok text := by
  rw [optionalString, h]
  cases text <;> rfl

def hostCodec (times : DateTimes Time) : Codec F (PairedHostRecord Time) where
  toJson := PairedHostRecord.toJson times
  fromJson := PairedHostRecord.fromJson times
  object _ := ⟨_, rfl⟩
  fromJson_toJson record := by
    have hseen : optionalString (record.toJson times : Json F) "lastSeen".toList =
        .ok (record.lastSeen.map times.toIso8601String) := by
      apply optionalString_optional
      exact Json.get_object _ _
    have hid : string (record.toJson times : Json F) "hostId".toList = .ok record.hostId := by
      rw [string, PairedHostRecord.toJson, Json.get_object]
      rfl
    have hname : string (record.toJson times : Json F) "hostName".toList =
        .ok record.hostName := by
      rw [string, PairedHostRecord.toJson, Json.get_object]
      rfl
    rw [PairedHostRecord.fromJson, hseen, hid, hname]
    obtain ⟨hostId, hostName, lastSeen⟩ := record
    cases lastSeen with
    | none => rfl
    | some t =>
      show (match times.parse (times.toIso8601String t) with
        | some lastSeen => _
        | none => _) = _
      rw [times.parse_iso]

def ackCodec : Codec F NotificationAck where
  toJson := NotificationAck.toJson
  fromJson := NotificationAck.fromJson
  object _ := ⟨_, rfl⟩
  fromJson_toJson ack := by
    have hget : ∀ key, (ack.toJson : Json F).get key = List.lookup key _ := fun key =>
      Json.get_object _ key
    have hat : optionalString (ack.toJson : Json F) "at".toList = .ok ack.at :=
      optionalString_optional (hget _)
    have hhost : string (ack.toJson : Json F) "host_id".toList = .ok ack.hostId := by
      rw [string, hget]
      rfl
    have hpane : string (ack.toJson : Json F) "pane_id".toList = .ok ack.paneId := by
      rw [string, hget]
      rfl
    have hstatus : string (ack.toJson : Json F) "status".toList = .ok ack.status := by
      rw [string, hget]
      rfl
    have hremoved : boolean (ack.toJson : Json F) "removed".toList = .ok ack.removed := by
      rw [boolean, hget]
      rfl
    rw [NotificationAck.fromJson, hhost, hpane, hstatus, hat, hremoved]

section Lists

variable {α : Type} (codec : Codec F α)

theorem decode_toJson (a : α) : codec.decode (some (codec.toJson a)) = .ok a := by
  obtain ⟨fields, hf⟩ := codec.object a
  have hread := codec.fromJson_toJson a
  rw [hf] at hread ⊢
  exact hread

theorem readList_writeList (list : List α) : codec.readList (codec.writeList list) = .ok list := by
  induction list with
  | nil => rfl
  | cons a list ih =>
    rw [Codec.writeList, List.map_cons, Codec.readList, decode_toJson]
    show (codec.readList (codec.writeList list)).map (a :: ·) = _
    rw [ih]
    rfl

end Lists

end Records

/-- The record of a computer is replaced in its place. -/
def modifyFirst {α : Type} (p : α → Bool) (f : α → α) : List α → List α
  | [] => []
  | a :: rest => if p a then f a :: rest else a :: modifyFirst p f rest

section Changes

variable (hosts : List (PairedHostRecord Time)) (acks : List NotificationAck)

def savedHost (record : PairedHostRecord Time) : List (PairedHostRecord Time) :=
  if hosts.any (·.hostId = record.hostId) then
    modifyFirst (·.hostId = record.hostId) (fun _ => record) hosts
  else hosts ++ [record]

def renamed (hostId hostName : Text) : List (PairedHostRecord Time) :=
  modifyFirst (·.hostId = hostId) (fun host => { host with hostName }) hosts

def stamped (hostId : Text) («at» : Time) : List (PairedHostRecord Time) :=
  modifyFirst (·.hostId = hostId) (fun host => { host with lastSeen := some «at» }) hosts

def withoutHost (hostId : Text) : List (PairedHostRecord Time) :=
  hosts.filter (·.hostId ≠ hostId)

def withoutAcks (hostId : Text) : List NotificationAck := acks.filter (·.hostId ≠ hostId)

def savedAck (ack : NotificationAck) : List NotificationAck :=
  acks.filter (fun a => ¬(a.hostId = ack.hostId ∧ a.paneId = ack.paneId)) ++ [ack]

end Changes

inductive Call (Time : Type) where
  | savePairedHost (record : PairedHostRecord Time)
  | updateHostName (hostId hostName : Text)
  | updateLastSeen (hostId : Text) («at» : Time)
  | removePairedHost (hostId : Text)
  | saveNotificationAck (ack : NotificationAck)
deriving DecidableEq

/-- A change of one of the two lists. -/
inductive Mutation (Time : Type) where
  | hosts (change : List (PairedHostRecord Time) → List (PairedHostRecord Time))
  | acks (change : List NotificationAck → List NotificationAck)

/-- What a call makes of the paired computers. -/
def Call.onHosts : Call Time → Option (List (PairedHostRecord Time) → List (PairedHostRecord Time))
  | .savePairedHost record => some (savedHost · record)
  | .updateHostName hostId hostName => some (renamed · hostId hostName)
  | .updateLastSeen hostId «at» => some (stamped · hostId «at»)
  | .removePairedHost hostId => some (withoutHost · hostId)
  | .saveNotificationAck _ => none

/-- What a call makes of the acknowledgements. -/
def Call.onAcks : Call Time → Option (List NotificationAck → List NotificationAck)
  | .removePairedHost hostId => some (withoutAcks · hostId)
  | .saveNotificationAck ack => some (savedAck · ack)
  | _ => none

/-- The first mutation that a call queues. -/
def Call.first : Call Time → Mutation Time
  | .savePairedHost record => .hosts (savedHost · record)
  | .updateHostName hostId hostName => .hosts (renamed · hostId hostName)
  | .updateLastSeen hostId «at» => .hosts (stamped · hostId «at»)
  | .removePairedHost hostId => .hosts (withoutHost · hostId)
  | .saveNotificationAck ack => .acks (savedAck · ack)

/-- The mutation that `removePairedHost` queues once the first one is done. -/
def Call.second : Call Time → Option (Mutation Time)
  | .removePairedHost hostId => some (.acks (withoutAcks · hostId))
  | _ => none

/-- How far a call is. Between its two mutations, `removePairedHost` waits to go on. -/
inductive Progress where
  | queued
  | between
  | secondQueued
  | returned (ok : Bool)
  | threw
deriving DecidableEq

/-- The preferences: two lists of strings. -/
structure Contents (F : Type) where
  hosts : List (Stored F)
  acks : List (Stored F)

/-- What a mutation writes: one list. -/
inductive Written (F : Type) where
  | hosts (list : List (Stored F))
  | acks (list : List (Stored F))

def Contents.put (contents : Contents F) : Written F → Contents F
  | .hosts list => { contents with hosts := list }
  | .acks list => { contents with acks := list }

/-- `_pairedHostsQueue` holds the calls whose mutations wait, the second one where it says so.
`writing` is what the first of them writes, once it has read. -/
structure Store (Time F : Type) where
  contents : Contents F
  calls : List (Call Time × Progress)
  queue : List (Nat × Bool)
  writing : Option (Written F)
  poisoned : Bool

inductive Event (Time : Type) where
  | call (call : Call Time)
  | read
  | readFails
  | write
  | writeFails (done : Bool)
  | resume (i : Nat)
deriving DecidableEq

section Step

variable (times : DateTimes Time)

/-- What a mutation writes once it has read its list. -/
def Mutation.rewritten (contents : Contents F) : Mutation Time → Decoded (Written F)
  | .hosts change => ((hostCodec times).readList contents.hosts).map fun hosts =>
      .hosts ((hostCodec times).writeList (change hosts))
  | .acks change => (ackCodec.readList contents.acks).map fun acks =>
      .acks (ackCodec.writeList (change acks))

def mutationOf (call : Call Time) (second : Bool) : Option (Mutation Time) :=
  if second then call.second else some call.first

/-- A mutation that is done ends its call, but for the first one of two. -/
def progressAfter (call : Call Time) (second ok : Bool) : Progress :=
  if ok && !second && call.second.isSome then .between else .returned ok

namespace Store

variable (s : Store Time F)

/-- The first mutation of the queue is over. -/
def finish (ok : Bool) : Store Time F :=
  match s.queue with
  | [] => s
  | (i, second) :: queue =>
    match s.calls[i]? with
    | some (call, _) =>
      { s with
        calls := s.calls.set i (call, progressAfter call second ok)
        queue
        writing := none }
    | none => s

/-- An error fails the mutation, the queue, and whatever waits in it. -/
def poison : Store Time F :=
  { s with
    calls := s.calls.map fun entry =>
      if entry.2 = .queued ∨ entry.2 = .secondQueued then (entry.1, .threw) else entry
    queue := []
    writing := none
    poisoned := true }

/-- The mutation at the head of the queue. -/
def head : Option (Mutation Time) :=
  s.queue.head?.bind fun (i, second) =>
    s.calls[i]?.bind fun (call, _) => mutationOf call second

end Store

open Store

def step (s : Store Time F) : Event Time → Option (Store Time F)
  | .call call =>
    if s.poisoned then some { s with calls := s.calls ++ [(call, .threw)] }
    else
      some { s with
        calls := s.calls ++ [(call, .queued)]
        queue := s.queue ++ [(s.calls.length, false)] }
  | .read =>
    match s.head, s.writing with
    | some mutation, none =>
      match mutation.rewritten times s.contents with
      | .ok written => some { s with writing := some written }
      | .exception => some (s.finish false)
      | .error => some s.poison
    | _, _ => none
  | .readFails =>
    match s.head, s.writing with
    | some _, none => some (s.finish false)
    | _, _ => none
  | .write =>
    match s.writing with
    | some written => some { s.finish true with contents := s.contents.put written }
    | none => none
  | .writeFails done =>
    match s.writing with
    | some written =>
      some { s.finish false with
        contents := if done then s.contents.put written else s.contents }
    | none => none
  | .resume i =>
    match s.calls[i]? with
    | some (call, .between) =>
      if s.poisoned then some { s with calls := s.calls.set i (call, .threw) }
      else
        some { s with
          calls := s.calls.set i (call, .secondQueued)
          queue := s.queue ++ [(i, true)] }
    | _ => none

def start (contents : Contents F) : Store Time F :=
  { contents, calls := [], queue := [], writing := none, poisoned := false }

end Step

end HerdrMobile.App.PlainStore
