import Mathlib.Algebra.BigOperators.Fin
import Mathlib.Algebra.Order.BigOperators.Group.Finset
import HerdrMobile.Hub.Session

/-!
# The metrics of the hub

The counters are atomics that every task adds to, and `/metrics` shows them under fixed labels.
A bucket of the duration histogram counts every session that its boundary covers, and the
rendering adds the buckets up once more.
-/
namespace HerdrMobile.Hub.Counters

open Proto.Codes Hub.Session

set_option autoImplicit false

/-- R-12-050, in seconds. -/
def durationBucketsSecs : Fin 10 → Nat := ![1, 5, 15, 30, 60, 120, 300, 600, 1800, 3600]

def closeCodeName : CloseCode → Option String
  | .normal | .goingAway | .abnormal | .internalError => none
  | .pairingExpired => some "pairing_expired"
  | .handleUnknown => some "handle_unknown"
  | .handleTaken => some "handle_taken"
  | .protocolError => some "protocol_error"
  | .revoked => some "revoked"
  | .handshakeFailed => some "handshake_failed"
  | .hostInUse => some "host_in_use"
  | .frameTooLarge => some "frame_too_large"
  | .rateLimited => some "rate_limited"

/-- The codes with a name, in the order in which they are shown. -/
def namedCloseCodes : Fin 9 → CloseCode :=
  ![.pairingExpired, .handleUnknown, .handleTaken, .protocolError, .revoked, .handshakeFailed,
    .hostInUse, .frameTooLarge, .rateLimited]

def closeCodeIndex : CloseCode → Option (Fin 9)
  | .pairingExpired => some 0
  | .handleUnknown => some 1
  | .handleTaken => some 2
  | .protocolError => some 3
  | .revoked => some 4
  | .handshakeFailed => some 5
  | .hostInUse => some 6
  | .frameTooLarge => some 7
  | .rateLimited => some 8
  | .normal | .goingAway | .abnormal | .internalError => none

inductive RejectReason where
  | rateLimited
  | handleMalformed
  | handleTaken
  | hostInUse
  deriving DecidableEq

def rejectReasons : Fin 4 → RejectReason :=
  ![.rateLimited, .handleMalformed, .handleTaken, .hostInUse]

def RejectReason.label : RejectReason → String
  | .rateLimited => "rate_limited"
  | .handleMalformed => "handle_malformed"
  | .handleTaken => "handle_taken"
  | .hostInUse => "host_in_use"

def RejectReason.index : RejectReason → Fin 4
  | .rateLimited => 0
  | .handleMalformed => 1
  | .handleTaken => 2
  | .hostInUse => 3

def directionIndex : Role → Fin 2
  | .host => 0
  | .device => 1

def directionLabel : Fin 2 → String
  | 0 => "host_to_device"
  | 1 => "device_to_host"

structure Metrics where
  handlesTotal : UInt64
  framesForwarded : Fin 2 → UInt64
  bytesForwarded : Fin 2 → UInt64
  durationBuckets : Fin 10 → UInt64
  durationSumMs : UInt64
  durationCount : UInt64
  errorsTotal : Fin 9 → UInt64
  connectionsRejectedTotal : Fin 4 → UInt64

/-- `fetch_add`, which wraps, on one of several counters. -/
def bump {n : Nat} (counters : Fin n → UInt64) (i : Fin n) (amount : UInt64) : Fin n → UInt64 :=
  fun j => if j = i then counters j + amount else counters j

/-- A session of so many milliseconds is covered by the bucket. -/
def covers (k : Fin 10) (durationMs : UInt64) : Bool :=
  durationMs.toNat / 1000 ≤ durationBucketsSecs k

namespace Metrics

def new : Metrics := ⟨0, fun _ => 0, fun _ => 0, fun _ => 0, 0, 0, fun _ => 0, fun _ => 0⟩

def recordHandleCreated (m : Metrics) : Metrics := { m with handlesTotal := m.handlesTotal + 1 }

def recordForward (m : Metrics) (sender : Role) (bytes : Nat) : Metrics :=
  { m with
    framesForwarded := bump m.framesForwarded (directionIndex sender) 1
    bytesForwarded := bump m.bytesForwarded (directionIndex sender) (UInt64.ofNat bytes) }

def recordSessionDuration (m : Metrics) (durationMs : UInt64) : Metrics :=
  { m with
    durationBuckets := fun k =>
      if covers k durationMs then m.durationBuckets k + 1 else m.durationBuckets k
    durationSumMs := m.durationSumMs + durationMs
    durationCount := m.durationCount + 1 }

def recordError (m : Metrics) (code : CloseCode) : Metrics :=
  match closeCodeIndex code with
  | some i => { m with errorsTotal := bump m.errorsTotal i 1 }
  | none => m

def recordRejected (m : Metrics) (reason : RejectReason) : Metrics :=
  { m with connectionsRejectedTotal := bump m.connectionsRejectedTotal reason.index 1 }

end Metrics

/-- One call of a task. -/
inductive Record where
  | handleCreated
  | forward (sender : Role) (bytes : Nat)
  | sessionDuration (durationMs : UInt64)
  | error (code : CloseCode)
  | rejected (reason : RejectReason)
  deriving DecidableEq

def Metrics.record (m : Metrics) : Record → Metrics
  | .handleCreated => m.recordHandleCreated
  | .forward sender bytes => m.recordForward sender bytes
  | .sessionDuration durationMs => m.recordSessionDuration durationMs
  | .error code => m.recordError code
  | .rejected reason => m.recordRejected reason

/-- The counters after the calls of all tasks, in the order in which they ran. -/
def after (records : List Record) : Metrics := records.foldl Metrics.record .new

def header (kind name help : String) : List String :=
  ["# HELP " ++ name ++ " " ++ help, "# TYPE " ++ name ++ " " ++ kind]

def plainLine (name : String) (value : UInt64) : String := name ++ " " ++ toString value

def labeledLine (name label valueLabel : String) (value : UInt64) : String :=
  name ++ "\x7b" ++ label ++ "=\"" ++ valueLabel ++ "\"\x7d " ++ toString value

def pushGauge (name help : String) (value : UInt64) : List String :=
  header "gauge" name help ++ [plainLine name value]

def pushCounter (name help : String) (value : UInt64) : List String :=
  header "counter" name help ++ [plainLine name value]

def pushLabeledCounter (name help label : String) (values : List (String × UInt64)) : List String :=
  header "counter" name help ++ values.map fun (valueLabel, count) =>
    labeledLine name label valueLabel count

def durationName : String := "herdr_relay_session_duration_seconds"

/-- What the rendering shows for a bucket: the sum of it and the ones before it. -/
def cumulative (m : Metrics) (k : Fin 10) : UInt64 :=
  ((List.finRange 10).take (k.val + 1)).foldl (fun sum j => sum + m.durationBuckets j) 0

/-- `showSum` shows the milliseconds as seconds, divided as a `f64`. -/
def pushHistogram (showSum : UInt64 → String) (m : Metrics) : List String :=
  header "histogram" durationName "Session lifetime" ++
    (List.finRange 10).map (fun k => labeledLine (durationName ++ "_bucket") "le"
      (toString (durationBucketsSecs k)) (cumulative m k)) ++
    [labeledLine (durationName ++ "_bucket") "le" "+Inf" m.durationCount,
      durationName ++ "_sum " ++ showSum m.durationSumMs,
      plainLine (durationName ++ "_count") m.durationCount]

def errorLines (m : Metrics) : List (String × UInt64) :=
  (List.finRange 9).map fun i => ((closeCodeName (namedCloseCodes i)).getD "", m.errorsTotal i)

def rejectedLines (m : Metrics) : List (String × UInt64) :=
  (List.finRange 4).map fun i =>
    ((rejectReasons i).label, m.connectionsRejectedTotal (rejectReasons i).index)

def directionLines (counters : Fin 2 → UInt64) : List (String × UInt64) :=
  (List.finRange 2).map fun i => (directionLabel i, counters i)

def render (showSum : UInt64 → String) (m : Metrics) (activeHandles : Nat) : List String :=
  pushGauge "herdr_relay_handles_active" "Current active handle registrations"
      (UInt64.ofNat activeHandles) ++
    pushCounter "herdr_relay_handles_total" "Total handle registrations since start"
      m.handlesTotal ++
    pushLabeledCounter "herdr_relay_frames_forwarded_total" "Total frames relayed" "direction"
      (directionLines m.framesForwarded) ++
    pushLabeledCounter "herdr_relay_bytes_forwarded_total" "Total bytes relayed" "direction"
      (directionLines m.bytesForwarded) ++
    pushHistogram showSum m ++
    pushLabeledCounter "herdr_relay_errors_total" "Error count by type" "code" (errorLines m) ++
    pushLabeledCounter "herdr_relay_connections_rejected_total" "Rejected connection count"
      "reason" (rejectedLines m)

variable {records : List Record}

/-- What all the calls add to one counter, wrapped. -/
def tally (amount : Record → Nat) (records : List Record) : UInt64 :=
  UInt64.ofNat (records.map amount).sum

def madeHandles : Record → Nat
  | .handleCreated => 1
  | _ => 0

def sentFrames (i : Fin 2) : Record → Nat
  | .forward sender _ => if directionIndex sender = i then 1 else 0
  | _ => 0

def sentBytes (i : Fin 2) : Record → Nat
  | .forward sender bytes => if directionIndex sender = i then bytes else 0
  | _ => 0

def coveredBy (k : Fin 10) : Record → Nat
  | .sessionDuration durationMs => if covers k durationMs then 1 else 0
  | _ => 0

def lastedMs : Record → Nat
  | .sessionDuration durationMs => durationMs.toNat
  | _ => 0

def endedSessions : Record → Nat
  | .sessionDuration _ => 1
  | _ => 0

def errorsWith (i : Fin 9) : Record → Nat
  | .error code => if closeCodeIndex code = some i then 1 else 0
  | _ => 0

def rejectedFor (i : Fin 4) : Record → Nat
  | .rejected reason => if reason.index = i then 1 else 0
  | _ => 0

theorem tally_concat (amount : Record → Nat) (r : Record) :
    tally amount (records ++ [r]) = tally amount records + UInt64.ofNat (amount r) := by
  rw [tally, tally, List.map_append, List.sum_append, UInt64.ofNat_add]
  simp

theorem after_concat (r : Record) : after (records ++ [r]) = (after records).record r := by
  unfold after
  rw [List.foldl_append]
  rfl

theorem bump_eq {n : Nat} (counters : Fin n → UInt64) (i : Fin n) (amount : Nat) :
    bump counters i (UInt64.ofNat amount) =
      fun j => counters j + UInt64.ofNat (if i = j then amount else 0) := by
  funext j
  unfold bump
  by_cases h : j = i
  · rw [if_pos h, if_pos h.symm]
  · rw [if_neg h, if_neg (Ne.symm h)]
    simp

/-- The counters with each amount added where the call belongs. -/
def added (m : Metrics) (r : Record) : Metrics where
  handlesTotal := m.handlesTotal + UInt64.ofNat (madeHandles r)
  framesForwarded := fun i => m.framesForwarded i + UInt64.ofNat (sentFrames i r)
  bytesForwarded := fun i => m.bytesForwarded i + UInt64.ofNat (sentBytes i r)
  durationBuckets := fun k => m.durationBuckets k + UInt64.ofNat (coveredBy k r)
  durationSumMs := m.durationSumMs + UInt64.ofNat (lastedMs r)
  durationCount := m.durationCount + UInt64.ofNat (endedSessions r)
  errorsTotal := fun i => m.errorsTotal i + UInt64.ofNat (errorsWith i r)
  connectionsRejectedTotal := fun i =>
    m.connectionsRejectedTotal i + UInt64.ofNat (rejectedFor i r)

theorem record_eq (m : Metrics) (r : Record) : m.record r = added m r := by
  have hzero (x : UInt64) : x + UInt64.ofNat 0 = x := UInt64.add_zero x
  cases r with
  | handleCreated => simp only [added, madeHandles, sentFrames, sentBytes, coveredBy, lastedMs,
      endedSessions, errorsWith, rejectedFor, hzero]; rfl
  | forward sender bytes =>
    have hframes := bump_eq m.framesForwarded (directionIndex sender) 1
    have hbytes := bump_eq m.bytesForwarded (directionIndex sender) bytes
    simp only [added, madeHandles, sentFrames, sentBytes, coveredBy, lastedMs, endedSessions,
      errorsWith, rejectedFor, hzero, ← hframes, ← hbytes]
    rfl
  | sessionDuration durationMs =>
    have hbuckets (k : Fin 10) :
        m.durationBuckets k + UInt64.ofNat (if covers k durationMs then 1 else 0) =
          if covers k durationMs then m.durationBuckets k + 1 else m.durationBuckets k := by
      cases covers k durationMs with
      | true => rfl
      | false => exact hzero _
    simp only [added, madeHandles, sentFrames, sentBytes, coveredBy, lastedMs, endedSessions,
      errorsWith, rejectedFor, hzero, hbuckets, UInt64.ofNat_toNat]
    rfl
  | error code =>
    simp only [added, madeHandles, sentFrames, sentBytes, coveredBy, lastedMs, endedSessions,
      errorsWith, rejectedFor, hzero]
    cases h : closeCodeIndex code with
    | none => simp [Metrics.record, Metrics.recordError, h]
    | some i =>
      have herrors := bump_eq m.errorsTotal i 1
      simp only [Option.some.injEq, ← herrors]
      simp only [Metrics.record, Metrics.recordError, h]
      rfl
  | rejected reason =>
    have hrejected := bump_eq m.connectionsRejectedTotal reason.index 1
    simp only [added, madeHandles, sentFrames, sentBytes, coveredBy, lastedMs, endedSessions,
      errorsWith, rejectedFor, hzero, ← hrejected]
    rfl

/-- Whatever the order of the calls, each counter holds what its calls add up to. -/
theorem after_eq : after records = {
    handlesTotal := tally madeHandles records
    framesForwarded := fun i => tally (sentFrames i) records
    bytesForwarded := fun i => tally (sentBytes i) records
    durationBuckets := fun k => tally (coveredBy k) records
    durationSumMs := tally lastedMs records
    durationCount := tally endedSessions records
    errorsTotal := fun i => tally (errorsWith i) records
    connectionsRejectedTotal := fun i => tally (rejectedFor i) records } := by
  induction records using List.reverseRecOn with
  | nil => rfl
  | append_singleton init r ih =>
    rw [after_concat, record_eq, ih]
    simp only [tally_concat, added]

def reports (code : CloseCode) (r : Record) : Nat := if r = .error code then 1 else 0

def refuses (reason : RejectReason) (r : Record) : Nat := if r = .rejected reason then 1 else 0

def durationsOf : List Record → List UInt64
  | [] => []
  | .sessionDuration durationMs :: records => durationMs :: durationsOf records
  | _ :: records => durationsOf records

/-- The sessions that ended and that the bucket covers. -/
def sessionsWithin (k : Fin 10) (records : List Record) : Nat :=
  (durationsOf records).countP (covers k)

theorem closeCodeIndex_iff {code : CloseCode} {i : Fin 9} :
    closeCodeIndex code = some i ↔ code = namedCloseCodes i := by
  revert i
  cases code <;> decide

theorem errorsWith_eq (i : Fin 9) : errorsWith i = reports (namedCloseCodes i) := by
  funext r
  cases r with
  | error code => simp only [errorsWith, reports, closeCodeIndex_iff, Record.error.injEq]
  | _ => rfl

theorem rejectedFor_eq (reason : RejectReason) : rejectedFor reason.index = refuses reason := by
  funext r
  cases r with
  | rejected other => cases other <;> cases reason <;> rfl
  | _ => rfl

theorem sum_coveredBy (k : Fin 10) (records : List Record) :
    (records.map (coveredBy k)).sum = sessionsWithin k records := by
  unfold sessionsWithin
  induction records with
  | nil => rfl
  | cons r rest ih =>
    rw [List.map_cons, List.sum_cons, ih]
    cases r with
    | sessionDuration durationMs =>
      rw [durationsOf, List.countP_cons, Nat.add_comm]
      rfl
    | _ => exact Nat.zero_add _

/-- The buckets before it are counted again. -/
theorem cumulative_after (k : Fin 10) : cumulative (after records) k =
    UInt64.ofNat ((((List.finRange 10).take (k.val + 1)).map fun j =>
      sessionsWithin j records).sum) := by
  have hfold (l : List (Fin 10)) (a : Nat) :
      l.foldl (fun sum j => sum + UInt64.ofNat (sessionsWithin j records)) (UInt64.ofNat a) =
        UInt64.ofNat (a + (l.map fun j => sessionsWithin j records).sum) := by
    induction l generalizing a with
    | nil => rfl
    | cons j rest ih =>
      rw [List.foldl_cons, ← UInt64.ofNat_add, ih, List.map_cons, List.sum_cons, Nat.add_assoc]
  rw [cumulative, after_eq]
  simp only [tally, sum_coveredBy]
  rw [show (0 : UInt64) = UInt64.ofNat 0 from rfl, hfold, Nat.zero_add]

/-- The labels of the exposition. -/
inductive Series where
  | handlesActive
  | handlesTotal
  | frames (sender : Role)
  | bytes (sender : Role)
  | bucket (k : Fin 10)
  | unbounded
  | sum
  | count
  | errors (i : Fin 9)
  | rejected (reason : RejectReason)
  deriving DecidableEq

def labelled (name label valueLabel : String) : String :=
  name ++ "\x7b" ++ label ++ "=\"" ++ valueLabel ++ "\"\x7d"

def Series.text : Series → String
  | .handlesActive => "herdr_relay_handles_active"
  | .handlesTotal => "herdr_relay_handles_total"
  | .frames sender => labelled "herdr_relay_frames_forwarded_total" "direction"
      (directionLabel (directionIndex sender))
  | .bytes sender => labelled "herdr_relay_bytes_forwarded_total" "direction"
      (directionLabel (directionIndex sender))
  | .bucket k => labelled "herdr_relay_session_duration_seconds_bucket" "le"
      (toString (durationBucketsSecs k))
  | .unbounded => labelled "herdr_relay_session_duration_seconds_bucket" "le" "+Inf"
  | .sum => "herdr_relay_session_duration_seconds_sum"
  | .count => "herdr_relay_session_duration_seconds_count"
  | .errors i => labelled "herdr_relay_errors_total" "code"
      ((closeCodeName (namedCloseCodes i)).getD "")
  | .rejected reason => labelled "herdr_relay_connections_rejected_total" "reason" reason.label

/-- What was recorded for a label. A bucket has the ones before it added to it. -/
def Series.recorded (showSum : UInt64 → String) (records : List Record) (activeHandles : Nat) :
    Series → String
  | .handlesActive => toString (UInt64.ofNat activeHandles)
  | .handlesTotal => toString (tally madeHandles records)
  | .frames sender => toString (tally (sentFrames (directionIndex sender)) records)
  | .bytes sender => toString (tally (sentBytes (directionIndex sender)) records)
  | .bucket k => toString (UInt64.ofNat ((((List.finRange 10).take (k.val + 1)).map fun j =>
      sessionsWithin j records).sum))
  | .unbounded | .count => toString (tally endedSessions records)
  | .sum => showSum (tally lastedMs records)
  | .errors i => toString (tally (reports (namedCloseCodes i)) records)
  | .rejected reason => toString (tally (refuses reason) records)

/-- The metrics with the labels of each, in their order. -/
def families : List (List String × List Series) :=
  [(header "gauge" "herdr_relay_handles_active" "Current active handle registrations",
      [.handlesActive]),
    (header "counter" "herdr_relay_handles_total" "Total handle registrations since start",
      [.handlesTotal]),
    (header "counter" "herdr_relay_frames_forwarded_total" "Total frames relayed",
      [.frames .host, .frames .device]),
    (header "counter" "herdr_relay_bytes_forwarded_total" "Total bytes relayed",
      [.bytes .host, .bytes .device]),
    (header "histogram" durationName "Session lifetime",
      (List.finRange 10).map .bucket ++ [.unbounded, .sum, .count]),
    (header "counter" "herdr_relay_errors_total" "Error count by type",
      (List.finRange 9).map .errors),
    (header "counter" "herdr_relay_connections_rejected_total" "Rejected connection count",
      (List.finRange 4).map fun i => .rejected (rejectReasons i))]

theorem labeledLine_eq (name label valueLabel : String) (value : UInt64) :
    labeledLine name label valueLabel value =
      labelled name label valueLabel ++ " " ++ toString value := by
  have hclose : ("\"\x7d " : String) = "\"\x7d" ++ " " := rfl
  rw [labeledLine, labelled, hclose]
  simp only [String.append_assoc]

/-- The body is the metrics in their order, and each label is shown once, with what was recorded
for it. -/
theorem exposition_exact (showSum : UInt64 → String) (records : List Record) (activeHandles : Nat) :
    (render showSum (after records) activeHandles = families.flatMap fun (head, series) =>
      head ++ series.map fun x => x.text ++ " " ++ x.recorded showSum records activeHandles) ∧
    ∀ x, (families.flatMap Prod.snd).count x = 1 := by
  constructor
  · have hbuckets := @cumulative_after records
    have hsum : durationName ++ "_sum " = Series.sum.text ++ " " := by decide
    have hlines : ∀ i, rejectedFor (rejectReasons i).index = refuses (rejectReasons i) :=
      fun i => rejectedFor_eq (rejectReasons i)
    simp only [render, pushHistogram, hbuckets, pushLabeledCounter, labeledLine_eq, hsum]
    simp only [errorLines, rejectedLines, after_eq, errorsWith_eq, hlines]
    rfl
  · intro x
    cases x with
    | handlesActive | handlesTotal | unbounded | sum | count => decide
    | frames sender | bytes sender => cases sender <;> decide
    | bucket k => revert k; decide
    | errors i => revert i; decide
    | rejected reason => cases reason <;> decide

theorem covers_mono {j k : Fin 10} (h : j ≤ k) (durationMs : UInt64)
    (hj : covers j durationMs = true) : covers k durationMs = true := by
  have hsorted : ∀ j k : Fin 10, j ≤ k → durationBucketsSecs j ≤ durationBucketsSecs k := by decide
  simp only [covers, decide_eq_true_eq] at hj ⊢
  exact hj.trans (hsorted j k h)

theorem sessionsWithin_mono {j k : Fin 10} (h : j ≤ k) (records : List Record) :
    sessionsWithin j records ≤ sessionsWithin k records :=
  List.countP_mono_left fun durationMs _ => covers_mono h durationMs

theorem sessionsWithin_le (k : Fin 10) (records : List Record) :
    sessionsWithin k records ≤ (durationsOf records).length := List.countP_le_length

theorem sessionsWithin_eq_zero {k : Fin 10} :
    sessionsWithin k records = 0 ↔
      ∀ durationMs ∈ durationsOf records, durationBucketsSecs k < durationMs.toNat / 1000 := by
  unfold sessionsWithin
  rw [List.countP_eq_zero]
  simp [covers]

/-- The sessions that the buckets before count again. -/
def countedBefore (k : Fin 10) (records : List Record) : Nat :=
  (((List.finRange 10).take k.val).map fun j => sessionsWithin j records).sum

theorem cumulative_split (k : Fin 10) : cumulative (after records) k =
    UInt64.ofNat (countedBefore k records + sessionsWithin k records) := by
  have htake : ∀ k : Fin 10, (List.finRange 10).take (k.val + 1) =
      (List.finRange 10).take k.val ++ [k] := by decide
  rw [cumulative_after, htake, List.map_append, List.sum_append]
  rfl

theorem countedBefore_le (k : Fin 10) (records : List Record) :
    countedBefore k records ≤ 9 * (durationsOf records).length := by
  have hsum : countedBefore k records ≤
      ((List.finRange 10).take k.val).length * (durationsOf records).length := by
    unfold countedBefore
    generalize (List.finRange 10).take k.val = l
    induction l with
    | nil => simp
    | cons j rest ih =>
      have hj := sessionsWithin_le j records
      rw [List.map_cons, List.sum_cons, List.length_cons, Nat.succ_mul]
      omega
  have hk : ((List.finRange 10).take k.val).length ≤ 9 := by
    rw [List.length_take, List.length_finRange]
    omega
  exact hsum.trans (Nat.mul_le_mul_right _ hk)

/-- A bucket is right as long as no session falls into one before it. So the histogram is right
when no session ends within the boundary of the last bucket but one, and at no other time. -/
theorem histogram_right_iff (records : List Record)
    (hfew : 10 * (durationsOf records).length < 2 ^ 64) :
    (∀ k, cumulative (after records) k = UInt64.ofNat (sessionsWithin k records)) ↔
      ∀ durationMs ∈ durationsOf records, durationBucketsSecs 8 < durationMs.toNat / 1000 := by
  rw [← sessionsWithin_eq_zero]
  constructor
  · intro hright
    have hlast := congrArg UInt64.toNat (hright 9)
    have hbefore := countedBefore_le 9 records
    have hwithin := sessionsWithin_le 9 records
    have hfits : countedBefore 9 records + sessionsWithin 9 records < UInt64.size := by
      show _ < 2 ^ 64
      omega
    rw [cumulative_split, UInt64.toNat_ofNat_of_lt' hfits,
      UInt64.toNat_ofNat_of_lt' ((Nat.le_add_left _ _).trans_lt hfits)] at hlast
    have hzero : countedBefore 9 records = 0 := by omega
    have hmem : sessionsWithin 8 records ∈
        ((List.finRange 10).take 9).map fun j => sessionsWithin j records :=
      List.mem_map.mpr ⟨8, by decide, rfl⟩
    exact Nat.le_zero.mp (hzero ▸ List.le_sum_of_mem hmem)
  · intro hnone k
    have hbelow : ∀ k : Fin 10, ∀ j ∈ (List.finRange 10).take k.val, j ≤ 8 := by decide
    have hzero : countedBefore k records = 0 := by
      refine List.sum_eq_zero fun n hn => ?_
      obtain ⟨j, hj, rfl⟩ := List.mem_map.mp hn
      exact Nat.le_zero.mp (hnone ▸ sessionsWithin_mono (hbelow k j hj) records)
    rw [cumulative_split, hzero, Nat.zero_add]

/-- One session of half a second is shown ten times in the last bucket. -/
theorem histogram_right_iff_short :
    (∀ k, cumulative (after [.sessionDuration 500]) k =
      UInt64.ofNat (sessionsWithin k [.sessionDuration 500])) ↔
      ∀ durationMs ∈ durationsOf [.sessionDuration 500],
        durationBucketsSecs 8 < durationMs.toNat / 1000 :=
  histogram_right_iff [.sessionDuration 500] (by decide)

example : cumulative (after [.sessionDuration 500]) 9 = 10 := by decide

end HerdrMobile.Hub.Counters
