import HerdrMobile.Host.Shadow

/-!
# Coalescing queued lines

The bridge thread takes the line requests that are queued behind one for the same
pane, dispatches only the newest and sends its reply to all of them. This is
compared with serving each of them alone.
-/
namespace HerdrMobile.Host.Coalesce

open HerdrMobile.Lib.Segment HerdrMobile.Proto.Messages
open HerdrMobile.Host.Keys HerdrMobile.Host.Herdr HerdrMobile.Host.Input HerdrMobile.Host.Held
open HerdrMobile.Host.Shadow

set_option autoImplicit false

variable {Hash Corr : Type} {joins : Graphemes} {herdr : HerdrCalls} {up : PaneId → Bool}
  {paneId : PaneId} {old line shadow : Text} {log log' : Log} {ok : Bool} {m m' : Shared}
  {request : SendInput} {now : Nat} {corr : Option Corr} {b b' : Bridge Hash Corr}

/-- One inbound request of the Device. -/
inductive BridgeRequest (Corr : Type) where
  | treeRequest (corr : Option Corr)
  | watchPane (paneId : PaneId) (corr : Option Corr)
  | sendInput (request : SendInput) (corr : Option Corr)
  | scrollRequest (paneId : PaneId) (lines : Nat) (corr : Option Corr)
  | unwatchPane (paneId : PaneId)
  | markSeen (paneId : PaneId)
  | actionListRequest (corr : Option Corr)
  | hostAction (corr : Option Corr)
  | deviceListRequest (corr : Option Corr)
  | revokeDevice (corr : Option Corr)
  | cancelPending
  deriving DecidableEq

def pureLine (request : SendInput) : Bool :=
  request.line.isSome && request.text.isNone && request.keys.isNone && request.defer.isNone

/-- The loop of `coalesce_input`: the merged request, the correlation ids it answers,
the request it took from the queue and did not merge, and the queue it left. -/
def mergeQueue (request : SendInput) (corrs : List (Option Corr)) :
    List (BridgeRequest Corr) →
      SendInput × List (Option Corr) × Option (BridgeRequest Corr) × List (BridgeRequest Corr)
  | [] => (request, corrs, none, [])
  | .sendInput newer corr :: queue =>
    if pureLine newer && newer.paneId == request.paneId then
      mergeQueue newer (corrs ++ [corr]) queue
    else (request, corrs, some (.sendInput newer corr), queue)
  | other :: queue => (request, corrs, some other, queue)

def coalesceInput (request : SendInput) (corr : Option Corr) (queue : List (BridgeRequest Corr)) :
    SendInput × List (Option Corr) × Option (BridgeRequest Corr) × List (BridgeRequest Corr) :=
  if pureLine request then mergeQueue request [corr] queue else (request, [corr], none, queue)

def replyToInputs (reply : SendInputAck) (corrs : List (Option Corr)) : List (Reply Corr) :=
  corrs.dropLast.map (reply, ·) ++ corrs.getLast?.toList.map (reply, ·)

/-- The arm of the bridge thread for a `send_input` with a queue behind it. The
request that was taken and not merged is the next one served. -/
def serveQueued (joins : Graphemes) (herdr : HerdrCalls) (now : Nat) (request : SendInput)
    (corr : Option Corr) (queue : List (BridgeRequest Corr)) (b : Bridge Hash Corr) (m : Shared) :
    List (Reply Corr) × List (BridgeRequest Corr) × Bridge Hash Corr × Shared :=
  if request.defer.isSome then
    let (replies, b, m) := handleDeferredInput joins herdr now request corr b m
    (replies, queue, b, m)
  else
    let (request, corrs, pending, queue) := coalesceInput request corr queue
    let (result, b, m) := sendInput joins herdr now request b m
    let (rest, b) := takeInputReplies b
    (replyToInputs (orRefused request.paneId result) corrs ++ rest, pending.toList ++ queue, b, m)

/-- Each request served alone, in order. -/
def serveEach (joins : Graphemes) (herdr : HerdrCalls) (now : Nat) :
    List (SendInput × Option Corr) → Bridge Hash Corr → Shared →
      List (Reply Corr) × Bridge Hash Corr × Shared
  | [], b, m => ([], b, m)
  | (request, corr) :: rest, b, m =>
    let (replies, b, m) := serveInput joins herdr now request corr b m
    let (more, b, m) := serveEach joins herdr now rest b m
    (replies ++ more, b, m)

/-- The lines for a pane at the front of a queue. -/
def lineRun (paneId : PaneId) : List (BridgeRequest Corr) → List (SendInput × Option Corr)
  | .sendInput request corr :: queue =>
    if pureLine request && request.paneId == paneId then (request, corr) :: lineRun paneId queue
    else []
  | _ => []

/-- The requests that one pass of the arm answers, the head first. -/
def consumed (request : SendInput) (corr : Option Corr) (queue : List (BridgeRequest Corr)) :
    List (SendInput × Option Corr) :=
  (request, corr) :: if pureLine request then lineRun request.paneId queue else []

def toRequest (served : SendInput × Option Corr) : BridgeRequest Corr :=
  .sendInput served.1 served.2

theorem lineRun_pure {queue : List (BridgeRequest Corr)} {r : SendInput × Option Corr}
    (hr : r ∈ lineRun paneId queue) : pureLine r.1 = true ∧ r.1.paneId = paneId := by
  induction queue with
  | nil => simp [lineRun] at hr
  | cons next queue ih =>
    cases next with
    | sendInput request corr =>
      unfold lineRun at hr
      split at hr
      · rename_i hc
        rcases List.mem_cons.mp hr with rfl | hr
        · simpa using hc
        · exact ih hr
      · simp at hr
    | _ => simp [lineRun] at hr

theorem mergeQueue_eq (request : SendInput) (corrs : List (Option Corr))
    (queue : List (BridgeRequest Corr)) :
    ∃ pending rest, mergeQueue request corrs queue
        = (((lineRun request.paneId queue).getLast?.map Prod.fst).getD request,
          corrs ++ (lineRun request.paneId queue).map Prod.snd, pending, rest) ∧
      (lineRun request.paneId queue).map toRequest ++ (pending.toList ++ rest) = queue := by
  induction queue generalizing request corrs with
  | nil => exact ⟨none, [], by simp [mergeQueue, lineRun], rfl⟩
  | cons next queue ih =>
    cases next with
    | sendInput newer corr =>
      by_cases hc : (pureLine newer && newer.paneId == request.paneId) = true
      · obtain ⟨pending, rest, hm, hq⟩ := ih newer (corrs ++ [corr])
        have hp : newer.paneId = request.paneId := by simpa using (Bool.and_eq_true_iff.mp hc).2
        refine ⟨pending, rest, ?_, ?_⟩
        · rw [mergeQueue, if_pos hc, hm, lineRun, if_pos hc, hp]
          cases hl : lineRun request.paneId queue with
          | nil => simp
          | cons x xs => simp [List.getLast?_cons]
        · rw [lineRun, if_pos hc, ← hp, List.map_cons, List.cons_append, hq]
          rfl
      · refine ⟨some (.sendInput newer corr), queue, ?_, ?_⟩
        · simp [mergeQueue, lineRun, hc]
        · simp [lineRun, hc]
    | _ =>
      refine ⟨some _, queue, ?_, rfl⟩
      simp [mergeQueue, lineRun]

theorem replyToInputs_eq (reply : SendInputAck) (corrs : List (Option Corr)) :
    replyToInputs reply corrs = corrs.map (reply, ·) := by
  unfold replyToInputs
  rw [← List.map_append]
  congr 1
  rcases List.eq_nil_or_concat corrs with rfl | ⟨front, last, rfl⟩
  · rfl
  · simp

/-- Herdr with a fixed answer for the sends to each pane: a pane is there or not. -/
def steady (herdr : HerdrCalls) (up : PaneId → Bool) : HerdrCalls :=
  { herdr with send := fun _ send => up send.paneId }

theorem call_steady (send : Send) (log : Log) :
    (steady herdr up).call send log = (up send.paneId, log ++ [.sent send (up send.paneId)]) := rfl

theorem sendTypedText_steady (text : Text) :
    (sendTypedText (steady herdr up) paneId text log).1 = up paneId := by
  unfold sendTypedText
  split
  · rfl
  · rfl

variable (joins herdr old log) in
theorem removeTail_up (keys : List Text) (rounds remaining : Nat) (hup : up paneId = true) :
    (removeTail joins (steady herdr up) paneId keys rounds remaining old log).1 = true := by
  induction rounds generalizing remaining old log with
  | zero => rfl
  | succ rounds ih =>
    unfold removeTail
    by_cases h0 : remaining = 0
    · rw [if_pos h0]
    · rw [if_neg h0]
      simp only [call_steady, Send.paneId, hup]
      exact ih _ _ _

variable (joins herdr old log) in
theorem removeTail_down (keys : List Text) {rounds remaining : Nat} (hup : up paneId = false)
    (h0 : remaining ≠ 0) (hr : rounds ≠ 0) :
    ∃ log', removeTail joins (steady herdr up) paneId keys rounds remaining old log
      = (false, old, log') := by
  obtain ⟨rounds, rfl⟩ := Nat.exists_eq_succ_of_ne_zero hr
  unfold removeTail
  rw [if_neg h0]
  simp only [call_steady, Send.paneId, hup]
  exact ⟨_, rfl⟩

theorem reconcileLine_steady
    (hr : reconcileLine joins (steady herdr up) paneId old line log = (ok, shadow, log')) :
    ok = (up paneId || decide (line = old)) ∧ (ok = false → shadow = old) := by
  obtain ⟨hline, hremove, herase⟩ := split_common joins old line
  unfold reconcileLine at hr
  simp only at hr
  set common := commonPrefix (clusters joins old) (clusters joins line) with hcommon
  set remove := (clusters joins (old.drop (common.map List.length).sum)).length with hrm
  set tail := line.drop (common.map List.length).sum with htail
  cases hup : up paneId with
  | true =>
    have h₁ := removeTail_up joins herdr old log
      (List.replicate (min remove 64) "Backspace".toList) remove remove hup
    cases ht : removeTail joins (steady herdr up) paneId
        (List.replicate (min remove 64) "Backspace".toList) remove remove old log with
    | mk ok₁ rest =>
      rw [ht] at hr h₁
      obtain rfl : ok₁ = true := h₁
      have hok : ok = true := by
        by_cases he : tail.isEmpty = true
        · simp only [he, if_true] at hr
          exact (Prod.mk.inj hr).1.symm
        · simp only [he, Bool.false_eq_true, if_false, sendTypedText_steady, hup] at hr
          exact (Prod.mk.inj hr).1.symm
      subst hok
      exact ⟨rfl, fun h => absurd h (by decide)⟩
  | false =>
    by_cases h0 : remove = 0
    · have hold : common.flatten = old := by
        rw [← herase, ← hremove, h0]
        rfl
      rw [hold] at hline
      rw [h0] at hr
      simp only [removeTail] at hr
      by_cases he : tail.isEmpty = true
      · simp only [he, if_true] at hr
        obtain ⟨rfl, rfl, rfl⟩ := hr
        have heq : line = old := by rw [hline, List.isEmpty_iff.mp he, List.append_nil]
        exact ⟨by simp [heq], fun h => absurd h (by decide)⟩
      · simp only [he, Bool.false_eq_true, if_false, sendTypedText_steady, hup] at hr
        obtain ⟨rfl, rfl, -⟩ := hr
        have hne : line ≠ old := by
          intro heq
          rw [heq] at hline
          have hnil : tail = [] := List.append_right_eq_self.mp hline.symm
          exact he (by rw [hnil]; rfl)
        exact ⟨by simp [hne], fun _ => rfl⟩
    · obtain ⟨log₁, hd⟩ := removeTail_down joins herdr old log
        (List.replicate (min remove 64) "Backspace".toList) hup h0 h0
      rw [hd] at hr
      obtain ⟨rfl, rfl, -⟩ := hr
      have hne : line ≠ old := by
        intro heq
        have hall : common.length = (clusters joins old).length := by
          rw [hcommon, heq, commonPrefix_self]
        omega
      exact ⟨by simp [hne], fun _ => rfl⟩

/-- A line request that is refused for itself: it asks to bypass the line, or its
pane is gone and it changes the line. -/
def refusable (up : PaneId → Bool) (m : Shared) (request : SendInput) : Bool :=
  decide (request.bypassLine = some true) ||
    !up request.paneId && decide (request.line ≠ some (m.inputLines request.paneId))

/-- The accepted value that a line request earns. -/
def granted (up : PaneId → Bool) (b : Bridge Hash Corr) (m : Shared) (request : SendInput) : Bool :=
  b.watches request.paneId && !refusable up m request

def setLine (m : Shared) (paneId : PaneId) (line : Text) : PaneId → Text :=
  Function.update m.inputLines paneId line

variable (herdr up now b) in
theorem sendInput_pure (hp : pureLine request = true) (hs : Synced joins m) :
    ∃ result b' m', sendInput joins (steady herdr up) now request b m = (result, b', m') ∧
      orRefused request.paneId result = ⟨request.paneId, granted up b m request, false⟩ ∧
      m'.inputLines = (if granted up b m request
        then setLine m request.paneId (request.line.getD []) else m.inputLines) ∧
      Synced joins m' ∧ b'.watched = b.watched ∧ b'.inputReplies = b.inputReplies := by
  simp only [pureLine, Bool.and_eq_true, Option.isNone_iff_eq_none] at hp
  obtain ⟨⟨⟨hl, ht⟩, hk⟩, hd⟩ := hp
  obtain ⟨line, hl⟩ := Option.isSome_iff_exists.mp hl
  cases h : sendInput joins (steady herdr up) now request b m with
  | mk result rest =>
    obtain ⟨b', m'⟩ := rest
    obtain ⟨hs', -, -, hrep⟩ := sendInput_line hl h hs
    refine ⟨result, b', m', rfl, ?_⟩
    unfold sendInput at h
    by_cases hw : b.watches request.paneId = true
    · rw [Bridge.requireWatched_iff.mpr hw] at h
      by_cases hb : request.bypassLine = some true
      · have hv : validateSendInput request
            = .error (.invalidInput "bypass_line cannot include line or defer") := by
          simp [validateSendInput, hb, hl]
        have hg : granted up b m request = false := by simp [granted, refusable, hb]
        simp only [hv] at h
        obtain ⟨rfl, rfl, rfl⟩ := h
        rw [hg]
        exact ⟨rfl, rfl, hs', rfl, hrep⟩
      · have hv : validateSendInput request = .ok () := by
          simp [validateSendInput, hb, hl, ht, hk, hd]
        have he : endsHeld request = false := by simp [endsHeld, hk]
        simp only [hv, he, Bool.false_eq_true, if_false] at h
        have hg : granted up b m request
            = (up request.paneId || decide (line = m.inputLines request.paneId)) := by
          simp [granted, refusable, hw, hl, hb]
        unfold transmit at h
        rw [if_neg hb] at h
        simp only [hl] at h
        cases hr : reconcileLine joins (steady herdr up) request.paneId
            (m.inputLines request.paneId) line m.log with
        | mk ok rest =>
          obtain ⟨shadow, log'⟩ := rest
          obtain ⟨hok, hsh⟩ := reconcileLine_steady hr
          simp only [hr] at h
          obtain ⟨rfl, rfl, rfl⟩ := h
          rw [hg, ← hok]
          refine ⟨rfl, ?_, hs', Bridge.afterInput_watched _ _ _, hrep⟩
          cases ok with
          | true => simp [setLine, hl]
          | false =>
            simp only [Bool.false_eq_true, if_false]
            rw [hsh rfl, Function.update_eq_self]
    · have hrw : b.requireWatched request.paneId = .error (.notWatching request.paneId) := by
        unfold Bridge.requireWatched
        cases hbw : b.watched with
        | none => rfl
        | some w =>
          have hne : w.paneId ≠ request.paneId := by simpa [Bridge.watches, hbw] using hw
          exact if_neg hne
      have hg : granted up b m request = false := by simp [granted, hw]
      simp only [hrw] at h
      obtain ⟨rfl, rfl, rfl⟩ := h
      rw [hg]
      exact ⟨rfl, rfl, hs', rfl, hrep⟩

/-- The thread takes a request: the replies are drained and the shadows are right. -/
structure Ready (joins : Graphemes) (b : Bridge Hash Corr) (m : Shared) : Prop where
  drained : b.inputReplies = []
  synced : Synced joins m

variable (herdr up now corr) in
theorem serveInput_pure (hp : pureLine request = true) (hr : Ready joins b m) :
    ∃ b' m', serveInput joins (steady herdr up) now request corr b m
        = ([(⟨request.paneId, granted up b m request, false⟩, corr)], b', m') ∧
      m'.inputLines = (if granted up b m request
        then setLine m request.paneId (request.line.getD []) else m.inputLines) ∧
      b'.watched = b.watched ∧ Ready joins b' m' := by
  obtain ⟨result, b', m', h, hack, hlines, hs', hw, hrep⟩ :=
    sendInput_pure herdr up now b hp hr.synced
  have hd : request.defer.isSome = false := by
    simp only [pureLine, Bool.and_eq_true, Option.isNone_iff_eq_none] at hp
    rw [hp.2]
    rfl
  refine ⟨{ b' with inputReplies := [] }, m', ?_, hlines, hw, rfl, hs'⟩
  unfold serveInput
  simp only [hd, Bool.false_eq_true, if_false, h, takeInputReplies, hack, hrep, hr.drained]

/-- Serving one line changes what no other line of its pane earns. -/
theorem granted_stable {other : SendInput} (hp : other.paneId = request.paneId)
    (hw : b'.watched = b.watched) (hl : request.line.isSome = true)
    (hlines : m'.inputLines = (if granted up b m request
      then setLine m request.paneId (request.line.getD []) else m.inputLines)) :
    granted up b' m' other = granted up b m other := by
  have hsame : up request.paneId = false → m'.inputLines request.paneId = m.inputLines request.paneId := by
    intro hup
    rw [hlines]
    by_cases hg : granted up b m request = true
    · obtain ⟨line, hl⟩ := Option.isSome_iff_exists.mp hl
      have heq : line = m.inputLines request.paneId := by
        simp [granted, refusable, hup, hl] at hg
        exact hg.2.2
      rw [if_pos hg, setLine, Function.update_self, hl]
      exact heq
    · rw [if_neg hg]
  unfold granted refusable Bridge.watches
  rw [hw, hp]
  cases hup : up request.paneId with
  | true => rfl
  | false => rw [hsame hup]

/-- The line that a run of requests leaves, each taking effect if it is granted. -/
def lastGranted (up : PaneId → Bool) (b : Bridge Hash Corr) (m : Shared)
    (rs : List (SendInput × Option Corr)) (line : Text) : Text :=
  rs.foldl (fun line r => if granted up b m r.1 then r.1.line.getD [] else line) line

variable (herdr up now) in
theorem serveEach_lines {rs : List (SendInput × Option Corr)}
    (hrs : ∀ r ∈ rs, pureLine r.1 = true ∧ r.1.paneId = paneId) (hr : Ready joins b m) :
    ∃ b' m', serveEach joins (steady herdr up) now rs b m
        = (rs.map fun r => (⟨paneId, granted up b m r.1, false⟩, r.2), b', m') ∧
      m'.inputLines = setLine m paneId (lastGranted up b m rs (m.inputLines paneId)) ∧
      Synced joins m' := by
  induction rs generalizing b m with
  | nil => exact ⟨b, m, rfl, (Function.update_eq_self _ _).symm, hr.synced⟩
  | cons r rs ih =>
    obtain ⟨request, corr⟩ := r
    obtain ⟨hpure, hpane⟩ := hrs _ List.mem_cons_self
    simp only at hpure hpane
    obtain ⟨b₁, m₁, h₁, hlines₁, hw₁, hr₁⟩ := serveInput_pure herdr up now corr
      hpure hr
    obtain ⟨b₂, m₂, h₂, hlines₂, hs₂⟩ := ih (fun r h => hrs r (List.mem_cons_of_mem _ h)) hr₁
    have hl : request.line.isSome = true := by
      simp only [pureLine, Bool.and_eq_true] at hpure
      exact hpure.1.1.1
    have hstable : ∀ r ∈ rs, granted up b₁ m₁ r.1 = granted up b m r.1 := by
      intro r hmem
      have hp : r.1.paneId = request.paneId :=
        (hrs r (List.mem_cons_of_mem _ hmem)).2.trans hpane.symm
      exact granted_stable hp hw₁ hl hlines₁
    refine ⟨b₂, m₂, ?_, ?_, hs₂⟩
    · simp only [serveEach, h₁, h₂, List.map_cons, List.cons_append, List.nil_append, hpane]
      congr 2
      exact List.map_congr_left fun r hmem => by rw [hstable r hmem]
    · rw [hlines₂]
      have hfold : lastGranted up b₁ m₁ rs (m₁.inputLines paneId)
          = lastGranted up b m rs (m₁.inputLines paneId) := by
        unfold lastGranted
        exact List.foldl_ext _ _ _ fun line r hmem => by rw [hstable r hmem]
      rw [hfold]
      have hone : m₁.inputLines = setLine m paneId
          (if granted up b m request then request.line.getD [] else m.inputLines paneId) := by
        rw [hlines₁, hpane]
        split
        · rfl
        · exact (Function.update_eq_self _ _).symm
      unfold setLine at hone ⊢
      rw [hone, Function.update_self, Function.update_idem]
      rfl

variable (herdr up now corr) in
/-- The merged dispatch answers all of its requests with what its last one earns. -/
theorem serveQueued_lines (queue : List (BridgeRequest Corr)) (hp : pureLine request = true)
    (hr : Ready joins b m) :
    let rs := consumed request corr queue
    let last := (rs.getLast?.map Prod.fst).getD request
    ∃ b' m' left, serveQueued joins (steady herdr up) now request corr queue b m
        = (rs.map fun r => (⟨request.paneId, granted up b m last, false⟩, r.2), left, b', m') ∧
      rs.map toRequest ++ left = .sendInput request corr :: queue ∧
      m'.inputLines = (if granted up b m last
        then setLine m request.paneId (last.line.getD []) else m.inputLines) ∧
      Synced joins m' := by
  intro rs last
  have hrs : rs = (request, corr) :: lineRun request.paneId queue := by
    simp only [rs, consumed, hp, if_true]
  have hlast : last = ((lineRun request.paneId queue).getLast?.map Prod.fst).getD request := by
    simp only [last, hrs]
    cases hl : lineRun request.paneId queue with
    | nil => rfl
    | cons x xs => simp [List.getLast?_cons]
  have hpure : pureLine last = true ∧ last.paneId = request.paneId := by
    rw [hlast]
    cases hl : (lineRun request.paneId queue).getLast? with
    | none => exact ⟨hp, rfl⟩
    | some r => exact lineRun_pure (List.mem_of_getLast? hl)
  obtain ⟨pending, rest, hm, hq⟩ := mergeQueue_eq request [corr] queue
  rw [← hlast] at hm
  obtain ⟨result, b', m', h, hack, hlines, hs', -, hrep⟩ :=
    sendInput_pure herdr up now b hpure.1 hr.synced
  rw [hpure.2] at hack hlines
  have hd : request.defer.isSome = false := by
    simp only [pureLine, Bool.and_eq_true, Option.isNone_iff_eq_none] at hp
    rw [hp.2]
    rfl
  refine ⟨{ b' with inputReplies := [] }, m', pending.toList ++ rest, ?_, ?_, hlines, hs'⟩
  · unfold serveQueued coalesceInput
    simp only [hd, Bool.false_eq_true, if_false, hp, if_true, hm, h, takeInputReplies, hack, hrep,
      hr.drained, List.append_nil, replyToInputs_eq, hpure.2, hrs]
    simp
  · rw [hrs, List.map_cons, List.cons_append, hq]
    rfl

/-- The merged dispatch leaves the shadows, the lines and the unconsumed queue as
serving its requests one at a time does, and gives every request the same reply. -/
def SameAsEach (joins : Graphemes) (herdr : HerdrCalls) (now : Nat) (request : SendInput)
    (corr : Option Corr) (queue : List (BridgeRequest Corr)) (b : Bridge Hash Corr) (m : Shared) :
    Prop :=
  let rs := consumed request corr queue
  let (replies, left, _, merged) := serveQueued joins herdr now request corr queue b m
  let (each, _, alone) := serveEach joins herdr now rs b m
  replies = each ∧ merged.inputLines = alone.inputLines ∧
    remote joins merged.log = remote joins alone.log ∧
    rs.map toRequest ++ left = .sendInput request corr :: queue

/-- The merged requests agree on being refused for themselves, if their pane is watched. -/
def Agreed (up : PaneId → Bool) (request : SendInput) (corr : Option Corr)
    (queue : List (BridgeRequest Corr)) (b : Bridge Hash Corr) (m : Shared) : Prop :=
  b.watches request.paneId = true →
    ∀ r ∈ consumed request corr queue, refusable up m r.1 = refusable up m request

theorem sameAsEach_alone {queue : List (BridgeRequest Corr)} (hp : pureLine request = false) :
    SameAsEach joins herdr now request corr queue b m := by
  have hc : consumed request corr queue = [(request, corr)] := by simp [consumed, hp]
  unfold SameAsEach
  rw [hc]
  by_cases hd : request.defer.isSome = true
  · simp [serveQueued, serveEach, serveInput, hd, toRequest]
  · simp [serveQueued, serveEach, serveInput, hd, toRequest, coalesceInput, hp, replyToInputs_eq]

theorem lastGranted_all {rs : List (SendInput × Option Corr)} (g : Bool)
    (hg : ∀ r ∈ rs, granted up b m r.1 = g) (line : Text) :
    lastGranted up b m rs line
      = if g then (rs.getLast?.map fun r => r.1.line.getD []).getD line else line := by
  induction rs generalizing line with
  | nil => cases g <;> rfl
  | cons r rs ih =>
    have h₁ := hg r List.mem_cons_self
    have h₂ := ih fun r h => hg r (List.mem_cons_of_mem _ h)
    unfold lastGranted at h₂ ⊢
    rw [List.foldl_cons, h₂, h₁]
    cases g with
    | false => rfl
    | true =>
      cases hl : rs.getLast? with
      | none =>
        obtain rfl := List.getLast?_eq_none_iff.mp hl
        rfl
      | some x => simp [List.getLast?_cons, hl]

variable (corr) in
theorem consumed_pure (queue : List (BridgeRequest Corr)) (hp : pureLine request = true)
    {r : SendInput × Option Corr} (hr : r ∈ consumed request corr queue) :
    pureLine r.1 = true ∧ r.1.paneId = request.paneId := by
  simp only [consumed, hp, if_true] at hr
  rcases List.mem_cons.mp hr with rfl | hr
  · exact ⟨hp, rfl⟩
  · exact lineRun_pure hr

theorem agreed_iff_granted {queue : List (BridgeRequest Corr)} (hp : pureLine request = true) :
    Agreed up request corr queue b m ↔
      ∀ r ∈ consumed request corr queue, granted up b m r.1 = granted up b m request := by
  unfold Agreed granted
  constructor
  · intro ha r hr
    rw [(consumed_pure _ _ hp hr).2]
    by_cases hw : b.watches request.paneId = true
    · rw [ha hw r hr]
    · simp [hw]
  · intro hg hw r hr
    have h := hg r hr
    rw [(consumed_pure _ _ hp hr).2, hw] at h
    simpa using h

/-- For a pane that Herdr serves or does not, coalescing a queue of input is serving it
one by one exactly when the merged requests agree on being refused for themselves. -/
theorem coalesce_iff (joins : Graphemes) (herdr : HerdrCalls) (up : PaneId → Bool) (now : Nat)
    (request : SendInput) (corr : Option Corr) (queue : List (BridgeRequest Corr))
    (b : Bridge Hash Corr) (m : Shared) (hr : Ready joins b m) :
    SameAsEach joins (steady herdr up) now request corr queue b m ↔
      Agreed up request corr queue b m := by
  by_cases hp : pureLine request = true
  · have hhead : (request, corr) ∈ consumed request corr queue := by simp [consumed]
    obtain ⟨x, hlast⟩ : ∃ x, (consumed request corr queue).getLast? = some x :=
      Option.isSome_iff_exists.mp (by rw [List.getLast?_isSome]; exact List.ne_nil_of_mem hhead)
    have hx : x ∈ consumed request corr queue := List.mem_of_getLast? hlast
    obtain ⟨b₁, m₁, left, h₁, hqueue, hlines₁, hs₁⟩ := serveQueued_lines herdr up now corr
      queue hp hr
    obtain ⟨b₂, m₂, h₂, hlines₂, hs₂⟩ := serveEach_lines herdr up now
      (fun r => consumed_pure corr queue hp) hr
    simp only [hlast, Option.map_some, Option.getD_some] at h₁ hlines₁
    rw [agreed_iff_granted hp]
    unfold SameAsEach
    simp only [h₁, h₂]
    constructor
    · rintro ⟨hreplies, -, -, -⟩ r hmem
      have hall : ∀ r ∈ consumed request corr queue, granted up b m x.1 = granted up b m r.1 := by
        intro r hmem
        have h := List.map_inj_left.mp hreplies r hmem
        simpa using h
      rw [← hall r hmem, ← hall _ hhead]
    · intro hg
      have hreplies : ∀ r ∈ consumed request corr queue,
          granted up b m x.1 = granted up b m r.1 := by
        intro r hmem
        rw [hg x hx, hg r hmem]
      have hlines : m₁.inputLines = m₂.inputLines := by
        rw [hlines₁, hlines₂, lastGranted_all _ hg, hlast, hg x hx]
        cases granted up b m request with
        | false => exact (Function.update_eq_self _ _).symm
        | true => rfl
      refine ⟨?_, hlines, ?_, hqueue⟩
      · exact List.map_congr_left fun r hmem => by rw [hreplies r hmem]
      · rw [← hs₁, ← hs₂, hlines]
  · have hp : pureLine request = false := by simpa using hp
    constructor
    · intro _ _ r hr
      have hc : consumed request corr queue = [(request, corr)] := by simp [consumed, hp]
      rw [hc, List.mem_singleton] at hr
      rw [hr]
    · intro _
      exact sameAsEach_alone hp

/-- Every character is a grapheme. -/
def plain : Graphemes := fun _ _ => false

/-- Herdr takes every send; nothing works and there is nothing to read. -/
def willing : HerdrCalls where
  send _ _ := true
  sessionSnapshot _ := .ok ⟨[], []⟩
  paneLayout _ _ := none
  paneReadVisible _ _ := none

def watching (paneId : PaneId) : Bridge Unit Nat where
  config := ⟨120, 125, [60, 130, 250], 16⟩
  watched := some ⟨paneId, 1, 24, 80, ()⟩
  scheduler := none
  pendingInput := none
  sessionActive := some true
  inputReplies := []

/-- A line of a pane, and behind it one that asks to bypass the line. -/
def poisoned : List (BridgeRequest Nat) :=
  [.sendInput { paneId := ['p'], line := some ['x'], bypassLine := some true } (some 2)]

theorem coalesce_iff_lines :
    SameAsEach plain (steady willing fun _ => true) 0 { paneId := ['p'], line := some ['a'] } (some 1)
        [.sendInput { paneId := ['p'], line := some ['a', 'b'] } (some 2), .unwatchPane ['p']]
        (watching ['p']) Shared.start ↔
      Agreed (fun _ => true) { paneId := ['p'], line := some ['a'] } (some 1)
        [.sendInput { paneId := ['p'], line := some ['a', 'b'] } (some 2), .unwatchPane ['p']]
        (watching ['p']) Shared.start :=
  coalesce_iff plain willing (fun _ => true) 0 _ _ _ _ _ ⟨rfl, synced_start⟩

/-- The valid line is refused with the invalid one behind it, where alone it is accepted. -/
theorem coalesce_poisoned :
    ¬SameAsEach plain willing 0 { paneId := ['p'], line := some ['a'] } (some 1) poisoned
      (watching ['p']) Shared.start := by
  intro h
  have hreplies := h.1
  revert hreplies
  decide

end HerdrMobile.Host.Coalesce
