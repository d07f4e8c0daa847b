import HerdrMobile.Host.Calls
import HerdrMobile.Host.HeldSteps
import HerdrMobile.App.Queue

/-!
# One turn of the Host

What the bridge makes of each request of a composer, and of a status, while every
call to Herdr succeeds.
-/
namespace HerdrMobile.App.Turns

open HerdrMobile.Proto.Messages HerdrMobile.Host.Keys HerdrMobile.Host.Herdr
open HerdrMobile.Host.Input HerdrMobile.Host.Held HerdrMobile.Host.Calls HerdrMobile.Host.Shadow
open HerdrMobile.Host.Coalesce HerdrMobile.Host.Watch HerdrMobile.Host.HeldSteps
open HerdrMobile.App.Composer HerdrMobile.App.Link HerdrMobile.App.Queue

set_option autoImplicit false

variable {Hash : Type} {joins : Graphemes} {herdr : HerdrCalls} {frameHash : FrameHash Hash}
  {now : Nat} {paneId : PaneId} {b b' : Bridge Hash Tag} {m m' : Shared} {tag : Tag} {text : Text}
  {log : Log}

/-- Every call succeeds, for a pane that is there. What its agent does is open. -/
structure Up (herdr : HerdrCalls) (paneId : PaneId) : Prop where
  sends : ∀ log send, herdr.send log send = true
  snapshots : ∀ log, ∃ raw, herdr.sessionSnapshot log = .ok raw ∧
    ∃ pane ∈ raw.panes, pane.paneId = paneId
  layouts : ∀ log, ∃ width, layoutWidth paneId (herdr.paneLayout log paneId) = .ok width
  reads : ∀ log, ∃ text, readText (herdr.paneReadVisible log paneId) = .ok text

theorem Up.steady_eq (hup : Up herdr paneId) : steady herdr (fun _ => true) = herdr := by
  have hsend : (fun _ _ => true) = herdr.send := by
    funext log send
    exact (hup.sends log send).symm
  unfold steady
  rw [hsend]

def enterKeys : List Text := ["Enter".toList]

def enterSend (paneId : PaneId) : Send := .sendInput paneId none (some enterKeys)

/-- The session is on, its replies are out, the shadows are right, and what it holds is
an Enter of the composer. -/
structure Live (joins : Graphemes) (paneId : PaneId) (b : Bridge Hash Tag) (m : Shared) : Prop where
  active : b.sessionActive = some true
  drained : b.inputReplies = []
  synced : Synced joins m
  pending : ∀ p ∈ b.pendingInput, ∃ tag, p = ⟨paneId, enterKeys, some tag⟩

theorem enters_append (log : Log) (calls calls' : Log) :
    enters joins paneId log (calls ++ calls')
      = enters joins paneId log calls ++ enters joins paneId (log ++ calls) calls' := by
  induction calls generalizing log with
  | nil => simp [enters]
  | cons e calls ih =>
    rw [List.cons_append, enters, enters, ih, List.append_assoc, List.append_assoc]
    rfl

theorem enters_none (h : Grows (fun e => entersPane paneId e = false) log m'.log) :
    enters joins paneId log (m'.log.drop log.length) = [] := by
  obtain ⟨calls, hlog, hc⟩ := h
  rw [hlog, List.drop_left]
  clear hlog
  induction calls generalizing log with
  | nil => rfl
  | cons e calls ih =>
    have he : entersPane paneId e = false := hc e List.mem_cons_self
    rw [enters, he, ih fun e' he' => hc e' (List.mem_cons_of_mem _ he')]
    rfl

theorem entersPane_enter : entersPane paneId (.sent (enterSend paneId) true) = true := by
  have hk : (enterKeys.any fun key => eqIgnoreAsciiCase key "Enter".toList) = true := by decide
  show (paneId == paneId && _) = true
  rw [hk]
  simp

theorem mends_no_enter {send : Send} (h : Mends paneId send) (ok : Bool) :
    entersPane paneId (.sent send ok) = false := by
  have hb : eqIgnoreAsciiCase "Backspace".toList "Enter".toList = false := by decide
  cases h with
  | typed text => cases ok <;> rfl
  | pasted text => cases ok <;> rfl
  | erased n =>
    cases ok with
    | false => rfl
    | true =>
      have hk : ((List.replicate n "Backspace".toList).any fun key =>
          eqIgnoreAsciiCase key "Enter".toList) = false := by
        rw [List.any_eq_false]
        intro key hkey
        rw [(List.mem_replicate.mp hkey).2, hb]
        simp
      show (paneId == paneId && _) = false
      rw [hk, Bool.and_false]

theorem enter_effect (line : Text) : (enterSend paneId).effect joins line = [] := by
  have he : endsLine "Enter".toList = true := by decide
  show press joins (line ++ []) "Enter".toList = []
  rw [press, he]
  rfl

theorem remote_enter (log : Log) :
    remote joins (log ++ [.sent (enterSend paneId) true])
      = Function.update (remote joins log) paneId [] := by
  rw [remote_snoc]
  show Function.update (remote joins log) paneId ((enterSend paneId).effect joins _) = _
  rw [enter_effect]

variable (now) in
theorem sendInput_enter (hup : Up herdr paneId) (hw : b.watches paneId = true)
    (hs : Synced joins m) :
    ∃ b' m', sendInput joins herdr now { paneId := paneId, keys := some enterKeys } b m
        = (.ok ⟨paneId, true, false⟩, b', m') ∧
      m'.log = m.log ++ [.sent (enterSend paneId) true] ∧ Synced joins m' ∧
      b'.pendingInput = none ∧ b'.watched = b.watched ∧ b'.sessionActive = b.sessionActive := by
  have hvalid : validateSendInput { paneId := paneId, keys := some enterKeys } = .ok () := rfl
  have hends : endsHeld { paneId := paneId, keys := some enterKeys } = true := rfl
  have hbypass : (none : Option Bool) ≠ some true := by simp
  have hshadow (shadow : Text) : shadowKeys joins enterKeys shadow = [] := by
    have hany : enterKeys.any endsLine = true := by decide
    rw [shadowKeys, hany]
    rfl
  unfold sendInput
  rw [Bridge.requireWatched_iff.mpr hw]
  simp only [hvalid, hends, if_true]
  unfold transmit
  simp only [if_neg hbypass, forwardInput, forwardText, HerdrCalls.call, hup.sends, Option.map_some,
    hshadow, Option.getD_some]
  refine ⟨_, _, rfl, rfl, ?_, by simp, ?_, ?_⟩
  · unfold Synced at hs ⊢
    show Function.update m.inputLines paneId [] = _
    rw [hs]
    exact (remote_enter m.log).symm
  · rw [Bridge.afterInput_watched]
    exact (kept_cancel b).watched
  · rw [Bridge.afterInput_sessionActive]
    exact (kept_cancel b).active

theorem live_out (ha : b'.sessionActive = some true) (hs : Synced joins m')
    (hp : b'.pendingInput = none) : Live joins paneId { b' with inputReplies := [] } m' := by
  refine ⟨ha, rfl, hs, ?_⟩
  intro p hmem
  change p ∈ b'.pendingInput at hmem
  rw [hp] at hmem
  exact absurd hmem (by simp)

theorem watches_of_watched (hw' : b'.watched = b.watched) (hw : b.watches paneId = true) :
    b'.watches paneId = true := by
  unfold Bridge.watches
  rw [hw']
  exact hw

/-- The pane has got an Enter, and the Host holds nothing. -/
structure Entered (joins : Graphemes) (paneId : PaneId) (b' : Bridge Hash Tag) (m m' : Shared) :
    Prop where
  line : remote joins m'.log paneId = []
  enters : enters joins paneId m.log (m'.log.drop m.log.length) = [remote joins m.log paneId]
  pending : b'.pendingInput = none

/-- An Enter goes out, after calls that send nothing. -/
theorem entered_of_log (calls : Log) (hnone : enters joins paneId m.log calls = [])
    (hremote : remote joins (m.log ++ calls) = remote joins m.log)
    (hlog : m'.log = m.log ++ (calls ++ [.sent (enterSend paneId) true]))
    (hp : b'.pendingInput = none) : Entered joins paneId b' m m' := by
  refine ⟨?_, ?_, hp⟩
  · rw [hlog, ← List.append_assoc, remote_enter, Function.update_self]
  · rw [hlog, List.drop_left, enters_append, hnone, enters, entersPane_enter, hremote]
    rfl

variable (now) in
theorem serve_enter (hup : Up herdr paneId) (hl : Live joins paneId b m)
    (hw : b.watches paneId = true) (tag : Tag) (queue : List (BridgeRequest Tag)) :
    ∃ replies b' m', serveQueued joins herdr now (Device.enterRequest paneId false) (some tag) queue b m
        = (replies, queue, b', m') ∧
      Entered joins paneId b' m m' ∧ Live joins paneId b' m' ∧ b'.watches paneId = true := by
  obtain ⟨b', m', h, hlog, hs, hp, hw', ha⟩ := sendInput_enter now hup hw hl.synced
  have hpure : pureLine (Device.enterRequest paneId false) = false := rfl
  have hserve : ∃ replies, serveQueued joins herdr now (Device.enterRequest paneId false) (some tag)
      queue b m = (replies, queue, { b' with inputReplies := [] }, m') := by
    unfold serveQueued coalesceInput
    rw [hpure]
    simp only [Device.enterRequest, Bool.false_eq_true, if_false, Option.isSome_none]
    rw [show some ["Enter".toList] = some enterKeys from rfl, h]
    exact ⟨_, rfl⟩
  obtain ⟨replies, hserved⟩ := hserve
  refine ⟨replies, _, _, hserved, ?_, live_out (ha.trans hl.active) hs hp, ?_⟩
  · exact entered_of_log [] rfl (by rw [List.append_nil]) hlog hp
  · exact watches_of_watched hw' hw

variable (now) in
/-- A deferred Enter is held, or it goes out. -/
theorem serve_deferred (hup : Up herdr paneId) (hl : Live joins paneId b m)
    (hw : b.watches paneId = true) (tag : Tag) (queue : List (BridgeRequest Tag)) :
    ∃ replies b' m', serveQueued joins herdr now (Device.enterRequest paneId true) (some tag) queue b m
        = (replies, queue, b', m') ∧
      ((remote joins m'.log = remote joins m.log ∧
          enters joins paneId m.log (m'.log.drop m.log.length) = [] ∧
          b'.pendingInput = some ⟨paneId, enterKeys, some tag⟩) ∨
        Entered joins paneId b' m m') ∧
      Live joins paneId b' m' ∧ b'.watches paneId = true := by
  obtain ⟨raw, hsnap, -⟩ := hup.snapshots m.log
  have hvalid : validateSendInput { paneId := paneId, keys := some enterKeys } = .ok () := rfl
  have hkeys : (enterKeys.any fun key => eqIgnoreAsciiCase key "Enter".toList) = true := by decide
  have hwc : b.cancelPendingInputs.watches paneId = true :=
    watches_of_watched (kept_cancel b).watched hw
  have hdefer : deferred joins herdr now (Device.enterRequest paneId true) (some tag) b m
      = if working raw paneId then
          (.ok ⟨paneId, true, true⟩,
            { b.cancelPendingInputs with pendingInput := some ⟨paneId, enterKeys, some tag⟩ },
            { m with log := m.log ++ [.snapshot true] })
        else sendInput joins herdr now { paneId := paneId, keys := some enterKeys }
          b.cancelPendingInputs { m with log := m.log ++ [.snapshot true] } := by
    unfold deferred deferUntilIdle
    simp only [Device.enterRequest, if_true]
    rw [show some ["Enter".toList] = some enterKeys from rfl]
    rw [if_neg (by simp), Bridge.requireWatched_iff.mpr hw]
    simp only [Option.isSome_none, Bool.false_eq_true, Option.getD_some, hkeys, Bool.not_true,
      or_self, if_false, hvalid, HerdrCalls.fetchSnapshot, hsnap]
    rfl
  have hserve : ∀ {result : Except WatchError SendInputAck} {b₁ : Bridge Hash Tag} {m₁ : Shared},
      deferred joins herdr now (Device.enterRequest paneId true) (some tag) b m = (result, b₁, m₁) →
      ∃ replies, serveQueued joins herdr now (Device.enterRequest paneId true) (some tag) queue b m
        = (replies, queue, { b₁ with inputReplies := [] }, m₁) := by
    intro result b₁ m₁ h
    unfold serveQueued handleDeferredInput
    rw [h]
    exact ⟨_, rfl⟩
  by_cases hwork : working raw paneId = true
  · rw [if_pos hwork] at hdefer
    obtain ⟨replies, hserved⟩ := hserve hdefer
    have hremote : remote joins (m.log ++ [.snapshot true]) = remote joins m.log := by
      rw [remote_snoc]
      rfl
    refine ⟨replies, _, _, hserved, Or.inl ⟨hremote, ?_, rfl⟩, ?_, hwc⟩
    · rw [List.drop_left]
      rfl
    · refine ⟨(kept_cancel b).active.trans hl.active, rfl, ?_, ?_⟩
      · exact hl.synced.trans hremote.symm
      · intro p hp
        exact ⟨tag, (Option.some.inj hp).symm⟩
  · rw [if_neg hwork] at hdefer
    have hsnapped : Synced joins { m with log := m.log ++ [.snapshot true] } := by
      have hremote : remote joins (m.log ++ [.snapshot true]) = remote joins m.log := by
        rw [remote_snoc]
        rfl
      exact hl.synced.trans hremote.symm
    obtain ⟨b', m', h, hlog, hs, hp, hw', ha⟩ := sendInput_enter now hup hwc hsnapped
    obtain ⟨replies, hserved⟩ := hserve (hdefer.trans h)
    refine ⟨replies, _, _, hserved, Or.inr ?_,
      live_out ((ha.trans (kept_cancel b).active).trans hl.active) hs hp, watches_of_watched hw' hwc⟩
    refine entered_of_log [.snapshot true] rfl ?_ ?_ hp
    · rw [remote_snoc]
      rfl
    · rw [hlog, List.append_assoc]

theorem sendInput_pending {request : SendInput} {result : Except WatchError SendInputAck}
    (he : endsHeld request = false)
    (h : sendInput joins herdr now request b m = (result, b', m')) :
    b'.pendingInput = b.pendingInput := by
  unfold sendInput at h
  split at h
  · obtain ⟨rfl, rfl, rfl⟩ := h
    rfl
  · split at h
    · obtain ⟨rfl, rfl, rfl⟩ := h
      rfl
    · rw [he] at h
      obtain ⟨rfl, rfl, rfl⟩ := h
      exact Bridge.afterInput_pendingInput _ _ _

/-- A turn on lines leaves the rest of the session alone. -/
theorem serveQueued_line_kept {request : SendInput} {queue left : List (BridgeRequest Tag)}
    {replies : List (Reply Tag)} (hp : pureLine request = true)
    (hrun : ∀ r ∈ lineRun request.paneId queue, r.1.bypassLine ≠ some true)
    (hb : request.bypassLine ≠ some true)
    (h : serveQueued joins herdr now request (some tag) queue b m = (replies, left, b', m')) :
    b'.pendingInput = b.pendingInput ∧ b'.inputReplies = [] ∧ Kept b b' ∧
      Grows (fun e => entersPane request.paneId e = false) m.log m'.log := by
  obtain ⟨pending, rest, hm, -⟩ := mergeQueue_eq request [some tag] queue
  set last := ((lineRun request.paneId queue).getLast?.map Prod.fst).getD request with hlast
  have hl : pureLine last = true ∧ last.paneId = request.paneId ∧ last.bypassLine ≠ some true := by
    rw [hlast]
    cases hg : (lineRun request.paneId queue).getLast? with
    | none => exact ⟨hp, rfl, hb⟩
    | some r =>
      have hmem := List.mem_of_getLast? hg
      exact ⟨(lineRun_pure hmem).1, (lineRun_pure hmem).2, hrun r hmem⟩
  obtain ⟨hpure, hpane, hbypass⟩ := hl
  simp only [pureLine, Bool.and_eq_true, Option.isNone_iff_eq_none] at hpure
  obtain ⟨⟨⟨hline, -⟩, hkeys⟩, -⟩ := hpure
  obtain ⟨line, hline⟩ := Option.isSome_iff_exists.mp hline
  have hd : request.defer.isSome = false := by
    simp only [pureLine, Bool.and_eq_true, Option.isNone_iff_eq_none] at hp
    rw [hp.2]
    rfl
  unfold serveQueued coalesceInput at h
  rw [hd, hp] at h
  simp only [Bool.false_eq_true, if_false, if_true, hm] at h
  cases hs : sendInput joins herdr now last b m with
  | mk result rest =>
    obtain ⟨b₁, m₁⟩ := rest
    rw [hs] at h
    obtain ⟨-, -, rfl, rfl⟩ := h
    have he : endsHeld last = false := by simp [endsHeld, hkeys]
    have hpending := sendInput_pending he hs
    obtain ⟨-, -, hkept⟩ := sendInput_dropped hs
    refine ⟨hpending, rfl, ⟨hkept.active, hkept.watched⟩, ?_⟩
    refine sendInput_line_grows hline hbypass ?_ hs
    intro send ok hsend
    rw [hpane] at hsend
    exact mends_no_enter hsend ok

/-- The requests that a turn takes off the queue are those of a run of lines. -/
theorem run_of_requests {frames : List Frame} {rs : List (SendInput × Option Tag)}
    {left : List (BridgeRequest Tag)} (hpure : ∀ r ∈ rs, pureLine r.1 = true)
    (h : frames.map (Frame.request paneId) = rs.map toRequest ++ left) :
    ∃ run rest, frames = run ++ rest ∧ rest.map (Frame.request paneId) = left ∧
      (∀ frame ∈ run, ∃ text tag, frame = .line text tag) ∧
      rs.map (fun r => r.1.line) = (run.filterMap Frame.text?).map some ∧
      ∀ r ∈ rs, r.1.bypassLine = none := by
  obtain ⟨run, rest, rfl, hrun, hrest⟩ := List.map_eq_append_iff.mp h
  have hlines : ∀ frame ∈ run, ∃ r ∈ rs, toRequest r = frame.request paneId := by
    intro frame hf
    exact List.mem_map.mp (hrun ▸ List.mem_map_of_mem hf)
  have hline : ∀ frame ∈ run, ∃ text tag, frame = .line text tag := by
    intro frame hf
    obtain ⟨r, hr, he⟩ := hlines frame hf
    cases frame with
    | watch => exact absurd he (by simp [toRequest, Frame.request])
    | line text tag => exact ⟨text, tag, rfl⟩
    | enter tag whenIdle =>
      have hreq : r.1 = Device.enterRequest paneId whenIdle := (BridgeRequest.sendInput.inj he).1
      exact absurd (hpure r hr) (by simp [hreq, pureLine, Device.enterRequest])
  refine ⟨run, rest, rfl, hrest, hline, ?_, ?_⟩
  · have hof : rs.map (fun r => r.1.line) = run.map Frame.text? := by
      have hmap := congrArg (List.map lineOf) hrun
      simp only [List.map_map] at hmap
      refine Eq.trans (Eq.symm ?_) (hmap.symm.trans ?_)
      · exact List.map_congr_left fun r _ => rfl
      · exact List.map_congr_left fun frame _ => lineOf_request paneId frame
    rw [hof]
    clear hof hrun hlines h
    induction run with
    | nil => rfl
    | cons frame run ih =>
      obtain ⟨text, tag, rfl⟩ := hline frame List.mem_cons_self
      rw [List.map_cons, ih fun f hf => hline f (List.mem_cons_of_mem _ hf)]
      rfl
  · intro r hr
    have hmem : toRequest r ∈ run.map (Frame.request paneId) := hrun ▸ List.mem_map_of_mem hr
    obtain ⟨frame, hf, he⟩ := List.mem_map.mp hmem
    obtain ⟨text, tag, rfl⟩ := hline frame hf
    have hreq : { paneId := paneId, line := some text } = r.1 := (BridgeRequest.sendInput.inj he).1
    rw [← hreq]

/-- The request that is dispatched for a line and those merged with it. -/
def lastOf (text : Text) (paneId : PaneId) (rs : List (SendInput × Option Tag)) : SendInput :=
  (rs.getLast?.map Prod.fst).getD { paneId := paneId, line := some text }

variable (text) in
theorem lastOf_run {rs : List (SendInput × Option Tag)} {run : List Frame}
    (hpane : ∀ r ∈ rs, r.1.paneId = paneId) (hbypass : ∀ r ∈ rs, r.1.bypassLine = none)
    (htexts : rs.map (fun r => r.1.line) = (run.filterMap Frame.text?).map some) :
    (lastOf text paneId rs).line = some (lastLine text run) ∧
      (lastOf text paneId rs).bypassLine = none ∧ (lastOf text paneId rs).paneId = paneId := by
  have hlast := congrArg List.getLast? htexts
  rw [List.getLast?_map, List.getLast?_map] at hlast
  unfold lastOf lastLine
  cases hg : rs.getLast? with
  | none =>
    rw [hg] at hlast
    rw [Option.map_eq_none_iff.mp hlast.symm]
    exact ⟨rfl, rfl, rfl⟩
  | some r =>
    rw [hg] at hlast
    obtain ⟨t, ht, he⟩ := Option.map_eq_some_iff.mp hlast.symm
    have hmem := List.mem_of_getLast? hg
    rw [ht]
    exact ⟨he.symm, hbypass r hmem, hpane r hmem⟩

variable (now) in
/-- A turn on a line takes the lines behind it that have arrived, and leaves the last. -/
theorem serve_line (hup : Up herdr paneId) (hl : Live joins paneId b m)
    (hw : b.watches paneId = true) (text : Text) (tag : Tag) (frames : List Frame) :
    ∃ run rest replies b' m', frames = run ++ rest ∧
      (∀ frame ∈ run, ∃ text tag, frame = .line text tag) ∧
      serveQueued joins herdr now { paneId := paneId, line := some text } (some tag)
        (frames.map (Frame.request paneId)) b m
        = (replies, rest.map (Frame.request paneId), b', m') ∧
      remote joins m'.log paneId = lastLine text run ∧
      enters joins paneId m.log (m'.log.drop m.log.length) = [] ∧
      b'.pendingInput = b.pendingInput ∧ Live joins paneId b' m' ∧ b'.watches paneId = true := by
  have hpure : pureLine { paneId := paneId, line := some text } = true := rfl
  obtain ⟨b', m', left, h, hq, hlines, hs⟩ := serveQueued_lines herdr
    (fun _ => true) now (some tag)
    (frames.map (Frame.request paneId)) hpure ⟨hl.drained, hl.synced⟩
  rw [hup.steady_eq] at h
  set rs := lineRun paneId (frames.map (Frame.request paneId)) with hrs
  have hqueue : frames.map (Frame.request paneId) = rs.map toRequest ++ left :=
    (List.cons.inj hq).2.symm
  obtain ⟨run, rest, rfl, hrest, hline, htexts, hbypass⟩ :=
    run_of_requests (fun r hr => (lineRun_pure hr).1) hqueue
  have hkept := serveQueued_line_kept (b := b) hpure
    (fun r hr => by rw [hbypass r hr]; simp) (by simp) h
  obtain ⟨hpending, hdrained, hkept, hgrows⟩ := hkept
  refine ⟨run, rest, _, b', m', rfl, hline, hrest ▸ h, ?_, enters_none hgrows, hpending, ?_,
    watches_of_watched hkept.watched hw⟩
  · obtain ⟨hlast, hb, hpane⟩ := lastOf_run text
      (fun r hr => (lineRun_pure hr).2) hbypass htexts
    have hdispatched : ((consumed { paneId := paneId, line := some text } (some tag)
        ((run ++ rest).map (Frame.request paneId))).getLast?.map Prod.fst).getD
          { paneId := paneId, line := some text } = lastOf text paneId rs := by
      show ((({ paneId := paneId, line := some text }, some tag) :: rs).getLast?.map Prod.fst).getD
        { paneId := paneId, line := some text } = _
      unfold lastOf
      cases hg : rs.getLast? with
      | none => simp [List.getLast?_cons, hg]
      | some r => simp [List.getLast?_cons, hg]
    have hgranted : granted (fun _ => true) b m (lastOf text paneId rs) = true := by
      unfold granted refusable
      rw [hb, hpane, hw]
      rfl
    rw [hdispatched, hgranted, hlast] at hlines
    rw [← hs, hlines]
    exact Function.update_self _ _ _
  · exact ⟨hkept.active.trans hl.active, hdrained, hs, fun p hp => hl.pending p (hpending ▸ hp)⟩

variable (frameHash now) in
theorem serve_watch (hup : Up herdr paneId) (hl : Live joins paneId b m) (hw : b.watched = none)
    (hp : b.pendingInput = none) :
    ∃ ack frame b' m', watchPane herdr frameHash now paneId b m = (.ok (ack, frame), b', m') ∧
      ack.paneId = paneId ∧ remote joins m'.log = remote joins m.log ∧ b'.pendingInput = none ∧
      Live joins paneId b' m' ∧ b'.watches paneId = true := by
  obtain ⟨raw, hsnap, pane, hpane, hid⟩ := hup.snapshots m.log
  obtain ⟨found, hfound⟩ : ∃ found, raw.panes.find? (fun p => p.paneId == paneId) = some found := by
    rw [← Option.isSome_iff_exists, List.find?_isSome]
    exact ⟨pane, hpane, by simp [hid]⟩
  obtain ⟨width, hwidth⟩ := hup.layouts (m.log ++ [.snapshot true])
  obtain ⟨shown, hshown⟩ := hup.reads (m.log ++ [.snapshot true] ++ [.layout paneId (some width)])
  have hswitch : switching paneId b = b := by
    unfold switching
    rw [hw]
    rfl
  have hserved : ∃ ack frame, watchPane herdr frameHash now paneId b m = (.ok (ack, frame),
      attach frameHash now { found with paneId := paneId } width shown b,
      { m with log := m.log ++ [.snapshot true] ++ [.layout paneId (some width)]
          ++ [.read paneId (some shown)] }) ∧ ack.paneId = paneId := by
    unfold watchPane HerdrCalls.fetchSnapshot HerdrCalls.fetchWidth HerdrCalls.fetchVisibleText
    rw [hsnap]
    simp only [hfound]
    rw [show (Except.ok (ε := WatchError) raw).isOk = true from rfl, hwidth]
    simp only [Except.toOption]
    rw [hshown, hswitch]
    exact ⟨_, _, rfl, rfl⟩
  obtain ⟨ack, frame, hserved, hack⟩ := hserved
  have hremote : remote joins (m.log ++ [.snapshot true] ++ [.layout paneId (some width)]
      ++ [.read paneId (some shown)]) = remote joins m.log := by
    rw [remote_snoc, remote_snoc, remote_snoc]
    rfl
  refine ⟨ack, frame, _, _, hserved, hack, hremote, hp, ?_, ?_⟩
  · exact ⟨hl.active, hl.drained, hl.synced.trans hremote.symm, hl.pending⟩
  · show (paneId == paneId) = true
    simp

variable (now) in
/-- A status releases the held submit, or nothing happens. -/
theorem serve_status (hup : Up herdr paneId) (hl : Live joins paneId b m)
    (hw : b.pendingInput ≠ none → b.watches paneId = true) (status : Option Text) :
    ∃ replies b' m', handleSubscriptionLine joins herdr now (.paneAgentStatusChanged paneId status)
        b m = (b', m') ∧ takeInputReplies b' = (replies, { b' with inputReplies := [] }) ∧
      ((b' = b ∧ m' = m) ∨ (b.pendingInput ≠ none ∧ Entered joins paneId b' m m')) ∧
      b'.watched = b.watched ∧ Live joins paneId { b' with inputReplies := [] } m' := by
  have hsame : Live joins paneId { b with inputReplies := [] } m :=
    ⟨hl.active, rfl, hl.synced, hl.pending⟩
  unfold handleSubscriptionLine
  by_cases hst : status.any (· ≠ "working".toList) = true
  · simp only [hst, if_true]
    unfold releasePendingInput
    rw [if_neg (by rw [hl.active]; simp)]
    cases hp : b.pendingInput with
    | none => exact ⟨_, b, m, rfl, rfl, Or.inl ⟨rfl, rfl⟩, rfl, hsame⟩
    | some p =>
      obtain ⟨tag, rfl⟩ := hl.pending p hp
      simp only [if_true]
      have hwatch : Bridge.watches { b with pendingInput := none } paneId = true :=
        hw (by simp [hp])
      obtain ⟨b₁, m₁, h, hlog, hs, hnone, hw', ha⟩ :=
        sendInput_enter now hup hwatch hl.synced
      rw [h]
      refine ⟨_, _, m₁, rfl, rfl, Or.inr ⟨by simp, ?_⟩, hw', ?_⟩
      · exact entered_of_log [] rfl (by rw [List.append_nil]) hlog hnone
      · exact live_out (ha.trans hl.active) hs hnone
  · simp only [hst]
    exact ⟨_, b, m, rfl, rfl, Or.inl ⟨rfl, rfl⟩, rfl, hsame⟩

end HerdrMobile.App.Turns
