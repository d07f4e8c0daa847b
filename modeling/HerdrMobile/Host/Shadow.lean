import HerdrMobile.Host.Held

/-!
# The line shadow follows the line of the pane

Reconciling a line is a row of calls that may stop after any of them. What the
shadow has lost or gained by then is what the line at the Herdr end has.
-/
namespace HerdrMobile.Host.Shadow

open HerdrMobile.Lib.Segment HerdrMobile.Proto.Messages
open HerdrMobile.Host.Keys HerdrMobile.Host.Herdr HerdrMobile.Host.Input HerdrMobile.Host.Held

set_option autoImplicit false

variable {Hash Corr : Type} {joins : Graphemes} {herdr : HerdrCalls} {paneId p : PaneId}
  {text old old' line shadow : Text} {log log' : Log} {send : Send} {ok : Bool} {m m' : Shared}
  {request : SendInput} {now : Nat} {corr : Option Corr} {b b' : Bridge Hash Corr}

/-- The shadow of every pane is the line Herdr holds for it. -/
def Synced (joins : Graphemes) (m : Shared) : Prop := m.inputLines = remote joins m.log

theorem synced_start : Synced joins Shared.start := rfl

variable (joins) in
theorem call_remote (hc : herdr.call send log = (ok, log')) :
    remote joins log' = if ok then
        Function.update (remote joins log) send.paneId
          (send.effect joins (remote joins log send.paneId))
      else remote joins log := by
  obtain ⟨hok, hlog⟩ := Prod.mk.inj hc
  rw [← hlog, hok, remote_snoc]
  cases ok with
  | false => rfl
  | true => rfl

theorem sendTypedText_remote (hc : sendTypedText herdr paneId text log = (ok, log')) :
    remote joins log' = if ok then
        Function.update (remote joins log) paneId (remote joins log paneId ++ text)
      else remote joins log := by
  unfold sendTypedText at hc
  by_cases hn : '\n' ∈ text
  · rw [if_pos hn] at hc
    have h := call_remote joins hc
    simpa [Send.paneId, Send.effect] using h
  · rw [if_neg hn] at hc
    exact call_remote joins hc

theorem press_backspace (line : Text) : press joins line "Backspace".toList = eraseLast joins line := by
  have he : endsLine "Backspace".toList = false := by decide
  have hb : isBackspace "Backspace".toList = true := by decide
  rw [press, he, hb]
  rfl

theorem press_backspaces (n : Nat) (line : Text) :
    (List.replicate n "Backspace".toList).foldl (press joins) line = (eraseLast joins)^[n] line := by
  induction n generalizing line with
  | zero => rfl
  | succ n ih => rw [List.replicate_succ, List.foldl_cons, press_backspace, ih, Function.iterate_succ_apply]

theorem take_keep (joins : Graphemes) (old : Text) (count : Nat) :
    old.take (old.length - (((clusters joins old).reverse.take count).map List.length).sum)
      = (eraseLast joins)^[count] old := by
  rw [eraseLast_iterate, ← take_flatten, flatten_clusters]

/-- The loop of Backspace chunks, stopped by a failure or not. -/
theorem removeTail_remote {n rounds remaining : Nat} (hn : remaining ≠ 0 → n ≠ 0)
    (hr : removeTail joins herdr paneId (List.replicate n "Backspace".toList) rounds remaining old log
      = (ok, old', log'))
    (hold : remote joins log paneId = old) :
    remote joins log' = Function.update (remote joins log) paneId old' ∧
    (ok = true → remaining ≤ rounds → old' = (eraseLast joins)^[remaining] old) := by
  induction rounds generalizing remaining old log with
  | zero =>
    obtain ⟨rfl, rfl, rfl⟩ := hr
    refine ⟨by rw [← hold, Function.update_eq_self], ?_⟩
    intro _ hle
    obtain rfl : remaining = 0 := by omega
    rfl
  | succ rounds ih =>
    unfold removeTail at hr
    by_cases h0 : remaining = 0
    · subst h0
      rw [if_pos rfl] at hr
      obtain ⟨rfl, rfl, rfl⟩ := hr
      exact ⟨by rw [← hold, Function.update_eq_self], fun _ _ => rfl⟩
    · simp only [if_neg h0, List.length_replicate, List.take_replicate, Nat.min_assoc, Nat.min_self]
        at hr
      have hpos : 0 < n := Nat.pos_of_ne_zero (hn h0)
      cases hc : herdr.call
          (.sendInput paneId none (some (List.replicate (min remaining n) "Backspace".toList))) log with
      | mk ok₁ log₁ =>
        have hrem := call_remote joins hc
        simp only [hc] at hr
        cases ok₁ with
        | false =>
          obtain ⟨rfl, rfl, rfl⟩ := hr
          refine ⟨?_, fun h => absurd h (by decide)⟩
          rw [hrem, ← hold, Function.update_eq_self]
          rfl
        | true =>
          have hstep : remote joins log₁ = Function.update (remote joins log) paneId
              ((eraseLast joins)^[min remaining n] old) := by
            rw [hrem]
            simp only [if_true, Send.paneId, Send.effect, Option.getD_some, Option.getD_none,
              List.append_nil, press_backspaces, hold]
          rw [take_keep] at hr
          have hold₁ : remote joins log₁ paneId = (eraseLast joins)^[min remaining n] old := by
            rw [hstep, Function.update_self]
          obtain ⟨hlines, hdone⟩ := ih (fun _ => hn h0) hr hold₁
          constructor
          · rw [hlines, hstep, Function.update_idem]
          · intro hok hle
            rw [hdone hok (by omega), ← Function.iterate_add_apply]
            congr 1
            omega

/-- The line and the old shadow after their common graphemes. -/
theorem split_common (joins : Graphemes) (old line : Text) :
    let common := commonPrefix (clusters joins old) (clusters joins line)
    line = common.flatten ++ line.drop (common.map List.length).sum ∧
    (clusters joins (old.drop (common.map List.length).sum)).length
      = (clusters joins old).length - common.length ∧
    (eraseLast joins)^[(clusters joins old).length - common.length] old = common.flatten := by
  intro common
  obtain ⟨hold, hline⟩ : common = (clusters joins old).take common.length ∧
      common = (clusters joins line).take common.length := commonPrefix_take _ _
  have hk : common.length ≤ (clusters joins old).length := by
    have hlen := congrArg List.length hold
    rw [List.length_take] at hlen
    omega
  refine ⟨?_, ?_, ?_⟩
  · rw [hline, drop_clusters]
    exact split_clusters joins line _
  · rw [hold, drop_clusters, clusters_drop, List.length_drop, ← hold]
  · rw [eraseLast_iterate, Nat.sub_sub_self hk, ← hold]

theorem reconcileLine_remote
    (hr : reconcileLine joins herdr paneId old line log = (ok, shadow, log'))
    (hold : remote joins log paneId = old) :
    remote joins log' = Function.update (remote joins log) paneId (if ok then line else shadow) := by
  obtain ⟨hline, hremove, herase⟩ := split_common joins old line
  unfold reconcileLine at hr
  simp only at hr
  set common := commonPrefix (clusters joins old) (clusters joins line) with hcommon
  set remove := (clusters joins (old.drop (common.map List.length).sum)).length with hrm
  cases ht : removeTail joins herdr paneId
      (List.replicate (min remove 64) "Backspace".toList) remove remove old log with
  | mk ok₁ rest =>
    obtain ⟨old₁, log₁⟩ := rest
    have hn : remove ≠ 0 → min remove 64 ≠ 0 := by omega
    obtain ⟨hlines, hdone⟩ := removeTail_remote hn ht hold
    rw [ht] at hr
    cases ok₁ with
    | false =>
      obtain ⟨rfl, rfl, rfl⟩ := hr
      exact hlines
    | true =>
      have hold₁ : old₁ = common.flatten := by
        rw [hdone rfl (Nat.le_refl _), hremove, herase]
      by_cases he : (line.drop (common.map List.length).sum).isEmpty = true
      · simp only [he, if_true] at hr
        obtain ⟨rfl, rfl, rfl⟩ := hr
        have htail := List.isEmpty_iff.mp he
        rw [htail, List.append_nil] at hline
        rw [hlines, hold₁, ← hline]
        rfl
      · simp only [he, Bool.false_eq_true, if_false] at hr
        cases hs : sendTypedText herdr paneId (line.drop (common.map List.length).sum) log₁ with
        | mk ok₂ log₂ =>
          rw [hs] at hr
          obtain ⟨rfl, rfl, rfl⟩ := hr
          rw [sendTypedText_remote hs, hlines]
          cases ok₂ with
          | false => rfl
          | true =>
            simp only [if_true, Function.update_self, Function.update_idem]
            rw [hold₁, ← hline]

theorem transmit_line {accepted changed : Bool} (hl : request.line = some line)
    (hb : request.bypassLine ≠ some true)
    (ht : transmit joins herdr request m = (accepted, changed, m')) (hs : Synced joins m) :
    Synced joins m' ∧ (∀ p, p ≠ request.paneId → m'.inputLines p = m.inputLines p) ∧
    (accepted = true → m'.inputLines request.paneId = line) := by
  unfold transmit at ht
  rw [if_neg hb] at ht
  simp only [hl] at ht
  cases hr : reconcileLine joins herdr request.paneId (m.inputLines request.paneId) line m.log with
  | mk ok rest =>
    obtain ⟨shadow, log'⟩ := rest
    simp only [hr] at ht
    obtain ⟨rfl, -, rfl⟩ := ht
    have hold : remote joins m.log request.paneId = m.inputLines request.paneId := by rw [hs]
    have hrem := reconcileLine_remote hr hold
    refine ⟨?_, ?_, ?_⟩
    · change Function.update m.inputLines request.paneId (if accepted then line else shadow) = _
      rw [hrem, hs]
    · intro p hp
      exact Function.update_of_ne hp _ _
    · intro hok
      change Function.update m.inputLines request.paneId (if accepted then line else shadow) _ = line
      rw [Function.update_self, if_pos hok]

theorem validate_line (hl : request.line = some line) (hv : validateSendInput request = .ok ()) :
    request.bypassLine ≠ some true ∧ request.text = none ∧ request.keys = none ∧
      request.defer = none := by
  unfold validateSendInput at hv
  by_cases hb : request.bypassLine = some true
  · simp [hb, hl] at hv
  · by_cases hd : request.defer.isSome = true
    · simp [hb, hd] at hv
    · by_cases hk : request.text.isSome = true ∨ request.keys.isSome = true
      · simp [hb, hd, hl, hk] at hv
      · simp only [not_or, Bool.not_eq_true, Option.isSome_eq_false_iff, Option.isNone_iff_eq_none]
          at hk hd
        exact ⟨hb, hk.1, hk.2, hd⟩

/-- What serving a line request of a pane does to the shared state and answers. -/
structure Followed (joins : Graphemes) (paneId : PaneId) (line : Text) (m m' : Shared)
    (replies : List (Reply Corr)) : Prop where
  synced : ∀ p, m'.inputLines p = remote joins m'.log p
  others : ∀ p, p ≠ paneId →
    m'.inputLines p = m.inputLines p ∧ remote joins m'.log p = remote joins m.log p
  accepted : ∀ r ∈ replies, r.1.accepted = true → remote joins m'.log paneId = line

theorem followed_of_synced {replies : List (Reply Corr)} (hs : Synced joins m)
    (hs' : Synced joins m') (ho : ∀ p, p ≠ paneId → m'.inputLines p = m.inputLines p)
    (ha : ∀ r ∈ replies, r.1.accepted = true → m'.inputLines paneId = line) :
    Followed joins paneId line m m' replies := by
  constructor
  · intro p
    rw [hs']
  · intro p hp
    refine ⟨ho p hp, ?_⟩
    rw [← hs, ← hs']
    exact ho p hp
  · intro r hr hok
    rw [← hs']
    exact ha r hr hok

/-- `send_input` on a line: refused without a call, or transmitted. -/
theorem sendInput_line {result : Except WatchError SendInputAck} (hl : request.line = some line)
    (h : sendInput joins herdr now request b m = (result, b', m')) (hs : Synced joins m) :
    Synced joins m' ∧ (∀ p, p ≠ request.paneId → m'.inputLines p = m.inputLines p) ∧
    ((orRefused request.paneId result).accepted = true → m'.inputLines request.paneId = line) ∧
    b'.inputReplies = b.inputReplies := by
  unfold sendInput at h
  cases hw : b.requireWatched request.paneId with
  | error e =>
    rw [hw] at h
    obtain ⟨rfl, rfl, rfl⟩ := h
    exact ⟨hs, fun _ _ => rfl, fun h => absurd h (by simp [orRefused]), rfl⟩
  | ok u =>
    simp only [hw] at h
    cases hv : validateSendInput request with
    | error e =>
      simp only [hv] at h
      obtain ⟨rfl, rfl, rfl⟩ := h
      exact ⟨hs, fun _ _ => rfl, fun h => absurd h (by simp [orRefused]), rfl⟩
    | ok u =>
      obtain ⟨hb, -, hk, -⟩ := validate_line hl hv
      have he : endsHeld request = false := by simp [endsHeld, hk]
      simp only [hv, he, Bool.false_eq_true, if_false] at h
      cases ht : transmit joins herdr request m with
      | mk accepted rest =>
        obtain ⟨changed, m₁⟩ := rest
        simp only [ht] at h
        obtain ⟨rfl, rfl, rfl⟩ := h
        obtain ⟨hs', ho, ha⟩ := transmit_line hl hb ht hs
        exact ⟨hs', ho, ha, Bridge.afterInput_inputReplies _ _ _⟩

/-- A deferred request that carries a line is refused before any call. -/
theorem deferred_line {result : Except WatchError SendInputAck} (hl : request.line = some line)
    (hd : request.defer.isSome = true)
    (h : deferred joins herdr now request corr b m = (result, b', m')) :
    (orRefused request.paneId result).accepted = false ∧ b' = b ∧ m' = m := by
  have hrefused : ∀ e, (orRefused request.paneId (.error e)).accepted = false := fun _ => rfl
  unfold deferred at h
  by_cases hb : request.bypassLine = some true
  · rw [if_pos hb] at h
    unfold sendInput at h
    cases hw : b.requireWatched request.paneId with
    | error e =>
      rw [hw] at h
      obtain ⟨rfl, rfl, rfl⟩ := h
      exact ⟨hrefused e, rfl, rfl⟩
    | ok u =>
      have hv : validateSendInput request
          = .error (.invalidInput "bypass_line cannot include line or defer") := by
        simp [validateSendInput, hb, hd]
      simp only [hw, hv] at h
      obtain ⟨rfl, rfl, rfl⟩ := h
      exact ⟨hrefused _, rfl, rfl⟩
  · rw [if_neg hb] at h
    obtain ⟨d, hd⟩ := Option.isSome_iff_exists.mp hd
    rw [hd] at h
    cases d with
    | cancel =>
      simp only [deferCancel, hl, Option.isSome_some, true_or, if_true] at h
      obtain ⟨rfl, rfl, rfl⟩ := h
      exact ⟨hrefused _, rfl, rfl⟩
    | untilIdle =>
      simp only [deferUntilIdle, hl, Option.isSome_some, true_or, if_true] at h
      cases hw : b.requireWatched request.paneId with
      | error e =>
        rw [hw] at h
        obtain ⟨rfl, rfl, rfl⟩ := h
        exact ⟨hrefused e, rfl, rfl⟩
      | ok u =>
        simp only [hw] at h
        obtain ⟨rfl, rfl, rfl⟩ := h
        exact ⟨hrefused _, rfl, rfl⟩

/-- One line-shaped request as it meets a session: its bridge may watch anything,
its other optional fields may be anything, and its queue of replies is drained. -/
structure LineTurn (Hash Corr : Type) where
  bridge : Bridge Hash Corr
  drained : bridge.inputReplies = []
  now : Nat
  request : SendInput
  corr : Option Corr
  line : Text
  shaped : request.line = some line

def LineTurn.serve (joins : Graphemes) (herdr : HerdrCalls) (turn : LineTurn Hash Corr)
    (m : Shared) : List (Reply Corr) × Shared :=
  let (replies, _, m) := serveInput joins herdr turn.now turn.request turn.corr turn.bridge m
  (replies, m)

def serveAll (joins : Graphemes) (herdr : HerdrCalls) (turns : List (LineTurn Hash Corr))
    (m : Shared) : Shared :=
  turns.foldl (fun m turn => (turn.serve joins herdr m).2) m

theorem serve_follows (turn : LineTurn Hash Corr) (hs : Synced joins m) :
    Followed joins turn.request.paneId turn.line m (turn.serve joins herdr m).2
      (turn.serve joins herdr m).1 := by
  have hl := turn.shaped
  unfold LineTurn.serve serveInput
  by_cases hd : turn.request.defer.isSome = true
  · rw [if_pos hd]
    unfold handleDeferredInput
    cases h : deferred joins herdr turn.now turn.request turn.corr turn.bridge m with
    | mk result rest =>
      obtain ⟨b', m'⟩ := rest
      obtain ⟨hacc, rfl, rfl⟩ := deferred_line hl hd h
      apply followed_of_synced hs hs (fun _ _ => rfl)
      intro r hr hok
      simp only [takeInputReplies, pushReply, turn.drained, List.nil_append,
        List.mem_singleton] at hr
      subst hr
      rw [hacc] at hok
      exact absurd hok (by decide)
  · rw [if_neg hd]
    cases h : sendInput joins herdr turn.now turn.request turn.bridge m with
    | mk result rest =>
      obtain ⟨b', m'⟩ := rest
      obtain ⟨hs', ho, ha, hrep⟩ := sendInput_line hl h hs
      apply followed_of_synced hs hs' ho
      intro r hr hok
      simp only [takeInputReplies, hrep, turn.drained, List.mem_singleton] at hr
      subst hr
      exact ha hok

theorem synced_serveAll (turns : List (LineTurn Hash Corr)) (hs : Synced joins m) :
    Synced joins (serveAll joins herdr turns m) := by
  induction turns generalizing m with
  | nil => exact hs
  | cons turn turns ih => exact ih (funext (serve_follows turn hs).synced)

/-- After every request of every sequence of line requests, to any panes and with any
calls failing, the shadow of each pane is the line at the Herdr end; only the pane of
the request has changed; and an accepted reply means that its line is the one asked for. -/
theorem shadow_follows_line (joins : Graphemes) (herdr : HerdrCalls)
    (turns : List (LineTurn Hash Corr)) (turn : LineTurn Hash Corr) :
    let m := serveAll joins herdr turns Shared.start
    let (replies, m') := turn.serve joins herdr m
    Followed joins turn.request.paneId turn.line m m' replies :=
  serve_follows turn (synced_serveAll turns synced_start)

end HerdrMobile.Host.Shadow
