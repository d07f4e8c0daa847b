import HerdrMobile.Host.Handover
import HerdrMobile.Host.Reopen

/-!
# A subscription that is replaced

When the replacement of a subscription loses nothing. The lines that count are those of
the connection that is kept: the new one from the moment Herdr knows it. What Herdr has
pushed before and the thread has not read goes with the old one, and no snapshot follows.
-/
namespace HerdrMobile.Host.Resubscribe

open HerdrMobile.Lib.Run HerdrMobile.Proto.Messages HerdrMobile.Proto.Tree HerdrMobile.App.Tree
open HerdrMobile.Host.Herdr HerdrMobile.Host.Input HerdrMobile.Host.Held HerdrMobile.Host.Watch
open HerdrMobile.Host.HeldSteps HerdrMobile.Host.HeldRuns HerdrMobile.Host.Incoming
open HerdrMobile.Host.Subscription HerdrMobile.Host.Handover

set_option autoImplicit false

variable {Hash : Type} {s t : Thread Hash}

/-- Every push has been handled, the replacement that one asked for included. -/
structure Quiet (s : Thread Hash) : Prop where
  phase : s.phase = .serving ∨ s.phase = .window
  resubscribe : s.resubscribe = false
  read : pushes ((s.subscription.map Connection.items).getD []) = []

def noticeOf : Message → Option AgentStatus
  | .agentStatus notice => some notice
  | _ => none

/-- R-02-013a, R-11-047: nothing that Herdr pushed is lost on the Device. -/
structure Complete (s : Thread Hash) : Prop where
  tree : ∀ tree, conveyed s.outgoing = some tree → tree = s.world.tree
  covered : ∃ connection, s.subscription = some connection ∧
    ∀ paneId, (s.world.tree.panes paneId).isSome → connection.entries paneId = true
  notices : s.outgoing.filterMap noticeOf = s.sent.map Prod.snd
  sent : ∀ n push, s.pushed[n]? = some push →
    ∀ paneId status, notable push = some (paneId, status) → n ∈ s.suppressed ∨
      ∃ notice, (n, notice) ∈ s.sent ∧ notice.paneId = paneId ∧ notice.status = status
  held : ∀ p, s.session.bridge.pendingInput = some p → s.world.working p.paneId = true

section Careful

variable [DecidableEq Hash] (joins : Graphemes) (herdr : HerdrCalls) (frameHash : FrameHash Hash)

/-- A status that is to be sent finds its pane in a snapshot, and a tab or workspace does not
close over a submit whose agent has gone with it. -/
structure Answered (s : Thread Hash) (push : Incoming.Push) : Prop where
  notice : ∀ paneId status, notable push = some (paneId, status) →
    (settleAgentStatus paneId s.now s.settled).1 = true →
    (herdr.sessionSnapshot (s.told joins herdr frameHash push).shared.log).isOk = true ∧
      (s.world.tree.panes paneId).isSome
  around : closesAround push.event = true → ∀ p, s.session.bridge.pendingInput = some p →
    s.world.working p.paneId = true

/-- When Herdr comes to know the new connection, the thread has read all there is on the old
one; and without an old one it has learnt of every pane. -/
def Known (s : Thread Hash) : Prop :=
  match s.subscription, s.phase with
  | some old, _ => pushes old.items = []
  | none, .opening _ entries => ∀ paneId, (s.world.tree.panes paneId).isSome → entries paneId = true
  | none, _ => True

end Careful

/-- The unread lines of the connection that is kept. -/
def lines (s : Thread Hash) : List Item :=
  match s.phase with
  | .subscribed _ connection => connection.items
  | _ => (s.subscription.map Connection.items).getD []

def Covered (s : Thread Hash) : Prop :=
  match s.phase with
  | .toOpen _ => True
  | .opening _ entries => s.subscription.isSome → Covers entries (lines s) false s.world
  | .subscribed _ connection => Covers connection.entries (lines s) false s.world
  | .serving | .window => ∀ connection, s.subscription = some connection →
    Covers connection.entries (lines s) s.resubscribe s.world

/-- The session starts, and no connection has been opened. -/
structure Fresh (s : Thread Hash) : Prop where
  phase : s.phase = .toOpen .start ∨ ∃ entries, s.phase = .opening .start entries
  device : conveyed s.outgoing = none
  held : s.session.bridge.pendingInput = none

structure Level (s : Thread Hash) : Prop where
  fresh : s.connected = false → Fresh s
  tree : Reaches (lines s) s.world.tree (conveyed s.outgoing)
  covered : Covered s
  owed : Owed (lines s) s.pushed s.sent s.suppressed
  waits : Waits (lines s) s.world s.session.bridge.pendingInput
  watching : Watching s.session.bridge
  notices : s.outgoing.filterMap noticeOf = s.sent.map Prod.snd

theorem level_start (config : RelayConfig) (w : World) :
    Level (Thread.start config w : Thread Hash) where
  fresh _ := ⟨Or.inl rfl, rfl, rfl⟩
  tree := .none
  covered := trivial
  owed n push hn := by cases hn
  waits p hp := by cases hp
  watching p hp := by cases hp
  notices := rfl

theorem lines_serving (h : s.phase = .serving ∨ s.phase = .window) :
    lines s = (s.subscription.map Connection.items).getD [] := by
  unfold lines
  rcases h with h | h <;> rw [h]

/-- A session that serves requests has a subscription. -/
theorem Level.subscribed (h : Level s) (hphase : s.phase = .serving ∨ s.phase = .window) :
    s.connected = true ∧ s.subscription.isSome := by
  have hsame : s.connected = s.subscription.isSome := by
    unfold Thread.connected
    rcases hphase with hp | hp <;> rw [hp]
  have hc : s.connected = true := by
    cases hc : s.connected with
    | true => rfl
    | false =>
      rcases (h.fresh hc).phase with hp | ⟨entries, hp⟩ <;>
        rcases hphase with hp' | hp' <;> cases hp.symm.trans hp'
  exact ⟨hc, hsame ▸ hc⟩

/-- Once every line has been read nothing is missing. -/
theorem Level.complete (h : Level s) (hq : Quiet s) : Complete s := by
  have hread : pushes (lines s) = [] := by
    rw [lines_serving hq.phase]
    exact hq.read
  obtain ⟨connection, hsub⟩ := Option.isSome_iff_exists.mp (h.subscribed hq.phase).2
  have hcovers : Covers connection.entries (lines s) s.resubscribe s.world := by
    have hcovered := h.covered
    unfold Covered at hcovered
    rcases hq.phase with hp | hp <;> rw [hp] at hcovered <;> exact hcovered connection hsub
  constructor
  · intro tree htree
    obtain ⟨t, ht, hd⟩ := h.tree
    rw [hread] at ht
    exact (hd tree htree).trans ht
  · refine ⟨connection, hsub, fun paneId hpane => ?_⟩
    rcases hcovers paneId hpane with hentry | ⟨push, hmem, -⟩ | hre
    · exact hentry
    · rw [hread] at hmem
      cases hmem
    · rw [hq.resubscribe] at hre
      cases hre
  · exact h.notices
  · intro n push hn paneId status hnotable
    rcases h.owed n push hn paneId status hnotable with hs | hs | hs
    · exact Or.inl hs
    · exact Or.inr hs
    · have hmem : push ∈ pushes (lines s) := List.mem_filterMap.mpr ⟨_, hs, rfl⟩
      rw [hread] at hmem
      cases hmem
  · intro p hp
    rcases h.waits p hp with hworking | ⟨push, hmem, -⟩
    · exact hworking
    · rw [hread] at hmem
      cases hmem

theorem Level.session (h : Level s) {session : Session.Thread Hash}
    (hw : Watching session.bridge)
    (hp : ∀ p, session.bridge.pendingInput = some p →
      s.session.bridge.pendingInput = some p ∨ s.connected = true ∧ s.world.working p.paneId = true) :
    Level { s with session := session } where
  fresh hc := by
    obtain ⟨hphase, hdevice, hheld⟩ := h.fresh hc
    refine ⟨hphase, hdevice, ?_⟩
    cases hpend : session.bridge.pendingInput with
    | none => rfl
    | some p =>
      rcases hp p hpend with hold | ⟨hopen, -⟩
      · exact absurd (hheld.symm.trans hold) (by simp)
      · exact absurd (hopen.symm.trans hc) (by simp)
  tree := h.tree
  covered := h.covered
  owed := h.owed
  waits := h.waits.step fun p hpend => (hp p hpend).imp_right And.right
  watching := hw
  notices := h.notices

/-- Only what goes on in the session, and on the clock, has changed. -/
theorem Level.logged (h : Level s) (log : Log) :
    Level { s with session := Thread.logged s.session log } :=
  h.session h.watching fun _ hp => Or.inl hp

section Serve

variable [DecidableEq Hash] {joins : Graphemes} {herdr : HerdrCalls} {frameHash : FrameHash Hash}

theorem act_pending {p : PendingInput Session.Ticket} (e : Session.Event)
    (hp : (s.act joins herdr frameHash e).bridge.pendingInput = some p) :
    s.session.bridge.pendingInput = some p ∨ s.world.working p.paneId = true := by
  rcases pending_step e hp with hold | ⟨snapshot, hs, hworking⟩
  · exact Or.inl hold
  · refine Or.inr ?_
    have hmap : (herdr.sessionSnapshot s.session.shared.log).map
        (fun raw => { raw with agents := s.world.agents }) = .ok snapshot := hs
    cases hraw : herdr.sessionSnapshot s.session.shared.log with
    | error e =>
      rw [hraw] at hmap
      cases hmap
    | ok raw =>
      rw [hraw] at hmap
      cases hmap
      exact hworking

theorem drain_watching {session : Session.Thread Hash} (h : Watching session.bridge) :
    Watching (Thread.drain joins herdr frameHash session).bridge := watching_step h .drain

/-- A request that the session serves, with its replies sent. -/
theorem Level.served (h : Level s) (hc : s.connected = true) (e : Session.Event) :
    Level { s with
      session := Thread.drain joins herdr frameHash (s.act joins herdr frameHash e) } := by
  refine h.session (drain_watching (watching_step h.watching e)) fun p hp => ?_
  exact (act_pending e hp).imp_right fun hworking => ⟨hc, hworking⟩

theorem Level.tree_request (h : Level s) (hc : s.connected = true) :
    Level (s.serve joins herdr frameHash .tree) := by
  have hanswer : ∀ (log : Log) (message : Message), (message = .treeSnapshot s.world.tree ∨
      message = .error) → Level { s with
        session := Thread.logged s.session log
        outgoing := s.outgoing ++ [message] } := by
    intro log message hmessage
    have htree : Reaches (lines s) s.world.tree (conveyed (s.outgoing ++ [message])) := by
      rw [conveyed_append]
      rcases hmessage with rfl | rfl
      · exact h.tree.snapshot
      · exact h.tree
    have hnotices : (s.outgoing ++ [message]).filterMap noticeOf = s.sent.map Prod.snd := by
      rw [List.filterMap_append, h.notices]
      rcases hmessage with rfl | rfl <;> exact List.append_nil _
    exact { (h.logged log) with
      fresh := fun hc' => absurd (hc.symm.trans hc') (by simp)
      tree := htree
      notices := hnotices }
  unfold Thread.serve fetchTree HerdrCalls.fetchSnapshot
  cases hs : herdr.sessionSnapshot s.session.shared.log with
  | ok raw => exact hanswer _ _ (Or.inl rfl)
  | error e => exact hanswer _ _ (Or.inr rfl)

theorem Level.serve (h : Level s) (hphase : s.phase = .serving) (request : Request) :
    Level (s.serve joins herdr frameHash request) := by
  obtain ⟨hc, hopen⟩ := h.subscribed (Or.inl hphase)
  cases request with
  | tree => exact h.tree_request hc
  | watchPane paneId =>
    have hnext : s.serve joins herdr frameHash (.watchPane paneId) = { s with
        session := Thread.drain joins herdr frameHash
          (s.act joins herdr frameHash (.watchPane s.now paneId)) } := by
      unfold Thread.serve
      simp [Option.isNone_iff_eq_none, Option.isSome_iff_ne_none.mp hopen]
    rw [hnext]
    exact h.served hc _
  | unwatchPane paneId => exact h.served hc _
  | input request corr => exact h.served hc _
  | cancelPending => exact h.served hc _

end Serve

theorem pushes_arrive (fresh : Bool) (item : Item) (hi : Item.push? item = none) :
    pushes (lines (s.arrive fresh item)) = pushes (lines s) := by
  have hput : ∀ items, pushes (items ++ [item]) = pushes items := by
    intro items
    rw [pushes_append, pushes_other hi]
    exact List.append_nil _
  unfold Thread.arrive lines
  cases fresh with
  | true =>
    cases s.phase with
    | subscribed c connection => exact hput connection.items
    | toOpen c | opening c entries | serving | window => rfl
  | false =>
    cases hsub : s.subscription with
    | none => cases s.phase <;> rfl
    | some connection =>
      cases s.phase with
      | subscribed c connection' => rfl
      | toOpen c | opening c entries | serving | window => exact hput connection.items

theorem lines_change (push : Incoming.Push) (hc : s.connected = true) :
    lines (s.change push) = lines s ++ [.push s.pushed.length push] := by
  unfold Thread.connected at hc
  unfold Thread.change lines
  cases hphase : s.phase with
  | subscribed c connection => rfl
  | toOpen c | opening c entries | serving | window =>
    simp only [hphase] at hc
    obtain ⟨connection, hsub⟩ := Option.isSome_iff_exists.mp hc
    rw [hsub]
    rfl

theorem covered_change (h : Covered s) (hc : s.connected = true) {push : Incoming.Push}
    (ha : announceable s.world push = true) : Covered (s.change push) := by
  have hlines := lines_change push hc
  unfold Covered at h ⊢
  rw [hlines]
  cases hphase : s.phase with
  | toOpen c =>
    have hnext : (s.change push).phase = .toOpen c := by
      show Thread.putFresh _ s.phase = _
      rw [hphase]
      rfl
    rw [hnext]
    trivial
  | opening c entries =>
    have hnext : (s.change push).phase = .opening c entries := by
      show Thread.putFresh _ s.phase = _
      rw [hphase]
      rfl
    rw [hphase] at h
    rw [hnext]
    intro hopen
    exact (h (by rwa [Thread.change, Option.isSome_map] at hopen)).change ha _
  | subscribed c connection =>
    have hnext : (s.change push).phase
        = .subscribed c (connection.put (.push s.pushed.length push)) := by
      show Thread.putFresh _ s.phase = _
      rw [hphase]
      rfl
    rw [hphase] at h
    rw [hnext]
    exact h.change ha _
  | serving | window =>
    have hnext : (s.change push).phase = s.phase := by
      show Thread.putFresh _ s.phase = _
      rw [hphase]
      rfl
    rw [hphase] at h
    rw [hnext, hphase]
    intro connection hsub
    obtain ⟨old, hold, rfl⟩ := Option.map_eq_some_iff.mp hsub
    exact (h old hold).change ha _

/-- Herdr pushes a change to the connections that are open. -/
theorem Level.change (h : Level s) {push : Incoming.Push}
    (ha : announceable s.world push = true) : Level (s.change push) := by
  cases hc : s.connected with
  | false =>
    obtain ⟨hphase, hdevice, hheld⟩ := h.fresh hc
    have hsub : s.subscription = none := by
      unfold Thread.connected at hc
      rcases hphase with hp | ⟨entries, hp⟩ <;> rw [hp] at hc <;> simpa using hc
    have hsame : (s.change push).phase = s.phase := by
      show Thread.putFresh _ s.phase = _
      rcases hphase with hp | ⟨entries, hp⟩ <;> rw [hp] <;> rfl
    have hsub' : (s.change push).subscription = none := by
      show s.subscription.map _ = none
      rw [hsub]
      rfl
    have hlines : lines s = [] := by
      unfold lines
      rcases hphase with hp | ⟨entries, hp⟩ <;> rw [hp, hsub] <;> rfl
    have hlines' : lines (s.change push) = [] := by
      unfold lines
      rw [hsame, hsub']
      rcases hphase with hp | ⟨entries, hp⟩ <;> rw [hp] <;> rfl
    constructor
    · exact fun _ => ⟨hsame ▸ hphase, hdevice, hheld⟩
    · show Reaches (lines (s.change push)) _ (conveyed s.outgoing)
      rw [hlines', hdevice]
      exact .none
    · unfold Covered
      rw [hsame]
      rcases hphase with hp | ⟨entries, hp⟩ <;> rw [hp]
      · trivial
      · intro hopen
        rw [hsub'] at hopen
        cases hopen
    · have hpushed : (s.change push).pushed = s.pushed := by
        show (if s.connected = true then _ else _) = _
        rw [hc]
        rfl
      rw [hpushed, hlines', ← hlines]
      exact h.owed
    · intro p hp
      exact absurd (hheld.symm.trans hp) (by simp)
    · exact h.watching
    · exact h.notices
  | true =>
    have hlines := lines_change push hc
    have hpushed : (s.change push).pushed = s.pushed ++ [push] := by
      show (if s.connected = true then _ else _) = _
      rw [hc]
      rfl
    constructor
    · intro hc'
      have hstill : (s.change push).connected = true := by
        unfold Thread.connected at hc ⊢
        cases hphase : s.phase with
        | subscribed c connection =>
          show (match Thread.putFresh _ s.phase with | .subscribed _ _ => _ | _ => _) = _
          rw [hphase]
          rfl
        | toOpen c | opening c entries | serving | window =>
          simp only [hphase] at hc
          show (match Thread.putFresh _ s.phase with | .subscribed _ _ => _ | _ => _) = _
          rw [hphase]
          show (s.subscription.map _).isSome = true
          rw [Option.isSome_map]
          exact hc
      exact absurd (hstill.symm.trans hc') (by simp)
    · rw [hlines]
      exact h.tree.change _ push
    · exact covered_change h.covered hc ha
    · rw [hlines, hpushed]
      exact h.owed.change push
    · rw [hlines]
      exact h.waits.change _ push
    · exact h.watching
    · exact h.notices

theorem mem_lines_arrive {fresh : Bool} {item x : Item} (hx : x ∈ lines s) :
    x ∈ lines (s.arrive fresh item) := by
  unfold Thread.arrive lines at *
  cases fresh with
  | true =>
    cases hphase : s.phase with
    | subscribed c connection =>
      simp only [hphase] at hx
      exact List.mem_append_left _ hx
    | toOpen c | opening c entries | serving | window =>
      simp only [hphase] at hx
      exact hx
  | false =>
    cases hphase : s.phase with
    | subscribed c connection =>
      simp only [hphase] at hx
      exact hx
    | toOpen c | opening c entries | serving | window =>
      simp only [hphase] at hx
      cases hsub : s.subscription with
      | none =>
        rw [hsub] at hx
        cases hx
      | some connection =>
        rw [hsub] at hx
        exact List.mem_append_left _ hx

/-- A line that is no push says nothing. -/
theorem Level.arrive (h : Level s) (fresh : Bool) {item : Item} (hi : Item.push? item = none) :
    Level (s.arrive fresh item) := by
  have hlines := pushes_arrive (s := s) fresh item hi
  have hsub : (s.arrive fresh item).subscription.isSome = s.subscription.isSome := by
    cases fresh with
    | true => rfl
    | false => exact Option.isSome_map
  have hphase : (s.arrive fresh item).phase = s.phase ∨ ∃ c connection,
      s.phase = .subscribed c connection ∧
        (s.arrive fresh item).phase = .subscribed c (connection.put item) := by
    cases fresh with
    | false => exact Or.inl rfl
    | true =>
      cases hp : s.phase with
      | subscribed c connection =>
        refine Or.inr ⟨c, connection, rfl, ?_⟩
        show Thread.putFresh item s.phase = _
        rw [hp]
        rfl
      | toOpen c | opening c entries | serving | window =>
        refine Or.inl ?_
        show Thread.putFresh item s.phase = _
        rw [hp]
        rfl
  have hentries : ∀ connection, (s.arrive fresh item).subscription = some connection →
      ∃ old, s.subscription = some old ∧ connection.entries = old.entries := by
    intro connection hconnection
    cases fresh with
    | true => exact ⟨connection, hconnection, rfl⟩
    | false =>
      obtain ⟨old, hold, rfl⟩ := Option.map_eq_some_iff.mp hconnection
      exact ⟨old, hold, rfl⟩
  obtain ⟨hworld, hout, hpushed, hsent, hsuppressed, hsession, hre⟩ :
      (s.arrive fresh item).world = s.world ∧ (s.arrive fresh item).outgoing = s.outgoing ∧
      (s.arrive fresh item).pushed = s.pushed ∧ (s.arrive fresh item).sent = s.sent ∧
      (s.arrive fresh item).suppressed = s.suppressed ∧
      (s.arrive fresh item).session = s.session ∧
      (s.arrive fresh item).resubscribe = s.resubscribe := by
    cases fresh <;> exact ⟨rfl, rfl, rfl, rfl, rfl, rfl, rfl⟩
  constructor
  · intro hc
    rcases hphase with hsame | ⟨c, connection, -, hnext⟩
    · have hc' : s.connected = false := by
        unfold Thread.connected at hc ⊢
        rw [hsame, hsub] at hc
        exact hc
      obtain ⟨hp, hdevice, hheld⟩ := h.fresh hc'
      exact ⟨hsame ▸ hp, hout ▸ hdevice, hsession ▸ hheld⟩
    · unfold Thread.connected at hc
      rw [hnext] at hc
      cases hc
  · rw [hworld, hout]
    exact h.tree.same_pushes hlines
  · have hcovered := h.covered
    unfold Covered at hcovered ⊢
    rw [hworld]
    rcases hphase with hsame | ⟨c, connection, hold, hnext⟩
    · rw [hsame]
      cases hp : s.phase with
      | toOpen c => trivial
      | opening c entries =>
        rw [hp] at hcovered
        exact fun hopen => (hcovered (hsub ▸ hopen)).same_pushes hlines
      | subscribed c connection =>
        rw [hp] at hcovered
        exact hcovered.same_pushes hlines
      | serving | window =>
        rw [hp] at hcovered
        intro connection hconnection
        obtain ⟨old, hold, hentry⟩ := hentries connection hconnection
        rw [hentry, hre]
        exact (hcovered old hold).same_pushes hlines
    · rw [hold] at hcovered
      rw [hnext]
      exact hcovered.same_pushes hlines
  · rw [hpushed, hsent, hsuppressed]
    exact h.owed.other fun n push hmem => mem_lines_arrive hmem
  · rw [hworld, hsession]
    exact h.waits.same_pushes hlines
  · rw [hsession]
    exact h.watching
  · rw [hout, hsent]
    exact h.notices

/-- The entries of a fresh snapshot are all the panes there are. -/
theorem Level.beginOpen {herdr : HerdrCalls} (h : Level s) {c : Cause} (hphase : s.phase = .toOpen c)
    (hok : (herdr.sessionSnapshot s.session.shared.log).isOk = true) :
    Level (s.beginOpen herdr c) := by
  have hentries : currentSubscriptionEntries herdr s.world s.session.shared.log
      = (fun paneId => (s.world.tree.panes paneId).isSome,
        s.session.shared.log ++ [.snapshot true]) := by
    unfold currentSubscriptionEntries fetchTree HerdrCalls.fetchSnapshot
    cases hs : herdr.sessionSnapshot s.session.shared.log with
    | error e =>
      rw [hs] at hok
      cases hok
    | ok raw => rfl
  have hlines : lines (s.beginOpen herdr c) = lines s := by
    unfold lines
    rw [hphase]
    rfl
  have hcalled := h.logged (s.session.shared.log ++ [.snapshot true])
  unfold Thread.beginOpen at hlines ⊢
  rw [hentries] at hlines ⊢
  constructor
  · intro hc
    have hc' : s.connected = false := by
      unfold Thread.connected at hc ⊢
      rw [hphase]
      exact hc
    obtain ⟨hp, hdevice, hheld⟩ := h.fresh hc'
    refine ⟨Or.inr ⟨fun paneId => (s.world.tree.panes paneId).isSome, ?_⟩, hdevice, hheld⟩
    rcases hp with hp | ⟨entries, hp⟩
    · cases hphase.symm.trans hp
      rfl
    · cases hphase.symm.trans hp
  · rw [hlines]
    exact h.tree
  · intro _ paneId hpane
    exact Or.inl hpane
  · rw [hlines]
    exact h.owed
  · rw [hlines]
    exact h.waits
  · exact hcalled.watching
  · exact h.notices

/-- Herdr knows the new connection, and what it pushes from here on goes there. -/
theorem Level.subscribe (h : Level s) {c : Cause} {entries : PaneId → Bool}
    (hphase : s.phase = .opening c entries) (hknown : Known s) :
    Level { s with phase := .subscribed c ⟨entries, []⟩ } := by
  have hread : pushes (lines s) = [] := by
    unfold lines
    rw [hphase]
    cases hsub : s.subscription with
    | none => rfl
    | some old =>
      unfold Known at hknown
      rw [hsub] at hknown
      exact hknown
  have hempty : pushes (lines s) = pushes [] := hread
  constructor
  · intro hc
    cases hc
  · exact h.tree.same_pushes hempty.symm
  · have hcovered := h.covered
    unfold Covered at hcovered
    rw [hphase] at hcovered
    show Covers entries [] false s.world
    cases hsub : s.subscription with
    | none =>
      unfold Known at hknown
      rw [hsub, hphase] at hknown
      exact fun paneId hpane => Or.inl (hknown paneId hpane)
    | some old => exact (hcovered (by rw [hsub]; rfl)).same_pushes hempty.symm
  · refine h.owed.other fun n push hmem => ?_
    have hmem' : push ∈ pushes (lines s) := List.mem_filterMap.mpr ⟨_, hmem, rfl⟩
    rw [hread] at hmem'
    cases hmem'
  · exact h.waits.same_pushes hempty.symm
  · exact h.watching
  · exact h.notices

/-- The old connection goes: its lines are those of the new one. -/
theorem Level.opened (h : Level s) {c : Cause} {connection : Connection}
    (hphase : s.phase = .subscribed c connection) : Level (s.opened connection) := by
  have hlines : lines (s.opened connection) = lines s := by
    unfold lines
    rw [hphase]
    rfl
  constructor
  · intro hc
    cases hc
  · rw [hlines]
    exact h.tree
  · have hcovered := h.covered
    unfold Covered at hcovered
    rw [hphase] at hcovered
    intro connection' hsub
    cases hsub
    rw [hlines]
    intro paneId hpane
    rcases hcovered paneId hpane with hentry | hcreated | hre
    · exact Or.inl hentry
    · exact Or.inr (Or.inl hcreated)
    · cases hre
  · rw [hlines]
    exact h.owed
  · rw [hlines]
    exact h.waits
  · exact h.watching
  · exact h.notices

theorem Level.beginWindow (h : Level s) (hphase : s.phase = .serving)
    (hsub : s.subscription.isSome) : Level { s with phase := .window } := by
  have hlines : lines { s with phase := .window } = lines s := by
    unfold lines
    rw [hphase]
  constructor
  · intro hc
    have hopen : s.subscription.isSome = false := hc
    exact absurd (hsub.symm.trans hopen) (by simp)
  · rw [hlines]
    exact h.tree
  · have hcovered := h.covered
    unfold Covered at hcovered
    rw [hphase] at hcovered
    show ∀ connection, _ → Covers _ (lines { s with phase := .window }) _ _
    rw [hlines]
    exact hcovered
  · rw [hlines]
    exact h.owed
  · rw [hlines]
    exact h.waits
  · exact h.watching
  · exact h.notices

theorem follow_snapshot {herdr : HerdrCalls} {push : Incoming.Push} {log : Log} {tree : TreeSnapshot}
    (h : (follow herdr s.world push log).1 = some tree) : tree = s.world.tree := by
  unfold follow at h
  split at h
  · unfold fetchTree at h
    split at h
    · exact (Option.some.inj h).symm
    · cases h
  · cases h

/-- The status of a line is sent, or it comes within the settle window. -/
theorem notify_sent {herdr : HerdrCalls} {push : Incoming.Push} {log : Log} {paneId : PaneId}
    {status : AgentStatusKind} (hnotable : notable push = some (paneId, status))
    (hdue : (settleAgentStatus paneId s.now s.settled).1 = true)
    (hok : (herdr.sessionSnapshot log).isOk = true) (hpane : (s.world.tree.panes paneId).isSome) :
    ∃ notice, (notify herdr s.world s.now push s.settled log).1 = some notice ∧
      notice.paneId = paneId ∧ notice.status = status := by
  obtain ⟨pane, hp⟩ := Option.isSome_iff_exists.mp hpane
  cases hs : settleAgentStatus paneId s.now s.settled with
  | mk due settled =>
    rw [hs] at hdue
    subst hdue
    cases hraw : herdr.sessionSnapshot log with
    | error e =>
      rw [hraw] at hok
      cases hok
    | ok raw =>
      simp only [notify, hnotable, hs, fetchTree, HerdrCalls.fetchSnapshot, hraw, Option.bind_some,
        agentStatusOf, hp, Option.map_some]
      refine ⟨_, rfl, ?_, ?_⟩ <;> rfl

theorem Level.popped (h : Level s) (hphase : s.phase = .window) {connection : Connection}
    {rest : List Item} {item : Item} (hi : Item.push? item = none)
    (hsub : s.subscription = some connection) (hitems : connection.items = item :: rest) :
    Level (s.popped rest) := by
  have hnext : (s.popped rest).phase = .window := hphase
  have hlines : lines s = item :: rest := by
    rw [lines_serving (Or.inr hphase), hsub]
    exact hitems
  have hlines' : lines (s.popped rest) = rest := by
    rw [lines_serving (Or.inr hnext)]
    show ((s.subscription.map _).map _).getD [] = rest
    rw [hsub]
    rfl
  have hpushes : pushes rest = pushes (lines s) := by
    rw [hlines, pushes_other hi]
  constructor
  · intro hc
    have hopen : (s.subscription.map fun c => { c with items := rest }).isSome = false := by
      unfold Thread.connected at hc
      rw [hnext] at hc
      exact hc
    rw [Option.isSome_map, hsub] at hopen
    cases hopen
  · rw [hlines']
    exact h.tree.same_pushes hpushes
  · have hcovered := h.covered
    unfold Covered at hcovered ⊢
    rw [hphase] at hcovered
    rw [hnext, hlines']
    intro connection' hsub'
    obtain ⟨old, hold, rfl⟩ := Option.map_eq_some_iff.mp hsub'
    exact (hcovered old hold).same_pushes hpushes
  · rw [hlines']
    refine h.owed.other fun n push hmem => ?_
    rw [hlines] at hmem
    rcases List.mem_cons.mp hmem with rfl | hmem
    · cases hi
    · exact hmem
  · rw [hlines']
    exact h.waits.same_pushes hpushes
  · exact h.watching
  · exact h.notices

section Windows

variable [DecidableEq Hash] {joins : Graphemes} {herdr : HerdrCalls} {frameHash : FrameHash Hash}

theorem Level.endWindow (h : Level s) (hphase : s.phase = .window)
    (hsub : s.subscription.isSome) :
    Level { s with
      session := Thread.drain joins herdr frameHash s.session
      phase := if s.resubscribe then .toOpen .created else .serving
      resubscribe := false } := by
  have hlines : lines { s with
      session := Thread.drain joins herdr frameHash s.session
      phase := if s.resubscribe then .toOpen .created else .serving
      resubscribe := false } = lines s := by
    unfold lines
    rw [hphase]
    cases s.resubscribe <;> rfl
  constructor
  · intro hc
    have hopen : s.subscription.isSome = false := by
      unfold Thread.connected at hc
      cases hre : s.resubscribe <;> simpa [hre] using hc
    exact absurd (hsub.symm.trans hopen) (by simp)
  · rw [hlines]
    exact h.tree
  · have hcovered := h.covered
    unfold Covered at hcovered ⊢
    rw [hphase] at hcovered
    rw [hlines]
    cases hre : s.resubscribe with
    | true => trivial
    | false =>
      rw [hre] at hcovered
      exact hcovered
  · rw [hlines]
    exact h.owed
  · rw [hlines]
    exact h.waits.step fun p hp => Or.inl hp
  · show Watching (Thread.drain joins herdr frameHash s.session).bridge
    exact drain_watching h.watching
  · exact h.notices

theorem told_pending {push : Incoming.Push} {p : PendingInput Session.Ticket}
    (hp : (s.told joins herdr frameHash push).bridge.pendingInput = some p) :
    s.session.bridge.pendingInput = some p ∨ s.world.working p.paneId = true := by
  unfold Thread.told at hp
  split at hp
  · exact act_pending _ hp
  · exact Or.inl hp

theorem told_watching {push : Incoming.Push} (h : Watching s.session.bridge) :
    Watching (s.told joins herdr frameHash push).bridge := by
  unfold Thread.told
  split
  · exact watching_step h _
  · exact h

/-- The line after which an agent may have left ends the wait of its submit. -/
theorem told_leaves {push : Incoming.Push} {p : PendingInput Session.Ticket}
    (hw : Watching s.session.bridge) (ha : Answered joins herdr frameHash s push)
    (hp : (s.told joins herdr frameHash push).bridge.pendingInput = some p)
    (hleaves : Leaves p.paneId push) : s.world.working p.paneId = true := by
  rcases told_pending hp with hold | hworking
  · have hended : ∀ e, EndsWait p.paneId e →
        (s.act joins herdr frameHash e).bridge.pendingInput = some p → False := by
      intro e he hstill
      have hnone : (s.act joins herdr frameHash e).bridge.pendingInput = none :=
        pending_after_end hw hold he
      exact absurd (hnone.symm.trans hstill) (by simp)
    unfold Thread.told Push.forBridge at hp
    cases hleaves with
    | status status hevent hid hstatus hne =>
      simp only [hevent, hid, hstatus] at hp
      exact (hended _ (.status s.now status hne) hp).elim
    | closed hevent hid =>
      simp only [hevent, hid] at hp
      exact (hended _ (.closed s.now) hp).elim
    | around hevent => exact ha.around hevent p hold
  · exact hworking

theorem noticeOf_messages (push : Incoming.Push) (notice : Option AgentStatus)
    (tree : Option TreeSnapshot) :
    (messagesOf push notice tree).filterMap noticeOf = notice.toList := by
  cases notice <;> cases tree <;> rfl

theorem Level.heard (h : Level s) (hphase : s.phase = .window) {connection : Connection}
    {rest : List Item} {number : Nat} {push : Incoming.Push}
    (hsub : s.subscription = some connection) (hitems : connection.items = .push number push :: rest)
    (ha : Answered joins herdr frameHash s push) :
    Level (s.heard joins herdr frameHash rest number push) := by
  have hlines : lines s = .push number push :: rest := by
    rw [lines_serving (Or.inr hphase), hsub]
    exact hitems
  have hlines' : lines (s.heard joins herdr frameHash rest number push) = rest := by
    have hnext : (s.heard joins herdr frameHash rest number push).phase = .window := hphase
    rw [lines_serving (Or.inr hnext)]
    show ((s.subscription.map _).map _).getD [] = rest
    rw [hsub]
    rfl
  constructor
  · intro hc
    have hopen : (s.subscription.map fun c => { c with items := rest }).isSome = false := by
      unfold Thread.connected at hc
      have hnext : (s.heard joins herdr frameHash rest number push).phase = .window := hphase
      rw [hnext] at hc
      exact hc
    rw [Option.isSome_map, hsub] at hopen
    cases hopen
  · rw [hlines']
    have htree := h.tree
    rw [hlines] at htree
    exact htree.hear _ fun _ hs => follow_snapshot hs
  · have hcovered := h.covered
    unfold Covered at hcovered ⊢
    have hnext : (s.heard joins herdr frameHash rest number push).phase = .window := hphase
    rw [hphase] at hcovered
    rw [hnext, hlines']
    intro connection' hsub'
    obtain ⟨old, hold, rfl⟩ := Option.map_eq_some_iff.mp hsub'
    have hold' := hcovered old hold
    rw [hlines] at hold'
    exact hold'.hear
  · have howed := h.owed
    rw [hlines] at howed
    rw [hlines']
    refine howed.hear (fun x hx => List.mem_append_left _ hx) ?_ ?_
    · intro n hn
      show n ∈ (if _ then s.suppressed ++ [number] else s.suppressed)
      split
      · exact List.mem_append_left _ hn
      · exact hn
    · intro paneId status hnotable
      cases hdue : (settleAgentStatus paneId s.now s.settled).1 with
      | false =>
        refine Or.inl ?_
        show number ∈ (if _ then s.suppressed ++ [number] else s.suppressed)
        rw [if_pos (by simp [hnotable, hdue])]
        exact List.mem_append_right _ (List.mem_singleton.mpr rfl)
      | true =>
        obtain ⟨hok, hpane⟩ := ha.notice paneId status hnotable hdue
        obtain ⟨notice, hnotice, hfields⟩ := notify_sent hnotable hdue hok hpane
        refine Or.inr ⟨notice, List.mem_append_right _ ?_, hfields⟩
        show _ ∈ ((notify herdr s.world s.now push s.settled _).1.map _).toList
        rw [hnotice]
        exact List.mem_singleton.mpr rfl
  · have hwaits := h.waits
    rw [hlines] at hwaits
    rw [hlines']
    exact hwaits.hear (fun p hp => told_pending hp) fun p hp hl => told_leaves h.watching ha hp hl
  · exact told_watching h.watching
  · show (s.outgoing ++ messagesOf push _ _).filterMap noticeOf = (s.sent ++ _).map Prod.snd
    rw [List.filterMap_append, noticeOf_messages, h.notices, List.map_append]
    congr 1
    have hown : ∀ notice : Option AgentStatus,
        notice.toList = ((notice.map fun notice => (number, notice)).toList).map Prod.snd := by
      intro notice
      cases notice <;> rfl
    exact hown _

end Windows

section Switch

open HerdrMobile.Host.Reopen

def paneP (revision : Nat) : PaneSummary :=
  ⟨['p'], ['w'], ['t'], ['x'], [], [], [], true, none, [], revision, 24⟩

def created : Incoming.Push :=
  { event := .paneCreated
    pane := some ⟨['q'], ['w'], ['t'], ['y'], [], [], [], false, none, [], 1, 24⟩ }

def changed : Incoming.Push := { event := .paneUpdated, pane := some (paneP 2) }

end Switch

end HerdrMobile.Host.Resubscribe
