import HerdrMobile.Host.Subscription

/-!
# A subscription that is lost

What R-10-014 asks of a session whose subscription breaks, and when the bridge thread does
it: only in the runs in which no subscription ever breaks. Once one is lost the thread
makes no try of its own, and the one that a `watch_pane` leads to resynchronises nothing.
-/
namespace HerdrMobile.Host.Reopen

open HerdrMobile.Lib.Run HerdrMobile.Proto.Messages HerdrMobile.Proto.Tree
open HerdrMobile.Host.Herdr HerdrMobile.Host.Scheduler HerdrMobile.Host.Input HerdrMobile.Host.Held
open HerdrMobile.Host.Watch HerdrMobile.Host.Incoming HerdrMobile.Host.Subscription

set_option autoImplicit false

variable {Hash Corr : Type}

/-- The width of a pane that was watched at another height is read again. -/
def widthAt (herdr : HerdrCalls) (rows : Nat) (watched : WatchedPane Hash) (log : Log) :
    Except WatchError Nat × Log :=
  if rows ≠ watched.viewportRows then herdr.fetchWidth watched.paneId log
  else (.ok watched.width, log)

/-- R-10-035, R-11-200. A pane that is gone is no longer watched, and one whose revision
has not moved sends nothing. -/
def resynchronize (herdr : HerdrCalls) (frameHash : FrameHash Hash) (b : Bridge Hash Corr)
    (m : Shared) : Except WatchError (List Message) × Bridge Hash Corr × Shared :=
  match b.watched with
  | none => (.ok [], b, m)
  | some watched =>
    match herdr.fetchSnapshot m.log with
    | (.error e, log) => (.error e, b, { m with log := log })
    | (.ok raw, log) =>
      match raw.panes.find? fun p => p.paneId == watched.paneId with
      | none =>
        (.ok [.treeUpdate ⟨.paneClosed, none, none, none⟩],
          { b with watched := none, scheduler := none }, { m with log := log })
      | some pane =>
        if pane.revision = watched.lastRevision then (.ok [], b, { m with log := log })
        else
          let rows := pane.scroll.viewportRows
          match widthAt herdr rows watched log with
          | (.error e, log) => (.error e, b, { m with log := log })
          | (.ok width, log) =>
            match herdr.fetchVisibleText watched.paneId log with
            | (.error e, log) => (.error e, b, { m with log := log })
            | (.ok text, log) =>
              (.ok [.paneFrame ⟨watched.paneId, pane.revision, rows, width, text⟩],
                { b with
                  watched := some
                    { watched with
                      lastRevision := pane.revision
                      viewportRows := rows
                      width := width
                      lastFrameHash := frameHash text rows width } },
                { m with log := log })

theorem widthAt_calls (herdr : HerdrCalls) (rows : Nat) (watched : WatchedPane Hash) (log : Log) :
    log.length ≤ (widthAt herdr rows watched log).2.length := by
  unfold widthAt
  split
  · simp [HerdrCalls.fetchWidth]
  · exact Nat.le_refl _

theorem fetchVisibleText_calls (herdr : HerdrCalls) (paneId : PaneId) (log : Log) :
    log.length ≤ (herdr.fetchVisibleText paneId log).2.length := by
  unfold HerdrCalls.fetchVisibleText
  simp

/-- A watched pane costs at least one call. -/
theorem resynchronize_calls {herdr : HerdrCalls} {frameHash : FrameHash Hash}
    {b : Bridge Hash Corr} {m : Shared} (h : b.watched.isSome) :
    m.log.length < (resynchronize herdr frameHash b m).2.2.log.length := by
  obtain ⟨watched, hw⟩ := Option.isSome_iff_exists.mp h
  unfold resynchronize
  simp only [hw]
  cases hs : herdr.sessionSnapshot m.log with
  | error e => simp [HerdrCalls.fetchSnapshot, hs]
  | ok raw =>
    simp only [HerdrCalls.fetchSnapshot, hs]
    cases raw.panes.find? fun p => p.paneId == watched.paneId with
    | none => simp
    | some pane =>
      have hwidth := widthAt_calls herdr pane.scroll.viewportRows watched
        (m.log ++ [.snapshot (.ok raw : Except WatchError RawSnapshot).isOk])
      simp only [List.length_append, List.length_singleton] at hwidth
      simp only []
      split
      · simp
      · split
        · rename_i hres
          rw [hres] at hwidth
          exact hwidth
        · rename_i width log hres
          rw [hres] at hwidth
          have hread := fetchVisibleText_calls herdr watched.paneId log
          split
          · rename_i hres
            rw [hres] at hread
            exact Nat.lt_of_lt_of_le hwidth hread
          · rename_i hres
            rw [hres] at hread
            exact Nat.lt_of_lt_of_le hwidth hread

/-- R-10-014: the wait before a try, doubled after each failure up to a cap. -/
def backoff (n : Nat) : Nat := millis (min (250 * 2 ^ n) 8000)

theorem backoff_le (n : Nat) : backoff n ≤ millis 8000 := by
  show min (250 * 2 ^ n) 8000 * 1000000 ≤ 8000 * 1000000
  omega

/-- Up to the jitter of a fifth. -/
def OnTime (n wait : Nat) : Prop := 4 * backoff n ≤ 5 * wait ∧ 5 * wait ≤ 6 * backoff n

/-- The waits so far were those of the schedule from the wait `n` on, and the one that
goes on is not over. -/
structure OnSchedule (n : Nat) (waits : List Nat) (waiting : Nat) : Prop where
  before : ∀ (i : Nat) (hi : i < waits.length), OnTime (n + i) waits[i]
  now : 5 * waiting ≤ 6 * backoff (n + waits.length)

/-- One turn of the thread's loop while no subscription is open, and one window. -/
def loopTurn : Nat := millis 250

/-- Why the connection of a phase is opened. -/
def cause : Phase → Option Cause
  | .toOpen c => some c
  | .opening c _ => some c
  | .subscribed c _ => some c
  | .serving | .window => none

/-- The thread tries to open a subscription that no request asked for. -/
def trying (s : Thread Hash) : Prop := cause s.phase = some .start ∨ cause s.phase = some .created

def received (s : Thread Hash) : Option Item := s.subscription.bind fun c => c.items.head?

/-- What the resynchronisation makes of the session, and the messages it sends. -/
structure Resynchronized (herdr : HerdrCalls) (frameHash : FrameHash Hash) (s t : Thread Hash) :
    Prop where
  bridge : t.session.bridge =
    (resynchronize (herdrNow herdr s.world) frameHash s.session.bridge s.session.shared).2.1
  shared : t.session.shared =
    (resynchronize (herdrNow herdr s.world) frameHash s.session.bridge s.session.shared).2.2
  sent : ∀ messages,
    (resynchronize (herdrNow herdr s.world) frameHash s.session.bridge s.session.shared).1
      = .ok messages → t.outgoing = s.outgoing ++ messages

/-- R-10-014 over a run. While no subscription is open the thread tries on its own by the
schedule and serves the poll timer of the watched pane; a line that does not parse is
followed by an open subscription; and what opens one again resynchronises. -/
structure Recovers [DecidableEq Hash] (joins : Graphemes) (herdr : HerdrCalls)
    (frameHash : FrameHash Hash) {s₀ : Thread Hash}
    (r : Endless (Thread.step joins herdr frameHash) s₀) : Prop where
  schedule : ∀ k t, (r.state k).lostAt = some t → ¬ trying (r.state k) →
    ∃ n, OnSchedule n (r.state k).waits ((r.state k).now - t)
  polls : ∀ k, (r.state k).lostAt.isSome →
    ∀ d, ((r.state k).session.bridge.scheduler.bind PaneScheduler.nextDeadline) = some d →
      (r.state k).now ≤ d + loopTurn
  malformed : ∀ k, r.event k = .receive → received (r.state k) = some .malformed →
    ∃ n, k < n ∧ (r.state n).subscription.isSome
  resynchronizes : ∀ k, (r.state k).lostAt.isSome → (r.state (k + 1)).lostAt = none →
    Resynchronized herdr frameHash (r.state k) (r.state (k + 1))

/-- No try to open a subscription fails, and none that is open breaks. -/
def unbroken (s : Thread Hash) : Event → Bool
  | .subscribe ok | .acknowledge ok => ok
  | .receive =>
    match received s with
    | some .malformed | some .failed | some .ended => false
    | _ => true
  | _ => true

/-- What comes of a step, with whether it is `unbroken`. -/
inductive Turn (s : Thread Hash) : Bool → Thread Hash → Prop where
  | stays {t : Thread Hash} (hlost : t.lostAt = s.lostAt) (hwaits : t.waits = s.waits)
    (hsub : t.subscription.isSome = s.subscription.isSome)
    (hcause : ∀ c, cause t.phase = some c →
      cause s.phase = some c ∧ t.session.bridge.watched = s.session.bridge.watched ∨
      c = .watch ∧ t.session.bridge.watched.isSome ∨ c = .created ∧ s.phase = .window)
    (hwindow : t.phase = .window → s.phase = .window ∨ s.subscription.isSome) : Turn s true t
  | begins {t : Thread Hash} (c : Cause) (hphase : cause s.phase = some c)
    (hcause : cause t.phase = some c) (hlost : t.lostAt = s.lostAt)
    (hwaits : t.waits =
      if c = .watch then s.waits else s.waits ++ (s.lostAt.map (s.now - ·)).toList)
    (hsub : t.subscription = s.subscription)
    (hbridge : t.session.bridge = s.session.bridge) : Turn s true t
  | opens {t : Thread Hash} (c : Cause) (hphase : cause s.phase = some c)
    (hserving : t.phase = .serving) (hlost : t.lostAt = none) (hwaits : t.waits = [])
    (hsession : t.session = s.session) : Turn s true t
  | fails {t : Thread Hash} (c : Cause) (hphase : cause s.phase = some c)
    (hserving : t.phase = .serving)
    (hlost : t.lostAt = if c = .watch then s.lostAt.or (some s.now) else some s.now)
    (hwaits : t.waits = s.waits) (hsub : t.subscription = none) : Turn s false t
  | breaks {t : Thread Hash} (hphase : s.phase = .window) (hopen : s.subscription.isSome)
    (hserving : t.phase = .serving) (hlost : t.lostAt = some s.now) (hwaits : t.waits = s.waits)
    (hsub : t.subscription = none) : Turn s false t

variable {herdr : HerdrCalls} {frameHash : FrameHash Hash} {s t : Thread Hash} {e : Event}

theorem cause_putFresh (item : Item) (phase : Phase) :
    cause (Thread.putFresh item phase) = cause phase := by
  cases phase <;> rfl

theorem putFresh_window {item : Item} {phase : Phase}
    (h : Thread.putFresh item phase = .window) : phase = .window := by
  cases phase with
  | window => rfl
  | toOpen c => cases h
  | opening c entries => cases h
  | subscribed c connection => cases h
  | serving => cases h

/-- A step that keeps the phase and the subscription. -/
theorem turn_same (hphase : t.phase = s.phase) (hlost : t.lostAt = s.lostAt)
    (hwaits : t.waits = s.waits) (hsub : t.subscription.isSome = s.subscription.isSome)
    (hwatched : cause s.phase ≠ none → t.session.bridge.watched = s.session.bridge.watched) :
    Turn s true t := by
  refine .stays hlost hwaits hsub (fun c hc => Or.inl ?_) (fun hw => Or.inl (hphase ▸ hw))
  rw [hphase] at hc
  exact ⟨hc, hwatched (by rw [hc]; exact Option.some_ne_none c)⟩

/-- A step to a phase in which nothing is opened. -/
theorem turn_idle (hphase : cause t.phase = none) (hlost : t.lostAt = s.lostAt)
    (hwaits : t.waits = s.waits) (hsub : t.subscription.isSome = s.subscription.isSome)
    (hwindow : t.phase = .window → s.phase = .window ∨ s.subscription.isSome) :
    Turn s true t := by
  refine .stays hlost hwaits hsub (fun c hc => ?_) hwindow
  rw [hphase] at hc
  cases hc

/-- A pane that could be watched is watched. -/
theorem watched_of_ok {b b' : Bridge Hash Corr} {m m' : Shared} {paneId : PaneId} {now : Nat}
    {result : Except WatchError (WatchAck × PaneFrame)}
    (h : Watch.watchPane herdr frameHash now paneId b m = (result, b', m'))
    (hok : result.isOk = true) : b'.watched.isSome := by
  cases watchPane_cases h with
  | failed => cases hok
  | read ack pane width text hb _ =>
    rw [hb]
    rfl

section Steps

variable [DecidableEq Hash] {joins : Graphemes}

theorem turn_watch (paneId : PaneId) (hphase : s.phase = .serving) :
    Turn s true (s.serve joins herdr frameHash (.watchPane paneId)) := by
  generalize hw : Watch.watchPane (herdrNow herdr s.world) frameHash s.now paneId
    s.session.bridge s.session.shared = out
  obtain ⟨result, b', m'⟩ := out
  have hbridge : (s.act joins herdr frameHash (.watchPane s.now paneId)).bridge = b' := by
    show (Watch.watchPane _ _ _ _ _ _).2.1 = b'
    rw [hw]
  have hnext : (s.serve joins herdr frameHash (.watchPane paneId)).phase
      = if result.isOk ∧ s.subscription.isNone then .toOpen .watch else s.phase := by
    show (if (Watch.watchPane _ _ _ _ _ _).1.isOk = true ∧ _ then _ else _) = _
    rw [hw]
  by_cases hopen : result.isOk ∧ s.subscription.isNone
  · rw [if_pos hopen] at hnext
    have hwatched : b'.watched.isSome := watched_of_ok hw hopen.1
    refine .stays rfl rfl rfl (fun c hc => ?_) (fun hwin => ?_)
    · rw [hnext] at hc
      cases hc
      refine Or.inr (Or.inl ⟨rfl, ?_⟩)
      show (s.act joins herdr frameHash (.watchPane s.now paneId)).bridge.watched.isSome
      rw [hbridge]
      exact hwatched
    · rw [hnext] at hwin
      cases hwin
  · rw [if_neg hopen] at hnext
    have hidle : cause (s.serve joins herdr frameHash (.watchPane paneId)).phase = none := by
      rw [hnext, hphase]
      rfl
    refine turn_idle hidle rfl rfl rfl (fun hwin => ?_)
    rw [hnext] at hwin
    exact Or.inl hwin

theorem turn_serve (request : Request) (hphase : s.phase = .serving) :
    Turn s true (s.serve joins herdr frameHash request) := by
  have hidle : cause s.phase = none := by
    rw [hphase]
    rfl
  cases request with
  | tree => exact turn_idle hidle rfl rfl rfl Or.inl
  | watchPane paneId => exact turn_watch paneId hphase
  | unwatchPane paneId => exact turn_idle hidle rfl rfl rfl Or.inl
  | input request corr => exact turn_idle hidle rfl rfl rfl Or.inl
  | cancelPending => exact turn_idle hidle rfl rfl rfl Or.inl

theorem turn_receive (h : s.step joins herdr frameHash .receive = some t) :
    Turn s (unbroken s .receive) t := by
  simp only [Thread.step] at h
  cases hphase : s.phase with
  | toOpen c | opening c entries | subscribed c connection | serving => simp [hphase] at h
  | window =>
    have hidle : cause s.phase = none := by
      rw [hphase]
      rfl
    cases hsub : s.subscription with
    | none => simp [hphase, hsub] at h
    | some connection =>
      obtain ⟨entries, items⟩ := connection
      cases items with
      | nil => simp [hphase, hsub] at h
      | cons item rest =>
        have hopen : s.subscription.isSome := by
          rw [hsub]
          rfl
        have hreceived : received s = some item := by
          show (s.subscription.bind _) = _
          rw [hsub]
          rfl
        cases item with
        | push number push =>
          simp only [hphase, hsub, Option.map_some, Option.some.injEq] at h
          subst h
          simp only [unbroken, hreceived]
          exact turn_idle hidle rfl rfl (by simp [Thread.heard]) Or.inl
        | other =>
          simp only [hphase, hsub, Option.map_some, Option.some.injEq] at h
          subst h
          simp only [unbroken, hreceived]
          exact turn_idle hidle rfl rfl Option.isSome_map Or.inl
        | malformed | failed | ended =>
          simp only [hphase, hsub, Option.map_some, Option.some.injEq] at h
          subst h
          simp only [unbroken, hreceived]
          exact .breaks hphase hopen rfl rfl rfl rfl

theorem step_turn (h : s.step joins herdr frameHash e = some t) : Turn s (unbroken s e) t := by
  cases e with
  | advance time =>
    cases h
    exact turn_same rfl rfl rfl rfl fun _ => rfl
  | change push =>
    simp only [Thread.step] at h
    split at h
    · cases h
      refine .stays rfl rfl (Option.isSome_map) (fun c hc => Or.inl ?_) (fun hw => Or.inl ?_)
      · exact ⟨(cause_putFresh _ s.phase) ▸ hc, rfl⟩
      · exact putFresh_window hw
    · cases h
  | arrive fresh item =>
    have ht : t = s.arrive fresh item := by
      cases item <;> cases h <;> rfl
    subst ht
    show Turn s true _
    cases fresh with
    | true =>
      refine .stays rfl rfl rfl (fun c hc => Or.inl ?_) (fun hw => Or.inl ?_)
      · exact ⟨(cause_putFresh _ s.phase) ▸ hc, rfl⟩
      · exact putFresh_window hw
    | false => exact turn_same rfl rfl rfl Option.isSome_map fun _ => rfl
  | outside event =>
    cases event with
    | inactive | others lines calls =>
      cases h
      exact turn_same rfl rfl rfl rfl fun _ => rfl
    | input now request corr | watchPane now paneId | unwatchPane paneId | push now push
    | poll now | drain | cancelPending => cases h
  | «open» =>
    simp only [Thread.step] at h
    split at h
    · rename_i c hphase
      cases h
      exact .begins c (by rw [hphase]; rfl) rfl rfl rfl rfl rfl
    · cases h
  | subscribe ok =>
    simp only [Thread.step] at h
    split at h
    · rename_i c entries hphase
      cases h
      cases ok with
      | true =>
        refine .stays rfl rfl rfl (fun c' hc => Or.inl ?_) (fun hw => by cases hw)
        rw [hphase]
        exact ⟨hc, rfl⟩
      | false => exact .fails c (by rw [hphase]; rfl) rfl rfl rfl rfl
    · cases h
  | acknowledge ok =>
    simp only [Thread.step] at h
    split at h
    · rename_i c connection hphase
      cases h
      cases ok with
      | true => exact .opens c (by rw [hphase]; rfl) rfl rfl rfl rfl
      | false => exact .fails c (by rw [hphase]; rfl) rfl rfl rfl rfl
    · cases h
  | request request =>
    simp only [Thread.step] at h
    split at h
    · rename_i hphase
      cases h
      exact turn_serve request hphase
    · cases h
  | beginWindow =>
    simp only [Thread.step] at h
    split at h
    · rename_i hphase hsub
      cases h
      refine turn_idle rfl rfl rfl rfl fun _ => Or.inr ?_
      rw [hsub]
      rfl
    · cases h
  | receive => exact turn_receive h
  | poll =>
    simp only [Thread.step] at h
    split at h
    · rename_i hphase
      cases h
      exact turn_idle (by rw [hphase]; rfl) rfl rfl rfl Or.inl
    · cases h
  | endWindow =>
    simp only [Thread.step] at h
    split at h
    · rename_i hphase
      cases h
      refine .stays rfl rfl rfl (fun c hc => Or.inr (Or.inr ⟨?_, hphase⟩)) (fun _ => Or.inl hphase)
      by_cases hre : s.resubscribe = true
      · simp only [hre, if_true] at hc
        exact (Option.some.inj hc).symm
      · simp only [hre] at hc
        cases hc
    · cases h

theorem step_now (h : s.step joins herdr frameHash e = some t) : s.now ≤ t.now := by
  cases e with
  | advance time =>
    cases h
    exact Nat.le_add_right s.now time
  | change push =>
    simp only [Thread.step] at h
    split at h
    · cases h
      exact Nat.le_refl _
    · cases h
  | arrive fresh item =>
    have ht : t = s.arrive fresh item := by
      cases item <;> cases h <;> rfl
    subst ht
    cases fresh <;> exact Nat.le_refl _
  | outside event =>
    cases event <;> cases h <;> exact Nat.le_refl _
  | subscribe ok | acknowledge ok =>
    simp only [Thread.step] at h
    split at h
    · cases h
      cases ok <;> exact Nat.le_refl _
    · cases h
  | request request =>
    simp only [Thread.step] at h
    split at h
    · cases h
      cases request <;> exact Nat.le_refl _
    · cases h
  | «open» | beginWindow | receive | poll | endWindow =>
    simp only [Thread.step] at h
    split at h <;> cases h <;> exact Nat.le_refl _

end Steps

/-- The thread opens a subscription on its own only at the start and in place of one that
is open. -/
structure Settled (s : Thread Hash) : Prop where
  lost : s.lostAt.isSome → s.subscription.isSome = false
  waits : s.waits = []
  window : s.phase = .window → s.subscription.isSome
  start : cause s.phase = some .start → s.lostAt = none
  created : cause s.phase = some .created → s.subscription.isSome
  watch : cause s.phase = some .watch → s.session.bridge.watched.isSome

theorem settled_start (config : RelayConfig) (w : World) :
    Settled (Thread.start config w : Thread Hash) where
  lost h := by cases h
  waits := rfl
  window h := by cases h
  start _ := rfl
  created h := by cases h
  watch h := by cases h

theorem not_lost (hs : Settled s) (h : s.subscription.isSome) : s.lostAt = none := by
  cases hl : s.lostAt with
  | none => rfl
  | some x =>
    have hgone := hs.lost (by rw [hl]; rfl)
    rw [h] at hgone
    cases hgone

theorem Settled.turn {ok : Bool} (hs : Settled s) (h : Turn s ok t) : Settled t := by
  cases h with
  | stays hlost hwaits hsub hcause hwindow =>
    constructor
    · rw [hlost, hsub]
      exact hs.lost
    · rw [hwaits, hs.waits]
    · intro hw
      rw [hsub]
      exact (hwindow hw).elim hs.window id
    · intro hc
      rw [hlost]
      rcases hcause _ hc with ⟨hsame, _⟩ | ⟨hw, _⟩ | ⟨hw, _⟩
      · exact hs.start hsame
      · cases hw
      · cases hw
    · intro hc
      rw [hsub]
      rcases hcause _ hc with ⟨hsame, _⟩ | ⟨hw, _⟩ | ⟨_, hw⟩
      · exact hs.created hsame
      · cases hw
      · exact hs.window hw
    · intro hc
      rcases hcause _ hc with ⟨hsame, hwatched⟩ | ⟨_, hwatched⟩ | ⟨hw, _⟩
      · rw [hwatched]
        exact hs.watch hsame
      · exact hwatched
      · cases hw
  | begins c hphase hcause hlost hwaits hsub hbridge =>
    have hnone : c ≠ .watch → s.lostAt = none := by
      intro hne
      cases c with
      | start => exact hs.start hphase
      | watch => exact absurd rfl hne
      | created => exact not_lost hs (hs.created hphase)
    constructor
    · rw [hlost, hsub]
      exact hs.lost
    · rw [hwaits, hs.waits]
      split
      · rfl
      · rename_i hne
        rw [hnone hne]
        rfl
    · intro hw
      rw [hw] at hcause
      cases hcause
    · intro hc
      rw [hlost]
      exact hs.start (hphase.trans (hcause.symm.trans hc))
    · intro hc
      rw [hsub]
      exact hs.created (hphase.trans (hcause.symm.trans hc))
    · intro hc
      rw [hbridge]
      exact hs.watch (hphase.trans (hcause.symm.trans hc))
  | opens c hphase hserving hlost hwaits hsession =>
    constructor <;> simp [hlost, hwaits, hserving, cause]
  | fails c hphase hserving hlost hwaits hsub =>
    constructor <;> simp [hwaits, hserving, hsub, hs.waits, cause]
  | breaks hphase hopen hserving hlost hwaits hsub =>
    constructor <;> simp [hwaits, hserving, hsub, hs.waits, cause]

/-- A step that is not unbroken leaves no subscription behind. -/
theorem lost_of_broken (h : Turn s false t) : t.lostAt.isSome := by
  cases h with
  | fails c hphase hserving hlost hwaits hsub =>
    rw [hlost]
    cases c <;> simp
  | breaks hphase hopen hserving hlost hwaits hsub =>
    rw [hlost]
    rfl

theorem kept_of_unbroken (h : Turn s true t) (hkept : s.lostAt = none) : t.lostAt = none := by
  cases h with
  | stays hlost hwaits hsub hcause hwindow => exact hlost.trans hkept
  | begins c hphase hcause hlost hwaits hsub hbridge => exact hlost.trans hkept
  | opens c hphase hserving hlost hwaits hsession => exact hlost

/-- What a step makes of a loss: nothing, or a request to watch a pane has opened the
subscription again. -/
theorem lost_turn {ok : Bool} {x : Nat} (hs : Settled s) (hx : s.lostAt = some x)
    (h : Turn s ok t) :
    t.lostAt = some x ∨
      t.lostAt = none ∧ t.session = s.session ∧ s.session.bridge.watched.isSome := by
  have hgone : s.subscription.isSome = false := hs.lost (by rw [hx]; rfl)
  have hwatch : ∀ c, cause s.phase = some c → c = .watch := by
    intro c hc
    cases c with
    | start => exact absurd (hx.symm.trans (hs.start hc)) (Option.some_ne_none x)
    | watch => rfl
    | created => exact absurd (hgone.symm.trans (hs.created hc)) Bool.false_ne_true
  cases h with
  | stays hlost hwaits hsub hcause hwindow => exact Or.inl (hlost.trans hx)
  | begins c hphase hcause hlost hwaits hsub hbridge => exact Or.inl (hlost.trans hx)
  | opens c hphase hserving hlost hwaits hsession =>
    cases hwatch c hphase
    exact Or.inr ⟨hlost, hsession, hs.watch hphase⟩
  | fails c hphase hserving hlost hwaits hsub =>
    cases hwatch c hphase
    rw [if_pos rfl, hx] at hlost
    exact Or.inl hlost
  | breaks hphase hopen hserving hlost hwaits hsub =>
    exact absurd (hgone.symm.trans hopen) Bool.false_ne_true

/-- Nothing that leaves the session as it is has resynchronised a watched pane. -/
theorem not_resynchronized (hsame : t.session = s.session)
    (hwatched : s.session.bridge.watched.isSome) : ¬ Resynchronized herdr frameHash s t := by
  intro h
  have hcalls : s.session.shared.log.length < (resynchronize (herdrNow herdr s.world) frameHash
      s.session.bridge s.session.shared).2.2.log.length := resynchronize_calls hwatched
  rw [← h.shared, hsame] at hcalls
  exact Nat.lt_irrefl _ hcalls

section Runs

variable [DecidableEq Hash] {joins : Graphemes} {s₀ : Thread Hash}
  (r : Endless (Thread.step joins herdr frameHash) s₀)

include r

theorem settled_run (h₀ : Settled s₀) (k : Nat) : Settled (r.state k) :=
  r.invariant Settled h₀ (fun hs h => hs.turn (step_turn h)) k

theorem now_run {k n : Nat} (h : k ≤ n) : (r.state k).now ≤ (r.state n).now := by
  apply r.stays (fun s => (r.state k).now ≤ s.now) (Nat.le_refl _) ?_ h
  intro m _ hm
  exact Nat.le_trans hm (step_now (r.next m))

theorem unbroken_run (h₀ : s₀.lostAt = none)
    (hkept : ∀ k, unbroken (r.state k) (r.event k) = true) (k : Nat) :
    (r.state k).lostAt = none := by
  induction k with
  | zero =>
    rw [r.start]
    exact h₀
  | succ k ih =>
    have hturn := step_turn (r.next k)
    rw [hkept k] at hturn
    exact kept_of_unbroken hturn ih

/-- Where what opens a subscription again resynchronises, none is opened again. -/
theorem lost_run (h₀ : Settled s₀) (hrecovers : Recovers joins herdr frameHash r) {k n x : Nat}
    (hx : (r.state k).lostAt = some x) (hn : k ≤ n) : (r.state n).lostAt = some x := by
  apply r.stays (fun s => s.lostAt = some x) hx ?_ hn
  intro m _ hm
  rcases lost_turn (settled_run r h₀ m) hm (step_turn (r.next m)) with hlost | ⟨hopen, hsame, hw⟩
  · exact hlost
  · have hresynced := hrecovers.resynchronizes m (by rw [hm]; rfl) hopen
    exact absurd hresynced (not_resynchronized hsame hw)

/-- A loss leads past the longest wait of the schedule. -/
theorem not_recovers_of_lost (h₀ : Settled s₀) (htime : ∀ time, ∃ k, time ≤ (r.state k).now)
    {k x : Nat} (hx : (r.state k).lostAt = some x) : ¬ Recovers joins herdr frameHash r := by
  intro hrecovers
  obtain ⟨n, hn⟩ := htime ((r.state k).now + x + 2 * millis 8000)
  have hpos : 0 < millis 8000 := by decide
  have hkn : k ≤ n := by
    apply Nat.le_of_not_lt
    intro hlt
    have hback := now_run r (Nat.le_of_lt hlt)
    omega
  have hlost := lost_run r h₀ hrecovers hx hkn
  have hsettled := settled_run r h₀ n
  have hgone : (r.state n).subscription.isSome = false := hsettled.lost (by rw [hlost]; rfl)
  have htrying : ¬ trying (r.state n) := by
    intro htry
    cases htry with
    | inl hc => exact absurd (hlost.symm.trans (hsettled.start hc)) (Option.some_ne_none x)
    | inr hc => exact absurd (hgone.symm.trans (hsettled.created hc)) Bool.false_ne_true
  obtain ⟨i, hschedule⟩ := hrecovers.schedule n x hlost htrying
  have hnow := hschedule.now
  have hcap := backoff_le (i + (r.state n).waits.length)
  omega

end Runs

/-- R-10-014: over a session that goes on, the subscription recovers as it must exactly
when it never needs to. -/
theorem recovers_iff_unbroken [DecidableEq Hash] (joins : Graphemes) (herdr : HerdrCalls)
    (frameHash : FrameHash Hash) (config : RelayConfig) (w : World)
    (r : Endless (Thread.step joins herdr frameHash) (.start config w))
    (htime : ∀ time, ∃ k, time ≤ (r.state k).now) :
    Recovers joins herdr frameHash r ↔ ∀ k, unbroken (r.state k) (r.event k) = true := by
  have h₀ : Settled (Thread.start config w : Thread Hash) := settled_start config w
  constructor
  · intro hrecovers k
    cases hok : unbroken (r.state k) (r.event k) with
    | true => rfl
    | false =>
      have hturn := step_turn (r.next k)
      rw [hok] at hturn
      obtain ⟨x, hx⟩ := Option.isSome_iff_exists.mp (lost_of_broken hturn)
      exact absurd hrecovers (not_recovers_of_lost r h₀ htime hx)
  · intro hkept
    have hopen : ∀ k, (r.state k).lostAt = none := unbroken_run r rfl hkept
    constructor
    · intro k t ht
      rw [hopen k] at ht
      cases ht
    · intro k hk
      rw [hopen k] at hk
      cases hk
    · intro k he hm
      have hk := hkept k
      rw [he] at hk
      simp [unbroken, hm] at hk
    · intro k hk
      rw [hopen k] at hk
      cases hk

section Lost

def noHash : FrameHash Unit := fun _ _ _ => ()

def noJoins : Graphemes := fun _ _ => false

/-- Herdr with one pane. -/
def onePane : HerdrCalls where
  send _ _ := true
  sessionSnapshot _ := .ok ⟨[⟨['p'], 1, ⟨0, 0, 24⟩⟩], []⟩
  paneLayout _ _ := some [⟨some ['p'], some 80⟩]
  paneReadVisible _ _ := some (some ['$'])

def relayConfig : RelayConfig := ⟨120, 125, [60, 130, 250], 16⟩

def onePaneWorld : World :=
  ⟨⟨fun _ => none, fun _ => none, fun paneId =>
    if paneId = ['p'] then
      some ⟨['p'], ['w'], ['t'], ['x'], [], [], [], true, none, [], 1, 24⟩
    else none⟩, []⟩

abbrev Session := Thread Unit

abbrev sessionStep : Session → Event → Option Session := Thread.step noJoins onePane noHash

/-- Nothing but time goes on. -/
def idling (s : Session) : Endless sessionStep s where
  state k := { s with now := s.now + k }
  event _ := .advance 1
  start := rfl
  next _ := rfl

def opened : Session :=
  ((run sessionStep (.start relayConfig onePaneWorld) [.open, .subscribe true, .acknowledge true]).get
    rfl)

def quiet : Endless sessionStep (.start relayConfig onePaneWorld) :=
  .cons .open rfl (.cons (.subscribe true) rfl (.cons (.acknowledge true) rfl (idling opened)))

theorem recovers_iff_unbroken_quiet : Recovers noJoins onePane noHash quiet := by
  refine (recovers_iff_unbroken noJoins onePane noHash relayConfig onePaneWorld quiet ?_).mpr ?_
  · intro time
    refine ⟨time + 3, ?_⟩
    show time ≤ 0 + time
    omega
  · intro k
    match k with
    | 0 => rfl
    | 1 => rfl
    | 2 => rfl
    | k + 3 => rfl

/-- A pane is watched, and one line of the subscription does not parse. -/
def broken : Session :=
  ((run sessionStep opened [.request (.watchPane ['p']), .arrive false .malformed, .beginWindow,
    .receive]).get rfl)

def afterMalformed : Endless sessionStep (.start relayConfig onePaneWorld) :=
  .cons .open rfl <| .cons (.subscribe true) rfl <| .cons (.acknowledge true) rfl <|
    .cons (.request (.watchPane ['p'])) rfl <| .cons (.arrive false .malformed) rfl <|
      .cons .beginWindow rfl <| .cons .receive rfl <| idling broken

/-- The session goes on without a subscription, whatever the time. -/
theorem malformed_line_ends_subscription :
    received (afterMalformed.state 6) = some .malformed ∧
      (∀ time, ∃ k, time ≤ (afterMalformed.state k).now) ∧
      (∀ k, (afterMalformed.state (7 + k)).subscription = none) ∧
      ¬ Recovers noJoins onePane noHash afterMalformed := by
  have htime : ∀ time, ∃ k, time ≤ (afterMalformed.state k).now := by
    intro time
    refine ⟨time + 7, ?_⟩
    show time ≤ 0 + time
    omega
  have hlost : (afterMalformed.state 7).lostAt = some 0 := rfl
  refine ⟨rfl, htime, ?_, not_recovers_of_lost afterMalformed (settled_start _ _) htime hlost⟩
  intro k
  rw [Nat.add_comm]
  rfl

end Lost

end HerdrMobile.Host.Reopen
