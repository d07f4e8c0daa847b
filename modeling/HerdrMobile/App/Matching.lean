import HerdrMobile.App.Requests

/-!
# Replies and the requests that they settle

A message settles every request that waits for one of its kind. So the requests of a run are
settled by their own replies exactly when no message finds another request that takes it.
-/
namespace HerdrMobile.App.Matching

open HerdrMobile.Lib.Run HerdrMobile.Proto.Messages HerdrMobile.App.Requests

set_option autoImplicit false

/-- A message of this kind can answer the request with this outcome. -/
def Fits : Request → Incoming → Bool → Prop
  | .attach p, .watchAck q, ok => ok = true ∧ q = p
  | .attach _, .error, ok => ok = false
  | .scrollback p, .scrollResponse q, ok => ok = true → q = p
  | .scrollback _, .error, ok => ok = false
  | .listen listener, incoming, ok => listener.onMessage incoming = some ok
  | .input p, .sendInputAck q accepted queued, ok =>
    p = some q ∧ ok = accepted ∧ (accepted && queued) = false
  | .input p, .pong, ok => p = none ∧ ok = true
  | .input _, .error, ok => ok = false
  | _, _, _ => False

/-- The requests that the rest of a service gives up on. -/
def Abandons : Cause → Request → Prop
  | .timeout, .listen listener => listener.hasTimeout = true
  | .timeout, _ => True
  | .dropped, .input _ => True
  | .dropped, .listen _ => True
  | .cancelled, .scrollback _ => True
  | _, _ => False

/-- A request is settled by a message that answers it, or it fails without one. -/
def Proper (s : Settled) : Prop :=
  match s.cause with
  | .message answers incoming => answers = some s.id ∧ Fits s.request incoming s.ok
  | cause => s.ok = false ∧ Abandons cause s.request

/-- The message is the reply to an input or a probe that waits. -/
def AnswersReply (d : Device) (answers : Option Nat) : Prop :=
  ∃ corr, answers = some corr ∧ (d.reply corr).isSome = true

/-- The request waits for a message of this kind. -/
inductive Takes (d : Device) (answers : Option Nat) (incoming : Incoming) (id : Nat) : Prop where
  | attach (paneId : PaneId) (waits : d.attachCompleter = some (id, paneId))
      (kind : incoming = .watchAck paneId ∨ (incoming = .error ∧ ¬AnswersReply d answers))
  | scrollback (fetch : Fetch) (waits : d.scrollCompleter = some fetch) (same : fetch.id = id)
      (kind : (∃ p, incoming = .scrollResponse p ∧ d.paneId = some p) ∨
        (incoming = .error ∧ ¬AnswersReply d answers))
  | listen (listener : Listener) (waits : (id, listener) ∈ d.listeners)
      (kind : (listener.onMessage incoming).isSome = true)

/-- No request takes the message but the one that it answers. -/
def Clear (d : Device) : Device.Event → Prop
  | .message answers incoming => ∀ id, Takes d answers incoming id → answers = some id
  | _ => True

section Operations

variable {d : Device} {answers : Option Nat} {incoming : Incoming} {cause : Cause} {ok : Bool}

/-- The log of a step: what is new, and that it is right exactly under this condition. -/
def Adds (d t : Device) (good : Prop) : Prop :=
  ∃ new, t.settled = new ++ d.settled ∧ (good ↔ ∀ s ∈ new, Proper s)

theorem Adds.none {t : Device} (h : t.settled = d.settled) : Adds d t True := by
  refine ⟨[], h, ?_⟩
  simp

theorem Adds.one {t : Device} {s : Settled} (h : t.settled = s :: d.settled) :
    Adds d t (Proper s) := by
  refine ⟨[s], h, ?_⟩
  simp

theorem Adds.iff {t : Device} {p q : Prop} (h : Adds d t p) (hpq : p ↔ q) : Adds d t q := by
  obtain ⟨new, hnew, hp⟩ := h
  exact ⟨new, hnew, hpq.symm.trans hp⟩

theorem Adds.trans {t u : Device} {p q : Prop} (h : Adds d t p) (h' : Adds t u q) :
    Adds d u (p ∧ q) := by
  obtain ⟨new, hnew, hp⟩ := h
  obtain ⟨new', hnew', hq⟩ := h'
  refine ⟨new' ++ new, by rw [hnew', hnew, List.append_assoc], ?_⟩
  constructor
  · rintro ⟨hp', hq'⟩ s hs
    cases List.mem_append.mp hs with
    | inl hs => exact hq.mp hq' s hs
    | inr hs => exact hp.mp hp' s hs
  · intro hall
    exact ⟨hp.mpr fun s hs => hall s (List.mem_append_right _ hs),
      hq.mpr fun s hs => hall s (List.mem_append_left _ hs)⟩

theorem cancelScrollback_adds (d : Device) : Adds d d.cancelScrollback True := by
  unfold Device.cancelScrollback
  dsimp only
  split
  · exact .none rfl
  · refine Adds.iff (.one rfl) ?_
    exact ⟨fun _ => trivial, fun _ => ⟨rfl, trivial⟩⟩

/-- What is settled is right for every attach that waits. -/
def AttachRight (d : Device) (ok : Bool) (cause : Cause) : Prop :=
  ∀ id paneId, d.attachCompleter = some (id, paneId) →
    Proper { id := id, request := .attach paneId, ok := ok, cause := cause }

theorem endAttach_adds (d : Device) (ok : Bool) (cause : Cause) :
    Adds d (d.endAttach ok cause) (AttachRight d ok cause) := by
  unfold Device.endAttach AttachRight
  split
  · rename_i hnone
    refine Adds.iff (.none rfl) ?_
    rw [hnone]
    simp
  · rename_i id paneId hsome
    refine Adds.iff (.one rfl) ?_
    rw [hsome]
    constructor
    · rintro hp id' paneId' heq
      cases heq
      exact hp
    · intro hall
      exact hall id paneId rfl

/-- A reader who is still there. -/
def here (d : Device) (fetch : Fetch) : Bool :=
  decide (fetch.epoch = d.scrollEpoch ∧ d.paneId = some fetch.paneId)

def FetchRight (d : Device) (ok : Bool) (cause : Cause) : Prop :=
  ∀ fetch, d.scrollCompleter = some fetch →
    Proper { id := fetch.id, request := .scrollback fetch.paneId, ok := ok && here d fetch,
             cause := cause }

theorem endFetch_adds (d : Device) (ok : Bool) (cause : Cause) :
    Adds d (d.endFetch ok cause) (FetchRight d ok cause) := by
  unfold Device.endFetch FetchRight
  split
  · rename_i hnone
    refine Adds.iff (.none rfl) ?_
    rw [hnone]
    simp
  · rename_i fetch hsome
    refine Adds.iff (.one rfl) ?_
    rw [hsome]
    constructor
    · rintro hp fetch' heq
      cases heq
      exact hp
    · intro hall
      exact hall fetch rfl

/-- A reply that is found by its correlation id. -/
theorem finishReply_adds (d : Device) (id : Nat) (accepted : Bool) (cause : Cause)
    (hright : ∀ paneId, d.reply id = some paneId →
      Proper { id := id, request := .input paneId, ok := accepted, cause := cause }) :
    Adds d (d.finishReply id accepted cause) True := by
  unfold Device.finishReply
  split
  · exact .none rfl
  · rename_i paneId hreply
    exact Adds.iff (.one rfl) ⟨fun _ => trivial, fun _ => hright paneId hreply⟩

theorem finishReply_listeners (d : Device) (id : Nat) (accepted : Bool) (cause : Cause) :
    (d.finishReply id accepted cause).listeners = d.listeners := by
  unfold Device.finishReply
  split <;> rfl

theorem endAttach_same (d : Device) (ok : Bool) (cause : Cause) :
    (d.endAttach ok cause).listeners = d.listeners ∧
      (d.endAttach ok cause).scrollCompleter = d.scrollCompleter ∧
      (d.endAttach ok cause).scrollEpoch = d.scrollEpoch ∧
      (d.endAttach ok cause).paneId = d.paneId := by
  unfold Device.endAttach
  split <;> exact ⟨rfl, rfl, rfl, rfl⟩

theorem endFetch_listeners (d : Device) (ok : Bool) (cause : Cause) :
    (d.endFetch ok cause).listeners = d.listeners := by
  unfold Device.endFetch
  split <;> rfl

/-- What the terminal takes is answered. -/
def TerminalClear (d : Device) (answers : Option Nat) (incoming : Incoming) : Prop :=
  (∀ id paneId, d.attachCompleter = some (id, paneId) →
    (incoming = .watchAck paneId ∨ (incoming = .error ∧ ¬AnswersReply d answers)) →
      answers = some id) ∧
  ∀ fetch, d.scrollCompleter = some fetch →
    ((∃ p, incoming = .scrollResponse p ∧ d.paneId = some p) ∨
      (incoming = .error ∧ ¬AnswersReply d answers)) → answers = some fetch.id

theorem filter_answers (d : Device) (answers : Option Nat) :
    (answers.filter fun corr => (d.reply corr).isSome) = none ↔
      ¬AnswersReply d answers := by
  unfold AnswersReply
  cases answers with
  | none => simp
  | some corr =>
    rw [Option.filter_some]
    split
    · rename_i hany
      refine ⟨fun h => (by cases h), fun h => ?_⟩
      exact absurd ⟨corr, rfl, hany⟩ h
    · rename_i hany
      refine ⟨fun _ => ?_, fun _ => rfl⟩
      rintro ⟨corr', heq, hany'⟩
      cases heq
      exact hany hany'

/-- A message of any other kind is not for an attach or a reader. -/
theorem terminalClear_other (hack : ∀ p, incoming ≠ .watchAck p)
    (hscroll : ∀ p, incoming ≠ .scrollResponse p) (herror : incoming ≠ .error) :
    True ↔ TerminalClear d answers incoming := by
  refine ⟨fun _ => ⟨?_, ?_⟩, fun _ => trivial⟩
  · rintro id p - (heq | ⟨heq, -⟩)
    · exact absurd heq (hack p)
    · exact absurd heq herror
  · rintro fetch - (⟨p, heq, -⟩ | ⟨heq, -⟩)
    · exact absurd heq (hscroll p)
    · exact absurd heq herror

theorem terminal_error (hnone : ¬AnswersReply d answers) :
    Adds d ((d.endAttach false (.message answers .error)).endFetch false
      (.message answers .error)) (TerminalClear d answers .error) := by
  obtain ⟨-, hscroll, -, -⟩ := endAttach_same d false (.message answers .error)
  refine Adds.iff ((endAttach_adds d false _).trans (endFetch_adds _ false _)) ?_
  unfold AttachRight FetchRight TerminalClear
  rw [hscroll]
  refine and_congr ?_ ?_
  · constructor
    · intro hall id p hwait _
      exact (hall id p hwait).1
    · intro hall id p hwait
      exact ⟨hall id p hwait (.inr ⟨rfl, hnone⟩), rfl⟩
  · constructor
    · intro hall fetch hwait _
      exact (hall fetch hwait).1
    · intro hall fetch hwait
      exact ⟨hall fetch hwait (.inr ⟨rfl, hnone⟩), rfl⟩

theorem terminalClear_reply (h : AnswersReply d answers) :
    True ↔ TerminalClear d answers .error := by
  refine ⟨fun _ => ⟨?_, ?_⟩, fun _ => trivial⟩
  · rintro id p - (heq | ⟨-, hnone⟩)
    · cases heq
    · exact absurd h hnone
  · rintro fetch - (⟨p, heq, -⟩ | ⟨-, hnone⟩)
    · cases heq
    · exact absurd h hnone

theorem terminal_adds (d : Device) (answers : Option Nat) (incoming : Incoming) :
    Adds d (d.terminalOnMessage answers incoming) (TerminalClear d answers incoming) ∧
      (d.terminalOnMessage answers incoming).listeners = d.listeners := by
  unfold Device.terminalOnMessage
  cases incoming with
  | watchAck paneId =>
    dsimp only
    split
    · rename_i hpane
      obtain ⟨⟨id, p⟩, hwait, hp⟩ := Option.map_eq_some_iff.mp hpane
      have hp : p = paneId := hp
      rw [hp] at hwait
      refine ⟨?_, (endAttach_same d _ _).1⟩
      refine Adds.iff (endAttach_adds d true _) ?_
      unfold AttachRight TerminalClear
      rw [hwait]
      constructor
      · intro hall
        refine ⟨?_, by simp⟩
        rintro id' p' heq -
        cases heq
        exact (hall id paneId rfl).1
      · rintro ⟨hall, -⟩ id' p' heq
        cases heq
        exact ⟨hall id paneId rfl (.inl rfl), rfl, rfl⟩
    · rename_i hpane
      refine ⟨Adds.iff (.none rfl) ?_, rfl⟩
      refine ⟨fun _ => ⟨?_, by simp⟩, fun _ => trivial⟩
      rintro id p hwait (heq | ⟨heq, -⟩)
      · cases heq
        rw [hwait] at hpane
        exact absurd rfl hpane
      · cases heq
  | scrollResponse paneId =>
    dsimp only
    split
    · rename_i hpane
      refine ⟨?_, endFetch_listeners d _ _⟩
      refine Adds.iff (endFetch_adds d true _) ?_
      unfold FetchRight TerminalClear
      constructor
      · intro hall
        refine ⟨by simp, ?_⟩
        rintro fetch hwait -
        exact (hall fetch hwait).1
      · rintro ⟨-, hall⟩ fetch hwait
        refine ⟨hall fetch hwait (.inl ⟨paneId, rfl, hpane⟩), ?_⟩
        intro hhere
        have hhere : here d fetch = true := by simpa using hhere
        have hboth := of_decide_eq_true hhere
        exact Option.some.inj (hpane.symm.trans hboth.2)
    · rename_i hpane
      refine ⟨Adds.iff (.none rfl) ?_, rfl⟩
      refine ⟨fun _ => ⟨by simp, ?_⟩, fun _ => trivial⟩
      rintro fetch - (⟨p, heq, hp⟩ | ⟨heq, -⟩)
      · cases heq
        exact absurd hp hpane
      · cases heq
  | sendInputAck paneId accepted queued =>
    have hclear := @terminalClear_other d answers (.sendInputAck paneId accepted queued)
      nofun nofun nofun
    dsimp only
    split
    · exact ⟨Adds.iff (.none rfl) hclear, rfl⟩
    · rename_i corr
      split
      · rename_i hreply
        split
        · exact ⟨Adds.iff (.none rfl) hclear, rfl⟩
        · rename_i hfinal
          refine ⟨Adds.iff (finishReply_adds d corr accepted _ ?_) hclear,
            finishReply_listeners d _ _ _⟩
          intro p hp
          refine ⟨rfl, Option.some.inj (hp.symm.trans hreply), rfl, ?_⟩
          simpa using hfinal
      · exact ⟨Adds.iff (.none rfl) hclear, rfl⟩
  | pong =>
    have hclear := @terminalClear_other d answers .pong nofun nofun nofun
    dsimp only
    split
    · exact ⟨Adds.iff (.none rfl) hclear, rfl⟩
    · rename_i corr
      split
      · rename_i hreply
        refine ⟨Adds.iff (finishReply_adds d corr true _ ?_) hclear,
          finishReply_listeners d _ _ _⟩
        intro p hp
        exact ⟨rfl, Option.some.inj (hp.symm.trans hreply), rfl⟩
      · exact ⟨Adds.iff (.none rfl) hclear, rfl⟩
  | error =>
    dsimp only
    split
    · rename_i corr hfilter
      obtain ⟨hanswers, hany⟩ := Option.filter_eq_some_iff.mp hfilter
      refine ⟨Adds.iff (finishReply_adds d corr false _ ?_) (terminalClear_reply ⟨corr, hanswers, hany⟩),
        finishReply_listeners d _ _ _⟩
      intro p _
      exact ⟨hanswers, rfl⟩
    · rename_i hfilter
      refine ⟨terminal_error ((filter_answers d answers).mp hfilter), ?_⟩
      rw [endFetch_listeners]
      exact (endAttach_same d _ _).1
  | _ => exact ⟨Adds.iff (.none rfl) (terminalClear_other nofun nofun nofun), rfl⟩

theorem listeners_adds (d : Device) (answers : Option Nat) (incoming : Incoming) :
    Adds d (d.listenersOnMessage answers incoming)
      (∀ id listener, (id, listener) ∈ d.listeners →
        (listener.onMessage incoming).isSome = true → answers = some id) := by
  refine ⟨_, rfl, ?_⟩
  constructor
  · intro hall s hs
    obtain ⟨⟨id, listener⟩, hmem, heq⟩ := List.mem_filterMap.mp hs
    obtain ⟨ok, hok, rfl⟩ := Option.map_eq_some_iff.mp heq
    exact ⟨hall id listener hmem (by rw [hok]; rfl), hok⟩
  · intro hall id listener hmem hsome
    obtain ⟨ok, hok⟩ := Option.isSome_iff_exists.mp hsome
    have hs := hall { id := id, request := .listen listener, ok := ok,
                      cause := .message answers incoming } ?_
    · exact hs.1
    · apply List.mem_filterMap.mpr
      exact ⟨(id, listener), hmem, by rw [hok]; rfl⟩

theorem takes_iff (d : Device) (answers : Option Nat) (incoming : Incoming) :
    Clear d (.message answers incoming) ↔ TerminalClear d answers incoming ∧
      ∀ id listener, (id, listener) ∈ d.listeners →
        (listener.onMessage incoming).isSome = true → answers = some id := by
  constructor
  · intro h
    refine ⟨⟨?_, ?_⟩, ?_⟩
    · intro id p hwait hkind
      exact h id (.attach p hwait hkind)
    · intro fetch hwait hkind
      exact h fetch.id (.scrollback fetch hwait rfl hkind)
    · intro id listener hmem hkind
      exact h id (.listen listener hmem hkind)
  · rintro ⟨⟨hattach, hscroll⟩, hlisten⟩ id htakes
    cases htakes with
    | attach paneId waits kind => exact hattach id paneId waits kind
    | scrollback fetch waits same kind => exact same ▸ hscroll fetch waits kind
    | listen listener waits kind => exact hlisten id listener waits kind

theorem message_adds (d : Device) (answers : Option Nat) (incoming : Incoming) :
    Adds d (d.onMessage answers incoming) (Clear d (.message answers incoming)) := by
  obtain ⟨hterminal, hsame⟩ := terminal_adds d answers incoming
  have hlisten := listeners_adds (d.terminalOnMessage answers incoming) answers incoming
  rw [hsame] at hlisten
  exact (hterminal.trans hlisten).iff (takes_iff d answers incoming).symm

theorem drop_adds (d : Device) : Adds d d.drop True := by
  refine ⟨(d.pendingReplies.map fun p =>
      { id := p.1, request := .input p.2, ok := false, cause := .dropped }) ++
    d.listeners.map fun l =>
      { id := l.1, request := .listen l.2, ok := false, cause := .dropped },
    rfl, fun _ s hs => ?_, fun _ => trivial⟩
  cases List.mem_append.mp hs with
  | inl hs =>
    obtain ⟨p, -, rfl⟩ := List.mem_map.mp hs
    exact ⟨rfl, trivial⟩
  | inr hs =>
    obtain ⟨l, -, rfl⟩ := List.mem_map.mp hs
    exact ⟨rfl, trivial⟩

/-- Nothing settles a request in the wrong way but a message that finds it waiting. -/
theorem step_adds {t : Device} {e : Device.Event} (hs : d.step e = some t) :
    Adds d t (Clear d e) := by
  cases e with
  | message answers incoming =>
    cases hs
    exact message_adds d answers incoming
  | attach paneId =>
    cases hs
    exact cancelScrollback_adds d
  | detach =>
    cases hs
    exact cancelScrollback_adds d
  | attachTimeout =>
    cases hs
    refine Adds.iff (endAttach_adds d false .timeout) ?_
    exact ⟨fun _ => trivial, fun _ _ _ _ => ⟨rfl, trivial⟩⟩
  | scrollTimeout =>
    cases hs
    refine Adds.iff (endFetch_adds d false .timeout) ?_
    exact ⟨fun _ => trivial, fun _ _ _ => ⟨rfl, trivial⟩⟩
  | abandonedTimeout id =>
    simp only [Device.step] at hs
    split at hs
    · cases hs
    · cases hs
      exact Adds.iff (.one rfl) ⟨fun _ => trivial, fun _ => ⟨rfl, trivial⟩⟩
  | requestScrollback =>
    cases hs
    unfold Device.requestScrollback
    split <;> exact .none rfl
  | leaveHistory =>
    cases hs
    exact .none rfl
  | input paneId =>
    cases hs
    exact .none rfl
  | inputTimeout id =>
    cases hs
    exact finishReply_adds d id false .timeout fun _ _ => ⟨rfl, trivial⟩
  | listen listener =>
    cases hs
    exact .none rfl
  | listenTimeout id =>
    simp only [Device.step] at hs
    split at hs
    · cases hs
    · rename_i found listener hfind
      cases hs
      have hboth : found = id ∧ listener.hasTimeout = true := by
        simpa using List.find?_some hfind
      exact Adds.iff (.one rfl) ⟨fun _ => trivial, fun _ => ⟨rfl, hboth.2⟩⟩
  | drop =>
    cases hs
    exact drop_adds d

end Operations

/-- In a run every request is settled by its own reply, its timeout or a loss of the
connection exactly when no message ever finds another request that takes it. -/
theorem settled_properly_iff (es : List Device.Event) (d : Device)
    (h : run Device.step .start es = some d) :
    (∀ s ∈ d.settled, Proper s) ↔
      ∀ a e b, Occurs Device.step .start es a e b → Clear a e := by
  obtain ⟨new, hnew, hiff⟩ := log_right_iff Device.settled (fun _ _ _ hs => step_adds hs) h
  have hsame : d.settled = new := hnew.trans (List.append_nil new)
  rw [hsame]
  exact hiff.symm

/-- A tree is read, a pane is attached, and each reply finds its own request alone. -/
def clearRun : List Device.Event :=
  [ .listen .fetchTreeSnapshot, .message (some 0) .treeSnapshot,
    .attach "p".toList, .message none .status, .message (some 1) (.watchAck "p".toList),
    .input (some "p".toList), .message (some 2) .error ]

theorem settled_properly_small :
    ∃ d, run Device.step .start clearRun = some d ∧ ((∀ s ∈ d.settled, Proper s) ↔
      ∀ a e b, Occurs Device.step .start clearRun a e b → Clear a e) := by
  have hsome : (run Device.step .start clearRun).isSome = true := by decide
  obtain ⟨d, hd⟩ := Option.isSome_iff_exists.mp hsome
  exact ⟨d, hd, settled_properly_iff clearRun d hd⟩

/-- The error of a host action comes in while an attach waits. -/
def strayError : List Device.Event :=
  [ .attach "p".toList, .listen .sendHostAction, .message (some 1) .error ]

/-- The attach fails with an error that answers another request. -/
theorem stray_error_settles :
    ¬∀ es d, run Device.step .start es = some d → ∀ s ∈ d.settled, Proper s := by
  intro hall
  have hlast : (run Device.step .start strayError).any (fun d =>
      decide ({ id := 0, request := .attach "p".toList, ok := false,
                cause := .message (some 1) .error } ∈ d.settled)) = true := by decide
  obtain ⟨d, hd, hp⟩ := (Option.any_eq_true _ _).mp hlast
  have hproper := hall strayError d hd _ (of_decide_eq_true hp)
  cases hproper.1

end HerdrMobile.App.Matching
