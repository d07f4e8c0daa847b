import HerdrMobile.Host.HeldSteps

/-!
# What becomes of a held submit

Each request has a story: the sends made for it and the replies that carry its
number, in order. The invariant says that the stories that wait for a final reply
are the one of the held submit, or none.
-/
namespace HerdrMobile.Host.HeldRuns

open HerdrMobile.Proto.Messages
open HerdrMobile.Host.Keys HerdrMobile.Host.Herdr HerdrMobile.Host.Input HerdrMobile.Host.Held
open HerdrMobile.Host.Watch HerdrMobile.Host.Session HerdrMobile.Host.HeldSteps

set_option autoImplicit false

variable {Hash : Type} {joins : Graphemes} {herdr : HerdrCalls} {now : Nat}
  {request r : SendInput} {n k : Nat} {c : Option Text} {t : Ticket} {accepted ok : Bool}

section Bridges

variable [DecidableEq Hash] (joins : Graphemes) {herdr : HerdrCalls} (frameHash : FrameHash Hash)
  {s : Thread Hash} {b' : Bridge Hash Ticket} {m' : Shared}

theorem step_input_bridge {joins : Graphemes} {out : List (Reply Ticket)}
    {rest : Bridge Hash Ticket × Shared}
    (h : serveInput joins herdr now request (some ⟨s.requests.length, c⟩) s.bridge s.shared =
      (out, rest)) : (step joins herdr frameHash s (.input now request c)).bridge = rest.1 :=
  congrArg (fun x => x.2.1) h

theorem step_push_bridge {joins : Graphemes} {push : Push}
    (h : handleSubscriptionLine joins herdr now push s.bridge s.shared = (b', m')) :
    (step joins herdr frameHash s (.push now push)).bridge = b' := congrArg Prod.fst h

theorem step_watchPane_bridge {frameHash : FrameHash Hash} {paneId : PaneId}
    {result : Except WatchError (WatchAck × PaneFrame)} {rest : Bridge Hash Ticket × Shared}
    (h : Watch.watchPane herdr frameHash now paneId s.bridge s.shared = (result, rest)) :
    (step joins herdr frameHash s (.watchPane now paneId)).bridge = rest.1 :=
  congrArg (fun x => x.2.1) h

theorem step_poll_bridge {frameHash : FrameHash Hash} {frame : Option PaneFrame}
    {rest : Bridge Hash Ticket × Shared}
    (h : pollScheduler herdr frameHash now s.bridge s.shared = (frame, rest)) :
    (step joins herdr frameHash s (.poll now)).bridge = rest.1 :=
  congrArg (fun x => x.2.1) h

end Bridges

def Action.about (n : Nat) : Action → Bool
  | .sent (some t) _ _ => t.number == n
  | .reply _ (some t) => t.number == n
  | _ => false

/-- The part of a trace that belongs to request `n`. -/
def about (n : Nat) (acts : List Action) : List Action := acts.filter (Action.about n)

def queued (r : SendInput) (t : Ticket) : Action := .reply ⟨r.paneId, true, true⟩ (some t)

def final (r : SendInput) (t : Ticket) (accepted : Bool) : Action :=
  .reply ⟨r.paneId, accepted, false⟩ (some t)

/-- The Enter of a held submit on its way to Herdr. -/
def heldKeys (r : SendInput) (t : Ticket) (ok : Bool) : Action :=
  .sent (some t) (.sendInput r.paneId none (some (r.keys.getD []))) ok

/-- A request is answered once; a submit that was held is answered twice, and its
keys go at most once to the pane it names, between the two. -/
inductive Story (r : SendInput) (t : Ticket) : List Action → Prop
  | answered (sends : List (Send × Bool)) (accepted : Bool) :
      Story r t ((sends.map fun s => .sent (some t) s.1 s.2) ++ [final r t accepted])
  | waiting : Story r t [queued r t]
  | dropped : Story r t [queued r t, final r t false]
  | released (ok : Bool) : Story r t [queued r t, heldKeys r t ok, final r t ok]

/-- Everything that left the thread, and the replies it still has to send. -/
def full (s : Thread Hash) : List Action := s.trace ++ replies s.bridge.inputReplies

def told (s : Thread Hash) (n : Nat) : List Action := about n (full s)

/-- The requests, their stories and the held submit. -/
structure Inv (requests : List (SendInput × Option Text)) (told : Nat → List Action)
    (pending : Option (PendingInput Ticket)) : Prop where
  unasked : ∀ n, requests.length ≤ n → told n = []
  story : ∀ n r c, requests[n]? = some (r, c) → Story r ⟨n, c⟩ (told n)
  waiting : ∀ n r c, requests[n]? = some (r, c) → told n = [queued r ⟨n, c⟩] →
    pending = some ⟨r.paneId, r.keys.getD [], some ⟨n, c⟩⟩
  held : ∀ p, pending = some p → ∃ n r c, requests[n]? = some (r, c) ∧
    p = ⟨r.paneId, r.keys.getD [], some ⟨n, c⟩⟩ ∧ told n = [queued r ⟨n, c⟩]

theorem getElem?_of_snoc {α : Type*} {l : List α} {x y : α} {k : Nat} (hk : k ≠ l.length)
    (h : (l ++ [x])[k]? = some y) : l[k]? = some y := by
  have hlt : k < l.length := by
    have hlt := (List.getElem?_eq_some_iff.mp h).1
    rw [List.length_append, List.length_singleton] at hlt
    omega
  rwa [List.getElem?_append_left hlt] at h

section Inv

variable {requests : List (SendInput × Option Text)} {T : Nat → List Action}
  {pending : Option (PendingInput Ticket)}

/-- The held submit gets its final reply, after its keys or without them. -/
theorem Inv.resolve (hi : Inv requests T pending) {p : PendingInput Ticket} (hp : pending = some p)
    {rest : List Action} (hstory : ∀ r, p = ⟨r.paneId, r.keys.getD [], some t⟩ →
      rest ≠ [] ∧ Story r t (queued r t :: rest)) (ht : p.corr = some t) :
    Inv requests (Function.update T t.number (T t.number ++ rest)) none := by
  obtain ⟨n, r, c, hr, hpr, htold⟩ := hi.held p hp
  obtain rfl : t = ⟨n, c⟩ := by simpa [hpr] using ht.symm
  obtain ⟨hne, hs⟩ := hstory r hpr
  have hlt : n < requests.length := (List.getElem?_eq_some_iff.mp hr).1
  constructor
  · intro k hk
    have hkn : k ≠ n := by omega
    rw [Function.update_of_ne hkn]
    exact hi.unasked k hk
  · intro k r' c' hr'
    by_cases hkn : k = n
    · subst hkn
      obtain ⟨rfl, rfl⟩ : r' = r ∧ c' = c := by simpa [hr] using hr'.symm
      rw [Function.update_self, htold]
      exact hs
    · rw [Function.update_of_ne hkn]
      exact hi.story k r' c' hr'
  · intro k r' c' hr' hk
    by_cases hkn : k = n
    · subst hkn
      obtain ⟨rfl, rfl⟩ : r' = r ∧ c' = c := by simpa [hr] using hr'.symm
      rw [Function.update_self, htold] at hk
      exact absurd (List.cons.inj hk).2 hne
    · rw [Function.update_of_ne hkn] at hk
      have h := hi.waiting k r' c' hr' hk
      rw [hp, hpr] at h
      have hnum : n = k := by
        have := congrArg (Option.map fun p => p.corr.map Ticket.number) h
        simpa using this
      exact absurd hnum.symm hkn
  · intro p' hp'
    exact absurd hp' (by simp)

/-- A new request and its story. What is held afterwards is what was held, or this request. -/
theorem Inv.ask (hi : Inv requests T pending) {story : List Action}
    {pending' : Option (PendingInput Ticket)} (hs : Story request ⟨requests.length, c⟩ story)
    (hnew : story = [queued request ⟨requests.length, c⟩] →
      pending' = some ⟨request.paneId, request.keys.getD [], some ⟨requests.length, c⟩⟩)
    (hkeep : pending ≠ none → pending' = pending)
    (hheld : pending' = pending ∨
      pending' = some ⟨request.paneId, request.keys.getD [], some ⟨requests.length, c⟩⟩ ∧
        story = [queued request ⟨requests.length, c⟩]) :
    Inv (requests ++ [(request, c)]) (Function.update T requests.length story) pending' := by
  have hlast : (requests ++ [(request, c)])[requests.length]? = some (request, c) := by simp
  constructor
  · intro k hk
    rw [List.length_append, List.length_singleton] at hk
    rw [Function.update_of_ne (by omega)]
    exact hi.unasked k (by omega)
  · intro k r' c' hr'
    by_cases hkn : k = requests.length
    · subst hkn
      obtain ⟨rfl, rfl⟩ : r' = request ∧ c' = c := by simpa using hr'.symm
      rw [Function.update_self]
      exact hs
    · rw [Function.update_of_ne hkn]
      exact hi.story k r' c' (getElem?_of_snoc hkn hr')
  · intro k r' c' hr' hk
    by_cases hkn : k = requests.length
    · subst hkn
      obtain ⟨rfl, rfl⟩ : r' = request ∧ c' = c := by simpa using hr'.symm
      rw [Function.update_self] at hk
      exact hnew hk
    · rw [Function.update_of_ne hkn] at hk
      have hwas := hi.waiting k r' c' (getElem?_of_snoc hkn hr') hk
      rw [hkeep (by simp [hwas])]
      exact hwas
  · intro p hp
    rcases hheld with hsame | ⟨hthis, hstory⟩
    · obtain ⟨n, r, c', hr, hpr, htold⟩ := hi.held p (hsame.symm.trans hp)
      have hlt : n < requests.length := (List.getElem?_eq_some_iff.mp hr).1
      refine ⟨n, r, c', ?_, hpr, ?_⟩
      · rw [List.getElem?_append_left hlt]
        exact hr
      · rw [Function.update_of_ne (by omega)]
        exact htold
    · obtain rfl := Option.some.inj (hthis.symm.trans hp)
      refine ⟨requests.length, request, c, hlast, rfl, ?_⟩
      rw [Function.update_self]
      exact hstory

/-- A new request and its story, with the held submit as it is. -/
theorem Inv.answer (hi : Inv requests T pending) {story : List Action}
    (hs : Story request ⟨requests.length, c⟩ story)
    (hw : story ≠ [queued request ⟨requests.length, c⟩]) :
    Inv (requests ++ [(request, c)]) (Function.update T requests.length story) pending :=
  hi.ask hs (fun h => absurd h hw) (fun _ => rfl) (Or.inl rfl)

/-- A new request that is held, where nothing else is. -/
theorem Inv.hold (hi : Inv requests T none) (request : SendInput) (c : Option Text) :
    Inv (requests ++ [(request, c)])
      (Function.update T requests.length [queued request ⟨requests.length, c⟩])
      (some ⟨request.paneId, request.keys.getD [], some ⟨requests.length, c⟩⟩) :=
  hi.ask .waiting (fun _ => rfl) (fun h => absurd rfl h) (Or.inr ⟨rfl, rfl⟩)

end Inv

variable {s s' : Thread Hash} {frameHash : FrameHash Hash}

/-- The invariant, and the queued reply of the held submit has left the thread. -/
structure Good (s : Thread Hash) : Prop where
  inv : Inv s.requests (told s) s.bridge.pendingInput
  sent : ∀ p t, s.bridge.pendingInput = some p → p.corr = some t →
    about t.number (replies s.bridge.inputReplies) = []

theorem about_append (n : Nat) (xs ys : List Action) :
    about n (xs ++ ys) = about n xs ++ about n ys := List.filter_append ..

theorem replies_append (xs ys : List (Reply Ticket)) :
    replies (xs ++ ys) = replies xs ++ replies ys := List.map_append ..

theorem told_eq (s : Thread Hash) (n : Nat) :
    told s n = about n s.trace ++ about n (replies s.bridge.inputReplies) := about_append ..

theorem about_reply (n : Nat) (ack : SendInputAck) (t : Ticket) :
    about n (replies [(ack, some t)]) = if t.number = n then [.reply ack (some t)] else [] := by
  by_cases h : t.number = n
  · simp [about, replies, Action.about, h]
  · simp [about, replies, Action.about, h]

theorem about_sentFor (n : Nat) (t : Ticket) (before after : Log) :
    about n (sentFor (some t) before after)
      = if t.number = n then sentFor (some t) before after else [] := by
  unfold about sentFor
  rw [List.filter_map]
  by_cases h : t.number = n
  · rw [if_pos h]
    congr 1
    exact List.filter_eq_self.mpr fun a _ => by simp [Action.about, h]
  · rw [if_neg h]
    have hnone : List.filter (Action.about n ∘ fun (x : Send × Bool) => .sent (some t) x.1 x.2)
        (newSends before after) = [] := List.filter_eq_nil_iff.mpr fun a _ => by simp [Action.about, h]
    rw [hnone]
    rfl

theorem about_put (n : Nat) (frames : List PaneFrame) : about n (frames.map .put) = [] := by
  unfold about
  rw [List.filter_map]
  have hnone : frames.filter (Action.about n ∘ Action.put) = [] :=
    List.filter_eq_nil_iff.mpr fun f _ => Bool.false_ne_true
  rw [hnone]
  rfl

theorem sentFor_nil {ticket : Option Ticket} {before after : Log} (h : newSends before after = []) :
    sentFor ticket before after = [] := by
  unfold sentFor
  rw [h]
  rfl

/-- The held submit is left alone or refused, and nothing else is said about a request. -/
theorem good_dropped {dropped : Option (PendingInput Ticket)} {extra : List Action} (hg : Good s)
    (hreq : s'.requests = s.requests) (htr : s'.trace = s.trace ++ extra)
    (hx : ∀ n, about n extra = []) (hd : Dropped s.bridge s'.bridge dropped) : Good s' := by
  have htold : ∀ n, told s' n = told s n ++ about n (replies (cancelReplies dropped)) := by
    intro n
    rw [told_eq, told_eq, htr, about_append, hx, hd.replies, replies_append, about_append,
      List.append_nil, List.append_assoc]
  have hsame : dropped = none → s'.bridge.pendingInput = s.bridge.pendingInput → Good s' := by
    intro hnone hp
    subst hnone
    have heq : told s' = told s := by
      funext n
      rw [htold]
      exact List.append_nil _
    constructor
    · rw [hreq, hp, heq]
      exact hg.inv
    · intro p t hp' ht
      rw [hd.replies]
      simpa [cancelReplies] using hg.sent p t (hp ▸ hp') ht
  rcases hd.pending with ⟨hnone, hp⟩ | ⟨heq, hp⟩
  · exact hsame hnone hp
  · cases hpend : s.bridge.pendingInput with
    | none => exact hsame (by rw [heq, hpend]) (by rw [hp, hpend])
    | some p =>
      obtain ⟨n, r, c, hr, hpr, hwait⟩ := hg.inv.held p hpend
      have hcorr : p.corr = some ⟨n, c⟩ := by rw [hpr]
      have hfinal : replies (cancelReplies dropped) = [final r ⟨n, c⟩ false] := by
        rw [heq, hpend, hpr]
        rfl
      have hup : told s' = Function.update (told s) n (told s n ++ [final r ⟨n, c⟩ false]) := by
        funext k
        rw [htold, hfinal]
        by_cases hk : k = n
        · subst hk
          rw [Function.update_self]
          simp [about, Action.about, final]
        · rw [Function.update_of_ne hk]
          simp [about, Action.about, final, Ne.symm hk]
      constructor
      · rw [hreq, hp, hup]
        refine hg.inv.resolve hpend ?_ hcorr
        intro r' hr'
        obtain ⟨hpane, -⟩ : r.paneId = r'.paneId ∧ r.keys.getD [] = r'.keys.getD [] := by
          simpa [hpr] using hr'
        refine ⟨by simp, ?_⟩
        have hf : final r ⟨n, c⟩ false = final r' ⟨n, c⟩ false := by simp [final, hpane]
        rw [hf]
        exact .dropped
      · intro p' t hp' _
        rw [hp] at hp'
        exact absurd hp' (by simp)

/-- The replies that leave with a new request: what was there for the others, and its own. -/
theorem about_out {X out : List (Reply Ticket)} {ack : SendInputAck}
    (h : out = X ++ [(ack, some t)] ∨ out = (ack, some t) :: X)
    (hX : about t.number (replies X) = []) (n : Nat) :
    about n (replies out) = if t.number = n then [.reply ack (some t)] else about n (replies X) := by
  have hone := about_reply n ack t
  have hsplit : about n (replies out) = about n (replies X) ++ about n (replies [(ack, some t)]) ∨
      about n (replies out) = about n (replies [(ack, some t)]) ++ about n (replies X) := by
    rcases h with rfl | rfl
    · exact Or.inl (by rw [replies_append, about_append])
    · refine Or.inr ?_
      rw [← about_append, ← replies_append]
      rfl
  rw [hone] at hsplit
  by_cases hn : t.number = n
  · subst hn
    rw [hX] at hsplit
    simpa using hsplit
  · simpa [hn] using hsplit

/-- An event that says nothing about a request and leaves the held submit alone. -/
theorem good_same {extra : List Action} (hg : Good s) (hreq : s'.requests = s.requests)
    (htr : s'.trace = s.trace ++ extra) (hx : ∀ n, about n extra = [])
    (hp : s'.bridge.pendingInput = s.bridge.pendingInput)
    (hr : s'.bridge.inputReplies = s.bridge.inputReplies) : Good s' :=
  good_dropped hg hreq htr hx (dropped_same hr hp)

section Steps

variable [DecidableEq Hash]

theorem good_input (hg : Good s) (c : Option Text) :
    Good (step joins herdr frameHash s (.input now request c)) := by
  cases h : serveInput joins herdr now request (some (⟨s.requests.length, c⟩ : Ticket)) s.bridge
      s.shared with
  | mk out rest =>
    obtain ⟨b', m'⟩ := rest
    obtain ⟨ack, b₁, ho, -, rfl, hout⟩ := serveInput_outcome h
    set t : Ticket := ⟨s.requests.length, c⟩ with ht
    set sends := sentFor (some t) s.shared.log m'.log with hsends
    set s' := step joins herdr frameHash s (.input now request c) with hs'
    have hbridge : s'.bridge = { b₁ with inputReplies := [] } := step_input_bridge frameHash h
    have hreq : s'.requests = s.requests ++ [(request, c)] := rfl
    have htrace : s'.trace = s.trace ++ sends ++ replies out := by
      simp only [hs', step, h, ← ht, hsends]
    -- the state with the held submit dealt with, before the reply to the request
    let s₁ : Thread Hash := { s with bridge := b₁ }
    have htold : told s₁ s.requests.length = [] →
        told s' = Function.update (told s₁) s.requests.length (sends ++ [.reply ack (some t)]) := by
      intro hfresh
      have hparts := told_eq s₁ s.requests.length
      rw [hfresh] at hparts
      obtain ⟨htr, hX⟩ := List.append_eq_nil_iff.mp hparts.symm
      funext n
      rw [told_eq, htrace, hbridge, about_append, about_append, about_sentFor, about_out hout hX]
      by_cases hn : n = s.requests.length
      · subst hn
        rw [Function.update_self, if_pos rfl, if_pos rfl]
        change about _ s.trace ++ _ ++ _ ++ about _ (replies []) = _
        rw [show about s.requests.length s.trace = [] from htr]
        simp [replies, about, hsends]
      · rw [Function.update_of_ne hn, if_neg (Ne.symm hn), if_neg (Ne.symm hn), told_eq]
        simp [replies, about, s₁]
    cases ho with
    | answered accepted dropped hd =>
      have hg₁ : Good s₁ := good_dropped hg rfl (List.append_nil _).symm (fun _ => rfl) hd
      have hup := htold (hg₁.inv.unasked _ (Nat.le_refl _))
      constructor
      · rw [hreq, hup, hbridge]
        refine hg₁.inv.answer ?_ ?_
        · exact .answered (newSends s.shared.log m'.log) accepted
        · intro heq
          have hlast := congrArg List.getLast? heq
          simp [queued] at hlast
      · intro p t' _ _
        rw [hbridge]
        rfl
    | held hwatch hpend hrep hnone =>
      let s₀ : Thread Hash := { s with bridge := s.bridge.cancelPendingInputs }
      have hg₀ : Good s₀ := good_dropped hg rfl (List.append_nil _).symm (fun _ => rfl)
        (dropped_cancel rfl (cancel_pendingInput _))
      have hsame : told s₁ = told s₀ := by
        funext n
        rw [told_eq, told_eq]
        change about n s.trace ++ about n (replies b₁.inputReplies) = _
        rw [hrep, ← cancel_inputReplies]
      have hinv := hg₀.inv
      have hp₀ : s₀.bridge.pendingInput = none := cancel_pendingInput _
      rw [hp₀] at hinv
      have hup := htold (by rw [hsame]; exact hinv.unasked _ (Nat.le_refl _))
      rw [hsame, hsends, sentFor_nil hnone] at hup
      constructor
      · rw [hreq, hup, hbridge]
        change Inv _ _ b₁.pendingInput
        rw [hpend]
        exact hinv.hold request c
      · intro p t' _ _
        rw [hbridge]
        rfl

theorem good_push (hg : Good s) (push : Push) :
    Good (step joins herdr frameHash s (.push now push)) := by
  set s' := step joins herdr frameHash s (.push now push) with hs'
  cases h : handleSubscriptionLine joins herdr now push s.bridge s.shared with
  | mk b' m' =>
    have hbridge : s'.bridge = b' := step_push_bridge frameHash h
    have hreq : s'.requests = s.requests := rfl
    have htrace : s'.trace = s.trace ++ sentFor (s.bridge.pendingInput.bind PendingInput.corr)
        s.shared.log m'.log := by
      simp only [hs', step, h]
    have hquiet : newSends s.shared.log m'.log = [] → s'.trace = s.trace ++ [] := by
      intro hnone
      rw [htrace, sentFor_nil hnone]
    cases push with
    | paneAgentStatusChanged paneId agentStatus =>
      simp only [handleSubscriptionLine] at h
      split at h
      · obtain ⟨hcases, -⟩ := release_cases h
        rw [← hbridge] at hcases
        cases hcases with
        | kept hp hr hnone => exact good_same hg hreq (hquiet hnone) (fun _ => rfl) hp hr
        | dropped hp hr hnone =>
          exact good_dropped hg hreq (hquiet hnone) (fun _ => rfl) ⟨hr, Or.inr ⟨rfl, hp⟩⟩
        | forwarded p ok _ hpend hp hr hsend =>
          obtain ⟨n, r, c, -, hpr, -⟩ := hg.inv.held p hpend
          have hcorr : p.corr = some ⟨n, c⟩ := by rw [hpr]
          have hown := hg.sent p ⟨n, c⟩ hpend hcorr
          have hsents : s'.trace = s.trace ++ [heldKeys r ⟨n, c⟩ ok] := by
            rw [htrace, hpend]
            change s.trace ++ sentFor p.corr _ _ = _
            unfold sentFor
            rw [hsend, hpr]
            rfl
          have hreply : replies s'.bridge.inputReplies
              = replies s.bridge.inputReplies ++ [final r ⟨n, c⟩ ok] := by
            rw [hr, replies_append, hpr]
            rfl
          have hup : told s' = Function.update (told s) n
              (told s n ++ [heldKeys r ⟨n, c⟩ ok, final r ⟨n, c⟩ ok]) := by
            funext k
            rw [told_eq, hsents, hreply, about_append, about_append]
            by_cases hk : k = n
            · subst hk
              rw [Function.update_self, told_eq, hown]
              simp [about, Action.about, heldKeys, final]
            · rw [Function.update_of_ne hk, told_eq]
              simp [about, Action.about, heldKeys, final, Ne.symm hk]
          constructor
          · rw [hreq, hp, hup]
            refine hg.inv.resolve hpend ?_ hcorr
            intro r' hr'
            obtain ⟨hpane, hkeys⟩ : r.paneId = r'.paneId ∧ r.keys.getD [] = r'.keys.getD [] := by
              simpa [hpr] using hr'
            refine ⟨by simp, ?_⟩
            have hf : final r ⟨n, c⟩ ok = final r' ⟨n, c⟩ ok := by simp [final, hpane]
            have hk : heldKeys r ⟨n, c⟩ ok = heldKeys r' ⟨n, c⟩ ok := by
              simp [heldKeys, hpane, hkeys]
            rw [hf, hk]
            exact .released ok
          · intro p' t hp' _
            rw [hp] at hp'
            exact absurd hp' (by simp)
      · obtain ⟨rfl, rfl⟩ := h
        exact good_same hg hreq (hquiet (newSends_self _)) (fun _ => rfl)
          (by rw [hbridge]) (by rw [hbridge])
    | paneUpdated paneId revision viewportRows =>
      obtain ⟨hp, hr, -, -, hnone⟩ := handlePaneUpdated_same h
      exact good_same hg hreq (hquiet hnone) (fun _ => rfl) (hbridge ▸ hp) (hbridge ▸ hr)
    | paneClosed paneId =>
      obtain ⟨rfl, rfl⟩ := h
      obtain ⟨⟨dropped, hd⟩, -⟩ := leavePane_dropped paneId s.bridge
      exact good_dropped hg hreq (hquiet (newSends_self _)) (fun _ => rfl) (hbridge ▸ hd)

theorem good_step (hg : Good s) (e : Event) : Good (step joins herdr frameHash s e) := by
  cases e with
  | input now request corr => exact good_input hg corr
  | push now push => exact good_push hg push
  | watchPane now paneId =>
    cases h : Watch.watchPane herdr frameHash now paneId s.bridge s.shared with
    | mk result rest =>
      obtain ⟨⟨dropped, hd⟩, -⟩ := watchPane_dropped h
      have hb := step_watchPane_bridge joins h
      refine good_dropped hg rfl rfl ?_ (hb ▸ hd)
      intro n
      split
      · rfl
      · rfl
  | unwatchPane paneId =>
    obtain ⟨⟨dropped, hd⟩, -⟩ := leavePane_dropped paneId s.bridge
    exact good_dropped hg rfl (List.append_nil _).symm (fun _ => rfl) hd
  | poll now =>
    cases h : pollScheduler herdr frameHash now s.bridge s.shared with
    | mk frame rest =>
      obtain ⟨hp, hr, -⟩ := pollScheduler_same h
      have hb := step_poll_bridge joins h
      exact good_same hg rfl rfl (fun n => about_put n _) (hb ▸ hp) (hb ▸ hr)
  | drain =>
    have htold : told (step joins herdr frameHash s .drain) = told s := by
      funext n
      rw [told_eq, told_eq]
      change about n (s.trace ++ replies s.bridge.inputReplies) ++ [] = _
      rw [about_append, List.append_nil]
    constructor
    · rw [htold]
      exact hg.inv
    · intro p t _ _
      rfl
  | cancelPending =>
    exact good_dropped hg rfl (List.append_nil _).symm (fun _ => rfl)
      (dropped_cancel rfl (cancel_pendingInput _))
  | inactive => exact good_same hg rfl (List.append_nil _).symm (fun _ => rfl) rfl rfl
  | others inputLines calls => exact good_same hg rfl (List.append_nil _).symm (fun _ => rfl) rfl rfl

omit [DecidableEq Hash] in
theorem good_start (config : RelayConfig) : Good (Thread.start config : Thread Hash) := by
  constructor
  · constructor
    · intro n _
      rfl
    · intro n r c hr
      exact absurd hr (by simp [Thread.start])
    · intro n r c hr _
      exact absurd hr (by simp [Thread.start])
    · intro p hp
      exact absurd hp (by simp [Thread.start])
  · intro p t hp _
    exact absurd hp (by simp [Thread.start])

theorem good_runFrom (hg : Good s) (es : List Event) :
    Good (runFrom joins herdr frameHash s es) := by
  induction es generalizing s with
  | nil => exact hg
  | cons e es ih => exact ih (good_step hg e)

theorem watching_step (hw : Watching s.bridge) (e : Event) :
    Watching (step joins herdr frameHash s e).bridge := by
  cases e with
  | input now request corr =>
    cases h : serveInput joins herdr now request (some (⟨s.requests.length, corr⟩ : Ticket)) s.bridge
        s.shared with
    | mk out rest =>
      obtain ⟨ack, b₁, ho, hkept, hb', -⟩ := serveInput_outcome h
      have hb := step_input_bridge frameHash h
      rw [hb, hb']
      cases ho with
      | answered accepted dropped hd =>
        rcases hd.pending with ⟨-, hp⟩ | ⟨-, hp⟩
        · exact watching_of_same (by rw [hkept.watched]) hp hw
        · exact watching_of_none hp
      | held hwatch hpend hrep hnone =>
        intro p hp
        obtain rfl := Option.some.inj (hpend.symm.trans hp)
        unfold Bridge.watches at hwatch ⊢
        rw [hkept.watched]
        exact hwatch
  | push now push =>
    cases h : handleSubscriptionLine joins herdr now push s.bridge s.shared with
    | mk b' m' =>
      have hb := step_push_bridge frameHash h
      rw [hb]
      cases push with
      | paneAgentStatusChanged paneId agentStatus =>
        simp only [handleSubscriptionLine] at h
        split at h
        · obtain ⟨hcases, hkept⟩ := release_cases h
          cases hcases with
          | kept hp hr hnone => exact watching_of_same (by rw [hkept.watched]) hp hw
          | dropped hp hr hnone => exact watching_of_none hp
          | forwarded p ok _ hpend hp hr hsend => exact watching_of_none hp
        · obtain ⟨rfl, rfl⟩ := h
          exact hw
      | paneUpdated paneId revision viewportRows =>
        obtain ⟨-, -, -, hkeep, -⟩ := handlePaneUpdated_same h
        exact hkeep hw
      | paneClosed paneId =>
        obtain ⟨rfl, rfl⟩ := h
        exact (leavePane_dropped paneId s.bridge).2.2 hw
  | watchPane now paneId =>
    cases h : Watch.watchPane herdr frameHash now paneId s.bridge s.shared with
    | mk result rest =>
      have hb := step_watchPane_bridge joins h
      rw [hb]
      exact (watchPane_dropped h).2.2 hw
  | unwatchPane paneId => exact (leavePane_dropped paneId s.bridge).2.2 hw
  | poll now =>
    cases h : pollScheduler herdr frameHash now s.bridge s.shared with
    | mk frame rest =>
      have hb := step_poll_bridge joins h
      rw [hb]
      exact (pollScheduler_same h).2.2.2 hw
  | drain => exact watching_of_same rfl rfl hw
  | cancelPending => exact watching_of_none (cancel_pendingInput _)
  | inactive => exact watching_of_same rfl rfl hw
  | others inputLines calls => exact hw

theorem watching_runFrom (hw : Watching s.bridge) (es : List Event) :
    Watching (runFrom joins herdr frameHash s es).bridge := by
  induction es generalizing s with
  | nil => exact hw
  | cons e es ih => exact ih (watching_step hw e)

/-- A step leaves the held submit, or holds one for an agent at work. -/
theorem pending_step {p : PendingInput Ticket} (e : Event)
    (hp : (step joins herdr frameHash s e).bridge.pendingInput = some p) :
    s.bridge.pendingInput = some p ∨ ∃ snapshot,
      herdr.sessionSnapshot s.shared.log = .ok snapshot ∧ working snapshot p.paneId = true := by
  have hdropped : ∀ {b' : Bridge Hash Ticket} {dropped : Option (PendingInput Ticket)},
      Dropped s.bridge b' dropped → b'.pendingInput = some p → s.bridge.pendingInput = some p := by
    intro b' dropped hd hp
    rcases hd.pending with ⟨-, hsame⟩ | ⟨-, hnone⟩
    · exact hsame ▸ hp
    · exact absurd (hnone.symm.trans hp) (by simp)
  cases e with
  | input now request corr =>
    cases h : serveInput joins herdr now request (some (⟨s.requests.length, corr⟩ : Ticket)) s.bridge
        s.shared with
    | mk out rest =>
      have hb := step_input_bridge frameHash h
      exact serveInput_pending h (hb ▸ hp)
  | push now push =>
    refine Or.inl ?_
    cases h : handleSubscriptionLine joins herdr now push s.bridge s.shared with
    | mk b' m' =>
      have hb := step_push_bridge frameHash h
      rw [hb] at hp
      cases push with
      | paneAgentStatusChanged paneId agentStatus =>
        simp only [handleSubscriptionLine] at h
        split at h
        · cases (release_cases h).1 with
          | kept hkept _ _ => exact hkept ▸ hp
          | dropped hnone _ _ => exact absurd (hnone.symm.trans hp) (by simp)
          | forwarded q ok _ _ hnone _ _ => exact absurd (hnone.symm.trans hp) (by simp)
        · cases h
          exact hp
      | paneUpdated paneId revision viewportRows =>
        exact (handlePaneUpdated_same h).1 ▸ hp
      | paneClosed paneId =>
        cases h
        obtain ⟨⟨dropped, hd⟩, -⟩ := leavePane_dropped paneId s.bridge
        exact hdropped hd hp
  | watchPane now paneId =>
    cases h : Watch.watchPane herdr frameHash now paneId s.bridge s.shared with
    | mk result rest =>
      have hb := step_watchPane_bridge joins h
      obtain ⟨⟨dropped, hd⟩, -⟩ := watchPane_dropped h
      exact Or.inl (hdropped hd (hb ▸ hp))
  | unwatchPane paneId =>
    obtain ⟨⟨dropped, hd⟩, -⟩ := leavePane_dropped paneId s.bridge
    exact Or.inl (hdropped hd hp)
  | poll now =>
    cases h : pollScheduler herdr frameHash now s.bridge s.shared with
    | mk frame rest =>
      have hb := step_poll_bridge joins h
      rw [hb] at hp
      exact Or.inl ((pollScheduler_same h).1 ▸ hp)
  | cancelPending =>
    have hnone : (step joins herdr frameHash s .cancelPending).bridge.pendingInput = none :=
      cancel_pendingInput s.bridge
    exact absurd (hnone.symm.trans hp) (by simp)
  | drain | inactive | others inputLines calls => exact Or.inl hp

/-- No send was made for request `n`. -/
def Unsent (n : Nat) (acts : List Action) : Prop := ∀ t send ok, .sent t send ok ∉ about n acts

theorem unsent_replies (n : Nat) (xs : List (Reply Ticket)) : Unsent n (replies xs) := by
  intro t send ok hmem
  have hrep := (List.mem_filter.mp hmem).1
  obtain ⟨⟨ack, ticket⟩, -, hx⟩ := List.mem_map.mp hrep
  cases hx

theorem Unsent.append {xs ys : List Action} (hx : Unsent n xs) (hy : Unsent n ys) :
    Unsent n (xs ++ ys) := by
  intro t send ok hmem
  rw [about_append] at hmem
  rcases List.mem_append.mp hmem with h | h
  · exact hx t send ok h
  · exact hy t send ok h

theorem unsent_of_nil {xs : List Action} (h : about n xs = []) : Unsent n xs := by
  intro t send ok hmem
  rw [h] at hmem
  exact absurd hmem (by simp)

variable (joins herdr frameHash) in
/-- After the end of the session nothing is sent for a request that was there. -/
theorem quiet_step (hend : s.bridge.sessionActive = some false) (e : Event) :
    (step joins herdr frameHash s e).bridge.sessionActive = some false ∧
    s.requests.length ≤ (step joins herdr frameHash s e).requests.length ∧
    ∀ n, n < s.requests.length → Unsent n s.trace →
      Unsent n (step joins herdr frameHash s e).trace := by
  cases e with
  | input now request corr =>
    cases h : serveInput joins herdr now request (some (⟨s.requests.length, corr⟩ : Ticket)) s.bridge
        s.shared with
    | mk out rest =>
      obtain ⟨ack, b₁, ho, hkept, hb', -⟩ := serveInput_outcome h
      have hb := step_input_bridge frameHash h
      refine ⟨?_, ?_, ?_⟩
      · rw [hb, hb']
        exact hkept.active.trans hend
      · change _ ≤ (s.requests ++ [_]).length
        rw [List.length_append]
        omega
      · intro n hn hs
        refine (hs.append (unsent_of_nil ?_)).append (unsent_replies n _)
        rw [about_sentFor, if_neg]
        exact Nat.ne_of_gt hn
  | push now push =>
    cases h : handleSubscriptionLine joins herdr now push s.bridge s.shared with
    | mk b' m' =>
      have hb := step_push_bridge frameHash h
      have hquiet : b'.sessionActive = some false ∧ newSends s.shared.log m'.log = [] := by
        cases push with
        | paneAgentStatusChanged paneId agentStatus =>
          simp only [handleSubscriptionLine] at h
          split at h
          · obtain ⟨hcases, hkept⟩ := release_cases h
            refine ⟨hkept.active.trans hend, ?_⟩
            cases hcases with
            | kept hp hr hnone => exact hnone
            | dropped hp hr hnone => exact hnone
            | forwarded p ok hact hpend hp hr hsend => exact absurd hend hact
          · obtain ⟨rfl, rfl⟩ := h
            exact ⟨hend, newSends_self _⟩
        | paneUpdated paneId revision viewportRows =>
          obtain ⟨-, -, hact, -, hnone⟩ := handlePaneUpdated_same h
          exact ⟨hact.trans hend, hnone⟩
        | paneClosed paneId =>
          obtain ⟨rfl, rfl⟩ := h
          exact ⟨(leavePane_dropped paneId s.bridge).2.1.trans hend, newSends_self _⟩
      have htrace : (step joins herdr frameHash s (.push now push)).trace = s.trace := by
        simp only [step, h]
        rw [sentFor_nil hquiet.2, List.append_nil]
      refine ⟨by rw [hb, hquiet.1], Nat.le_refl _, ?_⟩
      intro n hn hs
      rw [htrace]
      exact hs
  | watchPane now paneId =>
    cases h : Watch.watchPane herdr frameHash now paneId s.bridge s.shared with
    | mk result rest =>
      have hb := step_watchPane_bridge joins h
      refine ⟨by rw [hb, (watchPane_dropped h).2.1, hend], Nat.le_refl _, ?_⟩
      intro n hn hs
      refine hs.append (unsent_of_nil ?_)
      split
      · rfl
      · rfl
  | unwatchPane paneId =>
    exact ⟨(leavePane_dropped paneId s.bridge).2.1.trans hend, Nat.le_refl _, fun n _ hs => hs⟩
  | poll now =>
    cases h : pollScheduler herdr frameHash now s.bridge s.shared with
    | mk frame rest =>
      have hb := step_poll_bridge joins h
      refine ⟨by rw [hb, (pollScheduler_same h).2.2.1, hend], Nat.le_refl _, ?_⟩
      intro n hn hs
      exact hs.append (unsent_of_nil (about_put n _))
  | drain => exact ⟨hend, Nat.le_refl _, fun n _ hs => hs.append (unsent_replies n _)⟩
  | cancelPending => exact ⟨(kept_cancel _).active.trans hend, Nat.le_refl _, fun n _ hs => hs⟩
  | inactive => exact ⟨rfl, Nat.le_refl _, fun n _ hs => hs⟩
  | others inputLines calls => exact ⟨hend, Nat.le_refl _, fun n _ hs => hs⟩

theorem quiet_runFrom (hend : s.bridge.sessionActive = some false) (hn : n < s.requests.length)
    (hs : Unsent n s.trace) (es : List Event) :
    Unsent n (runFrom joins herdr frameHash s es).trace := by
  induction es generalizing s with
  | nil => exact hs
  | cons e es ih =>
    obtain ⟨hend', hlen, hkeep⟩ := quiet_step joins herdr frameHash hend e
    exact ih hend' (Nat.lt_of_lt_of_le hn hlen) (hkeep n hn hs)

/-- The submit of request `n` is held: it was answered as queued and nothing more. -/
def Waiting (s : Thread Hash) (n : Nat) : Prop :=
  ∃ r c, s.requests[n]? = some (r, c) ∧ about n s.trace = [queued r ⟨n, c⟩]

/-- What a session owes its requests, once its replies are drained. -/
structure HeldSubmits (s : Thread Hash) : Prop where
  story : ∀ n r c, s.requests[n]? = some (r, c) → Story r ⟨n, c⟩ (about n s.trace)
  unasked : ∀ n, s.requests.length ≤ n → about n s.trace = []
  one : ∀ n k, Waiting s n → Waiting s k → n = k
  watched : ∀ n r c, s.requests[n]? = some (r, c) → Waiting s n → s.bridge.watches r.paneId = true

omit [DecidableEq Hash] in
theorem waiting_pending (hg : Good s) (hd : s.bridge.inputReplies = []) (hw : Waiting s n) :
    ∃ r c, s.requests[n]? = some (r, c) ∧
      s.bridge.pendingInput = some ⟨r.paneId, r.keys.getD [], some ⟨n, c⟩⟩ := by
  obtain ⟨r, c, hr, htrace⟩ := hw
  refine ⟨r, c, hr, hg.inv.waiting n r c hr ?_⟩
  rw [told_eq, hd, htrace]
  rfl

omit [DecidableEq Hash] in
theorem heldSubmits_of_good (hg : Good s) (hw : Watching s.bridge)
    (hd : s.bridge.inputReplies = []) : HeldSubmits s := by
  have htold : ∀ n, told s n = about n s.trace := by
    intro n
    rw [told_eq, hd]
    exact List.append_nil _
  constructor
  · intro n r c hr
    rw [← htold]
    exact hg.inv.story n r c hr
  · intro n hn
    rw [← htold]
    exact hg.inv.unasked n hn
  · intro n k hwn hwk
    obtain ⟨r, c, -, hpn⟩ := waiting_pending hg hd hwn
    obtain ⟨r', c', -, hpk⟩ := waiting_pending hg hd hwk
    rw [hpn] at hpk
    have hnum := congrArg (Option.map fun p => p.corr.map Ticket.number) hpk
    simpa using hnum
  · intro n r c hr hwn
    obtain ⟨r', c', hr', hp⟩ := waiting_pending hg hd hwn
    obtain ⟨rfl, rfl⟩ : r' = r ∧ c' = c := by simpa [hr] using hr'.symm
    exact hw _ hp

/-- What ends the wait of a submit for a pane. -/
inductive EndsWait (paneId : PaneId) : Event → Prop
  | cancel (now : Nat) (request : SendInput) (corr : Option Text) : request.paneId = paneId →
      request.defer = some .cancel → request.bypassLine ≠ some true → request.line = none →
      request.text = none → request.keys = none → EndsWait paneId (.input now request corr)
  | keys (now : Nat) (request : SendInput) (corr : Option Text) : request.paneId = paneId →
      request.defer = none → validateSendInput request = .ok () → endsHeld request = true →
      EndsWait paneId (.input now request corr)
  | status (now : Nat) (status : Text) : status ≠ "working".toList →
      EndsWait paneId (.push now (.paneAgentStatusChanged paneId (some status)))
  | closed (now : Nat) : EndsWait paneId (.push now (.paneClosed paneId))
  | unwatch : EndsWait paneId (.unwatchPane paneId)
  | cancelPending : EndsWait paneId .cancelPending

theorem pending_after_end {e : Event} {p : PendingInput Ticket} (hw : Watching s.bridge)
    (hp : s.bridge.pendingInput = some p) (he : EndsWait p.paneId e) :
    (step joins herdr frameHash s e).bridge.pendingInput = none := by
  have hleave : (leavePane p.paneId s.bridge).pendingInput = none := by
    have hwatch := hw p hp
    unfold Bridge.watches at hwatch
    unfold leavePane
    rw [if_pos hwatch]
    exact cancel_pendingInput _
  cases he with
  | cancel now request corr hid hdefer hbypass hline htext hkeys =>
    have hany : s.bridge.pendingInput.any (·.paneId == request.paneId) = true := by
      simp [hp, hid]
    have hplain : ¬(request.line.isSome ∨ request.text.isSome ∨ request.keys.isSome) := by
      simp [hline, htext, hkeys]
    have hcancel : deferred joins herdr now request (some ⟨s.requests.length, corr⟩) s.bridge
        s.shared = (.ok ⟨request.paneId, true, false⟩, s.bridge.cancelPendingInputs, s.shared) := by
      unfold deferred
      rw [if_neg hbypass, hdefer]
      show deferCancel { request with defer := none } s.bridge s.shared = _
      unfold deferCancel
      rw [if_neg hplain, if_pos hany]
    show (serveInput joins herdr now request _ s.bridge s.shared).2.1.pendingInput = none
    unfold serveInput
    rw [if_pos (by rw [hdefer]; rfl)]
    unfold handleDeferredInput
    rw [hcancel]
    exact cancel_pendingInput s.bridge
  | keys now request corr hid hdefer hvalid hends =>
    have hwatch : s.bridge.requireWatched request.paneId = .ok () :=
      Bridge.requireWatched_iff.mpr (hid ▸ hw p hp)
    show (serveInput joins herdr now request _ s.bridge s.shared).2.1.pendingInput = none
    unfold serveInput
    rw [if_neg (by rw [hdefer]; exact Bool.false_ne_true)]
    show (sendInput joins herdr now request s.bridge s.shared).2.1.pendingInput = none
    unfold sendInput
    simp only [hwatch, hvalid, hends, if_true, Bridge.afterInput_pendingInput, cancel_pendingInput]
  | status now status hne =>
    have hany : (some status).any (· ≠ "working".toList) = true := decide_eq_true hne
    cases h : releasePendingInput joins herdr now p.paneId s.bridge s.shared with
    | mk b' m' =>
      have hline : handleSubscriptionLine joins herdr now
          (.paneAgentStatusChanged p.paneId (some status)) s.bridge s.shared = (b', m') := by
        unfold handleSubscriptionLine
        rw [← h]
        exact if_pos hany
      have hb : (step joins herdr frameHash s
          (.push now (.paneAgentStatusChanged p.paneId (some status)))).bridge = b' :=
        congrArg Prod.fst hline
      rw [hb]
      exact release_none hp rfl h
  | closed now => exact hleave
  | unwatch => exact hleave
  | cancelPending => exact cancel_pendingInput _

/-- Over every run of a session: each request has its one story, so that a submit that
was queued gets at most one more reply, and its keys go to Herdr at most once, to its
own pane and before that reply; at most one submit waits, and its pane is watched; every
event that ends the wait brings the final reply, the cancel of an orderly end included;
and once the session has ended the keys of a waiting submit are never sent. -/
theorem held_submits (joins : Graphemes) (herdr : HerdrCalls) (frameHash : FrameHash Hash)
    (config : RelayConfig) (es : List Event) :
    let s := run joins herdr frameHash config (es ++ [.drain])
    HeldSubmits s ∧
    (∀ n r c e, s.requests[n]? = some (r, c) → Waiting s n → EndsWait r.paneId e →
      ¬Waiting (runFrom joins herdr frameHash s [e, .drain]) n) ∧
    ∀ n es', Waiting s n →
      Unsent n (runFrom joins herdr frameHash s (.inactive :: es')).trace := by
  intro s
  have hgood : Good s := good_runFrom (good_start config) _
  have hwatching : Watching s.bridge := watching_runFrom (watching_of_none rfl) _
  have hdrained : s.bridge.inputReplies = [] := by
    simp only [s, run, runFrom, List.foldl_append]
    rfl
  refine ⟨heldSubmits_of_good hgood hwatching hdrained, ?_, ?_⟩
  · intro n r c e hr hwait hends hstill
    obtain ⟨r', c', hr', hp⟩ := waiting_pending hgood hdrained hwait
    obtain ⟨rfl, rfl⟩ : r' = r ∧ c' = c := by simpa [hr] using hr'.symm
    have hnone : (runFrom joins herdr frameHash s [e, .drain]).bridge.pendingInput = none :=
      pending_after_end hwatching hp hends
    obtain ⟨r₂, c₂, -, hp₂⟩ := waiting_pending (good_runFrom hgood _) rfl hstill
    rw [hnone] at hp₂
    exact absurd hp₂ (by simp)
  · intro n es' hwait
    obtain ⟨r, c, hr, htrace⟩ := hwait
    let s' := step joins herdr frameHash s .inactive
    have hlen : n < s'.requests.length := (List.getElem?_eq_some_iff.mp hr).1
    refine quiet_runFrom (s := s') rfl hlen ?_ es'
    intro t send ok hmem
    change _ ∈ about n s.trace at hmem
    rw [htrace] at hmem
    simp [queued] at hmem

end Steps

/-- Every submit that was answered as queued has its final reply. -/
def QueuedAnswered (s : Thread Hash) : Prop :=
  ∀ n r c, s.requests[n]? = some (r, c) → queued r ⟨n, c⟩ ∈ s.trace →
    ∃ accepted, final r ⟨n, c⟩ accepted ∈ s.trace

/-- Herdr with one pane, whose agent works. -/
def busy : HerdrCalls where
  send _ _ := true
  sessionSnapshot _ := .ok ⟨[⟨['p'], 1, ⟨0, 0, 24⟩⟩], [⟨['p'], "working".toList⟩]⟩
  paneLayout _ _ := some [⟨some ['p'], some 80⟩]
  paneReadVisible _ _ := some (some ['x'])

def submit : SendInput :=
  { paneId := ['p'], keys := some ["Enter".toList], defer := some .untilIdle }

/-- The connection is lost while a submit is held: no final reply follows. -/
theorem lost_reply :
    ¬QueuedAnswered (run (fun _ _ => false) busy (fun _ _ _ => ()) ⟨120, 125, [60, 130, 250], 16⟩
      [.watchPane 0 ['p'], .drain, .input 1 submit (some ['7']), .drain, .inactive, .drain]) := by
  intro h
  obtain ⟨accepted, hfinal⟩ := h 0 submit (some ['7']) (by decide) (by decide)
  cases accepted with
  | false => exact absurd hfinal (by decide)
  | true => exact absurd hfinal (by decide)

end HerdrMobile.Host.HeldRuns
