import HerdrMobile.App.OwnLog

/-!
# The acknowledgements of the computer at hand

The acknowledgements in memory are of one computer and are read anew for each. They are what the
store has, as long as they are read without a failure and nothing is stored in between.
-/
namespace HerdrMobile.App.OwnCache

open HerdrMobile.Lib.Strings
open HerdrMobile.App.PlainStore (NotificationAck savedAck)
open HerdrMobile.App.AgentStatus HerdrMobile.App.Acknowledged HerdrMobile.App.OwnLog
open HerdrMobile.App.AckRuns (Plain captured reports_host onAgent_eq)

set_option autoImplicit false

/-- The acknowledgements of the computer that have been read are those of the store now. -/
def Read (hostId : Text) (s : State) (ok : Bool) : Prop :=
  s.acksHostId = some hostId →
    ok = true ∧ captured s.loading = some (s.store.filter fun ack => decide (ack.hostId = hostId))

instance (hostId : Text) (s : State) (ok : Bool) : Decidable (Read hostId s ok) :=
  inferInstanceAs (Decidable (s.acksHostId = some hostId →
    ok = true ∧ captured s.loading = some (s.store.filter fun ack => decide (ack.hostId = hostId))))

/-- What is in memory is stored, and all of it is there unless it is being read. -/
structure Cache (hostId : Text) (s : State) : Prop where
  part : ∀ p ack, s.acks p = some ack → stored s.store hostId p = some ack
  whole : s.loading = .idle ∨ s.loading = .ready → Cached hostId s

structure Inv (hostId : Text) (s : State) : Prop where
  sound : Sound s
  current : Plain s.currentHostId
  queue : ∀ message ∈ s.queue, Plain message.hostId
  head : s.loading ≠ .idle → ∃ message ∈ s.queue.head?, message.taken = true ∧
    s.acksHostId = some message.hostId
  cache : s.acksHostId = some hostId → Cache hostId s

/-- Only rows, saves and records change. -/
structure Keeps (s t : State) : Prop where
  currentHostId : t.currentHostId = s.currentHostId
  acks : t.acks = s.acks
  acksHostId : t.acksHostId = s.acksHostId
  queue : t.queue = s.queue
  loading : t.loading = s.loading
  store : t.store = s.store

section Steps

variable {times : Times} {s t u : State} {hostId : Text}

theorem keeps_refl (s : State) : Keeps s s := ⟨rfl, rfl, rfl, rfl, rfl, rfl⟩

theorem Keeps.trans (h : Keeps s t) (h' : Keeps t u) : Keeps s u where
  currentHostId := h'.currentHostId.trans h.currentHostId
  acks := h'.acks.trans h.acks
  acksHostId := h'.acksHostId.trans h.acksHostId
  queue := h'.queue.trans h.queue
  loading := h'.loading.trans h.loading
  store := h'.store.trans h.store

theorem Inv.keep (h : Inv hostId s) (hkeeps : Keeps s t) (hsound : Sound t) : Inv hostId t where
  sound := hsound
  current := by
    rw [hkeeps.currentHostId]
    exact h.current
  queue := by
    rw [hkeeps.queue]
    exact h.queue
  head := by
    rw [hkeeps.loading, hkeeps.queue, hkeeps.acksHostId]
    exact h.head
  cache hacks := by
    rw [hkeeps.acksHostId] at hacks
    refine ⟨?_, ?_⟩
    · rw [hkeeps.acks, hkeeps.store]
      exact (h.cache hacks).part
    · rw [hkeeps.loading, Cached, hkeeps.acks, hkeeps.store]
      exact (h.cache hacks).whole

theorem keeps_putItem (s : State) (item : AttentionItem) (seen : Bool) :
    Keeps s (s.putItem item seen) := ⟨rfl, rfl, rfl, rfl, rfl, rfl⟩

theorem keeps_removeItem (s : State) (item : AttentionItem) : Keeps s (s.removeItem item) :=
  ⟨rfl, rfl, rfl, rfl, rfl, rfl⟩

theorem keeps_enqueue (s : State) (save : Save) : Keeps s (s.enqueue save) :=
  ⟨rfl, rfl, rfl, rfl, rfl, rfl⟩

theorem keeps_live (s : State) (item : AttentionItem) :
    Keeps s (s.onLiveAgentStatus times item) := by
  unfold State.onLiveAgentStatus
  split
  · exact ⟨rfl, rfl, rfl, rfl, rfl, rfl⟩
  · split
    · exact keeps_removeItem s item
    · exact keeps_putItem s item true

theorem keeps_snapshot (s : State) (items : List AttentionItem) :
    Keeps s (s.onTreeSnapshot times items) := by
  induction items generalizing s with
  | nil => exact keeps_refl s
  | cons item rest ih =>
    have hfirst : Keeps s ((s.report item).onAgent times item) := by
      obtain ⟨log, objects, heq⟩ := @onAgent_eq times (s.report item) item
      rw [heq]
      exact ⟨rfl, rfl, rfl, rfl, rfl, rfl⟩
    exact hfirst.trans (ih _)

theorem keeps_message (s : State) (message : Message) : Keeps s (s.onMessage times message) := by
  cases message with
  | agentStatus status =>
    have hreport : Keeps s (s.report status) := ⟨rfl, rfl, rfl, rfl, rfl, rfl⟩
    exact hreport.trans (keeps_live _ status)
  | treeSnapshot host agents => exact keeps_snapshot s _

theorem keeps_markSeen (s : State) (paneId : Text) : Keeps s (s.markSeen paneId) := by
  unfold State.markSeen
  split
  · exact keeps_refl s
  · split
    · exact ⟨rfl, rfl, rfl, rfl, rfl, rfl⟩
    · exact (keeps_putItem s _ true).trans (keeps_enqueue _ _)

theorem keeps_remove (s : State) (paneId : Text) : Keeps s (s.remove paneId) := by
  unfold State.remove
  split
  · exact keeps_refl s
  · exact keeps_enqueue s _

theorem keeps_transitionAll (s : State) (removed : Bool) : Keeps s (s.transitionAll removed) := by
  rw [State.transitionAll, transitions_eq]
  exact ⟨rfl, rfl, rfl, rfl, rfl, rfl⟩

theorem keeps_transition (s : State) (save : Save) : Keeps s (s.applyTransition save) := by
  unfold State.applyTransition
  split
  · exact keeps_refl s
  · split
    · split
      · exact keeps_removeItem s _
      · exact keeps_putItem s _ true
    · exact keeps_refl s

theorem inv_arrive (h : Inv hostId s) {message : Message} (hplain : Plain message.hostId) :
    Inv hostId { s with queue := s.queue ++ [message] } where
  sound := ⟨h.sound.keyed, h.sound.rows, h.sound.saves⟩
  current := h.current
  queue m hm := by
    obtain hold | hnew := List.mem_append.mp hm
    · exact h.queue m hold
    · rw [List.mem_singleton.mp hnew]
      exact hplain
  head hloading := by
    obtain ⟨first, hfirst, htaken⟩ := h.head hloading
    refine ⟨first, ?_, htaken⟩
    show first ∈ (s.queue ++ [message]).head?
    rw [List.head?_append, Option.mem_def.mp hfirst]
    rfl
  cache hacks := ⟨(h.cache hacks).part, (h.cache hacks).whole⟩

theorem inv_begin (h : Inv hostId s) (hs : s.begin = some t) : Inv hostId t := by
  unfold State.begin at hs
  split at hs
  · next message rest hidle hqueue =>
    split at hs
    · cases hs
      refine ⟨⟨h.sound.keyed, h.sound.rows, h.sound.saves⟩, h.current, fun m hm => ?_,
        fun hloading => absurd hidle hloading, fun hacks => ?_⟩
      · exact h.queue m (hqueue ▸ List.mem_cons_of_mem _ hm)
      · exact ⟨(h.cache hacks).part, (h.cache hacks).whole⟩
    · next hdropped =>
      have htaken : message.taken = true := by simpa using hdropped
      have hfirst : message ∈ s.queue.head? := by rw [hqueue]; rfl
      split at hs
      · next hacks =>
        cases hs
        refine ⟨⟨h.sound.keyed, h.sound.rows, h.sound.saves⟩, h.current, h.queue,
          fun _ => ⟨message, hfirst, htaken, hacks⟩, fun hown => ?_⟩
        exact ⟨(h.cache hown).part, fun _ => (h.cache hown).whole (.inl hidle)⟩
      · cases hs
        refine ⟨⟨h.sound.keyed, h.sound.rows, h.sound.saves⟩, h.current, h.queue,
          fun _ => ⟨message, hfirst, htaken, rfl⟩, fun hown => ⟨fun p ack hack => ?_, ?_⟩⟩
        · cases hack
        · rintro (hloading | hloading)
          · cases hloading
          · cases hloading
  · cases hs

theorem inv_read (h : Inv hostId s) {list : List NotificationAck}
    (hloading : s.loading = .reading) :
    Inv hostId { s with loading := .captured list } where
  sound := ⟨h.sound.keyed, h.sound.rows, h.sound.saves⟩
  current := h.current
  queue := h.queue
  head _ := h.head (by rw [hloading]; exact Loading.noConfusion)
  cache hacks := by
    refine ⟨(h.cache hacks).part, ?_⟩
    rintro (hnow | hnow)
    · cases hnow
    · cases hnow

/-- All that is stored has been read. -/
theorem inv_loaded (h : Inv hostId s) {list : List NotificationAck} {ok : Bool}
    (hloading : s.loading = .captured list) (hread : Read hostId s ok) :
    Inv hostId { s with acks := if ok then fill s.acks list else s.acks, loading := .ready } where
  sound := ⟨h.sound.keyed, h.sound.rows, h.sound.saves⟩
  current := h.current
  queue := h.queue
  head _ := h.head (by rw [hloading]; exact Loading.noConfusion)
  cache hacks := by
    obtain ⟨hok, hlist⟩ := hread hacks
    rw [hloading] at hlist
    have hown : list = s.store.filter fun ack => decide (ack.hostId = hostId) :=
      Option.some.inj hlist
    have hall : ∀ p, fill s.acks list p = stored s.store hostId p := by
      intro p
      have hfill : fill (fun _ => none) list p = stored s.store hostId p := by
        rw [hown]
        rfl
      rw [fill_eq, hfill]
      cases hp : s.acks p with
      | none => exact Option.or_none
      | some ack =>
        rw [(h.cache hacks).part p ack hp]
        rfl
    subst hok
    refine ⟨fun p ack hack => ?_, fun _ p => hall p⟩
    rw [← hall p]
    exact hack

theorem inv_apply (h : Inv hostId s) {message : Message} {rest : List Message}
    (hloading : s.loading = .ready) (hqueue : s.queue = message :: rest) :
    Inv hostId (State.onMessage times { s with queue := rest, loading := .idle } message) := by
  have hfirst : Inv hostId { s with queue := rest, loading := .idle } := by
    refine ⟨⟨h.sound.keyed, h.sound.rows, h.sound.saves⟩, h.current,
      fun m hm => h.queue m (hqueue ▸ List.mem_cons_of_mem _ hm), fun hne => absurd rfl hne,
      fun hacks => ?_⟩
    exact ⟨(h.cache hacks).part, fun _ => (h.cache hacks).whole (.inr hloading)⟩
  have hplain := h.queue message (hqueue ▸ List.mem_cons_self)
  exact hfirst.keep (keeps_message _ message) (sound_message hfirst.sound hplain)

theorem fill_one (acks : Text → Option NotificationAck) (ack : NotificationAck) (p : Text) :
    fill acks [ack] p = if p = ack.paneId then some ack else acks p := rfl

theorem inv_remembered (h : Inv hostId s) {save : Save} :
    Inv hostId ((s.written save).remembered save) := by
  have hstored := fun p => stored_savedAck s.store (save.item.ack save.removed) hostId p
  unfold State.remembered
  split
  · next hmine =>
    refine ⟨⟨h.sound.keyed, h.sound.rows, h.sound.saves⟩, h.current, h.queue, h.head,
      fun hacks => ?_⟩
    have hhost : hostId = save.item.hostId := Option.some.inj (hacks.symm.trans hmine)
    have hcache := h.cache hacks
    refine ⟨fun p ack hack => ?_, fun hloading p => ?_⟩
    · have hack : fill s.acks [save.item.ack save.removed] p = some ack := hack
      show stored (savedAck s.store (save.item.ack save.removed)) hostId p = some ack
      rw [fill_one] at hack
      rw [hstored]
      by_cases hpane : p = (save.item.ack save.removed).paneId
      · rw [if_pos hpane] at hack
        rw [if_pos ⟨hhost, hpane⟩]
        exact hack
      · rw [if_neg hpane] at hack
        rw [if_neg fun hsame => hpane hsame.2]
        exact hcache.part p ack hack
    · show fill s.acks [save.item.ack save.removed] p =
        stored (savedAck s.store (save.item.ack save.removed)) hostId p
      rw [fill_one, hstored]
      by_cases hpane : p = (save.item.ack save.removed).paneId
      · rw [if_pos hpane, if_pos ⟨hhost, hpane⟩]
      · rw [if_neg hpane, if_neg fun hsame => hpane hsame.2]
        exact hcache.whole hloading p
  · next hother =>
    refine ⟨⟨h.sound.keyed, h.sound.rows, h.sound.saves⟩, h.current, h.queue, h.head,
      fun hacks => ?_⟩
    have hhost : hostId ≠ save.item.hostId := by
      intro hsame
      refine hother ?_
      rw [← hsame]
      exact hacks
    have hsame : ∀ p, stored (s.written save).store hostId p = stored s.store hostId p := by
      intro p
      refine (hstored p).trans (if_neg fun hboth => hhost hboth.1)
    refine ⟨fun p ack hack => ?_, fun hloading p => ?_⟩
    · rw [hsame]
      exact (h.cache hacks).part p ack hack
    · rw [hsame]
      exact (h.cache hacks).whole hloading p

theorem inv_returned (h : Inv hostId s) {save : Save} {rest : List Save}
    (hsaves : s.saves = save :: rest) : Inv hostId (returned s rest) :=
  h.keep ⟨rfl, rfl, rfl, rfl, rfl, rfl⟩ (sound_returned h.sound hsaves)

theorem inv_acknowledge (h : Inv hostId s) {save : Save} (hplain : Plain save.item.hostId) :
    Inv hostId (s.acknowledge save) := by
  have hremembered := @inv_remembered s hostId h save
  have hkeeps := keeps_transition ((s.written save).remembered save) save
  exact hremembered.keep ⟨hkeeps.currentHostId, hkeeps.acks, hkeeps.acksHostId, hkeeps.queue,
    hkeeps.loading, hkeeps.store⟩ (sound_acknowledge h.sound hplain)

theorem inv_saved (h : Inv hostId s) {save : Save} {rest : List Save}
    (hsaves : s.saves = save :: rest) (ok : Bool) :
    Inv hostId (if ok then (returned s rest).acknowledge save else returned s rest) := by
  have hreturned := inv_returned h hsaves
  cases ok with
  | false => exact hreturned
  | true => exact inv_acknowledge hreturned (h.sound.saves save (hsaves ▸ List.mem_cons_self)).1

theorem saved_queue (s : State) (save : Save) (rest : List Save) (ok : Bool) :
    (if ok then (returned s rest).acknowledge save else returned s rest).queue = s.queue := by
  cases ok with
  | false => rfl
  | true =>
    have hkeeps := keeps_transition (((returned s rest).written save).remembered save) save
    refine hkeeps.queue.trans ?_
    unfold State.remembered
    split
    · rfl
    · rfl

end Steps

end HerdrMobile.App.OwnCache
