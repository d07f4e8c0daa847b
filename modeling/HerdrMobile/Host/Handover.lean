import HerdrMobile.Host.Subscription

/-!
# What the unread lines still bring

The Device's tree, the coverage of the panes, the statuses that are owed and the held
submit, each as a relation between what Herdr has and what the lines that have not been
read will make of the thread. Every relation is kept when Herdr pushes and when a line is
read.
-/
namespace HerdrMobile.Host.Handover

open HerdrMobile.Proto.Messages HerdrMobile.Proto.Tree HerdrMobile.App.Tree
open HerdrMobile.Host.Herdr HerdrMobile.Host.Input HerdrMobile.Host.Held
open HerdrMobile.Host.Incoming HerdrMobile.Host.Subscription

set_option autoImplicit false

variable {items rest : List Item} {item : Item} {number : Nat} {push : Incoming.Push} {w : World}

def Item.push? : Item → Option Incoming.Push
  | .push _ push => some push
  | _ => none

/-- The pushes among some lines. -/
def pushes (items : List Item) : List Incoming.Push := items.filterMap Item.push?

theorem pushes_append (items rest : List Item) :
    pushes (items ++ rest) = pushes items ++ pushes rest := List.filterMap_append

theorem pushes_other (h : Item.push? item = none) : pushes (item :: rest) = pushes rest := by
  unfold pushes
  rw [List.filterMap_cons, h]

/-- The lines lead to Herdr's tree from a tree that the Device has, if it has any. -/
def Reaches (items : List Item) (tree : TreeSnapshot) (device : Option TreeSnapshot) : Prop :=
  ∃ t, applyAll t ((pushes items).map Push.update) = tree ∧ ∀ d, device = some d → d = t

theorem applyAll_append (t : TreeSnapshot) (us vs : List TreeUpdate) :
    applyAll t (us ++ vs) = applyAll (applyAll t us) vs := List.foldl_append

theorem Reaches.change {device : Option TreeSnapshot} (h : Reaches items w.tree device)
    (number : Nat) (push : Incoming.Push) :
    Reaches (items ++ [.push number push]) (announce w push).tree device := by
  obtain ⟨t, ht, hd⟩ := h
  refine ⟨t, ?_, hd⟩
  rw [pushes_append, List.map_append, applyAll_append, ht]
  rfl

theorem Reaches.snapshot {device : Option TreeSnapshot} {tree : TreeSnapshot}
    (h : Reaches items tree device) : Reaches items tree (some tree) := by
  obtain ⟨t, ht, -⟩ := h
  refine ⟨tree, ?_, fun d hd => (Option.some.inj hd).symm⟩
  rw [← ht]
  exact applyAll_applyAll t _

theorem Reaches.none {tree : TreeSnapshot} : Reaches [] tree none :=
  ⟨tree, rfl, fun d hd => by cases hd⟩

theorem Reaches.same_pushes {tree : TreeSnapshot} {device : Option TreeSnapshot}
    (h : Reaches items tree device) (hp : pushes rest = pushes items) :
    Reaches rest tree device := by
  unfold Reaches
  rw [hp]
  exact h

/-- A line is read: its update goes out, and perhaps a snapshot after it. -/
theorem Reaches.hear {tree : TreeSnapshot} {messages : List Message}
    (h : Reaches (.push number push :: rest) tree (conveyed messages)) (notice : Option AgentStatus)
    {snapshot : Option TreeSnapshot} (hsnapshot : ∀ s, snapshot = some s → s = tree) :
    Reaches rest tree (conveyed (messages ++ messagesOf push notice snapshot)) := by
  obtain ⟨t, ht, hd⟩ := h
  have hrest : applyAll (applyTreeUpdate t push.update) ((pushes rest).map Push.update) = tree := ht
  have hupdated : ∀ d, (conveyed messages).map (applyTreeUpdate · push.update) = some d →
      d = applyTreeUpdate t push.update := by
    intro d hmap
    obtain ⟨d', hd', rfl⟩ := Option.map_eq_some_iff.mp hmap
    rw [hd d' hd']
  have hreaches : Reaches rest tree
      ((conveyed messages).map (applyTreeUpdate · push.update)) := ⟨_, hrest, hupdated⟩
  have hconveyed : conveyed (messages ++ messagesOf push notice snapshot)
      = snapshot.or ((conveyed messages).map (applyTreeUpdate · push.update)) := by
    rw [conveyed_append]
    unfold messagesOf
    cases notice <;> cases snapshot <;> rfl
  rw [hconveyed]
  cases snapshot with
  | none => exact hreaches
  | some s =>
    rw [hsnapshot s rfl]
    exact hreaches.snapshot

/-- A line says that the pane was created. -/
def Created (items : List Item) (paneId : PaneId) : Prop :=
  ∃ push ∈ pushes items, push.event = .paneCreated ∧ push.pane.map PaneSummary.paneId = some paneId

/-- Every pane has an entry, or a line that will lead to one, or one is to come. -/
def Covers (entries : PaneId → Bool) (items : List Item) (resubscribe : Bool) (w : World) : Prop :=
  ∀ paneId, (w.tree.panes paneId).isSome →
    entries paneId = true ∨ Created items paneId ∨ resubscribe = true

theorem Created.append {paneId : PaneId} (h : Created items paneId) (rest : List Item) :
    Created (items ++ rest) paneId := by
  obtain ⟨push, hmem, hpush⟩ := h
  refine ⟨push, ?_, hpush⟩
  rw [pushes_append]
  exact List.mem_append_left _ hmem

theorem isSome_of_update {α : Type} {m : Text → Option α} {key id : Text} {x : Option α}
    (h : (Function.update m key x id).isSome) : (m id).isSome ∨ id = key ∧ x.isSome := by
  by_cases hid : id = key
  · subst hid
    rw [Function.update_self] at h
    exact Or.inr ⟨rfl, h⟩
  · rw [Function.update_of_ne hid] at h
    exact Or.inl h

theorem isSome_of_filter {α : Type} {p : α → Bool} {x : Option α} (h : (x.filter p).isSome) :
    x.isSome := by
  cases x with
  | none => exact h
  | some a => rfl

/-- Only the line of its creation brings a pane into being. -/
theorem panes_of_update (h : announceable w push = true) {paneId : PaneId}
    (hp : ((applyTreeUpdate w.tree push.update).panes paneId).isSome) :
    (w.tree.panes paneId).isSome ∨
      push.event = .paneCreated ∧ push.pane.map PaneSummary.paneId = some paneId := by
  obtain ⟨event, pane, workspace, tab, flat, agentStatus, agent⟩ := push
  have hknown : ∀ pane : PaneSummary, (w.tree.panes pane.paneId).isSome →
      (Function.update w.tree.panes pane.paneId (some pane) paneId).isSome →
      (w.tree.panes paneId).isSome := by
    intro pane hknown hafter
    rcases isSome_of_update hafter with hold | ⟨rfl, -⟩
    · exact hold
    · exact hknown
  cases event with
  | workspaceCreated | workspaceUpdated | workspaceRenamed =>
    cases workspace <;> exact Or.inl hp
  | workspaceClosed =>
    cases workspace with
    | none => exact Or.inl hp
    | some workspace => exact Or.inl (isSome_of_filter hp)
  | tabCreated | tabRenamed | tabFocused =>
    cases tab <;> exact Or.inl hp
  | tabClosed =>
    cases tab with
    | none => exact Or.inl hp
    | some tab => exact Or.inl (isSome_of_filter hp)
  | paneCreated =>
    cases pane with
    | none => exact Or.inl hp
    | some pane =>
      rcases isSome_of_update hp with hold | ⟨rfl, -⟩
      · exact Or.inl hold
      · exact Or.inr ⟨rfl, rfl⟩
  | paneClosed =>
    cases pane with
    | none => exact Or.inl hp
    | some pane =>
      rcases isSome_of_update hp with hold | ⟨-, hnone⟩
      · exact Or.inl hold
      · cases hnone
  | paneUpdated | paneFocused =>
    cases pane with
    | none => exact Or.inl hp
    | some pane => exact Or.inl (hknown pane h hp)
  | paneAgentStatusChanged =>
    cases pane with
    | none => exact Or.inl hp
    | some pane => exact Or.inl (hknown pane (Bool.and_eq_true_iff.mp h).1 hp)
  | layoutUpdated => exact Or.inl hp

theorem Covers.change {entries : PaneId → Bool} {resubscribe : Bool}
    (h : Covers entries items resubscribe w) (ha : announceable w push = true) (number : Nat) :
    Covers entries (items ++ [.push number push]) resubscribe (announce w push) := by
  intro paneId hp
  rcases panes_of_update ha hp with hold | hcreated
  · rcases h paneId hold with hentry | hcreated | hre
    · exact Or.inl hentry
    · exact Or.inr (Or.inl (hcreated.append _))
    · exact Or.inr (Or.inr hre)
  · refine Or.inr (Or.inl ⟨push, ?_, hcreated⟩)
    rw [pushes_append]
    exact List.mem_append_right _ (List.mem_singleton.mpr rfl)

theorem Covers.same_pushes {entries : PaneId → Bool} {resubscribe : Bool}
    (h : Covers entries items resubscribe w) (hp : pushes rest = pushes items) :
    Covers entries rest resubscribe w := by
  intro paneId hpane
  rcases h paneId hpane with hentry | ⟨push, hmem, hcreated⟩ | hre
  · exact Or.inl hentry
  · exact Or.inr (Or.inl ⟨push, hp ▸ hmem, hcreated⟩)
  · exact Or.inr (Or.inr hre)

/-- The line of a creation asks for a new subscription. -/
theorem Covers.hear {entries : PaneId → Bool} {resubscribe : Bool}
    (h : Covers entries (.push number push :: rest) resubscribe w) :
    Covers entries rest (resubscribe || actionOf push = .resubscribe) w := by
  intro paneId hpane
  rcases h paneId hpane with hentry | ⟨push', hmem, hevent, hpane'⟩ | hre
  · exact Or.inl hentry
  · rcases List.mem_cons.mp hmem with rfl | hmem
    · refine Or.inr (Or.inr ?_)
      unfold actionOf
      simp [hevent]
    · exact Or.inr (Or.inl ⟨push', hmem, hevent, hpane'⟩)
  · refine Or.inr (Or.inr ?_)
    rw [hre]
    rfl

/-- Every status that was pushed has been sent, or came within the settle window, or its
line has not been read. -/
def Owed (items : List Item) (pushed : List Incoming.Push) (sent : List (Nat × AgentStatus))
    (suppressed : List Nat) : Prop :=
  ∀ n push, pushed[n]? = some push → ∀ paneId status, notable push = some (paneId, status) →
    n ∈ suppressed ∨
    (∃ notice, (n, notice) ∈ sent ∧ notice.paneId = paneId ∧ notice.status = status) ∨
    .push n push ∈ items

section Owed

variable {pushed : List Incoming.Push} {sent : List (Nat × AgentStatus)} {suppressed : List Nat}

theorem Owed.change (h : Owed items pushed sent suppressed) (push : Incoming.Push) :
    Owed (items ++ [.push pushed.length push]) (pushed ++ [push]) sent suppressed := by
  intro n push' hn paneId status hnotable
  by_cases hlt : n < pushed.length
  · rw [List.getElem?_append_left hlt] at hn
    rcases h n push' hn paneId status hnotable with hs | hs | hs
    · exact Or.inl hs
    · exact Or.inr (Or.inl hs)
    · exact Or.inr (Or.inr (List.mem_append_left _ hs))
  · have hbound := (List.getElem?_eq_some_iff.mp hn).1
    rw [List.length_append, List.length_singleton] at hbound
    obtain rfl : n = pushed.length := by omega
    rw [List.getElem?_concat_length] at hn
    cases hn
    exact Or.inr (Or.inr (List.mem_append_right _ (List.mem_singleton.mpr rfl)))

theorem Owed.other (h : Owed items pushed sent suppressed)
    (hp : ∀ n push, .push n push ∈ items → .push n push ∈ rest) :
    Owed rest pushed sent suppressed := by
  intro n push hn paneId status hnotable
  rcases h n push hn paneId status hnotable with hs | hs | hs
  · exact Or.inl hs
  · exact Or.inr (Or.inl hs)
  · exact Or.inr (Or.inr (hp n push hs))

/-- A line is read: its own status is sent or suppressed. -/
theorem Owed.hear (h : Owed (.push number push :: rest) pushed sent suppressed)
    {sent' : List (Nat × AgentStatus)} {suppressed' : List Nat} (hsent : ∀ x ∈ sent, x ∈ sent')
    (hsuppressed : ∀ n ∈ suppressed, n ∈ suppressed')
    (hown : ∀ paneId status, notable push = some (paneId, status) → number ∈ suppressed' ∨
      ∃ notice, (number, notice) ∈ sent' ∧ notice.paneId = paneId ∧ notice.status = status) :
    Owed rest pushed sent' suppressed' := by
  intro n push' hn paneId status hnotable
  rcases h n push' hn paneId status hnotable with hs | ⟨notice, hmem, hs⟩ | hs
  · exact Or.inl (hsuppressed n hs)
  · exact Or.inr (Or.inl ⟨notice, hsent _ hmem, hs⟩)
  · rcases List.mem_cons.mp hs with heq | hmem
    · cases heq
      rcases hown paneId status hnotable with hs | hs
      · exact Or.inl hs
      · exact Or.inr (Or.inl hs)
    · exact Or.inr (Or.inr hmem)

end Owed

/-- A tab or a workspace goes, with the panes in it. -/
def closesAround : TreeEvent → Bool
  | .tabClosed | .workspaceClosed => true
  | _ => false

/-- The push after which the agent of a pane may no longer be at work. -/
inductive Leaves (paneId : PaneId) (push : Incoming.Push) : Prop
  | status (status : Text) : push.event = .paneAgentStatusChanged → paneIdOf push = some paneId →
      push.agentStatus = some status → status ≠ "working".toList → Leaves paneId push
  | closed : push.event = .paneClosed → paneIdOf push = some paneId → Leaves paneId push
  | around : closesAround push.event = true → Leaves paneId push

/-- The agent of the held submit is at work, or a line says that it has left. -/
def Waits {Corr : Type} (items : List Item) (w : World) (pending : Option (PendingInput Corr)) :
    Prop :=
  ∀ p, pending = some p → w.working p.paneId = true ∨ ∃ push ∈ pushes items, Leaves p.paneId push

theorem isNone_of_update {α : Type} {m : Text → Option α} {key id : Text} {x : Option α}
    (h : (Function.update m key x id).isNone) (hm : (m id).isSome) : id = key ∧ x = none := by
  by_cases hid : id = key
  · subst hid
    rw [Function.update_self] at h
    exact ⟨rfl, Option.isNone_iff_eq_none.mp h⟩
  · rw [Function.update_of_ne hid] at h
    rw [Option.isNone_iff_eq_none.mp h] at hm
    cases hm

/-- What takes a pane away. -/
theorem leaves_of_gone {paneId : PaneId} (hp : (w.tree.panes paneId).isSome)
    (hgone : ((applyTreeUpdate w.tree push.update).panes paneId).isNone) : Leaves paneId push := by
  obtain ⟨event, pane, workspace, tab, flat, agentStatus, agent⟩ := push
  have hsame : ((w.tree.panes paneId).isNone) → False := by
    intro hnone
    rw [Option.isNone_iff_eq_none.mp hnone] at hp
    cases hp
  cases event with
  | workspaceCreated | workspaceUpdated | workspaceRenamed =>
    cases workspace <;> exact (hsame hgone).elim
  | tabCreated | tabRenamed | tabFocused => cases tab <;> exact (hsame hgone).elim
  | workspaceClosed | tabClosed => exact .around rfl
  | paneCreated | paneUpdated | paneFocused | paneAgentStatusChanged =>
    cases pane with
    | none => exact (hsame hgone).elim
    | some pane => cases (isNone_of_update hgone hp).2
  | paneClosed =>
    cases pane with
    | none => exact (hsame hgone).elim
    | some pane =>
      obtain ⟨rfl, -⟩ := isNone_of_update hgone hp
      exact .closed rfl rfl
  | layoutUpdated => exact (hsame hgone).elim

theorem working_iff {paneId : PaneId} :
    w.working paneId = true ↔ (⟨paneId, "working".toList⟩ : RawAgent) ∈ w.agents := by
  unfold World.working
  rw [List.any_eq_true]
  constructor
  · rintro ⟨⟨id, status⟩, hmem, hagent⟩
    obtain ⟨hid, hstatus⟩ := Bool.and_eq_true_iff.mp hagent
    rw [← eq_of_beq hid, ← eq_of_beq hstatus]
    exact hmem
  · intro hmem
    refine ⟨_, hmem, ?_⟩
    simp

/-- An agent at work stays so, or the push tells. -/
theorem working_announce {paneId : PaneId} (h : w.working paneId = true) :
    (announce w push).working paneId = true ∨ Leaves paneId push := by
  by_cases hgone : (w.tree.panes paneId).isSome ∧
      ((applyTreeUpdate w.tree push.update).panes paneId).isNone
  · exact Or.inr (leaves_of_gone hgone.1 hgone.2)
  · have hstays : ((w.tree.panes paneId).isNone ||
        ((applyTreeUpdate w.tree push.update).panes paneId).isSome) = true := by
      cases hb : w.tree.panes paneId <;>
        cases ha : (applyTreeUpdate w.tree push.update).panes paneId <;> simp_all
    have hmem := (working_iff).mp h
    by_cases hstatus : push.event = .paneAgentStatusChanged
    · cases hid : paneIdOf push with
      | none =>
        refine Or.inl ((working_iff).mpr (List.mem_filter.mpr ⟨?_, hstays⟩))
        simp only [hstatus, hid]
        exact hmem
      | some id =>
        cases has : push.agentStatus with
        | none =>
          refine Or.inl ((working_iff).mpr (List.mem_filter.mpr ⟨?_, hstays⟩))
          simp only [hstatus, hid, has]
          exact hmem
        | some status =>
          by_cases hsame : id = paneId
          · subst hsame
            by_cases hworking : status = "working".toList
            · refine Or.inl ((working_iff).mpr (List.mem_filter.mpr ⟨?_, hstays⟩))
              simp only [hstatus, hid, has, hworking]
              exact List.mem_append_right _ (List.mem_singleton.mpr rfl)
            · exact Or.inr (.status status hstatus hid has hworking)
          · refine Or.inl ((working_iff).mpr (List.mem_filter.mpr ⟨?_, hstays⟩))
            simp only [hstatus, hid, has]
            refine List.mem_append_left _ (List.mem_filter.mpr ⟨hmem, ?_⟩)
            simpa using fun heq => hsame heq.symm
    · refine Or.inl ((working_iff).mpr (List.mem_filter.mpr ⟨?_, hstays⟩))
      cases hev : push.event <;> first | exact hmem | exact absurd hev hstatus

section Waits

variable {Corr : Type} {pending pending' : Option (PendingInput Corr)}

theorem Waits.change (h : Waits items w pending) (number : Nat) (push : Incoming.Push) :
    Waits (items ++ [.push number push]) (announce w push) pending := by
  intro p hp
  rcases h p hp with hworking | ⟨push', hmem, hleaves⟩
  · have hnext : (announce w push).working p.paneId = true ∨ Leaves p.paneId push :=
      working_announce hworking
    rcases hnext with hstill | hleaves
    · exact Or.inl hstill
    · refine Or.inr ⟨push, ?_, hleaves⟩
      rw [pushes_append]
      exact List.mem_append_right _ (List.mem_singleton.mpr rfl)
  · refine Or.inr ⟨push', ?_, hleaves⟩
    rw [pushes_append]
    exact List.mem_append_left _ hmem

theorem Waits.same_pushes (h : Waits items w pending) (hp : pushes rest = pushes items) :
    Waits rest w pending := by
  intro p hpend
  rcases h p hpend with hworking | ⟨push, hmem, hleaves⟩
  · exact Or.inl hworking
  · exact Or.inr ⟨push, hp ▸ hmem, hleaves⟩

/-- Nothing new is held, or for an agent at work. -/
theorem Waits.step (h : Waits items w pending)
    (hp : ∀ p, pending' = some p → pending = some p ∨ w.working p.paneId = true) :
    Waits items w pending' := by
  intro p hpend
  rcases hp p hpend with hold | hworking
  · exact h p hold
  · exact Or.inl hworking

/-- A line is read: it ends the wait of a submit that it is about. -/
theorem Waits.hear (h : Waits (.push number push :: rest) w pending)
    (hp : ∀ p, pending' = some p → pending = some p ∨ w.working p.paneId = true)
    (hends : ∀ p, pending' = some p → Leaves p.paneId push → w.working p.paneId = true) :
    Waits rest w pending' := by
  intro p hpend
  rcases h.step hp p hpend with hworking | ⟨push', hmem, hleaves⟩
  · exact Or.inl hworking
  · rcases List.mem_cons.mp hmem with rfl | hmem
    · exact Or.inl (hends p hpend hleaves)
    · exact Or.inr ⟨push', hmem, hleaves⟩

end Waits

end HerdrMobile.Host.Handover
