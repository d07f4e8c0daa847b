import HerdrMobile.App.AckRuns

/-!
# The log of one computer

What the log, the store and the pending saves have of one computer, and what the messages and the
calls for it do to that. Rows are objects, so of a pending save there is whether its row is still
the same one.
-/
namespace HerdrMobile.App.OwnLog

open HerdrMobile.Lib HerdrMobile.Lib.Strings HerdrMobile.Lib.LinkedMap
open HerdrMobile.App.PlainStore (NotificationAck savedAck)
open HerdrMobile.App.AgentStatus HerdrMobile.App.Acknowledged HerdrMobile.App.AckRuns

set_option autoImplicit false

/-- A save that has not returned. `live` is that its row has not been replaced. -/
structure Pending where
  item : AttentionItem
  removed : Bool
  live : Bool
deriving DecidableEq

structure Book where
  rows : Linked Text (AttentionItem × Bool) := []
  store : Text → Option NotificationAck
  saves : List Pending := []

namespace Book

variable (times : Times) (hostId : Text) (b : Book)

def unlink (k : Text) (pending : Pending) : Pending :=
  if pending.item.key = k then { pending with live := false } else pending

def putItem (item : AttentionItem) (seen : Bool) : Book :=
  { b with
    rows := put b.rows item.key (item, seen)
    saves := b.saves.map (unlink item.key) }

def removeItem (item : AttentionItem) : Book :=
  { b with
    rows := LinkedMap.remove b.rows item.key
    saves := b.saves.map (unlink item.key) }

def enqueue (pending : Pending) : Book := { b with saves := b.saves ++ [pending] }

/-- A status, with the acknowledgements of the store. -/
def onStatus (status : AttentionItem) : Book :=
  match ackFor times b.store status.paneId status.status status.at with
  | none => b.putItem status false
  | some ack => if ack.removed then b.removeItem status else b.putItem status true

def keeps (item : AttentionItem) : Bool :=
  match get b.rows item.key with
  | some (existing, _) =>
    existing.status = item.status && compareAt times item.at existing.at ≠ .gt
  | none => false

def onAgent (item : AttentionItem) : Book :=
  if b.keeps times item then b
  else
    match ackFor times b.store item.paneId item.status item.at with
    | none => b.putItem item false
    | some ack => if ack.removed then b else b.putItem item true

def onMessage (message : Message) : Book :=
  match message with
  | .agentStatus status => b.onStatus times status
  | .treeSnapshot _ _ => message.reports.foldl (fun b item => b.onAgent times item) b

def markSeen (paneId : Text) : Book :=
  match get b.rows (key hostId paneId) with
  | none => b
  | some (item, seen) =>
    if seen then b else (b.putItem item true).enqueue ⟨item, false, false⟩

def remove (paneId : Text) : Book :=
  match get b.rows (key hostId paneId) with
  | none => b
  | some (item, _) => b.enqueue ⟨item, true, true⟩

def transitionAll (removed : Bool) : Book :=
  { b with
    saves := b.saves ++ ((b.rows.map Prod.snd).filter fun row => removed || !row.2).map
      fun row => ⟨row.1, removed, true⟩ }

/-- A removal or a mark is stored, and applied to its row. -/
def acknowledge (pending : Pending) : Book :=
  let b : Book := { b with
    store := fun paneId =>
      if paneId = pending.item.paneId then some (pending.item.ack pending.removed)
      else b.store paneId }
  if pending.live then
    if pending.removed then b.removeItem pending.item else b.putItem pending.item true
  else b

def saved (ok : Bool) : Book :=
  match b.saves with
  | pending :: rest =>
    let b : Book := { b with saves := rest }
    if ok then b.acknowledge pending else b
  | [] => b

end Book

def rowOf (hostId : Text) (row : NotificationItem) : Option (AttentionItem × Bool) :=
  if row.item.hostId = hostId then some (row.item, row.seen) else none

/-- The row of the save is the one in the log. -/
def isLive (log : Linked Text NotificationItem) (save : Save) : Bool :=
  (get log save.item.key).any fun row => decide (save.object = some row.object)

def pendingOf (log : Linked Text NotificationItem) (save : Save) : Pending :=
  ⟨save.item, save.removed, isLive log save⟩

def ownSaves (hostId : Text) (saves : List Save) : List Save :=
  saves.filter fun save => decide (save.item.hostId = hostId)

def bookOf (hostId : Text) (s : State) : Book where
  rows := pick (rowOf hostId) s.log
  store := stored s.store hostId
  saves := (ownSaves hostId s.saves).map (pendingOf s.log)

/-- Rows are at the keys of their panes, and rows and saves have objects that have been made. -/
structure Sound (s : State) : Prop where
  keyed : Keyed s.log
  rows : ∀ k row, (k, row) ∈ s.log →
    k = row.item.key ∧ Plain row.item.hostId ∧ row.object < s.objects
  saves : ∀ save ∈ s.saves,
    Plain save.item.hostId ∧ ∀ object, save.object = some object → object < s.objects

section Parts

variable {times : Times} {s t : State} {hostId : Text} {item : AttentionItem} {seen : Bool}

theorem samePane_of_row (h : Sound s) (hplain : Plain item.hostId) {row : NotificationItem}
    (hrow : (item.key, row) ∈ s.log) : SamePane row.item item := by
  obtain ⟨hkey, hown, -⟩ := h.rows _ _ hrow
  exact samePane_of_key hown hplain hkey.symm

theorem rowOf_own (h : Sound s) (hplain : Plain item.hostId) (hhost : item.hostId = hostId)
    (row : NotificationItem) (hrow : (item.key, row) ∈ s.log) :
    (rowOf hostId row).isSome = true := by
  rw [rowOf, if_pos ((samePane_of_row h hplain hrow).1.trans hhost)]
  rfl

theorem rowOf_other (h : Sound s) (hplain : Plain item.hostId) (hhost : item.hostId ≠ hostId)
    (row : NotificationItem) (hrow : (item.key, row) ∈ s.log) : rowOf hostId row = none := by
  rw [rowOf, if_neg]
  exact fun hrow' => hhost ((samePane_of_row h hplain hrow).1.symm.trans hrow')

theorem sound_putItem (h : Sound s) (hplain : Plain item.hostId) : Sound (s.putItem item seen) where
  keyed := keyed_put h.keyed
  rows k row hrow := by
    obtain ⟨rfl, rfl⟩ | hold := mem_put hrow
    · exact ⟨rfl, hplain, Nat.lt_succ_self _⟩
    · obtain ⟨hkey, hown, hobject⟩ := h.rows k row hold
      exact ⟨hkey, hown, Nat.lt_succ_of_lt hobject⟩
  saves save hsave := by
    obtain ⟨hown, hobject⟩ := h.saves save hsave
    exact ⟨hown, fun object ho => Nat.lt_succ_of_lt (hobject object ho)⟩

theorem sound_removeItem (h : Sound s) : Sound (s.removeItem item) where
  keyed := keyed_remove h.keyed
  rows k row hrow := h.rows k row (List.mem_filter.mp hrow).1
  saves := h.saves

theorem isLive_put {log : Linked Text NotificationItem} {k : Text} {row : NotificationItem}
    {save : Save} (hnew : save.object ≠ some row.object) :
    pendingOf (put log k row) save = Book.unlink k (pendingOf log save) := by
  unfold pendingOf Book.unlink isLive
  rw [get_put]
  by_cases hk : save.item.key = k
  · rw [if_pos hk, if_pos hk, Option.any_some, decide_eq_false hnew]
  · rw [if_neg hk, if_neg hk]

theorem isLive_remove {log : Linked Text NotificationItem} {k : Text} {save : Save} :
    pendingOf (LinkedMap.remove log k) save = Book.unlink k (pendingOf log save) := by
  unfold pendingOf Book.unlink isLive
  by_cases hk : save.item.key = k
  · rw [if_pos hk, hk, get_remove_self]
    rfl
  · rw [if_neg hk, get_remove_ne hk]

/-- The row of another computer is no row of this one, and its key no key. -/
theorem unlink_other {save : Save} (h : Plain save.item.hostId) (hplain : Plain item.hostId)
    (hhost : item.hostId ≠ save.item.hostId) (log : Linked Text NotificationItem) :
    Book.unlink item.key (pendingOf log save) = pendingOf log save :=
  if_neg fun hkey => hhost (samePane_of_key h hplain hkey).1.symm

theorem saves_putItem (h : Sound s) :
    (ownSaves hostId s.saves).map (pendingOf (s.putItem item seen).log) =
      ((ownSaves hostId s.saves).map (pendingOf s.log)).map (Book.unlink item.key) := by
  rw [List.map_map]
  refine List.map_congr_left fun save hsave => isLive_put fun hobject => ?_
  have hold := (h.saves save (List.mem_filter.mp hsave).1).2 _ hobject
  exact Nat.lt_irrefl _ hold

theorem saves_other (h : Sound s) (hplain : Plain item.hostId) (hhost : item.hostId ≠ hostId) :
    ((ownSaves hostId s.saves).map (pendingOf s.log)).map (Book.unlink item.key) =
      (ownSaves hostId s.saves).map (pendingOf s.log) := by
  rw [List.map_map]
  refine List.map_congr_left fun save hsave => ?_
  obtain ⟨hmem, hown⟩ := List.mem_filter.mp hsave
  refine unlink_other (h.saves save hmem).1 hplain ?_ s.log
  rw [of_decide_eq_true hown]
  exact hhost

theorem book_putItem (h : Sound s) (hplain : Plain item.hostId) (hhost : item.hostId = hostId) :
    bookOf hostId (s.putItem item seen) = (bookOf hostId s).putItem item seen := by
  have hrow : rowOf hostId ⟨item, seen, s.objects⟩ = some (item, seen) := if_pos hhost
  unfold bookOf Book.putItem
  rw [State.putItem, pick_put hrow (rowOf_own h hplain hhost)]
  exact congrArg (Book.mk _ _) (saves_putItem h)

theorem book_putItem_other (h : Sound s) (hplain : Plain item.hostId)
    (hhost : item.hostId ≠ hostId) : bookOf hostId (s.putItem item seen) = bookOf hostId s := by
  have hrow : rowOf hostId ⟨item, seen, s.objects⟩ = none := if_neg hhost
  unfold bookOf
  rw [State.putItem, pick_put_none hrow (rowOf_other h hplain hhost)]
  exact congrArg (Book.mk _ _) ((saves_putItem h).trans (saves_other h hplain hhost))

theorem saves_removeItem :
    (ownSaves hostId s.saves).map (pendingOf (s.removeItem item).log) =
      ((ownSaves hostId s.saves).map (pendingOf s.log)).map (Book.unlink item.key) := by
  rw [List.map_map]
  exact List.map_congr_left fun save _ => isLive_remove

theorem book_removeItem :
    bookOf hostId (s.removeItem item) = (bookOf hostId s).removeItem item := by
  unfold bookOf Book.removeItem
  rw [State.removeItem, pick_remove]
  exact congrArg (Book.mk _ _) saves_removeItem

theorem book_removeItem_other (h : Sound s) (hplain : Plain item.hostId)
    (hhost : item.hostId ≠ hostId) : bookOf hostId (s.removeItem item) = bookOf hostId s := by
  unfold bookOf
  rw [State.removeItem, pick_remove_none (rowOf_other h hplain hhost)]
  exact congrArg (Book.mk _ _) ((saves_removeItem).trans (saves_other h hplain hhost))

theorem get_rows (h : Sound s) (hplain : Plain item.hostId) (hhost : item.hostId = hostId) :
    get (bookOf hostId s).rows item.key =
      (get s.log item.key).map fun row => (row.item, row.seen) := by
  refine (get_pick (rowOf_own h hplain hhost)).trans ?_
  cases hrow : get s.log item.key with
  | none => rfl
  | some row =>
    have hown := samePane_of_row h hplain (mem_of_get hrow)
    exact if_pos (hown.1.trans hhost)

theorem ackFor_congr {acks acks' : Text → Option NotificationAck} {paneId : Text}
    (h : acks paneId = acks' paneId) (status : HerdrMobile.Proto.Tree.AgentStatusKind)
    («at» : Option Text) :
    ackFor times acks paneId status «at» = ackFor times acks' paneId status «at» := by
  unfold ackFor
  rw [h]

theorem sound_live (h : Sound s) (hplain : Plain item.hostId) :
    Sound (s.onLiveAgentStatus times item) := by
  unfold State.onLiveAgentStatus
  split
  · have hput := @sound_putItem s item false h hplain
    exact ⟨hput.keyed, hput.rows, hput.saves⟩
  · split
    · exact sound_removeItem h
    · exact sound_putItem h hplain

theorem book_live (h : Sound s) (hplain : Plain item.hostId) (hhost : item.hostId = hostId)
    (hacks : s.acks item.paneId = stored s.store hostId item.paneId) :
    bookOf hostId (s.onLiveAgentStatus times item) = (bookOf hostId s).onStatus times item := by
  unfold State.onLiveAgentStatus Book.onStatus
  rw [ackFor_congr hacks]
  show _ = match ackFor times (stored s.store hostId) item.paneId item.status item.at with
    | none => (bookOf hostId s).putItem item false
    | some ack => if ack.removed then (bookOf hostId s).removeItem item
      else (bookOf hostId s).putItem item true
  cases ackFor times (stored s.store hostId) item.paneId item.status item.at with
  | none => exact book_putItem h hplain hhost
  | some ack =>
    dsimp only
    split
    · exact book_removeItem
    · exact book_putItem h hplain hhost

theorem book_live_other (h : Sound s) (hplain : Plain item.hostId) (hhost : item.hostId ≠ hostId) :
    bookOf hostId (s.onLiveAgentStatus times item) = bookOf hostId s := by
  unfold State.onLiveAgentStatus
  split
  · exact book_putItem_other h hplain hhost
  · split
    · exact book_removeItem_other h hplain hhost
    · exact book_putItem_other h hplain hhost

theorem sound_agent (h : Sound s) (hplain : Plain item.hostId) :
    Sound (s.onAgent times item) := by
  unfold State.onAgent
  split
  · exact h
  · split
    · exact sound_putItem h hplain
    · split
      · exact h
      · exact sound_putItem h hplain

theorem keeps_rows (h : Sound s) (hplain : Plain item.hostId) (hhost : item.hostId = hostId) :
    (bookOf hostId s).keeps times item = s.keeps times item := by
  unfold Book.keeps State.keeps
  rw [get_rows h hplain hhost]
  cases get s.log item.key with
  | none => rfl
  | some row => rfl

theorem book_agent (h : Sound s) (hplain : Plain item.hostId) (hhost : item.hostId = hostId)
    (hacks : s.acks item.paneId = stored s.store hostId item.paneId) :
    bookOf hostId (s.onAgent times item) = (bookOf hostId s).onAgent times item := by
  unfold State.onAgent Book.onAgent
  rw [ackFor_congr hacks, keeps_rows h hplain hhost]
  split
  · rfl
  · show _ = match ackFor times (stored s.store hostId) item.paneId item.status item.at with
      | none => (bookOf hostId s).putItem item false
      | some ack => if ack.removed then bookOf hostId s else (bookOf hostId s).putItem item true
    cases ackFor times (stored s.store hostId) item.paneId item.status item.at with
    | none => exact book_putItem h hplain hhost
    | some ack =>
      dsimp only
      split
      · rfl
      · exact book_putItem h hplain hhost

theorem book_agent_other (h : Sound s) (hplain : Plain item.hostId)
    (hhost : item.hostId ≠ hostId) : bookOf hostId (s.onAgent times item) = bookOf hostId s := by
  unfold State.onAgent
  split
  · rfl
  · split
    · exact book_putItem_other h hplain hhost
    · split
      · rfl
      · exact book_putItem_other h hplain hhost

/-- The acknowledgements in memory are those of the store. -/
def Cached (hostId : Text) (s : State) : Prop := ∀ p, s.acks p = stored s.store hostId p

theorem cached_agent (h : Cached hostId s) :
    Cached hostId ((s.report item).onAgent times item) := by
  obtain ⟨log, objects, heq⟩ := @onAgent_eq times (s.report item) item
  rw [heq]
  exact h

theorem book_snapshot {items : List AttentionItem} (h : Sound s) (hcached : Cached hostId s)
    (hitems : ∀ item ∈ items, Plain item.hostId ∧ item.hostId = hostId) :
    bookOf hostId (s.onTreeSnapshot times items) =
      items.foldl (fun b item => b.onAgent times item) (bookOf hostId s) := by
  induction items generalizing s with
  | nil => rfl
  | cons item rest ih =>
    obtain ⟨hplain, hhost⟩ := hitems item List.mem_cons_self
    have hreport : Sound (s.report item) := ⟨h.keyed, h.rows, h.saves⟩
    have hfirst : Sound ((s.report item).onAgent times item) := sound_agent hreport hplain
    have hnext := ih hfirst (cached_agent hcached) fun other hother =>
      hitems other (List.mem_cons_of_mem _ hother)
    refine hnext.trans (congrArg (List.foldl _ · rest) ?_)
    exact book_agent hreport hplain hhost (hcached item.paneId)

theorem sound_snapshot {items : List AttentionItem} (h : Sound s)
    (hitems : ∀ item ∈ items, Plain item.hostId) : Sound (s.onTreeSnapshot times items) := by
  induction items generalizing s with
  | nil => exact h
  | cons item rest ih =>
    have hreport : Sound (s.report item) := ⟨h.keyed, h.rows, h.saves⟩
    exact ih (sound_agent hreport (hitems item List.mem_cons_self)) fun other hother =>
      hitems other (List.mem_cons_of_mem _ hother)

theorem book_snapshot_other {items : List AttentionItem} (h : Sound s)
    (hitems : ∀ item ∈ items, Plain item.hostId ∧ item.hostId ≠ hostId) :
    bookOf hostId (s.onTreeSnapshot times items) = bookOf hostId s := by
  induction items generalizing s with
  | nil => rfl
  | cons item rest ih =>
    obtain ⟨hplain, hhost⟩ := hitems item List.mem_cons_self
    have hreport : Sound (s.report item) := ⟨h.keyed, h.rows, h.saves⟩
    have hfirst : Sound ((s.report item).onAgent times item) := sound_agent hreport hplain
    have hnext := ih hfirst fun other hother =>
      hitems other (List.mem_cons_of_mem _ hother)
    exact hnext.trans (book_agent_other hreport hplain hhost)

theorem sound_message {message : Message} (h : Sound s) (hplain : Plain message.hostId) :
    Sound (s.onMessage times message) := by
  cases message with
  | agentStatus status =>
    have hreport : Sound (s.report status) := ⟨h.keyed, h.rows, h.saves⟩
    exact sound_live hreport hplain
  | treeSnapshot host agents =>
    refine sound_snapshot h fun item hitem => ?_
    rw [reports_host _ item hitem]
    exact hplain

theorem book_message {message : Message} (h : Sound s) (hplain : Plain message.hostId)
    (hhost : message.hostId = hostId) (hcached : Cached hostId s) :
    bookOf hostId (s.onMessage times message) = (bookOf hostId s).onMessage times message := by
  cases message with
  | agentStatus status =>
    have hreport : Sound (s.report status) := ⟨h.keyed, h.rows, h.saves⟩
    exact book_live hreport hplain hhost (hcached status.paneId)
  | treeSnapshot host agents =>
    refine book_snapshot h hcached fun item hitem => ?_
    rw [reports_host _ item hitem]
    exact ⟨hplain, hhost⟩

theorem book_message_other {message : Message} (h : Sound s) (hplain : Plain message.hostId)
    (hhost : message.hostId ≠ hostId) :
    bookOf hostId (s.onMessage times message) = bookOf hostId s := by
  cases message with
  | agentStatus status =>
    have hreport : Sound (s.report status) := ⟨h.keyed, h.rows, h.saves⟩
    exact book_live_other hreport hplain hhost
  | treeSnapshot host agents =>
    refine book_snapshot_other h fun item hitem => ?_
    rw [reports_host _ item hitem]
    exact ⟨hplain, hhost⟩

theorem sound_enqueue {save : Save} (h : Sound s) (hplain : Plain save.item.hostId)
    (hobject : ∀ object, save.object = some object → object < s.objects) :
    Sound (s.enqueue save) where
  keyed := h.keyed
  rows := h.rows
  saves other hother := by
    obtain hold | hnew := List.mem_append.mp hother
    · exact h.saves other hold
    · rw [List.mem_singleton.mp hnew]
      exact ⟨hplain, hobject⟩

theorem book_enqueue {save : Save} (hhost : save.item.hostId = hostId) :
    bookOf hostId (s.enqueue save) = (bookOf hostId s).enqueue (pendingOf s.log save) := by
  unfold bookOf Book.enqueue ownSaves
  rw [State.enqueue, List.filter_append, List.filter_singleton, decide_eq_true hhost, cond_true,
    List.map_append]
  rfl

theorem book_enqueue_other {save : Save} (hhost : save.item.hostId ≠ hostId) :
    bookOf hostId (s.enqueue save) = bookOf hostId s := by
  unfold bookOf ownSaves
  rw [State.enqueue, List.filter_append, List.filter_singleton, decide_eq_false hhost, cond_false,
    List.append_nil]

/-- What is at the key of a pane of the connected computer. -/
theorem entry_spec (h : Sound s) (hplain : Plain hostId) {paneId : Text} {entry : NotificationItem}
    (hentry : get s.log (key hostId paneId) = some entry) :
    entry.item.key = key hostId paneId ∧ entry.item.hostId = hostId ∧
      entry.object < s.objects := by
  have hmem := mem_of_get hentry
  obtain ⟨hkey, hown, hobject⟩ := h.rows _ _ hmem
  exact ⟨hkey.symm, (key_inj hplain hown hkey).1.symm, hobject⟩

theorem get_entry (h : Sound s) (hplain : Plain hostId) (paneId : Text) :
    get (bookOf hostId s).rows (key hostId paneId) =
      (get s.log (key hostId paneId)).map fun row => (row.item, row.seen) :=
  @get_rows s hostId ⟨hostId, paneId, .idle, none⟩ h hplain rfl

theorem sound_markSeen (h : Sound s) (hplain : Plain s.currentHostId) (paneId : Text) :
    Sound (s.markSeen paneId) := by
  unfold State.markSeen
  split
  · exact h
  · next entry hentry =>
    obtain ⟨-, hhost, -⟩ := entry_spec h hplain hentry
    have hown : Plain entry.item.hostId := hhost ▸ hplain
    split
    · exact ⟨h.keyed, h.rows, h.saves⟩
    · exact sound_enqueue (sound_putItem h hown) hown fun object hobject => by cases hobject

theorem book_markSeen (h : Sound s) (hplain : Plain s.currentHostId)
    (hhost : s.currentHostId = hostId) (paneId : Text) :
    bookOf hostId (s.markSeen paneId) = (bookOf hostId s).markSeen hostId paneId := by
  subst hhost
  unfold State.markSeen Book.markSeen
  rw [get_entry h hplain]
  cases hentry : get s.log (key s.currentHostId paneId) with
  | none => rfl
  | some entry =>
    obtain ⟨-, hhost, -⟩ := entry_spec h hplain hentry
    have hown : Plain entry.item.hostId := hhost ▸ hplain
    simp only [Option.map_some]
    split
    · rfl
    · rw [book_enqueue hhost, book_putItem h hown hhost]
      refine congrArg (Book.enqueue _) ?_
      unfold pendingOf isLive
      rw [State.putItem, get_put_self]
      rfl

theorem book_markSeen_other (h : Sound s) (hplain : Plain s.currentHostId)
    (hhost : s.currentHostId ≠ hostId) (paneId : Text) :
    bookOf hostId (s.markSeen paneId) = bookOf hostId s := by
  unfold State.markSeen
  split
  · rfl
  · next entry hentry =>
    obtain ⟨-, hcurrent, -⟩ := entry_spec h hplain hentry
    have hother : entry.item.hostId ≠ hostId := hcurrent ▸ hhost
    have hown : Plain entry.item.hostId := hcurrent ▸ hplain
    split
    · rfl
    · rw [book_enqueue_other hother, book_putItem_other h hown hother]

theorem sound_remove (h : Sound s) (hplain : Plain s.currentHostId) (paneId : Text) :
    Sound (s.remove paneId) := by
  unfold State.remove
  split
  · exact h
  · next entry hentry =>
    obtain ⟨-, hhost, hobject⟩ := entry_spec h hplain hentry
    refine sound_enqueue h (hhost ▸ hplain) fun object ho => ?_
    cases ho
    exact hobject

theorem pendingOf_entry {k : Text} {entry : NotificationItem} {removed : Bool}
    (hkey : entry.item.key = k) (hentry : get s.log k = some entry) :
    pendingOf s.log ⟨entry.item, removed, some entry.object⟩ = ⟨entry.item, removed, true⟩ := by
  unfold pendingOf isLive
  rw [hkey, hentry, Option.any_some, decide_eq_true rfl]

theorem book_remove (h : Sound s) (hplain : Plain s.currentHostId)
    (hhost : s.currentHostId = hostId) (paneId : Text) :
    bookOf hostId (s.remove paneId) = (bookOf hostId s).remove hostId paneId := by
  subst hhost
  unfold State.remove Book.remove
  rw [get_entry h hplain]
  cases hentry : get s.log (key s.currentHostId paneId) with
  | none => rfl
  | some entry =>
    obtain ⟨hkey, hhost, -⟩ := entry_spec h hplain hentry
    simp only [Option.map_some]
    rw [book_enqueue hhost, pendingOf_entry hkey hentry]

theorem book_remove_other (h : Sound s) (hplain : Plain s.currentHostId)
    (hhost : s.currentHostId ≠ hostId) (paneId : Text) :
    bookOf hostId (s.remove paneId) = bookOf hostId s := by
  unfold State.remove
  split
  · rfl
  · next entry hentry =>
    obtain ⟨-, hcurrent, -⟩ := entry_spec h hplain hentry
    exact book_enqueue_other (hcurrent ▸ hhost)

def rowSave (removed : Bool) (row : NotificationItem) : Save :=
  ⟨row.item, removed, some row.object⟩

theorem transitions_eq (rows : List NotificationItem) (removed : Bool) :
    rows.foldl (fun s entry => s.enqueue ⟨entry.item, removed, some entry.object⟩) s =
      { s with saves := s.saves ++ rows.map (rowSave removed) } := by
  induction rows generalizing s with
  | nil =>
    show s = { s with saves := s.saves ++ [] }
    rw [List.append_nil]
  | cons row rest ih =>
    refine (ih (s := s.enqueue (rowSave removed row))).trans ?_
    show { s with saves := (s.saves ++ [rowSave removed row]) ++ rest.map (rowSave removed) } = _
    rw [List.append_assoc]
    rfl

theorem mem_own (h : Sound s) {removed : Bool} {row : NotificationItem}
    (hrow : row ∈ s.own removed) :
    get s.log row.item.key = some row ∧ row.item.hostId = s.currentHostId ∧
      row.object < s.objects := by
  obtain ⟨hmem, hcond⟩ := List.mem_filter.mp hrow
  obtain ⟨⟨k, row'⟩, hentry, rfl⟩ := List.mem_map.mp hmem
  obtain ⟨hkey, -, hobject⟩ := h.rows k row' hentry
  rw [Bool.and_eq_true, decide_eq_true_eq] at hcond
  exact ⟨get_of_mem h.keyed (hkey ▸ hentry), hcond.1, hobject⟩

theorem sound_transitionAll (h : Sound s) (hplain : Plain s.currentHostId) (removed : Bool) :
    Sound (s.transitionAll removed) := by
  rw [State.transitionAll, transitions_eq]
  refine ⟨h.keyed, h.rows, fun save hsave => ?_⟩
  obtain hold | hnew := List.mem_append.mp hsave
  · exact h.saves save hold
  · obtain ⟨row, hrow, rfl⟩ := List.mem_map.mp hnew
    obtain ⟨-, hhost, hobject⟩ := mem_own h hrow
    refine ⟨?_, fun object ho => ?_⟩
    · rw [rowSave, hhost]
      exact hplain
    · cases ho
      exact hobject

/-- The rows of the computer, as its book has them. -/
theorem own_rows (log : Linked Text NotificationItem) (removed : Bool) :
    ((log.map Prod.snd).filter fun entry =>
        decide (entry.item.hostId = hostId) && (removed || !entry.seen)).map
          (fun row => (row.item, row.seen)) =
      ((pick (rowOf hostId) log).map Prod.snd).filter fun row => removed || !row.2 := by
  induction log with
  | nil => rfl
  | cons entry rest ih =>
    obtain ⟨k, row⟩ := entry
    rw [List.map_cons]
    by_cases hhost : row.item.hostId = hostId
    · have htaken : rowOf hostId row = some (row.item, row.seen) := if_pos hhost
      rw [pick_cons_some htaken, List.map_cons, List.filter_cons, List.filter_cons, ← ih,
        decide_eq_true hhost, Bool.true_and]
      split
      · rfl
      · rfl
    · have hleft : rowOf hostId row = none := if_neg hhost
      rw [pick_cons_none hleft, List.filter_cons, decide_eq_false hhost, Bool.false_and, ← ih]
      rfl

theorem book_transitionAll (h : Sound s) (hhost : s.currentHostId = hostId) (removed : Bool) :
    bookOf hostId (s.transitionAll removed) = (bookOf hostId s).transitionAll removed := by
  have hown : ownSaves hostId ((s.own removed).map (rowSave removed)) =
      (s.own removed).map (rowSave removed) := by
    refine List.filter_eq_self.mpr fun save hsave => ?_
    obtain ⟨row, hrow, rfl⟩ := List.mem_map.mp hsave
    exact decide_eq_true ((mem_own h hrow).2.1.trans hhost)
  have hpending : ((s.own removed).map (rowSave removed)).map (pendingOf s.log) =
      ((s.own removed).map fun row => (row.item, row.seen)).map
        fun row => (⟨row.1, removed, true⟩ : Pending) := by
    rw [List.map_map, List.map_map]
    exact List.map_congr_left fun row hrow => pendingOf_entry rfl (mem_own h hrow).1
  rw [State.transitionAll, transitions_eq]
  unfold bookOf Book.transitionAll
  dsimp only
  refine congrArg (Book.mk _ _) ?_
  unfold ownSaves at hown ⊢
  rw [List.filter_append, List.map_append, hown, hpending, ← own_rows, State.own, hhost]

theorem book_transitionAll_other (h : Sound s) (hhost : s.currentHostId ≠ hostId)
    (removed : Bool) : bookOf hostId (s.transitionAll removed) = bookOf hostId s := by
  have hnone : ownSaves hostId ((s.own removed).map (rowSave removed)) = [] := by
    refine List.filter_eq_nil_iff.mpr fun save hsave hsame => ?_
    obtain ⟨row, hrow, rfl⟩ := List.mem_map.mp hsave
    exact hhost ((mem_own h hrow).2.1.symm.trans (of_decide_eq_true hsame))
  rw [State.transitionAll, transitions_eq]
  unfold bookOf
  dsimp only
  refine congrArg (Book.mk _ _) ?_
  unfold ownSaves at hnone ⊢
  rw [List.filter_append, hnone, List.append_nil]

theorem sound_transition {save : Save} (h : Sound s) (hplain : Plain save.item.hostId) :
    Sound (s.applyTransition save) := by
  unfold State.applyTransition
  split
  · exact h
  · split
    · split
      · exact sound_removeItem h
      · exact sound_putItem h hplain
    · exact h

theorem sound_remembered {save : Save} (h : Sound s) :
    Sound ((s.written save).remembered save) := by
  unfold State.remembered
  split
  · exact ⟨h.keyed, h.rows, h.saves⟩
  · exact ⟨h.keyed, h.rows, h.saves⟩

theorem sound_acknowledge {save : Save} (h : Sound s) (hplain : Plain save.item.hostId) :
    Sound (s.acknowledge save) := by
  have hremembered : Sound ((s.written save).remembered save) := sound_remembered h
  have happlied := sound_transition hremembered hplain
  exact ⟨happlied.keyed, happlied.rows, happlied.saves⟩

theorem remembered_book (s : State) (save : Save) :
    bookOf hostId (s.remembered save) = bookOf hostId s := by
  unfold State.remembered
  split
  · rfl
  · rfl

theorem book_written {save : Save} (hhost : save.item.hostId = hostId) :
    bookOf hostId (s.written save) = { bookOf hostId s with
      store := fun paneId =>
        if paneId = save.item.paneId then some (save.item.ack save.removed)
        else (bookOf hostId s).store paneId } := by
  unfold bookOf State.written
  congr 1
  funext paneId
  rw [stored_savedAck]
  have hack : (save.item.ack save.removed).hostId = hostId := hhost
  by_cases hp : paneId = save.item.paneId
  · rw [if_pos ⟨hack.symm, hp⟩, if_pos hp]
  · rw [if_neg fun hboth => hp hboth.2, if_neg hp]

theorem book_written_other {save : Save} (hhost : save.item.hostId ≠ hostId) :
    bookOf hostId (s.written save) = bookOf hostId s := by
  unfold bookOf State.written
  congr 1
  funext paneId
  rw [stored_savedAck, if_neg]
  exact fun hboth => hhost hboth.1.symm

theorem book_transition {save : Save} (h : Sound s) (hplain : Plain save.item.hostId)
    (hhost : save.item.hostId = hostId) :
    bookOf hostId (s.applyTransition save) =
      if isLive s.log save then
        if save.removed then (bookOf hostId s).removeItem save.item
        else (bookOf hostId s).putItem save.item true
      else bookOf hostId s := by
  unfold State.applyTransition isLive
  cases get s.log save.item.key with
  | none => rfl
  | some entry =>
    simp only [Option.any_some, decide_eq_true_eq]
    split
    · split
      · exact book_removeItem
      · exact book_putItem h hplain hhost
    · rfl

theorem book_transition_other {save : Save} (h : Sound s) (hplain : Plain save.item.hostId)
    (hhost : save.item.hostId ≠ hostId) :
    bookOf hostId (s.applyTransition save) = bookOf hostId s := by
  unfold State.applyTransition
  split
  · rfl
  · split
    · split
      · exact book_removeItem_other h hplain hhost
      · exact book_putItem_other h hplain hhost
    · rfl

theorem remembered_log (s : State) (save : Save) : (s.remembered save).log = s.log := by
  unfold State.remembered
  split
  · rfl
  · rfl

theorem book_acknowledge {save : Save} (h : Sound s) (hplain : Plain save.item.hostId)
    (hhost : save.item.hostId = hostId) :
    bookOf hostId (s.acknowledge save) = (bookOf hostId s).acknowledge (pendingOf s.log save) := by
  have hremembered : Sound ((s.written save).remembered save) := sound_remembered h
  have htransition := book_transition hremembered hplain hhost
  rw [remembered_log, remembered_book, book_written hhost] at htransition
  exact htransition

theorem book_acknowledge_other {save : Save} (h : Sound s) (hplain : Plain save.item.hostId)
    (hhost : save.item.hostId ≠ hostId) :
    bookOf hostId (s.acknowledge save) = bookOf hostId s := by
  have hremembered : Sound ((s.written save).remembered save) := sound_remembered h
  have htransition := book_transition_other hremembered hplain hhost
  rw [remembered_book, book_written_other hhost] at htransition
  exact htransition

/-- A save is no longer pending. -/
def returned (s : State) (rest : List Save) : State := { s with saves := rest }

theorem sound_returned {save : Save} {rest : List Save} (h : Sound s)
    (hsaves : s.saves = save :: rest) : Sound (returned s rest) where
  keyed := h.keyed
  rows := h.rows
  saves other hother := h.saves other (hsaves ▸ List.mem_cons_of_mem _ hother)

theorem saves_cons {save : Save} {rest : List Save} (hsaves : s.saves = save :: rest)
    (hhost : save.item.hostId = hostId) : (bookOf hostId s).saves =
      pendingOf s.log save :: (ownSaves hostId rest).map (pendingOf s.log) := by
  have hfirst : ownSaves hostId (save :: rest) = save :: ownSaves hostId rest :=
    List.filter_cons_of_pos (by exact decide_eq_true hhost)
  show (ownSaves hostId s.saves).map (pendingOf s.log) = _
  rw [hsaves, hfirst, List.map_cons]

theorem book_saved {save : Save} {rest : List Save} (h : Sound s) (hsaves : s.saves = save :: rest)
    (hhost : save.item.hostId = hostId) (ok : Bool) :
    bookOf hostId (if ok then (returned s rest).acknowledge save else returned s rest) =
      (bookOf hostId s).saved ok := by
  have hplain : Plain save.item.hostId := (h.saves save (hsaves ▸ List.mem_cons_self)).1
  unfold Book.saved
  rw [saves_cons hsaves hhost]
  cases ok with
  | false => rfl
  | true => exact book_acknowledge (sound_returned h hsaves) hplain hhost

theorem book_saved_other {save : Save} {rest : List Save} (h : Sound s)
    (hsaves : s.saves = save :: rest) (hhost : save.item.hostId ≠ hostId) (ok : Bool) :
    bookOf hostId (if ok then (returned s rest).acknowledge save else returned s rest) =
      bookOf hostId s := by
  have hplain : Plain save.item.hostId := (h.saves save (hsaves ▸ List.mem_cons_self)).1
  have hpopped : bookOf hostId (returned s rest) = bookOf hostId s := by
    unfold bookOf ownSaves returned
    rw [hsaves, List.filter_cons_of_neg (by simpa using hhost)]
  cases ok with
  | false => exact hpopped
  | true => exact (book_acknowledge_other (sound_returned h hsaves) hplain hhost).trans hpopped

end Parts

end HerdrMobile.App.OwnLog
