import HerdrMobile.App.AgentStatus

/-!
# Identities of changes and what is stored of them

The last change of a pane that was reported, and the acknowledgement that the store has of a
pane.
-/
namespace HerdrMobile.App.Acknowledged

open HerdrMobile.Lib HerdrMobile.Lib.Strings HerdrMobile.App.PlainStore
open HerdrMobile.App.AgentStatus
open HerdrMobile.Proto.Tree (AgentStatusKind)

set_option autoImplicit false

variable {times : Times} {item : AttentionItem} {hostId : Text}

theorem compareAt_self (x : Option Text) : compareAt times x x = .eq := by
  rw [compareAt]
  cases x.bind times.tryParse with
  | none => exact times.compareTo_self _
  | some instant =>
    show compare instant instant = .eq
    exact Std.ReflCmp.compare_self

theorem statusName_inj {a b : AgentStatusKind} (h : statusName a = statusName b) : a = b := by
  revert h
  cases a <;> cases b <;> decide

theorem ack_inj {a b : AttentionItem} {x y : Bool} (h : a.ack x = b.ack y) : a = b ∧ x = y := by
  obtain ⟨ha, pa, sa, ta⟩ := a
  obtain ⟨hb, pb, sb, tb⟩ := b
  simp only [AttentionItem.ack, NotificationAck.mk.injEq] at h
  obtain ⟨rfl, rfl, hs, rfl, rfl⟩ := h
  exact ⟨by rw [statusName_inj hs], rfl⟩

theorem key_inj {h h' p p' : Text} (hh : '\x00' ∉ h) (hh' : '\x00' ∉ h')
    (heq : key h p = key h' p') : h = h' ∧ p = p' := by
  induction h generalizing h' with
  | nil =>
    cases h' with
    | nil => exact ⟨rfl, (List.cons.inj heq).2⟩
    | cons c rest =>
      have hc := (List.cons.inj heq).1
      exact absurd (hc ▸ List.mem_cons_self) hh'
  | cons c rest ih =>
    cases h' with
    | nil =>
      have hc := (List.cons.inj heq).1
      exact absurd (hc ▸ List.mem_cons_self) hh
    | cons d rest' =>
      obtain ⟨rfl, htail⟩ := List.cons.inj heq
      have hrest := ih (fun h => hh (List.mem_cons_of_mem c h))
        (fun h => hh' (List.mem_cons_of_mem c h)) htail
      exact ⟨by rw [hrest.1], hrest.2⟩

def SamePane (a b : AttentionItem) : Prop := a.hostId = b.hostId ∧ a.paneId = b.paneId

instance (a b : AttentionItem) : Decidable (SamePane a b) :=
  inferInstanceAs (Decidable (a.hostId = b.hostId ∧ a.paneId = b.paneId))

def latest (reported : List AttentionItem) (item : AttentionItem) : Option AttentionItem :=
  reported.find? fun r => SamePane item r

/-- The last change of its pane that was reported. -/
def Latest (reported : List AttentionItem) (item : AttentionItem) : Prop :=
  latest reported item = some item

theorem samePane_of_key {a b : AttentionItem} (ha : '\x00' ∉ a.hostId) (hb : '\x00' ∉ b.hostId)
    (h : a.key = b.key) : SamePane a b :=
  key_inj ha hb h

theorem SamePane.key_eq {a b : AttentionItem} (h : SamePane a b) : a.key = b.key := by
  rw [AttentionItem.key, AttentionItem.key, h.1, h.2]

theorem latest_congr {reported : List AttentionItem} {a b : AttentionItem} (h : SamePane a b) :
    latest reported a = latest reported b := by
  have hpane : ∀ r, SamePane a r ↔ SamePane b r := by
    intro r
    simp only [SamePane, h.1, h.2]
  simp only [latest, hpane]

theorem latest_cons (reported : List AttentionItem) (new a : AttentionItem) :
    latest (new :: reported) a = if SamePane a new then some new else latest reported a := by
  rw [latest, List.find?_cons]
  by_cases h : SamePane a new
  · rw [if_pos h, decide_eq_true h]
  · rw [if_neg h, decide_eq_false h]
    rfl

theorem Latest.eq {reported : List AttentionItem} {a b : AttentionItem} (ha : Latest reported a)
    (hb : Latest reported b) (h : SamePane a b) : a = b :=
  Option.some.inj (ha.symm.trans ((latest_congr h).trans hb))

theorem Latest.mem {reported : List AttentionItem} {a : AttentionItem} (h : Latest reported a) :
    a ∈ reported :=
  List.mem_of_find?_eq_some h

/-- The change is later than those reported before for its pane. -/
def Newer (times : Times) (reported : List AttentionItem) (item : AttentionItem) : Prop :=
  ∀ r ∈ reported, SamePane item r → compareAt times item.at r.at = .gt

theorem Newer.not_mem {reported : List AttentionItem} (h : Newer times reported item) :
    item ∉ reported := by
  intro hmem
  have hlater := h item hmem ⟨rfl, rfl⟩
  rw [compareAt_self] at hlater
  cases hlater

/-- Reported again, nothing changes. -/
theorem latest_repeat {reported : List AttentionItem} (h : Latest reported item)
    (a : AttentionItem) : latest (item :: reported) a = latest reported a := by
  rw [latest_cons]
  split
  · next hsame => rw [latest_congr hsame, h]
  · rfl

/-- What is stored of a pane. -/
def stored (store : List NotificationAck) (hostId : Text) : Text → Option NotificationAck :=
  fill (fun _ => none) (store.filter (·.hostId = hostId))

theorem fill_append (acks : Text → Option NotificationAck) (list : List NotificationAck)
    (ack : NotificationAck) (p : Text) :
    fill acks (list ++ [ack]) p = if p = ack.paneId then some ack else fill acks list p := by
  rw [fill, List.foldl_append]
  rfl

theorem fill_eq (acks : Text → Option NotificationAck) (list : List NotificationAck) (p : Text) :
    fill acks list p = (fill (fun _ => none) list p).or (acks p) := by
  induction list using List.reverseRecOn with
  | nil => rfl
  | append_singleton list ack ih =>
    rw [fill_append, fill_append]
    split
    · rfl
    · exact ih

/-- Other panes do not matter. -/
theorem fill_filter (list : List NotificationAck) {q : NotificationAck → Bool} {p : Text}
    (h : ∀ ack, ack.paneId = p → q ack = true) :
    fill (fun _ => none) (list.filter q) p = fill (fun _ => none) list p := by
  induction list using List.reverseRecOn with
  | nil => rfl
  | append_singleton list ack ih =>
    rw [List.filter_append, List.filter_singleton]
    cases hq : q ack with
    | true =>
      rw [cond_true, fill_append, fill_append, ih]
    | false =>
      have hne : p ≠ ack.paneId := by
        intro heq
        rw [h ack heq.symm] at hq
        cases hq
      rw [cond_false, List.append_nil, fill_append, if_neg hne, ih]

theorem mem_of_fill {list : List NotificationAck} {p : Text} {ack : NotificationAck}
    (h : fill (fun _ => none) list p = some ack) : ack ∈ list ∧ ack.paneId = p := by
  induction list using List.reverseRecOn with
  | nil => cases h
  | append_singleton list last ih =>
    rw [fill_append] at h
    split at h
    · next heq =>
      obtain rfl := Option.some.inj h
      exact ⟨List.mem_append_right _ (List.mem_singleton_self _), heq.symm⟩
    · obtain ⟨hmem, hp⟩ := ih h
      exact ⟨List.mem_append_left _ hmem, hp⟩

theorem mem_of_stored {store : List NotificationAck} {p : Text} {ack : NotificationAck}
    (h : stored store hostId p = some ack) :
    ack ∈ store ∧ ack.hostId = hostId ∧ ack.paneId = p := by
  obtain ⟨hmem, hp⟩ := mem_of_fill h
  rw [List.mem_filter, decide_eq_true_eq] at hmem
  exact ⟨hmem.1, hmem.2, hp⟩

/-- A save replaces what is stored of its pane and leaves the rest. -/
theorem stored_savedAck (store : List NotificationAck) (ack : NotificationAck) (h p : Text) :
    stored (savedAck store ack) h p =
      if h = ack.hostId ∧ p = ack.paneId then some ack else stored store h p := by
  have hrest : ∀ list : List NotificationAck, (h = ack.hostId → p ≠ ack.paneId) →
      fill (fun _ => none) ((list.filter fun a => ¬(a.hostId = ack.hostId ∧
        a.paneId = ack.paneId)).filter (·.hostId = h)) p =
      fill (fun _ => none) (list.filter (·.hostId = h)) p := by
    intro list hother
    by_cases hh : h = ack.hostId
    · rw [List.filter_comm]
      apply fill_filter
      intro a ha
      have hne : a.paneId ≠ ack.paneId := ha ▸ hother hh
      simp [hne]
    · congr 1
      rw [List.filter_filter]
      apply List.filter_congr
      intro a _
      by_cases ha : a.hostId = h
      · simp [ha, hh]
      · simp [ha]
  rw [stored, savedAck, List.filter_append, List.filter_singleton]
  by_cases hh : ack.hostId = h
  · rw [decide_eq_true hh, cond_true, fill_append]
    by_cases hp : p = ack.paneId
    · rw [if_pos hp, if_pos ⟨hh.symm, hp⟩]
    · rw [if_neg hp, if_neg fun hboth => hp hboth.2, hrest _ fun _ => hp, stored]
  · rw [decide_eq_false hh, cond_false, List.append_nil,
      if_neg fun hboth => hh hboth.1.symm, hrest _ fun heq => absurd heq.symm hh, stored]

theorem ackFor_same {acks : Text → Option NotificationAck} {removed : Bool}
    (h : acks item.paneId = some (item.ack removed)) :
    ackFor times acks item.paneId item.status item.at = some (item.ack removed) := by
  rw [ackFor, h]
  simp [AttentionItem.ack, compareAt_self]

/-- An acknowledgement of an older change says nothing about a later one. -/
theorem ackFor_newer {acks : Text → Option NotificationAck} {reported : List AttentionItem}
    (hnew : Newer times reported item)
    (hacks : ∀ ack, acks item.paneId = some ack → ∃ r ∈ reported, SamePane item r ∧
      ∃ removed, ack = r.ack removed) :
    ackFor times acks item.paneId item.status item.at = none := by
  rw [ackFor]
  cases hack : acks item.paneId with
  | none => rfl
  | some ack =>
    obtain ⟨r, hr, hsame, removed, rfl⟩ := hacks ack hack
    have hlater : compareAt times item.at (r.ack removed).at = .gt := hnew r hr hsame
    simp [hlater]

end HerdrMobile.App.Acknowledged
