import HerdrMobile.App.Acknowledged
import HerdrMobile.Lib.Run

/-!
# Acknowledged changes stay acknowledged

The rows, the pending saves and the stored acknowledgements of a pane are all about its last
change or about older ones, and what is stored of the last change is what the person has done.
-/
namespace HerdrMobile.App.AckRuns

open HerdrMobile.Lib HerdrMobile.Lib.Strings HerdrMobile.Lib.LinkedMap HerdrMobile.Lib.Run
open HerdrMobile.App.PlainStore (NotificationAck savedAck)
open HerdrMobile.App.AgentStatus HerdrMobile.App.Acknowledged

set_option autoImplicit false

variable {times : Times} {s t : State} {item : AttentionItem}

/-- The last change again, or a later one. -/
def Fits (times : Times) (reported : List AttentionItem) (item : AttentionItem) : Prop :=
  Latest reported item ∨ Newer times reported item

def FitsAll (times : Times) : List AttentionItem → List AttentionItem → Prop
  | _, [] => True
  | reported, item :: rest => Fits times reported item ∧ FitsAll times (item :: reported) rest

/-- The Host reports the successive changes of each pane with increasing values of `at`. -/
def Successive (times : Times) (s : State) : Event → Prop
  | .apply => ∀ message ∈ s.queue.head?, FitsAll times s.reported message.reports
  | _ => True

/-- No save of the other kind is to be applied to the same row. -/
def Alone (s : State) (removed : Bool) (row : NotificationItem) : Prop :=
  ∀ save ∈ s.saves, save.object = some row.object → save.removed = removed

/-- The read state of the row is stored. -/
def Written (s : State) (row : NotificationItem) : Prop :=
  ∃ removed, stored s.store row.item.hostId row.item.paneId = some (row.item.ack removed)

def Plain (hostId : Text) : Prop := '\x00' ∉ hostId

/-- What has been read of the store and not been used yet. -/
def captured : Loading → Option (List NotificationAck)
  | .captured list => some list
  | _ => none

/-- No status is applied while a save of the same change is pending; a row is not read and removed
at the same time; a row that is marked as seen again has been stored; no acknowledgement is stored
between the reading of the acknowledgements and their use, which does not fail; and the ids of
computers are free of the separator. -/
def Clear (s : State) : Event → Prop
  | .arrive message => Plain message.hostId
  | .switchTo hostId => Plain hostId
  | .apply => ∀ message ∈ s.queue.head?, ∀ save ∈ s.saves, message ≠ .agentStatus save.item
  | .markSeen paneId => ∀ row ∈ get s.log (key s.currentHostId paneId),
      if row.seen then Written s row else Alone s false row
  | .remove paneId => ∀ row ∈ get s.log (key s.currentHostId paneId), Alone s true row
  | .markAllSeen => ∀ row ∈ s.own false, Alone s false row
  | .removeAll => ∀ row ∈ s.own true, Alone s true row
  | .loaded ok => ok = true
  | .saved ok => ok = true → ∀ save ∈ s.saves.head?, ∀ list ∈ captured s.loading,
      s.acksHostId = some save.item.hostId →
        fill (fun _ => none) list save.item.paneId = some (save.item.ack save.removed)
  | .begin | .read | .relaunch _ => True

instance (reported : List AttentionItem) (item : AttentionItem) :
    Decidable (Fits times reported item) :=
  inferInstanceAs (Decidable (latest reported item = some item ∨
    ∀ r ∈ reported, SamePane item r → compareAt times item.at r.at = .gt))

instance : (reported items : List AttentionItem) → Decidable (FitsAll times reported items)
  | _, [] => isTrue trivial
  | reported, item :: rest =>
    have := instDecidableFitsAll (item :: reported) rest
    inferInstanceAs (Decidable (Fits times reported item ∧ FitsAll times (item :: reported) rest))

instance (s : State) : (e : Event) → Decidable (Successive times s e)
  | .apply => inferInstanceAs
      (Decidable (∀ message ∈ s.queue.head?, FitsAll times s.reported message.reports))
  | .arrive _ | .begin | .read | .loaded _ | .markSeen _ | .markAllSeen | .remove _ | .removeAll
  | .saved _ | .switchTo _ | .relaunch _ => isTrue trivial

instance (s : State) (row : NotificationItem) : Decidable (Written s row) :=
  inferInstanceAs (Decidable
    (∃ removed, stored s.store row.item.hostId row.item.paneId = some (row.item.ack removed)))

instance (s : State) (removed : Bool) (row : NotificationItem) : Decidable (Alone s removed row) :=
  inferInstanceAs
    (Decidable (∀ save ∈ s.saves, save.object = some row.object → save.removed = removed))

instance (hostId : Text) : Decidable (Plain hostId) :=
  inferInstanceAs (Decidable ('\x00' ∉ hostId))

instance (s : State) : (e : Event) → Decidable (Clear s e)
  | .arrive message => inferInstanceAs (Decidable (Plain message.hostId))
  | .switchTo hostId => inferInstanceAs (Decidable (Plain hostId))
  | .apply => inferInstanceAs (Decidable
      (∀ message ∈ s.queue.head?, ∀ save ∈ s.saves, message ≠ .agentStatus save.item))
  | .markSeen paneId => inferInstanceAs (Decidable
      (∀ row ∈ get s.log (key s.currentHostId paneId),
        if row.seen then Written s row else Alone s false row))
  | .remove paneId => inferInstanceAs (Decidable
      (∀ row ∈ get s.log (key s.currentHostId paneId), Alone s true row))
  | .markAllSeen => inferInstanceAs (Decidable (∀ row ∈ s.own false, Alone s false row))
  | .removeAll => inferInstanceAs (Decidable (∀ row ∈ s.own true, Alone s true row))
  | .loaded ok => inferInstanceAs (Decidable (ok = true))
  | .saved ok => inferInstanceAs (Decidable
      (ok = true → ∀ save ∈ s.saves.head?, ∀ list ∈ captured s.loading,
        s.acksHostId = some save.item.hostId →
          fill (fun _ => none) list save.item.paneId = some (save.item.ack save.removed)))
  | .begin | .read | .relaunch _ => isTrue trivial

/-- The acknowledgements in memory are what the store has of the computer, or will be. -/
def Mirrors (s : State) (hostId : Text) : Prop :=
  match s.loading with
  | .idle | .ready => ∀ p, s.acks p = stored s.store hostId p
  | .reading => ∀ p, s.acks p = none ∨ s.acks p = stored s.store hostId p
  | .captured list => ∀ p, fill (fun _ => none) list p = stored s.store hostId p ∧
      (s.acks p = none ∨ s.acks p = stored s.store hostId p)

/-- A later save of the same pane is about the same change if that is the last one, and does not
take a removal back. -/
def InOrder (reported : List AttentionItem) (a b : Save) : Prop :=
  Latest reported a.item → SamePane a.item b.item →
    b.item = a.item ∧ (a.removed = true → b.removed = true)

/-- The row of a pending save: a removal still finds it, a mark finds it or it is read. -/
def Finds (s : State) (save : Save) : Prop :=
  if save.removed then
    save.item ∈ s.removed ∨
      ∃ row, get s.log save.item.key = some row ∧ save.object = some row.object
  else ∃ row, get s.log save.item.key = some row ∧
    (row.seen = true ∨ save.object = some row.object)

theorem Finds.of_get {save : Save} (h : Finds s save)
    (hlog : get t.log save.item.key = get s.log save.item.key)
    (hremoved : ∀ a, a ∈ s.removed → a ∈ t.removed) : Finds t save := by
  rw [Finds] at h ⊢
  rw [hlog]
  split at h
  · next hr =>
    rw [if_pos hr]
    exact h.imp (hremoved _) id
  · next hr =>
    rw [if_neg hr]
    exact h

structure Inv (times : Times) (s : State) : Prop where
  keyed : Keyed s.log
  own : ∀ k row, get s.log k = some row → k = row.item.key ∧ row.object < s.objects ∧
    Latest s.reported row.item
  distinct : ∀ k k' row row', get s.log k = some row → get s.log k' = some row' →
    row.object = row'.object → row.item = row'.item
  seen : ∀ k row, get s.log k = some row → row.item ∈ s.acknowledged → row.seen = true
  gone : ∀ k row, get s.log k = some row → row.item ∉ s.removed
  current : Plain s.currentHostId
  queue : ∀ message ∈ s.queue, Plain message.hostId
  head : s.loading ≠ .idle → ∃ message ∈ s.queue.head?, message.taken = true ∧
    s.acksHostId = some message.hostId
  mirror : ∀ hostId, s.acksHostId = some hostId → Mirrors s hostId
  plain : ∀ r ∈ s.reported, Plain r.hostId
  store : ∀ ack ∈ s.store, ∃ r ∈ s.reported, ∃ removed, ack = r.ack removed
  saved : ∀ save ∈ s.saves, save.item ∈ s.reported
  acknowledged : ∀ a ∈ s.acknowledged, a ∈ s.reported
  removed : ∀ a ∈ s.removed, a ∈ s.acknowledged
  ordered : ∀ a r, Latest s.reported a → r ∈ s.reported → SamePane a r →
    r = a ∨ compareAt times a.at r.at = .gt
  kept : ∀ a ∈ s.acknowledged, Latest s.reported a → ∃ removed,
    stored s.store a.hostId a.paneId = some (a.ack removed) ∧
      (a ∈ s.removed → removed = true)
  behind : ∀ a removed, Latest s.reported a →
    stored s.store a.hostId a.paneId = some (a.ack removed) →
      ∀ save ∈ s.saves, SamePane a save.item → save.item = a
  removals : ∀ save ∈ s.saves, save.item ∈ s.removed → Latest s.reported save.item →
    save.removed = true
  order : s.saves.Pairwise (InOrder s.reported)
  finds : ∀ save ∈ s.saves, Latest s.reported save.item → Finds s save
  objects : ∀ save ∈ s.saves, ∀ object, save.object = some object → object < s.objects ∧
    (∀ k row, get s.log k = some row → row.object = object → row.item = save.item) ∧
      ∀ save' ∈ s.saves, save'.object = some object → save'.removed = save.removed

theorem inv_start : Inv times {} where
  keyed := List.nodup_nil
  own := nofun
  distinct := nofun
  seen := nofun
  gone := nofun
  current := nofun
  queue := nofun
  head := fun h => absurd rfl h
  mirror := nofun
  plain := nofun
  store := nofun
  saved := nofun
  acknowledged := nofun
  removed := nofun
  ordered := nofun
  kept := nofun
  behind := nofun
  removals := nofun
  order := List.Pairwise.nil
  finds := nofun
  objects := nofun

theorem inv_report_again (hinv : Inv times s) (h : Latest s.reported item) :
    Inv times (s.report item) := by
  have hlatest : ∀ a, Latest (item :: s.reported) a ↔ Latest s.reported a := by
    intro a
    rw [Latest, latest_repeat h]
    exact Iff.rfl
  have hmem : ∀ a, a ∈ item :: s.reported ↔ a ∈ s.reported := by
    intro a
    rw [List.mem_cons]
    exact or_iff_right_of_imp fun heq => heq ▸ h.mem
  exact { hinv with
    own := by
      intro k row hrow
      obtain ⟨hkey, hobject, hrowLatest⟩ := hinv.own k row hrow
      exact ⟨hkey, hobject, (hlatest _).mpr hrowLatest⟩
    plain := fun r hr => hinv.plain r ((hmem r).mp hr)
    store := by
      intro ack hack
      obtain ⟨r, hr, hremoved⟩ := hinv.store ack hack
      exact ⟨r, (hmem r).mpr hr, hremoved⟩
    saved := fun save hsave => (hmem _).mpr (hinv.saved save hsave)
    acknowledged := fun a ha => (hmem a).mpr (hinv.acknowledged a ha)
    ordered := fun a r ha hr => hinv.ordered a r ((hlatest a).mp ha) ((hmem r).mp hr)
    kept := fun a ha hl => hinv.kept a ha ((hlatest a).mp hl)
    behind := fun a removed hl => hinv.behind a removed ((hlatest a).mp hl)
    removals := fun save hsave hr hl => hinv.removals save hsave hr ((hlatest _).mp hl)
    order := hinv.order.imp fun hab hl => hab ((hlatest _).mp hl)
    finds := fun save hsave hl => hinv.finds save hsave ((hlatest _).mp hl) }

/-- Rows and saves are about the same change where they have the same key. -/
theorem eq_of_key (hinv : Inv times s) {a b : AttentionItem} (ha : Latest s.reported a)
    (hb : Latest s.reported b) (h : a.key = b.key) : a = b :=
  ha.eq hb (samePane_of_key (hinv.plain a ha.mem) (hinv.plain b hb.mem) h)

/-- The row of the last change is the one at its key. -/
theorem item_of_get (hinv : Inv times s) (h : Latest s.reported item) {row : NotificationItem}
    (hrow : get s.log item.key = some row) : row.item = item := by
  obtain ⟨hkey, -, hl⟩ := hinv.own _ _ hrow
  exact eq_of_key hinv hl h hkey.symm

section Put

variable {seen : Bool} {k k' : Text} {row row' : NotificationItem}

theorem get_putItem (h : get (s.putItem item seen).log k = some row) :
    (k = item.key ∧ row = ⟨item, seen, s.objects⟩) ∨ (k ≠ item.key ∧ get s.log k = some row) := by
  rw [State.putItem, get_put] at h
  split at h
  · next heq => exact .inl ⟨heq, (Option.some.inj h).symm⟩
  · next hne => exact .inr ⟨hne, h⟩

/-- The object is new. -/
theorem distinct_putItem (hinv : Inv times s) (h : get (s.putItem item seen).log k = some row)
    (h' : get (s.putItem item seen).log k' = some row') (hsame : row.object = row'.object) :
    row.item = row'.item := by
  obtain ⟨-, rfl⟩ | ⟨-, h⟩ := get_putItem h
  · obtain ⟨-, rfl⟩ | ⟨-, h'⟩ := get_putItem h'
    · rfl
    · exact absurd hsame (Nat.ne_of_gt (hinv.own k' row' h').2.1)
  · obtain ⟨-, rfl⟩ | ⟨-, h'⟩ := get_putItem h'
    · exact absurd hsame (Nat.ne_of_lt (hinv.own k row h).2.1)
    · exact hinv.distinct k k' row row' h h' hsame

theorem seen_putItem (hinv : Inv times s) (hseen : item ∈ s.acknowledged → seen = true)
    (h : get (s.putItem item seen).log k = some row) : row.item ∈ s.acknowledged → row.seen = true := by
  obtain ⟨-, rfl⟩ | ⟨-, h⟩ := get_putItem h
  · exact hseen
  · exact hinv.seen k row h

theorem gone_putItem (hinv : Inv times s) (hgone : item ∉ s.removed)
    (h : get (s.putItem item seen).log k = some row) : row.item ∉ s.removed := by
  obtain ⟨-, rfl⟩ | ⟨-, h⟩ := get_putItem h
  · exact hgone
  · exact hinv.gone k row h

theorem objects_putItem (hinv : Inv times s) {save : Save} (hsave : save ∈ s.saves) {object : Nat}
    (hobject : save.object = some object) : object < s.objects + 1 ∧
      (∀ k row, get (s.putItem item seen).log k = some row → row.object = object →
        row.item = save.item) ∧
      ∀ save' ∈ s.saves, save'.object = some object → save'.removed = save.removed := by
  obtain ⟨hlt, hrows, hkinds⟩ := hinv.objects save hsave object hobject
  refine ⟨Nat.lt_succ_of_lt hlt, ?_, hkinds⟩
  intro k row h hsame
  obtain ⟨-, rfl⟩ | ⟨-, h⟩ := get_putItem h
  · exact absurd hsame (Nat.ne_of_gt hlt)
  · exact hrows k row h hsame

end Put

theorem inv_putItem (hinv : Inv times s) {seen : Bool} (hlatest : Latest s.reported item)
    (hseen : item ∈ s.acknowledged → seen = true) (hgone : item ∉ s.removed)
    (hsaves : ∀ save ∈ s.saves, save.item = item → save.removed = false ∧ seen = true) :
    Inv times (s.putItem item seen) :=
  { hinv with
    keyed := keyed_put hinv.keyed
    own := by
      intro k row hrow
      obtain ⟨rfl, rfl⟩ | ⟨-, hrow⟩ := get_putItem hrow
      · exact ⟨rfl, Nat.lt_succ_self _, hlatest⟩
      · obtain ⟨hkey, hobject, hl⟩ := hinv.own k row hrow
        exact ⟨hkey, Nat.lt_succ_of_lt hobject, hl⟩
    distinct := fun _ _ _ _ => distinct_putItem hinv
    seen := fun _ _ => seen_putItem hinv hseen
    gone := fun _ _ => gone_putItem hinv hgone
    finds := by
      intro save hsave hl
      by_cases heq : save.item = item
      · obtain ⟨hmark, hread⟩ := hsaves save hsave heq
        rw [Finds, if_neg (by simp [hmark])]
        refine ⟨⟨item, seen, s.objects⟩, ?_, .inl hread⟩
        rw [heq]
        exact get_put_self
      · have hkey : save.item.key ≠ item.key := fun h => heq (eq_of_key hinv hl hlatest h)
        exact (hinv.finds save hsave hl).of_get (get_put_ne hkey) fun _ h => h
    objects := fun _ hsave _ => objects_putItem hinv hsave }

/-- A later change makes a row that is not read. -/
theorem inv_newer (hinv : Inv times s) (hnew : Newer times s.reported item)
    (hplain : Plain item.hostId) : Inv times ((s.report item).putItem item false) := by
  have hnot := hnew.not_mem
  have hother : ∀ a, Latest (item :: s.reported) a → a ≠ item →
      ¬SamePane a item ∧ Latest s.reported a := by
    intro a ha hne
    rw [Latest, latest_cons] at ha
    split at ha
    · exact absurd (Option.some.inj ha).symm hne
    · next hpane => exact ⟨hpane, ha⟩
  have hself : Latest (item :: s.reported) item := by
    rw [Latest, latest_cons, if_pos ⟨rfl, rfl⟩]
  have hlater : ∀ a, Latest s.reported a → ¬SamePane a item → Latest (item :: s.reported) a := by
    intro a ha hpane
    rw [Latest, latest_cons, if_neg hpane]
    exact ha
  exact { hinv with
    keyed := keyed_put hinv.keyed
    own := by
      intro k row hrow
      obtain ⟨rfl, rfl⟩ | ⟨hne, hrow⟩ := get_putItem hrow
      · exact ⟨rfl, Nat.lt_succ_self _, hself⟩
      · obtain ⟨hkey, hobject, hl⟩ := hinv.own k row hrow
        refine ⟨hkey, Nat.lt_succ_of_lt hobject, hlater _ hl fun hpane => hne ?_⟩
        rw [hkey, hpane.key_eq]
    distinct := fun _ _ _ _ => distinct_putItem (s := s) hinv
    seen := fun _ _ => seen_putItem (s := s) hinv fun hack =>
      absurd (hinv.acknowledged _ hack) hnot
    gone := fun _ _ => gone_putItem (s := s) hinv fun hremoved =>
      hnot (hinv.acknowledged _ (hinv.removed _ hremoved))
    plain := List.forall_mem_cons.mpr ⟨hplain, hinv.plain⟩
    store := by
      intro ack hack
      obtain ⟨r, hr, hremoved⟩ := hinv.store ack hack
      exact ⟨r, List.mem_cons_of_mem _ hr, hremoved⟩
    saved := fun save hsave => List.mem_cons_of_mem _ (hinv.saved save hsave)
    acknowledged := fun a ha => List.mem_cons_of_mem _ (hinv.acknowledged a ha)
    ordered := by
      intro a r ha hr hpane
      by_cases heq : a = item
      · obtain hsame | hold := List.mem_cons.mp hr
        · exact .inl (hsame.trans heq.symm)
        · rw [heq] at hpane ⊢
          exact .inr (hnew r hold hpane)
      · obtain ⟨hother, hl⟩ := hother a ha heq
        obtain rfl | hr := List.mem_cons.mp hr
        · exact absurd hpane hother
        · exact hinv.ordered a r hl hr hpane
    kept := by
      intro a ha hl
      have hne : a ≠ item := fun heq => hnot (heq ▸ hinv.acknowledged a ha)
      exact hinv.kept a ha (hother a hl hne).2
    behind := by
      intro a removed hl hstored
      by_cases heq : a = item
      · obtain ⟨r, hr, removed', hack⟩ := hinv.store _ (mem_of_stored hstored).1
        obtain ⟨rfl, -⟩ := ack_inj hack
        exact absurd (heq ▸ hr) hnot
      · exact hinv.behind a removed (hother a hl heq).2 hstored
    removals := by
      intro save hsave hr hl
      have hne : save.item ≠ item := fun heq => hnot (heq ▸ hinv.saved save hsave)
      exact hinv.removals save hsave hr (hother _ hl hne).2
    order := by
      refine hinv.order.imp_of_mem fun {a b} ha _ hab hl => hab ?_
      have hne : a.item ≠ item := fun heq => hnot (heq ▸ hinv.saved a ha)
      exact (hother _ hl hne).2
    finds := by
      intro save hsave hl
      have hne : save.item ≠ item := fun heq => hnot (heq ▸ hinv.saved save hsave)
      obtain ⟨hpane, hl⟩ := hother _ hl hne
      have hkey : save.item.key ≠ item.key := fun h =>
        hpane (samePane_of_key (hinv.plain _ (hinv.saved save hsave)) hplain h)
      exact (hinv.finds save hsave hl).of_get (get_put_ne hkey) fun _ h => h
    objects := fun _ hsave _ => objects_putItem (s := s) hinv hsave }

/-- The log without the row of a change. -/
theorem inv_forget (hinv : Inv times s) {log : Linked Text NotificationItem} (hkeyed : Keyed log)
    (hlog : ∀ k row, get log k = some row ↔ get s.log k = some row ∧ row.item ≠ item)
    (hreported : item ∈ s.reported)
    (hstored : Latest s.reported item →
      stored s.store item.hostId item.paneId = some (item.ack true))
    (hsaves : ∀ save ∈ s.saves, Latest s.reported item → save.item = item →
      save.removed = true) :
    Inv times { s with
      log := log
      acknowledged := item :: s.acknowledged
      removed := item :: s.removed } := by
  have hkept : ∀ save ∈ s.saves, save.item ≠ item → Latest s.reported save.item →
      ∀ row, get s.log save.item.key = some row → get log save.item.key = some row := by
    intro save _ hne hl row hrow
    refine (hlog _ row).mpr ⟨hrow, ?_⟩
    rw [item_of_get hinv hl hrow]
    exact hne
  exact { hinv with
    keyed := hkeyed
    own := fun k row hrow => hinv.own k row ((hlog k row).mp hrow).1
    distinct := fun k k' row row' hrow hrow' =>
      hinv.distinct k k' row row' ((hlog k row).mp hrow).1 ((hlog k' row').mp hrow').1
    seen := by
      intro k row hrow hack
      obtain ⟨hrow, hne⟩ := (hlog k row).mp hrow
      exact hinv.seen k row hrow ((List.mem_cons.mp hack).resolve_left hne)
    gone := by
      intro k row hrow hmem
      obtain ⟨hrow, hne⟩ := (hlog k row).mp hrow
      exact hinv.gone k row hrow ((List.mem_cons.mp hmem).resolve_left hne)
    acknowledged := List.forall_mem_cons.mpr ⟨hreported, hinv.acknowledged⟩
    removed := by
      intro a ha
      obtain rfl | ha := List.mem_cons.mp ha
      · exact List.mem_cons_self
      · exact List.mem_cons_of_mem _ (hinv.removed a ha)
    kept := by
      intro a ha hl
      by_cases heq : a = item
      · subst heq
        exact ⟨true, hstored hl, fun _ => rfl⟩
      · obtain ⟨removed, hst, hr⟩ := hinv.kept a ((List.mem_cons.mp ha).resolve_left heq) hl
        exact ⟨removed, hst, fun hmem => hr ((List.mem_cons.mp hmem).resolve_left heq)⟩
    removals := by
      intro save hsave hmem hl
      by_cases heq : save.item = item
      · exact hsaves save hsave (heq ▸ hl) heq
      · exact hinv.removals save hsave ((List.mem_cons.mp hmem).resolve_left heq) hl
    finds := by
      intro save hsave hl
      rw [Finds]
      by_cases heq : save.item = item
      · rw [if_pos (hsaves save hsave (heq ▸ hl) heq), heq]
        exact .inl List.mem_cons_self
      · have hfinds := hinv.finds save hsave hl
        rw [Finds] at hfinds
        split at hfinds
        · next hr =>
          rw [if_pos hr]
          obtain hmem | ⟨row, hrow, hobject⟩ := hfinds
          · exact .inl (List.mem_cons_of_mem _ hmem)
          · exact .inr ⟨row, hkept save hsave heq hl row hrow, hobject⟩
        · next hr =>
          rw [if_neg hr]
          obtain ⟨row, hrow, hobject⟩ := hfinds
          exact ⟨row, hkept save hsave heq hl row hrow, hobject⟩
    objects := by
      intro save hsave object hobject
      obtain ⟨hlt, hrows, hkinds⟩ := hinv.objects save hsave object hobject
      exact ⟨hlt, fun k row hrow => hrows k row ((hlog k row).mp hrow).1, hkinds⟩ }

/-- The change of a row that is read has been acknowledged. -/
theorem inv_note (hinv : Inv times s) (hreported : item ∈ s.reported)
    (hrows : ∀ k row, get s.log k = some row → row.item = item → row.seen = true)
    (hstored : Latest s.reported item → ∃ removed,
      stored s.store item.hostId item.paneId = some (item.ack removed) ∧
        (item ∈ s.removed → removed = true)) :
    Inv times { s with acknowledged := item :: s.acknowledged } :=
  { hinv with
    seen := by
      intro k row hrow hack
      obtain heq | hack := List.mem_cons.mp hack
      · exact hrows k row hrow heq
      · exact hinv.seen k row hrow hack
    acknowledged := List.forall_mem_cons.mpr ⟨hreported, hinv.acknowledged⟩
    removed := fun a ha => List.mem_cons_of_mem _ (hinv.removed a ha)
    kept := by
      intro a ha hl
      obtain rfl | ha := List.mem_cons.mp ha
      · exact hstored hl
      · exact hinv.kept a ha hl
    finds := fun save hsave hl => (hinv.finds save hsave hl).of_get rfl fun _ h => h }

theorem get_remove_iff (hinv : Inv times s) (hlatest : Latest s.reported item) (k : Text)
    (row : NotificationItem) : get (LinkedMap.remove s.log item.key) k = some row ↔
      get s.log k = some row ∧ row.item ≠ item := by
  constructor
  · intro h
    obtain ⟨hne, hrow⟩ := get_of_remove h
    refine ⟨hrow, fun heq => hne ?_⟩
    rw [(hinv.own k row hrow).1, heq]
  · rintro ⟨hrow, hne⟩
    have hkey : k ≠ item.key := by
      rintro rfl
      exact hne (item_of_get hinv hlatest hrow)
    rw [get_remove_ne hkey]
    exact hrow

/-- The row of a change goes that nothing is pending about. -/
theorem inv_removeItem (hinv : Inv times s) (hlatest : Latest s.reported item)
    (hsaves : ∀ save ∈ s.saves, save.item ≠ item) : Inv times (s.removeItem item) := by
  have hget := get_remove_iff hinv hlatest
  exact { hinv with
    keyed := keyed_remove hinv.keyed
    own := fun k row hrow => hinv.own k row ((hget k row).mp hrow).1
    distinct := fun k k' row row' hrow hrow' =>
      hinv.distinct k k' row row' ((hget k row).mp hrow).1 ((hget k' row').mp hrow').1
    seen := fun k row hrow => hinv.seen k row ((hget k row).mp hrow).1
    gone := fun k row hrow => hinv.gone k row ((hget k row).mp hrow).1
    finds := by
      intro save hsave hl
      have hkey : save.item.key ≠ item.key := fun h =>
        hsaves save hsave (eq_of_key hinv hl hlatest h)
      exact (hinv.finds save hsave hl).of_get (get_remove_ne hkey) fun _ h => h
    objects := by
      intro save hsave object hobject
      obtain ⟨hlt, hrows, hkinds⟩ := hinv.objects save hsave object hobject
      exact ⟨hlt, fun k row hrow => hrows k row ((hget k row).mp hrow).1, hkinds⟩ }

/-- What the acknowledgements in memory say, once they have been read. -/
theorem acks_stored (hinv : Inv times s) {hostId : Text} (hacks : s.acksHostId = some hostId)
    (hready : s.loading = .idle ∨ s.loading = .ready) (p : Text) :
    s.acks p = stored s.store hostId p := by
  have hmirror := hinv.mirror hostId hacks
  rw [Mirrors] at hmirror
  obtain h | h := hready
  · rw [h] at hmirror
    exact hmirror p
  · rw [h] at hmirror
    exact hmirror p

theorem ackFor_of_newer (hinv : Inv times s) (hacks : s.acksHostId = some item.hostId)
    (hready : s.loading = .idle ∨ s.loading = .ready) (hnew : Newer times s.reported item) :
    ackFor times s.acks item.paneId item.status item.at = none := by
  apply ackFor_newer hnew
  intro ack hack
  rw [acks_stored hinv hacks hready] at hack
  obtain ⟨hmem, hhost, hpane⟩ := mem_of_stored hack
  obtain ⟨r, hr, removed, rfl⟩ := hinv.store ack hmem
  exact ⟨r, hr, ⟨hhost.symm, hpane.symm⟩, removed, rfl⟩

/-- What memory makes of the last change once it has been acknowledged. -/
theorem ackFor_of_acknowledged (hinv : Inv times s) (hacks : s.acksHostId = some item.hostId)
    (hready : s.loading = .idle ∨ s.loading = .ready) (hlatest : Latest s.reported item)
    (hack : item ∈ s.acknowledged) : ∃ removed,
      ackFor times s.acks item.paneId item.status item.at = some (item.ack removed) ∧
        (item ∈ s.removed → removed = true) := by
  obtain ⟨removed, hst, hr⟩ := hinv.kept item hack hlatest
  refine ⟨removed, ackFor_same ?_, hr⟩
  rw [acks_stored hinv hacks hready, hst]

theorem onLiveAgentStatus_report (s : State) (item : AttentionItem) :
    (s.report item).onLiveAgentStatus times item =
      match ackFor times s.acks item.paneId item.status item.at with
      | none => { (s.report item).putItem item false with posted := item :: s.posted }
      | some ack => if ack.removed then (s.report item).removeItem item
        else (s.report item).putItem item true := rfl

theorem onAgent_report (s : State) (item : AttentionItem) :
    (s.report item).onAgent times item =
      if s.keeps times item = true then s.report item
      else
        match ackFor times s.acks item.paneId item.status item.at with
        | none => (s.report item).putItem item false
        | some ack => if ack.removed then s.report item
          else (s.report item).putItem item true := rfl

theorem inv_live (hinv : Inv times s) (hplain : Plain item.hostId)
    (hacks : s.acksHostId = some item.hostId)
    (hready : s.loading = .idle ∨ s.loading = .ready) (hfits : Fits times s.reported item)
    (hsaves : ∀ save ∈ s.saves, save.item ≠ item) :
    Inv times ((s.report item).onLiveAgentStatus times item) := by
  rw [onLiveAgentStatus_report]
  obtain hlatest | hnew := hfits
  · have hagain := inv_report_again hinv hlatest
    have hself : Latest (s.report item).reported item := by
      rw [Latest]
      exact (latest_repeat hlatest item).trans hlatest
    cases hack : ackFor times s.acks item.paneId item.status item.at with
    | none =>
      have hnot : item ∉ s.acknowledged := by
        intro hmem
        obtain ⟨removed, hsome, -⟩ := ackFor_of_acknowledged hinv hacks hready hlatest hmem
        rw [hack] at hsome
        cases hsome
      have hput : Inv times ((s.report item).putItem item false) :=
        inv_putItem hagain hself (fun h => absurd h hnot)
          (fun h => hnot (hinv.removed item h)) fun save hsave heq =>
            absurd heq (hsaves save hsave)
      exact { hput with
        finds := fun save hsave hl => (hput.finds save hsave hl).of_get rfl fun _ h => h }
    | some ack =>
      simp only
      split
      · exact inv_removeItem hagain hself hsaves
      · next hremoved =>
        apply inv_putItem hagain hself (fun _ => rfl) _ fun save hsave heq =>
          absurd heq (hsaves save hsave)
        intro hmem
        obtain ⟨removed, hsome, hr⟩ :=
          ackFor_of_acknowledged hinv hacks hready hlatest (hinv.removed item hmem)
        rw [hack] at hsome
        obtain rfl := Option.some.inj hsome
        exact hremoved (hr hmem)
  · rw [ackFor_of_newer hinv hacks hready hnew]
    have hput := inv_newer hinv hnew hplain
    exact { hput with
      finds := fun save hsave hl => (hput.finds save hsave hl).of_get rfl fun _ h => h }

theorem onAgent_eq (s : State) (item : AttentionItem) : ∃ log objects,
    s.onAgent times item = { s with log := log, objects := objects } := by
  rw [State.onAgent]
  split
  · exact ⟨_, _, rfl⟩
  · split
    · exact ⟨_, _, rfl⟩
    · split <;> exact ⟨_, _, rfl⟩

/-- The row of the last change is kept. -/
theorem keeps_of_latest (hinv : Inv times s) (hlatest : Latest s.reported item)
    {row : NotificationItem} (hrow : get s.log item.key = some row) :
    s.keeps times item = true := by
  rw [State.keeps, hrow]
  simp [item_of_get hinv hlatest hrow, compareAt_self]

theorem not_keeps_of_newer (hinv : Inv times s) (hplain : Plain item.hostId)
    (hnew : Newer times s.reported item) : ¬s.keeps times item = true := by
  rw [State.keeps]
  cases hrow : get s.log item.key with
  | none => exact Bool.false_ne_true
  | some row =>
    obtain ⟨hkey, -, hl⟩ := hinv.own _ _ hrow
    have hpane := samePane_of_key hplain (hinv.plain _ hl.mem) hkey
    simp [hnew row.item hl.mem hpane]

theorem inv_agent (hinv : Inv times s) (hplain : Plain item.hostId)
    (hacks : s.acksHostId = some item.hostId)
    (hready : s.loading = .idle ∨ s.loading = .ready) (hfits : Fits times s.reported item) :
    Inv times ((s.report item).onAgent times item) := by
  rw [onAgent_report]
  obtain hlatest | hnew := hfits
  · have hagain := inv_report_again hinv hlatest
    have hself : Latest (s.report item).reported item :=
      (latest_repeat hlatest item).trans hlatest
    cases hrow : get s.log item.key with
    | some row =>
      rw [if_pos (keeps_of_latest hinv hlatest hrow)]
      exact hagain
    | none =>
      have hkeeps : ¬s.keeps times item = true := by
        rw [State.keeps, hrow]
        exact Bool.false_ne_true
      -- A pending save has its row, or the change has been removed.
      have hpending : item ∉ s.removed → ∀ save ∈ s.saves, save.item ≠ item := by
        rintro hnot save hsave rfl
        have hfinds := hinv.finds save hsave hlatest
        rw [Finds, hrow] at hfinds
        split at hfinds
        · obtain hmem | ⟨row, hnone, -⟩ := hfinds
          · exact hnot hmem
          · cases hnone
        · obtain ⟨row, hnone, -⟩ := hfinds
          cases hnone
      rw [if_neg hkeeps]
      cases hack : ackFor times s.acks item.paneId item.status item.at with
      | none =>
        have hnot : item ∉ s.acknowledged := by
          intro hmem
          obtain ⟨removed, hsome, -⟩ := ackFor_of_acknowledged hinv hacks hready hlatest hmem
          rw [hack] at hsome
          cases hsome
        have hgone : item ∉ s.removed := fun h => hnot (hinv.removed item h)
        exact inv_putItem hagain hself (fun h => absurd h hnot) hgone fun save hsave heq =>
          absurd heq (hpending hgone save hsave)
      | some ack =>
        simp only
        split
        · exact hagain
        · next hremoved =>
          have hgone : item ∉ s.removed := by
            intro hmem
            obtain ⟨removed, hsome, hr⟩ :=
              ackFor_of_acknowledged hinv hacks hready hlatest (hinv.removed item hmem)
            rw [hack] at hsome
            obtain rfl := Option.some.inj hsome
            exact hremoved (hr hmem)
          exact inv_putItem hagain hself (fun _ => rfl) hgone fun save hsave heq =>
            absurd heq (hpending hgone save hsave)
  · rw [if_neg (not_keeps_of_newer hinv hplain hnew), ackFor_of_newer hinv hacks hready hnew]
    exact inv_newer hinv hnew hplain

theorem inv_snapshot {items : List AttentionItem} (hinv : Inv times s)
    (hplain : ∀ item ∈ items, Plain item.hostId)
    (hacks : ∀ item ∈ items, s.acksHostId = some item.hostId)
    (hready : s.loading = .idle ∨ s.loading = .ready)
    (hfits : FitsAll times s.reported items) : Inv times (s.onTreeSnapshot times items) := by
  induction items generalizing s with
  | nil => exact hinv
  | cons item rest ih =>
    obtain ⟨hplain, hplains⟩ := List.forall_mem_cons.mp hplain
    obtain ⟨hack, hacks⟩ := List.forall_mem_cons.mp hacks
    have hone := inv_agent hinv hplain hack hready hfits.1
    obtain ⟨log, objects, heq⟩ := (@onAgent_eq times) (s.report item) item
    rw [State.onTreeSnapshot, List.foldl_cons]
    rw [heq] at hone ⊢
    exact ih hone hplains hacks hready hfits.2

theorem reports_host (message : Message) : ∀ item ∈ message.reports,
    item.hostId = message.hostId := by
  intro item hitem
  cases message with
  | agentStatus status => rw [List.mem_singleton.mp hitem, Message.hostId]
  | treeSnapshot hostId agents =>
    obtain ⟨agent, -, hagent⟩ := List.mem_filterMap.mp hitem
    obtain ⟨kind, -, rfl⟩ := Option.map_eq_some_iff.mp hagent
    rfl

theorem inv_dequeued {message : Message} {rest : List Message} (hinv : Inv times s)
    (hloading : s.loading = .ready) (hqueue : s.queue = message :: rest) :
    Inv times { s with queue := rest, loading := .idle } :=
  { hinv with
    queue := fun m hm => hinv.queue m (hqueue ▸ List.mem_cons_of_mem _ hm)
    head := fun h => absurd rfl h
    mirror := by
      intro hostId hhost p
      exact acks_stored hinv hhost (.inr hloading) p
    finds := fun save hsave hl => (hinv.finds save hsave hl).of_get rfl fun _ h => h }

theorem inv_apply {message : Message} {rest : List Message} (hinv : Inv times s)
    (hloading : s.loading = .ready) (hqueue : s.queue = message :: rest)
    (hfits : FitsAll times s.reported message.reports)
    (hsaves : ∀ status, message = .agentStatus status → ∀ save ∈ s.saves, save.item ≠ status) :
    Inv times (({ s with queue := rest, loading := .idle } : State).onMessage times message) := by
  obtain ⟨head, hhead, htaken, hacks⟩ := hinv.head (by rw [hloading]; nofun)
  obtain rfl : message = head := by
    rw [hqueue] at hhead
    exact Option.some.inj hhead
  have hplain : Plain message.hostId :=
    hinv.queue message (hqueue ▸ List.mem_cons_self)
  have hidle := inv_dequeued hinv hloading hqueue
  have hhost := reports_host message
  cases message with
  | agentStatus status =>
    exact inv_live hidle hplain hacks (.inl rfl) hfits.1 (hsaves status rfl)
  | treeSnapshot hostId agents =>
    apply inv_snapshot hidle _ _ (.inl rfl) hfits
    · intro item hitem
      rw [hhost item hitem]
      exact hplain
    · intro item hitem
      rw [hhost item hitem]
      exact hacks

theorem inv_begin (hinv : Inv times s) (h : s.begin = some t) : Inv times t := by
  rw [State.begin] at h
  split at h
  · next message rest hloading hqueue =>
    split at h
    · cases h
      exact { hinv with
        queue := fun m hm => hinv.queue m (hqueue ▸ List.mem_cons_of_mem _ hm)
        head := fun h => absurd hloading h
        finds := fun save hsave hl => (hinv.finds save hsave hl).of_get rfl fun _ h => h }
    · next htaken =>
      have hhead : ∃ m ∈ s.queue.head?, m.taken = true ∧ some message.hostId = some m.hostId :=
        ⟨message, by rw [hqueue]; rfl, by simpa using htaken, rfl⟩
      split at h
      · next hacks =>
        cases h
        exact { hinv with
          head := fun _ => hacks ▸ hhead
          mirror := by
            intro hostId hhost p
            exact acks_stored hinv hhost (.inl hloading) p
          finds := fun save hsave hl => (hinv.finds save hsave hl).of_get rfl fun _ h => h }
      · cases h
        exact { hinv with
          head := fun _ => hhead
          mirror := fun hostId _ p => .inl rfl
          finds := fun save hsave hl => (hinv.finds save hsave hl).of_get rfl fun _ h => h }
  · cases h

theorem inv_read (hinv : Inv times s) {hostId : Text} (hloading : s.loading = .reading)
    (hhost : s.acksHostId = some hostId) :
    Inv times { s with loading := .captured (s.store.filter (·.hostId = hostId)) } :=
  { hinv with
    head := fun _ => hinv.head (by rw [hloading]; nofun)
    mirror := by
      intro other hother p
      cases hhost.symm.trans hother
      have hmirror := hinv.mirror hostId hhost
      rw [Mirrors, hloading] at hmirror
      exact ⟨rfl, hmirror p⟩
    finds := fun save hsave hl => (hinv.finds save hsave hl).of_get rfl fun _ h => h }

theorem inv_loaded (hinv : Inv times s) {list : List NotificationAck}
    (hloading : s.loading = .captured list) :
    Inv times { s with acks := fill s.acks list, loading := .ready } :=
  { hinv with
    head := fun _ => hinv.head (by rw [hloading]; nofun)
    mirror := by
      intro hostId hhost p
      have hmirror := hinv.mirror hostId hhost
      rw [Mirrors, hloading] at hmirror
      obtain ⟨hlist, hacks⟩ := hmirror p
      show fill s.acks list p = _
      rw [fill_eq, hlist]
      obtain hnone | hsame := hacks
      · rw [hnone, Option.or_none]
      · rw [hsame, Option.or_self]
    finds := fun save hsave hl => (hinv.finds save hsave hl).of_get rfl fun _ h => h }

/-- The pending saves about a row that is there. -/
theorem pending_of_row (hinv : Inv times s) {k : Text} {row : NotificationItem}
    (hrow : get s.log k = some row) {save : Save} (hsave : save ∈ s.saves)
    (hitem : save.item = row.item) (hremoved : save.removed = true) :
    save.object = some row.object := by
  obtain ⟨hkey, -, hl⟩ := hinv.own k row hrow
  have hfinds := hinv.finds save hsave (hitem ▸ hl)
  rw [Finds, if_pos hremoved, hitem, ← hkey, hrow] at hfinds
  obtain hmem | ⟨row', hrow', hobject⟩ := hfinds
  · exact absurd hmem (hinv.gone k row hrow)
  · rw [Option.some.inj hrow']
    exact hobject

/-- The save of a row that is there. -/
theorem inv_enqueue (hinv : Inv times s) {k : Text} {row : NotificationItem}
    (hrow : get s.log k = some row) {save : Save} (hitem : save.item = row.item)
    (hfinds : if save.removed = true then save.object = some row.object
      else row.seen = true ∨ save.object = some row.object)
    (hkinds : ∀ save' ∈ s.saves, save'.item = row.item → save'.removed = true →
      save.removed = true)
    (hobject : ∀ object, save.object = some object → object = row.object ∧
      Alone s save.removed row) : Inv times (s.enqueue save) := by
  obtain ⟨hkey, hlt, hl⟩ := hinv.own k row hrow
  have hself : Finds (s.enqueue save) save := by
    rw [Finds]
    show if save.removed = true then save.item ∈ s.removed ∨
        ∃ row, get s.log save.item.key = some row ∧ _
      else ∃ row, get s.log save.item.key = some row ∧ _
    rw [hitem, ← hkey]
    split at hfinds
    · next hremoved =>
      rw [if_pos hremoved]
      exact .inr ⟨row, hrow, hfinds⟩
    · next hremoved =>
      rw [if_neg hremoved]
      exact ⟨row, hrow, hfinds⟩
  exact { hinv with
    saved := by
      intro save' hsave'
      obtain hold | hnew := List.mem_append.mp hsave'
      · exact hinv.saved save' hold
      · rw [List.mem_singleton.mp hnew, hitem]
        exact hl.mem
    behind := by
      intro a removed ha hstored save' hsave' hpane
      obtain hold | hnew := List.mem_append.mp hsave'
      · exact hinv.behind a removed ha hstored save' hold hpane
      · rw [List.mem_singleton.mp hnew, hitem] at hpane ⊢
        exact (ha.eq hl hpane).symm
    removals := by
      intro save' hsave' hmem hl'
      obtain hold | hnew := List.mem_append.mp hsave'
      · exact hinv.removals save' hold hmem hl'
      · rw [List.mem_singleton.mp hnew, hitem] at hmem
        exact absurd hmem (hinv.gone k row hrow)
    order := by
      apply List.pairwise_append.mpr
      refine ⟨hinv.order, List.pairwise_singleton _ _, ?_⟩
      intro a ha b hb hla hpane
      rw [List.mem_singleton.mp hb] at hpane ⊢
      rw [hitem] at hpane ⊢
      have heq := hla.eq hl hpane
      exact ⟨heq.symm, hkinds a ha heq⟩
    finds := by
      intro save' hsave' hl'
      obtain hold | hnew := List.mem_append.mp hsave'
      · exact (hinv.finds save' hold hl').of_get rfl fun _ h => h
      · rw [List.mem_singleton.mp hnew]
        exact hself
    objects := by
      intro save' hsave' object hobject'
      obtain hold | hnew := List.mem_append.mp hsave'
      · obtain ⟨hlt, hrows, hsame⟩ := hinv.objects save' hold object hobject'
        refine ⟨hlt, hrows, fun other hother hobject'' => ?_⟩
        obtain hold' | hnew' := List.mem_append.mp hother
        · exact hsame other hold' hobject''
        · rw [List.mem_singleton.mp hnew'] at hobject'' ⊢
          obtain ⟨rfl, halone⟩ := hobject object hobject''
          exact (halone save' hold hobject').symm
      · rw [List.mem_singleton.mp hnew] at hobject' ⊢
        obtain ⟨rfl, halone⟩ := hobject object hobject'
        refine ⟨hlt, ?_, fun other hother hobject'' => ?_⟩
        · intro k' row' hrow' hsame
          rw [hitem]
          exact hinv.distinct k' k row' row hrow' hrow hsame
        · obtain hold' | hnew' := List.mem_append.mp hother
          · exact halone other hold' hobject''
          · rw [List.mem_singleton.mp hnew'] }

theorem inv_transition (hinv : Inv times s) {k : Text} {row : NotificationItem}
    (hrow : get s.log k = some row) {removed : Bool} (halone : Alone s removed row) :
    Inv times (s.enqueue ⟨row.item, removed, some row.object⟩) := by
  apply inv_enqueue hinv hrow rfl
  · cases removed with
    | true => exact rfl
    | false => exact .inr rfl
  · intro save hsave hitem hremoved
    have hobject := pending_of_row hinv hrow hsave hitem hremoved
    exact (halone save hsave hobject).symm.trans hremoved
  · intro object hobject
    exact ⟨(Option.some.inj hobject).symm, halone⟩

theorem inv_markSeen (hinv : Inv times s) {paneId : Text}
    (hclear : Clear s (.markSeen paneId)) : Inv times (s.markSeen paneId) := by
  rw [State.markSeen]
  cases hrow : get s.log (key s.currentHostId paneId) with
  | none => exact hinv
  | some row =>
    have hclear := hclear row hrow
    obtain ⟨hkey, -, hl⟩ := hinv.own _ _ hrow
    have hgone := hinv.gone _ _ hrow
    simp only
    split at hclear
    · next hseen =>
      rw [if_pos hseen]
      apply inv_note hinv hl.mem
      · intro k row' hrow' hitem
        obtain ⟨hkey', -, -⟩ := hinv.own k row' hrow'
        rw [hitem, ← hkey] at hkey'
        rw [hkey', hrow] at hrow'
        rw [← Option.some.inj hrow']
        exact hseen
      · intro _
        obtain ⟨removed, hstored⟩ := hclear
        exact ⟨removed, hstored, fun h => absurd h hgone⟩
    · next hseen =>
      rw [if_neg hseen]
      have hmarks : ∀ save ∈ s.saves, save.item = row.item → save.removed = false := by
        intro save hsave hitem
        cases hremoved : save.removed with
        | false => rfl
        | true =>
          have hobject := pending_of_row hinv hrow hsave hitem hremoved
          exact hremoved.symm.trans (hclear save hsave hobject)
      have hput : Inv times (s.putItem row.item true) :=
        inv_putItem hinv hl (fun _ => rfl) hgone fun save hsave hitem =>
          ⟨hmarks save hsave hitem, rfl⟩
      have hnew : get (s.putItem row.item true).log row.item.key =
          some ⟨row.item, true, s.objects⟩ :=
        get_put_self
      apply inv_enqueue hput hnew rfl
      · exact Or.inl rfl
      · intro save hsave hitem hremoved
        exact absurd hremoved (by rw [hmarks save hsave hitem]; exact Bool.false_ne_true)
      · nofun

theorem inv_remove (hinv : Inv times s) {paneId : Text} (hclear : Clear s (.remove paneId)) :
    Inv times (s.remove paneId) := by
  rw [State.remove]
  cases hrow : get s.log (key s.currentHostId paneId) with
  | none => exact hinv
  | some row => exact inv_transition hinv hrow (hclear row hrow)

theorem inv_transitions (hinv : Inv times s) {removed : Bool} {rows : List NotificationItem}
    (hrows : ∀ row ∈ rows, ∃ k, get s.log k = some row)
    (halone : ∀ row ∈ rows, Alone s removed row) :
    Inv times (rows.foldl
      (fun s row => s.enqueue ⟨row.item, removed, some row.object⟩) s) := by
  induction rows generalizing s with
  | nil => exact hinv
  | cons row rest ih =>
    obtain ⟨⟨k, hrow⟩, hrows⟩ := List.forall_mem_cons.mp hrows
    obtain ⟨hone, halone⟩ := List.forall_mem_cons.mp halone
    apply ih (inv_transition hinv hrow hone) hrows
    intro other hother save hsave hobject
    obtain hold | hnew := List.mem_append.mp hsave
    · exact halone other hother save hold hobject
    · rw [List.mem_singleton.mp hnew]

theorem get_of_own (hinv : Inv times s) {removed : Bool} {row : NotificationItem}
    (h : row ∈ s.own removed) : ∃ k, get s.log k = some row := by
  obtain ⟨hmem, -⟩ := List.mem_filter.mp h
  obtain ⟨⟨k, row'⟩, hentry, rfl⟩ := List.mem_map.mp hmem
  exact ⟨k, get_of_mem hinv.keyed hentry⟩

theorem inv_transitionAll (hinv : Inv times s) {removed : Bool}
    (halone : ∀ row ∈ s.own removed, Alone s removed row) :
    Inv times (s.transitionAll removed) :=
  inv_transitions hinv (fun _ => get_of_own hinv) halone

/-- The store and the memory after a save, before the row is changed. -/
def settled (s : State) (save : Save) (rest : List Save) : State :=
  (({ s with saves := rest } : State).written save).remembered save

theorem settled_eq (s : State) (save : Save) (rest : List Save) : settled s save rest =
    { s with
      saves := rest
      store := savedAck s.store (save.item.ack save.removed)
      acks := if s.acksHostId = some save.item.hostId then
          fill s.acks [save.item.ack save.removed]
        else s.acks } := by
  rw [settled, State.remembered]
  split
  · next h => rw [if_pos (show s.acksHostId = _ from h)]; rfl
  · next h => rw [if_neg (show ¬s.acksHostId = _ from h)]; rfl

theorem stored_settled (s : State) (save : Save) (h p : Text) :
    stored (savedAck s.store (save.item.ack save.removed)) h p =
      if h = save.item.hostId ∧ p = save.item.paneId then some (save.item.ack save.removed)
      else stored s.store h p :=
  stored_savedAck s.store _ h p

theorem inv_settled (hinv : Inv times s) {save : Save} {rest : List Save}
    (hsaves : s.saves = save :: rest) (hclear : Clear s (.saved true)) :
    Inv times (settled s save rest) := by
  have hmem : save ∈ s.saves := hsaves ▸ List.mem_cons_self
  have hrest : ∀ save' ∈ rest, save' ∈ s.saves := fun save' h =>
    hsaves ▸ List.mem_cons_of_mem _ h
  have horder := hinv.order
  rw [hsaves, List.pairwise_cons] at horder
  rw [settled_eq]
  exact { hinv with
    mirror := by
      intro hostId hhost
      have hmirror := hinv.mirror hostId hhost
      change s.acksHostId = some hostId at hhost
      have hacks : ∀ p, (if s.acksHostId = some save.item.hostId then
            fill s.acks [save.item.ack save.removed]
          else s.acks) p =
          if hostId = save.item.hostId ∧ p = save.item.paneId then
            some (save.item.ack save.removed)
          else s.acks p := by
        intro p
        rw [hhost]
        by_cases heq : hostId = save.item.hostId
        · rw [if_pos (congrArg some heq)]
          exact if_congr (and_iff_right heq).symm rfl rfl
        · rw [if_neg fun h => heq (Option.some.inj h), if_neg fun h => heq h.1]
      rw [Mirrors] at hmirror ⊢
      simp only [hacks, stored_settled]
      cases hloading : s.loading with
      | idle | ready =>
        rw [hloading] at hmirror
        intro p
        rw [hmirror p]
      | reading =>
        rw [hloading] at hmirror
        intro p
        split
        · exact .inr rfl
        · exact hmirror p
      | captured list =>
        rw [hloading] at hmirror
        intro p
        split
        · next hpane =>
          refine ⟨?_, .inr rfl⟩
          rw [hpane.2]
          apply hclear rfl save (by rw [hsaves]; rfl) list (by rw [hloading]; rfl)
          rw [hhost, hpane.1]
        · exact hmirror p
    store := by
      intro ack hack
      obtain hold | hnew := List.mem_append.mp hack
      · exact hinv.store ack (List.mem_of_mem_filter hold)
      · exact ⟨save.item, hinv.saved save hmem, save.removed, List.mem_singleton.mp hnew⟩
    saved := fun save' h => hinv.saved save' (hrest save' h)
    kept := by
      intro a ha hl
      obtain ⟨removed, hstored, hr⟩ := hinv.kept a ha hl
      show ∃ removed, stored (savedAck _ _) _ _ = _ ∧ _
      rw [stored_settled]
      split
      · next hpane =>
        obtain rfl := hinv.behind a removed hl hstored save hmem hpane
        exact ⟨save.removed, rfl, fun h => hinv.removals save hmem h hl⟩
      · exact ⟨removed, hstored, hr⟩
    behind := by
      intro a removed hl hstored save' hsave' hpane
      change stored (savedAck _ _) _ _ = _ at hstored
      rw [stored_settled] at hstored
      split at hstored
      · obtain ⟨rfl, -⟩ := ack_inj (Option.some.inj hstored)
        exact (horder.1 save' hsave' hl hpane).1
      · exact hinv.behind a removed hl hstored save' (hrest save' hsave') hpane
    removals := fun save' h => hinv.removals save' (hrest save' h)
    order := horder.2
    finds := fun save' h hl => (hinv.finds save' (hrest save' h) hl).of_get rfl fun _ h => h
    objects := by
      intro save' h object hobject
      obtain ⟨hlt, hrows, hkinds⟩ := hinv.objects save' (hrest save' h) object hobject
      exact ⟨hlt, hrows, fun other hother => hkinds other (hrest other hother)⟩ }

/-- A save of an older change finds no row. -/
theorem applyTransition_old (hinv : Inv times s) {save : Save} (hsave : save ∈ s.saves)
    (hold : ¬Latest s.reported save.item) (rest : List Save) :
    (settled s save rest).applyTransition save = settled s save rest := by
  rw [settled_eq, State.applyTransition]
  split
  · rfl
  · next row hrow =>
    change get s.log _ = _ at hrow
    split
    · next hobject =>
      obtain ⟨-, hrows, -⟩ := hinv.objects save hsave row.object hobject
      exact absurd (hrows _ _ hrow rfl ▸ (hinv.own _ _ hrow).2.2) hold
    · rfl

theorem settled_fields (s : State) (save : Save) (rest : List Save) :
    (settled s save rest).log = s.log ∧ (settled s save rest).objects = s.objects ∧
      (settled s save rest).saves = rest ∧ (settled s save rest).reported = s.reported ∧
      (settled s save rest).acknowledged = s.acknowledged ∧
      (settled s save rest).removed = s.removed := by
  rw [settled_eq]
  exact ⟨rfl, rfl, rfl, rfl, rfl, rfl⟩

theorem stored_of_settled (s : State) (save : Save) (rest : List Save) :
    stored (settled s save rest).store save.item.hostId save.item.paneId =
      some (save.item.ack save.removed) := by
  rw [settled_eq, stored_settled, if_pos ⟨rfl, rfl⟩]

/-- A mark leaves its row read. -/
theorem inv_marked (hinv : Inv times s) {save : Save} {rest : List Save}
    (hsaves : s.saves = save :: rest) (hsettled : Inv times (settled s save rest))
    (hmark : save.removed = false) (hl : Latest s.reported save.item) :
    Inv times ((settled s save rest).applyTransition save) ∧
      ∀ row, get ((settled s save rest).applyTransition save).log save.item.key = some row →
        row.seen = true := by
  obtain ⟨hlog, -, hrest, hreported, hack, hremoved⟩ := settled_fields s save rest
  have hmem : save ∈ s.saves := hsaves ▸ List.mem_cons_self
  have hfinds := hinv.finds save hmem hl
  rw [Finds, if_neg (by simp [hmark])] at hfinds
  obtain ⟨row, hrow, hfound⟩ := hfinds
  have hitem := item_of_get hinv hl hrow
  rw [State.applyTransition, hlog, hrow]
  simp only [hmark, Bool.false_eq_true, if_false]
  by_cases hobject : save.object = some row.object
  · rw [if_pos hobject]
    refine ⟨inv_putItem hsettled (hreported ▸ hl) (fun _ => rfl) ?_ ?_, ?_⟩
    · rw [hremoved, ← hitem]
      exact hinv.gone _ _ hrow
    · intro save' hsave' hsame
      rw [hrest] at hsave'
      have hmem' : save' ∈ s.saves := hsaves ▸ List.mem_cons_of_mem _ hsave'
      refine ⟨?_, rfl⟩
      cases hr : save'.removed with
      | false => rfl
      | true =>
        have hobject' := pending_of_row hinv hrow hmem' (hsame.trans hitem.symm) hr
        have hkinds := (hinv.objects save hmem row.object hobject).2.2 save' hmem' hobject'
        exact hr.symm.trans (hkinds.trans hmark)
    · intro row' hrow'
      have hput : get ((settled s save rest).putItem save.item true).log save.item.key = _ :=
        get_put_self
      rw [hput] at hrow'
      rw [← Option.some.inj hrow']
  · rw [if_neg hobject]
    refine ⟨hsettled, fun row' hrow' => ?_⟩
    rw [hlog, hrow] at hrow'
    rw [← Option.some.inj hrow']
    exact hfound.resolve_right hobject

theorem applyTransition_eq (s : State) (save : Save) : ∃ log objects,
    s.applyTransition save = { s with log := log, objects := objects } := by
  rw [State.applyTransition]
  split
  · exact ⟨_, _, rfl⟩
  · split
    · split <;> exact ⟨_, _, rfl⟩
    · exact ⟨_, _, rfl⟩

theorem inv_acknowledge_mark (hinv : Inv times s) {save : Save} {rest : List Save}
    (hsaves : s.saves = save :: rest) (hclear : Clear s (.saved true))
    (hmark : save.removed = false) :
    Inv times { (settled s save rest).applyTransition save with
      acknowledged := save.item :: s.acknowledged } := by
  have hsettled := inv_settled hinv hsaves hclear
  have hmem : save ∈ s.saves := hsaves ▸ List.mem_cons_self
  obtain ⟨hlog, -, -, hreported, hack, hremoved⟩ := settled_fields s save rest
  obtain ⟨log, objects, heq⟩ := applyTransition_eq (settled s save rest) save
  have hnote : ∀ t : State, t = (settled s save rest).applyTransition save → Inv times t →
      (∀ k row, get t.log k = some row → row.item = save.item → row.seen = true) →
      Inv times { t with acknowledged := save.item :: s.acknowledged } := by
    rintro t rfl ht hrows
    have hsame : ((settled s save rest).applyTransition save).reported = s.reported ∧
        ((settled s save rest).applyTransition save).acknowledged = s.acknowledged ∧
        ((settled s save rest).applyTransition save).removed = s.removed ∧
        ((settled s save rest).applyTransition save).store = (settled s save rest).store := by
      rw [heq]
      exact ⟨hreported, hack, hremoved, rfl⟩
    rw [← hsame.2.1]
    apply inv_note ht
    · rw [hsame.1]
      exact hinv.saved save hmem
    · exact hrows
    · intro hl
      rw [hsame.1] at hl
      refine ⟨save.removed, ?_, fun h => ?_⟩
      · rw [hsame.2.2.2]
        exact stored_of_settled s save rest
      · rw [hsame.2.2.1] at h
        exact hinv.removals save hmem h hl
  by_cases hl : Latest s.reported save.item
  · obtain ⟨ht, hseen⟩ := inv_marked hinv hsaves hsettled hmark hl
    apply hnote _ rfl ht
    intro k row hrow hitem
    have hkey := (ht.own k row hrow).1
    rw [hitem] at hkey
    exact hseen row (hkey ▸ hrow)
  · apply hnote _ rfl
    · rw [applyTransition_old hinv hmem hl]
      exact hsettled
    · intro k row hrow hitem
      rw [applyTransition_old hinv hmem hl, hlog] at hrow
      exact absurd (hitem ▸ (hinv.own k row hrow).2.2) hl

theorem inv_acknowledge_removal (hinv : Inv times s) {save : Save} {rest : List Save}
    (hsaves : s.saves = save :: rest) (hclear : Clear s (.saved true))
    (hremoval : save.removed = true) :
    Inv times { (settled s save rest).applyTransition save with
      acknowledged := save.item :: s.acknowledged
      removed := save.item :: s.removed } := by
  have hsettled := inv_settled hinv hsaves hclear
  have hmem : save ∈ s.saves := hsaves ▸ List.mem_cons_self
  obtain ⟨hlog, -, hrest, hreported, hack, hremoved⟩ := settled_fields s save rest
  have horder := hinv.order
  rw [hsaves, List.pairwise_cons] at horder
  have hforget : ∀ log, Keyed log → (∀ k row, get log k = some row ↔
        get s.log k = some row ∧ row.item ≠ save.item) →
      Inv times { settled s save rest with
        log := log
        acknowledged := save.item :: s.acknowledged
        removed := save.item :: s.removed } := by
    intro log hkeyed hget
    rw [← hack, ← hremoved]
    apply inv_forget hsettled hkeyed
    · intro k row
      rw [hlog]
      exact hget k row
    · rw [hreported]
      exact hinv.saved save hmem
    · intro _
      rw [← hremoval]
      exact stored_of_settled s save rest
    · intro save' hsave' hl hsame
      rw [hrest] at hsave'
      rw [hreported] at hl
      exact (horder.1 save' hsave' hl (by rw [hsame]; exact ⟨rfl, rfl⟩)).2 hremoval
  -- A row that is not about this change stays.
  have hstays : (settled s save rest).applyTransition save = settled s save rest →
      (∀ k row, get s.log k = some row → row.item ≠ save.item) →
      Inv times { (settled s save rest).applyTransition save with
        acknowledged := save.item :: s.acknowledged
        removed := save.item :: s.removed } := by
    intro hsame hne
    have hkept := hforget s.log hinv.keyed fun k row =>
      ⟨fun h => ⟨h, hne k row h⟩, fun h => h.1⟩
    rw [hsame]
    rw [← hlog] at hkept
    exact hkept
  by_cases hl : Latest s.reported save.item
  · have hfinds := hinv.finds save hmem hl
    rw [Finds, if_pos hremoval] at hfinds
    obtain hgone | ⟨row, hrow, hobject⟩ := hfinds
    · have hnone : get s.log save.item.key = none := by
        cases hrow : get s.log save.item.key with
        | none => rfl
        | some row =>
          exact absurd (item_of_get hinv hl hrow ▸ hgone) (hinv.gone _ _ hrow)
      apply hstays
      · rw [State.applyTransition, hlog, hnone]
      · intro k row hrow hitem
        have hkey := (hinv.own k row hrow).1
        rw [hkey, hitem, hnone] at hrow
        cases hrow
    · have hforgotten := hforget (LinkedMap.remove s.log save.item.key)
        (keyed_remove hinv.keyed) (get_remove_iff hinv hl)
      rw [State.applyTransition, hlog, hrow]
      simp only [hobject, hremoval, if_true]
      rw [State.removeItem, hlog]
      exact hforgotten
  · apply hstays (applyTransition_old hinv hmem hl rest)
    intro k row hrow hitem
    exact hl (hitem ▸ (hinv.own k row hrow).2.2)

theorem inv_acknowledge (hinv : Inv times s) {save : Save} {rest : List Save}
    (hsaves : s.saves = save :: rest) (hclear : Clear s (.saved true)) :
    Inv times (({ s with saves := rest } : State).acknowledge save) := by
  obtain ⟨log, objects, heq⟩ := applyTransition_eq (settled s save rest) save
  change Inv times { (settled s save rest).applyTransition save with
    acknowledged := save.item :: s.acknowledged
    removed := if save.removed = true then save.item :: s.removed else s.removed }
  cases hremoved : save.removed with
  | false =>
    have hmark := inv_acknowledge_mark hinv hsaves hclear hremoved
    rw [heq, settled_eq] at hmark ⊢
    exact hmark
  | true => exact inv_acknowledge_removal hinv hsaves hclear hremoved

/-- The store alone survives, with what has happened. -/
theorem inv_restarted (hinv : Inv times s) : Inv times s.restarted where
  keyed := List.nodup_nil
  own := nofun
  distinct := nofun
  seen := nofun
  gone := nofun
  current := nofun
  queue := nofun
  head := fun h => absurd rfl h
  mirror := nofun
  plain := hinv.plain
  store := hinv.store
  saved := nofun
  acknowledged := hinv.acknowledged
  removed := hinv.removed
  ordered := hinv.ordered
  kept := hinv.kept
  behind := fun _ _ _ _ _ h => nomatch h
  removals := nofun
  order := List.Pairwise.nil
  finds := nofun
  objects := nofun

/-- Of a save that was written but did not return, the store alone is left. -/
theorem inv_restarted_written (hinv : Inv times s) {save : Save} {rest : List Save}
    (hsaves : s.saves = save :: rest) : Inv times (s.written save).restarted := by
  have hquiet : Inv times { s with loading := .idle, acksHostId := none } := { hinv with
    head := fun h => absurd rfl h
    mirror := nofun
    finds := fun save hsave hl => (hinv.finds save hsave hl).of_get rfl fun _ h => h }
  have hsettled := inv_settled hquiet hsaves fun _ _ _ _ _ h => nomatch h
  have hrestarted := inv_restarted hsettled
  rw [settled_eq] at hrestarted
  exact hrestarted

theorem inv_step {e : Event} (hinv : Inv times s) (hsuccessive : Successive times s e)
    (hclear : Clear s e) (hs : step times s e = some t) : Inv times t := by
  cases e with
  | arrive message =>
    have harrive : Inv times { s with queue := s.queue ++ [message] } := { hinv with
      queue := by
        intro m hm
        obtain hold | hnew := List.mem_append.mp hm
        · exact hinv.queue m hold
        · rw [List.mem_singleton.mp hnew]
          exact hclear
      head := by
        intro hloading
        obtain ⟨m, hm, hrest⟩ := hinv.head hloading
        refine ⟨m, ?_, hrest⟩
        rw [List.head?_append, Option.mem_def.mp hm]
        rfl
      finds := fun save hsave hl => (hinv.finds save hsave hl).of_get rfl fun _ h => h }
    cases message with
    | agentStatus status =>
      cases hs
      exact harrive
    | treeSnapshot hostId agents =>
      simp only [step] at hs
      split at hs
      · cases hs
        exact harrive
      · cases hs
  | begin => exact inv_begin hinv hs
  | read =>
    simp only [step] at hs
    split at hs
    · next hloading hhost =>
      cases hs
      exact inv_read hinv hloading hhost
    · cases hs
  | loaded ok =>
    obtain rfl : ok = true := hclear
    simp only [step] at hs
    split at hs
    · next hloading =>
      cases hs
      exact inv_loaded hinv hloading
    · cases hs
  | apply =>
    simp only [step] at hs
    split at hs
    · next message rest hloading hqueue =>
      cases hs
      have hhead : s.queue.head? = some message := by
        rw [hqueue]
        rfl
      exact inv_apply hinv hloading hqueue (hsuccessive message hhead)
        fun status hstatus save hsave heq => hclear message hhead save hsave (hstatus ▸ heq ▸ rfl)
    · cases hs
  | markSeen paneId =>
    cases hs
    exact inv_markSeen hinv hclear
  | markAllSeen =>
    cases hs
    exact inv_transitionAll hinv hclear
  | remove paneId =>
    cases hs
    exact inv_remove hinv hclear
  | removeAll =>
    cases hs
    exact inv_transitionAll hinv hclear
  | saved ok =>
    simp only [step] at hs
    split at hs
    · next save rest hsaves =>
      cases hs
      cases ok with
      | true => exact inv_acknowledge hinv hsaves hclear
      | false =>
        have hrest : ∀ save' ∈ rest, save' ∈ s.saves := fun save' h =>
          hsaves ▸ List.mem_cons_of_mem _ h
        have horder := hinv.order
        rw [hsaves, List.pairwise_cons] at horder
        exact { hinv with
          saved := fun save' h => hinv.saved save' (hrest save' h)
          behind := fun a removed hl hstored save' h =>
            hinv.behind a removed hl hstored save' (hrest save' h)
          removals := fun save' h => hinv.removals save' (hrest save' h)
          order := horder.2
          finds := fun save' h hl =>
            (hinv.finds save' (hrest save' h) hl).of_get rfl fun _ h => h
          objects := by
            intro save' h object hobject
            obtain ⟨hlt, hrows, hkinds⟩ := hinv.objects save' (hrest save' h) object hobject
            exact ⟨hlt, hrows, fun other hother => hkinds other (hrest other hother)⟩ }
    · cases hs
  | switchTo hostId =>
    cases hs
    exact { hinv with
      current := hclear
      finds := fun save hsave hl => (hinv.finds save hsave hl).of_get rfl fun _ h => h }
  | relaunch written =>
    simp only [step] at hs
    split at hs
    · next save rest hsaves =>
      cases hs
      exact inv_restarted_written hinv hsaves
    · cases hs
      exact inv_restarted hinv

/-- One change: its alert is not of an acknowledged change, its row is unread if it is new, and the
rows of other computers stay. -/
structure Applied (s t : State) (item : AttentionItem) : Prop where
  reported : t.reported = item :: s.reported
  unread : item ∉ s.reported → ∃ row, get t.log item.key = some row ∧ row.item = item ∧
    row.seen = false
  others : ∀ k row, row.item.hostId ≠ item.hostId →
    (get s.log k = some row ↔ get t.log k = some row)

theorem others_put (hinv : Inv times s) (hplain : Plain item.hostId) (new : NotificationItem)
    (hnew : new.item = item) (k : Text) (row : NotificationItem)
    (hne : row.item.hostId ≠ item.hostId) :
    get s.log k = some row ↔ get (put s.log item.key new) k = some row := by
  rw [get_put]
  by_cases hk : k = item.key
  · rw [if_pos hk]
    constructor
    · intro hrow
      obtain ⟨hkey, -, hl⟩ := hinv.own k row hrow
      have hpane := samePane_of_key (hinv.plain _ hl.mem) hplain (hkey.symm.trans hk)
      exact absurd hpane.1 hne
    · intro hrow
      exact absurd (by rw [← Option.some.inj hrow, hnew]) hne
  · rw [if_neg hk]

theorem newer_of_fits {reported : List AttentionItem} (h : Fits times reported item)
    (hnot : item ∉ reported) : Newer times reported item :=
  h.resolve_left fun hl => hnot hl.mem

theorem applied_agent (hinv : Inv times s) (hplain : Plain item.hostId)
    (hacks : s.acksHostId = some item.hostId)
    (hready : s.loading = .idle ∨ s.loading = .ready) (hfits : Fits times s.reported item) :
    Applied s ((s.report item).onAgent times item) item := by
  have hput := others_put hinv hplain
  rw [onAgent_report]
  constructor
  · split
    · rfl
    · split
      · rfl
      · split <;> rfl
  · intro hnot
    have hnew := newer_of_fits hfits hnot
    rw [if_neg (not_keeps_of_newer hinv hplain hnew), ackFor_of_newer hinv hacks hready hnew]
    exact ⟨_, get_put_self, rfl, rfl⟩
  · split
    · exact fun _ _ _ => Iff.rfl
    · split
      · exact hput ⟨item, false, s.objects⟩ rfl
      · split
        · exact fun _ _ _ => Iff.rfl
        · exact hput ⟨item, true, s.objects⟩ rfl

structure Ready (s : State) (items : List AttentionItem) : Prop where
  plain : ∀ item ∈ items, Plain item.hostId
  acks : ∀ item ∈ items, s.acksHostId = some item.hostId
  ready : s.loading = .idle ∨ s.loading = .ready

/-- The first change of a snapshot, and what is left of it. -/
theorem Ready.first {rest : List AttentionItem} (h : Ready s (item :: rest)) (hinv : Inv times s)
    (hfits : FitsAll times s.reported (item :: rest)) :
    Applied s ((s.report item).onAgent times item) item ∧
      Inv times ((s.report item).onAgent times item) ∧
      Ready ((s.report item).onAgent times item) rest ∧
      ((s.report item).onAgent times item).posted = s.posted := by
  obtain ⟨hplain, hplains⟩ := List.forall_mem_cons.mp h.plain
  obtain ⟨hack, hacks⟩ := List.forall_mem_cons.mp h.acks
  refine ⟨applied_agent hinv hplain hack h.ready hfits.1,
    inv_agent hinv hplain hack h.ready hfits.1, ?_⟩
  obtain ⟨log, objects, heq⟩ := (@onAgent_eq times) (s.report item) item
  rw [heq]
  exact ⟨⟨hplains, hacks, h.ready⟩, rfl⟩

/-- A row of an acknowledged change is read, and where a change was removed a row is of a later
one. -/
structure Kept (times : Times) (s : State) : Prop where
  read : ∀ k row, get s.log k = some row → row.item ∈ s.acknowledged → row.seen = true
  absent : ∀ k row r, get s.log k = some row → r ∈ s.removed → SamePane row.item r →
    compareAt times row.item.at r.at = .gt

theorem quiet_transitions (removed : Bool) (rows : List NotificationItem) :
    (rows.foldl (fun s row => State.enqueue s ⟨row.item, removed, some row.object⟩) s).posted =
        s.posted ∧
      (rows.foldl (fun s row => State.enqueue s ⟨row.item, removed, some row.object⟩)
        s).reported = s.reported := by
  induction rows generalizing s with
  | nil => exact ⟨rfl, rfl⟩
  | cons row rest ih => exact ih

/-- The steps that apply no message post and report nothing. -/
theorem quiet_step {e : Event} (he : e ≠ .apply) (hs : step times s e = some t) :
    t.posted = s.posted ∧ t.reported = s.reported := by
  cases e with
  | arrive message =>
    cases message with
    | agentStatus status =>
      cases hs
      exact ⟨rfl, rfl⟩
    | treeSnapshot hostId agents =>
      simp only [step] at hs
      split at hs
      · cases hs
        exact ⟨rfl, rfl⟩
      · cases hs
  | begin =>
    simp only [step, State.begin] at hs
    split at hs
    · split at hs
      · cases hs
        exact ⟨rfl, rfl⟩
      · split at hs <;> cases hs <;> exact ⟨rfl, rfl⟩
    · cases hs
  | read | loaded ok =>
    simp only [step] at hs
    split at hs
    · cases hs
      exact ⟨rfl, rfl⟩
    · cases hs
  | apply => exact absurd rfl he
  | markSeen paneId =>
    cases hs
    rw [State.markSeen]
    split
    · exact ⟨rfl, rfl⟩
    · split <;> exact ⟨rfl, rfl⟩
  | markAllSeen =>
    cases hs
    exact quiet_transitions false _
  | remove paneId =>
    cases hs
    rw [State.remove]
    split <;> exact ⟨rfl, rfl⟩
  | removeAll =>
    cases hs
    exact quiet_transitions true _
  | saved ok =>
    simp only [step] at hs
    split at hs
    · next save rest hsaves =>
      cases hs
      cases ok with
      | false => exact ⟨rfl, rfl⟩
      | true =>
        obtain ⟨log, objects, heq⟩ := applyTransition_eq (settled s save rest) save
        change ((settled s save rest).applyTransition save).posted = _ ∧
          ((settled s save rest).applyTransition save).reported = _
        rw [heq, settled_eq]
        exact ⟨rfl, rfl⟩
    · cases hs
  | switchTo hostId =>
    cases hs
    exact ⟨rfl, rfl⟩
  | relaunch written =>
    simp only [step] at hs
    split at hs <;> cases hs <;> exact ⟨rfl, rfl⟩

/-- Texts by their characters, and no dates. -/
def plainTimes : Times where
  tryParse _ := none
  compareTo a b := compare (a.map Char.toNat) (b.map Char.toNat)
  compareTo_self _ := Std.ReflCmp.compare_self

def blocked : AttentionItem := ⟨"host".toList, "w1:p1".toList, .blocked, some "1".toList⟩

def later : AttentionItem := ⟨"host".toList, "w1:p1".toList, .blocked, some "2".toList⟩

end HerdrMobile.App.AckRuns
