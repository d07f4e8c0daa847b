import Mathlib.Algebra.Order.BigOperators.Group.List
import Mathlib.Algebra.Order.Group.Nat
import Mathlib.Algebra.Ring.Nat
import HerdrMobile.App.PlainStore

/-!
# The plain store is serialisable

Whatever the order in which calls and the answers of the preferences come, both lists are what
the successful calls make of them in the order of the calls, as long as every stored string is a
record or no JSON, a failed write leaves the list, and a removal completes before anything else
is acknowledged for its computer.
-/
namespace HerdrMobile.App.PlainStoreRuns

open HerdrMobile.Lib HerdrMobile.Lib.Run HerdrMobile.Lib.Strings HerdrMobile.Lib.Serial
open HerdrMobile.App.PlainStore

set_option autoImplicit false

variable {Time F : Type} (times : DateTimes Time)

/-- What a call that returned Ok makes of the paired computers. -/
def okHosts (entry : Call Time × Progress) :
    Option (List (PairedHostRecord Time) → List (PairedHostRecord Time)) :=
  if entry.2 = .returned true then entry.1.onHosts else none

/-- What a call that returned Ok makes of the acknowledgements. -/
def okAcks (entry : Call Time × Progress) : Option (List NotificationAck → List NotificationAck) :=
  if entry.2 = .returned true then entry.1.onAcks else none

def Quiet (s : Store Time F) : Prop := ∀ entry ∈ s.calls, ∃ ok, entry.2 = .returned ok

def isCall : Event Time → Bool
  | .call _ => true
  | _ => false

/-- What is still to do, counted in steps. -/
def weight : Progress → Nat
  | .queued => 6
  | .between => 4
  | .secondQueued => 3
  | _ => 0

def work (s : Store Time F) : Nat :=
  (s.calls.map fun entry => weight entry.2).sum + if s.writing.isNone then 1 else 0

/-- The lists are those of the calls that returned Ok, in the order of the calls; no call throws,
nothing blocks the queue, and every call returns after so many steps. -/
structure Serialised (contents : Contents F) (s : Store Time F) : Prop where
  hosts : Quiet s → (hostCodec times).readList s.contents.hosts =
    ((hostCodec times).readList contents.hosts).map (applied (s.calls.map okHosts))
  acks : Quiet s → ackCodec.readList s.contents.acks =
    (ackCodec.readList contents.acks).map (applied (s.calls.map okAcks))
  answered : ∀ entry ∈ s.calls, entry.2 ≠ .threw
  alive : s.poisoned = false
  moves : ¬Quiet s → ∃ e t, isCall e = false ∧ step times s e = some t
  shrinks : ∀ e t, isCall e = false → step times s e = some t → work t < work s

def secondAtHead (s : Store Time F) : Bool := s.queue.head?.any fun entry => entry.2

/-- A call made later has acknowledged a notification of the computer that the mutation at the
head of the queue forgets. -/
def forgetsLater (s : Store Time F) : Bool :=
  match s.queue with
  | (i, true) :: _ =>
    match s.calls[i]? with
    | some (.removePairedHost hostId, _) => (s.calls.drop (i + 1)).any fun entry =>
      match entry with
      | (.saveNotificationAck ack, .returned true) => ack.hostId = hostId
      | _ => false
    | _ => false
  | _ => false

/-- No mutation reads a string that throws an error, no write that fails is done all the same, and
the second mutation of a removal does not fail and forgets nothing acknowledged later. -/
def harmless (s : Store Time F) : Event Time → Bool
  | .read =>
    s.head.all fun mutation =>
      match mutation.rewritten times s.contents with
      | .ok _ => true
      | .exception => !secondAtHead s
      | .error => false
  | .readFails => !secondAtHead s
  | .write => !forgetsLater s
  | .writeFails done => !done && !secondAtHead s
  | _ => true

theorem Decoded.map_eq_ok {α β : Type} {f : α → β} {d : Decoded α} {b : β} (h : d.map f = .ok b) :
    ∃ a, d = .ok a ∧ f a = b := by
  cases d with
  | ok a =>
    cases h
    exact ⟨a, rfl, rfl⟩
  | _ => cases h

/-- A change of a list that is what the calls make of it. -/
theorem written_list {α : Type} {codec : Codec F α} {raw raw₀ : List (Stored F)} {list : List α}
    {changes : List (Option (List α → List α))} {i : Nat} {f : List α → List α}
    (heq : codec.readList raw = (codec.readList raw₀).map (applied changes))
    (hread : codec.readList raw = .ok list) (hi : changes[i]? = some none)
    (hlater : ∀ j g, i < j → changes[j]? = some (some g) → ∀ x, g (f x) = f (g x)) :
    codec.readList (codec.writeList (f list)) =
      (codec.readList raw₀).map (applied (changes.set i (some f))) := by
  obtain ⟨list₀, h₀, hlist⟩ := Decoded.map_eq_ok (heq.symm.trans hread)
  rw [readList_writeList, h₀]
  show _ = Decoded.ok (applied (changes.set i (some f)) list₀)
  rw [applied_set hi hlater, hlist]

theorem map_set_same {α β : Type} {f : α → β} {l : List α} {i : Nat} {a b : α}
    (hi : l[i]? = some a) (h : f b = f a) : (l.set i b).map f = l.map f := by
  rw [List.map_set, h]
  apply List.ext_getElem?
  intro j
  by_cases hj : i = j
  · subst hj
    have hlt : i < (l.map f).length := by
      rw [List.length_map]
      exact (List.getElem?_eq_some_iff.mp hi).1
    rw [List.getElem?_set_self hlt, List.getElem?_map, hi]
    rfl
  · rw [List.getElem?_set_ne hj]

/-- Forgetting a computer commutes with what else happens to the acknowledgements. -/
theorem withoutAcks_comm {call : Call Time} {g : List NotificationAck → List NotificationAck}
    {hostId : Text} (hg : call.onAcks = some g)
    (hother : ∀ ack, call = .saveNotificationAck ack → ack.hostId ≠ hostId)
    (acks : List NotificationAck) :
    g (withoutAcks acks hostId) = withoutAcks (g acks) hostId := by
  cases call with
  | removePairedHost other =>
    cases hg
    simp only [withoutAcks, List.filter_filter, Bool.and_comm]
  | saveNotificationAck ack =>
    cases hg
    have hne : ack.hostId ≠ hostId := hother ack rfl
    simp only [withoutAcks, savedAck, List.filter_append, List.filter_filter, Bool.and_comm]
    rw [List.filter_cons_of_pos (by simpa using hne)]
    rfl
  | _ => cases hg

/-- The calls that wait for their first mutation are the last ones, in their order; those that
wait for the second are removals. -/
structure Lined (calls : List (Call Time × Progress)) (queue : List (Nat × Bool)) : Prop where
  firsts : ∀ i : Nat, (i, false) ∈ queue ↔ ∃ call, calls[i]? = some (call, .queued)
  seconds : ∀ i : Nat, (i, true) ∈ queue ↔ ∃ call, calls[i]? = some (call, .secondQueued)
  nodup : queue.Nodup
  sorted : queue.Pairwise fun a b => a.2 = false → b.2 = false → a.1 < b.1
  last : ∀ (i j : Nat) (call : Call Time) (entry : Call Time × Progress), i < j →
    calls[i]? = some (call, .queued) → calls[j]? = some entry → entry.2 = .queued
  removes : ∀ (i : Nat) (call : Call Time) (progress : Progress),
    calls[i]? = some (call, progress) → progress = .between ∨ progress = .secondQueued → ∃ hostId, call = .removePairedHost hostId

variable {calls : List (Call Time × Progress)} {queue : List (Nat × Bool)}

theorem lined_nil : Lined ([] : List (Call Time × Progress)) [] := by
  constructor
  · intro i
    simp
  · intro i
    simp
  · exact List.nodup_nil
  · exact List.Pairwise.nil
  · intro i j call entry hij hi
    cases hi
  · intro i call progress hi
    cases hi

theorem Lined.lt {i : Nat} {second : Bool} (h : Lined calls queue) (hm : (i, second) ∈ queue) :
    i < calls.length := by
  cases second with
  | false =>
    obtain ⟨call, hi⟩ := (h.firsts i).mp hm
    exact (List.getElem?_eq_some_iff.mp hi).1
  | true =>
    obtain ⟨call, hi⟩ := (h.seconds i).mp hm
    exact (List.getElem?_eq_some_iff.mp hi).1

theorem Lined.enqueue (h : Lined calls queue) (call : Call Time) :
    Lined (calls ++ [(call, .queued)]) (queue ++ [(calls.length, false)]) := by
  have hnew : ∀ second, (calls.length, second) ∉ queue := fun second hm =>
    absurd (h.lt hm) (Nat.lt_irrefl _)
  have hlook : ∀ {i : Nat} {entry : Call Time × Progress},
      (calls ++ [(call, .queued)])[i]? = some entry →
        calls[i]? = some entry ∨ (i = calls.length ∧ entry = (call, .queued)) := by
    intro i entry hi
    rw [List.getElem?_append] at hi
    split at hi
    · exact .inl hi
    · rename_i hge
      obtain ⟨hlt, _⟩ := List.getElem?_eq_some_iff.mp hi
      have hlen : i - calls.length < 1 := hlt
      have hi' : i = calls.length := by omega
      subst hi'
      rw [Nat.sub_self] at hi
      cases hi
      exact .inr ⟨rfl, rfl⟩
  have hold : ∀ {i : Nat} {entry : Call Time × Progress}, calls[i]? = some entry →
      (calls ++ [(call, .queued)])[i]? = some entry := by
    intro i entry hi
    rw [List.getElem?_append_left (List.getElem?_eq_some_iff.mp hi).1]
    exact hi
  constructor
  · intro i
    rw [List.mem_append, List.mem_singleton, h.firsts]
    constructor
    · rintro (⟨c, hc⟩ | heq)
      · exact ⟨c, hold hc⟩
      · cases heq
        exact ⟨call, by simp⟩
    · rintro ⟨c, hc⟩
      obtain hc | ⟨rfl, _⟩ := hlook hc
      · exact .inl ⟨c, hc⟩
      · exact .inr rfl
  · intro i
    rw [List.mem_append, List.mem_singleton, h.seconds]
    constructor
    · rintro (⟨c, hc⟩ | heq)
      · exact ⟨c, hold hc⟩
      · cases heq
    · rintro ⟨c, hc⟩
      obtain hc | ⟨rfl, heq⟩ := hlook hc
      · exact .inl ⟨c, hc⟩
      · cases heq
  · rw [List.nodup_append]
    refine ⟨h.nodup, by simp, ?_⟩
    rintro ⟨i, second⟩ hm b hb rfl
    cases List.mem_singleton.mp hb
    exact hnew false hm
  · rw [List.pairwise_append]
    refine ⟨h.sorted, List.pairwise_singleton _ _, ?_⟩
    rintro ⟨i, second⟩ hm b hb - -
    cases List.mem_singleton.mp hb
    exact h.lt hm
  · intro i j c entry hij hi hj
    obtain hj | ⟨rfl, rfl⟩ := hlook hj
    · obtain hi | ⟨rfl, _⟩ := hlook hi
      · exact h.last i j c entry hij hi hj
      · have hlt := (List.getElem?_eq_some_iff.mp hj).1
        omega
    · rfl
  · intro i c progress hi hp
    obtain hi | ⟨_, heq⟩ := hlook hi
    · exact h.removes i c progress hi hp
    · cases heq
      obtain hp | hp := hp <;> cases hp

/-- The entry of the call at the head of the queue. -/
theorem Lined.head {i : Nat} {second : Bool} (h : Lined calls ((i, second) :: queue)) :
    ∃ call, calls[i]? = some (call, if second then .secondQueued else .queued) ∧
      (second = true → ∃ hostId, call = .removePairedHost hostId) := by
  cases second with
  | false =>
    obtain ⟨call, hi⟩ := (h.firsts i).mp List.mem_cons_self
    exact ⟨call, hi, nofun⟩
  | true =>
    obtain ⟨call, hi⟩ := (h.seconds i).mp List.mem_cons_self
    exact ⟨call, hi, fun _ => h.removes i call _ hi (.inr rfl)⟩

theorem getElem?_set_cases {α : Type} {l : List α} {i j : Nat} {a b : α}
    (h : (l.set i a)[j]? = some b) : (j = i ∧ b = a) ∨ (j ≠ i ∧ l[j]? = some b) := by
  by_cases hj : i = j
  · subst hj
    have hlt : i < l.length := by
      have hlt := (List.getElem?_eq_some_iff.mp h).1
      rwa [List.length_set] at hlt
    rw [List.getElem?_set_self hlt] at h
    cases h
    exact .inl ⟨rfl, rfl⟩
  · rw [List.getElem?_set_ne hj] at h
    exact .inr ⟨Ne.symm hj, h⟩

/-- The mutation at the head is over, and its call waits for nothing in the queue. -/
theorem Lined.finish {i : Nat} {second : Bool} (h : Lined calls ((i, second) :: queue))
    {call : Call Time} {before after : Progress} (hi : calls[i]? = some (call, before))
    (hqueued : after ≠ .queued) (hsecond : after ≠ .secondQueued)
    (hbetween : after = .between → ∃ hostId, call = .removePairedHost hostId) :
    Lined (calls.set i (call, after)) queue := by
  have hnodup := List.nodup_cons.mp h.nodup
  have hsorted := List.pairwise_cons.mp h.sorted
  obtain ⟨headCall, hhead, _⟩ := h.head
  cases hi.symm.trans hhead
  have hset : ∀ {j : Nat} {entry : Call Time × Progress}, j ≠ i → calls[j]? = some entry →
      (calls.set i (call, after))[j]? = some entry := by
    intro j entry hne hj
    rw [List.getElem?_set_ne (Ne.symm hne)]
    exact hj
  -- what else waits in the queue belongs to another call
  have hother : ∀ {j : Nat} {other : Bool}, (j, other) ∈ queue → j ≠ i := by
    rintro j other hm rfl
    have hmem : (j, other) ∈ (j, second) :: queue := List.mem_cons_of_mem _ hm
    cases second <;> cases other
    · exact hnodup.1 hm
    · obtain ⟨c, hc⟩ := (h.seconds j).mp hmem
      cases hhead.symm.trans hc
    · obtain ⟨c, hc⟩ := (h.firsts j).mp hmem
      cases hhead.symm.trans hc
    · exact hnodup.1 hm
  constructor
  · intro j
    constructor
    · intro hm
      obtain ⟨c, hc⟩ := (h.firsts j).mp (List.mem_cons_of_mem _ hm)
      exact ⟨c, hset (hother hm) hc⟩
    · rintro ⟨c, hc⟩
      obtain ⟨rfl, heq⟩ | ⟨hne, hc⟩ := getElem?_set_cases hc
      · cases heq
        exact absurd rfl hqueued
      · have hm := (h.firsts j).mpr ⟨c, hc⟩
        obtain heq | hm := List.mem_cons.mp hm
        · cases heq
          exact absurd rfl hne
        · exact hm
  · intro j
    constructor
    · intro hm
      obtain ⟨c, hc⟩ := (h.seconds j).mp (List.mem_cons_of_mem _ hm)
      exact ⟨c, hset (hother hm) hc⟩
    · rintro ⟨c, hc⟩
      obtain ⟨rfl, heq⟩ | ⟨hne, hc⟩ := getElem?_set_cases hc
      · cases heq
        exact absurd rfl hsecond
      · have hm := (h.seconds j).mpr ⟨c, hc⟩
        obtain heq | hm := List.mem_cons.mp hm
        · cases heq
          exact absurd rfl hne
        · exact hm
  · exact hnodup.2
  · exact hsorted.2
  · intro j k c entry hjk hj hk
    obtain ⟨_, heq⟩ | ⟨hne, hwait⟩ := getElem?_set_cases hj
    · cases heq
      exact absurd rfl hqueued
    · obtain ⟨rfl, rfl⟩ | ⟨_, hk⟩ := getElem?_set_cases hk
      · -- a call before the one at the head does not wait for its first mutation
        have hm := (h.firsts j).mpr ⟨c, hwait⟩
        obtain heq | htail := List.mem_cons.mp hm
        · cases heq
          exact absurd rfl hne
        · cases second with
          | false =>
            have hlt := hsorted.1 (j, false) htail rfl rfl
            dsimp only at hlt
            omega
          | true =>
            have hq := h.last j k c _ hjk hwait hhead
            cases hq
      · exact h.last j k c entry hjk hwait hk
  · intro j c progress hj hp
    obtain ⟨_, heq⟩ | ⟨_, hj⟩ := getElem?_set_cases hj
    · cases heq
      obtain hp | hp := hp
      · exact hbetween hp
      · exact absurd hp hsecond
    · exact h.removes j c progress hj hp

theorem Lined.resume {i : Nat} (h : Lined calls queue) {call : Call Time}
    (hi : calls[i]? = some (call, .between)) :
    Lined (calls.set i (call, .secondQueued)) (queue ++ [(i, true)]) := by
  have hlt := (List.getElem?_eq_some_iff.mp hi).1
  have hset : ∀ {j : Nat} {entry : Call Time × Progress}, j ≠ i → calls[j]? = some entry →
      (calls.set i (call, .secondQueued))[j]? = some entry := by
    intro j entry hne hj
    rw [List.getElem?_set_ne (Ne.symm hne)]
    exact hj
  have hnot : (i, true) ∉ queue := by
    intro hm
    obtain ⟨c, hc⟩ := (h.seconds i).mp hm
    cases hi.symm.trans hc
  constructor
  · intro j
    rw [List.mem_append, List.mem_singleton, h.firsts]
    constructor
    · rintro (⟨c, hc⟩ | heq)
      · refine ⟨c, hset ?_ hc⟩
        rintro rfl
        cases hi.symm.trans hc
      · cases heq
    · rintro ⟨c, hc⟩
      obtain ⟨_, heq⟩ | ⟨_, hc⟩ := getElem?_set_cases hc
      · cases heq
      · exact .inl ⟨c, hc⟩
  · intro j
    rw [List.mem_append, List.mem_singleton, h.seconds]
    constructor
    · rintro (⟨c, hc⟩ | heq)
      · refine ⟨c, hset ?_ hc⟩
        rintro rfl
        cases hi.symm.trans hc
      · cases heq
        exact ⟨call, List.getElem?_set_self hlt⟩
    · rintro ⟨c, hc⟩
      obtain ⟨rfl, _⟩ | ⟨_, hc⟩ := getElem?_set_cases hc
      · exact .inr rfl
      · exact .inl ⟨c, hc⟩
  · rw [List.nodup_append]
    refine ⟨h.nodup, by simp, ?_⟩
    rintro entry hm b hb rfl
    cases List.mem_singleton.mp hb
    exact hnot hm
  · rw [List.pairwise_append]
    refine ⟨h.sorted, List.pairwise_singleton _ _, ?_⟩
    rintro a hm b hb - hfalse
    cases List.mem_singleton.mp hb
    cases hfalse
  · intro j k c entry hjk hj hk
    obtain ⟨_, heq⟩ | ⟨_, hwait⟩ := getElem?_set_cases hj
    · cases heq
    · obtain ⟨rfl, rfl⟩ | ⟨_, hk⟩ := getElem?_set_cases hk
      · have hq := h.last j k c _ hjk hwait hi
        cases hq
      · exact h.last j k c entry hjk hwait hk
  · intro j c progress hj hp
    obtain ⟨rfl, heq⟩ | ⟨_, hj⟩ := getElem?_set_cases hj
    · cases heq
      exact h.removes j call _ hi (.inl rfl)
    · exact h.removes j c progress hj hp

/-- What a call has made of the paired computers so far. -/
def hostsChange (entry : Call Time × Progress) :
    Option (List (PairedHostRecord Time) → List (PairedHostRecord Time)) :=
  match entry.2 with
  | .returned true | .between | .secondQueued => entry.1.onHosts
  | _ => none

structure Inv (contents : Contents F) (s : Store Time F) : Prop where
  alive : s.poisoned = false
  answered : ∀ entry ∈ s.calls, entry.2 ≠ .threw
  lined : Lined s.calls s.queue
  writing : ∀ written, s.writing = some written →
    ∃ mutation, s.head = some mutation ∧ mutation.rewritten times s.contents = .ok written
  hosts : (hostCodec times).readList s.contents.hosts =
    ((hostCodec times).readList contents.hosts).map (applied (s.calls.map hostsChange))
  acks : ackCodec.readList s.contents.acks =
    (ackCodec.readList contents.acks).map (applied (s.calls.map okAcks))

variable {times} {contents : Contents F} {s t : Store Time F}

theorem map_applied_nil {α : Type} (d : Decoded (List α)) : d = d.map (applied []) := by
  cases d <;> rfl

theorem inv_start : Inv times contents (start contents) := by
  refine ⟨rfl, nofun, lined_nil, nofun, ?_, ?_⟩
  · exact map_applied_nil _
  · exact map_applied_nil _

/-- The call at the head of the queue, and its mutation. -/
theorem head_of_queue (hinv : Inv times contents s) {i : Nat} {second : Bool}
    {queue : List (Nat × Bool)} (hq : s.queue = (i, second) :: queue) :
    ∃ call mutation, s.calls[i]? = some (call, if second then .secondQueued else .queued) ∧
      mutationOf call second = some mutation ∧ s.head = some mutation ∧
      (second = true → ∃ hostId, call = .removePairedHost hostId) := by
  have hlined := hinv.lined
  rw [hq] at hlined
  obtain ⟨call, hi, hremove⟩ := hlined.head
  have hhead : s.head = mutationOf call second := by
    rw [Store.head, hq]
    show (s.calls[i]?.bind fun entry => mutationOf entry.1 second) = mutationOf call second
    rw [hi]
    rfl
  cases second with
  | false => exact ⟨call, call.first, hi, rfl, hhead, hremove⟩
  | true =>
    obtain ⟨hostId, rfl⟩ := hremove rfl
    exact ⟨_, _, hi, rfl, hhead, hremove⟩

theorem queue_of_head {mutation : Mutation Time} (h : s.head = some mutation) :
    ∃ i second queue, s.queue = (i, second) :: queue := by
  cases hq : s.queue with
  | nil =>
    rw [Store.head, hq] at h
    cases h
  | cons entry queue => exact ⟨entry.1, entry.2, queue, rfl⟩

theorem finish_eq {i : Nat} {second ok : Bool} {queue : List (Nat × Bool)} {call : Call Time}
    {progress : Progress} (hq : s.queue = (i, second) :: queue)
    (hi : s.calls[i]? = some (call, progress)) :
    s.finish ok = { s with
      calls := s.calls.set i (call, progressAfter call second ok), queue, writing := none } := by
  simp only [Store.finish, hq, hi]

theorem progressAfter_false (call : Call Time) (second : Bool) :
    progressAfter call second false = .returned false := by
  rw [progressAfter, Bool.false_and, Bool.false_and]
  rfl

theorem progressAfter_waits (call : Call Time) (second ok : Bool) :
    progressAfter call second ok ≠ .queued ∧ progressAfter call second ok ≠ .secondQueued ∧
      progressAfter call second ok ≠ .threw ∧
      (progressAfter call second ok = .between → ∃ hostId, call = .removePairedHost hostId) := by
  rw [progressAfter]
  split
  · rename_i h
    refine ⟨nofun, nofun, nofun, fun _ => ?_⟩
    simp only [Bool.and_eq_true] at h
    cases call with
    | removePairedHost hostId => exact ⟨hostId, rfl⟩
    | _ => cases h.2
  · exact ⟨nofun, nofun, nofun, nofun⟩

/-- The parts of the invariant that are not about the lists, once the mutation at the head is
over. -/
theorem finish_rest (hinv : Inv times contents s) {i : Nat} {second : Bool}
    {queue : List (Nat × Bool)} (hq : s.queue = (i, second) :: queue) {call : Call Time}
    {progress : Progress} (hi : s.calls[i]? = some (call, progress)) (ok : Bool) :
    (s.finish ok).poisoned = false ∧ (∀ entry ∈ (s.finish ok).calls, entry.2 ≠ .threw) ∧
      Lined (s.finish ok).calls (s.finish ok).queue ∧ (s.finish ok).writing = none := by
  obtain ⟨hqueued, hsecond, hthrew, hbetween⟩ := progressAfter_waits call second ok
  rw [finish_eq hq hi]
  refine ⟨hinv.alive, ?_, ?_, rfl⟩
  · intro entry he
    obtain he | rfl := List.mem_or_eq_of_mem_set he
    · exact hinv.answered entry he
    · exact hthrew
  · have hlined := hinv.lined
    rw [hq] at hlined
    exact hlined.finish hi hqueued hsecond hbetween

/-- A first mutation that fails changes nothing. -/
theorem inv_finish_false (hinv : Inv times contents s) {mutation : Mutation Time}
    (hhead : s.head = some mutation) (hfirst : secondAtHead s = false) :
    Inv times contents (s.finish false) := by
  obtain ⟨i, second, queue, hq⟩ := queue_of_head hhead
  have hsecond : second = false := by
    rw [secondAtHead, hq] at hfirst
    exact hfirst
  subst hsecond
  obtain ⟨call, _, hi, _, _, _⟩ := head_of_queue hinv hq
  obtain ⟨halive, hanswered, hlined, hwriting⟩ := finish_rest hinv hq hi false
  refine ⟨halive, hanswered, hlined, ?_, ?_, ?_⟩
  · rw [hwriting]
    nofun
  · rw [finish_eq hq hi, progressAfter_false]
    have hsame : (s.calls.set i (call, .returned false)).map hostsChange =
        s.calls.map hostsChange := map_set_same hi rfl
    show (hostCodec times).readList s.contents.hosts =
      Decoded.map (applied ((s.calls.set i (call, .returned false)).map hostsChange)) _
    rw [hsame]
    exact hinv.hosts
  · rw [finish_eq hq hi, progressAfter_false]
    have hsame : (s.calls.set i (call, .returned false)).map okAcks = s.calls.map okAcks :=
      map_set_same hi rfl
    show ackCodec.readList s.contents.acks =
      Decoded.map (applied ((s.calls.set i (call, .returned false)).map okAcks)) _
    rw [hsame]
    exact hinv.acks

theorem rewritten_hosts {change : List (PairedHostRecord Time) → List (PairedHostRecord Time)}
    {written : Written F} (h : (Mutation.hosts change).rewritten times contents = .ok written) :
    ∃ hosts, (hostCodec times).readList contents.hosts = .ok hosts ∧
      written = .hosts ((hostCodec times).writeList (change hosts)) := by
  obtain ⟨hosts, hread, heq⟩ := Decoded.map_eq_ok h
  exact ⟨hosts, hread, heq.symm⟩

theorem rewritten_acks {change : List NotificationAck → List NotificationAck}
    {written : Written F}
    (h : (Mutation.acks change : Mutation Time).rewritten times contents = .ok written) :
    ∃ acks, ackCodec.readList contents.acks = .ok acks ∧
      written = .acks (ackCodec.writeList (change acks)) := by
  obtain ⟨acks, hread, heq⟩ := Decoded.map_eq_ok h
  exact ⟨acks, hread, heq.symm⟩

/-- Behind a call that waits for its first mutation nothing has changed the lists yet. -/
theorem later_waits (hinv : Inv times contents s) {i : Nat} {call : Call Time}
    (hi : s.calls[i]? = some (call, .queued)) {β : Type}
    {effect : Call Time × Progress → Option β} (heffect : ∀ call, effect (call, .queued) = none)
    {j : Nat} {g : β} (hij : i < j) (hj : (s.calls.map effect)[j]? = some (some g)) : False := by
  rw [List.getElem?_map] at hj
  obtain ⟨⟨later, progress⟩, hentry, hg⟩ := Option.map_eq_some_iff.mp hj
  have hq := hinv.lined.last i j call _ hij hi hentry
  dsimp only at hq
  subst hq
  rw [heffect] at hg
  cases hg

theorem getElem?_map_none {α β : Type} {l : List α} {f : α → Option β} {i : Nat} {a : α}
    (hi : l[i]? = some a) (hf : f a = none) : (l.map f)[i]? = some none := by
  rw [List.getElem?_map, hi, Option.map_some, hf]

/-- The write of a first mutation of the paired computers. -/
theorem inv_write_hosts (hinv : Inv times contents s) {i : Nat} {queue : List (Nat × Bool)}
    (hq : s.queue = (i, false) :: queue) {call : Call Time}
    (hi : s.calls[i]? = some (call, .queued))
    {change : List (PairedHostRecord Time) → List (PairedHostRecord Time)}
    (hfirst : call.first = .hosts change) {written : Written F}
    (hw : call.first.rewritten times s.contents = .ok written) :
    Inv times contents { s.finish true with contents := s.contents.put written } := by
  rw [hfirst] at hw
  obtain ⟨hosts, hread, rfl⟩ := rewritten_hosts hw
  obtain ⟨halive, hanswered, hlined, hwriting⟩ := finish_rest hinv hq hi true
  have hon : call.onHosts = some change := by
    cases call <;> cases hfirst <;> rfl
  have hafter : hostsChange (call, progressAfter call false true) = some change := by
    cases call <;> cases hfirst <;> rfl
  have hacks : okAcks (call, progressAfter call false true) = none := by
    cases call <;> cases hfirst <;> rfl
  refine ⟨halive, hanswered, hlined, ?_, ?_, ?_⟩
  · rw [hwriting]
    nofun
  · rw [finish_eq hq hi]
    show (hostCodec times).readList ((hostCodec times).writeList (change hosts)) =
      Decoded.map (applied ((s.calls.set i (call, progressAfter call false true)).map
        hostsChange)) _
    rw [List.map_set, hafter]
    apply written_list hinv.hosts hread (getElem?_map_none hi rfl)
    intro j g hij hj
    exact (later_waits hinv hi (fun _ => rfl) hij hj).elim
  · rw [finish_eq hq hi]
    have hsame : (s.calls.set i (call, progressAfter call false true)).map okAcks =
        s.calls.map okAcks := map_set_same hi hacks
    show ackCodec.readList s.contents.acks =
      Decoded.map (applied ((s.calls.set i (call, progressAfter call false true)).map okAcks)) _
    rw [hsame]
    exact hinv.acks

/-- The write of a mutation of the acknowledgements, the only one of its call or the second. -/
theorem inv_write_acks (hinv : Inv times contents s) {i : Nat} {second : Bool}
    {queue : List (Nat × Bool)} (hq : s.queue = (i, second) :: queue) {call : Call Time}
    (hi : s.calls[i]? = some (call, if second then .secondQueued else .queued))
    {change : List NotificationAck → List NotificationAck}
    (hmutation : mutationOf call second = some (.acks change)) {written : Written F}
    (hw : (Mutation.acks change : Mutation Time).rewritten times s.contents = .ok written)
    (hforgets : forgetsLater s = false) :
    Inv times contents { s.finish true with contents := s.contents.put written } := by
  obtain ⟨acks, hread, rfl⟩ := rewritten_acks hw
  obtain ⟨halive, hanswered, hlined, hwriting⟩ := finish_rest hinv hq hi true
  have hon : call.onAcks = some change := by
    cases second <;> cases call <;> cases hmutation <;> rfl
  have hafter : progressAfter call second true = .returned true := by
    cases second <;> cases call <;> cases hmutation <;> rfl
  have hhosts : hostsChange (call, progressAfter call second true) =
      hostsChange (call, if second then .secondQueued else .queued) := by
    cases second <;> cases call <;> cases hmutation <;> rfl
  have hbefore : okAcks (call, if second then .secondQueued else .queued) = none := by
    cases second <;> rfl
  refine ⟨halive, hanswered, hlined, ?_, ?_, ?_⟩
  · rw [hwriting]
    nofun
  · rw [finish_eq hq hi]
    have hsame : (s.calls.set i (call, progressAfter call second true)).map hostsChange =
        s.calls.map hostsChange := map_set_same hi hhosts
    show (hostCodec times).readList s.contents.hosts =
      Decoded.map (applied ((s.calls.set i (call, progressAfter call second true)).map
        hostsChange)) _
    rw [hsame]
    exact hinv.hosts
  · rw [finish_eq hq hi]
    show ackCodec.readList (ackCodec.writeList (change acks)) =
      Decoded.map (applied ((s.calls.set i (call, progressAfter call second true)).map okAcks)) _
    rw [List.map_set, hafter]
    have hok : okAcks (call, Progress.returned true) = some change := hon
    rw [hok]
    apply written_list hinv.acks hread (getElem?_map_none hi hbefore)
    intro j g hij hj acks
    cases second with
    | false => exact (later_waits hinv hi (fun _ => rfl) hij hj).elim
    | true =>
      cases call with
      | removePairedHost hostId =>
        cases hmutation
        rw [List.getElem?_map] at hj
        obtain ⟨⟨later, progress⟩, hentry, hg⟩ := Option.map_eq_some_iff.mp hj
        simp only [okAcks] at hg
        split at hg
        · rename_i hreturned
          apply withoutAcks_comm hg
          rintro ack rfl hsame
          have hmem : (Call.saveNotificationAck ack, progress) ∈ s.calls.drop (i + 1) := by
            apply List.mem_of_getElem? (i := j - (i + 1))
            rw [List.getElem?_drop, Nat.add_sub_cancel' hij]
            exact hentry
          have hfound : forgetsLater s = true := by
            simp only [forgetsLater, hq, hi, if_true]
            apply List.any_eq_true.mpr
            refine ⟨_, hmem, ?_⟩
            rw [hreturned]
            exact decide_eq_true hsame
          rw [hforgets] at hfound
          cases hfound
        · cases hg
      | _ => cases hmutation

theorem inv_call (hinv : Inv times contents s) {call : Call Time}
    (hs : step times s (.call call) = some t) : Inv times contents t := by
  simp only [step, hinv.alive] at hs
  cases hs
  have happ : ∀ {α : Type} (changes : List (Option (List α → List α))) (d : Decoded (List α)),
      d.map (applied (changes ++ [none])) = d.map (applied changes) := by
    intro α changes d
    cases d with
    | ok list =>
      show Decoded.ok _ = Decoded.ok _
      rw [applied_append]
      rfl
    | _ => rfl
  refine ⟨rfl, ?_, hinv.lined.enqueue call, ?_, ?_, ?_⟩
  · intro entry he
    obtain he | he := List.mem_append.mp he
    · exact hinv.answered entry he
    · cases List.mem_singleton.mp he
      nofun
  · intro written hw
    obtain ⟨mutation, hhead, hrewritten⟩ := hinv.writing written hw
    refine ⟨mutation, ?_, hrewritten⟩
    obtain ⟨i, second, queue, hq⟩ := queue_of_head hhead
    obtain ⟨headCall, _, hi, _, _, _⟩ := head_of_queue hinv hq
    have hlt := (List.getElem?_eq_some_iff.mp hi).1
    rw [← hhead]
    simp only [Store.head, hq, List.cons_append, List.head?_cons, Option.bind_some]
    rw [List.getElem?_append_left hlt]
  · show (hostCodec times).readList s.contents.hosts =
      Decoded.map (applied ((s.calls ++ [(call, Progress.queued)]).map hostsChange)) _
    rw [List.map_append, List.map_singleton]
    exact hinv.hosts.trans (happ _ _).symm
  · show ackCodec.readList s.contents.acks =
      Decoded.map (applied ((s.calls ++ [(call, Progress.queued)]).map okAcks)) _
    rw [List.map_append, List.map_singleton]
    exact hinv.acks.trans (happ _ _).symm

theorem inv_resume (hinv : Inv times contents s) {i : Nat}
    (hs : step times s (.resume i) = some t) : Inv times contents t := by
  simp only [step] at hs
  split at hs
  · rename_i call hi
    simp only [hinv.alive] at hs
    cases hs
    refine ⟨rfl, ?_, hinv.lined.resume hi, ?_, ?_, ?_⟩
    · intro entry he
      obtain he | rfl := List.mem_or_eq_of_mem_set he
      · exact hinv.answered entry he
      · nofun
    · intro written hw
      obtain ⟨mutation, hhead, hrewritten⟩ := hinv.writing written hw
      refine ⟨mutation, ?_, hrewritten⟩
      obtain ⟨k, second, queue, hq⟩ := queue_of_head hhead
      obtain ⟨headCall, _, hk, _, _, _⟩ := head_of_queue hinv hq
      have hne : i ≠ k := by
        rintro rfl
        cases second <;> cases hi.symm.trans hk
      rw [← hhead]
      simp only [Store.head, hq, List.cons_append, List.head?_cons, Option.bind_some]
      rw [List.getElem?_set_ne hne]
    · have hsame : (s.calls.set i (call, .secondQueued)).map hostsChange =
          s.calls.map hostsChange := map_set_same hi rfl
      show (hostCodec times).readList s.contents.hosts =
        Decoded.map (applied ((s.calls.set i (call, .secondQueued)).map hostsChange)) _
      rw [hsame]
      exact hinv.hosts
    · have hsame : (s.calls.set i (call, .secondQueued)).map okAcks = s.calls.map okAcks :=
        map_set_same hi rfl
      show ackCodec.readList s.contents.acks =
        Decoded.map (applied ((s.calls.set i (call, .secondQueued)).map okAcks)) _
      rw [hsame]
      exact hinv.acks
  · cases hs

theorem inv_step (hinv : Inv times contents s) {e : Event Time} (he : harmless times s e = true)
    (hs : step times s e = some t) : Inv times contents t := by
  cases e with
  | call call => exact inv_call hinv hs
  | resume i => exact inv_resume hinv hs
  | readFails =>
    simp only [step] at hs
    split at hs
    · rename_i mutation hhead hwriting
      cases hs
      exact inv_finish_false hinv hhead (by simpa [harmless] using he)
    · cases hs
  | read =>
    simp only [step] at hs
    split at hs
    · rename_i mutation hhead hwriting
      simp only [harmless, hhead, Option.all_some] at he
      split at hs
      · rename_i written hrewritten
        cases hs
        refine ⟨hinv.alive, hinv.answered, hinv.lined, ?_, hinv.hosts, hinv.acks⟩
        intro w hw
        cases hw
        exact ⟨mutation, hhead, hrewritten⟩
      · rename_i hrewritten
        cases hs
        rw [hrewritten] at he
        exact inv_finish_false hinv hhead (by simpa using he)
      · rename_i hrewritten
        rw [hrewritten] at he
        cases he
    · cases hs
  | write =>
    simp only [step] at hs
    split at hs
    · rename_i written hwriting
      cases hs
      obtain ⟨mutation, hhead, hrewritten⟩ := hinv.writing written hwriting
      obtain ⟨i, second, queue, hq⟩ := queue_of_head hhead
      obtain ⟨call, found, hi, hmutation, hfound, hremove⟩ := head_of_queue hinv hq
      cases hhead.symm.trans hfound
      have hforgets : forgetsLater s = false := by simpa [harmless] using he
      cases mutation with
      | hosts change =>
        have hsecond : second = false := by
          cases second with
          | false => rfl
          | true =>
            obtain ⟨hostId, rfl⟩ := hremove rfl
            cases hmutation
        subst hsecond
        have hfirst : call.first = .hosts change := Option.some.inj hmutation
        rw [← hfirst] at hrewritten
        exact inv_write_hosts hinv hq hi hfirst hrewritten
      | acks change => exact inv_write_acks hinv hq hi hmutation hrewritten hforgets
    · cases hs
  | writeFails done =>
    simp only [step] at hs
    split at hs
    · rename_i written hwriting
      cases hs
      simp only [harmless, Bool.and_eq_true, Bool.not_eq_true'] at he
      obtain ⟨mutation, hhead, _⟩ := hinv.writing written hwriting
      rw [he.1]
      have hfinish := inv_finish_false hinv hhead he.2
      have hkeeps : (s.finish false).contents = s.contents := by
        obtain ⟨i, second, queue, hq⟩ := queue_of_head hhead
        obtain ⟨call, _, hi, _, _, _⟩ := head_of_queue hinv hq
        rw [finish_eq hq hi]
      have hsame : ({ s.finish false with contents := s.contents } : Store Time F) =
          s.finish false := by
        rw [← hkeeps]
      show Inv times contents { s.finish false with contents := s.contents }
      rw [hsame]
      exact hfinish
    · cases hs

theorem sum_set {α : Type} {l : List α} {i : Nat} {a b : α} (w : α → Nat) (hi : l[i]? = some a) :
    ((l.set i b).map w).sum + w a = (l.map w).sum + w b := by
  induction l generalizing i with
  | nil => cases hi
  | cons x l ih =>
    cases i with
    | zero =>
      cases hi
      simp only [List.set_cons_zero, List.map_cons, List.sum_cons]
      omega
    | succ i =>
      have htail := ih hi
      simp only [List.set_cons_succ, List.map_cons, List.sum_cons]
      omega

theorem weight_progressAfter (call : Call Time) (second ok : Bool) :
    weight (progressAfter call second ok) + 2 ≤
      weight (if second then .secondQueued else .queued) := by
  rw [progressAfter]
  cases second with
  | false =>
    split
    · decide
    · cases ok <;> decide
  | true =>
    rw [Bool.not_true, Bool.and_false, Bool.false_and]
    cases ok <;> decide

theorem work_finish (hinv : Inv times contents s) {mutation : Mutation Time}
    (hhead : s.head = some mutation) (ok : Bool) : work (s.finish ok) < work s := by
  obtain ⟨i, second, queue, hq⟩ := queue_of_head hhead
  obtain ⟨call, _, hi, _, _, _⟩ := head_of_queue hinv hq
  have hsum := sum_set (b := (call, progressAfter call second ok))
    (fun entry : Call Time × Progress => weight entry.2) hi
  have hweight := weight_progressAfter call second ok
  rw [finish_eq hq hi]
  dsimp only [work] at hsum ⊢
  rw [Option.isNone_none, if_pos rfl]
  omega

theorem work_poison (hinv : Inv times contents s) {mutation : Mutation Time}
    (hhead : s.head = some mutation) (hwriting : s.writing = none) : work s.poison < work s := by
  obtain ⟨i, second, queue, hq⟩ := queue_of_head hhead
  obtain ⟨call, _, hi, _, _, _⟩ := head_of_queue hinv hq
  have hlt : ((s.calls.map fun entry => weight (if entry.2 = .queued ∨ entry.2 = .secondQueued
      then (entry.1, Progress.threw) else entry).2)).sum <
      (s.calls.map fun entry => weight entry.2).sum := by
    apply List.sum_lt_sum
    · intro entry _
      split
      · exact Nat.zero_le _
      · exact Nat.le_refl _
    · refine ⟨_, List.mem_of_getElem? hi, ?_⟩
      cases second with
      | false => exact Nat.succ_pos 5
      | true => exact Nat.succ_pos 2
  simp only [work, Store.poison, List.map_map, Function.comp_def, hwriting]
  exact Nat.add_lt_add_right hlt _

theorem work_step (hinv : Inv times contents s) {e : Event Time} (he : isCall e = false)
    (hs : step times s e = some t) : work t < work s := by
  cases e with
  | call call => cases he
  | readFails =>
    simp only [step] at hs
    split at hs
    · rename_i mutation hhead hwriting
      cases hs
      exact work_finish hinv hhead false
    · cases hs
  | read =>
    simp only [step] at hs
    split at hs
    · rename_i mutation hhead hwriting
      split at hs
      · cases hs
        simp only [work, hwriting, Option.isNone_some, Option.isNone_none]
        exact Nat.lt_succ_self _
      · cases hs
        exact work_finish hinv hhead false
      · cases hs
        exact work_poison hinv hhead hwriting
    · cases hs
  | write =>
    simp only [step] at hs
    split at hs
    · rename_i written hwriting
      cases hs
      obtain ⟨mutation, hhead, _⟩ := hinv.writing written hwriting
      exact work_finish hinv hhead true
    · cases hs
  | writeFails done =>
    simp only [step] at hs
    split at hs
    · rename_i written hwriting
      cases hs
      obtain ⟨mutation, hhead, _⟩ := hinv.writing written hwriting
      exact work_finish hinv hhead false
    · cases hs
  | resume i =>
    simp only [step] at hs
    split at hs
    · rename_i call hi
      simp only [hinv.alive] at hs
      cases hs
      have hsum := sum_set (b := (call, Progress.secondQueued))
        (fun entry : Call Time × Progress => weight entry.2) hi
      dsimp only [work, weight] at hsum ⊢
      omega
    · cases hs

/-- A call that has not returned waits for an answer or for its turn to go on. -/
theorem moves_of_inv (hinv : Inv times contents s) (hquiet : ¬Quiet s) :
    ∃ e t, isCall e = false ∧ step times s e = some t := by
  have hanswer : ∀ {i : Nat} {second : Bool}, (i, second) ∈ s.queue →
      ∃ e t, isCall e = false ∧ step times s e = some t := by
    intro i second hm
    obtain ⟨⟨k, other⟩, queue, hq⟩ := List.exists_cons_of_ne_nil (List.ne_nil_of_mem hm)
    obtain ⟨_, mutation, _, _, hhead, _⟩ := head_of_queue hinv hq
    cases hwriting : s.writing with
    | none =>
      refine ⟨.readFails, s.finish false, rfl, ?_⟩
      simp only [step, hhead, hwriting]
    | some written =>
      refine ⟨.write, { s.finish true with contents := s.contents.put written }, rfl, ?_⟩
      simp only [step, hwriting]
  simp only [Quiet, not_forall] at hquiet
  obtain ⟨⟨call, progress⟩, hm, hnot⟩ := hquiet
  obtain ⟨i, hi⟩ := List.mem_iff_getElem?.mp hm
  cases progress with
  | queued => exact hanswer ((hinv.lined.firsts i).mpr ⟨call, hi⟩)
  | secondQueued => exact hanswer ((hinv.lined.seconds i).mpr ⟨call, hi⟩)
  | between =>
    refine ⟨.resume i, { s with
      calls := s.calls.set i (call, .secondQueued), queue := s.queue ++ [(i, true)] }, rfl, ?_⟩
    simp only [step, hi, hinv.alive]
    rfl
  | returned ok => exact absurd ⟨ok, rfl⟩ hnot
  | threw => exact absurd rfl (hinv.answered _ hm)

theorem serialised_of_inv (hinv : Inv times contents s) : Serialised times contents s := by
  have hquiet : Quiet s → s.calls.map hostsChange = s.calls.map okHosts := by
    intro hq
    apply List.map_congr_left
    intro entry he
    obtain ⟨ok, hok⟩ := hq entry he
    rw [hostsChange, okHosts, hok]
    cases ok <;> rfl
  constructor
  · intro hq
    rw [← hquiet hq]
    exact hinv.hosts
  · intro _
    exact hinv.acks
  · exact hinv.answered
  · exact hinv.alive
  · exact moves_of_inv hinv
  · intro e t he hs
    exact work_step hinv he hs

/-- In a run whose steps are harmless the store is serialisable at every moment. -/
theorem store_serialised {es : List (Event Time)}
    (hgood : ∀ s e t, Occurs (step times) (start contents) es s e t → harmless times s e = true)
    (hv : Visits (step times) (start contents) es s) : Serialised times contents s := by
  apply serialised_of_inv
  apply visits_invariant (Inv times contents) inv_start _ hv
  intro s e t hi ho
  exact inv_step hi (hgood s e t ho) ho.step_eq

/-- Times are texts here. -/
def textTimes : DateTimes Text where
  toIso8601String := id
  parse := some
  parse_iso _ := rfl

def home : PairedHostRecord Text :=
  { hostId := "home".toList, hostName := "Home".toList, lastSeen := none }

def homeAck : NotificationAck :=
  { hostId := "home".toList, paneId := "p1".toList, status := "done".toList, «at» := none,
    removed := false }

/-- Two changes of one computer queue behind each other, and a removal fails to read its list. -/
def inOrder : List (Event Text) :=
  [.call (.savePairedHost home), .call (.updateHostName "home".toList "Desk".toList), .read, .write,
    .call (.saveNotificationAck homeAck), .read, .write, .read, .write,
    .call (.removePairedHost "home".toList), .readFails]

theorem store_serialised_in_order :
    ∃ s : Store Text Empty,
      run (step textTimes) (start { hosts := [], acks := [] }) inOrder = some s ∧ Quiet s ∧
      Serialised textTimes { hosts := [], acks := [] } s := by
  have hall : everyStep (step textTimes) (harmless textTimes)
      (start ({ hosts := [], acks := [] } : Contents Empty)) inOrder = true := by rfl
  obtain ⟨s, hr, hcalls⟩ : ∃ s : Store Text Empty,
      run (step textTimes) (start { hosts := [], acks := [] }) inOrder = some s ∧
        s.calls.map Prod.snd =
          [.returned true, .returned true, .returned true, .returned false] :=
    ⟨_, rfl, rfl⟩
  have hquiet : Quiet s := by
    intro entry he
    have hm := List.mem_map_of_mem (f := Prod.snd) he
    rw [hcalls] at hm
    simp only [List.mem_cons, List.not_mem_nil, or_false] at hm
    obtain hm | hm | hm | hm := hm <;> exact ⟨_, hm⟩
  have hgood : ∀ s e t, Occurs (step textTimes)
      (start ({ hosts := [], acks := [] } : Contents Empty)) inOrder s e t →
        harmless textTimes s e = true := fun _ _ _ ho => occurs_good hall ho
  exact ⟨s, hr, hquiet, store_serialised hgood (visits_end hr)⟩

/-- A stored computer that is a JSON number, and a call of each kind. -/
def poisoned : List (Event Text) :=
  [.call (.updateLastSeen "home".toList "now".toList), .read,
    .call (.saveNotificationAck homeAck)]

theorem number_poisons :
    ∃ s : Store Text Empty, run (step textTimes)
        (start { hosts := [some (.posInt 7)], acks := [] }) poisoned = some s ∧
      s.calls.map Prod.snd = [.threw, .threw] ∧
      ¬Serialised textTimes { hosts := [some (.posInt 7)], acks := [] } s := by
  refine ⟨_, rfl, rfl, fun h => ?_⟩
  exact absurd h.alive (by decide)

/-- A removal whose acknowledgements cannot be written has removed its computer. -/
example : ∃ s : Store Text Empty, run (step textTimes) (start { hosts := [], acks := [] })
    [.call (.savePairedHost home), .read, .write, .call (.removePairedHost "home".toList), .read,
      .write, .resume 1, .read, .writeFails false] = some s ∧
    s.calls.map Prod.snd = [.returned true, .returned false] ∧ s.contents.hosts = [] :=
  ⟨_, rfl, rfl, rfl⟩

/-- An acknowledgement saved right after a removal is called is forgotten by it. -/
example : ∃ s : Store Text Empty, run (step textTimes) (start { hosts := [], acks := [] })
    [.call (.removePairedHost "home".toList), .call (.saveNotificationAck homeAck), .read, .write,
      .resume 0, .read, .write, .read, .write] = some s ∧
    s.calls.map Prod.snd = [.returned true, .returned true] ∧ s.contents.acks = [] :=
  ⟨_, rfl, rfl, rfl⟩

end HerdrMobile.App.PlainStoreRuns
