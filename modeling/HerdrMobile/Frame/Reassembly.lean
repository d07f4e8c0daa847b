import HerdrMobile.Frame.Codec
import Mathlib.Data.List.Chain

/-!
# What the reassembler hands out

Any fragments at any times are fed to one reassembler. What it holds is described
by the arrivals since it last held nothing: the first fragments of one record, in
order, none later than the timeout after the one before it.
-/
namespace HerdrMobile.Frame.Reassembly

open HerdrMobile.Proto.Codes
open HerdrMobile.Frame.Codec

set_option autoImplicit false

/-- One call of `accept_fragment`. -/
structure Arrival where
  plaintext : Bytes
  now : Nat

variable {z : Flate} {r : Reassembler} {history earlier run : List Arrival} {a b : Arrival}
  {p : PartialRecord} {count : UInt8} {chunk env : Bytes} {chunks : List Bytes}

def accept (z : Flate) (r : Reassembler) (a : Arrival) :
    Except FrameCodecError (Option Bytes) × Reassembler :=
  r.acceptFragment z a.plaintext a.now

def received (z : Flate) (history : List Arrival) : Reassembler :=
  history.foldl (fun r a => (accept z r a).2) .new

def answer (z : Flate) (history : List Arrival) (a : Arrival) :
    Except FrameCodecError (Option Bytes) :=
  (accept z (received z history) a).1

theorem received_snoc : received z (history ++ [a]) = (accept z (received z history) a).2 := by
  unfold received
  rw [List.foldl_append]
  rfl

/-- What one call can do, and what it has checked by then. -/
inductive Accepted (z : Flate) (r : Reassembler) (a : Arrival) :
    Except FrameCodecError (Option Bytes) × Reassembler → Prop where
  | rejected (err : FrameCodecError) : Accepted z r a (.error err, .new)
  | whole (chunk env : Bytes) (hr : r.partialRecord = none) (ha : a.plaintext = fragment 1 0 chunk)
      (he : decodeRecord z chunk = .ok env) : Accepted z r a (.ok (some env), .new)
  | opened (q : PartialRecord) (hr : r.partialRecord = none)
      (ha : a.plaintext = fragment q.fragCount 0 q.buffer) (hn : q.nextIndex = 1)
      (ht : q.lastFragmentAt = a.now) : Accepted z r a (.ok none, ⟨some q⟩)
  | finished (p : PartialRecord) (chunk env : Bytes) (hr : r.partialRecord = some p)
      (ha : a.plaintext = p.nextIndex :: p.fragCount :: chunk)
      (ht : a.now ≤ p.lastFragmentAt + interFragmentTimeout)
      (hl : p.nextIndex = p.fragCount - 1)
      (he : decodeRecord z (p.buffer ++ chunk) = .ok env) : Accepted z r a (.ok (some env), .new)
  | continued (p q : PartialRecord) (chunk : Bytes) (hr : r.partialRecord = some p)
      (ha : a.plaintext = p.nextIndex :: p.fragCount :: chunk)
      (ht : a.now ≤ p.lastFragmentAt + interFragmentTimeout) (hc : q.fragCount = p.fragCount)
      (hn : q.nextIndex.toNat = p.nextIndex.toNat + 1) (hb : q.buffer = p.buffer ++ chunk)
      (hl : q.lastFragmentAt = a.now) : Accepted z r a (.ok none, ⟨some q⟩)

theorem next_toNat {i n : UInt8} (h : i < n) : (i + 1).toNat = i.toNat + 1 := by
  rw [UInt8.lt_iff_toNat_lt] at h
  have hn := n.toNat_lt
  have hone : (1 : UInt8).toNat = 1 := rfl
  rw [UInt8.toNat_add]
  omega

theorem acceptFirst_accepted {i n : UInt8} (hr : r.partialRecord = none)
    (ha : a.plaintext = i :: n :: chunk) :
    Accepted z r a (Reassembler.acceptFirst z i n chunk a.now) := by
  unfold Reassembler.acceptFirst
  by_cases hi : i ≠ 0
  · rw [if_pos hi]
    exact .rejected _
  · rw [if_neg hi]
    obtain rfl : i = 0 := not_not.mp hi
    split
    · exact .rejected _
    · split
      · exact .rejected _
      · split
        · next h1 =>
          subst h1
          cases he : decodeRecord z chunk with
          | error err => exact .rejected err
          | ok env => exact .whole chunk env hr ha he
        · exact .opened _ hr ha rfl rfl

theorem acceptNext_accepted {i n : UInt8} (hr : r.partialRecord = some p)
    (ha : a.plaintext = i :: n :: chunk)
    (ht : a.now ≤ p.lastFragmentAt + interFragmentTimeout) :
    Accepted z r a (Reassembler.acceptNext z p i n chunk a.now) := by
  unfold Reassembler.acceptNext
  split
  · exact .rejected _
  · next hc =>
    split
    · exact .rejected _
    · next hi =>
      rw [not_not] at hc hi
      subst hc hi
      dsimp only
      split
      · exact .rejected _
      · split
        · next hl =>
          cases he : decodeRecord z (p.buffer ++ chunk) with
          | error err => exact .rejected err
          | ok env => exact .finished p chunk env hr ha ht hl he
        · exact .continued p _ chunk hr ha ht rfl (next_toNat p.unfinished) rfl rfl

theorem accepted (z : Flate) (r : Reassembler) (a : Arrival) : Accepted z r a (accept z r a) := by
  unfold accept Reassembler.acceptFragment
  cases he : r.expired a.now with
  | true =>
    rw [if_pos rfl]
    exact .rejected _
  | false =>
    rw [if_neg (by decide)]
    split
    · next i n chunk ha =>
      split
      · next hr => exact acceptFirst_accepted hr ha
      · next p hr =>
        have ht : a.now ≤ p.lastFragmentAt + interFragmentTimeout := by
          have hle : ¬interFragmentTimeout < a.now - p.lastFragmentAt := by
            simpa [Reassembler.expired, hr] using he
          omega
        exact acceptNext_accepted hr ha ht
    · exact .rejected _

/-- The first `chunks.length` fragments of a record of `count`, each no later than the
timeout after the one before it. -/
structure Fragments (count : UInt8) (chunks : List Bytes) (run : List Arrival) : Prop where
  plaintexts : run.map Arrival.plaintext = chunks.mapIdx (fragment count)
  onTime : run.IsChain fun a b => b.now ≤ a.now + interFragmentTimeout

theorem fragments_first (ha : a.plaintext = fragment count 0 chunk) :
    Fragments count [chunk] [a] := by
  constructor
  · simp [ha]
  · exact List.isChain_singleton a

theorem Fragments.snoc (h : Fragments count chunks run) (hl : run.getLast? = some a)
    (hb : b.plaintext = fragment count chunks.length chunk)
    (ht : b.now ≤ a.now + interFragmentTimeout) :
    Fragments count (chunks ++ [chunk]) (run ++ [b]) := by
  constructor
  · rw [List.map_append, h.plaintexts, List.mapIdx_append]
    simp [hb]
  · apply List.IsChain.append h.onTime (List.isChain_singleton b)
    intro x hx y hy
    obtain rfl : a = x := by simpa [hl] using hx
    obtain rfl : b = y := by simpa using hy
    exact ht

/-- No arrival of `run` after `earlier` is answered with an error or an envelope. -/
def Quiet (z : Flate) (earlier run : List Arrival) : Prop :=
  ∀ pre b post, run = pre ++ b :: post → answer z (earlier ++ pre) b = .ok none

theorem quiet_nil : Quiet z earlier [] := by
  intro pre b post h
  simp at h

theorem Quiet.snoc (h : Quiet z earlier run) (ha : answer z (earlier ++ run) a = .ok none) :
    Quiet z earlier (run ++ [a]) := by
  intro pre b post he
  rcases List.eq_nil_or_concat post with rfl | ⟨post', c, rfl⟩
  · obtain ⟨rfl, hb⟩ := List.append_inj' he rfl
    obtain rfl : a = b := by simpa using hb
    exact ha
  · rw [List.concat_eq_append] at he
    have he' : run ++ [a] = (pre ++ b :: post') ++ [c] := by simpa using he
    obtain ⟨hr, -⟩ := List.append_inj' he' rfl
    exact h pre b post' hr

/-- The record `p` is made of the arrivals `run` that came after `earlier`. -/
structure Holds (z : Flate) (history : List Arrival) (p : PartialRecord)
    (earlier run : List Arrival) (chunks : List Bytes) : Prop where
  split : history = earlier ++ run
  idle : received z earlier = .new
  quiet : Quiet z earlier run
  fragments : Fragments p.fragCount chunks run
  reached : chunks.length = p.nextIndex.toNat
  buffer : p.buffer = chunks.flatten
  last : ∃ a, run.getLast? = some a ∧ a.now = p.lastFragmentAt

/-- `env` is the whole record that the last arrivals of `history` carry. -/
structure Carried (z : Flate) (history : List Arrival) (env : Bytes)
    (earlier run : List Arrival) (last : Arrival) (count : UInt8) (chunks : List Bytes) : Prop where
  split : history = earlier ++ (run ++ [last])
  idle : received z earlier = .new
  quiet : Quiet z earlier run
  fragments : Fragments count chunks (run ++ [last])
  whole : chunks.length = count.toNat
  least : 1 ≤ count.toNat
  most : count.toNat ≤ 40
  record : decodeRecord z chunks.flatten = .ok env

theorem fragment_index (h : chunks.length = p.nextIndex.toNat) :
    p.nextIndex :: p.fragCount :: chunk = fragment p.fragCount chunks.length chunk := by
  show _ = UInt8.ofNat chunks.length :: p.fragCount :: chunk
  rw [h, UInt8.ofNat_toNat]

theorem Holds.fragments_snoc (h : Holds z history p earlier run chunks)
    (ha : a.plaintext = p.nextIndex :: p.fragCount :: chunk)
    (ht : a.now ≤ p.lastFragmentAt + interFragmentTimeout) :
    Fragments p.fragCount (chunks ++ [chunk]) (run ++ [a]) := by
  obtain ⟨b, hb, hlast⟩ := h.last
  rw [← hlast] at ht
  exact h.fragments.snoc hb (ha.trans (fragment_index h.reached)) ht

theorem count_le_forty (h : count ≤ maxFragCount) : count.toNat ≤ 40 :=
  UInt8.le_iff_toNat_le.mp h

theorem partial_bounds (p : PartialRecord) : 1 ≤ p.nextIndex.toNat ∧
    p.nextIndex.toNat < p.fragCount.toNat ∧ p.fragCount.toNat ≤ 40 ∧
    p.buffer.length ≤ maxCompressedRecordLen :=
  ⟨UInt8.lt_iff_toNat_lt.mp p.started, UInt8.lt_iff_toNat_lt.mp p.unfinished,
    count_le_forty p.counted, p.bounded⟩

theorem Holds.finish (h : Holds z history p earlier run chunks)
    (ha : a.plaintext = p.nextIndex :: p.fragCount :: chunk)
    (ht : a.now ≤ p.lastFragmentAt + interFragmentTimeout) (hl : p.nextIndex = p.fragCount - 1)
    (he : decodeRecord z (p.buffer ++ chunk) = .ok env) :
    Carried z (history ++ [a]) env earlier run a p.fragCount (chunks ++ [chunk]) := by
  obtain ⟨_, hlt, hmost, _⟩ := partial_bounds p
  have hone : (1 : UInt8).toNat = 1 := rfl
  have hsub : (p.fragCount - 1).toNat = p.fragCount.toNat - 1 :=
    UInt8.toNat_sub_of_le _ _ (UInt8.le_iff_toNat_le.mpr (by omega))
  have hlast : p.nextIndex.toNat = p.fragCount.toNat - 1 := by rw [hl, hsub]
  constructor
  · rw [h.split, List.append_assoc]
  · exact h.idle
  · exact h.quiet
  · exact h.fragments_snoc ha ht
  · rw [List.length_append, List.length_singleton, h.reached]
    omega
  · omega
  · exact hmost
  · rw [List.flatten_append, ← h.buffer]
    simpa using he

theorem idle_of_none (hr : r.partialRecord = none) : r = .new := by
  cases r
  cases hr
  rfl

theorem Holds.opened {q : PartialRecord} (hr : received z history = .new)
    (hq : answer z history a = .ok none) (ha : a.plaintext = fragment q.fragCount 0 q.buffer)
    (hn : q.nextIndex = 1) (ht : q.lastFragmentAt = a.now) :
    Holds z (history ++ [a]) q history [a] [q.buffer] := by
  constructor
  · rfl
  · exact hr
  · exact (quiet_nil).snoc (by rwa [List.append_nil])
  · exact fragments_first ha
  · rw [hn]
    rfl
  · simp
  · exact ⟨a, rfl, ht.symm⟩

theorem Holds.continued {q : PartialRecord} (h : Holds z history p earlier run chunks)
    (hq : answer z history a = .ok none) (ha : a.plaintext = p.nextIndex :: p.fragCount :: chunk)
    (ht : a.now ≤ p.lastFragmentAt + interFragmentTimeout) (hc : q.fragCount = p.fragCount)
    (hn : q.nextIndex.toNat = p.nextIndex.toNat + 1) (hb : q.buffer = p.buffer ++ chunk)
    (hl : q.lastFragmentAt = a.now) :
    Holds z (history ++ [a]) q earlier (run ++ [a]) (chunks ++ [chunk]) := by
  constructor
  · rw [h.split, List.append_assoc]
  · exact h.idle
  · exact h.quiet.snoc (h.split ▸ hq)
  · rw [hc]
    exact h.fragments_snoc ha ht
  · rw [hn, List.length_append, List.length_singleton, h.reached]
  · rw [hb, h.buffer]
    simp
  · exact ⟨a, by simp, hl.symm⟩

theorem reset_of_answer (h : answer z history a ≠ .ok none) :
    received z (history ++ [a]) = .new := by
  rw [received_snoc]
  unfold answer at h
  have hacc := accepted z (received z history) a
  generalize accept z (received z history) a = out at h hacc
  cases hacc with
  | rejected => rfl
  | whole => rfl
  | finished => rfl
  | opened => exact absurd rfl h
  | continued => exact absurd rfl h

/-- Whatever is held was put together by the arrivals since the last rejection or
completion. -/
theorem held_made (hp : (received z history).partialRecord = some p) :
    ∃ earlier run chunks, Holds z history p earlier run chunks := by
  induction history using List.reverseRecOn generalizing p with
  | nil => cases hp
  | append_singleton history a ih =>
    rw [received_snoc] at hp
    have hacc := accepted z (received z history) a
    generalize hout : accept z (received z history) a = out at hp hacc
    have hans : answer z history a = out.1 := congrArg Prod.fst hout
    cases hacc with
    | rejected => cases hp
    | whole => cases hp
    | finished => cases hp
    | opened q hr ha hn ht =>
      obtain rfl : q = p := Option.some.inj hp
      exact ⟨history, [a], [q.buffer], Holds.opened (idle_of_none hr) hans ha hn ht⟩
    | continued p' q chunk hr ha ht hc hn hb hl =>
      obtain rfl : q = p := Option.some.inj hp
      obtain ⟨earlier, run, chunks, hh⟩ := ih hr
      exact ⟨earlier, run ++ [a], chunks ++ [chunk], hh.continued hans ha ht hc hn hb hl⟩

theorem envelope_carried (h : answer z history a = .ok (some env)) :
    ∃ earlier run count chunks, Carried z (history ++ [a]) env earlier run a count chunks := by
  unfold answer at h
  have hacc := accepted z (received z history) a
  generalize accept z (received z history) a = out at h hacc
  cases hacc with
  | rejected => cases h
  | opened => cases h
  | continued => cases h
  | whole chunk env' hr ha he =>
    obtain rfl : env' = env := by simpa using h
    refine ⟨history, [], 1, [chunk], ?_⟩
    constructor
    · rfl
    · exact idle_of_none hr
    · exact quiet_nil
    · exact fragments_first ha
    · rfl
    · decide
    · decide
    · simpa using he
  | finished p chunk env' hr ha ht hl he =>
    obtain rfl : env' = env := by simpa using h
    obtain ⟨earlier, run, chunks, hh⟩ := held_made hr
    exact ⟨earlier, run, p.fragCount, chunks ++ [chunk], hh.finish ha ht hl he⟩

/-- An envelope comes out only at the last of the fragments `0 .. n - 1` of one record,
taken by a reassembler that held nothing and none of them rejected; what is held stays
within its bounds; every rejection and every completion leaves nothing behind. -/
theorem reassembler_sound (z : Flate) (history : List Arrival) :
    (∀ a env, answer z history a = .ok (some env) →
      ∃ earlier run count chunks, Carried z (history ++ [a]) env earlier run a count chunks) ∧
    (∀ p, (received z history).partialRecord = some p → 1 ≤ p.nextIndex.toNat ∧
      p.nextIndex.toNat < p.fragCount.toNat ∧ p.fragCount.toNat ≤ 40 ∧
      p.buffer.length ≤ maxCompressedRecordLen) ∧
    ∀ a, answer z history a ≠ .ok none → received z (history ++ [a]) = .new :=
  ⟨fun _ _ => envelope_carried, fun p _ => partial_bounds p, fun _ => reset_of_answer⟩

end HerdrMobile.Frame.Reassembly
