import HerdrMobile.Hub.Limits
import HerdrMobile.Lib.Window
import Mathlib.Data.List.Chain

/-!
# What the limiters let through

The limiter of addresses keeps a rolling limit. The limiter of frames counts in windows that start
with a frame, so the end of one and the beginning of the next add up.
-/
namespace HerdrMobile.Hub.Rates

open Hub.Limits Lib.Window

set_option autoImplicit false

variable {maxPerWindow start now last : Nat} {current times : List Nat} {ip : IpAddr}
  {calls : List (IpAddr × Nat)}

/-- The times at which a frame is let through. -/
def admitted (l : FrameRateLimiter) : List Nat → List Nat
  | [] => []
  | now :: rest =>
    match l.allow now with
    | (true, l) => now :: admitted l rest
    | (false, l) => admitted l rest

/-- The times cut where the counter starts over, which is with the first frame that comes a window
or more after it last did. -/
def windowsFrom (start : Nat) (current : List Nat) : List Nat → List (List Nat)
  | [] => [current]
  | now :: rest =>
    if window ≤ now - start then current :: windowsFrom now [now] rest
    else windowsFrom start (current ++ [now]) rest

/-- What arrives around each restart of the counter: once as many frames have come after it as
`before` fell short of `maxPerWindow`, the next ones come a second or more after the first one of
`before`, the second one and so on. -/
def Unhurried (maxPerWindow start : Nat) (times : List Nat) : Prop :=
  (windowsFrom start [] times).IsChain fun before after =>
    ∀ i < maxPerWindow, ∀ u ∈ before[i]?, ∀ v ∈ after[i + (maxPerWindow - before.length)]?,
      u + window ≤ v

instance : Decidable (Unhurried maxPerWindow start times) := by
  unfold Unhurried
  infer_instance

example : Unhurried 2 0 [900000000, 1000000000, 1900000000] ∧
    ¬Unhurried 2 0 [900000000, 1000000000, 1100000000] := by decide

theorem windowsFrom_flatten : (windowsFrom start current times).flatten = current ++ times := by
  induction times generalizing start current with
  | nil => simp [windowsFrom]
  | cons now rest ih =>
    rw [windowsFrom]
    split
    · rw [List.flatten_cons, ih]
      rfl
    · rw [ih, List.append_assoc]
      rfl

/-- What comes after the window that is open comes a window after its start. -/
theorem windowsFrom_cons (hsorted : (start :: times).Pairwise (· ≤ ·)) :
    ∃ own rest, windowsFrom start current times = (current ++ own) :: rest ∧
      (∀ x ∈ own, x ∈ times) ∧ ∀ y ∈ rest.flatten, start + window ≤ y := by
  induction times generalizing current with
  | nil => exact ⟨[], [], by rw [windowsFrom, List.append_nil], nofun, nofun⟩
  | cons now rest ih =>
    obtain ⟨hstart, hrest⟩ := List.pairwise_cons.mp hsorted
    rw [windowsFrom]
    split
    · next hover =>
      refine ⟨[], _, by rw [List.append_nil], nofun, ?_⟩
      intro y hy
      rw [windowsFrom_flatten] at hy
      have hnow : now ≤ y := by
        obtain rfl | hy := List.mem_cons.mp hy
        · exact Nat.le_refl y
        · exact List.rel_of_pairwise_cons hrest hy
      have hle := hstart now List.mem_cons_self
      have hpos : 0 < window := by decide
      omega
    · have hskip : (start :: rest).Pairwise (· ≤ ·) :=
        List.pairwise_cons.mpr ⟨fun x hx => hstart x (List.mem_cons_of_mem now hx), hrest.of_cons⟩
      obtain ⟨own, later, heq, hown, hlater⟩ := (@ih (current ++ [now])) hskip
      refine ⟨now :: own, later, ?_, ?_, hlater⟩
      · rw [heq, List.append_assoc]
        rfl
      · intro x hx
        obtain rfl | hx := List.mem_cons.mp hx
        · exact List.mem_cons_self
        · exact List.mem_cons_of_mem now (hown x hx)

theorem cut_windowsFrom (hsorted : (current ++ times).Pairwise (· ≤ ·))
    (hstart : (start :: times).Pairwise (· ≤ ·)) :
    Cut window (windowsFrom start current times) := by
  induction times generalizing start current with
  | nil => trivial
  | cons now rest ih =>
    obtain ⟨hnow, hrest⟩ := List.pairwise_cons.mp hstart
    rw [windowsFrom]
    split
    · have hcut := (@ih now [now]) hrest hrest
      obtain ⟨own, later, heq, -, hlater⟩ := (@windowsFrom_cons _ [now]) hrest
      rw [heq] at hcut ⊢
      refine ⟨⟨now, fun x hx => ?_, hlater⟩, hcut⟩
      exact (List.pairwise_append.mp hsorted).2.2 x hx now List.mem_cons_self
    · apply ih
      · rw [List.append_assoc]
        exact hsorted
      · exact List.pairwise_cons.mpr
          ⟨fun x hx => hnow x (List.mem_cons_of_mem now hx), hrest.of_cons⟩

theorem admitted_cons (l : FrameRateLimiter) :
    admitted l (now :: times) =
      (if (l.allow now).1 then [now] else []) ++ admitted (l.allow now).2 times := by
  rw [admitted]
  cases l.allow now with
  | mk ok l =>
    cases ok with
    | true => rfl
    | false => rfl

theorem admitted_sublist (l : FrameRateLimiter) : (admitted l times).Sublist times := by
  induction times generalizing l with
  | nil => exact .slnil
  | cons now rest ih =>
    rw [admitted_cons]
    split
    · exact (ih _).cons_cons now
    · exact (ih _).cons now

/-- The limiter lets through the first frames of each window. -/
theorem admitted_eq :
    current.take maxPerWindow ++ admitted ⟨maxPerWindow, start, current.length⟩ times =
      ((windowsFrom start current times).map (List.take maxPerWindow)).flatten := by
  induction times generalizing start current with
  | nil => simp [admitted, windowsFrom]
  | cons now rest ih =>
    rw [admitted_cons, windowsFrom, FrameRateLimiter.allow]
    split
    · -- The counter starts over with this frame.
      rw [List.map_cons, List.flatten_cons, ← @ih _ [now]]
      congr 2
      cases maxPerWindow with
      | zero => rfl
      | succ n => simp
    · rw [← @ih _ (current ++ [now]), List.length_append, List.length_singleton,
        List.take_append, List.append_assoc]
      congr 2
      by_cases hroom : current.length + 1 ≤ maxPerWindow
      · rw [List.take_of_length_le (by rw [List.length_singleton]; omega)]
        simp [hroom]
      · rw [Nat.sub_eq_zero_of_le (by omega)]
        simp [hroom]

/-- Two neighbouring windows are spaced where their arrivals are unhurried. -/
theorem spaced_take_append_iff {w max : Nat} {a b : List Nat} :
    Spaced w max (a.take max ++ b.take max) ↔
      ∀ i < max, ∀ u ∈ a[i]?, ∀ v ∈ b[i + (max - a.length)]?, u + w ≤ v := by
  have hlength : (a.take max).length = min max a.length := List.length_take
  -- What is `max` places further on is in the second window, and what it is compared with in
  -- the first.
  have hplace : ∀ i, i < min max a.length →
      (a.take max ++ b.take max)[i]? = a[i]? ∧
        (a.take max ++ b.take max)[i + max]? = b[i + (max - a.length)]? := by
    intro i hi
    constructor
    · rw [List.getElem?_append_left (by omega), List.getElem?_take_of_lt (by omega)]
    · rw [List.getElem?_append_right (by omega), hlength, List.getElem?_take_of_lt (by omega)]
      congr 1
      omega
  constructor
  · intro h i hi u hu v hv
    have hlt : i < a.length := (List.getElem?_eq_some_iff.mp hu).1
    obtain ⟨hfirst, hsecond⟩ := hplace i (by omega)
    exact h i u (hfirst ▸ hu) v (hsecond ▸ hv)
  · intro h i u hu v hv
    have hlt : i + max < (a.take max ++ b.take max).length := (List.getElem?_eq_some_iff.mp hv).1
    rw [List.length_append, List.length_take, List.length_take] at hlt
    obtain ⟨hfirst, hsecond⟩ := hplace i (by omega)
    exact h i (by omega) u (hfirst ▸ hu) v (hsecond ▸ hv)

theorem frames_rolling_iff (hsorted : (start :: times).Pairwise (· ≤ ·)) :
    Rolling window maxPerWindow (admitted (.new maxPerWindow start) times) ↔
      Unhurried maxPerWindow start times := by
  let counted := (windowsFrom start [] times).map (List.take maxPerWindow)
  have heq : admitted (.new maxPerWindow start) times = counted.flatten := by
    rw [← admitted_eq, List.take_nil, List.nil_append]
    rfl
  have hadmitted : counted.flatten.Pairwise (· ≤ ·) := by
    rw [← heq]
    exact hsorted.of_cons.sublist (admitted_sublist _)
  have hcut : Cut window counted := by
    have hcut := (@cut_windowsFrom _ []) hsorted.of_cons hsorted
    exact hcut.map fun a => List.take_subset ..
  have hfew : ∀ a ∈ counted, a.length ≤ maxPerWindow := by
    intro a ha
    obtain ⟨b, -, rfl⟩ := List.mem_map.mp ha
    exact List.length_take_le ..
  rw [heq, rolling_flatten_iff hcut hfew hadmitted, List.isChain_map]
  simp only [spaced_take_append_iff]
  rfl

/-- Each call with its answer. -/
def answers (l : IpRateLimiter) : List (IpAddr × Nat) → List ((IpAddr × Nat) × Bool)
  | [] => []
  | (ip, now) :: rest => ((ip, now), (l.allow ip now).1) :: answers (l.allow ip now).2 rest

/-- The times at which this address was let through. -/
def passedOf (ip : IpAddr) (answered : List ((IpAddr × Nat) × Bool)) : List Nat :=
  (answered.filter fun entry => entry.1.1 = ip && entry.2).map fun entry => entry.1.2

theorem allow_maxPerWindow (l : IpRateLimiter) (ip : IpAddr) (now : Nat) :
    (l.allow ip now).2.maxPerWindow = l.maxPerWindow := by
  rw [IpRateLimiter.allow]
  split <;> rfl

theorem allow_seen_of_ne (l : IpRateLimiter) {other : IpAddr} (h : other ≠ ip) :
    (l.allow ip now).2.seen other = l.seen other := by
  rw [IpRateLimiter.allow]
  split <;> exact if_neg h

theorem allow_self (l : IpRateLimiter) (ip : IpAddr) (now : Nat) :
    let events := prune window now (l.seen ip)
    (events.length < l.maxPerWindow ∧ (l.allow ip now).1 = true ∧
        (l.allow ip now).2.seen ip = events ++ [now]) ∨
      ((l.allow ip now).1 = false ∧ (l.allow ip now).2.seen ip = events) := by
  intro events
  rw [IpRateLimiter.allow]
  split
  · exact .inr ⟨rfl, if_pos rfl⟩
  · next hroom => exact .inl ⟨Nat.not_le.mp hroom, rfl, if_pos rfl⟩

/-- What the limiter knows of an address decides its answers. -/
def SameFor (ip : IpAddr) (l k : IpRateLimiter) : Prop :=
  l.maxPerWindow = k.maxPerWindow ∧ l.seen ip = k.seen ip

theorem SameFor.allow {l k : IpRateLimiter} (h : SameFor ip l k) :
    (l.allow ip now).1 = (k.allow ip now).1 ∧ SameFor ip (l.allow ip now).2 (k.allow ip now).2 := by
  obtain ⟨hmax, hseen⟩ := h
  rw [SameFor, IpRateLimiter.allow, IpRateLimiter.allow, hmax, hseen]
  split
  · exact ⟨rfl, rfl, by simp⟩
  · exact ⟨rfl, rfl, by simp⟩

/-- The answers to an address are the same as if no other one had called. -/
theorem answers_of_one {l k : IpRateLimiter} (h : SameFor ip l k) :
    ((answers l calls).filter fun entry => entry.1.1 = ip) =
      answers k (calls.filter fun call => call.1 = ip) := by
  induction calls generalizing l k with
  | nil => rfl
  | cons call rest ih =>
    obtain ⟨a, now⟩ := call
    rw [answers]
    by_cases ha : a = ip
    · subst ha
      obtain ⟨hanswer, hnext⟩ := (@SameFor.allow now) h
      rw [List.filter_cons_of_pos (by simp), List.filter_cons_of_pos (by simp), answers, hanswer,
        ih hnext]
    · rw [List.filter_cons_of_neg (by simpa using ha), List.filter_cons_of_neg (by simpa using ha)]
      apply ih
      exact ⟨(allow_maxPerWindow l a now).trans h.1, (allow_seen_of_ne l (Ne.symm ha)).trans h.2⟩

theorem passedOf_cons {entry : (IpAddr × Nat) × Bool} {rest : List ((IpAddr × Nat) × Bool)} :
    passedOf ip (entry :: rest) =
      (if entry.1.1 = ip ∧ entry.2 = true then [entry.1.2] else []) ++ passedOf ip rest := by
  rw [passedOf, List.filter_cons]
  simp only [Bool.and_eq_true, decide_eq_true_eq]
  split
  · rfl
  · rfl

theorem rolling_answers {l : IpRateLimiter} {passed : List Nat}
    (h : Tracks window l.maxPerWindow last passed (l.seen ip))
    (hsorted : (last :: calls.map Prod.snd).Pairwise (· ≤ ·)) :
    Rolling window l.maxPerWindow (passed ++ passedOf ip (answers l calls)) := by
  induction calls generalizing l last passed with
  | nil =>
    rw [answers, passedOf, List.filter_nil, List.map_nil, List.append_nil]
    exact h.rolling
  | cons call rest ih =>
    obtain ⟨a, now⟩ := call
    obtain ⟨hlast, hrest⟩ := List.pairwise_cons.mp hsorted
    have hnow : last ≤ now := hlast now List.mem_cons_self
    have hmax := allow_maxPerWindow l a now
    rw [answers, passedOf_cons, ← List.append_assoc, ← hmax]
    refine (@ih now) ?_ hrest
    rw [hmax]
    by_cases ha : a = ip
    · subst ha
      obtain ⟨hroom, hanswer, hseen⟩ | ⟨hanswer, hseen⟩ := allow_self l a now
      · rw [hseen, if_pos ⟨rfl, hanswer⟩]
        exact (h.prune hnow).pass hroom
      · rw [hseen, if_neg (by simp [hanswer]), List.append_nil]
        exact h.prune hnow
    · rw [allow_seen_of_ne l (Ne.symm ha), if_neg (by simp [ha]), List.append_nil]
      exact h.later hnow

/-- The limiter of frames keeps a rolling limit exactly where no two windows are used up too close
to each other. The limiter of addresses always does, for each address by itself. -/
theorem limits_roll_iff (maxFrames maxConnections start : Nat) (times : List Nat)
    (calls : List (IpAddr × Nat)) (htimes : (start :: times).Pairwise (· ≤ ·))
    (hcalls : (calls.map Prod.snd).Pairwise (· ≤ ·)) :
    (Rolling window maxFrames (admitted (.new maxFrames start) times) ↔
        Unhurried maxFrames start times) ∧
      ∀ ip, Rolling window maxConnections (passedOf ip (answers (.new maxConnections) calls)) ∧
        ((answers (.new maxConnections) calls).filter fun entry => entry.1.1 = ip) =
          answers (.new maxConnections) (calls.filter fun call => call.1 = ip) := by
  refine ⟨frames_rolling_iff htimes, fun ip => ⟨?_, answers_of_one ⟨rfl, rfl⟩⟩⟩
  have hzero : (0 :: calls.map Prod.snd).Pairwise (· ≤ ·) :=
    List.pairwise_cons.mpr ⟨fun t _ => Nat.zero_le t, hcalls⟩
  exact (@rolling_answers _ _ _ (.new maxConnections) []) tracks_nil hzero

/-- A frame every quarter of a second, and a call of one address. -/
theorem limits_roll_iff_steady :
    (Rolling window 4 (admitted (.new 4 0) [250000000, 500000000, 750000000, 1000000000]) ↔
        Unhurried 4 0 [250000000, 500000000, 750000000, 1000000000]) ∧
      ∀ ip, Rolling window 1 (passedOf ip (answers (.new 1) [(.v4 0, 7)])) ∧
        ((answers (.new 1) [(.v4 0, 7)]).filter fun entry => entry.1.1 = ip) =
          answers (.new 1) ([(.v4 0, 7)].filter fun call => call.1 = ip) :=
  limits_roll_iff 4 1 0 _ _ (by decide) (by decide)

/-- A hundred frames late in the first second of a connection and a hundred at its end. -/
def burst : List Nat := List.replicate 100 900000000 ++ List.replicate 100 1000000000

/-- At a limit of a hundred, two hundred frames get through within a second. -/
theorem burst_admitted :
    (0 :: burst).Pairwise (· ≤ ·) ∧
      inWindow window 900000000 (admitted (.new 100 0) burst) = 200 ∧
      ¬Rolling window 100 (admitted (.new 100 0) burst) := by
  have hcount : inWindow window 900000000 (admitted (.new 100 0) burst) = 200 := by decide +kernel
  refine ⟨by decide +kernel, hcount, fun h => ?_⟩
  have hle := h 900000000
  rw [hcount] at hle
  exact absurd hle (by decide)

end HerdrMobile.Hub.Rates
