import HerdrMobile.Host.Pairing
import HerdrMobile.Proto.Segments
import HerdrMobile.Proto.UriRoundTrip

/-!
# A dead pairing session gives no credential

Over any operations at any times the accessors follow the life of the phrase, the
third counted failure spends it, and expiry and spending are never mixed up. What
does not hold is that a dead session is left alone: an enrolment recorded at an
expired or spent session changes its state, and that is the only operation that does.
-/

namespace HerdrMobile.Host.Credentials

open Lib Run Pairing Proto

variable {ε Bits QrError : Type} (crates : Crates ε Bits QrError)

/-- The failed attempt counts against a live phrase. -/
def counts (session : PairingSession) : Op → Bool
  | .recordFailedAttempt now => session.isLive now
  | _ => false

/-- The session beside the number of failed attempts counted since its phrase was made. -/
def tally (s : PairingSession × Nat) (op : Op) : PairingSession × Nat :=
  (after crates s.1 op,
    if renews crates s.1 op then 0 else if counts s.1 op then s.2 + 1 else s.2)

def failures (s₀ : PairingSession) (ops : List Op) : Nat :=
  (ops.foldl (tally crates) (s₀, 0)).2

/-- The run comes to `s`, and from there by `mid`, which makes no new phrase, to `t`. -/
def Stretch (s₀ : PairingSession) (ops : List Op) (s : PairingSession) (mid : List Op)
    (t : PairingSession) : Prop :=
  ∃ pre post, ops = pre ++ mid ++ post ∧ run (step crates) s₀ pre = some s ∧
    run (step crates) s mid = some t ∧
    ∀ q op q', Occurs (step crates) s mid q op q' → renews crates q op = false

structure Sound (s₀ : PairingSession) (ops : List Op) : Prop where
  readable : ∀ s, Visits (step crates) s₀ ops s → ∀ now, (s.isLive now ↔ Lives s now) ∧
    ∀ accessor, returns crates s now accessor ↔ Lives s now
  silent : ∀ s mid t, Stretch crates s₀ ops s mid t → Dead s →
    ∀ now accessor, returns crates t now accessor = false
  counted : ∀ pre op post s t, ops = pre ++ op :: post → run (step crates) s₀ pre = some s →
    step crates s op = some t → failures crates s₀ (pre ++ [op]) ≤ maxAttempts ∧
      (counts s op → failures crates s₀ (pre ++ [op]) = maxAttempts → t.state = .spent)
  apart : ∀ s mid t, Stretch crates s₀ ops s mid t →
    (s.state = .expired → t.state ≠ .spent) ∧ (s.state = .spent → t.state ≠ .expired)
  unchanged : ∀ s op t, Occurs (step crates) s₀ ops s op t → Dead s →
    renews crates s op = false → t = s

/-- No enrolment is recorded at a session that has expired or is spent. -/
def NoLateEnrolment (s₀ : PairingSession) (ops : List Op) : Prop :=
  ∀ s t, Occurs (step crates) s₀ ops s .recordEnrolled t →
    s.state ≠ .expired ∧ s.state ≠ .spent

theorem dead_of_state {s : PairingSession} (h : ∀ live, s.state ≠ .live live) : Dead s := by
  rw [Dead, PairingSession.live]
  split
  · next live hs => exact absurd hs (h live)
  all_goals rfl

theorem not_lives_of_dead {s : PairingSession} (h : Dead s) (now : Instant) : ¬Lives s now := by
  rintro ⟨live, hs, -⟩
  simp [Dead, PairingSession.live, hs] at h

/-- Only a recorded enrolment touches a dead session. -/
theorem after_dead {s : PairingSession} {op : Op} (h : Dead s) (hr : renews crates s op = false) :
    after crates s op = s ∨ (op = .recordEnrolled ∧ (after crates s op).state = .enrolled) := by
  cases op with
  | isLive now | read accessor now => exact .inl (PairingSession.applyExpiry_of_dead now h)
  | isSpent => exact .inl rfl
  | recordFailedAttempt now =>
    left
    rw [after, PairingSession.recordFailedAttempt, PairingSession.applyExpiry_of_dead now h]
    simp only
    split
    · next live hs => simp [Dead, PairingSession.live, hs] at h
    · rfl
  | recordEnrolled => exact .inr ⟨rfl, rfl⟩
  | regenerate words draws now =>
    left
    rw [after]
    split
    · rfl
    · next hok => simp [renews, hok, Except.isOk, Except.toBool] at hr

/-- While no phrase is made a dead session stays dead, in its state or enrolled. -/
theorem run_dead {s t : PairingSession} {mid : List Op} (hd : Dead s)
    (hrun : run (step crates) s mid = some t)
    (hquiet : ∀ q op q', Occurs (step crates) s mid q op q' → renews crates q op = false) :
    Dead t ∧ (t.state = s.state ∨ t.state = .enrolled) := by
  refine visits_invariant (fun q => Dead q ∧ (q.state = s.state ∨ q.state = .enrolled))
    ⟨hd, .inl rfl⟩ ?_ (visits_end hrun)
  rintro q op q' ⟨hq, hstate⟩ hocc
  obtain rfl : after crates q op = q' := Option.some.inj hocc.step_eq
  rcases after_dead crates hq (hquiet q op _ hocc) with heq | ⟨-, hen⟩
  · rw [heq]
    exact ⟨hq, hstate⟩
  · refine ⟨dead_of_state fun live hl => ?_, .inr hen⟩
    cases hen.symm.trans hl

/-- A live phrase holds its count, which is below the limit. -/
def Tallied (s : PairingSession × Nat) : Prop :=
  s.2 ≤ maxAttempts ∧ ∀ live, s.1.state = .live live → s.2 = live.failedAttempts ∧ s.2 < maxAttempts

theorem tallied_fresh {s : PairingSession} {live : LivePhrase} (hs : s.state = .live live)
    (h : live.failedAttempts = 0) : Tallied (s, 0) := by
  refine ⟨Nat.zero_le _, fun other ho => ?_⟩
  cases hs.symm.trans ho
  exact ⟨h.symm, Nat.zero_lt_succ _⟩

theorem tallied_expiry {s : PairingSession} {n : Nat} (h : Tallied (s, n)) (now : Instant) :
    Tallied (s.applyExpiry now, n) := by
  rcases s.applyExpiry_cases now with hl | ⟨hdead, -⟩ | ⟨-, -, hexp⟩
  · rwa [PairingSession.applyExpiry_of_lives hl]
  · rwa [PairingSession.applyExpiry_of_dead now hdead]
  · rw [hexp]
    exact ⟨h.1, fun live hl => by cases hl⟩

theorem generate_fresh {relayOrigin : Strings.Text} {words : List Strings.Text}
    {draws : Draws words} {now : Instant} {live : LivePhrase}
    (h : LivePhrase.generate crates relayOrigin words draws now = .ok live) :
    live.failedAttempts = 0 := by
  rw [LivePhrase.generate] at h
  split at h
  · cases h
  split at h
  · cases h
  dsimp only at h
  split at h
  · cases h
  split at h
  · cases h
  · cases h
    rfl

/-- A failed attempt counts where the phrase lives, and the third one spends it. -/
theorem tallied_failed {s : PairingSession} {n : Nat} (h : Tallied (s, n)) (now : Instant) :
    Tallied (tally crates (s, n) (.recordFailedAttempt now)) ∧
      (s.isLive now → n + 1 = maxAttempts → (s.recordFailedAttempt now).state = .spent) := by
  by_cases hl : Lives s now
  · have hcount : counts s (.recordFailedAttempt now) = true := (s.isLive_iff now).mpr hl
    have hexp := PairingSession.applyExpiry_of_lives hl
    obtain ⟨live, hs, -⟩ := hl
    obtain ⟨hn, hlt⟩ : n = live.failedAttempts ∧ n < maxAttempts := h.2 live hs
    have hrecord : s.recordFailedAttempt now
        = if live.failedAttempts + 1 ≥ maxAttempts then { s with state := .spent }
          else { s with state := .live { live with failedAttempts := live.failedAttempts + 1 } } := by
      simp only [PairingSession.recordFailedAttempt, hexp, hs]
    have htally : tally crates (s, n) (.recordFailedAttempt now)
        = (s.recordFailedAttempt now, n + 1) := by
      simp only [tally, renews, hcount]
      rfl
    rw [htally, hrecord]
    by_cases hmax : live.failedAttempts + 1 ≥ maxAttempts
    · rw [if_pos hmax]
      exact ⟨⟨hlt, fun other ho => by cases ho⟩, fun _ _ => rfl⟩
    · rw [if_neg hmax]
      refine ⟨⟨hlt, fun other ho => ?_⟩, fun _ heq => absurd heq (by omega)⟩
      cases ho
      exact ⟨by rw [hn], by omega⟩
  · have hnot : s.isLive now = false := by
      rw [← Bool.not_eq_true]
      exact fun h => hl ((s.isLive_iff now).mp h)
    have htally : tally crates (s, n) (.recordFailedAttempt now)
        = (s.recordFailedAttempt now, n) := by
      simp only [tally, renews, counts, hnot]
      rfl
    have hrecord : s.recordFailedAttempt now = s.applyExpiry now := by
      have hnone : (s.applyExpiry now).live = none := by
        rw [PairingSession.isLive] at hnot
        exact Option.not_isSome_iff_eq_none.mp (by simp [hnot])
      rw [PairingSession.recordFailedAttempt]
      simp only
      split
      · next live hs => simp [PairingSession.live, hs] at hnone
      · rfl
    rw [htally, hrecord]
    exact ⟨tallied_expiry h now, fun hlive => by simp [hnot] at hlive⟩

theorem tallied_step {s : PairingSession} {n : Nat} (h : Tallied (s, n)) (op : Op) :
    Tallied (tally crates (s, n) op) ∧
      (counts s op → (tally crates (s, n) op).2 = maxAttempts →
        (after crates s op).state = .spent) := by
  cases op with
  | isLive now => exact ⟨tallied_expiry h now, fun hc => by cases hc⟩
  | read accessor now => exact ⟨tallied_expiry h now, fun hc => by cases hc⟩
  | isSpent => exact ⟨h, fun hc => by cases hc⟩
  | recordFailedAttempt now =>
    obtain ⟨hkept, hspent⟩ := tallied_failed crates h now
    refine ⟨hkept, fun hc hn => hspent hc ?_⟩
    rw [← hn]
    have hcount : counts s (.recordFailedAttempt now) = true := hc
    simp [tally, renews, hcount]
  | recordEnrolled => exact ⟨⟨h.1, fun live hl => by cases hl⟩, fun hc => by cases hc⟩
  | regenerate words draws now =>
    refine ⟨?_, fun hc => by cases hc⟩
    rcases hgen : LivePhrase.generate crates s.relayOrigin words draws now with e | live
    · have htally : tally crates (s, n) (.regenerate words draws now) = (s, n) := by
        simp [tally, after, renews, counts, PairingSession.regenerate, hgen, Except.isOk,
          Except.toBool]
      rwa [htally]
    · have htally : tally crates (s, n) (.regenerate words draws now)
          = ({ s with state := .live live }, 0) := by
        simp [tally, after, renews, PairingSession.regenerate, hgen, Except.isOk, Except.toBool]
      rw [htally]
      exact tallied_fresh rfl (generate_fresh crates hgen)

/-- The tally goes along with the run. -/
theorem foldl_tally {s₀ s : PairingSession} {ops : List Op} {n : Nat}
    (h : run (step crates) s₀ ops = some s) :
    ops.foldl (tally crates) (s₀, n) = (s, (ops.foldl (tally crates) (s₀, n)).2) := by
  induction ops generalizing s₀ n with
  | nil =>
    cases h
    rfl
  | cons op rest ih => exact ih h

theorem tallied_run {s₀ s : PairingSession} {ops : List Op} (h₀ : Tallied (s₀, 0))
    (h : run (step crates) s₀ ops = some s) : Tallied (s, failures crates s₀ ops) := by
  rw [failures, ← foldl_tally crates h]
  clear h
  induction ops using List.reverseRecOn with
  | nil => exact h₀
  | append_singleton init op ih =>
    rw [List.foldl_append]
    exact (tallied_step crates ih op).1

theorem sound_of_noLateEnrolment {s₀ : PairingSession} {ops : List Op} (h₀ : Tallied (s₀, 0))
    (h : NoLateEnrolment crates s₀ ops) : Sound crates s₀ ops where
  readable s _ now := ⟨s.isLive_iff now, returns_iff crates s now⟩
  silent s mid t hstretch hd now accessor := by
    obtain ⟨pre, post, -, -, hrun, hquiet⟩ := hstretch
    have hdead := (run_dead crates hd hrun hquiet).1
    rw [← Bool.not_eq_true, returns_iff]
    exact not_lives_of_dead hdead now
  counted pre op post s t _ hrun hstep := by
    obtain rfl : after crates s op = t := Option.some.inj hstep
    have hlast : failures crates s₀ (pre ++ [op])
        = (tally crates (s, failures crates s₀ pre) op).2 := by
      rw [failures, List.foldl_append, foldl_tally crates hrun]
      rfl
    obtain ⟨hkept, hspent⟩ := tallied_step crates (tallied_run crates h₀ hrun) op
    rw [hlast]
    exact ⟨hkept.1, hspent⟩
  apart s mid t hstretch := by
    obtain ⟨pre, post, -, -, hrun, hquiet⟩ := hstretch
    refine ⟨fun hs => ?_, fun hs => ?_⟩
    all_goals
      have hd : Dead s := dead_of_state fun live hl => by cases hs.symm.trans hl
      rcases (run_dead crates hd hrun hquiet).2 with ht | ht
      · rw [ht, hs]
        exact fun h => by cases h
      · rw [ht]
        exact fun h => by cases h
  unchanged s op t hocc hd hr := by
    obtain rfl : after crates s op = t := Option.some.inj hocc.step_eq
    rcases after_dead crates hd hr with heq | ⟨rfl, -⟩
    · exact heq
    · obtain ⟨hexp, hspent⟩ := h s _ hocc
      rcases hs : s.state with live | _ | _ | _
      · simp [Dead, PairingSession.live, hs] at hd
      · exact absurd hs hexp
      · exact absurd hs hspent
      · rw [after, PairingSession.recordEnrolled, ← hs]

/-- From a new session on, the operations are sound exactly where no enrolment is
recorded at a session that has expired or is spent. -/
theorem sound_iff_noLateEnrolment {relayOrigin : Strings.Text} {words : List Strings.Text}
    {draws : Draws words} {now : Instant} {s₀ : PairingSession} (ops : List Op)
    (hnew : PairingSession.new crates relayOrigin words draws now = .ok s₀) :
    Sound crates s₀ ops ↔ NoLateEnrolment crates s₀ ops := by
  constructor
  · intro h s t hocc
    obtain rfl : after crates s .recordEnrolled = t := Option.some.inj hocc.step_eq
    have hkept : ∀ d : SessionState, s.state = d → (∀ live, d ≠ .live live) → d = .enrolled := by
      intro d hs hd
      have hdead : Dead s := dead_of_state fun live hl => hd live (hs.symm.trans hl)
      have heq := h.unchanged s _ _ hocc hdead rfl
      rw [← hs, ← heq]
      rfl
    refine ⟨fun hs => ?_, fun hs => ?_⟩
    · cases hkept _ hs (fun live hl => by cases hl)
    · cases hkept _ hs (fun live hl => by cases hl)
  · refine sound_of_noLateEnrolment crates ?_
    rw [PairingSession.new] at hnew
    split at hnew
    · cases hnew
    · next live hgen =>
      cases hnew
      exact tallied_fresh rfl (generate_fresh crates hgen)

/-- Crates for the examples: one QR version that holds everything. -/
def plainCrates : Crates Unit Unit Unit where
  base64 := plainEngine
  qr := ⟨fun _ => (), fun bits _ => some bits, some, fun _ => .ok ⟨1, [.dark]⟩, ()⟩
  digest _ := .replicate 32 0

def firstWords : Draws tShirts.entries :=
  ⟨some exampleUri.handle, some fun _ => ⟨0, by rw [tShirts.size]; decide⟩⟩

/-- A session over the list of t-shirts. -/
theorem new_tShirts : ∃ live,
    PairingSession.new plainCrates "https://relay".toList tShirts.entries firstWords 0
      = .ok ⟨"https://relay".toList, .live live⟩ ∧ live.failedAttempts = 0 ∧
      live.generatedAt = 0 := by
  have hphrase := Phrase.generate_ok tShirts.size fun _ => ⟨0, by rw [tShirts.size]; decide⟩
  have hgen : LivePhrase.generate plainCrates "https://relay".toList tShirts.entries firstWords 0
      = .ok ⟨_, _, 0, 0, _, ⟨1, [true]⟩⟩ :=
    LivePhrase.generate_ok plainCrates 0 rfl hphrase (by decide +kernel) rfl
  exact ⟨_, PairingSession.new_ok plainCrates hgen, rfl, rfl⟩

theorem three_failures {live : LivePhrase} (origin : Strings.Text)
    (hnone : live.failedAttempts = 0) (hnow : live.generatedAt = 0) :
    run (step plainCrates) ⟨origin, .live live⟩ (.replicate 3 (.recordFailedAttempt 0))
      = some ⟨origin, .spent⟩ := by
  simp [run, step, after, PairingSession.recordFailedAttempt, PairingSession.applyExpiry, hnow,
    hnone, maxAttempts]

/-- An enrolment that comes in time. -/
def inTime (session : PairingSession) : Op → Bool
  | .recordEnrolled => session.live.isSome
  | _ => true

/-- Two failed attempts, a look at the last moment, and an enrolment; and an enrolment after a look
one nanosecond later. -/
theorem sound_iff_noLateEnrolment_once : ∃ s₀,
    PairingSession.new plainCrates "https://relay".toList tShirts.entries firstWords 0 = .ok s₀ ∧
    Sound plainCrates s₀ [.recordFailedAttempt 0, .recordFailedAttempt 0, .isLive phraseLifetime,
      .recordEnrolled] ∧
    ¬Sound plainCrates s₀ [.recordFailedAttempt 0, .isLive (phraseLifetime + 1),
      .recordEnrolled] := by
  obtain ⟨live, hnew, hnone, hnow⟩ := new_tShirts
  refine ⟨_, hnew, ?_, fun hsound => ?_⟩
  · refine (sound_iff_noLateEnrolment plainCrates _ hnew).mpr fun s t ho => ?_
    have hall : everyStep (step plainCrates) inTime ⟨"https://relay".toList, .live live⟩
        [.recordFailedAttempt 0, .recordFailedAttempt 0, .isLive phraseLifetime,
          .recordEnrolled] = true := by
      simp [everyStep, step, after, inTime, PairingSession.recordFailedAttempt,
        PairingSession.applyExpiry, PairingSession.live, hnow, hnone, maxAttempts]
    have hlive : inTime s .recordEnrolled = true := occurs_good hall ho
    rw [inTime] at hlive
    constructor
    · intro hs
      simp [PairingSession.live, hs] at hlive
    · intro hs
      simp [PairingSession.live, hs] at hlive
  · have hrun : run (step plainCrates) ⟨"https://relay".toList, .live live⟩
        [.recordFailedAttempt 0, .isLive (phraseLifetime + 1)] =
          some ⟨"https://relay".toList, .expired⟩ := by
      simp [run, step, after, PairingSession.recordFailedAttempt, PairingSession.applyExpiry,
        hnow, hnone, maxAttempts]
    have hlaw := (sound_iff_noLateEnrolment plainCrates _ hnew).mp hsound
    exact (hlaw _ _ (occurs_last hrun rfl)).1 rfl

/-- Three failed attempts spend the phrase, and an enrolment recorded then makes the
session an enrolled one. -/
theorem spent_session_enrols : ∃ s₀,
    PairingSession.new plainCrates "https://relay".toList tShirts.entries firstWords 0 = .ok s₀ ∧
    ¬Sound plainCrates s₀ (.replicate 3 (.recordFailedAttempt 0) ++ [.recordEnrolled]) := by
  obtain ⟨live, hnew, hnone, hnow⟩ := new_tShirts
  refine ⟨_, hnew, fun h => ?_⟩
  have hspent := three_failures "https://relay".toList hnone hnow
  have hsame := h.unchanged _ .recordEnrolled _ (occurs_last hspent rfl) rfl rfl
  cases hsame

end HerdrMobile.Host.Credentials
