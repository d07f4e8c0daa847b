import HerdrMobile.Hub.PushStore

/-!
# At most one push in thirty seconds

The time of the last push is part of the registration. Registering a token again keeps
it; when the registration goes and comes back, the time is lost.
-/
namespace HerdrMobile.Hub.Collapse

open Lib.Run Lib.Table Hub.Limits Hub.Session Hub.PushStore

set_option autoImplicit false

variable {providers : Providers} {p p' u v : Push} {e f : Event} {es mid : List Event}
  {h : Handle} {now last : Nat} {entry : Entry} {delivery : Delivery}

def time : Event → Option Nat
  | .receive _ _ _ _ t => some t
  | .answered _ _ => none

/-- Time does not go back from one event to a later one. -/
def Ordered (es : List Event) : Prop :=
  es.Pairwise fun a b => ∀ t ∈ time a, ∀ t' ∈ time b, t ≤ t'

theorem wakes_now (hw : wakes providers e = some (h, now)) : time e = some now := by
  unfold wakes at hw
  split at hw
  · split at hw
    · split at hw
      · cases hw
        rfl
      · cases hw
    · cases hw
  · cases hw

theorem recent_iff : entry.recent now = true ↔ ∃ last, entry.lastSent = some last ∧
    now - last < collapse := by
  unfold Entry.recent
  rw [Option.any_eq_true]
  simp

/-- A wake that finds an entry releases a push, or the last one is recent. -/
theorem released_of_wake (hw : wakes providers e = some (h, now))
    (hl : p.store.entries.lookup h = some entry) :
    entry.recent now = true ∨ ∃ delivery, released providers p e = some (h, now, delivery) := by
  unfold released
  rw [hw]
  rcases takeWake_cases p.store h now with ⟨-, hr⟩ | ⟨entry', -, -, ht⟩
  · exact Or.inl (hr entry hl)
  · right
    simp only [Option.bind_some, ht, Option.map_some]
    exact ⟨_, rfl⟩

/-- After a push the entry knows its time. -/
theorem released_lookup (hs : step providers p e = some p')
    (hrel : released providers p e = some (h, now, delivery)) :
    ∃ entry, p'.store.entries.lookup h = some entry ∧ entry.lastSent = some now := by
  cases move_of_step hs with
  | registered handle platform token _ hnone => cases hnone.symm.trans hrel
  | unregistered handle _ hnone => cases hnone.symm.trans hrel
  | woken handle now' entry _ _ _ _ hsome =>
    obtain ⟨rfl, hrest⟩ := Prod.mk.inj (Option.some.inj (hsome.symm.trans hrel))
    obtain ⟨rfl, -⟩ := Prod.mk.inj hrest
    exact ⟨_, AList.lookup_insert _, rfl⟩
  | failed delivery' entry _ _ hnone => cases hnone.symm.trans hrel
  | still deliveries _ _ hnone => cases hnone.symm.trans hrel

/-- An entry that stands after an event has its time from before, or from a push of it. -/
theorem lastSent_back (hs : step providers p e = some p')
    (hl : p'.store.entries.lookup h = some entry) (hlast : entry.lastSent = some last) :
    (∃ old, p.store.entries.lookup h = some old ∧ old.lastSent = some last) ∨
      ∃ delivery, released providers p e = some (h, last, delivery) := by
  rcases entry_back (move_of_step hs) hl with
    ⟨old, hold, -, hsame | ⟨now, delivery, hrel, hnow⟩⟩ | ⟨platform, token, -, rfl⟩
  · exact Or.inl ⟨old, hold, hsame.symm.trans hlast⟩
  · obtain rfl := Option.some.inj (hnow.symm.trans hlast)
    exact Or.inr ⟨delivery, hrel⟩
  · exact Or.inl (Option.bind_eq_some_iff.mp hlast)

/-- The push whose time an entry carries lies in the run. -/
theorem lastSent_source (hr : run (step providers) p es = some p')
    (hnone : p.store.entries.lookup h = none)
    (hl : p'.store.entries.lookup h = some entry) (hlast : entry.lastSent = some last) :
    ∃ q f q' delivery, Occurs (step providers) p es q f q' ∧
      released providers q f = some (h, last, delivery) := by
  induction es using List.reverseRecOn generalizing p' entry with
  | nil =>
    cases hr
    cases hnone.symm.trans hl
  | append_singleton es f ih =>
    obtain ⟨q, hq, hf⟩ := run_snoc_inv hr
    rcases lastSent_back hf hl hlast with ⟨old, hold, hlast'⟩ | ⟨delivery, hrel⟩
    · obtain ⟨q₁, f₁, q₂, delivery, ⟨pre, post, hes, hpre, hstep⟩, hrel⟩ := ih hq hold hlast'
      exact ⟨q₁, f₁, q₂, delivery, ⟨pre, post ++ [f], by simp [hes], hpre, hstep⟩, hrel⟩
    · exact ⟨q, f, p', delivery, occurs_last hq hf, hrel⟩

/-- While the entry stands, its time does not fall behind a push before. -/
theorem lastSent_kept (hs : step providers p e = some p') (hnow : ∀ t ∈ time e, now ≤ t)
    (hold : ∃ old, p.store.entries.lookup h = some old ∧ ∃ t, old.lastSent = some t ∧ now ≤ t)
    (hl : p'.store.entries.lookup h = some entry) :
    ∃ t, entry.lastSent = some t ∧ now ≤ t := by
  obtain ⟨old, hold, t, ht, hle⟩ := hold
  rcases entry_back (move_of_step hs) hl with
    ⟨old', hold', -, hsame | ⟨t', delivery, hrel, ht'⟩⟩ | ⟨platform, token, -, rfl⟩
  · obtain rfl := Option.some.inj (hold.symm.trans hold')
    exact ⟨t, hsame.trans ht, hle⟩
  · refine ⟨t', ht', hnow t' ?_⟩
    exact wakes_now (released_delivery hrel).1
  · refine ⟨t, ?_, hle⟩
    show (p.store.entries.lookup h).bind Entry.lastSent = some t
    rw [hold]
    exact ht

/-- An entry that stands in all of a run after a push knows a push from then on. -/
theorem lastSent_run (hr : run (step providers) p mid = some u)
    (hthere : ∀ q, Visits (step providers) p mid q → (q.store.entries.lookup h).isSome)
    (hnow : ∀ e ∈ mid, ∀ t ∈ time e, now ≤ t)
    (hold : ∃ old, p.store.entries.lookup h = some old ∧ ∃ t, old.lastSent = some t ∧ now ≤ t) :
    ∃ entry, u.store.entries.lookup h = some entry ∧ ∃ t, entry.lastSent = some t ∧ now ≤ t := by
  refine visits_invariant (fun q => ∃ entry, q.store.entries.lookup h = some entry ∧
    ∃ t, entry.lastSent = some t ∧ now ≤ t) hold ?_ (visits_end hr)
  intro q e q' hq ho
  obtain ⟨entry, hl⟩ := Option.isSome_iff_exists.mp (hthere q' ho.after)
  have hmem : e ∈ mid := by
    obtain ⟨pre, post, rfl, -, -⟩ := ho
    exact List.mem_append_right pre List.mem_cons_self
  exact ⟨entry, hl, lastSent_kept ho.step_eq (hnow e hmem) hq hl⟩

theorem Ordered.follows (ho : Ordered es) (hf : Follows (step providers) .start es p e p' mid u f v) :
    (∀ g ∈ mid, ∀ t ∈ time e, ∀ t' ∈ time g, t ≤ t') ∧
      ∀ g ∈ mid, ∀ t ∈ time g, ∀ t' ∈ time f, t ≤ t' := by
  obtain ⟨pre, post, rfl, -, -, -, -⟩ := hf
  have htail := (List.pairwise_append.mp ho).2.1
  rw [List.pairwise_cons] at htail
  refine ⟨fun g hg => htail.1 g (List.mem_append_left _ hg), fun g hg => ?_⟩
  exact (List.pairwise_append.mp htail.2).2.2 g hg f List.mem_cons_self

/-- Any two pushes of one handle are thirty seconds apart. -/
def Spaced (providers : Providers) (es : List Event) : Prop :=
  ∀ p e p' mid u f v h t t' delivery delivery',
    Follows (step providers) .start es p e p' mid u f v →
    released providers p e = some (h, t, delivery) →
    released providers u f = some (h, t', delivery') → t + collapse ≤ t'

/-- A wake within thirty seconds of a push of the handle finds no entry that was made
after the one of that push was gone. -/
def NoReturn (providers : Providers) (es : List Event) : Prop :=
  ∀ p e p' mid u f v h t t' delivery,
    Follows (step providers) .start es p e p' mid u f v →
    released providers p e = some (h, t, delivery) → wakes providers f = some (h, t') →
    t' < t + collapse → (u.store.entries.lookup h).isSome →
    ∀ q, Visits (step providers) p' mid q → (q.store.entries.lookup h).isSome

theorem spaced_of_noReturn (ho : Ordered es) (hn : NoReturn providers es) : Spaced providers es := by
  intro p e p' mid u f v h t t' delivery delivery' hf hrel hrel'
  by_contra hclose
  obtain ⟨hw, -⟩ := released_delivery hrel
  obtain ⟨hw', -, entry, hl, hrecent, -⟩ := released_delivery hrel'
  have hthere := hn p e p' mid u f v h t t' delivery hf hrel hw' (by omega) (by rw [hl]; rfl)
  obtain ⟨-, -, -, -, hs, hmid, -⟩ := id hf
  obtain ⟨entry', hl', hlast⟩ := released_lookup hs hrel
  obtain ⟨entry'', hl'', last, hlast'', hle⟩ := lastSent_run hmid hthere
    (fun g hg => (ho.follows hf).1 g hg t (wakes_now hw)) ⟨entry', hl', t, hlast, Nat.le_refl t⟩
  obtain rfl := Option.some.inj (hl.symm.trans hl'')
  have hpos : 0 < collapse := by decide
  have hnow : entry.recent t' = true := (recent_iff).mpr ⟨last, hlast'', by omega⟩
  rw [hrecent] at hnow
  cases hnow

theorem noReturn_of_spaced (ho : Ordered es) (hs : Spaced providers es) : NoReturn providers es := by
  intro p e p' mid u f v h t t' delivery hf hrel hw' hclose hthere q hq
  by_contra hgone
  have hnone : q.store.entries.lookup h = none := by simpa using hgone
  obtain ⟨entry, hl⟩ := Option.isSome_iff_exists.mp hthere
  rcases released_of_wake hw' hl with hrecent | ⟨delivery', hrel'⟩
  · -- The push that makes the wake too early came after the entry was gone.
    obtain ⟨last, hlast, hlt⟩ := (recent_iff).mp hrecent
    obtain ⟨pre, post, hes, hpre, he, hmid, hstep⟩ := id hf
    obtain ⟨mid₁, mid₂, rfl, hq⟩ := hq
    have hrest : run (step providers) q mid₂ = some u := by
      rw [run_append, hq] at hmid
      exact hmid
    obtain ⟨r, g, r', delivery', ⟨pre', post', rfl, hpre', hg⟩, hrel'⟩ :=
      lastSent_source hrest hnone hl hlast
    have hfirst : Follows (step providers) .start es p e p' (mid₁ ++ pre') r g r' := by
      refine ⟨pre, post' ++ f :: post, by simp [hes], hpre, he, ?_, hg⟩
      rw [run_append, hq]
      exact hpre'
    have hspace := hs _ _ _ _ _ _ _ h t last delivery delivery' hfirst hrel hrel'
    have hmem : g ∈ mid₁ ++ (pre' ++ g :: post') := by simp
    have hle := (ho.follows hf).2 g hmem last (wakes_now (released_delivery hrel').1) t'
      (wakes_now hw')
    omega
  · have hspace := hs p e p' mid u f v h t t' delivery delivery' hf hrel hrel'
    omega

/-- Pushes are spaced in exactly the runs in which no entry comes back too early. -/
theorem spaced_iff_noReturn (providers : Providers) (es : List Event) (ho : Ordered es) :
    Spaced providers es ↔ NoReturn providers es :=
  ⟨noReturn_of_spaced ho, spaced_of_noReturn ho⟩

theorem spaced_iff_noReturn_twice :
    Spaced both [registerOf 1, wakeOf 1 0, registerOf 1, wakeOf 1 (30 * second)] ↔
      NoReturn both [registerOf 1, wakeOf 1 0, registerOf 1, wakeOf 1 (30 * second)] := by
  refine spaced_iff_noReturn both _ ?_
  simp [Ordered, time, registerOf, wakeOf]

/-- A Device that unregisters and registers again gets two pushes in one second. -/
theorem early_push : ¬Spaced both
    [registerOf 1, wakeOf 1 0, unregisterOf 1, registerOf 1, wakeOf 1 second] := by
  intro hs
  have hfollows : Follows (step both) .start
      [registerOf 1, wakeOf 1 0, unregisterOf 1, registerOf 1, wakeOf 1 second]
      _ (wakeOf 1 0) _ [unregisterOf 1, registerOf 1] _ (wakeOf 1 second) _ :=
    ⟨[registerOf 1], [], rfl, rfl, rfl, rfl, rfl⟩
  have hspace := hs _ _ _ _ _ _ _ 1 0 second ⟨1, .ios, "t", 1⟩ ⟨1, .ios, "t", 2⟩ hfollows rfl rfl
  exact absurd hspace (by decide)

end HerdrMobile.Hub.Collapse
