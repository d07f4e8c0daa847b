import HerdrMobile.App.Keystore

/-!
# What a failed toggle leaves

One call to the platform fails at most. The values survive wherever it does, and so does the
protection, but for a few ways that the last theorem names.
-/
namespace HerdrMobile.App.Retoggle

open HerdrMobile.Lib HerdrMobile.Lib.Strings HerdrMobile.App.Keystore

set_option autoImplicit false

variable {fault : Option Fault} {keepsFlags : Bool} {d t : Device}

theorem faultAt_ne {failed : Fault} {site : Site} (h : failed.site ≠ site) :
    faultAt (some failed) site = none := by
  rw [faultAt, Option.filter_some, if_neg (by simpa using h)]

@[simp] theorem set_entries_self (key : Text) (entry : Option Entry) :
    (d.set key entry).entries key = entry := if_pos rfl

theorem set_entries_ne {key other : Text} (entry : Option Entry) (h : other ≠ key) :
    (d.set key entry).entries other = d.entries other := if_neg h

@[simp] theorem set_set (key : Text) (entry other : Option Entry) :
    (d.set key entry).set key other = d.set key other := by
  simp only [Device.set, Device.mk.injEq, and_true]
  funext k
  split <;> rfl

theorem set_same {key : Text} {entry : Option Entry} (h : d.entries key = entry) :
    d.set key entry = d := by
  obtain ⟨entries⟩ := d
  simp only [Device.set, Device.mk.injEq, and_true]
  funext k
  split
  · rename_i hk
    rw [hk]
    exact h.symm
  · rfl

theorem invoke_ok {site : Site} {effect : Device → Device} (h : faultAt fault site = none) :
    (invoke fault site effect).run d = (effect d, some ()) := by
  rw [invoke, h]

theorem invoke_fails {site : Site} {effect : Device → Device} {failed : Fault}
    (h : faultAt fault site = some failed) :
    (invoke fault site effect).run d = (if failed.done then effect d else d, none) := by
  rw [invoke, h]

theorem read_ok {site : Site} {storage : FlutterSecureStorage} {key : Text}
    (h : faultAt fault site = none) :
    (Keystore.read fault site storage key).run d = (d, some (d.value key)) := by
  rw [Keystore.read, Attempt.bind_some (invoke_ok h)]
  rfl

theorem read_fails {site : Site} {storage : FlutterSecureStorage} {key : Text} {failed : Fault}
    (h : faultAt fault site = some failed) :
    (Keystore.read fault site storage key).run d = (d, none) := by
  have hinvoke : (invoke fault site id).run d = (d, none) := by
    rw [invoke_fails h]
    cases failed.done <;> rfl
  rw [Keystore.read, Attempt.bind_none hinvoke]

/-- A delete and a write, as a move and a recovery do them. -/
def swap (fault : Option Fault) (keepsFlags : Bool) (deletes writes : Site) (key value : Text)
    (storage : FlutterSecureStorage) : Attempt Device Unit := do
  delete fault deletes storage key
  write fault keepsFlags writes storage key value

theorem swap_ok {deletes writes : Site} {key value : Text} {storage : FlutterSecureStorage}
    (hd : faultAt fault deletes = none) (hw : faultAt fault writes = none) :
    (swap fault keepsFlags deletes writes key value storage).run d =
      (d.set key (some { value, protection := storage }), some ()) := by
  have hdelete : (delete fault deletes storage key).run d = (d.set key none, some ()) :=
    invoke_ok hd
  rw [swap, Attempt.bind_some hdelete, write, invoke_ok hw, set_entries_self, set_set]

/-- A swap that fails leaves anything under its key, and nothing else different. -/
theorem swap_fails {deletes writes : Site} {key value : Text} {storage : FlutterSecureStorage}
    (h : faultAt fault deletes ≠ none ∨ faultAt fault writes ≠ none) :
    ∃ entry, (swap fault keepsFlags deletes writes key value storage).run d =
      (d.set key entry, none) := by
  cases hd : faultAt fault deletes with
  | some failed =>
    have hdelete : (delete fault deletes storage key).run d =
        (if failed.done then d.set key none else d, none) := invoke_fails hd
    rw [swap, Attempt.bind_none hdelete]
    cases failed.done with
    | true => exact ⟨none, rfl⟩
    | false => exact ⟨_, by rw [set_same rfl]; rfl⟩
  | none =>
    have hdelete : (delete fault deletes storage key).run d = (d.set key none, some ()) :=
      invoke_ok hd
    rw [swap, Attempt.bind_some hdelete]
    cases hw : faultAt fault writes with
    | none =>
      obtain h | h := h
      · exact absurd hd h
      · exact absurd hw h
    | some failed =>
      rw [write, invoke_fails hw, set_entries_self, set_set]
      cases failed.done with
      | true => exact ⟨_, rfl⟩
      | false => exact ⟨none, rfl⟩

/-- Only the protection of records may differ. -/
structure Moved (d t : Device) : Prop where
  rest : t = { d with entries := t.entries }
  value : ∀ key, t.value key = d.value key
  deviceKey : t.entries privateKeyStorageKey = d.entries privateKeyStorageKey

theorem Moved.refl (d : Device) : Moved d d := ⟨rfl, fun _ => rfl, rfl⟩

theorem Moved.trans {u : Device} (h : Moved d t) (h' : Moved t u) : Moved d u := by
  refine ⟨?_, fun key => (h'.value key).trans (h.value key), h'.deviceKey.trans h.deviceKey⟩
  have hu := h'.rest
  rw [h.rest] at hu
  exact hu

theorem moved_set {key : Text} {entry : Entry} (hkey : key ≠ privateKeyStorageKey)
    (h : d.entries key = some entry) (protection : Protection) :
    Moved d (d.set key (some { value := entry.value, protection })) := by
  refine ⟨rfl, ?_, set_entries_ne _ (Ne.symm hkey)⟩
  intro k
  by_cases hk : k = key
  · rw [hk, Device.value, Device.value, set_entries_self, h]
    rfl
  · rw [Device.value, Device.value, set_entries_ne _ hk]

/-- Where one call fails, no other does. -/
theorem faultAt_of_ne {site other : Site} {failed : Fault}
    (h : faultAt fault other = some failed) (hne : other ≠ site) : faultAt fault site = none := by
  rw [faultAt, Option.filter_eq_some_iff] at h
  rw [h.1]
  apply faultAt_ne
  intro heq
  exact hne ((of_decide_eq_true h.2).symm.trans heq)

theorem move_spec (i : Nat) {key : Text} (hkey : key ≠ privateKeyStorageKey)
    (storage : FlutterSecureStorage) (d : Device) :
    ∃ t, Moved d t ∧ (move fault keepsFlags i key storage .plain).run d =
      (t, if faultAt fault (.record i .read) = none ∧ (d.entries key = none ∨
          faultAt fault (.record i .delete) = none ∧ faultAt fault (.record i .write) = none)
        then some () else none) := by
  cases hread : faultAt fault (.record i .read) with
  | some failed =>
    refine ⟨d, Moved.refl d, ?_⟩
    rw [move, Attempt.bind_none (read_fails hread), if_neg (by simp)]
  | none =>
    rw [move, Attempt.bind_some (read_ok hread)]
    cases hentry : d.entries key with
    | none =>
      refine ⟨d, Moved.refl d, ?_⟩
      rw [Device.value, hentry, if_pos ⟨rfl, .inl rfl⟩]
      rfl
    | some entry =>
      have hvalue : d.value key = some entry.value := by
        rw [Device.value, hentry]
        rfl
      rw [hvalue]
      show ∃ t, Moved d t ∧ (Attempt.catching
        (swap fault keepsFlags (.record i .delete) (.record i .write) key entry.value .plain)
          _).run d = _
      by_cases hok : faultAt fault (.record i .delete) = none ∧
          faultAt fault (.record i .write) = none
      · refine ⟨_, moved_set hkey hentry .plain, ?_⟩
        rw [Attempt.catching_some (swap_ok hok.1 hok.2), if_pos ⟨rfl, .inr hok⟩]
      · have hfail : faultAt fault (.record i .delete) ≠ none ∨
            faultAt fault (.record i .write) ≠ none := by
          by_contra hnot
          simp only [not_or, not_not] at hnot
          exact hok hnot
        obtain ⟨left, hswap⟩ := (@swap_fails _ keepsFlags d _ _ key entry.value .plain) hfail
        -- what restores the record is no failing call
        have hback : ∀ op, faultAt fault (.restoreRecord i op) = none := by
          intro op
          obtain hf | hf := hfail
          · obtain ⟨failed, hf⟩ := Option.ne_none_iff_exists'.mp hf
            exact faultAt_of_ne hf nofun
          · obtain ⟨failed, hf⟩ := Option.ne_none_iff_exists'.mp hf
            exact faultAt_of_ne hf nofun
        have hrestore : (restoreValue fault keepsFlags (.restoreRecord i) key entry.value .plain
            storage).run (d.set key left) =
              (d.set key (some { value := entry.value, protection := storage }), some ()) := by
          show (swap fault keepsFlags _ _ key entry.value storage).run _ = _
          rw [swap_ok (hback .delete) (hback .write), set_set]
        refine ⟨_, moved_set hkey hentry storage, ?_⟩
        rw [Attempt.catching_none hswap, Attempt.bind_some hrestore, if_neg (by simp [hok])]
        rfl

/-- The failing call is one of those that move a record that is there, or read one. -/
def recordFails (fault : Option Fault) (entries : Text → Option Entry) : Nat → List Text → Prop
  | _, [] => False
  | i, key :: keys =>
    ¬(faultAt fault (.record i .read) = none ∧ (entries key = none ∨
      faultAt fault (.record i .delete) = none ∧ faultAt fault (.record i .write) = none)) ∨
    recordFails fault entries (i + 1) keys

instance decidableRecordFails (fault : Option Fault) (entries : Text → Option Entry) :
    (i : Nat) → (keys : List Text) → Decidable (recordFails fault entries i keys)
  | _, [] => instDecidableFalse
  | i, _ :: keys =>
    have := decidableRecordFails fault entries (i + 1) keys
    inferInstanceAs (Decidable (_ ∨ _))

theorem Moved.present (h : Moved d t) (key : Text) :
    t.entries key = none ↔ d.entries key = none := by
  have hvalue := h.value key
  rw [Device.value, Device.value] at hvalue
  rw [← Option.map_eq_none_iff (f := Entry.value), hvalue, Option.map_eq_none_iff]

theorem recordFails_moved (h : Moved d t) (i : Nat) (keys : List Text) :
    recordFails fault t.entries i keys ↔ recordFails fault d.entries i keys := by
  induction keys generalizing i with
  | nil => exact Iff.rfl
  | cons key keys ih => rw [recordFails, recordFails, h.present key, ih]

theorem moveAll_spec {keys : List Text} (hkeys : ∀ key ∈ keys, key ≠ privateKeyStorageKey) (i : Nat)
    (d : Device) :
    ∃ t, Moved d t ∧ (moveAll fault keepsFlags i keys).run d =
      (t, if recordFails fault d.entries i keys then none else some ()) := by
  induction keys generalizing i d with
  | nil => exact ⟨d, Moved.refl d, rfl⟩
  | cons key keys ih =>
    have hrest : ∀ key ∈ keys, key ≠ privateKeyStorageKey := fun k hk =>
      hkeys k (List.mem_cons_of_mem _ hk)
    obtain ⟨u, hu, hmove⟩ := (@move_spec fault keepsFlags) i
      (hkeys key List.mem_cons_self) d.gated d
    rw [moveAll, Attempt.run_get_bind]
    split at hmove
    · rename_i hok
      obtain ⟨t, ht, hall⟩ := ih hrest (i + 1) u
      refine ⟨t, hu.trans ht, ?_⟩
      rw [Attempt.bind_some hmove, hall]
      have hiff : recordFails fault d.entries i (key :: keys) ↔
          recordFails fault u.entries (i + 1) keys := by
        rw [recordFails, recordFails_moved hu, or_iff_right (not_not_intro hok)]
      simp only [hiff]
    · rename_i hnot
      refine ⟨u, hu, ?_⟩
      rw [Attempt.bind_none hmove,
        if_pos (show recordFails fault d.entries i (key :: keys) from .inl hnot)]

theorem recordKeys_ne {hostIds : List Text} : ∀ key ∈ recordKeys hostIds,
    key ≠ privateKeyStorageKey := by
  intro key hkey heq
  obtain ⟨hostId, _, hmem⟩ := List.mem_flatMap.mp hkey
  simp only [List.mem_cons, List.not_mem_nil, or_false] at hmem
  have hhead : key.head? = some 'h' := by
    obtain rfl | rfl | rfl := hmem <;> rfl
  rw [heq] at hhead
  exact absurd hhead (by decide)

/-- What a change of the device key leaves. -/
structure Leaves (u v : Device) (entry : Entry) (policy : Bool) : Prop where
  entries : v.entries = (u.set privateKeyStorageKey (some entry)).entries
  policy : v.policy = policy
  failure : v.protectionFailure = u.protectionFailure

theorem persistAppLock_ok {site : Site} {value : Bool} (h : faultAt fault site = none) :
    (persistAppLock fault site value).run d = ({ d with policy := value }, some true) := by
  simp only [persistAppLock, h]

theorem persistAppLock_fails {site : Site} {value : Bool} {failed : Fault}
    (h : faultAt fault site = some failed) :
    (persistAppLock fault site value).run d =
      (if failed.done then { d with policy := value } else d,
        if failed.throws then none else some false) := by
  simp only [persistAppLock, h]

theorem restoreDeviceKey_ok {seed : Text} {newGated : FlutterSecureStorage}
    (hkey : ∀ op, faultAt fault (.restoreKey op) = none) :
    (restoreDeviceKey fault keepsFlags seed newGated).run d =
      (d.set privateKeyStorageKey (some { value := seed, protection := d.gated }), some true) := by
  have hvalue : (restoreValue fault keepsFlags .restoreKey privateKeyStorageKey seed newGated
      d.gated).run d =
        (d.set privateKeyStorageKey (some { value := seed, protection := d.gated }), some ()) := by
    show (swap fault keepsFlags (.restoreKey .delete) (.restoreKey .write) privateKeyStorageKey seed
      d.gated).run d = _
    exact swap_ok (hkey .delete) (hkey .write)
  rw [restoreDeviceKey]
  apply Attempt.catching_some
  rw [Attempt.run_get_bind, Attempt.bind_some hvalue]
  rfl

/-- The off policy is saved again, where an on policy may have been. -/
theorem takeBackOnPolicy_ok (hback : faultAt fault .persistBack = none) :
    (takeBackOnPolicy fault).run d =
      (if d.onPolicyAttempted then { d with policy := false } else d, some true) := by
  rw [takeBackOnPolicy, Attempt.run_get_bind]
  by_cases hon : d.onPolicyAttempted = true
  · rw [if_pos hon, if_pos hon, Attempt.catching_some (persistAppLock_ok hback)]
  · rw [if_neg hon, if_neg hon]
    rfl

/-- The on policy is saved again, where an off policy has been. -/
theorem putBackOnPolicy_ok (hback : faultAt fault .persistBack = none) :
    (Attempt.catching
      (do
        if ← persistAppLock fault .persistBack true then
          Attempt.update fun d => { d with appLockEnabled := true })
      (Attempt.update fun d => { d with protectionFailure := true })).run d =
      ({ d with policy := true, appLockEnabled := true }, some ()) := by
  apply Attempt.catching_some
  rw [Attempt.bind_some (persistAppLock_ok hback)]
  rfl

/-- The recovery, where none of its calls fails. -/
theorem restore_ok {seed : Text} {newGated : FlutterSecureStorage}
    (hseed : d.deviceSeed = some seed) (hkey : ∀ op, faultAt fault (.restoreKey op) = none)
    (hback : faultAt fault .persistBack = none) :
    ∃ v, (restore fault keepsFlags newGated).run d = (v, some ()) ∧
      Leaves d v { value := seed, protection := d.gated }
        (d.offPolicyPersisted || (!d.onPolicyAttempted && d.policy)) := by
  rw [restore, Attempt.bind_some (takeBackOnPolicy_ok hback), if_pos rfl, Attempt.run_get_bind]
  generalize hu : (if d.onPolicyAttempted then { d with policy := false } else d) = u
  have hsame : u.entries = d.entries ∧ u.gated = d.gated ∧ u.deviceSeed = d.deviceSeed ∧
      u.offPolicyPersisted = d.offPolicyPersisted ∧
      u.protectionFailure = d.protectionFailure ∧
      u.policy = (!d.onPolicyAttempted && d.policy) := by
    rw [← hu]
    cases hon : d.onPolicyAttempted with
    | true => exact ⟨rfl, rfl, rfl, rfl, rfl, rfl⟩
    | false => exact ⟨rfl, rfl, rfl, rfl, rfl, rfl⟩
  obtain ⟨hentries, hgated, hu_seed, hoff, hfailure, hpolicy⟩ := hsame
  rw [hu_seed, hseed, Option.getD_some, Attempt.bind_some (restoreDeviceKey_ok hkey),
    Attempt.run_get_bind]
  have hset : (u.set privateKeyStorageKey
      (some { value := seed, protection := u.gated })).entries =
      (d.set privateKeyStorageKey (some { value := seed, protection := d.gated })).entries := by
    simp only [Device.set, hentries, hgated]
  by_cases hsaved : u.offPolicyPersisted = true
  · refine ⟨{ u.set privateKeyStorageKey (some { value := seed, protection := u.gated }) with
      policy := true, appLockEnabled := true }, ?_, hset, ?_, hfailure⟩
    · rw [if_pos ⟨rfl, hsaved⟩]
      exact putBackOnPolicy_ok hback
    · rw [← hoff, hsaved]
      rfl
  · refine ⟨u.set privateKeyStorageKey (some { value := seed, protection := u.gated }), ?_, hset,
      ?_, hfailure⟩
    · rw [if_neg (fun h => hsaved h.2)]
      rfl
    · rw [← hoff, Bool.eq_false_iff.mpr hsaved, Bool.false_or]
      exact hpolicy

/-- Before the key is touched. -/
structure Ready (u : Device) (seed : Text) : Prop where
  seed : u.deviceSeed = some seed
  touched : u.deviceKeyTouched = false
  off : u.offPolicyPersisted = false
  on : u.onPolicyAttempted = false

/-- The change of the key with what catches its exceptions. -/
def changeKey (fault : Option Fault) (keepsFlags appLockEnabled persists : Bool) (seed : Text) :
    Attempt Device Bool :=
  Attempt.catching (retoggleKey fault keepsFlags appLockEnabled persists seed)
    (recoverBody fault keepsFlags appLockEnabled)

section Key

variable {u : Device} {seed : Text} {appLockEnabled persists : Bool}

/-- The off policy is not saved, or is all the same, and nothing else happens. -/
theorem changeKey_persistOff {failed : Fault} (hready : Ready u seed)
    (hfault : faultAt fault .persist = some failed) :
    (changeKey fault keepsFlags false true seed).run u =
      (if failed.done then { u with policy := false } else u, some false) := by
  have hpersist := (@persistAppLock_fails _ u _ false) hfault
  have htouched : (if failed.done then { u with policy := false } else u).deviceKeyTouched =
      false := by
    cases failed.done <;> exact hready.touched
  generalize hv : (if failed.done then { u with policy := false } else u) = v at *
  cases hthrows : failed.throws with
  | true =>
    rw [hthrows] at hpersist
    have hbody : (retoggleKey fault keepsFlags false true seed).run u = (v, none) := by
      apply Attempt.bind_none
      exact Attempt.bind_none hpersist
    rw [changeKey, Attempt.catching_none hbody, recoverBody, Attempt.run_get_bind, htouched]
    rfl
  | false =>
    rw [hthrows] at hpersist
    have hoff : (persistOff fault false true).run u = (v, some false) :=
      Attempt.bind_some hpersist
    have hbody : (retoggleKey fault keepsFlags false true seed).run u = (v, some false) :=
      Attempt.bind_some hoff
    exact Attempt.catching_some hbody

/-- The off policy is saved where the call turns App Lock off. -/
theorem persistOff_ok (hfault : appLockEnabled = false → persists = true →
    faultAt fault .persist = none) :
    ∃ v, (persistOff fault appLockEnabled persists).run u = (v, some true) ∧
      v.entries = u.entries ∧ v.gated = u.gated ∧ v.protectionFailure = u.protectionFailure ∧
      v.deviceSeed = u.deviceSeed ∧ v.onPolicyAttempted = u.onPolicyAttempted ∧
      v.policy = (if !appLockEnabled && persists then false else u.policy) ∧
      v.offPolicyPersisted = (u.offPolicyPersisted || (!appLockEnabled && persists)) := by
  cases hon : !appLockEnabled && persists with
  | true =>
    simp only [Bool.and_eq_true, Bool.not_eq_true'] at hon
    have hpersist := (@persistAppLock_ok _ u _ false) (hfault hon.1 hon.2)
    refine ⟨{ u with policy := false, offPolicyPersisted := true, appLockEnabled := false }, ?_,
      rfl, rfl, rfl, rfl, rfl, rfl, ?_⟩
    · rw [persistOff, hon.1, hon.2]
      exact Attempt.bind_some hpersist
    · exact (Bool.or_true _).symm
  | false =>
    refine ⟨u, ?_, rfl, rfl, rfl, rfl, rfl, rfl, (Bool.or_false _).symm⟩
    rw [persistOff, hon]
    rfl

/-- The change of the key up to its swap, whatever comes of that. -/
theorem retoggleKey_swap (hready : Ready u seed)
    (hfault : appLockEnabled = false → persists = true → faultAt fault .persist = none) :
    ∃ v, (retoggleKey fault keepsFlags appLockEnabled persists seed).run u =
        (swap fault keepsFlags (.deviceKey .delete) (.deviceKey .write) privateKeyStorageKey seed
          (storageFor appLockEnabled) >>= fun _ => do
            if ← persistOn fault appLockEnabled persists then
              Attempt.update fun d =>
                { d with gated := storageFor appLockEnabled, appLockEnabled }
              return true
            else
              restore fault keepsFlags (storageFor appLockEnabled)
              return false).run v ∧
      v.entries = u.entries ∧ v.gated = u.gated ∧ v.protectionFailure = u.protectionFailure ∧
      v.deviceSeed = some seed ∧ v.deviceKeyTouched = true ∧ v.onPolicyAttempted = false ∧
      v.policy = (if !appLockEnabled && persists then false else u.policy) ∧
      v.offPolicyPersisted = (!appLockEnabled && persists) := by
  obtain ⟨v, hrun, hentries, hgated, hfailure, hseed, hon, hpolicy, hoff⟩ :=
    persistOff_ok (u := u) hfault
  refine ⟨{ v with deviceKeyTouched := true }, ?_, hentries, hgated, hfailure,
    hseed.trans hready.seed, rfl, hon.trans hready.on, hpolicy, ?_⟩
  · rw [swap, Attempt.run_bind_assoc, retoggleKey, Attempt.bind_some hrun]
    rfl
  · rw [hready.off, Bool.false_or] at hoff
    exact hoff

/-- The recovery of a key that has been touched, as it ends the call. -/
theorem recover_touched {w : Device} (hseed : w.deviceSeed = some seed)
    (hkey : ∀ op, faultAt fault (.restoreKey op) = none)
    (hback : faultAt fault .persistBack = none) {newGated : FlutterSecureStorage} :
    ∃ v, (restore fault keepsFlags newGated >>= fun _ => pure false : Attempt Device Bool).run w =
        (v, some false) ∧
      Leaves w v { value := seed, protection := w.gated }
        (w.offPolicyPersisted || (!w.onPolicyAttempted && w.policy)) := by
  obtain ⟨v, hv, hleaves⟩ := (@restore_ok _ keepsFlags _ _ newGated) hseed hkey
    hback
  refine ⟨v, ?_, hleaves⟩
  rw [Attempt.bind_some hv]
  rfl

/-- What is left over another content of the key is left over the old one. -/
theorem Leaves.over {w v : Device} {left : Option Entry} {entry : Entry} {policy : Bool}
    (h : Leaves (w.set privateKeyStorageKey left) v entry policy) (hentries : w.entries = u.entries)
    (hfailure : w.protectionFailure = u.protectionFailure) : Leaves u v entry policy := by
  refine ⟨?_, h.policy, h.failure.trans hfailure⟩
  rw [h.entries, set_set]
  simp only [Device.set, hentries]

/-- The key is stored again as the storage of the service protects it. -/
theorem changeKey_swapFails (hready : Ready u seed)
    (hfault : faultAt fault (.deviceKey .delete) ≠ none ∨
      faultAt fault (.deviceKey .write) ≠ none) :
    ∃ v, (changeKey fault keepsFlags appLockEnabled persists seed).run u = (v, some false) ∧
      Leaves u v { value := seed, protection := u.gated }
        ((!appLockEnabled && persists) || u.policy) := by
  have hothers : ∀ site, (∀ op, Site.deviceKey op ≠ site) → faultAt fault site = none := by
    intro site hsite
    obtain hf | hf := hfault
    · obtain ⟨failed, hf⟩ := Option.ne_none_iff_exists'.mp hf
      exact faultAt_of_ne hf (hsite _)
    · obtain ⟨failed, hf⟩ := Option.ne_none_iff_exists'.mp hf
      exact faultAt_of_ne hf (hsite _)
  obtain ⟨w, hrun, hentries, hgated, hfailure, hseed, htouched, hon, hpolicy, hoff⟩ :=
    (@retoggleKey_swap fault keepsFlags _ _ appLockEnabled persists) hready
      fun _ _ => hothers .persist nofun
  obtain ⟨left, hswap⟩ := (@swap_fails _ keepsFlags w _ _ privateKeyStorageKey seed
    (storageFor appLockEnabled)) hfault
  have hbody : (retoggleKey fault keepsFlags appLockEnabled persists seed).run u =
      (w.set privateKeyStorageKey left, none) := by
    rw [hrun]
    exact Attempt.bind_none hswap
  obtain ⟨v, hv, hleaves⟩ := @recover_touched _ keepsFlags _ (w.set privateKeyStorageKey left) hseed
    (fun op => hothers _ nofun) (hothers _ nofun) (storageFor appLockEnabled)
  refine ⟨v, ?_, ?_⟩
  · rw [changeKey, Attempt.catching_none hbody, recoverBody, Attempt.run_get_bind]
    show (if w.deviceKeyTouched = true then _ else _ : Attempt Device Bool).run _ = _
    rw [htouched]
    exact hv
  · have hu := hleaves.over hentries hfailure
    refine ⟨?_, ?_, hu.failure⟩
    · rw [hu.entries]
      show (u.set privateKeyStorageKey (some { value := seed, protection := w.gated })).entries = _
      rw [hgated]
    · rw [hu.policy]
      show (w.offPolicyPersisted || (!w.onPolicyAttempted && w.policy)) = _
      rw [hoff, hon, hpolicy]
      cases !appLockEnabled && persists <;> rfl

/-- An on policy that is not saved, or is all the same, is taken back, and so is the key. -/
theorem changeKey_persistOn {failed : Fault} (hready : Ready u seed)
    (hfault : faultAt fault .persist = some failed) :
    ∃ v, (changeKey fault keepsFlags true true seed).run u = (v, some false) ∧
      Leaves u v { value := seed, protection := u.gated } false := by
  have hothers : ∀ site, Site.persist ≠ site → faultAt fault site = none := fun site hsite =>
    faultAt_of_ne hfault hsite
  obtain ⟨w, hrun, hentries, hgated, hfailure, hseed, htouched, hon, hpolicy, hoff⟩ :=
    (@retoggleKey_swap fault keepsFlags _ _ true true) hready nofun
  have hswap := (@swap_ok fault keepsFlags w _ _ privateKeyStorageKey seed (storageFor true))
    (hothers (.deviceKey .delete) nofun) (hothers (.deviceKey .write) nofun)
  rw [Attempt.bind_some hswap] at hrun
  generalize hx : w.set privateKeyStorageKey
    (some { value := seed, protection := storageFor true }) = x at hrun
  have hpersist := (@persistAppLock_fails _ { x with onPolicyAttempted := true } _ true)
    hfault
  generalize hy : (if failed.done then { { x with onPolicyAttempted := true } with policy := true }
    else { x with onPolicyAttempted := true }) = y at hpersist
  have hsame : y.entries = x.entries ∧ y.gated = w.gated ∧ y.deviceSeed = some seed ∧
      y.deviceKeyTouched = true ∧ y.offPolicyPersisted = false ∧ y.onPolicyAttempted = true ∧
      y.protectionFailure = w.protectionFailure := by
    rw [← hy, ← hx]
    cases failed.done <;> exact ⟨rfl, rfl, hseed, htouched, hoff, rfl, rfl⟩
  obtain ⟨hy_entries, hy_gated, hy_seed, hy_touched, hy_off, hy_on, hy_failure⟩ := hsame
  have hpersistOn : (persistOn fault true true).run x =
      (y, if failed.throws then none else some false) := hpersist
  obtain ⟨v, hv, hleaves⟩ := @recover_touched _ keepsFlags _ _ hy_seed (fun op => hothers _ nofun)
    (hothers _ nofun) (storageFor true)
  have hfinal : Leaves u v { value := seed, protection := u.gated } false := by
    refine ⟨?_, ?_, ?_⟩
    · rw [hleaves.entries]
      have hset :
          (y.set privateKeyStorageKey (some { value := seed, protection := y.gated })).entries =
            (x.set privateKeyStorageKey
              (some { value := seed, protection := y.gated })).entries := by
        simp only [Device.set, hy_entries]
      rw [hset, ← hx, set_set, hy_gated, hgated]
      simp only [Device.set, hentries]
    · rw [hleaves.policy, hy_off, hy_on]
      rfl
    · rw [hleaves.failure, hy_failure, hfailure]
  refine ⟨v, ?_, hfinal⟩
  cases hthrows : failed.throws with
  | true =>
    rw [hthrows] at hpersistOn
    have hbody : (retoggleKey fault keepsFlags true true seed).run u = (y, none) := by
      rw [hrun]
      exact Attempt.bind_none hpersistOn
    rw [changeKey, Attempt.catching_none hbody, recoverBody, Attempt.run_get_bind, hy_touched]
    exact hv
  | false =>
    rw [hthrows] at hpersistOn
    have hbody : (retoggleKey fault keepsFlags true true seed).run u = (v, some false) := by
      rw [hrun, Attempt.bind_some hpersistOn]
      exact hv
    exact Attempt.catching_some hbody

theorem changeKey_ok (hready : Ready u seed) (hdelete : faultAt fault (.deviceKey .delete) = none)
    (hwrite : faultAt fault (.deviceKey .write) = none)
    (hpersist : persists = true → faultAt fault .persist = none) :
    ∃ v, (changeKey fault keepsFlags appLockEnabled persists seed).run u = (v, some true) ∧
      Leaves u v { value := seed, protection := storageFor appLockEnabled }
        (if persists then appLockEnabled else u.policy) := by
  obtain ⟨w, hrun, hentries, hgated, hfailure, hseed, htouched, hon, hpolicy, hoff⟩ :=
    (@retoggleKey_swap fault keepsFlags _ _ appLockEnabled persists) hready fun _ => hpersist
  rw [Attempt.bind_some (swap_ok hdelete hwrite)] at hrun
  generalize hx : w.set privateKeyStorageKey
    (some { value := seed, protection := storageFor appLockEnabled }) = x at hrun
  have hx_entries : x.entries = (u.set privateKeyStorageKey
      (some { value := seed, protection := storageFor appLockEnabled })).entries := by
    rw [← hx]
    simp only [Device.set, hentries]
  have hx_policy : x.policy = (if !appLockEnabled && persists then false else u.policy) := by
    rw [← hx]
    exact hpolicy
  have hx_failure : x.protectionFailure = u.protectionFailure := by
    rw [← hx]
    exact hfailure
  have hpersistOn : ∃ y, (persistOn fault appLockEnabled persists).run x = (y, some true) ∧
      y.entries = x.entries ∧ y.protectionFailure = x.protectionFailure ∧
      y.policy = (if persists then appLockEnabled else u.policy) := by
    cases persists with
    | false =>
      refine ⟨x, ?_, rfl, rfl, ?_⟩
      · rw [persistOn, Bool.and_false]
        rfl
      · rw [hx_policy, Bool.and_false]
        rfl
    | true =>
      cases appLockEnabled with
      | false => exact ⟨x, rfl, rfl, rfl, hx_policy⟩
      | true =>
        exact ⟨_, persistAppLock_ok (d := { x with onPolicyAttempted := true }) (hpersist rfl), rfl,
          rfl, rfl⟩
  obtain ⟨y, hy, hy_entries, hy_failure, hy_policy⟩ := hpersistOn
  rw [Attempt.bind_some hy] at hrun
  refine ⟨{ y with gated := storageFor appLockEnabled, appLockEnabled }, ?_, ?_, hy_policy, ?_⟩
  · exact Attempt.catching_some hrun
  · exact hy_entries.trans hx_entries
  · exact hy_failure.trans hx_failure

end Key

/-- Beside the protection of records nothing that matters is different. -/
structure Unchanged (d v : Device) : Prop where
  value : ∀ key, v.value key = d.value key
  deviceKey : v.entries privateKeyStorageKey = d.entries privateKeyStorageKey
  policy : v.policy = d.policy
  gated : v.gated = d.gated
  failure : v.protectionFailure = d.protectionFailure

theorem Moved.unchanged (h : Moved d t) : Unchanged d t := by
  have hrest := h.rest
  constructor
  · exact h.value
  · exact h.deviceKey
  · rw [hrest]
  · rw [hrest]
  · rw [hrest]

/-- The call goes on to the device key, with its entry. -/
def Reaches (fault : Option Fault) (d : Device) (hostIds : List Text) (entry : Entry) : Prop :=
  faultAt fault (.deviceKey .read) = none ∧ d.entries privateKeyStorageKey = some entry ∧
    ¬recordFails fault d.entries 0 (recordKeys hostIds)

section Whole

variable {appLockEnabled persists : Bool} {hostIds : List Text}

/-- A running call, with its local variables as they start. -/
def begun (d : Device) : Device :=
  { d with
    retoggling := true, deviceSeed := none, deviceKeyTouched := false
    offPolicyPersisted := false, onPolicyAttempted := false }

def ended (d : Device) : Device := { d with retoggling := false }

/-- A call that changes the mode, by what its body comes to. -/
theorem retoggle_eq (hidle : d.retoggling = false) (hsafe : d.protectionFailure = false)
    (hmode : appLockEnabled ≠ d.appLockEnabled) {v : Device} {ok : Bool}
    (h : (Attempt.catching (retoggleBody fault keepsFlags appLockEnabled hostIds persists)
      (recoverBody fault keepsFlags appLockEnabled)).run (begun d) = (v, some ok)) :
    (retoggleProtection fault keepsFlags appLockEnabled hostIds persists).run d =
      (ended v, some ok) := by
  rw [retoggleProtection, Attempt.run_get_bind, hidle, hsafe, if_neg (by decide), if_neg hmode,
    Attempt.run_update_bind]
  exact Attempt.bind_some h

/-- A body that throws before the key is touched. -/
theorem body_throws {u : Device} (htouched : u.deviceKeyTouched = false)
    (h : (retoggleBody fault keepsFlags appLockEnabled hostIds persists).run (begun d) =
      (u, none)) :
    (Attempt.catching (retoggleBody fault keepsFlags appLockEnabled hostIds persists)
      (recoverBody fault keepsFlags appLockEnabled)).run (begun d) = (u, some false) := by
  rw [Attempt.catching_none h, recoverBody, Attempt.run_get_bind, htouched]
  rfl

/-- The body, once it has read the seed. -/
theorem retoggleBody_read (hread : faultAt fault (.deviceKey .read) = none) :
    (retoggleBody fault keepsFlags appLockEnabled hostIds persists).run (begun d) =
      (match d.value privateKeyStorageKey with
      | none => pure false
      | some seed => do
        moveAll fault keepsFlags 0 (recordKeys hostIds)
        retoggleKey fault keepsFlags appLockEnabled persists seed : Attempt Device Bool).run
        { begun d with deviceSeed := d.value privateKeyStorageKey } := by
  rw [retoggleBody, Attempt.run_get_bind, Attempt.bind_some (read_ok hread),
    Attempt.run_update_bind]
  rfl

theorem retoggle_spec (hidle : d.retoggling = false) (hsafe : d.protectionFailure = false)
    (hmode : appLockEnabled ≠ d.appLockEnabled) :
    (∃ v, (retoggleProtection fault keepsFlags appLockEnabled hostIds persists).run d =
        (ended v, some false) ∧ Unchanged d v ∧ ∀ entry, ¬Reaches fault d hostIds entry) ∨
      ∃ entry u, Reaches fault d hostIds entry ∧ Unchanged d u ∧ Ready u entry.value ∧
        ∀ v ok, (changeKey fault keepsFlags appLockEnabled persists entry.value).run u =
            (v, some ok) →
          (retoggleProtection fault keepsFlags appLockEnabled hostIds persists).run d =
            (ended v, some ok) := by
  cases hread : faultAt fault (.deviceKey .read) with
  | some failed =>
    left
    refine ⟨begun d, ?_, ⟨fun _ => rfl, rfl, rfl, rfl, rfl⟩, ?_⟩
    · apply retoggle_eq hidle hsafe hmode
      apply body_throws rfl
      rw [retoggleBody, Attempt.run_get_bind]
      exact Attempt.bind_none (read_fails hread)
    · intro entry h
      cases hread.symm.trans h.1
  | none =>
    have hbody := (@retoggleBody_read _ keepsFlags d appLockEnabled persists hostIds) hread
    cases hentry : d.entries privateKeyStorageKey with
    | none =>
      left
      have hvalue : d.value privateKeyStorageKey = none := by
        rw [Device.value, hentry]
        rfl
      rw [hvalue] at hbody
      refine ⟨{ begun d with deviceSeed := none }, ?_, ⟨fun _ => rfl, rfl, rfl, rfl, rfl⟩, ?_⟩
      · apply retoggle_eq hidle hsafe hmode
        exact Attempt.catching_some hbody
      · intro entry h
        cases hentry.symm.trans h.2.1
    | some entry =>
      have hvalue : d.value privateKeyStorageKey = some entry.value := by
        rw [Device.value, hentry]
        rfl
      rw [hvalue] at hbody
      obtain ⟨u, hmoved, hall⟩ := (@moveAll_spec fault keepsFlags)
        (@recordKeys_ne hostIds) 0 { begun d with deviceSeed := some entry.value }
      have hunchanged : Unchanged d u := by
        obtain ⟨hv, hk, hp, hg, hf⟩ := hmoved.unchanged
        exact ⟨hv, hk, hp, hg, hf⟩
      have hrest := hmoved.rest
      by_cases hfails : recordFails fault d.entries 0 (recordKeys hostIds)
      · left
        refine ⟨u, ?_, hunchanged, fun _ h => h.2.2 hfails⟩
        apply retoggle_eq hidle hsafe hmode
        apply body_throws
        · rw [hrest]
          rfl
        · rw [hbody]
          exact Attempt.bind_none (hall.trans (by rw [if_pos]; exact hfails))
      · right
        have hready : Ready u entry.value := by
          rw [hrest]
          exact ⟨rfl, rfl, rfl, rfl⟩
        refine ⟨entry, u, ⟨hread, hentry, hfails⟩, hunchanged, hready, ?_⟩
        intro v ok hkey
        apply retoggle_eq hidle hsafe hmode
        rw [← hkey]
        apply Attempt.catching_congr
        rw [hbody]
        exact Attempt.bind_some (hall.trans (by rw [if_neg]; exact hfails))

end Whole

/-- What the law comes to for states with the same values. -/
theorem atomic_iff {v : Device} {result : Option Bool} (hvalue : ∀ key, v.value key = d.value key)
    (hretoggling : v.retoggling = d.retoggling)
    (hfailure : v.protectionFailure = d.protectionFailure) :
    Atomic d v result ↔ v.exposed = false ∧ (result ≠ some true → Stricter d v) := by
  constructor
  · intro h
    exact ⟨h.exposed, h.failed⟩
  · intro h
    exact ⟨hvalue _, ⟨hretoggling, hfailure⟩, hvalue, h.1, h.2⟩

theorem exposed_eq {entry : Entry} (h : d.entries privateKeyStorageKey = some entry) :
    d.exposed = (d.policy && decide (entry.protection = .plain)) := by
  rw [Device.exposed, h]
  rfl

theorem exposed_false_iff : d.exposed = false ↔ (d.policy = true →
    ∀ entry, d.entries privateKeyStorageKey = some entry → entry.protection ≠ .plain) := by
  rw [Device.exposed, Bool.and_eq_false_imp]
  refine imp_congr_right fun _ => ?_
  rw [Option.any_eq_false]
  simp only [decide_eq_false_iff_not]

/-- The same key is protected as before. -/
theorem stricter_of_same {v : Device}
    (hkey : v.entries privateKeyStorageKey = d.entries privateKeyStorageKey)
    (hpolicy : d.policy = true → v.policy = true) : Stricter d v := by
  refine ⟨hpolicy, ?_⟩
  intro old hold hgated new hnew
  cases hold.symm.trans (hkey.symm.trans hnew)
  exact hgated

theorem stricter_iff {v : Device} {entry entry' : Entry}
    (h : d.entries privateKeyStorageKey = some entry)
    (h' : v.entries privateKeyStorageKey = some entry') :
    Stricter d v ↔ (d.policy = true → v.policy = true) ∧
      (entry.protection = .gated → entry'.protection = .gated) := by
  constructor
  · intro hs
    exact ⟨hs.policy, fun hgated => hs.protection entry h hgated entry' h'⟩
  · intro hs
    refine ⟨hs.1, ?_⟩
    intro old hold hgated new hnew
    cases h.symm.trans hold
    cases h'.symm.trans hnew
    exact hs.2 hgated

/-- A toggle that leaves the device key and the policy alone. -/
theorem Unchanged.atomic_iff {v : Device} (h : Unchanged d v) (hidle : d.retoggling = false)
    (result : Option Bool) : Atomic d (ended v) result ↔ d.exposed = false := by
  have hexposed : (ended v).exposed = d.exposed := by
    rw [Device.exposed, Device.exposed, ← h.deviceKey, ← h.policy]
    rfl
  rw [Retoggle.atomic_iff (v := ended v) h.value hidle.symm h.failure, hexposed]
  exact and_iff_left fun _ => stricter_of_same h.deviceKey h.policy.trans

/-- A toggle that stores the device key again. -/
theorem Leaves.atomic_iff {u v : Device} {entry entry' : Entry} {policy : Bool}
    {result : Option Bool} (hu : Unchanged d u) (h : Leaves u v entry' policy)
    (hentry : d.entries privateKeyStorageKey = some entry) (hseed : entry'.value = entry.value)
    (hidle : d.retoggling = false) :
    Atomic d (ended v) result ↔ (policy && decide (entry'.protection = .plain)) = false ∧
      (result ≠ some true → (d.policy = true → policy = true) ∧
        (entry.protection = .gated → entry'.protection = .gated)) := by
  have hkey : (ended v).entries privateKeyStorageKey = some entry' := by
    show v.entries privateKeyStorageKey = some entry'
    rw [h.entries, set_entries_self]
  have hvalue : ∀ key, (ended v).value key = d.value key := by
    intro key
    rw [← hu.value key]
    show (v.entries key).map (·.value) = (u.entries key).map (·.value)
    rw [h.entries]
    by_cases hk : key = privateKeyStorageKey
    · rw [hk, set_entries_self, hu.deviceKey, hentry]
      exact congrArg some hseed
    · rw [set_entries_ne _ hk]
  rw [Retoggle.atomic_iff hvalue hidle.symm (h.failure.trans hu.failure), exposed_eq hkey,
    stricter_iff hentry hkey]
  show ((v.policy && _) = false ∧ (_ → (_ → v.policy = true) ∧ _)) ↔ _
  rw [h.policy]

theorem saved_atomic {policy : Bool} {result : Option Bool} :
    Atomic d { d with policy } result ↔
      (policy = true → ∀ entry, d.entries privateKeyStorageKey = some entry →
        entry.protection ≠ .plain) ∧
      (result ≠ some true → d.policy = true → policy = true) := by
  rw [atomic_iff (d := d) (v := { d with policy }) (fun _ => rfl) rfl rfl, exposed_false_iff]
  refine and_congr_right fun _ => imp_congr_right fun _ => ?_
  constructor
  · exact fun h => h.policy
  · exact fun h => stricter_of_same (v := { d with policy }) rfl h

/-- A call that stores the device key again fails. -/
def KeyFails (fault : Option Fault) : Prop :=
  faultAt fault (.deviceKey .delete) ≠ none ∨ faultAt fault (.deviceKey .write) ≠ none

/-- The policy is not saved, and the call that saves it reports so. -/
def NotSaved (fault : Option Fault) : Prop :=
  ∃ failed, faultAt fault .persist = some failed ∧ failed.done = false

/-- A toggle that does not come to change the device key or the policy. -/
def LeftAlone (fault : Option Fault) (d : Device) (appLockEnabled : Bool) (hostIds : List Text)
    (persists : Bool) : Prop :=
  d.retoggling = true ∨ d.protectionFailure = true ∨
    (appLockEnabled = d.appLockEnabled ∧ (persists = false ∨ NotSaved fault)) ∨
    (appLockEnabled ≠ d.appLockEnabled ∧ ((∀ entry, ¬Reaches fault d hostIds entry) ∨
      (appLockEnabled = false ∧ persists = true ∧ NotSaved fault)))

/-- None of the ways in which a toggle breaks the law. -/
structure Spared (fault : Option Fault) (d : Device) (appLockEnabled : Bool) (hostIds : List Text)
    (persists : Bool) : Prop where
  /-- An off policy that is reported as not saved is not saved. -/
  off : appLockEnabled = false → persists = true → d.policy = true →
    (d.appLockEnabled = true → ∃ entry, Reaches fault d hostIds entry) →
    ∀ failed, faultAt fault .persist = some failed → failed.done = false
  /-- An on policy that was there before the service knew of it is not taken back. -/
  on : appLockEnabled = true → persists = true → d.policy = true → d.appLockEnabled = false →
    (∃ entry, Reaches fault d hostIds entry) → faultAt fault .persist = none
  /-- A protected key is not restored by a service that takes it for plain. -/
  gate : appLockEnabled ≠ d.appLockEnabled → d.gated = .plain →
    ∀ entry, Reaches fault d hostIds entry → entry.protection = .gated →
      ¬KeyFails fault ∧
        (appLockEnabled = true → persists = true → faultAt fault .persist = none)
  /-- A key does not become plain under an on policy that nobody turns off. -/
  silent : appLockEnabled = false → persists = false → d.policy = true → d.appLockEnabled = true →
    (∃ entry, Reaches fault d hostIds entry) → KeyFails fault
  /-- No on policy is saved over a plain key that a service takes for protected. -/
  again : appLockEnabled = true → persists = true → d.appLockEnabled = true →
    ∀ entry, d.entries privateKeyStorageKey = some entry → entry.protection = .plain →
      NotSaved fault
  /-- No key is restored as plain under an on policy that is there or is put back. -/
  back : appLockEnabled ≠ d.appLockEnabled → d.gated = .plain →
    d.policy = true ∨ (appLockEnabled = false ∧ persists = true) →
    (∃ entry, Reaches fault d hostIds entry) → ¬KeyFails fault

section Law

variable {appLockEnabled persists : Bool} {hostIds : List Text}

theorem Reaches.unique {entry other : Entry} (h : Reaches fault d hostIds entry)
    (h' : Reaches fault d hostIds other) : other = entry :=
  Option.some.inj (h'.2.1.symm.trans h.2.1)

theorem enabled_of_off (hmode : appLockEnabled ≠ d.appLockEnabled) (h : appLockEnabled = false) :
    d.appLockEnabled = true := by
  by_contra hE
  exact hmode (h.trans (Bool.eq_false_iff.mpr hE).symm)

theorem disabled_of_on (hmode : appLockEnabled ≠ d.appLockEnabled) (h : appLockEnabled = true) :
    d.appLockEnabled = false :=
  Bool.eq_false_iff.mpr fun hE => hmode (h.trans hE.symm)

/-- The condition, where the mode stays. -/
theorem spared_same (hmode : appLockEnabled = d.appLockEnabled) :
    Spared fault d appLockEnabled hostIds persists ↔
      (appLockEnabled = false → persists = true → d.policy = true →
        ∀ failed, faultAt fault .persist = some failed → failed.done = false) ∧
      (appLockEnabled = true → persists = true →
        ∀ entry, d.entries privateKeyStorageKey = some entry → entry.protection = .plain →
          NotSaved fault) := by
  constructor
  · intro h
    refine ⟨?_, fun hT hp => h.again hT hp (hmode.symm.trans hT)⟩
    intro hT hp hpolicy
    apply h.off hT hp hpolicy
    intro henabled
    exact absurd (hT.symm.trans (hmode.trans henabled)) (by decide)
  · rintro ⟨hoff, hagain⟩
    constructor
    · exact fun hT hp hpolicy _ => hoff hT hp hpolicy
    · exact fun hT _ _ hE => absurd (hT.symm.trans (hmode.trans hE)) (by decide)
    · exact fun hne => absurd hmode hne
    · exact fun hT _ _ hE => absurd (hT.symm.trans (hmode.trans hE)) (by decide)
    · exact fun hT hp _ => hagain hT hp
    · exact fun hne => absurd hmode hne

/-- The condition, where the call changes the mode and comes to the device key. -/
theorem spared_changes (hmode : appLockEnabled ≠ d.appLockEnabled) {entry : Entry}
    (h : Reaches fault d hostIds entry) :
    Spared fault d appLockEnabled hostIds persists ↔
      (appLockEnabled = false → persists = true → d.policy = true →
        ∀ failed, faultAt fault .persist = some failed → failed.done = false) ∧
      (appLockEnabled = true → persists = true → d.policy = true →
        faultAt fault .persist = none) ∧
      (d.gated = .plain → entry.protection = .gated → ¬KeyFails fault ∧
        (appLockEnabled = true → persists = true → faultAt fault .persist = none)) ∧
      (appLockEnabled = false → persists = false → d.policy = true → KeyFails fault) ∧
      (d.gated = .plain → d.policy = true ∨ (appLockEnabled = false ∧ persists = true) →
        ¬KeyFails fault) := by
  constructor
  · intro hs
    refine ⟨fun hT hp hpolicy => hs.off hT hp hpolicy fun _ => ⟨entry, h⟩,
      fun hT hp hpolicy => hs.on hT hp hpolicy (disabled_of_on hmode hT) ⟨entry, h⟩,
      fun hg hprot => hs.gate hmode hg entry h hprot,
      fun hT hp hpolicy => hs.silent hT hp hpolicy (enabled_of_off hmode hT) ⟨entry, h⟩,
      fun hg hpolicy => hs.back hmode hg hpolicy ⟨entry, h⟩⟩
  · rintro ⟨hoff, hon, hgate, hsilent, hback⟩
    constructor
    · exact fun hT hp hpolicy _ => hoff hT hp hpolicy
    · exact fun hT hp hpolicy _ _ => hon hT hp hpolicy
    · intro _ hg other hother
      rw [h.unique hother]
      exact hgate hg
    · exact fun hT hp hpolicy _ _ => hsilent hT hp hpolicy
    · exact fun hT _ hE => absurd (hT.trans hE.symm) hmode
    · exact fun _ hg hpolicy _ => hback hg hpolicy

/-- A call that would change the mode and does not come to the device key is spared. -/
theorem spared_stops (hmode : appLockEnabled ≠ d.appLockEnabled)
    (h : ¬∃ entry, Reaches fault d hostIds entry) :
    Spared fault d appLockEnabled hostIds persists := by
  constructor
  · exact fun hT _ _ hchanges => absurd (hchanges (enabled_of_off hmode hT)) h
  · exact fun _ _ _ _ hentry => absurd hentry h
  · exact fun _ _ entry hentry => absurd ⟨entry, hentry⟩ h
  · exact fun _ _ _ _ hentry => absurd hentry h
  · exact fun hT _ hE => absurd (hT.trans hE.symm) hmode
  · exact fun _ _ _ hentry => absurd hentry h

/-- A toggle to the mode the service is in saves the policy at most. -/
theorem same_atomic (hidle : d.retoggling = false) (hsafe : d.protectionFailure = false)
    (hmode : appLockEnabled = d.appLockEnabled) :
    Atomic d ((retoggleProtection fault keepsFlags appLockEnabled hostIds persists).run d).1
        ((retoggleProtection fault keepsFlags appLockEnabled hostIds persists).run d).2 ↔
      (LeftAlone fault d appLockEnabled hostIds persists → d.exposed = false) ∧
        Spared fault d appLockEnabled hostIds persists := by
  have hrun : (retoggleProtection fault keepsFlags appLockEnabled hostIds persists).run d =
      (if persists then persistAppLock fault .persist appLockEnabled else pure true).run d := by
    rw [retoggleProtection, Attempt.run_get_bind, hidle, hsafe, if_neg (by decide), if_pos hmode]
  have hleft : LeftAlone fault d appLockEnabled hostIds persists ↔
      persists = false ∨ NotSaved fault := by
    simp [LeftAlone, hidle, hsafe, hmode]
  have hkept : ∀ result, Atomic d d result ↔ d.exposed = false := by
    intro result
    rw [atomic_iff (fun _ => rfl) rfl rfl]
    exact and_iff_left fun _ => stricter_of_same rfl fun h => h
  rw [hrun, hleft, spared_same hmode]
  cases persists with
  | false =>
    rw [if_neg (by decide), Attempt.run_pure, hkept]
    simp
  | true =>
    rw [if_pos rfl]
    cases hfault : faultAt fault .persist with
    | none =>
      rw [persistAppLock_ok hfault, saved_atomic]
      cases appLockEnabled <;> simp [NotSaved, hfault]
    | some failed =>
      rw [persistAppLock_fails hfault]
      obtain ⟨site, done, throws⟩ := failed
      have hfails : (if throws then none else some false) ≠ some true := by
        cases throws <;> decide
      cases done with
      | true =>
        rw [if_pos rfl, saved_atomic]
        cases appLockEnabled <;> simp [hfails, NotSaved, hfault]
      | false =>
        rw [if_neg Bool.false_ne_true, hkept]
        simp [NotSaved, hfault]

/-- A toggle that comes to the device key. -/
theorem key_atomic (hidle : d.retoggling = false) (hsafe : d.protectionFailure = false)
    (hmode : appLockEnabled ≠ d.appLockEnabled) {u : Device} {entry : Entry}
    (hreach : Reaches fault d hostIds entry) (hu : Unchanged d u)
    (hready : Ready u entry.value) :
    ∃ v ok, (changeKey fault keepsFlags appLockEnabled persists entry.value).run u =
        (v, some ok) ∧
      (Atomic d (ended v) (some ok) ↔
        (LeftAlone fault d appLockEnabled hostIds persists → d.exposed = false) ∧
          Spared fault d appLockEnabled hostIds persists) := by
  have hentry := hreach.2.1
  have hleft : LeftAlone fault d appLockEnabled hostIds persists ↔
      appLockEnabled = false ∧ persists = true ∧ NotSaved fault := by
    have hnot : ¬∀ entry, ¬Reaches fault d hostIds entry := fun h => h entry hreach
    simp [LeftAlone, hidle, hsafe, hmode, hnot]
  rw [hleft, spared_changes hmode hreach, exposed_eq hentry]
  by_cases hkey : KeyFails fault
  · -- the key is stored again as the service takes it to be
    have hpersist : faultAt fault .persist = none := by
      obtain h | h := hkey
      · obtain ⟨failed, h⟩ := Option.ne_none_iff_exists'.mp h
        exact faultAt_of_ne h nofun
      · obtain ⟨failed, h⟩ := Option.ne_none_iff_exists'.mp h
        exact faultAt_of_ne h nofun
    obtain ⟨v, hrun, hleaves⟩ :=
      (@changeKey_swapFails _ keepsFlags _ _ appLockEnabled persists) hready hkey
    refine ⟨v, false, hrun, ?_⟩
    have hsaved : ¬NotSaved fault := by simp [NotSaved, hpersist]
    rw [hleaves.atomic_iff hu hentry rfl hidle, hpersist, hu.policy, hu.gated]
    generalize d.policy = policy, d.gated = storage, entry.protection = protection
    cases appLockEnabled <;> cases persists <;> cases policy <;> cases storage <;>
      cases protection <;> simp [hkey, hsaved]
  · have hdelete : faultAt fault (.deviceKey .delete) = none := by
      by_contra h
      exact hkey (.inl h)
    have hwrite : faultAt fault (.deviceKey .write) = none := by
      by_contra h
      exact hkey (.inr h)
    by_cases hsaves : persists = true → faultAt fault .persist = none
    · obtain ⟨v, hrun, hleaves⟩ :=
        (@changeKey_ok _ keepsFlags _ _ appLockEnabled persists) hready hdelete hwrite hsaves
      refine ⟨v, true, hrun, ?_⟩
      have hsaved : persists = true → ¬NotSaved fault := by
        intro hp
        simp [NotSaved, hsaves hp]
      rw [hleaves.atomic_iff hu hentry rfl hidle, hu.policy]
      generalize d.policy = policy, d.gated = storage, entry.protection = protection
      cases persists with
      | false =>
        cases appLockEnabled <;> cases policy <;> cases storage <;> cases protection <;>
          simp [hkey, storageFor]
      | true =>
        cases appLockEnabled <;> cases policy <;> cases storage <;> cases protection <;>
          simp [hkey, storageFor, hsaves rfl, hsaved rfl]
    · simp only [Classical.not_imp] at hsaves
      obtain ⟨rfl, hpersist⟩ := hsaves
      obtain ⟨failed, hpersist⟩ := Option.ne_none_iff_exists'.mp hpersist
      cases appLockEnabled with
      | true =>
        obtain ⟨v, hrun, hleaves⟩ := (@changeKey_persistOn _ keepsFlags) hready
          hpersist
        refine ⟨v, false, hrun, ?_⟩
        rw [hleaves.atomic_iff hu hentry rfl hidle, hu.gated, hpersist]
        generalize d.policy = policy, d.gated = storage, entry.protection = protection
        cases policy <;> cases storage <;> cases protection <;> simp [hkey]
      | false =>
        have hrun := (@changeKey_persistOff _ keepsFlags) hready hpersist
        refine ⟨_, false, hrun, ?_⟩
        have hset : u.entries = (u.set privateKeyStorageKey (some entry)).entries := by
          rw [set_same (hu.deviceKey.trans hentry)]
        have hleaves : Leaves u (if failed.done then { u with policy := false } else u) entry
            (!failed.done && d.policy) := by
          rw [← hu.policy]
          cases failed.done with
          | true => exact ⟨hset, rfl, rfl⟩
          | false => exact ⟨hset, rfl, rfl⟩
        rw [hleaves.atomic_iff hu hentry rfl hidle]
        generalize d.policy = policy, d.gated = storage, entry.protection = protection
        obtain ⟨site, done, throws⟩ := failed
        cases done <;> cases policy <;> cases storage <;> cases protection <;>
          simp [hkey, NotSaved, hpersist]

/-- Wherever a call to the platform fails, done or not, a toggle keeps the values, leaves no on
policy over a plain key and is as strict as before where it fails: unless it finds such a policy
and leaves it alone, or comes to one of the listed cases. -/
theorem retoggle_atomic (fault : Option Fault) (keepsFlags : Bool) (d : Device)
    (appLockEnabled : Bool) (hostIds : List Text) (persists : Bool) :
    Atomic d ((retoggleProtection fault keepsFlags appLockEnabled hostIds persists).run d).1
        ((retoggleProtection fault keepsFlags appLockEnabled hostIds persists).run d).2 ↔
      (LeftAlone fault d appLockEnabled hostIds persists → d.exposed = false) ∧
        (d.retoggling = true ∨ d.protectionFailure = true ∨
          Spared fault d appLockEnabled hostIds persists) := by
  by_cases hrefuses : d.retoggling = true ∨ d.protectionFailure = true
  · have hrun : (retoggleProtection fault keepsFlags appLockEnabled hostIds persists).run d =
        (d, some false) := by
      rw [retoggleProtection, Attempt.run_get_bind,
        if_pos ((Bool.or_eq_true _ _).mpr hrefuses)]
      rfl
    have hleft : LeftAlone fault d appLockEnabled hostIds persists := by
      rw [LeftAlone, ← or_assoc]
      exact .inl hrefuses
    rw [hrun, atomic_iff (fun _ => rfl) rfl rfl, ← or_assoc]
    constructor
    · exact fun h => ⟨fun _ => h.1, .inl hrefuses⟩
    · exact fun h => ⟨h.1 hleft, fun _ => stricter_of_same rfl fun h => h⟩
  · simp only [not_or, Bool.not_eq_true] at hrefuses
    obtain ⟨hidle, hsafe⟩ := hrefuses
    have hsame : (d.retoggling = true ∨ d.protectionFailure = true ∨
        Spared fault d appLockEnabled hostIds persists) ↔
          Spared fault d appLockEnabled hostIds persists := by
      simp [hidle, hsafe]
    rw [hsame]
    by_cases hmode : appLockEnabled = d.appLockEnabled
    · exact same_atomic hidle hsafe hmode
    · obtain ⟨v, hrun, hunchanged, hstops⟩ | ⟨entry, u, hreach, hunchanged, hready, hkey⟩ :=
        (@retoggle_spec fault keepsFlags _ _ persists hostIds) hidle hsafe hmode
      · have hleft : LeftAlone fault d appLockEnabled hostIds persists :=
          .inr (.inr (.inr ⟨hmode, .inl hstops⟩))
        have hspared : Spared fault d appLockEnabled hostIds persists :=
          spared_stops hmode (not_exists.mpr hstops)
        rw [hrun, hunchanged.atomic_iff hidle]
        exact ⟨fun h => ⟨fun _ => h, hspared⟩, fun h => h.1 hleft⟩
      · obtain ⟨v, ok, hrun, hatomic⟩ :=
          (@key_atomic _ keepsFlags _ _ persists) hidle hsafe hmode hreach hunchanged hready
        rw [hkey v ok hrun]
        exact hatomic

/-- App Lock is on, its key is protected, and the off policy is saved by a call that reports that
it was not. -/
def lockedDevice : Device where
  entries := fun key =>
    if key = privateKeyStorageKey then some { value := "seed".toList, protection := .gated }
    else none
  policy := true
  gated := .gated
  appLockEnabled := true
  retoggling := false
  protectionFailure := false
  deviceSeed := none
  deviceKeyTouched := false
  offPolicyPersisted := false
  onPolicyAttempted := false

/-- The toggle returns an error and App Lock is off. -/
theorem failed_off_is_off :
    ¬Atomic lockedDevice
      ((retoggleProtection (some ⟨.persist, true, false⟩) false false [] true).run lockedDevice).1
      ((retoggleProtection (some ⟨.persist, true, false⟩) false false [] true).run
        lockedDevice).2 := by
  intro h
  have hpolicy := (h.failed (by decide)).policy rfl
  exact absurd hpolicy (by decide)

end Law

end HerdrMobile.App.Retoggle
