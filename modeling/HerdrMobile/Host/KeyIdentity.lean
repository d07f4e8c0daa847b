import HerdrMobile.Host.HostKeys

/-!
# Which key a Host has

A key pair stays where it was put: a call that looks for it there returns it and changes
nothing. So a Host keeps its identity over any calls that look at the store in which the
first one left the key, and a rotation takes effect for all that look at the store it
wrote. A call that looks at the other store finds another key, or makes one.
-/

namespace HerdrMobile.Host.KeyIdentity

open HerdrMobile.Lib HerdrMobile.Proto HostKeys
open Strings (Text)

set_option autoImplicit false

inductive Place where
  | keyring
  | file
deriving DecidableEq

variable {F ε : Type} (S : Serde F) (E : Engine ε) (usesOsKeyring : Bool)

/-- The call reads what the place holds. -/
def LooksAt (c : Call) : Place → Prop
  | .keyring => usesOsKeyring = true ∧ c.entry = true ∧ c.getSecret = .answers
  | .file => usesOsKeyring = false ∨ c.entry = false ∨ c.getSecret = .fails

/-- Where a call that loads or generates the key has it when it returns. -/
def leavesIn (c : Call) (s : Stores) : Place :=
  if usesOsKeyring && c.entry then
    match c.secret s with
    | .secret _ => .keyring
    | .noEntry => if c.setSecret then .keyring else .file
    | .other => .file
  else .file

/-- Where a rotation has the new key when it returns. -/
def rotatesIn (c : Call) : Place :=
  if usesOsKeyring && (c.entry && c.setSecret) then .keyring else .file

/-- The file can be read and written. -/
structure FileWorks (c : Call) : Prop where
  reads : c.fileReads = true
  writes : c.fileWrite = .done

/-- The place holds this key pair. -/
def Holds (k : HostKeypair) (s : Stores) : Place → Prop
  | .keyring => ∃ bytes, s.secret = some bytes ∧
    (fromKeyringBytes bytes : Except (KeysError ε) HostKeypair) = .ok k
  | .file => ∃ text, s.file = some text ∧ parseFallback S E text = .ok k

variable {S E usesOsKeyring} {c : Call} {s s' : Stores} {k : HostKeypair} {p : Place}

theorem fallbackLoad_of_holds (hf : FileWorks c) (h : Holds S E k s .file) :
    fallbackLoadOrGenerate S E c s = (.ok k, s) := by
  obtain ⟨text, htext, hk⟩ := h
  have hread : fallbackRead S E c s = .ok (some k) := by
    rw [fallbackRead, hf.reads, htext]
    simp only [Bool.not_true, Bool.false_eq_true, if_false, hk]
    rfl
  rw [fallbackLoadOrGenerate, hread]

theorem holds_of_fallbackRead (hf : FileWorks c)
    (h : fallbackRead S E c s = .ok (some k)) : Holds S E k s .file := by
  rw [fallbackRead, hf.reads] at h
  simp only [Bool.not_true, Bool.false_eq_true, if_false] at h
  split at h
  · cases h
  · next text htext =>
    refine ⟨text, htext, ?_⟩
    cases hparse : parseFallback S E text with
    | error e =>
      rw [hparse] at h
      cases h
    | ok keypair =>
      rw [hparse] at h
      cases h
      rfl

theorem keep_of_works (hf : FileWorks c) :
    fallbackKeep S E c k s = (.ok k, { s with file := some (S.write (fileValue S E k)) }) := by
  rw [fallbackKeep, fallbackWrite, hf.writes]

theorem keep_ok {g : HostKeypair} (h : fallbackKeep S E c g s = (.ok k, s')) :
    k = g ∧ s' = { s with file := some (S.write (fileValue S E g)) } := by
  rw [fallbackKeep, fallbackWrite] at h
  cases hwrite : c.fileWrite with
  | done =>
    rw [hwrite] at h
    cases h
    exact ⟨rfl, rfl⟩
  | failed left =>
    rw [hwrite] at h
    cases h

/-- What the file may do for a call: the key pair is found in it, or is generated and
kept in it. -/
theorem fallbackLoad_cases (hf : FileWorks c)
    (h : fallbackLoadOrGenerate S E c s = (.ok k, s')) :
    (Holds S E k s .file ∧ s' = s) ∨
      (k ∈ c.generated ∧ s' = { s with file := some (S.write (fileValue S E k)) }) := by
  rw [fallbackLoadOrGenerate] at h
  split at h
  · cases h
  · next keypair hread =>
    cases h
    exact .inl ⟨holds_of_fallbackRead hf hread, rfl⟩
  · split at h
    · cases h
    · next g hg =>
      rw [keep_of_works hf] at h
      cases h
      exact .inr ⟨mem_of_generate hg, rfl⟩

theorem fallbackLoad_error {e : KeysError ε} (hf : FileWorks c)
    (h : fallbackLoadOrGenerate S E c s = (.error e, s')) : s' = s := by
  rw [fallbackLoadOrGenerate] at h
  split at h
  · exact (Prod.mk.inj h).2.symm
  · cases h
  · split at h
    · exact (Prod.mk.inj h).2.symm
    · rw [keep_of_works hf] at h
      cases h

/-- Without a credential store only the file counts. -/
theorem load_of_off (h : (usesOsKeyring && c.entry) = false) :
    loadOrGenerate S E usesOsKeyring c s = fallbackLoadOrGenerate S E c s := by
  rw [loadOrGenerate]
  rcases Bool.and_eq_false_iff.mp h with rfl | hentry
  · rfl
  · rw [hentry]
    cases usesOsKeyring <;> rfl

theorem load_of_on (h : (usesOsKeyring && c.entry) = true) :
    loadOrGenerate S E usesOsKeyring c s =
      match c.secret s with
      | .secret bytes => (fromKeyringBytes bytes, s)
      | .noEntry =>
        match generate c with
        | .error e => (.error e, s)
        | .ok generated =>
          if c.setSecret then (.ok generated, { s with secret := some generated.toKeyringBytes })
          else fallbackKeep S E c generated s
      | .other => fallbackLoadOrGenerate S E c s := by
  obtain ⟨rfl, hentry⟩ := Bool.and_eq_true_iff.mp h
  rw [loadOrGenerate, hentry]
  rfl

/-- A call that looks for a key pair where it is returns it and changes nothing. -/
theorem load_of_holds (hlook : LooksAt usesOsKeyring c p) (hf : FileWorks c)
    (h : Holds S E k s p) : loadOrGenerate S E usesOsKeyring c s = (.ok k, s) := by
  cases p with
  | keyring =>
    obtain ⟨huses, hentry, hanswers⟩ := hlook
    obtain ⟨bytes, hsecret, hk⟩ := h
    have hread : c.secret s = .secret bytes := by rw [Call.secret, hanswers, hsecret]
    rw [load_of_on (Bool.and_eq_true_iff.mpr ⟨huses, hentry⟩), hread]
    exact congrArg (·, s) hk
  | file =>
    cases hon : usesOsKeyring && c.entry with
    | false =>
      rw [load_of_off hon]
      exact fallbackLoad_of_holds hf h
    | true =>
      obtain ⟨huses, hentry⟩ := Bool.and_eq_true_iff.mp hon
      have hread : c.secret s = .other := by
        rcases hlook with hoff | hoff | hfails
        · exact absurd (hoff.symm.trans huses) Bool.false_ne_true
        · exact absurd (hoff.symm.trans hentry) Bool.false_ne_true
        · rw [Call.secret, hfails]
      rw [load_of_on hon, hread]
      exact fallbackLoad_of_holds hf h

theorem secret_of_read {bytes : List UInt8} (h : c.secret s = .secret bytes) :
    c.getSecret = .answers ∧ s.secret = some bytes := by
  rw [Call.secret] at h
  split at h
  · next hget hsecret =>
    cases h
    exact ⟨hget, hsecret⟩
  all_goals cases h

theorem fails_of_read (h : c.secret s = .other) : c.getSecret = .fails := by
  rw [Call.secret] at h
  split at h
  case h_4 hget => exact hget
  all_goals cases h

/-- The stores with a new key pair in its place. -/
def put (S : Serde F) (E : Engine ε) (k : HostKeypair) (s : Stores) : Place → Stores
  | .keyring => { s with secret := some k.toKeyringBytes }
  | .file => { s with file := some (S.write (fileValue S E k)) }

theorem holds_put (hE : Standard E) (hserde : S.Rereads (fileValue S E k)) :
    Holds S E k (put S E k s p) p := by
  cases p with
  | keyring => exact ⟨_, rfl, fromKeyringBytes_toKeyringBytes k⟩
  | file => exact ⟨_, rfl, parseFallback_write hE hserde⟩

/-- What a call that succeeds has done: it found the key pair where it looked, or it
generated the key pair and put it in its place. -/
theorem load_cases (hf : FileWorks c)
    (h : loadOrGenerate S E usesOsKeyring c s = (.ok k, s')) :
    (LooksAt usesOsKeyring c (leavesIn usesOsKeyring c s) ∧
        Holds S E k s (leavesIn usesOsKeyring c s) ∧ s' = s) ∨
      (k ∈ c.generated ∧ s' = put S E k s (leavesIn usesOsKeyring c s)) := by
  cases hon : usesOsKeyring && c.entry with
  | false =>
    rw [load_of_off hon] at h
    rw [leavesIn, hon]
    have hlook : LooksAt usesOsKeyring c .file := (Bool.and_eq_false_iff.mp hon).imp id .inl
    exact (fallbackLoad_cases hf h).imp (⟨hlook, ·⟩) id
  | true =>
    obtain ⟨huses, hentry⟩ := Bool.and_eq_true_iff.mp hon
    rw [load_of_on hon] at h
    rw [leavesIn, hon]
    cases hread : c.secret s with
    | secret bytes =>
      rw [hread] at h
      obtain ⟨hk, rfl⟩ := Prod.mk.inj h
      obtain ⟨hanswers, hsecret⟩ := secret_of_read hread
      exact .inl ⟨⟨huses, hentry, hanswers⟩, ⟨bytes, hsecret, hk⟩, rfl⟩
    | noEntry =>
      rw [hread] at h
      cases hg : (generate c : Except (KeysError ε) HostKeypair) with
      | error e =>
        rw [hg] at h
        cases h
      | ok g =>
        rw [hg] at h
        cases hset : c.setSecret with
        | true =>
          rw [hset] at h
          cases h
          exact .inr ⟨mem_of_generate hg, rfl⟩
        | false =>
          rw [hset] at h
          change fallbackKeep S E c g s = _ at h
          rw [keep_of_works hf] at h
          cases h
          exact .inr ⟨mem_of_generate hg, rfl⟩
    | other =>
      rw [hread] at h
      have hlook : LooksAt usesOsKeyring c .file := .inr (.inr (fails_of_read hread))
      exact (fallbackLoad_cases hf h).imp (⟨hlook, ·⟩) id

theorem load_error {e : KeysError ε} (hf : FileWorks c)
    (h : loadOrGenerate S E usesOsKeyring c s = (.error e, s')) : s' = s := by
  cases hon : usesOsKeyring && c.entry with
  | false =>
    rw [load_of_off hon] at h
    exact fallbackLoad_error hf h
  | true =>
    rw [load_of_on hon] at h
    split at h
    · exact (Prod.mk.inj h).2.symm
    · split at h
      · exact (Prod.mk.inj h).2.symm
      · rw [keep_of_works hf] at h
        split at h <;> cases h
    · exact fallbackLoad_error hf h

/-- A call that succeeds leaves the key pair in its place. -/
theorem holds_of_load (hE : Standard E) (hf : FileWorks c)
    (hserde : ∀ g ∈ c.generated, S.Rereads (fileValue S E g))
    (h : loadOrGenerate S E usesOsKeyring c s = (.ok k, s')) :
    Holds S E k s' (leavesIn usesOsKeyring c s) := by
  rcases load_cases hf h with ⟨-, hholds, rfl⟩ | ⟨hg, rfl⟩
  · exact hholds
  · exact holds_put hE (hserde k hg)

/-- What a rotation that succeeds has done. -/
theorem rotate_cases (h : rotate S E usesOsKeyring c s = (.ok k, s')) :
    k ∈ c.generated ∧ s' = put S E k s (rotatesIn usesOsKeyring c) := by
  rw [rotate] at h
  rw [rotatesIn]
  split at h
  · cases h
  · next g hg =>
    split at h
    · next hset =>
      cases h
      rw [if_pos hset]
      exact ⟨mem_of_generate hg, rfl⟩
    · next hset =>
      obtain ⟨rfl, rfl⟩ := keep_ok h
      rw [if_neg hset]
      exact ⟨mem_of_generate hg, rfl⟩

def Place.other : Place → Place
  | .keyring => .file
  | .file => .keyring

variable (S E usesOsKeyring) in
/-- The results of calls one after another, and what the stores hold after them. -/
def loads (s : Stores) : List Call → List (Except (KeysError ε) HostKeypair) × Stores
  | [] => ([], s)
  | c :: rest =>
    let (result, s') := loadOrGenerate S E usesOsKeyring c s
    (result :: (loads s' rest).1, (loads s' rest).2)

/-- Calls that look for a key pair where it is all return it. -/
theorem loads_of_looksAt {cs : List Call} (hfiles : ∀ c ∈ cs, FileWorks c)
    (h : Holds S E k s p) (hlook : ∀ c ∈ cs, LooksAt usesOsKeyring c p) :
    ∀ r ∈ (loads S E usesOsKeyring s cs).1, r = .ok k := by
  induction cs with
  | nil => exact fun r hr => nomatch hr
  | cons c rest ih =>
    have hload := load_of_holds (hlook c List.mem_cons_self) (hfiles c List.mem_cons_self) h
    have hrest := ih (fun c' hc' => hfiles c' (List.mem_cons_of_mem c hc'))
      (fun c' hc' => hlook c' (List.mem_cons_of_mem c hc'))
    intro r hr
    rw [loads, hload] at hr
    rcases List.mem_cons.mp hr with rfl | hr
    · rfl
    · exact hrest r hr

/-- A call that returns a key pair which the other place does not hold, and which it did
not generate, looked where the key pair is. -/
theorem looksAt_of_load (hf : FileWorks c) (hother : ¬ Holds S E k s p.other)
    (hfresh : k ∉ c.generated) (h : loadOrGenerate S E usesOsKeyring c s = (.ok k, s')) :
    LooksAt usesOsKeyring c p ∧ s' = s := by
  rcases load_cases hf h with ⟨hlook, hholds, hs⟩ | ⟨hg, -⟩
  · have hp : leavesIn usesOsKeyring c s = p ∨ leavesIn usesOsKeyring c s = p.other := by
      cases p <;> cases leavesIn usesOsKeyring c s <;> decide
    rcases hp with hp | hp
    · exact ⟨hp ▸ hlook, hs⟩
    · exact absurd (hp ▸ hholds) hother
  · exact absurd hg hfresh

theorem looksAt_of_loads {cs : List Call} (hfiles : ∀ c ∈ cs, FileWorks c)
    (hother : ¬ Holds S E k s p.other) (hfresh : ∀ c ∈ cs, k ∉ c.generated)
    (h : ∀ r ∈ (loads S E usesOsKeyring s cs).1, r = .ok k) :
    ∀ c ∈ cs, LooksAt usesOsKeyring c p := by
  induction cs with
  | nil => exact fun c hc => nomatch hc
  | cons c rest ih =>
    rw [loads] at h
    obtain ⟨s', hload⟩ : ∃ s', loadOrGenerate S E usesOsKeyring c s = (.ok k, s') :=
      ⟨_, Prod.ext (h _ List.mem_cons_self) rfl⟩
    obtain ⟨hlook, rfl⟩ := looksAt_of_load (hfiles c List.mem_cons_self) hother
      (hfresh c List.mem_cons_self) hload
    rw [hload] at h
    have hrest := ih (fun c' hc' => hfiles c' (List.mem_cons_of_mem c hc'))
      (fun c' hc' => hfresh c' (List.mem_cons_of_mem c hc'))
      (fun r hr => h r (List.mem_cons_of_mem _ hr))
    intro c' hc'
    rcases List.mem_cons.mp hc' with rfl | hc'
    · exact hlook
    · exact hrest c' hc'

/-- Calls that fail change nothing. -/
theorem loads_failed {cs : List Call} (hfiles : ∀ c ∈ cs, FileWorks c)
    (h : ∀ r ∈ (loads S E usesOsKeyring s cs).1, ∀ k, r ≠ .ok k) :
    (loads S E usesOsKeyring s cs).2 = s := by
  induction cs with
  | nil => rfl
  | cons c rest ih =>
    rw [loads] at h ⊢
    cases hload : loadOrGenerate S E usesOsKeyring c s with
    | mk result s' =>
      rw [hload] at h
      cases result with
      | ok k => exact absurd rfl (h _ List.mem_cons_self k)
      | error e =>
        obtain rfl := load_error (hfiles c List.mem_cons_self) hload
        exact ih (fun c' hc' => hfiles c' (List.mem_cons_of_mem c hc'))
          (fun r hr => h r (List.mem_cons_of_mem _ hr))

section Identity

variable (S E usesOsKeyring)

/-- The first call of these that succeeds, among those before and after it. -/
structure First (s : Stores) (calls before : List Call) (c : Call) (after : List Call)
    (k : HostKeypair) : Prop where
  calls : calls = before ++ c :: after
  failed : ∀ r ∈ (loads S E usesOsKeyring s before).1, ∀ k', r ≠ .ok k'
  succeeded : (loadOrGenerate S E usesOsKeyring c (loads S E usesOsKeyring s before).2).1 = .ok k

/-- Once one call has succeeded, all return the same key pair. -/
def Stable (s : Stores) (calls : List Call) : Prop :=
  ∀ before c after k, First S E usesOsKeyring s calls before c after k →
    let s' := (loadOrGenerate S E usesOsKeyring c (loads S E usesOsKeyring s before).2).2
    ∀ r ∈ (loads S E usesOsKeyring s' after).1, r = .ok k

/-- Once one call has succeeded, all look where it has left its key pair. -/
def LooksBack (s : Stores) (calls : List Call) : Prop :=
  ∀ before c after k, First S E usesOsKeyring s calls before c after k →
    ∀ c' ∈ after, LooksAt usesOsKeyring c' (leavesIn usesOsKeyring c s)

/-- No key pair is in both stores, is generated twice, or is generated where it is stored
already. -/
structure Apart (s : Stores) (calls : List Call) : Prop where
  stores : ∀ k p, Holds S E k s p → ¬ Holds S E k s p.other
  stored : ∀ c ∈ calls, ∀ k ∈ c.generated, ∀ p, ¬ Holds S E k s p
  generated : calls.Pairwise fun c c' => ∀ k ∈ c.generated, k ∉ c'.generated

end Identity

theorem holds_other_of_put (h : Holds S E k (put S E k s p) p.other) : Holds S E k s p.other := by
  cases p <;> exact h

section Laws

variable {calls : List Call} (hE : Standard E)

/-- No place but its own holds the key pair that a call has returned. -/
theorem Apart.not_other (ha : Apart S E s calls) (hc : c ∈ calls) (hf : FileWorks c)
    (h : loadOrGenerate S E usesOsKeyring c s = (.ok k, s')) :
    ¬ Holds S E k s' (leavesIn usesOsKeyring c s).other := by
  rcases load_cases hf h with ⟨-, hholds, rfl⟩ | ⟨hg, rfl⟩
  · exact ha.stores k _ hholds
  · exact fun hother => ha.stored c hc k hg _ (holds_other_of_put hother)

/-- No later call generates the key pair that a call has returned. -/
theorem Apart.fresh {before after : List Call} (ha : Apart S E s (before ++ c :: after))
    (hf : FileWorks c) (h : loadOrGenerate S E usesOsKeyring c s = (.ok k, s')) :
    ∀ c' ∈ after, k ∉ c'.generated := by
  intro c' hc' hk
  rcases load_cases hf h with ⟨-, hholds, -⟩ | ⟨hg, -⟩
  · have hmem : c' ∈ before ++ c :: after :=
      List.mem_append_right before (List.mem_cons_of_mem c hc')
    exact ha.stored c' hmem k hk _ hholds
  · obtain ⟨hpair, -⟩ := List.pairwise_cons.mp (List.pairwise_append.mp ha.generated).2.1
    exact hpair c' hc' k hg hk

/-- The first call that succeeds starts from what the first of all started from. -/
theorem First.load {before after : List Call} (hfiles : ∀ c ∈ calls, FileWorks c)
    (h : First S E usesOsKeyring s calls before c after k) :
    (loads S E usesOsKeyring s before).2 = s ∧
      ∃ s', loadOrGenerate S E usesOsKeyring c s = (.ok k, s') := by
  have hbefore : (loads S E usesOsKeyring s before).2 = s :=
    loads_failed (fun c' hc' => hfiles c' (h.calls ▸ List.mem_append_left _ hc')) h.failed
  have hload := h.succeeded
  rw [hbefore] at hload
  exact ⟨hbefore, _, Prod.ext hload rfl⟩

include hE in
theorem stable_iff_looksBack (hfiles : ∀ c ∈ calls, FileWorks c)
    (hserde : ∀ c ∈ calls, ∀ g ∈ c.generated, S.Rereads (fileValue S E g)) :
    (LooksBack S E usesOsKeyring s calls → Stable S E usesOsKeyring s calls) ∧
      (Apart S E s calls → Stable S E usesOsKeyring s calls →
        LooksBack S E usesOsKeyring s calls) := by
  have hcall {before c after k} (hfirst : First S E usesOsKeyring s calls before c after k) :
      c ∈ calls ∧ ∀ c' ∈ after, FileWorks c' :=
    ⟨hfirst.calls ▸ List.mem_append_right _ List.mem_cons_self, fun c' hc' =>
      hfiles c' (hfirst.calls ▸ List.mem_append_right _ (List.mem_cons_of_mem c hc'))⟩
  constructor
  · intro hlook before c after k hfirst
    obtain ⟨hc, hafter⟩ := hcall hfirst
    obtain ⟨hbefore, s', hload⟩ := hfirst.load hfiles
    have hholds := holds_of_load hE (hfiles c hc) (hserde c hc) hload
    simp only [hbefore, hload]
    exact loads_of_looksAt hafter hholds (hlook before c after k hfirst)
  · intro ha hstable before c after k hfirst
    obtain ⟨hc, hafter⟩ := hcall hfirst
    obtain ⟨hbefore, s', hload⟩ := hfirst.load hfiles
    have hsame := hstable before c after k hfirst
    simp only [hbefore, hload] at hsame
    exact looksAt_of_loads hafter (ha.not_other hc (hfiles c hc) hload)
      (Apart.fresh (hfirst.calls ▸ ha) (hfiles c hc) hload) hsame

include hE in
theorem rotation_effective_iff {after : List Call} (hfiles : ∀ c' ∈ after, FileWorks c')
    (hserde : ∀ g ∈ c.generated, S.Rereads (fileValue S E g))
    (h : rotate S E usesOsKeyring c s = (.ok k, s')) :
    ((∀ c' ∈ after, LooksAt usesOsKeyring c' (rotatesIn usesOsKeyring c)) →
        ∀ r ∈ (loads S E usesOsKeyring s' after).1, r = .ok k) ∧
      (Apart S E s (c :: after) → (∀ r ∈ (loads S E usesOsKeyring s' after).1, r = .ok k) →
        ∀ c' ∈ after, LooksAt usesOsKeyring c' (rotatesIn usesOsKeyring c)) := by
  obtain ⟨hg, rfl⟩ := rotate_cases h
  constructor
  · exact loads_of_looksAt hfiles (holds_put hE (hserde k hg))
  · intro ha
    refine looksAt_of_loads hfiles (fun hother => ?_) fun c' hc' => ?_
    · exact ha.stored c List.mem_cons_self k hg _ (holds_other_of_put hother)
    · exact (List.pairwise_cons.mp ha.generated).1 c' hc' k hg

end Laws

def pairOf (byte : UInt8) : HostKeypair := ⟨keyOf byte, keyOf byte⟩

/-- A `serde_json` for the file of the key pair of zeros. -/
def zerosSerde : Serde Empty :=
  .only (.obj [("private".toList, .str zerosText), ("public".toList, .str zerosText)])
    (Utf8.utf8 ("\x7b\"private\":\"".toList ++ zerosText ++ "\",\"public\":\"".toList ++
      zerosText ++ "\"\x7d".toList))

theorem rereads_zeros : zerosSerde.Rereads (fileValue zerosSerde standardEngine (pairOf 0)) := by
  have hvalue : fileValue zerosSerde standardEngine (pairOf 0) =
      .obj [("private".toList, .str zerosText), ("public".toList, .str zerosText)] := by
    rw [← encode_zeros]
    rfl
  rw [hvalue]
  exact Serde.rereads_only _ _

/-- The credential store answers, and takes the key pair or not. -/
def answering (generated : Option HostKeypair) (setSecret : Bool) : Call :=
  ⟨true, .answers, setSecret, generated, true, .done⟩

/-- The credential store fails. -/
def unavailable : Call := ⟨true, .fails, false, none, true, .done⟩

theorem looksBack_of_pairwise {s : Stores} {calls : List Call}
    (h : calls.Pairwise fun c c' => LooksAt usesOsKeyring c' (leavesIn usesOsKeyring c s)) :
    LooksBack S E usesOsKeyring s calls := by
  intro before c after k hfirst c' hc'
  rw [hfirst.calls] at h
  exact (List.pairwise_cons.mp (List.pairwise_append.mp h).2.1).1 c' hc'

/-- The key pair is kept in the file while the credential store fails. -/
theorem stable_iff_looksBack_unavailable :
    Stable zerosSerde standardEngine true ⟨none, none⟩
      [answering (some (pairOf 0)) false, unavailable, unavailable] := by
  refine (stable_iff_looksBack standard_standardEngine ?_ ?_).1 (looksBack_of_pairwise ?_)
  · intro c hc
    simp only [List.mem_cons, List.not_mem_nil, or_false] at hc
    rcases hc with rfl | rfl | rfl <;> exact ⟨rfl, rfl⟩
  · intro c hc g hg
    simp only [List.mem_cons, List.not_mem_nil, or_false] at hc
    rcases hc with rfl | rfl | rfl
    · cases hg
      exact rereads_zeros
    all_goals cases hg
  · simp [LooksAt, leavesIn, Call.secret, answering, unavailable]

/-- A key pair that the credential store refused is in the file; when the store takes
secrets again it has no entry, and the Host gets another key pair. -/
theorem refused_then_replaced :
    (∀ c ∈ [answering (some (pairOf 0)) false, answering (some (pairOf 1)) true], FileWorks c) ∧
      ¬ Stable zerosSerde standardEngine true ⟨none, none⟩
        [answering (some (pairOf 0)) false, answering (some (pairOf 1)) true] := by
  constructor
  · intro c hc
    simp only [List.mem_cons, List.not_mem_nil, or_false] at hc
    rcases hc with rfl | rfl <;> exact ⟨rfl, rfl⟩
  · intro h
    have hfirst := h [] (answering (some (pairOf 0)) false) [answering (some (pairOf 1)) true]
      (pairOf 0) ⟨rfl, (fun r hr => nomatch hr), rfl⟩ (.ok (pairOf 1)) List.mem_cons_self
    exact absurd (Except.ok.inj hfirst) (by decide)

/-- A rotation that the credential store takes is what it answers from then on. -/
theorem rotation_effective_iff_taken :
    (loads zerosSerde standardEngine true ⟨some (pairOf 0).toKeyringBytes, none⟩
        [answering none true, answering none false]).1 = [.ok (pairOf 0), .ok (pairOf 0)] := by
  have hrotate : rotate zerosSerde standardEngine true (answering (some (pairOf 0)) true)
      ⟨some (pairOf 1).toKeyringBytes, none⟩ =
        (.ok (pairOf 0), ⟨some (pairOf 0).toKeyringBytes, none⟩) := rfl
  refine List.eq_replicate_iff.mpr ⟨rfl, (rotation_effective_iff standard_standardEngine
    ?_ ?_ hrotate).1 ?_⟩
  · intro c hc
    simp only [List.mem_cons, List.not_mem_nil, or_false] at hc
    rcases hc with rfl | rfl <;> exact ⟨rfl, rfl⟩
  · intro g hg
    cases hg
    exact rereads_zeros
  · simp [LooksAt, rotatesIn, answering]

/-- A rotation that the credential store refuses goes to the file, and the store still
answers with the old key pair. -/
theorem rotation_undone :
    ∃ s', rotate zerosSerde standardEngine true (answering (some (pairOf 0)) false)
        ⟨some (pairOf 1).toKeyringBytes, none⟩ = (.ok (pairOf 0), s') ∧
      (loads zerosSerde standardEngine true s' [answering none true]).1 = [.ok (pairOf 1)] ∧
      FileWorks (answering (some (pairOf 0)) false) ∧ FileWorks (answering none true) ∧
      pairOf 0 ≠ pairOf 1 := by
  refine ⟨_, rfl, ?_, ⟨rfl, rfl⟩, ⟨rfl, rfl⟩, by decide⟩
  show [fromKeyringBytes (pairOf 1).toKeyringBytes] = _
  rw [fromKeyringBytes_toKeyringBytes]

end HerdrMobile.Host.KeyIdentity
