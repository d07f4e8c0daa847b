import HerdrMobile.Lib.Transcript

/-!
# A changed message is noticed

The seals of a party lie on one line, its transcript. A party whose transcript has left the
line of the other one never comes back to it, and the next check it makes is of nothing
that has been sealed.
-/
namespace HerdrMobile.Lib.Noise

set_option autoImplicit false

variable {S : Suite} {name : Octets} {E log : List Event} {T T' : List Octets}

/-- Every seal has its place in the transcript `T`. -/
def OnLine (S : Suite) (name : Octets) (E log : List Event) (T : List Octets) : Prop :=
  ∀ key ad c, .sealed key ad c ∈ log → ∃ T', Transcript S name E T' ad ∧ T' ++ [c] <+: T

namespace OnLine

theorem mono (h : OnLine S name E log T) (hT : T <+: T') : OnLine S name E log T' := by
  intro key ad c hs
  obtain ⟨T₁, ht, hp⟩ := h key ad c hs
  exact ⟨T₁, ht, hp.trans hT⟩

theorem append {log' : List Event} (h : OnLine S name E log T) (h' : OnLine S name E log' T) :
    OnLine S name E (log ++ log') T := by
  intro key ad c hs
  cases List.mem_append.mp hs with
  | inl hs => exact h key ad c hs
  | inr hs => exact h' key ad c hs

/-- A party that reads seals nothing. -/
theorem of_read {α : Type} {x : Noted α} (h : Only Event.Read x) :
    OnLine S name E x.events T := by
  intro key ad c hs
  exact (h _ hs).elim

end OnLine

/-- The events `E` are those of a handshake under a name that starts with its hash. -/
structure Sound (S : Suite) (name : Octets) (E : List Event) : Prop where
  noCollision : S.NoCollision E
  started : .hashed name ∈ E
  long : hashLen < name.length
  short : name.length < hashLen + tagLen

section Field

variable {t t' : SymmetricState}

theorem Transcript.encrypted {plaintext c : Octets} (ht : Transcript S name E T t.hash)
    (hE : Only (· ∈ E) (t.encryptAndHash S plaintext))
    (hp : t.key = none → plaintext.length = 0 ∨ tagLen ≤ plaintext.length)
    (hr : (t.encryptAndHash S plaintext).result = some (t', c)) :
    Transcript S name E (T ++ [c]) t'.hash ∧
      OnLine S name E (t.encryptAndHash S plaintext).events (T ++ [c]) := by
  cases hk : t.key with
  | none =>
    simp only [SymmetricState.encryptAndHash, hk] at hE hr ⊢
    cases hr
    refine ⟨ht.snoc (hE _ (List.mem_singleton_self _)) (hp hk), ?_⟩
    intro key ad c hs
    cases List.mem_singleton.mp hs
  | some k =>
    rw [t.encryptAndHash_sealed S hk] at hE hr ⊢
    cases hr
    refine ⟨ht.snoc (hE _ (by simp)) (.inr (by simp)), ?_⟩
    intro key ad c hs
    simp only [List.mem_cons, Event.sealed.injEq, List.not_mem_nil, or_false, reduceCtorEq] at hs
    obtain ⟨-, rfl, rfl⟩ := hs
    exact ⟨T, ht, List.prefix_refl _⟩

theorem Transcript.decrypted {c plaintext : Octets} (ht : Transcript S name E T t.hash)
    (hE : Only (· ∈ E) (t.decryptAndHash S c))
    (hc : t.key = none → c.length = 0 ∨ tagLen ≤ c.length)
    (hr : (t.decryptAndHash S c).result = some (t', plaintext)) :
    Transcript S name E (T ++ [c]) t'.hash := by
  cases hk : t.key with
  | none =>
    simp only [SymmetricState.decryptAndHash, hk] at hE hr
    cases hr
    exact ht.snoc (hE _ (List.mem_singleton_self _)) (hc hk)
  | some k =>
    by_cases hshort : c.length < tagLen
    · rw [t.decryptAndHash_short S hk hshort] at hr
      cases hr
    · have hlen := Nat.le_of_not_lt hshort
      cases hd : S.decrypt k t.nonce t.hash c with
      | none =>
        rw [t.decryptAndHash_refused S hk hlen hd] at hr
        cases hr
      | some p =>
        rw [t.decryptAndHash_accepted S hk hlen hd] at hE hr
        cases hr
        exact ht.snoc (hE _ (by simp)) (.inr hlen)

/-- A check off the line is of nothing that has been sealed. -/
theorem decryptAndHash_noticed {c : Octets} (hs : Sound S name E)
    (ht : Transcript S name E T t.hash) (hk : t.key.isSome = true) (hc : tagLen ≤ c.length)
    (hline : OnLine S name E log T') (hoff : ¬ T ++ [c] <+: T') :
    Noticed log (t.decryptAndHash S c) := by
  obtain ⟨k, hk⟩ := Option.isSome_iff_exists.mp hk
  have hnot : .sealed k t.hash c ∉ log ++ [] := by
    rw [List.append_nil]
    intro hsealed
    obtain ⟨T₁, ht₁, hp⟩ := hline _ _ _ hsealed
    have hT : T₁ = T := ht₁.inj hs.noCollision hs.started hs.long hs.short ht rfl
    exact hoff (hT ▸ hp)
  cases hd : S.decrypt k t.nonce t.hash c with
  | none =>
    rw [t.decryptAndHash_refused S hk hc hd]
    exact ⟨[], [], k, t.hash, c, false, rfl, hnot, fun _ => ⟨rfl, rfl⟩⟩
  | some p =>
    rw [t.decryptAndHash_accepted S hk hc hd]
    refine ⟨[], [.hashed (t.hash ++ c)], k, t.hash, c, true, rfl, hnot, ?_⟩
    intro h
    cases h

end Field

namespace HandshakeState

variable {a b a' b' : HandshakeState S} {token : Token} {g : Stage} {field message rest : Octets}

/-- What a token with this field adds to the transcript. -/
def mixed (a : HandshakeState S) (field : Octets) : Token → List Octets
  | .e | .s => [field]
  | .psk => (a.psk.map fun psk => (S.hkdf3 a.symmetric.chainingKey psk).2.1).toList
  | _ => []

/-- A token without a field. -/
theorem mixToken_cases (hd : token ≠ .e ∧ token ≠ .s) (hr : (a.mixToken token).result = some a') :
    a' = { a with symmetric := a'.symmetric } ∧ a'.symmetric.key.isSome = true ∧
      ((∃ psk, token = .psk ∧ a.psk = some psk ∧
          (a.mixToken token).events = [.derived a.symmetric.chainingKey psk,
            .hashed (a.symmetric.hash ++ (S.hkdf3 a.symmetric.chainingKey psk).2.1)] ∧
          a'.symmetric.hash =
            S.hash (a.symmetric.hash ++ (S.hkdf3 a.symmetric.chainingKey psk).2.1)) ∨
        (token ≠ .psk ∧ a'.symmetric.hash = a.symmetric.hash)) := by
  by_cases ht : token = .psk
  · subst ht
    obtain hp | ⟨psk, hp⟩ := Option.eq_none_or_eq_some a.psk
    · simp [mixToken, hp] at hr
    · rw [mixToken_psk hp] at hr
      cases hr
      refine ⟨rfl, rfl, .inl ⟨psk, rfl, hp, ?_, rfl⟩⟩
      simp only [mixToken, hp]
      rfl
  · cases hs : a.sharedKey token with
    | none =>
      cases token <;> simp_all [mixToken]
    | some x =>
      rw [mixToken_shared hs] at hr
      cases hr
      exact ⟨rfl, rfl, .inr ⟨ht, rfl⟩⟩

theorem mixed_transcript (ht : Transcript S name E T a.symmetric.hash)
    (hE : Only (· ∈ E) (a.mixToken token)) (hd : token ≠ .e ∧ token ≠ .s)
    (hr : (a.mixToken token).result = some a') :
    Transcript S name E (T ++ a.mixed field token) a'.symmetric.hash := by
  obtain ⟨-, -, hcases⟩ := mixToken_cases hd hr
  cases hcases with
  | inl h =>
    obtain ⟨psk, rfl, hp, hevents, hh⟩ := h
    have hin := hE (.hashed (a.symmetric.hash ++ (S.hkdf3 a.symmetric.chainingKey psk).2.1))
      (by rw [hevents]; simp)
    have hlen := S.length_hmac (S.hmac a.symmetric.chainingKey psk)
      (S.hmac (S.hmac a.symmetric.chainingKey psk) [1] ++ [2])
    rw [hh]
    simp only [mixed, hp, Option.map_some, Option.toList_some]
    refine ht.snoc hin (.inr ?_)
    show tagLen ≤ (S.hmac _ _).length
    rw [hlen]
    decide
  | inr h =>
    obtain ⟨hne, hh⟩ := h
    have hnil : a.mixed field token = [] := by
      cases token <;> simp_all [mixed]
    rw [hnil, List.append_nil, hh]
    exact ht

theorem afterEphemeral_hash (a : HandshakeState S) (key : Octets) :
    (a.afterEphemeral key).hash = S.hash (a.symmetric.hash ++ key) := by
  unfold afterEphemeral
  split <;> rfl

theorem tag_le_dh : tagLen ≤ dhLen := by decide

theorem written_transcript (ht : Transcript S name E T a.symmetric.hash)
    (hE : Only (· ∈ E) (a.writeToken token))
    (hr : (a.writeToken token).result = some (a', field)) :
    Transcript S name E (T ++ a.mixed field token) a'.symmetric.hash ∧
      OnLine S name E (a.writeToken token).events (T ++ a.mixed field token) := by
  cases token with
  | e =>
    simp only [writeToken, Noted.bind_result, mixEphemeral_result] at hr
    cases hr
    have hin := hE (.hashed (a.symmetric.hash ++ S.publicKey a.e)) (List.mem_cons_self ..)
    refine ⟨?_, ?_⟩
    · show Transcript S name E _ (a.afterEphemeral _).hash
      rw [afterEphemeral_hash]
      exact ht.snoc hin (.inr (by rw [S.length_publicKey]; exact tag_le_dh))
    · intro key ad c hs
      cases List.mem_singleton.mp hs
  | s =>
    obtain ⟨⟨t, c⟩, hc, hr⟩ := Noted.exists_of_bind hr
    cases hr
    have hp : a.symmetric.key = none → (S.publicKey a.s).length = 0 ∨
        tagLen ≤ (S.publicKey a.s).length := by
      intro _
      rw [S.length_publicKey]
      exact .inr tag_le_dh
    obtain ⟨htrans, hline⟩ := ht.encrypted hE.left hp hc
    refine ⟨htrans, ?_⟩
    have hevents : (a.writeToken .s).events =
        (a.symmetric.encryptAndHash S (S.publicKey a.s)).events := by
      unfold writeToken
      rw [Noted.bind_of_result hc]
      exact List.append_nil _
    rw [hevents]
    exact hline
  | _ =>
    obtain ⟨a₁, hc, hr⟩ := Noted.exists_of_bind hr
    cases hr
    refine ⟨mixed_transcript ht hE.left (by decide) hc, ?_⟩
    intro key ad c hs
    exact (only_mixToken (p := Event.Read) (fun _ => trivial) (fun _ _ => trivial) a _).bind
      (fun _ => Only.pure _) _ hs |>.elim

theorem decryptAndHash_key {t t' : SymmetricState} {c plaintext : Octets}
    (hr : (t.decryptAndHash S c).result = some (t', plaintext)) : t'.key = t.key := by
  cases hk : t.key with
  | none =>
    simp only [SymmetricState.decryptAndHash, hk] at hr
    cases hr
    exact hk
  | some k =>
    by_cases hshort : c.length < tagLen
    · rw [t.decryptAndHash_short S hk hshort] at hr
      cases hr
    · have hlen := Nat.le_of_not_lt hshort
      cases hd : S.decrypt k t.nonce t.hash c with
      | none =>
        rw [t.decryptAndHash_refused S hk hlen hd] at hr
        cases hr
      | some p =>
        rw [t.decryptAndHash_accepted S hk hlen hd] at hr
        cases hr
        exact hk

theorem encryptAndHash_key {t t' : SymmetricState} {c plaintext : Octets}
    (hr : (t.encryptAndHash S plaintext).result = some (t', c)) : t'.key = t.key := by
  cases hk : t.key with
  | none =>
    simp only [SymmetricState.encryptAndHash, hk] at hr
    cases hr
    exact hk
  | some k =>
    rw [t.encryptAndHash_sealed S hk] at hr
    cases hr
    exact hk

theorem afterEphemeral_key (hg : At g a) (key : Octets) :
    (a.afterEphemeral key).key.isSome = (g.keyed || g.psk) := by
  unfold afterEphemeral
  rw [← hg.psk, ← hg.keyed]
  cases a.psk with
  | none => simp
  | some psk => simp [SymmetricState.mixKey]

theorem readToken_e (h : ¬message.length < dhLen) :
    (b.readToken message .e).result =
      some ({ b with
        re := some (message.take dhLen)
        symmetric := b.afterEphemeral (message.take dhLen) }, message.drop dhLen) := by
  simp only [readToken, if_neg h, Noted.bind_result, mixEphemeral_result]
  rfl

/-- A field is as long as the stage of its reader says. -/
theorem fieldLength_s (hg : At g b) :
    (dhLen + if b.symmetric.key.isSome then tagLen else 0) = g.fieldLength .s := by
  unfold Stage.fieldLength
  rw [hg.keyed]

/-- What a token that has been read leaves of its reader. -/
theorem read_cases (hg : At g b) (hr : (b.readToken message token).result = some (b', rest)) :
    rest = message.drop (g.fieldLength token) ∧ At (g.after b.party.other token) b' ∧
      b'.party = b.party ∧ b'.psk = b.psk ∧ g.fieldLength token ≤ message.length := by
  cases token with
  | e =>
    by_cases hlen : message.length < dhLen
    · simp [readToken, hlen, Noted.stop] at hr
    · rw [readToken_e hlen] at hr
      cases hr
      refine ⟨rfl, ⟨hg.psk, ?_, fun _ => rfl, hg.rs⟩, rfl, rfl, Nat.le_of_not_lt hlen⟩
      exact afterEphemeral_key hg _
  | s =>
    simp only [readToken, fieldLength_s hg] at hr
    by_cases hlen : message.length < g.fieldLength .s
    · simp [hlen, Noted.stop] at hr
    · rw [if_neg hlen, Noted.bind_result] at hr
      obtain ⟨⟨t, key⟩, hd, hr⟩ := Option.bind_eq_some_iff.mp hr
      cases hr
      refine ⟨rfl, ⟨hg.psk, ?_, hg.re, fun _ => rfl⟩, rfl, rfl, Nat.le_of_not_lt hlen⟩
      show t.key.isSome = g.keyed
      rw [decryptAndHash_key hd, hg.keyed]
  | _ =>
    obtain ⟨b₁, hm, hr⟩ := Noted.exists_of_bind hr
    cases hr
    obtain ⟨hb, hk, -⟩ := mixToken_cases (by decide) hm
    rw [hb]
    exact ⟨rfl, ⟨hg.psk, hk, hg.re, hg.rs⟩, rfl, rfl, Nat.zero_le _⟩

theorem written_cases (hg : At g a) (hr : (a.writeToken token).result = some (a', field)) :
    At (g.after a.party token) a' ∧ a'.party = a.party := by
  have hother : a.party.other ≠ a.party := Party.other_ne _
  cases token with
  | e =>
    simp only [writeToken, Noted.bind_result, mixEphemeral_result] at hr
    cases hr
    refine ⟨⟨hg.psk, afterEphemeral_key hg _, ?_, hg.rs⟩, rfl⟩
    intro h
    apply hg.re
    simpa [Stage.after, Known.after, Function.update_of_ne hother] using h
  | s =>
    obtain ⟨⟨t, c⟩, hc, hr⟩ := Noted.exists_of_bind hr
    cases hr
    refine ⟨⟨hg.psk, ?_, hg.re, ?_⟩, rfl⟩
    · show t.key.isSome = g.keyed
      rw [encryptAndHash_key hc, hg.keyed]
    · intro h
      apply hg.rs
      simpa [Stage.after, Known.after, Function.update_of_ne hother] using h
  | _ =>
    obtain ⟨a₁, hm, hr⟩ := Noted.exists_of_bind hr
    cases hr
    obtain ⟨ha, hk, -⟩ := mixToken_cases (by decide) hm
    rw [ha]
    exact ⟨⟨hg.psk, hk, hg.re, hg.rs⟩, rfl⟩

theorem read_transcript (ht : Transcript S name E T b.symmetric.hash) (hg : At g b)
    (hE : Only (· ∈ E) (b.readToken message token))
    (hr : (b.readToken message token).result = some (b', rest)) :
    Transcript S name E (T ++ b.mixed (message.take (g.fieldLength token)) token)
      b'.symmetric.hash := by
  obtain ⟨-, -, -, -, hlen⟩ := read_cases hg hr
  have htake : (message.take (g.fieldLength token)).length = g.fieldLength token :=
    List.length_take_of_le hlen
  cases token with
  | e =>
    have hnot : ¬message.length < dhLen := Nat.not_lt_of_ge hlen
    simp only [readToken, if_neg hnot] at hE
    rw [readToken_e hnot] at hr
    cases hr
    have hin := hE (.hashed (b.symmetric.hash ++ message.take dhLen)) (List.mem_cons_self ..)
    show Transcript S name E _ (b.afterEphemeral _).hash
    rw [afterEphemeral_hash]
    refine ht.snoc hin (.inr ?_)
    show tagLen ≤ (message.take (g.fieldLength .e)).length
    rw [htake]
    exact tag_le_dh
  | s =>
    have hnot : ¬message.length < g.fieldLength .s := Nat.not_lt_of_ge hlen
    simp only [readToken, fieldLength_s hg, if_neg hnot] at hE hr
    obtain ⟨⟨t, key⟩, hd, hr⟩ := Noted.exists_of_bind hr
    cases hr
    refine ht.decrypted hE.left ?_ hd
    intro _
    rw [htake]
    exact .inr (Nat.le_trans tag_le_dh (Nat.le_add_right ..))
  | _ =>
    obtain ⟨b₁, hm, hr⟩ := Noted.exists_of_bind hr
    cases hr
    exact mixed_transcript ht hE.left (by decide) hm

/-- A token that checks nothing is read whatever its field is. -/
theorem read_exists (message : Octets) (hg : At g b) (ha : g.allows token = true)
    (hlen : g.fieldLength token ≤ message.length) (hs : token = .s → g.keyed = false) :
    ∃ b', (b.readToken message token).result = some (b', message.drop (g.fieldLength token)) := by
  simp only [Stage.allows, Bool.and_eq_true, Bool.or_eq_true, bne_iff_ne, ne_eq] at ha
  by_cases he : token = .e
  · subst he
    exact ⟨_, readToken_e (Nat.not_lt_of_ge hlen)⟩
  by_cases hs' : token = .s
  · subst hs'
    have hk : b.symmetric.key = none := by
      rw [← Option.isNone_iff_eq_none, ← Option.not_isSome, hg.keyed, hs rfl]
      rfl
    have hd : ∃ r, (b.symmetric.decryptAndHash S (message.take (g.fieldLength .s))).result =
        some r := by
      simp only [SymmetricState.decryptAndHash, hk]
      exact ⟨_, rfl⟩
    obtain ⟨r, hd⟩ := hd
    refine ⟨{ b with symmetric := r.1, rs := some r.2 }, ?_⟩
    simp only [readToken, fieldLength_s hg, if_neg (Nat.not_lt_of_ge hlen), Noted.bind_result, hd]
    rfl
  by_cases hp : token = .psk
  · subst hp
    have hpsk : b.psk.isSome = true := by
      rw [hg.psk]
      simpa using ha.2
    obtain ⟨psk, hpsk⟩ := Option.isSome_iff_exists.mp hpsk
    simp only [readToken, Noted.bind_result, mixToken_psk hpsk]
    exact ⟨_, rfl⟩
  · have hmem : token ∈ [Token.ee, .es, .se, .ss] := by
      cases token <;> simp_all
    obtain ⟨x, hx⟩ := hg.sharedKey ha.1 hmem
    refine ⟨{ b with symmetric := b.symmetric.mixKey S x }, ?_⟩
    cases token <;> first | contradiction | skip
    all_goals
      simp only [readToken, Noted.bind_result, mixToken_shared hx]
      rfl

theorem allows_iff :
    g.allows token = true ↔ g.known.agrees token = true ∧ (token = .psk → g.psk = true) := by
  unfold Stage.allows
  cases token <;> simp

/-- A field that leaves nothing is as long as the stage says. -/
theorem field_length (hg : At g b) (hr : (b.readToken (field ++ []) token).result = some (b', [])) :
    field.length = g.fieldLength token := by
  obtain ⟨hrest, -, -, -, hle⟩ := read_cases hg hr
  rw [List.append_nil] at hrest hle
  have hdrop := congrArg List.length hrest
  rw [List.length_drop, List.length_nil] at hdrop
  omega

/-- A message with the fields of these tokens. -/
def writeFields (a : HandshakeState S) (tokens : List Token) :
    Noted (HandshakeState S × Octets) := do
  let (a, fields) ← a.writeTokens tokens
  let (t, ciphertext) ← a.symmetric.encryptAndHash S []
  return ({ a with symmetric := t }, fields ++ ciphertext)

def readFields (a : HandshakeState S) (message : Octets) (tokens : List Token) :
    Noted (HandshakeState S × Octets) := do
  let (a, rest) ← a.readTokens message tokens
  let (t, payload) ← a.symmetric.decryptAndHash S rest
  return ({ a with symmetric := t }, payload)

theorem writeFields_nil (a : HandshakeState S) :
    a.writeFields [] = a.symmetric.encryptAndHash S [] >>= fun r =>
      pure ({ a with symmetric := r.1 }, r.2) := rfl

theorem readFields_nil (b : HandshakeState S) (message : Octets) :
    b.readFields message [] = b.symmetric.decryptAndHash S message >>= fun r =>
      pure ({ b with symmetric := r.1 }, r.2) := rfl

theorem readFields_cons (b : HandshakeState S) (message : Octets) (tokens : List Token) :
    b.readFields message (token :: tokens) =
      b.readToken message token >>= fun r => r.1.readFields r.2 tokens := by
  show (b.readToken message token >>= fun r => r.1.readTokens r.2 tokens) >>= _ = _
  rw [bind_assoc]
  rfl

theorem writeFields_cons (a : HandshakeState S) (tokens : List Token) :
    a.writeFields (token :: tokens) = a.writeToken token >>= fun r =>
      r.1.writeFields tokens >>= fun r' => pure (r'.1, r.2 ++ r'.2) := by
  show (a.writeToken token >>= fun r => r.1.writeTokens tokens >>= fun r' =>
    pure (r'.1, r.2 ++ r'.2)) >>= _ = _
  simp only [writeFields, bind_assoc, pure_bind, List.append_assoc]

theorem writeFields_transcript {tokens : List Token} (ht : Transcript S name E T a.symmetric.hash)
    (hE : Only (· ∈ E) (a.writeFields tokens))
    (hr : (a.writeFields tokens).result = some (a', message)) :
    ∃ T', T <+: T' ∧ Transcript S name E T' a'.symmetric.hash ∧
      OnLine S name E (a.writeFields tokens).events T' := by
  induction tokens generalizing a T message with
  | nil =>
    rw [writeFields_nil] at hE hr ⊢
    obtain ⟨⟨t, c⟩, hc, hr⟩ := Noted.exists_of_bind hr
    cases hr
    obtain ⟨htrans, hline⟩ := ht.encrypted hE.left (fun _ => .inl rfl) hc
    refine ⟨_, List.prefix_append _ _, htrans, ?_⟩
    rw [Noted.bind_of_result hc]
    show OnLine S name E (_ ++ []) _
    rw [List.append_nil]
    exact hline
  | cons token tokens ih =>
    rw [writeFields_cons] at hE hr ⊢
    obtain ⟨⟨a₁, field⟩, hw, hr⟩ := Noted.exists_of_bind hr
    obtain ⟨⟨a₂, rest⟩, hw', hr⟩ := Noted.exists_of_bind hr
    cases hr
    obtain ⟨ht₁, hline₁⟩ := written_transcript ht hE.left hw
    obtain ⟨T', hp, ht', hline'⟩ := ih ht₁ (hE.right hw).left hw'
    refine ⟨T', (List.prefix_append _ _).trans hp, ht', ?_⟩
    rw [Noted.bind_of_result hw]
    show OnLine S name E (_ ++ (a₁.writeFields tokens >>= _).events) T'
    rw [Noted.bind_of_result hw']
    show OnLine S name E (_ ++ (_ ++ [])) T'
    rw [List.append_nil]
    exact (hline₁.mono hp).append hline'

/-- The line of a message goes through its first field. -/
theorem writeFields_head {tokens : List Token} (hs : Sound S name E)
    (ht : Transcript S name E T a.symmetric.hash)
    (hE : Only (· ∈ E) (a.writeFields (token :: tokens)))
    (hr : (a.writeFields (token :: tokens)).result = some (a', message))
    (ht' : Transcript S name E T' a'.symmetric.hash) :
    ∃ a₁ field m₁, (a.writeToken token).result = some (a₁, field) ∧
      (a₁.writeFields tokens).result = some (a', m₁) ∧ message = field ++ m₁ ∧
      T ++ a.mixed field token <+: T' ∧
      Transcript S name E (T ++ a.mixed field token) a₁.symmetric.hash ∧
      Only (· ∈ E) (a.writeToken token) ∧ Only (· ∈ E) (a₁.writeFields tokens) := by
  rw [writeFields_cons] at hr hE
  obtain ⟨⟨a₁, field⟩, hw, hr⟩ := Noted.exists_of_bind hr
  obtain ⟨⟨a₂, m₁⟩, hw', hr⟩ := Noted.exists_of_bind hr
  cases hr
  have hE₁ := (hE.right hw).left
  obtain ⟨ht₁, -⟩ := written_transcript ht hE.left hw
  obtain ⟨T₂, hp, ht₂, -⟩ := writeFields_transcript ht₁ hE₁ hw'
  have hT : T₂ = T' := ht₂.inj hs.noCollision hs.started hs.long hs.short ht' rfl
  exact ⟨a₁, field, m₁, hw, hw', rfl, hT ▸ hp, ht₁, hE.left, hE₁⟩

theorem readToken_s_noticed (hs : Sound S name E) (hg : At g b) (hkeyed : g.keyed = true)
    (hlen : g.fieldLength .s ≤ message.length) (ht : Transcript S name E T b.symmetric.hash)
    (hline : OnLine S name E log T') (hoff : ¬ T ++ [message.take (g.fieldLength .s)] <+: T') :
    Noticed log (b.readToken message .s) := by
  have hk : b.symmetric.key.isSome = true := hg.keyed.trans hkeyed
  simp only [readToken, fieldLength_s hg, if_neg (Nat.not_lt_of_ge hlen)]
  refine (decryptAndHash_noticed hs ht hk ?_ hline hoff).bind
  rw [List.length_take_of_le hlen]
  exact Nat.le_trans tag_le_dh (Nat.le_add_right ..)

theorem only_read (b : HandshakeState S) (message : Octets) (token : Token) :
    Only Event.Read (b.readToken message token) :=
  only_readToken (fun _ => trivial) (fun _ _ => trivial) (fun _ _ _ _ => trivial) _ _ _

theorem plain_of_unchecked (h : ¬(token = .s ∧ g.keyed = true)) :
    token = .s → g.keyed = false := by
  intro ht
  cases hkeyed : g.keyed with
  | false => rfl
  | true => exact absurd ⟨ht, hkeyed⟩ h

/-- A reader that has left the line notices the message, whatever it is. -/
theorem readFields_noticed {tokens : List Token} (hs : Sound S name E) (hg : At g b)
    (hfits : g.fits b.party.other tokens = true)
    (hlen : g.messageLength b.party.other tokens ≤ message.length)
    (ht : Transcript S name E T b.symmetric.hash)
    (hE : Only (· ∈ E) (b.readFields message tokens)) (hline : OnLine S name E log T')
    (hoff : ¬ T <+: T') : Noticed log (b.readFields message tokens) := by
  induction tokens generalizing b g T message log with
  | nil =>
    have hk : b.symmetric.key.isSome = true := hg.keyed.trans hfits
    refine (decryptAndHash_noticed hs ht hk hlen hline ?_).bind
    intro hp
    exact hoff ((List.prefix_append _ _).trans hp)
  | cons token tokens ih =>
    simp only [Stage.fits, Bool.and_eq_true] at hfits
    simp only [Stage.messageLength] at hlen
    rw [readFields_cons] at hE ⊢
    by_cases hcheck : token = .s ∧ g.keyed = true
    · obtain ⟨rfl, hkeyed⟩ := hcheck
      refine (readToken_s_noticed hs hg hkeyed (by omega) ht hline ?_).bind
      intro hp
      exact hoff ((List.prefix_append _ _).trans hp)
    · obtain ⟨b', hr⟩ := read_exists message hg hfits.1 (by omega)
        (plain_of_unchecked hcheck)
      obtain ⟨-, hg', hparty, -, -⟩ := read_cases hg hr
      have ht' := read_transcript ht hg hE.left hr
      refine Noticed.bind_right hr (ih hg' ?_ ?_ ht' (hE.right hr) ?_ ?_)
      · rw [hparty]
        exact hfits.2
      · rw [hparty, List.length_drop]
        omega
      · exact hline.append (.of_read (only_read b message token))
      · intro hp
        exact hoff ((List.prefix_append _ _).trans hp)

/-- A reader that leaves the line with a field of the message notices it. -/
theorem readFields_field_noticed {tokens : List Token} (hs : Sound S name E) (hg : At g b)
    (hkind : token = .e ∨ token = .s) (hfits : g.fits b.party.other (token :: tokens) = true)
    (hlen : g.messageLength b.party.other (token :: tokens) ≤ message.length)
    (ht : Transcript S name E T b.symmetric.hash)
    (hE : Only (· ∈ E) (b.readFields message (token :: tokens)))
    (hline : OnLine S name E log T')
    (hoff : ¬ T ++ [message.take (g.fieldLength token)] <+: T') :
    Noticed log (b.readFields message (token :: tokens)) := by
  simp only [Stage.fits, Bool.and_eq_true] at hfits
  simp only [Stage.messageLength] at hlen
  rw [readFields_cons] at hE ⊢
  by_cases hcheck : token = .s ∧ g.keyed = true
  · obtain ⟨rfl, hkeyed⟩ := hcheck
    exact (readToken_s_noticed hs hg hkeyed (by omega) ht hline hoff).bind
  · obtain ⟨b', hr⟩ := read_exists message hg hfits.1 (by omega)
      (plain_of_unchecked hcheck)
    obtain ⟨-, hg', hparty, -, -⟩ := read_cases hg hr
    have ht' := read_transcript ht hg hE.left hr
    have hmixed : b.mixed (message.take (g.fieldLength token)) token =
        [message.take (g.fieldLength token)] := by
      cases hkind with
      | inl hk => subst hk; rfl
      | inr hk => subst hk; rfl
    rw [hmixed] at ht'
    refine Noticed.bind_right hr (readFields_noticed hs hg' ?_ ?_ ht' (hE.right hr) ?_ hoff)
    · rw [hparty]
      exact hfits.2
    · rw [hparty, List.length_drop]
      omega
    · exact hline.append (.of_read (only_read b message token))

/-- A field that has been changed takes its reader off the line. -/
theorem changed_field {T'' : List Octets} {x y : Octets} (hp : T ++ [x] <+: T'') (hxy : y ≠ x) :
    ¬ T ++ [y] <+: T'' := by
  intro hq
  have hsame := List.prefix_of_prefix_length_le hq hp (by simp)
  have heq := hsame.eq_of_length (by simp)
  exact hxy (by simpa using heq)

/-- A message that is as long as the one that was written and is not it is noticed. -/
theorem Matched.changed_noticed {K : Known} {tokens : List Token} {received : Octets}
    (h : Matched K a b) (hs : Sound S name E) (hga : At g a) (hgb : At g b) (hK : g.known = K)
    (hfits : g.fits a.party tokens = true)
    (hlen : g.messageLength a.party tokens ≤ received.length)
    (hw : (a.writeFields tokens).result = some (a', message)) (hne : received ≠ message)
    (ht : Transcript S name E T a.symmetric.hash) (ht' : Transcript S name E T' a'.symmetric.hash)
    (hEa : Only (· ∈ E) (a.writeFields tokens)) (hEb : Only (· ∈ E) (b.readFields received tokens))
    (hline : OnLine S name E log T') : Noticed log (b.readFields received tokens) := by
  have hother : b.party.other = a.party := by
    rw [h.party]
    cases a.party <;> rfl
  induction tokens generalizing a b g K T message received log with
  | nil =>
    rw [writeFields_nil] at hw hEa
    rw [readFields_nil]
    obtain ⟨⟨t, c⟩, hc, hr⟩ := Noted.exists_of_bind hw
    cases hr
    obtain ⟨htc, -⟩ := ht.encrypted hEa.left (fun _ => .inl rfl) hc
    have hT : T ++ [c] = T' := htc.inj hs.noCollision hs.started hs.long hs.short ht' rfl
    have hk : b.symmetric.key.isSome = true := hgb.keyed.trans hfits
    refine (decryptAndHash_noticed hs (h.symmetric ▸ ht) hk hlen hline ?_).bind
    exact changed_field (hT ▸ List.prefix_refl _) hne
  | cons token tokens ih =>
    have hfits' := hfits
    have hlen' := hlen
    simp only [Stage.fits, Bool.and_eq_true] at hfits'
    simp only [Stage.messageLength] at hlen'
    obtain ⟨a₁, field, fields, hwt, hwr, rfl, hpre, ht₁, -, hE₁⟩ :=
      writeFields_head hs ht hEa hw ht'
    obtain ⟨hagree, hpsk⟩ := (allows_iff).mp hfits'.1
    obtain ⟨a₁', b₁, field', hwt', hread, hm, hka, hkb, -⟩ :=
      h.token (hK ▸ hagree) fun hp => hga.psk.trans (hpsk hp)
    cases hwt.symm.trans hwt'
    have hfield : field.length = g.fieldLength token := field_length hgb (hread [])
    by_cases hsame : received.take (g.fieldLength token) = field
    · have hr : (b.readToken received token).result =
          some (b₁, received.drop (g.fieldLength token)) := by
        have hr := hread (received.drop (g.fieldLength token))
        rwa [← hsame, List.take_append_drop] at hr
      obtain ⟨hga', hpa⟩ := written_cases hga hwt
      obtain ⟨-, hgb', hpb, -, -⟩ := read_cases hgb hr
      rw [hother] at hgb'
      rw [readFields_cons] at hEb ⊢
      refine Noticed.bind_right hr
        (ih hm hga' hgb' ?_ ?_ ?_ hwr ?_ ht₁ hE₁ (hEb.right hr) ?_ ?_)
      · rw [← hK]
        rfl
      · rw [hpa]
        exact hfits'.2
      · rw [hpa, List.length_drop]
        omega
      · intro hf
        apply hne
        rw [← hf, ← hsame, List.take_append_drop]
      · exact hline.append (.of_read (only_read b received token))
      · rw [hpb, hpa]
        exact hother
    · have hkind : token = .e ∨ token = .s := by
        cases token with
        | e => exact .inl rfl
        | s => exact .inr rfl
        | _ => exact absurd (List.eq_nil_of_length_eq_zero hfield).symm hsame
      have hpre : T ++ [field] <+: T' := by
        cases hkind with
        | inl hk => subst hk; exact hpre
        | inr hk => subst hk; exact hpre
      rw [← hother] at hfits hlen
      exact readFields_field_noticed hs hgb hkind hfits hlen (h.symmetric ▸ ht) hEb hline
        (changed_field hpre hsame)

/-- A message that starts with another pre-shared key is noticed. -/
theorem psk_noticed {tokens : List Token} {x y : Octets} (hs : Sound S name E)
    (hgb : At g b) (hfits : g.fits b.party.other (.psk :: tokens) = true)
    (hlen : g.messageLength b.party.other (.psk :: tokens) ≤ rest.length)
    (hsame : b.symmetric = a.symmetric) (hx : a.psk = some x) (hy : b.psk = some y) (hne : x ≠ y)
    (hw : (a.writeFields (.psk :: tokens)).result = some (a', message))
    (ht : Transcript S name E T a.symmetric.hash) (ht' : Transcript S name E T' a'.symmetric.hash)
    (hEa : Only (· ∈ E) (a.writeFields (.psk :: tokens)))
    (hEb : Only (· ∈ E) (b.readFields rest (.psk :: tokens)))
    (hline : OnLine S name E log T') : Noticed log (b.readFields rest (.psk :: tokens)) := by
  obtain ⟨a₁, field, fields, hwt, -, -, hpre, -, hE₀, -⟩ := writeFields_head hs ht hEa hw ht'
  simp only [Stage.fits, Bool.and_eq_true] at hfits
  rw [readFields_cons] at hEb ⊢
  obtain ⟨b', hr⟩ := read_exists rest hgb hfits.1 (Nat.zero_le _) (fun h => by cases h)
  obtain ⟨-, hg', hparty, -, -⟩ := read_cases hgb hr
  rw [← hsame] at ht
  have ht₁ := read_transcript ht hgb hEb.left hr
  let out (psk : Octets) := (S.hkdf3 a.symmetric.chainingKey psk).2.1
  have hma : a.mixed field .psk = [out x] := by
    simp only [mixed, hx]
    rfl
  have hmb : b.mixed (rest.take (g.fieldLength .psk)) .psk = [out y] := by
    simp only [mixed, hy, hsame]
    rfl
  -- The two keys were derived from, so their outputs differ.
  have hdx : .derived a.symmetric.chainingKey x ∈ E := by
    apply hE₀.left
    simp only [mixToken, hx]
    exact List.mem_cons_self ..
  have hdy : .derived a.symmetric.chainingKey y ∈ E := by
    apply hEb.left.left
    simp only [mixToken, hy, hsame]
    exact List.mem_cons_self ..
  have hout : out y ≠ out x := by
    intro h
    exact hne (hs.noCollision.kdf _ _ _ hdx hdy h.symm)
  rw [hma] at hpre
  rw [hmb] at ht₁
  refine Noticed.bind_right hr (readFields_noticed hs hg' ?_ ?_ ht₁ (hEb.right hr) ?_
    (changed_field hpre hout))
  · rw [hparty]
    exact hfits.2
  · rw [hparty]
    simp only [Stage.messageLength] at hlen
    rw [List.length_drop]
    omega
  · exact hline.append (.of_read (only_read b rest .psk))

end HandshakeState

end HerdrMobile.Lib.Noise
