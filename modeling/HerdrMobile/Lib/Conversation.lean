import HerdrMobile.Lib.Tamper

/-!
# Whole handshakes

Two parties write and read in turn, over a network that may make anything of a message.
Either nothing has been changed and the two match in the end, or a change is noticed, or
a message has come in cut short.
-/
namespace HerdrMobile.Lib.Noise

set_option autoImplicit false

variable {S : Suite} {name : Octets} {E log : List Event} {T T' : List Octets}

section Outcomes

variable {α β : Type} {x : Noted α} {f : α → Noted β}

/-- A message was changed on its way. -/
def Altered (x : Noted α) : Prop :=
  ∃ sent received, .carried sent received ∈ x.events ∧ received ≠ sent

/-- A message came in cut short, and the computation has stopped. -/
def Cut (x : Noted α) : Prop :=
  x.result = none ∧
    ∃ sent received, .carried sent received ∈ x.events ∧ received.length < sent.length

theorem Cut.bind (h : Cut x) : Cut (x >>= f) := by
  obtain ⟨hx, sent, received, hc, hlen⟩ := h
  rw [Noted.bind_of_stopped hx]
  exact ⟨rfl, sent, received, hc, hlen⟩

theorem Cut.bind_right {a : α} (hx : x.result = some a) (h : Cut (f a)) : Cut (x >>= f) := by
  obtain ⟨hf, sent, received, hc, hlen⟩ := h
  rw [Noted.bind_of_result hx]
  exact ⟨hf, sent, received, List.mem_append_right _ hc, hlen⟩

theorem Altered.bind (h : Altered x) : Altered (x >>= f) := by
  obtain ⟨sent, received, hc, hne⟩ := h
  refine ⟨sent, received, ?_, hne⟩
  cases hx : x.result with
  | none => rw [Noted.bind_of_stopped hx]; exact hc
  | some a => rw [Noted.bind_of_result hx]; exact List.mem_append_left _ hc

theorem Altered.bind_right {a : α} (hx : x.result = some a) (h : Altered (f a)) :
    Altered (x >>= f) := by
  obtain ⟨sent, received, hc, hne⟩ := h
  rw [Noted.bind_of_result hx]
  exact ⟨sent, received, List.mem_append_right _ hc, hne⟩

theorem Altered.of_bind {a : α} (hx : x.result = some a)
    (hnone : ∀ sent received, .carried sent received ∈ x.events → received = sent)
    (h : Altered (x >>= f)) : Altered (f a) := by
  obtain ⟨sent, received, hc, hne⟩ := h
  rw [Noted.bind_of_result hx] at hc
  cases List.mem_append.mp hc with
  | inl hc => exact absurd (hnone _ _ hc) hne
  | inr hc => exact ⟨sent, received, hc, hne⟩

theorem Altered.of_quiet (hf : ∀ a, Only (fun _ => False) (f a)) (h : Altered (x >>= f)) :
    Altered x := by
  obtain ⟨sent, received, hc, hne⟩ := h
  refine ⟨sent, received, ?_, hne⟩
  cases hx : x.result with
  | none =>
    rw [Noted.bind_of_stopped hx] at hc
    exact hc
  | some a =>
    rw [Noted.bind_of_result hx] at hc
    exact (List.mem_append.mp hc).resolve_right (hf a _)

/-- What a handshake that went wrong comes to. -/
def Caught (log : List Event) (x : Noted α) : Prop := Noticed log x ∨ Cut x

theorem Caught.bind (h : Caught log x) : Caught log (x >>= f) :=
  h.imp Noticed.bind Cut.bind

theorem Caught.bind_right {a : α} (hx : x.result = some a)
    (h : Caught (log ++ x.events) (f a)) : Caught log (x >>= f) :=
  h.imp (Noticed.bind_right hx) (Cut.bind_right hx)

end Outcomes

theorem At.withMessages {a : HandshakeState S} {g : Stage} (h : At g a)
    (messages : List (List Token)) : At g { a with messages := messages } :=
  ⟨h.psk, h.keyed, h.re, h.rs⟩

namespace HandshakeState

variable {a b a' b' : HandshakeState S} {g : Stage} {message : Octets} {tokens : List Token}

theorem decryptAndHash_length {t t' : SymmetricState} {c p : Octets} (hk : t.key.isSome = true)
    (hr : (t.decryptAndHash S c).result = some (t', p)) : tagLen ≤ c.length := by
  obtain ⟨k, hk⟩ := Option.isSome_iff_exists.mp hk
  apply Nat.le_of_not_lt
  intro hshort
  rw [t.decryptAndHash_short S hk hshort] at hr
  cases hr

theorem readFields_cases (hg : At g b) (hfits : g.fits b.party.other tokens = true) {p : Octets}
    (hr : (b.readFields message tokens).result = some (b', p)) :
    g.messageLength b.party.other tokens ≤ message.length ∧
      At (g.afterAll b.party.other tokens) b' ∧ b'.party = b.party := by
  induction tokens generalizing b g message with
  | nil =>
    rw [readFields_nil] at hr
    obtain ⟨⟨t, c⟩, hd, hr⟩ := Noted.exists_of_bind hr
    cases hr
    refine ⟨decryptAndHash_length (hg.keyed.trans hfits) hd, ⟨hg.psk, ?_, hg.re, hg.rs⟩, rfl⟩
    show t.key.isSome = g.keyed
    rw [decryptAndHash_key hd, hg.keyed]
  | cons token tokens ih =>
    simp only [Stage.fits, Bool.and_eq_true] at hfits
    rw [readFields_cons] at hr
    obtain ⟨⟨b₁, rest⟩, hr₁, hr⟩ := Noted.exists_of_bind hr
    obtain ⟨rfl, hg₁, hparty, -, hle⟩ := read_cases hg hr₁
    rw [← hparty] at hg₁ hfits
    obtain ⟨hlen, hg', hparty'⟩ := ih hg₁ hfits.2 hr
    rw [hparty] at hlen hg'
    refine ⟨?_, hg', hparty'.trans hparty⟩
    simp only [Stage.messageLength]
    rw [List.length_drop] at hlen
    omega

theorem readFields_short (hg : At g b) (hfits : g.fits b.party.other tokens = true)
    (hlen : message.length < g.messageLength b.party.other tokens) :
    (b.readFields message tokens).result = none := by
  cases hr : (b.readFields message tokens).result with
  | none => rfl
  | some r =>
    obtain ⟨hle, -⟩ := readFields_cases hg hfits hr
    omega

theorem encryptAndHash_exists (t : SymmetricState) (plaintext : Octets) :
    ∃ t' c, (t.encryptAndHash S plaintext).result = some (t', c) ∧
      c.length = plaintext.length + (if t.key.isSome then tagLen else 0) := by
  obtain ⟨t', c, hc, hlen, -⟩ := t.decrypt_encryptAndHash S plaintext
  exact ⟨t', c, hc, hlen⟩

theorem writeToken_exists {token : Token} (hg : At g a) (ha : g.allows token = true) :
    ∃ a' field, (a.writeToken token).result = some (a', field) ∧
      field.length = g.fieldLength token := by
  obtain ⟨hagree, hpsk⟩ := (allows_iff).mp ha
  by_cases he : token = .e
  · subst he
    refine ⟨{ a with symmetric := a.afterEphemeral (S.publicKey a.e) }, S.publicKey a.e, ?_,
      S.length_publicKey _⟩
    simp only [writeToken, Noted.bind_result, mixEphemeral_result]
    rfl
  by_cases hs : token = .s
  · subst hs
    obtain ⟨t, c, hc, hlen⟩ := encryptAndHash_exists (S := S) a.symmetric (S.publicKey a.s)
    refine ⟨{ a with symmetric := t }, c, ?_, ?_⟩
    · simp only [writeToken, Noted.bind_result, hc]
      rfl
    · rw [hlen, S.length_publicKey, ← fieldLength_s hg]
  · have hmix : ∃ a', (a.mixToken token).result = some a' := by
      by_cases hp : token = .psk
      · subst hp
        obtain ⟨psk, hp⟩ := Option.isSome_iff_exists.mp (hg.psk.trans (hpsk rfl))
        exact ⟨_, mixToken_psk hp⟩
      · have hmem : token ∈ [Token.ee, .es, .se, .ss] := by
          cases token <;> simp_all
        obtain ⟨x, hx⟩ := hg.sharedKey hagree hmem
        exact ⟨_, mixToken_shared hx⟩
    obtain ⟨a', hm⟩ := hmix
    refine ⟨a', [], ?_, ?_⟩
    · cases token <;> first | contradiction | simp [writeToken, hm]
    · cases token <;> first | contradiction | rfl

theorem writeFields_exists (hg : At g a) (hfits : g.fits a.party tokens = true) :
    ∃ a' m, (a.writeFields tokens).result = some (a', m) ∧
      m.length = g.messageLength a.party tokens ∧ At (g.afterAll a.party tokens) a' ∧
      a'.party = a.party := by
  induction tokens generalizing a g with
  | nil =>
    obtain ⟨t, c, hc, hlen⟩ := encryptAndHash_exists (S := S) a.symmetric []
    refine ⟨{ a with symmetric := t }, c, ?_, ?_, ⟨hg.psk, ?_, hg.re, hg.rs⟩, rfl⟩
    · rw [writeFields_nil, Noted.bind_result, hc]
      rfl
    · rw [hlen, hg.keyed, show g.keyed = true from hfits]
      rfl
    · show t.key.isSome = g.keyed
      rw [encryptAndHash_key hc, hg.keyed]
  | cons token tokens ih =>
    simp only [Stage.fits, Bool.and_eq_true] at hfits
    obtain ⟨a₁, field, hw, hlen⟩ := writeToken_exists hg hfits.1
    obtain ⟨hg₁, hparty⟩ := written_cases hg hw
    rw [← hparty] at hg₁ hfits
    obtain ⟨a₂, m, hw', hlen', hg₂, hparty'⟩ := ih hg₁ hfits.2
    rw [hparty] at hlen' hg₂
    refine ⟨a₂, field ++ m, ?_, ?_, hg₂, hparty'.trans hparty⟩
    · rw [writeFields_cons]
      simp [hw, hw']
    · rw [List.length_append, hlen, hlen']
      rfl

theorem writeMessage_fields {messages : List (List Token)} (h : a.messages = tokens :: messages) :
    a.writeMessage [] = { a with messages := messages }.writeFields tokens := by
  unfold writeMessage
  rw [h]
  rfl

theorem readMessage_fields {messages : List (List Token)} (h : b.messages = tokens :: messages)
    (m : Octets) : b.readMessage m = { b with messages := messages }.readFields m tokens := by
  unfold readMessage
  rw [h]
  rfl

/-- What the network makes of a message. -/
def carry (network : Octets → Octets) (message : Octets) : Noted Octets := do
  Noted.note (.carried message (network message))
  return network message

/-- The party `a` writes first; each message has a network of its own. -/
def converse : List (Octets → Octets) → HandshakeState S → HandshakeState S →
    Noted (HandshakeState S × HandshakeState S)
  | [], a, b => pure (a, b)
  | network :: networks, a, b => do
    let (a, message) ← a.writeMessage []
    let message ← carry network message
    let (b, _) ← b.readMessage message
    let (b, a) ← converse networks b a
    return (a, b)

theorem carry_result (network : Octets → Octets) (m : Octets) :
    (carry network m).result = some (network m) := rfl

theorem carry_events (network : Octets → Octets) (m : Octets) :
    (carry network m).events = [.carried m (network m)] := rfl

variable {network : Octets → Octets} {networks : List (Octets → Octets)}
  {messages : List (List Token)}

/-- The rest of a conversation after the message has been written. -/
def afterWrite (network : Octets → Octets) (networks : List (Octets → Octets))
    (b : HandshakeState S) (r : HandshakeState S × Octets) :
    Noted (HandshakeState S × HandshakeState S) := do
  let message ← carry network r.2
  let (b, _) ← b.readMessage message
  let (b, a) ← converse networks b r.1
  return (a, b)

theorem converse_cons (a b : HandshakeState S) :
    converse (network :: networks) a b = a.writeMessage [] >>= afterWrite network networks b := rfl

/-- A first message that its reader notices, or that comes in cut short. -/
theorem converse_caught (hg : At g b) (hmessages : b.messages = tokens :: messages)
    (hfits : g.fits b.party.other tokens = true)
    (hw : (a.writeMessage []).result = some (a', message))
    (hlen : message.length = g.messageLength b.party.other tokens)
    (hnotice : g.messageLength b.party.other tokens ≤ (network message).length →
      Noticed (log ++ (a.writeMessage []).events ++ [.carried message (network message)])
        (b.readMessage (network message))) :
    Caught log (converse (network :: networks) a b) := by
  by_cases hshort : (network message).length < g.messageLength b.party.other tokens
  · have hread : (b.readMessage (network message)).result = none := by
      rw [readMessage_fields hmessages]
      exact readFields_short (hg.withMessages messages) hfits hshort
    have hcut : Cut (afterWrite network networks b (a', message)) := by
      refine ⟨?_, message, network message, ?_, hlen ▸ hshort⟩
      · simp only [afterWrite, Noted.bind_result, carry_result, Option.bind_some, hread]
        rfl
      · unfold afterWrite
        rw [Noted.bind_of_result (carry_result network message), carry_events]
        exact List.mem_cons_self ..
    rw [converse_cons]
    exact .inr (hcut.bind_right hw)
  · rw [converse_cons]
    refine .inl (Noticed.bind_right hw ?_)
    exact Noticed.bind_right (carry_result network message) (hnotice (Nat.le_of_not_lt hshort)).bind

theorem known_afterAll (g : Stage) (p : Party) (tokens : List Token) :
    (g.afterAll p tokens).known = g.known.afterAll p tokens := by
  induction tokens generalizing g with
  | nil => rfl
  | cons token tokens ih => exact ih _

theorem fits_agrees (h : g.fits a.party tokens = true) :
    g.known.allAgree a.party tokens = true ∧ (Token.psk ∈ tokens → g.psk = true) := by
  induction tokens generalizing g with
  | nil => exact ⟨rfl, fun h => by cases h⟩
  | cons token tokens ih =>
    simp only [Stage.fits, Bool.and_eq_true] at h
    obtain ⟨hagree, hpsk⟩ := (allows_iff).mp h.1
    obtain ⟨hall, hrest⟩ := ih h.2
    refine ⟨?_, ?_⟩
    · simp only [Known.allAgree, Bool.and_eq_true]
      exact ⟨hagree, hall⟩
    · intro hmem
      cases List.mem_cons.mp hmem with
      | inl ht => exact hpsk ht.symm
      | inr ht => exact hrest ht

/-- Two parties before a message of `a`, with all that was sealed behind them. -/
structure Ready (S : Suite) (name : Octets) (E log : List Event) (g : Stage)
    (messages : List (List Token)) (T : List Octets) (a b : HandshakeState S) : Prop where
  matched : Matched g.known a b
  writer : At g a
  reader : At g b
  fits : g.fitsAll a.party messages = true
  messages : a.messages = messages
  transcript : Transcript S name E T a.symmetric.hash
  line : OnLine S name E log T

theorem Matched.other {K : Known} (h : Matched K a b) : b.party.other = a.party := by
  rw [h.party]
  cases a.party <;> rfl

/-- A message that comes in as it was written leaves the parties ready for the next. -/
theorem Ready.exchange (h : Ready S name E log g (tokens :: messages) T a b)
    (hEw : Only (· ∈ E) (a.writeMessage [])) :
    ∃ a' b' m T', (a.writeMessage []).result = some (a', m) ∧
      (b.readMessage m).result = some (b', []) ∧
      m.length = g.messageLength a.party tokens ∧ Keeps a a' ∧ Keeps b b' ∧
      Ready S name E (log ++ (a.writeMessage []).events ++ [.carried m m] ++
        (b.readMessage m).events) (g.afterAll a.party tokens) messages T' b' a' := by
  have hfits := h.fits
  simp only [Stage.fitsAll, Bool.and_eq_true] at hfits
  obtain ⟨hagree, hpsk⟩ := fits_agrees hfits.1
  obtain ⟨a', b', m, hw, hr, hm, hka, hkb, hmessages⟩ :=
    h.matched.exchange h.messages hagree (fun hp => h.writer.psk.trans (hpsk hp)) []
  have hbm : b.messages = tokens :: messages := h.matched.messages ▸ h.messages
  have hw' := hw
  have hr' := hr
  rw [writeMessage_fields h.messages] at hw' hEw
  rw [readMessage_fields hbm] at hr'
  obtain ⟨a₁, m₁, hw₁, hlen, hg₁, -⟩ := writeFields_exists (h.writer.withMessages messages) hfits.1
  cases hw'.symm.trans hw₁
  have hfits₁ := hfits.1
  rw [← h.matched.other] at hfits₁
  obtain ⟨-, hgb, -⟩ := readFields_cases (h.reader.withMessages messages) hfits₁ hr'
  obtain ⟨T', hpre, ht', hline'⟩ := writeFields_transcript
    (a := { a with messages := messages }) h.transcript hEw hw'
  have hread : Only Event.Read (b.readMessage m) :=
    only_readMessage (fun _ => trivial) (fun _ _ => trivial) (fun _ _ _ _ => trivial) _ _
  refine ⟨a', b', m, T', hw, hr, hlen, hka, hkb, ?_, ?_, hg₁, ?_, ?_, ?_, ?_⟩
  · rw [known_afterAll]
    exact hm.swap
  · rw [← h.matched.other]
    exact hgb
  · rw [hkb.party, h.matched.party]
    exact hfits.2
  · rw [← hm.messages]
    exact hmessages
  · rw [← hm.symmetric]
    exact ht'
  · have hcarried : OnLine S name E [.carried m m] T' := by
      intro key ad c hs
      cases List.mem_singleton.mp hs
    rw [writeMessage_fields h.messages]
    exact (((h.line.mono hpre).append hline').append hcarried).append (.of_read hread)

theorem Matched.withMessages {K : Known} (h : Matched K a b) (messages : List (List Token)) :
    Matched K { a with messages := messages } { b with messages := messages } :=
  ⟨h.symmetric, h.psk, rfl, h.party, ⟨h.ab.re, h.ab.rs⟩, ⟨h.ba.re, h.ba.rs⟩⟩

theorem written_not_carried (a : HandshakeState S) (sent received : Octets)
    (hc : .carried sent received ∈ (a.writeMessage []).events) : received = sent :=
  (only_writeMessage (p := Event.Written) (fun _ => trivial) (fun _ _ => trivial)
    (fun _ _ _ => trivial) a [] _ hc).elim

theorem read_not_carried (b : HandshakeState S) (m sent received : Octets)
    (hc : .carried sent received ∈ (b.readMessage m).events) : received = sent :=
  (only_readMessage (p := Event.Read) (fun _ => trivial) (fun _ _ => trivial)
    (fun _ _ _ _ => trivial) b m _ hc).elim

/-- Whatever becomes of the messages of two parties that match, a change is caught. -/
theorem Ready.altered_caught (hs : Sound S name E) (h : Ready S name E log g messages T a b)
    (hE : Only (· ∈ E) (converse networks a b)) (ha : Altered (converse networks a b)) :
    Caught log (converse networks a b) := by
  induction networks generalizing log g messages T a b with
  | nil =>
    obtain ⟨sent, received, hc, -⟩ := ha
    cases hc
  | cons network networks ih =>
    cases messages with
    | nil =>
      obtain ⟨sent, received, hc, -⟩ := ha
      rw [converse_cons] at hc
      unfold writeMessage at hc
      rw [h.messages] at hc
      cases hc
    | cons tokens messages =>
      have hEw : Only (· ∈ E) (a.writeMessage []) := by
        rw [converse_cons] at hE
        exact hE.left
      obtain ⟨a', b', m, T', hw, hr, hlen, -, -, hready⟩ := h.exchange hEw
      have hfits := h.fits
      simp only [Stage.fitsAll, Bool.and_eq_true] at hfits
      have hbm : b.messages = tokens :: messages := h.matched.messages ▸ h.messages
      by_cases hm : network m = m
      · have hcarry : (carry network m).result = some m := by
          rw [carry_result, hm]
        have hevents : (carry network m).events = [.carried m m] := by
          rw [carry_events, hm]
        rw [converse_cons] at hE ha ⊢
        have hE' := (((hE.right hw).right hcarry).right hr).left
        have ha' : Altered (converse networks b' a') := by
          have ha₁ := ha.of_bind hw (written_not_carried a)
          have ha₂ := ha₁.of_bind hcarry (by
            intro sent received hc
            rw [hevents] at hc
            cases List.mem_singleton.mp hc
            rfl)
          exact (ha₂.of_bind hr (read_not_carried b m)).of_quiet fun _ => Only.pure _
        have hih := ih hready hE' ha'
        rw [← hevents] at hih
        exact .bind_right hw (.bind_right hcarry (.bind_right hr hih.bind))
      · have hfits' := hfits.1
        have hother := h.matched.other
        rw [← hother] at hfits' hlen
        refine converse_caught h.reader hbm hfits' hw hlen ?_
        intro hle
        rw [converse_cons] at hE
        have hEr := ((hE.right hw).right (carry_result network m)).left
        rw [readMessage_fields hbm] at hEr ⊢
        rw [writeMessage_fields h.messages] at hw hEw ⊢
        obtain ⟨T₁, hpre, ht₁, hline₁⟩ := writeFields_transcript
          (a := { a with messages := messages }) h.transcript hEw hw
        have hcarried : OnLine S name E [.carried m (network m)] T₁ := by
          intro key ad c hs
          cases List.mem_singleton.mp hs
        rw [hother] at hle
        exact Matched.changed_noticed (h.matched.withMessages messages) hs
          (h.writer.withMessages messages) (h.reader.withMessages messages) rfl hfits.1 hle hw hm
          h.transcript ht₁ hEw hEr (((h.line.mono hpre).append hline₁).append hcarried)

/-- Nothing has been changed: the conversation ends with two parties that match. -/
theorem Ready.agree (h : Ready S name E log g messages T a b)
    (hE : Only (· ∈ E) (converse networks a b)) (ha : ¬Altered (converse networks a b))
    (hn : networks.length = messages.length) :
    ∃ a' b', (converse networks a b).result = some (a', b') ∧
      Matched (g.final a.party messages).known a' b' ∧ Keeps a a' ∧ Keeps b b' ∧
      a'.messages = [] := by
  induction networks generalizing log g messages T a b with
  | nil =>
    obtain rfl := List.eq_nil_of_length_eq_zero hn.symm
    exact ⟨a, b, rfl, h.matched, Keeps.refl a, Keeps.refl b, h.messages⟩
  | cons network networks ih =>
    cases messages with
    | nil => cases hn
    | cons tokens messages =>
      rw [converse_cons] at hE ha
      obtain ⟨a', b', m, T', hw, hr, -, hka, hkb, hready⟩ := h.exchange hE.left
      have hm : network m = m := by
        by_contra hne
        have hcarried : Altered (carry network m) :=
          ⟨m, network m, List.mem_cons_self .., hne⟩
        exact ha (.bind_right hw hcarried.bind)
      have hcarry : (carry network m).result = some m := by
        rw [carry_result, hm]
      have hE' := (((hE.right hw).right hcarry).right hr).left
      have ha' : ¬Altered (converse networks b' a') := by
        intro hlater
        exact ha (.bind_right hw (.bind_right hcarry (.bind_right hr hlater.bind)))
      obtain ⟨b₂, a₂, hres, hm₂, hkb₂, hka₂, hlast⟩ := ih hready hE' ha' (Nat.succ.inj hn)
      refine ⟨a₂, b₂, ?_, ?_, hka.trans hka₂, hkb.trans hkb₂, hm₂.messages ▸ hlast⟩
      · rw [converse_cons]
        simp [afterWrite, hw, hcarry, hr, hres]
      · rw [hkb.party, h.matched.party] at hm₂
        exact hm₂.swap

/-- Two parties before the first message, each with keys of its own. -/
structure Apart (S : Suite) (name : Octets) (E log : List Event) (g : Stage)
    (tokens : List Token) (messages : List (List Token)) (T : List Octets)
    (a b : HandshakeState S) : Prop where
  writer : At g a
  reader : At g b
  other : b.party.other = a.party
  fits : g.fits a.party tokens = true
  writerMessages : a.messages = tokens :: messages
  readerMessages : b.messages = tokens :: messages
  transcript : Transcript S name E T a.symmetric.hash
  line : OnLine S name E log T

/-- Enough to catch the first message: its reader notices it wherever the writer's line
goes on from its own field. -/
theorem Apart.caught (h : Apart S name E log g tokens messages T a b)
    (hE : Only (· ∈ E) (converse (network :: networks) a b))
    (hnotice : ∀ a' m T' log, ({ a with messages := messages }.writeFields tokens).result =
        some (a', m) →
      Only (· ∈ E) ({ a with messages := messages }.writeFields tokens) →
      Transcript S name E T' a'.symmetric.hash → T <+: T' → OnLine S name E log T' →
      g.messageLength b.party.other tokens ≤ (network m).length →
      Only (· ∈ E) ({ b with messages := messages }.readFields (network m) tokens) →
      Noticed log ({ b with messages := messages }.readFields (network m) tokens)) :
    Caught log (converse (network :: networks) a b) := by
  rw [converse_cons] at hE
  obtain ⟨a', m, hw, hlen, -, -⟩ := writeFields_exists (h.writer.withMessages messages) h.fits
  have hEw := hE.left
  rw [writeMessage_fields h.writerMessages] at hEw
  obtain ⟨T', hpre, ht', hline⟩ := writeFields_transcript
    (a := { a with messages := messages }) h.transcript hEw hw
  have hw' := hw
  rw [← writeMessage_fields h.writerMessages] at hw'
  have hfits := h.fits
  rw [← h.other] at hfits
  have hlen' : m.length = g.messageLength b.party.other tokens := h.other ▸ hlen
  refine converse_caught h.reader h.readerMessages hfits hw' hlen' ?_
  intro hle
  have hEr := ((hE.right hw').right (carry_result network m)).left
  rw [readMessage_fields h.readerMessages] at hEr ⊢
  have hcarried : OnLine S name E [.carried m (network m)] T' := by
    intro key ad c hs
    cases List.mem_singleton.mp hs
  rw [writeMessage_fields h.writerMessages]
  exact hnotice a' m T' _ hw hEw ht' hpre (((h.line.mono hpre).append hline).append hcarried) hle hEr

/-- Static keys that differ are in the transcript before the first message. -/
theorem Apart.static_caught (hs : Sound S name E) (h : Apart S name E log g tokens messages T a b)
    (ht : Transcript S name E T' b.symmetric.hash) (hlen : T'.length = T.length) (hne : T' ≠ T)
    (hE : Only (· ∈ E) (converse (network :: networks) a b)) :
    Caught log (converse (network :: networks) a b) := by
  have hfits := h.fits
  rw [← h.other] at hfits
  refine h.caught hE ?_
  intro a' m T₁ log _ _ _ hpre hline hle hEr
  refine readFields_noticed hs (h.reader.withMessages messages) hfits hle ht hEr hline ?_
  intro hp
  exact hne ((List.prefix_of_prefix_length_le hp hpre (Nat.le_of_eq hlen)).eq_of_length hlen)

/-- Pre-shared keys that differ are in the transcript after the first token. -/
theorem Apart.psk_caught {x y : Octets} (hs : Sound S name E)
    (h : Apart S name E log g (.psk :: tokens) messages T a b) (hsame : b.symmetric = a.symmetric)
    (hx : a.psk = some x) (hy : b.psk = some y) (hne : x ≠ y)
    (hE : Only (· ∈ E) (converse (network :: networks) a b)) :
    Caught log (converse (network :: networks) a b) := by
  have hfits := h.fits
  rw [← h.other] at hfits
  refine h.caught hE ?_
  intro a' m T₁ log hw hEw ht₁ _ hline hle hEr
  exact psk_noticed (a := { a with messages := messages }) hs (h.reader.withMessages messages)
    hfits hle hsame hx hy hne hw h.transcript ht₁ hEw hEr hline

/-- The pre-message keys as a party has them. -/
def preKeys (a : HandshakeState S) (pre : List Party) : List Octets := pre.filterMap a.staticKey

theorem mixPre_cons {p : Party} {pre : List Party} {key : Octets} (h : a.staticKey p = some key) :
    a.mixPre (p :: pre) = a.symmetric.mixHash S key >>= fun t =>
      { a with symmetric := t }.mixPre pre := by
  conv_lhs => unfold mixPre
  rw [h]
  rfl

theorem mixPre_transcript {pre : List Party} (ht : Transcript S name E T a.symmetric.hash)
    (hkeys : ∀ p ∈ pre, ∃ key, a.staticKey p = some key ∧ key.length = dhLen)
    (hE : Only (· ∈ E) (a.mixPre pre)) :
    ∃ t, (a.mixPre pre).result = some { a with symmetric := t } ∧ t.key = a.symmetric.key ∧
      Transcript S name E (T ++ a.preKeys pre) t.hash := by
  induction pre generalizing a T with
  | nil =>
    refine ⟨a.symmetric, rfl, rfl, ?_⟩
    rw [show a.preKeys [] = [] from rfl, List.append_nil]
    exact ht
  | cons p pre ih =>
    obtain ⟨key, hkey, hlen⟩ := hkeys p (List.mem_cons_self ..)
    rw [mixPre_cons hkey] at hE ⊢
    have hin := hE.left (.hashed (a.symmetric.hash ++ key)) (List.mem_cons_self ..)
    have ht' := ht.snoc hin (.inr (by rw [hlen]; exact tag_le_dh))
    obtain ⟨t, hr, hk, htt⟩ := ih
      (a := { a with symmetric := { a.symmetric with hash := S.hash (a.symmetric.hash ++ key) } })
      ht' (fun p hp => hkeys p (List.mem_cons_of_mem _ hp))
      (hE.right (SymmetricState.mixHash_result S _ _))
    refine ⟨t, ?_, hk, ?_⟩
    · rw [Noted.bind_result, SymmetricState.mixHash_result]
      exact hr
    · rw [show a.preKeys (p :: pre) = key :: a.preKeys pre by simp [preKeys, hkey]]
      rw [List.append_assoc] at htt
      exact htt

theorem start_transcript {pattern : Pattern} {party : Party} {s e : S.PrivateKey}
    {rs psk : Option Octets} (hlong : hashLen < pattern.name.length)
    (hpre : ∀ p ∈ pattern.pre, p ≠ party → rs.isSome = true)
    (hrs : ∀ key, rs = some key → key.length = dhLen)
    (hE : Only (· ∈ E) (start pattern [] party s e rs psk)) :
    ∃ a, (start pattern [] party s e rs psk).result = some a ∧ .hashed pattern.name ∈ E ∧
      a.party = party ∧ a.psk = psk ∧ a.rs = rs ∧ a.s = s ∧ a.messages = pattern.messages ∧
      a.symmetric.key = none ∧
      Transcript S pattern.name E ([] :: a.preKeys pattern.pre) a.symmetric.hash := by
  have hname : SymmetricState.initializeSymmetric S pattern.name =
      ⟨some { key := none, nonce := 0, chainingKey := S.hash pattern.name,
              hash := S.hash pattern.name }, [.hashed pattern.name]⟩ := by
    unfold SymmetricState.initializeSymmetric
    rw [if_neg (by omega)]
    rfl
  unfold start at hE ⊢
  rw [hname] at hE ⊢
  have hstarted := hE.left (.hashed pattern.name) (List.mem_cons_self ..)
  have hE₁ := hE.right rfl
  have hin := hE₁.left (.hashed (S.hash pattern.name ++ [])) (List.mem_cons_self ..)
  have ht : Transcript S pattern.name E [[]] (S.hash (S.hash pattern.name ++ [])) :=
    (Transcript.nil).snoc hin (.inl rfl)
  have hE₂ := hE₁.right (SymmetricState.mixHash_result S _ _)
  let a : HandshakeState S := {
    symmetric := { key := none, nonce := 0, chainingKey := S.hash pattern.name
                   hash := S.hash (S.hash pattern.name ++ []) }
    party := party
    s := s
    e := e
    rs := rs
    re := none
    psk := psk
    messages := pattern.messages }
  have hkeys : ∀ p ∈ pattern.pre, ∃ key, a.staticKey p = some key ∧ key.length = dhLen := by
    intro p hp
    by_cases hown : p = party
    · exact ⟨S.publicKey s, if_pos hown, S.length_publicKey s⟩
    · obtain ⟨key, hkey⟩ := Option.isSome_iff_exists.mp (hpre p hp hown)
      exact ⟨key, (if_neg hown).trans hkey, hrs key hkey⟩
  obtain ⟨t, hr, hk, htt⟩ := mixPre_transcript (a := a) ht hkeys hE₂
  refine ⟨{ a with symmetric := t }, ?_, hstarted, rfl, rfl, rfl, rfl, rfl, hk, htt⟩
  rw [Noted.bind_result, Option.bind_some, Noted.bind_result, SymmetricState.mixHash_result]
  exact hr

/-- The stage before any message; `static` are the parties whose static key the other one
has. -/
def firstStage (psk : Option Octets) (static : Party → Bool) : Stage where
  psk := psk.isSome
  keyed := false
  known := ⟨fun _ => false, static⟩

section Start

variable {pattern : Pattern} {s e s' e' : S.PrivateKey} {rs rs' psk psk' : Option Octets}
  {static : Party → Bool}

theorem At.of_start {rs₀ psk₀ : Option Octets} (hpsk : a.psk = psk₀) (hk : a.symmetric.key = none)
    (hrs : a.rs = rs₀) (hsome : static a.party.other = true → rs₀.isSome = true) :
    At (firstStage psk₀ static) a where
  psk := congrArg Option.isSome hpsk
  keyed := by rw [hk]; rfl
  re h := by cases h
  rs h := by rw [hrs]; exact hsome h

/-- Two parties that have started with the same keys are ready. -/
theorem ready_of_start (hlong : hashLen < pattern.name.length)
    (hpre : ∀ p ∈ pattern.pre, static p = true)
    (hrs : rs = if static .responder then some (S.publicKey s') else none)
    (hrs' : rs' = if static .initiator then some (S.publicKey s) else none)
    (hfits : (firstStage psk static).fitsAll .initiator pattern.messages = true)
    (hE : Only (· ∈ E) (start pattern [] .initiator s e rs psk))
    (hE' : Only (· ∈ E) (start pattern [] .responder s' e' rs' psk))
    (hlog : ∀ T, OnLine S pattern.name E log T) :
    ∃ a b T, (start pattern [] .initiator s e rs psk).result = some a ∧
      (start pattern [] .responder s' e' rs' psk).result = some b ∧ .hashed pattern.name ∈ E ∧
      Ready S pattern.name E log (firstStage psk static) pattern.messages T a b ∧
      a.party = .initiator ∧ a.s = s ∧ b.s = s' := by
  have hlength : ∀ {r : Option Octets} {k : S.PrivateKey} {c : Bool},
      r = (if c then some (S.publicKey k) else none) → ∀ key, r = some key → key.length = dhLen := by
    intro r k c hr key hkey
    rw [hr] at hkey
    cases c with
    | false => cases hkey
    | true => cases hkey; exact S.length_publicKey k
  obtain ⟨a, b, ha, hb, hm, hpa, hpsk, hmessages, has, hbs⟩ :=
    start_matched [] e e' psk static hpre hrs hrs'
  obtain ⟨a₁, ha₁, hstarted, -, -, har, -, -, hak, ht⟩ := start_transcript hlong (fun p hp hne => by
    cases p with
    | initiator => exact absurd rfl hne
    | responder => rw [hrs, hpre _ hp]; rfl) (hlength hrs) hE
  obtain ⟨b₁, hb₁, -, hpb, hbpsk, hbr, -, -, hbk, -⟩ := start_transcript hlong (fun p hp hne => by
    cases p with
    | initiator => rw [hrs', hpre _ hp]; rfl
    | responder => exact absurd rfl hne) (hlength hrs') hE'
  cases ha.symm.trans ha₁
  cases hb.symm.trans hb₁
  refine ⟨a, b, _, ha, hb, hstarted, ⟨hm, ?_, ?_, ?_, hmessages, ht, hlog _⟩, hpa, has, hbs⟩
  · refine At.of_start hpsk hak har ?_
    intro h
    rw [hpa] at h
    rw [hrs, show static .responder = true from h]
    rfl
  · refine At.of_start hbpsk hbk hbr ?_
    intro h
    rw [hpb] at h
    rw [hrs', show static .initiator = true from h]
    rfl
  · rw [hpa]
    exact hfits

/-- Two parties that have started, each with keys of its own. -/
theorem apart_of_start {tokens : List Token} {messages : List (List Token)}
    (hlong : hashLen < pattern.name.length)
    (hpre : ∀ p ∈ pattern.pre, static p = true)
    (hsome : static .responder = true → rs.isSome = true)
    (hsome' : static .initiator = true → rs'.isSome = true)
    (hrs : ∀ key, rs = some key → key.length = dhLen)
    (hrs' : ∀ key, rs' = some key → key.length = dhLen)
    (hpsk : psk.isSome = psk'.isSome)
    (hmessages : pattern.messages = tokens :: messages)
    (hfits : (firstStage psk static).fits .initiator tokens = true)
    (hE : Only (· ∈ E) (start pattern [] .initiator s e rs psk))
    (hE' : Only (· ∈ E) (start pattern [] .responder s' e' rs' psk'))
    (hlog : ∀ T, OnLine S pattern.name E log T) :
    ∃ a b, (start pattern [] .initiator s e rs psk).result = some a ∧
      (start pattern [] .responder s' e' rs' psk').result = some b ∧ .hashed pattern.name ∈ E ∧
      Apart S pattern.name E log (firstStage psk static) tokens messages
        ([] :: a.preKeys pattern.pre) a b ∧
      Transcript S pattern.name E ([] :: b.preKeys pattern.pre) b.symmetric.hash ∧
      a.psk = psk ∧ b.psk = psk' ∧ a.rs = rs ∧ b.rs = rs' ∧ a.s = s ∧ b.s = s' ∧
      a.party = .initiator ∧ b.party = .responder := by
  obtain ⟨a, ha, hstarted, hpa, hapsk, har, has, ham, hak, ht⟩ :=
    start_transcript hlong (fun p hp hne => by
      cases p with
      | initiator => exact absurd rfl hne
      | responder => exact hsome (hpre _ hp)) hrs hE
  obtain ⟨b, hb, -, hpb, hbpsk, hbr, hbs, hbm, hbk, ht'⟩ :=
    start_transcript hlong (fun p hp hne => by
      cases p with
      | initiator => exact hsome' (hpre _ hp)
      | responder => exact absurd rfl hne) hrs' hE'
  have hstage : firstStage psk static = firstStage psk' static := by
    unfold firstStage
    rw [hpsk]
  refine ⟨a, b, ha, hb, hstarted, ⟨?_, ?_, ?_, ?_, ?_, ?_, ht, hlog _⟩, ht', hapsk, hbpsk, har, hbr, has,
    hbs, hpa, hpb⟩
  · refine At.of_start hapsk hak har ?_
    rw [hpa]
    exact hsome
  · rw [hstage]
    refine At.of_start hbpsk hbk hbr ?_
    rw [hpb]
    exact hsome'
  · rw [hpa, hpb]
    rfl
  · rw [hpa]
    exact hfits
  · rw [ham, hmessages]
  · rw [hbm, hmessages]

theorem only_mixPre (a : HandshakeState S) (pre : List Party) : Only Event.Read (a.mixPre pre) := by
  induction pre generalizing a with
  | nil => exact Only.pure _
  | cons p pre ih =>
    refine (Only.ofOption _).bind fun _ => Only.bind ?_ fun _ => ih _
    exact (Only.note trivial).bind fun _ => Only.pure _

/-- A party that starts seals nothing and sends nothing. -/
theorem only_start (pattern : Pattern) (party : Party) (s e : S.PrivateKey)
    (rs psk : Option Octets) : Only Event.Read (start pattern [] party s e rs psk) := by
  refine Only.bind ?_ fun _ => Only.bind ?_ fun _ => only_mixPre _ _
  · exact Only.ite (Only.pure _) ((Only.note trivial).bind fun _ => Only.pure _)
  · exact (Only.note trivial).bind fun _ => Only.pure _

end Start

end HandshakeState

end HerdrMobile.Lib.Noise
