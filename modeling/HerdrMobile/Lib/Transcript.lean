import HerdrMobile.Lib.Noise
import Mathlib.Data.List.Induction

/-!
# What the handshake hash commits to

Everything two parties have mixed into the hash is its transcript, and the hash is the
associated data of every seal. While nothing has collided, a check whose transcript or
whose ciphertext is not the one of a seal opens what nobody has sealed.
-/
namespace HerdrMobile.Lib.Noise

set_option autoImplicit false

variable {S : Suite}

/-- After the events `log` a computation checks what has never been sealed, and stops
there if the check fails. -/
def Noticed {α : Type} (log : List Event) (x : Noted α) : Prop :=
  ∃ before after key ad ciphertext accepted,
    x.events = before ++ .opened key ad ciphertext accepted :: after ∧
      .sealed key ad ciphertext ∉ log ++ before ∧
      (accepted = false → after = [] ∧ x.result = none)

namespace Noticed

variable {α β : Type} {log : List Event} {x : Noted α} {f : α → Noted β}

theorem bind (h : Noticed log x) : Noticed log (x >>= f) := by
  obtain ⟨before, after, key, ad, c, accepted, he, hn, hstop⟩ := h
  cases hx : x.result with
  | none =>
    rw [Noted.bind_of_stopped hx]
    refine ⟨before, after, key, ad, c, accepted, he, hn, ?_⟩
    intro ha
    exact ⟨(hstop ha).1, rfl⟩
  | some a =>
    rw [Noted.bind_of_result hx]
    refine ⟨before, after ++ (f a).events, key, ad, c, accepted, ?_, hn, ?_⟩
    · rw [he]
      simp
    · intro ha
      rw [hx] at hstop
      exact absurd (hstop ha).2 (by simp)

theorem bind_right {a : α} (hx : x.result = some a) (h : Noticed (log ++ x.events) (f a)) :
    Noticed log (x >>= f) := by
  obtain ⟨before, after, key, ad, c, accepted, he, hn, hstop⟩ := h
  rw [Noted.bind_of_result hx]
  refine ⟨x.events ++ before, after, key, ad, c, accepted, ?_, ?_, hstop⟩
  · show x.events ++ (f a).events = _
    rw [he]
    simp
  · simpa using hn

end Noticed

def hashOf (S : Suite) (h : Octets) (T : List Octets) : Octets :=
  T.foldl (fun h d => S.hash (h ++ d)) h

theorem hashOf_snoc (h d : Octets) (T : List Octets) :
    hashOf S h (T ++ [d]) = S.hash (hashOf S h T ++ d) := by
  simp [hashOf]

/-- The hash `h` is that of the transcript, each step of which is among the events; the
name is longer than a hash and too short to be one with a mixed field behind it. -/
structure Transcript (S : Suite) (name : Octets) (E : List Event) (T : List Octets) (h : Octets) :
    Prop where
  hash : h = hashOf S (S.hash name) T
  inputs : ∀ T' d, T' ++ [d] <+: T → .hashed (hashOf S (S.hash name) T' ++ d) ∈ E
  fields : ∀ d ∈ T, d.length = 0 ∨ tagLen ≤ d.length

namespace Transcript

variable {name h d : Octets} {E : List Event} {T T' : List Octets}

theorem nil : Transcript S name E [] (S.hash name) where
  hash := rfl
  inputs T' d h := by simp at h
  fields _ h := by simp at h

theorem snoc (ht : Transcript S name E T h) (he : .hashed (h ++ d) ∈ E)
    (hd : d.length = 0 ∨ tagLen ≤ d.length) :
    Transcript S name E (T ++ [d]) (S.hash (h ++ d)) where
  hash := by rw [hashOf_snoc, ht.hash]
  inputs T' d' hp := by
    rw [List.prefix_concat_iff] at hp
    cases hp with
    | inl heq =>
      obtain ⟨rfl, hd'⟩ := List.append_inj' heq rfl
      cases hd'
      rw [← ht.hash]
      exact he
    | inr hp => exact ht.inputs T' d' hp
  fields d' hd' := by
    rw [List.mem_append, List.mem_singleton] at hd'
    cases hd' with
    | inl hd' => exact ht.fields d' hd'
    | inr hd' => exact hd' ▸ hd

theorem init (ht : Transcript S name E (T ++ [d]) h) :
    Transcript S name E T (hashOf S (S.hash name) T) where
  hash := rfl
  inputs T' d' hp := ht.inputs T' d' (hp.trans (List.prefix_append _ _))
  fields d' hd' := ht.fields d' (List.mem_append_left _ hd')

theorem length_hashOf (name : Octets) (T : List Octets) :
    (hashOf S (S.hash name) T).length = hashLen := by
  induction T using List.reverseRecOn with
  | nil => exact S.length_hash _
  | append_singleton T d ih =>
    rw [hashOf_snoc]
    exact S.length_hash _

/-- The hash determines its transcript. -/
theorem inj {h' : Octets} (hno : S.NoCollision E) (hname : .hashed name ∈ E)
    (hlong : hashLen < name.length) (hshort : name.length < hashLen + tagLen)
    (ht : Transcript S name E T h) (ht' : Transcript S name E T' h') (heq : h = h') : T = T' := by
  -- A step of a transcript is never the hash of the name.
  have hstart : ∀ {T d}, Transcript S name E (T ++ [d]) (S.hash name) → False := by
    intro T d ht
    have hin := ht.inputs T d (List.prefix_refl _)
    have hh := ht.hash
    rw [hashOf_snoc] at hh
    have hsame := congrArg List.length (hno.hash _ _ hname hin hh)
    rw [List.length_append, length_hashOf] at hsame
    have hd := ht.fields d (by simp)
    omega
  subst heq
  induction T using List.reverseRecOn generalizing T' h with
  | nil =>
    have hh := ht.hash
    cases T' using List.reverseRecOn with
    | nil => rfl
    | append_singleton T' d =>
      rw [hh] at ht'
      exact (hstart ht').elim
  | append_singleton T d ih =>
    cases T' using List.reverseRecOn with
    | nil =>
      rw [ht'.hash] at ht
      exact (hstart ht).elim
    | append_singleton T' d' =>
      have hh := ht.hash.symm.trans ht'.hash
      rw [hashOf_snoc, hashOf_snoc] at hh
      have hin := hno.hash _ _ (ht.inputs T d (List.prefix_refl _))
        (ht'.inputs T' d' (List.prefix_refl _)) hh
      obtain ⟨hhash, rfl⟩ := List.append_inj hin
        ((length_hashOf name T).trans (length_hashOf name T').symm)
      have hrest := ih ht.init (hhash ▸ ht'.init)
      rw [hrest]

end Transcript

def Only {α : Type} (p : Event → Prop) (x : Noted α) : Prop := ∀ e ∈ x.events, p e

namespace Only

variable {α β : Type} {p : Event → Prop} {x : Noted α} {f : α → Noted β}

theorem bind (hx : Only p x) (hf : ∀ a, Only p (f a)) : Only p (x >>= f) := by
  cases h : x.result with
  | none =>
    rw [Noted.bind_of_stopped h]
    exact hx
  | some a =>
    rw [Noted.bind_of_result h]
    intro e he
    cases List.mem_append.mp he with
    | inl he => exact hx e he
    | inr he => exact hf a e he

theorem left (h : Only p (x >>= f)) : Only p x := by
  intro e he
  apply h
  cases hx : x.result with
  | none => rw [Noted.bind_of_stopped hx]; exact he
  | some a => rw [Noted.bind_of_result hx]; exact List.mem_append_left _ he

theorem right {a : α} (h : Only p (x >>= f)) (hx : x.result = some a) : Only p (f a) := by
  intro e he
  apply h
  rw [Noted.bind_of_result hx]
  exact List.mem_append_right _ he

theorem pure (a : α) : Only p (Pure.pure a : Noted α) := by
  intro e he
  cases he

theorem stop : Only p (Noted.stop : Noted α) := by
  intro e he
  cases he

theorem note {e : Event} (h : p e) : Only p (Noted.note e) := by
  intro e' he
  cases List.mem_singleton.mp he
  exact h

theorem ofOption (o : Option α) : Only p (Noted.ofOption o) := by
  cases o with
  | none => exact stop
  | some a => exact pure a

theorem ite {c : Prop} [Decidable c] {y : Noted α} (hx : Only p x) (hy : Only p y) :
    Only p (if c then x else y) := by
  split
  · exact hx
  · exact hy

end Only

/-- What a party that writes notes, and what a party that reads notes. -/
def Event.Written : Event → Prop
  | .hashed _ | .derived _ _ | .sealed _ _ _ => True
  | _ => False

def Event.Read : Event → Prop
  | .hashed _ | .derived _ _ | .opened _ _ _ _ => True
  | _ => False

section Kinds

variable {p : Event → Prop}

theorem only_encryptAndHash (hh : ∀ x, p (.hashed x)) (hs : ∀ k ad c, p (.sealed k ad c))
    (t : SymmetricState) (plaintext : Octets) : Only p (t.encryptAndHash S plaintext) := by
  cases hk : t.key with
  | none =>
    unfold SymmetricState.encryptAndHash
    rw [hk]
    exact ((Only.note (hh _)).bind fun _ => Only.pure _).bind fun _ => Only.pure _
  | some k =>
    rw [t.encryptAndHash_sealed S hk]
    intro e he
    simp only [List.mem_cons, List.not_mem_nil, or_false] at he
    cases he with
    | inl he => exact he ▸ hs _ _ _
    | inr he => exact he ▸ hh _

theorem only_decryptAndHash (hh : ∀ x, p (.hashed x)) (ho : ∀ k ad c r, p (.opened k ad c r))
    (t : SymmetricState) (c : Octets) : Only p (t.decryptAndHash S c) := by
  unfold SymmetricState.decryptAndHash
  split
  · exact ((Only.note (hh _)).bind fun _ => Only.pure _).bind fun _ => Only.pure _
  · refine Only.ite Only.stop ?_
    refine (Only.note (ho _ _ _ _)).bind fun _ => (Only.ofOption _).bind fun _ => ?_
    exact ((Only.note (hh _)).bind fun _ => Only.pure _).bind fun _ => Only.pure _

theorem only_mixEphemeral (hh : ∀ x, p (.hashed x)) (a : HandshakeState S) (key : Octets) :
    Only p (a.mixEphemeral key) :=
  ((Only.note (hh _)).bind fun _ => Only.pure _).bind fun _ => Only.pure _

theorem only_mixToken (hh : ∀ x, p (.hashed x)) (hd : ∀ ck x, p (.derived ck x))
    (a : HandshakeState S) (token : Token) : Only p (a.mixToken token) := by
  cases token <;> refine (Only.ofOption _).bind fun _ => ?_
  all_goals first | exact Only.pure _ | skip
  refine Only.bind ?_ fun _ => Only.pure _
  refine (Only.note (hd _ _)).bind fun _ => Only.bind ?_ fun _ => Only.pure _
  exact (Only.note (hh _)).bind fun _ => Only.pure _

theorem only_writeTokens (hh : ∀ x, p (.hashed x)) (hd : ∀ ck x, p (.derived ck x))
    (hs : ∀ k ad c, p (.sealed k ad c)) (a : HandshakeState S) (tokens : List Token) :
    Only p (a.writeTokens tokens) := by
  induction tokens generalizing a with
  | nil => exact Only.pure _
  | cons token tokens ih =>
    refine Only.bind ?_ fun _ => (ih _).bind fun _ => Only.pure _
    cases token with
    | e => exact (only_mixEphemeral hh _ _).bind fun _ => Only.pure _
    | s => exact (only_encryptAndHash hh hs _ _).bind fun _ => Only.pure _
    | _ => exact (only_mixToken hh hd _ _).bind fun _ => Only.pure _

theorem only_readToken (hh : ∀ x, p (.hashed x)) (hd : ∀ ck x, p (.derived ck x))
    (ho : ∀ k ad c r, p (.opened k ad c r)) (a : HandshakeState S) (message : Octets)
    (token : Token) : Only p (a.readToken message token) := by
  cases token with
  | e => exact Only.ite Only.stop ((only_mixEphemeral hh _ _).bind fun _ => Only.pure _)
  | s => exact Only.ite Only.stop ((only_decryptAndHash hh ho _ _).bind fun _ => Only.pure _)
  | _ => exact (only_mixToken hh hd _ _).bind fun _ => Only.pure _

theorem only_readTokens (hh : ∀ x, p (.hashed x)) (hd : ∀ ck x, p (.derived ck x))
    (ho : ∀ k ad c r, p (.opened k ad c r)) (a : HandshakeState S) (message : Octets)
    (tokens : List Token) : Only p (a.readTokens message tokens) := by
  induction tokens generalizing a message with
  | nil => exact Only.pure _
  | cons token tokens ih => exact (only_readToken hh hd ho _ _ _).bind fun _ => ih _ _

theorem only_writeMessage (hh : ∀ x, p (.hashed x)) (hd : ∀ ck x, p (.derived ck x))
    (hs : ∀ k ad c, p (.sealed k ad c)) (a : HandshakeState S) (payload : Octets) :
    Only p (a.writeMessage payload) := by
  unfold HandshakeState.writeMessage
  split
  · exact Only.stop
  · refine (only_writeTokens hh hd hs _ _).bind fun _ => ?_
    exact (only_encryptAndHash hh hs _ _).bind fun _ => Only.pure _

theorem only_readMessage (hh : ∀ x, p (.hashed x)) (hd : ∀ ck x, p (.derived ck x))
    (ho : ∀ k ad c r, p (.opened k ad c r)) (a : HandshakeState S) (message : Octets) :
    Only p (a.readMessage message) := by
  unfold HandshakeState.readMessage
  split
  · exact Only.stop
  · refine (only_readTokens hh hd ho _ _ _).bind fun _ => ?_
    exact (only_decryptAndHash hh ho _ _).bind fun _ => Only.pure _

end Kinds

/-- What a party has before a token: a pre-shared key, a cipher key, and the public keys
that are known. -/
structure Stage where
  psk : Bool
  keyed : Bool
  known : HandshakeState.Known

namespace Stage

variable (g : Stage) (p : Party)

def after (token : Token) : Stage where
  psk := g.psk
  keyed :=
    match token with
    | .e => g.keyed || g.psk
    | .s => g.keyed
    | _ => true
  known := g.known.after p token

def allows (token : Token) : Bool := g.known.agrees token && (token != .psk || g.psk)

def fieldLength : Token → Nat
  | .e => dhLen
  | .s => dhLen + if g.keyed then tagLen else 0
  | _ => 0

/-- Both parties have what each token of a message needs, and its payload is sealed. -/
def fits (g : Stage) (p : Party) : List Token → Bool
  | [] => g.keyed
  | token :: tokens => g.allows token && (g.after p token).fits p tokens

def afterAll (g : Stage) (p : Party) (tokens : List Token) : Stage :=
  tokens.foldl (fun g token => g.after p token) g

/-- With an empty payload. -/
def messageLength (g : Stage) (p : Party) : List Token → Nat
  | [] => tagLen
  | token :: tokens => g.fieldLength token + (g.after p token).messageLength p tokens

/-- The messages of a pattern, in turn. -/
def fitsAll (g : Stage) (p : Party) : List (List Token) → Bool
  | [] => true
  | tokens :: messages => g.fits p tokens && (g.afterAll p tokens).fitsAll p.other messages

def final (g : Stage) (p : Party) : List (List Token) → Stage
  | [] => g
  | tokens :: messages => (g.afterAll p tokens).final p.other messages

end Stage

/-- A party is at least at a stage. -/
structure At (g : Stage) (a : HandshakeState S) : Prop where
  psk : a.psk.isSome = g.psk
  keyed : a.symmetric.key.isSome = g.keyed
  re : g.known.ephemeral a.party.other = true → a.re.isSome = true
  rs : g.known.static a.party.other = true → a.rs.isSome = true

theorem At.sharedKey {g : Stage} {a : HandshakeState S} {token : Token} (h : At g a)
    (ha : g.known.agrees token = true) (hd : token ∈ [Token.ee, .es, .se, .ss]) :
    ∃ x, a.sharedKey token = some x := by
  have hre := h.re
  have hrs := h.rs
  cases hp : a.party <;> rw [hp] at hre hrs <;> cases token <;>
    simp_all [HandshakeState.Known.agrees, HandshakeState.sharedKey, Party.other,
      Option.isSome_iff_exists]

end HerdrMobile.Lib.Noise
