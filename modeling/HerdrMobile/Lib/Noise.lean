import Mathlib.Data.List.Basic

/-!
# Noise handshakes

The state machines of the Noise specification over any functions of the sizes of
Curve25519, ChaCha20-Poly1305 and BLAKE2s. A computation notes what it hashes, derives,
seals and opens, so that what the two sides have checked can be compared with what they
have sealed.
-/
namespace HerdrMobile.Lib.Noise

set_option autoImplicit false

abbrev Octets := List UInt8

def dhLen : Nat := 32

def hashLen : Nat := 32

def blockLen : Nat := 64

def tagLen : Nat := 16

/-- `opened` has the outcome of the check; `carried` is a message as it was sent and as
it was received. -/
inductive Event where
  | hashed (input : Octets)
  | derived (chainingKey input : Octets)
  | sealed (key ad ciphertext : Octets)
  | opened (key ad ciphertext : Octets) (accepted : Bool)
  | carried (sent received : Octets)
  deriving DecidableEq

/-- `result` is `none` when the computation has stopped. -/
@[ext] structure Noted (α : Type) where
  result : Option α
  events : List Event
  deriving DecidableEq

namespace Noted

variable {α β : Type}

def bind (x : Noted α) (f : α → Noted β) : Noted β :=
  match x.result with
  | none => ⟨none, x.events⟩
  | some a => ⟨(f a).result, x.events ++ (f a).events⟩

instance : Monad Noted where
  pure a := ⟨some a, []⟩
  bind := bind

instance : LawfulMonad Noted := LawfulMonad.mk' Noted
  (by
    rintro α ⟨_ | a, l⟩
    · rfl
    · exact congrArg _ (List.append_nil l))
  (fun _ _ => rfl)
  (by
    rintro α β γ ⟨_ | a, l⟩ f g
    · rfl
    · show bind ⟨(f a).result, l ++ (f a).events⟩ g = _
      cases h : (f a).result with
      | none => simp [h, Bind.bind, bind]
      | some b => simp [h, Bind.bind, bind])

def note (e : Event) : Noted Unit := ⟨some (), [e]⟩

def stop : Noted α := ⟨none, []⟩

def map (f : α → β) (x : Noted α) : Noted β := ⟨x.result.map f, x.events⟩

/-- The rest of a computation that may have nothing to go on with. -/
def ofOption : Option α → Noted α
  | none => stop
  | some a => pure a

theorem pure_def (a : α) : (pure a : Noted α) = ⟨some a, []⟩ := rfl

theorem bind_def (x : Noted α) (f : α → Noted β) : x >>= f = x.bind f := rfl

@[simp] theorem bind_some (a : α) (l : List Event) (f : α → Noted β) :
    (⟨some a, l⟩ : Noted α) >>= f = ⟨(f a).result, l ++ (f a).events⟩ := rfl

@[simp] theorem bind_none (l : List Event) (f : α → Noted β) :
    (⟨none, l⟩ : Noted α) >>= f = ⟨none, l⟩ := rfl

theorem bind_of_result {x : Noted α} {a : α} (h : x.result = some a) (f : α → Noted β) :
    x >>= f = ⟨(f a).result, x.events ++ (f a).events⟩ := by
  rw [bind_def]
  unfold bind
  rw [h]

theorem bind_of_stopped {x : Noted α} (h : x.result = none) (f : α → Noted β) :
    x >>= f = ⟨none, x.events⟩ := by
  rw [bind_def]
  unfold bind
  rw [h]

@[simp] theorem bind_result (x : Noted α) (f : α → Noted β) :
    (x >>= f).result = x.result.bind fun a => (f a).result := by
  cases h : x.result with
  | none => rw [bind_of_stopped h]; rfl
  | some a => rw [bind_of_result h]; rfl

theorem exists_of_bind {x : Noted α} {f : α → Noted β} {b : β}
    (h : (x >>= f).result = some b) : ∃ a, x.result = some a ∧ (f a).result = some b := by
  rw [bind_result] at h
  exact Option.bind_eq_some_iff.mp h

@[simp] theorem functor_result (f : α → β) (x : Noted α) :
    (f <$> x).result = x.result.map f := by
  rw [← bind_pure_comp, bind_result]
  cases x.result <;> rfl

@[simp] theorem pure_result (a : α) : (pure a : Noted α).result = some a := rfl

@[simp] theorem note_result (e : Event) : (note e).result = some () := rfl

@[simp] theorem ofOption_result (o : Option α) : (ofOption o).result = o := by
  cases o <;> rfl

@[simp] theorem map_result (f : α → β) (x : Noted α) : (x.map f).result = x.result.map f := rfl

theorem map_bind {γ : Type} (g : β → γ) (x : Noted α) (f : α → Noted β) :
    (x >>= f).map g = x >>= fun a => (f a).map g := by
  cases h : x.result with
  | none => rw [bind_of_stopped h, bind_of_stopped h]; rfl
  | some a => rw [bind_of_result h, bind_of_result h]; rfl

theorem map_bind_left {γ : Type} (f : α → β) (x : Noted α) (k : β → Noted γ) :
    x.map f >>= k = x >>= fun a => k (f a) := by
  cases h : x.result with
  | none =>
    have hn : (x.map f).result = none := by rw [map_result, h]; rfl
    rw [bind_of_stopped h, bind_of_stopped hn]
    rfl
  | some a =>
    have hs : (x.map f).result = some (f a) := by rw [map_result, h]; rfl
    rw [bind_of_result h, bind_of_result hs]
    rfl

theorem map_pure (f : α → β) (a : α) : (pure a : Noted α).map f = pure (f a) := rfl

/-- Two computations that agree step by step agree. -/
theorem bind_congr {γ : Type} {x : Noted α} {y : Noted β} {f : α → β} {k : α → Noted γ}
    {l : β → Noted γ} (h : x.map f = y) (hk : ∀ a, x.result = some a → k a = l (f a)) :
    x >>= k = y >>= l := by
  subst h
  rw [map_bind_left]
  cases hx : x.result with
  | none => rw [bind_of_stopped hx, bind_of_stopped hx]
  | some a => rw [bind_of_result hx, bind_of_result hx, hk a hx]

end Noted

structure Suite where
  PrivateKey : Type
  publicKey : PrivateKey → Octets
  dh : PrivateKey → Octets → Octets
  hash : Octets → Octets
  encrypt : (key : Octets) → (nonce : Nat) → (ad plaintext : Octets) → Octets
  decrypt : (key : Octets) → (nonce : Nat) → (ad ciphertext : Octets) → Option Octets
  length_publicKey : ∀ k, (publicKey k).length = dhLen
  dh_comm : ∀ a b, dh a (publicKey b) = dh b (publicKey a)
  length_hash : ∀ x, (hash x).length = hashLen
  length_encrypt : ∀ k n ad p, (encrypt k n ad p).length = p.length + tagLen
  decrypt_encrypt : ∀ k n ad p, decrypt k n ad (encrypt k n ad p) = some p

namespace Suite

variable (S : Suite)

attribute [simp] length_publicKey length_hash length_encrypt decrypt_encrypt

/-- The keys of a handshake are no longer than a block. -/
def hmac (key data : Octets) : Octets :=
  let padded := key ++ List.replicate (blockLen - key.length) 0
  S.hash (padded.map (· ^^^ 0x5c) ++ S.hash (padded.map (· ^^^ 0x36) ++ data))

def hkdf2 (chainingKey input : Octets) : Octets × Octets :=
  let temp := S.hmac chainingKey input
  let out1 := S.hmac temp [1]
  (out1, S.hmac temp (out1 ++ [2]))

def hkdf3 (chainingKey input : Octets) : Octets × Octets × Octets :=
  let temp := S.hmac chainingKey input
  let out1 := S.hmac temp [1]
  let out2 := S.hmac temp (out1 ++ [2])
  (out1, out2, S.hmac temp (out2 ++ [3]))

theorem length_hmac (key data : Octets) : (S.hmac key data).length = hashLen :=
  S.length_hash _

/-- Among the inputs that were noted neither the hash nor the derivation of the second
output has a collision. -/
structure NoCollision (events : List Event) : Prop where
  hash : ∀ x y, .hashed x ∈ events → .hashed y ∈ events → S.hash x = S.hash y → x = y
  kdf : ∀ ck x y, .derived ck x ∈ events → .derived ck y ∈ events →
    (S.hkdf3 ck x).2.1 = (S.hkdf3 ck y).2.1 → x = y

end Suite

structure SymmetricState where
  key : Option Octets
  nonce : Nat
  chainingKey : Octets
  hash : Octets
  deriving DecidableEq

namespace SymmetricState

variable (S : Suite)

def mixHash (t : SymmetricState) (data : Octets) : Noted SymmetricState := do
  Noted.note (.hashed (t.hash ++ data))
  return { t with hash := S.hash (t.hash ++ data) }

def initializeSymmetric (name : Octets) : Noted SymmetricState := do
  if name.length ≤ hashLen then
    let h := name ++ List.replicate (hashLen - name.length) 0
    return { key := none, nonce := 0, chainingKey := h, hash := h }
  else
    Noted.note (.hashed name)
    return { key := none, nonce := 0, chainingKey := S.hash name, hash := S.hash name }

def mixKey (t : SymmetricState) (input : Octets) : SymmetricState :=
  let out := S.hkdf2 t.chainingKey input
  { t with chainingKey := out.1, key := some out.2, nonce := 0 }

def mixKeyAndHash (t : SymmetricState) (input : Octets) : Noted SymmetricState := do
  let out := S.hkdf3 t.chainingKey input
  Noted.note (.derived t.chainingKey input)
  let t ← { t with chainingKey := out.1 }.mixHash S out.2.1
  return { t with key := some out.2.2, nonce := 0 }

def encryptAndHash (t : SymmetricState) (plaintext : Octets) : Noted (SymmetricState × Octets) :=
  match t.key with
  | none => do return (← t.mixHash S plaintext, plaintext)
  | some k => do
    let ciphertext := S.encrypt k t.nonce t.hash plaintext
    Noted.note (.sealed k t.hash ciphertext)
    return (← { t with nonce := t.nonce + 1 }.mixHash S ciphertext, ciphertext)

def decryptAndHash (t : SymmetricState) (ciphertext : Octets) : Noted (SymmetricState × Octets) :=
  match t.key with
  | none => do return (← t.mixHash S ciphertext, ciphertext)
  | some k =>
    if ciphertext.length < tagLen then Noted.stop
    else do
      let plaintext := S.decrypt k t.nonce t.hash ciphertext
      Noted.note (.opened k t.hash ciphertext plaintext.isSome)
      let plaintext ← Noted.ofOption plaintext
      return (← { t with nonce := t.nonce + 1 }.mixHash S ciphertext, plaintext)

/-- The keys of the initiator's and of the responder's messages. -/
def split (t : SymmetricState) : Octets × Octets := S.hkdf2 t.chainingKey []

@[simp] theorem mixHash_result (t : SymmetricState) (data : Octets) :
    (t.mixHash S data).result = some { t with hash := S.hash (t.hash ++ data) } := rfl

@[simp] theorem mixKeyAndHash_result (t : SymmetricState) (input : Octets) :
    (t.mixKeyAndHash S input).result =
      some { key := some (S.hkdf3 t.chainingKey input).2.2
             nonce := 0
             chainingKey := (S.hkdf3 t.chainingKey input).1
             hash := S.hash (t.hash ++ (S.hkdf3 t.chainingKey input).2.1) } := rfl

theorem encryptAndHash_sealed {t : SymmetricState} {k : Octets} (h : t.key = some k)
    (plaintext : Octets) :
    t.encryptAndHash S plaintext =
      ⟨some ({ t with
          nonce := t.nonce + 1
          hash := S.hash (t.hash ++ S.encrypt k t.nonce t.hash plaintext) },
          S.encrypt k t.nonce t.hash plaintext),
        [.sealed k t.hash (S.encrypt k t.nonce t.hash plaintext),
          .hashed (t.hash ++ S.encrypt k t.nonce t.hash plaintext)]⟩ := by
  unfold encryptAndHash
  rw [h]
  rfl

theorem decryptAndHash_short {t : SymmetricState} {k c : Octets} (h : t.key = some k)
    (hc : c.length < tagLen) : t.decryptAndHash S c = Noted.stop := by
  unfold decryptAndHash
  rw [h]
  simp only [if_pos hc]

theorem decryptAndHash_accepted {t : SymmetricState} {k c p : Octets} (h : t.key = some k)
    (hc : tagLen ≤ c.length) (hd : S.decrypt k t.nonce t.hash c = some p) :
    t.decryptAndHash S c =
      ⟨some ({ t with nonce := t.nonce + 1, hash := S.hash (t.hash ++ c) }, p),
        [.opened k t.hash c true, .hashed (t.hash ++ c)]⟩ := by
  unfold decryptAndHash
  rw [h]
  simp only [if_neg (Nat.not_lt_of_ge hc), hd]
  rfl

theorem decryptAndHash_refused {t : SymmetricState} {k c : Octets} (h : t.key = some k)
    (hc : tagLen ≤ c.length) (hd : S.decrypt k t.nonce t.hash c = none) :
    t.decryptAndHash S c = ⟨none, [.opened k t.hash c false]⟩ := by
  unfold decryptAndHash
  rw [h]
  simp only [if_neg (Nat.not_lt_of_ge hc), hd]
  rfl

/-- A field is read back as it was written, and the states stay equal. -/
theorem decrypt_encryptAndHash (t : SymmetricState) (plaintext : Octets) :
    ∃ t' c, (t.encryptAndHash S plaintext).result = some (t', c) ∧
      c.length = plaintext.length + (if t.key.isSome then tagLen else 0) ∧
      (t.decryptAndHash S c).result = some (t', plaintext) := by
  cases h : t.key with
  | none =>
    refine ⟨{ t with hash := S.hash (t.hash ++ plaintext) }, plaintext, ?_, ?_, ?_⟩
    · simp [encryptAndHash, h, mixHash]
    · simp
    · simp [decryptAndHash, h, mixHash]
  | some k =>
    let c := S.encrypt k t.nonce t.hash plaintext
    refine ⟨{ t with nonce := t.nonce + 1, hash := S.hash (t.hash ++ c) }, c, ?_, ?_, ?_⟩
    · simp [encryptAndHash, h, mixHash, c]
    · simp [c]
    · have hc : tagLen ≤ c.length := by simp [c]
      rw [decryptAndHash_accepted S h hc (S.decrypt_encrypt ..)]

end SymmetricState

inductive Party where
  | initiator
  | responder
  deriving DecidableEq

def Party.other : Party → Party
  | .initiator => .responder
  | .responder => .initiator

inductive Token where
  | e
  | s
  | ee
  | es
  | se
  | ss
  | psk
  deriving DecidableEq

/-- `pre` are the parties whose static key the other one has before the handshake, in
the order in which these keys are hashed. -/
structure Pattern where
  name : Octets
  pre : List Party
  messages : List (List Token)

/-- `e` is the key pair that the `e` token of this party draws; `psk` is there in the
patterns with a pre-shared key. -/
structure HandshakeState (S : Suite) where
  symmetric : SymmetricState
  party : Party
  s : S.PrivateKey
  e : S.PrivateKey
  rs : Option Octets
  re : Option Octets
  psk : Option Octets
  messages : List (List Token)

namespace HandshakeState

variable {S : Suite}

/-- The static public key of a party, as this one knows it. -/
def staticKey (a : HandshakeState S) (p : Party) : Option Octets :=
  if p = a.party then some (S.publicKey a.s) else a.rs

def mixPre (a : HandshakeState S) : List Party → Noted (HandshakeState S)
  | [] => pure a
  | p :: ps => do
    let key ← Noted.ofOption (a.staticKey p)
    let t ← a.symmetric.mixHash S key
    { a with symmetric := t }.mixPre ps

def start (pattern : Pattern) (prologue : Octets) (party : Party) (s e : S.PrivateKey)
    (rs psk : Option Octets) : Noted (HandshakeState S) := do
  let t ← SymmetricState.initializeSymmetric S pattern.name
  let t ← t.mixHash S prologue
  let a : HandshakeState S :=
    { symmetric := t, party := party, s := s, e := e, rs := rs, re := none, psk := psk,
      messages := pattern.messages }
  a.mixPre pattern.pre

/-- The first letter of a token names the key of the initiator, the second the key of the
responder. -/
def sharedKey (a : HandshakeState S) : Token → Option Octets
  | .ee => a.re.map (S.dh a.e)
  | .es =>
    match a.party with
    | .initiator => a.rs.map (S.dh a.e)
    | .responder => a.re.map (S.dh a.s)
  | .se =>
    match a.party with
    | .initiator => a.re.map (S.dh a.s)
    | .responder => a.rs.map (S.dh a.e)
  | .ss => a.rs.map (S.dh a.s)
  | _ => none

/-- With a pre-shared key an ephemeral key is mixed into the keys as well. -/
def mixEphemeral (a : HandshakeState S) (key : Octets) : Noted (HandshakeState S) := do
  let t ← a.symmetric.mixHash S key
  return { a with symmetric := if a.psk.isSome then t.mixKey S key else t }

def mixToken (a : HandshakeState S) : Token → Noted (HandshakeState S)
  | .psk => do
    let psk ← Noted.ofOption a.psk
    let t ← a.symmetric.mixKeyAndHash S psk
    return { a with symmetric := t }
  | token => do
    let shared ← Noted.ofOption (a.sharedKey token)
    return { a with symmetric := a.symmetric.mixKey S shared }

def writeToken (a : HandshakeState S) : Token → Noted (HandshakeState S × Octets)
  | .e => do return (← a.mixEphemeral (S.publicKey a.e), S.publicKey a.e)
  | .s => do
    let (t, field) ← a.symmetric.encryptAndHash S (S.publicKey a.s)
    return ({ a with symmetric := t }, field)
  | token => do return (← a.mixToken token, [])

def readToken (a : HandshakeState S) (message : Octets) :
    Token → Noted (HandshakeState S × Octets)
  | .e =>
    if message.length < dhLen then Noted.stop
    else do
      let a ← { a with re := some (message.take dhLen) }.mixEphemeral (message.take dhLen)
      return (a, message.drop dhLen)
  | .s =>
    let len := dhLen + if a.symmetric.key.isSome then tagLen else 0
    if message.length < len then Noted.stop
    else do
      let (t, key) ← a.symmetric.decryptAndHash S (message.take len)
      return ({ a with symmetric := t, rs := some key }, message.drop len)
  | token => do return (← a.mixToken token, message)

def writeTokens (a : HandshakeState S) : List Token → Noted (HandshakeState S × Octets)
  | [] => pure (a, [])
  | token :: tokens => do
    let (a, field) ← a.writeToken token
    let (a, fields) ← a.writeTokens tokens
    return (a, field ++ fields)

def readTokens (a : HandshakeState S) (message : Octets) :
    List Token → Noted (HandshakeState S × Octets)
  | [] => pure (a, message)
  | token :: tokens => do
    let (a, message) ← a.readToken message token
    a.readTokens message tokens

def writeMessage (a : HandshakeState S) (payload : Octets) : Noted (HandshakeState S × Octets) :=
  match a.messages with
  | [] => Noted.stop
  | tokens :: messages => do
    let (a, fields) ← { a with messages := messages }.writeTokens tokens
    let (t, ciphertext) ← a.symmetric.encryptAndHash S payload
    return ({ a with symmetric := t }, fields ++ ciphertext)

def readMessage (a : HandshakeState S) (message : Octets) : Noted (HandshakeState S × Octets) :=
  match a.messages with
  | [] => Noted.stop
  | tokens :: messages => do
    let (a, rest) ← { a with messages := messages }.readTokens message tokens
    let (t, payload) ← a.symmetric.decryptAndHash S rest
    return ({ a with symmetric := t }, payload)

/-- Whose public keys the other party has got. -/
structure Known where
  ephemeral : Party → Bool
  static : Party → Bool

namespace Known

/-- Both sides of a token's agreement have the keys for it. -/
def agrees (K : Known) : Token → Bool
  | .ee => K.ephemeral .initiator && K.ephemeral .responder
  | .es => K.ephemeral .initiator && K.static .responder
  | .se => K.static .initiator && K.ephemeral .responder
  | .ss => K.static .initiator && K.static .responder
  | _ => true

/-- After a token in a message of `p`. -/
def after (K : Known) (p : Party) : Token → Known
  | .e => { K with ephemeral := Function.update K.ephemeral p true }
  | .s => { K with static := Function.update K.static p true }
  | _ => K

def allAgree (K : Known) (p : Party) : List Token → Bool
  | [] => true
  | token :: tokens => K.agrees token && (K.after p token).allAgree p tokens

def afterAll (K : Known) (p : Party) (tokens : List Token) : Known :=
  tokens.foldl (fun K token => K.after p token) K

end Known

/-- `a` has exactly those public keys of `b` that are known. -/
structure Sees (K : Known) (a b : HandshakeState S) : Prop where
  re : a.re = if K.ephemeral b.party then some (S.publicKey b.e) else none
  rs : a.rs = if K.static b.party then some (S.publicKey b.s) else none

structure Matched (K : Known) (a b : HandshakeState S) : Prop where
  symmetric : a.symmetric = b.symmetric
  psk : a.psk = b.psk
  messages : a.messages = b.messages
  party : b.party = a.party.other
  ab : Sees K a b
  ba : Sees K b a

variable {K : Known} {a b : HandshakeState S}

theorem Matched.swap (h : Matched K a b) : Matched K b a where
  symmetric := h.symmetric.symm
  psk := h.psk.symm
  messages := h.messages.symm
  party := by
    rw [h.party]
    cases a.party <;> rfl
  ab := h.ba
  ba := h.ab

/-- Both parties compute the same shared key: the function of the curve commutes. -/
theorem Matched.sharedKey {token : Token} (h : Matched K a b) (ha : K.agrees token = true)
    (hd : token ∈ [Token.ee, .es, .se, .ss]) :
    ∃ x, a.sharedKey token = some x ∧ b.sharedKey token = some x := by
  obtain ⟨hare, hars⟩ := h.ab
  obtain ⟨hbre, hbrs⟩ := h.ba
  have hparty := h.party
  clear h
  cases hp : a.party with
  | initiator | responder =>
    rw [hp] at hparty hbre hbrs
    rw [hparty] at hare hars
    cases token <;>
      simp_all [Known.agrees, HandshakeState.sharedKey, Party.other, S.dh_comm a.e, S.dh_comm a.s]

theorem Matched.withSymmetric (h : Matched K a b) (t : SymmetricState) :
    Matched K { a with symmetric := t } { b with symmetric := t } where
  symmetric := rfl
  psk := h.psk
  messages := h.messages
  party := h.party
  ab := ⟨h.ab.re, h.ab.rs⟩
  ba := ⟨h.ba.re, h.ba.rs⟩

theorem mixToken_psk {psk : Octets} (h : a.psk = some psk) :
    (a.mixToken .psk).result = some { a with symmetric :=
      { key := some (S.hkdf3 a.symmetric.chainingKey psk).2.2
        nonce := 0
        chainingKey := (S.hkdf3 a.symmetric.chainingKey psk).1
        hash := S.hash (a.symmetric.hash ++ (S.hkdf3 a.symmetric.chainingKey psk).2.1) } } := by
  simp [mixToken, h]

theorem mixToken_shared {token : Token} {x : Octets} (h : a.sharedKey token = some x) :
    (a.mixToken token).result = some { a with symmetric := a.symmetric.mixKey S x } := by
  cases token <;> simp_all [mixToken]
  all_goals cases h

/-- A token without a field leaves two parties that match matching. -/
theorem Matched.mixToken {token : Token} (h : Matched K a b) (ha : K.agrees token = true)
    (hpsk : token = .psk → a.psk.isSome = true) (hd : token ≠ .e ∧ token ≠ .s) :
    ∃ t, (a.mixToken token).result = some { a with symmetric := t } ∧
      (b.mixToken token).result = some { b with symmetric := t } := by
  by_cases ht : token = .psk
  · subst ht
    obtain ⟨psk, hp⟩ := Option.isSome_iff_exists.mp (hpsk rfl)
    refine ⟨_, mixToken_psk hp, ?_⟩
    rw [mixToken_psk (h.psk ▸ hp), h.symmetric]
  · have hmem : token ∈ [Token.ee, .es, .se, .ss] := by
      cases token <;> simp_all
    obtain ⟨x, hx, hy⟩ := h.sharedKey ha hmem
    refine ⟨_, mixToken_shared hx, ?_⟩
    rw [mixToken_shared hy, h.symmetric]

/-- What a message leaves of a party's state. -/
structure Keeps (a a' : HandshakeState S) : Prop where
  party : a'.party = a.party
  s : a'.s = a.s
  e : a'.e = a.e
  psk : a'.psk = a.psk

theorem Keeps.refl (a : HandshakeState S) : Keeps a a := ⟨rfl, rfl, rfl, rfl⟩

theorem Keeps.trans {a' a'' : HandshakeState S} (h : Keeps a a') (h' : Keeps a' a'') :
    Keeps a a'' :=
  ⟨h'.party.trans h.party, h'.s.trans h.s, h'.e.trans h.e, h'.psk.trans h.psk⟩

/-- The symmetric state after an ephemeral key. -/
def afterEphemeral (a : HandshakeState S) (key : Octets) : SymmetricState :=
  let t := { a.symmetric with hash := S.hash (a.symmetric.hash ++ key) }
  if a.psk.isSome then t.mixKey S key else t

theorem mixEphemeral_result (a : HandshakeState S) (key : Octets) :
    (a.mixEphemeral key).result = some { a with symmetric := a.afterEphemeral key } := by
  simp [mixEphemeral, afterEphemeral]

theorem Party.other_ne (p : Party) : p.other ≠ p := by cases p <;> decide

/-- `a` sees the key of `b` that a token has just carried, and `b` sees no more of `a`. -/
theorem Sees.after_e (h : Sees K a b) :
    Sees (K.after b.party .e) { a with re := some (S.publicKey b.e) } b where
  re := by simp [Known.after]
  rs := h.rs

theorem Sees.after_s (h : Sees K a b) :
    Sees (K.after b.party .s) { a with rs := some (S.publicKey b.s) } b where
  re := h.re
  rs := by simp [Known.after]

theorem Sees.after_own {token : Token} (h : Sees K a b) (hp : b.party = a.party.other) :
    Sees (K.after a.party token) a b := by
  have hne : b.party ≠ a.party := hp ▸ Party.other_ne _
  have he : (K.after a.party token).ephemeral b.party = K.ephemeral b.party := by
    cases token <;> simp [Known.after, Function.update_of_ne hne]
  have hs : (K.after a.party token).static b.party = K.static b.party := by
    cases token <;> simp [Known.after, Function.update_of_ne hne]
  refine ⟨?_, ?_⟩
  · rw [h.re, he]
  · rw [h.rs, hs]

/-- One token of a message: its field is read as it was written. -/
theorem Matched.token {token : Token} (h : Matched K a b) (ha : K.agrees token = true)
    (hpsk : token = .psk → a.psk.isSome = true) :
    ∃ a' b' field, (a.writeToken token).result = some (a', field) ∧
      (∀ rest, (b.readToken (field ++ rest) token).result = some (b', rest)) ∧
      Matched (K.after a.party token) a' b' ∧ Keeps a a' ∧ Keeps b b' ∧
      a'.messages = a.messages := by
  by_cases he : token = .e
  · subst he
    have hlen := S.length_publicKey a.e
    have hsame : b.afterEphemeral (S.publicKey a.e) = a.afterEphemeral (S.publicKey a.e) := by
      unfold afterEphemeral
      rw [h.symmetric, h.psk]
    refine ⟨{ a with symmetric := a.afterEphemeral (S.publicKey a.e) },
      { b with
        re := some (S.publicKey a.e)
        symmetric := b.afterEphemeral (S.publicKey a.e) },
      S.publicKey a.e, ?_, ?_, ?_, ⟨rfl, rfl, rfl, rfl⟩, ⟨rfl, rfl, rfl, rfl⟩, rfl⟩
    · simp only [writeToken, Noted.bind_result, mixEphemeral_result]
      rfl
    · intro rest
      have hnot : ¬(S.publicKey a.e ++ rest).length < dhLen := by
        rw [List.length_append, hlen]
        omega
      simp only [readToken, if_neg hnot, Noted.bind_result, mixEphemeral_result,
        List.take_left' hlen, List.drop_left' hlen]
      rfl
    · refine ⟨?_, h.psk, h.messages, h.party, ?_, ?_⟩
      · exact hsame.symm
      · exact ⟨(h.ab.after_own h.party).re, (h.ab.after_own h.party).rs⟩
      · have hsees := Sees.after_e h.ba
        exact ⟨hsees.re, hsees.rs⟩
  · by_cases hs : token = .s
    · subst hs
      obtain ⟨t, field, hw, hlen, hr⟩ :=
        a.symmetric.decrypt_encryptAndHash S (S.publicKey a.s)
      rw [S.length_publicKey] at hlen
      rw [h.symmetric] at hlen hr
      refine ⟨{ a with symmetric := t }, { b with rs := some (S.publicKey a.s), symmetric := t },
        field, ?_, ?_, ?_, ⟨rfl, rfl, rfl, rfl⟩, ⟨rfl, rfl, rfl, rfl⟩, rfl⟩
      · simp [writeToken, hw]
      · intro rest
        have hnot : ¬(field ++ rest).length <
            dhLen + if b.symmetric.key.isSome then tagLen else 0 := by
          rw [List.length_append, hlen]
          omega
        simp only [readToken, if_neg hnot, Noted.bind_result, List.take_left' hlen,
          List.drop_left' hlen, hr]
        rfl
      · have hsees := Sees.after_s h.ba
        exact ⟨rfl, h.psk, h.messages, h.party,
          ⟨(h.ab.after_own h.party).re, (h.ab.after_own h.party).rs⟩, ⟨hsees.re, hsees.rs⟩⟩
    · obtain ⟨t, hw, hr⟩ := h.mixToken ha hpsk ⟨he, hs⟩
      have hK : K.after a.party token = K := by
        cases token <;> first | rfl | contradiction
      refine ⟨{ a with symmetric := t }, { b with symmetric := t }, [], ?_, ?_, ?_,
        ⟨rfl, rfl, rfl, rfl⟩, ⟨rfl, rfl, rfl, rfl⟩, rfl⟩
      · cases token <;> first | contradiction | simp [writeToken, hw]
      · intro rest
        cases token <;> first | contradiction | simp [readToken, hr]
      · rw [hK]
        exact h.withSymmetric t

theorem Matched.tokens {tokens : List Token} (h : Matched K a b)
    (ha : K.allAgree a.party tokens = true) (hpsk : Token.psk ∈ tokens → a.psk.isSome = true) :
    ∃ a' b' fields, (a.writeTokens tokens).result = some (a', fields) ∧
      (∀ rest, (b.readTokens (fields ++ rest) tokens).result = some (b', rest)) ∧
      Matched (K.afterAll a.party tokens) a' b' ∧ Keeps a a' ∧ Keeps b b' ∧
      a'.messages = a.messages := by
  induction tokens generalizing K a b with
  | nil =>
    exact ⟨a, b, [], rfl, fun _ => rfl, h, Keeps.refl a, Keeps.refl b, rfl⟩
  | cons token tokens ih =>
    simp only [Known.allAgree, Bool.and_eq_true] at ha
    obtain ⟨a₁, b₁, field, hw, hr, hm, hka, hkb, hmessages⟩ :=
      h.token ha.1 fun ht => hpsk (by simp [ht])
    obtain ⟨a₂, b₂, fields, hw', hr', hm', hka', hkb', hmessages'⟩ :=
      ih hm (by rw [hka.party]; exact ha.2) fun ht => by
        rw [hka.psk]
        exact hpsk (List.mem_cons_of_mem _ ht)
    refine ⟨a₂, b₂, field ++ fields, ?_, ?_, ?_, hka.trans hka', hkb.trans hkb',
      hmessages'.trans hmessages⟩
    · simp only [writeTokens, Noted.bind_result, hw, Option.bind_some, hw']
      rfl
    · intro rest
      simp only [readTokens, Noted.bind_result, List.append_assoc, hr, Option.bind_some]
      exact hr' rest
    · rw [hka.party] at hm'
      exact hm'

/-- A message is read as it was written, and the parties match after it. -/
theorem Matched.exchange {tokens : List Token} {messages : List (List Token)} (h : Matched K a b)
    (hmessages : a.messages = tokens :: messages) (ha : K.allAgree a.party tokens = true)
    (hpsk : Token.psk ∈ tokens → a.psk.isSome = true) (payload : Octets) :
    ∃ a' b' message, (a.writeMessage payload).result = some (a', message) ∧
      (b.readMessage message).result = some (b', payload) ∧
      Matched (K.afterAll a.party tokens) a' b' ∧ Keeps a a' ∧ Keeps b b' ∧
      a'.messages = messages := by
  have hmessages' : b.messages = tokens :: messages := h.messages ▸ hmessages
  have hstart : Matched K { a with messages := messages } { b with messages := messages } :=
    ⟨h.symmetric, h.psk, rfl, h.party, ⟨h.ab.re, h.ab.rs⟩, ⟨h.ba.re, h.ba.rs⟩⟩
  obtain ⟨a₁, b₁, fields, hw, hr, hm, hka, hkb, hrest⟩ := hstart.tokens ha hpsk
  obtain ⟨t, c, hc, -, hd⟩ := a₁.symmetric.decrypt_encryptAndHash S payload
  rw [hm.symmetric] at hd
  refine ⟨{ a₁ with symmetric := t }, { b₁ with symmetric := t }, fields ++ c, ?_, ?_,
    hm.withSymmetric t, ⟨hka.party, hka.s, hka.e, hka.psk⟩, ⟨hkb.party, hkb.s, hkb.e, hkb.psk⟩,
    hrest⟩
  · simp only [writeMessage, hmessages, Noted.bind_result, hw, Option.bind_some, hc]
    rfl
  · simp only [readMessage, hmessages', Noted.bind_result, hr c, Option.bind_some, hd]
    rfl

theorem Matched.mixPre {pre : List Party} (h : Matched K a b)
    (hpre : ∀ p ∈ pre, K.static p = true) :
    ∃ t, (a.mixPre pre).result = some { a with symmetric := t } ∧
      (b.mixPre pre).result = some { b with symmetric := t } := by
  induction pre generalizing a b with
  | nil => exact ⟨a.symmetric, rfl, by rw [h.symmetric]; rfl⟩
  | cons p pre ih =>
    have hkey : ∃ key, a.staticKey p = some key ∧ b.staticKey p = some key := by
      have hp := hpre p (List.mem_cons_self ..)
      unfold staticKey
      by_cases hap : p = a.party
      · have hne : p ≠ b.party := by
          rw [h.party, hap]
          exact (Party.other_ne _).symm
        rw [if_pos hap, if_neg hne, h.ba.rs, ← hap, hp]
        exact ⟨_, rfl, rfl⟩
      · have hbp : p = b.party := by
          rw [h.party]
          cases p <;> cases hq : a.party <;> simp_all [Party.other]
        rw [if_neg hap, if_pos hbp, h.ab.rs, ← hbp, hp]
        exact ⟨_, rfl, rfl⟩
    obtain ⟨key, ha, hb⟩ := hkey
    obtain ⟨t, hta, htb⟩ := ih (h.withSymmetric
        { a.symmetric with hash := S.hash (a.symmetric.hash ++ key) })
      fun p hp => hpre p (List.mem_cons_of_mem _ hp)
    refine ⟨t, ?_, ?_⟩
    · simp only [HandshakeState.mixPre, Noted.bind_result, ha, Noted.ofOption_result,
        Option.bind_some, SymmetricState.mixHash_result]
      exact hta
    · simp only [HandshakeState.mixPre, Noted.bind_result, hb, Noted.ofOption_result,
        Option.bind_some, SymmetricState.mixHash_result, ← h.symmetric]
      exact htb

/-- Two parties that start the same pattern match, when each has the static key of the
other exactly where the pattern says so. -/
theorem start_matched {pattern : Pattern} {s s' : S.PrivateKey} {rs rs' : Option Octets}
    (prologue : Octets) (e e' : S.PrivateKey) (psk : Option Octets) (static : Party → Bool)
    (hpre : ∀ p ∈ pattern.pre, static p = true)
    (hrs : rs = if static .responder then some (S.publicKey s') else none)
    (hrs' : rs' = if static .initiator then some (S.publicKey s) else none) :
    ∃ a b : HandshakeState S, (start pattern prologue .initiator s e rs psk).result = some a ∧
      (start pattern prologue .responder s' e' rs' psk).result = some b ∧
      Matched ⟨fun _ => false, static⟩ a b ∧ a.party = .initiator ∧ a.psk = psk ∧
      a.messages = pattern.messages ∧ a.s = s ∧ b.s = s' := by
  have hname : ∃ t, (SymmetricState.initializeSymmetric S pattern.name).result = some t := by
    unfold SymmetricState.initializeSymmetric
    split
    · exact ⟨_, rfl⟩
    · exact ⟨_, rfl⟩
  obtain ⟨t, ht⟩ := hname
  have h : Matched ⟨fun _ => false, static⟩
      ({ symmetric := { t with hash := S.hash (t.hash ++ prologue) }, party := .initiator,
         s := s, e := e, rs := rs, re := none, psk := psk,
         messages := pattern.messages } : HandshakeState S)
      { symmetric := { t with hash := S.hash (t.hash ++ prologue) }, party := .responder,
        s := s', e := e', rs := rs', re := none, psk := psk, messages := pattern.messages } :=
    ⟨rfl, rfl, rfl, rfl, ⟨rfl, hrs⟩, ⟨rfl, hrs'⟩⟩
  obtain ⟨u, ha, hb⟩ := h.mixPre hpre
  refine ⟨_, _, ?_, ?_, h.withSymmetric u, rfl, rfl, rfl, rfl, rfl⟩
  · simp only [start, Noted.bind_result, ht, Option.bind_some, SymmetricState.mixHash_result]
    exact ha
  · simp only [start, Noted.bind_result, ht, Option.bind_some, SymmetricState.mixHash_result]
    exact hb

end HandshakeState
end HerdrMobile.Lib.Noise
