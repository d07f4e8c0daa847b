import HerdrMobile.App.Noise
import HerdrMobile.Host.Noise

/-!
# The Device's handshakes follow the specification

Each message that the Device writes or reads by hand is the one that the specification's
initiator writes or reads in the same state, with the same hashes, seals and checks.
-/
namespace HerdrMobile.App.Handshake

open HerdrMobile.Lib.Noise (Octets Suite Noted Event HandshakeState Party Token Pattern dhLen
  hashLen tagLen)
open HerdrMobile.App.Noise HerdrMobile.Host.Noise

set_option autoImplicit false

variable {S : Suite}

def view (t : SymmetricState) : Lib.Noise.SymmetricState where
  key := if t.hasKey then t.cipherKey else none
  nonce := t.nonce
  chainingKey := t.ck
  hash := t.h

def pairing (i : NoiseXxPsk0Initiator S) (psk : Octets) (e : S.PrivateKey)
    (messages : List (List Token)) : HandshakeState S where
  symmetric := view i.state
  party := .initiator
  s := i.localStatic
  e := e
  rs := i.remoteStatic
  re := i.remoteEphemeral
  psk := some psk
  messages := messages

theorem writeMessage1_pairing (i : NoiseXxPsk0Initiator S) (psk : Octets) (e : S.PrivateKey)
    (messages : List (List Token)) :
    (i.writeMessage1 psk e).map (fun r => (pairing r.1 psk e messages, r.2)) =
      (pairing i psk e ([.psk, .e] :: messages)).writeMessage [] := by
  apply Noted.ext
  · show some (_, _) = some (_, _ ++ [] ++ _)
    rw [List.append_nil]
    rfl
  · rfl

theorem sublist_start {message : Octets} {n : Nat} (h : n ≤ message.length) :
    sublist message 0 n = pure (message.take n) := by
  unfold sublist
  rw [if_pos ⟨Nat.zero_le n, h⟩]
  rfl

theorem sublist_rest {message : Octets} {n : Nat} (h : n ≤ message.length) :
    sublist message n message.length = pure (message.drop n) := by
  unfold sublist
  have hlength : (message.drop n).length ≤ message.length - n := Nat.le_of_eq List.length_drop
  rw [if_pos ⟨h, Nat.le_refl _⟩, List.take_of_length_le hlength]

theorem sublist_short {message : Octets} {m n : Nat} (h : message.length < n) :
    sublist message m n = Noted.stop := by
  unfold sublist
  rw [if_neg]
  rintro ⟨-, hn⟩
  omega

theorem decryptAndHash_view (t : SymmetricState) (data : Octets)
    (h : t.hasKey = true → t.cipherKey.isSome = true) :
    (t.decryptAndHash S data).map (fun r => (view r.1, r.2)) =
      (view t).decryptAndHash S data := by
  obtain ⟨hash, ck, hasKey, cipherKey, nonce⟩ := t
  cases hasKey with
  | false => rfl
  | true =>
    cases cipherKey with
    | none => cases h rfl
    | some key =>
      have hkey : (view ⟨hash, ck, true, some key, nonce⟩).key = some key := rfl
      by_cases hc : data.length < tagLen
      · rw [Lib.Noise.SymmetricState.decryptAndHash_short S hkey hc]
        simp [SymmetricState.decryptAndHash, Noted.ofOption, aeadDecrypt, hc]
        rfl
      · have hc' := Nat.le_of_not_lt hc
        cases hd : S.decrypt key nonce hash data with
        | none =>
          rw [Lib.Noise.SymmetricState.decryptAndHash_refused S hkey hc' hd]
          simp [SymmetricState.decryptAndHash, Noted.ofOption, aeadDecrypt, hc, hd]
          rfl
        | some p =>
          rw [Lib.Noise.SymmetricState.decryptAndHash_accepted S hkey hc' hd]
          simp [SymmetricState.decryptAndHash, Noted.ofOption, aeadDecrypt, hc, hd]
          rfl

theorem encryptAndHash_view (t : SymmetricState) (plaintext : Octets)
    (h : t.hasKey = true → t.cipherKey.isSome = true) :
    (t.encryptAndHash S plaintext).map (fun r => (view r.1, r.2)) =
      (view t).encryptAndHash S plaintext := by
  obtain ⟨hash, ck, hasKey, cipherKey, nonce⟩ := t
  cases hasKey with
  | false => rfl
  | true =>
    cases cipherKey with
    | none => cases h rfl
    | some key => rfl

theorem readMessage2_pairing (i : NoiseXxPsk0Initiator S) (psk message : Octets)
    (e : S.PrivateKey) (messages : List (List Token)) (he : i.localEphemeral = some e) :
    (i.readMessage2 message).map (fun r => pairing r psk e messages) =
      ((pairing i psk e ([.e, .ee, .s, .es] :: messages)).readMessage message).map Prod.fst := by
  unfold NoiseXxPsk0Initiator.readMessage2 HandshakeState.readMessage
  by_cases h₁ : message.length < dhLen
  · simp only [pairing, HandshakeState.readTokens, HandshakeState.readToken, sublist_short h₁,
      if_pos h₁]
    rfl
  · have h₁' := Nat.le_of_not_lt h₁
    simp only [pairing, HandshakeState.readTokens, HandshakeState.readToken,
      sublist_start h₁', if_neg h₁, he, Noted.ofOption, SymmetricState.mixHash, bind_assoc, pure_bind,
      HandshakeState.mixEphemeral, Lib.Noise.SymmetricState.mixHash, HandshakeState.mixToken, HandshakeState.sharedKey,
      SymmetricState.mixKey, Lib.Noise.SymmetricState.mixKey, Option.isSome_some, if_true, Option.map_some,
      Noted.map_bind]
    refine congrArg (Noted.note _ >>= ·) (funext fun _ => ?_)
    by_cases h₂ : message.length < dhLen + (dhLen + tagLen)
    · have h₂' : (message.drop dhLen).length < dhLen + tagLen := by
        rw [List.length_drop]
        omega
      rw [sublist_short h₂, if_pos h₂']
      rfl
    · have h₂' : ¬(message.drop dhLen).length < dhLen + tagLen := by
        rw [List.length_drop]
        omega
      have hfield : sublist message dhLen (dhLen + (dhLen + tagLen)) =
          pure ((message.drop dhLen).take (dhLen + tagLen)) := by
        unfold sublist
        rw [if_pos ⟨by omega, by omega⟩, Nat.add_sub_cancel_left]
      rw [hfield, sublist_rest (Nat.le_of_not_lt h₂), if_neg h₂']
      simp only [bind_assoc, pure_bind, Noted.map_pure, Option.map_some, List.drop_drop]
      refine Noted.bind_congr (decryptAndHash_view _ _ fun _ => rfl) fun r _ => ?_
      refine Noted.bind_congr (decryptAndHash_view _ _ fun _ => rfl) fun r _ => ?_
      rfl

theorem writeMessage3_pairing (i : NoiseXxPsk0Initiator S) (psk re : Octets) (e : S.PrivateKey)
    (messages : List (List Token)) (hre : i.remoteEphemeral = some re)
    (hkey : i.state.hasKey = true → i.state.cipherKey.isSome = true) :
    i.writeMessage3.map (fun r => (pairing r.1 psk e messages, r.2)) =
      (pairing i psk e ([.s, .se] :: messages)).writeMessage [] := by
  unfold NoiseXxPsk0Initiator.writeMessage3 HandshakeState.writeMessage
  simp only [pairing, HandshakeState.writeTokens, HandshakeState.writeToken, bind_assoc, pure_bind,
    HandshakeState.mixToken, HandshakeState.sharedKey, hre, Option.map_some, Noted.ofOption,
    Noted.map_bind, Noted.map_pure, List.append_nil]
  refine Noted.bind_congr (encryptAndHash_view _ _ hkey) fun r _ => ?_
  refine Noted.bind_congr (encryptAndHash_view _ _ fun _ => rfl) fun r' _ => ?_
  rfl

def reconnect (i : NoiseKkInitiator S) (e : S.PrivateKey) (re : Option Octets)
    (messages : List (List Token)) : HandshakeState S where
  symmetric := view i.state
  party := .initiator
  s := i.localStatic
  e := e
  rs := some i.remoteStatic
  re := re
  psk := none
  messages := messages

theorem writeMessage1_reconnect (i : NoiseKkInitiator S) (e : S.PrivateKey)
    (messages : List (List Token)) :
    (i.writeMessage1 e).map (fun r => (reconnect r.1 e none messages, r.2)) =
      (reconnect i e none ([.e, .es, .ss] :: messages)).writeMessage [] := by
  apply Noted.ext
  · show some (_, _) = some (_, _ ++ [] ++ _)
    rw [List.append_nil]
    rfl
  · rfl

theorem readMessage2_reconnect (i : NoiseKkInitiator S) (message : Octets) (e : S.PrivateKey)
    (messages : List (List Token)) (he : i.localEphemeral = some e) :
    (i.readMessage2 message).map (fun r => reconnect r e (some (message.take dhLen)) messages) =
      ((reconnect i e none ([.e, .ee, .se] :: messages)).readMessage message).map Prod.fst := by
  unfold NoiseKkInitiator.readMessage2 HandshakeState.readMessage
  by_cases h₁ : message.length < dhLen
  · simp only [reconnect, HandshakeState.readTokens, HandshakeState.readToken, sublist_short h₁,
      if_pos h₁]
    rfl
  · have h₁' := Nat.le_of_not_lt h₁
    simp only [reconnect, HandshakeState.readTokens, HandshakeState.readToken, sublist_start h₁',
      sublist_rest h₁', if_neg h₁, he, Noted.ofOption, SymmetricState.mixHash, bind_assoc,
      pure_bind, HandshakeState.mixEphemeral, Lib.Noise.SymmetricState.mixHash,
      HandshakeState.mixToken, HandshakeState.sharedKey, Option.isSome_none, Bool.false_eq_true,
      if_false, Option.map_some, Noted.map_bind, Noted.map_pure]
    refine congrArg (Noted.note _ >>= ·) (funext fun _ => ?_)
    refine Noted.bind_congr (decryptAndHash_view _ _ fun _ => rfl) fun r _ => ?_
    rfl

theorem init_pairing (s e : S.PrivateKey) (psk : Octets) :
    (NoiseXxPsk0Initiator.init false s).map
        (fun i => pairing i psk e xxPsk0Params.messages) =
      pairingHandshake .initiator s e psk := by
  rfl

theorem init_reconnect (s e : S.PrivateKey) (rs : Octets) :
    (NoiseKkInitiator.init false s rs).map (fun i => reconnect i e none kkParams.messages) =
      reconnectHandshake .initiator s e rs := by
  rfl

theorem writeMessage1_ephemeral {i : NoiseXxPsk0Initiator S} {psk : Octets} {e : S.PrivateKey}
    {r : NoiseXxPsk0Initiator S × Octets} (h : (i.writeMessage1 psk e).result = some r) :
    r.1.localEphemeral = some e := by
  cases h
  rfl

theorem writeMessage1_ephemeral_reconnect {i : NoiseKkInitiator S} {e : S.PrivateKey}
    {r : NoiseKkInitiator S × Octets} (h : (i.writeMessage1 e).result = some r) :
    r.1.localEphemeral = some e := by
  cases h
  rfl

theorem decryptAndHash_keys {t t' : SymmetricState} {data p : Octets}
    (h : (t.decryptAndHash S data).result = some (t', p)) :
    t'.hasKey = t.hasKey ∧ t'.cipherKey = t.cipherKey := by
  unfold SymmetricState.decryptAndHash at h
  by_cases hk : t.hasKey = true
  · rw [if_pos hk] at h
    obtain ⟨key, -, h⟩ := Noted.exists_of_bind h
    obtain ⟨plaintext, -, h⟩ := Noted.exists_of_bind h
    cases h
    exact ⟨rfl, rfl⟩
  · rw [if_neg hk] at h
    cases h
    exact ⟨rfl, rfl⟩

/-- The keys that message 3 needs have come with message 2. -/
theorem readMessage2_keys {i i' : NoiseXxPsk0Initiator S} {message : Octets}
    (h : (i.readMessage2 message).result = some i') :
    (∃ re, i'.remoteEphemeral = some re) ∧ (∃ rs, i'.remoteStatic = some rs) ∧
      (i'.state.hasKey = true → i'.state.cipherKey.isSome = true) := by
  unfold NoiseXxPsk0Initiator.readMessage2 at h
  obtain ⟨re, -, h⟩ := Noted.exists_of_bind h
  obtain ⟨t₁, -, h⟩ := Noted.exists_of_bind h
  obtain ⟨e, -, h⟩ := Noted.exists_of_bind h
  obtain ⟨field, -, h⟩ := Noted.exists_of_bind h
  obtain ⟨⟨t₂, rs⟩, -, h⟩ := Noted.exists_of_bind h
  obtain ⟨rest, -, h⟩ := Noted.exists_of_bind h
  obtain ⟨⟨t₃, payload⟩, hd, h⟩ := Noted.exists_of_bind h
  cases h
  refine ⟨⟨re, rfl⟩, ⟨rs, rfl⟩, ?_⟩
  intro _
  rw [(decryptAndHash_keys hd).2]
  rfl

theorem writeMessage3_static {i : NoiseXxPsk0Initiator S}
    {r : NoiseXxPsk0Initiator S × Octets} (h : i.writeMessage3.result = some r) :
    r.1.remoteStatic = i.remoteStatic := by
  unfold NoiseXxPsk0Initiator.writeMessage3 at h
  obtain ⟨⟨t₁, field⟩, -, h⟩ := Noted.exists_of_bind h
  obtain ⟨re, -, h⟩ := Noted.exists_of_bind h
  obtain ⟨⟨t₂, tag⟩, -, h⟩ := Noted.exists_of_bind h
  cases h
  rfl

end HerdrMobile.App.Handshake
