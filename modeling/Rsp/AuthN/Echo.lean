import Rsp.AuthN.Security

/-!
# Reflection

The exchange does not make sure that the peer is somebody else. A peer without any key that only sends back what it receives can return the challenge, get the signed answer to it, and return that too: both are accepted.
-/

namespace Rsp

open Proto

namespace MessageQueueAuthN

open ExchangeEvent

variable {C : Crypto} (pb : Protobuf) (authn : MessageQueueAuthN C) (inputs : ExchangeInputs)

/-- Every message that was read had been written before by this call. -/
def Echoes (history : List ExchangeEvent) : Prop :=
  ∀ before m after, history = before ++ .read m :: after → .write m true ∈ before

theorem Echoes.mem_of_prefix {history before : List ExchangeEvent} {m : RSPMessage} (h : Echoes history)
    (hbegins : before ++ [.read m] <+: history) : .write m true ∈ before := by
  obtain ⟨after, rfl⟩ := hbegins
  exact h before m after (by simp)

theorem Echoes.nil : Echoes [] := by
  intro before m after h
  simp at h

theorem Echoes.concat {history : List ExchangeEvent} (h : Echoes history) (event : ExchangeEvent)
    (hevent : ∀ m, event = .read m → .write m true ∈ history) : Echoes (history ++ [event]) := by
  intro before m after heq
  rcases List.eq_nil_or_concat after with rfl | ⟨after, last, rfl⟩
  · obtain ⟨rfl, hread⟩ := List.append_inj' heq rfl
    exact hevent m (by simpa using hread)
  · have hassoc : history ++ [event] = (before ++ .read m :: after) ++ [last] := by simpa using heq
    obtain ⟨rfl, -⟩ := List.append_inj' hassoc rfl
    exact h before m after rfl

/-- The connection stays open long enough for two messages each way, the node can sign, and the second message that comes in is an identity. -/
def CompletesReflection : Prop :=
  inputs.connected = true ∧ authn.keyPair.hasPrivateKey = true ∧
    inputs.writeSucceeds 0 = true ∧ inputs.writeSucceeds 1 = true ∧
    ∃ first second rest, inputs.incoming = first :: second :: rest ∧ isIdentity second = true

/-- A node accepts its own answer to its own challenge. -/
theorem identityMessage_accepted (hC : C.RoundTrips) (hprivate : authn.keyPair.hasPrivateKey = true) (nonce : Uuid)
    (signSeed : Nat) :
    ∃ m identity peer, authn.identityMessage pb signSeed nonce = .ok m ∧ m.coreMessage = .identity identity ∧
      validateReceivedIdentity pb C m identity nonce.value = .ok (some peer) := by
  obtain ⟨publicKey, exported, peer, hpublicKey, hexported, hpeer, hsign⟩ :=
    KeyPair.signBlock_verifies hC hprivate
  let identity : Identity := { nonce := some nonce, publicKey := some publicKey, bootId := some authn.bootId }
  let unsigned : RSPMessage := { coreMessage := .identity identity }
  obtain ⟨hash, hhash⟩ : ∃ hash, computeMessageHash pb C unsigned = .ok hash := ⟨_, rfl⟩
  obtain ⟨block, hblock, hverified⟩ := hsign signSeed hash
  refine ⟨{ unsigned with signature := some block }, identity, peer, ?_, rfl, ?_⟩
  · have hsigned : signMessage pb authn.keyPair signSeed unsigned = .ok block := by
      simp only [signMessage, hhash]
      exact hblock
    simp only [identityMessage, hpublicKey]
    change (do let block ← signMessage pb authn.keyPair signSeed unsigned; pure { unsigned with signature := some block }) = _
    rw [hsigned]
    rfl
  · have hmessage : verifyMessageSignature pb exported { unsigned with signature := some block } block = .ok true := by
      -- the hash does not depend on the signature
      change (computeMessageHash pb C unsigned >>= fun hash => exported.verifyBlock hash block) = .ok true
      rw [hhash]
      exact hverified
    simp [validateReceivedIdentity, identity, hexported, hmessage, hpeer, bind, Except.bind, pure, Except.pure]

theorem hasPrivateKey_of_identityMessage {signSeed : Nat} {nonce : Uuid} {m : RSPMessage}
    (h : authn.identityMessage pb signSeed nonce = .ok m) : authn.keyPair.hasPrivateKey = true := by
  obtain ⟨_, block, -, hsign, -⟩ := identityMessage_ok h
  obtain ⟨hash, -, hblock⟩ := bind_eq_ok.mp hsign
  obtain ⟨signature, hsignature, -⟩ := bind_eq_ok.mp hblock
  unfold KeyPair.sign at hsignature
  split at hsignature
  · cases hsignature
  · next k hk =>
    split_ifs at hsignature with hprivate
    simpa [KeyPair.hasPrivateKey, hk] using hprivate

/-- The state after the node has answered its own challenge with `identity`. -/
def answeredOwn (identity : RSPMessage) : ExchangeState :=
  { localIdentitySent := true
    peerChallengeReceived := true
    writes := 2
    history := [.write (challengeMessage inputs) true, .read (challengeMessage inputs),
      .sign (challengeMessage inputs) identity, .write identity true] }

/-- The node's own challenge comes back: either the call ends without success, or the node has signed and sent its answer. -/
theorem exchangeLoop_ownChallenge (rest : List RSPMessage) :
    (∃ identity, authn.identityMessage pb inputs.signSeed ⟨inputs.challengeNonce⟩ = .ok identity ∧
      inputs.writeSucceeds 1 = true ∧
      authn.exchangeLoop pb inputs (challengeMessage inputs :: rest) (challenged inputs) =
        authn.exchangeLoop pb inputs rest (answeredOwn inputs identity)) ∨
    (((∃ fault, authn.identityMessage pb inputs.signSeed ⟨inputs.challengeNonce⟩ = .error fault) ∨
        inputs.writeSucceeds 1 = false) ∧
      (authn.exchangeLoop pb inputs (challengeMessage inputs :: rest) (challenged inputs)).2 ≠ .ok true) := by
  cases hidentity : authn.identityMessage pb inputs.signSeed ⟨inputs.challengeNonce⟩ with
  | error fault =>
    refine .inr ⟨.inl ⟨fault, rfl⟩, ?_⟩
    simp [exchangeLoop, challenged, challengeMessage, handleIncoming, handleChallenge,
      inputs.challengeNonce_length, hidentity]
  | ok identity =>
    cases hwrite : inputs.writeSucceeds 1 with
    | true =>
      refine .inl ⟨identity, rfl, rfl, ?_⟩
      simp [exchangeLoop, challenged, challengeMessage, handleIncoming, handleChallenge, writeMessage,
        inputs.challengeNonce_length, hidentity, hwrite, answeredOwn]
    | false =>
      refine .inr ⟨.inr rfl, ?_⟩
      simp [exchangeLoop, challenged, challengeMessage, handleIncoming, handleChallenge, writeMessage,
        inputs.challengeNonce_length, hidentity, hwrite]

/-- The challenge cannot be answered a second time. -/
theorem exchangeLoop_secondChallenge (identity : RSPMessage) (rest : List RSPMessage) :
    (authn.exchangeLoop pb inputs (challengeMessage inputs :: rest) (answeredOwn inputs identity)).2 = .ok false := by
  simp [exchangeLoop, answeredOwn, challengeMessage, handleIncoming, handleChallenge]

/-- The answer coming back completes the exchange, whatever else could be read. -/
theorem exchangeLoop_ownIdentity {m : RSPMessage} {identity : Identity} {peer : NodeID}
    (hcore : m.coreMessage = .identity identity)
    (hvalid : validateReceivedIdentity pb C m identity inputs.challengeNonce = .ok (some peer))
    (rest : List RSPMessage) :
    (authn.exchangeLoop pb inputs (m :: rest) (answeredOwn inputs m)).2 = .ok true := by
  have hdone (state : ExchangeState) (hreceived : state.peerIdentityReceived = true)
      (hsent : state.localIdentitySent = true) : (authn.exchangeLoop pb inputs rest state).2 = .ok true := by
    cases rest <;> simp [exchangeLoop, hreceived, hsent]
  unfold exchangeLoop
  simp only [answeredOwn, handleIncoming, hcore, handleIdentity, hvalid, setPeerNodeID, Bool.false_and,
    Bool.false_eq_true, if_false, Option.any_none]
  exact hdone _ rfl rfl

/-- **Reflection.** A peer that only sends back what this call wrote is turned away exactly when it does not complete the reflection: when the connection fails before two messages have gone each way, when the node cannot sign, or when the second message it sends is not the identity. -/
theorem reflection_rejected_iff (hC : C.RoundTrips)
    (hecho : Echoes (authn.performInitialIdentityExchange pb inputs).1.history) :
    (authn.performInitialIdentityExchange pb inputs).2 ≠ .ok true ↔ ¬ CompletesReflection authn inputs := by
  rcases performInitialIdentityExchange_cases pb authn inputs with
    ⟨hready, hrun⟩ | ⟨hwrite, hrun⟩ | ⟨hconnected, hkey, hwrite, hrun⟩
  · refine iff_of_true (by simp [hrun]) ?_
    rintro ⟨hconnected, hprivate, -⟩
    rcases hready with hready | hready
    · simp [hready] at hconnected
    · cases hkey : authn.keyPair.key <;> simp_all [KeyPair.isValid, KeyPair.hasPrivateKey]
  · refine iff_of_true (by simp [hrun]) ?_
    rintro ⟨-, -, hwrite', -⟩
    simp [hwrite] at hwrite'
  · rw [hrun] at hecho ⊢
    cases hincoming : inputs.incoming with
    | nil => exact iff_of_true (by simp [exchangeLoop, challenged]) (by simp [CompletesReflection, hincoming])
    | cons first rest =>
      rw [hincoming] at hecho
      obtain rfl : first = challengeMessage inputs := by
        simpa [challenged] using
          hecho.mem_of_prefix (exchangeLoop_read pb authn inputs first rest (challenged inputs) rfl)
      rcases exchangeLoop_ownChallenge pb authn inputs rest with
        ⟨identity, hidentity, hwrite', heq⟩ | ⟨hfailed, hresult⟩
      · have hprivate := hasPrivateKey_of_identityMessage pb authn hidentity
        obtain ⟨m, content, peer, hm, hcore, hvalid⟩ :=
          identityMessage_accepted pb authn hC hprivate ⟨inputs.challengeNonce⟩ inputs.signSeed
        obtain rfl : identity = m := Except.ok.inj (hidentity.symm.trans hm)
        rw [heq] at hecho ⊢
        cases rest with
        | nil => exact iff_of_true (by simp [exchangeLoop, answeredOwn]) (by simp [CompletesReflection, hincoming])
        | cons second rest =>
          have hsecond : second = challengeMessage inputs ∨ second = identity := by
            simpa [answeredOwn] using
              hecho.mem_of_prefix (exchangeLoop_read pb authn inputs second rest (answeredOwn inputs identity) rfl)
          rcases hsecond with rfl | rfl
          · rw [exchangeLoop_secondChallenge]
            exact iff_of_true (by simp) (by simp [CompletesReflection, hincoming, isIdentity, challengeMessage])
          · rw [exchangeLoop_ownIdentity pb authn inputs hcore hvalid]
            refine iff_of_false (by simp) (not_not_intro ?_)
            exact ⟨hconnected, hprivate, hwrite, hwrite', _, _, _, hincoming, by simp [isIdentity, hcore]⟩
      · refine iff_of_true hresult ?_
        rintro ⟨-, hprivate, -, hwrite', -⟩
        rcases hfailed with ⟨fault, hfault⟩ | hunwritten
        · obtain ⟨m, -, -, hm, -, -⟩ :=
            identityMessage_accepted pb authn hC hprivate ⟨inputs.challengeNonce⟩ inputs.signSeed
          simp [hfault] at hm
        · simp [hunwritten] at hwrite'

/-! ### A node that authenticates itself -/

/-- A node with key 7, and a peer that sends back the given messages. -/
def sampleAuthN : MessageQueueAuthN sampleCrypto := { keyPair := sampleKeyPair 7, bootId := {} }

def sampleInputs (incoming : List RSPMessage) : ExchangeInputs :=
  { challengeNonce := List.replicate 16 0, challengeNonce_length := rfl, incoming }

/-- The challenge of that node, and its own answer to it. -/
def sampleChallenge : RSPMessage := challengeMessage (sampleInputs [])

def sampleAnswer : RSPMessage :=
  ((sampleAuthN.identityMessage default 0 ⟨List.replicate 16 0⟩).toOption).getD {}

/-- Up to its answer, the history of a call whose challenge comes back. -/
theorem echoes_sample :
    Echoes [.write sampleChallenge true, .read sampleChallenge, .sign sampleChallenge sampleAnswer,
      .write sampleAnswer true] :=
  (((Echoes.nil.concat (.write sampleChallenge true) (by simp)).concat (.read sampleChallenge) (by simp)).concat
    (.sign sampleChallenge sampleAnswer) (by simp)).concat (.write sampleAnswer true) (by simp)

/-- The node takes its own identity for that of a peer. -/
theorem sampleAnswer_reflected :
    Echoes (sampleAuthN.performInitialIdentityExchange default
        (sampleInputs [sampleChallenge, sampleAnswer])).1.history ∧
      (sampleAuthN.performInitialIdentityExchange default (sampleInputs [sampleChallenge, sampleAnswer])).2 =
        .ok true :=
  ⟨(echoes_sample.concat (.read sampleAnswer) (by simp)).concat
    (.accept sampleAnswer ⟨0x0700000000000000, 0⟩) (by simp), rfl⟩

theorem reflection_rejected_secondChallenge :
    ¬ CompletesReflection sampleAuthN (sampleInputs [sampleChallenge, sampleChallenge]) ∧
      (sampleAuthN.performInitialIdentityExchange default (sampleInputs [sampleChallenge, sampleChallenge])).2 ≠
        .ok true := by
  have hnot : ¬ CompletesReflection sampleAuthN (sampleInputs [sampleChallenge, sampleChallenge]) := by
    simp [CompletesReflection, sampleInputs, sampleChallenge, challengeMessage, isIdentity]
  exact ⟨hnot, (reflection_rejected_iff default sampleAuthN (sampleInputs [sampleChallenge, sampleChallenge])
    sampleCrypto_roundTrips (echoes_sample.concat (.read sampleChallenge) (by simp))).mpr hnot⟩

end MessageQueueAuthN

end Rsp
