import Rsp.AuthN.Exchange

/-!
# What the exchange guarantees

A call that returns true has accepted exactly one identity, made for its own challenge by the holder of the key the identity carries, and has answered exactly one challenge; no call signs more than one identity.
-/

namespace Rsp

open Proto

/-! ### Reading the history -/

namespace ExchangeEvent

def signed : List ExchangeEvent → List (RSPMessage × RSPMessage) :=
  List.filterMap fun
    | .sign challenge identity => some (challenge, identity)
    | _ => none

def accepted : List ExchangeEvent → List (RSPMessage × NodeID) :=
  List.filterMap fun
    | .accept m peer => some (m, peer)
    | _ => none

def isIdentity (m : RSPMessage) : Bool :=
  match m.coreMessage with
  | .identity _ => true
  | _ => false

/-- The identities handed to the connection, whether or not the write succeeded. -/
def writtenIdentities : List ExchangeEvent → List RSPMessage :=
  List.filterMap fun
    | .write m _ => if isIdentity m then some m else none
    | _ => none

end ExchangeEvent

namespace MessageQueueAuthN

open ExchangeEvent

variable {C : Crypto} (pb : Protobuf) (authn : MessageQueueAuthN C) (inputs : ExchangeInputs)

/-- `identity` is the signed answer to `challenge`, which is addressed to no one, unsigned and has a 16-byte nonce. -/
def Answers (challenge identity : RSPMessage) : Prop :=
  ∃ request nonce publicKey block, challenge.coreMessage = .challengeRequest request ∧
    challenge.destination = none ∧ challenge.signature = none ∧
    request.nonce = some nonce ∧ nonce.value.length = 16 ∧ authn.keyPair.publicKey = .ok publicKey ∧
    identity.coreMessage =
      .identity { nonce := some nonce, publicKey := some publicKey, bootId := some authn.bootId } ∧
    signMessage pb authn.keyPair inputs.signSeed { identity with signature := none } = .ok block ∧
    identity.signature = some block

/-- `m` is an identity for this call's challenge, signed with the key it carries, and `peer` is the NodeID of that key and of the signer it names. -/
def Authentic (C : Crypto) (m : RSPMessage) (peer : NodeID) : Prop :=
  ∃ (identity : Identity) (block : SignatureBlock) (key : KeyPair C), m.coreMessage = .identity identity ∧
    m.signature = some block ∧ (identity.nonce.getD {}).value = inputs.challengeNonce ∧
    KeyPair.fromPublicKey (identity.publicKey.getD {}) = .ok key ∧
    verifyMessageSignature pb key m block = .ok true ∧ key.nodeID = .ok peer ∧
    block.signer.bind nodeIdFromSignerField = some peer

variable {pb authn inputs}

theorem identityMessage_ok {signSeed : Nat} {nonce : Uuid} {m : RSPMessage}
    (h : authn.identityMessage pb signSeed nonce = .ok m) :
    ∃ publicKey block, authn.keyPair.publicKey = .ok publicKey ∧
      signMessage pb authn.keyPair signSeed { m with signature := none } = .ok block ∧
      m = { coreMessage := .identity
              { nonce := some nonce, publicKey := some publicKey, bootId := some authn.bootId }
            signature := some block } := by
  obtain ⟨publicKey, hkey, h⟩ := bind_eq_ok.mp h
  obtain ⟨block, hblock, h⟩ := bind_eq_ok.mp h
  cases h
  exact ⟨publicKey, block, hkey, hblock, rfl⟩

theorem validateReceivedIdentity_ok {m : RSPMessage} {identity : Identity} {peer : NodeID}
    (hcore : m.coreMessage = .identity identity)
    (h : validateReceivedIdentity pb C m identity inputs.challengeNonce = .ok (some peer)) :
    Authentic pb inputs C m peer := by
  unfold validateReceivedIdentity at h
  split at h
  · cases h
  next block hblock =>
  split_ifs at h with hnonce
  · cases h
  rw [not_not] at hnonce
  simp only [] at h
  split at h
  · split_ifs at h
    cases h
  next validated hvalidated =>
  cases h
  obtain ⟨key, hkey, hvalidated⟩ := bind_eq_ok.mp hvalidated
  obtain ⟨verified, hverified, hvalidated⟩ := bind_eq_ok.mp hvalidated
  split_ifs at hvalidated with htrue
  · obtain ⟨id, hid, hvalidated⟩ := bind_eq_ok.mp hvalidated
    cases hvalidated
    subst htrue
    obtain ⟨hash, -, hblockVerified⟩ := bind_eq_ok.mp hverified
    obtain ⟨signer, field, hfield, hsigner, hnode, -⟩ := KeyPair.verifyBlock_eq_true hblockVerified
    have hpeer : signer = peer := Except.ok.inj (hnode.symm.trans hid)
    refine ⟨identity, block, key, hcore, hblock, hnonce, hkey, hverified, hid, ?_⟩
    rw [hfield, Option.bind_some, nodeIdFromSignerField, hsigner, hpeer]
  · cases hvalidated

/-! ### The loop -/

variable (pb authn inputs)

/-- Every signed identity answers a proper challenge, there is at most one, and it is the one identity written. -/
structure Bounded (history : List ExchangeEvent) : Prop where
  atMostOne : (signed history).length ≤ 1
  answers : ∀ entry ∈ signed history, Answers pb authn inputs entry.1 entry.2 ∧ .read entry.1 ∈ history
  written : writtenIdentities history = (signed history).map Prod.snd

/-- While the loop goes on, its flags say exactly what has happened. -/
structure Going (state : ExchangeState) : Prop extends Bounded pb authn inputs state.history where
  challengeReceived : state.peerChallengeReceived = state.localIdentitySent
  unanswered : state.localIdentitySent = false → signed state.history = []
  answered : state.localIdentitySent = true →
    ∃ challenge identity, signed state.history = [(challenge, identity)] ∧ .write identity true ∈ state.history
  unaccepted : state.peerIdentityReceived = false → accepted state.history = [] ∧ state.peerNodeID = none
  acceptedOne : state.peerIdentityReceived = true →
    ∃ m peer, accepted state.history = [(m, peer)] ∧ Authentic pb inputs C m peer ∧ .read m ∈ state.history ∧
      state.peerNodeID = some peer

variable {pb authn inputs}

/-- Reading changes nothing but the history. -/
theorem Going.read {state : ExchangeState} (h : Going pb authn inputs state) (m : RSPMessage) :
    Going pb authn inputs { state with history := state.history ++ [.read m] } where
  atMostOne := by simpa [signed] using h.atMostOne
  answers entry hentry := by
    have := h.answers entry (by simpa [signed] using hentry)
    exact ⟨this.1, List.mem_append_left _ this.2⟩
  written := by simpa [signed, writtenIdentities] using h.written
  challengeReceived := h.challengeReceived
  unanswered hflag := by simpa [signed] using h.unanswered hflag
  answered hflag := by
    obtain ⟨challenge, identity, hsigned, hwrite⟩ := h.answered hflag
    exact ⟨challenge, identity, by simpa [signed] using hsigned, List.mem_append_left _ hwrite⟩
  unaccepted hflag := by simpa [accepted] using h.unaccepted hflag
  acceptedOne hflag := by
    obtain ⟨m', peer, haccepted, hauthentic, hread, hpeer⟩ := h.acceptedOne hflag
    exact ⟨m', peer, by simpa [accepted] using haccepted, hauthentic, List.mem_append_left _ hread, hpeer⟩

variable (pb authn inputs)

/-- What a step guarantees: it goes on with the invariant, or it ends the call without success. -/
def StepSound (step : ExchangeStep) : Prop :=
  match step.2 with
  | none => Going pb authn inputs step.1
  | some result => Bounded pb authn inputs step.1.history ∧ result ≠ .ok true

variable {pb authn inputs}

theorem StepSound.goOn {state : ExchangeState} (h : Going pb authn inputs state) :
    StepSound pb authn inputs (state, none) := h

theorem StepSound.stop {state : ExchangeState} (h : Bounded pb authn inputs state.history)
    {result : Except Fault Bool} (hresult : result ≠ .ok true) :
    StepSound pb authn inputs (state, some result) := ⟨h, hresult⟩

/-- The first identity is signed and handed to the connection. -/
theorem Bounded.sign {history : List ExchangeEvent} (h : Bounded pb authn inputs history)
    (hnone : signed history = []) {challenge identity : RSPMessage}
    (hanswers : Answers pb authn inputs challenge identity) (hread : .read challenge ∈ history) (succeeded : Bool) :
    signed (history ++ [.sign challenge identity] ++ [.write identity succeeded]) = [(challenge, identity)] ∧
      Bounded pb authn inputs (history ++ [.sign challenge identity] ++ [.write identity succeeded]) := by
  have hsigned : signed (history ++ [.sign challenge identity] ++ [.write identity succeeded]) =
      [(challenge, identity)] := by
    simp only [signed, List.filterMap_append] at hnone ⊢
    rw [hnone]
    rfl
  have hidentity : isIdentity identity = true := by
    obtain ⟨_, _, _, _, -, -, -, -, -, -, hcore, -, -⟩ := hanswers
    simp [isIdentity, hcore]
  have hwritten : writtenIdentities history = [] := by rw [h.written, hnone, List.map_nil]
  refine ⟨hsigned, by rw [hsigned]; simp, ?_, ?_⟩
  · intro entry hentry
    rw [hsigned, List.mem_singleton] at hentry
    subst hentry
    exact ⟨hanswers, by simp [hread]⟩
  · rw [hsigned]
    simp only [writtenIdentities, List.filterMap_append] at hwritten ⊢
    rw [hwritten]
    simp [hidentity]

theorem handleChallenge_sound {state : ExchangeState} (h : Going pb authn inputs state) {m : RSPMessage}
    {request : ChallengeRequest} (hcore : m.coreMessage = .challengeRequest request)
    (hread : .read m ∈ state.history) :
    StepSound pb authn inputs (authn.handleChallenge pb inputs m request state) := by
  unfold handleChallenge
  simp only []
  split_ifs with hreject
  · exact .stop h.toBounded (by simp)
  simp only [Bool.or_eq_true, decide_eq_true_eq, not_or, not_not, Bool.not_eq_true, Option.isSome_eq_false_iff,
    Option.isNone_iff_eq_none] at hreject
  obtain ⟨⟨⟨hdestination, hsignature⟩, hfirst⟩, hlength⟩ := hreject
  have hnone : signed state.history = [] := h.unanswered (h.challengeReceived ▸ hfirst)
  cases hidentity : authn.identityMessage pb inputs.signSeed (request.nonce.getD {}) with
  | error fault => exact .stop h.toBounded (by simp)
  | ok identity =>
    have hanswers : Answers pb authn inputs m identity := by
      cases hnonce : request.nonce with
      | none => simp [hnonce] at hlength
      | some nonce =>
        rw [hnonce, Option.getD_some] at hlength hidentity
        obtain ⟨publicKey, block, hkey, hsign, rfl⟩ := identityMessage_ok hidentity
        exact ⟨request, nonce, publicKey, block, hcore, hdestination, hsignature, hnonce, hlength, hkey, rfl, hsign,
          rfl⟩
    cases hwritten : inputs.writeSucceeds state.writes with
    | true =>
      simp only [writeMessage, hwritten, if_true]
      obtain ⟨hsigned, hbounded⟩ := h.toBounded.sign hnone hanswers hread true
      refine .goOn
        { hbounded with
          challengeReceived := rfl
          unanswered := by simp
          answered := fun _ => ⟨m, identity, hsigned, by simp⟩
          unaccepted := fun hflag => ?_
          acceptedOne := fun hflag => ?_ }
      · simpa [accepted] using h.unaccepted hflag
      · obtain ⟨m', peer, haccepted, hauthentic, hread', hpeer⟩ := h.acceptedOne hflag
        exact ⟨m', peer, by simpa [accepted] using haccepted, hauthentic, by simp [hread'], hpeer⟩
    | false =>
      simp only [writeMessage, hwritten, Bool.false_eq_true, if_false]
      exact .stop (h.toBounded.sign hnone hanswers hread false).2 (by simp)

theorem handleIdentity_sound {state : ExchangeState} (h : Going pb authn inputs state) {m : RSPMessage}
    {identity : Identity} (hcore : m.coreMessage = .identity identity) (hread : .read m ∈ state.history) :
    StepSound pb authn inputs (handleIdentity pb C inputs m identity state) := by
  unfold handleIdentity
  split_ifs with hreceived
  · exact .stop h.toBounded (by simp)
  rw [Bool.not_eq_true] at hreceived
  obtain ⟨haccepted, hpeer⟩ := h.unaccepted hreceived
  cases hvalid : validateReceivedIdentity pb C m identity inputs.challengeNonce with
  | error fault => exact .stop h.toBounded (by simp)
  | ok peer =>
    cases peer with
    | none => exact .stop h.toBounded (by simp)
    | some peer =>
      have hauthentic := validateReceivedIdentity_ok hcore hvalid
      simp only [setPeerNodeID, hpeer, Option.any_none, Bool.false_eq_true, if_false]
      refine .goOn
        { atMostOne := by simpa [signed] using h.atMostOne
          answers := fun entry hentry => ?_
          written := by simpa [signed, writtenIdentities] using h.written
          challengeReceived := h.challengeReceived
          unanswered := fun hflag => by simpa [signed] using h.unanswered hflag
          answered := fun hflag => ?_
          unaccepted := by simp
          acceptedOne := fun _ => ⟨m, peer, ?_, hauthentic, by simp [hread], rfl⟩ }
      · have := h.answers entry (by simpa [signed] using hentry)
        exact ⟨this.1, List.mem_append_left _ this.2⟩
      · obtain ⟨challenge, identity, hsigned, hwrite⟩ := h.answered hflag
        exact ⟨challenge, identity, by simpa [signed] using hsigned, List.mem_append_left _ hwrite⟩
      · simp only [accepted, List.filterMap_append] at haccepted ⊢
        rw [haccepted]
        rfl

theorem handleIncoming_sound {state : ExchangeState} (h : Going pb authn inputs state) {m : RSPMessage}
    (hread : .read m ∈ state.history) : StepSound pb authn inputs (authn.handleIncoming pb inputs m state) := by
  unfold handleIncoming
  split
  · next request hcore => exact handleChallenge_sound h hcore hread
  · next identity hcore => exact handleIdentity_sound h hcore hread
  · exact .stop h.toBounded (by simp)

/-- The whole loop, by induction on the messages that can still be read. -/
theorem exchangeLoop_sound (incoming : List RSPMessage) {state : ExchangeState} (h : Going pb authn inputs state) :
    Bounded pb authn inputs (authn.exchangeLoop pb inputs incoming state).1.history ∧
      ((authn.exchangeLoop pb inputs incoming state).2 = .ok true →
        Going pb authn inputs (authn.exchangeLoop pb inputs incoming state).1 ∧
          (authn.exchangeLoop pb inputs incoming state).1.peerIdentityReceived = true ∧
          (authn.exchangeLoop pb inputs incoming state).1.localIdentitySent = true) := by
  induction incoming generalizing state with
  | nil =>
    simp only [exchangeLoop]
    refine ⟨h.toBounded, fun hresult => ⟨h, ?_⟩⟩
    simpa using Except.ok.inj hresult
  | cons m rest ih =>
    unfold exchangeLoop
    split_ifs with hdone
    · exact ⟨h.toBounded, fun _ => ⟨h, by simpa using hdone⟩⟩
    · have hstep := handleIncoming_sound (h.read m) (m := m) (by simp)
      cases hincoming : authn.handleIncoming pb inputs m { state with history := state.history ++ [.read m] } with
      | mk state' result =>
        rw [hincoming] at hstep
        cases result with
        | none => exact ih hstep
        | some result => exact ⟨hstep.1, fun hresult => absurd hresult hstep.2⟩

/-! ### The history only grows -/

variable (pb authn inputs)

theorem handleIncoming_history (m : RSPMessage) (state : ExchangeState) :
    state.history <+: (authn.handleIncoming pb inputs m state).1.history := by
  unfold handleIncoming
  split
  · unfold handleChallenge
    simp only []
    split_ifs
    · exact List.prefix_rfl
    · split
      · exact List.prefix_rfl
      · split_ifs <;> exact ⟨_, (List.append_assoc ..).symm⟩
  · unfold handleIdentity
    split_ifs
    · exact List.prefix_rfl
    · split
      · exact List.prefix_rfl
      · exact List.prefix_rfl
      · unfold setPeerNodeID
        split_ifs
        · exact List.prefix_rfl
        · exact List.prefix_append ..
  · exact List.prefix_rfl

theorem exchangeLoop_read_of {rest : List RSPMessage}
    (hrest : ∀ state, state.history <+: (authn.exchangeLoop pb inputs rest state).1.history) (m : RSPMessage)
    (state : ExchangeState) (hgoing : (state.peerIdentityReceived && state.localIdentitySent) = false) :
    state.history ++ [.read m] <+: (authn.exchangeLoop pb inputs (m :: rest) state).1.history := by
  have hstep := handleIncoming_history pb authn inputs m { state with history := state.history ++ [.read m] }
  unfold exchangeLoop
  rw [if_neg (by simp [hgoing])]
  split
  · next hincoming =>
    rw [hincoming] at hstep
    exact hstep
  · next hincoming =>
    rw [hincoming] at hstep
    exact hstep.trans (hrest _)

theorem exchangeLoop_history (incoming : List RSPMessage) (state : ExchangeState) :
    state.history <+: (authn.exchangeLoop pb inputs incoming state).1.history := by
  induction incoming generalizing state with
  | nil => exact List.prefix_rfl
  | cons m rest ih =>
    cases hgoing : state.peerIdentityReceived && state.localIdentitySent with
    | true =>
      rw [exchangeLoop, if_pos hgoing]
    | false => exact (List.prefix_append ..).trans (exchangeLoop_read_of pb authn inputs ih m state hgoing)

/-- A loop that has not finished reads the next message. -/
theorem exchangeLoop_read (m : RSPMessage) (rest : List RSPMessage) (state : ExchangeState)
    (hgoing : (state.peerIdentityReceived && state.localIdentitySent) = false) :
    state.history ++ [.read m] <+: (authn.exchangeLoop pb inputs (m :: rest) state).1.history :=
  exchangeLoop_read_of pb authn inputs (exchangeLoop_history pb authn inputs rest) m state hgoing

/-! ### The call -/

/-- The loop starts after the challenge has been written. -/
def challenged : ExchangeState := { writes := 1, history := [.write (challengeMessage inputs) true] }

theorem going_challenged : Going pb authn inputs (challenged inputs) where
  atMostOne := by simp [challenged, signed]
  answers := by simp [challenged, signed]
  written := by simp [challenged, signed, writtenIdentities, challengeMessage, isIdentity]
  challengeReceived := rfl
  unanswered _ := rfl
  answered := by simp [challenged]
  unaccepted _ := ⟨rfl, rfl⟩
  acceptedOne := by simp [challenged]

/-- The call ends before it reads anything, or runs the loop. -/
theorem performInitialIdentityExchange_cases :
    ((inputs.connected = false ∨ authn.keyPair.isValid = false) ∧
      authn.performInitialIdentityExchange pb inputs = ({}, .ok false)) ∨
    (inputs.writeSucceeds 0 = false ∧ authn.performInitialIdentityExchange pb inputs =
      ({ writes := 1, history := [.write (challengeMessage inputs) false] }, .ok false)) ∨
    (inputs.connected = true ∧ authn.keyPair.isValid = true ∧ inputs.writeSucceeds 0 = true ∧
      authn.performInitialIdentityExchange pb inputs =
        authn.exchangeLoop pb inputs inputs.incoming (challenged inputs)) := by
  unfold performInitialIdentityExchange
  by_cases hready : (!inputs.connected || !authn.keyPair.isValid) = true
  · rw [if_pos hready]
    exact .inl ⟨by simpa using hready, rfl⟩
  · rw [if_neg hready]
    rw [Bool.not_eq_true, Bool.or_eq_false_iff, Bool.not_eq_false', Bool.not_eq_false'] at hready
    cases hwrite : inputs.writeSucceeds 0 with
    | false => exact .inr (.inl ⟨rfl, by simp [writeMessage, hwrite]⟩)
    | true => exact .inr (.inr ⟨hready.1, hready.2, rfl, by simp [writeMessage, hwrite, challenged]⟩)

/-- **Authenticity and bounded signing.** A successful call accepted exactly one identity, which is authentic for the challenge it wrote, and answered exactly one challenge. No call, successful or not, signs or writes more than one identity, and it signs one only for an unaddressed and unsigned challenge with a 16-byte nonce. -/
theorem performInitialIdentityExchange_sound :
    ((authn.performInitialIdentityExchange pb inputs).2 = .ok true →
      ∃ m peer challenge identity,
        let state := (authn.performInitialIdentityExchange pb inputs).1
        .write (challengeMessage inputs) true ∈ state.history ∧
        accepted state.history = [(m, peer)] ∧ .read m ∈ state.history ∧ Authentic pb inputs C m peer ∧
        state.peerNodeID = some peer ∧
        signed state.history = [(challenge, identity)] ∧ .read challenge ∈ state.history ∧
        .write identity true ∈ state.history ∧ Answers pb authn inputs challenge identity) ∧
    Bounded pb authn inputs (authn.performInitialIdentityExchange pb inputs).1.history := by
  rcases performInitialIdentityExchange_cases pb authn inputs with ⟨-, hrun⟩ | ⟨-, hrun⟩ | ⟨-, -, -, hrun⟩
  · rw [hrun]
    exact ⟨by simp, by simp [signed], by simp [signed], by simp [signed, writtenIdentities]⟩
  · rw [hrun]
    exact ⟨by simp, by simp [signed], by simp [signed],
      by simp [signed, writtenIdentities, challengeMessage, isIdentity]⟩
  · rw [hrun]
    obtain ⟨hbounded, hsuccess⟩ := exchangeLoop_sound inputs.incoming (going_challenged pb authn inputs)
    refine ⟨fun hresult => ?_, hbounded⟩
    obtain ⟨hgoing, hreceived, hsent⟩ := hsuccess hresult
    obtain ⟨m, peer, haccepted, hauthentic, hread, hpeer⟩ := hgoing.acceptedOne hreceived
    obtain ⟨challenge, identity, hsigned, hwritten⟩ := hgoing.answered hsent
    obtain ⟨hanswers, hchallenge⟩ := hgoing.answers (challenge, identity) (by rw [hsigned]; exact List.mem_singleton_self _)
    have hfirst := (exchangeLoop_history pb authn inputs inputs.incoming (challenged inputs)).subset
      (List.mem_singleton_self _)
    exact ⟨m, peer, challenge, identity, hfirst, haccepted, hread, hauthentic, hpeer, hsigned, hchallenge, hwritten,
      hanswers⟩

end MessageQueueAuthN

end Rsp
