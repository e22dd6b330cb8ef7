import Rsp.Signing.KeyPair

/-!
# The initial identity exchange

`MessageQueueAuthN::performInitialIdentityExchange`: both ends of a fresh connection send a challenge and answer the other's challenge with a signed identity. The loop reads messages until it has answered one challenge and accepted one identity. The model keeps the history of the call, so that statements can be made about what was read, written and signed and in which order.
-/

namespace Rsp

open Proto

/-- The queue that runs the exchange. -/
structure MessageQueueAuthN (C : Crypto) where
  keyPair : KeyPair C
  bootId : Uuid

/-- What the call gets from outside: the random challenge nonce, the randomness of its signature, the outcome of its writes, and the messages that can be read until reading fails. -/
structure ExchangeInputs where
  connected : Bool := true
  challengeNonce : Bytes
  challengeNonce_length : challengeNonce.length = 16
  signSeed : Nat := 0
  writeSucceeds : Nat → Bool := fun _ => true
  incoming : List RSPMessage := []

inductive ExchangeEvent where
  | write (m : RSPMessage) (succeeded : Bool)
  | read (m : RSPMessage)
  /-- `identity` was signed in answer to `challenge`. -/
  | sign (challenge identity : RSPMessage)
  | accept (identity : RSPMessage) (peer : NodeID)

structure ExchangeState where
  peerNodeID : Option NodeID := none
  peerIdentityReceived : Bool := false
  localIdentitySent : Bool := false
  peerChallengeReceived : Bool := false
  writes : Nat := 0
  history : List ExchangeEvent := []

/-- A step either goes on or ends the call, with its result or by an exception. -/
abbrev ExchangeStep := ExchangeState × Option (Except Fault Bool)

namespace MessageQueueAuthN

variable {C : Crypto} (pb : Protobuf)

/-- The peer's NodeID if the identity answers the challenge and is signed with the key it carries. -/
def validateReceivedIdentity (C : Crypto) (m : RSPMessage) (identity : Identity) (expectedNonce : Bytes) :
    Except Fault (Option NodeID) :=
  match m.signature with
  | none => .ok none
  | some signature =>
    if (identity.nonce.getD {}).value ≠ expectedNonce then .ok none
    else
      let validated : Except Fault (Option NodeID) := do
        let peerKey : KeyPair C ← KeyPair.fromPublicKey (identity.publicKey.getD {})
        if ← verifyMessageSignature pb peerKey m signature then return some (← peerKey.nodeID) else return none
      match validated with
      | .error fault => if fault.isException then .ok none else .error fault
      | .ok peer => .ok peer

/-- The signed answer to a challenge. -/
def identityMessage (authn : MessageQueueAuthN C) (signSeed : Nat) (nonce : Uuid) : Except Fault RSPMessage := do
  let publicKey ← authn.keyPair.publicKey
  let message : RSPMessage :=
    { coreMessage := .identity { nonce := some nonce, publicKey := some publicKey, bootId := some authn.bootId } }
  return { message with signature := some (← signMessage pb authn.keyPair signSeed message) }

def writeMessage (inputs : ExchangeInputs) (m : RSPMessage) (state : ExchangeState) : ExchangeState × Bool :=
  let succeeded := inputs.writeSucceeds state.writes
  ({ state with writes := state.writes + 1, history := state.history ++ [.write m succeeded] }, succeeded)

def handleChallenge (authn : MessageQueueAuthN C) (inputs : ExchangeInputs) (m : RSPMessage)
    (request : ChallengeRequest) (state : ExchangeState) : ExchangeStep :=
  let nonce := request.nonce.getD {}
  if m.destination.isSome || m.signature.isSome || state.peerChallengeReceived || nonce.value.length ≠ 16 then
    (state, some (.ok false))
  else match authn.identityMessage pb inputs.signSeed nonce with
    | .error fault => (state, some (.error fault))
    | .ok identity =>
      let written := writeMessage inputs identity { state with history := state.history ++ [.sign m identity] }
      if written.2 then ({ written.1 with peerChallengeReceived := true, localIdentitySent := true }, none)
      else (written.1, some (.ok false))

/-- `Encoding::setPeerNodeID`, with the acceptance noted. -/
def setPeerNodeID (m : RSPMessage) (peer : NodeID) (state : ExchangeState) : ExchangeStep :=
  if state.peerNodeID.any (· ≠ peer) then
    (state, some (.error (.exception "peer NodeID is already established for this encoding")))
  else
    ({ state with
        peerNodeID := some peer, peerIdentityReceived := true, history := state.history ++ [.accept m peer] },
      none)

def handleIdentity (C : Crypto) (inputs : ExchangeInputs) (m : RSPMessage) (identity : Identity)
    (state : ExchangeState) : ExchangeStep :=
  if state.peerIdentityReceived then (state, some (.ok false))
  else match validateReceivedIdentity pb C m identity inputs.challengeNonce with
    | .error fault => (state, some (.error fault))
    | .ok none => (state, some (.ok false))
    | .ok (some peer) => setPeerNodeID m peer state

/-- The body of the loop after a successful read. -/
def handleIncoming (authn : MessageQueueAuthN C) (inputs : ExchangeInputs) (m : RSPMessage)
    (state : ExchangeState) : ExchangeStep :=
  match m.coreMessage with
  | .challengeRequest request => authn.handleChallenge pb inputs m request state
  | .identity identity => handleIdentity pb C inputs m identity state
  | _ => (state, some (.ok false))

def exchangeLoop (authn : MessageQueueAuthN C) (inputs : ExchangeInputs) :
    List RSPMessage → ExchangeState → ExchangeState × Except Fault Bool
  | [], state => (state, .ok (state.peerIdentityReceived && state.localIdentitySent))
  | m :: rest, state =>
    if state.peerIdentityReceived && state.localIdentitySent then (state, .ok true)
    else
      match authn.handleIncoming pb inputs m { state with history := state.history ++ [.read m] } with
      | (state, some result) => (state, result)
      | (state, none) => exchangeLoop authn inputs rest state

/-- The challenge this call writes first. -/
def challengeMessage (inputs : ExchangeInputs) : RSPMessage :=
  { coreMessage := .challengeRequest { nonce := some ⟨inputs.challengeNonce⟩ } }

/-- `performInitialIdentityExchange` on a fresh encoding. -/
def performInitialIdentityExchange (authn : MessageQueueAuthN C) (inputs : ExchangeInputs) :
    ExchangeState × Except Fault Bool :=
  if !inputs.connected || !authn.keyPair.isValid then ({}, .ok false)
  else
    let written := writeMessage inputs (challengeMessage inputs) {}
    if written.2 then authn.exchangeLoop pb inputs inputs.incoming written.1 else (written.1, .ok false)

end MessageQueueAuthN

end Rsp
