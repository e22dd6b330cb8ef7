import Rsp.Signing.KeyPair

/-!
# AES key negotiation

The pairwise key agreement of `RSPNode`: a node keeps at most one pending negotiation and one active key per peer. What a call draws from the clock and from the random generators is the argument `Ambient`.
-/

namespace Rsp

open Proto

/-- What one call reads from the clock and the random generators. The clock is read once to drop expired keys and once more to handle the message. -/
structure Ambient where
  expiryNow : DateTime := 0
  now : DateTime := 0
  keySeed : Nat := 0
  signSeed : Nat := 0
  guid : GUID := default
  nonce : Bytes := []

structure AesNegotiationLimits where
  maxActiveKeys : Nat := 64
  maxPendingNegotiations : Nat := 64
  defaultLifetimeMs : UInt64 := 5 * 60 * 1000
  minLifetimeMs : UInt64 := 1000
  maxLifetimeMs : UInt64 := 60 * 60 * 1000
  pendingTimeoutMs : UInt64 := 15 * 1000
deriving DecidableEq, Repr

structure PendingAesNegotiation (C : Crypto) where
  keyId : Bytes
  ephemeralKeyPair : KeyPair C
  algorithm : UInt32
  requestedLifetimeMs : UInt64
  expiresAt : DateTime

structure ActiveAesKey where
  keyId : Bytes
  keyMaterial : Bytes
  algorithm : UInt32
  expiresAt : DateTime
deriving DecidableEq, Repr

structure AesNegotiationState (C : Crypto) where
  limits : AesNegotiationLimits := {}
  pendingByPeer : Std.TreeMap NodeID (PendingAesNegotiation C) := {}
  activeByPeer : Std.TreeMap NodeID ActiveAesKey := {}

/-! ### Helpers of `node.cpp` -/

def isValidKeyId (keyId : Bytes) : Bool := keyId.length == 16

/-- `std::clamp` of the requested lifetime, or of the default when none is requested. -/
def clampLifetimeMs (requestedLifetimeMs : UInt64) (limits : AesNegotiationLimits) : UInt64 :=
  let requested := if requestedLifetimeMs == 0 then limits.defaultLifetimeMs else requestedLifetimeMs
  if requested < limits.minLifetimeMs then limits.minLifetimeMs
  else if limits.maxLifetimeMs < requested then limits.maxLifetimeMs
  else requested

def deriveSharedSecret {C : Crypto} (localKey peerKey : KeyPair C) : Option Bytes :=
  localKey.key.bind fun k => peerKey.key.bind (C.deriveSharedSecret k)

/-- The two nodes enter in the order of their byte strings, so both ends derive the same key. -/
def deriveAesKeyMaterial (C : Crypto) (sharedSecret keyId : Bytes) (firstNode secondNode : NodeID) : Bytes :=
  let first := (toProtoNodeId firstNode).value
  let second := (toProtoNodeId secondNode).value
  let lower := if (compare first second).isLE then first else second
  let upper := if (compare first second).isLE then second else first
  C.sha256 (sharedSecret ++ keyId ++ lower ++ upper ++ ascii "rsp-aes-negotiation-v1")

/-- Sixteen random bytes, drawn as the identifier `guid`. -/
def randomKeyId (ambient : Ambient) : Bytes := ambient.guid.toBigEndian

def makeAesKeyNegotiationRequest (source destination : NodeID) (keyId : Bytes) (ephemeralPublicKey : PublicKey)
    (requestedLifetimeMs : UInt64) : RSPMessage :=
  { source := some (toProtoNodeId source)
    destination := some (toProtoNodeId destination)
    coreMessage := .aesKeyNegotiationRequest
      { keyId := some ⟨keyId⟩
        ephemeralPublicKey := some ephemeralPublicKey
        requestedLifetimeMs
        algorithm := .p256Sha256Aes256 } }

def makeAesKeyDropNotification (source destination : NodeID) (keyId reason : Bytes) : RSPMessage :=
  { source := some (toProtoNodeId source)
    destination := some (toProtoNodeId destination)
    coreMessage := .aesKeyDropNotification { keyId := some ⟨keyId⟩, reason } }

def makeAesKeyNegotiationError (source destination : NodeID) (errorCode : KeyNegotiationError)
    (keyId : Option Bytes) (errorMessage : String) : RSPMessage :=
  { source := some (toProtoNodeId source)
    destination := some (toProtoNodeId destination)
    coreMessage := .aesKeyNegotiationError
      { errorCode, keyId := keyId.map Uuid.mk, message := ascii errorMessage } }

namespace AesNegotiationState

variable {C : Crypto}

/-- Drops what has expired; every dropped active key is reported to its peer. -/
def processExpiredAesKeys (self : NodeID) (now : DateTime) (state : AesNegotiationState C) :
    AesNegotiationState C × List RSPMessage :=
  ({ state with
      activeByPeer := state.activeByPeer.filter fun _ key => key.expiresAt > now
      pendingByPeer := state.pendingByPeer.filter fun _ pending => pending.expiresAt > now },
    (state.activeByPeer.toList.filter fun entry => ¬ entry.2.expiresAt > now).map fun entry =>
      makeAesKeyDropNotification self entry.1 entry.2.keyId (ascii "expired"))

def erasePendingIf (peer : NodeID) (keyId : Bytes) (state : AesNegotiationState C) : AesNegotiationState C :=
  match state.pendingByPeer[peer]? with
  | some pending =>
    if pending.keyId = keyId then { state with pendingByPeer := state.pendingByPeer.erase peer } else state
  | none => state

def eraseActiveIf (peer : NodeID) (keyId : Bytes) (state : AesNegotiationState C) : AesNegotiationState C :=
  match state.activeByPeer[peer]? with
  | some active =>
    if active.keyId = keyId then { state with activeByPeer := state.activeByPeer.erase peer } else state
  | none => state

def handleAesKeyNegotiationError (sender : Option NodeID) (error : AesKeyNegotiationError)
    (state : AesNegotiationState C) : AesNegotiationState C :=
  match sender, error.keyId with
  | some sender, some keyId =>
    if !isValidKeyId keyId.value then state
    else
      let state := state.erasePendingIf sender keyId.value
      if error.errorCode = .keyIncorrect ∨ error.errorCode = .unknownKey ∨ error.errorCode = .expired then
        state.eraseActiveIf sender keyId.value
      else state
  | _, _ => state

/-- The part of the request handler inside the `try` block. The key becomes active before the reply is built, and stays so if building the reply throws. -/
def acceptRequest (ambient : Ambient) (self sender : NodeID) (keyId : Bytes) (request : AesKeyNegotiationRequest)
    (state : AesNegotiationState C) : AesNegotiationState C × RSPMessage :=
  let error := makeAesKeyNegotiationError self sender
  let invalid := error .invalidRequest (some keyId) "invalid AES key negotiation public key"
  match (KeyPair.fromPublicKey (request.ephemeralPublicKey.getD {}) : Except Fault (KeyPair C)) with
  | .error _ => (state, invalid)
  | .ok peerEphemeralKey =>
    match KeyPair.generateP256 C ambient.keySeed with
    | .error _ => (state, invalid)
    | .ok responderEphemeralKey =>
      match deriveSharedSecret responderEphemeralKey peerEphemeralKey with
      | none => (state, error .keyIncorrect (some keyId) "failed to derive shared AES key material")
      | some sharedSecret =>
        let acceptedLifetimeMs := clampLifetimeMs request.requestedLifetimeMs state.limits
        let active : ActiveAesKey :=
          { keyId
            keyMaterial := deriveAesKeyMaterial C sharedSecret keyId self sender
            algorithm := request.algorithm.number.toUInt32
            expiresAt := DateTime.addMilliseconds ambient.now acceptedLifetimeMs }
        let state := { state with activeByPeer := state.activeByPeer.insert sender active }
        match responderEphemeralKey.publicKey with
        | .error _ => (state, invalid)
        | .ok publicKey =>
          (state,
            { source := some (toProtoNodeId self)
              destination := some (toProtoNodeId sender)
              coreMessage := .aesKeyNegotiationReply
                { keyId := some ⟨keyId⟩
                  ephemeralPublicKey := some publicKey
                  acceptedLifetimeMs
                  algorithm := request.algorithm } })

def handleAesKeyNegotiationRequest (ambient : Ambient) (self sender : NodeID) (request : AesKeyNegotiationRequest)
    (state : AesNegotiationState C) : AesNegotiationState C × RSPMessage :=
  let error := makeAesKeyNegotiationError self sender
  let keyId := (request.keyId.getD {}).value
  if request.keyId.isNone || !isValidKeyId keyId || request.ephemeralPublicKey.isNone then
    (state, error .invalidRequest (request.keyId.map Uuid.value) "invalid AES key negotiation request")
  else if request.algorithm ≠ .p256Sha256Aes256 then
    (state, error .unsupportedAlgorithm (some keyId) "unsupported AES key negotiation algorithm")
  else if state.pendingByPeer.contains sender then
    (state, error .pairNegotiationExists (some keyId) "peer already has a pending AES negotiation")
  else if state.activeByPeer.contains sender then
    (state, error .pairKeyExists (some keyId) "peer already has an active AES key")
  else if state.limits.maxActiveKeys == 0 || state.activeByPeer.size ≥ state.limits.maxActiveKeys then
    (state, error .keyLimitReached (some keyId) "AES key capacity reached")
  else acceptRequest ambient self sender keyId request state

/-- The part of the reply handler inside the `try` block; a malformed public key leaves the negotiation pending. -/
def acceptReply (ambient : Ambient) (self sender : NodeID) (keyId : Bytes) (reply : AesKeyNegotiationReply)
    (pending : PendingAesNegotiation C) (state : AesNegotiationState C) :
    AesNegotiationState C × Option RSPMessage :=
  let error := makeAesKeyNegotiationError self sender
  match (KeyPair.fromPublicKey (reply.ephemeralPublicKey.getD {}) : Except Fault (KeyPair C)) with
  | .error _ => (state, some (error .invalidRequest (some keyId) "invalid AES key negotiation public key"))
  | .ok peerEphemeralKey =>
    match deriveSharedSecret pending.ephemeralKeyPair peerEphemeralKey with
    | none =>
      ({ state with pendingByPeer := state.pendingByPeer.erase sender },
        some (error .keyIncorrect (some keyId) "failed to derive shared AES key material"))
    | some sharedSecret =>
      let accepted := if reply.acceptedLifetimeMs == 0 then pending.requestedLifetimeMs else reply.acceptedLifetimeMs
      let active : ActiveAesKey :=
        { keyId := pending.keyId
          keyMaterial := deriveAesKeyMaterial C sharedSecret keyId self sender
          algorithm := reply.algorithm.number.toUInt32
          expiresAt := DateTime.addMilliseconds ambient.now (clampLifetimeMs accepted state.limits) }
      ({ state with
          activeByPeer := state.activeByPeer.insert sender active
          pendingByPeer := state.pendingByPeer.erase sender }, none)

def handleAesKeyNegotiationReply (ambient : Ambient) (self sender : NodeID) (reply : AesKeyNegotiationReply)
    (state : AesNegotiationState C) : AesNegotiationState C × Option RSPMessage :=
  let error := makeAesKeyNegotiationError self sender
  let keyId := (reply.keyId.getD {}).value
  if reply.keyId.isNone || !isValidKeyId keyId || reply.ephemeralPublicKey.isNone then
    (state, some (error .invalidRequest (reply.keyId.map Uuid.value) "invalid AES key negotiation reply"))
  else if reply.algorithm ≠ .p256Sha256Aes256 then
    (state, some (error .unsupportedAlgorithm (some keyId) "unsupported AES key negotiation algorithm"))
  else match state.pendingByPeer[sender]? with
    | none => (state, some (error .unknownKey (some keyId) "no pending AES negotiation for peer"))
    | some pending =>
      if pending.keyId ≠ keyId then
        (state, some (error .keyIncorrect (some keyId) "reply key id does not match the pending negotiation"))
      else if state.limits.maxActiveKeys == 0 ||
          (!state.activeByPeer.contains sender && state.activeByPeer.size ≥ state.limits.maxActiveKeys) then
        ({ state with pendingByPeer := state.pendingByPeer.erase sender },
          some (error .keyLimitReached (some keyId) "AES key capacity reached"))
      else acceptReply ambient self sender keyId reply pending state

def handleAesKeyDropNotification (self sender : NodeID) (drop : AesKeyDropNotification)
    (state : AesNegotiationState C) : AesNegotiationState C × Option RSPMessage :=
  let error := makeAesKeyNegotiationError self sender
  let keyId := (drop.keyId.getD {}).value
  if drop.keyId.isNone || !isValidKeyId keyId then
    (state, some (error .invalidRequest (drop.keyId.map Uuid.value) "invalid AES key drop notification"))
  else
    let reply := match state.activeByPeer[sender]? with
      | none => some (error .unknownKey (some keyId) "AES key not found for peer")
      | some active =>
        if active.keyId ≠ keyId then some (error .keyIncorrect (some keyId) "AES key id mismatch for peer") else none
    ((state.eraseActiveIf sender keyId).erasePendingIf sender keyId, reply)

/-- `none` when the message is not about key negotiation; otherwise the new state and what is sent. -/
def handleAesNegotiationMessage (ambient : Ambient) (self : NodeID) (m : RSPMessage)
    (state : AesNegotiationState C) : Option (AesNegotiationState C × List RSPMessage) :=
  let swept := state.processExpiredAesKeys self ambient.expiryNow
  let sender := senderNodeIdFromMessage m
  match m.coreMessage with
  | .aesKeyNegotiationError error => some (swept.1.handleAesKeyNegotiationError sender error, swept.2)
  | .aesKeyNegotiationRequest request =>
    match sender with
    | none => some swept
    | some sender =>
      let answered := swept.1.handleAesKeyNegotiationRequest ambient self sender request
      some (answered.1, swept.2 ++ [answered.2])
  | .aesKeyNegotiationReply reply =>
    match sender with
    | none => some swept
    | some sender =>
      let answered := swept.1.handleAesKeyNegotiationReply ambient self sender reply
      some (answered.1, swept.2 ++ answered.2.toList)
  | .aesKeyDropNotification drop =>
    match sender with
    | none => some swept
    | some sender =>
      let answered := swept.1.handleAesKeyDropNotification self sender drop
      some (answered.1, swept.2 ++ answered.2.toList)
  | _ => none

/-! ### Calls of the application -/

/-- The critical section of `beginAesKeyNegotiation`: the pending entry and the request to send. -/
def propose (ambient : Ambient) (self peer : NodeID) (requestedLifetimeMs : UInt64) (state : AesNegotiationState C) :
    Option (AesNegotiationState C × RSPMessage) :=
  if state.pendingByPeer.contains peer || state.activeByPeer.contains peer then none
  else if state.limits.maxPendingNegotiations == 0 ||
      state.pendingByPeer.size ≥ state.limits.maxPendingNegotiations then none
  else if state.limits.maxActiveKeys == 0 || state.activeByPeer.size ≥ state.limits.maxActiveKeys then none
  else
    let lifetimeMs := clampLifetimeMs requestedLifetimeMs state.limits
    let keyId := randomKeyId ambient
    match KeyPair.generateP256 C ambient.keySeed with
    | .error _ => none
    | .ok ephemeralKeyPair =>
      match ephemeralKeyPair.publicKey with
      | .error _ => none
      | .ok publicKey =>
        let pending : PendingAesNegotiation C :=
          { keyId
            ephemeralKeyPair
            algorithm := KeyNegotiationAlgorithm.p256Sha256Aes256.number.toUInt32
            requestedLifetimeMs := lifetimeMs
            expiresAt := DateTime.addMilliseconds ambient.now state.limits.pendingTimeoutMs }
        some ({ state with pendingByPeer := state.pendingByPeer.insert peer pending },
          makeAesKeyNegotiationRequest self peer keyId publicKey lifetimeMs)

/-- The new state, what is handed to the output queue and the result. `enqueued` says whether the queue takes the request; if not, the pending entry is dropped again. -/
def beginAesKeyNegotiation (ambient : Ambient) (self peer : NodeID) (requestedLifetimeMs : UInt64) (enqueued : Bool)
    (state : AesNegotiationState C) : AesNegotiationState C × List RSPMessage × Bool :=
  if peer = self then (state, [], false)
  else
    let swept := state.processExpiredAesKeys self ambient.expiryNow
    match swept.1.propose ambient self peer requestedLifetimeMs with
    | none => (swept.1, swept.2, false)
    | some (state, request) =>
      if enqueued then (state, swept.2 ++ [request], true)
      else ({ state with pendingByPeer := state.pendingByPeer.erase peer }, swept.2, false)

def dropAesKey (self peer : NodeID) (reason : Bytes) (now : DateTime) (enqueued : Bool)
    (state : AesNegotiationState C) : AesNegotiationState C × List RSPMessage × Bool :=
  let swept := state.processExpiredAesKeys self now
  let state := { swept.1 with pendingByPeer := swept.1.pendingByPeer.erase peer }
  match state.activeByPeer[peer]? with
  | none => (state, swept.2, false)
  | some active =>
    let dropNotification := makeAesKeyDropNotification self peer active.keyId
      (if reason.isEmpty then ascii "local_drop" else reason)
    ({ state with activeByPeer := state.activeByPeer.erase peer }, swept.2 ++ [dropNotification], enqueued)

end AesNegotiationState

end Rsp
