import Rsp.Node.AesNegotiation
import Rsp.Node.IdentityCache
import Rsp.Node.Logging

/-!
# The node and its input queue

`RSPNode` and `NodeInputQueue::handleMessage` of `node.cpp`. A node class adds its own messages through the virtual `handleNodeSpecificMessage`; here that is the parameter `specific`, a partial function on the state `σ` the class adds to the node, undefined where the method returns false. Queues have no size limit, so a push always succeeds, and what a handler pushes on the output queue is the list it returns.
-/

namespace Rsp

open Proto

/-- A constructed node: its constructor derives the NodeID of its key. -/
structure RSPNode (C : Crypto) where
  keyPair : KeyPair C
  nodeId : NodeID
  nodeID_keyPair : keyPair.nodeID = .ok nodeId
  bootId : Uuid := {}
  identityCache : IdentityCache := {}
  aesNegotiation : AesNegotiationState C := {}
  loggingSubscriptions : SubscriptionManager := {}

namespace RSPNode

variable {C : Crypto}

def observeMessage (node : RSPNode C) (m : RSPMessage) : RSPNode C :=
  { node with identityCache := node.identityCache.observeMessage C m }

/-- The side effects of `enqueueInput`; the message itself then joins the input queue. -/
def enqueueInput (now : DateTime) (m : RSPMessage) (node : RSPNode C) : RSPNode C × List RSPMessage :=
  let swept := node.aesNegotiation.processExpiredAesKeys node.nodeId now
  ({ node with aesNegotiation := swept.1 }.observeMessage m, swept.2)

end RSPNode

namespace NodeInputQueue

section

variable {C : Crypto} {σ : Type}

/-- The signed identity a node answers a challenge with. -/
def identityReply (pb : Protobuf) (signSeed : Nat) (node : RSPNode C) (requester : NodeID) (m : RSPMessage)
    (nonce : Uuid) : Except Fault RSPMessage := do
  let publicKey ← node.keyPair.publicKey
  let reply : RSPMessage :=
    { destination := some (toProtoNodeId requester)
      trace := m.trace
      coreMessage := .identity { nonce := some nonce, publicKey := some publicKey, bootId := some node.bootId } }
  return { reply with signature := some (← signMessage pb node.keyPair signSeed reply) }

/-- Replies go to the source field, or to the signer when there is none. -/
def replyDestination (m : RSPMessage) : Option NodeId :=
  match m.source with
  | some source => some source
  | none => (senderNodeIdFromMessage m).map toProtoNodeId

def pingReply (now : DateTime) (request : PingRequest) (m : RSPMessage) : RSPMessage :=
  { destination := replyDestination m
    nonce := m.nonce
    coreMessage := .pingReply
      { nonce := some (request.nonce.getD {})
        sequence := request.sequence
        timeSent := some (request.timeSent.getD {})
        timeReplied := some ⟨DateTime.millisecondsSinceEpoch now⟩ } }

def errorReply (m : RSPMessage) : RSPMessage :=
  { destination := replyDestination m
    nonce := m.nonce
    coreMessage := .error
      { errorCode := .unknownMessageType, message := ascii "unsupported message for base node handler" } }

/-- What follows once the log messages and the node's own messages are excluded. -/
def handleBaseMessage (pb : Protobuf) (ambient : Ambient) (m : RSPMessage) (node : RSPNode C) :
    Except Fault (RSPNode C × List RSPMessage) :=
  match m.coreMessage with
  | .challengeRequest request =>
    match senderNodeIdFromMessage m, request.nonce with
    | some requester, some nonce =>
      if nonce.value.length ≠ 16 then .ok (node, [])
      else do
        let reply ← identityReply pb ambient.signSeed node requester m nonce
        return (node, [reply])
    | _, _ => .ok (node, [])
  | .pingRequest request => .ok (node, [pingReply ambient.now request m])
  | _ =>
    match node.aesNegotiation.handleAesNegotiationMessage ambient node.nodeId m with
    | some (aesNegotiation, sent) => .ok ({ node with aesNegotiation }, sent)
    | none => .ok (node, [errorReply m])

/-- `NodeInputQueue::handleMessage`: the new state and what is pushed on the output queue. -/
def handleMessage (pb : Protobuf) (specific : RSPMessage → σ → Option (σ × List RSPMessage)) (ambient : Ambient)
    (m : RSPMessage) (node : RSPNode C) (own : σ) : Except Fault (RSPNode C × σ × List RSPMessage) :=
  match m.coreMessage with
  | .logSubscribeRequest request =>
    match senderNodeIdFromMessage m with
    | none => .ok (node, own, [])
    | some requester =>
      let answered := node.loggingSubscriptions.subscribe ambient.guid requester request ambient.now
      .ok ({ node with loggingSubscriptions := answered.1 }, own,
        [{ destination := some (toProtoNodeId requester), trace := m.trace,
           coreMessage := .logSubscribeReply answered.2 }])
  | .logUnsubscribeRequest request =>
    match senderNodeIdFromMessage m with
    | none => .ok (node, own, [])
    | some requester =>
      let answered := node.loggingSubscriptions.unsubscribe requester request
      .ok ({ node with loggingSubscriptions := answered.1 }, own,
        [{ destination := some (toProtoNodeId requester), trace := m.trace,
           coreMessage := .logUnsubscribeReply answered.2 }])
  | _ =>
    match specific m own with
    | some (own, sent) => .ok (node, own, sent)
    | none => do
      let (node, sent) ← handleBaseMessage pb ambient m node
      return (node, own, sent)

end

end NodeInputQueue

end Rsp
