import Rsp.Endorsement.Reduce
import Rsp.Lib.Machine
import Rsp.ResourceManager.Node
import Rsp.Signing.RequestIdentity

/-!
# The message pipeline of the resource manager

A message read from a connection is checked for its signature, waits for the signer's identity if the key is unknown, is authorized against the policy tree, and then goes to the resource manager's own input queue or on to another node. Each of these stages is a queue with its own worker thread, so the pipeline is a machine whose labels say which thread moves next.

The machine starts inside the constructor. `ConfiguredResourceManager` derives from `ResourceManager`: the base class constructor installs an authorization queue, starts all queues and lets the transports deliver connections; only then does the derived constructor replace that queue by one with the configured tree. A plain `ResourceManager` is the same machine that never goes on to the derived constructor.
-/

namespace Rsp

open Proto

/-! ### State -/

/-- How far construction has got. -/
inductive Construction where
  | baseMembers
  | baseQueueInstalled
  | queuesStarted
  | transportsRegistered
  | configuredQueueStarted
  | configuredQueueInstalled
  | baseQueueStopping
  | constructed
deriving DecidableEq, Repr

/-- The transports deliver connections once their callbacks are registered. -/
def Construction.acceptsConnections : Construction → Bool
  | .baseMembers | .baseQueueInstalled | .queuesStarted => false
  | _ => true

/-- The two authorization queues a configured resource manager ever has. -/
inductive AuthzQueueName where
  | base
  | configured
deriving DecidableEq, Repr

inductive AuthzWorker where
  | idle
  | handling (m : RSPMessage)
  /-- Inside `handleAuthorizedMessage`. -/
  | delivering (m : RSPMessage)

structure MessageQueueAuthZ where
  authorizationTree : ERDAbstractSyntaxTree := .notSet
  running : Bool := false
  messages : List RSPMessage := []
  worker : AuthzWorker := .idle

inductive SignatureWorker (C : Crypto) where
  | idle
  | handling (m : RSPMessage)
  | verifying (m : RSPMessage) (key : KeyPair C)
  /-- Inside `handleVerifiedMessage`, before and after it has read the queue handle. -/
  | verified (m : RSPMessage)
  | enqueuing (m : RSPMessage) (queue : AuthzQueueName)

structure ResourceManager (C : Crypto) where
  construction : Construction := .baseMembers
  node : RSPNode C
  directory : Directory := {}
  incomingMessages : List RSPMessage := []
  signatureCheckQueue : List RSPMessage := []
  signatureWorker : SignatureWorker C := .idle
  identityRequests : List (RSPMessage × NodeID) := []
  requestIdentity : RequestIdentityQueue := {}
  resolvers : List Resolver := []
  authzQueues : AuthzQueueName → MessageQueueAuthZ := fun _ => {}
  /-- The handle `authzQueue_`. -/
  authzQueue : Option AuthzQueueName := none
  inputQueue : List RSPMessage := []
  outputQueue : List RSPMessage := []
  /-- The peers of the active encodings. -/
  activeEncodings : List NodeID := []
  /-- Messages passed on unchanged, with the peer they went to. -/
  forwarded : List (NodeID × RSPMessage) := []
  /-- The resource manager's own messages, handed to the signing queue of a peer. -/
  sentLocally : List (NodeID × RSPMessage) := []
  /-- The calls of `handleAuthorizedMessage`, with the schemas the message was evaluated against. -/
  authorized : List (RSPMessage × SchemaSnapshot) := []

namespace ResourceManager

variable {C : Crypto}

/-! ### Sending -/

/-- The encoding of the peer a message is addressed to. -/
def encodingFor (m : RSPMessage) (rm : ResourceManager C) : Option NodeID :=
  match m.destination with
  | none => none
  | some destination => rm.activeEncodings.find? fun peer => toProtoNodeId peer = destination

def sendLocalMessage (m : RSPMessage) (rm : ResourceManager C) : ResourceManager C :=
  match rm.encodingFor m with
  | none => rm
  | some peer => { rm with sentLocally := rm.sentLocally ++ [(peer, m)] }

/-- The destination's advertisement is withdrawn when it cannot be reached. -/
def routeAndSend (m : RSPMessage) (rm : ResourceManager C) : ResourceManager C :=
  match rm.encodingFor m with
  | some peer => { rm with forwarded := rm.forwarded ++ [(peer, m)] }
  | none =>
    match m.destination.bind nodeIdFromSourceField with
    | none => rm
    | some destination =>
      { rm with directory.resourceAdvertisements := rm.directory.resourceAdvertisements.erase destination }

def replyNonce (nonce : Bytes) (m : RSPMessage) : Uuid := m.nonce.getD ⟨nonce⟩

/-- `nonce` is the random nonce for messages that have none. -/
def sendSignatureFailure (nonce : Bytes) (m : RSPMessage) (reason : String) (rm : ResourceManager C) :
    ResourceManager C :=
  match senderNodeIdFromMessage m with
  | none => rm
  | some requester =>
    rm.sendLocalMessage
      { destination := some (toProtoNodeId requester)
        nonce := some (replyNonce nonce m)
        coreMessage := .error { errorCode := .signatureFailed, message := ascii reason } }

/-- The tree in the reply is that of the class under construction at the time. -/
def sendEndorsementNeeded (tree : ERDAbstractSyntaxTree) (nonce : Bytes) (m : RSPMessage)
    (rm : ResourceManager C) : ResourceManager C :=
  match senderNodeIdFromMessage m with
  | none => rm
  | some requester =>
    rm.sendLocalMessage
      { destination := some (toProtoNodeId requester)
        nonce := some (replyNonce nonce m)
        coreMessage := .endorsementNeeded { messageNonce := some (replyNonce nonce m), tree := some tree } }

/-! ### The signature check -/

def setAuthzQueue (name : AuthzQueueName) (queue : MessageQueueAuthZ) (rm : ResourceManager C) :
    ResourceManager C :=
  { rm with authzQueues := Function.update rm.authzQueues name queue }

/-- `verificationKeyForNodeId`: the own key, or the one the cached identity holds. -/
def verificationKeyForNodeId (signer : NodeID) (rm : ResourceManager C) : Option (KeyPair C) :=
  if signer = rm.node.nodeId then some rm.node.keyPair
  else match rm.node.identityCache.get signer with
    | none => none
    | some identity =>
      match KeyPair.fromPublicKey (identity.publicKey.getD {}) with
      | .error _ => none
      | .ok key => some key

/-- The first half of `MessageQueueCheckSignature::handleMessage`, up to the key lookup. -/
def lookUpKey (nonce : Bytes) (m : RSPMessage) (rm : ResourceManager C) : ResourceManager C :=
  let idle := { rm with signatureWorker := .idle }
  match m.signature with
  | none => idle.sendSignatureFailure nonce m "message has no signature"
  | some block =>
    match nodeIdFromSignerField (block.signer.getD {}) with
    | none => idle.sendSignatureFailure nonce m "signature signer has invalid node ID encoding"
    | some signer =>
      match rm.verificationKeyForNodeId signer with
      | none => { idle with identityRequests := rm.identityRequests ++ [(m, signer)] }
      | some key => { rm with signatureWorker := .verifying m key }

/-- The second half. A fault that is not an exception ends the process. -/
def verify (pb : Protobuf) (nonce : Bytes) (m : RSPMessage) (key : KeyPair C) (rm : ResourceManager C) :
    Option (ResourceManager C) :=
  let idle := { rm with signatureWorker := .idle }
  match verifyMessageSignature pb key m (m.signature.getD {}) with
  | .ok true => some { rm with signatureWorker := .verified m }
  | .ok false => some (idle.sendSignatureFailure nonce m "signature verification failed")
  | .error fault =>
    if fault.isException then
      some (idle.sendSignatureFailure nonce m ("signature check failed: " ++ fault.what))
    else none

/-- The second half of `handleVerifiedMessage`, after the handle has been read. -/
def enqueueVerified (m : RSPMessage) (name : AuthzQueueName) (rm : ResourceManager C) : ResourceManager C :=
  let queue := rm.authzQueues name
  { rm with signatureWorker := .idle }.setAuthzQueue name { queue with messages := queue.messages ++ [m] }

/-! ### Waiting for identities -/

def parkMessage (nonce : Bytes) (m : RSPMessage) (signer : NodeID) (rm : ResourceManager C) : ResourceManager C :=
  match rm.requestIdentity.handleMessage m signer with
  | .error reason => rm.sendSignatureFailure nonce m reason
  | .ok (requestIdentity, startResolver) =>
    { rm with
      requestIdentity
      resolvers := if startResolver then rm.resolvers ++ [.started signer] else rm.resolvers }

/-- The challenge a resolver sends when the identity is not known yet. -/
def sendChallengeRequest (nonce : Bytes) (signer : NodeID) (rm : ResourceManager C) : ResourceManager C :=
  { rm with
    outputQueue := rm.outputQueue ++
      [{ source := some (toProtoNodeId rm.node.nodeId)
         destination := some (toProtoNodeId signer)
         coreMessage := .challengeRequest { nonce := some ⟨nonce⟩ } }] }

def setResolver (index : Nat) (resolver : Option Resolver) (rm : ResourceManager C) : ResourceManager C :=
  { rm with
    resolvers := match resolver with
      | some resolver => rm.resolvers.set index resolver
      | none => rm.resolvers.eraseIdx index }

/-- One step of a resolver thread. -/
def stepResolver (index : Nat) (resolver : Resolver) (timedOut : Bool) (nonce : Bytes) (rm : ResourceManager C) :
    ResourceManager C :=
  match resolver with
  | .started signer =>
    let hasIdentity := rm.node.identityCache.contains signer
    let asked := if hasIdentity then rm else rm.sendChallengeRequest nonce signer
    asked.setResolver index (rm.requestIdentity.resolveSigner hasIdentity timedOut resolver)
  | .waiting signer =>
    rm.setResolver index
      (rm.requestIdentity.resolveSigner (rm.node.identityCache.contains signer) timedOut resolver)
  | .draining signer failure =>
    let drained := rm.requestIdentity.drainSignerMessages signer
    { rm with requestIdentity := drained.1 }.setResolver index (some (.holding drained.2 failure))
  | .holding [] _ => rm.setResolver index none
  | .holding (m :: rest) none =>
    { rm with signatureCheckQueue := rm.signatureCheckQueue ++ [m] }.setResolver index (some (.holding rest none))
  | .holding (m :: rest) (some reason) =>
    (rm.sendSignatureFailure nonce m reason).setResolver index (some (.holding rest (some reason)))

/-! ### Authorization -/

/-- `ResourceManager::authorizationTree`, which the derived class overrides. -/
def baseAuthorizationTree : ERDAbstractSyntaxTree := .trueValue

/-- `getAuthorizationEndorsements`: no endorsements are looked up yet. -/
def getAuthorizationEndorsements (_sender : NodeID) : List Rsp.Endorsement := []

/-- The tree the virtual `authorizationTree()` gives: the derived class counts once its constructor runs. -/
def authorizationTree (configured : ERDAbstractSyntaxTree) (rm : ResourceManager C) : ERDAbstractSyntaxTree :=
  match rm.construction with
  | .baseMembers | .baseQueueInstalled | .queuesStarted | .transportsRegistered => baseAuthorizationTree
  | _ => configured

/-- `MessageQueueAuthZ::handleMessage`, up to the call of `handleAuthorizedMessage`. -/
def authorize (pb : Protobuf) (configured : ERDAbstractSyntaxTree) (nonce : Bytes) (name : AuthzQueueName)
    (m : RSPMessage) (rm : ResourceManager C) : Option (ResourceManager C) :=
  let queue := rm.authzQueues name
  let failed := (rm.setAuthzQueue name { queue with worker := .idle }).sendEndorsementNeeded
    (rm.authorizationTree configured) nonce m
  match senderNodeIdFromMessage m with
  | none => some failed
  | some sender =>
    let snapshot := rm.directory.schemaRegistry.snapshot
    match reduceRequirementTree pb (getAuthorizationEndorsements sender) (some m) (some snapshot)
        queue.authorizationTree with
    | .ok .notSet =>
      some ({ rm with authorized := rm.authorized ++ [(m, snapshot)] }.setAuthzQueue name
        { queue with worker := .delivering m })
    | .ok _ => some failed
    | .error fault => if fault.isException then some failed else none

/-- `isForThisNode`. -/
def isForThisNode (m : RSPMessage) (rm : ResourceManager C) : Bool :=
  match m.destination with
  | none => true
  | some destination => destination = toProtoNodeId rm.node.nodeId

/-- `handleAuthorizedMessage`; `IncomingMessageQueue::handleMessage` does the same. -/
def handleAuthorizedMessage (now : DateTime) (m : RSPMessage) (rm : ResourceManager C) : ResourceManager C :=
  if rm.isForThisNode m then
    let enqueued := rm.node.enqueueInput now m
    { rm with
      node := enqueued.1
      outputQueue := rm.outputQueue ++ enqueued.2
      inputQueue := rm.inputQueue ++ [m] }
  else { rm with node := rm.node.observeMessage m }.routeAndSend m

/-! ### Connections and the node's own queues -/

/-- The identity that AuthN accepted, as `cacheAuthenticatedIdentity` observes it. -/
def cacheAuthenticatedIdentity (peer : NodeID) (identity : Identity) (rm : ResourceManager C) :
    ResourceManager C :=
  { rm with node := rm.node.observeMessage { source := some (toProtoNodeId peer), identities := [identity] } }

def handleInput (pb : Protobuf) (ambient : Ambient) (m : RSPMessage) (rm : ResourceManager C) :
    Option (ResourceManager C) :=
  match NodeInputQueue.handleMessage pb Directory.handleNodeSpecificMessage ambient m rm.node rm.directory with
  | .error _ => none
  | .ok (node, directory, sent) => some { rm with node, directory, outputQueue := rm.outputQueue ++ sent }

/-! ### Construction -/

/-- A queue that `rebuildAuthorizationQueue` has created and started. -/
def startedQueue (tree : ERDAbstractSyntaxTree) : MessageQueueAuthZ :=
  { authorizationTree := tree, running := true }

/-- The next statement of the constructors. Stopping a queue waits for its worker. -/
def construct (configured : ERDAbstractSyntaxTree) (rm : ResourceManager C) : Option (ResourceManager C) :=
  match rm.construction with
  | .baseMembers =>
    some ({ rm with construction := .baseQueueInstalled, authzQueue := some .base }.setAuthzQueue .base
      (startedQueue baseAuthorizationTree))
  | .baseQueueInstalled => some { rm with construction := .queuesStarted }
  | .queuesStarted => some { rm with construction := .transportsRegistered }
  | .transportsRegistered =>
    some ({ rm with construction := .configuredQueueStarted }.setAuthzQueue .configured (startedQueue configured))
  | .configuredQueueStarted =>
    some { rm with construction := .configuredQueueInstalled, authzQueue := some .configured }
  | .configuredQueueInstalled =>
    some ({ rm with construction := .baseQueueStopping }.setAuthzQueue .base
      { rm.authzQueues .base with running := false })
  | .baseQueueStopping =>
    match (rm.authzQueues .base).worker with
    | .idle => some { rm with construction := .constructed }
    | _ => none
  | .constructed => none

end ResourceManager

/-! ### The machine -/

/-- Which thread moves, with what it reads from the network, the clock and the random generators. -/
inductive PipelineLabel where
  | construct
  | cacheAuthenticatedIdentity (peer : NodeID) (identity : Identity)
  | handleAuthNSuccess (peer : NodeID)
  | handleEncodingDisconnect (encoding : Nat)
  | receive (encoding : Nat) (m : RSPMessage)
  | popIncoming (now : DateTime)
  | popSignatureCheck
  | lookUpKey (nonce : Bytes)
  | verify (nonce : Bytes)
  | readQueueHandle
  | enqueueVerified
  | popIdentityRequest (nonce : Bytes)
  | stepResolver (index : Nat) (timedOut : Bool) (nonce : Bytes)
  | popAuthz (queue : AuthzQueueName)
  | authorize (queue : AuthzQueueName) (nonce : Bytes)
  | deliver (queue : AuthzQueueName) (now : DateTime)
  | handleInput (ambient : Ambient)
  | handleOutput
  | setMaximumEntries (maximumEntries : Nat)

namespace ResourceManager

variable {C : Crypto}

def next (pb : Protobuf) (configured : ERDAbstractSyntaxTree) (rm : ResourceManager C) :
    PipelineLabel → Option (ResourceManager C)
  | .construct => rm.construct configured
  | .cacheAuthenticatedIdentity peer identity =>
    if rm.construction.acceptsConnections then some (rm.cacheAuthenticatedIdentity peer identity) else none
  | .handleAuthNSuccess peer =>
    if rm.construction.acceptsConnections then some { rm with activeEncodings := rm.activeEncodings ++ [peer] }
    else none
  | .handleEncodingDisconnect encoding =>
    if encoding < rm.activeEncodings.length then
      some { rm with activeEncodings := rm.activeEncodings.eraseIdx encoding }
    else none
  | .receive encoding m =>
    if encoding < rm.activeEncodings.length then
      some { rm with signatureCheckQueue := rm.signatureCheckQueue ++ [m] }
    else none
  | .popIncoming now =>
    match rm.incomingMessages with
    | [] => none
    | m :: rest => some ({ rm with incomingMessages := rest }.handleAuthorizedMessage now m)
  | .popSignatureCheck =>
    match rm.signatureCheckQueue, rm.signatureWorker with
    | m :: rest, .idle => some { rm with signatureCheckQueue := rest, signatureWorker := .handling m }
    | _, _ => none
  | .lookUpKey nonce =>
    match rm.signatureWorker with
    | .handling m => some (rm.lookUpKey nonce m)
    | _ => none
  | .verify nonce =>
    match rm.signatureWorker with
    | .verifying m key => rm.verify pb nonce m key
    | _ => none
  | .readQueueHandle =>
    match rm.signatureWorker, rm.authzQueue with
    | .verified m, some name => some { rm with signatureWorker := .enqueuing m name }
    | .verified _, none => some { rm with signatureWorker := .idle }
    | _, _ => none
  | .enqueueVerified =>
    match rm.signatureWorker with
    | .enqueuing m name => some (rm.enqueueVerified m name)
    | _ => none
  | .popIdentityRequest nonce =>
    match rm.identityRequests with
    | [] => none
    | (m, signer) :: rest => some ({ rm with identityRequests := rest }.parkMessage nonce m signer)
  | .stepResolver index timedOut nonce =>
    (rm.resolvers[index]?).map fun resolver => rm.stepResolver index resolver timedOut nonce
  | .popAuthz name =>
    let queue := rm.authzQueues name
    match queue.running, queue.messages, queue.worker with
    | true, m :: rest, .idle =>
      some (rm.setAuthzQueue name { queue with messages := rest, worker := .handling m })
    | _, _, _ => none
  | .authorize name nonce =>
    match (rm.authzQueues name).worker with
    | .handling m => rm.authorize pb configured nonce name m
    | _ => none
  | .deliver name now =>
    match (rm.authzQueues name).worker with
    | .delivering m =>
      some ((rm.setAuthzQueue name { rm.authzQueues name with worker := .idle }).handleAuthorizedMessage now m)
    | _ => none
  | .handleInput ambient =>
    match rm.inputQueue with
    | [] => none
    | m :: rest => { rm with inputQueue := rest }.handleInput pb ambient m
  | .handleOutput =>
    match rm.outputQueue with
    | [] => none
    | m :: rest => some ({ rm with outputQueue := rest }.sendLocalMessage m)
  | .setMaximumEntries maximumEntries =>
    some { rm with node.identityCache := rm.node.identityCache.setMaximumEntries maximumEntries }

/-- The base class members are built; nothing else has happened. -/
def initial (node : RSPNode C) : ResourceManager C := { node }

/-- The pipeline of a resource manager whose configured policy is the given tree. -/
def pipeline (pb : Protobuf) (C : Crypto) (configured : ERDAbstractSyntaxTree) :
    Machine (ResourceManager C) PipelineLabel where
  init rm := ∃ node, rm = initial node
  next := next pb configured

end ResourceManager

end Rsp
