import Rsp.Client.Node
import Rsp.Lib.Machine
import Rsp.ResourceManager.Node

/-!
# A resource manager and a client talking

A resource manager and one client connected to it, with the messages on the way between them. Each step takes one of these messages one stage further: across the connection, where the resource manager forwards what is addressed to the client, or through the input queue of its receiver, which sends what the node answers. A sent message is signed by its sender, whose key the resource manager knows, and the resource manager has the policy of the base class, so whatever arrives there is authorized.
-/

namespace Rsp

open Proto

/-- Where a message is: on the connection to a node, or in its input queue. -/
inductive Place where
  | toManager
  | managerInput
  | toClient
  | clientInput
deriving DecidableEq, Repr

structure Dialogue (C : Crypto) where
  manager : RSPNode C
  directory : Directory := {}
  client : RSPNode C
  inFlight : List (Place × RSPMessage) := []

/-- Which message goes on, and what its step reads from the clocks and random generators: in `enqueueInput`, in the handlers, and for each message sent. -/
structure Delivery where
  index : Nat := 0
  enqueueNow : DateTime := 0
  ambient : Ambient := {}
  signSeed : RSPMessage → Nat := fun _ => 0
  nonce : RSPMessage → Bytes := fun _ => []

namespace Dialogue

variable {C : Crypto} (pb : Protobuf)

/-- `MessageQueueSign`: a message that cannot be signed is dropped. -/
def sign (node : RSPNode C) (seed : Nat) (m : RSPMessage) : Option RSPMessage :=
  match signMessage pb node.keyPair seed m with
  | .error _ => none
  | .ok signature => some { m with signature := some signature }

/-- `ResourceManager::sendLocalMessage`: the client is the only node with an encoding. -/
def managerSends (delivery : Delivery) (dialogue : Dialogue C) (m : RSPMessage) : Option (Place × RSPMessage) :=
  if m.destination = some (toProtoNodeId dialogue.client.nodeId) then
    (sign pb dialogue.manager (delivery.signSeed m) m).map (Place.toClient, ·)
  else none

/-- `RSPClientMessage::send`: everything goes to the resource manager. -/
def clientSends (delivery : Delivery) (dialogue : Dialogue C) (m : RSPMessage) : Option (Place × RSPMessage) :=
  (sign pb dialogue.client (delivery.signSeed m) (RSPClient.prepareOutboundMessage (delivery.nonce m) m)).map
    (Place.toManager, ·)

/-- `ResourceManager::handleAuthorizedMessage`. A message for a node that is not connected is dropped, and what that node advertised withdrawn. -/
def arriveAtManager (delivery : Delivery) (m : RSPMessage) (dialogue : Dialogue C) : Dialogue C :=
  if m.destination.all (· = toProtoNodeId dialogue.manager.nodeId) then
    let enqueued := dialogue.manager.enqueueInput delivery.enqueueNow m
    { dialogue with
      manager := enqueued.1
      inFlight := dialogue.inFlight ++ enqueued.2.filterMap (managerSends pb delivery dialogue) ++
        [(.managerInput, m)] }
  else
    let observed := { dialogue with manager := dialogue.manager.observeMessage m }
    if m.destination = some (toProtoNodeId dialogue.client.nodeId) then
      { observed with inFlight := dialogue.inFlight ++ [(.toClient, m)] }
    else
      match m.destination.bind nodeIdFromSourceField with
      | none => observed
      | some destination =>
        { observed with
          directory.resourceAdvertisements := dialogue.directory.resourceAdvertisements.erase destination }

/-- `RSPClient::dispatchIncomingMessage`. -/
def arriveAtClient (delivery : Delivery) (m : RSPMessage) (dialogue : Dialogue C) : Dialogue C :=
  if RSPClient.shouldHandleLocally dialogue.client.nodeId m then
    let enqueued := dialogue.client.enqueueInput delivery.enqueueNow m
    { dialogue with
      client := enqueued.1
      inFlight := dialogue.inFlight ++ enqueued.2.filterMap (clientSends pb delivery dialogue) ++
        [(.clientInput, m)] }
  else dialogue

def handleAtManager (delivery : Delivery) (m : RSPMessage) (dialogue : Dialogue C) : Except Fault (Dialogue C) := do
  let (manager, directory, sent) ←
    NodeInputQueue.handleMessage pb Directory.handleNodeSpecificMessage delivery.ambient m dialogue.manager
      dialogue.directory
  return { dialogue with
    manager
    directory
    inFlight := dialogue.inFlight ++ sent.filterMap (managerSends pb delivery dialogue) }

def handleAtClient (delivery : Delivery) (m : RSPMessage) (dialogue : Dialogue C) : Except Fault (Dialogue C) := do
  let (client, _, sent) ←
    NodeInputQueue.handleMessage pb RSPClient.handleNodeSpecificMessage delivery.ambient m dialogue.client ()
  return { dialogue with
    client
    inFlight := dialogue.inFlight ++ sent.filterMap (clientSends pb delivery dialogue) }

/-- The step of a message at the given place; the message is already taken out. -/
def advance (delivery : Delivery) (m : RSPMessage) (dialogue : Dialogue C) : Place → Except Fault (Dialogue C)
  | .toManager => .ok (dialogue.arriveAtManager pb delivery m)
  | .managerInput => dialogue.handleAtManager pb delivery m
  | .toClient => .ok (dialogue.arriveAtClient pb delivery m)
  | .clientInput => dialogue.handleAtClient pb delivery m

/-- A fault ends the node, and with it the dialogue. -/
def next (dialogue : Dialogue C) (delivery : Delivery) : Option (Dialogue C) :=
  match dialogue.inFlight[delivery.index]? with
  | none => none
  | some (place, m) =>
    (advance pb delivery m { dialogue with inFlight := dialogue.inFlight.eraseIdx delivery.index } place).toOption

/-- The two nodes on their own, after one message was put into an input queue. -/
def machine (C : Crypto) : Machine (Dialogue C) Delivery where
  init dialogue := ∃ m, dialogue.inFlight = [(.managerInput, m)] ∨ dialogue.inFlight = [(.clientInput, m)]
  next := next pb

/-- The message at a position is taken some time later: positions count the messages before it. -/
inductive EventuallyTaken (deliveries : Nat → Delivery) : Nat → Nat → Prop
  | now {i position : Nat} (h : (deliveries i).index = position) : EventuallyTaken deliveries i position
  | movesUp {i position : Nat} (h : (deliveries i).index ≤ position)
      (later : EventuallyTaken deliveries (i + 1) position) : EventuallyTaken deliveries i (position + 1)
  | stays {i position : Nat} (h : position < (deliveries i).index)
      (later : EventuallyTaken deliveries (i + 1) position) : EventuallyTaken deliveries i position

/-- Every message of the run goes on, over and over. -/
def EveryMessageDelivered (states : Nat → Dialogue C) (deliveries : Nat → Delivery) : Prop :=
  ∀ i position, position < (states i).inFlight.length → EventuallyTaken deliveries i position

end Dialogue

end Rsp
