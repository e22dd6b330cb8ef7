import Rsp.Node.Dispatch

/-!
# The client's own messages

`RSPClient::handleNodeSpecificMessage` and the sending side of `RSPClientMessage`. The handlers themselves only update the client's tables of pending calls and streams, which no reply depends on; what matters here is which messages they take.
-/

namespace Rsp

open Proto

namespace RSPClient

/-- `rsp::hasServiceMessage` for the message type of the given name. -/
def hasServiceMessage (name : String) (m : RSPMessage) : Bool :=
  m.serviceMessage.any fun any => any.typeUrl = ascii "type.rsp/rsp.proto." ++ ascii name

def isNameServiceReply (m : RSPMessage) : Bool :=
  hasServiceMessage "NameCreateReply" m || hasServiceMessage "NameReadReply" m ||
    hasServiceMessage "NameUpdateReply" m || hasServiceMessage "NameDeleteReply" m ||
    hasServiceMessage "NameQueryReply" m || hasServiceMessage "NameRefreshReply" m

/-- The core messages `handleNodeSpecificMessage` has a branch for. -/
def takesCoreMessage : CoreMessage → Bool
  | .pingReply _ | .resourceAdvertisement _ | .resourceQueryReply _ | .schemaReply _ | .logSubscribeReply _
  | .logRecord _ => true
  | _ => false

/-- Whether `handleNodeSpecificMessage` returns true. -/
def takesMessage (m : RSPMessage) : Bool :=
  takesCoreMessage m.coreMessage || hasServiceMessage "EndorsementDone" m || hasServiceMessage "StreamReply" m ||
    isNameServiceReply m

/-- `handleNodeSpecificMessage`: none of its handlers sends anything. -/
def handleNodeSpecificMessage (m : RSPMessage) (_ : Unit) : Option (Unit × List RSPMessage) :=
  if takesMessage m then some ((), []) else none

/-- A message without destination is for this node. -/
def shouldHandleLocally (self : NodeID) (m : RSPMessage) : Bool :=
  match m.destination with
  | none => true
  | some destination => destination = toProtoNodeId self

/-- `nonce` is the random nonce for messages that have none. -/
def prepareOutboundMessage (nonce : Bytes) (m : RSPMessage) : RSPMessage :=
  { m with nonce := some (m.nonce.getD ⟨nonce⟩) }

end RSPClient

end Rsp
