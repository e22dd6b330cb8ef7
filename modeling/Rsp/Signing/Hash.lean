import Rsp.Endorsement.FieldResolver
import Mathlib.Data.List.Sort

/-!
# The signed byte stream

What `hashRSPMessage` of `mq_signing.cpp` feeds to SHA-256, as the list of all bytes fed. `MessageHasher::feedUint32` and `tag` are `be32`, `feedUint64` is `be64`, `feedBool` is `bool8` and `feedBytes` is `lenPrefixed`; `if (message.has_x()) { tag(n); ... }` is `optional n`. Core messages written by hand come first, the generic reflective hash serves the newer ones and service payloads. The signature field is never fed.
-/

namespace Rsp

open ByteCode Reflection Proto

/-! ### The reflective hash -/

mutual

/-- Fields in ascending order of their numbers. -/
def hashMessageReflective : Message → Bytes
  | .mk _ fields => ((hashFields fields).insertionSort fun a b => a.1 ≤ b.1).flatMap Prod.snd

def hashFields : List Field → List (Nat × Bytes)
  | [] => []
  | field :: fields => hashField field :: hashFields fields

/-- A repeated field is always fed with its count, a singular one only when it is present. -/
def hashField : Field → Nat × Bytes
  | .mk descriptor values => (descriptor.number,
      if descriptor.isRepeated then
        be32 (.ofNat descriptor.number) ++ be32 (.ofNat values.length) ++ hashValues values
      else if descriptor.hasPresence && values.isEmpty then []
      else be32 (.ofNat descriptor.number) ++ hashValues values)

def hashValues : List Value → Bytes
  | [] => []
  | value :: values => hashValue value ++ hashValues values

def hashValue : Value → Bytes
  | .message value => hashMessageReflective value
  | .string value => lenPrefixed value
  | .uint32 value => be32 value
  | .int32 value => be32 value.toUInt32
  | .uint64 value => be64 value
  | .int64 value => be64 value.toUInt64
  | .bool value => bool8 value
  | .enum number => be32 number.toUInt32
  | .float _ _ => []
  | .double _ _ => []

end

/-! ### Messages hashed by hand -/

def hashNodeId (m : NodeId) : Bytes := be32 1 ++ lenPrefixed m.value

def hashUuid (m : Uuid) : Bytes := be32 1 ++ lenPrefixed m.value

def hashDateTime (m : Proto.DateTime) : Bytes := be32 1 ++ be64 m.millisecondsSinceEpoch

def hashPublicKey (m : PublicKey) : Bytes :=
  be32 1 ++ be32 m.algorithm.number.toUInt32 ++ be32 2 ++ lenPrefixed m.publicKey

def hashEndorsement (m : Proto.Endorsement) : Bytes :=
  optional 1 hashNodeId m.subject ++ optional 2 hashNodeId m.endorsementService ++
    optional 3 hashUuid m.endorsementType ++ be32 4 ++ lenPrefixed m.endorsementValue ++
    optional 5 hashDateTime m.validUntil ++ be32 99 ++ lenPrefixed m.signature

def hashChallengeRequest (m : ChallengeRequest) : Bytes := optional 1 hashUuid m.nonce

def hashIdentity (m : Identity) : Bytes :=
  optional 1 hashUuid m.nonce ++ optional 2 hashPublicKey m.publicKey ++ optional 3 hashUuid m.bootId

def hashRouteEntry (m : RouteEntry) : Bytes :=
  optional 1 hashNodeId m.nodeId ++ be32 2 ++ be32 m.hopsAway ++ optional 3 hashDateTime m.lastSeen

def hashRouteUpdate (m : RouteUpdate) : Bytes := be32 2 ++ counted hashRouteEntry m.entries

def hashError (m : Error) : Bytes :=
  be32 1 ++ be32 m.errorCode.number.toUInt32 ++ be32 2 ++ lenPrefixed m.message

def hashPingRequest (m : PingRequest) : Bytes :=
  optional 1 hashUuid m.nonce ++ be32 2 ++ be32 m.sequence ++ optional 3 hashDateTime m.timeSent

def hashPingReply (m : PingReply) : Bytes :=
  optional 1 hashUuid m.nonce ++ be32 2 ++ be32 m.sequence ++ optional 3 hashDateTime m.timeSent ++
    optional 4 hashDateTime m.timeReplied

def hashAddress (m : Address) : Bytes := be32 1 ++ be32 m.ipv4 ++ be32 2 ++ lenPrefixed m.ipv6

def hashPortRange (m : PortRange) : Bytes := be32 1 ++ be32 m.startPort ++ be32 2 ++ be32 m.endPort

def hashResourceTcpConnect (m : ResourceTCPConnect) : Bytes :=
  optional 1 hashNodeId m.nodeId ++ be32 2 ++ counted hashAddress m.sourceAddresses

def hashResourceTcpListen (m : ResourceTCPListen) : Bytes :=
  optional 1 hashNodeId m.nodeId ++ be32 2 ++ counted hashAddress m.listenAddress ++
    optional 3 hashPortRange m.allowedRange

/-- The switch has no case for `sshd`. -/
def hashResourceRecord : ResourceRecord → Bytes
  | .tcpConnect resource => be32 1 ++ hashResourceTcpConnect resource
  | .tcpListen resource => be32 2 ++ hashResourceTcpListen resource
  | .notSet => []
  | .sshd _ => []

/-- The body of the schema loop of `hashResourceAdvertisement`; hash and version of the schema are not fed. -/
def hashSchema (m : ServiceSchema) : Bytes :=
  lenPrefixed m.protoFileName ++ lenPrefixed m.protoFileDescriptorSet ++ counted lenPrefixed m.acceptedTypeUrls

/-- The schemas are fed only when there are any. -/
def hashSchemas (schemas : List ServiceSchema) : Bytes :=
  if schemas.isEmpty then [] else be32 2 ++ counted hashSchema schemas

def hashResourceAdvertisement (m : ResourceAdvertisement) : Bytes :=
  be32 1 ++ counted hashResourceRecord m.records ++ hashSchemas m.schemas

def hashResourceQuery (m : ResourceQuery) : Bytes :=
  be32 1 ++ lenPrefixed m.query ++ be32 2 ++ be32 m.maxRecords

def hashResourceQueryReply (m : ResourceQueryReply) : Bytes :=
  be32 1 ++ counted (fun service => hashMessageReflective service.reflect) m.services

section

variable (pb : Protobuf)

def hashEndorsementNeeded (m : EndorsementNeeded) : Except Fault Bytes :=
  match m.tree with
  | none => .ok (optional 1 hashUuid m.messageNonce)
  | some tree =>
    match pb.serializeTree tree with
    | some serializedTree => .ok (optional 1 hashUuid m.messageNonce ++ be32 2 ++ lenPrefixed serializedTree)
    | none => .error (.runtimeError "failed to serialize endorsement requirement tree")

/-- The payload is fed only when its type is compiled in and it unpacks, which needs a type URL with a slash. -/
def hashServiceMessage (any : Any) : Bytes :=
  lenPrefixed any.typeUrl ++
    if pb.generated.hasMessageType (typeNameFromUrl any.typeUrl) && any.typeUrl.contains 47 then
      match pb.generated.parse (typeNameFromUrl any.typeUrl) any.value with
      | some inner => hashMessageReflective inner
      | none => []
    else []

/-! ### The envelope -/

/-- Core messages with field numbers below the nonce's. -/
def hashCoreBeforeNonce : CoreMessage → Bytes
  | .challengeRequest m => be32 3 ++ hashChallengeRequest m
  | .identity m => be32 4 ++ hashIdentity m
  | .route m => be32 5 ++ hashRouteUpdate m
  | .error m => be32 6 ++ hashError m
  | .pingRequest m => be32 7 ++ hashPingRequest m
  | .pingReply m => be32 8 ++ hashPingReply m
  | .resourceAdvertisement m => be32 16 ++ hashResourceAdvertisement m
  | .resourceQuery m => be32 17 ++ hashResourceQuery m
  | _ => []

/-- The one core message between nonce and trace. -/
def hashCoreBeforeTrace : CoreMessage → Except Fault Bytes
  | .endorsementNeeded m => do return be32 23 ++ (← hashEndorsementNeeded pb m)
  | _ => .ok []

/-- Core messages with field numbers above the trace's. -/
def hashCoreAfterTrace : CoreMessage → Bytes
  | .schemaRequest m => be32 25 ++ hashMessageReflective m.reflect
  | .schemaReply m => be32 26 ++ hashMessageReflective m.reflect
  | .resourceQueryReply m => be32 27 ++ hashResourceQueryReply m
  | .logSubscribeRequest m => be32 28 ++ hashMessageReflective m.reflect
  | .logSubscribeReply m => be32 29 ++ hashMessageReflective m.reflect
  | .logUnsubscribeRequest m => be32 30 ++ hashMessageReflective m.reflect
  | .logUnsubscribeReply m => be32 31 ++ hashMessageReflective m.reflect
  | .logRecord m => be32 32 ++ hashMessageReflective m.reflect
  | .aesKeyNegotiationRequest m => be32 33 ++ hashMessageReflective m.reflect
  | .aesKeyNegotiationReply m => be32 34 ++ hashMessageReflective m.reflect
  | .aesKeyDropNotification m => be32 35 ++ hashMessageReflective m.reflect
  | .aesKeyNegotiationError m => be32 36 ++ hashMessageReflective m.reflect
  | _ => []

/-- Everything fed after the core message fields. -/
def hashTrailer (m : RSPMessage) : Bytes :=
  be32 100 ++ counted hashEndorsement m.endorsements ++ be32 101 ++ counted hashIdentity m.identities ++
    be32 102 ++ counted (fun field => hashMessageReflective field.reflect) m.encryptedFields ++
    optional 200 (hashServiceMessage pb) m.serviceMessage

/-- Fields in ascending order of their numbers. -/
def hashRSPMessage (m : RSPMessage) : Except Fault Bytes := do
  let beforeTrace ← hashCoreBeforeTrace pb m.coreMessage
  return optional 1 hashNodeId m.destination ++ optional 2 hashNodeId m.source ++
    hashCoreBeforeNonce m.coreMessage ++ optional 22 hashUuid m.nonce ++ beforeTrace ++
    optional 24 (fun trace => bool8 trace.value) m.trace ++ hashCoreAfterTrace m.coreMessage ++ hashTrailer pb m

end

end Rsp
