import Rsp.Proto.Ast

/-!
# Messages of `messages.proto`

One structure per protobuf message. A singular message field and an `optional` scalar have presence and are options; a plain proto3 scalar has none and defaults to zero or empty. Enumerations are open in proto3: any 32-bit number may be on the wire, so each is its number, with the declared names as constants. Unknown fields are not represented.
-/

namespace Rsp.Proto

/-! ### Enumerations -/

structure SignatureAlgorithms where
  number : Int32 := 0
deriving DecidableEq, Repr, Inhabited

def SignatureAlgorithms.p256 : SignatureAlgorithms := ⟨100⟩

structure ErrorCode where
  number : Int32 := 0
deriving DecidableEq, Repr, Inhabited

namespace ErrorCode

def unknownError : ErrorCode := ⟨0⟩
def unknownMessageType : ErrorCode := ⟨1⟩
def signatureFailed : ErrorCode := ⟨2⟩
def unimplemented : ErrorCode := ⟨3⟩

end ErrorCode

structure KeyNegotiationAlgorithm where
  number : Int32 := 0
deriving DecidableEq, Repr, Inhabited

def KeyNegotiationAlgorithm.p256Sha256Aes256 : KeyNegotiationAlgorithm := ⟨1⟩

structure KeyNegotiationError where
  number : Int32 := 0
deriving DecidableEq, Repr, Inhabited

namespace KeyNegotiationError

def invalidRequest : KeyNegotiationError := ⟨1⟩
def unsupportedAlgorithm : KeyNegotiationError := ⟨2⟩
def pairNegotiationExists : KeyNegotiationError := ⟨3⟩
def pairKeyExists : KeyNegotiationError := ⟨4⟩
def keyLimitReached : KeyNegotiationError := ⟨5⟩
def unknownKey : KeyNegotiationError := ⟨6⟩
def keyIncorrect : KeyNegotiationError := ⟨7⟩
def expired : KeyNegotiationError := ⟨8⟩

end KeyNegotiationError

structure LogSubscriptionStatus where
  number : Int32 := 0
deriving DecidableEq, Repr, Inhabited

namespace LogSubscriptionStatus

def accepted : LogSubscriptionStatus := ⟨1⟩
def removed : LogSubscriptionStatus := ⟨2⟩
def invalid : LogSubscriptionStatus := ⟨3⟩
def notFound : LogSubscriptionStatus := ⟨4⟩

end LogSubscriptionStatus

/-! ### Common parts -/

structure DateTime where
  millisecondsSinceEpoch : UInt64 := 0
deriving DecidableEq, Repr, Inhabited

structure OptionalBool where
  value : Bool := false
deriving DecidableEq, Repr, Inhabited

/-- `google.protobuf.Any`. -/
structure Any where
  typeUrl : Bytes := []
  value : Bytes := []
deriving DecidableEq, Repr, Inhabited

structure SignatureBlock where
  signer : Option NodeId := none
  algorithm : SignatureAlgorithms := {}
  signature : Bytes := []
deriving DecidableEq, Repr, Inhabited

structure PublicKey where
  algorithm : SignatureAlgorithms := {}
  publicKey : Bytes := []
deriving DecidableEq, Repr, Inhabited

structure Endorsement where
  subject : Option NodeId := none
  endorsementService : Option NodeId := none
  endorsementType : Option Uuid := none
  endorsementValue : Bytes := []
  validUntil : Option DateTime := none
  signature : Bytes := []
deriving DecidableEq, Repr, Inhabited

structure EncryptedField where
  path : Option ERDASTFieldPath := none
  iv : Bytes := []
  ciphertext : Bytes := []
  tag : Bytes := []
  algorithm : UInt32 := 0
deriving DecidableEq, Repr, Inhabited

/-! ### Core messages -/

structure ChallengeRequest where
  nonce : Option Uuid := none
deriving DecidableEq, Repr, Inhabited

structure Identity where
  nonce : Option Uuid := none
  publicKey : Option PublicKey := none
  bootId : Option Uuid := none
deriving DecidableEq, Repr, Inhabited

structure RouteEntry where
  nodeId : Option NodeId := none
  hopsAway : UInt32 := 0
  lastSeen : Option DateTime := none
deriving DecidableEq, Repr, Inhabited

structure RouteUpdate where
  entries : List RouteEntry := []
deriving DecidableEq, Repr, Inhabited

structure Error where
  errorCode : ErrorCode := {}
  message : Bytes := []
deriving DecidableEq, Repr, Inhabited

structure PingRequest where
  nonce : Option Uuid := none
  sequence : UInt32 := 0
  timeSent : Option DateTime := none
deriving DecidableEq, Repr, Inhabited

structure PingReply where
  nonce : Option Uuid := none
  sequence : UInt32 := 0
  timeSent : Option DateTime := none
  timeReplied : Option DateTime := none
deriving DecidableEq, Repr, Inhabited

structure Address where
  ipv4 : UInt32 := 0
  ipv6 : Bytes := []
deriving DecidableEq, Repr, Inhabited

structure PortRange where
  startPort : UInt32 := 0
  endPort : UInt32 := 0
deriving DecidableEq, Repr, Inhabited

structure ResourceTCPConnect where
  nodeId : Option NodeId := none
  sourceAddresses : List Address := []
deriving DecidableEq, Repr, Inhabited

structure ResourceTCPListen where
  nodeId : Option NodeId := none
  listenAddress : List Address := []
  allowedRange : Option PortRange := none
deriving DecidableEq, Repr, Inhabited

structure ResourceSSHD where
  nodeId : Option NodeId := none
  serverName : Option Bytes := none
deriving DecidableEq, Repr, Inhabited

inductive ResourceRecord where
  | notSet
  | tcpConnect (resource : ResourceTCPConnect)
  | tcpListen (resource : ResourceTCPListen)
  | sshd (resource : ResourceSSHD)
deriving DecidableEq, Repr, Inhabited

structure ServiceSchema where
  protoFileName : Bytes := []
  protoFileDescriptorSet : Bytes := []
  acceptedTypeUrls : List Bytes := []
  schemaHash : Bytes := []
  schemaVersion : UInt32 := 0
deriving DecidableEq, Repr, Inhabited

structure SchemaRequest where
  protoFileName : Option Bytes := none
  schemaHash : Option Bytes := none
deriving DecidableEq, Repr, Inhabited

structure SchemaReply where
  schemas : List ServiceSchema := []
deriving DecidableEq, Repr, Inhabited

structure ResourceAdvertisement where
  records : List ResourceRecord := []
  schemas : List ServiceSchema := []
deriving DecidableEq, Repr, Inhabited

structure ResourceQuery where
  query : Bytes := []
  maxRecords : UInt32 := 0
deriving DecidableEq, Repr, Inhabited

structure DiscoveredService where
  nodeId : Option NodeId := none
  schema : Option ServiceSchema := none
deriving DecidableEq, Repr, Inhabited

structure ResourceQueryReply where
  services : List DiscoveredService := []
deriving DecidableEq, Repr, Inhabited

structure AesKeyNegotiationRequest where
  keyId : Option Uuid := none
  ephemeralPublicKey : Option PublicKey := none
  requestedLifetimeMs : UInt64 := 0
  algorithm : KeyNegotiationAlgorithm := {}
deriving DecidableEq, Repr, Inhabited

structure AesKeyNegotiationReply where
  keyId : Option Uuid := none
  ephemeralPublicKey : Option PublicKey := none
  acceptedLifetimeMs : UInt64 := 0
  algorithm : KeyNegotiationAlgorithm := {}
deriving DecidableEq, Repr, Inhabited

structure AesKeyDropNotification where
  keyId : Option Uuid := none
  reason : Bytes := []
deriving DecidableEq, Repr, Inhabited

structure AesKeyNegotiationError where
  errorCode : KeyNegotiationError := {}
  keyId : Option Uuid := none
  message : Bytes := []
deriving DecidableEq, Repr, Inhabited

structure LogSubscribeRequest where
  payloadTypeUrl : Bytes := []
  filter : Option LogASTMessageTree := none
  durationMs : UInt64 := 0
deriving Repr, Inhabited

structure LogSubscribeReply where
  status : LogSubscriptionStatus := {}
  subscriptionId : Option Uuid := none
  expiresAt : Option DateTime := none
  message : Bytes := []
deriving DecidableEq, Repr, Inhabited

structure LogUnsubscribeRequest where
  subscriptionId : Option Uuid := none
deriving DecidableEq, Repr, Inhabited

structure LogUnsubscribeReply where
  status : LogSubscriptionStatus := {}
  subscriptionId : Option Uuid := none
  message : Bytes := []
deriving DecidableEq, Repr, Inhabited

structure LogRecord where
  subscriptionId : Option Uuid := none
  producerNodeId : Option NodeId := none
  timeCreated : Option DateTime := none
  payload : Option Any := none
deriving DecidableEq, Repr, Inhabited

/-- Sent when a node needs an endorsement to process a message. -/
structure EndorsementNeeded where
  messageNonce : Option Uuid := none
  tree : Option ERDAbstractSyntaxTree := none
deriving Repr, Inhabited

/-! ### The envelope -/

/-- The `core_message` oneof of `RSPMessage`. -/
inductive CoreMessage where
  | notSet
  | challengeRequest (message : ChallengeRequest)
  | identity (message : Identity)
  | route (message : RouteUpdate)
  | error (message : Error)
  | pingRequest (message : PingRequest)
  | pingReply (message : PingReply)
  | resourceAdvertisement (message : ResourceAdvertisement)
  | resourceQuery (message : ResourceQuery)
  | endorsementNeeded (message : EndorsementNeeded)
  | schemaRequest (message : SchemaRequest)
  | schemaReply (message : SchemaReply)
  | resourceQueryReply (message : ResourceQueryReply)
  | logSubscribeRequest (message : LogSubscribeRequest)
  | logSubscribeReply (message : LogSubscribeReply)
  | logUnsubscribeRequest (message : LogUnsubscribeRequest)
  | logUnsubscribeReply (message : LogUnsubscribeReply)
  | logRecord (message : LogRecord)
  | aesKeyNegotiationRequest (message : AesKeyNegotiationRequest)
  | aesKeyNegotiationReply (message : AesKeyNegotiationReply)
  | aesKeyDropNotification (message : AesKeyDropNotification)
  | aesKeyNegotiationError (message : AesKeyNegotiationError)
deriving Repr, Inhabited

structure RSPMessage where
  destination : Option NodeId := none
  source : Option NodeId := none
  trace : Option OptionalBool := none
  coreMessage : CoreMessage := .notSet
  serviceMessage : Option Any := none
  nonce : Option Uuid := none
  signature : Option SignatureBlock := none
  endorsements : List Endorsement := []
  identities : List Identity := []
  encryptedFields : List EncryptedField := []
deriving Repr, Inhabited

end Rsp.Proto
