import Rsp.Proto.Messages
import Rsp.Lib.Reflection

/-!
# The generated descriptors

How each message of `messages.proto` looks through reflection: its full name and its fields in declaration order, with names, numbers and presence. Field paths in policies and log filters are resolved against this view.
-/

namespace Rsp.Proto

open Reflection

/-- The full name of a message of this package. -/
def typeName (name : String) : Bytes := ascii ("rsp.proto." ++ name)

def anyTypeName : Bytes := ascii "google.protobuf.Any"

/-- The message members of a `oneof` (name, number, type), of which at most one is set. -/
def oneofFields (members : List (String × Nat × String)) (set : Option (Nat × Message)) : List Field :=
  members.map fun (name, number, type) =>
    messageField (ascii name) number (typeName type)
      (set.bind fun (chosen, value) => if chosen = number then some value else none)

/-! ### Identifiers and common parts -/

def valueMessage (type : String) (value : Bytes) : Message :=
  .mk (typeName type) [stringField (ascii "value") 1 value]

def Uuid.reflect (m : Uuid) : Message := valueMessage "Uuid" m.value

def NodeId.reflect (m : NodeId) : Message := valueMessage "NodeId" m.value

def EndorsementType.reflect (m : EndorsementType) : Message := valueMessage "EndorsementType" m.value

def DateTime.reflect (m : DateTime) : Message :=
  .mk (typeName "DateTime") [uint64Field (ascii "milliseconds_since_epoch") 1 m.millisecondsSinceEpoch]

def OptionalBool.reflect (m : OptionalBool) : Message :=
  .mk (typeName "OptionalBool") [boolField (ascii "value") 1 m.value]

def Any.reflect (m : Any) : Message :=
  .mk anyTypeName [stringField (ascii "type_url") 1 m.typeUrl, stringField (ascii "value") 2 m.value]

def uuidField (name : String) (number : Nat) (m : Option Uuid) : Field :=
  messageField (ascii name) number (typeName "Uuid") (m.map Uuid.reflect)

def nodeIdField (name : String) (number : Nat) (m : Option NodeId) : Field :=
  messageField (ascii name) number (typeName "NodeId") (m.map NodeId.reflect)

def dateTimeField (name : String) (number : Nat) (m : Option DateTime) : Field :=
  messageField (ascii name) number (typeName "DateTime") (m.map DateTime.reflect)

def SignatureBlock.reflect (m : SignatureBlock) : Message :=
  .mk (typeName "SignatureBlock")
    [nodeIdField "signer" 1 m.signer, enumField (ascii "algorithm") 2 m.algorithm.number,
      stringField (ascii "signature") 3 m.signature]

def PublicKey.reflect (m : PublicKey) : Message :=
  .mk (typeName "PublicKey")
    [enumField (ascii "algorithm") 1 m.algorithm.number, stringField (ascii "public_key") 2 m.publicKey]

def publicKeyField (name : String) (number : Nat) (m : Option PublicKey) : Field :=
  messageField (ascii name) number (typeName "PublicKey") (m.map PublicKey.reflect)

def Endorsement.reflect (m : Endorsement) : Message :=
  .mk (typeName "Endorsement")
    [nodeIdField "subject" 1 m.subject, nodeIdField "endorsement_service" 2 m.endorsementService,
      uuidField "endorsement_type" 3 m.endorsementType, stringField (ascii "endorsement_value") 4 m.endorsementValue,
      dateTimeField "valid_until" 5 m.validUntil, stringField (ascii "signature") 99 m.signature]

/-! ### Syntax trees -/

def ERDASTFieldPath.reflect (m : ERDASTFieldPath) : Message :=
  .mk (typeName "ERDASTFieldPath") [repeatedStringField (ascii "segments") 1 m.segments]

def fieldPathField (name : String) (number : Nat) (m : Option ERDASTFieldPath) : Field :=
  messageField (ascii name) number (typeName "ERDASTFieldPath") (m.map ERDASTFieldPath.reflect)

/-- The literals of a field comparison, a `oneof` of scalars. -/
def literalFields (bytesValue stringValue intValue uintValue boolValue enumValue : Option Value) : List Field :=
  [optionalField (ascii "bytes_value") 1 .string bytesValue, optionalField (ascii "string_value") 2 .string stringValue,
    optionalField (ascii "int_value") 3 .int64 intValue, optionalField (ascii "uint_value") 4 .uint64 uintValue,
    optionalField (ascii "bool_value") 5 .bool boolValue, optionalField (ascii "enum_value") 6 .int32 enumValue]

def ERDASTFieldValue.reflect (m : ERDASTFieldValue) : Message :=
  .mk (typeName "ERDASTFieldValue") <| match m with
    | .notSet => literalFields none none none none none none
    | .bytesValue value => literalFields (some (.string value)) none none none none none
    | .stringValue value => literalFields none (some (.string value)) none none none none
    | .intValue value => literalFields none none (some (.int64 value)) none none none
    | .uintValue value => literalFields none none none (some (.uint64 value)) none none
    | .boolValue value => literalFields none none none none (some (.bool value)) none
    | .enumValue value => literalFields none none none none none (some (.int32 value))

def LogASTFieldPath.reflect (m : LogASTFieldPath) : Message :=
  .mk (typeName "LogASTFieldPath") [repeatedStringField (ascii "segments") 1 m.segments]

def LogASTFieldValue.reflect (m : LogASTFieldValue) : Message :=
  .mk (typeName "LogASTFieldValue") <| match m with
    | .notSet => literalFields none none none none none none
    | .bytesValue value => literalFields (some (.string value)) none none none none none
    | .stringValue value => literalFields none (some (.string value)) none none none none
    | .intValue value => literalFields none none (some (.int64 value)) none none none
    | .uintValue value => literalFields none none none (some (.uint64 value)) none none
    | .boolValue value => literalFields none none none none (some (.bool value)) none
    | .enumValue value => literalFields none none none none none (some (.int32 value))

def binaryNode (node tree : String) (lhs rhs : Option Message) : Message :=
  .mk (typeName node)
    [messageField (ascii "lhs") 1 (typeName tree) lhs, messageField (ascii "rhs") 2 (typeName tree) rhs]

def naryNode (node tree : String) (terms : List Message) : Message :=
  .mk (typeName node) [repeatedMessageField (ascii "terms") 1 (typeName tree) terms]

def trueNode : Message := .mk (typeName "ERDASTTrue") []

def falseNode : Message := .mk (typeName "ERDASTFalse") []

/-- The node kinds that all four tree types share; `node` is the type's own infix. -/
def connectiveMembers (node : String) : List (String × Nat × String) :=
  [("equals", 1, node ++ "Equals"), ("and", 2, node ++ "And"), ("or", 3, node ++ "Or"),
    ("true_value", 9, "ERDASTTrue"), ("false_value", 10, "ERDASTFalse"),
    ("all_of", 11, node ++ "AllOf"), ("any_of", 12, node ++ "AnyOf")]

def endTreeMessage (set : Option (Nat × Message)) : Message :=
  .mk (typeName "ERDASTEndTree") (oneofFields (connectiveMembers "ERDASTEnd" ++
    [("type_equals", 100, "ERDASTEndTypeEquals"), ("value_equals", 101, "ERDASTEndValueEquals"),
      ("signer_equals", 102, "ERDASTEndSignerEquals")]) set)

mutual

def ERDASTEndTree.reflect : ERDASTEndTree → Message
  | .notSet => endTreeMessage none
  | .equals lhs rhs => endTreeMessage (some (1, binaryNode "ERDASTEndEquals" "ERDASTEndTree"
      (ERDASTEndTree.reflectOption lhs) (ERDASTEndTree.reflectOption rhs)))
  | .and lhs rhs => endTreeMessage (some (2, binaryNode "ERDASTEndAnd" "ERDASTEndTree"
      (ERDASTEndTree.reflectOption lhs) (ERDASTEndTree.reflectOption rhs)))
  | .or lhs rhs => endTreeMessage (some (3, binaryNode "ERDASTEndOr" "ERDASTEndTree"
      (ERDASTEndTree.reflectOption lhs) (ERDASTEndTree.reflectOption rhs)))
  | .trueValue => endTreeMessage (some (9, trueNode))
  | .falseValue => endTreeMessage (some (10, falseNode))
  | .allOf terms => endTreeMessage (some (11, naryNode "ERDASTEndAllOf" "ERDASTEndTree"
      (ERDASTEndTree.reflectList terms)))
  | .anyOf terms => endTreeMessage (some (12, naryNode "ERDASTEndAnyOf" "ERDASTEndTree"
      (ERDASTEndTree.reflectList terms)))
  | .typeEquals type => endTreeMessage (some (100, .mk (typeName "ERDASTEndTypeEquals")
      [messageField (ascii "type") 1 (typeName "EndorsementType") (type.map EndorsementType.reflect)]))
  | .valueEquals value => endTreeMessage (some (101, valueMessage "ERDASTEndValueEquals" value))
  | .signerEquals signer => endTreeMessage (some (102, .mk (typeName "ERDASTEndSignerEquals")
      [nodeIdField "signer" 1 signer]))

def ERDASTEndTree.reflectOption : Option ERDASTEndTree → Option Message
  | none => none
  | some tree => some (ERDASTEndTree.reflect tree)

def ERDASTEndTree.reflectList : List ERDASTEndTree → List Message
  | [] => []
  | tree :: terms => ERDASTEndTree.reflect tree :: ERDASTEndTree.reflectList terms

end

def messageTreeMessage (set : Option (Nat × Message)) : Message :=
  .mk (typeName "ERDASTMessageTree") (oneofFields (connectiveMembers "ERDASTMes" ++
    [("field_equals", 200, "ERDASTFieldEquals"), ("field_exists", 201, "ERDASTFieldExists"),
      ("field_contains", 202, "ERDASTFieldContains")]) set)

mutual

def ERDASTMessageTree.reflect : ERDASTMessageTree → Message
  | .notSet => messageTreeMessage none
  | .equals lhs rhs => messageTreeMessage (some (1, binaryNode "ERDASTMesEquals" "ERDASTMessageTree"
      (ERDASTMessageTree.reflectOption lhs) (ERDASTMessageTree.reflectOption rhs)))
  | .and lhs rhs => messageTreeMessage (some (2, binaryNode "ERDASTMesAnd" "ERDASTMessageTree"
      (ERDASTMessageTree.reflectOption lhs) (ERDASTMessageTree.reflectOption rhs)))
  | .or lhs rhs => messageTreeMessage (some (3, binaryNode "ERDASTMesOr" "ERDASTMessageTree"
      (ERDASTMessageTree.reflectOption lhs) (ERDASTMessageTree.reflectOption rhs)))
  | .trueValue => messageTreeMessage (some (9, trueNode))
  | .falseValue => messageTreeMessage (some (10, falseNode))
  | .allOf terms => messageTreeMessage (some (11, naryNode "ERDASTMesAllOf" "ERDASTMessageTree"
      (ERDASTMessageTree.reflectList terms)))
  | .anyOf terms => messageTreeMessage (some (12, naryNode "ERDASTMesAnyOf" "ERDASTMessageTree"
      (ERDASTMessageTree.reflectList terms)))
  | .fieldEquals path value => messageTreeMessage (some (200, .mk (typeName "ERDASTFieldEquals")
      [fieldPathField "path" 1 path,
        messageField (ascii "value") 2 (typeName "ERDASTFieldValue") (value.map ERDASTFieldValue.reflect)]))
  | .fieldExists path => messageTreeMessage (some (201, .mk (typeName "ERDASTFieldExists")
      [fieldPathField "path" 1 path]))
  | .fieldContains path subPath value => messageTreeMessage (some (202, .mk (typeName "ERDASTFieldContains")
      [fieldPathField "path" 1 path, fieldPathField "sub_path" 2 subPath,
        messageField (ascii "value") 3 (typeName "ERDASTFieldValue") (value.map ERDASTFieldValue.reflect)]))

def ERDASTMessageTree.reflectOption : Option ERDASTMessageTree → Option Message
  | none => none
  | some tree => some (ERDASTMessageTree.reflect tree)

def ERDASTMessageTree.reflectList : List ERDASTMessageTree → List Message
  | [] => []
  | tree :: terms => ERDASTMessageTree.reflect tree :: ERDASTMessageTree.reflectList terms

end

def requirementTreeMessage (set : Option (Nat × Message)) : Message :=
  .mk (typeName "ERDAbstractSyntaxTree") (oneofFields (connectiveMembers "ERDAST" ++
    [("endorsement", 100, "ERDASTEndorsement"), ("message", 101, "ERDASTMessage")]) set)

mutual

def ERDAbstractSyntaxTree.reflect : ERDAbstractSyntaxTree → Message
  | .notSet => requirementTreeMessage none
  | .equals lhs rhs => requirementTreeMessage (some (1, binaryNode "ERDASTEquals" "ERDAbstractSyntaxTree"
      (ERDAbstractSyntaxTree.reflectOption lhs) (ERDAbstractSyntaxTree.reflectOption rhs)))
  | .and lhs rhs => requirementTreeMessage (some (2, binaryNode "ERDASTAnd" "ERDAbstractSyntaxTree"
      (ERDAbstractSyntaxTree.reflectOption lhs) (ERDAbstractSyntaxTree.reflectOption rhs)))
  | .or lhs rhs => requirementTreeMessage (some (3, binaryNode "ERDASTOr" "ERDAbstractSyntaxTree"
      (ERDAbstractSyntaxTree.reflectOption lhs) (ERDAbstractSyntaxTree.reflectOption rhs)))
  | .trueValue => requirementTreeMessage (some (9, trueNode))
  | .falseValue => requirementTreeMessage (some (10, falseNode))
  | .allOf terms => requirementTreeMessage (some (11, naryNode "ERDASTAllOf" "ERDAbstractSyntaxTree"
      (ERDAbstractSyntaxTree.reflectList terms)))
  | .anyOf terms => requirementTreeMessage (some (12, naryNode "ERDASTAnyOf" "ERDAbstractSyntaxTree"
      (ERDAbstractSyntaxTree.reflectList terms)))
  | .endorsement tree => requirementTreeMessage (some (100, .mk (typeName "ERDASTEndorsement")
      [messageField (ascii "tree") 1 (typeName "ERDASTEndTree") (tree.map ERDASTEndTree.reflect)]))
  | .message tree => requirementTreeMessage (some (101, .mk (typeName "ERDASTMessage")
      [messageField (ascii "tree") 1 (typeName "ERDASTMessageTree") (tree.map ERDASTMessageTree.reflect)]))

def ERDAbstractSyntaxTree.reflectOption : Option ERDAbstractSyntaxTree → Option Message
  | none => none
  | some tree => some (ERDAbstractSyntaxTree.reflect tree)

def ERDAbstractSyntaxTree.reflectList : List ERDAbstractSyntaxTree → List Message
  | [] => []
  | tree :: terms => ERDAbstractSyntaxTree.reflect tree :: ERDAbstractSyntaxTree.reflectList terms

end

def logTreeMessage (set : Option (Nat × Message)) : Message :=
  .mk (typeName "LogASTMessageTree") (oneofFields (connectiveMembers "LogASTMes" ++
    [("field_equals", 200, "LogASTFieldEquals"), ("field_exists", 201, "LogASTFieldExists"),
      ("field_contains", 202, "LogASTFieldContains")]) set)

def logPathField (name : String) (number : Nat) (m : Option LogASTFieldPath) : Field :=
  messageField (ascii name) number (typeName "LogASTFieldPath") (m.map LogASTFieldPath.reflect)

mutual

def LogASTMessageTree.reflect : LogASTMessageTree → Message
  | .notSet => logTreeMessage none
  | .equals lhs rhs => logTreeMessage (some (1, binaryNode "LogASTMesEquals" "LogASTMessageTree"
      (LogASTMessageTree.reflectOption lhs) (LogASTMessageTree.reflectOption rhs)))
  | .and lhs rhs => logTreeMessage (some (2, binaryNode "LogASTMesAnd" "LogASTMessageTree"
      (LogASTMessageTree.reflectOption lhs) (LogASTMessageTree.reflectOption rhs)))
  | .or lhs rhs => logTreeMessage (some (3, binaryNode "LogASTMesOr" "LogASTMessageTree"
      (LogASTMessageTree.reflectOption lhs) (LogASTMessageTree.reflectOption rhs)))
  | .trueValue => logTreeMessage (some (9, trueNode))
  | .falseValue => logTreeMessage (some (10, falseNode))
  | .allOf terms => logTreeMessage (some (11, naryNode "LogASTMesAllOf" "LogASTMessageTree"
      (LogASTMessageTree.reflectList terms)))
  | .anyOf terms => logTreeMessage (some (12, naryNode "LogASTMesAnyOf" "LogASTMessageTree"
      (LogASTMessageTree.reflectList terms)))
  | .fieldEquals path value => logTreeMessage (some (200, .mk (typeName "LogASTFieldEquals")
      [logPathField "path" 1 path,
        messageField (ascii "value") 2 (typeName "LogASTFieldValue") (value.map LogASTFieldValue.reflect)]))
  | .fieldExists path => logTreeMessage (some (201, .mk (typeName "LogASTFieldExists") [logPathField "path" 1 path]))
  | .fieldContains path subPath value => logTreeMessage (some (202, .mk (typeName "LogASTFieldContains")
      [logPathField "path" 1 path, logPathField "sub_path" 2 subPath,
        messageField (ascii "value") 3 (typeName "LogASTFieldValue") (value.map LogASTFieldValue.reflect)]))

def LogASTMessageTree.reflectOption : Option LogASTMessageTree → Option Message
  | none => none
  | some tree => some (LogASTMessageTree.reflect tree)

def LogASTMessageTree.reflectList : List LogASTMessageTree → List Message
  | [] => []
  | tree :: terms => LogASTMessageTree.reflect tree :: LogASTMessageTree.reflectList terms

end

/-! ### Messages -/

def EncryptedField.reflect (m : EncryptedField) : Message :=
  .mk (typeName "EncryptedField")
    [fieldPathField "path" 1 m.path, stringField (ascii "iv") 2 m.iv, stringField (ascii "ciphertext") 3 m.ciphertext,
      stringField (ascii "tag") 4 m.tag, uint32Field (ascii "algorithm") 5 m.algorithm]

def ChallengeRequest.reflect (m : ChallengeRequest) : Message :=
  .mk (typeName "ChallengeRequest") [uuidField "nonce" 1 m.nonce]

def Identity.reflect (m : Identity) : Message :=
  .mk (typeName "Identity")
    [uuidField "nonce" 1 m.nonce, publicKeyField "public_key" 2 m.publicKey, uuidField "boot_id" 3 m.bootId]

def RouteEntry.reflect (m : RouteEntry) : Message :=
  .mk (typeName "RouteEntry")
    [nodeIdField "node_id" 1 m.nodeId, uint32Field (ascii "hops_away") 2 m.hopsAway,
      dateTimeField "last_seen" 3 m.lastSeen]

def RouteUpdate.reflect (m : RouteUpdate) : Message :=
  .mk (typeName "RouteUpdate")
    [repeatedMessageField (ascii "entries") 2 (typeName "RouteEntry") (m.entries.map RouteEntry.reflect)]

def Error.reflect (m : Error) : Message :=
  .mk (typeName "Error")
    [enumField (ascii "error_code") 1 m.errorCode.number, stringField (ascii "message") 2 m.message]

def PingRequest.reflect (m : PingRequest) : Message :=
  .mk (typeName "PingRequest")
    [uuidField "nonce" 1 m.nonce, uint32Field (ascii "sequence") 2 m.sequence, dateTimeField "time_sent" 3 m.timeSent]

def PingReply.reflect (m : PingReply) : Message :=
  .mk (typeName "PingReply")
    [uuidField "nonce" 1 m.nonce, uint32Field (ascii "sequence") 2 m.sequence, dateTimeField "time_sent" 3 m.timeSent,
      dateTimeField "time_replied" 4 m.timeReplied]

def Address.reflect (m : Address) : Message :=
  .mk (typeName "Address") [uint32Field (ascii "ipv4") 1 m.ipv4, stringField (ascii "ipv6") 2 m.ipv6]

def addressesField (name : String) (number : Nat) (values : List Address) : Field :=
  repeatedMessageField (ascii name) number (typeName "Address") (values.map Address.reflect)

def PortRange.reflect (m : PortRange) : Message :=
  .mk (typeName "PortRange") [uint32Field (ascii "start_port") 1 m.startPort, uint32Field (ascii "end_port") 2 m.endPort]

def ResourceTCPConnect.reflect (m : ResourceTCPConnect) : Message :=
  .mk (typeName "ResourceTCPConnect")
    [nodeIdField "node_id" 1 m.nodeId, addressesField "source_addresses" 2 m.sourceAddresses]

def ResourceTCPListen.reflect (m : ResourceTCPListen) : Message :=
  .mk (typeName "ResourceTCPListen")
    [nodeIdField "node_id" 1 m.nodeId, addressesField "listen_address" 2 m.listenAddress,
      messageField (ascii "allowed_range") 3 (typeName "PortRange") (m.allowedRange.map PortRange.reflect)]

def ResourceSSHD.reflect (m : ResourceSSHD) : Message :=
  .mk (typeName "ResourceSSHD")
    [nodeIdField "node_id" 1 m.nodeId, optionalField (ascii "server_name") 2 .string (m.serverName.map Value.string)]

def ResourceRecord.reflect (m : ResourceRecord) : Message :=
  .mk (typeName "ResourceRecord") <| oneofFields
    [("tcp_connect", 1, "ResourceTCPConnect"), ("tcp_listen", 2, "ResourceTCPListen"), ("sshd", 3, "ResourceSSHD")]
    (match m with
      | .notSet => none
      | .tcpConnect resource => some (1, resource.reflect)
      | .tcpListen resource => some (2, resource.reflect)
      | .sshd resource => some (3, resource.reflect))

def ServiceSchema.reflect (m : ServiceSchema) : Message :=
  .mk (typeName "ServiceSchema")
    [stringField (ascii "proto_file_name") 1 m.protoFileName,
      stringField (ascii "proto_file_descriptor_set") 2 m.protoFileDescriptorSet,
      repeatedStringField (ascii "accepted_type_urls") 3 m.acceptedTypeUrls,
      stringField (ascii "schema_hash") 4 m.schemaHash, uint32Field (ascii "schema_version") 5 m.schemaVersion]

def schemasField (name : String) (number : Nat) (values : List ServiceSchema) : Field :=
  repeatedMessageField (ascii name) number (typeName "ServiceSchema") (values.map ServiceSchema.reflect)

def SchemaRequest.reflect (m : SchemaRequest) : Message :=
  .mk (typeName "SchemaRequest")
    [optionalField (ascii "proto_file_name") 1 .string (m.protoFileName.map Value.string),
      optionalField (ascii "schema_hash") 2 .string (m.schemaHash.map Value.string)]

def SchemaReply.reflect (m : SchemaReply) : Message :=
  .mk (typeName "SchemaReply") [schemasField "schemas" 1 m.schemas]

def ResourceAdvertisement.reflect (m : ResourceAdvertisement) : Message :=
  .mk (typeName "ResourceAdvertisement")
    [repeatedMessageField (ascii "records") 1 (typeName "ResourceRecord") (m.records.map ResourceRecord.reflect),
      schemasField "schemas" 2 m.schemas]

def ResourceQuery.reflect (m : ResourceQuery) : Message :=
  .mk (typeName "ResourceQuery")
    [stringField (ascii "query") 1 m.query, uint32Field (ascii "max_records") 2 m.maxRecords]

def DiscoveredService.reflect (m : DiscoveredService) : Message :=
  .mk (typeName "DiscoveredService")
    [nodeIdField "node_id" 1 m.nodeId,
      messageField (ascii "schema") 2 (typeName "ServiceSchema") (m.schema.map ServiceSchema.reflect)]

def ResourceQueryReply.reflect (m : ResourceQueryReply) : Message :=
  .mk (typeName "ResourceQueryReply")
    [repeatedMessageField (ascii "services") 1 (typeName "DiscoveredService") (m.services.map DiscoveredService.reflect)]

def AesKeyNegotiationRequest.reflect (m : AesKeyNegotiationRequest) : Message :=
  .mk (typeName "AesKeyNegotiationRequest")
    [uuidField "key_id" 1 m.keyId, publicKeyField "ephemeral_public_key" 2 m.ephemeralPublicKey,
      uint64Field (ascii "requested_lifetime_ms") 3 m.requestedLifetimeMs,
      enumField (ascii "algorithm") 4 m.algorithm.number]

def AesKeyNegotiationReply.reflect (m : AesKeyNegotiationReply) : Message :=
  .mk (typeName "AesKeyNegotiationReply")
    [uuidField "key_id" 1 m.keyId, publicKeyField "ephemeral_public_key" 2 m.ephemeralPublicKey,
      uint64Field (ascii "accepted_lifetime_ms") 3 m.acceptedLifetimeMs,
      enumField (ascii "algorithm") 4 m.algorithm.number]

def AesKeyDropNotification.reflect (m : AesKeyDropNotification) : Message :=
  .mk (typeName "AesKeyDropNotification") [uuidField "key_id" 1 m.keyId, stringField (ascii "reason") 2 m.reason]

def AesKeyNegotiationError.reflect (m : AesKeyNegotiationError) : Message :=
  .mk (typeName "AesKeyNegotiationError")
    [enumField (ascii "error_code") 1 m.errorCode.number, uuidField "key_id" 2 m.keyId,
      stringField (ascii "message") 3 m.message]

def LogSubscribeRequest.reflect (m : LogSubscribeRequest) : Message :=
  .mk (typeName "LogSubscribeRequest")
    [stringField (ascii "payload_type_url") 1 m.payloadTypeUrl,
      messageField (ascii "filter") 2 (typeName "LogASTMessageTree") (m.filter.map LogASTMessageTree.reflect),
      uint64Field (ascii "duration_ms") 3 m.durationMs]

def LogSubscribeReply.reflect (m : LogSubscribeReply) : Message :=
  .mk (typeName "LogSubscribeReply")
    [enumField (ascii "status") 1 m.status.number, uuidField "subscription_id" 2 m.subscriptionId,
      dateTimeField "expires_at" 3 m.expiresAt, stringField (ascii "message") 4 m.message]

def LogUnsubscribeRequest.reflect (m : LogUnsubscribeRequest) : Message :=
  .mk (typeName "LogUnsubscribeRequest") [uuidField "subscription_id" 1 m.subscriptionId]

def LogUnsubscribeReply.reflect (m : LogUnsubscribeReply) : Message :=
  .mk (typeName "LogUnsubscribeReply")
    [enumField (ascii "status") 1 m.status.number, uuidField "subscription_id" 2 m.subscriptionId,
      stringField (ascii "message") 3 m.message]

def anyField (name : String) (number : Nat) (m : Option Any) : Field :=
  messageField (ascii name) number anyTypeName (m.map Any.reflect)

def LogRecord.reflect (m : LogRecord) : Message :=
  .mk (typeName "LogRecord")
    [uuidField "subscription_id" 1 m.subscriptionId, nodeIdField "producer_node_id" 2 m.producerNodeId,
      dateTimeField "time_created" 3 m.timeCreated, anyField "payload" 4 m.payload]

def EndorsementNeeded.reflect (m : EndorsementNeeded) : Message :=
  .mk (typeName "EndorsementNeeded")
    [uuidField "message_nonce" 1 m.messageNonce,
      messageField (ascii "tree") 2 (typeName "ERDAbstractSyntaxTree") (m.tree.map ERDAbstractSyntaxTree.reflect)]

/-! ### The envelope -/

def coreMembers : List (String × Nat × String) :=
  [("challenge_request", 3, "ChallengeRequest"), ("identity", 4, "Identity"), ("route", 5, "RouteUpdate"),
    ("error", 6, "Error"), ("ping_request", 7, "PingRequest"), ("ping_reply", 8, "PingReply"),
    ("resource_advertisement", 16, "ResourceAdvertisement"), ("resource_query", 17, "ResourceQuery"),
    ("endorsement_needed", 23, "EndorsementNeeded"), ("schema_request", 25, "SchemaRequest"),
    ("schema_reply", 26, "SchemaReply"), ("resource_query_reply", 27, "ResourceQueryReply"),
    ("log_subscribe_request", 28, "LogSubscribeRequest"), ("log_subscribe_reply", 29, "LogSubscribeReply"),
    ("log_unsubscribe_request", 30, "LogUnsubscribeRequest"), ("log_unsubscribe_reply", 31, "LogUnsubscribeReply"),
    ("log_record", 32, "LogRecord"), ("aes_key_negotiation_request", 33, "AesKeyNegotiationRequest"),
    ("aes_key_negotiation_reply", 34, "AesKeyNegotiationReply"),
    ("aes_key_drop_notification", 35, "AesKeyDropNotification"),
    ("aes_key_negotiation_error", 36, "AesKeyNegotiationError")]

/-- The set member of the `core_message` oneof, with its field number. -/
def CoreMessage.reflect : CoreMessage → Option (Nat × Message)
  | .notSet => none
  | .challengeRequest m => some (3, m.reflect)
  | .identity m => some (4, m.reflect)
  | .route m => some (5, m.reflect)
  | .error m => some (6, m.reflect)
  | .pingRequest m => some (7, m.reflect)
  | .pingReply m => some (8, m.reflect)
  | .resourceAdvertisement m => some (16, m.reflect)
  | .resourceQuery m => some (17, m.reflect)
  | .endorsementNeeded m => some (23, m.reflect)
  | .schemaRequest m => some (25, m.reflect)
  | .schemaReply m => some (26, m.reflect)
  | .resourceQueryReply m => some (27, m.reflect)
  | .logSubscribeRequest m => some (28, m.reflect)
  | .logSubscribeReply m => some (29, m.reflect)
  | .logUnsubscribeRequest m => some (30, m.reflect)
  | .logUnsubscribeReply m => some (31, m.reflect)
  | .logRecord m => some (32, m.reflect)
  | .aesKeyNegotiationRequest m => some (33, m.reflect)
  | .aesKeyNegotiationReply m => some (34, m.reflect)
  | .aesKeyDropNotification m => some (35, m.reflect)
  | .aesKeyNegotiationError m => some (36, m.reflect)

def RSPMessage.reflect (m : RSPMessage) : Message :=
  .mk (typeName "RSPMessage") <|
    [nodeIdField "destination" 1 m.destination, nodeIdField "source" 2 m.source,
      messageField (ascii "trace") 24 (typeName "OptionalBool") (m.trace.map OptionalBool.reflect)] ++
    oneofFields coreMembers m.coreMessage.reflect ++
    [anyField "service_message" 200 m.serviceMessage, uuidField "nonce" 22 m.nonce,
      messageField (ascii "signature") 99 (typeName "SignatureBlock") (m.signature.map SignatureBlock.reflect),
      repeatedMessageField (ascii "endorsements") 100 (typeName "Endorsement") (m.endorsements.map Endorsement.reflect),
      repeatedMessageField (ascii "identities") 101 (typeName "Identity") (m.identities.map Identity.reflect),
      repeatedMessageField (ascii "encrypted_fields") 102 (typeName "EncryptedField")
        (m.encryptedFields.map EncryptedField.reflect)]

/-- The default instances of the generated message types that occur as a field of another message. -/
def generatedDefaults : List Message :=
  [({} : Uuid).reflect, ({} : NodeId).reflect, ({} : EndorsementType).reflect, ({} : DateTime).reflect,
    ({} : OptionalBool).reflect, ({} : Any).reflect, ({} : SignatureBlock).reflect, ({} : PublicKey).reflect,
    ({} : Endorsement).reflect, ({} : EncryptedField).reflect, ({} : ChallengeRequest).reflect,
    ({} : Identity).reflect, ({} : RouteEntry).reflect, ({} : RouteUpdate).reflect, ({} : Error).reflect,
    ({} : PingRequest).reflect, ({} : PingReply).reflect, ({} : Address).reflect, ({} : PortRange).reflect,
    ({} : ResourceTCPConnect).reflect, ({} : ResourceTCPListen).reflect, ({} : ResourceSSHD).reflect,
    ResourceRecord.notSet.reflect, ({} : ServiceSchema).reflect, ({} : SchemaRequest).reflect,
    ({} : SchemaReply).reflect, ({} : ResourceAdvertisement).reflect, ({} : ResourceQuery).reflect,
    ({} : DiscoveredService).reflect, ({} : ResourceQueryReply).reflect, ({} : AesKeyNegotiationRequest).reflect,
    ({} : AesKeyNegotiationReply).reflect, ({} : AesKeyDropNotification).reflect,
    ({} : AesKeyNegotiationError).reflect, ({} : LogSubscribeRequest).reflect, ({} : LogSubscribeReply).reflect,
    ({} : LogUnsubscribeRequest).reflect, ({} : LogUnsubscribeReply).reflect, ({} : LogRecord).reflect,
    ({} : EndorsementNeeded).reflect, ({} : ERDASTFieldPath).reflect, ERDASTFieldValue.notSet.reflect,
    ({} : LogASTFieldPath).reflect, LogASTFieldValue.notSet.reflect, ERDASTEndTree.notSet.reflect,
    ERDASTMessageTree.notSet.reflect, ERDAbstractSyntaxTree.notSet.reflect, LogASTMessageTree.notSet.reflect,
    trueNode, falseNode,
    binaryNode "ERDASTEquals" "ERDAbstractSyntaxTree" none none, binaryNode "ERDASTAnd" "ERDAbstractSyntaxTree" none none,
    binaryNode "ERDASTOr" "ERDAbstractSyntaxTree" none none, naryNode "ERDASTAllOf" "ERDAbstractSyntaxTree" [],
    naryNode "ERDASTAnyOf" "ERDAbstractSyntaxTree" [],
    binaryNode "ERDASTEndEquals" "ERDASTEndTree" none none, binaryNode "ERDASTEndAnd" "ERDASTEndTree" none none,
    binaryNode "ERDASTEndOr" "ERDASTEndTree" none none, naryNode "ERDASTEndAllOf" "ERDASTEndTree" [],
    naryNode "ERDASTEndAnyOf" "ERDASTEndTree" [],
    binaryNode "ERDASTMesEquals" "ERDASTMessageTree" none none, binaryNode "ERDASTMesAnd" "ERDASTMessageTree" none none,
    binaryNode "ERDASTMesOr" "ERDASTMessageTree" none none, naryNode "ERDASTMesAllOf" "ERDASTMessageTree" [],
    naryNode "ERDASTMesAnyOf" "ERDASTMessageTree" [],
    binaryNode "LogASTMesEquals" "LogASTMessageTree" none none, binaryNode "LogASTMesAnd" "LogASTMessageTree" none none,
    binaryNode "LogASTMesOr" "LogASTMessageTree" none none, naryNode "LogASTMesAllOf" "LogASTMessageTree" [],
    naryNode "LogASTMesAnyOf" "LogASTMessageTree" [],
    .mk (typeName "ERDASTEndTypeEquals") [messageField (ascii "type") 1 (typeName "EndorsementType") none],
    valueMessage "ERDASTEndValueEquals" [], .mk (typeName "ERDASTEndSignerEquals") [nodeIdField "signer" 1 none],
    .mk (typeName "ERDASTEndorsement") [messageField (ascii "tree") 1 (typeName "ERDASTEndTree") none],
    .mk (typeName "ERDASTMessage") [messageField (ascii "tree") 1 (typeName "ERDASTMessageTree") none],
    .mk (typeName "ERDASTFieldEquals")
      [fieldPathField "path" 1 none, messageField (ascii "value") 2 (typeName "ERDASTFieldValue") none],
    .mk (typeName "ERDASTFieldExists") [fieldPathField "path" 1 none],
    .mk (typeName "ERDASTFieldContains")
      [fieldPathField "path" 1 none, fieldPathField "sub_path" 2 none,
        messageField (ascii "value") 3 (typeName "ERDASTFieldValue") none],
    .mk (typeName "LogASTFieldEquals")
      [logPathField "path" 1 none, messageField (ascii "value") 2 (typeName "LogASTFieldValue") none],
    .mk (typeName "LogASTFieldExists") [logPathField "path" 1 none],
    .mk (typeName "LogASTFieldContains")
      [logPathField "path" 1 none, logPathField "sub_path" 2 none,
        messageField (ascii "value") 3 (typeName "LogASTFieldValue") none]]

def generatedDefault (name : Bytes) : Message :=
  (generatedDefaults.find? fun m => m.fullName = name).getD default

end Rsp.Proto
