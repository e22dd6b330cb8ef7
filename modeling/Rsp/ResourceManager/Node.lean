import Rsp.Node.Dispatch
import Rsp.ResourceManager.Query
import Rsp.ResourceManager.SchemaRegistry

/-!
# The messages a resource manager answers itself

`ResourceManager::handleNodeSpecificMessage`: advertisements, schema requests and resource queries.
-/

namespace Rsp

open Proto Query

/-- What a resource manager has learned from advertisements. -/
structure Directory where
  schemaRegistry : SchemaRegistry := {}
  resourceAdvertisements : Std.TreeMap NodeID ResourceAdvertisement := {}

namespace Directory

/-- An empty advertisement withdraws what the node advertised before. -/
def handleResourceAdvertisement (nodeId : NodeID) (advertisement : ResourceAdvertisement) (directory : Directory) :
    Directory :=
  if advertisement.records.isEmpty && advertisement.schemas.isEmpty then
    { directory with resourceAdvertisements := directory.resourceAdvertisements.erase nodeId }
  else
    { schemaRegistry := directory.schemaRegistry.ingest advertisement
      resourceAdvertisements := directory.resourceAdvertisements.insert nodeId advertisement }

def requestedSchemas (request : SchemaRequest) (directory : Directory) : List ServiceSchema :=
  let protoFileName := request.protoFileName.getD []
  let schemaHash := request.schemaHash.getD []
  if !protoFileName.isEmpty then (directory.schemaRegistry.findByProtoFile protoFileName).toList
  else if !schemaHash.isEmpty then (directory.schemaRegistry.findByHash schemaHash).toList
  else directory.schemaRegistry.allSchemas

/-- The record limit is reached; zero means no limit. -/
def limitReached (maxRecords : UInt32) (found : List DiscoveredService) : Bool :=
  maxRecords > 0 && found.length ≥ maxRecords.toNat

def matchSchemas (expression : QueryExpression) (maxRecords : UInt32) (nodeId : NodeID) :
    List ServiceSchema → List DiscoveredService → List DiscoveredService
  | [], found => found
  | schema :: rest, found =>
    if !matchesExpression expression ⟨nodeId, schema⟩ then matchSchemas expression maxRecords nodeId rest found
    else
      let found := found ++ [{ nodeId := some (toProtoNodeId nodeId), schema := some schema }]
      if limitReached maxRecords found then found else matchSchemas expression maxRecords nodeId rest found

def matchAdvertisements (expression : QueryExpression) (maxRecords : UInt32) :
    List (NodeID × ResourceAdvertisement) → List DiscoveredService → List DiscoveredService
  | [], found => found
  | (nodeId, advertisement) :: rest, found =>
    let found := matchSchemas expression maxRecords nodeId advertisement.schemas found
    if limitReached maxRecords found then found else matchAdvertisements expression maxRecords rest found

/-- The answer to a query. The reply message gets its content with the first match, so without a match it is left empty. -/
def answerResourceQuery (query : ResourceQuery) (directory : Directory) : CoreMessage :=
  match parseQueryExpression query.query with
  | .error fault =>
    .error { errorCode := .unimplemented, message := ascii "invalid resource query: " ++ ascii fault.what }
  | .ok expression =>
    match matchAdvertisements expression query.maxRecords directory.resourceAdvertisements.toList [] with
    | [] => .notSet
    | service :: services => .resourceQueryReply ⟨service :: services⟩

/-- `ResourceManager::handleNodeSpecificMessage`. -/
def handleNodeSpecificMessage (m : RSPMessage) (directory : Directory) : Option (Directory × List RSPMessage) :=
  match m.coreMessage, senderNodeIdFromMessage m with
  | .resourceAdvertisement advertisement, some nodeId =>
    some (directory.handleResourceAdvertisement nodeId advertisement, [])
  | .schemaRequest request, some requester =>
    some (directory,
      [{ destination := some (toProtoNodeId requester)
         coreMessage := .schemaReply ⟨directory.requestedSchemas request⟩ }])
  | .resourceQuery query, some requester =>
    some (directory,
      [{ destination := some (toProtoNodeId requester)
         coreMessage := directory.answerResourceQuery query }])
  | _, _ => none

end Directory

end Rsp
