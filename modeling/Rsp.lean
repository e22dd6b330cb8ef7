import Rsp.AuthN.Echo
import Rsp.Client.BridgeOrder
import Rsp.Client.NameResolve
import Rsp.Client.Recovery
import Rsp.Client.Removal
import Rsp.Client.StreamDelivery
import Rsp.Client.StreamSend
import Rsp.Dialogue.Termination
import Rsp.Endorsement.NodeRules
import Rsp.Endorsement.ReduceExact
import Rsp.JavaScript.EndorsementRequest
import Rsp.Node.AesLocality
import Rsp.Node.IdentityCacheOrder
import Rsp.Node.ReplyDestination
import Rsp.ResourceManager.Lifecycle
import Rsp.ResourceManager.Mediation
import Rsp.ResourceManager.SchemaHistory
import Rsp.ResourceService.Endorsements
import Rsp.ResourceService.AcceptRequests
import Rsp.ResourceService.ConnectReplies
import Rsp.ResourceService.PingCheck
import Rsp.Signing.Advertisement
import Rsp.Signing.IdentityList
import Rsp.Signing.ParkedAccounting
import Rsp.Signing.Payload
import Rsp.Transport.AsciiHandshake
import Rsp.Transport.JsonFrames
import Rsp.Endorsement.MessageOnly
import Rsp.Endorsement.FieldPaths
import Rsp.Endorsement.NumericLiterals
import Rsp.Config.RuleFiles
import Rsp.ResourceManager.QueryAnswers
import Rsp.Node.LogPublication
import Rsp.ResourceService.NameLookups
import Rsp.Client.Lifecycle
import Rsp.Node.AesHalfOpen
import Rsp.Queue.MessageQueue
