import Rsp.Dialogue.Settling

/-!
# Dialogues that never end

A node answers a message that it has no handler for with an error, and neither node has a handler for errors. So the two nodes answer each other's errors without end once one of them answers the other with a message that the other does not handle. `managerStartsLoop` and `clientStartsLoop` list the messages for which that happens; every other message leads to a dialogue that ends.
-/

namespace Rsp

open Proto

namespace NodeInputQueue

/-! ### Answers of a node -/

section

variable {C : Crypto} {σ : Type} {pb : Protobuf} {specific : RSPMessage → σ → Option (σ × List RSPMessage)}
  {ambient : Ambient} {m : RSPMessage} {node node' : RSPNode C} {own own' : σ} {sent : List RSPMessage}

/-- The messages for which a node has no handler of its own. -/
def unsupportedByNode : CoreMessage → Bool
  | .logSubscribeRequest _ | .logUnsubscribeRequest _ | .challengeRequest _ | .pingRequest _
  | .aesKeyNegotiationRequest _ | .aesKeyNegotiationReply _ | .aesKeyDropNotification _
  | .aesKeyNegotiationError _ => false
  | _ => true

theorem handleMessage_unsupported (hcore : unsupportedByNode m.coreMessage = true) (hspecific : specific m own = none) :
    handleMessage pb specific ambient m node own = .ok (node, own, [errorReply m]) := by
  cases h : m.coreMessage <;> rw [h] at hcore <;> cases hcore <;>
    simp [handleMessage, handleBaseMessage, h, hspecific, AesNegotiationState.handleAesNegotiationMessage]

theorem handleMessage_pingRequest {request : PingRequest} (hcore : m.coreMessage = .pingRequest request)
    (hspecific : specific m own = none) :
    handleMessage pb specific ambient m node own = .ok (node, own, [pingReply ambient.now request m]) := by
  simp [handleMessage, handleBaseMessage, hcore, hspecific]

/-- A challenge that is answered: its nonce is a UUID. -/
def isAnswered (request : ChallengeRequest) : Bool := request.nonce.any (·.value.length = 16)

theorem identityReply_ok {seed : Nat} {requester : NodeID} {nonce : Uuid} {answer : RSPMessage}
    (h : identityReply pb seed node requester m nonce = .ok answer) :
    answer.destination = some (toProtoNodeId requester) ∧ answer.source = none ∧ answer.serviceMessage = none ∧
      ∃ identity, answer.coreMessage = .identity identity := by
  obtain ⟨publicKey, -, h⟩ := bind_eq_ok.mp h
  obtain ⟨signature, -, h⟩ := bind_eq_ok.mp h
  cases h
  exact ⟨rfl, rfl, rfl, _, rfl⟩

theorem handleMessage_challengeRequest {request : ChallengeRequest} (hcore : m.coreMessage = .challengeRequest request)
    (hspecific : specific m own = none)
    (h : handleMessage pb specific ambient m node own = .ok (node', own', sent)) :
    (sent = [] ∧ (isAnswered request = true → senderNodeIdFromMessage m = none)) ∨
      ∃ requester nonce answer, senderNodeIdFromMessage m = some requester ∧ isAnswered request = true ∧
        identityReply pb ambient.signSeed node requester m nonce = .ok answer ∧ sent = [answer] := by
  simp only [handleMessage, handleBaseMessage, hcore, hspecific] at h
  obtain ⟨⟨base, baseSent⟩, hbase, h⟩ := bind_eq_ok.mp h
  cases h
  split at hbase
  · next requester nonce hsender hnonce =>
    split_ifs at hbase with hlength
    · cases hbase
      exact .inl ⟨rfl, by simp [isAnswered, hnonce, hlength]⟩
    · obtain ⟨reply, hreply, h⟩ := bind_eq_ok.mp hbase
      cases h
      exact .inr ⟨requester, nonce, reply, hsender, by simpa [isAnswered, hnonce] using hlength, hreply, rfl⟩
  · next hunanswered =>
    cases hbase
    refine .inl ⟨rfl, fun hanswered => ?_⟩
    cases hsender : senderNodeIdFromMessage m with
    | none => rfl
    | some requester =>
      cases hnonce : request.nonce with
      | none => simp [isAnswered, hnonce] at hanswered
      | some nonce => exact absurd hnonce (hunanswered requester nonce hsender)

end

end NodeInputQueue

namespace Dialogue

open NodeInputQueue

/-! ### Messages that start a loop -/

/-- The query is malformed, or nothing that is advertised matches it. -/
def noMatch (query : ResourceQuery) (directory : Directory) : Bool :=
  match Query.parseQueryExpression query.query with
  | .error _ => true
  | .ok expression =>
    (Directory.matchAdvertisements expression query.maxRecords directory.resourceAdvertisements.toList []).isEmpty

/-- The resource manager answers the client with a message the client has no handler for. -/
def managerStartsLoop (clientId : NodeID) (directory : Directory) (m : RSPMessage) : Prop :=
  match m.coreMessage with
  | .logUnsubscribeRequest _ => senderNodeIdFromMessage m = some clientId
  | .challengeRequest request => isAnswered request = true ∧ senderNodeIdFromMessage m = some clientId
  | .resourceQuery query =>
    match senderNodeIdFromMessage m with
    | some sender => sender = clientId ∧ noMatch query directory = true
    | none => replyDestination m = some (toProtoNodeId clientId)
  | .resourceAdvertisement _ | .schemaRequest _ =>
    senderNodeIdFromMessage m = none ∧ replyDestination m = some (toProtoNodeId clientId)
  | core => unsupportedByNode core = true ∧ replyDestination m = some (toProtoNodeId clientId)

/-- The client answers the resource manager, or itself, with a message the receiver has no handler for. -/
def clientStartsLoop (managerId clientId : NodeID) (m : RSPMessage) : Prop :=
  match m.coreMessage with
  | .logSubscribeRequest _ => senderNodeIdFromMessage m = some managerId
  | .logUnsubscribeRequest _ =>
    senderNodeIdFromMessage m = some managerId ∨ senderNodeIdFromMessage m = some clientId
  | .challengeRequest request => RSPClient.takesMessage m = false ∧ isAnswered request = true ∧
      (senderNodeIdFromMessage m = some managerId ∨ senderNodeIdFromMessage m = some clientId)
  | .pingRequest _ => RSPClient.takesMessage m = false ∧ reachesManager managerId (replyDestination m)
  | core => RSPClient.takesMessage m = false ∧ unsupportedByNode core = true ∧
      (reachesManager managerId (replyDestination m) ∨ replyDestination m = some (toProtoNodeId clientId))
where
  /-- What the client sends without destination is for the resource manager, too. -/
  reachesManager (managerId : NodeID) (destination : Option NodeId) : Prop :=
    destination.all (· = toProtoNodeId managerId) = true

/-! ### The first answer to other messages -/

section

variable {C : Crypto} {pb : Protobuf} {ambient : Ambient} {m answer : RSPMessage} {node node' : RSPNode C}
  {managerId clientId : NodeID} {directory directory' : Directory} {sent : List RSPMessage}

@[simp]
theorem clientSettles_answerResourceQuery (query : ResourceQuery) (directory : Directory) :
    clientSettles (directory.answerResourceQuery query) ↔ noMatch query directory = false := by
  simp only [clientSettles, Directory.answerResourceQuery, noMatch]
  cases Query.parseQueryExpression query.query with
  | error fault => simp [CoreMessage.isAesNegotiation, RSPClient.takesCoreMessage]
  | ok expression =>
    cases hfound : Directory.matchAdvertisements expression query.maxRecords
        directory.resourceAdvertisements.toList [] <;>
      simp [hfound, CoreMessage.isAesNegotiation, RSPClient.takesCoreMessage]

theorem handleNodeSpecificMessage_eq_some {answered : Directory × List RSPMessage}
    (h : Directory.handleNodeSpecificMessage m directory = some answered) :
    ∃ sender, senderNodeIdFromMessage m = some sender ∧
      ((∃ advertisement, m.coreMessage = .resourceAdvertisement advertisement ∧ answered.2 = []) ∨
        (∃ request, m.coreMessage = .schemaRequest request ∧ answered.2 =
          [{ destination := some (toProtoNodeId sender)
             coreMessage := .schemaReply ⟨directory.requestedSchemas request⟩ }]) ∨
        ∃ query, m.coreMessage = .resourceQuery query ∧ answered.2 =
          [{ destination := some (toProtoNodeId sender)
             coreMessage := directory.answerResourceQuery query }]) := by
  unfold Directory.handleNodeSpecificMessage at h
  split at h <;> cases h
  · next advertisement sender hcore hsender => exact ⟨sender, hsender, .inl ⟨advertisement, hcore, rfl⟩⟩
  · next request sender hcore hsender => exact ⟨sender, hsender, .inr (.inl ⟨request, hcore, rfl⟩)⟩
  · next query sender hcore hsender => exact ⟨sender, hsender, .inr (.inr ⟨query, hcore, rfl⟩)⟩

/-- The messages a resource manager answers itself. -/
theorem manager_specific_answers_iff {answered : Directory × List RSPMessage}
    (h : Directory.handleNodeSpecificMessage m directory = some answered) :
    (∃ answer ∈ answered.2, answer.destination = some (toProtoNodeId clientId) ∧
      ¬ clientSettles answer.coreMessage) ↔ managerStartsLoop clientId directory m := by
  obtain ⟨sender, hsender, ⟨advertisement, hcore, hanswered⟩ | ⟨request, hcore, hanswered⟩ |
    ⟨query, hcore, hanswered⟩⟩ := handleNodeSpecificMessage_eq_some h
  · simp [hanswered, managerStartsLoop, hcore, hsender]
  · simp [hanswered, managerStartsLoop, hcore, hsender, clientSettles, RSPClient.takesCoreMessage]
  · simp [hanswered, managerStartsLoop, hcore, hsender, toProtoNodeId_injective.eq_iff]

/-- The resource manager starts a loop with the messages of `managerStartsLoop`, and no others. -/
theorem manager_answers_iff
    (h : handleMessage pb Directory.handleNodeSpecificMessage ambient m node directory =
      .ok (node', directory', sent)) :
    (∃ answer ∈ sent, answer.destination = some (toProtoNodeId clientId) ∧ ¬ clientSettles answer.coreMessage) ↔
      managerStartsLoop clientId directory m := by
  cases hspecific : Directory.handleNodeSpecificMessage m directory with
  | some answered =>
    obtain ⟨_, -, hkind⟩ := handleNodeSpecificMessage_eq_some hspecific
    have hlog : (∀ request, m.coreMessage ≠ .logSubscribeRequest request) ∧
        ∀ request, m.coreMessage ≠ .logUnsubscribeRequest request := by
      rcases hkind with ⟨_, hcore, -⟩ | ⟨_, hcore, -⟩ | ⟨_, hcore, -⟩ <;> simp [hcore]
    cases h.symm.trans (handleMessage_specific hspecific hlog.1 hlog.2)
    exact manager_specific_answers_iff hspecific
  | none =>
    cases hcore : m.coreMessage
    case logSubscribeRequest request =>
      simp only [handleMessage, hcore] at h
      split at h <;> cases h <;>
        simp [managerStartsLoop, hcore, unsupportedByNode, clientSettles, RSPClient.takesCoreMessage]
    case logUnsubscribeRequest request =>
      simp only [handleMessage, hcore] at h
      split at h <;> next hsender =>
        cases h
        simp [managerStartsLoop, hcore, hsender, clientSettles, RSPClient.takesCoreMessage,
          CoreMessage.isAesNegotiation, toProtoNodeId_injective.eq_iff]
    case challengeRequest request =>
      simp only [managerStartsLoop, hcore]
      rcases handleMessage_challengeRequest hcore hspecific h with
        ⟨rfl, hsilent⟩ | ⟨requester, nonce, answer, hsender, hanswered, hreply, rfl⟩
      · simp +contextual [hsilent]
      · obtain ⟨hdestination, -, -, identity, hidentity⟩ := identityReply_ok hreply
        simp [clientSettles, hdestination, hidentity, hsender, hanswered, toProtoNodeId_injective.eq_iff,
          RSPClient.takesCoreMessage, CoreMessage.isAesNegotiation]
    case pingRequest request =>
      cases h.symm.trans (handleMessage_pingRequest hcore hspecific)
      simp [managerStartsLoop, hcore, unsupportedByNode, pingReply, clientSettles, RSPClient.takesCoreMessage]
    case aesKeyNegotiationRequest | aesKeyNegotiationReply | aesKeyDropNotification | aesKeyNegotiationError =>
      have hpaid := (handleMessage_aes (by rw [hcore]; rfl) hspecific h).2
      simp only [managerStartsLoop, hcore, unsupportedByNode, Bool.false_eq_true, false_and, iff_false]
      rintro ⟨answer, hanswer, -, hunsettled⟩
      exact hunsettled (.inl (hpaid.negotiates answer hanswer))
    all_goals
      cases h.symm.trans (handleMessage_unsupported (by rw [hcore]; rfl) hspecific)
      -- the messages of a resource manager get here only without a sender
      cases hsender : senderNodeIdFromMessage m <;>
        simp_all [Directory.handleNodeSpecificMessage, managerStartsLoop, unsupportedByNode, errorReply,
          clientSettles, RSPClient.takesCoreMessage, CoreMessage.isAesNegotiation]

/-- What the client sends is unsettled if it is for the resource manager, or back to a client that does not take it. -/
theorem not_settled_iff {m : RSPMessage} :
    ¬ Settled managerId clientId (.toManager, m) ↔ m.coreMessage.isAesNegotiation = false ∧
      (clientStartsLoop.reachesManager managerId m.destination ∨
        m.destination = some (toProtoNodeId clientId) ∧ ¬ clientSettles m.coreMessage) := by
  simp only [Settled, clientStartsLoop.reachesManager]
  cases m.destination with
  | none => simp
  | some destination =>
    simp
    tauto

theorem reachesManager_some {id : NodeID} :
    clientStartsLoop.reachesManager managerId (some (toProtoNodeId id)) ↔ id = managerId := by
  simp [clientStartsLoop.reachesManager, toProtoNodeId_injective.eq_iff]

/-- The client starts a loop with the messages of `clientStartsLoop`, and no others. -/
theorem client_answers_iff {own : Unit}
    (h : handleMessage pb RSPClient.handleNodeSpecificMessage ambient m node () = .ok (node', own, sent)) :
    (∃ answer ∈ sent, ¬ Settled managerId clientId (.toManager, answer)) ↔ clientStartsLoop managerId clientId m := by
  simp only [not_settled_iff]
  cases hcore : m.coreMessage
  case logSubscribeRequest request =>
    simp only [handleMessage, hcore] at h
    split at h <;> next hsender =>
      cases h
      simp [clientStartsLoop, hcore, hsender, reachesManager_some, clientSettles,
        RSPClient.takesCoreMessage, CoreMessage.isAesNegotiation]
  case logUnsubscribeRequest request =>
    simp only [handleMessage, hcore] at h
    split at h <;> next hsender =>
      cases h
      simp [clientStartsLoop, hcore, hsender, reachesManager_some, clientSettles,
        RSPClient.takesCoreMessage, CoreMessage.isAesNegotiation, toProtoNodeId_injective.eq_iff]
  all_goals
    cases htakes : RSPClient.takesMessage m
    case true =>
      have hspecific : RSPClient.handleNodeSpecificMessage m () = some ((), []) := by
        simp [RSPClient.handleNodeSpecificMessage, htakes]
      cases h.symm.trans (handleMessage_specific hspecific (by simp [hcore]) (by simp [hcore]))
      simp [clientStartsLoop, hcore, htakes]
    have hspecific : RSPClient.handleNodeSpecificMessage m () = none := by
      simp [RSPClient.handleNodeSpecificMessage, htakes]
  case challengeRequest.false request =>
    simp only [clientStartsLoop, hcore, htakes]
    rcases handleMessage_challengeRequest hcore hspecific h with
      ⟨rfl, hsilent⟩ | ⟨requester, nonce, answer, hsender, hanswered, hreply, rfl⟩
    · simp +contextual [hsilent]
    · obtain ⟨hdestination, -, -, identity, hidentity⟩ := identityReply_ok hreply
      simp [clientSettles, hdestination, hidentity, hsender, hanswered, toProtoNodeId_injective.eq_iff, reachesManager_some,
        RSPClient.takesCoreMessage, CoreMessage.isAesNegotiation]
  case pingRequest.false request =>
    cases h.symm.trans (handleMessage_pingRequest hcore hspecific)
    simp [clientStartsLoop, hcore, htakes, pingReply, clientSettles, RSPClient.takesCoreMessage,
      CoreMessage.isAesNegotiation]
  case aesKeyNegotiationRequest.false | aesKeyNegotiationReply.false | aesKeyDropNotification.false |
      aesKeyNegotiationError.false =>
    have hpaid := (handleMessage_aes (by rw [hcore]; rfl) hspecific h).2
    simp only [clientStartsLoop, hcore, unsupportedByNode, Bool.false_eq_true, false_and, and_false, iff_false]
    rintro ⟨answer, hanswer, hunsettled, -⟩
    rw [hpaid.negotiates answer hanswer] at hunsettled
    cases hunsettled
  all_goals
    cases h.symm.trans (handleMessage_unsupported (by rw [hcore]; rfl) hspecific)
    simp [clientStartsLoop, hcore, htakes, unsupportedByNode, errorReply, clientSettles,
      RSPClient.takesCoreMessage, CoreMessage.isAesNegotiation]

end

end Dialogue

end Rsp
