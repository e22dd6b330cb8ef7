import Rsp.Node.AesInvariants
import Rsp.Node.Answers

/-!
# Where a node sends its replies

Most replies of `NodeInputQueue::handleMessage` go to the sender as `senderNodeIdFromMessage` sees it, which is the signer of a signed message. Ping replies and errors about unknown messages go to the source field, which the signer of the message chooses freely.
-/

namespace Rsp

namespace Proto

/-- The replies of the base node. The other messages it sends tell peers about expired keys. -/
def CoreMessage.isAnswer : CoreMessage → Bool
  | .logSubscribeReply _ | .logUnsubscribeReply _ | .identity _ | .aesKeyNegotiationReply _
  | .aesKeyNegotiationError _ | .pingReply _ | .error _ => true
  | _ => false

def CoreMessage.isLogRequest : CoreMessage → Bool
  | .logSubscribeRequest _ | .logUnsubscribeRequest _ => true
  | _ => false

/-- The messages that reach the end of `handleMessage`, pings and those it does not know. -/
def CoreMessage.reachesEnd : CoreMessage → Bool
  | .challengeRequest _ => false
  | core => !core.isLogRequest && !core.isAesNegotiation

end Proto

open Proto

/-- Every reply in the list goes to the given node. -/
def RepliesTo (peer : NodeID) (sent : List RSPMessage) : Prop :=
  ∀ reply ∈ sent, reply.coreMessage.isAnswer = true → reply.destination = some (toProtoNodeId peer)

@[simp]
theorem repliesTo_nil (peer : NodeID) : RepliesTo peer [] := by
  intro reply hreply
  cases hreply

theorem repliesTo_singleton {peer : NodeID} {m : RSPMessage} (h : m.destination = some (toProtoNodeId peer)) :
    RepliesTo peer [m] := by
  intro reply hreply _
  rw [List.mem_singleton.mp hreply]
  exact h

theorem repliesTo_append {peer : NodeID} {sent more : List RSPMessage} (h : RepliesTo peer sent)
    (hmore : RepliesTo peer more) : RepliesTo peer (sent ++ more) := by
  intro reply hreply hanswer
  rcases List.mem_append.mp hreply with hmem | hmem
  · exact h reply hmem hanswer
  · exact hmore reply hmem hanswer

namespace AesNegotiationState

variable {C : Crypto}

/-- The notifications of a sweep are not replies. -/
theorem processExpiredAesKeys_repliesTo (self peer : NodeID) (now : DateTime) (state : AesNegotiationState C) :
    RepliesTo peer (state.processExpiredAesKeys self now).2 := by
  intro reply hreply hanswer
  obtain ⟨entry, -, rfl⟩ := List.mem_map.mp hreply
  cases hanswer

theorem handleAesKeyNegotiationRequest_repliesTo (ambient : Ambient) (self sender : NodeID)
    (request : AesKeyNegotiationRequest) (state : AesNegotiationState C) :
    RepliesTo sender [(state.handleAesKeyNegotiationRequest ambient self sender request).2] := by
  refine repliesTo_singleton ?_
  have houtcome := handleAesKeyNegotiationRequest_outcome ambient self sender request state
  generalize state.handleAesKeyNegotiationRequest ambient self sender request = answered at houtcome ⊢
  cases houtcome with
  | refuse => rfl
  | accept _ _ _ _ _ _ _ _ _ hmessage =>
    obtain ⟨fault, -, hmessage⟩ | ⟨ownPublic, -, hmessage⟩ := hmessage
    · rw [hmessage]
      rfl
    · rw [hmessage]
      rfl

theorem handleAesKeyNegotiationReply_repliesTo (ambient : Ambient) (self sender : NodeID)
    (reply : AesKeyNegotiationReply) (state : AesNegotiationState C) :
    RepliesTo sender (state.handleAesKeyNegotiationReply ambient self sender reply).2.toList := by
  have houtcome := handleAesKeyNegotiationReply_outcome ambient self sender reply state
  generalize state.handleAesKeyNegotiationReply ambient self sender reply = answered at houtcome ⊢
  cases houtcome with
  | malformed | unmatched | full | unreadable | underivable => exact repliesTo_singleton rfl
  | accept => exact repliesTo_nil sender

theorem handleAesKeyDropNotification_repliesTo (self sender : NodeID) (drop : AesKeyDropNotification)
    (state : AesNegotiationState C) :
    RepliesTo sender (state.handleAesKeyDropNotification self sender drop).2.toList := by
  simp only [handleAesKeyDropNotification]
  split
  · exact repliesTo_singleton rfl
  · cases state.activeByPeer[sender]? with
    | none => exact repliesTo_singleton rfl
    | some active =>
      simp only
      split_ifs
      · exact repliesTo_singleton rfl
      · exact repliesTo_nil sender

/-- Key negotiation answers the sender only. -/
theorem handleAesNegotiationMessage_repliesTo {ambient : Ambient} {self sender : NodeID} {m : RSPMessage}
    {state : AesNegotiationState C} {answered : AesNegotiationState C × List RSPMessage}
    (hsender : senderNodeIdFromMessage m = some sender)
    (h : state.handleAesNegotiationMessage ambient self m = some answered) : RepliesTo sender answered.2 := by
  have hswept := processExpiredAesKeys_repliesTo self sender ambient.expiryNow state
  simp only [handleAesNegotiationMessage, hsender] at h
  cases hcore : m.coreMessage <;> simp only [hcore, Option.some.injEq, reduceCtorEq] at h
  case aesKeyNegotiationError error =>
    rw [← h]
    exact hswept
  case aesKeyNegotiationRequest request =>
    rw [← h]
    exact repliesTo_append hswept (handleAesKeyNegotiationRequest_repliesTo _ _ _ _ _)
  case aesKeyNegotiationReply reply =>
    rw [← h]
    exact repliesTo_append hswept (handleAesKeyNegotiationReply_repliesTo _ _ _ _ _)
  case aesKeyDropNotification drop =>
    rw [← h]
    exact repliesTo_append hswept (handleAesKeyDropNotification_repliesTo _ _ _ _)

end AesNegotiationState

namespace NodeInputQueue

variable {C : Crypto} {σ : Type} {pb : Protobuf} {specific : RSPMessage → σ → Option (σ × List RSPMessage)}
  {ambient : Ambient} {m : RSPMessage} {node node' : RSPNode C} {own own' : σ} {sent : List RSPMessage}
  {signer : NodeID}

theorem identityReply_destination {seed : Nat} {requester : NodeID} {nonce : Uuid} {reply : RSPMessage}
    (h : identityReply pb seed node requester m nonce = .ok reply) :
    reply.destination = some (toProtoNodeId requester) := by
  obtain ⟨publicKey, -, h⟩ := bind_eq_ok.mp h
  obtain ⟨signature, -, h⟩ := bind_eq_ok.mp h
  cases h
  rfl

/-- Away from the end of the handler the reply goes to the sender. -/
theorem handleBaseMessage_repliesTo (hsender : senderNodeIdFromMessage m = some signer)
    (hlog : m.coreMessage.isLogRequest = false) (hend : m.coreMessage.reachesEnd = false)
    (h : handleBaseMessage pb ambient m node = .ok (node', sent)) : RepliesTo signer sent := by
  cases hcore : m.coreMessage <;>
    simp only [hcore, CoreMessage.reachesEnd, CoreMessage.isLogRequest, CoreMessage.isAesNegotiation, Bool.not_false,
      Bool.and_self, reduceCtorEq] at hlog hend
  case challengeRequest request =>
    cases hnonce : request.nonce with
    | none =>
      simp only [handleBaseMessage, hcore, hsender, hnonce] at h
      cases h
      exact repliesTo_nil signer
    | some nonce =>
      simp only [handleBaseMessage, hcore, hsender, hnonce] at h
      split_ifs at h
      · cases h
        exact repliesTo_nil signer
      · obtain ⟨reply, hreply, h⟩ := bind_eq_ok.mp h
        cases h
        exact repliesTo_singleton (identityReply_destination hreply)
  all_goals
    cases hanswered : node.aesNegotiation.handleAesNegotiationMessage ambient node.nodeId m with
    | none =>
      rw [AesNegotiationState.handleAesNegotiationMessage_eq_none_iff, hcore] at hanswered
      cases hanswered
    | some answered =>
      simp only [handleBaseMessage, hcore, hanswered] at h
      cases h
      exact AesNegotiationState.handleAesNegotiationMessage_repliesTo hsender hanswered

/-- At its end there is one reply, to the destination `replyDestination` computes. -/
theorem handleBaseMessage_end (hend : m.coreMessage.reachesEnd = true)
    (h : handleBaseMessage pb ambient m node = .ok (node', sent)) :
    ∃ reply, sent = [reply] ∧ reply.coreMessage.isAnswer = true ∧ reply.destination = replyDestination m := by
  have haes : node.aesNegotiation.handleAesNegotiationMessage ambient node.nodeId m = none := by
    rw [AesNegotiationState.handleAesNegotiationMessage_eq_none_iff]
    cases hcore : m.coreMessage <;> simp [hcore, CoreMessage.reachesEnd, CoreMessage.isAesNegotiation] at hend ⊢
  cases hcore : m.coreMessage
  case challengeRequest request => simp [hcore, CoreMessage.reachesEnd] at hend
  case pingRequest request =>
    simp only [handleBaseMessage, hcore] at h
    cases h
    exact ⟨_, rfl, rfl, rfl⟩
  all_goals
    simp only [handleBaseMessage, hcore, haes] at h
    cases h
    exact ⟨_, rfl, rfl, rfl⟩

theorem handleMessage_eq_base (hlog : m.coreMessage.isLogRequest = false) (hspecific : specific m own = none)
    (h : handleMessage pb specific ambient m node own = .ok (node', own', sent)) :
    handleBaseMessage pb ambient m node = .ok (node', sent) := by
  unfold handleMessage at h
  split at h
  · next request hcore => simp [hcore, CoreMessage.isLogRequest] at hlog
  · next request hcore => simp [hcore, CoreMessage.isLogRequest] at hlog
  · rw [hspecific] at h
    obtain ⟨⟨base, baseSent⟩, hbase, h⟩ := bind_eq_ok.mp h
    cases h
    exact hbase

theorem handleMessage_log_repliesTo (hsender : senderNodeIdFromMessage m = some signer)
    (hlog : m.coreMessage.isLogRequest = true)
    (h : handleMessage pb specific ambient m node own = .ok (node', own', sent)) : RepliesTo signer sent := by
  unfold handleMessage at h
  split at h
  · rw [hsender] at h
    cases h
    exact repliesTo_singleton rfl
  · rw [hsender] at h
    cases h
    exact repliesTo_singleton rfl
  · next hsubscribe hunsubscribe =>
    cases hcore : m.coreMessage <;> simp [hcore, CoreMessage.isLogRequest] at hlog hsubscribe hunsubscribe

end NodeInputQueue

open NodeInputQueue in
/-- All replies of the base node to a signed message go to its signer exactly if it is not one of the messages answered at the end of `handleMessage`, or its source field is missing or names the signer. -/
theorem replies_go_to_signer_iff {C : Crypto} {σ : Type} {pb : Protobuf}
    {specific : RSPMessage → σ → Option (σ × List RSPMessage)} {ambient : Ambient} {m : RSPMessage}
    {node node' : RSPNode C} {own own' : σ} {sent : List RSPMessage} {signer : NodeID}
    (hsigner : (m.signature.bind fun block => block.signer.bind nodeIdFromSignerField) = some signer)
    (hspecific : m.coreMessage.isLogRequest = true ∨ specific m own = none)
    (h : handleMessage pb specific ambient m node own = .ok (node', own', sent)) :
    (∀ reply ∈ sent, reply.coreMessage.isAnswer = true → reply.destination = some (toProtoNodeId signer)) ↔
      (m.coreMessage.reachesEnd = true → m.source = none ∨ m.source = some (toProtoNodeId signer)) := by
  have hsender : senderNodeIdFromMessage m = some signer := by rw [senderNodeIdFromMessage, hsigner]
  cases hlog : m.coreMessage.isLogRequest with
  | true =>
    have hend : m.coreMessage.reachesEnd = false := by
      cases hcore : m.coreMessage <;> simp [hcore, CoreMessage.isLogRequest, CoreMessage.reachesEnd] at hlog ⊢
    rw [hend]
    exact iff_of_true (handleMessage_log_repliesTo hsender hlog h) (by simp)
  | false =>
    have hbase := handleMessage_eq_base hlog (hspecific.resolve_left (by simp [hlog])) h
    cases hend : m.coreMessage.reachesEnd with
    | false => exact iff_of_true (handleBaseMessage_repliesTo hsender hlog hend hbase) (by simp)
    | true =>
      obtain ⟨reply, rfl, hanswer, hdestination⟩ := handleBaseMessage_end hend hbase
      have hreply : (∀ r ∈ [reply], r.coreMessage.isAnswer = true → r.destination = some (toProtoNodeId signer)) ↔
          replyDestination m = some (toProtoNodeId signer) := by
        simp [hanswer, hdestination]
      rw [hreply]
      cases hsource : m.source with
      | none => simp [replyDestination, hsource, hsender]
      | some source => simp [replyDestination, hsource]

namespace NodeInputQueue

/-- A ping signed by node 1 whose source field names node 2. -/
def redirectedPing : RSPMessage :=
  { source := some (toProtoNodeId ⟨2, 2⟩)
    coreMessage := .pingRequest {}
    signature := some { signer := some ⟨(⟨1, 1⟩ : NodeID).toBigEndian⟩ } }

def sampleNode : RSPNode sampleCrypto where
  keyPair := sampleKeyPair 3
  nodeId := ⟨ByteCode.readBe64 ((sampleCrypto.sha256 [3]).take 8),
    ByteCode.readBe64 (((sampleCrypto.sha256 [3]).drop 8).take 8)⟩
  nodeID_keyPair := rfl

end NodeInputQueue

open NodeInputQueue in
/-- Without the source field the same ping is answered to its signer. -/
theorem replies_go_to_signer_iff_ping :
    (pingReply 0 {} { redirectedPing with source := none }).destination = some (toProtoNodeId ⟨1, 1⟩) :=
  have hsent : handleMessage (σ := Unit) default (fun _ _ => none) {} { redirectedPing with source := none } sampleNode () =
      .ok (sampleNode, (), [pingReply 0 {} { redirectedPing with source := none }]) := rfl
  (replies_go_to_signer_iff (by decide +kernel) (.inr rfl) hsent).mpr (fun _ => .inl rfl) _ List.mem_cons_self rfl

open NodeInputQueue in
theorem ping_reply_goes_to_source :
    (redirectedPing.signature.bind fun block => block.signer.bind nodeIdFromSignerField) = some ⟨1, 1⟩ ∧
      ∃ reply, handleMessage (σ := Unit) default (fun _ _ => none) {} redirectedPing sampleNode () =
          .ok (sampleNode, (), [reply]) ∧
        reply.coreMessage.isAnswer = true ∧ reply.destination = some (toProtoNodeId ⟨2, 2⟩) ∧
        reply.destination ≠ some (toProtoNodeId ⟨1, 1⟩) := by
  refine ⟨by decide +kernel, pingReply 0 {} redirectedPing, rfl, rfl, rfl, ?_⟩
  decide +kernel

end Rsp
