import Rsp.Node.Dispatch

/-!
# What a node answers

Key negotiation cannot go on forever: every message a node sends in it costs a message or an active key. Each kind of message gets a weight, high enough to pay for the answer on its way, and each active key pays for the notification that it expired. Outside the key negotiation, a node answers at most once.
-/

namespace Rsp

namespace Proto

def CoreMessage.isAesNegotiation : CoreMessage → Bool
  | .aesKeyNegotiationRequest _ | .aesKeyNegotiationReply _ | .aesKeyDropNotification _
  | .aesKeyNegotiationError _ => true
  | _ => false

end Proto

open Proto

/-! ### Key negotiation -/

namespace AesNegotiationState

variable {C : Crypto}

/-- A request pays for the new key and the reply, a reply for the new key, a notification for an error. -/
def weight : CoreMessage → Nat
  | .aesKeyNegotiationRequest _ => 18
  | .aesKeyNegotiationReply _ => 8
  | .aesKeyDropNotification _ => 4
  | _ => 1

theorem weight_pos (core : CoreMessage) : 0 < weight core := by
  cases core <;> simp [weight]

/-- Two more than the weight each: a sent message has two stages before it is handled. -/
def cost (sent : List RSPMessage) : Nat :=
  (sent.map fun m => weight m.coreMessage + 2).sum

@[simp]
theorem cost_nil : cost [] = 0 := rfl

@[simp]
theorem cost_append (sent more : List RSPMessage) : cost (sent ++ more) = cost sent + cost more := by
  simp [cost]

@[simp]
theorem cost_singleton (m : RSPMessage) : cost [m] = weight m.coreMessage + 2 := by
  simp [cost]

def keyWeight (state : AesNegotiationState C) : Nat := 7 * state.activeByPeer.size

@[simp]
theorem weight_makeAesKeyNegotiationError (source destination : NodeID) (code : KeyNegotiationError)
    (keyId : Option Bytes) (text : String) :
    weight (makeAesKeyNegotiationError source destination code keyId text).coreMessage = 1 := rfl

@[simp]
theorem isAesNegotiation_makeAesKeyNegotiationError (source destination : NodeID) (code : KeyNegotiationError)
    (keyId : Option Bytes) (text : String) :
    (makeAesKeyNegotiationError source destination code keyId text).coreMessage.isAesNegotiation = true := rfl

theorem processExpiredAesKeys_sent {self : NodeID} {now : DateTime} {state : AesNegotiationState C} {m : RSPMessage}
    (h : m ∈ (state.processExpiredAesKeys self now).2) : m.coreMessage.isAesNegotiation = true := by
  obtain ⟨entry, -, rfl⟩ := List.mem_map.mp h
  rfl

theorem cost_processExpiredAesKeys (self : NodeID) (now : DateTime) (state : AesNegotiationState C) :
    cost (state.processExpiredAesKeys self now).2 + (state.processExpiredAesKeys self now).1.keyWeight ≤
      state.keyWeight := by
  have hsplit := List.length_eq_countP_add_countP
    (fun entry : NodeID × ActiveAesKey => decide (entry.2.expiresAt > now)) (l := state.activeByPeer.toList)
  simp only [List.countP_eq_length_filter, Std.TreeMap.length_toList] at hsplit
  have hcost : cost (state.processExpiredAesKeys self now).2 =
      6 * (state.activeByPeer.toList.filter fun entry => ¬ entry.2.expiresAt > now).length := by
    simp [cost, processExpiredAesKeys, Function.comp_def, makeAesKeyDropNotification, weight, Nat.mul_comm]
  have hsize : (state.processExpiredAesKeys self now).1.keyWeight =
      7 * (state.activeByPeer.toList.filter fun entry => entry.2.expiresAt > now).length := by
    simp only [keyWeight, processExpiredAesKeys, ← Std.TreeMap.length_toList, Std.TreeMap.toList_filter]
  rw [hcost, hsize, keyWeight, hsplit]
  simp only [decide_eq_true_eq]
  omega

@[simp]
theorem activeByPeer_erasePendingIf (peer : NodeID) (keyId : Bytes) (state : AesNegotiationState C) :
    (state.erasePendingIf peer keyId).activeByPeer = state.activeByPeer := by
  unfold erasePendingIf
  split
  · split_ifs <;> rfl
  · rfl

theorem size_eraseActiveIf_le (peer : NodeID) (keyId : Bytes) (state : AesNegotiationState C) :
    (state.eraseActiveIf peer keyId).activeByPeer.size ≤ state.activeByPeer.size := by
  unfold eraseActiveIf
  split
  · split_ifs
    · exact Std.TreeMap.size_erase_le
    · exact le_rfl
  · exact le_rfl

theorem size_handleAesKeyNegotiationError_le (sender : Option NodeID) (error : AesKeyNegotiationError)
    (state : AesNegotiationState C) :
    (state.handleAesKeyNegotiationError sender error).activeByPeer.size ≤ state.activeByPeer.size := by
  unfold handleAesKeyNegotiationError
  split
  · split_ifs
    · exact le_rfl
    · simpa using size_eraseActiveIf_le _ _ (state.erasePendingIf _ _)
    · simp
  · exact le_rfl

/-- What one handler may send and add to the active keys, for a message of the given weight. -/
structure PaidBy (budget : Nat) (state : AesNegotiationState C) (answered : AesNegotiationState C × List RSPMessage) :
    Prop where
  cost_lt : cost answered.2 + answered.1.keyWeight < budget + state.keyWeight
  negotiates : ∀ m ∈ answered.2, m.coreMessage.isAesNegotiation = true

theorem PaidBy.of_size {budget grown : Nat} {state state' : AesNegotiationState C} {sent : List RSPMessage}
    (hsize : state'.activeByPeer.size ≤ state.activeByPeer.size + grown) (hcost : cost sent + 7 * grown < budget)
    (hsent : ∀ m ∈ sent, m.coreMessage.isAesNegotiation = true) : PaidBy budget state (state', sent) := by
  refine ⟨?_, hsent⟩
  simp only [keyWeight]
  omega

theorem PaidBy.error {budget : Nat} (hbudget : 3 < budget) {state state' : AesNegotiationState C}
    (hsize : state'.activeByPeer.size ≤ state.activeByPeer.size) (source destination : NodeID)
    (code : KeyNegotiationError) (keyId : Option Bytes) (text : String) :
    PaidBy budget state (state', [makeAesKeyNegotiationError source destination code keyId text]) :=
  .of_size (show _ ≤ _ + 0 from hsize) (by simpa using hbudget) (by simp)

theorem PaidBy.silent {budget : Nat} (hbudget : 0 < budget) {state state' : AesNegotiationState C}
    (hsize : state'.activeByPeer.size ≤ state.activeByPeer.size) : PaidBy budget state (state', []) :=
  .of_size (show _ ≤ _ + 0 from hsize) (by simpa using hbudget) (by simp)

/-- The keys swept before a handler runs have paid for their notifications. -/
theorem PaidBy.afterSweep {budget : Nat} {self : NodeID} {now : DateTime} {state : AesNegotiationState C}
    {answered : AesNegotiationState C × List RSPMessage}
    (h : PaidBy budget (state.processExpiredAesKeys self now).1 answered) :
    PaidBy budget state (answered.1, (state.processExpiredAesKeys self now).2 ++ answered.2) := by
  have hsweep := cost_processExpiredAesKeys self now state
  have hcost := h.cost_lt
  refine ⟨by simp only [cost_append]; omega, fun m hm => ?_⟩
  rcases List.mem_append.mp hm with hm | hm
  · exact processExpiredAesKeys_sent hm
  · exact h.negotiates m hm

theorem acceptRequest_paid (ambient : Ambient) (self sender : NodeID) (keyId : Bytes)
    (request : AesKeyNegotiationRequest) (state : AesNegotiationState C) :
    PaidBy 18 state ((state.acceptRequest ambient self sender keyId request).1,
      [(state.acceptRequest ambient self sender keyId request).2]) := by
  unfold acceptRequest
  dsimp only
  split
  · exact .error (by simp) le_rfl ..
  · split
    · exact .error (by simp) le_rfl ..
    · split
      · exact .error (by simp) le_rfl ..
      · split
        · exact .of_size Std.TreeMap.size_insert_le (by simp) (by simp)
        · exact .of_size Std.TreeMap.size_insert_le (by simp [weight]) (by simp [CoreMessage.isAesNegotiation])

theorem handleAesKeyNegotiationRequest_paid (ambient : Ambient) (self sender : NodeID)
    (request : AesKeyNegotiationRequest) (state : AesNegotiationState C) :
    PaidBy 18 state ((state.handleAesKeyNegotiationRequest ambient self sender request).1,
      [(state.handleAesKeyNegotiationRequest ambient self sender request).2]) := by
  unfold handleAesKeyNegotiationRequest
  dsimp only
  split_ifs
  iterate 5 exact .error (by simp) le_rfl ..
  exact acceptRequest_paid ..

theorem acceptReply_paid (ambient : Ambient) (self sender : NodeID) (keyId : Bytes) (reply : AesKeyNegotiationReply)
    (pending : PendingAesNegotiation C) (state : AesNegotiationState C) :
    PaidBy 8 state ((state.acceptReply ambient self sender keyId reply pending).1,
      (state.acceptReply ambient self sender keyId reply pending).2.toList) := by
  unfold acceptReply
  dsimp only
  split
  · exact .error (by simp) le_rfl ..
  · split
    · refine .error (by simp) ?_ _ _ _ _ _
      exact le_rfl
    · exact .of_size Std.TreeMap.size_insert_le (by simp) (by simp)

theorem handleAesKeyNegotiationReply_paid (ambient : Ambient) (self sender : NodeID) (reply : AesKeyNegotiationReply)
    (state : AesNegotiationState C) :
    PaidBy 8 state ((state.handleAesKeyNegotiationReply ambient self sender reply).1,
      (state.handleAesKeyNegotiationReply ambient self sender reply).2.toList) := by
  unfold handleAesKeyNegotiationReply
  dsimp only
  split
  · exact .error (by simp) le_rfl ..
  · split
    · exact .error (by simp) le_rfl ..
    · split
      · exact .error (by simp) le_rfl ..
      · split
        · exact .error (by simp) le_rfl ..
        · split
          · refine .error (by simp) ?_ _ _ _ _ _
            exact le_rfl
          · exact acceptReply_paid ..

theorem handleAesKeyDropNotification_paid (self sender : NodeID) (drop : AesKeyDropNotification)
    (state : AesNegotiationState C) :
    PaidBy 4 state ((state.handleAesKeyDropNotification self sender drop).1,
      (state.handleAesKeyDropNotification self sender drop).2.toList) := by
  unfold handleAesKeyDropNotification
  dsimp only
  split_ifs
  · exact .error (by simp) le_rfl ..
  · have hsize := size_eraseActiveIf_le sender (drop.keyId.getD {}).value state
    rw [← activeByPeer_erasePendingIf sender (drop.keyId.getD {}).value] at hsize
    split
    · exact .error (by simp) hsize ..
    · split_ifs
      · exact .error (by simp) hsize ..
      · exact .silent (by simp) hsize

/-- **Key negotiation is paid for.** A handled message costs more than all it makes the node send, counting the active keys. -/
theorem handleAesNegotiationMessage_paid {ambient : Ambient} {self : NodeID} {m : RSPMessage}
    {state : AesNegotiationState C} {answered : AesNegotiationState C × List RSPMessage}
    (h : state.handleAesNegotiationMessage ambient self m = some answered) :
    PaidBy (weight m.coreMessage) state answered := by
  have hswept : PaidBy (weight m.coreMessage) state (state.processExpiredAesKeys self ambient.expiryNow) := by
    simpa using PaidBy.afterSweep (.silent (weight_pos m.coreMessage) le_rfl)
  unfold handleAesNegotiationMessage at h
  dsimp only at h
  cases hcore : m.coreMessage <;> rw [hcore] at h hswept <;> dsimp only at h
  case aesKeyNegotiationError error =>
    cases h
    simpa using PaidBy.afterSweep (.silent (by simp [weight]) (size_handleAesKeyNegotiationError_le ..))
  case aesKeyNegotiationRequest request =>
    cases hsender : senderNodeIdFromMessage m <;> rw [hsender] at h <;> cases h
    · exact hswept
    · exact (handleAesKeyNegotiationRequest_paid ..).afterSweep
  case aesKeyNegotiationReply reply =>
    cases hsender : senderNodeIdFromMessage m <;> rw [hsender] at h <;> cases h
    · exact hswept
    · exact (handleAesKeyNegotiationReply_paid ..).afterSweep
  case aesKeyDropNotification drop =>
    cases hsender : senderNodeIdFromMessage m <;> rw [hsender] at h <;> cases h
    · exact hswept
    · exact (handleAesKeyDropNotification_paid ..).afterSweep
  all_goals cases h

theorem handleAesNegotiationMessage_eq_none_iff {ambient : Ambient} {self : NodeID} {m : RSPMessage}
    {state : AesNegotiationState C} :
    state.handleAesNegotiationMessage ambient self m = none ↔ m.coreMessage.isAesNegotiation = false := by
  unfold handleAesNegotiationMessage
  dsimp only
  cases m.coreMessage <;> cases senderNodeIdFromMessage m <;> simp [CoreMessage.isAesNegotiation]

end AesNegotiationState

/-! ### The node -/

section

variable {C : Crypto} {σ : Type} {pb : Protobuf} {specific : RSPMessage → σ → Option (σ × List RSPMessage)}
  {ambient : Ambient} {m : RSPMessage} {node node' : RSPNode C} {own own' : σ} {sent : List RSPMessage}

namespace RSPNode

theorem enqueueInput_sent {now : DateTime} {notification : RSPMessage}
    (h : notification ∈ (node.enqueueInput now m).2) : notification.coreMessage.isAesNegotiation = true :=
  AesNegotiationState.processExpiredAesKeys_sent h

theorem cost_enqueueInput (now : DateTime) (m : RSPMessage) (node : RSPNode C) :
    AesNegotiationState.cost (node.enqueueInput now m).2 + (node.enqueueInput now m).1.aesNegotiation.keyWeight ≤
      node.aesNegotiation.keyWeight :=
  AesNegotiationState.cost_processExpiredAesKeys ..

end RSPNode

namespace NodeInputQueue

theorem handleBaseMessage_frame (h : handleBaseMessage pb ambient m node = .ok (node', sent)) :
    node'.nodeId = node.nodeId ∧ node'.keyPair = node.keyPair := by
  unfold handleBaseMessage at h
  split at h
  · split at h
    · split_ifs at h
      · cases h
        exact ⟨rfl, rfl⟩
      · obtain ⟨reply, -, h⟩ := bind_eq_ok.mp h
        cases h
        exact ⟨rfl, rfl⟩
    · cases h
      exact ⟨rfl, rfl⟩
  · cases h
    exact ⟨rfl, rfl⟩
  · split at h <;> cases h <;> exact ⟨rfl, rfl⟩

/-- Handling a message changes neither the key nor the NodeID of a node. -/
theorem handleMessage_frame (h : handleMessage pb specific ambient m node own = .ok (node', own', sent)) :
    node'.nodeId = node.nodeId ∧ node'.keyPair = node.keyPair := by
  unfold handleMessage at h
  split at h
  · split at h <;> cases h <;> exact ⟨rfl, rfl⟩
  · split at h <;> cases h <;> exact ⟨rfl, rfl⟩
  · split at h
    · cases h
      exact ⟨rfl, rfl⟩
    · obtain ⟨⟨base, baseSent⟩, hbase, h⟩ := bind_eq_ok.mp h
      cases h
      exact handleBaseMessage_frame hbase

theorem handleMessage_specific {answered : σ × List RSPMessage} (hspecific : specific m own = some answered)
    (hsubscribe : ∀ request, m.coreMessage ≠ .logSubscribeRequest request)
    (hunsubscribe : ∀ request, m.coreMessage ≠ .logUnsubscribeRequest request) :
    handleMessage pb specific ambient m node own = .ok (node, answered.1, answered.2) := by
  unfold handleMessage
  split
  · next request hcore => exact absurd hcore (hsubscribe request)
  · next request hcore => exact absurd hcore (hunsubscribe request)
  · rw [hspecific]

theorem handleMessage_aes (haes : m.coreMessage.isAesNegotiation = true) (hspecific : specific m own = none)
    (h : handleMessage pb specific ambient m node own = .ok (node', own', sent)) :
    own' = own ∧ AesNegotiationState.PaidBy (AesNegotiationState.weight m.coreMessage) node.aesNegotiation
      (node'.aesNegotiation, sent) := by
  cases hanswered : node.aesNegotiation.handleAesNegotiationMessage ambient node.nodeId m with
  | none => simp [AesNegotiationState.handleAesNegotiationMessage_eq_none_iff, haes] at hanswered
  | some answered =>
    have hpaid := AesNegotiationState.handleAesNegotiationMessage_paid hanswered
    cases hcore : m.coreMessage <;> simp only [hcore, CoreMessage.isAesNegotiation, reduceCtorEq] at haes
    all_goals
      simp only [handleMessage, handleBaseMessage, hcore, hspecific, hanswered, bind, Except.bind, pure,
        Except.pure] at h
      cases h
      rw [← hcore]
      exact ⟨rfl, hpaid⟩

end NodeInputQueue

end

end Rsp
