import Rsp.Dialogue.Machine
import Rsp.Node.Answers

/-!
# Dialogues that come to rest

A message is settled when nothing but key negotiation can follow from it: it is about key negotiation itself, the client takes it without an answer, or the resource manager drops it. Settled messages only ever lead to settled ones, and each step uses up some of the weight that they and the active keys have, so a dialogue of settled messages ends.
-/

namespace Rsp

open Proto AesNegotiationState

namespace Dialogue

variable {C : Crypto} {pb : Protobuf}

/-! ### Sending -/

theorem sign_eq_some {node : RSPNode C} {seed : Nat} {m signed : RSPMessage} (h : sign pb node seed m = some signed) :
    ∃ signature, signed = { m with signature := some signature } := by
  unfold sign at h
  split at h
  · cases h
  · cases h
    exact ⟨_, rfl⟩

theorem managerSends_eq_some {delivery : Delivery} {dialogue : Dialogue C} {m : RSPMessage}
    {entry : Place × RSPMessage} (h : managerSends pb delivery dialogue m = some entry) :
    entry.1 = .toClient ∧ entry.2.coreMessage = m.coreMessage ∧
      m.destination = some (toProtoNodeId dialogue.client.nodeId) ∧ entry.2.destination = m.destination := by
  unfold managerSends at h
  split_ifs at h with hdestination
  obtain ⟨signed, hsigned, rfl⟩ := Option.map_eq_some_iff.mp h
  obtain ⟨signature, rfl⟩ := sign_eq_some hsigned
  exact ⟨rfl, rfl, hdestination, rfl⟩

theorem clientSends_eq_some {delivery : Delivery} {dialogue : Dialogue C} {m : RSPMessage}
    {entry : Place × RSPMessage} (h : clientSends pb delivery dialogue m = some entry) :
    entry.1 = .toManager ∧ entry.2.coreMessage = m.coreMessage ∧ entry.2.destination = m.destination := by
  obtain ⟨signed, hsigned, rfl⟩ := Option.map_eq_some_iff.mp h
  obtain ⟨signature, rfl⟩ := sign_eq_some hsigned
  exact ⟨rfl, rfl, rfl⟩

/-! ### Settled messages -/

/-- The client takes the message without an answer, or only negotiates keys. -/
def clientSettles (core : CoreMessage) : Prop :=
  core.isAesNegotiation = true ∨ RSPClient.takesCoreMessage core = true

theorem clientSettles_ne_log {core : CoreMessage} (h : clientSettles core) :
    (∀ request, core ≠ .logSubscribeRequest request) ∧ ∀ request, core ≠ .logUnsubscribeRequest request := by
  constructor <;> rintro request rfl <;>
    simp [clientSettles, CoreMessage.isAesNegotiation, RSPClient.takesCoreMessage] at h

def Settled (managerId clientId : NodeID) : Place × RSPMessage → Prop
  | (.managerInput, m) => m.coreMessage.isAesNegotiation = true
  | (.toManager, m) => m.coreMessage.isAesNegotiation = true ∨
      ∃ destination, m.destination = some destination ∧ destination ≠ toProtoNodeId managerId ∧
        (destination = toProtoNodeId clientId → clientSettles m.coreMessage)
  | (.toClient, m) | (.clientInput, m) => clientSettles m.coreMessage

def AllSettled (dialogue : Dialogue C) : Prop :=
  ∀ entry ∈ dialogue.inFlight, Settled dialogue.manager.nodeId dialogue.client.nodeId entry

theorem settled_of_aes {managerId clientId : NodeID} {entry : Place × RSPMessage}
    (h : entry.2.coreMessage.isAesNegotiation = true) : Settled managerId clientId entry := by
  obtain ⟨place, m⟩ := entry
  cases place
  · exact .inl h
  · exact h
  · exact .inl h
  · exact .inl h

/-! ### Their weight -/

/-- The stages a message still has before it is handled, counting that the resource manager may forward it. -/
def Place.stages : Place → Nat
  | .toManager => 2
  | .toClient => 1
  | .managerInput | .clientInput => 0

def entryWeight (entry : Place × RSPMessage) : Nat := weight entry.2.coreMessage + Place.stages entry.1

def flightWeight (entries : List (Place × RSPMessage)) : Nat := (entries.map entryWeight).sum

def totalWeight (dialogue : Dialogue C) : Nat :=
  flightWeight dialogue.inFlight + dialogue.manager.aesNegotiation.keyWeight +
    dialogue.client.aesNegotiation.keyWeight

@[simp]
theorem flightWeight_append (entries more : List (Place × RSPMessage)) :
    flightWeight (entries ++ more) = flightWeight entries + flightWeight more := by
  simp [flightWeight]

@[simp]
theorem flightWeight_singleton (entry : Place × RSPMessage) : flightWeight [entry] = entryWeight entry := by
  simp [flightWeight]

theorem flightWeight_eraseIdx {entries : List (Place × RSPMessage)} {index : Nat} {entry : Place × RSPMessage}
    (h : entries[index]? = some entry) :
    flightWeight entries = entryWeight entry + flightWeight (entries.eraseIdx index) := by
  obtain ⟨hlt, rfl⟩ := List.getElem?_eq_some_iff.mp h
  have hperm := (List.getElem_cons_eraseIdx_perm hlt).map entryWeight
  simpa [flightWeight] using hperm.sum_eq.symm

/-- What is sent weighs at most its cost, whatever of it is dropped. -/
theorem flightWeight_filterMap_le {send : RSPMessage → Option (Place × RSPMessage)}
    (hsend : ∀ m entry, send m = some entry → entry.2.coreMessage = m.coreMessage) (sent : List RSPMessage) :
    flightWeight (sent.filterMap send) ≤ cost sent := by
  induction sent with
  | nil => simp [flightWeight]
  | cons m sent ih =>
    have hcost : cost (m :: sent) = weight m.coreMessage + 2 + cost sent := by simp [cost]
    rw [hcost]
    cases hm : send m with
    | none =>
      rw [List.filterMap_cons_none hm]
      omega
    | some entry =>
      have hentry : entryWeight entry ≤ weight m.coreMessage + 2 := by
        rw [entryWeight, hsend m entry hm]
        cases entry.1 <;> simp [Place.stages]
      rw [List.filterMap_cons_some hm, ← List.singleton_append, flightWeight_append, flightWeight_singleton]
      omega

theorem flightWeight_managerSends_le (pb : Protobuf) (delivery : Delivery) (dialogue : Dialogue C) (sent : List RSPMessage) :
    flightWeight (sent.filterMap (managerSends pb delivery dialogue)) ≤ cost sent :=
  flightWeight_filterMap_le (fun _ _ h => (managerSends_eq_some h).2.1) sent

theorem flightWeight_clientSends_le (pb : Protobuf) (delivery : Delivery) (dialogue : Dialogue C) (sent : List RSPMessage) :
    flightWeight (sent.filterMap (clientSends pb delivery dialogue)) ≤ cost sent :=
  flightWeight_filterMap_le (fun _ _ h => (clientSends_eq_some h).2.1) sent

/-! ### Steps -/

/-- The step of a settled message leaves only settled ones, and less weight. -/
structure Settles (entry : Place × RSPMessage) (dialogue dialogue' : Dialogue C) : Prop where
  allSettled : AllSettled dialogue'
  totalWeight_lt : totalWeight dialogue' < totalWeight dialogue + entryWeight entry

variable {delivery : Delivery} {m : RSPMessage} {dialogue dialogue' : Dialogue C}

theorem arriveAtManager_settles (hall : AllSettled dialogue)
    (h : Settled dialogue.manager.nodeId dialogue.client.nodeId (.toManager, m)) :
    Settles (.toManager, m) dialogue (dialogue.arriveAtManager pb delivery m) := by
  unfold arriveAtManager
  split_ifs with hlocal hclient
  · -- only key negotiation is both settled and for the resource manager itself
    have haes : m.coreMessage.isAesNegotiation = true := by
      rcases h with haes | ⟨destination, hdestination, hne, -⟩
      · exact haes
      · simp [hdestination, hne] at hlocal
    refine ⟨fun entry hentry => ?_, ?_⟩
    · simp only [List.mem_append, List.mem_filterMap, List.mem_singleton] at hentry
      rcases hentry with (hentry | ⟨sent, hsent, hentry⟩) | rfl
      · exact hall entry hentry
      · exact settled_of_aes ((managerSends_eq_some hentry).2.1 ▸ RSPNode.enqueueInput_sent hsent)
      · exact haes
    · have hcost := RSPNode.cost_enqueueInput delivery.enqueueNow m dialogue.manager
      have hsent := flightWeight_managerSends_le pb delivery dialogue
        (dialogue.manager.enqueueInput delivery.enqueueNow m).2
      simp only [totalWeight, flightWeight_append, flightWeight_singleton, entryWeight, Place.stages]
      omega
  · refine ⟨fun entry hentry => ?_, ?_⟩
    · rcases List.mem_append.mp hentry with hentry | hentry
      · exact hall entry hentry
      · rw [List.mem_singleton.mp hentry]
        rcases h with haes | ⟨destination, hdestination, -, hsettles⟩
        · exact .inl haes
        · exact hsettles (Option.some.inj (hdestination.symm.trans hclient))
    · simp only [totalWeight, flightWeight_append, flightWeight_singleton, entryWeight, Place.stages,
        RSPNode.observeMessage]
      omega
  · have hweight := weight_pos m.coreMessage
    split
    · refine ⟨hall, ?_⟩
      simp only [totalWeight, entryWeight, RSPNode.observeMessage]
      omega
    · refine ⟨hall, ?_⟩
      simp only [totalWeight, entryWeight, RSPNode.observeMessage]
      omega

theorem arriveAtClient_settles (hall : AllSettled dialogue) (h : clientSettles m.coreMessage) :
    Settles (.toClient, m) dialogue (dialogue.arriveAtClient pb delivery m) := by
  unfold arriveAtClient
  split_ifs
  · refine ⟨fun entry hentry => ?_, ?_⟩
    · simp only [List.mem_append, List.mem_filterMap, List.mem_singleton] at hentry
      rcases hentry with (hentry | ⟨sent, hsent, hentry⟩) | rfl
      · exact hall entry hentry
      · exact settled_of_aes ((clientSends_eq_some hentry).2.1 ▸ RSPNode.enqueueInput_sent hsent)
      · exact h
    · have hcost := RSPNode.cost_enqueueInput delivery.enqueueNow m dialogue.client
      have hsent := flightWeight_clientSends_le pb delivery dialogue
        (dialogue.client.enqueueInput delivery.enqueueNow m).2
      simp only [totalWeight, flightWeight_append, flightWeight_singleton, entryWeight, Place.stages]
      omega
  · exact ⟨hall, by simp [entryWeight, Place.stages]⟩

theorem handleAtManager_settles (hall : AllSettled dialogue) (haes : m.coreMessage.isAesNegotiation = true)
    (h : dialogue.handleAtManager pb delivery m = .ok dialogue') :
    Settles (.managerInput, m) dialogue dialogue' := by
  obtain ⟨⟨manager, directory, sent⟩, hhandled, h⟩ := bind_eq_ok.mp h
  cases h
  have hspecific : Directory.handleNodeSpecificMessage m dialogue.directory = none := by
    cases hcore : m.coreMessage <;> simp [hcore, CoreMessage.isAesNegotiation] at haes <;>
      simp [Directory.handleNodeSpecificMessage, hcore]
  obtain ⟨-, hpaid⟩ := NodeInputQueue.handleMessage_aes haes hspecific hhandled
  have hframe := NodeInputQueue.handleMessage_frame hhandled
  refine ⟨fun entry hentry => ?_, ?_⟩
  · simp only [List.mem_append, List.mem_filterMap] at hentry
    rw [hframe.1]
    rcases hentry with hentry | ⟨answer, hanswer, hentry⟩
    · exact hall entry hentry
    · exact settled_of_aes ((managerSends_eq_some hentry).2.1 ▸ hpaid.negotiates answer hanswer)
  · have hcost := hpaid.cost_lt
    dsimp only at hcost
    have hsent := flightWeight_managerSends_le pb delivery dialogue sent
    simp only [totalWeight, flightWeight_append, entryWeight, Place.stages]
    omega

theorem handleAtClient_settles (hall : AllSettled dialogue) (hsettles : clientSettles m.coreMessage)
    (h : dialogue.handleAtClient pb delivery m = .ok dialogue') :
    Settles (.clientInput, m) dialogue dialogue' := by
  obtain ⟨⟨client, _, sent⟩, hhandled, h⟩ := bind_eq_ok.mp h
  cases h
  by_cases htakes : RSPClient.takesMessage m = true
  · have hspecific : RSPClient.handleNodeSpecificMessage m () = some ((), []) := by
      simp [RSPClient.handleNodeSpecificMessage, htakes]
    have hsilent : NodeInputQueue.handleMessage pb RSPClient.handleNodeSpecificMessage delivery.ambient m
        dialogue.client () = .ok (dialogue.client, (), []) :=
      NodeInputQueue.handleMessage_specific hspecific (clientSettles_ne_log hsettles).1
        (clientSettles_ne_log hsettles).2
    cases hhandled.symm.trans hsilent
    have hweight := weight_pos m.coreMessage
    refine ⟨by simpa [AllSettled] using hall, ?_⟩
    simp only [totalWeight, entryWeight, List.filterMap_nil, List.append_nil]
    omega
  · have hspecific : RSPClient.handleNodeSpecificMessage m () = none := by
      simp [RSPClient.handleNodeSpecificMessage, htakes]
    have haes : m.coreMessage.isAesNegotiation = true :=
      hsettles.resolve_right fun htakesCore => htakes (by simp [RSPClient.takesMessage, htakesCore])
    obtain ⟨-, hpaid⟩ := NodeInputQueue.handleMessage_aes haes hspecific hhandled
    have hframe := NodeInputQueue.handleMessage_frame hhandled
    refine ⟨fun entry hentry => ?_, ?_⟩
    · simp only [List.mem_append, List.mem_filterMap] at hentry
      rw [hframe.1]
      rcases hentry with hentry | ⟨answer, hanswer, hentry⟩
      · exact hall entry hentry
      · exact settled_of_aes ((clientSends_eq_some hentry).2.1 ▸ hpaid.negotiates answer hanswer)
    · have hcost := hpaid.cost_lt
      dsimp only at hcost
      have hsent := flightWeight_clientSends_le pb delivery dialogue sent
      simp only [totalWeight, flightWeight_append, entryWeight, Place.stages]
      omega

theorem advance_settles {place : Place} (hall : AllSettled dialogue)
    (hsettled : Settled dialogue.manager.nodeId dialogue.client.nodeId (place, m))
    (h : advance pb delivery m dialogue place = .ok dialogue') : Settles (place, m) dialogue dialogue' := by
  cases place with
  | toManager =>
    cases h
    exact arriveAtManager_settles hall hsettled
  | managerInput => exact handleAtManager_settles hall hsettled h
  | toClient =>
    cases h
    exact arriveAtClient_settles hall hsettled
  | clientInput => exact handleAtClient_settles hall hsettled h

theorem next_eq_some (h : dialogue.next pb delivery = some dialogue') :
    ∃ place m, dialogue.inFlight[delivery.index]? = some (place, m) ∧
      advance pb delivery m { dialogue with inFlight := dialogue.inFlight.eraseIdx delivery.index } place =
        .ok dialogue' := by
  unfold next at h
  split at h
  · cases h
  · next place m hentry =>
    refine ⟨place, m, hentry, ?_⟩
    generalize advance pb delivery m _ place = result at h
    cases result with
    | error fault => cases h
    | ok taken =>
      cases h
      rfl

theorem next_settles (hall : AllSettled dialogue) (h : dialogue.next pb delivery = some dialogue') :
    AllSettled dialogue' ∧ totalWeight dialogue' < totalWeight dialogue := by
  obtain ⟨place, m, hentry, hadvance⟩ := next_eq_some h
  have hrest : AllSettled { dialogue with inFlight := dialogue.inFlight.eraseIdx delivery.index } :=
    fun entry hentry => hall entry (List.mem_of_mem_eraseIdx hentry)
  have hsettles := advance_settles hrest (hall _ (List.mem_of_getElem? hentry)) hadvance
  have hweight := hsettles.totalWeight_lt
  have hsplit := flightWeight_eraseIdx hentry
  simp only [totalWeight] at hweight ⊢
  exact ⟨hsettles.allSettled, by omega⟩

/-- **Settled dialogues end.** From settled messages there is no infinite run. -/
theorem AllSettled.not_isInfiniteRun (h : AllSettled dialogue) (states : Nat → Dialogue C)
    (deliveries : Nat → Delivery) : ¬ (machine pb C).IsInfiniteRun dialogue states deliveries :=
  Machine.not_isInfiniteRun_of_measure (I := AllSettled) (fun _ _ _ hall hnext => next_settles hall hnext) h states
    deliveries

end Dialogue

end Rsp
