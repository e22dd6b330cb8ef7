import Rsp.Dialogue.Loops

/-!
# Which messages start an endless dialogue

Once an answer goes to a node that has no handler for it, the two nodes exchange errors forever: the error that comes back has no handler either, and its signature names a sender to answer to. Together with the settled dialogues this decides, for every message, whether the dialogue it starts ends.
-/

namespace Rsp

open Proto

namespace NodeInputQueue

section

variable {C : Crypto} {σ : Type} {pb : Protobuf} {specific : RSPMessage → σ → Option (σ × List RSPMessage)}
  {ambient : Ambient} {m answer : RSPMessage} {node node' : RSPNode C} {own own' : σ} {sent : List RSPMessage}

/-- The messages that are answers; no handler of a node answers one of them. -/
def isReply : CoreMessage → Bool
  | .notSet | .identity _ | .error _ | .pingReply _ | .schemaReply _ | .resourceQueryReply _ | .logSubscribeReply _
  | .logUnsubscribeReply _ => true
  | _ => false

/-- An answer as the nodes build it, before it is signed. -/
structure IsPlainReply (m : RSPMessage) : Prop where
  source : m.source = none
  serviceMessage : m.serviceMessage = none
  isReply : isReply m.coreMessage = true

theorem handleBaseMessage_plainReply (h : handleBaseMessage pb ambient m node = .ok (node', sent))
    (hanswer : answer ∈ sent) : answer.coreMessage.isAesNegotiation = true ∨ IsPlainReply answer := by
  unfold handleBaseMessage at h
  split at h
  · split at h
    · split_ifs at h
      · cases h
        cases hanswer
      · obtain ⟨reply, hreply, h⟩ := bind_eq_ok.mp h
        cases h
        obtain ⟨-, hsource, hservice, identity, hidentity⟩ := identityReply_ok hreply
        rw [List.mem_singleton.mp hanswer]
        exact .inr ⟨hsource, hservice, by rw [hidentity]; rfl⟩
    · cases h
      cases hanswer
  · cases h
    rw [List.mem_singleton.mp hanswer]
    exact .inr ⟨rfl, rfl, rfl⟩
  · split at h
    · next hanswered =>
      cases h
      exact .inl ((AesNegotiationState.handleAesNegotiationMessage_paid hanswered).negotiates answer hanswer)
    · cases h
      rw [List.mem_singleton.mp hanswer]
      exact .inr ⟨rfl, rfl, rfl⟩

/-- Outside the key negotiation, a node only sends plain replies. -/
theorem handleMessage_plainReply
    (hspecific : ∀ answered, specific m own = some answered → ∀ answer ∈ answered.2, IsPlainReply answer)
    (h : handleMessage pb specific ambient m node own = .ok (node', own', sent)) (hanswer : answer ∈ sent) :
    answer.coreMessage.isAesNegotiation = true ∨ IsPlainReply answer := by
  unfold handleMessage at h
  split at h
  · split at h <;> cases h
    · cases hanswer
    · rw [List.mem_singleton.mp hanswer]
      exact .inr ⟨rfl, rfl, rfl⟩
  · split at h <;> cases h
    · cases hanswer
    · rw [List.mem_singleton.mp hanswer]
      exact .inr ⟨rfl, rfl, rfl⟩
  · split at h
    · next answered hanswered =>
      cases h
      exact .inr (hspecific _ hanswered answer hanswer)
    · obtain ⟨⟨base, baseSent⟩, hbase, h⟩ := bind_eq_ok.mp h
      cases h
      exact handleBaseMessage_plainReply hbase hanswer

theorem replyDestination_of_source_eq_none (h : m.source = none) :
    replyDestination m = (senderNodeIdFromMessage m).map toProtoNodeId := by
  simp [replyDestination, h]

/-- Replies can always be signed: only the hash of an `EndorsementNeeded` can fail. -/
theorem signMessage_isOk (hC : C.RoundTrips) {keyPair : KeyPair C} {id : NodeID}
    (hprivate : keyPair.hasPrivateKey = true) (hid : keyPair.nodeID = .ok id) (pb : Protobuf) (seed : Nat)
    {m : RSPMessage} (hcore : isReply m.coreMessage = true) :
    ∃ block, signMessage pb keyPair seed m = .ok block ∧ block.signer = some ⟨id.toBigEndian⟩ := by
  obtain ⟨_, _, _, -, -, -, hsign⟩ := KeyPair.signBlock_verifies hC hprivate
  have hhash : ∃ stream, hashRSPMessage pb m = .ok stream := by
    cases h : m.coreMessage <;> rw [h] at hcore <;> cases hcore <;>
      simp [hashRSPMessage, hashCoreBeforeTrace, h, bind, Except.bind, pure, Except.pure]
  obtain ⟨stream, hstream⟩ := hhash
  obtain ⟨block, hblock, -⟩ := hsign seed (C.sha256 stream)
  refine ⟨block, ?_, ?_⟩
  · simpa [signMessage, computeMessageHash, hstream, bind, Except.bind, pure, Except.pure] using hblock
  · obtain ⟨signature, -, hblock⟩ := bind_eq_ok.mp hblock
    rw [hid] at hblock
    cases hblock
    rfl

theorem identityReply_isOk (hC : C.RoundTrips) (hprivate : node.keyPair.hasPrivateKey = true) (pb : Protobuf)
    (seed : Nat) (requester : NodeID) (m : RSPMessage) (nonce : Uuid) :
    ∃ reply, identityReply pb seed node requester m nonce = .ok reply := by
  obtain ⟨publicKey, _, _, hpublicKey, -⟩ := KeyPair.signBlock_verifies hC hprivate
  obtain ⟨block, hblock, -⟩ := signMessage_isOk hC hprivate node.nodeID_keyPair pb seed
    (m := { destination := some (toProtoNodeId requester), trace := m.trace,
            coreMessage := .identity
              { nonce := some nonce, publicKey := some publicKey, bootId := some node.bootId } }) rfl
  simp [identityReply, hpublicKey, hblock, bind, Except.bind, pure, Except.pure]

/-- A node that can sign handles every message. -/
theorem handleMessage_isOk (hC : C.RoundTrips) (hprivate : node.keyPair.hasPrivateKey = true) (pb : Protobuf)
    (specific : RSPMessage → σ → Option (σ × List RSPMessage)) (ambient : Ambient) (m : RSPMessage) (own : σ) :
    ∃ handled, handleMessage pb specific ambient m node own = .ok handled := by
  have hbase : ∃ handled, handleBaseMessage pb ambient m node = .ok handled := by
    unfold handleBaseMessage
    split
    · split
      · split_ifs
        · exact ⟨_, rfl⟩
        · next requester nonce _ _ _ =>
          obtain ⟨reply, hreply⟩ := identityReply_isOk hC hprivate pb ambient.signSeed requester m nonce
          exact ⟨(node, [reply]), by simp [hreply, bind, Except.bind, pure, Except.pure]⟩
      · exact ⟨_, rfl⟩
    · exact ⟨_, rfl⟩
    · split <;> exact ⟨_, rfl⟩
  obtain ⟨⟨base, sent⟩, hbase⟩ := hbase
  unfold handleMessage
  split
  · split <;> exact ⟨_, rfl⟩
  · split <;> exact ⟨_, rfl⟩
  · split
    · exact ⟨_, rfl⟩
    · exact ⟨(base, own, sent), by simp [hbase, bind, Except.bind, pure, Except.pure]⟩

end

end NodeInputQueue

namespace Dialogue

open NodeInputQueue

variable {C : Crypto} {pb : Protobuf}

/-! ### Signing -/

theorem sign_isSome (hC : C.RoundTrips) {node : RSPNode C} (hprivate : node.keyPair.hasPrivateKey = true) (seed : Nat)
    {m : RSPMessage} (hcore : isReply m.coreMessage = true) (hsource : m.source = none) :
    ∃ signature, sign pb node seed m = some { m with signature := some signature } ∧
      replyDestination { m with signature := some signature } = some (toProtoNodeId node.nodeId) := by
  obtain ⟨block, hblock, hsigner⟩ := signMessage_isOk hC hprivate node.nodeID_keyPair pb seed hcore
  refine ⟨block, by simp [sign, hblock], ?_⟩
  have hsender := senderNodeIdFromMessage_of_signer (m := { m with signature := some block }) rfl hsigner
    (GUID.ofBigEndian_toBigEndian node.nodeId)
  refine (replyDestination_of_source_eq_none ?_).trans ?_
  · exact hsource
  · rw [hsender]
    rfl

/-! ### Messages that bounce -/

def BouncesAtManager (clientId : NodeID) (m : RSPMessage) : Prop :=
  isReply m.coreMessage = true ∧ replyDestination m = some (toProtoNodeId clientId)

def BouncesAtClient (managerId clientId : NodeID) (m : RSPMessage) : Prop :=
  isReply m.coreMessage = true ∧ m.serviceMessage = none ∧ ¬ clientSettles m.coreMessage ∧
    (replyDestination m = some (toProtoNodeId managerId) ∨ replyDestination m = some (toProtoNodeId clientId))

/-- The message is answered with an error that is answered with an error. -/
def Bouncing (managerId clientId : NodeID) : Place × RSPMessage → Prop
  | (.toManager, m) =>
    if m.destination.all (· = toProtoNodeId managerId) then BouncesAtManager clientId m
    else m.destination = some (toProtoNodeId clientId) ∧ BouncesAtClient managerId clientId m
  | (.managerInput, m) => BouncesAtManager clientId m
  | (.toClient, m) => m.destination = some (toProtoNodeId clientId) ∧ BouncesAtClient managerId clientId m
  | (.clientInput, m) => BouncesAtClient managerId clientId m

/-- A message whose step leaves a bouncing one. -/
def StartsBouncing (dialogue : Dialogue C) : Place × RSPMessage → Prop
  | (.managerInput, m) => managerStartsLoop dialogue.client.nodeId dialogue.directory m
  | (.clientInput, m) => clientStartsLoop dialogue.manager.nodeId dialogue.client.nodeId m
  | entry => Bouncing dialogue.manager.nodeId dialogue.client.nodeId entry

theorem Bouncing.startsBouncing {dialogue : Dialogue C} {entry : Place × RSPMessage}
    (h : Bouncing dialogue.manager.nodeId dialogue.client.nodeId entry) : StartsBouncing dialogue entry := by
  obtain ⟨place, m⟩ := entry
  cases place with
  | toManager | toClient => exact h
  | managerInput =>
    obtain ⟨hreply, hdestination⟩ := h
    cases hcore : m.coreMessage <;> rw [hcore] at hreply <;> cases hreply <;>
      simp [StartsBouncing, managerStartsLoop, hcore, hdestination, unsupportedByNode]
  | clientInput =>
    obtain ⟨hreply, hservice, hunsettled, hdestination⟩ := h
    have htakes : RSPClient.takesMessage m = false := by
      simp only [clientSettles, not_or, Bool.not_eq_true] at hunsettled
      simp [RSPClient.takesMessage, RSPClient.isNameServiceReply, RSPClient.hasServiceMessage, hservice, hunsettled.2]
    have hdestination : clientStartsLoop.reachesManager dialogue.manager.nodeId (replyDestination m) ∨
        replyDestination m = some (toProtoNodeId dialogue.client.nodeId) :=
      hdestination.imp_left fun h => by simp [h, clientStartsLoop.reachesManager]
    cases hcore : m.coreMessage <;> rw [hcore] at hreply <;> cases hreply <;>
      simp [StartsBouncing, clientStartsLoop, hcore, htakes, hdestination, unsupportedByNode]

/-! ### Bouncing goes on -/

/-- Both nodes hold their private keys. -/
structure CanSign (dialogue : Dialogue C) : Prop where
  manager : dialogue.manager.keyPair.hasPrivateKey = true
  client : dialogue.client.keyPair.hasPrivateKey = true

theorem managerSends_bouncing (hC : C.RoundTrips) {dialogue : Dialogue C} (hsign : dialogue.CanSign)
    (delivery : Delivery) {answer : RSPMessage} (hplain : IsPlainReply answer)
    (hdestination : answer.destination = some (toProtoNodeId dialogue.client.nodeId))
    (hunsettled : ¬ clientSettles answer.coreMessage) :
    ∃ entry, managerSends pb delivery dialogue answer = some entry ∧
      Bouncing dialogue.manager.nodeId dialogue.client.nodeId entry := by
  obtain ⟨signature, hsigned, hreply⟩ :=
    sign_isSome hC hsign.manager (delivery.signSeed answer) hplain.isReply hplain.source
  refine ⟨_, by rw [managerSends, if_pos hdestination, hsigned]; rfl, ?_⟩
  exact ⟨hdestination, hplain.isReply, hplain.serviceMessage, hunsettled, .inl hreply⟩

theorem clientSends_bouncing (hC : C.RoundTrips) {dialogue : Dialogue C} (hsign : dialogue.CanSign)
    (delivery : Delivery) {answer : RSPMessage} (hplain : IsPlainReply answer)
    (hunsettled : ¬ Settled dialogue.manager.nodeId dialogue.client.nodeId (.toManager, answer)) :
    ∃ entry, clientSends pb delivery dialogue answer = some entry ∧
      Bouncing dialogue.manager.nodeId dialogue.client.nodeId entry := by
  obtain ⟨signature, hsigned, hreply⟩ := sign_isSome hC hsign.client (delivery.signSeed answer)
    (m := RSPClient.prepareOutboundMessage (delivery.nonce answer) answer) hplain.isReply hplain.source
  refine ⟨_, by rw [clientSends, hsigned]; rfl, ?_⟩
  unfold Bouncing
  dsimp only
  split_ifs with hmanager
  · exact ⟨hplain.isReply, hreply⟩
  · obtain ⟨hdestination, hunsettled⟩ := (not_settled_iff.mp hunsettled).2.resolve_left hmanager
    exact ⟨hdestination, hplain.isReply, hplain.serviceMessage, hunsettled, .inr hreply⟩

/-- What every step of a dialogue between nodes that can sign does: it sends something more, and if the message started to bounce, something that bounces. -/
structure GoesOn (entry : Place × RSPMessage) (dialogue dialogue' : Dialogue C) : Prop where
  canSign : dialogue'.CanSign
  manager : dialogue'.manager.nodeId = dialogue.manager.nodeId
  client : dialogue'.client.nodeId = dialogue.client.nodeId
  inFlight : ∃ sent, dialogue'.inFlight = dialogue.inFlight ++ sent ∧ (StartsBouncing dialogue entry →
    ∃ bouncing ∈ sent, Bouncing dialogue.manager.nodeId dialogue.client.nodeId bouncing)

theorem handleNodeSpecificMessage_plainReply {m : RSPMessage} {directory : Directory}
    {answered : Directory × List RSPMessage}
    (h : Directory.handleNodeSpecificMessage m directory = some answered) {answer : RSPMessage}
    (hanswer : answer ∈ answered.2) : IsPlainReply answer := by
  unfold Directory.handleNodeSpecificMessage at h
  split at h <;> cases h
  · cases hanswer
  · rw [List.mem_singleton.mp hanswer]
    exact ⟨rfl, rfl, rfl⟩
  · next query _ _ _ =>
    rw [List.mem_singleton.mp hanswer]
    refine ⟨rfl, rfl, ?_⟩
    simp only [Directory.answerResourceQuery]
    split
    · rfl
    · split <;> rfl

variable {delivery : Delivery} {m : RSPMessage} {dialogue : Dialogue C}

theorem handleAtManager_goesOn (hC : C.RoundTrips) (hsign : dialogue.CanSign) :
    ∃ dialogue', dialogue.handleAtManager pb delivery m = .ok dialogue' ∧
      GoesOn (.managerInput, m) dialogue dialogue' := by
  obtain ⟨⟨manager, directory, sent⟩, hhandled⟩ := handleMessage_isOk hC hsign.manager pb
    Directory.handleNodeSpecificMessage delivery.ambient m dialogue.directory
  have hframe := handleMessage_frame hhandled
  have hok : dialogue.handleAtManager pb delivery m = .ok { dialogue with
      manager
      directory
      inFlight := dialogue.inFlight ++ sent.filterMap (managerSends pb delivery dialogue) } := by
    rw [handleAtManager, hhandled]
    rfl
  refine ⟨_, hok, ⟨hframe.2.symm ▸ hsign.manager, hsign.client⟩, hframe.1, rfl, _, rfl, fun hstarts => ?_⟩
  obtain ⟨answer, hanswer, hdestination, hunsettled⟩ := (manager_answers_iff hhandled).mpr hstarts
  have hplain := (handleMessage_plainReply (fun _ h _ => handleNodeSpecificMessage_plainReply h) hhandled
    hanswer).resolve_left fun haes => hunsettled (.inl haes)
  obtain ⟨entry, hentry, hbouncing⟩ := managerSends_bouncing hC hsign delivery hplain hdestination hunsettled
  exact ⟨entry, List.mem_filterMap.mpr ⟨answer, hanswer, hentry⟩, hbouncing⟩

theorem handleAtClient_goesOn (hC : C.RoundTrips) (hsign : dialogue.CanSign) :
    ∃ dialogue', dialogue.handleAtClient pb delivery m = .ok dialogue' ∧
      GoesOn (.clientInput, m) dialogue dialogue' := by
  obtain ⟨⟨client, _, sent⟩, hhandled⟩ := handleMessage_isOk hC hsign.client pb
    RSPClient.handleNodeSpecificMessage delivery.ambient m ()
  have hframe := handleMessage_frame hhandled
  have hok : dialogue.handleAtClient pb delivery m = .ok { dialogue with
      client
      inFlight := dialogue.inFlight ++ sent.filterMap (clientSends pb delivery dialogue) } := by
    rw [handleAtClient, hhandled]
    rfl
  refine ⟨_, hok, ⟨hsign.manager, hframe.2.symm ▸ hsign.client⟩, rfl, hframe.1, _, rfl, fun hstarts => ?_⟩
  obtain ⟨answer, hanswer, hunsettled⟩ := (client_answers_iff hhandled).mpr hstarts
  have hspecific : ∀ answered, RSPClient.handleNodeSpecificMessage m () = some answered →
      ∀ answer ∈ answered.2, IsPlainReply answer := by
    intro answered hanswered answer hanswer
    simp only [RSPClient.handleNodeSpecificMessage] at hanswered
    split_ifs at hanswered
    cases hanswered
    cases hanswer
  have hplain := (handleMessage_plainReply hspecific hhandled hanswer).resolve_left fun haes =>
    hunsettled (settled_of_aes haes)
  obtain ⟨entry, hentry, hbouncing⟩ := clientSends_bouncing hC hsign delivery hplain hunsettled
  exact ⟨entry, List.mem_filterMap.mpr ⟨answer, hanswer, hentry⟩, hbouncing⟩

theorem arriveAtManager_goesOn (hsign : dialogue.CanSign) :
    GoesOn (.toManager, m) dialogue (dialogue.arriveAtManager pb delivery m) := by
  unfold arriveAtManager
  split_ifs with hlocal hclient
  · refine ⟨⟨hsign.manager, hsign.client⟩, rfl, rfl, _, List.append_assoc .., fun hbouncing => ?_⟩
    simp only [StartsBouncing, Bouncing, if_pos hlocal] at hbouncing
    exact ⟨_, List.mem_append_right _ (List.mem_singleton_self _), hbouncing⟩
  · refine ⟨⟨hsign.manager, hsign.client⟩, rfl, rfl, _, rfl, fun hbouncing => ?_⟩
    simp only [StartsBouncing, Bouncing, if_neg hlocal] at hbouncing
    exact ⟨_, List.mem_singleton_self _, hbouncing⟩
  · have hsilent : ¬ StartsBouncing dialogue (.toManager, m) := by
      simp [StartsBouncing, Bouncing, hlocal, hclient]
    split <;> exact ⟨⟨hsign.manager, hsign.client⟩, rfl, rfl, [], by simp, fun h => absurd h hsilent⟩

theorem arriveAtClient_goesOn (hsign : dialogue.CanSign) :
    GoesOn (.toClient, m) dialogue (dialogue.arriveAtClient pb delivery m) := by
  unfold arriveAtClient
  split_ifs with hlocal
  · refine ⟨⟨hsign.manager, hsign.client⟩, rfl, rfl, _, List.append_assoc .., fun hbouncing => ?_⟩
    exact ⟨_, List.mem_append_right _ (List.mem_singleton_self _), hbouncing.2⟩
  · refine ⟨hsign, rfl, rfl, [], by simp, fun hbouncing => absurd ?_ hlocal⟩
    simp [RSPClient.shouldHandleLocally, hbouncing.1]

theorem advance_goesOn (hC : C.RoundTrips) (hsign : dialogue.CanSign) (pb : Protobuf) (delivery : Delivery)
    (m : RSPMessage) (place : Place) :
    ∃ dialogue', advance pb delivery m dialogue place = .ok dialogue' ∧ GoesOn (place, m) dialogue dialogue' := by
  cases place with
  | toManager => exact ⟨_, rfl, arriveAtManager_goesOn hsign⟩
  | managerInput => exact handleAtManager_goesOn hC hsign
  | toClient => exact ⟨_, rfl, arriveAtClient_goesOn hsign⟩
  | clientInput => exact handleAtClient_goesOn hC hsign

/-- The next message starts to bounce, or one behind it bounces. -/
structure Looping (dialogue : Dialogue C) : Prop where
  canSign : dialogue.CanSign
  bounces : ∃ entry rest, dialogue.inFlight = entry :: rest ∧ (StartsBouncing dialogue entry ∨
    ∃ bouncing ∈ rest, Bouncing dialogue.manager.nodeId dialogue.client.nodeId bouncing)

theorem Looping.of_bouncing (hsign : dialogue.CanSign) {entry : Place × RSPMessage} (hentry : entry ∈ dialogue.inFlight)
    (hbouncing : Bouncing dialogue.manager.nodeId dialogue.client.nodeId entry) : Looping dialogue := by
  cases hflight : dialogue.inFlight with
  | nil => simp [hflight] at hentry
  | cons first rest =>
    rw [hflight, List.mem_cons] at hentry
    rcases hentry with rfl | hentry
    · exact ⟨hsign, entry, rest, hflight, .inl hbouncing.startsBouncing⟩
    · exact ⟨hsign, first, rest, hflight, .inr ⟨entry, hentry, hbouncing⟩⟩

/-- Taking the messages in order keeps a dialogue looping. -/
theorem Looping.next (hC : C.RoundTrips) (h : Looping dialogue) (delivery : Delivery) (hindex : delivery.index = 0) :
    ∃ dialogue', dialogue.next pb delivery = some dialogue' ∧ Looping dialogue' := by
  obtain ⟨hsign, ⟨place, m⟩, rest, hflight, hbounces⟩ := h
  have hrest : CanSign { dialogue with inFlight := rest } := ⟨hsign.manager, hsign.client⟩
  obtain ⟨dialogue', hadvance, hgoesOn⟩ := advance_goesOn hC hrest pb delivery m place
  obtain ⟨sent, hsent, hstarts⟩ := hgoesOn.inFlight
  refine ⟨dialogue', ?_, ?_⟩
  · simp [Dialogue.next, hindex, hflight, hadvance, Except.toOption]
  · rcases hbounces with hbounces | ⟨bouncing, hmem, hbouncing⟩
    · obtain ⟨bouncing, hmem, hbouncing⟩ := hstarts hbounces
      refine .of_bouncing hgoesOn.canSign (hsent ▸ List.mem_append_right _ hmem) ?_
      rwa [hgoesOn.manager, hgoesOn.client]
    · refine .of_bouncing hgoesOn.canSign (hsent ▸ List.mem_append_left _ hmem) ?_
      rwa [hgoesOn.manager, hgoesOn.client]

theorem eventuallyTaken_of_inOrder {deliveries : Nat → Delivery} (h : ∀ i, (deliveries i).index = 0)
    (i position : Nat) : EventuallyTaken deliveries i position := by
  induction position generalizing i with
  | zero => exact .now (h i)
  | succ position ih => exact .movesUp (by simp [h i]) (ih (i + 1))

/-! ### Which dialogues end -/

/-- There is no infinite run in which every message is delivered. -/
def Ends (pb : Protobuf) (dialogue : Dialogue C) : Prop :=
  ¬ ∃ states deliveries, (machine pb C).IsInfiniteRun dialogue states deliveries ∧
    EveryMessageDelivered states deliveries

/-- A looping dialogue goes on forever, whatever the clocks and the random generators return. -/
theorem Looping.exists_isInfiniteRun (hC : C.RoundTrips) (h : Looping dialogue) (pb : Protobuf)
    {deliveries : Nat → Delivery} (hindex : ∀ i, (deliveries i).index = 0) :
    ∃ states, (machine pb C).IsInfiniteRun dialogue states deliveries :=
  Machine.exists_isInfiniteRun (I := Looping) deliveries
    (fun i _ hlooping => hlooping.next hC (deliveries i) (hindex i)) h

theorem Looping.not_ends (hC : C.RoundTrips) (h : Looping dialogue) : ¬ Ends pb dialogue := by
  intro hends
  obtain ⟨states, hrun⟩ := h.exists_isInfiniteRun hC pb (fun _ => show ({} : Delivery).index = 0 from rfl)
  exact hends ⟨states, _, hrun, fun i position _ => eventuallyTaken_of_inOrder (fun _ => rfl) i position⟩

theorem ends_of_next (h : ∀ delivery dialogue', dialogue.next pb delivery = some dialogue' → AllSettled dialogue') :
    Ends pb dialogue := by
  rintro ⟨states, deliveries, hrun, -⟩
  have hfirst := hrun.step 0
  rw [hrun.start] at hfirst
  exact (h _ _ hfirst).not_isInfiniteRun _ _ hrun.tail

theorem advance_of_next_single {place : Place} {dialogue' : Dialogue C} (hflight : dialogue.inFlight = [(place, m)])
    (h : dialogue.next pb delivery = some dialogue') :
    advance pb delivery m { dialogue with inFlight := [] } place = .ok dialogue' := by
  obtain ⟨place', m', hentry, hadvance⟩ := next_eq_some h
  rw [hflight] at hentry
  cases hindex : delivery.index with
  | zero =>
    rw [hindex] at hentry
    cases hentry
    simpa [hflight, hindex] using hadvance
  | succ index => simp [hindex] at hentry

theorem ends_of_not_managerStartsLoop (hflight : dialogue.inFlight = [(.managerInput, m)])
    (hcalm : ¬ managerStartsLoop dialogue.client.nodeId dialogue.directory m) : Ends pb dialogue := by
  refine ends_of_next fun delivery dialogue' hnext => ?_
  obtain ⟨⟨manager, directory, sent⟩, hhandled, h⟩ := bind_eq_ok.mp (advance_of_next_single hflight hnext)
  cases h
  intro entry hentry
  obtain ⟨answer, hanswer, hentry⟩ := List.mem_filterMap.mp (by simpa using hentry)
  obtain ⟨hplace, hcore, hdestination, -⟩ := managerSends_eq_some hentry
  have hsettles : clientSettles answer.coreMessage := by
    by_contra hunsettled
    exact hcalm ((manager_answers_iff hhandled).mp ⟨answer, hanswer, hdestination, hunsettled⟩)
  obtain ⟨place, sentMessage⟩ := entry
  cases hplace
  show clientSettles sentMessage.coreMessage
  rwa [show sentMessage.coreMessage = answer.coreMessage from hcore]

theorem ends_of_not_clientStartsLoop (hflight : dialogue.inFlight = [(.clientInput, m)])
    (hcalm : ¬ clientStartsLoop dialogue.manager.nodeId dialogue.client.nodeId m) : Ends pb dialogue := by
  refine ends_of_next fun delivery dialogue' hnext => ?_
  obtain ⟨⟨client, _, sent⟩, hhandled, h⟩ := bind_eq_ok.mp (advance_of_next_single hflight hnext)
  cases h
  intro entry hentry
  obtain ⟨answer, hanswer, hentry⟩ := List.mem_filterMap.mp (by simpa using hentry)
  obtain ⟨hplace, hcore, hdestination⟩ := clientSends_eq_some hentry
  have hsettles : Settled dialogue.manager.nodeId dialogue.client.nodeId (.toManager, answer) := by
    by_contra hunsettled
    exact hcalm ((client_answers_iff hhandled).mp ⟨answer, hanswer, hunsettled⟩)
  obtain ⟨place, sentMessage⟩ := entry
  cases hplace
  rw [(handleMessage_frame hhandled).1]
  dsimp only at hcore hdestination
  simpa only [Settled, hcore, hdestination] using hsettles

/-- **Which dialogues end.** The dialogue that one message starts ends if and only if the message is not one of those that start a loop. -/
theorem dialogue_ends_iff (hC : C.RoundTrips) (pb : Protobuf) (manager client : RSPNode C) (directory : Directory)
    (hmanager : manager.keyPair.hasPrivateKey = true) (hclient : client.keyPair.hasPrivateKey = true) (m : RSPMessage) :
    (Ends pb { manager, directory, client, inFlight := [(.managerInput, m)] } ↔
        ¬ managerStartsLoop client.nodeId directory m) ∧
      (Ends pb { manager, directory, client, inFlight := [(.clientInput, m)] } ↔
        ¬ clientStartsLoop manager.nodeId client.nodeId m) := by
  refine ⟨⟨fun hends hstarts => ?_, fun hcalm => ?_⟩, fun hends hstarts => ?_, fun hcalm => ?_⟩
  · refine Looping.not_ends hC ⟨⟨hmanager, hclient⟩, _, [], rfl, .inl ?_⟩ hends
    exact hstarts
  · exact ends_of_not_managerStartsLoop rfl hcalm
  · refine Looping.not_ends hC ⟨⟨hmanager, hclient⟩, _, [], rfl, .inl ?_⟩ hends
    exact hstarts
  · exact ends_of_not_clientStartsLoop rfl hcalm

/-- The node with the key pair of one byte. -/
def sampleParty (key : UInt8) : RSPNode sampleCrypto where
  keyPair := sampleKeyPair key
  nodeId := ⟨ByteCode.readBe64 ((sampleCrypto.sha256 [key]).take 8),
    ByteCode.readBe64 (((sampleCrypto.sha256 [key]).drop 8).take 8)⟩
  nodeID_keyPair := rfl

theorem dialogue_ends_iff_ping :
    Ends default { manager := sampleParty 1, client := sampleParty 2, inFlight := [(.managerInput,
      { source := some (toProtoNodeId (sampleParty 2).nodeId), coreMessage := .pingRequest {} })] } :=
  (dialogue_ends_iff sampleCrypto_roundTrips default (sampleParty 1) (sampleParty 2) {} rfl rfl _).1.mpr
    (by simp [managerStartsLoop, unsupportedByNode])

/-- What `RSPClient::queryResources` of the node with key 2 sends to the one with key 1, without a query. -/
def sampleQuery : RSPMessage :=
  let request : RSPMessage :=
    { destination := some (toProtoNodeId (sampleParty 1).nodeId), coreMessage := .resourceQuery {} }
  (sign default (sampleParty 2) 0 (RSPClient.prepareOutboundMessage [] request)).getD request

/-- A query to a resource manager that knows of no service never stops being answered. -/
theorem sampleQuery_never_ends :
    ¬ Ends default { manager := sampleParty 1, client := sampleParty 2, inFlight := [(.managerInput, sampleQuery)] } :=
  Looping.not_ends sampleCrypto_roundTrips ⟨⟨rfl, rfl⟩, _, [], rfl, .inl (by exact ⟨rfl, rfl⟩)⟩

end Dialogue

end Rsp
