import Rsp.Node.AesNetwork

/-!
# Keys agree

Every event keeps the state in agreement with the ledger, so in every reachable state the two ends of a key id hold the same key material.
-/

namespace Rsp

open Proto AesNegotiationState

variable {C : Crypto}

theorem not_mem_filterMap_eraseIdx {α β : Type} {f : α → Option β} {l : List α} (hnodup : (l.filterMap f).Nodup)
    {index : Nat} {a : α} {b : β} (ha : l[index]? = some a) (hb : f a = some b) :
    b ∉ (l.eraseIdx index).filterMap f := by
  obtain ⟨hlt, rfl⟩ := List.getElem?_eq_some_iff.mp ha
  have hperm := (List.getElem_cons_eraseIdx_perm hlt).filterMap f
  rw [List.filterMap_cons_some hb] at hperm
  exact (List.nodup_cons.mp (hperm.nodup_iff.mpr hnodup)).1

namespace AesNegotiationState

/-- The part of `handleAesNegotiationMessage` after the sweep, for a message with a recognized sender. -/
def handleSwept (ambient : Ambient) (self sender : NodeID) (s : AesNegotiationState C) :
    CoreMessage → AesNegotiationState C × List RSPMessage
  | .aesKeyNegotiationError error => (s.handleAesKeyNegotiationError (some sender) error, [])
  | .aesKeyNegotiationRequest request =>
    let answered := s.handleAesKeyNegotiationRequest ambient self sender request
    (answered.1, [answered.2])
  | .aesKeyNegotiationReply reply =>
    let answered := s.handleAesKeyNegotiationReply ambient self sender reply
    (answered.1, answered.2.toList)
  | .aesKeyDropNotification drop =>
    let answered := s.handleAesKeyDropNotification self sender drop
    (answered.1, answered.2.toList)
  | _ => (s, [])

theorem handleAesNegotiationMessage_eq {ambient : Ambient} {self sender : NodeID} {m : RSPMessage}
    {s : AesNegotiationState C} {result : AesNegotiationState C × List RSPMessage}
    (hsender : senderNodeIdFromMessage m = some sender)
    (h : s.handleAesNegotiationMessage ambient self m = some result) :
    let swept := s.processExpiredAesKeys self ambient.expiryNow
    let handled := swept.1.handleSwept ambient self sender m.coreMessage
    result = (handled.1, swept.2 ++ handled.2) := by
  simp only [handleAesNegotiationMessage, hsender] at h
  split at h
  case h_5 => cases h
  all_goals
    next hcore =>
      rw [← Option.some.inj h]
      simp only [hcore, handleSwept, List.append_nil]

theorem not_malformedReply {keyId : Bytes} (hvalid : isValidKeyId keyId = true) {publicKey : PublicKey}
    {lifetimeMs : UInt64} :
    ¬ MalformedReply
      { keyId := some ⟨keyId⟩, ephemeralPublicKey := some publicKey, acceptedLifetimeMs := lifetimeMs,
        algorithm := .p256Sha256Aes256 } := by
  rintro (hnone | ⟨id, hid, hinvalid⟩ | hnone | halgorithm)
  · cases hnone
  · obtain rfl : keyId = id := by simpa using hid
    rw [hvalid] at hinvalid
    cases hinvalid
  · cases hnone
  · exact absurd rfl halgorithm

end AesNegotiationState

namespace Network

theorem set_send_set_send (net : Network C) (node : NodeID) (s s' : AesNegotiationState C)
    (messages messages' : List RSPMessage) :
    (((net.set node s).send messages).set node s').send messages' =
      (net.set node s').send (messages ++ messages') := by
  simp only [set, send, Function.update_idem, List.append_assoc]

end Network

namespace Ledger.Sound

variable {limits : NodeID → AesNegotiationLimits} {L : Ledger C} {net : Network C}

/-- Once an active key is removed, nothing is left of its key id. -/
theorem lacks_of_removed (h : Sound limits L net) {node peer : NodeID} {active : ActiveAesKey}
    {s : AesNegotiationState C} (hactive : (net.nodes node).activeByPeer[peer]? = some active)
    (hforgets : Forgets s (net.nodes node)) (hremoved : s.activeByPeer[peer]? = none) : Lacks s active.keyId := by
  have hbetween := (h.active hactive).between
  constructor
  · intro other pending hp heq
    have hold := hforgets.pending.getElem? hp
    have hsame : other = peer := h.ledger.between_unique (heq ▸ (h.pending hold).between) hbetween
    subst hsame
    have hmem : other ∈ (net.nodes node).activeByPeer := by
      rw [Std.TreeMap.mem_iff_isSome_getElem?, hactive]
      rfl
    refine (h.consistent node).exclusive ?_ hmem
    rw [Std.TreeMap.mem_iff_isSome_getElem?, hold]
    rfl
  · intro other key ha heq
    have hold := hforgets.active.getElem? ha
    have hsame : other = peer := h.ledger.between_unique (heq ▸ (h.active hold).between) hbetween
    rw [hsame, hremoved] at ha
    cases ha

theorem sweep (h : Sound limits L net) (node : NodeID) (now : DateTime) :
    let swept := (net.nodes node).processExpiredAesKeys node now
    ∃ L' : Ledger C, L'.origin = L.origin ∧ Sound limits L' ((net.set node swept.1).send swept.2) := by
  intro swept
  -- the key ids given up are those of the expired entries
  let expired : Bytes → Prop := fun keyId => ∃ (peer : NodeID) (active : ActiveAesKey),
    (net.nodes node).activeByPeer[peer]? = some active ∧ ¬ active.expiresAt > now ∧ active.keyId = keyId
  refine ⟨L.retire node expired, rfl, h.giveUp (forgets_processExpiredAesKeys node now _) ?_ ?_⟩
  · rintro keyId ⟨peer, active, hactive, hexpired, rfl⟩
    refine ⟨h.ledger.active_handled (h.active hactive),
      h.lacks_of_removed hactive (forgets_processExpiredAesKeys node now _) ?_⟩
    simp only [processExpiredAesKeys]
    rw [Std.TreeMap.getElem?_filter', hactive, Option.filter_some, if_neg (by simpa using hexpired)]
  · intro m hm
    simp only [swept, processExpiredAesKeys, List.mem_map, List.mem_filter] at hm
    obtain ⟨⟨peer, active⟩, ⟨hentry, hexpired⟩, rfl⟩ := hm
    rw [Std.TreeMap.mem_toList_iff_getElem?_eq_some] at hentry
    have hbetween : (L.retire node expired).Between active.keyId node peer := (h.active hentry).between
    exact ⟨.drop hbetween (.inl ⟨rfl, peer, active, hentry, by simpa using hexpired, rfl⟩), rfl, rfl⟩

/-- A node drops an active key, and whatever is pending with the same peer. -/
theorem dropActive (h : Sound limits L net) {node peer : NodeID} {active : ActiveAesKey}
    (hactive : (net.nodes node).activeByPeer[peer]? = some active) (reason : Bytes) :
    ∃ L' : Ledger C, L'.origin = L.origin ∧ Sound limits L' ((net.set node
      { net.nodes node with
        pendingByPeer := (net.nodes node).pendingByPeer.erase peer
        activeByPeer := (net.nodes node).activeByPeer.erase peer }).send
      [makeAesKeyDropNotification node peer active.keyId reason]) := by
  have hforgets : Forgets
      { net.nodes node with
        pendingByPeer := (net.nodes node).pendingByPeer.erase peer
        activeByPeer := (net.nodes node).activeByPeer.erase peer } (net.nodes node) := ⟨rfl, .erase _ _, .erase _ _⟩
  refine ⟨L.retire node (· = active.keyId), rfl, h.giveUp hforgets ?_ ?_⟩
  · rintro keyId rfl
    refine ⟨h.ledger.active_handled (h.active hactive), h.lacks_of_removed hactive hforgets ?_⟩
    simp
  · intro m hm
    obtain rfl := List.mem_singleton.mp hm
    have hbetween : (L.retire node (· = active.keyId)).Between active.keyId node peer := (h.active hactive).between
    exact ⟨.drop hbetween (.inl ⟨rfl, rfl⟩), rfl, rfl⟩

theorem drop (h : Sound limits L net) (node peer : NodeID) (reason : Bytes) (now : DateTime) :
    let result := (net.nodes node).dropAesKey node peer reason now true
    ∃ L' : Ledger C, L'.origin = L.origin ∧ Sound limits L' ((net.set node result.1).send result.2.1) := by
  obtain ⟨L', horigin, hswept⟩ := h.sweep node now
  simp only [dropAesKey]
  generalize (net.nodes node).processExpiredAesKeys node now = swept at hswept ⊢
  have hnode : ((net.set node swept.1).send swept.2).nodes node = swept.1 := net.set_nodes_self node swept.1
  cases hactive : swept.1.activeByPeer[peer]? with
  | none =>
    have hforgets := forgets_erasePending swept.1 peer
    rw [← hnode] at hforgets
    have hforgotten := (hswept.forget hforgets).notify (fun m (hm : m ∈ []) => by cases hm)
    rw [Network.set_send_set_send, List.append_nil, hnode] at hforgotten
    exact ⟨L', horigin, hforgotten⟩
  | some active =>
    rw [← hnode] at hactive
    obtain ⟨L'', horigin', hdropped⟩ := hswept.dropActive hactive
      (if reason.isEmpty then ascii "local_drop" else reason)
    rw [Network.set_send_set_send, hnode] at hdropped
    exact ⟨L'', horigin'.trans horigin, hdropped⟩

/-- A proposal for a fresh key id, whether or not the request is taken by the output queue. -/
theorem propose (h : Sound limits L net) {node peer : NodeID} (hne : node ≠ peer) {ambient : Ambient}
    (hfresh : randomKeyId ambient ∉ net.used) {requestedLifetimeMs : UInt64} {s : AesNegotiationState C}
    {request : RSPMessage}
    (hpropose : (net.nodes node).propose ambient node peer requestedLifetimeMs = some (s, request)) :
    ∃ key, Sound limits (L.ask (randomKeyId ambient) node peer key)
      { (net.set node s).send [request] with used := randomKeyId ambient :: net.used } := by
  obtain ⟨pending, publicKey, -, hactive, hroom, -, hkeyId, hgenerated, hpublic, rfl, rfl⟩ := propose_eq_some hpropose
  have hasked := h.ask hfresh rfl hne hgenerated
  have hnew : (L.ask (randomKeyId ambient) node peer pending.ephemeralKeyPair).origin (randomKeyId ambient) =
      some (node, peer, pending.ephemeralKeyPair) := by simp [Ledger.ask]
  have hunhandled : ¬ L.handled (randomKeyId ambient) := by
    intro hhandled
    obtain ⟨o, ho⟩ := h.ledger.handled_origin hhandled
    exact hfresh (h.ledger.used ho)
  have hset := hasked.set node { net.nodes node with pendingByPeer := (net.nodes node).pendingByPeer.insert peer pending }
    ((h.consistent node).insertPending hactive hroom (by rw [hkeyId]; rfl)) ?_ fun _ _ ha => hasked.active ha
  · refine ⟨pending.ephemeralKeyPair, hset.send ?_ ?_ ?_⟩
    · intro m hm
      obtain rfl := List.mem_singleton.mp hm
      exact .request hnew hpublic hunhandled
    · rw [List.filterMap_append]
      refine h.requests.append (List.nodup_singleton _) ?_
      intro id hid hnewId
      obtain rfl : id = randomKeyId ambient := List.mem_singleton.mp hnewId
      exact hfresh (h.used_of_requested hid)
    · rw [List.filterMap_append]
      exact (List.append_nil _).symm ▸ h.replies
  · intro other entry hentry
    rw [Std.TreeMap.getElem?_insert] at hentry
    split_ifs at hentry with heq
    · obtain rfl := Option.some.inj hentry
      obtain rfl := Std.compare_eq_iff_eq.mp heq
      refine ⟨by rw [hkeyId, hnew], fun hgone => hunhandled ?_⟩
      rw [hkeyId] at hgone
      exact h.ledger.gone_handled hgone
    · exact hasked.pending hentry

/-! ### Handling a message -/

section

variable {index : Nat} {m : RSPMessage} {keyId : Bytes} {node sender : NodeID} {key : KeyPair C} {ambient : Ambient}

theorem lacks_of_requested (h : Sound limits L net) (horigin : L.origin keyId = some (sender, node, key))
    (hhandled : ¬ L.handled keyId) : Lacks (net.nodes node) keyId := by
  constructor
  · rintro peer pending hp rfl
    have hsame := (h.pending hp).1
    rw [horigin, Option.some.injEq, Prod.mk.injEq] at hsame
    have hself : L.origin pending.keyId = some (node, node, key) := hsame.1 ▸ horigin
    exact h.ledger.distinct hself rfl
  · rintro peer active ha rfl
    exact hhandled (h.ledger.active_handled (h.active ha))

theorem handleRequest (h : Sound limits L net) (hflight : net.flight[index]? = some m)
    (hm : requestedKeyId m = some keyId) (horigin : L.origin keyId = some (sender, node, key))
    (hhandled : ¬ L.handled keyId) {publicKey : PublicKey} (hpublic : key.publicKey = .ok publicKey)
    {lifetimeMs : UInt64} {result : AesNegotiationState C × RSPMessage}
    (houtcome : RequestOutcome ambient node sender
      { keyId := some ⟨keyId⟩, ephemeralPublicKey := some publicKey, requestedLifetimeMs := lifetimeMs,
        algorithm := .p256Sha256Aes256 } (net.nodes node) result) :
    ∃ L' : Ledger C, L'.origin = L.origin ∧
      Sound limits L' (({ net with flight := net.flight.eraseIdx index }.set node result.1).send [result.2]) := by
  have htaken := h.take (net.flight.eraseIdx_sublist index)
  have hnot := not_mem_filterMap_eraseIdx h.requests hflight hm
  have hconsistent := (h.consistent node).requestOutcome houtcome
  cases houtcome with
  | refuse errorCode text =>
    refine ⟨(L.refuse keyId).retire node (· = keyId), rfl,
      (htaken.refuse horigin hnot).giveUp (Forgets.refl (net.nodes node)) ?_ ?_⟩
    · rintro id rfl
      exact ⟨.inl rfl, h.lacks_of_requested horigin hhandled⟩
    · intro answer hanswer
      obtain rfl := List.mem_singleton.mp hanswer
      exact ⟨.error fun _ id hid => .inl ⟨rfl, (Option.some.inj hid).symm⟩, rfl, rfl⟩
  | @accept acceptedId sharedSecret acceptedPublic own peer message hid hvalid hkey hpending hactive hroom hpeer hown
      hsecret hmessage =>
    obtain rfl : keyId = acceptedId := by simpa using hid
    obtain rfl : publicKey = acceptedPublic := by simpa using hkey
    have haccepted := htaken.accept horigin hhandled hown hnot
    have hanswer : (L.accept keyId own).answer keyId = some own := by simp [Ledger.accept]
    have hset := haccepted.set node _ hconsistent (fun peer pending hp => haccepted.pending hp) ?_
    · refine ⟨L.accept keyId own, rfl, ?_⟩
      obtain ⟨fault, -, rfl⟩ | ⟨ownPublic, hexport, rfl⟩ := hmessage
      · refine hset.notify fun answer hanswer => ?_
        obtain rfl := List.mem_singleton.mp hanswer
        exact ⟨.error fun hfinal => absurd hfinal (by unfold IsFinal; decide), rfl, rfl⟩
      · refine hset.send ?_ ?_ ?_
        · intro answer hmem
          obtain rfl := List.mem_singleton.mp hmem
          exact .reply horigin hanswer hexport fun hclosed => hhandled (h.ledger.closed_handled hclosed)
        · rw [List.filterMap_append]
          exact (List.append_nil _).symm ▸ htaken.requests
        · rw [List.filterMap_append]
          refine htaken.replies.append (List.nodup_singleton _) ?_
          intro id hreplied hnewId
          obtain rfl : id = keyId := List.mem_singleton.mp hnewId
          exact hhandled (htaken.handled_of_replied hreplied)
    · intro other active ha
      rw [Std.TreeMap.getElem?_insert] at ha
      split_ifs at ha with heq
      · obtain rfl := Option.some.inj ha
        obtain rfl := Std.compare_eq_iff_eq.mp heq
        refine ⟨fun hgone => hhandled (h.ledger.gone_handled hgone), own, key, publicKey, peer, sharedSecret,
          .inr ⟨horigin, hanswer⟩, hpublic, hpeer, hsecret, rfl⟩
      · exact haccepted.active ha

/-- The initiator has nothing left of a key id whose reply does not match its pending negotiation. -/
theorem lacks_of_replied (h : Sound limits L net) (horigin : L.origin keyId = some (node, sender, key))
    (hclosed : ¬ L.closed keyId) {s : AesNegotiationState C} (hforgets : Forgets s (net.nodes node))
    (hpending : ∀ pending, s.pendingByPeer[sender]? = some pending → pending.keyId ≠ keyId) : Lacks s keyId := by
  have hbetween : L.Between keyId node sender := ⟨key, .inl horigin⟩
  constructor
  · rintro peer pending hp rfl
    obtain rfl := h.ledger.between_unique (h.pending (hforgets.pending.getElem? hp)).between hbetween
    exact hpending pending hp rfl
  · rintro peer active ha rfl
    obtain ⟨own, other, -, -, -, hparty, -⟩ := (h.active (hforgets.active.getElem? ha)).agreed
    rcases hparty with ⟨-, -, hold⟩ | ⟨hother, -⟩
    · exact hclosed hold
    · rw [horigin, Option.some.injEq, Prod.mk.injEq, Prod.mk.injEq] at hother
      exact h.ledger.distinct horigin hother.2.1.symm

theorem handleReply (h : Sound limits L net) (hflight : net.flight[index]? = some m)
    (hm : repliedKeyId m = some keyId) (horigin : L.origin keyId = some (node, sender, key)) {answer : KeyPair C}
    (hanswer : L.answer keyId = some answer) (hclosed : ¬ L.closed keyId) {publicKey : PublicKey}
    (hpublic : answer.publicKey = .ok publicKey) {lifetimeMs : UInt64}
    {result : AesNegotiationState C × Option RSPMessage}
    (houtcome : ReplyOutcome ambient node sender
      { keyId := some ⟨keyId⟩, ephemeralPublicKey := some publicKey, acceptedLifetimeMs := lifetimeMs,
        algorithm := .p256Sha256Aes256 } (net.nodes node) result) :
    ∃ L' : Ledger C, L'.origin = L.origin ∧
      Sound limits L' (({ net with flight := net.flight.eraseIdx index }.set node result.1).send
        result.2.toList) := by
  have htaken := h.take (net.flight.eraseIdx_sublist index)
  have hhandled := h.ledger.answer_handled hanswer
  have hclose := htaken.close hhandled (not_mem_filterMap_eraseIdx h.replies hflight hm)
  have hconsistent := (h.consistent node).replyOutcome houtcome
  -- the initiator gives the key id up
  have hgiveUp : ∀ {s : AesNegotiationState C} (_ : Forgets s (net.nodes node))
      (_ : ∀ pending, s.pendingByPeer[sender]? = some pending → pending.keyId ≠ keyId)
      (errorCode : KeyNegotiationError) (text : String),
      Sound limits ((L.close keyId).retire node (· = keyId))
        (({ net with flight := net.flight.eraseIdx index }.set node s).send
          [makeAesKeyNegotiationError node sender errorCode (some keyId) text]) := by
    intro s hforgets hpending errorCode text
    refine hclose.giveUp hforgets ?_ ?_
    · rintro id rfl
      exact ⟨hhandled, h.lacks_of_replied horigin hclosed hforgets hpending⟩
    · intro message hmessage
      obtain rfl := List.mem_singleton.mp hmessage
      exact ⟨.error fun _ id hid => .inl ⟨rfl, (Option.some.inj hid).symm⟩, rfl, rfl⟩
  -- the answer is an error on which nobody gives up an active key
  have hkeep : ∀ {s : AesNegotiationState C} (_ : Forgets s (net.nodes node)) {errorCode : KeyNegotiationError}
      (_ : ¬ IsFinal errorCode) (text : String),
      Sound limits (L.close keyId) (({ net with flight := net.flight.eraseIdx index }.set node s).send
        [makeAesKeyNegotiationError node sender errorCode (some keyId) text]) := by
    intro s hforgets errorCode hcode text
    refine (hclose.forget hforgets).notify fun message hmessage => ?_
    obtain rfl := List.mem_singleton.mp hmessage
    exact ⟨.error fun hfinal => absurd hfinal hcode, rfl, rfl⟩
  cases houtcome with
  | malformed hmalformed => exact absurd hmalformed (not_malformedReply (h.ledger.valid horigin))
  | unmatched hid hcode text hpending =>
    obtain rfl : keyId = _ := by simpa using hid
    exact ⟨(L.close keyId).retire node (· = keyId), rfl, hgiveUp (Forgets.refl _) hpending _ text⟩
  | full hid hpending hmatch hfull text =>
    obtain rfl : keyId = _ := by simpa using hid
    exact ⟨L.close keyId, rfl, hkeep (forgets_erasePending _ sender) (by unfold IsFinal; decide) text⟩
  | unreadable hid hkey hpeer text =>
    obtain rfl : keyId = _ := by simpa using hid
    exact ⟨L.close keyId, rfl, hkeep (Forgets.refl _) (by unfold IsFinal; decide) text⟩
  | underivable hid hpending hmatch text =>
    obtain rfl : keyId = _ := by simpa using hid
    exact ⟨(L.close keyId).retire node (· = keyId), rfl, hgiveUp (forgets_erasePending _ sender) (by simp) _ text⟩
  | @accept acceptedId sharedSecret pending acceptedPublic peer hid hvalid hkey hpending hmatch hroom hpeer hsecret =>
    obtain rfl : keyId = acceptedId := by simpa using hid
    obtain rfl : publicKey = acceptedPublic := by simpa using hkey
    have hasked := (h.pending hpending).1
    rw [hmatch, horigin, Option.some.injEq, Prod.mk.injEq, Prod.mk.injEq] at hasked
    have hset := hclose.set node _ hconsistent ?_ ?_
    · exact ⟨L.close keyId, rfl, hset.notify (fun message (hmessage : message ∈ []) => by cases hmessage)⟩
    · intro other entry hentry
      exact hclose.pending ((Within.erase _ sender).getElem? hentry)
    · intro other active ha
      rw [Std.TreeMap.getElem?_insert] at ha
      by_cases heq : compare sender other = .eq
      · rw [if_pos heq] at ha
        obtain rfl := Option.some.inj ha
        obtain rfl := Std.compare_eq_iff_eq.mp heq
        refine ⟨?_, pending.ephemeralKeyPair, answer, publicKey, peer, sharedSecret,
          .inl ⟨hasked.2.2 ▸ horigin, hanswer, .inl rfl⟩, hpublic, hpeer, hsecret, rfl⟩
        have hnotGone := (h.pending hpending).2
        rwa [hmatch] at hnotGone
      · rw [if_neg heq] at ha
        exact hclose.active ha

/-- A drop notification about a key id the two nodes share. -/
theorem handleDrop (h : Sound limits L net) (hbetween : L.Between keyId sender node) (hgone : L.gone keyId sender)
    (reason : Bytes) :
    let result := (net.nodes node).handleAesKeyDropNotification node sender { keyId := some ⟨keyId⟩, reason }
    ∃ L' : Ledger C, L'.origin = L.origin ∧
      Sound limits L' (({ net with flight := net.flight.eraseIdx index }.set node result.1).send
        result.2.toList) := by
  intro result
  have htaken := h.take (net.flight.eraseIdx_sublist index)
  have hbetween' : L.Between keyId node sender := by
    obtain ⟨key, horigin⟩ := hbetween
    exact ⟨key, horigin.symm⟩
  have hvalid : isValidKeyId keyId = true := by
    obtain ⟨key, horigin | horigin⟩ := hbetween <;> exact h.ledger.valid horigin
  have hforgets : Forgets result.1 (net.nodes node) := forgets_handleAesKeyDropNotification _ _ _ _
  obtain ⟨answer, hresult, hanswer⟩ := handleAesKeyDropNotification_of_valid hvalid node sender reason (net.nodes node)
  have hstate : result.1 = ((net.nodes node).eraseActiveIf sender keyId).erasePendingIf sender keyId :=
    congrArg Prod.fst hresult
  refine ⟨L.retire node (· = keyId), rfl, htaken.giveUp hforgets ?_ ?_⟩
  · rintro id rfl
    refine ⟨h.ledger.gone_handled hgone, ?_, ?_⟩
    · rintro peer pending hp rfl
      obtain rfl := h.ledger.between_unique (h.pending (hforgets.pending.getElem? hp)).between hbetween'
      rw [hstate] at hp
      exact erasePendingIf_pending hp rfl
    · rintro peer active ha rfl
      obtain rfl := h.ledger.between_unique (h.active (hforgets.active.getElem? ha)).between hbetween'
      rw [hstate, erasePendingIf_activeByPeer] at ha
      exact eraseActiveIf_active ha rfl
  · intro message hmessage
    rw [show result.2 = answer from congrArg Prod.snd hresult] at hmessage
    obtain ⟨errorCode, text, rfl⟩ := hanswer message hmessage
    exact ⟨.error fun _ id hid => .inl ⟨rfl, (Option.some.inj hid).symm⟩, rfl, rfl⟩

end

/-! ### Events -/

/-- A message of a known node and what its destination does with it after the sweep. -/
theorem handleSwept (h : Sound limits L net) {index : Nat} {m : RSPMessage} (hflight : net.flight[index]? = some m)
    (ambient : Ambient) {sender node : NodeID} (hsender : senderNodeIdFromMessage m = some sender)
    (hnode : m.destination.bind nodeIdFromSourceField = some node) :
    let result := (net.nodes node).handleSwept ambient node sender m.coreMessage
    ∃ L' : Ledger C, L'.origin = L.origin ∧
      Sound limits L' (({ net with flight := net.flight.eraseIdx index }.set node result.1).send result.2) := by
  have hmem := List.mem_of_getElem? hflight
  cases h.message hmem with
  | @request keyId source peer key publicKey lifetimeMs horigin hpublic hhandled =>
    obtain rfl := eq_of_nodeIdFromSourceField source hsender
    obtain rfl := eq_of_nodeIdFromSourceField peer hnode
    exact h.handleRequest hflight rfl horigin hhandled hpublic
      (handleAesKeyNegotiationRequest_outcome ambient peer source _ _)
  | @reply keyId source peer key own publicKey lifetimeMs horigin hanswer hpublic hclosed =>
    obtain rfl := eq_of_nodeIdFromSourceField source hsender
    obtain rfl := eq_of_nodeIdFromSourceField peer hnode
    exact h.handleReply hflight rfl horigin hanswer hclosed hpublic
      (handleAesKeyNegotiationReply_outcome ambient peer source _ _)
  | @drop keyId source peer reason hbetween hgone =>
    obtain rfl := eq_of_nodeIdFromSourceField source hsender
    obtain rfl := eq_of_nodeIdFromSourceField peer hnode
    exact h.handleDrop hbetween hgone reason
  | @error errorCode keyId source peer text hgone =>
    have htaken := h.take (net.flight.eraseIdx_sublist index)
    have hforgets := forgets_handleAesKeyNegotiationError (some sender)
      { errorCode, keyId := keyId.map Uuid.mk, message := ascii text } (net.nodes node)
    exact ⟨L, rfl, (htaken.forget hforgets).notify (fun m (hm : m ∈ []) => by cases hm)⟩

end Ledger.Sound

namespace Network

/-- A delivered message is handled by its destination, after the sweep, as a message of its sender. -/
theorem deliver_eq_some {net net' : Network C} {index : Nat} {signature : Option SignatureBlock} {ambient : Ambient}
    (h : (Event.deliver index signature ambient).next net = some net') :
    ∃ m node, net.flight[index]? = some m ∧ m.destination.bind nodeIdFromSourceField = some node ∧
      ∀ sender, senderNodeIdFromMessage m = some sender →
        let swept := (net.nodes node).processExpiredAesKeys node ambient.expiryNow
        let handled := swept.1.handleSwept ambient node sender m.coreMessage
        net' = ({ net with flight := net.flight.eraseIdx index }.set node handled.1).send (swept.2 ++ handled.2) := by
  obtain ⟨m, hm, h⟩ := Option.bind_eq_some_iff.mp h
  obtain ⟨node, hnode, h⟩ := Option.bind_eq_some_iff.mp h
  refine ⟨m, node, hm, hnode, fun sender hsender => ?_⟩
  split_ifs at h with hauthentic
  obtain ⟨result, hresult, rfl⟩ := Option.map_eq_some_iff.mp h
  rw [handleAesNegotiationMessage_eq (hauthentic.trans hsender) hresult]

/-- The network after the expired keys of a node are swept. -/
def swept (net : Network C) (node : NodeID) (now : DateTime) : Network C :=
  (net.set node ((net.nodes node).processExpiredAesKeys node now).1).send
    ((net.nodes node).processExpiredAesKeys node now).2

theorem swept_nodes_self (net : Network C) (node : NodeID) (now : DateTime) :
    (net.swept node now).nodes node = ((net.nodes node).processExpiredAesKeys node now).1 := net.set_nodes_self node _

/-- What `beginAesKeyNegotiation` can do to the network. -/
inductive BeginOutcome (net : Network C) (node peer : NodeID) (requestedLifetimeMs : UInt64) (ambient : Ambient) :
    Network C → Prop
  | itself : BeginOutcome net node peer requestedLifetimeMs ambient { net with used := randomKeyId ambient :: net.used }
  | refused : BeginOutcome net node peer requestedLifetimeMs ambient
      { net.swept node ambient.expiryNow with used := randomKeyId ambient :: net.used }
  | proposed {s : AesNegotiationState C} {request : RSPMessage} (hne : node ≠ peer)
    (hpropose : ((net.swept node ambient.expiryNow).nodes node).propose ambient node peer requestedLifetimeMs =
      some (s, request)) :
    BeginOutcome net node peer requestedLifetimeMs ambient
      { ((net.swept node ambient.expiryNow).set node s).send [request] with used := randomKeyId ambient :: net.used }
  | unsent {s : AesNegotiationState C} {request : RSPMessage} (hne : node ≠ peer)
    (hpropose : ((net.swept node ambient.expiryNow).nodes node).propose ambient node peer requestedLifetimeMs =
      some (s, request)) :
    BeginOutcome net node peer requestedLifetimeMs ambient
      { (net.swept node ambient.expiryNow).set node { s with pendingByPeer := s.pendingByPeer.erase peer } with
        used := randomKeyId ambient :: net.used }

theorem begin_eq_some {net net' : Network C} {node peer : NodeID} {requestedLifetimeMs : UInt64} {ambient : Ambient}
    {enqueued : Bool}
    (hnext : (Event.beginAesKeyNegotiation node peer requestedLifetimeMs ambient enqueued).next net = some net') :
    randomKeyId ambient ∉ net.used ∧ BeginOutcome net node peer requestedLifetimeMs ambient net' := by
  simp only [Event.next] at hnext
  split_ifs at hnext with hfresh
  refine ⟨hfresh, ?_⟩
  obtain rfl := Option.some.inj hnext
  simp only [beginAesKeyNegotiation]
  by_cases hself : peer = node
  · rw [if_pos hself]
    have hsame : ({ (net.set node (net.nodes node)).send [] with used := randomKeyId ambient :: net.used } : Network C) =
        { net with used := randomKeyId ambient :: net.used } := by
      simp [set, send]
    exact hsame ▸ .itself
  rw [if_neg hself]
  cases hpropose : ((net.nodes node).processExpiredAesKeys node ambient.expiryNow).1.propose ambient node peer
      requestedLifetimeMs with
  | none => exact .refused
  | some proposed =>
    obtain ⟨s, request⟩ := proposed
    rw [← swept_nodes_self] at hpropose
    cases enqueued with
    | true =>
      have hproposed := BeginOutcome.proposed (Ne.symm hself) hpropose
      rwa [swept, set_send_set_send] at hproposed
    | false =>
      have hunsent := BeginOutcome.unsent (Ne.symm hself) hpropose
      simpa only [swept, set, send, Function.update_idem, Bool.false_eq_true, if_false] using hunsent

end Network

namespace Ledger.Sound

variable {limits : NodeID → AesNegotiationLimits} {L : Ledger C} {net net' : Network C}

theorem sender_eq_some (h : Sound limits L net) {m : RSPMessage} (hm : m ∈ net.flight) :
    ∃ sender, senderNodeIdFromMessage m = some sender := by
  cases h.message hm <;> exact ⟨_, GUID.ofNative_toNative _⟩

theorem deliver (h : Sound limits L net) {index : Nat} {signature : Option SignatureBlock} {ambient : Ambient}
    (hnext : (Network.Event.deliver index signature ambient).next net = some net') :
    ∃ L' : Ledger C, L'.origin = L.origin ∧ Sound limits L' net' := by
  obtain ⟨m, node, hm, hnode, hresult⟩ := Network.deliver_eq_some hnext
  obtain ⟨sender, hsender⟩ := h.sender_eq_some (List.mem_of_getElem? hm)
  obtain ⟨L', horigin, hswept⟩ := h.sweep node ambient.expiryNow
  have hresult := hresult sender hsender
  generalize (net.nodes node).processExpiredAesKeys node ambient.expiryNow = swept at hswept hresult
  have hlt : index < net.flight.length := (List.getElem?_eq_some_iff.mp hm).1
  have hflight : ((net.set node swept.1).send swept.2).flight[index]? = some m :=
    (List.getElem?_append_left hlt).trans hm
  obtain ⟨L'', horigin', hhandled⟩ := hswept.handleSwept hflight ambient hsender hnode
  refine ⟨L'', horigin'.trans horigin, ?_⟩
  rw [hresult]
  rw [Network.send_nodes, Network.set_nodes_self] at hhandled
  simpa only [Network.set, Network.send, Function.update_idem, List.eraseIdx_append_of_lt_length hlt,
    List.append_assoc] using hhandled

/-- The request never gets into flight, and the pending entry goes again. -/
theorem unsent {node : NodeID} {s : AesNegotiationState C} {request : RSPMessage} {used : List Bytes}
    (h : Sound limits L { (net.set node s).send [request] with used }) (peer : NodeID) :
    Sound limits L { net.set node { s with pendingByPeer := s.pendingByPeer.erase peer } with used } := by
  have hforgets : Forgets { s with pendingByPeer := s.pendingByPeer.erase peer } ((net.set node s).nodes node) := by
    rw [Network.set_nodes_self]
    exact forgets_erasePending s peer
  have hunsent := (h.take (List.sublist_append_left net.flight [request])).forget hforgets
  simpa only [Network.set, Network.send, Function.update_idem] using hunsent

theorem begin (h : Sound limits L net) {node peer : NodeID} {requestedLifetimeMs : UInt64} {ambient : Ambient}
    {enqueued : Bool}
    (hnext : (Network.Event.beginAesKeyNegotiation node peer requestedLifetimeMs ambient enqueued).next net =
      some net') : ∃ L' : Ledger C, Sound limits L' net' := by
  obtain ⟨hfresh, houtcome⟩ := Network.begin_eq_some hnext
  obtain ⟨L', -, hswept⟩ := h.sweep node ambient.expiryNow
  cases houtcome with
  | itself => exact ⟨L, h.use _⟩
  | refused => exact ⟨L', hswept.use _⟩
  | proposed hne hpropose =>
    obtain ⟨key, hproposed⟩ := hswept.propose hne hfresh hpropose
    exact ⟨_, hproposed⟩
  | unsent hne hpropose =>
    obtain ⟨key, hproposed⟩ := hswept.propose hne hfresh hpropose
    exact ⟨_, hproposed.unsent peer⟩

theorem next (h : Sound limits L net) {event : Network.Event} (hnext : event.next net = some net') :
    ∃ L' : Ledger C, Sound limits L' net' := by
  cases event with
  | beginAesKeyNegotiation node peer requestedLifetimeMs ambient enqueued => exact h.begin hnext
  | dropAesKey node peer reason now =>
    obtain rfl := Option.some.inj hnext
    obtain ⟨L', -, hdropped⟩ := h.drop node peer reason now
    exact ⟨L', hdropped⟩
  | processExpiredAesKeys node now =>
    obtain rfl := Option.some.inj hnext
    obtain ⟨L', -, hswept⟩ := h.sweep node now
    exact ⟨L', hswept⟩
  | deliver index signature ambient =>
    obtain ⟨L', -, hdelivered⟩ := h.deliver hnext
    exact ⟨L', hdelivered⟩
  | lose index =>
    obtain rfl := Option.some.inj hnext
    exact ⟨L, h.take (net.flight.eraseIdx_sublist index)⟩

end Ledger.Sound

namespace Ledger

/-- Nothing has happened. -/
def empty (C : Crypto) : Ledger C where
  origin _ := none
  answer _ := none
  handled _ := False
  closed _ := False
  gone _ _ := False

theorem sound_empty (limits : NodeID → AesNegotiationLimits) :
    Sound limits (empty C) { nodes := fun node => { limits := limits node } } where
  ledger := by constructor <;> simp [empty]
  consistent node := .empty (limits node)
  pending hp := by simp at hp
  active ha := by simp at ha
  message hm := by simp at hm
  requests := by simp
  replies := by simp

theorem sound_of_reaches {limits : NodeID → AesNegotiationLimits} {net : Network C}
    (h : (Network.machine C limits).Reaches net) : ∃ L : Ledger C, Sound limits L net := by
  refine h.invariant (I := fun net => ∃ L : Ledger C, Sound limits L net) ?_ ?_
  · rintro s rfl
    exact ⟨empty C, sound_empty limits⟩
  · rintro s event s' ⟨L, hs⟩ hnext
    exact hs.next hnext

end Ledger

namespace Ledger

variable {L : Ledger C} {used : List Bytes} {keyId : Bytes} {A B : NodeID} {ownA otherA ownB otherB : KeyPair C}

theorem WellFormed.party_swap (h : L.WellFormed used) (hA : L.Party keyId A B ownA otherA)
    (hB : L.Party keyId B A ownB otherB) : ownB = otherA ∧ otherB = ownA := by
  rcases hA with ⟨horiginA, hanswerA, -⟩ | ⟨horiginA, hanswerA⟩ <;>
    rcases hB with ⟨horiginB, hanswerB, -⟩ | ⟨horiginB, hanswerB⟩ <;>
    rw [horiginA, Option.some.injEq, Prod.mk.injEq, Prod.mk.injEq] at horiginB <;>
    rw [hanswerA, Option.some.injEq] at hanswerB
  · exact absurd horiginB.1 (h.distinct horiginA)
  · exact ⟨hanswerB.symm, horiginB.2.2.symm⟩
  · exact ⟨horiginB.2.2.symm, hanswerB.symm⟩
  · exact absurd horiginB.1 (h.distinct horiginA)

theorem WellFormed.party_generated (h : L.WellFormed used) (hA : L.Party keyId A B ownA otherA) :
    (∃ seed, KeyPair.generateP256 C seed = .ok ownA) ∧ ∃ seed, KeyPair.generateP256 C seed = .ok otherA := by
  rcases hA with ⟨horigin, hanswer, -⟩ | ⟨horigin, hanswer⟩
  · exact ⟨h.origin_generated horigin, h.answer_generated hanswer⟩
  · exact ⟨h.answer_generated hanswer, h.origin_generated horigin⟩

end Ledger

/-- The two ends of a key id hold the same key material, in every run of any number of nodes. -/
theorem aes_keys_agree (hC : C.SymmetricAgreement) {limits : NodeID → AesNegotiationLimits} {net : Network C}
    (hnet : (Network.machine C limits).Reaches net) {A B : NodeID} {keyA keyB : ActiveAesKey}
    (hA : (net.nodes A).activeByPeer[B]? = some keyA) (hB : (net.nodes B).activeByPeer[A]? = some keyB)
    (hkeyId : keyA.keyId = keyB.keyId) : keyA.keyMaterial = keyB.keyMaterial := by
  obtain ⟨L, hsound⟩ := Ledger.sound_of_reaches hnet
  obtain ⟨ownA, otherA, publicA, peerA, secretA, hpartyA, hpublicA, hreadA, hsecretA, hmaterialA⟩ :=
    (hsound.active hA).agreed
  obtain ⟨ownB, otherB, publicB, peerB, secretB, hpartyB, hpublicB, hreadB, hsecretB, hmaterialB⟩ :=
    (hsound.active hB).agreed
  rw [← hkeyId] at hpartyB hmaterialB
  obtain ⟨rfl, rfl⟩ := hsound.ledger.party_swap hpartyA hpartyB
  obtain ⟨⟨seedA, hgeneratedA⟩, seedB, hgeneratedB⟩ := hsound.ledger.party_generated hpartyA
  have hsecret := hC seedA seedB _ _ peerB peerA publicB publicA hgeneratedA hgeneratedB hpublicB hpublicA hreadB hreadA
  rw [hsecretA, hsecretB, Option.some.injEq] at hsecret
  rw [hmaterialA, hmaterialB, hsecret, deriveAesKeyMaterial_comm]

/-- A key id never has a third party: in every run, two entries with one key id are at the same node for the same peer, or at the two ends of one pair. -/
theorem aes_key_two_parties {limits : NodeID → AesNegotiationLimits} {net : Network C}
    (hnet : (Network.machine C limits).Reaches net) {A B A' B' : NodeID} {key key' : ActiveAesKey}
    (hA : (net.nodes A).activeByPeer[B]? = some key) (hA' : (net.nodes A').activeByPeer[B']? = some key')
    (hkeyId : key.keyId = key'.keyId) : (A = A' ∧ B = B') ∨ (A = B' ∧ B = A') := by
  obtain ⟨L, hsound⟩ := Ledger.sound_of_reaches hnet
  obtain ⟨_, horigin⟩ := (hsound.active hA).between
  obtain ⟨_, horigin'⟩ := (hsound.active hA').between
  rw [← hkeyId] at horigin'
  rcases horigin with horigin | horigin <;> rcases horigin' with horigin' | horigin' <;>
    rw [horigin, Option.some.injEq, Prod.mk.injEq, Prod.mk.injEq] at horigin'
  all_goals tauto

theorem sampleCrypto_symmetricAgreement : sampleCrypto.SymmetricAgreement := by
  intro seed₁ seed₂ key₁ key₂ peer₁ peer₂ public₁ public₂ h₁ h₂ hpublic₁ hpublic₂ hread₁ hread₂
  obtain rfl := Except.ok.inj h₁
  obtain rfl := Except.ok.inj h₂
  obtain rfl := Except.ok.inj hpublic₁
  obtain rfl := Except.ok.inj hpublic₂
  obtain rfl := Except.ok.inj hread₁
  obtain rfl := Except.ok.inj hread₂
  simp only [deriveSharedSecret, sampleCrypto, Option.bind_some]
  rw [UInt8.add_comm]

/-- Node 1 asks node 2, which accepts; both then have the key. -/
def agreedNetwork : Option (Network sampleCrypto) :=
  (Network.machine sampleCrypto fun _ => {}).run { nodes := fun _ => {} }
    [.beginAesKeyNegotiation ⟨1, 1⟩ ⟨2, 2⟩ 0 { keySeed := 5, guid := ⟨7, 7⟩ } true,
      .deliver 0 none { keySeed := 9 }, .deliver 0 none {}]

theorem aes_keys_agree_sample : ∃ net keyA keyB, agreedNetwork = some net ∧
    (net.nodes ⟨1, 1⟩).activeByPeer[(⟨2, 2⟩ : NodeID)]? = some keyA ∧
    (net.nodes ⟨2, 2⟩).activeByPeer[(⟨1, 1⟩ : NodeID)]? = some keyB ∧ keyA.keyMaterial = keyB.keyMaterial := by
  have hrun : (agreedNetwork.any fun net =>
      let keyA := (net.nodes ⟨1, 1⟩).activeByPeer[(⟨2, 2⟩ : NodeID)]?
      let keyB := (net.nodes ⟨2, 2⟩).activeByPeer[(⟨1, 1⟩ : NodeID)]?
      keyA.isSome && keyB.isSome && keyA.map ActiveAesKey.keyId == keyB.map ActiveAesKey.keyId) = true := by
    decide +kernel
  cases hnet : agreedNetwork with
  | none =>
    rw [hnet] at hrun
    cases hrun
  | some net =>
    simp only [hnet, Option.any_some, Bool.and_eq_true, beq_iff_eq] at hrun
    obtain ⟨⟨hsomeA, hsomeB⟩, hkeyId⟩ := hrun
    obtain ⟨keyA, hA⟩ := Option.isSome_iff_exists.mp hsomeA
    obtain ⟨keyB, hB⟩ := Option.isSome_iff_exists.mp hsomeB
    rw [hA, hB, Option.map_some, Option.map_some, Option.some.injEq] at hkeyId
    have hreaches : (Network.machine sampleCrypto fun _ => {}).Reaches net := .run (.start rfl) hnet
    exact ⟨net, keyA, keyB, rfl, hA, hB,
      aes_keys_agree sampleCrypto_symmetricAgreement hreaches hA hB hkeyId⟩

theorem aes_key_two_parties_sample : ∃ net key, agreedNetwork = some net ∧
    (net.nodes ⟨1, 1⟩).activeByPeer[(⟨2, 2⟩ : NodeID)]? = some key ∧ ∀ (A B : NodeID) (key' : ActiveAesKey),
      (net.nodes A).activeByPeer[B]? = some key' → key.keyId = key'.keyId →
        (⟨1, 1⟩ = A ∧ ⟨2, 2⟩ = B) ∨ (⟨1, 1⟩ = B ∧ ⟨2, 2⟩ = A) := by
  have hrun : (agreedNetwork.any fun net => (net.nodes ⟨1, 1⟩).activeByPeer[(⟨2, 2⟩ : NodeID)]?.isSome) = true := by
    decide +kernel
  obtain ⟨net, hnet, hsome⟩ := (Option.any_eq_true ..).mp hrun
  obtain ⟨key, hkey⟩ := Option.isSome_iff_exists.mp hsome
  exact ⟨net, key, hnet, hkey, fun _ _ _ hA' => aes_key_two_parties (.run (.start rfl) hnet) hkey hA'⟩

end Rsp
