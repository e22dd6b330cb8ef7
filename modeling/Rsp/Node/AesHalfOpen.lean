import Rsp.Node.AesAgreement

/-!
# Half-open keys

Over a network that loses nothing, a node that gives up a key tells the other end, by a drop notification or by an error on which the other end gives the key up too. One error does not do this: a reply that finds the initiator's table full is answered with `KEY_LIMIT_REACHED`, which the responder ignores, so it keeps a key that the initiator does not have. If the initiator has room whenever its reply arrives, then with nothing in flight both ends have a key or neither has.
-/

namespace Rsp

open Proto AesNegotiationState

variable {C : Crypto}

namespace AesNegotiationState

def HasActive (s : AesNegotiationState C) (peer : NodeID) (keyId : Bytes) : Prop :=
  ∃ active, s.activeByPeer[peer]? = some active ∧ active.keyId = keyId

def HasPending (s : AesNegotiationState C) (peer : NodeID) (keyId : Bytes) : Prop :=
  ∃ pending, s.pendingByPeer[peer]? = some pending ∧ pending.keyId = keyId

theorem Forgets.hasActive {s s' : AesNegotiationState C} (h : Forgets s' s) {peer : NodeID} {keyId : Bytes}
    (hactive : s'.HasActive peer keyId) : s.HasActive peer keyId := by
  obtain ⟨active, hget, hid⟩ := hactive
  exact ⟨active, h.active.getElem? hget, hid⟩

theorem Forgets.hasPending {s s' : AesNegotiationState C} (h : Forgets s' s) {peer : NodeID} {keyId : Bytes}
    (hpending : s'.HasPending peer keyId) : s.HasPending peer keyId := by
  obtain ⟨pending, hget, hid⟩ := hpending
  exact ⟨pending, h.pending.getElem? hget, hid⟩

/-- A new entry for a peer without one. -/
theorem hasActive_insert_iff {s : AesNegotiationState C} {sender : NodeID} (habsent : sender ∉ s.activeByPeer)
    (active : ActiveAesKey) (pending : Std.TreeMap NodeID (PendingAesNegotiation C)) (peer : NodeID) (keyId : Bytes) :
    HasActive { s with activeByPeer := s.activeByPeer.insert sender active, pendingByPeer := pending } peer keyId ↔
      s.HasActive peer keyId ∨ (peer = sender ∧ active.keyId = keyId) := by
  constructor
  · rintro ⟨found, hget, rfl⟩
    rw [Std.TreeMap.getElem?_insert] at hget
    by_cases heq : compare sender peer = .eq
    · rw [if_pos heq] at hget
      exact .inr ⟨(Std.compare_eq_iff_eq.mp heq).symm, by rw [Option.some.inj hget]⟩
    · rw [if_neg heq] at hget
      exact .inl ⟨found, hget, rfl⟩
  · rintro (⟨found, hget, rfl⟩ | ⟨rfl, rfl⟩)
    · have hne : ¬ compare sender peer = .eq := by
        intro heq
        obtain rfl := Std.compare_eq_iff_eq.mp heq
        rw [Std.TreeMap.mem_iff_isSome_getElem?, hget] at habsent
        exact habsent rfl
      refine ⟨found, ?_, rfl⟩
      rw [Std.TreeMap.getElem?_insert, if_neg hne]
      exact hget
    · exact ⟨active, by simp, rfl⟩

end AesNegotiationState

section

variable {s : AesNegotiationState C} {sender peer : NodeID} {keyId k : Bytes}

theorem eraseActiveIf_erasePendingIf :
    (s.erasePendingIf sender keyId).eraseActiveIf sender keyId =
      (s.eraseActiveIf sender keyId).erasePendingIf sender keyId := by
  unfold eraseActiveIf erasePendingIf
  cases hpending : s.pendingByPeer[sender]? with
  | none =>
    cases hactive : s.activeByPeer[sender]? with
    | none => simp [hpending]
    | some active => by_cases hid : active.keyId = keyId <;> simp [hpending, hid]
  | some pending =>
    cases hactive : s.activeByPeer[sender]? with
    | none => by_cases hid : pending.keyId = keyId <;> simp [hpending, hactive, hid]
    | some active =>
      by_cases hid : pending.keyId = keyId <;> by_cases hid' : active.keyId = keyId <;>
        simp [hpending, hactive, hid, hid']

/-- Only the named key with the sender is dropped. -/
theorem hasActive_of_dropped (sender : NodeID) (keyId : Bytes) (h : s.HasActive peer k) :
    ((s.eraseActiveIf sender keyId).erasePendingIf sender keyId).HasActive peer k ∨ (sender = peer ∧ keyId = k) := by
  obtain ⟨active, hget, rfl⟩ := h
  by_cases heq : sender = peer ∧ keyId = active.keyId
  · exact .inr heq
  · refine .inl ⟨active, ?_, rfl⟩
    rw [erasePendingIf_activeByPeer]
    unfold eraseActiveIf
    split
    · next found hfound =>
      split_ifs with hid
      · rw [Std.TreeMap.getElem?_erase, if_neg]
        · exact hget
        · intro hcompare
          obtain rfl := Std.compare_eq_iff_eq.mp hcompare
          rw [hget, Option.some.injEq] at hfound
          exact heq ⟨rfl, by rw [hfound, hid]⟩
      · exact hget
    · exact hget

theorem not_hasActive_of_dropped : ¬ ((s.eraseActiveIf sender keyId).erasePendingIf sender keyId).HasActive sender keyId := by
  rintro ⟨active, hget, hid⟩
  rw [erasePendingIf_activeByPeer] at hget
  exact eraseActiveIf_active hget hid

theorem not_hasPending_of_dropped :
    ¬ ((s.eraseActiveIf sender keyId).erasePendingIf sender keyId).HasPending sender keyId := by
  rintro ⟨pending, hget, hid⟩
  exact erasePendingIf_pending hget hid

end

/-- A generated key exports its public part, which can be read again. -/
theorem KeyPair.publicKey_of_generated (hC : C.RoundTrips) {seed : Nat} {own : KeyPair C}
    (hown : KeyPair.generateP256 C seed = .ok own) :
    ∃ publicKey exported, own.publicKey = .ok publicKey ∧ KeyPair.fromPublicKey publicKey = .ok (exported : KeyPair C) := by
  unfold KeyPair.generateP256 at hown
  split at hown
  · cases hown
  · next k hk =>
    unfold KeyPair.ofKey at hown
    split at hown
    · next hvalid =>
      obtain rfl := Except.ok.inj hown
      obtain ⟨pem, exported, der, hwrite, hpem, hread, hexported, -⟩ := hC k hvalid
      refine ⟨{ algorithm := .p256, publicKey := pem }, ⟨some exported, by simpa using hexported⟩, ?_, ?_⟩
      · simp [KeyPair.publicKey, hwrite]
      · simp [KeyPair.fromPublicKey, hpem, hread, KeyPair.ofKey_eq_ok hexported]
    · cases hown

/-! ### Messages that end a key -/

/-- On such a message the receiver gives up its key with this id. -/
inductive EndsKey (keyId : Bytes) : CoreMessage → Prop
  | drop (reason : Bytes) : EndsKey keyId (.aesKeyDropNotification { keyId := some ⟨keyId⟩, reason })
  | error {errorCode : KeyNegotiationError} (hfinal : Ledger.IsFinal errorCode) (text : Bytes) :
    EndsKey keyId (.aesKeyNegotiationError { errorCode, keyId := some ⟨keyId⟩, message := text })

structure IsNotice (node peer : NodeID) (keyId : Bytes) (m : RSPMessage) : Prop where
  source : m.source = some (toProtoNodeId node)
  destination : m.destination = some (toProtoNodeId peer)
  ends : EndsKey keyId m.coreMessage

namespace IsNotice

theorem drop (node peer : NodeID) (keyId reason : Bytes) :
    IsNotice node peer keyId (makeAesKeyDropNotification node peer keyId reason) := ⟨rfl, rfl, .drop reason⟩

theorem error (node peer : NodeID) (keyId : Bytes) {errorCode : KeyNegotiationError}
    (hfinal : Ledger.IsFinal errorCode) (text : String) :
    IsNotice node peer keyId (makeAesKeyNegotiationError node peer errorCode (some keyId) text) :=
  ⟨rfl, rfl, .error hfinal (ascii text)⟩

end IsNotice

namespace Network

def Noticed (net : Network C) (node peer : NodeID) (keyId : Bytes) : Prop :=
  ∃ m ∈ net.flight, IsNotice node peer keyId m

def Replied (net : Network C) (keyId : Bytes) : Prop := keyId ∈ net.flight.filterMap repliedKeyId

/-- A message is still under way, or it was the one taken out. -/
theorem mem_eraseIdx_or_eq {flight : List RSPMessage} {index : Nat} {m taken : RSPMessage}
    (htaken : flight[index]? = some taken) (hm : m ∈ flight) : m ∈ flight.eraseIdx index ∨ m = taken := by
  obtain ⟨hlt, rfl⟩ := List.getElem?_eq_some_iff.mp htaken
  rcases List.mem_cons.mp ((List.getElem_cons_eraseIdx_perm hlt).mem_iff.mpr hm) with heq | hmem
  · exact .inr heq
  · exact .inl hmem

end Network

/-- Whoever has a key, or is about to get it from a reply in flight, has a partner with the key or a message that ends it. -/
structure Ledger.Balanced (L : Ledger C) (net : Network C) : Prop where
  initiator : ∀ {keyId node peer key}, L.origin keyId = some (node, peer, key) →
    (net.nodes node).HasActive peer keyId ∨ ((net.nodes node).HasPending peer keyId ∧ net.Replied keyId) →
    (net.nodes peer).HasActive node keyId ∨ net.Noticed peer node keyId
  responder : ∀ {keyId node peer key}, L.origin keyId = some (node, peer, key) →
    (net.nodes peer).HasActive node keyId →
    (net.nodes node).HasActive peer keyId ∨ net.Replied keyId ∨ net.Noticed node peer keyId

namespace Ledger.Balanced

variable {limits : NodeID → AesNegotiationLimits} {L : Ledger C} {net : Network C}

theorem not_gone_of_hasActive (h : Sound limits L net) {node peer : NodeID} {keyId : Bytes}
    (hactive : (net.nodes node).HasActive peer keyId) : ¬ L.gone keyId node := by
  obtain ⟨active, hget, rfl⟩ := hactive
  exact (h.active hget).not_gone

theorem not_gone_of_hasPending (h : Sound limits L net) {node peer : NodeID} {keyId : Bytes}
    (hpending : (net.nodes node).HasPending peer keyId) : ¬ L.gone keyId node := by
  obtain ⟨pending, hget, rfl⟩ := hpending
  exact (h.pending hget).2

/-- A step that only removes entries: every key it removes is announced or was already given up by the other end, a message that ends a key has done so when it is gone, and a refused reply is answered with one. -/
theorem forget (hb : L.Balanced net) (h : Sound limits L net) {node : NodeID} {s : AesNegotiationState C}
    {rest messages : List RSPMessage} (hforgets : Forgets s (net.nodes node))
    (hlost : ∀ {peer keyId}, (net.nodes node).HasActive peer keyId →
      s.HasActive peer keyId ∨ (∃ m ∈ messages, IsNotice node peer keyId m) ∨ L.gone keyId peer)
    (hnoticed : ∀ {sender peer keyId}, net.Noticed sender peer keyId → (∃ m ∈ rest, IsNotice sender peer keyId m) ∨
      (peer = node ∧ ¬ s.HasActive sender keyId ∧ ¬ s.HasPending sender keyId))
    (hreplied : ∀ {keyId}, keyId ∈ (rest ++ messages).filterMap repliedKeyId → net.Replied keyId)
    (hrefused : ∀ {keyId}, net.Replied keyId → keyId ∈ (rest ++ messages).filterMap repliedKeyId ∨
      ∀ {initiator peer key}, L.origin keyId = some (initiator, peer, key) →
        ∃ m ∈ messages, IsNotice initiator peer keyId m) :
    L.Balanced (({ net with flight := rest }.set node s).send messages) := by
  set net' := ({ net with flight := rest }.set node s).send messages with hnet'
  have hself : net'.nodes node = s := Function.update_self ..
  have hother : ∀ {n}, n ≠ node → net'.nodes n = net.nodes n := fun hne => Function.update_of_ne hne ..
  have hactive : ∀ {n p k}, (net'.nodes n).HasActive p k → (net.nodes n).HasActive p k := by
    intro n p k hk
    by_cases heq : n = node
    · subst heq
      rw [hself] at hk
      exact hforgets.hasActive hk
    · rwa [hother heq] at hk
  have hpending : ∀ {n p k}, (net'.nodes n).HasPending p k → (net.nodes n).HasPending p k := by
    intro n p k hk
    by_cases heq : n = node
    · subst heq
      rw [hself] at hk
      exact hforgets.hasPending hk
    · rwa [hother heq] at hk
  -- an active entry stays, or is announced, or the other end has given the key up
  have hkeep : ∀ {n p k}, (net.nodes n).HasActive p k →
      (net'.nodes n).HasActive p k ∨ net'.Noticed n p k ∨ L.gone k p := by
    intro n p k hk
    by_cases heq : n = node
    · subst heq
      rw [hself]
      refine (hlost hk).imp_right fun hk => hk.imp_left ?_
      rintro ⟨m, hm, hnotice⟩
      exact ⟨m, List.mem_append_right _ hm, hnotice⟩
    · rw [hother heq]
      exact .inl hk
  -- a notice stays, or has taken effect
  have hstay : ∀ {n p k}, net.Noticed n p k →
      net'.Noticed n p k ∨ (¬ (net'.nodes p).HasActive n k ∧ ¬ (net'.nodes p).HasPending n k) := by
    intro n p k hk
    rcases hnoticed hk with ⟨m, hm, hnotice⟩ | ⟨rfl, hnone⟩
    · exact .inl ⟨m, List.mem_append_left _ hm, hnotice⟩
    · rw [hself]
      exact .inr hnone
  constructor
  · intro keyId i j key horigin hinit
    have hold : (net.nodes i).HasActive j keyId ∨ ((net.nodes i).HasPending j keyId ∧ net.Replied keyId) :=
      hinit.imp hactive fun hp => ⟨hpending hp.1, hreplied hp.2⟩
    have hgone : ¬ L.gone keyId i :=
      hold.elim (not_gone_of_hasActive h) fun hp => not_gone_of_hasPending h hp.1
    rcases hb.initiator horigin hold with hpeer | hnotice
    · rcases hkeep hpeer with hk | hk | hk
      · exact .inl hk
      · exact .inr hk
      · exact absurd hk hgone
    · rcases hstay hnotice with hk | ⟨hnone, hnone'⟩
      · exact .inr hk
      · exact absurd hinit (not_or.mpr ⟨hnone, fun hp => hnone' hp.1⟩)
  · intro keyId i j key horigin hresp
    have hgone : ¬ L.gone keyId j := not_gone_of_hasActive h (hactive hresp)
    rcases hb.responder horigin (hactive hresp) with hpeer | hreply | hnotice
    · rcases hkeep hpeer with hk | hk | hk
      · exact .inl hk
      · exact .inr (.inr hk)
      · exact absurd hk hgone
    · rcases hrefused hreply with hk | hk
      · exact .inr (.inl hk)
      · obtain ⟨m, hm, hnotice⟩ := hk horigin
        exact .inr (.inr ⟨m, List.mem_append_right _ hm, hnotice⟩)
    · rcases hstay hnotice with hk | ⟨hnone, -⟩
      · exact .inr (.inr hk)
      · exact absurd hresp hnone

/-- A step that adds one active key: at the responder while it sends the reply, or at the initiator when it takes the reply. -/
theorem enter (hb : L.Balanced net) {node sender : NodeID} {active : ActiveAesKey}
    {pending : Std.TreeMap NodeID (PendingAesNegotiation C)} {rest messages : List RSPMessage}
    (habsent : sender ∉ (net.nodes node).activeByPeer) (hpendings : Within pending (net.nodes node).pendingByPeer)
    (hnotices : ∀ {n p k}, net.Noticed n p k → ∃ m ∈ rest, IsNotice n p k m)
    (hinitiator : ∀ {key}, L.origin active.keyId = some (node, sender, key) →
      (net.nodes sender).HasActive node active.keyId ∨ net.Noticed sender node active.keyId)
    (hresponder : ∀ {key}, L.origin active.keyId = some (sender, node, key) →
      active.keyId ∈ (rest ++ messages).filterMap repliedKeyId)
    (hreplied : ∀ {keyId}, keyId ∈ (rest ++ messages).filterMap repliedKeyId → net.Replied keyId ∨
      (keyId = active.keyId ∧ ∃ key, L.origin keyId = some (sender, node, key)))
    (htaken : ∀ {keyId}, net.Replied keyId → keyId ∈ (rest ++ messages).filterMap repliedKeyId ∨
      (keyId = active.keyId ∧ ∃ key, L.origin keyId = some (node, sender, key))) :
    L.Balanced (({ net with flight := rest }.set node
      { net.nodes node with
        activeByPeer := (net.nodes node).activeByPeer.insert sender active
        pendingByPeer := pending }).send messages) := by
  set net' := ({ net with flight := rest }.set node
      { net.nodes node with
        activeByPeer := (net.nodes node).activeByPeer.insert sender active
        pendingByPeer := pending }).send messages with hnet'
  have hself : net'.nodes node = { net.nodes node with
      activeByPeer := (net.nodes node).activeByPeer.insert sender active
      pendingByPeer := pending } := Function.update_self ..
  have hother : ∀ {n}, n ≠ node → net'.nodes n = net.nodes n := fun hne => Function.update_of_ne hne ..
  have hactive : ∀ n p k, (net'.nodes n).HasActive p k ↔
      (net.nodes n).HasActive p k ∨ (n = node ∧ p = sender ∧ active.keyId = k) := by
    intro n p k
    by_cases heq : n = node
    · subst heq
      rw [hself, hasActive_insert_iff habsent]
      simp
    · rw [hother heq]
      simp [heq]
  have hpending : ∀ {n p k}, (net'.nodes n).HasPending p k → (net.nodes n).HasPending p k := by
    rintro n p k ⟨found, hget, rfl⟩
    by_cases heq : n = node
    · subst heq
      rw [hself] at hget
      exact ⟨found, hpendings.getElem? hget, rfl⟩
    · rw [hother heq] at hget
      exact ⟨found, hget, rfl⟩
  have hnew : (net'.nodes node).HasActive sender active.keyId := (hactive _ _ _).mpr (.inr ⟨rfl, rfl, rfl⟩)
  have hmono : ∀ {n p k}, (net.nodes n).HasActive p k → (net'.nodes n).HasActive p k := fun hk =>
    (hactive _ _ _).mpr (.inl hk)
  have hstay : ∀ {n p k}, net.Noticed n p k → net'.Noticed n p k := by
    intro n p k hk
    obtain ⟨m, hm, hnotice⟩ := hnotices hk
    exact ⟨m, List.mem_append_left _ hm, hnotice⟩
  constructor
  · intro keyId i j key horigin hinit
    rcases hinit with hk | ⟨hp, hr⟩
    · rcases (hactive _ _ _).mp hk with hold | ⟨rfl, rfl, rfl⟩
      · exact (hb.initiator horigin (.inl hold)).imp hmono hstay
      · exact (hinitiator horigin).imp hmono hstay
    · rcases hreplied hr with hold | ⟨rfl, key', horigin'⟩
      · exact (hb.initiator horigin (.inr ⟨hpending hp, hold⟩)).imp hmono hstay
      · rw [horigin, Option.some.injEq, Prod.mk.injEq, Prod.mk.injEq] at horigin'
        obtain ⟨rfl, rfl, -⟩ := horigin'
        exact .inl hnew
  · intro keyId i j key horigin hresp
    rcases (hactive _ _ _).mp hresp with hold | ⟨rfl, rfl, rfl⟩
    · rcases hb.responder horigin hold with hk | hk | hk
      · exact .inl (hmono hk)
      · rcases htaken hk with hr | ⟨rfl, key', horigin'⟩
        · exact .inr (.inl hr)
        · rw [horigin, Option.some.injEq, Prod.mk.injEq, Prod.mk.injEq] at horigin'
          obtain ⟨rfl, rfl, -⟩ := horigin'
          exact .inl hnew
      · exact .inr (.inr (hstay hk))
    · exact .inr (.inl (hresponder horigin))

/-- A proposal with a fresh key id. -/
theorem propose (hb : L.Balanced net) (h : Sound limits L net) {node peer : NodeID} {ambient : Ambient}
    (hfresh : randomKeyId ambient ∉ net.used) {requestedLifetimeMs : UInt64} {s : AesNegotiationState C}
    {request : RSPMessage}
    (hpropose : (net.nodes node).propose ambient node peer requestedLifetimeMs = some (s, request)) (key : KeyPair C) :
    (L.ask (randomKeyId ambient) node peer key).Balanced
      { (net.set node s).send [request] with used := randomKeyId ambient :: net.used } := by
  obtain ⟨pending, publicKey, -, -, -, -, hkeyId, -, -, rfl, rfl⟩ := propose_eq_some hpropose
  set net' : Network C := { (net.set node { net.nodes node with
      pendingByPeer := (net.nodes node).pendingByPeer.insert peer pending }).send
    [makeAesKeyNegotiationRequest node peer (randomKeyId ambient) publicKey
      (clampLifetimeMs requestedLifetimeMs (net.nodes node).limits)] with
    used := randomKeyId ambient :: net.used } with hnet'
  have hself : net'.nodes node = { net.nodes node with
      pendingByPeer := (net.nodes node).pendingByPeer.insert peer pending } := Function.update_self ..
  have hother : ∀ {n}, n ≠ node → net'.nodes n = net.nodes n := fun hne => Function.update_of_ne hne ..
  have hactive : ∀ n p k, (net'.nodes n).HasActive p k ↔ (net.nodes n).HasActive p k := by
    intro n p k
    by_cases heq : n = node
    · subst heq
      rw [hself]
      rfl
    · rw [hother heq]
  have hpending : ∀ {n p k}, (net'.nodes n).HasPending p k → k = randomKeyId ambient ∨ (net.nodes n).HasPending p k := by
    rintro n p k ⟨found, hget, rfl⟩
    by_cases heq : n = node
    · subst heq
      rw [hself, Std.TreeMap.getElem?_insert] at hget
      split_ifs at hget
      · exact .inl (Option.some.inj hget ▸ hkeyId)
      · exact .inr ⟨found, hget, rfl⟩
    · rw [hother heq] at hget
      exact .inr ⟨found, hget, rfl⟩
  have hreplied : ∀ {k}, net'.Replied k ↔ net.Replied k := by
    intro k
    simp only [Network.Replied, hnet', Network.send, Network.set, List.filterMap_append]
    exact List.append_nil _ ▸ Iff.rfl
  have hstay : ∀ {n p k}, net.Noticed n p k → net'.Noticed n p k := by
    rintro n p k ⟨m, hm, hnotice⟩
    exact ⟨m, List.mem_append_left _ hm, hnotice⟩
  have hunused : ∀ {n p k}, (net.nodes n).HasActive p k → k ≠ randomKeyId ambient := by
    rintro n p k ⟨found, hget, rfl⟩ heq
    obtain ⟨o, ho⟩ := h.ledger.handled_origin (h.ledger.active_handled (h.active hget))
    exact hfresh (heq ▸ h.ledger.used ho)
  have hunreplied : ∀ {k}, net.Replied k → k ≠ randomKeyId ambient := by
    intro k hk heq
    obtain ⟨o, ho⟩ := h.ledger.handled_origin (h.handled_of_replied hk)
    exact hfresh (heq ▸ h.ledger.used ho)
  have horigin : ∀ {k n p e}, (L.ask (randomKeyId ambient) node peer key).origin k = some (n, p, e) →
      k ≠ randomKeyId ambient → L.origin k = some (n, p, e) := by
    intro k n p e ho hne
    simpa only [Ledger.ask, Function.update_of_ne hne] using ho
  constructor
  · intro keyId i j e ho hinit
    have hold : (net.nodes i).HasActive j keyId ∨ ((net.nodes i).HasPending j keyId ∧ net.Replied keyId) := by
      refine hinit.imp (hactive _ _ _).mp fun hp => ?_
      have hr := hreplied.mp hp.2
      exact ⟨(hpending hp.1).resolve_left (hunreplied hr), hr⟩
    have hne : keyId ≠ randomKeyId ambient := hold.elim hunused fun hp => hunreplied hp.2
    exact (hb.initiator (horigin ho hne) hold).imp (hactive _ _ _).mpr hstay
  · intro keyId i j e ho hresp
    have hold := (hactive _ _ _).mp hresp
    refine (hb.responder (horigin ho (hunused hold)) hold).imp (hactive _ _ _).mpr fun hk => ?_
    exact hk.imp hreplied.mpr hstay

theorem congr (hb : L.Balanced net) {L' : Ledger C} (horigin : L'.origin = L.origin) : L'.Balanced net :=
  ⟨fun ho => hb.initiator (horigin ▸ ho), fun ho => hb.responder (horigin ▸ ho)⟩

/-- The same with all messages still under way. -/
theorem announce (hb : L.Balanced net) (h : Sound limits L net) {node : NodeID} {s : AesNegotiationState C}
    {messages : List RSPMessage} (hforgets : Forgets s (net.nodes node))
    (hlost : ∀ {peer keyId}, (net.nodes node).HasActive peer keyId →
      s.HasActive peer keyId ∨ ∃ m ∈ messages, IsNotice node peer keyId m)
    (hmessages : ∀ m ∈ messages, repliedKeyId m = none) : L.Balanced ((net.set node s).send messages) := by
  have hreplies : (net.flight ++ messages).filterMap repliedKeyId = net.flight.filterMap repliedKeyId := by
    rw [List.filterMap_append, List.filterMap_eq_nil_iff.mpr hmessages, List.append_nil]
  refine hb.forget h hforgets (fun hk => (hlost hk).imp_right .inl) .inl ?_ ?_
  · intro keyId hk
    rwa [hreplies] at hk
  · intro keyId hk
    rw [hreplies]
    exact .inl hk

theorem sweep (hb : L.Balanced net) (h : Sound limits L net) (node : NodeID) (now : DateTime) :
    let swept := (net.nodes node).processExpiredAesKeys node now
    L.Balanced ((net.set node swept.1).send swept.2) := by
  refine hb.announce h (forgets_processExpiredAesKeys node now _) ?_ ?_
  · rintro peer keyId ⟨active, hget, rfl⟩
    by_cases hexpired : active.expiresAt > now
    · refine .inl ⟨active, ?_, rfl⟩
      simp only [processExpiredAesKeys]
      rw [Std.TreeMap.getElem?_filter', hget, Option.filter_some, if_pos (by simpa using hexpired)]
    · refine .inr ⟨makeAesKeyDropNotification node peer active.keyId (ascii "expired"), ?_, .drop ..⟩
      simp only [processExpiredAesKeys, List.mem_map, List.mem_filter]
      refine ⟨(peer, active), ⟨Std.TreeMap.mem_toList_iff_getElem?_eq_some.mpr hget, ?_⟩, rfl⟩
      simpa using hexpired
  · intro m hm
    simp only [processExpiredAesKeys, List.mem_map] at hm
    obtain ⟨entry, -, rfl⟩ := hm
    rfl

theorem dropActive (hb : L.Balanced net) (h : Sound limits L net) {node peer : NodeID} {active : ActiveAesKey}
    (hactive : (net.nodes node).activeByPeer[peer]? = some active) (reason : Bytes) :
    L.Balanced ((net.set node
      { net.nodes node with
        pendingByPeer := (net.nodes node).pendingByPeer.erase peer
        activeByPeer := (net.nodes node).activeByPeer.erase peer }).send
      [makeAesKeyDropNotification node peer active.keyId reason]) := by
  refine hb.announce h ⟨rfl, .erase _ _, .erase _ _⟩ ?_ ?_
  · rintro other keyId ⟨found, hget, rfl⟩
    by_cases heq : other = peer
    · subst heq
      rw [hactive, Option.some.injEq] at hget
      subst hget
      exact .inr ⟨_, List.mem_singleton_self _, .drop ..⟩
    · refine .inl ⟨found, ?_, rfl⟩
      rw [Std.TreeMap.getElem?_erase, if_neg]
      · exact hget
      · rw [Std.compare_eq_iff_eq]
        exact Ne.symm heq
  · intro m hm
    obtain rfl := List.mem_singleton.mp hm
    rfl

theorem drop (hb : L.Balanced net) (h : Sound limits L net) (node peer : NodeID) (reason : Bytes) (now : DateTime) :
    let result := (net.nodes node).dropAesKey node peer reason now true
    L.Balanced ((net.set node result.1).send result.2.1) := by
  obtain ⟨L', horigin, hsweptSound⟩ := h.sweep node now
  have hswept := (hb.sweep h node now).congr horigin
  simp only [dropAesKey]
  generalize (net.nodes node).processExpiredAesKeys node now = swept at hsweptSound hswept ⊢
  have hnode : ((net.set node swept.1).send swept.2).nodes node = swept.1 := net.set_nodes_self node swept.1
  cases hactive : swept.1.activeByPeer[peer]? with
  | none =>
    have hforgets := forgets_erasePending swept.1 peer
    rw [← hnode] at hforgets
    have hdone := hswept.announce hsweptSound hforgets (fun hk => .inl (hnode ▸ hk)) (fun m (hm : m ∈ []) => by cases hm)
    rw [Network.set_send_set_send, List.append_nil, hnode] at hdone
    exact hdone.congr horigin.symm
  | some active =>
    rw [← hnode] at hactive
    have hdone := hswept.dropActive hsweptSound hactive (if reason.isEmpty then ascii "local_drop" else reason)
    rw [Network.set_send_set_send, hnode] at hdone
    exact hdone.congr horigin.symm

/-! ### Handling a message -/

section

variable {index : Nat} {m : RSPMessage} {keyId : Bytes} {node sender : NodeID} {key : KeyPair C} {ambient : Ambient}

/-- A message that ends no key leaves every such message under way. -/
theorem noticed_of_taken (hflight : net.flight[index]? = some m) (hm : ∀ {n p k}, ¬ IsNotice n p k m)
    {n p : NodeID} {k : Bytes} (hk : net.Noticed n p k) : ∃ m ∈ net.flight.eraseIdx index, IsNotice n p k m := by
  obtain ⟨notice, hmem, hnotice⟩ := hk
  rcases Network.mem_eraseIdx_or_eq hflight hmem with hrest | rfl
  · exact ⟨notice, hrest, hnotice⟩
  · exact absurd hnotice hm

/-- A message that is no reply leaves every reply under way. -/
theorem replied_of_taken (hflight : net.flight[index]? = some m) {k : Bytes} (hm : repliedKeyId m ≠ some k)
    (hk : net.Replied k) : k ∈ (net.flight.eraseIdx index).filterMap repliedKeyId := by
  obtain ⟨reply, hmem, hid⟩ := List.mem_filterMap.mp hk
  rcases Network.mem_eraseIdx_or_eq hflight hmem with hrest | rfl
  · exact List.mem_filterMap.mpr ⟨reply, hrest, hid⟩
  · exact absurd hid hm

theorem replied_of_rest {messages : List RSPMessage} (hmessages : ∀ m ∈ messages, repliedKeyId m = none) {k : Bytes}
    (hk : k ∈ (net.flight.eraseIdx index ++ messages).filterMap repliedKeyId) : net.Replied k := by
  rw [List.filterMap_append, List.filterMap_eq_nil_iff.mpr hmessages, List.append_nil] at hk
  exact ((net.flight.eraseIdx_sublist index).filterMap _).subset hk

/-- Who asked for a key is not the one who was asked. -/
theorem not_origin_swap (h : Sound limits L net) (horigin : L.origin keyId = some (sender, node, key))
    {key' : KeyPair C} : L.origin keyId ≠ some (node, sender, key') := by
  intro hother
  rw [horigin, Option.some.injEq, Prod.mk.injEq] at hother
  exact h.ledger.distinct (hother.1 ▸ horigin) rfl

theorem handleRequest (hC : C.RoundTrips) (hb : L.Balanced net) (h : Sound limits L net)
    (hflight : net.flight[index]? = some m) (hnotice : ∀ {n p k}, ¬ IsNotice n p k m) (hm : repliedKeyId m = none)
    (horigin : L.origin keyId = some (sender, node, key)) {publicKey : PublicKey} {lifetimeMs : UInt64}
    {result : AesNegotiationState C × RSPMessage}
    (houtcome : RequestOutcome ambient node sender
      { keyId := some ⟨keyId⟩, ephemeralPublicKey := some publicKey, requestedLifetimeMs := lifetimeMs,
        algorithm := .p256Sha256Aes256 } (net.nodes node) result) :
    L.Balanced (({ net with flight := net.flight.eraseIdx index }.set node result.1).send [result.2]) := by
  have hkept : ∀ {k messages}, net.Replied k →
      k ∈ (net.flight.eraseIdx index ++ messages).filterMap repliedKeyId := by
    intro k messages hk
    rw [List.filterMap_append]
    exact List.mem_append_left _ (replied_of_taken hflight (by simp [hm]) hk)
  cases houtcome with
  | refuse errorCode text =>
    refine hb.forget h (Forgets.refl _) .inl (fun hk => .inl (noticed_of_taken hflight hnotice hk)) ?_
      (fun hk => .inl (hkept hk))
    intro k hk
    refine replied_of_rest (fun answer hanswer => ?_) hk
    obtain rfl := List.mem_singleton.mp hanswer
    rfl
  | @accept acceptedId sharedSecret acceptedPublic own peer message hid hvalid hkey hpending hactive hroom hpeer hown
      hsecret hmessage =>
    obtain rfl : keyId = acceptedId := by simpa using hid
    obtain ⟨ownPublic, -, hexport, -⟩ := KeyPair.publicKey_of_generated hC hown
    obtain ⟨fault, hfault, -⟩ | ⟨sent, -, rfl⟩ := hmessage
    · rw [hexport] at hfault
      cases hfault
    refine hb.enter hactive (.refl _) (noticed_of_taken hflight hnotice) ?_ ?_ ?_ (fun hk => .inl (hkept hk))
    · intro key' hother
      exact absurd hother (not_origin_swap h horigin)
    · intro key' _
      rw [List.filterMap_append]
      exact List.mem_append_right _ (List.mem_singleton_self keyId)
    · intro k hk
      rw [List.filterMap_append] at hk
      rcases List.mem_append.mp hk with hold | hnew
      · exact .inl (((net.flight.eraseIdx_sublist index).filterMap _).subset hold)
      · obtain rfl : k = keyId := List.mem_singleton.mp hnew
        exact .inr ⟨rfl, key, horigin⟩

theorem handleReply (hC : C.RoundTrips) (hb : L.Balanced net) (h : Sound limits L net)
    (hflight : net.flight[index]? = some m) (hnotice : ∀ {n p k}, ¬ IsNotice n p k m)
    (hm : repliedKeyId m = some keyId) (horigin : L.origin keyId = some (node, sender, key)) {answer : KeyPair C}
    (hanswer : L.answer keyId = some answer) {publicKey : PublicKey} (hpublic : answer.publicKey = .ok publicKey)
    {lifetimeMs : UInt64}
    (hroom : ∀ pending, (net.nodes node).pendingByPeer[sender]? = some pending → pending.keyId = keyId →
      (net.nodes node).activeByPeer.size < (net.nodes node).limits.maxActiveKeys)
    {result : AesNegotiationState C × Option RSPMessage}
    (houtcome : ReplyOutcome ambient node sender
      { keyId := some ⟨keyId⟩, ephemeralPublicKey := some publicKey, acceptedLifetimeMs := lifetimeMs,
        algorithm := .p256Sha256Aes256 } (net.nodes node) result) :
    L.Balanced (({ net with flight := net.flight.eraseIdx index }.set node result.1).send result.2.toList) := by
  have hkept : ∀ {k messages}, net.Replied k → k ≠ keyId →
      k ∈ (net.flight.eraseIdx index ++ messages).filterMap repliedKeyId := by
    intro k messages hk hne
    rw [List.filterMap_append]
    refine List.mem_append_left _ (replied_of_taken hflight ?_ hk)
    rw [hm, Ne, Option.some.injEq]
    exact Ne.symm hne
  -- the reply is refused with an error on which the responder gives the key up
  have hrefuse : ∀ {s : AesNegotiationState C} (_ : Forgets s (net.nodes node))
      (_ : s.activeByPeer = (net.nodes node).activeByPeer) {errorCode : KeyNegotiationError}
      (_ : IsFinal errorCode) (text : String),
      L.Balanced (({ net with flight := net.flight.eraseIdx index }.set node s).send
        [makeAesKeyNegotiationError node sender errorCode (some keyId) text]) := by
    intro s hforgets hsame errorCode hfinal text
    refine hb.forget h hforgets ?_ (fun hk => .inl (noticed_of_taken hflight hnotice hk)) ?_ ?_
    · rintro peer k ⟨active, hget, rfl⟩
      exact .inl ⟨active, hsame ▸ hget, rfl⟩
    · intro k hk
      refine replied_of_rest (fun answer hanswer => ?_) hk
      obtain rfl := List.mem_singleton.mp hanswer
      rfl
    · intro k hk
      by_cases heq : k = keyId
      · subst heq
        refine .inr fun {i j e} ho => ?_
        rw [horigin, Option.some.injEq, Prod.mk.injEq, Prod.mk.injEq] at ho
        obtain ⟨rfl, rfl, -⟩ := ho
        exact ⟨_, List.mem_singleton_self _, .error _ _ _ hfinal text⟩
      · exact .inl (hkept hk heq)
  have hreplied : net.Replied keyId := List.mem_filterMap.mpr ⟨m, List.mem_of_getElem? hflight, hm⟩
  cases houtcome with
  | malformed hmalformed => exact absurd hmalformed (not_malformedReply (h.ledger.valid horigin))
  | unmatched hid hcode text hpending =>
    obtain rfl : keyId = _ := by simpa using hid
    refine hrefuse (Forgets.refl _) rfl ?_ text
    exact hcode.elim (fun heq => .inr (.inl heq)) .inl
  | full hid hpending hmatch hfull text =>
    obtain rfl : keyId = _ := by simpa using hid
    exact absurd (hroom _ hpending hmatch) (not_lt.mpr hfull)
  | @unreadable readId hid readPublic fault hkey hpeer text =>
    obtain rfl : publicKey = readPublic := by simpa using hkey
    obtain ⟨seed, hgenerated⟩ := h.ledger.answer_generated hanswer
    obtain ⟨exportedPublic, exported, hexport, hread⟩ := KeyPair.publicKey_of_generated hC hgenerated
    rw [hpublic, Except.ok.injEq] at hexport
    rw [hexport, hread] at hpeer
    cases hpeer
  | underivable hid hpending hmatch text =>
    obtain rfl : keyId = _ := by simpa using hid
    exact hrefuse (forgets_erasePending _ sender) rfl (.inl rfl) text
  | @accept acceptedId sharedSecret pending acceptedPublic peer hid hvalid hkey hpending hmatch hroom' hpeer hsecret =>
    obtain rfl : keyId = acceptedId := by simpa using hid
    have hmem : sender ∈ (net.nodes node).pendingByPeer := by
      rw [Std.TreeMap.mem_iff_isSome_getElem?, hpending]
      rfl
    refine hb.enter ((h.consistent node).exclusive hmem) (.erase _ sender) (noticed_of_taken hflight hnotice) ?_ ?_ ?_ ?_
    · intro key' _
      exact hb.initiator horigin (.inr ⟨⟨pending, hpending, hmatch⟩, hreplied⟩)
    · intro key' hother
      exact absurd hother (not_origin_swap h horigin)
    · intro k hk
      exact .inl (replied_of_rest (fun answer (hanswer : answer ∈ []) => by cases hanswer) hk)
    · intro k hk
      by_cases heq : k = keyId
      · subst heq
        exact .inr ⟨rfl, key, horigin⟩
      · exact .inl (hkept hk heq)

theorem handleDrop (hb : L.Balanced net) (h : Sound limits L net) {reason : Bytes}
    (hflight : net.flight[index]? = some (makeAesKeyDropNotification sender node keyId reason))
    (hvalid : isValidKeyId keyId = true) (hgone : L.gone keyId sender) :
    let result := (net.nodes node).handleAesKeyDropNotification node sender { keyId := some ⟨keyId⟩, reason }
    L.Balanced (({ net with flight := net.flight.eraseIdx index }.set node result.1).send result.2.toList) := by
  intro result
  have hforgets : Forgets result.1 (net.nodes node) := forgets_handleAesKeyDropNotification _ _ _ _
  obtain ⟨answer, hresult, hanswer⟩ := handleAesKeyDropNotification_of_valid hvalid node sender reason (net.nodes node)
  have hstate : result.1 = ((net.nodes node).eraseActiveIf sender keyId).erasePendingIf sender keyId :=
    congrArg Prod.fst hresult
  have hmessages : ∀ message ∈ result.2.toList, repliedKeyId message = none := by
    rw [show result.2 = answer from congrArg Prod.snd hresult]
    intro message hmessage
    obtain ⟨errorCode, text, rfl⟩ := hanswer message hmessage
    rfl
  refine hb.forget h hforgets ?_ ?_ (replied_of_rest hmessages) ?_
  · intro peer k hk
    rw [hstate]
    rcases hasActive_of_dropped sender keyId hk with hkept | ⟨rfl, rfl⟩
    · exact .inl hkept
    · exact .inr (.inr hgone)
  · rintro n p k ⟨notice, hmem, hnotice⟩
    rcases Network.mem_eraseIdx_or_eq hflight hmem with hrest | rfl
    · exact .inl ⟨notice, hrest, hnotice⟩
    · obtain rfl := toProtoNodeId_injective (Option.some.inj hnotice.source)
      obtain rfl := toProtoNodeId_injective (Option.some.inj hnotice.destination)
      obtain ⟨hsource, hdestination, hends⟩ := hnotice
      cases hends with
      | drop =>
        rw [hstate]
        exact .inr ⟨rfl, not_hasActive_of_dropped, not_hasPending_of_dropped⟩
  · intro k hk
    refine .inl ?_
    rw [List.filterMap_append]
    exact List.mem_append_left _ (replied_of_taken hflight (by intro hid; cases hid) hk)

theorem handleError (hb : L.Balanced net) (h : Sound limits L net) {errorCode : KeyNegotiationError}
    {errorKeyId : Option Bytes} {text : String}
    (hflight : net.flight[index]? = some (makeAesKeyNegotiationError sender node errorCode errorKeyId text))
    (hgone : IsFinal errorCode → ∀ id, errorKeyId = some id → L.gone id sender) :
    L.Balanced (({ net with flight := net.flight.eraseIdx index }.set node
      ((net.nodes node).handleAesKeyNegotiationError (some sender)
        { errorCode, keyId := errorKeyId.map Uuid.mk, message := ascii text })).send []) := by
  -- the error itself ends a key only with a final code and a key id
  have hself : ∀ {n p k}, IsNotice n p k (makeAesKeyNegotiationError sender node errorCode errorKeyId text) →
      n = sender ∧ p = node ∧ errorKeyId = some k ∧ IsFinal errorCode := by
    rintro n p k ⟨hsource, hdestination, hends⟩
    obtain rfl := toProtoNodeId_injective (Option.some.inj hsource)
    obtain rfl := toProtoNodeId_injective (Option.some.inj hdestination)
    refine ⟨rfl, rfl, ?_⟩
    cases errorKeyId with
    | none => cases hends
    | some id =>
      cases hends with
      | error hfinal => exact ⟨rfl, hfinal⟩
  have hrest : ∀ {s : AesNegotiationState C} (_ : Forgets s (net.nodes node))
      (_ : ∀ {peer k}, (net.nodes node).HasActive peer k → s.HasActive peer k ∨ L.gone k peer)
      (_ : ∀ {k}, errorKeyId = some k → IsFinal errorCode → ¬ s.HasActive sender k ∧ ¬ s.HasPending sender k),
      L.Balanced (({ net with flight := net.flight.eraseIdx index }.set node s).send []) := by
    intro s hforgets hlost hended
    refine hb.forget h hforgets (fun hk => (hlost hk).imp_right .inr) ?_
      (replied_of_rest fun answer (hanswer : answer ∈ []) => by cases hanswer) ?_
    · rintro n p k ⟨notice, hmem, hnotice⟩
      rcases Network.mem_eraseIdx_or_eq hflight hmem with hrest | rfl
      · exact .inl ⟨notice, hrest, hnotice⟩
      · obtain ⟨rfl, rfl, hid, hfinal⟩ := hself hnotice
        exact .inr ⟨rfl, hended hid hfinal⟩
    · intro k hk
      rw [List.append_nil]
      exact .inl (replied_of_taken hflight (by intro hid; cases hid) hk)
  cases errorKeyId with
  | none => exact hrest (Forgets.refl _) .inl (fun hid => by cases hid)
  | some id =>
    by_cases hfinal : IsFinal errorCode
    · have hvalid : isValidKeyId id = true := by
        obtain ⟨o, ho⟩ := h.ledger.handled_origin (h.ledger.gone_handled (hgone hfinal id rfl))
        exact h.ledger.valid ho
      have hstate : (net.nodes node).handleAesKeyNegotiationError (some sender)
          { errorCode, keyId := some ⟨id⟩, message := ascii text } =
          ((net.nodes node).eraseActiveIf sender id).erasePendingIf sender id := by
        rw [← eraseActiveIf_erasePendingIf]
        simp only [handleAesKeyNegotiationError, hvalid, Bool.not_true, Bool.false_eq_true, if_false]
        exact if_pos hfinal
      refine hrest (forgets_handleAesKeyNegotiationError _ _ _) ?_ ?_
      · intro peer k hk
        rw [Option.map_some, hstate]
        rcases hasActive_of_dropped sender id hk with hkept | ⟨rfl, rfl⟩
        · exact .inl hkept
        · exact .inr (hgone hfinal _ rfl)
      · intro k hid _
        obtain rfl := Option.some.inj hid
        rw [Option.map_some, hstate]
        exact ⟨not_hasActive_of_dropped, not_hasPending_of_dropped⟩
    · refine hrest (forgets_handleAesKeyNegotiationError _ _ _) ?_ fun _ hf => absurd hf hfinal
      rintro peer k ⟨active, hget, rfl⟩
      refine .inl ⟨active, ?_, rfl⟩
      simp only [handleAesKeyNegotiationError, Option.map_some]
      split_ifs with hvalid hcode
      · exact hget
      · exact absurd hcode hfinal
      · rw [erasePendingIf_activeByPeer]
        exact hget

end

/-! ### Events -/

/-- A message and what its destination does with it after the sweep. -/
theorem handleSwept (hC : C.RoundTrips) (hb : L.Balanced net) (h : Sound limits L net) {index : Nat} {m : RSPMessage}
    (hflight : net.flight[index]? = some m) (ambient : Ambient) {sender node : NodeID}
    (hsender : senderNodeIdFromMessage m = some sender)
    (hnode : m.destination.bind nodeIdFromSourceField = some node)
    (hroom : ∀ reply pending, m.coreMessage = .aesKeyNegotiationReply reply →
      (net.nodes node).pendingByPeer[sender]? = some pending → reply.keyId = some ⟨pending.keyId⟩ →
      (net.nodes node).activeByPeer.size < (net.nodes node).limits.maxActiveKeys) :
    let result := (net.nodes node).handleSwept ambient node sender m.coreMessage
    L.Balanced (({ net with flight := net.flight.eraseIdx index }.set node result.1).send result.2) := by
  cases h.message (List.mem_of_getElem? hflight) with
  | @request keyId source peer key publicKey lifetimeMs horigin hpublic hhandled =>
    obtain rfl := eq_of_nodeIdFromSourceField source hsender
    obtain rfl := eq_of_nodeIdFromSourceField peer hnode
    exact hb.handleRequest hC h hflight (fun hnotice => by cases hnotice.ends) rfl horigin
      (handleAesKeyNegotiationRequest_outcome ambient peer source _ _)
  | @reply keyId source peer key own publicKey lifetimeMs horigin hanswer hpublic hclosed =>
    obtain rfl := eq_of_nodeIdFromSourceField source hsender
    obtain rfl := eq_of_nodeIdFromSourceField peer hnode
    refine hb.handleReply hC h hflight (fun hnotice => by cases hnotice.ends) rfl horigin hanswer hpublic ?_
      (handleAesKeyNegotiationReply_outcome ambient peer source _ _)
    intro pending hpending hid
    exact hroom _ pending rfl hpending (by rw [hid])
  | @drop keyId source peer reason hbetween hgone =>
    obtain rfl := eq_of_nodeIdFromSourceField source hsender
    obtain rfl := eq_of_nodeIdFromSourceField peer hnode
    have hvalid : isValidKeyId keyId = true := by
      obtain ⟨key, horigin | horigin⟩ := hbetween <;> exact h.ledger.valid horigin
    exact hb.handleDrop h hflight hvalid hgone
  | @error errorCode keyId source peer text hgone =>
    obtain rfl := eq_of_nodeIdFromSourceField source hsender
    obtain rfl := eq_of_nodeIdFromSourceField peer hnode
    exact hb.handleError h hflight hgone

end Ledger.Balanced

namespace Network

/-- The network loses nothing. -/
def Event.isReliable : Event → Bool
  | lose _ => false
  | _ => true

/-- A reply that answers a pending negotiation of its destination finds room for another active key there, once expired keys are swept. -/
def Event.hasRoom (net : Network C) : Event → Bool
  | deliver index _ ambient =>
    match net.flight[index]? with
    | some { coreMessage := .aesKeyNegotiationReply reply, source, destination, .. } =>
      match source.bind nodeIdFromSourceField, destination.bind nodeIdFromSourceField with
      | some sender, some node =>
        let swept := ((net.nodes node).processExpiredAesKeys node ambient.expiryNow).1
        match swept.pendingByPeer[sender]? with
        | some pending => reply.keyId ≠ some ⟨pending.keyId⟩ || swept.activeByPeer.size < swept.limits.maxActiveKeys
        | none => true
      | _, _ => true
    | _ => true
  | _ => true

/-- The network without losses, in the runs where replies find room. -/
def roomyMachine (C : Crypto) (limits : NodeID → AesNegotiationLimits) : Machine (Network C) Event :=
  (machine C limits).restrict fun net event => event.isReliable = true ∧ event.hasRoom net = true

end Network

namespace Ledger

variable {limits : NodeID → AesNegotiationLimits} {L : Ledger C} {net net' : Network C}

theorem Sound.source_eq (h : Sound limits L net) {m : RSPMessage} (hm : m ∈ net.flight) :
    senderNodeIdFromMessage m = m.source.bind nodeIdFromSourceField := by
  cases h.message hm <;> rfl

theorem Balanced.deliver (hC : C.RoundTrips) (hb : L.Balanced net) (h : Sound limits L net) {index : Nat}
    {signature : Option SignatureBlock} {ambient : Ambient}
    (hroom : (Network.Event.deliver index signature ambient).hasRoom net = true)
    (hnext : (Network.Event.deliver index signature ambient).next net = some net') : L.Balanced net' := by
  obtain ⟨m, node, hm, hnode, hresult⟩ := Network.deliver_eq_some hnext
  obtain ⟨sender, hsender⟩ := h.sender_eq_some (List.mem_of_getElem? hm)
  obtain ⟨L', horigin, hsweptSound⟩ := h.sweep node ambient.expiryNow
  have hswept := (hb.sweep h node ambient.expiryNow).congr horigin
  have hresult := hresult sender hsender
  have hsource := (h.source_eq (List.mem_of_getElem? hm)).symm.trans hsender
  have hroom : ∀ reply pending, m.coreMessage = .aesKeyNegotiationReply reply →
      ((net.nodes node).processExpiredAesKeys node ambient.expiryNow).1.pendingByPeer[sender]? = some pending →
      reply.keyId = some ⟨pending.keyId⟩ →
      ((net.nodes node).processExpiredAesKeys node ambient.expiryNow).1.activeByPeer.size <
        ((net.nodes node).processExpiredAesKeys node ambient.expiryNow).1.limits.maxActiveKeys := by
    intro reply pending hcore hpending hid
    obtain ⟨destination, source, trace, coreMessage, rest⟩ := m
    obtain rfl : coreMessage = .aesKeyNegotiationReply reply := hcore
    simp only [Network.Event.hasRoom, hm, hsource, hnode, hpending, hid] at hroom
    simpa using hroom
  generalize (net.nodes node).processExpiredAesKeys node ambient.expiryNow = swept at hswept hsweptSound hresult hroom
  have hlt : index < net.flight.length := (List.getElem?_eq_some_iff.mp hm).1
  have hflight : ((net.set node swept.1).send swept.2).flight[index]? = some m :=
    (List.getElem?_append_left hlt).trans hm
  have hhandled := hswept.handleSwept hC hsweptSound hflight ambient hsender hnode
    (by
      rw [Network.send_nodes, Network.set_nodes_self]
      exact hroom)
  rw [Network.send_nodes, Network.set_nodes_self] at hhandled
  rw [hresult]
  refine Balanced.congr ?_ horigin.symm
  simpa only [Network.set, Network.send, Function.update_idem, List.eraseIdx_append_of_lt_length hlt,
    List.append_assoc] using hhandled

/-- A proposal whose request is not sent. -/
theorem Balanced.unsent {node : NodeID} {s : AesNegotiationState C} {request : RSPMessage} {used : List Bytes}
    (hb : L.Balanced { (net.set node s).send [request] with used })
    (h : Sound limits L { (net.set node s).send [request] with used }) (hrequest : requestedKeyId request ≠ none)
    (peer : NodeID) :
    L.Balanced { net.set node { s with pendingByPeer := s.pendingByPeer.erase peer } with used } := by
  have hkind : repliedKeyId request = none ∧ ∀ n p k, ¬ IsNotice n p k request := by
    cases h.message (List.mem_append_right net.flight (List.mem_singleton_self request)) with
    | request => exact ⟨rfl, fun n p k hnotice => by cases hnotice.ends⟩
    | reply => exact absurd rfl hrequest
    | drop => exact absurd rfl hrequest
    | error => exact absurd rfl hrequest
  have hreplies : (net.flight ++ [request]).filterMap repliedKeyId = net.flight.filterMap repliedKeyId := by
    rw [List.filterMap_append, List.filterMap_cons_none hkind.1, List.filterMap_nil, List.append_nil]
  have hforgets : Forgets { s with pendingByPeer := s.pendingByPeer.erase peer } ((net.set node s).nodes node) := by
    rw [Network.set_nodes_self]
    exact forgets_erasePending s peer
  have hdone : L.Balanced (({ (net.set node s) with used }.set node
      { s with pendingByPeer := s.pendingByPeer.erase peer }).send []) := hb.forget h hforgets ?_ ?_ ?_ ?_
  · simpa only [Network.set, Network.send, Function.update_idem, List.append_nil] using hdone
  · intro p k hk
    change ((net.set node s).nodes node).HasActive p k at hk
    rw [Network.set_nodes_self] at hk
    exact .inl hk
  · rintro n p k ⟨notice, hmem, hnotice⟩
    rcases List.mem_append.mp hmem with hold | hnew
    · exact .inl ⟨notice, hold, hnotice⟩
    · obtain rfl := List.mem_singleton.mp hnew
      exact absurd hnotice (hkind.2 n p k)
  · intro k hk
    rw [List.append_nil, Network.set_flight, ← hreplies] at hk
    exact hk
  · intro k hk
    rw [List.append_nil, Network.set_flight, ← hreplies]
    exact .inl hk

theorem Balanced.use (hb : L.Balanced net) (used : List Bytes) : L.Balanced { net with used } :=
  ⟨hb.initiator, hb.responder⟩

theorem Balanced.begin (hb : L.Balanced net) (h : Sound limits L net) {node peer : NodeID}
    {requestedLifetimeMs : UInt64} {ambient : Ambient} {enqueued : Bool}
    (hnext : (Network.Event.beginAesKeyNegotiation node peer requestedLifetimeMs ambient enqueued).next net =
      some net') : ∃ L' : Ledger C, Sound limits L' net' ∧ L'.Balanced net' := by
  obtain ⟨hfresh, houtcome⟩ := Network.begin_eq_some hnext
  obtain ⟨L', horigin, hsweptSound⟩ := h.sweep node ambient.expiryNow
  have hswept := (hb.sweep h node ambient.expiryNow).congr horigin
  cases houtcome with
  | itself => exact ⟨L, h.use _, hb.use _⟩
  | refused => exact ⟨L', hsweptSound.use _, hswept.use _⟩
  | proposed hne hpropose =>
    obtain ⟨key, hproposed⟩ := hsweptSound.propose hne hfresh hpropose
    exact ⟨_, hproposed, hswept.propose hsweptSound hfresh hpropose key⟩
  | @unsent s request hne hpropose =>
    obtain ⟨key, hproposed⟩ := hsweptSound.propose hne hfresh hpropose
    have hrequest : requestedKeyId request ≠ none := by
      obtain ⟨pending, publicKey, -, -, -, -, -, -, -, -, hrequest⟩ := propose_eq_some hpropose
      rw [hrequest]
      exact Option.some_ne_none _
    exact ⟨_, hproposed.unsent peer,
      (hswept.propose hsweptSound hfresh hpropose key).unsent hproposed hrequest peer⟩

theorem balanced_empty (limits : NodeID → AesNegotiationLimits) :
    (empty C).Balanced { nodes := fun node => { limits := limits node } } :=
  ⟨fun {_ _ _ _} ho => (by cases ho), fun {_ _ _ _} ho => (by cases ho)⟩

/-- One step of a network that loses nothing and where replies find room. -/
theorem Balanced.next (hC : C.RoundTrips) (hb : L.Balanced net) (h : Sound limits L net) {event : Network.Event}
    (hreliable : event.isReliable = true) (hroom : event.hasRoom net = true) (hnext : event.next net = some net') :
    ∃ L' : Ledger C, Sound limits L' net' ∧ L'.Balanced net' := by
  cases event with
  | beginAesKeyNegotiation node peer requestedLifetimeMs ambient enqueued => exact hb.begin h hnext
  | dropAesKey node peer reason now =>
    obtain rfl := Option.some.inj hnext
    obtain ⟨L', horigin, hdropped⟩ := h.drop node peer reason now
    exact ⟨L', hdropped, (hb.drop h node peer reason now).congr horigin⟩
  | processExpiredAesKeys node now =>
    obtain rfl := Option.some.inj hnext
    obtain ⟨L', horigin, hswept⟩ := h.sweep node now
    exact ⟨L', hswept, (hb.sweep h node now).congr horigin⟩
  | deliver index signature ambient =>
    obtain ⟨L', horigin, hdelivered⟩ := h.deliver hnext
    exact ⟨L', hdelivered, (hb.deliver hC h hroom hnext).congr horigin⟩
  | lose index => cases hreliable

theorem balanced_of_reaches (hC : C.RoundTrips) (h : (Network.roomyMachine C limits).Reaches net) :
    ∃ L : Ledger C, Sound limits L net ∧ L.Balanced net := by
  refine h.invariant (I := fun net => ∃ L : Ledger C, Sound limits L net ∧ L.Balanced net) ?_ ?_
  · rintro s rfl
    exact ⟨empty C, sound_empty limits, balanced_empty limits⟩
  · rintro s event s' ⟨L, hs, hb⟩ hstep
    obtain ⟨⟨hreliable, hroom⟩, hnext⟩ := Machine.restrict_next hstep
    exact hb.next hC hs hreliable hroom hnext

end Ledger

/-- With nothing in flight, a key has two ends or none, in every run without losses in which each reply finds room at the node that asked. -/
theorem no_half_open_keys (hC : C.RoundTrips) {limits : NodeID → AesNegotiationLimits} {net : Network C}
    (hnet : (Network.roomyMachine C limits).Reaches net) (hquiet : net.flight = []) (A B : NodeID) (keyId : Bytes) :
    (net.nodes A).HasActive B keyId ↔ (net.nodes B).HasActive A keyId := by
  obtain ⟨L, hsound, hbalanced⟩ := Ledger.balanced_of_reaches hC hnet
  have hnotice : ∀ {n p k}, ¬ net.Noticed n p k := by
    rintro n p k ⟨m, hm, -⟩
    rw [hquiet] at hm
    cases hm
  have hreply : ∀ {k}, ¬ net.Replied k := by
    intro k hk
    rw [Network.Replied, hquiet] at hk
    cases hk
  have hends : ∀ {A B : NodeID}, (net.nodes A).HasActive B keyId → (net.nodes B).HasActive A keyId := by
    rintro A B ⟨active, hget, rfl⟩
    obtain ⟨key, horigin | horigin⟩ := (hsound.active hget).between
    · exact (hbalanced.initiator horigin (.inl ⟨active, hget, rfl⟩)).resolve_right hnotice
    · rcases hbalanced.responder horigin ⟨active, hget, rfl⟩ with hk | hk | hk
      · exact hk
      · exact absurd hk hreply
      · exact absurd hk hnotice
  exact ⟨hends, hends⟩

/-- One negotiation, with room at both ends. -/
def roomyRun : Option (Network sampleCrypto) :=
  (Network.roomyMachine sampleCrypto fun _ => {}).run { nodes := fun _ => {} }
    [.beginAesKeyNegotiation ⟨1, 1⟩ ⟨2, 2⟩ 0 { keySeed := 5, guid := ⟨7, 7⟩ } true,
      .deliver 0 none { keySeed := 9 }, .deliver 0 none {}]

theorem no_half_open_keys_sample : ∃ net, roomyRun = some net ∧ net.flight = [] ∧
    (net.nodes ⟨2, 2⟩).HasActive ⟨1, 1⟩ (GUID.mk 7 7).toBigEndian ∧
    (net.nodes ⟨1, 1⟩).HasActive ⟨2, 2⟩ (GUID.mk 7 7).toBigEndian := by
  have hrun : (roomyRun.any fun net => net.flight.isEmpty &&
      ((net.nodes ⟨2, 2⟩).activeByPeer[(⟨1, 1⟩ : NodeID)]?.map ActiveAesKey.keyId ==
        some (GUID.mk 7 7).toBigEndian)) = true := by
    decide +kernel
  cases hnet : roomyRun with
  | none =>
    rw [hnet] at hrun
    cases hrun
  | some net =>
    simp only [hnet, Option.any_some, Bool.and_eq_true, List.isEmpty_iff, beq_iff_eq, Option.map_eq_some_iff] at hrun
    obtain ⟨hflight, hheld⟩ := hrun
    have hreaches : (Network.roomyMachine sampleCrypto fun _ => {}).Reaches net := .run (.start rfl) hnet
    exact ⟨net, rfl, hflight, hheld,
      (no_half_open_keys sampleCrypto_roundTrips hreaches hflight ⟨2, 2⟩ ⟨1, 1⟩ _).mp hheld⟩

/-- Node 1 has room for one key. It asks node 2 and accepts the request of node 3 before the reply of node 2 comes. -/
def crowdedRun : Option (Network sampleCrypto) :=
  (Network.machine sampleCrypto fun node => if node = ⟨1, 1⟩ then { maxActiveKeys := 1 } else {}).run
    { nodes := fun node => { limits := if node = ⟨1, 1⟩ then { maxActiveKeys := 1 } else {} } }
    [.beginAesKeyNegotiation ⟨1, 1⟩ ⟨2, 2⟩ 0 { keySeed := 5, guid := ⟨7, 7⟩ } true,
      .beginAesKeyNegotiation ⟨3, 3⟩ ⟨1, 1⟩ 0 { keySeed := 6, guid := ⟨8, 8⟩ } true,
      -- node 2 accepts, then node 1 accepts the request of node 3
      .deliver 0 none { keySeed := 9 }, .deliver 0 none { keySeed := 10 },
      -- node 1 has no room left for the key of node 2; node 3 gets its key
      .deliver 0 none {}, .deliver 0 none {},
      -- node 2 ignores the error
      .deliver 0 none {},
      .processExpiredAesKeys ⟨1, 1⟩ 0, .processExpiredAesKeys ⟨2, 2⟩ 0, .processExpiredAesKeys ⟨3, 3⟩ 0]

theorem half_open_key : ∃ net, (Network.machine sampleCrypto
      fun node => if node = ⟨1, 1⟩ then { maxActiveKeys := 1 } else {}).Reaches net ∧ net.flight = [] ∧
    (net.nodes ⟨2, 2⟩).HasActive ⟨1, 1⟩ (GUID.mk 7 7).toBigEndian ∧
    ¬ (net.nodes ⟨1, 1⟩).HasActive ⟨2, 2⟩ (GUID.mk 7 7).toBigEndian := by
  have hrun : (crowdedRun.any fun net => net.flight.isEmpty &&
      ((net.nodes ⟨2, 2⟩).activeByPeer[(⟨1, 1⟩ : NodeID)]?.map ActiveAesKey.keyId == some (GUID.mk 7 7).toBigEndian) &&
      (net.nodes ⟨1, 1⟩).activeByPeer[(⟨2, 2⟩ : NodeID)]?.isNone) = true := by
    decide +kernel
  cases hnet : crowdedRun with
  | none =>
    rw [hnet] at hrun
    cases hrun
  | some net =>
    simp only [hnet, Option.any_some, Bool.and_eq_true, List.isEmpty_iff, beq_iff_eq, Option.map_eq_some_iff,
      Option.isNone_iff_eq_none] at hrun
    obtain ⟨⟨hflight, hheld⟩, hmissing⟩ := hrun
    refine ⟨net, .run (.start rfl) hnet, hflight, hheld, ?_⟩
    rintro ⟨active, hget, -⟩
    rw [hmissing] at hget
    cases hget

end Rsp
