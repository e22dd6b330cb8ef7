import Mathlib.Data.List.Perm.Basic
import Rsp.Lib.Machine
import Rsp.Node.AesInvariants

/-!
# Key agreement between nodes

Any number of nodes that negotiate keys over a network which may lose, delay and reorder messages but delivers each one at most once. Key ids are drawn without repetition. A ledger beside the state remembers for every key id who asked whom with which ephemeral key and how the other node answered; every table entry and every message in flight agrees with it, and so do the keys at the two ends.
-/

namespace Rsp

open Proto

/-- The two ends of a negotiation derive one secret: each combines its own generated key with the exported public part of the other. -/
def Crypto.SymmetricAgreement (C : Crypto) : Prop :=
  ∀ (seed₁ seed₂ : Nat) (key₁ key₂ peer₁ peer₂ : KeyPair C) (public₁ public₂ : PublicKey),
    KeyPair.generateP256 C seed₁ = .ok key₁ → KeyPair.generateP256 C seed₂ = .ok key₂ →
    key₁.publicKey = .ok public₁ → key₂.publicKey = .ok public₂ →
    KeyPair.fromPublicKey public₁ = .ok peer₁ → KeyPair.fromPublicKey public₂ = .ok peer₂ →
    Rsp.deriveSharedSecret key₁ peer₂ = Rsp.deriveSharedSecret key₂ peer₁

theorem deriveAesKeyMaterial_comm (C : Crypto) (sharedSecret keyId : Bytes) (firstNode secondNode : NodeID) :
    deriveAesKeyMaterial C sharedSecret keyId firstNode secondNode =
      deriveAesKeyMaterial C sharedSecret keyId secondNode firstNode := by
  simp only [deriveAesKeyMaterial]
  generalize (toProtoNodeId firstNode).value = first
  generalize (toProtoNodeId secondNode).value = second
  have hswap : compare second first = (compare first second).swap := Std.OrientedOrd.eq_swap
  cases hcompare : compare first second with
  | lt => simp [hswap, hcompare]
  | eq => simp [Std.compare_eq_iff_eq.mp hcompare]
  | gt => simp [hswap, hcompare]

/-- The nodes by id, the messages under way, and the key ids drawn so far. -/
structure Network (C : Crypto) where
  nodes : NodeID → AesNegotiationState C
  flight : List RSPMessage := []
  used : List Bytes := []

namespace Network

variable {C : Crypto}

def set (net : Network C) (node : NodeID) (s : AesNegotiationState C) : Network C :=
  { net with nodes := Function.update net.nodes node s }

def send (net : Network C) (messages : List RSPMessage) : Network C :=
  { net with flight := net.flight ++ messages }

@[simp] theorem set_nodes_self (net : Network C) (node : NodeID) (s : AesNegotiationState C) :
    (net.set node s).nodes node = s := Function.update_self ..

theorem set_nodes_ne (net : Network C) {node other : NodeID} (s : AesNegotiationState C) (h : other ≠ node) :
    (net.set node s).nodes other = net.nodes other := Function.update_of_ne h ..

@[simp] theorem set_flight (net : Network C) (node : NodeID) (s : AesNegotiationState C) :
    (net.set node s).flight = net.flight := rfl

@[simp] theorem send_nodes (net : Network C) (messages : List RSPMessage) : (net.send messages).nodes = net.nodes := rfl

/-- What can happen next: a call of the application at a node, a sweep, the delivery of a message in flight, or its loss. A node may expire its keys at any time; all clocks are arbitrary. -/
inductive Event
  | beginAesKeyNegotiation (node peer : NodeID) (requestedLifetimeMs : UInt64) (ambient : Ambient) (enqueued : Bool)
  | dropAesKey (node peer : NodeID) (reason : Bytes) (now : DateTime)
  | processExpiredAesKeys (node : NodeID) (now : DateTime)
  | deliver (index : Nat) (signature : Option SignatureBlock) (ambient : Ambient)
  | lose (index : Nat)

/-- A delivered message may carry a signature block, which names its sender. -/
def Event.next (net : Network C) : Event → Option (Network C)
  | beginAesKeyNegotiation node peer requestedLifetimeMs ambient enqueued =>
    if randomKeyId ambient ∈ net.used then none
    else
      let result := (net.nodes node).beginAesKeyNegotiation ambient node peer requestedLifetimeMs enqueued
      some { (net.set node result.1).send result.2.1 with used := randomKeyId ambient :: net.used }
  | dropAesKey node peer reason now =>
    let result := (net.nodes node).dropAesKey node peer reason now true
    some ((net.set node result.1).send result.2.1)
  | processExpiredAesKeys node now =>
    let result := (net.nodes node).processExpiredAesKeys node now
    some ((net.set node result.1).send result.2)
  | deliver index signature ambient =>
    net.flight[index]?.bind fun m => (m.destination.bind nodeIdFromSourceField).bind fun node =>
      if senderNodeIdFromMessage { m with signature } = senderNodeIdFromMessage m then
        ((net.nodes node).handleAesNegotiationMessage ambient node { m with signature }).map fun result =>
          ({ net with flight := net.flight.eraseIdx index }.set node result.1).send result.2
      else none
  | lose index => some { net with flight := net.flight.eraseIdx index }

/-- Every node starts with its own limits and without keys. -/
def machine (C : Crypto) (limits : NodeID → AesNegotiationLimits) : Machine (Network C) Event where
  init net := net = { nodes := fun node => { limits := limits node } }
  next := fun net event => event.next net

end Network

/-! ### The ledger -/

/-- What happened to each key id: who asked whom with which ephemeral key, with which key it was answered, whether its request and its reply have been handled, and which nodes have given the key up for good. -/
structure Ledger (C : Crypto) where
  origin : Bytes → Option (NodeID × NodeID × KeyPair C)
  answer : Bytes → Option (KeyPair C)
  handled : Bytes → Prop
  closed : Bytes → Prop
  gone : Bytes → NodeID → Prop

namespace Ledger

variable {C : Crypto} (L : Ledger C)

/-- `own` and `other` are the ephemeral keys of the two parties to a key id, seen from `node`. -/
def Party (keyId : Bytes) (node peer : NodeID) (own other : KeyPair C) : Prop :=
  (L.origin keyId = some (node, peer, own) ∧ L.answer keyId = some other ∧ L.closed keyId) ∨
    (L.origin keyId = some (peer, node, other) ∧ L.answer keyId = some own)

def Between (keyId : Bytes) (node peer : NodeID) : Prop :=
  ∃ key, L.origin keyId = some (node, peer, key) ∨ L.origin keyId = some (peer, node, key)

def Pending (node peer : NodeID) (pending : PendingAesNegotiation C) : Prop :=
  L.origin pending.keyId = some (node, peer, pending.ephemeralKeyPair) ∧ ¬ L.gone pending.keyId node

structure Active (node peer : NodeID) (active : ActiveAesKey) : Prop where
  not_gone : ¬ L.gone active.keyId node
  agreed : ∃ own other otherPublic peerKey sharedSecret, L.Party active.keyId node peer own other ∧
    other.publicKey = .ok otherPublic ∧ KeyPair.fromPublicKey otherPublic = .ok peerKey ∧
    deriveSharedSecret own peerKey = some sharedSecret ∧
    active.keyMaterial = deriveAesKeyMaterial C sharedSecret active.keyId node peer

/-- The codes on which a node gives up an active key. -/
def IsFinal (errorCode : KeyNegotiationError) : Prop :=
  errorCode = .keyIncorrect ∨ errorCode = .unknownKey ∨ errorCode = .expired

inductive Message : RSPMessage → Prop
  | request {keyId : Bytes} {node peer : NodeID} {key : KeyPair C} {publicKey : PublicKey} {lifetimeMs : UInt64}
    (horigin : L.origin keyId = some (node, peer, key)) (hpublic : key.publicKey = .ok publicKey)
    (hhandled : ¬ L.handled keyId) : Message (makeAesKeyNegotiationRequest node peer keyId publicKey lifetimeMs)
  | reply {keyId : Bytes} {node peer : NodeID} {key own : KeyPair C} {publicKey : PublicKey} {lifetimeMs : UInt64}
    (horigin : L.origin keyId = some (peer, node, key)) (hanswer : L.answer keyId = some own)
    (hpublic : own.publicKey = .ok publicKey) (hclosed : ¬ L.closed keyId) :
    Message (makeAesKeyNegotiationReply node peer keyId publicKey lifetimeMs .p256Sha256Aes256)
  | drop {keyId : Bytes} {node peer : NodeID} {reason : Bytes} (hbetween : L.Between keyId node peer)
    (hgone : L.gone keyId node) : Message (makeAesKeyDropNotification node peer keyId reason)
  | error {errorCode : KeyNegotiationError} {keyId : Option Bytes} {node peer : NodeID} {text : String}
    (hgone : IsFinal errorCode → ∀ id, keyId = some id → L.gone id node) :
    Message (makeAesKeyNegotiationError node peer errorCode keyId text)

/-! ### Entries of the ledger -/

def ask (keyId : Bytes) (node peer : NodeID) (key : KeyPair C) : Ledger C :=
  { L with origin := Function.update L.origin keyId (some (node, peer, key)) }

/-- The request was handled and refused. -/
def refuse (keyId : Bytes) : Ledger C := { L with handled := fun id => id = keyId ∨ L.handled id }

/-- The request was handled and accepted. -/
def accept (keyId : Bytes) (key : KeyPair C) : Ledger C :=
  { L with
    handled := fun id => id = keyId ∨ L.handled id
    answer := Function.update L.answer keyId (some key) }

def close (keyId : Bytes) : Ledger C := { L with closed := fun id => id = keyId ∨ L.closed id }

def retire (node : NodeID) (keyIds : Bytes → Prop) : Ledger C :=
  { L with gone := fun id other => (other = node ∧ keyIds id) ∨ L.gone id other }

end Ledger

def requestedKeyId (m : RSPMessage) : Option Bytes :=
  match m.coreMessage with
  | .aesKeyNegotiationRequest request => request.keyId.map Uuid.value
  | _ => none

def repliedKeyId (m : RSPMessage) : Option Bytes :=
  match m.coreMessage with
  | .aesKeyNegotiationReply reply => reply.keyId.map Uuid.value
  | _ => none

namespace Ledger

variable {C : Crypto}

/-- What holds of a ledger in which the given key ids were used. -/
structure WellFormed (used : List Bytes) (L : Ledger C) : Prop where
  used : ∀ {keyId o}, L.origin keyId = some o → keyId ∈ used
  valid : ∀ {keyId o}, L.origin keyId = some o → isValidKeyId keyId = true
  distinct : ∀ {keyId node peer key}, L.origin keyId = some (node, peer, key) → node ≠ peer
  origin_generated : ∀ {keyId node peer key}, L.origin keyId = some (node, peer, key) →
    ∃ seed, KeyPair.generateP256 C seed = .ok key
  answer_generated : ∀ {keyId key}, L.answer keyId = some key → ∃ seed, KeyPair.generateP256 C seed = .ok key
  handled_origin : ∀ {keyId}, L.handled keyId → ∃ o, L.origin keyId = some o
  answer_handled : ∀ {keyId key}, L.answer keyId = some key → L.handled keyId
  closed_handled : ∀ {keyId}, L.closed keyId → L.handled keyId
  gone_handled : ∀ {keyId node}, L.gone keyId node → L.handled keyId

/-- The state agrees with the ledger. -/
structure Sound (limits : NodeID → AesNegotiationLimits) (L : Ledger C) (net : Network C) : Prop where
  ledger : WellFormed net.used L
  consistent : ∀ node, AesNegotiationState.Consistent (limits node) (net.nodes node)
  pending : ∀ {node peer : NodeID} {pending}, (net.nodes node).pendingByPeer[peer]? = some pending →
    L.Pending node peer pending
  active : ∀ {node peer : NodeID} {active}, (net.nodes node).activeByPeer[peer]? = some active →
    L.Active node peer active
  message : ∀ {m}, m ∈ net.flight → L.Message m
  requests : (net.flight.filterMap requestedKeyId).Nodup
  replies : (net.flight.filterMap repliedKeyId).Nodup

/-- No entry of the tables has this key id. -/
def Lacks (s : AesNegotiationState C) (keyId : Bytes) : Prop :=
  (∀ (peer : NodeID) pending, s.pendingByPeer[peer]? = some pending → pending.keyId ≠ keyId) ∧
    ∀ (peer : NodeID) active, s.activeByPeer[peer]? = some active → active.keyId ≠ keyId

section

variable {L : Ledger C} {keyId : Bytes} {node peer : NodeID}

theorem Party.between {own other : KeyPair C} (h : L.Party keyId node peer own other) : L.Between keyId node peer := by
  rcases h with ⟨horigin, -⟩ | ⟨horigin, -⟩
  · exact ⟨own, .inl horigin⟩
  · exact ⟨other, .inr horigin⟩

theorem Party.answer {own other : KeyPair C} (h : L.Party keyId node peer own other) : ∃ key, L.answer keyId = some key := by
  rcases h with ⟨-, hanswer, -⟩ | ⟨-, hanswer⟩
  · exact ⟨other, hanswer⟩
  · exact ⟨own, hanswer⟩

theorem Active.between {active : ActiveAesKey} (h : L.Active node peer active) : L.Between active.keyId node peer := by
  obtain ⟨own, other, -, -, -, hparty, -⟩ := h.agreed
  exact hparty.between

theorem Pending.between {pending : PendingAesNegotiation C} (h : L.Pending node peer pending) :
    L.Between pending.keyId node peer := ⟨_, .inl h.1⟩

/-- A node shares a key id with at most one peer. -/
theorem WellFormed.between_unique {used : List Bytes} (h : L.WellFormed used) {other : NodeID}
    (hpeer : L.Between keyId node peer) (hother : L.Between keyId node other) : peer = other := by
  obtain ⟨key, hpeer | hpeer⟩ := hpeer <;> obtain ⟨key', hother | hother⟩ := hother <;>
    rw [hpeer, Option.some.injEq, Prod.mk.injEq, Prod.mk.injEq] at hother
  · exact hother.2.1
  · exact absurd hother.2.1.symm (h.distinct hpeer)
  · exact absurd hother.1 (h.distinct hpeer)
  · exact hother.1

theorem WellFormed.active_handled {used : List Bytes} (h : L.WellFormed used) {active : ActiveAesKey}
    (hactive : L.Active node peer active) : L.handled active.keyId := by
  obtain ⟨own, other, -, -, -, hparty, -⟩ := hactive.agreed
  obtain ⟨key, hkey⟩ := hparty.answer
  exact h.answer_handled hkey

/-- `L'` knows everything that `L` knows. -/
structure Extends (L' L : Ledger C) : Prop where
  origin : ∀ {keyId o}, L.origin keyId = some o → L'.origin keyId = some o
  answer : ∀ {keyId key}, L.answer keyId = some key → L'.answer keyId = some key
  closed : ∀ {keyId}, L.closed keyId → L'.closed keyId
  gone : ∀ {keyId node}, L.gone keyId node → L'.gone keyId node

theorem Between.mono {L' : Ledger C} (hext : Extends L' L) (h : L.Between keyId node peer) :
    L'.Between keyId node peer := by
  obtain ⟨key, horigin⟩ := h
  exact ⟨key, horigin.imp hext.origin hext.origin⟩

theorem Party.mono {L' : Ledger C} (hext : Extends L' L) {own other : KeyPair C}
    (h : L.Party keyId node peer own other) : L'.Party keyId node peer own other := by
  rcases h with ⟨horigin, hanswer, hclosed⟩ | ⟨horigin, hanswer⟩
  · exact .inl ⟨hext.origin horigin, hext.answer hanswer, hext.closed hclosed⟩
  · exact .inr ⟨hext.origin horigin, hext.answer hanswer⟩

theorem Active.mono {L' : Ledger C} (hext : Extends L' L) {active : ActiveAesKey} (h : L.Active node peer active)
    (hgone : ¬ L'.gone active.keyId node) : L'.Active node peer active := by
  obtain ⟨own, other, otherPublic, peerKey, sharedSecret, hparty, hagreed⟩ := h.agreed
  exact ⟨hgone, own, other, otherPublic, peerKey, sharedSecret, hparty.mono hext, hagreed⟩

theorem Message.mono {L' : Ledger C} (hext : Extends L' L) {m : RSPMessage} (h : L.Message m)
    (hrequest : ∀ id, requestedKeyId m = some id → ¬ L'.handled id)
    (hreply : ∀ id, repliedKeyId m = some id → ¬ L'.closed id) : L'.Message m := by
  cases h with
  | request horigin hpublic => exact .request (hext.origin horigin) hpublic (hrequest _ rfl)
  | reply horigin hanswer hpublic =>
    exact .reply (hext.origin horigin) (hext.answer hanswer) hpublic (hreply _ rfl)
  | drop hbetween hgone => exact .drop (hbetween.mono hext) (hext.gone hgone)
  | error hgone => exact .error fun hfinal id hid => hext.gone (hgone hfinal id hid)

end

namespace Sound

variable {limits : NodeID → AesNegotiationLimits} {L : Ledger C} {net : Network C}

/-! #### Changes of the network under a fixed ledger -/

theorem set (h : Sound limits L net) (node : NodeID) (s : AesNegotiationState C)
    (hconsistent : AesNegotiationState.Consistent (limits node) s)
    (hpending : ∀ (peer : NodeID) pending, s.pendingByPeer[peer]? = some pending → L.Pending node peer pending)
    (hactive : ∀ (peer : NodeID) active, s.activeByPeer[peer]? = some active → L.Active node peer active) :
    Sound limits L (net.set node s) :=
  { h with
    consistent := by
      intro other
      by_cases heq : other = node
      · subst heq
        rwa [Network.set_nodes_self]
      · rw [Network.set_nodes_ne _ _ heq]
        exact h.consistent other
    pending := by
      intro other peer pending hp
      by_cases heq : other = node
      · subst heq
        rw [Network.set_nodes_self] at hp
        exact hpending peer pending hp
      · rw [Network.set_nodes_ne _ _ heq] at hp
        exact h.pending hp
    active := by
      intro other peer active ha
      by_cases heq : other = node
      · subst heq
        rw [Network.set_nodes_self] at ha
        exact hactive peer active ha
      · rw [Network.set_nodes_ne _ _ heq] at ha
        exact h.active ha }

theorem forget (h : Sound limits L net) {node : NodeID} {s : AesNegotiationState C}
    (hforgets : AesNegotiationState.Forgets s (net.nodes node)) : Sound limits L (net.set node s) :=
  h.set node s ((h.consistent node).forgets hforgets) (fun _ _ hp => h.pending (hforgets.pending.getElem? hp))
    (fun _ _ ha => h.active (hforgets.active.getElem? ha))

theorem use (h : Sound limits L net) (keyId : Bytes) : Sound limits L { net with used := keyId :: net.used } :=
  { h with ledger := { h.ledger with used := fun ho => List.mem_cons_of_mem _ (h.ledger.used ho) } }

/-- Messages can disappear. -/
theorem take (h : Sound limits L net) {flight : List RSPMessage} (hsub : flight.Sublist net.flight) :
    Sound limits L { net with flight } :=
  { h with
    message := fun hm => h.message (hsub.subset hm)
    requests := h.requests.sublist (hsub.filterMap _)
    replies := h.replies.sublist (hsub.filterMap _) }

theorem send (h : Sound limits L net) {messages : List RSPMessage} (hmessage : ∀ m ∈ messages, L.Message m)
    (hrequests : ((net.flight ++ messages).filterMap requestedKeyId).Nodup)
    (hreplies : ((net.flight ++ messages).filterMap repliedKeyId).Nodup) : Sound limits L (net.send messages) :=
  { h with
    message := by
      intro m hm
      rcases List.mem_append.mp hm with hold | hnew
      · exact h.message hold
      · exact hmessage m hnew
    requests := hrequests
    replies := hreplies }

/-! #### Entries of the ledger under a fixed network -/

theorem extend (h : Sound limits L net) (L' : Ledger C) (hext : Extends L' L) {used : List Bytes}
    (hledger : WellFormed used L')
    (hgone : ∀ {keyId node}, L'.gone keyId node → L.gone keyId node ∨ Lacks (net.nodes node) keyId)
    (hrequests : ∀ keyId ∈ net.flight.filterMap requestedKeyId, ¬ L'.handled keyId)
    (hreplies : ∀ keyId ∈ net.flight.filterMap repliedKeyId, ¬ L'.closed keyId) :
    Sound limits L' { net with used } where
  ledger := hledger
  consistent := h.consistent
  pending {node peer pending} hp := by
    refine ⟨hext.origin (h.pending hp).1, fun hg => ?_⟩
    rcases hgone hg with hold | hlacks
    · exact (h.pending hp).2 hold
    · exact hlacks.1 peer pending hp rfl
  active {node peer active} ha := by
    refine (h.active ha).mono hext fun hg => ?_
    rcases hgone hg with hold | hlacks
    · exact (h.active ha).not_gone hold
    · exact hlacks.2 peer active ha rfl
  message {m} hm := (h.message hm).mono hext
    (fun id hid => hrequests id (List.mem_filterMap.mpr ⟨m, hm, hid⟩))
    (fun id hid => hreplies id (List.mem_filterMap.mpr ⟨m, hm, hid⟩))
  requests := h.requests
  replies := h.replies

/-- A request in flight has not been handled. -/
theorem not_handled (h : Sound limits L net) {keyId : Bytes} (hmem : keyId ∈ net.flight.filterMap requestedKeyId) :
    ¬ L.handled keyId := by
  obtain ⟨m, hm, hid⟩ := List.mem_filterMap.mp hmem
  cases h.message hm with
  | request _ _ hhandled =>
    obtain rfl := Option.some.inj hid
    exact hhandled
  | reply => cases hid
  | drop => cases hid
  | error => cases hid

theorem used_of_requested (h : Sound limits L net) {keyId : Bytes}
    (hmem : keyId ∈ net.flight.filterMap requestedKeyId) : keyId ∈ net.used := by
  obtain ⟨m, hm, hid⟩ := List.mem_filterMap.mp hmem
  cases h.message hm with
  | request horigin =>
    obtain rfl := Option.some.inj hid
    exact h.ledger.used horigin
  | reply => cases hid
  | drop => cases hid
  | error => cases hid

theorem handled_of_replied (h : Sound limits L net) {keyId : Bytes}
    (hmem : keyId ∈ net.flight.filterMap repliedKeyId) : L.handled keyId := by
  obtain ⟨m, hm, hid⟩ := List.mem_filterMap.mp hmem
  cases h.message hm with
  | reply _ hanswer =>
    obtain rfl := Option.some.inj hid
    exact h.ledger.answer_handled hanswer
  | request => cases hid
  | drop => cases hid
  | error => cases hid

/-- A reply in flight has not been handled. -/
theorem not_closed (h : Sound limits L net) {keyId : Bytes} (hmem : keyId ∈ net.flight.filterMap repliedKeyId) :
    ¬ L.closed keyId := by
  obtain ⟨m, hm, hid⟩ := List.mem_filterMap.mp hmem
  cases h.message hm with
  | reply _ _ _ hclosed =>
    obtain rfl := Option.some.inj hid
    exact hclosed
  | request => cases hid
  | drop => cases hid
  | error => cases hid

theorem ask (h : Sound limits L net) {keyId : Bytes} {node peer : NodeID} {seed : Nat} {key : KeyPair C}
    (hfresh : keyId ∉ net.used) (hvalid : isValidKeyId keyId = true) (hne : node ≠ peer)
    (hgenerated : KeyPair.generateP256 C seed = .ok key) :
    Sound limits (L.ask keyId node peer key) { net with used := keyId :: net.used } := by
  have hne_of : ∀ {id o}, L.origin id = some o → id ≠ keyId := by
    rintro id o ho rfl
    exact hfresh (h.ledger.used ho)
  have horigin : ∀ {id o}, (L.ask keyId node peer key).origin id = some o →
      (id = keyId ∧ o = (node, peer, key)) ∨ L.origin id = some o := by
    intro id o ho
    by_cases heq : id = keyId
    · subst heq
      simp only [Ledger.ask, Function.update_self, Option.some.injEq] at ho
      exact .inl ⟨rfl, ho.symm⟩
    · simp only [Ledger.ask, Function.update_of_ne heq] at ho
      exact .inr ho
  have hold : ∀ {id o}, L.origin id = some o → (L.ask keyId node peer key).origin id = some o := by
    intro id o ho
    simpa only [Ledger.ask, Function.update_of_ne (hne_of ho)] using ho
  refine h.extend (L.ask keyId node peer key) ⟨hold, id, id, id⟩ ?_ .inl (fun id => h.not_handled) (fun id => h.not_closed)
  refine ⟨?_, ?_, ?_, ?_, h.ledger.answer_generated, ?_, h.ledger.answer_handled, h.ledger.closed_handled,
    h.ledger.gone_handled⟩
  · intro id o ho
    rcases horigin ho with ⟨rfl, -⟩ | ho
    · exact List.mem_cons_self
    · exact List.mem_cons_of_mem _ (h.ledger.used ho)
  · intro id o ho
    rcases horigin ho with ⟨rfl, -⟩ | ho
    · exact hvalid
    · exact h.ledger.valid ho
  · intro id n p k ho
    rcases horigin ho with ⟨-, heq⟩ | ho
    · obtain ⟨rfl, rfl, rfl⟩ := Prod.mk.injEq .. ▸ heq
      exact hne
    · exact h.ledger.distinct ho
  · intro id n p k ho
    rcases horigin ho with ⟨-, heq⟩ | ho
    · obtain ⟨-, -, rfl⟩ := Prod.mk.injEq .. ▸ Prod.mk.injEq .. ▸ heq
      exact ⟨seed, hgenerated⟩
    · exact h.ledger.origin_generated ho
  · intro id hid
    obtain ⟨o, ho⟩ := h.ledger.handled_origin hid
    exact ⟨o, hold ho⟩

theorem refuse (h : Sound limits L net) {keyId : Bytes} {o : NodeID × NodeID × KeyPair C}
    (horigin : L.origin keyId = some o) (hflight : keyId ∉ net.flight.filterMap requestedKeyId) :
    Sound limits (L.refuse keyId) net := by
  refine h.extend (L.refuse keyId) ⟨id, id, id, id⟩ ?_ .inl ?_ (fun id => h.not_closed)
  · exact { h.ledger with
      handled_origin := fun hid => hid.elim (fun heq => ⟨o, heq ▸ horigin⟩) h.ledger.handled_origin
      answer_handled := fun hid => .inr (h.ledger.answer_handled hid)
      closed_handled := fun hid => .inr (h.ledger.closed_handled hid)
      gone_handled := fun hid => .inr (h.ledger.gone_handled hid) }
  · rintro id hid (rfl | hhandled)
    · exact hflight hid
    · exact h.not_handled hid hhandled

theorem accept (h : Sound limits L net) {keyId : Bytes} {o : NodeID × NodeID × KeyPair C} {seed : Nat}
    {key : KeyPair C} (horigin : L.origin keyId = some o) (hhandled : ¬ L.handled keyId)
    (hgenerated : KeyPair.generateP256 C seed = .ok key) (hflight : keyId ∉ net.flight.filterMap requestedKeyId) :
    Sound limits (L.accept keyId key) net := by
  have hanswer : ∀ {id k}, (L.accept keyId key).answer id = some k → (id = keyId ∧ k = key) ∨ L.answer id = some k := by
    intro id k hk
    by_cases heq : id = keyId
    · subst heq
      simp only [Ledger.accept, Function.update_self, Option.some.injEq] at hk
      exact .inl ⟨rfl, hk.symm⟩
    · simp only [Ledger.accept, Function.update_of_ne heq] at hk
      exact .inr hk
  have hold : ∀ {id k}, L.answer id = some k → (L.accept keyId key).answer id = some k := by
    intro id k hk
    have hne : id ≠ keyId := by
      rintro rfl
      exact hhandled (h.ledger.answer_handled hk)
    simpa only [Ledger.accept, Function.update_of_ne hne] using hk
  refine h.extend (L.accept keyId key) ⟨id, hold, id, id⟩ ?_ .inl ?_ (fun id => h.not_closed)
  · exact { h.ledger with
      answer_generated := fun hk => (hanswer hk).elim (fun heq => ⟨seed, heq.2 ▸ hgenerated⟩) h.ledger.answer_generated
      handled_origin := fun hid => hid.elim (fun heq => ⟨o, heq ▸ horigin⟩) h.ledger.handled_origin
      answer_handled := fun hk => (hanswer hk).imp And.left h.ledger.answer_handled
      closed_handled := fun hid => .inr (h.ledger.closed_handled hid)
      gone_handled := fun hid => .inr (h.ledger.gone_handled hid) }
  · rintro id hid (rfl | hold)
    · exact hflight hid
    · exact h.not_handled hid hold

theorem close (h : Sound limits L net) {keyId : Bytes} (hhandled : L.handled keyId)
    (hflight : keyId ∉ net.flight.filterMap repliedKeyId) : Sound limits (L.close keyId) net := by
  refine h.extend (L.close keyId) ⟨id, id, .inr, id⟩ ?_ .inl (fun id => h.not_handled) ?_
  · exact { h.ledger with
      closed_handled := fun hid => hid.elim (fun heq => heq ▸ hhandled) h.ledger.closed_handled }
  · rintro id hid (rfl | hclosed)
    · exact hflight hid
    · exact h.not_closed hid hclosed

theorem retire (h : Sound limits L net) {node : NodeID} {keyIds : Bytes → Prop}
    (hkeys : ∀ keyId, keyIds keyId → L.handled keyId ∧ Lacks (net.nodes node) keyId) :
    Sound limits (L.retire node keyIds) net := by
  refine h.extend (L.retire node keyIds) ⟨id, id, id, .inr⟩ ?_ ?_ (fun id => h.not_handled) (fun id => h.not_closed)
  · exact { h.ledger with
      gone_handled := fun hid => hid.elim (fun heq => (hkeys _ heq.2).1) h.ledger.gone_handled }
  · rintro keyId other (⟨rfl, hid⟩ | hold)
    · exact .inr (hkeys keyId hid).2
    · exact .inl hold

/-- Messages that are neither requests nor replies can be added freely. -/
theorem notify (h : Sound limits L net) {messages : List RSPMessage}
    (hmessages : ∀ m ∈ messages, L.Message m ∧ requestedKeyId m = none ∧ repliedKeyId m = none) :
    Sound limits L (net.send messages) := by
  have hrequests : messages.filterMap requestedKeyId = [] :=
    List.filterMap_eq_nil_iff.mpr fun m hm => (hmessages m hm).2.1
  have hreplies : messages.filterMap repliedKeyId = [] :=
    List.filterMap_eq_nil_iff.mpr fun m hm => (hmessages m hm).2.2
  refine h.send (fun m hm => (hmessages m hm).1) ?_ ?_
  · rw [List.filterMap_append, hrequests, List.append_nil]
    exact h.requests
  · rw [List.filterMap_append, hreplies, List.append_nil]
    exact h.replies

/-- A node removes entries, gives up some key ids for good and says so. -/
theorem giveUp (h : Sound limits L net) {node : NodeID} {s : AesNegotiationState C}
    (hforgets : AesNegotiationState.Forgets s (net.nodes node)) {keyIds : Bytes → Prop}
    (hkeys : ∀ keyId, keyIds keyId → L.handled keyId ∧ Lacks s keyId) {messages : List RSPMessage}
    (hmessages : ∀ m ∈ messages,
      (L.retire node keyIds).Message m ∧ requestedKeyId m = none ∧ repliedKeyId m = none) :
    Sound limits (L.retire node keyIds) ((net.set node s).send messages) := by
  refine ((h.forget hforgets).retire fun keyId hid => ?_).notify hmessages
  rw [Network.set_nodes_self]
  exact hkeys keyId hid

end Sound

end Ledger

end Rsp
