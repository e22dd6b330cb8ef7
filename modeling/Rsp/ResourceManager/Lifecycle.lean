import Rsp.AuthN.Exchange
import Rsp.Lib.Counting
import Rsp.Lib.Machine

/-!
# Lifecycle events of connections

A connection of the resource manager from its acceptance to its end: the handshake, the identity exchange, the registration in `activeEncodings_`, the loop that reads from it, and the callback that takes it out again. The event that a node has connected is published during the exchange, when its identity is accepted; the event that it has disconnected by the callback of a started encoding.

Connections take their steps in any order. Each step is one critical section, one read or one callback.
-/

namespace Rsp

open Proto Counting

/-- The payloads of the published log records. -/
inductive LifecycleEvent where
  | nodeConnected (nodeId : NodeId) (identity : Identity)
  | nodeDisconnected (nodeId : NodeId)

inductive ConnectionPhase where
  | accepted
  | handshaken
  | exchanging (inputs : ExchangeInputs) (state : ExchangeState)
  /-- The exchange has succeeded; `peer` is what the encoding knows. -/
  | authenticated (peer : Option NodeID)
  | registered (peer : NodeID)
  | startFailed (peer : NodeID)
  | running (peer : NodeID)
  /-- Reading has failed and the callback is about to be called. -/
  | lost (peer : NodeID)
  /-- The entry is erased, the event not yet published. -/
  | unregistered (peer : NodeID)
  | closed

inductive ConnectionStep where
  | handshake (succeeded : Bool)
  | beginExchange (inputs : ExchangeInputs)
  /-- `none` when reading fails. -/
  | read (m : Option RSPMessage)
  | handleAuthNSuccess
  | start (started : Bool)
  | eraseUnstarted
  | loseConnection
  | handleEncodingDisconnect
  | publishDisconnected

/-- What a step of a connection does to the rest of the resource manager. `abandons` notes the peer of a connection that ends although its identity was accepted, and without ever being started. -/
structure StepEffects where
  registers : Option NodeID := none
  unregisters : Bool := false
  event : Option LifecycleEvent := none
  abandons : Option NodeID := none

def cacheAuthenticatedIdentity (peerNodeId : NodeID) (identity : Identity) : LifecycleEvent :=
  .nodeConnected (toProtoNodeId peerNodeId) identity

/-- The peer whose identity the exchange has accepted so far. -/
def ExchangeState.acceptedPeer (state : ExchangeState) : Option NodeID :=
  if state.peerIdentityReceived then state.peerNodeID else none

/-- The call of `storeIdentity_` in the step of the exchange that accepts the identity. -/
def storedIdentity (m : RSPMessage) (before after : ExchangeState) : Option LifecycleEvent :=
  match before.acceptedPeer, after.acceptedPeer, m.coreMessage with
  | none, some peer, .identity identity => some (cacheAuthenticatedIdentity peer identity)
  | _, _, _ => none

namespace ConnectionPhase

variable {C : Crypto} (pb : Protobuf) (authn : MessageQueueAuthN C)

/-- `none` when the step is not possible; an exception in the exchange ends the process. -/
def next : ConnectionPhase → ConnectionStep → Option (ConnectionPhase × StepEffects)
  | .accepted, .handshake succeeded => some (if succeeded then .handshaken else .closed, {})
  | .handshaken, .beginExchange inputs =>
    if !inputs.connected || !authn.keyPair.isValid then some (.closed, {})
    else
      let written := MessageQueueAuthN.writeMessage inputs (MessageQueueAuthN.challengeMessage inputs) {}
      some (if written.2 then .exchanging inputs written.1 else .closed, {})
  | .exchanging _ state, .read none => some (.closed, { abandons := state.acceptedPeer })
  | .exchanging inputs state, .read (some m) =>
    match authn.handleIncoming pb inputs m { state with history := state.history ++ [.read m] } with
    | (_, some (.error _)) => none
    | (_, some (.ok _)) => some (.closed, { abandons := state.acceptedPeer })
    | (after, none) =>
      some
        (if after.peerIdentityReceived && after.localIdentitySent then .authenticated after.peerNodeID
          else .exchanging inputs after,
        { event := storedIdentity m state after })
  | .authenticated none, .handleAuthNSuccess => some (.closed, {})
  | .authenticated (some peer), .handleAuthNSuccess => some (.registered peer, { registers := some peer })
  | .registered peer, .start started => some (if started then .running peer else .startFailed peer, {})
  | .startFailed peer, .eraseUnstarted => some (.closed, { unregisters := true, abandons := some peer })
  | .running peer, .loseConnection => some (.lost peer, {})
  | .lost peer, .handleEncodingDisconnect => some (.unregistered peer, { unregisters := true })
  | .unregistered peer, .publishDisconnected =>
    some (.closed, { event := some (.nodeDisconnected (toProtoNodeId peer)) })
  | _, _ => none

end ConnectionPhase

/-- The connections ever accepted and the part of the resource manager that they change. An entry of `activeEncodings` has the number of its connection, in place of the pointer. -/
structure Lifecycle where
  connections : List ConnectionPhase := []
  activeEncodings : List (Nat × NodeID) := []
  published : List LifecycleEvent := []
  abandoned : List NodeID := []

namespace Lifecycle

inductive Step where
  | accept
  | connection (index : Nat) (step : ConnectionStep)

/-- The first entry of the encoding is erased, a new one is put at the end. -/
def applyEffects (index : Nat) (effects : StepEffects) (rm : Lifecycle) : Lifecycle :=
  { rm with
    activeEncodings := (if effects.unregisters then rm.activeEncodings.eraseP (·.1 = index) else rm.activeEncodings) ++
      effects.registers.toList.map fun peer => (index, peer)
    published := rm.published ++ effects.event.toList
    abandoned := rm.abandoned ++ effects.abandons.toList }

def next {C : Crypto} (pb : Protobuf) (authn : MessageQueueAuthN C) (rm : Lifecycle) : Step → Option Lifecycle
  | .accept => some { rm with connections := rm.connections ++ [.accepted] }
  | .connection index step =>
    rm.connections[index]?.bind fun phase =>
      (phase.next pb authn step).map fun (phase, effects) =>
        { rm with connections := rm.connections.set index phase }.applyEffects index effects

end Lifecycle

/-- The resource manager without its shutdown. -/
def lifecycleMachine {C : Crypto} (pb : Protobuf) (authn : MessageQueueAuthN C) : Machine Lifecycle Lifecycle.Step where
  init rm := rm = {}
  next := Lifecycle.next pb authn

/-! ### One step of a connection -/

namespace ConnectionPhase

/-- The peer for which the connection event has been published and no other event yet. -/
def openPeer : ConnectionPhase → Option NodeID
  | .exchanging _ state => state.acceptedPeer
  | .authenticated peer => peer
  | .registered peer | .startFailed peer | .running peer | .lost peer | .unregistered peer => some peer
  | .accepted | .handshaken | .closed => none

/-- The peer of the connection's entry in `activeEncodings_`. -/
def entry : ConnectionPhase → Option NodeID
  | .registered peer | .startFailed peer | .running peer | .lost peer => some peer
  | _ => none

end ConnectionPhase

namespace LifecycleEvent

def connects (node : NodeID) : LifecycleEvent → Bool
  | .nodeConnected nodeId _ => nodeId = toProtoNodeId node
  | .nodeDisconnected _ => false

def disconnects (node : NodeID) : LifecycleEvent → Bool
  | .nodeConnected _ _ => false
  | .nodeDisconnected nodeId => nodeId = toProtoNodeId node

end LifecycleEvent

/-- A step of the exchange that goes on leaves the peer alone or accepts its identity. -/
theorem handleIncoming_acceptedPeer {C : Crypto} {pb : Protobuf} {authn : MessageQueueAuthN C} {inputs : ExchangeInputs}
    {m : RSPMessage} {before after : ExchangeState} (h : authn.handleIncoming pb inputs m before = (after, none)) :
    after.acceptedPeer = before.acceptedPeer ∨
      ∃ identity peer, m.coreMessage = .identity identity ∧ before.acceptedPeer = none ∧ after.acceptedPeer = some peer := by
  cases hcore : m.coreMessage <;> simp only [MessageQueueAuthN.handleIncoming, hcore, Prod.mk.injEq, reduceCtorEq,
    and_false] at h
  case challengeRequest request =>
    simp only [MessageQueueAuthN.handleChallenge] at h
    split_ifs at h
    · cases h
    · split at h
      · cases h
      · cases hwrite : inputs.writeSucceeds before.writes with
        | false => simp [MessageQueueAuthN.writeMessage, hwrite] at h
        | true =>
          simp only [MessageQueueAuthN.writeMessage, hwrite, if_true, Prod.mk.injEq, and_true] at h
          rw [← h]
          exact .inl rfl
  case identity identity =>
    unfold MessageQueueAuthN.handleIdentity at h
    split_ifs at h with hreceived
    · cases h
    · split at h
      · cases h
      · cases h
      · next peer hvalid =>
        unfold MessageQueueAuthN.setPeerNodeID at h
        split_ifs at h
        · cases h
        · cases h
          refine .inr ⟨identity, peer, rfl, ?_, rfl⟩
          simp [ExchangeState.acceptedPeer, hreceived]

namespace ConnectionPhase

/-- How a step changes the entry of its connection. -/
def EntryChanges (phase after : ConnectionPhase) (effects : StepEffects) : Prop :=
  (effects.registers = none ∧ effects.unregisters = false ∧ after.entry = phase.entry) ∨
    (∃ peer, effects.registers = some peer ∧ effects.unregisters = false ∧ phase.entry = none ∧ after.entry = some peer) ∨
    ∃ peer, effects.registers = none ∧ effects.unregisters = true ∧ phase.entry = some peer ∧ after.entry = none

/-- How a step changes the peer that waits for its second event. -/
def PeerChanges (phase after : ConnectionPhase) (effects : StepEffects) : Prop :=
  (effects.event = none ∧ effects.abandons = none ∧ after.openPeer = phase.openPeer) ∨
    (∃ peer identity, effects.event = some (cacheAuthenticatedIdentity peer identity) ∧ effects.abandons = none ∧
      phase.openPeer = none ∧ after.openPeer = some peer) ∨
    (∃ peer, effects.event = some (.nodeDisconnected (toProtoNodeId peer)) ∧ effects.abandons = none ∧
      phase.openPeer = some peer ∧ after.openPeer = none) ∨
    (effects.event = none ∧ effects.abandons = phase.openPeer ∧ after.openPeer = none)

variable {C : Crypto} {pb : Protobuf} {authn : MessageQueueAuthN C}

theorem next_changes {phase after : ConnectionPhase} {step : ConnectionStep} {effects : StepEffects}
    (h : phase.next pb authn step = some (after, effects)) :
    EntryChanges phase after effects ∧ PeerChanges phase after effects := by
  unfold next at h
  split at h
  · obtain ⟨rfl, rfl⟩ := Prod.mk.inj (Option.some.inj h)
    refine ⟨.inl ⟨rfl, rfl, ?_⟩, .inl ⟨rfl, rfl, ?_⟩⟩
    · split_ifs <;> rfl
    · split_ifs <;> rfl
  · split_ifs at h
    · obtain ⟨rfl, rfl⟩ := Prod.mk.inj (Option.some.inj h)
      exact ⟨.inl ⟨rfl, rfl, rfl⟩, .inl ⟨rfl, rfl, rfl⟩⟩
    · obtain ⟨rfl, rfl⟩ := Prod.mk.inj (Option.some.inj h)
      refine ⟨.inl ⟨rfl, rfl, ?_⟩, .inl ⟨rfl, rfl, ?_⟩⟩
      · split_ifs <;> rfl
      · split_ifs <;> rfl
  · obtain ⟨rfl, rfl⟩ := Prod.mk.inj (Option.some.inj h)
    exact ⟨.inl ⟨rfl, rfl, rfl⟩, .inr (.inr (.inr ⟨rfl, rfl, rfl⟩))⟩
  · next inputs state m =>
    split at h
    · cases h
    · obtain ⟨rfl, rfl⟩ := Prod.mk.inj (Option.some.inj h)
      exact ⟨.inl ⟨rfl, rfl, rfl⟩, .inr (.inr (.inr ⟨rfl, rfl, rfl⟩))⟩
    · next state' hincoming =>
      obtain ⟨rfl, rfl⟩ := Prod.mk.inj (Option.some.inj h)
      -- whether or not the exchange is over, the connection goes on with the accepted peer
      have hopen : (if (state'.peerIdentityReceived && state'.localIdentitySent) = true then
          ConnectionPhase.authenticated state'.peerNodeID else .exchanging inputs state').openPeer =
          state'.acceptedPeer := by
        split_ifs with hdone
        · rw [Bool.and_eq_true] at hdone
          simp [openPeer, ExchangeState.acceptedPeer, hdone.1]
        · rfl
      refine ⟨.inl ⟨rfl, rfl, ?_⟩, ?_⟩
      · split_ifs <;> rfl
      · rcases handleIncoming_acceptedPeer hincoming with hsame | ⟨identity, peer, hcore, hbefore, hafter⟩
        · refine .inl ⟨?_, rfl, hopen.trans hsame⟩
          have hsame : state'.acceptedPeer = state.acceptedPeer := hsame
          simp only [storedIdentity, hsame]
          split
          · next h₁ h₂ _ => rw [h₁] at h₂; cases h₂
          · rfl
        · have hbefore : state.acceptedPeer = none := hbefore
          refine .inr (.inl ⟨peer, identity, ?_, rfl, hbefore, hopen.trans hafter⟩)
          simp only [storedIdentity, hbefore, hafter, hcore]
  · obtain ⟨rfl, rfl⟩ := Prod.mk.inj (Option.some.inj h)
    exact ⟨.inl ⟨rfl, rfl, rfl⟩, .inl ⟨rfl, rfl, rfl⟩⟩
  · obtain ⟨rfl, rfl⟩ := Prod.mk.inj (Option.some.inj h)
    exact ⟨.inr (.inl ⟨_, rfl, rfl, rfl, rfl⟩), .inl ⟨rfl, rfl, rfl⟩⟩
  · obtain ⟨rfl, rfl⟩ := Prod.mk.inj (Option.some.inj h)
    refine ⟨.inl ⟨rfl, rfl, ?_⟩, .inl ⟨rfl, rfl, ?_⟩⟩
    · split_ifs <;> rfl
    · split_ifs <;> rfl
  · obtain ⟨rfl, rfl⟩ := Prod.mk.inj (Option.some.inj h)
    exact ⟨.inr (.inr ⟨_, rfl, rfl, rfl, rfl⟩), .inr (.inr (.inr ⟨rfl, rfl, rfl⟩))⟩
  · obtain ⟨rfl, rfl⟩ := Prod.mk.inj (Option.some.inj h)
    exact ⟨.inl ⟨rfl, rfl, rfl⟩, .inl ⟨rfl, rfl, rfl⟩⟩
  · obtain ⟨rfl, rfl⟩ := Prod.mk.inj (Option.some.inj h)
    exact ⟨.inr (.inr ⟨_, rfl, rfl, rfl, rfl⟩), .inl ⟨rfl, rfl, rfl⟩⟩
  · obtain ⟨rfl, rfl⟩ := Prod.mk.inj (Option.some.inj h)
    exact ⟨.inl ⟨rfl, rfl, rfl⟩, .inr (.inr (.inl ⟨_, rfl, rfl, rfl, rfl⟩))⟩
  · cases h

end ConnectionPhase

/-! ### Whole runs -/

namespace Lifecycle

def connectedEvents (rm : Lifecycle) (node : NodeID) : Nat := rm.published.countP (LifecycleEvent.connects node)

def disconnectedEvents (rm : Lifecycle) (node : NodeID) : Nat := rm.published.countP (LifecycleEvent.disconnects node)

def entriesOf (rm : Lifecycle) (node : NodeID) : Nat := rm.activeEncodings.countP (·.2 = node)

def openConnections (rm : Lifecycle) (node : NodeID) : Nat :=
  rm.connections.countP fun phase => phase.openPeer = some node

structure Balanced (rm : Lifecycle) : Prop where
  events : ∀ node, rm.connectedEvents node =
    rm.disconnectedEvents node + rm.openConnections node + rm.abandoned.count node
  entries : ∀ node, rm.entriesOf node = rm.connections.countP fun phase => phase.entry = some node
  nodup : (rm.activeEncodings.map Prod.fst).Nodup
  listed : ∀ index peer, (index, peer) ∈ rm.activeEncodings ↔ (rm.connections[index]?).bind ConnectionPhase.entry = some peer

variable {rm : Lifecycle} {index : Nat} {phase after : ConnectionPhase} {effects : StepEffects}

theorem events_applyEffects (h : ∀ node, rm.connectedEvents node =
      rm.disconnectedEvents node + rm.openConnections node + rm.abandoned.count node)
    (hphase : rm.connections[index]? = some phase) (hchanges : ConnectionPhase.PeerChanges phase after effects)
    (node : NodeID) :
    let rm' := { rm with connections := rm.connections.set index after }.applyEffects index effects
    rm'.connectedEvents node = rm'.disconnectedEvents node + rm'.openConnections node + rm'.abandoned.count node := by
  have hbefore := h node
  have hcount := countP_replaceAt hphase (some after) fun phase => phase.openPeer = some node
  simp only [replaceAt, Option.toList_some, List.countP_cons, List.countP_nil] at hcount
  simp only [connectedEvents, disconnectedEvents, openConnections, applyEffects, List.countP_append,
    List.count_append] at hbefore ⊢
  rcases hchanges with ⟨hevent, habandons, hopen⟩ | ⟨peer, identity, hevent, habandons, hphase', hopen⟩ |
    ⟨peer, hevent, habandons, hphase', hopen⟩ | ⟨hevent, habandons, hopen⟩
  · simp only [hevent, habandons, hopen, Option.toList_none, List.countP_nil, List.count_nil] at hcount ⊢
    omega
  · have heq : (toProtoNodeId peer = toProtoNodeId node) = (peer = node) := by
      rw [toProtoNodeId_injective.eq_iff]
    simp only [hevent, habandons, hopen, hphase', Option.toList_some, Option.toList_none, List.countP_cons, List.countP_nil,
      List.count_nil, cacheAuthenticatedIdentity, LifecycleEvent.connects, LifecycleEvent.disconnects, heq,
      Option.some.injEq, reduceCtorEq, decide_false, decide_eq_true_eq, Bool.false_eq_true, if_false] at hcount ⊢
    omega
  · have heq : (toProtoNodeId peer = toProtoNodeId node) = (peer = node) := by
      rw [toProtoNodeId_injective.eq_iff]
    simp only [hevent, habandons, hopen, hphase', Option.toList_some, Option.toList_none, List.countP_cons, List.countP_nil,
      List.count_nil, LifecycleEvent.connects, LifecycleEvent.disconnects, heq,
      Option.some.injEq, reduceCtorEq, decide_false, decide_eq_true_eq, Bool.false_eq_true, if_false] at hcount ⊢
    omega
  · have hcount' : phase.openPeer.toList.count node = if phase.openPeer = some node then 1 else 0 := by
      cases phase.openPeer with
      | none => rfl
      | some peer => simp [List.count_singleton]
    simp only [hevent, habandons, hopen, Option.toList_none, List.countP_nil, hcount', reduceCtorEq, decide_false,
      decide_eq_true_eq, Bool.false_eq_true, if_false] at hcount ⊢
    omega

/-- The entry of a connection is the one that `find_if` finds. -/
theorem Balanced.erase_entry (h : Balanced rm) {peer : NodeID} (hphase : rm.connections[index]? = some phase)
    (hpeer : phase.entry = some peer) :
    ∃ before later, rm.activeEncodings = before ++ (index, peer) :: later ∧
      rm.activeEncodings.eraseP (·.1 = index) = before ++ later ∧ ∀ entry ∈ before ++ later, entry.1 ≠ index := by
  have hentry : (rm.connections[index]?).bind ConnectionPhase.entry = some peer := by rw [hphase]; exact hpeer
  have hmem := (h.listed index peer).mpr hentry
  obtain ⟨⟨index', peer'⟩, before, later, -, hindex, hsplit, herase⟩ :=
    List.exists_of_eraseP (p := fun entry => decide (entry.1 = index)) hmem (by simp)
  obtain rfl : index' = index := by simpa using hindex
  have hmem' : (index', peer') ∈ rm.activeEncodings := by rw [hsplit]; simp
  have hpeer := hentry.symm.trans ((h.listed index' peer').mp hmem')
  obtain rfl : peer = peer' := Option.some.inj hpeer
  refine ⟨before, later, hsplit, herase, fun entry hentry heq => ?_⟩
  -- a second entry of the connection would repeat its number
  have hnodup := h.nodup
  rw [hsplit, List.map_append, List.map_cons, List.nodup_middle, List.nodup_cons, ← List.map_append] at hnodup
  exact hnodup.1 (List.mem_map.mpr ⟨entry, hentry, heq⟩)

theorem Balanced.entries_applyEffects (h : Balanced rm) (hphase : rm.connections[index]? = some phase)
    (hentry : ConnectionPhase.EntryChanges phase after effects) (node : NodeID) :
    let rm' := { rm with connections := rm.connections.set index after }.applyEffects index effects
    rm'.entriesOf node = rm'.connections.countP fun phase => phase.entry = some node := by
  have hcount := countP_replaceAt hphase (some after) fun phase => phase.entry = some node
  have hentries := h.entries node
  simp only [replaceAt, Option.toList_some, List.countP_cons, List.countP_nil] at hcount
  simp only [applyEffects, entriesOf] at hentries ⊢
  rcases hentry with ⟨hregisters, hunregisters, hafter⟩ | ⟨peer, hregisters, hunregisters, hbefore, hafter⟩ |
    ⟨peer, hregisters, hunregisters, hbefore, hafter⟩
  · simp only [hregisters, hunregisters, hafter, Bool.false_eq_true, if_false, Option.toList_none, List.map_nil,
      List.append_nil] at hcount ⊢
    omega
  · simp only [hregisters, hunregisters, hbefore, hafter, Bool.false_eq_true, if_false, Option.toList_some, List.map_cons,
      List.map_nil, List.countP_append, List.countP_cons, List.countP_nil, Option.some.injEq, reduceCtorEq,
      decide_false] at hcount ⊢
    omega
  · obtain ⟨before, later, hsplit, herase, -⟩ := h.erase_entry hphase hbefore
    rw [hsplit] at hentries
    simp only [hregisters, hunregisters, hbefore, hafter, Bool.false_eq_true, if_false, if_true, Option.toList_none,
      List.map_nil, List.append_nil, herase, List.countP_append, List.countP_cons, Option.some.injEq, reduceCtorEq,
      decide_false] at hcount hentries ⊢
    omega

theorem Balanced.nodup_applyEffects (h : Balanced rm) (hphase : rm.connections[index]? = some phase)
    (hentry : ConnectionPhase.EntryChanges phase after effects) :
    ((rm.applyEffects index effects).activeEncodings.map Prod.fst).Nodup := by
  rcases hentry with ⟨hregisters, hunregisters, -⟩ | ⟨peer, hregisters, hunregisters, hbefore, -⟩ |
    ⟨peer, hregisters, hunregisters, hbefore, -⟩
  · simpa [applyEffects, hregisters, hunregisters] using h.nodup
  · have hnew : ∀ p, (index, p) ∉ rm.activeEncodings := by
      intro p hmem
      have hlisted := (h.listed index p).mp hmem
      rw [hphase, Option.bind_some, hbefore] at hlisted
      cases hlisted
    simp only [applyEffects, hregisters, hunregisters, Bool.false_eq_true, if_false, Option.toList_some,
      List.map_cons, List.map_nil, List.map_append, List.nodup_append, List.nodup_singleton, true_and]
    refine ⟨h.nodup, ?_⟩
    intro i hi j hj heq
    obtain ⟨⟨i', p⟩, hmem, rfl⟩ := List.mem_map.mp hi
    obtain rfl := List.mem_singleton.mp hj
    exact hnew p (heq ▸ hmem)
  · obtain ⟨before, later, hsplit, herase, -⟩ := h.erase_entry hphase hbefore
    have hnodup := h.nodup
    rw [hsplit, List.map_append, List.map_cons, List.nodup_middle, List.nodup_cons, ← List.map_append] at hnodup
    simpa [applyEffects, hregisters, hunregisters, herase] using hnodup.2

theorem Balanced.listed_applyEffects (h : Balanced rm) (hphase : rm.connections[index]? = some phase)
    (hentry : ConnectionPhase.EntryChanges phase after effects) (i : Nat) (p : NodeID) :
    (i, p) ∈ (rm.applyEffects index effects).activeEncodings ↔
      ((rm.connections.set index after)[i]?).bind ConnectionPhase.entry = some p := by
  have hlt : index < rm.connections.length := (List.getElem?_eq_some_iff.mp hphase).1
  have hat : (rm.connections[index]?).bind ConnectionPhase.entry = phase.entry := by rw [hphase]; rfl
  have hset : ((rm.connections.set index after)[i]?).bind ConnectionPhase.entry =
      if i = index then after.entry else (rm.connections[i]?).bind ConnectionPhase.entry := by
    by_cases heq : i = index
    · rw [if_pos heq, heq, List.getElem?_set_self hlt]
      rfl
    · rw [if_neg heq, List.getElem?_set_ne (Ne.symm heq)]
  rw [hset]
  rcases hentry with ⟨hregisters, hunregisters, hafter⟩ | ⟨peer, hregisters, hunregisters, hbefore, hafter⟩ |
    ⟨peer, hregisters, hunregisters, hbefore, hafter⟩
  · simp only [applyEffects, hregisters, hunregisters, Bool.false_eq_true, if_false, Option.toList_none,
      List.map_nil, List.append_nil, h.listed]
    by_cases heq : i = index
    · rw [if_pos heq, heq, hat, hafter]
    · rw [if_neg heq]
  · simp only [applyEffects, hregisters, hunregisters, Bool.false_eq_true, if_false, Option.toList_some,
      List.map_cons, List.map_nil, List.mem_append, List.mem_singleton, Prod.mk.injEq, h.listed]
    by_cases heq : i = index
    · rw [if_pos heq, heq, hat, hbefore, hafter]
      simp [eq_comm]
    · rw [if_neg heq]
      simp [heq]
  · obtain ⟨before, later, hsplit, herase, hother⟩ := h.erase_entry hphase hbefore
    simp only [applyEffects, hregisters, hunregisters, if_true, Option.toList_none, List.map_nil, List.append_nil, herase]
    by_cases heq : i = index
    · rw [if_pos heq, hafter]
      refine iff_of_false (fun hmem => hother _ hmem heq) (by simp)
    · rw [if_neg heq, ← h.listed, hsplit]
      simp [heq]

theorem Balanced.applyEffects (h : Balanced rm) (hphase : rm.connections[index]? = some phase)
    (hentry : ConnectionPhase.EntryChanges phase after effects)
    (hpeer : ConnectionPhase.PeerChanges phase after effects) :
    Balanced ({ rm with connections := rm.connections.set index after }.applyEffects index effects) where
  events := events_applyEffects h.events hphase hpeer
  entries := h.entries_applyEffects hphase hentry
  nodup := h.nodup_applyEffects hphase hentry
  listed := h.listed_applyEffects hphase hentry

theorem Balanced.accept (h : Balanced rm) : Balanced { rm with connections := rm.connections ++ [.accepted] } := by
  refine ⟨fun node => ?_, fun node => ?_, h.nodup, fun index peer => ?_⟩
  · have hevents := h.events node
    simpa [connectedEvents, disconnectedEvents, openConnections, ConnectionPhase.openPeer] using hevents
  · have hentries := h.entries node
    simpa [entriesOf, ConnectionPhase.entry] using hentries
  · rw [h.listed]
    by_cases hlt : index < rm.connections.length
    · simp only [List.getElem?_append_left hlt]
    · have hnone : rm.connections[index]? = none := List.getElem?_eq_none (by omega)
      rw [hnone]
      by_cases heq : index = rm.connections.length
      · subst heq
        simp [ConnectionPhase.entry]
      · have hnone' : (rm.connections ++ [.accepted])[index]? = none :=
          List.getElem?_eq_none (by simp only [List.length_append, List.length_singleton]; omega)
        simp only [hnone']

theorem balanced_of_reaches {C : Crypto} {pb : Protobuf} {authn : MessageQueueAuthN C}
    (h : (lifecycleMachine pb authn).Reaches rm) : Balanced rm := by
  refine h.invariant (I := Balanced) (fun rm hinit => ?_) fun rm step rm' hbalanced hstep => ?_
  · obtain rfl : rm = {} := hinit
    exact ⟨fun node => rfl, fun node => rfl, .nil, by simp⟩
  · cases step with
    | accept =>
      obtain rfl := Option.some.inj hstep
      exact hbalanced.accept
    | connection index step =>
      obtain ⟨phase, hphase, hstep⟩ := Option.bind_eq_some_iff.mp hstep
      obtain ⟨⟨after, effects⟩, hnext, rfl⟩ := Option.map_eq_some_iff.mp hstep
      obtain ⟨hentry, hpeer⟩ := ConnectionPhase.next_changes hnext
      exact hbalanced.applyEffects hphase hentry hpeer

/-- No connection is being set up or torn down. -/
def Settled (rm : Lifecycle) : Prop :=
  ∀ phase ∈ rm.connections, phase = .closed ∨ ∃ peer, phase = .running peer

theorem Settled.openPeer_eq_entry (h : rm.Settled) (node : NodeID) :
    rm.openConnections node = rm.connections.countP fun phase => phase.entry = some node := by
  refine List.countP_congr fun phase hphase => ?_
  obtain rfl | ⟨peer, rfl⟩ := h phase hphase
  · rfl
  · rfl

end Lifecycle

/-- In a settled state the events about a node match its entries exactly if no connection was abandoned after the identity of the node had been accepted. -/
theorem lifecycle_events_match_iff {C : Crypto} {pb : Protobuf} {authn : MessageQueueAuthN C} {rm : Lifecycle}
    (h : (lifecycleMachine pb authn).Reaches rm) (hsettled : rm.Settled) (node : NodeID) :
    (rm.connectedEvents node : Int) - rm.disconnectedEvents node = rm.entriesOf node ↔ node ∉ rm.abandoned := by
  have hbalanced := Lifecycle.balanced_of_reaches h
  have hevents := hbalanced.events node
  rw [hsettled.openPeer_eq_entry, ← hbalanced.entries] at hevents
  rw [← List.count_eq_zero]
  omega

namespace Lifecycle

def sampleManager : MessageQueueAuthN sampleCrypto := { keyPair := sampleKeyPair 1, bootId := {} }

def samplePeer : MessageQueueAuthN sampleCrypto := { keyPair := sampleKeyPair 2, bootId := {} }

theorem sampleNonce_length : (List.replicate 16 (0 : UInt8)).length = 16 := rfl

def sampleInputs : ExchangeInputs :=
  { challengeNonce := List.replicate 16 0, challengeNonce_length := sampleNonce_length }

def sampleIdentity : RSPMessage := ((samplePeer.identityMessage default 0 ⟨List.replicate 16 0⟩).toOption).getD {}

def samplePeerId : NodeID := ⟨0x0200000000000000, 0⟩

/-- The peer sends its identity and closes the connection. -/
def abandonedRun : Option Lifecycle :=
  (lifecycleMachine default sampleManager).run {}
    [.accept, .connection 0 (.handshake true), .connection 0 (.beginExchange sampleInputs),
      .connection 0 (.read (some sampleIdentity)), .connection 0 (.read none)]

/-- The peer sends its identity and its challenge, and stays. -/
def connectedRun : Option Lifecycle :=
  (lifecycleMachine default sampleManager).run {}
    [.accept, .connection 0 (.handshake true), .connection 0 (.beginExchange sampleInputs),
      .connection 0 (.read (some sampleIdentity)),
      .connection 0 (.read (some (MessageQueueAuthN.challengeMessage sampleInputs))),
      .connection 0 .handleAuthNSuccess, .connection 0 (.start true)]

def isSettled (rm : Lifecycle) : Bool :=
  rm.connections.all fun
    | .closed | .running _ => true
    | _ => false

theorem settled_of_isSettled {rm : Lifecycle} (h : rm.isSettled = true) : rm.Settled := by
  intro phase hphase
  have hsettled := List.all_eq_true.mp h phase hphase
  cases phase with
  | closed => exact .inl rfl
  | running peer => exact .inr ⟨peer, rfl⟩
  | accepted | handshaken | exchanging | authenticated | registered | startFailed | lost | unregistered => cases hsettled

end Lifecycle

open Lifecycle in
theorem lifecycle_events_match_iff_connected : ∃ rm, (lifecycleMachine default sampleManager).Reaches rm ∧ rm.Settled ∧
    rm.entriesOf samplePeerId = 1 ∧
    (rm.connectedEvents samplePeerId : Int) - rm.disconnectedEvents samplePeerId = rm.entriesOf samplePeerId := by
  have hrun : (connectedRun.any fun rm => rm.isSettled && rm.entriesOf samplePeerId == 1 && rm.abandoned.isEmpty) = true := by
    decide +kernel
  cases hrm : connectedRun with
  | none =>
    rw [hrm] at hrun
    cases hrun
  | some rm =>
    simp only [hrm, Option.any_some, Bool.and_eq_true, beq_iff_eq, List.isEmpty_iff] at hrun
    obtain ⟨⟨hsettled, hentries⟩, habandoned⟩ := hrun
    have hreaches : (lifecycleMachine default sampleManager).Reaches rm := .run (.start rfl) hrm
    have hnot : samplePeerId ∉ rm.abandoned := by simp [habandoned]
    exact ⟨rm, hreaches, settled_of_isSettled hsettled, hentries,
      (lifecycle_events_match_iff hreaches (settled_of_isSettled hsettled) samplePeerId).mpr hnot⟩

open Lifecycle in
theorem connected_event_without_connection : ∃ rm, (lifecycleMachine default sampleManager).Reaches rm ∧ rm.Settled ∧
    rm.connectedEvents samplePeerId = 1 ∧ rm.disconnectedEvents samplePeerId = 0 ∧ rm.entriesOf samplePeerId = 0 := by
  have hrun : (abandonedRun.any fun rm => rm.isSettled && rm.connectedEvents samplePeerId == 1 &&
      rm.disconnectedEvents samplePeerId == 0 && rm.entriesOf samplePeerId == 0) = true := by
    decide +kernel
  cases hrm : abandonedRun with
  | none =>
    rw [hrm] at hrun
    cases hrun
  | some rm =>
    simp only [hrm, Option.any_some, Bool.and_eq_true, beq_iff_eq] at hrun
    obtain ⟨⟨⟨hsettled, hconnected⟩, hdisconnected⟩, hentries⟩ := hrun
    exact ⟨rm, .run (.start rfl) hrm, settled_of_isSettled hsettled, hconnected, hdisconnected, hentries⟩

end Rsp
