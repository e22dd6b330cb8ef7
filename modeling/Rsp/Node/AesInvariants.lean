import Rsp.Node.AesNegotiation

/-!
# Invariants of the negotiation tables

What one call can do to the two tables of a node, as one case list per handler, and what every sequence of calls keeps: no peer is in both tables, neither table outgrows its limit, and every stored key id has 16 bytes. The messages handled are arbitrary.
-/

namespace Rsp

open Proto

variable {C : Crypto}

/-- `t` has no entry that `t'` does not have. -/
structure Within {V : Type} (t t' : Std.TreeMap NodeID V) : Prop where
  size_le : t.size ≤ t'.size
  getElem? : ∀ {peer : NodeID} {v : V}, t[peer]? = some v → t'[peer]? = some v

namespace Within

variable {V : Type} {t t' t'' : Std.TreeMap NodeID V}

theorem refl (t : Std.TreeMap NodeID V) : Within t t := ⟨le_rfl, id⟩

theorem trans (h : Within t t') (h' : Within t' t'') : Within t t'' :=
  ⟨h.size_le.trans h'.size_le, fun hv => h'.getElem? (h.getElem? hv)⟩

theorem erase (t : Std.TreeMap NodeID V) (peer : NodeID) : Within (t.erase peer) t where
  size_le := Std.TreeMap.size_erase_le
  getElem? {p v} hv := by
    rw [Std.TreeMap.getElem?_erase] at hv
    split_ifs at hv
    exact hv

theorem filter (t : Std.TreeMap NodeID V) (f : NodeID → V → Bool) : Within (t.filter f) t where
  size_le := Std.TreeMap.size_filter_le_size
  getElem? {p v} hv := by
    rw [Std.TreeMap.getElem?_filter', Option.filter_eq_some_iff] at hv
    exact hv.1

theorem mem (h : Within t t') {peer : NodeID} (hpeer : peer ∈ t) : peer ∈ t' := by
  obtain ⟨v, hv⟩ := Option.isSome_iff_exists.mp (Std.TreeMap.mem_iff_isSome_getElem?.mp hpeer)
  rw [Std.TreeMap.mem_iff_isSome_getElem?, h.getElem? hv]
  rfl

end Within

/-- The answer to an accepted request. -/
def makeAesKeyNegotiationReply (source destination : NodeID) (keyId : Bytes) (ephemeralPublicKey : PublicKey)
    (acceptedLifetimeMs : UInt64) (algorithm : KeyNegotiationAlgorithm) : RSPMessage :=
  { source := some (toProtoNodeId source)
    destination := some (toProtoNodeId destination)
    coreMessage := .aesKeyNegotiationReply
      { keyId := some ⟨keyId⟩
        ephemeralPublicKey := some ephemeralPublicKey
        acceptedLifetimeMs
        algorithm } }

namespace AesNegotiationState

/-- `s` is `s'` after some entries were removed. -/
structure Forgets (s s' : AesNegotiationState C) : Prop where
  limits : s.limits = s'.limits
  pending : Within s.pendingByPeer s'.pendingByPeer
  active : Within s.activeByPeer s'.activeByPeer

theorem Forgets.refl (s : AesNegotiationState C) : Forgets s s := ⟨rfl, .refl _, .refl _⟩

theorem Forgets.trans {s s' s'' : AesNegotiationState C} (h : Forgets s s') (h' : Forgets s' s'') : Forgets s s'' :=
  ⟨h.limits.trans h'.limits, h.pending.trans h'.pending, h.active.trans h'.active⟩

theorem forgets_erasePending (s : AesNegotiationState C) (peer : NodeID) :
    Forgets { s with pendingByPeer := s.pendingByPeer.erase peer } s := ⟨rfl, .erase _ _, .refl _⟩

theorem forgets_eraseActive (s : AesNegotiationState C) (peer : NodeID) :
    Forgets { s with activeByPeer := s.activeByPeer.erase peer } s := ⟨rfl, .refl _, .erase _ _⟩

theorem forgets_processExpiredAesKeys (self : NodeID) (now : DateTime) (s : AesNegotiationState C) :
    Forgets (s.processExpiredAesKeys self now).1 s := ⟨rfl, .filter _ _, .filter _ _⟩

theorem forgets_erasePendingIf (peer : NodeID) (keyId : Bytes) (s : AesNegotiationState C) :
    Forgets (s.erasePendingIf peer keyId) s := by
  unfold erasePendingIf
  split
  · split_ifs
    · exact forgets_erasePending s peer
    · exact .refl s
  · exact .refl s

theorem forgets_eraseActiveIf (peer : NodeID) (keyId : Bytes) (s : AesNegotiationState C) :
    Forgets (s.eraseActiveIf peer keyId) s := by
  unfold eraseActiveIf
  split
  · split_ifs
    · exact forgets_eraseActive s peer
    · exact .refl s
  · exact .refl s

/-- Nothing with this key id is left pending with the peer. -/
theorem erasePendingIf_pending {peer : NodeID} {keyId : Bytes} {s : AesNegotiationState C}
    {pending : PendingAesNegotiation C} (h : (s.erasePendingIf peer keyId).pendingByPeer[peer]? = some pending) :
    pending.keyId ≠ keyId := by
  unfold erasePendingIf at h
  split at h
  · next old hold =>
    split_ifs at h with heq
    · simp at h
    · rw [hold, Option.some.injEq] at h
      exact h ▸ heq
  · next hnone =>
    rw [hnone] at h
    cases h

theorem eraseActiveIf_active {peer : NodeID} {keyId : Bytes} {s : AesNegotiationState C} {active : ActiveAesKey}
    (h : (s.eraseActiveIf peer keyId).activeByPeer[peer]? = some active) : active.keyId ≠ keyId := by
  unfold eraseActiveIf at h
  split at h
  · next old hold =>
    split_ifs at h with heq
    · simp at h
    · rw [hold, Option.some.injEq] at h
      exact h ▸ heq
  · next hnone =>
    rw [hnone] at h
    cases h

theorem erasePendingIf_activeByPeer (peer : NodeID) (keyId : Bytes) (s : AesNegotiationState C) :
    (s.erasePendingIf peer keyId).activeByPeer = s.activeByPeer := by
  unfold erasePendingIf
  split
  · split_ifs <;> rfl
  · rfl

theorem forgets_handleAesKeyNegotiationError (sender : Option NodeID) (error : AesKeyNegotiationError)
    (s : AesNegotiationState C) : Forgets (s.handleAesKeyNegotiationError sender error) s := by
  unfold handleAesKeyNegotiationError
  split
  · split_ifs
    · exact .refl s
    · exact (forgets_eraseActiveIf _ _ _).trans (forgets_erasePendingIf _ _ _)
    · exact forgets_erasePendingIf _ _ _
  · exact .refl s

theorem forgets_handleAesKeyDropNotification (self sender : NodeID) (drop : AesKeyDropNotification)
    (s : AesNegotiationState C) : Forgets (s.handleAesKeyDropNotification self sender drop).1 s := by
  simp only [handleAesKeyDropNotification]
  split_ifs
  · exact .refl s
  · exact (forgets_erasePendingIf _ _ _).trans (forgets_eraseActiveIf _ _ _)

/-- A drop notification with a valid key id ends that key, and the answer, if there is one, is an error about it. -/
theorem handleAesKeyDropNotification_of_valid {keyId : Bytes} (hvalid : isValidKeyId keyId = true) (self sender : NodeID)
    (reason : Bytes) (s : AesNegotiationState C) :
    ∃ answer, s.handleAesKeyDropNotification self sender { keyId := some ⟨keyId⟩, reason } =
        ((s.eraseActiveIf sender keyId).erasePendingIf sender keyId, answer) ∧
      ∀ m ∈ answer.toList, ∃ errorCode text, m = makeAesKeyNegotiationError self sender errorCode (some keyId) text := by
  simp only [handleAesKeyDropNotification, Option.getD_some, hvalid, Option.isNone_some, Bool.not_true, Bool.or_self,
    Bool.false_eq_true, if_false]
  refine ⟨_, rfl, fun m hm => ?_⟩
  split at hm
  · exact ⟨_, _, by simpa using hm⟩
  · split_ifs at hm
    · exact ⟨_, _, by simpa using hm⟩
    · simp at hm

/-! ### What the request and the reply handler can do -/

/-- The entry both handlers store for an agreed key. -/
def negotiatedKey (C : Crypto) (ambient : Ambient) (limits : AesNegotiationLimits) (self sender : NodeID)
    (keyId sharedSecret : Bytes) (lifetimeMs : UInt64) (algorithm : KeyNegotiationAlgorithm) : ActiveAesKey :=
  { keyId
    keyMaterial := deriveAesKeyMaterial C sharedSecret keyId self sender
    algorithm := algorithm.number.toUInt32
    expiresAt := DateTime.addMilliseconds ambient.now (clampLifetimeMs lifetimeMs limits) }

/-- A request is refused with an error, or its key becomes active before the answer is built. -/
inductive RequestOutcome (ambient : Ambient) (self sender : NodeID) (request : AesKeyNegotiationRequest)
    (s : AesNegotiationState C) : AesNegotiationState C × RSPMessage → Prop
  | refuse (errorCode : KeyNegotiationError) (text : String) :
    RequestOutcome ambient self sender request s
      (s, makeAesKeyNegotiationError self sender errorCode (request.keyId.map Uuid.value) text)
  | accept {keyId sharedSecret : Bytes} {publicKey : PublicKey} {own peer : KeyPair C} {message : RSPMessage}
    (hkeyId : request.keyId = some ⟨keyId⟩) (hvalid : isValidKeyId keyId = true)
    (hpublic : request.ephemeralPublicKey = some publicKey)
    (hpending : sender ∉ s.pendingByPeer) (hactive : sender ∉ s.activeByPeer)
    (hroom : s.activeByPeer.size < s.limits.maxActiveKeys)
    (hpeer : KeyPair.fromPublicKey publicKey = .ok peer) (hown : KeyPair.generateP256 C ambient.keySeed = .ok own)
    (hsecret : deriveSharedSecret own peer = some sharedSecret)
    (hmessage : (∃ fault, own.publicKey = .error fault ∧ message = makeAesKeyNegotiationError self sender
        .invalidRequest (some keyId) "invalid AES key negotiation public key") ∨
      ∃ ownPublic, own.publicKey = .ok ownPublic ∧ message = makeAesKeyNegotiationReply self sender keyId ownPublic
        (clampLifetimeMs request.requestedLifetimeMs s.limits) request.algorithm) :
    RequestOutcome ambient self sender request s
      ({ s with
          activeByPeer := s.activeByPeer.insert sender
            (negotiatedKey C ambient s.limits self sender keyId sharedSecret request.requestedLifetimeMs
              request.algorithm) }, message)

theorem acceptRequest_outcome {ambient : Ambient} {self sender : NodeID} {request : AesKeyNegotiationRequest}
    {s : AesNegotiationState C} {keyId : Bytes} {publicKey : PublicKey} (hkeyId : request.keyId = some ⟨keyId⟩)
    (hvalid : isValidKeyId keyId = true) (hpublic : request.ephemeralPublicKey = some publicKey)
    (hpending : sender ∉ s.pendingByPeer) (hactive : sender ∉ s.activeByPeer)
    (hroom : s.activeByPeer.size < s.limits.maxActiveKeys) :
    RequestOutcome ambient self sender request s (s.acceptRequest ambient self sender keyId request) := by
  have hid : some keyId = request.keyId.map Uuid.value := by rw [hkeyId]; rfl
  unfold acceptRequest
  rw [hpublic, Option.getD_some]
  cases hpeer : (KeyPair.fromPublicKey publicKey : Except Fault (KeyPair C)) with
  | error fault =>
    simp only [hid]
    exact .refuse _ _
  | ok peer =>
    cases hown : KeyPair.generateP256 C ambient.keySeed with
    | error fault =>
      simp only [hid]
      exact .refuse _ _
    | ok own =>
      cases hsecret : deriveSharedSecret own peer with
      | none =>
        simp only [hsecret, hid]
        exact .refuse _ _
      | some sharedSecret =>
        cases hexport : own.publicKey with
        | error fault =>
          simp only [hsecret, hexport]
          exact .accept hkeyId hvalid hpublic hpending hactive hroom hpeer hown hsecret
            (.inl ⟨fault, hexport, rfl⟩)
        | ok ownPublic =>
          simp only [hsecret, hexport]
          exact .accept hkeyId hvalid hpublic hpending hactive hroom hpeer hown hsecret
            (.inr ⟨ownPublic, hexport, rfl⟩)

theorem handleAesKeyNegotiationRequest_outcome (ambient : Ambient) (self sender : NodeID)
    (request : AesKeyNegotiationRequest) (s : AesNegotiationState C) :
    RequestOutcome ambient self sender request s (s.handleAesKeyNegotiationRequest ambient self sender request) := by
  unfold handleAesKeyNegotiationRequest
  cases hkeyId : request.keyId with
  | none =>
    rw [if_pos (by simp), ← hkeyId]
    exact .refuse _ _
  | some id =>
    obtain ⟨keyId⟩ := id
    simp only [Option.getD_some, Option.isNone_some, Bool.false_or, Option.map_some]
    have hid : some keyId = request.keyId.map Uuid.value := by rw [hkeyId]; rfl
    rw [hid]
    split_ifs with hshape halgorithm hpending hactive hroom
    · exact .refuse _ _
    · exact .refuse _ _
    · exact .refuse _ _
    · exact .refuse _ _
    · exact .refuse _ _
    · simp only [Bool.or_eq_true, Bool.not_eq_true', Option.isNone_iff_eq_none, not_or, Bool.not_eq_false] at hshape
      obtain ⟨hvalid, hsome⟩ := hshape
      obtain ⟨publicKey, hpublic⟩ := Option.ne_none_iff_exists'.mp hsome
      have hsize : s.activeByPeer.size < s.limits.maxActiveKeys := by
        simp only [Bool.or_eq_true, decide_eq_true_eq, not_or, not_le] at hroom
        exact hroom.2
      exact acceptRequest_outcome hkeyId hvalid hpublic (by simpa using hpending) (by simpa using hactive) hsize

/-- What makes a reply invalid before the tables are looked at. -/
def MalformedReply (reply : AesKeyNegotiationReply) : Prop :=
  reply.keyId = none ∨ (∃ keyId, reply.keyId = some ⟨keyId⟩ ∧ isValidKeyId keyId = false) ∨
    reply.ephemeralPublicKey = none ∨ reply.algorithm ≠ .p256Sha256Aes256

/-- A reply is refused, with or without giving up the pending negotiation, or turns it into an active key. -/
inductive ReplyOutcome (ambient : Ambient) (self sender : NodeID) (reply : AesKeyNegotiationReply)
    (s : AesNegotiationState C) : AesNegotiationState C × Option RSPMessage → Prop
  | malformed (hmalformed : MalformedReply reply) (errorCode : KeyNegotiationError) (keyId : Option Bytes)
    (text : String) :
    ReplyOutcome ambient self sender reply s (s, some (makeAesKeyNegotiationError self sender errorCode keyId text))
  | unmatched {keyId : Bytes} (hkeyId : reply.keyId = some ⟨keyId⟩) {errorCode : KeyNegotiationError}
    (hcode : errorCode = .unknownKey ∨ errorCode = .keyIncorrect) (text : String)
    (hpending : ∀ pending, s.pendingByPeer[sender]? = some pending → pending.keyId ≠ keyId) :
    ReplyOutcome ambient self sender reply s
      (s, some (makeAesKeyNegotiationError self sender errorCode (some keyId) text))
  | full {keyId : Bytes} (hkeyId : reply.keyId = some ⟨keyId⟩) {pending : PendingAesNegotiation C}
    (hpending : s.pendingByPeer[sender]? = some pending) (hmatch : pending.keyId = keyId)
    (hfull : s.limits.maxActiveKeys ≤ s.activeByPeer.size) (text : String) :
    ReplyOutcome ambient self sender reply s
      ({ s with pendingByPeer := s.pendingByPeer.erase sender },
        some (makeAesKeyNegotiationError self sender .keyLimitReached (some keyId) text))
  | unreadable {keyId : Bytes} (hkeyId : reply.keyId = some ⟨keyId⟩) {publicKey : PublicKey} {fault : Fault}
    (hpublic : reply.ephemeralPublicKey = some publicKey)
    (hpeer : (KeyPair.fromPublicKey publicKey : Except Fault (KeyPair C)) = .error fault) (text : String) :
    ReplyOutcome ambient self sender reply s
      (s, some (makeAesKeyNegotiationError self sender .invalidRequest (some keyId) text))
  | underivable {keyId : Bytes} (hkeyId : reply.keyId = some ⟨keyId⟩) {pending : PendingAesNegotiation C}
    (hpending : s.pendingByPeer[sender]? = some pending) (hmatch : pending.keyId = keyId) (text : String) :
    ReplyOutcome ambient self sender reply s
      ({ s with pendingByPeer := s.pendingByPeer.erase sender },
        some (makeAesKeyNegotiationError self sender .keyIncorrect (some keyId) text))
  | accept {keyId sharedSecret : Bytes} {pending : PendingAesNegotiation C} {publicKey : PublicKey} {peer : KeyPair C}
    (hkeyId : reply.keyId = some ⟨keyId⟩) (hvalid : isValidKeyId keyId = true)
    (hpublic : reply.ephemeralPublicKey = some publicKey)
    (hpending : s.pendingByPeer[sender]? = some pending) (hmatch : pending.keyId = keyId)
    (hroom : sender ∈ s.activeByPeer ∨ s.activeByPeer.size < s.limits.maxActiveKeys)
    (hpeer : KeyPair.fromPublicKey publicKey = .ok peer)
    (hsecret : deriveSharedSecret pending.ephemeralKeyPair peer = some sharedSecret) :
    ReplyOutcome ambient self sender reply s
      ({ s with
          activeByPeer := s.activeByPeer.insert sender
            (negotiatedKey C ambient s.limits self sender keyId sharedSecret
              (if reply.acceptedLifetimeMs == 0 then pending.requestedLifetimeMs else reply.acceptedLifetimeMs)
              reply.algorithm)
          pendingByPeer := s.pendingByPeer.erase sender }, none)

theorem acceptReply_outcome {ambient : Ambient} {self sender : NodeID} {reply : AesKeyNegotiationReply}
    {s : AesNegotiationState C} {keyId : Bytes} {pending : PendingAesNegotiation C} {publicKey : PublicKey}
    (hkeyId : reply.keyId = some ⟨keyId⟩) (hvalid : isValidKeyId keyId = true)
    (hpublic : reply.ephemeralPublicKey = some publicKey) (hpending : s.pendingByPeer[sender]? = some pending)
    (hmatch : pending.keyId = keyId)
    (hroom : sender ∈ s.activeByPeer ∨ s.activeByPeer.size < s.limits.maxActiveKeys) :
    ReplyOutcome ambient self sender reply s (s.acceptReply ambient self sender keyId reply pending) := by
  unfold acceptReply
  rw [hpublic, Option.getD_some]
  cases hpeer : (KeyPair.fromPublicKey publicKey : Except Fault (KeyPair C)) with
  | error fault => exact .unreadable hkeyId hpublic hpeer _
  | ok peer =>
    cases hsecret : deriveSharedSecret pending.ephemeralKeyPair peer with
    | none =>
      simp only [hsecret]
      exact .underivable hkeyId hpending hmatch _
    | some sharedSecret =>
      simp only [hsecret, hmatch]
      exact .accept hkeyId hvalid hpublic hpending hmatch hroom hpeer hsecret

theorem handleAesKeyNegotiationReply_outcome (ambient : Ambient) (self sender : NodeID)
    (reply : AesKeyNegotiationReply) (s : AesNegotiationState C) :
    ReplyOutcome ambient self sender reply s (s.handleAesKeyNegotiationReply ambient self sender reply) := by
  unfold handleAesKeyNegotiationReply
  cases hkeyId : reply.keyId with
  | none =>
    rw [if_pos (by simp)]
    exact .malformed (.inl hkeyId) _ _ _
  | some id =>
    obtain ⟨keyId⟩ := id
    simp only [Option.getD_some, Option.isNone_some, Bool.false_or, Option.map_some]
    by_cases hshape : (!isValidKeyId keyId || reply.ephemeralPublicKey.isNone) = true
    · rw [if_pos hshape]
      refine .malformed (.inr ?_) _ _ _
      rcases Bool.or_eq_true _ _ ▸ hshape with hinvalid | hnone
      · exact .inl ⟨keyId, hkeyId, by simpa using hinvalid⟩
      · exact .inr (.inl (by simpa using hnone))
    rw [if_neg hshape]
    by_cases halgorithm : reply.algorithm = .p256Sha256Aes256
    · rw [if_neg (not_not.mpr halgorithm)]
      simp only [Bool.or_eq_true, Bool.not_eq_true', Option.isNone_iff_eq_none, not_or, Bool.not_eq_false] at hshape
      obtain ⟨hvalid, hsome⟩ := hshape
      obtain ⟨publicKey, hpublic⟩ := Option.ne_none_iff_exists'.mp hsome
      cases hpending : s.pendingByPeer[sender]? with
      | none => exact .unmatched hkeyId (.inl rfl) _ (by simp [hpending])
      | some pending =>
        simp only
        split_ifs with hne hfull
        · refine .unmatched hkeyId (.inr rfl) _ fun other hother => ?_
          rw [hpending, Option.some.injEq] at hother
          exact hother ▸ hne
        · refine .full hkeyId hpending (not_not.mp hne) ?_ _
          simp only [Bool.or_eq_true, beq_iff_eq, Bool.and_eq_true, decide_eq_true_eq] at hfull
          omega
        · refine acceptReply_outcome hkeyId hvalid hpublic hpending (not_not.mp hne) ?_
          simp only [Bool.or_eq_true, beq_iff_eq, Bool.and_eq_true, decide_eq_true_eq, not_or, not_and,
            Bool.not_eq_true', not_le] at hfull
          by_cases hmem : sender ∈ s.activeByPeer
          · exact .inl hmem
          · have habsent : s.activeByPeer.contains sender = false := by
              rw [← Bool.not_eq_true, ← Std.TreeMap.mem_iff_contains]
              exact hmem
            exact .inr (hfull.2 habsent)
    · rw [if_pos halgorithm]
      exact .malformed (.inr (.inr (.inr halgorithm))) _ _ _

/-- The critical section of `beginAesKeyNegotiation` adds one pending entry for a peer in neither table. -/
theorem propose_eq_some {ambient : Ambient} {self peer : NodeID} {requestedLifetimeMs : UInt64}
    {s s' : AesNegotiationState C} {request : RSPMessage}
    (h : s.propose ambient self peer requestedLifetimeMs = some (s', request)) :
    ∃ pending publicKey, peer ∉ s.pendingByPeer ∧ peer ∉ s.activeByPeer ∧
      s.pendingByPeer.size < s.limits.maxPendingNegotiations ∧ s.activeByPeer.size < s.limits.maxActiveKeys ∧
      pending.keyId = randomKeyId ambient ∧
      KeyPair.generateP256 C ambient.keySeed = .ok pending.ephemeralKeyPair ∧
      pending.ephemeralKeyPair.publicKey = .ok publicKey ∧
      s' = { s with pendingByPeer := s.pendingByPeer.insert peer pending } ∧
      request = makeAesKeyNegotiationRequest self peer (randomKeyId ambient) publicKey
        (clampLifetimeMs requestedLifetimeMs s.limits) := by
  unfold propose at h
  split_ifs at h with hknown hpending hactive
  cases hgenerate : KeyPair.generateP256 C ambient.keySeed with
  | error fault => simp [hgenerate] at h
  | ok ephemeral =>
    cases hpublic : ephemeral.publicKey with
    | error fault => simp [hgenerate, hpublic] at h
    | ok publicKey =>
      simp only [hgenerate, hpublic, Option.some.injEq, Prod.mk.injEq] at h
      obtain ⟨rfl, rfl⟩ := h
      simp only [Bool.or_eq_true, beq_iff_eq, decide_eq_true_eq, not_or, not_le,
        Std.TreeMap.contains_iff_mem] at hknown hpending hactive
      exact ⟨_, publicKey, hknown.1, hknown.2, hpending.2, hactive.2, rfl, rfl, hpublic, rfl, rfl⟩

/-! ### The invariant -/

/-- What holds of the tables of a node with the given limits. -/
structure Consistent (limits : AesNegotiationLimits) (s : AesNegotiationState C) : Prop where
  limits_eq : s.limits = limits
  exclusive : ∀ {peer : NodeID}, peer ∈ s.pendingByPeer → peer ∉ s.activeByPeer
  activeBound : s.activeByPeer.size ≤ limits.maxActiveKeys
  pendingBound : s.pendingByPeer.size ≤ limits.maxPendingNegotiations
  activeKeyId : ∀ {peer : NodeID} {key}, s.activeByPeer[peer]? = some key → isValidKeyId key.keyId = true
  pendingKeyId : ∀ {peer : NodeID} {pending}, s.pendingByPeer[peer]? = some pending → isValidKeyId pending.keyId = true

namespace Consistent

variable {limits : AesNegotiationLimits} {s s' : AesNegotiationState C}

theorem empty (limits : AesNegotiationLimits) : Consistent limits ({ limits } : AesNegotiationState C) where
  limits_eq := rfl
  exclusive h := by simp at h
  activeBound := by simp
  pendingBound := by simp
  activeKeyId h := by simp at h
  pendingKeyId h := by simp at h

theorem forgets (h : Consistent limits s) (hforgets : Forgets s' s) : Consistent limits s' where
  limits_eq := hforgets.limits.trans h.limits_eq
  exclusive hpending hactive := h.exclusive (hforgets.pending.mem hpending) (hforgets.active.mem hactive)
  activeBound := hforgets.active.size_le.trans h.activeBound
  pendingBound := hforgets.pending.size_le.trans h.pendingBound
  activeKeyId hkey := h.activeKeyId (hforgets.active.getElem? hkey)
  pendingKeyId hpending := h.pendingKeyId (hforgets.pending.getElem? hpending)

theorem insertPending (h : Consistent limits s) {peer : NodeID} {pending : PendingAesNegotiation C}
    (hactive : peer ∉ s.activeByPeer) (hroom : s.pendingByPeer.size < s.limits.maxPendingNegotiations)
    (hkeyId : isValidKeyId pending.keyId = true) :
    Consistent limits { s with pendingByPeer := s.pendingByPeer.insert peer pending } where
  limits_eq := h.limits_eq
  exclusive {p} hp := by
    rcases Std.TreeMap.mem_insert.mp hp with heq | hmem
    · rw [Std.compare_eq_iff_eq] at heq
      exact heq ▸ hactive
    · exact h.exclusive hmem
  activeBound := h.activeBound
  pendingBound := Std.TreeMap.size_insert_le.trans (h.limits_eq ▸ hroom)
  activeKeyId := h.activeKeyId
  pendingKeyId {p q} hq := by
    rw [Std.TreeMap.getElem?_insert] at hq
    split_ifs at hq with heq
    · exact Option.some.inj hq ▸ hkeyId
    · exact h.pendingKeyId hq

theorem insertActive (h : Consistent limits s) {peer : NodeID} {key : ActiveAesKey} (hpending : peer ∉ s.pendingByPeer)
    (hroom : s.activeByPeer.size < s.limits.maxActiveKeys) (hkeyId : isValidKeyId key.keyId = true) :
    Consistent limits { s with activeByPeer := s.activeByPeer.insert peer key } where
  limits_eq := h.limits_eq
  exclusive {p} hp hactive := by
    rcases Std.TreeMap.mem_insert.mp hactive with heq | hmem
    · rw [Std.compare_eq_iff_eq] at heq
      exact hpending (heq ▸ hp)
    · exact h.exclusive hp hmem
  activeBound := Std.TreeMap.size_insert_le.trans (h.limits_eq ▸ hroom)
  pendingBound := h.pendingBound
  activeKeyId {p q} hq := by
    rw [Std.TreeMap.getElem?_insert] at hq
    split_ifs at hq with heq
    · exact Option.some.inj hq ▸ hkeyId
    · exact h.activeKeyId hq
  pendingKeyId := h.pendingKeyId

theorem processExpiredAesKeys (h : Consistent limits s) (self : NodeID) (now : DateTime) :
    Consistent limits (s.processExpiredAesKeys self now).1 := h.forgets (forgets_processExpiredAesKeys self now s)

theorem requestOutcome (h : Consistent limits s) {ambient : Ambient} {self sender : NodeID}
    {request : AesKeyNegotiationRequest} {result : AesNegotiationState C × RSPMessage}
    (houtcome : RequestOutcome ambient self sender request s result) : Consistent limits result.1 := by
  cases houtcome with
  | refuse => exact h
  | accept hkeyId hvalid hpublic hpending hactive hroom => exact h.insertActive hpending hroom hvalid

theorem replyOutcome (h : Consistent limits s) {ambient : Ambient} {self sender : NodeID}
    {reply : AesKeyNegotiationReply} {result : AesNegotiationState C × Option RSPMessage}
    (houtcome : ReplyOutcome ambient self sender reply s result) : Consistent limits result.1 := by
  cases houtcome with
  | malformed => exact h
  | unmatched => exact h
  | full => exact h.forgets (forgets_erasePending s sender)
  | unreadable => exact h
  | underivable => exact h.forgets (forgets_erasePending s sender)
  | accept hkeyId hvalid hpublic hpending hmatch hroom =>
    have hmem : sender ∈ s.pendingByPeer := by
      rw [Std.TreeMap.mem_iff_isSome_getElem?, hpending]
      rfl
    have hroom : s.activeByPeer.size < s.limits.maxActiveKeys :=
      hroom.resolve_left (h.exclusive hmem)
    have herased : sender ∉ s.pendingByPeer.erase sender := by simp [Std.TreeMap.mem_erase]
    exact (h.forgets (forgets_erasePending s sender)).insertActive herased hroom hvalid

theorem handleAesNegotiationMessage (h : Consistent limits s) {ambient : Ambient} {self : NodeID} {m : RSPMessage}
    {result : AesNegotiationState C × List RSPMessage}
    (hresult : s.handleAesNegotiationMessage ambient self m = some result) : Consistent limits result.1 := by
  have hswept := h.processExpiredAesKeys self ambient.expiryNow
  simp only [AesNegotiationState.handleAesNegotiationMessage] at hresult
  split at hresult
  · obtain rfl := Option.some.inj hresult
    exact hswept.forgets (forgets_handleAesKeyNegotiationError _ _ _)
  · split at hresult <;> obtain rfl := Option.some.inj hresult
    · exact hswept
    · exact hswept.requestOutcome (handleAesKeyNegotiationRequest_outcome ambient self _ _ _)
  · split at hresult <;> obtain rfl := Option.some.inj hresult
    · exact hswept
    · exact hswept.replyOutcome (handleAesKeyNegotiationReply_outcome ambient self _ _ _)
  · split at hresult <;> obtain rfl := Option.some.inj hresult
    · exact hswept
    · exact hswept.forgets (forgets_handleAesKeyDropNotification _ _ _ _)
  · cases hresult

theorem beginAesKeyNegotiation (h : Consistent limits s) (ambient : Ambient) (self peer : NodeID)
    (requestedLifetimeMs : UInt64) (enqueued : Bool) :
    Consistent limits (s.beginAesKeyNegotiation ambient self peer requestedLifetimeMs enqueued).1 := by
  have hswept := h.processExpiredAesKeys self ambient.expiryNow
  unfold AesNegotiationState.beginAesKeyNegotiation
  by_cases hself : peer = self
  · rw [if_pos hself]
    exact h
  rw [if_neg hself]
  cases hpropose : (s.processExpiredAesKeys self ambient.expiryNow).1.propose ambient self peer
      requestedLifetimeMs with
  | none => simpa only [hpropose] using hswept
  | some proposed =>
    obtain ⟨s', request⟩ := proposed
    obtain ⟨pending, publicKey, -, hactive, hroom, -, hkeyId, -, -, rfl, -⟩ := propose_eq_some hpropose
    have hproposed := hswept.insertPending hactive hroom (by rw [hkeyId]; rfl)
    simp only [hpropose]
    cases enqueued with
    | true => exact hproposed
    | false => exact hproposed.forgets ⟨rfl, .erase _ peer, .refl _⟩

theorem dropAesKey (h : Consistent limits s) (self peer : NodeID) (reason : Bytes) (now : DateTime) (enqueued : Bool) :
    Consistent limits (s.dropAesKey self peer reason now enqueued).1 := by
  have herased := (h.processExpiredAesKeys self now).forgets (forgets_erasePending _ peer)
  unfold AesNegotiationState.dropAesKey
  simp only
  split
  · exact herased
  · exact herased.forgets ⟨rfl, .refl _, .erase _ peer⟩

end Consistent

/-! ### Runs of one node -/

/-- One call from outside, with what it reads from the clock, the random generators and the output queue. -/
inductive Call
  | beginAesKeyNegotiation (ambient : Ambient) (peer : NodeID) (requestedLifetimeMs : UInt64) (enqueued : Bool)
  | dropAesKey (peer : NodeID) (reason : Bytes) (now : DateTime) (enqueued : Bool)
  | processExpiredAesKeys (now : DateTime)
  | handleAesNegotiationMessage (ambient : Ambient) (message : RSPMessage)

/-- The tables after a call of the node `self`. A message about something else leaves them alone. -/
def call (self : NodeID) (s : AesNegotiationState C) : Call → AesNegotiationState C
  | .beginAesKeyNegotiation ambient peer requestedLifetimeMs enqueued =>
    (s.beginAesKeyNegotiation ambient self peer requestedLifetimeMs enqueued).1
  | .dropAesKey peer reason now enqueued => (s.dropAesKey self peer reason now enqueued).1
  | .processExpiredAesKeys now => (s.processExpiredAesKeys self now).1
  | .handleAesNegotiationMessage ambient message =>
    ((s.handleAesNegotiationMessage ambient self message).map Prod.fst).getD s

theorem Consistent.call {limits : AesNegotiationLimits} {s : AesNegotiationState C} (h : Consistent limits s) (self : NodeID) (c : Call) :
    Consistent limits (s.call self c) := by
  cases c with
  | beginAesKeyNegotiation ambient peer requestedLifetimeMs enqueued =>
    exact h.beginAesKeyNegotiation ambient self peer requestedLifetimeMs enqueued
  | dropAesKey peer reason now enqueued => exact h.dropAesKey self peer reason now enqueued
  | processExpiredAesKeys now => exact h.processExpiredAesKeys self now
  | handleAesNegotiationMessage ambient message =>
    simp only [AesNegotiationState.call]
    cases hresult : s.handleAesNegotiationMessage ambient self message with
    | none => exact h
    | some result => exact h.handleAesNegotiationMessage hresult

/-- The tables after a sequence of calls of a node that starts without keys. -/
def afterCalls (C : Crypto) (self : NodeID) (limits : AesNegotiationLimits) (calls : List Call) :
    AesNegotiationState C :=
  calls.foldl (call self) { limits }

theorem consistent_afterCalls (self : NodeID) (limits : AesNegotiationLimits) (calls : List Call) :
    Consistent limits (afterCalls C self limits calls) := by
  induction calls using List.reverseRecOn with
  | nil => exact .empty limits
  | append_singleton calls c ih =>
    rw [afterCalls, List.foldl_append]
    exact ih.call self c

/-- After any calls, with any messages and any failures of the output queue. -/
theorem negotiation_tables_invariant (C : Crypto) (self : NodeID) (limits : AesNegotiationLimits)
    (calls : List Call) :
    let s := afterCalls C self limits calls
    (∀ peer : NodeID, ¬ (peer ∈ s.pendingByPeer ∧ peer ∈ s.activeByPeer)) ∧
      s.activeByPeer.size ≤ limits.maxActiveKeys ∧
      s.pendingByPeer.size ≤ limits.maxPendingNegotiations ∧
      (∀ (peer : NodeID) key, s.activeByPeer[peer]? = some key → key.keyId.length = 16) ∧
      ∀ (peer : NodeID) pending, s.pendingByPeer[peer]? = some pending → pending.keyId.length = 16 := by
  have h := consistent_afterCalls (C := C) self limits calls
  refine ⟨fun peer hboth => h.exclusive hboth.1 hboth.2, h.activeBound, h.pendingBound, ?_, ?_⟩
  · intro peer key hkey
    simpa [isValidKeyId] using h.activeKeyId hkey
  · intro peer pending hpending
    simpa [isValidKeyId] using h.pendingKeyId hpending

end AesNegotiationState

end Rsp
