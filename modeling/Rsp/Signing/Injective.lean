import Rsp.Signing.Hash

/-!
# The signed stream of the core messages can be read back

Each message that is hashed by hand can be read back from the front of the stream, as long as what follows does not begin with one of its trailing optional tags. In the envelope the tags ascend, so that holds everywhere, and the stream determines the message.
-/

namespace Rsp

open ByteCode Proto

/-! ### Values the length fields can hold -/

instance : Short NodeId := ⟨fun m => Short.short m.value⟩

instance : Short Uuid := ⟨fun m => Short.short m.value⟩

instance : Short Proto.DateTime := ⟨fun _ => True⟩

instance : Short PublicKey := ⟨fun m => Short.short m.publicKey⟩

instance : Short Proto.Endorsement :=
  ⟨fun m => Short.short m.subject ∧ Short.short m.endorsementService ∧ Short.short m.endorsementType ∧
    Short.short m.endorsementValue ∧ Short.short m.validUntil ∧ Short.short m.signature⟩

instance : Short ChallengeRequest := ⟨fun m => Short.short m.nonce⟩

instance : Short Identity :=
  ⟨fun m => Short.short m.nonce ∧ Short.short m.publicKey ∧ Short.short m.bootId⟩

instance : Short RouteEntry := ⟨fun m => Short.short m.nodeId ∧ Short.short m.lastSeen⟩

instance : Short RouteUpdate := ⟨fun m => Short.short m.entries⟩

instance : Short Error := ⟨fun m => Short.short m.message⟩

instance : Short PingRequest := ⟨fun m => Short.short m.nonce ∧ Short.short m.timeSent⟩

instance : Short PingReply :=
  ⟨fun m => Short.short m.nonce ∧ Short.short m.timeSent ∧ Short.short m.timeReplied⟩

instance : Short ResourceQuery := ⟨fun m => Short.short m.query⟩

/-! ### Parts of messages -/

theorem reads_hashNodeId : Reads hashNodeId Short.short fun _ => True :=
  (reads_lenPrefixed_short.tagged 1).comap NodeId.value (fun ⟨_⟩ ⟨_⟩ h => congrArg NodeId.mk h) (fun _ => rfl)
    fun _ h => h

theorem reads_hashUuid : Reads hashUuid Short.short fun _ => True :=
  (reads_lenPrefixed_short.tagged 1).comap Uuid.value (fun ⟨_⟩ ⟨_⟩ h => congrArg Uuid.mk h) (fun _ => rfl)
    fun _ h => h

theorem reads_hashDateTime : Reads hashDateTime Short.short fun _ => True :=
  (reads_be64.tagged 1).comap Proto.DateTime.millisecondsSinceEpoch
    (fun ⟨_⟩ ⟨_⟩ h => congrArg Proto.DateTime.mk h) (fun _ => rfl) fun _ h => h

theorem int32_toUInt32_injective : Function.Injective Int32.toUInt32 := fun ⟨_⟩ ⟨_⟩ h => congrArg Int32.ofUInt32 h

theorem reads_hashPublicKey : Reads hashPublicKey Short.short fun _ => True := by
  have hfields := (reads_be32.tagged 1).append (reads_lenPrefixed_short.tagged 2) (by simp)
  refine hfields.comap (fun m => (m.algorithm.number.toUInt32, m.publicKey)) ?_ ?_ fun _ h => ⟨trivial, h⟩
  · rintro ⟨⟨a⟩, _⟩ ⟨⟨b⟩, _⟩ h
    simp_all [int32_toUInt32_injective.eq_iff]
  · intro m
    simp [hashPublicKey, tagged]

theorem reads_hashEndorsement : Reads hashEndorsement Short.short fun _ => True := by
  have hfields := (reads_hashNodeId.optional 1).append ((reads_hashNodeId.optional 2).append
    ((reads_hashUuid.optional 3).append ((reads_lenPrefixed_short.tagged 4).append
      ((reads_hashDateTime.optional 5).append (reads_lenPrefixed_short.tagged 99) (by simp [tagged]))
      (by simp)) (by simp [tagged])) (by simp [tagged, avoids_optional_append]))
      (by simp [tagged, avoids_optional_append])
  refine hfields.comap (fun m => (m.subject, m.endorsementService, m.endorsementType, m.endorsementValue,
    m.validUntil, m.signature)) ?_ ?_ fun _ h => h
  · rintro ⟨⟩ ⟨⟩ h
    simp_all
  · intro m
    simp [hashEndorsement, tagged]

/-! ### Core messages -/

theorem reads_hashChallengeRequest : Reads hashChallengeRequest Short.short (Avoids [1]) :=
  (reads_hashUuid.optionalAvoids (by simp)).comap ChallengeRequest.nonce
    (fun ⟨_⟩ ⟨_⟩ h => congrArg ChallengeRequest.mk h) (fun _ => rfl) fun _ h => h

theorem reads_hashIdentity : Reads hashIdentity Short.short (Avoids [1, 2, 3]) := by
  have hfields := (reads_hashUuid.optional 1).append ((reads_hashPublicKey.optional 2).append
    (reads_hashUuid.optionalAvoids (show (3 : UInt32) ∈ [1, 2, 3] by simp)) ?_) ?_
  · refine hfields.comap (fun m => (m.nonce, m.publicKey, m.bootId)) ?_ ?_ fun _ h => h
    · rintro ⟨⟩ ⟨⟩ h
      simp_all
    · intro m
      simp [hashIdentity]
  · intro b r _ hr
    exact ⟨trivial, avoids_optional_append (by simp) (hr.mono (by simp))⟩
  · intro b r _ hr
    simp only [List.append_assoc]
    exact ⟨trivial, avoids_optional_append (by simp) (avoids_optional_append (by simp) (hr.mono (by simp)))⟩

theorem reads_hashRouteEntry : Reads hashRouteEntry Short.short (Avoids [3]) := by
  have hfields := (reads_hashNodeId.optional 1).append ((reads_be32.tagged 2).append
    (reads_hashDateTime.optionalAvoids (List.mem_singleton_self 3)) (by simp)) (by simp [tagged])
  refine hfields.comap (fun m => (m.nodeId, m.hopsAway, m.lastSeen)) ?_ ?_ fun _ h => ⟨h.1, trivial, h.2⟩
  · rintro ⟨⟩ ⟨⟩ h
    simp_all
  · intro m
    simp [hashRouteEntry, tagged]

/-- An entry may follow another one: it begins with tag 1 or 2. -/
theorem reads_hashRouteUpdate : Reads hashRouteUpdate Short.short (Avoids [3]) := by
  have hentries := (reads_hashRouteEntry.counted fun m r _ _ => by
    simp [hashRouteEntry, avoids_optional_append]).tagged 2
  exact hentries.comap RouteUpdate.entries (fun ⟨_⟩ ⟨_⟩ h => congrArg RouteUpdate.mk h) (fun _ => rfl) fun _ h => h

theorem reads_hashError : Reads hashError Short.short fun _ => True := by
  have hfields := (reads_be32.tagged 1).append (reads_lenPrefixed_short.tagged 2) (by simp)
  refine hfields.comap (fun m => (m.errorCode.number.toUInt32, m.message)) ?_ ?_ fun _ h => ⟨trivial, h⟩
  · rintro ⟨⟨a⟩, _⟩ ⟨⟨b⟩, _⟩ h
    simp_all [int32_toUInt32_injective.eq_iff]
  · intro m
    simp [hashError, tagged]

theorem reads_hashPingRequest : Reads hashPingRequest Short.short (Avoids [3]) := by
  have hfields := (reads_hashUuid.optional 1).append ((reads_be32.tagged 2).append
    (reads_hashDateTime.optionalAvoids (List.mem_singleton_self 3)) (by simp)) (by simp [tagged])
  refine hfields.comap (fun m => (m.nonce, m.sequence, m.timeSent)) ?_ ?_ fun _ h => ⟨h.1, trivial, h.2⟩
  · rintro ⟨⟩ ⟨⟩ h
    simp_all
  · intro m
    simp [hashPingRequest, tagged]

theorem reads_hashPingReply : Reads hashPingReply Short.short (Avoids [3, 4]) := by
  have hfields := (reads_hashUuid.optional 1).append ((reads_be32.tagged 2).append
    ((reads_hashDateTime.optional 3).append
      (reads_hashDateTime.optionalAvoids (show (4 : UInt32) ∈ [3, 4] by simp)) ?_) (by simp)) (by simp [tagged])
  · refine hfields.comap (fun m => (m.nonce, m.sequence, m.timeSent, m.timeReplied)) ?_ ?_
      fun _ h => ⟨h.1, trivial, h.2⟩
    · rintro ⟨⟩ ⟨⟩ h
      simp_all
    · intro m
      simp [hashPingReply, tagged]
  · intro b r _ hr
    exact ⟨trivial, avoids_optional_append (by simp) (hr.mono (by simp))⟩

theorem reads_hashResourceQuery : Reads hashResourceQuery Short.short fun _ => True := by
  have hfields := (reads_lenPrefixed_short.tagged 1).append (reads_be32.tagged 2) (by simp)
  refine hfields.comap (fun m => (m.query, m.maxRecords)) ?_ ?_ fun _ h => ⟨h, trivial⟩
  · rintro ⟨⟩ ⟨⟩ h
    simp_all
  · intro m
    simp [hashResourceQuery, tagged]

/-! ### The envelope -/

/-- The core messages hashed by hand, the advertisement and its reply apart. -/
def isHandHashed : CoreMessage → Bool
  | .notSet | .challengeRequest _ | .identity _ | .route _ | .error _ | .pingRequest _ | .pingReply _
  | .resourceQuery _ => true
  | _ => false

/-- Only those are read back here. -/
instance : Short CoreMessage where
  short
    | .challengeRequest m => Short.short m
    | .identity m => Short.short m
    | .route m => Short.short m
    | .error m => Short.short m
    | .pingRequest m => Short.short m
    | .pingReply m => Short.short m
    | .resourceQuery m => Short.short m
    | _ => True

def coreTag : CoreMessage → Option UInt32
  | .challengeRequest _ => some 3
  | .identity _ => some 4
  | .route _ => some 5
  | .error _ => some 6
  | .pingRequest _ => some 7
  | .pingReply _ => some 8
  | .resourceQuery _ => some 17
  | _ => none

/-- Below the tags of what follows the core message, 22 and up. -/
def lowTags : List UInt32 := [1, 2, 3, 4, 5, 6, 7, 8, 17]

theorem reads_hashCoreBeforeNonce : Reads hashCoreBeforeNonce
    (fun core => isHandHashed core = true ∧ Short.short core) (Avoids lowTags) := by
  refine reads_of_tag coreTag ?_ ?_ ?_
  · rintro a ⟨ha, -⟩ htag
    cases a <;> cases ha <;> first | rfl | cases htag
  · rintro a t ⟨ha, -⟩ htag
    cases a <;> cases ha <;> cases htag <;> exact ⟨by simp [lowTags], List.prefix_append _ _⟩
  · rintro a b r s ⟨ha, hashort⟩ ⟨hb, hbshort⟩ htag hr hs heq
    have hlow {tags : List UInt32} (hsub : tags ⊆ lowTags) : Avoids tags r ∧ Avoids tags s :=
      ⟨hr.mono hsub, hs.mono hsub⟩
    cases a <;> cases ha <;> cases b <;> cases hb <;> simp [coreTag] at htag
    · exact ⟨rfl, heq⟩
    · obtain ⟨hr, hs⟩ := hlow (show [1] ⊆ lowTags by simp [lowTags])
      exact reads_hashChallengeRequest.kind CoreMessage.challengeRequest hashort hbshort hr hs heq
    · obtain ⟨hr, hs⟩ := hlow (show [1, 2, 3] ⊆ lowTags by simp [lowTags])
      exact reads_hashIdentity.kind CoreMessage.identity hashort hbshort hr hs heq
    · obtain ⟨hr, hs⟩ := hlow (show [3] ⊆ lowTags by simp [lowTags])
      exact reads_hashRouteUpdate.kind CoreMessage.route hashort hbshort hr hs heq
    · exact reads_hashError.kind CoreMessage.error hashort hbshort trivial trivial heq
    · obtain ⟨hr, hs⟩ := hlow (show [3] ⊆ lowTags by simp [lowTags])
      exact reads_hashPingRequest.kind CoreMessage.pingRequest hashort hbshort hr hs heq
    · obtain ⟨hr, hs⟩ := hlow (show [3, 4] ⊆ lowTags by simp [lowTags])
      exact reads_hashPingReply.kind CoreMessage.pingReply hashort hbshort hr hs heq
    · exact reads_hashResourceQuery.kind CoreMessage.resourceQuery hashort hbshort trivial trivial heq

theorem avoids_hashCoreBeforeNonce {core : CoreMessage} {r : Bytes} (hr : Avoids [1, 2] r) :
    Avoids [1, 2] (hashCoreBeforeNonce core ++ r) := by
  cases core <;> first | exact hr | simp [hashCoreBeforeNonce]

/-- What the stream says about a message without identities, encrypted fields and service message. -/
def envelope (p : Option NodeId × Option NodeId × CoreMessage × Option Uuid × Option OptionalBool ×
    List Proto.Endorsement) : Bytes :=
  optional 1 hashNodeId p.1 ++ (optional 2 hashNodeId p.2.1 ++ (hashCoreBeforeNonce p.2.2.1 ++
    (optional 22 hashUuid p.2.2.2.1 ++ (optional 24 (fun trace => bool8 trace.value) p.2.2.2.2.1 ++
      tagged 100 (counted hashEndorsement) p.2.2.2.2.2))))

theorem reads_envelope : Reads envelope
    (fun p => Short.short p.1 ∧ Short.short p.2.1 ∧ (isHandHashed p.2.2.1 = true ∧ Short.short p.2.2.1) ∧
      Short.short p.2.2.2.1 ∧ (∀ trace ∈ p.2.2.2.2.1, True) ∧ Short.short p.2.2.2.2.2) fun _ => True := by
  have htrace : Reads (fun trace : OptionalBool => bool8 trace.value) (fun _ => True) fun _ => True :=
    reads_bool8.comap OptionalBool.value (fun ⟨_⟩ ⟨_⟩ h => congrArg OptionalBool.mk h) (fun _ => rfl) fun _ h => h
  have hendorsements := (reads_hashEndorsement.counted fun _ _ _ _ => trivial).tagged 100
  refine (reads_hashNodeId.optional 1).append ((reads_hashNodeId.optional 2).append
    (reads_hashCoreBeforeNonce.append ((reads_hashUuid.optional 22).append
      ((htrace.optional 24).append hendorsements ?_) ?_) ?_) ?_) ?_
  · simp [tagged]
  · simp [tagged, avoids_optional_append]
  · simp [tagged, avoids_optional_append, lowTags]
  · intro b r _ _
    simp only [List.append_assoc, true_and]
    exact (avoids_hashCoreBeforeNonce (by simp [tagged, avoids_optional_append])).mono (by simp)
  · intro b r _ _
    simp only [List.append_assoc, true_and]
    refine avoids_optional_append (by simp) ?_
    exact (avoids_hashCoreBeforeNonce (by simp [tagged, avoids_optional_append])).mono (by simp)

/-- The messages the stream of the core messages is about. -/
structure HandHashed (m : RSPMessage) : Prop where
  isHandHashed : isHandHashed m.coreMessage = true
  coreMessage : Short.short m.coreMessage
  destination : Short.short m.destination
  source : Short.short m.source
  nonce : Short.short m.nonce
  endorsements : Short.short m.endorsements
  identities : m.identities = []
  encryptedFields : m.encryptedFields = []
  serviceMessage : m.serviceMessage = none

theorem hashRSPMessage_handHashed {pb : Protobuf} {m : RSPMessage} (h : HandHashed m) :
    hashRSPMessage pb m = .ok (envelope (m.destination, m.source, m.coreMessage, m.nonce, m.trace, m.endorsements) ++
      (be32 101 ++ be32 0 ++ be32 102 ++ be32 0)) := by
  have hbefore : hashCoreBeforeTrace pb m.coreMessage = .ok [] := by
    have := h.isHandHashed
    cases hcore : m.coreMessage <;> rw [hcore] at this <;> first | rfl | cases this
  have hafter : hashCoreAfterTrace m.coreMessage = [] := by
    have := h.isHandHashed
    cases hcore : m.coreMessage <;> rw [hcore] at this <;> first | rfl | cases this
  simp [hashRSPMessage, hbefore, hafter, hashTrailer, envelope, tagged, h.identities, h.encryptedFields,
    h.serviceMessage, counted, bind, Except.bind, pure, Except.pure]

/-- **The signed stream of the core messages is injective.** Two messages with the same stream differ at most in their signatures. -/
theorem hashRSPMessage_injOn (pb : Protobuf) {m₁ m₂ : RSPMessage} (h₁ : HandHashed m₁) (h₂ : HandHashed m₂)
    {stream : Bytes} (hstream₁ : hashRSPMessage pb m₁ = .ok stream) (hstream₂ : hashRSPMessage pb m₂ = .ok stream) :
    { m₁ with signature := none } = { m₂ with signature := none } := by
  have heq := hstream₁.trans hstream₂.symm
  rw [hashRSPMessage_handHashed h₁, hashRSPMessage_handHashed h₂, Except.ok.injEq] at heq
  obtain ⟨hfields, -⟩ := reads_envelope
    ⟨h₁.destination, h₁.source, ⟨h₁.isHandHashed, h₁.coreMessage⟩, h₁.nonce, by simp, h₁.endorsements⟩
    ⟨h₂.destination, h₂.source, ⟨h₂.isHandHashed, h₂.coreMessage⟩, h₂.nonce, by simp, h₂.endorsements⟩
    trivial trivial heq
  simp only [Prod.mk.injEq] at hfields
  obtain ⟨hdestination, hsource, hcore, hnonce, htrace, hendorsements⟩ := hfields
  simp only [hdestination, hsource, hcore, hnonce, htrace, hendorsements, h₁.identities, h₂.identities,
    h₁.encryptedFields, h₂.encryptedFields, h₁.serviceMessage, h₂.serviceMessage]

/-- The signature is not part of the stream, so this is as much as it can say. -/
theorem hashRSPMessage_injOn_signedPing :
    ({ coreMessage := .pingRequest { sequence := 7 }, signature := none } : RSPMessage) =
      { ({ coreMessage := .pingRequest { sequence := 7 }, signature := some {} } : RSPMessage) with
        signature := none } := by
  have hplain (signature : Option SignatureBlock) :
      HandHashed { coreMessage := .pingRequest { sequence := 7 }, signature } :=
    ⟨rfl, ⟨nofun, nofun⟩, nofun, nofun, nofun, ⟨by simp, nofun⟩, rfl, rfl, rfl⟩
  exact hashRSPMessage_injOn default (hplain none) (hplain (some {})) rfl rfl

end Rsp
