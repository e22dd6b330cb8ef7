import Rsp.Client.Node
import Rsp.Endorsement.Signed
import Rsp.Lib.Double
import Rsp.Node.IdentityCache

/-!
# The endorsement service

`EndorsementService` of `resource_service_endorsement.cpp`. A node asks for an endorsement of itself by sending the values it wants, endorsed by itself; the service issues them under its own key if its list of configured endorsements is empty or has an entry for them. Every refusal is a reply, and so is every exception.
-/

namespace Rsp

open Proto

/-! ### Messages -/

/-- `ENSDORSMENT_STATUS`. -/
inductive EndorsementStatus where
  | success | failed | challenge | invalidSignature | unknownIdentity
deriving DecidableEq, Repr

structure BeginEndorsementRequest where
  requestedValues : Option Proto.Endorsement := none
deriving DecidableEq, Repr

structure EndorsementDone where
  status : EndorsementStatus := .success
  newEndorsement : Option Proto.Endorsement := none
deriving DecidableEq, Repr

/-- An `EndorsementDone` in its envelope. -/
structure EndorsementReply where
  destination : Option NodeId := none
  done : EndorsementDone
deriving DecidableEq, Repr

/-! ### The service -/

/-- `DAYS(1)`, in seconds. -/
def oneDay : Double := .finite 86400

structure ConfiguredEndorsement where
  requestor : Option NodeID := none
  endorsementType : GUID
  endorsementValue : Buffer
  validForSeconds : Double := oneDay

structure EndorsementService (C : Crypto) where
  keyPair : KeyPair C
  identityCache : IdentityCache := {}
  configuredEndorsements : List ConfiguredEndorsement := []

/-- What a request finds around the service. -/
structure EndorsementPlatform where
  /-- `UnpackTo` for a `BeginEndorsementRequest`. -/
  unpackTo : Bytes → Option BeginEndorsementRequest
  /-- The bytes that a message was read from are never shorter than its own serialization. -/
  length_le : ∀ value request requested, unpackTo value = some request → request.requestedValues = some requested →
    (Endorsement.wireForm requested).length ≤ value.length
  /-- The time so many seconds from now, in milliseconds. -/
  timeIn : Double → UInt64
  /-- The randomness of the signature. -/
  seed : Nat

def EndorsementPlatform.unpackServiceMessage (platform : EndorsementPlatform) (m : RSPMessage) :
    Option BeginEndorsementRequest :=
  match m.serviceMessage with
  | none => none
  | some any =>
    if any.typeUrl ≠ ascii "type.rsp/rsp.proto." ++ ascii "BeginEndorsementRequest" then none
    else platform.unpackTo any.value

/-- `seconds > 0.0`. -/
def isPositive : Double → Bool
  | .finite value => 0 < value
  | .infinity negative => !negative
  | .nan => false

namespace EndorsementService

variable {C : Crypto}

structure ConfiguredEndorsementMatch where
  hasConfiguredEndorsements : Bool := false
  endorsement : Option ConfiguredEndorsement := none

/-- The loop of `findMatchingConfiguredEndorsement`. -/
def matchingLoop (requestorNodeId : NodeID) (requestedValues : Endorsement) :
    List ConfiguredEndorsement → Except Fault (Option ConfiguredEndorsement)
  | [] => .ok none
  | configured :: rest =>
    if configured.requestor.any (· ≠ requestorNodeId) then matchingLoop requestorNodeId requestedValues rest
    else do
      let type ← requestedValues.endorsementType
      if configured.endorsementType ≠ type then matchingLoop requestorNodeId requestedValues rest
      else do
        let value ← requestedValues.endorsementValue
        if configured.endorsementValue ≠ stringToBuffer value then matchingLoop requestorNodeId requestedValues rest
        else return some configured

def findMatchingConfiguredEndorsement (service : EndorsementService C) (requestorNodeId : NodeID)
    (requestedValues : Endorsement) : Except Fault ConfiguredEndorsementMatch := do
  let endorsement ← matchingLoop requestorNodeId requestedValues service.configuredEndorsements
  return { hasConfiguredEndorsements := !service.configuredEndorsements.isEmpty, endorsement }

/-- For how long the endorsement is issued. -/
def validForSeconds : Option ConfiguredEndorsement → Double
  | none => oneDay
  | some configured => if isPositive configured.validForSeconds then configured.validForSeconds else oneDay

/-- The end of the `try` block, for a request that the requestor has signed. -/
def issue (service : EndorsementService C) (platform : EndorsementPlatform) (sourceNodeId : NodeID)
    (requestedValues : Endorsement) : Except Fault EndorsementDone := do
  let configuredMatch ← service.findMatchingConfiguredEndorsement sourceNodeId requestedValues
  if configuredMatch.hasConfiguredEndorsements && configuredMatch.endorsement.isNone then return { status := .failed }
  else do
    let requestedType ← requestedValues.endorsementType
    let requestedValue ← requestedValues.endorsementValue
    let endorsementType := configuredMatch.endorsement.elim requestedType (·.endorsementType)
    let endorsementValue := configuredMatch.endorsement.elim (stringToBuffer requestedValue) (·.endorsementValue)
    let validUntil := platform.timeIn (validForSeconds configuredMatch.endorsement)
    let subject ← requestedValues.subject
    let issuedEndorsement ←
      Endorsement.createSigned service.keyPair platform.seed subject endorsementType endorsementValue validUntil
    let newEndorsement ← issuedEndorsement.toProto
    return { status := .success, newEndorsement := some newEndorsement }

/-- The middle of the `try` block: who signed the requested values. -/
def checkRequest (service : EndorsementService C) (platform : EndorsementPlatform) (sourceNodeId : NodeID)
    (cachedIdentity : Identity) (requested : Proto.Endorsement) : Except Fault EndorsementDone := do
  let requesterPublicKey : KeyPair C ← KeyPair.fromPublicKey (cachedIdentity.publicKey.getD {})
  let requester ← requesterPublicKey.nodeID
  if requester ≠ sourceNodeId then return { status := .invalidSignature }
  else do
    let requestedValues ← Endorsement.fromProto requested
    let subject ← requestedValues.subject
    if subject ≠ sourceNodeId then return { status := .invalidSignature }
    else do
      let endorsementService ← requestedValues.endorsementService
      if endorsementService ≠ sourceNodeId then return { status := .invalidSignature }
      else do
        let verified ← requestedValues.verifySignature requesterPublicKey
        if !verified then return { status := .invalidSignature }
        else service.issue platform sourceNodeId requestedValues

/-- The `try` block of `handleBeginEndorsementRequest`. -/
def tryRequest (service : EndorsementService C) (platform : EndorsementPlatform) (m : RSPMessage) :
    Except Fault EndorsementDone :=
  match senderNodeIdFromMessage m with
  | none => .ok { status := .failed }
  | some sourceNodeId =>
    match service.identityCache.get sourceNodeId with
    | none => .ok { status := .unknownIdentity }
    | some cachedIdentity =>
      match platform.unpackServiceMessage m with
      | none => .ok { status := .failed }
      | some request =>
        match request.requestedValues with
        | none => .ok { status := .invalidSignature }
        | some requested => service.checkRequest platform sourceNodeId cachedIdentity requested

/-- An exception is answered with `ENDORSEMENT_FAILED`. -/
def handleBeginEndorsementRequest (service : EndorsementService C) (platform : EndorsementPlatform) (m : RSPMessage) :
    EndorsementReply where
  destination := (senderNodeIdFromMessage m).map toProtoNodeId
  done :=
    match service.tryRequest platform m with
    | .ok done => done
    | .error _ => { status := .failed }

/-- `has_identity`, of the message itself. -/
def hasIdentity (m : RSPMessage) : Bool :=
  match m.coreMessage with
  | .identity _ => true
  | _ => false

/-- The replies that are sent, or `none` for a message that is left to others. -/
def handleNodeSpecificMessage (service : EndorsementService C) (platform : EndorsementPlatform) (m : RSPMessage) :
    Option (List EndorsementReply) :=
  if hasIdentity m || !m.identities.isEmpty then some []
  else if RSPClient.hasServiceMessage "BeginEndorsementRequest" m then
    some [service.handleBeginEndorsementRequest platform m]
  else none

end EndorsementService

/-! ### The policy -/

/-- The entry is for this requestor, and has the requested type and value. -/
def ConfiguredEndorsement.Allows (configured : ConfiguredEndorsement) (requestor : NodeID)
    (requested : Proto.Endorsement) : Prop :=
  (configured.requestor = none ∨ configured.requestor = some requestor) ∧
    requested.endorsementType = some ⟨configured.endorsementType.toBigEndian⟩ ∧
    configured.endorsementValue.val = requested.endorsementValue

instance (configured : ConfiguredEndorsement) (requestor : NodeID) (requested : Proto.Endorsement) :
    Decidable (configured.Allows requestor requested) :=
  inferInstanceAs (Decidable (_ ∧ _ ∧ _))

/-- The requested values are an endorsement of the node by itself, signed with the key of the identity. -/
structure SelfEndorsed (C : Crypto) (node : NodeID) (identity : Identity) (requested : Proto.Endorsement) : Prop where
  valid : Endorsement.Valid ⟨requested⟩
  subject : requested.subject = some ⟨node.toBigEndian⟩
  endorsementService : requested.endorsementService = some ⟨node.toBigEndian⟩
  verified : ∃ kp : KeyPair C, KeyPair.fromPublicKey (identity.publicKey.getD {}) = .ok kp ∧ kp.nodeID = .ok node ∧
    kp.verify (Endorsement.wireForm { requested with signature := [] }) requested.signature = .ok true

namespace EndorsementService

/-- The policy of the service: a known node may have what it endorses itself, as far as the configuration allows it. -/
structure Permits (service : EndorsementService C) (platform : EndorsementPlatform) (m : RSPMessage) (node : NodeID)
    (requested : Proto.Endorsement) : Prop where
  sender : senderNodeIdFromMessage m = some node
  request : ∃ request, platform.unpackServiceMessage m = some request ∧ request.requestedValues = some requested
  identity : ∃ identity, service.identityCache.get node = some identity ∧ SelfEndorsed C node identity requested
  configured : service.configuredEndorsements = [] ∨
    ∃ entry ∈ service.configuredEndorsements, entry.Allows node requested

/-- What is issued under the service's key, with the given NodeID. -/
structure Issued (service : EndorsementService C) (own node : NodeID) (requested issued : Proto.Endorsement) : Prop where
  subject : issued.subject = some ⟨node.toBigEndian⟩
  endorsementService : issued.endorsementService = some ⟨own.toBigEndian⟩
  endorsementType : issued.endorsementType = requested.endorsementType
  endorsementValue : issued.endorsementValue = requested.endorsementValue
  verified : Endorsement.verifySignature ⟨issued⟩ service.keyPair = .ok true

variable {service : EndorsementService C} {platform : EndorsementPlatform} {node own : NodeID}
  {requested : Proto.Endorsement}

/-- The loop finds the first entry that allows the request. -/
theorem matchingLoop_eq (hvalid : Endorsement.Valid ⟨requested⟩) (hlength : requested.endorsementValue.length < 2 ^ 32)
    (configured : List ConfiguredEndorsement) :
    matchingLoop node ⟨requested⟩ configured = .ok (configured.find? fun entry => entry.Allows node requested) := by
  obtain ⟨type, htype⟩ := hvalid.exists_endorsementType
  have hmessage : requested.endorsementType = some ⟨type.toBigEndian⟩ := hvalid.endorsementType_eq_ok.mp htype
  have hvalue := hvalid.endorsementValue_eq_ok
  induction configured with
  | nil => rfl
  | cons entry rest ih =>
    have htypeIff : requested.endorsementType = some ⟨entry.endorsementType.toBigEndian⟩ ↔ entry.endorsementType = type := by
      rw [hmessage, Option.some.injEq, Uuid.mk.injEq, GUID.toBigEndian_injective.eq_iff]
      exact eq_comm
    have hvalueIff : entry.endorsementValue.val = requested.endorsementValue ↔
        entry.endorsementValue = stringToBuffer requested.endorsementValue := by
      rw [stringToBuffer_of_lt hlength, ← Subtype.val_inj]
    have hrequestor : entry.requestor.any (· ≠ node) = true ↔ ¬(entry.requestor = none ∨ entry.requestor = some node) := by
      cases entry.requestor <;> simp
    rw [List.find?_cons, matchingLoop, ih, htype, hvalue]
    simp only [ConfiguredEndorsement.Allows, htypeIff, hvalueIff, hrequestor, bind, Except.bind]
    split_ifs <;> simp_all [pure, Except.pure]

/-! ### What is issued -/

/-- An entry that is found names what was requested. -/
theorem type_and_value_of_found {type : GUID} (htype : requested.endorsementType = some ⟨type.toBigEndian⟩)
    (hlength : requested.endorsementValue.length < 2 ^ 32) {found : Option ConfiguredEndorsement}
    (hfound : ∀ entry ∈ found, entry.Allows node requested) :
    found.elim type (·.endorsementType) = type ∧
      found.elim (stringToBuffer requested.endorsementValue) (·.endorsementValue) =
        ⟨requested.endorsementValue, hlength⟩ := by
  cases found with
  | none => exact ⟨rfl, stringToBuffer_of_lt hlength⟩
  | some entry =>
    obtain ⟨-, hentryType, hentryValue⟩ := hfound entry rfl
    rw [htype, Option.some.injEq, Uuid.mk.injEq, GUID.toBigEndian_injective.eq_iff] at hentryType
    exact ⟨hentryType.symm, Subtype.ext hentryValue⟩

theorem issue_eq (hvalid : Endorsement.Valid ⟨requested⟩) (hsubject : requested.subject = some ⟨node.toBigEndian⟩)
    {type : GUID} (htype : requested.endorsementType = some ⟨type.toBigEndian⟩)
    (hlength : requested.endorsementValue.length < 2 ^ 32) :
    service.issue platform node ⟨requested⟩ =
      let found := service.configuredEndorsements.find? fun entry => entry.Allows node requested
      if !service.configuredEndorsements.isEmpty && found.isNone then .ok { status := .failed }
      else do
        let issued ← Endorsement.createSigned service.keyPair platform.seed node type
          ⟨requested.endorsementValue, hlength⟩ (platform.timeIn (validForSeconds found))
        let newEndorsement ← issued.toProto
        return { status := .success, newEndorsement := some newEndorsement } := by
  have hloop : matchingLoop node ⟨requested⟩ service.configuredEndorsements = .ok _ :=
    matchingLoop_eq hvalid hlength service.configuredEndorsements
  have hfound : ∀ entry ∈ service.configuredEndorsements.find? fun entry => entry.Allows node requested,
      entry.Allows node requested := by
    intro entry hentry
    simpa using List.find?_some hentry
  obtain ⟨htypes, hvalues⟩ := type_and_value_of_found htype hlength hfound
  simp only [issue, findMatchingConfiguredEndorsement, hloop, hvalid.endorsementType_eq_ok.mpr htype,
    hvalid.endorsementValue_eq_ok, hvalid.subject_eq_ok.mpr hsubject, bind, Except.bind, pure, Except.pure, htypes, hvalues]

/-- A request that the configuration has no entry for. -/
theorem issue_not_configured (hvalid : Endorsement.Valid ⟨requested⟩)
    (hsubject : requested.subject = some ⟨node.toBigEndian⟩) (hlength : requested.endorsementValue.length < 2 ^ 32)
    (hne : service.configuredEndorsements ≠ [])
    (hnone : ∀ entry ∈ service.configuredEndorsements, ¬entry.Allows node requested) :
    service.issue platform node ⟨requested⟩ = .ok { status := .failed } := by
  obtain ⟨type, htype⟩ := hvalid.exists_endorsementType
  have hfind : service.configuredEndorsements.find? (fun entry => entry.Allows node requested) = none := by
    simpa [List.find?_eq_none] using hnone
  rw [issue_eq hvalid hsubject (hvalid.endorsementType_eq_ok.mp htype) hlength, hfind]
  simp [hne]

/-- A request that the configuration allows, and that leaves room for another time. -/
theorem issue_configured (platform : EndorsementPlatform) (hkey : service.keyPair.Signs own) (hvalid : Endorsement.Valid ⟨requested⟩)
    (hsubject : requested.subject = some ⟨node.toBigEndian⟩)
    (hsize : (Endorsement.wireForm requested).length + 11 ≤ 2 ^ 31 - 1)
    (hallowed : service.configuredEndorsements = [] ∨
      ∃ entry ∈ service.configuredEndorsements, entry.Allows node requested) :
    ∃ issued, service.issue platform node ⟨requested⟩ = .ok { status := .success, newEndorsement := some issued } ∧
      service.Issued own node requested issued := by
  obtain ⟨type, hread⟩ := hvalid.exists_endorsementType
  have htype : requested.endorsementType = some ⟨type.toBigEndian⟩ := hvalid.endorsementType_eq_ok.mp hread
  have hlength : requested.endorsementValue.length < 2 ^ 32 := by
    have hvalue := length_value_le requested
    omega
  rw [issue_eq hvalid hsubject htype hlength]
  have hfound : (!service.configuredEndorsements.isEmpty &&
      (service.configuredEndorsements.find? fun entry => entry.Allows node requested).isNone) = false := by
    rcases hallowed with hempty | ⟨entry, hentry, hallows⟩
    · simp [hempty]
    · have hsome : (service.configuredEndorsements.find? fun entry => entry.Allows node requested).isSome = true := by
        simpa using ⟨entry, hentry, hallows⟩
      rw [Option.isNone_eq_false_iff.mpr hsome, Bool.and_false]
  obtain ⟨ms, hms⟩ : ∃ ms, ms = platform.timeIn (validForSeconds
      (service.configuredEndorsements.find? fun entry => entry.Allows node requested)) := ⟨_, rfl⟩
  have hissuedSize : (Endorsement.wireForm
      (Endorsement.ofFields node own type ⟨requested.endorsementValue, hlength⟩ ms []).message).length ≤ 2 ^ 31 - 1 := by
    have hunsigned := length_wireForm_unsigned_le requested
    have hrequested : Endorsement.validateMessage requested false = .ok () := hvalid.unsigned
    have hle := length_unsigned_le hrequested
      (Endorsement.validateMessage_ofFields node own type ⟨requested.endorsementValue, hlength⟩ ms [] nofun) rfl
    exact le_trans hle (by omega)
  obtain ⟨signature, hsigned, hissued, hverified⟩ := Endorsement.createSigned_verifies hkey platform.seed hissuedSize
  refine ⟨(Endorsement.ofFields node own type ⟨requested.endorsementValue, hlength⟩ ms signature).message, ?_,
    ⟨rfl, rfl, htype.symm, rfl, hverified⟩⟩
  have hproto : (Endorsement.ofFields node own type ⟨requested.endorsementValue, hlength⟩ ms signature).toProto = .ok _ :=
    hissued.validate_bind _
  simp only [hfound, ← hms, hsigned, hproto, bind, Except.bind, Bool.false_eq_true, if_false]
  rfl

/-! ### Who is answered -/

/-- A request is never longer than its envelope, of which protocol buffers read at most `INT_MAX` bytes. -/
def Received (m : RSPMessage) : Prop :=
  ∀ any ∈ m.serviceMessage, any.typeUrl.length + any.value.length ≤ 2 ^ 31 - 1

/-- The type URL alone has 42 bytes. -/
theorem length_requested_le {m : RSPMessage} (hm : Received m) {request : BeginEndorsementRequest}
    (hunpack : platform.unpackServiceMessage m = some request) (hvalues : request.requestedValues = some requested) :
    (Endorsement.wireForm requested).length + 42 ≤ 2 ^ 31 - 1 := by
  unfold EndorsementPlatform.unpackServiceMessage at hunpack
  split at hunpack
  · cases hunpack
  · next any hany =>
    split_ifs at hunpack with hurl
    rw [not_not] at hurl
    have hrequested := platform.length_le _ _ _ hunpack hvalues
    have henvelope := hm any hany
    have htypeUrl : any.typeUrl.length = 42 := by
      rw [hurl]
      decide
    omega

theorem checkRequest_eq {identity : Identity} (h : SelfEndorsed C node identity requested)
    (hsize : (Endorsement.wireForm requested).length ≤ 2 ^ 31 - 1) :
    service.checkRequest platform node identity requested = service.issue platform node ⟨requested⟩ := by
  obtain ⟨kp, hkp, hid, hverify⟩ := h.verified
  have hunsigned := (length_wireForm_unsigned_le requested).trans hsize
  have hsignature := (length_signature_le requested).trans hsize
  have hverified : Endorsement.verifySignature ⟨requested⟩ kp = .ok true := by
    rw [h.valid.verifySignature_eq hid h.endorsementService hunsigned (lt_of_le_of_lt hsignature (by decide))]
    exact hverify
  have hproto : Endorsement.fromProto requested = .ok ⟨requested⟩ := h.valid.validate_bind _
  simp [checkRequest, hkp, hid, hproto, h.valid.subject_eq_ok.mpr h.subject,
    h.valid.endorsementService_eq_ok.mpr h.endorsementService, hverified, bind, Except.bind]

/-- Only what the node has signed itself gets as far as the configuration. -/
theorem selfEndorsed_of_checkRequest {identity : Identity} {done : EndorsementDone}
    (hsize : (Endorsement.wireForm requested).length ≤ 2 ^ 31 - 1)
    (h : service.checkRequest platform node identity requested = .ok done) (hdone : done.status = .success) :
    SelfEndorsed C node identity requested := by
  have hrefused {status : EndorsementStatus} {newEndorsement : Option Proto.Endorsement} (hstatus : status ≠ .success)
      (hok : (pure { status, newEndorsement } : Except Fault EndorsementDone) = .ok done) : False := by
    rw [← Except.ok.inj hok] at hdone
    exact hstatus hdone
  obtain ⟨kp, hkp, h⟩ := bind_eq_ok.mp h
  obtain ⟨requester, hrequester, h⟩ := bind_eq_ok.mp h
  split_ifs at h with hne
  · exact (hrefused (by decide) h).elim
  rw [not_not] at hne
  obtain ⟨values, hvalues, h⟩ := bind_eq_ok.mp h
  obtain ⟨_, hvalid, hproto⟩ := bind_eq_ok.mp hvalues
  obtain rfl := Except.ok.inj hproto
  have hvalid : Endorsement.Valid ⟨requested⟩ := hvalid
  obtain ⟨subject, hsubject, h⟩ := bind_eq_ok.mp h
  split_ifs at h with hsubjectNe
  · exact (hrefused (by decide) h).elim
  rw [not_not] at hsubjectNe
  obtain ⟨endorser, hendorser, h⟩ := bind_eq_ok.mp h
  split_ifs at h with hendorserNe
  · exact (hrefused (by decide) h).elim
  rw [not_not] at hendorserNe
  obtain ⟨verified, hverified, h⟩ := bind_eq_ok.mp h
  split_ifs at h with hinvalid
  · exact (hrefused (by decide) h).elim
  obtain rfl : verified = true := by simpa using hinvalid
  rw [hne] at hrequester
  rw [hsubjectNe, hvalid.subject_eq_ok] at hsubject
  rw [hendorserNe, hvalid.endorsementService_eq_ok] at hendorser
  have hunsigned := (length_wireForm_unsigned_le requested).trans hsize
  have hsignature := (length_signature_le requested).trans hsize
  rw [hvalid.verifySignature_eq hrequester hendorser hunsigned (lt_of_le_of_lt hsignature (by decide))] at hverified
  exact ⟨hvalid, hsubject, hendorser, kp, hkp, hrequester, hverified⟩

theorem tryRequest_eq {m : RSPMessage} (hm : Received m) (h : service.Permits platform m node requested) :
    service.tryRequest platform m = service.issue platform node ⟨requested⟩ := by
  obtain ⟨request, hunpack, hvalues⟩ := h.request
  obtain ⟨identity, hidentity, hendorsed⟩ := h.identity
  have hsize := length_requested_le hm hunpack hvalues
  simp only [tryRequest, h.sender, hidentity, hunpack, hvalues]
  exact checkRequest_eq hendorsed (by omega)

theorem permits_of_tryRequest {m : RSPMessage} (hm : Received m) {done : EndorsementDone}
    (h : service.tryRequest platform m = .ok done) (hdone : done.status = .success) :
    ∃ node requested, service.Permits platform m node requested := by
  have hrefused {status : EndorsementStatus} (hstatus : status ≠ .success)
      (hok : (.ok { status } : Except Fault EndorsementDone) = .ok done) : False := by
    rw [← Except.ok.inj hok] at hdone
    exact hstatus hdone
  unfold tryRequest at h
  split at h
  · exact (hrefused (by decide) h).elim
  next node hnode =>
  split at h
  · exact (hrefused (by decide) h).elim
  next identity hidentity =>
  split at h
  · exact (hrefused (by decide) h).elim
  next request hunpack =>
  split at h
  · exact (hrefused (by decide) h).elim
  next requested hvalues =>
  have hlength := length_requested_le hm hunpack hvalues
  have hsize : (Endorsement.wireForm requested).length ≤ 2 ^ 31 - 1 := by omega
  have hendorsed := selfEndorsed_of_checkRequest hsize h hdone
  refine ⟨node, requested, hnode, ⟨request, hunpack, hvalues⟩, ⟨identity, hidentity, hendorsed⟩, ?_⟩
  -- with entries of which none allows the request, the answer would have been a refusal
  by_contra hforbidden
  rw [not_or] at hforbidden
  rw [checkRequest_eq hendorsed hsize, issue_not_configured hendorsed.valid hendorsed.subject
    (lt_of_le_of_lt ((length_value_le requested).trans hsize) (by decide)) hforbidden.1
    fun entry hentry hallows => hforbidden.2 ⟨entry, hentry, hallows⟩] at h
  exact hrefused (by decide) h

/-- **Issuing endorsements.** The service issues an endorsement exactly when its policy permits it, and then the one that was asked for, under its own key. -/
theorem issues_by_policy_iff (hkey : service.keyPair.Signs own) {m : RSPMessage} (hm : Received m)
    (hrequest : RSPClient.hasServiceMessage "BeginEndorsementRequest" m = true) (hidentity : hasIdentity m = false)
    (hidentities : m.identities = []) :
    service.handleNodeSpecificMessage platform m = some [service.handleBeginEndorsementRequest platform m] ∧
      ((service.handleBeginEndorsementRequest platform m).done.status = .success ↔
        ∃ node requested, service.Permits platform m node requested) ∧
      ∀ node requested, service.Permits platform m node requested →
        ∃ issued, (service.handleBeginEndorsementRequest platform m).done.newEndorsement = some issued ∧
          service.Issued own node requested issued := by
  have hanswer {node : NodeID} {requested : Proto.Endorsement} (h : service.Permits platform m node requested) :
      ∃ issued, (service.handleBeginEndorsementRequest platform m).done =
        { status := .success, newEndorsement := some issued } ∧ service.Issued own node requested issued := by
    obtain ⟨request, hunpack, hvalues⟩ := h.request
    obtain ⟨identity, -, hendorsed⟩ := h.identity
    have hlength := length_requested_le hm hunpack hvalues
    obtain ⟨issued, hissue, hissued⟩ :=
      issue_configured platform hkey hendorsed.valid hendorsed.subject (by omega) h.configured
    refine ⟨issued, ?_, hissued⟩
    simp only [handleBeginEndorsementRequest, tryRequest_eq hm h, hissue]
  refine ⟨?_, ⟨fun hstatus => ?_, ?_⟩, ?_⟩
  · simp [handleNodeSpecificMessage, hidentity, hidentities, hrequest]
  · cases htry : service.tryRequest platform m with
    | error fault => simp [handleBeginEndorsementRequest, htry] at hstatus
    | ok done => exact permits_of_tryRequest hm htry (by simpa [handleBeginEndorsementRequest, htry] using hstatus)
  · rintro ⟨node, requested, h⟩
    obtain ⟨issued, hdone, -⟩ := hanswer h
    rw [hdone]
  · intro node requested h
    obtain ⟨issued, hdone, hissued⟩ := hanswer h
    exact ⟨issued, by rw [hdone], hissued⟩

/-! ### A request that is granted -/

/-- The NodeID that the sample key derives. -/
def sampleNodeID (k : UInt8) : NodeID := ⟨readBe64 [k, 0, 0, 0, 0, 0, 0, 0], 0⟩

theorem sampleKeyPair_signs (k : UInt8) : (sampleKeyPair k).Signs (sampleNodeID k) where
  nodeID := rfl
  sign _ message hlength := ⟨k :: message, rfl, List.cons_ne_nil _ _, by rw [List.length_cons]; omega,
    congrArg Except.ok (beq_self_eq_true _)⟩

/-- The node with key 2 asks for the type 5 with a value of one byte. -/
def requestedByTwo : Proto.Endorsement :=
  let unsigned := Endorsement.ofFields (sampleNodeID 2) (sampleNodeID 2) ⟨0, 5⟩ ⟨[9], by decide⟩ 1 []
  { unsigned.message with signature := 2 :: Endorsement.wireForm unsigned.message }

/-- The request is read from its serialization only. -/
def samplePlatform : EndorsementPlatform where
  unpackTo value :=
    if value = Wire.lengthDelimited 1 (Endorsement.wireForm requestedByTwo) then some ⟨some requestedByTwo⟩ else none
  length_le := by
    intro value request requested hunpack hvalues
    split_ifs at hunpack with hvalue
    obtain rfl := Option.some.inj hunpack
    obtain rfl := Option.some.inj hvalues
    rw [hvalue, Wire.lengthDelimited, List.length_append]
    exact Nat.le_add_left _ _
  timeIn _ := 86400000
  seed := 0

def identityOfTwo : Identity := { publicKey := some { algorithm := .p256, publicKey := [2] } }

/-- The service has key 1, knows the node and endorses the type 5 with that value for everyone. -/
def sampleService : EndorsementService sampleCrypto where
  keyPair := sampleKeyPair 1
  identityCache := IdentityCache.store {} (sampleNodeID 2) identityOfTwo
  configuredEndorsements := [{ endorsementType := ⟨0, 5⟩, endorsementValue := ⟨[9], by decide⟩ }]

def sampleRequest : RSPMessage :=
  { source := some (toProtoNodeId (sampleNodeID 2)),
    serviceMessage := some
      { typeUrl := ascii "type.rsp/rsp.proto." ++ ascii "BeginEndorsementRequest",
        value := Wire.lengthDelimited 1 (Endorsement.wireForm requestedByTwo) } }

theorem sampleService_permits : sampleService.Permits samplePlatform sampleRequest (sampleNodeID 2) requestedByTwo where
  sender := by decide
  request := by
    refine ⟨⟨some requestedByTwo⟩, ?_, rfl⟩
    simp [samplePlatform, sampleRequest, EndorsementPlatform.unpackServiceMessage]
  identity := by
    have hvalid : Endorsement.validateMessage requestedByTwo true = .ok () := by decide +kernel
    refine ⟨identityOfTwo, by decide +kernel, hvalid, rfl, rfl, sampleKeyPair 2, rfl, rfl, ?_⟩
    exact congrArg Except.ok (beq_self_eq_true _)
  configured := .inr ⟨_, List.mem_singleton_self _, by decide⟩

theorem issues_by_policy_iff_granted :
    (sampleService.handleBeginEndorsementRequest samplePlatform sampleRequest).done.status = .success := by
  have hreceived : Received sampleRequest := by
    intro any hany
    obtain rfl := Option.some.inj hany
    decide +kernel
  exact (issues_by_policy_iff (sampleKeyPair_signs 1) hreceived (by decide) rfl rfl).2.1.mpr
    ⟨_, _, sampleService_permits⟩

/-! ### Requests that are not answered -/

/-- The message announces an identity, as its own content or beside it. -/
def announcesIdentity (m : RSPMessage) : Bool := hasIdentity m || !m.identities.isEmpty

/-- The one message that is sent is an `EndorsementDone` to the node. -/
def AnswersTo (replies : Option (List EndorsementReply)) (node : NodeID) : Prop :=
  ∃ reply, replies = some [reply] ∧ reply.destination = some (toProtoNodeId node)

theorem handleNodeSpecificMessage_of_announces {m : RSPMessage} (h : announcesIdentity m = true) :
    service.handleNodeSpecificMessage platform m = some [] :=
  if_pos h

theorem handleNodeSpecificMessage_of_request {m : RSPMessage} (h : announcesIdentity m = false)
    (hrequest : RSPClient.hasServiceMessage "BeginEndorsementRequest" m = true) :
    service.handleNodeSpecificMessage platform m = some [service.handleBeginEndorsementRequest platform m] := by
  have hne : ¬announcesIdentity m = true := by
    rw [h]
    exact Bool.false_ne_true
  exact (if_neg hne).trans (if_pos hrequest)

/-- **Answering requests.** Whatever its payload is, a request is answered unless it also announces an identity: such a message is taken for the announcement alone. -/
theorem request_answered_iff (service : EndorsementService C) (platform : EndorsementPlatform) {m : RSPMessage}
    (hsender : senderNodeIdFromMessage m = some node)
    (hrequest : RSPClient.hasServiceMessage "BeginEndorsementRequest" m = true) :
    AnswersTo (service.handleNodeSpecificMessage platform m) node ↔ hasIdentity m = false ∧ m.identities = [] := by
  have hannounces : announcesIdentity m = false ↔ hasIdentity m = false ∧ m.identities = [] := by
    rw [announcesIdentity, Bool.or_eq_false_iff, Bool.not_eq_false', List.isEmpty_iff]
  rw [← hannounces]
  constructor
  · rintro ⟨reply, hreply, -⟩
    by_contra hidentity
    rw [handleNodeSpecificMessage_of_announces (Bool.eq_true_of_not_eq_false hidentity)] at hreply
    exact List.cons_ne_nil _ _ (Option.some.inj hreply).symm
  · intro hidentity
    refine ⟨_, handleNodeSpecificMessage_of_request hidentity hrequest, ?_⟩
    show (senderNodeIdFromMessage m).map toProtoNodeId = some (toProtoNodeId node)
    rw [hsender, Option.map_some]

/-- A request whose payload cannot be read, with an endorsement beside it. -/
def malformedRequest : RSPMessage :=
  { sampleRequest with
    serviceMessage := some
      { typeUrl := ascii "type.rsp/rsp.proto." ++ ascii "BeginEndorsementRequest", value := [255] },
    endorsements := [requestedByTwo] }

theorem request_answered_iff_malformed :
    AnswersTo (sampleService.handleNodeSpecificMessage samplePlatform malformedRequest) (sampleNodeID 2) :=
  (request_answered_iff sampleService samplePlatform (by decide) (by decide)).mpr ⟨rfl, rfl⟩

/-- The request that is granted when it comes alone, sent along with the identity of its sender. -/
theorem request_with_identity_not_answered :
    senderNodeIdFromMessage { sampleRequest with identities := [identityOfTwo] } = some (sampleNodeID 2) ∧
      RSPClient.hasServiceMessage "BeginEndorsementRequest" { sampleRequest with identities := [identityOfTwo] } = true ∧
      sampleService.handleNodeSpecificMessage samplePlatform { sampleRequest with identities := [identityOfTwo] } =
        some [] :=
  ⟨by decide, by decide, handleNodeSpecificMessage_of_announces rfl⟩

end EndorsementService

end Rsp
