import Rsp.Endorsement.Binary
import Rsp.Lib.Wire
import Rsp.Signing.KeyPair

/-!
# Signed endorsements

The part of the class `Endorsement` that makes and checks signatures. The signature covers the deterministic serialization of the message without its `signature` field, identifiers in big-endian order; every accessor validates the message first. A message that protocol buffers cannot write is signed and verified by nobody, so the lengths of the serialization matter: another time changes it by eleven bytes at most.
-/

namespace Rsp

open ByteCode Proto

variable {C : Crypto}

namespace Endorsement

/-- The deterministic serialization of the message. -/
def wireForm (m : Proto.Endorsement) : Bytes :=
  Wire.messageField 1 (m.subject.map fun id => Wire.bytesField 1 id.value) ++
    Wire.messageField 2 (m.endorsementService.map fun id => Wire.bytesField 1 id.value) ++
    Wire.messageField 3 (m.endorsementType.map fun id => Wire.bytesField 1 id.value) ++
    Wire.bytesField 4 m.endorsementValue ++
    Wire.messageField 5 (m.validUntil.map fun time => Wire.uint64Field 1 time.millisecondsSinceEpoch) ++
    Wire.bytesField 99 m.signature

/-- `SerializeToCodedStream` fails for a message of more than `INT_MAX` bytes. -/
def serializeDeterministic (m : Proto.Endorsement) : Except Fault Buffer :=
  if 2 ^ 31 - 1 < (wireForm m).length then .error (makeError "failed to serialize endorsement protobuf")
  else .ok (stringToBuffer (wireForm m))

def serializeUnsigned (e : Endorsement) : Except Fault Buffer := do
  let unsignedMessage := { e.message with signature := [] }
  validateMessage unsignedMessage false
  serializeDeterministic unsignedMessage

def subject (e : Endorsement) : Except Fault NodeID := do
  validateMessage e.message true
  deserializeGuidBytes (nodeIdValue e.message.subject) "invalid endorsement subject length"

def signature (e : Endorsement) : Except Fault Buffer := do
  validateMessage e.message true
  return stringToBuffer e.message.signature

def fromProto (message : Proto.Endorsement) : Except Fault Endorsement := do
  validateMessage message true
  return ⟨message⟩

def toProto (e : Endorsement) : Except Fault Proto.Endorsement := do
  validateMessage e.message true
  return e.message

/-- The constructor from the single fields; the time is in milliseconds. -/
def ofFields (subject endorsementService : NodeID) (endorsementType : GUID) (endorsementValue : Buffer)
    (validUntil : UInt64) (signature : Bytes) : Endorsement where
  message :=
    { subject := some ⟨subject.toBigEndian⟩, endorsementService := some ⟨endorsementService.toBigEndian⟩,
      endorsementType := some ⟨endorsementType.toBigEndian⟩, endorsementValue := endorsementValue.val,
      validUntil := some ⟨validUntil⟩, signature := signature }

def createSigned (endorsementServiceKeyPair : KeyPair C) (seed : Nat) (subject : NodeID) (endorsementType : GUID)
    (endorsementValue : Buffer) (validUntil : UInt64) : Except Fault Endorsement := do
  let service ← endorsementServiceKeyPair.nodeID
  let endorsement := ofFields subject service endorsementType endorsementValue validUntil []
  let unsigned ← endorsement.serializeUnsigned
  let signature ← endorsementServiceKeyPair.sign seed unsigned.val
  return ofFields subject service endorsementType endorsementValue validUntil signature

def verifySignature (e : Endorsement) (endorsementServiceKeyPair : KeyPair C) : Except Fault Bool := do
  validateMessage e.message true
  let id ← endorsementServiceKeyPair.nodeID
  let service ← e.endorsementService
  if id ≠ service then return false
  else do
    let unsigned ← e.serializeUnsigned
    let signature ← e.signature
    endorsementServiceKeyPair.verify unsigned.val signature.val

end Endorsement

/-! ### The serialization -/

/-- The three identifiers, as both sides write them. -/
def wireIds (subject service type : Bytes) : Bytes :=
  Wire.lengthDelimited 1 (Wire.lengthDelimited 1 subject) ++ Wire.lengthDelimited 2 (Wire.lengthDelimited 1 service) ++
    Wire.lengthDelimited 3 (Wire.lengthDelimited 1 type)

/-- What the C++ code writes for a valid message without its signature. -/
theorem wireForm_unsigned {m : Proto.Endorsement} (h : Endorsement.validateMessage m false = .ok ()) :
    Endorsement.wireForm { m with signature := [] } =
      wireIds (nodeIdValue m.subject) (nodeIdValue m.endorsementService) (uuidValue m.endorsementType) ++
        Wire.bytesField 4 m.endorsementValue ++
        Wire.lengthDelimited 5 (Wire.uint64Field 1 (m.validUntil.getD {}).millisecondsSinceEpoch) := by
  obtain ⟨⟨subject, hsubject, hsubjectLength⟩, ⟨service, hservice, hserviceLength⟩, ⟨type, htype, htypeLength⟩, hms, -⟩ :=
    validateMessage_ok.mp h
  obtain ⟨time, htime⟩ := Option.isSome_iff_exists.mp hms
  have hbytes {value : Bytes} (hlength : value.length = 16) :
      Wire.bytesField 1 value = Wire.lengthDelimited 1 value := by
    rw [Wire.bytesField, if_neg]
    rw [List.isEmpty_iff]
    rintro rfl
    cases hlength
  simp only [Endorsement.wireForm, hsubject, hservice, htype, htime, Option.map_some, Wire.messageField, Option.elim_some,
    hbytes hsubjectLength, hbytes hserviceLength, hbytes htypeLength, wireIds, nodeIdValue, uuidValue, Option.getD_some]
  simp [Wire.bytesField]

theorem serializeUnsigned_ok {m : Proto.Endorsement} (h : Endorsement.validateMessage m false = .ok ()) {buffer : Buffer} :
    Endorsement.serializeUnsigned ⟨m⟩ = .ok buffer ↔
      (Endorsement.wireForm { m with signature := [] }).length ≤ 2 ^ 31 - 1 ∧
        buffer.val = Endorsement.wireForm { m with signature := [] } := by
  have hvalid : Endorsement.validateMessage { m with signature := [] } false = .ok () := by
    rw [validateMessage_ok] at h ⊢
    exact ⟨h.1, h.2.1, h.2.2.1, h.2.2.2.1, fun hfalse => by cases hfalse⟩
  rw [Endorsement.serializeUnsigned, hvalid]
  simp only [bind, Except.bind, Endorsement.serializeDeterministic]
  split_ifs with hsize
  · refine iff_of_false (by simp) fun hle => ?_
    omega
  · have hlt : (Endorsement.wireForm { m with signature := [] }).length < 2 ^ 32 := by omega
    rw [stringToBuffer_of_lt hlt, Except.ok.injEq]
    constructor
    · rintro rfl
      exact ⟨by omega, rfl⟩
    · rintro ⟨-, hbuffer⟩
      exact Subtype.ext hbuffer.symm

theorem length_wireIds {subject service type : Bytes} (hsubject : subject.length = 16) (hservice : service.length = 16)
    (htype : type.length = 16) : (wireIds subject service type).length = 60 := by
  have hone {n : Nat} (h : n < 128) : (Wire.varint n).length = 1 := by
    rw [Wire.varint_of_lt h]
    rfl
  have hid {number : Nat} {value : Bytes} (hnumber : number < 15) (h : value.length = 16) :
      (Wire.lengthDelimited number (Wire.lengthDelimited 1 value)).length = 20 := by
    have hinner : (Wire.lengthDelimited 1 value).length = 18 := by
      rw [Wire.length_lengthDelimited (by omega), h, hone (by omega)]
    rw [Wire.length_lengthDelimited hnumber, hinner, hone (by omega)]
  rw [wireIds, List.length_append, List.length_append, hid (by omega) hsubject, hid (by omega) hservice,
    hid (by omega) htype]

/-- The signature is the last field. -/
theorem wireForm_eq_append (m : Proto.Endorsement) :
    Endorsement.wireForm m = Endorsement.wireForm { m with signature := [] } ++ Wire.bytesField 99 m.signature := by
  simp [Endorsement.wireForm, Wire.bytesField]

theorem length_wireForm_unsigned_le (m : Proto.Endorsement) :
    (Endorsement.wireForm { m with signature := [] }).length ≤ (Endorsement.wireForm m).length := by
  rw [wireForm_eq_append m, List.length_append]
  exact Nat.le_add_right _ _

theorem length_signature_le (m : Proto.Endorsement) : m.signature.length ≤ (Endorsement.wireForm m).length := by
  rw [wireForm_eq_append, List.length_append, Wire.bytesField]
  split_ifs with hempty
  · rw [List.isEmpty_iff.mp hempty]
    exact Nat.zero_le _
  · rw [Wire.lengthDelimited, List.length_append]
    omega

theorem length_value_le (m : Proto.Endorsement) : m.endorsementValue.length ≤ (Endorsement.wireForm m).length := by
  have hfield : m.endorsementValue.length ≤ (Wire.bytesField 4 m.endorsementValue).length := by
    rw [Wire.bytesField]
    split_ifs with hempty
    · rw [List.isEmpty_iff.mp hempty]
    · rw [Wire.lengthDelimited, List.length_append]
      omega
  simp only [Endorsement.wireForm, List.length_append]
  omega

/-- The time takes between two and thirteen bytes. -/
theorem length_time (ms : UInt64) :
    2 ≤ (Wire.lengthDelimited 5 (Wire.uint64Field 1 ms)).length ∧
      (Wire.lengthDelimited 5 (Wire.uint64Field 1 ms)).length ≤ 13 := by
  have hgroups : (Wire.varint ms.toNat).length ≤ 10 :=
    Wire.length_varint_le (lt_of_lt_of_le ms.toNat_lt (by decide))
  have hfield : (Wire.uint64Field 1 ms).length ≤ 11 := by
    rw [Wire.uint64Field]
    split_ifs
    · exact Nat.zero_le _
    · rw [List.length_append, Wire.length_key (by omega)]
      omega
  rw [Wire.length_lengthDelimited (by omega), Wire.varint_of_lt (by omega), List.length_singleton]
  omega

/-- Two valid endorsements of the same value differ in length by their times only. -/
theorem length_unsigned_le {m m' : Proto.Endorsement} (h : Endorsement.validateMessage m false = .ok ())
    (h' : Endorsement.validateMessage m' false = .ok ()) (hvalue : m'.endorsementValue = m.endorsementValue) :
    (Endorsement.wireForm { m' with signature := [] }).length ≤
      (Endorsement.wireForm { m with signature := [] }).length + 11 := by
  have hids {m : Proto.Endorsement} (h : Endorsement.validateMessage m false = .ok ()) :
      (wireIds (nodeIdValue m.subject) (nodeIdValue m.endorsementService) (uuidValue m.endorsementType)).length = 60 := by
    obtain ⟨⟨subject, hsubject, hsubjectLength⟩, ⟨service, hservice, hserviceLength⟩, ⟨type, htype, htypeLength⟩, -⟩ :=
      validateMessage_ok.mp h
    rw [hsubject, hservice, htype]
    exact length_wireIds hsubjectLength hserviceLength htypeLength
  have htime := length_time (m.validUntil.getD {}).millisecondsSinceEpoch
  have htime' := length_time (m'.validUntil.getD {}).millisecondsSinceEpoch
  rw [wireForm_unsigned h, wireForm_unsigned h', hvalue]
  simp only [List.length_append, hids h, hids h']
  omega

/-! ### Reading the fields -/

theorem GUID.ofBigEndian_eq_some {value : Bytes} {id : GUID} : ofBigEndian value = some id ↔ value = id.toBigEndian := by
  constructor
  · intro h
    unfold ofBigEndian at h
    split_ifs at h with hlength
    rw [not_not] at hlength
    obtain rfl := Option.some.inj h
    have htake : be64 (readBe64 (value.take 8)) = value.take 8 := be64_readBe64 (by rw [List.length_take]; omega)
    have hdrop : be64 (readBe64 (value.drop 8)) = value.drop 8 := be64_readBe64 (by rw [List.length_drop]; omega)
    rw [toBigEndian, htake, hdrop, List.take_append_drop]
  · rintro rfl
    exact ofBigEndian_toBigEndian id

theorem deserializeGuidBytes_eq_ok {bytes : Bytes} {fieldName : String} {id : GUID} :
    deserializeGuidBytes bytes fieldName = .ok id ↔ bytes = id.toBigEndian := by
  rw [deserializeGuidBytes, ← GUID.ofBigEndian_eq_some]
  cases GUID.ofBigEndian bytes <;> simp

theorem nodeIdValue_eq_toBigEndian {field : Option NodeId} {id : NodeID} :
    nodeIdValue field = id.toBigEndian ↔ field = some ⟨id.toBigEndian⟩ := by
  cases field with
  | none =>
    refine iff_of_false (fun h => ?_) (by simp)
    have hlength := congrArg List.length h
    rw [GUID.toBigEndian_length] at hlength
    cases hlength
  | some value =>
    rw [Option.some.injEq]
    exact ⟨fun h => congrArg NodeId.mk h, fun h => congrArg NodeId.value h⟩

theorem uuidValue_eq_toBigEndian {field : Option Uuid} {id : GUID} :
    uuidValue field = id.toBigEndian ↔ field = some ⟨id.toBigEndian⟩ := by
  cases field with
  | none =>
    refine iff_of_false (fun h => ?_) (by simp)
    have hlength := congrArg List.length h
    rw [GUID.toBigEndian_length] at hlength
    cases hlength
  | some value =>
    rw [Option.some.injEq]
    exact ⟨fun h => congrArg Uuid.mk h, fun h => congrArg Uuid.value h⟩

namespace Endorsement

variable {e : Endorsement}

theorem Valid.unsigned (h : e.Valid) : validateMessage e.message false = .ok () := by
  obtain ⟨hsubject, hservice, htype, htime, -⟩ := validateMessage_ok.mp h
  exact validateMessage_ok.mpr ⟨hsubject, hservice, htype, htime, nofun⟩

/-- Every accessor of a valid endorsement just reads its field. -/
theorem Valid.validate_bind {β : Type} (h : e.Valid) (rest : Unit → Except Fault β) :
    (validateMessage e.message true >>= rest) = rest () := by
  have hvalid : validateMessage e.message true = .ok () := h
  rw [hvalid]
  rfl

theorem Valid.subject_eq_ok (h : e.Valid) {id : NodeID} :
    e.subject = .ok id ↔ e.message.subject = some ⟨id.toBigEndian⟩ := by
  rw [subject, h.validate_bind, deserializeGuidBytes_eq_ok, nodeIdValue_eq_toBigEndian]

theorem Valid.endorsementService_eq_ok (h : e.Valid) {id : NodeID} :
    e.endorsementService = .ok id ↔ e.message.endorsementService = some ⟨id.toBigEndian⟩ := by
  rw [endorsementService, h.validate_bind, deserializeGuidBytes_eq_ok, nodeIdValue_eq_toBigEndian]

theorem Valid.endorsementType_eq_ok (h : e.Valid) {id : GUID} :
    e.endorsementType = .ok id ↔ e.message.endorsementType = some ⟨id.toBigEndian⟩ := by
  rw [endorsementType, h.validate_bind, deserializeGuidBytes_eq_ok, uuidValue_eq_toBigEndian]

theorem Valid.endorsementValue_eq_ok (h : e.Valid) : e.endorsementValue = .ok e.message.endorsementValue := by
  rw [endorsementValue, h.validate_bind]
  rfl

theorem Valid.exists_endorsementType (h : e.Valid) : ∃ id, e.endorsementType = .ok id := by
  obtain ⟨-, -, ⟨value, hvalue, hlength⟩, -⟩ := validateMessage_ok.mp h
  refine ⟨⟨readBe64 (value.take 8), readBe64 (value.drop 8)⟩, ?_⟩
  rw [endorsementType, h.validate_bind, hvalue, deserializeGuidBytes_eq_ok, ← GUID.ofBigEndian_eq_some]
  exact if_neg (not_not.mpr hlength)

/-! ### Signing and verifying -/

theorem Valid.serializeUnsigned_eq (h : e.Valid) (hsize : (wireForm { e.message with signature := [] }).length ≤ 2 ^ 31 - 1) :
    e.serializeUnsigned = .ok ⟨wireForm { e.message with signature := [] }, lt_of_le_of_lt hsize (by decide)⟩ :=
  (serializeUnsigned_ok h.unsigned).mpr ⟨hsize, rfl⟩

theorem Valid.verifySignature_eq (h : e.Valid) {kp : KeyPair C} {id : NodeID} (hid : kp.nodeID = .ok id)
    (hservice : e.message.endorsementService = some ⟨id.toBigEndian⟩)
    (hsize : (wireForm { e.message with signature := [] }).length ≤ 2 ^ 31 - 1)
    (hsignature : e.message.signature.length < 2 ^ 32) :
    e.verifySignature kp = kp.verify (wireForm { e.message with signature := [] }) e.message.signature := by
  have hread : e.signature = .ok ⟨e.message.signature, hsignature⟩ := by
    rw [signature, h.validate_bind, stringToBuffer_of_lt hsignature]
    rfl
  rw [verifySignature, h.validate_bind, hid, h.endorsementService_eq_ok.mpr hservice, h.serializeUnsigned_eq hsize, hread]
  simp only [bind, Except.bind, ne_eq, not_true_eq_false, if_false]

end Endorsement

/-- What is assumed of a key that signs endorsements: it has a NodeID, signs whatever protocol buffers can write, and accepts its own signatures, which are not empty and fit a `Buffer`. -/
structure KeyPair.Signs (kp : KeyPair C) (id : NodeID) : Prop where
  nodeID : kp.nodeID = .ok id
  sign : ∀ seed (message : Bytes), message.length ≤ 2 ^ 31 - 1 → ∃ signature, kp.sign seed message = .ok signature ∧
    signature ≠ [] ∧ signature.length < 2 ^ 32 ∧ kp.verify message signature = .ok true

namespace Endorsement

theorem validateMessage_ofFields (subject service : NodeID) (type : GUID) (value : Buffer) (ms : UInt64)
    (signature : Bytes) {requireSignature : Bool} (h : requireSignature = true → signature ≠ []) :
    validateMessage (ofFields subject service type value ms signature).message requireSignature = .ok () :=
  validateMessage_ok.mpr ⟨⟨_, rfl, rfl⟩, ⟨_, rfl, rfl⟩, ⟨_, rfl, rfl⟩, rfl, h⟩

/-- An endorsement that is not too long is signed, and its signature accepted. -/
theorem createSigned_verifies {kp : KeyPair C} {id : NodeID} (hkey : kp.Signs id) (seed : Nat) {subject : NodeID}
    {type : GUID} {value : Buffer} {ms : UInt64}
    (hsize : (wireForm (ofFields subject id type value ms []).message).length ≤ 2 ^ 31 - 1) :
    ∃ signature, createSigned kp seed subject type value ms = .ok (ofFields subject id type value ms signature) ∧
      (ofFields subject id type value ms signature).Valid ∧
      (ofFields subject id type value ms signature).verifySignature kp = .ok true := by
  obtain ⟨signature, hsign, hnonempty, hlength, hverify⟩ := hkey.sign seed _ hsize
  have hvalid : (ofFields subject id type value ms signature).Valid :=
    validateMessage_ofFields subject id type value ms signature fun _ => hnonempty
  have hunsigned : (ofFields subject id type value ms []).serializeUnsigned =
      .ok ⟨wireForm (ofFields subject id type value ms []).message, lt_of_le_of_lt hsize (by decide)⟩ :=
    (serializeUnsigned_ok (validateMessage_ofFields subject id type value ms [] nofun)).mpr ⟨hsize, rfl⟩
  refine ⟨signature, ?_, hvalid, ?_⟩
  · rw [createSigned, hkey.nodeID]
    simp only [bind, Except.bind, hunsigned, hsign]
    rfl
  · rw [hvalid.verifySignature_eq hkey.nodeID rfl hsize hlength]
    exact hverify

end Endorsement

end Rsp
