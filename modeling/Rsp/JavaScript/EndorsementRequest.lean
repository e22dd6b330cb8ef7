import Rsp.Endorsement.Signed
import Rsp.JavaScript.Value
import Rsp.Lib.Base64

/-!
# Signed endorsement requests

The Node.js client signs an endorsement request over bytes that it writes itself, field by field, in the wire format of protocol buffers; the C++ service verifies the signature over the deterministic serialization. The client writes every field, also one that proto3 leaves out because it has its default value.
-/

namespace Rsp

open ByteCode Proto

/-! ### The JavaScript serialization -/

namespace JavaScript

/-- `BigInt(value)`. -/
def bigInt : JsValue → Result Int
  | .bigint value => .ok value
  | .boolean value => .ok (if value then 1 else 0)
  | .number (.finite q) =>
    if q.den = 1 then .ok q.num else .error (.error (utf8 "The number cannot be converted to a BigInt"))
  | .string text =>
    let text := trim text
    let value : Option Int :=
      if text.isEmpty then some 0
      else match literalRadix text with
        | some (radix, digits) => (natural radix digits).map Int.ofNat
        | none =>
          let (negative, digits) := splitSign text
          (natural 10 digits).map fun value : Nat => if negative then -(value : Int) else value
    match value with
    | some value => .ok value
    | none => .error (.error (utf8 "Cannot convert to a BigInt"))
  | _ => .error .typeError

/-- The loop of `encodeVarintUnsigned`. -/
def varintLoop (remaining : Nat) : Bytes :=
  if remaining / 128 ≠ 0 then .ofNat (remaining % 128 + 128) :: varintLoop (remaining / 128)
  else [.ofNat (remaining % 128)]
termination_by remaining
decreasing_by omega

def encodeVarintUnsigned (value : Int) : Result Bytes :=
  if value < 0 then .error (.error (utf8 "varint value must be non-negative")) else .ok (varintLoop value.toNat)

def encodeTag (fieldNumber wireType : Nat) : Result Bytes := encodeVarintUnsigned (fieldNumber * 8 + wireType)

def encodeLengthDelimitedField (fieldNumber : Nat) (payload : Bytes) : Result Bytes := do
  return (← encodeTag fieldNumber 2) ++ (← encodeVarintUnsigned payload.length) ++ payload

/-- `Buffer.from(value, 'base64')`. -/
def bufferFromBase64 : JsValue → Result Bytes
  | .string text => .ok (Base64.decodeLenient text)
  | .buffer bytes => .ok bytes
  | _ => .error .typeError

def serializeUuidLike (b64Value : JsValue) : Result Bytes := do
  encodeLengthDelimitedField 1 (← bufferFromBase64 b64Value)

def serializeDateTimeMessage (millisecondsSinceEpoch : JsValue) : Result Bytes := do
  return (← encodeTag 1 0) ++ (← encodeVarintUnsigned (← bigInt millisecondsSinceEpoch))

/-- `value || ''`. -/
def orEmptyString (value : JsValue) : JsValue := if value.isTruthy then value else .string []

def serializeUnsignedEndorsement (endorsement : JsValue) : Result Bytes := do
  let valueOf (field : String) : JsValue := (endorsement.get (utf8 field)).get (utf8 "value")
  let subject ← encodeLengthDelimitedField 1 (← serializeUuidLike (valueOf "subject"))
  let service ← encodeLengthDelimitedField 2 (← serializeUuidLike (valueOf "endorsement_service"))
  let type ← encodeLengthDelimitedField 3 (← serializeUuidLike (valueOf "endorsement_type"))
  let value ← encodeLengthDelimitedField 4
    (← bufferFromBase64 (orEmptyString (endorsement.get (utf8 "endorsement_value"))))
  let validUntil ← encodeLengthDelimitedField 5
    (← serializeDateTimeMessage ((endorsement.get (utf8 "valid_until")).get (utf8 "milliseconds_since_epoch")))
  return subject ++ service ++ type ++ value ++ validUntil

/-! ### The same encoding of integers -/

theorem varintLoop_eq (n : Nat) : varintLoop n = Wire.varint n := by
  induction n using Nat.strong_induction_on with
  | _ n ih =>
    rw [varintLoop]
    split_ifs with hrest
    · rw [Wire.varint_of_le (by omega), ih (n / 128) (by omega)]
    · have hlt : n < 128 := by omega
      rw [Wire.varint_of_lt hlt, Nat.mod_eq_of_lt hlt]

theorem encodeVarintUnsigned_natCast (n : Nat) : encodeVarintUnsigned n = .ok (Wire.varint n) := by
  rw [encodeVarintUnsigned, if_neg (by omega), Int.toNat_natCast, varintLoop_eq]

theorem encodeTag_eq (number wireType : Nat) : encodeTag number wireType = .ok (Wire.key number wireType) := by
  have hcast : ((number : Int) * 8 + wireType) = ((number * 8 + wireType : Nat) : Int) := by push_cast; rfl
  rw [encodeTag, hcast, encodeVarintUnsigned_natCast, Wire.key]

theorem encodeLengthDelimitedField_eq (number : Nat) (payload : Bytes) :
    encodeLengthDelimitedField number payload = .ok (Wire.lengthDelimited number payload) := by
  rw [encodeLengthDelimitedField, encodeTag_eq, encodeVarintUnsigned_natCast]
  rfl

/-! ### The same endorsement in both languages -/

/-- The object has the fields of the message: identifiers and value in base64, the time as anything `BigInt` takes. -/
structure Describes (object : JsValue) (m : Proto.Endorsement) : Prop where
  subject : bufferFromBase64 ((object.get (utf8 "subject")).get (utf8 "value")) = .ok (nodeIdValue m.subject)
  endorsementService :
    bufferFromBase64 ((object.get (utf8 "endorsement_service")).get (utf8 "value")) = .ok (nodeIdValue m.endorsementService)
  endorsementType :
    bufferFromBase64 ((object.get (utf8 "endorsement_type")).get (utf8 "value")) = .ok (uuidValue m.endorsementType)
  endorsementValue :
    bufferFromBase64 (orEmptyString (object.get (utf8 "endorsement_value"))) = .ok m.endorsementValue
  validUntil : bigInt ((object.get (utf8 "valid_until")).get (utf8 "milliseconds_since_epoch")) =
    .ok (m.validUntil.getD {}).millisecondsSinceEpoch.toNat

theorem serializeUnsignedEndorsement_eq {object : JsValue} {m : Proto.Endorsement} (h : Describes object m) :
    serializeUnsignedEndorsement object =
      .ok (wireIds (nodeIdValue m.subject) (nodeIdValue m.endorsementService) (uuidValue m.endorsementType) ++
        Wire.lengthDelimited 4 m.endorsementValue ++
        Wire.lengthDelimited 5
          (Wire.key 1 0 ++ Wire.varint (m.validUntil.getD {}).millisecondsSinceEpoch.toNat)) := by
  have hdate : serializeDateTimeMessage ((object.get (utf8 "valid_until")).get (utf8 "milliseconds_since_epoch")) =
      .ok (Wire.key 1 0 ++ Wire.varint (m.validUntil.getD {}).millisecondsSinceEpoch.toNat) := by
    rw [serializeDateTimeMessage, encodeTag_eq, h.validUntil]
    simp only [bind, Except.bind, encodeVarintUnsigned_natCast]
    rfl
  simp only [serializeUnsignedEndorsement, serializeUuidLike, h.subject, h.endorsementService, h.endorsementType,
    h.endorsementValue, hdate, encodeLengthDelimitedField_eq, bind, Except.bind, pure, Except.pure, wireIds]

/-- The size of the serialization, for a value that is not empty and a time that is not zero. -/
def requestSize (valueSize milliseconds : Nat) : Nat :=
  64 + (Wire.varint valueSize).length + valueSize + (Wire.varint milliseconds).length

/-- A time of zero is an empty message in C++ and a field with the value zero in JavaScript. -/
theorem length_validUntil (ms : UInt64) :
    (Wire.lengthDelimited 5 (Wire.uint64Field 1 ms)).length ≤
      (Wire.lengthDelimited 5 (Wire.key 1 0 ++ Wire.varint ms.toNat)).length ∧
    ((Wire.lengthDelimited 5 (Wire.uint64Field 1 ms)).length =
      (Wire.lengthDelimited 5 (Wire.key 1 0 ++ Wire.varint ms.toNat)).length ↔ ms ≠ 0) := by
  by_cases hzero : ms = 0
  · subst hzero
    have hserver : (Wire.lengthDelimited 5 (Wire.uint64Field 1 0)).length = 2 := by decide
    have hclient : (Wire.lengthDelimited 5 (Wire.key 1 0 ++ Wire.varint (0 : UInt64).toNat)).length = 4 := by decide
    rw [hserver, hclient]
    simp
  · rw [Wire.uint64Field, if_neg hzero]
    exact ⟨le_rfl, iff_of_true rfl hzero⟩

theorem wire_eq_iff (ids value : Bytes) (ms : UInt64) :
    ids ++ Wire.lengthDelimited 4 value ++ Wire.lengthDelimited 5 (Wire.key 1 0 ++ Wire.varint ms.toNat) =
      ids ++ Wire.bytesField 4 value ++ Wire.lengthDelimited 5 (Wire.uint64Field 1 ms) ↔ value ≠ [] ∧ ms ≠ 0 := by
  obtain ⟨hle, hdate⟩ := length_validUntil ms
  constructor
  · intro heq
    have hlength := congrArg List.length heq
    simp only [List.length_append] at hlength
    by_cases hvalue : value = []
    · -- the client writes two bytes for the empty value
      subst hvalue
      have hclient : (Wire.lengthDelimited 4 []).length = 2 := by decide
      have hserver : (Wire.bytesField 4 []).length = 0 := rfl
      rw [hclient, hserver] at hlength
      omega
    · refine ⟨hvalue, hdate.mp ?_⟩
      rw [Wire.bytesField, if_neg (by simpa using hvalue)] at hlength
      omega
  · rintro ⟨hvalue, hms⟩
    rw [Wire.bytesField, if_neg (by simpa using hvalue), Wire.uint64Field, if_neg hms]

theorem length_wireForm {m : Proto.Endorsement} (h : Endorsement.validateMessage m false = .ok ())
    (hvalue : m.endorsementValue ≠ []) (hms : (m.validUntil.getD {}).millisecondsSinceEpoch ≠ 0) :
    (Endorsement.wireForm { m with signature := [] }).length =
      requestSize m.endorsementValue.length (m.validUntil.getD {}).millisecondsSinceEpoch.toNat := by
  obtain ⟨⟨subject, hsubject, hsubjectLength⟩, ⟨service, hservice, hserviceLength⟩, ⟨type, htype, htypeLength⟩, -, -⟩ :=
    validateMessage_ok.mp h
  rw [wireForm_unsigned h, hsubject, hservice, htype]
  generalize (m.validUntil.getD {}).millisecondsSinceEpoch = ms at hms ⊢
  have hgroups : (Wire.varint ms.toNat).length ≤ 10 :=
    Wire.length_varint_le (lt_of_lt_of_le ms.toNat_lt (by decide))
  have htime : (Wire.lengthDelimited 5 (Wire.uint64Field 1 ms)).length = 3 + (Wire.varint ms.toNat).length := by
    rw [Wire.length_lengthDelimited (by omega), Wire.uint64Field, if_neg hms, List.length_append, Wire.length_key (by omega),
      Wire.varint_of_lt (by omega)]
    simp only [List.length_cons, List.length_nil]
    omega
  have hids : (wireIds (nodeIdValue (some ⟨subject⟩)) (nodeIdValue (some ⟨service⟩)) (uuidValue (some ⟨type⟩))).length =
      60 := length_wireIds hsubjectLength hserviceLength htypeLength
  rw [List.length_append, List.length_append, htime, hids, Wire.bytesField, if_neg (by simpa using hvalue),
    Wire.length_lengthDelimited (by omega), requestSize]
  omega

/-- **Endorsement requests.** The bytes the client signs are the bytes the service verifies exactly when the value is not empty, the time is not zero, and the request is not too large for protocol buffers. -/
theorem unsigned_request_eq_iff {object : JsValue} {m : Proto.Endorsement}
    (hvalid : Endorsement.validateMessage m false = .ok ()) (hdescribes : Describes object m) :
    (∃ buffer, serializeUnsignedEndorsement object = .ok buffer.val ∧ Endorsement.serializeUnsigned ⟨m⟩ = .ok buffer) ↔
      m.endorsementValue ≠ [] ∧ (m.validUntil.getD {}).millisecondsSinceEpoch ≠ 0 ∧
        requestSize m.endorsementValue.length (m.validUntil.getD {}).millisecondsSinceEpoch.toNat ≤ 2 ^ 31 - 1 := by
  have hclient := serializeUnsignedEndorsement_eq hdescribes
  have hserver := wireForm_unsigned hvalid
  have hsame := wire_eq_iff (wireIds (nodeIdValue m.subject) (nodeIdValue m.endorsementService)
    (uuidValue m.endorsementType)) m.endorsementValue (m.validUntil.getD {}).millisecondsSinceEpoch
  rw [← hserver] at hsame
  constructor
  · rintro ⟨buffer, hbuffer, hunsigned⟩
    obtain ⟨hsize, hbytes⟩ := (serializeUnsigned_ok hvalid).mp hunsigned
    rw [hclient, hbytes] at hbuffer
    obtain ⟨hvalue, hms⟩ := hsame.mp (Except.ok.inj hbuffer)
    exact ⟨hvalue, hms, length_wireForm hvalid hvalue hms ▸ hsize⟩
  · rintro ⟨hvalue, hms, hsize⟩
    rw [← length_wireForm hvalid hvalue hms] at hsize
    refine ⟨⟨_, lt_of_le_of_lt hsize (by omega)⟩, ?_, (serializeUnsigned_ok hvalid).mpr ⟨hsize, rfl⟩⟩
    rw [hclient, hsame.mpr ⟨hvalue, hms⟩]

/-- A request of the node zero to itself, with the given value in base64. -/
def requestObjectOf (value : Bytes) : JsValue :=
  let id : JsValue := .object [(utf8 "value", .string (utf8 "AAAAAAAAAAAAAAAAAAAAAA=="))]
  .object [(utf8 "subject", id), (utf8 "endorsement_service", id), (utf8 "endorsement_type", id),
    (utf8 "endorsement_value", .string value),
    (utf8 "valid_until", .object [(utf8 "milliseconds_since_epoch", .bigint 1)])]

def requestMessageOf (value : Bytes) : Proto.Endorsement :=
  { subject := some ⟨List.replicate 16 0⟩, endorsementService := some ⟨List.replicate 16 0⟩,
    endorsementType := some ⟨List.replicate 16 0⟩, endorsementValue := value, validUntil := some ⟨1⟩ }

/-- A request for an endorsement without a value is signed over two bytes more than are verified. -/
theorem emptyValue_not_verified :
    Endorsement.validateMessage (requestMessageOf []) false = .ok () ∧
      Describes (requestObjectOf []) (requestMessageOf []) ∧
      ¬ ∃ buffer, serializeUnsignedEndorsement (requestObjectOf []) = .ok buffer.val ∧
        Endorsement.serializeUnsigned ⟨requestMessageOf []⟩ = .ok buffer := by
  have hvalid : Endorsement.validateMessage (requestMessageOf []) false = .ok () := by decide
  have hdescribes : Describes (requestObjectOf []) (requestMessageOf []) := ⟨rfl, rfl, rfl, rfl, rfl⟩
  refine ⟨hvalid, hdescribes, ?_⟩
  rintro ⟨buffer, hclient, hserver⟩
  obtain ⟨-, hbytes⟩ := (serializeUnsigned_ok hvalid).mp hserver
  rw [serializeUnsignedEndorsement_eq hdescribes, hbytes, wireForm_unsigned hvalid] at hclient
  exact ((wire_eq_iff _ _ _).mp (Except.ok.inj hclient)).1 rfl

theorem unsigned_request_eq_iff_one :
    ∃ buffer, serializeUnsignedEndorsement (requestObjectOf (utf8 "AQ==")) = .ok buffer.val ∧
      Endorsement.serializeUnsigned ⟨requestMessageOf [1]⟩ = .ok buffer := by
  have hvalid : Endorsement.validateMessage (requestMessageOf [1]) false = .ok () := by decide
  have hdescribes : Describes (requestObjectOf (utf8 "AQ==")) (requestMessageOf [1]) := ⟨rfl, rfl, rfl, rfl, rfl⟩
  refine (unsigned_request_eq_iff hvalid hdescribes).mpr ⟨by decide, by decide, ?_⟩
  have hsize : requestSize 1 1 = 67 := by decide
  exact hsize.trans_le (by decide)

end JavaScript

end Rsp
