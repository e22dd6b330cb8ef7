import Rsp.Endorsement.Meaning
import Rsp.Lib.Reader

/-!
# The binary format of endorsements

`serializeBinary` and `deserializeBinary` of `endorsement.cpp`: a magic, three identifiers, a time, two lengths and the two byte strings they measure. The reader's offset is kept as the bytes that are left.
-/

namespace Rsp

open ByteCode Proto

/-! ### Buffers -/

/-- The size of a `Buffer` has 32 bits. -/
abbrev Buffer := {bytes : Bytes // bytes.length < 2 ^ 32}

/-- The size is cast to 32 bits. -/
def stringToBuffer (bytes : Bytes) : Buffer :=
  ⟨bytes.take (bytes.length % 2 ^ 32), by
    rw [List.length_take]
    omega⟩

theorem stringToBuffer_of_lt {bytes : Bytes} (h : bytes.length < 2 ^ 32) : stringToBuffer bytes = ⟨bytes, h⟩ := by
  refine Subtype.ext ?_
  have hsize : (stringToBuffer bytes).val = bytes.take (bytes.length % 2 ^ 32) := rfl
  rw [hsize, Nat.mod_eq_of_lt h, List.take_length]

/-! ### `BufferReader` -/

abbrev BufferReader := StateT Bytes (Except Fault)

namespace BufferReader

def readBytes (count : Nat) (fieldName : String) : BufferReader Bytes := fun rest =>
  if rest.length < count then .error (makeError fieldName) else .ok (rest.take count, rest.drop count)

def expectMagic (magic : Bytes) : BufferReader Unit := do
  let bytes ← readBytes magic.length "serialized endorsement missing magic"
  if bytes ≠ magic then throw (makeError "serialized endorsement has invalid magic")

def readUint32 (fieldName : String) : BufferReader UInt32 := do
  let bytes ← readBytes 4 fieldName
  return joinBytes (bytes.getD 0 0) (bytes.getD 1 0) (bytes.getD 2 0) (bytes.getD 3 0)

def readUint64 (fieldName : String) : BufferReader UInt64 := do
  return readBe64 (← readBytes 8 fieldName)

def expectDone : BufferReader Unit := fun rest =>
  if rest.length ≠ 0 then .error (makeError "serialized endorsement has trailing bytes") else .ok ((), rest)

end BufferReader

/-! ### The format -/

def serializedEndorsementMagic : Bytes := ascii "RSE1"

/-- The string that `serializeBinary` builds up. -/
def binaryForm (message : Proto.Endorsement) : Bytes :=
  serializedEndorsementMagic ++ nodeIdValue message.subject ++ nodeIdValue message.endorsementService ++
    uuidValue message.endorsementType ++ be64 (message.validUntil.getD {}).millisecondsSinceEpoch ++
    be32 (.ofNat message.endorsementValue.length) ++ be32 (.ofNat message.signature.length) ++
    message.endorsementValue ++ message.signature

def serializeBinary (message : Proto.Endorsement) : Buffer := stringToBuffer (binaryForm message)

def readEndorsement : BufferReader Proto.Endorsement := do
  BufferReader.expectMagic serializedEndorsementMagic
  let subject ← BufferReader.readBytes 16 "serialized endorsement missing subject"
  let endorsementService ← BufferReader.readBytes 16 "serialized endorsement missing endorsement service"
  let endorsementType ← BufferReader.readBytes 16 "serialized endorsement missing endorsement type"
  let validUntil ← BufferReader.readUint64 "serialized endorsement missing valid-until time"
  let endorsementValueSize ← BufferReader.readUint32 "serialized endorsement missing value size"
  let signatureSize ← BufferReader.readUint32 "serialized endorsement missing signature size"
  let endorsementValue ← BufferReader.readBytes endorsementValueSize.toNat "serialized endorsement value truncated"
  let signature ← BufferReader.readBytes signatureSize.toNat "serialized endorsement signature truncated"
  BufferReader.expectDone
  return { subject := some ⟨subject⟩, endorsementService := some ⟨endorsementService⟩,
           endorsementType := some ⟨endorsementType⟩, validUntil := some ⟨validUntil⟩, endorsementValue, signature }

def deserializeBinary (serialized : Buffer) : Except Fault Proto.Endorsement := do
  return (← readEndorsement.run serialized.val).1

namespace Endorsement

def serialize (e : Endorsement) : Except Fault Buffer := do
  validateMessage e.message true
  return serializeBinary e.message

def deserialize (serialized : Buffer) : Except Fault Endorsement := do
  let message ← deserializeBinary serialized
  validateMessage message true
  return ⟨message⟩

end Endorsement

/-! ### What the reader accepts -/

namespace BufferReader

theorem readBytes_ok {count : Nat} {fieldName : String} {bytes a rest : Bytes} :
    readBytes count fieldName bytes = .ok (a, rest) ↔ a.length = count ∧ bytes = a ++ rest := by
  unfold readBytes
  split_ifs with hlength
  · refine iff_of_false (by simp) ?_
    rintro ⟨rfl, rfl⟩
    rw [List.length_append] at hlength
    omega
  · constructor
    · intro h
      obtain ⟨rfl, rfl⟩ := Prod.mk.inj (Except.ok.inj h)
      exact ⟨by rw [List.length_take]; omega, (List.take_append_drop _ _).symm⟩
    · rintro ⟨rfl, rfl⟩
      simp

theorem bind_ok {α β : Type} {reader : BufferReader α} {next : α → BufferReader β} {bytes rest : Bytes} {b : β} :
    (reader >>= next) bytes = .ok (b, rest) ↔
      ∃ a middle, reader bytes = .ok (a, middle) ∧ next a middle = .ok (b, rest) := by
  refine bind_eq_ok.trans ?_
  constructor
  · rintro ⟨⟨a, middle⟩, hread, hnext⟩
    exact ⟨a, middle, hread, hnext⟩
  · rintro ⟨a, middle, hread, hnext⟩
    exact ⟨(a, middle), hread, hnext⟩

theorem pure_ok {α : Type} {a b : α} {bytes rest : Bytes} :
    (pure a : BufferReader α) bytes = .ok (b, rest) ↔ a = b ∧ bytes = rest := by
  refine Iff.trans ⟨Except.ok.inj, congrArg Except.ok⟩ ?_
  exact Prod.mk.injEq .. ▸ Iff.rfl

theorem expectMagic_ok {magic bytes rest : Bytes} {u : Unit} :
    expectMagic magic bytes = .ok (u, rest) ↔ bytes = magic ++ rest := by
  rw [expectMagic, bind_ok]
  constructor
  · rintro ⟨a, middle, hread, hcheck⟩
    obtain ⟨-, rfl⟩ := readBytes_ok.mp hread
    split_ifs at hcheck with hmagic
    · cases hcheck
    · obtain ⟨-, rfl⟩ := pure_ok.mp hcheck
      rw [not_not.mp hmagic]
  · rintro rfl
    refine ⟨magic, rest, readBytes_ok.mpr ⟨rfl, rfl⟩, ?_⟩
    rw [if_neg (by simp)]
    rfl

theorem readUint32_ok {fieldName : String} {bytes rest : Bytes} {value : UInt32} :
    readUint32 fieldName bytes = .ok (value, rest) ↔ bytes = be32 value ++ rest := by
  rw [readUint32, bind_ok]
  constructor
  · rintro ⟨a, middle, hread, hvalue⟩
    obtain ⟨hlength, rfl⟩ := readBytes_ok.mp hread
    obtain ⟨rfl, rfl⟩ := pure_ok.mp hvalue
    rw [be32_joinBytes, getD_of_length_four hlength]
  · rintro rfl
    refine ⟨be32 value, rest, readBytes_ok.mpr ⟨rfl, rfl⟩, pure_ok.mpr ⟨be32_injective ?_, rfl⟩⟩
    rw [be32_joinBytes]
    rfl

theorem readUint64_ok {fieldName : String} {bytes rest : Bytes} {value : UInt64} :
    readUint64 fieldName bytes = .ok (value, rest) ↔ bytes = be64 value ++ rest := by
  rw [readUint64, bind_ok]
  constructor
  · rintro ⟨a, middle, hread, hvalue⟩
    obtain ⟨hlength, rfl⟩ := readBytes_ok.mp hread
    obtain ⟨rfl, rfl⟩ := pure_ok.mp hvalue
    rw [be64_readBe64 hlength]
  · rintro rfl
    exact ⟨be64 value, rest, readBytes_ok.mpr ⟨rfl, rfl⟩, pure_ok.mpr ⟨readBe64_be64 value, rfl⟩⟩

theorem expectDone_ok {bytes rest : Bytes} {u : Unit} :
    expectDone bytes = .ok (u, rest) ↔ bytes = [] ∧ rest = [] := by
  unfold expectDone
  split_ifs with hlength
  · refine iff_of_false (by simp) ?_
    rintro ⟨rfl, -⟩
    exact hlength rfl
  · have hempty : bytes = [] := List.eq_nil_of_length_eq_zero (not_not.mp hlength)
    subst hempty
    constructor
    · intro h
      exact ⟨rfl, (Prod.mk.inj (Except.ok.inj h)).2.symm⟩
    · rintro ⟨-, rfl⟩
      rfl

end BufferReader

/-! ### The format is read back -/

/-- A message that the format can carry. -/
structure HasBinaryForm (m : Proto.Endorsement) : Prop where
  subject : ∃ value, m.subject = some ⟨value⟩ ∧ value.length = 16
  endorsementService : ∃ value, m.endorsementService = some ⟨value⟩ ∧ value.length = 16
  endorsementType : ∃ value, m.endorsementType = some ⟨value⟩ ∧ value.length = 16
  validUntil : m.validUntil.isSome
  endorsementValue : m.endorsementValue.length < 2 ^ 32
  signature : m.signature.length < 2 ^ 32

/-- The reader accepts exactly the binary forms, with nothing after them. -/
theorem readEndorsement_ok {bytes rest : Bytes} {m : Proto.Endorsement} :
    readEndorsement bytes = .ok (m, rest) ↔ HasBinaryForm m ∧ bytes = binaryForm m ∧ rest = [] := by
  unfold readEndorsement
  simp only [BufferReader.bind_ok, BufferReader.expectMagic_ok, BufferReader.readBytes_ok, BufferReader.readUint32_ok,
    BufferReader.readUint64_ok, BufferReader.expectDone_ok, BufferReader.pure_ok]
  constructor
  · rintro ⟨-, _, rfl, subject, _, ⟨hsubject, rfl⟩, service, _, ⟨hservice, rfl⟩, type, _, ⟨htype, rfl⟩, ms, _, rfl,
      valueSize, _, rfl, signatureSize, _, rfl, value, _, ⟨hvalue, rfl⟩, signature, _, ⟨hsignature, rfl⟩, -, _,
      ⟨rfl, rfl⟩, rfl, rfl⟩
    refine ⟨⟨⟨subject, rfl, hsubject⟩, ⟨service, rfl, hservice⟩, ⟨type, rfl, htype⟩, rfl, ?_, ?_⟩, ?_, rfl⟩
    · exact hvalue ▸ valueSize.toNat_lt
    · exact hsignature ▸ signatureSize.toNat_lt
    · simp [binaryForm, nodeIdValue, uuidValue, hvalue, hsignature]
  · rintro ⟨⟨⟨subject, hsubject, hsubjectLength⟩, ⟨service, hservice, hserviceLength⟩, ⟨type, htype, htypeLength⟩, hms,
      hvalue, hsignature⟩, rfl, rfl⟩
    obtain ⟨ms, hms⟩ := Option.isSome_iff_exists.mp hms
    refine ⟨(), _, ?_, subject, _, ⟨hsubjectLength, rfl⟩, service, _, ⟨hserviceLength, rfl⟩, type, _, ⟨htypeLength, rfl⟩,
      ms.millisecondsSinceEpoch, _, rfl, .ofNat m.endorsementValue.length, _, rfl, .ofNat m.signature.length, _, rfl,
      m.endorsementValue, _, ⟨?_, rfl⟩, m.signature, [], ⟨?_, rfl⟩, (), [], ⟨rfl, rfl⟩, ?_, rfl⟩
    · simp [binaryForm, nodeIdValue, uuidValue, hsubject, hservice, htype, hms]
    · rw [UInt32.toNat_ofNat_of_lt' hvalue]
    · rw [UInt32.toNat_ofNat_of_lt' hsignature]
    · rw [← hsubject, ← hservice, ← htype, ← hms]

/-! ### Serialization and back -/

theorem validateMessage_ok {m : Proto.Endorsement} {requireSignature : Bool} :
    Endorsement.validateMessage m requireSignature = .ok () ↔
      (∃ value, m.subject = some ⟨value⟩ ∧ value.length = 16) ∧
      (∃ value, m.endorsementService = some ⟨value⟩ ∧ value.length = 16) ∧
      (∃ value, m.endorsementType = some ⟨value⟩ ∧ value.length = 16) ∧ m.validUntil.isSome = true ∧
      (requireSignature = true → m.signature ≠ []) := by
  have hnode (id : Option NodeId) : id.isSome = true ∧ (nodeIdValue id).length = 16 ↔
      ∃ value, id = some ⟨value⟩ ∧ value.length = 16 := by
    cases id with
    | none => simp
    | some id => exact ⟨fun h => ⟨id.value, rfl, h.2⟩, fun ⟨value, h, hlength⟩ => by cases h; exact ⟨rfl, hlength⟩⟩
  have huuid (id : Option Uuid) : id.isSome = true ∧ (uuidValue id).length = 16 ↔
      ∃ value, id = some ⟨value⟩ ∧ value.length = 16 := by
    cases id with
    | none => simp
    | some id => exact ⟨fun h => ⟨id.value, rfl, h.2⟩, fun ⟨value, h, hlength⟩ => by cases h; exact ⟨rfl, hlength⟩⟩
  rw [← hnode, ← hnode, ← huuid]
  simp only [Endorsement.validateMessage, validateUuidLike, require_eq_ok, beq_iff_eq, Bool.not_eq_true',
    Bool.and_eq_false_iff, List.isEmpty_eq_false_iff]
  cases requireSignature <;> simp only [Bool.false_eq_true, false_implies, true_or, false_or, true_implies, reduceCtorEq] <;>
    tauto

theorem hasBinaryForm {e : Endorsement} (h : e.Valid) (hlength : (binaryForm e.message).length < 2 ^ 32) :
    HasBinaryForm e.message := by
  obtain ⟨hsubject, hservice, htype, hms, -⟩ := validateMessage_ok.mp h
  simp only [binaryForm, List.length_append] at hlength
  exact ⟨hsubject, hservice, htype, hms, by omega, by omega⟩

/-- **The binary format.** A valid endorsement is read back from its serialization, and a buffer that is accepted is the serialization of what it is read as. -/
theorem binary_format_bijective :
    (∀ e : Endorsement, e.Valid → (binaryForm e.message).length < 2 ^ 32 →
      ∃ serialized, e.serialize = .ok serialized ∧ Endorsement.deserialize serialized = .ok e) ∧
    ∀ (serialized : Buffer) (e : Endorsement), Endorsement.deserialize serialized = .ok e →
      e.serialize = .ok serialized := by
  constructor
  · intro e hvalid hlength
    have hform := hasBinaryForm hvalid hlength
    have hvalid : Endorsement.validateMessage e.message true = .ok () := hvalid
    refine ⟨⟨binaryForm e.message, hlength⟩, ?_, ?_⟩
    · rw [Endorsement.serialize, hvalid, serializeBinary, stringToBuffer_of_lt hlength]
      rfl
    · have hread : readEndorsement.run (binaryForm e.message) = .ok (e.message, []) :=
        readEndorsement_ok.mpr ⟨hform, rfl, rfl⟩
      rw [Endorsement.deserialize, deserializeBinary, hread]
      simp only [bind, Except.bind, pure, Except.pure, hvalid]
  · intro serialized e h
    obtain ⟨m, hm, hvalidated⟩ := bind_eq_ok.mp h
    obtain ⟨⟨m', rest⟩, hread, hresult⟩ := bind_eq_ok.mp hm
    obtain rfl := Except.ok.inj hresult
    obtain ⟨_, hvalid, hdone⟩ := bind_eq_ok.mp hvalidated
    obtain rfl := Except.ok.inj hdone
    obtain ⟨-, hbytes, -⟩ := readEndorsement_ok.mp hread
    have hlength : (binaryForm m').length < 2 ^ 32 := hbytes ▸ serialized.property
    rw [Endorsement.serialize, hvalid, serializeBinary, stringToBuffer_of_lt hlength]
    exact congrArg Except.ok (Subtype.ext hbytes.symm)

/-- An endorsement with a short value and a signature of one byte. -/
def storedEndorsement : Endorsement :=
  ⟨{ subject := some ⟨List.replicate 16 1⟩, endorsementService := some ⟨List.replicate 16 2⟩,
     endorsementType := some ⟨List.replicate 16 3⟩, endorsementValue := [7], validUntil := some ⟨1000⟩, signature := [9] }⟩

theorem binary_format_bijective_sample :
    ∃ serialized, storedEndorsement.serialize = .ok serialized ∧
      Endorsement.deserialize serialized = .ok storedEndorsement :=
  binary_format_bijective.1 storedEndorsement (by unfold Endorsement.Valid; decide) (by decide)

end Rsp
