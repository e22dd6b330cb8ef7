import Rsp.Endorsement.Evaluate
import Rsp.Endorsement.TextRoundTrip
import Rsp.Lib.Reader
import Rsp.Signing.KeyPair

/-!
# Rules that name a node

The texts `DESTINATION(id)` and `SOURCE(id)` compare the bytes that `uuidToBytes` makes of the printed identifier with a field of the message. The text is read in big-endian order, as the signer of a signature block is written; the destination is written in the order of the machine, so that a `DESTINATION` rule means the node whose identifier has the bytes of each half reversed.
-/

namespace Rsp

open ByteCode RecursiveDescent Proto ErdText

/-! ### Printed identifiers -/

theorem hexPair_eq (b : UInt8) : hexPair b = hexDigits 2 b.toNat := by
  revert b
  decide +kernel

theorem hexDigits_add_two (width value : Nat) :
    hexDigits (width + 2) value = hexDigits width (value / 2 ^ 8) ++ hexPair (UInt8.ofNat value) := by
  have hlow : (UInt8.ofNat value).toNat = value % 256 := UInt8.toNat_ofNat'
  have hhigh : value / 16 / 16 = value / 2 ^ 8 := by omega
  have hfirst : value % 256 / 16 % 16 = value / 16 % 16 := by omega
  have hsecond : value % 256 % 16 = value % 16 := by omega
  rw [hexPair_eq, hlow]
  simp only [hexDigits, hhigh, hfirst, hsecond, List.append_assoc, List.nil_append]

theorem ofNat_eq_ofNat {a b : Nat} (h : a % 256 = b % 256) : UInt8.ofNat a = UInt8.ofNat b := by
  rw [← UInt8.toNat_inj, UInt8.toNat_ofNat', UInt8.toNat_ofNat']
  exact h

theorem hexDigits_four (value : Nat) :
    hexDigits 4 value = hexPair (.ofNat (value / 2 ^ 8)) ++ hexPair (.ofNat value) := by
  rw [hexDigits_add_two, hexDigits_add_two]
  rfl

theorem hexDigits_eight (value : Nat) :
    hexDigits 8 value = hexPair (.ofNat (value / 2 ^ 24)) ++ hexPair (.ofNat (value / 2 ^ 16)) ++
      hexPair (.ofNat (value / 2 ^ 8)) ++ hexPair (.ofNat value) := by
  have hthird : value / 2 ^ 8 / 2 ^ 8 / 2 ^ 8 = value / 2 ^ 24 := by omega
  have hsecond : value / 2 ^ 8 / 2 ^ 8 = value / 2 ^ 16 := by omega
  rw [hexDigits_add_two, hexDigits_add_two, hexDigits_four, hthird, hsecond]

theorem hexDigits_twelve (value : Nat) :
    hexDigits 12 value = hexPair (.ofNat (value / 2 ^ 40)) ++ hexPair (.ofNat (value / 2 ^ 32)) ++
      hexPair (.ofNat (value / 2 ^ 24)) ++ hexPair (.ofNat (value / 2 ^ 16)) ++ hexPair (.ofNat (value / 2 ^ 8)) ++
      hexPair (.ofNat value) := by
  have hsecond : value / 2 ^ 8 / 2 ^ 8 = value / 2 ^ 16 := by omega
  have hthird : value / 2 ^ 16 / 2 ^ 8 = value / 2 ^ 24 := by omega
  have hfourth : value / 2 ^ 16 / 2 ^ 16 = value / 2 ^ 32 := by omega
  have hfifth : value / 2 ^ 16 / 2 ^ 24 = value / 2 ^ 40 := by omega
  rw [hexDigits_add_two, hexDigits_add_two, hexDigits_eight, hsecond, hthird, hfourth, hfifth]

theorem be64_eq_ofNat (value : UInt64) :
    be64 value = [.ofNat (value.toNat / 2 ^ 56), .ofNat (value.toNat / 2 ^ 48), .ofNat (value.toNat / 2 ^ 40),
      .ofNat (value.toNat / 2 ^ 32), .ofNat (value.toNat / 2 ^ 24), .ofNat (value.toNat / 2 ^ 16),
      .ofNat (value.toNat / 2 ^ 8), .ofNat value.toNat] := by
  simp only [be64, List.cons.injEq, and_true, ← UInt8.toNat_inj, UInt64.toNat_toUInt8, UInt64.toNat_shiftRight,
    UInt8.toNat_ofNat', Nat.shiftRight_eq_div_pow, UInt64.reduceToNat, Nat.reduceMod]

/-- The two printers of identifiers agree. -/
theorem bytesToUUID_toBigEndian (id : GUID) : bytesToUUID id.toBigEndian = .ok id.toString := by
  have hlength : ¬ id.toBigEndian.length ≠ 16 := by simp
  have hpair {a b : Nat} (h : a % 256 = b % 256) : hexPair (.ofNat a) = hexPair (.ofNat b) := by
    rw [ofNat_eq_ofNat h]
  have hhigh := id.high.toNat_lt
  rw [bytesToUUID, if_neg hlength, GUID.toBigEndian, be64_eq_ofNat, be64_eq_ofNat, GUID.toString]
  rw [hexDigits_eight, hexDigits_four, hexDigits_four, hexDigits_four, hexDigits_twelve]
  generalize id.high.toNat = high at hhigh
  generalize id.low.toNat = low
  rw [hpair (by omega : high / 2 ^ 32 / 2 ^ 24 % 256 = high / 2 ^ 56 % 256),
    hpair (by omega : high / 2 ^ 32 / 2 ^ 16 % 256 = high / 2 ^ 48 % 256),
    hpair (by omega : high / 2 ^ 32 / 2 ^ 8 % 256 = high / 2 ^ 40 % 256),
    hpair (by omega : high / 2 ^ 16 % 2 ^ 16 / 2 ^ 8 % 256 = high / 2 ^ 24 % 256),
    hpair (by omega : high / 2 ^ 16 % 2 ^ 16 % 256 = high / 2 ^ 16 % 256),
    hpair (by omega : high % 2 ^ 16 / 2 ^ 8 % 256 = high / 2 ^ 8 % 256),
    hpair (by omega : high % 2 ^ 16 % 256 = high % 256),
    hpair (by omega : low / 2 ^ 48 / 2 ^ 8 % 256 = low / 2 ^ 56 % 256),
    hpair (by omega : low % 2 ^ 48 / 2 ^ 40 % 256 = low / 2 ^ 40 % 256),
    hpair (by omega : low % 2 ^ 48 / 2 ^ 32 % 256 = low / 2 ^ 32 % 256),
    hpair (by omega : low % 2 ^ 48 / 2 ^ 24 % 256 = low / 2 ^ 24 % 256),
    hpair (by omega : low % 2 ^ 48 / 2 ^ 16 % 256 = low / 2 ^ 16 % 256),
    hpair (by omega : low % 2 ^ 48 / 2 ^ 8 % 256 = low / 2 ^ 8 % 256),
    hpair (by omega : low % 2 ^ 48 % 256 = low % 256)]
  rfl

/-! ### The two rules -/

def destinationRule (id : NodeID) : Bytes := ascii "DESTINATION(" ++ id.toString ++ ascii ")"

def sourceRule (id : NodeID) : Bytes := ascii "SOURCE(" ++ id.toString ++ ascii ")"

theorem fromString_destinationRule (id : NodeID) :
    fromString (destinationRule id) = .ok (.message (some (destinationEquals id.toBigEndian))) := by
  obtain ⟨text, htext, haccepts⟩ := accepts_argument_uuid id.toBigEndian_length
  obtain rfl := Except.ok.inj ((bytesToUUID_toBigEndian id).symm.trans htext)
  have hrule : ⟨ascii "DESTINATION(", 12, do return .message (some (destinationEquals (← argument parseUUIDBytes))), by decide,
      by decide⟩ ∈ (treeGrammar none).leaves :=
    .tail _ (.tail _ (.tail _ (.tail _ (.tail _ (.head _)))))
  have hleaf := Grammar.accepts_leaf (treeGrammar_delimiting none).forward (treeGrammar_unambiguous none)
    (List.mem_append_right _ hrule) rfl
    (haccepts.bind_end accepts_pure fun _ _ => trivial)
  rw [destinationRule, List.append_assoc]
  exact fromStringWith_of_accepts hleaf.1 hleaf.2

theorem fromString_sourceRule (id : NodeID) :
    fromString (sourceRule id) = .ok (.message (some (sourceEquals id.toBigEndian))) := by
  obtain ⟨text, htext, haccepts⟩ := accepts_argument_uuid id.toBigEndian_length
  obtain rfl := Except.ok.inj ((bytesToUUID_toBigEndian id).symm.trans htext)
  have hrule : ⟨ascii "SOURCE(", 7, do return .message (some (sourceEquals (← argument parseUUIDBytes))), by decide,
      by decide⟩ ∈ (treeGrammar none).leaves :=
    .tail _ (.tail _ (.tail _ (.tail _ (.tail _ (.tail _ (.head _))))))
  have hleaf := Grammar.accepts_leaf (treeGrammar_delimiting none).forward (treeGrammar_unambiguous none)
    (List.mem_append_right _ hrule) rfl
    (haccepts.bind_end accepts_pure fun _ _ => trivial)
  rw [sourceRule, List.append_assoc]
  exact fromStringWith_of_accepts hleaf.1 hleaf.2

variable (pb : Protobuf) (snap : Option SchemaSnapshot)

/-- A rule given as a text, evaluated on a message. -/
def evaluateRule (message : RSPMessage) (text : Bytes) : Except Fault Bool := do
  evaluateMessageRequirementTree pb message snap (← fromString text)

theorem evaluateRule_destination {message : RSPMessage} {destination : NodeId}
    (h : message.destination = some destination) (id : NodeID) :
    evaluateRule pb snap message (destinationRule id) = .ok (destination.value == id.toBigEndian) := by
  rw [evaluateRule, fromString_destinationRule]
  obtain ⟨dest, source, trace, core, service, nonce, signature, endorsements, identities, encrypted⟩ := message
  dsimp only at h
  subst h
  cases snap <;> rfl

theorem evaluateRule_source {message : RSPMessage} {block : SignatureBlock} {signer : NodeId}
    (h : message.signature = some block) (hsigner : block.signer = some signer) (id : NodeID) :
    evaluateRule pb snap message (sourceRule id) = .ok (signer.value == id.toBigEndian) := by
  rw [evaluateRule, fromString_sourceRule]
  obtain ⟨dest, source, trace, core, service, nonce, signature, endorsements, identities, encrypted⟩ := message
  obtain ⟨blockSigner, algorithm, bytes⟩ := block
  dsimp only at h hsigner
  subst h hsigner
  cases snap <;> rfl

/-! ### Which node a rule means -/

/-- The identifier with the bytes of each half reversed. -/
def GUID.byteSwap (id : GUID) : GUID := ⟨readBe64 (le64 id.high), readBe64 (le64 id.low)⟩

theorem GUID.toBigEndian_byteSwap (id : GUID) : id.byteSwap.toBigEndian = id.toNative := by
  rw [GUID.byteSwap, GUID.toBigEndian, be64_readBe64 rfl, be64_readBe64 rfl, GUID.toNative]

theorem destinationRule_iff {message : RSPMessage} {id named : NodeID}
    (h : message.destination = some (toProtoNodeId id)) :
    evaluateRule pb snap message (destinationRule named) = .ok true ↔ named = id.byteSwap := by
  rw [evaluateRule_destination pb snap h, toProtoNodeId, ← GUID.toBigEndian_byteSwap, Except.ok.injEq, beq_iff_eq,
    GUID.toBigEndian_injective.eq_iff]
  exact eq_comm

theorem sourceRule_iff {C : Crypto} {kp : KeyPair C} {seed : Nat} {signed : Bytes} {block : SignatureBlock}
    {message : RSPMessage} {id named : NodeID} (hid : kp.nodeID = .ok id)
    (hblock : kp.signBlock seed signed = .ok block) (h : message.signature = some block) :
    evaluateRule pb snap message (sourceRule named) = .ok true ↔ named = id := by
  rw [KeyPair.signBlock] at hblock
  obtain ⟨signature, -, hblock⟩ := bind_eq_ok.mp hblock
  rw [hid] at hblock
  obtain rfl := Except.ok.inj hblock
  rw [evaluateRule_source pb snap h rfl, Except.ok.injEq, beq_iff_eq, GUID.toBigEndian_injective.eq_iff]
  exact eq_comm

/-- A `SOURCE` rule names the node it means. A `DESTINATION` rule does so just for the pairs of identifiers that the reversal of bytes does not confuse. -/
theorem node_rules_iff {C : Crypto} {kp : KeyPair C} {seed : Nat} {signed : Bytes} {block : SignatureBlock}
    {sent received : RSPMessage} {id named : NodeID} (hdestination : sent.destination = some (toProtoNodeId id))
    (hid : kp.nodeID = .ok id) (hblock : kp.signBlock seed signed = .ok block)
    (hsignature : received.signature = some block) :
    ((evaluateRule pb snap sent (destinationRule named) = .ok true ↔ named = id) ∧
        (evaluateRule pb snap received (sourceRule named) = .ok true ↔ named = id)) ↔
      (named = id ∧ id.byteSwap = id) ∨ (named ≠ id ∧ named ≠ id.byteSwap) := by
  have hsource : evaluateRule pb snap received (sourceRule named) = .ok true ↔ named = id :=
    sourceRule_iff pb snap hid hblock hsignature
  rw [destinationRule_iff pb snap hdestination, and_iff_left hsource]
  constructor
  · intro h
    by_cases hnamed : named = id
    · exact .inl ⟨hnamed, (h.mpr hnamed).symm.trans hnamed⟩
    · exact .inr ⟨hnamed, fun heq => hnamed (h.mp heq)⟩
  · rintro (⟨rfl, hswap⟩ | ⟨hnamed, hswap⟩)
    · exact ⟨fun _ => rfl, fun _ => hswap.symm⟩
    · exact iff_of_false hswap hnamed

/-- The message goes to the node that the rule names, and the rule does not hold. -/
theorem destinationRule_not_named :
    evaluateRule default none { destination := some (toProtoNodeId ⟨1, 0⟩) } (destinationRule ⟨1, 0⟩) = .ok false := by
  rw [evaluateRule_destination default none rfl]
  decide

/-- The identifier of the sample key pair of the byte 1. -/
def ruleSampleId : NodeID := ⟨72057594037927936, 0⟩

def ruleSampleBlock : SignatureBlock :=
  { signer := some ⟨ruleSampleId.toBigEndian⟩, algorithm := .p256, signature := [1, 7] }

/-- Two identifiers that the reversal does not confuse. -/
theorem node_rules_iff_sample :
    ((evaluateRule default none { destination := some (toProtoNodeId ruleSampleId) } (destinationRule ⟨2, 0⟩) = .ok true ↔
          ⟨2, 0⟩ = ruleSampleId) ∧
        (evaluateRule default none { signature := some ruleSampleBlock } (sourceRule ⟨2, 0⟩) = .ok true ↔
          ⟨2, 0⟩ = ruleSampleId)) ↔
      (⟨2, 0⟩ = ruleSampleId ∧ ruleSampleId.byteSwap = ruleSampleId) ∨
        (⟨2, 0⟩ ≠ ruleSampleId ∧ ⟨2, 0⟩ ≠ ruleSampleId.byteSwap) :=
  @node_rules_iff default none sampleCrypto (sampleKeyPair 1) 0 [7] ruleSampleBlock _ _ ruleSampleId ⟨2, 0⟩ rfl rfl rfl
    rfl

end Rsp
