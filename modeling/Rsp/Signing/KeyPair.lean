import Rsp.Signing.Hash

/-!
# Key pairs and message signatures

The class `KeyPair` and the message level functions of `mq_signing.cpp` on top of it. The cryptographic library is outside the repository and enters as the structure `Crypto`; signing takes a `seed`, since ECDSA signatures are randomized. A `KeyPair` only ever holds a P-256 key: its constructor checks the curve, so the check is a field here.
-/

namespace Rsp

open Proto

/-- The parts of the cryptographic library the code calls. -/
structure Crypto where
  /-- `EVP_PKEY`. -/
  Key : Type
  /-- `SHA256`. -/
  sha256 : Bytes → Bytes
  sha256_length : ∀ input, (sha256 input).length = 32
  /-- `PEM_read_bio_PUBKEY`. -/
  readPublicKey : Bytes → Option Key
  /-- `PEM_write_bio_PUBKEY`. -/
  writePublicKey : Key → Option Bytes
  /-- `i2d_PUBKEY`. -/
  publicKeyDer : Key → Option Bytes
  /-- `EVP_PKEY_id` is `EVP_PKEY_EC`. -/
  isEC : Key → Bool
  /-- `EVP_PKEY_get1_EC_KEY` succeeds. -/
  hasECKey : Key → Bool
  /-- The curve is `NID_X9_62_prime256v1`. -/
  onP256 : Key → Bool
  hasPrivateKey : Key → Bool
  /-- `EVP_DigestSign`. -/
  digestSign : Key → (seed : Nat) → Bytes → Option Bytes
  /-- `EVP_DigestVerifyFinal`: valid, invalid or an error. -/
  digestVerify : Key → Bytes → (signature : Bytes) → Option Bool
  /-- `EVP_PKEY_keygen` on the P-256 curve. -/
  generateKey : (seed : Nat) → Option Key
  /-- `EVP_PKEY_derive`; an empty secret counts as a failure. -/
  deriveSharedSecret : Key → (peer : Key) → Option Bytes

/-- A library whose keys are single bytes, whose hash pads and whose signatures repeat the signed text. It has the functional behaviour the code relies on, and none of the security. -/
def sampleCrypto : Crypto where
  Key := UInt8
  sha256 input := (input ++ List.replicate 32 0).take 32
  sha256_length input := by simp
  readPublicKey bytes := bytes.head?
  writePublicKey k := some [k]
  publicKeyDer k := some [k]
  isEC _ := true
  hasECKey _ := true
  onP256 _ := true
  hasPrivateKey _ := true
  digestSign k _ message := some (k :: message)
  digestVerify k message signature := some (signature == k :: message)
  generateKey seed := some seed.toUInt8
  deriveSharedSecret k peer := some [k + peer]

def verifyP256 (C : Crypto) (k : C.Key) : Except Fault Unit :=
  if !C.isEC k then .error (.runtimeError "key is not an EC key")
  else if !C.hasECKey k then .error (.runtimeError "failed to access EC key")
  else if !C.onP256 k then .error (.runtimeError "key is not on the P-256 curve")
  else .ok ()

/-- What the library documents for a key on the curve: its public part survives the export, and what it signs verifies under the exported part. -/
def Crypto.RoundTrips (C : Crypto) : Prop :=
  ∀ k, verifyP256 C k = .ok () → ∃ pem exported der, C.writePublicKey k = some pem ∧ pem ≠ [] ∧
    C.readPublicKey pem = some exported ∧ verifyP256 C exported = .ok () ∧
    C.publicKeyDer k = some der ∧ C.publicKeyDer exported = some der ∧
    ∀ seed m, C.hasPrivateKey k = true →
      ∃ signature, C.digestSign k seed m = some signature ∧ C.digestVerify exported m signature = some true

theorem sampleCrypto_roundTrips : sampleCrypto.RoundTrips := fun k _ =>
  ⟨[k], k, [k], rfl, by simp, rfl, rfl, rfl, rfl, fun _ m _ => ⟨k :: m, rfl, by simp [sampleCrypto]⟩⟩

structure KeyPair (C : Crypto) where
  key : Option C.Key
  p256 : ∀ k ∈ key, verifyP256 C k = .ok ()

namespace KeyPair

variable {C : Crypto}

def isValid (kp : KeyPair C) : Bool := kp.key.isSome

def hasPrivateKey (kp : KeyPair C) : Bool :=
  match kp.key with
  | none => false
  | some k => C.hasPrivateKey k

/-- The constructor. -/
def ofKey (k : C.Key) : Except Fault (KeyPair C) :=
  match h : verifyP256 C k with
  | .ok () => .ok ⟨some k, by simpa using h⟩
  | .error fault => .error fault

def generateP256 (C : Crypto) (seed : Nat) : Except Fault (KeyPair C) :=
  match C.generateKey seed with
  | none => .error (.runtimeError "failed to generate P-256 keypair")
  | some k => ofKey k

def fromPublicKey (publicKey : PublicKey) : Except Fault (KeyPair C) :=
  if publicKey.algorithm ≠ .p256 then .error (.runtimeError "unsupported public key algorithm")
  else if publicKey.publicKey.isEmpty then .error (.runtimeError "public key bytes are empty")
  else match C.readPublicKey publicKey.publicKey with
    | none => .error (.runtimeError "failed to parse public key bytes")
    | some k => ofKey k

/-- The first 16 bytes of the hash of the public key. -/
def nodeID (kp : KeyPair C) : Except Fault NodeID :=
  match kp.key with
  | none => .error (.runtimeError "cannot derive a NodeID from an empty keypair")
  | some k =>
    match C.publicKeyDer k with
    | none => .error (.runtimeError "failed to serialize public key for NodeID hashing")
    | some der => .ok ⟨readBe64 ((C.sha256 der).take 8), readBe64 (((C.sha256 der).drop 8).take 8)⟩

def publicKey (kp : KeyPair C) : Except Fault PublicKey :=
  match kp.key with
  | none => .error (.runtimeError "cannot export a public key from an empty keypair")
  | some k =>
    match C.writePublicKey k with
    | none => .error (.runtimeError "failed to serialize public key")
    | some bytes => .ok { algorithm := .p256, publicKey := bytes }

def sign (kp : KeyPair C) (seed : Nat) (message : Bytes) : Except Fault Bytes :=
  match kp.key with
  | none => .error (.runtimeError "cannot sign with an empty keypair")
  | some k =>
    if !C.hasPrivateKey k then .error (.runtimeError "cannot sign with a public-only keypair")
    else match C.digestSign k seed message with
      | none => .error (.runtimeError "failed to finalize signature generation")
      | some signature => .ok signature

def signBlock (kp : KeyPair C) (seed : Nat) (message : Bytes) : Except Fault SignatureBlock := do
  let signature ← kp.sign seed message
  let signer ← kp.nodeID
  return { signer := some ⟨signer.toBigEndian⟩, algorithm := .p256, signature := signature }

def verify (kp : KeyPair C) (message signature : Bytes) : Except Fault Bool :=
  match kp.key with
  | none => .error (.runtimeError "cannot verify with an empty keypair")
  | some k =>
    match C.digestVerify k message signature with
    | none => .error (.runtimeError "failed to finalize signature verification")
    | some valid => .ok valid

def deserializeNodeIdBytes (value : Bytes) : Except Fault NodeID :=
  match GUID.ofBigEndian value with
  | none => .error (.runtimeError "signature block signer has an invalid NodeID length")
  | some id => .ok id

def verifyBlock (kp : KeyPair C) (message : Bytes) (block : SignatureBlock) : Except Fault Bool :=
  if !kp.isValid then .error (.runtimeError "cannot verify with an empty keypair")
  else if block.algorithm ≠ .p256 then .ok false
  else do
    let signer ← deserializeNodeIdBytes (block.signer.getD {}).value
    let own ← kp.nodeID
    if signer ≠ own then return false else kp.verify message block.signature

/-- An accepted block names this very key and its signature is valid. -/
theorem verifyBlock_eq_true {kp : KeyPair C} {message : Bytes} {block : SignatureBlock}
    (h : kp.verifyBlock message block = .ok true) :
    ∃ id signer, block.signer = some signer ∧ GUID.ofBigEndian signer.value = some id ∧ kp.nodeID = .ok id ∧
      kp.verify message block.signature = .ok true := by
  unfold verifyBlock at h
  split_ifs at h with hvalid halg
  · simp at h
  · obtain ⟨signer, hsigner, h⟩ := bind_eq_ok.mp h
    obtain ⟨own, hown, h⟩ := bind_eq_ok.mp h
    split_ifs at h with hne
    · cases h
    · rw [not_not] at hne
      unfold deserializeNodeIdBytes at hsigner
      cases hid : GUID.ofBigEndian (block.signer.getD {}).value with
      | none => simp [hid] at hsigner
      | some id =>
        rw [hid, Except.ok.injEq] at hsigner
        cases hb : block.signer with
        | none => simp [hb, GUID.ofBigEndian] at hid
        | some s =>
          rw [hb, Option.getD_some] at hid
          exact ⟨id, s, rfl, hid, by rw [hown, hsigner, hne], h⟩

theorem ofKey_eq_ok {k : C.Key} (h : verifyP256 C k = .ok ()) : ofKey k = .ok ⟨some k, by simpa using h⟩ := by
  unfold ofKey
  split
  · rfl
  · next fault hfault =>
    rw [h] at hfault
    cases hfault

theorem signBlock_eq_ok {kp : KeyPair C} {seed : Nat} {message signature : Bytes} {id : NodeID}
    (hsign : kp.sign seed message = .ok signature) (hid : kp.nodeID = .ok id) :
    kp.signBlock seed message = .ok { signer := some ⟨id.toBigEndian⟩, algorithm := .p256, signature := signature } := by
  simp only [signBlock, hsign, hid]
  rfl

theorem verifyBlock_of_verify {kp : KeyPair C} {message signature : Bytes} {id : NodeID} (hid : kp.nodeID = .ok id)
    (hverify : kp.verify message signature = .ok true) :
    kp.verifyBlock message { signer := some ⟨id.toBigEndian⟩, algorithm := .p256, signature := signature } =
      .ok true := by
  have hvalid : kp.isValid = true := by
    cases hkey : kp.key with
    | none => simp [verify, hkey] at hverify
    | some k => simp [isValid, hkey]
  simp only [verifyBlock, hvalid, deserializeNodeIdBytes, Option.getD_some, GUID.ofBigEndian_toBigEndian, hid]
  simpa [bind, Except.bind] using hverify

/-- A signature block verifies under the exported public key. -/
theorem signBlock_verifies (hC : C.RoundTrips) {kp : KeyPair C} (hprivate : kp.hasPrivateKey = true) :
    ∃ (publicKey : PublicKey) (exported : KeyPair C) (id : NodeID), kp.publicKey = .ok publicKey ∧
      fromPublicKey publicKey = .ok exported ∧ exported.nodeID = .ok id ∧
      ∀ seed m, ∃ block, kp.signBlock seed m = .ok block ∧ exported.verifyBlock m block = .ok true := by
  cases hkey : kp.key with
  | none => simp [hasPrivateKey, hkey] at hprivate
  | some k =>
    have hk : C.hasPrivateKey k = true := by simpa [hasPrivateKey, hkey] using hprivate
    obtain ⟨pem, exported, der, hwrite, hpem, hread, hexported, hder, hexportedDer, hsign⟩ :=
      hC k (kp.p256 k hkey)
    have hid : kp.nodeID = .ok ⟨readBe64 ((C.sha256 der).take 8), readBe64 (((C.sha256 der).drop 8).take 8)⟩ := by
      simp [nodeID, hkey, hder]
    have hexportedId : (⟨some exported, by simpa using hexported⟩ : KeyPair C).nodeID =
        .ok ⟨readBe64 ((C.sha256 der).take 8), readBe64 (((C.sha256 der).drop 8).take 8)⟩ := by
      simp [nodeID, hexportedDer]
    refine ⟨{ algorithm := .p256, publicKey := pem }, ⟨some exported, by simpa using hexported⟩, _, ?_, ?_,
      hexportedId, fun seed m => ?_⟩
    · simp [publicKey, hkey, hwrite]
    · simp [fromPublicKey, hpem, hread, ofKey_eq_ok hexported]
    · obtain ⟨signature, hsigned, hverified⟩ := hsign seed m hk
      have hkpSign : kp.sign seed m = .ok signature := by simp [sign, hkey, hk, hsigned]
      have hexportedVerify : (⟨some exported, by simpa using hexported⟩ : KeyPair C).verify m signature = .ok true := by
        simp [verify, hverified]
      exact ⟨_, signBlock_eq_ok hkpSign hid, verifyBlock_of_verify hexportedId hexportedVerify⟩

end KeyPair

/-! ### Messages -/

section

variable (pb : Protobuf) {C : Crypto}

/-- `computeMessageHash`. -/
def computeMessageHash (C : Crypto) (m : RSPMessage) : Except Fault Bytes := do
  return C.sha256 (← hashRSPMessage pb m)

def signMessage (kp : KeyPair C) (seed : Nat) (m : RSPMessage) : Except Fault SignatureBlock := do
  kp.signBlock seed (← computeMessageHash pb C m)

def verifyMessageSignature (kp : KeyPair C) (m : RSPMessage) (block : SignatureBlock) : Except Fault Bool := do
  kp.verifyBlock (← computeMessageHash pb C m) block

end

def nodeIdFromSourceField (id : NodeId) : Option NodeID := GUID.ofNative id.value

def nodeIdFromSignerField (id : NodeId) : Option NodeID := GUID.ofBigEndian id.value

/-- The signer when it is well formed, else the source field. -/
def senderNodeIdFromMessage (m : RSPMessage) : Option NodeID :=
  match m.signature.bind fun block => block.signer.bind nodeIdFromSignerField with
  | some id => some id
  | none => m.source.bind nodeIdFromSourceField

def toProtoNodeId (id : NodeID) : NodeId := ⟨id.toNative⟩

theorem eq_of_nodeIdFromSourceField (a : NodeID) {b : NodeID} (h : nodeIdFromSourceField (toProtoNodeId a) = some b) :
    a = b :=
  Option.some.inj ((GUID.ofNative_toNative a).symm.trans h)

theorem toProtoNodeId_injective : Function.Injective toProtoNodeId := by
  intro a b h
  exact GUID.toNative_injective (NodeId.mk.inj h)

/-- The key pair of one byte. -/
def sampleKeyPair (k : UInt8) : KeyPair sampleCrypto := ⟨some k, fun _ _ => rfl⟩

theorem senderNodeIdFromMessage_of_signer {m : RSPMessage} {block : SignatureBlock} {signer : NodeId} {id : NodeID}
    (hblock : m.signature = some block) (hsigner : block.signer = some signer)
    (hid : GUID.ofBigEndian signer.value = some id) : senderNodeIdFromMessage m = some id := by
  simp [senderNodeIdFromMessage, hblock, hsigner, nodeIdFromSignerField, hid]

end Rsp
