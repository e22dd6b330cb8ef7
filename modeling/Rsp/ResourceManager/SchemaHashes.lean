import Rsp.ResourceManager.Node

/-!
# Hashes in the schema registry

The registry stores a schema under the hash that its advertisement gives, and the first schema under a hash stays. The hash is computed by the services that build their schemas with `buildServiceSchema`, and checked by nobody.
-/

namespace Rsp

open Proto

/-- `buildServiceSchema` of the services. -/
def buildServiceSchema (C : Crypto) (protoFileName descriptorData : Bytes) (schemaVersion : UInt32)
    (acceptedTypeUrls : List Bytes) : ServiceSchema where
  protoFileName := protoFileName
  protoFileDescriptorSet := descriptorData
  acceptedTypeUrls := acceptedTypeUrls
  schemaHash := C.sha256 descriptorData
  schemaVersion := schemaVersion

namespace SchemaRegistry

variable {registry : SchemaRegistry}

/-- A stored schema is kept, and a hash that is free goes to the first schema with it. -/
theorem findByHash_ingestSchema (schema : ServiceSchema) {hash : Bytes} (hhash : hash ≠ []) :
    (registry.ingestSchema schema).findByHash hash =
      (registry.findByHash hash).or (if schema.schemaHash = hash then some schema else none) := by
  rw [ingestSchema]
  by_cases hsame : schema.schemaHash = hash
  · subst hsame
    have hempty : schema.schemaHash.isEmpty = false := by simpa using hhash
    cases hfound : registry.byHash[schema.schemaHash]? with
    | some found => simp [findByHash, hfound, Std.TreeMap.contains_eq_isSome_getElem?]
    | none => simp [findByHash, hempty, hfound, Std.TreeMap.contains_eq_isSome_getElem?]
  · rw [if_neg hsame, Option.or_none]
    split
    · rfl
    · simp [findByHash, Std.TreeMap.getElem?_insert, hsame]

theorem findByHash_foldl_ingestSchema (schemas : List ServiceSchema) {hash : Bytes} (hhash : hash ≠ []) :
    (schemas.foldl ingestSchema registry).findByHash hash =
      (registry.findByHash hash).or (schemas.find? (·.schemaHash = hash)) := by
  induction schemas generalizing registry with
  | nil => simp
  | cons schema schemas ih =>
    rw [List.foldl_cons, ih, findByHash_ingestSchema schema hhash, Option.or_assoc, List.find?_cons]
    by_cases hsame : schema.schemaHash = hash <;> simp [hsame]

theorem findByHash_nil_ingestSchema (schema : ServiceSchema) (h : registry.findByHash [] = none) :
    (registry.ingestSchema schema).findByHash [] = none := by
  rw [ingestSchema]
  split
  · exact h
  · rename_i hnew
    have hne : schema.schemaHash ≠ [] := by
      intro hempty
      simp [hempty] at hnew
    simpa [findByHash, Std.TreeMap.getElem?_insert, hne] using h

theorem findByHash_nil_foldl_ingestSchema (schemas : List ServiceSchema) (h : registry.findByHash [] = none) :
    (schemas.foldl ingestSchema registry).findByHash [] = none := by
  induction schemas generalizing registry with
  | nil => exact h
  | cons schema schemas ih => exact ih (findByHash_nil_ingestSchema schema h)

/-- Each schema is found under the hash of its descriptors. -/
def ContentAddressed (C : Crypto) (registry : SchemaRegistry) : Prop :=
  ∀ hash schema, registry.findByHash hash = some schema → hash = C.sha256 schema.protoFileDescriptorSet

end SchemaRegistry

namespace Directory

/-- What a resource manager has learned after a sequence of advertisements. -/
def learned (advertisements : List (NodeID × ResourceAdvertisement)) : Directory :=
  advertisements.foldl (fun directory entry => directory.handleResourceAdvertisement entry.1 entry.2) {}

/-- The schemas in the order in which they were advertised. -/
def advertised (advertisements : List (NodeID × ResourceAdvertisement)) : List ServiceSchema :=
  advertisements.flatMap fun entry => entry.2.schemas

/-- An advertisement that withdraws everything has no schema to be ingested. -/
theorem schemaRegistry_handleResourceAdvertisement (directory : Directory) (nodeId : NodeID)
    (advertisement : ResourceAdvertisement) :
    (directory.handleResourceAdvertisement nodeId advertisement).schemaRegistry =
      advertisement.schemas.foldl SchemaRegistry.ingestSchema directory.schemaRegistry := by
  rw [handleResourceAdvertisement]
  split
  · rename_i hempty
    have hnone : advertisement.schemas = [] := List.isEmpty_iff.mp (Bool.and_eq_true_iff.mp hempty).2
    rw [hnone]
    rfl
  · rfl

theorem schemaRegistry_foldl (directory : Directory) (advertisements : List (NodeID × ResourceAdvertisement)) :
    (advertisements.foldl (fun directory entry => directory.handleResourceAdvertisement entry.1 entry.2)
        directory).schemaRegistry =
      (advertised advertisements).foldl SchemaRegistry.ingestSchema directory.schemaRegistry := by
  induction advertisements generalizing directory with
  | nil => rfl
  | cons entry rest ih =>
    rw [List.foldl_cons, ih, schemaRegistry_handleResourceAdvertisement, advertised, advertised, List.flatMap_cons,
      List.foldl_append]

/-- Under a hash is the first schema that was advertised with it. -/
theorem findByHash_learned (advertisements : List (NodeID × ResourceAdvertisement)) (hash : Bytes) :
    (learned advertisements).schemaRegistry.findByHash hash =
      if hash = [] then none else (advertised advertisements).find? (·.schemaHash = hash) := by
  have hstart : SchemaRegistry.findByHash {} hash = none := by simp [SchemaRegistry.findByHash]
  rw [learned, schemaRegistry_foldl]
  by_cases hhash : hash = []
  · subst hhash
    exact SchemaRegistry.findByHash_nil_foldl_ingestSchema _ hstart
  · rw [if_neg hhash, SchemaRegistry.findByHash_foldl_ingestSchema _ hhash]
    exact (congrArg (Option.or · _) hstart).trans (Option.none_or ..)

/-- The registry is content addressed if and only if the first schema that was advertised with a hash has it. -/
theorem content_addressed_iff (C : Crypto) (advertisements : List (NodeID × ResourceAdvertisement)) :
    (learned advertisements).schemaRegistry.ContentAddressed C ↔
      ∀ hash schema, hash ≠ [] → (advertised advertisements).find? (·.schemaHash = hash) = some schema →
        hash = C.sha256 schema.protoFileDescriptorSet := by
  rw [SchemaRegistry.ContentAddressed]
  simp only [findByHash_learned]
  constructor
  · intro h hash schema hhash hfirst
    exact h hash schema (by rw [if_neg hhash, hfirst])
  · intro h hash schema hfound
    split at hfound
    · cases hfound
    · exact h hash schema ‹_› hfound

/-! ### A hash that is taken -/

def genuineSchema : ServiceSchema := buildServiceSchema sampleCrypto [97] [1] 1 []

/-- Another file under the hash of the genuine schema. -/
def forgedSchema : ServiceSchema := { genuineSchema with protoFileDescriptorSet := [2] }

/-- A node advertises a forged schema, and another one the genuine schema after it. -/
def takenAdvertisements : List (NodeID × ResourceAdvertisement) :=
  [(⟨1, 1⟩, { schemas := [forgedSchema] }), (⟨2, 2⟩, { schemas := [genuineSchema] })]

theorem genuine_schema_ignored :
    (learned takenAdvertisements).schemaRegistry.findByHash (sampleCrypto.sha256 genuineSchema.protoFileDescriptorSet) =
        some forgedSchema ∧
      ¬ (learned takenAdvertisements).schemaRegistry.ContentAddressed sampleCrypto := by
  have hfound : (learned takenAdvertisements).schemaRegistry.findByHash
      (sampleCrypto.sha256 genuineSchema.protoFileDescriptorSet) = some forgedSchema := by
    rw [findByHash_learned]
    decide +kernel
  refine ⟨hfound, fun h => ?_⟩
  have hhash := h _ _ hfound
  revert hhash
  decide +kernel

end Directory

end Rsp
