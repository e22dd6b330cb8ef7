import Rsp.Endorsement.FieldResolver

/-!
# The schema registry

`SchemaRegistry` of `schema_registry.hpp`: schemas by their advertised hash, and the latest hash of each proto file. A snapshot lists the schemas in the order of their hashes.
-/

namespace Rsp

open Proto

structure SchemaRegistry where
  byHash : Std.TreeMap Bytes ServiceSchema := {}
  byProtoFile : Std.TreeMap Bytes Bytes := {}

namespace SchemaRegistry

/-- A schema without hash, or with a hash already known, is ignored. -/
def ingestSchema (registry : SchemaRegistry) (schema : ServiceSchema) : SchemaRegistry :=
  if schema.schemaHash.isEmpty || registry.byHash.contains schema.schemaHash then registry
  else
    { byHash := registry.byHash.insert schema.schemaHash schema
      byProtoFile := registry.byProtoFile.insert schema.protoFileName schema.schemaHash }

def ingest (registry : SchemaRegistry) (advertisement : ResourceAdvertisement) : SchemaRegistry :=
  advertisement.schemas.foldl ingestSchema registry

def allSchemas (registry : SchemaRegistry) : List ServiceSchema := registry.byHash.values

def findByHash (registry : SchemaRegistry) (hash : Bytes) : Option ServiceSchema := registry.byHash[hash]?

def findByProtoFile (registry : SchemaRegistry) (protoFile : Bytes) : Option ServiceSchema :=
  registry.byProtoFile[protoFile]?.bind registry.findByHash

def snapshot (registry : SchemaRegistry) : SchemaSnapshot := ⟨registry.allSchemas⟩

end SchemaRegistry

end Rsp
