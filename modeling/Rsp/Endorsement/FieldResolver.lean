import Rsp.Proto.Reflect

/-!
# Field paths

The resolver of `field_resolver.cpp`: a path of segments is walked from a message through its singular sub-messages to a terminal field; with a schema snapshot a `google.protobuf.Any` on the way is unpacked into a dynamic message. The protobuf runtime (descriptor pools, parsing) is outside the repository and enters as the structure `Protobuf`.
-/

namespace Rsp

open Reflection Proto

/-- The parts of the protobuf runtime the code calls. -/
structure Protobuf where
  File : Type
  fileName : File → Bytes
  /-- `FileDescriptorSet::ParseFromString`. -/
  parseFileDescriptorSet : Bytes → Option (List File)
  DescriptorPool : Type
  emptyPool : DescriptorPool
  findFileByName : DescriptorPool → Bytes → Bool
  buildFile : DescriptorPool → File → DescriptorPool
  /-- A pool together with the `DynamicMessageFactory` over it. -/
  view : DescriptorPool → Pool
  /-- The pool of the message types compiled into the program. -/
  generatedPool : Pool
  /-- `SerializeToString` of a requirement tree; `none` when it fails. -/
  serializeTree : ERDAbstractSyntaxTree → Option Bytes

/-- A runtime that knows no message type and can parse nothing. -/
instance : Inhabited Protobuf where
  default :=
    { File := Unit, fileName := fun _ => [], parseFileDescriptorSet := fun _ => none, DescriptorPool := Unit,
      emptyPool := (), findFileByName := fun _ _ => false, buildFile := fun pool _ => pool,
      view := fun _ => ⟨fun _ => false, fun _ => default, fun _ _ => none⟩,
      generatedPool := ⟨fun _ => false, fun _ => default, fun _ _ => none⟩, serializeTree := fun _ => none }

variable (pb : Protobuf)

/-- The compiled types, whose default instances are those of `messages.proto`. -/
def Protobuf.generated : Pool := { pb.generatedPool with defaultInstance := generatedDefault }

/-- An immutable copy of the schemas a registry held at one time. -/
structure SchemaSnapshot where
  schemas : List ServiceSchema := []
deriving DecidableEq, Repr

namespace SchemaSnapshot

/-- Adds the files of one descriptor set, skipping those whose name is already there. -/
def addFiles (pool : pb.DescriptorPool) (schema : ServiceSchema) : pb.DescriptorPool :=
  match pb.parseFileDescriptorSet schema.protoFileDescriptorSet with
  | none => pool
  | some files => files.foldl (fun pool file =>
      if pb.findFileByName pool (pb.fileName file) then pool else pb.buildFile pool file) pool

/-- `ensurePool`: no pool is built when there is no schema. -/
def ensurePool (snap : SchemaSnapshot) : Option Pool :=
  if snap.schemas.isEmpty then none
  else some (pb.view (snap.schemas.foldl (addFiles pb) pb.emptyPool))

end SchemaSnapshot

/-- What a path resolves to; `monostate` when it does not resolve. -/
inductive ResolvedValue where
  | monostate
  | string (value : Bytes)
  | int64 (value : Int64)
  | uint64 (value : UInt64)
  | bool (value : Bool)
  | int32 (value : Int32)
deriving DecidableEq, Repr

/-- Everything after the last slash: `type.rsp/rsp.proto.Foo` names `rsp.proto.Foo`. -/
def typeNameFromUrl (typeUrl : Bytes) : Bytes := (typeUrl.reverse.takeWhile (· ≠ 47)).reverse

def readScalar (field : Field) : ResolvedValue :=
  match field.getScalar with
  | some (.string value) => .string value
  | some (.int32 value) => .int64 value.toInt64
  | some (.int64 value) => .int64 value
  | some (.uint32 value) => .uint64 value.toUInt64
  | some (.uint64 value) => .uint64 value
  | some (.bool value) => .bool value
  | some (.enum number) => .int32 number
  | some (.float _ truncated) => .int64 truncated
  | some (.double _ truncated) => .int64 truncated
  | some (.message _) | none => .monostate

/-- The message holding the terminal field, the field, and whether that message lives in the walk's own `dynamicHolder`. -/
structure WalkResult where
  message : Message
  field : Field
  inDynamicHolder : Bool

/-- A fatal check of the reflection interface. -/
def orAbort {α : Type} : Option α → Except Fault α
  | some a => .ok a
  | none => .error .abort

/-- Unpacks an `Any` into the dynamic message its type URL names. -/
def unpackAny (pool : Option Pool) (anyMsg : Message) : Except Fault (Option (Pool × Message)) :=
  match anyMsg.findFieldByName (ascii "type_url"), anyMsg.findFieldByName (ascii "value") with
  | some typeUrlField, some valueField => do
    let typeUrl ← orAbort typeUrlField.getString
    let value ← orAbort valueField.getString
    match pool with
    | none => return none
    | some dynamic =>
      if dynamic.hasMessageType (typeNameFromUrl typeUrl) then
        return (dynamic.parse (typeNameFromUrl typeUrl) value).map fun message => (dynamic, message)
      else return none
  | _, _ => return none

/-- The loop of `walkPath`; `pool` supplies the default instances of unset fields of `current`. -/
def walkPath (snap : Option SchemaSnapshot) :
    (pool : Pool) → (inDynamicHolder : Bool) → (current : Message) → List Bytes → Except Fault (Option WalkResult)
  | _, _, _, [] => .ok none
  | pool, inDynamicHolder, current, segment :: segments =>
    match current.findFieldByName segment with
    | none => .ok none
    | some field =>
      if segments.isEmpty then .ok (some ⟨current, field, inDynamicHolder⟩)
      else if field.descriptor.cppType ≠ .message then .ok none
      else do
        -- the singular accessor is fatal on a repeated field
        let sub ← orAbort (field.getMessage pool)
        match snap with
        | some snap =>
          if field.descriptor.messageType = anyTypeName then
            match ← unpackAny (snap.ensurePool pb) sub with
            | none => return none
            | some (dynamic, message) => walkPath (some snap) dynamic true message segments
          else walkPath (some snap) pool inDynamicHolder sub segments
        | none => walkPath none pool inDynamicHolder sub segments

def resolveFieldPath (path : ERDASTFieldPath) (pool : Pool) (message : Message) (snap : Option SchemaSnapshot) :
    Except Fault ResolvedValue := do
  match ← walkPath pb snap pool false message path.segments with
  | none => return .monostate
  | some result =>
    if result.field.descriptor.isRepeated then return .monostate
    else if result.field.descriptor.cppType = .message then
      return if result.field.hasField then .bool true else .monostate
    else return readScalar result.field

def resolvedValueEquals (resolved : ResolvedValue) (expected : ERDASTFieldValue) : Bool :=
  match expected, resolved with
  | .bytesValue value, .string actual => actual == value
  | .stringValue value, .string actual => actual == value
  | .intValue value, .int64 actual => actual == value
  | .uintValue value, .uint64 actual => actual == value
  | .boolValue value, .bool actual => actual == value
  | .enumValue value, .int32 actual => actual == value
  | _, _ => false

def resolvedValuePresent (resolved : ResolvedValue) : Bool := resolved ≠ .monostate

/-- The elements of a repeated message field. They are returned as pointers: when the path went through an `Any` the elements die with the walk's `dynamicHolder`, which the flag records. -/
structure RepeatedMessages where
  elements : List Message
  dangling : Bool

def resolveRepeatedMessages (path : ERDASTFieldPath) (message : Message) (snap : Option SchemaSnapshot) :
    Except Fault RepeatedMessages := do
  match ← walkPath pb snap pb.generated false message path.segments with
  | none => return ⟨[], false⟩
  | some result =>
    if !result.field.descriptor.isRepeated ∨ result.field.descriptor.cppType ≠ .message then return ⟨[], false⟩
    else return ⟨result.field.values.filterMap fun
      | .message value => some value
      | _ => none, result.inDynamicHolder⟩

end Rsp
