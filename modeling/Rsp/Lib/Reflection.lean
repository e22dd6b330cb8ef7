import Rsp.Lib.Code

/-!
# Messages seen through reflection

A message as a protobuf reflection interface presents it: a full type name and, for each declared field, its descriptor and the values it holds. A singular field holds at most one value, and exactly one when it does not track presence; a repeated field holds any number. Accessors that the library guards with a fatal check return `none` where that check fires.
-/

namespace Reflection

open ByteCode (Bytes)

inductive CppType where
  | int32 | int64 | uint32 | uint64 | double | float | bool | enum | string | message
deriving DecidableEq, Repr

structure FieldDescriptor where
  name : Bytes
  number : Nat
  cppType : CppType
  isRepeated : Bool
  hasPresence : Bool
  /-- Full name of the message type of a message field. -/
  messageType : Bytes
deriving DecidableEq, Repr

mutual

/-- One field value. A floating-point value is its bits, together with its conversion to a signed integer: nothing else of it is ever read. -/
inductive Value where
  | int32 (value : Int32)
  | int64 (value : Int64)
  | uint32 (value : UInt32)
  | uint64 (value : UInt64)
  | double (bits : UInt64) (truncated : Int64)
  | float (bits : UInt32) (truncated : Int64)
  | bool (value : Bool)
  | enum (number : Int32)
  | string (value : Bytes)
  | message (value : Message)

inductive Message where
  | mk (fullName : Bytes) (fields : List Field)

inductive Field where
  | mk (descriptor : FieldDescriptor) (values : List Value)

end

instance : Inhabited Message := ⟨.mk [] []⟩

def Field.descriptor : Field → FieldDescriptor
  | .mk descriptor _ => descriptor

def Field.values : Field → List Value
  | .mk _ values => values

def Message.fullName : Message → Bytes
  | .mk fullName _ => fullName

def Message.fields : Message → List Field
  | .mk _ fields => fields

/-- What an unset scalar field reads as. -/
def CppType.defaultValue : CppType → Option Value
  | .int32 => some (.int32 0)
  | .int64 => some (.int64 0)
  | .uint32 => some (.uint32 0)
  | .uint64 => some (.uint64 0)
  | .double => some (.double 0 0)
  | .float => some (.float 0 0)
  | .bool => some (.bool false)
  | .enum => some (.enum 0)
  | .string => some (.string [])
  | .message => none

/-- A descriptor pool with its message factory. -/
structure Pool where
  hasMessageType : Bytes → Bool
  /-- The immutable instance an unset message field reads as. -/
  defaultInstance : Bytes → Message
  /-- `ParseFromString` on a new message of the given type. -/
  parse : Bytes → Bytes → Option Message

def Message.findFieldByName (message : Message) (name : Bytes) : Option Field :=
  message.fields.find? fun field => field.descriptor.name = name

def Field.hasField (field : Field) : Bool := !field.values.isEmpty

/-- `GetMessage`: a fatal error on a repeated field or a field that is no message. -/
def Field.getMessage (pool : Pool) (field : Field) : Option Message :=
  if field.descriptor.isRepeated ∨ field.descriptor.cppType ≠ .message then none
  else match field.values with
    | .message value :: _ => some value
    | _ => some (pool.defaultInstance field.descriptor.messageType)

/-- `GetString`: a fatal error on a repeated field or a field that is no string. -/
def Field.getString (field : Field) : Option Bytes :=
  if field.descriptor.isRepeated ∨ field.descriptor.cppType ≠ .string then none
  else match field.values with
    | .string value :: _ => some value
    | _ => some []

/-- The scalar a singular field reads as: the value it holds or its type's default. -/
def Field.getScalar (field : Field) : Option Value :=
  match field.values with
  | value :: _ => some value
  | [] => field.descriptor.cppType.defaultValue

/-! ### Building fields -/

section

variable (name : Bytes) (number : Nat)

/-- A plain proto3 scalar: always present. -/
def scalarField (cppType : CppType) (value : Value) : Field :=
  .mk ⟨name, number, cppType, false, false, []⟩ [value]

def stringField (value : Bytes) : Field := scalarField name number .string (.string value)

def uint32Field (value : UInt32) : Field := scalarField name number .uint32 (.uint32 value)

def uint64Field (value : UInt64) : Field := scalarField name number .uint64 (.uint64 value)

def boolField (value : Bool) : Field := scalarField name number .bool (.bool value)

def enumField (value : Int32) : Field := scalarField name number .enum (.enum value)

/-- A scalar with presence: an `optional` field or a member of a `oneof`. -/
def optionalField (cppType : CppType) (value : Option Value) : Field :=
  .mk ⟨name, number, cppType, false, true, []⟩ value.toList

def messageField (messageType : Bytes) (value : Option Message) : Field :=
  .mk ⟨name, number, .message, false, true, messageType⟩ (value.map Value.message).toList

def repeatedStringField (values : List Bytes) : Field :=
  .mk ⟨name, number, .string, true, false, []⟩ (values.map Value.string)

def repeatedMessageField (messageType : Bytes) (values : List Message) : Field :=
  .mk ⟨name, number, .message, true, false, messageType⟩ (values.map Value.message)

end

end Reflection
