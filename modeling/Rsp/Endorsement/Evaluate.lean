import Rsp.Endorsement.FieldResolver

/-!
# Endorsements and the evaluation of requirement trees

The class `Endorsement` of `endorsement.cpp` and its four evaluators: one endorsement against an endorsement tree, one endorsement against a requirement tree (where a `MESSAGE` leaf counts as false), a message against a message tree, and a message against a requirement tree (where an `ENDORSEMENT` leaf counts as false). Each evaluator short-circuits exactly where the C++ operators do, so a fault in an operand surfaces only when the operand is reached.
-/

namespace Rsp

open Reflection Proto

def makeError (message : String) : Fault := .runtimeError message

/-! ### Endorsements -/

structure Endorsement where
  message : Proto.Endorsement := {}
deriving DecidableEq, Repr

/-- `deserializeGuidBytes`: big-endian, 16 bytes or an error with the given text. -/
def deserializeGuidBytes (bytes : Bytes) (fieldName : String) : Except Fault GUID :=
  match GUID.ofBigEndian bytes with
  | some guid => .ok guid
  | none => .error (makeError fieldName)

/-- Checks that follow a failed one are not made. -/
def require (condition : Bool) (message : String) (rest : Except Fault Unit) : Except Fault Unit :=
  if condition then rest else .error (makeError message)

def validateUuidLike (bytes : Bytes) (fieldName : String) (rest : Except Fault Unit) : Except Fault Unit :=
  require (bytes.length == 16) fieldName rest

/-- The value of a sub-message that may be absent reads as empty. -/
def nodeIdValue (id : Option NodeId) : Bytes := (id.getD {}).value

def uuidValue (id : Option Uuid) : Bytes := (id.getD {}).value

namespace Endorsement

def validateMessage (message : Proto.Endorsement) (requireSignature : Bool) : Except Fault Unit :=
  require message.subject.isSome "endorsement missing subject" <|
  require message.endorsementService.isSome "endorsement missing endorsement service" <|
  require message.endorsementType.isSome "endorsement missing endorsement type" <|
  require message.validUntil.isSome "endorsement missing valid-until time" <|
  validateUuidLike (nodeIdValue message.subject) "invalid endorsement subject length" <|
  validateUuidLike (nodeIdValue message.endorsementService) "invalid endorsement service length" <|
  validateUuidLike (uuidValue message.endorsementType) "invalid endorsement type length" <|
  require (!(requireSignature && message.signature.isEmpty)) "endorsement missing signature" <|
  .ok ()

def Valid (e : Endorsement) : Prop := validateMessage e.message true = .ok ()

def endorsementService (e : Endorsement) : Except Fault NodeID := do
  validateMessage e.message true
  deserializeGuidBytes (nodeIdValue e.message.endorsementService) "invalid endorsement service length"

def endorsementType (e : Endorsement) : Except Fault GUID := do
  validateMessage e.message true
  deserializeGuidBytes (uuidValue e.message.endorsementType) "invalid endorsement type length"

def endorsementValue (e : Endorsement) : Except Fault Bytes := do
  validateMessage e.message true
  return e.message.endorsementValue

end Endorsement

/-! ### One endorsement -/

mutual

def evaluateEndorsementTree (endorsement : Endorsement) : ERDASTEndTree → Except Fault Bool
  | .equals (some lhs) (some rhs) => do
    let left ← evaluateEndorsementTree endorsement lhs
    let right ← evaluateEndorsementTree endorsement rhs
    return left == right
  | .equals _ _ => .ok false
  | .and (some lhs) (some rhs) => do
    if ← evaluateEndorsementTree endorsement lhs then evaluateEndorsementTree endorsement rhs else return false
  | .and _ _ => .ok false
  | .or (some lhs) (some rhs) => do
    if ← evaluateEndorsementTree endorsement lhs then return true else evaluateEndorsementTree endorsement rhs
  | .or _ _ => .ok false
  | .allOf [] => .ok false
  | .allOf (term :: terms) => do
    if ← evaluateEndorsementTree endorsement term then evaluateEndorsementTreeAll endorsement terms else return false
  | .anyOf terms => evaluateEndorsementTreeAny endorsement terms
  | .typeEquals none => .ok false
  | .typeEquals (some type) => do
    let actual ← endorsement.endorsementType
    let required ← deserializeGuidBytes type.value "invalid requirement endorsement type length"
    return actual == required
  | .valueEquals value => do return (← endorsement.endorsementValue) == value
  | .signerEquals none => .ok false
  | .signerEquals (some signer) => do
    let actual ← endorsement.endorsementService
    let required ← deserializeGuidBytes signer.value "invalid requirement signer length"
    return actual == required
  | .trueValue => .ok true
  | .falseValue => .ok false
  | .notSet => .ok false

def evaluateEndorsementTreeAll (endorsement : Endorsement) : List ERDASTEndTree → Except Fault Bool
  | [] => .ok true
  | term :: terms => do
    if ← evaluateEndorsementTree endorsement term then evaluateEndorsementTreeAll endorsement terms else return false

def evaluateEndorsementTreeAny (endorsement : Endorsement) : List ERDASTEndTree → Except Fault Bool
  | [] => .ok false
  | term :: terms => do
    if ← evaluateEndorsementTree endorsement term then return true else evaluateEndorsementTreeAny endorsement terms

end

mutual

def evaluateRequirementTree (endorsement : Endorsement) : ERDAbstractSyntaxTree → Except Fault Bool
  | .equals (some lhs) (some rhs) => do
    let left ← evaluateRequirementTree endorsement lhs
    let right ← evaluateRequirementTree endorsement rhs
    return left == right
  | .equals _ _ => .ok false
  | .and (some lhs) (some rhs) => do
    if ← evaluateRequirementTree endorsement lhs then evaluateRequirementTree endorsement rhs else return false
  | .and _ _ => .ok false
  | .or (some lhs) (some rhs) => do
    if ← evaluateRequirementTree endorsement lhs then return true else evaluateRequirementTree endorsement rhs
  | .or _ _ => .ok false
  | .allOf [] => .ok false
  | .allOf (term :: terms) => do
    if ← evaluateRequirementTree endorsement term then evaluateRequirementTreeAll endorsement terms else return false
  | .anyOf terms => evaluateRequirementTreeAny endorsement terms
  | .endorsement none => .ok false
  | .endorsement (some tree) => evaluateEndorsementTree endorsement tree
  | .message _ => .ok false
  | .trueValue => .ok true
  | .falseValue => .ok false
  | .notSet => .ok false

def evaluateRequirementTreeAll (endorsement : Endorsement) : List ERDAbstractSyntaxTree → Except Fault Bool
  | [] => .ok true
  | term :: terms => do
    if ← evaluateRequirementTree endorsement term then evaluateRequirementTreeAll endorsement terms else return false

def evaluateRequirementTreeAny (endorsement : Endorsement) : List ERDAbstractSyntaxTree → Except Fault Bool
  | [] => .ok false
  | term :: terms => do
    if ← evaluateRequirementTree endorsement term then return true else evaluateRequirementTreeAny endorsement terms

end

/-! ### The message -/

section

variable (pb : Protobuf) (message : RSPMessage) (snap : Option SchemaSnapshot)

/-- The loop of a `field_contains` leaf over the elements of the repeated field. -/
def anyElementEquals (subPath : ERDASTFieldPath) (value : ERDASTFieldValue) (dangling : Bool) :
    List Message → Except Fault Bool
  | [] => .ok false
  | element :: elements => do
    if dangling then throw .useAfterFree
    if resolvedValueEquals (← resolveFieldPath pb subPath pb.generated element snap) value then return true
    else anyElementEquals subPath value dangling elements

mutual

def evaluateMessageTree : ERDASTMessageTree → Except Fault Bool
  | .equals (some lhs) (some rhs) => do
    let left ← evaluateMessageTree lhs
    let right ← evaluateMessageTree rhs
    return left == right
  | .equals _ _ => .ok false
  | .and (some lhs) (some rhs) => do
    if ← evaluateMessageTree lhs then evaluateMessageTree rhs else return false
  | .and _ _ => .ok false
  | .or (some lhs) (some rhs) => do
    if ← evaluateMessageTree lhs then return true else evaluateMessageTree rhs
  | .or _ _ => .ok false
  | .allOf [] => .ok false
  | .allOf (term :: terms) => do
    if ← evaluateMessageTree term then evaluateMessageTreeAll terms else return false
  | .anyOf terms => evaluateMessageTreeAny terms
  | .fieldEquals (some path) (some value) => do
    return resolvedValueEquals (← resolveFieldPath pb path pb.generated message.reflect snap) value
  | .fieldEquals _ _ => .ok false
  | .fieldExists (some path) => do
    return resolvedValuePresent (← resolveFieldPath pb path pb.generated message.reflect snap)
  | .fieldExists none => .ok false
  | .fieldContains (some path) (some subPath) (some value) => do
    let found ← resolveRepeatedMessages pb path message.reflect snap
    anyElementEquals pb snap subPath value found.dangling found.elements
  | .fieldContains _ _ _ => .ok false
  | .trueValue => .ok true
  | .falseValue => .ok false
  | .notSet => .ok false

def evaluateMessageTreeAll : List ERDASTMessageTree → Except Fault Bool
  | [] => .ok true
  | term :: terms => do
    if ← evaluateMessageTree term then evaluateMessageTreeAll terms else return false

def evaluateMessageTreeAny : List ERDASTMessageTree → Except Fault Bool
  | [] => .ok false
  | term :: terms => do
    if ← evaluateMessageTree term then return true else evaluateMessageTreeAny terms

end

mutual

def evaluateMessageRequirementTree : ERDAbstractSyntaxTree → Except Fault Bool
  | .equals (some lhs) (some rhs) => do
    let left ← evaluateMessageRequirementTree lhs
    let right ← evaluateMessageRequirementTree rhs
    return left == right
  | .equals _ _ => .ok false
  | .and (some lhs) (some rhs) => do
    if ← evaluateMessageRequirementTree lhs then evaluateMessageRequirementTree rhs else return false
  | .and _ _ => .ok false
  | .or (some lhs) (some rhs) => do
    if ← evaluateMessageRequirementTree lhs then return true else evaluateMessageRequirementTree rhs
  | .or _ _ => .ok false
  | .allOf [] => .ok false
  | .allOf (term :: terms) => do
    if ← evaluateMessageRequirementTree term then evaluateMessageRequirementTreeAll terms else return false
  | .anyOf terms => evaluateMessageRequirementTreeAny terms
  | .message none => .ok false
  | .message (some tree) => evaluateMessageTree pb message snap tree
  | .endorsement _ => .ok false
  | .trueValue => .ok true
  | .falseValue => .ok false
  | .notSet => .ok false

def evaluateMessageRequirementTreeAll : List ERDAbstractSyntaxTree → Except Fault Bool
  | [] => .ok true
  | term :: terms => do
    if ← evaluateMessageRequirementTree term then evaluateMessageRequirementTreeAll terms else return false

def evaluateMessageRequirementTreeAny : List ERDAbstractSyntaxTree → Except Fault Bool
  | [] => .ok false
  | term :: terms => do
    if ← evaluateMessageRequirementTree term then return true else evaluateMessageRequirementTreeAny terms

end

end

end Rsp
