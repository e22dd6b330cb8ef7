import Rsp.Endorsement.Evaluate

/-!
# Log filters

`evaluateFilterTree` of `logging.cpp`: the filter a subscriber sent is evaluated on the unpacked payload of a log record. Paths and literals are converted and resolved by the field resolver that requirement trees use; the payload is a dynamic message, so the pool whose default instances its unset fields read as comes with it.
-/

namespace Rsp

open Reflection Proto

def toFieldPath (path : LogASTFieldPath) : ERDASTFieldPath := ⟨path.segments⟩

def toFieldValue : LogASTFieldValue → ERDASTFieldValue
  | .bytesValue value => .bytesValue value
  | .stringValue value => .stringValue value
  | .intValue value => .intValue value
  | .uintValue value => .uintValue value
  | .boolValue value => .boolValue value
  | .enumValue value => .enumValue value
  | .notSet => .notSet

section

variable (pb : Protobuf) (pool : Pool) (message : Message) (snap : Option SchemaSnapshot)

/-- `resolveRepeatedMessages` on a message of any pool. -/
def resolveRepeatedMessagesIn (path : ERDASTFieldPath) : Except Fault RepeatedMessages := do
  match ← walkPath pb snap pool false message path.segments with
  | none => return ⟨[], false⟩
  | some result =>
    if !result.field.descriptor.isRepeated ∨ result.field.descriptor.cppType ≠ .message then return ⟨[], false⟩
    else return ⟨result.field.values.filterMap fun
      | .message value => some value
      | _ => none, result.inDynamicHolder⟩

/-- The loop of a `field_contains` leaf; an element that died with the walk's holder must not be read. -/
def anyElementEqualsIn (subPath : ERDASTFieldPath) (value : ERDASTFieldValue) (dangling : Bool) :
    List Message → Except Fault Bool
  | [] => .ok false
  | element :: elements => do
    if dangling then throw .useAfterFree
    if resolvedValueEquals (← resolveFieldPath pb subPath pool element snap) value then return true
    else anyElementEqualsIn subPath value dangling elements

mutual

def evaluateFilterTree : LogASTMessageTree → Except Fault Bool
  | .equals (some lhs) (some rhs) => do
    let left ← evaluateFilterTree lhs
    let right ← evaluateFilterTree rhs
    return left == right
  | .equals _ _ => .ok false
  | .and (some lhs) (some rhs) => do
    if ← evaluateFilterTree lhs then evaluateFilterTree rhs else return false
  | .and _ _ => .ok false
  | .or (some lhs) (some rhs) => do
    if ← evaluateFilterTree lhs then return true else evaluateFilterTree rhs
  | .or _ _ => .ok false
  | .allOf [] => .ok false
  | .allOf (term :: terms) => do
    if ← evaluateFilterTree term then evaluateFilterTreeAll terms else return false
  | .anyOf terms => evaluateFilterTreeAny terms
  | .fieldEquals (some path) (some value) => do
    return resolvedValueEquals (← resolveFieldPath pb (toFieldPath path) pool message snap) (toFieldValue value)
  | .fieldEquals _ _ => .ok false
  | .fieldExists (some path) => do
    return resolvedValuePresent (← resolveFieldPath pb (toFieldPath path) pool message snap)
  | .fieldExists none => .ok false
  | .fieldContains (some path) (some subPath) (some value) => do
    let found ← resolveRepeatedMessagesIn pb pool message snap (toFieldPath path)
    anyElementEqualsIn pb pool snap (toFieldPath subPath) (toFieldValue value) found.dangling found.elements
  | .fieldContains _ _ _ => .ok false
  | .trueValue => .ok true
  | .falseValue => .ok false
  | .notSet => .ok false

def evaluateFilterTreeAll : List LogASTMessageTree → Except Fault Bool
  | [] => .ok true
  | term :: terms => do
    if ← evaluateFilterTree term then evaluateFilterTreeAll terms else return false

def evaluateFilterTreeAny : List LogASTMessageTree → Except Fault Bool
  | [] => .ok false
  | term :: terms => do
    if ← evaluateFilterTree term then return true else evaluateFilterTreeAny terms

end

end

end Rsp
