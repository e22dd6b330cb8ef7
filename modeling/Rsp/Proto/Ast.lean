import Rsp.Base

/-!
# Syntax trees of `messages.proto`

The requirement language has three levels: `ERDAbstractSyntaxTree` over a whole request, `ERDASTEndTree` over one single endorsement and `ERDASTMessageTree` over the message; log filters use a fourth tree of the same shape. Every `oneof` has the case that no member is set (`notSet`), and every singular message field may be absent, so the operands of the binary nodes and the trees inside the two leaf kinds are options.
-/

namespace Rsp.Proto

structure Uuid where
  value : Bytes := []
deriving DecidableEq, Repr, Inhabited

structure NodeId where
  value : Bytes := []
deriving DecidableEq, Repr, Inhabited

structure EndorsementType where
  value : Bytes := []
deriving DecidableEq, Repr, Inhabited

/-! ### Trees over one endorsement -/

inductive ERDASTEndTree where
  | notSet
  | equals (lhs rhs : Option ERDASTEndTree)
  | and (lhs rhs : Option ERDASTEndTree)
  | or (lhs rhs : Option ERDASTEndTree)
  | trueValue
  | falseValue
  | allOf (terms : List ERDASTEndTree)
  | anyOf (terms : List ERDASTEndTree)
  | typeEquals (type : Option EndorsementType)
  | valueEquals (value : Bytes)
  | signerEquals (signer : Option NodeId)
deriving Repr, Inhabited

/-- Induction over the nodes, with the operands and terms as members of their containers. -/
@[elab_as_elim, induction_eliminator]
theorem ERDASTEndTree.ind {motive : ERDASTEndTree → Prop} (notSet : motive .notSet)
    (equals : ∀ lhs rhs, (∀ t ∈ lhs, motive t) → (∀ t ∈ rhs, motive t) → motive (.equals lhs rhs))
    (and : ∀ lhs rhs, (∀ t ∈ lhs, motive t) → (∀ t ∈ rhs, motive t) → motive (.and lhs rhs))
    (or : ∀ lhs rhs, (∀ t ∈ lhs, motive t) → (∀ t ∈ rhs, motive t) → motive (.or lhs rhs))
    (trueValue : motive .trueValue) (falseValue : motive .falseValue)
    (allOf : ∀ terms, (∀ t ∈ terms, motive t) → motive (.allOf terms))
    (anyOf : ∀ terms, (∀ t ∈ terms, motive t) → motive (.anyOf terms))
    (typeEquals : ∀ type, motive (.typeEquals type)) (valueEquals : ∀ value, motive (.valueEquals value))
    (signerEquals : ∀ signer, motive (.signerEquals signer)) (tree : ERDASTEndTree) : motive tree := by
  refine @ERDASTEndTree.rec motive (fun o => ∀ t ∈ o, motive t) (fun l => ∀ t ∈ l, motive t) notSet equals and or
    trueValue falseValue allOf anyOf typeEquals valueEquals signerEquals ?_ ?_ ?_ ?_ tree
  · simp
  · intro t ht
    simpa using ht
  · simp
  · intro t l ht hl
    simpa using ⟨ht, hl⟩

/-! ### Trees over a message -/

structure ERDASTFieldPath where
  segments : List Bytes := []
deriving DecidableEq, Repr, Inhabited

inductive ERDASTFieldValue where
  | notSet
  | bytesValue (value : Bytes)
  | stringValue (value : Bytes)
  | intValue (value : Int64)
  | uintValue (value : UInt64)
  | boolValue (value : Bool)
  | enumValue (value : Int32)
deriving DecidableEq, Repr, Inhabited

inductive ERDASTMessageTree where
  | notSet
  | equals (lhs rhs : Option ERDASTMessageTree)
  | and (lhs rhs : Option ERDASTMessageTree)
  | or (lhs rhs : Option ERDASTMessageTree)
  | trueValue
  | falseValue
  | allOf (terms : List ERDASTMessageTree)
  | anyOf (terms : List ERDASTMessageTree)
  | fieldEquals (path : Option ERDASTFieldPath) (value : Option ERDASTFieldValue)
  | fieldExists (path : Option ERDASTFieldPath)
  | fieldContains (path subPath : Option ERDASTFieldPath) (value : Option ERDASTFieldValue)
deriving Repr, Inhabited

/-! ### Requirement trees -/

inductive ERDAbstractSyntaxTree where
  | notSet
  | equals (lhs rhs : Option ERDAbstractSyntaxTree)
  | and (lhs rhs : Option ERDAbstractSyntaxTree)
  | or (lhs rhs : Option ERDAbstractSyntaxTree)
  | trueValue
  | falseValue
  | allOf (terms : List ERDAbstractSyntaxTree)
  | anyOf (terms : List ERDAbstractSyntaxTree)
  | endorsement (tree : Option ERDASTEndTree)
  | message (tree : Option ERDASTMessageTree)
deriving Repr, Inhabited

@[elab_as_elim, induction_eliminator]
theorem ERDAbstractSyntaxTree.ind {motive : ERDAbstractSyntaxTree → Prop} (notSet : motive .notSet)
    (equals : ∀ lhs rhs, (∀ t ∈ lhs, motive t) → (∀ t ∈ rhs, motive t) → motive (.equals lhs rhs))
    (and : ∀ lhs rhs, (∀ t ∈ lhs, motive t) → (∀ t ∈ rhs, motive t) → motive (.and lhs rhs))
    (or : ∀ lhs rhs, (∀ t ∈ lhs, motive t) → (∀ t ∈ rhs, motive t) → motive (.or lhs rhs))
    (trueValue : motive .trueValue) (falseValue : motive .falseValue)
    (allOf : ∀ terms, (∀ t ∈ terms, motive t) → motive (.allOf terms))
    (anyOf : ∀ terms, (∀ t ∈ terms, motive t) → motive (.anyOf terms))
    (endorsement : ∀ tree, motive (.endorsement tree)) (message : ∀ tree, motive (.message tree))
    (tree : ERDAbstractSyntaxTree) : motive tree := by
  refine @ERDAbstractSyntaxTree.rec motive (fun o => ∀ t ∈ o, motive t) (fun l => ∀ t ∈ l, motive t) notSet equals
    and or trueValue falseValue allOf anyOf endorsement message ?_ ?_ ?_ ?_ tree
  · simp
  · intro t ht
    simpa using ht
  · simp
  · intro t l ht hl
    simpa using ⟨ht, hl⟩

/-! ### Log filter trees -/

structure LogASTFieldPath where
  segments : List Bytes := []
deriving DecidableEq, Repr, Inhabited

inductive LogASTFieldValue where
  | notSet
  | bytesValue (value : Bytes)
  | stringValue (value : Bytes)
  | intValue (value : Int64)
  | uintValue (value : UInt64)
  | boolValue (value : Bool)
  | enumValue (value : Int32)
deriving DecidableEq, Repr, Inhabited

inductive LogASTMessageTree where
  | notSet
  | equals (lhs rhs : Option LogASTMessageTree)
  | and (lhs rhs : Option LogASTMessageTree)
  | or (lhs rhs : Option LogASTMessageTree)
  | trueValue
  | falseValue
  | allOf (terms : List LogASTMessageTree)
  | anyOf (terms : List LogASTMessageTree)
  | fieldEquals (path : Option LogASTFieldPath) (value : Option LogASTFieldValue)
  | fieldExists (path : Option LogASTFieldPath)
  | fieldContains (path subPath : Option LogASTFieldPath) (value : Option LogASTFieldValue)
deriving Repr, Inhabited

end Rsp.Proto
