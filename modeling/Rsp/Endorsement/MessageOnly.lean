import Rsp.Endorsement.ReduceExact

/-!
# Policies about the message alone

Without `ENDORSEMENT` nodes and without endorsements at hand, the reducer and the direct evaluator are two ways to compute one Boolean: the reducer folds constants, evaluates the `MESSAGE` leaves and combines the verdicts, with its own rules for `EQ`, and never returns anything but the empty tree or `FALSE`. The two differ in what an unset node is worth. The evaluator counts it as false, while for the reducer the empty tree is what it answers when nothing is demanded any more, so an unset node is a satisfied one.
-/

namespace Rsp

open Proto

/-- No `ENDORSEMENT` node, both operands on every binary node, at least one term on every n-ary node, and `returns` at every `MESSAGE` leaf. -/
inductive MessageOnly (returns : ERDASTMessageTree → Prop) : ERDAbstractSyntaxTree → Prop
  | notSet : MessageOnly returns .notSet
  | equals {lhs rhs : ERDAbstractSyntaxTree} (hl : MessageOnly returns lhs) (hr : MessageOnly returns rhs) :
      MessageOnly returns (.equals (some lhs) (some rhs))
  | and {lhs rhs : ERDAbstractSyntaxTree} (hl : MessageOnly returns lhs) (hr : MessageOnly returns rhs) :
      MessageOnly returns (.and (some lhs) (some rhs))
  | or {lhs rhs : ERDAbstractSyntaxTree} (hl : MessageOnly returns lhs) (hr : MessageOnly returns rhs) :
      MessageOnly returns (.or (some lhs) (some rhs))
  | allOf {terms : List ERDAbstractSyntaxTree} (hne : terms ≠ []) (h : ∀ t ∈ terms, MessageOnly returns t) :
      MessageOnly returns (.allOf terms)
  | anyOf {terms : List ERDAbstractSyntaxTree} (hne : terms ≠ []) (h : ∀ t ∈ terms, MessageOnly returns t) :
      MessageOnly returns (.anyOf terms)
  | message {tree : Option ERDASTMessageTree} (h : ∀ leaf, tree = some leaf → returns leaf) :
      MessageOnly returns (.message tree)
  | trueValue : MessageOnly returns .trueValue
  | falseValue : MessageOnly returns .falseValue

/-! ### Unset nodes -/

mutual

/-- The tree with `TRUE` in place of every unset node. -/
def unsetToTrue : ERDAbstractSyntaxTree → ERDAbstractSyntaxTree
  | .equals (some lhs) (some rhs) => .equals (some (unsetToTrue lhs)) (some (unsetToTrue rhs))
  | .and (some lhs) (some rhs) => .and (some (unsetToTrue lhs)) (some (unsetToTrue rhs))
  | .or (some lhs) (some rhs) => .or (some (unsetToTrue lhs)) (some (unsetToTrue rhs))
  | .allOf terms => .allOf (unsetToTrueTerms terms)
  | .anyOf terms => .anyOf (unsetToTrueTerms terms)
  | .notSet => .trueValue
  | tree => tree

def unsetToTrueTerms : List ERDAbstractSyntaxTree → List ERDAbstractSyntaxTree
  | [] => []
  | term :: terms => unsetToTrue term :: unsetToTrueTerms terms

end

theorem unsetToTrueTerms_eq_map (terms : List ERDAbstractSyntaxTree) :
    unsetToTrueTerms terms = terms.map unsetToTrue := by
  induction terms with
  | nil => rfl
  | cons term terms ih => rw [unsetToTrueTerms, ih, List.map_cons]

section

variable {returns : ERDASTMessageTree → Prop} {tree : ERDAbstractSyntaxTree}

theorem MessageOnly.unsetToTrue (h : MessageOnly returns tree) : MessageOnly returns (unsetToTrue tree) := by
  have hterms {terms : List ERDAbstractSyntaxTree} (hne : terms ≠ [])
      (ih : ∀ t ∈ terms, MessageOnly returns (Rsp.unsetToTrue t)) :
      unsetToTrueTerms terms ≠ [] ∧ ∀ t ∈ unsetToTrueTerms terms, MessageOnly returns t := by
    rw [unsetToTrueTerms_eq_map]
    refine ⟨by simpa using hne, ?_⟩
    intro t ht
    obtain ⟨u, hu, rfl⟩ := List.mem_map.mp ht
    exact ih u hu
  induction h with
  | notSet => exact .trueValue
  | equals _ _ ihl ihr => exact .equals ihl ihr
  | and _ _ ihl ihr => exact .and ihl ihr
  | or _ _ ihl ihr => exact .or ihl ihr
  | allOf hne _ ih => exact .allOf (hterms hne ih).1 (hterms hne ih).2
  | anyOf hne _ ih => exact .anyOf (hterms hne ih).1 (hterms hne ih).2
  | message h => exact .message h
  | trueValue => exact .trueValue
  | falseValue => exact .falseValue

/-- Without unset nodes nothing is replaced. -/
theorem MessageOnly.unsetToTrue_eq (h : MessageOnly returns tree) (hset : ¬ IsSubtree .notSet tree) :
    Rsp.unsetToTrue tree = tree := by
  have hterms {terms : List ERDAbstractSyntaxTree} (ih : ∀ t ∈ terms, Rsp.unsetToTrue t = t) :
      unsetToTrueTerms terms = terms := by
    rw [unsetToTrueTerms_eq_map, List.map_congr_left ih]
    exact List.map_id' terms
  induction h with
  | notSet => exact absurd (.refl _) hset
  | equals _ _ ihl ihr =>
    rw [Rsp.unsetToTrue, ihl fun hs => hset (.equals (Or.inl rfl) hs), ihr fun hs => hset (.equals (Or.inr rfl) hs)]
  | and _ _ ihl ihr =>
    rw [Rsp.unsetToTrue, ihl fun hs => hset (.and (Or.inl rfl) hs), ihr fun hs => hset (.and (Or.inr rfl) hs)]
  | or _ _ ihl ihr =>
    rw [Rsp.unsetToTrue, ihl fun hs => hset (.or (Or.inl rfl) hs), ihr fun hs => hset (.or (Or.inr rfl) hs)]
  | allOf _ _ ih => rw [Rsp.unsetToTrue, hterms fun t ht => ih t ht fun hs => hset (.allOf ht hs)]
  | anyOf _ _ ih => rw [Rsp.unsetToTrue, hterms fun t ht => ih t ht fun hs => hset (.anyOf ht hs)]
  | message _ => rfl
  | trueValue => rfl
  | falseValue => rfl

/-- Replacing unset nodes makes them count as true, whatever an unset node is worth. -/
theorem MessageOnly.treeValue_unsetToTrue (h : MessageOnly returns tree) (leaves : Leaves) :
    treeValue leaves (Rsp.unsetToTrue tree) = treeValue { leaves with unset := true } tree := by
  induction h with
  | notSet => rfl
  | equals _ _ ihl ihr => rw [Rsp.unsetToTrue, treeValue_equals, treeValue_equals, ihl, ihr]
  | and _ _ ihl ihr => rw [Rsp.unsetToTrue, treeValue_and, treeValue_and, ihl, ihr]
  | or _ _ ihl ihr => rw [Rsp.unsetToTrue, treeValue_or, treeValue_or, ihl, ihr]
  | allOf _ _ ih =>
    rw [Rsp.unsetToTrue, treeValue_allOf, treeValue_allOf, unsetToTrueTerms_eq_map, List.isEmpty_map, List.all_map]
    exact congrArg _ (all_congr_mem ih)
  | anyOf _ _ ih =>
    rw [Rsp.unsetToTrue, treeValue_anyOf, treeValue_anyOf, unsetToTrueTerms_eq_map, List.any_map]
    exact any_congr_mem ih
  | message _ => rfl
  | trueValue => rfl
  | falseValue => rfl

end

/-! ### The evaluator -/

section

variable (pb : Protobuf) (message : RSPMessage) (snap : Option SchemaSnapshot)

/-- `messageMatchesRequirement`: a `std::runtime_error` on the way counts as no match. -/
def messageMatchesRequirement (tree : ERDAbstractSyntaxTree) : Except Fault Bool :=
  match evaluateMessageRequirementTree pb message snap tree with
  | .error (.runtimeError _) => .ok false
  | result => result

/-- The leaves as `evaluateMessageRequirementTree` sees them: the message and no endorsement. -/
def messageLeaves : Leaves where
  endorsement _ := false
  message
    | none => false
    | some tree => holds (evaluateMessageTree pb message snap tree)
  unset := false

/-- The evaluation of the message tree ends without an exception or an abort. -/
def Returns (tree : ERDASTMessageTree) : Prop := ∃ value, evaluateMessageTree pb message snap tree = .ok value

variable {pb message snap} {tree : ERDAbstractSyntaxTree}

theorem evaluateMessageRequirementTree_message {leaf : Option ERDASTMessageTree}
    (h : ∀ t, leaf = some t → Returns pb message snap t) :
    evaluateMessageRequirementTree pb message snap (.message leaf) =
      .ok (treeValue (messageLeaves pb message snap) (.message leaf)) := by
  cases leaf with
  | none => rfl
  | some t => exact ok_holds_of_ok (h t rfl)

theorem evaluateMessageRequirementTreeAll_eq {terms : List ERDAbstractSyntaxTree} {value : ERDAbstractSyntaxTree → Bool}
    (h : ∀ t ∈ terms, evaluateMessageRequirementTree pb message snap t = .ok (value t)) :
    evaluateMessageRequirementTreeAll pb message snap terms = .ok (terms.all value) := by
  induction terms with
  | nil => rfl
  | cons t ts ih =>
    simp only [evaluateMessageRequirementTreeAll, h t (by simp), ih fun u hu => h u (by simp [hu]), List.all_cons]
    cases value t <;> rfl

theorem evaluateMessageRequirementTreeAny_eq {terms : List ERDAbstractSyntaxTree} {value : ERDAbstractSyntaxTree → Bool}
    (h : ∀ t ∈ terms, evaluateMessageRequirementTree pb message snap t = .ok (value t)) :
    evaluateMessageRequirementTreeAny pb message snap terms = .ok (terms.any value) := by
  induction terms with
  | nil => rfl
  | cons t ts ih =>
    simp only [evaluateMessageRequirementTreeAny, h t (by simp), ih fun u hu => h u (by simp [hu]), List.any_cons]
    cases value t <;> rfl

/-- `evaluateMessageRequirementTree` computes the value of the tree at the leaves of the message. -/
theorem evaluateMessageRequirementTree_eq (h : MessageOnly (Returns pb message snap) tree) :
    evaluateMessageRequirementTree pb message snap tree = .ok (treeValue (messageLeaves pb message snap) tree) := by
  induction h with
  | notSet => rfl
  | equals _ _ ihl ihr =>
    simp only [evaluateMessageRequirementTree, ihl, ihr]
    rfl
  | and _ _ ihl ihr =>
    simp only [evaluateMessageRequirementTree, ihl, ihr, treeValue_and]
    cases treeValue (messageLeaves pb message snap) _ <;> rfl
  | or _ _ ihl ihr =>
    simp only [evaluateMessageRequirementTree, ihl, ihr, treeValue_or]
    cases treeValue (messageLeaves pb message snap) _ <;> rfl
  | @allOf terms hne _ ih =>
    obtain ⟨t, ts, rfl⟩ := List.exists_cons_of_ne_nil hne
    exact (evaluateMessageRequirementTreeAll_eq ih).trans (by simp)
  | anyOf _ _ ih => exact (evaluateMessageRequirementTreeAny_eq ih).trans (by simp)
  | message h => exact evaluateMessageRequirementTree_message h
  | trueValue => rfl
  | falseValue => rfl

theorem messageMatchesRequirement_eq (h : MessageOnly (Returns pb message snap) tree) :
    messageMatchesRequirement pb message snap tree = .ok (treeValue (messageLeaves pb message snap) tree) := by
  rw [messageMatchesRequirement, evaluateMessageRequirementTree_eq h]

end

/-! ### The reducer -/

/-- The two answers the reducer gives without endorsements: nothing is demanded, or nothing helps. -/
def verdict (value : Bool) : ERDAbstractSyntaxTree := if value then .notSet else makeFalseTree

@[simp] theorem verdict_true : verdict true = .notSet := rfl

@[simp] theorem verdict_false : verdict false = .falseValue := rfl

@[simp] theorem isEmptyTree_verdict (value : Bool) : isEmptyTree (verdict value) = value := by
  cases value <;> rfl

@[simp] theorem isFalseTree_verdict (value : Bool) : isFalseTree (verdict value) = !value := by
  cases value <;> rfl

/-- The case where one side is empty answers with the other side, which is `EQ` on verdicts. -/
theorem combineEquals_verdict (a b : Bool) : combineEquals (verdict a) (verdict b) = verdict (a == b) := by
  cases a <;> cases b <;> rfl

theorem combineAnd_verdict (a b : Bool) : combineAnd (verdict a) (verdict b) = verdict (a && b) := by
  cases a <;> cases b <;> rfl

theorem combineOr_verdict (a b : Bool) : combineOr (verdict a) (verdict b) = verdict (a || b) := by
  cases a <;> cases b <;> rfl

section

variable {pb : Protobuf} {message : RSPMessage} {snap : Option SchemaSnapshot} {terms : List ERDAbstractSyntaxTree}
  {value : ERDAbstractSyntaxTree → Bool}

/-- No term is kept: each one is dropped or stops the loop. -/
theorem reduceTerms_allOf_verdict
    (h : ∀ t ∈ terms, reduceRequirementTreeImpl pb [] (some message) snap t = .ok (verdict (value t))) :
    (do return combineAllOf (← reduceTerms pb [] (some message) snap isEmptyTree isFalseTree terms)) =
      (.ok (verdict (terms.all value)) : Except Fault ERDAbstractSyntaxTree) := by
  rw [reduceTerms_eq (fun r hr => by rw [isEmptyTree_iff.mp hr]; rfl) h]
  have hkept : (terms.map fun t => verdict (value t)).any isFalseTree = !terms.all value := by
    rw [List.any_map, List.not_all_eq_any_not]
    exact List.any_congr rfl fun t => isFalseTree_verdict _
  show Except.ok _ = _
  rw [hkept]
  cases hall : terms.all value with
  | false => rfl
  | true =>
    have hnone : (terms.map fun t => verdict (value t)).filter (fun r => !isEmptyTree r) = [] := by
      rw [List.filter_eq_nil_iff]
      intro r hr
      obtain ⟨t, ht, rfl⟩ := List.mem_map.mp hr
      simp [List.all_eq_true.mp hall t ht, isEmptyTree]
    rw [hnone]
    rfl

theorem reduceTerms_anyOf_verdict
    (h : ∀ t ∈ terms, reduceRequirementTreeImpl pb [] (some message) snap t = .ok (verdict (value t))) :
    (do return combineAnyOf (← reduceTerms pb [] (some message) snap isFalseTree isEmptyTree terms)) =
      (.ok (verdict (terms.any value)) : Except Fault ERDAbstractSyntaxTree) := by
  rw [reduceTerms_eq (fun r hr => by rw [isFalseTree_iff.mp hr]; rfl) h]
  have hkept : (terms.map fun t => verdict (value t)).any isEmptyTree = terms.any value := by
    rw [List.any_map]
    exact List.any_congr rfl fun t => isEmptyTree_verdict _
  show Except.ok _ = _
  rw [hkept]
  cases hany : terms.any value with
  | true => rfl
  | false =>
    have hnone : (terms.map fun t => verdict (value t)).filter (fun r => !isFalseTree r) = [] := by
      rw [List.filter_eq_nil_iff]
      intro r hr
      obtain ⟨t, ht, rfl⟩ := List.mem_map.mp hr
      simp [List.any_eq_false.mp hany t ht]
    rw [hnone]
    rfl

end

section

variable {pb : Protobuf} {message : RSPMessage} {snap : Option SchemaSnapshot} {tree : ERDAbstractSyntaxTree}

/-- A folded constant is the value, so the tests before the switch change nothing at an inner node. -/
theorem reduceWholeOr_verdict {leaves : Leaves} {operands : Except Fault ERDAbstractSyntaxTree}
    (hnode : isMessagePredicateNode tree = false) (hoperands : operands = .ok (verdict (treeValue leaves tree))) :
    reduceWholeOr pb [] (some message) snap tree operands = .ok (verdict (treeValue leaves tree)) := by
  have hagrees := getConstantTreeValue_agrees leaves tree
  unfold reduceWholeOr reduceWhole
  cases hc : getConstantTreeValue tree with
  | kTrue =>
    rw [hc] at hagrees
    rw [show treeValue leaves tree = true from hagrees]
    rfl
  | kFalse =>
    rw [hc] at hagrees
    rw [show treeValue leaves tree = false from hagrees]
    rfl
  | kUnknown =>
    simp only [anyEndorsementMatchesTree, hnode, hoperands]
    rfl

/-- The reducer computes the value of the tree with unset nodes counted as true. -/
theorem reduceRequirementTreeImpl_eq (h : MessageOnly (Returns pb message snap) tree) :
    reduceRequirementTreeImpl pb [] (some message) snap tree =
      .ok (verdict (treeValue { messageLeaves pb message snap with unset := true } tree)) := by
  induction h with
  | notSet => rfl
  | equals _ _ ihl ihr =>
    rw [reduceRequirementTreeImpl]
    apply reduceWholeOr_verdict rfl
    rw [ihl, ihr]
    exact congrArg Except.ok (combineEquals_verdict _ _)
  | and _ _ ihl ihr =>
    rw [reduceRequirementTreeImpl]
    apply reduceWholeOr_verdict rfl
    rw [ihl, ihr]
    exact congrArg Except.ok (combineAnd_verdict _ _)
  | or _ _ ihl ihr =>
    rw [reduceRequirementTreeImpl]
    apply reduceWholeOr_verdict rfl
    rw [ihl, ihr]
    exact congrArg Except.ok (combineOr_verdict _ _)
  | @allOf terms hne _ ih =>
    obtain ⟨t, ts, rfl⟩ := List.exists_cons_of_ne_nil hne
    rw [reduceRequirementTreeImpl]
    apply reduceWholeOr_verdict rfl
    rw [reduceTerms_allOf_verdict ih, treeValue_allOf]
    rfl
  | @anyOf terms hne _ ih =>
    obtain ⟨t, ts, rfl⟩ := List.exists_cons_of_ne_nil hne
    rw [reduceRequirementTreeImpl]
    apply reduceWholeOr_verdict rfl
    rw [reduceTerms_anyOf_verdict ih, treeValue_anyOf]
  | @message leaf h =>
    have hleaf := evaluateMessageRequirementTree_message h
    simp only [reduceRequirementTreeImpl, reduceWholeOr, reduceWhole, getConstantTreeValue, anyEndorsementMatchesTree,
      isMessagePredicateNode, hleaf]
    rfl
  | trueValue => rfl
  | falseValue => rfl

/-- **Message-only policies.** Reduction answers with the empty tree or with `FALSE`, and with the empty tree exactly when the message matches the tree whose unset nodes are read as `TRUE`; without unset nodes that is the tree itself. -/
theorem reduceRequirementTree_messageOnly (h : MessageOnly (Returns pb message snap) tree) :
    (∃ isMatch, messageMatchesRequirement pb message snap (unsetToTrue tree) = .ok isMatch ∧
      reduceRequirementTree pb [] (some message) snap tree = .ok (if isMatch then .notSet else .falseValue)) ∧
    (¬ IsSubtree .notSet tree → unsetToTrue tree = tree) := by
  refine ⟨⟨_, messageMatchesRequirement_eq h.unsetToTrue, ?_⟩, h.unsetToTrue_eq⟩
  rw [reduceRequirementTree, reduceRequirementTreeImpl_eq h, h.treeValue_unsetToTrue]
  rfl

end

/-- A ping request, demanded through an `EQ` whose second operand is an unset node. -/
def pingEqualsUnset : ERDAbstractSyntaxTree :=
  .anyOf [.falseValue, .equals (some (.message (some (.fieldExists (some ⟨[ascii "ping_request"]⟩))))) (some .notSet)]

theorem reduceRequirementTree_messageOnly_pingEqualsUnset :
    (∃ isMatch, messageMatchesRequirement default { coreMessage := .pingRequest {} } none
        (unsetToTrue pingEqualsUnset) = .ok isMatch ∧
      reduceRequirementTree default [] (some { coreMessage := .pingRequest {} }) none pingEqualsUnset =
        .ok (if isMatch then .notSet else .falseValue)) ∧
    (¬ IsSubtree .notSet pingEqualsUnset → unsetToTrue pingEqualsUnset = pingEqualsUnset) := by
  apply reduceRequirementTree_messageOnly
  refine .anyOf (by simp) ?_
  intro t ht
  rcases List.mem_pair.mp ht with rfl | rfl
  · exact .falseValue
  · refine .equals (.message ?_) .notSet
    intro leaf hleaf
    obtain rfl := Option.some.inj hleaf
    exact ⟨true, by decide⟩

/-- An unset policy: reduction leaves it empty, so the message queue lets every message pass, while no message matches it. -/
theorem notSet_reduced_without_match :
    MessageOnly (Returns default {} none) .notSet ∧
      reduceRequirementTree default [] (some {}) none .notSet = .ok .notSet ∧
      messageMatchesRequirement default {} none .notSet = .ok false :=
  ⟨.notSet, rfl, rfl⟩

end Rsp
