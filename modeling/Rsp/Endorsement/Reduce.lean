import Rsp.Endorsement.Evaluate

/-!
# Reduction of requirement trees

`reduceRequirementTree` of `endorsement.cpp`. Before it looks at a node it folds constants, then returns the empty tree if one single endorsement satisfies the whole subtree, and then evaluates a `MESSAGE` leaf; only after that it reduces the operands and combines what is left of them. The empty (unset) tree means that nothing is demanded any more.
-/

namespace Rsp

open Proto

def isEmptyTree : ERDAbstractSyntaxTree → Bool
  | .notSet => true
  | _ => false

def isFalseTree : ERDAbstractSyntaxTree → Bool
  | .falseValue => true
  | _ => false

def makeFalseTree : ERDAbstractSyntaxTree := .falseValue

def makeAndTree (lhs rhs : ERDAbstractSyntaxTree) : ERDAbstractSyntaxTree := .and (some lhs) (some rhs)

def makeOrTree (lhs rhs : ERDAbstractSyntaxTree) : ERDAbstractSyntaxTree := .or (some lhs) (some rhs)

def makeEqualsTree (lhs rhs : ERDAbstractSyntaxTree) : ERDAbstractSyntaxTree := .equals (some lhs) (some rhs)

def makeAllOfTree : List ERDAbstractSyntaxTree → ERDAbstractSyntaxTree
  | [] => .notSet
  | terms => .allOf terms

def makeAnyOfTree : List ERDAbstractSyntaxTree → ERDAbstractSyntaxTree
  | [] => .notSet
  | terms => .anyOf terms

/-! ### Constant folding -/

inductive ConstantTreeValue where
  | kUnknown
  | kTrue
  | kFalse
deriving DecidableEq, Repr

def constantEquals : ConstantTreeValue → ConstantTreeValue → ConstantTreeValue
  | .kUnknown, _ | _, .kUnknown => .kUnknown
  | left, right => if left = right then .kTrue else .kFalse

def constantAnd (left right : ConstantTreeValue) : ConstantTreeValue :=
  if left = .kFalse ∨ right = .kFalse then .kFalse
  else if left = .kTrue ∧ right = .kTrue then .kTrue
  else .kUnknown

def constantOr (left right : ConstantTreeValue) : ConstantTreeValue :=
  if left = .kTrue ∨ right = .kTrue then .kTrue
  else if left = .kFalse ∧ right = .kFalse then .kFalse
  else .kUnknown

mutual

def getConstantTreeValue : ERDAbstractSyntaxTree → ConstantTreeValue
  | .trueValue => .kTrue
  | .falseValue => .kFalse
  | .equals (some lhs) (some rhs) => constantEquals (getConstantTreeValue lhs) (getConstantTreeValue rhs)
  | .equals _ _ => .kUnknown
  | .and (some lhs) (some rhs) => constantAnd (getConstantTreeValue lhs) (getConstantTreeValue rhs)
  | .and _ _ => .kUnknown
  | .or (some lhs) (some rhs) => constantOr (getConstantTreeValue lhs) (getConstantTreeValue rhs)
  | .or _ _ => .kUnknown
  | .allOf [] => .kUnknown
  | .allOf (term :: terms) => constantAllOf true (term :: terms)
  | .anyOf [] => .kUnknown
  | .anyOf (term :: terms) => constantAnyOf true (term :: terms)
  | .endorsement _ => .kUnknown
  | .message _ => .kUnknown
  | .notSet => .kUnknown

/-- The loop over the terms of an `ALLOF` node. -/
def constantAllOf (allTrue : Bool) : List ERDAbstractSyntaxTree → ConstantTreeValue
  | [] => if allTrue then .kTrue else .kUnknown
  | term :: terms =>
    match getConstantTreeValue term with
    | .kFalse => .kFalse
    | .kTrue => constantAllOf allTrue terms
    | .kUnknown => constantAllOf false terms

/-- The loop over the terms of an `ANYOF` node. -/
def constantAnyOf (allFalse : Bool) : List ERDAbstractSyntaxTree → ConstantTreeValue
  | [] => if allFalse then .kFalse else .kUnknown
  | term :: terms =>
    match getConstantTreeValue term with
    | .kTrue => .kTrue
    | .kFalse => constantAnyOf allFalse terms
    | .kUnknown => constantAnyOf false terms

end

/-! ### Combining reduced operands -/

def combineEquals (left right : ERDAbstractSyntaxTree) : ERDAbstractSyntaxTree :=
  if isEmptyTree left && isEmptyTree right then .notSet
  else if isEmptyTree left then right
  else if isEmptyTree right then left
  else if isFalseTree left && isFalseTree right then .notSet
  else makeEqualsTree left right

def combineAnd (left right : ERDAbstractSyntaxTree) : ERDAbstractSyntaxTree :=
  if isEmptyTree left then right
  else if isEmptyTree right then left
  else if isFalseTree left || isFalseTree right then makeFalseTree
  else makeAndTree left right

def combineOr (left right : ERDAbstractSyntaxTree) : ERDAbstractSyntaxTree :=
  if isEmptyTree left || isEmptyTree right then .notSet
  else if isFalseTree left then right
  else if isFalseTree right then left
  else makeOrTree left right

/-- The end of the `ALLOF` case; `none` when the loop returned at a term that reduced to false. -/
def combineAllOf : Option (List ERDAbstractSyntaxTree) → ERDAbstractSyntaxTree
  | none => makeFalseTree
  | some [] => .notSet
  | some [term] => term
  | some remainingTerms => makeAllOfTree remainingTerms

/-- The end of the `ANYOF` case; `none` when the loop returned at a term that reduced to the empty tree. -/
def combineAnyOf : Option (List ERDAbstractSyntaxTree) → ERDAbstractSyntaxTree
  | none => .notSet
  | some [] => makeFalseTree
  | some [term] => term
  | some remainingTerms => makeAnyOfTree remainingTerms

/-! ### The reducer -/

def isMessagePredicateNode : ERDAbstractSyntaxTree → Bool
  | .message _ => true
  | _ => false

def anyEndorsementMatchesTree (tree : ERDAbstractSyntaxTree) : List Endorsement → Except Fault Bool
  | [] => .ok false
  | endorsement :: endorsements => do
    if ← evaluateRequirementTree endorsement tree then return true
    else anyEndorsementMatchesTree tree endorsements

section

variable (pb : Protobuf) (endorsements : List Endorsement) (message : Option RSPMessage)
  (snap : Option SchemaSnapshot)

/-- The tests made on the tree as a whole; `none` when they leave it to the switch. -/
def reduceWhole (tree : ERDAbstractSyntaxTree) : Except Fault (Option ERDAbstractSyntaxTree) :=
  match getConstantTreeValue tree with
  | .kTrue => .ok (some .notSet)
  | .kFalse => .ok (some makeFalseTree)
  | .kUnknown => do
    if ← anyEndorsementMatchesTree tree endorsements then return some .notSet
    match message with
    | none => return none
    | some message =>
      if isMessagePredicateNode tree then
        return some (if ← evaluateMessageRequirementTree pb message snap tree then .notSet else makeFalseTree)
      else return none

/-- The switch `operands` is reached only when the tests on the whole tree do not decide it. -/
def reduceWholeOr (tree : ERDAbstractSyntaxTree) (operands : Except Fault ERDAbstractSyntaxTree) :
    Except Fault ERDAbstractSyntaxTree := do
  match ← reduceWhole pb endorsements message snap tree with
  | some reduced => return reduced
  | none => operands

mutual

def reduceRequirementTreeImpl : ERDAbstractSyntaxTree → Except Fault ERDAbstractSyntaxTree
  | .equals (some lhs) (some rhs) =>
    reduceWholeOr pb endorsements message snap (.equals (some lhs) (some rhs)) do
      let reducedLeft ← reduceRequirementTreeImpl lhs
      let reducedRight ← reduceRequirementTreeImpl rhs
      return combineEquals reducedLeft reducedRight
  | .and (some lhs) (some rhs) =>
    reduceWholeOr pb endorsements message snap (.and (some lhs) (some rhs)) do
      let reducedLeft ← reduceRequirementTreeImpl lhs
      let reducedRight ← reduceRequirementTreeImpl rhs
      return combineAnd reducedLeft reducedRight
  | .or (some lhs) (some rhs) =>
    reduceWholeOr pb endorsements message snap (.or (some lhs) (some rhs)) do
      let reducedLeft ← reduceRequirementTreeImpl lhs
      let reducedRight ← reduceRequirementTreeImpl rhs
      return combineOr reducedLeft reducedRight
  | .allOf (term :: terms) =>
    reduceWholeOr pb endorsements message snap (.allOf (term :: terms)) do
      return combineAllOf (← reduceTerms isEmptyTree isFalseTree (term :: terms))
  | .anyOf (term :: terms) =>
    reduceWholeOr pb endorsements message snap (.anyOf (term :: terms)) do
      return combineAnyOf (← reduceTerms isFalseTree isEmptyTree (term :: terms))
  | tree => reduceWholeOr pb endorsements message snap tree (.ok tree)

/-- The loop over the terms of an n-ary node. `ALLOF` drops satisfied terms and stops at a false one, `ANYOF` drops false terms and stops at a satisfied one; `none` when it stopped. -/
def reduceTerms (dropped stopped : ERDAbstractSyntaxTree → Bool) :
    List ERDAbstractSyntaxTree → Except Fault (Option (List ERDAbstractSyntaxTree))
  | [] => .ok (some [])
  | term :: terms => do
    let reducedTerm ← reduceRequirementTreeImpl term
    if dropped reducedTerm then reduceTerms dropped stopped terms
    else if stopped reducedTerm then return none
    else return (← reduceTerms dropped stopped terms).map (reducedTerm :: ·)

end

/-- A `std::runtime_error` on the way leaves the tree as it was. -/
def reduceRequirementTree (tree : ERDAbstractSyntaxTree) : Except Fault ERDAbstractSyntaxTree :=
  match reduceRequirementTreeImpl pb endorsements message snap tree with
  | .error (.runtimeError _) => .ok tree
  | result => result

end

end Rsp
