import Rsp.Endorsement.Reduce

/-!
# What a requirement tree means

The Boolean meaning of a requirement tree, independent of how it is evaluated: the connectives combine the values of the leaves, and a structure `Leaves` says what the leaves are worth. All evaluators of `endorsement.cpp` are this one function at different leaf values: a single endorsement makes every `MESSAGE` leaf false, a message alone makes every `ENDORSEMENT` leaf false, and the reference value `requirementValue` uses a whole list of endorsements together with the message. Without `EQ` nodes the value is monotone in the leaves.
-/

namespace Rsp

open Proto

/-! ### The value of a tree -/

/-- What the leaves of a tree are worth. -/
structure Leaves where
  endorsement : Option ERDASTEndTree → Bool
  message : Option ERDASTMessageTree → Bool
  unset : Bool

mutual

/-- The connectives; a node that lacks an operand, or an n-ary node without terms, is false. -/
def treeValue (leaves : Leaves) : ERDAbstractSyntaxTree → Bool
  | .equals (some lhs) (some rhs) => treeValue leaves lhs == treeValue leaves rhs
  | .equals _ _ => false
  | .and (some lhs) (some rhs) => treeValue leaves lhs && treeValue leaves rhs
  | .and _ _ => false
  | .or (some lhs) (some rhs) => treeValue leaves lhs || treeValue leaves rhs
  | .or _ _ => false
  | .allOf terms => !terms.isEmpty && allTrue leaves terms
  | .anyOf terms => anyTrue leaves terms
  | .endorsement tree => leaves.endorsement tree
  | .message tree => leaves.message tree
  | .trueValue => true
  | .falseValue => false
  | .notSet => leaves.unset

def allTrue (leaves : Leaves) : List ERDAbstractSyntaxTree → Bool
  | [] => true
  | term :: terms => treeValue leaves term && allTrue leaves terms

def anyTrue (leaves : Leaves) : List ERDAbstractSyntaxTree → Bool
  | [] => false
  | term :: terms => treeValue leaves term || anyTrue leaves terms

end

section

variable (leaves : Leaves)

theorem allTrue_eq_all (terms : List ERDAbstractSyntaxTree) :
    allTrue leaves terms = terms.all (treeValue leaves) := by
  induction terms with
  | nil => rfl
  | cons term terms ih => rw [allTrue, ih, List.all_cons]

theorem anyTrue_eq_any (terms : List ERDAbstractSyntaxTree) :
    anyTrue leaves terms = terms.any (treeValue leaves) := by
  induction terms with
  | nil => rfl
  | cons term terms ih => rw [anyTrue, ih, List.any_cons]

@[simp] theorem treeValue_equals (lhs rhs : ERDAbstractSyntaxTree) :
    treeValue leaves (.equals (some lhs) (some rhs)) = (treeValue leaves lhs == treeValue leaves rhs) := rfl

@[simp] theorem treeValue_and (lhs rhs : ERDAbstractSyntaxTree) :
    treeValue leaves (.and (some lhs) (some rhs)) = (treeValue leaves lhs && treeValue leaves rhs) := rfl

@[simp] theorem treeValue_or (lhs rhs : ERDAbstractSyntaxTree) :
    treeValue leaves (.or (some lhs) (some rhs)) = (treeValue leaves lhs || treeValue leaves rhs) := rfl

@[simp] theorem treeValue_allOf (terms : List ERDAbstractSyntaxTree) :
    treeValue leaves (.allOf terms) = (!terms.isEmpty && terms.all (treeValue leaves)) := by
  rw [treeValue, allTrue_eq_all]

@[simp] theorem treeValue_anyOf (terms : List ERDAbstractSyntaxTree) :
    treeValue leaves (.anyOf terms) = terms.any (treeValue leaves) := by
  rw [treeValue, anyTrue_eq_any]

@[simp] theorem treeValue_endorsement (tree : Option ERDASTEndTree) :
    treeValue leaves (.endorsement tree) = leaves.endorsement tree := rfl

@[simp] theorem treeValue_message (tree : Option ERDASTMessageTree) :
    treeValue leaves (.message tree) = leaves.message tree := rfl

@[simp] theorem treeValue_trueValue : treeValue leaves .trueValue = true := rfl

@[simp] theorem treeValue_falseValue : treeValue leaves .falseValue = false := rfl

@[simp] theorem treeValue_notSet : treeValue leaves .notSet = leaves.unset := rfl

end

/-! ### Well-formed trees -/

mutual

/-- Every endorsement type and signer in the tree has 16 bytes. -/
def idsValid : ERDASTEndTree → Bool
  | .equals lhs rhs => optionIdsValid lhs && optionIdsValid rhs
  | .and lhs rhs => optionIdsValid lhs && optionIdsValid rhs
  | .or lhs rhs => optionIdsValid lhs && optionIdsValid rhs
  | .allOf terms => termsIdsValid terms
  | .anyOf terms => termsIdsValid terms
  | .typeEquals (some type) => type.value.length == 16
  | .signerEquals (some signer) => signer.value.length == 16
  | _ => true

def optionIdsValid : Option ERDASTEndTree → Bool
  | none => true
  | some tree => idsValid tree

def termsIdsValid : List ERDASTEndTree → Bool
  | [] => true
  | tree :: terms => idsValid tree && termsIdsValid terms

end

/-- Both operands on every binary node, at least one term on every n-ary node and 16-byte ids. `hasEq` and `hasUnset` say whether `EQ` nodes and unset nodes may occur at requirement level. -/
inductive WellFormed (hasEq hasUnset : Prop) : ERDAbstractSyntaxTree → Prop
  | notSet (h : hasUnset) : WellFormed hasEq hasUnset .notSet
  | equals {lhs rhs : ERDAbstractSyntaxTree} (h : hasEq) (hl : WellFormed hasEq hasUnset lhs)
      (hr : WellFormed hasEq hasUnset rhs) : WellFormed hasEq hasUnset (.equals (some lhs) (some rhs))
  | and {lhs rhs : ERDAbstractSyntaxTree} (hl : WellFormed hasEq hasUnset lhs)
      (hr : WellFormed hasEq hasUnset rhs) : WellFormed hasEq hasUnset (.and (some lhs) (some rhs))
  | or {lhs rhs : ERDAbstractSyntaxTree} (hl : WellFormed hasEq hasUnset lhs)
      (hr : WellFormed hasEq hasUnset rhs) : WellFormed hasEq hasUnset (.or (some lhs) (some rhs))
  | trueValue : WellFormed hasEq hasUnset .trueValue
  | falseValue : WellFormed hasEq hasUnset .falseValue
  | allOf {terms : List ERDAbstractSyntaxTree} (hne : terms ≠ [])
      (h : ∀ t ∈ terms, WellFormed hasEq hasUnset t) : WellFormed hasEq hasUnset (.allOf terms)
  | anyOf {terms : List ERDAbstractSyntaxTree} (hne : terms ≠ [])
      (h : ∀ t ∈ terms, WellFormed hasEq hasUnset t) : WellFormed hasEq hasUnset (.anyOf terms)
  | endorsement {tree : Option ERDASTEndTree} (h : optionIdsValid tree = true) :
      WellFormed hasEq hasUnset (.endorsement tree)
  | message (tree : Option ERDASTMessageTree) : WellFormed hasEq hasUnset (.message tree)

/-- The nodes of a tree at requirement level, as the trees below them. -/
inductive IsSubtree : ERDAbstractSyntaxTree → ERDAbstractSyntaxTree → Prop
  | refl (t : ERDAbstractSyntaxTree) : IsSubtree t t
  | equals {s t : ERDAbstractSyntaxTree} {lhs rhs : Option ERDAbstractSyntaxTree} (h : t ∈ lhs ∨ t ∈ rhs)
      (hs : IsSubtree s t) : IsSubtree s (.equals lhs rhs)
  | and {s t : ERDAbstractSyntaxTree} {lhs rhs : Option ERDAbstractSyntaxTree} (h : t ∈ lhs ∨ t ∈ rhs)
      (hs : IsSubtree s t) : IsSubtree s (.and lhs rhs)
  | or {s t : ERDAbstractSyntaxTree} {lhs rhs : Option ERDAbstractSyntaxTree} (h : t ∈ lhs ∨ t ∈ rhs)
      (hs : IsSubtree s t) : IsSubtree s (.or lhs rhs)
  | allOf {s t : ERDAbstractSyntaxTree} {terms : List ERDAbstractSyntaxTree} (h : t ∈ terms)
      (hs : IsSubtree s t) : IsSubtree s (.allOf terms)
  | anyOf {s t : ERDAbstractSyntaxTree} {terms : List ERDAbstractSyntaxTree} (h : t ∈ terms)
      (hs : IsSubtree s t) : IsSubtree s (.anyOf terms)

theorem IsSubtree.trans {s t u : ERDAbstractSyntaxTree} (hst : IsSubtree s t) (htu : IsSubtree t u) :
    IsSubtree s u := by
  induction htu with
  | refl => exact hst
  | equals h _ ih => exact .equals h ih
  | and h _ ih => exact .and h ih
  | or h _ ih => exact .or h ih
  | allOf h _ ih => exact .allOf h ih
  | anyOf h _ ih => exact .anyOf h ih

theorem WellFormed.subtree {hasEq hasUnset : Prop} {s t : ERDAbstractSyntaxTree}
    (hwf : WellFormed hasEq hasUnset t) (hsub : IsSubtree s t) : WellFormed hasEq hasUnset s := by
  induction hsub with
  | refl => exact hwf
  | equals h _ ih =>
    cases hwf with
    | equals _ hl hr =>
      rcases h with h | h <;> cases h
      · exact ih hl
      · exact ih hr
  | and h _ ih =>
    cases hwf with
    | and hl hr =>
      rcases h with h | h <;> cases h
      · exact ih hl
      · exact ih hr
  | or h _ ih =>
    cases hwf with
    | or hl hr =>
      rcases h with h | h <;> cases h
      · exact ih hl
      · exact ih hr
  | allOf h _ ih =>
    cases hwf with
    | allOf _ hterms => exact ih (hterms _ h)
  | anyOf h _ ih =>
    cases hwf with
    | anyOf _ hterms => exact ih (hterms _ h)

/-! ### Monotonicity -/

/-- Pointwise order on leaf values. -/
def Leaves.le (low high : Leaves) : Prop :=
  (∀ tree, low.endorsement tree = true → high.endorsement tree = true) ∧
    (∀ tree, low.message tree = true → high.message tree = true) ∧ (low.unset = true → high.unset = true)

theorem treeValue_mono {low high : Leaves} (hle : low.le high) {hasUnset : Prop} {t : ERDAbstractSyntaxTree}
    (hwf : WellFormed False hasUnset t) (hlow : treeValue low t = true) : treeValue high t = true := by
  induction hwf with
  | notSet h => exact hle.2.2 hlow
  | equals h hl hr ihl ihr => exact h.elim
  | and hl hr ihl ihr =>
    simp only [treeValue_and, Bool.and_eq_true] at hlow ⊢
    exact ⟨ihl hlow.1, ihr hlow.2⟩
  | or hl hr ihl ihr =>
    simp only [treeValue_or, Bool.or_eq_true] at hlow ⊢
    exact hlow.imp ihl ihr
  | trueValue => rfl
  | falseValue => exact hlow
  | allOf hne h ih =>
    simp only [treeValue_allOf, Bool.and_eq_true, List.all_eq_true] at hlow ⊢
    exact ⟨hlow.1, fun t ht => ih t ht (hlow.2 t ht)⟩
  | anyOf hne h ih =>
    simp only [treeValue_anyOf, List.any_eq_true] at hlow ⊢
    obtain ⟨t, ht, hval⟩ := hlow
    exact ⟨t, ht, ih t ht hval⟩
  | endorsement h => exact hle.1 _ hlow
  | message tree => exact hle.2.1 _ hlow

/-! ### One endorsement -/

/-- A computation of a truth value that returned `true`. -/
def holds (result : Except Fault Bool) : Bool :=
  match result with
  | .ok value => value
  | .error _ => false

@[simp] theorem holds_ok (value : Bool) : holds (.ok value) = value := rfl

theorem ok_holds_of_ok {result : Except Fault Bool} (h : ∃ value, result = .ok value) : result = .ok (holds result) := by
  obtain ⟨value, rfl⟩ := h
  rfl

/-- The leaves as `evaluateRequirementTree` sees them: one endorsement and no message. -/
def singleLeaves (e : Endorsement) : Leaves where
  endorsement
    | none => false
    | some tree => holds (evaluateEndorsementTree e tree)
  message _ := false
  unset := false

theorem deserializeGuidBytes_ok (bytes : Bytes) (h : bytes.length = 16) (fieldName : String) :
    ∃ guid, deserializeGuidBytes bytes fieldName = .ok guid := by
  simp [deserializeGuidBytes, GUID.ofBigEndian, h]

theorem require_eq_ok {condition : Bool} {message : String} {rest : Except Fault Unit} :
    require condition message rest = .ok () ↔ condition = true ∧ rest = .ok () := by
  cases condition <;> simp [require]

theorem Endorsement.Valid.lengths {e : Endorsement} (h : e.Valid) :
    (nodeIdValue e.message.endorsementService).length = 16 ∧ (uuidValue e.message.endorsementType).length = 16 := by
  simp only [Endorsement.Valid, Endorsement.validateMessage, validateUuidLike, require_eq_ok, beq_iff_eq] at h
  exact ⟨h.2.2.2.2.2.1, h.2.2.2.2.2.2.1⟩

theorem termsIdsValid_iff (terms : List ERDASTEndTree) : termsIdsValid terms = true ↔ ∀ t ∈ terms, idsValid t = true := by
  induction terms with
  | nil => simp [termsIdsValid]
  | cons t ts ih => simp [termsIdsValid, ih]

theorem evaluateEndorsementTreeAll_ok {e : Endorsement} {terms : List ERDASTEndTree}
    (h : ∀ t ∈ terms, ∃ b, evaluateEndorsementTree e t = .ok b) : ∃ b, evaluateEndorsementTreeAll e terms = .ok b := by
  induction terms with
  | nil => exact ⟨true, rfl⟩
  | cons t ts ih =>
    obtain ⟨b, hb⟩ := h t (by simp)
    obtain ⟨c, hc⟩ := ih fun u hu => h u (by simp [hu])
    cases b <;> simp [evaluateEndorsementTreeAll, hb, hc, bind, Except.bind, pure, Except.pure]

theorem evaluateEndorsementTreeAny_ok {e : Endorsement} {terms : List ERDASTEndTree}
    (h : ∀ t ∈ terms, ∃ b, evaluateEndorsementTree e t = .ok b) : ∃ b, evaluateEndorsementTreeAny e terms = .ok b := by
  induction terms with
  | nil => exact ⟨false, rfl⟩
  | cons t ts ih =>
    obtain ⟨b, hb⟩ := h t (by simp)
    obtain ⟨c, hc⟩ := ih fun u hu => h u (by simp [hu])
    cases b <;> simp [evaluateEndorsementTreeAny, hb, hc, bind, Except.bind, pure, Except.pure]

/-- On a valid endorsement and 16-byte ids nothing is thrown. -/
theorem evaluateEndorsementTree_operands {e : Endorsement} {lhs rhs : Option ERDASTEndTree}
    (hl : ∀ l, lhs = some l → ∃ a, evaluateEndorsementTree e l = .ok a)
    (hr : ∀ r, rhs = some r → ∃ b, evaluateEndorsementTree e r = .ok b) :
    lhs = none ∨ rhs = none ∨ ∃ l r a b, lhs = some l ∧ rhs = some r ∧
      evaluateEndorsementTree e l = .ok a ∧ evaluateEndorsementTree e r = .ok b := by
  cases lhs with
  | none => exact .inl rfl
  | some l =>
    cases rhs with
    | none => exact .inr (.inl rfl)
    | some r =>
      obtain ⟨a, ha⟩ := hl l rfl
      obtain ⟨b, hb⟩ := hr r rfl
      exact .inr (.inr ⟨l, r, a, b, rfl, rfl, ha, hb⟩)

theorem evaluateEndorsementTree_ok {e : Endorsement} (he : e.Valid) {tree : ERDASTEndTree}
    (hids : idsValid tree = true) : ∃ b, evaluateEndorsementTree e tree = .ok b := by
  have hvalid : Endorsement.validateMessage e.message true = .ok () := he
  obtain ⟨hservice, htype⟩ := he.lengths
  induction tree with
  | notSet => exact ⟨false, rfl⟩
  | trueValue => exact ⟨true, rfl⟩
  | falseValue => exact ⟨false, rfl⟩
  | equals lhs rhs ihl ihr =>
    simp only [idsValid, Bool.and_eq_true] at hids
    rcases evaluateEndorsementTree_operands (e := e) (fun l hl => ihl l hl (by simpa [hl, optionIdsValid] using hids.1))
      (fun r hr => ihr r hr (by simpa [hr, optionIdsValid] using hids.2)) with rfl | rfl | ⟨l, r, a, b, rfl, rfl, ha, hb⟩
    · exact ⟨false, by simp [evaluateEndorsementTree]⟩
    · exact ⟨false, by cases lhs <;> simp [evaluateEndorsementTree]⟩
    · exact ⟨a == b, by simp [evaluateEndorsementTree, ha, hb, bind, Except.bind, pure, Except.pure]⟩
  | and lhs rhs ihl ihr =>
    simp only [idsValid, Bool.and_eq_true] at hids
    rcases evaluateEndorsementTree_operands (e := e) (fun l hl => ihl l hl (by simpa [hl, optionIdsValid] using hids.1))
      (fun r hr => ihr r hr (by simpa [hr, optionIdsValid] using hids.2)) with rfl | rfl | ⟨l, r, a, b, rfl, rfl, ha, hb⟩
    · exact ⟨false, by simp [evaluateEndorsementTree]⟩
    · exact ⟨false, by cases lhs <;> simp [evaluateEndorsementTree]⟩
    · exact ⟨a && b, by cases a <;> simp [evaluateEndorsementTree, ha, hb, bind, Except.bind, pure, Except.pure]⟩
  | or lhs rhs ihl ihr =>
    simp only [idsValid, Bool.and_eq_true] at hids
    rcases evaluateEndorsementTree_operands (e := e) (fun l hl => ihl l hl (by simpa [hl, optionIdsValid] using hids.1))
      (fun r hr => ihr r hr (by simpa [hr, optionIdsValid] using hids.2)) with rfl | rfl | ⟨l, r, a, b, rfl, rfl, ha, hb⟩
    · exact ⟨false, by simp [evaluateEndorsementTree]⟩
    · exact ⟨false, by cases lhs <;> simp [evaluateEndorsementTree]⟩
    · exact ⟨a || b, by cases a <;> simp [evaluateEndorsementTree, ha, hb, bind, Except.bind, pure, Except.pure]⟩
  | allOf terms ih =>
    rw [idsValid, termsIdsValid_iff] at hids
    cases terms with
    | nil => exact ⟨false, by simp [evaluateEndorsementTree]⟩
    | cons t ts => exact evaluateEndorsementTreeAll_ok fun u hu => ih u hu (hids u hu)
  | anyOf terms ih =>
    rw [idsValid, termsIdsValid_iff] at hids
    exact evaluateEndorsementTreeAny_ok fun u hu => ih u hu (hids u hu)
  | typeEquals type =>
    cases type with
    | none => exact ⟨false, by simp [evaluateEndorsementTree]⟩
    | some type =>
      obtain ⟨actual, hactual⟩ := deserializeGuidBytes_ok _ htype "invalid endorsement type length"
      obtain ⟨required, hrequired⟩ := deserializeGuidBytes_ok type.value
        (by simpa [idsValid] using hids) "invalid requirement endorsement type length"
      exact ⟨actual == required, by simp [evaluateEndorsementTree, Endorsement.endorsementType, hvalid, hactual,
        hrequired, bind, Except.bind, pure, Except.pure]⟩
  | valueEquals value =>
    exact ⟨e.message.endorsementValue == value, by simp [evaluateEndorsementTree, Endorsement.endorsementValue, hvalid,
      bind, Except.bind, pure, Except.pure]⟩
  | signerEquals signer =>
    cases signer with
    | none => exact ⟨false, by simp [evaluateEndorsementTree]⟩
    | some signer =>
      obtain ⟨actual, hactual⟩ := deserializeGuidBytes_ok _ hservice "invalid endorsement service length"
      obtain ⟨required, hrequired⟩ := deserializeGuidBytes_ok signer.value
        (by simpa [idsValid] using hids) "invalid requirement signer length"
      exact ⟨actual == required, by simp [evaluateEndorsementTree, Endorsement.endorsementService, hvalid, hactual,
        hrequired, bind, Except.bind, pure, Except.pure]⟩

section

variable {hasEq hasUnset : Prop}

theorem evaluateRequirementTreeAll_eq {e : Endorsement} {terms : List ERDAbstractSyntaxTree}
    (h : ∀ t ∈ terms, evaluateRequirementTree e t = .ok (treeValue (singleLeaves e) t)) :
    evaluateRequirementTreeAll e terms = .ok (terms.all (treeValue (singleLeaves e))) := by
  induction terms with
  | nil => rfl
  | cons t ts ih =>
    simp only [evaluateRequirementTreeAll, h t (by simp), ih fun u hu => h u (by simp [hu]), List.all_cons]
    cases treeValue (singleLeaves e) t <;> rfl

theorem evaluateRequirementTreeAny_eq {e : Endorsement} {terms : List ERDAbstractSyntaxTree}
    (h : ∀ t ∈ terms, evaluateRequirementTree e t = .ok (treeValue (singleLeaves e) t)) :
    evaluateRequirementTreeAny e terms = .ok (terms.any (treeValue (singleLeaves e))) := by
  induction terms with
  | nil => rfl
  | cons t ts ih =>
    simp only [evaluateRequirementTreeAny, h t (by simp), ih fun u hu => h u (by simp [hu]), List.any_cons]
    cases treeValue (singleLeaves e) t <;> rfl

/-- `evaluateRequirementTree` computes the value of the tree at the leaves of one endorsement. -/
theorem evaluateRequirementTree_eq {e : Endorsement} (he : e.Valid) {t : ERDAbstractSyntaxTree}
    (hwf : WellFormed hasEq hasUnset t) : evaluateRequirementTree e t = .ok (treeValue (singleLeaves e) t) := by
  induction hwf with
  | notSet h => rfl
  | equals h hl hr ihl ihr => simp only [evaluateRequirementTree, ihl, ihr]; rfl
  | and hl hr ihl ihr =>
    simp only [evaluateRequirementTree, ihl, ihr, treeValue_and]
    cases treeValue (singleLeaves e) _ <;> rfl
  | or hl hr ihl ihr =>
    simp only [evaluateRequirementTree, ihl, ihr, treeValue_or]
    cases treeValue (singleLeaves e) _ <;> rfl
  | trueValue => rfl
  | falseValue => rfl
  | @allOf terms hne h ih =>
    cases terms with
    | nil => exact absurd rfl hne
    | cons t ts => exact (evaluateRequirementTreeAll_eq ih).trans (by simp)
  | anyOf hne h ih => exact (evaluateRequirementTreeAny_eq ih).trans (by simp)
  | @endorsement tree h =>
    cases tree with
    | none => rfl
    | some tree => exact ok_holds_of_ok (evaluateEndorsementTree_ok he h)
  | message tree => rfl

theorem anyEndorsementMatchesTree_eq {endorsements : List Endorsement} (hvalid : ∀ e ∈ endorsements, e.Valid)
    {t : ERDAbstractSyntaxTree} (hwf : WellFormed hasEq hasUnset t) :
    anyEndorsementMatchesTree t endorsements =
      .ok (endorsements.any fun e => treeValue (singleLeaves e) t) := by
  induction endorsements with
  | nil => rfl
  | cons e es ih =>
    simp only [anyEndorsementMatchesTree, evaluateRequirementTree_eq (hvalid e (by simp)) hwf,
      ih fun x hx => hvalid x (by simp [hx]), List.any_cons]
    cases treeValue (singleLeaves e) t <;> rfl

end

/-! ### The reference value -/

section

variable (pb : Protobuf) (endorsements : List Endorsement) (message : RSPMessage) (snap : Option SchemaSnapshot)

/-- An `ENDORSEMENT` leaf is true when one single endorsement satisfies it, a `MESSAGE` leaf when it holds on the message, and an unset tree demands nothing. -/
def policyLeaves : Leaves where
  endorsement
    | none => false
    | some tree => endorsements.any fun e => holds (evaluateEndorsementTree e tree)
  message
    | none => false
    | some tree => holds (evaluateMessageTree pb message snap tree)
  unset := true

/-- The reference value of a requirement under a list of endorsements and a message. -/
def requirementValue (tree : ERDAbstractSyntaxTree) : Bool :=
  treeValue (policyLeaves pb endorsements message snap) tree

end

theorem singleLeaves_le_policyLeaves {pb : Protobuf} {endorsements : List Endorsement} {message : RSPMessage}
    {snap : Option SchemaSnapshot} {e : Endorsement} (he : e ∈ endorsements) :
    (singleLeaves e).le (policyLeaves pb endorsements message snap) := by
  refine ⟨?_, ?_, ?_⟩
  · intro tree htree
    cases tree with
    | none => exact htree
    | some tree => exact List.any_eq_true.mpr ⟨e, he, htree⟩
  · intro tree htree
    exact absurd htree (by simp [singleLeaves])
  · intro h
    exact absurd h (by simp [singleLeaves])

/-! ### Constant folding is right at any leaves -/

/-- What a folded constant says about the value. -/
def ConstantTreeValue.Agrees : ConstantTreeValue → Bool → Prop
  | .kUnknown, _ => True
  | .kTrue, value => value = true
  | .kFalse, value => value = false

theorem constantEquals_agrees {left right : ConstantTreeValue} {a b : Bool} (hl : left.Agrees a)
    (hr : right.Agrees b) : (constantEquals left right).Agrees (a == b) := by
  cases left <;> cases right <;> simp_all [constantEquals, ConstantTreeValue.Agrees]

theorem constantAnd_agrees {left right : ConstantTreeValue} {a b : Bool} (hl : left.Agrees a)
    (hr : right.Agrees b) : (constantAnd left right).Agrees (a && b) := by
  cases left <;> cases right <;> simp_all [constantAnd, ConstantTreeValue.Agrees]

theorem constantOr_agrees {left right : ConstantTreeValue} {a b : Bool} (hl : left.Agrees a)
    (hr : right.Agrees b) : (constantOr left right).Agrees (a || b) := by
  cases left <;> cases right <;> simp_all [constantOr, ConstantTreeValue.Agrees]

section

variable {leaves : Leaves} {terms : List ERDAbstractSyntaxTree}

/-- The loop answers true only if the flag is still up and every term is true, and false only if some term is. -/
theorem constantAllOf_spec (flag : Bool) (h : ∀ t ∈ terms, (getConstantTreeValue t).Agrees (treeValue leaves t)) :
    (constantAllOf flag terms = .kTrue → flag = true ∧ terms.all (treeValue leaves) = true) ∧
      (constantAllOf flag terms = .kFalse → terms.all (treeValue leaves) = false) := by
  induction terms generalizing flag with
  | nil => cases flag <;> simp [constantAllOf]
  | cons t ts ih =>
    have ht := h t (by simp)
    have hts := fun flag => ih flag fun u hu => h u (by simp [hu])
    rw [constantAllOf, List.all_cons]
    cases hc : getConstantTreeValue t with
    | kFalse => simp_all [ConstantTreeValue.Agrees]
    | kTrue =>
      rw [hc] at ht
      rw [show treeValue leaves t = true from ht, Bool.true_and]
      exact hts flag
    | kUnknown =>
      refine ⟨fun hk => absurd ((hts false).1 hk).1 (by decide), fun hk => ?_⟩
      rw [(hts false).2 hk, Bool.and_false]

theorem constantAnyOf_spec (flag : Bool) (h : ∀ t ∈ terms, (getConstantTreeValue t).Agrees (treeValue leaves t)) :
    (constantAnyOf flag terms = .kFalse → flag = true ∧ terms.any (treeValue leaves) = false) ∧
      (constantAnyOf flag terms = .kTrue → terms.any (treeValue leaves) = true) := by
  induction terms generalizing flag with
  | nil => cases flag <;> simp [constantAnyOf]
  | cons t ts ih =>
    have ht := h t (by simp)
    have hts := fun flag => ih flag fun u hu => h u (by simp [hu])
    rw [constantAnyOf, List.any_cons]
    cases hc : getConstantTreeValue t with
    | kTrue => simp_all [ConstantTreeValue.Agrees]
    | kFalse =>
      rw [hc] at ht
      rw [show treeValue leaves t = false from ht, Bool.false_or]
      exact hts flag
    | kUnknown =>
      refine ⟨fun hk => absurd ((hts false).1 hk).1 (by decide), fun hk => ?_⟩
      rw [(hts false).2 hk, Bool.or_true]

theorem getConstantTreeValue_agrees (leaves : Leaves) (tree : ERDAbstractSyntaxTree) :
    (getConstantTreeValue tree).Agrees (treeValue leaves tree) := by
  induction tree with
  | notSet => trivial
  | trueValue => rfl
  | falseValue => rfl
  | endorsement tree => trivial
  | message tree => trivial
  | equals lhs rhs ihl ihr =>
    cases lhs with
    | none => trivial
    | some l =>
      cases rhs with
      | none => trivial
      | some r => exact constantEquals_agrees (ihl l rfl) (ihr r rfl)
  | and lhs rhs ihl ihr =>
    cases lhs with
    | none => trivial
    | some l =>
      cases rhs with
      | none => trivial
      | some r => exact constantAnd_agrees (ihl l rfl) (ihr r rfl)
  | or lhs rhs ihl ihr =>
    cases lhs with
    | none => trivial
    | some l =>
      cases rhs with
      | none => trivial
      | some r => exact constantOr_agrees (ihl l rfl) (ihr r rfl)
  | allOf terms ih =>
    cases terms with
    | nil => trivial
    | cons t ts =>
      have hspec := constantAllOf_spec true ih
      rw [getConstantTreeValue, treeValue_allOf]
      cases hc : constantAllOf true (t :: ts) with
      | kUnknown => trivial
      | kTrue => exact (hspec.1 hc).2
      | kFalse => exact hspec.2 hc
  | anyOf terms ih =>
    cases terms with
    | nil => trivial
    | cons t ts =>
      have hspec := constantAnyOf_spec true ih
      rw [getConstantTreeValue, treeValue_anyOf]
      cases hc : constantAnyOf true (t :: ts) with
      | kUnknown => trivial
      | kTrue => exact hspec.2 hc
      | kFalse => exact (hspec.1 hc).2

end

end Rsp
