import Rsp.Endorsement.ReduceSound

/-!
# Exactness of reduction without `EQ`

On trees without `EQ` at requirement level the reducer loses nothing and demands nothing too much. The invariant is on what it returns (`Outcome`): the empty tree, the false tree, or a residual that consists of `ENDORSEMENT` leaves under connectives only, so `FALSE` stands at most at the root. A residual means, under further endorsements, what the original tree means under all of them together; since a residual is false when no further endorsement comes, the empty tree is returned exactly for a true requirement.
-/

namespace Rsp

open Proto

/-! ### Residual trees -/

/-- Only `ENDORSEMENT` leaves, under connectives that have all their operands. -/
inductive Residual : ERDAbstractSyntaxTree → Prop
  | endorsement {tree : Option ERDASTEndTree} (h : optionIdsValid tree = true) : Residual (.endorsement tree)
  | and {lhs rhs : ERDAbstractSyntaxTree} (hl : Residual lhs) (hr : Residual rhs) :
      Residual (.and (some lhs) (some rhs))
  | or {lhs rhs : ERDAbstractSyntaxTree} (hl : Residual lhs) (hr : Residual rhs) :
      Residual (.or (some lhs) (some rhs))
  | allOf {terms : List ERDAbstractSyntaxTree} (hne : terms ≠ []) (h : ∀ t ∈ terms, Residual t) :
      Residual (.allOf terms)
  | anyOf {terms : List ERDAbstractSyntaxTree} (hne : terms ≠ []) (h : ∀ t ∈ terms, Residual t) :
      Residual (.anyOf terms)

/-- What the reducer returns. -/
def Outcome (t : ERDAbstractSyntaxTree) : Prop := t = .notSet ∨ t = .falseValue ∨ Residual t

theorem Residual.wellFormed {t : ERDAbstractSyntaxTree} (h : Residual t) : WellFormed False True t := by
  induction h with
  | endorsement h => exact .endorsement h
  | and _ _ ihl ihr => exact .and ihl ihr
  | or _ _ ihl ihr => exact .or ihl ihr
  | allOf hne _ ih => exact .allOf hne ih
  | anyOf hne _ ih => exact .anyOf hne ih

theorem Outcome.wellFormed {t : ERDAbstractSyntaxTree} (h : Outcome t) : WellFormed False True t := by
  rcases h with rfl | rfl | h
  · exact .notSet trivial
  · exact .falseValue
  · exact h.wellFormed

/-- A residual demands at least one endorsement. -/
theorem Residual.value_of_no_endorsement {t : ERDAbstractSyntaxTree} (h : Residual t) (pb : Protobuf)
    (message : RSPMessage) (snap : Option SchemaSnapshot) : requirementValue pb [] message snap t = false := by
  unfold requirementValue
  induction h with
  | @endorsement tree h => cases tree <;> rfl
  | and _ _ ihl _ => rw [treeValue_and, ihl, Bool.false_and]
  | or _ _ ihl ihr => rw [treeValue_or, ihl, ihr, Bool.false_or]
  | @allOf terms hne _ ih =>
    obtain ⟨t, ts, rfl⟩ := List.exists_cons_of_ne_nil hne
    rw [treeValue_allOf, List.all_cons, ih t (by simp), Bool.false_and, Bool.and_false]
  | anyOf _ _ ih =>
    rw [treeValue_anyOf]
    exact List.any_eq_false.mpr fun t ht => by simp [ih t ht]

theorem Residual.subtree {s t : ERDAbstractSyntaxTree} (h : Residual t) (hs : IsSubtree s t) : Residual s := by
  induction hs with
  | refl => exact h
  | equals hmem _ ih => cases h
  | and hmem _ ih =>
    cases h with
    | and hl hr =>
      rcases hmem with hmem | hmem <;> cases hmem
      · exact ih hl
      · exact ih hr
  | or hmem _ ih =>
    cases h with
    | or hl hr =>
      rcases hmem with hmem | hmem <;> cases hmem
      · exact ih hl
      · exact ih hr
  | allOf hmem _ ih =>
    cases h with
    | allOf _ hterms => exact ih (hterms _ hmem)
  | anyOf hmem _ ih =>
    cases h with
    | anyOf _ hterms => exact ih (hterms _ hmem)

/-! ### Combining outcomes -/

section

variable {left right : ERDAbstractSyntaxTree} {leaves : Leaves}

theorem combineAnd_outcome (hl : Outcome left) (hr : Outcome right) : Outcome (combineAnd left right) := by
  unfold combineAnd
  split_ifs with hleft hright hfalse
  · exact hr
  · exact hl
  · exact Or.inr (Or.inl rfl)
  · simp only [Bool.or_eq_true, isFalseTree_iff, not_or] at hfalse
    rw [isEmptyTree_iff] at hleft hright
    exact Or.inr (Or.inr (.and ((hl.resolve_left hleft).resolve_left hfalse.1)
      ((hr.resolve_left hright).resolve_left hfalse.2)))

theorem combineOr_outcome (hl : Outcome left) (hr : Outcome right) : Outcome (combineOr left right) := by
  unfold combineOr
  split_ifs with hempty hleft hright
  · exact Or.inl rfl
  · exact hr
  · exact hl
  · simp only [Bool.or_eq_true, isEmptyTree_iff, not_or] at hempty
    rw [isFalseTree_iff] at hleft hright
    exact Or.inr (Or.inr (.or ((hl.resolve_left hempty.1).resolve_left hleft)
      ((hr.resolve_left hempty.2).resolve_left hright)))

/-- The empty tree counts as true, so combining outcomes is the connective itself. -/
theorem treeValue_combineAnd (hunset : leaves.unset = true) :
    treeValue leaves (combineAnd left right) = (treeValue leaves left && treeValue leaves right) := by
  unfold combineAnd
  split_ifs with hleft hright hfalse
  · rw [isEmptyTree_iff.mp hleft, treeValue_notSet, hunset, Bool.true_and]
  · rw [isEmptyTree_iff.mp hright, treeValue_notSet, hunset, Bool.and_true]
  · rcases Bool.or_eq_true_iff.mp hfalse with h | h
    · rw [isFalseTree_iff.mp h]
      rfl
    · rw [isFalseTree_iff.mp h, treeValue_falseValue, Bool.and_false]
      rfl
  · rfl

theorem treeValue_combineOr (hunset : leaves.unset = true) :
    treeValue leaves (combineOr left right) = (treeValue leaves left || treeValue leaves right) := by
  unfold combineOr
  split_ifs with hempty hleft hright
  · rcases Bool.or_eq_true_iff.mp hempty with h | h
    · rw [isEmptyTree_iff.mp h, treeValue_notSet, hunset, Bool.true_or]
    · rw [isEmptyTree_iff.mp h, treeValue_notSet, hunset, Bool.or_true]
  · rw [isFalseTree_iff.mp hleft, treeValue_falseValue, Bool.false_or]
  · rw [isFalseTree_iff.mp hright, treeValue_falseValue, Bool.or_false]
  · rfl

end

/-! ### n-ary nodes -/

section

variable {pb : Protobuf} {endorsements : List Endorsement} {message : Option RSPMessage}
  {snap : Option SchemaSnapshot} {terms reduced : List ERDAbstractSyntaxTree} {leaves : Leaves}

/-- When every term reduces, the loop is a search for a stopping term and a filter. -/
theorem reduceTerms_eq {dropped stopped : ERDAbstractSyntaxTree → Bool}
    (hexclusive : ∀ r, dropped r = true → stopped r = false) {f : ERDAbstractSyntaxTree → ERDAbstractSyntaxTree}
    (h : ∀ t ∈ terms, reduceRequirementTreeImpl pb endorsements message snap t = .ok (f t)) :
    reduceTerms pb endorsements message snap dropped stopped terms =
      .ok (if (terms.map f).any stopped then none else some ((terms.map f).filter fun r => !dropped r)) := by
  induction terms with
  | nil => rfl
  | cons t ts ih =>
    have hts := ih fun u hu => h u (by simp [hu])
    rw [reduceTerms, h t (by simp), hts]
    cases hdropped : dropped (f t) with
    | true => simp [hdropped, hexclusive _ hdropped, bind, Except.bind]
    | false =>
      cases hstopped : stopped (f t) with
      | true => simp [hdropped, hstopped, bind, Except.bind, pure, Except.pure]
      | false =>
        simp only [hdropped, hstopped, bind, Except.bind, pure, Except.pure, List.map_cons, List.any_cons,
          Bool.false_or, Bool.false_eq_true, if_false, List.filter_cons, Bool.not_false, if_true]
        split_ifs <;> rfl

theorem outcome_isResidual {r : ERDAbstractSyntaxTree} (h : Outcome r) (hempty : isEmptyTree r = false)
    (hfalse : isFalseTree r = false) : Residual r := by
  obtain ⟨h1, h2⟩ := isOpen_iff.mpr ⟨hempty, hfalse⟩
  exact (h.resolve_left h1).resolve_left h2

theorem combineAllOf_outcome (h : ∀ r ∈ reduced, Outcome r) :
    Outcome (combineAllOf (if reduced.any isFalseTree then none else some (reduced.filter fun r => !isEmptyTree r))) := by
  split_ifs with hfalse
  · exact Or.inr (Or.inl rfl)
  · have hkept : ∀ r ∈ reduced.filter fun r => !isEmptyTree r, Residual r := by
      intro r hr
      obtain ⟨hmem, hempty⟩ := List.mem_filter.mp hr
      exact outcome_isResidual (h r hmem) (by simpa using hempty)
        (Bool.eq_false_iff.mpr fun hf => hfalse (List.any_eq_true.mpr ⟨r, hmem, hf⟩))
    match hk : reduced.filter fun r => !isEmptyTree r with
    | [] => exact Or.inl rfl
    | [t] => exact Or.inr (Or.inr (hkept t (by simp [hk])))
    | t :: u :: ts => exact Or.inr (Or.inr (.allOf (by simp) fun r hr => hkept r (by rwa [hk])))

theorem combineAnyOf_outcome (h : ∀ r ∈ reduced, Outcome r) :
    Outcome (combineAnyOf (if reduced.any isEmptyTree then none else some (reduced.filter fun r => !isFalseTree r))) := by
  split_ifs with hempty
  · exact Or.inl rfl
  · have hkept : ∀ r ∈ reduced.filter fun r => !isFalseTree r, Residual r := by
      intro r hr
      obtain ⟨hmem, hfalse⟩ := List.mem_filter.mp hr
      exact outcome_isResidual (h r hmem)
        (Bool.eq_false_iff.mpr fun he => hempty (List.any_eq_true.mpr ⟨r, hmem, he⟩)) (by simpa using hfalse)
    match hk : reduced.filter fun r => !isFalseTree r with
    | [] => exact Or.inr (Or.inl rfl)
    | [t] => exact Or.inr (Or.inr (hkept t (by simp [hk])))
    | t :: u :: ts => exact Or.inr (Or.inr (.anyOf (by simp) fun r hr => hkept r (by rwa [hk])))

theorem treeValue_combineAllOf (hunset : leaves.unset = true) :
    treeValue leaves (combineAllOf
        (if reduced.any isFalseTree then none else some (reduced.filter fun r => !isEmptyTree r))) =
      reduced.all (treeValue leaves) := by
  split_ifs with hfalse
  · obtain ⟨r, hr, hrfalse⟩ := List.any_eq_true.mp hfalse
    refine (List.all_eq_false.mpr ⟨r, hr, ?_⟩).symm
    rw [isFalseTree_iff.mp hrfalse, treeValue_falseValue]
    decide
  · have hdrop : reduced.all (treeValue leaves) = (reduced.filter fun r => !isEmptyTree r).all (treeValue leaves) := by
      rw [List.all_filter]
      refine List.all_congr rfl fun r => ?_
      cases he : isEmptyTree r
      · rfl
      · rw [isEmptyTree_iff.mp he, treeValue_notSet, hunset]
        rfl
    rw [hdrop]
    match reduced.filter fun r => !isEmptyTree r with
    | [] => exact hunset
    | [t] => simp [combineAllOf]
    | t :: u :: ts => simp [combineAllOf, makeAllOfTree]

theorem treeValue_combineAnyOf (hunset : leaves.unset = true) :
    treeValue leaves (combineAnyOf
        (if reduced.any isEmptyTree then none else some (reduced.filter fun r => !isFalseTree r))) =
      reduced.any (treeValue leaves) := by
  split_ifs with hempty
  · obtain ⟨r, hr, hrempty⟩ := List.any_eq_true.mp hempty
    refine Eq.trans hunset (List.any_eq_true.mpr ⟨r, hr, ?_⟩).symm
    rw [isEmptyTree_iff.mp hrempty, treeValue_notSet, hunset]
  · have hdrop : reduced.any (treeValue leaves) = (reduced.filter fun r => !isFalseTree r).any (treeValue leaves) := by
      rw [List.any_filter]
      refine List.any_congr rfl fun r => ?_
      cases hf : isFalseTree r
      · rfl
      · rw [isFalseTree_iff.mp hf]
        rfl
    rw [hdrop]
    match reduced.filter fun r => !isFalseTree r with
    | [] => rfl
    | [t] => simp [combineAnyOf]
    | t :: u :: ts => simp [combineAnyOf, makeAnyOfTree]

end

/-! ### The reducer -/

section

variable {pb : Protobuf} {endorsements : List Endorsement} {message : RSPMessage} {snap : Option SchemaSnapshot}

/-- `result` is an outcome that means under further endorsements what `tree` means under all of them. -/
def Continues (pb : Protobuf) (endorsements : List Endorsement) (message : RSPMessage) (snap : Option SchemaSnapshot)
    (tree result : ERDAbstractSyntaxTree) : Prop :=
  Outcome result ∧ ∀ further, requirementValue pb further message snap result =
    requirementValue pb (endorsements ++ further) message snap tree

/-- The tests before the switch, when the switch itself would return such an outcome. -/
theorem reduceWholeOr_continues {tree : ERDAbstractSyntaxTree} {operands : Except Fault ERDAbstractSyntaxTree}
    (hwf : WellFormed False True tree) (hvalid : ∀ e ∈ endorsements, e.Valid)
    (hmessage : ∀ leaf, tree = .message (some leaf) → ∃ b, evaluateMessageTree pb message snap leaf = .ok b)
    (hoperands : isMessagePredicateNode tree = false → anyEndorsementMatchesTree tree endorsements = .ok false →
      ∃ result, operands = .ok result ∧ Continues pb endorsements message snap tree result) :
    ∃ result, reduceWholeOr pb endorsements (some message) snap tree operands = .ok result ∧
      Continues pb endorsements message snap tree result := by
  have hconst := fun leaves => getConstantTreeValue_agrees leaves tree
  have hmatch := anyEndorsementMatchesTree_eq hvalid hwf
  rw [reduceWholeOr, reduceWhole]
  cases hc : getConstantTreeValue tree with
  | kTrue =>
    simp only [hc] at hconst
    exact ⟨.notSet, rfl, Or.inl rfl, fun further => (hconst _).symm⟩
  | kFalse =>
    simp only [hc] at hconst
    exact ⟨.falseValue, rfl, Or.inr (Or.inl rfl), fun further => (hconst _).symm⟩
  | kUnknown =>
    cases hany : endorsements.any fun e => treeValue (singleLeaves e) tree with
    | true =>
      -- without `EQ` the match is no more than the whole list of endorsements gives
      obtain ⟨e, he, hvalue⟩ := List.any_eq_true.mp hany
      refine ⟨.notSet, by simp [hmatch, hany, bind, Except.bind, pure, Except.pure], Or.inl rfl, fun further => ?_⟩
      exact (treeValue_mono (singleLeaves_le_policyLeaves (List.mem_append_left further he)) hwf hvalue).symm
    | false =>
      rw [hany] at hmatch
      cases hp : isMessagePredicateNode tree with
      | false =>
        obtain ⟨result, hresult, hcont⟩ := hoperands hp hmatch
        exact ⟨result, by simp [hmatch, hresult, bind, Except.bind, pure, Except.pure], hcont⟩
      | true =>
        obtain ⟨b, hb, hvalue⟩ : ∃ b, evaluateMessageRequirementTree pb message snap tree = .ok b ∧
            ∀ es, requirementValue pb es message snap tree = b := by
          cases tree with
          | message leaf =>
            cases leaf with
            | none => exact ⟨false, rfl, fun _ => rfl⟩
            | some leaf =>
              obtain ⟨b, hb⟩ := hmessage leaf rfl
              exact ⟨b, hb, fun _ => by change holds (evaluateMessageTree pb message snap leaf) = b; rw [hb, holds_ok]⟩
          | _ => simp [isMessagePredicateNode] at hp
        refine ⟨if b then .notSet else .falseValue, ?_, ?_, fun further => ?_⟩
        · simp [hmatch, hb, bind, Except.bind, pure, Except.pure, makeFalseTree]
        · cases b
          · exact Or.inr (Or.inl rfl)
          · exact Or.inl rfl
        · rw [hvalue]
          cases b <;> rfl

theorem requirementValue_endorsement_append {tree : Option ERDASTEndTree} (hids : optionIdsValid tree = true)
    (hvalid : ∀ e ∈ endorsements, e.Valid)
    (hmatch : anyEndorsementMatchesTree (.endorsement tree) endorsements = .ok false) (further : List Endorsement) :
    requirementValue pb further message snap (.endorsement tree) =
      requirementValue pb (endorsements ++ further) message snap (.endorsement tree) := by
  cases tree with
  | none => rfl
  | some tree =>
    have hwf : WellFormed False False (.endorsement (some tree)) := .endorsement hids
    rw [anyEndorsementMatchesTree_eq hvalid hwf] at hmatch
    change further.any _ = (endorsements ++ further).any _
    rw [List.any_append, show (endorsements.any fun e => holds (evaluateEndorsementTree e tree)) = false from
      Except.ok.inj hmatch, Bool.false_or]

theorem all_congr_mem {α : Type} {p q : α → Bool} {l : List α} (h : ∀ a ∈ l, p a = q a) : l.all p = l.all q := by
  induction l with
  | nil => rfl
  | cons a l ih => rw [List.all_cons, List.all_cons, h a (by simp), ih fun b hb => h b (by simp [hb])]

theorem any_congr_mem {α : Type} {p q : α → Bool} {l : List α} (h : ∀ a ∈ l, p a = q a) : l.any p = l.any q := by
  induction l with
  | nil => rfl
  | cons a l ih => rw [List.any_cons, List.any_cons, h a (by simp), ih fun b hb => h b (by simp [hb])]

section

variable {terms : List ERDAbstractSyntaxTree} {f : ERDAbstractSyntaxTree → ERDAbstractSyntaxTree}
  (hf : ∀ t ∈ terms, reduceRequirementTreeImpl pb endorsements (some message) snap t = .ok (f t) ∧
    Continues pb endorsements message snap t (f t))

include hf

theorem allOf_operands_continue (hne : terms ≠ []) :
    ∃ result, (do return combineAllOf (← reduceTerms pb endorsements (some message) snap isEmptyTree isFalseTree terms)) =
      .ok result ∧ Continues pb endorsements message snap (.allOf terms) result := by
  have hexclusive : ∀ r, isEmptyTree r = true → isFalseTree r = false := fun r hr => by
    rw [isEmptyTree_iff.mp hr]
    rfl
  rw [reduceTerms_eq hexclusive fun t ht => (hf t ht).1]
  refine ⟨_, rfl, combineAllOf_outcome fun r hr => ?_, fun further => ?_⟩
  · obtain ⟨t, ht, rfl⟩ := List.mem_map.mp hr
    exact (hf t ht).2.1
  · rw [requirementValue, treeValue_combineAllOf rfl, List.all_map, requirementValue, treeValue_allOf,
      List.isEmpty_eq_false_iff.mpr hne, Bool.not_false, Bool.true_and]
    exact all_congr_mem fun t ht => (hf t ht).2.2 further

theorem anyOf_operands_continue :
    ∃ result, (do return combineAnyOf (← reduceTerms pb endorsements (some message) snap isFalseTree isEmptyTree terms)) =
      .ok result ∧ Continues pb endorsements message snap (.anyOf terms) result := by
  have hexclusive : ∀ r, isFalseTree r = true → isEmptyTree r = false := fun r hr => by
    rw [isFalseTree_iff.mp hr]
    rfl
  rw [reduceTerms_eq hexclusive fun t ht => (hf t ht).1]
  refine ⟨_, rfl, combineAnyOf_outcome fun r hr => ?_, fun further => ?_⟩
  · obtain ⟨t, ht, rfl⟩ := List.mem_map.mp hr
    exact (hf t ht).2.1
  · rw [requirementValue, treeValue_combineAnyOf rfl, List.any_map, requirementValue, treeValue_anyOf]
    exact any_congr_mem fun t ht => (hf t ht).2.2 further

end

/-- The induction over the tree. -/
theorem reduceRequirementTreeImpl_continues {tree : ERDAbstractSyntaxTree} (hwf : WellFormed False True tree)
    (hvalid : ∀ e ∈ endorsements, e.Valid)
    (hmessage : ∀ leaf, IsSubtree (.message (some leaf)) tree → ∃ b, evaluateMessageTree pb message snap leaf = .ok b) :
    ∃ result, reduceRequirementTreeImpl pb endorsements (some message) snap tree = .ok result ∧
      Continues pb endorsements message snap tree result := by
  have hroot : ∀ leaf, tree = .message (some leaf) → ∃ b, evaluateMessageTree pb message snap leaf = .ok b :=
    fun leaf htree => hmessage leaf (htree ▸ .refl _)
  have hunset : ∀ es, (policyLeaves pb es message snap).unset = true := fun _ => rfl
  induction hwf with
  | notSet h =>
    exact reduceWholeOr_continues (.notSet h) hvalid hroot fun _ _ => ⟨_, rfl, Or.inl rfl, fun _ => rfl⟩
  | equals h => exact h.elim
  | trueValue =>
    refine ⟨.notSet, rfl, Or.inl rfl, fun _ => rfl⟩
  | falseValue =>
    refine ⟨.falseValue, rfl, Or.inr (Or.inl rfl), fun _ => rfl⟩
  | message leaf =>
    exact reduceWholeOr_continues (.message leaf) hvalid hroot fun hp _ => absurd hp (by simp [isMessagePredicateNode])
  | endorsement hids =>
    exact reduceWholeOr_continues (.endorsement hids) hvalid hroot fun _ hmatch =>
      ⟨_, rfl, Or.inr (Or.inr (.endorsement hids)), requirementValue_endorsement_append hids hvalid hmatch⟩
  | @and lhs rhs hl hr ihl ihr =>
    obtain ⟨left, hleft, hlo, hlv⟩ := ihl (fun leaf h => hmessage leaf (.and (Or.inl rfl) h))
      (fun leaf h => hmessage leaf (.and (Or.inl rfl) (h ▸ .refl _)))
    obtain ⟨right, hright, hro, hrv⟩ := ihr (fun leaf h => hmessage leaf (.and (Or.inr rfl) h))
      (fun leaf h => hmessage leaf (.and (Or.inr rfl) (h ▸ .refl _)))
    refine reduceWholeOr_continues (.and hl hr) hvalid hroot fun _ _ => ⟨combineAnd left right, ?_, ?_, fun further => ?_⟩
    · rw [hleft, hright]
      rfl
    · exact combineAnd_outcome hlo hro
    · rw [requirementValue, treeValue_combineAnd (hunset further)]
      exact congrArg₂ and (hlv further) (hrv further)
  | @or lhs rhs hl hr ihl ihr =>
    obtain ⟨left, hleft, hlo, hlv⟩ := ihl (fun leaf h => hmessage leaf (.or (Or.inl rfl) h))
      (fun leaf h => hmessage leaf (.or (Or.inl rfl) (h ▸ .refl _)))
    obtain ⟨right, hright, hro, hrv⟩ := ihr (fun leaf h => hmessage leaf (.or (Or.inr rfl) h))
      (fun leaf h => hmessage leaf (.or (Or.inr rfl) (h ▸ .refl _)))
    refine reduceWholeOr_continues (.or hl hr) hvalid hroot fun _ _ => ⟨combineOr left right, ?_, ?_, fun further => ?_⟩
    · rw [hleft, hright]
      rfl
    · exact combineOr_outcome hlo hro
    · rw [requirementValue, treeValue_combineOr (hunset further)]
      exact congrArg₂ or (hlv further) (hrv further)
  | @allOf terms hne hterms ih =>
    have hreduce : ∀ t ∈ terms, ∃ r, reduceRequirementTreeImpl pb endorsements (some message) snap t = .ok r ∧
        Continues pb endorsements message snap t r := fun t ht =>
      ih t ht (fun leaf h => hmessage leaf (.allOf ht h)) (fun leaf h => hmessage leaf (.allOf ht (h ▸ .refl _)))
    choose! f hf using hreduce
    obtain ⟨t, ts, rfl⟩ := List.exists_cons_of_ne_nil hne
    exact reduceWholeOr_continues (.allOf hne hterms) hvalid hroot fun _ _ => allOf_operands_continue hf hne
  | @anyOf terms hne hterms ih =>
    have hreduce : ∀ t ∈ terms, ∃ r, reduceRequirementTreeImpl pb endorsements (some message) snap t = .ok r ∧
        Continues pb endorsements message snap t r := fun t ht =>
      ih t ht (fun leaf h => hmessage leaf (.anyOf ht h)) (fun leaf h => hmessage leaf (.anyOf ht (h ▸ .refl _)))
    choose! f hf using hreduce
    obtain ⟨t, ts, rfl⟩ := List.exists_cons_of_ne_nil hne
    exact reduceWholeOr_continues (.anyOf hne hterms) hvalid hroot fun _ _ => anyOf_operands_continue hf

theorem reduceRequirementTree_continues {tree : ERDAbstractSyntaxTree} (hwf : WellFormed False True tree)
    (hvalid : ∀ e ∈ endorsements, e.Valid)
    (hmessage : ∀ leaf, IsSubtree (.message (some leaf)) tree → ∃ b, evaluateMessageTree pb message snap leaf = .ok b) :
    ∃ result, reduceRequirementTree pb endorsements (some message) snap tree = .ok result ∧
      Continues pb endorsements message snap tree result := by
  obtain ⟨result, hresult, hcont⟩ := reduceRequirementTreeImpl_continues hwf hvalid hmessage
  exact ⟨result, by rw [reduceRequirementTree, hresult], hcont⟩

/-- An outcome is the empty tree exactly when it is satisfied without any endorsement. -/
theorem Outcome.eq_notSet_iff {t : ERDAbstractSyntaxTree} (h : Outcome t) (pb : Protobuf) (message : RSPMessage)
    (snap : Option SchemaSnapshot) : t = .notSet ↔ requirementValue pb [] message snap t = true := by
  rcases h with rfl | rfl | h
  · exact ⟨fun _ => rfl, fun _ => rfl⟩
  · exact ⟨fun h => by simp at h, fun h => absurd h (by simp [requirementValue])⟩
  · rw [h.value_of_no_endorsement]
    refine ⟨fun ht => ?_, fun hval => absurd hval (by decide)⟩
    subst ht
    cases h

/-- Reduction answers with the empty tree exactly for a true requirement. -/
theorem reduceRequirementTree_eq_notSet_iff {tree : ERDAbstractSyntaxTree} (hwf : WellFormed False True tree)
    (hvalid : ∀ e ∈ endorsements, e.Valid)
    (hmessage : ∀ leaf, IsSubtree (.message (some leaf)) tree → ∃ b, evaluateMessageTree pb message snap leaf = .ok b) :
    reduceRequirementTree pb endorsements (some message) snap tree = .ok .notSet ↔
      requirementValue pb endorsements message snap tree = true := by
  obtain ⟨result, hresult, houtcome, hvalue⟩ := reduceRequirementTree_continues hwf hvalid hmessage
  rw [hresult, Except.ok.injEq, houtcome.eq_notSet_iff pb message snap, hvalue [], List.append_nil]

theorem Outcome.no_message {t : ERDAbstractSyntaxTree} (h : Outcome t) (leaf : Option ERDASTMessageTree) :
    ¬ IsSubtree (.message leaf) t := by
  rcases h with rfl | rfl | h
  · intro hs
    cases hs
  · intro hs
    cases hs
  · intro hs
    cases h.subtree hs

/-- **Exactness and incrementality.** Without `EQ` at requirement level, reducing with all endorsements at once gives the empty tree exactly when the requirement is true, and so does reducing first with some of them and then the residual with the rest. -/
theorem reduceRequirementTree_exact {first second : List Endorsement} {tree : ERDAbstractSyntaxTree}
    (hwf : WellFormed False True tree) (hfirst : ∀ e ∈ first, e.Valid) (hsecond : ∀ e ∈ second, e.Valid)
    (hmessage : ∀ leaf, IsSubtree (.message (some leaf)) tree → ∃ b, evaluateMessageTree pb message snap leaf = .ok b) :
    (reduceRequirementTree pb (first ++ second) (some message) snap tree = .ok .notSet ↔
        requirementValue pb (first ++ second) message snap tree = true) ∧
      ∃ residual, reduceRequirementTree pb first (some message) snap tree = .ok residual ∧
        (reduceRequirementTree pb second (some message) snap residual = .ok .notSet ↔
          requirementValue pb (first ++ second) message snap tree = true) := by
  have hall : ∀ e ∈ first ++ second, e.Valid := fun e he =>
    (List.mem_append.mp he).elim (hfirst e) (hsecond e)
  refine ⟨reduceRequirementTree_eq_notSet_iff hwf hall hmessage, ?_⟩
  obtain ⟨residual, hresidual, houtcome, hvalue⟩ := reduceRequirementTree_continues hwf hfirst hmessage
  refine ⟨residual, hresidual, ?_⟩
  rw [reduceRequirementTree_eq_notSet_iff houtcome.wellFormed hsecond
    (fun leaf hleaf => absurd hleaf (houtcome.no_message _)), hvalue second]

end

/-- A policy that wants the message to be a ping request and an endorsement of one type. -/
def pingWithEndorsement : ERDAbstractSyntaxTree :=
  .and (some (.message (some (.fieldExists (some ⟨[ascii "ping_request"]⟩)))))
    (some (.endorsement (some (.typeEquals (some ⟨List.replicate 16 3⟩)))))

theorem reduceRequirementTree_exact_pingWithEndorsement :
    (reduceRequirementTree default ([] ++ [sampleEndorsement]) (some { coreMessage := .pingRequest {} }) none
        pingWithEndorsement = .ok .notSet ↔
      requirementValue default ([] ++ [sampleEndorsement]) { coreMessage := .pingRequest {} } none
        pingWithEndorsement = true) ∧
      ∃ residual, reduceRequirementTree default [] (some { coreMessage := .pingRequest {} }) none
          pingWithEndorsement = .ok residual ∧
        (reduceRequirementTree default [sampleEndorsement] (some { coreMessage := .pingRequest {} }) none
            residual = .ok .notSet ↔
          requirementValue default ([] ++ [sampleEndorsement]) { coreMessage := .pingRequest {} } none
            pingWithEndorsement = true) := by
  refine reduceRequirementTree_exact (.and (.message _) (.endorsement rfl)) (by simp)
    (by simp [sampleEndorsement_valid]) fun leaf hleaf => ?_
  cases hleaf with
  | and hmem hsub =>
    rcases hmem with hmem | hmem <;> cases hmem <;> cases hsub
    exact ⟨true, by decide⟩

end Rsp
