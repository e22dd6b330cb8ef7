import Rsp.Endorsement.TextLanguages

/-!
# Requirements with variables

A requirement that is parsed with a resolver is an expression whose atoms are leaves and variables. The tree is the one that is read, without a resolver, from the text in which each variable has been replaced by a text for the tree it stands for.
-/

namespace Rsp.ErdText

open RecursiveDescent Proto Grammar

/-- The text is a constant, or a keyword with the argument that its rule reads. -/
def IsLeaf (text : Bytes) (tree : ERDAbstractSyntaxTree) : Prop :=
  (text.map toupper = ascii "TRUE" ∧ tree = .trueValue ∨ text.map toupper = ascii "FALSE" ∧ tree = .falseValue) ∨
    ∃ rule ∈ (treeGrammar none).leaves, ∃ argument stop, text = rule.keyword ++ argument ∧
      rule.body ⟨0, argument⟩ = .ok (tree, ⟨stop, []⟩)

structure Leaf where
  text : Bytes
  tree : ERDAbstractSyntaxTree
  isLeaf : IsLeaf text tree

inductive Atom where
  | leaf (l : Leaf)
  | var (name : Bytes)

abbrev Expression := Concrete Atom

/-- How a variable is written. -/
def reference (name : Bytes) : Bytes := ascii "$\x7b" ++ (name ++ ascii "\x7d")

/-- The text of an atom, with `f` for the variables. -/
def Atom.text (f : Bytes → Bytes) : Atom → Bytes
  | .leaf l => l.text
  | .var name => f name

/-- The text of an expression as it is written. -/
def Expression.source (e : Expression) : Bytes := e.text (Atom.text reference)

/-- The text of an expression with its variables replaced. -/
def Expression.inlined (f : Bytes → Bytes) (e : Expression) : Bytes := e.text (Atom.text f)

variable {lookup : Bytes → Option ERDAbstractSyntaxTree}

def Atom.tree (lookup : Bytes → Option ERDAbstractSyntaxTree) : Atom → ERDAbstractSyntaxTree
  | .leaf l => l.tree
  | .var name => (lookup name).getD .notSet

def Atom.Resolves (lookup : Bytes → Option ERDAbstractSyntaxTree) : Atom → Prop
  | .leaf _ => True
  | .var name => IsName name ∧ (lookup name).isSome

def resolving (lookup : Bytes → Option ERDAbstractSyntaxTree) : Option VariableResolver :=
  some fun name => .ok (lookup name)

/-! ### Atoms -/

theorem IsLeaf.readable {text : Bytes} {tree : ERDAbstractSyntaxTree} (h : IsLeaf text tree)
    (resolver : Option VariableResolver) : Starts text ∧ Accepts (treeGrammar resolver).parse text tree Anything := by
  have hd := treeGrammar_delimiting resolver
  rcases h with hconstant | ⟨rule, hrule, argument, stop, rfl, hbody⟩
  · exact hd.accepts_constant hconstant
  · have hmem : rule ∈ (treeGrammar resolver).atoms ++ (treeGrammar resolver).leaves := List.mem_append_right _ hrule
    obtain ⟨s, -, hs, haccepts⟩ := hd.body rule hmem _ _ _ hbody
    have hargument : argument = s := hs.trans (List.append_nil s)
    have hskip : rule.keyword.drop rule.skip = [] := by rw [hd.skip rule hmem, List.drop_length]
    rw [hargument]
    exact accepts_leaf hd.forward (treeGrammar_unambiguous resolver) hmem hskip haccepts

theorem readable_source {a : Atom} (h : a.Resolves lookup) :
    Readable (treeGrammar (resolving lookup)) (Atom.text reference) (Atom.tree lookup) a := by
  cases a with
  | leaf l => exact l.isLeaf.readable _
  | var name =>
    obtain ⟨hname, hsome⟩ := h
    obtain ⟨tree, htree⟩ := Option.isSome_iff_exists.mp hsome
    have hread : Accepts (parseVariable (resolving lookup)) (name ++ ascii "\x7d") tree Anything :=
      accepts_parseVariable hname (by rw [htree])
    have hmem : ⟨ascii "$\x7b", 2, parseVariable (resolving lookup), by decide, by decide⟩ ∈
        (treeGrammar (resolving lookup)).atoms ++ (treeGrammar (resolving lookup)).leaves := .head _
    have hvalue : Atom.tree lookup (.var name) = tree := by rw [Atom.tree, htree, Option.getD_some]
    rw [Readable, hvalue]
    exact accepts_leaf (treeGrammar_delimiting _).forward (treeGrammar_unambiguous _) hmem rfl hread

theorem readable_inlined {f : Bytes → Bytes} {a : Atom} (h : a.Resolves lookup)
    (hf : ∀ name tree, lookup name = some tree → Starts (f name) ∧ Accepts (parseTree none) (f name) tree Anything) :
    Readable (treeGrammar none) (Atom.text f) (Atom.tree lookup) a := by
  cases a with
  | leaf l => exact l.isLeaf.readable _
  | var name =>
    obtain ⟨tree, htree⟩ := Option.isSome_iff_exists.mp h.2
    have hvalue : Atom.tree lookup (.var name) = tree := by rw [Atom.tree, htree, Option.getD_some]
    rw [Readable, hvalue]
    exact hf name tree htree

theorem atomic_treeGrammar :
    Atomic (treeGrammar (resolving lookup)) (Atom.text reference) (Atom.tree lookup) (Atom.Resolves lookup) where
  rule rule hrule c c' t hkeyword hbody := by
    rcases List.mem_append.mp hrule with hatom | hleaf
    · obtain rfl := List.mem_singleton.mp hatom
      have hvariable : parseVariable (resolving lookup) (c.advance 2) = .ok (t, c') := hbody
      obtain ⟨name, resolve, hname, hresolver, hresolve, hrest⟩ := parseVariable_ok hvariable
      obtain rfl := Option.some.inj hresolver
      have hlookup : lookup name = some t := Except.ok.inj hresolve
      refine ⟨.var name, ⟨hname, by rw [hlookup]; rfl⟩, ?_, by rw [Atom.tree, hlookup]; rfl⟩
      obtain ⟨tail, htail⟩ := hkeyword
      have hafter : tail = name ++ ascii "\x7d" ++ c'.rest := by
        rw [← hrest]
        show tail = c.rest.drop 2
        rw [← htail]
        rfl
      rw [← htail, hafter, Atom.text, reference]
      simp only [List.append_assoc]
    · obtain ⟨s, hrest, haccepts⟩ := (treeGrammar_delimiting (resolving lookup)).leaf_ok hrule hkeyword hbody
      have hrun := haccepts 0 [] trivial
      rw [List.append_nil] at hrun
      exact ⟨.leaf ⟨rule.keyword ++ s, t, .inr ⟨rule, hleaf, s, _, rfl, hrun⟩⟩, trivial, hrest, rfl⟩
  constant c c' t h := by
    obtain ⟨s, hrest, hword⟩ := constants_ok h
    exact ⟨.leaf ⟨s, t, .inl hword⟩, trivial, hrest, rfl⟩

/-! ### Expressions -/

theorem tree_treeGrammar (resolver : Option VariableResolver) (v : Atom → ERDAbstractSyntaxTree) (e : Expression) :
    e.tree (treeGrammar resolver) v = e.tree (treeGrammar none) v :=
  Concrete.tree_congr (by funext op; cases op <;> rfl) (by funext op; cases op <;> rfl) e

/-- The text of an expression is read with a resolver, and with its variables replaced also without one. -/
theorem Expression.fromStringWith_source {e : Expression} (hspace : e.space = noSpace)
    (h : ∀ a ∈ e.atoms, a.Resolves lookup) :
    fromStringWith (resolving lookup) e.source = .ok (e.tree (treeGrammar none) (Atom.tree lookup)) := by
  have hreadable := fun a ha => readable_source (h a ha)
  refine fromStringWith_of_accepts ?_ ?_
  · rw [Expression.source, e.text_eq, hspace]
    exact Concrete.starts_flush hreadable
  · rw [← tree_treeGrammar (resolving lookup)]
    exact Concrete.accepts (treeGrammar_delimiting _).forward (treeGrammar_unambiguous _) hreadable

theorem Expression.accepts_inlined {e : Expression} (hspace : e.space = noSpace) (h : ∀ a ∈ e.atoms, a.Resolves lookup)
    {f : Bytes → Bytes}
    (hf : ∀ name tree, lookup name = some tree → Starts (f name) ∧ Accepts (parseTree none) (f name) tree Anything) :
    Starts (e.inlined f) ∧ Accepts (parseTree none) (e.inlined f) (e.tree (treeGrammar none) (Atom.tree lookup)) Anything := by
  have hreadable := fun a ha => readable_inlined (h a ha) hf
  refine ⟨?_, Concrete.accepts (treeGrammar_delimiting none).forward (treeGrammar_unambiguous none) hreadable⟩
  rw [Expression.inlined, e.text_eq, hspace]
  exact Concrete.starts_flush hreadable

/-- No white space stands before a text that does not begin with any. -/
theorem Space.eq_noSpace (space : Space) {s : Bytes} (h : Stops isspace (space.1 ++ s)) : space = noSpace := by
  obtain ⟨w, hw⟩ := space
  cases w with
  | nil => rfl
  | cons x w => exact absurd (hw x List.mem_cons_self) (Bool.eq_false_iff.mp (h x rfl))

theorem Expression.space_eq {e : Expression} (h : Stops isspace e.source) : e.space = noSpace := by
  rw [Expression.source, e.text_eq] at h
  exact Space.eq_noSpace _ h

/-- Whatever is read from a text without white space around it is the text of an expression. -/
theorem exists_expression {text : Bytes} {tree : ERDAbstractSyntaxTree} (hne : text ≠ []) (hstart : Stops isspace text)
    (hend : Stops isspace text.reverse) (h : fromStringWith (resolving lookup) text = .ok tree) :
    ∃ e : Expression, e.space = noSpace ∧ (∀ a ∈ e.atoms, a.Resolves lookup) ∧ text = e.source ∧
      e.tree (treeGrammar none) (Atom.tree lookup) = tree := by
  obtain ⟨c', after, hparse, hafter⟩ := fromStringWith_ok hne hstart h
  obtain ⟨e, hatoms, htext, htree⟩ :=
    readsExpression (treeGrammar_delimiting _).forward atomic_treeGrammar ⟨0, text⟩ tree c' hparse
  replace htext : text = e.text (Atom.text reference) ++ after.1 := hafter ▸ htext
  have hnil : after.1 = [] := by
    rw [htext, List.reverse_append] at hend
    have hreversed := Space.eq_noSpace ⟨after.1.reverse, fun x hx => after.2 x (List.mem_reverse.mp hx)⟩ hend
    exact List.reverse_eq_nil_iff.mp (congrArg Subtype.val hreversed)
  rw [hnil, List.append_nil] at htext
  change text = Expression.source e at htext
  refine ⟨e, Expression.space_eq (htext ▸ hstart), hatoms, htext, ?_⟩
  rw [← tree_treeGrammar (resolving lookup)]
  exact htree

end Rsp.ErdText
