import Rsp.Endorsement.TextLanguages

/-!
# Round trip of the requirement language

Every text that the parser accepts gives a tree whose printed form is accepted again and gives the same tree.
-/

namespace Rsp.ErdText

open RecursiveDescent Proto Grammar

variable {T : Type}

namespace Grammar

/-! ### Trees that are read back -/

/-- The printer's equations for the operators and constants. -/
structure Prints (g : Grammar T) (print : T → Except Fault Bytes) : Prop where
  and : ∀ {lhs rhs s s'}, print lhs = .ok s → print rhs = .ok s' → print (g.and lhs rhs) = .ok (appendBinary "AND" s s')
  or : ∀ {lhs rhs s s'}, print lhs = .ok s → print rhs = .ok s' → print (g.or lhs rhs) = .ok (appendBinary "OR" s s')
  equals : ∀ {lhs rhs s s'}, print lhs = .ok s → print rhs = .ok s' →
    print (g.equals lhs rhs) = .ok (appendBinary "EQ" s s')
  allOf : ∀ {ts ss}, List.Forall₂ (fun t s => print t = .ok s) ts ss → print (g.allOf ts) = .ok (appendNary "ALLOF" ss)
  anyOf : ∀ {ts ss}, List.Forall₂ (fun t s => print t = .ok s) ts ss → print (g.anyOf ts) = .ok (appendNary "ANYOF" ss)
  trueValue : print g.trueValue = .ok (ascii "TRUE")
  falseValue : print g.falseValue = .ok (ascii "FALSE")

/-- The tree can be printed, and the parser reads it back from its printed form. -/
def RoundTrips (g : Grammar T) (print : T → Except Fault Bytes) (t : T) : Prop :=
  ∃ s, print t = .ok s ∧ Starts s ∧ Accepts g.parse s t Anything

variable {g : Grammar T} {print : T → Except Fault Bytes}

theorem exists_readings {ts : List T} (hts : ∀ t ∈ ts, RoundTrips g print t) :
    ∃ rs : List (Reading g), rs.map Reading.tree = ts ∧ List.Forall₂ (fun t s => print t = .ok s) ts (rs.map Reading.text) := by
  induction ts with
  | nil => exact ⟨[], rfl, .nil⟩
  | cons t ts ih =>
    rw [List.forall_mem_cons] at hts
    obtain ⟨⟨s, hs, hstart, haccepts⟩, hts⟩ := hts
    obtain ⟨rs, htrees, hprint⟩ := ih hts
    exact ⟨⟨s, t, hstart, haccepts⟩ :: rs, by rw [List.map_cons, htrees], .cons hs hprint⟩

theorem isspace_blank : ∀ x ∈ ascii " ", isspace x := List.all_eq_true.mp rfl

/-- The blank that is printed after a comma. -/
def blank : Space := ⟨ascii " ", isspace_blank⟩

/-- Printed terms: a comma and a blank between them. -/
def printedTerms (space : Space) (r : Reading g) : List (Reading g) → Terms (Reading g)
  | [] => .last (.atom space r) noSpace
  | r' :: rs => .more (.atom space r) noSpace (printedTerms blank r' rs)

theorem text_printedTerms (space : Space) (r : Reading g) (rs : List (Reading g)) :
    (printedTerms space r rs).text Reading.text =
      space.1 ++ (List.intercalate (ascii ", ") ((r :: rs).map Reading.text) ++ ascii ")") := by
  induction rs generalizing space r with
  | nil =>
    rw [printedTerms, Terms.text, Concrete.text, List.map_singleton, List.intercalate_singleton, List.append_assoc]
    rfl
  | cons r' rs ih =>
    have hcomma (tail : Bytes) : noSpace.1 ++ (ascii "," ++ (blank.1 ++ tail)) = ascii ", " ++ tail := rfl
    rw [printedTerms, Terms.text, Concrete.text, ih, hcomma]
    simp only [List.map_cons, List.intercalate_cons_cons, List.append_assoc]

theorem trees_printedTerms (space : Space) (r : Reading g) (rs : List (Reading g)) :
    (printedTerms space r rs).trees g Reading.tree = (r :: rs).map Reading.tree := by
  induction rs generalizing space r with
  | nil => rw [printedTerms, Terms.trees, Concrete.tree, List.map_singleton]
  | cons r' rs ih =>
    rw [printedTerms, Terms.trees, Concrete.tree, ih]
    rfl

section

variable (hg : g.Forward) (hu : g.Unambiguous)

include hg hu

/-- What is printed as an expression is read back. -/
theorem roundTrips_concrete {t : T} (e : Concrete (Reading g)) (hspace : e.space = noSpace) (htree : e.tree g Reading.tree = t) (hprint : print t = .ok (e.text Reading.text)) :
    RoundTrips g print t := by
  have hreadable : ∀ a ∈ e.atoms, Readable g Reading.text Reading.tree a := fun a _ => ⟨a.starts, a.accepts⟩
  refine ⟨_, hprint, ?_, htree ▸ Concrete.accepts hg hu hreadable⟩
  rw [e.text_eq, hspace]
  exact Concrete.starts_flush hreadable

theorem roundTrips_binary (op : BinaryOp) {word : String} (hword : op.word = ascii word) {lhs rhs : T}
    (hprint : ∀ {s s'}, print lhs = .ok s → print rhs = .ok s' → print (g.binary op lhs rhs) = .ok (appendBinary word s s'))
    (hlhs : RoundTrips g print lhs) (hrhs : RoundTrips g print rhs) : RoundTrips g print (g.binary op lhs rhs) := by
  obtain ⟨s, hs, hstart, hlhs⟩ := hlhs
  obtain ⟨s', hs', hstart', hrhs⟩ := hrhs
  refine roundTrips_concrete hg hu (.binary noSpace op (.atom noSpace ⟨s, lhs, hstart, hlhs⟩) noSpace
    (.atom blank ⟨s', rhs, hstart', hrhs⟩) noSpace) rfl ?_ ?_
  · simp only [Concrete.tree]
  · have hcomma (tail : Bytes) : ascii "," ++ (blank.1 ++ tail) = ascii ", " ++ tail := rfl
    have hend (tail : Bytes) : noSpace.1 ++ tail = tail := rfl
    rw [hprint hs hs', appendBinary, ← hword]
    simp only [Concrete.text, hcomma, hend, List.append_assoc]

theorem roundTrips_nary (op : NaryOp) {word : String} (hword : op.word = ascii word) {ts : List T}
    (hprint : ∀ {ss}, List.Forall₂ (fun t s => print t = .ok s) ts ss → print (g.nary op ts) = .ok (appendNary word ss))
    (hts : ∀ t ∈ ts, RoundTrips g print t) : RoundTrips g print (g.nary op ts) := by
  obtain ⟨rs, rfl, hread⟩ := exists_readings hts
  have hend (tail : Bytes) : noSpace.1 ++ tail = tail := rfl
  have htext := hprint hread
  rw [appendNary, ← hword] at htext
  cases rs with
  | nil =>
    refine roundTrips_concrete hg hu (.empty noSpace op noSpace) rfl ?_ ?_
    · rw [Concrete.tree]
      rfl
    · rw [htext, Concrete.text, hend, hend, List.append_assoc]
      rfl
  | cons r rs =>
    refine roundTrips_concrete hg hu (.nary noSpace op (printedTerms noSpace r rs)) rfl ?_ ?_
    · rw [Concrete.tree, trees_printedTerms]
    · rw [htext, Concrete.text, text_printedTerms, hend, hend]
      simp only [List.append_assoc]

theorem roundTrips_leaf {rule : Rule T} (hrule : rule ∈ g.leaves) (hskip : rule.keyword.drop rule.skip = [])
    {s : Bytes} {t : T} (hprint : print t = .ok (rule.keyword ++ s)) (h : Accepts rule.body s t Anything) :
    RoundTrips g print t :=
  ⟨_, hprint, accepts_leaf hg hu (List.mem_append_right _ hrule) hskip h⟩

/-- Only the leaves are left to be checked. -/
theorem closed_roundTrips (hp : g.Prints print)
    (hleaf : ∀ rule ∈ g.atoms ++ g.leaves, Ensures rule.body (RoundTrips g print)) : g.Closed (RoundTrips g print) where
  and _ _ := roundTrips_binary hg hu .and rfl hp.and
  or _ _ := roundTrips_binary hg hu .or rfl hp.or
  equals _ _ := roundTrips_binary hg hu .equals rfl hp.equals
  allOf _ := roundTrips_nary hg hu .allOf rfl hp.allOf
  anyOf _ := roundTrips_nary hg hu .anyOf rfl hp.anyOf
  trueValue := ⟨_, hp.trueValue, accepts_trueWord hg rfl fun keyword hkeyword => (hu.constants keyword hkeyword).1⟩
  falseValue := ⟨_, hp.falseValue, accepts_falseWord hg rfl fun keyword hkeyword => (hu.constants keyword hkeyword).2⟩
  leaf := hleaf

end

end Grammar

/-! ### Endorsement trees -/

theorem appendEndTerms_ok {ts : List ERDASTEndTree} {ss : List Bytes}
    (h : List.Forall₂ (fun t s => appendEndTree t = .ok s) ts ss) : appendEndTerms ts = .ok ss := by
  induction h with
  | nil => rfl
  | cons ht _ ih =>
    rw [appendEndTerms, ht, ih]
    rfl

theorem endGrammar_prints : endGrammar.Prints appendEndTree where
  and hlhs hrhs := by
    have hnode (lhs rhs) : endGrammar.and lhs rhs = .and (some lhs) (some rhs) := rfl
    rw [hnode, appendEndTree, appendEndOperand, appendEndOperand, hlhs, hrhs]
    rfl
  or hlhs hrhs := by
    have hnode (lhs rhs) : endGrammar.or lhs rhs = .or (some lhs) (some rhs) := rfl
    rw [hnode, appendEndTree, appendEndOperand, appendEndOperand, hlhs, hrhs]
    rfl
  equals hlhs hrhs := by
    have hnode (lhs rhs) : endGrammar.equals lhs rhs = .equals (some lhs) (some rhs) := rfl
    rw [hnode, appendEndTree, appendEndOperand, appendEndOperand, hlhs, hrhs]
    rfl
  allOf hts := by
    have hnode (ts) : endGrammar.allOf ts = .allOf ts := rfl
    rw [hnode, appendEndTree, appendEndTerms_ok hts]
    rfl
  anyOf hts := by
    have hnode (ts) : endGrammar.anyOf ts = .anyOf ts := rfl
    rw [hnode, appendEndTree, appendEndTerms_ok hts]
    rfl
  trueValue := rfl
  falseValue := rfl

theorem accepts_argument_uuid {bytes : Bytes} (h : bytes.length = 16) :
    ∃ text, bytesToUUID bytes = .ok text ∧ Accepts (argument parseUUIDBytes) (text ++ ascii ")") bytes Anything := by
  obtain ⟨text, htext, hstops, haccepts⟩ := accepts_parseUUIDBytes h
  exact ⟨text, htext, accepts_argument haccepts (fun _ => trivial) fun _ => hstops _⟩

theorem accepts_argument_hex (bytes : Bytes) :
    Accepts (argument parseHexBytes) (bytesToHex bytes ++ ascii ")") bytes Anything := by
  refine accepts_argument (accepts_parseHexBytes bytes) (fun _ => stops_cons (by decide)) fun rest => ?_
  cases hhex : bytesToHex bytes with
  | nil => exact stops_cons (by decide)
  | cons c hex =>
    have hmem : c ∈ bytesToHex bytes := hhex ▸ List.mem_cons_self
    exact stops_cons (isspace_of_isHexChar (isHexChar_of_mem_bytesToHex hmem).1)

theorem roundTrips_typeEquals {bytes : Bytes} (h : bytes.length = 16) :
    endGrammar.RoundTrips appendEndTree (.typeEquals (some ⟨bytes⟩)) := by
  obtain ⟨text, htext, haccepts⟩ := accepts_argument_uuid h
  refine roundTrips_leaf endGrammar_delimiting.forward endGrammar_unambiguous (.head _) rfl (s := text ++ ascii ")") ?_ ?_
  · rw [appendEndTree, Option.getD_some, htext, ← List.append_assoc]
    rfl
  · exact haccepts.bind_end accepts_pure fun _ _ => trivial

theorem roundTrips_valueEquals (bytes : Bytes) : endGrammar.RoundTrips appendEndTree (.valueEquals bytes) := by
  refine roundTrips_leaf endGrammar_delimiting.forward endGrammar_unambiguous (.tail _ (.head _)) rfl
    (s := bytesToHex bytes ++ ascii ")") ?_ ?_
  · rw [appendEndTree, List.append_assoc]
  · exact (accepts_argument_hex bytes).bind_end accepts_pure fun _ _ => trivial

theorem roundTrips_signerEquals {bytes : Bytes} (h : bytes.length = 16) :
    endGrammar.RoundTrips appendEndTree (.signerEquals (some ⟨bytes⟩)) := by
  obtain ⟨text, htext, haccepts⟩ := accepts_argument_uuid h
  refine roundTrips_leaf endGrammar_delimiting.forward endGrammar_unambiguous (.tail _ (.tail _ (.head _))) rfl
    (s := text ++ ascii ")") ?_ ?_
  · rw [appendEndTree, Option.getD_some, htext, ← List.append_assoc]
    rfl
  · exact haccepts.bind_end accepts_pure fun _ _ => trivial

theorem ensures_parseEndTree : Ensures parseEndTree (endGrammar.RoundTrips appendEndTree) := by
  refine ensures_parse (closed_roundTrips endGrammar_delimiting.forward endGrammar_unambiguous endGrammar_prints ?_)
  have huuid := ensures_argument ensures_parseUUIDBytes
  intro rule hrule
  fin_cases hrule
  · exact huuid.bind fun _ h => ensures_pure (roundTrips_typeEquals h)
  · exact ensures_bind fun bytes => ensures_pure (roundTrips_valueEquals bytes)
  · exact huuid.bind fun _ h => ensures_pure (roundTrips_signerEquals h)

/-! ### Message trees -/

/-- The printer of message trees cannot fail. -/
def printMessageTree (tree : ERDASTMessageTree) : Except Fault Bytes := .ok (appendMessageTree tree)

theorem appendMessageTerms_eq {ts : List ERDASTMessageTree} {ss : List Bytes}
    (h : List.Forall₂ (fun t s => printMessageTree t = .ok s) ts ss) : appendMessageTerms ts = ss := by
  induction h with
  | nil => rfl
  | cons ht _ ih => rw [appendMessageTerms, ih, Except.ok.inj ht]

theorem messageGrammar_prints : messageGrammar.Prints printMessageTree where
  and hlhs hrhs := by
    rw [← Except.ok.inj hlhs, ← Except.ok.inj hrhs]
    rfl
  or hlhs hrhs := by
    rw [← Except.ok.inj hlhs, ← Except.ok.inj hrhs]
    rfl
  equals hlhs hrhs := by
    rw [← Except.ok.inj hlhs, ← Except.ok.inj hrhs]
    rfl
  allOf hts := by
    rw [← appendMessageTerms_eq hts]
    rfl
  anyOf hts := by
    rw [← appendMessageTerms_eq hts]
    rfl
  trueValue := rfl
  falseValue := rfl

/-- A path before a comma or a closing parenthesis. -/
theorem accepts_path_closeWith {path : ERDASTFieldPath} (h : IsPath path) {c : UInt8} (hspace : isspace c = false)
    (hc : endsPath c = true) {β : Type} {f : ERDASTFieldPath → Parser β} {s : Bytes} {b : β} {next : Bytes → Prop}
    (hf : Accepts (f path) s b next) :
    Accepts (do let path ← parseFieldPath; closeWith c; f path) (appendFieldPath path ++ ([c] ++ s)) b next := by
  have hclose : Accepts (closeWith c) [c] () Anything := accepts_closeWith hspace
  refine (accepts_parseFieldPath h).bind (hclose.bind hf fun _ _ => trivial) fun rest _ => stops_cons ?_
  rw [hc, Bool.not_true]

theorem accepts_space_parseFieldPath {path : ERDASTFieldPath} (h : IsPath path) :
    Accepts parseFieldPath (char ' ' :: appendFieldPath path) path (Stops fun c => !endsPath c) :=
  accepts_space_append isspace_blank (accepts_parseFieldPath h)

theorem accepts_space_parseFieldValue {value : ERDASTFieldValue} (h : IsValue value) :
    Accepts parseFieldValue (char ' ' :: appendFieldValue value) value (Next (char ')')) :=
  accepts_space_append isspace_blank (accepts_parseFieldValue h)

theorem accepts_parseFieldEquals {path : ERDASTFieldPath} {value : ERDASTFieldValue} (hpath : IsPath path)
    (hvalue : IsValue value) :
    Accepts parseFieldEquals (appendFieldPath path ++ ([char ','] ++ (char ' ' :: appendFieldValue value ++ ascii ")")))
      (.fieldEquals (some path) (some value)) Anything := by
  have hclose : Accepts (closeWith (char ')')) (ascii ")") () Anything := accepts_closeWith (by decide)
  refine accepts_path_closeWith hpath (by decide) (by decide) ?_
  refine (accepts_space_parseFieldValue hvalue).bind ?_ fun _ _ => rfl
  exact hclose.bind_end accepts_pure fun _ _ => trivial

theorem accepts_parseFieldExists {path : ERDASTFieldPath} (hpath : IsPath path) :
    Accepts parseFieldExists (appendFieldPath path ++ ([char ')'] ++ [])) (.fieldExists (some path)) Anything :=
  accepts_path_closeWith hpath (by decide) (by decide) accepts_pure

theorem accepts_parseFieldContains {path subPath : ERDASTFieldPath} {value : ERDASTFieldValue} (hpath : IsPath path)
    (hsubPath : IsPath subPath) (hvalue : IsValue value) :
    Accepts parseFieldContains (appendFieldPath path ++ ([char ','] ++ (char ' ' :: appendFieldPath subPath ++
      ([char ','] ++ (char ' ' :: appendFieldValue value ++ ascii ")")))))
      (.fieldContains (some path) (some subPath) (some value)) Anything := by
  have hcomma : Accepts (closeWith (char ',')) [char ','] () Anything := accepts_closeWith (by decide)
  have hclose : Accepts (closeWith (char ')')) (ascii ")") () Anything := accepts_closeWith (by decide)
  refine accepts_path_closeWith hpath (by decide) (by decide) ?_
  refine (accepts_space_parseFieldPath hsubPath).bind (hcomma.bind ?_ fun _ _ => trivial) fun _ _ =>
    stops_cons (by decide)
  refine (accepts_space_parseFieldValue hvalue).bind ?_ fun _ _ => rfl
  exact hclose.bind_end accepts_pure fun _ _ => trivial

theorem roundTrips_fieldEquals {path : ERDASTFieldPath} {value : ERDASTFieldValue} (hpath : IsPath path)
    (hvalue : IsValue value) :
    messageGrammar.RoundTrips printMessageTree (.fieldEquals (some path) (some value)) := by
  refine roundTrips_leaf messageGrammar_delimiting.forward messageGrammar_unambiguous (.tail _ (.tail _ (.head _))) rfl ?_
    (accepts_parseFieldEquals hpath hvalue)
  rw [printMessageTree, appendMessageTree]
  simp only [List.append_assoc]
  rfl

theorem roundTrips_fieldExists {path : ERDASTFieldPath} (hpath : IsPath path) :
    messageGrammar.RoundTrips printMessageTree (.fieldExists (some path)) := by
  refine roundTrips_leaf messageGrammar_delimiting.forward messageGrammar_unambiguous (.tail _ (.tail _ (.tail _ (.head _)))) rfl ?_
    (accepts_parseFieldExists hpath)
  rw [printMessageTree, appendMessageTree]
  simp only [List.append_assoc]
  rfl

theorem roundTrips_fieldContains {path subPath : ERDASTFieldPath} {value : ERDASTFieldValue} (hpath : IsPath path)
    (hsubPath : IsPath subPath) (hvalue : IsValue value) :
    messageGrammar.RoundTrips printMessageTree (.fieldContains (some path) (some subPath) (some value)) := by
  refine roundTrips_leaf messageGrammar_delimiting.forward messageGrammar_unambiguous
    (.tail _ (.tail _ (.tail _ (.tail _ (.head _))))) rfl ?_ (accepts_parseFieldContains hpath hsubPath hvalue)
  rw [printMessageTree, appendMessageTree]
  simp only [List.append_assoc]
  rfl

theorem isPath_destination : IsPath ⟨[ascii "destination", ascii "value"]⟩ where
  nonempty := List.cons_ne_nil _ _
  segment := by
    simp only [List.forall_mem_cons, IsSegment, ← List.forall_iff_forall_mem]
    decide
  start := stops_cons (by decide)

theorem isPath_source : IsPath ⟨[ascii "signature", ascii "signer", ascii "value"]⟩ where
  nonempty := List.cons_ne_nil _ _
  segment := by
    simp only [List.forall_mem_cons, IsSegment, ← List.forall_iff_forall_mem]
    decide
  start := stops_cons (by decide)

theorem ensures_parseMessageTree : Ensures parseMessageTree (messageGrammar.RoundTrips printMessageTree) := by
  refine ensures_parse (closed_roundTrips messageGrammar_delimiting.forward messageGrammar_unambiguous messageGrammar_prints ?_)
  intro rule hrule
  fin_cases hrule
  · exact ensures_bind fun _ => ensures_pure (roundTrips_fieldEquals isPath_destination trivial)
  · exact ensures_bind fun _ => ensures_pure (roundTrips_fieldEquals isPath_source trivial)
  · exact ensures_parseFieldPath.bind fun _ hpath => ensures_bind fun _ =>
      ensures_parseFieldValue.bind fun _ hvalue => ensures_bind fun _ =>
        ensures_pure (roundTrips_fieldEquals hpath hvalue)
  · exact ensures_parseFieldPath.bind fun _ hpath => ensures_bind fun _ => ensures_pure (roundTrips_fieldExists hpath)
  · exact ensures_parseFieldPath.bind fun _ hpath => ensures_bind fun _ =>
      ensures_parseFieldPath.bind fun _ hsubPath => ensures_bind fun _ =>
        ensures_parseFieldValue.bind fun _ hvalue => ensures_bind fun _ =>
          ensures_pure (roundTrips_fieldContains hpath hsubPath hvalue)

/-! ### Requirement trees -/

/-- Without a resolver a variable is an error. -/
theorem ensures_parseVariable {post : ERDAbstractSyntaxTree → Prop} : Ensures (parseVariable none) post := by
  intro c tree c' h
  obtain ⟨_, _, _, hnone, _⟩ := parseVariable_ok h
  cases hnone

theorem appendTerms_ok {ts : List ERDAbstractSyntaxTree} {ss : List Bytes}
    (h : List.Forall₂ (fun t s => appendTree t = .ok s) ts ss) : appendTerms ts = .ok ss := by
  induction h with
  | nil => rfl
  | cons ht _ ih =>
    rw [appendTerms, ht, ih]
    rfl

theorem treeGrammar_prints : (treeGrammar none).Prints appendTree where
  and hlhs hrhs := by
    have hnode (lhs rhs) : (treeGrammar none).and lhs rhs = .and (some lhs) (some rhs) := rfl
    rw [hnode, appendTree, appendOperand, appendOperand, hlhs, hrhs]
    rfl
  or hlhs hrhs := by
    have hnode (lhs rhs) : (treeGrammar none).or lhs rhs = .or (some lhs) (some rhs) := rfl
    rw [hnode, appendTree, appendOperand, appendOperand, hlhs, hrhs]
    rfl
  equals hlhs hrhs := by
    have hnode (lhs rhs) : (treeGrammar none).equals lhs rhs = .equals (some lhs) (some rhs) := rfl
    rw [hnode, appendTree, appendOperand, appendOperand, hlhs, hrhs]
    rfl
  allOf hts := by
    have hnode (ts) : (treeGrammar none).allOf ts = .allOf ts := rfl
    rw [hnode, appendTree, appendTerms_ok hts]
    rfl
  anyOf hts := by
    have hnode (ts) : (treeGrammar none).anyOf ts = .anyOf ts := rfl
    rw [hnode, appendTree, appendTerms_ok hts]
    rfl
  trueValue := rfl
  falseValue := rfl

theorem roundTrips_endorsement {tree : ERDASTEndTree} (h : endGrammar.RoundTrips appendEndTree tree) :
    (treeGrammar none).RoundTrips appendTree (.endorsement (some tree)) := by
  obtain ⟨s, hs, hstart, haccepts⟩ := h
  have hargument := accepts_argument haccepts (fun _ => trivial) fun _ => hstart.stops _
  refine roundTrips_leaf (treeGrammar_delimiting none).forward (treeGrammar_unambiguous none) (.head _) rfl (s := s ++ ascii ")") ?_ ?_
  · rw [appendTree, appendEndOperand, hs, ← List.append_assoc]
    rfl
  · exact hargument.bind_end accepts_pure fun _ _ => trivial

theorem roundTrips_message {tree : ERDASTMessageTree} (h : messageGrammar.RoundTrips printMessageTree tree) :
    (treeGrammar none).RoundTrips appendTree (.message (some tree)) := by
  obtain ⟨s, hs, hstart, haccepts⟩ := h
  have hargument := accepts_argument haccepts (fun _ => trivial) fun _ => hstart.stops _
  refine roundTrips_leaf (treeGrammar_delimiting none).forward (treeGrammar_unambiguous none)
    (.tail _ (.tail _ (.tail _ (.tail _ (.head _))))) rfl (s := s ++ ascii ")") ?_ ?_
  · rw [appendTree, appendMessageOperand, ← List.append_assoc, ← Except.ok.inj hs]
  · exact hargument.bind_end accepts_pure fun _ _ => trivial

/-- The shorthands give the trees that the long forms give. -/
theorem ensures_parseTree : Ensures (parseTree none) ((treeGrammar none).RoundTrips appendTree) := by
  refine ensures_parse (closed_roundTrips (treeGrammar_delimiting none).forward (treeGrammar_unambiguous none) treeGrammar_prints ?_)
  have huuid := ensures_argument ensures_parseUUIDBytes
  intro rule hrule
  fin_cases hrule
  · exact ensures_parseVariable
  · exact (ensures_argument ensures_parseEndTree).bind fun _ h => ensures_pure (roundTrips_endorsement h)
  · exact huuid.bind fun _ h => ensures_pure (roundTrips_endorsement (roundTrips_typeEquals h))
  · exact ensures_bind fun bytes => ensures_pure (roundTrips_endorsement (roundTrips_valueEquals bytes))
  · exact huuid.bind fun _ h => ensures_pure (roundTrips_endorsement (roundTrips_signerEquals h))
  · exact (ensures_argument ensures_parseMessageTree).bind fun _ h => ensures_pure (roundTrips_message h)
  · exact ensures_bind fun _ =>
      ensures_pure (roundTrips_message (roundTrips_fieldEquals isPath_destination trivial))
  · exact ensures_bind fun _ => ensures_pure (roundTrips_message (roundTrips_fieldEquals isPath_source trivial))

/-! ### Whole texts -/

theorem fromString_ok {text : Bytes} {tree : ERDAbstractSyntaxTree} (h : fromString text = .ok tree) :
    tree = .notSet ∨ (treeGrammar none).RoundTrips appendTree tree := by
  have hensures : Ensures (parseText none) fun tree =>
      tree = .notSet ∨ (treeGrammar none).RoundTrips appendTree tree := by
    refine ensures_bind fun _ => ensures_bind fun _ => ensures_ite (ensures_pure (.inl rfl)) ?_
    refine ensures_parseTree.bind fun tree htree => ensures_bind fun _ => ensures_bind fun _ => ?_
    exact ensures_ite ensures_fail_bind (ensures_pure (.inr htree))
  rw [fromString, fromStringWith, StateT.run'] at h
  cases hrun : parseText none ⟨0, text⟩ with
  | error e =>
    rw [hrun] at h
    cases h
  | ok result =>
    obtain ⟨result, stop⟩ := result
    rw [hrun] at h
    obtain rfl := Except.ok.inj h
    exact hensures _ _ _ hrun

theorem fromString_toString {text : Bytes} {tree : ERDAbstractSyntaxTree} (h : fromString text = .ok tree) :
    ∃ printed, toString tree = .ok printed ∧ fromString printed = .ok tree := by
  rcases fromString_ok h with rfl | ⟨s, hs, hstart, haccepts⟩
  · exact ⟨[], rfl, rfl⟩
  · have hne : tree ≠ .notSet := by
      rintro rfl
      obtain ⟨c, rest, hcons, -, -⟩ := hstart
      obtain rfl := Except.ok.inj hs
      cases hcons
    have hprint : toString tree = appendTree tree := by
      rw [toString]
      exact fun heq => hne heq
    exact ⟨s, hprint.trans hs, fromStringWith_of_accepts hstart haccepts⟩

/-- Shorthands, white space, upper-case digits and a dot at the end of a path. -/
theorem fromString_toString_sample :
    ∃ tree, fromString (ascii "AND( ENDORSEMENT_VALUE(AB) ,ALLOF(MESSAGE(FIELD_EQ(a.b., -5))) )") = .ok tree ∧
      ∃ printed, toString tree = .ok printed ∧ fromString printed = .ok tree := by
  have hok : (fromString (ascii "AND( ENDORSEMENT_VALUE(AB) ,ALLOF(MESSAGE(FIELD_EQ(a.b., -5))) )")).toOption.isSome =
      true := by
    decide +kernel
  cases h : fromString (ascii "AND( ENDORSEMENT_VALUE(AB) ,ALLOF(MESSAGE(FIELD_EQ(a.b., -5))) )") with
  | error e =>
    rw [h] at hok
    cases hok
  | ok tree => exact ⟨tree, rfl, fromString_toString h⟩

end Rsp.ErdText
