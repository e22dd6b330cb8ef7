import Rsp.Endorsement.TextSyntax

/-!
# The three tree languages

No leaf of the three languages looks beyond its own text, so none of their expressions does. In the language of requirements an atom is a leaf or a variable.
-/

namespace Rsp.ErdText

open RecursiveDescent Proto Grammar

/-! ### Endorsements and messages -/

theorem endGrammar_unambiguous : endGrammar.Unambiguous := ⟨by decide, by decide, by decide⟩

theorem endGrammar_delimiting : Delimiting endGrammar where
  skip rule hrule := by fin_cases hrule <;> rfl
  body rule hrule := by
    have huuid := delimited_argument delimited_parseUUIDBytes.peeks
    have hhex := delimited_argument peeks_parseHexBytes
    fin_cases hrule
    · exact huuid.map
    · exact hhex.map
    · exact huuid.map
  constants := by decide

theorem messageGrammar_unambiguous : messageGrammar.Unambiguous := ⟨by decide, by decide, by decide⟩

theorem messageGrammar_delimiting : Delimiting messageGrammar where
  skip rule hrule := by fin_cases hrule <;> rfl
  body rule hrule := by
    have huuid := delimited_argument delimited_parseUUIDBytes.peeks
    fin_cases hrule
    · exact huuid.map
    · exact huuid.map
    · exact delimited_parseFieldEquals
    · exact delimited_parseFieldExists
    · exact delimited_parseFieldContains
  constants := by decide

/-! ### Variables -/

/-- The names that a variable can have. -/
def IsName (name : Bytes) : Prop :=
  ∃ first others, name = first :: others ∧ (isIdChar first true && others.all (isIdChar · false)) = true

theorem IsName.not_mem {name : Bytes} (h : IsName name) : char '}' ∉ name := by
  obtain ⟨first, others, rfl, hchars⟩ := h
  rw [Bool.and_eq_true, List.all_eq_true] at hchars
  rw [List.mem_cons, not_or]
  refine ⟨?_, fun hmem => absurd (hchars.2 _ hmem) (by decide)⟩
  rintro rfl
  exact absurd hchars.1 (by decide)

theorem parseVariable_ok {resolver : Option VariableResolver} {c c' : Cursor UInt8} {tree : ERDAbstractSyntaxTree}
    (h : parseVariable resolver c = .ok (tree, c')) :
    ∃ name resolve, IsName name ∧ resolver = some resolve ∧ resolve name = .ok (some tree) ∧
      c.rest = name ++ ascii "\x7d" ++ c'.rest := by
  obtain ⟨_, start, hget, h⟩ := bind_ok.mp h
  obtain ⟨-, rfl⟩ := Prod.mk.inj (Except.ok.inj hget)
  obtain ⟨name, stop, htake, h⟩ := bind_ok.mp h
  rw [bind_of_ok (rfl : Parser.rest stop = .ok (stop.rest, stop))] at h
  by_cases hempty : stop.rest.isEmpty
  · rw [if_pos hempty] at h
    cases h
  rw [if_neg hempty] at h
  obtain ⟨-, hsplit⟩ := takeUntil_ok htake hempty
  obtain ⟨_, after, hadvance, h⟩ := bind_ok.mp h
  obtain ⟨-, rfl⟩ := Prod.mk.inj (Except.ok.inj hadvance)
  cases name with
  | nil => cases h
  | cons first others =>
    by_cases hchars : (isIdChar first true && others.all (isIdChar · false)) = true
    · dsimp only at h
      rw [hchars, Bool.not_true, if_neg Bool.false_ne_true] at h
      cases resolver with
      | none => cases h
      | some resolve =>
        obtain ⟨found, last, hresolve, h⟩ := bind_ok.mp h
        obtain ⟨value, hvalue, hpure⟩ := bind_eq_ok.mp hresolve
        obtain ⟨rfl, rfl⟩ := Prod.mk.inj (Except.ok.inj hpure)
        cases value with
        | none => cases h
        | some found =>
          obtain ⟨rfl, rfl⟩ := pure_ok.mp h
          exact ⟨first :: others, resolve, ⟨first, others, rfl, hchars⟩, rfl, hvalue, hsplit⟩
    · dsimp only at h
      rw [Bool.eq_false_iff.mpr hchars, Bool.not_false, if_pos rfl] at h
      cases h

theorem accepts_parseVariable {resolve : VariableResolver} {name : Bytes} {tree : ERDAbstractSyntaxTree}
    (hname : IsName name) (hresolve : resolve name = .ok (some tree)) :
    Accepts (parseVariable (some resolve)) (name ++ ascii "\x7d") tree Anything := by
  have hclose : Accepts (Parser.advance 1 : Parser Unit) (ascii "\x7d") () Anything := accepts_advance
  have hbody : Accepts (Parser.takeWhile (· ≠ char '}') : Parser Bytes) name name (Stops (· ≠ char '}')) := by
    refine accepts_takeWhile fun x hx => decide_eq_true ?_
    rintro rfl
    exact hname.not_mem hx
  refine accepts_get_bind fun start => hbody.bind (accepts_rest_bind fun rest _ => ?_) fun rest _ =>
    stops_cons (by decide)
  have hrest : (ascii "\x7d" ++ rest).isEmpty = false := rfl
  rw [hrest, if_neg Bool.false_ne_true]
  refine hclose.bind_end ?_ fun _ _ => trivial
  obtain ⟨first, others, rfl, hchars⟩ := hname
  dsimp only
  rw [hchars, Bool.not_true, if_neg Bool.false_ne_true]
  have hlift : Accepts (liftM (resolve (first :: others)) : Parser (Option ERDAbstractSyntaxTree)) [] (some tree)
      Anything := by
    intro pos rest _
    rw [hresolve]
    rfl
  exact hlift.bind_end accepts_pure fun _ _ => trivial

theorem delimited_parseVariable (resolver : Option VariableResolver) : Delimited (parseVariable resolver) := by
  intro c tree c' h
  obtain ⟨name, resolve, hname, rfl, hresolve, hrest⟩ := parseVariable_ok h
  exact ⟨name ++ ascii "\x7d", by simp [ascii], hrest, accepts_parseVariable hname hresolve⟩

/-! ### Requirements -/

theorem treeGrammar_unambiguous (resolver : Option VariableResolver) : (treeGrammar resolver).Unambiguous := by
  have hkeywords : (treeGrammar resolver).keywords = (treeGrammar none).keywords := rfl
  have h : (treeGrammar none).Unambiguous := ⟨by decide, by decide, by decide⟩
  constructor
  · rw [hkeywords]
    exact h.keywords
  · rw [hkeywords]
    exact h.constants
  · rw [hkeywords]
    exact h.start

theorem treeGrammar_delimiting (resolver : Option VariableResolver) : Delimiting (treeGrammar resolver) where
  skip rule hrule := by fin_cases hrule <;> rfl
  body rule hrule := by
    have huuid := delimited_argument delimited_parseUUIDBytes.peeks
    have hhex := delimited_argument peeks_parseHexBytes
    have hend := delimited_argument (endGrammar_delimiting.delimited_parse endGrammar_unambiguous).peeks
    have hmessage := delimited_argument (messageGrammar_delimiting.delimited_parse messageGrammar_unambiguous).peeks
    fin_cases hrule
    · exact delimited_parseVariable resolver
    · exact hend.map
    · exact huuid.map
    · exact hhex.map
    · exact huuid.map
    · exact hmessage.map
    · exact huuid.map
    · exact huuid.map
  constants := by
    have hkeywords : (treeGrammar resolver).keywords = (treeGrammar none).keywords := rfl
    rw [hkeywords]
    decide

/-! ### Whole texts -/

theorem fromStringWith_of_accepts {resolver : Option VariableResolver} {s : Bytes} {tree : ERDAbstractSyntaxTree}
    (hstart : Starts s) (h : Accepts (parseTree resolver) s tree Anything) : fromStringWith resolver s = .ok tree := by
  have htext : Accepts (parseText resolver) s tree (· = []) := by
    refine accepts_skipWhitespace.bind_nil (accepts_rest_bind ?_) fun rest _ => hstart.stops rest
    rintro _ rfl
    obtain ⟨c, s, rfl, -, -⟩ := hstart
    have hempty : (c :: s ++ []).isEmpty = false := rfl
    rw [hempty, if_neg Bool.false_ne_true]
    refine h.bind_end (accepts_skipWhitespace.bind_nil (accepts_rest_bind ?_) ?_) fun _ _ => trivial
    · rintro _ rfl
      exact accepts_pure
    · rintro _ rfl
      exact fun x hx => by cases hx
  have hrun := htext 0 [] rfl
  rw [List.append_nil] at hrun
  rw [fromStringWith, StateT.run', hrun]
  rfl

/-- The expression is followed by nothing but white space. -/
theorem fromStringWith_ok {resolver : Option VariableResolver} {text : Bytes} {tree : ERDAbstractSyntaxTree}
    (hne : text ≠ []) (hstart : Stops isspace text) (h : fromStringWith resolver text = .ok tree) :
    ∃ (c' : Cursor UInt8) (after : Space), parseTree resolver ⟨0, text⟩ = .ok (tree, c') ∧ c'.rest = after.1 := by
  obtain ⟨x, tail, rfl⟩ := List.exists_cons_of_ne_nil hne
  have hrun : ∃ c', parseText resolver ⟨0, x :: tail⟩ = .ok (tree, c') := by
    rw [fromStringWith, StateT.run'] at h
    cases hparse : parseText resolver ⟨0, x :: tail⟩ with
    | error e =>
      rw [hparse] at h
      cases h
    | ok result =>
      rw [hparse] at h
      obtain rfl := Except.ok.inj h
      exact ⟨result.2, rfl⟩
  obtain ⟨stop, hrun⟩ := hrun
  have hstay : skipWhitespace ⟨0, x :: tail⟩ = .ok ((), ⟨0, x :: tail⟩) := accepts_skipWhitespace 0 (x :: tail) hstart
  rw [parseText, bind_of_ok hstay] at hrun
  rw [bind_of_ok (rfl : Parser.rest _ = .ok (x :: tail, _)), List.isEmpty_cons, if_neg Bool.false_ne_true] at hrun
  obtain ⟨found, c', hparse, hrun⟩ := bind_ok.mp hrun
  obtain ⟨_, c₁, hskip, hrun⟩ := bind_ok.mp hrun
  obtain ⟨after, hafter⟩ := skipWhitespace_ok hskip
  rw [bind_of_ok (rfl : Parser.rest c₁ = .ok (c₁.rest, c₁))] at hrun
  by_cases hempty : c₁.rest.isEmpty = true
  · rw [hempty, Bool.not_true, if_neg Bool.false_ne_true] at hrun
    obtain ⟨rfl, rfl⟩ := pure_ok.mp hrun
    refine ⟨c', after, hparse, ?_⟩
    rw [hafter, List.isEmpty_iff.mp hempty, List.append_nil]
  · rw [Bool.eq_false_iff.mpr hempty, Bool.not_false, if_pos rfl] at hrun
    cases hrun

end Rsp.ErdText
