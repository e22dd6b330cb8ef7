import Rsp.Endorsement.Text

/-!
# Message rules

`message_rules.cpp`: the lines of the `message_rules` array of a configuration declare variables and end with one rule. The texts of the array are bytes; what `KeyPair::nodeIDFromPublicKeyFile` reads from the file system is a parameter.
-/

namespace Rsp.Config

open Proto ErdText

/-! ### Lines -/

def trimmed (s : Bytes) : Bytes := ((s.dropWhile isspace).reverse.dropWhile isspace).reverse

def isCommentOrBlank (trimmedLine : Bytes) : Bool :=
  trimmedLine.isEmpty || (ascii "#").isPrefixOf trimmedLine || (ascii "//").isPrefixOf trimmedLine

def isFirst (c : UInt8) : Bool := c = char '_' ∨ (65 ≤ c ∧ c ≤ 90) ∨ (97 ≤ c ∧ c ≤ 122)

def isRest (c : UInt8) : Bool := c = char '_' ∨ (65 ≤ c ∧ c ≤ 90) ∨ (97 ≤ c ∧ c ≤ 122) ∨ (48 ≤ c ∧ c ≤ 57)

def isIdentifier : Bytes → Bool
  | [] => false
  | first :: others => isFirst first && others.all isRest

/-- What `tryParseLet` stores; an empty `error` means success. -/
structure LetLine where
  name : Bytes
  expr : Bytes := []
  error : String := ""
deriving DecidableEq, Repr

def startsWithLet (trimmedLine : Bytes) : Bool :=
  (ascii "let ").isPrefixOf trimmedLine || ((ascii "let").isPrefixOf trimmedLine && (trimmedLine.drop 3).head?.any isspace)

/-- `none` for a line that is not a declaration. -/
def tryParseLet (trimmedLine : Bytes) : Option LetLine :=
  if trimmedLine.length < 4 then none
  else if !startsWithLet trimmedLine then none
  else
    let afterLet := (trimmedLine.drop 3).dropWhile isspace
    let name := afterLet.takeWhile fun c => !isspace c && c ≠ char '='
    let afterName := (afterLet.drop name.length).dropWhile isspace
    if afterName.head? ≠ some (char '=') then some ⟨name, [], "let declaration is missing '='"⟩
    else
      let expr := (afterName.drop 1).dropWhile isspace
      if !isIdentifier name then some ⟨name, [], "invalid variable name '" ++ shown name ++ "'"⟩
      else if expr.isEmpty then some ⟨name, expr, "let declaration for '" ++ shown name ++ "' has empty expression"⟩
      else some ⟨name, expr, ""⟩

/-! ### Macros -/

structure MacroContext where
  nodeId : Bytes

variable (nodeIDFromPublicKeyFile : Bytes → Except Fault NodeID)

def myNodeId : Bytes := ascii "MY_NODEID()"

def fromFilePrefix : Bytes := ascii "NODEID_FROM_FILE("

/-- The first loop of `expandMacros`; `skip` symbols of a macro are still to be passed. -/
def expandMyNodeId (nodeId : Bytes) : (skip : Nat) → Bytes → Bytes
  | _, [] => []
  | skip + 1, _ :: text => expandMyNodeId nodeId skip text
  | 0, c :: text =>
    if myNodeId.isPrefixOf (c :: text) then nodeId ++ expandMyNodeId nodeId (myNodeId.length - 1) text
    else c :: expandMyNodeId nodeId 0 text

/-- The second loop. -/
def expandFromFile : (skip : Nat) → Bytes → Except Fault Bytes
  | _, [] => .ok []
  | skip + 1, _ :: text => expandFromFile skip text
  | 0, c :: text =>
    if fromFilePrefix.isPrefixOf (c :: text) then do
      let argument := (c :: text).drop fromFilePrefix.length
      if char ')' ∉ argument then throw (.runtimeError "NODEID_FROM_FILE( missing closing ')'")
      let path := argument.takeWhile (· ≠ char ')')
      let id ← nodeIDFromPublicKeyFile path
      return id.toString ++ (← expandFromFile (fromFilePrefix.length + path.length) text)
    else do return c :: (← expandFromFile 0 text)

def expandMacros (input : Bytes) (ctx : MacroContext) : Except Fault Bytes :=
  expandFromFile nodeIDFromPublicKeyFile 0 (expandMyNodeId ctx.nodeId 0 input)

/-! ### The array -/

/-- `rules`: not an array, or an array whose entries are strings or not. -/
abbrev Json := Option (List (Option Bytes))

structure RuleState where
  vars : List (Bytes × ERDAbstractSyntaxTree) := []
  /-- The tree of the rule line, once it has been seen. -/
  rule : Option ERDAbstractSyntaxTree := none

def entryError {α : Type} (idx : Nat) (text : String) : Except Fault α :=
  .error (.runtimeError ("message_rules[" ++ ToString.toString (idx + 1) ++ "]: " ++ text))

/-- Exceptions are thrown again with the number of the entry. -/
def rethrow {α : Type} (idx : Nat) (text : String) : Except Fault α → Except Fault α
  | .ok a => .ok a
  | .error fault => if fault.isException then entryError idx (text ++ fault.what) else .error fault

variable (macros : MacroContext)

def RuleState.resolver (state : RuleState) : VariableResolver := fun name => .ok (state.vars.lookup name)

/-- A line that is neither blank nor a comment. -/
def handleLine (idx : Nat) (state : RuleState) (line : Bytes) : Except Fault RuleState :=
  if state.rule.isSome then entryError idx "content appears after the rule line; the rule line must be last"
  else match tryParseLet line with
    | some declared =>
      if declared.error ≠ "" then entryError idx declared.error
      else if (state.vars.lookup declared.name).isSome then
        entryError idx ("duplicate variable '" ++ shown declared.name ++ "'")
      else do
        let expanded ← rethrow idx "macro expansion failed: " (expandMacros nodeIDFromPublicKeyFile declared.expr macros)
        let tree ← rethrow idx ("failed to parse let '" ++ shown declared.name ++ "': ")
          (fromStringWith (some state.resolver) expanded)
        return { state with vars := (declared.name, tree) :: state.vars }
    | none => do
      let expanded ← rethrow idx "macro expansion failed: " (expandMacros nodeIDFromPublicKeyFile line macros)
      let tree ← rethrow idx "failed to parse rule: " (fromStringWith (some state.resolver) expanded)
      return { state with rule := some tree }

/-- The loop over the entries from `idx` on. -/
def handleEntries (idx : Nat) (state : RuleState) : List (Option Bytes) → Except Fault RuleState
  | [] => .ok state
  | none :: _ => entryError idx "entry must be a string"
  | some raw :: entries =>
    let line := trimmed raw
    if isCommentOrBlank line then handleEntries (idx + 1) state entries
    else do handleEntries (idx + 1) (← handleLine nodeIDFromPublicKeyFile macros idx state line) entries

def buildMessageRulesTree : Json → Except Fault ERDAbstractSyntaxTree
  | none => .error (.runtimeError "\"message_rules\" must be a JSON array")
  | some entries => do
    match (← handleEntries nodeIDFromPublicKeyFile macros 0 {} entries).rule with
    | none => .error (.runtimeError "\"message_rules\" must contain exactly one rule line")
    | some tree => .ok tree

end Rsp.Config
