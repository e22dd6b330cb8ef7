import Rsp.Lib.Parser
import Rsp.Proto.Ast

/-!
# Requirement trees as text

The printer and the recursive-descent parser of `endorsement_text.cpp`. The three tree languages (requirements, endorsements, messages) share their operators and constants; each adds its own leaves. The classification of characters is that of the "C" locale, and the depth of the recursion is not limited by a stack.
-/

namespace Rsp.ErdText

open RecursiveDescent Proto

abbrev Parser := RecursiveDescent.Parser UInt8 Fault

/-! ### Characters -/

abbrev char (c : Char) : UInt8 := c.toNat.toUInt8

def isspace (c : UInt8) : Bool := c = 32 ∨ (9 ≤ c ∧ c ≤ 13)

def isdigit (c : UInt8) : Bool := 48 ≤ c ∧ c ≤ 57

def isalnum (c : UInt8) : Bool := isdigit c ∨ (65 ≤ c ∧ c ≤ 90) ∨ (97 ≤ c ∧ c ≤ 122)

def toupper (c : UInt8) : UInt8 := if 97 ≤ c ∧ c ≤ 122 then c - 32 else c

def isHexChar (c : UInt8) : Bool := isdigit c ∨ (97 ≤ c ∧ c ≤ 102) ∨ (65 ≤ c ∧ c ≤ 70)

/-- The value of a hexadecimal digit. -/
def hexDigit (c : UInt8) : Option UInt8 :=
  if 48 ≤ c ∧ c ≤ 57 then some (c - 48)
  else if 97 ≤ c ∧ c ≤ 102 then some (c - 97 + 10)
  else if 65 ≤ c ∧ c ≤ 70 then some (c - 65 + 10)
  else none

/-- The bytes of an error text, each shown as the character with its code. -/
def shown (bytes : Bytes) : String := String.ofList (bytes.map fun b => Char.ofNat b.toNat)

/-! ### Printing -/

def kHexChars : Bytes := ascii "0123456789abcdef"

def hexPair (byte : UInt8) : Bytes :=
  [kHexChars.getD (byte >>> 4).toNat 0, kHexChars.getD (byte &&& 0x0F).toNat 0]

def bytesToHex (bytes : Bytes) : Bytes := bytes.flatMap hexPair

/-- The bytes of each group of a UUID. -/
def kGroupSizes : List Nat := [4, 2, 2, 2, 6]

def hexGroups : List Nat → Bytes → List Bytes
  | [], _ => []
  | size :: sizes, bytes => bytesToHex (bytes.take size) :: hexGroups sizes (bytes.drop size)

def bytesToUUID (bytes : Bytes) : Except Fault Bytes :=
  if bytes.length ≠ 16 then .error (.runtimeError "UUID field must be exactly 16 bytes")
  else .ok (List.intercalate (ascii "-") (hexGroups kGroupSizes bytes))

/-- `appendBinary` and its copies for the other two languages. -/
def appendBinary (op : String) (lhs rhs : Bytes) : Bytes :=
  ascii op ++ ascii "(" ++ lhs ++ ascii ", " ++ rhs ++ ascii ")"

/-- `appendNary` and its copies. -/
def appendNary (op : String) (terms : List Bytes) : Bytes :=
  ascii op ++ ascii "(" ++ List.intercalate (ascii ", ") terms ++ ascii ")"

-- An operand that is absent reads as the default instance, for which nothing is written.
mutual

def appendEndTree : ERDASTEndTree → Except Fault Bytes
  | .and lhs rhs => do return appendBinary "AND" (← appendEndOperand lhs) (← appendEndOperand rhs)
  | .or lhs rhs => do return appendBinary "OR" (← appendEndOperand lhs) (← appendEndOperand rhs)
  | .equals lhs rhs => do return appendBinary "EQ" (← appendEndOperand lhs) (← appendEndOperand rhs)
  | .allOf terms => do return appendNary "ALLOF" (← appendEndTerms terms)
  | .anyOf terms => do return appendNary "ANYOF" (← appendEndTerms terms)
  | .typeEquals type => do
    return ascii "ENDORSEMENT_TYPE(" ++ (← bytesToUUID (type.getD {}).value) ++ ascii ")"
  | .valueEquals value => .ok (ascii "ENDORSEMENT_VALUE(" ++ bytesToHex value ++ ascii ")")
  | .signerEquals signer => do
    return ascii "ENDORSEMENT_SIGNER(" ++ (← bytesToUUID (signer.getD {}).value) ++ ascii ")"
  | .trueValue => .ok (ascii "TRUE")
  | .falseValue => .ok (ascii "FALSE")
  | .notSet => .ok []

def appendEndOperand : Option ERDASTEndTree → Except Fault Bytes
  | none => .ok []
  | some tree => appendEndTree tree

def appendEndTerms : List ERDASTEndTree → Except Fault (List Bytes)
  | [] => .ok []
  | tree :: trees => do return (← appendEndTree tree) :: (← appendEndTerms trees)

end

def appendFieldPath (path : ERDASTFieldPath) : Bytes := List.intercalate (ascii ".") path.segments

/-- `std::to_string` of an unsigned number. -/
def decimal (n : Nat) : Bytes := (Nat.toDigits 10 n).map fun c => char c

/-- `std::to_string` of a signed number. -/
def signedDecimal (n : Int) : Bytes := if n < 0 then char '-' :: decimal n.natAbs else decimal n.natAbs

def appendFieldValue : ERDASTFieldValue → Bytes
  | .bytesValue value => ascii "0x" ++ bytesToHex value
  | .stringValue value => ascii "\"" ++ value ++ ascii "\""
  | .intValue value => signedDecimal value.toInt
  | .uintValue value => decimal value.toNat ++ ascii "u"
  | .boolValue value => if value then ascii "true" else ascii "false"
  | .enumValue value => ascii "enum(" ++ signedDecimal value.toInt ++ ascii ")"
  | .notSet => []

mutual

def appendMessageTree : ERDASTMessageTree → Bytes
  | .and lhs rhs => appendBinary "AND" (appendMessageOperand lhs) (appendMessageOperand rhs)
  | .or lhs rhs => appendBinary "OR" (appendMessageOperand lhs) (appendMessageOperand rhs)
  | .equals lhs rhs => appendBinary "EQ" (appendMessageOperand lhs) (appendMessageOperand rhs)
  | .allOf terms => appendNary "ALLOF" (appendMessageTerms terms)
  | .anyOf terms => appendNary "ANYOF" (appendMessageTerms terms)
  | .fieldEquals path value =>
    ascii "FIELD_EQ(" ++ appendFieldPath (path.getD {}) ++ ascii ", " ++ appendFieldValue (value.getD .notSet) ++
      ascii ")"
  | .fieldExists path => ascii "FIELD_EXISTS(" ++ appendFieldPath (path.getD {}) ++ ascii ")"
  | .fieldContains path subPath value =>
    ascii "FIELD_CONTAINS(" ++ appendFieldPath (path.getD {}) ++ ascii ", " ++ appendFieldPath (subPath.getD {}) ++
      ascii ", " ++ appendFieldValue (value.getD .notSet) ++ ascii ")"
  | .trueValue => ascii "TRUE"
  | .falseValue => ascii "FALSE"
  | .notSet => []

def appendMessageOperand : Option ERDASTMessageTree → Bytes
  | none => []
  | some tree => appendMessageTree tree

def appendMessageTerms : List ERDASTMessageTree → List Bytes
  | [] => []
  | tree :: trees => appendMessageTree tree :: appendMessageTerms trees

end

mutual

def appendTree : ERDAbstractSyntaxTree → Except Fault Bytes
  | .and lhs rhs => do return appendBinary "AND" (← appendOperand lhs) (← appendOperand rhs)
  | .or lhs rhs => do return appendBinary "OR" (← appendOperand lhs) (← appendOperand rhs)
  | .equals lhs rhs => do return appendBinary "EQ" (← appendOperand lhs) (← appendOperand rhs)
  | .allOf terms => do return appendNary "ALLOF" (← appendTerms terms)
  | .anyOf terms => do return appendNary "ANYOF" (← appendTerms terms)
  | .endorsement tree => do return ascii "ENDORSEMENT(" ++ (← appendEndOperand tree) ++ ascii ")"
  | .message tree => .ok (ascii "MESSAGE(" ++ appendMessageOperand tree ++ ascii ")")
  | .trueValue => .ok (ascii "TRUE")
  | .falseValue => .ok (ascii "FALSE")
  | .notSet => .ok []

def appendOperand : Option ERDAbstractSyntaxTree → Except Fault Bytes
  | none => .ok []
  | some tree => appendTree tree

def appendTerms : List ERDAbstractSyntaxTree → Except Fault (List Bytes)
  | [] => .ok []
  | tree :: trees => do return (← appendTree tree) :: (← appendTerms trees)

end

def toString (tree : ERDAbstractSyntaxTree) : Except Fault Bytes :=
  match tree with
  | .notSet => .ok []
  | tree => appendTree tree

/-! ### Tokens -/

def uuidToBytes.pairs : Bytes → Except Fault Bytes
  | high :: low :: hex => do
    return (((← hexVal high) <<< 4) ||| (← hexVal low)) :: (← pairs hex)
  | _ => .ok []
where
  hexVal (c : UInt8) : Except Fault UInt8 :=
    match hexDigit c with
    | some value => .ok value
    | none => .error (.runtimeError ("invalid hex char in UUID: " ++ shown [c]))

def uuidToBytes (uuid : Bytes) : Except Fault Bytes :=
  let hex := uuid.filter (· ≠ char '-')
  if hex.length ≠ 32 then .error (.runtimeError "invalid UUID: expected 32 hex chars") else uuidToBytes.pairs hex

def skipWhitespace : Parser Unit := Parser.skipWhile isspace

/-- The next character, or a zero at the end. -/
def peek : Parser UInt8 := do return (← Parser.rest).head?.getD 0

def expect (c : UInt8) : Parser Unit := do
  skipWhitespace
  if (← peek) ≠ c then
    Parser.fail fun pos => .runtimeError (s!"expected '" ++ shown [c] ++ s!"' in ERD text at position {pos}")
  Parser.advance 1

/-- Skips to the comma or parenthesis behind an argument. -/
def closeWith (c : UInt8) : Parser Unit := do
  skipWhitespace
  expect c

def startsWithCI (word rest : Bytes) : Bool :=
  word.length ≤ rest.length ∧ (rest.take word.length).map toupper = word.map toupper

/-- The digits of each group of a UUID. -/
def kGroups : List Nat := [8, 4, 4, 4, 12]

/-- The loop of `isUUID`; every group but the first comes after a dash. -/
def isUUID.groups : List Nat → Bytes → Bool
  | [], _ => true
  | size :: sizes, text =>
    size ≤ text.length ∧ (text.take size).all isHexChar ∧
      (sizes = [] ∨ ((text.drop size).head? = some (char '-') ∧ isUUID.groups sizes (text.drop (size + 1))))

def isUUID (text : Bytes) : Bool := isUUID.groups kGroups text

def parseUUIDBytes : Parser Bytes := do
  let text ← Parser.rest
  if !isUUID text then Parser.fail fun pos => .runtimeError s!"expected UUID at position {pos}"
  Parser.advance 36
  uuidToBytes (text.take 36)

def hexValue (pos : Nat) (c : UInt8) : Except Fault UInt8 :=
  match hexDigit c with
  | some value => .ok value
  | none => .error (.runtimeError ("invalid hex character '" ++ shown [c] ++ s!"' at position {pos}"))

/-- The loop of `parseHexBytes`. -/
def parseHexBytes.pairs : (pos : Nat) → (text : Bytes) → Except Fault (Bytes × Cursor UInt8)
  | pos, [] => .ok ([], ⟨pos, []⟩)
  | pos, c :: text =>
    if !isHexChar c then .ok ([], ⟨pos, c :: text⟩)
    else match text with
      | [] => .error (.runtimeError s!"odd number of hex characters at position {pos}")
      | d :: text =>
        if !isHexChar d then .error (.runtimeError s!"odd number of hex characters at position {pos}")
        else do
          let high ← hexValue (pos + 1) c
          let low ← hexValue (pos + 2) d
          let (bytes, cursor) ← parseHexBytes.pairs (pos + 2) text
          return (((high <<< 4) ||| low) :: bytes, cursor)

def parseHexBytes : Parser Bytes := fun c => parseHexBytes.pairs c.pos c.rest

/-- A parenthesised argument whose opening parenthesis has been read. -/
def argument {α : Type} (value : Parser α) : Parser α := do
  skipWhitespace
  let a ← value
  closeWith (char ')')
  return a

/-! ### Field paths and values -/

/-- The characters that end a field path. -/
def endsPath (c : UInt8) : Bool :=
  c = char ',' ∨ c = char ')' ∨ c = char ' ' ∨ c = char '\t' ∨ c = char '\n' ∨ c = char '\r'

/-- The loop of `parseFieldPath`, with the segments and the part of a segment read so far. -/
def parseFieldPath.loop (segments : List Bytes) (segment : Bytes) :
    (pos : Nat) → (text : Bytes) → Except Fault ((List Bytes × Bytes) × Cursor UInt8)
  | pos, [] => .ok ((segments, segment), ⟨pos, []⟩)
  | pos, c :: text =>
    if c = char '.' then
      if segment.isEmpty then .error (.runtimeError s!"empty path segment at position {pos}")
      else parseFieldPath.loop (segments ++ [segment]) [] (pos + 1) text
    else if endsPath c then .ok ((segments, segment), ⟨pos, c :: text⟩)
    else parseFieldPath.loop segments (segment ++ [c]) (pos + 1) text

def parseFieldPath : Parser ERDASTFieldPath := do
  skipWhitespace
  let (segments, segment) ← (fun c => parseFieldPath.loop [] [] c.pos c.rest : Parser (List Bytes × Bytes))
  -- a dot at the end opens no segment
  let path := if segment.isEmpty then segments else segments ++ [segment]
  if path.isEmpty then Parser.fail fun pos => .runtimeError s!"empty field path at position {pos}"
  return ⟨path⟩

def parseString : Parser ERDASTFieldValue := do
  Parser.advance 1
  let s ← Parser.takeWhile (· ≠ char '"')
  if (← Parser.rest).isEmpty then throw (.runtimeError "unterminated string literal")
  Parser.advance 1
  return .stringValue s

/-- An optional minus sign. -/
def parseSign : Parser Bool := do
  if (← Parser.rest).head? = some (char '-') then
    Parser.advance 1
    return true
  return false

/-- The number in an `enum(N)`, computed in 64 bits and cast to 32. -/
def parseEnum : Parser ERDASTFieldValue := do
  Parser.advance 5
  skipWhitespace
  let negative ← parseSign
  let digits ← Parser.takeWhile isdigit
  let n : Int64 := digits.foldl (fun n c => n * 10 + .ofNat (c - char '0').toNat) 0
  closeWith (char ')')
  return .enumValue (if negative then -n else n).toInt32

/-- A signed number, or an unsigned one if it ends in `u`. -/
def parseInteger : Parser ERDASTFieldValue := do
  let start ← get
  let negative ← parseSign
  if !(← Parser.rest).head?.any isdigit then
    Parser.fail fun _ => .runtimeError s!"unexpected field value at position {start.pos}"
  let digits ← Parser.takeWhile isdigit
  let n : UInt64 := digits.foldl (fun n c => n * 10 + (c - char '0').toUInt64) 0
  let next := (← Parser.rest).head?
  if !negative && (next = some (char 'u') || next = some (char 'U')) then
    Parser.advance 1
    return .uintValue n
  return .intValue (if negative then -n.toInt64 else n.toInt64)

/-- The word comes next, in any case, and no letter or digit follows it. -/
def startsWithWord (word rest : Bytes) : Bool :=
  startsWithCI word rest ∧ ((rest.drop word.length).head?.all fun c => !isalnum c)

def parseFieldValue : Parser ERDASTFieldValue := do
  skipWhitespace
  let rest ← Parser.rest
  if rest.isEmpty then throw (.runtimeError "expected field value at end of input")
  if rest.head? = some (char '"') then parseString
  else if (ascii "0x").isPrefixOf rest || (ascii "0X").isPrefixOf rest then
    Parser.advance 2
    return .bytesValue (← parseHexBytes)
  else if startsWithWord (ascii "true") rest then
    Parser.advance 4
    return .boolValue true
  else if startsWithWord (ascii "false") rest then
    Parser.advance 5
    return .boolValue false
  else if (ascii "enum(").isPrefixOf rest then parseEnum
  else parseInteger

/-! ### The common grammar -/

variable {T : Type}

def parseBinaryArgs (parse : Parser T) : Parser (T × T) := do
  expect (char '(')
  let lhs ← parse
  closeWith (char ',')
  let rhs ← parse
  closeWith (char ')')
  return (lhs, rhs)

/-- The loop of `parseNaryArgs`. Every round but the last reads a comma, so the text bounds the rounds. -/
def parseNaryArgs.loop (parse : Parser T) : (bound : Nat) → (terms : List T) → Parser (List T)
  | 0, _ => throw .abort
  | bound + 1, terms => do
    let term ← parse
    skipWhitespace
    if (← peek) = char ',' then
      Parser.advance 1
      parseNaryArgs.loop parse bound (terms ++ [term])
    else
      expect (char ')')
      return terms ++ [term]

def parseNaryArgs (parse : Parser T) : Parser (List T) := do
  expect (char '(')
  skipWhitespace
  if (← peek) = char ')' then
    Parser.advance 1
    return []
  else
    let rest ← Parser.rest
    parseNaryArgs.loop parse (rest.length + 1) []

abbrev Rule := RecursiveDescent.Rule UInt8 Fault

/-- What one of the three tree languages adds to the operators and constants they share. -/
structure Grammar (T : Type) where
  and : T → T → T
  or : T → T → T
  equals : T → T → T
  allOf : List T → T
  anyOf : List T → T
  trueValue : T
  falseValue : T
  /-- Alternatives tried before the operators. -/
  atoms : List (Rule T) := []
  leaves : List (Rule T)
  unexpected : String

namespace Grammar

variable (g : Grammar T)

def operators (parse : Parser T) : List (Rule T) :=
  [⟨ascii "AND(", 3, do let (lhs, rhs) ← parseBinaryArgs parse; return g.and lhs rhs, by decide, by decide⟩,
   ⟨ascii "OR(", 2, do let (lhs, rhs) ← parseBinaryArgs parse; return g.or lhs rhs, by decide, by decide⟩,
   ⟨ascii "EQ(", 2, do let (lhs, rhs) ← parseBinaryArgs parse; return g.equals lhs rhs, by decide, by decide⟩,
   ⟨ascii "ALLOF(", 5, do return g.allOf (← parseNaryArgs parse), by decide, by decide⟩,
   ⟨ascii "ANYOF(", 5, do return g.anyOf (← parseNaryArgs parse), by decide, by decide⟩]

def rules (parse : Parser T) : List (Rule T) := g.atoms ++ g.operators parse ++ g.leaves

def constants : Parser T := do
  let rest ← Parser.rest
  if startsWithCI (ascii "TRUE") rest then
    Parser.advance 4
    return g.trueValue
  if startsWithCI (ascii "FALSE") rest then
    Parser.advance 5
    return g.falseValue
  Parser.fail fun pos => .runtimeError (g.unexpected ++ s!"{pos}")

/-- One call of `parseTree`, `parseEndTree` or `parseMessageTree`, with the parser for the operands. -/
def step (parse : Parser T) : Parser T := do
  skipWhitespace
  choose (g.rules parse) g.constants

/-- Recursive calls nested at most `bound` deep. -/
def parseWithin : (bound : Nat) → Parser T
  | 0 => throw .abort
  | bound + 1 => g.step (parseWithin bound)

/-- Every recursive call comes after a keyword, so the text bounds the nesting. -/
def parse : Parser T := fun c => g.parseWithin (c.rest.length + 1) c

end Grammar

/-! ### The three languages -/

def endGrammar : Grammar ERDASTEndTree where
  and lhs rhs := .and (some lhs) (some rhs)
  or lhs rhs := .or (some lhs) (some rhs)
  equals lhs rhs := .equals (some lhs) (some rhs)
  allOf := .allOf
  anyOf := .anyOf
  trueValue := .trueValue
  falseValue := .falseValue
  leaves :=
    [⟨ascii "ENDORSEMENT_TYPE(", 17, do return .typeEquals (some ⟨← argument parseUUIDBytes⟩), by decide, by decide⟩,
     ⟨ascii "ENDORSEMENT_VALUE(", 18, do return .valueEquals (← argument parseHexBytes), by decide, by decide⟩,
     ⟨ascii "ENDORSEMENT_SIGNER(", 19, do return .signerEquals (some ⟨← argument parseUUIDBytes⟩), by decide,
      by decide⟩]
  unexpected := "unexpected token in endorsement sub-tree at position "

def parseEndTree : Parser ERDASTEndTree := endGrammar.parse

def destinationEquals (bytes : Bytes) : ERDASTMessageTree :=
  .fieldEquals (some ⟨[ascii "destination", ascii "value"]⟩) (some (.bytesValue bytes))

def sourceEquals (bytes : Bytes) : ERDASTMessageTree :=
  .fieldEquals (some ⟨[ascii "signature", ascii "signer", ascii "value"]⟩) (some (.bytesValue bytes))

def parseFieldEquals : Parser ERDASTMessageTree := do
  let path ← parseFieldPath
  closeWith (char ',')
  let value ← parseFieldValue
  closeWith (char ')')
  return .fieldEquals (some path) (some value)

def parseFieldExists : Parser ERDASTMessageTree := do
  let path ← parseFieldPath
  closeWith (char ')')
  return .fieldExists (some path)

def parseFieldContains : Parser ERDASTMessageTree := do
  let path ← parseFieldPath
  closeWith (char ',')
  let subPath ← parseFieldPath
  closeWith (char ',')
  let value ← parseFieldValue
  closeWith (char ')')
  return .fieldContains (some path) (some subPath) (some value)

def messageGrammar : Grammar ERDASTMessageTree where
  and lhs rhs := .and (some lhs) (some rhs)
  or lhs rhs := .or (some lhs) (some rhs)
  equals lhs rhs := .equals (some lhs) (some rhs)
  allOf := .allOf
  anyOf := .anyOf
  trueValue := .trueValue
  falseValue := .falseValue
  leaves :=
    [⟨ascii "DESTINATION(", 12, do return destinationEquals (← argument parseUUIDBytes), by decide, by decide⟩,
     ⟨ascii "SOURCE(", 7, do return sourceEquals (← argument parseUUIDBytes), by decide, by decide⟩,
     ⟨ascii "FIELD_EQ(", 9, parseFieldEquals, by decide, by decide⟩,
     ⟨ascii "FIELD_EXISTS(", 13, parseFieldExists, by decide, by decide⟩,
     ⟨ascii "FIELD_CONTAINS(", 15, parseFieldContains, by decide, by decide⟩]
  unexpected := "unexpected token in message sub-tree at position "

def parseMessageTree : Parser ERDASTMessageTree := messageGrammar.parse

/-- Consulted for the name in `${name}`; `none` for a name that is not declared. -/
abbrev VariableResolver := Bytes → Except Fault (Option ERDAbstractSyntaxTree)

def isIdChar (c : UInt8) (first : Bool) : Bool :=
  c = char '_' ∨ (65 ≤ c ∧ c ≤ 90) ∨ (97 ≤ c ∧ c ≤ 122) ∨ (!first ∧ isdigit c)

/-- A variable whose opening `${` has been read. -/
def parseVariable (resolver : Option VariableResolver) : Parser ERDAbstractSyntaxTree := do
  let startPos := (← get).pos - 2
  let name ← Parser.takeWhile (· ≠ char '}')
  if (← Parser.rest).isEmpty then throw (.runtimeError s!"unterminated $\x7b at position {startPos}")
  Parser.advance 1
  match name with
  | [] => throw (.runtimeError s!"empty variable name in $\x7b\x7d at position {startPos}")
  | first :: others =>
    if !(isIdChar first true && others.all (isIdChar · false)) then
      throw (.runtimeError ("invalid variable name '" ++ shown name ++ s!"' in $\x7b\x7d at position {startPos}"))
    match resolver with
    | none =>
      throw (.runtimeError ("$\x7b" ++ shown name ++ "\x7d: variable references are not allowed in this context"))
    | some resolve =>
      match ← resolve name with
      | none => throw (.runtimeError ("$\x7b" ++ shown name ++ "\x7d: undeclared variable"))
      | some tree => return tree

def treeGrammar (resolver : Option VariableResolver) : Grammar ERDAbstractSyntaxTree where
  and lhs rhs := .and (some lhs) (some rhs)
  or lhs rhs := .or (some lhs) (some rhs)
  equals lhs rhs := .equals (some lhs) (some rhs)
  allOf := .allOf
  anyOf := .anyOf
  trueValue := .trueValue
  falseValue := .falseValue
  atoms := [⟨ascii "$\x7b", 2, parseVariable resolver, by decide, by decide⟩]
  leaves :=
    [⟨ascii "ENDORSEMENT(", 12, do return .endorsement (some (← argument parseEndTree)), by decide, by decide⟩,
     ⟨ascii "ENDORSEMENT_TYPE(", 17,
      do return .endorsement (some (.typeEquals (some ⟨← argument parseUUIDBytes⟩))), by decide, by decide⟩,
     ⟨ascii "ENDORSEMENT_VALUE(", 18,
      do return .endorsement (some (.valueEquals (← argument parseHexBytes))), by decide, by decide⟩,
     ⟨ascii "ENDORSEMENT_SIGNER(", 19,
      do return .endorsement (some (.signerEquals (some ⟨← argument parseUUIDBytes⟩))), by decide, by decide⟩,
     ⟨ascii "MESSAGE(", 8, do return .message (some (← argument parseMessageTree)), by decide, by decide⟩,
     ⟨ascii "DESTINATION(", 12,
      do return .message (some (destinationEquals (← argument parseUUIDBytes))), by decide, by decide⟩,
     ⟨ascii "SOURCE(", 7,
      do return .message (some (sourceEquals (← argument parseUUIDBytes))), by decide, by decide⟩]
  unexpected := "unexpected token in ERD text at position "

def parseTree (resolver : Option VariableResolver) : Parser ERDAbstractSyntaxTree := (treeGrammar resolver).parse

/-- The two overloads of `fromString`, without and with a resolver. -/
def parseText (resolver : Option VariableResolver) : Parser ERDAbstractSyntaxTree := do
  skipWhitespace
  if (← Parser.rest).isEmpty then return .notSet
  let tree ← parseTree resolver
  skipWhitespace
  if !(← Parser.rest).isEmpty then
    Parser.fail fun pos => .runtimeError s!"unexpected content after ERD expression at position {pos}"
  return tree

def fromStringWith (resolver : Option VariableResolver) (text : Bytes) : Except Fault ERDAbstractSyntaxTree :=
  (parseText resolver).run' ⟨0, text⟩

def fromString (text : Bytes) : Except Fault ERDAbstractSyntaxTree := fromStringWith none text

end Rsp.ErdText
