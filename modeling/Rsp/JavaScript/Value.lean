import Rsp.Base
import Rsp.Lib.Double

/-!
# JavaScript values

The values the generated JavaScript module is given. A string is the UTF-8 bytes of its text, so it holds no lone surrogates; the only characters the code looks for are ASCII. A `Buffer` stands for every byte array. Functions and symbols are left out: no field takes one.
-/

namespace Rsp.JavaScript

inductive JsValue where
  | undefined
  | null
  | boolean (value : Bool)
  | number (value : Double)
  | bigint (value : Int)
  | string (text : Bytes)
  | buffer (bytes : Bytes)
  | array (items : List JsValue)
  | object (entries : List (Bytes × JsValue))

/-- A thrown `Error` with its message, or a `TypeError` of the language itself. -/
inductive JsError where
  | error (message : Bytes)
  | typeError
deriving DecidableEq, Repr

abbrev Result := Except JsError

/-- An integer as a template literal prints it. -/
def decimal (n : Int) : Bytes := utf8 (toString n)

namespace JsValue

/-! ### Properties -/

/-- The own enumerable properties; those of arrays and buffers are their indices. -/
def entries : JsValue → List (Bytes × JsValue)
  | .object entries => entries
  | .array items => items.zipIdx.map fun (item, index) => (decimal index, item)
  | .buffer bytes => bytes.zipIdx.map fun (byte, index) => (decimal index, .number (.finite byte.toNat))
  | _ => []

/-- `value[key]` on an object with no property of that name further up. -/
def get (value : JsValue) (key : Bytes) : JsValue := (value.entries.lookup key).getD .undefined

def isTruthy : JsValue → Bool
  | .undefined | .null => false
  | .boolean value => value
  | .number value => value ≠ .finite 0 ∧ value ≠ .nan
  | .bigint value => value ≠ 0
  | .string text => !text.isEmpty
  | .buffer _ | .array _ | .object _ => true

end JsValue

/-! ### Strings as numbers -/

/-- The UTF-8 forms of the characters the language trims. -/
def whiteSpace : List Bytes :=
  [[9], [10], [11], [12], [13], [32], [194, 160], [225, 154, 128], [226, 128, 128], [226, 128, 129], [226, 128, 130],
    [226, 128, 131], [226, 128, 132], [226, 128, 133], [226, 128, 134], [226, 128, 135], [226, 128, 136],
    [226, 128, 137], [226, 128, 138], [226, 128, 168], [226, 128, 169], [226, 128, 175], [226, 129, 159],
    [227, 128, 128], [239, 187, 191]]

def trimStart (isSpace : Bytes → Bool) : Bytes → Bytes
  | a :: b :: c :: rest =>
    if isSpace [a] then trimStart isSpace (b :: c :: rest)
    else if isSpace [a, b] then trimStart isSpace (c :: rest)
    else if isSpace [a, b, c] then trimStart isSpace rest
    else a :: b :: c :: rest
  | [a, b] => if isSpace [a] then trimStart isSpace [b] else if isSpace [a, b] then [] else [a, b]
  | [a] => if isSpace [a] then [] else [a]
  | [] => []

def trim (text : Bytes) : Bytes :=
  (trimStart (fun c => whiteSpace.contains c.reverse) (trimStart whiteSpace.contains text).reverse).reverse

/-- Digits of any radix up to sixteen. -/
def radixDigit (radix : Nat) (c : UInt8) : Option Nat :=
  let value :=
    if 48 ≤ c ∧ c ≤ 57 then some (c.toNat - 48)
    else if 97 ≤ c ∧ c ≤ 102 then some (c.toNat - 87)
    else if 65 ≤ c ∧ c ≤ 70 then some (c.toNat - 55)
    else none
  value.filter (· < radix)

def ofDigits (radix : Nat) (digits : List Nat) : Nat := digits.foldl (fun value d => value * radix + d) 0

/-- A whole text of digits, at least one. -/
def natural (radix : Nat) (text : Bytes) : Option Nat :=
  if text.isEmpty then none else (text.mapM (radixDigit radix)).map (ofDigits radix)

/-- An optional sign, and whether it is a minus. -/
def splitSign : Bytes → Bool × Bytes
  | 43 :: rest => (false, rest)
  | 45 :: rest => (true, rest)
  | text => (false, text)

/-- The radix of a literal that begins with `0x`, `0o` or `0b`. -/
def literalRadix : Bytes → Option (Nat × Bytes)
  | 48 :: c :: rest =>
    if c = 120 ∨ c = 88 then some (16, rest)
    else if c = 111 ∨ c = 79 then some (8, rest)
    else if c = 98 ∨ c = 66 then some (2, rest)
    else none
  | _ => none

end Rsp.JavaScript
