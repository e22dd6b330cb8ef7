import Rsp.Lib.Code

/-!
# Base64

`decodeLenient` reads base64 text of both alphabets, with or without padding. It never fails and leaves out what it does not know.
-/

namespace Base64

open ByteCode (Bytes)

/-- The six bits of a character of the standard alphabet. -/
def sextet (c : UInt8) : Option UInt8 :=
  if 65 ≤ c ∧ c ≤ 90 then some (c - 65)
  else if 97 ≤ c ∧ c ≤ 122 then some (c - 71)
  else if 48 ≤ c ∧ c ≤ 57 then some (c + 4)
  else if c = 43 then some 62
  else if c = 47 then some 63
  else none

/-- Also the characters of the URL-safe alphabet. -/
def sextetAny (c : UInt8) : Option UInt8 :=
  if c = 45 then some 62 else if c = 95 then some 63 else sextet c

/-- Four characters make three bytes; a rest of two or three makes one or two, and its last bits are dropped. -/
def ofSextets : List UInt8 → Bytes
  | a :: b :: c :: d :: rest =>
    (a <<< 2 ||| b >>> 4) :: (b <<< 4 ||| c >>> 2) :: (c <<< 6 ||| d) :: ofSextets rest
  | [a, b, c] => [a <<< 2 ||| b >>> 4, b <<< 4 ||| c >>> 2]
  | [a, b] => [a <<< 2 ||| b >>> 4]
  | _ => []

/-- The characters before the padding. -/
def body (text : Bytes) : Bytes := text.takeWhile (· ≠ 61)

def decodeLenient (text : Bytes) : Bytes := ofSextets ((body text).filterMap sextetAny)

example : decodeLenient [84, 87, 70, 117] = [77, 97, 110] := by decide

end Base64
