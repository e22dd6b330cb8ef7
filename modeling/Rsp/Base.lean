import Rsp.Lib.Code

/-!
# Base types

Byte strings, the ways a call can fail, and the 128-bit identifiers of `base_types.hpp`. A protobuf `string` and a `bytes` field are both byte strings here: the code never looks at their UTF-8 structure. Identifiers are written in two byte orders: big-endian in signature blocks, and by a native `memcpy` (little-endian on the supported targets) everywhere else.
-/

namespace Rsp

export ByteCode (Bytes be32 be64 le64 readBe64 readLe64)

/-- How a call can end other than by returning: `std::runtime_error`, another `std::exception`, a fatal check inside protobuf that aborts the process and cannot be caught, or a read of freed memory. -/
inductive Fault where
  | runtimeError (what : String)
  | exception (what : String)
  | abort
  | useAfterFree
deriving DecidableEq, Repr

/-- What `catch (const std::exception&)` sees. -/
def Fault.isException : Fault → Bool
  | .runtimeError _ | .exception _ => true
  | .abort | .useAfterFree => false

def Fault.what : Fault → String
  | .runtimeError what | .exception what => what
  | .abort | .useAfterFree => ""

theorem bind_eq_ok {ε α β : Type} {x : Except ε α} {f : α → Except ε β} {b : β} :
    (x >>= f) = .ok b ↔ ∃ a, x = .ok a ∧ f a = .ok b := by
  cases x <;> simp [bind, Except.bind]

/-- The bytes of an ASCII literal. -/
def ascii (text : String) : Bytes := text.toList.map fun c => c.toNat.toUInt8

/-- The UTF-8 bytes of a text. -/
def utf8 (text : String) : Bytes := text.toByteArray.data.toList

/-- `value` in lower-case hexadecimal with exactly `width` digits. -/
def hexDigits : (width value : Nat) → Bytes
  | 0, _ => []
  | width + 1, value =>
    hexDigits width (value / 16) ++ [if value % 16 < 10 then (48 + value % 16).toUInt8 else (87 + value % 16).toUInt8]

structure GUID where
  high : UInt64
  low : UInt64
deriving DecidableEq, Repr, Inhabited

abbrev NodeID := GUID

namespace GUID

/-- `operator<`: by the high word, then by the low word. It orders every `std::map` keyed by identifiers. -/
instance : Ord GUID := ⟨compareLex (compareOn high) (compareOn low)⟩

instance : Std.TransOrd GUID :=
  inferInstanceAs (Std.TransCmp (compareLex (compareOn high) (compareOn low)))

instance : Std.LawfulEqOrd GUID where
  eq_of_compare {a b} hcompare := by
    have hwords : (compare a.high b.high).then (compare a.low b.low) = .eq := hcompare
    rw [Ordering.then_eq_eq, Std.compare_eq_iff_eq, Std.compare_eq_iff_eq] at hwords
    cases a
    cases b
    simp_all

/-- The byte order of signature blocks. -/
def toBigEndian (id : GUID) : Bytes := be64 id.high ++ be64 id.low

/-- The byte order of source, destination and nonce fields (`memcpy` of the two words). -/
def toNative (id : GUID) : Bytes := le64 id.high ++ le64 id.low

/-- The usual text form with groups of 8, 4, 4, 4 and 12 digits. -/
def toString (id : GUID) : Bytes :=
  let high := id.high.toNat
  let low := id.low.toNat
  hexDigits 8 (high / 2 ^ 32) ++ ascii "-" ++ hexDigits 4 (high / 2 ^ 16 % 2 ^ 16) ++ ascii "-" ++
    hexDigits 4 (high % 2 ^ 16) ++ ascii "-" ++ hexDigits 4 (low / 2 ^ 48) ++ ascii "-" ++
    hexDigits 12 (low % 2 ^ 48)

def ofBigEndian (value : Bytes) : Option GUID :=
  if value.length ≠ 16 then none else some ⟨readBe64 (value.take 8), readBe64 (value.drop 8)⟩

def ofNative (value : Bytes) : Option GUID :=
  if value.length ≠ 16 then none else some ⟨readLe64 (value.take 8), readLe64 (value.drop 8)⟩

@[simp] theorem toBigEndian_length (id : GUID) : id.toBigEndian.length = 16 := rfl

@[simp] theorem toNative_length (id : GUID) : id.toNative.length = 16 := rfl

@[simp] theorem ofBigEndian_toBigEndian (id : GUID) : ofBigEndian id.toBigEndian = some id := by
  have htake : id.toBigEndian.take 8 = be64 id.high := rfl
  have hdrop : id.toBigEndian.drop 8 = be64 id.low := rfl
  rw [ofBigEndian, if_neg (by simp), htake, hdrop, ByteCode.readBe64_be64, ByteCode.readBe64_be64]

@[simp] theorem ofNative_toNative (id : GUID) : ofNative id.toNative = some id := by
  have htake : id.toNative.take 8 = le64 id.high := rfl
  have hdrop : id.toNative.drop 8 = le64 id.low := rfl
  rw [ofNative, if_neg (by simp), htake, hdrop, ByteCode.readLe64_le64, ByteCode.readLe64_le64]

theorem toBigEndian_injective : Function.Injective toBigEndian := fun a b heq =>
  Option.some.inj (by rw [← ofBigEndian_toBigEndian a, heq, ofBigEndian_toBigEndian])

theorem toNative_injective : Function.Injective toNative := fun a b heq =>
  Option.some.inj (by rw [← ofNative_toNative a, heq, ofNative_toNative])

end GUID

/-- A point in time in nanoseconds since the epoch. The source keeps seconds in a `double`; its rounding is not modelled. -/
abbrev DateTime := Nat

namespace DateTime

def addMilliseconds (base : DateTime) (milliseconds : UInt64) : DateTime := base + milliseconds.toNat * 1000000

def millisecondsSinceEpoch (t : DateTime) : UInt64 := UInt64.ofNat (t / 1000000)

end DateTime

end Rsp
