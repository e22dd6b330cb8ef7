import Rsp.Lib.Code
import Mathlib.Data.Nat.Digits.Defs

/-!
# The wire format of protocol buffers

What a conforming encoder writes for the fields of a proto3 message: variable-length integers in groups of seven bits, a key before every field, and nothing for a scalar that has its default value.
-/

namespace Wire

open ByteCode

/-- Groups of seven bits, one a byte; the high bit is set on all but the last. -/
def groupBytes (groups : List Nat) : Bytes :=
  groups.dropLast.map (fun group => UInt8.ofNat (group + 128)) ++ groups.getLast?.toList.map UInt8.ofNat

/-- The low groups come first. -/
def varint (n : Nat) : Bytes := groupBytes (if n = 0 then [0] else Nat.digits 128 n)

def key (number wireType : Nat) : Bytes := varint (number * 8 + wireType)

def lengthDelimited (number : Nat) (payload : Bytes) : Bytes := key number 2 ++ varint payload.length ++ payload

def bytesField (number : Nat) (value : Bytes) : Bytes := if value.isEmpty then [] else lengthDelimited number value

def uint64Field (number : Nat) (value : UInt64) : Bytes :=
  if value = 0 then [] else key number 0 ++ varint value.toNat

/-- A message is written whenever it is set, even if it is empty. -/
def messageField (number : Nat) (payload : Option Bytes) : Bytes := payload.elim [] (lengthDelimited number)

theorem groupBytes_cons (group : Nat) {groups : List Nat} (h : groups ≠ []) :
    groupBytes (group :: groups) = .ofNat (group + 128) :: groupBytes groups := by
  rw [groupBytes, List.dropLast_cons_of_ne_nil h, List.map_cons, List.cons_append, List.getLast?_cons_of_ne_nil h,
    groupBytes]

theorem varint_of_lt {n : Nat} (h : n < 128) : varint n = [.ofNat n] := by
  unfold varint
  split_ifs with hzero
  · rw [hzero]
    rfl
  · rw [Nat.digits_of_lt 128 n hzero h]
    rfl

theorem varint_of_le {n : Nat} (h : 128 ≤ n) : varint n = .ofNat (n % 128 + 128) :: varint (n / 128) := by
  have hrest : n / 128 ≠ 0 := by omega
  have hdigits : Nat.digits 128 n = n % 128 :: Nat.digits 128 (n / 128) :=
    Nat.digits_def' (by decide) (by omega)
  have hnonempty : Nat.digits 128 (n / 128) ≠ [] := Nat.digits_ne_nil_iff_ne_zero.mpr hrest
  rw [varint, if_neg (by omega), hdigits, groupBytes_cons _ hnonempty, varint, if_neg hrest]

theorem length_varint_le {n k : Nat} (h : n < 128 ^ (k + 1)) : (varint n).length ≤ k + 1 := by
  induction k generalizing n with
  | zero =>
    rw [varint_of_lt (by simpa using h)]
    rfl
  | succ k ih =>
    by_cases hlt : n < 128
    · rw [varint_of_lt hlt]
      exact Nat.le_add_left 1 _
    · rw [varint_of_le (by omega), List.length_cons]
      rw [pow_succ] at h
      have hrest := ih (Nat.div_lt_of_lt_mul (by rwa [Nat.mul_comm] at h))
      omega

theorem length_key {number wireType : Nat} (h : number * 8 + wireType < 128) : (key number wireType).length = 1 := by
  rw [key, varint_of_lt h]
  rfl

theorem length_lengthDelimited {number : Nat} {payload : Bytes} (h : number < 15) :
    (lengthDelimited number payload).length = 1 + (varint payload.length).length + payload.length := by
  rw [lengthDelimited, List.length_append, List.length_append, length_key (by omega)]

end Wire
