import Rsp.Endorsement.TextTokens

/-!
# Numeric literals

The decimal literals of a field comparison: a signed number, a number with the suffix `u`, and `enum(N)`. The parser accumulates the digits in a machine integer and never looks for an overflow, so every literal is accepted, and its value is the number reduced to the width of the type. It is the number itself exactly for the literals that fit.
-/

namespace Rsp.ErdText

open RecursiveDescent Proto

/-- A non-empty string of decimal digits. -/
structure Digits where
  text : Bytes
  text_ne_nil : text ≠ []
  isdigit_of_mem : ∀ c ∈ text, isdigit c

inductive NumericLiteral where
  | int (negative : Bool) (digits : Digits)
  | uint (digits : Digits) (suffix : UInt8) (hsuffix : suffix = char 'u' ∨ suffix = char 'U')
  | enum (negative : Bool) (digits : Digits)

namespace NumericLiteral

def text : NumericLiteral → Bytes
  | int negative digits => sign negative ++ digits.text
  | uint digits suffix _ => digits.text ++ [suffix]
  | enum negative digits => ascii "enum(" ++ (sign negative ++ digits.text) ++ ascii ")"

/-- The number the literal denotes. -/
def value : NumericLiteral → Int
  | int negative digits => signed negative (digitsValue digits.text)
  | uint digits _ _ => digitsValue digits.text
  | enum negative digits => signed negative (digitsValue digits.text)

/-- The number is one of the type that the literal selects: `int64`, `uint64` or `int32`. -/
def Fits : NumericLiteral → Prop
  | literal@(int _ _) => -2 ^ 63 ≤ literal.value ∧ literal.value < 2 ^ 63
  | literal@(uint _ _ _) => literal.value < 2 ^ 64
  | literal@(enum _ _) => -2 ^ 31 ≤ literal.value ∧ literal.value < 2 ^ 31

/-- Where the literal ends: a number goes on as long as letters and digits follow. -/
def EndsBefore : NumericLiteral → Bytes → Prop
  | int _ _ => Stops isalnum
  | _ => Anything

/-- The field value holds the literal's number, in the member that the literal selects. -/
def Denotes : NumericLiteral → ERDASTFieldValue → Prop
  | literal@(int _ _), .intValue n => n.toInt = literal.value
  | literal@(uint _ _ _), .uintValue n => n.toNat = literal.value
  | literal@(enum _ _), .enumValue n => n.toInt = literal.value
  | _, _ => False

/-- What the parser returns for the literal. -/
def parsed : NumericLiteral → ERDASTFieldValue
  | literal@(int _ _) => .intValue (.ofInt literal.value)
  | uint digits _ _ => .uintValue (.ofNat (digitsValue digits.text))
  | literal@(enum _ _) => .enumValue (.ofInt literal.value)

/-- Every literal is accepted, whatever its size. -/
theorem accepts_text (literal : NumericLiteral) :
    Accepts parseFieldValue literal.text literal.parsed literal.EndsBefore := by
  cases literal with
  | int negative digits => exact accepts_signed digits.text_ne_nil digits.isdigit_of_mem negative
  | uint digits suffix hsuffix => exact accepts_unsigned digits.text_ne_nil digits.isdigit_of_mem hsuffix
  | enum negative digits => exact accepts_enum digits.text_ne_nil digits.isdigit_of_mem negative

/-- Reduction to the width of the type keeps the numbers of the type, and no others. -/
theorem denotes_parsed_iff (literal : NumericLiteral) : literal.Denotes literal.parsed ↔ literal.Fits := by
  cases literal with
  | int negative digits =>
    show (Int64.ofInt (int negative digits).value).toInt = _ ↔ _
    constructor
    · intro h
      have hrange := (Int64.ofInt (int negative digits).value).le_toInt
      have hlt := (Int64.ofInt (int negative digits).value).toInt_lt
      rw [h] at hrange hlt
      exact ⟨hrange, hlt⟩
    · rintro ⟨hlow, hhigh⟩
      exact Int64.toInt_ofInt_of_le hlow hhigh
  | uint digits suffix hsuffix =>
    show ((UInt64.ofNat (digitsValue digits.text)).toNat : Int) = (digitsValue digits.text : Int) ↔
      (digitsValue digits.text : Int) < 2 ^ 64
    rw [UInt64.toNat_ofNat']
    omega
  | enum negative digits =>
    show (Int32.ofInt (enum negative digits).value).toInt = _ ↔ _
    constructor
    · intro h
      have hrange := (Int32.ofInt (enum negative digits).value).le_toInt
      have hlt := (Int32.ofInt (enum negative digits).value).toInt_lt
      rw [h] at hrange hlt
      exact ⟨hrange, hlt⟩
    · rintro ⟨hlow, hhigh⟩
      exact Int32.toInt_ofInt_of_le hlow hhigh

/-- The parser reads the literal as the number it denotes, and rejects it if the number is none of the type. -/
structure MeansWhatItSays (literal : NumericLiteral) (pos : Nat) (rest : Bytes) : Prop where
  accepted : ∀ value after, parseFieldValue ⟨pos, literal.text ++ rest⟩ = .ok (value, after) → literal.Denotes value
  rejected : ¬ literal.Fits → ∃ fault, parseFieldValue ⟨pos, literal.text ++ rest⟩ = .error fault

/-- **Numeric literals.** A literal means what it says exactly if its number fits the type. -/
theorem meansWhatItSays_iff (literal : NumericLiteral) (pos : Nat) {rest : Bytes} (hend : literal.EndsBefore rest) :
    literal.MeansWhatItSays pos rest ↔ literal.Fits := by
  have hparse := literal.accepts_text pos rest hend
  constructor
  · intro h
    exact literal.denotes_parsed_iff.mp (h.accepted _ _ hparse)
  · intro hfits
    refine ⟨fun value after h => ?_, fun hnot => absurd hfits hnot⟩
    rw [hparse] at h
    obtain ⟨rfl, -⟩ := Prod.mk.inj (Except.ok.inj h)
    exact literal.denotes_parsed_iff.mpr hfits

theorem twoPow32_digits : ascii "4294967296" ≠ [] ∧ ∀ c ∈ ascii "4294967296", isdigit c :=
  ⟨List.cons_ne_nil _ _, List.all_eq_true.mp rfl⟩

/-- Two to the 32nd, as an enumeration value. -/
def enumTooLarge : NumericLiteral := enum false ⟨ascii "4294967296", twoPow32_digits.1, twoPow32_digits.2⟩

theorem meansWhatItSays_iff_enumTooLarge :
    enumTooLarge.MeansWhatItSays 0 (ascii ")") ↔ enumTooLarge.Fits :=
  meansWhatItSays_iff enumTooLarge 0 trivial

/-- The literal does not fit an `int32`, and it is accepted as the enumeration value zero. -/
theorem enumTooLarge_accepted :
    enumTooLarge.text = ascii "enum(4294967296)" ∧ enumTooLarge.value = 2 ^ 32 ∧ ¬ enumTooLarge.Fits ∧
      parseFieldValue ⟨0, ascii "enum(4294967296)"⟩ = .ok (.enumValue 0, ⟨16, []⟩) ∧
      ¬ enumTooLarge.MeansWhatItSays 0 [] := by
  have hfits : ¬ enumTooLarge.Fits := by
    show ¬ (-2 ^ 31 ≤ ((2 : Int) ^ 32) ∧ (2 : Int) ^ 32 < 2 ^ 31)
    decide
  refine ⟨rfl, rfl, hfits, rfl, fun h => ?_⟩
  obtain ⟨fault, hfault⟩ := h.rejected hfits
  rw [enumTooLarge.accepts_text 0 [] trivial] at hfault
  simp at hfault

end NumericLiteral

end Rsp.ErdText
