import Mathlib.Data.Rat.Defs

/-!
# Double precision

A binary64 number as the exact rational it stands for, or a special value; the two zeros are one.
-/

inductive Double where
  | finite (value : ℚ)
  | infinity (negative : Bool)
  | nan
deriving DecidableEq
