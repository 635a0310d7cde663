import Mathlib

/-! # Unsigned decimal text -/

namespace Digits

/-- A non-empty run of ASCII digits whose value stays below `bound`. -/
def parseDigits (bound : Nat) (cs : List Char) : Option Nat :=
  if cs ≠ [] ∧ cs.all Char.isDigit ∧ Nat.ofDigitChars 10 cs 0 < bound then
    some (Nat.ofDigitChars 10 cs 0)
  else none

/-- `str::parse` at an unsigned type of `bound` values: one leading plus sign is
let through. -/
def parseUnsigned (bound : Nat) (s : String) : Option Nat :=
  match s.toList with
  | '+' :: cs => parseDigits bound cs
  | cs => parseDigits bound cs

theorem parseDigits_toDigits {bound n : Nat} (h : n < bound) :
    parseDigits bound (Nat.toDigits 10 n) = some n := by
  have hdigits : (Nat.toDigits 10 n).all Char.isDigit := by
    rw [List.all_eq_true]
    intro c hc
    exact Nat.isDigit_of_mem_toDigits (by decide) (by decide) hc
  rw [parseDigits, Nat.ofDigitChars_ten_toDigits, if_pos ⟨Nat.toDigits_ne_nil, hdigits, h⟩]

theorem parseUnsigned_repr {bound n : Nat} (h : n < bound) :
    parseUnsigned bound n.repr = some n := by
  rw [parseUnsigned, Nat.toList_repr]
  split
  · rename_i cs heq
    have hplus : '+' ∈ Nat.toDigits 10 n := heq ▸ List.mem_cons_self
    have hdigit := Nat.isDigit_of_mem_toDigits (by decide) (by decide) hplus
    exact absurd hdigit (by decide)
  · exact parseDigits_toDigits h

end Digits
