import Courier.Mint
import Mathlib.Logic.Function.Basic

/-!
# Identifiers are distinct

A number can be read back from the digits of its identifier, so different numbers have different
identifiers and a mint never repeats itself.

## Main results

* `Mint.text_injective`: the identifiers of different numbers differ.
-/

namespace Courier.Mint

/-- The value of a hexadecimal digit. -/
def digitValue (c : Char) : Nat :=
  if c.isDigit then c.toNat - 48 else c.toNat - 87

/-- The number with the given digits. -/
def value (cs : List Char) : Nat :=
  cs.foldl (fun n c => 16 * n + digitValue c) 0

theorem digitValue_digitChar : ∀ d < 16, digitValue (Nat.digitChar d) = d := by
  decide

theorem value_append (cs : List Char) (c : Char) :
    value (cs ++ [c]) = 16 * value cs + digitValue c := by
  simp [value]

theorem value_toDigits (n : Nat) : value (Nat.toDigits 16 n) = n := by
  induction n using Nat.strongRecOn with
  | _ n ih =>
    rw [Nat.toDigits_eq_if (by decide)]
    split
    · next small => simpa [value] using digitValue_digitChar n small
    · next large =>
      rw [value_append, ih (n / 16) (by omega), digitValue_digitChar _ (Nat.mod_lt _ (by decide))]
      exact Nat.div_add_mod n 16

theorem value_replicate_append (k : Nat) (cs : List Char) :
    value (List.replicate k '0' ++ cs) = value cs := by
  induction k with
  | zero => rfl
  | succ k ih => exact ih

/-- The number can be read back from its digits, whatever the width. -/
theorem value_digits (width n : Nat) : value (digits width n) = n := by
  rw [digits, List.leftpad, value_replicate_append, value_toDigits]

/-- The identifiers of different numbers differ. -/
theorem text_injective : Function.Injective text := by
  intro m n h
  have chars : stem.toList ++ digits 12 m = stem.toList ++ digits 12 n := by
    simpa [text] using congrArg String.toList h
  have same : value (digits 12 m) = value (digits 12 n) :=
    congrArg value (List.append_cancel_left chars)
  rwa [value_digits, value_digits] at same

end Courier.Mint
