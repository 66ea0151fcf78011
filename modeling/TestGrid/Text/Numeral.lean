import TestGrid.Text.Basic

/-!
# Decimal numerals

A numeral is a run of the digits 0 to 9, leading zeros included. It has a
value; a value has a numeral, the one without leading zeros.
-/

namespace TestGrid.Text

/-- Whether a text consists of digits and has at least one. -/
def isNumeral (t : Text) : Bool := !t.isEmpty && t.all Char.isDigit

/-- The number that a run of digits writes in base ten. -/
def numeralValue (t : Text) : Nat := Nat.ofDigitChars 10 t 0

/-- The numeral of a number, without leading zeros. -/
def ofNat (n : Nat) : Text := Nat.toDigits 10 n

/-- The numeral of an integer: that of a number below zero has a hyphen in
    front. -/
def ofInt : Int → Text
  | .ofNat n => ofNat n
  | .negSucc n => '-' :: ofNat (n + 1)

/-- The numeral of a number has its value. -/
theorem numeralValue_ofNat (n : Nat) : numeralValue (ofNat n) = n :=
  Nat.ofDigitChars_ten_toDigits

/-- The numeral of a number is one. -/
theorem isNumeral_ofNat (n : Nat) : isNumeral (ofNat n) = true := by
  rw [isNumeral, Bool.and_eq_true, List.all_eq_true]
  refine ⟨?_, fun c hc => Nat.isDigit_of_mem_toDigits (by decide) (by decide) hc⟩
  cases h : ofNat n with
  | nil => exact absurd h Nat.toDigits_ne_nil
  | cons c r => rfl

end TestGrid.Text
