/-!
# Padded numbers and hexadecimal digits

Times, session numbers and octets are written with a fixed least number of digits; escapes and addresses
have hexadecimal digits in either case.
-/

namespace Tandem.Text

/-- The digits of a number in a base up to sixteen, with leading zeros up to a width. -/
def paddedDigits (base width n : Nat) : List Char :=
  let ds := Nat.toDigits base n
  List.replicate (width - ds.length) '0' ++ ds

/-- The value of a hexadecimal digit. -/
def hexValue? (c : Char) : Option Nat :=
  if c.isDigit then some (c.toNat - '0'.toNat)
  else if 'a' ≤ c ∧ c ≤ 'f' then some (c.toNat - 'a'.toNat + 10)
  else if 'A' ≤ c ∧ c ≤ 'F' then some (c.toNat - 'A'.toNat + 10)
  else none

/-- The number that hexadecimal digits write; nothing if one of the characters is no digit. -/
def readHex? (s : List Char) : Option Nat :=
  s.foldlM (fun n c => (hexValue? c).map (n * 16 + ·)) 0

theorem width_le_length_paddedDigits (base width n : Nat) : width ≤ (paddedDigits base width n).length := by
  simp only [paddedDigits, List.length_append, List.length_replicate]
  omega

end Tandem.Text
