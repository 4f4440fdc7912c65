/-
Hexadecimal numerals: lower-case digits, most significant first, no leading
zero, so that every number has one numeral.

* `Hex.digits`: the numeral of a number.
* `Hex.read?`: the number of a digit string, `none` where it is empty or holds
  anything but a digit.
-/
namespace ScriptBinding.Hex

/-- The numeral of `n` in base sixteen, in lower case. -/
def digits (n : Nat) : List Char :=
  Nat.toDigits 16 n

/-- The value of a hexadecimal digit in lower case. -/
def digit? (c : Char) : Option Nat :=
  if '0' ≤ c ∧ c ≤ '9' then some (c.toNat - '0'.toNat)
  else if 'a' ≤ c ∧ c ≤ 'f' then some (c.toNat - 'a'.toNat + 10)
  else none

/-- The number that a non-empty string of digits stands for. -/
def read? : List Char → Option Nat
  | [] => none
  | cs => cs.foldlM (fun n c => (digit? c).map (16 * n + ·)) 0

end ScriptBinding.Hex
