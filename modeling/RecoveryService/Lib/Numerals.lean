import RecoveryService.Lib.Text

/-! # Numbers in texts

`int(text)`: spaces around the number, a sign, and single underscores between the digits are
accepted.  The decimal digits of the character set are a parameter. -/

namespace Numerals

variable (decimal : Char → Option ℕ)

/-- The digits behind the value `value`; `closed` says that the last character was a digit. -/
def readDigits (value : ℕ) (closed : Bool) : List Char → Option ℕ
  | [] => if closed then some value else none
  | '_' :: cs => if closed then readDigits value false cs else none
  | c :: cs => (decimal c).bind fun d => readDigits (10 * value + d) true cs

/-- `int(text)`. -/
def readInt (cs : List Char) : Option ℤ :=
  match Text.stripChars Text.isSpace cs with
  | '-' :: cs => (readDigits decimal 0 false cs).map (fun n => -(n : ℤ))
  | '+' :: cs => (readDigits decimal 0 false cs).map (fun n => (n : ℤ))
  | cs => (readDigits decimal 0 false cs).map (fun n => (n : ℤ))

/-- The decimal digits of ASCII. -/
def asciiDecimal (c : Char) : Option ℕ := if c.isDigit then some (c.toNat - '0'.toNat) else none

example : readInt asciiDecimal " +1_0 ".toList = some 10 := by decide

end Numerals
