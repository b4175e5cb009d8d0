import BitTerms.SmtSort
import BitTerms.Text.Digits

/-!
# Numerals

How literals are spelled in SMT-LIB: bit patterns in binary or hexadecimal with exactly as many
digits as the width asks for, integers in decimal with a minus sign as an operator.
-/

namespace BitTerms.Numeral

/-- The pattern in hexadecimal where the width is a multiple of four, in binary otherwise. -/
def bitsText (width pattern : Nat) : String :=
  if width % 4 = 0 then
    "#x" ++ String.ofList (Text.paddedDigits 16 (width / 4) pattern)
  else
    "#b" ++ String.ofList (Text.paddedDigits 2 width pattern)

/-- An integer; a negative one is the negation of its magnitude. -/
def intText (value : Int) : String :=
  if value < 0 then
    "(- " ++ toString value.natAbs ++ ")"
  else
    toString value.natAbs

def boolText (value : Bool) : String := if value then "true" else "false"

/-- The width and pattern that a binary or hexadecimal numeral spells. The width counts every
character behind the mark, whatever it is. -/
def bits? (text : List Char) : Option (Nat × Nat) :=
  match text with
  | '#' :: 'b' :: digits => spelled 2 1 digits
  | '#' :: 'x' :: digits => spelled 16 4 digits
  | _ => none
where
  spelled (base bitsPerDigit : Nat) (digits : List Char) : Option (Nat × Nat) := do
    let width := digits.length * bitsPerDigit
    guard (width < wordLimit)
    let pattern ← Text.lenientDigits? base digits
    return (width, pattern)

/-- The pattern that the middle part of `(_ bvN w)` spells. -/
def indexedBits? : List Char → Option Nat
  | 'b' :: 'v' :: digits => Text.decimal? digits
  | _ => none

example : bitsText 8 10 = "#x0a" := by decide +kernel

example : bitsText 5 3 = "#b00011" := by decide +kernel

example : bits? "#xfF".toList = some (8, 255) := by decide +kernel

end BitTerms.Numeral
