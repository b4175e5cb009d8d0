import BitTerms.Numbers

/-!
# Digits

Numbers as digit characters in a base of at most sixteen, most significant digit first, and back.
Letters are digits in either case when read and lower case when written.
-/

namespace BitTerms.Text

/-- The digits of a number, with zeros in front where it has fewer than `count`. -/
def paddedDigits (base count number : Nat) : List Char :=
  let digits := Nat.toDigits base number
  List.replicate (count - digits.length) '0' ++ digits

def digitValue? (character : Char) : Option Nat :=
  if '0' ≤ character ∧ character ≤ '9' then
    some (character.toNat - '0'.toNat)
  else if 'a' ≤ character ∧ character ≤ 'f' then
    some (character.toNat - 'a'.toNat + 10)
  else if 'A' ≤ character ∧ character ≤ 'F' then
    some (character.toNat - 'A'.toNat + 10)
  else
    none

def digitOf? (base : Nat) (character : Char) : Option Nat :=
  (digitValue? character).filter (· < base)

/-- The number that the digits spell when they follow those of `number`. -/
def readDigits (base number : Nat) : List Char → Option Nat
  | [] => some number
  | character :: rest => do
    let digit ← digitOf? base character
    readDigits base (number * base + digit) rest

def decimal? : List Char → Option Nat
  | [] => none
  | digits => readDigits 10 0 digits

/-- Leaves out one plus sign in front, unless a second one follows it. -/
def withoutPlus : List Char → List Char
  | '+' :: '+' :: rest => '+' :: '+' :: rest
  | '+' :: rest => rest
  | text => text

/-- The number in the base that a text spells with a lenient hand: one plus sign may stand in
front, and underscores anywhere but first. -/
def lenientDigits? (base : Nat) (text : List Char) : Option Nat :=
  match withoutPlus text with
  | [] => none
  | '_' :: _ => none
  | digits => readDigits base 0 (digits.filter (· ≠ '_'))

/-- The number below the word limit that a text of decimal digits spells, with at most one plus
sign in front. -/
def decimalWord? (limit : Nat) (text : List Char) : Option Nat :=
  (decimal? (withoutPlus text)).filter (· < limit)

example : paddedDigits 2 5 3 = ['0', '0', '0', '1', '1'] := by decide

example : lenientDigits? 2 ['+', '1', '_', '0'] = some 2 := by decide

example : lenientDigits? 2 ['+', '_', '1'] = none := by decide

end BitTerms.Text
