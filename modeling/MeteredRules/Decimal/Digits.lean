/-!
# Decimal integers as text

Naturals and integers in decimal notation. Only the ASCII digits count as digits, leading zeros
are read and never written, and a sign is read only where a function says so.
-/

namespace MeteredRules.Decimal

/-- The digits of a natural number, without leading zeros. -/
def digits (number : Nat) : List Char :=
  Nat.toDigits 10 number

/-- The number that a list of digits denotes; the empty list denotes zero. -/
def ofDigits (text : List Char) : Nat :=
  Nat.ofDigitChars 10 text 0

/-- The digits of a number, filled up with zeros on the left to a given width. -/
def padded (width number : Nat) : List Char :=
  let text := digits number
  List.replicate (width - text.length) '0' ++ text

/-- A text that consists of one or more digits. -/
def isDigits (text : List Char) : Bool :=
  !text.isEmpty && text.all Char.isDigit

/-- Reads one or more digits, and nothing else. -/
def readNat? (text : List Char) : Option Nat :=
  if isDigits text then some (ofDigits text) else none

/-- Splits a leading `+` or `-` off a text and tells whether it was a minus. -/
def splitSign : List Char → Bool × List Char
  | '-' :: rest => (true, rest)
  | '+' :: rest => (false, rest)
  | text => (false, text)

theorem length_splitSign (text : List Char) : (splitSign text).2.length ≤ text.length := by
  unfold splitSign
  split <;> simp

/-- Reads an optional sign and one or more digits, and nothing else. -/
def readInt? (text : List Char) : Option Int :=
  let (negative, rest) := splitSign text
  (readNat? rest).map fun magnitude => if negative then -(magnitude : Int) else magnitude

/-- An integer in decimal notation, with a sign only if it is negative. -/
def ofInt (number : Int) : List Char :=
  if number < 0 then '-' :: digits number.natAbs else digits number.natAbs

end MeteredRules.Decimal
