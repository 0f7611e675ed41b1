/-!
# Whole numbers as text

`readInteger` reads an optional sign and decimal digits, within bounds.  Leading zeros are fine.
A text that does not read has a cause; when several apply, the one that comes first in the text
is given.
-/

namespace Adventure

/-- Why a text is no whole number within the bounds. -/
inductive IntegerFault where
  | empty
  | invalidDigit
  | tooLarge
  | tooSmall
  deriving DecidableEq, Repr

namespace IntegerFault

def message : IntegerFault → String
  | empty => "cannot parse integer from empty string"
  | invalidDigit => "invalid digit found in string"
  | tooLarge => "number too large to fit in target type"
  | tooSmall => "number too small to fit in target type"

end IntegerFault

/-- The value of an ASCII decimal digit. -/
def digitValue? (c : Char) : Option Nat :=
  if '0' ≤ c ∧ c ≤ '9' then some (c.toNat - '0'.toNat) else none

/-- Reads digits on top of `acc`, which may not pass `limit`. -/
def readDigits (limit : Nat) (overflow : IntegerFault) : (acc : Nat) → List Char →
    Except IntegerFault Nat
  | acc, [] => .ok acc
  | acc, c :: rest =>
    match digitValue? c with
    | none => .error .invalidDigit
    | some d =>
      if acc * 10 + d > limit then .error overflow
      else readDigits limit overflow (acc * 10 + d) rest

/-- Reads a whole number from `low` to `high`.  A minus sign is read only where `low` is
negative, and a sign needs a digit after it. -/
def readInteger (low high : Int) (text : List Char) : Except IntegerFault Int :=
  match text with
  | [] => .error .empty
  | ['+'] | ['-'] => .error .invalidDigit
  | '+' :: rest => (readDigits high.toNat .tooLarge 0 rest).map Int.ofNat
  | '-' :: rest =>
    if low < 0 then (readDigits (-low).toNat .tooSmall 0 rest).map fun n => -(n : Int)
    else .error .invalidDigit
  | text => (readDigits high.toNat .tooLarge 0 text).map Int.ofNat

def readInt32 (text : String) : Except IntegerFault Int32 :=
  (readInteger (-0x80000000) 0x7fffffff text.toList).map Int32.ofInt

def readInt64 (text : String) : Except IntegerFault Int64 :=
  (readInteger (-0x8000000000000000) 0x7fffffffffffffff text.toList).map Int64.ofInt

def readUInt32 (text : String) : Except IntegerFault UInt32 :=
  (readInteger 0 0xffffffff text.toList).map fun n => UInt32.ofNat n.toNat

def readUInt64 (text : String) : Except IntegerFault UInt64 :=
  (readInteger 0 0xffffffffffffffff text.toList).map fun n => UInt64.ofNat n.toNat

end Adventure
