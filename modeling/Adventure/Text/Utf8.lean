/-!
# Damaged UTF-8

Reading bytes as text where some of them are no UTF-8.  A byte says how many bytes are to follow
and in which range the next one lies; bytes that begin a character but do not end it are one piece
of damage, and so is a byte that cannot stand where it stands.
-/

namespace Adventure.Utf8

/-- A character of which some bytes have been read. -/
structure Begun where
  /-- The bits so far. -/
  bits : Nat
  /-- Bytes that are still owed, at least one. -/
  owed : Nat
  /-- The range of the next byte. -/
  low : UInt8
  high : UInt8
  deriving DecidableEq, Repr

/-- What a first byte may be. -/
inductive Lead where
  | single (c : Char)
  | begun (b : Begun)
  | wrong
  deriving DecidableEq, Repr

/-- Reads a first byte. -/
def lead (b : UInt8) : Lead :=
  if b < 0x80 then .single (Char.ofNat b.toNat)
  else if 0xc2 ≤ b && b ≤ 0xdf then .begun ⟨b.toNat - 0xc0, 1, 0x80, 0xbf⟩
  else if b = 0xe0 then .begun ⟨0, 2, 0xa0, 0xbf⟩
  else if b = 0xed then .begun ⟨0xd, 2, 0x80, 0x9f⟩
  else if 0xe1 ≤ b && b ≤ 0xef then .begun ⟨b.toNat - 0xe0, 2, 0x80, 0xbf⟩
  else if b = 0xf0 then .begun ⟨0, 3, 0x90, 0xbf⟩
  else if b = 0xf4 then .begun ⟨4, 3, 0x80, 0x8f⟩
  else if 0xf1 ≤ b && b ≤ 0xf3 then .begun ⟨b.toNat - 0xf0, 3, 0x80, 0xbf⟩
  else .wrong

/-- Takes in the next byte of a character. -/
def Begun.take (p : Begun) (b : UInt8) : Begun :=
  ⟨p.bits * 64 + (b.toNat - 0x80), p.owed - 1, 0x80, 0xbf⟩

/-- Reads on, in the middle of a character or between two; `acc` holds what was read, in reverse. -/
def readFrom (acc : List (Option Char)) : Option Begun → List UInt8 → List (Option Char)
  | none, [] => acc.reverse
  | some _, [] => (none :: acc).reverse
  | none, b :: rest =>
    match lead b with
    | .single c => readFrom (some c :: acc) none rest
    | .begun p => readFrom acc (some p) rest
    | .wrong => readFrom (none :: acc) none rest
  | some p, b :: rest =>
    if p.low ≤ b && b ≤ p.high then
      let p := p.take b
      if p.owed = 0 then readFrom (some (Char.ofNat p.bits) :: acc) none rest
      else readFrom acc (some p) rest
    else
      match lead b with
      | .single c => readFrom (some c :: none :: acc) none rest
      | .begun p => readFrom (none :: acc) (some p) rest
      | .wrong => readFrom (none :: none :: acc) none rest

/-- The characters of some bytes, with `none` for each piece of damage. -/
def characters (bytes : List UInt8) : List (Option Char) := readFrom [] none bytes

/-- Stands for bytes that are no text. -/
def replacement : Char := Char.ofNat 0xfffd

/-- The text of some bytes, with replacement characters where they are no text. -/
def readDamaged (bytes : List UInt8) : String :=
  String.ofList ((characters bytes).map fun c => c.getD replacement)

end Adventure.Utf8
