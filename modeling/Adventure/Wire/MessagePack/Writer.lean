import Adventure.Wire.Value

/-!
# Writing MessagePack

Whole numbers take the shortest form, the non-negative ones an unsigned form; doubles are always
written as doubles; texts, lists and maps take the shortest form for their length.
-/

namespace Adventure.Wire.MessagePack

/-- The low `count` bytes of a number, most significant first. -/
def bigEndian : (count : Nat) → Nat → List UInt8
  | 0, _ => []
  | count + 1, n => UInt8.ofNat (n / Nat.pow 256 count % 256) :: bigEndian count n

/-- A tag byte and a number in `count` bytes. -/
def tagged (tag : UInt8) (count : Nat) (n : Nat) : List UInt8 := tag :: bigEndian count n

def writeUnsigned (n : Nat) : List UInt8 :=
  if n < 128 then [UInt8.ofNat n]
  else if n < 0x100 then tagged 0xcc 1 n
  else if n < 0x10000 then tagged 0xcd 2 n
  else if n < 0x100000000 then tagged 0xce 4 n
  else tagged 0xcf 8 n

/-- A negative number `-n` in two's complement. -/
def writeNegative (n : Nat) : List UInt8 :=
  if n ≤ 32 then [UInt8.ofNat (256 - n)]
  else if n ≤ 0x80 then tagged 0xd0 1 (0x100 - n)
  else if n ≤ 0x8000 then tagged 0xd1 2 (0x10000 - n)
  else if n ≤ 0x80000000 then tagged 0xd2 4 (0x100000000 - n)
  else tagged 0xd3 8 (0x10000000000000000 - n)

def writeInt (n : Int) : List UInt8 :=
  if n < 0 then writeNegative n.natAbs else writeUnsigned n.natAbs

def writeText (s : String) : List UInt8 :=
  let data := s.toUTF8.toList
  let n := data.length
  (if n < 32 then [UInt8.ofNat (0xa0 + n)]
    else if n < 0x100 then tagged 0xd9 1 n
    else if n < 0x10000 then tagged 0xda 2 n
    else tagged 0xdb 4 n) ++ data

def writeBytes (data : List UInt8) : List UInt8 :=
  let n := data.length
  (if n < 0x100 then tagged 0xc4 1 n
    else if n < 0x10000 then tagged 0xc5 2 n
    else tagged 0xc6 4 n) ++ data

def listHeader (n : Nat) : List UInt8 :=
  if n < 16 then [UInt8.ofNat (0x90 + n)]
  else if n < 0x10000 then tagged 0xdc 2 n
  else tagged 0xdd 4 n

def mapHeader (n : Nat) : List UInt8 :=
  if n < 16 then [UInt8.ofNat (0x80 + n)]
  else if n < 0x10000 then tagged 0xde 2 n
  else tagged 0xdf 4 n

mutual

/-- The bytes of a value. -/
def write : Value → List UInt8
  | .null => [0xc0]
  | .bool false => [0xc2]
  | .bool true => [0xc3]
  | .int n => writeInt n
  | .formed _ n => writeInt n
  | .float x => tagged 0xcb 8 x.bits.toNat
  | .text s => writeText s
  | .escaped s => writeText s
  | .bytes data => writeBytes data
  | .list items => listHeader items.length ++ writeItems items
  | .map entries => mapHeader entries.length ++ writeEntries entries
  | .damaged => [0xc0]
  | .unreadable => [0xc0]

def writeItems : List Value → List UInt8
  | [] => []
  | x :: rest => write x ++ writeItems rest

def writeEntries : List (Value × Value) → List UInt8
  | [] => []
  | (k, x) :: rest => write k ++ write x ++ writeEntries rest

end

end Adventure.Wire.MessagePack
