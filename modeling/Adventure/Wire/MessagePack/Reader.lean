import Adventure.Wire.Value

/-!
# Reading MessagePack

One value is read from the front of the bytes; what follows it is left alone.  Every width of
every kind is accepted.  A text that is not UTF-8 and an extension have no value but can be stepped
over.  Values nested more than `maxDepth` deep are refused.
-/

namespace Adventure.Wire.MessagePack

/-- Containers and extensions may be nested this deeply. -/
def maxDepth : Nat := 1023

/-- The number written in bytes, most significant first. -/
def ofBigEndian (data : List UInt8) : Nat := data.foldl (fun acc b => acc * 256 + b.toNat) 0

/-- The first `n` bytes and the rest, if there are that many. -/
def take? (n : Nat) (bytes : List UInt8) : Option (List UInt8 × List UInt8) :=
  let front := bytes.take n
  if front.length = n then some (front, bytes.drop n) else none

/-- A number in `count` bytes. -/
def readUnsigned (count : Nat) (bytes : List UInt8) : Option (Nat × List UInt8) :=
  (take? count bytes).map fun (front, rest) => (ofBigEndian front, rest)

/-- A number in `count` bytes, in two's complement. -/
def readSigned (count : Nat) (bytes : List UInt8) : Option (Int × List UInt8) :=
  (readUnsigned count bytes).map fun (n, rest) =>
    (if 2 * n < Nat.pow 256 count then (n : Int) else (n : Int) - (Nat.pow 256 count : Nat), rest)

/-- The text with these bytes. -/
def textOf (data : List UInt8) : Value :=
  match String.fromUTF8? ⟨data.toArray⟩ with
  | some s => .text s
  | none => .damaged

/-- A text of `n` bytes. -/
def readText (n : Nat) (bytes : List UInt8) : Option (Value × List UInt8) :=
  (take? n bytes).map fun (data, rest) => (textOf data, rest)

def readBytes (n : Nat) (bytes : List UInt8) : Option (Value × List UInt8) :=
  (take? n bytes).map fun (data, rest) => (.bytes data, rest)

/-- How a value begins: a leaf or an extension read to its end, or a container with its number of
entries. -/
inductive Head where
  | leaf (v : Value)
  | extension
  | list (n : Nat)
  | map (n : Nat)

def leaf (r : Option (Value × List UInt8)) : Option (Head × List UInt8) :=
  r.map fun (v, rest) => (.leaf v, rest)

/-- An extension of `n` bytes after its type byte. -/
def readExtension (n : Nat) (bytes : List UInt8) : Option (Head × List UInt8) :=
  (take? (n + 1) bytes).map fun (_, rest) => (.extension, rest)

/-- Reads a length in `count` bytes and goes on with it. -/
def sized {α : Type} (count : Nat) (bytes : List UInt8)
    (next : Nat → List UInt8 → Option (α × List UInt8)) : Option (α × List UInt8) :=
  match readUnsigned count bytes with
  | some (n, rest) => next n rest
  | none => none

/-- A number without sign in `count` bytes. -/
def unsignedLeaf (form : Int → Value) (count : Nat) (bytes : List UInt8) :
    Option (Head × List UInt8) :=
  (readUnsigned count bytes).map fun (n, rest) => (.leaf (form n), rest)

/-- A number in `count` bytes, in two's complement. -/
def signedLeaf (count : Nat) (bytes : List UInt8) : Option (Head × List UInt8) :=
  (readSigned count bytes).map fun (n, rest) => (.leaf (.formed .signed n), rest)

/-- Reads a leaf, an extension, or the head of a container. -/
def readHead : List UInt8 → Option (Head × List UInt8)
  | [] => none
  | tag :: rest =>
    let t := tag.toNat
    if t < 0x80 then some (.leaf (.int t), rest)
    else if t < 0x90 then some (.map (t - 0x80), rest)
    else if t < 0xa0 then some (.list (t - 0x90), rest)
    else if t < 0xc0 then leaf (readText (t - 0xa0) rest)
    else if t ≥ 0xe0 then some (.leaf (.int ((t : Int) - 256)), rest)
    else match t with
    | 0xc0 => some (.leaf .null, rest)
    | 0xc2 => some (.leaf (.bool false), rest)
    | 0xc3 => some (.leaf (.bool true), rest)
    | 0xc4 => leaf (sized 1 rest readBytes)
    | 0xc5 => leaf (sized 2 rest readBytes)
    | 0xc6 => leaf (sized 4 rest readBytes)
    | 0xc7 => sized 1 rest readExtension
    | 0xc8 => sized 2 rest readExtension
    | 0xc9 => sized 4 rest readExtension
    | 0xca => (readUnsigned 4 rest).map fun (n, rest) =>
        (.leaf (.float (Binary64.ofSingleBits (UInt32.ofNat n))), rest)
    | 0xcb => (readUnsigned 8 rest).map fun (n, rest) => (.leaf (.float ⟨UInt64.ofNat n⟩), rest)
    | 0xcc => unsignedLeaf .int 1 rest
    | 0xcd => unsignedLeaf (.formed .middle) 2 rest
    | 0xce => unsignedLeaf (.formed .middle) 4 rest
    | 0xcf => unsignedLeaf .int 8 rest
    | 0xd0 => signedLeaf 1 rest
    | 0xd1 => signedLeaf 2 rest
    | 0xd2 => signedLeaf 4 rest
    | 0xd3 => signedLeaf 8 rest
    | 0xd4 => readExtension 1 rest
    | 0xd5 => readExtension 2 rest
    | 0xd6 => readExtension 4 rest
    | 0xd7 => readExtension 8 rest
    | 0xd8 => readExtension 16 rest
    | 0xd9 => leaf (sized 1 rest readText)
    | 0xda => leaf (sized 2 rest readText)
    | 0xdb => leaf (sized 4 rest readText)
    | 0xdc => (readUnsigned 2 rest).map fun (n, rest) => (.list n, rest)
    | 0xdd => (readUnsigned 4 rest).map fun (n, rest) => (.list n, rest)
    | 0xde => (readUnsigned 2 rest).map fun (n, rest) => (.map n, rest)
    | 0xdf => (readUnsigned 4 rest).map fun (n, rest) => (.map n, rest)
    | _ => none

mutual

/-- Reads one value.  Each step uses up one unit of `fuel`; `depth` counts the containers that may
still be opened. -/
def readValue : (fuel : Nat) → (depth : Nat) → List UInt8 → Option (Value × List UInt8)
  | 0, _, _ => none
  | fuel + 1, depth, bytes =>
    match readHead bytes with
    | none => none
    | some (.leaf v, rest) => some (v, rest)
    | some (.extension, rest) => if depth = 0 then none else some (.unreadable, rest)
    | some (.list n, rest) => if depth = 0 then none else readItems fuel (depth - 1) n [] rest
    | some (.map n, rest) => if depth = 0 then none else readEntries fuel (depth - 1) n [] rest

/-- Reads `n` more items; `acc` holds those read, in reverse. -/
def readItems : (fuel : Nat) → (depth : Nat) → (n : Nat) → List Value → List UInt8 →
    Option (Value × List UInt8)
  | 0, _, _, _, _ => none
  | fuel + 1, depth, n, acc, bytes =>
    if n = 0 then some (.list acc.reverse, bytes)
    else
      match readValue fuel depth bytes with
      | none => none
      | some (v, rest) => readItems fuel depth (n - 1) (v :: acc) rest

/-- Reads `n` more entries; `acc` holds those read, in reverse. -/
def readEntries : (fuel : Nat) → (depth : Nat) → (n : Nat) → List (Value × Value) → List UInt8 →
    Option (Value × List UInt8)
  | 0, _, _, _, _ => none
  | fuel + 1, depth, n, acc, bytes =>
    if n = 0 then some (.map acc.reverse, bytes)
    else
      match readValue fuel depth bytes with
      | none => none
      | some (k, rest) =>
        match readValue fuel depth rest with
        | none => none
        | some (v, rest) => readEntries fuel depth (n - 1) ((k, v) :: acc) rest

end

/-- Reads the value at the front. -/
def read? (bytes : List UInt8) : Option Value :=
  (readValue (2 * bytes.length + 2) maxDepth bytes).map (·.1)

end Adventure.Wire.MessagePack
