import Adventure.Number.Decimal
import Adventure.Text.Integer
import Adventure.Text.Utf8
import Adventure.Wire.Value

/-!
# Reading JSON

A document is one value with blanks around it.  Numbers without fraction and exponent are whole
numbers while they fit in 64 bits, `-0` excepted, and doubles beyond.  What is well formed but has
no value (a number beyond the doubles, an unpaired surrogate, bytes in a text that are no UTF-8, a
container more than `maxDepth` deep) is read as `unreadable`, so that it can be stepped over.
-/

namespace Adventure.Wire.Json

/-- Containers may be nested this deeply. -/
def maxDepth : Nat := 127

/-- What stands at one place of a document: a character, or bytes that are none. -/
abbrev Piece := Option Char

def isBlank (c : Piece) : Bool :=
  c = some ' ' || c = some '\n' || c = some '\t' || c = some '\r'

def skipBlank (cs : List Piece) : List Piece := cs.dropWhile isBlank

/-! ## Text -/

def hexValue? (c : Char) : Option Nat :=
  if '0' ≤ c ∧ c ≤ '9' then some (c.toNat - 48)
  else if 'a' ≤ c ∧ c ≤ 'f' then some (c.toNat - 87)
  else if 'A' ≤ c ∧ c ≤ 'F' then some (c.toNat - 55)
  else none

/-- The code unit named by four hexadecimal digits. -/
def codeUnit? (a b c d : Piece) : Option Nat :=
  match a.bind hexValue?, b.bind hexValue?, c.bind hexValue?, d.bind hexValue? with
  | some a, some b, some c, some d => some (((a * 16 + b) * 16 + c) * 16 + d)
  | _, _, _, _ => none

/-- The character named by a one-letter escape. -/
def shortEscape? : Char → Option Char
  | '"' => some '"'
  | '\\' => some '\\'
  | '/' => some '/'
  | 'b' => some (Char.ofNat 8)
  | 'f' => some (Char.ofNat 12)
  | 'n' => some '\n'
  | 'r' => some '\r'
  | 't' => some '\t'
  | _ => none

/-- What an escaped code unit does to the text read so far (in reverse, `none` once it has no
value), given the high surrogate waiting for its partner. -/
def addUnit (acc : Option (List Char)) (high : Option Nat) (unit : Nat) :
    Option (List Char) × Option Nat :=
  let isHigh := 0xd800 ≤ unit && unit < 0xdc00
  let isLow := 0xdc00 ≤ unit && unit < 0xe000
  match high with
  | some h =>
    if isLow then
      (acc.map (Char.ofNat (0x10000 + (h - 0xd800) * 0x400 + (unit - 0xdc00)) :: ·), none)
    else (none, none)
  | none =>
    if isHigh then (acc, some unit)
    else if isLow then (none, none)
    else (acc.map (Char.ofNat unit :: ·), none)

/-- Adds an ordinary character; a surrogate still waiting spoils the text, and so does damage. -/
def addPiece (acc : Option (List Char)) (high : Option Nat) (c : Piece) : Option (List Char) :=
  if high.isSome then none
  else
    match acc, c with
    | some cs, some c => some (c :: cs)
    | _, _ => none

/-- Reads the inside of a quoted text up to its closing quote.  The text is `none` where it holds
an unpaired surrogate or damage. -/
def readText (acc : Option (List Char)) (high : Option Nat) :
    List Piece → Option (Option String × List Piece)
  | [] => none
  | some '"' :: rest =>
    some (if high.isSome then none else acc.map fun cs => String.ofList cs.reverse, rest)
  | some '\\' :: some 'u' :: a :: b :: c :: d :: rest =>
    match codeUnit? a b c d with
    | none => none
    | some unit =>
      let (acc, high) := addUnit acc high unit
      readText acc high rest
  | some '\\' :: e :: rest =>
    match e.bind shortEscape? with
    | none => none
    | some c => readText (addPiece acc high (some c)) none rest
  | c :: rest =>
    if c.any fun c => c.toNat < 32 then none else readText (addPiece acc high c) none rest

/-- Reads a quoted text after its opening quote. -/
def readString (cs : List Piece) : Option (Value × List Piece) :=
  (readText (some []) none cs).map fun
    | (some s, rest) => (.text s, rest)
    | (none, rest) => (.unreadable, rest)

/-- Whether an escape stands before the first quote. -/
def hasEscape (cs : List Piece) : Bool :=
  (cs.takeWhile fun c => c != some '"').contains (some '\\')

/-- Reads a key after its opening quote. -/
def readKey (cs : List Piece) : Option (Value × List Piece) :=
  (readString cs).map fun (k, rest) =>
    match k.text? with
    | some s => (if hasEscape cs then .escaped s else .text s, rest)
    | none => (k, rest)

/-! ## Numbers -/

def isDigit (c : Piece) : Bool := (c.bind digitValue?).isSome

/-- The value of a digit. -/
def digit (c : Piece) : Nat := (c.bind digitValue?).getD 0

/-- Takes digits into a significand while it stays below `2^64`; gives the number of digits left
out. -/
def takeDigits : (significand : Nat) → List Piece → Nat × Nat
  | significand, [] => (significand, 0)
  | significand, c :: rest =>
    let next := significand * 10 + digit c
    if next < 0x10000000000000000 then takeDigits next rest else (significand, rest.length + 1)

/-- A scaled significand as a double, if there is one. -/
def scaled (negative : Bool) (significand : Nat) (exponent : Int) : Value :=
  match Binary64.ofScaled? negative significand exponent with
  | some x => .float x
  | none => .unreadable

/-- A number without fraction and exponent. -/
def whole (negative : Bool) (n : Nat) : Value :=
  if !negative then .int n
  else if n = 0 || n > 0x8000000000000000 then scaled true n 0
  else .int (-(n : Int))

/-- The largest exponent that is taken at its word. -/
def maxExponent : Nat := 2147483647

/-- Reads an exponent after its letter. -/
def readExponent (negative : Bool) (significand : Nat) (start : Int) (cs : List Piece) :
    Option (Value × List Piece) :=
  let (down, cs) : Bool × List Piece :=
    match cs with
    | some '+' :: rest => (false, rest)
    | some '-' :: rest => (true, rest)
    | _ => (false, cs)
  let digits := cs.takeWhile isDigit
  let rest := cs.dropWhile isDigit
  if digits.isEmpty then none
  else
    let exponent := digits.foldl (fun acc c => acc * 10 + digit c) 0
    if exponent > maxExponent then
      if significand != 0 && !down then some (.unreadable, rest)
      else some (scaled negative 0 0, rest)
    else
      some (scaled negative significand (if down then start - exponent else start + exponent), rest)

/-- Reads a number after its sign. -/
def readNumber (negative : Bool) (cs : List Piece) : Option (Value × List Piece) :=
  let digits := cs.takeWhile isDigit
  let rest := cs.dropWhile isDigit
  if digits.isEmpty || (digits.head? == some (some '0') && digits.length > 1) then none
  else
    let (significand, left) := takeDigits 0 digits
    match rest with
    | some '.' :: rest =>
      let fraction := rest.takeWhile isDigit
      let rest := rest.dropWhile isDigit
      if fraction.isEmpty then none
      else
        let (significand, unused) := takeDigits significand fraction
        let exponent : Int := (left : Int) - ((fraction.length - unused : Nat) : Int)
        match rest with
        | some 'e' :: rest => readExponent negative significand exponent rest
        | some 'E' :: rest => readExponent negative significand exponent rest
        | rest => some (scaled negative significand exponent, rest)
    | some 'e' :: rest => readExponent negative significand left rest
    | some 'E' :: rest => readExponent negative significand left rest
    | rest =>
      some (if left = 0 then whole negative significand else scaled negative significand left, rest)

/-! ## Values -/

/-- The remaining text after a word. -/
def word? (word : String) (cs : List Piece) : Option (List Piece) :=
  let word : List Piece := word.toList.map some
  if word.isPrefixOf cs then some (cs.drop word.length) else none

/-- A container, which has a value only while `depth` allows one. -/
def contained (depth : Nat) (v : Value) : Value := if depth = 0 then .unreadable else v

mutual

/-- Reads one value.  Each step uses up one unit of `fuel`; `depth` counts the containers that may
still be opened. -/
def readValue : (fuel : Nat) → (depth : Nat) → List Piece → Option (Value × List Piece)
  | 0, _, _ => none
  | fuel + 1, depth, cs =>
    match skipBlank cs with
    | [] => none
    | some '"' :: rest => readString rest
    | some '-' :: rest => readNumber true rest
    | some '[' :: rest =>
      match skipBlank rest with
      | some ']' :: rest => some (contained depth (.list []), rest)
      | rest => (readItems fuel (depth - 1) [] rest).map fun r => (contained depth r.1, r.2)
    | some '{' :: rest =>
      match skipBlank rest with
      | some '}' :: rest => some (contained depth (.map []), rest)
      | rest => (readEntries fuel (depth - 1) [] rest).map fun r => (contained depth r.1, r.2)
    | some 'n' :: rest => (word? "ull" rest).map fun rest => (.null, rest)
    | some 't' :: rest => (word? "rue" rest).map fun rest => (.bool true, rest)
    | some 'f' :: rest => (word? "alse" rest).map fun rest => (.bool false, rest)
    | cs => readNumber false cs

/-- Reads items up to the closing bracket; `acc` holds those read, in reverse. -/
def readItems : (fuel : Nat) → (depth : Nat) → List Value → List Piece → Option (Value × List Piece)
  | 0, _, _, _ => none
  | fuel + 1, depth, acc, cs =>
    match readValue fuel depth cs with
    | none => none
    | some (v, rest) =>
      match skipBlank rest with
      | some ',' :: rest => readItems fuel depth (v :: acc) rest
      | some ']' :: rest => some (.list (v :: acc).reverse, rest)
      | _ => none

/-- Reads entries up to the closing brace; `acc` holds those read, in reverse. -/
def readEntries : (fuel : Nat) → (depth : Nat) → List (Value × Value) → List Piece →
    Option (Value × List Piece)
  | 0, _, _, _ => none
  | fuel + 1, depth, acc, cs =>
    match skipBlank cs with
    | some '"' :: rest =>
      match readKey rest with
      | none => none
      | some (k, rest) =>
        match skipBlank rest with
        | some ':' :: rest =>
          match readValue fuel depth rest with
          | none => none
          | some (v, rest) =>
            match skipBlank rest with
            | some ',' :: rest => readEntries fuel depth ((k, v) :: acc) rest
            | some '}' :: rest => some (.map ((k, v) :: acc).reverse, rest)
            | _ => none
        | _ => none
    | _ => none

end

/-- Reads a whole document. -/
def readPieces? (cs : List Piece) : Option Value :=
  match readValue (2 * cs.length + 2) maxDepth cs with
  | some (v, rest) => if (skipBlank rest).isEmpty then some v else none
  | none => none

/-- Reads a document from its text. -/
def read? (text : String) : Option Value := readPieces? (text.toList.map some)

/-- Reads a document from its bytes. -/
def readBytes? (bytes : List UInt8) : Option Value := readPieces? (Utf8.characters bytes)

end Adventure.Wire.Json
