import Adventure.Number.Decimal
import Adventure.Wire.Value

/-!
# Writing JSON

Text is escaped only where JSON asks for it, whole-number keys become texts, and a double that is
not finite becomes null.  `compact` writes no blanks; `pretty` puts every entry on a line of its
own, two blanks deeper than its container.
-/

namespace Adventure.Wire.Json

/-! ## Leaves -/

/-- Two lower-case hexadecimal digits. -/
def hexPair (n : Nat) : List Char :=
  let digit (d : Nat) : Char := if d < 10 then Char.ofNat (48 + d) else Char.ofNat (87 + d)
  [digit (n / 16 % 16), digit (n % 16)]

/-- A character as it stands inside a quoted text. -/
def escaped (c : Char) : List Char :=
  if c = '"' then ['\\', '"']
  else if c = '\\' then ['\\', '\\']
  else if c = '\n' then ['\\', 'n']
  else if c = '\r' then ['\\', 'r']
  else if c = '\t' then ['\\', 't']
  else if c.toNat = 8 then ['\\', 'b']
  else if c.toNat = 12 then ['\\', 'f']
  else if c.toNat < 32 then '\\' :: 'u' :: '0' :: '0' :: hexPair c.toNat
  else [c]

def quoted (s : String) : List Char := '"' :: s.toList.flatMap escaped ++ ['"']

def wholeNumber (n : Int) : List Char := (toString n).toList

/-- A leaf, or nothing for a list or map. -/
def leaf? : Value → Option (List Char)
  | .null => some "null".toList
  | .bool true => some "true".toList
  | .bool false => some "false".toList
  | .int n => some (wholeNumber n)
  | .formed _ n => some (wholeNumber n)
  | .float x => some (x.text?.getD "null".toList)
  | .text s => some (quoted s)
  | .escaped s => some (quoted s)
  | .bytes data =>
    some ('[' :: (List.intercalate [','] (data.map fun b => wholeNumber b.toNat)) ++ [']'])
  | .damaged => some "null".toList
  | .unreadable => some "null".toList
  | .list _ => none
  | .map _ => none

/-- A key: a text as it is, a whole number as its digits. -/
def keyText (k : Value) : List Char :=
  match k.text?, k.whole? with
  | some s, _ => quoted s
  | none, some n => '"' :: wholeNumber n ++ ['"']
  | none, none => quoted ""

/-! ## Compact form -/

mutual

def compactChars : Value → List Char
  | .list items => '[' :: compactItems items ++ [']']
  | .map entries => '{' :: compactEntries entries ++ ['}']
  | v => (leaf? v).getD []

def compactItems : List Value → List Char
  | [] => []
  | [x] => compactChars x
  | x :: rest => compactChars x ++ ',' :: compactItems rest

def compactEntries : List (Value × Value) → List Char
  | [] => []
  | [(k, x)] => keyText k ++ ':' :: compactChars x
  | (k, x) :: rest => keyText k ++ ':' :: compactChars x ++ ',' :: compactEntries rest

end

/-- The document in one line without blanks. -/
def compact (v : Value) : String := String.ofList (compactChars v)

/-! ## Indented form -/

/-- A new line, `level` containers deep. -/
def newLine (level : Nat) : List Char := '\n' :: List.replicate (2 * level) ' '

mutual

def prettyChars (level : Nat) : Value → List Char
  | .list [] => ['[', ']']
  | .list items => '[' :: prettyItems (level + 1) items ++ newLine level ++ [']']
  | .map [] => ['{', '}']
  | .map entries => '{' :: prettyEntries (level + 1) entries ++ newLine level ++ ['}']
  | v => (leaf? v).getD []

def prettyItems (level : Nat) : List Value → List Char
  | [] => []
  | [x] => newLine level ++ prettyChars level x
  | x :: rest => newLine level ++ prettyChars level x ++ ',' :: prettyItems level rest

def prettyEntries (level : Nat) : List (Value × Value) → List Char
  | [] => []
  | [(k, x)] => newLine level ++ keyText k ++ ':' :: ' ' :: prettyChars level x
  | (k, x) :: rest =>
    newLine level ++ keyText k ++ ':' :: ' ' :: prettyChars level x ++
      ',' :: prettyEntries level rest

end

/-- The document with one entry a line. -/
def pretty (v : Value) : String := String.ofList (prettyChars 0 v)

end Adventure.Wire.Json
