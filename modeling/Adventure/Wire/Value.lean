import Adventure.Number.Binary64

/-!
# Data trees

A `Value` is what a document says before it is read as anything in particular.  Both wire formats
are read into it and written from it.  A tree keeps entries as they stand, repeated keys and order
included; `plain?` settles them, for the places where a project keeps data that has no fixed shape.

The same number or text can be spelled in several ways, and a few of them stand for less than the
others do: `formed`, `escaped` and `damaged` keep them apart.
-/

namespace Adventure.Wire

/-- Forms of whole numbers that may not name everything that a number may name. -/
inductive NumberForm where
  /-- In two's complement. -/
  | signed
  /-- Without sign, in two or four bytes. -/
  | middle
  /-- As one of the bytes that stand for a list. -/
  | octet
  deriving DecidableEq, Repr

/-- A data tree. -/
inductive Value where
  | null
  | bool (b : Bool)
  | int (n : Int)
  /-- A whole number in a form that is told apart. -/
  | formed (form : NumberForm) (n : Int)
  | float (x : Binary64)
  | text (s : String)
  /-- A key that is spelled with escapes, so that it stands for no number. -/
  | escaped (s : String)
  | bytes (data : List UInt8)
  /-- A text that is not UTF-8: as a key it names nothing, elsewhere it has no value. -/
  | damaged
  | list (items : List Value)
  | map (entries : List (Value × Value))
  /-- Data that may be stepped over but has no value: a number too large for a double, text with
  an unpaired surrogate, data nested too deeply. -/
  | unreadable
  deriving Inhabited

namespace Value

/-- A map whose keys are texts. -/
def record (entries : List (String × Value)) : Value :=
  .map (entries.map fun e => (.text e.1, e.2))

/-- The number that a tree is, in whatever form. -/
def whole? : Value → Option Int
  | .int n => some n
  | .formed _ n => some n
  | _ => none

/-- The text that a tree is, in whatever spelling. -/
def text? : Value → Option String
  | .text s => some s
  | .escaped s => some s
  | _ => none

/-! ## Equality -/

mutual

/-- Whether two trees are the same. -/
def same : Value → Value → Bool
  | .null, .null => true
  | .bool a, .bool b => a == b
  | .int a, .int b => a == b
  | .formed f a, .formed g b => f == g && a == b
  | .float a, .float b => a.bits == b.bits
  | .text a, .text b => a == b
  | .escaped a, .escaped b => a == b
  | .bytes a, .bytes b => a == b
  | .damaged, .damaged => true
  | .list a, .list b => sameItems a b
  | .map a, .map b => sameEntries a b
  | .unreadable, .unreadable => true
  | _, _ => false

def sameItems : List Value → List Value → Bool
  | [], [] => true
  | x :: xs, y :: ys => same x y && sameItems xs ys
  | _, _ => false

def sameEntries : List (Value × Value) → List (Value × Value) → Bool
  | [], [] => true
  | (k, x) :: xs, (l, y) :: ys => same k l && same x y && sameEntries xs ys
  | _, _ => false

end

/-! ## Depth -/

mutual

/-- How deeply lists and maps are nested. -/
def depth : Value → Nat
  | .list items => depthOfItems items + 1
  | .map entries => depthOfEntries entries + 1
  | _ => 0

def depthOfItems : List Value → Nat
  | [] => 0
  | x :: rest => max (depth x) (depthOfItems rest)

def depthOfEntries : List (Value × Value) → Nat
  | [] => 0
  | (k, x) :: rest => max (max (depth k) (depth x)) (depthOfEntries rest)

end

/-! ## Readable data -/

mutual

/-- Whether every part of the tree has a value. -/
def isReadable : Value → Bool
  | .list items => readableItems items
  | .map entries => readableEntries entries
  | .unreadable => false
  | _ => true

def readableItems : List Value → Bool
  | [] => true
  | x :: rest => isReadable x && readableItems rest

def readableEntries : List (Value × Value) → Bool
  | [] => true
  | (k, x) :: rest => isReadable k && isReadable x && readableEntries rest

end

/-! ## Plain data -/

/-- Puts an entry in key order, over an entry with the same key. -/
def placeEntry (k : String) (v : Value) : List (Value × Value) → List (Value × Value)
  | [] => [(.text k, v)]
  | (.text k', v') :: rest =>
    if k < k' then (.text k, v) :: (.text k', v') :: rest
    else if k = k' then (.text k, v) :: rest
    else (.text k', v') :: placeEntry k v rest
  | e :: rest => e :: placeEntry k v rest

mutual

/-- The tree as plain data: keys are texts in increasing order, of a repeated key the last entry
counts, and a double that is not finite is null.  Bytes and other keys have no plain form. -/
def plain? : Value → Option Value
  | .null => some .null
  | .bool b => some (.bool b)
  | .int n => some (.int n)
  | .formed _ n => some (.int n)
  | .float x => some (if x.isFinite then .float x else .null)
  | .text s => some (.text s)
  | .escaped s => some (.text s)
  | .bytes _ => none
  | .damaged => none
  | .list items => (plainItems? items).map .list
  | .map entries => (plainEntries? entries []).map .map
  | .unreadable => none

def plainItems? : List Value → Option (List Value)
  | [] => some []
  | x :: rest =>
    match plain? x, plainItems? rest with
    | some y, some ys => some (y :: ys)
    | _, _ => none

/-- Settles entries on top of those already placed. -/
def plainEntries? : List (Value × Value) → List (Value × Value) → Option (List (Value × Value))
  | [], placed => some placed
  | (k, x) :: rest, placed =>
    match text? k, plain? x with
    | some k, some y => plainEntries? rest (placeEntry k y placed)
    | _, _ => none

end

/-- The plain form of a tree that is known to have one; otherwise null. -/
def plain (v : Value) : Value := v.plain?.getD .null

/-- The value under a text key. -/
def get? (key : String) : Value → Option Value
  | .map entries => (entries.find? fun e => e.1.text? == some key).map (·.2)
  | _ => none

end Value

end Adventure.Wire
