import Adventure.SortedMap
import Adventure.Text.Integer
import Adventure.Wire.Value

/-!
# Typed data on the wire

A type with a `Wire` instance is written as a data tree and read back from one.  Records are
written as maps from field names, and may be read from a list of the fields in order as well.
Unknown fields are stepped over and a known field may be given once only.

The two formats differ in a few spellings, which `Medium` tells apart: names of cases and fields
may be given by number in packed data, a byte string may stand there for a list of numbers, and a
map with whole-number keys has text keys in a JSON document.
-/

namespace Adventure

namespace Wire

/-- Where a data tree comes from. -/
inductive Medium where
  /-- A JSON document, or plain data kept inside a project. -/
  | document
  /-- MessagePack. -/
  | packed
  /-- Either of them, held in memory while the case of a tagged record is found out. -/
  | held
  deriving DecidableEq

end Wire

/-- Types that are written to and read from data trees. -/
class Wire (α : Type) where
  encode : α → Wire.Value
  decode? : Wire.Medium → Wire.Value → Option α

namespace Wire

/-! ## Whole numbers -/

/-- A whole number within bounds. -/
def intWithin? (low high : Int) (v : Value) : Option Int :=
  v.whole?.filter fun n => low ≤ n && n ≤ high

instance : Wire Int32 where
  encode n := .int n.toInt
  decode? _ v := (intWithin? (-0x80000000) 0x7fffffff v).map Int32.ofInt

instance : Wire Int64 where
  encode n := .int n.toInt
  decode? _ v := (intWithin? (-0x8000000000000000) 0x7fffffffffffffff v).map Int64.ofInt

instance : Wire UInt8 where
  encode n := .int n.toNat
  decode? _ v := (intWithin? 0 0xff v).map fun n => UInt8.ofNat n.toNat

instance : Wire UInt16 where
  encode n := .int n.toNat
  decode? _ v := (intWithin? 0 0xffff v).map fun n => UInt16.ofNat n.toNat

instance : Wire UInt32 where
  encode n := .int n.toNat
  decode? _ v := (intWithin? 0 0xffffffff v).map fun n => UInt32.ofNat n.toNat

instance : Wire UInt64 where
  encode n := .int n.toNat
  decode? _ v := (intWithin? 0 0xffffffffffffffff v).map fun n => UInt64.ofNat n.toNat

/-- Positions in lists: 64 bits wide on the wire. -/
instance : Wire Nat where
  encode n := .int n
  decode? _ v := (intWithin? 0 0xffffffffffffffff v).map Int.toNat

/-- Numbers handed out in order: 32 bits wide on the wire. -/
def serial? (v : Value) : Option Nat := (intWithin? 0 0xffffffff v).map Int.toNat

/-! ## Other leaves -/

instance : Wire Bool where
  encode b := .bool b
  decode? _
    | .bool b => some b
    | _ => none

/-- Doubles may be given as whole numbers. -/
instance : Wire Binary64 where
  encode x := .float x
  decode? _
    | .float x => some x
    | v => v.whole?.map Binary64.ofInt

/-- The text with these bytes. -/
def textOfBytes? (data : List UInt8) : Option String := String.fromUTF8? ⟨data.toArray⟩

instance : Wire String where
  encode s := .text s
  decode? _
    | .bytes data => textOfBytes? data
    | v => v.text?

/-- Data without a fixed shape is kept in its plain form. -/
instance : Wire Value where
  encode v := v
  decode? _ v := v.plain?

/-! ## Lists and options -/

/-- The bytes of a byte string as numbers. -/
def octets (data : List UInt8) : List Value := data.map fun b => .formed .octet b.toNat

/-- The items of a list; in packed data a byte string may stand for one. -/
def items? (m : Medium) : Value → Option (List Value)
  | .list items => some items
  | .bytes data => if m = .packed then some (octets data) else none
  | _ => none

/-- The two items of a pair.  A byte string may go on after them. -/
def pair? (m : Medium) : Value → Option (Value × Value)
  | .list [a, b] => some (a, b)
  | .bytes data =>
    match if m = .packed then octets data else [] with
    | a :: b :: _ => some (a, b)
    | _ => none
  | _ => none

/-- Reads every item, or fails. -/
def decodeItems? {α : Type} (read : Value → Option α) : List Value → Option (List α)
  | [] => some []
  | v :: rest =>
    match read v, decodeItems? read rest with
    | some x, some xs => some (x :: xs)
    | _, _ => none

instance {α : Type} [Wire α] : Wire (List α) where
  encode xs := .list (xs.map encode)
  decode? m v := (items? m v).bind (decodeItems? (decode? m))

/-- Nothing is written as null.  A byte of a byte string is no optional number. -/
instance {α : Type} [Wire α] : Wire (Option α) where
  encode
    | some x => encode x
    | none => .null
  decode? m
    | .null => some none
    | .formed .octet _ => none
    | v => (decode? m v).map some

instance {α β : Type} [Wire α] [Wire β] : Wire (α × β) where
  encode p := .list [encode p.1, encode p.2]
  decode? m v :=
    match pair? m v with
    | some (a, b) =>
      match decode? m a, decode? m b with
      | some a, some b => some (a, b)
      | _, _ => none
    | none => none

/-! ## Maps -/

/-- Types that may be keys of a map. -/
class WireKey (κ : Type) where
  encodeKey : κ → Value
  decodeKey? : Medium → Value → Option κ

/-- A text that is a whole number in its shortest spelling. -/
def shortestInt? (low high : Int) (s : String) : Option Int :=
  match readInteger low high s.toList with
  | .ok n => if toString n = s then some n else none
  | .error _ => none

/-- In a document the digits stand as text. -/
instance : WireKey Int32 where
  encodeKey n := .int n.toInt
  decodeKey? m v :=
    match m, v with
    | .document, .text s => (shortestInt? (-0x80000000) 0x7fffffff s).map Int32.ofInt
    | .document, _ => none
    | _, v => (intWithin? (-0x80000000) 0x7fffffff v).map Int32.ofInt

instance : WireKey String where
  encodeKey s := .text s
  decodeKey? m v := decode? m v

def decodeEntries? {κ ν : Type} [WireKey κ] [Wire ν] (m : Medium) :
    List (Value × Value) → Option (List (κ × ν))
  | [] => some []
  | (k, v) :: rest =>
    match WireKey.decodeKey? m k, decode? m v, decodeEntries? m rest with
    | some k, some v, some rest => some ((k, v) :: rest)
    | _, _, _ => none

/-- Entries are written in key order; of a repeated key the last entry counts. -/
instance {κ ν : Type} [Ord κ] [Std.TransOrd κ] [Std.LawfulEqOrd κ] [WireKey κ] [Wire ν] :
    Wire (SortedMap κ ν) where
  encode m := .map (m.entries.map fun e => (WireKey.encodeKey e.1, encode e.2))
  decode? m
    | .map entries => (decodeEntries? m entries).map SortedMap.ofList
    | _ => none

/-- A set is written as the list of its members in order. -/
def encodeSet {κ : Type} [Ord κ] [Wire κ] (s : SortedSet κ) : Value := .list (s.keys.map encode)

def decodeSet? {κ : Type} [Ord κ] [Std.TransOrd κ] [Std.LawfulEqOrd κ] [Wire κ] (m : Medium)
    (v : Value) : Option (SortedSet κ) :=
  (decode? m v : Option (List κ)).map fun xs => SortedMap.ofList (xs.map fun x => (x, ()))

/-! ## Enumerations -/

/-- Types with finitely many named values. -/
class Enumeration (α : Type) where
  cases : List α
  label : α → String

/-- The value with a name. -/
def ofLabel? {α : Type} [Enumeration α] (s : String) : Option α :=
  (Enumeration.cases (α := α)).find? fun a => Enumeration.label a == s

/-- What a leaf names among the names of a type: one by its text or by its position, or nothing. -/
inductive Naming where
  | text (s : String)
  | position (n : Nat)
  | nothing

/-- Reads a leaf as a name.  Packed data may give it as bytes, or as a number without sign; once the
data is held, not as a number of middle width. -/
def naming? (m : Medium) : Value → Option Naming
  | .text s => some (.text s)
  | .escaped s => some (.text s)
  | .bytes data =>
    if m = .document then none
    else
      match textOfBytes? data with
      | some s => some (.text s)
      | none => some .nothing
  | .damaged => some .nothing
  | .int n => if m = .document || n < 0 then none else some (.position n.toNat)
  | .formed .middle n => if m = .packed then some (.position n.toNat) else none
  | _ => none

/-- The value that a leaf names. -/
def caseNamed? {α : Type} [Enumeration α] (m : Medium) (v : Value) : Option α :=
  match naming? m v with
  | some (.text s) => ofLabel? s
  | some (.position n) => (Enumeration.cases (α := α))[n]?
  | _ => none

/-- A case may also be given as the key of a map from it to null, or from it to an empty map once
the data is held; then it is a text if it stands alone. -/
instance (priority := low) {α : Type} [Enumeration α] : Wire α where
  encode a := .text (Enumeration.label a)
  decode? m
    | .map [(k, .null)] => caseNamed? m k
    | .map [(k, .map [])] => if m = .held then caseNamed? m k else none
    | .text s => ofLabel? s
    | v => if m = .held then none else caseNamed? m v

/-! ## Records -/

/-- The fields of a record as they were given. -/
structure Fields where
  /-- Given as a list, so that a field without a default must be present. -/
  positional : Bool
  entries : List (String × Value)

/-- What a key of a record stands for: a known field, or something to step over. -/
inductive FieldKey where
  | known (name : String)
  | unknown

/-- Reads a key of a record. -/
def fieldKey? (m : Medium) (names : List String) (k : Value) : Option FieldKey :=
  (naming? m k).map fun
    | .text s => if names.contains s then .known s else .unknown
    | .position n => (names[n]?.map FieldKey.known).getD .unknown
    | .nothing => .unknown

/-- Collects the known fields of a map, each of which may stand there once. -/
def collectFields? (m : Medium) (names : List String) :
    List (Value × Value) → Option (List (String × Value))
  | [] => some []
  | (k, v) :: rest =>
    match fieldKey? m names k, collectFields? m names rest with
    | some (.known s), some fields =>
      if fields.any (fun f => f.1 == s) then none else some ((s, v) :: fields)
    | some .unknown, some fields => some fields
    | _, _ => none

/-- Reads the fields of a record with these field names.  A list may not go on after the last field,
but a byte string may. -/
def Fields.read? (m : Medium) (names : List String) : Value → Option Fields
  | .map entries => (collectFields? m names entries).map fun fields => ⟨false, fields⟩
  | .list items => if items.length ≤ names.length then some ⟨true, names.zip items⟩ else none
  | .bytes data => if m = .packed then some ⟨true, names.zip (octets data)⟩ else none
  | _ => none

namespace Fields

def find? (f : Fields) (name : String) : Option Value :=
  (f.entries.find? fun e => e.1 == name).map (·.2)

/-- A field that must be present. -/
def required {α : Type} [Wire α] (f : Fields) (m : Medium) (name : String) : Option α :=
  (f.find? name).bind (decode? m)

/-- A field with a reading rule of its own, which must be present. -/
def requiredBy {α : Type} (f : Fields) (read : Value → Option α) (name : String) : Option α :=
  (f.find? name).bind read

/-- A field with a reading rule of its own, and a default. -/
def orElse {α : Type} (f : Fields) (read : Value → Option α) (name : String) (default : α) :
    Option α :=
  match f.find? name with
  | some v => read v
  | none => some default

/-- A field with a default. -/
def withDefault {α : Type} [Wire α] (f : Fields) (m : Medium) (name : String) (default : α) :
    Option α :=
  f.orElse (decode? m) name default

end Fields

/-- A field that is left out when it is empty. -/
def unlessNull (name : String) (v : Value) : List (String × Value) :=
  match v with
  | .null => []
  | v => [(name, v)]

/-! ## Tagged records -/

/-- Whether a key is the one that the tag stands under. -/
def isTagKey : Value → Bool
  | .bytes data => textOfBytes? data == some "type"
  | k => k.text? == some "type"

/-- The tag that a leaf names. -/
def tagNamed? (m : Medium) (tags : List String) (v : Value) : Option String :=
  match naming? m v with
  | some (.text s) => if tags.contains s then some s else none
  | some (.position n) => tags[n]?
  | _ => none

/-- Splits a tagged record into its tag, one of `tags`, and its other fields.  The tag stands
under `type`, or first in a list. -/
def untag? (m : Medium) (tags : List String) : Value → Option (String × Value)
  | .map entries =>
    let (tag, fields) := entries.partition fun e => isTagKey e.1
    if m = .document && !(Value.map entries).isReadable then none
    else
      match tag with
      | [(_, tag)] => (tagNamed? m tags tag).map fun t => (t, .map fields)
      | _ => none
  | .list (tag :: rest) =>
    if m = .document && !(Value.list rest).isReadable then none
    else (tagNamed? m tags tag).map fun t => (t, .list rest)
  | _ => none

/-- A case without fields: other entries are stepped over, but a list may not go on. -/
def bare? {α : Type} (a : α) : Value → Option α
  | .list (_ :: _) => none
  | _ => some a

/-- A tagged record on the wire. -/
def taggedRecord (tag : String) (fields : List (String × Value)) : Value :=
  .record (("type", .text tag) :: fields)

end Wire

end Adventure
