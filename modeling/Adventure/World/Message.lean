import Adventure.Number.Narrow
import Adventure.Text.Integer
import Adventure.Text.Split

/-!
# Directives in dialogue

A text may hold directives: `\p[key]` is the price of a product, `\v[id]` a variable, `\i[id:name]`
the name of an item and `\t[table:record:column]` a cell of a table.  Ids of items and records may
be given as `v[id]`, to be read from a variable.  A directive's argument runs up to the last closing
bracket before the next backslash.  What does not make sense as a directive stays as it is.
-/

namespace Adventure

/-- What directives look things up in. -/
structure MessageContext where
  price : String → String
  value : Int32 → Int64
  itemName? : Int32 → Option String
  cell? : String → Int64 → String → Option String

namespace Message

/-! ## Arguments -/

/-- The digits between `v[` and the closing bracket. -/
def variableDigits? : List Char → Option (List Char)
  | 'v' :: '[' :: rest =>
    match rest.reverse with
    | ']' :: digits =>
      if !digits.isEmpty && digits.all fun c => (digitValue? c).isSome then some digits.reverse
      else none
    | _ => none
  | _ => none

/-- An id: literal, or read from a variable. -/
def idOrVariable? (context : MessageContext) (raw : List Char) : Option Int64 :=
  match variableDigits? raw with
  | some digits => (readInt32 (String.ofList digits)).toOption.map context.value
  | none => (readInt64 (String.ofList raw)).toOption

/-- The text that a directive stands for. -/
def resolve? (context : MessageContext) (letter : Char) (args : List Char) : Option String :=
  match letter with
  | 'p' => some (context.price (String.ofList args))
  | 'v' => (readInt32 (String.ofList args)).toOption.map fun id => toString (context.value id).toInt
  | 'i' =>
    match splitFields ':' args with
    | [id, ['n', 'a', 'm', 'e']] =>
      if id.isEmpty then none
      else ((idOrVariable? context id).bind narrow?).bind context.itemName?
    | _ => none
  | 't' =>
    match splitFields ':' args with
    | [table, record, column] =>
      if table.isEmpty || record.isEmpty || column.isEmpty then none
      else (idOrVariable? context record).bind fun id =>
        context.cell? (String.ofList table) id (String.ofList column)
    | _ => none
  | _ => none

/-! ## Texts -/

/-- The text before the first backslash, and the segments that follow one each. -/
def segments : List Char → List Char × List (List Char)
  | [] => ([], [])
  | c :: rest =>
    let (first, others) := segments rest
    if c = '\\' then ([], first :: others) else (c :: first, others)

/-- What stands before the last closing bracket, if anything does, and after it. -/
def splitArgument? (body : List Char) : Option (List Char × List Char) :=
  (splitLast? ']' body).filter fun (args, _) => !args.isEmpty

def isLetter (c : Char) : Bool := ('a' ≤ c && c ≤ 'z') || ('A' ≤ c && c ≤ 'Z')

/-- A segment after its backslash, with its directive resolved. -/
def expandSegment (context : MessageContext) (segment : List Char) : List Char :=
  match segment with
  | letter :: '[' :: body =>
    if isLetter letter then
      match splitArgument? body with
      | some (args, tail) =>
        match resolve? context letter.toLower args with
        | some text => text.toList ++ tail
        | none => '\\' :: segment
      | none => '\\' :: segment
    else '\\' :: segment
  | _ => '\\' :: segment

/-- A text with its directives resolved. -/
def expand (context : MessageContext) (content : String) : String :=
  let (first, others) := segments content.toList
  String.ofList (first ++ others.flatMap (expandSegment context))

end Message

end Adventure
