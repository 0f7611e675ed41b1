/-!
# Splitting texts

Splits a text at a character into fields.  There is always one field more than there are
separators.
-/

namespace Adventure

/-- The fields of a text between separators. -/
def splitFields (separator : Char) : List Char → List (List Char)
  | [] => [[]]
  | c :: rest =>
    match splitFields separator rest with
    | [] => [[c]]
    | field :: fields => if c = separator then [] :: field :: fields else (c :: field) :: fields

/-- The text before the first separator and the text after it. -/
def splitFirst? (separator : Char) (cs : List Char) : Option (List Char × List Char) :=
  match cs.dropWhile (· ≠ separator) with
  | [] => none
  | _ :: rest => some (cs.takeWhile (· ≠ separator), rest)

/-- The text before the last separator and the text after it. -/
def splitLast? (separator : Char) (cs : List Char) : Option (List Char × List Char) :=
  (splitFirst? separator cs.reverse).map fun (after, before) => (before.reverse, after.reverse)

end Adventure
