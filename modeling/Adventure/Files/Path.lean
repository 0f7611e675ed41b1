import Adventure.Text.Split

/-!
# Paths of files

A path is a text of names divided by slashes.  Empty names and single dots stand for nothing, and
two dots take back the name before them.
-/

namespace Adventure.Files

/-- The parts of a path as they stand there. -/
def parts (path : String) : List String := (splitFields '/' path.toList).map String.ofList

/-- Whether a part of a path stands for nothing. -/
def isBlankPart (part : String) : Bool := part = "" || part = "."

/-- Goes on from `names`, the latest of which comes first, along one part of a path. -/
def follow (names : List String) (part : String) : List String :=
  if isBlankPart part then names
  else if part = ".." then names.tail
  else part :: names

/-- Whether a path begins at the root and not at the working folder. -/
def fromRoot (path : String) : Bool := path.startsWith "/"

/-- The names from the root to where parts of a path lead, followed from the folder `here`. -/
def place (here parts : List String) : List String := (parts.foldl follow here.reverse).reverse

/-- Whether a path can only be the path of a folder. -/
def namesFolder (path : String) : Bool :=
  match (parts path).getLast? with
  | none => true
  | some part => isBlankPart part || part = ".."

/-- A path without the slashes and single dots that end it, as its parts from the last to the
first. -/
def trimmed (path : String) : List String := (parts path).reverse.dropWhile isBlankPart

/-- The path of the folder that something lies in; the empty path where that is not written down.
Where nothing but slashes and dots is left, the first of them stays. -/
def folderOf (path : String) : String :=
  let above := (trimmed path).drop 1
  match above.dropWhile isBlankPart, above.getLast? with
  | [], some "" => "/"
  | [], some part => part
  | [], none => ""
  | folders, _ => String.intercalate "/" folders.reverse

/-- Goes on from the path of a folder to something in it. -/
def join (folder name : String) : String :=
  if folder = "" || folder.endsWith "/" then folder ++ name else folder ++ "/" ++ name

/-- The path of a file in the same folder; two dots at the end are a folder themselves. -/
def sibling (path name : String) : String :=
  match trimmed path with
  | [] => join path name
  | ".." :: _ => join path name
  | _ => join (folderOf path) name

/-! ## Limits -/

/-- Names may be this long, in bytes. -/
def maxNameSize : Nat := 255

/-- Paths may be this long, in bytes. -/
def maxPathSize : Nat := 4095

/-- Whether no file can have a name. -/
def isTooLong (name : String) : Bool := name.utf8ByteSize > maxNameSize

/-- Whether nothing can be looked for under a path. -/
def isImpossible (path : String) : Bool :=
  path.utf8ByteSize > maxPathSize || path.toList.contains '\x00'

end Adventure.Files
