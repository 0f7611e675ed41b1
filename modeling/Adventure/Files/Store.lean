import Adventure.Files.Path
import Adventure.SortedMap

/-!
# File stores

Files and folders by the names that lead to them from the root.  A path is followed part by part, so
every part but the last has to lead to a folder that is there.  Folders that were made on the way to
a file stay when the file cannot be written.
-/

namespace Adventure.Files

/-- What stands at a path. -/
inductive Node where
  | file (bytes : List UInt8)
  | folder
  deriving DecidableEq, Repr

/-- Files and folders. -/
structure FileStore where
  nodes : SortedMap (List String) Node
  /-- The working folder, where paths begin that do not begin at the root. -/
  here : List String
  /-- Whether nothing can be written. -/
  readOnly : Bool

/-- What is at a path cannot be read: it is a folder, the path leads through a file, or it is none
that a file could have. -/
inductive ReadFault where
  | unreadable
  deriving DecidableEq, Repr

namespace FileStore

/-- No files. -/
def empty : FileStore := ⟨.empty, [], false⟩

instance : Inhabited FileStore := ⟨empty⟩

/-- What stands at a path; the root is a folder. -/
def node? (s : FileStore) (names : List String) : Option Node :=
  if names.isEmpty then some .folder else s.nodes.find? names

def isFile (s : FileStore) (names : List String) : Bool :=
  match s.node? names with
  | some (.file _) => true
  | _ => false

def isFolder (s : FileStore) (names : List String) : Bool :=
  match s.node? names with
  | some .folder => true
  | _ => false

/-- The folder where a path begins. -/
def start (s : FileStore) (path : String) : List String := if fromRoot path then [] else s.here

/-- The names that a path leads to. -/
def placeOf (s : FileStore) (path : String) : List String := place (s.start path) (parts path)

/-- The folders that a path leads through, from its beginning on. -/
def foldersTo (s : FileStore) (path : String) : List (List String) :=
  (List.range (parts path).length).map fun n => place (s.start path) ((parts path).take n)

/-- What is read at a place where nothing stands. -/
def missing (names : List String) : Except ReadFault (Option (List UInt8)) :=
  if names.getLast?.any isTooLong then .error .unreadable else .ok none

/-- The bytes of a file, if there is one. -/
def read (s : FileStore) (path : String) : Except ReadFault (Option (List UInt8)) :=
  if path = "" then .ok none
  else if isImpossible path then .error .unreadable
  else
    match (s.foldersTo path).find? fun names => !s.isFolder names with
    | some names => if s.isFile names then .error .unreadable else missing names
    | none =>
      match s.node? (s.placeOf path) with
      | some (.file bytes) => if namesFolder path then .error .unreadable else .ok (some bytes)
      | some .folder => .error .unreadable
      | none => missing (s.placeOf path)

/-- Puts something at a place, whatever stands there. -/
def put (s : FileStore) (names : List String) (node : Node) : FileStore :=
  { s with nodes := s.nodes.insert names node }

/-- Writes a file in a folder that is there. -/
def write (s : FileStore) (path : String) (bytes : List UInt8) : Option FileStore :=
  if s.readOnly || isImpossible path || namesFolder path then none
  else
    let names := s.placeOf path
    if names.getLast?.any isTooLong || s.isFolder names then none
    else if (s.foldersTo path).all s.isFolder then some (s.put names (.file bytes))
    else none

/-- Makes folders, from the outermost on, as far as they are not there.  Says whether all of them
are there in the end. -/
def makeFolders (s : FileStore) : List (List String) → Bool × FileStore
  | [] => (true, s)
  | names :: rest =>
    match s.node? names with
    | some .folder => makeFolders s rest
    | some (.file _) => (false, s)
    | none =>
      if s.readOnly || names.getLast?.any isTooLong then (false, s)
      else makeFolders (s.put names .folder) rest

/-- Makes a folder and those that it stands in. -/
def makeFolder (s : FileStore) (path : String) : Bool × FileStore :=
  if isImpossible path then (false, s)
  else s.makeFolders (s.foldersTo path ++ [s.placeOf path])

/-- Makes the folders that a file stands in, and writes it.  Says whether it was written. -/
def save (s : FileStore) (path : String) (bytes : List UInt8) : Bool × FileStore :=
  match s.makeFolder (folderOf path) with
  | (false, s) => (false, s)
  | (true, s) =>
    match s.write path bytes with
    | some s => (true, s)
    | none => (false, s)

/-- All files, by their names from the root on, with slashes between. -/
def files (s : FileStore) : List (String × List UInt8) :=
  s.nodes.entries.filterMap fun (names, node) =>
    match node with
    | .file bytes => some (String.intercalate "/" names, bytes)
    | .folder => none

/-- The files of `s` that another store does not have, or has with other bytes. -/
def filesBeyond (s other : FileStore) : List (List String × List UInt8) :=
  s.nodes.entries.filterMap fun (names, node) =>
    match node with
    | .file bytes => if other.node? names = some node then none else some (names, bytes)
    | .folder => none

end FileStore

end Adventure.Files
