import Adventure.CommandLine.Run
import Std.Time.DateTime.Timestamp

/-!
# The program

Plays a project by the arguments of the command line, on the files of the machine.  Beforehand it
reads every file that the run can touch into a store, and afterwards it writes back those that the
run has changed.
-/

namespace Adventure.CommandLine

open Files

/-- The path of a place of the machine. -/
def machinePath (names : List String) : String := "/" ++ String.intercalate "/" names

/-- What stands at a place of the machine.  What is there and cannot be read counts as a folder. -/
def nodeOnMachine? (names : List String) : IO (Option Node) := do
  try
    return some (.file (← IO.FS.readBinFile (machinePath names)).toList)
  catch
    | .noFileOrDirectory .. => return none
    | _ => return some .folder

/-- What the machine has on the way to some paths and at their ends. -/
def storeOnMachine (paths : List String) : IO FileStore := do
  let here := place [] (parts (← IO.currentDir).toString)
  let mut store := { FileStore.empty with here := here }
  for path in paths do
    for names in store.foldersTo path ++ [store.placeOf path] do
      if (store.node? names).isNone then
        match ← nodeOnMachine? names with
        | some node => store := store.put names node
        | none => pure ()
  return store

/-- Writes the files that a run has changed, with the folders that they stand in. -/
def writeBack (before after : FileStore) : IO Unit := do
  for (names, bytes) in after.filesBeyond before do
    IO.FS.createDirAll (machinePath names.dropLast)
    IO.FS.writeBinFile (machinePath names) ⟨bytes.toArray⟩

/-- The seconds since the beginning of 1970. -/
def secondsNow : IO Int64 := do
  return Int64.ofInt (← Std.Time.Timestamp.now).toSecondsSinceUnixEpoch.val

/-- Runs the program and gives its exit code. -/
def runOnMachine (arguments : List String) : IO UInt32 := do
  let paths := match Options.ofArguments arguments with
    | .ok o => o.paths
    | .error _ => []
  let store ← storeOnMachine paths
  let anySeed := (← IO.getRandomBytes 8).toList.foldl (fun n byte => n * 256 + byte.toUInt64) 0
  let (ending, record) := run arguments store anySeed (← secondsNow)
  for line in record.lines do
    IO.println line
  writeBack store record.store
  match ending with
  | .finished => return 0
  | .failed message =>
    IO.eprintln ("Error: " ++ message)
    return 1
  | .stopped .help =>
    IO.println helpText
    return 0
  | .stopped .usage =>
    IO.eprintln helpText
    return 2

end Adventure.CommandLine

/-- Plays a project by the arguments of the command line. -/
def main (arguments : List String) : IO UInt32 := Adventure.CommandLine.runOnMachine arguments
