import Adventure.CommandLine.Options
import Adventure.SortedMap
import Adventure.Text.Blank
import Adventure.Text.Quoted
import Adventure.World.Input

/-!
# Scheduled input

Taps and choices that are given beforehand, each for one tick: `3,4@10` taps the tile (3, 4) in tick
10, and `1@40` picks row 1 in tick 40.
-/

namespace Adventure.CommandLine

/-- Input by tick; there is none in other ticks. -/
abbrev Schedule := SortedMap Nat Input

/-- The texts of taps or choices. -/
inductive Entry where
  | tap (text : String)
  | choice (text : String)
  deriving DecidableEq, Repr

/-- Why an entry cannot be scheduled. -/
inductive EntryFault where
  | missingTick
  | badTick
  | noPair
  | badX
  | badY
  | badIndex
  /-- The entry is for a tick after the last one. -/
  | tickTooLate (tick last : Nat)
  deriving DecidableEq, Repr

namespace Entry

def text : Entry → String
  | tap text => text
  | choice text => text

/-- The option that the entry was given by. -/
def flag : Entry → String
  | tap _ => "--tap"
  | choice _ => "--choose"

end Entry

def EntryFault.message (entry : Entry) (fault : EntryFault) : String :=
  let quoted := quote entry.text
  match fault with
  | missingTick => entry.flag ++ " " ++ quoted ++ ": missing @TICK"
  | badTick => entry.flag ++ " " ++ quoted ++ ": bad tick"
  | noPair => entry.flag ++ " " ++ quoted ++ ": expected X,Y@TICK"
  | badX => entry.flag ++ " " ++ quoted ++ ": bad x"
  | badY => entry.flag ++ " " ++ quoted ++ ": bad y"
  | badIndex => entry.flag ++ " " ++ quoted ++ ": bad index"
  | tickTooLate tick last =>
    quoted ++ ": tick " ++ toString tick ++ " is past the last frame (" ++ toString last ++ ")"

/-- Reads a number between blanks, or fails with a fault. -/
def readTrimmed {α : Type} (read : String → Except IntegerFault α) (fault : EntryFault)
    (cs : List Char) :
    Except EntryFault α :=
  match read (String.ofList (trimBlanks cs)) with
  | .ok a => .ok a
  | .error _ => .error fault

/-- Splits off the tick after the last at sign. -/
def splitTick (text : String) : Except EntryFault (List Char × Nat) :=
  match splitLast? '@' text.toList with
  | none => .error .missingTick
  | some (value, tick) => (readTrimmed readUInt32 .badTick tick).map fun tick => (value, tick.toNat)

/-- Reads a tile. -/
def readTile (cs : List Char) : Except EntryFault Tile :=
  match splitFirst? ',' cs with
  | none => .error .noPair
  | some (x, y) => do
    let x ← readTrimmed readInt32 .badX x
    let y ← readTrimmed readInt32 .badY y
    return ⟨x, y⟩

/-- What an entry adds to the input of its tick. -/
def Entry.read (entry : Entry) (value : List Char) : Except EntryFault (Input → Input) :=
  match entry with
  | tap _ => (readTile value).map fun tile input =>
      { input with triggered := true, tappedTile := some tile }
  | choice _ => (readTrimmed readUInt64 .badIndex value).map fun row input =>
      { input with choice := some row.toNat }

namespace Schedule

/-- Adds an entry.  Of two taps or two choices in one tick the later one counts. -/
def add (ticks : Nat) (schedule : Schedule) (entry : Entry) : Except EntryFault Schedule := do
  let (value, tick) ← splitTick entry.text
  let change ← entry.read value
  if tick < ticks then
    return SortedMap.insert schedule tick (change ((SortedMap.find? schedule tick).getD .none))
  else .error (.tickTooLate tick (ticks - 1))

/-- Adds entries, up to the first that cannot be. -/
def addAll (ticks : Nat) (schedule : Schedule) : List Entry → Except String Schedule
  | [] => .ok schedule
  | entry :: rest =>
    match schedule.add ticks entry with
    | .ok schedule => addAll ticks schedule rest
    | .error fault => .error (fault.message entry)

/-- The schedule of some options: first the taps, then the choices. -/
def ofOptions (o : Options) : Except String Schedule :=
  if o.ticks = 0 then .error "--ticks must be at least 1"
  else addAll o.ticks .empty (o.taps.map .tap ++ o.choices.map .choice)

/-- The input of a tick. -/
def inputAt (schedule : Schedule) (tick : Nat) : Input := (SortedMap.find? schedule tick).getD .none

end Schedule

end Adventure.CommandLine
