import Adventure.Text.Integer
import Adventure.Text.Split

/-!
# Options

Reads the arguments of the command line.  An option is a name after two dashes with a value, which
follows as the next argument or after an equals sign; what begins with a dash is never a value.  Two
dashes alone end the options.
-/

namespace Adventure.CommandLine

/-- The options with a value. -/
inductive Setting where
  | savePath
  | purchasesPath
  | languagePath
  | pricesPath
  | ticks
  | seed
  | tap
  | choose
  | stateLog
  | eventLog
  | soundLog
  deriving DecidableEq, Repr

namespace Setting

def all : List Setting :=
  [savePath, purchasesPath, languagePath, pricesPath, ticks, seed, tap, choose, stateLog, eventLog,
    soundLog]

/-- The name after the dashes. -/
def name : Setting → String
  | savePath => "save-msgpack-path"
  | purchasesPath => "purchases-json-path"
  | languagePath => "language-json-path"
  | pricesPath => "prices-json-path"
  | ticks => "ticks"
  | seed => "seed"
  | tap => "tap"
  | choose => "choose"
  | stateLog => "state-json"
  | eventLog => "event-log-json"
  | soundLog => "audio-log-json"

/-- What the option is for. -/
def about : Setting → String
  | savePath => "Progress save; resumed when it exists [save.msgpack]"
  | purchasesPath => "List of purchased product keys [purchases.json]"
  | languagePath => "File with the selected language [language.json]"
  | pricesPath => "Display prices by product key [prices.json]"
  | ticks => "Number of frames to run [600]"
  | seed => "Seed of random numbers"
  | tap => "Tap a tile on a frame, as X,Y@TICK (repeatable)"
  | choose => "Pick a displayed choice on a frame, as INDEX@TICK (repeatable)"
  | stateLog => "Where to write the final state of the game"
  | eventLog => "Where to write the events and script errors"
  | soundLog => "Where to write what was to be heard"

/-- Whether the option may be given more than once. -/
def isRepeatable : Setting → Bool
  | tap | choose => true
  | _ => false

/-- Whether a text can be a value of the option: paths are not empty, and numbers fit. -/
def admits (setting : Setting) (value : String) : Bool :=
  match setting with
  | tap | choose => true
  | ticks =>
    match readInt64 value with
    | .ok n => 0 ≤ n.toInt && n.toInt < 0x100000000
    | .error _ => false
  | seed => (readUInt64 value).toOption.isSome
  | savePath | purchasesPath | languagePath | pricesPath => value ≠ ""
  | stateLog | eventLog | soundLog => value ≠ ""

end Setting

/-- The text that explains the arguments. -/
def helpText : String :=
  "Plays an adventure project without a display, with input from a schedule.\n\n" ++
  "Arguments: <PROJECT> [--OPTION <VALUE>]...\n\n" ++
  String.join (Setting.all.map fun s => "  --" ++ s.name ++ ": " ++ s.about ++ "\n") ++
  "  --save-on-exit: Save after the last frame\n  --help: Show this text"

/-- Why there are no options. -/
inductive Stop where
  /-- The arguments are wrong. -/
  | usage
  /-- Help or the version was asked for. -/
  | help
  deriving DecidableEq, Repr

/-- The arguments as far as they have been read. -/
structure Given where
  project : Option String
  /-- The values of options, in order. -/
  values : List (Setting × String)
  saveOnExit : Bool
  deriving DecidableEq, Repr

namespace Given

def none : Given := ⟨.none, [], false⟩

/-- The values of an option, in order. -/
def all (g : Given) (setting : Setting) : List String :=
  g.values.filterMap fun (s, value) => if s = setting then some value else .none

/-- The value of an option. -/
def value? (g : Given) (setting : Setting) : Option String := (g.all setting).head?

/-- Takes the value of an option. -/
def set (g : Given) (setting : Setting) (value : String) : Except Stop Given :=
  if setting.admits value && (setting.isRepeatable || (g.value? setting).isNone) then
    .ok { g with values := g.values ++ [(setting, value)] }
  else .error .usage

/-- Takes the path of the project. -/
def setProject (g : Given) (path : String) : Except Stop Given :=
  if path ≠ "" && g.project.isNone then .ok { g with project := some path } else .error .usage

/-- Takes an option without a value. -/
def setFlag (g : Given) (name : String) : Except Stop Given :=
  if name = "help" || name = "version" then .error .help
  else if name = "save-on-exit" && !g.saveOnExit then .ok { g with saveOnExit := true }
  else .error .usage

end Given

/-- What an argument is by its form. -/
inductive Argument where
  /-- Two dashes alone. -/
  | endOfOptions
  | long (name : String) (value : Option String)
  | short (letters : String)
  | plain (text : String)
  deriving DecidableEq, Repr

/-- Tells arguments apart by the dashes that they begin with. -/
def Argument.ofText (text : String) : Argument :=
  match text.toList with
  | ['-', '-'] => .endOfOptions
  | '-' :: '-' :: rest =>
    match splitFirst? '=' rest with
    | some (name, value) => .long (String.ofList name) (some (String.ofList value))
    | none => .long (String.ofList rest) none
  | '-' :: letter :: rest => .short (String.ofList (letter :: rest))
  | _ => .plain text

/-- Reads arguments.  `open?` is an option that waits for its value, and `ended` says that there are
no more options. -/
def readArguments (g : Given) (open? : Option Setting) (ended : Bool) :
    List String → Except Stop Given
  | [] => if open?.isSome then .error .usage else .ok g
  | text :: rest =>
    match (if ended then Argument.plain text else .ofText text), open? with
    | .endOfOptions, _ => readArguments g open? true rest
    | .plain value, some setting =>
      if ended then .error .usage
      else
        match g.set setting value with
        | .ok g => readArguments g none false rest
        | .error stop => .error stop
    | _, some _ => .error .usage
    | .plain path, none =>
      match g.setProject path with
      | .ok g => readArguments g none ended rest
      | .error stop => .error stop
    | .short letters, none =>
      if letters.startsWith "h" || letters.startsWith "V" then .error .help else .error .usage
    | .long name value, none =>
      match Setting.all.find? fun s => s.name == name, value with
      | some setting, some value =>
        match g.set setting value with
        | .ok g => readArguments g none false rest
        | .error stop => .error stop
      | some setting, none => readArguments g (some setting) false rest
      | none, some _ => .error .usage
      | none, none =>
        match g.setFlag name with
        | .ok g => readArguments g none false rest
        | .error stop => .error stop

/-- What a run is asked to do. -/
structure Options where
  project : String
  savePath : String
  purchasesPath : String
  languagePath : String
  pricesPath : String
  ticks : Nat
  /-- The seed of random numbers; any will do where none is given. -/
  seed : Option UInt64
  taps : List String
  choices : List String
  saveOnExit : Bool
  stateLog : Option String
  eventLog : Option String
  soundLog : Option String
  deriving DecidableEq, Repr

namespace Options

/-- The number of ticks where none is given. -/
def defaultTicks : Nat := 600

/-- Options from arguments, with what stands for those that were not given. -/
def ofGiven (g : Given) : Except Stop Options :=
  match g.project with
  | none => .error .usage
  | some project => .ok
    { project := project
      savePath := (g.value? .savePath).getD "save.msgpack"
      purchasesPath := (g.value? .purchasesPath).getD "purchases.json"
      languagePath := (g.value? .languagePath).getD "language.json"
      pricesPath := (g.value? .pricesPath).getD "prices.json"
      ticks := match g.value? .ticks with
        | none => defaultTicks
        | some n => ((readInt64 n).toOption.map fun n => n.toInt.toNat).getD defaultTicks
      seed := (g.value? .seed).bind fun n => (readUInt64 n).toOption
      taps := g.all .tap
      choices := g.all .choose
      saveOnExit := g.saveOnExit
      stateLog := g.value? .stateLog
      eventLog := g.value? .eventLog
      soundLog := g.value? .soundLog }

/-- Reads the arguments of the command line. -/
def ofArguments (arguments : List String) : Except Stop Options :=
  match readArguments .none none false arguments with
  | .ok g => ofGiven g
  | .error stop => .error stop

end Options

end Adventure.CommandLine
