import FleetRing.Simulation
import FleetRing.Text.Numeral

/-!
# Command lines

A command line consists of general options, a command, and options of that
command. General options may stand in front of the command and behind it; of
the two the one behind it counts. An option that takes a value may have it
attached with `=`, or as the next argument, whatever that is as long as it does
not look like an option. Such a value is looked at only when the next option or
the end of the line is reached, so a fault in between is reported first.
-/

namespace FleetRing

/-- What to do. -/
inductive Command where
  /-- Print the configuration in effect. -/
  | showConfig
  /-- Run a simulation and print its report. -/
  | simulate (args : SimulationArgs)
  deriving DecidableEq, Repr

/-- A command line. -/
structure CommandLine where
  /-- The path of the configuration file. -/
  config : Option String
  logLevel : String
  command : Command
  deriving DecidableEq, Repr

/-- Why a command line is not carried out. -/
inductive UsageError where
  | helpWanted
  | versionWanted
  /-- Nothing is given at all. -/
  | nothingGiven
  | commandMissing
  | unknownCommand
  | unknownArgument
  /-- An option is given twice in one place. -/
  | givenTwice
  /-- An option lacks its value, or the value is empty and may not be. -/
  | valueMissing
  /-- A value is attached to an option that takes none. -/
  | valueUnwanted
  /-- A value is not a number that the option takes. -/
  | valueInvalid
  deriving DecidableEq, Repr

namespace CommandLine

/-- Where an argument stands: in front of the command, or behind one. -/
inductive Level where
  | front
  | showConfig
  | simulate
  deriving DecidableEq, Repr

/-- Options that take a value. -/
inductive Setting where
  | config
  | logLevel
  | nodes
  | clients
  | hosts
  | updates
  deriving DecidableEq, Repr

/-- What the name of an option stands for. -/
inductive Meaning where
  | setting (setting : Setting)
  | help
  | version
  deriving DecidableEq, Repr

/-- The meaning of a long option at a level. -/
def longMeaning? (level : Level) (name : String) : Option Meaning :=
  match name, level with
  | "config", _ => some (.setting .config)
  | "log-level", _ => some (.setting .logLevel)
  | "help", _ => some .help
  | "version", .front => some .version
  | "nodes", .simulate => some (.setting .nodes)
  | "clients", .simulate => some (.setting .clients)
  | "hosts", .simulate => some (.setting .hosts)
  | "updates", .simulate => some (.setting .updates)
  | _, _ => none

/-- The meaning of an option letter at a level. -/
def letterMeaning? (level : Level) (letter : Char) : Option Meaning :=
  match letter, level with
  | 'c', _ => some (.setting .config)
  | 'h', _ => some .help
  | 'V', .front => some .version
  | _, _ => none

/-- What an argument looks like. -/
inductive Form where
  /-- Two dashes alone: no options follow. -/
  | divider
  /-- A long option and the value attached to it. -/
  | long (name : String) (attached : Option String)
  /-- An option letter and what directly follows it. -/
  | letter (letter : Char) (rest : List Char)
  | plain
  deriving DecidableEq, Repr

/-- What an argument looks like. -/
def Form.of (arg : String) : Form :=
  match arg.toList with
  | ['-', '-'] => .divider
  | '-' :: '-' :: rest =>
    match rest.dropWhile (· ≠ '=') with
    | [] => .long (String.ofList rest) none
    | _ :: attached =>
      .long (String.ofList (rest.takeWhile (· ≠ '='))) (some (String.ofList attached))
  | '-' :: first :: rest => .letter first rest
  | _ => .plain

/-- The value in what directly follows an option letter; one `=` may divide them. -/
def letterValue? : List Char → Option String
  | [] => none
  | '=' :: rest => some (String.ofList rest)
  | rest => some (String.ofList rest)

/-- The values given at one level. -/
structure Settings where
  config : Option String := none
  logLevel : Option String := none
  nodes : Option UInt64 := none
  clients : Option UInt64 := none
  hosts : Option UInt64 := none
  updates : Option UInt64 := none
  deriving DecidableEq, Repr

/-- Set a value that is not set yet. -/
def settle {α : Type} (current : Option α) (value : Except UsageError α) :
    Except UsageError (Option α) :=
  match current with
  | some _ => .error .givenTwice
  | none => value.map some

/-- The path in a value: any text but the empty one. -/
def path (value : String) : Except UsageError String :=
  if value = "" then .error .valueMissing else .ok value

/-- The number in a value. -/
def number (value : String) : Except UsageError UInt64 :=
  match Text.word? value with
  | some number => .ok number
  | none => .error .valueInvalid

/-- Take in a value of a setting. -/
def Settings.set (settings : Settings) (setting : Setting) (value : String) :
    Except UsageError Settings :=
  match setting with
  | .config =>
    (settle settings.config (path value)).map fun config => { settings with config }
  | .logLevel =>
    (settle settings.logLevel (.ok value)).map fun logLevel => { settings with logLevel }
  | .nodes => (settle settings.nodes (number value)).map fun nodes => { settings with nodes }
  | .clients =>
    (settle settings.clients (number value)).map fun clients => { settings with clients }
  | .hosts => (settle settings.hosts (number value)).map fun hosts => { settings with hosts }
  | .updates =>
    (settle settings.updates (number value)).map fun updates => { settings with updates }

/-- How far the arguments of a level are read: the values taken in, and a setting
that is not taken in yet, with its value if that was met. -/
structure Progress where
  settings : Settings := {}
  waiting : Option (Setting × Option String) := none
  deriving DecidableEq, Repr

namespace Progress

/-- The setting whose value is the next argument. -/
def awaiting? (progress : Progress) : Option Setting :=
  match progress.waiting with
  | some (setting, none) => some setting
  | _ => none

/-- Take in the setting that waits for it. -/
def settled (progress : Progress) : Except UsageError Settings :=
  match progress.waiting with
  | none => .ok progress.settings
  | some (_, none) => .error .valueMissing
  | some (setting, some value) => progress.settings.set setting value

/-- Meet an option with the value attached to it. -/
def meet (progress : Progress) (meaning : Meaning) (attached : Option String) :
    Except UsageError Progress :=
  match progress.settled with
  | .error error => .error error
  | .ok settings =>
    match meaning, attached with
    | .help, _ => .error .helpWanted
    | .version, _ => .error .versionWanted
    | .setting setting, none => .ok { settings, waiting := some (setting, none) }
    | .setting setting, some value =>
      (settings.set setting value).map fun settings => { settings }

/-- Meet a long option with the value attached to it. -/
def meetLong (level : Level) (progress : Progress) (name : String) (attached : Option String) :
    Except UsageError Progress :=
  match longMeaning? level name, attached with
  | none, _ => .error .unknownArgument
  | some .help, some _ | some .version, some _ => .error .valueUnwanted
  | some meaning, attached => progress.meet meaning attached

/-- Meet an option letter and what directly follows it. -/
def meetLetter (level : Level) (progress : Progress) (letter : Char) (rest : List Char) :
    Except UsageError Progress :=
  match letterMeaning? level letter with
  | none => .error .unknownArgument
  | some meaning => progress.meet meaning (letterValue? rest)

end Progress

/-- The fault in an argument that stands where none is wanted; nothing but a command
can stand in front of the command. -/
def strayFault : Level → UsageError
  | .front => .unknownCommand
  | .showConfig | .simulate => .unknownArgument

/-- Take in one argument that is not the divider. -/
def Progress.step (level : Level) (progress : Progress) (arg : String) :
    Except UsageError Progress :=
  match Form.of arg, progress.awaiting? with
  | .long name attached, _ => progress.meetLong level name attached
  | .letter letter rest, _ => progress.meetLetter level letter rest
  | _, some setting => .ok { progress with waiting := some (setting, some arg) }
  | _, none => .error (strayFault level)

/-- Read the arguments behind a command. -/
def readBehind (level : Level) (progress : Progress) : List String → Except UsageError Settings
  | [] => progress.settled
  | arg :: rest =>
    if Form.of arg = .divider then
      match rest with
      | [] => progress.settled
      | _ :: _ => .error (strayFault level)
    else
      match progress.step level arg with
      | .error error => .error error
      | .ok progress => readBehind level progress rest

/-- A word that stands for a command: one with a level of its own, or the request
to explain commands. -/
inductive Keyword where
  | run (level : Level)
  | help
  deriving DecidableEq, Repr

/-- The command that a word stands for. -/
def keyword? : String → Option Keyword
  | "show-config" => some (.run .showConfig)
  | "simulate" => some (.run .simulate)
  | "help" => some .help
  | _ => none

/-- The answer to a request to explain the command that the arguments name; no
arguments stand for the program itself. -/
def explanation : List String → UsageError
  | [] => .helpWanted
  | [name] => if (keyword? name).isSome then .helpWanted else .unknownCommand
  | _ => .unknownCommand

/-- The answer to a command line without a command. -/
def withoutCommand (progress : Progress) : UsageError :=
  match progress.settled with
  | .error error => error
  | .ok settings => if settings = {} then .nothingGiven else .commandMissing

/-- Put together what is given in front of a command and behind it. -/
def assemble (level : Level) (front behind : Settings) : CommandLine :=
  let default : SimulationArgs := {}
  let figure (value : Option UInt64) (otherwise : Nat) : Nat :=
    match value with
    | some value => value.toNat
    | none => otherwise
  { config := behind.config.or front.config
    logLevel := (behind.logLevel.or front.logLevel).getD "info"
    command :=
      match level with
      | .front | .showConfig => .showConfig
      | .simulate => .simulate {
          nodes := figure behind.nodes default.nodes
          clients := figure behind.clients default.clients
          hosts := figure behind.hosts default.hosts
          updates := figure behind.updates default.updates } }

/-- Read the arguments up to the command, and then those behind it. A fault behind
the command is reported before one of a setting that waits in front of it. -/
def readFront (progress : Progress) : List String → Except UsageError CommandLine
  | [] => .error (withoutCommand progress)
  | arg :: rest =>
    match progress.awaiting?, keyword? arg with
    | none, some .help => .error (explanation rest)
    | none, some (.run level) =>
      match readBehind level {} rest, progress.settled with
      | .error error, _ | .ok _, .error error => .error error
      | .ok behind, .ok front => .ok (assemble level front behind)
    | _, _ =>
      if Form.of arg = .divider then
        match rest with
        | [] => .error (withoutCommand progress)
        | word :: _ =>
          .error (if (keyword? word).isSome then .unknownArgument else .unknownCommand)
      else
        match progress.step .front arg with
        | .error error => .error error
        | .ok progress => readFront progress rest

/-- Read a command line, which starts with the name of the program. -/
def ofArgs (args : List String) : Except UsageError CommandLine :=
  readFront {} args.tail

end CommandLine

end FleetRing
