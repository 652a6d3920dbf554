import FleetRing.CommandLine

/-!
# Carrying out a command line

A command line is carried out on the contents of the configuration file that it
names. The answer is written as indented JSON with its fields sorted by name.
-/

namespace FleetRing

/-- What a command comes to. -/
inductive Answer where
  | config (config : Config)
  | report (report : SimulationReport)
  deriving Repr

/-- The text of an answer; a simulation took `elapsed` milliseconds. -/
def Answer.text (elapsed : Nat) : Answer → String
  | config settings => settings.toSortedJson.pretty
  | report outcome => (outcome.toJson (some elapsed)).pretty

/-- Why a command fails. -/
inductive RunError where
  | config (path : String) (error : ConfigError)
  | simulation (error : SimulationError)
  deriving DecidableEq, Repr

/-- The wording of a failure. -/
def RunError.message : RunError → String
  | config path error => "loading config from " ++ path ++ ": " ++ error.message
  | simulation error => error.message

/-- Carry out a command. -/
def Command.answer (command : Command) (config : Config) (draw : Nat → String) :
    Except SimulationError Answer :=
  match command with
  | .showConfig => .ok (.config config)
  | .simulate args => (Simulation.run config args draw).map .report

namespace CommandLine

/-- The configuration in effect: that of the file named on the command line, of which
`contents` are the bytes if it can be read, or else the default one. -/
def configuration (line : CommandLine) (contents : Option ByteArray) : Except RunError Config :=
  match line.config with
  | none => .ok {}
  | some path =>
    match Config.ofFile contents with
    | .ok config => .ok config
    | .error error => .error (.config path error)

/-- Carry out a command line. -/
def answer (line : CommandLine) (contents : Option ByteArray) (draw : Nat → String) :
    Except RunError Answer :=
  match line.configuration contents with
  | .error error => .error error
  | .ok config =>
    match line.command.answer config draw with
    | .error error => .error (.simulation error)
    | .ok answer => .ok answer

end CommandLine

/-- The exit status of a run that fails; one that had to stop has its own. -/
def RunError.status : RunError → UInt32
  | simulation .tooLarge => 101
  | _ => 1

/-- The exit status after a command line that is not carried out: asking for help or
for the version is no mistake. -/
def UsageError.status : UsageError → UInt32
  | helpWanted | versionWanted => 0
  | _ => 2

/-- The name of the program. -/
def programName : String := "gres"

/-- The name and the version of the program. -/
def programVersion : String := programName ++ " 0.1.0"

/-- How the program is used. -/
def usageText : String :=
  "Usage: " ++ programName ++ " [OPTIONS] <show-config|simulate|help>\n\n" ++
  "Options:\n" ++
  "  -c, --config <PATH>       file that holds the configuration\n" ++
  "      --log-level <LEVEL>   log filter (default: info)\n" ++
  "  -h, --help                explain the program\n" ++
  "  -V, --version             print the version\n\n" ++
  "Options of simulate:\n" ++
  "      --nodes <COUNT>       nodes to create (default: 10000)\n" ++
  "      --clients <COUNT>     clients to register (default: 1)\n" ++
  "      --hosts <COUNT>       hosts that each client asks for (default: 500)\n" ++
  "      --updates <COUNT>     updates to send (default: 1000)"

/-- What is printed for a command line that is not carried out. -/
def UsageError.output : UsageError → String
  | helpWanted => usageText ++ "\n"
  | versionWanted => programVersion ++ "\n"
  | _ => ""

/-- The wording of a mistake on a command line. -/
def UsageError.complaint : UsageError → String
  | helpWanted | versionWanted => ""
  | nothingGiven => usageText
  | commandMissing => "error: a command is missing"
  | unknownCommand => "error: there is no such command"
  | unknownArgument => "error: there is an argument that is not known here"
  | givenTwice => "error: an option is given twice"
  | valueMissing => "error: an option lacks its value"
  | valueUnwanted => "error: an option takes no value"
  | valueInvalid => "error: a value is not a number in range"

end FleetRing
