import FleetRing.CommandLine.Run
import FleetRing.Distributor.ClientId

/-!
# The program

Reads the command line and the configuration file, draws the seed of client
ids, and prints the answer. Everything else is `CommandLine.answer`.
-/

namespace FleetRing

/-- The contents of the file that a command line names, if it can be read. -/
def readContents (line : CommandLine) : IO (Option ByteArray) :=
  match line.config with
  | none => pure none
  | some path => try some <$> IO.FS.readBinFile path catch _ => pure none

/-- Print what a command line comes to, and return the exit status. -/
def serve (args : List String) : IO UInt32 := do
  match CommandLine.ofArgs (programName :: args) with
  | .error error =>
    IO.print error.output
    if error.status != 0 then IO.eprintln error.complaint
    return error.status
  | .ok line =>
    let contents ← readContents line
    let seed ← IO.getRandomBytes 16
    let started ← IO.monoMsNow
    match line.answer contents (ClientId.draw seed) with
    | .error error =>
      IO.eprintln ("Error: " ++ error.message)
      return error.status
    | .ok answer =>
      let ended ← IO.monoMsNow
      IO.println (answer.text (ended - started))
      return 0

end FleetRing

/-- Run the program on the arguments that follow its name. -/
def main (args : List String) : IO UInt32 :=
  FleetRing.serve args
