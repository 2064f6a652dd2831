import Roster.CommandLine.Execute
import Std.Time.DateTime.Timestamp

/-!
# The program

Reads the command line, the clock, the name of the running process and the configuration file,
and prints what the command has to say.  The exit code is 2 for a command line that is not
carried out, and 1 for a command that fails.
-/

namespace Roster
namespace CommandLine

def usage : List String :=
  [ "Registers servers in a registry, settles a unique number for each, and issues unique ids.",
    "",
    "  node [--config FILE] [--ids COUNT] [--once]",
    "  simulate [--nodes COUNT] [--config FILE]",
    "  decode ID",
    "",
    "Options of every command: --verbose, --no-color, --help" ]

def version : String := "0.1.0"

/-! # Surroundings -/

def readContents (path : String) : IO Config.Contents := do
  try return .bytes (← IO.FS.readBinFile path).toList
  catch _ => return .missing

/-- The name of the running process: its number, an at sign, and the name of the host. -/
def runtimeName : IO ServerId.Source := do
  try
    let stat ← IO.FS.readFile "/proc/self/stat"
    let host ← IO.FS.readFile "/proc/sys/kernel/hostname"
    let process := String.ofList (stat.toList.takeWhile Text.isDigit)
    return .name (process ++ "@" ++ host)
  catch e => return .unavailable (toString e)

def currentTime : IO Instant := do
  let now ← Std.Time.Timestamp.now
  return (Instant.ofMillis? now.toMillisecondsSinceUnixEpoch.val).getD .epoch

/-- The surroundings of a command that may read the file under one path. -/
def surroundings (path : Option String) : IO Environment := do
  let contents ←
    match path with
    | some path => readContents path
    | none => pure .missing
  return { source := ← runtimeName, start := ← currentTime, file := fun _ => contents }

/-! # Exit codes -/

def refuse : Refusal → IO UInt32
  | .help => do
      usage.forM IO.println
      return 0
  | .version => do
      IO.println version
      return 0
  | refusal => do
      IO.eprintln s!"error: {refusal.message}"
      return 2

def perform (command : Command) : IO UInt32 := do
  let env ← surroundings command.configPath?
  let (outputs, failure) := execute env command
  (outputs.flatMap Output.lines).forM IO.println
  match failure with
  | none => return 0
  | some failure =>
      IO.eprintln s!"Error: {failure.message}"
      return 1

end CommandLine
end Roster

def main (args : List String) : IO UInt32 :=
  match Roster.CommandLine.parse args with
  | .error refusal => Roster.CommandLine.refuse refusal
  | .ok invocation => Roster.CommandLine.perform invocation.command
