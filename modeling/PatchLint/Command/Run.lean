import PatchLint.Command.Check
import PatchLint.Command.ListRules

/-!
# Running a command

What the tool does when it is called with some arguments.
-/

namespace PatchLint.Command

/-- The exit code for arguments that make no sense. -/
def usageCode : Nat := 2

/-- The name and version of the tool. -/
def versionLine : String := "modcheck 0.3.0\n"

/-- How the tool is called. -/
def usage : String :=
  "Code quality checker for C# Harmony game mods\n\n" ++
    "Usage: modcheck [OPTIONS] <COMMAND>\n\n" ++
    "Commands:\n" ++
    "  check [PATH]  Check C# sources and write a result file\n" ++
    "  list-rules    List available rules\n\n" ++
    "Options of every command:\n" ++
    "  -v, --verbose  Enable verbose output\n" ++
    "  -h, --help     Print help\n\n" ++
    "Options of check:\n" ++
    "  -c, --config <CONFIG>          Path to configuration file\n" ++
    "      --heuristic                Never build syntax trees\n" ++
    "      --no-write                 Do not write or prune result files\n" ++
    "  -o, --output-dir <OUTPUT_DIR>  Directory for result files\n" ++
    "  -f, --format <FORMAT>          Output format: text, json\n" ++
    "  -e, --exclude <EXCLUDE>        Exclude pattern, may be repeated\n"

/-- What is done when there is no command to run. -/
def interrupted (fs : FileSystem) : Interruption → Outcome
  | .misuse error => { remarks := [error.message], exitCode := usageCode, files := fs }
  | .help => { body := usage, exitCode := 0, files := fs }
  | .version => { body := versionLine, exitCode := 0, files := fs }

/-- Run a command. -/
def run (environment : Environment) : Command → Outcome
  | .check options => Check.run environment options
  | .listRules => { body := ListRules.render, exitCode := 0, files := environment.files }

/-- Do what the arguments ask for. -/
def runArguments (environment : Environment) (arguments : List Text) : Outcome :=
  match Command.ofArguments arguments with
  | .ok command => run environment command
  | .error interruption => interrupted environment.files interruption

end PatchLint.Command
