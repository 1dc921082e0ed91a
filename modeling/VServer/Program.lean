/-
The program from its command line to its exit code.

Words that ask for help or for the version are answered, and the server is not started.  Words that
cannot be understood, and settings that cannot be read, end the program with a code of their own.
In every other case the program is the server on its standard streams, and exits with the code that
the session leaves.

`run` says all of this about an input that is known as a whole.
-/
import VServer.Config
import VServer.Server

namespace VServer

open Text (Bytes)

namespace Program

/-- The code of a start that failed. -/
def startupFailure : Nat := 2

/-- The line that tells the version. -/
def versionText : String :=
  Session.serverName ++ " " ++ Journal.serverVersion ++ "\n"

/-- The text that tells how the program is used. -/
def helpText : String :=
  "Usage: vls [OPTIONS]\n\nOptions:\n" ++
  "      --enable <ENABLE>      Features to enable (comma separated)\n" ++
  "      --disable <DISABLE>    Features to disable (comma separated)\n" ++
  "      --debug                Always write a session log file\n" ++
  "      --vroot <DIR>          Root of the V installation\n" ++
  "      --log-path <FILE>      Session log file location\n" ++
  "      --config <FILE>        Extra config file layered over the global one\n" ++
  "      --deterministic-index  Parse the builtin module without populating the symbol index\n" ++
  "  -h, --help                 Print help\n" ++
  "  -V, --version              Print version\n"

/-- How a run of the program ended. -/
structure Outcome where
  code : Nat
  output : Bytes
  disk : Files

/-- What the program does when its flags do not start the server: the code, and what it prints. -/
def onFlagError : FlagError → Nat × String
  | .displayHelp => (0, helpText)
  | .displayVersion => (0, versionText)
  | _ => (startupFailure, "")

/-- The files that settings are read from. -/
def configPaths (words : List String) (env : Environment) : List String :=
  match Flags.parse words with
  | .error _ => []
  | .ok flags => Config.globalPath env :: flags.config.toList

/-- The settings of a run; where there are none, the code to exit with and what to print. -/
def settings (words : List String) (env : Environment) (disk : Files) :
    Except (Nat × String) Settings :=
  match Flags.parse words with
  | .error e => .error (onFlagError e)
  | .ok flags => (Config.load disk env flags).mapError fun _ => (startupFailure, "")

/-- Run the program on an input. -/
def run (words : List String) (env : Environment) (disk : Files) (input : Bytes) : Outcome :=
  match settings words env disk with
  | .error (code, text) => ⟨code, Text.encodeString text, disk⟩
  | .ok settings =>
    let out := Server.serve (Session.new settings env disk) input
    ⟨out.code, out.output, out.session.journal.disk⟩

end Program

end VServer
