/-
Where settings come from.

Settings are the usual ones, under the file of the user, under a file named on the command line,
under variables of the environment, under the flags.  Each source decides only what it sets.

A file of the user that is missing decides nothing, and a file that the command line names has to
be there.  A file that cannot be understood is an error and not a file without settings, and so is
a variable that is neither yes nor no; the program does not start on settings it had to guess.
-/
import VServer.Files
import VServer.Text.Blank
import VServer.Config.Layer
import VServer.Config.Flags

namespace VServer

/-- Why there are no settings. -/
inductive ConfigError where
  /-- A file says something that cannot be understood. -/
  | unparsable (path : String)
  | noOverlay (path : String)
  /-- A variable is no switch. -/
  | notBoolean (name value : String)
  | unreadable (error : FileError)
deriving DecidableEq, Repr

namespace ConfigError

/-- The error in words. -/
def message : ConfigError → String
  | unparsable path => "Config parse error in " ++ path
  | noOverlay path => "Invalid value for 'config': Config file does not exist: " ++ path
  | notBoolean name value =>
    "Invalid value for '" ++ name ++ "': expected a boolean, got '" ++ value ++ "'"
  | unreadable e => e.message

end ConfigError

namespace Config

/-- The path of the user's file. -/
def globalPath (env : Environment) : String :=
  let base :=
    match env.get? "XDG_CONFIG_HOME" with
    | some dir => dir
    | none =>
      match env.home? with
      | some home => Path.join home ".config"
      | none => "."
  Path.join (Path.join base "vls") "config.toml"

/-- The layer of a file; a file that is missing has none. -/
def readLayer (files : Files) (path : String) : Except ConfigError (Option Layer) :=
  if files.pathExists path then
    match files.readText path with
    | .error e => .error (.unreadable e)
    | .ok text =>
      match Layer.parse text with
      | some layer => .ok (some layer)
      | none => .error (.unparsable path)
  else .ok none

/-- Settings under a layer, if there is one. -/
def under (layer : Option Layer) (s : Settings) : Settings :=
  match layer with
  | some layer => layer.apply s
  | none => s

/-- The layer of the file that the command line names; it has to be there. -/
def readOverlay (files : Files) : Option String → Except ConfigError (Option Layer)
  | none => .ok none
  | some path => if files.pathExists path then readLayer files path else .error (.noOverlay path)

/-- The truth value of a variable: small and capital letters are the same, blanks around it do not
matter, and nothing means no. -/
def readSwitch? (value : String) : Option Bool :=
  let word := String.ofList ((Text.trim value.toList).map Char.toLower)
  if ["1", "true", "yes", "on"].contains word then some true
  else if ["0", "false", "no", "off", ""].contains word then some false
  else none

/-- Settings under the variables of the environment. -/
def underEnvironment (env : Environment) (s : Settings) : Except ConfigError Settings :=
  let debug : Except ConfigError Bool :=
    match env.get? "VLS_DEBUG" with
    | none => .ok s.debug
    | some value =>
      match readSwitch? value with
      | some b => .ok b
      | none => .error (.notBoolean "VLS_DEBUG" value)
  let filled (name : String) : Option String := (env.get? name).filter fun v => !v.isEmpty
  debug.map fun debug =>
    { s with
      debug
      vroot := (filled "VROOT").or s.vroot
      logPath := (filled "VLS_LOG_PATH").or s.logPath }

/-- The settings for a command line. -/
def load (files : Files) (env : Environment) (flags : Flags) : Except ConfigError Settings := do
  let base ← readLayer files (globalPath env)
  let overlay ← readOverlay files flags.config
  let s ← underEnvironment env (under overlay (under base {}))
  .ok (flags.apply s)

end Config

end VServer
