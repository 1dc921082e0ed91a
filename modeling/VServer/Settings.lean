/-
Settings of the server, and the surroundings it runs in.

Settings are put together once, when the program starts, and a session never changes them.  The
environment is a value as well: the variables that matter are looked at before the session begins.
-/
import VServer.Feature
import VServer.Path

namespace VServer

open Json (Decoder)

/-- Whether the symbols of the built-in module are collected. -/
inductive IndexingMode where
  | production
  /-- Files are read, and no symbols are collected. -/
  | deterministic
deriving DecidableEq, Repr

namespace IndexingMode

/-- The name of a mode. -/
def name : IndexingMode → String
  | production => "production"
  | deterministic => "deterministic"

/-- The modes by name. -/
def byName : List (String × IndexingMode) :=
  [production, deterministic].map fun m => (m.name, m)

/-- A mode as JSON. -/
def toJson (m : IndexingMode) : Json := .string m.name

/-- A mode from JSON. -/
def decode : Decoder IndexingMode := Decoder.variant byName

end IndexingMode

/-- Settings of the server. -/
structure Settings where
  features : FeatureSet := FeatureSet.full
  /-- Keep a journal file, whatever the client asks for. -/
  debug : Bool := false
  logPath : Option String := none
  /-- The directory that V is installed in. -/
  vroot : Option String := none
  indexing : IndexingMode := .production
  targetOs : Option String := none

namespace Settings

/-- Settings as JSON. -/
def toJson (s : Settings) : Json :=
  .object [("features", s.features.toJson), ("debug", .bool s.debug),
    ("log_path", .ofOption .string s.logPath), ("vroot", .ofOption .string s.vroot),
    ("indexing", s.indexing.toJson), ("target_os", .ofOption .string s.targetOs)]

/-- Settings from JSON. -/
def decode : Decoder Settings :=
  Decoder.record "VlsConfig"
    [Decoder.slot "features" .defaulted FeatureSet.decode fun s v => { s with features := v },
      Decoder.slot "debug" .defaulted Decoder.bool fun s v => { s with debug := v },
      Decoder.slot "log_path" .defaulted (Decoder.option Decoder.path) fun s v =>
        { s with logPath := v },
      Decoder.slot "vroot" .defaulted (Decoder.option Decoder.path) fun s v =>
        { s with vroot := v },
      Decoder.slot "indexing" .defaulted IndexingMode.decode fun s v => { s with indexing := v },
      Decoder.slot "target_os" .defaulted (Decoder.option Decoder.string) fun s v =>
        { s with targetOs := v }]
    {}

end Settings

/-- The variables that a program is started with. -/
structure Environment where
  bindings : List (String × String) := []

namespace Environment

/-- The value of a variable. -/
def get? (env : Environment) (name : String) : Option String :=
  env.bindings.lookup name

/-- The home directory, as the variable for it tells.  Where the variable is missing or empty, an
operating system may still know a home directory for the user; its list of users is no part of the
environment here, and then there is none. -/
def home? (env : Environment) : Option String :=
  (env.get? "HOME").filter fun h => !h.isEmpty

/-- The directory for temporary files. -/
def temporary (env : Environment) : String :=
  (env.get? "TMPDIR").getD "/tmp"

end Environment

/-- The path of the journal file: as it is set, or in the home directory. -/
def Settings.journalPath (s : Settings) (env : Environment) : String :=
  match s.logPath with
  | some path => path
  | none =>
    match env.home? with
    | some home => Path.join (Path.join home ".vls") "vls.log"
    | none => Path.join env.temporary "vls.log"

end VServer
