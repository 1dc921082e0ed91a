/-
The command line.

Words are looked at from left to right.  A value that follows its option as a word of its own is
examined only when the next option is met, or at the end; a word that cannot be understood at all
is reported before that.

Switches and paths may be given once, lists of features any number of times.  The first error that
is met is the one that is reported, and a request for help or for the version counts as one: it is
answered only if everything in front of it can be used.
-/
import VServer.Settings

namespace VServer

/-- What the command line asks for. -/
structure Flags where
  enable : List Feature := []
  disable : List Feature := []
  debug : Bool := false
  vroot : Option String := none
  logPath : Option String := none
  config : Option String := none
  deterministicIndex : Bool := false
deriving DecidableEq, Repr

/-- Why the command line does not start the server. -/
inductive FlagError where
  | unknownArgument
  | invalidValue
  | argumentConflict
  | tooManyValues
  | displayHelp
  | displayVersion
deriving DecidableEq, Repr

namespace Flags

/-- Settings under the flags.  Switching a feature off wins over switching it on. -/
def apply (flags : Flags) (s : Settings) : Settings where
  features :=
    flags.disable.foldl FeatureSet.disable (flags.enable.foldl FeatureSet.enable s.features)
  debug := flags.debug || s.debug
  logPath := flags.logPath.or s.logPath
  vroot := flags.vroot.or s.vroot
  indexing := if flags.deterministicIndex then .deterministic else s.indexing
  targetOs := s.targetOs

/-- Options that take a value. -/
inductive ValueOption where
  | enable
  | disable
  | vroot
  | logPath
  | config
deriving DecidableEq, Repr

/-- What a long option can be. -/
inductive LongOption where
  | value (option : ValueOption)
  | debug
  | deterministicIndex
  | help
  | version
deriving DecidableEq, Repr

/-- The long options by name. -/
def longOptions : List (String × LongOption) :=
  [("enable", .value .enable), ("disable", .value .disable), ("vroot", .value .vroot),
    ("log-path", .value .logPath), ("config", .value .config), ("debug", .debug),
    ("deterministic-index", .deterministicIndex), ("help", .help), ("version", .version)]

/-- The features of a list with commas. -/
def featureList (value : String) : Except FlagError (List Feature) :=
  let names := (Path.splitOnChar ',' value.toList).map String.ofList
  names.foldr
    (fun name rest =>
      match rest, Feature.ofName? name with
      | .ok fs, some f => .ok (f :: fs)
      | _, _ => .error .invalidValue)
    (.ok [])

/-- A path for an option that may be given once. -/
def single (old : Option String) (value : String) : Except FlagError (Option String) :=
  if old.isSome then .error .argumentConflict
  else if value.isEmpty then .error .invalidValue
  else .ok (some value)

/-- Take the value of an option. -/
def store (flags : Flags) (option : ValueOption) (value : String) : Except FlagError Flags :=
  match option with
  | .enable => (featureList value).map fun fs => { flags with enable := flags.enable ++ fs }
  | .disable => (featureList value).map fun fs => { flags with disable := flags.disable ++ fs }
  | .vroot => (single flags.vroot value).map fun v => { flags with vroot := v }
  | .logPath => (single flags.logPath value).map fun v => { flags with logPath := v }
  | .config => (single flags.config value).map fun v => { flags with config := v }

/-- An option whose value has not been examined. -/
inductive Pending where
  | nothing
  | awaiting (option : ValueOption)
  | holding (option : ValueOption) (value : String)
deriving DecidableEq, Repr

/-- Words read so far. -/
structure Scan where
  flags : Flags := {}
  pending : Pending := .nothing
  /-- Whether a word of two dashes has been met. -/
  closed : Bool := false
deriving DecidableEq, Repr

/-- Examine the value that waits. -/
def settle (s : Scan) : Except FlagError Scan :=
  match s.pending with
  | .nothing => .ok s
  | .awaiting _ => .error .invalidValue
  | .holding option value =>
    (s.flags.store option value).map fun flags => { s with flags, pending := .nothing }

/-- Switch something on that may be switched on once. -/
def switchOn (old : Bool) : Except FlagError Bool :=
  if old then .error .argumentConflict else .ok true

/-- Take a long option, with the value behind its equals sign if there is one. -/
def takeLong (s : Scan) (name : String) (value : Option String) : Except FlagError Scan :=
  match longOptions.lookup name, value with
  | none, _ => .error .unknownArgument
  | some (.value option), some value => do
    let s ← settle s
    let flags ← s.flags.store option value
    .ok { s with flags }
  | some (.value option), none => do
    let s ← settle s
    .ok { s with pending := .awaiting option }
  | some _, some _ => .error .tooManyValues
  | some .debug, none => do
    let s ← settle s
    let debug ← switchOn s.flags.debug
    .ok { s with flags := { s.flags with debug } }
  | some .deterministicIndex, none => do
    let s ← settle s
    let deterministicIndex ← switchOn s.flags.deterministicIndex
    .ok { s with flags := { s.flags with deterministicIndex } }
  | some .help, none => do
    let _ ← settle s
    .error .displayHelp
  | some .version, none => do
    let _ ← settle s
    .error .displayVersion

/-- Take short options, of which only the first can matter. -/
def takeShort (s : Scan) (c : Char) : Except FlagError Scan :=
  if c = 'h' then do
    let _ ← settle s
    .error .displayHelp
  else if c = 'V' then do
    let _ ← settle s
    .error .displayVersion
  else .error .unknownArgument

/-- A long option cut at its equals sign. -/
def cutEquals (cs : List Char) : String × Option String :=
  let name := String.ofList (cs.takeWhile (· != '='))
  match cs.dropWhile (· != '=') with
  | [] => (name, none)
  | _ :: value => (name, some (String.ofList value))

/-- Take a word that is no option. -/
def takePlain (s : Scan) (word : String) : Except FlagError Scan :=
  match s.pending with
  | .awaiting option => .ok { s with pending := .holding option word }
  | _ => .error .unknownArgument

/-- Take one word. -/
def takeWord (s : Scan) (word : String) : Except FlagError Scan :=
  if s.closed then .error .unknownArgument
  else
    match word.toList with
    | '-' :: '-' :: [] => .ok { s with closed := true }
    | '-' :: '-' :: rest =>
      let (name, value) := cutEquals rest
      takeLong s name value
    | '-' :: c :: _ => takeShort s c
    | _ => takePlain s word

/-- Take words one after another. -/
def takeWords (s : Scan) : List String → Except FlagError Scan
  | [] => .ok s
  | word :: words =>
    match takeWord s word with
    | .error e => .error e
    | .ok s => takeWords s words

/-- The flags of a command line. -/
def parse (words : List String) : Except FlagError Flags := do
  let s ← takeWords {} words
  let s ← settle s
  .ok s.flags

end Flags

end VServer
