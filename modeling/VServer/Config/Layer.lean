/-
Layers of settings.

A layer sets some of the settings and leaves the others to the layer below.  A document with a key
that is no setting, or with a value of the wrong kind, is no layer.

Layers are put over settings one after another, and the last one to set something decides it.  A
value that is one of some names can be written as a text, or as a table with that name as its only
key.
-/
import VServer.Settings
import VServer.Toml.Read

namespace VServer

/-- Settings of which each can be left open. -/
structure Layer where
  features : Option FeatureSet := none
  debug : Option Bool := none
  logPath : Option String := none
  vroot : Option String := none
  indexing : Option IndexingMode := none
  targetOs : Option String := none

namespace Layer

/-- Settings under a layer. -/
def apply (layer : Layer) (s : Settings) : Settings where
  features := layer.features.getD s.features
  debug := layer.debug.getD s.debug
  logPath := layer.logPath.or s.logPath
  vroot := layer.vroot.or s.vroot
  indexing := layer.indexing.getD s.indexing
  targetOs := layer.targetOs.or s.targetOs

/-- Whether a value says nothing. -/
def isVoid : Toml → Bool
  | .array items => items.isEmpty
  | .inline entries => entries.isEmpty
  | .table _ entries => entries.isEmpty
  | .tables items => items.isEmpty
  | _ => false

/-- The only entry of a table, if its value says nothing. -/
def loneKey? : Toml.Entries → Option String
  | [(key, value)] => if isVoid value then some key else none
  | _ => none

/-- The name that a value gives: a text, or the only key of a table that says nothing else. -/
def nameOf? : Toml → Option String
  | .text s => some s
  | .inline entries => loneKey? entries
  | .table _ entries => loneKey? entries
  | _ => none

/-- One of some values by name. -/
def named? {α : Type} (known : List (String × α)) (value : Toml) : Option α :=
  match nameOf? value with
  | some name => known.lookup name
  | none => none

/-- A text. -/
def text? : Toml → Option String
  | .text s => some s
  | _ => none

/-- A switch. -/
def boolean? : Toml → Option Bool
  | .boolean b => some b
  | _ => none

/-- The features of a list. -/
def featureList? : List Toml → Option (List Feature)
  | [] => some []
  | value :: values => do
    let f ← named? Feature.byName value
    let fs ← featureList? values
    some (f :: fs)

/-- A set of features. -/
def features? : Toml → Option FeatureSet
  | .array items => (featureList? items).map FeatureSet.ofList
  | .tables newestFirst =>
    (featureList? (newestFirst.reverse.map (Toml.table .header))).map FeatureSet.ofList
  | _ => none

/-- The layer with one more entry of a document. -/
def set? (layer : Layer) (key : String) (value : Toml) : Option Layer :=
  if key = "features" then (features? value).map fun v => { layer with features := some v }
  else if key = "debug" then (boolean? value).map fun v => { layer with debug := some v }
  else if key = "log_path" then (text? value).map fun v => { layer with logPath := some v }
  else if key = "vroot" then (text? value).map fun v => { layer with vroot := some v }
  else if key = "indexing" then
    (named? IndexingMode.byName value).map fun v => { layer with indexing := some v }
  else if key = "target_os" then (text? value).map fun v => { layer with targetOs := some v }
  else none

/-- The layer of the entries of a document. -/
def ofEntries (layer : Layer) : Toml.Entries → Option Layer
  | [] => some layer
  | (key, value) :: entries =>
    match layer.set? key value with
    | some layer => ofEntries layer entries
    | none => none

/-- The layer of a document. -/
def parse (text : List Char) : Option Layer :=
  match Toml.read text with
  | some entries => ofEntries {} entries
  | none => none

end Layer

end VServer
