/-
Language features.

A feature is something that an editor may ask for.  A set of features says of each one whether it
is on; where it is listed, the features stand in their own order.
-/
import VServer.Json.Decode

namespace VServer

open Json (Decoder)

/-- What an editor may ask for. -/
inductive Feature where
  | completion
  | hover
  | definition
  | foldingRange
  | documentSymbol
  | workspaceSymbol
  | formatting
  | signatureHelp
deriving DecidableEq, Repr

namespace Feature

/-- All features in order. -/
def all : List Feature :=
  [completion, hover, definition, foldingRange, documentSymbol, workspaceSymbol, formatting,
    signatureHelp]

theorem mem_all (f : Feature) : f ∈ all := by
  cases f <;> decide

/-- The name of a feature. -/
def name : Feature → String
  | completion => "completion"
  | hover => "hover"
  | definition => "definition"
  | foldingRange => "folding_range"
  | documentSymbol => "document_symbol"
  | workspaceSymbol => "workspace_symbol"
  | formatting => "formatting"
  | signatureHelp => "signature_help"

/-- The features by name. -/
def byName : List (String × Feature) :=
  all.map fun f => (f.name, f)

/-- The feature with this name. -/
def ofName? (name : String) : Option Feature :=
  byName.lookup name

/-- A feature as JSON. -/
def toJson (f : Feature) : Json := .string f.name

/-- A feature from JSON. -/
def decode : Decoder Feature := Decoder.variant byName

end Feature

/-- Which features are on. -/
structure FeatureSet where
  contains : Feature → Bool

namespace FeatureSet

@[ext] theorem ext_contains {s t : FeatureSet} (h : ∀ f, s.contains f = t.contains f) : s = t := by
  cases s; cases t; simpa [FeatureSet.mk.injEq, funext_iff] using h

/-- No feature. -/
def empty : FeatureSet := ⟨fun _ => false⟩

/-- Every feature. -/
def full : FeatureSet := ⟨fun _ => true⟩

instance : Inhabited FeatureSet := ⟨full⟩

/-- Switch a feature on. -/
def enable (s : FeatureSet) (f : Feature) : FeatureSet :=
  ⟨fun g => decide (g = f) || s.contains g⟩

/-- Switch a feature off. -/
def disable (s : FeatureSet) (f : Feature) : FeatureSet :=
  ⟨fun g => !decide (g = f) && s.contains g⟩

@[simp] theorem contains_enable (s : FeatureSet) (f g : Feature) :
    (s.enable f).contains g = (decide (g = f) || s.contains g) := rfl

@[simp] theorem contains_disable (s : FeatureSet) (f g : Feature) :
    (s.disable f).contains g = (!decide (g = f) && s.contains g) := rfl

/-- The features that are on, in order. -/
def toList (s : FeatureSet) : List Feature :=
  Feature.all.filter s.contains

theorem mem_toList {s : FeatureSet} {f : Feature} : f ∈ s.toList ↔ s.contains f = true := by
  simp [toList, Feature.mem_all]

/-- The set of the listed features. -/
def ofList (fs : List Feature) : FeatureSet :=
  ⟨fun g => fs.contains g⟩

/-- A set of features as JSON. -/
def toJson (s : FeatureSet) : Json :=
  .array (s.toList.map Feature.toJson)

/-- A set of features from JSON. -/
def decode : Decoder FeatureSet := fun value =>
  (Decoder.list Feature.decode value).map ofList

end FeatureSet

end VServer
