/-
What the server offers.

The capabilities of a server follow from the set of features that are on, and from nothing else:
each feature brings its own capability and leaves those of the others alone, so in the end a
capability is offered exactly if its feature is on.
-/
import VServer.Feature

namespace VServer

open Json (Decoder)

/-- How changes of a document are told to the server. -/
inductive SyncKind where
  | none
  | full
  | incremental
deriving DecidableEq, Repr

namespace SyncKind

/-- The code of a kind. -/
def code : SyncKind → Nat
  | none => 0
  | full => 1
  | incremental => 2

/-- The kinds by code. -/
def byCode : List (Nat × SyncKind) :=
  [none, full, incremental].map fun k => (k.code, k)

/-- A kind as JSON. -/
def toJson (k : SyncKind) : Json := .ofNat k.code

/-- A kind from JSON. -/
def decode : Decoder SyncKind := Decoder.coded byCode

end SyncKind

/-- Texts as JSON. -/
def textsToJson (ss : List String) : Json :=
  .array (ss.map .string)

/-- How completion is offered. -/
structure CompletionOptions where
  resolveProvider : Option Bool := none
  triggerCharacters : Option (List String) := none
deriving DecidableEq, Repr

namespace CompletionOptions

/-- Options as JSON. -/
def toJson (o : CompletionOptions) : Json :=
  .object (Json.present "resolveProvider" .bool o.resolveProvider ++
    Json.present "triggerCharacters" textsToJson o.triggerCharacters)

/-- Options from JSON. -/
def decode : Decoder CompletionOptions :=
  Decoder.record "CompletionOptions"
    [Decoder.slot "resolveProvider" .optional (Decoder.option Decoder.bool) fun o v =>
        { o with resolveProvider := v },
      Decoder.slot "triggerCharacters" .optional
        (Decoder.option (Decoder.list Decoder.string)) fun o v =>
        { o with triggerCharacters := v }]
    {}

end CompletionOptions

/-- How help with signatures is offered. -/
structure SignatureHelpOptions where
  triggerCharacters : Option (List String) := none
  retriggerCharacters : Option (List String) := none
deriving DecidableEq, Repr

namespace SignatureHelpOptions

/-- Options as JSON. -/
def toJson (o : SignatureHelpOptions) : Json :=
  .object (Json.present "triggerCharacters" textsToJson o.triggerCharacters ++
    Json.present "retriggerCharacters" textsToJson o.retriggerCharacters)

/-- Options from JSON. -/
def decode : Decoder SignatureHelpOptions :=
  Decoder.record "SignatureHelpOptions"
    [Decoder.slot "triggerCharacters" .optional
        (Decoder.option (Decoder.list Decoder.string)) fun o v =>
        { o with triggerCharacters := v },
      Decoder.slot "retriggerCharacters" .optional
        (Decoder.option (Decoder.list Decoder.string)) fun o v =>
        { o with retriggerCharacters := v }]
    {}

end SignatureHelpOptions

/-- What the server offers. -/
structure ServerCapabilities where
  textDocumentSync : Option SyncKind := none
  completion : Option CompletionOptions := none
  hover : Option Bool := none
  signatureHelp : Option SignatureHelpOptions := none
  definition : Option Bool := none
  documentSymbol : Option Bool := none
  workspaceSymbol : Option Bool := none
  documentFormatting : Option Bool := none
  foldingRange : Option Bool := none
deriving DecidableEq, Repr

namespace ServerCapabilities

/-- Capabilities as JSON. -/
def toJson (c : ServerCapabilities) : Json :=
  .object (Json.present "textDocumentSync" SyncKind.toJson c.textDocumentSync ++
    Json.present "completionProvider" CompletionOptions.toJson c.completion ++
    Json.present "hoverProvider" .bool c.hover ++
    Json.present "signatureHelpProvider" SignatureHelpOptions.toJson c.signatureHelp ++
    Json.present "definitionProvider" .bool c.definition ++
    Json.present "documentSymbolProvider" .bool c.documentSymbol ++
    Json.present "workspaceSymbolProvider" .bool c.workspaceSymbol ++
    Json.present "documentFormattingProvider" .bool c.documentFormatting ++
    Json.present "foldingRangeProvider" .bool c.foldingRange)

/-- A field that says yes or no. -/
def switchSlot (key : String) (set : ServerCapabilities → Option Bool → ServerCapabilities) :
    Decoder.Slot ServerCapabilities :=
  Decoder.slot key .optional (Decoder.option Decoder.bool) set

/-- Capabilities from JSON. -/
def decode : Decoder ServerCapabilities :=
  Decoder.record "ServerCapabilities"
    [Decoder.slot "textDocumentSync" .optional (Decoder.option SyncKind.decode) fun c v =>
        { c with textDocumentSync := v },
      Decoder.slot "completionProvider" .optional
        (Decoder.option CompletionOptions.decode) fun c v => { c with completion := v },
      switchSlot "hoverProvider" fun c v => { c with hover := v },
      Decoder.slot "signatureHelpProvider" .optional
        (Decoder.option SignatureHelpOptions.decode) fun c v => { c with signatureHelp := v },
      switchSlot "definitionProvider" fun c v => { c with definition := v },
      switchSlot "documentSymbolProvider" fun c v => { c with documentSymbol := v },
      switchSlot "workspaceSymbolProvider" fun c v => { c with workspaceSymbol := v },
      switchSlot "documentFormattingProvider" fun c v => { c with documentFormatting := v },
      switchSlot "foldingRangeProvider" fun c v => { c with foldingRange := v }]
    {}

/-- The capabilities that come with one feature. -/
def offer (c : ServerCapabilities) : Feature → ServerCapabilities
  | .completion =>
    { c with
      completion := some ⟨some false, some ["=", ".", ":", "\x7b", ",", "(", " "]⟩ }
  | .signatureHelp => { c with signatureHelp := some ⟨some ["("], some [",", " "]⟩ }
  | .hover => { c with hover := some true }
  | .definition => { c with definition := some true }
  | .foldingRange => { c with foldingRange := some true }
  | .documentSymbol => { c with documentSymbol := some true }
  | .workspaceSymbol => { c with workspaceSymbol := some true }
  | .formatting => { c with documentFormatting := some true }

/-- The capabilities of a server with these features.  Documents are always sent whole. -/
def negotiate (features : FeatureSet) : ServerCapabilities :=
  features.toList.foldl offer { textDocumentSync := some .full }

/-- Whether the capability that comes with a feature is offered. -/
def offers (c : ServerCapabilities) : Feature → Bool
  | .completion => c.completion.isSome
  | .signatureHelp => c.signatureHelp.isSome
  | .hover => c.hover == some true
  | .definition => c.definition == some true
  | .foldingRange => c.foldingRange == some true
  | .documentSymbol => c.documentSymbol == some true
  | .workspaceSymbol => c.workspaceSymbol == some true
  | .formatting => c.documentFormatting == some true

/-- A feature adds its own capability and changes no other. -/
theorem offers_offer (c : ServerCapabilities) (f g : Feature) :
    (c.offer f).offers g = (decide (g = f) || c.offers g) := by
  cases f <;> cases g <;> rfl

theorem offer_textDocumentSync (c : ServerCapabilities) (f : Feature) :
    (c.offer f).textDocumentSync = c.textDocumentSync := by
  cases f <;> rfl

theorem foldl_offer (fs : List Feature) : ∀ c : ServerCapabilities,
    (fs.foldl offer c).textDocumentSync = c.textDocumentSync ∧
      ∀ g, (fs.foldl offer c).offers g = (decide (g ∈ fs) || c.offers g) := by
  induction fs with
  | nil => simp
  | cons f fs ih =>
      intro c
      obtain ⟨hsync, hoffers⟩ := ih (c.offer f)
      refine ⟨hsync.trans (offer_textDocumentSync c f), fun g => ?_⟩
      rw [List.foldl_cons, hoffers, offers_offer]
      simp only [List.mem_cons, Bool.decide_or]
      ac_rfl

/-- **A capability is offered exactly if its feature is on, and documents are sent whole.** -/
theorem negotiate_offers (features : FeatureSet) :
    (negotiate features).textDocumentSync = some .full ∧
      ∀ f, (negotiate features).offers f = features.contains f := by
  obtain ⟨hsync, hoffers⟩ := foldl_offer features.toList { textDocumentSync := some .full }
  refine ⟨hsync, fun f => ?_⟩
  have hstart : offers { textDocumentSync := some .full } f = false := by cases f <;> rfl
  simp only [negotiate, hoffers, hstart, Bool.or_false, FeatureSet.mem_toList,
    Bool.decide_eq_true]

end ServerCapabilities

/-- The name and the version of a server. -/
structure ServerInfo where
  name : String
  version : Option String := none
deriving DecidableEq, Repr

namespace ServerInfo

/-- A server as JSON. -/
def toJson (i : ServerInfo) : Json :=
  .object ([("name", .string i.name)] ++ Json.present "version" .string i.version)

/-- A server from JSON. -/
def decode : Decoder ServerInfo :=
  Decoder.record "ServerInfo"
    [Decoder.slot "name" .required Decoder.string fun i v => { i with name := v },
      Decoder.slot "version" .optional (Decoder.option Decoder.string) fun i v =>
        { i with version := v }]
    ⟨"", none⟩

end ServerInfo

/-- The answer to a client that starts a session. -/
structure InitializeResult where
  capabilities : ServerCapabilities
  serverInfo : Option ServerInfo := none
deriving DecidableEq, Repr

namespace InitializeResult

/-- The answer as JSON. -/
def toJson (r : InitializeResult) : Json :=
  .object ([("capabilities", r.capabilities.toJson)] ++
    Json.present "serverInfo" ServerInfo.toJson r.serverInfo)

/-- The answer from JSON. -/
def decode : Decoder InitializeResult :=
  Decoder.record "InitializeResult"
    [Decoder.slot "capabilities" .required ServerCapabilities.decode fun r v =>
        { r with capabilities := v },
      Decoder.slot "serverInfo" .optional (Decoder.option ServerInfo.decode) fun r v =>
        { r with serverInfo := v }]
    ⟨{}, none⟩

end InitializeResult

end VServer
