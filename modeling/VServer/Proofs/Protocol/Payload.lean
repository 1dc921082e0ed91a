/-
What messages carry survives being written and read.

Each record has its shape here, which says of every field what is read for it, what it means that it
is missing and when it is left out.  The decoders and the writers of the records are those of their
shapes, so a record is steady as soon as the values of its fields are.

Two records, the settings and the answer to a client that starts a session, hold values inside
brackets where fields are missing.  They return wherever brackets may be nested twice.

There is nothing to prove about a record beyond its shape.  The conditions of a shape are checked
by `simp` when it is given, and each field is sound by the lemma for the decoder it uses.  So a
field that is added to a record is one line in its shape.  For the records that the server itself
sends, it is also shown that every value returns, whatever it holds.
-/
import VServer.Proofs.Json.Record
import VServer.Protocol.Capability
import VServer.Protocol.Message
import VServer.Protocol.Params
import VServer.Settings

namespace VServer

open Json (Decoder RecordField Shape Steady Returns)
open Json.RecordField (sound_always sound_whenSome returns_always returns_whenSome)

/-! ### Values told by a name or a code -/

theorem TraceLevel.returns (depth : Nat) (t : TraceLevel) : Returns depth decode toJson t :=
  Json.returns_variant depth (fun t => by cases t <;> rfl) t

theorem TraceLevel.steady (depth : Nat) : Steady depth decode toJson :=
  Json.steady_of_returns (returns depth) fun _ h => nomatch h

theorem IndexingMode.returns (depth : Nat) (m : IndexingMode) : Returns depth decode toJson m :=
  Json.returns_variant depth (fun m => by cases m <;> rfl) m

theorem IndexingMode.steady (depth : Nat) : Steady depth decode toJson :=
  Json.steady_of_returns (returns depth) fun _ h => nomatch h

theorem Feature.returns (depth : Nat) (f : Feature) : Returns depth decode toJson f :=
  Json.returns_variant depth (fun f => by cases f <;> rfl) f

theorem Severity.returns (depth : Nat) (s : Severity) : Returns depth decode toJson s :=
  Json.returns_coded depth (fun s => by cases s <;> rfl) (fun s => by cases s <;> decide) s

theorem Severity.steady (depth : Nat) : Steady depth decode toJson :=
  Json.steady_of_returns (returns depth) fun _ h => nomatch h

theorem SyncKind.returns (depth : Nat) (k : SyncKind) : Returns depth decode toJson k :=
  Json.returns_coded depth (fun k => by cases k <;> rfl) (fun k => by cases k <;> decide) k

theorem SyncKind.steady (depth : Nat) : Steady depth decode toJson :=
  Json.steady_of_returns (returns depth) fun _ h => nomatch h

theorem steady_texts (depth : Nat) :
    Steady depth (Decoder.list Decoder.string) textsToJson :=
  Json.Steady.list (fun depth => Json.steady_text depth _) depth

theorem returns_texts (depth : Nat) (ss : List String) :
    Returns (depth + 1) (Decoder.list Decoder.string) textsToJson ss :=
  Json.returns_list fun s _ => Json.returns_text depth _ s

namespace FeatureSet

theorem ofList_toList (s : FeatureSet) : ofList s.toList = s := by
  refine ext_contains fun f => ?_
  show s.toList.contains f = s.contains f
  rw [Bool.eq_iff_iff, List.contains_iff_mem, mem_toList]

/-- The features of a set are listed one by one, and make up the set again. -/
theorem returns (depth : Nat) (s : FeatureSet) : Returns (depth + 1) decode toJson s := by
  have hlist : Returns (depth + 1) (Decoder.list Feature.decode) (Json.ofList Feature.toJson)
      s.toList := Json.returns_list fun f _ => Feature.returns depth f
  refine ⟨hlist.plain, ?_⟩
  have hread : Decoder.list Feature.decode s.toJson.sorted = .ok s.toList := hlist.read
  rw [decode, hread]
  exact congrArg Except.ok (ofList_toList s)

theorem steady (depth : Nat) : Steady depth decode toJson where
  returns := by
    intro v s hplain _ h
    obtain ⟨fs, hfs, -⟩ := Json.exists_of_map_ok h
    -- Features are listed in an array, which needs a pair of brackets.
    cases hplain with
    | null => cases hfs
    | bool => cases hfs
    | integer => cases hfs
    | string => cases hfs
    | object => cases hfs
    | @array depth => exact returns depth s
  null := fun _ _ _ h => nomatch h

end FeatureSet

/-! ### Parameters -/

namespace ClientInfo

/-- The fields of a client. -/
def shape : Shape ClientInfo where
  name := "ClientInfo"
  start := {}
  fields :=
    [.always "name" .defaulted Decoder.string .string name fun c s => { c with name := s },
      .whenSome "version" .optional Decoder.string .string version fun c v =>
        { c with version := v }]

theorem toJson_eq : toJson = shape.encode := by
  funext c
  simp [toJson, shape, Shape.encode, Shape.entries]

theorem steady (depth : Nat) : Steady depth decode toJson := by
  rw [toJson_eq]
  refine shape.steady (fun depth => ?_) depth
  simp only [shape, List.forall_mem_cons]
  exact ⟨sound_always (Json.steady_text depth _) (Json.returns_text depth _ _),
    sound_whenSome (Json.steady_text depth _) rfl,
    List.forall_mem_nil _⟩

end ClientInfo

namespace InitializeParams

/-- The fields of what a client says when a session starts. -/
def shape : Shape InitializeParams where
  name := "InitializeParams"
  start := {}
  fields :=
    [.always "processId" .defaulted (Decoder.option Decoder.nat32) (.ofOption Json.ofNat)
        processId fun p v => { p with processId := v },
      .always "rootUri" .defaulted (Decoder.option Decoder.string) (.ofOption .string)
        rootUri fun p v => { p with rootUri := v },
      .whenSome "rootPath" .defaulted Decoder.string .string rootPath fun p v =>
        { p with rootPath := v },
      .always "capabilities" .defaulted Decoder.any id capabilities fun p v =>
        { p with capabilities := v },
      .whenSome "clientInfo" .defaulted ClientInfo.decode ClientInfo.toJson clientInfo fun p v =>
        { p with clientInfo := v },
      .always "trace" .defaulted (Decoder.option TraceLevel.decode) (.ofOption TraceLevel.toJson)
        trace fun p v => { p with trace := v },
      .whenSome "initializationOptions" .defaulted Decoder.any id options fun p v =>
        { p with options := v }]

theorem toJson_eq : toJson = shape.encode := by
  funext p
  simp [toJson, shape, Shape.encode, Shape.entries]

theorem steady (depth : Nat) : Steady depth decode toJson := by
  rw [toJson_eq]
  refine shape.steady (fun depth => ?_) depth
  simp only [shape, List.forall_mem_cons]
  exact ⟨sound_always (Json.steady_nat32 depth).option (Json.returns_none ..),
    sound_always (Json.steady_text depth _).option (Json.returns_none ..),
    sound_whenSome (Json.steady_text depth _) rfl,
    sound_always (Json.steady_any depth) ⟨.null, congrArg Except.ok Json.sorted_null⟩,
    sound_whenSome (ClientInfo.steady depth) rfl,
    sound_always (TraceLevel.steady depth).option (Json.returns_none ..),
    sound_whenSome (Json.steady_any depth) rfl,
    List.forall_mem_nil _⟩

end InitializeParams

namespace SetTraceParams

/-- The field of a change of the trace level. -/
def shape : Shape SetTraceParams where
  name := "SetTraceParams"
  start := ⟨.off⟩
  fields :=
    [.always "value" .required TraceLevel.decode TraceLevel.toJson value fun p v =>
      { p with value := v }]

theorem toJson_eq : toJson = shape.encode := by
  funext p
  simp [toJson, shape, Shape.encode, Shape.entries]

theorem steady (depth : Nat) : Steady depth decode toJson := by
  rw [toJson_eq]
  refine shape.steady (fun depth => ?_) depth
  simp only [shape, List.forall_mem_cons]
  exact ⟨sound_always (TraceLevel.steady depth) (TraceLevel.returns depth _),
    List.forall_mem_nil _⟩

end SetTraceParams

namespace MessageParams

/-- The fields of a message to the user. -/
def shape : Shape MessageParams where
  name := "MessageParams"
  start := ⟨.error, ""⟩
  fields :=
    [.always "type" .required Severity.decode Severity.toJson severity fun p v =>
        { p with severity := v },
      .always "message" .required Decoder.string .string message fun p v =>
        { p with message := v }]

theorem toJson_eq : toJson = shape.encode := by
  funext p
  simp [toJson, shape, Shape.encode, Shape.entries]

theorem steady (depth : Nat) : Steady depth decode toJson := by
  rw [toJson_eq]
  refine shape.steady (fun depth => ?_) depth
  simp only [shape, List.forall_mem_cons]
  exact ⟨sound_always (Severity.steady depth) (Severity.returns depth _),
    sound_always (Json.steady_text depth _) (Json.returns_text depth _ _),
    List.forall_mem_nil _⟩

theorem returns (depth : Nat) (p : MessageParams) : Returns (depth + 1) decode toJson p := by
  rw [toJson_eq]
  refine Shape.returns_of_fieldsReturn (s := shape) ?_
  simp only [Shape.FieldsReturn, shape, List.forall_mem_cons]
  exact ⟨returns_always (Severity.returns depth _), returns_always (Json.returns_text depth _ _),
    List.forall_mem_nil _⟩

end MessageParams

namespace ResponseError

/-- The fields of an error. -/
def shape : Shape ResponseError where
  name := "ResponseError"
  start := ⟨0, "", none⟩
  fields :=
    [.always "code" .required Decoder.int32 Json.ofInt code fun e n => { e with code := n },
      .always "message" .required Decoder.string .string message fun e s =>
        { e with message := s },
      .whenSome "data" .optional Decoder.any id data fun e d => { e with data := d }]

theorem toJson_eq : toJson = shape.encode := by
  funext e
  simp [toJson, shape, Shape.encode, Shape.entries]

theorem steady (depth : Nat) : Steady depth decode toJson := by
  rw [toJson_eq]
  refine shape.steady (fun depth => ?_) depth
  have hzero : Returns depth Decoder.int32 Json.ofInt 0 :=
    (Json.steady_int32 depth).returns (Json.ofInt 0) 0 (.integer ⟨by decide, by decide⟩)
      (Json.sorted_number _) rfl
  simp only [shape, List.forall_mem_cons]
  exact ⟨sound_always (Json.steady_int32 depth) hzero,
    sound_always (Json.steady_text depth _) (Json.returns_text depth _ _),
    sound_whenSome (Json.steady_any depth) rfl,
    List.forall_mem_nil _⟩

end ResponseError

/-! ### Capabilities

What is offered is left out of the record where it is not offered, and a client reads it so.  The
options are lists of texts inside the capabilities, and those inside the answer.  So the depth that
has to be there for brackets grows by one from each record to the one that holds it.
-/

namespace CompletionOptions

/-- The fields of how completion is offered. -/
def shape : Shape CompletionOptions where
  name := "CompletionOptions"
  start := {}
  fields :=
    [.whenSome "resolveProvider" .optional Decoder.bool .bool resolveProvider fun o v =>
        { o with resolveProvider := v },
      .whenSome "triggerCharacters" .optional (Decoder.list Decoder.string) textsToJson
        triggerCharacters fun o v => { o with triggerCharacters := v }]

theorem toJson_eq : toJson = shape.encode := by
  funext o
  simp [toJson, shape, Shape.encode, Shape.entries]

theorem steady (depth : Nat) : Steady depth decode toJson := by
  rw [toJson_eq]
  refine shape.steady (fun depth => ?_) depth
  simp only [shape, List.forall_mem_cons]
  exact ⟨sound_whenSome (Json.steady_bool depth) rfl,
    sound_whenSome (steady_texts depth) rfl,
    List.forall_mem_nil _⟩

theorem returns (depth : Nat) (o : CompletionOptions) :
    Returns (depth + 2) decode toJson o := by
  rw [toJson_eq]
  refine Shape.returns_of_fieldsReturn (s := shape) ?_
  simp only [Shape.FieldsReturn, shape, List.forall_mem_cons]
  exact ⟨returns_whenSome (Json.returns_option (Json.returns_bool _) nofun _),
    returns_whenSome (Json.returns_option (returns_texts depth) nofun _),
    List.forall_mem_nil _⟩

end CompletionOptions

namespace SignatureHelpOptions

/-- The fields of how help with signatures is offered. -/
def shape : Shape SignatureHelpOptions where
  name := "SignatureHelpOptions"
  start := {}
  fields :=
    [.whenSome "triggerCharacters" .optional (Decoder.list Decoder.string) textsToJson
        triggerCharacters fun o v => { o with triggerCharacters := v },
      .whenSome "retriggerCharacters" .optional (Decoder.list Decoder.string) textsToJson
        retriggerCharacters fun o v => { o with retriggerCharacters := v }]

theorem toJson_eq : toJson = shape.encode := by
  funext o
  simp [toJson, shape, Shape.encode, Shape.entries]

theorem steady (depth : Nat) : Steady depth decode toJson := by
  rw [toJson_eq]
  refine shape.steady (fun depth => ?_) depth
  simp only [shape, List.forall_mem_cons]
  exact ⟨sound_whenSome (steady_texts depth) rfl,
    sound_whenSome (steady_texts depth) rfl,
    List.forall_mem_nil _⟩

theorem returns (depth : Nat) (o : SignatureHelpOptions) :
    Returns (depth + 2) decode toJson o := by
  rw [toJson_eq]
  refine Shape.returns_of_fieldsReturn (s := shape) ?_
  simp only [Shape.FieldsReturn, shape, List.forall_mem_cons]
  exact ⟨returns_whenSome (Json.returns_option (returns_texts depth) nofun _),
    returns_whenSome (Json.returns_option (returns_texts depth) nofun _),
    List.forall_mem_nil _⟩

end SignatureHelpOptions

namespace ServerCapabilities

/-- A field that says yes or no. -/
@[simp] def switch (key : String) (get : ServerCapabilities → Option Bool)
    (set : ServerCapabilities → Option Bool → ServerCapabilities) :
    RecordField ServerCapabilities :=
  .whenSome key .optional Decoder.bool .bool get set

/-- The fields of what the server offers. -/
def shape : Shape ServerCapabilities where
  name := "ServerCapabilities"
  start := {}
  fields :=
    [.whenSome "textDocumentSync" .optional SyncKind.decode SyncKind.toJson textDocumentSync
        fun c v => { c with textDocumentSync := v },
      .whenSome "completionProvider" .optional CompletionOptions.decode CompletionOptions.toJson
        completion fun c v => { c with completion := v },
      switch "hoverProvider" hover fun c v => { c with hover := v },
      .whenSome "signatureHelpProvider" .optional SignatureHelpOptions.decode
        SignatureHelpOptions.toJson signatureHelp fun c v => { c with signatureHelp := v },
      switch "definitionProvider" definition fun c v => { c with definition := v },
      switch "documentSymbolProvider" documentSymbol fun c v => { c with documentSymbol := v },
      switch "workspaceSymbolProvider" workspaceSymbol fun c v => { c with workspaceSymbol := v },
      switch "documentFormattingProvider" documentFormatting fun c v =>
        { c with documentFormatting := v },
      switch "foldingRangeProvider" foldingRange fun c v => { c with foldingRange := v }]

theorem toJson_eq : toJson = shape.encode := by
  funext c
  simp [toJson, shape, Shape.encode, Shape.entries, switch]

theorem steady (depth : Nat) : Steady depth decode toJson := by
  rw [toJson_eq]
  refine shape.steady (fun depth => ?_) depth
  have hswitch : ∀ {key get set}, get {} = none → (switch key get set).Sound depth {} :=
    fun hstart => sound_whenSome (Json.steady_bool depth) hstart
  simp only [shape, List.forall_mem_cons]
  exact ⟨sound_whenSome (SyncKind.steady depth) rfl,
    sound_whenSome (CompletionOptions.steady depth) rfl, hswitch rfl,
    sound_whenSome (SignatureHelpOptions.steady depth) rfl, hswitch rfl, hswitch rfl,
    hswitch rfl, hswitch rfl, hswitch rfl,
    List.forall_mem_nil _⟩

theorem returns (depth : Nat) (c : ServerCapabilities) :
    Returns (depth + 3) decode toJson c := by
  rw [toJson_eq]
  refine Shape.returns_of_fieldsReturn (s := shape) ?_
  have hswitch : ∀ {key get set} o, (switch key get set).Returns (depth + 2) o := fun o =>
    returns_whenSome (Json.returns_option (Json.returns_bool _) nofun o)
  simp only [Shape.FieldsReturn, shape, List.forall_mem_cons]
  exact ⟨returns_whenSome (Json.returns_option (SyncKind.returns _) nofun _),
    returns_whenSome (Json.returns_option (CompletionOptions.returns depth) nofun _),
    hswitch _,
    returns_whenSome (Json.returns_option (SignatureHelpOptions.returns depth) nofun _),
    hswitch _, hswitch _, hswitch _, hswitch _, hswitch _,
    List.forall_mem_nil _⟩

end ServerCapabilities

namespace ServerInfo

/-- The fields of a server. -/
def shape : Shape ServerInfo where
  name := "ServerInfo"
  start := ⟨"", none⟩
  fields :=
    [.always "name" .required Decoder.string .string name fun i v => { i with name := v },
      .whenSome "version" .optional Decoder.string .string version fun i v =>
        { i with version := v }]

theorem toJson_eq : toJson = shape.encode := by
  funext i
  simp [toJson, shape, Shape.encode, Shape.entries]

theorem steady (depth : Nat) : Steady depth decode toJson := by
  rw [toJson_eq]
  refine shape.steady (fun depth => ?_) depth
  simp only [shape, List.forall_mem_cons]
  exact ⟨sound_always (Json.steady_text depth _) (Json.returns_text depth _ _),
    sound_whenSome (Json.steady_text depth _) rfl,
    List.forall_mem_nil _⟩

theorem returns (depth : Nat) (i : ServerInfo) : Returns (depth + 1) decode toJson i := by
  rw [toJson_eq]
  refine Shape.returns_of_fieldsReturn (s := shape) ?_
  simp only [Shape.FieldsReturn, shape, List.forall_mem_cons]
  exact ⟨returns_always (Json.returns_text depth _ _),
    returns_whenSome (Json.returns_option (Json.returns_text depth _) nofun _),
    List.forall_mem_nil _⟩

end ServerInfo

namespace InitializeResult

/-- The fields of the answer to a client that starts a session. -/
def shape : Shape InitializeResult where
  name := "InitializeResult"
  start := ⟨{}, none⟩
  fields :=
    [.always "capabilities" .required ServerCapabilities.decode ServerCapabilities.toJson
        capabilities fun r v => { r with capabilities := v },
      .whenSome "serverInfo" .optional ServerInfo.decode ServerInfo.toJson serverInfo fun r v =>
        { r with serverInfo := v }]

theorem toJson_eq : toJson = shape.encode := by
  funext r
  simp [toJson, shape, Shape.encode, Shape.entries]

theorem steady (depth : Nat) : Steady (depth + 2) decode toJson := by
  rw [toJson_eq]
  refine shape.steady_succ ?_
  -- No capability at all is an object without fields.
  have hnothing : Returns (depth + 1) ServerCapabilities.decode ServerCapabilities.toJson {} :=
    (ServerCapabilities.steady (depth + 1)).returns (.object []) {} (.object List.nodup_nil nofun)
      (by rw [Json.sorted_object]; rfl) rfl
  simp only [shape, List.forall_mem_cons]
  exact ⟨sound_always (ServerCapabilities.steady _) hnothing,
    sound_whenSome (ServerInfo.steady _) rfl,
    List.forall_mem_nil _⟩

/-- Whatever is offered, the client reads it. -/
theorem returns (depth : Nat) (r : InitializeResult) : Returns (depth + 4) decode toJson r := by
  rw [toJson_eq]
  refine Shape.returns_of_fieldsReturn (s := shape) ?_
  simp only [Shape.FieldsReturn, shape, List.forall_mem_cons]
  exact ⟨returns_always (ServerCapabilities.returns depth _),
    returns_whenSome (Json.returns_option (ServerInfo.returns _) nofun _),
    List.forall_mem_nil _⟩

end InitializeResult

/-! ### Settings -/

namespace Settings

/-- The fields of the settings. -/
def shape : Shape Settings where
  name := "VlsConfig"
  start := {}
  fields :=
    [.always "features" .defaulted FeatureSet.decode FeatureSet.toJson features fun s v =>
        { s with features := v },
      .always "debug" .defaulted Decoder.bool .bool debug fun s v => { s with debug := v },
      .always "log_path" .defaulted (Decoder.option Decoder.path) (.ofOption .string) logPath
        fun s v => { s with logPath := v },
      .always "vroot" .defaulted (Decoder.option Decoder.path) (.ofOption .string) vroot
        fun s v => { s with vroot := v },
      .always "indexing" .defaulted IndexingMode.decode IndexingMode.toJson indexing fun s v =>
        { s with indexing := v },
      .always "target_os" .defaulted (Decoder.option Decoder.string) (.ofOption .string) targetOs
        fun s v => { s with targetOs := v }]

theorem toJson_eq : toJson = shape.encode := by
  funext s
  simp [toJson, shape, Shape.encode, Shape.entries]

theorem steady (depth : Nat) : Steady (depth + 2) decode toJson := by
  rw [toJson_eq]
  refine shape.steady_succ ?_
  simp only [shape, List.forall_mem_cons]
  exact ⟨sound_always (FeatureSet.steady _) (FeatureSet.returns depth _),
    sound_always (Json.steady_bool _) (Json.returns_bool _ _),
    sound_always (Json.steady_text _ _).option (Json.returns_none ..),
    sound_always (Json.steady_text _ _).option (Json.returns_none ..),
    sound_always (IndexingMode.steady _) (IndexingMode.returns _ _),
    sound_always (Json.steady_text _ _).option (Json.returns_none ..),
    List.forall_mem_nil _⟩

end Settings

end VServer
