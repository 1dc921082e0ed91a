/-
A session with an editor.

A session starts when the editor says who it is, ends in two steps, and answers every request in
between and around them.  Handling a message changes the session and queues what has to be sent;
nothing is sent from here.  The phase of a session only moves forward.

A message is first noted in the journal file, if there is one, and then handled.  A request that
does not fit the phase is refused with an error, and a notification that is not known is passed
over.  The indexer runs when the session starts, on the tree of files that the journal holds; that
it failed is told to the client, and the session starts all the same.
-/
import VServer.Journal
import VServer.Indexer
import VServer.Registry
import VServer.Protocol.Capability
import VServer.Protocol.Outbox

namespace VServer

/-- How far a session has come. -/
inductive Phase where
  | uninitialized
  | initialized
  | shutdown
  | exited
deriving DecidableEq, Repr

/-- Why a request is refused. -/
inductive Refusal where
  | notInitialized
  | alreadyInitialized
  | afterShutdown (method : String)
  | afterExit
  | unknownMethod (method : String)
deriving DecidableEq, Repr

namespace Refusal

/-- The code of a refusal. -/
def code : Refusal → ErrorCode
  | notInitialized => .notInitialized
  | unknownMethod _ => .methodNotFound
  | _ => .invalidRequest

/-- The refusal in words. -/
def message : Refusal → String
  | notInitialized => "Server not initialized"
  | alreadyInitialized => "Server is already initialized"
  | afterShutdown method => "Request '" ++ method ++ "' received after shutdown"
  | afterExit => "Session has exited"
  | unknownMethod method => "Method not found: " ++ method

/-- The error that answers the request. -/
def toError (r : Refusal) : ResponseError :=
  { code := r.code.number, message := r.message }

end Refusal

/-- A session. -/
structure Session where
  settings : Settings
  environment : Environment
  phase : Phase := .uninitialized
  outbox : Outbox := {}
  journal : Journal
  tables : Registry := {}
  indexer : Indexer
  index : SymbolIndex := NameMap.empty
  names : List String := []
  report : Option IndexReport := none
  capabilities : Option ServerCapabilities := none
  trace : TraceLevel := .off
  rootUri : Option String := none
  /-- Whether the user has been told that the server is not finished. -/
  warned : Bool := false

namespace Session

/-- The name of the server. -/
def serverName : String := "vls"

/-- What the user is told once. -/
def prereleaseNotice : String :=
  "VLS is a work in progress, pre-alpha language server. " ++
    "It may not be guaranteed to work reliably due to memory issues and other related factors. " ++
    "We encourage you to submit an issue if you encounter any problems."

/-- A session that has not started. -/
def new (settings : Settings) (environment : Environment) (disk : Files) : Session where
  settings
  environment
  journal := { disk }
  indexer := Indexer.ofSettings settings disk Journal.hostOs environment

/-- The path of the journal file. -/
def journalPath (s : Session) : String :=
  s.settings.journalPath s.environment

/-- Refuse a request. -/
def refuse (s : Session) (id : RequestId) (r : Refusal) : Session :=
  { s with outbox := s.outbox.respondError (some id) r.toError }

/-- Tell the editor's log and the journal that something went wrong. -/
def reportFault (s : Session) (message : String) : Session :=
  { s with
    outbox := s.outbox.logMessage .error message
    journal := s.journal.write .error message }

/-- Tell the user, if that has not been done, that the server is not finished. -/
def warn (s : Session) : Session :=
  if s.warned then s
  else { s with outbox := s.outbox.showMessage .warning prereleaseNotice, warned := true }

/-- A journal takes the faults of files, one line each. -/
def journalWatcher : Watcher Journal where
  disk := Journal.disk
  report j fault := j.write .error fault.display

/-- Index the built-in module. -/
def indexBuiltins (s : Session) : Session :=
  let data : IndexData := { table := s.tables.base, index := s.index, names := s.names }
  let out := s.indexer.run journalWatcher data s.journal
  let s :=
    { s with
      indexer := out.indexer
      tables := { s.tables with base := out.data.table }
      index := out.data.index
      names := out.data.names
      journal := out.watcher }
  match out.result with
  | .ok report =>
    { s with
      journal := s.journal.write .info
        ("Indexed " ++ report.files.repr ++ " builtin files (" ++ s.index.size.repr ++ " symbols)")
      report := some report }
  | .error e =>
    { s.reportFault ("Failed to index builtin module: " ++ e.message) with
      report := some IndexReport.aborted }

/-- Why the parameters of a request cannot be used. -/
inductive ParamsError where
  | missing (method : String)
  | invalid (method : String) (error : Json.DecodeError)
deriving DecidableEq, Repr

/-- The error in words. -/
def ParamsError.message : ParamsError → String
  | .missing method => "Missing params for '" ++ method ++ "'"
  | .invalid method e => "Invalid params for '" ++ method ++ "': " ++ e.message

/-- Read the parameters of a message. -/
def decodeParams {α : Type} (method : String) (item : Json.Decoder α) :
    Option Json → Except ParamsError α
  | none => .error (.missing method)
  | some value => (item value).mapError (.invalid method)

/-- The workspace that the parameters name. -/
def rootOf (cwd : String) (p : InitializeParams) : Option String :=
  match p.rootUri with
  | some uri => some uri
  | none => p.rootPath.map (fileUri cwd)

/-- What the client is answered when the session starts. -/
def welcome (capabilities : ServerCapabilities) : Json :=
  (InitializeResult.toJson
    { capabilities, serverInfo := some ⟨serverName, some Journal.serverVersion⟩ }).sorted

/-- Start the session with parameters that could be read. -/
def accept (s : Session) (id : RequestId) (p : InitializeParams) : Session :=
  let rootUri := rootOf s.journal.disk.cwd p
  let trace := p.trace.getD .off
  let capabilities := ServerCapabilities.negotiate s.settings.features
  let s :=
    { s with
      rootUri
      trace
      tables :=
        match rootUri with
        | some root => s.tables.registerWorkspace root
        | none => s.tables
      journal := (s.journal.start s.settings.debug trace s.journalPath p.clientInfo).1
      phase := .initialized }
  let s := s.indexBuiltins
  { s with
    capabilities := some capabilities
    outbox := s.outbox.respond id (welcome capabilities) }

/-- The editor wants to start the session. -/
def handleInitialize (s : Session) (id : RequestId) (params : Option Json) : Session :=
  if s.phase ≠ .uninitialized then s.refuse id .alreadyInitialized
  else
    let s := s.warn
    match decodeParams "initialize" InitializeParams.decode params with
    | .error e =>
      let s := s.reportFault e.message
      { s with outbox := s.outbox.respond id .null }
    | .ok p => s.accept id p

/-- The editor wants to end the session. -/
def handleShutdown (s : Session) (id : RequestId) : Session :=
  match s.phase with
  | .uninitialized => s.refuse id .notInitialized
  | .exited => s.refuse id .afterExit
  | _ => { s with phase := .shutdown, outbox := s.outbox.respond id .null }

/-- The code that a session exits with: zero if it was ended in good order. -/
def exitCode (s : Session) : Nat :=
  if s.phase = .shutdown then 0 else 1

/-- Let go of everything. -/
def exit (s : Session) : Session :=
  { s with journal := s.journal.close, tables := s.tables.releaseAll.2, phase := .exited }

/-- Answer a request. -/
def handleRequest (s : Session) (r : Request) : Session :=
  if r.method = "initialize" then s.handleInitialize r.id r.params
  else if r.method = "shutdown" then s.handleShutdown r.id
  else
    match s.phase with
    | .uninitialized => s.refuse r.id .notInitialized
    | .initialized => s.refuse r.id (.unknownMethod r.method)
    | _ => s.refuse r.id (.afterShutdown r.method)

/-- Take a notification; the code to exit with, if it ends the session. -/
def handleNotification (s : Session) (n : Notification) : Option Nat × Session :=
  if n.method = "exit" then (some s.exitCode, s.exit)
  else if n.method = "$/setTrace" then
    match decodeParams n.method SetTraceParams.decode n.params with
    | .ok p => (none, { s with trace := p.value })
    | .error _ => (none, s)
  else (none, s)

/-- Note the method of a message in the journal file, if there is one. -/
def noteMethod (s : Session) (m : Message) : Session :=
  match m.method? with
  | some method =>
    if s.journal.isFileBacked then
      { s with journal := s.journal.write .info ("<- " ++ method) }
    else s
  | none => s

/-- Take one message; the code to exit with, if it ends the session. -/
def handle (s : Session) (m : Message) : Option Nat × Session :=
  let s := s.noteMethod m
  match m with
  | .request r => (none, s.handleRequest r)
  | .notification n => s.handleNotification n
  | .response _ => (none, s)

/-- The messages that wait, and the session without them. -/
def takeOutgoing (s : Session) : List Message × Session :=
  (s.outbox.queue, { s with outbox := {} })

end Session

end VServer
