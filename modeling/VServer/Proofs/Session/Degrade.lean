/-
A session starts whatever it finds on the disk.

The start of a session opens the journal and reads the built-in module, and either can fail in many
ways: there may be no module, its directory may be a file, its files may be no text or no V, and the
journal may have nowhere to go.  None of that stops the start.  What the client is answered follows
from the features alone, and what the session becomes follows from the settings and the parameters
(`settled`).  The disk shows in what the indexer fills, in its report, in the journal and in the
notes for the editor's log, and nowhere else: `AlikeOutside` lists what is left of a session without
these.

The proof follows the start once, for any session.  `settled` is the session with everything that a
start decides without looking at the disk, and the real one is `AlikeOutside` to it.  Two starts
are then compared by way of what each of them settles.
-/
import VServer.Proofs.Session.Start
import VServer.Proofs.Protocol.Payload

namespace VServer.Session

/-! ### What the disk can show in -/

/-- The messages that wait, without the notes for the editor's log. -/
def spoken (s : Session) : List Message :=
  s.outbox.queue.filter fun m => !m.isLogged

/-- Two sessions that differ at most in what the indexer fills and where it found it, in its report,
in the journal and in the notes for the editor's log. -/
structure AlikeOutside (s t : Session) : Prop where
  settings : t.settings = s.settings
  environment : t.environment = s.environment
  phase : t.phase = s.phase
  trace : t.trace = s.trace
  rootUri : t.rootUri = s.rootUri
  capabilities : t.capabilities = s.capabilities
  warned : t.warned = s.warned
  workspaces : t.tables.workspaces = s.tables.workspaces
  released : t.tables.released = s.tables.released
  mode : t.indexer.mode = s.indexer.mode
  target : t.indexer.target = s.indexer.target
  spoken : t.spoken = s.spoken

namespace AlikeOutside

variable {s t u : Session}

theorem symm (h : AlikeOutside s t) : AlikeOutside t s where
  settings := h.settings.symm
  environment := h.environment.symm
  phase := h.phase.symm
  trace := h.trace.symm
  rootUri := h.rootUri.symm
  capabilities := h.capabilities.symm
  warned := h.warned.symm
  workspaces := h.workspaces.symm
  released := h.released.symm
  mode := h.mode.symm
  target := h.target.symm
  spoken := h.spoken.symm

theorem trans (h : AlikeOutside s t) (h' : AlikeOutside t u) : AlikeOutside s u where
  settings := h'.settings.trans h.settings
  environment := h'.environment.trans h.environment
  phase := h'.phase.trans h.phase
  trace := h'.trace.trans h.trace
  rootUri := h'.rootUri.trans h.rootUri
  capabilities := h'.capabilities.trans h.capabilities
  warned := h'.warned.trans h.warned
  workspaces := h'.workspaces.trans h.workspaces
  released := h'.released.trans h.released
  mode := h'.mode.trans h.mode
  target := h'.target.trans h.target
  spoken := h'.spoken.trans h.spoken

end AlikeOutside

/-! ### Indexing

A run of the indexer has a result in any case.  Behind one that came to its end nothing is queued,
however many faults there were; behind one that found no files to read, the editor's log is told
why.
-/

/-- A run tells its indexer how far it came, and nothing else. -/
theorem run_indexer {σ : Type} (ix : Indexer) (w : Watcher σ) (data : IndexData) (state : σ) :
    (ix.run w data state).indexer = { ix with state := (ix.run w data state).indexer.state } := by
  unfold Indexer.run
  split <;> rfl

/-- The note for the editor's log about a run that found no files to read. -/
def indexNote (e : IndexError) : Message :=
  .notification
    { method := "window/logMessage"
      params := some (MessageParams.toJson
        ⟨.error, "Failed to index builtin module: " ++ e.message⟩).sorted }

/-- What is said about indexing: nothing behind a run that came to its end, whatever faults it met,
and one note behind a run that found no files to read. -/
def Tells (report : Option IndexReport) (logged : List Message) : Prop :=
  (logged = [] ∧ ∃ r, report = some r ∧ r.state = .completed) ∨
    ∃ e, logged = [indexNote e] ∧ report = some IndexReport.aborted

theorem run_completed {σ : Type} {ix : Indexer} {w : Watcher σ} {data : IndexData} {state : σ}
    {report : IndexReport} (h : (ix.run w data state).result = .ok report) :
    report.state = .completed := by
  unfold Indexer.run at h
  split at h
  · cases h
  · cases h
    rfl

theorem indexBuiltins_tells (s : Session) :
    ∃ logged, s.indexBuiltins.outbox.queue = s.outbox.queue ++ logged ∧
      Tells s.indexBuiltins.report logged := by
  rw [indexBuiltins_eq]
  cases hresult : (s.indexing s.journal).result with
  | ok report =>
      exact ⟨[], (List.append_nil _).symm, .inl ⟨rfl, report, rfl, run_completed hresult⟩⟩
  | error e => exact ⟨[indexNote e], rfl, .inr ⟨e, rfl, rfl⟩⟩

theorem Tells.isLogged {report : Option IndexReport} {logged : List Message}
    (h : Tells report logged) : ∀ m ∈ logged, m.isLogged = true := by
  intro m hm
  obtain ⟨rfl, -⟩ | ⟨e, rfl, -⟩ := h
  · exact absurd hm List.not_mem_nil
  · obtain rfl := List.mem_singleton.mp hm
    rfl

/-! ### What the start settles without the disk -/

/-- The answer to a request that starts a session with these features. -/
def greeting (id : RequestId) (features : FeatureSet) : Message :=
  .response (.success id (welcome (.negotiate features)))

/-- The session with all that the parameters and the settings decide about a start. -/
def settled (s : Session) (id : RequestId) (p : InitializeParams) : Session :=
  { s with
    rootUri := rootOf s.journal.disk.cwd p
    trace := p.trace.getD .off
    tables := openRoot s.tables (rootOf s.journal.disk.cwd p)
    phase := .initialized
    capabilities := some (.negotiate s.settings.features)
    outbox := ⟨s.outbox.queue ++ [greeting id s.settings.features]⟩ }

theorem accept_tells (s : Session) (id : RequestId) (p : InitializeParams) :
    ∃ logged, (s.accept id p).outbox.queue
        = s.outbox.queue ++ logged ++ [greeting id s.settings.features] ∧
      Tells (s.accept id p).report logged := by
  obtain ⟨logged, hqueue, htells⟩ := indexBuiltins_tells (s.opened p)
  rw [accept_eq]
  refine ⟨logged, ?_, htells⟩
  show (s.opened p).indexBuiltins.outbox.queue ++ _ = _
  rw [hqueue]
  rfl

/-- **Apart from what the disk shows in, a start leaves what it settles.** -/
theorem accept_alikeOutside (s : Session) (id : RequestId) (p : InitializeParams) :
    AlikeOutside (s.settled id p) (s.accept id p) := by
  have hspoken : (s.accept id p).spoken = (s.settled id p).spoken := by
    obtain ⟨logged, hqueue, htells⟩ := accept_tells s id p
    have hquiet : (logged.filter fun m => !m.isLogged) = [] := by
      rw [List.filter_eq_nil_iff]
      intro m hm
      simp [htells.isLogged m hm]
    simp only [spoken, settled, hqueue, List.filter_append, hquiet, List.append_nil]
  have hindexer : (s.accept id p).indexer
      = { s.indexer with state := (s.accept id p).indexer.state } := by
    rw [accept_eq, indexBuiltins_filled]
    exact run_indexer _ _ _ _
  have hsame : s.accept id p = { s.settled id p with
      indexer := (s.accept id p).indexer
      tables := { (s.settled id p).tables with base := (s.accept id p).tables.base }
      index := (s.accept id p).index
      names := (s.accept id p).names
      report := (s.accept id p).report
      journal := (s.accept id p).journal
      outbox := (s.accept id p).outbox } := by
    rw [accept_eq, indexBuiltins_filled]
    rfl
  generalize s.accept id p = t at hspoken hindexer hsame
  rw [hindexer] at hsame
  have hfield : ∀ {α : Type} (f : Session → α), f t = f _ := fun f => congrArg f hsame
  exact ⟨hfield Session.settings, hfield Session.environment, hfield Session.phase,
    hfield Session.trace, hfield Session.rootUri, hfield Session.capabilities,
    hfield Session.warned, hfield fun t => t.tables.workspaces,
    hfield fun t => t.tables.released, hfield fun t => t.indexer.mode,
    hfield fun t => t.indexer.target, hspoken⟩

/-! ### Two starts

What a start settles depends on the settings, the surroundings, the parameters and the working
directory.  The files decide nothing, so two new sessions that agree on the rest settle the same.
-/

/-- What a session settles depends on its journal by the working directory, and on its indexer not
at all. -/
theorem settled_alikeOutside {s t : Session}
    (hsame : t = { s with journal := t.journal, indexer := t.indexer })
    (hcwd : t.journal.disk.cwd = s.journal.disk.cwd) (hmode : t.indexer.mode = s.indexer.mode)
    (htarget : t.indexer.target = s.indexer.target) (id : RequestId) (p : InitializeParams) :
    AlikeOutside (s.settled id p) (t.settled id p) := by
  generalize t.journal = journal at hsame hcwd
  generalize t.indexer = indexer at hsame hmode htarget
  subst hsame
  have hroot : rootOf journal.disk.cwd p = rootOf s.journal.disk.cwd p := by rw [hcwd]
  refine ⟨rfl, rfl, rfl, rfl, hroot, rfl, rfl, ?_, ?_, hmode, htarget, rfl⟩
  · show (openRoot s.tables (rootOf journal.disk.cwd p)).workspaces = _
    rw [hroot]
    rfl
  · show (openRoot s.tables (rootOf journal.disk.cwd p)).released = _
    rw [hroot]
    rfl

/-- New sessions with the same settings are started alike, whatever files they are given. -/
theorem accept_new_alikeOutside (settings : Settings) (environment : Environment)
    {disk disk' : Files} (hcwd : disk'.cwd = disk.cwd) (id : RequestId) (p : InitializeParams) :
    AlikeOutside ((new settings environment disk).warn.accept id p)
      ((new settings environment disk').warn.accept id p) := by
  have hsame : (new settings environment disk').warn = { (new settings environment disk).warn with
      journal := (new settings environment disk').warn.journal
      indexer := (new settings environment disk').warn.indexer } := rfl
  have hmode : ∀ disk : Files,
      (new settings environment disk).warn.indexer.mode = settings.indexing := fun _ => rfl
  have htarget : ∀ disk : Files, (new settings environment disk).warn.indexer.target
      = BuildTarget.ofOs (settings.targetOs.getD Journal.hostOs) := fun _ => rfl
  have hsettled := settled_alikeOutside hsame hcwd (by rw [hmode, hmode]) (by rw [htarget, htarget])
    id p
  exact ((accept_alikeOutside _ _ _).symm.trans hsettled).trans (accept_alikeOutside _ _ _)

/-- A new session that is sent a start which can be read goes on and accepts it. -/
theorem handle_new (settings : Settings) (environment : Environment) (disk : Files) {r : Request}
    (hstart : (Message.request r).isStart = true) :
    ∃ p, decodeParams "initialize" InitializeParams.decode r.params = .ok p ∧
      (new settings environment disk).handle (.request r)
        = (none, (new settings environment disk).warn.accept r.id p) := by
  obtain ⟨hmethod, p, hparams⟩ := params_of_isStart hstart
  have hwaits : Waiting _ (new settings environment disk) := new_waiting settings environment disk
  have haccept := hwaits.handle_start rfl hmethod hparams
  exact ⟨p, hparams, Prod.ext rfl haccept⟩

/-- What the client gets to see of a start: the notice, at most one note for its log, and the
answer. -/
structure Greets (s : Session) (id : RequestId) (features : FeatureSet) : Prop where
  phase : s.phase = .initialized
  responses : s.outbox.queue.filterMap Message.response?
    = [.success id (welcome (.negotiate features))]
  queue : ∃ logged, s.outbox.queue = notice :: logged ++ [greeting id features] ∧
    Tells s.report logged

theorem handle_new_greets (settings : Settings) (environment : Environment) (disk : Files)
    {r : Request} (hstart : (Message.request r).isStart = true) :
    Greets ((new settings environment disk).handle (.request r)).2 r.id settings.features := by
  obtain ⟨p, -, haccept⟩ := handle_new settings environment disk hstart
  obtain ⟨logged, hqueue, htells⟩ := accept_tells (new settings environment disk).warn r.id p
  rw [haccept]
  refine ⟨accept_phase _ _ _, ?_, logged, hqueue, htells⟩
  have hquiet : logged.filterMap Message.response? = [] := by
    rw [List.filterMap_eq_nil_iff]
    intro m hm
    exact Message.response?_of_isLogged (htells.isLogged m hm)
  rw [hqueue, List.filterMap_append, List.filterMap_append, hquiet]
  rfl

/--
**A session starts whatever it finds on the disk.**  Let two new sessions, with the same features
but any settings, surroundings and files, be sent starts that can be read, with any parameters and
the same id.  Both go on, both are initialized, and both queue one response, which is the same: a
success in which the client reads the capabilities that come with the features, and the name and the
version of the server.  Besides that they queue the notice, and a note for the editor's log if and
only if there were no files to read.

If the settings, the surroundings, the working directory and the request are the same then the
sessions differ in nothing but what the indexer fills, its report, the journal and the notes for the
editor's log, whatever the files are.
-/
theorem start_degrades (settings settings' : Settings) (environment environment' : Environment)
    (disk disk' : Files) (r r' : Request) (hfeatures : settings'.features = settings.features)
    (hid : r'.id = r.id) (hstart : (Message.request r).isStart = true)
    (hstart' : (Message.request r').isStart = true) :
    let out := (new settings environment disk).handle (.request r)
    let out' := (new settings' environment' disk').handle (.request r')
    out.1 = none ∧ out'.1 = none ∧
    Greets out.2 r.id settings.features ∧ Greets out'.2 r.id settings.features ∧
    InitializeResult.decode (welcome (.negotiate settings.features))
      = .ok ⟨.negotiate settings.features, some ⟨serverName, some Journal.serverVersion⟩⟩ ∧
    (settings' = settings → environment' = environment → disk'.cwd = disk.cwd → r' = r →
      AlikeOutside out.2 out'.2) := by
  intro out out'
  have hgreets' := handle_new_greets settings' environment' disk' hstart'
  rw [hid, hfeatures] at hgreets'
  obtain ⟨p, hparams, haccept⟩ := handle_new settings environment disk hstart
  obtain ⟨p', hparams', haccept'⟩ := handle_new settings' environment' disk' hstart'
  refine ⟨congrArg Prod.fst haccept, congrArg Prod.fst haccept',
    handle_new_greets settings environment disk hstart, hgreets',
    (InitializeResult.returns 0 _).read, ?_⟩
  rintro rfl rfl hcwd rfl
  obtain rfl : p = p' := by
    rw [hparams] at hparams'
    exact Except.ok.inj hparams'
  show AlikeOutside ((new settings' environment' disk).handle (.request r')).2
    ((new settings' environment' disk').handle (.request r')).2
  rw [haccept, haccept']
  exact accept_new_alikeOutside settings' environment' hcwd r'.id p

/-- A built-in module of which one file is cut off and one is no text, and a directory in the place
of the journal. -/
def brokenDisk : Files where
  nodes :=
    [(["vlib"], .directory), (["vlib", "builtin"], .directory),
      (["vlib", "builtin", "a.v"], .file (Text.encodeString "fn f(") false),
      (["vlib", "builtin", "b.v"], .file [0xff] false), (["vls.log"], .directory)]

/-- Settings that point to the broken module and to the directory in the place of the journal. -/
def brokenSettings : Settings where
  debug := true
  logPath := some "/vls.log"
  vroot := some "/"

/-- A start that asks for everything to be told. -/
def verboseStart : Request :=
  { plainStart with params := some (.object [("trace", .string "verbose")]) }

theorem start_degrades_brokenDisk :
    (Message.request plainStart).isStart = true ∧ (Message.request verboseStart).isStart = true ∧
    Greets ((new brokenSettings {} brokenDisk).handle (.request verboseStart)).2 (.number 2) .full ∧
    Greets ((new {} {} {}).handle (.request plainStart)).2 (.number 2) .full ∧
    AlikeOutside ((new brokenSettings {} brokenDisk).handle (.request plainStart)).2
      ((new brokenSettings {} {}).handle (.request plainStart)).2 := by
  obtain ⟨-, -, hbroken, hbare, -, -⟩ :=
    start_degrades brokenSettings {} {} {} brokenDisk {} verboseStart plainStart rfl rfl rfl rfl
  obtain ⟨-, -, -, -, -, halike⟩ :=
    start_degrades brokenSettings brokenSettings {} {} brokenDisk {} plainStart plainStart
      rfl rfl rfl rfl
  exact ⟨rfl, rfl, hbroken, hbare, halike rfl rfl rfl rfl⟩

end VServer.Session
