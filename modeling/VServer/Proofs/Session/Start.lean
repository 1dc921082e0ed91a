/-
A start forgets what came before it.

A session that waits to be started may have been sent any number of messages.  Of these only the
outbox and the memory of the warning tell: the trace level is set anew, nothing has been written
to a file, and what the journal remembers decides nothing.  So two sessions that wait on the same
settings and files are started into the same session.

`Twin` is what a start makes of two such sessions at every point of it: they differ in the outbox,
in the memory of the warning and in what their journals remember.

A start reads the built-in module through its journal, because faults are written there while files
are read.  So the comparison has to be carried through the indexer as well, and there it rests on
the watcher seeing nothing of a journal but its files.
-/
import VServer.Proofs.Session.Lifetime
import VServer.Proofs.Indexer.Watched

namespace VServer.Session

/-! ### Twins -/

/-- Two sessions that differ in the outbox, in the memory of the warning and in what their journals
remember at most. -/
structure Twin (s t : Session) : Prop where
  same : t = { s with outbox := t.outbox, warned := t.warned, journal := t.journal }
  journal : s.journal.Alike t.journal

/-- The journal of a session holds the files and takes the faults. -/
theorem journalWatcher_sameFiles : journalWatcher.SameFiles Journal.Alike where
  disk _ _ h := h.disk
  report _ _ fault h := h.write .error fault.display

/-- Indexing a twin comes to the same, and leaves its journal alike. -/
theorem Twin.indexing {s t : Session} (h : Twin s t) :
    (t.indexing t.journal).result = (s.indexing s.journal).result ∧
    (t.indexing t.journal).indexer = (s.indexing s.journal).indexer ∧
    (t.indexing t.journal).data = (s.indexing s.journal).data ∧
    (s.indexing s.journal).watcher.Alike (t.indexing t.journal).watcher := by
  have hindexing : t.indexing t.journal = s.indexing t.journal := by
    generalize t.journal = journal
    rw [h.same]
    rfl
  rw [hindexing]
  exact journalWatcher_sameFiles.run s.indexer _ h.journal

theorem Twin.filled {s t : Session} (h : Twin s t) : Twin s.filled t.filled where
  same := by
    obtain ⟨-, hindexer, hdata, -⟩ := h.indexing
    unfold Session.filled
    rw [hindexer, hdata]
    generalize t.indexing t.journal = out
    rw [h.same]
  journal := h.indexing.2.2.2

/-- Twins are indexed into twins, and the same is said of it. -/
theorem Twin.indexBuiltins {s t : Session} (h : Twin s t) :
    Twin s.indexBuiltins t.indexBuiltins ∧
    ∃ said, s.indexBuiltins.outbox.queue = s.outbox.queue ++ said ∧
      t.indexBuiltins.outbox.queue = t.outbox.queue ++ said := by
  obtain ⟨hsame, hjournal⟩ := h.filled
  have hindex : t.filled.index = s.filled.index := by rw [hsame]
  rw [indexBuiltins_eq, indexBuiltins_eq t, h.indexing.1, hindex]
  cases (s.indexing s.journal).result with
  | ok report =>
      refine ⟨⟨by rw [hsame], hjournal.write _ _⟩, [], ?_, ?_⟩
      · exact (List.append_nil _).symm
      · exact (List.append_nil _).symm
  | error e => exact ⟨⟨by rw [hsame]; rfl, hjournal.write _ _⟩, _, rfl, rfl⟩

/-! ### Two sessions that wait are started into twins

The start sets the trace level, the root and the phase anew, opens a workspace and the journal, and
runs the indexer.  None of these looks at what twins differ in.
-/

theorem Waiting.opened {fresh s : Session} (h : Waiting fresh s) (p : InitializeParams) :
    Twin (fresh.opened p) (s.opened p) := by
  have hpath : s.journalPath = fresh.journalPath := by rw [h.same]; rfl
  have hsettings : s.settings = fresh.settings := by rw [h.same]
  refine ⟨?_, ?_⟩
  · unfold Session.opened
    rw [h.journal.disk]
    generalize (s.journal.start s.settings.debug (p.trace.getD .off) s.journalPath p.clientInfo).1
      = journal
    rw [h.same]
  · show (fresh.journal.start fresh.settings.debug _ fresh.journalPath _).1.Alike
      (s.journal.start s.settings.debug _ s.journalPath _).1
    rw [hpath, hsettings]
    exact h.journal.start _ _ _ _

/-- **The start of a session does not see what came before it.** -/
theorem Waiting.accept {fresh s : Session} (h : Waiting fresh s) (id : RequestId)
    (p : InitializeParams) :
    Twin (fresh.accept id p) (s.accept id p) ∧
    ∃ written, (fresh.accept id p).outbox.queue = fresh.outbox.queue ++ written ∧
      (s.accept id p).outbox.queue = s.outbox.queue ++ written := by
  obtain ⟨htwin, said, hfresh, hs⟩ := (h.opened p).indexBuiltins
  have hsettings : s.settings = fresh.settings := by rw [h.same]
  let answer : Message := .response (.success id (welcome (.negotiate fresh.settings.features)))
  rw [accept_eq, accept_eq s, hsettings]
  refine ⟨⟨by rw [htwin.same], htwin.journal⟩, said ++ [answer], ?_, ?_⟩
  · show (fresh.opened p).indexBuiltins.outbox.queue ++ [answer] = _
    rw [hfresh, List.append_assoc]
    rfl
  · show (s.opened p).indexBuiltins.outbox.queue ++ [answer] = _
    rw [hs, List.append_assoc]
    rfl

/-- Both may be warned. -/
theorem Waiting.warn_warn {fresh s : Session} (h : Waiting fresh s) :
    Waiting fresh.warn s.warn where
  same := by
    rw [warn_eq fresh, warn_eq s]
    generalize s.warn.outbox = outbox
    generalize s.warn.warned = warned
    rw [h.same]
  journal := by
    rw [warn_eq fresh, warn_eq s]
    exact h.journal
  unattached := by
    rw [warn_eq fresh]
    exact h.unattached

/-! ### The warning

The notice is what remains of the messages before the start.  The session remembers it as soon as
it is queued, and the queue of the two sessions together with that memory is the same in the end:
the user has been shown one notice in both.
-/

/-- The user has been shown the notice if the session remembers it, and nothing else. -/
def ShownOnce (s : Session) : Prop :=
  s.outbox.queue.filter Message.isShown = if s.warned then [notice] else []

theorem openNotices_shown_filter (s : Session) :
    s.openNotices.filter Message.isShown = s.openNotices := by
  unfold openNotices
  split <;> rfl

theorem ShownOnce.handle {s : Session} (h : ShownOnce s) (m : Message) :
    ShownOnce (s.handle m).2 := by
  unfold ShownOnce at h ⊢
  cases m with
  | request r =>
      obtain ⟨written, hqueue, logged, response, hwritten, -, hlogged⟩ := handle_request_queue s r
      have hquiet : (logged ++ [Message.response response]).filter Message.isShown = [] := by
        rw [List.filter_eq_nil_iff]
        intro m hm
        rcases List.mem_append.mp hm with hm | hm
        · simp [Message.isShown_of_isLogged (hlogged m hm)]
        · obtain rfl := List.mem_singleton.mp hm
          simp [Message.isShown]
      rw [hqueue, hwritten, List.append_assoc, List.filter_append, List.filter_append, hquiet, h,
        handle_warned, List.append_nil]
      by_cases hfirst : (Message.request r).isInitialize = true ∧ s.phase = .uninitialized
      · rw [if_pos hfirst, openNotices_shown_filter, hfirst.1, hfirst.2]
        cases hwarned : s.warned <;> simp [openNotices, hwarned]
      · rw [if_neg hfirst]
        have hnot : ((Message.request r).isInitialize && decide (s.phase = .uninitialized))
            = false := by simpa using hfirst
        rw [hnot, Bool.or_false]
        simp
  | notification n =>
      rw [handle_queue_of_not_request s _ (by simp), handle_warned, h]
      simp [Message.isInitialize]
  | response r =>
      rw [handle_queue_of_not_request s _ (by simp), handle_warned, h]
      simp [Message.isInitialize]

theorem handleAll_shownOnce (settings : Settings) (environment : Environment) (disk : Files)
    (history : List Message) :
    ShownOnce ((new settings environment disk).handleAll history) := by
  induction history using List.reverseRecOn with
  | nil => rfl
  | append_singleton history m ih =>
      rw [handleAll_concat]
      exact ih.handle m

/-- A session that waits remembers whether it was asked to start. -/
theorem handleAll_warned (settings : Settings) (environment : Environment) (disk : Files)
    {history : List Message}
    (h : ((new settings environment disk).handleAll history).phase = .uninitialized) :
    ((new settings environment disk).handleAll history).warned
      = history.any Message.isInitialize := by
  induction history using List.reverseRecOn with
  | nil => rfl
  | append_singleton history m ih =>
      rw [handleAll_concat] at h ⊢
      have hbefore := uninitialized_of_take (e := .message m) h
      rw [handle_warned, ih hbefore, hbefore]
      simp

/-! ### The start -/

/-- The two sessions hold the same, write to the same files and do so in the same way. -/
structure Indistinct (s t : Session) : Prop where
  phase : t.phase = s.phase
  trace : t.trace = s.trace
  rootUri : t.rootUri = s.rootUri
  tables : t.tables = s.tables
  index : t.index = s.index
  names : t.names = s.names
  report : t.report = s.report
  capabilities : t.capabilities = s.capabilities
  disk : t.journal.disk = s.journal.disk
  fileBacked : t.journal.isFileBacked = s.journal.isFileBacked

theorem Twin.indistinct {s t : Session} (h : Twin s t) : Indistinct s t := by
  have hdisk := h.journal.disk
  have hbacked := h.journal.isFileBacked
  rw [h.same]
  exact ⟨rfl, rfl, rfl, rfl, rfl, rfl, rfl, rfl, hdisk, hbacked⟩

/-- A session that waits accepts a start that can be read. -/
theorem Waiting.handle_start {fresh s : Session} (h : Waiting fresh s)
    (hphase : s.phase = .uninitialized) {r : Request} {p : InitializeParams}
    (hmethod : r.method = "initialize")
    (hparams : decodeParams "initialize" InitializeParams.decode r.params = .ok p) :
    (s.handle (.request r)).2 = s.warn.accept r.id p := by
  have hnoted : s.noteMethod (.request r) = s := h.noteMethod _
  simp only [handle, hnoted, handleRequest, if_pos hmethod, handleInitialize, hphase, ne_eq,
    not_true_eq_false, if_false, hparams]

/--
**A start forgets what came before it.**  Let a session be sent any messages that leave it waiting,
and then a start that can be read.  Then it is in all respects as if the start had been sent to a
new session with the same settings and files, and the same messages are queued for it, except that
the notice for the user is left out if there was a request to start among the earlier messages.  In
all, the notice is queued once.
-/
theorem start_forgets (settings : Settings) (environment : Environment) (disk : Files)
    (history : List Message) (r : Request)
    (hwaits : ((new settings environment disk).handleAll history).phase = .uninitialized)
    (hstart : (Message.request r).isStart = true) :
    let fresh := new settings environment disk
    let late := fresh.handleAll history
    Indistinct (fresh.handle (.request r)).2 (late.handle (.request r)).2 ∧
    (∃ written,
      (fresh.handle (.request r)).2.outbox.queue = notice :: written ∧
      (late.handle (.request r)).2.outbox.queue = late.outbox.queue ++
        if history.any Message.isInitialize then written else notice :: written) ∧
    (late.handle (.request r)).2.outbox.queue.filter Message.isShown = [notice] := by
  intro fresh late
  have hfresh : Waiting fresh fresh := new_waiting settings environment disk
  have hlate : Waiting fresh late := by
    have h := takeAll_waiting settings environment disk (history.map .message)
    rw [takeAll_messages] at h
    exact h hwaits
  obtain ⟨hmethod, p, hparams⟩ := params_of_isStart hstart
  have hfreshStart := hfresh.handle_start rfl hmethod hparams
  have hlateStart := hlate.handle_start hwaits hmethod hparams
  obtain ⟨htwin, written, hfreshQueue, hlateQueue⟩ := hlate.warn_warn.accept r.id p
  refine ⟨?_, ⟨written, ?_, ?_⟩, ?_⟩
  · rw [hfreshStart, hlateStart]
    exact htwin.indistinct
  · rw [hfreshStart, hfreshQueue]
    rfl
  · rw [hlateStart, hlateQueue, warn_queue, openNotices,
      handleAll_warned settings environment disk hwaits, List.append_assoc]
    split <;> rfl
  · have hshown := handleAll_shownOnce settings environment disk (history ++ [.request r])
    rw [ShownOnce, handleAll_concat] at hshown
    have hwarned : (late.handle (.request r)).2.warned = true := by
      rw [handle_warned]
      simp [Message.isInitialize, hmethod, late, fresh, hwaits]
    rw [hshown, hwarned]
    rfl

/-- Messages that leave a session waiting: a start without parameters, and a trace level. -/
def earlyMessages : List Message :=
  [.request { id := .number 1, method := "initialize" },
    .notification
      { method := "$/setTrace", params := some (.object [("value", .string "verbose")]) }]

/-- A start with nothing to say. -/
def plainStart : Request :=
  { id := .number 2, method := "initialize", params := some (.object []) }

theorem start_forgets_earlyMessages :
    ((new {} {} {}).handleAll earlyMessages).phase = .uninitialized ∧
    (Message.request plainStart).isStart = true ∧
    Indistinct ((new {} {} {}).handle (.request plainStart)).2
      (((new {} {} {}).handleAll earlyMessages).handle (.request plainStart)).2 :=
  ⟨rfl, rfl, (start_forgets {} {} {} earlyMessages plainStart rfl rfl).1⟩

end VServer.Session
