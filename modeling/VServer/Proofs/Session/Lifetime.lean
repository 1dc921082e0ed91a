/-
What a session holds in the course of its life.

A session is empty until it is started: nothing is indexed, nothing has been offered to the client
and every table is as it was made.  The start fills it, once.  From then on what was filled stays
as it is, whatever the session is sent, except that an exit releases the tables.

The proof says once what an event can do to these fields.  An event that is not the start keeps
all of them and touches the tables only if it is an exit (`take_keeps`); the start fills them
(`take_startedFrom`).  The rest goes along the list of events.

The tables are the one part of this that changes twice.  An exit releases them, whether the session
was started or not, and nothing else does (`ReleasedOnExit`).
-/
import VServer.Proofs.Session.Reached

namespace VServer.Session

/-! ### Events that are not the start

An event is the start only if it can be read and the session has not been started, or ended,
before.  Every other event is covered by one lemma, whose cases are the ways in which a message is
taken.
-/

/-- The event is a start that can be read, and the session has not been started or exited. -/
def Succeeds (s : Session) (e : Event) : Prop :=
  s.phase = .uninitialized ∧ e.isStart = true

instance (s : Session) (e : Event) : Decidable (Succeeds s e) :=
  inferInstanceAs (Decidable (s.phase = .uninitialized ∧ e.isStart = true))

/-- What the start of a session settles is the same in both. -/
structure Keeps (s s' : Session) : Prop where
  settings : s'.settings = s.settings
  indexer : s'.indexer = s.indexer
  index : s'.index = s.index
  names : s'.names = s.names
  report : s'.report = s.report
  capabilities : s'.capabilities = s.capabilities
  rootUri : s'.rootUri = s.rootUri

namespace Keeps

theorem refl (s : Session) : Keeps s s :=
  ⟨rfl, rfl, rfl, rfl, rfl, rfl, rfl⟩

theorem trans {s s' s'' : Session} (h : Keeps s s') (h' : Keeps s' s'') : Keeps s s'' where
  settings := h'.settings.trans h.settings
  indexer := h'.indexer.trans h.indexer
  index := h'.index.trans h.index
  names := h'.names.trans h.names
  report := h'.report.trans h.report
  capabilities := h'.capabilities.trans h.capabilities
  rootUri := h'.rootUri.trans h.rootUri

end Keeps

/-- A message that is not the start keeps what the start settles, and lets go of the tables only if
it is an exit. -/
theorem Handled.keeps {s : Session} {m : Message} {out : Option Nat × Session}
    (h : Handled s m out) (hstart : ¬ (s.phase = .uninitialized ∧ m.isStart = true)) :
    Keeps s out.2 ∧ out.2.tables = if m.isExit then s.tables.releaseAll.2 else s.tables := by
  cases h with
  | exited hmethod =>
      exact ⟨⟨rfl, rfl, rfl, rfl, rfl, rfl, rfl⟩, by simp [Message.isExit, hmethod, exit]⟩
  | traced hmethod hparams =>
      exact ⟨⟨rfl, rfl, rfl, rfl, rfl, rfl, rfl⟩, by simp [Message.isExit, hmethod]⟩
  | unnoticed hexit htrace => exact ⟨.refl s, by simp [Message.isExit, hexit]⟩
  | ignored => exact ⟨.refl s, rfl⟩
  | started hmethod hphase hparams =>
      refine absurd ⟨hphase, ?_⟩ hstart
      rw [isStart_request hmethod, hparams]
      rfl
  | unstarted hmethod hphase hparams =>
      rw [warn_eq]
      exact ⟨⟨rfl, rfl, rfl, rfl, rfl, rfl, rfl⟩, rfl⟩
  | shutdown hmethod hphase => exact ⟨⟨rfl, rfl, rfl, rfl, rfl, rfl, rfl⟩, rfl⟩
  | refused hwhy => exact ⟨⟨rfl, rfl, rfl, rfl, rfl, rfl, rfl⟩, rfl⟩

/-- The same of any event. -/
theorem take_keeps {s : Session} {e : Event} (hstart : ¬ Succeeds s e) :
    Keeps s (s.take e) ∧
      (s.take e).tables = if e.isExit then s.tables.releaseAll.2 else s.tables := by
  have htaken := take_taken s e
  generalize s.take e = s' at htaken ⊢
  cases htaken with
  | collected => exact ⟨⟨rfl, rfl, rfl, rfl, rfl, rfl, rfl⟩, rfl⟩
  | @handled _ m noted out hmessage hnoted hhandled =>
      have hnoted := noted_eq hnoted
      have hkeeps : Keeps s noted := by
        rw [hnoted]
        exact ⟨rfl, rfl, rfl, rfl, rfl, rfl, rfl⟩
      have htables : noted.tables = s.tables := by rw [hnoted]
      have hphase : noted.phase = s.phase := by rw [hnoted]
      have hnot : ¬ (noted.phase = .uninitialized ∧ m.isStart = true) := by
        rintro ⟨huninitialized, hm⟩
        exact hstart ⟨hphase ▸ huninitialized, by simp [Event.isStart, hmessage, hm]⟩
      obtain ⟨hkept, hreleased⟩ := hhandled.keeps hnot
      refine ⟨hkeeps.trans hkept, ?_⟩
      rw [hreleased, htables, Event.isExit, hmessage]
      rfl

/-! ### The start -/

/-- The tables with one for the workspace, if there is one. -/
def openRoot (r : Registry) : Option String → Registry
  | some root => r.registerWorkspace root
  | none => r

@[simp] theorem openRoot_base (r : Registry) (root : Option String) :
    (openRoot r root).base = r.base := by
  cases root with
  | none => rfl
  | some root =>
      simp only [openRoot, Registry.registerWorkspace]
      split <;> rfl

@[simp] theorem openRoot_released (r : Registry) (root : Option String) :
    (openRoot r root).released = r.released := by
  cases root with
  | none => rfl
  | some root =>
      simp only [openRoot, Registry.registerWorkspace]
      split <;> rfl

/-- Where there was no workspace, there is the one that was opened. -/
theorem openRoot_names {r : Registry} (h : r.workspaces = NameMap.empty) (root : Option String) :
    (openRoot r root).workspaces.names = root.toList := by
  cases root with
  | none => simp [openRoot, h, NameMap.names, NameMap.empty]
  | some root =>
      have hnone : r.workspace? root = none := by rw [Registry.workspace?, h]; rfl
      simp only [openRoot, Registry.registerWorkspace, hnone, h]
      rfl

/-- The session as the indexer finds it when it is started with parameters that could be read. -/
def opened (s : Session) (p : InitializeParams) : Session :=
  { s with
    rootUri := rootOf s.journal.disk.cwd p
    trace := p.trace.getD .off
    tables := openRoot s.tables (rootOf s.journal.disk.cwd p)
    journal := (s.journal.start s.settings.debug (p.trace.getD .off) s.journalPath p.clientInfo).1
    phase := .initialized }

theorem accept_eq (s : Session) (id : RequestId) (p : InitializeParams) :
    s.accept id p = { (s.opened p).indexBuiltins with
      capabilities := some (.negotiate s.settings.features)
      outbox := (s.opened p).indexBuiltins.outbox.respond id
        (welcome (.negotiate s.settings.features)) } := by
  unfold accept opened openRoot
  rfl

/-- What indexing a session comes to. -/
def indexing (s : Session) (journal : Journal) : IndexRun Journal :=
  s.indexer.run journalWatcher
    { table := s.tables.base, index := s.index, names := s.names } journal

/-- The session as the indexer leaves it, before anything is said about it. -/
def filled (s : Session) : Session :=
  { s with
    indexer := (s.indexing s.journal).indexer
    tables := { s.tables with base := (s.indexing s.journal).data.table }
    index := (s.indexing s.journal).data.index
    names := (s.indexing s.journal).data.names
    journal := (s.indexing s.journal).watcher }

theorem indexBuiltins_eq (s : Session) :
    s.indexBuiltins =
      match (s.indexing s.journal).result with
      | .ok report =>
        { s.filled with
          journal := s.filled.journal.write .info
            ("Indexed " ++ report.files.repr ++ " builtin files (" ++
              s.filled.index.size.repr ++ " symbols)")
          report := some report }
      | .error e =>
        { s.filled.reportFault ("Failed to index builtin module: " ++ e.message) with
          report := some IndexReport.aborted } :=
  rfl

/-- What is said about it changes the report, the journal and the outbox. -/
theorem indexBuiltins_filled (s : Session) :
    s.indexBuiltins = { s.filled with
      report := s.indexBuiltins.report
      journal := s.indexBuiltins.journal
      outbox := s.indexBuiltins.outbox } := by
  rw [indexBuiltins_eq]
  split <;> rfl

theorem indexBuiltins_report (s : Session) : s.indexBuiltins.report.isSome = true := by
  simp only [indexBuiltins]
  split <;> rfl

/-- The indexer ran on what `s` holds, and `s'` holds what it left. -/
def Indexed (s s' : Session) : Prop :=
  ∃ journal : Journal,
    s'.indexer = (s.indexing journal).indexer ∧
    s'.tables.base = (s.indexing journal).data.table ∧
    s'.index = (s.indexing journal).data.index ∧
    s'.names = (s.indexing journal).data.names

/-- What a start leaves of a session. -/
structure StartedFrom (s s' : Session) : Prop where
  indexed : Indexed s s'
  report : s'.report.isSome = true
  capabilities : s'.capabilities = some (.negotiate s.settings.features)
  workspaces : s'.tables.workspaces = (openRoot s.tables s'.rootUri).workspaces
  released : s'.tables.released = s.tables.released

theorem accept_startedFrom (s : Session) (id : RequestId) (p : InitializeParams) :
    StartedFrom s (s.accept id p) := by
  -- The indexer finds what was there before, since opening a workspace leaves the base table.
  have hindexing : (s.opened p).indexing (s.opened p).journal
      = s.indexing (s.opened p).journal := by
    simp only [indexing, opened, openRoot_base]
  rw [accept_eq]
  refine ⟨⟨(s.opened p).journal, ?_⟩, indexBuiltins_report _, rfl, ?_, ?_⟩
  · rw [← hindexing, indexBuiltins_filled]
    exact ⟨rfl, rfl, rfl, rfl⟩
  · rw [indexBuiltins_filled]
    rfl
  · rw [indexBuiltins_filled]
    exact openRoot_released s.tables _

/-- **The start fills the session.** -/
theorem take_startedFrom {s : Session} {e : Event} (hstart : Succeeds s e) :
    StartedFrom s (s.take e) ∧ (s.take e).phase = .initialized := by
  obtain ⟨hphase, he⟩ := hstart
  have htaken := take_taken s e
  generalize s.take e = s' at htaken ⊢
  cases htaken with
  | collected => simp [Event.isStart, Event.message?] at he
  | @handled _ m noted out hmessage hnoted hhandled =>
      have hm : m.isStart = true := by simpa [Event.isStart, hmessage] using he
      have hnoted := noted_eq hnoted
      obtain ⟨r, p, -, -, haccept⟩ := hhandled.eq_accept (by rw [hnoted]; exact hphase) hm
      rw [haccept]
      -- Noting the method and warning the user touch nothing that the start goes by.
      obtain ⟨journal, outbox, warned, hwarn⟩ : ∃ journal outbox warned,
          noted.warn = { s with journal, outbox, warned } := by
        rw [warn_eq, hnoted]
        exact ⟨_, _, _, rfl⟩
      have hfrom := accept_startedFrom noted.warn r.id p
      refine ⟨?_, accept_phase _ _ _⟩
      generalize noted.warn.accept r.id p = s' at hfrom ⊢
      rw [hwarn] at hfrom
      exact ⟨hfrom.indexed, hfrom.report, hfrom.capabilities, hfrom.workspaces, hfrom.released⟩

/-! ### Along the events

Two inductions meet here.  Before the first start that succeeds, the session is `Unfilled`; behind
it, it keeps what the start has filled.  That there is one start at most follows from the phase,
which an event never takes back.
-/

/-- Once a session has been started or exited, what was settled stays, and the tables are as they
are until an exit. -/
theorem takeAll_keeps (later : List Event) :
    ∀ s : Session, s.phase ≠ .uninitialized →
      Keeps s (s.takeAll later) ∧
      ((∀ e ∈ later, e.isExit = false) → (s.takeAll later).tables = s.tables) := by
  induction later with
  | nil => intro s _; exact ⟨.refl s, fun _ => rfl⟩
  | cons e later ih =>
      intro s hphase
      obtain ⟨hkeeps, htables⟩ := take_keeps (e := e) fun h : Succeeds s e => hphase h.1
      have hnext : (s.take e).phase ≠ .uninitialized := fun h => hphase (uninitialized_of_take h)
      obtain ⟨hlater, hsame⟩ := ih (s.take e) hnext
      refine ⟨hkeeps.trans hlater, ?_⟩
      intro hexit
      have he : e.isExit = false := hexit e List.mem_cons_self
      calc (s.takeAll (e :: later)).tables = (s.take e).tables :=
            hsame fun e' he' => hexit e' (List.mem_cons_of_mem e he')
        _ = s.tables := by rw [htables, he]; rfl

/-- A session that holds nothing. -/
structure Unfilled (s : Session) : Prop where
  index : s.index = NameMap.empty
  names : s.names = []
  report : s.report = none
  capabilities : s.capabilities = none
  rootUri : s.rootUri = none
  workspaces : s.tables.workspaces = NameMap.empty
  base : s.tables.base = Table.initial

/-- Releasing tables that hold nothing leaves tables that hold nothing. -/
theorem releaseAll_initial {r : Registry}
    (h : r.released = true → r.workspaces = NameMap.empty ∧ r.base = Table.initial) :
    r.releaseAll.2.workspaces = NameMap.empty ∧ r.releaseAll.2.base = Table.initial ∧
      r.releaseAll.2.released = true := by
  unfold Registry.releaseAll
  split
  · rename_i hreleased
    exact ⟨(h hreleased).1, (h hreleased).2, hreleased⟩
  · exact ⟨rfl, rfl, rfl⟩

theorem Unfilled.take {s : Session} (h : Unfilled s) {e : Event} (hstart : ¬ Succeeds s e) :
    Unfilled (s.take e) := by
  obtain ⟨hkeeps, htables⟩ := take_keeps hstart
  have hempty : (s.take e).tables.workspaces = NameMap.empty ∧
      (s.take e).tables.base = Table.initial := by
    rw [htables]
    split
    · obtain ⟨hworkspaces, hbase, -⟩ := releaseAll_initial fun _ => ⟨h.workspaces, h.base⟩
      exact ⟨hworkspaces, hbase⟩
    · exact ⟨h.workspaces, h.base⟩
  exact ⟨hkeeps.index.trans h.index, hkeeps.names.trans h.names, hkeeps.report.trans h.report,
    hkeeps.capabilities.trans h.capabilities, hkeeps.rootUri.trans h.rootUri, hempty.1, hempty.2⟩

/-- The tables are released if and only if the session has exited. -/
structure ReleasedOnExit (s : Session) : Prop where
  released : s.tables.released = true ↔ s.phase = .exited
  workspaces : s.phase = .exited → s.tables.workspaces = NameMap.empty
  base : s.phase = .exited → s.tables.base = Table.initial

/-- One event keeps the tables and the phase in agreement. -/
theorem ReleasedOnExit.take {s : Session} (h : ReleasedOnExit s) (e : Event) :
    ReleasedOnExit (s.take e) := by
  by_cases hstart : Succeeds s e
  · obtain ⟨hfrom, hphase⟩ := take_startedFrom hstart
    have hnot : (s.take e).phase ≠ .exited := by simp [hphase]
    refine ⟨?_, fun hexited => absurd hexited hnot, fun hexited => absurd hexited hnot⟩
    rw [hfrom.released, h.released, hstart.1, hphase]
    simp
  · obtain ⟨-, htables⟩ := take_keeps hstart
    by_cases he : e.isExit = true
    · -- What has been released before is not released again, so it has to be empty by now.
      obtain ⟨hworkspaces, hbase, hreleased⟩ := releaseAll_initial fun hreleased =>
        ⟨h.workspaces (h.released.mp hreleased), h.base (h.released.mp hreleased)⟩
      rw [if_pos he] at htables
      have hexited : (s.take e).phase = .exited := (take_exited_iff s e).mpr (Or.inr he)
      rw [← htables] at hworkspaces hbase hreleased
      exact ⟨iff_of_true hreleased hexited, fun _ => hworkspaces, fun _ => hbase⟩
    · rw [if_neg he] at htables
      have hexited : (s.take e).phase = .exited ↔ s.phase = .exited := by
        simp [take_exited_iff, he]
      exact ⟨by rw [htables, hexited]; exact h.released,
        fun hphase => by rw [htables]; exact h.workspaces (hexited.mp hphase),
        fun hphase => by rw [htables]; exact h.base (hexited.mp hphase)⟩

theorem takeAll_releasedOnExit (settings : Settings) (environment : Environment) (disk : Files)
    (history : List Event) :
    ReleasedOnExit ((new settings environment disk).takeAll history) := by
  induction history using List.reverseRecOn with
  | nil => exact ⟨by simp [takeAll, new], fun _ => rfl, fun _ => rfl⟩
  | append_singleton history e ih =>
      rw [takeAll_concat]
      exact ih.take e

/-- A session in whose history no start succeeded holds nothing. -/
theorem takeAll_unfilled (settings : Settings) (environment : Environment) (disk : Files)
    (history : List Event)
    (h : ∀ before e behind, history = before ++ e :: behind →
      ¬ Succeeds ((new settings environment disk).takeAll before) e) :
    Unfilled ((new settings environment disk).takeAll history) := by
  induction history using List.reverseRecOn with
  | nil => exact ⟨rfl, rfl, rfl, rfl, rfl, rfl, rfl⟩
  | append_singleton history e ih =>
      rw [takeAll_concat]
      refine (ih ?_).take (h history e [] rfl)
      intro before e' behind heq
      exact h before e' (behind ++ [e]) (by simp [heq])

/-- How often the indexer runs when a session takes a list of events. -/
def indexRuns (s : Session) : List Event → Nat
  | [] => 0
  | e :: later => (if Succeeds s e then 1 else 0) + indexRuns (s.take e) later

/-- A session that has been started, or has exited, is not indexed again. -/
theorem indexRuns_eq_zero (later : List Event) :
    ∀ s : Session, s.phase ≠ .uninitialized → indexRuns s later = 0 := by
  induction later with
  | nil => intro s _; rfl
  | cons e later ih =>
      intro s hphase
      have hnext : (s.take e).phase ≠ .uninitialized := fun h => hphase (uninitialized_of_take h)
      rw [indexRuns, if_neg fun h : Succeeds s e => hphase h.1, ih (s.take e) hnext]

theorem indexRuns_le_one (history : List Event) : ∀ s : Session, indexRuns s history ≤ 1 := by
  induction history with
  | nil => intro s; exact Nat.zero_le 1
  | cons e later ih =>
      intro s
      rw [indexRuns]
      split
      · rename_i hstart
        have hphase : (s.take e).phase ≠ .uninitialized := by
          rw [(take_startedFrom hstart).2]
          simp
        have hzero := indexRuns_eq_zero later (s.take e) hphase
        omega
      · have := ih (s.take e)
        omega

/--
**A session is filled once, and then stays as it is.**  As long as no start has succeeded it holds
nothing.  From the first start that succeeds on, the index, the names, the report, the capabilities
and the workspace never change again; until the first exit there is one table for the workspace, if
there is a workspace, and the base table stays as well.  The tables are released if and only if the
session has exited, and then nothing is left in them.  An event runs the indexer if it is a start
that succeeds, any other event leaves what the indexer fills alone, and so the indexer runs at most
once.
-/
theorem filled_once (settings : Settings) (environment : Environment) (disk : Files)
    (history : List Event) :
    let fresh := new settings environment disk
    let s := fresh.takeAll history
    ((∀ before e behind, history = before ++ e :: behind →
        ¬ Succeeds (fresh.takeAll before) e) → Unfilled s) ∧
    (∀ before e behind, history = before ++ e :: behind → Succeeds (fresh.takeAll before) e →
      let started := (fresh.takeAll before).take e
      Keeps started s ∧ s.report.isSome = true ∧
      s.capabilities = some (.negotiate settings.features) ∧
      ((∀ later ∈ behind, later.isExit = false) →
        s.tables.workspaces.names = s.rootUri.toList ∧
        s.tables.base = started.tables.base)) ∧
    (s.tables.released = true ↔ s.phase = .exited) ∧
    (s.phase = .exited →
      s.tables.workspaces = NameMap.empty ∧ s.tables.base = Table.initial) ∧
    (∀ e, (Succeeds s e → Indexed s (s.take e)) ∧ (¬ Succeeds s e → Keeps s (s.take e))) ∧
    indexRuns fresh history ≤ 1 := by
  intro fresh s
  have hreleased := takeAll_releasedOnExit settings environment disk history
  refine ⟨takeAll_unfilled settings environment disk history, ?_, hreleased.released,
    fun hphase => ⟨hreleased.workspaces hphase, hreleased.base hphase⟩,
    fun e => ⟨fun hstart => (take_startedFrom hstart).1.indexed,
      fun hstart => (take_keeps hstart).1⟩, indexRuns_le_one history fresh⟩
  intro before e behind heq hstart started
  have hwaiting : Waiting fresh (fresh.takeAll before) :=
    takeAll_waiting settings environment disk before hstart.1
  obtain ⟨hfrom, hphase⟩ := take_startedFrom hstart
  have hlater : s = started.takeAll behind := by
    show fresh.takeAll history = _
    rw [heq, takeAll_append]
    rfl
  obtain ⟨hkeeps, htables⟩ := takeAll_keeps behind started (by simp [started, hphase])
  rw [← hlater] at hkeeps htables
  refine ⟨hkeeps, by rw [hkeeps.report]; exact hfrom.report, ?_, ?_⟩
  · rw [hkeeps.capabilities, hfrom.capabilities, hwaiting.same]
    rfl
  · intro hexit
    have hnone : (fresh.takeAll before).tables.workspaces = NameMap.empty := by
      rw [hwaiting.same]
      rfl
    rw [htables hexit, hkeeps.rootUri, hfrom.workspaces]
    exact ⟨openRoot_names hnone _, rfl⟩

end VServer.Session
