/-
The journal file of a session.

A session touches the disk once, when it is started, and only if it keeps a journal file then.  From
there on all that changes is the file: it gets the lines that the start writes, what the indexer has
to say, and the method of every message that comes later, up to the first exit.

The file is followed through three parts.  Giving the journal a file is about the disk alone, and is
settled elsewhere.  Indexing writes a line for each fault and one for the whole
(`indexBuiltins_journal`).  The messages that come later are a run, in which one message writes one
line or none (`handle_journal`), and an exit ends the writing.

Together these account for every byte of the file and for every place of the disk.  The file holds
what it held when it was opened and then the lines, in order, and no others.  Whatever else differs
between the first disk and the last one is the entry that was removed, or a directory that was made
above the file (`StartsWith.changed`).
-/
import VServer.Proofs.Session.Start
import VServer.Proofs.Journal.NewFile
import VServer.Proofs.SourceFile.Paths

namespace VServer

open Journal (writeAll linesBytes)

/-- What watches a reading of paths takes their faults in order. -/
theorem SourceFile.watcher_of_passes {σ : Type} {w : Watcher σ} {state : σ} {paths : List String}
    {outcomes : List (Option SyntaxTree × List FaultReport)} (h : Passes w state paths outcomes) :
    ∀ r : Reading, (readPaths w paths state r).watcher
      = (outcomes.flatMap Prod.snd).foldl w.report state := by
  induction h with
  | done state => exact fun r => rfl
  | next first later ih =>
      intro r
      rw [List.flatMap_cons, List.foldl_append]
      cases first with
      | tree htext =>
          simp only [readPaths, readPath_tree htext]
          exact ih _
      | fault herror =>
          simp only [readPaths, readPath_fault herror]
          exact ih _

namespace Session

/-! ### What the indexer has to say -/

/-- The lines that indexing writes to a journal: one for each fault of the files that are read, in
order, and one that says how many files and symbols there are; or one that says why no files were
read. -/
inductive IndexLines (ix : Indexer) (journal : Journal) (symbols : Nat) :
    List (JournalLevel × String) → Prop
  | failed {e : IndexError} (hlist : ix.listFiles journal.disk = .error e) :
      IndexLines ix journal symbols [(.error, "Failed to index builtin module: " ++ e.message)]
  | indexed {paths : List String} {outcomes : List (Option SyntaxTree × List FaultReport)}
      (hlist : ix.listFiles journal.disk = .ok paths)
      (hpasses : Passes journalWatcher journal (ix.target.select paths) outcomes) :
      IndexLines ix journal symbols
        ((outcomes.flatMap Prod.snd).map (fun fault => (.error, fault.display)) ++
          [(.info, "Indexed " ++ (outcomes.filterMap Prod.fst).length.repr ++ " builtin files (" ++
            symbols.repr ++ " symbols)")])

theorem foldl_journalWatcher (faults : List FaultReport) (journal : Journal) :
    faults.foldl journalWatcher.report journal =
      journal.writeAll (faults.map fun fault => (.error, fault.display)) := by
  rw [writeAll, List.foldl_map]
  rfl

/-- **Indexing writes what it has to say.** -/
theorem indexBuiltins_journal (s : Session) :
    ∃ lines, IndexLines s.indexer s.journal s.indexBuiltins.index.size lines ∧
      s.indexBuiltins.journal = s.journal.writeAll lines := by
  have hindex : s.indexBuiltins.index = s.filled.index := by rw [indexBuiltins_filled]
  rw [hindex, indexBuiltins_eq]
  have hrun : s.indexing s.journal = s.indexer.run journalWatcher
    { table := s.tables.base, index := s.index, names := s.names } s.journal := rfl
  cases hlist : s.indexer.listFiles s.journal.disk with
  | error e =>
      have hlist' : s.indexer.listFiles (journalWatcher.disk s.journal) = .error e := hlist
      rw [Indexer.run, hlist'] at hrun
      refine ⟨_, .failed hlist, ?_⟩
      have hjournal : s.filled.journal = s.journal := congrArg IndexRun.watcher hrun
      rw [congrArg IndexRun.result hrun]
      show s.filled.journal.write _ _ = _
      rw [hjournal]
      rfl
  | ok paths =>
      have hlist' : s.indexer.listFiles (journalWatcher.disk s.journal) = .ok paths := hlist
      rw [Indexer.run, hlist'] at hrun
      obtain ⟨outcomes, haccounts⟩ := SourceFile.exists_accounts journalWatcher
        (s.indexer.target.select paths) s.journal { table := s.tables.base }
      refine ⟨_, .indexed hlist haccounts.passes, ?_⟩
      have hjournal : s.filled.journal = s.journal.writeAll
          ((outcomes.flatMap Prod.snd).map fun fault => (.error, fault.display)) := by
        rw [← foldl_journalWatcher, ← SourceFile.watcher_of_passes haccounts.passes]
        exact congrArg IndexRun.watcher hrun
      rw [congrArg IndexRun.result hrun, Journal.writeAll_append, ← hjournal, ← haccounts.trees]
      rfl

/-! ### What later messages write

With a file attached, a session notes the method of every message that has one.  An exit closes the
journal behind its own line, and nothing is written from then on, so the lines are told by the
messages up to the first exit.
-/

/-- The line that a message writes. -/
def noteOf (m : Message) : List (JournalLevel × String) :=
  m.method?.toList.map fun method => (.info, "<- " ++ method)

/-- The lines that messages write, up to the first exit. -/
def notes : List Message → List (JournalLevel × String)
  | [] => []
  | m :: later => noteOf m ++ if m.isExit then [] else notes later

theorem noteMethod_journal {s : Session} {q : Place} (h : s.journal.target = some q)
    (m : Message) : (s.noteMethod m).journal = s.journal.writeAll (noteOf m) := by
  unfold noteMethod noteOf
  cases m.method? with
  | none => rfl
  | some method =>
      simp only [Journal.isFileBacked, h, Option.isSome_some, if_true]
      rfl

theorem noteMethod_journal_unattached {s : Session} (h : s.journal.target = none) (m : Message) :
    (s.noteMethod m).journal = s.journal := by
  unfold noteMethod
  split
  · simp [Journal.isFileBacked, h]
  · rfl

/-- Once a session has been started or exited, a message is noted, and an exit closes the
journal. -/
theorem handle_journal {s : Session} (hphase : s.phase ≠ .uninitialized) (m : Message) :
    (s.handle m).2.journal =
      if m.isExit then (s.noteMethod m).journal.close else (s.noteMethod m).journal := by
  have hhandled := handle_handled s m
  have hnoted : (s.noteMethod m).phase ≠ .uninitialized := by
    rw [noteMethod_phase]
    exact hphase
  generalize s.noteMethod m = s' at hhandled hnoted ⊢
  generalize s.handle m = out at hhandled ⊢
  cases hhandled with
  | exited hmethod => simp [Message.isExit, hmethod, exit]
  | traced hmethod hparams => simp [Message.isExit, hmethod]
  | unnoticed hexit htrace => simp [Message.isExit, hexit]
  | ignored => rfl
  | started hmethod hstart hparams => exact absurd hstart hnoted
  | unstarted hmethod hstart hparams => exact absurd hstart hnoted
  | shutdown hmethod hdown => rfl
  | refused hwhy => rfl

theorem phase_handle_ne {s : Session} (h : s.phase ≠ .uninitialized) (m : Message) :
    (s.handle m).2.phase ≠ .uninitialized :=
  fun hnext => h (uninitialized_of_take (e := .message m) hnext)

/-- A session without a file leaves the disk alone. -/
theorem handleAll_unattached (later : List Message) :
    ∀ s : Session, s.phase ≠ .uninitialized → s.journal.target = none →
      (s.handleAll later).journal.disk = s.journal.disk := by
  induction later with
  | nil => exact fun s _ _ => rfl
  | cons m later ih =>
      intro s hphase htarget
      have hjournal := handle_journal hphase m
      rw [noteMethod_journal_unattached htarget] at hjournal
      have hnext : (s.handle m).2.journal.target = none ∧
          (s.handle m).2.journal.disk = s.journal.disk := by
        rw [hjournal]
        split
        · exact ⟨rfl, rfl⟩
        · exact ⟨htarget, rfl⟩
      exact (ih _ (phase_handle_ne hphase m) hnext.1).trans hnext.2

/-- **Later messages write their methods to the file, up to the first exit.** -/
theorem handleAll_attached {q : Place} (later : List Message) :
    ∀ (s : Session) (content : Text.Bytes) (executable : Bool), s.phase ≠ .uninitialized →
      s.journal.target = some q → s.journal.disk.node? q = some (.file content executable) →
      (s.handleAll later).journal.disk = s.journal.disk.append q (linesBytes (notes later)) := by
  induction later with
  | nil => exact fun s content executable _ _ hfile => (Files.append_nil hfile).symm
  | cons m later ih =>
      intro s content executable hphase htarget hfile
      have hjournal := handle_journal hphase m
      rw [noteMethod_journal htarget] at hjournal
      have hnoted := Journal.disk_writeAll htarget hfile (noteOf m)
      have hphase' := phase_handle_ne hphase m
      show ((s.handle m).2.handleAll later).journal.disk = _
      rw [notes, linesBytes, List.flatMap_append]
      by_cases hexit : m.isExit = true
      · rw [if_pos hexit] at hjournal ⊢
        rw [handleAll_unattached later _ hphase' (by rw [hjournal]; rfl), hjournal,
          List.flatMap_nil, List.append_nil]
        exact hnoted
      · rw [if_neg hexit] at hjournal ⊢
        have hdisk : (s.handle m).2.journal.disk
            = s.journal.disk.append q (linesBytes (noteOf m)) := by
          rw [hjournal]
          exact hnoted
        have hfile' : (s.handle m).2.journal.disk.node? q
            = some (.file (content ++ linesBytes (noteOf m)) executable) := by
          rw [hdisk, Files.node?_append hfile, if_pos rfl]
        rw [ih _ _ _ hphase' (by rw [hjournal, Journal.target_writeAll, htarget]) hfile', hdisk,
          Files.append_append hfile]
        rfl

/-! ### Before the start -/

/-- A message that does not start the session leaves the disk alone if no file is attached. -/
theorem handle_untouched {s : Session} {m : Message} (htarget : s.journal.target = none)
    (hstart : ¬ (s.phase = .uninitialized ∧ m.isStart = true)) :
    (s.handle m).2.journal.target = none ∧ (s.handle m).2.journal.disk = s.journal.disk := by
  have hhandled := handle_handled s m
  have hnoted : s.noteMethod m = s := by
    rw [noteMethod_eq, noteMethod_journal_unattached htarget]
  rw [hnoted] at hhandled
  generalize s.handle m = out at hhandled ⊢
  cases hhandled with
  | exited hmethod => exact ⟨rfl, rfl⟩
  | traced hmethod hparams => exact ⟨htarget, rfl⟩
  | unnoticed hexit htrace => exact ⟨htarget, rfl⟩
  | ignored => exact ⟨htarget, rfl⟩
  | started hmethod hphase hparams =>
      refine absurd ⟨hphase, ?_⟩ hstart
      rw [isStart_request hmethod, hparams]
      rfl
  | @unstarted r e hmethod hphase hparams =>
      have hjournal : s.warn.journal = s.journal := by rw [warn_eq]
      have halike := Journal.write_alike htarget .error e.message
      show (s.warn.journal.write .error e.message).target = none ∧
        (s.warn.journal.write .error e.message).disk = s.journal.disk
      rw [hjournal]
      exact ⟨halike.target.trans htarget, halike.disk⟩
  | shutdown hmethod hdown => exact ⟨htarget, rfl⟩
  | refused hwhy => exact ⟨htarget, rfl⟩

/-- The message behind `before` starts the session with the parameters `p`. -/
structure StartsWith (settings : Settings) (environment : Environment) (disk : Files)
    (before : List Message) (r : Request) (p : InitializeParams) : Prop where
  waits : ((new settings environment disk).handleAll before).phase = .uninitialized
  method : r.method = "initialize"
  params : decodeParams "initialize" InitializeParams.decode r.params = .ok p

section Start

variable (settings : Settings) (environment : Environment) (disk : Files)

/-- A session leaves the disk alone until it is started. -/
theorem untouched_or_started (history : List Message) :
    (((new settings environment disk).handleAll history).journal.target = none ∧
        ((new settings environment disk).handleAll history).journal.disk = disk) ∨
      ∃ before r p later, history = before ++ .request r :: later ∧
        StartsWith settings environment disk before r p := by
  induction history using List.reverseRecOn with
  | nil => exact .inl ⟨rfl, rfl⟩
  | append_singleton history m ih =>
      rcases ih with ⟨htarget, hdisk⟩ | ⟨before, r, p, later, rfl, hstart⟩
      · rw [handleAll_concat]
        by_cases hstart : ((new settings environment disk).handleAll history).phase
            = .uninitialized ∧ m.isStart = true
        · obtain ⟨hwaits, hm⟩ := hstart
          cases m with
          | request r =>
              obtain ⟨hmethod, p, hparams⟩ := params_of_isStart hm
              exact .inr ⟨history, r, p, [], rfl, hwaits, hmethod, hparams⟩
          | notification n => cases hm
          | response r => cases hm
        · obtain ⟨htarget', hdisk'⟩ := handle_untouched htarget hstart
          exact .inl ⟨htarget', hdisk'.trans hdisk⟩
      · exact .inr ⟨before, r, p, later ++ [m], by simp, hstart⟩

/-! ### The start

The first message that starts the session splits the history into what came before, which changed
nothing on the disk, and what comes later.  All that is decided about the file is decided there.
-/

/-- The journal of a session once it was given a file, or was not. -/
def givenFile (p : InitializeParams) : Journal :=
  (({ disk } : Journal).attachNew settings.debug (p.trace.getD .off)
    (settings.journalPath environment)).1

/-- The lines that every journal starts with. -/
def openingLines (p : InitializeParams) : List (JournalLevel × String) :=
  [(.info, Journal.versionLine), (.info, Journal.clientLine p.clientInfo)]

variable {settings environment disk}

/-- What the start of a session does to its journal, whatever came before it. -/
theorem StartsWith.journal {before : List Message} {r : Request} {p : InitializeParams}
    (h : StartsWith settings environment disk before r p) :
    let started := (new settings environment disk).handleAll (before ++ [.request r])
    let given := givenFile settings environment disk p
    started.phase = .initialized ∧ started.journal.target = given.target ∧
      ∃ lines, IndexLines (new settings environment disk).indexer
          (given.writeAll (openingLines p)) started.index.size lines ∧
        started.journal.disk = (given.writeAll (openingLines p ++ lines)).disk := by
  intro started given
  have hlate : Waiting (new settings environment disk)
      ((new settings environment disk).handleAll before) := by
    have hwaiting := takeAll_waiting settings environment disk (before.map .message)
    rw [takeAll_messages] at hwaiting
    exact hwaiting h.waits
  have hstarted : started
      = ((new settings environment disk).handleAll before).warn.accept r.id p := by
    rw [← hlate.handle_start h.waits h.method h.params, ← handleAll_concat]
  -- The same start of a new session comes to the same journal.
  obtain ⟨htwin, -⟩ := hlate.warn_warn.accept r.id p
  rw [← hstarted] at htwin
  obtain ⟨lines, hlines, hjournal⟩ :=
    indexBuiltins_journal ((new settings environment disk).warn.opened p)
  have hopened : ((new settings environment disk).warn.opened p).journal
      = given.writeAll (openingLines p) := rfl
  have haccepted : ((new settings environment disk).warn.accept r.id p).journal
      = given.writeAll (openingLines p ++ lines) := by
    rw [accept_eq, Journal.writeAll_append, ← hopened, ← hjournal]
  have hindex : started.index
      = ((new settings environment disk).warn.opened p).indexBuiltins.index := by
    rw [htwin.same, accept_eq]
  have hphase : started.phase = .initialized := by
    rw [hstarted]
    exact accept_phase _ _ _
  refine ⟨hphase, ?_, lines, ?_, ?_⟩
  · rw [htwin.journal.target, haccepted, Journal.target_writeAll]
  · rw [hindex, ← hopened]
    exact hlines
  · rw [htwin.journal.disk, haccepted]

theorem handleAll_append (s : Session) (history later : List Message) :
    s.handleAll (history ++ later) = (s.handleAll history).handleAll later :=
  List.foldl_append

/-- The disk of a session that was started: what lines were written went to the end of the file. -/
theorem StartsWith.written {before : List Message} {r : Request} {p : InitializeParams}
    (h : StartsWith settings environment disk before r p) (later : List Message) :
    let s := (new settings environment disk).handleAll (before ++ .request r :: later)
    let given := givenFile settings environment disk p
    (given.target = none → s.journal.disk = given.disk) ∧
      ∀ q content executable, given.target = some q →
        given.disk.node? q = some (.file content executable) →
        ∃ lines, IndexLines (new settings environment disk).indexer
            (given.writeAll (openingLines p)) s.index.size lines ∧
          s.journal.disk
            = given.disk.append q (linesBytes (openingLines p ++ lines ++ notes later)) := by
  intro s given
  obtain ⟨hphase, htarget, lines, hlines, hdisk⟩ := h.journal
  have hstarted : s = ((new settings environment disk).handleAll (before ++ [.request r])).handleAll
      later := by
    rw [← handleAll_append, List.append_assoc]
    rfl
  generalize (new settings environment disk).handleAll (before ++ [.request r]) = started
    at hphase htarget hlines hdisk hstarted
  have hready : started.phase ≠ .uninitialized := by
    rw [hphase]
    exact (nomatch ·)
  refine ⟨fun hnone => ?_, fun q content executable hq hfile => ⟨lines, ?_, ?_⟩⟩
  · rw [hstarted, handleAll_unattached later started hready (htarget.trans hnone), hdisk]
    exact Journal.disk_writeAll_unattached hnone _
  · have hkeeps := (takeAll_keeps (later.map .message) started hready).1
    rw [takeAll_messages, ← hstarted] at hkeeps
    rw [hkeeps.index]
    exact hlines
  · have hwritten := Journal.disk_writeAll hq hfile (openingLines p ++ lines)
    rw [← hdisk] at hwritten
    have hfile' : started.journal.disk.node? q = some
        (.file (content ++ linesBytes (openingLines p ++ lines)) executable) := by
      rw [hwritten, Files.node?_append hfile, if_pos rfl]
    rw [hstarted, handleAll_attached later started _ _ hready (htarget.trans hq) hfile', hwritten,
      Files.append_append hfile, ← Journal.linesBytes_append]

theorem givenFile_unwanted {p : InitializeParams}
    (h : Journal.wantsFile settings.debug (p.trace.getD .off) = false) :
    givenFile settings environment disk p = { disk } := by
  rw [givenFile, Journal.attachNew, h]
  rfl

theorem givenFile_wanted {p : InitializeParams}
    (h : Journal.wantsFile settings.debug (p.trace.getD .off) = true) :
    let path := settings.journalPath environment
    (givenFile settings environment disk p).disk
        = (Journal.openFile (disk.discarded path) path).1 ∧
      (givenFile settings environment disk p).target
        = (Journal.openFile (disk.discarded path) path).2.toOption :=
  Journal.attachNew_eq _ rfl h

/-- The file that a session was given, and what it holds then. -/
theorem givenFile_attached {p : InitializeParams} {q : Place}
    (h : (givenFile settings environment disk p).target = some q) :
    let path := settings.journalPath environment
    let given := (givenFile settings environment disk p).disk
    Journal.openFile (disk.discarded path) path = (given, .ok q) ∧
      given.resolve path = .ok q ∧
      ∃ content executable, given.node? q = some (.file content executable) ∧
        (content = [] ∨ disk.node? q = some (.file content executable)) := by
  intro path given
  have hwants : Journal.wantsFile settings.debug (p.trace.getD .off) = true := by
    by_contra hnot
    rw [givenFile_unwanted (Bool.eq_false_iff.mpr hnot)] at h
    cases h
  obtain ⟨hdisk, htarget⟩ := @givenFile_wanted settings environment disk p hwants
  have hopen : Journal.openFile (disk.discarded path) path = (given, .ok q) := by
    refine Prod.ext hdisk.symm ?_
    rw [h] at htarget
    cases hresult : (Journal.openFile (disk.discarded path) path).2 with
    | error e =>
        rw [hresult] at htarget
        cases htarget
    | ok place =>
        rw [hresult] at htarget
        rw [Option.some.inj htarget]
  exact ⟨hopen, Journal.openFile_file hopen⟩

/-- **A session leaves the disk alone, or it was started and wanted a file.** -/
theorem untouched_or_wanted (history : List Message) :
    ((new settings environment disk).handleAll history).journal.disk = disk ∨
      ∃ before r p later, history = before ++ .request r :: later ∧
        StartsWith settings environment disk before r p ∧
        Journal.wantsFile settings.debug (p.trace.getD .off) = true := by
  rcases untouched_or_started settings environment disk history with
    ⟨-, hdisk⟩ | ⟨before, r, p, later, rfl, hstart⟩
  · exact .inl hdisk
  · by_cases hwants : Journal.wantsFile settings.debug (p.trace.getD .off) = true
    · exact .inr ⟨before, r, p, later, rfl, hstart, hwants⟩
    · have hdisk := (hstart.written later).1
      rw [givenFile_unwanted (Bool.eq_false_iff.mpr hwants)] at hdisk
      exact .inl (hdisk rfl)

/-- The disk of a session that was given a file: the path leads to the file, which has got the
lines. -/
theorem StartsWith.attached {before : List Message} {r : Request} {p : InitializeParams} {q : Place}
    (h : StartsWith settings environment disk before r p) (later : List Message)
    (hq : (givenFile settings environment disk p).target = some q) :
    let s := (new settings environment disk).handleAll (before ++ .request r :: later)
    let given := givenFile settings environment disk p
    Files.Covers given.disk s.journal.disk ∧
      s.journal.disk.resolve (settings.journalPath environment) = .ok q ∧
      ∃ content lines executable, given.disk.node? q = some (.file content executable) ∧
        (content = [] ∨ disk.node? q = some (.file content executable)) ∧
        IndexLines (new settings environment disk).indexer
          (given.writeAll (openingLines p)) s.index.size lines ∧
        ∀ place, s.journal.disk.node? place =
          if place = q then
            some (.file (content ++ linesBytes (openingLines p ++ lines ++ notes later)) executable)
          else given.disk.node? place := by
  intro s given
  obtain ⟨-, hresolve, content, executable, hfile, hearlier⟩ := givenFile_attached hq
  obtain ⟨lines, hlines, hwritten⟩ := (h.written later).2 q content executable hq hfile
  have hcovers : Files.Covers given.disk s.journal.disk := by
    rw [hwritten]
    exact .of_append hfile _
  refine ⟨hcovers, hcovers.resolve hresolve, content, lines, executable, hfile, hearlier, hlines,
    ?_⟩
  intro place
  rw [hwritten, Files.node?_append hfile]

/-- What a session that was started has changed. -/
theorem StartsWith.changed {before : List Message} {r : Request} {p : InitializeParams}
    (h : StartsWith settings environment disk before r p)
    (hwants : Journal.wantsFile settings.debug (p.trace.getD .off) = true) (later : List Message)
    (q : Place) :
    let s := (new settings environment disk).handleAll (before ++ .request r :: later)
    let path := settings.journalPath environment
    s.journal.disk.node? q ≠ disk.node? q →
      disk.entryOf path = .ok (some q) ∨ s.journal.disk.resolve path = .ok q ∨
        (disk.node? q = none ∧ Journal.IsAbove s.journal.disk path q) := by
  intro s path hchanged
  obtain ⟨hnone, hsome⟩ := h.written later
  obtain ⟨hdisk, htarget⟩ := @givenFile_wanted settings environment disk p hwants
  have hopened := Journal.changed_by_openFile disk path q
  rw [← hdisk] at hopened
  cases hgiven : (givenFile settings environment disk p).target with
  | none =>
      rw [hnone hgiven] at hchanged ⊢
      rcases hopened hchanged with hentry | hok | habove
      · exact .inl hentry
      · rw [hgiven, hok] at htarget
        cases htarget
      · exact .inr (.inr habove)
  | some file =>
      obtain ⟨hcovers, hresolve, content, lines, executable, -, -, -, hnodes⟩ :=
        h.attached later hgiven
      by_cases hq : q = file
      · rw [hq]
        exact .inr (.inl hresolve)
      · have hsame := hnodes q
        rw [if_neg hq] at hsame
        rcases hopened (by rw [← hsame]; exact hchanged) with hentry | hok | ⟨hmissing, habove⟩
        · exact .inl hentry
        · rw [hgiven, hok] at htarget
          exact absurd (Option.some.inj htarget).symm hq
        · exact .inr (.inr ⟨hmissing, habove.mono hcovers⟩)

end Start

/--
**The journal file of a session.**

A session changes the disk only if it was started with a request that can be read, and debugging was
set or the request asked for verbose traces.  Then what changes is the entry of the path, the file
that the path leads to, and directories above it that were missing.

If the file was attached, it holds what it held when it was opened, and then the two opening lines,
the lines of the indexer, and the methods of all later messages up to the first exit.  What it held
when it was opened is nothing, or what the file has held from the beginning; and it is nothing if
the path has no step to a parent and everything on the disk lies in a directory.
-/
theorem journal_file_exact (settings : Settings) (environment : Environment) (disk : Files)
    (history : List Message) :
    let s := (new settings environment disk).handleAll history
    let path := settings.journalPath environment
    (s.journal.disk ≠ disk → ∃ before r p later, history = before ++ .request r :: later ∧
      StartsWith settings environment disk before r p ∧
      Journal.wantsFile settings.debug (p.trace.getD .off) = true) ∧
    (∀ q, s.journal.disk.node? q ≠ disk.node? q →
      disk.entryOf path = .ok (some q) ∨ s.journal.disk.resolve path = .ok q ∨
        (disk.node? q = none ∧ Journal.IsAbove s.journal.disk path q)) ∧
    ∀ before r p later q, history = before ++ .request r :: later →
      StartsWith settings environment disk before r p →
      ((new settings environment disk).handleAll (before ++ [.request r])).journal.target = some q →
      s.journal.disk.resolve path = .ok q ∧
      ∃ earlier lines executable,
        IndexLines (new settings environment disk).indexer
          ((givenFile settings environment disk p).writeAll (openingLines p)) s.index.size lines ∧
        s.journal.disk.node? q = some (.file
          (earlier ++ linesBytes (openingLines p ++ lines ++ notes later)) executable) ∧
        (earlier = [] ∨ disk.node? q = some (.file earlier executable)) ∧
        (disk.Rooted → ".." ∉ Files.names path → earlier = []) := by
  intro s path
  have hcases := @untouched_or_wanted settings environment disk history
  refine ⟨fun hchanged => hcases.resolve_left hchanged, ?_, ?_⟩
  · intro q hchanged
    rcases hcases with hdisk | ⟨before, r, p, later, rfl, hstart, hwants⟩
    · exact absurd (congrArg (Files.node? · q) hdisk) hchanged
    · exact hstart.changed hwants later q hchanged
  · rintro before r p later q rfl hstart htarget
    have hgiven := hstart.journal.2.1.symm.trans htarget
    obtain ⟨-, hresolve, content, lines, executable, hfile, hearlier, hlines, hnodes⟩ :=
      hstart.attached later hgiven
    have hnode := hnodes q
    rw [if_pos rfl] at hnode
    refine ⟨hresolve, content, lines, executable, hlines, hnode, hearlier, ?_⟩
    intro hrooted hup
    have hfresh := Journal.openFile_fresh hrooted hup (givenFile_attached hgiven).1
    rw [hfile] at hfresh
    exact (Node.file.inj (Option.some.inj hfresh)).1

/-- A directory with a journal file from earlier. -/
def oldJournal : Files where
  nodes := [(["d"], .directory), (["d", "vls.log"], .file (Text.encodeString "old\n") false)]

/-- A session that is started, shut down and left, and then left again. -/
def wholeLife : List Message :=
  [.request plainStart, .request { id := .number 3, method := "shutdown" },
    .notification { method := "exit" }, .notification { method := "exit" }]

theorem journal_file_oldJournal :
    let settings : Settings := { debug := true, logPath := some "d/vls.log" }
    let s := (new settings {} oldJournal).handleAll wholeLife
    oldJournal.Rooted ∧ StartsWith settings {} oldJournal [] plainStart {} ∧
    ∃ lines executable,
      IndexLines (new settings {} oldJournal).indexer
        ((givenFile settings {} oldJournal {}).writeAll (openingLines {})) s.index.size lines ∧
      s.journal.disk.node? ["d", "vls.log"] = some (.file (linesBytes (openingLines {} ++ lines ++
        [(.info, "<- shutdown"), (.info, "<- exit")])) executable) := by
  intro settings s
  have hrooted : oldJournal.Rooted := Files.rooted_of_nodes (by decide)
  have hstart : StartsWith settings {} oldJournal [] plainStart {} := ⟨rfl, rfl, rfl⟩
  have htarget : ((new settings {} oldJournal).handleAll
      ([] ++ [.request plainStart])).journal.target = some ["d", "vls.log"] := by
    decide +kernel
  obtain ⟨-, -, hcontent⟩ := journal_file_exact settings {} oldJournal wholeLife
  obtain ⟨-, earlier, lines, executable, hlines, hnode, -, hfresh⟩ :=
    hcontent [] plainStart {} _ _ rfl hstart htarget
  obtain rfl := hfresh hrooted (by decide +kernel)
  exact ⟨hrooted, hstart, lines, executable, hlines, hnode⟩

/-- A step to a parent behind a directory that is missing: the file from earlier is not removed, and
goes on. -/
theorem old_journal_goes_on :
    let settings : Settings := { debug := true, logPath := some "x/../vls.log" }
    let disk : Files := { nodes := [(["vls.log"], .file (Text.encodeString "old\n") false)] }
    ((new settings {} disk).handleAll [.request plainStart]).journal.disk.node? ["vls.log"] =
      some (.file (Text.encodeString "old\n" ++ linesBytes (openingLines {} ++
        [(.error, "Failed to index builtin module: " ++ IndexError.vrootUnknown.message)]))
        false) := by
  decide +kernel

end Session

end VServer
