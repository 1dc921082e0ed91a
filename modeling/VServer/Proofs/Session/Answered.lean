/-
Which requests are served, and what a request that is not served leaves behind.

Whether a request is served depends on its method and on the phase, and so does the code of the
error it is answered with otherwise.  A request that is refused changes nothing but the outbox and
a line of the journal.  The same holds of a start that cannot be read: it is told to the editor's
log and to the journal, and since no file is attached to the journal of a session that has not
been started, the files stay as they were.

`Handled` lists the ways in which a message can be taken, and this module goes through them for a
request.  In each of them one response is queued last, with the id of the request.  What else has
changed is said by `Unmoved`, which is the strongest statement for a request that is refused: the
whole session but for three fields.
-/
import VServer.Proofs.Session.Reached

namespace VServer.Session

/-! ### Served and refused -/

/-- A request with this method is served in this phase. -/
def Served (phase : Phase) (method : String) : Prop :=
  method = "initialize" ∧ phase = .uninitialized ∨
    method = "shutdown" ∧ (phase = .initialized ∨ phase = .shutdown)

/-- The code of the error with which a request is refused. -/
def refusalCode (phase : Phase) (method : String) : Int :=
  if phase = .uninitialized then -32002
  else if method = "initialize" ∨ phase = .shutdown ∨ phase = .exited then -32600
  else -32601

/-- What is refused is not served, and the reason has the code that phase and method call for. -/
theorem refused_code {phase : Phase} {method : String} {why : Refusal}
    (h : refusal? phase method = some why) :
    ¬ Served phase method ∧ why.toError.code = refusalCode phase method := by
  by_cases hinit : method = "initialize"
  · cases phase with
    | uninitialized => simp [refusal?, hinit] at h
    | initialized | shutdown | exited =>
        obtain rfl : Refusal.alreadyInitialized = why := by simpa [refusal?, hinit] using h
        exact ⟨by simp [Served, hinit], by simp [refusalCode, hinit]; rfl⟩
  by_cases hdown : method = "shutdown"
  · cases phase with
    | uninitialized =>
        obtain rfl : Refusal.notInitialized = why := by simpa [refusal?, hinit] using h
        exact ⟨by simp [Served, hinit], rfl⟩
    | initialized | shutdown => simp [refusal?, hdown] at h
    | exited =>
        obtain rfl : Refusal.afterExit = why := by simpa [refusal?, hdown] using h
        exact ⟨by simp [Served, hinit], by simp [refusalCode]; rfl⟩
  have hnot : ¬ Served phase method := by simp [Served, hinit, hdown]
  refine ⟨hnot, ?_⟩
  cases phase with
  | uninitialized =>
      obtain rfl : Refusal.notInitialized = why := by simpa [refusal?, hinit] using h
      rfl
  | initialized =>
      obtain rfl : Refusal.unknownMethod method = why := by simpa [refusal?, hinit, hdown] using h
      simp [refusalCode, hinit]
      rfl
  | shutdown | exited =>
      obtain rfl : Refusal.afterShutdown method = why := by simpa [refusal?, hinit, hdown] using h
      simp [refusalCode]
      rfl

/-! ### What stays

A method is noted where a file is attached to the journal, and the note goes to that file.  So even
a request that is refused may leave a line on the disk, and `notedDisk` says which.
-/

/-- The files behind the line that notes a method, if a file is attached. -/
def notedDisk (j : Journal) (method : String) : Files :=
  match j.target with
  | some place => j.disk.append place (Journal.lineBytes .info ("<- " ++ method))
  | none => j.disk

/-- Nothing has changed but the outbox, the line that notes the method, and whether the user has
been warned. -/
structure Unmoved (method : String) (s s' : Session) : Prop where
  phase : s'.phase = s.phase
  trace : s'.trace = s.trace
  rootUri : s'.rootUri = s.rootUri
  tables : s'.tables = s.tables
  index : s'.index = s.index
  names : s'.names = s.names
  report : s'.report = s.report
  capabilities : s'.capabilities = s.capabilities
  disk : s'.journal.disk = notedDisk s.journal method

theorem noteMethod_disk (s : Session) (r : Request) :
    (s.noteMethod (.request r)).journal.disk = notedDisk s.journal r.method := by
  simp only [noteMethod, Message.method?, notedDisk]
  split
  · rename_i hbacked
    obtain ⟨place, hplace⟩ := Option.isSome_iff_exists.mp hbacked
    simp [Journal.write, Journal.remember, hplace]
  · rename_i hbacked
    have hnone : s.journal.target = none := by simpa [Journal.isFileBacked] using hbacked
    simp [hnone]

/-- Noting the method of a request leaves a session unmoved. -/
theorem unmoved_noteMethod (s : Session) (r : Request) :
    Unmoved r.method s (s.noteMethod (.request r)) := by
  have hdisk := noteMethod_disk s r
  rw [noteMethod_eq] at hdisk ⊢
  exact ⟨rfl, rfl, rfl, rfl, rfl, rfl, rfl, rfl, hdisk⟩

namespace Unmoved

variable {method : String} {s s' : Session}

theorem outbox (h : Unmoved method s s') (outbox : Outbox) :
    Unmoved method s { s' with outbox } :=
  ⟨h.phase, h.trace, h.rootUri, h.tables, h.index, h.names, h.report, h.capabilities, h.disk⟩

theorem warn (h : Unmoved method s s') : Unmoved method s s'.warn := by
  rw [warn_eq]
  exact ⟨h.phase, h.trace, h.rootUri, h.tables, h.index, h.names, h.report, h.capabilities, h.disk⟩

/-- A fault that goes to no file leaves a session unmoved. -/
theorem reportFault (h : Unmoved method s s') (htarget : s'.journal.target = none)
    (text : String) : Unmoved method s (s'.reportFault text) where
  phase := h.phase
  trace := h.trace
  rootUri := h.rootUri
  tables := h.tables
  index := h.index
  names := h.names
  report := h.report
  capabilities := h.capabilities
  disk := (Journal.write_alike htarget .error text).disk.trans h.disk

end Unmoved

/-! ### The answer -/

/-- The message that tells the editor's log of an error. -/
def errorNote (text : String) : Message :=
  .notification
    { method := "window/logMessage"
      params := some (MessageParams.toJson ⟨.error, text⟩).sorted }

theorem openNotices_response (s : Session) : ∀ m ∈ s.openNotices, m.response? = none := by
  intro m hm
  unfold openNotices at hm
  split at hm
  · simp at hm
  · obtain rfl := List.mem_singleton.mp hm
    rfl

/-- How a request is answered: the messages `before` are queued and behind them `response`, by
which the session comes from `s` to `s'`. -/
structure Reply (s s' : Session) (r : Request) (before : List Message) (response : Response) :
    Prop where
  queued : s'.outbox.queue = s.outbox.queue ++ before ++ [.response response]
  alone : ∀ m ∈ before, m.response? = none
  id : response.id = some r.id
  success : response.isSuccess = true ↔ Served s.phase r.method
  /-- A request that is not served is answered with an error and moves nothing. -/
  refused : response.isSuccess = false →
    (∃ error, response.error = some error ∧ error.code = refusalCode s.phase r.method) ∧
    Unmoved r.method s s'
  /-- A start that cannot be read is answered with null behind one note, and moves nothing. -/
  unread : ∀ e, r.method = "initialize" → s.phase = .uninitialized →
    decodeParams "initialize" InitializeParams.decode r.params = .error e →
    response.error = none ∧ response.result = some .null ∧
    before = s.openNotices ++ [errorNote e.message] ∧ Unmoved r.method s s'

/-- Whichever way a request is taken behind the noting of its method, it is answered. -/
theorem Handled.reply {s : Session} {r : Request} {out : Option Nat × Session}
    (h : Handled (s.noteMethod (.request r)) (.request r) out)
    (htarget : s.phase = .uninitialized →
      (s.noteMethod (.request r)).warn.journal.target = none) :
    ∃ before response, Reply s out.2 r before response := by
  have hunmoved := unmoved_noteMethod s r
  have hopen : (s.noteMethod (.request r)).openNotices = s.openNotices := by simp [openNotices]
  have hphase := noteMethod_phase s (.request r)
  have houtbox := noteMethod_outbox s (.request r)
  generalize s.noteMethod (.request r) = noted at h htarget hunmoved hopen hphase houtbox
  cases h with
  | @started _ p hmethod hstart hparams =>
      obtain ⟨logged, hqueue, hlogged⟩ := accept_queue noted.warn r.id p
      rw [hphase] at hstart
      refine ⟨s.openNotices ++ logged,
        .success r.id (welcome (.negotiate noted.warn.settings.features)), ?_, ?_, rfl, ?_, ?_, ?_⟩
      · rw [hqueue, warn_queue, houtbox, hopen, List.append_assoc s.outbox.queue]
      · intro m hm
        rcases List.mem_append.mp hm with hm | hm
        · exact openNotices_response s m hm
        · exact Message.response?_of_isLogged (hlogged m hm)
      · exact iff_of_true rfl (Or.inl ⟨hmethod, hstart⟩)
      · intro hfailure
        simp [Response.success, Response.isSuccess] at hfailure
      · intro e _ _ hunread
        rw [hparams] at hunread
        simp at hunread
  | @unstarted _ e hmethod hstart hparams =>
      rw [hphase] at hstart
      have hmoved := (hunmoved.warn.reportFault (htarget hstart) e.message).outbox
        ((noted.warn.reportFault e.message).outbox.respond r.id .null)
      refine ⟨s.openNotices ++ [errorNote e.message], .success r.id .null, ?_, ?_, rfl, ?_, ?_, ?_⟩
      · show noted.warn.outbox.queue ++ [errorNote e.message] ++ _ = _
        rw [warn_queue, houtbox, hopen, List.append_assoc s.outbox.queue]
      · intro m hm
        rcases List.mem_append.mp hm with hm | hm
        · exact openNotices_response s m hm
        · obtain rfl := List.mem_singleton.mp hm
          rfl
      · exact iff_of_true rfl (Or.inl ⟨hmethod, hstart⟩)
      · intro hfailure
        simp [Response.success, Response.isSuccess] at hfailure
      · intro e' _ _ hunread
        obtain rfl : e = e' := by
          rw [hparams] at hunread
          simpa using hunread
        exact ⟨rfl, rfl, rfl, hmoved⟩
  | shutdown hmethod hdown =>
      rw [hphase] at hdown
      refine ⟨[], .success r.id .null, ?_, by simp, rfl, ?_, ?_, ?_⟩
      · show noted.outbox.queue ++ _ = _
        rw [houtbox, List.append_nil]
      · exact iff_of_true rfl (Or.inr ⟨hmethod, hdown⟩)
      · intro hfailure
        simp [Response.success, Response.isSuccess] at hfailure
      · intro e hinit
        simp [hmethod] at hinit
  | @refused _ why hwhy =>
      rw [hphase] at hwhy
      obtain ⟨hnot, hcode⟩ := refused_code hwhy
      refine ⟨[], .failure (some r.id) why.toError, ?_, by simp, rfl, ?_, ?_, ?_⟩
      · show noted.outbox.queue ++ _ = _
        rw [houtbox, List.append_nil]
      · exact iff_of_false (by simp [Response.failure, Response.isSuccess]) hnot
      · intro _
        exact ⟨⟨why.toError, rfl, hcode⟩, hunmoved.outbox _⟩
      · intro e hinit hstart
        exact absurd (Or.inl ⟨hinit, hstart⟩) hnot

/--
**A request is answered once, and a request that is not served leaves nothing behind.**  Behind
other messages, none of them a response, one response with the id of the request is queued.  It is
a success if and only if phase and method say that the request is served, and an error with the
code that they call for otherwise.  A request that is answered with an error changes neither the
session nor its files, apart from the line that notes its method.  Nor does a start with parameters
that are missing or cannot be read, which is answered with null behind one note of the error.
-/
theorem request_answered (settings : Settings) (environment : Environment) (disk : Files)
    (history : List Event) (r : Request) :
    let s := (new settings environment disk).takeAll history
    ∃ before response, Reply s (s.handle (.request r)).2 r before response := by
  intro s
  refine (handle_handled s (.request r)).reply ?_
  intro hphase
  have hwaiting : Waiting _ s := takeAll_waiting settings environment disk history hphase
  rw [hwaiting.noteMethod]
  exact hwaiting.warn.target

end VServer.Session
