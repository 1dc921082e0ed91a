/-
What a session queues in answer to a message.

Only requests make a session speak.  What it says to one is always of the same build: the notice
for the user, if this is the request that brings it out, then notes for the editor's log, and last
the one response, which carries the id of the request.  `Answers` is that build.

The notice comes out once.  It is queued by the first request to start the session, readable or
not, and from then on the session remembers that it has warned.

Here every part of a handler is described by what it appends to the queue, and by what it remembers
of the warning.  Nothing is ever taken from the queue or put in front of it by a message, so what
is queued for a message is an end of the queue, and the parts can be put together by appending.
-/
import VServer.Proofs.Session.Phase

namespace VServer

namespace Message

/-- The response that a message is. -/
def response? : Message → Option Response
  | .response r => some r
  | _ => none

/-- A message that is shown to the user. -/
def isShown : Message → Bool
  | .notification n => n.method = "window/showMessage"
  | _ => false

/-- A message for the editor's log. -/
def isLogged : Message → Bool
  | .notification n => n.method = "window/logMessage"
  | _ => false

/-- A request to start a session, whether its parameters can be read or not. -/
def isInitialize : Message → Bool
  | .request r => r.method = "initialize"
  | _ => false

theorem response?_of_isShown {m : Message} (h : m.isShown = true) : m.response? = none := by
  cases m with
  | response r => simp [isShown] at h
  | request r => rfl
  | notification n => rfl

theorem response?_of_isLogged {m : Message} (h : m.isLogged = true) : m.response? = none := by
  cases m with
  | response r => simp [isLogged] at h
  | request r => rfl
  | notification n => rfl

theorem isShown_of_isLogged {m : Message} (h : m.isLogged = true) : m.isShown = false := by
  cases m with
  | notification n =>
      simp only [isLogged, decide_eq_true_eq] at h
      simp [isShown, h]
  | request r => rfl
  | response r => rfl

end Message

namespace Session

/-- What tells the user that the server is not finished. -/
def notice : Message :=
  .notification
    { method := "window/showMessage"
      params := some (MessageParams.toJson ⟨.warning, prereleaseNotice⟩).sorted }

/-- What is left to be told to the user. -/
def openNotices (s : Session) : List Message :=
  if s.warned then [] else [notice]

/-- A list of messages that answers a request, where `shown` is for the user to see. -/
def Answers (r : Request) (shown written : List Message) : Prop :=
  ∃ logged response, written = shown ++ logged ++ [.response response] ∧
    response.id = some r.id ∧ ∀ m ∈ logged, m.isLogged = true

/-! ### The parts of a handler, one by one -/

/-- Warning the user changes the outbox and the memory of it at most. -/
theorem warn_eq (s : Session) :
    s.warn = { s with outbox := s.warn.outbox, warned := s.warn.warned } := by
  unfold warn
  split <;> rfl

theorem warn_queue (s : Session) : s.warn.outbox.queue = s.outbox.queue ++ s.openNotices := by
  unfold warn openNotices
  split
  · simp
  · rfl

@[simp] theorem warn_warned (s : Session) : s.warn.warned = true := by
  unfold warn
  split
  · assumption
  · rfl

@[simp] theorem indexBuiltins_warned (s : Session) : s.indexBuiltins.warned = s.warned := by
  simp only [indexBuiltins]
  split <;> rfl

/-- Indexing says nothing, or it tells the editor's log why it failed. -/
theorem indexBuiltins_queue (s : Session) :
    ∃ logged, s.indexBuiltins.outbox.queue = s.outbox.queue ++ logged ∧
      ∀ m ∈ logged, m.isLogged = true := by
  simp only [indexBuiltins]
  split
  · exact ⟨[], by simp, by simp⟩
  · rename_i e _
    refine ⟨[.notification
      { method := "window/logMessage"
        params := some (MessageParams.toJson
          ⟨.error, "Failed to index builtin module: " ++ e.message⟩).sorted }], rfl, ?_⟩
    simp [Message.isLogged]

@[simp] theorem accept_warned (s : Session) (id : RequestId) (p : InitializeParams) :
    (s.accept id p).warned = s.warned := by
  simp [accept]

/-- A start that succeeds ends in the welcome. -/
theorem accept_queue (s : Session) (id : RequestId) (p : InitializeParams) :
    ∃ logged, (s.accept id p).outbox.queue = s.outbox.queue ++ logged ++
        [.response (.success id (welcome (.negotiate s.settings.features)))] ∧
      ∀ m ∈ logged, m.isLogged = true := by
  have hstarted : ∃ started : Session,
      (s.accept id p).outbox = started.indexBuiltins.outbox.respond id
        (welcome (.negotiate s.settings.features)) ∧ started.outbox = s.outbox :=
    ⟨_, rfl, rfl⟩
  obtain ⟨started, hanswer, hsame⟩ := hstarted
  obtain ⟨logged, hqueue, hlogged⟩ := indexBuiltins_queue started
  refine ⟨logged, ?_, hlogged⟩
  rw [hanswer, ← hsame, ← hqueue]
  rfl

/-! ### One message -/

/-- **A request is answered by one response with its id, and nothing is queued behind that.**  The
notice stands in front if the request is the one to start a session that has not warned yet. -/
theorem handle_request_queue (s : Session) (r : Request) :
    ∃ written, (s.handle (.request r)).2.outbox.queue = s.outbox.queue ++ written ∧
      Answers r (if (Message.request r).isInitialize ∧ s.phase = .uninitialized then s.openNotices
        else []) written := by
  have hhandled := handle_handled s (.request r)
  have hopen : (s.noteMethod (.request r)).openNotices = s.openNotices := by simp [openNotices]
  rw [← noteMethod_phase s (.request r), ← hopen, ← noteMethod_outbox s (.request r)]
  generalize s.noteMethod (.request r) = s' at hhandled ⊢
  generalize s.handle (.request r) = out at hhandled ⊢
  cases hhandled with
  | @started _ p hmethod hphase hparams =>
      obtain ⟨logged, hqueue, hlogged⟩ := accept_queue s'.warn r.id p
      refine ⟨_, by rw [hqueue, warn_queue, List.append_assoc, List.append_assoc], ?_⟩
      rw [if_pos ⟨by simp [Message.isInitialize, hmethod], hphase⟩]
      exact ⟨logged, _, (List.append_assoc _ _ _).symm, rfl, hlogged⟩
  | @unstarted _ e hmethod hphase hparams =>
      refine ⟨s'.openNotices ++ [.notification
        { method := "window/logMessage"
          params := some (MessageParams.toJson ⟨.error, e.message⟩).sorted }] ++
          [.response (.success r.id .null)], ?_, ?_⟩
      · show s'.warn.outbox.queue ++ _ ++ _ = _
        rw [warn_queue, List.append_assoc, List.append_assoc, List.append_assoc]
      · rw [if_pos ⟨by simp [Message.isInitialize, hmethod], hphase⟩]
        exact ⟨_, _, rfl, rfl, by simp [Message.isLogged]⟩
  | shutdown hmethod hphase =>
      refine ⟨[.response (.success r.id .null)], rfl, ?_⟩
      rw [if_neg (by simp [Message.isInitialize, hmethod])]
      exact ⟨[], _, rfl, rfl, by simp⟩
  | @refused _ why hwhy =>
      refine ⟨[.response (.failure (some r.id) why.toError)], rfl, ?_⟩
      have hrefused : ¬ ((Message.request r).isInitialize = true ∧ s'.phase = .uninitialized) := by
        rintro ⟨hinit, hphase⟩
        simp only [Message.isInitialize, decide_eq_true_eq] at hinit
        simp [refusal?, hphase, hinit] at hwhy
      rw [if_neg hrefused]
      exact ⟨[], _, rfl, rfl, by simp⟩

/-- What is no request is not answered. -/
theorem handle_queue_of_not_request (s : Session) (m : Message) (hm : ∀ r, m ≠ .request r) :
    (s.handle m).2.outbox = s.outbox := by
  have hhandled := handle_handled s m
  rw [← noteMethod_outbox s m]
  generalize s.noteMethod m = s' at hhandled ⊢
  generalize s.handle m = out at hhandled ⊢
  cases hhandled with
  | exited hmethod => rfl
  | traced hmethod hparams => rfl
  | unnoticed hexit htrace => rfl
  | ignored => rfl
  | started hmethod hphase hparams => exact absurd rfl (hm _)
  | unstarted hmethod hphase hparams => exact absurd rfl (hm _)
  | shutdown hmethod hphase => exact absurd rfl (hm _)
  | refused hwhy => exact absurd rfl (hm _)

/-- A session has warned once it has been asked to start. -/
theorem handle_warned (s : Session) (m : Message) :
    (s.handle m).2.warned = (s.warned || (m.isInitialize && s.phase = .uninitialized)) := by
  have hhandled := handle_handled s m
  rw [← noteMethod_phase s m, ← noteMethod_warned s m]
  generalize s.noteMethod m = s' at hhandled ⊢
  generalize s.handle m = out at hhandled ⊢
  cases hhandled with
  | exited hmethod => simp [Message.isInitialize, exit]
  | traced hmethod hparams => simp [Message.isInitialize]
  | unnoticed hexit htrace => simp [Message.isInitialize]
  | ignored => simp [Message.isInitialize]
  | started hmethod hphase hparams => simp [Message.isInitialize, hmethod, hphase]
  | unstarted hmethod hphase hparams => simp [Message.isInitialize, hmethod, hphase, reportFault]
  | shutdown hmethod hphase => simp [Message.isInitialize, hmethod]
  | @refused r why hwhy =>
      have hrefused : ((Message.request r).isInitialize && decide (s'.phase = .uninitialized))
          = false := by
        by_cases hinit : r.method = "initialize"
        · by_cases hphase : s'.phase = .uninitialized
          · simp [refusal?, hphase, hinit] at hwhy
          · simp [hphase]
        · simp [Message.isInitialize, hinit]
      rw [hrefused, Bool.or_false]
      rfl

end Session

end VServer
