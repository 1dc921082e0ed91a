/-
The sessions that can be reached.

A session is moved on by the messages it is sent.  Its owner can also start it, shut it down and
exit it without a message, and takes away what waits to be sent.  `Event` is any of these, and a
session that can be reached is one behind a list of events.

A call does what the message of the same name does, except that nothing is noted in the journal
for it.  So `Handled` lists what a call can do as well, and `Taken` adds only the removal of what
waits to be sent.

Until it is started, a session has nothing to show for what it was sent but its trace level, its
outbox, whether it has warned, and what its journal remembers.  `Waiting` says so.
-/
import VServer.Proofs.Session.Queue
import VServer.Proofs.Journal.Alike

namespace VServer

/-- What can happen to a session. -/
inductive Event where
  | message (m : Message)
  /-- A start without a message. -/
  | startCall (id : RequestId) (params : Option Json)
  /-- A shutdown without a message. -/
  | shutdownCall (id : RequestId)
  /-- An exit without a message. -/
  | exitCall
  /-- What waits to be sent is taken away. -/
  | collect

namespace Event

/-- The message that does what the event does. -/
def message? : Event → Option Message
  | message m => some m
  | startCall id params => some (.request { id, method := "initialize", params })
  | shutdownCall id => some (.request { id, method := "shutdown" })
  | exitCall => some (.notification { method := "exit" })
  | collect => none

/-- Whether the event ends the session. -/
def isExit (e : Event) : Bool :=
  e.message?.any Message.isExit

/-- Whether the event is a start with parameters that are there and can be read. -/
def isStart (e : Event) : Bool :=
  e.message?.any Message.isStart

end Event

namespace Session

/-- The session behind an event. -/
def take (s : Session) : Event → Session
  | .message m => (s.handle m).2
  | .startCall id params => s.handleInitialize id params
  | .shutdownCall id => s.handleShutdown id
  | .exitCall => s.exit
  | .collect => s.takeOutgoing.2

/-- The session behind a list of events. -/
def takeAll (s : Session) (history : List Event) : Session :=
  history.foldl take s

theorem takeAll_concat (s : Session) (history : List Event) (e : Event) :
    s.takeAll (history ++ [e]) = (s.takeAll history).take e := by
  simp [takeAll]

theorem takeAll_append (s : Session) (history later : List Event) :
    s.takeAll (history ++ later) = (s.takeAll history).takeAll later := by
  simp [takeAll]

/-- Messages are events. -/
theorem takeAll_messages (s : Session) (history : List Message) :
    s.takeAll (history.map .message) = s.handleAll history := by
  rw [takeAll, handleAll, List.foldl_map]
  rfl

/-! ### What an event can do

Every way in which a call is taken is a way in which its message is taken.  So a property that
holds along messages holds along events as soon as it does not mind what waits to be sent, and
whether a method was noted.
-/

/-- The ways in which a session takes an event.  `noted` is the session in which the method has
been noted in the journal, if it was. -/
inductive Taken (s : Session) : Event → Session → Prop
  | handled {e : Event} {m : Message} {noted : Session} {out : Option Nat × Session}
      (hmessage : e.message? = some m) (hnoted : noted = s ∨ noted = s.noteMethod m)
      (hhandled : Handled noted m out) : Taken s e out.2
  | collected : Taken s .collect { s with outbox := {} }

/-- **Every event is taken in one of the listed ways.** -/
theorem take_taken (s : Session) (e : Event) : Taken s e (s.take e) := by
  cases e with
  | message m => exact .handled rfl (Or.inr rfl) (handle_handled s m)
  | startCall id params =>
      let r : Request := { id, method := "initialize", params }
      exact .handled rfl (Or.inl rfl) (handleInitialize_handled s r rfl)
  | shutdownCall id =>
      let r : Request := { id, method := "shutdown" }
      exact .handled rfl (Or.inl rfl) (handleShutdown_handled s r rfl)
  | exitCall => exact .handled rfl (Or.inl rfl) (.exited rfl)
  | collect => exact .collected

/-- Noting a method leaves everything but the journal alone. -/
theorem noted_eq {s noted : Session} {m : Message} (h : noted = s ∨ noted = s.noteMethod m) :
    noted = { s with journal := noted.journal } := by
  rcases h with rfl | rfl
  · rfl
  · exact noteMethod_eq s m

/-! ### The start -/

/-- A start that can be read is accepted if the session has not been started. -/
theorem Handled.eq_accept {s : Session} {m : Message} {out : Option Nat × Session}
    (h : Handled s m out) (hphase : s.phase = .uninitialized) (hm : m.isStart = true) :
    ∃ r p, m = .request r ∧ decodeParams "initialize" InitializeParams.decode r.params = .ok p ∧
      out.2 = s.warn.accept r.id p := by
  cases h with
  | exited hmethod => simp [Message.isStart] at hm
  | traced hmethod hparams => simp [Message.isStart] at hm
  | unnoticed hexit htrace => simp [Message.isStart] at hm
  | ignored => simp [Message.isStart] at hm
  | @started r p hmethod hstart hparams => exact ⟨r, p, rfl, hparams, rfl⟩
  | unstarted hmethod hstart hparams =>
      obtain ⟨-, p, hok⟩ := params_of_isStart hm
      rw [hparams] at hok
      simp at hok
  | shutdown hmethod hdown => simp [Message.isStart, hmethod] at hm
  | refused hwhy => simp [refusal?, hphase, (params_of_isStart hm).1] at hwhy

/-! ### The phase -/

/-- An event moves the phase as its message does. -/
theorem take_phase (s : Session) (e : Event) :
    (s.take e).phase = (e.message?.map s.phase.after).getD s.phase := by
  have htaken := take_taken s e
  generalize s.take e = s' at htaken ⊢
  cases htaken with
  | handled hmessage hnoted hhandled =>
      rw [hhandled.phase, noted_eq hnoted, hmessage]
      rfl
  | collected => rfl

/-- No event takes the phase back. -/
theorem rank_le_take (s : Session) (e : Event) : s.phase.rank ≤ (s.take e).phase.rank := by
  rw [take_phase]
  cases e.message? with
  | none => exact Nat.le_refl _
  | some m => exact Phase.rank_le_after s.phase m

theorem uninitialized_of_take {s : Session} {e : Event} (h : (s.take e).phase = .uninitialized) :
    s.phase = .uninitialized := by
  have hrank := rank_le_take s e
  rw [h] at hrank
  cases hphase : s.phase with
  | uninitialized => rfl
  | initialized => simp [hphase, Phase.rank] at hrank
  | shutdown => simp [hphase, Phase.rank] at hrank
  | exited => simp [hphase, Phase.rank] at hrank

/-- A session has exited if it had exited before or the event is an exit. -/
theorem take_exited_iff (s : Session) (e : Event) :
    (s.take e).phase = .exited ↔ s.phase = .exited ∨ e.isExit = true := by
  rw [take_phase, Event.isExit]
  cases e.message? with
  | none => simp
  | some m => simpa using Phase.after_eq_exited s.phase m

/-! ### Before the start

`Waiting` is an invariant of the events before the start.  It compares the session with the one
that was made, and leaves out what such events can change.  In particular no file is attached, so
nothing of what was sent is on the disk.
-/

/-- A session that differs from `fresh` in what does not matter to a start: no file is attached to
its journal. -/
structure Waiting (fresh s : Session) : Prop where
  same : s = { fresh with
    outbox := s.outbox, trace := s.trace, warned := s.warned, journal := s.journal }
  journal : fresh.journal.Alike s.journal
  unattached : fresh.journal.target = none

namespace Waiting

variable {fresh s : Session}

theorem target (h : Waiting fresh s) : s.journal.target = none :=
  h.journal.target.trans h.unattached

/-- Where no file is attached, no method is noted. -/
theorem noteMethod (h : Waiting fresh s) (m : Message) : s.noteMethod m = s := by
  unfold Session.noteMethod
  split
  · simp [Journal.isFileBacked, h.target]
  · rfl

/-- Telling the user, the editor's log and the journal something leaves a session waiting. -/
theorem warn (h : Waiting fresh s) : Waiting fresh s.warn := by
  unfold Session.warn
  split
  · exact h
  · exact ⟨by rw [h.same], h.journal, h.unattached⟩

theorem reportFault (h : Waiting fresh s) (message : String) :
    Waiting fresh (s.reportFault message) where
  same := by rw [h.same]; rfl
  journal := h.journal.trans (Journal.write_alike h.target .error message)
  unattached := h.unattached

/-- Whatever waits to be sent, a session waits. -/
theorem outbox (h : Waiting fresh s) (outbox : Outbox) : Waiting fresh { s with outbox } :=
  ⟨by rw [h.same], h.journal, h.unattached⟩

/-- **An event that does not move the phase on leaves a session waiting.** -/
theorem take (h : Waiting fresh s) {e : Event} (hphase : (s.take e).phase = .uninitialized) :
    Waiting fresh (s.take e) := by
  have htaken := take_taken s e
  generalize s.take e = s' at htaken hphase ⊢
  cases htaken with
  | collected => exact h.outbox {}
  | @handled _ m noted out hmessage hnoted hhandled =>
      obtain rfl : noted = s := by
        rcases hnoted with rfl | rfl
        · rfl
        · exact h.noteMethod m
      cases hhandled with
      | exited hmethod => simp [Session.exit] at hphase
      | traced hmethod hparams => exact ⟨by rw [h.same], h.journal, h.unattached⟩
      | unnoticed hexit htrace => exact h
      | ignored => exact h
      | started hmethod hstart hparams => simp at hphase
      | unstarted hmethod hstart hparams => exact (h.warn.reportFault _).outbox _
      | shutdown hmethod hdown => simp at hphase
      | refused hwhy => exact h.outbox _

end Waiting

theorem new_waiting (settings : Settings) (environment : Environment) (disk : Files) :
    Waiting (new settings environment disk) (new settings environment disk) :=
  ⟨rfl, Journal.Alike.refl _, rfl⟩

/-- A session that has not been started waits, whatever it was sent. -/
theorem takeAll_waiting (settings : Settings) (environment : Environment) (disk : Files)
    (history : List Event)
    (h : ((new settings environment disk).takeAll history).phase = .uninitialized) :
    Waiting (new settings environment disk) ((new settings environment disk).takeAll history) := by
  induction history using List.reverseRecOn with
  | nil => exact new_waiting settings environment disk
  | append_singleton history e ih =>
      rw [takeAll_concat] at h ⊢
      exact (ih (uninitialized_of_take h)).take h

end Session

end VServer
