/-
A run of the server.

`serve` counts its steps down from a fuel, and what it should do is go round a loop until the
session ends or the stream does.  `Head` is the server at the head of that loop and `Runs` is the
loop without any fuel: from one head to the next as long as no code to exit with comes out.

The measure is the number of bytes that have not been read.  A turn that does not stop the server
was not the end of the stream, so by `read_advance` it leaves fewer of them, and the fuel of
`serve`, one more than the bytes of the stream, is never used up.  So every stream has a finite
run, and `serve` returns what that run comes to.

There are two ways to use this.  What concerns one turn after another is said about `Runs`, with
all turns at hand.  Where only the first turn matters, `serve_eq` takes it off and leaves a run of
the server on the rest, as if there had never been a fuel.
-/
import VServer.Server
import VServer.Proofs.Protocol.Frame
import VServer.Proofs.Session.Queue

namespace VServer

open Text (Bytes)

/-- Whether a result of reading is the notification that ends the session. -/
def Received.isExit : Received → Bool
  | .message m => m.isExit
  | _ => false

namespace Server

/-! ### One step -/

/-- What the server writes in answer to one result of reading. -/
def answer (session : Session) : Received → List Message
  | .message m => (session.handle m).2.outbox.queue
  | .malformed e => [malformedReply e]
  | .ended _ => session.outbox.queue

theorem step_output (session : Session) (received : Received) :
    (step session received).output = (answer session received).flatMap Frame.ofMessage := by
  cases received with
  | message m => rfl
  | malformed e => simp [step, answer]
  | ended how => rfl

/-- A step stops the server on an exit and at the end of the stream. -/
theorem step_code (session : Session) (received : Received) :
    (step session received).code =
      if received.isExit || received.isEnd then some session.exitCode else none := by
  cases received with
  | message m =>
      show (session.handle m).1 = _
      rw [Session.handle_code]
      simp [Received.isExit, Received.isEnd]
  | malformed e => rfl
  | ended how => rfl

/-! ### The session that a run leaves behind -/

/-- A session that has let go of everything. -/
structure Closed (session : Session) : Prop where
  phase : session.phase = .exited
  tables : session.tables.released = true
  journal : session.journal.isFileBacked = false
  journalClosed : session.journal.history.getLast? = some .close
  outbox : session.outbox.queue = []

theorem exit_released (session : Session) : session.exit.tables.released = true := by
  show session.tables.releaseAll.2.released = true
  unfold Registry.releaseAll
  split
  · assumption
  · rfl

/-- Flushing a session that has exited leaves nothing open. -/
theorem flush_exit_closed (session : Session) (code : Option Nat) :
    Closed (flush session.exit code).session where
  phase := rfl
  tables := exit_released session
  journal := rfl
  journalClosed := by simp [flush, Session.takeOutgoing, Session.exit, Journal.close,
    Journal.remember]
  outbox := rfl

/-- An exit leads to the session that has let go of everything. -/
theorem handle_exit {session : Session} {m : Message} (hexit : m.isExit = true) :
    (session.handle m).2 = (session.noteMethod m).exit := by
  cases m with
  | notification n =>
      have hmethod : n.method = "exit" := by simpa [Message.isExit] using hexit
      simp [Session.handle, Session.handleNotification, hmethod]
  | request r => simp [Message.isExit] at hexit
  | response r => simp [Message.isExit] at hexit

/-- The step that stops the server closes the session. -/
theorem step_closed {session : Session} {received : Received}
    (hstop : (received.isExit || received.isEnd) = true) :
    Closed (step session received).session := by
  cases received with
  | message m =>
      have hexit : m.isExit = true := by simpa [Received.isExit, Received.isEnd] using hstop
      show Closed (flush (session.handle m).2 (session.handle m).1).session
      rw [handle_exit hexit]
      exact flush_exit_closed _ _
  | malformed e => simp [Received.isExit, Received.isEnd] at hstop
  | ended how => exact flush_exit_closed _ _

/-! ### The loop

A head is a state of the loop: the session, what is still to be read and what has been written.  A
turn takes one head to the next, and `Runs` are turns one after another.  What a property of runs
needs is what one turn does to it.
-/

/-- The server at the head of its loop: the session, the bytes that have not been read, and the
bytes that have been written. -/
structure Head where
  session : Session
  unread : Bytes
  output : Bytes

/-- One turn of the loop: what was read in it, and what was written before the next read. -/
structure Turn where
  received : Received
  written : List Message

namespace Head

/-- The turn that starts here. -/
def turn (h : Head) : Turn :=
  ⟨(Frame.read h.unread).1, answer h.session (Frame.read h.unread).1⟩

/-- The code to exit with, if the turn that starts here is the last one. -/
def code (h : Head) : Option Nat :=
  (step h.session h.turn.received).code

/-- The server behind the turn that starts here. -/
def next (h : Head) : Head :=
  ⟨(step h.session h.turn.received).session, (Frame.read h.unread).2,
    h.output ++ (step h.session h.turn.received).output⟩

theorem next_output (h : Head) :
    h.next.output = h.output ++ h.turn.written.flatMap Frame.ofMessage := by
  show h.output ++ (step h.session h.turn.received).output = _
  rw [step_output]
  rfl

theorem code_eq (h : Head) :
    h.code = if h.turn.received.isExit || h.turn.received.isEnd then some h.session.exitCode
      else none :=
  step_code _ _

/-- A turn that goes on was neither an exit nor the end of the stream. -/
theorem received_of_code_none {h : Head} (hgo : h.code = none) :
    h.turn.received.isExit = false ∧ h.turn.received.isEnd = false := by
  rw [code_eq] at hgo
  split at hgo
  · simp at hgo
  · rename_i hstop
    simpa using hstop

/-- A turn that stops the server was one of the two. -/
theorem received_of_code_some {h : Head} {code : Nat} (hstop : h.code = some code) :
    (h.turn.received.isExit || h.turn.received.isEnd) = true ∧ code = h.session.exitCode := by
  rw [code_eq] at hstop
  split at hstop
  · rename_i hreceived
    exact ⟨hreceived, by simpa using hstop.symm⟩
  · simp at hstop

theorem next_unread_lt {h : Head} (hgo : h.code = none) :
    h.next.unread.length < h.unread.length :=
  (Frame.read_advance h.unread).shorter (received_of_code_none hgo).2

end Head

/-- The server goes from one head of its loop to another, taking these turns. -/
inductive Runs : Head → List Turn → Head → Prop
  | here (h : Head) : Runs h [] h
  | turn {h h' : Head} {turns : List Turn} (hgo : h.code = none) (hruns : Runs h.next turns h') :
      Runs h (h.turn :: turns) h'

theorem runs_length {h h' : Head} {turns : List Turn} (hruns : Runs h turns h') :
    turns.length + h'.unread.length ≤ h.unread.length := by
  induction hruns with
  | here h => simp
  | turn hgo hruns ih =>
      have := Head.next_unread_lt hgo
      simp only [List.length_cons]
      omega

/-- What is read in a run that goes on is neither an exit nor the end of the stream. -/
theorem runs_received {h h' : Head} {turns : List Turn} (hruns : Runs h turns h') :
    ∀ t ∈ turns, t.received.isExit = false ∧ t.received.isEnd = false := by
  induction hruns with
  | here h => simp
  | turn hgo hruns ih =>
      intro t ht
      rcases List.mem_cons.mp ht with rfl | ht
      · exact Head.received_of_code_none hgo
      · exact ih t ht

theorem runs_output {h h' : Head} {turns : List Turn} (hruns : Runs h turns h') :
    h'.output = h.output ++ (turns.flatMap Turn.written).flatMap Frame.ofMessage := by
  induction hruns with
  | here h => simp
  | turn hgo hruns ih =>
      rw [ih, Head.next_output]
      simp [List.flatMap_append]

/-! ### `serve` is the loop

The fuel of `serve` is the one thing that the loop does not have.  It exceeds the number of bytes,
and a turn that goes on uses up a byte at least, so it is still there when the loop is left.
-/

/-- The server stops behind the turn that starts at `h`, with this outcome. -/
def Stops (h : Head) (outcome : Outcome) : Prop :=
  h.code = some outcome.code ∧ outcome.output = h.next.output ∧ outcome.session = h.next.session

theorem serveIn_runs :
    ∀ (fuel : Nat) (session : Session) (input output : Bytes), input.length < fuel →
      ∃ turns h, Runs ⟨session, input, output⟩ turns h ∧
        Stops h { serveIn fuel session input with
          output := output ++ (serveIn fuel session input).output } := by
  intro fuel
  induction fuel with
  | zero => intro session input output hlt; omega
  | succ fuel ih =>
      intro session input output hlt
      set start : Head := ⟨session, input, output⟩ with hstart
      cases hcode : start.code with
      | some code =>
          refine ⟨[], start, .here start, ?_⟩
          have hserve : serveIn (fuel + 1) session input
              = ⟨code, (step session start.turn.received).output, start.next.session⟩ := by
            have hc : (step session (Frame.read input).1).code = some code := hcode
            simp only [serveIn, turn, Step.andThen, hc]
            rfl
          rw [hserve]
          exact ⟨hcode, rfl, rfl⟩
      | none =>
          have hlen : start.next.unread.length < input.length := Head.next_unread_lt hcode
          obtain ⟨turns, h, hruns, hstops⟩ :=
            ih start.next.session start.next.unread start.next.output (by omega)
          refine ⟨start.turn :: turns, h, .turn hcode hruns, ?_⟩
          have hserve : serveIn (fuel + 1) session input
              = { serveIn fuel start.next.session start.next.unread with
                  output := (step session start.turn.received).output ++
                    (serveIn fuel start.next.session start.next.unread).output } := by
            have hc : (step session (Frame.read input).1).code = none := hcode
            simp only [serveIn, turn, Step.andThen, hc]
            rfl
          rw [hserve]
          obtain ⟨h1, h2, h3⟩ := hstops
          refine ⟨h1, ?_, h3⟩
          rw [← h2]
          exact (List.append_assoc _ _ _).symm

/-- How the server goes on matters only behind a step that does not stop it. -/
theorem Step.andThen_congr {out : Step} {later later' : Session → Outcome}
    (h : out.code = none → later out.session = later' out.session) :
    out.andThen later = out.andThen later' := by
  unfold Step.andThen
  cases hcode : out.code with
  | some code => rfl
  | none => simp only [h hcode]

theorem serveIn_succ (fuel : Nat) (session : Session) (input : Bytes) :
    serveIn (fuel + 1) session input = (turn session input).1.andThen fun session' =>
      serveIn fuel session' (turn session input).2 := rfl

theorem turn_length_lt {session : Session} {input : Bytes}
    (hcode : (turn session input).1.code = none) :
    (turn session input).2.length < input.length :=
  Head.next_unread_lt (h := ⟨session, input, []⟩) hcode

/-- The fuel does not matter to what a stream comes to, if it exceeds the number of bytes. -/
theorem serveIn_fuel :
    ∀ (fuel fuel' : Nat) (session : Session) (input : Bytes), input.length < fuel →
      input.length < fuel' → serveIn fuel session input = serveIn fuel' session input := by
  intro fuel
  induction fuel with
  | zero => intro fuel' session input hlt; omega
  | succ fuel ih =>
      intro fuel' session input hlt hlt'
      obtain ⟨fuel', rfl⟩ : ∃ n, fuel' = n + 1 := ⟨fuel' - 1, by omega⟩
      rw [serveIn_succ, serveIn_succ]
      refine Step.andThen_congr fun hcode => ?_
      have hshort := turn_length_lt hcode
      exact ih fuel' _ _ (by omega) (by omega)

/-- To serve a stream is to take a turn and, unless that stops the server, to serve the rest. -/
theorem serve_eq (session : Session) (input : Bytes) :
    serve session input = (turn session input).1.andThen fun session' =>
      serve session' (turn session input).2 := by
  rw [serve, serveIn_succ]
  exact Step.andThen_congr fun hcode =>
    serveIn_fuel _ _ _ _ (turn_length_lt hcode) (Nat.lt_succ_self _)

/-- **Every stream has a finite run, and `serve` returns what it comes to.** -/
theorem serve_runs (session : Session) (input : Bytes) :
    ∃ turns h, Runs ⟨session, input, []⟩ turns h ∧ Stops h (serve session input) :=
  serveIn_runs _ session input [] (Nat.lt_succ_self _)

/--
**The server always returns.**  Whatever the bytes, each read that does not report the end of the
stream uses up at least one of them, so after finitely many turns, no more than there are bytes,
the server stops.  On the way it meets messages and malformed frames, and what stops it is an exit
or the end of the stream.  It returns zero if the session was shut down just before it exited, and
one otherwise, and it leaves the session with everything let go and nothing left to send.
-/
theorem serve_returns (session : Session) (input : Bytes) :
    (∀ bytes : Bytes,
      Frame.Advance (Frame.read bytes).1.isEnd bytes (Frame.read bytes).2) ∧
    ∃ turns head,
      Runs ⟨session, input, []⟩ turns head ∧
      turns.length ≤ input.length ∧
      (∀ t ∈ turns, (∃ m, t.received = .message m ∧ m.isExit = false) ∨
        ∃ e, t.received = .malformed e) ∧
      ((∃ m, head.turn.received = .message m ∧ m.isExit = true) ∨
        ∃ how, head.turn.received = .ended how) ∧
      (serve session input).code = (if head.session.phase = .shutdown then 0 else 1) ∧
      (serve session input).output = head.next.output ∧
      Closed (serve session input).session := by
  refine ⟨Frame.read_advance, ?_⟩
  obtain ⟨turns, head, hruns, hcode, houtput, hsession⟩ := serve_runs session input
  obtain ⟨hstop, hexitCode⟩ := Head.received_of_code_some hcode
  refine ⟨turns, head, hruns, ?_, ?_, ?_, hexitCode, houtput, ?_⟩
  · exact Nat.le_trans (Nat.le_add_right _ _) (runs_length hruns)
  · intro t ht
    obtain ⟨hexit, hend⟩ := runs_received hruns t ht
    cases hreceived : t.received with
    | message m =>
        rw [hreceived] at hexit
        exact Or.inl ⟨m, rfl, hexit⟩
    | malformed e => exact Or.inr ⟨e, rfl⟩
    | ended how => rw [hreceived] at hend; simp [Received.isEnd] at hend
  · cases hreceived : head.turn.received with
    | message m =>
        rw [hreceived] at hstop
        exact Or.inl ⟨m, rfl, by simpa [Received.isExit, Received.isEnd] using hstop⟩
    | malformed e => rw [hreceived] at hstop; simp [Received.isExit, Received.isEnd] at hstop
    | ended how => exact Or.inr ⟨how, rfl⟩
  · rw [hsession]
    exact step_closed hstop

end Server

end VServer
