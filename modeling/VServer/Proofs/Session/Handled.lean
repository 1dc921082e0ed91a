/-
What a message can do to a session.

`Session.handle` is a tree of tests on the kind of the message, its method, the phase and the
parameters.  `Handled` lists its leaves: one constructor for each thing that can happen, with the
tests that lead to it.  Every statement about messages is proved by going through this list, so
the tests are taken apart only here.

Noting the method in the journal comes before everything else and touches nothing but the journal,
so the list starts from the session in which that is done.

A constructor holds what the proofs need of its case: the test that failed or succeeded, as a
hypothesis, and the session that comes out, as a term.  A property of one message is then a case
distinction with as many goals as there are ways, and each goal is about a session that is written
down.
-/
import VServer.Session

namespace VServer.Session

/-- Why a request is refused in some phase, if it is refused there. -/
def refusal? (phase : Phase) (method : String) : Option Refusal :=
  match phase with
  | .uninitialized => if method = "initialize" then none else some .notInitialized
  | .initialized =>
    if method = "initialize" then some .alreadyInitialized
    else if method = "shutdown" then none
    else some (.unknownMethod method)
  | .shutdown =>
    if method = "initialize" then some .alreadyInitialized
    else if method = "shutdown" then none
    else some (.afterShutdown method)
  | .exited =>
    if method = "initialize" then some .alreadyInitialized
    else if method = "shutdown" then some .afterExit
    else some (.afterShutdown method)

/-- The ways in which a session takes a message: the code to exit with and the session behind it. -/
inductive Handled (s : Session) : Message → Option Nat × Session → Prop
  | exited {n : Notification} (hmethod : n.method = "exit") :
      Handled s (.notification n) (some s.exitCode, s.exit)
  | traced {n : Notification} {p : SetTraceParams} (hmethod : n.method = "$/setTrace")
      (hparams : decodeParams n.method SetTraceParams.decode n.params = .ok p) :
      Handled s (.notification n) (none, { s with trace := p.value })
  | unnoticed {n : Notification} (hexit : n.method ≠ "exit")
      (htrace : n.method = "$/setTrace" →
        ∃ e, decodeParams n.method SetTraceParams.decode n.params = .error e) :
      Handled s (.notification n) (none, s)
  | ignored {r : Response} : Handled s (.response r) (none, s)
  | started {r : Request} {p : InitializeParams} (hmethod : r.method = "initialize")
      (hphase : s.phase = .uninitialized)
      (hparams : decodeParams "initialize" InitializeParams.decode r.params = .ok p) :
      Handled s (.request r) (none, s.warn.accept r.id p)
  | unstarted {r : Request} {e : ParamsError} (hmethod : r.method = "initialize")
      (hphase : s.phase = .uninitialized)
      (hparams : decodeParams "initialize" InitializeParams.decode r.params = .error e) :
      Handled s (.request r)
        (none,
          { s.warn.reportFault e.message with
            outbox := (s.warn.reportFault e.message).outbox.respond r.id .null })
  | shutdown {r : Request} (hmethod : r.method = "shutdown")
      (hphase : s.phase = .initialized ∨ s.phase = .shutdown) :
      Handled s (.request r)
        (none, { s with phase := .shutdown, outbox := s.outbox.respond r.id .null })
  | refused {r : Request} {why : Refusal} (hwhy : refusal? s.phase r.method = some why) :
      Handled s (.request r) (none, s.refuse r.id why)

/-! ### Each handler takes one of these ways -/

theorem handleInitialize_handled (s : Session) (r : Request) (hmethod : r.method = "initialize") :
    Handled s (.request r) (none, s.handleInitialize r.id r.params) := by
  by_cases hphase : s.phase = .uninitialized
  · simp only [handleInitialize, hphase, ne_eq, not_true_eq_false, if_false]
    split
    · rename_i e hparams
      exact .unstarted hmethod hphase hparams
    · rename_i p hparams
      exact .started hmethod hphase hparams
  · simp only [handleInitialize, ne_eq, hphase, not_false_eq_true, if_true]
    refine .refused ?_
    cases hp : s.phase with
    | uninitialized => exact absurd hp hphase
    | initialized => simp [refusal?, hmethod]
    | shutdown => simp [refusal?, hmethod]
    | exited => simp [refusal?, hmethod]

theorem handleShutdown_handled (s : Session) (r : Request) (hmethod : r.method = "shutdown") :
    Handled s (.request r) (none, s.handleShutdown r.id) := by
  unfold handleShutdown
  cases hphase : s.phase with
  | uninitialized => exact .refused (by simp [refusal?, hmethod, hphase])
  | initialized => exact .shutdown hmethod (Or.inl hphase)
  | shutdown => exact .shutdown hmethod (Or.inr hphase)
  | exited => exact .refused (by simp [refusal?, hmethod, hphase])

theorem handleRequest_handled (s : Session) (r : Request) :
    Handled s (.request r) (none, s.handleRequest r) := by
  unfold handleRequest
  by_cases hinit : r.method = "initialize"
  · rw [if_pos hinit]
    exact handleInitialize_handled s r hinit
  · rw [if_neg hinit]
    by_cases hdown : r.method = "shutdown"
    · rw [if_pos hdown]
      exact handleShutdown_handled s r hdown
    · rw [if_neg hdown]
      cases hphase : s.phase <;> exact .refused (by simp [refusal?, hinit, hdown, hphase])

theorem handleNotification_handled (s : Session) (n : Notification) :
    Handled s (.notification n) (s.handleNotification n) := by
  unfold handleNotification
  by_cases hexit : n.method = "exit"
  · rw [if_pos hexit]
    exact .exited hexit
  · rw [if_neg hexit]
    by_cases htrace : n.method = "$/setTrace"
    · rw [if_pos htrace]
      split
      · rename_i p hparams
        exact .traced htrace hparams
      · rename_i e hparams
        exact .unnoticed hexit (fun _ => ⟨e, hparams⟩)
    · rw [if_neg htrace]
      exact .unnoticed hexit (fun h => absurd h htrace)

/-- **Every message is taken in one of the listed ways.** -/
theorem handle_handled (s : Session) (m : Message) :
    Handled (s.noteMethod m) m (s.handle m) := by
  cases m with
  | request r => exact handleRequest_handled _ r
  | notification n => exact handleNotification_handled _ n
  | response r => exact .ignored

/-! ### What noting the method leaves alone -/

/-- Noting a method changes the journal at most. -/
theorem noteMethod_eq (s : Session) (m : Message) :
    s.noteMethod m = { s with journal := (s.noteMethod m).journal } := by
  unfold noteMethod
  split
  · split <;> rfl
  · rfl

@[simp] theorem noteMethod_phase (s : Session) (m : Message) :
    (s.noteMethod m).phase = s.phase := by
  rw [noteMethod_eq]

@[simp] theorem noteMethod_outbox (s : Session) (m : Message) :
    (s.noteMethod m).outbox = s.outbox := by
  rw [noteMethod_eq]

@[simp] theorem noteMethod_warned (s : Session) (m : Message) :
    (s.noteMethod m).warned = s.warned := by
  rw [noteMethod_eq]

end VServer.Session
