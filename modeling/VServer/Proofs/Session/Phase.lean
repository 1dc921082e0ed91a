/-
The phase of a session is a function of what it has been sent.

A message moves the phase as a small automaton says, `Phase.after`, and nothing else about the
session has a say in it.  So the phase behind a list of messages is a fold of that automaton.

What the fold comes to is then said in terms of the messages alone: whether one of them was an
exit, whether one of them was a start that could be read, and whether such a start was followed by
a shutdown.  The induction is on the end of the list, since that is where the next message goes.

The two descriptions are of different kinds.  The automaton says what one message does, and is easy
to compare with the handlers; the history says what a client has to send to be in a phase, and is
what a client can know.  `phaseOf_concat` is the step from one to the other.
-/
import VServer.Proofs.Session.Handled
import Mathlib.Data.List.Induction

namespace VServer

namespace Message

/-- The notification that ends a session. -/
def isExit : Message → Bool
  | .notification n => n.method = "exit"
  | _ => false

/-- A request to start a session, with parameters that are there and can be read. -/
def isStart : Message → Bool
  | .request r =>
    r.method = "initialize" && r.params.any fun value => (InitializeParams.decode value).isOk
  | _ => false

/-- A request to shut a session down. -/
def isShutdown : Message → Bool
  | .request r => r.method = "shutdown"
  | _ => false

end Message

namespace Phase

/-- The place of a phase in the life of a session. -/
def rank : Phase → Nat
  | uninitialized => 0
  | initialized => 1
  | shutdown => 2
  | exited => 3

/-- The phase that a message leads to. -/
def after (p : Phase) (m : Message) : Phase :=
  if m.isExit then exited
  else
    match p with
    | uninitialized => if m.isStart then initialized else uninitialized
    | initialized => if m.isShutdown then shutdown else initialized
    | shutdown => shutdown
    | exited => exited

/-- A message that is none of the three moves nothing. -/
theorem after_eq_self (p : Phase) {m : Message} (hexit : m.isExit = false)
    (hstart : m.isStart = false) (hdown : m.isShutdown = false) : p.after m = p := by
  cases p <;> simp [after, hexit, hstart, hdown]

theorem rank_le_after (p : Phase) (m : Message) : p.rank ≤ (p.after m).rank := by
  unfold after
  split
  · cases p <;> decide
  · cases p with
    | uninitialized => exact Nat.zero_le _
    | initialized =>
        show initialized.rank ≤ (if m.isShutdown then shutdown else initialized).rank
        split <;> decide
    | shutdown => exact Nat.le_refl _
    | exited => exact Nat.le_refl _

/-- The shutdown phase is entered from the one before it and from nowhere else. -/
theorem of_after_shutdown {p : Phase} {m : Message} (h : p.after m = shutdown) :
    p = initialized ∨ p = shutdown := by
  unfold after at h
  split at h
  · simp at h
  · cases p with
    | uninitialized =>
        simp only at h
        split at h <;> simp at h
    | initialized => exact Or.inl rfl
    | shutdown => exact Or.inr rfl
    | exited => simp at h

theorem after_eq_exited (p : Phase) (m : Message) :
    p.after m = exited ↔ p = exited ∨ m.isExit = true := by
  by_cases hm : m.isExit = true
  · simp [after, hm]
  · cases p with
    | uninitialized => cases hs : m.isStart <;> simp [after, hm, hs]
    | initialized => cases hd : m.isShutdown <;> simp [after, hm, hd]
    | shutdown => simp [after, hm]
    | exited => simp [after, hm]

end Phase

namespace Session

/-! ### The handlers keep the phase, or set it -/

@[simp] theorem warn_phase (s : Session) : s.warn.phase = s.phase := by
  unfold warn
  split <;> rfl

@[simp] theorem indexBuiltins_phase (s : Session) : s.indexBuiltins.phase = s.phase := by
  simp only [indexBuiltins]
  split <;> rfl

@[simp] theorem accept_phase (s : Session) (id : RequestId) (p : InitializeParams) :
    (s.accept id p).phase = .initialized := by
  simp [accept]

/-- Parameters can be used if they are there and can be read. -/
theorem decodeParams_isOk {α : Type} (method : String) (item : Json.Decoder α)
    (params : Option Json) :
    (decodeParams method item params).isOk = params.any fun value => (item value).isOk := by
  cases params with
  | none => rfl
  | some value =>
      simp only [decodeParams, Option.any_some]
      cases item value <;> rfl

/-- A request to start a session is a start if its parameters can be used. -/
theorem isStart_request {r : Request} (hmethod : r.method = "initialize") :
    (Message.request r).isStart
      = (decodeParams "initialize" InitializeParams.decode r.params).isOk := by
  rw [decodeParams_isOk]
  simp [Message.isStart, hmethod]

/-- The parameters of a start can be used. -/
theorem params_of_isStart {r : Request} (h : (Message.request r).isStart = true) :
    r.method = "initialize" ∧
      ∃ p, decodeParams "initialize" InitializeParams.decode r.params = .ok p := by
  have hmethod : r.method = "initialize" := by
    simp only [Message.isStart, Bool.and_eq_true, decide_eq_true_eq] at h
    exact h.1
  rw [isStart_request hmethod] at h
  cases hdecoded : decodeParams "initialize" InitializeParams.decode r.params with
  | ok p => exact ⟨hmethod, p, rfl⟩
  | error e =>
      rw [hdecoded] at h
      exact absurd h Bool.false_ne_true

/-- Whichever way a message is taken, it moves the phase as the automaton says. -/
theorem Handled.phase {s' : Session} {m : Message} {out : Option Nat × Session}
    (hhandled : Handled s' m out) : out.2.phase = s'.phase.after m := by
  cases hhandled with
  | exited hmethod => simp [Phase.after, Message.isExit, hmethod, exit]
  | traced hmethod hparams =>
      exact (Phase.after_eq_self _ (by simp [Message.isExit, hmethod]) rfl rfl).symm
  | unnoticed hexit htrace =>
      exact (Phase.after_eq_self _ (by simp [Message.isExit, hexit]) rfl rfl).symm
  | ignored => exact (Phase.after_eq_self _ rfl rfl rfl).symm
  | @started r p hmethod hphase hparams =>
      have hstart : (Message.request r).isStart = true := by
        rw [isStart_request hmethod, hparams]
        rfl
      simp [Phase.after, Message.isExit, hphase, hstart]
  | @unstarted r e hmethod hphase hparams =>
      have hstart : (Message.request r).isStart = false := by
        rw [isStart_request hmethod, hparams]
        rfl
      simp [Phase.after, Message.isExit, hphase, hstart, reportFault]
  | @shutdown r hmethod hphase =>
      have hdown : (Message.request r).isShutdown = true := by simp [Message.isShutdown, hmethod]
      rcases hphase with hphase | hphase
      · simp [Phase.after, Message.isExit, hphase, hdown]
      · simp [Phase.after, Message.isExit, hphase]
  | @refused r why hwhy =>
      -- A request that is refused is one that the automaton does not move on.
      cases hp : s'.phase with
      | uninitialized =>
          have hstart : (Message.request r).isStart = false := by
            by_cases hm : r.method = "initialize"
            · simp [refusal?, hp, hm] at hwhy
            · simp [Message.isStart, hm]
          simp [Phase.after, Message.isExit, refuse, hp, hstart]
      | initialized =>
          have hdown : (Message.request r).isShutdown = false := by
            by_cases hm : r.method = "shutdown"
            · simp [refusal?, hp, hm] at hwhy
            · simp [Message.isShutdown, hm]
          simp [Phase.after, Message.isExit, refuse, hp, hdown]
      | shutdown => simp [Phase.after, Message.isExit, refuse, hp]
      | exited => simp [Phase.after, Message.isExit, refuse, hp]

/-- **One message moves the phase as the automaton says.** -/
theorem handle_phase (s : Session) (m : Message) :
    (s.handle m).2.phase = s.phase.after m := by
  rw [(handle_handled s m).phase, noteMethod_phase]

/-- The code that a message gives: one if it is an exit, and none otherwise. -/
theorem handle_code (s : Session) (m : Message) :
    (s.handle m).1 = if m.isExit then some s.exitCode else none := by
  have hhandled := handle_handled s m
  have hcode : (s.noteMethod m).exitCode = s.exitCode := by simp [exitCode]
  rw [← hcode]
  generalize s.noteMethod m = s' at hhandled ⊢
  generalize s.handle m = out at hhandled ⊢
  cases hhandled with
  | exited hmethod => simp [Message.isExit, hmethod]
  | traced hmethod hparams => simp [Message.isExit, hmethod]
  | unnoticed hexit htrace => simp [Message.isExit, hexit]
  | ignored => simp [Message.isExit]
  | started hmethod hphase hparams => simp [Message.isExit]
  | unstarted hmethod hphase hparams => simp [Message.isExit]
  | shutdown hmethod hphase => simp [Message.isExit]
  | refused hwhy => simp [Message.isExit]

/-! ### Whole histories

The three conditions are about a list of messages, in any order and with anything between them.
One more message at the end changes each of them in an obvious way, and the cases of the automaton
are then the cases of the history.
-/

/-- The session behind a list of messages. -/
def handleAll (s : Session) (history : List Message) : Session :=
  history.foldl (fun s m => (s.handle m).2) s

theorem handleAll_concat (s : Session) (history : List Message) (m : Message) :
    s.handleAll (history ++ [m]) = ((s.handleAll history).handle m).2 := by
  simp [handleAll]

/-- Some message of the history was an exit. -/
def Exits (history : List Message) : Prop :=
  ∃ m ∈ history, m.isExit = true

/-- Some message of the history was a start that could be read. -/
def Starts (history : List Message) : Prop :=
  ∃ m ∈ history, m.isStart = true

/-- Some shutdown of the history stands behind a start that could be read. -/
def ShutsDown (history : List Message) : Prop :=
  ∃ before stop behind, history = before ++ stop :: behind ∧ stop.isShutdown = true ∧
    Starts before

theorem exits_concat {history : List Message} {m : Message} :
    Exits (history ++ [m]) ↔ Exits history ∨ m.isExit = true := by
  simp [Exits, or_and_right, exists_or]

theorem starts_concat {history : List Message} {m : Message} :
    Starts (history ++ [m]) ↔ Starts history ∨ m.isStart = true := by
  simp [Starts, or_and_right, exists_or]

/-- The last message completes a shutdown if it is one and a start came before it. -/
theorem shutsDown_concat {history : List Message} {m : Message} :
    ShutsDown (history ++ [m]) ↔
      ShutsDown history ∨ Starts history ∧ m.isShutdown = true := by
  constructor
  · rintro ⟨before, stop, behind, heq, hstop, hstart⟩
    rcases List.eq_nil_or_concat behind with rfl | ⟨behind', last, rfl⟩
    · obtain ⟨rfl, hm⟩ := List.append_inj' heq rfl
      obtain rfl : m = stop := by simpa using hm
      exact Or.inr ⟨hstart, hstop⟩
    · have heq' : history ++ [m] = (before ++ stop :: behind') ++ [last] := by simpa using heq
      obtain ⟨hhistory, -⟩ := List.append_inj' heq' rfl
      exact Or.inl ⟨before, stop, behind', hhistory, hstop, hstart⟩
  · rintro (⟨before, stop, behind, rfl, hstop, hstart⟩ | ⟨hstart, hm⟩)
    · exact ⟨before, stop, behind ++ [m], by simp, hstop, hstart⟩
    · exact ⟨history, m, [], rfl, hm, hstart⟩

theorem starts_of_shutsDown {history : List Message} (h : ShutsDown history) :
    Starts history := by
  obtain ⟨before, stop, behind, rfl, -, m, hm, hstart⟩ := h
  exact ⟨m, by simp [hm], hstart⟩

/-- The phase that a history calls for. -/
inductive PhaseOf (history : List Message) : Phase → Prop
  | exited (hexit : Exits history) : PhaseOf history .exited
  | shutdown (hexit : ¬ Exits history) (hdown : ShutsDown history) : PhaseOf history .shutdown
  | initialized (hexit : ¬ Exits history) (hdown : ¬ ShutsDown history)
      (hstart : Starts history) : PhaseOf history .initialized
  | uninitialized (hexit : ¬ Exits history) (hstart : ¬ Starts history) :
      PhaseOf history .uninitialized

/-- One step of the automaton keeps the phase in agreement with the history. -/
theorem phaseOf_concat {history : List Message} {phase : Phase} (h : PhaseOf history phase)
    (m : Message) : PhaseOf (history ++ [m]) (phase.after m) := by
  by_cases hm : m.isExit = true
  · rw [show phase.after m = .exited by simp [Phase.after, hm]]
    exact .exited (exits_concat.mpr (Or.inr hm))
  have hstays : ¬ Exits history → ¬ Exits (history ++ [m]) := by
    intro hexit hc
    rcases exits_concat.mp hc with h | h
    · exact hexit h
    · exact hm h
  cases h with
  | exited hexit =>
      rw [show Phase.exited.after m = .exited by simp [Phase.after, hm]]
      exact .exited (exits_concat.mpr (Or.inl hexit))
  | shutdown hexit hdown =>
      rw [show Phase.shutdown.after m = .shutdown by simp [Phase.after, hm]]
      exact .shutdown (hstays hexit) (shutsDown_concat.mpr (Or.inl hdown))
  | initialized hexit hdown hstart =>
      by_cases hd : m.isShutdown = true
      · rw [show Phase.initialized.after m = .shutdown by simp [Phase.after, hm, hd]]
        exact .shutdown (hstays hexit) (shutsDown_concat.mpr (Or.inr ⟨hstart, hd⟩))
      · rw [show Phase.initialized.after m = .initialized by simp [Phase.after, hm, hd]]
        refine .initialized (hstays hexit) ?_ (starts_concat.mpr (Or.inl hstart))
        rw [shutsDown_concat]
        rintro (h | ⟨-, h⟩)
        · exact hdown h
        · exact hd h
  | uninitialized hexit hstart =>
      by_cases hs : m.isStart = true
      · rw [show Phase.uninitialized.after m = .initialized by simp [Phase.after, hm, hs]]
        refine .initialized (hstays hexit) ?_ (starts_concat.mpr (Or.inr hs))
        -- The start is the last message, so no shutdown can stand behind it.
        rw [shutsDown_concat]
        rintro (h | ⟨h, -⟩)
        · exact hstart (starts_of_shutsDown h)
        · exact hstart h
      · rw [show Phase.uninitialized.after m = .uninitialized by simp [Phase.after, hm, hs]]
        refine .uninitialized (hstays hexit) ?_
        rw [starts_concat]
        rintro (h | h)
        · exact hstart h
        · exact hs h

theorem handleAll_phaseOf (s : Session) (hs : s.phase = .uninitialized)
    (history : List Message) : PhaseOf history (s.handleAll history).phase := by
  induction history using List.reverseRecOn with
  | nil =>
      rw [show (s.handleAll []).phase = .uninitialized from hs]
      exact .uninitialized (by simp [Exits]) (by simp [Starts])
  | append_singleton history m ih =>
      rw [handleAll_concat, handle_phase]
      exact phaseOf_concat ih m

theorem PhaseOf.not_shutsDown {history : List Message} (hstart : ¬ Starts history) :
    ¬ ShutsDown history :=
  fun hdown => hstart (starts_of_shutsDown hdown)

/-- The history says of each phase whether it is the one. -/
theorem PhaseOf.iffs {history : List Message} {phase : Phase} (h : PhaseOf history phase) :
    (phase = .exited ↔ Exits history) ∧
    (phase = .shutdown ↔ ¬ Exits history ∧ ShutsDown history) ∧
    (phase = .initialized ↔ ¬ Exits history ∧ ¬ ShutsDown history ∧ Starts history) ∧
    (phase = .uninitialized ↔ ¬ Exits history ∧ ¬ ShutsDown history ∧ ¬ Starts history) := by
  cases h with
  | exited hexit => simp [hexit]
  | shutdown hexit hdown => simp [hexit, hdown]
  | initialized hexit hdown hstart => simp [hexit, hdown, hstart]
  | uninitialized hexit hstart => simp [hexit, hstart, not_shutsDown hstart]

/--
**The history decides the phase.**  A session that was sent `history` has exited if one of the
messages was an exit; otherwise it is shut down if a start that could be read was followed by a
shutdown, and otherwise initialized if there was such a start.  The next message never takes the
phase back, and enters the shutdown phase from the one before it only.  It gives a code if and only
if it is an exit: zero if no exit came before it and the session had been started and shut down,
and one otherwise.
-/
theorem phase_of_history (settings : Settings) (environment : Environment) (disk : Files)
    (history : List Message) :
    let s := (new settings environment disk).handleAll history
    (s.phase = .exited ↔ Exits history) ∧
    (s.phase = .shutdown ↔ ¬ Exits history ∧ ShutsDown history) ∧
    (s.phase = .initialized ↔ ¬ Exits history ∧ ¬ ShutsDown history ∧ Starts history) ∧
    (s.phase = .uninitialized ↔ ¬ Exits history ∧ ¬ ShutsDown history ∧ ¬ Starts history) ∧
    ∀ m : Message,
      s.phase.rank ≤ (s.handle m).2.phase.rank ∧
      ((s.handle m).2.phase = .shutdown → s.phase ≠ .shutdown → s.phase = .initialized) ∧
      (m.isExit = true →
        (s.handle m).1 = some 0 ∧ ¬ Exits history ∧ ShutsDown history ∨
        (s.handle m).1 = some 1 ∧ ¬ (¬ Exits history ∧ ShutsDown history)) ∧
      (m.isExit = false → (s.handle m).1 = none) := by
  intro s
  have hphase : PhaseOf history s.phase := handleAll_phaseOf _ rfl history
  obtain ⟨hexited, hshutdown, hinitialized, huninitialized⟩ := hphase.iffs
  refine ⟨hexited, hshutdown, hinitialized, huninitialized, fun m => ⟨?_, ?_, ?_, ?_⟩⟩
  · rw [handle_phase]
    exact Phase.rank_le_after s.phase m
  · intro hafter hne
    rw [handle_phase] at hafter
    exact (Phase.of_after_shutdown hafter).resolve_right hne
  · intro hexit
    have hcode : (s.handle m).1 = some s.exitCode := by rw [handle_code, if_pos hexit]
    by_cases hdown : s.phase = .shutdown
    · have hzero : s.exitCode = 0 := by simp [exitCode, hdown]
      rw [hcode, hzero]
      exact Or.inl ⟨rfl, hshutdown.mp hdown⟩
    · have hone : s.exitCode = 1 := by simp [exitCode, hdown]
      rw [hcode, hone]
      exact Or.inr ⟨rfl, fun h => hdown (hshutdown.mpr h)⟩
  · intro hexit
    rw [handle_code, if_neg (by simp [hexit])]

end Session

end VServer
