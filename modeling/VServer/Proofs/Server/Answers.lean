/-
Every request is answered once, in order, and before anything else is read.

Replies leave the server by two ways.  The session queues its answers and the server writes the
queue; a frame that cannot be read is answered past the session.  What keeps the two from getting
into each other's way is that the queue is empty whenever the server reads.  That is half of
`AtRest`, the invariant of the head of the loop; the other half ties the notice for the user to
the phase, so that the notice comes with the first request to start the session.

From the invariant each turn is settled on its own: `turn_answered` says what is written in it.
The run then is a list of settled turns, and what has to be counted is counted over that list.  The
responses stand in the order of what they answer because the turns do; the notice is shown once
because what has been shown and what the session still holds always add up to the same.

All this is about messages, and what a client gets are bytes.  At rest a session has nothing queued
that came from elsewhere, so what it writes can be sent, and the bytes of the run carry the messages
of its turns as they are seen from outside.  Being answered is seen from outside (`Answered.seen`),
and so is being shown, so the last step is to say of the turns as they are seen what was proved of
the turns as they are.
-/
import VServer.Proofs.Server.Output
import Mathlib.Data.List.Forall2

namespace VServer

open Text (Bytes)

namespace Received

/-- Whether a result of reading gets a response: requests and malformed frames do. -/
def wantsResponse : Received → Bool
  | .message (.request _) => true
  | .malformed _ => true
  | _ => false

/-- Whether a result of reading is a request to start the session. -/
def isInitialize : Received → Bool
  | .message m => m.isInitialize
  | _ => false

/-- The results of reading through the first exit. -/
def throughExit : List Received → List Received
  | [] => []
  | r :: rs => if r.isExit then [r] else r :: throughExit rs

end Received

namespace Server

/-- The response that belongs to what was read: that to a request has its id, and that to a
malformed frame has none and says that it could not be parsed. -/
def Responds : Received → Response → Prop
  | .message (.request q), r => r.id = some q.id
  | .malformed _, r => r.id = none ∧ ∃ e, r.error = some e ∧ e.code = -32700
  | _, _ => False

/-- What is written in a turn: one response, with notifications in front of it, if one is wanted,
and otherwise nothing. -/
inductive Answered : Turn → Prop
  | replied {received : Received} {notes : List Message} {response : Response}
      (hwants : received.wantsResponse = true) (hresponds : Responds received response)
      (hnotes : ∀ m ∈ notes, m.response? = none) :
      Answered ⟨received, notes ++ [.response response]⟩
  | silent {received : Received} (hwants : received.wantsResponse = false) :
      Answered ⟨received, []⟩

/-! ### The invariant of the loop

Only the step behind a message has to be looked at.  It empties the queue, and the two things that
move the other half of the invariant, the phase and the memory of the notice, are both moved by a
request to start the session: the phase only by one that can be read, the memory by any.
-/

/-- A session between two reads: nothing waits to be sent, and one that has not warned has not
been started. -/
structure AtRest (session : Session) : Prop where
  quiet : session.outbox.queue = []
  unwarned : session.warned = false → session.phase = .uninitialized

theorem isInitialize_of_isStart {m : Message} (h : m.isStart = true) : m.isInitialize = true := by
  cases m with
  | request r =>
      simp only [Message.isStart, Bool.and_eq_true] at h
      exact h.1
  | response r => simp [Message.isStart] at h
  | notification n => simp [Message.isStart] at h

/-- At rest, a session has warned behind a message if it had before, or if it is asked to start. -/
theorem handle_warned_of_atRest {s : Session} (hrest : AtRest s) (m : Message) :
    (s.handle m).2.warned = (s.warned || m.isInitialize) := by
  rw [Session.handle_warned]
  by_cases hwarned : s.warned = true
  · simp [hwarned]
  · have hphase := hrest.unwarned (by simpa using hwarned)
    simp [hphase]

/-- Behind a message that is no exit, with its queue sent, a session is at rest again. -/
theorem flush_atRest {s : Session} (hrest : AtRest s) {m : Message} (hexit : m.isExit = false) :
    AtRest (flush (s.handle m).2 (s.handle m).1).session where
  quiet := rfl
  unwarned := by
    intro hwarned
    have hwarned' : (s.handle m).2.warned = false := hwarned
    rw [handle_warned_of_atRest hrest] at hwarned'
    obtain ⟨hbefore, hinit⟩ := Bool.or_eq_false_iff.mp hwarned'
    show (s.handle m).2.phase = .uninitialized
    have hstart : m.isStart = false := by
      by_contra hc
      rw [isInitialize_of_isStart (by simpa using hc)] at hinit
      simp at hinit
    rw [Session.handle_phase, hrest.unwarned hbefore]
    simp [Phase.after, hexit, hstart]

theorem next_atRest {h : Head} (hrest : AtRest h.session) (hgo : h.code = none) :
    AtRest h.next.session := by
  obtain ⟨hexit, hend⟩ := Head.received_of_code_none hgo
  show AtRest (step h.session h.turn.received).session
  cases hreceived : h.turn.received with
  | message m =>
      rw [hreceived] at hexit
      exact flush_atRest hrest hexit
  | malformed e => exact hrest
  | ended how => rw [hreceived] at hend; simp [Received.isEnd] at hend

theorem runs_atRest {h h' : Head} {turns : List Turn} (hruns : Runs h turns h')
    (hrest : AtRest h.session) : AtRest h'.session := by
  induction hruns with
  | here h => exact hrest
  | turn hgo hruns ih => exact ih (next_atRest hrest hgo)

/-! ### One turn is answered

What a turn writes is what `answer` says, and for a session at rest that is the answer to what was
read alone, since nothing was queued before it.
-/

/-- At rest, what needs no response gets no message at all. -/
theorem answer_eq_nil {s : Session} (hrest : AtRest s) {received : Received}
    (hwants : received.wantsResponse = false) : answer s received = [] := by
  cases received with
  | message m =>
      have hm : ∀ r, m ≠ .request r := by
        rintro r rfl
        simp [Received.wantsResponse] at hwants
      show (s.handle m).2.outbox.queue = []
      rw [Session.handle_queue_of_not_request s m hm, hrest.quiet]
  | malformed e => simp [Received.wantsResponse] at hwants
  | ended how => exact hrest.quiet

/-- At rest, what is written in answer to a request is its answer alone. -/
theorem answer_request {s : Session} (hrest : AtRest s) (q : Request) :
    Session.Answers q (if (Message.request q).isInitialize then s.openNotices else [])
      (answer s (.message (.request q))) := by
  obtain ⟨written, hqueue, hanswers⟩ := Session.handle_request_queue s q
  rw [hrest.quiet, List.nil_append] at hqueue
  show Session.Answers q _ (s.handle (.request q)).2.outbox.queue
  rw [hqueue]
  -- The phase does not matter: where it is past the first one, the notice has been shown.
  have hnotices : (if (Message.request q).isInitialize = true ∧ s.phase = .uninitialized
        then s.openNotices else [])
      = if (Message.request q).isInitialize then s.openNotices else [] := by
    by_cases hwarned : s.warned = true
    · have hempty : s.openNotices = [] := by simp [Session.openNotices, hwarned]
      simp [hempty]
    · simp [hrest.unwarned (by simpa using hwarned)]
  rw [← hnotices]
  exact hanswers

theorem openNotices_shown {s : Session} : ∀ m ∈ s.openNotices, m.isShown = true := by
  intro m hm
  unfold Session.openNotices at hm
  split at hm
  · simp at hm
  · rw [List.mem_singleton.mp hm]
    rfl

/-- **What is written in a turn answers what was read in it, and nothing else.** -/
theorem turn_answered {h : Head} (hrest : AtRest h.session) : Answered h.turn := by
  show Answered ⟨h.turn.received, answer h.session h.turn.received⟩
  by_cases hwants : h.turn.received.wantsResponse = true
  · cases hreceived : h.turn.received with
    | message m =>
        cases m with
        | request q =>
            obtain ⟨logged, response, hwritten, hid, hlogged⟩ := answer_request hrest q
            rw [hwritten]
            refine .replied rfl hid ?_
            intro m hm
            rcases List.mem_append.mp hm with hm | hm
            · split at hm
              · exact Message.response?_of_isShown (openNotices_shown m hm)
              · simp at hm
            · exact Message.response?_of_isLogged (hlogged m hm)
        | response r => rw [hreceived] at hwants; simp [Received.wantsResponse] at hwants
        | notification n => rw [hreceived] at hwants; simp [Received.wantsResponse] at hwants
    | malformed e =>
        show Answered ⟨_, [] ++ [malformedReply e]⟩
        exact .replied rfl ⟨rfl, _, rfl, rfl⟩ (by simp)
    | ended how => rw [hreceived] at hwants; simp [Received.wantsResponse] at hwants
  · have hsilent : h.turn.received.wantsResponse = false := by simpa using hwants
    rw [answer_eq_nil hrest hsilent]
    exact .silent hsilent

/-- **An answer is seen from outside.**  Reading a message leaves its id, its kind and the code of
an error as they are. -/
theorem Answered.seen {t : Turn} (h : Answered t) : Answered t.seen := by
  cases h with
  | @replied received notes response hwants hresponds hnotes =>
      have hseen :
          Answered ⟨received, notes.map Message.relayed ++ [.response response.relayed]⟩ := by
        refine .replied hwants ?_ ?_
        · cases received with
          | message m =>
              cases m with
              | request q => exact hresponds
              | response r => cases hwants
              | notification n => cases hwants
          | malformed e =>
              obtain ⟨hid, error, herror, hcode⟩ := hresponds
              exact ⟨hid, error.relayed, by rw [Response.relayed, herror]; rfl, hcode⟩
          | ended how => cases hwants
        · intro m hm
          obtain ⟨note, hnote, rfl⟩ := List.mem_map.mp hm
          rw [Message.response?_relayed, hnotes note hnote, Option.map_none]
      rwa [Turn.seen, List.map_append]
  | silent hwants => exact .silent hwants

/-- Responses and what they answer stand in the same order, one for one. -/
theorem responses_of_answered {turns : List Turn} (hturns : ∀ t ∈ turns, Answered t) :
    List.Forall₂ Responds ((turns.map Turn.received).filter Received.wantsResponse)
      ((turns.flatMap Turn.written).filterMap Message.response?) := by
  induction turns with
  | nil => exact .nil
  | cons t turns ih =>
      have hrest := ih fun t' ht' => hturns t' (List.mem_cons_of_mem _ ht')
      cases hturns t (List.mem_cons_self ..) with
      | @replied received notes response hwants hresponds hnotes =>
          have hfront : notes.filterMap Message.response? = [] :=
            List.filterMap_eq_nil_iff.mpr hnotes
          simp only [List.map_cons, List.filter_cons, hwants, if_true, List.flatMap_cons,
            List.filterMap_append, hfront, List.nil_append]
          exact .cons hresponds hrest
      | silent hwants =>
          simpa only [List.map_cons, List.filter_cons, hwants, Bool.false_eq_true, if_false,
            List.flatMap_cons, List.nil_append] using hrest

/-! ### The notice

A session holds the notice until it shows it.  What the turns of a run have shown and what the
session still holds add up to what it held before, so nothing is shown twice.
-/

/-- What is shown to the user in one turn. -/
theorem answer_shown {s : Session} (hrest : AtRest s) (received : Received) :
    (answer s received).filter Message.isShown =
      if received.isInitialize then s.openNotices else [] := by
  cases received with
  | message m =>
      cases m with
      | request q =>
          obtain ⟨logged, response, hwritten, -, hlogged⟩ := answer_request hrest q
          have hnone : logged.filter Message.isShown = [] := by
            rw [List.filter_eq_nil_iff]
            intro m hm
            simp [Message.isShown_of_isLogged (hlogged m hm)]
          have hall : (if (Message.request q).isInitialize then s.openNotices else []).filter
              Message.isShown = if (Message.request q).isInitialize then s.openNotices else [] := by
            rw [List.filter_eq_self]
            intro m hm
            split at hm
            · exact openNotices_shown m hm
            · simp at hm
          rw [hwritten, List.filter_append, List.filter_append, hnone, hall, List.append_nil]
          exact List.append_nil _
      | response r => rw [answer_eq_nil hrest rfl]; rfl
      | notification n => rw [answer_eq_nil hrest rfl]; rfl
  | malformed e => rfl
  | ended how => rw [answer_eq_nil hrest rfl]; rfl

theorem next_warned {h : Head} (hrest : AtRest h.session) (hgo : h.code = none) :
    h.next.session.warned = (h.session.warned || h.turn.received.isInitialize) := by
  obtain ⟨-, hend⟩ := Head.received_of_code_none hgo
  show (step h.session h.turn.received).session.warned = _
  cases hreceived : h.turn.received with
  | message m => exact handle_warned_of_atRest hrest m
  | malformed e => simp [step, Received.isInitialize]
  | ended how => rw [hreceived] at hend; simp [Received.isEnd] at hend

/-- A session has warned if it had at the start of the run, or if it was asked to start in it. -/
theorem runs_warned {h h' : Head} {turns : List Turn} (hruns : Runs h turns h')
    (hrest : AtRest h.session) :
    h'.session.warned = (h.session.warned || turns.any fun t => t.received.isInitialize) := by
  induction hruns with
  | here h => simp
  | turn hgo hruns ih =>
      rw [ih (next_atRest hrest hgo), next_warned hrest hgo]
      simp [Bool.or_assoc]

/-- What a turn shows and what is left to show are what there was to show. -/
theorem turn_shown {h : Head} (hrest : AtRest h.session) (hgo : h.code = none) :
    h.turn.written.filter Message.isShown ++ h.next.session.openNotices =
      h.session.openNotices := by
  have hwarned := next_warned hrest hgo
  have hshown : h.turn.written.filter Message.isShown =
      if h.turn.received.isInitialize then h.session.openNotices else [] :=
    answer_shown hrest _
  rw [hshown]
  by_cases hinit : h.turn.received.isInitialize = true
  · have hnone : h.next.session.openNotices = [] := by
      simp [Session.openNotices, hwarned, hinit]
    rw [if_pos hinit, hnone, List.append_nil]
  · have hsame : h.next.session.openNotices = h.session.openNotices := by
      simp [Session.openNotices, hwarned, hinit]
    rw [if_neg hinit, hsame, List.nil_append]

theorem runs_shown {h h' : Head} {turns : List Turn} (hruns : Runs h turns h')
    (hrest : AtRest h.session) :
    (turns.flatMap Turn.written).filter Message.isShown ++ h'.session.openNotices =
      h.session.openNotices := by
  induction hruns with
  | here h => rfl
  | turn hgo hruns ih =>
      rw [List.flatMap_cons, List.filter_append, List.append_assoc, ih (next_atRest hrest hgo)]
      exact turn_shown hrest hgo

/-- All that a run shows, the turn at its end included, is no more than there was to show. -/
theorem runs_shown_le {h h' : Head} {turns : List Turn} (hruns : Runs h turns h')
    (hrest : AtRest h.session) :
    (((turns ++ [h'.turn]).flatMap Turn.written).filter Message.isShown).length ≤
      h.session.openNotices.length := by
  have hlast : (h'.turn.written.filter Message.isShown).length ≤ h'.session.openNotices.length := by
    rw [show h'.turn.written.filter Message.isShown = _ from
      answer_shown (runs_atRest hruns hrest) _]
    split
    · exact Nat.le_refl _
    · exact Nat.zero_le _
  have hsum := congrArg List.length (runs_shown hruns hrest)
  rw [List.length_append] at hsum
  rw [List.flatMap_append, List.filter_append, List.length_append, List.flatMap_singleton]
  omega

/-- What is shown comes with the first request to start the session. -/
theorem runs_shown_first {h h' : Head} {turns : List Turn} (hruns : Runs h turns h')
    (hrest : AtRest h.session) {m : Message} (hm : m ∈ h'.turn.written)
    (hshown : m.isShown = true) :
    h'.turn.received.isInitialize = true ∧ ∀ t ∈ turns, t.received.isInitialize = false := by
  have hmem : m ∈ h'.turn.written.filter Message.isShown := List.mem_filter.mpr ⟨hm, hshown⟩
  rw [show h'.turn.written.filter Message.isShown = _ from
    answer_shown (runs_atRest hruns hrest) _] at hmem
  split at hmem
  · rename_i hinit
    -- The notice is still there, so no turn before has asked for a start.
    have hwarned : h'.session.warned = false := by
      by_contra hc
      simp [Session.openNotices, hc] at hmem
    rw [runs_warned hruns hrest] at hwarned
    have hany := (Bool.or_eq_false_iff.mp hwarned).2
    exact ⟨hinit, fun t ht => by simpa using List.any_eq_false.mp hany t ht⟩
  · simp at hmem

/-! ### The turns of a run

A run can be cut in front of any of its turns, and is then a shorter run to the head of the loop at
which that turn starts.  So what a session at rest does holds of each turn, and not only of the last
one.
-/

/-- At each turn of a run the server stood at a head of its loop, behind the turns before. -/
theorem runs_split {h h' : Head} {turns : List Turn} (hruns : Runs h turns h') :
    ∀ (before : List Turn) (t : Turn) (behind : List Turn),
      turns ++ [h'.turn] = before ++ t :: behind →
      ∃ middle, Runs h before middle ∧ middle.turn = t := by
  induction hruns with
  | here h =>
      intro before t behind heq
      cases before with
      | nil =>
          obtain ⟨rfl, -⟩ := List.cons.inj heq
          exact ⟨h, .here h, rfl⟩
      | cons b before => simp at heq
  | @turn h h' turns hgo hruns ih =>
      intro before t behind heq
      cases before with
      | nil =>
          obtain ⟨rfl, -⟩ := List.cons.inj heq
          exact ⟨h, .here h, rfl⟩
      | cons b before =>
          obtain ⟨rfl, htail⟩ := List.cons.inj heq
          obtain ⟨middle, hmiddle, hturn⟩ := ih before t behind htail
          exact ⟨middle, .turn hgo hmiddle, hturn⟩

/-- What a run reads is what the stream holds, through the first exit. -/
theorem runs_reads {h h' : Head} {turns : List Turn} {code : Nat} (hruns : Runs h turns h')
    (hstop : h'.code = some code) :
    (turns ++ [h'.turn]).map Turn.received = Received.throughExit (Frame.readAll h.unread) := by
  induction hruns with
  | here h =>
      obtain ⟨hreceived, -⟩ := Head.received_of_code_some hstop
      show [(Frame.read h.unread).1] = _
      have hreceived' : ((Frame.read h.unread).1.isExit || (Frame.read h.unread).1.isEnd) = true :=
        hreceived
      rcases hread : Frame.read h.unread with ⟨received, rest⟩
      rw [hread] at hreceived'
      cases received with
      | message m =>
          have hexit : m.isExit = true := by
            simpa [Received.isExit, Received.isEnd] using hreceived'
          rw [Frame.readAll_of_read hread rfl]
          simp [Received.throughExit, Received.isExit, hexit]
      | malformed e => simp [Received.isExit, Received.isEnd] at hreceived'
      | ended how =>
          rw [Frame.readAll_of_end hread]
          rfl
  | @turn h h' turns hgo hruns ih =>
      obtain ⟨hexit, hend⟩ := Head.received_of_code_none hgo
      have hread : Frame.read h.unread = (h.turn.received, h.next.unread) := rfl
      rw [Frame.readAll_of_read hread hend, List.cons_append, List.map_cons, ih hstop]
      simp [Received.throughExit, hexit]

/-! ### The whole run -/

theorem new_atRest (settings : Settings) (environment : Environment) (disk : Files) :
    AtRest (Session.new settings environment disk) :=
  ⟨rfl, fun _ => rfl⟩

/-- A message that is shown stands in front of the response of its turn. -/
theorem shown_before_response {t : Turn} (hanswered : Answered t) {m : Message}
    (hm : m ∈ t.written) (hshown : m.isShown = true) :
    ∃ front back response, t.written = front ++ m :: back ++ [.response response] := by
  cases hanswered with
  | @replied received notes response hwants hresponds hnotes =>
      rcases List.mem_append.mp hm with hm | hm
      · obtain ⟨front, back, rfl⟩ := List.append_of_mem hm
        exact ⟨front, back, response, rfl⟩
      · rw [List.mem_singleton.mp hm] at hshown
        simp [Message.isShown] at hshown
  | silent hwants => simp at hm

/-- In a run from a session at rest each turn starts at rest. -/
theorem runs_atRest_at {h h' : Head} {turns : List Turn} (hruns : Runs h turns h')
    (hrest : AtRest h.session) {before behind : List Turn} {t : Turn}
    (heq : turns ++ [h'.turn] = before ++ t :: behind) :
    ∃ head, Runs h before head ∧ head.turn = t ∧ AtRest head.session := by
  obtain ⟨head, hbefore, hturn⟩ := runs_split hruns before t behind heq
  exact ⟨head, hbefore, hturn, runs_atRest hbefore hrest⟩

/-- What holds of a turn that starts at rest holds of all turns of a run from a session at rest. -/
theorem forall_turns {P : Turn → Prop} (hP : ∀ head : Head, AtRest head.session → P head.turn)
    {h h' : Head} {turns : List Turn} (hruns : Runs h turns h') (hrest : AtRest h.session) :
    ∀ t ∈ turns ++ [h'.turn], P t := by
  intro t ht
  obtain ⟨before, behind, heq⟩ := List.append_of_mem ht
  obtain ⟨head, -, rfl, hhead⟩ := runs_atRest_at hruns hrest heq
  exact hP head hhead

/-- The bytes that a run has written carry what is seen of its turns. -/
theorem runs_carries {h h' : Head} {turns : List Turn} (hruns : Runs h turns h')
    (hrest : AtRest h.session) (houtput : h.output = []) :
    Frame.Carries h'.output ((turns.map Turn.seen).flatMap Turn.written) := by
  rw [runs_output hruns, houtput, List.nil_append]
  refine carries_turns fun t ht => ?_
  exact forall_turns (P := fun t => ∀ m ∈ t.written, m.Sendable)
    (fun _ hhead => Head.turn_sendable hhead.quiet) hruns hrest t (List.mem_append_left _ ht)

/-- So do the bytes that have been written behind the turn at its end. -/
theorem runs_carries_next {h h' : Head} {turns : List Turn} (hruns : Runs h turns h')
    (hrest : AtRest h.session) (houtput : h.output = []) :
    Frame.Carries h'.next.output (((turns ++ [h'.turn]).map Turn.seen).flatMap Turn.written) := by
  have hbytes : h'.next.output
      = ((turns ++ [h'.turn]).flatMap Turn.written).flatMap Frame.ofMessage := by
    rw [Head.next_output, runs_output hruns, houtput, List.nil_append, List.flatMap_append,
      List.flatMap_append, List.flatMap_singleton]
  rw [hbytes]
  exact carries_turns (forall_turns (fun _ hhead => Head.turn_sendable hhead.quiet) hruns hrest)

/-- Turns that are seen in this order were taken in this order. -/
theorem exists_of_seen {turns before behind : List Turn} {t : Turn}
    (h : turns.map Turn.seen = before ++ t :: behind) :
    ∃ earlier u later, turns = earlier ++ u :: later ∧ earlier.map Turn.seen = before ∧
      u.seen = t := by
  obtain ⟨earlier, rest, rfl, hearlier, hrest⟩ := List.map_eq_append_iff.mp h
  obtain ⟨u, later, rfl, hu, -⟩ := List.map_eq_cons_iff.mp hrest
  exact ⟨earlier, u, later, rfl, hearlier, hu⟩

/--
**Every request and every malformed frame is answered once, and in order.**  The server goes
through the results of reading up to the first exit, and the bytes that it writes carry, turn by
turn, the messages of these turns: they are what a reader of the bytes reads.  The responses among
them are, one for one, those to the requests, with their ids, and to the malformed frames.  When a
turn starts, all that belongs to the turns before it has been written and nothing waits.  At most
one message is shown to the user; it comes with the first request to start the session, in front of
the response.
-/
theorem serve_answers (settings : Settings) (environment : Environment) (disk : Files)
    (input : Bytes) :
    ∃ turns : List Turn,
      turns.map Turn.received = Received.throughExit (Frame.readAll input) ∧
      Frame.Carries (serve (Session.new settings environment disk) input).output
        (turns.flatMap Turn.written) ∧
      List.Forall₂ Responds ((turns.map Turn.received).filter Received.wantsResponse)
        ((turns.flatMap Turn.written).filterMap Message.response?) ∧
      (∀ before t behind, turns = before ++ t :: behind →
        Answered t ∧
        ∃ earlier head,
          Runs ⟨Session.new settings environment disk, input, []⟩ earlier head ∧
          earlier.map Turn.seen = before ∧ head.turn.seen = t ∧
          Frame.Carries head.output (before.flatMap Turn.written) ∧
          head.session.outbox.queue = []) ∧
      ((turns.flatMap Turn.written).filter Message.isShown).length ≤ 1 ∧
      ∀ before t behind, turns = before ++ t :: behind →
        ∀ m ∈ t.written, m.isShown = true →
          t.received.isInitialize = true ∧
          (∀ b ∈ before, b.received.isInitialize = false) ∧
          ∃ front back response, t.written = front ++ m :: back ++ [.response response] := by
  obtain ⟨turns, last, hruns, hcode, houtput, -⟩ :=
    serve_runs (Session.new settings environment disk) input
  have hrest := new_atRest settings environment disk
  have hanswered := forall_turns (fun _ => turn_answered) hruns hrest
  refine ⟨(turns ++ [last.turn]).map Turn.seen, ?_, ?_, ?_, ?_, ?_, ?_⟩
  · rw [received_seen, runs_reads hruns hcode]
  · rw [houtput]
    exact runs_carries_next hruns hrest rfl
  · refine responses_of_answered fun t ht => ?_
    obtain ⟨u, hu, rfl⟩ := List.mem_map.mp ht
    exact (hanswered u hu).seen
  · intro before t behind heq
    obtain ⟨earlier, u, later, hturns, rfl, rfl⟩ := exists_of_seen heq
    obtain ⟨head, hbefore, rfl, hhead⟩ := runs_atRest_at hruns hrest hturns
    exact ⟨(turn_answered hhead).seen, earlier, head, hbefore, rfl, rfl,
      runs_carries hbefore hrest rfl, hhead.quiet⟩
  · rw [written_seen, Message.shown_relayed, List.length_map]
    exact runs_shown_le hruns hrest
  · intro before t behind heq m hm hshown
    obtain ⟨earlier, u, later, hturns, rfl, rfl⟩ := exists_of_seen heq
    obtain ⟨head, hbefore, rfl, hhead⟩ := runs_atRest_at hruns hrest hturns
    obtain ⟨n, hn, rfl⟩ := List.mem_map.mp hm
    obtain ⟨hinit, hearlier⟩ := runs_shown_first hbefore hrest hn (n.isShown_relayed ▸ hshown)
    refine ⟨hinit, fun b hb => ?_, shown_before_response (turn_answered hhead).seen hm hshown⟩
    obtain ⟨e, he, rfl⟩ := List.mem_map.mp hb
    exact hearlier e he

end Server

end VServer
