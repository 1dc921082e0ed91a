/-
What the server writes can be read.

A run is told in messages, but what leaves the server are bytes.  Between the two stand the text of
a message and the frame around it, and both could go wrong: a text is only read as the message again
if the numbers in it have the size of those on the wire and nothing in it is nested too deeply, and
a frame only if it tells the length of its body.  `Carries` says of bytes which messages are read
from them, and it says so in terms of the readers: the bytes are the frames of texts, each text is
parsed as its message, and the stream reader finds these messages and then the end, unless a text is
longer than a body may be.

That a message can be sent is an invariant of the outbox (`Outbox.Ready`).  A session queues little
that is its own: notes and refusals, whose numbers are fixed, the welcome, which is plain for all
capabilities, and null.  What comes from outside is the id of the request, and that was read from
the wire, so it fits (`Message.id_fits_of_parse`).  No bound of this kind has to be asked of the
stream or of the session that reads it.

What is read is the message but for a null that could as well have been left out, which is what
`Message.relayed` takes away.  A turn with its messages as they are read is the turn as it is seen
from outside (`Turn.seen`), and what tells a response or a notice from other messages is seen of it.
-/
import VServer.Proofs.Protocol.Framing
import VServer.Proofs.Protocol.Ids
import VServer.Proofs.Server.Run

namespace VServer

open Text (Bytes)

/-! ### What a session queues can be sent

All that a session says goes through one of the ways of `Saying`, and what is said in a way that is
sendable is one sendable message more in the outbox.  So there is nothing to do but to follow the
cases of `Handled` and to look at what is said in each.
-/

/-- All messages that wait can be sent. -/
def Outbox.Ready (o : Outbox) : Prop :=
  ∀ m ∈ o.queue, m.Sendable

theorem Outbox.Ready.say {o : Outbox} (h : o.Ready) {s : Saying} (hs : s.Sendable) :
    (s.queueIn o).Ready := by
  obtain ⟨m, hqueue, hm, -⟩ := Saying.queueIn_eq o hs
  intro m' hm'
  rw [hqueue] at hm'
  rcases List.mem_append.mp hm' with hm' | hm'
  · exact h m' hm'
  · rw [List.mem_singleton.mp hm']
    exact hm

theorem Outbox.Ready.respond_null {o : Outbox} (h : o.Ready) {id : RequestId} (hid : id.Fits) :
    (o.respond id .null).Ready :=
  h.say (s := .respond id .null) ⟨hid, .null, Json.sorted_null⟩

/-- The codes are numbers of 32 bits. -/
theorem ErrorCode.number_fits (c : ErrorCode) : -2147483648 ≤ c.number ∧ c.number ≤ 2147483647 := by
  cases c <;> decide

namespace Session

theorem welcome_orderly (capabilities : ServerCapabilities) :
    Json.Orderly 126 (welcome capabilities) :=
  (InitializeResult.returns 122 _).plain.orderly_sorted

theorem warn_ready {s : Session} (h : s.outbox.Ready) : s.warn.outbox.Ready := by
  unfold warn
  split
  · exact h
  · exact h.say (s := .showMessage .warning prereleaseNotice) trivial

theorem reportFault_ready {s : Session} (h : s.outbox.Ready) (message : String) :
    (s.reportFault message).outbox.Ready :=
  h.say (s := .logMessage .error message) trivial

theorem indexBuiltins_ready {s : Session} (h : s.outbox.Ready) : s.indexBuiltins.outbox.Ready := by
  simp only [indexBuiltins]
  split
  · exact h
  · exact h.say (s := .logMessage .error _) trivial

theorem accept_ready {s : Session} (h : s.outbox.Ready) {id : RequestId} (hid : id.Fits)
    (p : InitializeParams) : (s.accept id p).outbox.Ready := by
  refine Outbox.Ready.say (s := .respond id (welcome _)) ?_ ⟨hid, welcome_orderly _⟩
  exact indexBuiltins_ready h

theorem refuse_ready {s : Session} (h : s.outbox.Ready) {id : RequestId} (hid : id.Fits)
    (why : Refusal) : (s.refuse id why).outbox.Ready := by
  refine h.say (s := .respondError (some id) why.toError) ⟨fun i hi => ?_, why.code.number_fits, ?_⟩
  · obtain rfl := Option.some.inj hi
    exact hid
  · exact fun _ => (nomatch ·)

/-- **What a message makes a session queue can be sent**, if the id of a request can. -/
theorem handle_ready {s : Session} (h : s.outbox.Ready) {m : Message}
    (hid : ∀ r, m = .request r → r.id.Fits) : (s.handle m).2.outbox.Ready := by
  have hhandled := handle_handled s m
  rw [← noteMethod_outbox s m] at h
  generalize s.noteMethod m = s' at hhandled h
  generalize s.handle m = out at hhandled ⊢
  cases hhandled with
  | exited hmethod => exact h
  | traced hmethod hparams => exact h
  | unnoticed hexit htrace => exact h
  | ignored => exact h
  | started hmethod hphase hparams => exact accept_ready (warn_ready h) (hid _ rfl) _
  | unstarted hmethod hphase hparams =>
      exact (reportFault_ready (warn_ready h) _).respond_null (hid _ rfl)
  | shutdown hmethod hphase => exact h.respond_null (hid _ rfl)
  | refused hwhy => exact refuse_ready h (hid _ rfl) _

end Session

namespace Frame

/-- The id of a request that is taken off a stream fits on the wire. -/
theorem id_fits_of_read {bytes : Bytes} {q : Request}
    (h : (read bytes).1 = .message (.request q)) : q.id.Fits := by
  unfold read at h
  split at h
  · cases h
  · cases h
  · rename_i n rest hheaders
    split at h
    · cases h
    · have hdelivers := delivers_readBody (rest.take n)
      rw [show readBody (rest.take n) = .message (.request q) from h] at hdelivers
      cases hdelivers with
      | message hbody hparse => exact Message.id_fits_of_parse hparse

/-! ### What bytes carry

The frames of messages carry them as they are read.  The condition on the length is one on the
reader, which refuses a body of more than 64 MiB; a reply can be that long, since a refusal repeats
the method that it refuses.
-/

/-- The bytes are the frames of texts, and the texts are read as these messages, in this order.  If
none is too long, these messages are all that is read from the bytes. -/
def Carries (bytes : Bytes) (messages : List Message) : Prop :=
  ∃ texts : List (List Char),
    bytes = texts.flatMap ofText ∧
    List.Forall₂ (fun text m => Message.parse text = .ok m) texts messages ∧
    ((∀ text ∈ texts, (Text.encode text).length ≤ bodyLimit) →
      readAll bytes = messages.map .message ++ [.ended .closed])

/-- **The frames of messages carry these messages.** -/
theorem carries_flatMap_ofMessage {messages : List Message} (h : ∀ m ∈ messages, m.Sendable) :
    Carries (messages.flatMap ofMessage) (messages.map Message.relayed) := by
  have hparse : ∀ m ∈ messages, Message.parse m.toJson.text = .ok m.relayed := by
    intro m hm
    have hrender := Message.parse_render_relayed (h m hm)
    rwa [Message.render, Json.render, String.toList_ofList] at hrender
  have hbytes : messages.flatMap ofMessage
      = (messages.map fun m => m.toJson.text).flatMap ofText := by
    rw [List.flatMap_map]
    rfl
  refine ⟨messages.map fun m => m.toJson.text, hbytes, ?_, fun hshort => ?_⟩
  · rw [List.forall₂_map_left_iff, List.forall₂_map_right_iff]
    exact List.forall₂_same.mpr hparse
  · rw [hbytes, readAll_flatMap_ofText _ hshort, List.map_map, List.map_map]
    congr 1
    refine List.map_congr_left fun m hm => ?_
    simp only [Function.comp_apply, received, hparse m hm]

end Frame

namespace Server

/-! ### What the server writes in a turn

A session with nothing left to send queues only what the turn makes it say.  The reply to a frame
that cannot be read goes past the session; it has no id, and nothing in it is null but that.
-/

theorem malformedReply_sendable (e : FrameError) : (malformedReply e).Sendable := by
  refine ⟨fun _ => (nomatch ·), fun _ => (nomatch ·), fun error herror => ?_⟩
  obtain rfl := Option.some.inj herror
  exact ⟨ErrorCode.parseError.number_fits, fun _ => (nomatch ·)⟩

/-- The reply to a frame that cannot be read is read as it is. -/
theorem relayed_malformedReply (e : FrameError) : (malformedReply e).relayed = malformedReply e :=
  rfl

/-- **The frames of such replies carry the replies.** -/
theorem carries_malformedReplies (errors : List FrameError) :
    Frame.Carries ((errors.map malformedReply).flatMap Frame.ofMessage)
      (errors.map malformedReply) := by
  have hsendable : ∀ m ∈ errors.map malformedReply, m.Sendable := by
    intro m hm
    obtain ⟨e, -, rfl⟩ := List.mem_map.mp hm
    exact malformedReply_sendable e
  have hcarries := Frame.carries_flatMap_ofMessage hsendable
  rwa [List.map_map, show Message.relayed ∘ malformedReply = malformedReply from
    funext relayed_malformedReply] at hcarries

theorem answer_sendable {s : Session} (hquiet : s.outbox.queue = []) {received : Received}
    (hid : ∀ q, received = .message (.request q) → q.id.Fits) :
    ∀ m ∈ answer s received, m.Sendable := by
  have hready : s.outbox.Ready := by
    rw [Outbox.Ready, hquiet]
    exact List.forall_mem_nil _
  cases received with
  | message m => exact Session.handle_ready hready fun q hq => hid q (congrArg _ hq)
  | malformed e =>
      intro m hm
      rw [List.mem_singleton.mp hm]
      exact malformedReply_sendable e
  | ended how => exact hready

theorem Head.turn_sendable {h : Head} (hquiet : h.session.outbox.queue = []) :
    ∀ m ∈ h.turn.written, m.Sendable :=
  answer_sendable hquiet fun _ => Frame.id_fits_of_read

/-! ### Turns as they are seen from outside -/

/-- The turn with its messages as they are read from the bytes that are written for them. -/
def Turn.seen (t : Turn) : Turn :=
  { t with written := t.written.map Message.relayed }

theorem written_seen (turns : List Turn) :
    (turns.map Turn.seen).flatMap Turn.written
      = (turns.flatMap Turn.written).map Message.relayed := by
  rw [List.flatMap_map, List.map_flatMap]
  rfl

theorem received_seen (turns : List Turn) :
    (turns.map Turn.seen).map Turn.received = turns.map Turn.received := by
  rw [List.map_map]
  rfl

/-- The bytes that are written in turns whose messages can be sent carry what is seen of them. -/
theorem carries_turns {turns : List Turn} (h : ∀ t ∈ turns, ∀ m ∈ t.written, m.Sendable) :
    Frame.Carries ((turns.flatMap Turn.written).flatMap Frame.ofMessage)
      ((turns.map Turn.seen).flatMap Turn.written) := by
  rw [written_seen]
  refine Frame.carries_flatMap_ofMessage fun m hm => ?_
  obtain ⟨t, ht, hm⟩ := List.mem_flatMap.mp hm
  exact h t ht m hm

end Server

/-- A message is read as one of its kind. -/
theorem Message.response?_relayed (m : Message) :
    m.relayed.response? = m.response?.map Response.relayed := by
  cases m <;> rfl

theorem Message.isShown_relayed (m : Message) : m.relayed.isShown = m.isShown := by
  cases m <;> rfl

theorem Message.shown_relayed (messages : List Message) :
    (messages.map relayed).filter isShown = (messages.filter isShown).map relayed := by
  rw [List.filter_map, show isShown ∘ relayed = isShown from funext isShown_relayed]

end VServer
