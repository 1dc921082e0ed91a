/-
What is left of a message that is passed on.

A message that the server queues is written as a text.  Whoever reads the text and writes it again
has passed it on, and it should be the same text.  It is, with one exception: a field that can be
left out is read as left out if it is null, and then it is not written again.  So of an answer whose
result is null the result is lost, and so are the data of an error and the parameters of a
notification.

`relayed` is a message without these fields.  Any message whose values are plain is read as what
`relayed` makes of it (`parse_render_relayed`), and its text stays the same if and only if
that is the message itself.

The shapes that settle what is read are used here in the other direction.  A message that was not
read may hold null in a field that can be left out, which no message does that was read.  So each
field is followed by itself (`Json.RecordField.arrives_any`), and the record arrives with what its
fields arrive with.
-/
import VServer.Proofs.Protocol.Wire
import VServer.Protocol.Outbox

namespace VServer

open Json (Decoder RecordField Shape Plain)

namespace Json

/-- A plain value with its fields in order. -/
structure Orderly (depth : Nat) (v : Json) : Prop where
  plain : Plain depth v
  sorted : v.sorted = v

/-- An optional value as it is read: null is read as none. -/
def nonNull : Option Json → Option Json
  | some .null => none
  | o => o

theorem nonNull_some {v : Json} (h : v ≠ .null) : nonNull (some v) = some v := by
  cases v with
  | null => exact absurd rfl h
  | bool b => rfl
  | number n => rfl
  | string s => rfl
  | array items => rfl
  | object fields => rfl

theorem option_any (v : Json) : Decoder.option Decoder.any v = .ok (nonNull (some v)) := by
  cases v <;> rfl

theorem nonNull_eq_self {o : Option Json} (h : o ≠ some .null) : nonNull o = o := by
  cases o with
  | none => rfl
  | some v => exact nonNull_some fun hv => h (congrArg some hv)

theorem orderly_of_mem_nonNull {depth : Nat} {o : Option Json} (h : ∀ v ∈ o, Orderly depth v) :
    ∀ v ∈ nonNull o, Orderly depth v := by
  by_cases hnull : o = some .null
  · rw [hnull]
    exact fun _ hv => nomatch hv
  · rw [nonNull_eq_self hnull]
    exact h

theorem ne_null_of_nonNull {o : Option Json} (h : (nonNull o).map sorted = o.map sorted) :
    o ≠ some .null := by
  rintro rfl
  exact nomatch h

/-- The fields of a value are there, with their own fields in order, when it is put in order. -/
theorem field?_sorted (v : Json) (name : String) :
    v.sorted.field? name = (v.field? name).map sorted := by
  cases v with
  | object fields => rw [sorted_object, field?, field?, lookup_sortedFields]
  | null => rw [sorted_null]; rfl
  | bool b => rw [sorted_bool]; rfl
  | number n => rw [sorted_number]; rfl
  | string s => rw [sorted_string]; rfl
  | array items => rw [sorted_array]; rfl

/-- Plain values with the same text are the same but for the order of their fields. -/
theorem sorted_eq_of_render {v w : Json} (hv : Plain depthLimit v) (hw : Plain depthLimit w)
    (h : v.render = w.render) : v.sorted = w.sorted := by
  have htext : v.text = w.text := String.ofList_injective h
  have hread := read_plain hv
  rw [htext, read_plain hw] at hread
  exact (Except.ok.inj hread).symm

end Json

open Json (Orderly nonNull)

/-! ### What can be written

The bounds are those of the numbers on the wire; a number of an id has 64 bits and a code has 32.
-/

/-- The number of an id is one of 64 bits. -/
def RequestId.Fits : RequestId → Prop
  | .number n => n ≤ 18446744073709551615
  | .text _ => True

theorem RequestId.Fits.returns {id : RequestId} (h : id.Fits) (depth : Nat) :
    Json.Returns depth RequestId.decode RequestId.toJson id := by
  cases id with
  | text s =>
      refine ⟨.string, ?_⟩
      rw [toJson, Json.sorted_string]
      rfl
  | number n =>
      have hn : n ≤ 18446744073709551615 := h
      refine ⟨.integer ⟨by omega, by omega⟩, ?_⟩
      rw [toJson, Json.ofNat, Json.sorted_number, decode, if_pos (by omega), Int.toNat_natCast]

theorem RequestId.toJson_ne_null (id : RequestId) : id.toJson ≠ .null := by
  cases id <;> exact (nomatch ·)

/-- A field that is any value or left out arrives as what it holds unless that is null. -/
theorem Json.RecordField.arrives_any {σ : Type} {depth : Nat} {key : String}
    {presence : Decoder.Presence} {get : σ → Option Json} {set : σ → Option Json → σ} {start : σ}
    {o : Option Json} (hstart : get start = none) (ho : ∀ v ∈ o, Orderly depth v) :
    (whenSome key presence Decoder.any (fun v => v) get set).Arrives depth start o (nonNull o) := by
  refine ⟨fun w hw => ?_, fun hnone => ?_⟩
  · obtain ⟨v, rfl, rfl⟩ := Option.map_eq_some_iff.mp hw
    obtain ⟨hplain, hsorted⟩ := ho v rfl
    exact ⟨hplain, by rw [hsorted]; exact Json.option_any v⟩
  · obtain rfl : o = none := Option.map_eq_none_iff.mp hnone
    exact hstart.symm

open Json.RecordField (arrives_always arrives_whenSome arrives_any)

namespace ResponseError

/-- An error whose code has 32 bits and whose data are plain. -/
structure Sendable (depth : Nat) (e : ResponseError) : Prop where
  code : -2147483648 ≤ e.code ∧ e.code ≤ 2147483647
  data : ∀ v ∈ e.data, Orderly depth v

/-- The error without data that are null. -/
def relayed (e : ResponseError) : ResponseError :=
  { e with data := nonNull e.data }

theorem Sendable.arrives {depth : Nat} {e : ResponseError} (h : e.Sendable depth) :
    Plain (depth + 1) e.toJson ∧ decode e.toJson.sorted = .ok e.relayed := by
  have hcode : Json.Returns depth Decoder.int32 Json.ofInt e.code := by
    obtain ⟨hlow, hhigh⟩ := h.code
    refine ⟨.integer ⟨by omega, by omega⟩, ?_⟩
    rw [Json.ofInt, Json.sorted_number]
    exact Json.integer_of_bounds ⟨hlow, hhigh⟩
  rw [toJson_eq]
  refine Shape.decoder_of_fieldsArrive (s := shape) ?_
  simp only [Shape.FieldsArrive, shape, List.forall_mem_cons]
  exact ⟨arrives_always hcode, arrives_always (Json.returns_text depth _ _),
    arrives_any rfl h.data, List.forall_mem_nil _⟩

theorem Sendable.relayed {depth : Nat} {e : ResponseError} (h : e.Sendable depth) :
    e.relayed.Sendable depth :=
  ⟨h.code, Json.orderly_of_mem_nonNull h.data⟩

theorem toJson_ne_null (e : ResponseError) : e.toJson ≠ .null :=
  (nomatch ·)

theorem relayed_eq_self {e : ResponseError} (h : e.data ≠ some .null) : e.relayed = e := by
  rw [ResponseError.relayed, Json.nonNull_eq_self h]

/-- The data of an error in order are a field of it. -/
theorem field?_data (e : ResponseError) :
    e.toJson.sorted.field? "data" = e.data.map Json.sorted := by
  rw [Json.field?_sorted]
  rcases e with ⟨code, message, _ | data⟩
  · rfl
  · rfl

end ResponseError

namespace Request

/-- A request with an id of 64 bits and parameters that are plain. -/
structure Sendable (depth : Nat) (r : Request) : Prop where
  id : r.id.Fits
  params : ∀ v ∈ r.params, Orderly depth v

/-- The request without parameters that are null. -/
def relayed (r : Request) : Request :=
  { r with params := nonNull r.params }

theorem Sendable.arrives {depth : Nat} {r : Request} (h : r.Sendable depth) :
    Plain (depth + 1) r.toJson ∧ decode r.toJson.sorted = .ok r.relayed := by
  rw [toJson_eq]
  refine Shape.decoder_of_fieldsArrive (s := shape) ?_
  simp only [Shape.FieldsArrive, shape, List.forall_mem_cons]
  exact ⟨arrives_always (Json.returns_text depth _ _), arrives_always (h.id.returns depth),
    arrives_always (Json.returns_text depth _ _), arrives_any rfl h.params, List.forall_mem_nil _⟩

theorem Sendable.relayed {depth : Nat} {r : Request} (h : r.Sendable depth) :
    r.relayed.Sendable depth :=
  ⟨h.id, Json.orderly_of_mem_nonNull h.params⟩

end Request

namespace Notification

/-- A notification with parameters that are plain. -/
structure Sendable (depth : Nat) (n : Notification) : Prop where
  params : ∀ v ∈ n.params, Orderly depth v

/-- The notification without parameters that are null. -/
def relayed (n : Notification) : Notification :=
  { n with params := nonNull n.params }

theorem Sendable.arrives {depth : Nat} {n : Notification} (h : n.Sendable depth) :
    Plain (depth + 1) n.toJson ∧ decode n.toJson.sorted = .ok n.relayed := by
  rw [toJson_eq]
  refine Shape.decoder_of_fieldsArrive (s := shape) ?_
  simp only [Shape.FieldsArrive, shape, List.forall_mem_cons]
  exact ⟨arrives_always (Json.returns_text depth _ _), arrives_always (Json.returns_text depth _ _),
    arrives_any rfl h.params, List.forall_mem_nil _⟩

theorem Sendable.relayed {depth : Nat} {n : Notification} (h : n.Sendable depth) :
    n.relayed.Sendable depth :=
  ⟨Json.orderly_of_mem_nonNull h.params⟩

end Notification

namespace Response

/-- A response whose id has 64 bits, with a result and an error that are plain. -/
structure Sendable (depth : Nat) (r : Response) : Prop where
  id : ∀ i ∈ r.id, i.Fits
  result : ∀ v ∈ r.result, Orderly (depth + 1) v
  error : ∀ e ∈ r.error, e.Sendable depth

/-- The response without a result and without data of its error that are null. -/
def relayed (r : Response) : Response :=
  { r with result := nonNull r.result, error := r.error.map ResponseError.relayed }

theorem Sendable.arrives {depth : Nat} {r : Response} (h : r.Sendable depth) :
    Plain (depth + 2) r.toJson ∧ decode r.toJson.sorted = .ok r.relayed := by
  have hid : Json.Returns (depth + 1) (Decoder.option RequestId.decode)
      (.ofOption RequestId.toJson) r.id := by
    rcases hr : r.id with _ | i
    · exact Json.returns_none ..
    · exact ((h.id i hr).returns _).some i.toJson_ne_null
  rw [toJson_eq]
  refine Shape.decoder_of_fieldsArrive (s := shape) ?_
  simp only [Shape.FieldsArrive, shape, List.forall_mem_cons]
  exact ⟨arrives_always (Json.returns_text _ _ _), arrives_always hid, arrives_any rfl h.result,
    arrives_whenSome rfl ResponseError.toJson_ne_null fun e he => (h.error e he).arrives,
    List.forall_mem_nil _⟩

theorem Sendable.relayed {depth : Nat} {r : Response} (h : r.Sendable depth) :
    r.relayed.Sendable depth where
  id := h.id
  result := Json.orderly_of_mem_nonNull h.result
  error := by
    intro e he
    obtain ⟨e, hr, rfl⟩ := Option.map_eq_some_iff.mp he
    exact (h.error e hr).relayed

end Response

namespace Message

/-! ### Passing a message on

The message that was queued is compared with the one that is read.  Where nothing is null the two
are the same, and so are their texts.  For the converse, a plain value is determined by its text
but for the order of its fields, so the same text means the same fields, and a field that is null
would be found in one and not in the other.
-/

/-- A message that can be read again: its values are plain, its numbers have the size that they have
on the wire, and it is nested no deeper than a text can be. -/
def Sendable : Message → Prop
  | request r => r.Sendable 126
  | response r => r.Sendable 125
  | notification n => n.Sendable 126

/-- The message as it is read. -/
def relayed : Message → Message
  | request r => .request r.relayed
  | response r => .response r.relayed
  | notification n => .notification n.relayed

/-- A field of the message that can be left out is there and is null. -/
def HoldsNull : Message → Prop
  | request r => r.params = some .null
  | response r => r.result = some .null ∨ ∃ e ∈ r.error, e.data = some .null
  | notification n => n.params = some .null

theorem Sendable.relayed {m : Message} (h : m.Sendable) : m.relayed.Sendable := by
  cases m with
  | request r => exact Request.Sendable.relayed h
  | response r => exact Response.Sendable.relayed h
  | notification n => exact Notification.Sendable.relayed h

theorem Sendable.arrives {m : Message} (h : m.Sendable) :
    Plain Json.depthLimit m.toJson ∧ ofJson m.toJson.sorted = .ok m.relayed := by
  rw [ofJson_toJson]
  cases m with
  | request r =>
      obtain ⟨hplain, hread⟩ := Request.Sendable.arrives h
      exact ⟨hplain, by simp only [hread]; rfl⟩
  | response r =>
      obtain ⟨hplain, hread⟩ := Response.Sendable.arrives h
      exact ⟨hplain, by simp only [hread]; rfl⟩
  | notification n =>
      obtain ⟨hplain, hread⟩ := Notification.Sendable.arrives h
      exact ⟨hplain, by simp only [hread]; rfl⟩

theorem parse_render_relayed {m : Message} (h : m.Sendable) :
    parse m.render.toList = .ok m.relayed := by
  obtain ⟨hplain, hread⟩ := h.arrives
  rw [render, Json.render, String.toList_ofList, parse, Json.read_plain hplain]
  exact hread

theorem relayed_eq_self {m : Message} (h : ¬ m.HoldsNull) : m.relayed = m := by
  cases m with
  | request r => rw [relayed, Request.relayed, Json.nonNull_eq_self h]
  | notification n => rw [relayed, Notification.relayed, Json.nonNull_eq_self h]
  | response r =>
      obtain ⟨hresult, hdata⟩ := not_or.mp h
      have herror : r.error.map ResponseError.relayed = r.error := by
        rcases hr : r.error with _ | e
        · rfl
        · have hne : e.data ≠ some .null := fun he => hdata ⟨e, hr, he⟩
          rw [Option.map_some, ResponseError.relayed_eq_self hne]
      rw [relayed, Response.relayed, Json.nonNull_eq_self hresult, herror]

/-! The fields that can be left out are fields of what is written for the message. -/

theorem field?_params_request (r : Request) :
    (request r).toJson.sorted.field? "params" = r.params.map Json.sorted := by
  rw [Json.field?_sorted]
  rcases r with ⟨version, id, method, _ | params⟩
  · rfl
  · rfl

theorem field?_params_notification (n : Notification) :
    (notification n).toJson.sorted.field? "params" = n.params.map Json.sorted := by
  rw [Json.field?_sorted]
  rcases n with ⟨version, method, _ | params⟩
  · rfl
  · rfl

theorem field?_result (r : Response) :
    (response r).toJson.sorted.field? "result" = r.result.map Json.sorted := by
  rw [Json.field?_sorted]
  rcases r with ⟨version, id, _ | result, _ | error⟩
  · rfl
  · rfl
  · rfl
  · rfl

theorem field?_error (r : Response) :
    (response r).toJson.sorted.field? "error" = r.error.map fun e => e.toJson.sorted := by
  rw [Json.field?_sorted]
  rcases r with ⟨version, id, _ | result, _ | error⟩
  · rfl
  · rfl
  · rfl
  · rfl

/-- Where the fields that can be left out are those of the message as it is read, none is null. -/
theorem not_holdsNull_of_sorted {m : Message} (h : m.relayed.toJson.sorted = m.toJson.sorted) :
    ¬ m.HoldsNull := by
  cases m with
  | request r =>
      have hparams := congrArg (·.field? "params") h
      simp only [relayed, field?_params_request] at hparams
      exact Json.ne_null_of_nonNull hparams
  | notification n =>
      have hparams := congrArg (·.field? "params") h
      simp only [relayed, field?_params_notification] at hparams
      exact Json.ne_null_of_nonNull hparams
  | response r =>
      have hresult := congrArg (·.field? "result") h
      simp only [relayed, field?_result] at hresult
      have herror := congrArg (·.field? "error") h
      simp only [relayed, field?_error] at herror
      rintro (hnull | ⟨e, he, hnull⟩)
      · exact Json.ne_null_of_nonNull hresult hnull
      · have hsame : e.relayed.toJson.sorted = e.toJson.sorted := by
          simpa [Response.relayed, Option.mem_def.mp he] using herror
        have hdata := congrArg (·.field? "data") hsame
        simp only [ResponseError.field?_data] at hdata
        exact Json.ne_null_of_nonNull hdata hnull

/-- **A message that is passed on has the same text if and only if none of the fields that can be
left out is null.** -/
theorem render_relayed_eq_iff {m : Message} (h : m.Sendable) :
    m.relayed.render = m.render ↔ ¬ m.HoldsNull := by
  refine ⟨fun hrender => ?_, fun hnull => by rw [relayed_eq_self hnull]⟩
  exact not_holdsNull_of_sorted
    (Json.sorted_eq_of_render h.relayed.arrives.1 h.arrives.1 hrender)

end Message

/-! ### What the server says

There are five ways to queue something.  Each of them makes one message, which can be sent if what
is said can, and which holds null if and only if what is said is null.
-/

theorem Json.plainFields_sortedFields {depth : Nat} {fields : List (String × Json)}
    (h : ∀ f ∈ fields, Orderly depth f.2.sorted) : PlainFields depth (sortedFields fields) := by
  induction fields with
  | nil => exact ⟨List.Pairwise.nil, fun _ hf => absurd hf List.not_mem_nil⟩
  | cons f fields ih =>
      obtain ⟨hfirst, hlater⟩ := List.forall_mem_cons.mp h
      exact (ih hlater).putEntry f.1 ⟨hfirst.plain, hfirst.sorted⟩

/-- A plain value that is put in order is plain. -/
theorem Json.Plain.orderly_sorted {depth : Nat} {v : Json} (h : Plain depth v) :
    Orderly depth v.sorted := by
  induction h with
  | null => exact ⟨by rw [sorted_null]; exact .null, by rw [sorted_null, sorted_null]⟩
  | bool => exact ⟨by rw [sorted_bool]; exact .bool, by rw [sorted_bool, sorted_bool]⟩
  | integer hfits =>
      exact ⟨by rw [sorted_number]; exact .integer hfits, by rw [sorted_number, sorted_number]⟩
  | string => exact ⟨by rw [sorted_string]; exact .string, by rw [sorted_string, sorted_string]⟩
  | @array depth items _ ih =>
      have hitems : PlainValues depth (items.map Json.sorted) := by
        intro w hw
        obtain ⟨v, hv, rfl⟩ := List.mem_map.mp hw
        exact ⟨(ih v hv).plain, (ih v hv).sorted⟩
      obtain ⟨hplain, hsorted⟩ := plain_array hitems
      rw [sorted_array]
      exact ⟨hplain, hsorted⟩
  | @object depth fields _ _ ih =>
      obtain ⟨hplain, hsorted⟩ := (plainFields_sortedFields ih).object
      rw [sorted_object]
      exact ⟨hplain, hsorted⟩

/-- The ways in which the server says something. -/
inductive Saying where
  | respond (id : RequestId) (result : Json)
  | respondError (id : Option RequestId) (error : ResponseError)
  | notify (method : String) (params : Json)
  | showMessage (severity : Severity) (message : String)
  | logMessage (severity : Severity) (message : String)

namespace Saying

/-- Queue what is said. -/
def queueIn (o : Outbox) : Saying → Outbox
  | respond id result => o.respond id result
  | respondError id error => o.respondError id error
  | notify method params => o.notify method params
  | showMessage severity message => o.showMessage severity message
  | logMessage severity message => o.logMessage severity message

/-- Ids and codes have the size that they have on the wire, results and data are plain and in order,
and parameters are plain. -/
def Sendable : Saying → Prop
  | respond id result => id.Fits ∧ Orderly 126 result
  | respondError id error => (∀ i ∈ id, i.Fits) ∧ error.Sendable 125
  | notify _ params => Plain 126 params
  | showMessage _ _ => True
  | logMessage _ _ => True

/-- What is said is null, or an error whose data are null. -/
def SaysNull : Saying → Prop
  | respond _ result => result = .null
  | respondError _ error => error.data = some .null
  | notify _ params => params = .null
  | showMessage _ _ => False
  | logMessage _ _ => False

/-- What is said is one message, which can be sent, and which holds null if what is said is null. -/
theorem queueIn_eq (o : Outbox) {s : Saying} (h : s.Sendable) :
    ∃ m : Message, (s.queueIn o).queue = o.queue ++ [m] ∧ m.Sendable ∧
      (m.HoldsNull ↔ s.SaysNull) := by
  -- a notification holds null only if its parameters are null, and objects are not
  have hnotify : ∀ (method : String) (params : Json), Plain 126 params →
      ∃ m : Message, (o.notify method params).queue = o.queue ++ [m] ∧ m.Sendable ∧
        (m.HoldsNull ↔ params = .null) := by
    intro method params hparams
    refine ⟨_, rfl, ⟨fun v hv => ?_⟩, ?_⟩
    · obtain rfl := Option.some.inj hv
      exact hparams.orderly_sorted
    · refine ⟨fun hnull => Json.eq_null_of_sorted (Option.some.inj hnull), ?_⟩
      rintro rfl
      exact congrArg some Json.sorted_null
  cases s with
  | respond id result =>
      refine ⟨_, rfl, ⟨fun i hi => ?_, fun v hv => ?_, fun _ => (nomatch ·)⟩, ?_⟩
      · obtain rfl := Option.some.inj hi
        exact h.1
      · obtain rfl := Option.some.inj hv
        exact h.2
      · simp [Message.HoldsNull, Response.success, SaysNull]
  | respondError id error =>
      refine ⟨_, rfl, ⟨h.1, fun _ => (nomatch ·), fun e he => ?_⟩, ?_⟩
      · obtain rfl := Option.some.inj he
        exact h.2
      · simp [Message.HoldsNull, Response.failure, SaysNull]
  | notify method params => exact hnotify method params h
  | showMessage severity message =>
      obtain ⟨m, hqueue, hsendable, hnull⟩ := hnotify _ _ (MessageParams.returns 125 _).plain
      exact ⟨m, hqueue, hsendable, hnull.trans ⟨(nomatch ·), False.elim⟩⟩
  | logMessage severity message =>
      obtain ⟨m, hqueue, hsendable, hnull⟩ := hnotify _ _ (MessageParams.returns 125 _).plain
      exact ⟨m, hqueue, hsendable, hnull.trans ⟨(nomatch ·), False.elim⟩⟩

/-- **Of what the server says, null is lost when it is passed on, and nothing else.**  Whatever is
said is queued as one message.  Its text is read as that message but for fields that can be left out
and are null, and the text is written again as it was if and only if there are none. -/
theorem passed_on_unless_null (o : Outbox) (s : Saying) (h : s.Sendable) :
    ∃ m : Message, (s.queueIn o).queue = o.queue ++ [m] ∧
      Message.parse m.render.toList = .ok m.relayed ∧
      (m.relayed.render = m.render ↔ ¬ s.SaysNull) := by
  obtain ⟨m, hqueue, hsendable, hnull⟩ := queueIn_eq o h
  refine ⟨m, hqueue, Message.parse_render_relayed hsendable, ?_⟩
  rw [Message.render_relayed_eq_iff hsendable, hnull]

/-- An error with data that are an empty object. -/
def refusal : ResponseError :=
  ⟨-32600, "Received \"shutdown\" twice", some (.object [])⟩

theorem passed_on_refusal :
    (respondError none refusal).Sendable ∧
    ∃ m : Message, ((respondError none refusal).queueIn {}).queue = [m] ∧
      Message.parse m.render.toList = .ok m.relayed ∧ m.relayed.render = m.render := by
  have hdata : Orderly 125 (.object []) :=
    ⟨.object List.nodup_nil fun _ hf => absurd hf List.not_mem_nil, Json.sorted_object []⟩
  have hsendable : (respondError none refusal).Sendable := by
    refine ⟨fun _ => (nomatch ·), by decide, fun v hv => ?_⟩
    obtain rfl := Option.some.inj hv
    exact hdata
  obtain ⟨m, hqueue, hparse, hrender⟩ := passed_on_unless_null {} _ hsendable
  exact ⟨hsendable, m, hqueue, hparse, hrender.mpr (nomatch ·)⟩

/-- An answer with null as its result is read as one without a result, and is not written as it
was. -/
theorem null_result_lost :
    ∃ m again : Message, ((respond (.number 2) .null).queueIn {}).queue = [m] ∧
      Message.parse m.render.toList = .ok again ∧
      m.render = "\x7b\"jsonrpc\":\"2.0\",\"id\":2,\"result\":null\x7d" ∧
      again.render = "\x7b\"jsonrpc\":\"2.0\",\"id\":2\x7d" := by
  have hsendable : (Message.response (.success (.number 2) .null)).Sendable := by
    refine ⟨fun i hi => ?_, fun v hv => ?_, fun _ => (nomatch ·)⟩
    · obtain rfl := Option.some.inj hi
      exact Nat.le_of_ble_eq_true rfl
    · obtain rfl := Option.some.inj hv
      exact ⟨.null, Json.sorted_null⟩
  exact ⟨_, _, rfl, Message.parse_render_relayed hsendable, by decide +kernel, by decide +kernel⟩

end Saying

end VServer
