/-
Reading a message settles it.

A message can come in many forms: with its fields in any order or repeated, with fields that mean
nothing, with null for what could be left out, with characters escaped that need not be.  Once it
has been read, all of that is gone, and the text that is written for it is read as the same message
(`parse_render`).  Its kind is told again by the fields that are there: an answer is written with
its id even where the id is null, and never with a method.

The same holds of everything that messages carry.

The condition is that the numbers of the text are integers of 64 bits, which is what the protocol
uses.  The fields of a message can hold any value, and a value of that kind returns as it is.  So a
message needs its shape, like every other record, and one thing more: the kind has to be found
again, which is decided by the fields that are there and not by what they hold.
-/
import VServer.Proofs.Protocol.Payload

namespace VServer

open Json (Decoder RecordField Shape Steady Returns)
open Json.RecordField (sound_always sound_whenSome)

/-! ### Messages and what is written for them -/

theorem RequestId.steady (depth : Nat) : Steady depth decode toJson where
  returns := by
    intro v a hplain _ h
    cases hplain with
    | null => cases h
    | bool => cases h
    | array => cases h
    | object => cases h
    | string =>
        obtain rfl := Except.ok.inj h
        exact ⟨.string, by rw [toJson, Json.sorted_string]; rfl⟩
    | @integer _ i hfits =>
        rw [decode] at h
        split at h
        · rename_i hpos
          obtain rfl := Except.ok.inj h
          obtain ⟨-, hhigh⟩ := hfits
          refine ⟨.integer ⟨by omega, by omega⟩, ?_⟩
          rw [toJson, Json.ofNat, Json.sorted_number, decode, if_pos (by omega), Int.toNat_natCast]
        · cases h
  null := by
    intro v a _ h
    cases a with
    | number n => cases h
    | text s => cases h

namespace Request

/-- The fields of a request. -/
def shape : Shape Request where
  name := "Request"
  start := ⟨"", .number 0, "", none⟩
  fields :=
    [.always "jsonrpc" .required Decoder.string .string version fun r s => { r with version := s },
      .always "id" .required RequestId.decode RequestId.toJson id fun r i => { r with id := i },
      .always "method" .required Decoder.string .string method fun r s => { r with method := s },
      .whenSome "params" .optional Decoder.any (fun v => v) params fun r p =>
        { r with params := p }]

theorem toJson_eq : toJson = shape.encode := by
  funext r
  simp [toJson, shape, Shape.encode, Shape.entries]

theorem steady (depth : Nat) : Steady depth decode toJson := by
  rw [toJson_eq]
  refine shape.steady (fun depth => ?_) depth
  have hzero : Returns depth RequestId.decode RequestId.toJson (.number 0) :=
    (RequestId.steady depth).returns (.ofNat 0) (.number 0) (.integer ⟨by decide, by decide⟩)
      (Json.sorted_number _) rfl
  simp only [shape, List.forall_mem_cons]
  exact ⟨sound_always (Json.steady_text depth _) (Json.returns_text depth _ _),
    sound_always (RequestId.steady depth) hzero,
    sound_always (Json.steady_text depth _) (Json.returns_text depth _ _),
    sound_whenSome (Json.steady_any depth) rfl,
    List.forall_mem_nil _⟩

end Request

namespace Response

/-- The fields of a response. -/
def shape : Shape Response where
  name := "Response"
  start := ⟨"", none, none, none⟩
  fields :=
    [.always "jsonrpc" .required Decoder.string .string version fun r s => { r with version := s },
      .always "id" .optional (Decoder.option RequestId.decode) (.ofOption RequestId.toJson) id
        fun r i => { r with id := i },
      .whenSome "result" .defaulted Decoder.any (fun v => v) result fun r v =>
        { r with result := v },
      .whenSome "error" .optional ResponseError.decode ResponseError.toJson error fun r e =>
        { r with error := e }]

theorem toJson_eq : toJson = shape.encode := by
  funext r
  simp [toJson, shape, Shape.encode, Shape.entries]

theorem steady (depth : Nat) : Steady depth decode toJson := by
  rw [toJson_eq]
  refine shape.steady (fun depth => ?_) depth
  simp only [shape, List.forall_mem_cons]
  exact ⟨sound_always (Json.steady_text depth _) (Json.returns_text depth _ _),
    sound_always (RequestId.steady depth).option (Json.returns_none ..),
    sound_whenSome (Json.steady_any depth) rfl,
    sound_whenSome (ResponseError.steady depth) rfl,
    List.forall_mem_nil _⟩

end Response

namespace Notification

/-- The fields of a notification. -/
def shape : Shape Notification where
  name := "Notification"
  start := ⟨"", "", none⟩
  fields :=
    [.always "jsonrpc" .required Decoder.string .string version fun n s => { n with version := s },
      .always "method" .required Decoder.string .string method fun n s => { n with method := s },
      .whenSome "params" .optional Decoder.any (fun v => v) params fun n p =>
        { n with params := p }]

theorem toJson_eq : toJson = shape.encode := by
  funext n
  simp [toJson, shape, Shape.encode, Shape.entries]

theorem steady (depth : Nat) : Steady depth decode toJson := by
  rw [toJson_eq]
  refine shape.steady (fun depth => ?_) depth
  simp only [shape, List.forall_mem_cons]
  exact ⟨sound_always (Json.steady_text depth _) (Json.returns_text depth _ _),
    sound_always (Json.steady_text depth _) (Json.returns_text depth _ _),
    sound_whenSome (Json.steady_any depth) rfl,
    List.forall_mem_nil _⟩

end Notification

/-! ### The kind of a message

A message with a method is a request or a notification, by whether it has an id, and one without a
method is a response.  The writer always writes the id of a request and of a response, and never
writes a method for a response, so the kind is the same when it is read again.
-/

/-- Putting fields in order does not change which fields there are. -/
theorem Json.hasField_sorted (v : Json) (name : String) :
    v.sorted.hasField name = v.hasField name := by
  cases v with
  | object fields =>
      rw [sorted_object, hasField, hasField, field?, field?, lookup_sortedFields,
        Option.isSome_map]
  | null => rw [sorted_null]
  | bool b => rw [sorted_bool]
  | number n => rw [sorted_number]
  | string s => rw [sorted_string]
  | array items => rw [sorted_array]; rfl

namespace Message

/-- A message is written with the fields that tell its kind, and so it is read as what it is. -/
theorem ofJson_toJson (m : Message) :
    ofJson m.toJson.sorted =
      (match m with
        | request r => (Request.decode r.toJson.sorted).map request
        | response r => (Response.decode r.toJson.sorted).map response
        | notification n => (Notification.decode n.toJson.sorted).map notification).mapError
      .undecodable := by
  rw [ofJson, Json.hasField_sorted, Json.hasField_sorted]
  cases m with
  | request r => rfl
  | notification n =>
      rcases n with ⟨version, method, _ | params⟩
      · rfl
      · rfl
  | response r =>
      rcases r with ⟨version, id, _ | result, _ | error⟩
      · rfl
      · rfl
      · rfl
      · rfl

theorem exists_of_decoded {α : Type} {x : Except Json.DecodeError α} {f : α → Message}
    {m : Message} (h : (x.map f).mapError MessageError.undecodable = .ok m) :
    ∃ a, x = .ok a ∧ f a = m := by
  cases x with
  | error e => cases h
  | ok a => exact ⟨a, rfl, Except.ok.inj h⟩

/-- What is read from a plain value returns as the message that it is. -/
theorem returns_of_ofJson {depth : Nat} {v : Json} {m : Message} (hplain : v.Plain depth)
    (hsorted : v.sorted = v) (h : ofJson v = .ok m) :
    m.toJson.Plain depth ∧ ofJson m.toJson.sorted = .ok m := by
  rw [ofJson_toJson]
  unfold ofJson at h
  split at h
  · obtain ⟨r, hr, rfl⟩ := exists_of_decoded h
    obtain ⟨hwritten, hread⟩ := (Request.steady depth).returns v r hplain hsorted hr
    exact ⟨hwritten, by simp only [hread]; rfl⟩
  · obtain ⟨r, hr, rfl⟩ := exists_of_decoded h
    obtain ⟨hwritten, hread⟩ := (Response.steady depth).returns v r hplain hsorted hr
    exact ⟨hwritten, by simp only [hread]; rfl⟩
  · obtain ⟨n, hn, rfl⟩ := exists_of_decoded h
    obtain ⟨hwritten, hread⟩ := (Notification.steady depth).returns v n hplain hsorted hn
    exact ⟨hwritten, by simp only [hread]; rfl⟩
  · cases h

/-- **The text of a message that was read is read as that message.** -/
theorem parse_render {text : List Char} {m : Message} (htext : Json.PlainText text)
    (h : parse text = .ok m) : parse m.render.toList = .ok m := by
  rw [parse] at h
  split at h
  · cases h
  · rename_i v hread
    obtain ⟨hplain, hsorted⟩ := Json.plain_of_read hread htext
    obtain ⟨hwritten, hagain⟩ := returns_of_ofJson hplain hsorted h
    rw [render, Json.render, String.toList_ofList, parse, Json.read_plain hwritten]
    exact hagain

end Message

/-! ### Everything that messages carry -/

/-- What was read from a plain value, with its fields in order, is read again from the value that is
written for it, and from the text of that value if the first one was no deeper than a text can
be. -/
def Settles {α : Type} (decode : Decoder α) (encode : α → Json) : Prop :=
  ∀ (depth : Nat) (v : Json) (x : α), v.Plain depth → v.sorted = v → decode v = .ok x →
    decode (encode x).sorted = .ok x ∧
    (depth ≤ Json.depthLimit → Json.read (encode x).text = .ok (encode x).sorted)

/-- A decoder that is steady below two pairs of brackets settles: more room for brackets makes no
value less plain. -/
theorem settles_of_steady {α : Type} {decode : Decoder α} {encode : α → Json}
    (h : ∀ depth, Steady (depth + 2) decode encode) : Settles decode encode := by
  intro depth v x hplain hsorted hx
  refine ⟨?_, fun hdepth => ?_⟩
  · have hwider := hplain.mono (Nat.le_add_right depth 2)
    exact ((h depth).returns v x hwider hsorted hx).read
  · have hlimit : Json.depthLimit = 125 + 2 := rfl
    have hwider := hplain.mono hdepth
    rw [hlimit] at hwider
    exact Json.read_plain ((h 125).returns v x hwider hsorted hx).plain

/-- **Reading settles every message, and everything that messages carry.**  A text whose numbers are
integers of 64 bits and that is read as a message is written anew as a text that is read as the same
message. -/
theorem reading_settles :
    (∀ (text : List Char) (m : Message), Json.PlainText text → Message.parse text = .ok m →
      Message.parse m.render.toList = .ok m) ∧
    Settles InitializeParams.decode InitializeParams.toJson ∧
    Settles SetTraceParams.decode SetTraceParams.toJson ∧
    Settles ClientInfo.decode ClientInfo.toJson ∧
    Settles ServerCapabilities.decode ServerCapabilities.toJson ∧
    Settles InitializeResult.decode InitializeResult.toJson ∧
    Settles MessageParams.decode MessageParams.toJson ∧
    Settles ResponseError.decode ResponseError.toJson ∧
    Settles FeatureSet.decode FeatureSet.toJson ∧
    Settles Settings.decode Settings.toJson :=
  ⟨fun _ _ htext h => Message.parse_render htext h,
    settles_of_steady fun depth => InitializeParams.steady (depth + 2),
    settles_of_steady fun depth => SetTraceParams.steady (depth + 2),
    settles_of_steady fun depth => ClientInfo.steady (depth + 2),
    settles_of_steady fun depth => ServerCapabilities.steady (depth + 2),
    settles_of_steady InitializeResult.steady,
    settles_of_steady fun depth => MessageParams.steady (depth + 2),
    settles_of_steady fun depth => ResponseError.steady (depth + 2),
    settles_of_steady fun depth => FeatureSet.steady (depth + 2),
    settles_of_steady Settings.steady⟩

/-- An answer with its result twice, a field that means nothing, and an escaped letter. -/
def strangeAnswer : String :=
  "\x7b\"result\":1, \"id\":null, \"x\":0, \"jsonrpc\":\"2.0\", " ++
    "\"result\":\x7b\"b\":[7,-2], \"a\":\"\\u0041\"\x7d\x7d"

/-- The text that is written for the answer. -/
def plainAnswer : String :=
  "\x7b\"jsonrpc\":\"2.0\",\"id\":null,\"result\":\x7b\"a\":\"A\",\"b\":[7,-2]\x7d\x7d"

theorem reading_settles_strangeAnswer :
    Json.PlainText strangeAnswer.toList ∧
    (∃ m, Message.parse strangeAnswer.toList = .ok m ∧ m.render = plainAnswer ∧
      Message.parse plainAnswer.toList = .ok m) ∧
    ClientInfo.decode (.array [.string "vim", .null]) = .ok ⟨"vim", none⟩ ∧
    ClientInfo.decode (ClientInfo.toJson ⟨"vim", none⟩).sorted = .ok ⟨"vim", none⟩ := by
  obtain ⟨hmessages, -, -, hclients, -⟩ := reading_settles
  have hplain : Json.PlainText strangeAnswer.toList := by decide +kernel
  have hwritten : (Message.parse strangeAnswer.toList).toOption.map Message.render
      = some plainAnswer := by decide +kernel
  have hvalue : Json.Plain 1 (.array [.string "vim", .null]) := .array fun v hv => by
    rcases List.mem_pair.mp hv with rfl | rfl
    · exact .string
    · exact .null
  have hclient : ClientInfo.decode (.array [.string "vim", .null]) = .ok ⟨"vim", none⟩ := rfl
  refine ⟨hplain, ?_, hclient, (hclients 1 _ _ hvalue (by simp) hclient).1⟩
  cases hparse : Message.parse strangeAnswer.toList with
  | error e =>
      rw [hparse] at hwritten
      cases hwritten
  | ok m =>
      rw [hparse] at hwritten
      have hrender : m.render = plainAnswer := Option.some.inj hwritten
      have hagain := hmessages _ m hplain hparse
      rw [hrender] at hagain
      exact ⟨m, rfl, hrender, hagain⟩

end VServer
