/-
A stream of frames is read frame by frame.

A frame says how long its body is, so nothing in the body can be mistaken for the end of the frame
or for the start of the next one.  `Block` is a frame with any header lines beside the one that
tells the length, and with any bytes as its body.  A read takes one block off the stream and
leaves what stands behind it (`read_block`), so reading a stream of blocks gives one result for
each and then the end (`readAll_blocks`).

What the result of a block is, `Delivers` says without the reader: the message that the body is
the bytes of, and an error if it is the bytes of none.

The length is what is trusted.  Neither what the header lines say beside it nor what the body holds
decides where the next frame starts, so a body that is no text, or the text of no message, costs
one error and no more.  The writer is held to the same: the frame of a text is a block, and the
message that was written is the one that is read.
-/
import VServer.Proofs.Protocol.Frame
import VServer.Proofs.Text.Blank
import VServer.Proofs.Text.Digits
import VServer.Proofs.Text.Utf8
import Mathlib.Data.List.Forall2

namespace VServer.Frame

open Text (Bytes le_ofDigitChars isDigit_of_mem)

/-! ### Lengths in digits -/

/-- Digits are read as the number they write, as long as that number is not too large; the
numbers on the way to it are smaller. -/
theorem readDigits_ok (ds : List Char) :
    ∀ n, (∀ c ∈ ds, c.isDigit = true) → Nat.ofDigitChars 10 ds n ≤ largestLength →
      readDigits n ds = .ok (Nat.ofDigitChars 10 ds n) := by
  induction ds with
  | nil => intro n _ _; rfl
  | cons c ds ih =>
      intro n hdigits hle
      rw [Text.ofDigitChars_cons] at hle ⊢
      have hstep := Nat.le_trans (le_ofDigitChars ds _) hle
      rw [readDigits, if_pos (hdigits c List.mem_cons_self)]
      simp only [if_pos hstep]
      exact ih _ (fun d hd => hdigits d (List.mem_cons_of_mem c hd)) hle

theorem readLength_toDigits {n : Nat} (hn : n ≤ largestLength) :
    readLength (Nat.toDigits 10 n) = .ok n := by
  have hdigits : ∀ c ∈ Nat.toDigits 10 n, c.isDigit = true := fun _ => isDigit_of_mem
  have hvalue : Nat.ofDigitChars 10 (Nat.toDigits 10 n) 0 = n := Nat.ofDigitChars_ten_toDigits
  rcases hds : Nat.toDigits 10 n with _ | ⟨d, ds⟩
  · exact absurd hds Nat.toDigits_ne_nil
  · rw [hds] at hdigits hvalue
    have hplus : d ≠ '+' := by
      rintro rfl
      exact absurd (hdigits '+' List.mem_cons_self) (by decide)
    rw [readLength, if_neg hplus, readDigits_ok _ 0 hdigits (by omega), hvalue]

/-! ### Header lines

A line is decoded and trimmed, and then it is empty, or starts with the name of the length, or is
about something else.  Trimming takes the newline off together with the carriage return in front of
it, so lines with and without one are the same.
-/

/-- The bytes of a line with the newline that ends it. -/
def lineBytes (line : List Char) : Bytes :=
  Text.encode line ++ [10]

/-- Something stands on the line, and it is not the length. -/
def IsOther (line : List Char) : Prop :=
  Text.trim line ≠ [] ∧ ¬ lengthHeader <+: Text.trim line

/-- The line tells the length `n`, in digits. -/
def TellsLength (line : List Char) (n : Nat) : Prop :=
  ∃ value, Text.trim line = lengthHeader ++ value ∧ Text.trim value = Nat.toDigits 10 n

theorem lineBytes_eq (line : List Char) : lineBytes line = Text.encode (line ++ ['\n']) := by
  rw [Text.encode_append]
  rfl

/-- A line is cut off where it ends, since no byte in it is a newline. -/
theorem splitLine_lineBytes {line : List Char} (h : '\n' ∉ line) (rest : Bytes) :
    splitLine (lineBytes line ++ rest) = (lineBytes line, rest) := by
  have hsplit : ∀ bytes : Bytes, (10 : UInt8) ∉ bytes →
      splitLine (bytes ++ 10 :: rest) = (bytes ++ [10], rest) := by
    intro bytes hbytes
    induction bytes with
    | nil => rfl
    | cons b bs ih =>
        have hb : b ≠ 10 := fun hb => hbytes (hb ▸ List.mem_cons_self)
        have hbs : (10 : UInt8) ∉ bs := fun hmem => hbytes (List.mem_cons_of_mem b hmem)
        rw [List.cons_append, splitLine, if_neg hb, ih hbs]
        rfl
  have h := hsplit (Text.encode line) (Text.newline_notMem_encode h)
  rwa [List.append_cons] at h

theorem decode_lineBytes (line : List Char) :
    Text.decode (lineBytes line) = .ok (line ++ ['\n']) := by
  rw [lineBytes_eq, Text.decode_encode]

/-- The newline at the end of a line is trimmed with the blanks around it. -/
theorem trim_line (line : List Char) : Text.trim (line ++ ['\n']) = Text.trim line :=
  Text.trim_append_blank line rfl

theorem readHeader_empty {line : List Char} (h : Text.trim line = []) :
    readHeader (lineBytes line) = .ok .last := by
  simp [readHeader, decode_lineBytes, trim_line, h]

theorem readHeader_other {line : List Char} (h : IsOther line) :
    readHeader (lineBytes line) = .ok .other := by
  obtain ⟨hfilled, hother⟩ := h
  simp [readHeader, decode_lineBytes, trim_line, hfilled, after?, hother]

theorem readHeader_length {line : List Char} {n : Nat} (h : TellsLength line n)
    (hn : n ≤ largestLength) : readHeader (lineBytes line) = .ok (.length n) := by
  obtain ⟨value, hline, hvalue⟩ := h
  have hafter : after? lengthHeader (lengthHeader ++ value) = some value := by
    simp [after?]
  have hfilled : (lengthHeader ++ value).isEmpty = false := rfl
  simp [readHeader, decode_lineBytes, trim_line, hline, hafter, hvalue, hfilled,
    readLength_toDigits hn]

/-! ### The headers of a block

Each line leaves enough fuel for the bytes behind it, which is all that is said of the fuel.
-/

/-- What a line in front of the others comes to, by what it says. -/
theorem readHeadersIn_line {fuel : Nat} {line : List Char} {rest : Bytes} (hline : '\n' ∉ line)
    (hfuel : (lineBytes line ++ rest).length < fuel) :
    ∃ fuel', rest.length < fuel' ∧ ∀ told,
      (readHeader (lineBytes line) = .ok .other →
        readHeadersIn fuel told (lineBytes line ++ rest) = readHeadersIn fuel' told rest) ∧
      (∀ n, readHeader (lineBytes line) = .ok (.length n) →
        readHeadersIn fuel told (lineBytes line ++ rest) = readHeadersIn fuel' (some n) rest) ∧
      (∀ n, readHeader (lineBytes line) = .ok .last → acceptLength told = .ok n →
        readHeadersIn fuel told (lineBytes line ++ rest) = (.body n, rest)) := by
  cases fuel with
  | zero => omega
  | succ fuel =>
      refine ⟨fuel, ?_, fun told => ?_⟩
      · simp only [lineBytes, List.length_append, List.length_cons] at hfuel
        omega
      · have hsplit := splitLine_lineBytes hline rest
        rcases hbytes : lineBytes line ++ rest with _ | ⟨b, bs⟩
        · simp [lineBytes] at hbytes
        · rw [hbytes] at hsplit
          refine ⟨fun h => ?_, fun n h => ?_, fun n h haccept => ?_⟩
          · simp [readHeadersIn, hsplit, h]
          · simp [readHeadersIn, hsplit, h]
          · simp [readHeadersIn, hsplit, h, haccept]

theorem readHeadersIn_others (told : Option Nat) (rest : Bytes) (lines : List (List Char)) :
    ∀ fuel, (∀ line ∈ lines, '\n' ∉ line ∧ IsOther line) →
      (lines.flatMap lineBytes ++ rest).length < fuel →
      ∃ fuel', rest.length < fuel' ∧
        readHeadersIn fuel told (lines.flatMap lineBytes ++ rest)
          = readHeadersIn fuel' told rest := by
  induction lines with
  | nil => intro fuel _ hfuel; exact ⟨fuel, hfuel, rfl⟩
  | cons line lines ih =>
      intro fuel hlines hfuel
      obtain ⟨hline, hother⟩ := hlines line List.mem_cons_self
      rw [List.flatMap_cons, List.append_assoc] at hfuel ⊢
      obtain ⟨fuel₁, hfuel₁, hread⟩ := readHeadersIn_line hline hfuel
      obtain ⟨fuel₂, hfuel₂, hrest⟩ :=
        ih fuel₁ (fun l hl => hlines l (List.mem_cons_of_mem line hl)) hfuel₁
      refine ⟨fuel₂, hfuel₂, ?_⟩
      rw [(hread told).1 (readHeader_other hother), hrest]

/-- A frame: header lines of which one tells the length of the body, an empty line, and a body of
that length. -/
structure Block where
  before : List (List Char)
  lengthLine : List Char
  behind : List (List Char)
  emptyLine : List Char
  body : Bytes
  oneLine : ∀ line ∈ before ++ lengthLine :: behind ++ [emptyLine], '\n' ∉ line
  others : ∀ line ∈ before ++ behind, IsOther line
  tells : TellsLength lengthLine body.length
  blank : Text.trim emptyLine = []
  accepted : body.length ≤ bodyLimit

namespace Block

/-- The header lines of a block, the empty one included. -/
def lines (b : Block) : List (List Char) :=
  b.before ++ b.lengthLine :: b.behind ++ [b.emptyLine]

/-- The bytes of a block. -/
def bytes (b : Block) : Bytes :=
  b.lines.flatMap lineBytes ++ b.body

theorem other_of_before (b : Block) {line : List Char} (h : line ∈ b.before) :
    '\n' ∉ line ∧ IsOther line :=
  ⟨b.oneLine line (by simp [h]), b.others line (by simp [h])⟩

theorem other_of_behind (b : Block) {line : List Char} (h : line ∈ b.behind) :
    '\n' ∉ line ∧ IsOther line :=
  ⟨b.oneLine line (by simp [h]), b.others line (by simp [h])⟩

end Block

theorem readHeaders_block (b : Block) (rest : Bytes) :
    readHeaders (b.bytes ++ rest) = (.body b.body.length, b.body ++ rest) := by
  have hbytes : b.bytes ++ rest = b.before.flatMap lineBytes ++ (lineBytes b.lengthLine
      ++ (b.behind.flatMap lineBytes ++ (lineBytes b.emptyLine ++ (b.body ++ rest)))) := by
    simp [Block.bytes, Block.lines]
  have hlargest : b.body.length ≤ largestLength :=
    Nat.le_trans b.accepted (by decide)
  rw [readHeaders, hbytes]
  obtain ⟨f₁, hf₁, hbefore⟩ := readHeadersIn_others none _ b.before _
    (fun _ => b.other_of_before) (Nat.lt_succ_self _)
  obtain ⟨f₂, hf₂, hlength⟩ := readHeadersIn_line (b.oneLine b.lengthLine (by simp)) hf₁
  obtain ⟨f₃, hf₃, hbehind⟩ := readHeadersIn_others (some b.body.length) _ b.behind f₂
    (fun _ => b.other_of_behind) hf₂
  obtain ⟨_, -, hempty⟩ := readHeadersIn_line (b.oneLine b.emptyLine (by simp)) hf₃
  have haccepted : acceptLength (some b.body.length) = .ok b.body.length :=
    if_neg (Nat.not_lt.mpr b.accepted)
  rw [hbefore, (hlength none).2.1 _ (readHeader_length b.tells hlargest), hbehind,
    (hempty _).2.2 _ (readHeader_empty b.blank) haccepted]

/-- **A read takes one block off the stream, whatever its body holds.** -/
theorem read_block (b : Block) (rest : Bytes) :
    read (b.bytes ++ rest) = (readBody b.body, rest) := by
  rw [read, readHeaders_block]
  simp only [List.length_append]
  rw [if_neg (by omega), List.take_left, List.drop_left]

/-! ### Streams of blocks -/

theorem readAll_nil : readAll [] = [.ended .closed] := rfl

theorem readAll_flatMap_bytes (blocks : List Block) :
    readAll (blocks.flatMap Block.bytes)
      = blocks.map (fun b => readBody b.body) ++ [.ended .closed] := by
  induction blocks with
  | nil => exact readAll_nil
  | cons b blocks ih =>
      rw [List.flatMap_cons, readAll_of_read (read_block b _) (readBody_isEnd b.body), ih]
      rfl

/-- What reading a frame with this body has to give: the message that the body is the text of, or
an error if it is the text of none. -/
inductive Delivers (body : Bytes) : Received → Prop
  | message {text : List Char} {m : Message} (hbody : body = Text.encode text)
      (hparse : Message.parse text = .ok m) : Delivers body (.message m)
  | malformed {e : FrameError}
      (hnone : ∀ text m, body = Text.encode text → Message.parse text ≠ .ok m) :
      Delivers body (.malformed e)

theorem delivers_readBody (body : Bytes) : Delivers body (readBody body) := by
  unfold readBody
  split
  · rename_i e hdecode
    refine .malformed fun text m hbody _ => ?_
    rw [Text.decode_eq_ok_iff.mpr hbody] at hdecode
    cases hdecode
  · rename_i text hdecode
    have hbody := Text.decode_eq_ok_iff.mp hdecode
    split
    · rename_i m hparse
      exact .message hbody hparse
    · rename_i e hparse
      refine .malformed fun text' m hbody' hparse' => ?_
      rw [Text.decode_eq_ok_iff.mpr hbody'] at hdecode
      cases hdecode
      rw [hparse] at hparse'
      cases hparse'

/-! ### The frames that are written

The digits of the length are those that `Nat.toDigits` gives, and reading them back is a fact about
digits.  The rest is to see that the text of the header is a line that tells the length and an
empty line.
-/

theorem isBlank_of_isDigit {c : Char} (h : c.isDigit = true) : Text.isBlank c = false := by
  have hrange : 48 ≤ c.toNat ∧ c.toNat ≤ 57 := Char.isDigit_iff_toNat.mp h
  simp only [Text.isBlank, Bool.or_eq_false_iff, Bool.and_eq_false_iff, decide_eq_false_iff_not,
    beq_eq_false_iff_ne]
  omega

theorem trim_toDigits (n : Nat) : Text.trim (Nat.toDigits 10 n) = Nat.toDigits 10 n :=
  Text.trim_eq_self (fun _ hc => isBlank_of_isDigit (isDigit_of_mem (List.mem_of_mem_head? hc)))
    (fun _ hc => isBlank_of_isDigit (isDigit_of_mem (List.mem_of_getLast? hc)))

/-- The line that is written in front of a body of length `n`. -/
def writtenLength (n : Nat) : List Char :=
  lengthHeader ++ ' ' :: Nat.toDigits 10 n ++ ['\r']

theorem tellsLength_writtenLength (n : Nat) : TellsLength (writtenLength n) n := by
  have hlast : ∀ c ∈ (lengthHeader ++ ' ' :: Nat.toDigits 10 n).getLast?,
      Text.isBlank c = false := by
    intro c hc
    rw [List.append_cons, List.getLast?_append_of_ne_nil _ Nat.toDigits_ne_nil] at hc
    exact isBlank_of_isDigit (isDigit_of_mem (List.mem_of_getLast? hc))
  refine ⟨' ' :: Nat.toDigits 10 n, ?_, ?_⟩
  · rw [writtenLength, Text.trim_append_blank _ rfl, Text.trim_eq_self ?_ hlast]
    intro c hc
    obtain rfl : 'C' = c := Option.some.inj hc
    rfl
  · rw [Text.trim_cons_blank _ rfl, trim_toDigits]

theorem newline_notMem_writtenLength (n : Nat) : '\n' ∉ writtenLength n := by
  intro hmem
  rcases List.mem_append.mp hmem with hmem | hmem
  · rcases List.mem_append.mp hmem with hmem | hmem
    · exact absurd hmem (by decide)
    · rcases List.mem_cons.mp hmem with hmem | hmem
      · exact absurd hmem (by decide)
      · exact absurd (isDigit_of_mem hmem) (by decide)
  · exact absurd hmem (by decide)

/-- The frame of a text as a block. -/
def blockOfText (text : List Char) (h : (Text.encode text).length ≤ bodyLimit) : Block where
  before := []
  lengthLine := writtenLength (Text.encode text).length
  behind := []
  emptyLine := ['\r']
  body := Text.encode text
  oneLine := by
    intro line hline
    rcases List.mem_cons.mp hline with rfl | hline
    · exact newline_notMem_writtenLength _
    · obtain rfl := List.mem_singleton.mp hline
      decide
  others := by simp
  tells := tellsLength_writtenLength _
  blank := by decide
  accepted := h

theorem toList_writtenHeader (n : Nat) :
    ("Content-Length: " ++ n.repr ++ "\r\n\r\n").toList
      = (writtenLength n ++ ['\n']) ++ (['\r'] ++ ['\n']) := by
  have hname : "Content-Length: ".toList = lengthHeader ++ [' '] := by decide
  have hend : "\r\n\r\n".toList = ['\r', '\n', '\r', '\n'] := by decide
  rw [String.toList_append, String.toList_append, hname, hend, Nat.repr_eq_ofList_toDigits,
    String.toList_ofList, writtenLength]
  simp only [List.append_assoc, List.cons_append, List.nil_append]

theorem bytes_blockOfText (text : List Char) (h : (Text.encode text).length ≤ bodyLimit) :
    (blockOfText text h).bytes = ofText text := by
  rw [ofText, Text.encodeString, toList_writtenHeader, Text.encode_append, ← lineBytes_eq,
    ← lineBytes_eq]
  simp only [Block.bytes, Block.lines, blockOfText, List.nil_append, List.cons_append,
    List.flatMap_cons, List.flatMap_nil, List.append_nil]

/-- What reading the frame of a text gives. -/
def received (text : List Char) : Received :=
  match Message.parse text with
  | .ok m => .message m
  | .error e => .malformed (.badMessage e)

theorem readBody_encode (text : List Char) : readBody (Text.encode text) = received text := by
  cases hparse : Message.parse text with
  | ok m => simp [readBody, Text.decode_encode, received, hparse]
  | error e => simp [readBody, Text.decode_encode, received, hparse]

theorem readAll_flatMap_ofText (texts : List (List Char))
    (h : ∀ text ∈ texts, (Text.encode text).length ≤ bodyLimit) :
    readAll (texts.flatMap ofText) = texts.map received ++ [.ended .closed] := by
  induction texts with
  | nil => exact readAll_nil
  | cons text texts ih =>
      have hshort := h text List.mem_cons_self
      have hread := read_block (blockOfText text hshort) (texts.flatMap ofText)
      rw [bytes_blockOfText] at hread
      rw [List.flatMap_cons, readAll_of_read hread (readBody_isEnd _),
        ih fun t ht => h t (List.mem_cons_of_mem text ht)]
      show readBody (Text.encode text) :: _ = _
      rw [readBody_encode]
      rfl

/--
**Reading a stream of frames never loses its place.**

One result comes of each block, in order, and then the end of the stream, whatever the bodies
hold; and of the frames of texts come the messages that the texts are.
-/
theorem readAll_blocks (blocks : List Block) :
    (∃ results, readAll (blocks.flatMap Block.bytes) = results ++ [.ended .closed] ∧
      List.Forall₂ (fun b => Delivers b.body) blocks results) ∧
    ∀ texts : List (List Char), (∀ text ∈ texts, (Text.encode text).length ≤ bodyLimit) →
      readAll (texts.flatMap ofText) = texts.map received ++ [.ended .closed] := by
  refine ⟨⟨_, readAll_flatMap_bytes blocks, ?_⟩, readAll_flatMap_ofText⟩
  rw [List.forall₂_map_right_iff]
  exact List.forall₂_same.mpr fun b _ => delivers_readBody b.body

/-- A body that looks like a frame is one body all the same, and so is one that is no text. -/
theorem readAll_frame_in_body :
    let texts := ["Content-Length: 2\r\n\r\n\x7b\x7d".toList,
      "\x7b\"jsonrpc\":\"2.0\",\"method\":\"exit\"\x7d".toList]
    ((∀ text ∈ texts, (Text.encode text).length ≤ bodyLimit) ∧
      readAll (texts.flatMap ofText) = texts.map received ++ [.ended .closed]) ∧
    ∃ b : Block, b.before = ["Host: a".toList] ∧ b.behind = ["content-length: 9\r".toList] ∧
      b.body = [0xff, 10] ∧ ∃ r, readAll b.bytes = [r, .ended .closed] ∧ Delivers b.body r := by
  intro texts
  have hshort : ∀ text ∈ texts, (Text.encode text).length ≤ bodyLimit := by decide
  refine ⟨⟨hshort, (readAll_blocks []).2 texts hshort⟩, ?_⟩
  let b : Block :=
    { before := ["Host: a".toList]
      lengthLine := writtenLength 2
      behind := ["content-length: 9\r".toList]
      emptyLine := []
      body := [0xff, 10]
      oneLine := by decide
      others := by simp only [IsOther]; decide
      tells := tellsLength_writtenLength 2
      blank := by decide
      accepted := by decide }
  obtain ⟨results, hread, hall⟩ := (readAll_blocks [b]).1
  obtain ⟨r, _, hr, hnil, rfl⟩ := List.forall₂_cons_left_iff.mp hall
  obtain rfl := List.forall₂_nil_left_iff.mp hnil
  exact ⟨b, rfl, rfl, rfl, r, by simpa using hread, hr⟩

end VServer.Frame
