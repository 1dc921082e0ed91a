/-
Headers behind which no body is found.

Headers that tell no length, or one that is too large, are an error, and since nothing can be said
about a body, reading goes on behind the empty line.  A length that cannot be read is an error as
well, but that one is reported where the line stands: the lines behind it, with the empty line at
their end, are then taken for the headers of a frame of their own.  So a block of headers costs one
error for every length in it that cannot be read, and one more for the lines behind the last of
these.

`Costs` says what a stretch of the stream costs, one read for each error, without asking what the
stretch is.  What the server makes of it follows from that alone: one reply for each error, and
the session goes on behind it as if nothing had been there.

The reason for the extra error is that a length that cannot be read stops the reader in the middle
of a block, and the reader does not know that it is in the middle of anything.  So the statement
counts lines, and the block with one such line that costs two errors is given beside it.
-/
import VServer.Proofs.Server.Output

namespace VServer

open Text (Bytes)

namespace Frame

/-! ### Lengths that can be read -/

/-- Digits, with an optional plus in front of them, that write the number `n`. -/
def Numeral (value : List Char) (n : Nat) : Prop :=
  ∃ ds, (value = ds ∨ value = '+' :: ds) ∧ ds ≠ [] ∧ (∀ c ∈ ds, c.isDigit = true) ∧
    Nat.ofDigitChars 10 ds 0 = n

theorem readDigits_eq_ok_iff {m : Nat} (ds : List Char) :
    ∀ n ≤ largestLength, readDigits n ds = .ok m ↔
      (∀ c ∈ ds, c.isDigit = true) ∧ Nat.ofDigitChars 10 ds n = m ∧ m ≤ largestLength := by
  intro n hn
  constructor
  · intro h
    induction ds generalizing n with
    | nil =>
        obtain rfl := Except.ok.inj h
        exact ⟨List.forall_mem_nil _, rfl, hn⟩
    | cons c ds ih =>
        rw [readDigits] at h
        split at h
        · rename_i hdigit
          dsimp only at h
          split at h
          · rename_i hnext
            obtain ⟨hdigits, hvalue, hle⟩ := ih _ hnext h
            rw [Text.ofDigitChars_cons]
            exact ⟨List.forall_mem_cons.mpr ⟨hdigit, hdigits⟩, hvalue, hle⟩
          · cases h
        · cases h
  · rintro ⟨hdigits, rfl, hle⟩
    exact readDigits_ok ds n hdigits hle

/-- A length can be read if it is a numeral for a number that is not too large. -/
theorem readLength_eq_ok_iff {value : List Char} {n : Nat} :
    readLength value = .ok n ↔ Numeral value n ∧ n ≤ largestLength := by
  have hzero : (0 : Nat) ≤ largestLength := Nat.zero_le _
  have hplus : ('+' : Char).isDigit = false := by decide
  rcases value with _ | ⟨c, rest⟩
  · refine ⟨(nomatch ·), ?_⟩
    rintro ⟨⟨ds, rfl | hds, hne, -⟩, -⟩
    · exact absurd rfl hne
    · cases hds
  rw [readLength]
  by_cases hc : c = '+'
  · subst hc
    rw [if_pos rfl]
    constructor
    · intro h
      split at h
      · cases h
      · rename_i hrest
        obtain ⟨hdigits, hvalue, hle⟩ := (readDigits_eq_ok_iff rest 0 hzero).mp h
        exact ⟨⟨rest, .inr rfl, by simpa using hrest, hdigits, hvalue⟩, hle⟩
    · rintro ⟨⟨ds, rfl | hds, hne, hdigits, hvalue⟩, hle⟩
      · rw [hdigits '+' List.mem_cons_self] at hplus
        cases hplus
      · obtain rfl := (List.cons.inj hds).2
        rw [if_neg (by simpa using hne)]
        exact (readDigits_eq_ok_iff rest 0 hzero).mpr ⟨hdigits, hvalue, hle⟩
  · rw [if_neg hc, readDigits_eq_ok_iff _ 0 hzero]
    constructor
    · rintro ⟨hdigits, hvalue, hle⟩
      exact ⟨⟨c :: rest, .inl rfl, List.cons_ne_nil c rest, hdigits, hvalue⟩, hle⟩
    · rintro ⟨⟨ds, rfl | hds, -, hdigits, hvalue⟩, hle⟩
      · exact ⟨hdigits, hvalue, hle⟩
      · exact absurd (List.cons.inj hds).1 hc

/-- The length that a header line is about, if it is about one: read, or why it cannot be. -/
def lengthIn? (line : List Char) : Option (Except LengthError Nat) :=
  (after? lengthHeader (Text.trim line)).map fun value => readLength (Text.trim value)

/-- The line is about the length, and what it says is no number, or one that is too large to be
told. -/
def Unreadable (line : List Char) : Prop :=
  ∃ value, Text.trim line = lengthHeader ++ value ∧
    ∀ n, Numeral (Text.trim value) n → largestLength < n

theorem after?_eq_some_iff {beginning text value : List Char} :
    after? beginning text = some value ↔ text = beginning ++ value := by
  unfold after?
  split
  · rename_i h
    obtain ⟨rest, rfl⟩ := List.isPrefixOf_iff_prefix.mp h
    simp
  · rename_i h
    refine ⟨(nomatch ·), ?_⟩
    rintro rfl
    exact absurd (List.isPrefixOf_iff_prefix.mpr (List.prefix_append _ _)) h

/-- Whether a line is unreadable, told from what is read of it. -/
def isUnreadable (line : List Char) : Bool :=
  match lengthIn? line with
  | some (.error _) => true
  | _ => false

theorem isUnreadable_iff {line : List Char} : isUnreadable line = true ↔ Unreadable line := by
  unfold isUnreadable lengthIn?
  cases hafter : after? lengthHeader (Text.trim line) with
  | none =>
      refine ⟨(nomatch ·), ?_⟩
      rintro ⟨value, hvalue, -⟩
      rw [after?_eq_some_iff.mpr hvalue] at hafter
      cases hafter
  | some value =>
      have hline := after?_eq_some_iff.mp hafter
      rw [Option.map_some]
      cases hread : readLength (Text.trim value) with
      | ok n =>
          obtain ⟨hnumeral, hle⟩ := readLength_eq_ok_iff.mp hread
          refine ⟨(nomatch ·), ?_⟩
          rintro ⟨value', hvalue', hlarge⟩
          obtain rfl := List.append_cancel_left (hline.symm.trans hvalue')
          exact absurd (hlarge n hnumeral) (Nat.not_lt.mpr hle)
      | error e =>
          refine ⟨fun _ => ⟨value, hline, fun n hnumeral => Nat.lt_of_not_le fun hle => ?_⟩,
            fun _ => rfl⟩
          rw [readLength_eq_ok_iff.mpr ⟨hnumeral, hle⟩] at hread
          cases hread

instance : DecidablePred Unreadable :=
  fun _ => decidable_of_iff _ isUnreadable_iff

/-- The error of a line that is unreadable. -/
def complaint? (line : List Char) : Option FrameError :=
  match lengthIn? line with
  | some (.error e) => some (.badLength e)
  | _ => none

theorem isSome_complaint? (line : List Char) :
    (complaint? line).isSome = decide (Unreadable line) := by
  rw [Bool.eq_iff_iff, decide_eq_true_iff, ← isUnreadable_iff]
  unfold complaint? isUnreadable
  cases lengthIn? line with
  | none => rfl
  | some length => cases length <;> rfl

theorem complaint?_eq_none {line : List Char} (h : ¬ Unreadable line) :
    complaint? line = none := by
  rw [← Option.not_isSome_iff_eq_none, isSome_complaint?]
  simpa using h

/-! ### Blocks of headers

A block is given by its lines, and what it comes to is told by them: which lengths cannot be read,
and which length has been told where the block ends.  Behind a length that cannot be read a new
frame starts, so what was told before it no longer counts.
-/

/-- Lines of headers, each with something on it, and an empty line. -/
structure HeaderBlock where
  lines : List (List Char)
  emptyLine : List Char
  oneLine : ∀ line ∈ lines ++ [emptyLine], '\n' ∉ line
  filled : ∀ line ∈ lines, Text.trim line ≠ []
  blank : Text.trim emptyLine = []

/-- Lines that are checked one by one are headers, with a carriage return behind them. -/
def HeaderBlock.ofLines (lines : List (List Char))
    (h : lines.all (fun line => !line.contains '\n' && !(Text.trim line).isEmpty) = true) :
    HeaderBlock where
  lines := lines
  emptyLine := ['\r']
  oneLine := by
    intro line hline
    rcases List.mem_append.mp hline with hline | hline
    · have hchecked := List.all_eq_true.mp h line hline
      simp only [Bool.and_eq_true, Bool.not_eq_true', List.contains_eq_mem, decide_eq_false_iff_not]
        at hchecked
      exact hchecked.1
    · rw [List.mem_singleton.mp hline]
      simp
  filled := by
    intro line hline
    have hchecked := List.all_eq_true.mp h line hline
    simp only [Bool.and_eq_true, Bool.not_eq_true', List.isEmpty_eq_false_iff] at hchecked
    exact hchecked.2
  blank := rfl

/-- The length that lines come to tell where `told` has been told before them.  The last length
counts, and behind one that cannot be read nothing has been told. -/
def toldBehind (told : Option Nat) : List (List Char) → Option Nat
  | [] => told
  | line :: lines =>
    match lengthIn? line with
    | none => toldBehind told lines
    | some (.ok n) => toldBehind (some n) lines
    | some (.error _) => toldBehind none lines

theorem toldBehind_unreadable {line : List Char} {e : LengthError}
    (hline : lengthIn? line = some (.error e)) (before behind : List (List Char)) :
    ∀ told, toldBehind told (before ++ line :: behind) = toldBehind none behind := by
  induction before with
  | nil => intro told; simp [toldBehind, hline]
  | cons l before ih =>
      intro told
      rw [List.cons_append, toldBehind]
      split
      · exact ih _
      · exact ih _
      · exact ih _

namespace HeaderBlock

/-- The bytes of a block. -/
def bytes (b : HeaderBlock) : Bytes :=
  (b.lines ++ [b.emptyLine]).flatMap lineBytes

/-- The length that is told where the block ends. -/
def told (b : HeaderBlock) : Option Nat :=
  toldBehind none b.lines

/-- The errors of a block: one for each line that is unreadable, and one for the length that is told
where the block ends. -/
def errors (b : HeaderBlock) : List FrameError :=
  b.lines.filterMap complaint? ++ [b.told.elim .noLength .tooLong]

theorem length_errors (b : HeaderBlock) :
    b.errors.length = b.lines.countP Unreadable + 1 := by
  rw [errors, List.length_append, List.length_filterMap_eq_countP]
  simp only [isSome_complaint?]
  rfl

/-- The block that is left behind some of its lines. -/
def behind (b : HeaderBlock) (lines : List (List Char)) (h : lines <:+ b.lines) : HeaderBlock where
  lines
  emptyLine := b.emptyLine
  oneLine line hline := by
    refine b.oneLine line ?_
    rcases List.mem_append.mp hline with hline | hline
    · exact List.mem_append_left _ (h.mem hline)
    · exact List.mem_append_right _ hline
  filled line hline := b.filled line (h.mem hline)
  blank := b.blank

end HeaderBlock

/-! ### Reading a block

One read stops at the first length that cannot be read, or at the empty line.  `StopsAt` is these
two cases with the lines that are left, and the number of lines is what the induction is on.
-/

/-- What is read of a line with something on it. -/
theorem readHeader_filled {line : List Char} (h : Text.trim line ≠ []) :
    readHeader (lineBytes line) =
      match lengthIn? line with
      | none => .ok .other
      | some (.ok n) => .ok (.length n)
      | some (.error e) => .error (.badLength e) := by
  have hfilled : (Text.trim line).isEmpty = false := by simpa using h
  simp only [readHeader, decode_lineBytes, trim_line, hfilled, lengthIn?, Bool.false_eq_true,
    if_false]
  cases after? lengthHeader (Text.trim line) with
  | none => rfl
  | some value => cases hread : readLength (Text.trim value) <;> simp [hread]

/-- One line in front of the others. -/
theorem readHeadersIn_succ {line : List Char} (hline : '\n' ∉ line) (fuel : Nat)
    (told : Option Nat) (rest : Bytes) :
    readHeadersIn (fuel + 1) told (lineBytes line ++ rest) =
      match readHeader (lineBytes line) with
      | .error e => (.malformed e, rest)
      | .ok .last =>
        match acceptLength told with
        | .ok n => (.body n, rest)
        | .error e => (.malformed e, rest)
      | .ok (.length n) => readHeadersIn fuel (some n) rest
      | .ok .other => readHeadersIn fuel told rest := by
  have hsplit := splitLine_lineBytes hline rest
  rcases hbytes : lineBytes line ++ rest with _ | ⟨b, bs⟩
  · simp [lineBytes] at hbytes
  · rw [hbytes] at hsplit
    rw [readHeadersIn]
    generalize splitLine (b :: bs) = split at hsplit
    subst hsplit
    rfl

/-- Where reading the headers stops: at the first length that cannot be read, or at the empty
line. -/
inductive StopsAt (rest : Bytes) (emptyLine : List Char) (told : Option Nat) :
    List (List Char) → Headers × Bytes → Prop
  | unreadable (before : List (List Char)) {behind : List (List Char)} {line : List Char}
      {e : LengthError}
      (hbefore : before.filterMap complaint? = []) (hline : lengthIn? line = some (.error e)) :
      StopsAt rest emptyLine told (before ++ line :: behind)
        (.malformed (.badLength e), (behind ++ [emptyLine]).flatMap lineBytes ++ rest)
  | refused {lines : List (List Char)} {e : FrameError} (hlines : lines.filterMap complaint? = [])
      (hrefused : acceptLength (toldBehind told lines) = .error e) :
      StopsAt rest emptyLine told lines (.malformed e, rest)
  | accepted {lines : List (List Char)} {n : Nat}
      (haccepted : acceptLength (toldBehind told lines) = .ok n) :
      StopsAt rest emptyLine told lines (.body n, rest)

/-- A line that is not unreadable in front of the others moves nothing but the length that has been
told. -/
theorem StopsAt.cons {rest : Bytes} {emptyLine line : List Char} {told told' : Option Nat}
    {lines : List (List Char)} {out : Headers × Bytes} (hline : ¬ Unreadable line)
    (htold : ∀ ls, toldBehind told (line :: ls) = toldBehind told' ls)
    (h : StopsAt rest emptyLine told' lines out) :
    StopsAt rest emptyLine told (line :: lines) out := by
  have hquiet : ∀ ls : List (List Char), ls.filterMap complaint? = [] →
      (line :: ls).filterMap complaint? = [] := by
    intro ls hls
    rw [List.filterMap_cons_none (complaint?_eq_none hline), hls]
  cases h with
  | unreadable before hbefore hbad => exact .unreadable (line :: before) (hquiet _ hbefore) hbad
  | refused hlines hrefused => exact .refused (hquiet _ hlines) (by rw [htold]; exact hrefused)
  | accepted haccepted => exact .accepted (by rw [htold]; exact haccepted)

theorem readHeadersIn_stopsAt {emptyLine : List Char} (hblank : Text.trim emptyLine = [])
    (hempty : '\n' ∉ emptyLine) (rest : Bytes) (lines : List (List Char)) :
    ∀ (fuel : Nat) (told : Option Nat),
      (∀ line ∈ lines, '\n' ∉ line ∧ Text.trim line ≠ []) →
      ((lines ++ [emptyLine]).flatMap lineBytes ++ rest).length < fuel →
      StopsAt rest emptyLine told lines
        (readHeadersIn fuel told ((lines ++ [emptyLine]).flatMap lineBytes ++ rest)) := by
  induction lines with
  | nil =>
      intro fuel told _ hfuel
      obtain ⟨fuel, rfl⟩ : ∃ n, fuel = n + 1 := ⟨fuel - 1, by omega⟩
      have hbytes : ([] ++ [emptyLine]).flatMap lineBytes ++ rest
          = lineBytes emptyLine ++ rest := by
        simp
      rw [hbytes, readHeadersIn_succ hempty, readHeader_empty hblank]
      cases haccept : acceptLength told with
      | ok n => exact .accepted haccept
      | error e => exact .refused rfl haccept
  | cons line lines ih =>
      intro fuel told hlines hfuel
      obtain ⟨⟨hone, hfilled⟩, hlater⟩ := List.forall_mem_cons.mp hlines
      have hbytes : (line :: lines ++ [emptyLine]).flatMap lineBytes ++ rest
          = lineBytes line ++ ((lines ++ [emptyLine]).flatMap lineBytes ++ rest) := by
        simp
      rw [hbytes] at hfuel ⊢
      obtain ⟨fuel, rfl⟩ : ∃ n, fuel = n + 1 := ⟨fuel - 1, by omega⟩
      have hless : ((lines ++ [emptyLine]).flatMap lineBytes ++ rest).length < fuel := by
        rw [List.length_append] at hfuel
        simp only [lineBytes, List.length_append, List.length_singleton] at hfuel ⊢
        omega
      rw [readHeadersIn_succ hone, readHeader_filled hfilled]
      cases hlength : lengthIn? line with
      | none =>
          have hreadable : ¬ Unreadable line := by simp [← isUnreadable_iff, isUnreadable, hlength]
          refine (ih fuel told hlater hless).cons hreadable fun ls => ?_
          simp [toldBehind, hlength]
      | some length =>
          cases length with
          | ok n =>
              have hreadable : ¬ Unreadable line := by
                simp [← isUnreadable_iff, isUnreadable, hlength]
              refine (ih fuel (some n) hlater hless).cons hreadable fun ls => ?_
              simp [toldBehind, hlength]
          | error e => exact .unreadable [] rfl hlength

/-! ### What a block costs -/

/-- Reading what is in front of `rest` gives these errors and nothing else. -/
inductive Costs : Bytes → List FrameError → Bytes → Prop
  | nothing (rest : Bytes) : Costs rest [] rest
  | error {bytes middle rest : Bytes} {e : FrameError} {errors : List FrameError}
      (hread : read bytes = (.malformed e, middle)) (hcosts : Costs middle errors rest) :
      Costs bytes (e :: errors) rest

theorem read_of_malformed {bytes rest : Bytes} {e : FrameError}
    (h : readHeaders bytes = (.malformed e, rest)) : read bytes = (.malformed e, rest) := by
  rw [read, h]

/-- Headers that tell no length that is accepted are refused. -/
theorem acceptLength_refused {told : Option Nat} (h : ∀ n, told = some n → bodyLimit < n) :
    acceptLength told = .error (told.elim .noLength .tooLong) := by
  cases told with
  | none => rfl
  | some n => exact if_pos (h n rfl)

/-- **A block of headers that finds no body costs its errors.** -/
theorem HeaderBlock.costs (b : HeaderBlock) (hbody : ∀ n, b.told = some n → bodyLimit < n)
    (rest : Bytes) : Costs (b.bytes ++ rest) b.errors rest := by
  -- Each length that cannot be read leaves a block with fewer lines.
  induction hn : b.lines.length using Nat.strongRecOn generalizing b with
  | ind n ih =>
      have hlines : ∀ line ∈ b.lines, '\n' ∉ line ∧ Text.trim line ≠ [] := fun line hline =>
        ⟨b.oneLine line (List.mem_append_left _ hline), b.filled line hline⟩
      have hempty : '\n' ∉ b.emptyLine := b.oneLine _ (by simp)
      have hstops : StopsAt rest b.emptyLine none b.lines (readHeaders (b.bytes ++ rest)) :=
        readHeadersIn_stopsAt b.blank hempty rest b.lines _ none hlines (Nat.lt_succ_self _)
      have hrefused := acceptLength_refused hbody
      generalize hout : readHeaders (b.bytes ++ rest) = out at hstops
      generalize hls : b.lines = ls at hstops
      cases hstops with
      | @unreadable before lines line e hbefore hline =>
          have hsuffix : lines <:+ b.lines := ⟨before ++ [line], by rw [hls]; simp⟩
          have hshort : lines.length < n := by rw [← hn, hls]; simp; omega
          have htold : (b.behind lines hsuffix).told = b.told := by
            show toldBehind none lines = toldBehind none b.lines
            rw [hls, toldBehind_unreadable hline]
          have hcosts := ih lines.length hshort (b.behind lines hsuffix)
            (by rw [htold]; exact hbody) rfl
          have herrors : b.errors = .badLength e :: (b.behind lines hsuffix).errors := by
            have hbad : complaint? line = some (.badLength e) := by simp [complaint?, hline]
            rw [errors, errors, htold, hls, List.filterMap_append, hbefore,
              List.filterMap_cons_some hbad]
            rfl
          rw [herrors]
          exact .error (read_of_malformed hout) hcosts
      | @refused _ e hreadable he =>
          have herrors : b.errors = [e] := by
            rw [told, hls, he] at hrefused
            rw [errors, told, hls, hreadable, ← Except.error.inj hrefused]
            rfl
          rw [herrors]
          exact .error (read_of_malformed hout) (.nothing rest)
      | accepted haccepted =>
          rw [told, hls, haccepted] at hrefused
          cases hrefused

theorem Costs.readAll {bytes rest : Bytes} {errors : List FrameError}
    (h : Costs bytes errors rest) : readAll bytes = errors.map .malformed ++ readAll rest := by
  induction h with
  | nothing rest => rfl
  | error hread _ ih =>
      rw [readAll_of_read hread rfl, ih]
      rfl

end Frame

/-! ### What the server makes of it -/

namespace Server

open VServer.Frame (Costs HeaderBlock Block Delivers Unreadable)

/-- A frame that cannot be read is answered, and the session goes on behind it as it was. -/
theorem serve_malformed {input rest : Bytes} {e : FrameError}
    (hread : Frame.read input = (.malformed e, rest)) (session : Session) :
    serve session input = { serve session rest with
      output := Frame.ofMessage (malformedReply e) ++ (serve session rest).output } := by
  rw [serve_eq, turn, hread]
  rfl

/-- What costs errors costs one reply for each, and nothing else. -/
theorem serve_of_costs {input rest : Bytes} {errors : List FrameError}
    (h : Costs input errors rest) (session : Session) :
    serve session input = { serve session rest with
      output := (errors.map malformedReply).flatMap Frame.ofMessage ++
        (serve session rest).output } := by
  induction h with
  | nothing rest => rfl
  | error hread _ ih =>
      rw [serve_malformed hread, ih, List.map_cons, List.flatMap_cons, List.append_assoc]

/-- The reply to a frame that cannot be read: no id, and the code that says so. -/
def IsParseError (m : Message) : Prop :=
  ∃ error, m = .response (.failure none error) ∧ error.code = -32700

/--
**What headers without a body cost.**

Let a block of headers, in which the length is missing or cannot be read or is too large, stand in
front of frames.  It costs one error for each length in it that cannot be read, and one more; behind
these every frame is read as if the block had not been there.  The server writes one reply for each
of the errors, without an id and with the code of a text that cannot be parsed, and goes on with the
frames as if they were all that it had been sent.  These replies are what is read from the bytes
that it writes for them.

So a block costs one error if and only if it has no length that cannot be read.
-/
theorem serve_headers_without_body (b : HeaderBlock)
    (hbody : ∀ n, b.told = some n → bodyLimit < n) (frames : List Block) (session : Session) :
    let stream := frames.flatMap Block.bytes
    b.errors.length = b.lines.countP Unreadable + 1 ∧
    (∃ results, Frame.readAll (b.bytes ++ stream)
        = b.errors.map .malformed ++ results ++ [.ended .closed] ∧
      List.Forall₂ (fun f => Delivers f.body) frames results) ∧
    (∀ m ∈ b.errors.map malformedReply, IsParseError m) ∧
    Frame.Carries ((b.errors.map malformedReply).flatMap Frame.ofMessage)
      (b.errors.map malformedReply) ∧
    serve session (b.bytes ++ stream) = { serve session stream with
      output := (b.errors.map malformedReply).flatMap Frame.ofMessage ++
        (serve session stream).output } := by
  intro stream
  have hcosts := b.costs hbody stream
  refine ⟨b.length_errors, ⟨frames.map fun f => Frame.readBody f.body, ?_, ?_⟩, ?_,
    carries_malformedReplies b.errors, serve_of_costs hcosts session⟩
  · rw [hcosts.readAll, Frame.readAll_flatMap_bytes, List.append_assoc]
  · rw [List.forall₂_map_right_iff]
    exact List.forall₂_same.mpr fun f _ => Frame.delivers_readBody f.body
  · intro m hm
    obtain ⟨e, -, rfl⟩ := List.mem_map.mp hm
    exact ⟨_, rfl, rfl⟩

/-- Headers with two lengths that cannot be read, one of them behind another line. -/
def twiceUnreadable : HeaderBlock :=
  .ofLines ["Content-Length: 3x\r".toList, "Host: a\r".toList,
    "Content-Length: 18446744073709551616\r".toList] rfl

/-- A frame without a body. -/
def emptyFrame : Block :=
  Frame.blockOfText [] (Nat.zero_le _)

/-- The two lengths cost an error each, and the lines behind the second one are headers that tell
none. -/
theorem serve_headers_twiceUnreadable :
    (∀ n, twiceUnreadable.told = some n → bodyLimit < n) ∧
    twiceUnreadable.errors
      = [.badLength .invalidDigit, .badLength .tooLarge, .noLength] ∧
    ∃ r, Frame.readAll (twiceUnreadable.bytes ++ emptyFrame.bytes)
        = twiceUnreadable.errors.map .malformed ++ [r, .ended .closed] ∧
      Delivers emptyFrame.body r := by
  have htold : twiceUnreadable.told = none := by decide +kernel
  have hbody : ∀ n, twiceUnreadable.told = some n → bodyLimit < n := by simp [htold]
  obtain ⟨-, ⟨results, hread, hall⟩, -⟩ :=
    serve_headers_without_body twiceUnreadable hbody [emptyFrame] (Session.new {} {} {})
  obtain ⟨r, _, hr, hnil, rfl⟩ := List.forall₂_cons_left_iff.mp hall
  obtain rfl := List.forall₂_nil_left_iff.mp hnil
  refine ⟨hbody, by decide +kernel, r, ?_, hr⟩
  rw [List.flatMap_singleton, List.append_assoc] at hread
  exact hread

/-- Headers with one length, which is no number. -/
def onceUnreadable : HeaderBlock :=
  .ofLines ["Content-Length: abc\r".toList] rfl

/-- One length that is no number costs two errors, in front of any frame: the empty line behind it
is taken for headers of its own. -/
theorem readAll_unreadable_length :
    onceUnreadable.bytes = Text.encodeString "Content-Length: abc\r\n\r\n" ∧
    Frame.readAll (onceUnreadable.bytes ++ emptyFrame.bytes) =
      .malformed (.badLength .invalidDigit) :: .malformed .noLength ::
        Frame.readAll emptyFrame.bytes := by
  have htold : onceUnreadable.told = none := by decide
  have herrors : onceUnreadable.errors = [.badLength .invalidDigit, .noLength] := by decide
  have hread := (onceUnreadable.costs (by simp [htold]) emptyFrame.bytes).readAll
  rw [herrors, List.map_cons, List.map_cons, List.map_nil, List.cons_append, List.cons_append,
    List.nil_append] at hread
  exact ⟨by decide, hread⟩

end Server

end VServer
