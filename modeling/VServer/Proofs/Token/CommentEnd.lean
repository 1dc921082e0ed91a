/-
Where a comment between marks ends, told by counting its marks.

The bytes behind the mark that opens a comment are read from the left, two at a time where they are
a mark and one at a time where they are not (`commentUnits`).  The comment ends with the first mark
at which one more has closed than opened.  The scanner goes by characters and counts the comments
that are open; `Counted` says of what it has read how far the two numbers can be apart, and each
unit that is put in front keeps it.

Marks are bytes of ASCII, which no longer character has in it.  So the bytes of a character that is
no mark are read one by one (`commentUnits_encodeChar`), and where a comment ends, a character ends
as well.
-/
import VServer.Proofs.Token.Longest
import VServer.Proofs.Text.Utf8

namespace VServer.Token

open Text (Bytes Boundary encode byteSize)

/-! ### The marks of a comment -/

/-- What is read of a comment at a time: a mark, or a byte that starts none. -/
inductive CommentUnit where
  | opener
  | closer
  | byte (b : UInt8)
deriving DecidableEq

/-- The bytes of a unit; those of the marks are `/*` and `*/`. -/
def CommentUnit.bytes : CommentUnit → Bytes
  | opener => [0x2f, 0x2a]
  | closer => [0x2a, 0x2f]
  | byte b => [b]

/-- Bytes read from the left. -/
def commentUnits : Bytes → List CommentUnit
  | [] => []
  | [a] => [.byte a]
  | a :: b :: rest =>
    if a = 0x2f ∧ b = 0x2a then .opener :: commentUnits rest
    else if a = 0x2a ∧ b = 0x2f then .closer :: commentUnits rest
    else .byte a :: commentUnits (b :: rest)

/-- How many marks open a comment. -/
def opened (units : List CommentUnit) : Nat :=
  units.count .opener

/-- How many marks close a comment. -/
def closed (units : List CommentUnit) : Nat :=
  units.count .closer

/-- How many comments are open behind units of a comment. -/
def nesting (units : List CommentUnit) : Int :=
  1 + opened units - closed units

/-- The units `read` end with the first mark at which one more has closed than opened. -/
structure EndsComment (units read : List CommentUnit) : Prop where
  front : read <+: units
  closer : read.getLast? = some .closer
  balance : closed read = opened read + 1
  first : ∀ part, part <+: units → closed part = opened part + 1 → read.length ≤ part.length

theorem opened_cons (u : CommentUnit) (units : List CommentUnit) :
    opened (u :: units) = opened [u] + opened units := by
  show ([u] ++ units).count _ = _
  exact List.count_append

theorem closed_cons (u : CommentUnit) (units : List CommentUnit) :
    closed (u :: units) = closed [u] + closed units := by
  show ([u] ++ units).count _ = _
  exact List.count_append

/-! ### Characters and bytes

The units are bytes, and the scanner goes by characters.  All bytes of a longer character lie above
those of ASCII, so a slash or a star among the bytes is a character of its own, and both readings
cut the same marks.
-/

/-- A byte is read alone if it is no mark together with the one behind it. -/
theorem commentUnits_cons {a : UInt8} {rest : Bytes}
    (h : ∀ b ∈ rest.head?, ¬ (a = 0x2f ∧ b = 0x2a) ∧ ¬ (a = 0x2a ∧ b = 0x2f)) :
    commentUnits (a :: rest) = .byte a :: commentUnits rest := by
  cases rest with
  | nil => rfl
  | cons b rest => rw [commentUnits, if_neg (h b rfl).1, if_neg (h b rfl).2]

theorem commentUnits_append {bytes : Bytes} (h : ∀ a ∈ bytes, a ≠ 0x2f ∧ a ≠ 0x2a) (rest : Bytes) :
    commentUnits (bytes ++ rest) = bytes.map .byte ++ commentUnits rest := by
  induction bytes with
  | nil => rfl
  | cons a bytes ih =>
      obtain ⟨hslash, hstar⟩ := h a List.mem_cons_self
      have hlater := ih fun b hb => h b (List.mem_cons_of_mem a hb)
      have halone : commentUnits (a :: (bytes ++ rest)) = .byte a :: commentUnits (bytes ++ rest) :=
        commentUnits_cons fun b _ => ⟨fun hmark => hslash hmark.1, fun hmark => hstar hmark.1⟩
      rw [List.cons_append, halone, hlater]
      rfl

/-- The first byte of a text is that of a mark only if the first character is. -/
theorem head_of_encode {cs : List Char} {b : UInt8} (hb : b ∈ (encode cs).head?) {d : Char}
    (hd : b.toNat = d.toNat) (hascii : d.toNat < 0x80) : d ∈ cs.head? := by
  cases cs with
  | nil => cases hb
  | cons e es =>
      rw [Text.encode_cons, List.head?_append_of_ne_nil _ String.utf8EncodeChar_ne_nil] at hb
      have hcode := Text.ascii_mem_encodeChar (hd ▸ hascii) (List.mem_of_mem_head? hb)
      exact congrArg some (Char.toNat_inj.mp (hcode.trans hd))

/-- The bytes of a character that is no mark with the one behind it are read one by one. -/
theorem commentUnits_encodeChar {c : Char} {cs : List Char} (h : ∀ d ∈ cs.head?, ¬ IsMark c d) :
    commentUnits (encode (c :: cs))
      = (String.utf8EncodeChar c).map .byte ++ commentUnits (encode cs) := by
  rw [Text.encode_cons]
  -- Only a slash or a star has a byte that can start a mark.
  by_cases hslash : c = '/'
  · subst hslash
    refine commentUnits_cons fun b hb => ⟨fun hmark => ?_, fun hmark => absurd hmark.1 (by decide)⟩
    exact h '*' (head_of_encode hb (by rw [hmark.2]; rfl) (by decide)) (.inl ⟨rfl, rfl⟩)
  by_cases hstar : c = '*'
  · subst hstar
    refine commentUnits_cons fun b hb => ⟨fun hmark => absurd hmark.1 (by decide), fun hmark => ?_⟩
    exact h '/' (head_of_encode hb (by rw [hmark.2]; rfl) (by decide)) (.inr ⟨rfl, rfl⟩)
  · refine commentUnits_append (fun a ha => ⟨?_, ?_⟩) (encode cs)
    · rintro rfl
      exact hslash (Char.toNat_inj.mp (Text.ascii_mem_encodeChar (by decide) ha))
    · rintro rfl
      exact hstar (Char.toNat_inj.mp (Text.ascii_mem_encodeChar (by decide) ha))

theorem commentUnits_opener (cs : List Char) :
    commentUnits (encode ('/' :: '*' :: cs)) = .opener :: commentUnits (encode cs) := by
  show commentUnits (0x2f :: 0x2a :: encode cs) = _
  rw [commentUnits, if_pos ⟨rfl, rfl⟩]

theorem commentUnits_closer (cs : List Char) :
    commentUnits (encode ('*' :: '/' :: cs)) = .closer :: commentUnits (encode cs) := by
  show commentUnits (0x2a :: 0x2f :: encode cs) = _
  rw [commentUnits, if_neg (by decide), if_pos ⟨rfl, rfl⟩]

/-! ### How far the scanner reads

The scanner has a depth, and the statement has two numbers of marks.  `Counted` ties them together
at every point: the depth is by how much the closed may exceed the opened.
-/

/-- Of the units `read ++ later`, the units `read` are read with `depth` comments open around the
one that they end.  Up to their last one they never close more than is open, and they close all of
it, or they are all there is. -/
structure Counted (depth : Nat) (read later : List CommentUnit) : Prop where
  within : ∀ part, part <+: read → part ≠ read → closed part ≤ opened part + depth
  stops : read.getLast? = some .closer ∧ closed read = opened read + depth + 1 ∨
    later = [] ∧ closed read ≤ opened read + depth

namespace Counted

variable {depth depth' : Nat} {read later : List CommentUnit}

theorem nothing (depth : Nat) : Counted depth [] [] where
  within _ hpart hne := absurd (List.prefix_nil.mp hpart) hne
  stops := .inr ⟨rfl, Nat.zero_le _⟩

theorem last (later : List CommentUnit) : Counted 0 [.closer] later where
  within _ hpart hne := by
    rcases List.prefix_cons_iff.mp hpart with rfl | ⟨part, rfl, hnil⟩
    · exact Nat.zero_le _
    · rw [List.prefix_nil.mp hnil] at hne
      exact absurd rfl hne
  stops := .inl ⟨rfl, rfl⟩

/-- A unit in front, with as many comments open behind it as it leaves open. -/
theorem cons (h : Counted depth' read later) {u : CommentUnit}
    (hdepth : depth' + closed [u] = depth + opened [u]) : Counted depth (u :: read) later where
  within _ hpart hne := by
    rcases List.prefix_cons_iff.mp hpart with rfl | ⟨part, rfl, hlater⟩
    · exact Nat.zero_le _
    · have hle := h.within part hlater fun heq => hne (heq ▸ rfl)
      rw [opened_cons, closed_cons]
      omega
  stops := by
    rw [opened_cons, closed_cons]
    rcases h.stops with ⟨hlast, hbalance⟩ | ⟨hnil, hle⟩
    · refine .inl ⟨?_, by omega⟩
      rw [List.getLast?_cons, hlast]
      rfl
    · exact .inr ⟨hnil, by omega⟩

theorem bytes (h : Counted depth read later) (bs : Bytes) :
    Counted depth (bs.map .byte ++ read) later := by
  induction bs with
  | nil => exact h
  | cons b bs ih => exact ih.cons rfl

/-- The number of open comments never falls below zero. -/
theorem nesting_nonneg (h : Counted 0 read later) {part : List CommentUnit} (hpart : part <+: read) :
    0 ≤ nesting part := by
  have hle : closed part ≤ opened part + 1 := by
    by_cases hwhole : part = read
    · rw [hwhole]
      rcases h.stops with ⟨-, hbalance⟩ | ⟨-, hle⟩ <;> omega
    · have hle := h.within part hpart hwhole
      omega
  unfold nesting
  omega

/-- Units that close all that is open end with the first mark that does. -/
theorem endsComment (h : Counted 0 read later) (hlast : read.getLast? = some .closer)
    (hbalance : closed read = opened read + 1) : EndsComment (read ++ later) read where
  front := List.prefix_append read later
  closer := hlast
  balance := hbalance
  first part hpart hsame := by
    by_contra hshort
    have hfront : part <+: read :=
      List.prefix_of_prefix_length_le hpart (List.prefix_append read later) (by omega)
    have hle := h.within part hfront fun heq => hshort (heq ▸ Nat.le_refl _)
    omega

/-- Units that close less than is open do so all along. -/
theorem endless (h : Counted 0 read []) (hle : closed read ≤ opened read)
    {part : List CommentUnit} (hpart : part <+: read) : closed part ≠ opened part + 1 := by
  by_cases hwhole : part = read
  · rw [hwhole]
    omega
  · have hbelow := h.within part hpart hwhole
    omega

end Counted

/-- The bytes of units. -/
def unitBytes (units : List CommentUnit) : Bytes :=
  units.flatMap CommentUnit.bytes

theorem unitBytes_append (us vs : List CommentUnit) :
    unitBytes (us ++ vs) = unitBytes us ++ unitBytes vs :=
  List.flatMap_append

theorem unitBytes_bytes (bs : Bytes) : unitBytes (bs.map .byte) = bs := by
  induction bs with
  | nil => rfl
  | cons b bs ih => exact congrArg (b :: ·) ih

theorem unitBytes_commentUnits (bytes : Bytes) : unitBytes (commentUnits bytes) = bytes := by
  fun_induction commentUnits bytes with
  | case1 => rfl
  | case2 a => rfl
  | case3 a b rest hopen ih =>
      obtain ⟨rfl, rfl⟩ := hopen
      exact congrArg ([0x2f, 0x2a] ++ ·) ih
  | case4 a b rest hopen hclose ih =>
      obtain ⟨rfl, rfl⟩ := hclose
      exact congrArg ([0x2a, 0x2f] ++ ·) ih
  | case5 a b rest hopen hclose ih => exact congrArg (a :: ·) ih

/-- The units of a text are those of what is cut off, which are counted, and others behind them. -/
def CutOff (depth : Nat) (text inside rest : List Char) : Prop :=
  ∃ read later, commentUnits (encode text) = read ++ later ∧ unitBytes read = encode inside ∧
    unitBytes later = encode rest ∧ Counted depth read later

/-- Text in front that is read as units of its own. -/
theorem CutOff.prepend {depth depth' : Nat} {text inside rest : List Char}
    (h : CutOff depth' text inside rest) (front : List Char) (us : List CommentUnit)
    (hunits : commentUnits (encode (front ++ text)) = us ++ commentUnits (encode text))
    (hbytes : unitBytes us = encode front)
    (hcounted : ∀ read later, Counted depth' read later → Counted depth (us ++ read) later) :
    CutOff depth (front ++ text) (front ++ inside) rest := by
  obtain ⟨read, later, htext, hread, hlater, hcount⟩ := h
  refine ⟨us ++ read, later, ?_, ?_, hlater, hcounted read later hcount⟩
  · rw [hunits, htext, List.append_assoc]
  · rw [unitBytes_append, hbytes, hread, Text.encode_append]

theorem CutOff.char {depth : Nat} {c : Char} {cs inside rest : List Char}
    (h : CutOff depth cs inside rest) (hmark : ∀ d ∈ cs.head?, ¬ IsMark c d) :
    CutOff depth (c :: cs) (c :: inside) rest := by
  refine h.prepend [c] _ (commentUnits_encodeChar hmark) ?_ fun _ _ hcount => hcount.bytes _
  rw [unitBytes_bytes, Text.encode_cons]
  exact (List.append_nil _).symm

/-- **The inside of a comment is cut off behind units that close what is open.** -/
theorem splitComment_cutOff (depth : Nat) (text : List Char) :
    CutOff depth text (splitComment depth text).1 (splitComment depth text).2 := by
  have hnothing : ∀ depth, CutOff depth [] [] [] :=
    fun depth => ⟨[], [], rfl, rfl, rfl, .nothing depth⟩
  fun_induction splitComment depth text with
  | case1 depth => exact hnothing depth
  | case2 depth c => exact (hnothing depth).char fun d hd => absurd hd (by simp)
  | case3 depth c d cs hopen inside rest heq ih =>
      rw [heq] at ih
      obtain ⟨rfl, rfl⟩ := hopen
      exact ih.prepend ['/', '*'] [.opener] (commentUnits_opener cs) rfl
        fun _ _ hcount => hcount.cons rfl
  | case4 c d cs hopen hclose =>
      obtain ⟨rfl, rfl⟩ := hclose
      exact ⟨[.closer], commentUnits (encode cs), commentUnits_closer cs, rfl,
        unitBytes_commentUnits _, .last _⟩
  | case5 c d cs hopen hclose outer inside rest heq ih =>
      rw [heq] at ih
      obtain ⟨rfl, rfl⟩ := hclose
      exact ih.prepend ['*', '/'] [.closer] (commentUnits_closer cs) rfl
        fun _ _ hcount => hcount.cons rfl
  | case6 depth c d cs hopen hclose inside rest heq ih =>
      -- `d` is read again as the first character of what follows, so only `c` goes in front.
      rw [heq] at ih
      refine ih.char fun e he => ?_
      obtain rfl : d = e := Option.some.inj he
      exact not_or.mpr ⟨hopen, hclose⟩

/-! ### Where scanning goes on -/

/-- A comment adds nothing to the lexemes of a text. -/
theorem scanAt_comment (offset : Nat) (text : List Char) :
    scanAt offset ('/' :: '*' :: text)
      = scanAt (offset + byteSize ('/' :: '*' :: (splitComment 0 text).1)) (splitComment 0 text).2 :=
  scanAt_munch offset (munch_slash ('*' :: text))

/--
**A comment ends with the first mark at which one more has closed than opened.**

Its bytes are read from the left, and a byte belongs to one mark at most.  If there is no such mark,
the comment goes on to the end of the text.  While it is read, the number of open comments does not
fall below zero.  Scanning goes on behind it, which is between characters, and finds there what it
finds in the rest of the text alone, so many bytes further on.
-/
theorem comment_by_counting {source before text inside after : List Char}
    (hreaches : Reaches source before ('/' :: '*' :: text))
    (hsplit : splitComment 0 text = (inside, after)) :
    ∃ read later, commentUnits (encode text) = read ++ later ∧
      unitBytes read = encode inside ∧ unitBytes later = encode after ∧
      (EndsComment (commentUnits (encode text)) read ∨
        after = [] ∧ ∀ part, part <+: commentUnits (encode text) →
          closed part ≠ opened part + 1) ∧
      (∀ part, part <+: read → 0 ≤ nesting part) ∧
      Boundary source (byteSize before + 2 + (unitBytes read).length) ∧
      ∃ front, (∀ l ∈ front, l.span.stop ≤ byteSize before) ∧
        scan source = front ++
          (scan after).map (Lexeme.shift (byteSize before + 2 + (unitBytes read).length)) := by
  obtain ⟨read, later, hunits, hread, hlater, hcounted⟩ := splitComment_cutOff 0 text
  simp only [hsplit] at hread hlater
  have hoffset : byteSize before + 2 + (unitBytes read).length
      = byteSize (before ++ '/' :: '*' :: inside) := by
    have hmarks : byteSize ('/' :: '*' :: inside) = 1 + (1 + byteSize inside) := rfl
    rw [hread, Text.length_encode, Text.byteSize_append, hmarks]
    omega
  have hsource : source = before ++ '/' :: '*' :: inside ++ after := by
    have hwhole := splitComment_append 0 text
    rw [hsplit] at hwhole
    rw [← hreaches.whole, ← hwhole]
    simp
  refine ⟨read, later, hunits, hread, hlater, ?_, fun part => hcounted.nesting_nonneg, ?_, ?_⟩
  · rw [hunits]
    rcases hcounted.stops with ⟨hlast, hbalance⟩ | ⟨rfl, hle⟩
    · exact .inl (hcounted.endsComment hlast hbalance)
    · refine .inr ⟨?_, fun part hpart => hcounted.endless hle ?_⟩
      · have hsize := Text.length_encode after
        rw [← hlater] at hsize
        exact Text.eq_nil_of_byteSize hsize.symm
      · rwa [List.append_nil] at hpart
  · rw [hoffset, hsource]
    exact Text.boundary_append _ after
  · obtain ⟨front, hscan, hfront⟩ := hreaches.scan_split
    refine ⟨front, hfront, ?_⟩
    have hshift := scanFrom_shift (byteSize (before ++ '/' :: '*' :: inside)) after.length 0 after
    rw [hoffset, hscan, scanAt_comment, hsplit, ← Text.byteSize_append]
    exact congrArg (front ++ ·) hshift

/-- The text `f/*é/*/ **/*/g`. -/
def nestedCommentText : List Char :=
  ['f', '/', '*', 'é', '/', '*', '/', ' ', '*', '*', '/', '*', '/', 'g']

/-- The marks in `/*/` and `**/` do not overlap. -/
theorem comment_by_counting_nested :
    ∃ read later, commentUnits (encode (nestedCommentText.drop 3)) = read ++ later ∧
      unitBytes read = encode ['é', '/', '*', '/', ' ', '*', '*', '/', '*', '/'] ∧
      EndsComment (commentUnits (encode (nestedCommentText.drop 3))) read ∧
      (∀ part, part <+: read → 0 ≤ nesting part) ∧ Boundary nestedCommentText 14 ∧
      ∃ front, scan nestedCommentText = front ++ [⟨some .ident, ⟨14, 15⟩⟩] := by
  have hreaches : Reaches nestedCommentText ['f'] ('/' :: '*' :: nestedCommentText.drop 3) :=
    Reaches.on .start
  have hsplit : splitComment 0 (nestedCommentText.drop 3)
      = (['é', '/', '*', '/', ' ', '*', '*', '/', '*', '/'], ['g']) := by decide
  obtain ⟨read, later, hunits, hread, -, hends, hnesting, hboundary, front, -, hscan⟩ :=
    comment_by_counting hreaches hsplit
  rw [hread] at hboundary hscan
  refine ⟨read, later, hunits, hread, hends.resolve_right ?_, hnesting, hboundary, front, hscan⟩
  rintro ⟨hnil, -⟩
  cases hnil

end VServer.Token
