/-
What the line and the column of an offset count.

An offset falls between two characters or inside one.  In both cases it belongs to the text that
ends before it, so its line is told by the newlines of that text.  The column counts from the last
of these newlines on, and only an offset between characters has one.

Of two offsets between characters the later one has more text before it.  Either that text has a
newline more, or it goes on the same line by at least one code unit.  So positions increase with
the offsets: `position_counts`.

Both statements are about a text that is split at the offset, or around the character that the
offset falls into.  What stands behind plays no part in either, so all that is done with it is to
carry it along.
-/
import VServer.Proofs.Text.Lines
import Mathlib.Data.List.DropRight

namespace VServer

open Text (byteSize takeBytes Boundary)

/-! ### Sizes -/

@[simp] theorem utf16Length_nil : utf16Length [] = 0 := rfl

@[simp] theorem utf16Length_append (cs ds : List Char) :
    utf16Length (cs ++ ds) = utf16Length cs + utf16Length ds := by
  induction cs with
  | nil => simp [utf16Length]
  | cons c cs ih => simp [utf16Length, ih, Nat.add_assoc]

theorem units16_pos (c : Char) : 0 < units16 c := by
  unfold units16
  split <;> omega

theorem utf16Length_pos {cs : List Char} (h : cs ≠ []) : 0 < utf16Length cs := by
  obtain ⟨c, cs, rfl⟩ := List.exists_cons_of_ne_nil h
  exact Nat.add_pos_left (units16_pos c) _

/-- A character takes at least as many bytes as code units. -/
theorem units16_le_utf8Size (c : Char) : units16 c ≤ c.utf8Size := by
  have hpos := c.utf8Size_pos
  unfold units16
  by_cases hlow : c.toNat < 0x10000
  · rw [if_pos hlow]
    exact hpos
  · -- One byte holds a character below 128 only.
    have hmany : c.utf8Size ≠ 1 := by
      intro hone
      have hval := UInt32.le_iff_toNat_le.mp (Char.utf8Size_eq_one_iff.mp hone)
      exact hlow (Nat.lt_of_le_of_lt hval (by decide))
    rw [if_neg hlow]
    omega

theorem utf16Length_le_byteSize (cs : List Char) : utf16Length cs ≤ byteSize cs := by
  induction cs with
  | nil => exact Nat.le_refl 0
  | cons c cs ih => exact Nat.add_le_add (units16_le_utf8Size c) ih

theorem length_le_byteSize (cs : List Char) : cs.length ≤ byteSize cs := by
  induction cs with
  | nil => exact Nat.le_refl 0
  | cons c cs ih =>
      have hpos := c.utf8Size_pos
      simp only [List.length_cons, byteSize]
      omega

/-! ### Where an offset falls

An offset inside a character has the text in front of that character before it.  Its line is not in
doubt, since a newline is one byte long and no offset falls inside one.
-/

/-- The offset falls inside the character `c`, behind the text `front`. -/
def Inside (text front : List Char) (c : Char) (offset : Nat) : Prop :=
  ∃ back, text = front ++ c :: back ∧ byteSize front < offset ∧
    offset < byteSize front + c.utf8Size

theorem boundary_or_inside (text : List Char) :
    ∀ offset, offset ≤ byteSize text →
      Boundary text offset ∨ ∃ front c, Inside text front c offset := by
  induction text with
  | nil =>
      intro offset hle
      obtain rfl : offset = 0 := Nat.le_zero.mp hle
      exact .inl (Text.boundary_append [] [])
  | cons c cs ih =>
      intro offset hle
      simp only [byteSize] at hle
      by_cases hzero : offset = 0
      · subst hzero
        exact .inl (Text.boundary_append [] (c :: cs))
      by_cases hinside : offset < c.utf8Size
      · exact .inr ⟨[], c, cs, rfl, by simp; omega, by simpa using hinside⟩
      · rcases ih (offset - c.utf8Size) (by omega) with ⟨front, back, rfl, hfront⟩ |
          ⟨front, d, back, rfl, hlt, hgt⟩
        · exact .inl ⟨c :: front, back, rfl, by simp only [byteSize]; omega⟩
        · exact .inr ⟨c :: front, d, back, rfl, by simp only [byteSize]; omega,
            by simp only [byteSize]; omega⟩

theorem takeBytes_behind (front rest : List Char) (n : Nat) :
    takeBytes (byteSize front + n) (front ++ rest) = front ++ takeBytes n rest := by
  induction front with
  | nil => simp
  | cons c cs ih =>
      have hle : c.utf8Size ≤ c.utf8Size + byteSize cs + n := by omega
      have hless : c.utf8Size + byteSize cs + n - c.utf8Size = byteSize cs + n := by omega
      simp only [byteSize, List.cons_append, takeBytes, if_pos hle, hless, ih]

theorem headOfBytes?_behind (front rest : List Char) (n : Nat) :
    headOfBytes? (byteSize front + n) (front ++ rest) = (headOfBytes? n rest).map (front ++ ·) := by
  induction front with
  | nil => simp
  | cons c cs ih =>
      have hpos := c.utf8Size_pos
      have hne : ¬ (c.utf8Size + byteSize cs + n = 0) := by omega
      have hle : c.utf8Size ≤ c.utf8Size + byteSize cs + n := by omega
      have hless : c.utf8Size + byteSize cs + n - c.utf8Size = byteSize cs + n := by omega
      simp only [byteSize, List.cons_append, headOfBytes?, if_neg hne, if_pos hle, hless, ih,
        Option.map_map]
      rfl

theorem headOfBytes?_zero (text : List Char) : headOfBytes? 0 text = some [] := by
  cases text <;> simp [headOfBytes?]

/-- The text in front of an offset that falls inside a character. -/
theorem Inside.takeBytes {text front : List Char} {c : Char} {offset : Nat}
    (h : Inside text front c offset) : takeBytes offset text = front := by
  obtain ⟨back, rfl, hlt, hgt⟩ := h
  obtain ⟨n, rfl⟩ := Nat.exists_eq_add_of_lt hlt
  have hcut : ¬ c.utf8Size ≤ n + 1 := by omega
  rw [Nat.add_assoc, takeBytes_behind, Text.takeBytes, if_neg hcut, List.append_nil]

theorem Inside.not_boundary {text front : List Char} {c : Char} {offset : Nat}
    (h : Inside text front c offset) : ¬ Boundary text offset := by
  obtain ⟨back, rfl, hlt, hgt⟩ := h
  rintro ⟨before, behind, heq, rfl⟩
  rcases List.append_eq_append_iff.mp heq with ⟨more, rfl, hmore⟩ | ⟨more, rfl, -⟩
  · cases more with
    | nil => simp at hlt
    | cons d more =>
        obtain ⟨rfl, -⟩ := List.cons.inj hmore
        simp only [Text.byteSize_append, byteSize] at hgt
        omega
  · rw [Text.byteSize_append] at hlt
    omega

/-- A newline is one byte, so no offset falls inside it. -/
theorem Inside.ne_newline {text front : List Char} {c : Char} {offset : Nat}
    (h : Inside text front c offset) : c ≠ '\n' := by
  obtain ⟨back, rfl, hlt, hgt⟩ := h
  rintro rfl
  have hsize : '\n'.utf8Size = 1 := rfl
  omega

namespace LineIndex

/-! ### One line

A text is split into the lines in front and the last line.  By `position_behind` the lines in front
only move the position down, so that what is left to count is a text without newlines.
-/

/-- All of a text without newlines is on the first line. -/
theorem position_line {line : List Char} (h : '\n' ∉ line) {n : Nat} (hn : n ≤ byteSize line) :
    (ofText line).position line n = ⟨0, ((headOfBytes? n line).map utf16Length).getD 0⟩ := by
  have hnone : lineStartsFrom 0 line = [] := by
    refine List.eq_nil_of_length_eq_zero ?_
    rw [length_lineStartsFrom, List.count_eq_zero_of_not_mem h]
  have hdrop : Text.dropBytes 0 line = line := Text.dropBytes_append [] line
  simp only [position_eq, Nat.min_eq_left hn, hnone, lineAt, hdrop, Nat.sub_zero]

/-- The part of a text that stands on its last line. -/
def lastLine (text : List Char) : List Char :=
  text.rtakeWhile (· != '\n')

theorem newline_notMem_lastLine (text : List Char) : '\n' ∉ lastLine text := by
  intro hmem
  simpa using List.mem_rtakeWhile_imp hmem

/-- In front of its last line a text ends with a newline, or there is nothing. -/
theorem exists_lastLine (text : List Char) :
    ∃ lines, text = lines ++ lastLine text ∧ EndsBeforeLine lines ∧
      lines.count '\n' = text.count '\n' := by
  refine ⟨text.rdropWhile (· != '\n'), List.rdropWhile_append_rtakeWhile.symm, ?_, ?_⟩
  · by_cases hnil : text.rdropWhile (· != '\n') = []
    · exact .inl hnil
    · refine .inr ?_
      have hlast := List.rdropWhile_last_not (· != '\n') text hnil
      rw [List.getLast?_eq_some_getLast hnil]
      simpa using hlast
  · have hsplit : text.rdropWhile (· != '\n') ++ lastLine text = text :=
      List.rdropWhile_append_rtakeWhile
    have hcount := congrArg (List.count '\n') hsplit
    rwa [List.count_append, List.count_eq_zero_of_not_mem (newline_notMem_lastLine text),
      Nat.add_zero] at hcount

theorem lastLine_append (text : List Char) {more : List Char} (h : '\n' ∉ more) :
    lastLine (text ++ more) = lastLine text ++ more := by
  have hall : ∀ c ∈ more.reverse, (c != '\n') = true := by
    intro c hc
    simpa using fun hnewline : c = '\n' => h (hnewline ▸ List.mem_reverse.mp hc)
  simp only [lastLine, List.rtakeWhile, List.reverse_append, List.takeWhile_append_of_pos hall,
    List.reverse_reverse]

/-- An offset at most `n` bytes behind `front`, with no newline between them. -/
theorem position_near (front back : List Char) {more : List Char} (hmore : '\n' ∉ more) {n : Nat}
    (hn : n ≤ byteSize more) :
    (ofText (front ++ more ++ back)).position (front ++ more ++ back) (byteSize front + n)
      = ⟨front.count '\n',
          ((headOfBytes? n more).map fun head => utf16Length (lastLine front ++ head)).getD 0⟩ := by
  obtain ⟨lines, hlines, hends, hcount⟩ := exists_lastLine front
  have hline : '\n' ∉ lastLine front ++ more := by
    simp [newline_notMem_lastLine, hmore]
  have hsize : byteSize front + n = byteSize lines + (byteSize (lastLine front) + n) := by
    rw [← Nat.add_assoc, ← Text.byteSize_append, ← hlines]
  have hwhole : front ++ more = lines ++ (lastLine front ++ more) := by
    rw [← List.append_assoc, ← hlines]
  rw [position_front (front ++ more) back (by rw [Text.byteSize_append]; omega), hsize, hwhole,
    position_behind hends, position_line hline (by rw [Text.byteSize_append]; omega),
    headOfBytes?_behind, Option.map_map, hcount]
  rfl

/-! ### Between characters and inside them -/

theorem position_boundary (front back : List Char) :
    (ofText (front ++ back)).position (front ++ back) (byteSize front)
      = ⟨front.count '\n', utf16Length (lastLine front)⟩ := by
  have hnear := @position_near front back [] (by simp) 0 (Nat.zero_le _)
  simpa [headOfBytes?_zero] using hnear

theorem position_inside {text front : List Char} {c : Char} {offset : Nat}
    (h : Inside text front c offset) :
    (ofText text).position text offset = ⟨front.count '\n', 0⟩ := by
  have hnewline : '\n' ∉ [c] := by simpa using h.ne_newline.symm
  obtain ⟨back, rfl, hlt, hgt⟩ := h
  obtain ⟨n, rfl⟩ := Nat.exists_eq_add_of_lt hlt
  have hcut : headOfBytes? (n + 1) [c] = none := by
    have hnot : ¬ c.utf8Size ≤ n + 1 := by omega
    simp [headOfBytes?, hnot]
  have hnear := position_near front back hnewline (n := n + 1) (by simp only [byteSize]; omega)
  rw [hcut] at hnear
  simpa [Nat.add_assoc] using hnear

/-- Behind more text a position is a later one. -/
theorem position_lt (front : List Char) {more : List Char} (hmore : more ≠ []) (back : List Char) :
    (ofText (front ++ more ++ back)).position (front ++ more ++ back) (byteSize front)
      < (ofText (front ++ more ++ back)).position (front ++ more ++ back)
          (byteSize (front ++ more)) := by
  have hfirst := position_boundary front (more ++ back)
  rw [← List.append_assoc] at hfirst
  rw [hfirst, position_boundary (front ++ more) back]
  by_cases hnewline : '\n' ∈ more
  · left
    have hpos : 0 < more.count '\n' := List.count_pos_iff.mpr hnewline
    show front.count '\n' < (front ++ more).count '\n'
    rw [List.count_append]
    omega
  · right
    refine ⟨?_, ?_⟩
    · show front.count '\n' = (front ++ more).count '\n'
      rw [List.count_append, List.count_eq_zero_of_not_mem hnewline, Nat.add_zero]
    · show utf16Length (lastLine front) < utf16Length (lastLine (front ++ more))
      have hpos : 0 < utf16Length more := utf16Length_pos hmore
      rw [lastLine_append front hnewline, utf16Length_append]
      omega

/-- Two offsets between characters have some text between them. -/
theorem position_lt_of_boundary {text : List Char} {a b : Nat} (ha : Boundary text a)
    (hb : Boundary text b) (hlt : a < b) :
    (ofText text).position text a < (ofText text).position text b := by
  obtain ⟨front, rest, rfl, rfl⟩ := ha
  obtain ⟨through, back, heq, rfl⟩ := hb
  rcases List.append_eq_append_iff.mp heq with ⟨more, rfl, rfl⟩ | ⟨more, rfl, rfl⟩
  · have hmore : more ≠ [] := by
      rintro rfl
      simp at hlt
    rw [← List.append_assoc]
    exact position_lt front hmore back
  · rw [Text.byteSize_append] at hlt
    omega

theorem position_injective {text : List Char} {a b : Nat} (ha : Boundary text a)
    (hb : Boundary text b)
    (heq : (ofText text).position text a = (ofText text).position text b) : a = b := by
  have hirrefl : ∀ p : Position, ¬ p < p := by
    intro p hp
    rcases hp with hline | ⟨-, hcharacter⟩
    · exact Nat.lt_irrefl _ hline
    · exact Nat.lt_irrefl _ hcharacter
  rcases Nat.lt_trichotomy a b with hlt | hsame | hlt
  · exact absurd (heq ▸ position_lt_of_boundary ha hb hlt) (hirrefl _)
  · exact hsame
  · exact absurd (heq ▸ position_lt_of_boundary hb ha hlt) (hirrefl _)

theorem lineCount_ofText (text : List Char) : (ofText text).lineCount = text.count '\n' + 1 := by
  show (0 :: lineStartsFrom 0 text).length = _
  rw [List.length_cons, length_lineStartsFrom]

/-- An offset behind the text has the position of its end. -/
theorem position_min (text : List Char) (offset : Nat) :
    (ofText text).position text offset
      = (ofText text).position text (min offset (byteSize text)) := by
  simp only [position, Nat.min_assoc, Nat.min_self]

/-- What the position `p` of an offset counts that is not behind the text. -/
structure Counts (text : List Char) (offset : Nat) (p : Position) : Prop where
  line : p.line = (takeBytes offset text).count '\n'
  between : ∀ front back, text = front ++ back → byteSize front = offset →
    p.character = utf16Length (lastLine front)
  inside : ¬ Boundary text offset → p.character = 0
  line_le : p.line ≤ byteSize text
  character_le : p.character ≤ byteSize text

theorem count_newline_le (front back : List Char) :
    front.count '\n' ≤ byteSize (front ++ back) := by
  have hlength := length_le_byteSize front
  have hcount := List.count_le_length (a := '\n') (l := front)
  rw [Text.byteSize_append]
  omega

theorem utf16Length_lastLine_le (front back : List Char) :
    utf16Length (lastLine front) ≤ byteSize (front ++ back) := by
  obtain ⟨lines, hlines, -, -⟩ := exists_lastLine front
  have hsize := congrArg byteSize hlines
  have hunits := utf16Length_le_byteSize (lastLine front)
  rw [Text.byteSize_append] at hsize ⊢
  omega

theorem counts_position (text : List Char) {offset : Nat} (hle : offset ≤ byteSize text) :
    Counts text offset ((ofText text).position text offset) := by
  rcases boundary_or_inside text offset hle with ⟨front, back, rfl, rfl⟩ | ⟨front, c, hinside⟩
  · rw [position_boundary]
    refine ⟨by rw [Text.takeBytes_append], ?_, ?_, count_newline_le front back,
      utf16Length_lastLine_le front back⟩
    · intro front' back' htext hsize
      have hsame := position_boundary front' back'
      rw [← htext, hsize, position_boundary] at hsame
      exact congrArg Position.character hsame
    · intro hnot
      exact absurd (Text.boundary_append front back) hnot
  · rw [position_inside hinside]
    have htake := hinside.takeBytes
    have hnot := hinside.not_boundary
    obtain ⟨back, rfl, -, -⟩ := hinside
    refine ⟨by rw [htake], ?_, fun _ => rfl, count_newline_le front _, Nat.zero_le _⟩
    intro front' back' htext hsize
    exact absurd ⟨front', back', htext, hsize⟩ hnot

/-- The search ends at a line, or behind one. -/
theorem search_within (text : List Char) (offset : Nat) :
    (∀ line, (ofText text).search offset = .found line → line < (ofText text).lineCount) ∧
      ∀ next, (ofText text).search offset = .missing next →
        0 < next ∧ next ≤ (ofText text).lineCount := by
  obtain ⟨line, start, hholds, hsearch⟩ := search_eq (ofText_ordered text) offset
  have hline : line < (ofText text).lineCount := (Array.getElem?_eq_some_iff.mp hholds.starts).1
  rw [hsearch]
  by_cases heq : start = offset
  · rw [if_pos heq]
    refine ⟨?_, by simp⟩
    rintro line' ⟨⟩
    exact hline
  · rw [if_neg heq]
    refine ⟨by simp, ?_⟩
    rintro next ⟨⟩
    omega

/--
**A position counts the newlines in front of an offset and the code units behind the last one.**

The column is that of an offset between characters; inside a character it is zero.  For a text of
less than 2^32 bytes both numbers fit in 32 bits.  Between characters positions increase with
the offsets, so no two of them have the same one.  There is one line more than there are newlines,
and a search that finds no line has passed at least one.
-/
theorem position_counts (text : List Char) (hsize : byteSize text < UInt32.size) :
    let index := ofText text
    (∀ offset, Counts text (min offset (byteSize text)) (index.position text offset) ∧
      (index.position text offset).line < UInt32.size ∧
      (index.position text offset).character < UInt32.size) ∧
    (∀ a b, Boundary text a → Boundary text b → a < b →
      index.position text a < index.position text b) ∧
    (∀ a b, Boundary text a → Boundary text b →
      index.position text a = index.position text b → a = b) ∧
    index.lineCount = text.count '\n' + 1 ∧
    (∀ offset line, index.search offset = .found line → line < index.lineCount) ∧
    ∀ offset next, index.search offset = .missing next → 0 < next ∧ next ≤ index.lineCount := by
  refine ⟨?_, fun a b => position_lt_of_boundary, fun a b => position_injective,
    lineCount_ofText text, fun offset => (search_within text offset).1,
    fun offset => (search_within text offset).2⟩
  intro offset
  have hcounts := counts_position text (Nat.min_le_right offset (byteSize text))
  rw [← position_min] at hcounts
  have hline := hcounts.line_le
  have hcharacter := hcounts.character_le
  exact ⟨hcounts, by omega, by omega⟩

/-- A line with characters of two and of four bytes, and one behind it. -/
def wideText : List Char :=
  "é😀\nx".toList

/-- The fourth byte is inside a character, the newline stands in column three, and the next line
starts behind it. -/
theorem position_counts_wideText :
    byteSize wideText < UInt32.size ∧
    ((ofText wideText).position wideText 4).character = 0 ∧
    ((ofText wideText).position wideText 6).character = 3 ∧
    (ofText wideText).position wideText 6 < (ofText wideText).position wideText 7 ∧
    ((ofText wideText).position wideText 100).line = 1 := by
  have hsize : byteSize wideText = 8 := by decide +kernel
  have hfour : Inside wideText ['é'] '😀' 4 :=
    ⟨['\n', 'x'], by decide, by decide +kernel, by decide +kernel⟩
  have hsix : Boundary wideText 6 := ⟨['é', '😀'], ['\n', 'x'], by decide, by decide +kernel⟩
  have hseven : Boundary wideText 7 := ⟨['é', '😀', '\n'], ['x'], by decide, by decide +kernel⟩
  have hfits : byteSize wideText < UInt32.size := by
    rw [hsize]
    decide
  obtain ⟨hcounts, hlt, -⟩ := position_counts wideText hfits
  rw [hsize] at hcounts
  refine ⟨hfits, (hcounts 4).1.inside hfour.not_boundary, ?_,
    hlt 6 7 hsix hseven (by decide), ?_⟩
  · rw [(hcounts 6).1.between ['é', '😀'] ['\n', 'x'] (by decide) (by decide +kernel)]
    decide +kernel
  · rw [(hcounts 100).1.line]
    decide +kernel

end LineIndex

end VServer
