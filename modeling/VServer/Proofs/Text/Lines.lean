/-
Lines of a text behind another one.

The lines of two texts together are the lines of the first one and then those of the second one,
further on.  If the first text ends with a newline, or is empty, the first line of the second text
starts where the first text ends.  So a place in the second text lies as many lines further down
as there are newlines in the first one, and at the same column: `position_behind`.  A place in the
first text does not move at all: `position_front`.

Both go along the lines from the first one on, which comes to the same as halving:
`position_eq`.
-/
import VServer.Proofs.Text.Halving
import VServer.Proofs.Text.Span
import Mathlib.Data.List.Count

namespace VServer

open Text (byteSize dropBytes Boundary)

/-- The position `n` lines further down. -/
def Position.down (n : Nat) (p : Position) : Position :=
  { p with line := n + p.line }

/-- The range `n` lines further down. -/
def Range.down (n : Nat) (r : Range) : Range :=
  ⟨r.first.down n, r.last.down n⟩

/-! ### Bytes of two texts -/

theorem dropBytes_behind (before text : List Char) (n : Nat) :
    dropBytes (byteSize before + n) (before ++ text) = dropBytes n text := by
  induction before with
  | nil => simp
  | cons c cs ih =>
      have hpos := c.utf8Size_pos
      have hne : ¬ (c.utf8Size + byteSize cs + n = 0) := by omega
      have hless : c.utf8Size + byteSize cs + n - c.utf8Size = byteSize cs + n := by omega
      simp only [byteSize, List.cons_append, dropBytes, if_neg hne, hless]
      exact ih

/-- The part of a text up to a byte inside it does not depend on what follows. -/
theorem headOfBytes?_front (text more : List Char) :
    ∀ n, n ≤ byteSize text → headOfBytes? n (text ++ more) = headOfBytes? n text := by
  induction text with
  | nil =>
      intro n hn
      obtain rfl : n = 0 := Nat.le_zero.mp hn
      cases more <;> simp [headOfBytes?]
  | cons c cs ih =>
      intro n hn
      simp only [byteSize] at hn
      simp only [List.cons_append, headOfBytes?, ih (n - c.utf8Size) (by omega)]

/-! ### Where lines start -/

theorem lineStartsFrom_append (text more : List Char) :
    ∀ offset, lineStartsFrom offset (text ++ more)
      = lineStartsFrom offset text ++ lineStartsFrom (offset + byteSize text) more := by
  induction text with
  | nil => intro offset; rfl
  | cons c cs ih =>
      intro offset
      simp only [List.cons_append, lineStartsFrom, byteSize, ih, Nat.add_assoc]
      split <;> rfl

theorem lineStartsFrom_shift (n : Nat) (text : List Char) :
    ∀ offset, lineStartsFrom (n + offset) text = (lineStartsFrom offset text).map (n + ·) := by
  induction text with
  | nil => intro offset; rfl
  | cons c cs ih =>
      intro offset
      simp only [lineStartsFrom, Nat.add_assoc, ih]
      split <;> rfl

theorem length_lineStartsFrom (text : List Char) :
    ∀ offset, (lineStartsFrom offset text).length = text.count '\n' := by
  induction text with
  | nil => intro offset; rfl
  | cons c cs ih =>
      intro offset
      by_cases hc : c = '\n'
      · simp [lineStartsFrom, hc, ih]
      · simp [lineStartsFrom, hc, ih]

/-- A line starts behind a newline, so behind at least one byte, and between characters. -/
theorem mem_lineStartsFrom (text : List Char) :
    ∀ (before : List Char), ∀ s ∈ lineStartsFrom (byteSize before) text,
      byteSize before < s ∧ Boundary (before ++ text) s := by
  induction text with
  | nil => intro before s hs; simp [lineStartsFrom] at hs
  | cons c cs ih =>
      intro before s hs
      have hpos := c.utf8Size_pos
      have hnext : byteSize before + c.utf8Size = byteSize (before ++ [c]) := by
        rw [Text.byteSize_append]
        rfl
      have hlater : s ∈ lineStartsFrom (byteSize (before ++ [c])) cs →
          byteSize before < s ∧ Boundary (before ++ c :: cs) s := by
        intro hs
        obtain ⟨hlt, hboundary⟩ := ih (before ++ [c]) s hs
        rw [List.append_assoc, List.singleton_append] at hboundary
        exact ⟨by omega, hboundary⟩
      simp only [lineStartsFrom, hnext] at hs
      split at hs
      · rcases List.mem_cons.mp hs with rfl | hs
        · have hboundary := Text.boundary_append (before ++ [c]) cs
          rw [List.append_assoc, List.singleton_append] at hboundary
          exact ⟨by omega, hboundary⟩
        · exact hlater hs
      · exact hlater hs

/-- The line behind the last newline of a text starts where the text ends. -/
theorem getLast?_lineStartsFrom {text : List Char} (h : text.getLast? = some '\n') (offset : Nat) :
    (lineStartsFrom offset text).getLast? = some (offset + byteSize text) := by
  obtain ⟨front, rfl⟩ : ∃ front, text = front ++ ['\n'] :=
    ⟨_, (List.dropLast_append_getLast? '\n' h).symm⟩
  rw [lineStartsFrom_append, Text.byteSize_append, List.getLast?_append]
  simp [lineStartsFrom, byteSize, Nat.add_assoc]

theorem lineStartsFrom_increasing (text : List Char) :
    ∀ before : List Char, (lineStartsFrom (byteSize before) text).Pairwise (· < ·) := by
  induction text with
  | nil => intro before; exact List.Pairwise.nil
  | cons c cs ih =>
      intro before
      have hnext : byteSize before + c.utf8Size = byteSize (before ++ [c]) := by
        rw [Text.byteSize_append]
        rfl
      simp only [lineStartsFrom, hnext]
      split
      · refine List.pairwise_cons.mpr ⟨?_, ih (before ++ [c])⟩
        intro s hs
        exact (mem_lineStartsFrom cs (before ++ [c]) s hs).1
      · exact ih (before ++ [c])

/-! ### The line of a byte

`lineAt` goes along the starts of lines one by one.  It is slower than halving, and it is the one
to reason with, since a text behind another one adds starts to the end of the list.
-/

namespace LineIndex

theorem ofText_ordered (text : List Char) : (ofText text).Ordered := by
  refine ⟨rfl, List.pairwise_cons.mpr ⟨?_, lineStartsFrom_increasing text []⟩⟩
  intro s hs
  exact (mem_lineStartsFrom text [] s hs).1

/-- Number and start of the line that holds an offset, where line `line` starts at `start` and
the lines behind it at `later`. -/
def lineAt (offset line start : Nat) : List Nat → Nat × Nat
  | [] => (line, start)
  | next :: later => if next ≤ offset then lineAt offset (line + 1) next later else (line, start)

/-- Going along the lines ends at the line that holds the offset. -/
theorem lineAt_reaches {offset : Nat} :
    ∀ (later : List Nat) (line start : Nat), start ≤ offset →
      (start :: later).Pairwise (· < ·) → ∃ n, (lineAt offset line start later).1 = line + n ∧
        (start :: later)[n]? = some (lineAt offset line start later).2 ∧
        (lineAt offset line start later).2 ≤ offset ∧
        ∀ n' start', n < n' → (start :: later)[n']? = some start' → offset < start' := by
  intro later
  induction later with
  | nil =>
      intro line start hstart _
      refine ⟨0, rfl, rfl, hstart, ?_⟩
      intro n' start' hn' hfound
      simp [Nat.ne_of_gt hn'] at hfound
  | cons next later ih =>
      intro line start hstart hincreasing
      obtain ⟨-, hlater⟩ := List.pairwise_cons.mp hincreasing
      by_cases hle : next ≤ offset
      · obtain ⟨n, hline, hfound, hreached, hbehind⟩ := ih (line + 1) next hle hlater
        rw [lineAt, if_pos hle]
        refine ⟨n + 1, by omega, hfound, hreached, ?_⟩
        intro n' start' hn' hfound'
        obtain ⟨n', rfl⟩ : ∃ m, n' = m + 1 := ⟨n' - 1, by omega⟩
        exact hbehind n' start' (by omega) hfound'
      · rw [lineAt, if_neg hle]
        refine ⟨0, rfl, rfl, hstart, ?_⟩
        intro n' start' hn' hfound'
        obtain ⟨n', rfl⟩ : ∃ m, n' = m + 1 := ⟨n' - 1, by omega⟩
        have hmem : start' ∈ next :: later := List.mem_of_getElem? hfound'
        rcases List.mem_cons.mp hmem with rfl | hmem
        · omega
        · have hnext := (List.pairwise_cons.mp hlater).1 start' hmem
          omega

theorem holds_lineAt (text : List Char) (offset : Nat) :
    (ofText text).Holds offset (lineAt offset 0 0 (lineStartsFrom 0 text)).1
      (lineAt offset 0 0 (lineStartsFrom 0 text)).2 := by
  obtain ⟨n, hline, hfound, hreached, hbehind⟩ := lineAt_reaches (lineStartsFrom 0 text) 0 0
    (Nat.zero_le offset) (ofText_ordered text).increasing
  rw [Nat.zero_add] at hline
  rw [← hline] at hfound hbehind
  refine ⟨?_, hreached, ?_⟩
  · rw [ofText, List.getElem?_toArray]
    exact hfound
  · intro line' start' hlt hstart
    rw [ofText, List.getElem?_toArray] at hstart
    exact hbehind line' start' hlt hstart

/-- **Halving comes to the line that going along the lines comes to.** -/
theorem position_eq (text : List Char) (offset : Nat) :
    (ofText text).position text offset =
      let offset := min offset (byteSize text)
      let (line, start) := lineAt offset 0 0 (lineStartsFrom 0 text)
      let column := (headOfBytes? (offset - start) (dropBytes start text)).map utf16Length
      ⟨line, column.getD 0⟩ := by
  have hholds := holds_lineAt text (min offset (byteSize text))
  obtain ⟨start, hfound⟩ := lineOf_holds (ofText_ordered text) (min offset (byteSize text))
  have hstart : (ofText text).starts.getD (lineAt (min offset (byteSize text)) 0 0
      (lineStartsFrom 0 text)).1 0
        = (lineAt (min offset (byteSize text)) 0 0 (lineStartsFrom 0 text)).2 := by
    rw [Array.getD_eq_getD_getElem?, hholds.starts, Option.getD_some]
  simp only [position, hfound.unique hholds, hstart]

/-- Lines that start at or before the byte are passed over. -/
theorem lineAt_pass {offset : Nat} (later : List Nat) :
    ∀ (starts : List Nat) (line start : Nat), (∀ s ∈ starts, s ≤ offset) →
      lineAt offset line start (starts ++ later)
        = lineAt offset (line + starts.length) (starts.getLast?.getD start) later := by
  intro starts
  induction starts with
  | nil => intro line start _; rfl
  | cons s starts ih =>
      intro line start hall
      rw [List.cons_append, lineAt, if_pos (hall s List.mem_cons_self),
        ih _ _ fun u hu => hall u (List.mem_cons_of_mem s hu), List.length_cons,
        List.getLast?_cons, Option.getD_some, Nat.add_assoc, Nat.add_comm 1]

/-- Lines that start behind the byte do not count. -/
theorem lineAt_front {offset : Nat} (later : List Nat) (hlater : ∀ s ∈ later, offset < s) :
    ∀ (starts : List Nat) (line start : Nat),
      lineAt offset line start (starts ++ later) = lineAt offset line start starts := by
  intro starts
  induction starts with
  | nil =>
      intro line start
      cases later with
      | nil => rfl
      | cons s later =>
          have hs : ¬ s ≤ offset := Nat.not_le.mpr (hlater s List.mem_cons_self)
          simp only [List.nil_append, lineAt, if_neg hs]
  | cons s starts ih =>
      intro line start
      rw [List.cons_append, lineAt, lineAt, ih]

theorem lineAt_shift (n offset down : Nat) :
    ∀ (starts : List Nat) (line start : Nat),
      lineAt (n + offset) (down + line) (n + start) (starts.map (n + ·))
        = (down + (lineAt offset line start starts).1,
            n + (lineAt offset line start starts).2) := by
  intro starts
  induction starts with
  | nil => intro line start; rfl
  | cons s starts ih =>
      intro line start
      by_cases hle : s ≤ offset
      · rw [List.map_cons, lineAt, if_pos (Nat.add_le_add_left hle n), lineAt, if_pos hle,
          Nat.add_assoc, ih]
      · rw [List.map_cons, lineAt, if_neg (by omega), lineAt, if_neg hle]

/-- The line of a byte starts at or before it. -/
theorem lineAt_start {offset : Nat} :
    ∀ (starts : List Nat) (line start : Nat), start ≤ offset →
      (lineAt offset line start starts).2 ≤ offset ∧
      (lineAt offset line start starts).2 ∈ start :: starts := by
  intro starts
  induction starts with
  | nil => intro line start hstart; exact ⟨hstart, List.mem_cons_self⟩
  | cons s starts ih =>
      intro line start hstart
      rw [lineAt]
      split
      · rename_i hle
        obtain ⟨hbound, hmem⟩ := ih (line + 1) s hle
        exact ⟨hbound, List.mem_cons_of_mem start hmem⟩
      · exact ⟨hstart, List.mem_cons_self⟩

/-- The line of a byte of a text starts between two of its characters. -/
theorem lineAt_boundary (text : List Char) (offset : Nat) :
    (lineAt offset 0 0 (lineStartsFrom 0 text)).2 ≤ offset ∧
      Boundary text (lineAt offset 0 0 (lineStartsFrom 0 text)).2 := by
  obtain ⟨hle, hmem⟩ := lineAt_start (lineStartsFrom 0 text) 0 0 (Nat.zero_le offset)
  refine ⟨hle, ?_⟩
  rcases List.mem_cons.mp hmem with hzero | hmem
  · rw [hzero]
    exact Text.boundary_append [] text
  · exact (mem_lineStartsFrom text [] _ hmem).2

/-! ### Positions

A text that ends its line leaves a start of a line where it ends.  So all of its starts are passed
over before a byte of the second text is reached, and what is left is the list of the second text,
moved on.
-/

/-- A text behind which a new line starts. -/
def EndsBeforeLine (text : List Char) : Prop :=
  text = [] ∨ text.getLast? = some '\n'

/-- All lines of a text start in it, and the last one where it ends. -/
theorem lineAt_behind {before : List Char} (h : EndsBeforeLine before) (text : List Char)
    (offset : Nat) :
    lineAt (byteSize before + offset) 0 0 (lineStartsFrom 0 (before ++ text))
      = (before.count '\n' + (lineAt offset 0 0 (lineStartsFrom 0 text)).1,
          byteSize before + (lineAt offset 0 0 (lineStartsFrom 0 text)).2) := by
  have hlast : (lineStartsFrom 0 before).getLast?.getD 0 = byteSize before := by
    rcases h with rfl | h
    · rfl
    · rw [getLast?_lineStartsFrom h, Nat.zero_add, Option.getD_some]
  have hinside : ∀ s ∈ lineStartsFrom 0 before, s ≤ byteSize before + offset := by
    intro s hs
    have hle : s ≤ byteSize before := (mem_lineStartsFrom before [] s hs).2.le
    omega
  rw [lineStartsFrom_append, lineAt_pass _ _ _ _ hinside, hlast, length_lineStartsFrom,
    Nat.zero_add, Nat.zero_add]
  have hshift := lineStartsFrom_shift (byteSize before) text 0
  rw [Nat.add_zero] at hshift
  rw [hshift]
  exact lineAt_shift (byteSize before) offset (before.count '\n') (lineStartsFrom 0 text) 0 0

/-- **A place behind a text that ends its line lies further down by the lines of that text.** -/
theorem position_behind {before : List Char} (h : EndsBeforeLine before) (text : List Char)
    (offset : Nat) :
    (ofText (before ++ text)).position (before ++ text) (byteSize before + offset)
      = ((ofText text).position text offset).down (before.count '\n') := by
  have hmin : min (byteSize before + offset) (byteSize (before ++ text))
      = byteSize before + min offset (byteSize text) := by
    rw [Text.byteSize_append]
    omega
  simp only [position_eq, hmin, lineAt_behind h, dropBytes_behind, Position.down,
    Nat.add_sub_add_left]

/-- **A place in a text stays where it is when more text follows.** -/
theorem position_front (text more : List Char) {offset : Nat} (h : offset ≤ byteSize text) :
    (ofText (text ++ more)).position (text ++ more) offset
      = (ofText text).position text offset := by
  have hlater : ∀ s ∈ lineStartsFrom (0 + byteSize text) more, offset < s := by
    intro s hs
    rw [Nat.zero_add] at hs
    have := (mem_lineStartsFrom more text s hs).1
    omega
  have hmin : min offset (byteSize (text ++ more)) = offset := by
    rw [Text.byteSize_append]
    omega
  have hmin' : min offset (byteSize text) = offset := Nat.min_eq_left h
  have hlines := lineAt_front _ hlater (lineStartsFrom 0 text) 0 0
  rw [← lineStartsFrom_append] at hlines
  -- The line starts between two characters of the text, so its first part is the same.
  obtain ⟨hstart, hboundary⟩ := lineAt_boundary text offset
  obtain ⟨front, back, hwhole, hfront⟩ := hboundary
  have hsize := congrArg byteSize hwhole
  rw [Text.byteSize_append] at hsize
  simp only [position_eq, hmin, hmin', hlines]
  generalize lineAt offset 0 0 (lineStartsFrom 0 text) = found at hstart hfront ⊢
  obtain ⟨line, start⟩ := found
  subst hfront
  have hcolumn : headOfBytes? (offset - byteSize front) (dropBytes (byteSize front) (text ++ more))
      = headOfBytes? (offset - byteSize front) (dropBytes (byteSize front) text) := by
    rw [hwhole, List.append_assoc, Text.dropBytes_append, Text.dropBytes_append]
    exact headOfBytes?_front back more _ (by omega)
  simp only [hcolumn]

/-- The ranges of spans behind such a text. -/
theorem range_behind {before : List Char} (h : EndsBeforeLine before) (text : List Char)
    (span : Text.Span) :
    (ofText (before ++ text)).range (before ++ text) (span.shift (byteSize before))
      = ((ofText text).range text span).down (before.count '\n') := by
  simp only [range, Text.Span.shift, position_behind h, Range.down]

theorem range_front (text more : List Char) {span : Text.Span}
    (hstart : Boundary text span.start) (hstop : Boundary text span.stop) :
    (ofText (text ++ more)).range (text ++ more) span = (ofText text).range text span := by
  rw [range, position_front text more hstart.le, position_front text more hstop.le, range]

end LineIndex

end VServer
