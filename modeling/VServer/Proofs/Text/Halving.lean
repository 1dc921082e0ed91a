/-
The search for the line of an offset.

Halving keeps some of the lines.  The first one of them starts at or before the offset, and all
lines behind the last one start behind it.  When one line is left these two say that it holds the
offset.

Since the first line starts at zero, the search never ends in front of it, so there is always a
line to go back to: `search_eq`.

The search is stated by what it finds, not by how it gets there.  `Holds` names the line, and by
`Holds.unique` there is one such line only, so any other way to find it comes to the same.
-/
import VServer.LineIndex

namespace VServer.LineIndex

variable {index : LineIndex} {offset : Nat}

/-- The first line starts at zero, and each line behind the one before it. -/
structure Ordered (index : LineIndex) : Prop where
  first : index.starts[0]? = some 0
  increasing : index.starts.toList.Pairwise (· < ·)

theorem Ordered.lt (h : index.Ordered) {line line' start start' : Nat} (hlt : line < line')
    (hstart : index.starts[line]? = some start) (hstart' : index.starts[line']? = some start') :
    start < start' := by
  obtain ⟨hline, rfl⟩ := Array.getElem?_eq_some_iff.mp hstart
  obtain ⟨hline', rfl⟩ := Array.getElem?_eq_some_iff.mp hstart'
  exact List.pairwise_iff_getElem.mp h.increasing line line' hline hline' hlt

/-- The line starts at `start`, which is at or before the offset, and all lines behind it start
behind the offset. -/
structure Holds (index : LineIndex) (offset line start : Nat) : Prop where
  starts : index.starts[line]? = some start
  reached : start ≤ offset
  behind : ∀ line' start', line < line' → index.starts[line']? = some start' → offset < start'

theorem Holds.unique {line line' start start' : Nat} (h : index.Holds offset line start)
    (h' : index.Holds offset line' start') : line = line' := by
  rcases Nat.lt_trichotomy line line' with hlt | heq | hlt
  · have hbehind := h.behind line' start' hlt h'.starts
    have hreached := h'.reached
    omega
  · exact heq
  · have hbehind := h'.behind line start hlt h.starts
    have hreached := h.reached
    omega

/-- The lines that halving keeps: `size` of them, from `base` on. -/
structure Window (index : LineIndex) (offset base size : Nat) : Prop where
  filled : 0 < size
  inside : base + size ≤ index.lineCount
  reached : index.starts.getD base 0 ≤ offset
  behind : ∀ line start, base + size ≤ line → index.starts[line]? = some start → offset < start

/-- One step of halving. -/
theorem Window.half {base size : Nat} (h : index.Window offset base size) (hindex : index.Ordered)
    (hsize : ¬ size ≤ 1) :
    index.Window offset
      (if offset < index.starts.getD (base + size / 2) 0 then base else base + size / 2)
      (size - size / 2) := by
  have hinside := h.inside
  by_cases hleft : offset < index.starts.getD (base + size / 2) 0
  · rw [if_pos hleft]
    refine ⟨by omega, by omega, h.reached, ?_⟩
    intro line start hline hstart
    have hmiddle : base + size / 2 < index.starts.size := by
      have hcount : index.lineCount = index.starts.size := rfl
      omega
    have hfound := Array.getElem?_eq_getElem hmiddle
    rw [Array.getD_eq_getD_getElem?, hfound, Option.getD_some] at hleft
    -- The middle itself may be the first line left out, or the last one kept.
    rcases Nat.lt_or_eq_of_le (show base + size / 2 ≤ line by omega) with hlt | rfl
    · exact Nat.lt_trans hleft (hindex.lt hlt hfound hstart)
    · rw [hfound] at hstart
      exact Option.some.inj hstart ▸ hleft
  · rw [if_neg hleft]
    refine ⟨by omega, by omega, Nat.le_of_not_lt hleft, ?_⟩
    intro line start hline hstart
    exact h.behind line start (by omega) hstart

theorem halve_holds (hindex : index.Ordered) :
    ∀ fuel base size, size ≤ fuel → index.Window offset base size →
      ∃ start, index.Holds offset (index.halve offset fuel base size) start := by
  intro fuel
  induction fuel with
  | zero =>
      intro base size hfuel hwindow
      have hfilled := hwindow.filled
      omega
  | succ fuel ih =>
      intro base size hfuel hwindow
      rw [halve]
      by_cases hsize : size ≤ 1
      · rw [if_pos hsize]
        have hfilled := hwindow.filled
        have hbase : base < index.starts.size := by
          have hinside := hwindow.inside
          have hcount : index.lineCount = index.starts.size := rfl
          omega
        have hfound := Array.getElem?_eq_getElem hbase
        have hreached := hwindow.reached
        rw [Array.getD_eq_getD_getElem?, hfound, Option.getD_some] at hreached
        refine ⟨_, hfound, hreached, ?_⟩
        intro line start hline hstart
        exact hwindow.behind line start (by omega) hstart
      · rw [if_neg hsize]
        exact ih _ _ (by omega) (hwindow.half hindex hsize)

/-- **The search ends at the line that holds the offset, or right behind it.** -/
theorem search_eq (hindex : index.Ordered) (offset : Nat) :
    ∃ line start, index.Holds offset line start ∧
      index.search offset = if start = offset then .found line else .missing (line + 1) := by
  have hcount : 0 < index.lineCount := (Array.getElem?_eq_some_iff.mp hindex.first).1
  have hwindow : index.Window offset 0 index.lineCount := by
    refine ⟨hcount, by omega, ?_, ?_⟩
    · rw [Array.getD_eq_getD_getElem?, hindex.first]
      exact Nat.zero_le offset
    · intro line start hline hstart
      have hinside := (Array.getElem?_eq_some_iff.mp hstart).1
      have hsize : index.lineCount = index.starts.size := rfl
      omega
  obtain ⟨start, hholds⟩ := halve_holds hindex _ 0 _ (Nat.le_refl _) hwindow
  refine ⟨_, start, hholds, ?_⟩
  simp only [search, hholds.starts]
  by_cases heq : start = offset
  · rw [if_pos heq, if_pos heq]
  · have hlt : start < offset := Nat.lt_of_le_of_ne hholds.reached heq
    rw [if_neg heq, if_neg heq, if_pos hlt]

/-- The line that is found holds the offset. -/
theorem lineOf_holds (hindex : index.Ordered) (offset : Nat) :
    ∃ start, index.Holds offset (index.lineOf offset) start := by
  obtain ⟨line, start, hholds, hsearch⟩ := search_eq hindex offset
  have hline : index.lineOf offset = line := by
    unfold lineOf
    rw [hsearch]
    by_cases heq : start = offset
    · rw [if_pos heq]
    · rw [if_neg heq]
      rfl
  rw [hline]
  exact ⟨start, hholds⟩

end VServer.LineIndex
