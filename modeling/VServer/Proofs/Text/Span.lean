/-
Spans that fall between characters.

A span is two byte offsets, and nothing about the type keeps them from cutting a character in two.
`Boundary` says that an offset does not, and between two such offsets there is a text, which
`slice` returns.

A list of spans is in line if none is empty, all fall between characters, and each one ends before
the next one starts.  Leaving spans out keeps it so, and so does joining two neighbours into one;
those are the two things that a reader of tokens does to them.

`Narrows` is this as a relation between lists of spans, which can be put together along the stages
of a reader without mentioning a text.
-/
import VServer.Text.Span
import Mathlib.Data.List.Basic

namespace VServer.Text

/-! ### Byte sizes -/

@[simp] theorem byteSize_nil : byteSize [] = 0 := rfl

theorem byteSize_pos {cs : List Char} (h : cs ≠ []) : 0 < byteSize cs := by
  cases cs with
  | nil => exact absurd rfl h
  | cons c cs =>
      have := c.utf8Size_pos
      simp only [byteSize]
      omega

theorem eq_nil_of_byteSize {cs : List Char} (h : byteSize cs = 0) : cs = [] := by
  by_contra hc
  have := byteSize_pos hc
  omega

/-! ### Slices between characters -/

/-- `raw` is the text at `span`, which falls between characters at both ends. -/
def StandsAt (text raw : List Char) (span : Span) : Prop :=
  ∃ before behind, text = before ++ raw ++ behind ∧
    span.start = byteSize before ∧ span.stop = byteSize before + byteSize raw

theorem dropBytes_append (before behind : List Char) :
    dropBytes (byteSize before) (before ++ behind) = behind := by
  induction before with
  | nil => cases behind <;> simp [dropBytes]
  | cons c cs ih =>
      have hpos := c.utf8Size_pos
      have hne : ¬ (c.utf8Size + byteSize cs = 0) := by omega
      simp only [byteSize, List.cons_append, dropBytes, hne, if_false, Nat.add_sub_cancel_left]
      exact ih

theorem takeBytes_append (raw behind : List Char) :
    takeBytes (byteSize raw) (raw ++ behind) = raw := by
  induction raw with
  | nil =>
      cases behind with
      | nil => rfl
      | cons c cs =>
          have hpos := c.utf8Size_pos
          have hnot : ¬ (c.utf8Size ≤ 0) := by omega
          simp [takeBytes, hnot]
  | cons c cs ih =>
      have hle : c.utf8Size ≤ c.utf8Size + byteSize cs := Nat.le_add_right _ _
      simp only [byteSize, List.cons_append, takeBytes, hle, if_true, Nat.add_sub_cancel_left, ih]

theorem slice_of_standsAt {text raw : List Char} {span : Span} (h : StandsAt text raw span) :
    slice text span = raw := by
  obtain ⟨before, behind, rfl, hstart, hstop⟩ := h
  rw [slice, hstart, hstop, Nat.add_sub_cancel_left, List.append_assoc, dropBytes_append,
    takeBytes_append]

theorem sliceString_of_standsAt {text raw : List Char} {span : Span}
    (h : StandsAt text raw span) : sliceString text span = String.ofList raw := by
  rw [sliceString, slice_of_standsAt h]

/-! ### Boundaries -/

/-- An offset at which a character starts or the text ends. -/
def Boundary (text : List Char) (offset : Nat) : Prop :=
  ∃ before behind, text = before ++ behind ∧ byteSize before = offset

theorem boundary_append (before behind : List Char) :
    Boundary (before ++ behind) (byteSize before) :=
  ⟨before, behind, rfl, rfl⟩

theorem Boundary.le {text : List Char} {offset : Nat} (h : Boundary text offset) :
    offset ≤ byteSize text := by
  obtain ⟨before, behind, rfl, rfl⟩ := h
  rw [byteSize_append]
  omega

/-- Between two boundaries there is a text. -/
theorem standsAt_of_boundary {text : List Char} {span : Span} (hstart : Boundary text span.start)
    (hstop : Boundary text span.stop) (hle : span.start ≤ span.stop) :
    ∃ raw, StandsAt text raw span := by
  obtain ⟨before, behind, rfl, hbefore⟩ := hstart
  obtain ⟨through, rest, heq, hthrough⟩ := hstop
  rcases List.append_eq_append_iff.mp heq with ⟨raw, rfl, rfl⟩ | ⟨extra, rfl, rfl⟩
  · refine ⟨raw, before, rest, by simp, hbefore.symm, ?_⟩
    rw [← hthrough, byteSize_append]
  · -- The later offset is not the smaller one, so the texts in front are the same.
    rw [byteSize_append] at hbefore
    have hextra : extra = [] := eq_nil_of_byteSize (by omega)
    subst hextra
    refine ⟨[], through, behind, by simp, ?_, ?_⟩
    · simpa using hbefore.symm
    · simpa using hthrough.symm

/-! ### Spans of a text inside a larger one -/

/-- The span `n` bytes further on. -/
def Span.shift (n : Nat) (s : Span) : Span :=
  ⟨n + s.start, n + s.stop⟩

theorem StandsAt.around {text raw : List Char} {span : Span} (h : StandsAt text raw span)
    (before behind : List Char) :
    StandsAt (before ++ text ++ behind) raw (span.shift (byteSize before)) := by
  obtain ⟨front, back, rfl, hstart, hstop⟩ := h
  refine ⟨before ++ front, back ++ behind, by simp, ?_, ?_⟩
  · simp only [Span.shift, hstart, byteSize_append]
  · simp only [Span.shift, hstop, byteSize_append]
    omega

/-- The texts around it do not change what stands at a span. -/
theorem slice_around (before behind : List Char) {text : List Char} {span : Span}
    (hstart : Boundary text span.start) (hstop : Boundary text span.stop) :
    slice (before ++ text ++ behind) (span.shift (byteSize before)) = slice text span := by
  by_cases hle : span.start ≤ span.stop
  · obtain ⟨raw, hraw⟩ := standsAt_of_boundary hstart hstop hle
    rw [slice_of_standsAt hraw, slice_of_standsAt (hraw.around before behind)]
  · -- A span that ends before it starts holds nothing anywhere.
    have hnothing : ∀ cs : List Char, takeBytes 0 cs = [] := fun cs => takeBytes_append [] cs
    have hsize : span.stop - span.start = 0 := by omega
    have hsize' : byteSize before + span.stop - (byteSize before + span.start) = 0 := by omega
    simp only [slice, Span.shift, hsize, hsize', hnothing]

/-- A boundary inside the front of a text is one of the front. -/
theorem Boundary.front {text more : List Char} {offset : Nat} (h : Boundary (text ++ more) offset)
    (hle : offset ≤ byteSize text) : Boundary text offset := by
  obtain ⟨before, behind, heq, rfl⟩ := h
  rcases List.append_eq_append_iff.mp heq with ⟨extra, rfl, -⟩ | ⟨extra, rfl, -⟩
  · rw [byteSize_append] at hle
    obtain rfl : extra = [] := eq_nil_of_byteSize (by omega)
    exact ⟨text, [], by simp, by simp⟩
  · exact boundary_append before extra

theorem slice_front (text more : List Char) {span : Span} (hstart : Boundary text span.start)
    (hstop : Boundary text span.stop) : slice (text ++ more) span = slice text span := by
  have h := slice_around [] more hstart hstop
  simpa [Span.shift] using h

/-- A slice can be cut at a boundary. -/
theorem slice_cut {text : List Char} {start middle stop : Nat} (hstart : Boundary text start)
    (hmiddle : Boundary text middle) (hstop : Boundary text stop) (hle : start ≤ middle)
    (hle' : middle ≤ stop) :
    slice text ⟨start, stop⟩ = slice text ⟨start, middle⟩ ++ slice text ⟨middle, stop⟩ := by
  obtain ⟨raw, hraw⟩ := @standsAt_of_boundary text ⟨start, middle⟩ hstart hmiddle hle
  obtain ⟨raw', hraw'⟩ := @standsAt_of_boundary text ⟨middle, stop⟩ hmiddle hstop hle'
  rw [slice_of_standsAt hraw, slice_of_standsAt hraw']
  obtain ⟨before, behind, rfl, hbefore, hsize⟩ := hraw
  obtain ⟨before', behind', heq, hbefore', hsize'⟩ := hraw'
  -- What stands in front of the second part is what the first part ends.
  have hrest : behind = raw' ++ behind' := by
    have hbytes : byteSize (before ++ raw) = byteSize before' := by
      rw [byteSize_append]
      exact hsize.symm.trans hbefore'
    rw [← dropBytes_append (before ++ raw) behind, heq, hbytes, List.append_assoc,
      dropBytes_append]
  refine slice_of_standsAt ⟨before, behind', by rw [hrest]; simp, hbefore, ?_⟩
  simp only at hsize hbefore' hsize' ⊢
  rw [byteSize_append]
  omega

/-! ### Spans in line

`Narrows` is about any spans in front as well, so it can be used for the part of a list at which a
reader works, with what it has left behind in front of it.
-/

/-- Spans that stand in a text one behind the other, none of them empty. -/
structure InLine (text : List Char) (spans : List Span) : Prop where
  placed : ∀ s ∈ spans, Boundary text s.start ∧ Boundary text s.stop ∧ s.start < s.stop
  apart : spans.Pairwise fun a b => a.stop ≤ b.start

theorem InLine.nil (text : List Char) : InLine text [] :=
  ⟨by simp, List.Pairwise.nil⟩

/-- A span in front of the others. -/
theorem InLine.cons {text : List Char} {spans : List Span} (h : InLine text spans) {span : Span}
    (hstart : Boundary text span.start) (hstop : Boundary text span.stop)
    (hlt : span.start < span.stop) (happart : ∀ s ∈ spans, span.stop ≤ s.start) :
    InLine text (span :: spans) := by
  refine ⟨?_, List.pairwise_cons.mpr ⟨happart, h.apart⟩⟩
  intro s hs
  rcases List.mem_cons.mp hs with rfl | hs
  · exact ⟨hstart, hstop, hlt⟩
  · exact h.placed s hs

/-- Leaving spans out keeps the others in line. -/
theorem InLine.sublist {text : List Char} {spans spans' : List Span} (h : InLine text spans)
    (hsub : spans'.Sublist spans) : InLine text spans' :=
  ⟨fun s hs => h.placed s (hsub.subset hs), h.apart.sublist hsub⟩

/-- The text of a span in line is not empty. -/
theorem InLine.standsAt {text : List Char} {spans : List Span} (h : InLine text spans)
    {span : Span} (hspan : span ∈ spans) : ∃ raw, raw ≠ [] ∧ StandsAt text raw span := by
  obtain ⟨hstart, hstop, hlt⟩ := h.placed span hspan
  obtain ⟨raw, hraw⟩ := standsAt_of_boundary hstart hstop (Nat.le_of_lt hlt)
  refine ⟨raw, ?_, hraw⟩
  rintro rfl
  obtain ⟨before, behind, -, hbefore, hthrough⟩ := hraw
  simp only [byteSize_nil] at hthrough
  omega

/-- Whatever stands in front, if the spans `wide` are in line behind it then so are the spans
`narrow`. -/
def Narrows (wide narrow : List Span) : Prop :=
  ∀ (text : List Char) (front : List Span), InLine text (front ++ wide) →
    InLine text (front ++ narrow)

theorem Narrows.trans {wide middle narrow : List Span} (h₁ : Narrows wide middle)
    (h₂ : Narrows middle narrow) : Narrows wide narrow :=
  fun text front h => h₂ text front (h₁ text front h)

theorem narrows_of_sublist {wide narrow : List Span} (h : narrow.Sublist wide) :
    Narrows wide narrow :=
  fun _ front hline => hline.sublist (h.append_left front)

/-- What stands in front of both sides does not matter. -/
theorem Narrows.append_left {wide narrow : List Span} (h : Narrows wide narrow)
    (front : List Span) : Narrows (front ++ wide) (front ++ narrow) := by
  intro text front' hline
  rw [← List.append_assoc] at hline ⊢
  exact h text (front' ++ front) hline

/-- Two neighbours can be joined. -/
theorem narrows_join (a b : Span) (behind : List Span) :
    Narrows (a :: b :: behind) (⟨a.start, b.stop⟩ :: behind) := by
  intro text front hline
  have hgap : a.stop ≤ b.start := by
    have h := (List.pairwise_append.mp hline.apart).2.1
    exact (List.pairwise_cons.mp h).1 b (by simp)
  obtain ⟨ha, -, halt⟩ := hline.placed a (by simp)
  obtain ⟨-, hb, hblt⟩ := hline.placed b (by simp)
  refine ⟨?_, ?_⟩
  · intro s hs
    rcases List.mem_append.mp hs with hs | hs
    · exact hline.placed s (by simp [hs])
    · rcases List.mem_cons.mp hs with rfl | hs
      · exact ⟨ha, hb, by show a.start < b.stop; omega⟩
      · exact hline.placed s (by simp [hs])
  · obtain ⟨hfront, hrest, hcross⟩ := List.pairwise_append.mp hline.apart
    obtain ⟨-, hrest'⟩ := List.pairwise_cons.mp hrest
    obtain ⟨hbrest, hbehind⟩ := List.pairwise_cons.mp hrest'
    refine List.pairwise_append.mpr ⟨hfront, List.pairwise_cons.mpr ⟨hbrest, hbehind⟩, ?_⟩
    intro s hs s' hs'
    rcases List.mem_cons.mp hs' with rfl | hs'
    · exact hcross s hs a (by simp)
    · exact hcross s hs s' (by simp [hs'])

end VServer.Text
