/-
Cutting a text where it can be cut.

`slice` cuts a text anywhere, and gives something for every span.  `cut?` is the careful way to do
it: the span must not end before it starts or behind the text, and neither end may lie inside a
character.  Where all this is so, the two agree (`cut?_of_boundary`).

The heart of a written type is found by cutting the type twice: behind the word `fn`, and behind
the last character that is in no name.  Both cuts are always possible (`cutBase?_eq`).

The careful functions stand beside the ones that run, and say what these would have to check.  The
equations between them mean that the checks can be left out, and nothing is cut in two.
-/
import VServer.TypeText
import VServer.Proofs.Text.Span

namespace VServer

namespace Text

/-- Whether a character starts at an offset, or the text ends there. -/
def isBoundary (offset : Nat) : List Char → Bool
  | [] => offset = 0
  | c :: cs => offset = 0 || (c.utf8Size ≤ offset && isBoundary (offset - c.utf8Size) cs)

theorem boundary_zero (text : List Char) : Boundary text 0 :=
  ⟨[], text, rfl, rfl⟩

theorem boundary_end (text : List Char) : Boundary text (byteSize text) :=
  ⟨text, [], (List.append_nil text).symm, rfl⟩

theorem boundary_cons_iff {c : Char} {cs : List Char} {offset : Nat} :
    Boundary (c :: cs) offset ↔
      offset = 0 ∨ c.utf8Size ≤ offset ∧ Boundary cs (offset - c.utf8Size) := by
  constructor
  · rintro ⟨before, behind, heq, rfl⟩
    cases before with
    | nil => exact .inl rfl
    | cons d before =>
        obtain ⟨rfl, rfl⟩ := List.cons.inj heq
        refine .inr ⟨Nat.le_add_right _ _, ?_⟩
        rw [byteSize, Nat.add_sub_cancel_left]
        exact boundary_append before behind
  · rintro (rfl | ⟨hle, before, behind, rfl, hsize⟩)
    · exact boundary_zero _
    · refine ⟨c :: before, behind, rfl, ?_⟩
      rw [byteSize]
      omega

theorem isBoundary_iff {text : List Char} {offset : Nat} :
    isBoundary offset text = true ↔ Boundary text offset := by
  induction text generalizing offset with
  | nil =>
      constructor
      · intro h
        rw [of_decide_eq_true h]
        exact boundary_zero []
      · intro h
        exact decide_eq_true (Nat.le_zero.mp h.le)
  | cons c cs ih =>
      rw [boundary_cons_iff, ← ih]
      simp [isBoundary]

/-- The text of a span, if it can be cut out. -/
def cut? (text : List Char) (s : Span) : Option (List Char) :=
  if s.start ≤ s.stop ∧ s.stop ≤ byteSize text ∧
      isBoundary s.start text = true ∧ isBoundary s.stop text = true then
    some (slice text s)
  else none

theorem cut?_eq_some_iff {text raw : List Char} {s : Span} :
    cut? text s = some raw ↔
      s.start ≤ s.stop ∧ s.stop ≤ byteSize text ∧ Boundary text s.start ∧ Boundary text s.stop ∧
        slice text s = raw := by
  rw [cut?, ← isBoundary_iff, ← isBoundary_iff]
  split
  · rename_i h
    simp [h]
  · rename_i h
    constructor
    · intro hnone
      cases hnone
    · rintro ⟨hle, hwithin, hstart, hstop, -⟩
      exact absurd ⟨hle, hwithin, hstart, hstop⟩ h

theorem cut?_of_boundary {text : List Char} {s : Span} (hstart : Boundary text s.start)
    (hstop : Boundary text s.stop) (hle : s.start ≤ s.stop) :
    cut? text s = some (slice text s) :=
  cut?_eq_some_iff.mpr ⟨hle, hstop.le, hstart, hstop, rfl⟩

-- A letter of two bytes cannot be cut in two.
example : cut? ['é', 's'] ⟨0, 2⟩ = some ['é'] ∧ cut? ['é', 's'] ⟨1, 3⟩ = none := by decide

/-- Spans in line can be cut out. -/
theorem InLine.cut? {text : List Char} {spans : List Span} (h : InLine text spans) {s : Span}
    (hs : s ∈ spans) : cut? text s = some (slice text s) := by
  obtain ⟨hstart, hstop, hlt⟩ := h.placed s hs
  exact cut?_of_boundary hstart hstop (Nat.le_of_lt hlt)

/-- What stands behind a text can be cut off. -/
theorem cut?_append (before behind : List Char) :
    Text.cut? (before ++ behind) ⟨byteSize before, byteSize (before ++ behind)⟩ = some behind := by
  have hslice : slice (before ++ behind) ⟨byteSize before, byteSize (before ++ behind)⟩ = behind :=
    slice_of_standsAt ⟨before, [], by simp, rfl, by simp⟩
  rw [cut?_of_boundary (boundary_append before behind) (boundary_end _) (by simp), hslice]

end Text

namespace TypeText

open Text (cut? byteSize)

/-- The byte behind the last character that is in no dotted name, if the text stands at `offset`,
and that of the text in front of it is `best`. -/
def nameStart (offset best : Nat) : List Char → Nat
  | [] => best
  | c :: cs =>
    let stop := offset + c.utf8Size
    nameStart stop (if isDottedNamePart c then best else stop) cs

/-- What stands in front of the last run of characters that make up dotted names. -/
def beforeName (cs : List Char) : List Char :=
  (cs.reverse.dropWhile isDottedNamePart).reverse

theorem beforeName_append_lastName (cs : List Char) : beforeName cs ++ lastName cs = cs := by
  rw [beforeName, lastName, ← List.reverse_append, List.takeWhile_append_dropWhile,
    List.reverse_reverse]

theorem beforeName_concat (cs : List Char) (c : Char) :
    beforeName (cs ++ [c]) = if isDottedNamePart c then beforeName cs else cs ++ [c] := by
  rw [beforeName, List.reverse_concat, List.dropWhile_cons]
  split
  · rfl
  · rw [← List.reverse_concat, List.reverse_reverse]

theorem nameStart_eq (cs : List Char) : ∀ before,
    nameStart (byteSize before) (byteSize (beforeName before)) cs
      = byteSize (beforeName (before ++ cs)) := by
  induction cs with
  | nil => intro before; rw [List.append_nil]; rfl
  | cons c cs ih =>
      intro before
      have hstop : byteSize before + c.utf8Size = byteSize (before ++ [c]) := by
        simp [byteSize]
      have hbest : (if isDottedNamePart c then byteSize (beforeName before)
          else byteSize (before ++ [c])) = byteSize (beforeName (before ++ [c])) := by
        rw [beforeName_concat]
        split <;> rfl
      have hnext := ih (before ++ [c])
      rw [List.append_assoc, List.singleton_append] at hnext
      rw [nameStart, hstop, hbest, hnext]

/-- Whether a text is the type of a function, by the text behind its first two bytes. -/
def cutFunctionType? (cs : List Char) : Option Bool :=
  match cs with
  | 'f' :: 'n' :: _ => (cut? cs ⟨2, byteSize cs⟩).map fun rest => !(rest.head?.any isNamePart)
  | _ => some false

/-- The named type at the heart of a written type, cut out of it. -/
def cutBase? (text : List Char) : Option (Option (List Char)) :=
  let trimmed := Text.trim text
  (cutFunctionType? trimmed).bind fun isFunction =>
    if isFunction then some none
    else
      (cut? trimmed ⟨nameStart 0 0 trimmed, byteSize trimmed⟩).map fun
        | [] => none
        | c :: cs => if c.isDigit then none else some (c :: cs)

theorem cutFunctionType?_eq (cs : List Char) : cutFunctionType? cs = some (isFunctionType cs) := by
  unfold cutFunctionType?
  split
  · rename_i rest
    have hcut : cut? ('f' :: 'n' :: rest) ⟨2, byteSize ('f' :: 'n' :: rest)⟩ = some rest :=
      Text.cut?_append ['f', 'n'] rest
    rw [hcut]
    rfl
  · rename_i hother
    rw [isFunctionType.eq_2 cs hother]

theorem cut?_nameStart (cs : List Char) :
    cut? cs ⟨nameStart 0 0 cs, byteSize cs⟩ = some (lastName cs) := by
  have hstart : nameStart 0 0 cs = byteSize (beforeName cs) := nameStart_eq cs []
  have hcut := Text.cut?_append (beforeName cs) (lastName cs)
  rwa [beforeName_append_lastName, ← hstart] at hcut

/-- **The heart of a type is cut out of it, whatever the type.** -/
theorem cutBase?_eq (text : List Char) : cutBase? text = some (base? text) := by
  simp only [cutBase?, base?, cutFunctionType?_eq, Option.bind_some, cut?_nameStart,
    Option.map_some]
  split
  · rfl
  · cases lastName (Text.trim text) <;> rfl

end TypeText

end VServer
