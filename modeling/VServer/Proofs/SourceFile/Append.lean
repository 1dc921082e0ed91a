/-
Reading two texts one behind the other.

If the first text has no faults and ends with a newline, or is empty, then the second one is read
behind it as if it stood alone, in the module that the first one ends in and as many lines further
down as the first one has.

Both halves of this are about one text inside a larger one.  The first text stands in front of
the second one: its places stay, and the reader comes to its end without having looked further.
The second text stands behind the first one, with nothing behind it, so all that can happen to it
is that its places move.

What is counted in lines moves with the lines.  The reports of the second text are those it has
alone, as many lines further down as the first text has, with the same columns, since the second
text starts at the beginning of a line.
-/
import VServer.Proofs.Outline.Locality
import VServer.Proofs.Table.Register
import VServer.Proofs.Text.Lines
import VServer.SourceFile

namespace VServer

open Text (Span InLine byteSize)

/-! ### Moving places twice, and not at all -/

namespace Statement

variable {α β γ : Type}

theorem mapPlace_mapPlace (f : α → β) (g : β → γ) (s : Statement α) :
    (s.mapPlace f).mapPlace g = s.mapPlace (g ∘ f) := by
  cases s <;> simp [mapPlace, Function.mapPlace, Struct.mapPlace, Field.mapPlace]

/-- Only the places of a statement count. -/
theorem mapPlace_congr {f g : α → β} {s : Statement α} (h : ∀ p ∈ s.places, f p = g p) :
    s.mapPlace f = s.mapPlace g := by
  cases s with
  | function d => simp [mapPlace, Function.mapPlace, h d.place List.mem_cons_self]
  | struct d =>
      have hfields : d.fields.map (Field.mapPlace f) = d.fields.map (Field.mapPlace g) := by
        refine List.map_congr_left fun field hfield => ?_
        rw [Field.mapPlace, Field.mapPlace,
          h field.place (List.mem_cons_of_mem _ (List.mem_map_of_mem hfield))]
      simp [mapPlace, Struct.mapPlace, h d.place List.mem_cons_self, hfields]
  | other => rfl

theorem mapPlace_id (s : Statement α) : s.mapPlace id = s := by
  have hfield : Field.mapPlace (id : α → α) = id := rfl
  cases s with
  | function d => rfl
  | struct d => rw [mapPlace, Struct.mapPlace, hfield, List.map_id]; rfl
  | other => rfl

end Statement

namespace Outline

/-! ### Outlines

`outlineFrom_around` is used twice.  For the first text nothing stands in front and the second text
behind, so it must end with a newline and have no faults.  For the second text nothing stands
behind, so nothing is asked of it.
-/

/-- What stands around a text at the end of a larger one. -/
def Around.behindOf (before : List Char) : Around :=
  ⟨before, [], []⟩

/-- What stands around a text in front of another one. -/
def Around.frontOf (text more : List Char) : Around :=
  ⟨[], more, (Token.ofText more).map (Token.shift (byteSize text))⟩

/-- What is stray in a text is stray behind another one. -/
theorem strayFaults_behind (before text : List Char) {ls : List Lexeme}
    (hline : InLine text (ls.map Lexeme.span)) :
    strayFaults (before ++ text) (ls.map (Lexeme.shift (byteSize before)))
      = (strayFaults text ls).map (Around.behindOf before).fault := by
  have hstray : Lexeme.isStray ∘ Lexeme.shift (byteSize before) = Lexeme.isStray := rfl
  rw [strayFaults, List.filter_map, hstray, List.map_map, strayFaults, List.map_map]
  refine List.map_congr_left fun l hl => ?_
  obtain ⟨hstart, hstop, -⟩ :=
    hline.placed l.span (List.mem_map_of_mem (List.mem_of_mem_filter hl))
  have hslice := Text.slice_around before [] hstart hstop
  rw [List.append_nil] at hslice
  simp only [Function.comp_apply, Lexeme.shift, Text.sliceString, hslice]
  rfl

theorem notStray_of_strayFaults {text : List Char} {ls : List Lexeme}
    (h : strayFaults text ls = []) : ∀ l ∈ ls, l.isStray = false := by
  intro l hl
  by_contra hstray
  have hmem : l ∈ ls.filter Lexeme.isStray := List.mem_filter.mpr ⟨hl, by simpa using hstray⟩
  rw [List.map_eq_nil_iff.mp h] at hmem
  exact List.not_mem_nil hmem

theorem outlineFrom_behind (before text : List Char) (moduleName : String) :
    outlineFrom (before ++ text) moduleName
        ((Token.ofText text).map (Token.shift (byteSize before)))
      = (Around.behindOf before).outline (outlineFrom text moduleName (Token.ofText text)) := by
  set w := Around.behindOf before
  have hlast : w.Last := ⟨rfl, rfl⟩
  have h := outlineFrom_around (w := w) text (Token.ofText text) moduleName (.inl hlast)
    (.inl hlast) (Token.ofText_inLine text)
  have htext : w.text text = before ++ text := List.append_nil _
  have htokens : w.tokens (Token.ofText text)
      = (Token.ofText text).map (Token.shift (byteSize before)) := List.append_nil _
  rw [htext, htokens] at h
  rw [h]
  simp [append, Around.outline, hlast.later_eq, outlineFrom, readFrom]

/-- In front of another text places do not move. -/
theorem outline_front (text more : List Char) {o : Outline} (hfaults : o.faults = []) :
    (Around.frontOf text more).outline o = o := by
  have hspan : (Around.frontOf text more).span = id := by
    funext s
    simp [Around.span, Around.frontOf, Span.shift]
  have hplaces : Statement.mapPlace (id : Span → Span) = id := funext Statement.mapPlace_id
  rw [Around.outline, hspan, hplaces, List.map_id, hfaults, List.map_nil, ← hfaults]

theorem lines_of_endsWithLine {text : List Char} (h : Token.EndsWithLine text) (w : Around) :
    w.Lines (Token.ofText text) := by
  refine .inr fun t ht => ?_
  obtain rfl | ⟨u, hu, hkind, -⟩ := h
  · simp [Token.ofText, Token.scan, Token.scanFrom] at ht
  · obtain rfl : u = t := Option.some.inj (hu.symm.trans ht)
    exact hkind

theorem outlineFrom_front {text : List Char} (more : List Char) (moduleName : String)
    (hends : Token.EndsWithLine text)
    (hclean : (outlineFrom text moduleName (Token.ofText text)).faults = []) :
    outlineFrom (text ++ more) moduleName
        (Token.ofText text ++ (Token.ofText more).map (Token.shift (byteSize text)))
      = (outlineFrom text moduleName (Token.ofText text)).append
          (outlineFrom (text ++ more) (outlineFrom text moduleName (Token.ofText text)).moduleName
            ((Token.ofText more).map (Token.shift (byteSize text)))) := by
  set w := Around.frontOf text more
  have htoken : w.token = id := by
    funext t
    simp [w, Around.token, Around.frontOf, Token.shift, Span.shift]
  have htokens : w.tokens (Token.ofText text)
      = Token.ofText text ++ (Token.ofText more).map (Token.shift (byteSize text)) := by
    rw [Around.tokens, htoken, List.map_id]
    rfl
  have h := outlineFrom_around (w := w) text (Token.ofText text) moduleName
    (lines_of_endsWithLine hends w) (.inr hclean) (Token.ofText_inLine text)
  rw [htokens, outline_front text more hclean] at h
  exact h

theorem ofTextIn_eq (moduleName : String) (text : List Char) :
    ofTextIn moduleName text
      = let o := outlineFrom text moduleName (Token.ofText text)
        { o with faults := strayFaults text (Token.scan text) ++ o.faults } := rfl

/-- **The outline of two texts is that of the first one and then that of the second one, in the
module that the first one ends in.** -/
theorem ofTextIn_append (moduleName : String) {text : List Char} (more : List Char)
    (hends : Token.EndsWithLine text) (hclean : (ofTextIn moduleName text).faults = []) :
    ofTextIn moduleName (text ++ more)
      = (ofTextIn moduleName text).append
          ((Around.behindOf text).outline
            (ofTextIn (ofTextIn moduleName text).moduleName more)) := by
  rw [ofTextIn_eq] at hclean
  obtain ⟨hstray, hfaults⟩ := List.append_eq_nil_iff.mp hclean
  have hnone := notStray_of_strayFaults hstray
  have hline := hends.endsLine hnone
  have hscan := Token.scan_append more hline hnone
  have htokens := Token.ofText_append more hline hnone
  have hfront := outlineFrom_front more moduleName hends hfaults
  rw [← htokens, outlineFrom_behind] at hfront
  have hstrays : strayFaults (text ++ more) (Token.scan (text ++ more))
      = (strayFaults more (Token.scan more)).map (Around.behindOf text).fault := by
    have hfilter : (Token.scan text).filter Lexeme.isStray = [] :=
      List.filter_eq_nil_iff.mpr fun l hl => by simp [hnone l hl]
    rw [← strayFaults_behind text more (Token.scan_inLine more), hscan, strayFaults,
      List.filter_append, hfilter, List.nil_append]
    rfl
  rw [ofTextIn_eq, hfront, hstrays, ofTextIn_eq, ofTextIn_eq]
  simp only [append, Around.outline, hstray, hfaults, List.nil_append, List.map_append]

end Outline

/-! ### Files -/

/-- The report `n` lines further down. -/
def FaultReport.down (n : Nat) (r : FaultReport) : FaultReport :=
  { r with range := r.range.down n }

namespace SourceFile

theorem endsBeforeLine {text : List Char} (hends : Token.EndsWithLine text)
    (hclean : (Outline.ofText text).faults = []) : LineIndex.EndsBeforeLine text := by
  have hnone := Outline.notStray_of_strayFaults (List.append_eq_nil_iff.mp hclean).1
  by_cases hnil : text = []
  · exact .inl hnil
  · exact .inr ((hends.endsLine hnone).getLast? hnil)

/-- The declarations of a text stay where they are when more text follows. -/
theorem tree_front (text more : List Char) :
    (Outline.ofText text).statements.map
        (Statement.mapPlace ((LineIndex.ofText (text ++ more)).range (text ++ more)))
      = (Outline.ofText text).statements.map
        (Statement.mapPlace ((LineIndex.ofText text).range text)) := by
  refine List.map_congr_left fun s hs => Statement.mapPlace_congr fun p hp => ?_
  obtain ⟨hstart, hstop, -⟩ :=
    (Outline.ofText_inLine text).placed p (List.mem_flatMap.mpr ⟨s, hs, hp⟩)
  exact LineIndex.range_front text more hstart hstop

/-- The declarations of a text behind another one move down by the lines of that one. -/
theorem tree_behind (cwd path : String) {before : List Char}
    (h : LineIndex.EndsBeforeLine before) (text : List Char) (o : Outline) :
    ((Outline.Around.behindOf before).outline o).statements.map
        (Statement.mapPlace ((LineIndex.ofText (before ++ text)).range (before ++ text)))
      = (tree cwd path text o).statements.map
        (Statement.mapPlace (Range.down (before.count '\n'))) := by
  simp only [tree, Outline.Around.outline, List.map_map]
  refine List.map_congr_left fun s _ => ?_
  rw [Function.comp_apply, Function.comp_apply, Statement.mapPlace_mapPlace,
    Statement.mapPlace_mapPlace]
  exact congrArg (Statement.mapPlace · s) (funext fun span => LineIndex.range_behind h text span)

theorem reports_behind (path : String) {before : List Char}
    (h : LineIndex.EndsBeforeLine before) (text : List Char) (faults : List Fault) :
    reports path (before ++ text) (faults.map (Outline.Around.behindOf before).fault)
      = (reports path text faults).map (FaultReport.down (before.count '\n')) := by
  simp only [reports, List.map_map]
  refine List.map_congr_left fun f _ => ?_
  exact congrArg (FaultReport.mk path · f.cause) (LineIndex.range_behind h text f.span)

/-- **Behind a text without faults that ends with a newline, a text is read as if it stood alone:**
its statements follow those of the first text, its faults are the only ones, and both lie further
down by the lines of the first text.  It is read in the module that the first text ends in. -/
theorem read_append (cwd path : String) (text more : List Char) (r : Reading)
    (hclean : (read cwd path text r).2.1 = []) (hends : Token.EndsWithLine text) :
    let first := read cwd path text r
    let whole := read cwd path (text ++ more) r
    let outline := Outline.ofTextIn first.1.moduleName more
    let down := text.count '\n'
    whole.1.statements = first.1.statements ++
        (tree cwd path more outline).statements.map (Statement.mapPlace (Range.down down)) ∧
      whole.2.1 = (reports path more outline.faults).map (FaultReport.down down) ∧
      whole.1.moduleName = outline.moduleName ∧
      whole.2.2.table = first.2.2.table.registerAll outline.registrations := by
  have hfaults : (Outline.ofText text).faults = [] := List.map_eq_nil_iff.mp hclean
  have hline := endsBeforeLine hends hfaults
  have hwhole : Outline.ofText (text ++ more)
      = (Outline.ofText text).append ((Outline.Around.behindOf text).outline
          (Outline.ofTextIn (Outline.ofText text).moduleName more)) :=
    Outline.ofTextIn_append "" more hends hfaults
  refine ⟨?_, ?_, ?_, ?_⟩
  · show (Outline.ofText (text ++ more)).statements.map _ = _
    rw [hwhole, Outline.append, List.map_append, tree_front,
      tree_behind cwd path hline]
    rfl
  · show reports path (text ++ more) (Outline.ofText (text ++ more)).faults = _
    rw [hwhole, Outline.append, hfaults, List.nil_append]
    exact reports_behind path hline more _
  · show (Outline.ofText (text ++ more)).moduleName = _
    rw [hwhole]
    rfl
  · show r.table.registerAll (Outline.ofText (text ++ more)).registrations = _
    rw [hwhole, Outline.append, Table.registerAll_append]
    rfl

/-- A file with a struct, up to the end of a line. -/
def boxText : List Char :=
  "module shapes\n\nstruct Box \x7b\n\tside int\n\x7d\n".toList

/-- A function without end. -/
def areaText : List Char :=
  "fn area(b Box) \x7b\n".toList

/-- The open brace is reported behind the struct, on the sixth line. -/
theorem read_append_boxText :
    (read "/" "box.v" boxText {}).2.1 = [] ∧ Token.EndsWithLine boxText ∧
    (read "/" "box.v" (boxText ++ areaText) {}).2.1
      = [⟨"box.v", ⟨⟨5, 15⟩, ⟨5, 16⟩⟩, .unclosed .brace⟩] := by
  have hclean : (read "/" "box.v" boxText {}).2.1 = [] := by decide +kernel
  have hends : Token.EndsWithLine boxText :=
    .inr ⟨⟨.newline, ⟨39, 40⟩⟩, by decide +kernel, rfl, by decide +kernel⟩
  refine ⟨hclean, hends, ?_⟩
  have hreports := (read_append "/" "box.v" boxText areaText {} hclean hends).2.1
  exact hreports.trans (by decide +kernel)

end SourceFile

end VServer
