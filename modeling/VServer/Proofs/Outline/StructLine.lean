/-
The lines of structs that reading a file comes to.

`Visits` lists the statements of a file and `Lines` the lines of a struct.  A line of a file is one
of the second inside one of the first.  Its tokens are the last ones of the file, and a field that
is read there is a field of a struct in the tree.

So a line can be followed in both directions.  From the line to the tree: what is read there is
what the tree holds and what is registered.  And from the file to the line: a line is determined by
the tokens that it starts with, which is how two files that share a line are compared.
-/
import VServer.Proofs.Outline.Registered
import VServer.Proofs.SourceFile.Order

namespace VServer.Outline

/-- The struct that is read here has the line `line`. -/
def Visit.HasLine (text : List Char) (v : Visit) (line : LineVisit) : Prop :=
  ∃ ts body lines, v.structTokens? = some ts ∧ structBody? ⟨text, v.moduleName⟩ ts = some body ∧
    Lines ⟨text, v.moduleName⟩ body lines ∧ line ∈ lines

/-- Reading a file comes to `line`, which is a line of a struct inside the module `moduleName`. -/
def StructLine (text : List Char) (moduleName : String) (line : LineVisit) : Prop :=
  ∃ visits v, Visits text "" (Token.ofText text) visits ∧ v ∈ visits ∧
    v.moduleName = moduleName ∧ v.HasLine text line

/-- A struct with a body has a name in front of it, and perhaps a group in square brackets. -/
theorem structBody?_eq_some {ctx : Context} {ts body : List Token} :
    structBody? ctx ts = some body ↔ ∃ declared rest t,
      readName ctx false ts = (some declared, rest) ∧
        (skipOptional .square rest).2.rest = t :: body ∧ t.kind = .opener .brace := by
  unfold structBody?
  rcases readName ctx false ts with ⟨_ | declared, rest⟩
  · simp
  · cases hrest : (skipOptional .square rest).2.rest with
    | nil => simp [hrest]
    | cons t after =>
        by_cases hkind : t.kind = .opener .brace
        · simp [hrest, hkind]
        · simp only [hrest, if_neg hkind]
          constructor
          · intro h
            simp at h
          · rintro ⟨_, _, u, hread, hu, hbrace⟩
            obtain ⟨-, rfl⟩ := Prod.mk.inj hread
            rw [hrest] at hu
            obtain ⟨rfl, -⟩ := List.cons.inj hu
            exact absurd hbrace hkind

theorem structBody?_suffix {ctx : Context} {ts body : List Token}
    (h : structBody? ctx ts = some body) : body <:+ ts := by
  obtain ⟨declared, rest, t, hread, hrest, -⟩ := structBody?_eq_some.mp h
  have hname := readName_suffix ctx false ts
  have hsquare := skipOptional_suffix .square rest
  rw [hread] at hname
  rw [hrest] at hsquare
  exact ((List.suffix_cons t body).trans hsquare).trans hname

theorem lines_suffix {ctx : Context} {ts : List Token} {lines : List LineVisit}
    (h : Lines ctx ts lines) : ∀ line ∈ lines, line.first :: line.behind <:+ ts := by
  induction h with
  | unclosed => intro line hline; simp at hline
  | closed hkind => intro line hline; simp at hline
  | newline hkind later ih =>
      intro line hline
      exact (ih line hline).trans (List.suffix_cons _ _)
  | access hnewline hclose haccess later ih =>
      intro line hline
      exact (ih line hline).trans (accessSection?_suffix _ _ _ _ haccess)
  | @line t ts lines hnewline hclose haccess later ih =>
      intro line hline
      rcases List.mem_cons.mp hline with rfl | hline
      · exact List.suffix_refl _
      · exact ((ih line hline).trans (readLine_suffix ctx t ts hclose)).trans
          (List.suffix_cons t ts)

theorem Visit.structTokens?_suffix {v : Visit} {ts : List Token}
    (h : v.structTokens? = some ts) : ts <:+ v.behind := by
  rcases v with ⟨moduleName, first, behind⟩
  unfold structTokens? at h
  split at h
  · obtain rfl : behind = ts := by simpa using h
    exact List.suffix_refl behind
  · obtain rfl : behind = ts := by simpa using h
    exact List.suffix_refl behind
  · rename_i t us hkind hbehind
    obtain rfl : behind = t :: us := hbehind
    have hus : us = ts := by
      split at h
      · simpa using h
      · simpa using h
      · simp at h
    rw [← hus]
    exact List.suffix_cons t us
  · simp at h

theorem lines_dropWhile {ctx : Context} {lines : List LineVisit} {ts : List Token}
    (h : Lines ctx (ts.dropWhile fun t => decide (t.kind = .newline)) lines) :
    Lines ctx ts lines := by
  induction ts with
  | nil => exact h
  | cons t ts ih =>
      by_cases hkind : t.kind = .newline
      · rw [List.dropWhile_cons, if_pos (by simpa using hkind)] at h
        exact .newline hkind (ih h)
      · rwa [List.dropWhile_cons, if_neg (by simpa using hkind)] at h

/-- The first line of a struct that a file starts with. -/
theorem structLine_first {text : List Char} {first : Token} {behind : List Token}
    (hstruct : (Token.ofText text).head?.map Token.kind = some (.keyword .structKw))
    (hbody : (structBody? ⟨text, ""⟩ (Token.ofText text).tail).map
      (List.dropWhile fun t => decide (t.kind = .newline)) = some (first :: behind))
    (hnewline : first.kind ≠ .newline) (hclose : first.kind ≠ .closer .brace)
    (haccess : accessSection? ⟨text, ""⟩ false (first :: behind) = none) :
    StructLine text "" ⟨first, behind⟩ := by
  obtain ⟨t, hhead, hkind⟩ := Option.map_eq_some_iff.mp hstruct
  obtain ⟨ts, htokens⟩ := List.head?_eq_some_iff.mp hhead
  rw [htokens, List.tail_cons] at hbody
  obtain ⟨body, hbody, hdrop⟩ := Option.map_eq_some_iff.mp hbody
  obtain ⟨lines, hlines⟩ := exists_lines ⟨text, ""⟩ _ (readLine ⟨text, ""⟩ first behind).rest
    (Nat.le_refl _)
  obtain ⟨visits, hvisits, -⟩ := readFrom_visits text _ (Visit.step text ⟨"", t, ts⟩).moduleName
    (Visit.step text ⟨"", t, ts⟩).rest (Nat.le_refl _)
  refine ⟨⟨"", t, ts⟩ :: visits, ⟨"", t, ts⟩, ?_, List.mem_cons_self, rfl, ts, body,
    ⟨first, behind⟩ :: lines, ?_, hbody, lines_dropWhile ?_, List.mem_cons_self⟩
  · rw [htokens]
    exact .statement (by simp [hkind]) hvisits
  · simp [Visit.structTokens?, hkind]
  · rw [hdrop]
    exact .line hnewline hclose haccess hlines

/-- The tokens of a line are the last ones of the file. -/
theorem StructLine.suffix {text : List Char} {moduleName : String} {line : LineVisit}
    (h : StructLine text moduleName line) : line.first :: line.behind <:+ Token.ofText text := by
  obtain ⟨visits, v, hvisits, hv, -, ts, body, lines, htokens, hbody, hlines, hline⟩ := h
  have hstruct := ((Visit.structTokens?_suffix htokens).trans (List.suffix_cons v.first _)).trans
    (visits_suffix hvisits v hv)
  exact ((lines_suffix hlines line hline).trans (structBody?_suffix hbody)).trans hstruct

theorem readLine_name {ctx : Context} {t : Token} (ts : List Token) (h : t.kind.isName = true) :
    readLine ctx t ts = readField ctx t.span ts :=
  if_pos h

/-- A struct has the fields of its lines, and registers its name and the types they mention. -/
theorem readStruct_gives {ctx : Context} {ts body : List Token}
    (h : structBody? ctx ts = some body) (isPublic isUnion : Bool) {lines : List LineVisit}
    (hlines : Lines ctx body lines) :
    ∃ d, (readStruct ctx isPublic isUnion ts).statement = some (.struct d) ∧
      d.fields = lines.filterMap (fun line => (line.step ctx).field) ∧
      (readStruct ctx isPublic isUnion ts).registrations
        = .struct d.name :: (lines.flatMap fun line => (line.step ctx).mentions).map .mention := by
  obtain ⟨declared, rest, t, hread, hrest, hkind⟩ := structBody?_eq_some.mp h
  obtain ⟨hfields, hmentions⟩ := bodyFrom_of_lines hlines ⟨t.span, .unclosed .brace⟩
  simp only [readStruct, hread, hrest, readBody?, hkind, if_true]
  refine ⟨_, rfl, hfields, ?_⟩
  rw [← hmentions]
  rfl

theorem outlineFrom_statements {text : List Char} {moduleName : String} {ts : List Token}
    {visits : List Visit} (h : Visits text moduleName ts visits) :
    (outlineFrom text moduleName ts).statements
      = visits.filterMap fun v => (v.step text).statement := by
  induction h with
  | done moduleName => rfl
  | @newline moduleName t ts visits hkind later ih =>
      rw [outlineFrom_newline _ _ ts hkind]
      exact ih
  | @statement moduleName t ts visits hkind later ih =>
      rw [outlineFrom_statement _ _ ts hkind, List.filterMap_cons, ← ih]
      show (Visit.step text ⟨moduleName, t, ts⟩).statement.toList ++ _ = _
      cases (Visit.step text ⟨moduleName, t, ts⟩).statement <;> rfl

/-- **A line of a file:** a field that is read there is a field of a struct in the file, and the
types that it mentions are registered one behind the other. -/
theorem StructLine.gives {text : List Char} {moduleName : String} {line : LineVisit}
    (h : StructLine text moduleName line) :
    (∀ f, (line.step ⟨text, moduleName⟩).field = some f →
      ∃ d ∈ structsOf (ofText text).statements, f ∈ d.fields) ∧
    ∃ earlier later, (ofText text).registrations
      = earlier ++ (line.step ⟨text, moduleName⟩).mentions.map .mention ++ later := by
  obtain ⟨visits, v, hvisits, hv, rfl, ts, body, lines, htokens, hbody, hlines, hline⟩ := h
  have hstatements : (ofText text).statements
      = visits.filterMap fun v => (v.step text).statement := outlineFrom_statements hvisits
  have hregistrations : (ofText text).registrations
      = visits.flatMap fun v => (v.step text).registrations := outlineFrom_registrations hvisits
  rcases v.step_cases text with ⟨ts', isPublic, isUnion, htokens', hstep⟩ | ⟨htokens', -⟩ |
    ⟨htokens', -⟩
  · obtain rfl : ts = ts' := Option.some.inj (htokens.symm.trans htokens')
    obtain ⟨d, hd, hfields, hregistered⟩ := readStruct_gives hbody isPublic isUnion hlines
    rw [← hstep] at hd hregistered
    refine ⟨fun f hf => ⟨d, mem_structsOf.mpr ?_, ?_⟩, ?_⟩
    · rw [hstatements]
      exact List.mem_filterMap.mpr ⟨v, hv, hd⟩
    · rw [hfields]
      exact List.mem_filterMap.mpr ⟨line, hline, hf⟩
    · obtain ⟨before, behind, rfl⟩ := List.append_of_mem hv
      obtain ⟨front, back, rfl⟩ := List.append_of_mem hline
      rw [hregistrations, List.flatMap_append, List.flatMap_cons, hregistered,
        List.flatMap_append, List.flatMap_cons, List.map_append, List.map_append]
      refine ⟨before.flatMap (fun v => (v.step text).registrations) ++ .struct d.name ::
        (front.flatMap fun line => (line.step ⟨text, v.moduleName⟩).mentions).map .mention,
        (back.flatMap fun line => (line.step ⟨text, v.moduleName⟩).mentions).map .mention ++
          behind.flatMap fun v => (v.step text).registrations, ?_⟩
      simp only [List.append_assoc, List.cons_append]
  · simp [htokens] at htokens'
  · simp [htokens] at htokens'

end VServer.Outline

namespace VServer

/-- The field belongs to a struct of the tree. -/
def SyntaxTree.HasField (tree : SyntaxTree) (f : Field Range) : Prop :=
  ∃ d ∈ structsOf tree.statements, f ∈ d.fields

theorem Outline.StructLine.hasField {text : List Char} {moduleName : String} {line : LineVisit}
    (h : StructLine text moduleName line) {f : Field Text.Span}
    (hf : (line.step ⟨text, moduleName⟩).field = some f) (cwd path : String) (r : Reading) :
    (SourceFile.read cwd path text r).1.HasField
      (f.mapPlace ((LineIndex.ofText text).range text)) := by
  obtain ⟨d, hd, hmem⟩ := h.gives.1 f hf
  refine ⟨d.mapPlace ((LineIndex.ofText text).range text), ?_, List.mem_map_of_mem hmem⟩
  show _ ∈ structsOf ((ofText text).statements.map _)
  rw [structsOf_map_mapPlace]
  exact List.mem_map_of_mem hd

end VServer
