/-
What a file registers, told from what it declares.

A function and a struct are registered under the names that the statements of the file give them.
A mention has two sources: the type of a field, which the statement still shows, and an embedded
type, which leaves no trace in it.  For the second one the lines of a struct are listed in the way
in which `Visits` lists the statements of a file, without any bound on the number of steps.

Membership is what is described, not order: for each registration of a file there is a statement
that accounts for it, and each statement accounts for what it declares.  The argument goes up in
three steps, from a line to a struct, from a struct to a statement, and from a statement to a file.
A function registers nothing but its name, and only if it has no receiver.
-/
import VServer.Proofs.Outline.Fuel
import VServer.Proofs.Outline.Naming

namespace VServer.Outline

/-! ### The lines of a struct

A line of one word embeds a type, and a line with a type behind its name is a field.  Both mention
a type, but only the field is kept; so the struct alone does not tell which types it embeds, and
the line has to be looked at.
-/

/-- A point of a struct at which a line starts: its first token and the tokens behind that. -/
structure LineVisit where
  first : Token
  behind : List Token

namespace LineVisit

/-- What is read here. -/
def step (ctx : Context) (v : LineVisit) : FieldStep :=
  readLine ctx v.first v.behind

/-- The type that is embedded here: a word with nothing behind it on its line. -/
def embedded? (text : List Char) (v : LineVisit) : Option (List Char) :=
  if v.first.kind.isName &&
      v.behind.head?.all (fun t => t.kind = .newline || t.kind = .closer .brace) then
    some (Text.slice text v.first.span)
  else none

/-- The type at the heart of the field that is read here. -/
def fieldBase? (ctx : Context) (v : LineVisit) : Option (List Char) :=
  (v.step ctx).field.bind fun f => TypeText.base? f.typeText.toList

/-- A line mentions the type of its field, or the type that it embeds. -/
theorem step_mentions (ctx : Context) (v : LineVisit) :
    (v.step ctx).mentions =
      ((v.fieldBase? ctx).toList ++ (v.embedded? ctx.text).toList).map
        (qualifyType ctx.moduleName) := by
  rcases v with ⟨t, ts⟩
  by_cases hname : t.kind.isName
  · have hstep : step ctx ⟨t, ts⟩ = readField ctx t.span ts := by simp [step, readLine, hname]
    unfold fieldBase?
    rw [hstep]
    unfold readField
    split
    · simp [embedded?, hname, Context.slice]
    · rename_i u us
      split
      · rename_i hu
        simp [embedded?, hname, hu, Context.slice]
      · rename_i hu
        simp [embedded?, hname, hu, Context.slice]
      · rename_i hu
        simp [embedded?, hu]
      · rename_i hnewline hclose hdot
        have hnone : embedded? ctx.text ⟨t, u :: us⟩ = none := by
          simp [embedded?, show u.kind ≠ .newline from hnewline,
            show u.kind ≠ .closer .brace from hclose]
        simp [hnone, readTypedField]
  · have hnone : embedded? ctx.text ⟨t, ts⟩ = none := by simp [embedded?, hname]
    have hstep : (step ctx ⟨t, ts⟩).field = none ∧ (step ctx ⟨t, ts⟩).mentions = [] := by
      simp only [step, readLine, hname]
      simp only [Bool.false_eq_true, if_false]
      split
      · exact ⟨rfl, rfl⟩
      · split <;> exact ⟨rfl, rfl⟩
      · exact ⟨rfl, rfl⟩
    simp [fieldBase?, hnone, hstep]

end LineVisit

/-- The points at which the lines of a struct start, where its tokens behind the opening brace are
given.  Access sections and empty lines are no such points. -/
inductive Lines (ctx : Context) : List Token → List LineVisit → Prop
  | unclosed : Lines ctx [] []
  | closed {t : Token} {ts : List Token} (hkind : t.kind = .closer .brace) :
      Lines ctx (t :: ts) []
  | newline {t : Token} {ts : List Token} {lines : List LineVisit} (hkind : t.kind = .newline)
      (later : Lines ctx ts lines) : Lines ctx (t :: ts) lines
  | access {t : Token} {ts rest : List Token} {lines : List LineVisit}
      (hnewline : t.kind ≠ .newline) (hclose : t.kind ≠ .closer .brace)
      (haccess : accessSection? ctx false (t :: ts) = some rest) (later : Lines ctx rest lines) :
      Lines ctx (t :: ts) lines
  | line {t : Token} {ts : List Token} {lines : List LineVisit}
      (hnewline : t.kind ≠ .newline) (hclose : t.kind ≠ .closer .brace)
      (haccess : accessSection? ctx false (t :: ts) = none)
      (later : Lines ctx ((⟨t, ts⟩ : LineVisit).step ctx).rest lines) :
      Lines ctx (t :: ts) (⟨t, ts⟩ :: lines)

theorem exists_lines (ctx : Context) :
    ∀ (fuel : Nat) (ts : List Token), ts.length ≤ fuel → ∃ lines, Lines ctx ts lines := by
  intro fuel
  induction fuel with
  | zero =>
      intro ts hlen
      obtain rfl : ts = [] := List.eq_nil_of_length_eq_zero (by omega)
      exact ⟨[], .unclosed⟩
  | succ fuel ih =>
      intro ts hlen
      cases ts with
      | nil => exact ⟨[], .unclosed⟩
      | cons t ts =>
          simp only [List.length_cons] at hlen
          by_cases hclose : t.kind = .closer .brace
          · exact ⟨[], .closed hclose⟩
          by_cases hnewline : t.kind = .newline
          · obtain ⟨lines, hlines⟩ := ih ts (by omega)
            exact ⟨lines, .newline hnewline hlines⟩
          cases haccess : accessSection? ctx false (t :: ts) with
          | some rest =>
              have hshort := (accessSection?_cons_suffix haccess).length_le
              obtain ⟨lines, hlines⟩ := ih rest (by omega)
              exact ⟨lines, .access hnewline hclose haccess hlines⟩
          | none =>
              have hshort := (readLine_suffix ctx t ts hclose).length_le
              obtain ⟨lines, hlines⟩ := ih (readLine ctx t ts).rest (by omega)
              exact ⟨_, .line hnewline hclose haccess hlines⟩

/-- The body of a struct is what its lines give. -/
theorem bodyFrom_of_lines {ctx : Context} {ts : List Token} {lines : List LineVisit}
    (h : Lines ctx ts lines) (unclosed : Fault) :
    (bodyFrom ctx unclosed ts).fields = lines.filterMap (fun v => (v.step ctx).field) ∧
      (bodyFrom ctx unclosed ts).mentions = lines.flatMap (fun v => (v.step ctx).mentions) := by
  induction h with
  | unclosed => exact ⟨rfl, rfl⟩
  | @closed t ts hkind =>
      rw [bodyFrom_close ts hkind]
      exact ⟨rfl, rfl⟩
  | @newline t ts lines hkind later ih =>
      rw [bodyFrom_newline ts hkind]
      exact ih
  | access hnewline hclose haccess later ih =>
      rw [bodyFrom_access hnewline hclose haccess]
      exact ih
  | @line t ts lines hnewline hclose haccess later ih =>
      obtain ⟨hfields, hmentions⟩ := ih
      rw [bodyFrom_line hnewline hclose haccess, List.filterMap_cons, List.flatMap_cons,
        ← hfields, ← hmentions]
      refine ⟨?_, rfl⟩
      show (LineVisit.step ctx ⟨t, ts⟩).field.toList ++ _ = _
      cases (LineVisit.step ctx ⟨t, ts⟩).field <;> rfl

/-! ### What a struct mentions -/

/-- The tokens behind the opening brace of a struct, where those behind the word that starts it
are given. -/
def structBody? (ctx : Context) (ts : List Token) : Option (List Token) :=
  match readName ctx false ts with
  | (none, _) => none
  | (some _, rest) =>
    match (skipOptional .square rest).2.rest with
    | [] => none
    | t :: body => if t.kind = .opener .brace then some body else none

/-- A type is embedded in the struct whose tokens, behind the word that starts it, are given. -/
def Embeds (ctx : Context) (ts : List Token) (name : List Char) : Prop :=
  ∃ body lines line, structBody? ctx ts = some body ∧ Lines ctx body lines ∧ line ∈ lines ∧
    line.embedded? ctx.text = some name

/-- A mentioned name is that of the type of a field, or of an embedded type. -/
theorem mem_mentions_of_lines {ctx : Context} {body : List Token} {lines : List LineVisit}
    (h : Lines ctx body lines) (span : Text.Span) (n : String) :
    n ∈ (readBody ctx span body).mentions ↔
      (∃ f ∈ (readBody ctx span body).fields, ∃ base,
        TypeText.base? f.typeText.toList = some base ∧ qualifyType ctx.moduleName base = n) ∨
      ∃ line ∈ lines, ∃ name, line.embedded? ctx.text = some name ∧
        qualifyType ctx.moduleName name = n := by
  obtain ⟨hfields, hmentions⟩ := bodyFrom_of_lines h ⟨span, .unclosed .brace⟩
  show n ∈ (bodyFrom _ _ _).mentions ↔ (∃ f ∈ (bodyFrom _ _ _).fields, _) ∨ _
  rw [hfields, hmentions]
  simp only [LineVisit.step_mentions, List.mem_flatMap, List.mem_map, List.mem_append,
    Option.mem_toList, LineVisit.fieldBase?, Option.bind_eq_some_iff, List.mem_filterMap]
  constructor
  · rintro ⟨line, hline, name, ⟨f, hf, hbase⟩ | hembedded, hn⟩
    · exact .inl ⟨f, ⟨line, hline, hf⟩, name, hbase, hn⟩
    · exact .inr ⟨line, hline, name, hembedded, hn⟩
  · rintro (⟨f, ⟨line, hline, hf⟩, name, hbase, hn⟩ | ⟨line, hline, name, hembedded, hn⟩)
    · exact ⟨line, hline, name, .inl ⟨f, hf, hbase⟩, hn⟩
    · exact ⟨line, hline, name, .inr hembedded, hn⟩

/-- The type of one of the fields is known as `n`. -/
def FieldResolves (moduleName : String) (fields : List (Field Text.Span)) (n : String) : Prop :=
  ∃ f ∈ fields, ∃ base,
    TypeText.base? f.typeText.toList = some base ∧ qualifyType moduleName base = n

/-- A struct registers itself and the types of its fields and those it embeds. -/
theorem mem_readStruct_registrations (ctx : Context) (isPublic isUnion : Bool) (ts : List Token)
    (r : Registration) :
    r ∈ (readStruct ctx isPublic isUnion ts).registrations ↔
      ∃ d, (readStruct ctx isPublic isUnion ts).statement = some (.struct d) ∧
        (r = .struct d.name ∨ ∃ n, r = .mention n ∧
          (FieldResolves ctx.moduleName d.fields n ∨
            ∃ name, Embeds ctx ts name ∧ qualifyType ctx.moduleName name = n)) := by
  unfold readStruct
  split
  · simp [otherStep]
  · rename_i declared rest hname
    have hbody : ∀ n, n ∈ (readBody? ctx (skipOptional .square rest).2.rest).mentions ↔
        FieldResolves ctx.moduleName (readBody? ctx (skipOptional .square rest).2.rest).fields n ∨
          ∃ name, Embeds ctx ts name ∧ qualifyType ctx.moduleName name = n := by
      intro n
      have hstruct : structBody? ctx ts = match (skipOptional .square rest).2.rest with
          | [] => none
          | t :: body => if t.kind = .opener .brace then some body else none := by
        rw [structBody?, hname]
      simp only [Embeds, hstruct]
      cases (skipOptional .square rest).2.rest with
      | nil => simp [readBody?, FieldResolves]
      | cons t body =>
          by_cases hkind : t.kind = .opener .brace
          · obtain ⟨lines, hlines⟩ := exists_lines ctx body.length body (Nat.le_refl _)
            simp only [readBody?, hkind, if_true, Option.some.injEq]
            constructor
            · intro hn
              refine ((mem_mentions_of_lines hlines t.span n).mp hn).imp id ?_
              rintro ⟨line, hline, name, hembedded, hn⟩
              exact ⟨name, ⟨body, lines, line, rfl, hlines, hline, hembedded⟩, hn⟩
            · rintro (hn | ⟨name, ⟨body', lines', line, rfl, hlines', hline, hembedded⟩, hn⟩)
              · exact (mem_mentions_of_lines hlines t.span n).mpr (.inl hn)
              · exact (mem_mentions_of_lines hlines' t.span n).mpr
                  (.inr ⟨line, hline, name, hembedded, hn⟩)
          · simp [readBody?, hkind, FieldResolves]
    simp only [List.mem_cons, List.mem_map, hbody, Option.some.injEq, Statement.struct.injEq,
      exists_eq_left']
    refine or_congr Iff.rfl ?_
    constructor
    · rintro ⟨n, hn, rfl⟩
      exact ⟨n, rfl, hn⟩
    · rintro ⟨n, rfl, hn⟩
      exact ⟨n, hn, rfl⟩

/-- A function registers its name, unless it is a method. -/
theorem mem_readFunction_registrations (ctx : Context) (isPublic : Bool) (ts : List Token)
    (r : Registration) :
    r ∈ (readFunction ctx isPublic ts).registrations ↔
      ∃ d, (readFunction ctx isPublic ts).statement = some (.function d) ∧
        d.isMethod = false ∧ r = .function d.name := by
  unfold readFunction
  simp only
  split
  · simp [otherStep]
  · cases (skipOptional .paren ts).1 <;> simp

theorem readFunction_statement_ne_struct (ctx : Context) (isPublic : Bool) (ts : List Token)
    (d : Struct Text.Span) : (readFunction ctx isPublic ts).statement ≠ some (.struct d) := by
  unfold readFunction
  simp only
  split <;> simp [otherStep]

theorem readStruct_statement_ne_function (ctx : Context) (isPublic isUnion : Bool)
    (ts : List Token) (d : Function Text.Span) :
    (readStruct ctx isPublic isUnion ts).statement ≠ some (.function d) := by
  unfold readStruct
  split <;> simp [otherStep]

/-! ### What a statement registers

`step_cases` says once which statements there are.  The lemmas behind it never look at the words
that a statement starts with.
-/

namespace Visit

/-- The tokens behind the word that starts a struct or a union, if one starts here. -/
def structTokens? (v : Visit) : Option (List Token) :=
  match v.first.kind, v.behind with
  | .keyword .structKw, ts => some ts
  | .keyword .unionKw, ts => some ts
  | .keyword .pubKw, t :: ts =>
    match t.kind with
    | .keyword .structKw => some ts
    | .keyword .unionKw => some ts
    | _ => none
  | _, _ => none

/-- A statement is a struct, or it is a function, or it declares and registers nothing. -/
theorem step_cases (text : List Char) (v : Visit) :
    (∃ ts isPublic isUnion, v.structTokens? = some ts ∧
      v.step text = readStruct ⟨text, v.moduleName⟩ isPublic isUnion ts) ∨
    (v.structTokens? = none ∧ ∃ ts isPublic,
      v.step text = readFunction ⟨text, v.moduleName⟩ isPublic ts) ∨
    (v.structTokens? = none ∧ (v.step text).registrations = [] ∧
      ∀ st ∈ (v.step text).statement, st = .other) := by
  rcases v with ⟨moduleName, first, behind⟩
  unfold step readStatement
  simp only
  split
  · rename_i hkind
    refine .inr (.inr ⟨by simp [structTokens?, hkind], ?_⟩)
    unfold readModule
    split
    · split <;> simp
    · simp
  · rename_i hkind
    exact .inr (.inr ⟨by simp [structTokens?, hkind], by simp [attributeStatement]⟩)
  · rename_i hkind
    refine .inr (.inr ⟨by simp [structTokens?, hkind], ?_⟩)
    split
    · split <;> simp [attributeStatement, otherStep]
    · simp [otherStep]
  · rename_i hkind
    unfold readPublic
    split
    · rename_i t ts
      split
      · rename_i ht
        exact .inr (.inl ⟨by simp [structTokens?, hkind, ht], ts, true, rfl⟩)
      · rename_i ht
        exact .inl ⟨ts, true, false, by simp [structTokens?, hkind, ht], rfl⟩
      · rename_i ht
        exact .inl ⟨ts, true, true, by simp [structTokens?, hkind, ht], rfl⟩
      · rename_i hfn hstruct hunion
        refine .inr (.inr ⟨?_, by simp [otherStep]⟩)
        simp only [structTokens?, hkind]
    · exact .inr (.inr ⟨by simp [structTokens?, hkind], by simp [otherStep]⟩)
  · rename_i hkind
    exact .inr (.inl ⟨by simp [structTokens?, hkind], behind, false, rfl⟩)
  · rename_i hkind
    exact .inl ⟨behind, false, false, by simp [structTokens?, hkind], rfl⟩
  · rename_i hkind
    exact .inl ⟨behind, false, true, by simp [structTokens?, hkind], rfl⟩
  · rename_i hmodule hsquare hat hpub hfn hstruct hunion
    refine .inr (.inr ⟨?_, by simp [otherStep]⟩)
    unfold structTokens?
    split
    · exact absurd ‹_› hstruct
    · exact absurd ‹_› hunion
    · exact absurd ‹_› hpub
    · rfl

/-- The type of a field, or a type that is embedded, is known as `n` in the struct that is read
here. -/
def Mentions (text : List Char) (v : Visit) (n : String) : Prop :=
  (∃ d, (v.step text).statement = some (.struct d) ∧ FieldResolves v.moduleName d.fields n) ∨
  ∃ ts name, v.structTokens? = some ts ∧ Embeds ⟨text, v.moduleName⟩ ts name ∧
    qualifyType v.moduleName name = n

/-- What a statement declares or mentions. -/
def Declares (text : List Char) (v : Visit) : Registration → Prop
  | .function n => ∃ d, (v.step text).statement = some (.function d) ∧ d.isMethod = false ∧
      d.name = n
  | .struct n => ∃ d, (v.step text).statement = some (.struct d) ∧ d.name = n
  | .mention n => v.Mentions text n

/-- A struct without a name has no body. -/
theorem exists_struct_of_embeds {ctx : Context} {ts : List Token} {name : List Char}
    (h : Embeds ctx ts name) (isPublic isUnion : Bool) :
    ∃ d, (readStruct ctx isPublic isUnion ts).statement = some (.struct d) := by
  obtain ⟨body, _, _, hbody, -⟩ := h
  unfold readStruct
  unfold structBody? at hbody
  split
  · rename_i hname
    simp [hname] at hbody
  · exact ⟨_, rfl⟩

/-- **A statement registers what it declares and what it mentions.** -/
theorem mem_step_registrations (text : List Char) (v : Visit) (r : Registration) :
    r ∈ (v.step text).registrations ↔ v.Declares text r := by
  rcases v.step_cases text with ⟨ts, isPublic, isUnion, htokens, hstep⟩ |
    ⟨htokens, ts, isPublic, hstep⟩ | ⟨htokens, hnone, hother⟩
  · rw [hstep, mem_readStruct_registrations]
    cases r with
    | function n => simp [Declares, hstep, readStruct_statement_ne_function]
    | struct n => simp [Declares, hstep, eq_comm]
    | mention n =>
        simp only [Declares, Mentions, hstep, htokens, reduceCtorEq, false_or,
          Registration.mention.injEq, exists_eq_left', Option.some.injEq]
        constructor
        · rintro ⟨d, hd, hfield | ⟨name, hname⟩⟩
          · exact .inl ⟨d, hd, hfield⟩
          · exact .inr ⟨ts, name, rfl, hname⟩
        · rintro (⟨d, hd, hfield⟩ | ⟨_, name, rfl, hembeds, hn⟩)
          · exact ⟨d, hd, .inl hfield⟩
          · obtain ⟨d, hd⟩ := exists_struct_of_embeds hembeds isPublic isUnion
            exact ⟨d, hd, .inr ⟨name, hembeds, hn⟩⟩
  · rw [hstep, mem_readFunction_registrations]
    cases r with
    | function n =>
        simp only [Declares, hstep, Registration.function.injEq]
        exact exists_congr fun d => and_congr_right fun _ => and_congr_right fun _ => eq_comm
    | struct n => simp [Declares, hstep, readFunction_statement_ne_struct]
    | mention n => simp [Declares, Mentions, hstep, htokens, readFunction_statement_ne_struct]
  · have hfunction : ∀ d, (v.step text).statement ≠ some (.function d) :=
      fun d hd => by simpa using hother _ hd
    have hstruct : ∀ d, (v.step text).statement ≠ some (.struct d) :=
      fun d hd => by simpa using hother _ hd
    cases r with
    | function n => simp [Declares, hnone, hfunction]
    | struct n => simp [Declares, hnone, hstruct]
    | mention n => simp [Declares, Mentions, hnone, htokens, hstruct]

end Visit

/-! ### What a file registers -/

theorem outlineFrom_registrations {text : List Char} {moduleName : String} {ts : List Token}
    {visits : List Visit} (h : Visits text moduleName ts visits) :
    (outlineFrom text moduleName ts).registrations
      = visits.flatMap fun v => (v.step text).registrations := by
  induction h with
  | done moduleName => rfl
  | @newline moduleName t ts visits hkind later ih =>
      rw [outlineFrom_newline _ _ ts hkind]
      exact ih
  | @statement moduleName t ts visits hkind later ih =>
      rw [outlineFrom_statement _ _ ts hkind, List.flatMap_cons, ← ih]
      rfl

/-- A file mentions the types that a struct in it mentions. -/
def Mentions (text : List Char) (n : String) : Prop :=
  ∃ visits, Visits text "" (Token.ofText text) visits ∧ ∃ v ∈ visits, v.Mentions text n

/-- What the statements of a file declare, and what the file mentions. -/
def DeclaresIn (text : List Char) : Registration → Prop
  | .function n => ∃ d ∈ functionsOf (ofText text).statements, d.isMethod = false ∧ d.name = n
  | .struct n => ∃ d ∈ structsOf (ofText text).statements, d.name = n
  | .mention n => Mentions text n

theorem mem_functionsOf {α : Type} {statements : List (Statement α)} {d : Function α} :
    d ∈ functionsOf statements ↔ .function d ∈ statements := by
  simp only [functionsOf, List.mem_filterMap]
  constructor
  · rintro ⟨st, hst, hd⟩
    cases st <;> simp [Statement.function?] at hd
    exact hd ▸ hst
  · intro h
    exact ⟨_, h, rfl⟩

theorem mem_structsOf {α : Type} {statements : List (Statement α)} {d : Struct α} :
    d ∈ structsOf statements ↔ .struct d ∈ statements := by
  simp only [structsOf, List.mem_filterMap]
  constructor
  · rintro ⟨st, hst, hd⟩
    cases st <;> simp [Statement.struct?] at hd
    exact hd ▸ hst
  · intro h
    exact ⟨_, h, rfl⟩

/-- **A file registers what its statements declare and what it mentions.** -/
theorem mem_registrations (text : List Char) (r : Registration) :
    r ∈ (ofText text).registrations ↔ DeclaresIn text r := by
  obtain ⟨visits, hvisits, hread⟩ :=
    readFrom_visits text _ "" (Token.ofText text) (Nat.le_refl _)
  have hstatements : (ofText text).statements
      = visits.filterMap fun v => (v.step text).statement := hread
  have hmem : ∀ {visits}, Visits text "" (Token.ofText text) visits →
      (r ∈ (ofText text).registrations ↔ ∃ v ∈ visits, v.Declares text r) := by
    intro visits hvisits
    have hregistrations : (ofText text).registrations
        = visits.flatMap fun v => (v.step text).registrations :=
      outlineFrom_registrations hvisits
    rw [hregistrations, List.mem_flatMap]
    simp only [Visit.mem_step_registrations]
  cases r with
  | function n =>
      rw [hmem hvisits]
      simp only [DeclaresIn, mem_functionsOf, hstatements, List.mem_filterMap, Visit.Declares]
      constructor
      · rintro ⟨v, hv, d, hd, hname⟩
        exact ⟨d, ⟨v, hv, hd⟩, hname⟩
      · rintro ⟨d, ⟨v, hv, hd⟩, hname⟩
        exact ⟨v, hv, d, hd, hname⟩
  | struct n =>
      rw [hmem hvisits]
      simp only [DeclaresIn, mem_structsOf, hstatements, List.mem_filterMap, Visit.Declares]
      constructor
      · rintro ⟨v, hv, d, hd, hname⟩
        exact ⟨d, ⟨v, hv, hd⟩, hname⟩
      · rintro ⟨d, ⟨v, hv, hd⟩, hname⟩
        exact ⟨v, hv, d, hd, hname⟩
  | mention n =>
      constructor
      · intro h
        exact ⟨visits, hvisits, (hmem hvisits).mp h⟩
      · rintro ⟨visits, hvisits, h⟩
        exact (hmem hvisits).mpr h

end VServer.Outline
