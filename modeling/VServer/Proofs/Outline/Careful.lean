/-
Reading with care.

A reader looks at the text of a name, of a type and of an access word, and it keeps some of them.
It cuts them out of the file by the places of tokens, of which it may take the start of one and the
end of another.  The readers here do the same with `cut?`, and give up at the first text that cannot
be cut out: a span that ends before it starts, or behind the file, or inside a character.

They never give up, and read what the readers of an outline read (`Careful.ofText_eq`).  The places
of the tokens of a file are in line, and all that is left behind by a reader is still in line, so
each lemma asks only for that.  A fault about a bracket is told with the text at its place, which
can be cut out as well, and is the bracket.

The module has two halves.  The first one writes the readers down again, each with `Option` where
it cuts a text out; nothing is changed in them otherwise.  The second one goes through the same
readers in the same order and shows that none of them gives up.  What they return is compared with
what the readers of an outline return, so that everything known about those holds here as well.
-/
import VServer.Proofs.Text.Cut
import VServer.SourceFile
import VServer.Proofs.Text.Position
import VServer.Proofs.Outline.Locality
import VServer.Proofs.Outline.Pointed

namespace VServer.Outline.Careful

open Text (Span InLine Boundary cut? byteSize)
open Token (spans spans_sublist)

/-! ### Names -/

/-- A foreign name behind its language and the dot, with its text. -/
def readForeignName (ctx : Context) (language : Language) (ts : List Token) :
    Option (Option (DeclaredName × List Char) × List Token) :=
  match ts with
  | t :: rest =>
    if t.kind.isName then
      let (stop, rest) := dottedEnd t.span.stop rest
      (cut? ctx.text ⟨t.span.start, stop⟩).map fun raw =>
        (some (⟨language, ⟨t.span.start, stop⟩⟩, raw), rest)
    else some (none, ts)
  | [] => some (none, [])

/-- The name that stands here with its text, and the tokens behind it. -/
def readName (ctx : Context) (allowOperator : Bool) (ts : List Token) :
    Option (Option (DeclaredName × List Char) × List Token) :=
  match ts with
  | [] => some (none, [])
  | t :: rest =>
    if allowOperator && t.kind.isOperatorPart then
      let (stop, rest) := operatorEnd t.span.stop rest
      (cut? ctx.text ⟨t.span.start, stop⟩).map fun raw =>
        (some (⟨.v, ⟨t.span.start, stop⟩⟩, raw), rest)
    else if t.kind.isName then
      (cut? ctx.text t.span).bind fun raw =>
        match Language.ofQualifier? raw, rest with
        | some language, d :: after =>
          if d.kind = .dot then readForeignName ctx language after
          else some (some (⟨.v, t.span⟩, raw), rest)
        | _, _ => some (some (⟨.v, t.span⟩, raw), rest)
    else some (none, ts)

/-- A name that was read, with its text. -/
def withText (ctx : Context) (read : Option DeclaredName × List Token) :
    Option (DeclaredName × List Char) × List Token :=
  (read.1.map fun d => (d, ctx.slice d.span), read.2)

/-! ### Fields -/

/-- A field with a type that starts at byte `start`, behind the name at `name`. -/
def readTypedField (ctx : Context) (name : Span) (start : Nat) (ts : List Token) :
    Option FieldStep :=
  let extent := typeExtent start ts
  let tail := skipFieldRest extent.rest
  (cut? ctx.text ⟨start, extent.stop⟩).bind fun raw =>
    (TypeText.cutBase? (Text.trim raw)).bind fun base? =>
      (cut? ctx.text name).map fun word =>
        { field := some ⟨String.ofList word, String.ofList (Text.trim raw), name⟩
          mentions := base?.toList.map (qualifyType ctx.moduleName)
          faults := extent.faults ++ tail.faults
          rest := tail.rest }

/-- A field or an embedded type, behind its first word. -/
def readField (ctx : Context) (name : Span) (ts : List Token) : Option FieldStep :=
  let embedded : Option FieldStep :=
    (cut? ctx.text name).map fun word => ⟨none, [qualifyType ctx.moduleName word], [], ts⟩
  match ts with
  | [] => embedded
  | t :: _ =>
    match t.kind with
    | .newline => embedded
    | .closer .brace => embedded
    | .dot =>
      let tail := skipFieldRest ts
      some ⟨none, [], tail.faults, tail.rest⟩
    | _ => readTypedField ctx name t.span.start ts

/-- A line of a struct.  What starts with no name is passed over, and no text is cut out. -/
def readLine (ctx : Context) (t : Token) (ts : List Token) : Option FieldStep :=
  if t.kind.isName then readField ctx t.span ts else some (Outline.readLine ctx t ts)

/-- Whether a token is part of the head of an access section. -/
def isAccessWord (ctx : Context) (t : Token) : Option Bool :=
  match t.kind with
  | .keyword .pubKw => some true
  | .keyword .mutKw => some true
  | .ident => (cut? ctx.text t.span).map fun word => word = "__global".toList
  | _ => some false

/-- The tokens behind the colon of an access section, if these are its words. -/
def accessSection? (ctx : Context) (begun : Bool) : List Token → Option (Option (List Token))
  | [] => some none
  | t :: ts =>
    if t.kind = .colon then some (if begun then some ts else none)
    else
      (isAccessWord ctx t).bind fun isWord =>
        if isWord then accessSection? ctx true ts else some none

/-- The lines of a struct, in at most `fuel` steps. -/
def readBodyIn (ctx : Context) (unclosed : Fault) (fuel : Nat) (ts : List Token) : Option Body :=
  match fuel, ts with
  | 0, ts => some ⟨[], [], [], ts⟩
  | _ + 1, [] => some ⟨[], [], [unclosed], []⟩
  | fuel + 1, t :: ts =>
    if t.kind = .newline then readBodyIn ctx unclosed fuel ts
    else if t.kind = .closer .brace then some ⟨[], [], [], ts⟩
    else
      (accessSection? ctx false (t :: ts)).bind fun
        | some rest => readBodyIn ctx unclosed fuel rest
        | none =>
          (readLine ctx t ts).bind fun step =>
            (readBodyIn ctx unclosed fuel step.rest).map (Body.prepend step)

/-- The body of a struct, if one stands here; otherwise the line is passed over. -/
def readBody? (ctx : Context) (ts : List Token) : Option Body :=
  match ts with
  | t :: rest =>
    if t.kind = .opener .brace then
      readBodyIn ctx ⟨t.span, .unclosed .brace⟩ (rest.length + 1) rest
    else
      let tail := skipStatement ts
      some ⟨[], [], tail.faults, tail.rest⟩
  | [] => some ⟨[], [], [], []⟩

/-! ### Statements -/

/-- A module line behind its first word. -/
def readModule (ctx : Context) (ts : List Token) : Option Step :=
  match ts with
  | t :: _ =>
    if t.kind = .ident then
      let tail := skipStatement ts
      (cut? ctx.text t.span).map fun raw =>
        ⟨some .other, [], tail.faults, String.ofList raw, tail.rest, {}⟩
    else some (Outline.readModule ctx ts)
  | [] => some (Outline.readModule ctx [])

/-- A function behind the word that starts it. -/
def readFunction (ctx : Context) (isPublic : Bool) (ts : List Token) : Option Step :=
  let (isMethod, receiver) := skipOptional .paren ts
  (readName ctx isMethod receiver.rest).map fun
    | (none, rest) =>
      otherStep ctx (receiver.faults ++ [⟨here ctx rest, .noFunctionName⟩]) rest
    | (some (declared, raw), rest) =>
      let generics := (skipOptional .square rest).2
      let tail := skipSignature generics.rest
      let name := qualifyIn declared.language ctx.moduleName (String.ofList raw)
      { statement := some (.function ⟨name, isPublic, isMethod, declared.language, declared.span⟩)
        registrations := if isMethod then [] else [.function name]
        faults := receiver.faults ++ generics.faults ++ tail.faults
        moduleName := ctx.moduleName
        rest := tail.rest
        tally := { functions := 1 } }

/-- A struct or a union behind the word that starts it. -/
def readStruct (ctx : Context) (isPublic isUnion : Bool) (ts : List Token) : Option Step :=
  (readName ctx false ts).bind fun
    | (none, rest) => some (otherStep ctx [⟨here ctx rest, .noStructName⟩] rest)
    | (some (declared, raw), rest) =>
      let generics := (skipOptional .square rest).2
      (readBody? ctx generics.rest).map fun body =>
        let name := qualifyIn declared.language ctx.moduleName (String.ofList raw)
        { statement := some
            (.struct ⟨name, isPublic, isUnion, declared.language, declared.span, body.fields⟩)
          registrations := .struct name :: body.mentions.map .mention
          faults := generics.faults ++ body.faults
          moduleName := ctx.moduleName
          rest := body.rest
          tally := { structs := 1 } }

/-- A statement behind the word `pub`. -/
def readPublic (ctx : Context) (ts : List Token) : Option Step :=
  match ts with
  | t :: rest =>
    match t.kind with
    | .keyword .fnKw => readFunction ctx true rest
    | .keyword .structKw => readStruct ctx true false rest
    | .keyword .unionKw => readStruct ctx true true rest
    | _ => some (otherStep ctx [] ts)
  | [] => some (otherStep ctx [] [])

/-- The statement that starts with the token `t`.  No text is cut out of an attribute, or of a
statement that is passed over. -/
def readStatement (ctx : Context) (t : Token) (ts : List Token) : Option Step :=
  match t.kind with
  | .keyword .moduleKw => readModule ctx ts
  | .keyword .pubKw => readPublic ctx ts
  | .keyword .fnKw => readFunction ctx false ts
  | .keyword .structKw => readStruct ctx false false ts
  | .keyword .unionKw => readStruct ctx false true ts
  | _ => some (Outline.readStatement ctx t ts)

/-- Read tokens from inside the module `moduleName`, in at most `fuel` steps. -/
def readFrom (text : List Char) (fuel : Nat) (moduleName : String) (ts : List Token) :
    Option Outline :=
  match fuel, ts with
  | 0, _ => some ⟨[], [], [], moduleName, {}⟩
  | _ + 1, [] => some ⟨[], [], [], moduleName, {}⟩
  | fuel + 1, t :: ts =>
    if t.kind = .newline then readFrom text fuel moduleName ts
    else
      (readStatement ⟨text, moduleName⟩ t ts).bind fun step =>
        (readFrom text fuel step.moduleName step.rest).map (Outline.prepend step)

/-- The faults of text that starts no token.  A text that cannot be cut out is told as a question
mark. -/
def strayFaults (text : List Char) (lexemes : List Lexeme) : List Fault :=
  (lexemes.filter Lexeme.isStray).map fun l =>
    ⟨l.span, .strayText (String.ofList ((cut? text l.span).getD ['?']))⟩

/-- The outline of a file. -/
def ofText (text : List Char) : Option Outline :=
  let lexemes := Token.scan text
  let tokens := lexemes.filterMap Lexeme.token?
  (readFrom text tokens.length "" tokens).map fun outline =>
    { outline with faults := strayFaults text lexemes ++ outline.faults }

/-- A fault in words.  A bracket is told by the text at its place. -/
def message (text : List Char) (f : Fault) : Option String :=
  let marked (word : String) : Option String :=
    (cut? text f.span).map fun raw => word ++ FaultCause.marked (String.ofList raw)
  match f.cause with
  | .unclosed _ => marked "unclosed "
  | .unmatched _ => marked "unmatched "
  | .mismatched _ => marked "mismatched "
  | cause => some cause.message

/-! ### Names are cut out

The span of a name runs from the start of its first token to the end of its last one.  Both are
places of tokens, and tokens that are in line lie between characters and follow each other, so the
span is not turned around and ends no character in the middle.
-/

variable {ctx : Context} {ts : List Token}

/-- The text of a name that was read can be cut out. -/
theorem cut?_of_narrows {read : Option DeclaredName × List Token} (h : InLine ctx.text (spans ts))
    (hread : Text.Narrows (spans ts) (nameSpans read)) {d : DeclaredName} (hd : read.1 = some d) :
    cut? ctx.text d.span = some (ctx.slice d.span) := by
  have hspans : InLine ctx.text (nameSpans read) := hread ctx.text [] h
  have hmem : d.span ∈ nameSpans read := by
    rw [nameSpans, hd]
    exact List.mem_cons_self
  exact hspans.cut? hmem

theorem readForeignName_eq (language : Language) (h : InLine ctx.text (spans ts)) :
    readForeignName ctx language ts
      = some (withText ctx (Outline.readForeignName language ts)) := by
  have hnarrows := readForeignName_narrows language ts
  cases ts with
  | nil => rfl
  | cons t rest =>
      by_cases hname : t.kind.isName = true
      · simp only [readForeignName, Outline.readForeignName, if_pos hname] at hnarrows ⊢
        rw [cut?_of_narrows h hnarrows rfl]
        rfl
      · simp only [readForeignName, Outline.readForeignName, if_neg hname]
        rfl

theorem inLine_of_suffix (h : InLine ctx.text (spans ts)) {rest : List Token}
    (hrest : rest <:+ ts) : InLine ctx.text (spans rest) :=
  h.sublist (spans_sublist hrest)

theorem cut?_of_mem (h : InLine ctx.text (spans ts)) {t : Token} (ht : t ∈ ts) :
    cut? ctx.text t.span = some (ctx.slice t.span) :=
  h.cut? (List.mem_map_of_mem ht)

theorem readName_eq (allowOperator : Bool) (h : InLine ctx.text (spans ts)) :
    readName ctx allowOperator ts
      = some (withText ctx (Outline.readName ctx allowOperator ts)) := by
  have hnarrows := readName_narrows ctx allowOperator ts
  cases ts with
  | nil => rfl
  | cons t rest =>
      simp only [readName, Outline.readName] at hnarrows ⊢
      split
      · rename_i hoperator
        simp only [if_pos hoperator] at hnarrows
        rw [cut?_of_narrows h hnarrows rfl]
        rfl
      · split
        · rw [cut?_of_mem h List.mem_cons_self, Option.bind_some]
          cases Language.ofQualifier? (ctx.slice t.span) with
          | none => rfl
          | some language =>
              cases rest with
              | nil => rfl
              | cons d after =>
                  simp only
                  split
                  · have hafter : after <:+ t :: d :: after :=
                      (List.suffix_cons d after).trans (List.suffix_cons t _)
                    exact readForeignName_eq language (inLine_of_suffix h hafter)
                  · rfl
        · rfl

/-! ### Types and fields are cut out

The type of a field is the one text that is cut out by two places of different origin: it starts
where its first token does, and stops where following it has stopped.  That is the end of one of
the tokens behind the start, or the start itself if there is none.
-/

/-- The type of a field starts and ends between characters. -/
theorem cut?_typeExtent {t : Token} (h : InLine ctx.text (spans (t :: ts))) :
    cut? ctx.text ⟨t.span.start, (typeExtent t.span.start (t :: ts)).stop⟩
      = some (ctx.slice ⟨t.span.start, (typeExtent t.span.start (t :: ts)).stop⟩) := by
  obtain ⟨hstart, hstop, hlt⟩ := h.placed t.span List.mem_cons_self
  have hstops : ∀ u ∈ t :: ts,
      Boundary ctx.text u.span.stop ∧ t.span.start ≤ u.span.stop := by
    intro u hu
    rcases List.mem_cons.mp hu with rfl | hu
    · exact ⟨hstop, Nat.le_of_lt hlt⟩
    · have hspan : u.span ∈ spans ts := List.mem_map_of_mem hu
      obtain ⟨-, hustop, hult⟩ := h.placed u.span (List.mem_cons_of_mem _ hspan)
      have hgap := (List.pairwise_cons.mp h.apart).1 u.span hspan
      exact ⟨hustop, by omega⟩
  have htype := typeEnd_stop (P := fun n => Boundary ctx.text n ∧ t.span.start ≤ n) (t :: ts) false
    t.span.start ⟨hstart, Nat.le_refl _⟩ hstops
  exact Text.cut?_of_boundary hstart htype.1 htype.2

theorem readTypedField_eq {name t : Token} (h : InLine ctx.text (spans (name :: t :: ts))) :
    readTypedField ctx name.span t.span.start (t :: ts)
      = some (Outline.readTypedField ctx name.span t.span.start (t :: ts)) := by
  have htype := cut?_typeExtent (inLine_of_suffix h (List.suffix_cons name (t :: ts)))
  simp only [readTypedField, htype, Option.bind_some, TypeText.cutBase?_eq,
    cut?_of_mem h List.mem_cons_self, Option.map_some]
  rfl

theorem readField_eq {name : Token} (h : InLine ctx.text (spans (name :: ts))) :
    readField ctx name.span ts = some (Outline.readField ctx name.span ts) := by
  have hname := cut?_of_mem h List.mem_cons_self
  cases ts with
  | nil =>
      simp only [readField, hname]
      rfl
  | cons t ts =>
      have htyped := readTypedField_eq h
      simp only [readField, Outline.readField, hname, Option.map_some]
      generalize t.kind = kind
      cases kind with
      | newline => rfl
      | dot => rfl
      | closer b =>
          cases b with
          | brace => rfl
          | paren => exact htyped
          | square => exact htyped
      | _ => exact htyped

theorem readLine_eq {t : Token} (h : InLine ctx.text (spans (t :: ts))) :
    readLine ctx t ts = some (Outline.readLine ctx t ts) := by
  unfold readLine
  split
  · rename_i hname
    unfold Outline.readLine
    rw [readField_eq h, if_pos hname]
  · rfl

theorem isAccessWord_eq (h : InLine ctx.text (spans ts)) {t : Token} (ht : t ∈ ts) :
    isAccessWord ctx t = some (Outline.isAccessWord ctx t) := by
  unfold isAccessWord
  split
  · rename_i hkind
    rw [Outline.isAccessWord, hkind]
    rfl
  · rename_i hkind
    rw [Outline.isAccessWord, hkind]
    rfl
  · rename_i hkind
    rw [cut?_of_mem h ht, Outline.isAccessWord, hkind]
    rfl
  · rename_i hpub hmut hident
    rw [Outline.isAccessWord, decide_eq_false hpub, decide_eq_false hmut, decide_eq_false hident]
    rfl

theorem accessSection?_eq {begun : Bool} (h : InLine ctx.text (spans ts)) :
    accessSection? ctx begun ts = some (Outline.accessSection? ctx begun ts) := by
  induction ts generalizing begun with
  | nil => rfl
  | cons t ts ih =>
      rw [accessSection?, Outline.accessSection?]
      split
      · rfl
      · rw [isAccessWord_eq h List.mem_cons_self, Option.bind_some]
        split
        · exact ih (inLine_of_suffix h (List.suffix_cons t ts))
        · rfl

theorem readBodyIn_eq (unclosed : Fault) (fuel : Nat) (h : InLine ctx.text (spans ts)) :
    readBodyIn ctx unclosed fuel ts = some (Outline.readBodyIn ctx unclosed fuel ts) := by
  induction fuel generalizing ts with
  | zero => rfl
  | succ fuel ih =>
      cases ts with
      | nil => rfl
      | cons t ts =>
          have hlater : ∀ {rest : List Token}, rest <:+ ts → InLine ctx.text (spans rest) :=
            fun hrest => inLine_of_suffix h (hrest.trans (List.suffix_cons t ts))
          rw [readBodyIn, Outline.readBodyIn]
          split
          · exact ih (hlater (List.suffix_refl ts))
          split
          · rfl
          rename_i hclose
          rw [accessSection?_eq h, Option.bind_some]
          cases haccess : Outline.accessSection? ctx false (t :: ts) with
          | some rest => exact ih (hlater (accessSection?_cons_suffix haccess))
          | none =>
              simp only [readLine_eq h, Option.bind_some,
                ih (hlater (readLine_suffix ctx t ts hclose)), Option.map_some]

theorem readBody?_eq (h : InLine ctx.text (spans ts)) :
    readBody? ctx ts = some (Outline.readBody? ctx ts) := by
  cases ts with
  | nil => rfl
  | cons t rest =>
      simp only [readBody?, Outline.readBody?]
      split
      · exact readBodyIn_eq _ _ (inLine_of_suffix h (List.suffix_cons t rest))
      · rfl

/-! ### Statements are cut out -/

theorem readModule_eq (h : InLine ctx.text (spans ts)) :
    readModule ctx ts = some (Outline.readModule ctx ts) := by
  unfold readModule
  split
  · split
    · rename_i hident
      simp only [cut?_of_mem h List.mem_cons_self, Option.map_some, Outline.readModule,
        if_pos hident]
      rfl
    · rfl
  · rfl

theorem readFunction_eq (isPublic : Bool) (h : InLine ctx.text (spans ts)) :
    readFunction ctx isPublic ts = some (Outline.readFunction ctx isPublic ts) := by
  have hname := readName_eq (skipOptional .paren ts).1
    (inLine_of_suffix h (skipOptional_suffix .paren ts))
  simp only [readFunction, Outline.readFunction, hname, Option.map_some, withText]
  cases Outline.readName ctx (skipOptional .paren ts).1 (skipOptional .paren ts).2.rest with
  | mk read rest => cases read <;> rfl

theorem readStruct_eq (isPublic isUnion : Bool) (h : InLine ctx.text (spans ts)) :
    readStruct ctx isPublic isUnion ts = some (Outline.readStruct ctx isPublic isUnion ts) := by
  have hname := readName_eq false h
  have hsuffix := readName_suffix ctx false ts
  simp only [readStruct, Outline.readStruct, hname, Option.bind_some, withText]
  cases hread : Outline.readName ctx false ts with
  | mk read rest =>
      rw [hread] at hsuffix
      cases read with
      | none => rfl
      | some declared =>
          have hrest := (skipOptional_suffix .square rest).trans hsuffix
          simp only [Option.map_some, readBody?_eq (inLine_of_suffix h hrest)]
          rfl

theorem readPublic_eq (h : InLine ctx.text (spans ts)) :
    readPublic ctx ts = some (Outline.readPublic ctx ts) := by
  cases ts with
  | nil => rfl
  | cons t rest =>
      have hrest := inLine_of_suffix h (List.suffix_cons t rest)
      simp only [readPublic, Outline.readPublic]
      generalize t.kind = kind
      cases kind with
      | keyword word =>
          cases word with
          | fnKw => exact readFunction_eq true hrest
          | structKw => exact readStruct_eq true false hrest
          | unionKw => exact readStruct_eq true true hrest
          | _ => rfl
      | _ => rfl

theorem readStatement_eq {t : Token} (h : InLine ctx.text (spans (t :: ts))) :
    readStatement ctx t ts = some (Outline.readStatement ctx t ts) := by
  have hlater := inLine_of_suffix h (List.suffix_cons t ts)
  unfold readStatement
  split
  · rename_i hkind
    rw [readModule_eq hlater]
    unfold Outline.readStatement
    rw [hkind]
  · rename_i hkind
    rw [readPublic_eq hlater]
    unfold Outline.readStatement
    rw [hkind]
  · rename_i hkind
    rw [readFunction_eq false hlater]
    unfold Outline.readStatement
    rw [hkind]
  · rename_i hkind
    rw [readStruct_eq false false hlater]
    unfold Outline.readStatement
    rw [hkind]
  · rename_i hkind
    rw [readStruct_eq false true hlater]
    unfold Outline.readStatement
    rw [hkind]
  · rfl

theorem readFrom_eq {text : List Char} (fuel : Nat) (moduleName : String)
    (h : InLine text (spans ts)) :
    readFrom text fuel moduleName ts = some (Outline.readFrom text fuel moduleName ts) := by
  induction fuel generalizing moduleName ts with
  | zero => rfl
  | succ fuel ih =>
      cases ts with
      | nil => rfl
      | cons t ts =>
          rw [readFrom, Outline.readFrom]
          split
          · exact ih moduleName (h.sublist (spans_sublist (List.suffix_cons t ts)))
          · have hstep : readStatement ⟨text, moduleName⟩ t ts = _ := readStatement_eq h
            have hrest := (readStatement_reads ⟨text, moduleName⟩ t ts).rest
            have hlater := h.sublist (spans_sublist (hrest.trans (List.suffix_cons t ts)))
            simp only [hstep, Option.bind_some, ih _ hlater, Option.map_some]

/-! ### The file

A fault about a bracket is told by the text at its place.  That text is a bracket of the kind that
the fault names, so the fault says the same in words whether its text is cut out or taken from the
cause.
-/

theorem strayFaults_eq (text : List Char) :
    strayFaults text (Token.scan text) = Outline.strayFaults text (Token.scan text) := by
  refine List.map_congr_left fun l hl => ?_
  have hspan : l.span ∈ (Token.scan text).map Lexeme.span :=
    List.mem_map_of_mem (List.mem_filter.mp hl).1
  rw [(Token.scan_inLine text).cut? hspan]
  rfl

theorem ofText_eq (text : List Char) : ofText text = some (Outline.ofText text) := by
  have hread := readFrom_eq (Token.ofText text).length "" (Token.ofText_inLine text)
  unfold Token.ofText at hread
  simp only [ofText, hread, Option.map_some, strayFaults_eq]
  rfl

theorem marked_eq {text : List Char} {span : Span} {told : String}
    (h : (cut? text span).map String.ofList = some told) (word : String) :
    (cut? text span).map (fun raw => word ++ FaultCause.marked (String.ofList raw))
      = some (word ++ FaultCause.marked told) := by
  obtain ⟨raw, hraw, rfl⟩ := Option.map_eq_some_iff.mp h
  rw [hraw, Option.map_some]

/-- A fault is told as its cause says. -/
theorem message_eq {text : List Char} {f : Fault} (hf : f ∈ (Outline.ofText text).faults) :
    message text f = some f.cause.message := by
  have hbracket : ∀ kind told, f.cause.bracketKind? = some kind → bracketText kind = some told →
      (cut? text f.span).map String.ofList = some told := by
    intro kind told hkind htold
    have hpoints := ofText_points text
    have hspan : f.span ∈ spans (Token.ofText text) :=
      List.mem_map_of_mem (f := Token.span) (hpoints f hf kind hkind)
    rw [(Token.ofText_inLine text).cut? hspan, Option.map_some]
    exact congrArg some (hpoints.slice_eq hf hkind htold)
  obtain ⟨span, cause⟩ := f
  cases cause with
  | unclosed b => exact marked_eq (hbracket (.opener b) _ rfl rfl) "unclosed "
  | unmatched b => exact marked_eq (hbracket (.closer b) _ rfl rfl) "unmatched "
  | mismatched b => exact marked_eq (hbracket (.closer b) _ rfl rfl) "mismatched "
  | _ => rfl

/-- The texts of faults. -/
def messages (text : List Char) : List Fault → Option (List String)
  | [] => some []
  | f :: faults =>
    (message text f).bind fun first => (messages text faults).map fun later => first :: later

theorem messages_eq {text : List Char} {faults : List Fault}
    (h : faults ⊆ (Outline.ofText text).faults) :
    messages text faults = some (faults.map fun f => f.cause.message) := by
  induction faults with
  | nil => rfl
  | cons f faults ih =>
      have hlater := ih fun g hg => h (List.mem_cons_of_mem f hg)
      rw [messages, message_eq (h List.mem_cons_self), Option.bind_some, hlater]
      rfl

/-- Read the text of a file, with its faults in words. -/
def read (cwd path : String) (text : List Char) (r : Reading) :
    Option (SyntaxTree × List FaultReport × List String × Reading) :=
  (ofText text).bind fun outline =>
    (messages text outline.faults).map fun told =>
      (SourceFile.tree cwd path text outline, SourceFile.reports path text outline.faults, told,
        { table := r.table.registerAll outline.registrations
          scope := SourceFile.scopeAfter r.scope outline })

/-- **No text that is cut out of a file is cut inside a character.**  So reading with care never
gives up, and comes to the same as reading without. -/
theorem read_cuts_between_characters (cwd path : String) (text : List Char) (r : Reading) :
    -- Where a text can be cut.
    (∀ (cs raw : List Char) (s : Span), cut? cs s = some raw ↔
      s.start ≤ s.stop ∧ s.stop ≤ byteSize cs ∧ Boundary cs s.start ∧ Boundary cs s.stop ∧
        Text.slice cs s = raw) ∧
    -- Reading a file.
    (read cwd path text r =
      let (tree, reports, reading) := SourceFile.read cwd path text r
      some (tree, reports, reports.map fun report => report.cause.message, reading)) ∧
    -- Finding the line of an offset.
    ∀ offset,
      (∀ line, (LineIndex.ofText text).search offset = .found line →
        line < (LineIndex.ofText text).lineCount) ∧
      ∀ next, (LineIndex.ofText text).search offset = .missing next →
        0 < next ∧ next ≤ (LineIndex.ofText text).lineCount := by
  refine ⟨fun cs raw s => Text.cut?_eq_some_iff, ?_, LineIndex.search_within text⟩
  have htold := messages_eq (List.Subset.refl (Outline.ofText text).faults)
  simp only [read, ofText_eq, Option.bind_some, htold, Option.map_some, SourceFile.read,
    SourceFile.reports, List.map_map]
  rfl

end VServer.Outline.Careful
