/-
What is printed is read back.

The text of a file is scanned into the tokens of its words, so the reader meets the words of one
item in front of those of the next one, and an item is read as the statement it is (`ReadsAs`).
The readers of statements stop at different tokens, some behind a newline and some in front of it;
where a line ends, reading goes on in the same way from either (`outlineFrom_skipStatement`).

What an item is written as and what it is read as are told separately, by the grammar and by the
reader.  The theorem says that they agree for every file that can be written, with any blanks
between the words and anything balanced between brackets.  Its converse does not hold and is not
claimed: there are files with faults, and files that are read without any but were not built from
these items.
-/
import VServer.Proofs.Outline.Printed

namespace VServer.Grammar

open Token (Word Gap Written place print)
open Text (Span byteSize)
open Outline

/-! ### Items

An item starts with a word that no other kind of item starts with, behind a `pub` perhaps.  That
word decides which reader is called, and what the reader does with the words behind it has been
shown for each part.
-/

theorem skipStatement_faults {rest : List Token} (h : LineEnds rest) :
    (skipStatement rest).faults = [] := by
  cases rest with
  | nil => rfl
  | cons t ts => rw [skipStatement_newline ts (h t rfl)]

/-- Where a line ends, a file is read on as if nothing had been passed over. -/
theorem outlineFrom_skipStatement {text : List Char} {moduleName : String} {rest : List Token}
    (h : LineEnds rest) :
    outlineFrom text moduleName (skipStatement rest).rest = outlineFrom text moduleName rest := by
  cases rest with
  | nil => rfl
  | cons t ts =>
      rw [skipStatement_newline ts (h t rfl), outlineFrom_newline _ _ ts (h t rfl)]

/-- Tokens are read as the statement `st`, and reading goes on from `rest`. -/
def ReadsAs (text : List Char) (moduleName : String) (ts : List Token) (st : Statement Span)
    (behind : String) (rest : List Token) : Prop :=
  outlineFrom text moduleName ts
    = let later := outlineFrom text behind rest
      ⟨st :: later.statements, registrationsOf moduleName st ++ later.registrations, later.faults,
        later.moduleName, (Tally.ofStatement st).add later.tally⟩

theorem readsAs_of_step {text : List Char} {moduleName behind : String} {t : Token}
    {ts rest rest' : List Token} {st : Statement Span} (hkind : t.kind ≠ .newline)
    (hstep : readStatement ⟨text, moduleName⟩ t ts
      = ⟨some st, registrationsOf moduleName st, [], behind, rest', .ofStatement st⟩)
    (hrest : outlineFrom text behind rest' = outlineFrom text behind rest) :
    ReadsAs text moduleName (t :: ts) st behind rest := by
  rw [ReadsAs, outlineFrom_statement _ _ _ hkind, hstep]
  simp only
  rw [hrest]
  rfl

/-- The word `fn`, with `pub` in front of it or not, starts a function. -/
theorem readStatement_function (ctx : Context) (publicGap : Option Gap) (gap : Gap) (offset : Nat)
    (ts : List Token) :
    ∃ t us, place offset (publicWords publicGap ++ [.keyword gap .fnKw]) ++ ts = t :: us ∧
      t.kind ≠ .newline ∧ readStatement ctx t us = readFunction ctx publicGap.isSome ts := by
  cases publicGap with
  | none => exact ⟨_, _, rfl, by simp, rfl⟩
  | some before => exact ⟨_, _, rfl, by simp, rfl⟩

theorem readStatement_struct (ctx : Context) (publicGap : Option Gap) (isUnion : Bool) (gap : Gap)
    (offset : Nat) (ts : List Token) :
    ∃ t us, place offset (publicWords publicGap ++
        [.keyword gap (if isUnion then .unionKw else .structKw)]) ++ ts = t :: us ∧
      t.kind ≠ .newline ∧ readStatement ctx t us = readStruct ctx publicGap.isSome isUnion ts := by
  cases publicGap with
  | none => cases isUnion <;> exact ⟨_, _, rfl, by simp, rfl⟩
  | some before => cases isUnion <;> exact ⟨_, _, rfl, by simp, rfl⟩

/-- A statement without a place in an outline is passed over. -/
theorem readStatement_passedOver {ctx : Context} {t : Token} {ts : List Token}
    (h : isPassedOver t.kind (ts.head?.map Token.kind) = true) :
    readStatement ctx t ts = otherStep ctx [] (t :: ts) := by
  unfold readStatement
  split
  · rename_i hkind
    simp [isPassedOver, hkind] at h
  · rename_i hkind
    simp [isPassedOver, hkind] at h
  · rename_i hkind
    split
    · rename_i u us
      have hu : u.kind ≠ .opener .square := by simpa [isPassedOver, hkind] using h
      rw [if_neg hu]
    · rfl
  · rename_i hkind
    -- The word `pub` is passed over with the rest of the line.
    have hpub : otherStep ctx [] ts = otherStep ctx [] (t :: ts) := by
      simp only [otherStep]
      rw [skipStatement_plain ts (by simp [hkind]) (by simp [hkind, Kind.isBracket])]
    rw [← hpub]
    unfold readPublic
    split
    · rename_i u us
      have hu : u.kind ≠ .keyword .fnKw ∧ u.kind ≠ .keyword .structKw ∧
          u.kind ≠ .keyword .unionKw := by
        simpa [isPassedOver, hkind] using h
      split
      · exact absurd ‹_› hu.1
      · exact absurd ‹_› hu.2.1
      · exact absurd ‹_› hu.2.2
      · rfl
    · rfl
  · rename_i hkind
    simp [isPassedOver, hkind] at h
  · rename_i hkind
    simp [isPassedOver, hkind] at h
  · rename_i hkind
    simp [isPassedOver, hkind] at h
  · rfl

/-- A newline behind a statement does not change what it is. -/
theorem isPassedOver_newline {first : Kind} (h : isPassedOver first none = true) :
    isPassedOver first (some .newline) = true := by
  unfold isPassedOver at h ⊢
  split at h <;> simp_all

theorem readsAs_module (m : ModuleItem) {text : List Char} {moduleName : String} {offset : Nat}
    (hwritten : Written text offset (Item.module m).words) {rest : List Token}
    (hrest : LineEnds rest) :
    ReadsAs text moduleName (place offset (Item.module m).words ++ rest) .other
      (String.ofList m.name.text) rest := by
  have hname : Text.sliceString text
      (m.name.span (offset + byteSize (Word.keyword m.keyword .moduleKw).print))
        = String.ofList m.name.text := by
    rw [Text.sliceString, hwritten.tail.slice_word]
  refine readsAs_of_step (t := ⟨.keyword .moduleKw, _⟩) (by simp) ?_
    (outlineFrom_skipStatement hrest)
  show readModule _ (⟨m.name.kind, m.name.span _⟩ :: rest) = _
  rw [readModule]
  simp only [m.isIdent, if_true]
  rw [skipStatement_plain rest (by simp) (by simp [Kind.isBracket]), skipStatement_faults hrest,
    Context.sliceString, hname]
  rfl

theorem readsAs_function (f : FunctionItem) {text : List Char} {moduleName : String} {offset : Nat}
    (hwritten : Written text offset f.words) {rest : List Token} (hrest : LineEnds rest) :
    ReadsAs text moduleName (place offset f.words ++ rest)
      (.function (f.declared moduleName offset)) moduleName rest := by
  obtain ⟨t, us, hplace, hkind, hstep⟩ :=
    readStatement_function ⟨text, moduleName⟩ f.publicGap f.fn offset
      (place (offset + byteSize (print f.start)) f.rear ++ rest)
  change place offset f.start ++ _ = _ at hplace
  rw [FunctionItem.words, Token.place_append, List.append_assoc, hplace]
  refine readsAs_of_step hkind ?_ rfl
  rw [hstep, readFunction_words f hwritten hrest]

theorem readsAs_struct (s : StructItem) {text : List Char} {moduleName : String} {offset : Nat}
    (hwritten : Written text offset s.words) (rest : List Token) :
    ReadsAs text moduleName (place offset s.words ++ rest)
      (.struct (s.declared moduleName offset)) moduleName rest := by
  obtain ⟨t, us, hplace, hkind, hstep⟩ :=
    readStatement_struct ⟨text, moduleName⟩ s.publicGap s.isUnion s.keyword offset
      (place (offset + byteSize (print s.start)) s.rear ++ rest)
  change place offset s.start ++ _ = _ at hplace
  rw [StructItem.words, Token.place_append, List.append_assoc, hplace]
  refine readsAs_of_step hkind ?_ rfl
  rw [hstep, readStruct_words s hwritten]

theorem readsAs_other (o : OtherItem) {text : List Char} {moduleName : String} (offset : Nat)
    {rest : List Token} (hrest : LineEnds rest) :
    ReadsAs text moduleName (place offset o.content.words ++ rest) .other moduleName rest := by
  have hskip := skipStatement_words o.content o.oneLine offset rest
  obtain ⟨w, ws, hwords, hpassed⟩ := o.passedOver
  have hkind : w.kind ≠ .newline := by
    have hfilled : o.content.heads ≠ [] := by
      intro hnone
      cases hcontent : o.content <;> simp [hcontent, Balanced.heads, Balanced.words] at hnone hwords
    obtain ⟨v, more, hmore, hhead⟩ := words_eq_cons hfilled
    obtain ⟨rfl, -⟩ := List.cons.inj (hwords.symm.trans hmore)
    exact o.oneLine w (List.mem_of_mem_head? hhead)
  have hsecond : isPassedOver w.kind
      ((place (offset + byteSize w.print) ws ++ rest).head?.map Token.kind) = true := by
    cases ws with
    | cons v ws => exact hpassed
    | nil =>
        cases rest with
        | nil => exact hpassed
        | cons t ts =>
            show isPassedOver w.kind (some t.kind) = true
            rw [hrest t rfl]
            exact isPassedOver_newline hpassed
  rw [hwords, Token.place_cons, List.cons_append] at hskip ⊢
  refine readsAs_of_step hkind ?_ (outlineFrom_skipStatement hrest)
  rw [readStatement_passedOver hsecond, otherStep, hskip, skipStatement_faults hrest]
  rfl

/-- **An item is read back as the statement it is.** -/
theorem readsAs_item (item : Item) {text : List Char} {moduleName : String} {offset : Nat}
    (hwritten : Written text offset item.words) {rest : List Token} (hrest : LineEnds rest) :
    ReadsAs text moduleName (place offset item.words ++ rest) (item.statement moduleName offset)
      (item.moduleBehind moduleName) rest := by
  cases item with
  | module m => exact readsAs_module m hwritten hrest
  | function f => exact readsAs_function f hwritten hrest
  | struct s => exact readsAs_struct s hwritten rest
  | other o => exact readsAs_other o offset hrest

/-! ### Files

The induction is on the items.  The module and the offset are those at the first item, and behind
it they are what the item makes of them; so the statement is about any module and any offset.
-/

theorem outlineFrom_newlines (text : List Char) (moduleName : String) (rest : List Token)
    (ends : List Gap) :
    ∀ offset, outlineFrom text moduleName (place offset (newlines ends) ++ rest)
      = outlineFrom text moduleName rest := by
  induction ends with
  | nil => intro offset; rfl
  | cons gap ends ih =>
      intro offset
      show outlineFrom text moduleName (⟨.newline, _⟩ :: (place _ (newlines ends) ++ rest)) = _
      rw [outlineFrom_newline _ _ _ rfl, ih]

theorem outlineOf_faults (moduleName : String) (offset : Nat) (items : List (Item × List Gap)) :
    (outlineOf moduleName offset items).faults = [] := by
  cases items <;> rfl

/-- The induction goes along the items; the module and the offset are those at the first one. -/
theorem outlineFrom_items (text : List Char) (items : List (Item × List Gap)) :
    Separated items → ∀ (moduleName : String) (offset : Nat),
      Written text offset (itemsWords items) →
      outlineFrom text moduleName (place offset (itemsWords items))
        = outlineOf moduleName offset items := by
  induction items with
  | nil => intro _ moduleName offset _; rfl
  | cons entry later ih =>
      intro hseparated moduleName offset hwritten
      obtain ⟨item, ends⟩ := entry
      obtain ⟨hlater, hends⟩ := separated_cons hseparated
      have hwords : itemsWords ((item, ends) :: later)
          = item.words ++ newlines ends ++ itemsWords later := rfl
      rw [hwords] at hwritten ⊢
      have hline : LineEnds (place (offset + byteSize (print item.words)) (newlines ends)
          ++ place (offset + byteSize (print (item.words ++ newlines ends)))
            (itemsWords later)) := by
        refine head_newlines (p := (· = .newline)) hends rfl ?_
        rintro rfl
        simp [itemsWords]
      have hitem : ReadsAs text moduleName _ _ _ _ := readsAs_item item hwritten.left.left hline
      have hplace := Token.place_append offset (item.words ++ newlines ends) (itemsWords later)
      rw [hplace, Token.place_append, List.append_assoc]
      rw [ReadsAs, outlineFrom_newlines, ih hlater _ _ hwritten.right] at hitem
      rw [hitem]
      simp only [outlineOf, outlineOf_faults]

/-- **The outline of a printed file is told by its items.** -/
theorem ofText_text (file : File) : Outline.ofText file.text = file.outline := by
  obtain ⟨htokens, hstray⟩ := Token.ofText_print file.laid file.behind
  have hnone : strayFaults file.text (Token.scan file.text) = [] := by
    have hfilter : (Token.scan file.text).filter Lexeme.isStray = [] :=
      List.filter_eq_nil_iff.mpr fun l hl => by simp [hstray l hl]
    rw [strayFaults, hfilter]
    rfl
  have hwritten : Written file.text (byteSize (print (newlines file.lead)))
      (itemsWords file.items) :=
    ⟨print (newlines file.lead), file.behind.chars, by simp [File.text], rfl⟩
  have hread : outlineFrom file.text "" (Token.ofText file.text) = file.outline := by
    rw [File.text, htokens, Token.place_append, outlineFrom_newlines, Nat.zero_add]
    exact outlineFrom_items _ file.items file.separated "" _ hwritten
  have hof : Outline.ofText file.text =
      { outlineFrom file.text "" (Token.ofText file.text) with
        faults := strayFaults file.text (Token.scan file.text)
          ++ (outlineFrom file.text "" (Token.ofText file.text)).faults } := rfl
  rw [hof, hnone, hread]
  rfl

end VServer.Grammar

namespace VServer.SourceFile

open Grammar (File)

/--
**A printed file is read back.**

Whatever stands inside brackets, a file gives one statement for each of its items, in order, with
the name, the flags and the place of each declaration and with the names, types and places of the
fields.  A type ends at a `[` behind a blank, unless it starts there, because attributes start with
such a bracket: `x []T` is a field of type `[]T`, but of `x chan []T` only `chan` is the type.  The
types of a printed file have no such bracket in them (`FieldLine.typeGoesOn`), so it is types
written in that way that are read back.  There are no faults, and nothing else is registered.
-/
theorem read_text (cwd path : String) (file : File) (r : Reading) :
    let range := (LineIndex.ofText file.text).range file.text
    read cwd path file.text r =
      ({ path, uri := fileUri cwd path, moduleName := file.outline.moduleName
         statements := file.outline.statements.map (Statement.mapPlace range) }, [],
        { table := r.table.registerAll file.outline.registrations
          scope :=
            { moduleName := file.outline.moduleName
              statistics :=
                { files := r.scope.statistics.files + 1
                  functions := r.scope.statistics.functions
                    + (functionsOf file.outline.statements).length
                  structs := r.scope.statistics.structs
                    + (structsOf file.outline.statements).length
                  faults := r.scope.statistics.faults } } }) := by
  have hfaults : file.outline.faults = [] := Grammar.outlineOf_faults _ _ file.items
  have htally : file.outline.tally = .ofStatements file.outline.statements := by
    rw [← Grammar.ofText_text]
    exact Outline.ofText_tally file.text
  simp [read, tree, reports, scopeAfter, Grammar.ofText_text, hfaults, htally,
    Outline.Tally.ofStatements]

end VServer.SourceFile

namespace VServer.Grammar

open Token (Word Gap)
open Outline (Balanced)

theorem ofWord?_singleton (c : Char) : Keyword.ofWord? [c] = none := by
  simp [Keyword.ofWord?]

/-- A letter as an identifier. -/
def letter (gap : Gap) (c : Char) (h : Token.isWordStart c = true) : Word :=
  .ident gap c [] h Word.isWordPart_of_mem_nil (ofWord?_singleton c)

/-- A method with what looks like a function in its body. -/
def nestedMethod : FunctionItem where
  publicGap := some .none
  fn := .space
  receiver := some ⟨.space, .word (letter .none 's' rfl) rfl
    (.word (letter .space 'S' rfl) rfl .done), .none⟩
  name := ⟨none, letter .space 'f' rfl, rfl⟩
  generics := none
  parameters := ⟨.none, .done, .none⟩
  result := .word (letter .space 'T' rfl) rfl .done
  resultLine := by simp [Balanced.heads, letter, Word.ident]
  body := some ⟨.space, .word (.keyword .space .fnKw) rfl (.word (letter .space 'g' rfl) rfl
    (.word (.newline .none) rfl (.group .brace .none .done .none .done))), .none⟩

/-- A field with a default value, whose type starts with a bracket. -/
def bracketField : FieldLine where
  name := letter .none 'x' rfl
  isIdent := rfl
  notAccess := by decide
  type := .group .square .space .done .none (.word (letter .none 'B' rfl) rfl .done)
  filled := by simp [Balanced.heads]
  notEmbedded := by simp [Balanced.heads]
  typeLine := by simp [Balanced.heads, letter, Word.ident]
  typeGoesOn := by simp [Balanced.heads, letter, Word.ident, Outline.GoesOnType]
  tail := .word ⟨.space, .equals, ['='], .mark rfl⟩ rfl
    (.word ⟨.space, .number, ['1'], .number rfl (by simp)⟩ rfl .done)
  tailStart := by simp [Balanced.heads]
  tailLine := by simp [Balanced.heads]

/-- A struct with an access section and that field. -/
def bracketStruct : StructItem where
  publicGap := none
  isUnion := false
  keyword := .none
  name := ⟨none, letter .space 'A' rfl, rfl⟩
  generics := none
  opening := .space
  lead := [.none]
  lines := [(.access (.keyword .none .pubKw) [] .none (by simp), [.none]),
    (.field bracketField, [.none])]
  separated := by simp [Separated]
  closing := .none

/-- An import of a brace. -/
def braceImport : OtherItem where
  content := .word (.keyword .none .importKw) rfl
    (.word ⟨.space, .quoted, ['\x22', '\x7d', '\x22'],
      @Token.Spelled.quoted '\x22' ['\x7d'] (.inr rfl) (.plain (by decide) (by decide) .done)⟩ rfl
      .done)
  oneLine := by simp [Balanced.heads]
  passedOver := ⟨_, _, rfl, rfl⟩

/-- One item of each kind. -/
def nestedFile : File where
  lead := []
  items := [(.module ⟨.none, letter .space 'm' rfl, rfl⟩, [.none]),
    (.function nestedMethod, [.none]), (.struct bracketStruct, [.none]), (.other braceImport, [])]
  separated := by simp [Separated]
  behind := .none
  laid := by decide

end VServer.Grammar

namespace VServer.SourceFile

open Grammar (nestedFile)

theorem read_text_nestedFile :
    nestedFile.text = ("module m\npub fn (s S) f() T \x7b fn g\n\x7b\x7d\x7d\n" ++
      "struct A \x7b\npub:\nx []B = 1\n\x7d\nimport \"\x7d\"").toList ∧
    (read "/" "/a.v" nestedFile.text {}).2.1 = [] ∧
    (read "/" "/a.v" nestedFile.text {}).1.moduleName = "m" ∧
    nestedFile.outline.statements
      = [.other, .function ⟨"m.f", true, true, .v, ⟨22, 23⟩⟩,
        .struct ⟨"m.A", false, false, .v, ⟨46, 47⟩, [⟨"x", "[]B", ⟨55, 56⟩⟩]⟩, .other] ∧
    nestedFile.outline.registrations = [.struct "m.A", .mention "m.B"] := by
  refine ⟨by decide, ?_, ?_, by decide, by decide⟩
  · rw [read_text]
  · rw [read_text]
    decide

end VServer.SourceFile
