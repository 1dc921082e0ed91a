/-
Default values and attributes behind the type of a field.

Both stand on the line of the field, and what they hold is passed over.  So a field is the same
with them and without them: it has the same name at the same place and the same type, and the same
type is mentioned.  The one exception is an attribute that starts with an at sign and stands right
behind the type.  The type of a field ends at a blank only in front of a square bracket, so that
attribute is read as part of the type.

The statement compares two files that are the same up to the type.  In one the line ends there, and
in the other one a default value and an attribute follow.  That both readers come to the line is
the subject of `Fork`; what they make of it is told here by where the type ends (`lineGives`),
first for a line on which it ends behind its name, and then for the exception.
-/
import VServer.Proofs.Outline.Fork
import VServer.Proofs.Outline.Printed
import VServer.Proofs.Text.Heart
import VServer.Proofs.Text.Lines
import VServer.Proofs.Token.Longest

namespace VServer.Outline

open Text (Span Boundary byteSize)
open Grammar (FieldEnds mentionsOf)

/-! ### Tokens on one line -/

/-- Tokens that end no line, whatever stands between their brackets. -/
inductive OneLine : List Token → Prop
  | done : OneLine []
  | plain {t : Token} {ts : List Token} (hnewline : t.kind ≠ .newline)
      (hplain : t.kind.isBracket = false) (later : OneLine ts) : OneLine (t :: ts)
  | group {b : Bracket} {first last : Token} {inner ts : List Token}
      (hfirst : first.kind = .opener b) (hinner : Paired inner) (hlast : last.kind = .closer b)
      (later : OneLine ts) : OneLine (first :: (inner ++ last :: ts))

theorem OneLine.append {ts us : List Token} (h : OneLine ts) (h' : OneLine us) :
    OneLine (ts ++ us) := by
  induction h with
  | done => exact h'
  | plain hnewline hplain later ih => exact .plain hnewline hplain ih
  | group hfirst hinner hlast later ih =>
      rw [List.cons_append, List.append_assoc]
      exact .group hfirst hinner hlast ih

theorem skipFieldRest_oneLine {ts : List Token} (h : OneLine ts) (rest : List Token) :
    skipFieldRest (ts ++ rest) = skipFieldRest rest := by
  induction h with
  | done => rfl
  | plain hnewline hplain later ih =>
      rw [List.cons_append, skipFieldRest_plain _ hnewline hplain, ih]
  | group hfirst hinner hlast later ih =>
      rw [List.cons_append, List.append_assoc, List.cons_append, skipFieldRest_opener _ hfirst,
        skipGroup_paired hinner hlast, ih]
      rfl

/-! ### What may stand behind a type -/

/-- A default value, or nothing. -/
inductive IsDefault : List Token → Prop
  | none : IsDefault []
  | value {t : Token} {ts : List Token} (hkind : t.kind = .equals) (hline : OneLine ts) :
      IsDefault (t :: ts)

/-- An attribute that does not stand right behind byte `stop`, or nothing. -/
inductive IsAttribute (stop : Nat) : List Token → Prop
  | none : IsAttribute stop []
  | plain {first last : Token} {inner : List Token} (hgap : stop < first.span.start)
      (hfirst : first.kind = .opener .square) (hinner : Paired inner)
      (hlast : last.kind = .closer .square) : IsAttribute stop (first :: (inner ++ [last]))
  | signed {sign first last : Token} {inner : List Token} (hgap : stop < sign.span.start)
      (hsign : sign.kind = .atSign) (hjoined : first.span.start = sign.span.stop)
      (hfirst : first.kind = .opener .square) (hinner : Paired inner)
      (hlast : last.kind = .closer .square) : IsAttribute stop (sign :: first :: (inner ++ [last]))

theorem IsDefault.oneLine {ts : List Token} (h : IsDefault ts) : OneLine ts := by
  cases h with
  | none => exact .done
  | value hkind hline =>
      exact .plain (by rw [hkind]; decide) (by rw [hkind]; rfl) hline

theorem IsAttribute.oneLine {stop : Nat} {ts : List Token} (h : IsAttribute stop ts) :
    OneLine ts := by
  cases h with
  | none => exact .done
  | plain hgap hfirst hinner hlast => exact .group hfirst hinner hlast .done
  | signed hgap hsign hjoined hfirst hinner hlast =>
      exact .plain (by rw [hsign]; decide) (by rw [hsign]; rfl)
        (.group hfirst hinner hlast .done)

/-- The attribute starts with an at sign, and no default value stands in front of it. -/
def JoinsType (value attr : List Token) : Prop :=
  value = [] ∧ ∃ t ∈ attr.head?, t.kind = .atSign

/-- Neither a default value nor an attribute, and not the end of the line, goes on an access
section. -/
theorem head_tail {stop : Nat} {value attr ending : List Token} (hvalue : IsDefault value)
    (hattr : IsAttribute stop attr) (hending : FieldEnds ending) :
    ∀ t ∈ (value ++ attr ++ ending).head?, t.kind ≠ .colon ∧
      ∀ ctx, isAccessWord ctx t = false := by
  have hkinds : ∀ {t : Token}, t.kind = .newline ∨ t.kind = .closer .brace ∨ t.kind = .equals ∨
      t.kind = .opener .square ∨ t.kind = .atSign →
      t.kind ≠ .colon ∧ ∀ ctx, isAccessWord ctx t = false := by
    rintro t (h | h | h | h | h) <;> simp [isAccessWord, h]
  intro t ht
  refine hkinds ?_
  cases hvalue with
  | value hkind hline =>
      obtain rfl := Option.some.inj ht
      exact .inr (.inr (.inl hkind))
  | none =>
      cases hattr with
      | none => exact (hending t ht).imp_right .inl
      | plain hgap hfirst hinner hlast =>
          obtain rfl := Option.some.inj ht
          exact .inr (.inr (.inr (.inl hfirst)))
      | signed hgap hsign hjoined hfirst hinner hlast =>
          obtain rfl := Option.some.inj ht
          exact .inr (.inr (.inr (.inr hsign)))

/-- A name and a type in front of such a token are no part of an access section. -/
theorem accessSection?_typed (ctx : Context) (begun : Bool) {name type : Token} {ts : List Token}
    (hname : name.kind.isName = true) (htype : type.kind = .ident)
    (hts : ∀ t ∈ ts.head?, t.kind ≠ .colon ∧ ∀ ctx, isAccessWord ctx t = false) :
    accessSection? ctx begun (name :: type :: ts) = none := by
  have hcolon : name.kind ≠ .colon := by
    intro h
    simp [h, Kind.isName] at hname
  have hlater : accessSection? ctx true ts = none := by
    cases ts with
    | nil => rfl
    | cons t ts => simp [accessSection?, hts t rfl]
  simp [accessSection?, hcolon, htype, hlater]

/-- Two texts that are the same up to the type of a field, and part behind it. -/
def Fork.atField {text text' : List Char} {name type : Token} (ts : List Token)
    {ts' : List Token} (hname : name.kind.isName = true) (htype : type.kind = .ident)
    (hsame : Text.slice text name.span = Text.slice text' name.span)
    (hts : ∀ t ∈ ts'.head?, t.kind ≠ .colon ∧ ∀ ctx, isAccessWord ctx t = false) : Fork where
  text := text
  text' := text'
  word := name
  later := type :: ts
  later' := type :: ts'
  isName := hname
  same := hsame
  noAccess := fun _ begun => accessSection?_typed _ begun hname htype hts

/-- Both texts come to the line of the field. -/
theorem structLine_typed {text text' : List Char} {moduleName : String} {before : List Token}
    {name type : Token} {ts ts' : List Token}
    (hline : StructLine text moduleName ⟨name, type :: ts⟩)
    (htokens : Token.ofText text = before ++ name :: type :: ts)
    (htokens' : Token.ofText text' = before ++ name :: type :: ts')
    (hsame : ∀ t ∈ before ++ [name], Text.slice text t.span = Text.slice text' t.span)
    (hname : name.kind.isName = true) (htype : type.kind = .ident)
    (hts : ∀ t ∈ ts'.head?, t.kind ≠ .colon ∧ ∀ ctx, isAccessWord ctx t = false) :
    StructLine text' moduleName ⟨name, type :: ts'⟩ := by
  have hword := hsame name (by simp)
  have hpair : (Fork.atField ts hname htype hword hts).Pair (Token.ofText text)
      (Token.ofText text') := by
    rw [htokens, htokens']
    exact Fork.pair_append fun t ht => hsame t (List.mem_append_left _ ht)
  exact StructLine.alike hline hpair

/-! ### Where the type ends

The token behind the type decides.  An equals sign ends every type, and so does a square bracket
behind a blank.  An at sign does not, and then the bracket that follows it stands right behind a
token of the type and goes on with it.
-/

section TypeEnd

variable {stop : Nat} {value attr ending : List Token}

theorem endsType_of_fieldEnds (h : FieldEnds ending) : EndsType stop ending := by
  cases ending with
  | nil => trivial
  | cons t ts =>
      rcases h t rfl with hkind | hkind
      · exact .inl hkind
      · exact .inr (.inr (.inl ⟨.brace, hkind⟩))

/-- A default value ends the type, and so does an attribute behind a blank. -/
theorem typeEnd_tail (hvalue : IsDefault value) (hattribute : IsAttribute stop attr)
    (hending : FieldEnds ending) (hjoins : ¬ JoinsType value attr) :
    (typeEnd true stop (value ++ attr ++ ending)).stop = stop := by
  have hends : EndsType stop (value ++ attr ++ ending) := by
    cases hvalue with
    | value hkind hline => exact .inr (.inl hkind)
    | none =>
        cases hattribute with
        | none => exact endsType_of_fieldEnds hending
        | plain hgap hfirst hinner hlast => exact .inr (.inr (.inr ⟨hfirst, hgap⟩))
        | signed hgap hsign hjoined hfirst hinner hlast =>
            exact absurd ⟨rfl, _, rfl, hsign⟩ hjoins
  rw [typeEnd_end hends]

/-- An at sign goes on the type, and the square bracket right behind it too. -/
theorem typeEnd_joined (hattribute : IsAttribute stop attr) (hending : FieldEnds ending)
    (hjoins : JoinsType value attr) :
    ∃ last ∈ attr.getLast?, last.kind = .closer .square ∧
      (typeEnd true stop (value ++ attr ++ ending)).stop = last.span.stop := by
  obtain ⟨rfl, t, ht, hsign⟩ := hjoins
  cases hattribute with
  | none => cases ht
  | plain hgap hfirst hinner hlast =>
      obtain rfl := Option.some.inj ht
      rw [hfirst] at hsign
      cases hsign
  | @signed sign first last inner hgap hkind hjoined hfirst hinner hlast =>
      have hgroup : ¬ (Bracket.square = .square ∧ true = true ∧
          sign.span.stop < first.span.start) := by
        rintro ⟨-, -, hlt⟩
        omega
      have hmem : ((sign :: first :: inner) ++ [last]).getLast? = some last :=
        List.getLast?_concat
      refine ⟨last, hmem, hlast, ?_⟩
      simp only [List.nil_append, List.cons_append, List.append_assoc]
      rw [typeEnd_plain _ (by rw [hkind]; decide) (by rw [hkind]; decide) (by rw [hkind]; rfl),
        typeEnd_opener _ hfirst hgroup, skipGroup_paired hinner hlast]
      show (typeEnd true last.span.stop ending).stop = _
      rw [typeEnd_end (endsType_of_fieldEnds hending)]

end TypeEnd

/-- The field at `name` with a type from byte `start` up to byte `stop`. -/
def typedField (ctx : Context) (name : Span) (start stop : Nat) : Field Span :=
  ⟨ctx.sliceString name, String.ofList (Text.trim (ctx.slice ⟨start, stop⟩)), name⟩

/-- A field with a type that starts with a name. -/
theorem readLine_typed (ctx : Context) {name type : Token} (hname : name.kind.isName = true)
    (htype : type.kind = .ident) (ts : List Token) {f : Field Span}
    (hf : f = typedField ctx name.span type.span.start (typeEnd true type.span.stop ts).stop) :
    readLine ctx name (type :: ts)
      = ⟨some f, mentionsOf ctx.moduleName [f], (skipFieldRest ts).faults,
          (skipFieldRest ts).rest⟩ := by
  have hne : type.kind ≠ .newline ∧ type.kind ≠ .equals ∧ type.kind ≠ .closer .brace ∧
      type.kind ≠ .dot ∧ type.kind.isBracket = false := by
    rw [htype]
    decide
  obtain ⟨hnewline, hequals, hclose, hdot, hplain⟩ := hne
  have hextent : typeExtent type.span.start (type :: ts) = typeEnd true type.span.stop ts :=
    typeEnd_plain ts hnewline hequals hplain
  obtain ⟨hfaults, hrest⟩ := readTypedField_skims ctx name.span type.span.start (type :: ts)
  rw [skipFieldRest_plain ts hnewline hplain] at hfaults hrest
  rw [readLine_name _ hname, Grammar.readField_typed ts hnewline hclose hdot, ← hfaults, ← hrest]
  simp [readTypedField, hextent, hf, typedField, mentionsOf]

/-! ### The types that are mentioned

A field mentions the name at the end of its type.  A text that ends with a square bracket has no
name there, so the exception costs the mention as well.
-/

/-- The letters of words are letters of names. -/
theorem isNamePart_of_isWordPart {c : Char} (h : Token.isWordPart c = true) :
    TypeText.isNamePart c = true := by
  have hcode := Token.wordPart_code h
  have hsmall : c.toNat < 128 := by omega
  simpa [TypeText.isNamePart, Text.isAlphanumeric, hsmall, Token.isWordPart] using h

/-- An identifier is made of letters that words have, and the first one is no digit. -/
theorem ident_word {raw : List Char} (h : Token.Spelled .ident raw) :
    ∃ c cs, raw = c :: cs ∧ Token.isWordStart c = true ∧
      (∀ d ∈ cs, Token.isWordPart d = true) ∧ Keyword.ofWord? raw = none := by
  cases h with
  | ident hc hcs hfree => exact ⟨_, _, rfl, hc, hcs, hfree⟩
  | @mark c _ hmark =>
      have hall : Token.marks.all (fun c => !decide (Token.markKind? c = some .ident)) = true := by
        decide
      have hc := List.all_eq_true.mp hall c (Token.mem_marks hmark)
      simp [hmark] at hc

/-- A name is about itself. -/
theorem base?_ident {raw : List Char} (h : Token.Spelled .ident raw) :
    TypeText.base? raw = some raw := by
  obtain ⟨c, cs, rfl, hc, hcs, hfree⟩ := ident_word h
  have hparts : ∀ d ∈ c :: cs, TypeText.isNamePart d = true := by
    intro d hd
    refine isNamePart_of_isWordPart ?_
    rcases List.mem_cons.mp hd with rfl | hd
    · rcases Bool.or_eq_true_iff.mp hc with hc | hc <;>
        simp [Token.isWordPart, Char.isAlphanum, hc]
    · exact hcs d hd
  have hdigit : c.isDigit = false := by
    by_contra hdigit
    have := Token.digit_code (by simpa using hdigit)
    have := Token.wordStart_code hc
    omega
  -- The word `fn` is a keyword, and so it is no identifier.
  have hfn : (c :: cs == ['f', 'n']) = false := by
    refine beq_eq_false_iff_ne.mpr fun heq => ?_
    rw [heq] at hfree
    cases hfree
  have hword : TypeText.isIdentifier (c :: cs) = true :=
    TypeText.isIdentifier_iff.mpr ⟨List.cons_ne_nil c cs, hparts, by simpa using hdigit⟩
  have hname := TypeText.NamedType.base?_text (.name ⟨.ofChars (c :: cs) hword, [], hfn⟩)
  have hchars : TypeText.DottedName.chars ⟨.ofChars (c :: cs) hword, [], hfn⟩ = c :: cs :=
    List.append_nil _
  rwa [TypeText.NamedType.text, TypeText.NamedType.innermost, hchars] at hname

/-- A closing square bracket is written in one way. -/
theorem spelled_closer {raw : List Char} (h : Token.Spelled (.closer .square) raw) :
    raw = [']'] := by
  cases h with
  | @mark c _ hmark =>
      have hall : Token.marks.all (fun c =>
          !decide (Token.markKind? c = some (.closer .square)) || decide (c = ']')) = true := by
        decide
      have hc := List.all_eq_true.mp hall c (Token.mem_marks hmark)
      simpa [hmark] using hc

/-- A text that ends with a square bracket names no type at its end. -/
theorem base?_bracket {front : List Char} (h : Text.Trimmed (front ++ [']'])) :
    TypeText.base? (front ++ [']']) = none := by
  have hpart : TypeText.isDottedNamePart ']' = false := by decide
  have hlast : TypeText.lastName (front ++ [']']) = [] := by simp [TypeText.lastName, hpart]
  simp only [TypeText.base?, h.trim, hlast]
  split <;> rfl

/-- The text from a name to a square bracket further on. -/
theorem slice_joined {text : List Char} {type last : Token} {ts : List Token}
    (hsuffix : type :: ts <:+ Token.ofText text) (hmem : last ∈ ts) (htype : type.kind = .ident)
    (hlast : last.kind = .closer .square) :
    ∃ front, Text.slice text ⟨type.span.start, last.span.stop⟩ = front ++ [']'] ∧
      Text.Trimmed (front ++ [']']) := by
  have hline := (Token.ofText_inLine text).sublist (Token.spans_sublist hsuffix)
  obtain ⟨hstart, hstop, hlt⟩ := hline.placed type.span List.mem_cons_self
  obtain ⟨hstart', hstop', hlt'⟩ :=
    hline.placed last.span (List.mem_cons_of_mem _ (List.mem_map_of_mem hmem))
  have hle : type.span.stop ≤ last.span.start :=
    List.rel_of_pairwise_cons hline.apart (List.mem_map_of_mem hmem)
  have hword := Token.spelled_slice (hsuffix.subset List.mem_cons_self)
  have hbracket := Token.spelled_slice (hsuffix.subset (List.mem_cons_of_mem _ hmem))
  rw [htype] at hword
  rw [hlast] at hbracket
  have hslice : Text.slice text ⟨type.span.start, last.span.stop⟩
      = Text.slice text type.span ++ (Text.slice text ⟨type.span.stop, last.span.start⟩
        ++ [']']) := by
    rw [Text.slice_cut hstart hstop hstop' (by omega) (by omega),
      Text.slice_cut hstop hstart' hstop' hle (by omega), ← spelled_closer hbracket]
  have hend : Text.Trimmed [']'] := ⟨⟨_, _, rfl, rfl⟩, [], _, rfl, rfl⟩
  have htrimmed := (hword.trimmed (by decide)).append
    (Text.slice text ⟨type.span.stop, last.span.start⟩) hend
  rw [hslice]
  rw [← List.append_assoc] at htrimmed ⊢
  exact ⟨_, rfl, htrimmed⟩

/-- A type that is a name is the text of the name, and mentions it. -/
theorem typedField_ident {text : List Char} (moduleName : String) (name : Span) {type : Token}
    (hmem : type ∈ Token.ofText text) (htype : type.kind = .ident) :
    (typedField ⟨text, moduleName⟩ name type.span.start type.span.stop).typeText
        = Text.sliceString text type.span ∧
      mentionsOf moduleName [typedField ⟨text, moduleName⟩ name type.span.start type.span.stop]
        = [qualifyType moduleName (Text.slice text type.span)] := by
  have hword := Token.spelled_slice hmem
  rw [htype] at hword
  have htext : Text.trim (Text.slice text ⟨type.span.start, type.span.stop⟩)
      = Text.slice text type.span := (hword.trimmed (by decide)).trim
  refine ⟨congrArg String.ofList htext, ?_⟩
  simp [mentionsOf, typedField, Context.slice, htext, base?_ident hword]

/-- A type that goes on to a square bracket is the text up to there, and mentions nothing. -/
theorem typedField_joined {text : List Char} (moduleName : String) (name : Span)
    {type last : Token} {ts : List Token} (hsuffix : type :: ts <:+ Token.ofText text)
    (hmem : last ∈ ts) (htype : type.kind = .ident) (hlast : last.kind = .closer .square) :
    (typedField ⟨text, moduleName⟩ name type.span.start last.span.stop).typeText
        = Text.sliceString text ⟨type.span.start, last.span.stop⟩ ∧
      mentionsOf moduleName [typedField ⟨text, moduleName⟩ name type.span.start last.span.stop]
        = [] := by
  obtain ⟨before, hslice, htrimmed⟩ := slice_joined hsuffix hmem htype hlast
  have htext : Text.trim (Text.slice text ⟨type.span.start, last.span.stop⟩) = before ++ [']'] := by
    rw [hslice, htrimmed.trim]
  refine ⟨?_, ?_⟩
  · rw [Text.sliceString, hslice, ← htext]
    rfl
  · simp [mentionsOf, typedField, Context.slice, htext, base?_bracket htrimmed]

end VServer.Outline

namespace VServer.SourceFile

open Outline
open Text (Span Boundary byteSize)
open Grammar (FieldEnds mentionsOf)

/-- What reading one line of a struct gives: the field `f` and the registrations `effect`, without a
fault, and reading goes on where the line ends. -/
structure LineGives (text : List Char) (moduleName : String) (line : LineVisit)
    (ending : List Token) (f : Field Range) (effect : List Registration) : Prop where
  field : (line.step ⟨text, moduleName⟩).field.map
    (Field.mapPlace ((LineIndex.ofText text).range text)) = some f
  mentions : (line.step ⟨text, moduleName⟩).mentions.map .mention = effect
  quiet : (line.step ⟨text, moduleName⟩).faults = []
  behind : (line.step ⟨text, moduleName⟩).rest = (skipFieldRest ending).rest
  inTree : ∀ cwd path r, (read cwd path text r).1.HasField f
  inTable : ∃ earlier later, ∀ cwd path r, (read cwd path text r).2.2.table
    = ((r.table.registerAll earlier).registerAll effect).registerAll later

/-- What a line gives, told by where the type of its field ends. -/
theorem lineGives {text : List Char} {moduleName : String} {name type : Token}
    {tail ending : List Token}
    (hline : StructLine text moduleName ⟨name, type :: (tail ++ ending)⟩)
    (hname : name.kind.isName = true) (htype : type.kind = .ident) (htail : OneLine tail)
    (hending : FieldEnds ending) {stop : Nat}
    (hstop : (typeEnd true type.span.stop (tail ++ ending)).stop = stop) {typeText : String}
    {mentioned : List String}
    (hgives : (typedField ⟨text, moduleName⟩ name.span type.span.start stop).typeText = typeText ∧
      mentionsOf moduleName [typedField ⟨text, moduleName⟩ name.span type.span.start stop]
        = mentioned) :
    LineGives text moduleName ⟨name, type :: (tail ++ ending)⟩ ending
      ⟨Text.sliceString text name.span, typeText, (LineIndex.ofText text).range text name.span⟩
      (mentioned.map .mention) := by
  obtain ⟨rfl, rfl⟩ := hgives
  set f := typedField ⟨text, moduleName⟩ name.span type.span.start stop with hf
  have hstep : LineVisit.step ⟨text, moduleName⟩ ⟨name, type :: (tail ++ ending)⟩
      = ⟨some f, mentionsOf moduleName [f], [], (skipFieldRest ending).rest⟩ := by
    rw [← hstop] at hf
    rw [LineVisit.step, readLine_typed _ hname htype _ hf, skipFieldRest_oneLine htail,
      Grammar.skipFieldRest_faults hending]
  refine ⟨?_, ?_, ?_, ?_, fun cwd path r => hline.hasField (f := f) (by rw [hstep]) cwd path r, ?_⟩
  · rw [hstep]
    rfl
  · rw [hstep]
  · rw [hstep]
  · rw [hstep]
  · obtain ⟨earlier, later, hregistrations⟩ := hline.gives.2
    refine ⟨earlier, later, fun cwd path r => ?_⟩
    show r.table.registerAll (Outline.ofText text).registrations = _
    rw [hregistrations, hstep, Table.registerAll_append, Table.registerAll_append]

/-- A token in the front of a text has the same text and range in the front alone. -/
theorem token_front {text front : List Char} (hfront : front <+: text) {t : Token}
    (hmem : t ∈ Token.ofText text) (hle : t.span.stop ≤ byteSize front) :
    Text.slice text t.span = Text.slice front t.span ∧
      (LineIndex.ofText text).range text t.span = (LineIndex.ofText front).range front t.span := by
  obtain ⟨hstart, hstop, hlt⟩ :=
    (Token.ofText_inLine text).placed t.span (List.mem_map_of_mem hmem)
  obtain ⟨more, rfl⟩ := hfront
  have hstart' := hstart.front (by omega)
  have hstop' := hstop.front hle
  exact ⟨Text.slice_front front more hstart' hstop',
    LineIndex.range_front front more hstart' hstop'⟩

/-- The tokens up to some token end in front of it. -/
theorem stop_le_of_split {text : List Char} {before later : List Token} {last : Token}
    (htokens : Token.ofText text = before ++ last :: later) {t : Token}
    (ht : t ∈ before ++ [last]) : t.span.stop ≤ last.span.stop := by
  have hline := Token.ofText_inLine text
  rw [htokens] at hline
  rcases List.mem_append.mp ht with ht | ht
  · obtain ⟨-, -, hlt⟩ := hline.placed last.span (List.mem_map_of_mem (by simp))
    have hapart := hline.apart
    rw [Token.spans, List.map_append, List.pairwise_append] at hapart
    have hle := hapart.2.2 t.span (List.mem_map_of_mem ht) last.span (by simp)
    omega
  · obtain rfl := List.mem_singleton.mp ht
    exact Nat.le_refl _

/-- Where two texts have the same front, the tokens in it have the same text and range. -/
theorem tokens_front {front text text' : List Char} (hfront : front <+: text)
    (hfront' : front <+: text') {before later later' : List Token} {last : Token}
    (htokens : Token.ofText text = before ++ last :: later)
    (htokens' : Token.ofText text' = before ++ last :: later')
    (hsize : last.span.stop ≤ byteSize front) :
    ∀ t ∈ before ++ [last], Text.slice text t.span = Text.slice text' t.span ∧
      (LineIndex.ofText text).range text t.span
        = (LineIndex.ofText text').range text' t.span := by
  intro t ht
  have hle := (stop_le_of_split htokens ht).trans hsize
  have hmem : ∀ later, t ∈ before ++ last :: later := by
    intro later
    simp only [List.mem_append, List.mem_cons, List.not_mem_nil, or_false] at ht ⊢
    exact ht.imp_right .inl
  obtain ⟨hslice, hrange⟩ := token_front hfront (htokens ▸ hmem later) hle
  obtain ⟨hslice', hrange'⟩ := token_front hfront' (htokens' ▸ hmem later') hle
  exact ⟨hslice.trans hslice'.symm, hrange.trans hrange'.symm⟩

/--
**Default values and attributes do not change a field.**

Two files that are the same up to the type of a field may go on there with the end of the line, or
with a default value and an attribute.  The field has the same name, range and type in both, and the
same type is entered into the table, unless an attribute with an at sign stands right behind the
type.  Then the attribute is read as part of the type, and no type is entered.
-/
theorem read_tail (front : List Char) {text text' : List Char} {moduleName : String}
    {before : List Token} {name type : Token} {ending value attr ending' : List Token}
    (hline : StructLine text moduleName ⟨name, type :: ending⟩)
    (htokens : Token.ofText text = before ++ name :: type :: ending)
    (htokens' : Token.ofText text' = before ++ name :: type :: (value ++ attr ++ ending'))
    (hname : name.kind.isName = true) (htype : type.kind = .ident) (hending : FieldEnds ending)
    (hending' : FieldEnds ending') (hvalue : IsDefault value)
    (hattr : IsAttribute type.span.stop attr) (hfront : front <+: text) (hfront' : front <+: text')
    (hsize : type.span.stop ≤ byteSize front) :
    let f : Field Range := ⟨Text.sliceString text name.span, Text.sliceString text type.span,
      (LineIndex.ofText text).range text name.span⟩
    let effect := [Registration.mention (qualifyType moduleName (Text.slice text type.span))]
    let line' : LineVisit := ⟨name, type :: (value ++ attr ++ ending')⟩
    LineGives text moduleName ⟨name, type :: ending⟩ ending f effect ∧
      (¬ JoinsType value attr → LineGives text' moduleName line' ending' f effect) ∧
      (JoinsType value attr → ∃ last ∈ attr.getLast?,
        LineGives text' moduleName line' ending'
          { f with typeText := Text.sliceString text' ⟨type.span.start, last.span.stop⟩ } []) := by
  intro f effect line'
  have hsplit : Token.ofText text = (before ++ [name]) ++ type :: ending := by simp [htokens]
  have hsplit' : Token.ofText text'
      = (before ++ [name]) ++ type :: (value ++ attr ++ ending') := by simp [htokens']
  have hplaces := tokens_front hfront hfront' hsplit hsplit' hsize
  obtain ⟨hslice, hrange⟩ := hplaces name (by simp)
  have htypeSlice := (hplaces type (by simp)).1
  have hline' : StructLine text' moduleName line' :=
    structLine_typed hline htokens htokens'
      (fun t ht => (hplaces t (List.mem_append_left _ ht)).1) hname htype
      (head_tail hvalue hattr hending')
  have hmem : type ∈ Token.ofText text := by simp [hsplit]
  have hmem' : type ∈ Token.ofText text' := by simp [hsplit']
  have htail := hvalue.oneLine.append hattr.oneLine
  have hsame : Text.sliceString text' name.span = Text.sliceString text name.span :=
    congrArg String.ofList hslice.symm
  refine ⟨?_, fun hjoins => ?_, fun hjoins => ?_⟩
  · have hstop : (typeEnd true type.span.stop ([] ++ ending)).stop = type.span.stop :=
      congrArg TypeExtent.stop (typeEnd_end (endsType_of_fieldEnds hending))
    exact @lineGives text moduleName name type [] ending hline hname htype .done hending _ hstop _ _
      (typedField_ident moduleName name.span hmem htype)
  · have hstop := typeEnd_tail hvalue hattr hending' hjoins
    have hgives := lineGives hline' hname htype htail hending' hstop
      (typedField_ident moduleName name.span hmem' htype)
    have htypeText : Text.sliceString text' type.span = Text.sliceString text type.span :=
      congrArg String.ofList htypeSlice.symm
    rw [hsame, ← hrange, htypeText, ← htypeSlice] at hgives
    exact hgives
  · obtain ⟨last, hlast, hkind, hstop⟩ := typeEnd_joined hattr hending' hjoins
    have hlast' : last ∈ value ++ attr ++ ending' :=
      List.mem_append_left _ (List.mem_append_right _ (List.mem_of_getLast? hlast))
    have hgives := lineGives hline' hname htype htail hending' hstop
      (typedField_joined moduleName name.span ((List.suffix_cons _ _).trans hline'.suffix) hlast'
        htype hkind)
    rw [hsame, ← hrange] at hgives
    exact ⟨last, hlast, hgives⟩

/-- A struct with a field. -/
def bareText : List Char :=
  "struct S \x7b\n\tf Foo\n\x7d\n".toList

/-- The same struct with a default value and an attribute. -/
def tailedText : List Char :=
  "struct S \x7b\n\tf Foo = 1 @[x]\n\x7d\n".toList

/-- The tokens behind the line in the first struct. -/
def bareEnding : List Token :=
  [⟨.newline, ⟨17, 18⟩⟩, ⟨.closer .brace, ⟨18, 19⟩⟩, ⟨.newline, ⟨19, 20⟩⟩]

/-- The tokens behind the line in the second one. -/
def tailedEnding : List Token :=
  [⟨.newline, ⟨26, 27⟩⟩, ⟨.closer .brace, ⟨27, 28⟩⟩, ⟨.newline, ⟨28, 29⟩⟩]

/-- The default value. -/
def oneValue : List Token :=
  [⟨.equals, ⟨18, 19⟩⟩, ⟨.number, ⟨20, 21⟩⟩]

/-- The attribute. -/
def signedAttribute : List Token :=
  [⟨.atSign, ⟨22, 23⟩⟩, ⟨.opener .square, ⟨23, 24⟩⟩, ⟨.ident, ⟨24, 25⟩⟩,
    ⟨.closer .square, ⟨25, 26⟩⟩]

theorem read_tail_tailedText :
    LineGives bareText "" ⟨⟨.ident, ⟨12, 13⟩⟩, ⟨.ident, ⟨14, 17⟩⟩ :: bareEnding⟩ bareEnding
        ⟨"f", "Foo", ⟨⟨1, 1⟩, ⟨1, 2⟩⟩⟩ [.mention "Foo"] ∧
      LineGives tailedText "" ⟨⟨.ident, ⟨12, 13⟩⟩,
          ⟨.ident, ⟨14, 17⟩⟩ :: (oneValue ++ signedAttribute ++ tailedEnding)⟩ tailedEnding
        ⟨"f", "Foo", ⟨⟨1, 1⟩, ⟨1, 2⟩⟩⟩ [.mention "Foo"] := by
  have hends : ∀ {span : Span} {ts : List Token}, FieldEnds (⟨.newline, span⟩ :: ts) := by
    intro span ts t ht
    obtain rfl := Option.some.inj ht
    exact .inl rfl
  have hline : StructLine bareText "" ⟨⟨.ident, ⟨12, 13⟩⟩, ⟨.ident, ⟨14, 17⟩⟩ :: bareEnding⟩ :=
    structLine_first (by decide +kernel) (by decide +kernel) (by decide) (by decide)
      (by decide +kernel)
  have htokens : Token.ofText bareText = (Token.ofText bareText).take 4
      ++ ⟨.ident, ⟨12, 13⟩⟩ :: ⟨.ident, ⟨14, 17⟩⟩ :: bareEnding := by decide +kernel
  have htokens' : Token.ofText tailedText = (Token.ofText bareText).take 4
      ++ ⟨.ident, ⟨12, 13⟩⟩ :: ⟨.ident, ⟨14, 17⟩⟩ ::
        (oneValue ++ signedAttribute ++ tailedEnding) := by decide +kernel
  have hvalue : IsDefault oneValue := .value rfl (.plain (by decide) rfl .done)
  have hattr : IsAttribute 17 signedAttribute :=
    @IsAttribute.signed 17 _ _ _ [⟨.ident, ⟨24, 25⟩⟩] (by decide) rfl rfl rfl (.plain rfl .done) rfl
  obtain ⟨hbare, htailed, -⟩ := read_tail (bareText.take 17) hline htokens htokens' rfl rfl
    hends hends hvalue hattr (List.take_prefix _ _) (by decide +kernel) (by decide +kernel)
  have hfield : (⟨Text.sliceString bareText ⟨12, 13⟩, Text.sliceString bareText ⟨14, 17⟩,
      (LineIndex.ofText bareText).range bareText ⟨12, 13⟩⟩ : Field Range)
        = ⟨"f", "Foo", ⟨⟨1, 1⟩, ⟨1, 2⟩⟩⟩ := by decide +kernel
  have heffect : [Registration.mention (qualifyType "" (Text.slice bareText ⟨14, 17⟩))]
      = [.mention "Foo"] := by decide +kernel
  have hbare' := htailed (fun h => by cases h.1)
  rw [hfield, heffect] at hbare hbare'
  exact ⟨hbare, hbare'⟩

/-- Without the default value, the attribute belongs to the type, and `Foo` is not known. -/
theorem read_signedAttribute :
    let text := "struct S \x7b\n\tf Foo @[x]\n\x7d\n".toList
    (structsOf (read "/" "s.v" bareText {}).1.statements).map (·.fields)
        = [[⟨"f", "Foo", ⟨⟨1, 1⟩, ⟨1, 2⟩⟩⟩]] ∧
      (structsOf (read "/" "s.v" text {}).1.statements).map (·.fields)
        = [[⟨"f", "Foo @[x]", ⟨⟨1, 1⟩, ⟨1, 2⟩⟩⟩]] ∧
      (read "/" "s.v" bareText {}).2.2.table.typeKind "Foo" = some .placeholder ∧
      (read "/" "s.v" text {}).2.2.table.typeKind "Foo" = none := by
  decide +kernel

end VServer.SourceFile
