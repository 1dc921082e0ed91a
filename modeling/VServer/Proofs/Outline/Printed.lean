/-
Declarations are read back from their words.

There is one lemma for each part of a declaration: given the words of the part in front of others,
the reader of that part returns what the part declares, reports nothing and stops at the end of it.
What stands inside brackets does not matter to any of them.  The lines of a struct need one thing
more, since a field ends in front of the brace that closes the struct and behind a newline; in both
cases reading goes on in the same way (`bodyFrom_skipFieldRest`).

The tokens of a part are the words at their places, so what a reader returns can be compared with
what the part declares down to the byte.  Two things are asked of what stands behind a part.  The
tokens must not go on with it, as a dot would go on with a name; and for a part that is cut out of
the text, the text has to be that of the words, which is what `Written` says.
-/
import VServer.Proofs.Outline.Grammar
import VServer.Proofs.Text.Blank

namespace VServer.Grammar

open Token (Word Gap Written place print bare)
open Text (Span byteSize)
open Outline

/-! ### Names and groups -/

theorem dottedEnd_of_head {stop : Nat} {ts : List Token} (h : ∀ t ∈ ts.head?, t.kind ≠ .dot) :
    dottedEnd stop ts = (stop, ts) := by
  rcases ts with _ | ⟨t, _ | ⟨u, us⟩⟩
  · rfl
  · rfl
  · simp [dottedEnd, h t rfl]

theorem Foreign.words_eq (foreign : Foreign) :
    ∃ (w : Word) (gap : Gap), foreign.words = [w, .dot gap] ∧ w.kind = .ident ∧
      Language.ofQualifier? w.text = some foreign.language := by
  cases foreign with
  | c before dot => exact ⟨_, dot, rfl, rfl, rfl⟩
  | js before dot => exact ⟨_, dot, rfl, rfl, rfl⟩

/-- A name is read up to its end, unless a dot goes on there. -/
theorem readName_words {ctx : Context} {name : Name} {offset : Nat} (allowOperator : Bool)
    (hwritten : Written ctx.text offset name.words) {rest : List Token}
    (hrest : ∀ t ∈ rest.head?, t.kind ≠ .dot) :
    readName ctx allowOperator (place offset name.words ++ rest)
      = (some ⟨name.language, name.place offset⟩, rest) := by
  rcases name with ⟨foreign, word, hident⟩
  cases foreign with
  | none =>
      simp only [Name.words, Name.front, Name.language, Name.place, Option.elim_none,
        List.nil_append, Token.place_cons, Token.place_nil, List.cons_append, hident,
        Token.print_nil, Text.byteSize_nil, Nat.add_zero, readName, Kind.isOperatorPart,
        Kind.isName, Bool.and_false, Bool.false_eq_true, if_false, if_true]
      split
      · rename_i language d after _
        rw [if_neg (hrest d rfl)]
      · rfl
  | some foreign =>
      obtain ⟨w, gap, hwords, hkind, hlanguage⟩ := foreign.words_eq
      have hall : Name.words ⟨some foreign, word, hident⟩ = [w, .dot gap, word] := by
        simp [Name.words, Name.front, hwords]
      have hplace : Name.place ⟨some foreign, word, hident⟩ offset
          = word.span (offset + byteSize w.print + byteSize (Word.dot gap).print) := by
        simp [Name.place, Name.front, hwords, Text.byteSize_append, Nat.add_assoc]
      rw [hall] at hwritten ⊢
      have hslice : ctx.slice (w.span offset) = w.text := hwritten.slice_word
      have hdot : (Word.dot gap).kind = .dot := rfl
      simp only [Token.place_cons, Token.place_nil, List.cons_append, List.nil_append, readName,
        hkind, Kind.isOperatorPart, Kind.isName, Bool.and_false, Bool.false_eq_true, if_false,
        if_true, hslice, hlanguage, hdot, readForeignName, hident, dottedEnd_of_head hrest, hplace]
      rfl

/-- The text at the place of a name is its identifier. -/
theorem Name.slice_place {text : List Char} (name : Name) {offset : Nat}
    (h : Written text offset name.words) :
    Text.sliceString text (name.place offset) = String.ofList name.word.text := by
  have hword : Written text (offset + byteSize (print name.front)) [name.word] := h.right
  rw [Text.sliceString, Name.place, hword.slice_word]

theorem skipOptional_words {b : Bracket} (g : Option (Group b)) (offset : Nat) {rest : List Token}
    (hrest : ∀ t ∈ rest.head?, t.kind ≠ .opener b) :
    skipOptional b (place offset (groupWords g) ++ rest) = (g.isSome, ⟨[], rest⟩) := by
  cases g with
  | none =>
      cases rest with
      | nil => rfl
      | cons t ts => simp [groupWords, skipOptional, hrest t rfl]
  | some g =>
      show skipOptional b (place offset g.words ++ rest) = _
      rw [Group.place_words, skipOptional, if_pos (g.kind_openToken offset), skipGroup_words]
      rfl

/-- The kind of the token behind a group that may be missing. -/
theorem head_groupWords {b : Bracket} (g : Option (Group b)) (offset : Nat) {rest : List Token}
    {p : Kind → Prop} (hopener : p (.opener b)) (hrest : ∀ t ∈ rest.head?, p t.kind) :
    ∀ t ∈ (place offset (groupWords g) ++ rest).head?, p t.kind := by
  cases g with
  | none => exact hrest
  | some g =>
      intro t ht
      change t ∈ (place offset g.words ++ rest).head? at ht
      rw [Group.place_words] at ht
      obtain rfl := Option.some.inj ht
      exact hopener

theorem head_group {b : Bracket} (g : Group b) (offset : Nat) (rest : List Token) :
    ∀ t ∈ (place offset g.words ++ rest).head?, t.kind = .opener b := by
  intro t ht
  rw [Group.place_words] at ht
  obtain rfl := Option.some.inj ht
  rfl

theorem head_name (name : Name) (offset : Nat) (rest : List Token) :
    ∀ t ∈ (place offset name.words ++ rest).head?, t.kind = .ident := by
  rcases name with ⟨foreign, word, hident⟩
  intro t ht
  cases foreign with
  | none =>
      obtain rfl := Option.some.inj ht
      exact hident
  | some foreign =>
      obtain ⟨w, gap, hwords, hkind, -⟩ := foreign.words_eq
      simp only [Name.words, Name.front, Option.elim_some, hwords, List.cons_append,
        Token.place_cons, List.head?_cons] at ht
      obtain rfl := Option.some.inj ht
      exact hkind

/-! ### Functions -/

/-- The rest of the tokens starts on a new line, if there is any. -/
def LineEnds (rest : List Token) : Prop :=
  ∀ t ∈ rest.head?, t.kind = .newline

theorem skipSignature_lineEnds {rest : List Token} (h : LineEnds rest) :
    skipSignature rest = ⟨[], rest⟩ := by
  cases rest with
  | nil => exact skipSignature_nil
  | cons t ts => exact skipSignature_newline ts (h t rfl)

theorem skipSignature_function (f : FunctionItem) (offset : Nat) {rest : List Token}
    (hrest : LineEnds rest) :
    skipSignature (place offset (f.parameters.words ++ (f.result.words ++ groupWords f.body))
      ++ rest) = ⟨[], rest⟩ := by
  rw [Token.place_append, Token.place_append, List.append_assoc, List.append_assoc,
    Group.place_words, skipSignature_opener _ rfl (by decide), skipGroup_words,
    skipSignature_words f.result f.resultLine]
  cases f.body with
  | none =>
      show (skipSignature rest).prepend [] = _
      rw [skipSignature_lineEnds hrest]
      rfl
  | some body =>
      show (skipSignature (place _ body.words ++ rest)).prepend [] = _
      rw [Group.place_words, skipSignature_body _ rfl, skipGroup_words]
      rfl

/-- **A function is read back.**  Its tokens are given behind the word that starts it. -/
theorem readFunction_words {ctx : Context} (f : FunctionItem) {offset : Nat}
    (hwritten : Written ctx.text offset f.words) {rest : List Token} (hrest : LineEnds rest) :
    readFunction ctx f.publicGap.isSome (place (offset + byteSize (print f.start)) f.rear ++ rest)
      = let st := Statement.function (f.declared ctx.moduleName offset)
        ⟨some st, registrationsOf ctx.moduleName st, [], ctx.moduleName, rest, .ofStatement st⟩ := by
  set start := offset + byteSize (print f.start)
  set named := start + byteSize (print (groupWords f.receiver)) with hnamed
  have hname : Written ctx.text named f.name.words := hwritten.right.right.left
  have hplace : (f.declared ctx.moduleName offset).place = f.name.place named := by
    simp only [FunctionItem.declared, Token.print_append, Text.byteSize_append, hnamed, start,
      Nat.add_assoc]
  -- No receiver is taken for the name, and neither generics nor a dot for the parameters.
  have hident : ∀ {after : List Token}, ∀ t ∈ (place named f.name.words ++ after).head?,
      t.kind ≠ .opener .paren := by
    intro after t ht
    rw [head_name f.name named after t ht]
    decide
  have hbehind : ∀ {k : Nat} {after : List Token},
      ∀ t ∈ (place k f.parameters.words ++ after).head?,
        t.kind ≠ .dot ∧ t.kind ≠ .opener .square := by
    intro k after t ht
    rw [head_group f.parameters k after t ht]
    decide
  have htail := skipSignature_function f (named + byteSize (print f.name.words)
    + byteSize (print (groupWords f.generics))) hrest
  simp only [Token.place_append, List.append_assoc] at htail
  simp only [FunctionItem.rear, Token.place_append, List.append_assoc, ← hnamed]
  simp only [readFunction, skipOptional_words f.receiver start hident]
  rw [readName_words _ hname
    (head_groupWords (p := (· ≠ .dot)) f.generics _ (by decide) fun t ht => (hbehind t ht).1)]
  simp only
  rw [skipOptional_words f.generics _ fun t ht => (hbehind t ht).2]
  simp only
  rw [htail, Context.sliceString, f.name.slice_place hname, ← hplace]
  rfl

/-! ### Fields

A field is read with the text of its type, from the first word of the type to the last.  The type
of a `FieldLine` has no blanks around it, and the tokens behind it end it, so nothing is lost and
nothing is added when the text is trimmed.
-/

/-- The words of a sequence start with its first word outside brackets. -/
theorem words_eq_cons {ws : Balanced} (h : ws.heads ≠ []) :
    ∃ w more, ws.words = w :: more ∧ ws.heads.head? = some w := by
  cases ws with
  | done => exact absurd rfl h
  | word w plain later => exact ⟨w, later.words, rfl, rfl⟩
  | group b before inner behind later => exact ⟨_, _, rfl, rfl⟩

theorem heads_not_closer (ws : Balanced) : ∀ w ∈ ws.heads, ∀ b, w.kind ≠ .closer b := by
  induction ws with
  | done => intro w hw; simp [Balanced.heads] at hw
  | word w plain later ih =>
      intro v hv b
      rcases List.mem_cons.mp hv with rfl | hv
      · intro hkind
        simp [hkind, Kind.isBracket] at plain
      · exact ih v hv b
  | group c before inner behind later _ ih =>
      intro v hv b
      rcases List.mem_cons.mp hv with rfl | hv
      · simp
      · exact ih v hv b

/-- A sequence on one line does not end with a newline. -/
theorem getLast?_words (ws : Balanced) :
    (∀ w ∈ ws.heads, w.kind ≠ .newline) → ∀ w ∈ ws.words.getLast?, w.kind ≠ .newline := by
  induction ws with
  | done => intro _ w hw; simp [Balanced.words] at hw
  | word w plain later ih =>
      intro h v hv
      rw [Balanced.words, List.getLast?_cons] at hv
      cases hlast : later.words.getLast? with
      | none =>
          rw [hlast] at hv
          obtain rfl : w = v := Option.some.inj hv
          exact h w List.mem_cons_self
      | some last =>
          rw [hlast] at hv
          obtain rfl : last = v := Option.some.inj hv
          exact ih (fun u hu => h u (List.mem_cons_of_mem w hu)) last hlast
  | group b before inner behind later _ ih =>
      intro h v hv
      have hwords : (Balanced.group b before inner behind later).words
          = (Word.opener before b :: inner.words) ++ Word.closer behind b :: later.words := by
        simp [Balanced.words]
      rw [hwords, List.getLast?_append, List.getLast?_cons] at hv
      cases hlast : later.words.getLast? with
      | none =>
          rw [hlast] at hv
          obtain rfl : Word.closer behind b = v := Option.some.inj hv
          simp
      | some last =>
          rw [hlast] at hv
          obtain rfl : last = v := Option.some.inj hv
          exact ih (fun u hu => h u (List.mem_cons_of_mem _ hu)) last hlast

/-- The last character of printed words is that of the last word. -/
theorem getLast?_print {ws : List Word} {w : Word} (h : ws.getLast? = some w) :
    (print ws).getLast? = w.text.getLast? := by
  obtain ⟨front, rfl⟩ := List.getLast?_eq_some_iff.mp h
  have hne := Token.text_ne_nil w.spelled
  obtain ⟨c, hc⟩ := List.getLast?_isSome.mpr hne |> Option.isSome_iff_exists.mp
  simp [Word.print, List.getLast?_append, hc]

/-- A type has no blanks around it. -/
theorem trim_bare {ws : Balanced} (hfilled : ws.heads ≠ [])
    (h : ∀ w ∈ ws.heads, w.kind ≠ .newline) : Text.trim (bare ws.words) = bare ws.words := by
  obtain ⟨w, more, hwords, hhead⟩ := words_eq_cons hfilled
  have hfirst := (Token.spelled_ends w.spelled (h w (List.mem_of_mem_head? hhead))).1
  have hnotBlank : ∀ v ∈ ws.words.getLast?, ∀ c ∈ v.text.getLast?, Text.isBlank c = false :=
    fun v hv => (Token.spelled_ends v.spelled (getLast?_words ws h v hv)).2
  refine Text.trim_eq_self ?_ ?_
  · intro c hc
    rw [hwords] at hc
    cases htext : w.text with
    | nil => exact absurd htext (Token.text_ne_nil w.spelled)
    | cons d ds =>
        rw [bare, htext] at hc
        exact hfirst c (by rw [htext]; exact hc)
  · intro c hc
    rw [hwords] at hc hnotBlank
    cases hlast : more.getLast? with
    | none =>
        obtain rfl : more = [] := List.getLast?_eq_none_iff.mp hlast
        exact hnotBlank w rfl c (by simpa [bare] using hc)
    | some last =>
        have hprint := getLast?_print hlast
        refine hnotBlank last (by simp [List.getLast?_cons, hlast]) c ?_
        rw [bare, List.getLast?_append, hprint] at hc
        obtain ⟨d, hd⟩ := Option.isSome_iff_exists.mp
          (List.getLast?_isSome.mpr (Token.text_ne_nil last.spelled))
        rw [hd] at hc ⊢
        exact hc

/-- The types that fields mention, as they are known. -/
def mentionsOf (moduleName : String) (fields : List (Field Span)) : List String :=
  fields.flatMap fun f =>
    (TypeText.base? f.typeText.toList).toList.map (qualifyType moduleName)

/-- The rest of the tokens starts on a new line, or ends the struct. -/
def FieldEnds (rest : List Token) : Prop :=
  ∀ t ∈ rest.head?, t.kind = .newline ∨ t.kind = .closer .brace

theorem skipFieldRest_faults {rest : List Token} (h : FieldEnds rest) :
    (skipFieldRest rest).faults = [] := by
  cases rest with
  | nil => rfl
  | cons t ts =>
      rcases h t rfl with hkind | hkind
      · rw [skipFieldRest_newline ts hkind]
      · rw [skipFieldRest_close ts hkind]

/-- Where a field ends, a struct is read on as if nothing had been passed over. -/
theorem bodyFrom_skipFieldRest {ctx : Context} {unclosed : Fault} {rest : List Token}
    (h : FieldEnds rest) :
    bodyFrom ctx unclosed (skipFieldRest rest).rest = bodyFrom ctx unclosed rest := by
  cases rest with
  | nil => rfl
  | cons t ts =>
      rcases h t rfl with hkind | hkind
      · rw [skipFieldRest_newline ts hkind, bodyFrom_newline ts hkind]
      · rw [skipFieldRest_close ts hkind]

/-- A type ends where a default value, an attribute or the next line starts. -/
theorem FieldLine.endsType (f : FieldLine) (stop : Nat) {rest : List Token}
    (hrest : FieldEnds rest) : EndsType stop (place stop f.tail.words ++ rest) := by
  by_cases hfilled : f.tail.heads = []
  · have hdone : f.tail = .done := by
      cases htail : f.tail with
      | done => rfl
      | word w plain later => simp [htail, Balanced.heads] at hfilled
      | group b before inner behind later => simp [htail, Balanced.heads] at hfilled
    rw [hdone]
    cases rest with
    | nil => trivial
    | cons t ts =>
        rcases hrest t rfl with hkind | hkind
        · exact .inl hkind
        · exact .inr (.inr (.inl ⟨.brace, hkind⟩))
  · obtain ⟨w, more, hwords, hhead⟩ := words_eq_cons hfilled
    rw [hwords]
    rcases f.tailStart w hhead with hkind | ⟨hkind, hgap⟩
    · exact .inr (.inl hkind)
    · have hpos := Text.byteSize_pos hgap
      refine .inr (.inr (.inr ⟨hkind, ?_⟩))
      show stop < stop + byteSize w.gap.chars
      omega

theorem readField_typed {ctx : Context} {name : Span} {t : Token} (ts : List Token)
    (hnewline : t.kind ≠ .newline) (hclose : t.kind ≠ .closer .brace) (hdot : t.kind ≠ .dot) :
    readField ctx name (t :: ts) = readTypedField ctx name t.span.start (t :: ts) := by
  unfold readField
  split <;> simp_all

theorem readLine_ident {ctx : Context} {t : Token} (ts : List Token) (h : t.kind = .ident) :
    readLine ctx t ts = readField ctx t.span ts := by
  simp [readLine, h, Kind.isName]

/-- **A field is read back with the text of its type.** -/
theorem readLine_field {ctx : Context} (f : FieldLine) {offset : Nat}
    (hwritten : Written ctx.text offset f.words) {rest : List Token} (hrest : FieldEnds rest) :
    readLine ctx ⟨f.name.kind, f.name.span offset⟩
        (place (offset + byteSize f.name.print) (f.type.words ++ f.tail.words) ++ rest)
      = ⟨some (f.declared offset), mentionsOf ctx.moduleName [f.declared offset], [],
          (skipFieldRest rest).rest⟩ := by
  obtain ⟨w, more, hwords, hhead⟩ := words_eq_cons f.filled
  have hmem : w ∈ f.type.heads := List.mem_of_mem_head? hhead
  obtain ⟨hnewline, -⟩ := f.typeLine w hmem
  set start := offset + byteSize f.name.print
  set stop := start + byteSize (print f.type.words)
  have hextent : typeExtent (w.span start).start
      (place start f.type.words ++ (place stop f.tail.words ++ rest))
        = ⟨[], stop, place stop f.tail.words ++ rest⟩ := by
    show typeEnd false _ _ = _
    rw [typeEnd_type f.type f.filled f.typeLine f.typeGoesOn, typeEnd_end (f.endsType _ hrest)]
  have hslice : Text.trim (ctx.slice ⟨(w.span start).start, stop⟩) = bare f.type.words := by
    have htype : Written ctx.text start f.type.words := hwritten.tail.left
    rw [← trim_bare f.filled fun v hv => (f.typeLine v hv).1]
    congr 1
    simp only [stop]
    rw [hwords] at htype ⊢
    exact htype.slice_bare
  have hname : ctx.sliceString (f.name.span offset) = String.ofList f.name.text := by
    rw [Context.sliceString, Text.sliceString, hwritten.slice_word]
  have hfield : readField ctx (f.name.span offset)
      (place start f.type.words ++ (place stop f.tail.words ++ rest))
        = readTypedField ctx (f.name.span offset) (w.span start).start
            (place start f.type.words ++ (place stop f.tail.words ++ rest)) := by
    rw [hwords]
    exact readField_typed _ hnewline (heads_not_closer f.type w hmem .brace)
      (f.notEmbedded w hhead)
  have hfaults := skipFieldRest_faults hrest
  rw [Token.place_append, List.append_assoc, readLine_ident _ f.isIdent]
  show readField ctx (f.name.span offset) _ = _
  rw [hfield, readTypedField, hextent]
  simp only
  rw [hslice, hname, skipFieldRest_words f.tail f.tailLine, hfaults]
  simp [FieldLine.declared, mentionsOf]

/-! ### Structs

The lines are read one after another, and the induction is on the lines.  Behind each line there is
a newline, or it is the last one and the brace follows; the reader takes the newline with it or
leaves the brace.
-/

theorem separated_cons {α : Type} {e : α × List Gap} {later : List (α × List Gap)}
    (h : Separated (e :: later)) : Separated later ∧ (later ≠ [] → e.2 ≠ []) := by
  cases later with
  | nil => exact ⟨fun d hd => by simp at hd, fun hne => absurd rfl hne⟩
  | cons d later =>
      refine ⟨fun c hc => h c ?_, fun _ => h e ?_⟩
      · rw [List.dropLast_cons_cons]
        exact List.mem_cons_of_mem e hc
      · rw [List.dropLast_cons_cons]
        exact List.mem_cons_self

theorem accessSection?_words (ctx : Context) (colon : Gap) (rest : List Token) (ws : List Word) :
    (∀ w ∈ ws, w.kind = .keyword .pubKw ∨ w.kind = .keyword .mutKw) →
    ∀ (begun : Bool) (offset : Nat), (begun = true ∨ ws ≠ []) →
      accessSection? ctx begun (place offset (ws ++ [.colon colon]) ++ rest) = some rest := by
  induction ws with
  | nil =>
      intro _ begun offset hbegun
      have htrue : begun = true := by simpa using hbegun
      simp [accessSection?, Word.colon, htrue]
  | cons w ws ih =>
      intro h begun offset _
      have hlater := ih (fun v hv => h v (List.mem_cons_of_mem w hv)) true
        (offset + byteSize w.print) (.inl rfl)
      rcases h w List.mem_cons_self with hkind | hkind
      · simpa [accessSection?, hkind, isAccessWord] using hlater
      · simpa [accessSection?, hkind, isAccessWord] using hlater

theorem accessSection?_field {ctx : Context} (f : FieldLine) {offset : Nat}
    (hwritten : Written ctx.text offset f.words) (ts : List Token) :
    accessSection? ctx false (⟨f.name.kind, f.name.span offset⟩ :: ts) = none := by
  have hslice : ctx.slice (f.name.span offset) = f.name.text := hwritten.slice_word
  have hnot : isAccessWord ctx ⟨f.name.kind, f.name.span offset⟩ = false := by
    show (decide (f.name.kind = .keyword .pubKw) || decide (f.name.kind = .keyword .mutKw) ||
      (decide (f.name.kind = .ident) &&
        decide (ctx.slice (f.name.span offset) = "__global".toList))) = false
    rw [hslice, decide_eq_false f.notAccess, f.isIdent]
    rfl
  rw [accessSection?, if_neg (by simp [f.isIdent]), hnot]
  rfl

theorem bodyFrom_newlines (ctx : Context) (unclosed : Fault) (rest : List Token)
    (ends : List Gap) :
    ∀ offset, bodyFrom ctx unclosed (place offset (newlines ends) ++ rest)
      = bodyFrom ctx unclosed rest := by
  induction ends with
  | nil => intro offset; rfl
  | cons gap ends ih =>
      intro offset
      show bodyFrom ctx unclosed (⟨.newline, _⟩ :: (place _ (newlines ends) ++ rest)) = _
      rw [bodyFrom_newline _ rfl, ih]

/-- Behind an entry there is a newline, or it is the last one and `rest` stands there. -/
theorem head_newlines {α : Type} {ends : List Gap} {later : List α} {offset : Nat}
    {rest : List Token} {p : Kind → Prop} (hends : later ≠ [] → ends ≠ []) (hnewline : p .newline)
    (hrest : later = [] → ∀ t ∈ rest.head?, p t.kind) :
    ∀ t ∈ (place offset (newlines ends) ++ rest).head?, p t.kind := by
  cases ends with
  | nil =>
      refine hrest ?_
      by_contra hne
      exact hends hne rfl
  | cons gap ends =>
      intro t ht
      obtain rfl := Option.some.inj ht
      exact hnewline

theorem mentionsOf_append (moduleName : String) (fields fields' : List (Field Span)) :
    mentionsOf moduleName (fields ++ fields')
      = mentionsOf moduleName fields ++ mentionsOf moduleName fields' :=
  List.flatMap_append

/-- A line is read back and put in front of what the lines behind it give. -/
theorem bodyFrom_lineWords {ctx : Context} {unclosed : Fault} (line : Line) {offset : Nat}
    (hwritten : Written ctx.text offset line.words) {rest : List Token} (hrest : FieldEnds rest) :
    bodyFrom ctx unclosed (place offset line.words ++ rest)
      = let later := bodyFrom ctx unclosed rest
        { later with
          fields := (line.declared offset).toList ++ later.fields
          mentions := mentionsOf ctx.moduleName (line.declared offset).toList ++ later.mentions } := by
  cases line with
  | access first more colon isAccess =>
      have haccess := accessSection?_words ctx colon rest (first :: more) isAccess false offset
        (.inr (List.cons_ne_nil first more))
      have hkind : first.kind ≠ .newline ∧ first.kind ≠ .closer .brace := by
        rcases isAccess first List.mem_cons_self with h | h <;> simp [h]
      exact bodyFrom_access hkind.1 hkind.2 haccess
  | field f =>
      have hline := readLine_field f hwritten hrest
      have haccess := accessSection?_field f hwritten
        (place (offset + byteSize f.name.print) (f.type.words ++ f.tail.words) ++ rest)
      show bodyFrom ctx unclosed (⟨f.name.kind, f.name.span offset⟩ ::
        (place _ (f.type.words ++ f.tail.words) ++ rest)) = _
      rw [bodyFrom_line (by simp [f.isIdent]) (by simp [f.isIdent]) haccess, hline]
      simp only
      rw [bodyFrom_skipFieldRest hrest]
      rfl

/-- **The lines of a struct are read back, up to the brace that closes it.** -/
theorem bodyFrom_lines {ctx : Context} {unclosed : Fault} {close : Token}
    (hclose : close.kind = .closer .brace) (rest : List Token) (lines : List (Line × List Gap)) :
    Separated lines → ∀ offset, Written ctx.text offset (linesWords lines) →
      bodyFrom ctx unclosed (place offset (linesWords lines) ++ close :: rest)
        = ⟨fieldsFrom offset lines, mentionsOf ctx.moduleName (fieldsFrom offset lines), [],
            rest⟩ := by
  induction lines with
  | nil =>
      intro _ offset _
      exact bodyFrom_close rest hclose
  | cons entry later ih =>
      intro hseparated offset hwritten
      obtain ⟨line, ends⟩ := entry
      obtain ⟨hlater, hends⟩ := separated_cons hseparated
      have hwords : linesWords ((line, ends) :: later)
          = line.words ++ newlines ends ++ linesWords later := rfl
      rw [hwords] at hwritten ⊢
      have hih := ih hlater _ hwritten.right
      have hplace := Token.place_append offset (line.words ++ newlines ends) (linesWords later)
      rw [hplace, Token.place_append, List.append_assoc, List.append_assoc,
        bodyFrom_lineWords line hwritten.left.left, bodyFrom_newlines, hih]
      · simp only [fieldsFrom]
        rw [mentionsOf_append]
      · -- Without a newline the line is the last one, and the struct ends behind it.
        refine head_newlines (p := fun kind => kind = .newline ∨ kind = .closer .brace) hends
          (.inl rfl) ?_
        rintro rfl t ht
        obtain rfl := Option.some.inj ht
        exact .inr hclose

theorem map_mentionsOf (moduleName : String) (fields : List (Field Span)) :
    (mentionsOf moduleName fields).map .mention
      = fields.flatMap fun f => (TypeText.base? f.typeText.toList).toList.map fun base =>
          Registration.mention (qualifyType moduleName base) := by
  simp only [mentionsOf, List.map_flatMap, List.map_map]
  rfl

/-- **A struct is read back.**  Its tokens are given behind the word that starts it. -/
theorem readStruct_words {ctx : Context} (s : StructItem) {offset : Nat}
    (hwritten : Written ctx.text offset s.words) (rest : List Token) :
    readStruct ctx s.publicGap.isSome s.isUnion
        (place (offset + byteSize (print s.start)) s.rear ++ rest)
      = let st := Statement.struct (s.declared ctx.moduleName offset)
        ⟨some st, registrationsOf ctx.moduleName st, [], ctx.moduleName, rest, .ofStatement st⟩ := by
  set start := offset + byteSize (print s.start)
  have hname : Written ctx.text start s.name.words := hwritten.right.left.left
  have hlines : Written ctx.text (start + byteSize (print s.heading)) (linesWords s.lines) :=
    hwritten.right.right.left
  have hfields : (s.declared ctx.moduleName offset).fields
      = fieldsFrom (start + byteSize (print s.heading)) s.lines := by
    simp only [StructItem.declared, Token.print_append, Text.byteSize_append, start, Nat.add_assoc]
  have hopen : ∀ {place : Span} {after : List Token},
      ∀ t ∈ ((⟨.opener .brace, place⟩ : Token) :: after).head?,
        t.kind ≠ .dot ∧ t.kind ≠ .opener .square := by
    intro place after t ht
    obtain rfl := Option.some.inj ht
    simp
  have hbody : ∀ span ts, readBody ctx span ts = bodyFrom ctx ⟨span, .unclosed .brace⟩ ts :=
    fun _ _ => rfl
  rw [StructItem.rear, Token.place_append, Token.place_append, List.append_assoc,
    List.append_assoc, StructItem.heading]
  simp only [Token.place_append, Token.place_cons, Token.place_nil, List.append_assoc,
    List.cons_append, List.nil_append, Word.kind_opener]
  rw [readStruct, readName_words false hname
    (head_groupWords (p := (· ≠ .dot)) s.generics _ (by decide) fun t ht => (hopen t ht).1)]
  simp only
  rw [skipOptional_words s.generics _ fun t ht => (hopen t ht).2]
  simp only [readBody?, if_true]
  rw [hbody, bodyFrom_newlines, ← StructItem.heading,
    bodyFrom_lines (Word.kind_closer s.closing .brace) rest s.lines s.separated _ hlines,
    Context.sliceString, s.name.slice_place hname, ← hfields]
  simp only [registrationsOf, map_mentionsOf, List.nil_append]
  rfl

end VServer.Grammar
