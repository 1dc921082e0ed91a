/-
Reading a text inside a larger one.

A reader looks at the kinds and places of the tokens it is given, and at the text of some of these
places.  So texts in front of what it reads move everything that it returns and change nothing
else.  Texts behind it are another matter: most readers do something of their own where the tokens
end.  But if the tokens end with a newline, no reader comes to their end, except for two ways.  One
is to look for a closing bracket that is not there, and that is a fault.  The other is to take the
newline as the end of a statement, and then the reader is done.

`Around` is what stands around a text, and each of the lemmas below says what it does to one reader.
They hold if nothing stands behind the text, and also if the tokens end with a newline and the
reader reports no fault.  `Ends` and `Quiet` are these two conditions; the first one is passed from
each reader to the next.
-/
import VServer.Proofs.Token.Seam
import VServer.Proofs.Outline.Fuel

namespace VServer

/-- A kind either ends a line, or opens or closes a group, or does none of these. -/
theorem Kind.cases_shape (k : Kind) : k = .newline ∨ (∃ b, k = .opener b) ∨ (∃ b, k = .closer b) ∨
    k ≠ .newline ∧ k.isBracket = false := by
  cases k <;> simp [isBracket]

theorem Kind.ne_newline_of_isName {k : Kind} (h : k.isName = true) : k ≠ .newline := by
  rintro rfl
  simp [isName] at h

theorem Kind.ne_newline_of_isOperatorPart {k : Kind} (h : k.isOperatorPart = true) :
    k ≠ .newline := by
  rintro rfl
  simp [isOperatorPart] at h

namespace Outline

open Text (Span InLine byteSize)
open Token (spans spans_sublist)

/-- Induction along tokens, for readers that go on somewhere behind the first one. -/
theorem tokens_induction {motive : List Token → Prop} (hnil : motive [])
    (hcons : ∀ t ts, (∀ rest, rest <:+ ts → motive rest) → motive (t :: ts)) :
    ∀ ts, motive ts := by
  have hall : ∀ (size : Nat) (ts : List Token), ts.length ≤ size → motive ts := by
    intro size
    induction size with
    | zero =>
        intro ts hlen
        obtain rfl : ts = [] := List.eq_nil_of_length_eq_zero (by omega)
        exact hnil
    | succ size ih =>
        intro ts hlen
        cases ts with
        | nil => exact hnil
        | cons t ts =>
            refine hcons t ts fun rest hrest => ih rest ?_
            have := hrest.length_le
            simp only [List.length_cons] at hlen
            omega
  exact fun ts => hall ts.length ts (Nat.le_refl _)

/-- What stands around a text: the text in front of it, the text behind it and its tokens. -/
structure Around where
  before : List Char
  behind : List Char
  later : List Token

namespace Around

variable (w : Around)

/-- The larger text. -/
def text (inner : List Char) : List Char :=
  w.before ++ inner ++ w.behind

def context (ctx : Context) : Context :=
  ⟨w.text ctx.text, ctx.moduleName⟩

def offset (n : Nat) : Nat :=
  byteSize w.before + n

def span (s : Span) : Span :=
  s.shift (byteSize w.before)

def token (t : Token) : Token :=
  t.shift (byteSize w.before)

def fault (f : Fault) : Fault :=
  { f with span := w.span f.span }

/-- The tokens of the larger text, from those of the text inside it on. -/
def tokens (ts : List Token) : List Token :=
  ts.map w.token ++ w.later

def skim (s : Skim) : Skim :=
  ⟨s.faults.map w.fault, w.tokens s.rest⟩

def declared (d : DeclaredName) : DeclaredName :=
  { d with span := w.span d.span }

def nameRead (read : Option DeclaredName × List Token) : Option DeclaredName × List Token :=
  (read.1.map w.declared, w.tokens read.2)

def groupEnd (g : GroupEnd) : GroupEnd :=
  ⟨g.faults.map w.fault, w.offset g.stop, w.tokens g.rest⟩

/-- Nothing stands behind the text. -/
def Last : Prop :=
  w.behind = [] ∧ w.later = []

/-- Nothing stands behind the text, or there are no faults. -/
def Quiet (faults : List Fault) : Prop :=
  w.Last ∨ faults = []

/-- Nothing stands behind the text, or the tokens end with a newline. -/
def Ends (ts : List Token) : Prop :=
  w.Last ∨ ∃ t ∈ ts.getLast?, t.kind = .newline

/-- The same, or there are no tokens left. -/
def Lines (ts : List Token) : Prop :=
  w.Last ∨ ∀ t ∈ ts.getLast?, t.kind = .newline

variable {w}

@[simp] theorem tokens_nil : w.tokens [] = w.later := rfl

@[simp] theorem tokens_cons (t : Token) (ts : List Token) :
    w.tokens (t :: ts) = w.token t :: w.tokens ts := rfl

@[simp] theorem context_moduleName (ctx : Context) :
    (w.context ctx).moduleName = ctx.moduleName := rfl

@[simp] theorem token_kind (t : Token) : (w.token t).kind = t.kind := rfl

@[simp] theorem token_span (t : Token) : (w.token t).span = w.span t.span := rfl

@[simp] theorem span_stop (s : Span) : (w.span s).stop = w.offset s.stop := rfl

theorem Last.later_eq (h : w.Last) : w.later = [] := h.2

theorem Quiet.left {fs gs : List Fault} (h : w.Quiet (fs ++ gs)) : w.Quiet fs :=
  h.imp_right fun h => (List.append_eq_nil_iff.mp h).1

theorem Quiet.right {fs gs : List Fault} (h : w.Quiet (fs ++ gs)) : w.Quiet gs :=
  h.imp_right fun h => (List.append_eq_nil_iff.mp h).2

/-- Where there is a fault nothing stands behind the text. -/
theorem Quiet.last {f : Fault} {fs : List Fault} (h : w.Quiet (f :: fs)) : w.Last :=
  h.resolve_right (List.cons_ne_nil f fs)

theorem Ends.last_of_nil (h : w.Ends []) : w.Last := by
  rcases h with h | ⟨t, ht, -⟩
  · exact h
  · simp at ht

theorem Ends.lines {ts : List Token} (h : w.Ends ts) : w.Lines ts := by
  refine h.imp_right ?_
  rintro ⟨t, ht, hkind⟩ u hu
  obtain rfl : t = u := Option.some.inj (ht.symm.trans hu)
  exact hkind

theorem Lines.suffix {ts rest : List Token} (h : w.Lines ts) (hrest : rest <:+ ts) :
    w.Lines rest := by
  refine h.imp_right fun h t ht => h t ?_
  obtain ⟨front, rfl⟩ := hrest
  rw [List.getLast?_append, Option.mem_def.mp ht, Option.some_or]
  rfl

theorem Lines.ends {t : Token} {ts : List Token} (h : w.Lines (t :: ts)) : w.Ends (t :: ts) := by
  refine h.imp_right fun h => ?_
  obtain ⟨u, hu⟩ : ∃ u, (t :: ts).getLast? = some u := ⟨_, List.getLast?_eq_some_getLast (by simp)⟩
  exact ⟨u, hu, h u hu⟩

/-- A token that is no newline is not the last one. -/
theorem Lines.tail {t : Token} {ts : List Token} (h : w.Lines (t :: ts))
    (hkind : t.kind ≠ .newline) : w.Ends ts := by
  cases ts with
  | nil => exact .inl (h.resolve_right fun h => hkind (h t rfl))
  | cons u ts => exact (h.suffix (List.suffix_cons t (u :: ts))).ends

theorem Ends.tail {t : Token} {ts : List Token} (h : w.Ends (t :: ts))
    (hkind : t.kind ≠ .newline) : w.Ends ts :=
  h.lines.tail hkind

/-- The texts around it do not change what stands at a place of the text. -/
theorem slice_span {ctx : Context} {s : Span} (hstart : Text.Boundary ctx.text s.start)
    (hstop : Text.Boundary ctx.text s.stop) :
    (w.context ctx).slice (w.span s) = ctx.slice s :=
  Text.slice_around w.before w.behind hstart hstop

theorem slice_mem {ctx : Context} {places : List Span} (hline : InLine ctx.text places)
    {s : Span} (hs : s ∈ places) : (w.context ctx).slice (w.span s) = ctx.slice s := by
  obtain ⟨hstart, hstop, -⟩ := hline.placed s hs
  exact slice_span hstart hstop

end Around

variable {w : Around}

/-! ### Groups

The end of the tokens is the one place where a group reports what it would not report in a larger
text, and it does so with a fault.  So a group without faults has been closed, and it ends at its
bracket in the larger text as well.
-/

theorem closingFaults_around (top : Bracket) (span : Span) (b : Bracket) :
    closingFaults top (w.span span) b = (closingFaults top span b).map w.fault := by
  unfold closingFaults
  split <;> rfl

theorem closeGroup_around (unclosed : Fault) :
    ∀ (ts : List Token) (stop : Nat) (top : Bracket) (below : List Bracket), w.Lines ts →
      w.Quiet (closeGroup unclosed stop top below ts).faults →
      closeGroup (w.fault unclosed) (w.offset stop) top below (w.tokens ts)
        = w.groupEnd (closeGroup unclosed stop top below ts) ∧
      w.Ends (closeGroup unclosed stop top below ts).rest := by
  intro ts
  induction ts with
  | nil =>
      intro stop top below _ hquiet
      have hlast := hquiet.last
      refine ⟨?_, .inl hlast⟩
      simp [closeGroup, Around.groupEnd, hlast.later_eq]
  | cons t ts ih =>
      intro stop top below hlines hquiet
      have hlater := hlines.suffix (List.suffix_cons t ts)
      unfold closeGroup at hquiet ⊢
      simp only [Around.tokens_cons, Around.token_kind, Around.token_span, Around.span_stop]
      cases hkind : t.kind with
      | opener b =>
          simp only [hkind] at hquiet ⊢
          exact ih _ _ _ hlater hquiet
      | closer b =>
          simp only [hkind] at hquiet ⊢
          cases below with
          | nil =>
              refine ⟨?_, hlines.tail (by simp [hkind])⟩
              rw [closingFaults_around]
              rfl
          | cons outer below =>
              dsimp only at hquiet ⊢
              obtain ⟨heq, hends⟩ := ih t.span.stop outer below hlater hquiet.right
              refine ⟨?_, hends⟩
              rw [heq, closingFaults_around, Around.groupEnd, Around.groupEnd, List.map_append]
      | _ =>
          simp only [hkind] at hquiet ⊢
          exact ih _ _ _ hlater hquiet

theorem skipGroup_around {span : Span} {b : Bracket} {ts : List Token} (hlines : w.Lines ts)
    (hquiet : w.Quiet (skipGroup span b ts).faults) :
    skipGroup (w.span span) b (w.tokens ts) = w.groupEnd (skipGroup span b ts) ∧
      w.Ends (skipGroup span b ts).rest :=
  closeGroup_around _ ts _ _ _ hlines hquiet

/-! ### Skimming -/

theorem skim_prepend (fs : List Fault) (s : Skim) :
    w.skim (s.prepend fs) = (w.skim s).prepend (fs.map w.fault) := by
  simp [Around.skim, Skim.prepend]

/-- Behind a token, or behind its group, the tokens still end with a newline unless the token was
the newline. -/
theorem skipUnit_around {t : Token} {ts : List Token} (hends : w.Ends (t :: ts))
    (hquiet : w.Quiet (skipUnit t ts).faults) :
    skipUnit (w.token t) (w.tokens ts) = w.skim (skipUnit t ts) ∧
      (t.kind ≠ .newline → w.Ends (skipUnit t ts).rest) := by
  by_cases hopener : ∃ b, t.kind = .opener b
  · obtain ⟨b, hkind⟩ := hopener
    have hlater := (hends.tail (by simp [hkind])).lines
    rw [skipUnit_opener ts hkind] at hquiet ⊢
    obtain ⟨hgroup, hgo⟩ := skipGroup_around hlater hquiet
    rw [skipUnit_opener (t := w.token t) _ hkind, Around.token_span, hgroup]
    exact ⟨rfl, fun _ => hgo⟩
  · have hsingle : ∀ b, t.kind ≠ .opener b := fun b hkind => hopener ⟨b, hkind⟩
    rw [skipUnit_single ts hsingle, skipUnit_single (t := w.token t) _ hsingle]
    exact ⟨rfl, fun hnewline => hends.tail hnewline⟩

/-- A skim that stops at newlines does not come to the end of the tokens. -/
theorem skim_around {move : Kind → Move} (hnewline : ∀ causes, move .newline ≠ .onward causes) :
    ∀ ts : List Token, w.Ends ts → w.Quiet (skim move ts).faults →
      skim move (w.tokens ts) = w.skim (skim move ts) := by
  refine tokens_induction ?_ ?_
  · intro hends _
    rw [Around.tokens_nil, hends.last_of_nil.later_eq]
    simp [skim, skimIn, Around.skim, hends.last_of_nil.later_eq]
  · intro t ts ih hends hquiet
    rw [Around.tokens_cons]
    cases hmove : move t.kind with
    | before =>
        rw [skim_before ts hmove, skim_before (t := w.token t) _ hmove]
        rfl
    | behind =>
        rw [skim_behind ts hmove] at hquiet ⊢
        rw [skim_behind (t := w.token t) _ hmove]
        exact (skipUnit_around hends hquiet).1
    | onward causes =>
        have hkind : t.kind ≠ .newline := fun hkind => hnewline causes (hkind ▸ hmove)
        rw [skim_onward ts hmove] at hquiet ⊢
        obtain ⟨hunit, hgo⟩ := skipUnit_around hends hquiet.left.right
        rw [skim_onward (t := w.token t) _ hmove, hunit, skim_prepend,
          ← ih _ (skipUnit_suffix t ts) (hgo hkind) hquiet.right, List.map_append, List.map_map]
        rfl

theorem skipStatement_around {ts : List Token} (hends : w.Ends ts)
    (hquiet : w.Quiet (skipStatement ts).faults) :
    skipStatement (w.tokens ts) = w.skim (skipStatement ts) :=
  skim_around (by simp [statementMove]) ts hends hquiet

theorem skipFieldRest_around {ts : List Token} (hends : w.Ends ts)
    (hquiet : w.Quiet (skipFieldRest ts).faults) :
    skipFieldRest (w.tokens ts) = w.skim (skipFieldRest ts) :=
  skim_around (by simp [fieldRestMove]) ts hends hquiet

theorem skipSignature_around {ts : List Token} (hends : w.Ends ts)
    (hquiet : w.Quiet (skipSignature ts).faults) :
    skipSignature (w.tokens ts) = w.skim (skipSignature ts) :=
  skim_around (by simp [signatureMove]) ts hends hquiet

theorem skipOptional_around (b : Bracket) {ts : List Token} (hends : w.Ends ts)
    (hquiet : w.Quiet (skipOptional b ts).2.faults) :
    skipOptional b (w.tokens ts) = ((skipOptional b ts).1, w.skim (skipOptional b ts).2) ∧
      w.Ends (skipOptional b ts).2.rest := by
  cases ts with
  | nil =>
      refine ⟨?_, hends⟩
      simp [skipOptional, Around.skim, hends.last_of_nil.later_eq]
  | cons t ts =>
      by_cases hkind : t.kind = .opener b
      · have hkind' : (w.token t).kind = .opener b := hkind
        have hlater := (hends.tail (by simp [hkind])).lines
        simp only [skipOptional, if_pos hkind] at hquiet
        obtain ⟨hgroup, hgo⟩ := skipGroup_around hlater hquiet
        simp only [skipOptional, Around.tokens_cons, if_pos hkind, if_pos hkind', Around.token_span]
        rw [hgroup]
        exact ⟨rfl, hgo⟩
      · have hkind' : ¬ (w.token t).kind = .opener b := hkind
        simp only [skipOptional, Around.tokens_cons, if_neg hkind, if_neg hkind']
        exact ⟨rfl, hends⟩

/-! ### Names

A name is read from tokens that follow each other on a line.  None of them is a newline, so where
the tokens end with one, there is always a token behind the name that ends it.
-/

theorem dottedEnd_around (stop : Nat) (ts : List Token) (hends : w.Ends ts) :
    dottedEnd (w.offset stop) (w.tokens ts)
        = (w.offset (dottedEnd stop ts).1, w.tokens (dottedEnd stop ts).2) ∧
      w.Ends (dottedEnd stop ts).2 := by
  fun_induction dottedEnd stop ts with
  | case1 stop d n ts hdot ih =>
      have hdot' : (w.token d).kind = .dot ∧ (w.token n).kind.isName = true := hdot
      have hword := Kind.ne_newline_of_isName hdot.2
      obtain ⟨heq, hgo⟩ := ih ((hends.tail (by simp [hdot.1])).tail hword)
      refine ⟨?_, hgo⟩
      simp only [Around.tokens_cons, dottedEnd, if_pos hdot']
      exact heq
  | case2 stop d n ts hdot =>
      have hdot' : ¬ ((w.token d).kind = .dot ∧ (w.token n).kind.isName = true) := hdot
      refine ⟨?_, hends⟩
      simp only [Around.tokens_cons, dottedEnd, if_neg hdot']
  | case3 stop ts hshort =>
      refine ⟨?_, hends⟩
      cases ts with
      | nil => simp [dottedEnd, hends.last_of_nil.later_eq]
      | cons t ts =>
          obtain rfl : ts = [] := by
            cases ts with
            | nil => rfl
            | cons u ts => exact (hshort t u ts rfl).elim
          -- One token is left, the newline, and it is no dot.
          rcases hends with hlast | ⟨u, hu, hkind⟩
          · simp [dottedEnd, hlast.later_eq]
          · obtain rfl : t = u := by simpa using hu
            cases hlater : w.later <;> simp [dottedEnd, hlater, hkind]

theorem operatorEnd_around (stop : Nat) (ts : List Token) (hends : w.Ends ts) :
    operatorEnd (w.offset stop) (w.tokens ts)
        = (w.offset (operatorEnd stop ts).1, w.tokens (operatorEnd stop ts).2) ∧
      w.Ends (operatorEnd stop ts).2 := by
  fun_induction operatorEnd stop ts with
  | case1 stop =>
      refine ⟨?_, hends⟩
      simp [operatorEnd, hends.last_of_nil.later_eq]
  | case2 stop t ts hpart ih =>
      obtain ⟨heq, hgo⟩ := ih (hends.tail (Kind.ne_newline_of_isOperatorPart hpart))
      refine ⟨?_, hgo⟩
      rw [Around.tokens_cons, operatorEnd, Around.token_kind, if_pos hpart]
      exact heq
  | case3 stop t ts hpart =>
      refine ⟨?_, hends⟩
      rw [Around.tokens_cons, operatorEnd, Around.token_kind, if_neg hpart]

theorem readForeignName_around (language : Language) {ts : List Token} (hends : w.Ends ts) :
    readForeignName language (w.tokens ts) = w.nameRead (readForeignName language ts) ∧
      w.Ends (readForeignName language ts).2 := by
  cases ts with
  | nil =>
      refine ⟨?_, hends⟩
      simp [readForeignName, Around.nameRead, hends.last_of_nil.later_eq]
  | cons t ts =>
      by_cases hname : t.kind.isName = true
      · have hname' : (w.token t).kind.isName = true := hname
        have hword := Kind.ne_newline_of_isName hname
        obtain ⟨heq, hgo⟩ := dottedEnd_around t.span.stop ts (hends.tail hword)
        simp only [readForeignName, Around.tokens_cons, if_pos hname, if_pos hname',
          Around.token_span, Around.span_stop]
        rw [heq]
        exact ⟨rfl, hgo⟩
      · have hname' : ¬ (w.token t).kind.isName = true := hname
        simp only [readForeignName, Around.tokens_cons, if_neg hname, if_neg hname']
        exact ⟨rfl, hends⟩

theorem readName_around {ctx : Context} (allowOperator : Bool) {ts : List Token}
    (hends : w.Ends ts) (hline : InLine ctx.text (spans ts)) :
    readName (w.context ctx) allowOperator (w.tokens ts)
        = w.nameRead (readName ctx allowOperator ts) ∧
      w.Ends (readName ctx allowOperator ts).2 := by
  cases ts with
  | nil =>
      refine ⟨?_, hends⟩
      simp [readName, Around.nameRead, hends.last_of_nil.later_eq]
  | cons t ts =>
      simp only [readName, Around.tokens_cons, Around.token_kind, Around.token_span,
        Around.span_stop, w.slice_mem hline List.mem_cons_self]
      by_cases hoperator : (allowOperator && t.kind.isOperatorPart) = true
      · have hmark := Kind.ne_newline_of_isOperatorPart (Bool.and_eq_true_iff.mp hoperator).2
        obtain ⟨heq, hgo⟩ := operatorEnd_around t.span.stop ts (hends.tail hmark)
        simp only [if_pos hoperator]
        rw [heq]
        exact ⟨rfl, hgo⟩
      simp only [if_neg hoperator]
      by_cases hname : t.kind.isName = true
      · have hlater := hends.tail (Kind.ne_newline_of_isName hname)
        simp only [if_pos hname]
        cases Language.ofQualifier? (ctx.slice t.span) with
        | none => exact ⟨rfl, hlater⟩
        | some language =>
            cases ts with
            | nil =>
                refine ⟨?_, hlater⟩
                simp [Around.nameRead, hlater.last_of_nil.later_eq]
                rfl
            | cons d after =>
                by_cases hdot : d.kind = .dot
                · have hdot' : (w.token d).kind = .dot := hdot
                  simp only [Around.tokens_cons, if_pos hdot, if_pos hdot']
                  exact readForeignName_around language (hlater.tail (by simp [hdot]))
                · have hdot' : ¬ (w.token d).kind = .dot := hdot
                  simp only [Around.tokens_cons, if_neg hdot, if_neg hdot']
                  exact ⟨rfl, hlater⟩
      · simp only [if_neg hname]
        exact ⟨rfl, hends⟩

/-- Only where nothing stands behind the text can the place of the next token be its end. -/
theorem here_around (ctx : Context) (ts : List Token) (hlast : w.Last) :
    here (w.context ctx) (w.tokens ts) = w.span (here ctx ts) := by
  cases ts with
  | nil =>
      rw [Around.tokens_nil, hlast.later_eq]
      simp [here, Context.endSpan, Around.context, Around.text, Around.span, Span.shift, hlast.1,
        Text.byteSize_append]
  | cons t ts => rfl

end Outline

end VServer
