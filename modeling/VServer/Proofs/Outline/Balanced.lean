/-
Sequences with balanced brackets, and how they are passed over.

Such a sequence is built of words that are no brackets and of groups, in which everything stands
again between an opening bracket and the closing one of its kind.  Whatever stands inside a group,
a reader comes out right behind it and has nothing to report.  So a skim can only be stopped by a
word outside all brackets, which `heads` lists.

The words carry the gaps in front of them, so that a sequence can be printed and its tokens have
places in the text.  The lemmas are about a reader that is given the tokens of such a sequence and
any others behind them: it comes to these others, and where it reports a place, that is the byte at
which the sequence ends.  The induction is on how the sequence is built.  Inside a group it needs
the same for every stack of open brackets, which is how `closeGroup_words` is stated.
-/
import VServer.Proofs.Token.Word
import VServer.Proofs.Outline.Fuel

namespace VServer

open Token (Word Gap place print)
open Text (byteSize)

namespace Token.Word

/-- An opening bracket. -/
def opener (gap : Gap) : Bracket → Word
  | .paren => ⟨gap, .opener .paren, ['('], .mark rfl⟩
  | .brace => ⟨gap, .opener .brace, ['\x7b'], .mark rfl⟩
  | .square => ⟨gap, .opener .square, ['['], .mark rfl⟩

/-- A closing bracket. -/
def closer (gap : Gap) : Bracket → Word
  | .paren => ⟨gap, .closer .paren, [')'], .mark rfl⟩
  | .brace => ⟨gap, .closer .brace, ['\x7d'], .mark rfl⟩
  | .square => ⟨gap, .closer .square, [']'], .mark rfl⟩

@[simp] theorem kind_opener (gap : Gap) (b : Bracket) : (opener gap b).kind = .opener b := by
  cases b <;> rfl

@[simp] theorem gap_opener (gap : Gap) (b : Bracket) : (opener gap b).gap = gap := by
  cases b <;> rfl

@[simp] theorem kind_closer (gap : Gap) (b : Bracket) : (closer gap b).kind = .closer b := by
  cases b <;> rfl

end Token.Word

namespace Outline

/-- A sequence of words in which every bracket is closed by one of its kind. -/
inductive Balanced where
  | done
  | word (w : Word) (plain : w.kind.isBracket = false) (later : Balanced)
  | group (b : Bracket) (before : Gap) (inner : Balanced) (behind : Gap) (later : Balanced)

namespace Balanced

/-- All words, brackets included. -/
def words : Balanced → List Word
  | done => []
  | word w _ later => w :: later.words
  | group b before inner behind later =>
    .opener before b :: (inner.words ++ .closer behind b :: later.words)

/-- The words outside brackets; of a group only its opening bracket. -/
def heads : Balanced → List Word
  | done => []
  | word w _ later => w :: later.heads
  | group b before _ _ later => .opener before b :: later.heads

end Balanced

/-- A group: brackets of one kind and what stands between them. -/
structure Group (b : Bracket) where
  before : Gap
  inner : Balanced
  behind : Gap

/-- All words of a group. -/
def Group.words {b : Bracket} (g : Group b) : List Word :=
  .opener g.before b :: (g.inner.words ++ [.closer g.behind b])

/-! ### Groups are passed over

`closeGroup` has no recursion into groups; it goes along the tokens with a stack.  The four
equations say what one token does to the stack, and what is balanced leaves it as it was.
-/

section CloseGroup

variable {unclosed : Fault} {stop : Nat} {top : Bracket} {below : List Bracket} {t : Token}

theorem closeGroup_opener (ts : List Token) {b : Bracket} (h : t.kind = .opener b) :
    closeGroup unclosed stop top below (t :: ts)
      = closeGroup unclosed t.span.stop b (top :: below) ts := by
  rw [closeGroup, h]

theorem closeGroup_plain (ts : List Token) (h : t.kind.isBracket = false) :
    closeGroup unclosed stop top below (t :: ts)
      = closeGroup unclosed t.span.stop top below ts := by
  rw [closeGroup]
  split
  · simp_all [Kind.isBracket]
  · simp_all [Kind.isBracket]
  · rfl

/-- A closing bracket of the right kind inside a group. -/
theorem closeGroup_closer (ts : List Token) {outer : Bracket} (h : t.kind = .closer top) :
    closeGroup unclosed stop top (outer :: below) (t :: ts)
      = closeGroup unclosed t.span.stop outer below ts := by
  rw [closeGroup, h]
  simp [closingFaults]

theorem closeGroup_last (ts : List Token) (h : t.kind = .closer top) :
    closeGroup unclosed stop top [] (t :: ts) = ⟨[], t.span.stop, ts⟩ := by
  rw [closeGroup, h]
  simp [closingFaults]

end CloseGroup

/-- What is balanced leaves the open brackets as they were. -/
theorem closeGroup_words (unclosed : Fault) (ws : Balanced) :
    ∀ (offset : Nat) (top : Bracket) (below : List Bracket) (rest : List Token),
      closeGroup unclosed offset top below (place offset ws.words ++ rest)
        = closeGroup unclosed (offset + byteSize (print ws.words)) top below rest := by
  induction ws with
  | done => intro offset top below rest; rfl
  | word w plain later ih =>
      intro offset top below rest
      show closeGroup _ _ _ _ (⟨w.kind, w.span offset⟩ :: (place _ later.words ++ rest)) = _
      rw [closeGroup_plain _ plain]
      show closeGroup unclosed (offset + byteSize w.print) top below _ = _
      rw [ih, Balanced.words, Token.print_cons, Text.byteSize_append, Nat.add_assoc]
  | group b before inner behind later ihInner ihLater =>
      intro offset top below rest
      simp only [Balanced.words, Token.place_cons, Token.place_append, List.cons_append,
        List.append_assoc]
      rw [closeGroup_opener _ (Word.kind_opener before b)]
      show closeGroup unclosed (offset + byteSize (Word.opener before b).print) _ _ _ = _
      rw [ihInner, closeGroup_closer _ (Word.kind_closer behind b)]
      show closeGroup unclosed (_ + byteSize (Word.closer behind b).print) top below _ = _
      rw [ihLater]
      simp only [Token.print_cons, Token.print_append, Text.byteSize_append, Nat.add_assoc]

namespace Group

variable {b : Bracket} (g : Group b)

/-- The opening bracket of a group as a token. -/
def openToken (offset : Nat) : Token :=
  ⟨.opener b, (Word.opener g.before b).span offset⟩

@[simp] theorem kind_openToken (offset : Nat) : (g.openToken offset).kind = .opener b := rfl

/-- The tokens behind the opening bracket of a group, in front of `rest`. -/
def tokensBehind (offset : Nat) (rest : List Token) : List Token :=
  place (offset + byteSize (Word.opener g.before b).print)
    (g.inner.words ++ [.closer g.behind b]) ++ rest

/-- The byte behind a group. -/
def stop (offset : Nat) : Nat :=
  offset + byteSize (print g.words)

theorem place_words (offset : Nat) (rest : List Token) :
    place offset g.words ++ rest = g.openToken offset :: g.tokensBehind offset rest := by
  simp [words, openToken, tokensBehind]

end Group

/-- **A group is passed over without a fault, up to its last bracket.** -/
theorem skipGroup_words {b : Bracket} (g : Group b) (offset : Nat) (rest : List Token) :
    skipGroup (g.openToken offset).span b (g.tokensBehind offset rest)
      = ⟨[], g.stop offset, rest⟩ := by
  simp only [Group.tokensBehind, Token.place_append, List.append_assoc]
  show closeGroup _ (offset + byteSize (Word.opener g.before b).print) b [] _ = _
  rw [closeGroup_words]
  simp only [Token.place_cons, Token.place_nil, List.cons_append, List.nil_append]
  rw [closeGroup_last _ (Word.kind_closer g.behind b)]
  simp only [Word.span, Group.stop, Group.words, Token.print_cons, Token.print_append,
    Token.print_nil, Text.byteSize_append, Text.byteSize_nil, Nat.add_zero, Nat.add_assoc]

theorem Balanced.words_group (b : Bracket) (before : Gap) (inner : Balanced) (behind : Gap)
    (later : Balanced) :
    (group b before inner behind later).words
      = (⟨before, inner, behind⟩ : Group b).words ++ later.words := by
  simp [words, Group.words]

/-! ### Skims go on over what is balanced -/

/-- A skim that goes on at a word and at an opening bracket, where `p` holds of its kind, goes on
over everything balanced that has only such words outside brackets. -/
theorem skim_words {move : Kind → Move} {p : Kind → Prop}
    (hplain : ∀ kind, p kind → kind.isBracket = false → move kind = .onward [])
    (hopener : ∀ b, p (.opener b) → move (.opener b) = .onward []) (ws : Balanced) :
    (∀ w ∈ ws.heads, p w.kind) → ∀ (offset : Nat) (rest : List Token),
      skim move (place offset ws.words ++ rest) = skim move rest := by
  induction ws with
  | done => intro _ offset rest; rfl
  | word w plain later ih =>
      intro h offset rest
      show skim move (⟨w.kind, w.span offset⟩ :: (place _ later.words ++ rest)) = _
      rw [skim_single _ (Kind.ne_opener_of_plain plain)
        (hplain _ (h w List.mem_cons_self) plain)]
      exact ih (fun v hv => h v (List.mem_cons_of_mem w hv)) _ rest
  | group b before inner behind later _ ih =>
      intro h offset rest
      have hhead : p (Kind.opener b) := by
        simpa using h _ List.mem_cons_self
      rw [Balanced.words_group, Token.place_append, List.append_assoc, Group.place_words,
        skim_opener _ rfl (hopener b hhead), skipGroup_words]
      show (skim move _).prepend [] = _
      rw [ih (fun v hv => h v (List.mem_cons_of_mem _ hv))]
      rfl

theorem skipStatement_words (ws : Balanced) (h : ∀ w ∈ ws.heads, w.kind ≠ .newline)
    (offset : Nat) (rest : List Token) :
    skipStatement (place offset ws.words ++ rest) = skipStatement rest :=
  skim_words (p := (· ≠ .newline)) (fun _ => statementMove_plain) (fun _ _ => rfl) ws h offset rest

theorem skipFieldRest_words (ws : Balanced) (h : ∀ w ∈ ws.heads, w.kind ≠ .newline)
    (offset : Nat) (rest : List Token) :
    skipFieldRest (place offset ws.words ++ rest) = skipFieldRest rest :=
  skim_words (p := (· ≠ .newline)) (fun _ => fieldRestMove_plain) (fun _ _ => rfl) ws h offset rest

theorem skipSignature_words (ws : Balanced)
    (h : ∀ w ∈ ws.heads, w.kind ≠ .newline ∧ w.kind ≠ .opener .brace)
    (offset : Nat) (rest : List Token) :
    skipSignature (place offset ws.words ++ rest) = skipSignature rest :=
  skim_words (p := fun kind => kind ≠ .newline ∧ kind ≠ .opener .brace)
    (fun _ hp => signatureMove_plain hp.1)
    (fun _ hp => signatureMove_opener fun hb => hp.2 (hb ▸ rfl)) ws h offset rest

/-! ### Types go on over what is balanced

A type is followed like a skim, but for one thing: a square bracket behind a blank ends it, since
an attribute starts there.  So a word has to fit behind the one in front of it, and only the first
word of a type is free.
-/

/-- A word that a type goes on with: a square bracket only where it stands right behind the word
in front of it. -/
def GoesOnType (w : Word) : Prop :=
  w.kind ≠ .newline ∧ w.kind ≠ .equals ∧ (w.kind = .opener .square → w.gap.chars = [])

theorem typeEnd_group {begun : Bool} {stop : Nat} {b : Bracket} (g : Group b) (offset : Nat)
    (rest : List Token)
    (hgap : ¬ (b = .square ∧ begun = true ∧ stop < (g.openToken offset).span.start)) :
    typeEnd begun stop (place offset g.words ++ rest) = typeEnd true (g.stop offset) rest := by
  rw [Group.place_words, typeEnd_opener _ rfl hgap, skipGroup_words]
  rfl

theorem typeEnd_words (ws : Balanced) :
    (∀ w ∈ ws.heads, GoesOnType w) → ∀ (offset : Nat) (rest : List Token),
      typeEnd true offset (place offset ws.words ++ rest)
        = typeEnd true (offset + byteSize (print ws.words)) rest := by
  induction ws with
  | done => intro _ offset rest; rfl
  | word w plain later ih =>
      intro h offset rest
      obtain ⟨hnewline, hequals, -⟩ := h w List.mem_cons_self
      show typeEnd _ _ (⟨w.kind, w.span offset⟩ :: (place _ later.words ++ rest)) = _
      rw [typeEnd_plain _ hnewline hequals plain]
      show typeEnd true (offset + byteSize w.print) _ = _
      rw [ih (fun v hv => h v (List.mem_cons_of_mem w hv)), Balanced.words, Token.print_cons,
        Text.byteSize_append, Nat.add_assoc]
  | group b before inner behind later _ ih =>
      intro h offset rest
      obtain ⟨-, -, hsquare⟩ := h _ List.mem_cons_self
      have hgap : ¬ (b = .square ∧ true = true ∧
          offset < ((⟨before, inner, behind⟩ : Group b).openToken offset).span.start) := by
        rintro ⟨rfl, -, hlt⟩
        have hnone : before.chars = [] := by simpa using hsquare (by simp)
        simp [Group.openToken, Word.span, hnone] at hlt
      rw [Balanced.words_group, Token.place_append, List.append_assoc, typeEnd_group _ _ _ hgap]
      show typeEnd true (offset + byteSize (print _)) _ = _
      rw [ih (fun v hv => h v (List.mem_cons_of_mem _ hv)), Token.print_append,
        Text.byteSize_append, Nat.add_assoc]

/-- A type, whose first word may be a square bracket anywhere. -/
theorem typeEnd_type (ws : Balanced) (hfilled : ws.heads ≠ [])
    (hfirst : ∀ w ∈ ws.heads, w.kind ≠ .newline ∧ w.kind ≠ .equals)
    (hlater : ∀ w ∈ ws.heads.tail, GoesOnType w) (start offset : Nat) (rest : List Token) :
    typeEnd false start (place offset ws.words ++ rest)
      = typeEnd true (offset + byteSize (print ws.words)) rest := by
  cases ws with
  | done => exact absurd rfl hfilled
  | word w plain later =>
      obtain ⟨hnewline, hequals⟩ := hfirst w List.mem_cons_self
      show typeEnd _ _ (⟨w.kind, w.span offset⟩ :: (place _ later.words ++ rest)) = _
      rw [typeEnd_plain _ hnewline hequals plain]
      show typeEnd true (offset + byteSize w.print) _ = _
      rw [typeEnd_words later hlater, Balanced.words, Token.print_cons, Text.byteSize_append,
        Nat.add_assoc]
  | group b before inner behind later =>
      rw [Balanced.words_group, Token.place_append, List.append_assoc,
        typeEnd_group _ _ _ (by simp)]
      show typeEnd true (offset + byteSize (print _)) _ = _
      rw [typeEnd_words later hlater, Token.print_append, Text.byteSize_append, Nat.add_assoc]

end Outline

end VServer
