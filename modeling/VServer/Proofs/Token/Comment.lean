/-
What a text has between its tokens.

Blanks, comments that run to the end of their line, and comments between marks, which nest.  Marks
are read from the left, two characters at a time, so the inside of a comment is a list of whole
comments and of characters that are no mark together with the one behind them (`Inside`).
`splitComment` counts how deep it is instead; with `depth` comments open around it, it stops behind
as many insides as it has to end (`Closing`).  It finds the end if there is one, and if there is
none it comes to the end of the text.
-/
import VServer.Proofs.Token.Word

namespace VServer.Token

/-! ### Block comments

A mark can only be told with the next character at hand, so `Inside.char` looks at what stands
behind the character, with the star of the closing mark behind the last one.  So a slash right in
front of the closing mark would open a comment instead of ending one.
-/

/-- Two characters that open or end a comment. -/
def IsMark (c d : Char) : Prop :=
  c = '/' ∧ d = '*' ∨ c = '*' ∧ d = '/'

/-- The inside of a comment, with the mark that ends it behind it. -/
inductive Inside : List Char → Prop
  | done : Inside []
  | char {c : Char} {cs : List Char} (hmark : ∀ d ∈ (cs ++ ['*']).head?, ¬ IsMark c d)
      (later : Inside cs) : Inside (c :: cs)
  | comment {inner cs : List Char} (hinner : Inside inner) (later : Inside cs) :
      Inside ('/' :: '*' :: (inner ++ '*' :: '/' :: cs))

/-- A comment between its marks. -/
def BlockComment (text : List Char) : Prop :=
  ∃ inside, Inside inside ∧ text = '/' :: '*' :: (inside ++ ['*', '/'])

/-- A comment that is opened, and that ends nowhere in the text. -/
structure OpenComment (text : List Char) : Prop where
  opened : ['/', '*'] <+: text
  endless : ∀ front, front <+: text → ¬ BlockComment front

/-- What ends `depth` comments and the one around them: so many insides, each with its mark. -/
inductive Closing : Nat → List Char → Prop
  | last {inside : List Char} (h : Inside inside) : Closing 0 (inside ++ ['*', '/'])
  | outer {depth : Nat} {inside cs : List Char} (h : Inside inside) (later : Closing depth cs) :
      Closing (depth + 1) (inside ++ '*' :: '/' :: cs)

theorem closing_zero_iff {cs : List Char} :
    Closing 0 cs ↔ BlockComment ('/' :: '*' :: cs) := by
  constructor
  · intro h
    cases h with
    | @last inside h => exact ⟨inside, h, rfl⟩
  · rintro ⟨inside, h, heq⟩
    obtain rfl : cs = inside ++ ['*', '/'] := by simpa using heq
    exact .last h

/-- The first inside can be gone on in front. -/
theorem Closing.prepend {depth : Nat} {cs : List Char} (h : Closing depth cs) (front : List Char)
    (hfront : ∀ inside, (inside ++ ['*']).head? = cs.head? → Inside inside →
      Inside (front ++ inside)) : Closing depth (front ++ cs) := by
  cases h with
  | @last inside h =>
      rw [← List.append_assoc]
      refine .last (hfront inside ?_ h)
      cases inside <;> rfl
  | @outer depth inside cs h later =>
      rw [← List.append_assoc]
      refine .outer (hfront inside ?_ h) later
      cases inside <;> rfl

/-! How `splitComment` goes on, mark by mark. -/

theorem splitComment_opener (depth : Nat) (cs : List Char) :
    splitComment depth ('/' :: '*' :: cs)
      = ('/' :: '*' :: (splitComment (depth + 1) cs).1, (splitComment (depth + 1) cs).2) := by
  simp [splitComment]

theorem splitComment_last (cs : List Char) :
    splitComment 0 ('*' :: '/' :: cs) = (['*', '/'], cs) := by
  simp [splitComment]

theorem splitComment_outer (depth : Nat) (cs : List Char) :
    splitComment (depth + 1) ('*' :: '/' :: cs)
      = ('*' :: '/' :: (splitComment depth cs).1, (splitComment depth cs).2) := by
  simp [splitComment]

theorem splitComment_char {c d : Char} (h : ¬ IsMark c d) (depth : Nat) (cs : List Char) :
    splitComment depth (c :: d :: cs)
      = (c :: (splitComment depth (d :: cs)).1, (splitComment depth (d :: cs)).2) := by
  obtain ⟨hopen, hclose⟩ := not_or.mp h
  simp only [splitComment, if_neg hopen, if_neg hclose]

/-- Up to the mark behind an inside nothing ends. -/
theorem splitComment_inside {inside : List Char} (h : Inside inside) :
    ∀ (depth : Nat) (rest : List Char),
      splitComment depth (inside ++ '*' :: '/' :: rest)
        = (inside ++ (splitComment depth ('*' :: '/' :: rest)).1,
            (splitComment depth ('*' :: '/' :: rest)).2) := by
  induction h with
  | done => intro depth rest; rfl
  | @char c cs hmark later ih =>
      intro depth rest
      obtain ⟨d, ds, hds, hd⟩ : ∃ d ds, cs ++ '*' :: '/' :: rest = d :: ds ∧
          d ∈ (cs ++ ['*']).head? := by
        cases cs with
        | nil => exact ⟨_, _, rfl, rfl⟩
        | cons d cs => exact ⟨_, _, rfl, rfl⟩
      rw [List.cons_append, hds, splitComment_char (hmark d hd), ← hds, ih]
      rfl
  | @comment inner cs hinner later ihInner ihLater =>
      intro depth rest
      have htext : '/' :: '*' :: (inner ++ '*' :: '/' :: cs) ++ '*' :: '/' :: rest
          = '/' :: '*' :: (inner ++ '*' :: '/' :: (cs ++ '*' :: '/' :: rest)) := by simp
      rw [htext, splitComment_opener, ihInner, splitComment_outer, ihLater]
      simp

/-- **The end of a comment is found.** -/
theorem splitComment_closing {depth : Nat} {cs : List Char} (h : Closing depth cs)
    (rest : List Char) : splitComment depth (cs ++ rest) = (cs, rest) := by
  induction h with
  | @last inside h =>
      rw [List.append_assoc]
      show splitComment 0 (inside ++ '*' :: '/' :: rest) = _
      rw [splitComment_inside h, splitComment_last]
  | @outer depth inside cs h later ih =>
      rw [List.append_assoc]
      show splitComment (depth + 1) (inside ++ '*' :: '/' :: (cs ++ rest)) = _
      rw [splitComment_inside h, splitComment_outer, ih]

/-- **What is cut off ends all that is open, or there is nothing left.** -/
theorem splitComment_stops (depth : Nat) (cs : List Char) :
    Closing depth (splitComment depth cs).1 ∨ (splitComment depth cs).2 = [] := by
  fun_induction splitComment depth cs with
  | case1 => exact .inr rfl
  | case2 => exact .inr rfl
  | case3 depth c d cs hopen inside rest heq ih =>
      rw [heq] at ih
      obtain ⟨rfl, rfl⟩ := hopen
      refine ih.imp_left fun hclosing => ?_
      cases hclosing with
      | @outer _ inner later hinner hlater =>
          have h := hlater.prepend ('/' :: '*' :: (inner ++ ['*', '/'])) fun inside _ hinside => by
            simpa using Inside.comment hinner hinside
          simpa using h
  | case4 c d cs hopen hclose =>
      obtain ⟨rfl, rfl⟩ := hclose
      exact .inl (.last .done)
  | case5 c d cs hopen hclose outer inside rest heq ih =>
      rw [heq] at ih
      obtain ⟨rfl, rfl⟩ := hclose
      exact ih.imp_left fun hclosing => .outer .done hclosing
  | case6 depth c d cs hopen hclose inside rest heq ih =>
      rw [heq] at ih
      have hwhole := splitComment_append depth (d :: cs)
      rw [heq] at hwhole
      refine ih.imp_left fun hclosing => hclosing.prepend [c] fun inner hhead hinner => ?_
      refine .char (fun e he => ?_) hinner
      -- The character behind `c` is `d`, with which it is no mark.
      have hd : inside.head? = some d := by
        cases inside with
        | nil => simp at hhead
        | cons d' inside => exact congrArg some (List.cons.inj hwhole).1
      obtain rfl : d = e := Option.some.inj ((hhead.trans hd).symm.trans he)
      exact not_or.mpr ⟨hopen, hclose⟩

/-- What is taken for a comment is one, or it is the rest of the text and stays open. -/
theorem splitComment_comment (cs : List Char) :
    BlockComment ('/' :: '*' :: (splitComment 0 cs).1) ∨
      OpenComment ('/' :: '*' :: (splitComment 0 cs).1) ∧ (splitComment 0 cs).2 = [] := by
  by_cases hclosing : Closing 0 (splitComment 0 cs).1
  · exact .inl (closing_zero_iff.mp hclosing)
  · have hrest := (splitComment_stops 0 cs).resolve_left hclosing
    have hall := splitComment_append 0 cs
    rw [hrest, List.append_nil] at hall
    rw [hall] at hclosing ⊢
    refine .inr ⟨⟨⟨cs, rfl⟩, ?_⟩, hrest⟩
    rintro front ⟨more, hmore⟩ ⟨inside, hinside, rfl⟩
    -- An end that stands in the text would have been found.
    have hcs : inside ++ ['*', '/'] ++ more = cs := by simpa using hmore
    have hfound := splitComment_closing (.last hinside) more
    rw [hcs] at hfound
    rw [hfound] at hall
    exact hclosing (hall ▸ .last hinside)

/-! ### Gaps

A run is one piece that the scanner passes over, and what it is can depend on the text behind it: a
comment to the end of the line ends where the line does, and one that stays open has nothing behind
it.
-/

/-- One run of what is passed over, with the text behind it. -/
inductive Run : List Char → List Char → Prop
  | blanks {run behind : List Char} (hrun : run ≠ []) (hblank : ∀ c ∈ run, isGapChar c = true) :
      Run run behind
  /-- A comment up to the end of its line. -/
  | line {body behind : List Char} (hbody : '\n' ∉ body) (hend : ∀ c ∈ behind.head?, c = '\n') :
      Run ('/' :: '/' :: body) behind
  | block {comment behind : List Char} (h : BlockComment comment) : Run comment behind
  /-- A comment up to the end of the text. -/
  | endless {comment : List Char} (h : OpenComment comment) : Run comment []

/-- Runs one behind the other, with the text behind them. -/
inductive Skipped : List Char → List Char → Prop
  | nothing {behind : List Char} : Skipped [] behind
  | run {run later behind : List Char} (hrun : Run run (later ++ behind))
      (hlater : Skipped later behind) : Skipped (run ++ later) behind

/-- A comment between marks, whether it is ended or not. -/
def IsBlock (comment behind : List Char) : Prop :=
  BlockComment comment ∨ OpenComment comment ∧ behind = []

/-- A newline that is passed over is inside a comment between marks. -/
theorem Run.newline {run behind : List Char} (h : Run run behind) (hnewline : '\n' ∈ run) :
    IsBlock run behind := by
  cases h with
  | blanks hrun hblank =>
      have hcode := gapChar_code (hblank _ hnewline)
      simp at hcode
  | line hbody hend => simp [hbody] at hnewline
  | block h => exact .inl h
  | endless h => exact .inr ⟨h, rfl⟩

/-- A character of two texts is in the later one or in the earlier one. -/
theorem side_of_append {run later before after : List Char} {c : Char}
    (h : run ++ later = before ++ c :: after) :
    (∃ extra, before = run ++ extra ∧ later = extra ++ c :: after) ∨
      ∃ extra, run = before ++ c :: extra := by
  rcases List.append_eq_append_iff.mp h with ⟨extra, hbefore, hlater⟩ | ⟨extra, hrun, hextra⟩
  · exact .inl ⟨extra, hbefore, hlater⟩
  · rcases List.append_eq_cons_iff.mp hextra.symm with ⟨rfl, hlater⟩ | ⟨extra, rfl, -⟩
    · exact .inl ⟨[], by simpa using hrun.symm, hlater⟩
    · exact .inr ⟨extra, hrun⟩

/-- The same of more than one run; `before` and `after` are the parts around the newline. -/
theorem Skipped.newline {skipped behind : List Char} (h : Skipped skipped behind) :
    ∀ {before after : List Char}, skipped = before ++ '\n' :: after →
      ∃ front comment back, skipped = front ++ comment ++ back ∧ IsBlock comment (back ++ behind) ∧
        ∃ start stop, before = front ++ start ∧ comment = start ++ '\n' :: stop := by
  induction h with
  | nothing => intro before after heq; simp at heq
  | @run run later behind hrun hlater ih =>
      intro before after heq
      rcases side_of_append heq with ⟨extra, rfl, hextra⟩ | ⟨extra, rfl⟩
      · obtain ⟨front, comment, back, rfl, hblock, start, stop, rfl, hcomment⟩ := ih hextra
        exact ⟨run ++ front, comment, back, by simp, hblock, start, stop, by simp, hcomment⟩
      · exact ⟨[], before ++ '\n' :: extra, later, by simp, hrun.newline (by simp), before, extra,
          rfl, rfl⟩

end VServer.Token
