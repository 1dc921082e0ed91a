/-
The loops of the reader end.

A loop of the reader is given here by what one turn of it does: a turn leaves the loop at some
tokens, or goes on from another state.  Nothing bounds the number of turns.  `Runs` is a finite run
of such a loop, with all the states that it goes through.

A `Loop` moves forward: a turn that goes on passes over a token at least, and a turn that leaves the
loop does not go back.  So a loop has a run from every state, with no more turns than there are
tokens and one (`Loop.exists_runs`), and a reader with a bound that does what a turn does ends where
the run ends (`Loop.ends`).

The search for the colon of an access section is no such loop.  It stays where it is at the end of
the tokens, and has a run only if there is a colon (`not_runs_colonTurn`).  It is begun only behind
a look ahead that has seen one (`exists_colon_of_accessSection`).
-/
import VServer.Proofs.Outline.Locality

namespace VServer.Outline

/-! ### Loops

The turns of a loop are a function, and a run of it is a finite list of states.  Nothing is said
about what a loop computes on the way.  That a reader with a bound computes the same is a separate
fact, an equation for one turn, from which `Loop.ends` concludes that both end at the same tokens.
-/

/-- The states that a loop goes through from a first one on, and the tokens at which it is left. -/
inductive Runs {σ : Type} (turn : σ → List Token ⊕ σ) : σ → List σ → List Token → Prop
  | leave {s : σ} {rest : List Token} (hturn : turn s = .inl rest) : Runs turn s [s] rest
  | again {s next : σ} {trail : List σ} {rest : List Token} (hturn : turn s = .inr next)
      (later : Runs turn next trail rest) : Runs turn s (s :: trail) rest

/-- The second tokens are the first ones without a token in front, or without some. -/
def Advances (ts rest : List Token) : Prop :=
  ∃ passed, passed ≠ [] ∧ ts = passed ++ rest

theorem advances_cons (t : Token) {ts rest : List Token} (h : rest <:+ ts) :
    Advances (t :: ts) rest := by
  obtain ⟨passed, rfl⟩ := h
  exact ⟨t :: passed, by simp, rfl⟩

theorem advances_of_suffix {ts us rest : List Token} (h : us <:+ ts) (hrest : Advances us rest) :
    Advances ts rest := by
  obtain ⟨front, rfl⟩ := h
  obtain ⟨passed, hpassed, rfl⟩ := hrest
  exact ⟨front ++ passed, by simp [hpassed], by simp⟩

theorem Advances.length_lt {ts rest : List Token} (h : Advances ts rest) :
    rest.length < ts.length := by
  obtain ⟨passed, hpassed, rfl⟩ := h
  have hlength := List.length_pos_of_ne_nil hpassed
  rw [List.length_append]
  omega

/-- A turn that does not go back, and goes forward if it goes on. -/
def Forward {σ : Type} (tokens : σ → List Token) (ts : List Token) : List Token ⊕ σ → Prop
  | .inl rest => rest <:+ ts
  | .inr next => Advances ts (tokens next)

/-- A loop that moves forward. -/
structure Loop (σ : Type) where
  tokens : σ → List Token
  turn : σ → List Token ⊕ σ
  forward : ∀ s, Forward tokens (tokens s) (turn s)

namespace Loop

variable {σ : Type} (l : Loop σ)

theorem advances {s next : σ} (h : l.turn s = .inr next) :
    Advances (l.tokens s) (l.tokens next) := by
  have hforward := l.forward s
  rwa [h] at hforward

theorem suffix {s : σ} {rest : List Token} (h : l.turn s = .inl rest) : rest <:+ l.tokens s := by
  have hforward := l.forward s
  rwa [h] at hforward

/-- A loop can be left, whatever the state. -/
theorem exists_runs (s : σ) : ∃ trail rest, Runs l.turn s trail rest := by
  -- over the number of tokens that are left
  generalize hlength : (l.tokens s).length = n
  induction n using Nat.strongRecOn generalizing s with
  | ind n ih =>
      cases hturn : l.turn s with
      | inl rest => exact ⟨[s], rest, .leave hturn⟩
      | inr next =>
          have hlt := (l.advances hturn).length_lt
          obtain ⟨trail, rest, hlater⟩ := ih _ (hlength ▸ hlt) next rfl
          exact ⟨s :: trail, rest, .again hturn hlater⟩

variable {l}

/-- Every turn but the last one takes a token. -/
theorem length_le {s : σ} {trail : List σ} {rest : List Token} (h : Runs l.turn s trail rest) :
    trail.length + rest.length ≤ (l.tokens s).length + 1 := by
  induction h with
  | leave hturn =>
      have hle := (l.suffix hturn).length_le
      simp only [List.length_singleton]
      omega
  | again hturn later ih =>
      have hlt := (l.advances hturn).length_lt
      simp only [List.length_cons]
      omega

/-- What does the same as each turn does ends where the loop ends. -/
theorem end_eq {f : σ → List Token} (hf : ∀ s, f s = (l.turn s).elim id f) {s : σ}
    {trail : List σ} {rest : List Token} (h : Runs l.turn s trail rest) : rest = f s := by
  induction h with
  | leave hturn => rw [hf, hturn, Sum.elim_inl, id]
  | again hturn later ih => rw [hf, hturn, Sum.elim_inr, ih]

/-- The loop is left at some tokens, and not after more turns than there are tokens and one. -/
def EndsAt (l : Loop σ) (s : σ) (rest : List Token) : Prop :=
  ∃ trail, Runs l.turn s trail rest ∧ trail.length + rest.length ≤ (l.tokens s).length + 1

/-- **A loop that moves forward ends, where a reader ends that does what its turns do.** -/
theorem ends (l : Loop σ) (f : σ → List Token) (hf : ∀ s, f s = (l.turn s).elim id f) (s : σ) :
    l.EndsAt s (f s) := by
  obtain ⟨trail, rest, hruns⟩ := l.exists_runs s
  obtain rfl := end_eq hf hruns
  exact ⟨trail, hruns, length_le hruns⟩

end Loop

/-! ### Newlines, marks and dots -/

/-- Pass over tokens of some sort. -/
def whileTurn (p : Token → Bool) : List Token → List Token ⊕ List Token
  | [] => .inl []
  | t :: ts => if p t then .inr ts else .inl (t :: ts)

theorem whileTurn_forward (p : Token → Bool) (ts : List Token) :
    Forward id ts (whileTurn p ts) := by
  cases ts with
  | nil => exact List.suffix_refl []
  | cons t ts =>
      rw [whileTurn]
      split
      · exact advances_cons t (List.suffix_refl ts)
      · exact List.suffix_refl _

def whileLoop (p : Token → Bool) : Loop (List Token) := ⟨id, whileTurn p, whileTurn_forward p⟩

theorem whileLoop_ends (p : Token → Bool) (ts : List Token) :
    (whileLoop p).EndsAt ts (ts.dropWhile p) := by
  refine (whileLoop p).ends (List.dropWhile p) (fun ts => ?_) ts
  cases ts with
  | nil => rfl
  | cons t ts =>
      show _ = (whileTurn p (t :: ts)).elim id _
      rw [List.dropWhile_cons, whileTurn]
      split <;> rfl

/-- Whether a token is a newline. -/
def isNewline (t : Token) : Bool :=
  t.kind = .newline

theorem operatorEnd_rest (stop : Nat) (ts : List Token) :
    (operatorEnd stop ts).2 = ts.dropWhile (·.kind.isOperatorPart) := by
  fun_induction operatorEnd stop ts with
  | case1 => rfl
  | case2 stop t ts hpart ih => rw [ih, List.dropWhile_cons, if_pos hpart]
  | case3 stop t ts hpart => rw [List.dropWhile_cons, if_neg hpart]

def dottedTurn : List Token → List Token ⊕ List Token
  | d :: n :: ts => if d.kind = .dot ∧ n.kind.isName then .inr ts else .inl (d :: n :: ts)
  | ts => .inl ts

theorem dottedTurn_forward (ts : List Token) : Forward id ts (dottedTurn ts) := by
  fun_cases dottedTurn ts with
  | case1 d n ts hdot => exact advances_cons d (List.suffix_cons n ts)
  | case2 => exact List.suffix_refl _
  | case3 => exact List.suffix_refl _

/-- The words of a dotted name behind the first one. -/
def dottedLoop : Loop (List Token) := ⟨id, dottedTurn, dottedTurn_forward⟩

theorem dottedLoop_ends (stop : Nat) (ts : List Token) :
    dottedLoop.EndsAt ts (dottedEnd stop ts).2 := by
  refine dottedLoop.ends (fun ts => (dottedEnd stop ts).2) (fun ts => ?_) ts
  show _ = (dottedTurn ts).elim id _
  -- Where the name ends does not depend on where the last word ended.
  have hstop : ∀ ts stop', (dottedEnd stop' ts).2 = (dottedEnd stop ts).2 := by
    intro ts stop'
    unfold dottedEnd
    split
    · split <;> rfl
    · rfl
  fun_cases dottedTurn ts with
  | case1 d n ts hdot =>
      rw [dottedEnd, if_pos hdot]
      exact hstop ts _
  | case2 d n ts hdot =>
      rw [dottedEnd, if_neg hdot]
      rfl
  | case3 ts hshort =>
      rw [dottedEnd.eq_2 _ _ hshort]
      rfl

/-! ### Groups

A turn looks at one token and the brackets that are open.  A group that is never closed ends with
the tokens, so the loop is left in any case.
-/

/-- The brackets that are open, and the tokens. -/
structure Nest where
  stack : List Bracket
  tokens : List Token

def groupTurn : Nest → List Token ⊕ Nest
  | ⟨[], ts⟩ => .inl ts
  | ⟨_ :: _, []⟩ => .inl []
  | ⟨top :: below, t :: ts⟩ =>
    match t.kind with
    | .opener b => .inr ⟨b :: top :: below, ts⟩
    | .closer _ => .inr ⟨below, ts⟩
    | _ => .inr ⟨top :: below, ts⟩

theorem groupTurn_forward (s : Nest) : Forward Nest.tokens s.tokens (groupTurn s) := by
  unfold groupTurn
  split
  · exact List.suffix_refl _
  · exact List.suffix_refl _
  · rename_i t ts
    split
    · exact advances_cons t (List.suffix_refl ts)
    · exact advances_cons t (List.suffix_refl ts)
    · exact advances_cons t (List.suffix_refl ts)

/-- The tokens of a group behind its opening bracket. -/
def groupLoop : Loop Nest := ⟨Nest.tokens, groupTurn, groupTurn_forward⟩

/-- What is left behind the brackets that are open. -/
def Nest.rest (unclosed : Fault) (s : Nest) : List Token :=
  match s.stack with
  | [] => s.tokens
  | top :: below => (closeGroup unclosed 0 top below s.tokens).rest

theorem closeGroup_rest (unclosed : Fault) (stop : Nat) (top : Bracket) (below : List Bracket)
    (ts : List Token) :
    (closeGroup unclosed stop top below ts).rest = Nest.rest unclosed ⟨top :: below, ts⟩ := by
  cases ts <;> rfl

theorem Nest.rest_turn (unclosed : Fault) (s : Nest) :
    s.rest unclosed = (groupTurn s).elim id (Nest.rest unclosed) := by
  fun_cases groupTurn s with
  | case1 ts => rfl
  | case2 top below => rfl
  | case3 top below t ts b hkind =>
      show (closeGroup unclosed 0 top below (t :: ts)).rest = _
      rw [closeGroup, hkind]
      exact closeGroup_rest _ _ _ _ ts
  | case4 top below t ts b hkind =>
      show (closeGroup unclosed 0 top below (t :: ts)).rest = _
      rw [closeGroup, hkind]
      cases below with
      | nil => rfl
      | cons outer below => exact closeGroup_rest _ _ _ _ ts
  | case5 top below t ts hopener hcloser =>
      show (closeGroup unclosed 0 top below (t :: ts)).rest = _
      rw [closeGroup]
      split
      · exact absurd ‹_› (hopener _)
      · exact absurd ‹_› (hcloser _)
      · exact closeGroup_rest _ _ _ _ ts

theorem groupLoop_ends (unclosed : Fault) (stop : Nat) (top : Bracket) (below : List Bracket)
    (ts : List Token) :
    groupLoop.EndsAt ⟨top :: below, ts⟩ (closeGroup unclosed stop top below ts).rest := by
  rw [closeGroup_rest]
  exact groupLoop.ends (Nest.rest unclosed) (Nest.rest_turn unclosed) _

/-! ### Skimming -/

def skimTurn (move : Kind → Move) : List Token → List Token ⊕ List Token
  | [] => .inl []
  | t :: ts =>
    match move t.kind with
    | .before => .inl (t :: ts)
    | .behind => .inl (skipUnit t ts).rest
    | .onward _ => .inr (skipUnit t ts).rest

theorem skimTurn_forward (move : Kind → Move) (ts : List Token) :
    Forward id ts (skimTurn move ts) := by
  cases ts with
  | nil => exact List.suffix_refl []
  | cons t ts =>
      rw [skimTurn]
      split
      · exact List.suffix_refl _
      · exact (skipUnit_suffix t ts).trans (List.suffix_cons t ts)
      · exact advances_cons t (skipUnit_suffix t ts)

/-- The turns of a skim. -/
def skimLoop (move : Kind → Move) : Loop (List Token) := ⟨id, skimTurn move, skimTurn_forward move⟩

theorem skimLoop_ends (move : Kind → Move) (ts : List Token) :
    (skimLoop move).EndsAt ts (skim move ts).rest := by
  refine (skimLoop move).ends (fun ts => (skim move ts).rest) (fun ts => ?_) ts
  cases ts with
  | nil => rfl
  | cons t ts =>
      show _ = (skimTurn move (t :: ts)).elim id _
      rw [skimTurn]
      cases hmove : move t.kind with
      | before =>
          rw [skim_before ts hmove]
          rfl
      | behind =>
          rw [skim_behind ts hmove]
          rfl
      | onward causes =>
          rw [skim_onward ts hmove]
          rfl

/-! ### The type of a field -/

/-- A point of a type: whether a token of it has been read, where the last one ended, and the
tokens. -/
structure TypePoint where
  begun : Bool
  stop : Nat
  tokens : List Token

def typeTurn (s : TypePoint) : List Token ⊕ TypePoint :=
  match s.tokens with
  | [] => .inl []
  | t :: ts =>
    if t.kind = .opener .square ∧ s.begun = true ∧ s.stop < t.span.start then .inl (t :: ts)
    else
      match t.kind with
      | .newline => .inl (t :: ts)
      | .equals => .inl (t :: ts)
      | .closer _ => .inl (t :: ts)
      | .opener b => .inr ⟨true, (skipGroup t.span b ts).stop, (skipGroup t.span b ts).rest⟩
      | _ => .inr ⟨true, t.span.stop, ts⟩

section TypeTurn

variable {begun : Bool} {stop : Nat} {t : Token} (ts : List Token)

theorem typeTurn_stops (h : StopsType begun stop t) :
    typeTurn ⟨begun, stop, t :: ts⟩ = .inl (t :: ts) := by
  simp only [typeTurn]
  rcases h with h | h | ⟨b, h⟩ | h
  · simp [h]
  · simp [h]
  · simp [h]
  · rw [if_pos h]

theorem typeTurn_opener {b : Bracket} (h : t.kind = .opener b)
    (hgap : ¬ (b = .square ∧ begun = true ∧ stop < t.span.start)) :
    typeTurn ⟨begun, stop, t :: ts⟩
      = .inr ⟨true, (skipGroup t.span b ts).stop, (skipGroup t.span b ts).rest⟩ := by
  have hattribute :
      ¬ (Kind.opener b = .opener .square ∧ begun = true ∧ stop < t.span.start) := by
    rw [Kind.opener.injEq]
    exact hgap
  simp only [typeTurn, h]
  rw [if_neg hattribute]

theorem typeTurn_plain (hnewline : t.kind ≠ .newline) (hequals : t.kind ≠ .equals)
    (hplain : t.kind.isBracket = false) :
    typeTurn ⟨begun, stop, t :: ts⟩ = .inr ⟨true, t.span.stop, ts⟩ := by
  have hattribute : ¬ (t.kind = .opener .square ∧ begun = true ∧ stop < t.span.start) :=
    fun h => Kind.ne_opener_of_plain hplain .square h.1
  simp only [typeTurn]
  rw [if_neg hattribute]
  split
  · exact absurd ‹_› hnewline
  · exact absurd ‹_› hequals
  · simp_all [Kind.isBracket]
  · exact absurd ‹_› (Kind.ne_opener_of_plain hplain _)
  · rfl

end TypeTurn

theorem typeTurn_forward (s : TypePoint) : Forward TypePoint.tokens s.tokens (typeTurn s) := by
  obtain ⟨begun, stop, ts⟩ := s
  cases ts with
  | nil => exact List.suffix_refl []
  | cons t ts =>
      rcases cases_type begun stop t with hstops | ⟨b, hkind, hgap⟩ | ⟨hnewline, hequals, hplain⟩
      · rw [typeTurn_stops ts hstops]
        exact List.suffix_refl _
      · rw [typeTurn_opener ts hkind hgap]
        exact advances_cons t (skipGroup_suffix _ _ ts)
      · rw [typeTurn_plain ts hnewline hequals hplain]
        exact advances_cons t (List.suffix_refl ts)

/-- The tokens of a type. -/
def typeLoop : Loop TypePoint := ⟨TypePoint.tokens, typeTurn, typeTurn_forward⟩

theorem typeLoop_ends (begun : Bool) (stop : Nat) (ts : List Token) :
    typeLoop.EndsAt ⟨begun, stop, ts⟩ (typeEnd begun stop ts).rest := by
  refine typeLoop.ends (fun s => (typeEnd s.begun s.stop s.tokens).rest) (fun s => ?_)
    ⟨begun, stop, ts⟩
  obtain ⟨begun, stop, ts⟩ := s
  cases ts with
  | nil => rfl
  | cons t ts =>
      show (typeEnd begun stop (t :: ts)).rest = (typeTurn ⟨begun, stop, t :: ts⟩).elim id _
      rcases cases_type begun stop t with hstops | ⟨b, hkind, hgap⟩ | ⟨hnewline, hequals, hplain⟩
      · rw [typeEnd_stops ts hstops, typeTurn_stops ts hstops]
        rfl
      · rw [typeEnd_opener ts hkind hgap, typeTurn_opener ts hkind hgap]
        rfl
      · rw [typeEnd_plain ts hnewline hequals hplain, typeTurn_plain ts hnewline hequals hplain]
        rfl

/-! ### Access sections

This loop is the odd one out.  At the end of the tokens its turn goes on from the same state, so it
does not move forward and has no run.  What saves the reader is that it looks first: the search is
begun only where a colon has been seen, and up to a colon every turn takes a token.
-/

/-- Go on to the next colon and behind it.  At the end of the tokens, there is nothing to go on
to. -/
def colonTurn : List Token → List Token ⊕ List Token
  | [] => .inr []
  | t :: ts => if t.kind = .colon then .inl ts else .inr ts

/-- The search for a colon passes over what is none. -/
theorem runs_colonTurn {words : List Token} (h : ∀ w ∈ words, w.kind ≠ .colon) {colon : Token}
    (hcolon : colon.kind = .colon) (rest : List Token) :
    ∃ trail, Runs colonTurn (words ++ colon :: rest) trail rest ∧
      trail.length = words.length + 1 := by
  induction words with
  | nil => exact ⟨_, .leave (by rw [List.nil_append, colonTurn, if_pos hcolon]), rfl⟩
  | cons w words ih =>
      obtain ⟨trail, hruns, hlength⟩ := ih fun u hu => h u (List.mem_cons_of_mem w hu)
      have hturn : colonTurn (w :: words ++ colon :: rest) = .inr (words ++ colon :: rest) := by
        rw [List.cons_append, colonTurn, if_neg (h w List.mem_cons_self)]
      exact ⟨_ :: trail, .again hturn hruns, by simp [hlength]⟩

/-- It does not end where there is no colon. -/
theorem not_runs_colonTurn {ts rest : List Token} {trail : List (List Token)}
    (h : ∀ t ∈ ts, t.kind ≠ .colon) : ¬ Runs colonTurn ts trail rest := by
  intro hruns
  induction hruns with
  | @leave ts rest hturn =>
      cases ts with
      | nil => cases hturn
      | cons t ts =>
          rw [colonTurn, if_neg (h t List.mem_cons_self)] at hturn
          cases hturn
  | @again ts next trail rest hturn later ih =>
      refine ih ?_
      cases ts with
      | nil =>
          obtain rfl := Sum.inr.inj hturn
          exact h
      | cons t ts =>
          rw [colonTurn, if_neg (h t List.mem_cons_self)] at hturn
          obtain rfl := Sum.inr.inj hturn
          exact fun u hu => h u (List.mem_cons_of_mem t hu)

theorem isAccessWord_iff {ctx : Context} {t : Token} : isAccessWord ctx t = true ↔
    t.kind = .keyword .pubKw ∨ t.kind = .keyword .mutKw ∨
      t.kind = .ident ∧ ctx.slice t.span = "__global".toList := by
  rw [isAccessWord, Bool.or_eq_true, Bool.or_eq_true, Bool.and_eq_true, decide_eq_true_iff,
    decide_eq_true_iff, decide_eq_true_iff, decide_eq_true_iff, or_assoc]

theorem ne_colon_of_isAccessWord {ctx : Context} {t : Token} (h : isAccessWord ctx t = true) :
    t.kind ≠ .colon := by
  intro hkind
  rw [isAccessWord_iff, hkind] at h
  rcases h with h | h | ⟨h, -⟩
  · cases h
  · cases h
  · cases h

/-- Behind words of an access section, if there are any, there is a colon. -/
theorem exists_colon_of_accessSection {ctx : Context} :
    ∀ {ts rest : List Token} {begun : Bool}, accessSection? ctx begun ts = some rest →
      ∃ words colon, ts = words ++ colon :: rest ∧ (begun = false → words ≠ []) ∧
        (∀ w ∈ words, isAccessWord ctx w = true) ∧ colon.kind = .colon := by
  intro ts
  induction ts with
  | nil => intro rest begun h; cases h
  | cons t ts ih =>
      intro rest begun h
      rw [accessSection?] at h
      split at h
      · rename_i hcolon
        split at h
        · rename_i hbegun
          obtain rfl := Option.some.inj h
          exact ⟨[], t, rfl, by simp [hbegun], by simp, hcolon⟩
        · cases h
      · split at h
        · rename_i hword
          obtain ⟨words, colon, rfl, -, hwords, hcolon⟩ := ih h
          exact ⟨t :: words, colon, rfl, by simp, by simpa [hword] using hwords, hcolon⟩
        · cases h

/-! ### The lines of a struct -/

/-- One line of a struct, with the newlines in front of it. -/
def bodyTurn (ctx : Context) (ts : List Token) : List Token ⊕ List Token :=
  match ts.dropWhile isNewline with
  | [] => .inl []
  | t :: ts =>
    if t.kind = .closer .brace then .inl ts
    else
      match accessSection? ctx false (t :: ts) with
      | some rest => .inr rest
      | none => .inr (readLine ctx t ts).rest

theorem bodyTurn_forward (ctx : Context) (ts : List Token) : Forward id ts (bodyTurn ctx ts) := by
  have hsuffix := List.dropWhile_suffix isNewline (l := ts)
  unfold bodyTurn
  split
  · exact List.nil_suffix
  · rename_i t us hdrop
    rw [hdrop] at hsuffix
    split
    · exact (List.suffix_cons t us).trans hsuffix
    · rename_i hclose
      split
      · rename_i rest haccess
        exact advances_of_suffix hsuffix (advances_cons t (accessSection?_cons_suffix haccess))
      · exact advances_of_suffix hsuffix (advances_cons t (readLine_suffix ctx t us hclose))

/-- The lines of a struct behind its opening brace. -/
def bodyLoop (ctx : Context) : Loop (List Token) := ⟨id, bodyTurn ctx, bodyTurn_forward ctx⟩

/-- A token that is not dropped is none of those that are. -/
theorem not_of_dropWhile {p : Token → Bool} {ts us : List Token} {t : Token}
    (h : ts.dropWhile p = t :: us) : p t = false := by
  have hhead := List.head?_dropWhile_not p ts
  rwa [h] at hhead

theorem bodyFrom_dropWhile (ctx : Context) (unclosed : Fault) (ts : List Token) :
    bodyFrom ctx unclosed ts = bodyFrom ctx unclosed (ts.dropWhile isNewline) := by
  induction ts with
  | nil => rfl
  | cons t ts ih =>
      rw [List.dropWhile_cons]
      split
      · rename_i hnewline
        rw [bodyFrom_newline ts (of_decide_eq_true hnewline), ih]
      · rfl

theorem bodyLoop_ends (ctx : Context) (span : Text.Span) (ts : List Token) :
    (bodyLoop ctx).EndsAt ts (readBody ctx span ts).rest := by
  refine (bodyLoop ctx).ends (fun ts => (readBody ctx span ts).rest) (fun ts => ?_) ts
  show (bodyFrom ctx ⟨span, .unclosed .brace⟩ ts).rest = (bodyTurn ctx ts).elim id _
  rw [bodyFrom_dropWhile]
  unfold bodyTurn
  split
  · rename_i hdrop
    rw [hdrop]
    rfl
  · rename_i t us hdrop
    rw [hdrop]
    have hnewline : t.kind ≠ .newline := of_decide_eq_false (not_of_dropWhile hdrop)
    split
    · rename_i hclose
      rw [bodyFrom_close us hclose]
      rfl
    · rename_i hclose
      split
      · rename_i rest haccess
        rw [bodyFrom_access hnewline hclose haccess]
        rfl
      · rename_i haccess
        rw [bodyFrom_line hnewline hclose haccess]
        rfl

/-! ### The statements of a file

A turn is a statement with the newlines in front of it.  It takes its first token with it, whatever
the statement is, so a file with any text has a finite run, and the run ends with the last token.
-/

/-- A point of a file: the module it is in, and the tokens. -/
structure FilePoint where
  moduleName : String
  tokens : List Token

/-- What is read at a point, if there is something to read. -/
def FilePoint.step? (text : List Char) (s : FilePoint) : Option Step :=
  match s.tokens.dropWhile isNewline with
  | [] => none
  | t :: ts => some (readStatement ⟨text, s.moduleName⟩ t ts)

/-- One statement of a file, with the newlines in front of it. -/
def fileTurn (text : List Char) (s : FilePoint) : List Token ⊕ FilePoint :=
  match s.step? text with
  | none => .inl []
  | some step => .inr ⟨step.moduleName, step.rest⟩

theorem fileTurn_forward (text : List Char) (s : FilePoint) :
    Forward FilePoint.tokens s.tokens (fileTurn text s) := by
  have hsuffix := List.dropWhile_suffix isNewline (l := s.tokens)
  unfold fileTurn FilePoint.step?
  cases hdrop : s.tokens.dropWhile isNewline with
  | nil => exact List.nil_suffix
  | cons t us =>
      rw [hdrop] at hsuffix
      exact advances_of_suffix hsuffix (advances_cons t (readStatement_reads _ t us).rest)

/-- The statements of a file. -/
def fileLoop (text : List Char) : Loop FilePoint :=
  ⟨FilePoint.tokens, fileTurn text, fileTurn_forward text⟩

theorem outlineFrom_dropWhile (text : List Char) (moduleName : String) (ts : List Token) :
    outlineFrom text moduleName ts = outlineFrom text moduleName (ts.dropWhile isNewline) := by
  induction ts with
  | nil => rfl
  | cons t ts ih =>
      rw [List.dropWhile_cons]
      split
      · rename_i hnewline
        rw [outlineFrom_newline text moduleName ts (of_decide_eq_true hnewline), ih]
      · rfl

theorem outlineFrom_step (text : List Char) (s : FilePoint) :
    outlineFrom text s.moduleName s.tokens =
      match s.step? text with
      | none => ⟨[], [], [], s.moduleName, {}⟩
      | some step => (outlineFrom text step.moduleName step.rest).prepend step := by
  rw [outlineFrom_dropWhile]
  unfold FilePoint.step?
  cases hdrop : s.tokens.dropWhile isNewline with
  | nil => rfl
  | cons t us =>
      exact outlineFrom_statement text s.moduleName us (of_decide_eq_false (not_of_dropWhile hdrop))

/-- A run through a file ends with its last token, and reads its statements. -/
theorem statements_of_runs {text : List Char} {s : FilePoint} {trail : List FilePoint}
    {rest : List Token} (h : Runs (fileTurn text) s trail rest) :
    rest = [] ∧ (outlineFrom text s.moduleName s.tokens).statements
      = trail.filterMap fun p => (p.step? text).bind Step.statement := by
  induction h with
  | @leave s rest hturn =>
      have hstep : s.step? text = none ∧ rest = [] := by
        unfold fileTurn at hturn
        split at hturn
        · exact ⟨‹_›, (Sum.inl.inj hturn).symm⟩
        · cases hturn
      refine ⟨hstep.2, ?_⟩
      rw [outlineFrom_step, hstep.1]
      simp [hstep.1]
  | @again s next trail rest hturn later ih =>
      obtain ⟨step, hstep, rfl⟩ : ∃ step, s.step? text = some step ∧
          next = ⟨step.moduleName, step.rest⟩ := by
        unfold fileTurn at hturn
        split at hturn
        · cases hturn
        · exact ⟨_, ‹_›, (Sum.inr.inj hturn).symm⟩
      refine ⟨ih.1, ?_⟩
      rw [outlineFrom_step, hstep]
      show step.statement.toList ++ _ = _
      rw [ih.2, List.filterMap_cons, hstep, Option.bind_some]
      cases step.statement <;> rfl

/-! ### All loops -/

theorem fileLoop_ends (text : List Char) :
    ∃ trail, Runs (fileTurn text) ⟨"", Token.ofText text⟩ trail [] ∧
      trail.length ≤ (Token.ofText text).length + 1 ∧
      (ofText text).statements
        = trail.filterMap fun p => (p.step? text).bind Step.statement := by
  obtain ⟨trail, rest, hruns⟩ := (fileLoop text).exists_runs ⟨"", Token.ofText text⟩
  obtain ⟨rfl, hstatements⟩ := statements_of_runs hruns
  exact ⟨trail, hruns, Loop.length_le hruns, hstatements⟩

/-- **The reader of a file only moves forward, and comes to the end.**  Each loop of it is left,
where the reader with its bound ends, and the search for the colon of an access section is begun
only where there is one. -/
theorem cursor_moves_forward (text : List Char) :
    -- The statements of a file, and the lines of a struct.
    (∃ trail, Runs (fileTurn text) ⟨"", Token.ofText text⟩ trail [] ∧
      trail.length ≤ (Token.ofText text).length + 1 ∧
      (ofText text).statements
        = trail.filterMap fun p => (p.step? text).bind Step.statement) ∧
    (∀ s next, fileTurn text s = .inr next → Advances s.tokens next.tokens) ∧
    (∀ ctx span ts, (bodyLoop ctx).EndsAt ts (readBody ctx span ts).rest) ∧
    (∀ ctx ts next, bodyTurn ctx ts = .inr next → Advances ts next) ∧
    -- The colon of an access section.
    (∀ ctx ts rest, accessSection? ctx false ts = some rest →
      ∃ words colon trail, ts = words ++ colon :: rest ∧ words ≠ [] ∧ colon.kind = .colon ∧
        (∀ w ∈ words, w.kind = .keyword .pubKw ∨ w.kind = .keyword .mutKw ∨
          w.kind = .ident ∧ ctx.slice w.span = "__global".toList) ∧
        Runs colonTurn ts trail rest ∧ trail.length = words.length + 1) ∧
    (∀ ts, (∀ t ∈ ts, t.kind ≠ .colon) → ¬ ∃ trail rest, Runs colonTurn ts trail rest) ∧
    -- The loops inside statements and lines.
    (∀ ts, (whileLoop isNewline).EndsAt ts (ts.dropWhile isNewline)) ∧
    (∀ stop ts, (whileLoop (·.kind.isOperatorPart)).EndsAt ts (operatorEnd stop ts).2) ∧
    (∀ stop ts, dottedLoop.EndsAt ts (dottedEnd stop ts).2) ∧
    (∀ unclosed stop top below ts,
      groupLoop.EndsAt ⟨top :: below, ts⟩ (closeGroup unclosed stop top below ts).rest) ∧
    (∀ ts, (skimLoop statementMove).EndsAt ts (skipStatement ts).rest) ∧
    (∀ ts, (skimLoop fieldRestMove).EndsAt ts (skipFieldRest ts).rest) ∧
    (∀ ts, (skimLoop signatureMove).EndsAt ts (skipSignature ts).rest) ∧
    (∀ start ts, typeLoop.EndsAt ⟨false, start, ts⟩ (typeExtent start ts).rest) := by
  refine ⟨fileLoop_ends text, fun _ _ h => (fileLoop text).advances h, bodyLoop_ends,
    fun ctx _ _ h => (bodyLoop ctx).advances h, ?_, ?_, whileLoop_ends isNewline, ?_,
    dottedLoop_ends, groupLoop_ends, skimLoop_ends statementMove, skimLoop_ends fieldRestMove,
    skimLoop_ends signatureMove, typeLoop_ends false⟩
  · intro ctx ts rest h
    obtain ⟨words, colon, rfl, hwords, haccess, hcolon⟩ := exists_colon_of_accessSection h
    obtain ⟨trail, hruns, hlength⟩ :=
      runs_colonTurn (fun w hw => ne_colon_of_isAccessWord (haccess w hw)) hcolon rest
    exact ⟨words, colon, trail, rfl, hwords rfl, hcolon,
      fun w hw => isAccessWord_iff.mp (haccess w hw), hruns, hlength⟩
  · rintro ts h ⟨trail, rest, hruns⟩
    exact not_runs_colonTurn h hruns
  · intro stop ts
    rw [operatorEnd_rest]
    exact whileLoop_ends _ ts

end VServer.Outline
