/-
The reader of an outline only moves forward.

Every function that passes over tokens returns the tokens behind what it passed, so what it returns
is an end part of what it was given.  The lemmas go up the call tree: a group, the ways to skim,
names, types of fields.

A statement that is passed over also takes its first token with it.

Nearly everything that is proved about the reader rests on this.  A loop over the tokens ends,
because each turn leaves fewer of them, and a fault points into the file, because the token it is
about is one of the file.  All loops have the same shape, so `loop_induction` is stated once: a
loop stops, or it goes on somewhere behind its first token.
-/
import VServer.Outline
import Mathlib.Data.List.Basic

namespace VServer.Outline

/-! ### Groups -/

theorem closeGroup_suffix (unclosed : Fault) :
    ∀ (ts : List Token) (stop : Nat) (top : Bracket) (below : List Bracket),
      (closeGroup unclosed stop top below ts).rest <:+ ts := by
  intro ts
  induction ts with
  | nil => intro stop top below; exact List.suffix_refl _
  | cons t ts ih =>
      intro stop top below
      have hgo : ∀ stop' top' below', (closeGroup unclosed stop' top' below' ts).rest <:+ t :: ts :=
        fun stop' top' below' => (ih stop' top' below').trans (List.suffix_cons t ts)
      unfold closeGroup
      split
      · exact hgo _ _ _
      · split
        · exact List.suffix_cons t ts
        · exact hgo _ _ _
      · exact hgo _ _ _

theorem skipGroup_suffix (span : Text.Span) (bracket : Bracket) (ts : List Token) :
    (skipGroup span bracket ts).rest <:+ ts :=
  closeGroup_suffix _ ts _ _ _

/-! ### Loops

The loops below differ in their turns and agree in how they are bounded: a turn stays behind the
token that it starts at, and the bound counts turns.  So what is shown of a turn, from what holds
behind its first token, holds of the loop, and the induction over the bound is done here once.
-/

theorem loop_induction {P : Nat → List Token → Prop} (hzero : ∀ ts, P 0 ts)
    (hnil : ∀ fuel, P (fuel + 1) [])
    (hturn : ∀ fuel t ts, (∀ rest, rest <:+ ts → P fuel rest) → P (fuel + 1) (t :: ts)) :
    ∀ (fuel : Nat) (ts : List Token), P fuel ts := by
  intro fuel
  induction fuel with
  | zero => exact hzero
  | succ fuel ih =>
      intro ts
      cases ts with
      | nil => exact hnil fuel
      | cons t ts => exact hturn fuel t ts fun rest _ => ih rest

/-! ### Skimming

A turn of a skim passes over one token, or over the group that it opens, if it does not stop before
it.  Where a skim stops is what `move` tells, and nothing here depends on that.
-/

theorem skipUnit_suffix (t : Token) (ts : List Token) : (skipUnit t ts).rest <:+ ts := by
  unfold skipUnit
  split
  · exact skipGroup_suffix _ _ ts
  · exact List.suffix_refl ts

theorem skimIn_suffix (move : Kind → Move) (fuel : Nat) (ts : List Token) :
    (skimIn move fuel ts).rest <:+ ts := by
  refine loop_induction (P := fun fuel ts => (skimIn move fuel ts).rest <:+ ts)
    List.suffix_refl (fun _ => List.suffix_refl []) ?_ fuel ts
  intro fuel t ts ih
  have hunit := skipUnit_suffix t ts
  unfold skimIn
  split
  · exact List.suffix_refl _
  · exact hunit.trans (List.suffix_cons t ts)
  · exact ((ih _ hunit).trans hunit).trans (List.suffix_cons t ts)

theorem skim_suffix (move : Kind → Move) (ts : List Token) : (skim move ts).rest <:+ ts :=
  skimIn_suffix move _ ts

/-- A skim takes its first token with it, unless it stops before that. -/
theorem skim_cons_suffix {move : Kind → Move} {t : Token} (h : move t.kind ≠ .before)
    (ts : List Token) : (skim move (t :: ts)).rest <:+ ts := by
  have hunit := skipUnit_suffix t ts
  show (skimIn move (ts.length + 1) (t :: ts)).rest <:+ ts
  unfold skimIn
  split
  · exact absurd ‹_› h
  · exact hunit
  · exact (skimIn_suffix move _ _).trans hunit

/-- A statement takes its first token with it. -/
theorem skipStatement_cons_suffix (t : Token) (ts : List Token) :
    (skipStatement (t :: ts)).rest <:+ ts := by
  refine skim_cons_suffix ?_ ts
  cases t.kind <;> exact (nomatch ·)

/-- The rest of a field takes its first token with it, unless that ends the struct. -/
theorem skipFieldRest_cons_suffix (t : Token) (ts : List Token) (h : t.kind ≠ .closer .brace) :
    (skipFieldRest (t :: ts)).rest <:+ ts := by
  refine skim_cons_suffix ?_ ts
  unfold fieldRestMove
  split
  · exact (nomatch ·)
  · exact absurd ‹_› h
  · exact (nomatch ·)

theorem skipOptional_suffix (b : Bracket) (ts : List Token) :
    (skipOptional b ts).2.rest <:+ ts := by
  unfold skipOptional
  split
  · rename_i t rest
    split
    · exact (skipGroup_suffix _ _ rest).trans (List.suffix_cons t rest)
    · exact List.suffix_refl _
  · exact List.suffix_refl _

/-! ### Names -/

theorem dottedEnd_suffix (stop : Nat) (ts : List Token) : (dottedEnd stop ts).2 <:+ ts := by
  fun_induction dottedEnd stop ts with
  | case1 stop d n ts hdot ih =>
      exact ih.trans ((List.suffix_cons n ts).trans (List.suffix_cons d (n :: ts)))
  | case2 => exact List.suffix_refl _
  | case3 => exact List.suffix_refl _

theorem operatorEnd_suffix (stop : Nat) (ts : List Token) : (operatorEnd stop ts).2 <:+ ts := by
  fun_induction operatorEnd stop ts with
  | case1 => exact List.suffix_refl _
  | case2 stop t ts hpart ih => exact ih.trans (List.suffix_cons t ts)
  | case3 => exact List.suffix_refl _

theorem readForeignName_suffix (language : Language) (ts : List Token) :
    (readForeignName language ts).2 <:+ ts := by
  unfold readForeignName
  split
  · rename_i t rest
    split
    · exact (dottedEnd_suffix _ rest).trans (List.suffix_cons t rest)
    · exact List.suffix_refl _
  · exact List.suffix_refl _

theorem readName_suffix (ctx : Context) (allowOperator : Bool) (ts : List Token) :
    (readName ctx allowOperator ts).2 <:+ ts := by
  unfold readName
  split
  · exact List.suffix_refl _
  · rename_i t rest
    split
    · exact (operatorEnd_suffix _ rest).trans (List.suffix_cons t rest)
    split
    · split
      · rename_i language d after _
        split
        · exact (readForeignName_suffix language after).trans
            ((List.suffix_cons d after).trans (List.suffix_cons t (d :: after)))
        · exact List.suffix_cons t (d :: after)
      · exact List.suffix_cons t _
    · exact List.suffix_refl _

/-! ### Fields -/

theorem typeExtentIn_suffix (fuel : Nat) (begun : Bool) (stop : Nat) (ts : List Token) :
    (typeExtentIn fuel begun stop ts).rest <:+ ts := by
  refine loop_induction
    (P := fun fuel ts => ∀ begun stop, (typeExtentIn fuel begun stop ts).rest <:+ ts)
    (fun _ _ _ => List.suffix_refl _) (fun _ _ _ => List.suffix_refl _) ?_ fuel ts begun stop
  intro fuel t ts ih begun stop
  have hgo : ∀ {rest : List Token} (stop' : Nat), rest <:+ ts →
      (typeExtentIn fuel true stop' rest).rest <:+ t :: ts :=
    fun stop' hrest => ((ih _ hrest true stop').trans hrest).trans (List.suffix_cons t ts)
  unfold typeExtentIn
  split
  · exact List.suffix_refl _
  split
  · exact List.suffix_refl _
  · exact List.suffix_refl _
  · exact List.suffix_refl _
  · exact hgo _ (skipGroup_suffix _ _ ts)
  · exact hgo _ (List.suffix_refl ts)

theorem readTypedField_suffix (ctx : Context) (name : Text.Span) (start : Nat)
    (ts : List Token) : (readTypedField ctx name start ts).rest <:+ ts :=
  (skim_suffix fieldRestMove _).trans (typeExtentIn_suffix _ _ _ ts)

theorem accessSection?_suffix (ctx : Context) :
    ∀ (ts : List Token) (begun : Bool) (rest : List Token),
      accessSection? ctx begun ts = some rest → rest <:+ ts := by
  intro ts
  induction ts with
  | nil => intro begun rest h; simp [accessSection?] at h
  | cons t ts ih =>
      intro begun rest h
      unfold accessSection? at h
      split at h
      · split at h
        · obtain rfl : ts = rest := by simpa using h
          exact List.suffix_cons t ts
        · simp at h
      · split at h
        · exact (ih true rest h).trans (List.suffix_cons t ts)
        · simp at h

/-- An access section takes its first word with it. -/
theorem accessSection?_cons_suffix {ctx : Context} {begun : Bool} {t : Token}
    {ts rest : List Token} (h : accessSection? ctx begun (t :: ts) = some rest) : rest <:+ ts := by
  unfold accessSection? at h
  split at h
  · split at h
    · obtain rfl : ts = rest := by simpa using h
      exact List.suffix_refl ts
    · simp at h
  · split at h
    · exact accessSection?_suffix ctx ts true rest h
    · simp at h

theorem readField_suffix (ctx : Context) (name : Text.Span) (ts : List Token) :
    (readField ctx name ts).rest <:+ ts := by
  unfold readField
  split
  · exact List.suffix_refl _
  · split
    · exact List.suffix_refl _
    · exact List.suffix_refl _
    · exact skim_suffix fieldRestMove _
    · exact readTypedField_suffix _ _ _ _

/-- A line takes its first token with it, unless that ends the struct. -/
theorem readLine_suffix (ctx : Context) (t : Token) (ts : List Token)
    (h : t.kind ≠ .closer .brace) : (readLine ctx t ts).rest <:+ ts := by
  unfold readLine
  split
  · exact readField_suffix ctx t.span ts
  · split
    · exact skipGroup_suffix _ _ _
    · rename_i u us _
      split
      · exact (skipGroup_suffix _ _ us).trans (List.suffix_cons u us)
      · exact skipFieldRest_cons_suffix t _ h
    · exact skipFieldRest_cons_suffix t _ h

end VServer.Outline
