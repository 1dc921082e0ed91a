/-
The tally of a file.

Functions and structs are counted by their readers, behind the name, while the statements of a
file are collected by the loop around them.  What ties the two is that a reader that counts also
returns the statement it has counted, whatever faults it meets behind the name, and that a reader
that passes over a statement counts nothing: `readStatement_tallied`.  So the tally of a file is
told by its statements.

A tally that is kept along the way could differ from a count of the result in two ways.  A
statement could be counted and then dropped because of a fault behind its name, or collected
without being counted.  Neither happens, and the proof is one case for each reader of a statement.
-/
import VServer.Outline

namespace VServer.Outline

namespace Tally

variable {α : Type}

/-- The tally of one statement. -/
def ofStatement : Statement α → Tally
  | .function _ => { functions := 1 }
  | .struct _ => { structs := 1 }
  | .other => {}

/-- The tally of statements. -/
def ofStatements (statements : List (Statement α)) : Tally :=
  ⟨(functionsOf statements).length, (structsOf statements).length⟩

theorem ofStatements_cons (st : Statement α) (statements : List (Statement α)) :
    ofStatements (st :: statements) = (ofStatement st).add (ofStatements statements) := by
  cases st <;>
    simp [ofStatements, ofStatement, add, functionsOf, structsOf, List.filterMap_cons,
      Statement.function?, Statement.struct?, Nat.add_comm]

end Tally

/-! ### One step -/

/-- The step counts what it declares. -/
def Tallied (step : Step) : Prop :=
  step.tally = (step.statement.map Tally.ofStatement).getD {}

theorem otherStep_tallied (ctx : Context) (faults : List Fault) (ts : List Token) :
    Tallied (otherStep ctx faults ts) := rfl

theorem readModule_tallied (ctx : Context) (ts : List Token) : Tallied (readModule ctx ts) := by
  unfold readModule
  split
  · split <;> rfl
  · rfl

theorem readFunction_tallied (ctx : Context) (isPublic : Bool) (ts : List Token) :
    Tallied (readFunction ctx isPublic ts) := by
  unfold readFunction
  simp only
  split
  · exact otherStep_tallied ctx _ _
  · rfl

theorem readStruct_tallied (ctx : Context) (isPublic isUnion : Bool) (ts : List Token) :
    Tallied (readStruct ctx isPublic isUnion ts) := by
  unfold readStruct
  split
  · exact otherStep_tallied ctx _ _
  · rfl

theorem readPublic_tallied (ctx : Context) (ts : List Token) : Tallied (readPublic ctx ts) := by
  unfold readPublic
  split
  · split
    · exact readFunction_tallied ctx true _
    · exact readStruct_tallied ctx true false _
    · exact readStruct_tallied ctx true true _
    · exact otherStep_tallied ctx _ _
  · exact otherStep_tallied ctx _ _

theorem readStatement_tallied (ctx : Context) (t : Token) (ts : List Token) :
    Tallied (readStatement ctx t ts) := by
  unfold readStatement
  split
  · exact readModule_tallied ctx ts
  · rfl
  · split
    · split <;> rfl
    · exact otherStep_tallied ctx _ _
  · exact readPublic_tallied ctx ts
  · exact readFunction_tallied ctx false ts
  · exact readStruct_tallied ctx false false ts
  · exact readStruct_tallied ctx false true ts
  · exact otherStep_tallied ctx _ _

/-! ### A file -/

/-- A step in front of an outline. -/
theorem prepend_tally {step : Step} {o : Outline} (hstep : Tallied step)
    (ho : o.tally = .ofStatements o.statements) :
    (o.prepend step).tally = .ofStatements (o.prepend step).statements := by
  show step.tally.add o.tally = .ofStatements (step.statement.toList ++ o.statements)
  rw [hstep, ho]
  cases step.statement with
  | none => exact Tally.zero_add _
  | some st => exact (Tally.ofStatements_cons st o.statements).symm

/-- By induction on the steps that reading may take. -/
theorem readFrom_tally (text : List Char) :
    ∀ (fuel : Nat) (moduleName : String) (ts : List Token),
      (readFrom text fuel moduleName ts).tally
        = .ofStatements (readFrom text fuel moduleName ts).statements := by
  intro fuel
  induction fuel with
  | zero => intro moduleName ts; rfl
  | succ fuel ih =>
      intro moduleName ts
      cases ts with
      | nil => rfl
      | cons t ts =>
          unfold readFrom
          split
          · exact ih moduleName ts
          · exact prepend_tally (readStatement_tallied _ t ts) (ih _ _)

/-- **The tally of a file is the number of functions and of structs among its statements.** -/
theorem ofText_tally (text : List Char) :
    (ofText text).tally = .ofStatements (ofText text).statements :=
  readFrom_tally text _ "" _

end VServer.Outline
