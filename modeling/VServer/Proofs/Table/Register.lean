/-
What registrations leave in a table.

A declaration of a struct settles what its name stands for, and a mention only fills a gap.  So
what a table knows in the end depends on which registrations were made and not on their order:
`registerAll_congr`.

The look-ups of a table behind a list of registrations are told in one line each, by membership in
the list.  A table is determined by its look-ups, since its maps are kept in order, so lists with
the same members leave the same table.
-/
import VServer.Table

namespace VServer.Table

@[simp] theorem typeKind_declareFunction (t : Table) (name k : String) :
    (t.declareFunction name).typeKind k = t.typeKind k := rfl

@[simp] theorem hasFunction_declareStruct (t : Table) (name k : String) :
    (t.declareStruct name).hasFunction k = t.hasFunction k := rfl

@[simp] theorem hasFunction_mention (t : Table) (name k : String) :
    (t.mention name).hasFunction k = t.hasFunction k := by
  unfold mention
  split <;> rfl

theorem mentionedKind_eq (t : Table) (name : String) :
    t.mentionedKind name = (t.typeKind name).getD .placeholder := rfl

/-- **A struct that is declared is a struct; any other type is what it was, and a placeholder if it
was nothing and is mentioned.** -/
theorem typeKind_registerAll (k : String) (rs : List Registration) :
    ∀ t : Table, (t.registerAll rs).typeKind k =
      if .struct k ∈ rs then some .struct
      else (t.typeKind k).or (if .mention k ∈ rs then some .placeholder else none) := by
  induction rs with
  | nil => intro t; simp [registerAll]
  | cons r rs ih =>
      intro t
      show ((t.register r).registerAll rs).typeKind k = _
      rw [ih]
      cases r with
      | function name => simp [register]
      | struct name =>
          by_cases hk : k = name
          · simp [register, hk]
          · simp [register, hk]
      | mention name =>
          by_cases hk : k = name
          · subst hk
            cases hkind : t.typeKind k with
            | none => simp [register, mentionedKind_eq, hkind]
            | some kind => simp [register, mentionedKind_eq, hkind]
          · simp [register, hk]

theorem hasFunction_registerAll (k : String) (rs : List Registration) :
    ∀ t : Table, (t.registerAll rs).hasFunction k = true ↔
      t.hasFunction k = true ∨ .function k ∈ rs := by
  induction rs with
  | nil => intro t; simp [registerAll]
  | cons r rs ih =>
      intro t
      show ((t.register r).registerAll rs).hasFunction k = true ↔ _
      rw [ih]
      cases r with
      | function name =>
          simp only [register, hasFunction_declareFunction, Bool.or_eq_true, decide_eq_true_eq,
            List.mem_cons, Registration.function.injEq, or_assoc]
          exact or_left_comm
      | struct name => simp [register]
      | mention name => simp [register]

/-- Tables with the same look-ups are the same table. -/
theorem ext_lookups {t t' : Table} (htypes : ∀ k, t.typeKind k = t'.typeKind k)
    (hfunctions : ∀ k, t.hasFunction k = true ↔ t'.hasFunction k = true) : t = t' := by
  have hcontains : ∀ k, t.functions.get? k = t'.functions.get? k := by
    intro k
    have hk := hfunctions k
    simp only [hasFunction, NameMap.contains] at hk
    cases hone : t.functions.get? k <;> cases htwo : t'.functions.get? k <;>
      simp [hone, htwo] at hk ⊢
  have htables : t.types = t'.types ∧ t.functions = t'.functions :=
    ⟨NameMap.ext_get? htypes, NameMap.ext_get? hcontains⟩
  cases t
  cases t'
  simpa using htables

/-- The order of registrations does not matter, nor how often one is made. -/
theorem registerAll_congr (t : Table) {rs rs' : List Registration}
    (h : ∀ r, r ∈ rs ↔ r ∈ rs') : t.registerAll rs = t.registerAll rs' := by
  refine ext_lookups (fun k => ?_) (fun k => ?_)
  · simp only [typeKind_registerAll, h]
  · simp only [hasFunction_registerAll, h]

theorem registerAll_append (t : Table) (rs rs' : List Registration) :
    t.registerAll (rs ++ rs') = (t.registerAll rs).registerAll rs' :=
  List.foldl_append

end VServer.Table
