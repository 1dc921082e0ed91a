/-
Tables side by side.

A registry holds the base table and one for each workspace.  A call is addressed to one of them, and
makes it first if it is that of a workspace that has none; the others stay as they are
(`table?_take`).  So each table is what the calls that are addressed to it make of an empty one,
whatever else is done in between (`table?_takeAll`).

What a table knows of a type only grows, as long as it is not cleared, and does not depend on the
order in which it came to know it.

The two parts meet in `changesTo`, the changes that calls make to one table.  The first part says
that a table is what these make of the initial one.  The second part is about one table and a list
of changes, with no registry in sight.
-/
import VServer.Registry
import VServer.Proofs.Json.Plain
import VServer.Proofs.Table.Register
import VServer.Proofs.Text.Order

namespace VServer

/-! ### Changes of one table

A name that is not known can be mentioned, one that is mentioned can be filled, and a struct can
take the place of whatever was there.  Nothing goes back but by clearing, which is why the lists of
changes that are compared here clear nothing.
-/

/-- A change of a table. -/
inductive TableChange where
  | register (r : Registration)
  | clear
deriving DecidableEq, Repr

namespace TableChange

/-- Whether a change is about the type `name`. -/
def isAbout (name : String) : TableChange → Bool
  | register (.struct n) => n = name
  | register (.mention n) => n = name
  | register (.function _) => false
  | clear => false

end TableChange

namespace Table

/-- Make one change. -/
def change (t : Table) : TableChange → Table
  | .register r => t.register r
  | .clear => t.clear

/-- Make changes one after another. -/
def changeAll (t : Table) (changes : List TableChange) : Table :=
  changes.foldl change t

/-- How what is known of a type can change. -/
inductive KindMoves : Option TypeKind → Option TypeKind → Prop
  | mentioned : KindMoves none (some .placeholder)
  | filled : KindMoves (some .placeholder) (some .struct)
  | declared : KindMoves none (some .struct)
  | replaced : KindMoves (some .primitive) (some .struct)

theorem kindMoves_struct (kind : Option TypeKind) :
    some .struct = kind ∨ KindMoves kind (some .struct) := by
  rcases kind with _ | _ | _ | _
  · exact .inr .declared
  · exact .inr .replaced
  · exact .inl rfl
  · exact .inr .filled

/-- **A registration leaves what is known of a type, or moves it on.** -/
theorem typeKind_register (t : Table) (r : Registration) (name : String) :
    (t.register r).typeKind name = t.typeKind name ∨
      KindMoves (t.typeKind name) ((t.register r).typeKind name) := by
  cases r with
  | function n => exact .inl rfl
  | struct n =>
      rw [register, typeKind_declareStruct]
      split
      · exact kindMoves_struct _
      · exact .inl rfl
  | mention n =>
      rw [register, typeKind_mention]
      split
      · rename_i heq
        subst heq
        rw [mentionedKind_eq]
        cases t.typeKind name with
        | none => exact .inr .mentioned
        | some kind => exact .inl rfl
      · exact .inl rfl

/-- The registrations among changes that clear nothing. -/
theorem exists_registrations {changes : List TableChange} (h : .clear ∉ changes) :
    ∃ rs, changes = rs.map .register ∧ ∀ t : Table, t.changeAll changes = t.registerAll rs := by
  induction changes with
  | nil => exact ⟨[], rfl, fun _ => rfl⟩
  | cons c changes ih =>
      obtain ⟨hfirst, hlater⟩ := List.ne_and_not_mem_of_not_mem_cons h
      obtain ⟨rs, rfl, hrs⟩ := ih hlater
      cases c with
      | clear => exact absurd rfl hfirst
      | register r => exact ⟨r :: rs, rfl, fun t => hrs (t.register r)⟩

/-- **What is known of a type depends on the changes about it, and not on their order.** -/
theorem typeKind_changeAll_congr (t : Table) (name : String) {changes changes' : List TableChange}
    (h : .clear ∉ changes) (h' : .clear ∉ changes')
    (hperm : (changes.filter (·.isAbout name)).Perm (changes'.filter (·.isAbout name))) :
    (t.changeAll changes).typeKind name = (t.changeAll changes').typeKind name := by
  obtain ⟨rs, rfl, hrs⟩ := exists_registrations h
  obtain ⟨rs', rfl, hrs'⟩ := exists_registrations h'
  have hmem : ∀ r, (TableChange.register r).isAbout name = true → (r ∈ rs ↔ r ∈ rs') := by
    intro r hr
    have hiff := hperm.mem_iff (a := .register r)
    simpa [hr] using hiff
  rw [hrs, hrs', typeKind_registerAll, typeKind_registerAll]
  simp only [hmem (.struct name) (by simp [TableChange.isAbout]),
    hmem (.mention name) (by simp [TableChange.isAbout])]

end Table

/-! ### Calls to a registry -/

/-- A call that is addressed to one table. -/
inductive TableCall where
  /-- Make sure that a workspace has a table. -/
  | ask (key : String)
  /-- Change the table of a workspace, or the base table. -/
  | change (table : Option String) (c : TableChange)
deriving DecidableEq, Repr

namespace TableCall

/-- The workspace whose table a call is addressed to; the base table is that of none. -/
def table : TableCall → Option String
  | ask key => some key
  | change table _ => table

/-- What a call changes. -/
def changes : TableCall → List TableChange
  | ask _ => []
  | change _ c => [c]

theorem typeKind_changeAll {call : TableCall} (h : .clear ∉ call.changes) (t : Table)
    (name : String) :
    (t.changeAll call.changes).typeKind name = t.typeKind name ∨
      Table.KindMoves (t.typeKind name) ((t.changeAll call.changes).typeKind name) := by
  cases call with
  | ask key => exact .inl rfl
  | change table c =>
      cases c with
      | register r => exact t.typeKind_register r name
      | clear => exact absurd (List.mem_singleton_self _) h

end TableCall

/-- What is changed in one table by calls. -/
def changesTo (table : Option String) (calls : List TableCall) : List TableChange :=
  (calls.filter (·.table = table)).flatMap TableCall.changes

/-- A call to a registry. -/
inductive RegistryCall where
  | table (call : TableCall)
  | release
deriving DecidableEq, Repr

namespace Registry

/-- Take a call that is addressed to one table. -/
def take (r : Registry) : TableCall → Registry
  | .ask key => r.registerWorkspace key
  | .change table c => r.modify table (·.change c)

/-- Take calls one after another. -/
def takeAll (r : Registry) (calls : List TableCall) : Registry :=
  calls.foldl take r

/-- Take any call. -/
def call (r : Registry) : RegistryCall → Registry
  | .table c => r.take c
  | .release => r.releaseAll.2

/-- Take any calls one after another. -/
def callAll (r : Registry) (calls : List RegistryCall) : Registry :=
  calls.foldl call r

/-- The table of a workspace, or the base table. -/
def table? (r : Registry) : Option String → Option Table
  | none => some r.base
  | some key => r.workspace? key

/-! ### One call -/

theorem workspace?_registerWorkspace (r : Registry) (key other : String) :
    (r.registerWorkspace key).workspace? other =
      if other = key then some ((r.workspace? key).getD Table.initial)
      else r.workspace? other := by
  unfold registerWorkspace
  split
  · rename_i t hkey
    split
    · rename_i heq
      rw [heq, hkey]
      rfl
    · rfl
  · rename_i hkey
    rw [hkey]
    exact NameMap.get?_insert _ _ _ _

@[simp] theorem base_registerWorkspace (r : Registry) (key : String) :
    (r.registerWorkspace key).base = r.base := by
  unfold registerWorkspace
  split <;> rfl

/-- **A call changes the table that it is addressed to and no other.** -/
theorem table?_take (r : Registry) (call : TableCall) (table : Option String) :
    (r.take call).table? table =
      if table = call.table then
        some (((r.table? table).getD Table.initial).changeAll call.changes)
      else r.table? table := by
  cases call with
  | ask key =>
      cases table with
      | none => simp [take, table?, TableCall.table]
      | some other =>
          simp only [take, table?, TableCall.table, workspace?_registerWorkspace,
            Option.some.injEq]
          split
          · rename_i heq
            rw [heq]
            rfl
          · rfl
  | change target c =>
      cases target with
      | none => cases table <;> rfl
      | some key =>
          cases table with
          | none => simp [take, modify, table?, TableCall.table]
          | some other =>
              simp only [take, modify, table?, TableCall.table, Option.some.injEq]
              rw [workspace?, NameMap.get?_insert]
              split
              · rename_i heq
                rw [heq, workspace?_registerWorkspace, if_pos rfl]
                rfl
              · rename_i hne
                show (r.registerWorkspace key).workspace? other = _
                rw [workspace?_registerWorkspace, if_neg hne]

theorem released_take (r : Registry) (call : TableCall) :
    (r.take call).released = r.released := by
  have hask : ∀ key, (r.registerWorkspace key).released = r.released := by
    intro key
    unfold registerWorkspace
    split <;> rfl
  cases call with
  | ask key => exact hask key
  | change target c =>
      cases target with
      | none => rfl
      | some key => exact hask key

/-! ### Any number of calls

The induction is on the calls.  The table of a workspace may not be there yet, so the statement is
about the table that is there or the initial one.
-/

/-- Whether one of the calls is addressed to a table. -/
def isAddressed (table : Option String) (calls : List TableCall) : Bool :=
  calls.any (·.table = table)

theorem changesTo_eq_nil {table : Option String} {calls : List TableCall}
    (h : isAddressed table calls = false) : changesTo table calls = [] := by
  have hnone : calls.filter (·.table = table) = [] := by
    simpa [isAddressed] using h
  rw [changesTo, hnone]
  rfl

/-- **Each table is what the calls that are addressed to it make of it,** or of an empty table if
there is none so far. -/
theorem table?_takeAll (calls : List TableCall) (table : Option String) :
    ∀ r : Registry, (r.takeAll calls).table? table =
      if isAddressed table calls then
        some (((r.table? table).getD Table.initial).changeAll (changesTo table calls))
      else r.table? table := by
  induction calls with
  | nil => intro r; rfl
  | cons call calls ih =>
      intro r
      have hlater := ih (r.take call)
      rw [table?_take] at hlater
      by_cases hcall : call.table = table
      · have hthere : isAddressed table (call :: calls) = true := by
          simp [isAddressed, hcall]
        have hchanges : changesTo table (call :: calls)
            = call.changes ++ changesTo table calls := by
          simp [changesTo, hcall]
        rw [if_pos hcall.symm] at hlater
        rw [if_pos hthere, hchanges, Table.changeAll, List.foldl_append]
        refine hlater.trans ?_
        split
        · rfl
        · rename_i hno
          rw [changesTo_eq_nil (Bool.eq_false_iff.mpr hno)]
          rfl
      · have hthere : isAddressed table (call :: calls) = isAddressed table calls := by
          simp [isAddressed, hcall]
        have hchanges : changesTo table (call :: calls) = changesTo table calls := by
          simp [changesTo, hcall]
        rw [if_neg (Ne.symm hcall)] at hlater
        rw [hthere, hchanges]
        exact hlater

theorem table?_takeAll_initial (calls : List TableCall) (table : Option String) :
    (({} : Registry).takeAll calls).table? table =
      if table = none ∨ isAddressed table calls then
        some (Table.initial.changeAll (changesTo table calls))
      else none := by
  rw [table?_takeAll]
  by_cases hcalls : isAddressed table calls = true
  · rw [if_pos hcalls, if_pos (.inr hcalls)]
    cases table <;> rfl
  · rw [if_neg hcalls, changesTo_eq_nil (Bool.eq_false_iff.mpr hcalls)]
    cases table with
    | none => rfl
    | some key => simp [hcalls, table?, workspace?]

theorem released_takeAll (r : Registry) (calls : List TableCall) :
    (r.takeAll calls).released = r.released := by
  induction calls generalizing r with
  | nil => rfl
  | cons call calls ih => exact (ih (r.take call)).trans (released_take r call)

/-- Once all tables have been released, nothing is released again. -/
theorem released_callAll {r : Registry} (h : r.released = true) (calls : List RegistryCall) :
    (r.callAll calls).released = true := by
  induction calls generalizing r with
  | nil => exact h
  | cons call calls ih =>
      refine ih ?_
      cases call with
      | table c => exact (released_take r c).trans h
      | release =>
          show r.releaseAll.2.released = true
          rw [releaseAll, if_pos h]
          exact h

theorem mem_names_iff (r : Registry) (key : String) :
    key ∈ r.workspaces.names ↔ (r.table? (some key)).isSome = true := by
  rw [table?, workspace?, NameMap.get?, Option.isSome_iff_ne_none, Ne, lookup_eq_none_iff_notMem,
    not_not]
  rfl

theorem names_increasing (r : Registry) :
    (r.workspaces.names.map Text.encodeString).Pairwise (· < ·) := by
  rw [NameMap.names, List.map_map, List.pairwise_map]
  exact r.workspaces.increasing.imp Text.encodeString_lt

/-- The first release. -/
theorem releaseAll_takeAll_initial (calls : List TableCall) :
    (({} : Registry).takeAll calls).releaseAll =
      ((({} : Registry).takeAll calls).workspaces.names.map .workspace ++ [.base],
        { base := Table.initial, workspaces := .empty, released := true }) := by
  rw [releaseAll, if_neg]
  rw [released_takeAll]
  exact Bool.false_ne_true

theorem eq_changeAll_of_table? {calls : List TableCall} {table : Option String} {t : Table}
    (h : (({} : Registry).takeAll calls).table? table = some t) :
    t = Table.initial.changeAll (changesTo table calls) := by
  rw [table?_takeAll_initial] at h
  split at h
  · exact (Option.some.inj h).symm
  · cases h

/-- A call that does not clear a table moves on what the table knows, or leaves it. -/
theorem typeKind_take (r : Registry) {call : TableCall} {table : Option String} {t : Table}
    (ht : r.table? table = some t) (hclear : call.table = table → .clear ∉ call.changes) :
    ∃ t', (r.take call).table? table = some t' ∧ ∀ name,
      t'.typeKind name = t.typeKind name ∨
        Table.KindMoves (t.typeKind name) (t'.typeKind name) := by
  rw [table?_take, ht]
  split
  · rename_i htable
    exact ⟨_, rfl, TableCall.typeKind_changeAll (hclear htable.symm) t⟩
  · exact ⟨t, rfl, fun name => .inl rfl⟩

/--
**Tables side by side.**

The base table, and the table of every workspace that was asked for, is what the changes addressed
to it make of an empty table.  The first release gives up each of these workspaces once, in the
order of the bytes of their keys, and the base table behind them; then there is no workspace and an
empty base table, and no later release gives up or changes anything.

A call that does not clear a table leaves what the table knows of a type, or moves it on.  Where a
table was not cleared, what it knows of a type is the same for all orders in which the changes about
that type can be made.
-/
theorem tables_apart (calls : List TableCall) (later : List RegistryCall) :
    let r := ({} : Registry).takeAll calls
    let released := r.releaseAll.2
    (∀ table, r.table? table =
      if table = none ∨ isAddressed table calls then
        some (Table.initial.changeAll (changesTo table calls))
      else none) ∧
    (∃ keys : List String, r.releaseAll.1 = keys.map .workspace ++ [.base] ∧
      (keys.map Text.encodeString).Pairwise (· < ·) ∧
      ∀ key, key ∈ keys ↔ isAddressed (some key) calls = true) ∧
    released.base = Table.initial ∧ (∀ key, released.workspace? key = none) ∧
    (released.callAll later).releaseAll = ([], released.callAll later) ∧
    (∀ call table t, r.table? table = some t → (call.table = table → .clear ∉ call.changes) →
      ∃ t', (r.take call).table? table = some t' ∧ ∀ name,
        t'.typeKind name = t.typeKind name ∨
          Table.KindMoves (t.typeKind name) (t'.typeKind name)) ∧
    ∀ calls' table name t t', r.table? table = some t →
      (({} : Registry).takeAll calls').table? table = some t' →
      .clear ∉ changesTo table calls → .clear ∉ changesTo table calls' →
      ((changesTo table calls).filter (·.isAbout name)).Perm
        ((changesTo table calls').filter (·.isAbout name)) →
      t.typeKind name = t'.typeKind name := by
  intro r released
  have htables := table?_takeAll_initial calls
  have hrelease : r.releaseAll = _ := releaseAll_takeAll_initial calls
  have hreleased : released = { base := Table.initial, workspaces := .empty, released := true } :=
    congrArg Prod.snd hrelease
  refine ⟨htables, ⟨r.workspaces.names, congrArg Prod.fst hrelease, names_increasing r, ?_⟩,
    by rw [hreleased], fun key => by rw [hreleased]; rfl, ?_,
    fun _ _ _ => typeKind_take r, ?_⟩
  · intro key
    rw [mem_names_iff, htables]
    by_cases hkey : isAddressed (some key) calls = true
    · simp [hkey]
    · simp [hkey]
  · rw [releaseAll, if_pos (released_callAll (by rw [hreleased]) later)]
  · intro calls' table name t t' ht ht' hclear hclear' hperm
    rw [eq_changeAll_of_table? ht, eq_changeAll_of_table? ht']
    exact Table.typeKind_changeAll_congr _ name hclear hclear' hperm

/-- A type that is mentioned and declared in one workspace, and another workspace. -/
def twoWorkspaces : List TableCall :=
  [.change (some "b") (.register (.mention "T")), .ask "a",
    .change none (.register (.function "f")), .change (some "b") (.register (.struct "T")), .ask "b"]

theorem tables_apart_twoWorkspaces :
    let r := ({} : Registry).takeAll twoWorkspaces
    let r' := ({} : Registry).takeAll twoWorkspaces.reverse
    (∃ keys : List String, r.releaseAll.1 = keys.map .workspace ++ [.base] ∧
      "a" ∈ keys ∧ "b" ∈ keys ∧ "c" ∉ keys) ∧
    r.table? (some "a") = some Table.initial ∧
    ∃ t t', r.table? (some "b") = some t ∧ r'.table? (some "b") = some t' ∧
      t.typeKind "T" = t'.typeKind "T" := by
  intro r r'
  obtain ⟨htables, ⟨keys, hkeys, -, hmem⟩, -, -, -, -, horder⟩ := tables_apart twoWorkspaces []
  obtain ⟨htables', -⟩ := tables_apart twoWorkspaces.reverse []
  refine ⟨⟨keys, hkeys, (hmem _).mpr rfl, (hmem _).mpr rfl, ?_⟩, htables (some "a"), ?_⟩
  · rw [hmem]
    exact Bool.false_ne_true
  · refine ⟨_, _, htables (some "b"), htables' (some "b"), ?_⟩
    exact horder twoWorkspaces.reverse (some "b") "T" _ _ (htables (some "b"))
      (htables' (some "b")) (by decide) (by decide) (by decide)

end Registry

end VServer
