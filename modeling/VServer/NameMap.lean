/-
Finite maps from names.

The entries stand in increasing order of their names, and no name stands twice, so two maps with
the same look-ups are the same list of entries: `NameMap.ext_get?`.  Everything that is shown
sorted by name is shown by walking such a map.

The invariant is a field of the type.  `insert` keeps it because the new name is put in front of
the first larger one.
-/
import VServer.Entry

namespace VServer

/-- Entries in strictly increasing order of their names. -/
def Increasing {α : Type} (entries : List (String × α)) : Prop :=
  entries.Pairwise fun a b => a.1 < b.1

/-- Put a value under a name, in place of the old value if there is one. -/
def putEntry {α : Type} (name : String) (value : α) : List (String × α) → List (String × α)
  | [] => [(name, value)]
  | e :: es =>
    if name = e.1 then (name, value) :: es
    else if name < e.1 then (name, value) :: e :: es
    else e :: putEntry name value es

/-! ### Order of names

Names are ordered by code points, which is also the order of their bytes.
-/

theorem name_lt_of_not {a b : String} (hne : a ≠ b) (h : ¬ a < b) : b < a := by
  rcases Decidable.em (b < a) with h' | h'
  · exact h'
  · exact absurd (String.le_antisymm (String.not_lt.1 h') (String.not_lt.1 h)) hne

/-! ### What an insertion does to the entries -/

theorem mem_putEntry {α : Type} {name : String} {value : α} {e : String × α} :
    ∀ {es : List (String × α)}, e ∈ putEntry name value es → e = (name, value) ∨ e ∈ es := by
  intro es
  induction es with
  | nil => intro h; simpa [putEntry] using h
  | cons f es ih =>
      intro h
      unfold putEntry at h
      split at h
      · rcases List.mem_cons.1 h with h | h
        · exact Or.inl h
        · exact Or.inr (List.mem_cons_of_mem _ h)
      · split at h
        · rcases List.mem_cons.1 h with h | h
          · exact Or.inl h
          · exact Or.inr h
        · rcases List.mem_cons.1 h with h | h
          · exact Or.inr (h ▸ List.mem_cons_self)
          · rcases ih h with h | h
            · exact Or.inl h
            · exact Or.inr (List.mem_cons_of_mem _ h)

/-- An insertion keeps the entries in order. -/
theorem increasing_putEntry {α : Type} (name : String) (value : α) :
    ∀ {es : List (String × α)}, Increasing es → Increasing (putEntry name value es) := by
  intro es
  induction es with
  | nil => intro _; simp [Increasing, putEntry]
  | cons f es ih =>
      intro h
      have hf : ∀ e ∈ es, f.1 < e.1 := (List.pairwise_cons.1 h).1
      have hes : Increasing es := (List.pairwise_cons.1 h).2
      unfold putEntry
      split
      · rename_i heq
        exact List.pairwise_cons.2 ⟨fun e he => by rw [heq]; exact hf e he, hes⟩
      · rename_i hne
        split
        · rename_i hlt
          refine List.pairwise_cons.2 ⟨fun e he => ?_, h⟩
          rcases List.mem_cons.1 he with rfl | he
          · exact hlt
          · exact String.lt_trans hlt (hf e he)
        · rename_i hnlt
          refine List.pairwise_cons.2 ⟨fun e he => ?_, ih hes⟩
          rcases mem_putEntry he with rfl | he
          · exact name_lt_of_not hne hnlt
          · exact hf e he

theorem lookup_putEntry {α : Type} (name : String) (value : α) (k : String) :
    ∀ es : List (String × α),
      (putEntry name value es).lookup k = if k = name then some value else es.lookup k := by
  intro es
  induction es with
  | nil => simp [putEntry, lookup_cons_eq_ite]
  | cons e es ih =>
      unfold putEntry
      split
      · rename_i heq
        subst heq
        by_cases hk : k = e.1 <;> simp [lookup_cons_eq_ite, hk]
      · rename_i hne
        split
        · by_cases hk : k = name <;> simp [lookup_cons_eq_ite, hk]
        · by_cases hk : k = e.1
          · subst hk
            simp [lookup_cons_eq_ite, Ne.symm hne]
          · simp [lookup_cons_eq_ite, hk, ih]

/-- A name that is smaller than all names of the entries has no value. -/
theorem lookup_eq_none_of_lt {α : Type} {name : String} {es : List (String × α)}
    (h : ∀ e ∈ es, name < e.1) : es.lookup name = none := by
  rw [List.lookup_eq_none_iff]
  intro e he
  exact bne_iff_ne.mpr fun heq => String.lt_irrefl e.1 (heq ▸ h e he)

/-- Entries in order are told by their look-ups: the first name of one list is the first name of
the other, since a smaller one would be found on one side only. -/
theorem eq_of_lookup {α : Type} :
    ∀ {es fs : List (String × α)}, Increasing es → Increasing fs →
      (∀ k, es.lookup k = fs.lookup k) → es = fs := by
  intro es
  induction es with
  | nil =>
      intro fs _ _ h
      cases fs with
      | nil => rfl
      | cons f fs => simpa [lookup_cons_eq_ite] using h f.1
  | cons e es ih =>
      intro fs he hf h
      cases fs with
      | nil => simpa [lookup_cons_eq_ite] using h e.1
      | cons f fs =>
          have hes : ∀ x ∈ es, e.1 < x.1 := (List.pairwise_cons.1 he).1
          have hfs : ∀ x ∈ fs, f.1 < x.1 := (List.pairwise_cons.1 hf).1
          have hname : e.1 = f.1 := by
            rcases Decidable.em (e.1 = f.1) with heq | hne
            · exact heq
            exfalso
            rcases Decidable.em (e.1 < f.1) with hlt | hnlt
            · have hnone : (f :: fs).lookup e.1 = none :=
                lookup_eq_none_of_lt fun x hx => by
                  rcases List.mem_cons.1 hx with rfl | hx
                  · exact hlt
                  · exact String.lt_trans hlt (hfs x hx)
              have := h e.1
              rw [hnone] at this
              simp [lookup_cons_eq_ite] at this
            · have hlt : f.1 < e.1 := name_lt_of_not hne hnlt
              have hnone : (e :: es).lookup f.1 = none :=
                lookup_eq_none_of_lt fun x hx => by
                  rcases List.mem_cons.1 hx with rfl | hx
                  · exact hlt
                  · exact String.lt_trans hlt (hes x hx)
              have := h f.1
              rw [hnone] at this
              simp [lookup_cons_eq_ite] at this
          have hvalue : e.2 = f.2 := by
            have := h e.1
            simpa [lookup_cons_eq_ite, hname] using this
          have htail : es = fs := by
            refine ih (List.pairwise_cons.1 he).2 (List.pairwise_cons.1 hf).2 fun k => ?_
            rcases Decidable.em (k = e.1) with hk | hk
            · rw [hk, lookup_eq_none_of_lt hes, hname, lookup_eq_none_of_lt hfs]
            · have := h k
              simpa [lookup_cons_eq_ite, hk, hname ▸ hk] using this
          rw [htail, Prod.ext hname hvalue]

/-- A finite map from names, kept in increasing order of the names. -/
structure NameMap (α : Type) where
  entries : List (String × α)
  increasing : Increasing entries := by simp [Increasing]

namespace NameMap

variable {α : Type}

/-- The map without entries. -/
def empty : NameMap α := { entries := [] }

instance : Inhabited (NameMap α) := ⟨empty⟩

/-- The value under a name. -/
def get? (m : NameMap α) (name : String) : Option α :=
  m.entries.lookup name

/-- Whether a name has a value. -/
def contains (m : NameMap α) (name : String) : Bool :=
  (m.get? name).isSome

/-- Put a value under a name, in place of the old value if there is one. -/
def insert (m : NameMap α) (name : String) (value : α) : NameMap α :=
  { entries := putEntry name value m.entries
    increasing := increasing_putEntry name value m.increasing }

/-- Number of names. -/
def size (m : NameMap α) : Nat :=
  m.entries.length

/-- The names in order. -/
def names (m : NameMap α) : List String :=
  m.entries.map Prod.fst

/-- The map that the insertions of `pairs`, one after another, lead to. -/
def ofList (pairs : List (String × α)) : NameMap α :=
  pairs.foldl (fun m p => m.insert p.1 p.2) empty

@[ext] theorem ext_entries {m n : NameMap α} (h : m.entries = n.entries) : m = n := by
  cases m; cases n; simp_all

@[simp] theorem get?_empty (k : String) : (empty : NameMap α).get? k = none := rfl

@[simp] theorem get?_insert (m : NameMap α) (name : String) (value : α) (k : String) :
    (m.insert name value).get? k = if k = name then some value else m.get? k :=
  lookup_putEntry name value k m.entries

/-- Maps with the same look-ups are the same map. -/
theorem ext_get? {m n : NameMap α} (h : ∀ k, m.get? k = n.get? k) : m = n :=
  ext_entries (eq_of_lookup m.increasing n.increasing h)

theorem contains_insert (m : NameMap α) (name : String) (value : α) (k : String) :
    (m.insert name value).contains k = (decide (k = name) || m.contains k) := by
  by_cases h : k = name <;> simp [contains, h]

end NameMap

/-- A finite set of names. -/
abbrev NameSet := NameMap Unit

end VServer
