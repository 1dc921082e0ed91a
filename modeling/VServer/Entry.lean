/-
Values under keys.

Where order does not matter, values are kept under their keys in a list of entries.  What stands
under a key is what `List.lookup` finds: the value of the first entry with that key.  Putting a
value under a key takes the place of that entry, so what is found under other keys stays as it was
and the keys keep the order in which they came.

There is no invariant to keep.  A key may stand twice, in which case the second entry is never seen,
and what is shown here holds for such lists as well.
-/

namespace VServer

variable {κ α : Type} [DecidableEq κ]

/-- Put a value under a key, in place of the first one under it; a new key comes last. -/
def replaceEntry (key : κ) (value : α) : List (κ × α) → List (κ × α)
  | [] => [(key, value)]
  | e :: es => if e.1 = key then (key, value) :: es else e :: replaceEntry key value es

theorem replaceEntry_replaceEntry (key : κ) (value value' : α) (entries : List (κ × α)) :
    replaceEntry key value' (replaceEntry key value entries) = replaceEntry key value' entries := by
  induction entries with
  | nil => simp [replaceEntry]
  | cons e es ih =>
      by_cases he : e.1 = key
      · simp [replaceEntry, he]
      · simp [replaceEntry, he, ih]

/-! ### Looking up -/

theorem mem_of_lookup {κ α : Type} [BEq κ] [LawfulBEq κ] {key : κ} {value : α}
    {entries : List (κ × α)} (h : entries.lookup key = some value) : (key, value) ∈ entries := by
  obtain ⟨before, behind, rfl, -⟩ := List.lookup_eq_some_iff.mp h
  exact List.mem_append_right before List.mem_cons_self

variable [BEq κ] [LawfulBEq κ]

theorem lookup_cons_eq_ite (key : κ) (e : κ × α) (es : List (κ × α)) :
    (e :: es).lookup key = if key = e.1 then some e.2 else es.lookup key := by
  rw [List.lookup_cons]
  by_cases h : key = e.1
  · rw [if_pos h, beq_iff_eq.mpr h]
  · rw [if_neg h, beq_false_of_ne h]

theorem lookup_replaceEntry (key : κ) (value : α) (entries : List (κ × α)) (k : κ) :
    (replaceEntry key value entries).lookup k
      = if k = key then some value else entries.lookup k := by
  induction entries with
  | nil => rw [replaceEntry, lookup_cons_eq_ite]
  | cons e es ih =>
      rw [replaceEntry]
      split
      · rename_i he
        rw [lookup_cons_eq_ite, lookup_cons_eq_ite, he]
        split <;> rfl
      · rename_i he
        rw [lookup_cons_eq_ite, lookup_cons_eq_ite, ih]
        by_cases hk : k = key
        · rw [if_pos hk, if_pos hk, if_neg fun h => he (h.symm.trans hk)]
        · rw [if_neg hk, if_neg hk]

theorem replaceEntry_self {key : κ} {value : α} {entries : List (κ × α)}
    (h : entries.lookup key = some value) : replaceEntry key value entries = entries := by
  induction entries with
  | nil => cases h
  | cons e es ih =>
      rw [lookup_cons_eq_ite] at h
      split at h
      · rename_i he
        obtain rfl := Option.some.inj h
        rw [replaceEntry, if_pos he.symm, he]
      · rename_i he
        rw [replaceEntry, if_neg (Ne.symm he), ih h]

/-- Without the entries of a key, nothing is found under it. -/
theorem lookup_filter_ne (key : κ) (entries : List (κ × α)) (k : κ) :
    (entries.filter fun e => e.1 != key).lookup k
      = if k = key then none else entries.lookup k := by
  induction entries with
  | nil => simp
  | cons e es ih =>
      by_cases he : e.1 = key
      · rw [List.filter_cons_of_neg (by simp [he]), ih, lookup_cons_eq_ite, he]
        split <;> rfl
      · rw [List.filter_cons_of_pos (by simpa using he), lookup_cons_eq_ite, lookup_cons_eq_ite, ih]
        by_cases hk : k = key
        · rw [if_pos hk, if_pos hk, if_neg fun h => he (h.symm.trans hk)]
        · rw [if_neg hk, if_neg hk]

end VServer
