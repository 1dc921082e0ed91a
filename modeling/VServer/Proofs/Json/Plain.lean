/-
Values that say the same when they are written and read.

A value is plain if its numbers are integers of 64 bits, no object of it has two fields with one
name, and its brackets are nested no deeper than they may be.  Such a value has one text, from which
it can be read again.

What is read has the fields of its objects in order.  `sorted` puts them in order, and a value that
`sorted` does not change has them in order already.

These are the values that the protocol is made of, and what is shown about messages is shown for
them: other numbers are written with a finite number of digits and may come back as their
neighbours, and of two fields with one name only the last is kept.  The depth is an argument of
`Plain`, because the reader refuses brackets that are nested too deeply and every bracket around a
value uses up one level.
-/
import VServer.Json.Write
import Mathlib.Data.List.Basic

namespace VServer

/-! ### Entries in order -/

theorem Increasing.nodup {α : Type} {entries : List (String × α)} (h : Increasing entries) :
    (entries.map Prod.fst).Nodup := by
  rw [List.Nodup, List.pairwise_map]
  refine h.imp ?_
  intro e f hlt heq
  rw [heq] at hlt
  exact String.lt_irrefl _ hlt

/-- A name that is smaller than all others is put in front of them. -/
theorem putEntry_of_lt {α : Type} {name : String} (value : α) {entries : List (String × α)}
    (h : ∀ e ∈ entries, name < e.1) : putEntry name value entries = (name, value) :: entries := by
  cases entries with
  | nil => rfl
  | cons e entries =>
      have hlt := h e List.mem_cons_self
      have hne : name ≠ e.1 := fun heq => String.lt_irrefl _ (heq ▸ hlt)
      rw [putEntry, if_neg hne, if_pos hlt]

/-- Where no name stands twice, every entry is found under its name. -/
theorem lookup_of_mem {α : Type} {entries : List (String × α)}
    (hnames : (entries.map Prod.fst).Nodup) {name : String} {value : α}
    (h : (name, value) ∈ entries) : entries.lookup name = some value := by
  induction entries with
  | nil => exact absurd h List.not_mem_nil
  | cons e entries ih =>
      obtain ⟨hnew, hlater⟩ := List.nodup_cons.mp hnames
      rcases List.mem_cons.mp h with rfl | h
      · exact List.lookup_cons_self
      · have hne : name ≠ e.1 := fun heq =>
          hnew (heq ▸ List.mem_map_of_mem (f := Prod.fst) h)
        rw [lookup_cons_eq_ite, if_neg hne]
        exact ih hlater h

theorem lookup_eq_none_iff_notMem {α : Type} {name : String} {entries : List (String × α)} :
    entries.lookup name = none ↔ name ∉ entries.map Prod.fst := by
  rw [List.lookup_eq_none_iff, List.mem_map, not_exists]
  refine forall_congr' fun e => ?_
  rw [bne_iff_ne, not_and]
  exact forall_congr' fun _ => ne_comm

namespace Json

/-! ### Values with their fields in order

`sorted` works from the inside out.  It neither loses a field nor changes one, except for the order
inside of its value, so a value can be looked up in either form.
-/

theorem sortedItems_eq_map (items : List Json) : sortedItems items = items.map sorted := by
  induction items with
  | nil => rfl
  | cons item items ih => rw [sortedItems, ih, List.map_cons]

@[simp] theorem sorted_array (items : List Json) :
    (array items).sorted = array (items.map sorted) := by
  rw [sorted, sortedItems_eq_map]

@[simp] theorem sorted_object (fields : List (String × Json)) :
    (object fields).sorted = object (sortedFields fields) := by
  rw [sorted]

@[simp] theorem sorted_string (s : String) : (string s).sorted = string s := by rw [sorted]

@[simp] theorem sorted_number (n : Number) : (number n).sorted = number n := by rw [sorted]

@[simp] theorem sorted_bool (b : Bool) : (bool b).sorted = bool b := by rw [sorted]

@[simp] theorem sorted_null : null.sorted = null := by rw [sorted]

theorem increasing_sortedFields (fields : List (String × Json)) :
    Increasing (sortedFields fields) := by
  induction fields with
  | nil => exact List.Pairwise.nil
  | cons f fields ih => exact increasing_putEntry _ _ ih

/-- Putting fields in order changes none of them but for the order inside. -/
theorem lookup_sortedFields (name : String) (fields : List (String × Json)) :
    (sortedFields fields).lookup name = (fields.lookup name).map sorted := by
  induction fields with
  | nil => rfl
  | cons f fields ih =>
      rw [sortedFields, lookup_putEntry, ih, lookup_cons_eq_ite]
      split <;> rfl

theorem sorted_array_eq_iff {items : List Json} :
    (array items).sorted = array items ↔ ∀ v ∈ items, v.sorted = v := by
  rw [sorted_array]
  constructor
  · intro h
    have hmap : items.map sorted = items.map id := by simpa using h
    exact List.map_inj_left.mp hmap
  · intro h
    rw [List.map_congr_left h, List.map_id']

theorem sorted_object_eq_iff {fields : List (String × Json)} :
    (object fields).sorted = object fields ↔
      Increasing fields ∧ ∀ f ∈ fields, f.2.sorted = f.2 := by
  rw [sorted_object]
  constructor
  · intro h
    have hfields : sortedFields fields = fields := by simpa using h
    have hincreasing : Increasing fields := hfields ▸ increasing_sortedFields fields
    refine ⟨hincreasing, ?_⟩
    rintro ⟨name, value⟩ hmem
    have hfound := lookup_of_mem hincreasing.nodup hmem
    have hsorted := lookup_sortedFields name fields
    rw [hfields, hfound] at hsorted
    exact (Option.some.inj hsorted).symm
  · rintro ⟨hincreasing, hvalues⟩
    refine congrArg object ?_
    induction fields with
    | nil => rfl
    | cons f fields ih =>
        obtain ⟨hfirst, hlater⟩ := List.pairwise_cons.mp hincreasing
        rw [sortedFields, hvalues f List.mem_cons_self,
          ih hlater fun f hf => hvalues f (List.mem_cons_of_mem _ hf)]
        exact putEntry_of_lt f.2 hfirst

theorem eq_null_of_sorted {v : Json} (h : v.sorted = null) : v = null := by
  cases v with
  | null => rfl
  | bool b => simp at h
  | number n => simp at h
  | string s => simp at h
  | array items => simp at h
  | object fields => simp at h

/-! ### Plain values -/

/-- An integer of 64 bits, signed or unsigned. -/
def Fits64 (i : Int) : Prop :=
  -9223372036854775808 ≤ i ∧ i ≤ 18446744073709551615

/-- A value of integers, texts, truth values and null, in arrays and objects that are nested at most
`depth` deep, in which no name stands twice. -/
inductive Plain : Nat → Json → Prop
  | null {depth : Nat} : Plain depth .null
  | bool {depth : Nat} {b : Bool} : Plain depth (.bool b)
  | integer {depth : Nat} {i : Int} (h : Fits64 i) : Plain depth (.number (.integer i))
  | string {depth : Nat} {s : String} : Plain depth (.string s)
  | array {depth : Nat} {items : List Json} (h : ∀ v ∈ items, Plain depth v) :
      Plain (depth + 1) (.array items)
  | object {depth : Nat} {fields : List (String × Json)} (hnames : (fields.map Prod.fst).Nodup)
      (h : ∀ f ∈ fields, Plain depth f.2) : Plain (depth + 1) (.object fields)

theorem Plain.mono {depth : Nat} {v : Json} (h : Plain depth v) :
    ∀ {larger : Nat}, depth ≤ larger → Plain larger v := by
  induction h with
  | null => intro larger _; exact .null
  | bool => intro larger _; exact .bool
  | integer h => intro larger _; exact .integer h
  | string => intro larger _; exact .string
  | @array depth items _ ih =>
      intro larger hle
      obtain ⟨larger, rfl⟩ : ∃ n, larger = n + 1 := ⟨larger - 1, by omega⟩
      exact .array fun v hv => ih v hv (by omega)
  | @object depth fields hnames _ ih =>
      intro larger hle
      obtain ⟨larger, rfl⟩ : ∃ n, larger = n + 1 := ⟨larger - 1, by omega⟩
      exact .object hnames fun f hf => ih f hf (by omega)

end Json

end VServer
