/-
Records that survive being written and read.

A record is read from an object whose fields stand in any order, or from an array, and fields can
be missing; it is written as an object that may leave fields out.  `Shape` describes both at once:
for each field how it is read and put into the record, and how it is taken from the record and
written.  What a shape has to be for that to fit together is part of it: fields do not get in each
other's way, they make up the record, and only what a missing field means is left out.

The steps of both directions are about one field each.  Filling a field keeps what the others
hold, so what was read into a record returns field by field (`fieldsReturn_of_decoder`); and the
fields that were written are filled with what they held, so the record is back when all of them are
(`returns_of_fieldsReturn`).
-/
import VServer.Proofs.Json.Codec
import Mathlib.Data.List.Pairwise
import Mathlib.Tactic.MkIffOfInductiveProp

namespace VServer.Json

open Decoder (Presence Slot fillFields fillItems missing?)

/-- What each field keeps when it is filled, filling all of them keeps. -/
theorem Decoder.fillFields_keeps {σ : Type} {slots : List (Slot σ)} {P : σ → Prop}
    {Q : Json → Prop} (hfill : ∀ s ∈ slots, ∀ x v y, P x → Q v → s.fill x v = .ok y → P y)
    {fields : List (String × Json)} (hfields : ∀ f ∈ fields, Q f.2) {x y : σ} (hx : P x)
    (h : fillFields slots fields x = .ok y) : P y := by
  induction fields generalizing x with
  | nil =>
      obtain rfl := Except.ok.inj h
      exact hx
  | cons f fields ih =>
      obtain ⟨key, v⟩ := f
      obtain ⟨hv, hlater⟩ := List.forall_mem_cons.mp hfields
      rw [fillFields] at h
      split at h
      · exact ih hlater hx h
      · rename_i s hfind
        split at h
        · cases h
        · rename_i x' hs
          exact ih hlater (hfill s (List.mem_of_find?_eq_some hfind) x v x' hx hv hs) h

/-- A field of the record `σ`, with values of the type `Value`. -/
structure RecordField (σ : Type) where
  Value : Type
  key : String
  presence : Presence
  item : Decoder Value
  /-- What is written for a value; nothing if the field is left out. -/
  writes : Value → Option Json
  get : σ → Value
  set : σ → Value → σ

namespace RecordField

variable {σ α : Type}

/-- A field that is always written. -/
def always (key : String) (presence : Presence) (item : Decoder α) (encode : α → Json)
    (get : σ → α) (set : σ → α → σ) : RecordField σ :=
  ⟨α, key, presence, item, fun a => some (encode a), get, set⟩

/-- A field that is left out where there is no value. -/
def whenSome (key : String) (presence : Presence) (item : Decoder α) (encode : α → Json)
    (get : σ → Option α) (set : σ → Option α → σ) : RecordField σ :=
  ⟨Option α, key, presence, Decoder.option item, Option.map encode, get, set⟩

/-- How the field is read. -/
def slot (f : RecordField σ) : Slot σ :=
  Decoder.slot f.key f.presence f.item f.set

/-- What is written for the field of a record. -/
def entry (f : RecordField σ) (x : σ) : List (String × Json) :=
  present f.key id (f.writes (f.get x))

@[simp] theorem entry_always {key : String} {presence : Presence} {item : Decoder α}
    {encode : α → Json} {get : σ → α} {set : σ → α → σ} (x : σ) :
    (always key presence item encode get set).entry x = [(key, encode (get x))] := rfl

@[simp] theorem entry_whenSome {key : String} {presence : Presence} {item : Decoder α}
    {encode : α → Json} {get : σ → Option α} {set : σ → Option α → σ} (x : σ) :
    (whenSome key presence item encode get set).entry x = present key encode (get x) := by
  show present key id ((get x).map encode) = _
  cases get x with
  | none => rfl
  | some a => rfl

theorem mem_entry {f : RecordField σ} {x : σ} {e : String × Json} :
    e ∈ f.entry x ↔ e.1 = f.key ∧ f.writes (f.get x) = some e.2 := by
  unfold entry
  rcases f.writes (f.get x) with _ | w
  · simp [present]
  · simp [present, Prod.ext_iff, eq_comm]

/-- What is written for a value of the field is plain and is read as that value. -/
def Returns (depth : Nat) (f : RecordField σ) (a : f.Value) : Prop :=
  ∀ w, f.writes a = some w → Plain depth w ∧ f.item w.sorted = .ok a

/-- Whatever is read for the field returns, and so does what it holds in `start`. -/
structure Sound (depth : Nat) (start : σ) (f : RecordField σ) : Prop where
  start : f.Returns depth (f.get start)
  steady : ∀ v a, Plain depth v → v.sorted = v → f.item v = .ok a → f.Returns depth a

/-- What is written for the value `a` of the field is plain and is read as `b`, and where nothing is
written, `b` is what the field holds in `start`. -/
structure Arrives (depth : Nat) (start : σ) (f : RecordField σ) (a b : f.Value) : Prop where
  read : ∀ w, f.writes a = some w → Plain depth w ∧ f.item w.sorted = .ok b
  omitted : f.writes a = none → b = f.get start

section Kinds

variable {depth : Nat} {key : String} {presence : Presence} {item : Decoder α} {encode : α → Json}

theorem returns_always {get : σ → α} {set : σ → α → σ} {a : α}
    (h : Json.Returns depth item encode a) :
    (always key presence item encode get set).Returns depth a := by
  intro w hw
  obtain rfl : encode a = w := Option.some.inj hw
  exact ⟨h.plain, h.read⟩

theorem returns_whenSome {get : σ → Option α} {set : σ → Option α → σ} {o : Option α}
    (h : Json.Returns depth (Decoder.option item) (ofOption encode) o) :
    (whenSome key presence item encode get set).Returns depth o := by
  intro w hw
  obtain ⟨a, rfl, rfl⟩ := Option.map_eq_some_iff.mp hw
  exact ⟨h.plain, h.read⟩

theorem arrives_always {get : σ → α} {set : σ → α → σ} {start : σ} {a : α}
    (h : Json.Returns depth item encode a) :
    (always key presence item encode get set).Arrives depth start a a :=
  ⟨returns_always h, fun hnone => nomatch hnone⟩

/-- A field that can be left out arrives as what its value arrives as, if that is not written as
null. -/
theorem arrives_whenSome {get : σ → Option α} {set : σ → Option α → σ} {start : σ} {o : Option α}
    {g : α → α} (hstart : get start = none) (hnull : ∀ a, encode a ≠ .null)
    (h : ∀ a ∈ o, Plain depth (encode a) ∧ item (encode a).sorted = .ok (g a)) :
    (whenSome key presence item encode get set).Arrives depth start o (o.map g) := by
  refine ⟨fun w hw => ?_, fun hnone => ?_⟩
  · obtain ⟨a, rfl, rfl⟩ := Option.map_eq_some_iff.mp hw
    obtain ⟨hplain, hread⟩ := h a rfl
    have hsorted : (encode a).sorted ≠ .null := fun hs => hnull a (eq_null_of_sorted hs)
    refine ⟨hplain, ?_⟩
    show Decoder.option item _ = _
    rw [option_of_ne_null item hsorted, hread]
    rfl
  · obtain rfl : o = none := Option.map_eq_none_iff.mp hnone
    exact hstart.symm

theorem sound_always {get : σ → α} {set : σ → α → σ} {start : σ} (h : Steady depth item encode)
    (hstart : Json.Returns depth item encode (get start)) :
    (always key presence item encode get set).Sound depth start :=
  ⟨returns_always hstart, fun v a hplain hsorted ha =>
    returns_always (h.returns v a hplain hsorted ha)⟩

theorem sound_whenSome {get : σ → Option α} {set : σ → Option α → σ} {start : σ}
    (h : Steady depth item encode) (hstart : get start = none) :
    (whenSome key presence item encode get set).Sound depth start := by
  refine ⟨returns_whenSome ?_, fun v o hplain hsorted ho =>
    returns_whenSome (h.option.returns v o hplain hsorted ho)⟩
  show Json.Returns _ _ _ (get start)
  rw [hstart]
  exact returns_none depth item encode

end Kinds

/-- Two fields that differ in their names, neither of which is part of the other. -/
@[mk_iff] structure Apart (f g : RecordField σ) : Prop where
  key : f.key ≠ g.key
  left : ∀ x a, f.get (g.set x a) = f.get x
  right : ∀ x a, g.get (f.set x a) = g.get x

instance : Std.Symm (@Apart σ) where
  symm := fun _ _ h => ⟨h.key.symm, h.right, h.left⟩

end RecordField

/-- The fields of a record, and the record whose fields are those that are left out.  The fields do
not get in each other's way, they make up the record, and only what a missing field means is left
out when a record is written. -/
structure Shape (σ : Type) where
  name : String
  start : σ
  fields : List (RecordField σ)
  apart : fields.Pairwise RecordField.Apart := by
    simp [RecordField.always, RecordField.whenSome, RecordField.apart_iff]
  get_set : ∀ f ∈ fields, ∀ x a, f.get (f.set x a) = a := by
    simp [RecordField.always, RecordField.whenSome]
  ext : ∀ x y, (∀ f ∈ fields, f.get x = f.get y) → x = y := by
    rintro ⟨⟩ ⟨⟩ h
    simpa [RecordField.always, RecordField.whenSome] using h
  omitted : ∀ f ∈ fields, ∀ x, f.writes (f.get x) = none →
      f.presence ≠ .required ∧ f.get x = f.get start := by
    simp [RecordField.always, RecordField.whenSome]

namespace Shape

variable {σ : Type} (s : Shape σ)

/-- How the record is read. -/
def slots : List (Slot σ) :=
  s.fields.map RecordField.slot

/-- The record from JSON. -/
def decoder : Decoder σ :=
  Decoder.record s.name s.slots s.start

/-- What is written for the fields of a record. -/
def entries (x : σ) : List (String × Json) :=
  s.fields.flatMap fun f => f.entry x

/-- The record as JSON. -/
def encode (x : σ) : Json :=
  .object (s.entries x)

variable {s}

/-! ### One field -/

/-- Two fields of a record are the same or apart. -/
theorem eq_or_apart {f g : RecordField σ} (hf : f ∈ s.fields) (hg : g ∈ s.fields) :
    f = g ∨ RecordField.Apart f g := by
  by_cases h : f = g
  · exact .inl h
  · exact .inr (s.apart.forall hf hg h)

/-- A field holds what is put into it. -/
theorem get_set_self {f g : RecordField σ} (hf : f ∈ s.fields) (hg : g ∈ s.fields)
    (hkey : f.key = g.key) (x y : σ) : f.get (g.set x (g.get y)) = f.get y := by
  rcases eq_or_apart hf hg with rfl | hapart
  · exact s.get_set f hf x _
  · exact absurd hkey hapart.key

/-- The other fields hold what they held. -/
theorem get_set_other {f g : RecordField σ} (hf : f ∈ s.fields) (hg : g ∈ s.fields)
    (hkey : f.key ≠ g.key) (x : σ) (a : g.Value) : f.get (g.set x a) = f.get x := by
  rcases eq_or_apart hf hg with rfl | hapart
  · exact absurd rfl hkey
  · exact hapart.left x a

theorem exists_field_of_find {key : String} {t : Slot σ}
    (h : s.slots.find? (fun t => t.key = key) = some t) :
    ∃ f ∈ s.fields, f.key = key ∧ f.slot = t := by
  obtain ⟨f, hf, rfl⟩ := List.mem_map.mp (List.mem_of_find?_eq_some h)
  have hkey := List.find?_some h
  exact ⟨f, hf, of_decide_eq_true hkey, rfl⟩

theorem find_slot {f : RecordField σ} (hf : f ∈ s.fields) :
    s.slots.find? (fun t => t.key = f.key) = some f.slot := by
  rcases hfind : s.slots.find? (fun t => t.key = f.key) with _ | t
  · have hnone := List.find?_eq_none.mp hfind f.slot (List.mem_map_of_mem hf)
    exact absurd (decide_eq_true rfl) hnone
  · obtain ⟨g, hg, hkey, rfl⟩ := exists_field_of_find hfind
    rcases eq_or_apart hg hf with rfl | hapart
    · exact hfind
    · exact absurd hkey hapart.key

/-! ### What is read returns

The property that is kept is that every field returns.  It holds of the record that reading starts
with, and filling a field replaces the value of that field by one that was just read, which returns
since its decoder is steady.
-/

variable {depth : Nat}

/-- All fields of a record return. -/
def FieldsReturn (s : Shape σ) (depth : Nat) (x : σ) : Prop :=
  ∀ f ∈ s.fields, f.Returns depth (f.get x)

theorem FieldsReturn.set {x : σ} (hx : s.FieldsReturn depth x) {g : RecordField σ}
    (hg : g ∈ s.fields) {a : g.Value} (ha : g.Returns depth a) :
    s.FieldsReturn depth (g.set x a) := by
  intro f hf
  rcases eq_or_apart hf hg with rfl | hapart
  · rw [s.get_set f hf]
    exact ha
  · rw [hapart.left]
    exact hx f hf

theorem FieldsReturn.fill (hsound : ∀ f ∈ s.fields, f.Sound depth s.start) {x y : σ}
    (hx : s.FieldsReturn depth x) {f : RecordField σ} (hf : f ∈ s.fields) {v : Json}
    (hv : Plain depth v ∧ v.sorted = v) (h : f.slot.fill x v = .ok y) :
    s.FieldsReturn depth y := by
  obtain ⟨a, ha, rfl⟩ := exists_of_map_ok h
  exact hx.set hf ((hsound f hf).steady v a hv.1 hv.2 ha)

theorem FieldsReturn.fillFields (hsound : ∀ f ∈ s.fields, f.Sound depth s.start)
    {fields : List (String × Json)} (hfields : ∀ e ∈ fields, Plain depth e.2 ∧ e.2.sorted = e.2)
    {x y : σ} (hx : s.FieldsReturn depth x)
    (h : Decoder.fillFields s.slots fields x = .ok y) : s.FieldsReturn depth y := by
  refine Decoder.fillFields_keeps (Q := fun v => Plain depth v ∧ v.sorted = v) ?_ hfields hx h
  intro t ht x v y hx hv hfill
  obtain ⟨f, hf, rfl⟩ := List.mem_map.mp ht
  exact hx.fill hsound hf hv hfill

/-- The items of an array fill the fields in their order; `fs` are those that are to come. -/
theorem FieldsReturn.fillItems (hsound : ∀ f ∈ s.fields, f.Sound depth s.start) {short : String}
    {fs : List (RecordField σ)} (hfs : ∀ f ∈ fs, f ∈ s.fields) {index : Nat} {vs : List Json}
    (hvs : PlainValues depth vs) {x y : σ} (hx : s.FieldsReturn depth x)
    (h : Decoder.fillItems short (fs.map RecordField.slot) index vs x = .ok y) :
    s.FieldsReturn depth y := by
  induction fs generalizing index vs x with
  | nil =>
      rw [List.map_nil, Decoder.fillItems] at h
      split at h
      · obtain rfl := Except.ok.inj h
        exact hx
      · cases h
  | cons f fs ih =>
      obtain ⟨hf, hrest⟩ := List.forall_mem_cons.mp hfs
      cases vs with
      | nil =>
          rw [List.map_cons, Decoder.fillItems] at h
          split at h
          · exact ih hrest hvs hx h
          · cases h
      | cons v vs =>
          obtain ⟨hv, hlater⟩ := List.forall_mem_cons.mp hvs
          rw [List.map_cons, Decoder.fillItems] at h
          split at h
          · cases h
          · rename_i x' hfill
            exact ih hrest hlater (hx.fill hsound hf hv hfill) h

/-- **A record that was read from a plain value has fields that return.** -/
theorem fieldsReturn_of_decoder (hsound : ∀ f ∈ s.fields, f.Sound depth s.start) {v : Json}
    {x : σ} (hplain : Plain (depth + 1) v) (hsorted : v.sorted = v) (h : s.decoder v = .ok x) :
    s.FieldsReturn depth x := by
  have hstart : s.FieldsReturn depth s.start := fun f hf => (hsound f hf).start
  cases hplain with
  | null => cases h
  | bool => cases h
  | integer => cases h
  | string => cases h
  | @array _ vs hvs =>
      have hvalues : PlainValues depth vs := fun v hv =>
        ⟨hvs v hv, sorted_array_eq_iff.mp hsorted v hv⟩
      exact FieldsReturn.fillItems hsound (fun _ hf => hf) hvalues hstart h
  | @object _ fields _ hfields =>
      have hvalues : ∀ e ∈ fields, Plain depth e.2 ∧ e.2.sorted = e.2 := fun e he =>
        ⟨hfields e he, (sorted_object_eq_iff.mp hsorted).2 e he⟩
      rw [decoder, Decoder.record] at h
      split at h
      · cases h
      rename_i y hfill
      split at h
      · cases h
      obtain rfl := Except.ok.inj h
      exact hstart.fillFields hsound hvalues hfill

/-! ### What is written is read

The other direction does not ask that every field is written.  Where a field is left out, the
record that reading starts with has to hold the right value already, and that is a condition of
`Shape`.
-/

theorem mem_entries {x : σ} {e : String × Json} :
    e ∈ s.entries x ↔ ∃ f ∈ s.fields, e.1 = f.key ∧ f.writes (f.get x) = some e.2 := by
  simp only [entries, List.mem_flatMap, RecordField.mem_entry]

/-- Fields have different names, so they are written under different names. -/
theorem nodup_entries (x : σ) : ((s.entries x).map Prod.fst).Nodup := by
  have hkeys : (s.fields.map RecordField.key).Nodup := by
    rw [List.Nodup, List.pairwise_map]
    exact s.apart.imp fun h => h.key
  have hsub : ∀ fs : List (RecordField σ),
      ((fs.flatMap fun f => f.entry x).map Prod.fst).Sublist (fs.map RecordField.key) := by
    intro fs
    induction fs with
    | nil => exact List.Sublist.refl _
    | cons f fs ih =>
        have hentry : ((f.entry x).map Prod.fst).Sublist [f.key] := by
          unfold RecordField.entry
          rcases f.writes (f.get x) with _ | w
          · exact List.nil_sublist _
          · exact List.Sublist.refl _
        rw [List.flatMap_cons, List.map_append, List.map_cons]
        exact hentry.append ih
  exact hkeys.sublist (hsub s.fields)

/-- Filling a record with what the fields of `x` held: each field holds what it holds in `x`, or it
is not among those that were filled. -/
theorem fillFields_of_held {x : σ} {fields : List (String × Json)}
    (hheld : ∀ e ∈ fields, ∃ f ∈ s.fields, e.1 = f.key ∧ f.item e.2 = .ok (f.get x)) (y : σ) :
    ∃ z, fillFields s.slots fields y = .ok z ∧ ∀ f ∈ s.fields,
      f.get z = f.get x ∨ (f.key ∉ fields.map Prod.fst ∧ f.get z = f.get y) := by
  induction fields generalizing y with
  | nil => exact ⟨y, rfl, fun f _ => .inr ⟨List.not_mem_nil, rfl⟩⟩
  | cons e fields ih =>
      obtain ⟨key, v⟩ := e
      obtain ⟨⟨g, hg, hkey, hitem⟩, hlater⟩ := List.forall_mem_cons.mp hheld
      obtain rfl : key = g.key := hkey
      obtain ⟨z, hz, hget⟩ := ih hlater (g.set y (g.get x))
      have hfill : g.slot.fill y v = .ok (g.set y (g.get x)) := by
        show (g.item v).map (g.set y) = _
        rw [hitem]
        rfl
      refine ⟨z, ?_, ?_⟩
      · rw [fillFields, find_slot hg]
        simp only [hfill]
        exact hz
      · intro f hf
        rcases hget f hf with hsame | ⟨hnew, hsame⟩
        · exact .inl hsame
        · by_cases hfg : f.key = g.key
          · exact .inl (hsame.trans (get_set_self hf hg hfg y x))
          · refine .inr ⟨?_, hsame.trans (get_set_other hf hg hfg y _)⟩
            rw [List.map_cons, List.mem_cons, not_or]
            exact ⟨hfg, hnew⟩

/-- The fields of `y` arrive as what they hold in `x`. -/
def FieldsArrive (s : Shape σ) (depth : Nat) (y x : σ) : Prop :=
  ∀ f ∈ s.fields, f.Arrives depth s.start (f.get y) (f.get x)

/-- **A record whose fields arrive as those of another one is read as that one.** -/
theorem decoder_of_fieldsArrive {y x : σ} (h : s.FieldsArrive depth y x) :
    Plain (depth + 1) (s.encode y) ∧ s.decoder (s.encode y).sorted = .ok x := by
  have hnames := nodup_entries (s := s) y
  refine ⟨.object hnames ?_, ?_⟩
  · intro e he
    obtain ⟨f, hf, -, hwrites⟩ := mem_entries.mp he
    exact ((h f hf).read e.2 hwrites).1
  -- What is found in the object is what was written, with its own fields in order.
  have hfound : ∀ f ∈ s.fields, ∀ w, f.writes (f.get y) = some w →
      (sortedFields (s.entries y)).lookup f.key = some w.sorted := by
    intro f hf w hw
    rw [lookup_sortedFields,
      lookup_of_mem hnames (mem_entries.mpr ⟨f, hf, rfl, hw⟩ : (f.key, w) ∈ s.entries y)]
    rfl
  have hheld : ∀ e ∈ sortedFields (s.entries y),
      ∃ f ∈ s.fields, e.1 = f.key ∧ f.item e.2 = .ok (f.get x) := by
    rintro ⟨key, v⟩ he
    have hfind := lookup_of_mem (increasing_sortedFields _).nodup he
    rw [lookup_sortedFields] at hfind
    obtain ⟨w, hw, rfl⟩ := Option.map_eq_some_iff.mp hfind
    obtain ⟨f, hf, hkey, hwrites⟩ := mem_entries.mp (mem_of_lookup hw)
    exact ⟨f, hf, hkey, ((h f hf).read w hwrites).2⟩
  obtain ⟨z, hz, hget⟩ := fillFields_of_held hheld s.start
  -- A field that was not filled was left out, and so it holds what a missing field means.
  have hzx : z = x := by
    refine s.ext z x fun f hf => ?_
    rcases hget f hf with hsame | ⟨hmissing, hsame⟩
    · exact hsame
    · rcases hwrites : f.writes (f.get y) with _ | w
      · rw [hsame, (h f hf).omitted hwrites]
      · have hnone := lookup_eq_none_iff_notMem.mpr hmissing
        rw [hfound f hf w hwrites] at hnone
        cases hnone
  have hcomplete : missing? s.slots (sortedFields (s.entries y)) = none := by
    rw [missing?, Option.map_eq_none_iff, List.find?_eq_none]
    intro t ht
    obtain ⟨f, hf, rfl⟩ := List.mem_map.mp ht
    show ¬ (decide (f.presence = .required) && (List.lookup f.key _).isNone) = true
    rcases hwrites : f.writes (f.get y) with _ | w
    · simp [(s.omitted f hf y hwrites).1]
    · simp [hfound f hf w hwrites]
  rw [encode, sorted_object, decoder, Decoder.record, hz]
  simp only [hcomplete, hzx]

/-- **A record whose fields return, returns.** -/
theorem returns_of_fieldsReturn {x : σ} (hx : s.FieldsReturn depth x) :
    Returns (depth + 1) s.decoder s.encode x := by
  have harrives : s.FieldsArrive depth x x := fun f hf =>
    ⟨hx f hf, fun hnone => (s.omitted f hf x hnone).2⟩
  obtain ⟨hplain, hread⟩ := decoder_of_fieldsArrive harrives
  exact ⟨hplain, hread⟩

/-- A record is steady if its fields are sound. -/
theorem steady_succ (hsound : ∀ f ∈ s.fields, f.Sound depth s.start) :
    Steady (depth + 1) s.decoder s.encode where
  returns := fun _ _ hplain hsorted h =>
    returns_of_fieldsReturn (fieldsReturn_of_decoder hsound hplain hsorted h)
  null := fun _ _ _ h => nomatch h

/-- Where brackets are not allowed at all, no record can be read. -/
theorem steady (hsound : ∀ depth, ∀ f ∈ s.fields, f.Sound depth s.start) (depth : Nat) :
    Steady depth s.decoder s.encode := by
  cases depth with
  | succ depth => exact steady_succ (hsound depth)
  | zero =>
      refine ⟨?_, fun _ _ _ h => nomatch h⟩
      intro v x hplain _ h
      cases hplain with
      | null => cases h
      | bool => cases h
      | integer => cases h
      | string => cases h

end Shape

end VServer.Json
