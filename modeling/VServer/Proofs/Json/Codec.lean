/-
Values that survive being written and read.

A value of a type returns if what is written for it is plain and is read as that value again.  Not
every value of every type does: a natural number may be too large for 64 bits.  But what a decoder
reads from a plain value returns, and the decoder is steady then: however strange the form was in
which a value came, writing it down and reading it once more changes nothing.

A steady decoder also takes nothing but null for a value that is written as null.  That is what an
optional value rests on, since null is how its absence is written.

The two notions build on each other.  If every value of a type returns, and none is written as
null, its decoder is steady; for a type with values that do not return, steadiness is the statement
that remains.  There is a lemma for each way in which decoders are put together, so that for a type
of the protocol only its own shape has to be given.
-/
import VServer.Json.Decode
import VServer.Proofs.Json.Numerals

namespace VServer.Json

variable {α : Type}

/-- The value `a` is written as a plain value, from which it is read again. -/
structure Returns (depth : Nat) (item : Decoder α) (encode : α → Json) (a : α) : Prop where
  plain : Plain depth (encode a)
  read : item (encode a).sorted = .ok a

/-- Whatever is read from a plain value with its fields in order returns. -/
structure Steady (depth : Nat) (item : Decoder α) (encode : α → Json) : Prop where
  returns : ∀ v a, Plain depth v → v.sorted = v → item v = .ok a → Returns depth item encode a
  null : ∀ v a, item v = .ok a → encode a = .null → v = .null

/-- A decoder is steady if every value of its type returns. -/
theorem steady_of_returns {depth : Nat} {item : Decoder α} {encode : α → Json}
    (h : ∀ a, Returns depth item encode a) (hnull : ∀ a, encode a ≠ .null) :
    Steady depth item encode where
  returns := fun _ a _ _ _ => h a
  null := fun _ a _ ha => absurd ha (hnull a)

/-! ### Simple values -/

theorem returns_text (depth : Nat) (expected s : String) :
    Returns depth (Decoder.textFor expected) .string s :=
  ⟨.string, by rw [sorted_string]; rfl⟩

theorem steady_text (depth : Nat) (expected : String) :
    Steady depth (Decoder.textFor expected) .string :=
  steady_of_returns (returns_text depth expected) fun _ h => nomatch h

theorem returns_bool (depth : Nat) (b : Bool) : Returns depth Decoder.bool .bool b :=
  ⟨.bool, by rw [sorted_bool]; rfl⟩

theorem steady_bool (depth : Nat) : Steady depth Decoder.bool .bool :=
  steady_of_returns (returns_bool depth) fun _ h => nomatch h

theorem steady_any (depth : Nat) : Steady depth Decoder.any id where
  returns := by
    intro v a hplain hsorted h
    obtain rfl : v = a := Except.ok.inj h
    exact ⟨hplain, congrArg Except.ok hsorted⟩
  null := by
    intro v a h hnull
    obtain rfl : v = a := Except.ok.inj h
    exact hnull

/-- What is read as an integer in bounds is that integer. -/
theorem integer_ok {low high i : Int} {expected : String} {v : Json}
    (h : Decoder.integer low high expected v = .ok i) :
    v = .number (.integer i) ∧ low ≤ i ∧ i ≤ high := by
  unfold Decoder.integer at h
  split at h
  · split at h
    · rename_i hbounds
      obtain rfl := Except.ok.inj h
      exact ⟨rfl, hbounds⟩
    · cases h
  · cases h

theorem integer_of_bounds {low high i : Int} {expected : String} (h : low ≤ i ∧ i ≤ high) :
    Decoder.integer low high expected (.number (.integer i)) = .ok i := by
  simp only [Decoder.integer, if_pos h]

theorem steady_int32 (depth : Nat) : Steady depth Decoder.int32 ofInt where
  returns := by
    intro v i _ _ h
    obtain ⟨-, hlow, hhigh⟩ := integer_ok h
    refine ⟨.integer ⟨by omega, by omega⟩, ?_⟩
    rw [ofInt, sorted_number]
    exact integer_of_bounds ⟨hlow, hhigh⟩
  null := fun _ _ _ h => nomatch h

/-- A natural number in bounds returns. -/
theorem returns_nat {depth n : Nat} {high : Int} (expected : String) (hn : (n : Int) ≤ high)
    (hhigh : high ≤ 18446744073709551615) :
    Returns depth (fun v => (Decoder.integer 0 high expected v).map Int.toNat) ofNat n := by
  refine ⟨.integer ⟨by omega, by omega⟩, ?_⟩
  rw [ofNat, sorted_number, integer_of_bounds ⟨by omega, hn⟩]
  rfl

theorem steady_nat32 (depth : Nat) : Steady depth Decoder.nat32 ofNat where
  returns := by
    intro v n _ _ h
    obtain ⟨i, hi, rfl⟩ := exists_of_map_ok h
    obtain ⟨-, hlow, hhigh⟩ := integer_ok hi
    exact returns_nat "u32" (by omega) (by decide)
  null := fun _ _ _ h => nomatch h

/-! ### One of some values -/

/-- A value that is told by its name returns if it is found under its name. -/
theorem returns_variant (depth : Nat) {known : List (String × α)} {name : α → String}
    (hknown : ∀ a, known.lookup (name a) = some a) (a : α) :
    Returns depth (Decoder.variant known) (fun a => .string (name a)) a := by
  refine ⟨.string, ?_⟩
  rw [sorted_string]
  show Decoder.named known (name a) = .ok a
  rw [Decoder.named, hknown]

/-- A value that is told by its code returns if it is found under its code. -/
theorem returns_coded (depth : Nat) {known : List (Nat × α)} {code : α → Nat}
    (hknown : ∀ a, known.lookup (code a) = some a) (hcode : ∀ a, code a ≤ 255) (a : α) :
    Returns depth (Decoder.coded known) (fun a => ofNat (code a)) a := by
  have hnat : Returns depth Decoder.nat8 ofNat (code a) :=
    returns_nat "u8" (by have := hcode a; omega) (by decide)
  refine ⟨hnat.plain, ?_⟩
  rw [Decoder.coded, hnat.read]
  simp only [hknown]

/-! ### Optional values

An absent value is written as null, so a value that is present must not be.  The second field of
`Steady` is for this: what was read from anything but null is not written as null, so it does not
come back as absent.
-/

theorem option_of_ne_null (item : Decoder α) {v : Json} (h : v ≠ .null) :
    Decoder.option item v = (item v).map some := by
  cases v with
  | null => exact absurd rfl h
  | bool b => rfl
  | number n => rfl
  | string s => rfl
  | array items => rfl
  | object fields => rfl

theorem returns_none (depth : Nat) (item : Decoder α) (encode : α → Json) :
    Returns depth (Decoder.option item) (ofOption encode) none :=
  ⟨.null, by rw [ofOption, sorted_null]; rfl⟩

theorem Returns.some {depth : Nat} {item : Decoder α} {encode : α → Json} {a : α}
    (h : Returns depth item encode a) (hnull : encode a ≠ .null) :
    Returns depth (Decoder.option item) (ofOption encode) (some a) := by
  refine ⟨h.plain, ?_⟩
  have hsorted : (encode a).sorted ≠ .null := fun hs => hnull (eq_null_of_sorted hs)
  rw [ofOption, option_of_ne_null item hsorted, h.read]
  rfl

theorem returns_option {depth : Nat} {item : Decoder α} {encode : α → Json}
    (h : ∀ a, Returns depth item encode a) (hnull : ∀ a, encode a ≠ .null) (o : Option α) :
    Returns depth (Decoder.option item) (ofOption encode) o := by
  cases o with
  | none => exact returns_none depth item encode
  | some a => exact (h a).some (hnull a)

theorem Steady.option {depth : Nat} {item : Decoder α} {encode : α → Json}
    (h : Steady depth item encode) :
    Steady depth (Decoder.option item) (ofOption encode) where
  returns := by
    intro v o hplain hsorted ho
    by_cases hv : v = .null
    · subst hv
      obtain rfl := Except.ok.inj ho
      exact returns_none depth item encode
    · rw [option_of_ne_null item hv] at ho
      obtain ⟨a, ha, rfl⟩ := exists_of_map_ok ho
      exact (h.returns v a hplain hsorted ha).some fun hnull => hv (h.null v a ha hnull)
  null := by
    intro v o ho hnull
    by_contra hv
    rw [option_of_ne_null item hv] at ho
    obtain ⟨a, ha, rfl⟩ := exists_of_map_ok ho
    exact hv (h.null v a ha hnull)

/-! ### Lists -/

/-- An array of the values of a list. -/
def ofList (encode : α → Json) (as : List α) : Json :=
  .array (as.map encode)

theorem returns_list {depth : Nat} {item : Decoder α} {encode : α → Json} {as : List α}
    (h : ∀ a ∈ as, Returns depth item encode a) :
    Returns (depth + 1) (Decoder.list item) (ofList encode) as := by
  refine ⟨.array ?_, ?_⟩
  · intro v hv
    obtain ⟨a, ha, rfl⟩ := List.mem_map.mp hv
    exact (h a ha).plain
  · rw [ofList, sorted_array]
    show Decoder.items item _ = _
    induction as with
    | nil => rfl
    | cons a as ih =>
        rw [List.map_cons, List.map_cons, Decoder.items, (h a List.mem_cons_self).read]
        simp only
        rw [ih fun b hb => h b (List.mem_cons_of_mem a hb)]
        rfl

theorem Steady.items {depth : Nat} {item : Decoder α} {encode : α → Json}
    (h : Steady depth item encode) {vs : List Json} (hvs : PlainValues depth vs) {as : List α}
    (has : Decoder.items item vs = .ok as) : ∀ a ∈ as, Returns depth item encode a := by
  induction vs generalizing as with
  | nil =>
      obtain rfl := Except.ok.inj has
      simp
  | cons v vs ih =>
      obtain ⟨hv, hlater⟩ := List.forall_mem_cons.mp hvs
      rw [Decoder.items] at has
      split at has
      · cases has
      rename_i a ha
      obtain ⟨as', has', rfl⟩ := exists_of_map_ok has
      exact List.forall_mem_cons.mpr ⟨h.returns v a hv.1 hv.2 ha, ih hlater has'⟩

theorem Steady.list {item : Decoder α} {encode : α → Json} (h : ∀ depth, Steady depth item encode)
    (depth : Nat) : Steady depth (Decoder.list item) (ofList encode) where
  returns := by
    intro v as hplain hsorted has
    cases hplain with
    | null => cases has
    | bool => cases has
    | integer => cases has
    | string => cases has
    | object => cases has
    | @array depth vs hvs =>
        have hvalues : PlainValues depth vs := fun v hv =>
          ⟨hvs v hv, sorted_array_eq_iff.mp hsorted v hv⟩
        exact returns_list ((h depth).items hvalues has)
  null := fun _ _ _ h => nomatch h

end VServer.Json
