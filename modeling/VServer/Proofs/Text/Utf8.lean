/-
Bytes are read back as the text that was written.

`decode` accepts exactly what `encode` writes, and returns the text: `decode_eq_ok_iff`.  Between
the two stands `Spells`, the ranges of bytes that make up one character with the number of that
character.  The reader takes what is spelled and nothing else, and a character is spelled by its
own bytes and by no others; both are arithmetic on `pushBits`.

The ranges are those of well-formed UTF-8: no character is spelled longer than it has to be, none
lies among the surrogates and none beyond the last code point.  The reader tests them byte by byte,
in an order of its own, so the proof that it takes nothing else goes through its branches once, for
one character, and whole texts are an induction.
-/
import VServer.Text.Utf8
import Mathlib.Data.List.Basic

namespace VServer.Text

/-! ### The bytes of one character -/

/-- The bytes of the character with a given number. -/
inductive Spells : Bytes → Nat → Prop
  | one {a : UInt8} {n : Nat} (ha : a.toNat < 0x80) (hn : n = a.toNat) : Spells [a] n
  | two {a b : UInt8} {n : Nat} (ha : 0xc2 ≤ a.toNat ∧ a.toNat ≤ 0xdf)
      (hb : isContinuation b = true) (hn : n = pushBits (a.toNat - 0xc0) b) : Spells [a, b] n
  | three {a b c : UInt8} {n : Nat} (ha : 0xe0 ≤ a.toNat ∧ a.toNat ≤ 0xef)
      (hb : isSecondOfThree a b = true) (hc : isContinuation c = true)
      (hn : n = pushBits (pushBits (a.toNat - 0xe0) b) c) : Spells [a, b, c] n
  | four {a b c d : UInt8} {n : Nat} (ha : 0xf0 ≤ a.toNat ∧ a.toNat ≤ 0xf4)
      (hb : isSecondOfFour a b = true) (hc : isContinuation c = true)
      (hd : isContinuation d = true)
      (hn : n = pushBits (pushBits (pushBits (a.toNat - 0xf0) b) c) d) : Spells [a, b, c, d] n

theorem isContinuation_iff {b : UInt8} :
    isContinuation b = true ↔ 0x80 ≤ b.toNat ∧ b.toNat ≤ 0xbf := by
  simp [isContinuation, UInt8.le_iff_toNat_le]

theorem isSecondOfThree_iff {a b : UInt8} :
    isSecondOfThree a b = true ↔
      (0x80 ≤ b.toNat ∧ b.toNat ≤ 0xbf) ∧ (a.toNat = 0xe0 → 0xa0 ≤ b.toNat) ∧
        (a.toNat = 0xed → b.toNat ≤ 0x9f) := by
  simp [isSecondOfThree, isContinuation, UInt8.le_iff_toNat_le, ← UInt8.toNat_inj, and_assoc,
    ← imp_iff_not_or]

theorem isSecondOfFour_iff {a b : UInt8} :
    isSecondOfFour a b = true ↔
      (0x80 ≤ b.toNat ∧ b.toNat ≤ 0xbf) ∧ (a.toNat = 0xf0 → 0x90 ≤ b.toNat) ∧
        (a.toNat = 0xf4 → b.toNat ≤ 0x8f) := by
  simp [isSecondOfFour, isContinuation, UInt8.le_iff_toNat_le, ← UInt8.toNat_inj, and_assoc,
    ← imp_iff_not_or]

theorem pushBits_eq (high : Nat) (b : UInt8) : pushBits high b = high * 64 + (b.toNat - 0x80) :=
  rfl

theorem toNat_ofNat {n : Nat} (h : n.isValidChar) : (Char.ofNat n).val.toNat = n := by
  have hval : Char.ofNat n = Char.ofNatAux n h := dif_pos h
  rw [hval]
  rfl

/-- The bytes of a character spell it. -/
theorem spells_encodeChar (c : Char) : Spells (String.utf8EncodeChar c) c.val.toNat := by
  have hvalid : c.val.toNat < 0xd800 ∨ 0xdfff < c.val.toNat ∧ c.val.toNat < 0x110000 := c.valid
  rw [String.utf8EncodeChar]
  set n := c.val.toNat
  split
  · refine .one ?_ ?_ <;> rw [UInt8.toNat_ofNat'] <;> omega
  split
  · refine .two ?_ (isContinuation_iff.mpr ?_) ?_ <;>
      simp only [pushBits_eq, UInt8.toNat_ofNat'] <;> omega
  split
  · refine .three ?_ (isSecondOfThree_iff.mpr ?_) (isContinuation_iff.mpr ?_) ?_ <;>
      simp only [pushBits_eq, UInt8.toNat_ofNat'] <;> omega
  · refine .four ?_ (isSecondOfFour_iff.mpr ?_) (isContinuation_iff.mpr ?_)
      (isContinuation_iff.mpr ?_) ?_ <;>
      simp only [pushBits_eq, UInt8.toNat_ofNat'] <;> omega

/-- What is spelled is a character. -/
theorem Spells.isValidChar {bytes : Bytes} {n : Nat} (h : Spells bytes n) : n.isValidChar := by
  unfold Nat.isValidChar
  cases h with
  | one ha hn => omega
  | two ha hb hn =>
      rw [isContinuation_iff] at hb
      rw [pushBits_eq] at hn
      omega
  | three ha hb hc hn =>
      rw [isSecondOfThree_iff] at hb
      rw [isContinuation_iff] at hc
      simp only [pushBits_eq] at hn
      omega
  | four ha hb hc hd hn =>
      rw [isSecondOfFour_iff] at hb
      rw [isContinuation_iff] at hc hd
      simp only [pushBits_eq] at hn
      omega

/-- A character is spelled by its own bytes only. -/
theorem Spells.eq_encodeChar {bytes : Bytes} {n : Nat} (h : Spells bytes n) :
    bytes = String.utf8EncodeChar (Char.ofNat n) := by
  have hnum := toNat_ofNat h.isValidChar
  have hbyte : ∀ (b : UInt8) (k : Nat), b.toNat = k → b = UInt8.ofNat k := by
    rintro b k rfl
    exact UInt8.ofNat_toNat.symm
  rw [String.utf8EncodeChar, hnum]
  cases h with
  | one ha hn =>
      rw [if_pos (by omega), ← hbyte _ n hn.symm]
  | two ha hb hn =>
      rw [isContinuation_iff] at hb
      rw [pushBits_eq] at hn
      rw [if_neg (by omega), if_pos (by omega)]
      simp only [List.cons.injEq, and_true]
      exact ⟨hbyte _ _ (by omega), hbyte _ _ (by omega)⟩
  | three ha hb hc hn =>
      rw [isSecondOfThree_iff] at hb
      rw [isContinuation_iff] at hc
      simp only [pushBits_eq] at hn
      rw [if_neg (by omega), if_neg (by omega), if_pos (by omega)]
      simp only [List.cons.injEq, and_true]
      exact ⟨hbyte _ _ (by omega), hbyte _ _ (by omega), hbyte _ _ (by omega)⟩
  | four ha hb hc hd hn =>
      rw [isSecondOfFour_iff] at hb
      rw [isContinuation_iff] at hc hd
      simp only [pushBits_eq] at hn
      rw [if_neg (by omega), if_neg (by omega), if_neg (by omega)]
      simp only [List.cons.injEq, and_true]
      exact ⟨hbyte _ _ (by omega), hbyte _ _ (by omega), hbyte _ _ (by omega),
        hbyte _ _ (by omega)⟩

/-! ### The reader takes what is spelled -/

theorem decodeAt_spells {bytes : Bytes} {n : Nat} (h : Spells bytes n) (index : Nat)
    (rest : Bytes) :
    decodeAt index (bytes ++ rest)
      = (decodeAt (index + bytes.length) rest).map (Char.ofNat n :: ·) := by
  have hlt : ∀ a b : UInt8, a < b ↔ a.toNat < b.toNat := fun a b => UInt8.lt_iff_toNat_lt
  have hle : ∀ a b : UInt8, a ≤ b ↔ a.toNat ≤ b.toNat := fun a b => UInt8.le_iff_toNat_le
  cases h with
  | one ha hn =>
      rw [hn, List.singleton_append, decodeAt.eq_def]
      simp only
      rw [if_pos (by simpa [hlt] using ha)]
      rfl
  | two ha hb hn =>
      rw [hn, List.cons_append, decodeAt.eq_def]
      simp only
      rw [if_neg (by simp [hlt]; omega),
        if_pos (by simpa [hle] using ha)]
      simp only [List.cons_append, List.nil_append, hb, if_true]
      rfl
  | three ha hb hc hn =>
      rw [hn, List.cons_append, decodeAt.eq_def]
      simp only
      rw [if_neg (by simp [hlt]; omega),
        if_neg (by simp [hle]; omega), if_pos (by simpa [hle] using ha)]
      simp only [List.cons_append, List.nil_append, hb, hc, if_true]
      rfl
  | four ha hb hc hd hn =>
      rw [hn, List.cons_append, decodeAt.eq_def]
      simp only
      rw [if_neg (by simp [hlt]; omega),
        if_neg (by simp [hle]; omega), if_neg (by simp [hle]; omega),
        if_pos (by simpa [hle] using ha)]
      simp only [List.cons_append, List.nil_append, hb, hc, hd, if_true]
      rfl

/-- What the reader takes in front of the rest is spelled. -/
theorem decodeAt_cons_ok {index : Nat} {a : UInt8} {behind : Bytes} {cs : List Char}
    (h : decodeAt index (a :: behind) = .ok cs) :
    ∃ bytes n rest next ds, a :: behind = bytes ++ rest ∧ Spells bytes n ∧
      decodeAt next rest = .ok ds ∧ cs = Char.ofNat n :: ds := by
  have hmap : ∀ {next : Nat} {rest : Bytes} {n : Nat},
      (decodeAt next rest).map (Char.ofNat n :: ·) = .ok cs →
        ∃ ds, decodeAt next rest = .ok ds ∧ cs = Char.ofNat n :: ds := by
    intro next rest n hcs
    cases hrest : decodeAt next rest with
    | error e => rw [hrest] at hcs; cases hcs
    | ok ds => rw [hrest] at hcs; cases hcs; exact ⟨ds, rfl, rfl⟩
  rw [decodeAt.eq_def] at h
  simp only at h
  split at h
  · rename_i ha
    obtain ⟨ds, hds, rfl⟩ := hmap h
    exact ⟨[a], _, behind, _, ds, rfl, .one (by simpa [UInt8.lt_iff_toNat_lt] using ha) rfl, hds, rfl⟩
  split at h
  · rename_i ha
    split at h
    · cases h
    · rename_i b r1
      split at h
      · rename_i hb
        obtain ⟨ds, hds, rfl⟩ := hmap h
        exact ⟨[a, b], _, r1, _, ds, rfl,
          .two (by simpa [UInt8.le_iff_toNat_le] using ha) hb rfl, hds, rfl⟩
      · cases h
  split at h
  · rename_i ha
    split at h
    · cases h
    · rename_i b r1
      split at h
      · rename_i hb
        split at h
        · cases h
        · rename_i c r2
          split at h
          · rename_i hc
            obtain ⟨ds, hds, rfl⟩ := hmap h
            exact ⟨[a, b, c], _, r2, _, ds, rfl,
              .three (by simpa [UInt8.le_iff_toNat_le] using ha) hb hc rfl, hds, rfl⟩
          · cases h
      · cases h
  split at h
  · rename_i ha
    split at h
    · cases h
    · rename_i b r1
      split at h
      · rename_i hb
        split at h
        · cases h
        · rename_i c r2
          split at h
          · rename_i hc
            split at h
            · cases h
            · rename_i d r3
              split at h
              · rename_i hd
                obtain ⟨ds, hds, rfl⟩ := hmap h
                exact ⟨[a, b, c, d], _, r3, _, ds, rfl,
                  .four (by simpa [UInt8.le_iff_toNat_le] using ha) hb hc hd rfl, hds, rfl⟩
              · cases h
          · cases h
      · cases h
  · cases h

/-! ### Whole texts

Both directions are inductions on the text.  What is spelled is taken off the front of the bytes,
and what is taken off is the spelling of the character that is returned.
-/

theorem encode_cons (c : Char) (cs : List Char) :
    encode (c :: cs) = String.utf8EncodeChar c ++ encode cs :=
  List.flatMap_cons

theorem encode_append (cs ds : List Char) : encode (cs ++ ds) = encode cs ++ encode ds :=
  List.flatMap_append

theorem length_encode (cs : List Char) : (encode cs).length = byteSize cs := by
  induction cs with
  | nil => rfl
  | cons c cs ih =>
      rw [encode_cons, List.length_append, String.length_utf8EncodeChar, ih, byteSize]

theorem decodeAt_encode (cs : List Char) : ∀ index, decodeAt index (encode cs) = .ok cs := by
  induction cs with
  | nil => intro index; rfl
  | cons c cs ih =>
      intro index
      rw [encode_cons, decodeAt_spells (spells_encodeChar c), ih]
      show Except.ok (Char.ofNat c.toNat :: cs) = .ok (c :: cs)
      rw [Char.ofNat_toNat]

theorem encode_of_decodeAt (cs : List Char) :
    ∀ (index : Nat) (bytes : Bytes), decodeAt index bytes = .ok cs → bytes = encode cs := by
  induction cs with
  | nil =>
      intro index bytes h
      cases bytes with
      | nil => rfl
      | cons a behind =>
          obtain ⟨_, _, _, _, _, _, _, _, hcs⟩ := decodeAt_cons_ok h
          cases hcs
  | cons c cs ih =>
      intro index bytes h
      cases bytes with
      | nil => cases h
      | cons a behind =>
          obtain ⟨bytes, n, rest, next, ds, hsplit, hspells, hrest, hcs⟩ := decodeAt_cons_ok h
          obtain ⟨rfl, rfl⟩ := List.cons.inj hcs
          rw [hsplit, encode_cons, ← hspells.eq_encodeChar, ih next rest hrest]

/-- **Bytes are read as a text exactly if they are the bytes of that text.** -/
theorem decode_eq_ok_iff {bytes : Bytes} {cs : List Char} :
    decode bytes = .ok cs ↔ bytes = encode cs :=
  ⟨encode_of_decodeAt cs 0 bytes, fun h => h ▸ decodeAt_encode cs 0⟩

theorem decode_encode (cs : List Char) : decode (encode cs) = .ok cs :=
  decodeAt_encode cs 0

/-! ### ASCII

The byte of an ASCII character stands for nothing else: every byte of a longer character is above
it.
-/

theorem ascii_mem_encodeChar {c : Char} {a : UInt8} (ha : a.toNat < 0x80)
    (h : a ∈ String.utf8EncodeChar c) : c.toNat = a.toNat := by
  have hspells := spells_encodeChar c
  generalize hbytes : String.utf8EncodeChar c = bytes at h hspells
  cases hspells with
  | one _ hn =>
      rw [List.mem_singleton.mp h]
      exact hn
  | two hfirst hb _ =>
      rw [isContinuation_iff] at hb
      simp only [List.mem_cons, List.not_mem_nil, or_false] at h
      rcases h with rfl | rfl <;> omega
  | three hfirst hb hc _ =>
      rw [isSecondOfThree_iff] at hb
      rw [isContinuation_iff] at hc
      simp only [List.mem_cons, List.not_mem_nil, or_false] at h
      rcases h with rfl | rfl | rfl <;> omega
  | four hfirst hb hc hd _ =>
      rw [isSecondOfFour_iff] at hb
      rw [isContinuation_iff] at hc hd
      simp only [List.mem_cons, List.not_mem_nil, or_false] at h
      rcases h with rfl | rfl | rfl | rfl <;> omega

theorem newline_mem_encodeChar {c : Char} (h : (10 : UInt8) ∈ String.utf8EncodeChar c) :
    c = '\n' :=
  Char.toNat_inj.mp (ascii_mem_encodeChar (by decide) h)

theorem newline_notMem_encode {cs : List Char} (h : '\n' ∉ cs) : (10 : UInt8) ∉ encode cs := by
  intro hmem
  obtain ⟨c, hc, hbyte⟩ := List.mem_flatMap.mp hmem
  exact h (newline_mem_encodeChar hbyte ▸ hc)

end VServer.Text
