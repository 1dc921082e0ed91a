/-
Names are in the order of their bytes.

Strings are compared character by character, and characters by their numbers.  The bytes of a
character with a smaller number come first, whatever follows them: the first byte tells how many
there are, and the bits of the number stand in them from the highest on.  So a smaller string is
one with smaller bytes.

Maps by name are kept in the order of strings.  What is listed from them is therefore listed in the
order of the bytes of the names, which is how other programs would sort them.
-/
import VServer.Proofs.Text.Utf8

namespace VServer.Text

/-- Bytes that spell a character, as numbers. -/
theorem Spells.numbers {bytes : Bytes} {n : Nat} (h : Spells bytes n) :
    (∃ a, bytes = [a] ∧ a.toNat < 0x80 ∧ n = a.toNat) ∨
    (∃ a b, bytes = [a, b] ∧ (0xc2 ≤ a.toNat ∧ a.toNat ≤ 0xdf) ∧
      (0x80 ≤ b.toNat ∧ b.toNat ≤ 0xbf) ∧ n = (a.toNat - 0xc0) * 64 + (b.toNat - 0x80)) ∨
    (∃ a b c, bytes = [a, b, c] ∧ (0xe0 ≤ a.toNat ∧ a.toNat ≤ 0xef) ∧
      (0x80 ≤ b.toNat ∧ b.toNat ≤ 0xbf) ∧ (0x80 ≤ c.toNat ∧ c.toNat ≤ 0xbf) ∧
      (a.toNat = 0xe0 → 0xa0 ≤ b.toNat) ∧
      n = ((a.toNat - 0xe0) * 64 + (b.toNat - 0x80)) * 64 + (c.toNat - 0x80)) ∨
    ∃ a b c d, bytes = [a, b, c, d] ∧ (0xf0 ≤ a.toNat ∧ a.toNat ≤ 0xf4) ∧
      (0x80 ≤ b.toNat ∧ b.toNat ≤ 0xbf) ∧ (0x80 ≤ c.toNat ∧ c.toNat ≤ 0xbf) ∧
      (0x80 ≤ d.toNat ∧ d.toNat ≤ 0xbf) ∧ (a.toNat = 0xf0 → 0x90 ≤ b.toNat) ∧
      n = (((a.toNat - 0xf0) * 64 + (b.toNat - 0x80)) * 64 + (c.toNat - 0x80)) * 64
        + (d.toNat - 0x80) := by
  cases h with
  | @one a _ ha hn => exact .inl ⟨a, rfl, ha, hn⟩
  | @two a b _ ha hb hn => exact .inr (.inl ⟨a, b, rfl, ha, isContinuation_iff.mp hb, hn⟩)
  | @three a b c _ ha hb hc hn =>
      obtain ⟨hb, hlow, -⟩ := isSecondOfThree_iff.mp hb
      exact .inr (.inr (.inl ⟨a, b, c, rfl, ha, hb, isContinuation_iff.mp hc, hlow, hn⟩))
  | @four a b c d _ ha hb hc hd hn =>
      obtain ⟨hb, hlow, -⟩ := isSecondOfFour_iff.mp hb
      exact .inr (.inr (.inr ⟨a, b, c, d, rfl, ha, hb, isContinuation_iff.mp hc,
        isContinuation_iff.mp hd, hlow, hn⟩))

theorem cons_lt_cons_iff {a b : UInt8} {as bs : Bytes} :
    a :: as < b :: bs ↔ a.toNat < b.toNat ∨ a.toNat = b.toNat ∧ as < bs := by
  rw [List.cons_lt_cons_iff, UInt8.lt_iff_toNat_lt, UInt8.toNat_inj]

/-- The bytes of a smaller character come first, whatever stands behind them. -/
theorem Spells.append_lt {bytes bytes' : Bytes} {n m : Nat} (h : Spells bytes n)
    (h' : Spells bytes' m) (hlt : n < m) (rest rest' : Bytes) :
    bytes ++ rest < bytes' ++ rest' := by
  rcases h.numbers with ⟨a, rfl, _⟩ | ⟨a, b, rfl, _⟩ | ⟨a, b, c, rfl, _⟩ | ⟨a, b, c, d, rfl, _⟩ <;>
    rcases h'.numbers with ⟨a', rfl, _⟩ | ⟨a', b', rfl, _⟩ | ⟨a', b', c', rfl, _⟩ |
      ⟨a', b', c', d', rfl, _⟩ <;>
    simp only [List.cons_append, cons_lt_cons_iff] <;>
    omega

/-- **Texts are in the order of their bytes.** -/
theorem encode_lt {cs ds : List Char} (h : cs < ds) : encode cs < encode ds := by
  induction cs generalizing ds with
  | nil =>
      cases ds with
      | nil => exact absurd h (List.lt_irrefl _)
      | cons d ds =>
          obtain ⟨a, as, hbytes⟩ := List.exists_cons_of_ne_nil (@String.utf8EncodeChar_ne_nil d)
          show [] < String.utf8EncodeChar d ++ encode ds
          rw [hbytes]
          exact List.nil_lt_cons a _
  | cons c cs ih =>
      cases ds with
      | nil => exact absurd h (List.not_lt_nil _)
      | cons d ds =>
          show String.utf8EncodeChar c ++ encode cs < String.utf8EncodeChar d ++ encode ds
          rcases List.cons_lt_cons_iff.mp h with hchar | ⟨rfl, hrest⟩
          · exact (spells_encodeChar c).append_lt (spells_encodeChar d) hchar _ _
          · exact List.append_left_lt (ih hrest)

theorem encodeString_lt {a b : String} (h : a < b) : encodeString a < encodeString b :=
  encode_lt (String.lt_iff.mp h)

end VServer.Text
