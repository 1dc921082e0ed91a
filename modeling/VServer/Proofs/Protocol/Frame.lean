/-
Reading a frame uses up bytes.

`readHeadersIn` and `readAllIn` count their steps down from a fuel.  What has to be known of them
is that the fuel is never what stops them, and the reason is one fact: a header line holds at
least one byte, so each line leaves a shorter stream.  From that, a read that does not report the
end of the stream leaves less than it found, and a read that reports it leaves nothing.

`Advance` says both at once and is carried from the line, over the headers, to the whole frame.
-/
import VServer.Protocol.Frame
import Mathlib.Data.List.Basic

namespace VServer

open Text (Bytes)

/-- Whether a result of reading is the end of the stream. -/
def Received.isEnd : Received → Bool
  | .ended _ => true
  | _ => false

namespace Frame

/-- What reading from `bytes` leaves behind: the end of what was there, shorter than it unless the
stream has ended, and nothing if it has. -/
structure Advance (ended : Bool) (bytes rest : Bytes) : Prop where
  suffix : rest <:+ bytes
  shorter : ended = false → rest.length < bytes.length
  drained : ended = true → rest = []

/-- A longer stream before the first read does not matter to what is left at the end. -/
theorem Advance.of_suffix {ended : Bool} {bytes middle rest : Bytes} (h : Advance ended middle rest)
    (hm : middle <:+ bytes) : Advance ended bytes rest where
  suffix := h.suffix.trans hm
  shorter he := Nat.lt_of_lt_of_le (h.shorter he) hm.length_le
  drained := h.drained

/-! ### One line -/

theorem splitLine_append (bytes : Bytes) :
    (splitLine bytes).1 ++ (splitLine bytes).2 = bytes := by
  induction bytes with
  | nil => rfl
  | cons b bs ih =>
      by_cases hb : b = 10
      · simp [splitLine, hb]
      · simp [splitLine, hb, ih]

/-- A line takes its first byte with it, so what is left is part of the bytes behind that one. -/
theorem splitLine_cons_suffix (b : UInt8) (bs : Bytes) : (splitLine (b :: bs)).2 <:+ bs := by
  by_cases hb : b = 10
  · simp [splitLine, hb]
  · simp only [splitLine, hb, if_false]
    exact ⟨(splitLine bs).1, splitLine_append bs⟩

/-! ### The headers

The fuel that `readHeaders` starts with exceeds the number of bytes, and each line lowers both by
at least one.  So the branch without fuel is never reached, and the fuel can be any number above
the length of the stream.
-/

/-- Whether the stream ended before the headers did. -/
def Headers.isEnd : Headers → Bool
  | .ended => true
  | _ => false

theorem readHeadersIn_advance :
    ∀ (fuel : Nat) (told : Option Nat) (bytes : Bytes), bytes.length < fuel →
      Advance (readHeadersIn fuel told bytes).1.isEnd bytes (readHeadersIn fuel told bytes).2 := by
  intro fuel
  induction fuel with
  | zero => intro told bytes hlt; omega
  | succ fuel ih =>
      intro told bytes hlt
      cases bytes with
      | nil => exact ⟨List.suffix_refl _, by simp [readHeadersIn, Headers.isEnd], fun _ => rfl⟩
      | cons b bs =>
          have hrest : (splitLine (b :: bs)).2 <:+ bs := splitLine_cons_suffix b bs
          have hlen : (splitLine (b :: bs)).2.length < (b :: bs).length :=
            Nat.lt_succ_of_le hrest.length_le
          have hsuffix : (splitLine (b :: bs)).2 <:+ b :: bs := hrest.trans (List.suffix_cons b bs)
          have hstop : Advance false (b :: bs) (splitLine (b :: bs)).2 :=
            ⟨hsuffix, fun _ => hlen, by simp⟩
          have hgo : ∀ told',
              Advance (readHeadersIn fuel told' (splitLine (b :: bs)).2).1.isEnd (b :: bs)
                (readHeadersIn fuel told' (splitLine (b :: bs)).2).2 :=
            fun told' => (ih told' _ (by simp only [List.length_cons] at hlt hlen; omega)).of_suffix
              hsuffix
          simp only [readHeadersIn]
          split
          · exact hstop
          · split
            · exact hstop
            · exact hstop
          · exact hgo _
          · exact hgo _

theorem readHeaders_advance (bytes : Bytes) :
    Advance (readHeaders bytes).1.isEnd bytes (readHeaders bytes).2 :=
  readHeadersIn_advance _ none bytes (Nat.lt_succ_self _)

/-! ### The frame -/

/-- A body is a message or it is malformed; it is never the end of the stream. -/
theorem readBody_isEnd (body : Bytes) : (readBody body).isEnd = false := by
  unfold readBody
  split
  · rfl
  · split <;> rfl

/-- **A read leaves less than it found, or it has come to the end and leaves nothing.** -/
theorem read_advance (bytes : Bytes) :
    Advance (read bytes).1.isEnd bytes (read bytes).2 := by
  have hheaders := readHeaders_advance bytes
  unfold read
  split
  · rename_i rest heq
    rw [heq] at hheaders
    exact hheaders
  · rename_i e rest heq
    rw [heq] at hheaders
    exact hheaders
  · rename_i n rest heq
    rw [heq] at hheaders
    split
    · exact ⟨List.nil_suffix, by simp [Received.isEnd], fun _ => rfl⟩
    · -- The headers alone are shorter than the stream, whatever the length of the body.
      have hdrop : rest.drop n <:+ rest := List.drop_suffix n rest
      refine ⟨hdrop.trans hheaders.suffix, fun _ => ?_, ?_⟩
      · exact Nat.lt_of_le_of_lt hdrop.length_le (hheaders.shorter rfl)
      · intro hend
        rw [readBody_isEnd] at hend
        simp at hend

/-- The bytes left behind a message or a malformed frame are fewer. -/
theorem read_length_lt {bytes rest : Bytes} {received : Received}
    (hread : read bytes = (received, rest)) (hend : received.isEnd = false) :
    rest.length < bytes.length := by
  have h := read_advance bytes
  rw [hread] at h
  exact h.shorter hend

/-! ### The stream -/

/-- One step of reading all, if it is not the last one. -/
theorem readAllIn_succ {fuel : Nat} {bytes rest : Bytes} {received : Received}
    (hread : read bytes = (received, rest)) (hend : received.isEnd = false) :
    readAllIn (fuel + 1) bytes = received :: readAllIn fuel rest := by
  cases received with
  | ended how => simp [Received.isEnd] at hend
  | message m => simp [readAllIn, hread]
  | malformed e => simp [readAllIn, hread]

theorem readAllIn_fuel :
    ∀ (fuel fuel' : Nat) (bytes : Bytes), bytes.length < fuel → bytes.length < fuel' →
      readAllIn fuel bytes = readAllIn fuel' bytes := by
  intro fuel
  induction fuel with
  | zero => intro fuel' bytes hlt; omega
  | succ fuel ih =>
      intro fuel' bytes hlt hlt'
      cases fuel' with
      | zero => omega
      | succ fuel' =>
          rcases hread : read bytes with ⟨received, rest⟩
          by_cases hend : received.isEnd = false
          · have hshort := read_length_lt hread hend
            rw [readAllIn_succ hread hend, readAllIn_succ hread hend,
              ih fuel' rest (by omega) (by omega)]
          · cases received with
            | ended how => simp [readAllIn, hread]
            | message m => simp [Received.isEnd] at hend
            | malformed e => simp [Received.isEnd] at hend

/-- The results of a stream that has ended. -/
theorem readAll_of_end {bytes rest : Bytes} {how : StreamEnd}
    (hread : read bytes = (.ended how, rest)) : readAll bytes = [.ended how] := by
  simp [readAll, readAllIn, hread]

/-- The results of a stream are the first one and those of what it leaves. -/
theorem readAll_of_read {bytes rest : Bytes} {received : Received}
    (hread : read bytes = (received, rest)) (hend : received.isEnd = false) :
    readAll bytes = received :: readAll rest := by
  have hshort := read_length_lt hread hend
  rw [readAll, readAllIn_succ hread hend, readAll,
    readAllIn_fuel bytes.length (rest.length + 1) rest hshort (Nat.lt_succ_self _)]

end Frame

end VServer
