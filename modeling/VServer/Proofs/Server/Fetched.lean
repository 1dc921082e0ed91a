/-
Fetching no more than a message needs.

`serve` is given a stream as a whole, and the program has one that is still being written.  A
client sends a request and waits for the answer, so a server that asks for one byte behind the
request waits for ever.  The program therefore fetches a line, or a number of bytes, whenever
`wants` asks for it, and takes a turn when nothing more is wanted or the stream has ended.

What has to be shown is that such a turn is the one that `serve` takes.  A read looks at its bytes
from the front, so bytes at the end can change it in two ways only: they complete a header line
that was not finished, or a body that was too short.  `wants` asks for more in just these cases.
In all others the read is the same whatever follows, and what follows is left behind it
(`read_fetched`).  So a turn on the fetched bytes, followed by serving the bytes that it leaves and
those still to come, is `serve` on all of them (`serve_fetched`), and that is the loop of the
program.

The other half is that nothing is asked for behind a message: a frame that has arrived as a whole
wants nothing (`wants_block`).
-/
import VServer.Proofs.Protocol.Framing
import VServer.Proofs.Server.Run

namespace VServer

open Text (Bytes)

namespace Frame

/-! ### What follows a finished line

A line with its newline is cut off at the same place whatever follows.  The headers stop at a line,
so their lines together end in a newline exactly if the last of them has one; the lines before it
have theirs, since a line without one takes all the bytes there are.
-/

theorem splitLine_append_of_newline {bytes : Bytes} (h : 10 ∈ bytes) (behind : Bytes) :
    splitLine (bytes ++ behind) = ((splitLine bytes).1, (splitLine bytes).2 ++ behind) := by
  induction bytes with
  | nil => simp at h
  | cons b bs ih =>
      by_cases hb : b = 10
      · simp [splitLine, hb]
      · have hbs : 10 ∈ bs := (List.mem_cons.mp h).resolve_left (Ne.symm hb)
        simp [splitLine, hb, ih hbs]

/-- Behind a line that does not stop the headers there is another one, so the lines that are left
end in the newline that all of them end in. -/
theorem exists_later_lines {fuel : Nat} {told : Option Nat} {bytes lines rest : Bytes}
    {headers : Headers} (hfuel : (splitLine bytes).2.length < fuel)
    (hread : readHeadersIn fuel told (splitLine bytes).2 = (headers, rest))
    (hend : headers.isEnd = false) (hlines : lines ++ rest = bytes)
    (hlast : lines.getLast? = some 10) :
    ∃ later, later ++ rest = (splitLine bytes).2 ∧ later.getLast? = some 10 := by
  have hadvance := readHeadersIn_advance fuel told _ hfuel
  rw [hread] at hadvance
  obtain ⟨later, hlater⟩ := hadvance.suffix
  have hne : later ≠ [] := by
    rintro rfl
    have hshorter := hadvance.shorter hend
    simp [← hlater] at hshorter
  have hsame : lines ++ rest = ((splitLine bytes).1 ++ later) ++ rest := by
    rw [hlines, List.append_assoc, hlater, splitLine_append]
  rw [List.append_cancel_right hsame, List.getLast?_append_of_ne_nil _ hne] at hlast
  exact ⟨later, hlater, hlast⟩

/-- Headers that stop at a finished line stop there whatever follows. -/
theorem readHeadersIn_append (behind : Bytes) :
    ∀ (fuel fuel' : Nat) (told : Option Nat) (lines : Bytes) {bytes rest : Bytes}
      {headers : Headers}, bytes.length < fuel → (bytes ++ behind).length < fuel' →
      readHeadersIn fuel told bytes = (headers, rest) → headers.isEnd = false →
      lines ++ rest = bytes → lines.getLast? = some 10 →
      readHeadersIn fuel' told (bytes ++ behind) = (headers, rest ++ behind) := by
  intro fuel
  induction fuel with
  | zero => intro _ _ _ _ _ _ hlt; omega
  | succ fuel ih =>
      intro fuel' told lines bytes rest headers hlt hlt' hread hend hlines hlast
      obtain ⟨fuel', rfl⟩ : ∃ n, fuel' = n + 1 := ⟨fuel' - 1, by omega⟩
      have hnewline : 10 ∈ bytes := by
        rw [← hlines]
        exact List.mem_append_left rest (List.mem_of_getLast? hlast)
      cases bytes with
      | nil => simp at hnewline
      | cons b bs =>
          have hsplit := splitLine_append_of_newline hnewline behind
          have hshort := (splitLine_cons_suffix b bs).length_le
          -- Where the headers go on, they go on behind the line, with fewer bytes and fewer steps.
          have hgo : ∀ told', readHeadersIn fuel told' (splitLine (b :: bs)).2 = (headers, rest) →
              readHeadersIn fuel' told' ((splitLine (b :: bs)).2 ++ behind)
                = (headers, rest ++ behind) := by
            intro told' hread'
            have hfuel : (splitLine (b :: bs)).2.length < fuel := by
              simp only [List.length_cons] at hlt
              omega
            obtain ⟨later, hlater, hlast'⟩ := exists_later_lines hfuel hread' hend hlines hlast
            refine ih fuel' told' later hfuel ?_ hread' hend hlater hlast'
            simp only [List.length_append, List.length_cons] at hlt' ⊢
            omega
          rw [List.cons_append] at hsplit ⊢
          simp only [readHeadersIn, hsplit] at hread ⊢
          cases hheader : readHeader (splitLine (b :: bs)).1 with
          | error e =>
              simp only [hheader, Prod.mk.injEq] at hread ⊢
              exact ⟨hread.1, by rw [hread.2]⟩
          | ok header =>
              rw [hheader] at hread
              cases header with
              | last =>
                  cases haccept : acceptLength told <;>
                    simp only [haccept, Prod.mk.injEq] at hread ⊢ <;>
                    exact ⟨hread.1, by rw [hread.2]⟩
              | length n => exact hgo _ hread
              | other => exact hgo _ hread

/-! ### What follows a message that wants nothing -/

/-- What is wanted, told by the lines that the headers stand on. -/
theorem wants_of_readHeaders {bytes lines rest : Bytes} {headers : Headers}
    (hread : readHeaders bytes = (headers, rest)) (hlines : lines ++ rest = bytes) :
    wants bytes = if lines.getLast? = some 10 then headers.wants rest.length else .line := by
  have htake : bytes.take (bytes.length - rest.length) = lines := by
    simp [← hlines]
  simp only [wants, hread, htake]

/-- **Once nothing more is wanted, a read does not change with what follows.** -/
theorem read_fetched {bytes : Bytes} (h : wants bytes = .nothing) (behind : Bytes) :
    read (bytes ++ behind) = ((read bytes).1, (read bytes).2 ++ behind) := by
  obtain ⟨lines, hlines⟩ := (readHeaders_advance bytes).suffix
  rcases hread : readHeaders bytes with ⟨headers, rest⟩
  rw [hread] at hlines
  rw [wants_of_readHeaders hread hlines] at h
  split at h
  · rename_i hlast
    have hmore : headers.isEnd = false →
        readHeaders (bytes ++ behind) = (headers, rest ++ behind) := fun hend =>
      readHeadersIn_append behind _ _ none lines (Nat.lt_succ_self _) (Nat.lt_succ_self _) hread
        hend hlines hlast
    cases headers with
    | ended => simp [Headers.wants] at h
    | malformed e => simp only [read, hread, hmore rfl]
    | body n =>
        have hlen : n ≤ rest.length := by
          by_contra hshort
          simp [Headers.wants, Nat.lt_of_not_le hshort] at h
        have hlen' : ¬ (rest ++ behind).length < n := by
          simp only [List.length_append]
          omega
        simp only [read, hread, hmore rfl, if_neg hlen', if_neg (Nat.not_lt.mpr hlen),
          List.take_append_of_le_length hlen, List.drop_append_of_le_length hlen]
  · simp at h

/-- **A frame that has arrived as a whole wants nothing.** -/
theorem wants_block (b : Block) : wants b.bytes = .nothing := by
  have hread : readHeaders b.bytes = (.body b.body.length, b.body) := by
    simpa using readHeaders_block b []
  have hlast : (b.lines.flatMap lineBytes).getLast? = some 10 := by
    rw [Block.lines, List.flatMap_append, List.flatMap_singleton, lineBytes, ← List.append_assoc,
      List.getLast?_concat]
  rw [wants_of_readHeaders hread rfl, if_pos hlast]
  exact if_neg (Nat.lt_irrefl _)

end Frame

namespace Server

/--
**The loop of the program is `serve`.**  Let some bytes of a stream have been fetched, so many that
the next message wants nothing more, or all there are.  Then to serve the stream is to take a turn
on these bytes and, unless that stops the server, to serve what the turn leaves of them and the
bytes still to come.
-/
theorem serve_fetched {fetched behind : Bytes}
    (h : Frame.wants fetched = .nothing ∨ behind = []) (session : Session) :
    serve session (fetched ++ behind) = (turn session fetched).1.andThen fun session' =>
      serve session' ((turn session fetched).2 ++ behind) := by
  have hturn : turn session (fetched ++ behind)
      = ((turn session fetched).1, (turn session fetched).2 ++ behind) := by
    rcases h with h | rfl
    · simp only [turn, Frame.read_fetched h]
    · simp only [List.append_nil]
  rw [serve_eq, hturn]

end Server

end VServer
