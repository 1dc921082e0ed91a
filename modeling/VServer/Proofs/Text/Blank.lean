/-
What trimming leaves.

Blanks around a text do not change what is left of it, and a text with no blank at either end is
left as it is.

Trimming works on both ends, and the end of a list is the hard one.  So the lemmas are stated for
one blank at an end, and for texts that can be seen to have none there (`Trimmed`), which is enough
for every text that is put together from others.
-/
import VServer.Text.Blank
import Mathlib.Data.List.Basic

namespace VServer.Text

theorem trimRight_append_blank (cs : List Char) {c : Char} (hc : isBlank c = true) :
    trimRight (cs ++ [c]) = trimRight cs := by
  simp [trimRight, hc]

theorem trim_append_blank (cs : List Char) {c : Char} (hc : isBlank c = true) :
    trim (cs ++ [c]) = trim cs := by
  unfold trim
  rw [List.dropWhile_append]
  split
  · rename_i hempty
    rw [List.isEmpty_iff.mp hempty]
    simp [hc]
  · exact trimRight_append_blank _ hc

theorem trim_cons_blank (cs : List Char) {c : Char} (hc : isBlank c = true) :
    trim (c :: cs) = trim cs := by
  simp [trim, hc]

/-- A text that neither starts nor ends with a blank is its own trimming. -/
theorem trim_eq_self {cs : List Char} (hfirst : ∀ c ∈ cs.head?, isBlank c = false)
    (hlast : ∀ c ∈ cs.getLast?, isBlank c = false) : trim cs = cs := by
  have hleft : cs.dropWhile isBlank = cs := by
    cases cs with
    | nil => rfl
    | cons c cs => simp [hfirst c rfl]
  unfold trim trimRight
  rw [hleft]
  rcases hrev : cs.reverse with _ | ⟨c, ds⟩
  · simpa using hrev.symm
  · have hc : isBlank c = false := hlast c (by rw [← List.head?_reverse, hrev]; rfl)
    rw [List.dropWhile_cons, hc, ← hrev]
    simp

/-- A text with something other than blanks at both ends. -/
structure Trimmed (cs : List Char) : Prop where
  first : ∃ c rest, cs = c :: rest ∧ isBlank c = false
  last : ∃ before c, cs = before ++ [c] ∧ isBlank c = false

theorem Trimmed.append {cs ds : List Char} (h : Trimmed cs) (between : List Char)
    (h' : Trimmed ds) : Trimmed (cs ++ (between ++ ds)) := by
  obtain ⟨c, rest, rfl, hc⟩ := h.first
  obtain ⟨before, d, rfl, hd⟩ := h'.last
  exact ⟨⟨c, _, rfl, hc⟩, c :: rest ++ between ++ before, d, by simp, hd⟩

theorem Trimmed.trim {cs : List Char} (h : Trimmed cs) : trim cs = cs := by
  obtain ⟨c, rest, hfirst, hc⟩ := h.first
  obtain ⟨before, d, hlast, hd⟩ := h.last
  refine trim_eq_self ?_ ?_
  · rw [hfirst]
    simpa using hc
  · rw [hlast]
    simpa using hd

end VServer.Text
