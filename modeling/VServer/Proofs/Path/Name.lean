/-
The name that a path ends in, and its extension.

A text is cut at the last occurrence of a character exactly where the character does not occur
behind the cut.  That says where the extension of a name starts.  A name without slashes is the
name of every path that it is joined to.  The directory that a path lies in has the segments of the
path but the last one.

Two views of a path are used side by side.  One is the text, which is cut from behind to find a
name and an extension.  The other is the list of its segments, which is what a path means: two
slashes in a row, or a dot between them, add no segment.  The lemmas go from the first to the
second, so that files can be found by segments and nothing has to be cut again.
-/
import VServer.Path
import Mathlib.Data.List.TakeWhile

namespace VServer.Path

/-! ### Cuts -/

theorem splitAtLast?_append (sep : Char) (before : List Char) {after : List Char}
    (h : sep ∉ after) : splitAtLast? sep (before ++ sep :: after) = some (before, after) := by
  have hall : ∀ c ∈ after.reverse, (c != sep) = true := by
    intro c hc
    simpa using fun heq : c = sep => h (heq ▸ List.mem_reverse.mp hc)
  have hreverse : (before ++ sep :: after).reverse = after.reverse ++ sep :: before.reverse := by
    simp
  simp only [splitAtLast?, hreverse, List.dropWhile_append_of_pos hall,
    List.takeWhile_append_of_pos hall]
  simp

theorem splitAtLast?_of_notMem {sep : Char} {cs : List Char} (h : sep ∉ cs) :
    splitAtLast? sep cs = none := by
  have hnil : cs.reverse.dropWhile (· != sep) = [] := by
    rw [List.dropWhile_eq_nil_iff]
    intro c hc
    simpa using fun heq : c = sep => h (heq ▸ List.mem_reverse.mp hc)
  simp only [splitAtLast?, hnil]

/-- A text has no cut, or it is cut at an occurrence that has none behind it. -/
theorem splitAtLast?_cases (sep : Char) (cs : List Char) :
    (sep ∉ cs ∧ splitAtLast? sep cs = none) ∨
      ∃ before after, cs = before ++ sep :: after ∧ sep ∉ after ∧
        splitAtLast? sep cs = some (before, after) := by
  by_cases hmem : sep ∈ cs
  · -- The first occurrence from behind is the last one.
    obtain ⟨after, before, hreverse, hafter⟩ :=
      List.eq_append_cons_of_mem (List.mem_reverse.mpr hmem)
    have hsplit : cs = before.reverse ++ sep :: after.reverse := by
      rw [← List.reverse_reverse cs, hreverse]
      simp
    have hlast : sep ∉ after.reverse := fun hc => hafter (List.mem_reverse.mp hc)
    exact .inr ⟨_, _, hsplit, hlast, by rw [hsplit, splitAtLast?_append sep _ hlast]⟩
  · exact .inl ⟨hmem, splitAtLast?_of_notMem hmem⟩

/-- An extension is what stands behind the last dot, if something stands in front of it. -/
theorem splitExtension_append {stem : List Char} (hstem : stem ≠ []) (ext : List Char)
    (hext : '.' ∉ ext) :
    splitExtension (String.ofList (stem ++ '.' :: ext))
      = (String.ofList stem, some (String.ofList ext)) := by
  obtain ⟨c, cs, rfl⟩ := List.exists_cons_of_ne_nil hstem
  simp only [splitExtension, String.toList_ofList, splitAtLast?_append '.' (c :: cs) hext]

theorem eq_append_of_splitExtension {name stem ext : String}
    (h : splitExtension name = (stem, some ext)) :
    stem.toList ≠ [] ∧ name = String.ofList (stem.toList ++ '.' :: ext.toList) := by
  unfold splitExtension at h
  rcases splitAtLast?_cases '.' name.toList with ⟨-, hnone⟩ | ⟨before, after, hname, -, hsome⟩
  · rw [hnone] at h
    cases h
  · rw [hsome] at h
    cases before with
    | nil => cases h
    | cons c cs =>
        obtain ⟨rfl, hext⟩ := Prod.mk.inj h
        obtain rfl := Option.some.inj hext
        rw [String.toList_ofList, String.toList_ofList, ← hname, String.ofList_toList]
        exact ⟨List.cons_ne_nil c cs, rfl⟩

/-! ### The last name of a path -/

theorem splitOnChar_of_notMem {sep : Char} {cs : List Char} (h : sep ∉ cs) :
    splitOnChar sep cs = [cs] := by
  induction cs with
  | nil => rfl
  | cons c cs ih =>
      have hc : c ≠ sep := fun heq => h (heq ▸ List.mem_cons_self)
      rw [splitOnChar, if_neg hc, ih fun hmem => h (List.mem_cons_of_mem c hmem)]

theorem splitOnChar_ne_nil (sep : Char) (cs : List Char) : splitOnChar sep cs ≠ [] := by
  cases cs with
  | nil => simp [splitOnChar]
  | cons c cs =>
      rw [splitOnChar]
      split
      · simp
      · split <;> simp

theorem splitOnChar_append (sep : Char) (cs ds : List Char) :
    splitOnChar sep (cs ++ sep :: ds) = splitOnChar sep cs ++ splitOnChar sep ds := by
  induction cs with
  | nil => simp [splitOnChar]
  | cons c cs ih =>
      rw [List.cons_append, splitOnChar, splitOnChar, ih]
      split
      · rfl
      · obtain ⟨part, parts, hparts⟩ := List.exists_cons_of_ne_nil (splitOnChar_ne_nil sep cs)
        rw [hparts]
        rfl

/-- A name that a path can end in: no slash is in it, and it says something. -/
structure IsName (name : String) : Prop where
  slash : '/' ∉ name.toList
  empty : name ≠ ""
  dot : name ≠ "."
  parent : name ≠ ".."

theorem IsName.segments {name : String} (h : IsName name) : segments name = [name] := by
  rw [Path.segments, splitOnChar_of_notMem h.slash]
  simp [h.empty, h.dot]

theorem segments_slash (base name : String) :
    segments (base ++ "/" ++ name) = segments base ++ segments name := by
  have hlist : (base ++ "/" ++ name).toList = base.toList ++ '/' :: name.toList := by
    simp
  simp only [segments, hlist, splitOnChar_append, List.map_append, List.filter_append]

theorem IsName.segments_join {name : String} (h : IsName name) (base : String) :
    ∃ front, Path.segments (join base name) = front ++ [name] := by
  have hrelative : isAbsolute name = false := by
    rw [isAbsolute, beq_eq_false_iff_ne]
    intro hhead
    exact h.slash (List.mem_of_mem_head? hhead)
  unfold join
  rw [hrelative, Bool.false_or]
  split
  · exact ⟨[], h.segments⟩
  · split
    · rename_i hslash
      -- The slash at the end of the base is the one between base and name.
      obtain ⟨before, hbase⟩ := List.getLast?_eq_some_iff.mp (beq_iff_eq.mp hslash)
      have hsplit : base = String.ofList before ++ "/" := by
        rw [← String.toList_inj, hbase]
        simp
      exact ⟨Path.segments (String.ofList before), by rw [hsplit, segments_slash, h.segments]⟩
    · exact ⟨Path.segments base, by rw [segments_slash, h.segments]⟩

/-- **A name is the last one of every path that it is joined to.** -/
theorem IsName.fileName?_join {name : String} (h : IsName name) (base : String) :
    fileName? (join base name) = some name := by
  obtain ⟨front, hfront⟩ := h.segments_join base
  rw [fileName?, hfront, List.getLast?_concat]
  exact if_neg h.parent

/-! ### The directory that a path lies in

The parent of a path is put together anew from segments, with a slash in front if the path is
absolute.  Its segments are those it was made of, since none of them is empty, is a dot or has a
slash in it.
-/

theorem notMem_of_mem_splitOnChar {sep : Char} {cs part : List Char}
    (h : part ∈ splitOnChar sep cs) : sep ∉ part := by
  induction cs generalizing part with
  | nil =>
      obtain rfl := List.mem_singleton.mp h
      exact List.not_mem_nil
  | cons c cs ih =>
      rw [splitOnChar] at h
      split at h
      · rcases List.mem_cons.mp h with rfl | h
        · exact List.not_mem_nil
        · exact ih h
      · rename_i hc
        obtain ⟨first, parts, hparts⟩ := List.exists_cons_of_ne_nil (splitOnChar_ne_nil sep cs)
        rw [hparts] at h ih
        rcases List.mem_cons.mp h with rfl | h
        · intro hmem
          rcases List.mem_cons.mp hmem with rfl | hmem
          · exact hc rfl
          · exact ih List.mem_cons_self hmem
        · exact ih (List.mem_cons_of_mem first h)

theorem exists_mem_splitOnChar {sep c : Char} (hc : c ≠ sep) {cs : List Char} (h : c ∈ cs) :
    ∃ part ∈ splitOnChar sep cs, c ∈ part := by
  induction cs with
  | nil => exact absurd h List.not_mem_nil
  | cons d cs ih =>
      obtain ⟨first, parts, hparts⟩ := List.exists_cons_of_ne_nil (splitOnChar_ne_nil sep cs)
      rw [splitOnChar, hparts]
      rw [hparts] at ih
      rcases List.mem_cons.mp h with rfl | h
      · rw [if_neg hc]
        exact ⟨c :: first, List.mem_cons_self, List.mem_cons_self⟩
      · obtain ⟨part, hpart, hmem⟩ := ih h
        split
        · exact ⟨part, List.mem_cons_of_mem _ hpart, hmem⟩
        · rcases List.mem_cons.mp hpart with rfl | hpart
          · exact ⟨d :: part, List.mem_cons_self, List.mem_cons_of_mem d hmem⟩
          · exact ⟨part, List.mem_cons_of_mem _ hpart, hmem⟩

/-- A segment is filled, is no dot and has no slash. -/
theorem of_mem_segments {path x : String} (h : x ∈ segments path) :
    x ≠ "" ∧ x ≠ "." ∧ '/' ∉ x.toList := by
  obtain ⟨hmem, hx⟩ := List.mem_filter.mp h
  obtain ⟨part, hpart, rfl⟩ := List.mem_map.mp hmem
  obtain ⟨hempty, hdot⟩ : String.ofList part ≠ "" ∧ String.ofList part ≠ "." := by simpa using hx
  refine ⟨hempty, hdot, ?_⟩
  rw [String.toList_ofList]
  exact notMem_of_mem_splitOnChar hpart

theorem segments_of_mem {path x : String} (h : x ∈ segments path) : segments x = [x] := by
  obtain ⟨hempty, hdot, hslash⟩ := of_mem_segments h
  rw [segments, splitOnChar_of_notMem hslash]
  simp [hempty, hdot]

theorem segments_intercalate (parts : List String) :
    segments ("/".intercalate parts) = parts.flatMap segments := by
  induction parts with
  | nil => rfl
  | cons part parts ih =>
      cases parts with
      | nil => simp [String.intercalate_singleton]
      | cons next parts =>
          rw [String.intercalate_cons_cons, segments_slash, ih]
          exact List.flatMap_cons.symm

theorem flatMap_segments {path : String} {parts : List String}
    (h : ∀ x ∈ parts, x ∈ segments path) : parts.flatMap segments = parts := by
  induction parts with
  | nil => rfl
  | cons x parts ih =>
      obtain ⟨hx, hlater⟩ := List.forall_mem_cons.mp h
      rw [List.flatMap_cons, segments_of_mem hx, ih hlater]
      rfl

theorem segments_rooted (path : String) : segments ("/" ++ path) = segments path :=
  segments_slash "" path

/-- The directory that a path lies in, with a dot in front of it if the path has one. -/
theorem exists_lead_of_parent {path parent : String} (h : parent? path = some parent) :
    ∃ lead, (lead = [] ∨ lead = ["."]) ∧
      parent = if isAbsolute path then "/" ++ "/".intercalate (lead ++ segments path).dropLast
        else "/".intercalate (lead ++ segments path).dropLast := by
  simp only [parent?] at h
  generalize hlead : (if (!isAbsolute path &&
    (splitOnChar '/' path.toList).head? == some ['.']) = true then ["."] else []) = lead at h
  have hcases : lead = [] ∨ lead = ["."] := by
    rw [← hlead]
    split
    · exact .inr rfl
    · exact .inl rfl
  refine ⟨lead, hcases, ?_⟩
  split at h
  · cases h
  · exact (Option.some.inj h).symm

/-- **The directory that a path lies in has the segments of the path but the last one.** -/
theorem segments_parent {path parent : String} (h : parent? path = some parent) :
    segments parent = (segments path).dropLast := by
  obtain ⟨lead, hlead, rfl⟩ := exists_lead_of_parent h
  have hkept : segments ("/".intercalate (lead ++ segments path).dropLast)
      = (segments path).dropLast := by
    rw [segments_intercalate]
    by_cases hnone : segments path = []
    · rw [hnone, List.append_nil]
      rcases hlead with rfl | rfl <;> rfl
    · have hdots : lead.flatMap segments = [] := by
        rcases hlead with rfl | rfl <;> rfl
      rw [List.dropLast_append_of_ne_nil hnone, List.flatMap_append, hdots, List.nil_append]
      exact flatMap_segments fun x hx => (List.dropLast_sublist _).subset hx
  split
  · rw [segments_rooted, hkept]
  · exact hkept

/-- What lies in no directory has no segments. -/
theorem segments_of_root {path : String} (h : parent? path = none) : segments path = [] := by
  by_contra hfilled
  have hparts : ∀ lead : List String, ¬ (lead ++ segments path).isEmpty = true := by
    simp [hfilled]
  rw [parent?, if_neg (hparts _)] at h
  cases h

theorem isAbsolute_append_of_ne_empty {first : String} (h : first ≠ "") (rest : String) :
    isAbsolute (first ++ rest) = isAbsolute first := by
  have hfilled : first.toList ≠ [] := by simpa using h
  obtain ⟨c, cs, hfirst⟩ := List.exists_cons_of_ne_nil hfilled
  rw [isAbsolute, isAbsolute, String.toList_append, hfirst]
  rfl

theorem not_isAbsolute_of_notMem {x : String} (h : '/' ∉ x.toList) : isAbsolute x = false := by
  rw [isAbsolute, beq_eq_false_iff_ne]
  exact fun hhead => h (List.mem_of_mem_head? hhead)

theorem not_isAbsolute_intercalate {parts : List String}
    (h : ∀ x ∈ parts, x ≠ "" ∧ '/' ∉ x.toList) : isAbsolute ("/".intercalate parts) = false := by
  cases parts with
  | nil => rfl
  | cons x parts =>
      obtain ⟨hempty, hslash⟩ := h x List.mem_cons_self
      cases parts with
      | nil =>
          rw [String.intercalate_singleton]
          exact not_isAbsolute_of_notMem hslash
      | cons next parts =>
          rw [String.intercalate_cons_cons, String.append_assoc,
            isAbsolute_append_of_ne_empty hempty]
          exact not_isAbsolute_of_notMem hslash

/-- The directory that a path lies in starts where the path starts. -/
theorem isAbsolute_parent {path parent : String} (h : parent? path = some parent) :
    isAbsolute parent = isAbsolute path := by
  obtain ⟨lead, hlead, rfl⟩ := exists_lead_of_parent h
  by_cases hrooted : isAbsolute path = true
  · rw [if_pos hrooted, hrooted]
    exact isAbsolute_append_of_ne_empty (by decide) _
  · rw [if_neg hrooted, Bool.eq_false_iff.mpr hrooted]
    refine not_isAbsolute_intercalate fun x hx => ?_
    rcases List.mem_append.mp ((List.dropLast_sublist _).subset hx) with hx | hx
    · rcases hlead with rfl | rfl
      · exact absurd hx List.not_mem_nil
      · obtain rfl := List.mem_singleton.mp hx
        exact ⟨by decide, by decide⟩
    · obtain ⟨hempty, -, hslash⟩ := of_mem_segments hx
      exact ⟨hempty, hslash⟩

end VServer.Path
