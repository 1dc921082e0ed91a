/-
Making directories.

A directory is made with those above it, from the first one that is missing on.  All that was there
stays, and what is new are directories, each of which has the name of a path above the given one
(`Made.makes`).

What was made is empty.  A path without steps to a parent never leaves a directory that was made, so
if a directory had to be made for it, the path leads to a place at which nothing was before
(`Made.fresh`).  A step to a parent can lead out again, to what has been there all the time.

`Made` lists the ways in which the recursion can end: at the root, at a directory that is there, at
one that could be made right away, behind the one above it, or with an error.  It stands for the
function from there on, so the two results are inductions on it and do not look at the fuel.  That
what was made is empty needs a tree in which everything lies in a directory (`Rooted`): in a tree
with something below a missing directory, making that directory would put something into it.
-/
import VServer.Proofs.Files.Leads
import VServer.Proofs.Path.Name

namespace VServer.Files

variable {files larger : Files}

/-! ### The place of an entry

The last name of a path is not followed when a directory is made or a file is removed, so a link at
the end of the path counts as itself.  `EntryAt` says where such a name stands: in the directory
that the names in front of it lead to.
-/

theorem segments_eq_filter (path : String) :
    Path.segments path = (names path).filter (· != ".") := by
  rw [names, List.filter_filter, Path.segments]
  simp only [Bool.and_comm]

theorem ne_empty_of_mem_names {path x : String} (h : x ∈ names path) : x ≠ "" := by
  simpa using (List.mem_filter.mp h).2

/-- The last name of a path stands in a directory that the names before it lead to. -/
structure EntryAt (files : Files) (path : String) (front : List String) (last : String) (left : Nat)
    (parent : Place) : Prop where
  check : checkPath path = .ok ()
  names_eq : names path = front ++ [last]
  isStep : IsStep last
  leads : Leads files linkLimit (files.startOf path) front left parent
  directory : files.node? parent = some .directory

theorem entryOf_eq {path last : String} {front : List String} (hcheck : checkPath path = .ok ())
    (hnames : names path = front ++ [last]) :
    files.entryOf path =
      files.walk .find linkLimit (files.startOf path) (front ++ [""]) >>= fun parent =>
        if last = "." || last = ".." then .ok none
        else if nameLimit < last.utf8ByteSize then .error .nameTooLong
        else .ok (some (parent ++ [last])) := by
  rw [entryOf, hcheck, hnames, List.getLast?_concat, List.dropLast_concat]
  rfl

theorem EntryAt.entryOf {path last : String} {front : List String} {left : Nat} {parent : Place}
    (h : EntryAt files path front last left parent) :
    files.entryOf path = .ok (some (parent ++ [last])) := by
  have hway : Leads files linkLimit (files.startOf path) (front ++ [""]) left parent :=
    h.leads.append (.stay h.directory (.inl rfl) (.here left parent))
  have hname : ¬ (last = "." || last = "..") = true := by simp [h.isStep.dot, h.isStep.parent]
  rw [entryOf_eq h.check h.names_eq, walk_of_leads hway]
  show (if _ then _ else _) = _
  rw [if_neg hname, if_neg (Nat.not_lt.mpr h.isStep.short)]

theorem exists_entryAt {path : String} {place : Place} (h : files.entryOf path = .ok (some place)) :
    ∃ front last left parent, EntryAt files path front last left parent ∧
      place = parent ++ [last] := by
  have hcheck : checkPath path = .ok () := by
    cases hcheck : checkPath path with
    | ok _ => rfl
    | error e =>
        rw [Files.entryOf, hcheck] at h
        cases h
  rcases List.eq_nil_or_concat (names path) with hnames | ⟨front, last, hnames⟩
  · rw [Files.entryOf, hcheck, hnames] at h
    cases h
  · rw [List.concat_eq_append] at hnames
    rw [entryOf_eq hcheck hnames] at h
    cases hwalk : files.walk .find linkLimit (files.startOf path) (front ++ [""]) with
    | error e =>
        rw [hwalk] at h
        cases h
    | ok parent =>
        rw [hwalk] at h
        change (if _ then _ else _) = _ at h
        split at h
        · cases h
        rename_i hname
        split at h
        · cases h
        rename_i hlong
        obtain ⟨hdot, hup⟩ : last ≠ "." ∧ last ≠ ".." := by simpa using hname
        have hempty : last ≠ "" := ne_empty_of_mem_names (by rw [hnames]; simp)
        have hstep : IsStep last := ⟨hempty, hdot, hup, Nat.le_of_not_lt hlong⟩
        obtain ⟨left, hleads⟩ := leads_of_walk (.refl files) linkLimit _ _ _ hwalk (nomatch ·)
        obtain ⟨left', parent', hfront, hend⟩ := hleads.exists_of_append
        have hdir := hend.directory_of_cons
        obtain rfl : parent' = parent := (Leads.here left' parent').unique (hend.of_stay (.inl rfl))
        exact ⟨front, last, left', parent', ⟨hcheck, hnames, hstep, hfront, hdir⟩,
          (Option.some.inj (Except.ok.inj h)).symm⟩

/-- What stands at the entry of a path is what the path leads to, if it is a directory. -/
theorem EntryAt.resolve {path last : String} {front : List String} {left : Nat} {parent : Place}
    (h : EntryAt files path front last left parent) (hcovers : files.Covers larger)
    (hdir : larger.node? (parent ++ [last]) = some .directory) :
    larger.resolve path = .ok (parent ++ [last]) := by
  have hnames : Leads larger linkLimit (larger.startOf path) (names path) left
      (parent ++ [last]) := by
    rw [h.names_eq, hcovers.startOf]
    exact (h.leads.mono hcovers).append (.down (hcovers.directory h.directory) h.isStep
      (stands_of_directory hdir) (.here left _))
  have hsteps : Leads larger linkLimit (larger.startOf path) (steps path) left
      (parent ++ [last]) := by
    unfold steps
    split
    · exact hnames.append (.stay hdir (.inl rfl) (.here left _))
    · exact hnames
  exact resolve_of_leads h.check hsteps

/-- A path leads where its segments lead. -/
theorem leads_segments {path : String} {q : Place} (h : files.resolve path = .ok q) :
    ∃ left, Leads files linkLimit (files.startOf path) (Path.segments path) left q := by
  obtain ⟨left, hleads⟩ := leads_of_resolve h
  rw [segments_eq_filter]
  unfold steps at hleads
  split at hleads
  · obtain ⟨left', q', hnames, hend⟩ := hleads.exists_of_append
    obtain rfl : q' = q := (Leads.here left' q').unique (hend.of_stay (.inl rfl))
    exact ⟨left', hnames.filter_dots⟩
  · exact ⟨left, hleads.filter_dots⟩

/-! ### Trees with more directories -/

/-- All that was there stays, and what is new are directories. -/
structure Extends (files larger : Files) : Prop where
  cwd : larger.cwd = files.cwd
  kept : ∀ q n, files.node? q = some n → larger.node? q = some n
  new : ∀ q, files.node? q = none → larger.node? q = none ∨ larger.node? q = some .directory

namespace Extends

theorem refl (files : Files) : Extends files files :=
  ⟨rfl, fun _ _ h => h, fun _ h => .inl h⟩

theorem trans {largest : Files} (h : Extends files larger) (h' : Extends larger largest) :
    Extends files largest where
  cwd := h'.cwd.trans h.cwd
  kept := fun q n hn => h'.kept q n (h.kept q n hn)
  new := by
    intro q hq
    rcases h.new q hq with hnone | hdir
    · exact h'.new q hnone
    · exact .inr (h'.kept q _ hdir)

theorem covers (h : Extends files larger) : Covers files larger :=
  ⟨h.cwd, fun q n hn => by rw [h.kept q n hn]; rfl⟩

theorem missing (h : Extends files larger) {q : Place} (hq : larger.node? q = none) :
    files.node? q = none := by
  cases hn : files.node? q with
  | none => rfl
  | some n =>
      rw [h.kept q n hn] at hq
      cases hq

/-- What is no directory has been there before. -/
theorem of_not_directory (h : Extends files larger) {q : Place} {n : Node}
    (hn : larger.node? q = some n) (hdir : n ≠ .directory) : files.node? q = some n := by
  cases hq : files.node? q with
  | none =>
      rcases h.new q hq with hnone | hnew
      · rw [hn] at hnone
        cases hnone
      · exact absurd (Option.some.inj (hn.symm.trans hnew)) hdir
  | some n' => rw [← h.kept q n' hq, hn]

end Extends

/-! ### One directory -/

theorem makeDirectory_eq {path : String} {place : Place}
    (h : files.entryOf path = .ok (some place)) :
    files.makeDirectory path =
      match files.node? place with
      | some _ => .error .alreadyExists
      | none => .ok (files.put place .directory) := by
  rw [makeDirectory, h]
  rfl

theorem makeDirectory_ok {path : String} (h : files.makeDirectory path = .ok larger) :
    ∃ place, files.entryOf path = .ok (some place) ∧ files.node? place = none ∧
      larger = files.put place .directory := by
  cases hentry : files.entryOf path with
  | error e =>
      rw [makeDirectory, hentry] at h
      cases h
  | ok entry =>
      cases entry with
      | none =>
          rw [makeDirectory, hentry] at h
          cases h
      | some place =>
          rw [makeDirectory_eq hentry] at h
          cases hnode : files.node? place with
          | some n =>
              rw [hnode] at h
              cases h
          | none =>
              rw [hnode] at h
              exact ⟨place, rfl, hnode, (Except.ok.inj h).symm⟩

theorem put_extends {place : Place} (hplace : place ≠ []) (hnone : files.node? place = none) :
    Extends files (files.put place .directory) where
  cwd := rfl
  kept := by
    intro q n hn
    rw [node?_put hplace, if_neg, hn]
    rintro rfl
    rw [hnone] at hn
    cases hn
  new := by
    intro q hq
    rw [node?_put hplace]
    split
    · exact .inr rfl
    · exact .inl hq

/-! ### Directories one above another -/

/-- The path itself or a directory that it lies in. -/
inductive Above : String → String → Prop
  | self (path : String) : Above path path
  | parent {path parent above : String} (hparent : Path.parent? path = some parent)
      (later : Above above parent) : Above above path

/-- The second tree has more directories than the first one, each of which a path above the given
one leads to. -/
structure Makes (files larger : Files) (path : String) : Prop where
  extended : Extends files larger
  named : ∀ q, files.node? q = none → larger.node? q ≠ none →
    ∃ above, Above above path ∧ larger.resolve above = .ok q

namespace Makes

variable {path : String}

theorem refl (files : Files) (path : String) : Makes files files path :=
  ⟨.refl files, fun _ hnone hsome => absurd hnone hsome⟩

theorem trans {largest : Files} (h : Makes files larger path) (h' : Makes larger largest path) :
    Makes files largest path where
  extended := h.extended.trans h'.extended
  named := by
    intro q hnone hsome
    by_cases hq : larger.node? q = none
    · exact h'.named q hq hsome
    · obtain ⟨above, habove, hresolve⟩ := h.named q hnone hq
      exact ⟨above, habove, h'.extended.covers.resolve hresolve⟩

theorem of_parent {parent : String} (hparent : Path.parent? path = some parent)
    (h : Makes files larger parent) : Makes files larger path where
  extended := h.extended
  named := by
    intro q hnone hsome
    obtain ⟨above, habove, hresolve⟩ := h.named q hnone hsome
    exact ⟨above, .parent hparent habove, hresolve⟩

theorem of_makeDirectory (h : files.makeDirectory path = .ok larger) :
    Makes files larger path := by
  obtain ⟨place, hentry, hnone, rfl⟩ := makeDirectory_ok h
  obtain ⟨front, last, left, parent, hat, rfl⟩ := exists_entryAt hentry
  have hextends := put_extends (concat_ne_nil parent last) hnone
  refine ⟨hextends, fun q hq hsome => ⟨path, .self path, ?_⟩⟩
  rw [node?_put (concat_ne_nil parent last)] at hsome
  split at hsome
  · rename_i hplace
    rw [hplace]
    refine hat.resolve hextends.covers ?_
    rw [node?_put (concat_ne_nil parent last), if_pos rfl]
  · exact absurd hq hsome

end Makes

/-- The ways in which a directory is made with those above it, or is not. -/
inductive Made (files : Files) : String → Files × Option FileError → Prop
  | root {path : String} (hparent : Path.parent? path = none) : Made files path (files, none)
  | alone {path : String} {made : Files} (hmake : files.makeDirectory path = .ok made) :
      Made files path (made, none)
  | there {path : String} (hdir : files.isDirectory path = true) : Made files path (files, none)
  | failed (path : String) (e : FileError) : Made files path (files, some e)
  | last {path parent : String} {upper made : Files} (hparent : Path.parent? path = some parent)
      (above : Made files parent (upper, none)) (hmake : upper.makeDirectory path = .ok made) :
      Made files path (made, none)
  | lastThere {path parent : String} {upper : Files} (hparent : Path.parent? path = some parent)
      (above : Made files parent (upper, none)) (hdir : upper.isDirectory path = true) :
      Made files path (upper, none)
  | lastFailed {path parent : String} {upper : Files} {outcome : Option FileError}
      (hparent : Path.parent? path = some parent) (above : Made files parent (upper, outcome))
      (e : FileError) : Made files path (upper, some e)

theorem made_unless_directory {path : String} {e : FileError} (files : Files) :
    Made files path (files, if files.isDirectory path then none else some e) := by
  split
  · rename_i hdir
    exact .there hdir
  · exact .failed path e

theorem makeDirectoriesIn_made (fuel : Nat) (files : Files) :
    ∀ path : String, Made files path (makeDirectoriesIn fuel files path) := by
  induction fuel with
  | zero => exact fun path => .failed path _
  | succ fuel ih =>
      intro path
      unfold makeDirectoriesIn
      split
      · rename_i hparent
        exact .root hparent
      rename_i parent hparent
      split
      · rename_i made hmake
        exact .alone hmake
      · have habove := ih parent
        split
        · rename_i upper e hupper
          rw [hupper] at habove
          exact .lastFailed hparent habove e
        · rename_i upper hupper
          rw [hupper] at habove
          split
          · rename_i made hmake
            exact .last hparent habove hmake
          · split
            · rename_i hdir
              exact .lastThere hparent habove hdir
            · exact .lastFailed hparent habove _
      · exact made_unless_directory files

/-- **Making directories adds directories of the path and those above it.** -/
theorem Made.makes {path : String} {out : Files × Option FileError} (h : Made files path out) :
    Makes files out.1 path := by
  induction h with
  | root hparent => exact .refl files _
  | alone hmake => exact .of_makeDirectory hmake
  | there hdir => exact .refl files _
  | failed path e => exact .refl files _
  | last hparent _ hmake ih => exact (ih.of_parent hparent).trans (.of_makeDirectory hmake)
  | lastThere hparent _ _ ih => exact ih.of_parent hparent
  | lastFailed hparent _ _ ih => exact ih.of_parent hparent

/-! ### What was made is empty

A path that leads through a directory that was made stays inside of it, if it never steps up.
There is nothing in there but what was made with it, so its end is new as well.
-/

/-- Everything in a tree lies in a directory. -/
def Rooted (files : Files) : Prop :=
  ∀ (p : Place) (x : String), files.node? (p ++ [x]) ≠ none → files.node? p = some .directory

/-- It is enough to look at what is listed. -/
theorem rooted_of_nodes (h : ∀ n ∈ files.nodes, files.node? n.1.dropLast = some .directory) :
    files.Rooted := by
  intro p x hsome
  obtain ⟨n, hn⟩ := Option.ne_none_iff_exists'.mp hsome
  have hfind : files.nodes.lookup (p ++ [x]) = some n := by
    rwa [node?, if_neg (by simp)] at hn
  have hparent := h _ (mem_of_lookup hfind)
  rwa [List.dropLast_concat] at hparent

/-- The segments of a path lead to a place where nothing was before. -/
def LeadsToNew (files larger : Files) (path : String) : Prop :=
  ∃ left q, Leads larger linkLimit (larger.startOf path) (Path.segments path) left q ∧
    files.node? q = none

theorem exists_of_isDirectory {path : String} (h : files.isDirectory path = true) :
    ∃ q, files.resolve path = .ok q ∧ files.node? q = some .directory := by
  have hnode : files.nodeAt? path = some .directory := beq_iff_eq.mp h
  rw [nodeAt?] at hnode
  split at hnode
  · rename_i q hresolve
    exact ⟨q, hresolve, hnode⟩
  · cases hnode

/-- A directory that was made is new. -/
theorem leadsToNew_of_makeDirectory {path : String} (h : files.makeDirectory path = .ok larger) :
    LeadsToNew files larger path := by
  obtain ⟨place, hentry, hnone, rfl⟩ := makeDirectory_ok h
  obtain ⟨front, last, left, parent, hat, rfl⟩ := exists_entryAt hentry
  have hplace := concat_ne_nil parent last
  have hdir : (files.put (parent ++ [last]) .directory).node? (parent ++ [last])
      = some .directory := by
    rw [node?_put hplace, if_pos rfl]
  have hresolve := hat.resolve (put_extends hplace hnone).covers hdir
  obtain ⟨left', hleads⟩ := leads_segments hresolve
  exact ⟨left', _, hleads, hnone⟩

/-- In a directory that is new, there is nothing but directories that are new. -/
theorem LeadsToNew.last {path parent : String} {q : Place} (hrooted : files.Rooted)
    (hextends : Extends files larger) (hparent : Path.parent? path = some parent)
    (hup : ".." ∉ Path.segments path) (h : LeadsToNew files larger parent)
    (hresolve : larger.resolve path = .ok q) : LeadsToNew files larger path := by
  obtain ⟨_, upper, hupper, hnone⟩ := h
  obtain ⟨left, hleads⟩ := leads_segments hresolve
  refine ⟨left, q, hleads, ?_⟩
  have hstart : larger.startOf parent = larger.startOf path := by
    rw [startOf, startOf, Path.isAbsolute_parent hparent]
  have hempty : ∀ x, files.node? (upper ++ [x]) = none := by
    intro x
    cases hnode : files.node? (upper ++ [x]) with
    | none => rfl
    | some n =>
        have hdir := hrooted upper x (by simp [hnode])
        rw [hnone] at hdir
        cases hdir
  rw [hstart, Path.segments_parent hparent] at hupper
  rcases List.eq_nil_or_concat (Path.segments path) with hnil | ⟨front, y, hconcat⟩
  · rw [hnil] at hleads hupper
    rw [hleads.unique hupper]
    exact hnone
  · rw [List.concat_eq_append] at hconcat
    have hy : y ∈ Path.segments path := by rw [hconcat]; simp
    obtain ⟨hfilled, hdot, -⟩ := Path.of_mem_segments hy
    rw [hconcat] at hleads
    rw [hconcat, List.dropLast_concat] at hupper
    obtain ⟨_, upper', hfront, hlast⟩ := hleads.exists_of_append
    obtain rfl := hfront.unique hupper
    cases hlast with
    | stay _ hstay => exact (hstay.elim hfilled hdot).elim
    | up => exact absurd hy hup
    | down _ _ _ later =>
        rw [← (Leads.here _ _).unique later]
        exact hempty y
    | link _ _ hlink =>
        have hthere := hextends.of_not_directory hlink (by simp)
        rw [hempty y] at hthere
        cases hthere

theorem Made.fresh {path : String} {out : Files × Option FileError} (hrooted : files.Rooted)
    (h : Made files path out) (hup : ".." ∉ Path.segments path) :
    out.2 = none → out.1 = files ∨ LeadsToNew files out.1 path := by
  induction h with
  | root hparent => exact fun _ => .inl rfl
  | alone hmake => exact fun _ => .inr (leadsToNew_of_makeDirectory hmake)
  | there hdir => exact fun _ => .inl rfl
  | failed path e => exact (nomatch ·)
  | last hparent above hmake ih =>
      intro _
      refine .inr ?_
      obtain ⟨left, q, hleads, hnone⟩ := leadsToNew_of_makeDirectory hmake
      exact ⟨left, q, hleads, above.makes.extended.missing hnone⟩
  | @lastThere _ parent _ hparent above hdir ih =>
      intro _
      have hupper : ".." ∉ Path.segments parent := by
        rw [Path.segments_parent hparent]
        exact fun hmem => hup ((List.dropLast_sublist _).subset hmem)
      rcases ih hupper rfl with hsame | hnew
      · exact .inl hsame
      · obtain ⟨q, hresolve, -⟩ := exists_of_isDirectory hdir
        exact .inr (hnew.last hrooted above.makes.extended hparent hup hresolve)
  | lastFailed hparent _ e ih => exact (nomatch ·)

end VServer.Files
