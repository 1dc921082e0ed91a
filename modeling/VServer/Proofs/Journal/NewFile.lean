/-
The file of a journal.

A journal that is given a file removes what stands at the end of the path, makes the directories
above it and opens what the path leads to then.  Nothing changes but the entry that is removed,
the directories that are made, and the file (`changed_by_openFile`).

What is removed and what is opened need not be the same file.  The path can lead elsewhere once
directories have been made for it, if it has a step to a parent, and then the file that is opened
may have been there before.  Without such steps the file is new (`openFile_fresh`): either the
directory of the file has been there, and the entry in it was removed, or it was made, and is
empty.

The lemmas about the tree come first and know nothing of journals: removing, making directories and
opening, each with what it changes and what it leaves.  The journal does the three in a row, so the
last sections only put them together and follow the lines that are written afterwards.
-/
import VServer.Journal
import VServer.Proofs.Files.Making

namespace VServer

namespace Files

variable {files : Files} {path : String}

/-! ### Removing a file -/

theorem removeFile_eq {place : Place} (h : files.entryOf path = .ok (some place)) :
    files.removeFile path =
      match files.node? place with
      | none => .error .notFound
      | some .directory => .error .isDirectory
      | some _ => if endsInSlash path then .error .notDirectory else .ok (files.erase place) := by
  rw [removeFile, h]
  rfl

/-- The tree without the file or the link at the end of a path. -/
def discarded (files : Files) (path : String) : Files :=
  match files.removeFile path with
  | .ok smaller => smaller
  | .error _ => files

/-- What stands at the end of a path is removed if it is no directory, or nothing is. -/
theorem discarded_cases (files : Files) (path : String) :
    files.discarded path = files ∨
      ∃ place n, files.entryOf path = .ok (some place) ∧ files.node? place = some n ∧
        n ≠ .directory ∧ files.discarded path = files.erase place := by
  unfold discarded
  cases hremove : files.removeFile path with
  | error e => exact .inl rfl
  | ok smaller =>
      cases hentry : files.entryOf path with
      | error e =>
          rw [removeFile, hentry] at hremove
          cases hremove
      | ok entry =>
          cases entry with
          | none =>
              rw [removeFile, hentry] at hremove
              cases hremove
          | some place =>
              rw [removeFile_eq hentry] at hremove
              split at hremove
              · cases hremove
              · cases hremove
              · rename_i n hdir hnode
                split at hremove
                · cases hremove
                · exact .inr ⟨place, n, rfl, hnode, hdir, (Except.ok.inj hremove).symm⟩

theorem discarded_of_entry {place : Place} {n : Node} (hslash : endsInSlash path = false)
    (hentry : files.entryOf path = .ok (some place)) (hnode : files.node? place = some n)
    (hdir : n ≠ .directory) : files.discarded path = files.erase place := by
  have hremove : files.removeFile path = .ok (files.erase place) := by
    rw [removeFile_eq hentry, hnode]
    cases n with
    | directory => exact absurd rfl hdir
    | file content executable => simp [hslash]
    | link target => simp [hslash]
  rw [discarded, hremove]

theorem ne_nil_of_entryOf {place : Place} (h : files.entryOf path = .ok (some place)) :
    place ≠ [] := by
  obtain ⟨front, last, left, parent, -, rfl⟩ := exists_entryAt h
  exact concat_ne_nil parent last

/-- What is left has been there. -/
theorem node?_of_discarded {q : Place} {n : Node} (h : (files.discarded path).node? q = some n) :
    files.node? q = some n := by
  rcases discarded_cases files path with hsame | ⟨place, _, hentry, -, -, herased⟩
  · rwa [hsame] at h
  · rw [herased, node?_erase (ne_nil_of_entryOf hentry)] at h
    split at h
    · cases h
    · exact h

theorem cwd_discarded (files : Files) (path : String) : (files.discarded path).cwd = files.cwd := by
  rcases discarded_cases files path with hsame | ⟨_, _, -, -, -, herased⟩
  · rw [hsame]
  · rw [herased]
    rfl

theorem discarded_covers (files : Files) (path : String) : Covers (files.discarded path) files :=
  ⟨(cwd_discarded files path).symm, fun q n hn => by rw [node?_of_discarded hn]; rfl⟩

/-- Nothing but the entry of the path is removed. -/
theorem entryOf_of_discarded {q : Place} (h : (files.discarded path).node? q ≠ files.node? q) :
    files.entryOf path = .ok (some q) := by
  rcases discarded_cases files path with hsame | ⟨place, _, hentry, -, -, herased⟩
  · rw [hsame] at h
    exact absurd rfl h
  · rw [herased, node?_erase (ne_nil_of_entryOf hentry)] at h
    split at h
    · rename_i hq
      rw [hq]
      exact hentry
    · exact absurd rfl h

/-- Nothing lies in what is removed. -/
theorem Rooted.discarded (h : files.Rooted) (path : String) : (files.discarded path).Rooted := by
  rcases discarded_cases files path with hsame | ⟨place, n, hentry, hnode, hdir, herased⟩
  · rw [hsame]
    exact h
  · have hplace := ne_nil_of_entryOf hentry
    rw [herased]
    intro p x hsome
    rw [node?_erase hplace] at hsome ⊢
    split at hsome
    · exact absurd rfl hsome
    · have hp := h p x hsome
      rw [if_neg, hp]
      rintro rfl
      exact hdir (Option.some.inj (hnode.symm.trans hp))

end Files

namespace Journal

open Files

variable {files after : Files} {path : String} {q : Place}

/-! ### Opening a file -/

theorem prepare_cases (files : Files) (path : String) :
    prepare files path = (files, none) ∨
      ∃ parent, Path.parent? path = some parent ∧ Made files parent (prepare files path) := by
  unfold prepare
  split
  · exact .inl rfl
  · rename_i parent hparent
    split
    · exact .inl rfl
    · exact .inr ⟨parent, hparent, makeDirectoriesIn_made _ files parent⟩

theorem openAtEnd_eq (h : files.locate .create path = .ok q) :
    files.openAtEnd path =
      match files.node? q with
      | none => .ok (files.put q (.file [] false), q)
      | some (.file _ _) => .ok (files, q)
      | some _ => .error .isDirectory := by
  rw [openAtEnd, h]
  rfl

/-- A file that is opened is new, or it has been there. -/
theorem openAtEnd_ok (h : files.openAtEnd path = .ok (after, q)) :
    files.locate .create path = .ok q ∧
      ((files.node? q = none ∧ after = files.put q (.file [] false)) ∨
        (after = files ∧
          ∃ content executable, files.node? q = some (.file content executable))) := by
  cases hlocate : files.locate .create path with
  | error e =>
      rw [openAtEnd, hlocate] at h
      cases h
  | ok place =>
      rw [openAtEnd_eq hlocate] at h
      split at h
      · rename_i hnone
        obtain ⟨rfl, rfl⟩ := Prod.mk.inj (Except.ok.inj h)
        exact ⟨rfl, .inl ⟨hnone, rfl⟩⟩
      · rename_i content executable hfile
        obtain ⟨rfl, rfl⟩ := Prod.mk.inj (Except.ok.inj h)
        exact ⟨rfl, .inr ⟨rfl, content, executable, hfile⟩⟩
      · cases h

/-- The directories above a path were made, and then the file was opened or not. -/
inductive Opened (files : Files) (path : String) : Files × Except FileError Place → Prop
  | unprepared {made : Files} {e : FileError} (hprepare : prepare files path = (made, some e)) :
      Opened files path (made, .error e)
  | unopened {made : Files} (hprepare : prepare files path = (made, none)) (e : FileError) :
      Opened files path (made, .error e)
  | opened {made after : Files} {q : Place} (hprepare : prepare files path = (made, none))
      (hopen : made.openAtEnd path = .ok (after, q)) : Opened files path (after, .ok q)

theorem openFile_opened (files : Files) (path : String) :
    Opened files path (openFile files path) := by
  unfold openFile
  split
  · rename_i made e hprepare
    exact .unprepared hprepare
  · rename_i made hprepare
    split
    · exact .unopened hprepare _
    · rename_i after q hopen
      exact .opened hprepare hopen

/-! ### What can change

Three places can differ between the two trees, and each of the three steps accounts for one of
them.  A step cannot undo what another one did: what was removed is either missing at the end or is
the file, and directories are made only where nothing was.
-/

/-- A directory above the path stands at the place. -/
def IsAbove (files : Files) (path : String) (q : Place) : Prop :=
  files.node? q = some .directory ∧
    ∃ parent above, Path.parent? path = some parent ∧ Above above parent ∧
      files.resolve above = .ok q

theorem IsAbove.mono (h : IsAbove files path q) (hcovers : Covers files after) :
    IsAbove after path q := by
  obtain ⟨hdir, parent, above, hparent, habove, hresolve⟩ := h
  exact ⟨hcovers.directory hdir, parent, above, hparent, habove, hcovers.resolve hresolve⟩

theorem prepare_extends (files : Files) (path : String) :
    Extends files (prepare files path).1 := by
  rcases prepare_cases files path with hsame | ⟨parent, -, hmade⟩
  · rw [hsame]
    exact .refl files
  · exact hmade.makes.extended

theorem isAbove_of_prepare (h : (prepare files path).1.node? q ≠ files.node? q) :
    files.node? q = none ∧ IsAbove (prepare files path).1 path q := by
  have hextends := prepare_extends files path
  have hnone : files.node? q = none := by
    cases hq : files.node? q with
    | none => rfl
    | some n => exact absurd (by rw [hq, hextends.kept q n hq]) h
  have hdir : (prepare files path).1.node? q = some .directory :=
    (hextends.new q hnone).resolve_left fun hstill => h (hstill.trans hnone.symm)
  refine ⟨hnone, hdir, ?_⟩
  rcases prepare_cases files path with hsame | ⟨parent, hparent, hmade⟩
  · rw [hsame] at h
    exact absurd rfl h
  · obtain ⟨above, habove, hresolve⟩ := hmade.makes.named q hnone (by rw [hdir]; exact (nomatch ·))
    exact ⟨parent, above, hparent, habove, hresolve⟩

theorem openAtEnd_covers (h : files.openAtEnd path = .ok (after, q)) : Covers files after := by
  rcases (openAtEnd_ok h).2 with ⟨hnone, rfl⟩ | ⟨rfl, -⟩
  · exact .of_put hnone _
  · exact .refl _

/-- What an opened file is: the path leads there, and it is empty or has been there. -/
theorem openAtEnd_file (h : files.openAtEnd path = .ok (after, q)) :
    after.resolve path = .ok q ∧
      ((files.node? q = none ∧ after.node? q = some (.file [] false)) ∨
        ∃ content executable, files.node? q = some (.file content executable) ∧
          after.node? q = some (.file content executable)) ∧
      ∀ p, p ≠ q → after.node? p = files.node? p := by
  have hcovers := openAtEnd_covers h
  obtain ⟨hlocate, hcases⟩ := openAtEnd_ok h
  have hfile : (files.node? q = none ∧ after.node? q = some (.file [] false)) ∨
      ∃ content executable, files.node? q = some (.file content executable) ∧
        after.node? q = some (.file content executable) := by
    rcases hcases with ⟨hnone, rfl⟩ | ⟨rfl, content, executable, hnode⟩
    · exact .inl ⟨hnone, by rw [node?_put (ne_nil_of_missing hnone), if_pos rfl]⟩
    · exact .inr ⟨content, executable, hnode, hnode⟩
  refine ⟨?_, hfile, fun p hp => ?_⟩
  · have hstands : after.Stands q := by
      rcases hfile with ⟨-, hnode⟩ | ⟨_, _, -, hnode⟩
      · exact stands_of_file hnode
      · exact stands_of_file hnode
    obtain ⟨left, hleads⟩ := leads_of_locate hcovers hlocate fun _ => hstands
    exact resolve_of_leads (checkPath_of_locate hlocate) hleads
  · rcases hcases with ⟨hnone, rfl⟩ | ⟨rfl, -⟩
    · rw [node?_put (ne_nil_of_missing hnone), if_neg hp]
    · rfl

/-- **Giving a journal a file changes the entry of its path, directories above it that were missing,
and the file.** -/
theorem changed_by_openFile (files : Files) (path : String) (q : Place)
    (h : (openFile (files.discarded path) path).1.node? q ≠ files.node? q) :
    files.entryOf path = .ok (some q) ∨ (openFile (files.discarded path) path).2 = .ok q ∨
      (files.node? q = none ∧ IsAbove (openFile (files.discarded path) path).1 path q) := by
  -- up to the opening
  have hmade : (prepare (files.discarded path) path).1.node? q ≠ files.node? q →
      files.entryOf path = .ok (some q) ∨
        (files.node? q = none ∧ IsAbove (prepare (files.discarded path) path).1 path q) := by
    intro hchanged
    by_cases hleft : (files.discarded path).node? q = files.node? q
    · rw [← hleft] at hchanged ⊢
      exact .inr (isAbove_of_prepare hchanged)
    · exact .inl (entryOf_of_discarded hleft)
  have hopened := openFile_opened (files.discarded path) path
  generalize openFile (files.discarded path) path = out at h hopened ⊢
  cases hopened with
  | unprepared hprepare =>
      rw [hprepare] at hmade
      exact (hmade h).imp_right .inr
  | unopened hprepare e =>
      rw [hprepare] at hmade
      exact (hmade h).imp_right .inr
  | @opened made after place hprepare hopen =>
      rw [hprepare] at hmade
      by_cases hq : q = place
      · exact .inr (.inl (by rw [hq]))
      · have hother := (openAtEnd_file hopen).2.2 q hq
        rcases hmade (by rw [← hother]; exact h) with hentry | ⟨hnone, habove⟩
        · exact .inl hentry
        · exact .inr (.inr ⟨hnone, habove.mono (openAtEnd_covers hopen)⟩)

/-- The path leads to the file that was opened, and what the file holds has been there. -/
theorem openFile_file (h : openFile (files.discarded path) path = (after, .ok q)) :
    after.resolve path = .ok q ∧
      ∃ content executable, after.node? q = some (.file content executable) ∧
        (content = [] ∨ files.node? q = some (.file content executable)) := by
  have hopened := openFile_opened (files.discarded path) path
  rw [h] at hopened
  cases hopened with
  | opened hprepare hopen =>
      obtain ⟨hresolve, hfile, -⟩ := openAtEnd_file hopen
      refine ⟨hresolve, ?_⟩
      rcases hfile with ⟨-, hnode⟩ | ⟨content, executable, hbefore, hnode⟩
      · exact ⟨[], false, hnode, .inl rfl⟩
      · have hextends := prepare_extends (files.discarded path) path
        rw [hprepare] at hextends
        have hleft := hextends.of_not_directory hbefore (nomatch ·)
        exact ⟨content, executable, hnode, .inr (node?_of_discarded hleft)⟩

/-! ### Without steps to a parent the file is new

There are two cases, by whether directories had to be made.  If not, the path leads through the
same directory as before to its last name, and whatever stood there was removed.  If so, the path
ends in a directory that is new, and nothing stands in such a directory.
-/

theorem names_ne_nil (hcheck : checkPath path = .ok ()) (hslash : endsInSlash path = false) :
    names path ≠ [] := by
  have hfilled : path.toList ≠ [] := by
    intro hnil
    rw [checkPath, String.toList_eq_nil_iff.mp hnil] at hcheck
    cases hcheck
  obtain ⟨c, hc⟩ : ∃ c, path.toList.getLast? = some c :=
    Option.isSome_iff_exists.mp (by simpa using hfilled)
  have hne : c ≠ '/' := by
    rintro rfl
    simp [endsInSlash, hc] at hslash
  obtain ⟨part, hpart, hmem⟩ := Path.exists_mem_splitOnChar hne (List.mem_of_getLast? hc)
  have hname : String.ofList part ∈ names path := by
    refine List.mem_filter.mpr ⟨List.mem_map_of_mem hpart, ?_⟩
    have hpartFilled : part ≠ [] := List.ne_nil_of_mem hmem
    simpa using hpartFilled
  exact List.ne_nil_of_mem hname

/-- If a path leads to a file, its last name stands in a directory and is no directory. -/
theorem exists_entryAt_of_file {content : Text.Bytes} {executable : Bool} {left : Nat}
    (hcheck : checkPath path = .ok ()) (hup : ".." ∉ names path)
    (hleads : Leads files linkLimit (files.startOf path) (steps path) left q)
    (hfile : files.node? q = some (.file content executable)) :
    endsInSlash path = false ∧
      ∃ front last left parent n, EntryAt files path front last left parent ∧
        files.node? (parent ++ [last]) = some n ∧ n ≠ .directory := by
  have hnotDir : files.node? q ≠ some .directory := by
    rw [hfile]
    exact (nomatch ·)
  have hslash : endsInSlash path = false := by
    rw [Bool.eq_false_iff]
    intro hslash
    rw [steps, if_pos hslash] at hleads
    obtain ⟨_, q', -, hend⟩ := hleads.exists_of_append
    rw [← (Leads.here _ q').unique (hend.of_stay (.inl rfl))] at hnotDir
    exact hnotDir hend.directory_of_cons
  refine ⟨hslash, ?_⟩
  rw [steps, if_neg (by simp [hslash])] at hleads
  obtain ⟨front, last, hnames⟩ : ∃ front last, names path = front ++ [last] :=
    ⟨_, _, (List.dropLast_concat_getLast (names_ne_nil hcheck hslash)).symm⟩
  rw [hnames] at hleads
  obtain ⟨left', parent, hfront, hlast⟩ := hleads.exists_of_append
  have hdir := hlast.directory_of_cons
  cases hlast with
  | stay _ _ later =>
      rw [(Leads.here _ _).unique later] at hdir
      exact absurd hdir hnotDir
  | up => exact absurd (by rw [hnames]; simp) hup
  | down _ hstep _ later =>
      rw [← (Leads.here _ _).unique later] at hfile
      exact ⟨front, last, left', parent, _, ⟨hcheck, hnames, hstep, hfront, hdir⟩, hfile,
        (nomatch ·)⟩
  | link _ hstep hlink =>
      exact ⟨front, last, _, parent, _, ⟨hcheck, hnames, hstep, hfront, hdir⟩, hlink, (nomatch ·)⟩

/-- The entry of a path has been removed, unless directories were made. -/
theorem discarded_of_entryAt {front : List String} {last : String} {left : Nat} {parent : Place}
    {n : Node} (hslash : endsInSlash path = false)
    (hat : EntryAt (files.discarded path) path front last left parent)
    (hnode : (files.discarded path).node? (parent ++ [last]) = some n) : n = .directory := by
  have hcovers := discarded_covers files path
  have hentry : files.entryOf path = .ok (some (parent ++ [last])) := by
    have hleads := hat.leads.mono hcovers
    rw [← hcovers.startOf] at hleads
    exact EntryAt.entryOf
      ⟨hat.check, hat.names_eq, hat.isStep, hleads, hcovers.directory hat.directory⟩
  by_contra hdir
  rw [discarded_of_entry hslash hentry (node?_of_discarded hnode) hdir,
    node?_erase (concat_ne_nil parent last), if_pos rfl] at hnode
  cases hnode

/-- Nothing stands under the last name of a path if the directory of the path was made. -/
theorem directory_of_leadsToNew {larger : Files} {parentPath : String} {front : List String}
    {last : String} {left : Nat} {parent : Place} {n : Node} (hrooted : files.Rooted)
    (hextends : Extends files larger) (hparent : Path.parent? path = some parentPath)
    (hnew : LeadsToNew files larger parentPath)
    (hat : EntryAt larger path front last left parent)
    (hnode : larger.node? (parent ++ [last]) = some n) : n = .directory := by
  obtain ⟨_, upper, hupper, hnone⟩ := hnew
  have hstart : larger.startOf parentPath = larger.startOf path := by
    rw [startOf, startOf, Path.isAbsolute_parent hparent]
  have hsegments : Path.segments parentPath = front.filter (· != ".") := by
    rw [Path.segments_parent hparent, segments_eq_filter, hat.names_eq, List.filter_append,
      List.filter_cons_of_pos (by simpa using hat.isStep.dot), List.filter_nil,
      List.dropLast_concat]
  rw [hstart, hsegments] at hupper
  obtain rfl := hat.leads.filter_dots.unique hupper
  by_contra hdir
  have hbefore := hextends.of_not_directory hnode hdir
  have hparentDir := hrooted parent last (by simp [hbefore])
  rw [hnone] at hparentDir
  cases hparentDir

/-- **A file is new if its path has no step to a parent.** -/
theorem openFile_fresh (hrooted : files.Rooted) (hup : ".." ∉ names path)
    (h : openFile (files.discarded path) path = (after, .ok q)) :
    after.node? q = some (.file [] false) := by
  have hopened := openFile_opened (files.discarded path) path
  rw [h] at hopened
  cases hopened with
  | @opened made _ _ hprepare hopen =>
      obtain ⟨hlocate, hcases⟩ := openAtEnd_ok hopen
      rcases hcases with ⟨hnone, rfl⟩ | ⟨rfl, content, executable, hfile⟩
      · rw [node?_put (ne_nil_of_missing hnone), if_pos rfl]
      · -- Otherwise a file has been there under the last name of the path.
        exfalso
        have hcheck := checkPath_of_locate hlocate
        obtain ⟨left, hleads⟩ := leads_of_locate (.refl _) hlocate fun _ => stands_of_file hfile
        obtain ⟨hslash, front, last, left, parent, n, hat, hnode, hdir⟩ :=
          exists_entryAt_of_file hcheck hup hleads hfile
        have hextends := prepare_extends (files.discarded path) path
        rw [hprepare] at hextends
        rcases prepare_cases (files.discarded path) path with hsame | ⟨parentPath, hparent, hmade⟩
        · rw [hprepare] at hsame
          obtain rfl : after = files.discarded path := congrArg Prod.fst hsame
          exact hdir (discarded_of_entryAt hslash hat hnode)
        · rw [hprepare] at hmade
          have hupper : ".." ∉ Path.segments parentPath := by
            rw [Path.segments_parent hparent, segments_eq_filter]
            exact fun hmem => hup (List.mem_filter.mp ((List.dropLast_sublist _).subset hmem)).1
          have hrooted' := hrooted.discarded path
          rcases hmade.fresh hrooted' hupper rfl with hsame | hnew
          · obtain rfl : after = files.discarded path := hsame
            exact hdir (discarded_of_entryAt hslash hat hnode)
          · exact hdir (directory_of_leadsToNew hrooted' hextends hparent hnew hat hnode)

/-! ### Lines -/

/-- Write lines one after another. -/
def writeAll (j : Journal) (lines : List (JournalLevel × String)) : Journal :=
  lines.foldl (fun j line => j.write line.1 line.2) j

/-- The bytes of lines. -/
def linesBytes (lines : List (JournalLevel × String)) : Text.Bytes :=
  lines.flatMap fun line => lineBytes line.1 line.2

theorem linesBytes_append (lines lines' : List (JournalLevel × String)) :
    linesBytes (lines ++ lines') = linesBytes lines ++ linesBytes lines' :=
  List.flatMap_append

theorem writeAll_append (j : Journal) (lines lines' : List (JournalLevel × String)) :
    j.writeAll (lines ++ lines') = (j.writeAll lines).writeAll lines' :=
  List.foldl_append

@[simp] theorem target_writeAll (j : Journal) (lines : List (JournalLevel × String)) :
    (j.writeAll lines).target = j.target := by
  induction lines generalizing j with
  | nil => rfl
  | cons line lines ih => exact (ih _).trans rfl

theorem disk_writeAll_unattached {j : Journal} (h : j.target = none)
    (lines : List (JournalLevel × String)) : (j.writeAll lines).disk = j.disk := by
  induction lines generalizing j with
  | nil => rfl
  | cons line lines ih =>
      have hdisk : (j.write line.1 line.2).disk = j.disk := by
        simp only [write, remember, h]
      have hlater : ((j.write line.1 line.2).writeAll lines).disk = (j.write line.1 line.2).disk :=
        ih h
      exact hlater.trans hdisk

/-- **Lines are written at the end of the file that is attached.** -/
theorem disk_writeAll {j : Journal} {content : Text.Bytes} {executable : Bool}
    (htarget : j.target = some q) (hfile : j.disk.node? q = some (.file content executable))
    (lines : List (JournalLevel × String)) :
    (j.writeAll lines).disk = j.disk.append q (linesBytes lines) := by
  induction lines generalizing j content with
  | nil => exact (append_nil hfile).symm
  | cons line lines ih =>
      have hdisk : (j.write line.1 line.2).disk
          = j.disk.append q (lineBytes line.1 line.2) := by
        simp [write, remember, htarget]
      have hwritten : (j.write line.1 line.2).disk.node? q
          = some (.file (content ++ lineBytes line.1 line.2) executable) := by
        rw [hdisk, node?_append hfile, if_pos rfl]
      calc (j.writeAll (line :: lines)).disk
          = (j.write line.1 line.2).disk.append q (linesBytes lines) := ih htarget hwritten
        _ = j.disk.append q (linesBytes (line :: lines)) := by
          rw [hdisk, append_append hfile]
          rfl

/-! ### A journal that is given a file -/

theorem discard_eq (j : Journal) (path : String) :
    j.discard path = { j with disk := j.disk.discarded path } := by
  unfold discard discarded
  cases j.disk.removeFile path with
  | ok smaller => rfl
  | error e => rfl

/-- What a journal without a file writes to once it was to be given one. -/
theorem attachNew_eq {j : Journal} {debug : Bool} {trace : TraceLevel} (path : String)
    (htarget : j.target = none) (hwants : wantsFile debug trace = true) :
    (j.attachNew debug trace path).1.disk = (openFile (j.disk.discarded path) path).1 ∧
      (j.attachNew debug trace path).1.target
        = (openFile (j.disk.discarded path) path).2.toOption := by
  rw [attachNew, if_pos hwants, discard_eq]
  unfold attach
  rcases openFile (j.disk.discarded path) path with ⟨files, e | place⟩
  · exact ⟨rfl, htarget⟩
  · exact ⟨rfl, rfl⟩

end Journal

end VServer
