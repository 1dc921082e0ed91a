/-
The lines of each file.

A journal can be given one file after another, and can let go of a file.  What it was told, with the
attempts that failed, says which path is open at any time: that of the last file that was attached,
unless the journal has let go of it since (`openPath?`).  A line belongs to the file that this path
leads to.

`Keeps` compares a journal with what it was told.  Every call keeps it, so each file holds what it
held in the beginning and then its lines, and no file holds anything else.  Paths are looked up at
the end of the run: no file is ever moved or taken away, so a path that led to a file leads there
ever after.

The step is one call and the run is a list of them.  A call adds one event to the record, and to
the disk some directories and one file at most, and what is said about all other files has to be
carried over to the disk behind the call.  That is done once, for any disk that covers the one
before it, so the lemmas about single calls speak only of the file that is touched.
-/
import VServer.Proofs.Journal.NewFile

namespace VServer

/-- Something a journal is asked to do. -/
inductive JournalCall where
  | attach (path : String)
  | write (level : JournalLevel) (text : String)
  | close
deriving DecidableEq, Repr

/-- The path of a file that was attached. -/
def JournalEvent.attached? : JournalEvent → Option String
  | .path p true => some p
  | _ => none

theorem JournalEvent.attached?_eq_some {e : JournalEvent} {p : String}
    (h : e.attached? = some p) : e = .path p true := by
  cases e with
  | path p' attached =>
      cases attached with
      | true => rw [Option.some.inj h]
      | false => cases h
  | line level text => cases h
  | close => cases h

namespace Journal

open Files

/-- Do what is asked. -/
def call (j : Journal) : JournalCall → Journal
  | .attach path => (j.attach path).1
  | .write level text => j.write level text
  | .close => j.close

/-- Do one after another what is asked. -/
def callAll (j : Journal) (calls : List JournalCall) : Journal :=
  calls.foldl call j

/-- A call, and whether a file could be attached. -/
def event (j : Journal) : JournalCall → JournalEvent
  | .attach path => .path path (j.attach path).2.isOk
  | .write level text => .line level text
  | .close => .close

/-- Calls that are made one after another, and how they went. -/
def events (j : Journal) : List JournalCall → List JournalEvent
  | [] => []
  | c :: calls => j.event c :: (j.call c).events calls

/-! ### What is open

Everything is told by the record alone, without the journal: which path is open behind some events,
and which lines are for a given file.  An event is appended at the end, so each of these functions
has one equation for a record with one more event.
-/

/-- The path of the file that was attached last. -/
def lastPath? (events : List JournalEvent) : Option String :=
  events.reverse.findSome? JournalEvent.attached?

/-- The path of the file that was attached last, if it has not been let go of since. -/
def openPath? (events : List JournalEvent) : Option String :=
  (events.reverse.takeWhile (· != .close)).findSome? JournalEvent.attached?

/-- The line of an event behind others, if the path that is open then leads to the file in
question. -/
def lineFor (leads : String → Bool) (before : List JournalEvent) :
    JournalEvent → List (JournalLevel × String)
  | .line level text => if (openPath? before).any leads then [(level, text)] else []
  | _ => []

/-- The lines for a file among events that come behind others. -/
def linesFrom (leads : String → Bool) (before : List JournalEvent) :
    List JournalEvent → List (JournalLevel × String)
  | [] => []
  | e :: later => lineFor leads before e ++ linesFrom leads (before ++ [e]) later

/-- The lines for the file at a place. -/
def linesTo (files : Files) (q : Place) (events : List JournalEvent) :
    List (JournalLevel × String) :=
  linesFrom (fun path => files.resolve path = .ok q) [] events

section Paths

variable (events : List JournalEvent)

@[simp] theorem lastPath?_concat (e : JournalEvent) :
    lastPath? (events ++ [e]) = e.attached?.or (lastPath? events) := by
  rw [lastPath?, List.reverse_concat, List.findSome?_cons]
  cases e.attached? <;> rfl

@[simp] theorem openPath?_concat (e : JournalEvent) :
    openPath? (events ++ [e]) =
      if e = .close then none else e.attached?.or (openPath? events) := by
  rw [openPath?, List.reverse_concat, List.takeWhile_cons]
  by_cases he : e = .close
  · simp [he]
  · rw [if_pos (by simpa using he), if_neg he, List.findSome?_cons]
    cases e.attached? <;> rfl

variable {events}

/-- What is open has been attached. -/
theorem mem_of_openPath? {p : String} (h : openPath? events = some p) : .path p true ∈ events := by
  obtain ⟨e, he, hp⟩ := List.exists_of_findSome?_eq_some h
  rw [← JournalEvent.attached?_eq_some hp]
  exact List.mem_reverse.mp ((List.takeWhile_sublist _).subset he)

end Paths

/-! ### Lines of a file -/

theorem linesBytes_singleton (level : JournalLevel) (text : String) :
    linesBytes [(level, text)] = Text.encodeString ("[" ++ level.name ++ "] " ++ text ++ "\n") :=
  List.flatMap_singleton _ _

theorem linesFrom_concat (leads : String → Bool) (events : List JournalEvent) (e : JournalEvent) :
    ∀ before, linesFrom leads before (events ++ [e])
      = linesFrom leads before events ++ lineFor leads (before ++ events) e := by
  induction events with
  | nil => intro before; simp [linesFrom]
  | cons d events ih =>
      intro before
      rw [List.cons_append, linesFrom, linesFrom, ih]
      simp

/-- The lines of a file are the same for ways to tell it that agree on what was attached. -/
theorem linesFrom_congr {leads leads' : String → Bool} (events : List JournalEvent) :
    ∀ before, (∀ p, .path p true ∈ before ++ events → leads p = leads' p) →
      linesFrom leads before events = linesFrom leads' before events := by
  induction events with
  | nil => intro before h; rfl
  | cons e events ih =>
      intro before h
      have hfirst : lineFor leads before e = lineFor leads' before e := by
        cases e with
        | line level text =>
            have hany : (openPath? before).any leads = (openPath? before).any leads' := by
              cases hopen : openPath? before with
              | none => rfl
              | some p => exact h p (List.mem_append_left _ (mem_of_openPath? hopen))
            rw [lineFor, lineFor, hany]
        | path p attached => rfl
        | close => rfl
      rw [linesFrom, linesFrom, hfirst, ih]
      intro p hp
      exact h p (by simpa using hp)

theorem linesFrom_false (events : List JournalEvent) :
    ∀ before, linesFrom (fun _ => false) before events = [] := by
  induction events with
  | nil => intro before; rfl
  | cons e events ih =>
      intro before
      rw [linesFrom, ih]
      cases e with
      | line level text => simp [lineFor]
      | path p attached => rfl
      | close => rfl

theorem linesTo_concat (files : Files) (q : Place) (events : List JournalEvent)
    (e : JournalEvent) : linesTo files q (events ++ [e])
      = linesTo files q events ++ lineFor (fun p => files.resolve p = .ok q) events e :=
  linesFrom_concat _ events e []

/-! ### A journal and what it was told

`Keeps` is the invariant.  Its fields tie the parts of the journal to the record: the disk covers
the one at the start, every path that was attached leads to a file, the file that lines go to is
the one that the open path leads to, and every file holds what its lines say.
-/

/-- A path leads to a file. -/
def LeadsToFile (files : Files) (p : String) : Prop :=
  ∃ q content executable,
    files.resolve p = .ok q ∧ files.node? q = some (.file content executable)

theorem LeadsToFile.mono {files larger : Files} {p : String} (h : LeadsToFile files p)
    (hcovers : Covers files larger) : LeadsToFile larger p := by
  obtain ⟨q, content, executable, hresolve, hfile⟩ := h
  obtain ⟨content', executable', hfile'⟩ := hcovers.file hfile
  exact ⟨q, content', executable', hcovers.resolve hresolve, hfile'⟩

/-- A file holds what it held on the first disk, or nothing if it was not there and was attached,
and then its lines. -/
def Holds (disk files : Files) (events : List JournalEvent) (q : Place) (content : Text.Bytes)
    (executable : Bool) : Prop :=
  ∃ first, content = first ++ linesBytes (linesTo files q events) ∧
    (disk.node? q = some (.file first executable) ∨
      disk.node? q = none ∧ first = [] ∧ executable = false ∧
        ∃ p, .path p true ∈ events ∧ files.resolve p = .ok q)

namespace Holds

variable {disk files : Files} {events : List JournalEvent} {q : Place} {content : Text.Bytes}
  {executable : Bool}

/-- One more event, with the line that it adds. -/
theorem concat (h : Holds disk files events q content executable) (e : JournalEvent) :
    Holds disk files (events ++ [e]) q
      (content ++ linesBytes (lineFor (fun p => files.resolve p = .ok q) events e)) executable := by
  obtain ⟨first, rfl, hfirst⟩ := h
  refine ⟨first, ?_, hfirst.imp_right ?_⟩
  · rw [linesTo_concat, linesBytes_append, List.append_assoc]
  · rintro ⟨hnone, hempty, hexecutable, p, hp, hresolve⟩
    exact ⟨hnone, hempty, hexecutable, p, List.mem_append_left _ hp, hresolve⟩

/-- One more event that adds no line. -/
theorem concat_silent (h : Holds disk files events q content executable) {e : JournalEvent}
    (he : lineFor (fun p => files.resolve p = .ok q) events e = []) :
    Holds disk files (events ++ [e]) q content executable := by
  have hconcat := h.concat e
  rwa [he, linesBytes, List.flatMap_nil, List.append_nil] at hconcat

end Holds

/-- What a journal that started with a disk has made of it and is left with, once it was told
`events`. -/
structure Keeps (disk : Files) (events : List JournalEvent) (j : Journal) : Prop where
  covers : Covers disk j.disk
  led : ∀ p, .path p true ∈ events → LeadsToFile j.disk p
  target : ∀ q, j.target = some q ↔ ∃ p, openPath? events = some p ∧ j.disk.resolve p = .ok q
  path : j.path = lastPath? events
  held : ∀ q content executable, j.disk.node? q = some (.file content executable) →
    Holds disk j.disk events q content executable

namespace Keeps

variable {disk larger : Files} {events : List JournalEvent} {j : Journal} {q : Place} {p : String}

theorem start (disk : Files) : Keeps disk [] { disk } where
  covers := .refl disk
  led := by simp
  target := by simp [openPath?]
  path := rfl
  held := fun q content executable hfile => ⟨content, (List.append_nil content).symm, .inl hfile⟩

/-- The file that lines go to. -/
theorem exists_file (h : Keeps disk events j) (hq : j.target = some q) :
    ∃ p content executable, openPath? events = some p ∧ j.disk.resolve p = .ok q ∧
      j.disk.node? q = some (.file content executable) := by
  obtain ⟨p, hopen, hresolve⟩ := (h.target q).mp hq
  obtain ⟨q', content, executable, hresolve', hfile⟩ := h.led p (mem_of_openPath? hopen)
  obtain rfl : q' = q := Except.ok.inj (hresolve'.symm.trans hresolve)
  exact ⟨p, content, executable, hopen, hresolve, hfile⟩

/-- Lines go to a file while a path is open. -/
theorem isFileBacked (h : Keeps disk events j) : j.isFileBacked = (openPath? events).isSome := by
  cases hopen : openPath? events with
  | some p =>
      obtain ⟨q, _, _, hresolve, -⟩ := h.led p (mem_of_openPath? hopen)
      rw [Journal.isFileBacked, (h.target q).mpr ⟨p, hopen, hresolve⟩]
      rfl
  | none =>
      cases htarget : j.target with
      | none =>
          rw [Journal.isFileBacked, htarget]
          rfl
      | some q =>
          obtain ⟨p, hp, -⟩ := (h.target q).mp htarget
          rw [hopen] at hp
          cases hp

/-- Nothing stood on the first disk where nothing stands. -/
theorem missing (h : Keeps disk events j) (hq : j.disk.node? q = none) : disk.node? q = none := by
  cases hn : disk.node? q with
  | none => rfl
  | some n =>
      obtain ⟨n', hn', -⟩ := h.covers.exists_node hn
      rw [hq] at hn'
      cases hn'

/-! ### In a larger tree -/

/-- What was attached is where it was. -/
theorem resolve_iff (h : Keeps disk events j) (hcovers : Covers j.disk larger)
    (hp : .path p true ∈ events) : larger.resolve p = .ok q ↔ j.disk.resolve p = .ok q := by
  obtain ⟨q', _, _, hresolve, -⟩ := h.led p hp
  rw [hresolve, hcovers.resolve hresolve]

theorem linesTo_larger (h : Keeps disk events j) (hcovers : Covers j.disk larger) (q : Place) :
    linesTo larger q events = linesTo j.disk q events :=
  linesFrom_congr events [] fun _ hp => decide_eq_decide.mpr (h.resolve_iff hcovers hp)

/-- A file that was not there has no lines yet. -/
theorem linesTo_of_missing (h : Keeps disk events j) (hcovers : Covers j.disk larger)
    (hq : j.disk.node? q = none) : linesTo larger q events = [] := by
  rw [← linesFrom_false events []]
  refine linesFrom_congr events [] fun p hp => decide_eq_false ?_
  rw [h.resolve_iff hcovers hp]
  intro hresolve
  obtain ⟨q', content, executable, hresolve', hfile⟩ := h.led p hp
  obtain rfl : q' = q := Except.ok.inj (hresolve'.symm.trans hresolve)
  rw [hq] at hfile
  cases hfile

theorem holds_larger (h : Keeps disk events j) (hcovers : Covers j.disk larger)
    {content : Text.Bytes} {executable : Bool}
    (hfile : j.disk.node? q = some (.file content executable)) :
    Holds disk larger events q content executable := by
  obtain ⟨first, hcontent, hfirst⟩ := h.held q content executable hfile
  refine ⟨first, by rw [h.linesTo_larger hcovers, hcontent], hfirst.imp_right ?_⟩
  rintro ⟨hnone, hempty, hexecutable, p, hp, hresolve⟩
  exact ⟨hnone, hempty, hexecutable, p, hp, hcovers.resolve hresolve⟩

theorem target_larger (h : Keeps disk events j) (hcovers : Covers j.disk larger) (q : Place) :
    j.target = some q ↔ ∃ p, openPath? events = some p ∧ larger.resolve p = .ok q := by
  rw [h.target]
  refine exists_congr fun p => and_congr_right fun hopen => ?_
  exact (h.resolve_iff hcovers (mem_of_openPath? hopen)).symm

/-- What was attached leads to a file, also if an event is added that attaches nothing. -/
theorem led_larger (h : Keeps disk events j) (hcovers : Covers j.disk larger) {e : JournalEvent}
    (he : e.attached? = none) : ∀ p, .path p true ∈ events ++ [e] → LeadsToFile larger p := by
  intro p hp
  rcases List.mem_append.mp hp with hp | hp
  · exact (h.led p hp).mono hcovers
  · rw [← List.mem_singleton.mp hp] at he
    cases he

/-! ### One call -/

theorem close (h : Keeps disk events j) : Keeps disk (events ++ [.close]) j.close where
  covers := h.covers
  led := h.led_larger (.refl _) rfl
  target := by simp [Journal.close, remember]
  path := by
    rw [lastPath?_concat]
    exact h.path
  held := fun q content executable hfile => (h.held q content executable hfile).concat_silent rfl

theorem covers_write (h : Keeps disk events j) (level : JournalLevel) (text : String) :
    Covers j.disk (j.write level text).disk := by
  cases htarget : j.target with
  | none =>
      simp only [Journal.write, remember, htarget]
      exact .refl _
  | some place =>
      obtain ⟨_, content, executable, -, -, hfile⟩ := h.exists_file htarget
      simp only [Journal.write, remember, htarget]
      exact .of_append hfile _

/-- A line is written at the end of the file that is open, and of no other. -/
theorem held_write (h : Keeps disk events j) (level : JournalLevel) (text : String)
    {content : Text.Bytes} {executable : Bool}
    (hfile : (j.write level text).disk.node? q = some (.file content executable)) :
    Holds disk (j.write level text).disk (events ++ [.line level text]) q content executable := by
  have hcovers := h.covers_write level text
  cases htarget : j.target with
  | none =>
      have hclosed : openPath? events = none := by
        have hbacked := h.isFileBacked
        rw [Journal.isFileBacked, htarget] at hbacked
        exact Option.not_isSome_iff_eq_none.mp (by simp [← hbacked])
      have hbefore : j.disk.node? q = some (.file content executable) := by
        simpa only [Journal.write, remember, htarget] using hfile
      exact (h.holds_larger hcovers hbefore).concat_silent (by simp [lineFor, hclosed])
  | some place =>
      obtain ⟨p, content', executable', hopen, hresolve, hplace⟩ := h.exists_file htarget
      have hnow := hcovers.resolve hresolve
      have hfile' : (j.disk.append place (lineBytes level text)).node? q
          = some (.file content executable) := by
        simpa only [Journal.write, remember, htarget] using hfile
      rw [node?_append hplace] at hfile'
      split at hfile'
      · rename_i hq
        obtain ⟨rfl, rfl⟩ := Node.file.inj (Option.some.inj hfile')
        have hconcat := (h.holds_larger hcovers hplace).concat (.line level text)
        rwa [lineFor, hopen, Option.any_some, if_pos (decide_eq_true hnow), linesBytes,
          List.flatMap_singleton, ← hq] at hconcat
      · rename_i hq
        refine (h.holds_larger hcovers hfile').concat_silent ?_
        rw [lineFor, hopen, Option.any_some, hnow, if_neg]
        simpa using Ne.symm hq

theorem write (h : Keeps disk events j) (level : JournalLevel) (text : String) :
    Keeps disk (events ++ [.line level text]) (j.write level text) where
  covers := h.covers.trans (h.covers_write level text)
  led := h.led_larger (h.covers_write level text) rfl
  target := by
    rw [openPath?_concat, if_neg (by simp)]
    exact h.target_larger (h.covers_write level text)
  path := by
    rw [lastPath?_concat]
    exact h.path
  held := fun _ _ _ hfile => h.held_write level text hfile

end Keeps

theorem extends_of_prepare {files made : Files} {path : String} {outcome : Option FileError}
    (h : prepare files path = (made, outcome)) : Extends files made := by
  have hextends := prepare_extends files path
  rwa [h] at hextends

/-- A file could not be attached, but directories may have been made for it; or it was. -/
inductive Attached (j : Journal) (path : String) : Journal × Except FileError Unit → Prop
  | failed {made : Files} (hmade : Extends j.disk made) (e : FileError) :
      Attached j path ({ j with disk := made }.remember (.path path false), .error e)
  | attached {made after : Files} {q : Place} (hprepare : prepare j.disk path = (made, none))
      (hopen : made.openAtEnd path = .ok (after, q)) :
      Attached j path
        ({ j with disk := after, target := some q, path := some path }.remember (.path path true),
          .ok ())

theorem attach_attached (j : Journal) (path : String) : Attached j path (j.attach path) := by
  have hopened := openFile_opened j.disk path
  unfold attach
  generalize openFile j.disk path = out at hopened
  cases hopened with
  | unprepared hprepare => exact .failed (extends_of_prepare hprepare) _
  | unopened hprepare e => exact .failed (extends_of_prepare hprepare) e
  | opened hprepare hopen => exact .attached hprepare hopen

theorem covers_attach (j : Journal) (path : String) : Covers j.disk (j.attach path).1.disk := by
  have h := attach_attached j path
  generalize j.attach path = out at h
  cases h with
  | failed hmade e => exact hmade.covers
  | attached hprepare hopen =>
      exact (extends_of_prepare hprepare).covers.trans (openAtEnd_covers hopen)

namespace Keeps

variable {disk larger : Files} {events : List JournalEvent} {j : Journal} {q : Place}

/-- A file that is attached holds what it held, or it is new and holds nothing. -/
theorem held_openAtEnd (h : Keeps disk events j) {path : String} {made after : Files}
    {place : Place} (hmade : Extends j.disk made) (hopen : made.openAtEnd path = .ok (after, place))
    {content : Text.Bytes} {executable : Bool}
    (hfile : after.node? q = some (.file content executable)) :
    Holds disk after (events ++ [.path path true]) q content executable := by
  have hcovers : Covers j.disk after := hmade.covers.trans (openAtEnd_covers hopen)
  obtain ⟨hresolve, hplace, hother⟩ := openAtEnd_file hopen
  have hold : made.node? q = some (.file content executable) →
      Holds disk after (events ++ [.path path true]) q content executable := fun hbefore =>
    (h.holds_larger hcovers (hmade.of_not_directory hbefore (by simp))).concat_silent rfl
  by_cases hq : q = place
  · subst hq
    rcases hplace with ⟨hnone, hnew⟩ | ⟨content', executable', hbefore, hafter⟩
    · obtain ⟨rfl, rfl⟩ := Node.file.inj (Option.some.inj (hfile.symm.trans hnew))
      have hmissing := hmade.missing hnone
      refine ⟨[], ?_, .inr ⟨h.missing hmissing, rfl, rfl, path, by simp, hresolve⟩⟩
      rw [linesTo_concat, h.linesTo_of_missing hcovers hmissing]
      rfl
    · exact hold (hbefore.trans (hafter.symm.trans hfile))
  · exact hold ((hother q hq).symm.trans hfile)

theorem attach (h : Keeps disk events j) (path : String) :
    Keeps disk (events ++ [.path path (j.attach path).2.isOk]) (j.attach path).1 := by
  have hcovers := covers_attach j path
  have hattached := attach_attached j path
  generalize j.attach path = out at hcovers hattached
  cases hattached with
  | failed hmade e =>
      refine ⟨h.covers.trans hcovers, h.led_larger hcovers rfl, ?_, ?_, ?_⟩
      · rw [openPath?_concat, if_neg (by simp)]
        exact h.target_larger hcovers
      · rw [lastPath?_concat]
        exact h.path
      · intro q content executable hfile
        have hbefore := hmade.of_not_directory hfile (by simp)
        exact (h.holds_larger hcovers hbefore).concat_silent rfl
  | @attached made after place hprepare hopen =>
      obtain ⟨hresolve, hplace, -⟩ := openAtEnd_file hopen
      refine ⟨h.covers.trans hcovers, ?_, ?_, ?_, ?_⟩
      · intro p hp
        rcases List.mem_append.mp hp with hp | hp
        · exact (h.led p hp).mono hcovers
        · obtain ⟨rfl, -⟩ := JournalEvent.path.inj (List.mem_singleton.mp hp)
          rcases hplace with ⟨-, hnew⟩ | ⟨content, executable, -, hafter⟩
          · exact ⟨place, _, _, hresolve, hnew⟩
          · exact ⟨place, _, _, hresolve, hafter⟩
      · intro q
        rw [openPath?_concat, if_neg (by simp)]
        constructor
        · intro htarget
          obtain rfl := Option.some.inj htarget
          exact ⟨path, rfl, hresolve⟩
        · rintro ⟨p, hp, hq⟩
          obtain rfl := Option.some.inj hp
          exact congrArg some (Except.ok.inj (hresolve.symm.trans hq))
      · rw [lastPath?_concat]
        rfl
      · intro q content executable hfile
        exact h.held_openAtEnd (extends_of_prepare hprepare) hopen hfile

/-! ### A run -/

theorem call (h : Keeps disk events j) (c : JournalCall) :
    Keeps disk (events ++ [j.event c]) (j.call c) ∧ Covers j.disk (j.call c).disk := by
  cases c with
  | attach path => exact ⟨h.attach path, covers_attach j path⟩
  | write level text => exact ⟨h.write level text, h.covers_write level text⟩
  | close => exact ⟨h.close, .refl _⟩

theorem callAll (h : Keeps disk events j) (calls : List JournalCall) :
    Keeps disk (events ++ j.events calls) (j.callAll calls) ∧
      Covers j.disk (j.callAll calls).disk := by
  induction calls generalizing events j with
  | nil =>
      rw [Journal.events, List.append_nil]
      exact ⟨h, .refl _⟩
  | cons c calls ih =>
      obtain ⟨hone, hcovers⟩ := h.call c
      obtain ⟨hall, hlater⟩ := ih hone
      rw [List.append_assoc] at hall
      exact ⟨hall, hcovers.trans hlater⟩

end Keeps

/-! ### Files that cannot be attached

An attempt that fails leaves the journal with the file that it had.  It may still have made
directories, since these are made before the file is opened.
-/

section Failing

variable {files larger : Files} {j : Journal} {path : String} {q : Place}

/-- A path without segments leads to the directory it starts from. -/
theorem directory_of_segments_nil (hsegments : Path.segments path = [])
    (h : files.resolve path = .ok q) : files.node? q = some .directory := by
  have hcheck := checkPath_of_locate h
  obtain ⟨left, hleads⟩ := leads_of_resolve h
  obtain ⟨left', hshort⟩ := leads_segments h
  rw [hsegments] at hshort
  obtain rfl := (Leads.here _ _).unique hshort
  obtain ⟨x, xs, hsteps⟩ : ∃ x xs, steps path = x :: xs := by
    refine List.exists_cons_of_ne_nil ?_
    unfold steps
    split
    · simp
    · rename_i hslash
      exact names_ne_nil hcheck (Bool.eq_false_iff.mpr hslash)
  rw [hsteps] at hleads
  exact hleads.directory_of_cons

/-- A path leads to a directory once its directories have been made. -/
theorem directory_of_made (h : Made files path (larger, none))
    (hresolve : larger.resolve path = .ok q) : larger.node? q = some .directory := by
  have hmake : ∀ {smaller : Files}, smaller.makeDirectory path = .ok larger →
      larger.node? q = some .directory := by
    intro smaller hmake
    obtain ⟨place, hentry, hnone, rfl⟩ := makeDirectory_ok hmake
    obtain ⟨front, last, left, parent, hat, rfl⟩ := exists_entryAt hentry
    have hplace := concat_ne_nil parent last
    have hdir : (smaller.put (parent ++ [last]) .directory).node? (parent ++ [last])
        = some .directory := by
      rw [node?_put hplace, if_pos rfl]
    have hthere := hat.resolve (put_extends hplace hnone).covers hdir
    obtain rfl := Except.ok.inj (hthere.symm.trans hresolve)
    exact hdir
  have hthere : larger.isDirectory path = true → larger.node? q = some .directory := by
    intro hdir
    obtain ⟨q', hresolve', hdir'⟩ := exists_of_isDirectory hdir
    obtain rfl := Except.ok.inj (hresolve'.symm.trans hresolve)
    exact hdir'
  cases h with
  | root hparent => exact directory_of_segments_nil (Path.segments_of_root hparent) hresolve
  | alone hmade => exact hmake hmade
  | there hdir => exact hthere hdir
  | last _ _ hmade => exact hmake hmade
  | lastThere _ _ hdir => exact hthere hdir

/-- Without a file to attach, a journal goes on as before, and so do all files. -/
theorem attach_error {e : FileError} (h : (j.attach path).2 = .error e) :
    (j.attach path).1.target = j.target ∧ (j.attach path).1.path = j.path ∧
      ∀ q content executable, (j.attach path).1.disk.node? q = some (.file content executable) ↔
        j.disk.node? q = some (.file content executable) := by
  have hattached := attach_attached j path
  generalize j.attach path = out at h hattached
  cases hattached with
  | failed hmade e =>
      exact ⟨rfl, rfl, fun q content executable =>
        ⟨fun hfile => hmade.of_not_directory hfile (by simp), hmade.kept q _⟩⟩
  | attached hprepare hopen => cases h

/-- A directory is no file to write to. -/
theorem attach_directory (h : j.disk.isDirectory path = true) :
    ∃ e, (j.attach path).2 = .error e := by
  obtain ⟨q, hresolve, hdir⟩ := exists_of_isDirectory h
  have hcovers := covers_attach j path
  have hattached := attach_attached j path
  generalize j.attach path = out at hcovers hattached ⊢
  cases hattached with
  | failed hmade e => exact ⟨e, rfl⟩
  | attached hprepare hopen =>
      obtain ⟨hresolve', hplace, -⟩ := openAtEnd_file hopen
      obtain rfl := Except.ok.inj ((hcovers.resolve hresolve).symm.trans hresolve')
      have hdir' := hcovers.directory hdir
      rcases hplace with ⟨-, hfile⟩ | ⟨_, _, -, hfile⟩
      · cases hdir'.symm.trans hfile
      · cases hdir'.symm.trans hfile

/-- Nothing is written to a file that would lie in a file. -/
theorem attach_in_file {parent : String} {content : Text.Bytes} {executable : Bool}
    (hparent : Path.parent? path = some parent) (hresolve : j.disk.resolve parent = .ok q)
    (hfile : j.disk.node? q = some (.file content executable)) :
    ∃ e, (j.attach path).2 = .error e := by
  have hattached := attach_attached j path
  generalize j.attach path = out at hattached ⊢
  cases hattached with
  | failed hmade e => exact ⟨e, rfl⟩
  | @attached made _ _ hprepare hopen =>
      have hcovers := (extends_of_prepare hprepare).covers
      have hfilled : ¬ parent.isEmpty = true := by
        intro hempty
        rw [String.isEmpty_iff.mp hempty] at hresolve
        cases hresolve
      have hmade : Made j.disk parent (made, none) := by
        simp only [prepare, hparent, if_neg hfilled] at hprepare
        rw [← hprepare]
        exact makeDirectoriesIn_made _ j.disk parent
      obtain ⟨_, _, hfile'⟩ := hcovers.file hfile
      cases (directory_of_made hmade (hcovers.resolve hresolve)).symm.trans hfile'

end Failing

/-! ### What files hold -/

/-- A journal without a file, after calls. -/
def after (disk : Files) (calls : List JournalCall) : Journal :=
  ({ disk } : Journal).callAll calls

/-- What it was told. -/
def told (disk : Files) (calls : List JournalCall) : List JournalEvent :=
  ({ disk } : Journal).events calls

theorem keeps_after (disk : Files) (calls : List JournalCall) :
    Keeps disk (told disk calls) (after disk calls) :=
  ((Keeps.start disk).callAll calls).1

/-- Nothing is missing later on. -/
theorem covers_after (disk : Files) (calls later : List JournalCall) :
    Covers (after disk calls).disk (after disk (calls ++ later)).disk := by
  have hcovers := ((keeps_after disk calls).callAll later).2
  rwa [after, callAll, callAll, ← List.foldl_append] at hcovers

/-- **A file holds what it held at first and the lines that were written while it was open.** -/
theorem files_hold_lines (disk : Files) (calls : List JournalCall) :
    -- Files that were there, and those that are there now.
    (∀ q content executable, disk.node? q = some (.file content executable) →
      (after disk calls).disk.node? q = some (.file
        (content ++ linesBytes (linesTo (after disk calls).disk q (told disk calls)))
        executable)) ∧
    (∀ q content executable,
      (after disk calls).disk.node? q = some (.file content executable) →
      (∃ first, disk.node? q = some (.file first executable)) ∨
        (disk.node? q = none ∧ executable = false ∧
          content = linesBytes (linesTo (after disk calls).disk q (told disk calls)) ∧
          ∃ p, .path p true ∈ told disk calls ∧ (after disk calls).disk.resolve p = .ok q)) ∧
    -- A line goes to the file that the path that is open leads to, then and at the end.
    (∀ earlier later, calls = earlier ++ later →
      (after disk earlier).isFileBacked = (openPath? (told disk earlier)).isSome ∧
      (after disk earlier).path = lastPath? (told disk earlier) ∧
      ∀ q, (after disk earlier).target = some q ↔
        ∃ p, openPath? (told disk earlier) = some p ∧
          (after disk calls).disk.resolve p = .ok q) ∧
    -- Files that cannot be attached.
    (∀ path e, ((after disk calls).attach path).2 = .error e →
      ((after disk calls).attach path).1.target = (after disk calls).target ∧
      ((after disk calls).attach path).1.isFileBacked = (after disk calls).isFileBacked ∧
      ((after disk calls).attach path).1.path = (after disk calls).path ∧
      ∀ q content executable,
        ((after disk calls).attach path).1.disk.node? q = some (.file content executable) ↔
          (after disk calls).disk.node? q = some (.file content executable)) ∧
    (∀ path, (after disk calls).disk.isDirectory path = true →
      ∃ e, ((after disk calls).attach path).2 = .error e) ∧
    (∀ path parent q content executable, Path.parent? path = some parent →
      (after disk calls).disk.resolve parent = .ok q →
      (after disk calls).disk.node? q = some (.file content executable) →
      ∃ e, ((after disk calls).attach path).2 = .error e) ∧
    -- How a line is spelled.
    (∀ text, linesBytes [(.info, text)] = Text.encodeString ("[info] " ++ text ++ "\n")) ∧
    ∀ text, linesBytes [(.error, text)] = Text.encodeString ("[error] " ++ text ++ "\n") := by
  have hkeeps := keeps_after disk calls
  refine ⟨?_, ?_, ?_, ?_, fun _ h => attach_directory h, ?_, linesBytes_singleton .info,
    linesBytes_singleton .error⟩
  · intro q content executable hfile
    obtain ⟨content', executable', hfile'⟩ := hkeeps.covers.file hfile
    obtain ⟨first, rfl, hfirst | ⟨hnone, -⟩⟩ := hkeeps.held q content' executable' hfile'
    · obtain ⟨rfl, rfl⟩ := Node.file.inj (Option.some.inj (hfile.symm.trans hfirst))
      exact hfile'
    · cases hfile.symm.trans hnone
  · intro q content executable hfile
    obtain ⟨first, hcontent, hfirst | ⟨hnone, rfl, hexecutable, hattached⟩⟩ :=
      hkeeps.held q content executable hfile
    · exact .inl ⟨first, hfirst⟩
    · exact .inr ⟨hnone, hexecutable, hcontent, hattached⟩
  · rintro earlier later rfl
    have hearlier := keeps_after disk earlier
    exact ⟨hearlier.isFileBacked, hearlier.path,
      hearlier.target_larger (covers_after disk earlier later)⟩
  · intro path e h
    obtain ⟨htarget, hpath, hfiles⟩ := attach_error h
    exact ⟨htarget, by rw [isFileBacked, isFileBacked, htarget], hpath, hfiles⟩
  · intro path parent q content executable hparent hresolve hfile
    exact attach_in_file hparent hresolve hfile

/-- Lines for two files, one of which is new.  A file in a file cannot be attached. -/
def twoFiles : List JournalCall :=
  [.attach "/a", .write .info "first", .attach "/a/b", .write .error "second", .attach "/d/c",
    .write .info "third", .close, .write .info "fourth"]

theorem files_hold_lines_twoFiles :
    told { nodes := [(["a"], .file [120] false)] } twoFiles =
      [.path "/a" true, .line .info "first", .path "/a/b" false, .line .error "second",
        .path "/d/c" true, .line .info "third", .close, .line .info "fourth"] ∧
    (after { nodes := [(["a"], .file [120] false)] } twoFiles).disk.node? ["a"] =
      some (.file ([120] ++ linesBytes [(.info, "first"), (.error, "second")]) false) ∧
    (after { nodes := [(["a"], .file [120] false)] } twoFiles).disk.node? ["d", "c"] =
      some (.file (linesBytes [(.info, "third")]) false) := by
  refine ⟨by decide +kernel, ?_, by decide +kernel⟩
  have hlines : linesTo (after { nodes := [(["a"], .file [120] false)] } twoFiles).disk ["a"]
      (told { nodes := [(["a"], .file [120] false)] } twoFiles)
        = [(.info, "first"), (.error, "second")] := by
    decide +kernel
  rw [← hlines]
  exact (files_hold_lines _ twoFiles).1 ["a"] [120] false rfl

end Journal

end VServer
