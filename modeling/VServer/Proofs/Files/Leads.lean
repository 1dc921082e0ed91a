/-
Where a path leads.

`walk` follows the steps of a path and says where they end, or why they end nowhere.  `Leads` is the
way itself: one rule for each kind of step, with the number of links that may still be followed.
Ways can be put together and taken apart at any step, which `walk` hides, since a link puts new
steps in front of those that are left.

A way only looks at what stands along it.  So it stays a way in every tree that `Covers` the first
one: one in which nothing is missing, and in which files may hold something else.

The two are connected once in each direction.  What `walk` finds is a way (`leads_of_walk`), and a
way is found by `walk` (`walk_of_leads`), so steps lead to one place only.  Everything that is
shown about paths afterwards, that a directory which was made is found, or that a file which was
opened stays where it is, is an argument about ways.
-/
import VServer.Files

namespace VServer

/-- A node without what it holds. -/
def Node.blank : Node → Node
  | .file _ _ => .file [] false
  | node => node

namespace Files

/-! ### What stands where -/

theorem node?_put {place : Place} (h : place ≠ []) (files : Files) (node : Node) (q : Place) :
    (files.put place node).node? q = if q = place then some node else files.node? q := by
  unfold node?
  cases q with
  | nil => simp [h.symm]
  | cons x q => simp [put, lookup_replaceEntry]

theorem node?_erase {place : Place} (h : place ≠ []) (files : Files) (q : Place) :
    (files.erase place).node? q = if q = place then none else files.node? q := by
  unfold node?
  cases q with
  | nil => simp [h.symm]
  | cons x q => simp [erase, lookup_filter_ne]

/-- The root cannot be put anywhere, since it is there. -/
theorem ne_nil_of_missing {files : Files} {place : Place} (h : files.node? place = none) :
    place ≠ [] := by
  rintro rfl
  cases h

theorem ne_nil_of_file {files : Files} {place : Place} {content : Text.Bytes} {executable : Bool}
    (h : files.node? place = some (.file content executable)) : place ≠ [] := by
  rintro rfl
  cases h

theorem concat_ne_nil (place : Place) (name : String) : place ++ [name] ≠ [] := by
  simp

/-! ### Writing at the end of a file -/

theorem append_of_file {files : Files} {place : Place} {content : Text.Bytes} {executable : Bool}
    (h : files.node? place = some (.file content executable)) (bytes : Text.Bytes) :
    files.append place bytes = files.put place (.file (content ++ bytes) executable) := by
  simp only [append, h]

theorem node?_append {files : Files} {place : Place} {content : Text.Bytes} {executable : Bool}
    (h : files.node? place = some (.file content executable)) (bytes : Text.Bytes) (q : Place) :
    (files.append place bytes).node? q =
      if q = place then some (.file (content ++ bytes) executable) else files.node? q := by
  rw [append_of_file h, node?_put (ne_nil_of_file h)]

theorem append_nil {files : Files} {place : Place} {content : Text.Bytes} {executable : Bool}
    (h : files.node? place = some (.file content executable)) : files.append place [] = files := by
  have hfind : files.nodes.lookup place = some (.file content executable) := by
    cases place with
    | nil => cases h
    | cons x place => exact h
  rw [append_of_file h, List.append_nil, put, replaceEntry_self hfind]

/-- Writing twice is writing both. -/
theorem append_append {files : Files} {place : Place} {content : Text.Bytes} {executable : Bool}
    (h : files.node? place = some (.file content executable)) (bytes bytes' : Text.Bytes) :
    (files.append place bytes).append place bytes' = files.append place (bytes ++ bytes') := by
  have hafter : (files.append place bytes).node? place
      = some (.file (content ++ bytes) executable) := by
    rw [node?_append h, if_pos rfl]
  rw [append_of_file hafter, append_of_file h, append_of_file h, put, put, put,
    replaceEntry_replaceEntry, List.append_assoc]

/-! ### Trees in which nothing is missing

A program that only makes directories, adds files and writes to files never takes anything away.
`Covers` is what it keeps: every node is still there and of the same kind, but a file may have
changed what it holds.
-/

/-- All that stands in the first tree stands in the second one, where files may hold something
else. -/
structure Covers (files larger : Files) : Prop where
  cwd : larger.cwd = files.cwd
  node : ∀ q n, files.node? q = some n → (larger.node? q).map Node.blank = some n.blank

namespace Covers

variable {files larger largest : Files}

theorem refl (files : Files) : Covers files files :=
  ⟨rfl, fun q n h => by rw [h]; rfl⟩

theorem exists_node (h : Covers files larger) {q : Place} {n : Node} (hn : files.node? q = some n) :
    ∃ n', larger.node? q = some n' ∧ n'.blank = n.blank :=
  Option.map_eq_some_iff.mp (h.node q n hn)

theorem trans (h : Covers files larger) (h' : Covers larger largest) : Covers files largest where
  cwd := h'.cwd.trans h.cwd
  node := by
    intro q n hn
    obtain ⟨n', hn', hblank⟩ := h.exists_node hn
    rw [h'.node q n' hn', hblank]

theorem directory (h : Covers files larger) {q : Place} (hq : files.node? q = some .directory) :
    larger.node? q = some .directory := by
  obtain ⟨n, hn, hblank⟩ := h.exists_node hq
  cases n with
  | directory => exact hn
  | file content executable => cases hblank
  | link target => cases hblank

/-- A file is a file in a larger tree. -/
theorem file (h : Covers files larger) {q : Place}
    {content : Text.Bytes} {executable : Bool}
    (hq : files.node? q = some (.file content executable)) :
    ∃ content' executable', larger.node? q = some (.file content' executable') := by
  obtain ⟨n, hn, hblank⟩ := h.exists_node hq
  cases n with
  | directory => cases hblank
  | file content' executable' => exact ⟨content', executable', hn⟩
  | link target => cases hblank

theorem link (h : Covers files larger) {q : Place} {target : String}
    (hq : files.node? q = some (.link target)) : larger.node? q = some (.link target) := by
  obtain ⟨n, hn, hblank⟩ := h.exists_node hq
  cases n with
  | directory => cases hblank
  | file content executable => cases hblank
  | link target' =>
      obtain rfl := Node.link.inj hblank
      exact hn

theorem of_append {place : Place} {content : Text.Bytes} {executable : Bool}
    (h : files.node? place = some (.file content executable)) (bytes : Text.Bytes) :
    Covers files (files.append place bytes) where
  cwd := by rw [append_of_file h]; rfl
  node := by
    intro q n hn
    rw [node?_append h]
    split
    · rename_i hq
      rw [hq, h] at hn
      obtain rfl := Option.some.inj hn
      rfl
    · rw [hn]
      rfl

theorem of_put {place : Place} (h : files.node? place = none) (node : Node) :
    Covers files (files.put place node) where
  cwd := rfl
  node := by
    intro q n hn
    rw [node?_put (ne_nil_of_missing h), if_neg, hn]
    · rfl
    · rintro rfl
      rw [h] at hn
      cases hn

theorem startOf (h : Covers files larger) (path : String) :
    larger.startOf path = files.startOf path := by
  rw [Files.startOf, Files.startOf, h.cwd]

end Covers

/-- Something stands there, and it is no link. -/
def Stands (files : Files) (q : Place) : Prop :=
  ∃ n, files.node? q = some n ∧ ∀ target, n ≠ .link target

theorem Covers.stands {files larger : Files} (h : Covers files larger) {q : Place}
    (hq : files.Stands q) : larger.Stands q := by
  obtain ⟨n, hn, hlink⟩ := hq
  obtain ⟨n', hn', hblank⟩ := h.exists_node hn
  refine ⟨n', hn', ?_⟩
  rintro target rfl
  cases n with
  | directory => cases hblank
  | file content executable => cases hblank
  | link target => exact hlink target rfl

theorem stands_of_directory {files : Files} {q : Place} (h : files.node? q = some .directory) :
    files.Stands q :=
  ⟨_, h, fun _ => (nomatch ·)⟩

theorem stands_of_file {files : Files} {q : Place} {content : Text.Bytes} {executable : Bool}
    (h : files.node? q = some (.file content executable)) : files.Stands q :=
  ⟨_, h, fun _ => (nomatch ·)⟩

/-! ### Ways

The rules follow the kinds of steps: one that stays, one to a parent, one into a directory, and one
through a link, which goes on with the steps of its target and one link less.  The induction behind
each lemma is on the way itself.
-/

/-- A step that asks for something in a directory. -/
structure IsStep (x : String) : Prop where
  empty : x ≠ ""
  dot : x ≠ "."
  parent : x ≠ ".."
  short : x.utf8ByteSize ≤ nameLimit

/-- Steps lead from a place to another one.  Of the first number of links, the second one is
left. -/
inductive Leads (files : Files) : Nat → Place → List String → Nat → Place → Prop
  | here (links : Nat) (p : Place) : Leads files links p [] links p
  | stay {links left : Nat} {p q : Place} {x : String} {rest : List String}
      (hdir : files.node? p = some .directory) (hx : x = "" ∨ x = ".")
      (later : Leads files links p rest left q) : Leads files links p (x :: rest) left q
  | up {links left : Nat} {p q : Place} {rest : List String}
      (hdir : files.node? p = some .directory)
      (later : Leads files links p.dropLast rest left q) : Leads files links p (".." :: rest) left q
  | down {links left : Nat} {p q : Place} {x : String} {rest : List String}
      (hdir : files.node? p = some .directory) (hx : IsStep x) (hstands : files.Stands (p ++ [x]))
      (later : Leads files links (p ++ [x]) rest left q) : Leads files links p (x :: rest) left q
  | link {links left : Nat} {p q : Place} {x target : String} {rest : List String}
      (hdir : files.node? p = some .directory) (hx : IsStep x)
      (hlink : files.node? (p ++ [x]) = some (.link target))
      (later : Leads files links (if Path.isAbsolute target then [] else p) (steps target ++ rest)
        left q) : Leads files (links + 1) p (x :: rest) left q

namespace Leads

variable {files larger : Files} {links left : Nat} {p q : Place} {xs ys : List String}

/-- A way goes on where another one ended. -/
theorem append {last : Nat} {r : Place} (h : Leads files links p xs left q)
    (h' : Leads files left q ys last r) : Leads files links p (xs ++ ys) last r := by
  induction h with
  | here links p => exact h'
  | stay hdir hx _ ih => exact .stay hdir hx (ih h')
  | up hdir _ ih => exact .up hdir (ih h')
  | down hdir hx hstands _ ih => exact .down hdir hx hstands (ih h')
  | link hdir hx hlink _ ih =>
      have hlater := ih h'
      rw [List.append_assoc] at hlater
      exact .link hdir hx hlink hlater

/-- A way can be taken apart. -/
theorem exists_of_append {last : Nat} {r : Place} (h : Leads files links p (xs ++ ys) last r) :
    ∃ left q, Leads files links p xs left q ∧ Leads files left q ys last r := by
  generalize hsteps : xs ++ ys = ss at h
  induction h generalizing xs with
  | here links p =>
      obtain ⟨rfl, rfl⟩ := List.append_eq_nil_iff.mp hsteps
      exact ⟨links, p, .here links p, .here links p⟩
  | @stay links _ p _ x rest hdir hx later ih =>
      cases xs with
      | nil =>
          obtain rfl : ys = _ := hsteps
          exact ⟨links, p, .here links p, .stay hdir hx later⟩
      | cons y xs =>
          obtain ⟨rfl, hrest⟩ := List.cons.inj hsteps
          obtain ⟨left, q, hfirst, hlater⟩ := ih hrest
          exact ⟨left, q, .stay hdir hx hfirst, hlater⟩
  | @up links _ p _ rest hdir later ih =>
      cases xs with
      | nil =>
          obtain rfl : ys = _ := hsteps
          exact ⟨links, p, .here links p, .up hdir later⟩
      | cons y xs =>
          obtain ⟨rfl, hrest⟩ := List.cons.inj hsteps
          obtain ⟨left, q, hfirst, hlater⟩ := ih hrest
          exact ⟨left, q, .up hdir hfirst, hlater⟩
  | @down links _ p _ x rest hdir hx hstands later ih =>
      cases xs with
      | nil =>
          obtain rfl : ys = _ := hsteps
          exact ⟨links, p, .here links p, .down hdir hx hstands later⟩
      | cons y xs =>
          obtain ⟨rfl, hrest⟩ := List.cons.inj hsteps
          obtain ⟨left, q, hfirst, hlater⟩ := ih hrest
          exact ⟨left, q, .down hdir hx hstands hfirst, hlater⟩
  | @link links _ p _ x target rest hdir hx hlink later ih =>
      cases xs with
      | nil =>
          obtain rfl : ys = _ := hsteps
          exact ⟨links + 1, p, .here _ p, .link hdir hx hlink later⟩
      | cons y xs =>
          obtain ⟨rfl, hrest⟩ := List.cons.inj hsteps
          have hsplit : steps target ++ xs ++ ys = steps target ++ rest := by
            rw [List.append_assoc]
            exact congrArg _ hrest
          obtain ⟨left, q, hfirst, hlater⟩ := ih hsplit
          exact ⟨left, q, .link hdir hx hlink hfirst, hlater⟩

/-- Only a directory is left behind. -/
theorem directory_of_cons {x : String} (h : Leads files links p (x :: xs) left q) :
    files.node? p = some .directory := by
  cases h with
  | stay hdir => exact hdir
  | up hdir => exact hdir
  | down hdir => exact hdir
  | link hdir => exact hdir

/-- A step that says nothing leads nowhere else. -/
theorem of_stay {x : String} (hx : x = "" ∨ x = ".") (h : Leads files links p (x :: xs) left q) :
    Leads files links p xs left q := by
  cases h with
  | stay _ _ later => exact later
  | up => simp at hx
  | down _ hstep => exact (hx.elim hstep.empty hstep.dot).elim
  | link _ hstep => exact (hx.elim hstep.empty hstep.dot).elim

/-- Dots can be left out. -/
theorem filter_dots (h : Leads files links p xs left q) :
    Leads files links p (xs.filter (· != ".")) left q := by
  induction xs generalizing links p with
  | nil => exact h
  | cons x xs ih =>
      by_cases hx : x = "."
      · rw [List.filter_cons_of_neg (by simp [hx])]
        exact ih (h.of_stay (.inr hx))
      · rw [List.filter_cons_of_pos (by simpa using hx)]
        rw [← List.singleton_append] at h
        obtain ⟨left', q', hfirst, hlater⟩ := h.exists_of_append
        exact hfirst.append (ih hlater)

/-- A way stays a way where nothing is taken away. -/
theorem mono (hcovers : files.Covers larger) (h : Leads files links p xs left q) :
    Leads larger links p xs left q := by
  induction h with
  | here links p => exact .here links p
  | stay hdir hx _ ih => exact .stay (hcovers.directory hdir) hx ih
  | up hdir _ ih => exact .up (hcovers.directory hdir) ih
  | down hdir hx hstands _ ih =>
      exact .down (hcovers.directory hdir) hx (hcovers.stands hstands) ih
  | link hdir hx hlink _ ih => exact .link (hcovers.directory hdir) hx (hcovers.link hlink) ih

end Leads

/-! ### Following a way -/

section Walk

variable {files larger : Files} {aim : Aim}

/-- Steps that are followed to their end are a way, also in a larger tree, if what was to be made
has been made there. -/
theorem leads_of_walkWith (hcovers : files.Covers larger) {links : Nat}
    {follow : Place → List String → Except FileError Place}
    (hfollow : ∀ p ss q, follow p ss = .ok q → (aim = .create → larger.Stands q) →
      ∃ fewer left, links = fewer + 1 ∧ Leads larger fewer p ss left q) (ss : List String) :
    ∀ p q, files.walkWith aim follow p ss = .ok q → (aim = .create → larger.Stands q) →
      ∃ left, Leads larger links p ss left q := by
  induction ss with
  | nil =>
      intro p q h _
      obtain rfl := Except.ok.inj h
      exact ⟨links, .here links p⟩
  | cons x rest ih =>
      intro p q h hnew
      rw [walkWith] at h
      split at h
      · cases h
      · rename_i hdir
        have hdir := hcovers.directory hdir
        split at h
        · rename_i hx
          obtain ⟨left, later⟩ := ih p q h hnew
          exact ⟨left, .stay hdir (by simpa using hx) later⟩
        rename_i hstay
        split at h
        · rename_i hx
          obtain ⟨left, later⟩ := ih p.dropLast q h hnew
          exact ⟨left, hx ▸ .up hdir later⟩
        rename_i hup
        split at h
        · cases h
        split at h
        · cases h
        rename_i hlong
        have hx : IsStep x := by
          obtain ⟨hempty, hdot⟩ : x ≠ "" ∧ x ≠ "." := by simpa using hstay
          exact ⟨hempty, hdot, hup, Nat.le_of_not_lt hlong⟩
        split at h
        · split at h
          · rename_i hcreate
            obtain ⟨haim, hrest⟩ : aim = .create ∧ rest = [] := by simpa using hcreate
            obtain rfl := Except.ok.inj h
            rw [hrest]
            exact ⟨links, .down hdir hx (hnew haim) (.here links _)⟩
          · cases h
        · rename_i target hlink
          obtain ⟨fewer, left, rfl, later⟩ := hfollow _ _ q h hnew
          exact ⟨left, .link hdir hx (hcovers.link hlink) later⟩
        · rename_i n hnotLink hn
          obtain ⟨left, later⟩ := ih _ q h hnew
          exact ⟨left, .down hdir hx (hcovers.stands ⟨n, hn, hnotLink⟩) later⟩
      · cases h

theorem leads_of_walk (hcovers : files.Covers larger) (links : Nat) :
    ∀ (p : Place) (ss : List String) (q : Place), files.walk aim links p ss = .ok q →
      (aim = .create → larger.Stands q) → ∃ left, Leads larger links p ss left q := by
  induction links with
  | zero =>
      intro p ss q h hnew
      refine leads_of_walkWith hcovers (fun p ss q hfollow _ => ?_) ss p q h hnew
      cases hfollow
  | succ links ih =>
      intro p ss q h hnew
      refine leads_of_walkWith hcovers (fun p ss q hfollow hnew => ?_) ss p q h hnew
      obtain ⟨left, hleads⟩ := ih p ss q hfollow hnew
      exact ⟨links, left, rfl, hleads⟩

/-- A way is followed to its end. -/
theorem walk_of_leads {links left : Nat} {p q : Place} {ss : List String}
    (h : Leads files links p ss left q) : files.walk .find links p ss = .ok q := by
  induction h with
  | here links p => cases links <;> rfl
  | @stay links _ _ _ _ _ hdir hx _ ih =>
      rw [← ih]
      cases links <;> simp [walk, walkWith, hdir, hx]
  | @up links _ _ _ _ hdir _ ih =>
      rw [← ih]
      cases links <;> simp [walk, walkWith, hdir]
  | @down links _ p _ x _ hdir hx hstands _ ih =>
      obtain ⟨n, hn, hlink⟩ := hstands
      have hshort : ¬ nameLimit < x.utf8ByteSize := Nat.not_lt.mpr hx.short
      rw [← ih]
      cases n with
      | link target => exact absurd rfl (hlink target)
      | directory =>
          cases links <;> simp [walk, walkWith, hdir, hx.empty, hx.dot, hx.parent, hshort, hn]
      | file content executable =>
          cases links <;> simp [walk, walkWith, hdir, hx.empty, hx.dot, hx.parent, hshort, hn]
  | @link _ _ _ _ x _ _ hdir hx hlink _ ih =>
      have hshort : ¬ nameLimit < x.utf8ByteSize := Nat.not_lt.mpr hx.short
      rw [← ih]
      simp [walk, walkWith, hdir, hx.empty, hx.dot, hx.parent, hshort, hlink]

/-- There is one place that steps lead to. -/
theorem Leads.unique {links left left' : Nat} {p q q' : Place} {ss : List String}
    (h : Leads files links p ss left q) (h' : Leads files links p ss left' q') : q = q' :=
  Except.ok.inj ((walk_of_leads h).symm.trans (walk_of_leads h'))

/-! ### Whole paths -/

theorem locate_eq {path : String} (h : checkPath path = .ok ()) :
    files.locate aim path = files.walk aim linkLimit (files.startOf path) (steps path) := by
  rw [locate, h]
  rfl

theorem checkPath_of_locate {path : String} {q : Place} (h : files.locate aim path = .ok q) :
    checkPath path = .ok () := by
  rw [locate] at h
  cases hcheck : checkPath path with
  | ok _ => rfl
  | error e =>
      rw [hcheck] at h
      cases h

/-- A path leads to where it is located, also in a larger tree. -/
theorem leads_of_locate (hcovers : files.Covers larger) {path : String} {q : Place}
    (h : files.locate aim path = .ok q) (hnew : aim = .create → larger.Stands q) :
    ∃ left, Leads larger linkLimit (larger.startOf path) (steps path) left q := by
  rw [locate_eq (checkPath_of_locate h)] at h
  rw [hcovers.startOf]
  exact leads_of_walk hcovers linkLimit _ _ q h hnew

theorem leads_of_resolve {path : String} {q : Place} (h : files.resolve path = .ok q) :
    ∃ left, Leads files linkLimit (files.startOf path) (steps path) left q :=
  leads_of_locate (.refl files) h (nomatch ·)

theorem resolve_of_leads {path : String} (hcheck : checkPath path = .ok ()) {left : Nat} {q : Place}
    (h : Leads files linkLimit (files.startOf path) (steps path) left q) :
    files.resolve path = .ok q := by
  rw [resolve, locate_eq hcheck]
  exact walk_of_leads h

/-- A path leads to the same place in a larger tree. -/
theorem Covers.resolve (hcovers : files.Covers larger) {path : String} {q : Place}
    (h : files.resolve path = .ok q) : larger.resolve path = .ok q := by
  obtain ⟨left, hleads⟩ := leads_of_locate hcovers h (nomatch ·)
  exact resolve_of_leads (checkPath_of_locate h) hleads

end Walk

end Files

end VServer
