/-
Documents of settings, in TOML.

Settings are texts, switches, lists and tables.  No setting is a number or a date, so a document
that holds one is refused like any other document that says nothing the server understands, and
such values have no form here.

A table can be opened by a header, come into being on the way to another header, or grow from
dotted keys.  The three are told apart because a table may be opened only once, and dotted keys
may not reach into a table that was opened.
-/
import VServer.NameMap

namespace VServer

/-- How a table came into being. -/
inductive Toml.Origin where
  /-- It has a header of its own. -/
  | header
  /-- It stands on the way to a header. -/
  | passage
  | dottedKey
deriving DecidableEq, Repr

/-- A value of a document. -/
inductive Toml where
  | text (value : String)
  | boolean (value : Bool)
  | array (items : List Toml)
  /-- A table between braces. -/
  | inline (entries : List (String × Toml))
  | table (origin : Toml.Origin) (entries : List (String × Toml))
  /-- Tables with one header, in order; the last one comes first. -/
  | tables (newestFirst : List (List (String × Toml)))

namespace Toml

/-- The entries of a table. -/
abbrev Entries := List (String × Toml)

/-- The entries without a key. -/
def without (key : String) (entries : Entries) : Entries :=
  entries.filter fun e => e.1 != key

/-- Add a value under a new key. -/
def addNew (key : String) (value : Toml) (entries : Entries) : Option Entries :=
  match entries.lookup key with
  | some _ => none
  | none => some (entries ++ [(key, value)])

/-- Add a value under a key with further keys in front of it.  `dotted` says whether there are
any, and `grown` whether the entries belong to a table that grew from dotted keys. -/
def addDotted (dotted : Bool) (key : String) (value : Toml) :
    Bool → List String → Entries → Option Entries
  | grown, [], entries => if grown = dotted then addNew key value entries else none
  | _, step :: steps, entries =>
    match entries.lookup step with
    | none =>
      (addDotted dotted key value true steps []).map fun inner =>
        entries ++ [(step, .table .dottedKey inner)]
    | some (.table origin inner) =>
      if origin = .header then none
      else
        (addDotted dotted key value (origin = .dottedKey) steps inner).map fun inner =>
          replaceEntry step (.table origin inner) entries
    | some (.tables (newest :: older)) =>
      (addDotted dotted key value false steps newest).map fun newest =>
        replaceEntry step (.tables (newest :: older)) entries
    | some _ => none

/-- Add the entry of a line to the table it stands in. -/
def addEntry (path : List String) (key : String) (value : Toml) (entries : Entries) :
    Option Entries :=
  addDotted (!path.isEmpty) key value false path entries

/-- Change the table that a path leads to, and make those that are missing on the way. -/
def reach {α : Type} (change : Entries → Option (α × Entries)) :
    List String → Entries → Option (α × Entries)
  | [], entries => change entries
  | step :: steps, entries =>
    match entries.lookup step with
    | none =>
      (reach change steps []).map fun (a, inner) =>
        (a, entries ++ [(step, .table .passage inner)])
    | some (.table origin inner) =>
      (reach change steps inner).map fun (a, inner) =>
        (a, replaceEntry step (.table origin inner) entries)
    | some (.tables (newest :: older)) =>
      (reach change steps newest).map fun (a, newest) =>
        (a, replaceEntry step (.tables (newest :: older)) entries)
    | some _ => none

/-- The header that is open: where its table belongs, and the entries of the table so far. -/
structure OpenTable where
  path : List String
  key : String
  /-- Whether the header starts one more table of a list. -/
  listed : Bool
  entries : Entries

/-- A document that is being read: the finished tables, and the open one.  Without one, entries
belong to the root. -/
structure Draft where
  root : Entries := []
  current : Option OpenTable := none

namespace Draft

/-- Put the open table where it belongs. -/
def finish (d : Draft) : Option Entries :=
  match d.current with
  | none => some d.root
  | some t =>
    let store (entries : Entries) : Option (Unit × Entries) :=
      if t.listed then
        match entries.lookup t.key with
        | some (.tables older) =>
          some ((), replaceEntry t.key (.tables (t.entries :: older)) entries)
        | none => some ((), entries ++ [(t.key, .tables [t.entries])])
        | some _ => none
      else (addNew t.key (.table .header t.entries) entries).map fun entries => ((), entries)
    (reach store t.path d.root).map Prod.snd

/-- Open a table. -/
def openTable (d : Draft) (path : List String) (key : String) : Option Draft := do
  let root ← d.finish
  let take (entries : Entries) : Option (Entries × Entries) :=
    match entries.lookup key with
    | none => some ([], entries)
    | some (.table .passage inner) => some (inner, without key entries)
    | some _ => none
  let (inner, root) ← reach take path root
  some { root, current := some ⟨path, key, false, inner⟩ }

/-- Open one more table of a list. -/
def openListed (d : Draft) (path : List String) (key : String) : Option Draft := do
  let root ← d.finish
  let check (entries : Entries) : Option (Unit × Entries) :=
    match entries.lookup key with
    | none => some ((), entries)
    | some (.tables _) => some ((), entries)
    | some _ => none
  let (_, root) ← reach check path root
  some { root, current := some ⟨path, key, true, []⟩ }

/-- Add the entry of a line. -/
def addLine (d : Draft) (path : List String) (key : String) (value : Toml) : Option Draft :=
  match d.current with
  | none => (addEntry path key value d.root).map fun root => { d with root }
  | some t =>
    (addEntry path key value t.entries).map fun entries =>
      { d with current := some { t with entries } }

end Draft

end Toml

end VServer
