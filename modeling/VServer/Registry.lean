/-
The tables of a session.

One table is for the built-in module, and each workspace has one of its own.  All are released
together, once.

A workspace that has no table gets an empty one as soon as something is done to it.  The names of
the workspaces are kept in order, so it is known in which order their tables are released.
-/
import VServer.Table

namespace VServer

/-- A table that was released. -/
inductive TableKey where
  | workspace (key : String)
  | base
deriving DecidableEq, Repr

/-- The tables of a session. -/
structure Registry where
  base : Table := Table.initial
  workspaces : NameMap Table := NameMap.empty
  released : Bool := false

namespace Registry

/-- The table of a workspace. -/
def workspace? (r : Registry) (key : String) : Option Table :=
  r.workspaces.get? key

/-- Make sure that a workspace has a table. -/
def registerWorkspace (r : Registry) (key : String) : Registry :=
  match r.workspace? key with
  | some _ => r
  | none => { r with workspaces := r.workspaces.insert key Table.initial }

/-- Change the table of a workspace, or the base table. -/
def modify (r : Registry) (key : Option String) (f : Table → Table) : Registry :=
  match key with
  | none => { r with base := f r.base }
  | some key =>
    let r := r.registerWorkspace key
    { r with workspaces := r.workspaces.insert key (f ((r.workspace? key).getD Table.initial)) }

/-- Release all tables: the workspaces in order, then the base table.  What has been released is
not released again. -/
def releaseAll (r : Registry) : List TableKey × Registry :=
  if r.released then ([], r)
  else
    (r.workspaces.names.map .workspace ++ [.base],
      { base := Table.initial, workspaces := NameMap.empty, released := true })

end Registry

end VServer
