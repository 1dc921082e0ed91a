/-
What is different between two trees of files.

The changes are listed in the order in which they have to be made: directories come before what
lies in them, because a tree lists its nodes in the order in which they came into being.

A file that has only grown is told apart from one that was written anew, since what is written to a
journal goes to its end.  Links are never changed.
-/
import VServer.Files

namespace VServer

open Text (Bytes)

/-- One difference between trees. -/
inductive Change where
  | makeDirectory (place : Place)
  /-- The file has this content now. -/
  | write (place : Place) (content : Bytes)
  /-- The file goes on with these bytes. -/
  | append (place : Place) (bytes : Bytes)
  | remove (place : Place)
deriving DecidableEq, Repr

namespace Files

/-- What has to be done to a place that holds `old` for it to hold `new`. -/
def changeAt (place : Place) (old : Option Node) (new : Node) : List Change :=
  if old = some new then []
  else
    match old, new with
    | _, .directory => [.makeDirectory place]
    | some (.file content _), .file content' _ =>
      if content.isPrefixOf content' then [.append place (content'.drop content.length)]
      else [.write place content']
    | _, .file content _ => [.write place content]
    | _, .link _ => []

/-- The changes that lead from one tree to another. -/
def changes (before after : Files) : List Change :=
  let gone := before.nodes.filter fun n => (after.node? n.1).isNone
  gone.map (fun n => .remove n.1) ++
    after.nodes.flatMap fun n => changeAt n.1 (before.node? n.1) n.2

end Files

end VServer
