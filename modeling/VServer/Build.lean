/-
Which files belong to a build.

The name of a source file says where it is used: `x_linux.v` on one system, `x.js.v` with one code
generator, `x_d_flag.v` with a switch set, `x_notd_flag.v` with it not set.  `x_default.v` stands
in where no file for the system at hand was chosen.  Tests never belong to a build.

A name is looked at from behind, in a fixed order: the extension, the ending of a test, the code
generator, a switch, the ending of a default, and last the system.  A file for another code
generator does not belong to the build; otherwise the name without that part is judged by the first
of the others that is found in it.

A default can only be judged together with the other files, and that is why files are chosen from a
list in two steps.
-/
import VServer.Path
import VServer.Text.Lower

namespace VServer

/-- What writes the code. -/
inductive Backend where
  | c
  | js
  | wasm
  | native
deriving DecidableEq, Repr

namespace Backend

/-- The name of a backend in file names. -/
def name : Backend → String
  | c => "c"
  | js => "js"
  | wasm => "wasm"
  | native => "native"

/-- The backend with this name. -/
def ofName? (name : List Char) : Option Backend :=
  [c, js, wasm, native].find? fun b => b.name.toList == name

end Backend

/-- What files are chosen for. -/
structure BuildTarget where
  os : String
  backend : Backend := .c
  /-- The switches that are set. -/
  defines : List String := []
deriving DecidableEq, Repr

/-- What the name of a file says about a target. -/
inductive Selection where
  | excluded
  | included
  /-- Included where no file for the system has the same base. -/
  | fallback (base : List Char)
deriving DecidableEq, Repr

/-- The systems that file names can name. -/
def osNames : List String :=
  ["linux", "windows", "macos", "darwin", "freebsd", "openbsd", "netbsd", "dragonfly", "android",
    "ios", "solaris", "qnx", "haiku", "serenity", "nix", "bsd"]

/-- The text before the last occurrence of a separator, and the text behind it. -/
def lastCut? (sep : List Char) : List Char → Option (List Char × List Char)
  | [] => if sep.isEmpty then some ([], []) else none
  | c :: cs =>
    match lastCut? sep cs with
    | some (before, after) => some (c :: before, after)
    | none => if sep.isPrefixOf (c :: cs) then some ([], (c :: cs).drop sep.length) else none

/-- The text in front of an ending. -/
def before? (ending text : List Char) : Option (List Char) :=
  if ending.isSuffixOf text then some (text.take (text.length - ending.length)) else none

/-- The name of a source file without its extension. -/
def sourceStem? (path : String) : Option (List Char) :=
  match Path.fileName? path with
  | none => none
  | some name =>
    match Path.splitExtension name with
    | (stem, some "v") => some stem.toList
    | _ => none

/-- The base of a name and the system that it ends in. -/
def osCut? (stem : List Char) : Option (List Char × String) :=
  match Path.splitAtLast? '_' stem with
  | none => none
  | some (base, os) =>
    if osNames.contains (String.ofList os) then some (base, String.ofList os) else none

namespace BuildTarget

/-- The target for a system, with the usual backend and no switches. -/
def ofOs (os : String) : BuildTarget :=
  { os := Text.lower os }

/-- Whether files for the system `os` are for this target. -/
def matchesOs (target : BuildTarget) (os : String) : Bool :=
  if os = "nix" then target.os != "windows"
  else if os = "bsd" then ["freebsd", "openbsd", "netbsd", "dragonfly"].contains target.os
  else if os = "macos" || os = "darwin" then target.os = "macos"
  else target.os = os

/-- What the name of a file without its backend says. -/
def classifyPlain (target : BuildTarget) (stem : List Char) : Selection :=
  match lastCut? "_notd_".toList stem with
  | some (_, flag) =>
    if target.defines.contains (String.ofList flag) then .excluded else .included
  | none =>
    match lastCut? "_d_".toList stem with
    | some (_, flag) =>
      if target.defines.contains (String.ofList flag) then .included else .excluded
    | none =>
      match before? "_default".toList stem with
      | some base => .fallback base
      | none =>
        match osCut? stem with
        | some (_, os) => if target.matchesOs os then .included else .excluded
        | none => .included

/-- What the name of a file without its extension says. -/
def classifyStem (target : BuildTarget) (stem : List Char) : Selection :=
  if "_test".toList.isSuffixOf stem then .excluded
  else
    match Path.splitAtLast? '.' stem with
    | none => target.classifyPlain stem
    | some (rest, backend) =>
      match Backend.ofName? backend with
      | none => target.classifyPlain stem
      | some b => if b = target.backend then target.classifyPlain rest else .excluded

/-- What the name of a file says about a target. -/
def classify (target : BuildTarget) (path : String) : Selection :=
  match sourceStem? path with
  | none => .excluded
  | some stem => target.classifyStem stem

/-- Whether a file may belong to a build. -/
def mayInclude (target : BuildTarget) (path : String) : Bool :=
  target.classify path != .excluded

/-- The base of a file that is for one system. -/
def osBase? (path : String) : Option (List Char) :=
  match sourceStem? path with
  | none => none
  | some stem =>
    let plain :=
      match Path.splitAtLast? '.' stem with
      | some (rest, backend) => if (Backend.ofName? backend).isSome then rest else stem
      | none => stem
    (osCut? plain).map Prod.fst

/-- The bases for which a file for the system is included. -/
def coveredBases (target : BuildTarget) (paths : List String) : List (List Char) :=
  (paths.filter fun p => target.classify p == .included).filterMap osBase?

/-- Whether a file belongs to the build, where some bases are covered. -/
def isSelected (target : BuildTarget) (covered : List (List Char)) (path : String) : Bool :=
  match target.classify path with
  | .excluded => false
  | .included => true
  | .fallback base => !covered.contains base

/-- The files that belong to a build, in the order given. -/
def select (target : BuildTarget) (paths : List String) : List String :=
  paths.filter (target.isSelected (target.coveredBases paths))

end BuildTarget

end VServer
