/-
Passing over tokens with balanced brackets.

A group runs from an opening bracket to the closing bracket that brings the number of open
brackets back to zero.  A closing bracket of the wrong kind is reported and closes the innermost
bracket all the same, so where a group ends depends on the number of brackets only.

What is not read is skimmed: token after token is passed over, a group at a time where one opens.
The ways to skim differ only in what they do at a token of some kind, and that is all that tells a
statement from the rest of a field and from a signature.
-/
import VServer.Fault

namespace VServer.Outline

/-- Faults met while tokens were passed over, and the tokens left. -/
structure Skim where
  faults : List Fault
  rest : List Token
deriving DecidableEq, Repr

namespace Skim

/-- Put faults in front of those of a skim. -/
def prepend (faults : List Fault) (s : Skim) : Skim :=
  { s with faults := faults ++ s.faults }

end Skim

/-- The end of a group: faults, the offset where its last token ends, and the tokens left. -/
structure GroupEnd where
  faults : List Fault
  stop : Nat
  rest : List Token
deriving DecidableEq, Repr

/-- The fault of a closing bracket, if it is not of the kind that is open. -/
def closingFaults (top : Bracket) (span : Text.Span) (bracket : Bracket) : List Fault :=
  if top = bracket then [] else [⟨span, .mismatched bracket⟩]

/-- Pass over the rest of a group in which `top`, and around it `below`, are open.  The token
before ends at `stop`, and `unclosed` is the fault of a group without end. -/
def closeGroup (unclosed : Fault) (stop : Nat) (top : Bracket) (below : List Bracket) :
    List Token → GroupEnd
  | [] => ⟨[unclosed], stop, []⟩
  | t :: ts =>
    match t.kind with
    | .opener b => closeGroup unclosed t.span.stop b (top :: below) ts
    | .closer b =>
      match below with
      | [] => ⟨closingFaults top t.span b, t.span.stop, ts⟩
      | outer :: below =>
        let tail := closeGroup unclosed t.span.stop outer below ts
        { tail with faults := closingFaults top t.span b ++ tail.faults }
    | _ => closeGroup unclosed t.span.stop top below ts

/-- Pass over a group behind its opening bracket, which stands at `span`. -/
def skipGroup (span : Text.Span) (bracket : Bracket) (ts : List Token) : GroupEnd :=
  closeGroup ⟨span, .unclosed bracket⟩ span.stop bracket [] ts

/-- Pass over a token, or over the group that it opens. -/
def skipUnit (t : Token) (ts : List Token) : Skim :=
  match t.kind with
  | .opener b =>
    let group := skipGroup t.span b ts
    ⟨group.faults, group.rest⟩
  | _ => ⟨[], ts⟩

/-- What a skim does at a token: it stops before it, it stops behind it or behind its group, or it
goes on behind that, with something to report about the token. -/
inductive Move where
  | before
  | behind
  | onward (causes : List FaultCause)
deriving DecidableEq, Repr

/-- Pass over tokens as `move` tells, in at most `fuel` steps. -/
def skimIn (move : Kind → Move) (fuel : Nat) (ts : List Token) : Skim :=
  match fuel, ts with
  | 0, ts => ⟨[], ts⟩
  | _ + 1, [] => ⟨[], []⟩
  | fuel + 1, t :: ts =>
    match move t.kind with
    | .before => ⟨[], t :: ts⟩
    | .behind => skipUnit t ts
    | .onward causes =>
      let unit := skipUnit t ts
      (skimIn move fuel unit.rest).prepend (causes.map (⟨t.span, ·⟩) ++ unit.faults)

/-- Pass over tokens as `move` tells of the kind of each. -/
def skim (move : Kind → Move) (ts : List Token) : Skim :=
  skimIn move ts.length ts

/-- A statement goes through the first newline outside brackets.  A closing bracket in it closes
nothing. -/
def statementMove : Kind → Move
  | .newline => .behind
  | .closer b => .onward [.unmatched b]
  | _ => .onward []

/-- Pass over a statement. -/
def skipStatement (ts : List Token) : Skim :=
  skim statementMove ts

/-- The rest of a field goes through the first newline outside brackets, or up to the brace that
closes the struct. -/
def fieldRestMove : Kind → Move
  | .newline => .behind
  | .closer .brace => .before
  | _ => .onward []

/-- Pass over the rest of a field. -/
def skipFieldRest (ts : List Token) : Skim :=
  skim fieldRestMove ts

/-- A signature goes up to a newline or a closing bracket, or through a body. -/
def signatureMove : Kind → Move
  | .newline => .before
  | .closer _ => .before
  | .opener .brace => .behind
  | _ => .onward []

/-- Pass over the signature of a function, and over its body if it has one.  The newline behind
them is left. -/
def skipSignature (ts : List Token) : Skim :=
  skim signatureMove ts

/-- Pass over a group in brackets of some kind, if one stands here, and tell whether one does. -/
def skipOptional (b : Bracket) (ts : List Token) : Bool × Skim :=
  match ts with
  | t :: rest =>
    if t.kind = .opener b then
      let group := skipGroup t.span b rest
      (true, ⟨group.faults, group.rest⟩)
    else (false, ⟨[], ts⟩)
  | [] => (false, ⟨[], []⟩)

end VServer.Outline
