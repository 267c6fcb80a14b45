import Ember.Token.Scan
import Ember.Syntax.Parse
/-!
Reading program text: scanning it into tokens, then reading the tokens into a program. The
first fault of either stage is reported, and a scanning fault comes first, since no token is
read before the whole text is scanned.
-/

namespace Ember

/-- Why a program text cannot be read. -/
inductive SourceFault where
  /-- The text cannot be split into tokens. -/
  | scan (f : Token.Fault)
  /-- The tokens do not form a program. -/
  | parse (f : Syntax.Fault)
deriving DecidableEq, Repr

/-- The text of a fault in reading program text. -/
def SourceFault.message : SourceFault → Text
  | .scan f => f.message
  | .parse f => f.message

/-- The host failure behind a fault in reading program text, if it is one. -/
def SourceFault.crash? : SourceFault → Option Crash
  | .scan (.host c) => some c
  | _ => none

/-- Reads a program from its text. -/
def Program.ofSource? (s : Text) : Except SourceFault Program :=
  match Token.scan s with
  | .error f => .error (.scan f)
  | .ok ts =>
    match Program.ofTokens? ts with
    | .error f => .error (.parse f)
    | .ok p => .ok p

end Ember
