import Ember.Value.Basic
import Ember.Text.Word
import Ember.Text.Quoted
import Ember.Crash
/-!
Print templates.

A template is text with directives. A directive is `%`, then flags among `-`, `+`, space,
`0` and `#`, then width digits (decimal digits of any script), then the verb: the next
code point, whatever it is, or none at the end of the template. `Template.pieces` splits a
template into literal text and directives, left to right.

`Template.format` fills the directives with arguments in order:

* a directive without a verb is written as it stands, and `%%` (no flags, no width) as `%`;
* the verbs `d` (an integer), `t` (a truth value), `s` and `v` (any value, by its text) each
  take the next argument; any other verb is a fault;
* an integer is written with a sign `-` when negative, and `+` or a space when not, if the
  flags ask for one; the `-` flag pads on the right with spaces, otherwise the `0` flag with
  a width pads with zeros between the sign and the digits, otherwise spaces pad on the left;
* a text is padded with spaces to the width, on the right with the `-` flag and on the left
  without; `#` changes nothing.

The first fault in the order of the template is reported; arguments left over are a fault
found only after the whole template is filled. A width above `2^63 - 1` is a failure of the
host (`Template.Fault.host`); every smaller width is padded to.
-/

namespace Ember.Template

/-- A directive: its flags, its width digits and its verb (none at the end of the text). -/
structure Directive where
  flags : Text
  width : Text
  verb : Option CodePoint
deriving DecidableEq, Repr

/-- The pieces of a template: literal text and directives. -/
inductive Piece where
  | text (s : Text)
  | directive (d : Directive)
deriving DecidableEq, Repr

/-- The flag characters of a directive. -/
def isFlag (c : Char) : Bool :=
  c = '-' || c = '+' || c = ' ' || c = '0' || c = '#'

/-- Why a template cannot be filled with the given arguments. -/
inductive Fault where
  /-- A verb other than `d`, `t`, `s` and `v`, with the directive as written. -/
  | unknownVerb (spelled : Text)
  /-- A directive with no argument left for it. -/
  | missingArgument (spelled : Text)
  /-- An argument of the wrong type for `d` or `t`. -/
  | mismatch (spelled : Text) (expected got : ValueType)
  /-- Arguments left over after the whole template. -/
  | unusedArguments (count : Nat) (template : Text)
  /-- A width that the host's formatting refuses. -/
  | host (c : Crash)
deriving DecidableEq, Repr

/-- The text of a template fault. -/
def Fault.message : Fault → Text
  | .unknownVerb d => "print: unknown format verb " ++ d
  | .missingArgument d => "print: missing argument for " ++ d
  | .mismatch d e g => "print: " ++ d ++ " expects " ++ e.name ++ ", got " ++ g.name
  | .unusedArguments n t =>
    "print: " ++ toString n ++ " unused argument(s) for format " ++ Text.quote t
  | .host c => c.message

/-- The code points of a template read from the one after a `%`: flags, width digits and
verb, then the rest of the template. -/
def readDirective (cs : Text) : Directive × Text :=
  let flags := cs.takeWhile (·.is isFlag)
  let r1 := cs.dropWhile (·.is isFlag)
  let width := r1.takeWhile (·.is Text.isDecimalDigit)
  match r1.dropWhile (·.is Text.isDecimalDigit) with
  | [] => (⟨flags, width, none⟩, [])
  | v :: rest => (⟨flags, width, some v⟩, rest)

theorem length_readDirective_le (cs : Text) : (readDirective cs).2.length ≤ cs.length := by
  have h1 := (List.dropWhile_sublist (l := cs) (·.is isFlag)).length_le
  have h2 := (List.dropWhile_sublist (l := cs.dropWhile (·.is isFlag))
    (·.is Text.isDecimalDigit)).length_le
  unfold readDirective
  dsimp only
  split
  · simp
  · rename_i v rest h
    rw [h, List.length_cons] at h2
    dsimp only
    omega

/-- The pieces of the template `cs`, after the literal text `acc` (reversed) read before it. -/
def piecesFrom (acc : Text) : Text → List Piece
  | [] => if acc.isEmpty then [] else [.text acc.reverse]
  | c :: cs =>
    if c = .char '%' then
      let r := readDirective cs
      let tail := Piece.directive r.1 :: piecesFrom [] r.2
      if acc.isEmpty then tail else .text acc.reverse :: tail
    else piecesFrom (c :: acc) cs
termination_by cs => cs.length
decreasing_by
  · have := length_readDirective_le cs
    simp only [List.length_cons]
    omega
  · simp only [List.length_cons]; omega

/-- The pieces of a template, left to right. -/
def pieces (t : Text) : List Piece :=
  piecesFrom [] t

/-- A directive as written. -/
def Directive.spelled (d : Directive) : Text :=
  .char '%' :: d.flags ++ d.width ++ d.verb.toList

/-- The value of the width digits, of any script. -/
def widthValue (ds : Text) : Nat :=
  ds.foldl (fun n c =>
    10 * n + (match c with
      | .char c => (Text.decimalValue? c).getD 0
      | .surrogate _ => 0)) 0

/-- The largest width the host's formatting accepts. -/
def maxWidth : Nat := Nat.pow 2 63 - 1

/-- `n` copies of the character `c`. -/
def fill (c : Char) (n : Nat) : Text :=
  List.replicate n (.char c)

/-- `s` padded with spaces to `width` code points, on the right when `left` (left-aligned)
and on the left otherwise. -/
def pad (left : Bool) (width : Nat) (s : Text) : Text :=
  let gap := fill ' ' (width - s.length)
  if left then s ++ gap else gap ++ s

/-- Whether the flags of a directive hold the flag character `c`. -/
def hasFlag (flags : Text) (c : Char) : Bool :=
  flags.contains (.char c)

/-- An integer as a directive with these flags and this width writes it. -/
def formatInt (flags : Text) (width : Option Nat) (n : Int) : Text :=
  let sign : String :=
    if n < 0 then "-" else if hasFlag flags '+' then "+" else if hasFlag flags ' ' then " " else ""
  let digits := toString n.natAbs
  let w := width.getD 0
  if hasFlag flags '-' then pad true w (sign ++ digits)
  else if hasFlag flags '0' ∧ width.isSome then
    sign ++ fill '0' (w - sign.length - digits.length) ++ digits
  else pad false w (sign ++ digits)

/-- A text as a directive with these flags and this width writes it. -/
def formatText (flags : Text) (width : Option Nat) (s : Text) : Text :=
  match width with
  | some w => pad (hasFlag flags '-') w s
  | none => s

/-- Writes with the width of the directive: the host's formatting refuses a width above
`maxWidth`. -/
def Directive.sized (d : Directive) (f : Option Nat → Text) : Except Fault Text :=
  if d.width.isEmpty then .ok (f none)
  else
    let w := widthValue d.width
    if w > maxWidth then .error (.host .widthOverflow)
    else .ok (f (some w))

/-- The text a directive with a verb writes for its argument; the argument's type is checked
before the width. -/
def Directive.write (d : Directive) (v : CodePoint) (arg : Value) : Except Fault Text :=
  if v = .char 'd' then
    match arg with
    | .int n => d.sized fun w => formatInt d.flags w n
    | _ => .error (.mismatch d.spelled .integer arg.type)
  else if v = .char 't' then
    match arg with
    | .bool _ => d.sized fun w => formatText d.flags w arg.inspect
    | _ => .error (.mismatch d.spelled .boolean arg.type)
  else d.sized fun w => formatText d.flags w arg.inspect

/-- Whether a verb takes an argument. -/
def isVerb (v : Char) : Bool :=
  v = 'd' || v = 't' || v = 's' || v = 'v'

/-- Fills the pieces with the arguments, after the text `out` written so far; gives the text
and the arguments left over. -/
def fillPieces (out : Text) : List Piece → List Value → Except Fault (Text × List Value)
  | [], args => .ok (out, args)
  | .text s :: ps, args => fillPieces (out ++ s) ps args
  | .directive d :: ps, args =>
    match d.verb with
    | none => fillPieces (out ++ d.spelled) ps args
    | some v =>
      if v = .char '%' ∧ d.flags.isEmpty ∧ d.width.isEmpty then
        fillPieces (out ++ [.char '%']) ps args
      else if !v.is isVerb then .error (.unknownVerb d.spelled)
      else match args with
        | [] => .error (.missingArgument d.spelled)
        | a :: rest => do
          let s ← d.write v a
          fillPieces (out ++ s) ps rest

/-- Fills a template with arguments. -/
def format (t : Text) (args : List Value) : Except Fault Text := do
  let (out, left) ← fillPieces [] (pieces t) args
  if left.isEmpty then .ok out else .error (.unusedArguments left.length t)

end Ember.Template
