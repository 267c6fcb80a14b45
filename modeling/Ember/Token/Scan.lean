import Ember.Token.Basic
import Ember.Text.Word
import Ember.Text.Quoted
import Ember.Crash
/-!
Reading program text into tokens.

At each point of the text the scanner takes the longest match of one of the terminals:
blanks (space, tab, form feed, carriage return, line feed), a comment from `//` to the end of
the line, a number (ASCII digits), a string literal (a double quote, then characters and
backslash escapes up to the closing quote, where an escape never takes a line feed), a word
(an identifier start followed by word characters), or an operator (the two-character ones
before their one-character prefixes). Which terminal can match is decided by the first
code point alone, and a lone surrogate starts none; only a slash may start both a comment and
an operator, and the comment is the longer match. Blanks and comments are dropped.

Each other lexeme is decoded as it is read, so the first fault in the order of the text is
the one reported: a code point where no terminal matches, a number above `2^63 - 1` (or
with more digits than the host reads), or a string literal with an escape other than `\n`,
`\t`, `\"` and `\\`. The token list ends with an end token at the position after the last
code point.
-/

namespace Ember.Token

/-- Why a text cannot be read as tokens. -/
inductive Fault where
  /-- A double quote that starts no complete string literal. -/
  | unterminatedString (pos : Pos)
  /-- A code point at which no terminal matches. -/
  | unsupportedChar (c : CodePoint) (pos : Pos)
  /-- A number literal above the largest 64-bit signed integer, with its digits. -/
  | integerOutOfRange (digits : Text) (pos : Pos)
  /-- A backslash escape that means nothing, at the position of the literal's opening quote. -/
  | invalidEscape (c : CodePoint) (pos : Pos)
  /-- A number literal too long for the host to read its value. -/
  | host (c : Crash)
deriving DecidableEq, Repr

/-- The text of a scanning fault. -/
def Fault.message : Fault → Text
  | .unterminatedString p => "unterminated string literal at " ++ p.text
  | .unsupportedChar c p => "unsupported character " ++ Text.quote [c] ++ " at " ++ p.text
  | .integerOutOfRange d p => "integer literal " ++ d ++ " out of range at " ++ p.text
  | .invalidEscape c p => "invalid escape sequence \\" ++ [c] ++ " in string at " ++ p.text
  | .host c => c.message

/-- The terminals of the language: what a lexeme can be. -/
inductive Terminal where
  | blank
  | comment
  | number
  | string
  | word
  | symbol (k : Kind)
deriving DecidableEq, Repr

/-- The characters that separate tokens. -/
def isBlank (c : Char) : Bool :=
  c = ' ' || c = '\t' || c = '\x0c' || c = '\r' || c = '\n'

/-- The digits a number literal is written with. -/
def isAsciiDigit (c : Char) : Bool :=
  '0' ≤ c && c ≤ '9'

/-- How many code points the rest of a string literal takes, counted from `n` already read,
closing quote included; `none` when the text ends first, or a backslash stands before a line
feed or at the end. -/
def stringSpan : Text → Nat → Option Nat
  | [], _ => none
  | .char '"' :: _, n => some (n + 1)
  | .char '\\' :: c :: rest, n => if c = .char '\n' then none else stringSpan rest (n + 2)
  | _ :: rest, n => stringSpan rest (n + 1)

/-- The operator or punctuation at the front of `c :: rest` and how many code points it takes
after `c`: two-character operators first. -/
def symbolFront (c : CodePoint) (rest : Text) : Option (Terminal × Nat) :=
  let two := match rest with
    | d :: _ => Kind.symbol? [c, d]
    | [] => none
  match two with
  | some k => some (.symbol k, 1)
  | none => (Kind.symbol? [c]).map fun k => (.symbol k, 0)

/-- The terminal whose longest match starts the text `c :: rest`, and how many code points
that match takes after `c`; `none` when no terminal matches there. -/
def front (c : CodePoint) (rest : Text) : Option (Terminal × Nat) :=
  if c.is isBlank then some (.blank, (rest.takeWhile (·.is isBlank)).length)
  else if c = .char '/' && rest.head? = some (.char '/') then
    some (.comment, 1 + ((rest.drop 1).takeWhile (· ≠ .char '\n')).length)
  else if c.is isAsciiDigit then some (.number, (rest.takeWhile (·.is isAsciiDigit)).length)
  else if c = .char '"' then (stringSpan rest 0).map fun n => (.string, n)
  else if c.is Text.isIdentStart then
    some (.word, (rest.takeWhile (·.is Text.isWordChar)).length)
  else symbolFront c rest

/-- The code point an escape letter stands for, if it is one of `n`, `t`, `"` and `\`. -/
def escapeValue? : CodePoint → Option CodePoint
  | .char 'n' => some (.char '\n')
  | .char 't' => some (.char '\t')
  | .char '"' => some (.char '"')
  | .char '\\' => some (.char '\\')
  | _ => none

/-- The body of a string literal with its escapes decoded, or the first escape letter that
means nothing. -/
def unescape : Text → Except CodePoint Text
  | .char '\\' :: c :: rest =>
    match escapeValue? c with
    | some d => (unescape rest).map (d :: ·)
    | none => .error c
  | c :: rest => (unescape rest).map (c :: ·)
  | [] => .ok []

/-- The value of a string of decimal digits. -/
def digitsValue (ds : Text) : Nat :=
  ds.foldl (fun n d => 10 * n + (d.val - '0'.toNat)) 0

/-- The largest integer a number literal may denote. -/
def maxLiteral : Nat := Nat.pow 2 63 - 1

/-- The token a word stands for: a keyword, or a name whose payload is its text. -/
def ofWord (w : Text) (p : Pos) : Token :=
  match Kind.keyword? w with
  | some .kwTrue => ⟨.kwTrue, .text w, .bool true, p⟩
  | some .kwFalse => ⟨.kwFalse, .text w, .bool false, p⟩
  | some k => ⟨k, .text w, .null, p⟩
  | none => ⟨.ident, .text w, .text w, p⟩

/-- The token a lexeme of terminal `t` at `p` stands for: `none` for blanks and comments,
which are dropped, and a fault for a number out of range or a bad escape. -/
def decode (t : Terminal) (lex : Text) (p : Pos) : Except Fault (Option Token) :=
  match t with
  | .blank | .comment => .ok none
  | .number =>
    let n := digitsValue lex
    if lex.length > maxDigits then .error (.host (.digitLimit lex.length))
    else if n > maxLiteral then .error (.integerOutOfRange lex p)
    else .ok (some ⟨.integer, .text lex, .int n, p⟩)
  | .string =>
    match unescape ((lex.drop 1).dropLast) with
    | .ok body => .ok (some ⟨.string, .text lex, .text body, p⟩)
    | .error c => .error (.invalidEscape c p)
  | .word => .ok (some (ofWord lex p))
  | .symbol k => .ok (some ⟨k, .text lex, .null, p⟩)

/-- Reads the tokens of the text `cs`, which starts at position `p`, after the tokens `acc`
read before it. -/
def scanFrom (cs : Text) (p : Pos) (acc : Array Token) : Except Fault (Array Token) :=
  match cs with
  | [] => .ok (acc.push (endAt p))
  | c :: rest =>
    match front c rest with
    | none => .error (if c = .char '"' then .unterminatedString p else .unsupportedChar c p)
    | some (t, n) =>
      let lex := c :: rest.take n
      match decode t lex p with
      | .error e => .error e
      | .ok tok => scanFrom (rest.drop n) (p.advance lex) (match tok with
          | some tok => acc.push tok
          | none => acc)
termination_by cs.length
decreasing_by simp only [List.length_drop, List.length_cons]; omega

/-- The tokens of a program text, ending with the end token, or the first fault. -/
def scan (s : Text) : Except Fault (List Token) :=
  (scanFrom s Pos.start #[]).map Array.toList

end Ember.Token
