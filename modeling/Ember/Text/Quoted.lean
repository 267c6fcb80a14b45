import Ember.Text.Printable
import Ember.Text.Basic
/-!
Quoted text, as messages show a character or a lexeme.

The text is put between single quotes, or between double quotes when it holds a single quote
and no double quote. Inside, a backslash and the chosen quote are escaped with a backslash,
line feed, carriage return and tab are written `\n`, `\r`, `\t`, and every other code point
that is not a printable character (a lone surrogate among them) is written as its number in
hexadecimal with lowercase digits: `\x` and two digits below 256, `\u` and four digits below
65536, else `\U` and eight digits. A quoted text is therefore a `String`: no lone surrogate
is left in it.
-/

namespace Ember.Text

/-- The `width` lowercase hexadecimal digits of `n`, most significant first. -/
def hexDigits : Nat → Nat → List Char
  | 0, _ => []
  | width + 1, n => hexDigits width (n / 16) ++ [Nat.digitChar (n % 16)]

/-- The escape of the code point numbered `n`: `\x`, `\u` or `\U` and its number in the
fewest of two, four or eight hexadecimal digits. -/
def hexEscape (n : Nat) : List Char :=
  if n < 0x100 then '\\' :: 'x' :: hexDigits 2 n
  else if n < 0x10000 then '\\' :: 'u' :: hexDigits 4 n
  else '\\' :: 'U' :: hexDigits 8 n

/-- The written form of one code point between quotes `q`. -/
def escapeCode (q : Char) : CodePoint → List Char
  | .surrogate k => hexEscape (CodePoint.surrogate k).val
  | .char c =>
    if c = '\\' then ['\\', '\\']
    else if c = q then ['\\', q]
    else if c = '\n' then ['\\', 'n']
    else if c = '\r' then ['\\', 'r']
    else if c = '\t' then ['\\', 't']
    else if isPrintable c then [c]
    else hexEscape c.toNat

/-- The quote a text is put between: double when it holds a single quote and no double
quote, single otherwise. -/
def quoteFor (t : Text) : Char :=
  if t.contains (.char '\'') && !t.contains (.char '"') then '"' else '\''

/-- The text quoted for a message. -/
def quote (t : Text) : String :=
  let q := quoteFor t
  String.ofList (q :: (t.flatMap (escapeCode q) ++ [q]))

example : quote [.surrogate 1, .char 'a'] = "'\\ud801a'" := by decide +kernel
example : quote [.char (Char.ofNat 0xDD801)] = "'\\U000dd801'" := by decide +kernel
example : quote (ofString "it's") = "\"it's\"" := by decide +kernel

end Ember.Text
