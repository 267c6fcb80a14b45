import Ember.Text.Basic
/-!
Writing text as UTF-8.

UTF-8 encodes characters only, so a writer meets a lone surrogate as something it may refuse.
It refuses the first lone surrogate that it cannot write, together with the lone surrogates
that follow it directly, and reports where that run starts and ends (`Refusal`).

* A strict writer, such as the one that stores a text in a file, writes no lone surrogate
  (`Text.strictRefusal?`).
* The file system writes a name with the lone surrogates U+DC80 to U+DCFF as the single bytes
  0x80 to 0xFF that they stand for (`CodePoint.isByteEscape`), and refuses any other
  (`Text.nameRefusal?`).
-/

namespace Ember

namespace CodePoint

/-- Whether a code point is a lone surrogate. -/
def isSurrogate : CodePoint → Bool
  | .char _ => false
  | .surrogate _ => true

/-- Whether a code point is one of the lone surrogates U+DC80 to U+DCFF, which stand for the
bytes 0x80 to 0xFF in a name of the file system. -/
def isByteEscape : CodePoint → Bool
  | .char _ => false
  | .surrogate k => 0x480 ≤ k.val && k.val ≤ 0x4FF

end CodePoint

namespace Text

/-- A run of lone surrogates that a writer refuses: the positions in the text of its first
and last code points, and its first code point. -/
structure Refusal where
  first : Nat
  last : Nat
  code : CodePoint
deriving DecidableEq, Repr

/-- The first run that a writer refuses in the text `t`, whose first code point stands at
position `i`; `writes` tells which lone surrogates the writer writes. The run starts at the
first lone surrogate that it does not write and goes on as far as lone surrogates follow. -/
def refusalAt (writes : CodePoint → Bool) (i : Nat) : Text → Option Refusal
  | [] => none
  | c :: cs =>
    if c.isSurrogate && !writes c then
      some ⟨i, i + (cs.takeWhile CodePoint.isSurrogate).length, c⟩
    else refusalAt writes (i + 1) cs

/-- The run of lone surrogates that a strict writer refuses in a text, if there is one. -/
def strictRefusal? (t : Text) : Option Refusal :=
  refusalAt (fun _ => false) 0 t

/-- The run of lone surrogates that the file system refuses in a name, if there is one. -/
def nameRefusal? (t : Text) : Option Refusal :=
  refusalAt CodePoint.isByteEscape 0 t

example : strictRefusal? [.char 'a', .surrogate 1, .surrogate 0x480, .char 'b'] =
    some ⟨1, 2, .surrogate 1⟩ := by decide
example : nameRefusal? [.surrogate 0x480, .surrogate 1, .surrogate 2, .char 'b'] =
    some ⟨1, 2, .surrogate 1⟩ := by decide
example : nameRefusal? [.surrogate 0x480, .char 'b'] = none := by decide

end Text

end Ember
