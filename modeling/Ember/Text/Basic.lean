/-!
Program text.

Program text is a sequence of Unicode code points (`Text`). A code point (`CodePoint`) is a
character, that is a Unicode scalar value, or a surrogate code point (U+D800 to U+DFFF)
standing on its own: text handed to the language may hold such lone surrogates, which no Lean
`String` holds. Code points are numbered (`CodePoint.val`, one number each), and texts are
ordered code point by code point, a proper prefix first (`Text.compareCodes`).

Character classes are properties of characters (`Char → Bool`); `CodePoint.is` asks one of a
code point, and a lone surrogate belongs to none of them: it is neither a word character, nor
a digit, nor printable, nor white space.

`Text.ofString` reads a `String` as text, and is the coercion from `String`, so that messages
are written as strings joined with texts. `Text.toString` writes text as a `String`, with the
replacement character U+FFFD for each lone surrogate.
-/

namespace Ember

/-- The first surrogate code point. -/
def surrogateBase : Nat := 0xD800

/-- How many surrogate code points there are. -/
abbrev surrogateCount : Nat := 0x800

/-- A code point of program text: a character, or the lone surrogate `surrogateBase + k`. -/
inductive CodePoint where
  | char (c : Char)
  | surrogate (k : Fin surrogateCount)
deriving DecidableEq, Repr, Inhabited

namespace CodePoint

/-- The number of a code point. -/
def val : CodePoint → Nat
  | .char c => c.toNat
  | .surrogate k => surrogateBase + k.val

/-- The code point numbered `n`, for `n` at most `0x10FFFF`; a larger number gives the
character U+0000. -/
def ofNat (n : Nat) : CodePoint :=
  if h : surrogateBase ≤ n ∧ n < surrogateBase + surrogateCount then
    .surrogate ⟨n - surrogateBase, by omega⟩
  else .char (Char.ofNat n)

/-- Whether the code point is a character of the class `p`; a lone surrogate is of none. -/
def is (p : Char → Bool) : CodePoint → Bool
  | .char c => p c
  | .surrogate _ => false

@[simp] theorem is_char (p : Char → Bool) (c : Char) : (CodePoint.char c).is p = p c := rfl

@[simp] theorem is_surrogate (p : Char → Bool) (k : Fin surrogateCount) :
    (CodePoint.surrogate k).is p = false := rfl

example : (ofNat 0xDFFF).val = 0xDFFF ∧ ofNat 0x61 = .char 'a' ∧
    (ofNat 0x1F600).val = 0x1F600 := by
  decide

end CodePoint

/-- Program text: a sequence of code points. -/
abbrev Text := List CodePoint

namespace Text

/-- The text of the characters of a string. -/
def ofString (s : String) : Text :=
  s.toList.map .char

instance : Coe String Text := ⟨ofString⟩

/-- The string of a text, with the replacement character U+FFFD for each lone surrogate. -/
def toString (t : Text) : String :=
  String.ofList (t.map fun
    | .char c => c
    | .surrogate _ => '�')

/-- Texts compared code point by code point; a proper prefix comes first. -/
def compareCodes : Text → Text → Ordering
  | [], [] => .eq
  | [], _ :: _ => .lt
  | _ :: _, [] => .gt
  | c :: cs, d :: ds =>
    match Ord.compare c.val d.val with
    | .eq => compareCodes cs ds
    | o => o

example : compareCodes (ofString "ab") (ofString "b") = .lt := by decide
example : compareCodes [.surrogate 0] [.char ''] = .lt := by decide
example : compareCodes [.char '￿'] [.surrogate 0] = .gt := by decide

end Text

end Ember
