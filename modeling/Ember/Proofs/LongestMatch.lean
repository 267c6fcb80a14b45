import Ember.Token.Scan
/-!
The scanner reads the longest match.

The tokens of the language are given by patterns: blanks, comments from `//` to the end of the
line, numbers of ASCII digits, string literals `"(\\.|[^"\\])*"` in which an escape takes no
line feed, words (an identifier start and word characters) and the operators
(`Terminal.matches`). The reference reader `munch` reads a text as these patterns say: at each
offset it takes the longest prefix of the rest that some pattern matches (`longestMatch`),
drops blanks and comments, decodes every other lexeme into a token at the line and column of
its offset (`posAt`, counted from the line feeds before it), stops at the first fault in the
order of the text, and ends with an end token at the position after the text.

Main statement: `scan` is this reference reader, with each lexeme decoded as the language says
except that the host refuses a number of more than `maxDigits` digits (`scan_eq_munch`).

The scanner picks the terminal by the first code point of the rest and measures its lexeme
directly (`front`). That this is the longest match (`front_eq_longestMatch`) rests on each
pattern's lexemes starting with code points of their own (`Terminal.starts`), so that at most
one terminal matches a lexeme, and on each pattern's set of matching prefixes being an initial
run of lengths, except for strings, of which at most one prefix matches.
-/

namespace Ember.Token

/-! ### The patterns of the terminals -/

/-- Whether a text is the inside of a string literal: backslash escapes of any code point but
a line feed, and code points other than `"` and `\`. -/
def stringBody : Text → Bool
  | [] => true
  | .char '\\' :: c :: rest => c != .char '\n' && stringBody rest
  | .char '\\' :: [] => false
  | .char '"' :: _ => false
  | _ :: rest => stringBody rest

/-- Whether a text is what follows the opening quote of a string literal: its inside, then the
closing quote. -/
def stringRest (u : Text) : Bool :=
  u.getLast? == some (.char '"') && stringBody u.dropLast

/-- Whether the lexeme `lex` matches the pattern of the terminal. -/
def Terminal.matches : Terminal → Text → Bool
  | .blank, lex => !lex.isEmpty && lex.all (·.is isBlank)
  | .comment, lex =>
    lex.take 2 == [.char '/', .char '/'] && (lex.drop 2).all (· ≠ .char '\n')
  | .number, lex => !lex.isEmpty && lex.all (·.is isAsciiDigit)
  | .string, lex => lex.head? == some (.char '"') && stringRest (lex.drop 1)
  | .word, c :: rest => c.is Text.isIdentStart && rest.all (·.is Text.isWordChar)
  | .word, [] => false
  | .symbol k, lex => Kind.symbol? lex == some k

/-- The terminals, in the order in which a lexeme is tried against them. -/
def Terminal.all : List Terminal :=
  [.blank, .comment, .number, .string, .word] ++ Kind.symbols.map (.symbol ·.2)

/-- The terminal whose pattern the lexeme matches, if one does. -/
def Terminal.of? (lex : Text) : Option Terminal :=
  Terminal.all.find? (·.matches lex)

/-- The longest nonempty prefix of `s` of at most `n` code points that some terminal matches,
as that terminal and the prefix's length. -/
def longestUpTo (s : Text) : Nat → Option (Terminal × Nat)
  | 0 => none
  | n + 1 =>
    match Terminal.of? (s.take (n + 1)) with
    | some t => some (t, n + 1)
    | none => longestUpTo s n

/-- The longest nonempty prefix of `s` that some terminal matches. -/
def longestMatch (s : Text) : Option (Terminal × Nat) :=
  longestUpTo s s.length

theorem longestUpTo_pos {s : Text} {t : Terminal} {n : Nat} :
    ∀ {k : Nat}, longestUpTo s k = some (t, n) → 0 < n ∧ n ≤ k
  | 0, h => by simp [longestUpTo] at h
  | k + 1, h => by
    rw [longestUpTo] at h
    split at h
    · cases h
      omega
    · have := longestUpTo_pos h
      omega

theorem longestMatch_pos {s : Text} {t : Terminal} {n : Nat} (h : longestMatch s = some (t, n)) :
    0 < n ∧ n ≤ s.length :=
  longestUpTo_pos h

/-- The line and column of offset `i` of the text `s`: one more than the number of line feeds
before it, and one more than the number of code points since the last of them. -/
def posAt (s : Text) (i : Nat) : Pos :=
  ⟨1 + ((s.take i).count (.char '\n') : Nat),
    1 + (((s.take i).reverse.takeWhile (· != .char '\n')).length : Nat)⟩

/-! ### The reference reader -/

/-- The token that a lexeme of the terminal `t` at `p` stands for, as the language defines it:
none for blanks and comments, a number with its value when that is at most `maxLiteral`, a
string literal with its escapes decoded, a keyword or a name for a word, and an operator. -/
def decodeLexeme (t : Terminal) (lex : Text) (p : Pos) : Except Fault (Option Token) :=
  match t with
  | .blank | .comment => .ok none
  | .number =>
    if digitsValue lex > maxLiteral then .error (.integerOutOfRange lex p)
    else .ok (some ⟨.integer, .text lex, .int (digitsValue lex), p⟩)
  | .string =>
    match unescape ((lex.drop 1).dropLast) with
    | .ok body => .ok (some ⟨.string, .text lex, .text body, p⟩)
    | .error c => .error (.invalidEscape c p)
  | .word => .ok (some (ofWord lex p))
  | .symbol k => .ok (some ⟨k, .text lex, .null, p⟩)

/-- How the host decodes a lexeme: as the language says, except that it refuses to compute
the value of a number of more than `maxDigits` digits. -/
def hostDecode (t : Terminal) (lex : Text) (p : Pos) : Except Fault (Option Token) :=
  if t = .number ∧ maxDigits < lex.length then .error (.host (.digitLimit lex.length))
  else decodeLexeme t lex p

set_option linter.unusedVariables false in
/-- Reads the text `s` from offset `i` on by longest matches, each lexeme decoded by `dec`:
the tokens up to and with the end token, or the first fault. -/
def munchFrom (dec : Terminal → Text → Pos → Except Fault (Option Token)) (s : Text)
    (i : Nat) : Except Fault (List Token) :=
  match hs : s.drop i with
  | [] => .ok [endAt (posAt s i)]
  | c :: _ =>
    match hm : longestMatch (s.drop i) with
    | none =>
      .error (if c = .char '"' then .unterminatedString (posAt s i)
        else .unsupportedChar c (posAt s i))
    | some (t, n) =>
      match dec t ((s.drop i).take n) (posAt s i) with
      | .error e => .error e
      | .ok tok => (munchFrom dec s (i + n)).map (tok.toList ++ ·)
termination_by s.length - i
decreasing_by
  have hn := longestMatch_pos hm
  have hi : (s.drop i).length = s.length - i := List.length_drop
  rw [hs, List.length_cons] at hi
  omega

/-- The reference reading of a whole text. -/
def munch (dec : Terminal → Text → Pos → Except Fault (Option Token)) (s : Text) :
    Except Fault (List Token) :=
  munchFrom dec s 0

/-! ### Positions -/

/-- Reading a text from the start of a text ends at the line and column that its line feeds
give. -/
theorem advance_start (t : Text) : Pos.start.advance t =
    ⟨1 + (t.count (.char '\n') : Nat),
      1 + ((t.reverse.takeWhile (· != .char '\n')).length : Nat)⟩ := by
  rw [← List.reverse_reverse t]
  induction t.reverse with
  | nil => rfl
  | cons c r ih =>
    rw [List.reverse_cons, Pos.advance_append, ih]
    by_cases hc : c = .char '\n'
    · subst hc
      simp [Pos.next, List.count_append]
      omega
    · simp [Pos.next, hc, List.count_append]
      omega

theorem posAt_eq_advance (s : Text) (i : Nat) : posAt s i = Pos.start.advance (s.take i) :=
  (advance_start _).symm

/-- The position after a lexeme is the position of its first code point advanced over it. -/
theorem posAt_add (s : Text) (i n : Nat) :
    posAt s (i + n) = (posAt s i).advance ((s.drop i).take n) := by
  rw [posAt_eq_advance, posAt_eq_advance, List.take_add, Pos.advance_append]

/-! ### Which code points start which terminal -/

/-- The characters an operator starts with. -/
def symbolStarts : List Char :=
  ['*', '=', '!', '<', '>', '&', '|', '+', '-', '/', ',', ';', '.', '(', ')', '\x7b', '\x7d']

/-- The code points a lexeme of the terminal starts with. -/
def Terminal.starts : Terminal → CodePoint → Bool
  | .blank, c => c.is isBlank
  | .comment, c => c == .char '/'
  | .number, c => c.is isAsciiDigit
  | .string, c => c == .char '"'
  | .word, c => c.is Text.isIdentStart
  | .symbol _, c => c.is symbolStarts.contains

theorem isBlank_iff {ch : Char} : isBlank ch = true ↔ ch ∈ [' ', '\t', '\x0c', '\r', '\n'] := by
  simp [isBlank, or_assoc]

/-- A blank is no digit, quote, identifier start or first character of an operator. -/
theorem blank_excludes : ∀ ch ∈ [' ', '\t', '\x0c', '\r', '\n'],
    isAsciiDigit ch = false ∧ ch ≠ '"' ∧ ch ≠ '/' ∧ Text.isIdentStart ch = false ∧
      symbolStarts.contains ch = false := by
  -- one closed fact per blank, rather than a decision over the list
  simp only [List.forall_mem_cons, List.not_mem_nil, false_imp_iff, implies_true, and_true]
  and_intros <;> decide

/-- The first character of an operator is no blank, digit, quote or identifier start. -/
theorem symbolStart_excludes : ∀ ch ∈ symbolStarts,
    isBlank ch = false ∧ isAsciiDigit ch = false ∧ ch ≠ '"' ∧
      Text.isIdentStart ch = false := by
  simp only [symbolStarts, List.forall_mem_cons, List.not_mem_nil, false_imp_iff, implies_true,
    and_true]
  and_intros <;> decide

theorem quote_excludes : isBlank '"' = false ∧ isAsciiDigit '"' = false ∧
    Text.isIdentStart '"' = false ∧ symbolStarts.contains '"' = false := by
  decide

/-- A digit is no blank, quote, identifier start or first character of an operator. -/
theorem digit_excludes {ch : Char} (h : isAsciiDigit ch = true) : isBlank ch = false ∧
    ch ≠ '"' ∧ ch ≠ '/' ∧ Text.isIdentStart ch = false ∧
      symbolStarts.contains ch = false := by
  simp only [isAsciiDigit, Bool.and_eq_true, decide_eq_true_eq] at h
  have hascii : ch.toNat < 128 :=
    Nat.lt_of_le_of_lt (UInt32.le_iff_toNat_le.mp h.2) (by decide)
  have hdigit : ch.isDigit = true := by
    simp only [Char.isDigit, Bool.and_eq_true, decide_eq_true_eq]
    exact h
  refine ⟨?_, ?_, ?_, ?_, ?_⟩
  · cases hb : isBlank ch
    · rfl
    · have := (blank_excludes ch (isBlank_iff.mp hb)).1
      simp [isAsciiDigit, h] at this
  · rintro rfl
    exact absurd h (by decide)
  · rintro rfl
    exact absurd h (by decide)
  · simp [Text.isIdentStart, Text.isDecimalDigit, hascii, hdigit]
  · cases hs : symbolStarts.contains ch
    · rfl
    · have := (symbolStart_excludes ch (by simpa using hs)).2.1
      simp [isAsciiDigit, h] at this

/-- Every operator is one or two characters long and starts with a character of
`symbolStarts`, and none starts with `//`. -/
theorem symbols_spelling : ∀ e ∈ Kind.symbols, (e.1.length = 1 ∨ e.1.length = 2) ∧
    (∃ ch ∈ symbolStarts, e.1.head? = some (.char ch)) ∧
      e.1.take 2 ≠ [.char '/', .char '/'] := by
  -- checked entry by entry on the table, as a computation on booleans
  have hall : Kind.symbols.all (fun e =>
      (e.1.length == 1 || e.1.length == 2) &&
        symbolStarts.any (fun ch => e.1.head? == some (.char ch)) &&
          e.1.take 2 != [.char '/', .char '/']) = true := by
    decide
  intro e he
  have h := List.all_eq_true.1 hall e he
  simp only [Bool.and_eq_true, Bool.or_eq_true, beq_iff_eq, List.any_eq_true, bne_iff_ne,
    ne_eq] at h
  exact ⟨h.1.1, h.1.2, h.2⟩

theorem symbol?_mem {w : Text} {k : Kind} (h : Kind.symbol? w = some k) :
    (w, k) ∈ Kind.symbols := by
  obtain ⟨l₁, l₂, hl, _⟩ := List.lookup_eq_some_iff.mp h
  rw [hl]
  simp

theorem symbol?_starts {c : CodePoint} {u : Text} {k : Kind}
    (h : Kind.symbol? (c :: u) = some k) : c.is symbolStarts.contains = true := by
  obtain ⟨ch, hch, hhead⟩ := (symbols_spelling _ (symbol?_mem h)).2.1
  simp only [List.head?_cons, Option.some.injEq] at hhead
  subst hhead
  simpa using hch

/-- A terminal's lexemes start with code points of its own. -/
theorem Terminal.starts_of_matches {t : Terminal} {c : CodePoint} {u : Text}
    (h : t.matches (c :: u) = true) : t.starts c = true := by
  cases t with
  | symbol k => exact symbol?_starts (by simpa [Terminal.matches] using h)
  | blank | number | word => simp_all [Terminal.matches, Terminal.starts]
  | comment =>
    simp only [Terminal.matches, List.take_succ_cons, Bool.and_eq_true, beq_iff_eq,
      List.cons.injEq] at h
    simp [Terminal.starts, h.1.1]
  | string =>
    simp only [Terminal.matches, List.head?_cons, Bool.and_eq_true, beq_iff_eq,
      Option.some.injEq] at h
    simp [Terminal.starts, h.1]

theorem Terminal.starts_iff_of_blank {c : CodePoint} (hc : c.is isBlank = true)
    (t : Terminal) : t.starts c = true ↔ t = .blank := by
  cases c with
  | surrogate => simp at hc
  | char ch =>
    have hb := blank_excludes ch (isBlank_iff.mp hc)
    cases t <;> simp_all [Terminal.starts]

theorem Terminal.starts_iff_of_digit {c : CodePoint} (hc : c.is isAsciiDigit = true)
    (t : Terminal) : t.starts c = true ↔ t = .number := by
  cases c with
  | surrogate => simp at hc
  | char ch =>
    have hd := digit_excludes hc
    cases t <;> simp_all [Terminal.starts]

theorem Terminal.starts_iff_of_quote (t : Terminal) :
    t.starts (.char '"') = true ↔ t = .string := by
  cases t <;> simp [Terminal.starts, quote_excludes, symbolStarts]

theorem Terminal.starts_iff_of_identStart {c : CodePoint} (hc : c.is Text.isIdentStart = true)
    (t : Terminal) : t.starts c = true ↔ t = .word := by
  cases c with
  | surrogate => simp at hc
  | char ch =>
    have hb : isBlank ch = false := by
      cases hb : isBlank ch
      · rfl
      · simp [(blank_excludes ch (isBlank_iff.mp hb)).2.2.2.1] at hc
    have hd : isAsciiDigit ch = false := by
      cases hd : isAsciiDigit ch
      · rfl
      · simp [(digit_excludes hd).2.2.2.1] at hc
    have hs : symbolStarts.contains ch = false := by
      cases hs : symbolStarts.contains ch
      · rfl
      · simp [(symbolStart_excludes ch (by simpa using hs)).2.2.2] at hc
    have hq : ch ≠ '"' := by
      rintro rfl
      simp [quote_excludes] at hc
    have hslash : ch ≠ '/' := by
      rintro rfl
      exact absurd hs (by decide)
    cases t <;> simp_all [Terminal.starts]

/-- Past blanks, digits, the quote and identifier starts, only a comment (at a slash) and the
operators are left. -/
theorem Terminal.starts_other {c : CodePoint} {t : Terminal} (hb : c.is isBlank = false)
    (hd : c.is isAsciiDigit = false) (hq : c ≠ .char '"') (hi : c.is Text.isIdentStart = false)
    (h : t.starts c = true) : (t = .comment ∧ c = .char '/') ∨ ∃ k, t = .symbol k := by
  cases t with
  | blank => simp [Terminal.starts, hb] at h
  | comment => exact .inl ⟨rfl, by simpa [Terminal.starts] using h⟩
  | number => simp [Terminal.starts, hd] at h
  | string => exact absurd (by simpa [Terminal.starts] using h) hq
  | word => simp [Terminal.starts, hi] at h
  | symbol k => exact .inr ⟨k, rfl⟩

theorem symbol?_length {w : Text} {k : Kind} (h : Kind.symbol? w = some k) :
    w.length = 1 ∨ w.length = 2 :=
  (symbols_spelling _ (symbol?_mem h)).1

theorem symbol?_take_two {w : Text} {k : Kind} (h : Kind.symbol? w = some k) :
    w.take 2 ≠ [.char '/', .char '/'] :=
  (symbols_spelling _ (symbol?_mem h)).2.2

theorem symbol?_not_comment {w : Text} {k : Kind} (h : Kind.symbol? w = some k) :
    Terminal.comment.matches w = false := by
  simp [Terminal.matches, symbol?_take_two h]

theorem Terminal.matches_nil (t : Terminal) : t.matches [] = false := by
  cases t with
  | symbol k =>
    cases h : Kind.symbol? [] with
    | none => simp [Terminal.matches, h]
    | some k' => simpa using symbol?_length h
  | _ => simp [Terminal.matches, stringRest]

/-- The first character of an operator starts no other terminal than a comment. -/
theorem symbolStart_other {c : CodePoint} (hc : c.is symbolStarts.contains = true) :
    c.is isBlank = false ∧ c.is isAsciiDigit = false ∧ c ≠ .char '"' ∧
      c.is Text.isIdentStart = false := by
  cases c with
  | surrogate => simp at hc
  | char ch =>
    obtain ⟨hb, hd, hq, hi⟩ := symbolStart_excludes ch (by simpa using hc)
    simp [hb, hd, hq, hi]

/-- At most one terminal matches a lexeme. -/
theorem Terminal.matches_unique {t t' : Terminal} {lex : Text} (h : t.matches lex = true)
    (h' : t'.matches lex = true) : t = t' := by
  cases lex with
  | nil => simp [Terminal.matches_nil] at h
  | cons c u =>
    have hs := Terminal.starts_of_matches h
    have hs' := Terminal.starts_of_matches h'
    cases t with
    | blank => exact ((Terminal.starts_iff_of_blank hs t').mp hs').symm
    | number => exact ((Terminal.starts_iff_of_digit hs t').mp hs').symm
    | word => exact ((Terminal.starts_iff_of_identStart hs t').mp hs').symm
    | string =>
      simp only [Terminal.starts, beq_iff_eq] at hs
      subst hs
      exact ((Terminal.starts_iff_of_quote t').mp hs').symm
    | comment =>
      simp only [Terminal.starts, beq_iff_eq] at hs
      subst hs
      obtain ⟨hb, hd, hq, hi⟩ := symbolStart_other (c := .char '/') (by decide)
      rcases Terminal.starts_other hb hd hq hi hs' with ⟨rfl, _⟩ | ⟨k', rfl⟩
      · rfl
      · have hk : Kind.symbol? (.char '/' :: u) = some k' := by
          simpa [Terminal.matches] using h'
        simp [symbol?_not_comment hk] at h
    | symbol k =>
      have hk : Kind.symbol? (c :: u) = some k := by simpa [Terminal.matches] using h
      obtain ⟨hb, hd, hq, hi⟩ := symbolStart_other hs
      rcases Terminal.starts_other hb hd hq hi hs' with ⟨rfl, _⟩ | ⟨k', rfl⟩
      · simp [symbol?_not_comment hk] at h'
      · have hk' : Kind.symbol? (c :: u) = some k' := by simpa [Terminal.matches] using h'
        rw [hk] at hk'
        cases hk'
        rfl

theorem Terminal.mem_all {t : Terminal} {lex : Text} (h : t.matches lex = true) :
    t ∈ Terminal.all := by
  cases t with
  | symbol k =>
    have hk : Kind.symbol? lex = some k := by simpa [Terminal.matches] using h
    simp only [Terminal.all, List.mem_append, List.mem_map]
    exact .inr ⟨(lex, k), symbol?_mem hk, rfl⟩
  | _ => simp [Terminal.all]

theorem Terminal.of?_eq_some {t : Terminal} {lex : Text} (h : t.matches lex = true) :
    Terminal.of? lex = some t := by
  cases hof : Terminal.of? lex with
  | none => exact absurd h (List.find?_eq_none.mp hof t (Terminal.mem_all h))
  | some t' =>
    rw [Terminal.of?] at hof
    have hm := List.find?_some hof
    rw [Terminal.matches_unique hm h]

theorem Terminal.of?_eq_none {lex : Text} (h : ∀ t : Terminal, t.matches lex = false) :
    Terminal.of? lex = none :=
  List.find?_eq_none.mpr fun t _ => by simp [h t]

/-! ### The longest match -/

theorem longestUpTo_eq_some {s : Text} {t : Terminal} {n : Nat} (ht : t.matches (s.take n) = true) :
    ∀ k, 0 < n → n ≤ k →
      (∀ m, n < m → m ≤ k → ∀ t' : Terminal, t'.matches (s.take m) = false) →
      longestUpTo s k = some (t, n)
  | 0, h0, hk, _ => by omega
  | k + 1, h0, hk, hmax => by
    rw [longestUpTo]
    by_cases hn : n = k + 1
    · subst hn
      rw [Terminal.of?_eq_some ht]
    · rw [Terminal.of?_eq_none (hmax (k + 1) (by omega) (Nat.le_refl _))]
      exact longestUpTo_eq_some ht k h0 (by omega) fun m h1 h2 => hmax m h1 (by omega)

theorem longestUpTo_eq_none {s : Text} : ∀ k,
    (∀ m, 0 < m → m ≤ k → ∀ t : Terminal, t.matches (s.take m) = false) →
      longestUpTo s k = none
  | 0, _ => rfl
  | k + 1, h => by
    rw [longestUpTo, Terminal.of?_eq_none (h (k + 1) (by omega) (Nat.le_refl _))]
    exact longestUpTo_eq_none k fun m h1 h2 => h m h1 (by omega)

/-- The longest match at `c :: rest` takes `n` code points after `c` when a terminal matches
those and none matches a longer prefix. -/
theorem longestMatch_cons_eq_some {c : CodePoint} {rest : Text} {t : Terminal} {n : Nat}
    (hn : n ≤ rest.length) (ht : t.matches (c :: rest.take n) = true)
    (hmax : ∀ j, n < j → j ≤ rest.length → ∀ t' : Terminal,
      t'.matches (c :: rest.take j) = false) :
    longestMatch (c :: rest) = some (t, n + 1) := by
  apply longestUpTo_eq_some ht _ (by omega) (by simpa using hn)
  intro m h1 h2 t'
  obtain ⟨j, rfl⟩ : ∃ j, m = j + 1 := ⟨m - 1, by omega⟩
  exact hmax j (by omega) (by simpa using h2) t'

theorem longestMatch_cons_eq_none {c : CodePoint} {rest : Text}
    (h : ∀ j, j ≤ rest.length → ∀ t : Terminal, t.matches (c :: rest.take j) = false) :
    longestMatch (c :: rest) = none := by
  apply longestUpTo_eq_none
  intro m h1 h2 t
  obtain ⟨j, rfl⟩ : ∃ j, m = j + 1 := ⟨m - 1, by omega⟩
  exact h j (by simpa using h2) t

/-- A prefix of a list has a property throughout exactly when it is no longer than the run of
such elements the list starts with. -/
theorem all_take_iff {p : CodePoint → Bool} : ∀ {l : Text} {j : Nat}, j ≤ l.length →
    ((l.take j).all p = true ↔ j ≤ (l.takeWhile p).length)
  | [], j, hj => by
    simp only [List.length_nil, Nat.le_zero] at hj
    subst hj
    simp
  | a :: l, 0, _ => by simp
  | a :: l, j + 1, hj => by
    have ih := @all_take_iff p l j (by simpa using hj)
    cases ha : p a <;> simp [ha, ih]

/-- Where only one terminal starts at `c`, and it matches `c :: u` exactly when every code point
of `u` has the property `p`, the longest match takes the run of such code points after `c`. -/
theorem longestMatch_run {c : CodePoint} {rest : Text} {t : Terminal} (p : CodePoint → Bool)
    (honly : ∀ t', t'.starts c = true ↔ t' = t) (hmatch : ∀ u, t.matches (c :: u) = u.all p) :
    longestMatch (c :: rest) = some (t, (rest.takeWhile p).length + 1) := by
  have hle : (rest.takeWhile p).length ≤ rest.length := (List.takeWhile_prefix p).length_le
  apply longestMatch_cons_eq_some hle
  · rw [hmatch]
    exact (all_take_iff hle).mpr (Nat.le_refl _)
  · intro j hj hjl t'
    cases h : t'.matches (c :: rest.take j)
    · rfl
    · have ht' := (honly t').mp (Terminal.starts_of_matches h)
      subst ht'
      rw [hmatch, all_take_iff hjl] at h
      omega

/-! ### String literals -/

theorem stringRest_quote (v : Text) : stringRest (.char '"' :: v) = v.isEmpty := by
  cases v with
  | nil => rfl
  | cons e w => simp [stringRest, stringBody]

theorem stringRest_escape (d : CodePoint) (v : Text) :
    stringRest (.char '\\' :: d :: v) = (d != .char '\n' && stringRest v) := by
  cases v with
  | nil => simp [stringRest, stringBody]
  | cons e w =>
    simp only [stringRest, List.getLast?_cons_cons, List.dropLast_cons_cons, stringBody]
    cases d != .char '\n' <;> simp

theorem stringRest_other {c : CodePoint} (hq : c ≠ .char '"') (hb : c ≠ .char '\\') (v : Text) :
    stringRest (c :: v) = stringRest v := by
  cases v with
  | nil => simp [stringRest, hq]
  | cons e w =>
    simp only [stringRest, List.getLast?_cons_cons, List.dropLast_cons_cons]
    rw [stringBody.eq_5 _ _ (fun _ _ h _ => hb h) (fun h _ => hb h) hq]

theorem stringSpan_bounds {rest : Text} {k m : Nat} (h : stringSpan rest k = some m) :
    k < m ∧ m ≤ k + rest.length := by
  fun_induction stringSpan rest k with
  | case1 => simp at h
  | case2 => simp at h; simp; omega
  | case3 => simp at h
  | case4 c rest n _ ih => have := ih h; simp; omega
  | case5 c rest n _ _ ih => have := ih h; simp; omega

/-- `stringSpan` finds the one prefix of the text after an opening quote that closes the
string literal. -/
theorem stringSpan_eq_some_iff (rest : Text) (k : Nat) : ∀ j, j ≤ rest.length →
    (stringSpan rest k = some (k + j) ↔ stringRest (rest.take j) = true) := by
  fun_induction stringSpan rest k with
  | case1 => intro j hj; simp at hj; subst hj; simp [stringRest]
  | case2 tail n =>
    intro j hj
    cases j with
    | zero => simp [stringRest]
    | succ j =>
      rw [List.take_succ_cons, stringRest_quote]
      simp only [List.length_cons] at hj
      have hempty : (tail.take j).isEmpty = true ↔ j = 0 := by
        rw [List.isEmpty_iff, List.take_eq_nil_iff]
        constructor
        · rintro (h | rfl)
          · exact h
          · simp at hj
            exact hj
        · exact Or.inl
      rw [hempty]
      simp only [Option.some.injEq]
      omega
  | case3 rest n =>
    intro j hj
    match j with
    | 0 => simp [stringRest]
    | 1 => simp [stringRest]
    | j + 2 => simp [stringRest_escape]
  | case4 c rest n hc ih =>
    intro j hj
    match j with
    | 0 =>
      simp only [Nat.add_zero, List.take_zero, stringRest]
      constructor
      · intro h
        have := stringSpan_bounds h
        omega
      · simp
    | 1 =>
      simp only [List.take_succ_cons, List.take_zero]
      constructor
      · intro h
        have := stringSpan_bounds h
        omega
      · simp [stringRest]
    | j + 2 =>
      have hc' : (c != .char '\n') = true := bne_iff_ne.mpr hc
      simp only [List.take_succ_cons, stringRest_escape, hc', Bool.true_and]
      rw [← ih j (by simp at hj; omega)]
      rw [show n + (j + 2) = n + 2 + j by omega]
  | case5 c rest n hq hb ih =>
    intro j hj
    match j with
    | 0 =>
      simp only [Nat.add_zero, List.take_zero, stringRest]
      constructor
      · intro h
        have := stringSpan_bounds h
        omega
      · simp
    | j + 1 =>
      rw [show n + (j + 1) = n + 1 + j by omega, ih j (by simp at hj; omega),
        List.take_succ_cons]
      by_cases hc : c = .char '\\'
      · -- a backslash at the very end of the text
        subst hc
        have hr : rest = [] := by
          cases rest with
          | nil => rfl
          | cons d r => exact absurd rfl (hb d r rfl)
        subst hr
        simp [stringRest]
      · rw [stringRest_other hq hc]

/-- After an opening quote, the longest match is the string literal up to the closing quote
that `stringSpan` finds, and there is none where it finds none. -/
theorem longestMatch_string (rest : Text) :
    longestMatch (.char '"' :: rest) = (stringSpan rest 0).map fun n => (.string, n + 1) := by
  have hmatch : ∀ u, Terminal.string.matches (.char '"' :: u) = stringRest u := by
    intro u
    simp [Terminal.matches]
  have honly := Terminal.starts_iff_of_quote
  cases hspan : stringSpan rest 0 with
  | none =>
    apply longestMatch_cons_eq_none
    intro j hj t
    cases h : t.matches (.char '"' :: rest.take j)
    · rfl
    · have ht := (honly t).mp (Terminal.starts_of_matches h)
      subst ht
      rw [hmatch, ← stringSpan_eq_some_iff rest 0 j hj, hspan] at h
      cases h
  | some n =>
    have hn := stringSpan_bounds hspan
    rw [Option.map_some]
    apply longestMatch_cons_eq_some (by omega)
    · rw [hmatch, ← stringSpan_eq_some_iff rest 0 n (by omega), Nat.zero_add, hspan]
    · intro j hj hjl t
      cases h : t.matches (.char '"' :: rest.take j)
      · rfl
      · have ht := (honly t).mp (Terminal.starts_of_matches h)
        subst ht
        rw [hmatch, ← stringSpan_eq_some_iff rest 0 j hjl, hspan] at h
        simp at h
        omega

/-! ### Comments and operators -/

/-- After `//`, the longest match is the comment up to the end of the line. -/
theorem longestMatch_comment (r : Text) :
    longestMatch (.char '/' :: .char '/' :: r) =
      some (.comment, (r.takeWhile (· ≠ .char '\n')).length + 2) := by
  have hle : (r.takeWhile (· ≠ .char '\n')).length ≤ r.length :=
    (List.takeWhile_prefix _).length_le
  have hmatch : ∀ j, Terminal.comment.matches (.char '/' :: (.char '/' :: r).take (j + 1)) =
      (r.take j).all (· ≠ .char '\n') := by
    intro j
    simp [Terminal.matches]
  obtain ⟨hb, hd, hq, hi⟩ := @symbolStart_other (.char '/') (by decide)
  apply longestMatch_cons_eq_some (by simpa using hle)
  · rw [hmatch]
    exact (all_take_iff hle).mpr (Nat.le_refl _)
  · intro j hj hjl t
    obtain ⟨j, rfl⟩ : ∃ j', j = j' + 1 := ⟨j - 1, by omega⟩
    cases h : t.matches (.char '/' :: (.char '/' :: r).take (j + 1))
    · rfl
    · rcases Terminal.starts_other hb hd hq hi (Terminal.starts_of_matches h) with
        ⟨rfl, _⟩ | ⟨k, rfl⟩
      · rw [hmatch, all_take_iff (by simpa using hjl)] at h
        omega
      · have hk : Kind.symbol? (.char '/' :: (.char '/' :: r).take (j + 1)) = some k := by
          simpa [Terminal.matches] using h
        exact absurd (by simp) (symbol?_take_two hk)

section Operators

variable {c : CodePoint} {rest : Text} (hb : c.is isBlank = false)
  (hd : c.is isAsciiDigit = false) (hq : c ≠ .char '"') (hi : c.is Text.isIdentStart = false)
  (hc : ¬(c = .char '/' ∧ rest.head? = some (.char '/')))
include hb hd hq hi hc

/-- Where no other terminal starts, a prefix that matches is an operator. -/
theorem symbol_of_matches {t : Terminal} {j : Nat} (h : t.matches (c :: rest.take j) = true) :
    ∃ k, t = .symbol k ∧ Kind.symbol? (c :: rest.take j) = some k := by
  rcases Terminal.starts_other hb hd hq hi (Terminal.starts_of_matches h) with
    ⟨rfl, rfl⟩ | ⟨k, rfl⟩
  · -- a comment would need the slash to be followed by a second one
    exfalso
    apply hc
    refine ⟨rfl, ?_⟩
    simp only [Terminal.matches, List.take_succ_cons, Bool.and_eq_true, beq_iff_eq,
      List.cons.injEq, true_and] at h
    cases rest with
    | nil => simp at h
    | cons d r =>
      cases j with
      | zero => simp at h
      | succ j => simpa using h.1
  · exact ⟨k, rfl, by simpa [Terminal.matches] using h⟩

/-- Where no other terminal starts, the longest match is the operator that `symbolFront`
finds: the two-character one first. -/
theorem longestMatch_symbol :
    longestMatch (c :: rest) = (symbolFront c rest).map fun p => (p.1, p.2 + 1) := by
  -- no operator is longer than two characters
  have hlong : ∀ j, 2 ≤ j → j ≤ rest.length → ∀ t : Terminal,
      t.matches (c :: rest.take j) = false := by
    intro j hj hjl t
    cases h : t.matches (c :: rest.take j)
    · rfl
    · obtain ⟨k, -, hk⟩ := symbol_of_matches hb hd hq hi hc h
      have hlen : (c :: rest.take j).length = j + 1 := by
        simp only [List.length_cons, List.length_take]
        omega
      rcases symbol?_length hk with h1 | h1 <;> omega
  have hsym : ∀ {j} {t : Terminal}, t.matches (c :: rest.take j) = true →
      ∃ k, t = .symbol k ∧ Kind.symbol? (c :: rest.take j) = some k :=
    symbol_of_matches hb hd hq hi hc
  cases rest with
  | nil =>
    cases h1 : Kind.symbol? [c] with
    | none =>
      simp only [symbolFront, h1, Option.map_none]
      apply longestMatch_cons_eq_none
      intro j hj t
      cases h : t.matches (c :: ([] : Text).take j)
      · rfl
      · obtain ⟨k, -, hk⟩ := hsym h
        simp [h1] at hk
    | some k =>
      simp only [symbolFront, h1, Option.map_some]
      apply longestMatch_cons_eq_some (Nat.zero_le _)
      · simp [Terminal.matches, h1]
      · intro j hj hjl
        simp at hjl
        omega
  | cons d r =>
    cases h2 : Kind.symbol? [c, d] with
    | some k =>
      simp only [symbolFront, h2, Option.map_some]
      apply longestMatch_cons_eq_some (by simp)
      · simp [Terminal.matches, h2]
      · intro j hj hjl
        exact hlong j hj hjl
    | none =>
      cases h1 : Kind.symbol? [c] with
      | some k =>
        simp only [symbolFront, h2, h1, Option.map_some]
        apply longestMatch_cons_eq_some (Nat.zero_le _)
        · simp [Terminal.matches, h1]
        · intro j hj hjl t
          by_cases hj2 : 2 ≤ j
          · exact hlong j hj2 hjl t
          · obtain rfl : j = 1 := by omega
            cases h : t.matches (c :: (d :: r).take 1)
            · rfl
            · obtain ⟨k', -, hk'⟩ := hsym h
              simp [h2] at hk'
      | none =>
        simp only [symbolFront, h2, h1, Option.map_none]
        apply longestMatch_cons_eq_none
        intro j hjl t
        match j with
        | 0 =>
          cases h : t.matches (c :: (d :: r).take 0)
          · rfl
          · obtain ⟨k', -, hk'⟩ := hsym h
            simp [h1] at hk'
        | 1 =>
          cases h : t.matches (c :: (d :: r).take 1)
          · rfl
          · obtain ⟨k', -, hk'⟩ := hsym h
            simp [h2] at hk'
        | j + 2 => exact hlong (j + 2) (by omega) hjl t

end Operators

/-- The scanner's choice of terminal and lexeme at `c :: rest` is the longest match there. -/
theorem front_eq_longestMatch (c : CodePoint) (rest : Text) :
    front c rest = (longestMatch (c :: rest)).map fun p => (p.1, p.2 - 1) := by
  rw [front]
  by_cases hb : c.is isBlank = true
  · rw [if_pos hb, longestMatch_run (·.is isBlank) (Terminal.starts_iff_of_blank hb)
      (fun u => by simp [Terminal.matches, hb])]
    simp
  rw [if_neg hb]
  by_cases hcom : c = .char '/' ∧ rest.head? = some (.char '/')
  · obtain ⟨rfl, hr⟩ := hcom
    obtain ⟨r, rfl⟩ : ∃ r, rest = .char '/' :: r := by
      cases rest with
      | nil => simp at hr
      | cons d r => simp at hr; exact ⟨r, by rw [hr]⟩
    rw [if_pos (by simp), longestMatch_comment]
    simp
    omega
  rw [if_neg (by simpa using hcom)]
  by_cases hd : c.is isAsciiDigit = true
  · rw [if_pos hd, longestMatch_run (·.is isAsciiDigit) (Terminal.starts_iff_of_digit hd)
      (fun u => by simp [Terminal.matches, hd])]
    simp
  rw [if_neg hd]
  by_cases hq : c = .char '"'
  · subst hq
    rw [if_pos rfl, longestMatch_string]
    cases stringSpan rest 0 <;> simp
  rw [if_neg hq]
  by_cases hi : c.is Text.isIdentStart = true
  · rw [if_pos hi, longestMatch_run (·.is Text.isWordChar) (Terminal.starts_iff_of_identStart hi)
      (fun u => by simp [Terminal.matches, hi])]
    simp
  rw [if_neg hi, longestMatch_symbol (by simpa using hb) (by simpa using hd) hq
    (by simpa using hi) hcom]
  cases symbolFront c rest <;> simp

/-! ### The scanner is the reference reader -/

/-- The scanner decodes each lexeme as the host does. -/
theorem decode_eq_hostDecode (t : Terminal) (lex : Text) (p : Pos) :
    decode t lex p = hostDecode t lex p := by
  cases t with
  | number => simp [decode, hostDecode, decodeLexeme]
  | _ => rfl

/-- From every offset on, the scanner reads what the reference reader reads. The induction is
on the length of the text left, which each lexeme shortens. -/
theorem scanFrom_eq_munchFrom (s : Text) (i : Nat) (acc : Array Token) :
    (scanFrom (s.drop i) (posAt s i) acc).map Array.toList =
      (munchFrom hostDecode s i).map (acc.toList ++ ·) := by
  induction hlen : s.length - i using Nat.strongRecOn generalizing i acc with
  | ind m ih =>
  rw [munchFrom]
  split
  next hs =>
    rw [hs, scanFrom]
    simp [Except.map]
  next c rest hs =>
    have hscan : scanFrom (s.drop i) (posAt s i) acc = scanFrom (c :: rest) (posAt s i) acc := by
      rw [hs]
    rw [hscan, scanFrom, front_eq_longestMatch, ← hs]
    cases hm : longestMatch (s.drop i) with
    | none => simp [Except.map]
    | some tn =>
      obtain ⟨t, n⟩ := tn
      obtain ⟨hn0, hnl⟩ := longestMatch_pos hm
      obtain ⟨n, rfl⟩ : ∃ n', n = n' + 1 := ⟨n - 1, by omega⟩
      simp only [Option.map_some, Nat.add_sub_cancel]
      rw [decode_eq_hostDecode, hs, List.take_succ_cons]
      cases hostDecode t (c :: rest.take n) (posAt s i) with
      | error e => simp [Except.map]
      | ok tok =>
        -- the rest of the text and its position are those at the offset after the lexeme
        have hdrop : rest.drop n = s.drop (i + (n + 1)) := by
          rw [← List.drop_drop, hs, List.drop_succ_cons]
        have hpos : (posAt s i).advance (c :: rest.take n) = posAt s (i + (n + 1)) := by
          rw [posAt_add, hs, List.take_succ_cons]
        have hlt : s.length - (i + (n + 1)) < m := by
          have := congrArg List.length hs
          simp only [List.length_drop, List.length_cons] at this
          simp only [List.length_drop] at hnl
          omega
        rw [hdrop, hpos, ih _ hlt (i + (n + 1)) _ rfl]
        cases munchFrom hostDecode s (i + (n + 1)) <;> cases tok <;> simp [Except.map]

/-- The scanner reads a text by longest matches: it is the reference reader, with every lexeme
decoded as the language says, except that the host refuses a number of more than `maxDigits`
digits. -/
theorem scan_eq_munch (s : Text) : scan s = munch hostDecode s := by
  have h := scanFrom_eq_munchFrom s 0 #[]
  rw [List.drop_zero, show posAt s 0 = Pos.start from rfl] at h
  rw [scan, h, munch]
  cases munchFrom hostDecode s 0 <;> rfl

/-! ### Where the host departs from the language -/

theorem decodeLexeme_ne_host (t : Terminal) (lex : Text) (p : Pos) (c : Crash) :
    decodeLexeme t lex p ≠ .error (.host c) := by
  cases t with
  | number =>
    simp only [decodeLexeme]
    split <;> simp
  | string =>
    simp only [decodeLexeme]
    split <;> simp
  | _ => simp [decodeLexeme]

/-- Read as the language says, no text ends in a refusal of the host. -/
theorem munchFrom_ne_host (s : Text) (i : Nat) (c : Crash) :
    munchFrom decodeLexeme s i ≠ .error (.host c) := by
  induction hlen : s.length - i using Nat.strongRecOn generalizing i with
  | ind m ih =>
  rw [munchFrom]
  split
  next => simp
  next d rest hs =>
    split
    next => split <;> simp
    next t n hm =>
      split
      next e he =>
        intro h
        cases h
        exact decodeLexeme_ne_host t _ _ c he
      next tok _ =>
        have hlt : s.length - (i + n) < m := by
          have hl := congrArg List.length hs
          have hn := (longestMatch_pos hm).1
          simp only [List.length_drop, List.length_cons] at hl
          omega
        have ih' := ih _ hlt (i + n) rfl
        cases h : munchFrom decodeLexeme s (i + n) with
        | error e =>
          simp only [Except.map]
          intro he
          cases he
          exact ih' h
        | ok ts => simp [Except.map]

/-- A text that starts with a number of more than `maxDigits` digits makes the scan end in the
host's refusal to compute its value. -/
theorem scan_long_number {d : CodePoint} {ds rest : Text} (hd : d.is isAsciiDigit = true)
    (hds : ds.all (·.is isAsciiDigit) = true)
    (hrest : ∀ c ∈ rest.head?, c.is isAsciiDigit = false) (hlong : maxDigits < ds.length + 1) :
    scan (d :: ds ++ rest) = .error (.host (.digitLimit (ds.length + 1))) := by
  have hrun : (ds ++ rest).takeWhile (·.is isAsciiDigit) = ds := by
    rw [List.takeWhile_append_of_pos (by simpa using hds)]
    cases rest with
    | nil => simp
    | cons c r => simp [hrest c rfl]
  rw [scan, List.cons_append, scanFrom, front_eq_longestMatch,
    longestMatch_run (·.is isAsciiDigit) (Terminal.starts_iff_of_digit hd)
      (fun u => by simp [Terminal.matches, hd]), hrun]
  simp [decode, List.take_left' rfl, hlong]
  rfl

/-- Four thousand three hundred and one zeros: the language reads them as one number, of value
zero, while the host refuses to compute its value. -/
theorem scan_zeros_refused :
    scan (List.replicate 4301 (.char '0')) ≠
      munch decodeLexeme (List.replicate 4301 (.char '0')) := by
  have hzeros : (List.replicate 4300 (CodePoint.char '0')).all (·.is isAsciiDigit) = true :=
    List.all_eq_true.mpr fun x hx => by
      rw [List.eq_of_mem_replicate hx]
      decide
  have h := @scan_long_number (.char '0') (List.replicate 4300 (.char '0')) [] (by decide)
    hzeros (by simp) (by rw [List.length_replicate]; decide)
  rw [List.append_nil, ← List.replicate_succ] at h
  rw [h, munch]
  exact fun he => munchFrom_ne_host _ 0 _ he.symm

end Ember.Token
