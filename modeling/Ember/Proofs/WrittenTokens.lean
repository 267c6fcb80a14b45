import Ember.Proofs.LineJoin
/-!
Scanning written tokens.

Each token of the language can be written as text (`Token.Written`): a keyword or an operator
as its spelling, `nil` also as `null`; a name as itself, a word that is no keyword; a number up
to `maxLiteral` in decimal after any number of zeros; and a text as a string literal whose
body escapes it (`Token.Escaped`): a backslash, a double quote and a tab as backslash escapes,
a line feed as the escape `\n` or as itself, every other code point as itself.

Written tokens joined by single spaces scan as the same kinds and payloads, followed by the
end token (`Token.scan_written`), as long as no number is written with more than `maxDigits`
digits: the host refuses to compute the value of a longer number, leading zeros included
(`Token.zero_padded_number_refused`). The space ends every lexeme: no lexeme of a written
token runs into it, since no operator, word or number holds a blank and a string literal is
closed by its own quote; and the scanner passes over the space to the next written token.
-/

namespace Ember.Token

/-- `Escaped s b`: `b` is the body of a string literal that denotes the text `s`. -/
inductive Escaped : Text → Text → Prop
  | nil : Escaped [] []
  | backslash {s b : Text} : Escaped s b →
      Escaped (.char '\\' :: s) (.char '\\' :: .char '\\' :: b)
  | quote {s b : Text} : Escaped s b → Escaped (.char '"' :: s) (.char '\\' :: .char '"' :: b)
  | tab {s b : Text} : Escaped s b → Escaped (.char '\t' :: s) (.char '\\' :: .char 't' :: b)
  | lineFeed {s b : Text} : Escaped s b →
      Escaped (.char '\n' :: s) (.char '\\' :: .char 'n' :: b)
  | rawLineFeed {s b : Text} : Escaped s b → Escaped (.char '\n' :: s) (.char '\n' :: b)
  | plain {c : CodePoint} {s b : Text} : c ≠ .char '\\' → c ≠ .char '"' → c ≠ .char '\t' →
      c ≠ .char '\n' → Escaped s b → Escaped (c :: s) (c :: b)

/-- `Written k x w`: the text `w` writes a token of kind `k` with payload `x`. -/
inductive Written : Kind → Scalar → Text → Prop
  | trueWord {w : Text} : Kind.keyword? w = some .kwTrue → Written .kwTrue (.bool true) w
  | falseWord {w : Text} : Kind.keyword? w = some .kwFalse → Written .kwFalse (.bool false) w
  | keyword {w : Text} {k : Kind} : Kind.keyword? w = some k → k ≠ .kwTrue → k ≠ .kwFalse →
      Written k .null w
  | symbol {w : Text} {k : Kind} : Kind.symbol? w = some k → Written k .null w
  | name {c : CodePoint} {cs : Text} : c.is Text.isIdentStart = true →
      cs.all (·.is Text.isWordChar) = true → Kind.keyword? (c :: cs) = none →
      Written .ident (.text (c :: cs)) (c :: cs)
  | number {n : Nat} (zeros : Nat) : n ≤ maxLiteral →
      Written .integer (.int n) ((List.replicate zeros '0' ++ Nat.toDigits 10 n).map .char)
  | string {s b : Text} : Escaped s b → Written .string (.text s) (.char '"' :: b ++ [.char '"'])

/-! ### The space between written tokens -/

theorem space_excludes : isBlank ' ' = true ∧ isAsciiDigit ' ' = false ∧
    Text.isWordChar ' ' = false := by
  decide

/-- No operator is spelled with a space. -/
theorem symbol?_space (d : CodePoint) : Kind.symbol? [d, .char ' '] = none := by
  have hall : Kind.symbols.all (fun e => !e.1.contains (.char ' ')) = true := by decide
  cases hk : Kind.symbol? [d, .char ' '] with
  | none => rfl
  | some k =>
    have h := List.all_eq_true.1 hall _ (symbol?_mem hk)
    simp at h

/-- A run of code points that passes a test and does not hold a space stops before a space. -/
theorem takeWhile_before_space {p : CodePoint → Bool} (hp : p (.char ' ') = false)
    {cs r : Text} (hcs : cs.all p = true) (hr : ∀ d ∈ r.head?, d = .char ' ') :
    ((cs ++ r).takeWhile p).length = cs.length := by
  rw [List.takeWhile_append_of_pos (by simpa using hcs)]
  cases r with
  | nil => simp
  | cons d r =>
    rw [hr d rfl, List.takeWhile_cons_of_neg (by simp [hp])]
    simp

/-! ### The lexeme at the front of a written token -/

section Front

variable {c : CodePoint} {cs r : Text}

/-- A keyword is a word. -/
theorem keyword?_word {w : Text} {k : Kind} (h : Kind.keyword? w = some k) :
    ∃ c cs, w = c :: cs ∧ c.is Text.isIdentStart = true ∧ cs.all (·.is Text.isWordChar) = true := by
  have hall : Kind.keywords.all (fun e => e.1.head?.any (·.is Text.isIdentStart) &&
      e.1.tail.all (·.is Text.isWordChar)) = true := by
    decide
  obtain ⟨l₁, l₂, hl, _⟩ := List.lookup_eq_some_iff.mp h
  have hw := List.all_eq_true.1 hall (w, k) (by rw [hl]; simp)
  cases w with
  | nil => simp at hw
  | cons c cs =>
    simp only [List.head?_cons, Option.any_some, List.tail_cons, Bool.and_eq_true] at hw
    exact ⟨c, cs, rfl, hw.1, hw.2⟩

/-- An identifier start is no blank, digit, quote or slash. -/
theorem identStart_excludes (hc : c.is Text.isIdentStart = true) :
    c.is isBlank = false ∧ c.is isAsciiDigit = false ∧ c ≠ .char '"' ∧ c ≠ .char '/' := by
  cases c with
  | surrogate => simp at hc
  | char ch =>
    have hs := (Terminal.starts_iff_of_identStart hc)
    refine ⟨?_, ?_, ?_, ?_⟩
    · simpa [Terminal.starts] using mt (hs .blank).1 (by simp)
    · simpa [Terminal.starts] using mt (hs .number).1 (by simp)
    · intro h
      exact absurd ((hs .string).1 (by simp [Terminal.starts, h])) (by simp)
    · intro h
      exact absurd ((hs .comment).1 (by simp [Terminal.starts, h])) (by simp)

/-- A word followed by a space or by nothing is taken whole. -/
theorem front_word (hc : c.is Text.isIdentStart = true) (hcs : cs.all (·.is Text.isWordChar) = true)
    (hr : ∀ d ∈ r.head?, d = .char ' ') : front c (cs ++ r) = some (.word, cs.length) := by
  obtain ⟨hb, hd, hq, hs⟩ := identStart_excludes hc
  rw [front, if_neg (by simp [hb]), if_neg (by simp [hs]), if_neg (by simp [hd]),
    if_neg hq, if_pos hc,
    takeWhile_before_space (by simp [space_excludes]) hcs hr]

/-- A number followed by a space or by nothing is taken whole. -/
theorem front_number (hc : c.is isAsciiDigit = true) (hcs : cs.all (·.is isAsciiDigit) = true)
    (hr : ∀ d ∈ r.head?, d = .char ' ') : front c (cs ++ r) = some (.number, cs.length) := by
  cases c with
  | surrogate => simp at hc
  | char ch =>
    obtain ⟨hb, -, hs, -, -⟩ := digit_excludes hc
    rw [front, if_neg (by simp [hb]), if_neg (by simp [hs]), if_pos hc,
      takeWhile_before_space (by simp [space_excludes]) hcs hr]

/-- An operator followed by a space or by nothing is taken whole: the space extends no
operator. -/
theorem front_symbol_written {k : Kind} (hk : Kind.symbol? (c :: cs) = some k)
    (hr : ∀ d ∈ r.head?, d = .char ' ') : front c (cs ++ r) = some (.symbol k, cs.length) := by
  cases c with
  | surrogate => simpa using symbol?_starts hk
  | char ch =>
    have hstart : symbolStarts.contains ch = true := by simpa using symbol?_starts hk
    obtain ⟨hb, hd, hq, hi⟩ := symbolStart_excludes ch (by simpa using hstart)
    -- a slash that writes an operator is the whole operator, so no comment starts there
    have hcomment : ¬ (CodePoint.char ch = .char '/' ∧ (cs ++ r).head? = some (.char '/')) := by
      rintro ⟨hch, hslash⟩
      cases hch
      cases cs with
      | nil =>
        cases r with
        | nil => cases hslash
        | cons d r =>
          simp only [List.nil_append, List.head?_cons, Option.some.injEq] at hslash
          cases (hr d rfl).symm.trans hslash
      | cons d cs =>
        simp only [List.cons_append, List.head?_cons, Option.some.injEq] at hslash
        subst hslash
        exact symbol?_take_two hk (by simp)
    rw [front, if_neg (by simp [hb]), if_neg (by simpa using hcomment), if_neg (by simp [hd]),
      if_neg (by simpa using hq), if_neg (by simp [hi])]
    rcases symbol?_length hk with hlen | hlen
    · -- one character: what follows is a space or nothing
      obtain rfl : cs = [] := List.eq_nil_of_length_eq_zero (by simpa using hlen)
      cases r with
      | nil => simp [symbolFront, hk]
      | cons d r => simp [symbolFront, hr d rfl, symbol?_space, hk]
    · -- two characters
      obtain ⟨d, rfl⟩ := List.length_eq_one_iff.1 (by simpa using hlen)
      simp [symbolFront, hk]

/-- An escaped body is closed by the quote after it. -/
theorem stringSpan_escaped {s b : Text} (h : Escaped s b) (r : Text) :
    ∀ n, stringSpan (b ++ .char '"' :: r) n = some (n + b.length + 1) := by
  induction h with
  | nil => intro n; simp [stringSpan]
  | backslash _ ih | quote _ ih | tab _ ih | lineFeed _ ih =>
    intro n
    rw [List.cons_append, List.cons_append, stringSpan.eq_3, if_neg (by simp), ih]
    simp only [List.length_cons, Option.some.injEq]
    omega
  | rawLineFeed _ ih =>
    intro n
    rw [List.cons_append, stringSpan.eq_4 _ _ _ (by simp) (by simp), ih]
    simp only [List.length_cons, Option.some.injEq]
    omega
  | plain hb hq _ _ _ ih =>
    intro n
    rw [List.cons_append, stringSpan.eq_4 _ _ _ hq (fun _ _ h _ => hb h), ih]
    simp only [List.length_cons, Option.some.injEq]
    omega

/-- A string literal followed by a space or by nothing is taken whole. -/
theorem front_string {s b : Text} (h : Escaped s b) (r : Text) :
    front (.char '"') ((b ++ [CodePoint.char '"']) ++ r) =
      some (.string, (b ++ [CodePoint.char '"']).length) := by
  rw [front, if_neg (by simp [quote_excludes]), if_neg (by simp),
    if_neg (by simp [quote_excludes]), if_pos rfl,
    List.append_assoc, List.singleton_append, stringSpan_escaped h r 0]
  simp

/-- An escaped body is unescaped to the text it denotes. -/
theorem unescape_escaped {s b : Text} (h : Escaped s b) : unescape b = .ok s := by
  induction h with
  | nil => rfl
  | backslash _ ih | quote _ ih | tab _ ih | lineFeed _ ih =>
    simp [unescape, escapeValue?, ih, Except.map]
  | rawLineFeed _ ih => simp [unescape, ih, Except.map]
  | @plain c _ _ hb _ _ _ _ ih =>
    rw [unescape.eq_def]
    split
    · rename_i heq
      cases heq
      exact absurd rfl hb
    · rename_i heq
      cases heq
      simp [ih, Except.map]
    · cases ‹c :: _ = []›

end Front

/-! ### Decoding a written token -/

theorem isAsciiDigit_of_isDigit {ch : Char} (h : ch.isDigit = true) : isAsciiDigit ch = true := by
  simpa [isAsciiDigit, Char.isDigit, Char.le_def] using h

/-- A number written in decimal after zeros is written with ASCII digits only. -/
theorem digits_written (zeros n : Nat) :
    ((List.replicate zeros '0' ++ Nat.toDigits 10 n).map CodePoint.char).all
      (·.is isAsciiDigit) = true := by
  simp only [List.all_map, List.all_eq_true, List.mem_append, Function.comp_apply,
    CodePoint.is_char]
  rintro ch (hch | hch)
  · rw [List.eq_of_mem_replicate hch]
    decide
  · exact isAsciiDigit_of_isDigit (Nat.isDigit_of_mem_toDigits (by decide) (by decide) hch)

/-- Zeros in front of a decimal numeral do not change its value. -/
theorem digitsValue_written (zeros n : Nat) :
    digitsValue ((List.replicate zeros '0' ++ Nat.toDigits 10 n).map CodePoint.char) = n := by
  have hvalue : ∀ l : List Char, digitsValue (l.map CodePoint.char) = Nat.ofDigitChars 10 l 0 := by
    intro l
    simp only [digitsValue, List.foldl_map, Nat.ofDigitChars_eq_foldl, CodePoint.val]
  rw [hvalue, Nat.ofDigitChars_append, Nat.ofDigitChars_replicate_zero, Nat.mul_zero,
    Nat.ofDigitChars_ten_toDigits]

/-- A word that is a keyword other than `true` and `false` stands for the keyword, with no
payload. -/
theorem ofWord_keyword {w : Text} {k : Kind} (hk : Kind.keyword? w = some k) (h1 : k ≠ .kwTrue)
    (h2 : k ≠ .kwFalse) (p : Pos) : ofWord w p = ⟨k, .text w, .null, p⟩ := by
  unfold ofWord
  split <;> simp_all

/-- The terminal at the front of a written token, followed by a space or by nothing, takes
the whole token and decodes it to the token's kind and payload. -/
theorem written_front {k : Kind} {x : Scalar} {w r : Text} (h : Written k x w)
    (hd : k = .integer → w.length ≤ maxDigits) (hr : ∀ d ∈ r.head?, d = .char ' ') (p : Pos) :
    ∃ c cs t, w = c :: cs ∧ c.is isBlank = false ∧ front c (cs ++ r) = some (t, cs.length) ∧
      decode t w p = .ok (some ⟨k, .text w, x, p⟩) := by
  cases h with
  | trueWord hk | falseWord hk =>
    obtain ⟨c, cs, rfl, hc, hcs⟩ := keyword?_word hk
    exact ⟨c, cs, .word, rfl, (identStart_excludes hc).1, front_word hc hcs hr,
      by simp [decode, ofWord, hk]⟩
  | keyword hk h1 h2 =>
    obtain ⟨c, cs, rfl, hc, hcs⟩ := keyword?_word hk
    exact ⟨c, cs, .word, rfl, (identStart_excludes hc).1, front_word hc hcs hr,
      by simp [decode, ofWord_keyword hk h1 h2]⟩
  | @symbol w k hk =>
    have hne : w ≠ [] := by
      rintro rfl
      rcases symbol?_length hk with hlen | hlen <;> simp at hlen
    obtain ⟨c, cs, rfl⟩ := List.exists_cons_of_ne_nil hne
    have hb : c.is isBlank = false := by
      cases c with
      | surrogate => rfl
      | char ch => exact (symbolStart_excludes ch (by simpa using symbol?_starts hk)).1
    exact ⟨c, cs, .symbol k, rfl, hb, front_symbol_written hk hr, rfl⟩
  | name hc hcs hkw =>
    exact ⟨_, _, .word, rfl, (identStart_excludes hc).1, front_word hc hcs hr,
      by simp [decode, ofWord, hkw]⟩
  | @number n zeros hn =>
    obtain ⟨c, cs, hw⟩ : ∃ c cs,
        (List.replicate zeros '0' ++ Nat.toDigits 10 n).map CodePoint.char = c :: cs := by
      cases hl : (List.replicate zeros '0' ++ Nat.toDigits 10 n).map CodePoint.char with
      | nil => simp [Nat.toDigits_ne_nil] at hl
      | cons c cs => exact ⟨c, cs, rfl⟩
    have hdigits := digits_written zeros n
    have hvalue := digitsValue_written zeros n
    rw [hw] at hdigits hvalue hd ⊢
    simp only [List.all_cons, Bool.and_eq_true] at hdigits
    have hb : c.is isBlank = false := by
      cases c with
      | surrogate => rfl
      | char ch => exact (digit_excludes hdigits.1).1
    refine ⟨c, cs, .number, rfl, hb, front_number hdigits.1 hdigits.2 hr, ?_⟩
    -- short enough for the host, and at most `maxLiteral`
    have hlen : ¬ (c :: cs).length > maxDigits := Nat.not_lt.2 (hd rfl)
    have hsmall : ¬ digitsValue (c :: cs) > maxLiteral := by
      rw [hvalue]
      exact Nat.not_lt.2 hn
    simp only [decode]
    rw [if_neg hlen, if_neg hsmall, hvalue]
  | @string s b hs =>
    refine ⟨.char '"', b ++ [.char '"'], .string, rfl, by decide, front_string hs r, ?_⟩
    simp [decode, unescape_escaped hs]

/-! ### Written tokens joined by spaces -/

/-- A written token followed by a space or by nothing is scanned as that token. -/
theorem scanFrom_written_token {k : Kind} {x : Scalar} {w r : Text} (h : Written k x w)
    (hd : k = .integer → w.length ≤ maxDigits) (hr : ∀ d ∈ r.head?, d = .char ' ') (p : Pos)
    (acc : Array Token) :
    scanFrom (w ++ r) p acc = scanFrom r (p.advance w) (acc.push ⟨k, .text w, x, p⟩) := by
  obtain ⟨c, cs, t, rfl, -, hfront, hdec⟩ := written_front h hd hr p
  rw [List.cons_append, scanFrom.eq_2, hfront]
  dsimp only
  rw [List.take_left' rfl, hdec]
  dsimp only
  rw [List.drop_left' rfl]

/-- The tokens of written tokens joined by single spaces: the scan goes on after the tokens
read before, with the kinds and payloads of the written tokens, and ends with the end
token. The induction follows the list; each written token is followed by a space, passed
over before the next one, or by nothing. -/
theorem scanFrom_written :
    ∀ {items : List (Kind × Scalar × Text)}, (∀ i ∈ items, Written i.1 i.2.1 i.2.2) →
      (∀ i ∈ items, i.1 = .integer → i.2.2.length ≤ maxDigits) →
      ∀ (p : Pos) (acc : Array Token), ∃ out,
        scanFrom ([.char ' '].intercalate (items.map (·.2.2))) p acc = .ok out ∧
          out.toList.map (fun t => (t.kind, t.payload)) =
            acc.toList.map (fun t => (t.kind, t.payload)) ++
              items.map (fun i => (i.1, i.2.1)) ++ [(.eof, .null)]
  | [], _, _, p, acc => ⟨acc.push (endAt p), by simp [scanFrom.eq_1], by simp [endAt]⟩
  | [(k, x, w)], hw, hd, p, acc => by
    have h := scanFrom_written_token (hw _ List.mem_cons_self) (hd _ List.mem_cons_self)
      (r := []) (fun _ h => by cases h) p acc
    rw [List.append_nil, scanFrom.eq_1] at h
    exact ⟨_, by simpa using h, by simp [endAt]⟩
  | (k, x, w) :: j :: rest, hw, hd, p, acc => by
    obtain ⟨c, cs, -, hj, hc, -, -⟩ := written_front (hw j (by simp)) (hd j (by simp))
      (r := []) (fun _ h => by cases h) p
    -- the text after the first token: a space, then the next written token
    have hjoin : [CodePoint.char ' '].intercalate (((k, x, w) :: j :: rest).map (·.2.2)) =
        w ++ .char ' ' :: (c :: [CodePoint.char ' '].intercalate (cs :: rest.map (·.2.2))) := by
      simp [hj]
    have hstep := scanFrom_written_token (hw _ List.mem_cons_self) (hd _ List.mem_cons_self)
      (r := .char ' ' :: c :: [CodePoint.char ' '].intercalate (cs :: rest.map (·.2.2))) (by simp)
      p acc
    obtain ⟨out, hout, hview⟩ := @scanFrom_written (j :: rest)
      (fun i hi => hw i (List.mem_cons_of_mem _ hi)) (fun i hi => hd i (List.mem_cons_of_mem _ hi))
      ((p.advance w).advance [.char ' ']) (acc.push ⟨k, .text w, x, p⟩)
    refine ⟨out, ?_, ?_⟩
    · rw [hjoin, hstep, scanFrom_blank (by decide), List.dropWhile_cons_of_neg (by simp [hc]),
        List.takeWhile_cons_of_neg (by simp [hc])]
      simpa [hj] using hout
    · rw [hview]
      simp

/-- Written tokens joined by single spaces scan as the same kinds and payloads followed by the
end token, as long as no number is written with more than `maxDigits` digits. -/
theorem scan_written {items : List (Kind × Scalar × Text)}
    (hw : ∀ i ∈ items, Written i.1 i.2.1 i.2.2)
    (hd : ∀ i ∈ items, i.1 = .integer → i.2.2.length ≤ maxDigits) :
    (scan ([.char ' '].intercalate (items.map (·.2.2)))).map
        (·.map fun t => (t.kind, t.payload)) =
      .ok (items.map (fun i => (i.1, i.2.1)) ++ [(.eof, .null)]) := by
  obtain ⟨out, hout, hview⟩ := scanFrom_written hw hd Pos.start #[]
  rw [scan, hout]
  simp [Except.map, hview]

/-- `x ** 007 "a\"` with a raw line feed before the closing quote: a name, an operator, a
number written after two zeros and a string with an escaped quote and a line feed. -/
theorem scan_written_sample :
    (∀ i ∈ [(Kind.ident, Scalar.text [.char 'x'], [CodePoint.char 'x']),
        (.pow, .null, [.char '*', .char '*']),
        (.integer, .int 7, [.char '0', .char '0', .char '7']),
        (.string, .text [.char 'a', .char '"', .char '\n'],
          [.char '"', .char 'a', .char '\\', .char '"', .char '\n', .char '"'])],
      Written i.1 i.2.1 i.2.2) ∧
    (∀ i ∈ [(Kind.ident, Scalar.text [.char 'x'], [CodePoint.char 'x']),
        (.pow, .null, [.char '*', .char '*']),
        (.integer, .int 7, [.char '0', .char '0', .char '7']),
        (.string, .text [.char 'a', .char '"', .char '\n'],
          [.char '"', .char 'a', .char '\\', .char '"', .char '\n', .char '"'])],
      i.1 = .integer → i.2.2.length ≤ maxDigits) ∧
    (scan ([.char ' '].intercalate
        ([(Kind.ident, Scalar.text [.char 'x'], [CodePoint.char 'x']),
          (.pow, .null, [.char '*', .char '*']),
          (.integer, .int 7, [.char '0', .char '0', .char '7']),
          (.string, .text [.char 'a', .char '"', .char '\n'],
            [.char '"', .char 'a', .char '\\', .char '"', .char '\n', .char '"'])].map
          (·.2.2)))).map (·.map fun t => (t.kind, t.payload)) =
      .ok ([(Kind.ident, Scalar.text [.char 'x'], [CodePoint.char 'x']),
          (.pow, .null, [.char '*', .char '*']),
          (.integer, .int 7, [.char '0', .char '0', .char '7']),
          (.string, .text [.char 'a', .char '"', .char '\n'],
            [.char '"', .char 'a', .char '\\', .char '"', .char '\n', .char '"'])].map
          (fun i => (i.1, i.2.1)) ++ [(.eof, .null)]) := by
  have hw : ∀ i ∈ [(Kind.ident, Scalar.text [.char 'x'], [CodePoint.char 'x']),
      (.pow, .null, [.char '*', .char '*']),
      (.integer, .int 7, [.char '0', .char '0', .char '7']),
      (.string, .text [.char 'a', .char '"', .char '\n'],
        [.char '"', .char 'a', .char '\\', .char '"', .char '\n', .char '"'])],
      Written i.1 i.2.1 i.2.2 := by
    simp only [List.forall_mem_cons, List.not_mem_nil, IsEmpty.forall_iff, implies_true,
      and_true]
    exact ⟨.name (by decide) (by decide) (by decide), .symbol (by decide),
      .number 2 (by decide),
      .string (.plain (by decide) (by decide) (by decide) (by decide) (.quote (.rawLineFeed .nil)))⟩
  have hd : ∀ i ∈ [(Kind.ident, Scalar.text [.char 'x'], [CodePoint.char 'x']),
      (.pow, .null, [.char '*', .char '*']),
      (.integer, .int 7, [.char '0', .char '0', .char '7']),
      (.string, .text [.char 'a', .char '"', .char '\n'],
        [.char '"', .char 'a', .char '\\', .char '"', .char '\n', .char '"'])],
      i.1 = .integer → i.2.2.length ≤ maxDigits := by
    simp [maxDigits]
  exact ⟨hw, hd, scan_written hw hd⟩

/-- The number 5 written after 4300 zeros is a written token, but the scan refuses it: the
host computes the value of no decimal numeral longer than `maxDigits` digits. -/
theorem zero_padded_number_refused :
    Written .integer (.int 5) ((List.replicate 4300 '0' ++ Nat.toDigits 10 5).map .char) ∧
      scan ((List.replicate 4300 '0' ++ Nat.toDigits 10 5).map .char) =
        .error (.host (.digitLimit 4301)) := by
  refine ⟨.number 4300 (by decide), ?_⟩
  have h := @scan_long_number (.char '0') _ [] (by decide) (digits_written 4299 5)
    (by simp) (by rw [List.length_map, List.length_append, List.length_replicate]; decide)
  rw [List.append_nil, List.length_map, List.length_append, List.length_replicate] at h
  rw [show 4300 = 4299 + 1 from rfl, List.replicate_succ, List.cons_append, List.map_cons, h]
  rfl

end Ember.Token
