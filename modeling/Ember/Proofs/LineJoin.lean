import Ember.Proofs.LongestMatch
import Ember.Proofs.Locality
/-!
Texts joined at a line feed are scanned as the two texts.

A line feed ends every lexeme before it but two: a string literal, which a text that scans
has closed before its end, and a run of blanks, which the line feed and the blanks after it
continue. So the tokens of `s₁ ++ '\n' :: s₂` are those of `s₁` without its end token,
followed by those of `s₂`, at other positions (`scan_join`).

On the way: a scan keeps the tokens read before it in front of its own (`scanFrom_acc`), it
reads the same tokens from any start position, up to their positions (`scanFrom_similar`),
and it ends with the only end token among its tokens (`scan_shape`).
-/

namespace Ember.Token

/-! ### Lexemes before a line feed -/

section Lexemes

variable {c : CodePoint} {rest v : Text} {t : Terminal} {n : Nat}

theorem takeWhile_append_stop {p : CodePoint → Bool} {x : CodePoint} (hx : p x = false) :
    ∀ l : Text, (l ++ x :: v).takeWhile p = l.takeWhile p
  | [] => by simp [hx]
  | d :: l => by
    by_cases hd : p d = true
    · simp only [List.cons_append, List.takeWhile_cons_of_pos hd, takeWhile_append_stop hx l]
    · simp only [List.cons_append, List.takeWhile_cons_of_neg hd]

/-- A string literal closed before the end of a text is closed at the same place whatever
follows the text. -/
theorem stringSpan_append {k m : Nat} (h : stringSpan rest k = some m) :
    stringSpan (rest ++ v) k = some m := by
  fun_induction stringSpan rest k with
  | case1 => cases h
  | case2 tail n =>
    rw [List.cons_append, stringSpan.eq_2]
    exact h
  | case3 => cases h
  | case4 d tail n hd ih =>
    rw [List.cons_append, List.cons_append, stringSpan.eq_3, if_neg hd]
    exact ih h
  | case5 d tail n hq hesc ih =>
    by_cases hb : d = .char '\\'
    · -- a backslash with nothing after it closes nothing
      cases tail with
      | nil =>
        rw [stringSpan.eq_1] at h
        cases h
      | cons d' tail' => exact (hesc d' tail' hb rfl).elim
    · rw [List.cons_append, stringSpan.eq_4 _ _ _ hq (fun _ _ h' _ => hb h')]
      exact ih h

/-- No operator is spelled with a line feed. -/
theorem symbol?_line_feed (d : CodePoint) : Kind.symbol? [d, .char '\n'] = none := by
  have hall : Kind.symbols.all (fun e => !e.1.contains (.char '\n')) = true := by decide
  cases hk : Kind.symbol? [d, .char '\n'] with
  | none => rfl
  | some k =>
    have h := List.all_eq_true.1 hall _ (symbol?_mem hk)
    simp at h

/-- What `symbolFront` takes is an operator, spelled as the table spells it. -/
theorem symbolFront_symbol (h : symbolFront c rest = some (t, n)) :
    ∃ w k, Kind.symbol? w = some k ∧ t = .symbol k := by
  cases rest with
  | nil =>
    simp only [symbolFront] at h
    obtain ⟨k, hk, he⟩ := Option.map_eq_some_iff.1 h
    cases he
    exact ⟨_, k, hk, rfl⟩
  | cons d r =>
    simp only [symbolFront] at h
    split at h
    · rename_i k hk
      cases h
      exact ⟨_, k, hk, rfl⟩
    · obtain ⟨k, hk, he⟩ := Option.map_eq_some_iff.1 h
      cases he
      exact ⟨_, k, hk, rfl⟩

/-- The lexeme the scanner takes does not reach past the text. -/
theorem front_le (h : front c rest = some (t, n)) : n ≤ rest.length := by
  rw [front_eq_longestMatch] at h
  obtain ⟨⟨t', m⟩, hm, he⟩ := Option.map_eq_some_iff.1 h
  cases he
  have := (longestMatch_pos hm).2
  simp only [List.length_cons] at this
  omega

/-- Only blanks start a run of blanks, which runs to the first code point that is none. -/
theorem front_blank (h : front c rest = some (.blank, n)) :
    c.is isBlank = true ∧ n = (rest.takeWhile (·.is isBlank)).length := by
  unfold front at h
  split at h
  · cases h
    exact ⟨‹_›, rfl⟩
  · split at h
    · cases h
    · split at h
      · cases h
      · split at h
        · obtain ⟨_, -, he⟩ := Option.map_eq_some_iff.1 h
          cases he
        · split at h
          · cases h
          · obtain ⟨_, _, -, hk⟩ := symbolFront_symbol h
            cases hk

/-- A line feed after the text leaves the lexeme at its front as it was, unless the lexeme is
a run of blanks to the end of the text. -/
theorem front_append_line (h : front c rest = some (t, n)) (hstop : t ≠ .blank ∨ n < rest.length) :
    front c (rest ++ .char '\n' :: v) = some (t, n) := by
  have hlf : ∀ p : Char → Bool, p '\n' = false →
      (rest ++ .char '\n' :: v).takeWhile (·.is p) = rest.takeWhile (·.is p) :=
    fun p hp => takeWhile_append_stop (by simpa using hp) rest
  unfold front at h ⊢
  by_cases hb : c.is isBlank = true
  · -- a run of blanks that stops inside the text stops at the same place
    rw [if_pos hb] at h ⊢
    cases h
    have hlt := hstop.resolve_left (fun h => h rfl)
    rw [List.takeWhile_append, if_neg (Nat.ne_of_lt hlt)]
  rw [if_neg hb] at h ⊢
  -- the comment test looks at the code point after `c`, which is the line feed only where
  -- the text ended, and no comment starts there
  have hhead : decide ((rest ++ .char '\n' :: v).head? = some (.char '/')) =
      decide (rest.head? = some (.char '/')) := by
    cases rest with
    | nil => rfl
    | cons d r => rfl
  rw [hhead]
  by_cases hc : (c = .char '/' && rest.head? = some (.char '/')) = true
  · rw [if_pos hc] at h ⊢
    cases h
    obtain ⟨d, r, rfl⟩ : ∃ d r, rest = d :: r := by
      cases rest with
      | nil => simp at hc
      | cons d r => exact ⟨d, r, rfl⟩
    simp only [List.cons_append, List.drop_succ_cons, List.drop_zero]
    rw [takeWhile_append_stop (by decide)]
  rw [if_neg hc] at h ⊢
  by_cases hd : c.is isAsciiDigit = true
  · rw [if_pos hd] at h ⊢
    cases h
    rw [hlf _ (by decide)]
  rw [if_neg hd] at h ⊢
  by_cases hq : c = .char '"'
  · rw [if_pos hq] at h ⊢
    obtain ⟨m, hm, he⟩ := Option.map_eq_some_iff.1 h
    rw [stringSpan_append hm]
    exact congrArg some he
  rw [if_neg hq] at h ⊢
  by_cases hw : c.is Text.isIdentStart = true
  · rw [if_pos hw] at h ⊢
    cases h
    rw [hlf _ (by decide)]
  rw [if_neg hw] at h ⊢
  -- an operator looks at one code point after `c` at most, and none pairs with a line feed
  cases rest with
  | nil => simpa [symbolFront, symbol?_line_feed] using h
  | cons d r => simpa [symbolFront] using h

end Lexemes

/-! ### Scans from any position, after any tokens -/

/-- The tokens read before a scan stay in front of the tokens it reads. -/
theorem scanFrom_acc : ∀ {cs : Text} {p : Pos} {acc' : Array Token} (acc : Array Token),
    scanFrom cs p (acc ++ acc') = (scanFrom cs p acc').map (acc ++ ·) := by
  intro cs p acc'
  induction cs, p, acc' using scanFrom.induct with
  | case1 p acc' =>
    intro acc
    rw [scanFrom.eq_1, scanFrom.eq_1, ← Array.append_push]
    rfl
  | case2 p acc' c rest hfront =>
    intro acc
    rw [scanFrom.eq_2, scanFrom.eq_2, hfront]
    rfl
  | case3 p acc' c rest t n hfront lex e =>
    rename_i hdec
    intro acc
    rw [scanFrom.eq_2, scanFrom.eq_2, hfront]
    dsimp only
    rw [hdec]
    rfl
  | case4 p acc' c rest t n hfront lex tok =>
    rename_i hdec ih
    intro acc
    rw [scanFrom.eq_2, scanFrom.eq_2, hfront]
    dsimp only
    rw [hdec]
    dsimp only
    cases tok with
    | none => exact ih acc
    | some tk =>
      dsimp only
      rw [← Array.append_push]
      exact ih acc

/-- Where a lexeme is decoded changes only the position of its token. -/
theorem decode_at {t : Terminal} {lex : Text} {p : Pos} {tok : Option Token} (p' : Pos)
    (h : decode t lex p = .ok tok) :
    decode t lex p' = .ok (tok.map fun tk => { tk with pos := p' }) := by
  cases t with
  | blank | comment =>
    cases h
    rfl
  | number =>
    simp only [decode] at h ⊢
    split at h
    · cases h
    · rename_i hlong
      split at h
      · cases h
      · rename_i hbig
        cases h
        rw [if_neg hlong, if_neg hbig]
        rfl
  | string =>
    simp only [decode] at h ⊢
    split at h
    · cases h
      rfl
    · cases h
  | word =>
    cases h
    simp only [decode, Option.map_some]
    unfold ofWord
    split <;> rfl
  | symbol k =>
    cases h
    rfl

theorem similar_moved (tk : Token) (p : Pos) : tk.Similar { tk with pos := p } :=
  ⟨rfl, rfl, rfl⟩

/-- A scan from another position, after similar tokens, reads similar tokens. -/
theorem scanFrom_similar :
    ∀ {cs : Text} {p : Pos} {acc out : Array Token}, scanFrom cs p acc = .ok out →
      ∀ (p' : Pos) (acc' : Array Token), List.Forall₂ Token.Similar acc.toList acc'.toList →
        ∃ out', scanFrom cs p' acc' = .ok out' ∧
          List.Forall₂ Token.Similar out.toList out'.toList := by
  intro cs p acc
  induction cs, p, acc using scanFrom.induct with
  | case1 p acc =>
    intro out h p' acc' hs
    rw [scanFrom.eq_1] at h
    cases h
    refine ⟨_, scanFrom.eq_1 .., ?_⟩
    simp only [Array.toList_push]
    exact List.rel_append hs (.cons (similar_moved (endAt p) p') .nil)
  | case2 p acc c rest hfront =>
    intro out h
    rw [scanFrom.eq_2, hfront] at h
    cases h
  | case3 p acc c rest t n hfront lex e =>
    rename_i hdec
    intro out h
    rw [scanFrom.eq_2, hfront] at h
    dsimp only at h
    rw [hdec] at h
    cases h
  | case4 p acc c rest t n hfront lex tok =>
    rename_i hdec ih
    intro out h p' acc' hs
    rw [scanFrom.eq_2, hfront] at h
    dsimp only at h
    rw [hdec] at h
    dsimp only at h
    rw [scanFrom.eq_2, hfront]
    dsimp only
    rw [decode_at p' hdec]
    -- the token of the lexeme is the same but for its position
    cases tok with
    | none => exact ih h _ acc' hs
    | some tk =>
      refine ih h _ _ ?_
      simp only [Option.map_some, Array.toList_push]
      exact List.rel_append hs (.cons (similar_moved tk _) .nil)

/-! ### The end token -/

/-- No operator or keyword is the end. -/
theorem symbol?_ne_eof {w : Text} {k : Kind} (h : Kind.symbol? w = some k) : k ≠ .eof := by
  have hall : Kind.symbols.all (fun e => e.2 != .eof) = true := by decide
  have hk := List.all_eq_true.1 hall _ (symbol?_mem h)
  simpa using hk

theorem keyword?_ne_eof {w : Text} {k : Kind} (h : Kind.keyword? w = some k) : k ≠ .eof := by
  have hall : Kind.keywords.all (fun e => e.2 != .eof) = true := by decide
  obtain ⟨l₁, l₂, hl, _⟩ := List.lookup_eq_some_iff.mp h
  have hk := List.all_eq_true.1 hall (w, k) (by rw [hl]; simp)
  simpa using hk

theorem ofWord_ne_eof (w : Text) (p : Pos) : (ofWord w p).kind ≠ .eof := by
  unfold ofWord
  split
  · simp
  · simp
  · exact keyword?_ne_eof ‹_›
  · simp

/-- The lexeme at the front is an operator only where `symbolFront` takes it. -/
theorem front_symbol {k : Kind} (h : front c rest = some (.symbol k, n)) :
    ∃ w, Kind.symbol? w = some k := by
  unfold front at h
  split at h
  · cases h
  · split at h
    · cases h
    · split at h
      · cases h
      · split at h
        · obtain ⟨_, -, he⟩ := Option.map_eq_some_iff.1 h
          cases he
        · split at h
          · cases h
          · obtain ⟨w, k', hk, he⟩ := symbolFront_symbol h
            cases he
            exact ⟨w, hk⟩

/-- No lexeme is decoded to an end token. -/
theorem decode_ne_eof {lex : Text} {p : Pos} {tk : Token} (hfront : front c rest = some (t, n))
    (h : decode t lex p = .ok (some tk)) : tk.kind ≠ .eof := by
  cases t with
  | blank | comment => cases h
  | number =>
    simp only [decode] at h
    split at h
    · cases h
    · split at h
      · cases h
      · cases h
        simp
  | string =>
    simp only [decode] at h
    split at h
    · cases h
      simp
    · cases h
  | word =>
    cases h
    exact ofWord_ne_eof lex p
  | symbol k =>
    cases h
    obtain ⟨_, hk⟩ := front_symbol hfront
    exact symbol?_ne_eof hk

/-- A scan gives the tokens read before it, then tokens of its own, none of them an end
token, then one end token. -/
theorem scanFrom_shape :
    ∀ {cs : Text} {p : Pos} {acc out : Array Token}, scanFrom cs p acc = .ok out →
      ∃ toks q, out.toList = acc.toList ++ toks ++ [endAt q] ∧ ∀ tk ∈ toks, tk.kind ≠ .eof := by
  intro cs p acc
  induction cs, p, acc using scanFrom.induct with
  | case1 p acc =>
    intro out h
    rw [scanFrom.eq_1] at h
    cases h
    exact ⟨[], p, by simp, by simp⟩
  | case2 p acc c rest hfront =>
    intro out h
    rw [scanFrom.eq_2, hfront] at h
    cases h
  | case3 p acc c rest t n hfront lex e =>
    rename_i hdec
    intro out h
    rw [scanFrom.eq_2, hfront] at h
    dsimp only at h
    rw [hdec] at h
    cases h
  | case4 p acc c rest t n hfront lex tok =>
    rename_i hdec ih
    intro out h
    rw [scanFrom.eq_2, hfront] at h
    dsimp only at h
    rw [hdec] at h
    obtain ⟨toks, q, hout, hne⟩ := ih h
    cases tok with
    | none => exact ⟨toks, q, hout, hne⟩
    | some tk =>
      refine ⟨tk :: toks, q, by simpa using hout, ?_⟩
      intro tk' htk'
      rcases List.mem_cons.1 htk' with rfl | htk'
      · exact decode_ne_eof hfront hdec
      · exact hne tk' htk'

theorem scan_shape {s : Text} {ts : List Token} (h : scan s = .ok ts) :
    ∃ toks q, ts = toks ++ [endAt q] ∧ ∀ tk ∈ toks, tk.kind ≠ .eof := by
  unfold scan at h
  obtain ⟨out, hout, rfl⟩ := Syntax.ok_of_map_eq_ok h
  simpa using scanFrom_shape hout

/-! ### Joining at a line feed -/

/-- A run of blanks is passed over. -/
theorem scanFrom_blank (hc : c.is isBlank = true) (w : Text) (p : Pos) (acc : Array Token) :
    scanFrom (c :: w) p acc =
      scanFrom (w.dropWhile (·.is isBlank)) (p.advance (c :: w.takeWhile (·.is isBlank))) acc := by
  have hsplit := List.takeWhile_append_dropWhile (p := fun d : CodePoint => d.is isBlank) (l := w)
  have htake : w.take (w.takeWhile (·.is isBlank)).length = w.takeWhile (·.is isBlank) := by
    have h := @List.take_left' _ (w.takeWhile (·.is isBlank)) (w.dropWhile (·.is isBlank)) _ rfl
    rwa [hsplit] at h
  have hdrop : w.drop (w.takeWhile (·.is isBlank)).length = w.dropWhile (·.is isBlank) := by
    have h := @List.drop_left' _ (w.takeWhile (·.is isBlank)) (w.dropWhile (·.is isBlank)) _ rfl
    rwa [hsplit] at h
  rw [scanFrom.eq_2, front, if_pos hc]
  dsimp only
  rw [htake, hdrop]
  rfl

/-- Every text is scanned as what follows its leading blanks, from some position. -/
theorem scanFrom_dropBlanks (w : Text) (p : Pos) (acc : Array Token) :
    ∃ q, scanFrom w p acc = scanFrom (w.dropWhile (·.is isBlank)) q acc := by
  cases w with
  | nil => exact ⟨p, rfl⟩
  | cons d w =>
    by_cases hd : d.is isBlank = true
    · rw [scanFrom_blank hd, List.dropWhile_cons_of_pos hd]
      exact ⟨_, rfl⟩
    · rw [List.dropWhile_cons_of_neg hd]
      exact ⟨p, rfl⟩

/-- A text that scans, a line feed, and any text after it: the scan takes the lexemes of the
first text as before, passes the line feed with the blanks around it, and goes on with the
rest after the tokens of the first text but its end token. The induction follows the scan of
the first text; only its last lexeme can be changed by what follows, and only if it is a run
of blanks. -/
theorem scanFrom_join :
    ∀ {cs : Text} {p : Pos} {acc out : Array Token}, scanFrom cs p acc = .ok out →
      ∀ w : Text, ∃ q, scanFrom (cs ++ .char '\n' :: w) p acc =
        scanFrom (w.dropWhile (·.is isBlank)) q out.pop := by
  intro cs p acc
  induction cs, p, acc using scanFrom.induct with
  | case1 p acc =>
    intro out h w
    rw [scanFrom.eq_1] at h
    cases h
    rw [List.nil_append, scanFrom_blank (by decide) w p acc, Array.pop_push]
    exact ⟨_, rfl⟩
  | case2 p acc c rest hfront =>
    intro out h
    rw [scanFrom.eq_2, hfront] at h
    cases h
  | case3 p acc c rest t n hfront lex e =>
    rename_i hdec
    intro out h
    rw [scanFrom.eq_2, hfront] at h
    dsimp only at h
    rw [hdec] at h
    cases h
  | case4 p acc c rest t n hfront lex tok =>
    rename_i hdec ih
    intro out h w
    rw [scanFrom.eq_2, hfront] at h
    dsimp only at h
    rw [hdec] at h
    dsimp only at h
    by_cases hstop : t ≠ .blank ∨ n < rest.length
    · -- the lexeme ends before the line feed, and the scan goes on after it as before
      have hle := front_le hfront
      obtain ⟨q, hq⟩ := ih h w
      refine ⟨q, ?_⟩
      rw [List.cons_append, scanFrom.eq_2, front_append_line hfront hstop]
      dsimp only
      rw [List.take_append_of_le_length hle, hdec]
      dsimp only
      rw [List.drop_append_of_le_length hle]
      exact hq
    · -- a run of blanks to the end of the text goes on over the line feed
      simp only [not_or, not_not, Nat.not_lt] at hstop
      obtain ⟨rfl, hlen⟩ := hstop
      obtain ⟨hc, hn⟩ := front_blank hfront
      have hall : rest.dropWhile (·.is isBlank) = [] := by
        have hsplit := congrArg List.length
          (List.takeWhile_append_dropWhile (p := fun d : CodePoint => d.is isBlank) (l := rest))
        rw [List.length_append, ← hn] at hsplit
        exact List.eq_nil_of_length_eq_zero (by omega)
      cases hdec
      rw [List.drop_eq_nil_of_le hlen, scanFrom.eq_1] at h
      cases h
      rw [List.cons_append, scanFrom_blank hc, List.dropWhile_append, if_pos (by simp [hall]),
        List.dropWhile_cons_of_pos (by decide), Array.pop_push]
      exact ⟨_, rfl⟩

/-- The tokens of two texts joined at a line feed are those of the first text but its end
token, then those of the second, at other positions. -/
theorem scan_join {s₁ s₂ : Text} {ts₁ ts₂ : List Token} (h₁ : scan s₁ = .ok ts₁)
    (h₂ : scan s₂ = .ok ts₂) :
    ∃ ts₂', scan (s₁ ++ .char '\n' :: s₂) = .ok (ts₁.dropLast ++ ts₂') ∧
      List.Forall₂ Token.Similar ts₂ ts₂' := by
  unfold scan at h₁ h₂ ⊢
  obtain ⟨out₁, hout₁, rfl⟩ := Syntax.ok_of_map_eq_ok h₁
  obtain ⟨out₂, hout₂, rfl⟩ := Syntax.ok_of_map_eq_ok h₂
  obtain ⟨q, hq⟩ := scanFrom_join hout₁ s₂
  -- the second text is scanned from after its blanks, at another position
  obtain ⟨q₂, hq₂⟩ := scanFrom_dropBlanks s₂ Pos.start #[]
  rw [hq₂] at hout₂
  obtain ⟨out₂', hout₂', hs⟩ := scanFrom_similar hout₂ q #[] .nil
  have hacc := @scanFrom_acc (s₂.dropWhile (·.is isBlank)) q #[] out₁.pop
  rw [Array.append_empty, hout₂'] at hacc
  refine ⟨out₂'.toList, ?_, hs⟩
  rw [hq, hacc]
  simp [Except.map, Array.toList_pop]

end Ember.Token
