import Ember.Proofs.LongestMatch
/-!
Scanned tokens carry their spelling.

Every keyword, operator and punctuation kind has one spelling (`Kind.spelling?`), and the
scanner gives each token of such a kind that spelling as its lexeme; the one other lexeme is
`null`, the second spelling of `nil` (`Token.scan_spelled`). The lexeme of an operator token
is what a tree read from the tokens keeps of the operator.

The scanner takes at each place a prefix that its terminal matches (`front_matches`): a
symbol is then an entry of the table of operators and punctuation, and a word that is no
name an entry of the table of keywords. Both tables spell each kind as it is written.
-/

namespace Ember.Token

/-- A token carries the spelling of its kind as its lexeme, where its kind has one; `nil` may
also be written `null`. -/
def Spelled (t : Token) : Prop :=
  ∀ s, t.kind.spelling? = some s →
    t.lexeme = .text s ∨ (t.kind = .kwNil ∧ t.lexeme = .text "null")

/-- A token of a kind without a spelling of its own (a literal, a name, the end) needs none. -/
theorem spelled_of_none {t : Token} (h : t.kind.spelling? = none) : t.Spelled := by
  intro s hs
  rw [h] at hs
  cases hs

/-! ### The tables of spellings -/

/-- Each operator and punctuation of the table is spelled as its kind. -/
theorem symbol?_spelling {w : Text} {k : Kind} (h : Kind.symbol? w = some k) :
    k.spelling?.map Text.ofString = some w := by
  have hall : Kind.symbols.all
      (fun e => e.2.spelling?.map Text.ofString == some e.1) = true := by
    decide
  simpa using List.all_eq_true.1 hall _ (symbol?_mem h)

/-- Each keyword of the table is spelled as its kind, but for `null`, which is `nil`. -/
theorem keyword?_spelling {w : Text} {k : Kind} (h : Kind.keyword? w = some k) :
    k.spelling?.map Text.ofString = some w ∨ (k = .kwNil ∧ w = Text.ofString "null") := by
  have hall : Kind.keywords.all (fun e => e.2.spelling?.map Text.ofString == some e.1 ||
      (e.2 == .kwNil && e.1 == Text.ofString "null")) = true := by
    decide
  obtain ⟨l₁, l₂, hl, _⟩ := List.lookup_eq_some_iff.mp h
  have hk := List.all_eq_true.1 hall (w, k) (by rw [hl]; simp)
  simpa using hk

/-- A spelling read off a table is the lexeme. -/
theorem text_of_spelling {k : Kind} {s : String} {w : Text} (hs : k.spelling? = some s)
    (hw : k.spelling?.map Text.ofString = some w) : Scalar.text w = .text s := by
  rw [hs, Option.map_some, Option.some.injEq] at hw
  rw [hw]

/-! ### The scanner's lexemes -/

theorem longestUpTo_matches {s : Text} {t : Terminal} {n : Nat} :
    ∀ {k : Nat}, longestUpTo s k = some (t, n) → t.matches (s.take n) = true
  | 0, h => by simp [longestUpTo] at h
  | k + 1, h => by
    rw [longestUpTo] at h
    split at h
    · rename_i t' hof
      cases h
      rw [Terminal.of?] at hof
      have hm := List.find?_some hof
      exact hm
    · exact longestUpTo_matches h

/-- The lexeme taken at the front is matched by the terminal it is taken as. -/
theorem front_matches {c : CodePoint} {rest : Text} {t : Terminal} {n : Nat}
    (h : front c rest = some (t, n)) : t.matches (c :: rest.take n) = true := by
  rw [front_eq_longestMatch] at h
  obtain ⟨⟨t', m⟩, hm, he⟩ := Option.map_eq_some_iff.1 h
  simp only [Prod.mk.injEq] at he
  obtain ⟨rfl, rfl⟩ := he
  have hmatch := longestUpTo_matches hm
  -- the lexeme is not empty, so it is the first code point and `m - 1` more
  obtain ⟨j, rfl⟩ : ∃ j, m = j + 1 := ⟨m - 1, by have := (longestMatch_pos hm).1; omega⟩
  simpa using hmatch

/-- A word is a keyword with its spelling, or `null`, or a name. -/
theorem ofWord_spelled (w : Text) (p : Pos) : (ofWord w p).Spelled := by
  cases hk : Kind.keyword? w with
  | none =>
    apply spelled_of_none
    simp [ofWord, hk, Kind.spelling?]
  | some k =>
    have hkind : (ofWord w p).kind = k := by
      unfold ofWord
      split <;> simp_all
    have hlex : (ofWord w p).lexeme = .text w := by
      unfold ofWord
      split <;> rfl
    intro s hs
    rw [hkind] at hs ⊢
    rw [hlex]
    rcases keyword?_spelling hk with hw | ⟨rfl, rfl⟩
    · exact .inl (text_of_spelling hs hw)
    · exact .inr ⟨rfl, rfl⟩

/-- A token decoded from a lexeme that its terminal matches carries its spelling. -/
theorem decode_spelled {t : Terminal} {lex : Text} {p : Pos} {tok : Token}
    (hm : t.matches lex = true) (h : decode t lex p = .ok (some tok)) : tok.Spelled := by
  cases t with
  | blank | comment => cases h
  | number =>
    simp only [decode] at h
    split at h
    · cases h
    · split at h
      · cases h
      · cases h
        exact spelled_of_none rfl
  | string =>
    simp only [decode] at h
    split at h
    · cases h
      exact spelled_of_none rfl
    · cases h
  | word =>
    cases h
    exact ofWord_spelled lex p
  | symbol k =>
    cases h
    have hk : Kind.symbol? lex = some k := by simpa [Terminal.matches] using hm
    exact fun s hs => .inl (text_of_spelling hs (symbol?_spelling hk))

/-- A property of tokens that the end token and every decoded token have holds of every
token a scan gives, when it holds of the tokens read before it. -/
theorem scanFrom_forall (P : Token → Prop) (hend : ∀ p, P (endAt p))
    (hdec : ∀ {t : Terminal} {lex : Text} {p : Pos} {tok : Token},
      t.matches lex = true → decode t lex p = .ok (some tok) → P tok) :
    ∀ {cs : Text} {p : Pos} {acc : Array Token} {out : Array Token},
      (∀ t ∈ acc, P t) → scanFrom cs p acc = .ok out → ∀ t ∈ out, P t := by
  intro cs p acc
  induction cs, p, acc using scanFrom.induct with
  | case1 p acc =>
    intro out hacc h
    rw [scanFrom.eq_1] at h
    cases h
    intro t ht
    rcases Array.mem_push.1 ht with ht | rfl
    · exact hacc t ht
    · exact hend p
  | case2 p acc c rest hfront =>
    intro out _ h
    rw [scanFrom.eq_2, hfront] at h
    cases h
  | case3 p acc c rest t n hfront lex e =>
    rename_i hdec'
    intro out _ h
    rw [scanFrom.eq_2, hfront] at h
    dsimp only at h
    rw [hdec'] at h
    cases h
  | case4 p acc c rest t n hfront lex tok =>
    rename_i hdec' ih
    intro out hacc h
    rw [scanFrom.eq_2, hfront] at h
    dsimp only at h
    rw [hdec'] at h
    refine ih ?_ h
    intro t' ht'
    cases tok with
    | none => exact hacc t' ht'
    | some tok =>
      rcases Array.mem_push.1 ht' with ht' | rfl
      · exact hacc t' ht'
      · exact hdec (front_matches hfront) hdec'

/-- A property that the end token and every decoded token have holds of every token of a
scanned text. -/
theorem scan_forall (P : Token → Prop) (hend : ∀ p, P (endAt p))
    (hdec : ∀ {t : Terminal} {lex : Text} {p : Pos} {tok : Token},
      t.matches lex = true → decode t lex p = .ok (some tok) → P tok)
    {s : Text} {ts : List Token} (h : scan s = .ok ts) : ∀ t ∈ ts, P t := by
  unfold scan at h
  cases hout : scanFrom s Pos.start #[] with
  | error f =>
    rw [hout] at h
    cases h
  | ok out =>
    rw [hout] at h
    cases h
    intro t ht
    exact scanFrom_forall P hend hdec (fun _ h => absurd h (by simp)) hout t
      (Array.mem_toList_iff.1 ht)

/-- Every token of a scanned text carries the spelling of its kind, where it has one, as its
lexeme; a `nil` may be written `null`. -/
theorem scan_spelled {s : Text} {ts : List Token} (h : scan s = .ok ts) :
    ∀ t ∈ ts, t.Spelled :=
  scan_forall Spelled (fun _ => spelled_of_none rfl) decode_spelled h

end Ember.Token
