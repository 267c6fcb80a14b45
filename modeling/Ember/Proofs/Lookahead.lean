import Ember.Proofs.Locality
/-!
A read looks at one token past what it takes.

A read of the tokens `ts` that leaves `rest` has seen the tokens before `rest` and the first
token of `rest`, and nothing after them. From any tokens that agree with these, in everything
but their positions, and go on with anything at all, it reads the same tree and leaves the
tokens at the same place (`Window`, `ExprLookahead`, `StmtLookahead`). Where `ExprLocality`
keeps all the tokens and adds some after them, here every token after the first one of
`rest` may change; this is the one-token lookahead of the reader.

Main statement: a declaration read depends only on the tokens it takes and the next one
(`declaration_window`).
-/

namespace Ember

theorem Token.take_one_nil {ts' : List Token}
    (h : List.Forall₂ Token.Similar (([] : List Token).take 1) (ts'.take 1)) : ts' = [] := by
  cases ts' with
  | nil => rfl
  | cons t' r' => cases h

theorem Token.take_one_cons {t : Token} {r ts' : List Token}
    (h : List.Forall₂ Token.Similar ((t :: r).take 1) (ts'.take 1)) :
    ∃ t' r', ts' = t' :: r' ∧ t.Similar t' := by
  cases ts' with
  | nil => cases h
  | cons t' r' =>
    cases h with
    | cons ht _ => exact ⟨t', r', rfl, ht⟩

namespace Syntax

/-- The tokens `ts'` that end with `rest'` agree with the tokens `ts` that end with `rest`,
positions aside, up to the rests and on the first token of the rests, or both rests are
empty: all that a read of `ts` that left `rest` has seen. -/
inductive Window : List Token → List Token → List Token → List Token → Prop
  /-- No token before the rests, whose first tokens agree. -/
  | here {rest rest' : List Token} :
      List.Forall₂ Token.Similar (rest.take 1) (rest'.take 1) → Window rest rest rest' rest'
  /-- A token before the rests, and one like it. -/
  | cons {t t' : Token} {ts rest ts' rest' : List Token} :
      t.Similar t' → Window ts rest ts' rest' → Window (t :: ts) rest (t' :: ts') rest'

namespace Window

variable {ts rest ts' rest' : List Token}

theorem suffix (w : Window ts rest ts' rest') : rest <:+ ts := by
  induction w with
  | here _ => exact List.suffix_refl _
  | cons _ _ ih => exact ih.trans (List.suffix_cons _ _)

/-- The first tokens agree, or there are none. -/
theorem head (w : Window ts rest ts' rest') :
    List.Forall₂ Token.Similar (ts.take 1) (ts'.take 1) := by
  cases w with
  | here h => exact h
  | cons ht _ => exact .cons ht .nil

/-- The first tokens of the rests agree, or there are none. -/
theorem next (w : Window ts rest ts' rest') :
    List.Forall₂ Token.Similar (rest.take 1) (rest'.take 1) := by
  induction w with
  | here h => exact h
  | cons _ _ ih => exact ih

theorem cons_head {t : Token} (w : Window (t :: ts) rest ts' rest') :
    ∃ t' ts'', ts' = t' :: ts'' ∧ t.Similar t' :=
  Token.take_one_cons w.head

/-- A window over a token before the rest holds one like it, and goes on after it. -/
theorem cons_inv {t : Token} (w : Window (t :: ts) rest ts' rest') (h : rest.length ≤ ts.length) :
    ∃ t' ts'', ts' = t' :: ts'' ∧ t.Similar t' ∧ Window ts rest ts'' rest' := by
  cases w with
  | here _ => exact absurd h (by simp)
  | cons ht w => exact ⟨_, _, rfl, ht, w⟩

/-- A window with no token before its rest ends where the other tokens start. -/
theorem eq_of_self (w : Window ts ts ts' rest') : ts' = rest' := by
  cases w with
  | here _ => rfl
  | cons _ w => exact absurd w.suffix.length_le (by simp)

theorem nil_inv (w : Window [] rest ts' rest') : ts' = [] ∧ rest' = [] := by
  have hts' := Token.take_one_nil w.head
  subst hts'
  cases w with
  | here _ => exact ⟨rfl, rfl⟩

/-- A window is cut in two at the rest `r` of a read that it goes past: a suffix of its
tokens, no shorter than its own rest. -/
theorem split {r : List Token} (w : Window ts rest ts' rest') (h₁ : r <:+ ts)
    (h₂ : rest.length ≤ r.length) : ∃ r', Window ts r ts' r' ∧ Window r rest r' rest' := by
  have hs := List.suffix_of_suffix_length_le w.suffix h₁ h₂
  clear h₂
  induction w generalizing r with
  | here hn =>
    obtain rfl := hs.eq_of_length (Nat.le_antisymm hs.length_le h₁.length_le)
    exact ⟨_, .here hn, .here hn⟩
  | cons ht w ih =>
    rcases List.suffix_cons_iff.1 h₁ with rfl | h₁
    · exact ⟨_, .here (.cons ht .nil), .cons ht w⟩
    · obtain ⟨r', w₁, w₂⟩ := ih h₁ hs
      exact ⟨r', .cons ht w₁, w₂⟩

/-- A read that takes a token first: the window holds a similar token, and a window from it
to the rest of the read after the token. -/
theorem cons_split {t : Token} {r : List Token} (w : Window (t :: ts) rest ts' rest')
    (h₁ : r <:+ ts) (h₂ : rest.length ≤ r.length) :
    ∃ t' ts'' r', ts' = t' :: ts'' ∧ t.Similar t' ∧ Window ts r ts'' r' ∧ Window r rest r' rest' := by
  obtain ⟨t', ts'', rfl, ht, w⟩ := w.cons_inv (Nat.le_trans h₂ h₁.length_le)
  obtain ⟨r', w₁, w₂⟩ := w.split h₁ h₂
  exact ⟨t', ts'', r', rfl, ht, w₁, w₂⟩

/-- Tokens like `ts`, then tokens whose first is like the first of `rest`. -/
theorem of_forall₂ (h : List.Forall₂ Token.Similar ts ts')
    (hn : List.Forall₂ Token.Similar (rest.take 1) (rest'.take 1)) :
    Window (ts ++ rest) rest (ts' ++ rest') rest' := by
  induction h with
  | nil => exact .here hn
  | cons ht _ ih => exact .cons ht ih

end Window

/-! ### Taking one token -/

section Tokens

variable {ts rest ts' rest' : List Token}

theorem accept_none_of_similar {k : Token.Kind} (h : accept k ts = none)
    (hs : List.Forall₂ Token.Similar (ts.take 1) (ts'.take 1)) : accept k ts' = none := by
  cases ts with
  | nil => rw [Token.take_one_nil hs]; rfl
  | cons t r =>
    obtain ⟨t', r', rfl, ht⟩ := Token.take_one_cons hs
    apply accept_of_ne
    intro t'' h'' hk
    cases h''
    have hk' : t.kind = k := ht.1.trans hk
    simp [accept, hk'] at h

theorem startsWith_of_similar {k : Token.Kind}
    (hs : List.Forall₂ Token.Similar (ts.take 1) (ts'.take 1)) : startsWith k ts' = startsWith k ts := by
  cases ts with
  | nil => rw [Token.take_one_nil hs]
  | cons t r =>
    obtain ⟨t', r', rfl, ht⟩ := Token.take_one_cons hs
    simp only [startsWith, ht.1]

/-- An expected token is one of the other tokens too, and is expected there whatever the end
position and the text of the fault would be. -/
theorem expect_window {e : Pos} {k : Token.Kind} {what : Text} {t : Token} {r r' : List Token}
    (h : Yields (expect e k what ts) t r) (w : Window ts r ts' r') :
    ∃ t', t.Similar t' ∧ ∀ e' what', Yields (expect e' k what' ts') t' r' := by
  obtain ⟨rfl, hk⟩ := expect_inv h
  obtain ⟨t', r'', rfl, ht, w⟩ := w.cons_inv (Nat.le_refl _)
  obtain rfl := w.eq_of_self
  exact ⟨t', ht, fun _ _ => Yields.expect_similar _ ht hk⟩

theorem accept_window {k : Token.Kind} {t : Token} {x : Rest ts} (h : accept k ts = some (t, x))
    (w : Window ts rest ts' rest') (hs : rest.length ≤ x.1.length) :
    ∃ t' r', t.Similar t' ∧ Window x.1 rest r' rest' ∧
      ∃ hr, accept k ts' = some (t', ⟨r', hr⟩) := by
  obtain ⟨hts, hk⟩ := accept_inv h
  rw [hts] at w
  obtain ⟨t', r', rfl, ht, w⟩ := w.cons_inv hs
  exact ⟨t', r', ht, w, _, accept_of_kind _ (ht.1 ▸ hk)⟩

end Tokens

/-! ### Expressions -/

/-- Every expression reader reads the same from tokens that agree with those it took and
with the next one. -/
structure ExprLookahead (e : Pos) : Prop where
  primary : ∀ ts x rest, Yields (primary e ts) x rest → ∀ e' ts' rest',
    Window ts rest ts' rest' → Yields (primary e' ts') x rest'
  expression : ∀ ts x rest, Yields (expression e ts) x rest → ∀ e' ts' rest',
    Window ts rest ts' rest' → Yields (expression e' ts') x rest'
  infixExpr : ∀ lvl ts x rest, Yields (infixExpr e lvl ts) x rest → ∀ e' ts' rest',
    Window ts rest ts' rest' → Yields (infixExpr e' lvl ts') x rest'
  infixTail : ∀ lvl left ts x rest, Yields (infixTail e lvl left ts) x rest → ∀ e' ts' rest',
    Window ts rest ts' rest' → Yields (infixTail e' lvl left ts') x rest'
  operand : ∀ lvl ts x rest, Yields (operand e lvl ts) x rest → ∀ e' ts' rest',
    Window ts rest ts' rest' → Yields (operand e' lvl ts') x rest'
  prefixExpr : ∀ ts x rest, Yields (prefixExpr e ts) x rest → ∀ e' ts' rest',
    Window ts rest ts' rest' → Yields (prefixExpr e' ts') x rest'
  callTail : ∀ callee ts x rest, Yields (callTail e callee ts) x rest → ∀ e' ts' rest',
    Window ts rest ts' rest' → Yields (callTail e' callee ts') x rest'
  callArgs : ∀ ts xs rest, Yields (callArgs e ts) xs rest → ∀ e' ts' rest',
    Window ts rest ts' rest' → Yields (callArgs e' ts') xs rest'
  argsFrom : ∀ acc ts xs rest, Yields (argsFrom e acc ts) xs rest → ∀ e' ts' rest',
    Window ts rest ts' rest' → Yields (argsFrom e' acc ts') xs rest'

/-- The induction follows the readers' own recursion, as `exprLocality` does. Each case cuts
the window where the parts of the read meet, at the rests that the parts left, which are
suffixes of one another (`exprProvenance`). -/
theorem exprLookahead (e : Pos) : ExprLookahead e := by
  refine (primary.mutual_induct
    (fun ts => ∀ x rest, Yields (primary e ts) x rest → ∀ e' ts' rest',
      Window ts rest ts' rest' → Yields (primary e' ts') x rest')
    (fun ts => ∀ x rest, Yields (expression e ts) x rest → ∀ e' ts' rest',
      Window ts rest ts' rest' → Yields (expression e' ts') x rest')
    (fun lvl ts => ∀ x rest, Yields (infixExpr e lvl ts) x rest → ∀ e' ts' rest',
      Window ts rest ts' rest' → Yields (infixExpr e' lvl ts') x rest')
    (fun lvl left ts => ∀ x rest, Yields (infixTail e lvl left ts) x rest → ∀ e' ts' rest',
      Window ts rest ts' rest' → Yields (infixTail e' lvl left ts') x rest')
    (fun lvl ts => ∀ x rest, Yields (operand e lvl ts) x rest → ∀ e' ts' rest',
      Window ts rest ts' rest' → Yields (operand e' lvl ts') x rest')
    (fun ts => ∀ x rest, Yields (prefixExpr e ts) x rest → ∀ e' ts' rest',
      Window ts rest ts' rest' → Yields (prefixExpr e' ts') x rest')
    (fun callee ts => ∀ x rest, Yields (callTail e callee ts) x rest → ∀ e' ts' rest',
      Window ts rest ts' rest' → Yields (callTail e' callee ts') x rest')
    (fun ts => ∀ xs rest, Yields (callArgs e ts) xs rest → ∀ e' ts' rest',
      Window ts rest ts' rest' → Yields (callArgs e' ts') xs rest')
    (fun acc ts => ∀ xs rest, Yields (argsFrom e acc ts) xs rest → ∀ e' ts' rest',
      Window ts rest ts' rest' → Yields (argsFrom e' acc ts') xs rest')
    ?primaryNil ?integer ?string ?kwTrue ?kwFalse ?kwNil ?ident ?kwThis ?lparen ?unexpected
    ?expression ?infixExpr ?infixTailNil ?infixTailOp ?infixTailStop
    ?operandOr ?operandAnd ?operandCompare ?operandTerm ?operandFactor
    ?prefixNil ?prefixUnary ?prefixPrimary
    ?callTailNil ?callTailCall ?callTailField ?callTailStop
    ?callArgsSome ?callArgsNone ?argsFull ?argsFrom).elim
    fun h1 h => h.elim fun h2 h => h.elim fun h3 h => h.elim fun h4 h => h.elim fun h5 h =>
      h.elim fun h6 h => h.elim fun h7 h => h.elim fun h8 h9 => ⟨h1, h2, h3, h4, h5, h6, h7, h8, h9⟩
  case primaryNil =>
    intro x rest h
    rw [primary.eq_1] at h
    exact (Yields.of_error h).elim
  case integer | string | kwTrue | kwFalse | kwNil | ident | kwThis =>
    intro t tail hk x rest h e' ts' rest' w
    simp only [primary.eq_2, hk] at h
    obtain ⟨rfl, rfl⟩ := Yields.of_ok h
    obtain ⟨t', tail', rfl, ht, w⟩ := w.cons_inv (Nat.le_refl _)
    obtain rfl := w.eq_of_self
    simp only [primary.eq_2, ← ht.1, hk, ht.2.2]
    rfl
  case lparen =>
    intro t tail hk ih x rest h e' ts' rest' w
    simp only [primary.eq_2, hk] at h
    obtain ⟨x', r1, _, hx, h⟩ := Yields.of_bind h
    dsimp only at h
    obtain ⟨_, r2, h2, hr, h⟩ := Yields.of_bind h
    obtain ⟨rfl, rfl⟩ := Yields.of_pure h
    obtain ⟨t', tail', r1', rfl, ht, w₁, w₂⟩ :=
      w.cons_split ((exprProvenance e).expression _ _ _ hx).1 (Nat.le_of_lt h2)
    obtain ⟨_, -, hr'⟩ := expect_window hr w₂
    simp only [primary.eq_2, ← ht.1, hk]
    exact Yields.to_bind (ih x' r1 hx e' tail' r1' w₁) fun _ =>
      Yields.to_bind (hr' e' _) fun _ => rfl
  case unexpected =>
    intro t tail h1 h2 h3 h4 h5 h6 h7 h8 x rest h
    rw [primary.eq_2] at h
    split at h <;> contradiction
  case expression =>
    intro ts ihl ihv x rest h e' ts' rest' w
    rw [expression.eq_1] at h
    obtain ⟨left, r1, h1, hl, h⟩ := Yields.of_bind h
    dsimp only at h
    rw [expression.eq_1]
    split at h
    · -- an assignment: the window is cut after the left side and after `=`
      rename_i eq r2 h2 ha
      obtain ⟨value, r3, h3, hv, h⟩ := Yields.of_bind h
      dsimp only at h
      have hr3 : r3 = rest := by
        split at h
        · exact (Yields.of_pure h).2
        · exact (Yields.of_pure h).2
        · exact (Yields.of_throw h).elim
      subst hr3
      obtain ⟨r1', w₁, w₂⟩ := w.split ((exprProvenance e).infixExpr _ _ _ _ hl).1 (by omega)
      obtain ⟨_, r2', -, w₃, _, ha'⟩ := accept_window ha w₂ (Nat.le_of_lt h3)
      refine Yields.to_bind (ihl left r1 hl e' ts' r1' w₁) fun _ => ?_
      dsimp only
      rw [ha']
      refine Yields.to_bind (ihv r1 h1 r2 h2 value r3 hv e' r2' rest' w₃) fun _ => ?_
      split at h
      · obtain ⟨rfl, -⟩ := Yields.of_pure h
        rfl
      · obtain ⟨rfl, -⟩ := Yields.of_pure h
        rfl
      · exact (Yields.of_throw h).elim
    · -- no `=` follows: the window ends at the token that is not one
      rename_i ha
      obtain ⟨rfl, rfl⟩ := Yields.of_pure h
      refine Yields.to_bind (ihl left r1 hl e' ts' rest' w) fun _ => ?_
      dsimp only
      rw [accept_none_of_similar ha w.next]
      rfl
  case infixExpr =>
    intro lvl ts ihl iht x rest h e' ts' rest' w
    rw [infixExpr.eq_1] at h
    obtain ⟨left, r1, h1, hl, h⟩ := Yields.of_bind h
    dsimp only at h
    obtain ⟨x', r2, h2, hx, h⟩ := Yields.of_bind h
    obtain ⟨rfl, rfl⟩ := Yields.of_pure h
    obtain ⟨r1', w₁, w₂⟩ := w.split ((exprProvenance e).operand _ _ _ _ hl).1 h2
    rw [infixExpr.eq_1]
    exact Yields.to_bind (ihl left r1 hl e' ts' r1' w₁) fun _ =>
      Yields.to_bind (iht left r1 h1 _ _ hx e' r1' rest' w₂) fun _ => rfl
  case infixTailNil =>
    intro lvl left x rest h e' ts' rest' w
    rw [infixTail.eq_1] at h
    obtain ⟨rfl, rfl⟩ := Yields.of_ok h
    obtain ⟨rfl, rfl⟩ := w.nil_inv
    rw [infixTail.eq_1]
    rfl
  case infixTailOp =>
    intro lvl left t tail op hop ihr iht x rest h e' ts' rest' w
    simp only [infixTail.eq_2, hop] at h
    obtain ⟨right, r1, h1, hr, h⟩ := Yields.of_bind h
    dsimp only at h
    obtain ⟨x', r2, h2, hx, h⟩ := Yields.of_bind h
    obtain ⟨rfl, rfl⟩ := Yields.of_pure h
    obtain ⟨t', tail', r1', rfl, ht, w₁, w₂⟩ :=
      w.cons_split ((exprProvenance e).operand _ _ _ _ hr).1 h2
    simp only [infixTail.eq_2, ← ht.1, hop, ← ht.2.1]
    exact Yields.to_bind (ihr right r1 hr e' tail' r1' w₁) fun _ =>
      Yields.to_bind (iht right r1 h1 _ _ hx e' r1' rest' w₂) fun _ => rfl
  case infixTailStop =>
    intro lvl left t tail hnone x rest h e' ts' rest' w
    simp only [infixTail.eq_2, hnone] at h
    obtain ⟨rfl, rfl⟩ := Yields.of_ok h
    obtain ⟨t', tail', rfl, ht⟩ := w.cons_head
    obtain rfl := w.eq_of_self
    simp only [infixTail.eq_2, ← ht.1, hnone]
    rfl
  case operandOr | operandAnd | operandCompare | operandTerm | operandFactor =>
    intro ts ih x rest h e' ts' rest' w
    rw [operand] at h ⊢
    exact ih x rest h e' ts' rest' w
  case prefixNil =>
    intro _ x rest h
    rw [prefixExpr.eq_1, primary.eq_1] at h
    exact (Yields.of_error h).elim
  case prefixUnary =>
    intro t tail op hop ih x rest h e' ts' rest' w
    simp only [prefixExpr.eq_2, hop] at h
    obtain ⟨x', r1, h1, hx, h⟩ := Yields.of_bind h
    obtain ⟨rfl, rfl⟩ := Yields.of_pure h
    obtain ⟨t', tail', rfl, ht, w⟩ := w.cons_inv (Nat.le_of_lt h1)
    simp only [prefixExpr.eq_2, ← ht.1, hop, ← ht.2.1]
    exact Yields.to_bind (ih x' r1 hx e' tail' rest' w) fun _ => rfl
  case prefixPrimary =>
    intro t tail hnone ihp iht x rest h e' ts' rest' w
    simp only [prefixExpr.eq_2, hnone] at h
    obtain ⟨p, r1, h1, hp, h⟩ := Yields.of_bind h
    dsimp only at h
    obtain ⟨x', r2, h2, hx, h⟩ := Yields.of_bind h
    obtain ⟨rfl, rfl⟩ := Yields.of_pure h
    obtain ⟨r1', w₁, w₂⟩ := w.split ((exprProvenance e).primary _ _ _ hp).1 h2
    obtain ⟨t', tail', rfl, ht⟩ := w₁.cons_head
    simp only [prefixExpr.eq_2, ← ht.1, hnone]
    exact Yields.to_bind (ihp p r1 hp e' _ r1' w₁) fun _ =>
      Yields.to_bind (iht p r1 h1 _ _ hx e' r1' rest' w₂) fun _ => rfl
  case callTailNil =>
    intro callee x rest h e' ts' rest' w
    rw [callTail.eq_1] at h
    obtain ⟨rfl, rfl⟩ := Yields.of_ok h
    obtain ⟨rfl, rfl⟩ := w.nil_inv
    rw [callTail.eq_1]
    rfl
  case callTailCall =>
    intro callee t tail hk iha iht x rest h e' ts' rest' w
    simp only [callTail.eq_2, hk, if_true] at h
    obtain ⟨args, r1, h1, ha, h⟩ := Yields.of_bind h
    dsimp only at h
    obtain ⟨x', r2, h2, hx, h⟩ := Yields.of_bind h
    obtain ⟨rfl, rfl⟩ := Yields.of_pure h
    obtain ⟨t', tail', r1', rfl, ht, w₁, w₂⟩ :=
      w.cons_split ((exprProvenance e).callArgs _ _ _ ha).1 h2
    simp only [callTail.eq_2, ← ht.1, hk, if_true]
    exact Yields.to_bind (iha args r1 ha e' tail' r1' w₁) fun _ =>
      Yields.to_bind (iht args r1 h1 _ _ hx e' r1' rest' w₂) fun _ => rfl
  case callTailField =>
    intro callee t tail hl hd iht x rest h e' ts' rest' w
    simp only [callTail.eq_2, hd, if_true] at h
    obtain ⟨n, r1, h1, hn, h⟩ := Yields.of_bind h
    dsimp only at h
    obtain ⟨x', r2, h2, hx, h⟩ := Yields.of_bind h
    obtain ⟨rfl, rfl⟩ := Yields.of_pure h
    obtain ⟨t', tail', r1', rfl, ht, w₁, w₂⟩ := w.cons_split (expect_suffix hn) h2
    obtain ⟨n', hns, hn'⟩ := expect_window hn w₁
    simp only [callTail.eq_2, ← ht.1, hd, if_true]
    refine Yields.to_bind (hn' e' _) fun _ => ?_
    dsimp only
    rw [← hns.2.2]
    exact Yields.to_bind (iht n r1 h1 _ _ hx e' r1' rest' w₂) fun _ => rfl
  case callTailStop =>
    intro callee t tail hl hd x rest h e' ts' rest' w
    simp only [callTail.eq_2, hl, hd, if_false] at h
    obtain ⟨rfl, rfl⟩ := Yields.of_ok h
    obtain ⟨t', tail', rfl, ht⟩ := w.cons_head
    obtain rfl := w.eq_of_self
    simp only [callTail.eq_2, ← ht.1, hl, hd, if_false]
    rfl
  case callArgsSome =>
    intro ts close r ha xs rest h e' ts' rest' w
    simp only [callArgs.eq_1, ha] at h
    obtain ⟨rfl, rfl⟩ := Yields.of_ok h
    obtain ⟨_, r', -, w', _, ha'⟩ := accept_window ha w (Nat.le_refl _)
    obtain rfl := w'.eq_of_self
    simp only [callArgs.eq_1, ha']
    rfl
  case callArgsNone =>
    intro ts ha ih xs rest h e' ts' rest' w
    simp only [callArgs.eq_1, ha] at h
    simp only [callArgs.eq_1, accept_none_of_similar ha w.head]
    exact ih xs rest h e' ts' rest' w
  case argsFull =>
    intro acc ts hfull xs rest h
    rw [argsFrom.eq_1, if_pos hfull] at h
    exact (Yields.of_error h).elim
  case argsFrom =>
    intro acc ts hroom ihx ihs xs rest h e' ts' rest' w
    rw [argsFrom.eq_1, if_neg hroom] at h
    obtain ⟨x, r1, h1, hx, h⟩ := Yields.of_bind h
    dsimp only at h
    have hs1 := ((exprProvenance e).expression _ _ _ hx).1
    rw [argsFrom.eq_1, if_neg hroom]
    split at h
    · -- a comma: the window is cut after the argument and after the comma
      rename_i r2 h2 hc
      obtain ⟨xs', r3, h3, hxs, h⟩ := Yields.of_bind h
      dsimp only at h
      obtain ⟨rfl, rfl⟩ := Yields.of_pure h
      obtain ⟨r1', w₁, w₂⟩ := w.split hs1 (by omega)
      obtain ⟨_, r2', -, w₃, _, hc'⟩ := accept_window hc w₂ (Nat.le_of_lt h3)
      refine Yields.to_bind (ihx x r1 hx e' ts' r1' w₁) fun _ => ?_
      dsimp only
      rw [hc']
      exact Yields.to_bind (ihs x r1 h1 r2 h2 xs' r3 hxs e' r2' rest' w₃) fun _ => rfl
    · -- the last argument, then the closing parenthesis
      rename_i hc
      obtain ⟨_, r2, h2, hr, h⟩ := Yields.of_bind h
      obtain ⟨rfl, rfl⟩ := Yields.of_pure h
      obtain ⟨r1', w₁, w₂⟩ := w.split hs1 (Nat.le_of_lt h2)
      obtain ⟨_, -, hr'⟩ := expect_window hr w₂
      refine Yields.to_bind (ihx x r1 hx e' ts' r1' w₁) fun _ => ?_
      dsimp only
      rw [accept_none_of_similar hc w₂.head]
      exact Yields.to_bind (hr' e' _) fun _ => rfl

/-! ### Statements -/

section Statements

variable {e : Pos}

theorem exprUnless_window {k : Token.Kind} {ts : List Token} {ox : Option Expr}
    {rest : List Token} (h : Yields (exprUnless e k ts) ox rest) (e' : Pos) (ts' rest' : List Token)
    (w : Window ts rest ts' rest') : Yields (exprUnless e' k ts') ox rest' := by
  unfold exprUnless at h ⊢
  rw [startsWith_of_similar w.head]
  split at h
  · -- the next token is `k`, and nothing is read
    rename_i hk
    obtain ⟨rfl, rfl⟩ := Yields.of_ok h
    obtain rfl := w.eq_of_self
    rw [if_pos hk]
    rfl
  · rename_i hk
    obtain ⟨x, r1, _, hx, h⟩ := Yields.of_bind h
    obtain ⟨rfl, rfl⟩ := Yields.of_pure h
    rw [if_neg hk]
    exact Yields.to_bind ((exprLookahead e).expression ts x r1 hx e' ts' rest' w) fun _ => rfl

theorem exprStmt_window {ts : List Token} {s : Stmt} {rest : List Token}
    (h : Yields (exprStmt e ts) s rest) (e' : Pos) (ts' rest' : List Token)
    (w : Window ts rest ts' rest') : Yields (exprStmt e' ts') s rest' := by
  unfold exprStmt at h ⊢
  obtain ⟨x, r1, _, hx, h⟩ := Yields.of_bind h
  dsimp only at h
  obtain ⟨_, r2, h2, hr, h⟩ := Yields.of_bind h
  obtain ⟨rfl, rfl⟩ := Yields.of_pure h
  obtain ⟨r1', w₁, w₂⟩ := w.split ((exprProvenance e).expression _ _ _ hx).1 (Nat.le_of_lt h2)
  obtain ⟨_, -, hr'⟩ := expect_window hr w₂
  exact Yields.to_bind ((exprLookahead e).expression ts x r1 hx e' ts' r1' w₁) fun _ =>
    Yields.to_bind (hr' e' _) fun _ => rfl

theorem letRest_window {ts : List Token} {s : Stmt} {rest : List Token}
    (h : Yields (letRest e ts) s rest) (e' : Pos) (ts' rest' : List Token)
    (w : Window ts rest ts' rest') : Yields (letRest e' ts') s rest' := by
  unfold letRest at h ⊢
  obtain ⟨n, r1, _, hn, h⟩ := Yields.of_bind h
  obtain ⟨rfl, hk⟩ := expect_inv hn
  dsimp only at h
  split at h
  · -- an initializer after `=`
    rename_i r2 h2 ha
    obtain ⟨x, r3, h3, hx, h⟩ := Yields.of_bind h
    dsimp only at h
    obtain ⟨_, r4, h4, hr, h⟩ := Yields.of_bind h
    dsimp only at h
    obtain ⟨rfl, rfl⟩ := Yields.of_pure h
    obtain ⟨n', r1', rfl, hns, w⟩ := w.cons_inv (by omega)
    obtain ⟨_, r2', -, w₂, _, ha'⟩ := accept_window ha w (Nat.le_of_lt (Nat.lt_trans h4 h3))
    obtain ⟨r3', w₃, w₄⟩ := w₂.split ((exprProvenance e).expression _ _ _ hx).1 (Nat.le_of_lt h4)
    obtain ⟨_, -, hr'⟩ := expect_window hr w₄
    refine Yields.to_bind (Yields.expect_similar _ hns hk) fun _ => ?_
    dsimp only
    rw [← hns.2.2, ha']
    exact Yields.to_bind ((exprLookahead e).expression _ x r3 hx e' r2' r3' w₃) fun _ =>
      Yields.to_bind (hr' e' _) fun _ => rfl
  · rename_i ha
    obtain ⟨_, r2, h2, hr, h⟩ := Yields.of_bind h
    obtain ⟨rfl, rfl⟩ := Yields.of_pure h
    obtain ⟨n', r1', rfl, hns, w⟩ := w.cons_inv (Nat.le_of_lt h2)
    obtain ⟨_, -, hr'⟩ := expect_window hr w
    refine Yields.to_bind (Yields.expect_similar _ hns hk) fun _ => ?_
    dsimp only
    rw [← hns.2.2, accept_none_of_similar ha w.head]
    exact Yields.to_bind (hr' e' _) fun _ => rfl

theorem returnRest_window {ts : List Token} {s : Stmt} {rest : List Token}
    (h : Yields (returnRest e ts) s rest) (e' : Pos) (ts' rest' : List Token)
    (w : Window ts rest ts' rest') : Yields (returnRest e' ts') s rest' := by
  unfold returnRest at h ⊢
  obtain ⟨v, r1, _, hv, h⟩ := Yields.of_bind h
  dsimp only at h
  obtain ⟨_, r2, h2, hr, h⟩ := Yields.of_bind h
  obtain ⟨rfl, rfl⟩ := Yields.of_pure h
  obtain ⟨r1', w₁, w₂⟩ := w.split (exprUnless_literals hv).1 (Nat.le_of_lt h2)
  obtain ⟨_, -, hr'⟩ := expect_window hr w₂
  exact Yields.to_bind (exprUnless_window hv e' ts' r1' w₁) fun _ =>
    Yields.to_bind (hr' e' _) fun _ => rfl

theorem printArgs_window :
    ∀ {acc : Array Expr} {ts : List Token} {xs : List Expr} {rest : List Token},
      Yields (printArgs e acc ts) xs rest → ∀ e' ts' rest', Window ts rest ts' rest' →
        Yields (printArgs e' acc ts') xs rest' := by
  intro acc ts
  induction acc, ts using printArgs.induct with
  | case1 acc =>
    intro xs rest h e' ts' rest' w
    rw [printArgs.eq_1] at h
    obtain ⟨rfl, rfl⟩ := Yields.of_ok h
    obtain ⟨rfl, rfl⟩ := w.nil_inv
    rw [printArgs.eq_1]
    rfl
  | case2 acc t tail hc ih =>
    intro xs rest h e' ts' rest' w
    simp only [printArgs.eq_2, hc, if_true] at h
    obtain ⟨x, r1, h1, hx, h⟩ := Yields.of_bind h
    dsimp only at h
    obtain ⟨xs', r2, h2, hxs, h⟩ := Yields.of_bind h
    obtain ⟨rfl, rfl⟩ := Yields.of_pure h
    obtain ⟨t', tail', r1', rfl, ht, w₁, w₂⟩ :=
      w.cons_split ((exprProvenance e).expression _ _ _ hx).1 h2
    simp only [printArgs.eq_2, ← ht.1, hc, if_true]
    exact Yields.to_bind ((exprLookahead e).expression tail x r1 hx e' tail' r1' w₁) fun _ =>
      Yields.to_bind (ih x r1 h1 hxs e' r1' rest' w₂) fun _ => rfl
  | case3 acc t tail hc =>
    intro xs rest h e' ts' rest' w
    simp only [printArgs.eq_2, hc, if_false] at h
    obtain ⟨rfl, rfl⟩ := Yields.of_ok h
    obtain ⟨t', tail', rfl, ht⟩ := w.cons_head
    obtain rfl := w.eq_of_self
    simp only [printArgs.eq_2, ← ht.1, hc, if_false]
    rfl

theorem printRest_window {ts : List Token} {s : Stmt} {rest : List Token}
    (h : Yields (printRest e ts) s rest) (e' : Pos) (ts' rest' : List Token)
    (w : Window ts rest ts' rest') : Yields (printRest e' ts') s rest' := by
  unfold printRest at h ⊢
  obtain ⟨_, r1, _, hl, h⟩ := Yields.of_bind h
  dsimp only at h
  obtain ⟨first, r2, h2, hf, h⟩ := Yields.of_bind h
  dsimp only at h
  obtain ⟨args, r3, h3, ha, h⟩ := Yields.of_bind h
  dsimp only at h
  obtain ⟨_, r4, h4, hr, h⟩ := Yields.of_bind h
  dsimp only at h
  obtain ⟨_, r5, h5, hsc, h⟩ := Yields.of_bind h
  dsimp only at h
  obtain ⟨rfl, rfl⟩ := Yields.of_pure h
  -- the window is cut after each part, at the rests the parts left
  obtain ⟨r1', w₁, w⟩ := w.split (expect_suffix hl) (by omega)
  obtain ⟨r2', w₂, w⟩ := w.split ((exprProvenance e).expression _ _ _ hf).1 (by omega)
  obtain ⟨r3', w₃, w⟩ := w.split (printArgs_literals ha).1 (by omega)
  obtain ⟨r4', w₄, w₅⟩ := w.split (expect_suffix hr) (Nat.le_of_lt h5)
  obtain ⟨_, -, hl'⟩ := expect_window hl w₁
  obtain ⟨_, -, hr'⟩ := expect_window hr w₄
  obtain ⟨_, -, hsc'⟩ := expect_window hsc w₅
  exact Yields.to_bind (hl' e' _) fun _ =>
    Yields.to_bind ((exprLookahead e).expression r1 first r2 hf e' r1' r2' w₂) fun _ =>
    Yields.to_bind (printArgs_window ha e' r2' r3' w₃) fun _ => Yields.to_bind (hr' e' _) fun _ =>
    Yields.to_bind (hsc' e' _) fun _ => rfl

theorem forInit_window {ts : List Token} {o : Option Stmt} {rest : List Token}
    (h : Yields (forInit e ts) o rest) (e' : Pos) (ts' rest' : List Token)
    (w : Window ts rest ts' rest') : Yields (forInit e' ts') o rest' := by
  cases ts with
  | nil =>
    obtain ⟨s, hs, rfl⟩ := Yields.of_map h
    exact absurd rfl hs.ne_nil
  | cons t tail =>
    simp only [forInit] at h
    split at h
    · -- an empty initializer
      rename_i hk
      obtain ⟨rfl, rfl⟩ := Yields.of_ok h
      obtain ⟨t', tail', rfl, ht, w⟩ := w.cons_inv (Nat.le_refl _)
      obtain rfl := w.eq_of_self
      simp only [forInit, ← ht.1]
      rw [if_pos hk]
      rfl
    · rename_i hk
      split at h
      · rename_i hl
        have hs := Yields.of_cons h
        obtain ⟨s, hs', rfl⟩ := Yields.of_map hs
        obtain ⟨t', tail', rfl, ht, w⟩ := w.cons_inv (Nat.le_of_lt (Yields.eq hs').1)
        simp only [forInit, ← ht.1]
        rw [if_neg hk, if_pos hl]
        exact Yields.cons (Yields.map_fst _ (letRest_window hs' e' tail' rest' w))
      · rename_i hl
        obtain ⟨s, hs', rfl⟩ := Yields.of_map h
        obtain ⟨t', tail', rfl, ht⟩ := w.cons_head
        simp only [forInit, ← ht.1]
        rw [if_neg hk, if_neg hl]
        exact Yields.map_fst _ (exprStmt_window hs' e' _ rest' w)

theorem paramsFrom_window {name : Scalar} :
    ∀ {acc : Array Scalar} {ts : List Token} {ps : List Scalar} {rest : List Token},
      Yields (paramsFrom e name acc ts) ps rest → ∀ e' ts' rest', Window ts rest ts' rest' →
        Yields (paramsFrom e' name acc ts') ps rest' := by
  intro acc ts
  induction acc, ts using paramsFrom.induct with
  | case1 acc ts hfull =>
    intro ps rest h
    rw [paramsFrom.eq_1, if_pos hfull] at h
    exact (Yields.of_error h).elim
  | case2 acc ts hroom ih =>
    intro ps rest h e' ts' rest' w
    rw [paramsFrom.eq_1, if_neg hroom] at h
    obtain ⟨p, r1, h1, hp, h⟩ := Yields.of_bind h
    dsimp only at h
    obtain ⟨rfl, hk⟩ := expect_inv hp
    rw [paramsFrom.eq_1, if_neg hroom]
    split at h
    · -- a comma: the parameters go on after it
      rename_i r2 h2 hc
      obtain ⟨ps', r3, h3, hps', h⟩ := Yields.of_bind h
      dsimp only at h
      obtain ⟨rfl, rfl⟩ := Yields.of_pure h
      obtain ⟨p', r1', rfl, hps, w⟩ := w.cons_inv (by omega)
      obtain ⟨_, r2', -, w₂, _, hc'⟩ := accept_window hc w (Nat.le_of_lt h3)
      refine Yields.to_bind (Yields.expect_similar _ hps hk) fun _ => ?_
      dsimp only
      rw [← hps.2.2, hc']
      exact Yields.to_bind (ih p r1 h1 r2 h2 hps' e' r2' rest' w₂) fun _ => rfl
    · rename_i hc
      obtain ⟨_, r2, h2, hr, h⟩ := Yields.of_bind h
      obtain ⟨rfl, rfl⟩ := Yields.of_pure h
      obtain ⟨p', r1', rfl, hps, w⟩ := w.cons_inv (Nat.le_of_lt h2)
      obtain ⟨_, -, hr'⟩ := expect_window hr w
      refine Yields.to_bind (Yields.expect_similar _ hps hk) fun _ => ?_
      dsimp only
      rw [← hps.2.2, accept_none_of_similar hc w.head]
      exact Yields.to_bind (hr' e' _) fun _ => rfl

theorem paramList_window {name : Scalar} {ts : List Token} {ps : List Scalar} {rest : List Token}
    (h : Yields (paramList e name ts) ps rest) (e' : Pos) (ts' rest' : List Token)
    (w : Window ts rest ts' rest') : Yields (paramList e' name ts') ps rest' := by
  unfold paramList at h ⊢
  split at h
  · rename_i close r ha
    obtain ⟨rfl, rfl⟩ := Yields.of_ok h
    obtain ⟨_, r', -, w', _, ha'⟩ := accept_window ha w (Nat.le_refl _)
    obtain rfl := w'.eq_of_self
    rw [ha']
    rfl
  · rename_i ha
    rw [accept_none_of_similar ha w.head]
    exact paramsFrom_window h e' ts' rest' w

/-- Every statement reader reads the same from tokens that agree with those it took and
with the next one. -/
structure StmtLookahead (e : Pos) : Prop where
  functionRest : ∀ ts f rest, Yields (functionRest e ts) f rest → ∀ e' ts' rest',
    Window ts rest ts' rest' → Yields (functionRest e' ts') f rest'
  blockRest : ∀ acc ts ss rest, Yields (blockRest e acc ts) ss rest → ∀ e' ts' rest',
    Window ts rest ts' rest' → Yields (blockRest e' acc ts') ss rest'
  declaration : ∀ ts s rest, Yields (declaration e ts) s rest → ∀ e' ts' rest',
    Window ts rest ts' rest' → Yields (declaration e' ts') s rest'
  classRest : ∀ ts s rest, Yields (classRest e ts) s rest → ∀ e' ts' rest',
    Window ts rest ts' rest' → Yields (classRest e' ts') s rest'
  methods : ∀ name acc ts fs rest, Yields (methods e name acc ts) fs rest → ∀ e' ts' rest',
    Window ts rest ts' rest' → Yields (methods e' name acc ts') fs rest'
  statement : ∀ ts s rest, Yields (statement e ts) s rest → ∀ e' ts' rest',
    Window ts rest ts' rest' → Yields (statement e' ts') s rest'
  whileRest : ∀ ts s rest, Yields (whileRest e ts) s rest → ∀ e' ts' rest',
    Window ts rest ts' rest' → Yields (whileRest e' ts') s rest'
  ifRest : ∀ ts s rest, Yields (ifRest e ts) s rest → ∀ e' ts' rest',
    Window ts rest ts' rest' → Yields (ifRest e' ts') s rest'
  forRest : ∀ ts s rest, Yields (forRest e ts) s rest → ∀ e' ts' rest',
    Window ts rest ts' rest' → Yields (forRest e' ts') s rest'

/-- As for expressions, the induction follows the readers' recursion and cuts the window
after each part of a read. A conditional looks for `else` after its first branch; the token
it looks at is the first one of the rest, which the window holds. -/
theorem stmtLookahead (e : Pos) : StmtLookahead e := by
  refine (functionRest.mutual_induct
    (fun ts => ∀ f rest, Yields (functionRest e ts) f rest → ∀ e' ts' rest',
      Window ts rest ts' rest' → Yields (functionRest e' ts') f rest')
    (fun acc ts => ∀ ss rest, Yields (blockRest e acc ts) ss rest → ∀ e' ts' rest',
      Window ts rest ts' rest' → Yields (blockRest e' acc ts') ss rest')
    (fun ts => ∀ s rest, Yields (declaration e ts) s rest → ∀ e' ts' rest',
      Window ts rest ts' rest' → Yields (declaration e' ts') s rest')
    (fun ts => ∀ s rest, Yields (classRest e ts) s rest → ∀ e' ts' rest',
      Window ts rest ts' rest' → Yields (classRest e' ts') s rest')
    (fun name acc ts => ∀ fs rest, Yields (methods e name acc ts) fs rest → ∀ e' ts' rest',
      Window ts rest ts' rest' → Yields (methods e' name acc ts') fs rest')
    (fun ts => ∀ s rest, Yields (statement e ts) s rest → ∀ e' ts' rest',
      Window ts rest ts' rest' → Yields (statement e' ts') s rest')
    (fun ts => ∀ s rest, Yields (whileRest e ts) s rest → ∀ e' ts' rest',
      Window ts rest ts' rest' → Yields (whileRest e' ts') s rest')
    (fun ts => ∀ s rest, Yields (ifRest e ts) s rest → ∀ e' ts' rest',
      Window ts rest ts' rest' → Yields (ifRest e' ts') s rest')
    (fun ts => ∀ s rest, Yields (forRest e ts) s rest → ∀ e' ts' rest',
      Window ts rest ts' rest' → Yields (forRest e' ts') s rest')
    ?functionRest ?blockNil ?blockClose ?blockDecl
    ?declNil ?declLet ?declFn ?declClass ?declOther
    ?classRest ?methodsNil ?methodsClose ?methodsFunc
    ?stmtNil ?stmtFor ?stmtIf ?stmtReturn ?stmtPrint ?stmtWhile ?stmtBlock ?stmtOther
    ?whileRest ?ifRest ?forRest).elim
    fun h1 h => h.elim fun h2 h => h.elim fun h3 h => h.elim fun h4 h => h.elim fun h5 h =>
      h.elim fun h6 h => h.elim fun h7 h => h.elim fun h8 h9 => ⟨h1, h2, h3, h4, h5, h6, h7, h8, h9⟩
  case functionRest =>
    intro ts ih f rest h e' ts' rest' w
    rw [functionRest.eq_1] at h
    obtain ⟨n, r1, h1, hn, h⟩ := Yields.of_bind h
    dsimp only at h
    obtain ⟨_, r2, h2, hl, h⟩ := Yields.of_bind h
    dsimp only at h
    obtain ⟨ps, r3, h3, hps, h⟩ := Yields.of_bind h
    dsimp only at h
    obtain ⟨_, r4, h4, hb, h⟩ := Yields.of_bind h
    dsimp only at h
    obtain ⟨body, r5, h5, hbody, h⟩ := Yields.of_bind h
    dsimp only at h
    obtain ⟨rfl, rfl⟩ := Yields.of_pure h
    obtain ⟨r1', w₁, w⟩ := w.split (expect_suffix hn) (by omega)
    obtain ⟨r2', w₂, w⟩ := w.split (expect_suffix hl) (by omega)
    obtain ⟨r3', w₃, w⟩ := w.split (paramList_literals hps []).1 (by omega)
    obtain ⟨r4', w₄, w₅⟩ := w.split (expect_suffix hb) (Nat.le_of_lt h5)
    obtain ⟨n', hns, hn'⟩ := expect_window hn w₁
    obtain ⟨_, -, hl'⟩ := expect_window hl w₂
    obtain ⟨_, -, hb'⟩ := expect_window hb w₄
    rw [functionRest.eq_1]
    refine Yields.to_bind (hn' e' _) fun _ => ?_
    dsimp only
    rw [← hns.2.2]
    exact Yields.to_bind (hl' e' _) fun _ => Yields.to_bind (paramList_window hps e' r2' r3' w₃) fun _ =>
      Yields.to_bind (hb' e' _) fun _ =>
      Yields.to_bind (ih r1 h1 r2 h2 r3 h3 r4 h4 body r5 hbody e' r4' rest' w₅) fun _ => rfl
  case blockNil =>
    intro acc ss rest h
    rw [blockRest.eq_1] at h
    exact (Yields.of_error h).elim
  case blockClose =>
    intro acc t tail hk ss rest h e' ts' rest' w
    simp only [blockRest.eq_2, hk, if_true] at h
    obtain ⟨rfl, rfl⟩ := Yields.of_ok h
    obtain ⟨t', tail', rfl, ht, w⟩ := w.cons_inv (Nat.le_refl _)
    obtain rfl := w.eq_of_self
    simp only [blockRest.eq_2, ← ht.1, hk, if_true]
    rfl
  case blockDecl =>
    intro acc t tail hk ihs ihb ss rest h e' ts' rest' w
    simp only [blockRest.eq_2, hk, if_false] at h
    obtain ⟨s, r1, h1, hd, h⟩ := Yields.of_bind h
    dsimp only at h
    obtain ⟨ss', r2, h2, hss, h⟩ := Yields.of_bind h
    obtain ⟨rfl, rfl⟩ := Yields.of_pure h
    obtain ⟨r1', w₁, w₂⟩ := w.split ((stmtProvenance e).declaration _ _ _ hd).1 (Nat.le_of_lt h2)
    obtain ⟨t', tail', rfl, ht⟩ := w₁.cons_head
    simp only [blockRest.eq_2, ← ht.1, hk, if_false]
    exact Yields.to_bind (ihs s r1 hd e' _ r1' w₁) fun _ =>
      Yields.to_bind (ihb s r1 h1 ss' r2 hss e' r1' rest' w₂) fun _ => rfl
  case declNil =>
    intro _ s rest h
    rw [declaration.eq_1, statement.eq_1] at h
    exact absurd rfl h.ne_nil
  case declLet =>
    intro t tail hk s rest h e' ts' rest' w
    simp only [declaration.eq_2, hk] at h
    have h' := Yields.of_cons h
    obtain ⟨t', tail', rfl, ht, w⟩ := w.cons_inv (Nat.le_of_lt h'.eq.1)
    simp only [declaration.eq_2, ← ht.1, hk]
    exact Yields.cons (letRest_window h' e' tail' rest' w)
  case declFn =>
    intro t tail hk ih s rest h e' ts' rest' w
    simp only [declaration.eq_2, hk] at h
    obtain ⟨f, hf, rfl⟩ := Yields.of_map (Yields.of_cons h)
    obtain ⟨t', tail', rfl, ht, w⟩ := w.cons_inv (Nat.le_of_lt hf.eq.1)
    simp only [declaration.eq_2, ← ht.1, hk]
    exact Yields.cons (Yields.map_fst _ (ih f rest hf e' tail' rest' w))
  case declClass =>
    intro t tail hk ih s rest h e' ts' rest' w
    simp only [declaration.eq_2, hk] at h
    have h' := Yields.of_cons h
    obtain ⟨t', tail', rfl, ht, w⟩ := w.cons_inv (Nat.le_of_lt h'.eq.1)
    simp only [declaration.eq_2, ← ht.1, hk]
    exact Yields.cons (ih s rest h' e' tail' rest' w)
  case declOther =>
    intro t tail h1 h2 h3 ih s rest h e' ts' rest' w
    obtain ⟨t', tail', rfl, ht⟩ := w.cons_head
    rw [declaration.eq_2] at h
    rw [declaration.eq_2, ← ht.1]
    -- the kind is none of the declaration keywords, and both reads branch on it
    split at h <;> try contradiction
    exact ih s rest h e' _ rest' w
  case classRest =>
    intro ts ih s rest h e' ts' rest' w
    rw [classRest.eq_1] at h
    obtain ⟨n, r1, h1, hn, h⟩ := Yields.of_bind h
    dsimp only at h
    obtain ⟨_, r2, h2, hb, h⟩ := Yields.of_bind h
    dsimp only at h
    obtain ⟨ms, r3, h3, hms, h⟩ := Yields.of_bind h
    dsimp only at h
    obtain ⟨rfl, rfl⟩ := Yields.of_pure h
    obtain ⟨r1', w₁, w⟩ := w.split (expect_suffix hn) (by omega)
    obtain ⟨r2', w₂, w₃⟩ := w.split (expect_suffix hb) (Nat.le_of_lt h3)
    obtain ⟨n', hns, hn'⟩ := expect_window hn w₁
    obtain ⟨_, -, hb'⟩ := expect_window hb w₂
    rw [classRest.eq_1]
    refine Yields.to_bind (hn' e' _) fun _ => ?_
    dsimp only
    rw [← hns.2.2]
    exact Yields.to_bind (hb' e' _) fun _ =>
      Yields.to_bind (ih n r1 h1 r2 h2 ms r3 hms e' r2' rest' w₃) fun _ => rfl
  case methodsNil =>
    intro name acc fs rest h
    rw [methods.eq_1] at h
    exact (Yields.of_error h).elim
  case methodsClose =>
    intro name acc t tail hk fs rest h e' ts' rest' w
    simp only [methods.eq_2, hk, if_true] at h
    obtain ⟨rfl, rfl⟩ := Yields.of_ok h
    obtain ⟨t', tail', rfl, ht, w⟩ := w.cons_inv (Nat.le_refl _)
    obtain rfl := w.eq_of_self
    simp only [methods.eq_2, ← ht.1, hk, if_true]
    rfl
  case methodsFunc =>
    intro name acc t tail hk ihf ihm fs rest h e' ts' rest' w
    simp only [methods.eq_2, hk, if_false] at h
    obtain ⟨f, r1, h1, hf, h⟩ := Yields.of_bind h
    dsimp only at h
    obtain ⟨fs', r2, h2, hfs, h⟩ := Yields.of_bind h
    obtain ⟨rfl, rfl⟩ := Yields.of_pure h
    obtain ⟨r1', w₁, w₂⟩ := w.split ((stmtProvenance e).functionRest _ _ _ hf).1 (Nat.le_of_lt h2)
    obtain ⟨t', tail', rfl, ht⟩ := w₁.cons_head
    simp only [methods.eq_2, ← ht.1, hk, if_false]
    exact Yields.to_bind (ihf f r1 hf e' _ r1' w₁) fun _ =>
      Yields.to_bind (ihm f r1 h1 fs' r2 hfs e' r1' rest' w₂) fun _ => rfl
  case stmtNil =>
    intro s rest h
    rw [statement.eq_1] at h
    exact absurd rfl h.ne_nil
  case stmtFor | stmtIf | stmtWhile =>
    intro t tail hk ih s rest h e' ts' rest' w
    simp only [statement.eq_2, hk] at h
    have h' := Yields.of_cons h
    obtain ⟨t', tail', rfl, ht, w⟩ := w.cons_inv (Nat.le_of_lt h'.eq.1)
    simp only [statement.eq_2, ← ht.1, hk]
    exact Yields.cons (ih s rest h' e' tail' rest' w)
  case stmtReturn =>
    intro t tail hk s rest h e' ts' rest' w
    simp only [statement.eq_2, hk] at h
    have h' := Yields.of_cons h
    obtain ⟨t', tail', rfl, ht, w⟩ := w.cons_inv (Nat.le_of_lt h'.eq.1)
    simp only [statement.eq_2, ← ht.1, hk]
    exact Yields.cons (returnRest_window h' e' tail' rest' w)
  case stmtPrint =>
    intro t tail hk s rest h e' ts' rest' w
    simp only [statement.eq_2, hk] at h
    have h' := Yields.of_cons h
    obtain ⟨t', tail', rfl, ht, w⟩ := w.cons_inv (Nat.le_of_lt h'.eq.1)
    simp only [statement.eq_2, ← ht.1, hk]
    exact Yields.cons (printRest_window h' e' tail' rest' w)
  case stmtBlock =>
    intro t tail hk ih s rest h e' ts' rest' w
    simp only [statement.eq_2, hk] at h
    obtain ⟨ss, hss, rfl⟩ := Yields.of_map (Yields.of_cons h)
    obtain ⟨t', tail', rfl, ht, w⟩ := w.cons_inv (Nat.le_of_lt hss.eq.1)
    simp only [statement.eq_2, ← ht.1, hk]
    exact Yields.cons (Yields.map_fst _ (ih ss rest hss e' tail' rest' w))
  case stmtOther =>
    intro t tail h1 h2 h3 h4 h5 h6 s rest h e' ts' rest' w
    obtain ⟨t', tail', rfl, ht⟩ := w.cons_head
    rw [statement.eq_2] at h
    rw [statement.eq_2, ← ht.1]
    -- the kind starts none of the keyword statements, and both reads branch on it
    split at h <;> try contradiction
    exact exprStmt_window h e' (_ :: _) rest' w
  case whileRest =>
    intro ts ih s rest h e' ts' rest' w
    rw [whileRest.eq_1] at h
    obtain ⟨_, r1, h1, hl, h⟩ := Yields.of_bind h
    dsimp only at h
    obtain ⟨test, r2, h2, htest, h⟩ := Yields.of_bind h
    dsimp only at h
    obtain ⟨_, r3, h3, hr, h⟩ := Yields.of_bind h
    dsimp only at h
    obtain ⟨body, r4, h4, hbody, h⟩ := Yields.of_bind h
    dsimp only at h
    obtain ⟨rfl, rfl⟩ := Yields.of_pure h
    obtain ⟨r1', w₁, w⟩ := w.split (expect_suffix hl) (by omega)
    obtain ⟨r2', w₂, w⟩ := w.split ((exprProvenance e).expression _ _ _ htest).1 (by omega)
    obtain ⟨r3', w₃, w₄⟩ := w.split (expect_suffix hr) (Nat.le_of_lt h4)
    obtain ⟨_, -, hl'⟩ := expect_window hl w₁
    obtain ⟨_, -, hr'⟩ := expect_window hr w₃
    rw [whileRest.eq_1]
    exact Yields.to_bind (hl' e' _) fun _ =>
      Yields.to_bind ((exprLookahead e).expression r1 test r2 htest e' r1' r2' w₂) fun _ =>
      Yields.to_bind (hr' e' _) fun _ =>
      Yields.to_bind (ih r1 h1 r2 h2 r3 h3 body r4 hbody e' r3' rest' w₄) fun _ => rfl
  case ifRest =>
    intro ts ihy ihn s rest h e' ts' rest' w
    rw [ifRest.eq_1] at h
    obtain ⟨_, r1, h1, hl, h⟩ := Yields.of_bind h
    dsimp only at h
    obtain ⟨test, r2, h2, htest, h⟩ := Yields.of_bind h
    dsimp only at h
    obtain ⟨_, r3, h3, hr, h⟩ := Yields.of_bind h
    dsimp only at h
    obtain ⟨yes, r4, h4, hyes, h⟩ := Yields.of_bind h
    dsimp only at h
    -- the window goes past the first branch: to `else` and the second branch, or to the
    -- token that is not `else`
    have hle : rest.length ≤ r4.length := by
      split at h
      · rename_i r5 h5 _
        obtain ⟨no, r6, h6, -, h⟩ := Yields.of_bind h
        dsimp only at h
        obtain ⟨-, rfl⟩ := Yields.of_pure h
        omega
      · obtain ⟨-, rfl⟩ := Yields.of_pure h
        exact Nat.le_refl _
    obtain ⟨r1', w₁, w⟩ := w.split (expect_suffix hl) (by omega)
    obtain ⟨r2', w₂, w⟩ := w.split ((exprProvenance e).expression _ _ _ htest).1 (by omega)
    obtain ⟨r3', w₃, w⟩ := w.split (expect_suffix hr) (by omega)
    obtain ⟨r4', w₄, w⟩ := w.split ((stmtProvenance e).statement _ _ _ hyes).1 hle
    obtain ⟨_, -, hl'⟩ := expect_window hl w₁
    obtain ⟨_, -, hr'⟩ := expect_window hr w₃
    rw [ifRest.eq_1]
    refine Yields.to_bind (hl' e' _) fun _ =>
      Yields.to_bind ((exprLookahead e).expression r1 test r2 htest e' r1' r2' w₂) fun _ =>
      Yields.to_bind (hr' e' _) fun _ =>
      Yields.to_bind (ihy r1 h1 r2 h2 r3 h3 yes r4 hyes e' r3' r4' w₄) fun _ => ?_
    dsimp only
    split at h
    · -- an `else` follows
      rename_i r5 h5 ha
      obtain ⟨no, r6, h6, hno, h⟩ := Yields.of_bind h
      dsimp only at h
      obtain ⟨rfl, rfl⟩ := Yields.of_pure h
      obtain ⟨_, r5', -, w₅, _, ha'⟩ := accept_window ha w (Nat.le_of_lt h6)
      rw [ha']
      exact Yields.to_bind (ihn r1 h1 r2 h2 r3 h3 r4 h4 r5 h5 no r6 hno e' r5' rest' w₅) fun _ => rfl
    · -- no `else`: the window ends at the token that is not one
      rename_i ha
      obtain ⟨rfl, rfl⟩ := Yields.of_pure h
      obtain rfl := w.eq_of_self
      rw [accept_none_of_similar ha w.head]
      rfl
  case forRest =>
    intro ts ih s rest h e' ts' rest' w
    rw [forRest.eq_1] at h
    obtain ⟨_, r1, h1, hl, h⟩ := Yields.of_bind h
    dsimp only at h
    obtain ⟨init, r2, h2, hinit, h⟩ := Yields.of_bind h
    dsimp only at h
    obtain ⟨test, r3, h3, htest, h⟩ := Yields.of_bind h
    dsimp only at h
    obtain ⟨_, r4, h4, hsc, h⟩ := Yields.of_bind h
    dsimp only at h
    obtain ⟨update, r5, h5, hupdate, h⟩ := Yields.of_bind h
    dsimp only at h
    obtain ⟨_, r6, h6, hr, h⟩ := Yields.of_bind h
    dsimp only at h
    obtain ⟨body, r7, h7, hbody, h⟩ := Yields.of_bind h
    dsimp only at h
    obtain ⟨rfl, rfl⟩ := Yields.of_pure h
    obtain ⟨r1', w₁, w⟩ := w.split (expect_suffix hl) (by omega)
    obtain ⟨r2', w₂, w⟩ := w.split (forInit_literals hinit).1 (by omega)
    obtain ⟨r3', w₃, w⟩ := w.split (exprUnless_literals htest).1 (by omega)
    obtain ⟨r4', w₄, w⟩ := w.split (expect_suffix hsc) (by omega)
    obtain ⟨r5', w₅, w⟩ := w.split (exprUnless_literals hupdate).1 (by omega)
    obtain ⟨r6', w₆, w₇⟩ := w.split (expect_suffix hr) (Nat.le_of_lt h7)
    obtain ⟨_, -, hl'⟩ := expect_window hl w₁
    obtain ⟨_, -, hsc'⟩ := expect_window hsc w₄
    obtain ⟨_, -, hr'⟩ := expect_window hr w₆
    rw [forRest.eq_1]
    exact Yields.to_bind (hl' e' _) fun _ =>
      Yields.to_bind (forInit_window hinit e' r1' r2' w₂) fun _ =>
      Yields.to_bind (exprUnless_window htest e' r2' r3' w₃) fun _ =>
      Yields.to_bind (hsc' e' _) fun _ =>
      Yields.to_bind (exprUnless_window hupdate e' r4' r5' w₅) fun _ =>
      Yields.to_bind (hr' e' _) fun _ =>
      Yields.to_bind (ih r1 h1 r2 h2 r3 h3 r4 h4 r5 h5 r6 h6 body r7 hbody e' r6' rest' w₇) fun _ =>
      rfl

/-- A declaration is read the same from tokens that agree with those it took and with the
next one. -/
theorem declaration_window {ts : List Token} {s : Stmt} {rest : List Token}
    (h : Yields (declaration e ts) s rest) (e' : Pos) (ts' rest' : List Token)
    (w : Window ts rest ts' rest') : Yields (declaration e' ts') s rest' :=
  (stmtLookahead e).declaration ts s rest h e' ts' rest' w

end Statements

end Syntax

end Ember
