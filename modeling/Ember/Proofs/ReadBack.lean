import Ember.Proofs.WellFormed
/-!
Reading written expressions back.

The tokens of a well-formed expression, followed by tokens that cannot continue it, are read
back as the same expression and leave exactly those tokens (`reads_back`). The reader is
taken level by level:

* `primary` reads a literal, a name, `this` or a group;
* `prefixExpr` reads prefix operators, then a primary expression and the calls and field
  reads after it (`callTail`), which group to the left;
* `infixExpr` reads the operators of one level and their right operands, grouping to the
  left (`infixTail`);
* `expression` reads an assignment, whose target is read first as an expression and turned
  into a name or a field write when `=` follows it.

A chain that groups to the left is read from its first operand outwards, so it is taken
apart along its spine: `Expr.callBase`/`Expr.callSuffix` for calls and field reads, and
`Expr.infixBase`/`Expr.infixSuffix` for one infix level. The proof is a strong induction on
the number of tokens; for one expression the levels are taken from the tightest to the
loosest, each read through the next tighter one.
-/

namespace Ember

namespace Token

@[simp] theorem kind_ofKind (k : Kind) : (ofKind k).kind = k := rfl

@[simp] theorem kind_ofName (x : Scalar) : (ofName x).kind = .ident := rfl

@[simp] theorem payload_ofName (x : Scalar) : (ofName x).payload = x := rfl

end Token

/-! ### Operators and their tokens -/

theorem Level.infix?_binKind (L : Level) (o : BinOp) :
    L.infix? o.kind = if o.level = L then some (.binary o) else none := by
  cases L <;> cases o <;> rfl

theorem Level.infix?_logicKind (L : Level) (o : LogicOp) :
    L.infix? o.kind = if o.level = L then some (.logical o) else none := by
  cases L <;> cases o <;> rfl

@[simp] theorem UnaryOp.ofKind?_kind (o : UnaryOp) : UnaryOp.ofKind? o.kind = some o := by
  cases o <;> rfl

@[simp] theorem lexeme_binKind (o : BinOp) :
    (Token.ofKind o.kind).lexeme = .text o.symbol := by
  cases o <;> rfl

@[simp] theorem lexeme_logicKind (o : LogicOp) :
    (Token.ofKind o.kind).lexeme = .text o.symbol := by
  cases o <;> rfl

@[simp] theorem lexeme_unaryKind (o : UnaryOp) :
    (Token.ofKind o.kind).lexeme = .text o.symbol := by
  cases o <;> rfl

theorem Level.rank_injective {L L' : Level} (h : L.rank = L'.rank) : L = L' := by
  cases L <;> cases L' <;> simp_all [Level.rank]

theorem Level.rank_pos (L : Level) : 0 < L.rank := by
  cases L <;> decide

theorem Level.rank_le (L : Level) : L.rank ≤ 5 := by
  cases L <;> decide

/-! ### Spines of chains that group to the left -/

namespace Expr

/-- The primary expression that a chain of calls and field reads starts from. -/
def callBase : Expr → Expr
  | .call c _ => c.callBase
  | .getField t _ => t.callBase
  | x => x

/-- The tokens of the calls and field reads of a chain, after those of its `callBase`. -/
def callSuffix : Expr → List Token
  | .call c args =>
    c.callSuffix ++ Token.ofKind .lparen :: Expr.listTokens args ++ [Token.ofKind .rparen]
  | .getField t x => t.callSuffix ++ [Token.ofKind .dot, Token.ofName x]
  | _ => []

/-- The first operand of a chain of infix operators of level `L`. -/
def infixBase (L : Level) : Expr → Expr
  | .logical op lx l r => if op.level = L then l.infixBase L else .logical op lx l r
  | .binary op lx l r => if op.level = L then l.infixBase L else .binary op lx l r
  | x => x

/-- The operators of level `L` of a chain and their right operands, after its `infixBase`. -/
def infixSuffix (L : Level) : Expr → List Token
  | .logical op _ l r =>
    if op.level = L then l.infixSuffix L ++ Token.ofKind op.kind :: r.tokens else []
  | .binary op _ l r =>
    if op.level = L then l.infixSuffix L ++ Token.ofKind op.kind :: r.tokens else []
  | _ => []

/-- The token an expression is written from. -/
def firstToken : Expr → Token
  | .literal s => Token.ofScalar s
  | .var x | .assign x _ => Token.ofName x
  | .setField t _ _ | .getField t _ | .call t _ => t.firstToken
  | .logical _ _ l _ | .binary _ _ l _ => l.firstToken
  | .unary op _ _ => Token.ofKind op.kind
  | .group _ => Token.ofKind .lparen
  | .thisRef => Token.ofKind .kwThis

theorem tokens_callBase : ∀ x : Expr, x.tokens = x.callBase.tokens ++ x.callSuffix
  | .call c args => by
    rw [callBase, callSuffix, Expr.tokens, tokens_callBase c]
    simp
  | .getField t x => by
    rw [callBase, callSuffix, Expr.tokens, tokens_callBase t]
    simp
  | .literal _ | .var _ | .assign _ _ | .setField _ _ _ | .logical _ _ _ _ | .binary _ _ _ _
  | .unary _ _ _ | .group _ | .thisRef => by simp [callBase, callSuffix]

theorem tokens_infixBase (L : Level) :
    ∀ x : Expr, x.tokens = (x.infixBase L).tokens ++ x.infixSuffix L
  | .logical op lx l r => by
    by_cases h : op.level = L
    · rw [infixBase, infixSuffix, if_pos h, if_pos h, Expr.tokens, tokens_infixBase L l]
      simp
    · simp [infixBase, infixSuffix, h]
  | .binary op lx l r => by
    by_cases h : op.level = L
    · rw [infixBase, infixSuffix, if_pos h, if_pos h, Expr.tokens, tokens_infixBase L l]
      simp
    · simp [infixBase, infixSuffix, h]
  | .literal _ | .var _ | .assign _ _ | .setField _ _ _ | .unary _ _ _ | .group _ | .call _ _
  | .getField _ _ | .thisRef => by simp [infixBase, infixSuffix]

theorem tokens_eq_firstToken : ∀ x : Expr, ∃ r, x.tokens = x.firstToken :: r
  | .literal _ | .var _ | .assign _ _ | .unary _ _ _ | .group _ | .thisRef => by
    simp [Expr.tokens, firstToken]
  | .setField t _ _ | .getField t _ | .call t _ => by
    obtain ⟨r, hr⟩ := tokens_eq_firstToken t
    simp [Expr.tokens, firstToken, hr]
  | .logical _ _ l _ | .binary _ _ l _ => by
    obtain ⟨r, hr⟩ := tokens_eq_firstToken l
    simp [Expr.tokens, firstToken, hr]

/-- The kinds of token an expression can be written from. -/
def startKinds : List Token.Kind :=
  [.integer, .string, .kwTrue, .kwFalse, .kwNil, .ident, .kwThis, .lparen, .bang, .minus]

theorem firstToken_kind_mem : ∀ x : Expr, x.firstToken.kind ∈ startKinds
  | .literal s => by
    cases s with
    | bool b => cases b <;> simp [firstToken, Token.ofScalar, startKinds]
    | _ => simp [firstToken, Token.ofScalar, startKinds]
  | .var _ | .assign _ _ | .group _ | .thisRef => by simp [firstToken, startKinds]
  | .unary op _ _ => by cases op <;> simp [firstToken, startKinds, UnaryOp.kind]
  | .setField t _ _ | .getField t _ | .call t _ => firstToken_kind_mem t
  | .logical _ _ l _ | .binary _ _ l _ => firstToken_kind_mem l

theorem ofKind?_firstToken {x : Expr} (h : x.prec = primaryPrec) :
    UnaryOp.ofKind? x.firstToken.kind = none := by
  cases x with
  | literal s =>
    cases s with
    | bool b => cases b <;> rfl
    | _ => rfl
  | var _ | group _ | thisRef => rfl
  | logical op _ _ _ | binary op _ _ _ =>
    have := Level.rank_le op.level
    simp only [prec, primaryPrec] at h
    omega
  | assign _ _ | setField _ _ _ | unary _ _ _ | call _ _ | getField _ _ =>
    simp [prec, primaryPrec, callPrec, unaryPrec] at h

/-- A chain of calls and field reads starts from a well-formed primary expression. -/
theorem callBase_of_callPrec : ∀ {x : Expr}, x.wellFormed → callPrec ≤ x.prec →
    x.callBase.prec = primaryPrec ∧ x.callBase.wellFormed
  | .call c _, hx, _ => by
    simp only [wellFormed, Bool.and_eq_true, decide_eq_true_eq] at hx
    exact @callBase_of_callPrec c hx.1.1.2 hx.1.1.1
  | .getField t _, hx, _ => by
    simp only [wellFormed, Bool.and_eq_true, decide_eq_true_eq] at hx
    exact @callBase_of_callPrec t hx.1.2 hx.1.1
  | .literal _, hx, _ | .var _, hx, _ | .group _, hx, _ | .thisRef, hx, _ => ⟨rfl, hx⟩
  | .assign _ _, _, h | .setField _ _ _, _, h | .unary _ _ _, _, h => by
    simp [prec, callPrec, unaryPrec] at h
  | .logical op _ _ _, _, h | .binary op _ _ _, _, h => by
    have := Level.rank_le op.level
    simp only [prec, callPrec] at h
    omega

theorem callBase_eq_or_shorter : ∀ x : Expr,
    x.callBase = x ∨ x.callBase.tokens.length < x.tokens.length
  | .call c args => .inr <| by
    rw [tokens_callBase (.call c args), List.length_append]
    simp only [callSuffix, List.length_append, List.length_cons]
    omega
  | .getField t x => .inr <| by
    rw [tokens_callBase (.getField t x), List.length_append]
    simp only [callSuffix, List.length_append, List.length_cons]
    omega
  | .literal _ | .var _ | .assign _ _ | .setField _ _ _ | .logical _ _ _ _ | .binary _ _ _ _
  | .unary _ _ _ | .group _ | .thisRef => .inl rfl

/-- The expression an infix chain of a looser level starts from is the expression itself. -/
theorem infixBase_of_lt {L : Level} : ∀ {x : Expr}, L.rank < x.prec → x.infixBase L = x
  | .logical op lx l r, h => by
    have hL : op.level ≠ L := fun hl => by simp [prec, hl] at h
    simp [infixBase, hL]
  | .binary op lx l r, h => by
    have hL : op.level ≠ L := fun hl => by simp [prec, hl] at h
    simp [infixBase, hL]
  | .literal _, _ | .var _, _ | .assign _ _, _ | .setField _ _ _, _ | .unary _ _ _, _
  | .group _, _ | .call _ _, _ | .getField _ _, _ | .thisRef, _ => rfl

/-- The first operand of a well-formed infix chain sits on a strictly tighter level. -/
theorem infixBase_of_le {L : Level} : ∀ {x : Expr}, x.wellFormed → L.rank ≤ x.prec →
    L.rank < (x.infixBase L).prec ∧ (x.infixBase L).wellFormed
  | .logical op lx l r, hx, h => by
    simp only [wellFormed, Bool.and_eq_true, decide_eq_true_eq] at hx
    by_cases hL : op.level = L
    · rw [infixBase, if_pos hL]
      exact infixBase_of_le hx.1.2 (hL ▸ hx.1.1.1.2)
    · have hne : op.level.rank ≠ L.rank := fun heq => hL (Level.rank_injective heq)
      simp only [prec] at h
      rw [infixBase, if_neg hL]
      exact ⟨by simp only [prec]; omega, by simp [wellFormed, hx]⟩
  | .binary op lx l r, hx, h => by
    simp only [wellFormed, Bool.and_eq_true, decide_eq_true_eq] at hx
    by_cases hL : op.level = L
    · rw [infixBase, if_pos hL]
      exact infixBase_of_le hx.1.2 (hL ▸ hx.1.1.1.2)
    · have hne : op.level.rank ≠ L.rank := fun heq => hL (Level.rank_injective heq)
      simp only [prec] at h
      rw [infixBase, if_neg hL]
      exact ⟨by simp only [prec]; omega, by simp [wellFormed, hx]⟩
  | .assign _ _, _, h | .setField _ _ _, _, h => by
    have := Level.rank_pos L
    simp only [prec] at h
    omega
  | .literal _, hx, _ | .var _, hx, _ | .unary _ _ _, hx, _ | .group _, hx, _
  | .call _ _, hx, _ | .getField _ _, hx, _ | .thisRef, hx, _ =>
    ⟨by
      have := Level.rank_le L
      simp only [infixBase, prec, primaryPrec, callPrec, unaryPrec]
      omega,
      hx⟩

/-- An infix chain of level `L` has more tokens than the operand it starts from. -/
theorem infixBase_shorter {L : Level} : ∀ {x : Expr}, x.prec = L.rank →
    (x.infixBase L).tokens.length < x.tokens.length
  | .logical op lx l r, h => by
    have hL : op.level = L := Level.rank_injective h
    rw [tokens_infixBase L (.logical op lx l r), List.length_append]
    simp only [infixSuffix, hL, if_true, List.length_append, List.length_cons]
    omega
  | .binary op lx l r, h => by
    have hL : op.level = L := Level.rank_injective h
    rw [tokens_infixBase L (.binary op lx l r), List.length_append]
    simp only [infixSuffix, hL, if_true, List.length_append, List.length_cons]
    omega
  | .literal _, h | .var _, h | .assign _ _, h | .setField _ _ _, h | .unary _ _ _, h
  | .group _, h | .call _ _, h | .getField _ _, h | .thisRef, h => by
    have := Level.rank_pos L
    have := Level.rank_le L
    simp only [prec, primaryPrec, callPrec, unaryPrec] at h
    omega

end Expr

/-! ### Tokens that end a read -/

theorem Stops.mono {p q : Nat} {rest : List Token} (hpq : p ≤ q) (h : Stops p rest) :
    Stops q rest := by
  intro t ht hc
  apply h t ht
  rcases hc with ⟨rfl, hk⟩ | ⟨hq, hk⟩ | ⟨L, hL, hq⟩
  · exact .inl ⟨by omega, hk⟩
  · exact .inr (.inl ⟨by omega, hk⟩)
  · exact .inr (.inr ⟨L, hL, by omega⟩)

/-- A token that is no infix operator, no `=`, no `(` and no `.` ends a read at any level. -/
theorem stops_of_kind {p : Nat} {t : Token} (r : List Token) (ha : t.kind ≠ .assign)
    (hl : t.kind ≠ .lparen) (hd : t.kind ≠ .dot) (hi : ∀ L : Level, L.infix? t.kind = none) :
    Stops p (t :: r) := by
  rintro t' ht' (⟨_, hk⟩ | ⟨_, hk | hk⟩ | ⟨L, hL, _⟩) <;> simp only [List.head?_cons,
    Option.mem_def, Option.some.injEq] at ht' <;> subst ht'
  · exact ha hk
  · exact hl hk
  · exact hd hk
  · simp [hi L] at hL

theorem stops_punct {p : Nat} (k : Token.Kind)
    (hk : k ∈ [.semicolon, .rparen, .comma, .rbrace, .lbrace, .kwElse]) (r : List Token) :
    Stops p (Token.ofKind k :: r) := by
  simp only [List.mem_cons, List.not_mem_nil, or_false] at hk
  apply stops_of_kind <;> rcases hk with rfl | rfl | rfl | rfl | rfl | rfl <;>
    first | decide | (intro L; cases L <;> rfl)

theorem stops_nil (p : Nat) : Stops p [] := by
  simp [Stops]

/-- `=` continues only a whole expression. -/
theorem stops_assign {p : Nat} (hp : 0 < p) (r : List Token) :
    Stops p (Token.ofKind .assign :: r) := by
  rintro t ht (⟨h, _⟩ | ⟨_, hk | hk⟩ | ⟨L, hL, _⟩) <;>
    simp only [List.head?_cons, Option.mem_def, Option.some.injEq] at ht <;> subst ht
  · omega
  · simp at hk
  · simp at hk
  · cases L <;> simp [Level.infix?] at hL

theorem Stops.infix_none {L : Level} {rest : List Token} (h : Stops L.rank rest) :
    ∀ t ∈ rest.head?, L.infix? t.kind = none := by
  intro t ht
  cases hL : L.infix? t.kind with
  | none => rfl
  | some _ => exact absurd (.inr (.inr ⟨L, by simp [hL], Nat.le_refl _⟩)) (h t ht)

theorem Stops.not_postfix {p : Nat} {rest : List Token} (hp : p ≤ callPrec) (h : Stops p rest) :
    ∀ t ∈ rest.head?, t.kind ≠ .lparen ∧ t.kind ≠ .dot :=
  fun t ht => ⟨fun hk => h t ht (.inr (.inl ⟨hp, .inl hk⟩)),
    fun hk => h t ht (.inr (.inl ⟨hp, .inr hk⟩))⟩

theorem Stops.not_assign {rest : List Token} (h : Stops 0 rest) :
    ∀ t ∈ rest.head?, t.kind ≠ .assign :=
  fun t ht hk => h t ht (.inl ⟨rfl, hk⟩)

/-- An operator of level `L` ends a read at a tighter level. -/
theorem stops_binOp {L : Level} {o : BinOp} (hL : o.level = L) (r : List Token) :
    Stops (L.rank + 1) (Token.ofKind o.kind :: r) := by
  rintro t ht (⟨h, _⟩ | ⟨_, hk | hk⟩ | ⟨L', hL', hle⟩) <;>
    simp only [List.head?_cons, Option.mem_def, Option.some.injEq] at ht <;> subst ht
  · omega
  · cases o <;> simp [BinOp.kind] at hk
  · cases o <;> simp [BinOp.kind] at hk
  · rw [Token.kind_ofKind, Level.infix?_binKind] at hL'
    by_cases h : o.level = L'
    · subst hL; subst h; omega
    · simp [h] at hL'

theorem stops_logicOp {L : Level} {o : LogicOp} (hL : o.level = L) (r : List Token) :
    Stops (L.rank + 1) (Token.ofKind o.kind :: r) := by
  rintro t ht (⟨h, _⟩ | ⟨_, hk | hk⟩ | ⟨L', hL', hle⟩) <;>
    simp only [List.head?_cons, Option.mem_def, Option.some.injEq] at ht <;> subst ht
  · omega
  · cases o <;> simp [LogicOp.kind] at hk
  · cases o <;> simp [LogicOp.kind] at hk
  · rw [Token.kind_ofKind, Level.infix?_logicKind] at hL'
    by_cases h : o.level = L'
    · subst hL; subst h; omega
    · simp [h] at hL'

namespace Syntax

/-- A read gives `x` and leaves the tokens `rest`, whatever proof of being shorter it carries. -/
def Yields {α : Type} {P : List Token → Prop} (r : Except Fault (α × {l : List Token // P l}))
    (x : α) (rest : List Token) : Prop :=
  r.map (fun p => (p.1, p.2.1)) = .ok (x, rest)

theorem Yields.eq {α : Type} {P : List Token → Prop}
    {r : Except Fault (α × {l : List Token // P l})} {x : α} {rest : List Token}
    (h : Yields r x rest) : ∃ hr, r = .ok (x, ⟨rest, hr⟩) := by
  unfold Yields at h
  match r, h with
  | .ok (y, ⟨l, hl⟩), h =>
    simp only [Except.map, Except.ok.injEq, Prod.mk.injEq] at h
    obtain ⟨rfl, rfl⟩ := h
    exact ⟨hl, rfl⟩

theorem yields_ok {α : Type} {P : List Token → Prop} (x : α) (rest : List Token) (h : P rest) :
    Yields (.ok (x, (⟨rest, h⟩ : {l : List Token // P l}))) x rest := rfl

theorem accept_of_kind {k : Token.Kind} {t : Token} (r : List Token) (h : t.kind = k) :
    accept k (t :: r) = some (t, ⟨r, Nat.lt_succ_self _⟩) := by
  simp [accept, h]

theorem accept_of_ne {k : Token.Kind} {ts : List Token} (h : ∀ t ∈ ts.head?, t.kind ≠ k) :
    accept k ts = none := by
  match ts with
  | [] => rfl
  | t :: r => simpa [accept] using h t rfl

theorem expect_of_kind (e : Pos) {k : Token.Kind} (what : Text) {t : Token} (r : List Token)
    (h : t.kind = k) : expect e k what (t :: r) = .ok (t, ⟨r, Nat.lt_succ_self _⟩) := by
  simp [expect, h]

/-! ### One step of each reader -/

section Steps

variable (e : Pos)

theorem callTail_call {callee : Expr} {r more : List Token} {args : List Expr}
    (ha : Yields (callArgs e r) args more) {z : Expr} {rest : List Token}
    (hz : Yields (callTail e (.call callee args) more) z rest) :
    Yields (callTail e callee (Token.ofKind .lparen :: r)) z rest := by
  obtain ⟨_, ha⟩ := ha.eq
  obtain ⟨_, hz⟩ := hz.eq
  simp only [callTail.eq_2, Token.kind_ofKind, if_true, ha, hz, bind, Except.bind, pure,
    Except.pure]
  rfl

theorem callTail_field {callee : Expr} (x : Scalar) (more : List Token) {z : Expr}
    {rest : List Token} (hz : Yields (callTail e (.getField callee x) more) z rest) :
    Yields (callTail e callee (Token.ofKind .dot :: Token.ofName x :: more)) z rest := by
  obtain ⟨_, hz⟩ := hz.eq
  simp only [callTail.eq_2, Token.kind_ofKind, reduceCtorEq, if_false, if_true,
    expect_of_kind e _ more (Token.kind_ofName x), Token.payload_ofName, hz, bind, Except.bind,
    pure, Except.pure]
  rfl

theorem callTail_stop (callee : Expr) {rest : List Token}
    (h : ∀ t ∈ rest.head?, t.kind ≠ .lparen ∧ t.kind ≠ .dot) :
    Yields (callTail e callee rest) callee rest := by
  match rest, h with
  | [], _ =>
    rw [callTail.eq_1]
    exact yields_ok _ _ _
  | t :: r, h =>
    obtain ⟨hl, hd⟩ := h t rfl
    simp only [callTail.eq_2, hl, hd, if_false]
    rfl

theorem infixTail_cons {L : Level} {left right : Expr} {t : Token} {op : Infix}
    (hop : L.infix? t.kind = some op) {ts more : List Token}
    (hr : Yields (operand e L ts) right more) {z : Expr} {rest : List Token}
    (hz : Yields (infixTail e L (op.node t.lexeme left right) more) z rest) :
    Yields (infixTail e L left (t :: ts)) z rest := by
  obtain ⟨_, hr⟩ := hr.eq
  obtain ⟨_, hz⟩ := hz.eq
  simp only [infixTail.eq_2, hop, hr, hz, bind, Except.bind, pure, Except.pure]
  rfl

theorem infixTail_stop (L : Level) (left : Expr) {rest : List Token}
    (h : ∀ t ∈ rest.head?, L.infix? t.kind = none) :
    Yields (infixTail e L left rest) left rest := by
  match rest, h with
  | [], _ =>
    rw [infixTail.eq_1]
    exact yields_ok _ _ _
  | t :: r, h =>
    simp only [infixTail.eq_2, h t rfl]
    rfl

theorem infixExpr_of {L : Level} {ts more : List Token} {left z : Expr} {rest : List Token}
    (hl : Yields (operand e L ts) left more) (hz : Yields (infixTail e L left more) z rest) :
    Yields (infixExpr e L ts) z rest := by
  obtain ⟨_, hl⟩ := hl.eq
  obtain ⟨_, hz⟩ := hz.eq
  simp only [infixExpr.eq_1, hl, hz, bind, Except.bind, pure, Except.pure]
  rfl

theorem prefixExpr_unary (op : UnaryOp) {ts rest : List Token} {x : Expr}
    (hx : Yields (prefixExpr e ts) x rest) :
    Yields (prefixExpr e (Token.ofKind op.kind :: ts)) (.unary op (.text op.symbol) x) rest := by
  obtain ⟨_, hx⟩ := hx.eq
  simp only [prefixExpr.eq_2, Token.kind_ofKind, UnaryOp.ofKind?_kind, hx, bind, Except.bind,
    pure, Except.pure, lexeme_unaryKind]
  rfl

theorem prefixExpr_primary {ts more rest : List Token} {p z : Expr}
    (ht : ∀ t ∈ ts.head?, UnaryOp.ofKind? t.kind = none) (hp : Yields (primary e ts) p more)
    (hz : Yields (callTail e p more) z rest) :
    Yields (prefixExpr e ts) z rest := by
  match ts, ht, hp with
  | t :: r, ht, hp =>
    obtain ⟨_, hp⟩ := hp.eq
    obtain ⟨_, hz⟩ := hz.eq
    simp only [prefixExpr.eq_2, ht t rfl, hp, hz, bind, Except.bind, pure, Except.pure]
    rfl
  | [], _, hp =>
    obtain ⟨_, hp⟩ := hp.eq
    simp [primary.eq_1] at hp

theorem expression_plain {ts rest : List Token} {x : Expr}
    (hx : Yields (infixExpr e .or ts) x rest) (hs : ∀ t ∈ rest.head?, t.kind ≠ .assign) :
    Yields (expression e ts) x rest := by
  obtain ⟨_, hx⟩ := hx.eq
  rw [expression.eq_1]
  simp only [hx, accept_of_ne hs, bind, Except.bind, pure, Except.pure]
  rfl

theorem expression_assign {ts more rest : List Token} {x : Scalar} {v : Expr}
    (hx : Yields (infixExpr e .or ts) (.var x) (Token.ofKind .assign :: more))
    (hv : Yields (expression e more) v rest) :
    Yields (expression e ts) (.assign x v) rest := by
  obtain ⟨_, hx⟩ := hx.eq
  obtain ⟨_, hv⟩ := hv.eq
  rw [expression.eq_1]
  simp only [hx, accept_of_kind more (Token.kind_ofKind _), hv, bind,
    Except.bind, pure, Except.pure]
  rfl

theorem expression_setField {ts more rest : List Token} {t : Expr} {x : Scalar} {v : Expr}
    (hx : Yields (infixExpr e .or ts) (.getField t x) (Token.ofKind .assign :: more))
    (hv : Yields (expression e more) v rest) :
    Yields (expression e ts) (.setField t x v) rest := by
  obtain ⟨_, hx⟩ := hx.eq
  obtain ⟨_, hv⟩ := hv.eq
  rw [expression.eq_1]
  simp only [hx, accept_of_kind more (Token.kind_ofKind _), hv, bind,
    Except.bind, pure, Except.pure]
  rfl

end Steps

/-! ### Arguments -/

theorem Expr.allWellFormed_iff {args : List Expr} :
    Expr.allWellFormed args = true ↔ ∀ a ∈ args, a.wellFormed := by
  induction args with
  | nil => simp [Expr.allWellFormed]
  | cons a as ih => simp [Expr.allWellFormed, ih]

theorem Expr.length_tokens_le_listTokens {a : Expr} : ∀ {args : List Expr}, a ∈ args →
    a.tokens.length ≤ (Expr.listTokens args).length
  | b :: bs, h => by
    rcases List.mem_cons.mp h with rfl | h
    · simp [Expr.listTokens]
    · have := Expr.length_tokens_le_listTokens h
      cases bs with
      | nil => simp at h
      | cons => simp only [Expr.listTokens, List.length_append, List.length_cons] at this ⊢; omega

theorem Expr.head?_listTokens (a : Expr) (as : List Expr) :
    (Expr.listTokens (a :: as)).head? = some a.firstToken := by
  obtain ⟨r, hr⟩ := Expr.tokens_eq_firstToken a
  simp [Expr.listTokens, hr]

section Args

variable (e : Pos)

theorem argsFrom_reads : ∀ (args : List Expr) (acc : Array Expr), args ≠ [] →
    acc.size + args.length ≤ maxArity →
    (∀ a ∈ args, ∀ rest, Stops 0 rest → Yields (expression e (a.tokens ++ rest)) a rest) →
    ∀ rest, Yields (argsFrom e acc (Expr.listTokens args ++ Token.ofKind .rparen :: rest))
      (acc.toList ++ args) rest
  | [], _, h, _, _, _ => absurd rfl h
  | [a], acc, _, hlen, hr, rest => by
    obtain ⟨_, ha⟩ :=
      (hr a (by simp) (Token.ofKind .rparen :: rest) (stops_punct _ (by simp) _)).eq
    have hsize : ¬ acc.size ≥ maxArity := by simp at hlen; omega
    have hcomma : accept .comma (Token.ofKind .rparen :: rest) = none := accept_of_ne (by simp)
    have hlist : Expr.listTokens [a] = a.tokens := by simp [Expr.listTokens]
    rw [hlist, argsFrom.eq_1, if_neg hsize]
    simp only [ha, hcomma, expect_of_kind e _ rest (Token.kind_ofKind _), bind, Except.bind,
      pure, Except.pure]
    simp [Yields, Except.map]
  | a :: b :: bs, acc, _, hlen, hr, rest => by
    have hmore := argsFrom_reads (b :: bs) (acc.push a) (by simp)
      (by simp only [List.length_cons, Array.size_push] at hlen ⊢; omega)
      (fun x hx => hr x (List.mem_cons_of_mem a hx)) rest
    obtain ⟨_, hmore⟩ := hmore.eq
    obtain ⟨_, ha⟩ := (hr a (by simp) (Token.ofKind .comma :: (Expr.listTokens (b :: bs) ++
      Token.ofKind .rparen :: rest)) (stops_punct _ (by simp) _)).eq
    have hsize : ¬ acc.size ≥ maxArity := by simp at hlen; omega
    have hlist : Expr.listTokens (a :: b :: bs) =
        a.tokens ++ Token.ofKind .comma :: Expr.listTokens (b :: bs) := by
      simp [Expr.listTokens]
    rw [hlist, List.append_assoc, List.cons_append, argsFrom.eq_1, if_neg hsize]
    simp only [ha, accept_of_kind _ (Token.kind_ofKind .comma), hmore, bind, Except.bind, pure,
      Except.pure]
    simp [Yields, Except.map]

/-- The arguments of a call, up to the closing parenthesis, are read back as written. -/
theorem callArgs_reads (args : List Expr) (hlen : args.length ≤ maxArity)
    (hr : ∀ a ∈ args, ∀ rest, Stops 0 rest →
      Yields (expression e (a.tokens ++ rest)) a rest)
    (rest : List Token) :
    Yields (callArgs e (Expr.listTokens args ++ Token.ofKind .rparen :: rest)) args rest := by
  cases args with
  | nil =>
    simp only [Expr.listTokens, List.nil_append, callArgs.eq_1,
      accept_of_kind rest (Token.kind_ofKind .rparen)]
    rfl
  | cons a as =>
    have hne : ∀ t ∈ (Expr.listTokens (a :: as) ++ Token.ofKind .rparen :: rest).head?,
        t.kind ≠ .rparen := by
      rw [List.head?_append, Expr.head?_listTokens]
      intro t ht
      simp only [Option.some_or, Option.mem_def, Option.some.injEq] at ht
      subst ht
      have := Expr.firstToken_kind_mem a
      revert this
      generalize a.firstToken.kind = k
      decide +revert
    rw [callArgs.eq_1, accept_of_ne hne]
    simpa using argsFrom_reads e (a :: as) #[] (by simp) (by simpa using hlen) hr rest

end Args

/-! ### Reading back, level by level -/

/-- The tokens of `x`, followed by tokens that do not continue it, are read back as `x` at
every level that `x` sits on. -/
structure ReadsBack (e : Pos) (x : Expr) : Prop where
  atPrimary : x.prec = primaryPrec → ∀ rest, Yields (primary e (x.tokens ++ rest)) x rest
  atPrefix : unaryPrec ≤ x.prec → ∀ rest, Stops unaryPrec rest →
    Yields (prefixExpr e (x.tokens ++ rest)) x rest
  atInfix : ∀ L : Level, L.rank ≤ x.prec → ∀ rest, Stops L.rank rest →
    Yields (infixExpr e L (x.tokens ++ rest)) x rest
  atExpression : ∀ rest, Stops 0 rest → Yields (expression e (x.tokens ++ rest)) x rest

/-- An expression on a level tighter than `L` is read as an operand of `L`. -/
theorem ReadsBack.atOperand {e : Pos} {x : Expr} (h : ReadsBack e x) {L : Level}
    (hL : L.rank < x.prec) (rest : List Token) (hs : Stops (L.rank + 1) rest) :
    Yields (operand e L (x.tokens ++ rest)) x rest := by
  cases L with
  | or => rw [operand]; exact h.atInfix .and hL rest hs
  | and => rw [operand]; exact h.atInfix .compare hL rest hs
  | compare => rw [operand]; exact h.atInfix .term hL rest hs
  | term => rw [operand]; exact h.atInfix .factor hL rest hs
  | factor => rw [operand]; exact h.atPrefix hL rest hs

theorem Expr.infixSuffix_of_ne {L : Level} :
    ∀ {x : Expr}, x.prec ≠ L.rank → x.infixSuffix L = []
  | .logical op _ _ _, h => by
    have hL : op.level ≠ L := fun hl => h (by simp [Expr.prec, hl])
    simp [Expr.infixSuffix, hL]
  | .binary op _ _ _, h => by
    have hL : op.level ≠ L := fun hl => h (by simp [Expr.prec, hl])
    simp [Expr.infixSuffix, hL]
  | .literal _, _ | .var _, _ | .assign _ _, _ | .setField _ _ _, _ | .unary _ _ _, _
  | .group _, _ | .call _ _, _ | .getField _ _, _ | .thisRef, _ => rfl

/-- The operators of a chain of level `L` start with an operator of that level. -/
theorem Expr.stops_infixSuffix {L : Level} : ∀ {x : Expr}, x.prec = L.rank →
    ∀ rest, Stops (L.rank + 1) (x.infixSuffix L ++ rest)
  | .logical op _ l r, h, rest => by
    have hL : op.level = L := Level.rank_injective h
    rw [Expr.infixSuffix, if_pos hL, List.append_assoc]
    by_cases hl : l.prec = L.rank
    · exact Expr.stops_infixSuffix hl _
    · rw [Expr.infixSuffix_of_ne hl, List.nil_append]
      exact stops_logicOp hL _
  | .binary op _ l r, h, rest => by
    have hL : op.level = L := Level.rank_injective h
    rw [Expr.infixSuffix, if_pos hL, List.append_assoc]
    by_cases hl : l.prec = L.rank
    · exact Expr.stops_infixSuffix hl _
    · rw [Expr.infixSuffix_of_ne hl, List.nil_append]
      exact stops_binOp hL _
  | .literal _, h, _ | .var _, h, _ | .assign _ _, h, _ | .setField _ _ _, h, _
  | .unary _ _ _, h, _ | .group _, h, _ | .call _ _, h, _ | .getField _ _, h, _
  | .thisRef, h, _ => by
    have := Level.rank_pos L
    have := Level.rank_le L
    simp only [Expr.prec, primaryPrec, callPrec, unaryPrec] at h
    omega

section Spines

variable (e : Pos) {n : Nat}
  (ih : ∀ y : Expr, y.tokens.length < n → y.wellFormed → ReadsBack e y)
include ih

/-- Along the spine of a chain of calls and field reads: reading the calls and field reads
after the chain's primary expression gives the chain. -/
theorem callTail_spine : ∀ x : Expr, x.tokens.length ≤ n → x.wellFormed →
    ∀ rest z rest', Yields (callTail e x rest) z rest' →
      Yields (callTail e x.callBase (x.callSuffix ++ rest)) z rest'
  | .call c args, hn, hx, rest, z, rest', hz => by
    simp only [Expr.wellFormed, Bool.and_eq_true, decide_eq_true_eq] at hx
    obtain ⟨⟨⟨_, hc⟩, hlen⟩, hargs⟩ := hx
    -- each argument is shorter than the call, so the induction reads it back
    have hshort : ∀ a ∈ args, a.tokens.length < n := fun a ha => by
      have := Expr.length_tokens_le_listTokens ha
      simp only [Expr.tokens, List.length_append, List.length_cons] at hn
      omega
    have hcn : c.tokens.length ≤ n := by
      simp only [Expr.tokens, List.length_append, List.length_cons] at hn
      omega
    have hts : (Expr.call c args).callSuffix ++ rest =
        c.callSuffix ++ Token.ofKind .lparen ::
          (Expr.listTokens args ++ Token.ofKind .rparen :: rest) := by
      simp [Expr.callSuffix]
    rw [Expr.callBase, hts]
    apply callTail_spine c hcn hc
    refine callTail_call e (callArgs_reads e args hlen (fun a ha => ?_) rest) hz
    exact (ih a (hshort a ha) (Expr.allWellFormed_iff.mp hargs a ha)).atExpression
  | .getField t x, hn, hx, rest, z, rest', hz => by
    simp only [Expr.wellFormed, Bool.and_eq_true, decide_eq_true_eq] at hx
    have htn : t.tokens.length ≤ n := by
      simp only [Expr.tokens, List.length_append, List.length_cons] at hn
      omega
    have hts : (Expr.getField t x).callSuffix ++ rest =
        t.callSuffix ++ Token.ofKind .dot :: Token.ofName x :: rest := by
      simp [Expr.callSuffix]
    rw [Expr.callBase, hts]
    exact callTail_spine t htn hx.1.2 _ z rest' (callTail_field e x rest hz)
  -- any other expression is its own base, with nothing after it
  | .literal _, _, _, _, _, _, hz | .var _, _, _, _, _, _, hz | .assign _ _, _, _, _, _, _, hz
  | .setField _ _ _, _, _, _, _, _, hz | .logical _ _ _ _, _, _, _, _, _, hz
  | .binary _ _ _ _, _, _, _, _, _, hz | .unary _ _ _, _, _, _, _, _, hz
  | .group _, _, _, _, _, _, hz | .thisRef, _, _, _, _, _, hz => hz

/-- Along the spine of a chain of infix operators of level `L`: reading the operators and
right operands after the chain's first operand gives the chain. -/
theorem infixTail_spine (L : Level) : ∀ x : Expr, x.tokens.length ≤ n → x.wellFormed →
    ∀ rest, Stops (L.rank + 1) rest → ∀ z rest', Yields (infixTail e L x rest) z rest' →
      Yields (infixTail e L (x.infixBase L) (x.infixSuffix L ++ rest)) z rest'
  | .logical op lx l r, hn, hx, rest, hs, z, rest', hz => by
    -- an operator of level `L` continues the chain; one of another level is its base
    by_cases hop : op.level = L
    · simp only [Expr.wellFormed, Bool.and_eq_true, beq_iff_eq, decide_eq_true_eq] at hx
      obtain ⟨⟨⟨⟨hlx, hl⟩, hr⟩, hlwf⟩, hrwf⟩ := hx
      simp only [Expr.tokens, List.length_append, List.length_cons] at hn
      rw [Expr.infixBase, Expr.infixSuffix, if_pos hop, if_pos hop, List.append_assoc,
        List.cons_append]
      apply infixTail_spine L l (by omega) hlwf _ (stops_logicOp hop _)
      have hkind : L.infix? (Token.ofKind op.kind).kind = some (.logical op) := by
        rw [Token.kind_ofKind, Level.infix?_logicKind, if_pos hop]
      refine infixTail_cons e hkind ((ih r (by omega) hrwf).atOperand (hop ▸ hr) rest hs) ?_
      rw [lexeme_logicKind, ← hlx]
      exact hz
    · rw [Expr.infixBase, Expr.infixSuffix, if_neg hop, if_neg hop, List.nil_append]
      exact hz
  | .binary op lx l r, hn, hx, rest, hs, z, rest', hz => by
    by_cases hop : op.level = L
    · simp only [Expr.wellFormed, Bool.and_eq_true, beq_iff_eq, decide_eq_true_eq] at hx
      obtain ⟨⟨⟨⟨hlx, hl⟩, hr⟩, hlwf⟩, hrwf⟩ := hx
      simp only [Expr.tokens, List.length_append, List.length_cons] at hn
      rw [Expr.infixBase, Expr.infixSuffix, if_pos hop, if_pos hop, List.append_assoc,
        List.cons_append]
      apply infixTail_spine L l (by omega) hlwf _ (stops_binOp hop _)
      have hkind : L.infix? (Token.ofKind op.kind).kind = some (.binary op) := by
        rw [Token.kind_ofKind, Level.infix?_binKind, if_pos hop]
      refine infixTail_cons e hkind ((ih r (by omega) hrwf).atOperand (hop ▸ hr) rest hs) ?_
      rw [lexeme_binKind, ← hlx]
      exact hz
    · rw [Expr.infixBase, Expr.infixSuffix, if_neg hop, if_neg hop, List.nil_append]
      exact hz
  | .literal _, _, _, _, _, _, _, hz | .var _, _, _, _, _, _, _, hz
  | .assign _ _, _, _, _, _, _, _, hz | .setField _ _ _, _, _, _, _, _, _, hz
  | .unary _ _ _, _, _, _, _, _, _, hz | .group _, _, _, _, _, _, _, hz
  | .call _ _, _, _, _, _, _, _, hz | .getField _ _, _, _, _, _, _, _, hz
  | .thisRef, _, _, _, _, _, _, hz => hz

end Spines

section Levels

variable (e : Pos) {x : Expr}
  (ih : ∀ y : Expr, y.tokens.length < x.tokens.length → y.wellFormed → ReadsBack e y)
  (hx : x.wellFormed)
include ih hx

theorem primary_reads (hp : x.prec = primaryPrec) (rest : List Token) :
    Yields (primary e (x.tokens ++ rest)) x rest := by
  cases x with
  | literal s =>
    cases s with
    | bool b =>
      cases b <;>
        simp only [Expr.tokens, List.singleton_append, Token.ofScalar, primary.eq_2] <;> rfl
    | _ => simp only [Expr.tokens, List.singleton_append, Token.ofScalar, primary.eq_2]; rfl
  | var _ | thisRef => simp only [Expr.tokens, List.singleton_append, primary.eq_2]; rfl
  | group inner =>
    have hin : inner.tokens.length < (Expr.group inner).tokens.length := by
      simp only [Expr.tokens, List.length_cons, List.length_append]; omega
    obtain ⟨_, hi⟩ := ((ih inner hin hx).atExpression (Token.ofKind .rparen :: rest)
      (stops_punct _ (by simp) _)).eq
    have hts : (Expr.group inner).tokens ++ rest =
        Token.ofKind .lparen :: (inner.tokens ++ Token.ofKind .rparen :: rest) := by
      simp [Expr.tokens]
    rw [hts]
    simp only [primary.eq_2, Token.kind_ofKind, hi, bind, Except.bind,
      expect_of_kind e _ rest (Token.kind_ofKind _), pure, Except.pure]
    rfl
  | logical op _ _ _ | binary op _ _ _ =>
    have := Level.rank_le op.level
    simp only [Expr.prec, primaryPrec] at hp
    omega
  | assign _ _ | setField _ _ _ | unary _ _ _ | call _ _ | getField _ _ =>
    simp [Expr.prec, primaryPrec, callPrec, unaryPrec] at hp

theorem prefixExpr_reads
    (hprim : x.prec = primaryPrec → ∀ rest, Yields (primary e (x.tokens ++ rest)) x rest)
    (hp : unaryPrec ≤ x.prec) (rest : List Token) (hs : Stops unaryPrec rest) :
    Yields (prefixExpr e (x.tokens ++ rest)) x rest := by
  by_cases hu : ∃ op lx inner, x = .unary op lx inner
  · obtain ⟨op, lx, inner, rfl⟩ := hu
    simp only [Expr.wellFormed, Bool.and_eq_true, beq_iff_eq, decide_eq_true_eq] at hx
    obtain ⟨⟨rfl, hin⟩, hiwf⟩ := hx
    exact prefixExpr_unary e op ((ih inner (by simp [Expr.tokens]) hiwf).atPrefix hin rest hs)
  · -- no prefix operator: a chain of calls and field reads over a primary expression
    have hc : callPrec ≤ x.prec := by
      cases x with
      | logical op _ _ _ | binary op _ _ _ =>
        have := Level.rank_le op.level
        simp only [Expr.prec, unaryPrec] at hp
        omega
      | unary op lx inner => exact absurd ⟨op, lx, inner, rfl⟩ hu
      | assign _ _ | setField _ _ _ => simp [Expr.prec, unaryPrec] at hp
      | literal _ | var _ | group _ | thisRef | call _ _ | getField _ _ =>
        simp [Expr.prec, callPrec, primaryPrec]
    obtain ⟨hbp, hbwf⟩ := Expr.callBase_of_callPrec hx hc
    have hbase : ∀ rest, Yields (primary e (x.callBase.tokens ++ rest)) x.callBase rest := by
      rcases Expr.callBase_eq_or_shorter x with heq | hlt
      · rw [heq] at hbp ⊢
        exact hprim hbp
      · exact (ih _ hlt hbwf).atPrimary hbp
    have hhead : ∀ t ∈ (x.callBase.tokens ++ (x.callSuffix ++ rest)).head?,
        UnaryOp.ofKind? t.kind = none := by
      obtain ⟨r, hr⟩ := Expr.tokens_eq_firstToken x.callBase
      rw [hr]
      rintro t ⟨⟩
      exact Expr.ofKind?_firstToken hbp
    rw [Expr.tokens_callBase x, List.append_assoc]
    exact prefixExpr_primary e hhead (hbase _) (callTail_spine e ih x (Nat.le_refl _) hx rest x
      rest (callTail_stop e x (hs.not_postfix (by decide))))

theorem infixExpr_reads (L : Level)
    (hop : L.rank < x.prec → ∀ rest, Stops (L.rank + 1) rest →
      Yields (operand e L (x.tokens ++ rest)) x rest)
    (hL : L.rank ≤ x.prec) (rest : List Token) (hs : Stops L.rank rest) :
    Yields (infixExpr e L (x.tokens ++ rest)) x rest := by
  rcases Nat.lt_or_eq_of_le hL with hlt | heq
  · exact infixExpr_of e (hop hlt rest (hs.mono (Nat.le_succ _)))
      (infixTail_stop e L x hs.infix_none)
  · -- a chain of level `L`: its first operand, then the rest along the spine
    obtain ⟨hbase, hbwf⟩ := Expr.infixBase_of_le hx hL
    have hshort := Expr.infixBase_shorter heq.symm
    rw [Expr.tokens_infixBase L x, List.append_assoc]
    exact infixExpr_of e
      ((ih _ hshort hbwf).atOperand hbase _ (Expr.stops_infixSuffix heq.symm rest))
      (infixTail_spine e ih L x (Nat.le_refl _) hx rest (hs.mono (Nat.le_succ _)) x rest
        (infixTail_stop e L x hs.infix_none))

theorem expression_reads
    (hor : Level.or.rank ≤ x.prec → ∀ rest, Stops Level.or.rank rest →
      Yields (infixExpr e .or (x.tokens ++ rest)) x rest)
    (rest : List Token) (hs : Stops 0 rest) :
    Yields (expression e (x.tokens ++ rest)) x rest := by
  cases x with
  | assign n v =>
    -- the target is first read as a variable, which the `=` after it turns into a target
    simp only [Expr.wellFormed, Bool.and_eq_true] at hx
    have hv := (ih v (by simp only [Expr.tokens, List.length_cons]; omega) hx.2).atExpression
      rest hs
    have hn := (ih (.var n) (by simp [Expr.tokens]) hx.1).atInfix .or
      (by simp [Expr.prec, primaryPrec, Level.rank]) _ (stops_assign (by decide) (v.tokens ++ rest))
    have hts : (Expr.assign n v).tokens ++ rest =
        (Expr.var n).tokens ++ Token.ofKind .assign :: (v.tokens ++ rest) := by
      simp [Expr.tokens]
    rw [hts]
    exact expression_assign e hn hv
  | setField t n v =>
    -- the target is first read as a field read, which the `=` after it turns into a write
    simp only [Expr.wellFormed, Bool.and_eq_true] at hx
    obtain ⟨⟨⟨ht, htwf⟩, hn⟩, hvwf⟩ := hx
    have hv := (ih v (by simp only [Expr.tokens, List.length_append, List.length_cons]; omega)
      hvwf).atExpression rest hs
    have hget : (Expr.getField t n).wellFormed := by simp_all [Expr.wellFormed]
    have hlen : (Expr.getField t n).tokens.length < (Expr.setField t n v).tokens.length := by
      simp only [Expr.tokens, List.length_append, List.length_cons, List.length_nil]
      omega
    have htn := (ih (.getField t n) hlen hget).atInfix .or
      (by simp [Expr.prec, callPrec, Level.rank]) _ (stops_assign (by decide) (v.tokens ++ rest))
    have hts : (Expr.setField t n v).tokens ++ rest =
        (Expr.getField t n).tokens ++ Token.ofKind .assign :: (v.tokens ++ rest) := by
      simp [Expr.tokens]
    rw [hts]
    exact expression_setField e htn hv
  | logical op _ _ _ | binary op _ _ _ =>
    exact expression_plain e (hor (Level.rank_pos _) rest (hs.mono (Nat.zero_le _)))
      hs.not_assign
  | literal _ | var _ | unary _ _ _ | group _ | call _ _ | getField _ _ | thisRef =>
    exact expression_plain e (hor (by simp [Expr.prec, Level.rank, primaryPrec, callPrec,
      unaryPrec]) rest (hs.mono (Nat.zero_le _))) hs.not_assign

end Levels

/-- A well-formed expression is read back from its tokens at every level it sits on. The
induction is on the number of tokens; for one expression the levels are built from the
tightest up, each infix level read through the next tighter one. -/
theorem reads_back (e : Pos) (x : Expr) (hx : x.wellFormed) : ReadsBack e x := by
  induction hn : x.tokens.length using Nat.strongRecOn generalizing x with
  | ind n ihn =>
    have ih : ∀ y : Expr, y.tokens.length < x.tokens.length → y.wellFormed → ReadsBack e y :=
      fun y hy hwf => ihn _ (hn ▸ hy) y hwf rfl
    -- each level reads its operands at the next tighter one
    have hprim := primary_reads e ih hx
    have hpre := prefixExpr_reads e ih hx hprim
    have hfactor := infixExpr_reads e ih hx .factor
      (fun h rest hs => by rw [operand]; exact hpre h rest hs)
    have hterm := infixExpr_reads e ih hx .term
      (fun h rest hs => by rw [operand]; exact hfactor h rest hs)
    have hcompare := infixExpr_reads e ih hx .compare
      (fun h rest hs => by rw [operand]; exact hterm h rest hs)
    have hand := infixExpr_reads e ih hx .and
      (fun h rest hs => by rw [operand]; exact hcompare h rest hs)
    have hor := infixExpr_reads e ih hx .or
      (fun h rest hs => by rw [operand]; exact hand h rest hs)
    refine ⟨hprim, hpre, ?_, expression_reads e ih hx hor⟩
    intro L
    cases L with
    | or => exact hor
    | and => exact hand
    | compare => exact hcompare
    | term => exact hterm
    | factor => exact hfactor

end Syntax

end Ember
