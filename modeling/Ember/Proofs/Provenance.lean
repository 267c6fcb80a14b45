import Ember.Proofs.ReadBack
/-!
Where the constants of a program come from.

Every constant written in a program read from tokens is the payload of one of the tokens, or
nil, or the `true` that a `for` loop without a condition tests (`Program.ofTokens_literals`).
So what the scanner puts into the payloads of tokens bounds every constant that a run of the
program can meet.

The statement is proved for each reader at once, by the functional induction of the readers:
a read of the tokens `ts` that leaves `rest` gives a tree whose constants come from the tokens
it took (`Reads`). A reader that continues a tree read before it (the calls after a callee,
the operators after a left operand, the arguments after those already read) gives constants
that are that tree's or come from its own tokens, and reads compose (`Reads.trans`). Every
read also leaves a suffix of its tokens.
-/

namespace Ember

/-! ### The constants written in a tree -/

mutual

/-- The constants written in an expression, left to right. -/
def Expr.literals : Expr → List Scalar
  | .literal s => [s]
  | .var _ | .thisRef => []
  | .assign _ v => v.literals
  | .setField t _ v => t.literals ++ v.literals
  | .logical _ _ l r => l.literals ++ r.literals
  | .binary _ _ l r => l.literals ++ r.literals
  | .unary _ _ x => x.literals
  | .group x => x.literals
  | .call c args => c.literals ++ Expr.listLiterals args
  | .getField t _ => t.literals

/-- The constants written in a list of expressions. -/
def Expr.listLiterals : List Expr → List Scalar
  | [] => []
  | e :: es => e.literals ++ Expr.listLiterals es

end

mutual

/-- The constants written in a statement, the bodies of its functions included. -/
def Stmt.literals : Stmt → List Scalar
  | .letDecl _ init => init.elim [] Expr.literals
  | .block ss => Stmt.listLiterals ss
  | .funDecl f => f.literals
  | .classDecl _ ms => Func.listLiterals ms
  | .expr e => e.literals
  | .ifElse c yes no => c.literals ++ yes.literals ++ Stmt.elseLiterals no
  | .print args => Expr.listLiterals args
  | .whileLoop c body => c.literals ++ body.literals
  | .ret v => v.elim [] Expr.literals

/-- The constants written in an optional else branch. -/
def Stmt.elseLiterals : Option Stmt → List Scalar
  | none => []
  | some s => s.literals

/-- The constants written in a list of statements. -/
def Stmt.listLiterals : List Stmt → List Scalar
  | [] => []
  | s :: ss => s.literals ++ Stmt.listLiterals ss

/-- The constants written in the body of a function. -/
def Func.literals : Func → List Scalar
  | ⟨_, _, body⟩ => Stmt.listLiterals body

/-- The constants written in a list of functions. -/
def Func.listLiterals : List Func → List Scalar
  | [] => []
  | f :: fs => f.literals ++ Func.listLiterals fs

end

/-- The constants written in a program. -/
def Program.literals (p : Program) : List Scalar :=
  Stmt.listLiterals p.body

theorem Expr.listLiterals_append (xs ys : List Expr) :
    Expr.listLiterals (xs ++ ys) = Expr.listLiterals xs ++ Expr.listLiterals ys := by
  induction xs with
  | nil => rfl
  | cons x xs ih => simp only [List.cons_append, Expr.listLiterals, ih, List.append_assoc]

theorem Stmt.listLiterals_append (xs ys : List Stmt) :
    Stmt.listLiterals (xs ++ ys) = Stmt.listLiterals xs ++ Stmt.listLiterals ys := by
  induction xs with
  | nil => rfl
  | cons x xs ih => simp only [List.cons_append, Stmt.listLiterals, ih, List.append_assoc]

theorem Func.listLiterals_append (xs ys : List Func) :
    Func.listLiterals (xs ++ ys) = Func.listLiterals xs ++ Func.listLiterals ys := by
  induction xs with
  | nil => rfl
  | cons x xs ih => simp only [List.cons_append, Func.listLiterals, ih, List.append_assoc]

namespace Syntax

/-! ### Reads and the constants they give -/

/-- A constant comes from the tokens `ts`: it is the payload of one of them, or nil, or
`true`. -/
def Sourced (ts : List Token) (s : Scalar) : Prop :=
  s = .null ∨ s = .bool true ∨ ∃ t ∈ ts, t.payload = s

/-- Reading the tokens `ts` down to `rest` gave the constants `lits`, each of which is in
`base` (a tree the read continues) or comes from `ts`; `rest` is a suffix of `ts`. -/
def Reads (ts : List Token) (base lits : List Scalar) (rest : List Token) : Prop :=
  rest <:+ ts ∧ ∀ s ∈ lits, s ∈ base ∨ Sourced ts s

namespace Reads

variable {ts r1 rest : List Token} {base mid lits : List Scalar}

theorem sourced_mono {ts ts' : List Token} (h : ts ⊆ ts') {s : Scalar} :
    Sourced ts s → Sourced ts' s := by
  rintro (h0 | h1 | ⟨t, ht, rfl⟩)
  · exact .inl h0
  · exact .inr (.inl h1)
  · exact .inr (.inr ⟨t, h ht, rfl⟩)

/-- A read that takes nothing. -/
theorem refl (ts : List Token) (lits : List Scalar) : Reads ts lits lits ts :=
  ⟨List.suffix_refl ts, fun _ hs => .inl hs⟩

/-- A read after another, which continues what the first one gave. -/
theorem trans (h₁ : Reads ts base mid r1) (h₂ : Reads r1 (base ++ mid) lits rest) :
    Reads ts base lits rest := by
  refine ⟨h₂.1.trans h₁.1, fun s hs => ?_⟩
  rcases h₂.2 s hs with hb | hsrc
  · rcases List.mem_append.1 hb with hb | hm
    · exact .inl hb
    · exact h₁.2 s hm
  · exact .inr (sourced_mono h₁.1.subset hsrc)

/-- A read after a token of its own. -/
theorem cons (t : Token) (h : Reads ts base lits rest) : Reads (t :: ts) base lits rest := by
  refine ⟨h.1.trans (List.suffix_cons t ts), fun s hs => ?_⟩
  rcases h.2 s hs with hb | hsrc
  · exact .inl hb
  · exact .inr (sourced_mono (List.subset_cons_self t ts) hsrc)

/-- Tokens taken after a read whose constants are kept. -/
theorem drop (h : Reads ts base lits r1) (hr : rest <:+ r1) : Reads ts base lits rest :=
  ⟨hr.trans h.1, h.2⟩

theorem mono_base {base' : List Scalar} (hb : base ⊆ base') (h : Reads ts base lits rest) :
    Reads ts base' lits rest :=
  ⟨h.1, fun s hs => (h.2 s hs).imp (fun h => hb h) id⟩

theorem mono_lits {lits' : List Scalar} (hl : lits' ⊆ lits) (h : Reads ts base lits rest) :
    Reads ts base lits' rest :=
  ⟨h.1, fun s hs => h.2 s (hl hs)⟩

/-- A read that starts from nothing gives constants of its own tokens. -/
theorem of_nil (h : Reads ts [] lits rest) : ∀ s ∈ lits, Sourced ts s :=
  fun s hs => (h.2 s hs).resolve_left (List.not_mem_nil)

/-- The payload of a token, read as a constant. -/
theorem payload (t : Token) (ts : List Token) (base : List Scalar) :
    Reads (t :: ts) base [t.payload] ts :=
  ⟨List.suffix_cons t ts, fun _ hs => by
    rw [List.mem_singleton.1 hs]
    exact .inr (.inr (.inr ⟨t, List.mem_cons_self, rfl⟩))⟩

/-- A read that takes one token and gives no constant. -/
theorem token (t : Token) (ts : List Token) (base : List Scalar) : Reads (t :: ts) base base ts :=
  (refl ts base).cons t

/-- Nil, read from one token. -/
theorem null (t : Token) (ts : List Token) (base : List Scalar) : Reads (t :: ts) base [.null] ts :=
  ⟨List.suffix_cons t ts, fun _ hs => .inr (.inl (List.mem_singleton.1 hs))⟩

/-- A read whose constants are kept after the constants of the tree it continues. -/
theorem append (h₁ : Reads ts base mid r1) (h₂ : Reads r1 (base ++ mid) lits rest) :
    Reads ts base (mid ++ lits) rest := by
  refine ⟨(h₁.trans h₂).1, fun s hs => ?_⟩
  rcases List.mem_append.1 hs with hm | hl
  · exact h₁.2 s hm
  · exact (h₁.trans h₂).2 s hl

/-- The constants of the tree a read continues, followed by those of the read. -/
theorem base_append (h : Reads ts base lits rest) : Reads ts base (base ++ lits) rest :=
  ⟨h.1, fun s hs => (List.mem_append.1 hs).elim .inl (h.2 s)⟩

/-- Two reads one after the other, each from nothing. -/
theorem seq (h₁ : Reads ts [] mid r1) (h₂ : Reads r1 [] lits rest) :
    Reads ts [] (mid ++ lits) rest :=
  h₁.append (h₂.mono_base (List.nil_subset _))

/-- A read gives any constants that are among its own or are `true`. -/
theorem widen {lits' : List Scalar} (h : Reads ts base lits rest)
    (hl : ∀ s ∈ lits', s = .bool true ∨ s ∈ lits) : Reads ts base lits' rest := by
  refine ⟨h.1, fun s hs => ?_⟩
  rcases hl s hs with rfl | hm
  · exact .inr (.inr (.inl rfl))
  · exact h.2 s hm

/-- A read after tokens that gave no constants. -/
theorem skip (h : Reads r1 base lits rest) (hr : r1 <:+ ts) : Reads ts base lits rest :=
  ⟨h.1.trans hr, fun s hs => (h.2 s hs).imp id (sourced_mono hr.subset)⟩

end Reads

/-! ### Taking a successful read apart -/

section Inversion

variable {α β : Type} {P Q : List Token → Prop}

theorem Yields.of_bind {x : Except Fault (α × {l : List Token // P l})}
    {f : α × {l : List Token // P l} → Except Fault (β × {l : List Token // Q l})} {z : β}
    {rest : List Token} (h : Yields (x >>= f) z rest) :
    ∃ a r hr, Yields x a r ∧ Yields (f (a, ⟨r, hr⟩)) z rest := by
  cases x with
  | error e => cases h
  | ok p =>
    obtain ⟨a, r, hr⟩ := p
    exact ⟨a, r, hr, rfl, h⟩

theorem Yields.of_pure {a z : α} {r rest : List Token} {hr : P r}
    (h : Yields (Pure.pure (a, ⟨r, hr⟩) : Except Fault (α × {l : List Token // P l})) z rest) :
    a = z ∧ r = rest := by
  cases h
  exact ⟨rfl, rfl⟩

theorem Yields.of_ok {a z : α} {r rest : List Token} {hr : P r}
    (h : Yields (Except.ok (a, ⟨r, hr⟩) : Except Fault (α × {l : List Token // P l})) z rest) :
    a = z ∧ r = rest :=
  Yields.of_pure h

theorem Yields.of_throw {f : Fault} {z : α} {rest : List Token}
    (h : Yields (throw f : Except Fault (α × {l : List Token // P l})) z rest) : False := by
  cases h

theorem Yields.of_error {f : Fault} {z : α} {rest : List Token}
    (h : Yields (Except.error f : Except Fault (α × {l : List Token // P l})) z rest) : False := by
  cases h

theorem Yields.of_cons {t : Token} {r : List Token} {x : Read r α} {a : α} {rest : List Token}
    (h : Yields (Read.cons x : Read (t :: r) α) a rest) : Yields x a rest := by
  cases x with
  | error e => cases h
  | ok p => exact h

theorem Yields.of_map {x : Except Fault (α × {l : List Token // P l})} {f : α → β} {b : β}
    {rest : List Token} (h : Yields (x.map fun (a, y) => (f a, y)) b rest) :
    ∃ a, Yields x a rest ∧ f a = b := by
  cases x with
  | error e => cases h
  | ok p =>
    obtain ⟨a, r, hr⟩ := p
    cases h
    exact ⟨a, rfl, rfl⟩

theorem accept_inv {k : Token.Kind} {ts : List Token} {t : Token} {x : Rest ts}
    (h : accept k ts = some (t, x)) : ts = t :: x.1 ∧ t.kind = k := by
  match ts, x, h with
  | t' :: r', x, h =>
    simp only [accept] at h
    split at h
    · cases h
      exact ⟨rfl, ‹_›⟩
    · cases h

theorem expect_inv {e : Pos} {k : Token.Kind} {what : Text} {ts : List Token} {t : Token}
    {r : List Token} (h : Yields (expect e k what ts) t r) : ts = t :: r ∧ t.kind = k := by
  match ts, h with
  | [], h => cases h
  | t' :: r', h =>
    simp only [expect] at h
    split at h
    · cases h
      exact ⟨rfl, ‹_›⟩
    · cases h

/-- A read that leaves `rest` after taking one expected token. -/
theorem Reads.expect {e : Pos} {k : Token.Kind} {what : Text} {ts : List Token} {t : Token}
    {r : List Token} (h : Yields (expect e k what ts) t r) (base : List Scalar) :
    Reads ts base base r := by
  obtain ⟨rfl, -⟩ := expect_inv h
  exact (Reads.refl r base).cons t

theorem expect_suffix {e : Pos} {k : Token.Kind} {what : Text} {ts : List Token} {t : Token}
    {r : List Token} (h : Yields (expect e k what ts) t r) : r <:+ ts := by
  obtain ⟨rfl, -⟩ := expect_inv h
  exact List.suffix_cons t r

theorem accept_suffix {k : Token.Kind} {ts : List Token} {t : Token} {x : Rest ts}
    (h : accept k ts = some (t, x)) : x.1 <:+ ts := by
  exact ⟨[t], (accept_inv h).1.symm⟩

end Inversion

theorem Infix.literals_node (op : Infix) (lexeme : Scalar) (left right : Expr) :
    (op.node lexeme left right).literals = left.literals ++ right.literals := by
  cases op <;> rfl

theorem Stmt.listLiterals_push (acc : Array Stmt) (s : Stmt) :
    Stmt.listLiterals (acc.push s).toList = Stmt.listLiterals acc.toList ++ s.literals := by
  rw [Array.toList_push, Stmt.listLiterals_append]
  simp only [Stmt.listLiterals, List.append_nil]

theorem Func.listLiterals_push (acc : Array Func) (f : Func) :
    Func.listLiterals (acc.push f).toList = Func.listLiterals acc.toList ++ f.literals := by
  rw [Array.toList_push, Func.listLiterals_append]
  simp only [Func.listLiterals, List.append_nil]

/-- The constants of a `for` loop are those of its clauses and body, and the `true` that
stands for a missing condition. -/
theorem Stmt.literals_forLoop (init : Option Stmt) (test update : Option Expr) (body : Stmt) :
    ∀ s ∈ (Stmt.forLoop init test update body).literals, s = .bool true ∨
      s ∈ init.elim [] Stmt.literals ++ test.elim [] Expr.literals ++
        update.elim [] Expr.literals ++ body.literals := by
  intro s hs
  -- the loop's body is the body followed by the update, after the test or `true`
  cases init <;> cases test <;> cases update <;>
    simp only [Stmt.forLoop, Stmt.literals, Stmt.listLiterals, Expr.literals, Option.elim,
      Option.getD, List.append_nil, List.nil_append, List.mem_append, List.mem_singleton] at hs ⊢ <;>
    grind

theorem Expr.listLiterals_push (acc : Array Expr) (x : Expr) :
    Expr.listLiterals (acc.push x).toList = Expr.listLiterals acc.toList ++ x.literals := by
  rw [Array.toList_push, Expr.listLiterals_append]
  simp only [Expr.listLiterals, List.append_nil]

/-! ### Expressions -/

/-- Every expression reader gives constants of the tokens it took, after those of the tree it
continues. -/
structure ExprProvenance (e : Pos) : Prop where
  primary : ∀ ts x rest, Yields (primary e ts) x rest → Reads ts [] x.literals rest
  expression : ∀ ts x rest, Yields (expression e ts) x rest → Reads ts [] x.literals rest
  infixExpr : ∀ lvl ts x rest, Yields (infixExpr e lvl ts) x rest → Reads ts [] x.literals rest
  infixTail : ∀ lvl left ts x rest,
    Yields (infixTail e lvl left ts) x rest → Reads ts left.literals x.literals rest
  operand : ∀ lvl ts x rest, Yields (operand e lvl ts) x rest → Reads ts [] x.literals rest
  prefixExpr : ∀ ts x rest, Yields (prefixExpr e ts) x rest → Reads ts [] x.literals rest
  callTail : ∀ callee ts x rest,
    Yields (callTail e callee ts) x rest → Reads ts callee.literals x.literals rest
  callArgs : ∀ ts xs rest, Yields (callArgs e ts) xs rest → Reads ts [] (Expr.listLiterals xs) rest
  argsFrom : ∀ acc ts xs rest, Yields (argsFrom e acc ts) xs rest →
    Reads ts (Expr.listLiterals acc.toList) (Expr.listLiterals xs) rest

/-- The induction follows the readers' own recursion: each case takes the read apart at the
branch the reader took and puts the reads of its parts together. -/
theorem exprProvenance (e : Pos) : ExprProvenance e := by
  refine (fun ⟨h1, h2, h3, h4, h5, h6, h7, h8, h9⟩ => ⟨h1, h2, h3, h4, h5, h6, h7, h8, h9⟩)
    (primary.mutual_induct
    (fun ts => ∀ x rest, Yields (primary e ts) x rest → Reads ts [] x.literals rest)
    (fun ts => ∀ x rest, Yields (expression e ts) x rest → Reads ts [] x.literals rest)
    (fun lvl ts => ∀ x rest, Yields (infixExpr e lvl ts) x rest → Reads ts [] x.literals rest)
    (fun lvl left ts => ∀ x rest,
      Yields (infixTail e lvl left ts) x rest → Reads ts left.literals x.literals rest)
    (fun lvl ts => ∀ x rest, Yields (operand e lvl ts) x rest → Reads ts [] x.literals rest)
    (fun ts => ∀ x rest, Yields (prefixExpr e ts) x rest → Reads ts [] x.literals rest)
    (fun callee ts => ∀ x rest,
      Yields (callTail e callee ts) x rest → Reads ts callee.literals x.literals rest)
    (fun ts => ∀ xs rest, Yields (callArgs e ts) xs rest → Reads ts [] (Expr.listLiterals xs) rest)
    (fun acc ts => ∀ xs rest, Yields (argsFrom e acc ts) xs rest →
      Reads ts (Expr.listLiterals acc.toList) (Expr.listLiterals xs) rest)
    ?primaryNil ?integer ?string ?kwTrue ?kwFalse ?kwNil ?ident ?kwThis ?lparen ?unexpected
    ?expression ?infixExpr ?infixTailNil ?infixTailOp ?infixTailStop
    ?operandOr ?operandAnd ?operandCompare ?operandTerm ?operandFactor
    ?prefixNil ?prefixUnary ?prefixPrimary
    ?callTailNil ?callTailCall ?callTailField ?callTailStop
    ?callArgsSome ?callArgsNone ?argsFull ?argsFrom)
  case primaryNil =>
    intro x rest h
    rw [primary.eq_1] at h
    exact (Yields.of_error h).elim
  case integer | string | kwTrue | kwFalse =>
    intro t tail hk x rest h
    simp only [primary.eq_2, hk] at h
    obtain ⟨rfl, rfl⟩ := Yields.of_ok h
    exact Reads.payload t tail []
  case kwNil =>
    intro t tail hk x rest h
    simp only [primary.eq_2, hk] at h
    obtain ⟨rfl, rfl⟩ := Yields.of_ok h
    exact Reads.null t tail []
  case ident | kwThis =>
    intro t tail hk x rest h
    simp only [primary.eq_2, hk] at h
    obtain ⟨rfl, rfl⟩ := Yields.of_ok h
    exact Reads.token t tail []
  case lparen =>
    intro t tail hk ih x rest h
    simp only [primary.eq_2, hk] at h
    obtain ⟨x', r1, _, hx, h⟩ := Yields.of_bind h
    obtain ⟨_, r2, _, hr, h⟩ := Yields.of_bind h
    obtain ⟨rfl, rfl⟩ := Yields.of_pure h
    exact ((ih x' r1 hx).drop (expect_suffix hr)).cons t
  case unexpected =>
    intro t tail h1 h2 h3 h4 h5 h6 h7 h8 x rest h
    rw [primary.eq_2] at h
    -- every branch but the last is ruled out by the kind, and the last is a fault
    split at h <;> contradiction
  case expression =>
    intro ts ihl ihv x rest h
    rw [expression.eq_1] at h
    obtain ⟨left, r1, h1, hl, h⟩ := Yields.of_bind h
    have hleft := ihl left r1 hl
    dsimp only at h
    split at h
    · -- an assignment: the value after `=` is read from the tokens after it
      rename_i eq r2 h2 ha
      obtain ⟨value, r3, _, hv, h⟩ := Yields.of_bind h
      have hvalue := ihv r1 h1 r2 h2 value r3 hv
      have hleft' := hleft.drop (accept_suffix ha)
      dsimp only at h
      split at h
      · obtain ⟨rfl, rfl⟩ := Yields.of_pure h
        exact hleft'.trans hvalue
      · obtain ⟨rfl, rfl⟩ := Yields.of_pure h
        exact hleft'.append (hvalue.mono_base (List.nil_subset _))
      · exact (Yields.of_throw h).elim
    · obtain ⟨rfl, rfl⟩ := Yields.of_pure h
      exact hleft
  case infixExpr =>
    intro lvl ts ihl iht x rest h
    rw [infixExpr.eq_1] at h
    obtain ⟨left, r1, h1, hl, h⟩ := Yields.of_bind h
    obtain ⟨x', r2, _, hx, h⟩ := Yields.of_bind h
    obtain ⟨rfl, rfl⟩ := Yields.of_pure h
    exact (ihl left r1 hl).trans (iht left r1 h1 x' r2 hx)
  case infixTailNil =>
    intro lvl left x rest h
    rw [infixTail.eq_1] at h
    obtain ⟨rfl, rfl⟩ := Yields.of_ok h
    exact Reads.refl [] _
  case infixTailOp =>
    intro lvl left t tail op hop ihr iht x rest h
    simp only [infixTail.eq_2, hop] at h
    obtain ⟨right, r1, h1, hr, h⟩ := Yields.of_bind h
    obtain ⟨x', r2, _, hx, h⟩ := Yields.of_bind h
    obtain ⟨rfl, rfl⟩ := Yields.of_pure h
    have hnext := iht right r1 h1 x' r2 hx
    rw [Infix.literals_node] at hnext
    exact (((ihr right r1 hr).mono_base (List.nil_subset _)).trans hnext).cons t
  case infixTailStop =>
    intro lvl left t tail hnone x rest h
    simp only [infixTail.eq_2, hnone] at h
    obtain ⟨rfl, rfl⟩ := Yields.of_ok h
    exact Reads.refl _ _
  case operandOr | operandAnd | operandCompare | operandTerm | operandFactor =>
    intro ts ih x rest h
    rw [operand] at h
    exact ih x rest h
  case prefixNil =>
    intro ih x rest h
    rw [prefixExpr.eq_1] at h
    exact ih x rest h
  case prefixUnary =>
    intro t tail op hop ih x rest h
    simp only [prefixExpr.eq_2, hop] at h
    obtain ⟨x', r1, _, hx, h⟩ := Yields.of_bind h
    obtain ⟨rfl, rfl⟩ := Yields.of_pure h
    exact (ih x' r1 hx).cons t
  case prefixPrimary =>
    intro t tail hnone ihp iht x rest h
    simp only [prefixExpr.eq_2, hnone] at h
    obtain ⟨p, r1, h1, hp, h⟩ := Yields.of_bind h
    obtain ⟨x', r2, _, hx, h⟩ := Yields.of_bind h
    obtain ⟨rfl, rfl⟩ := Yields.of_pure h
    exact (ihp p r1 hp).trans (iht p r1 h1 x' r2 hx)
  case callTailNil =>
    intro callee x rest h
    rw [callTail.eq_1] at h
    obtain ⟨rfl, rfl⟩ := Yields.of_ok h
    exact Reads.refl [] _
  case callTailCall =>
    intro callee t tail hk iha iht x rest h
    simp only [callTail.eq_2, hk, if_true] at h
    obtain ⟨args, r1, h1, ha, h⟩ := Yields.of_bind h
    obtain ⟨x', r2, _, hx, h⟩ := Yields.of_bind h
    obtain ⟨rfl, rfl⟩ := Yields.of_pure h
    exact (((iha args r1 ha).mono_base (List.nil_subset _)).trans (iht args r1 h1 x' r2 hx)).cons t
  case callTailField =>
    intro callee t tail hl hd iht x rest h
    simp only [callTail.eq_2, hd, if_true] at h
    obtain ⟨n, r1, h1, hn, h⟩ := Yields.of_bind h
    obtain ⟨x', r2, _, hx, h⟩ := Yields.of_bind h
    obtain ⟨rfl, rfl⟩ := Yields.of_pure h
    exact ((iht n r1 h1 x' r2 hx).skip (expect_suffix hn)).cons t
  case callTailStop =>
    intro callee t tail hl hd x rest h
    simp only [callTail.eq_2, hl, hd, if_false] at h
    obtain ⟨rfl, rfl⟩ := Yields.of_ok h
    exact Reads.refl _ _
  case callArgsSome =>
    intro ts close r ha xs rest h
    simp only [callArgs.eq_1, ha] at h
    obtain ⟨rfl, rfl⟩ := Yields.of_ok h
    exact (Reads.refl r.1 []).skip (accept_suffix ha)
  case callArgsNone =>
    intro ts ha ih xs rest h
    simp only [callArgs.eq_1, ha] at h
    exact ih xs rest h
  case argsFull =>
    intro acc ts hfull xs rest h
    rw [argsFrom.eq_1, if_pos hfull] at h
    exact (Yields.of_error h).elim
  case argsFrom =>
    intro acc ts hroom ihx ihs xs rest h
    rw [argsFrom.eq_1, if_neg hroom] at h
    obtain ⟨x, r1, h1, hx, h⟩ := Yields.of_bind h
    have harg := (ihx x r1 hx).mono_base (List.nil_subset (Expr.listLiterals acc.toList))
    dsimp only at h
    split at h
    · -- a comma: the further arguments continue the list with this one
      rename_i r2 h2 hc
      obtain ⟨xs', r3, _, hxs, h⟩ := Yields.of_bind h
      obtain ⟨rfl, rfl⟩ := Yields.of_pure h
      have hmore := ihs x r1 h1 r2 h2 xs' r3 hxs
      rw [Expr.listLiterals_push] at hmore
      exact (harg.drop (accept_suffix hc)).trans hmore
    · obtain ⟨_, r2, _, hr, h⟩ := Yields.of_bind h
      obtain ⟨rfl, rfl⟩ := Yields.of_pure h
      rw [Expr.listLiterals_push]
      exact (harg.drop (expect_suffix hr)).base_append

/-! ### Statements -/

section Statements

variable {e : Pos}

theorem paramsFrom_suffix {name : Scalar} :
    ∀ {acc : Array Scalar} {ts : List Token} {ps : List Scalar} {rest : List Token},
      Yields (paramsFrom e name acc ts) ps rest → rest <:+ ts := by
  intro acc ts
  induction acc, ts using paramsFrom.induct with
  | case1 acc ts hfull =>
    intro ps rest h
    rw [paramsFrom.eq_1, if_pos hfull] at h
    exact (Yields.of_error h).elim
  | case2 acc ts hroom ih =>
    intro ps rest h
    rw [paramsFrom.eq_1, if_neg hroom] at h
    obtain ⟨p, r1, h1, hp, h⟩ := Yields.of_bind h
    dsimp only at h
    split at h
    · rename_i r2 h2 hc
      obtain ⟨ps', r3, _, hps, h⟩ := Yields.of_bind h
      obtain ⟨rfl, rfl⟩ := Yields.of_pure h
      exact ((ih p r1 h1 r2 h2 hps).trans (accept_suffix hc)).trans (expect_suffix hp)
    · obtain ⟨_, r2, _, hr, h⟩ := Yields.of_bind h
      obtain ⟨rfl, rfl⟩ := Yields.of_pure h
      exact (expect_suffix hr).trans (expect_suffix hp)

/-- A parameter list gives no constants. -/
theorem paramList_literals {name : Scalar} {ts : List Token} {ps : List Scalar} {rest : List Token}
    (h : Yields (paramList e name ts) ps rest) (base : List Scalar) : Reads ts base base rest := by
  refine (Reads.refl rest base).skip ?_
  unfold paramList at h
  split at h
  · rename_i close r ha
    obtain ⟨-, rfl⟩ := Yields.of_ok h
    exact accept_suffix ha
  · exact paramsFrom_suffix h

theorem exprUnless_literals {k : Token.Kind} {ts : List Token} {ox : Option Expr}
    {rest : List Token} (h : Yields (exprUnless e k ts) ox rest) :
    Reads ts [] (ox.elim [] Expr.literals) rest := by
  unfold exprUnless at h
  split at h
  · obtain ⟨rfl, rfl⟩ := Yields.of_ok h
    exact Reads.refl ts []
  · obtain ⟨x, r1, _, hx, h⟩ := Yields.of_bind h
    obtain ⟨rfl, rfl⟩ := Yields.of_pure h
    exact (exprProvenance e).expression ts x r1 hx

theorem exprStmt_literals {ts : List Token} {s : Stmt} {rest : List Token}
    (h : Yields (exprStmt e ts) s rest) : Reads ts [] s.literals rest := by
  unfold exprStmt at h
  obtain ⟨x, r1, _, hx, h⟩ := Yields.of_bind h
  obtain ⟨_, r2, _, hr, h⟩ := Yields.of_bind h
  obtain ⟨rfl, rfl⟩ := Yields.of_pure h
  exact ((exprProvenance e).expression ts x r1 hx).drop (expect_suffix hr)

theorem letRest_literals {ts : List Token} {s : Stmt} {rest : List Token}
    (h : Yields (letRest e ts) s rest) : Reads ts [] s.literals rest := by
  unfold letRest at h
  obtain ⟨n, r1, _, hn, h⟩ := Yields.of_bind h
  dsimp only at h
  split at h
  · rename_i r2 _ ha
    obtain ⟨x, r3, _, hx, h⟩ := Yields.of_bind h
    obtain ⟨_, r4, _, hr, h⟩ := Yields.of_bind h
    obtain ⟨rfl, rfl⟩ := Yields.of_pure h
    exact ((((exprProvenance e).expression r2 x r3 hx).drop (expect_suffix hr)).skip
      (accept_suffix ha)).skip (expect_suffix hn)
  · obtain ⟨_, r2, _, hr, h⟩ := Yields.of_bind h
    obtain ⟨rfl, rfl⟩ := Yields.of_pure h
    exact ((Reads.refl r2 []).skip (expect_suffix hr)).skip (expect_suffix hn)

theorem returnRest_literals {ts : List Token} {s : Stmt} {rest : List Token}
    (h : Yields (returnRest e ts) s rest) : Reads ts [] s.literals rest := by
  unfold returnRest at h
  obtain ⟨value, r1, _, hv, h⟩ := Yields.of_bind h
  obtain ⟨_, r2, _, hr, h⟩ := Yields.of_bind h
  obtain ⟨rfl, rfl⟩ := Yields.of_pure h
  exact (exprUnless_literals hv).drop (expect_suffix hr)

theorem printArgs_literals :
    ∀ {acc : Array Expr} {ts : List Token} {xs : List Expr} {rest : List Token},
      Yields (printArgs e acc ts) xs rest →
        Reads ts (Expr.listLiterals acc.toList) (Expr.listLiterals xs) rest := by
  intro acc ts
  induction acc, ts using printArgs.induct with
  | case1 acc =>
    intro xs rest h
    rw [printArgs.eq_1] at h
    obtain ⟨rfl, rfl⟩ := Yields.of_ok h
    exact Reads.refl [] _
  | case2 acc t tail hc ih =>
    intro xs rest h
    simp only [printArgs.eq_2, hc, if_true] at h
    obtain ⟨x, r1, h1, hx, h⟩ := Yields.of_bind h
    obtain ⟨xs', r2, _, hxs, h⟩ := Yields.of_bind h
    obtain ⟨rfl, rfl⟩ := Yields.of_pure h
    have hmore := ih x r1 h1 hxs
    rw [Expr.listLiterals_push] at hmore
    exact ((((exprProvenance e).expression tail x r1 hx).mono_base
      (List.nil_subset _)).trans hmore).cons t
  | case3 acc t tail hc =>
    intro xs rest h
    simp only [printArgs.eq_2, hc, if_false] at h
    obtain ⟨rfl, rfl⟩ := Yields.of_ok h
    exact Reads.refl _ _

theorem printRest_literals {ts : List Token} {s : Stmt} {rest : List Token}
    (h : Yields (printRest e ts) s rest) : Reads ts [] s.literals rest := by
  unfold printRest at h
  obtain ⟨_, r1, _, hl, h⟩ := Yields.of_bind h
  obtain ⟨first, r2, _, hf, h⟩ := Yields.of_bind h
  obtain ⟨args, r3, _, ha, h⟩ := Yields.of_bind h
  obtain ⟨_, r4, _, hr, h⟩ := Yields.of_bind h
  obtain ⟨_, r5, _, hs, h⟩ := Yields.of_bind h
  obtain ⟨rfl, rfl⟩ := Yields.of_pure h
  have hargs := printArgs_literals ha
  simp only [Expr.listLiterals, List.append_nil] at hargs
  exact ((((exprProvenance e).expression r1 first r2 hf).trans hargs).drop
    ((expect_suffix hs).trans (expect_suffix hr))).skip (expect_suffix hl)

theorem forInit_literals {ts : List Token} {o : Option Stmt} {rest : List Token}
    (h : Yields (forInit e ts) o rest) : Reads ts [] (o.elim [] Stmt.literals) rest := by
  match ts, h with
  | [], h =>
    obtain ⟨s, hs, rfl⟩ := Yields.of_map h
    exact exprStmt_literals hs
  | t :: r, h =>
    simp only [forInit] at h
    split at h
    · obtain ⟨rfl, rfl⟩ := Yields.of_ok h
      exact Reads.token t r []
    · split at h
      · obtain ⟨s, hs, rfl⟩ := Yields.of_map (Yields.of_cons h)
        exact (letRest_literals hs).cons t
      · obtain ⟨s, hs, rfl⟩ := Yields.of_map h
        exact exprStmt_literals hs

/-- Every statement reader gives constants of the tokens it took, after those of the
statements or functions it continues. -/
structure StmtProvenance (e : Pos) : Prop where
  functionRest : ∀ ts f rest, Yields (functionRest e ts) f rest → Reads ts [] f.literals rest
  blockRest : ∀ acc ts ss rest, Yields (blockRest e acc ts) ss rest →
    Reads ts (Stmt.listLiterals acc.toList) (Stmt.listLiterals ss) rest
  declaration : ∀ ts s rest, Yields (declaration e ts) s rest → Reads ts [] s.literals rest
  classRest : ∀ ts s rest, Yields (classRest e ts) s rest → Reads ts [] s.literals rest
  methods : ∀ name acc ts fs rest, Yields (methods e name acc ts) fs rest →
    Reads ts (Func.listLiterals acc.toList) (Func.listLiterals fs) rest
  statement : ∀ ts s rest, Yields (statement e ts) s rest → Reads ts [] s.literals rest
  whileRest : ∀ ts s rest, Yields (whileRest e ts) s rest → Reads ts [] s.literals rest
  ifRest : ∀ ts s rest, Yields (ifRest e ts) s rest → Reads ts [] s.literals rest
  forRest : ∀ ts s rest, Yields (forRest e ts) s rest → Reads ts [] s.literals rest

theorem stmtProvenance (e : Pos) : StmtProvenance e := by
  refine (fun ⟨h1, h2, h3, h4, h5, h6, h7, h8, h9⟩ => ⟨h1, h2, h3, h4, h5, h6, h7, h8, h9⟩)
    (functionRest.mutual_induct
    (fun ts => ∀ f rest, Yields (functionRest e ts) f rest → Reads ts [] f.literals rest)
    (fun acc ts => ∀ ss rest, Yields (blockRest e acc ts) ss rest →
      Reads ts (Stmt.listLiterals acc.toList) (Stmt.listLiterals ss) rest)
    (fun ts => ∀ s rest, Yields (declaration e ts) s rest → Reads ts [] s.literals rest)
    (fun ts => ∀ s rest, Yields (classRest e ts) s rest → Reads ts [] s.literals rest)
    (fun name acc ts => ∀ fs rest, Yields (methods e name acc ts) fs rest →
      Reads ts (Func.listLiterals acc.toList) (Func.listLiterals fs) rest)
    (fun ts => ∀ s rest, Yields (statement e ts) s rest → Reads ts [] s.literals rest)
    (fun ts => ∀ s rest, Yields (whileRest e ts) s rest → Reads ts [] s.literals rest)
    (fun ts => ∀ s rest, Yields (ifRest e ts) s rest → Reads ts [] s.literals rest)
    (fun ts => ∀ s rest, Yields (forRest e ts) s rest → Reads ts [] s.literals rest)
    ?functionRest ?blockNil ?blockClose ?blockDecl
    ?declNil ?declLet ?declFn ?declClass ?declOther
    ?classRest ?methodsNil ?methodsClose ?methodsFunc
    ?stmtNil ?stmtFor ?stmtIf ?stmtReturn ?stmtPrint ?stmtWhile ?stmtBlock ?stmtOther
    ?whileRest ?ifRest ?forRest)
  case functionRest =>
    intro ts ih f rest h
    rw [functionRest.eq_1] at h
    obtain ⟨n, r1, h1, hn, h⟩ := Yields.of_bind h
    obtain ⟨_, r2, h2, hl, h⟩ := Yields.of_bind h
    obtain ⟨ps, r3, h3, hps, h⟩ := Yields.of_bind h
    obtain ⟨_, r4, h4, hb, h⟩ := Yields.of_bind h
    obtain ⟨body, r5, _, hbody, h⟩ := Yields.of_bind h
    obtain ⟨rfl, rfl⟩ := Yields.of_pure h
    exact ((((ih r1 h1 r2 h2 r3 h3 r4 h4 body r5 hbody).skip (expect_suffix hb)).skip
      (paramList_literals hps []).1).skip (expect_suffix hl)).skip (expect_suffix hn)
  case blockNil =>
    intro acc ss rest h
    rw [blockRest.eq_1] at h
    exact (Yields.of_error h).elim
  case blockClose =>
    intro acc t tail hk ss rest h
    simp only [blockRest.eq_2, hk, if_true] at h
    obtain ⟨rfl, rfl⟩ := Yields.of_ok h
    exact Reads.token t tail _
  case blockDecl =>
    intro acc t tail hk ihs ihb ss rest h
    simp only [blockRest.eq_2, hk, if_false] at h
    obtain ⟨s, r1, h1, hs, h⟩ := Yields.of_bind h
    obtain ⟨ss', r2, _, hss, h⟩ := Yields.of_bind h
    obtain ⟨rfl, rfl⟩ := Yields.of_pure h
    have hmore := ihb s r1 h1 ss' r2 hss
    rw [Stmt.listLiterals_push] at hmore
    exact ((ihs s r1 hs).mono_base (List.nil_subset _)).trans hmore
  case declNil =>
    intro ih s rest h
    rw [declaration.eq_1] at h
    exact ih s rest h
  case declLet =>
    intro t tail hk s rest h
    simp only [declaration.eq_2, hk] at h
    exact (letRest_literals (Yields.of_cons h)).cons t
  case declFn =>
    intro t tail hk ih s rest h
    simp only [declaration.eq_2, hk] at h
    obtain ⟨f, hf, rfl⟩ := Yields.of_map (Yields.of_cons h)
    exact (ih f rest hf).cons t
  case declClass =>
    intro t tail hk ih s rest h
    simp only [declaration.eq_2, hk] at h
    exact (ih s rest (Yields.of_cons h)).cons t
  case declOther =>
    intro t tail h1 h2 h3 ih s rest h
    rw [declaration.eq_2] at h
    split at h <;> first | contradiction | exact ih s rest h
  case classRest =>
    intro ts ih s rest h
    rw [classRest.eq_1] at h
    obtain ⟨n, r1, h1, hn, h⟩ := Yields.of_bind h
    obtain ⟨_, r2, h2, hb, h⟩ := Yields.of_bind h
    obtain ⟨ms, r3, _, hms, h⟩ := Yields.of_bind h
    obtain ⟨rfl, rfl⟩ := Yields.of_pure h
    exact ((ih n r1 h1 r2 h2 ms r3 hms).skip (expect_suffix hb)).skip (expect_suffix hn)
  case methodsNil =>
    intro name acc fs rest h
    rw [methods.eq_1] at h
    exact (Yields.of_error h).elim
  case methodsClose =>
    intro name acc t tail hk fs rest h
    simp only [methods.eq_2, hk, if_true] at h
    obtain ⟨rfl, rfl⟩ := Yields.of_ok h
    exact Reads.token t tail _
  case methodsFunc =>
    intro name acc t tail hk ihf ihm fs rest h
    simp only [methods.eq_2, hk, if_false] at h
    obtain ⟨f, r1, h1, hf, h⟩ := Yields.of_bind h
    obtain ⟨fs', r2, _, hfs, h⟩ := Yields.of_bind h
    obtain ⟨rfl, rfl⟩ := Yields.of_pure h
    have hmore := ihm f r1 h1 fs' r2 hfs
    rw [Func.listLiterals_push] at hmore
    exact ((ihf f r1 hf).mono_base (List.nil_subset _)).trans hmore
  case stmtNil =>
    intro s rest h
    rw [statement.eq_1] at h
    exact exprStmt_literals h
  case stmtFor | stmtIf | stmtWhile =>
    intro t tail hk ih s rest h
    simp only [statement.eq_2, hk] at h
    exact (ih s rest (Yields.of_cons h)).cons t
  case stmtReturn =>
    intro t tail hk s rest h
    simp only [statement.eq_2, hk] at h
    exact (returnRest_literals (Yields.of_cons h)).cons t
  case stmtPrint =>
    intro t tail hk s rest h
    simp only [statement.eq_2, hk] at h
    exact (printRest_literals (Yields.of_cons h)).cons t
  case stmtBlock =>
    intro t tail hk ih s rest h
    simp only [statement.eq_2, hk] at h
    obtain ⟨ss, hss, rfl⟩ := Yields.of_map (Yields.of_cons h)
    exact (ih ss rest hss).cons t
  case stmtOther =>
    intro t tail h1 h2 h3 h4 h5 h6 s rest h
    rw [statement.eq_2] at h
    split at h <;> first | contradiction | exact exprStmt_literals h
  case whileRest =>
    intro ts ih s rest h
    rw [whileRest.eq_1] at h
    obtain ⟨_, r1, h1, hl, h⟩ := Yields.of_bind h
    obtain ⟨test, r2, h2, htest, h⟩ := Yields.of_bind h
    obtain ⟨_, r3, h3, hr, h⟩ := Yields.of_bind h
    obtain ⟨body, r4, _, hbody, h⟩ := Yields.of_bind h
    obtain ⟨rfl, rfl⟩ := Yields.of_pure h
    exact ((((exprProvenance e).expression r1 test r2 htest).drop (expect_suffix hr)).seq
      (ih r1 h1 r2 h2 r3 h3 body r4 hbody)).skip (expect_suffix hl)
  case ifRest =>
    intro ts ihy ihn s rest h
    rw [ifRest.eq_1] at h
    obtain ⟨_, r1, h1, hl, h⟩ := Yields.of_bind h
    obtain ⟨test, r2, h2, htest, h⟩ := Yields.of_bind h
    obtain ⟨_, r3, h3, hr, h⟩ := Yields.of_bind h
    obtain ⟨yes, r4, h4, hyes, h⟩ := Yields.of_bind h
    have hthen := (((exprProvenance e).expression r1 test r2 htest).drop (expect_suffix hr)).seq
      (ihy r1 h1 r2 h2 r3 h3 yes r4 hyes)
    dsimp only at h
    split at h
    · -- an else branch follows
      rename_i r5 h5 ha
      obtain ⟨no, r6, _, hno, h⟩ := Yields.of_bind h
      obtain ⟨rfl, rfl⟩ := Yields.of_pure h
      exact ((hthen.drop (accept_suffix ha)).seq
        (ihn r1 h1 r2 h2 r3 h3 r4 h4 r5 h5 no r6 hno)).skip (expect_suffix hl)
    · obtain ⟨rfl, rfl⟩ := Yields.of_pure h
      refine (hthen.skip (expect_suffix hl)).mono_lits ?_
      simp only [Stmt.literals, Stmt.elseLiterals, List.append_nil]
      exact List.Subset.refl _
  case forRest =>
    intro ts ih s rest h
    rw [forRest.eq_1] at h
    obtain ⟨_, r1, h1, hl, h⟩ := Yields.of_bind h
    obtain ⟨init, r2, h2, hinit, h⟩ := Yields.of_bind h
    obtain ⟨test, r3, h3, htest, h⟩ := Yields.of_bind h
    obtain ⟨_, r4, h4, hs, h⟩ := Yields.of_bind h
    obtain ⟨update, r5, h5, hupdate, h⟩ := Yields.of_bind h
    obtain ⟨_, r6, h6, hr, h⟩ := Yields.of_bind h
    obtain ⟨body, r7, _, hbody, h⟩ := Yields.of_bind h
    obtain ⟨rfl, rfl⟩ := Yields.of_pure h
    have hclauses := (((((forInit_literals hinit).seq (exprUnless_literals htest)).drop
      (expect_suffix hs)).seq (exprUnless_literals hupdate)).drop (expect_suffix hr)).seq
      (ih r1 h1 r2 h2 r3 h3 r4 h4 r5 h5 r6 h6 body r7 hbody)
    exact (hclauses.skip (expect_suffix hl)).widen (Stmt.literals_forLoop init test update body)

theorem ok_of_bind_eq_ok {ε α β : Type} {x : Except ε α} {f : α → Except ε β} {b : β}
    (h : (x >>= f) = .ok b) : ∃ a, x = .ok a ∧ f a = .ok b := by
  cases x with
  | error e => cases h
  | ok a => exact ⟨a, rfl, h⟩

theorem ok_of_map_eq_ok {ε α β : Type} {x : Except ε α} {f : α → β} {b : β}
    (h : x.map f = .ok b) : ∃ a, x = .ok a ∧ f a = b := by
  cases x with
  | error e => cases h
  | ok a =>
    cases h
    exact ⟨a, rfl, rfl⟩

/-- The declarations read to the end give constants of their tokens, after those of the
declarations read before them. -/
theorem declarations_literals :
    ∀ {acc : Array Stmt} {ts : List Token} {ss : List Stmt}, declarations e acc ts = .ok ss →
      Reads ts (Stmt.listLiterals acc.toList) (Stmt.listLiterals ss) [] := by
  intro acc ts
  induction acc, ts using declarations.induct with
  | case1 acc =>
    intro ss h
    rw [declarations.eq_1] at h
    cases h
    exact Reads.refl [] _
  | case2 acc t tail ih =>
    intro ss h
    rw [declarations.eq_2] at h
    obtain ⟨⟨s, rest⟩, hs, h⟩ := ok_of_bind_eq_ok h
    have hread : Yields (declaration e (t :: tail)) s rest.1 := by
      rw [hs]
      rfl
    have hmore := ih s rest h
    rw [Stmt.listLiterals_push] at hmore
    exact (((stmtProvenance e).declaration _ s _ hread).mono_base (List.nil_subset _)).trans hmore

end Statements

end Syntax

/-- Every constant of a program read from tokens is the payload of one of the tokens, or nil,
or `true`. -/
theorem Program.ofTokens_literals {ts : List Token} {p : Program} (h : Program.ofTokens? ts = .ok p) :
    ∀ s ∈ p.literals, Syntax.Sourced ts s := by
  unfold Program.ofTokens? at h
  split at h
  · split at h
    · -- the reads run on the tokens before the first end token
      dsimp only at h
      obtain ⟨ss, hss, rfl⟩ := Syntax.ok_of_map_eq_ok h
      intro s hs
      exact Syntax.Reads.sourced_mono (List.takeWhile_sublist _).subset
        ((Syntax.declarations_literals hss).of_nil s hs)
    · cases h
  · cases h

end Ember
