import Mathlib.Control.Monad.Basic
import Ember.Syntax.Source
import Ember.Proofs.Provenance
import Ember.Proofs.TokenSpelling
/-!
Operator nodes carry their operators' spellings.

A node of an infix or prefix operator keeps the operator and the lexeme of the token it was
read from. The evaluator applies the operator; a tree whose lexemes named other operators, or
none, would be evaluated by an operator it was not written with. On every program read from
text the two agree: each operator node carries the spelling of its operator as its lexeme
(`Program.spelled`), so every lexeme of a node of `+ - * / ** < <= > >= == !=` is that
operator, of `&& ||` that connective and of `! -` that prefix operator.

The proof has three steps. The scanner gives each operator token its spelling
(`Token.scan_spelled`). The token kind of an operator of a level, or of a prefix operator, is
spelled as the operator (`Level.infix?_spelling`, `UnaryOp.ofKind?_spelling`). And every
reader, given tokens that carry their spellings, gives a tree whose operator nodes carry
theirs (`ExprSpelling`, `StmtSpelling`), by the functional induction of the readers, as the
constants are traced in `Provenance`.

The comparisons are one level: a read of it takes every `==` and `!=`, so none follows an
expression of that level (`compare_stops_before_equality`), and a loop on equality operators
after it would never run.
-/

namespace Ember

/-- The spelling of an infix operator. -/
def Infix.symbol : Infix → String
  | .logical o => o.symbol
  | .binary o => o.symbol

mutual

/-- Whether every operator node of an expression carries the spelling of its operator as its
lexeme. -/
def Expr.spelled : Expr → Bool
  | .literal _ | .var _ | .thisRef => true
  | .assign _ v => v.spelled
  | .setField t _ v => t.spelled && v.spelled
  | .logical op lx l r => lx == .text op.symbol && l.spelled && r.spelled
  | .binary op lx l r => lx == .text op.symbol && l.spelled && r.spelled
  | .unary op lx x => lx == .text op.symbol && x.spelled
  | .group x => x.spelled
  | .call c args => c.spelled && Expr.allSpelled args
  | .getField t _ => t.spelled

/-- Whether every expression of a list carries its operators' spellings. -/
def Expr.allSpelled : List Expr → Bool
  | [] => true
  | x :: xs => x.spelled && Expr.allSpelled xs

end

mutual

/-- Whether every operator node of a statement, the bodies of its functions included, carries
the spelling of its operator. -/
def Stmt.spelled : Stmt → Bool
  | .letDecl _ init => init.all Expr.spelled
  | .block ss => Stmt.allSpelled ss
  | .funDecl f => f.spelled
  | .classDecl _ ms => Func.allSpelled ms
  | .expr x => x.spelled
  | .ifElse c yes no => c.spelled && yes.spelled && Stmt.elseSpelled no
  | .print args => Expr.allSpelled args
  | .whileLoop c body => c.spelled && body.spelled
  | .ret v => v.all Expr.spelled

/-- Whether an optional else branch carries its operators' spellings. -/
def Stmt.elseSpelled : Option Stmt → Bool
  | none => true
  | some s => s.spelled

/-- Whether every statement of a list carries its operators' spellings. -/
def Stmt.allSpelled : List Stmt → Bool
  | [] => true
  | s :: ss => s.spelled && Stmt.allSpelled ss

/-- Whether the body of a function carries its operators' spellings. -/
def Func.spelled : Func → Bool
  | ⟨_, _, body⟩ => Stmt.allSpelled body

/-- Whether every function of a list carries its operators' spellings. -/
def Func.allSpelled : List Func → Bool
  | [] => true
  | f :: fs => f.spelled && Func.allSpelled fs

end

/-- Whether every operator node of a program carries the spelling of its operator. -/
def Program.spelled (p : Program) : Bool :=
  Stmt.allSpelled p.body

/-! ### Lists of trees -/

theorem Expr.allSpelled_eq_all (xs : List Expr) : Expr.allSpelled xs = xs.all Expr.spelled := by
  induction xs with
  | nil => rfl
  | cons x xs ih => rw [Expr.allSpelled, ih, List.all_cons]

theorem Stmt.allSpelled_eq_all (ss : List Stmt) : Stmt.allSpelled ss = ss.all Stmt.spelled := by
  induction ss with
  | nil => rfl
  | cons s ss ih => rw [Stmt.allSpelled, ih, List.all_cons]

theorem Func.allSpelled_eq_all (fs : List Func) : Func.allSpelled fs = fs.all Func.spelled := by
  induction fs with
  | nil => rfl
  | cons f fs ih => rw [Func.allSpelled, ih, List.all_cons]

theorem Expr.allSpelled_push {acc : Array Expr} {x : Expr} (hacc : Expr.allSpelled acc.toList)
    (hx : x.spelled) : Expr.allSpelled (acc.push x).toList := by
  rw [Expr.allSpelled_eq_all] at hacc ⊢
  simp [hacc, hx]

theorem Stmt.allSpelled_push {acc : Array Stmt} {s : Stmt} (hacc : Stmt.allSpelled acc.toList)
    (hs : s.spelled) : Stmt.allSpelled (acc.push s).toList := by
  rw [Stmt.allSpelled_eq_all] at hacc ⊢
  simp [hacc, hs]

theorem Func.allSpelled_push {acc : Array Func} {f : Func} (hacc : Func.allSpelled acc.toList)
    (hf : f.spelled) : Func.allSpelled (acc.push f).toList := by
  rw [Func.allSpelled_eq_all] at hacc ⊢
  simp [hacc, hf]

theorem Infix.spelled_node (op : Infix) (lexeme : Scalar) (left right : Expr) :
    (op.node lexeme left right).spelled =
      (lexeme == .text op.symbol && left.spelled && right.spelled) := by
  cases op <;> rfl

/-- A `for` loop carries the spellings of its clauses and body; the `true` that stands for a
missing condition has no operator. -/
theorem Stmt.spelled_forLoop {init : Option Stmt} {test update : Option Expr} {body : Stmt}
    (hinit : init.all Stmt.spelled) (htest : test.all Expr.spelled)
    (hupdate : update.all Expr.spelled) (hbody : body.spelled) :
    (Stmt.forLoop init test update body).spelled := by
  cases init <;> cases test <;> cases update <;>
    simp_all [Stmt.forLoop, Stmt.spelled, Stmt.allSpelled, Expr.spelled]

/-! ### Operator tokens -/

/-- The token kind of an operator of a level is spelled as the operator. -/
theorem Level.infix?_spelling {L : Level} {k : Token.Kind} {op : Infix}
    (h : L.infix? k = some op) : k.spelling? = some op.symbol := by
  unfold Level.infix? at h
  split at h <;> first | (cases h; rfl) | cases h

/-- The token kind of a prefix operator is spelled as the operator. -/
theorem UnaryOp.ofKind?_spelling {k : Token.Kind} {op : UnaryOp}
    (h : UnaryOp.ofKind? k = some op) : k.spelling? = some op.symbol := by
  unfold UnaryOp.ofKind? at h
  split at h <;> first | (cases h; rfl) | cases h

/-- A spelled token of an infix operator has the operator's spelling as its lexeme. -/
theorem Token.Spelled.infix_lexeme {t : Token} {L : Level} {op : Infix} (ht : t.Spelled)
    (h : L.infix? t.kind = some op) : t.lexeme = .text op.symbol := by
  rcases ht _ (Level.infix?_spelling h) with hl | ⟨hk, -⟩
  · exact hl
  · rw [hk] at h
    cases L <;> cases h

/-- A spelled token of a prefix operator has the operator's spelling as its lexeme. -/
theorem Token.Spelled.unary_lexeme {t : Token} {op : UnaryOp} (ht : t.Spelled)
    (h : UnaryOp.ofKind? t.kind = some op) : t.lexeme = .text op.symbol := by
  rcases ht _ (UnaryOp.ofKind?_spelling h) with hl | ⟨hk, -⟩
  · exact hl
  · rw [hk] at h
    cases h

namespace Syntax

theorem spelled_of_suffix {r ts : List Token} (hs : r <:+ ts) (h : ∀ t ∈ ts, t.Spelled) :
    ∀ t ∈ r, t.Spelled :=
  fun t ht => h t (hs.subset ht)

theorem spelled_of_cons {t : Token} {ts : List Token} (h : ∀ t' ∈ t :: ts, t'.Spelled) :
    ∀ t' ∈ ts, t'.Spelled :=
  fun t' ht' => h t' (List.mem_cons_of_mem t ht')

/-! ### Expressions -/

/-- Every expression reader, given tokens that carry their spellings, gives a tree whose
operator nodes carry theirs, when the tree it continues does. -/
structure ExprSpelling (e : Pos) : Prop where
  primary : ∀ ts x rest, (∀ t ∈ ts, t.Spelled) → Yields (primary e ts) x rest → x.spelled
  expression : ∀ ts x rest, (∀ t ∈ ts, t.Spelled) →
    Yields (expression e ts) x rest → x.spelled
  infixExpr : ∀ lvl ts x rest, (∀ t ∈ ts, t.Spelled) →
    Yields (infixExpr e lvl ts) x rest → x.spelled
  infixTail : ∀ lvl left ts x rest, (∀ t ∈ ts, t.Spelled) → left.spelled →
    Yields (infixTail e lvl left ts) x rest → x.spelled
  operand : ∀ lvl ts x rest, (∀ t ∈ ts, t.Spelled) →
    Yields (operand e lvl ts) x rest → x.spelled
  prefixExpr : ∀ ts x rest, (∀ t ∈ ts, t.Spelled) →
    Yields (prefixExpr e ts) x rest → x.spelled
  callTail : ∀ callee ts x rest, (∀ t ∈ ts, t.Spelled) → callee.spelled →
    Yields (callTail e callee ts) x rest → x.spelled
  callArgs : ∀ ts xs rest, (∀ t ∈ ts, t.Spelled) →
    Yields (callArgs e ts) xs rest → Expr.allSpelled xs
  argsFrom : ∀ acc ts xs rest, (∀ t ∈ ts, t.Spelled) → Expr.allSpelled acc.toList →
    Yields (argsFrom e acc ts) xs rest → Expr.allSpelled xs

/-- The induction follows the readers' own recursion. The operator nodes are made in two
places, `infixTail` and `prefixExpr`, each from the token it has just taken; everywhere else
a reader puts together trees read by others. Each read after the first one runs on a suffix
of the tokens (`exprProvenance`), whose tokens carry their spellings too. -/
theorem exprSpelling (e : Pos) : ExprSpelling e := by
  have H := primary.mutual_induct
    (fun ts => ∀ x rest, (∀ t ∈ ts, t.Spelled) → Yields (primary e ts) x rest → x.spelled)
    (fun ts => ∀ x rest, (∀ t ∈ ts, t.Spelled) → Yields (expression e ts) x rest → x.spelled)
    (fun lvl ts => ∀ x rest, (∀ t ∈ ts, t.Spelled) →
      Yields (infixExpr e lvl ts) x rest → x.spelled)
    (fun lvl left ts => ∀ x rest, (∀ t ∈ ts, t.Spelled) → left.spelled →
      Yields (infixTail e lvl left ts) x rest → x.spelled)
    (fun lvl ts => ∀ x rest, (∀ t ∈ ts, t.Spelled) →
      Yields (operand e lvl ts) x rest → x.spelled)
    (fun ts => ∀ x rest, (∀ t ∈ ts, t.Spelled) → Yields (prefixExpr e ts) x rest → x.spelled)
    (fun callee ts => ∀ x rest, (∀ t ∈ ts, t.Spelled) → callee.spelled →
      Yields (callTail e callee ts) x rest → x.spelled)
    (fun ts => ∀ xs rest, (∀ t ∈ ts, t.Spelled) →
      Yields (callArgs e ts) xs rest → Expr.allSpelled xs)
    (fun acc ts => ∀ xs rest, (∀ t ∈ ts, t.Spelled) → Expr.allSpelled acc.toList →
      Yields (argsFrom e acc ts) xs rest → Expr.allSpelled xs)
    ?primaryNil ?integer ?string ?kwTrue ?kwFalse ?kwNil ?ident ?kwThis ?lparen ?unexpected
    ?expression ?infixExpr ?infixTailNil ?infixTailOp ?infixTailStop
    ?operandOr ?operandAnd ?operandCompare ?operandTerm ?operandFactor
    ?prefixNil ?prefixUnary ?prefixPrimary
    ?callTailNil ?callTailCall ?callTailField ?callTailStop
    ?callArgsSome ?callArgsNone ?argsFull ?argsFrom
  case primaryNil =>
    intro x rest _ h
    rw [primary.eq_1] at h
    exact (Yields.of_error h).elim
  case integer | string | kwTrue | kwFalse | kwNil | ident | kwThis =>
    intro t tail hk x rest _ h
    simp only [primary.eq_2, hk] at h
    obtain ⟨rfl, rfl⟩ := Yields.of_ok h
    rfl
  case lparen =>
    intro t tail hk ih x rest hts h
    simp only [primary.eq_2, hk] at h
    obtain ⟨x', r1, _, hx, h⟩ := Yields.of_bind h
    obtain ⟨_, r2, _, hr, h⟩ := Yields.of_bind h
    obtain ⟨rfl, rfl⟩ := Yields.of_pure h
    exact ih x' r1 (spelled_of_cons hts) hx
  case unexpected =>
    intro t tail h1 h2 h3 h4 h5 h6 h7 h8 x rest _ h
    rw [primary.eq_2] at h
    split at h <;> contradiction
  case expression =>
    intro ts ihl ihv x rest hts h
    rw [expression.eq_1] at h
    obtain ⟨left, r1, h1, hl, h⟩ := Yields.of_bind h
    have hleft := ihl left r1 hts hl
    have hr1 := ((exprProvenance e).infixExpr .or ts left r1 hl).1
    dsimp only at h
    split at h
    · -- an assignment: the value is read from the tokens after `=`
      rename_i eq r2 h2 ha
      obtain ⟨value, r3, _, hv, h⟩ := Yields.of_bind h
      have hvalue := ihv r1 h1 r2 h2 value r3
        (spelled_of_suffix ((accept_suffix ha).trans hr1) hts) hv
      dsimp only at h
      split at h
      · obtain ⟨rfl, rfl⟩ := Yields.of_pure h
        exact hvalue
      · obtain ⟨rfl, rfl⟩ := Yields.of_pure h
        simp only [Expr.spelled] at hleft ⊢
        simp [hleft, hvalue]
      · exact (Yields.of_throw h).elim
    · obtain ⟨rfl, rfl⟩ := Yields.of_pure h
      exact hleft
  case infixExpr =>
    intro lvl ts ihl iht x rest hts h
    rw [infixExpr.eq_1] at h
    obtain ⟨left, r1, h1, hl, h⟩ := Yields.of_bind h
    obtain ⟨x', r2, _, hx, h⟩ := Yields.of_bind h
    obtain ⟨rfl, rfl⟩ := Yields.of_pure h
    exact iht left r1 h1 x' r2
      (spelled_of_suffix ((exprProvenance e).operand lvl ts left r1 hl).1 hts)
      (ihl left r1 hts hl) hx
  case infixTailNil =>
    intro lvl left x rest _ hleft h
    rw [infixTail.eq_1] at h
    obtain ⟨rfl, rfl⟩ := Yields.of_ok h
    exact hleft
  case infixTailOp =>
    intro lvl left t tail op hop ihr iht x rest hts hleft h
    simp only [infixTail.eq_2, hop] at h
    obtain ⟨right, r1, h1, hr, h⟩ := Yields.of_bind h
    obtain ⟨x', r2, _, hx, h⟩ := Yields.of_bind h
    obtain ⟨rfl, rfl⟩ := Yields.of_pure h
    have hright := ihr right r1 (spelled_of_cons hts) hr
    -- the node takes the lexeme of the operator token, which is the operator's spelling
    have hnode : (op.node t.lexeme left right).spelled := by
      rw [Infix.spelled_node, (hts t List.mem_cons_self).infix_lexeme hop]
      simp [hleft, hright]
    exact iht right r1 h1 x' r2
      (spelled_of_suffix ((exprProvenance e).operand lvl tail right r1 hr).1
        (spelled_of_cons hts)) hnode hx
  case infixTailStop =>
    intro lvl left t tail hnone x rest _ hleft h
    simp only [infixTail.eq_2, hnone] at h
    obtain ⟨rfl, rfl⟩ := Yields.of_ok h
    exact hleft
  case operandOr | operandAnd | operandCompare | operandTerm | operandFactor =>
    intro ts ih x rest hts h
    rw [operand] at h
    exact ih x rest hts h
  case prefixNil =>
    intro ih x rest hts h
    rw [prefixExpr.eq_1] at h
    exact ih x rest hts h
  case prefixUnary =>
    intro t tail op hop ih x rest hts h
    simp only [prefixExpr.eq_2, hop] at h
    obtain ⟨x', r1, _, hx, h⟩ := Yields.of_bind h
    obtain ⟨rfl, rfl⟩ := Yields.of_pure h
    simp only [Expr.spelled, (hts t List.mem_cons_self).unary_lexeme hop, beq_self_eq_true,
      Bool.true_and]
    exact ih x' r1 (spelled_of_cons hts) hx
  case prefixPrimary =>
    intro t tail hnone ihp iht x rest hts h
    simp only [prefixExpr.eq_2, hnone] at h
    obtain ⟨p, r1, h1, hp, h⟩ := Yields.of_bind h
    obtain ⟨x', r2, _, hx, h⟩ := Yields.of_bind h
    obtain ⟨rfl, rfl⟩ := Yields.of_pure h
    exact iht p r1 h1 x' r2
      (spelled_of_suffix ((exprProvenance e).primary _ p r1 hp).1 hts) (ihp p r1 hts hp) hx
  case callTailNil =>
    intro callee x rest _ hcallee h
    rw [callTail.eq_1] at h
    obtain ⟨rfl, rfl⟩ := Yields.of_ok h
    exact hcallee
  case callTailCall =>
    intro callee t tail hk iha iht x rest hts hcallee h
    simp only [callTail.eq_2, hk, if_true] at h
    obtain ⟨args, r1, h1, ha, h⟩ := Yields.of_bind h
    obtain ⟨x', r2, _, hx, h⟩ := Yields.of_bind h
    obtain ⟨rfl, rfl⟩ := Yields.of_pure h
    have hargs := iha args r1 (spelled_of_cons hts) ha
    exact iht args r1 h1 x' r2
      (spelled_of_suffix ((exprProvenance e).callArgs tail args r1 ha).1 (spelled_of_cons hts))
      (by simp [Expr.spelled, hcallee, hargs]) hx
  case callTailField =>
    intro callee t tail hl hd iht x rest hts hcallee h
    simp only [callTail.eq_2, hd, if_true] at h
    obtain ⟨n, r1, h1, hn, h⟩ := Yields.of_bind h
    obtain ⟨x', r2, _, hx, h⟩ := Yields.of_bind h
    obtain ⟨rfl, rfl⟩ := Yields.of_pure h
    exact iht n r1 h1 x' r2 (spelled_of_suffix (expect_suffix hn) (spelled_of_cons hts))
      hcallee hx
  case callTailStop =>
    intro callee t tail hl hd x rest _ hcallee h
    simp only [callTail.eq_2, hl, hd, if_false] at h
    obtain ⟨rfl, rfl⟩ := Yields.of_ok h
    exact hcallee
  case callArgsSome =>
    intro ts close r ha xs rest _ h
    simp only [callArgs.eq_1, ha] at h
    obtain ⟨rfl, rfl⟩ := Yields.of_ok h
    rfl
  case callArgsNone =>
    intro ts ha ih xs rest hts h
    simp only [callArgs.eq_1, ha] at h
    exact ih xs rest hts rfl h
  case argsFull =>
    intro acc ts hfull xs rest _ _ h
    rw [argsFrom.eq_1, if_pos hfull] at h
    exact (Yields.of_error h).elim
  case argsFrom =>
    intro acc ts hroom ihx ihs xs rest hts hacc h
    rw [argsFrom.eq_1, if_neg hroom] at h
    obtain ⟨x, r1, h1, hx, h⟩ := Yields.of_bind h
    have hpush := Expr.allSpelled_push hacc (ihx x r1 hts hx)
    have hr1 := ((exprProvenance e).expression ts x r1 hx).1
    dsimp only at h
    split at h
    · -- a comma: the further arguments continue the list with this one
      rename_i r2 h2 hc
      obtain ⟨xs', r3, _, hxs, h⟩ := Yields.of_bind h
      obtain ⟨rfl, rfl⟩ := Yields.of_pure h
      exact ihs x r1 h1 r2 h2 xs' r3 (spelled_of_suffix ((accept_suffix hc).trans hr1) hts)
        hpush hxs
    · obtain ⟨_, r2, _, hr, h⟩ := Yields.of_bind h
      obtain ⟨rfl, rfl⟩ := Yields.of_pure h
      exact hpush
  obtain ⟨h1, h2, h3, h4, h5, h6, h7, h8, h9⟩ := H
  exact ⟨h1, h2, h3, h4, h5, h6, h7, h8, h9⟩

/-! ### Statements -/

section Statements

variable {e : Pos}

theorem exprUnless_spelled {k : Token.Kind} {ts : List Token} {ox : Option Expr}
    {rest : List Token} (hts : ∀ t ∈ ts, t.Spelled) (h : Yields (exprUnless e k ts) ox rest) :
    ox.all Expr.spelled := by
  unfold exprUnless at h
  split at h
  · obtain ⟨rfl, rfl⟩ := Yields.of_ok h
    rfl
  · obtain ⟨x, r1, _, hx, h⟩ := Yields.of_bind h
    obtain ⟨rfl, rfl⟩ := Yields.of_pure h
    exact (exprSpelling e).expression ts x r1 hts hx

theorem exprStmt_spelled {ts : List Token} {s : Stmt} {rest : List Token}
    (hts : ∀ t ∈ ts, t.Spelled) (h : Yields (exprStmt e ts) s rest) : s.spelled := by
  unfold exprStmt at h
  obtain ⟨x, r1, _, hx, h⟩ := Yields.of_bind h
  obtain ⟨_, r2, _, hr, h⟩ := Yields.of_bind h
  obtain ⟨rfl, rfl⟩ := Yields.of_pure h
  exact (exprSpelling e).expression ts x r1 hts hx

theorem letRest_spelled {ts : List Token} {s : Stmt} {rest : List Token}
    (hts : ∀ t ∈ ts, t.Spelled) (h : Yields (letRest e ts) s rest) : s.spelled := by
  unfold letRest at h
  obtain ⟨n, r1, _, hn, h⟩ := Yields.of_bind h
  dsimp only at h
  split at h
  · rename_i r2 _ ha
    obtain ⟨x, r3, _, hx, h⟩ := Yields.of_bind h
    obtain ⟨_, r4, _, hr, h⟩ := Yields.of_bind h
    obtain ⟨rfl, rfl⟩ := Yields.of_pure h
    exact (exprSpelling e).expression r2 x r3
      (spelled_of_suffix ((accept_suffix ha).trans (expect_suffix hn)) hts) hx
  · obtain ⟨_, r2, _, hr, h⟩ := Yields.of_bind h
    obtain ⟨rfl, rfl⟩ := Yields.of_pure h
    rfl

theorem returnRest_spelled {ts : List Token} {s : Stmt} {rest : List Token}
    (hts : ∀ t ∈ ts, t.Spelled) (h : Yields (returnRest e ts) s rest) : s.spelled := by
  unfold returnRest at h
  obtain ⟨value, r1, _, hv, h⟩ := Yields.of_bind h
  obtain ⟨_, r2, _, hr, h⟩ := Yields.of_bind h
  obtain ⟨rfl, rfl⟩ := Yields.of_pure h
  exact exprUnless_spelled hts hv

theorem printArgs_spelled :
    ∀ {acc : Array Expr} {ts : List Token} {xs : List Expr} {rest : List Token},
      (∀ t ∈ ts, t.Spelled) → Expr.allSpelled acc.toList →
        Yields (printArgs e acc ts) xs rest → Expr.allSpelled xs := by
  intro acc ts
  induction acc, ts using printArgs.induct with
  | case1 acc =>
    intro xs rest _ hacc h
    rw [printArgs.eq_1] at h
    obtain ⟨rfl, rfl⟩ := Yields.of_ok h
    exact hacc
  | case2 acc t tail hc ih =>
    intro xs rest hts hacc h
    simp only [printArgs.eq_2, hc, if_true] at h
    obtain ⟨x, r1, h1, hx, h⟩ := Yields.of_bind h
    obtain ⟨xs', r2, _, hxs, h⟩ := Yields.of_bind h
    obtain ⟨rfl, rfl⟩ := Yields.of_pure h
    have hx' := (exprSpelling e).expression tail x r1 (spelled_of_cons hts) hx
    exact ih x r1 h1
      (spelled_of_suffix ((exprProvenance e).expression tail x r1 hx).1 (spelled_of_cons hts))
      (Expr.allSpelled_push hacc hx') hxs
  | case3 acc t tail hc =>
    intro xs rest _ hacc h
    simp only [printArgs.eq_2, hc, if_false] at h
    obtain ⟨rfl, rfl⟩ := Yields.of_ok h
    exact hacc

theorem printRest_spelled {ts : List Token} {s : Stmt} {rest : List Token}
    (hts : ∀ t ∈ ts, t.Spelled) (h : Yields (printRest e ts) s rest) : s.spelled := by
  unfold printRest at h
  obtain ⟨_, r1, _, hl, h⟩ := Yields.of_bind h
  obtain ⟨first, r2, _, hf, h⟩ := Yields.of_bind h
  obtain ⟨args, r3, _, ha, h⟩ := Yields.of_bind h
  obtain ⟨_, r4, _, hr, h⟩ := Yields.of_bind h
  obtain ⟨_, r5, _, hs, h⟩ := Yields.of_bind h
  obtain ⟨rfl, rfl⟩ := Yields.of_pure h
  have hr1 := spelled_of_suffix (expect_suffix hl) hts
  have hfirst := (exprSpelling e).expression r1 first r2 hr1 hf
  exact printArgs_spelled (spelled_of_suffix ((exprProvenance e).expression r1 first r2 hf).1 hr1)
    (by simp [Expr.allSpelled, hfirst]) ha

theorem forInit_spelled {ts : List Token} {o : Option Stmt} {rest : List Token}
    (hts : ∀ t ∈ ts, t.Spelled) (h : Yields (forInit e ts) o rest) : o.all Stmt.spelled := by
  cases ts with
  | nil =>
    obtain ⟨s, hs, rfl⟩ := Yields.of_map h
    exact exprStmt_spelled hts hs
  | cons t r =>
    simp only [forInit] at h
    split at h
    · obtain ⟨rfl, rfl⟩ := Yields.of_ok h
      rfl
    · split at h
      · obtain ⟨s, hs, rfl⟩ := Yields.of_map (Yields.of_cons h)
        exact letRest_spelled (spelled_of_cons hts) hs
      · obtain ⟨s, hs, rfl⟩ := Yields.of_map h
        exact exprStmt_spelled hts hs

/-- Every statement reader, given tokens that carry their spellings, gives statements and
functions whose operator nodes carry theirs, when those it continues do. -/
structure StmtSpelling (e : Pos) : Prop where
  functionRest : ∀ ts f rest, (∀ t ∈ ts, t.Spelled) →
    Yields (functionRest e ts) f rest → f.spelled
  blockRest : ∀ acc ts ss rest, (∀ t ∈ ts, t.Spelled) → Stmt.allSpelled acc.toList →
    Yields (blockRest e acc ts) ss rest → Stmt.allSpelled ss
  declaration : ∀ ts s rest, (∀ t ∈ ts, t.Spelled) →
    Yields (declaration e ts) s rest → s.spelled
  classRest : ∀ ts s rest, (∀ t ∈ ts, t.Spelled) → Yields (classRest e ts) s rest → s.spelled
  methods : ∀ name acc ts fs rest, (∀ t ∈ ts, t.Spelled) → Func.allSpelled acc.toList →
    Yields (methods e name acc ts) fs rest → Func.allSpelled fs
  statement : ∀ ts s rest, (∀ t ∈ ts, t.Spelled) → Yields (statement e ts) s rest → s.spelled
  whileRest : ∀ ts s rest, (∀ t ∈ ts, t.Spelled) → Yields (whileRest e ts) s rest → s.spelled
  ifRest : ∀ ts s rest, (∀ t ∈ ts, t.Spelled) → Yields (ifRest e ts) s rest → s.spelled
  forRest : ∀ ts s rest, (∀ t ∈ ts, t.Spelled) → Yields (forRest e ts) s rest → s.spelled

theorem stmtSpelling (e : Pos) : StmtSpelling e := by
  have H := functionRest.mutual_induct
    (fun ts => ∀ f rest, (∀ t ∈ ts, t.Spelled) → Yields (functionRest e ts) f rest → f.spelled)
    (fun acc ts => ∀ ss rest, (∀ t ∈ ts, t.Spelled) → Stmt.allSpelled acc.toList →
      Yields (blockRest e acc ts) ss rest → Stmt.allSpelled ss)
    (fun ts => ∀ s rest, (∀ t ∈ ts, t.Spelled) → Yields (declaration e ts) s rest → s.spelled)
    (fun ts => ∀ s rest, (∀ t ∈ ts, t.Spelled) → Yields (classRest e ts) s rest → s.spelled)
    (fun name acc ts => ∀ fs rest, (∀ t ∈ ts, t.Spelled) → Func.allSpelled acc.toList →
      Yields (methods e name acc ts) fs rest → Func.allSpelled fs)
    (fun ts => ∀ s rest, (∀ t ∈ ts, t.Spelled) → Yields (statement e ts) s rest → s.spelled)
    (fun ts => ∀ s rest, (∀ t ∈ ts, t.Spelled) → Yields (whileRest e ts) s rest → s.spelled)
    (fun ts => ∀ s rest, (∀ t ∈ ts, t.Spelled) → Yields (ifRest e ts) s rest → s.spelled)
    (fun ts => ∀ s rest, (∀ t ∈ ts, t.Spelled) → Yields (forRest e ts) s rest → s.spelled)
    ?functionRest ?blockNil ?blockClose ?blockDecl
    ?declNil ?declLet ?declFn ?declClass ?declOther
    ?classRest ?methodsNil ?methodsClose ?methodsFunc
    ?stmtNil ?stmtFor ?stmtIf ?stmtReturn ?stmtPrint ?stmtWhile ?stmtBlock ?stmtOther
    ?whileRest ?ifRest ?forRest
  case functionRest =>
    intro ts ih f rest hts h
    rw [functionRest.eq_1] at h
    obtain ⟨n, r1, h1, hn, h⟩ := Yields.of_bind h
    obtain ⟨_, r2, h2, hl, h⟩ := Yields.of_bind h
    obtain ⟨ps, r3, h3, hps, h⟩ := Yields.of_bind h
    obtain ⟨_, r4, h4, hb, h⟩ := Yields.of_bind h
    obtain ⟨body, r5, _, hbody, h⟩ := Yields.of_bind h
    obtain ⟨rfl, rfl⟩ := Yields.of_pure h
    -- the body is read after the name, the parameters and the opening brace
    have hr4 : r4 <:+ ts := (expect_suffix hb).trans
      (((paramList_literals hps []).1.trans (expect_suffix hl)).trans (expect_suffix hn))
    exact ih r1 h1 r2 h2 r3 h3 r4 h4 body r5 (spelled_of_suffix hr4 hts) rfl hbody
  case blockNil =>
    intro acc ss rest _ _ h
    rw [blockRest.eq_1] at h
    exact (Yields.of_error h).elim
  case blockClose =>
    intro acc t tail hk ss rest _ hacc h
    simp only [blockRest.eq_2, hk, if_true] at h
    obtain ⟨rfl, rfl⟩ := Yields.of_ok h
    exact hacc
  case blockDecl =>
    intro acc t tail hk ihs ihb ss rest hts hacc h
    simp only [blockRest.eq_2, hk, if_false] at h
    obtain ⟨s, r1, h1, hs, h⟩ := Yields.of_bind h
    obtain ⟨ss', r2, _, hss, h⟩ := Yields.of_bind h
    obtain ⟨rfl, rfl⟩ := Yields.of_pure h
    exact ihb s r1 h1 ss' r2
      (spelled_of_suffix ((stmtProvenance e).declaration _ s r1 hs).1 hts)
      (Stmt.allSpelled_push hacc (ihs s r1 hts hs)) hss
  case declNil =>
    intro ih s rest hts h
    rw [declaration.eq_1] at h
    exact ih s rest hts h
  case declLet =>
    intro t tail hk s rest hts h
    simp only [declaration.eq_2, hk] at h
    exact letRest_spelled (spelled_of_cons hts) (Yields.of_cons h)
  case declFn =>
    intro t tail hk ih s rest hts h
    simp only [declaration.eq_2, hk] at h
    obtain ⟨f, hf, rfl⟩ := Yields.of_map (Yields.of_cons h)
    exact ih f rest (spelled_of_cons hts) hf
  case declClass =>
    intro t tail hk ih s rest hts h
    simp only [declaration.eq_2, hk] at h
    exact ih s rest (spelled_of_cons hts) (Yields.of_cons h)
  case declOther =>
    intro t tail h1 h2 h3 ih s rest hts h
    rw [declaration.eq_2] at h
    split at h <;> first | contradiction | exact ih s rest hts h
  case classRest =>
    intro ts ih s rest hts h
    rw [classRest.eq_1] at h
    obtain ⟨n, r1, h1, hn, h⟩ := Yields.of_bind h
    obtain ⟨_, r2, h2, hb, h⟩ := Yields.of_bind h
    obtain ⟨ms, r3, _, hms, h⟩ := Yields.of_bind h
    obtain ⟨rfl, rfl⟩ := Yields.of_pure h
    exact ih n r1 h1 r2 h2 ms r3
      (spelled_of_suffix ((expect_suffix hb).trans (expect_suffix hn)) hts) rfl hms
  case methodsNil =>
    intro name acc fs rest _ _ h
    rw [methods.eq_1] at h
    exact (Yields.of_error h).elim
  case methodsClose =>
    intro name acc t tail hk fs rest _ hacc h
    simp only [methods.eq_2, hk, if_true] at h
    obtain ⟨rfl, rfl⟩ := Yields.of_ok h
    exact hacc
  case methodsFunc =>
    intro name acc t tail hk ihf ihm fs rest hts hacc h
    simp only [methods.eq_2, hk, if_false] at h
    obtain ⟨f, r1, h1, hf, h⟩ := Yields.of_bind h
    obtain ⟨fs', r2, _, hfs, h⟩ := Yields.of_bind h
    obtain ⟨rfl, rfl⟩ := Yields.of_pure h
    exact ihm f r1 h1 fs' r2
      (spelled_of_suffix ((stmtProvenance e).functionRest _ f r1 hf).1 hts)
      (Func.allSpelled_push hacc (ihf f r1 hts hf)) hfs
  case stmtNil =>
    intro s rest hts h
    rw [statement.eq_1] at h
    exact exprStmt_spelled hts h
  case stmtFor | stmtIf | stmtWhile =>
    intro t tail hk ih s rest hts h
    simp only [statement.eq_2, hk] at h
    exact ih s rest (spelled_of_cons hts) (Yields.of_cons h)
  case stmtReturn =>
    intro t tail hk s rest hts h
    simp only [statement.eq_2, hk] at h
    exact returnRest_spelled (spelled_of_cons hts) (Yields.of_cons h)
  case stmtPrint =>
    intro t tail hk s rest hts h
    simp only [statement.eq_2, hk] at h
    exact printRest_spelled (spelled_of_cons hts) (Yields.of_cons h)
  case stmtBlock =>
    intro t tail hk ih s rest hts h
    simp only [statement.eq_2, hk] at h
    obtain ⟨ss, hss, rfl⟩ := Yields.of_map (Yields.of_cons h)
    exact ih ss rest (spelled_of_cons hts) rfl hss
  case stmtOther =>
    intro t tail h1 h2 h3 h4 h5 h6 s rest hts h
    rw [statement.eq_2] at h
    split at h <;> first | contradiction | exact exprStmt_spelled hts h
  case whileRest =>
    intro ts ih s rest hts h
    rw [whileRest.eq_1] at h
    obtain ⟨_, r1, h1, hl, h⟩ := Yields.of_bind h
    obtain ⟨test, r2, h2, htest, h⟩ := Yields.of_bind h
    obtain ⟨_, r3, h3, hr, h⟩ := Yields.of_bind h
    obtain ⟨body, r4, _, hbody, h⟩ := Yields.of_bind h
    obtain ⟨rfl, rfl⟩ := Yields.of_pure h
    have hr1 := spelled_of_suffix (expect_suffix hl) hts
    have hr3 := spelled_of_suffix
      ((expect_suffix hr).trans ((exprProvenance e).expression r1 test r2 htest).1) hr1
    simp only [Stmt.spelled, (exprSpelling e).expression r1 test r2 hr1 htest, Bool.true_and]
    exact ih r1 h1 r2 h2 r3 h3 body r4 hr3 hbody
  case ifRest =>
    intro ts ihy ihn s rest hts h
    rw [ifRest.eq_1] at h
    obtain ⟨_, r1, h1, hl, h⟩ := Yields.of_bind h
    obtain ⟨test, r2, h2, htest, h⟩ := Yields.of_bind h
    obtain ⟨_, r3, h3, hr, h⟩ := Yields.of_bind h
    obtain ⟨yes, r4, h4, hyes, h⟩ := Yields.of_bind h
    have hr1 := spelled_of_suffix (expect_suffix hl) hts
    have hr3 := spelled_of_suffix
      ((expect_suffix hr).trans ((exprProvenance e).expression r1 test r2 htest).1) hr1
    have htest' := (exprSpelling e).expression r1 test r2 hr1 htest
    have hyes' := ihy r1 h1 r2 h2 r3 h3 yes r4 hr3 hyes
    dsimp only at h
    split at h
    · -- an else branch follows
      rename_i r5 h5 ha
      obtain ⟨no, r6, _, hno, h⟩ := Yields.of_bind h
      obtain ⟨rfl, rfl⟩ := Yields.of_pure h
      have hr5 := spelled_of_suffix
        ((accept_suffix ha).trans ((stmtProvenance e).statement r3 yes r4 hyes).1) hr3
      simp [Stmt.spelled, Stmt.elseSpelled, htest', hyes',
        ihn r1 h1 r2 h2 r3 h3 r4 h4 r5 h5 no r6 hr5 hno]
    · obtain ⟨rfl, rfl⟩ := Yields.of_pure h
      simp [Stmt.spelled, Stmt.elseSpelled, htest', hyes']
  case forRest =>
    intro ts ih s rest hts h
    rw [forRest.eq_1] at h
    obtain ⟨_, r1, h1, hl, h⟩ := Yields.of_bind h
    obtain ⟨init, r2, h2, hinit, h⟩ := Yields.of_bind h
    obtain ⟨test, r3, h3, htest, h⟩ := Yields.of_bind h
    obtain ⟨_, r4, h4, hs, h⟩ := Yields.of_bind h
    obtain ⟨update, r5, h5, hupdate, h⟩ := Yields.of_bind h
    obtain ⟨_, r6, h6, hr, h⟩ := Yields.of_bind h
    obtain ⟨body, r7, _, hbody, h⟩ := Yields.of_bind h
    obtain ⟨rfl, rfl⟩ := Yields.of_pure h
    -- each clause is read from the tokens the one before it left
    have hr1 := spelled_of_suffix (expect_suffix hl) hts
    have hr2 := spelled_of_suffix (forInit_literals hinit).1 hr1
    have hr4 := spelled_of_suffix ((expect_suffix hs).trans (exprUnless_literals htest).1) hr2
    have hr6 := spelled_of_suffix ((expect_suffix hr).trans (exprUnless_literals hupdate).1) hr4
    exact Stmt.spelled_forLoop (forInit_spelled hr1 hinit) (exprUnless_spelled hr2 htest)
      (exprUnless_spelled hr4 hupdate) (ih r1 h1 r2 h2 r3 h3 r4 h4 r5 h5 r6 h6 body r7 hr6 hbody)
  obtain ⟨h1, h2, h3, h4, h5, h6, h7, h8, h9⟩ := H
  exact ⟨h1, h2, h3, h4, h5, h6, h7, h8, h9⟩

/-- The declarations read to the end from tokens that carry their spellings carry theirs,
when those read before them do. -/
theorem declarations_spelled :
    ∀ {acc : Array Stmt} {ts : List Token} {ss : List Stmt}, (∀ t ∈ ts, t.Spelled) →
      Stmt.allSpelled acc.toList → declarations e acc ts = .ok ss → Stmt.allSpelled ss := by
  intro acc ts
  induction acc, ts using declarations.induct with
  | case1 acc =>
    intro ss _ hacc h
    rw [declarations.eq_1] at h
    cases h
    exact hacc
  | case2 acc t tail ih =>
    intro ss hts hacc h
    rw [declarations.eq_2] at h
    obtain ⟨⟨s, rest⟩, hs, h⟩ := ok_of_bind_eq_ok h
    have hread : Yields (declaration e (t :: tail)) s rest.1 := by
      rw [hs]
      rfl
    exact ih s rest (spelled_of_suffix ((stmtProvenance e).declaration _ s _ hread).1 hts)
      (Stmt.allSpelled_push hacc ((stmtSpelling e).declaration _ s _ hts hread)) h

end Statements

/-! ### The comparison level -/

/-- A read of the operators of one level ends at the end of the tokens or before a token that
is no operator of that level. The induction is on a bound of the number of tokens: each
operator and its operand are read from fewer. -/
theorem infixTail_stops {e : Pos} {lvl : Level} :
    ∀ {n : Nat} {left : Expr} {ts : List Token} {x : Expr} {rest : List Token},
      ts.length < n → Yields (infixTail e lvl left ts) x rest →
        ∀ t ∈ rest.head?, lvl.infix? t.kind = none := by
  intro n
  induction n with
  | zero =>
    intro left ts x rest hlen
    omega
  | succ n ih =>
    intro left ts x rest hlen h
    cases ts with
    | nil =>
      rw [infixTail.eq_1] at h
      obtain ⟨-, rfl⟩ := Yields.of_ok h
      intro t ht
      cases ht
    | cons t tail =>
      cases hop : lvl.infix? t.kind with
      | none =>
        simp only [infixTail.eq_2, hop] at h
        obtain ⟨-, rfl⟩ := Yields.of_ok h
        intro t' ht'
        simp only [List.head?_cons, Option.mem_def, Option.some.injEq] at ht'
        subst ht'
        exact hop
      | some op =>
        simp only [infixTail.eq_2, hop] at h
        obtain ⟨right, r1, h1, hr, h⟩ := Yields.of_bind h
        obtain ⟨x', r2, _, hx, h⟩ := Yields.of_bind h
        obtain ⟨-, rfl⟩ := Yields.of_pure h
        have hshorter := ((exprProvenance e).operand lvl tail right r1 hr).1.length_le
        have hlt : r1.length < n := by
          simp only [List.length_cons] at hlen
          omega
        exact ih hlt hx

/-- After an expression of the comparison level no `==` or `!=` follows: that level reads
them all, so none is left for a looser level to read. -/
theorem compare_stops_before_equality {e : Pos} {ts : List Token} {x : Expr}
    {rest : List Token} (h : Yields (infixExpr e .compare ts) x rest) :
    ∀ t ∈ rest.head?, t.kind ≠ .equal ∧ t.kind ≠ .notEqual := by
  rw [infixExpr.eq_1] at h
  obtain ⟨left, r1, h1, hl, h⟩ := Yields.of_bind h
  obtain ⟨x', r2, _, hx, h⟩ := Yields.of_bind h
  obtain ⟨-, rfl⟩ := Yields.of_pure h
  intro t ht
  have hnone := infixTail_stops (Nat.lt_succ_self _) hx t ht
  constructor <;> intro hk <;> rw [hk] at hnone <;> cases hnone

end Syntax

/-! ### Programs -/

/-- A program read from tokens that carry their spellings carries its operators' spellings. -/
theorem Program.ofTokens_spelled {ts : List Token} {p : Program}
    (hts : ∀ t ∈ ts, t.Spelled) (h : Program.ofTokens? ts = .ok p) : p.spelled := by
  unfold Program.ofTokens? at h
  split at h
  · split at h
    · -- the reads run on the tokens before the first end token
      dsimp only at h
      obtain ⟨ss, hss, rfl⟩ := Syntax.ok_of_map_eq_ok h
      exact Syntax.declarations_spelled
        (fun t ht => hts t ((List.takeWhile_sublist _).subset ht)) rfl hss
    · cases h
  · cases h

/-- Every operator node of a program read from text carries its operator's spelling. -/
theorem Program.ofSource_spelled {src : Text} {p : Program}
    (h : Program.ofSource? src = .ok p) : p.spelled := by
  unfold Program.ofSource? at h
  split at h
  · cases h
  · rename_i ts hts
    split at h
    · cases h
    · rename_i p' hp
      cases h
      exact Program.ofTokens_spelled (Token.scan_spelled hts) hp

/-- Every operator node of a program read from text carries the spelling of its operator as
its lexeme, so each lexeme names the operator that the evaluator applies: one of
`+ - * / ** < <= > >= == !=`, `&& ||` or `! -`, each for itself. And no `==` or `!=` is left
after an expression of the comparison level, whatever the tokens. -/
theorem Program.ofSource_operators_spelled {src : Text} {p : Program}
    (h : Program.ofSource? src = .ok p) :
    p.spelled ∧ ∀ (e : Pos) (ts : List Token) (x : Expr) (rest : List Token),
      Syntax.Yields (Syntax.infixExpr e .compare ts) x rest →
        ∀ t ∈ rest.head?, t.kind ≠ .equal ∧ t.kind ≠ .notEqual :=
  ⟨Program.ofSource_spelled h, fun _ _ _ _ hx => Syntax.compare_stops_before_equality hx⟩

theorem scan_compare_equal_not :
    Token.scan (Text.ofString "print(1 < 2 == !false);") =
      .ok [⟨.kwPrint, .text (Text.ofString "print"), .null, ⟨1, 1⟩⟩,
          ⟨.lparen, .text (Text.ofString "("), .null, ⟨1, 6⟩⟩,
          ⟨.integer, .text (Text.ofString "1"), .int 1, ⟨1, 7⟩⟩,
          ⟨.less, .text (Text.ofString "<"), .null, ⟨1, 9⟩⟩,
          ⟨.integer, .text (Text.ofString "2"), .int 2, ⟨1, 11⟩⟩,
          ⟨.equal, .text (Text.ofString "=="), .null, ⟨1, 13⟩⟩,
          ⟨.bang, .text (Text.ofString "!"), .null, ⟨1, 16⟩⟩,
          ⟨.kwFalse, .text (Text.ofString "false"), .bool false, ⟨1, 17⟩⟩,
          ⟨.rparen, .text (Text.ofString ")"), .null, ⟨1, 22⟩⟩,
          ⟨.semicolon, .text (Text.ofString ";"), .null, ⟨1, 23⟩⟩,
          ⟨.eof, .text (Text.ofString "eof"), .null, ⟨1, 24⟩⟩] := by
  decide +kernel

/-- `print(1 < 2 == !false);`: a comparison, an equality read on the same level, and a
negation, each node with its operator's spelling. -/
theorem operators_spelled_in_print :
    Program.ofSource? (Text.ofString "print(1 < 2 == !false);") =
        .ok ⟨[.print [.binary .eq (.text "==")
          (.binary .lt (.text "<") (.literal (.int 1)) (.literal (.int 2)))
          (.unary .not (.text "!") (.literal (.bool false)))]]⟩ ∧
      (Program.spelled ⟨[.print [.binary .eq (.text "==")
          (.binary .lt (.text "<") (.literal (.int 1)) (.literal (.int 2)))
          (.unary .not (.text "!") (.literal (.bool false)))]]⟩ ∧
        ∀ (e : Pos) (ts : List Token) (x : Expr) (rest : List Token),
          Syntax.Yields (Syntax.infixExpr e .compare ts) x rest →
            ∀ t ∈ rest.head?, t.kind ≠ .equal ∧ t.kind ≠ .notEqual) := by
  have hparse : Program.ofTokens? [⟨.kwPrint, .text (Text.ofString "print"), .null, ⟨1, 1⟩⟩,
        ⟨.lparen, .text (Text.ofString "("), .null, ⟨1, 6⟩⟩,
        ⟨.integer, .text (Text.ofString "1"), .int 1, ⟨1, 7⟩⟩,
        ⟨.less, .text (Text.ofString "<"), .null, ⟨1, 9⟩⟩,
        ⟨.integer, .text (Text.ofString "2"), .int 2, ⟨1, 11⟩⟩,
        ⟨.equal, .text (Text.ofString "=="), .null, ⟨1, 13⟩⟩,
        ⟨.bang, .text (Text.ofString "!"), .null, ⟨1, 16⟩⟩,
        ⟨.kwFalse, .text (Text.ofString "false"), .bool false, ⟨1, 17⟩⟩,
        ⟨.rparen, .text (Text.ofString ")"), .null, ⟨1, 22⟩⟩,
        ⟨.semicolon, .text (Text.ofString ";"), .null, ⟨1, 23⟩⟩,
        ⟨.eof, .text (Text.ofString "eof"), .null, ⟨1, 24⟩⟩] =
      .ok ⟨[.print [.binary .eq (.text "==")
        (.binary .lt (.text "<") (.literal (.int 1)) (.literal (.int 2)))
        (.unary .not (.text "!") (.literal (.bool false)))]]⟩ := by
    cbv
  have hsrc : Program.ofSource? (Text.ofString "print(1 < 2 == !false);") =
      .ok ⟨[.print [.binary .eq (.text "==")
        (.binary .lt (.text "<") (.literal (.int 1)) (.literal (.int 2)))
        (.unary .not (.text "!") (.literal (.bool false)))]]⟩ := by
    unfold Program.ofSource?
    rw [scan_compare_equal_not]
    dsimp only
    rw [hparse]
  exact ⟨hsrc, Program.ofSource_operators_spelled hsrc⟩

end Ember
