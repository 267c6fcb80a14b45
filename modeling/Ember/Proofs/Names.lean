import Ember.Syntax.Source
import Ember.Proofs.Provenance
import Ember.Proofs.TokenSpelling
/-!
The names of a program are words that are no keywords.

A tree names variables, fields, functions, classes and parameters by the payloads of the name
tokens it was read from. The scanner gives a name token only to a word that is no keyword,
with the word as its payload, so every name of a program read from text is such a word
(`Program.ofSource_names`). In particular no name is `this`, which the scanner reads as a
keyword: no declaration, parameter, assignment or field can bind or read a name `this`.

The reader part is proved for any property of payloads: every reader, given tokens whose name
tokens carry payloads with the property, gives a tree whose names have it (`ExprNames`,
`StmtNames`), by the functional induction of the readers. Names are made in six places, each
from a name token just taken: a variable, a field read, a `let`, a parameter, a function and
a class; everywhere else a reader puts together trees read by others, each read after the
first one from a suffix of the tokens (`exprProvenance`, `stmtProvenance`).
-/

namespace Ember

/-! ### The names written in a tree -/

mutual

/-- The names written in an expression, left to right: the variables it reads and assigns
and the fields it reads and writes. -/
def Expr.names : Expr → List Scalar
  | .literal _ | .thisRef => []
  | .var x => [x]
  | .assign x v => x :: v.names
  | .setField t x v => t.names ++ x :: v.names
  | .logical _ _ l r => l.names ++ r.names
  | .binary _ _ l r => l.names ++ r.names
  | .unary _ _ x => x.names
  | .group x => x.names
  | .call c args => c.names ++ Expr.listNames args
  | .getField t x => t.names ++ [x]

/-- The names written in a list of expressions. -/
def Expr.listNames : List Expr → List Scalar
  | [] => []
  | e :: es => e.names ++ Expr.listNames es

end

mutual

/-- The names written in a statement, those of its functions and classes included: what it
declares, the parameters, and the names of its expressions. -/
def Stmt.names : Stmt → List Scalar
  | .letDecl x init => x :: init.elim [] Expr.names
  | .block ss => Stmt.listNames ss
  | .funDecl f => f.names
  | .classDecl x ms => x :: Func.listNames ms
  | .expr e => e.names
  | .ifElse c yes no => c.names ++ yes.names ++ Stmt.elseNames no
  | .print args => Expr.listNames args
  | .whileLoop c body => c.names ++ body.names
  | .ret v => v.elim [] Expr.names

/-- The names written in an optional else branch. -/
def Stmt.elseNames : Option Stmt → List Scalar
  | none => []
  | some s => s.names

/-- The names written in a list of statements. -/
def Stmt.listNames : List Stmt → List Scalar
  | [] => []
  | s :: ss => s.names ++ Stmt.listNames ss

/-- The names written in a function: its own, its parameters', and those of its body. -/
def Func.names : Func → List Scalar
  | ⟨name, params, body⟩ => name :: params ++ Stmt.listNames body

/-- The names written in a list of functions. -/
def Func.listNames : List Func → List Scalar
  | [] => []
  | f :: fs => f.names ++ Func.listNames fs

end

/-- The names written in a program. -/
def Program.names (p : Program) : List Scalar :=
  Stmt.listNames p.body

theorem Func.names_eq (f : Func) : f.names = f.name :: f.params ++ Stmt.listNames f.body := by
  cases f
  rfl

theorem Expr.listNames_append (xs ys : List Expr) :
    Expr.listNames (xs ++ ys) = Expr.listNames xs ++ Expr.listNames ys := by
  induction xs with
  | nil => rfl
  | cons x xs ih => simp only [List.cons_append, Expr.listNames, ih, List.append_assoc]

theorem Stmt.listNames_append (xs ys : List Stmt) :
    Stmt.listNames (xs ++ ys) = Stmt.listNames xs ++ Stmt.listNames ys := by
  induction xs with
  | nil => rfl
  | cons x xs ih => simp only [List.cons_append, Stmt.listNames, ih, List.append_assoc]

theorem Func.listNames_append (xs ys : List Func) :
    Func.listNames (xs ++ ys) = Func.listNames xs ++ Func.listNames ys := by
  induction xs with
  | nil => rfl
  | cons x xs ih => simp only [List.cons_append, Func.listNames, ih, List.append_assoc]

theorem Expr.listNames_push (acc : Array Expr) (x : Expr) :
    Expr.listNames (acc.push x).toList = Expr.listNames acc.toList ++ x.names := by
  rw [Array.toList_push, Expr.listNames_append]
  simp only [Expr.listNames, List.append_nil]

theorem Stmt.listNames_push (acc : Array Stmt) (s : Stmt) :
    Stmt.listNames (acc.push s).toList = Stmt.listNames acc.toList ++ s.names := by
  rw [Array.toList_push, Stmt.listNames_append]
  simp only [Stmt.listNames, List.append_nil]

theorem Func.listNames_push (acc : Array Func) (f : Func) :
    Func.listNames (acc.push f).toList = Func.listNames acc.toList ++ f.names := by
  rw [Array.toList_push, Func.listNames_append]
  simp only [Func.listNames, List.append_nil]

theorem Infix.names_node (op : Infix) (lexeme : Scalar) (left right : Expr) :
    (op.node lexeme left right).names = left.names ++ right.names := by
  cases op <;> rfl

/-- A `for` loop names what its clauses and its body name. -/
theorem Stmt.names_forLoop (init : Option Stmt) (test update : Option Expr) (body : Stmt) :
    (Stmt.forLoop init test update body).names =
      init.elim [] Stmt.names ++ (test.elim [] Expr.names ++ (body.names ++
        update.elim [] Expr.names)) := by
  cases init <;> cases test <;> cases update <;>
    simp [Stmt.forLoop, Stmt.names, Stmt.listNames, Expr.names, Option.elim, Option.getD]

namespace Syntax

/-! ### Names read from name tokens -/

/-- Every name token of `ts` carries a payload with the property `P`. -/
def NameTokens (P : Scalar → Prop) (ts : List Token) : Prop :=
  ∀ t ∈ ts, t.kind = .ident → P t.payload

section NameTokens

variable {P : Scalar → Prop} {ts r : List Token}

theorem NameTokens.of_suffix (h : NameTokens P ts) (hs : r <:+ ts) : NameTokens P r :=
  fun t ht => h t (hs.subset ht)

theorem NameTokens.tail {t : Token} (h : NameTokens P (t :: ts)) : NameTokens P ts :=
  fun t' ht' => h t' (List.mem_cons_of_mem t ht')

theorem NameTokens.head {t : Token} (h : NameTokens P (t :: ts)) (hk : t.kind = .ident) :
    P t.payload :=
  h t List.mem_cons_self hk

/-- The name token an `expect` took carries a payload with the property. -/
theorem NameTokens.expect {e : Pos} {what : Text} {t : Token} (h : NameTokens P ts)
    (hr : Yields (Syntax.expect e .ident what ts) t r) : P t.payload := by
  obtain ⟨rfl, hk⟩ := expect_inv hr
  exact h.head hk

end NameTokens

/-! ### Expressions -/

/-- Every expression reader, given tokens whose name tokens carry payloads with the property
`P`, gives a tree whose names have it, when the tree it continues has. -/
structure ExprNames (e : Pos) (P : Scalar → Prop) : Prop where
  primary : ∀ ts x rest, NameTokens P ts → Yields (primary e ts) x rest → ∀ y ∈ x.names, P y
  expression : ∀ ts x rest, NameTokens P ts →
    Yields (expression e ts) x rest → ∀ y ∈ x.names, P y
  infixExpr : ∀ lvl ts x rest, NameTokens P ts →
    Yields (infixExpr e lvl ts) x rest → ∀ y ∈ x.names, P y
  infixTail : ∀ lvl left ts x rest, NameTokens P ts → (∀ y ∈ left.names, P y) →
    Yields (infixTail e lvl left ts) x rest → ∀ y ∈ x.names, P y
  operand : ∀ lvl ts x rest, NameTokens P ts →
    Yields (operand e lvl ts) x rest → ∀ y ∈ x.names, P y
  prefixExpr : ∀ ts x rest, NameTokens P ts →
    Yields (prefixExpr e ts) x rest → ∀ y ∈ x.names, P y
  callTail : ∀ callee ts x rest, NameTokens P ts → (∀ y ∈ callee.names, P y) →
    Yields (callTail e callee ts) x rest → ∀ y ∈ x.names, P y
  callArgs : ∀ ts xs rest, NameTokens P ts →
    Yields (callArgs e ts) xs rest → ∀ y ∈ Expr.listNames xs, P y
  argsFrom : ∀ acc ts xs rest, NameTokens P ts → (∀ y ∈ Expr.listNames acc.toList, P y) →
    Yields (argsFrom e acc ts) xs rest → ∀ y ∈ Expr.listNames xs, P y

/-- The induction follows the readers' own recursion. A variable and a field read take their
names from the token just taken; an assignment keeps the names of its target, which was read
as an expression first. -/
theorem exprNames (e : Pos) (P : Scalar → Prop) : ExprNames e P := by
  have H := primary.mutual_induct
    (fun ts => ∀ x rest, NameTokens P ts → Yields (primary e ts) x rest → ∀ y ∈ x.names, P y)
    (fun ts => ∀ x rest, NameTokens P ts →
      Yields (expression e ts) x rest → ∀ y ∈ x.names, P y)
    (fun lvl ts => ∀ x rest, NameTokens P ts →
      Yields (infixExpr e lvl ts) x rest → ∀ y ∈ x.names, P y)
    (fun lvl left ts => ∀ x rest, NameTokens P ts → (∀ y ∈ left.names, P y) →
      Yields (infixTail e lvl left ts) x rest → ∀ y ∈ x.names, P y)
    (fun lvl ts => ∀ x rest, NameTokens P ts →
      Yields (operand e lvl ts) x rest → ∀ y ∈ x.names, P y)
    (fun ts => ∀ x rest, NameTokens P ts →
      Yields (prefixExpr e ts) x rest → ∀ y ∈ x.names, P y)
    (fun callee ts => ∀ x rest, NameTokens P ts → (∀ y ∈ callee.names, P y) →
      Yields (callTail e callee ts) x rest → ∀ y ∈ x.names, P y)
    (fun ts => ∀ xs rest, NameTokens P ts →
      Yields (callArgs e ts) xs rest → ∀ y ∈ Expr.listNames xs, P y)
    (fun acc ts => ∀ xs rest, NameTokens P ts → (∀ y ∈ Expr.listNames acc.toList, P y) →
      Yields (argsFrom e acc ts) xs rest → ∀ y ∈ Expr.listNames xs, P y)
    ?primaryNil ?integer ?string ?kwTrue ?kwFalse ?kwNil ?ident ?kwThis ?lparen ?unexpected
    ?expression ?infixExpr ?infixTailNil ?infixTailOp ?infixTailStop
    ?operandOr ?operandAnd ?operandCompare ?operandTerm ?operandFactor
    ?prefixNil ?prefixUnary ?prefixPrimary
    ?callTailNil ?callTailCall ?callTailField ?callTailStop
    ?callArgsSome ?callArgsNone ?argsFull ?argsFrom
  case primaryNil =>
    intro x rest _ h
    rw [primary.eq_1] at h
    exact (Yields.of_error h).elim
  case integer | string | kwTrue | kwFalse | kwNil | kwThis =>
    intro t tail hk x rest _ h
    simp only [primary.eq_2, hk] at h
    obtain ⟨rfl, rfl⟩ := Yields.of_ok h
    simp [Expr.names]
  case ident =>
    intro t tail hk x rest hts h
    simp only [primary.eq_2, hk] at h
    obtain ⟨rfl, rfl⟩ := Yields.of_ok h
    simpa [Expr.names] using hts.head hk
  case lparen =>
    intro t tail hk ih x rest hts h
    simp only [primary.eq_2, hk] at h
    obtain ⟨x', r1, _, hx, h⟩ := Yields.of_bind h
    obtain ⟨_, r2, _, hr, h⟩ := Yields.of_bind h
    obtain ⟨rfl, rfl⟩ := Yields.of_pure h
    exact ih x' r1 hts.tail hx
  case unexpected =>
    intro t tail h1 h2 h3 h4 h5 h6 h7 h8 x rest _ h
    rw [primary.eq_2] at h
    split at h <;> contradiction
  case expression =>
    intro ts ihl ihv x rest hts h
    rw [expression.eq_1] at h
    obtain ⟨left, r1, h1, hl, h⟩ := Yields.of_bind h
    have hleft := ihl left r1 hts hl
    have hr1 := ((exprProvenance e).infixExpr .or ts left r1 hl).1
    dsimp only at h
    split at h
    · -- an assignment names its target, a name or a field read as an expression before `=`
      rename_i eq r2 h2 ha
      obtain ⟨value, r3, _, hv, h⟩ := Yields.of_bind h
      have hvalue := ihv r1 h1 r2 h2 value r3 (hts.of_suffix ((accept_suffix ha).trans hr1)) hv
      dsimp only at h
      split at h
      · obtain ⟨rfl, rfl⟩ := Yields.of_pure h
        simp only [Expr.names, List.forall_mem_cons] at hleft ⊢
        exact ⟨hleft.1, hvalue⟩
      · obtain ⟨rfl, rfl⟩ := Yields.of_pure h
        simp only [Expr.names, List.forall_mem_append, List.forall_mem_cons] at hleft ⊢
        exact ⟨hleft.1, hleft.2.1, hvalue⟩
      · exact (Yields.of_throw h).elim
    · obtain ⟨rfl, rfl⟩ := Yields.of_pure h
      exact hleft
  case infixExpr =>
    intro lvl ts ihl iht x rest hts h
    rw [infixExpr.eq_1] at h
    obtain ⟨left, r1, h1, hl, h⟩ := Yields.of_bind h
    obtain ⟨x', r2, _, hx, h⟩ := Yields.of_bind h
    obtain ⟨rfl, rfl⟩ := Yields.of_pure h
    exact iht left r1 h1 x' r2 (hts.of_suffix ((exprProvenance e).operand lvl ts left r1 hl).1)
      (ihl left r1 hts hl) hx
  case infixTailNil =>
    intro lvl left x rest _ hleft h
    rw [infixTail.eq_1] at h
    obtain ⟨rfl, rfl⟩ := Yields.of_ok h
    exact hleft
  case infixTailOp =>
    intro lvl left t tail op hop ihr iht x rest hts hleft h
    simp only [infixTail.eq_2, hop] at h
    obtain ⟨right, r1, h1, hr, h⟩ := Yields.of_bind h
    obtain ⟨x', r2, _, hx, h⟩ := Yields.of_bind h
    obtain ⟨rfl, rfl⟩ := Yields.of_pure h
    have hright := ihr right r1 hts.tail hr
    have hnode : ∀ y ∈ (op.node t.lexeme left right).names, P y := by
      rw [Infix.names_node, List.forall_mem_append]
      exact ⟨hleft, hright⟩
    exact iht right r1 h1 x' r2
      (hts.tail.of_suffix ((exprProvenance e).operand lvl tail right r1 hr).1) hnode hx
  case infixTailStop =>
    intro lvl left t tail hnone x rest _ hleft h
    simp only [infixTail.eq_2, hnone] at h
    obtain ⟨rfl, rfl⟩ := Yields.of_ok h
    exact hleft
  case operandOr | operandAnd | operandCompare | operandTerm | operandFactor =>
    intro ts ih x rest hts h
    rw [operand] at h
    exact ih x rest hts h
  case prefixNil =>
    intro ih x rest hts h
    rw [prefixExpr.eq_1] at h
    exact ih x rest hts h
  case prefixUnary =>
    intro t tail op hop ih x rest hts h
    simp only [prefixExpr.eq_2, hop] at h
    obtain ⟨x', r1, _, hx, h⟩ := Yields.of_bind h
    obtain ⟨rfl, rfl⟩ := Yields.of_pure h
    exact ih x' r1 hts.tail hx
  case prefixPrimary =>
    intro t tail hnone ihp iht x rest hts h
    simp only [prefixExpr.eq_2, hnone] at h
    obtain ⟨p, r1, h1, hp, h⟩ := Yields.of_bind h
    obtain ⟨x', r2, _, hx, h⟩ := Yields.of_bind h
    obtain ⟨rfl, rfl⟩ := Yields.of_pure h
    exact iht p r1 h1 x' r2 (hts.of_suffix ((exprProvenance e).primary _ p r1 hp).1)
      (ihp p r1 hts hp) hx
  case callTailNil =>
    intro callee x rest _ hcallee h
    rw [callTail.eq_1] at h
    obtain ⟨rfl, rfl⟩ := Yields.of_ok h
    exact hcallee
  case callTailCall =>
    intro callee t tail hk iha iht x rest hts hcallee h
    simp only [callTail.eq_2, hk, if_true] at h
    obtain ⟨args, r1, h1, ha, h⟩ := Yields.of_bind h
    obtain ⟨x', r2, _, hx, h⟩ := Yields.of_bind h
    obtain ⟨rfl, rfl⟩ := Yields.of_pure h
    have hargs := iha args r1 hts.tail ha
    have hcall : ∀ y ∈ (Expr.call callee args).names, P y := by
      rw [Expr.names, List.forall_mem_append]
      exact ⟨hcallee, hargs⟩
    exact iht args r1 h1 x' r2
      (hts.tail.of_suffix ((exprProvenance e).callArgs tail args r1 ha).1) hcall hx
  case callTailField =>
    intro callee t tail hl hd iht x rest hts hcallee h
    simp only [callTail.eq_2, hd, if_true] at h
    obtain ⟨n, r1, h1, hn, h⟩ := Yields.of_bind h
    obtain ⟨x', r2, _, hx, h⟩ := Yields.of_bind h
    obtain ⟨rfl, rfl⟩ := Yields.of_pure h
    -- the field is named by the name token after the dot
    have hfield : ∀ y ∈ (Expr.getField callee n.payload).names, P y := by
      simp only [Expr.names, List.forall_mem_append, List.forall_mem_singleton]
      exact ⟨hcallee, hts.tail.expect hn⟩
    exact iht n r1 h1 x' r2 (hts.tail.of_suffix (expect_suffix hn)) hfield hx
  case callTailStop =>
    intro callee t tail hl hd x rest _ hcallee h
    simp only [callTail.eq_2, hl, hd, if_false] at h
    obtain ⟨rfl, rfl⟩ := Yields.of_ok h
    exact hcallee
  case callArgsSome =>
    intro ts close r ha xs rest _ h
    simp only [callArgs.eq_1, ha] at h
    obtain ⟨rfl, rfl⟩ := Yields.of_ok h
    simp [Expr.listNames]
  case callArgsNone =>
    intro ts ha ih xs rest hts h
    simp only [callArgs.eq_1, ha] at h
    exact ih xs rest hts (by simp [Expr.listNames]) h
  case argsFull =>
    intro acc ts hfull xs rest _ _ h
    rw [argsFrom.eq_1, if_pos hfull] at h
    exact (Yields.of_error h).elim
  case argsFrom =>
    intro acc ts hroom ihx ihs xs rest hts hacc h
    rw [argsFrom.eq_1, if_neg hroom] at h
    obtain ⟨x, r1, h1, hx, h⟩ := Yields.of_bind h
    have hpush : ∀ y ∈ Expr.listNames (acc.push x).toList, P y := by
      rw [Expr.listNames_push, List.forall_mem_append]
      exact ⟨hacc, ihx x r1 hts hx⟩
    have hr1 := ((exprProvenance e).expression ts x r1 hx).1
    dsimp only at h
    split at h
    · -- a comma: the further arguments continue the list with this one
      rename_i r2 h2 hc
      obtain ⟨xs', r3, _, hxs, h⟩ := Yields.of_bind h
      obtain ⟨rfl, rfl⟩ := Yields.of_pure h
      exact ihs x r1 h1 r2 h2 xs' r3 (hts.of_suffix ((accept_suffix hc).trans hr1)) hpush hxs
    · obtain ⟨_, r2, _, hr, h⟩ := Yields.of_bind h
      obtain ⟨rfl, rfl⟩ := Yields.of_pure h
      exact hpush
  obtain ⟨h1, h2, h3, h4, h5, h6, h7, h8, h9⟩ := H
  exact ⟨h1, h2, h3, h4, h5, h6, h7, h8, h9⟩

/-! ### Statements -/

section Statements

variable {e : Pos} {P : Scalar → Prop}

/-- Every parameter is named by a name token. -/
theorem paramsFrom_names {name : Scalar} :
    ∀ {acc : Array Scalar} {ts : List Token} {ps : List Scalar} {rest : List Token},
      NameTokens P ts → (∀ y ∈ acc.toList, P y) →
        Yields (paramsFrom e name acc ts) ps rest → ∀ y ∈ ps, P y := by
  intro acc ts
  induction acc, ts using paramsFrom.induct with
  | case1 acc ts hfull =>
    intro ps rest _ _ h
    rw [paramsFrom.eq_1, if_pos hfull] at h
    exact (Yields.of_error h).elim
  | case2 acc ts hroom ih =>
    intro ps rest hts hacc h
    rw [paramsFrom.eq_1, if_neg hroom] at h
    obtain ⟨p, r1, h1, hp, h⟩ := Yields.of_bind h
    have hpush : ∀ y ∈ (acc.push p.payload).toList, P y := by
      rw [Array.toList_push, List.forall_mem_append, List.forall_mem_singleton]
      exact ⟨hacc, hts.expect hp⟩
    dsimp only at h
    split at h
    · rename_i r2 h2 hc
      obtain ⟨ps', r3, _, hps, h⟩ := Yields.of_bind h
      obtain ⟨rfl, rfl⟩ := Yields.of_pure h
      exact ih p r1 h1 r2 h2 (hts.of_suffix ((accept_suffix hc).trans (expect_suffix hp)))
        hpush hps
    · obtain ⟨_, r2, _, hr, h⟩ := Yields.of_bind h
      obtain ⟨rfl, rfl⟩ := Yields.of_pure h
      exact hpush

theorem paramList_names {name : Scalar} {ts : List Token} {ps : List Scalar} {rest : List Token}
    (hts : NameTokens P ts) (h : Yields (paramList e name ts) ps rest) : ∀ y ∈ ps, P y := by
  unfold paramList at h
  split at h
  · obtain ⟨rfl, -⟩ := Yields.of_ok h
    simp
  · exact paramsFrom_names hts (by simp) h

theorem exprUnless_names {k : Token.Kind} {ts : List Token} {ox : Option Expr}
    {rest : List Token} (hts : NameTokens P ts) (h : Yields (exprUnless e k ts) ox rest) :
    ∀ y ∈ ox.elim [] Expr.names, P y := by
  unfold exprUnless at h
  split at h
  · obtain ⟨rfl, rfl⟩ := Yields.of_ok h
    simp
  · obtain ⟨x, r1, _, hx, h⟩ := Yields.of_bind h
    obtain ⟨rfl, rfl⟩ := Yields.of_pure h
    exact (exprNames e P).expression ts x r1 hts hx

theorem exprStmt_names {ts : List Token} {s : Stmt} {rest : List Token}
    (hts : NameTokens P ts) (h : Yields (exprStmt e ts) s rest) : ∀ y ∈ s.names, P y := by
  unfold exprStmt at h
  obtain ⟨x, r1, _, hx, h⟩ := Yields.of_bind h
  obtain ⟨_, r2, _, hr, h⟩ := Yields.of_bind h
  obtain ⟨rfl, rfl⟩ := Yields.of_pure h
  exact (exprNames e P).expression ts x r1 hts hx

/-- A `let` names the name token after it. -/
theorem letRest_names {ts : List Token} {s : Stmt} {rest : List Token}
    (hts : NameTokens P ts) (h : Yields (letRest e ts) s rest) : ∀ y ∈ s.names, P y := by
  unfold letRest at h
  obtain ⟨n, r1, _, hn, h⟩ := Yields.of_bind h
  have hname := hts.expect hn
  dsimp only at h
  split at h
  · rename_i r2 _ ha
    obtain ⟨x, r3, _, hx, h⟩ := Yields.of_bind h
    obtain ⟨_, r4, _, hr, h⟩ := Yields.of_bind h
    obtain ⟨rfl, rfl⟩ := Yields.of_pure h
    simp only [Stmt.names, Option.elim, List.forall_mem_cons]
    exact ⟨hname, (exprNames e P).expression r2 x r3
      (hts.of_suffix ((accept_suffix ha).trans (expect_suffix hn))) hx⟩
  · obtain ⟨_, r2, _, hr, h⟩ := Yields.of_bind h
    obtain ⟨rfl, rfl⟩ := Yields.of_pure h
    simpa [Stmt.names] using hname

theorem returnRest_names {ts : List Token} {s : Stmt} {rest : List Token}
    (hts : NameTokens P ts) (h : Yields (returnRest e ts) s rest) : ∀ y ∈ s.names, P y := by
  unfold returnRest at h
  obtain ⟨value, r1, _, hv, h⟩ := Yields.of_bind h
  obtain ⟨_, r2, _, hr, h⟩ := Yields.of_bind h
  obtain ⟨rfl, rfl⟩ := Yields.of_pure h
  exact exprUnless_names hts hv

theorem printArgs_names :
    ∀ {acc : Array Expr} {ts : List Token} {xs : List Expr} {rest : List Token},
      NameTokens P ts → (∀ y ∈ Expr.listNames acc.toList, P y) →
        Yields (printArgs e acc ts) xs rest → ∀ y ∈ Expr.listNames xs, P y := by
  intro acc ts
  induction acc, ts using printArgs.induct with
  | case1 acc =>
    intro xs rest _ hacc h
    rw [printArgs.eq_1] at h
    obtain ⟨rfl, rfl⟩ := Yields.of_ok h
    exact hacc
  | case2 acc t tail hc ih =>
    intro xs rest hts hacc h
    simp only [printArgs.eq_2, hc, if_true] at h
    obtain ⟨x, r1, h1, hx, h⟩ := Yields.of_bind h
    obtain ⟨xs', r2, _, hxs, h⟩ := Yields.of_bind h
    obtain ⟨rfl, rfl⟩ := Yields.of_pure h
    have hpush : ∀ y ∈ Expr.listNames (acc.push x).toList, P y := by
      rw [Expr.listNames_push, List.forall_mem_append]
      exact ⟨hacc, (exprNames e P).expression tail x r1 hts.tail hx⟩
    exact ih x r1 h1 (hts.tail.of_suffix ((exprProvenance e).expression tail x r1 hx).1)
      hpush hxs
  | case3 acc t tail hc =>
    intro xs rest _ hacc h
    simp only [printArgs.eq_2, hc, if_false] at h
    obtain ⟨rfl, rfl⟩ := Yields.of_ok h
    exact hacc

theorem printRest_names {ts : List Token} {s : Stmt} {rest : List Token}
    (hts : NameTokens P ts) (h : Yields (printRest e ts) s rest) : ∀ y ∈ s.names, P y := by
  unfold printRest at h
  obtain ⟨_, r1, _, hl, h⟩ := Yields.of_bind h
  obtain ⟨first, r2, _, hf, h⟩ := Yields.of_bind h
  obtain ⟨args, r3, _, ha, h⟩ := Yields.of_bind h
  obtain ⟨_, r4, _, hr, h⟩ := Yields.of_bind h
  obtain ⟨_, r5, _, hs, h⟩ := Yields.of_bind h
  obtain ⟨rfl, rfl⟩ := Yields.of_pure h
  have hr1 := hts.of_suffix (expect_suffix hl)
  have hfirst := (exprNames e P).expression r1 first r2 hr1 hf
  exact printArgs_names (hr1.of_suffix ((exprProvenance e).expression r1 first r2 hf).1)
    (by simpa [Expr.listNames] using hfirst) ha

theorem forInit_names {ts : List Token} {o : Option Stmt} {rest : List Token}
    (hts : NameTokens P ts) (h : Yields (forInit e ts) o rest) :
    ∀ y ∈ o.elim [] Stmt.names, P y := by
  cases ts with
  | nil =>
    obtain ⟨s, hs, rfl⟩ := Yields.of_map h
    exact exprStmt_names hts hs
  | cons t r =>
    simp only [forInit] at h
    split at h
    · obtain ⟨rfl, rfl⟩ := Yields.of_ok h
      simp
    · split at h
      · obtain ⟨s, hs, rfl⟩ := Yields.of_map (Yields.of_cons h)
        exact letRest_names hts.tail hs
      · obtain ⟨s, hs, rfl⟩ := Yields.of_map h
        exact exprStmt_names hts hs

/-- Every statement reader, given tokens whose name tokens carry payloads with the property
`P`, gives statements and functions whose names have it, when those it continues have. -/
structure StmtNames (e : Pos) (P : Scalar → Prop) : Prop where
  functionRest : ∀ ts f rest, NameTokens P ts →
    Yields (functionRest e ts) f rest → ∀ y ∈ f.names, P y
  blockRest : ∀ acc ts ss rest, NameTokens P ts → (∀ y ∈ Stmt.listNames acc.toList, P y) →
    Yields (blockRest e acc ts) ss rest → ∀ y ∈ Stmt.listNames ss, P y
  declaration : ∀ ts s rest, NameTokens P ts →
    Yields (declaration e ts) s rest → ∀ y ∈ s.names, P y
  classRest : ∀ ts s rest, NameTokens P ts →
    Yields (classRest e ts) s rest → ∀ y ∈ s.names, P y
  methods : ∀ name acc ts fs rest, NameTokens P ts → (∀ y ∈ Func.listNames acc.toList, P y) →
    Yields (methods e name acc ts) fs rest → ∀ y ∈ Func.listNames fs, P y
  statement : ∀ ts s rest, NameTokens P ts →
    Yields (statement e ts) s rest → ∀ y ∈ s.names, P y
  whileRest : ∀ ts s rest, NameTokens P ts →
    Yields (whileRest e ts) s rest → ∀ y ∈ s.names, P y
  ifRest : ∀ ts s rest, NameTokens P ts → Yields (ifRest e ts) s rest → ∀ y ∈ s.names, P y
  forRest : ∀ ts s rest, NameTokens P ts → Yields (forRest e ts) s rest → ∀ y ∈ s.names, P y

/-- The induction follows the readers' own recursion. A function and a class take their
names from the name token after `fn` or `class`, and a function its parameters from the name
tokens of its parameter list. -/
theorem stmtNames (e : Pos) (P : Scalar → Prop) : StmtNames e P := by
  have H := functionRest.mutual_induct
    (fun ts => ∀ f rest, NameTokens P ts →
      Yields (functionRest e ts) f rest → ∀ y ∈ f.names, P y)
    (fun acc ts => ∀ ss rest, NameTokens P ts → (∀ y ∈ Stmt.listNames acc.toList, P y) →
      Yields (blockRest e acc ts) ss rest → ∀ y ∈ Stmt.listNames ss, P y)
    (fun ts => ∀ s rest, NameTokens P ts →
      Yields (declaration e ts) s rest → ∀ y ∈ s.names, P y)
    (fun ts => ∀ s rest, NameTokens P ts →
      Yields (classRest e ts) s rest → ∀ y ∈ s.names, P y)
    (fun name acc ts => ∀ fs rest, NameTokens P ts → (∀ y ∈ Func.listNames acc.toList, P y) →
      Yields (methods e name acc ts) fs rest → ∀ y ∈ Func.listNames fs, P y)
    (fun ts => ∀ s rest, NameTokens P ts →
      Yields (statement e ts) s rest → ∀ y ∈ s.names, P y)
    (fun ts => ∀ s rest, NameTokens P ts →
      Yields (whileRest e ts) s rest → ∀ y ∈ s.names, P y)
    (fun ts => ∀ s rest, NameTokens P ts → Yields (ifRest e ts) s rest → ∀ y ∈ s.names, P y)
    (fun ts => ∀ s rest, NameTokens P ts → Yields (forRest e ts) s rest → ∀ y ∈ s.names, P y)
    ?functionRest ?blockNil ?blockClose ?blockDecl
    ?declNil ?declLet ?declFn ?declClass ?declOther
    ?classRest ?methodsNil ?methodsClose ?methodsFunc
    ?stmtNil ?stmtFor ?stmtIf ?stmtReturn ?stmtPrint ?stmtWhile ?stmtBlock ?stmtOther
    ?whileRest ?ifRest ?forRest
  case functionRest =>
    intro ts ih f rest hts h
    rw [functionRest.eq_1] at h
    obtain ⟨n, r1, h1, hn, h⟩ := Yields.of_bind h
    obtain ⟨_, r2, h2, hl, h⟩ := Yields.of_bind h
    obtain ⟨ps, r3, h3, hps, h⟩ := Yields.of_bind h
    obtain ⟨_, r4, h4, hb, h⟩ := Yields.of_bind h
    obtain ⟨body, r5, _, hbody, h⟩ := Yields.of_bind h
    obtain ⟨rfl, rfl⟩ := Yields.of_pure h
    -- the parameters are read after the name and `(`, the body after them and `{`
    have hr2 := hts.of_suffix ((expect_suffix hl).trans (expect_suffix hn))
    have hr4 := hr2.of_suffix ((expect_suffix hb).trans (paramList_literals hps []).1)
    simp only [Func.names, List.cons_append, List.forall_mem_cons, List.forall_mem_append]
    exact ⟨hts.expect hn, paramList_names hr2 hps,
      ih r1 h1 r2 h2 r3 h3 r4 h4 body r5 hr4 (by simp [Stmt.listNames]) hbody⟩
  case blockNil =>
    intro acc ss rest _ _ h
    rw [blockRest.eq_1] at h
    exact (Yields.of_error h).elim
  case blockClose =>
    intro acc t tail hk ss rest _ hacc h
    simp only [blockRest.eq_2, hk, if_true] at h
    obtain ⟨rfl, rfl⟩ := Yields.of_ok h
    exact hacc
  case blockDecl =>
    intro acc t tail hk ihs ihb ss rest hts hacc h
    simp only [blockRest.eq_2, hk, if_false] at h
    obtain ⟨s, r1, h1, hs, h⟩ := Yields.of_bind h
    obtain ⟨ss', r2, _, hss, h⟩ := Yields.of_bind h
    obtain ⟨rfl, rfl⟩ := Yields.of_pure h
    have hpush : ∀ y ∈ Stmt.listNames (acc.push s).toList, P y := by
      rw [Stmt.listNames_push, List.forall_mem_append]
      exact ⟨hacc, ihs s r1 hts hs⟩
    exact ihb s r1 h1 ss' r2 (hts.of_suffix ((stmtProvenance e).declaration _ s r1 hs).1)
      hpush hss
  case declNil =>
    intro ih s rest hts h
    rw [declaration.eq_1] at h
    exact ih s rest hts h
  case declLet =>
    intro t tail hk s rest hts h
    simp only [declaration.eq_2, hk] at h
    exact letRest_names hts.tail (Yields.of_cons h)
  case declFn =>
    intro t tail hk ih s rest hts h
    simp only [declaration.eq_2, hk] at h
    obtain ⟨f, hf, rfl⟩ := Yields.of_map (Yields.of_cons h)
    exact ih f rest hts.tail hf
  case declClass =>
    intro t tail hk ih s rest hts h
    simp only [declaration.eq_2, hk] at h
    exact ih s rest hts.tail (Yields.of_cons h)
  case declOther =>
    intro t tail h1 h2 h3 ih s rest hts h
    rw [declaration.eq_2] at h
    split at h <;> first | contradiction | exact ih s rest hts h
  case classRest =>
    intro ts ih s rest hts h
    rw [classRest.eq_1] at h
    obtain ⟨n, r1, h1, hn, h⟩ := Yields.of_bind h
    obtain ⟨_, r2, h2, hb, h⟩ := Yields.of_bind h
    obtain ⟨ms, r3, _, hms, h⟩ := Yields.of_bind h
    obtain ⟨rfl, rfl⟩ := Yields.of_pure h
    simp only [Stmt.names, List.forall_mem_cons]
    exact ⟨hts.expect hn, ih n r1 h1 r2 h2 ms r3
      (hts.of_suffix ((expect_suffix hb).trans (expect_suffix hn))) (by simp [Func.listNames])
      hms⟩
  case methodsNil =>
    intro name acc fs rest _ _ h
    rw [methods.eq_1] at h
    exact (Yields.of_error h).elim
  case methodsClose =>
    intro name acc t tail hk fs rest _ hacc h
    simp only [methods.eq_2, hk, if_true] at h
    obtain ⟨rfl, rfl⟩ := Yields.of_ok h
    exact hacc
  case methodsFunc =>
    intro name acc t tail hk ihf ihm fs rest hts hacc h
    simp only [methods.eq_2, hk, if_false] at h
    obtain ⟨f, r1, h1, hf, h⟩ := Yields.of_bind h
    obtain ⟨fs', r2, _, hfs, h⟩ := Yields.of_bind h
    obtain ⟨rfl, rfl⟩ := Yields.of_pure h
    have hpush : ∀ y ∈ Func.listNames (acc.push f).toList, P y := by
      rw [Func.listNames_push, List.forall_mem_append]
      exact ⟨hacc, ihf f r1 hts hf⟩
    exact ihm f r1 h1 fs' r2 (hts.of_suffix ((stmtProvenance e).functionRest _ f r1 hf).1)
      hpush hfs
  case stmtNil =>
    intro s rest hts h
    rw [statement.eq_1] at h
    exact exprStmt_names hts h
  case stmtFor | stmtIf | stmtWhile =>
    intro t tail hk ih s rest hts h
    simp only [statement.eq_2, hk] at h
    exact ih s rest hts.tail (Yields.of_cons h)
  case stmtReturn =>
    intro t tail hk s rest hts h
    simp only [statement.eq_2, hk] at h
    exact returnRest_names hts.tail (Yields.of_cons h)
  case stmtPrint =>
    intro t tail hk s rest hts h
    simp only [statement.eq_2, hk] at h
    exact printRest_names hts.tail (Yields.of_cons h)
  case stmtBlock =>
    intro t tail hk ih s rest hts h
    simp only [statement.eq_2, hk] at h
    obtain ⟨ss, hss, rfl⟩ := Yields.of_map (Yields.of_cons h)
    exact ih ss rest hts.tail (by simp [Stmt.listNames]) hss
  case stmtOther =>
    intro t tail h1 h2 h3 h4 h5 h6 s rest hts h
    rw [statement.eq_2] at h
    split at h <;> first | contradiction | exact exprStmt_names hts h
  case whileRest =>
    intro ts ih s rest hts h
    rw [whileRest.eq_1] at h
    obtain ⟨_, r1, h1, hl, h⟩ := Yields.of_bind h
    obtain ⟨test, r2, h2, htest, h⟩ := Yields.of_bind h
    obtain ⟨_, r3, h3, hr, h⟩ := Yields.of_bind h
    obtain ⟨body, r4, _, hbody, h⟩ := Yields.of_bind h
    obtain ⟨rfl, rfl⟩ := Yields.of_pure h
    have hr1 := hts.of_suffix (expect_suffix hl)
    have hr3 := hr1.of_suffix
      ((expect_suffix hr).trans ((exprProvenance e).expression r1 test r2 htest).1)
    simp only [Stmt.names, List.forall_mem_append]
    exact ⟨(exprNames e P).expression r1 test r2 hr1 htest, ih r1 h1 r2 h2 r3 h3 body r4 hr3 hbody⟩
  case ifRest =>
    intro ts ihy ihn s rest hts h
    rw [ifRest.eq_1] at h
    obtain ⟨_, r1, h1, hl, h⟩ := Yields.of_bind h
    obtain ⟨test, r2, h2, htest, h⟩ := Yields.of_bind h
    obtain ⟨_, r3, h3, hr, h⟩ := Yields.of_bind h
    obtain ⟨yes, r4, h4, hyes, h⟩ := Yields.of_bind h
    have hr1 := hts.of_suffix (expect_suffix hl)
    have hr3 := hr1.of_suffix
      ((expect_suffix hr).trans ((exprProvenance e).expression r1 test r2 htest).1)
    have htest' := (exprNames e P).expression r1 test r2 hr1 htest
    have hyes' := ihy r1 h1 r2 h2 r3 h3 yes r4 hr3 hyes
    dsimp only at h
    split at h
    · -- an else branch follows
      rename_i r5 h5 ha
      obtain ⟨no, r6, _, hno, h⟩ := Yields.of_bind h
      obtain ⟨rfl, rfl⟩ := Yields.of_pure h
      have hr5 := hr3.of_suffix
        ((accept_suffix ha).trans ((stmtProvenance e).statement r3 yes r4 hyes).1)
      simp only [Stmt.names, Stmt.elseNames, List.forall_mem_append]
      exact ⟨⟨htest', hyes'⟩, ihn r1 h1 r2 h2 r3 h3 r4 h4 r5 h5 no r6 hr5 hno⟩
    · obtain ⟨rfl, rfl⟩ := Yields.of_pure h
      simp only [Stmt.names, Stmt.elseNames, List.append_nil, List.forall_mem_append]
      exact ⟨htest', hyes'⟩
  case forRest =>
    intro ts ih s rest hts h
    rw [forRest.eq_1] at h
    obtain ⟨_, r1, h1, hl, h⟩ := Yields.of_bind h
    obtain ⟨init, r2, h2, hinit, h⟩ := Yields.of_bind h
    obtain ⟨test, r3, h3, htest, h⟩ := Yields.of_bind h
    obtain ⟨_, r4, h4, hs, h⟩ := Yields.of_bind h
    obtain ⟨update, r5, h5, hupdate, h⟩ := Yields.of_bind h
    obtain ⟨_, r6, h6, hr, h⟩ := Yields.of_bind h
    obtain ⟨body, r7, _, hbody, h⟩ := Yields.of_bind h
    obtain ⟨rfl, rfl⟩ := Yields.of_pure h
    -- each clause is read from the tokens the one before it left
    have hr1 := hts.of_suffix (expect_suffix hl)
    have hr2 := hr1.of_suffix (forInit_literals hinit).1
    have hr4 := hr2.of_suffix ((expect_suffix hs).trans (exprUnless_literals htest).1)
    have hr6 := hr4.of_suffix ((expect_suffix hr).trans (exprUnless_literals hupdate).1)
    rw [Stmt.names_forLoop]
    simp only [List.forall_mem_append]
    exact ⟨forInit_names hr1 hinit, exprUnless_names hr2 htest,
      ih r1 h1 r2 h2 r3 h3 r4 h4 r5 h5 r6 h6 body r7 hr6 hbody, exprUnless_names hr4 hupdate⟩
  obtain ⟨h1, h2, h3, h4, h5, h6, h7, h8, h9⟩ := H
  exact ⟨h1, h2, h3, h4, h5, h6, h7, h8, h9⟩

/-- The declarations read to the end from tokens whose name tokens carry payloads with the
property `P` have names with it, when those read before them have. -/
theorem declarations_names :
    ∀ {acc : Array Stmt} {ts : List Token} {ss : List Stmt}, NameTokens P ts →
      (∀ y ∈ Stmt.listNames acc.toList, P y) → declarations e acc ts = .ok ss →
        ∀ y ∈ Stmt.listNames ss, P y := by
  intro acc ts
  induction acc, ts using declarations.induct with
  | case1 acc =>
    intro ss _ hacc h
    rw [declarations.eq_1] at h
    cases h
    exact hacc
  | case2 acc t tail ih =>
    intro ss hts hacc h
    rw [declarations.eq_2] at h
    obtain ⟨⟨s, rest⟩, hs, h⟩ := ok_of_bind_eq_ok h
    have hread : Yields (declaration e (t :: tail)) s rest.1 := by
      rw [hs]
      rfl
    have hpush : ∀ y ∈ Stmt.listNames (acc.push s).toList, P y := by
      rw [Stmt.listNames_push, List.forall_mem_append]
      exact ⟨hacc, (stmtNames e P).declaration _ s _ hts hread⟩
    exact ih s rest (hts.of_suffix ((stmtProvenance e).declaration _ s _ hread).1) hpush h

end Statements

end Syntax

/-! ### Names of programs read from text -/

/-- A word that is no keyword, as a payload: what the scanner gives a name token. -/
def Scalar.NonKeyword (y : Scalar) : Prop :=
  ∃ w, y = .text w ∧ Token.Kind.keyword? w = none

/-- `this` is a keyword, so no name that is no keyword is displayed as `this`. -/
theorem Scalar.NonKeyword.display_ne_this {y : Scalar} (h : y.NonKeyword) :
    y.display ≠ "this" := by
  obtain ⟨w, rfl, hw⟩ := h
  rintro rfl
  have hthis : Token.Kind.keyword? (Text.ofString "this") = some .kwThis := by decide
  rw [hthis] at hw
  cases hw

namespace Token

theorem keyword?_ne_ident {w : Text} {k : Kind} (h : Kind.keyword? w = some k) : k ≠ .ident := by
  rintro rfl
  rcases keyword?_spelling h with hw | ⟨hk, -⟩
  · simp [Kind.spelling?] at hw
  · cases hk

theorem symbol?_ne_ident {w : Text} {k : Kind} (h : Kind.symbol? w = some k) : k ≠ .ident := by
  rintro rfl
  have hw := symbol?_spelling h
  simp [Kind.spelling?] at hw

/-- A name token decoded from a lexeme is a word that is no keyword, and carries it. -/
theorem decode_nonKeyword {t : Terminal} {lex : Text} {p : Pos} {tok : Token}
    (hm : t.matches lex = true) (h : decode t lex p = .ok (some tok)) (hk : tok.kind = .ident) :
    tok.payload.NonKeyword := by
  cases t with
  | blank | comment => cases h
  | number =>
    simp only [decode] at h
    split at h
    · cases h
    · split at h
      · cases h
      · cases h
        cases hk
  | string =>
    simp only [decode] at h
    split at h
    · cases h
      cases hk
    · cases h
  | word =>
    cases h
    cases hkw : Kind.keyword? lex with
    | none => exact ⟨lex, by simp [ofWord, hkw], hkw⟩
    | some k =>
      -- a keyword token has the keyword's kind, which is no name
      have hkind : (ofWord lex p).kind = k := by
        unfold ofWord
        split <;> simp_all
      exact absurd (hkind.symm.trans hk) (keyword?_ne_ident hkw)
  | symbol k =>
    cases h
    have hs : Kind.symbol? lex = some k := by simpa [Terminal.matches] using hm
    exact absurd hk (symbol?_ne_ident hs)

/-- Every name token of a scanned text carries a word that is no keyword. -/
theorem scan_nonKeyword {s : Text} {ts : List Token} (h : scan s = .ok ts) :
    Syntax.NameTokens Scalar.NonKeyword ts :=
  scan_forall (fun t => t.kind = .ident → t.payload.NonKeyword) (fun _ hk => by cases hk)
    (fun hm hdec => decode_nonKeyword hm hdec) h

end Token

/-- A program read from tokens names only what its name tokens carry: every name of it has
each property that the payloads of all the name tokens have. -/
theorem Program.ofTokens_names {P : Scalar → Prop} {ts : List Token} {p : Program}
    (hts : Syntax.NameTokens P ts) (h : Program.ofTokens? ts = .ok p) : ∀ y ∈ p.names, P y := by
  unfold Program.ofTokens? at h
  split at h
  · split at h
    · -- the reads run on the tokens before the first end token
      dsimp only at h
      obtain ⟨ss, hss, rfl⟩ := Syntax.ok_of_map_eq_ok h
      exact Syntax.declarations_names (fun t ht => hts t ((List.takeWhile_sublist _).subset ht))
        (by simp [Stmt.listNames]) hss
    · cases h
  · cases h

/-- Every name of a program read from text, of a variable, a field, a function, a class or a
parameter, is a word that is no keyword; so none of them is `this`. -/
theorem Program.ofSource_names {src : Text} {p : Program} (h : Program.ofSource? src = .ok p) :
    ∀ y ∈ p.names, y.NonKeyword := by
  unfold Program.ofSource? at h
  split at h
  · cases h
  · rename_i ts hts
    split at h
    · cases h
    · rename_i p' hp
      cases h
      exact Program.ofTokens_names (Token.scan_nonKeyword hts) hp

end Ember
