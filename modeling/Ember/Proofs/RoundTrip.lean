import Ember.Proofs.ReadBack
/-!
Reading written programs back.

Main statement: a well-formed program, written as tokens by `Program.render`, is read back
as the same program (`Program.ofTokens_render`).

The statements are read back one construct at a time, each by the reader function for it,
given that its parts are read back (`exprStmt_of`, `letRest_some`, `ifRest_of`,
`blockRest_reads`, `functionRest_of`, ...). The tokens that may follow a statement matter in
one place only: an `else` right after a statement that ends with a conditional without one
would be read as that conditional's (`Stmt.endsOpen`). The statements themselves are then
read back by a strong induction on their number of tokens (`stmt_reads_back`).
-/

namespace Ember

namespace Syntax

theorem Yields.cons {α : Type} {t : Token} {r : List Token} {x : Read r α} {a : α}
    {rest : List Token} (h : Yields x a rest) : Yields (Read.cons x : Read (t :: r) α) a rest := by
  obtain ⟨_, hx⟩ := h.eq
  simp only [Read.cons, hx]
  rfl

theorem Yields.map_fst {α β : Type} {P : List Token → Prop}
    {x : Except Fault (α × {l : List Token // P l})} {a : α} {rest : List Token} (f : α → β)
    (h : Yields x a rest) : Yields (x.map fun (a, y) => (f a, y)) (f a) rest := by
  obtain ⟨_, hx⟩ := h.eq
  simp only [hx]
  rfl

/-! ### One step of each statement reader -/

section Steps

variable (e : Pos)

theorem exprStmt_of {ts rest : List Token} {x : Expr}
    (hx : Yields (expression e ts) x (Token.ofKind .semicolon :: rest)) :
    Yields (exprStmt e ts) (.expr x) rest := by
  obtain ⟨_, hx⟩ := hx.eq
  simp only [exprStmt, hx, expect_of_kind e _ rest (Token.kind_ofKind _), bind, Except.bind,
    pure, Except.pure]
  rfl

theorem letRest_none (x : Scalar) (rest : List Token) :
    Yields (letRest e (Token.ofName x :: Token.ofKind .semicolon :: rest)) (.letDecl x none)
      rest := by
  have hne : accept .assign (Token.ofKind .semicolon :: rest) = none := accept_of_ne (by simp)
  simp only [letRest, expect_of_kind e _ _ (Token.kind_ofName x), hne,
    expect_of_kind e _ rest (Token.kind_ofKind _), Token.payload_ofName, bind, Except.bind,
    pure, Except.pure]
  rfl

theorem letRest_some (x : Scalar) {ts rest : List Token} {v : Expr}
    (hv : Yields (expression e ts) v (Token.ofKind .semicolon :: rest)) :
    Yields (letRest e (Token.ofName x :: Token.ofKind .assign :: ts)) (.letDecl x (some v))
      rest := by
  obtain ⟨_, hv⟩ := hv.eq
  simp only [letRest, expect_of_kind e _ _ (Token.kind_ofName x),
    accept_of_kind ts (Token.kind_ofKind .assign), hv,
    expect_of_kind e _ rest (Token.kind_ofKind _), Token.payload_ofName, bind, Except.bind,
    pure, Except.pure]
  rfl

theorem returnRest_none (rest : List Token) :
    Yields (returnRest e (Token.ofKind .semicolon :: rest)) (.ret none) rest := by
  simp only [returnRest, exprUnless, startsWith, Token.kind_ofKind, decide_true, if_true,
    expect_of_kind e _ rest (Token.kind_ofKind _), bind, Except.bind, pure, Except.pure]
  rfl

theorem returnRest_some {ts rest : List Token} {v : Expr}
    (hhead : ∀ t ∈ ts.head?, t.kind ≠ .semicolon)
    (hv : Yields (expression e ts) v (Token.ofKind .semicolon :: rest)) :
    Yields (returnRest e ts) (.ret (some v)) rest := by
  obtain ⟨_, hv⟩ := hv.eq
  have hstart : startsWith .semicolon ts = false := by
    match ts, hhead with
    | [], _ => rfl
    | t :: _, hhead => simpa [startsWith] using hhead t rfl
  simp only [returnRest, exprUnless, hstart, Bool.false_eq_true, if_false, hv,
    expect_of_kind e _ rest (Token.kind_ofKind _), bind, Except.bind, pure, Except.pure]
  rfl

theorem ifRest_none {ts ts2 rest : List Token} {c : Expr} {yes : Stmt}
    (hc : Yields (expression e ts) c (Token.ofKind .rparen :: ts2))
    (hyes : Yields (statement e ts2) yes rest) (hno : ∀ t ∈ rest.head?, t.kind ≠ .kwElse) :
    Yields (ifRest e (Token.ofKind .lparen :: ts)) (.ifElse c yes none) rest := by
  obtain ⟨_, hc⟩ := hc.eq
  obtain ⟨_, hyes⟩ := hyes.eq
  simp only [ifRest, expect_of_kind e _ ts (Token.kind_ofKind _), hc,
    expect_of_kind e _ ts2 (Token.kind_ofKind _), hyes, accept_of_ne hno, bind, Except.bind,
    pure, Except.pure]
  rfl

theorem ifRest_some {ts ts2 ts3 rest : List Token} {c : Expr} {yes no : Stmt}
    (hc : Yields (expression e ts) c (Token.ofKind .rparen :: ts2))
    (hyes : Yields (statement e ts2) yes (Token.ofKind .kwElse :: ts3))
    (hno : Yields (statement e ts3) no rest) :
    Yields (ifRest e (Token.ofKind .lparen :: ts)) (.ifElse c yes (some no)) rest := by
  obtain ⟨_, hc⟩ := hc.eq
  obtain ⟨_, hyes⟩ := hyes.eq
  obtain ⟨_, hno⟩ := hno.eq
  simp only [ifRest, expect_of_kind e _ ts (Token.kind_ofKind _), hc,
    expect_of_kind e _ ts2 (Token.kind_ofKind _), hyes,
    accept_of_kind ts3 (Token.kind_ofKind .kwElse), hno, bind, Except.bind, pure, Except.pure]
  rfl

theorem whileRest_of {ts ts2 rest : List Token} {c : Expr} {body : Stmt}
    (hc : Yields (expression e ts) c (Token.ofKind .rparen :: ts2))
    (hbody : Yields (statement e ts2) body rest) :
    Yields (whileRest e (Token.ofKind .lparen :: ts)) (.whileLoop c body) rest := by
  obtain ⟨_, hc⟩ := hc.eq
  obtain ⟨_, hbody⟩ := hbody.eq
  simp only [whileRest, expect_of_kind e _ ts (Token.kind_ofKind _), hc,
    expect_of_kind e _ ts2 (Token.kind_ofKind _), hbody, bind, Except.bind, pure, Except.pure]
  rfl

end Steps

/-! ### Lists written with separators -/

theorem Expr.listTokens_cons (a : Expr) (as : List Expr) :
    Expr.listTokens (a :: as) = a.tokens ++ as.flatMap (Token.ofKind .comma :: ·.tokens) := by
  induction as generalizing a with
  | nil => simp [Expr.listTokens]
  | cons b bs ih =>
    have h : Expr.listTokens (a :: b :: bs) =
        a.tokens ++ Token.ofKind .comma :: Expr.listTokens (b :: bs) := rfl
    rw [h, ih b]
    simp

theorem Token.names_cons (x : Scalar) (xs : List Scalar) :
    Token.names (x :: xs) =
      Token.ofName x :: xs.flatMap ([Token.ofKind .comma, Token.ofName ·]) := by
  induction xs generalizing x with
  | nil => simp [Token.names]
  | cons y ys ih => simp [Token.names, ih]

/-- After an argument of `print`, the next token is a comma or the closing parenthesis. -/
theorem stops_printArgs (as : List Expr) (rest : List Token) :
    Stops 0 (as.flatMap (Token.ofKind .comma :: ·.tokens) ++ Token.ofKind .rparen :: rest) := by
  cases as with
  | nil => exact stops_punct _ (by simp) _
  | cons a as => exact stops_punct _ (by simp) _

section Lists

variable (e : Pos)

theorem printArgs_reads : ∀ (as : List Expr) (acc : Array Expr),
    (∀ a ∈ as, ∀ rest, Stops 0 rest → Yields (expression e (a.tokens ++ rest)) a rest) →
    ∀ rest, Yields (printArgs e acc (as.flatMap (Token.ofKind .comma :: ·.tokens) ++
      Token.ofKind .rparen :: rest)) (acc.toList ++ as) (Token.ofKind .rparen :: rest)
  | [], acc, _, rest => by
    rw [List.flatMap_nil, List.nil_append, printArgs.eq_2]
    simp only [Token.kind_ofKind, reduceCtorEq, if_false]
    simp [Yields, Except.map]
  | a :: as, acc, hr, rest => by
    obtain ⟨_, ha⟩ := (hr a (by simp) _ (stops_printArgs as rest)).eq
    obtain ⟨_, has⟩ := (printArgs_reads as (acc.push a)
      (fun b hb => hr b (List.mem_cons_of_mem a hb)) rest).eq
    have hts :
        (a :: as).flatMap (Token.ofKind .comma :: ·.tokens) ++ Token.ofKind .rparen :: rest =
        Token.ofKind .comma :: (a.tokens ++ (as.flatMap (Token.ofKind .comma :: ·.tokens) ++
          Token.ofKind .rparen :: rest)) := by
      simp
    rw [hts, printArgs.eq_2]
    simp only [Token.kind_ofKind, if_true, ha, has, bind, Except.bind, pure, Except.pure]
    simp [Yields, Except.map]

theorem printRest_reads (args : List Expr) (hne : args ≠ [])
    (hr : ∀ a ∈ args, ∀ rest, Stops 0 rest →
      Yields (expression e (a.tokens ++ rest)) a rest)
    (rest : List Token) :
    Yields (printRest e (Token.ofKind .lparen :: (Expr.listTokens args ++
      Token.ofKind .rparen :: Token.ofKind .semicolon :: rest))) (.print args) rest := by
  obtain ⟨a, as, rfl⟩ := List.exists_cons_of_ne_nil hne
  obtain ⟨_, ha⟩ := (hr a (by simp) _ (stops_printArgs as (Token.ofKind .semicolon :: rest))).eq
  obtain ⟨_, has⟩ := (printArgs_reads e as #[a] (fun b hb => hr b (List.mem_cons_of_mem a hb))
    (Token.ofKind .semicolon :: rest)).eq
  rw [Expr.listTokens_cons, List.append_assoc]
  simp only [printRest, expect_of_kind e _ _ (Token.kind_ofKind .lparen), ha, has,
    expect_of_kind e _ _ (Token.kind_ofKind .rparen),
    expect_of_kind e _ rest (Token.kind_ofKind .semicolon), bind, Except.bind, pure,
    Except.pure]
  simp [Yields, Except.map]

theorem paramsFrom_reads (name : Scalar) :
    ∀ (ps : List Scalar) (acc : Array Scalar), ps ≠ [] →
    acc.size + ps.length ≤ maxArity → ∀ rest,
    Yields (paramsFrom e name acc (Token.names ps ++ Token.ofKind .rparen :: rest))
      (acc.toList ++ ps) rest
  | [], _, h, _, _ => absurd rfl h
  | [p], acc, _, hlen, rest => by
    have hsize : ¬ acc.size ≥ maxArity := by simp at hlen; omega
    have hcomma : accept .comma (Token.ofKind .rparen :: rest) = none := accept_of_ne (by simp)
    rw [paramsFrom.eq_1, if_neg hsize]
    simp only [Token.names, List.cons_append, List.nil_append,
      expect_of_kind e _ _ (Token.kind_ofName p), hcomma,
      expect_of_kind e _ rest (Token.kind_ofKind .rparen), Token.payload_ofName, bind,
      Except.bind, pure, Except.pure]
    simp [Yields, Except.map]
  | p :: q :: qs, acc, _, hlen, rest => by
    have hsize : ¬ acc.size ≥ maxArity := by simp at hlen; omega
    obtain ⟨_, hmore⟩ := (paramsFrom_reads name (q :: qs) (acc.push p) (by simp)
      (by simp only [List.length_cons, Array.size_push] at hlen ⊢; omega) rest).eq
    have hnames : Token.names (p :: q :: qs) =
        Token.ofName p :: Token.ofKind .comma :: Token.names (q :: qs) := by
      simp [Token.names]
    rw [hnames, paramsFrom.eq_1, if_neg hsize]
    simp only [List.cons_append, expect_of_kind e _ _ (Token.kind_ofName p),
      accept_of_kind _ (Token.kind_ofKind .comma), Token.payload_ofName, hmore, bind,
      Except.bind, pure, Except.pure]
    simp [Yields, Except.map]

/-- The parameters of a function, up to the closing parenthesis, are read back as written. -/
theorem paramList_reads (name : Scalar) (ps : List Scalar) (hlen : ps.length ≤ maxArity)
    (rest : List Token) :
    Yields (paramList e name (Token.names ps ++ Token.ofKind .rparen :: rest)) ps rest := by
  cases ps with
  | nil =>
    simp only [Token.names, List.nil_append, paramList.eq_1,
      accept_of_kind rest (Token.kind_ofKind .rparen)]
    rfl
  | cons p ps =>
    have hne : accept .rparen (Token.names (p :: ps) ++ Token.ofKind .rparen :: rest) = none := by
      apply accept_of_ne
      simp [Token.names_cons]
    rw [paramList.eq_1, hne]
    simpa using paramsFrom_reads e name (p :: ps) #[] (by simp) (by simpa using hlen) rest

end Lists

/-! ### Bodies: blocks, functions and classes -/

/-- The kinds of token a statement can be written from. -/
def Stmt.startKinds : List Token.Kind :=
  [.kwLet, .lbrace, .kwFn, .kwClass, .kwIf, .kwPrint, .kwWhile, .kwReturn] ++ Expr.startKinds

/-- A statement is written from a token of one of `Stmt.startKinds`, and from no declaration
keyword unless it is a declaration. -/
theorem Stmt.tokens_head (s : Stmt) : ∃ t r, s.tokens = t :: r ∧ t.kind ∈ Stmt.startKinds ∧
    (s.isPlain → t.kind ∉ [.kwLet, .kwFn, .kwClass]) := by
  cases s with
  | letDecl x init =>
    cases init <;> exact ⟨Token.ofKind .kwLet, _, rfl, by simp [Stmt.startKinds],
      by simp [Stmt.isPlain]⟩
  | block _ => exact ⟨Token.ofKind .lbrace, _, rfl, by simp [Stmt.startKinds], by simp⟩
  | funDecl _ =>
    exact ⟨Token.ofKind .kwFn, _, rfl, by simp [Stmt.startKinds], by simp [Stmt.isPlain]⟩
  | classDecl _ _ =>
    exact ⟨Token.ofKind .kwClass, _, rfl, by simp [Stmt.startKinds], by simp [Stmt.isPlain]⟩
  | expr x =>
    obtain ⟨r, hr⟩ := Expr.tokens_eq_firstToken x
    have hk := Expr.firstToken_kind_mem x
    refine ⟨x.firstToken, r ++ [Token.ofKind .semicolon], by simp [Stmt.tokens, hr],
      by simp [Stmt.startKinds, hk], fun _ => ?_⟩
    revert hk
    generalize x.firstToken.kind = k
    decide +revert
  | ifElse _ _ _ => exact ⟨Token.ofKind .kwIf, _, rfl, by simp [Stmt.startKinds], by simp⟩
  | print _ => exact ⟨Token.ofKind .kwPrint, _, rfl, by simp [Stmt.startKinds], by simp⟩
  | whileLoop _ _ => exact ⟨Token.ofKind .kwWhile, _, rfl, by simp [Stmt.startKinds], by simp⟩
  | ret v =>
    cases v <;> exact ⟨Token.ofKind .kwReturn, _, rfl, by simp [Stmt.startKinds], by simp⟩

/-- No statement is written from `else` or from a closing brace. -/
theorem Stmt.head_kind_ne (s : Stmt) (rest : List Token) :
    ∀ t ∈ (s.tokens ++ rest).head?, t.kind ≠ .kwElse ∧ t.kind ≠ .rbrace := by
  obtain ⟨t, r, hts, hk, _⟩ := Stmt.tokens_head s
  rw [hts]
  rintro _ ⟨⟩
  revert hk
  generalize t.kind = k
  decide +revert

theorem Stmt.head_listTokens_ne_else (ss : List Stmt) {rest : List Token}
    (hrest : ∀ t ∈ rest.head?, t.kind ≠ .kwElse) :
    ∀ t ∈ (Stmt.listTokens ss ++ rest).head?, t.kind ≠ .kwElse := by
  cases ss with
  | nil => exact hrest
  | cons s ss =>
    intro t ht
    rw [show Stmt.listTokens (s :: ss) = s.tokens ++ Stmt.listTokens ss from rfl,
      List.append_assoc] at ht
    exact (Stmt.head_kind_ne s _ t ht).1

theorem Stmt.allWellFormed_iff {ss : List Stmt} :
    Stmt.allWellFormed ss = true ↔ ∀ s ∈ ss, s.wellFormed := by
  induction ss with
  | nil => simp [Stmt.allWellFormed]
  | cons s ss ih => simp [Stmt.allWellFormed, ih]

theorem Func.allWellFormed_iff {fs : List Func} :
    Func.allWellFormed fs = true ↔ ∀ f ∈ fs, f.wellFormed := by
  induction fs with
  | nil => simp [Func.allWellFormed]
  | cons f fs ih => simp [Func.allWellFormed, ih]

theorem Stmt.length_tokens_le_listTokens {s : Stmt} : ∀ {ss : List Stmt}, s ∈ ss →
    s.tokens.length ≤ (Stmt.listTokens ss).length
  | s' :: ss, h => by
    rw [show Stmt.listTokens (s' :: ss) = s'.tokens ++ Stmt.listTokens ss from rfl,
      List.length_append]
    rcases List.mem_cons.mp h with rfl | h
    · omega
    · have := Stmt.length_tokens_le_listTokens h
      omega

theorem Func.length_tokens_le_listTokens {f : Func} : ∀ {fs : List Func}, f ∈ fs →
    f.tokens.length ≤ (Func.listTokens fs).length
  | f' :: fs, h => by
    rw [show Func.listTokens (f' :: fs) = f'.tokens ++ Func.listTokens fs from rfl,
      List.length_append]
    rcases List.mem_cons.mp h with rfl | h
    · omega
    · have := Func.length_tokens_le_listTokens h
      omega

section Bodies

variable (e : Pos)

theorem blockRest_reads : ∀ (ss : List Stmt) (acc : Array Stmt),
    (∀ s ∈ ss, ∀ rest, (∀ t ∈ rest.head?, t.kind ≠ .kwElse) →
      Yields (declaration e (s.tokens ++ rest)) s rest) →
    ∀ rest, Yields (blockRest e acc (Stmt.listTokens ss ++ Token.ofKind .rbrace :: rest))
      (acc.toList ++ ss) rest
  | [], acc, _, rest => by
    rw [show Stmt.listTokens [] = [] from rfl, List.nil_append, blockRest.eq_2]
    simp only [Token.kind_ofKind, if_true]
    simp [Yields, Except.map]
  | s :: ss, acc, hr, rest => by
    obtain ⟨t, r, hts, hk, _⟩ := Stmt.tokens_head s
    have hs := hr s (by simp) _
      (@Stmt.head_listTokens_ne_else ss (Token.ofKind .rbrace :: rest) (by simp))
    rw [hts, List.cons_append] at hs
    obtain ⟨_, hs⟩ := hs.eq
    obtain ⟨_, hss⟩ := (blockRest_reads ss (acc.push s)
      (fun s' h => hr s' (List.mem_cons_of_mem s h)) rest).eq
    have hlist : Stmt.listTokens (s :: ss) ++ Token.ofKind .rbrace :: rest =
        t :: (r ++ (Stmt.listTokens ss ++ Token.ofKind .rbrace :: rest)) := by
      rw [show Stmt.listTokens (s :: ss) = s.tokens ++ Stmt.listTokens ss from rfl, hts]
      simp
    have hne : t.kind ≠ .rbrace := by
      revert hk
      generalize t.kind = k
      decide +revert
    rw [hlist, blockRest.eq_2, if_neg hne]
    simp only [hs, hss, bind, Except.bind, pure, Except.pure]
    simp [Yields, Except.map]

/-- A function, or a method, is read back from its tokens when its body is. -/
theorem functionRest_reads (f : Func) (hps : f.params.length ≤ maxArity)
    (hbody : ∀ s ∈ f.body, ∀ rest, (∀ t ∈ rest.head?, t.kind ≠ .kwElse) →
      Yields (declaration e (s.tokens ++ rest)) s rest)
    (rest : List Token) : Yields (functionRest e (f.tokens ++ rest)) f rest := by
  obtain ⟨x, ps, body⟩ := f
  have hts : Func.tokens ⟨x, ps, body⟩ ++ rest =
      Token.ofName x :: Token.ofKind .lparen :: (Token.names ps ++ Token.ofKind .rparen ::
        Token.ofKind .lbrace :: (Stmt.listTokens body ++ Token.ofKind .rbrace :: rest)) := by
    simp [Func.tokens]
  obtain ⟨_, hparams⟩ := (paramList_reads e x ps hps
    (Token.ofKind .lbrace :: (Stmt.listTokens body ++ Token.ofKind .rbrace :: rest))).eq
  obtain ⟨_, hb⟩ := (blockRest_reads e body #[] hbody rest).eq
  rw [hts, functionRest.eq_1]
  simp only [expect_of_kind e _ _ (Token.kind_ofName x), Token.payload_ofName,
    expect_of_kind e _ _ (Token.kind_ofKind .lparen), hparams,
    expect_of_kind e _ _ (Token.kind_ofKind .lbrace), hb, bind, Except.bind, pure, Except.pure]
  simp [Yields, Except.map]

theorem methods_reads (name : Text) : ∀ (ms : List Func) (acc : Array Func),
    (∀ m ∈ ms, ∀ rest, Yields (functionRest e (m.tokens ++ rest)) m rest) →
    ∀ rest, Yields (methods e name acc (Func.listTokens ms ++ Token.ofKind .rbrace :: rest))
      (acc.toList ++ ms) rest
  | [], acc, _, rest => by
    rw [show Func.listTokens [] = [] from rfl, List.nil_append, methods.eq_2]
    simp only [Token.kind_ofKind, if_true]
    simp [Yields, Except.map]
  | m :: ms, acc, hr, rest => by
    obtain ⟨r, hts⟩ : ∃ r, m.tokens = Token.ofName m.name :: r := by
      cases m
      exact ⟨_, rfl⟩
    have hm := hr m (by simp) (Func.listTokens ms ++ Token.ofKind .rbrace :: rest)
    rw [hts, List.cons_append] at hm
    obtain ⟨_, hm⟩ := hm.eq
    obtain ⟨_, hms⟩ := (methods_reads name ms (acc.push m)
      (fun m' h => hr m' (List.mem_cons_of_mem _ h)) rest).eq
    rw [show Func.listTokens (m :: ms) = m.tokens ++ Func.listTokens ms from rfl,
      List.append_assoc, hts, List.cons_append, methods.eq_2, if_neg (by simp)]
    simp only [hm, hms, bind, Except.bind, pure, Except.pure]
    simp [Yields, Except.map]

theorem classRest_reads (x : Scalar) (ms : List Func)
    (hms : ∀ m ∈ ms, ∀ rest, Yields (functionRest e (m.tokens ++ rest)) m rest)
    (rest : List Token) :
    Yields (classRest e (Token.ofName x :: Token.ofKind .lbrace ::
      (Func.listTokens ms ++ Token.ofKind .rbrace :: rest))) (.classDecl x ms) rest := by
  obtain ⟨_, hm⟩ := (methods_reads e x.display ms #[] hms rest).eq
  rw [classRest.eq_1]
  simp only [expect_of_kind e _ _ (Token.kind_ofName x), Token.payload_ofName,
    expect_of_kind e _ _ (Token.kind_ofKind .lbrace), hm, bind, Except.bind, pure, Except.pure]
  simp [Yields, Except.map]

end Bodies

/-! ### Statements -/

theorem statement_of_expr (e : Pos) {t : Token} (r : List Token) (ht : t.kind ∈ Expr.startKinds) :
    statement e (t :: r) = exprStmt e (t :: r) := by
  simp only [Expr.startKinds, List.mem_cons, List.not_mem_nil, or_false] at ht
  rcases ht with h | h | h | h | h | h | h | h | h | h <;> rw [statement.eq_2, h]

theorem declaration_of_statement (e : Pos) {t : Token} (r : List Token)
    (ht : t.kind ∉ [.kwLet, .kwFn, .kwClass]) :
    declaration e (t :: r) = statement e (t :: r) := by
  rw [declaration.eq_2]
  split
  next h => simp [h] at ht
  next h => simp [h] at ht
  next h => simp [h] at ht
  next => rfl

/-- The tokens of a statement are read back as the statement, followed by any tokens that do
not start with `else` when it ends with a conditional without one: by `statement` where the
grammar wants a statement, if it is no declaration, and by `declaration`. -/
structure StmtReadsBack (e : Pos) (s : Stmt) : Prop where
  atStatement : s.isPlain → ∀ rest,
    (s.endsOpen → ∀ t ∈ rest.head?, t.kind ≠ .kwElse) →
    Yields (statement e (s.tokens ++ rest)) s rest
  atDeclaration : ∀ rest, (s.endsOpen → ∀ t ∈ rest.head?, t.kind ≠ .kwElse) →
    Yields (declaration e (s.tokens ++ rest)) s rest

section Stmts

variable (e : Pos) {s : Stmt}
  (ih : ∀ s' : Stmt, s'.tokens.length < s.tokens.length → s'.wellFormed → StmtReadsBack e s')
include ih

theorem body_reads {ss : List Stmt} (hss : Stmt.allWellFormed ss)
    (hlen : (Stmt.listTokens ss).length < s.tokens.length) :
    ∀ s' ∈ ss, ∀ rest, (∀ t ∈ rest.head?, t.kind ≠ .kwElse) →
      Yields (declaration e (s'.tokens ++ rest)) s' rest := fun s' hs' rest hrest =>
  (ih s' (Nat.lt_of_le_of_lt (Stmt.length_tokens_le_listTokens hs') hlen)
    (Stmt.allWellFormed_iff.mp hss s' hs')).atDeclaration rest fun _ => hrest

theorem func_reads {f : Func} (hf : f.wellFormed) (hlen : f.tokens.length < s.tokens.length)
    (rest : List Token) : Yields (functionRest e (f.tokens ++ rest)) f rest := by
  obtain ⟨x, ps, body⟩ := f
  simp only [Func.wellFormed, Bool.and_eq_true, decide_eq_true_eq] at hf
  have hbody : (Stmt.listTokens body).length < (Func.tokens ⟨x, ps, body⟩).length := by
    simp only [Func.tokens, List.length_cons, List.length_append]
    omega
  exact functionRest_reads e ⟨x, ps, body⟩ hf.1.2 (body_reads e ih hf.2
    (show (Stmt.listTokens body).length < s.tokens.length by omega)) rest

theorem statement_reads (hs : s.wellFormed) (hplain : s.isPlain) (rest : List Token)
    (hrest : s.endsOpen → ∀ t ∈ rest.head?, t.kind ≠ .kwElse) :
    Yields (statement e (s.tokens ++ rest)) s rest := by
  cases s with
  -- declarations are read by `declaration` only
  | letDecl _ _ | funDecl _ | classDecl _ _ => simp [Stmt.isPlain] at hplain
  | block ss =>
    have hts : (Stmt.block ss).tokens ++ rest =
        Token.ofKind .lbrace :: (Stmt.listTokens ss ++ Token.ofKind .rbrace :: rest) := by
      simp [Stmt.tokens]
    have hb := blockRest_reads e ss #[] (body_reads e ih hs (by
      simp only [Stmt.tokens, List.length_cons, List.length_append]; omega)) rest
    rw [Array.toList_empty, List.nil_append] at hb
    rw [hts, statement.eq_2]
    exact Yields.cons (Yields.map_fst Stmt.block hb)
  | expr x =>
    -- `statement` hands a token that can start an expression to the expression reader
    obtain ⟨r, hr⟩ := Expr.tokens_eq_firstToken x
    have hx := (reads_back e x hs).atExpression (Token.ofKind .semicolon :: rest)
      (stops_punct _ (by simp) _)
    have hts : (Stmt.expr x).tokens ++ rest = x.tokens ++ Token.ofKind .semicolon :: rest := by
      simp [Stmt.tokens]
    rw [hts, hr, List.cons_append, statement_of_expr e _ (Expr.firstToken_kind_mem x),
      ← List.cons_append, ← hr]
    exact exprStmt_of e hx
  | ifElse c yes no =>
    simp only [Stmt.wellFormed, Bool.and_eq_true] at hs
    obtain ⟨⟨⟨⟨hc, hyp⟩, hyw⟩, hopen⟩, hno⟩ := hs
    have hylen : yes.tokens.length < (Stmt.ifElse c yes no).tokens.length := by
      simp only [Stmt.tokens, List.length_cons, List.length_append]
      omega
    cases no with
    | none =>
      -- no `else` follows, as `hrest` says, so the reader takes none
      have hts : (Stmt.ifElse c yes none).tokens ++ rest = Token.ofKind .kwIf ::
          Token.ofKind .lparen :: (c.tokens ++ Token.ofKind .rparen :: (yes.tokens ++ rest)) := by
        simp [Stmt.tokens, Stmt.elseTokens]
      rw [hts, statement.eq_2]
      exact Yields.cons (ifRest_none e
        ((reads_back e c hc).atExpression _ (stops_punct _ (by simp) _))
        ((ih yes hylen hyw).atStatement hyp rest fun _ => hrest rfl) (hrest rfl))
    | some n =>
      -- the branch taken does not end open (`hopen`), so the `else` after it is this one's
      simp only [Stmt.elseWellFormed, Option.isNone_some, Bool.false_or, Bool.not_eq_true',
        Bool.and_eq_true] at hopen hno
      have hnlen : n.tokens.length < (Stmt.ifElse c yes (some n)).tokens.length := by
        simp only [Stmt.tokens, Stmt.elseTokens, List.length_cons, List.length_append]
        omega
      have hts : (Stmt.ifElse c yes (some n)).tokens ++ rest = Token.ofKind .kwIf ::
          Token.ofKind .lparen :: (c.tokens ++ Token.ofKind .rparen :: (yes.tokens ++
            Token.ofKind .kwElse :: (n.tokens ++ rest))) := by
        simp [Stmt.tokens, Stmt.elseTokens]
      rw [hts, statement.eq_2]
      exact Yields.cons (ifRest_some e
        ((reads_back e c hc).atExpression _ (stops_punct _ (by simp) _))
        ((ih yes hylen hyw).atStatement hyp _ fun h => absurd h (by simp [hopen]))
        ((ih n hnlen hno.2).atStatement hno.1 rest hrest))
  | print args =>
    simp only [Stmt.wellFormed, Bool.and_eq_true, Bool.not_eq_true', List.isEmpty_eq_false_iff]
      at hs
    have hts : (Stmt.print args).tokens ++ rest = Token.ofKind .kwPrint ::
        Token.ofKind .lparen :: (Expr.listTokens args ++ Token.ofKind .rparen ::
          Token.ofKind .semicolon :: rest) := by
      simp [Stmt.tokens]
    rw [hts, statement.eq_2]
    exact Yields.cons (printRest_reads e args hs.1 (fun a ha rest' hs' =>
      (reads_back e a (Expr.allWellFormed_iff.mp hs.2 a ha)).atExpression rest' hs') rest)
  | whileLoop c body =>
    simp only [Stmt.wellFormed, Bool.and_eq_true] at hs
    obtain ⟨⟨hc, hbp⟩, hbw⟩ := hs
    have hblen : body.tokens.length < (Stmt.whileLoop c body).tokens.length := by
      simp only [Stmt.tokens, List.length_cons, List.length_append]
      omega
    have hts : (Stmt.whileLoop c body).tokens ++ rest = Token.ofKind .kwWhile ::
        Token.ofKind .lparen :: (c.tokens ++ Token.ofKind .rparen :: (body.tokens ++ rest)) := by
      simp [Stmt.tokens]
    rw [hts, statement.eq_2]
    exact Yields.cons (whileRest_of e
      ((reads_back e c hc).atExpression _ (stops_punct _ (by simp) _))
      ((ih body hblen hbw).atStatement hbp rest hrest))
  | ret v =>
    cases v with
    | none =>
      rw [show (Stmt.ret none).tokens ++ rest =
        Token.ofKind .kwReturn :: Token.ofKind .semicolon :: rest from rfl, statement.eq_2]
      exact Yields.cons (returnRest_none e rest)
    | some v =>
      simp only [Stmt.wellFormed, Option.all_some] at hs
      have hts : (Stmt.ret (some v)).tokens ++ rest =
          Token.ofKind .kwReturn :: (v.tokens ++ Token.ofKind .semicolon :: rest) := by
        simp [Stmt.tokens]
      -- an expression never starts with `;`, so the reader does not take `return;`
      have hhead : ∀ t ∈ (v.tokens ++ Token.ofKind .semicolon :: rest).head?,
          t.kind ≠ .semicolon := by
        obtain ⟨r, hr⟩ := Expr.tokens_eq_firstToken v
        rw [hr]
        rintro _ ⟨⟩
        have hk := Expr.firstToken_kind_mem v
        revert hk
        generalize v.firstToken.kind = k
        decide +revert
      rw [hts, statement.eq_2]
      exact Yields.cons (returnRest_some e hhead
        ((reads_back e v hs).atExpression _ (stops_punct _ (by simp) _)))

theorem declaration_reads (hs : s.wellFormed) (rest : List Token)
    (hrest : s.endsOpen → ∀ t ∈ rest.head?, t.kind ≠ .kwElse) :
    Yields (declaration e (s.tokens ++ rest)) s rest := by
  by_cases hplain : s.isPlain
  · -- a statement that is no declaration is read by `statement`
    obtain ⟨t, r, hts, _, hk⟩ := Stmt.tokens_head s
    have hstmt := statement_reads e ih hs hplain rest hrest
    rw [hts, List.cons_append] at hstmt ⊢
    rw [declaration_of_statement e _ (hk hplain)]
    exact hstmt
  · cases s with
    | letDecl x init =>
      simp only [Stmt.wellFormed, Bool.and_eq_true] at hs
      cases init with
      | none =>
        rw [show (Stmt.letDecl x none).tokens ++ rest = Token.ofKind .kwLet :: Token.ofName x ::
          Token.ofKind .semicolon :: rest from rfl, declaration.eq_2]
        exact Yields.cons (letRest_none e x rest)
      | some v =>
        simp only [Option.all_some] at hs
        have hts : (Stmt.letDecl x (some v)).tokens ++ rest = Token.ofKind .kwLet ::
            Token.ofName x :: Token.ofKind .assign ::
              (v.tokens ++ Token.ofKind .semicolon :: rest) := by
          simp [Stmt.tokens]
        rw [hts, declaration.eq_2]
        exact Yields.cons (letRest_some e x
          ((reads_back e v hs.2).atExpression _ (stops_punct _ (by simp) _)))
    | funDecl f =>
      rw [show (Stmt.funDecl f).tokens ++ rest = Token.ofKind .kwFn :: (f.tokens ++ rest) from rfl,
        declaration.eq_2]
      exact Yields.cons (Yields.map_fst Stmt.funDecl
        (func_reads e ih hs (by simp [Stmt.tokens]) rest))
    | classDecl x ms =>
      simp only [Stmt.wellFormed, Bool.and_eq_true] at hs
      have hts : (Stmt.classDecl x ms).tokens ++ rest = Token.ofKind .kwClass ::
          Token.ofName x :: Token.ofKind .lbrace :: (Func.listTokens ms ++
            Token.ofKind .rbrace :: rest) := by
        simp [Stmt.tokens]
      -- every method has fewer tokens than the class, so the induction reads it back
      have hms : ∀ m ∈ ms, ∀ rest', Yields (functionRest e (m.tokens ++ rest')) m rest' := by
        intro m hm rest'
        have hle := Func.length_tokens_le_listTokens hm
        refine func_reads e ih (Func.allWellFormed_iff.mp hs.2 m hm) ?_ rest'
        simp only [Stmt.tokens, List.length_cons, List.length_append]
        omega
      rw [hts, declaration.eq_2]
      exact Yields.cons (classRest_reads e x ms hms rest)
    | block _ | expr _ | ifElse _ _ _ | print _ | whileLoop _ _ | ret _ =>
      simp [Stmt.isPlain] at hplain

end Stmts

/-- Every well-formed statement is read back from its tokens. The reader calls itself on
shorter token lists, so the induction is on the number of tokens. -/
theorem stmt_reads_back (e : Pos) (s : Stmt) (hs : s.wellFormed) : StmtReadsBack e s := by
  induction hn : s.tokens.length using Nat.strongRecOn generalizing s with
  | ind n ihn =>
    have ih : ∀ s' : Stmt, s'.tokens.length < s.tokens.length → s'.wellFormed →
        StmtReadsBack e s' :=
      fun s' hs' hwf => ihn _ (hn ▸ hs') s' hwf rfl
    exact ⟨statement_reads e ih hs, declaration_reads e ih hs⟩

/-- The declarations of a program, written one after another, are read back as the program's
body. -/
theorem declarations_reads (e : Pos) : ∀ (ss : List Stmt) (acc : Array Stmt),
    Stmt.allWellFormed ss → declarations e acc (Stmt.listTokens ss) = .ok (acc.toList ++ ss)
  | [], acc, _ => by
    rw [show Stmt.listTokens [] = [] from rfl, declarations.eq_1, List.append_nil]
  | s :: ss, acc, h => by
    simp only [Stmt.allWellFormed, Bool.and_eq_true] at h
    obtain ⟨t, r, hts, _, _⟩ := Stmt.tokens_head s
    -- the next declaration does not start with `else`, so nothing after a conditional that
    -- ends open is taken for its else branch
    have hs := (stmt_reads_back e s h.1).atDeclaration (Stmt.listTokens ss) fun _ => by
      simpa using @Stmt.head_listTokens_ne_else ss [] (by simp)
    rw [hts, List.cons_append] at hs
    obtain ⟨_, hs⟩ := hs.eq
    rw [show Stmt.listTokens (s :: ss) = s.tokens ++ Stmt.listTokens ss from rfl, hts,
      List.cons_append, declarations.eq_2]
    simp only [hs, bind, Except.bind]
    rw [declarations_reads e ss (acc.push s) h.2]
    simp

end Syntax

/-! ### The end token -/

/-- No token of a list is an end token. -/
def Token.NoEnd (l : List Token) : Prop := ∀ t ∈ l, t.kind ≠ .eof

@[simp] theorem Token.noEnd_nil : Token.NoEnd [] := by
  simp [Token.NoEnd]

@[simp] theorem Token.noEnd_cons {t : Token} {l : List Token} :
    Token.NoEnd (t :: l) ↔ t.kind ≠ .eof ∧ Token.NoEnd l := by
  simp [Token.NoEnd]

@[simp] theorem Token.noEnd_append {l l' : List Token} :
    Token.NoEnd (l ++ l') ↔ Token.NoEnd l ∧ Token.NoEnd l' := by
  simp [Token.NoEnd, or_imp, forall_and]

@[simp] theorem Token.kind_ofScalar_ne_eof (x : Scalar) : (Token.ofScalar x).kind ≠ .eof := by
  cases x with
  | bool b => cases b <;> simp [Token.ofScalar]
  | _ => simp [Token.ofScalar]

@[simp] theorem BinOp.kind_ne_eof (o : BinOp) : o.kind ≠ .eof := by
  cases o <;> decide

@[simp] theorem LogicOp.kind_ne_eof (o : LogicOp) : o.kind ≠ .eof := by
  cases o <;> decide

@[simp] theorem UnaryOp.kind_ne_eof (o : UnaryOp) : o.kind ≠ .eof := by
  cases o <;> decide

theorem Token.noEnd_names (xs : List Scalar) : Token.NoEnd (Token.names xs) := by
  cases xs with
  | nil => simp [Token.names]
  | cons x xs =>
    simp only [Syntax.Token.names_cons, Token.NoEnd, List.mem_cons, List.mem_flatMap,
      List.not_mem_nil, or_false]
    rintro t (rfl | ⟨y, _, rfl | rfl⟩) <;> simp

mutual

theorem Expr.noEnd_tokens : (x : Expr) → Token.NoEnd x.tokens
  | .literal _ | .var _ | .thisRef => by simp [Expr.tokens]
  | .assign _ v => by simp [Expr.tokens, Expr.noEnd_tokens v]
  | .setField t _ v => by simp [Expr.tokens, Expr.noEnd_tokens t, Expr.noEnd_tokens v]
  | .logical _ _ l r | .binary _ _ l r => by
    simp [Expr.tokens, Expr.noEnd_tokens l, Expr.noEnd_tokens r]
  | .unary _ _ x | .group x => by simp [Expr.tokens, Expr.noEnd_tokens x]
  | .call c args => by simp [Expr.tokens, Expr.noEnd_tokens c, Expr.noEnd_listTokens args]
  | .getField t _ => by simp [Expr.tokens, Expr.noEnd_tokens t]

theorem Expr.noEnd_listTokens : (xs : List Expr) → Token.NoEnd (Expr.listTokens xs)
  | [] => by simp [Expr.listTokens]
  | [x] => by simp [Expr.listTokens, Expr.noEnd_tokens x]
  | x :: y :: ys => by
    rw [show Expr.listTokens (x :: y :: ys) =
      x.tokens ++ Token.ofKind .comma :: Expr.listTokens (y :: ys) from rfl]
    simp [Expr.noEnd_tokens x, Expr.noEnd_listTokens (y :: ys)]

end

mutual

theorem Stmt.noEnd_tokens : (s : Stmt) → Token.NoEnd s.tokens
  | .letDecl _ none | .ret none => by simp [Stmt.tokens]
  | .letDecl _ (some v) | .expr v | .ret (some v) => by simp [Stmt.tokens, Expr.noEnd_tokens v]
  | .block ss => by simp [Stmt.tokens, Stmt.noEnd_listTokens ss]
  | .funDecl f => by simp [Stmt.tokens, Func.noEnd_tokens f]
  | .classDecl _ ms => by simp [Stmt.tokens, Func.noEnd_listTokens ms]
  | .ifElse c yes no => by
    simp [Stmt.tokens, Expr.noEnd_tokens c, Stmt.noEnd_tokens yes, Stmt.noEnd_elseTokens no]
  | .print args => by simp [Stmt.tokens, Expr.noEnd_listTokens args]
  | .whileLoop c body => by simp [Stmt.tokens, Expr.noEnd_tokens c, Stmt.noEnd_tokens body]

theorem Stmt.noEnd_elseTokens : (no : Option Stmt) → Token.NoEnd (Stmt.elseTokens no)
  | none => by simp [Stmt.elseTokens]
  | some s => by simp [Stmt.elseTokens, Stmt.noEnd_tokens s]

theorem Stmt.noEnd_listTokens : (ss : List Stmt) → Token.NoEnd (Stmt.listTokens ss)
  | [] => by simp [Stmt.listTokens]
  | s :: ss => by simp [Stmt.listTokens, Stmt.noEnd_tokens s, Stmt.noEnd_listTokens ss]

theorem Func.noEnd_tokens : (f : Func) → Token.NoEnd f.tokens
  | ⟨_, ps, body⟩ => by simp [Func.tokens, Token.noEnd_names ps, Stmt.noEnd_listTokens body]

theorem Func.noEnd_listTokens : (fs : List Func) → Token.NoEnd (Func.listTokens fs)
  | [] => by simp [Func.listTokens]
  | f :: fs => by simp [Func.listTokens, Func.noEnd_tokens f, Func.noEnd_listTokens fs]

end

/-! ### Programs -/

/-- A well-formed program, written as tokens, is read back as the same program. -/
theorem Program.ofTokens_render (p : Program) (h : p.wellFormed) :
    Program.ofTokens? p.render = .ok p := by
  obtain ⟨body⟩ := p
  have hlast : (Program.render ⟨body⟩).getLast? = some (Token.endAt Pos.start) := by
    simp [Program.render]
  have htake : (Program.render ⟨body⟩).takeWhile (·.kind ≠ .eof) = Stmt.listTokens body := by
    rw [Program.render, List.takeWhile_append_of_pos
      (fun t ht => by simpa using Stmt.noEnd_listTokens body t ht)]
    simp [Token.endAt]
  rw [Program.ofTokens?, hlast]
  simp only [Token.endAt, if_true, htake, Syntax.declarations_reads _ body #[] h]
  rfl

/-- `let x = 1 + 2; print(x);` is well formed and read back from its tokens. -/
theorem Program.ofTokens_render_letPrint :
    Program.wellFormed ⟨[.letDecl (.text (Text.ofString "x")) (some (.binary .add
        (.text (Text.ofString "+")) (.literal (.int 1)) (.literal (.int 2)))),
      .print [.var (.text (Text.ofString "x"))]]⟩ ∧
    Program.ofTokens? (Program.render ⟨[.letDecl (.text (Text.ofString "x")) (some (.binary .add
        (.text (Text.ofString "+")) (.literal (.int 1)) (.literal (.int 2)))),
      .print [.var (.text (Text.ofString "x"))]]⟩) =
      .ok ⟨[.letDecl (.text (Text.ofString "x")) (some (.binary .add
        (.text (Text.ofString "+")) (.literal (.int 1)) (.literal (.int 2)))),
      .print [.var (.text (Text.ofString "x"))]]⟩ :=
  ⟨by decide, Program.ofTokens_render _ (by decide)⟩

end Ember
