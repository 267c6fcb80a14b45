import Mathlib.Data.List.Forall2
import Ember.Proofs.Provenance
import Ember.Proofs.RoundTrip
/-!
A read depends only on the tokens it takes.

A successful read of the tokens `ts` that leaves `rest` reads the same tree from any tokens
that agree with `ts` in everything but their positions, with any tokens `u` after them, and
leaves the tokens that agree with `rest`, followed by `u` (`ExprLocality`, `StmtLocality`). It
does not matter where the input ends either: the end position is used only in faults. What
the reader could see of `u` is the token after the read. An expression read is therefore
taken to end before some token of its own (`EndsExpr`), which every expression inside a
statement does; a statement read may end with the tokens, as long as `u` does not start with
an `else` that the reader would take to belong to a conditional without one (`EndsStmt`).

Main statement: the declarations of two token lists that are read one after the other are
the declarations of each (`declarations_append`).
-/

namespace Ember

/-- Two tokens that agree in everything but their positions. -/
def Token.Similar (t t' : Token) : Prop :=
  t.kind = t'.kind ∧ t.lexeme = t'.lexeme ∧ t.payload = t'.payload

instance (t t' : Token) : Decidable (t.Similar t') := inferInstanceAs (Decidable (_ ∧ _ ∧ _))

theorem Token.similar_refl (t : Token) : t.Similar t := ⟨rfl, rfl, rfl⟩

theorem Token.forall₂_similar_refl : ∀ ts : List Token, List.Forall₂ Token.Similar ts ts
  | [] => .nil
  | t :: ts => .cons (Token.similar_refl t) (forall₂_similar_refl ts)

namespace Syntax

/-- An expression read that left `rest` ended before a token of its own, or the tokens `u`
after it are none. -/
def EndsExpr (rest u : List Token) : Prop := rest ≠ [] ∨ u = []

/-- A statement read that left `rest` ended before a token of its own, or the tokens `u`
after it do not start with `else`. -/
def EndsStmt (rest u : List Token) : Prop := rest ≠ [] ∨ ∀ t ∈ u.head?, t.kind ≠ .kwElse

/-- The read `r` gives `x` and leaves tokens that agree with `rest`, followed by `u`. -/
def Again {α : Type} {P : List Token → Prop} (r : Except Fault (α × {l : List Token // P l}))
    (x : α) (rest u : List Token) : Prop :=
  ∃ rest', Yields r x (rest' ++ u) ∧ List.Forall₂ Token.Similar rest rest'

section Helpers

variable {α β : Type} {P Q : List Token → Prop} {u : List Token}

theorem EndsExpr.of_ne_nil {rest : List Token} (h : rest ≠ []) : EndsExpr rest u := .inl h

theorem EndsExpr.of_suffix {rest r : List Token} (h : EndsExpr rest u) (hs : rest <:+ r) :
    EndsExpr r u := by
  rcases h with h | h
  · left
    rintro rfl
    exact h (List.eq_nil_of_suffix_nil hs)
  · exact .inr h

theorem EndsExpr.endsStmt {rest : List Token} (h : EndsExpr rest u) : EndsStmt rest u := by
  rcases h with h | rfl
  · exact .inl h
  · exact .inr fun t h => absurd h (Option.not_mem_none t)

theorem EndsStmt.of_suffix {rest r : List Token} (h : EndsStmt rest u) (hs : rest <:+ r) :
    EndsStmt r u := by
  rcases h with h | h
  · left
    rintro rfl
    exact h (List.eq_nil_of_suffix_nil hs)
  · exact .inr h

/-- Tokens after a read that ended on the last of its tokens, when the read could take no
more. -/
theorem EndsExpr.nil {u : List Token} (h : EndsExpr [] u) : u = [] :=
  h.resolve_left (· rfl)

/-- Nothing is seen after a read that ended with the tokens. -/
theorem EndsExpr.nothing_after {rest : List Token} (h : EndsExpr rest u) (k : Token.Kind) :
    rest = [] → ∀ t ∈ u.head?, t.kind ≠ k := by
  rintro rfl t ht
  rw [h.nil] at ht
  exact absurd ht (Option.not_mem_none t)

theorem Yields.to_bind {x : Except Fault (α × {l : List Token // P l})}
    {f : α × {l : List Token // P l} → Except Fault (β × {l : List Token // Q l})} {a : α}
    {r : List Token} {z : β} {rest : List Token} (hx : Yields x a r)
    (hf : ∀ hr, Yields (f (a, ⟨r, hr⟩)) z rest) : Yields (x >>= f) z rest := by
  obtain ⟨hr, rfl⟩ := hx.eq
  exact hf hr

theorem Again.of_bind {x : Except Fault (α × {l : List Token // P l})}
    {f : α × {l : List Token // P l} → Except Fault (β × {l : List Token // Q l})} {a : α}
    {r : List Token} {z : β} {rest : List Token} (hx : Yields x a r)
    (hf : ∀ hr, Again (f (a, ⟨r, hr⟩)) z rest u) : Again (x >>= f) z rest u := by
  obtain ⟨hr, rfl⟩ := hx.eq
  exact hf hr

theorem Again.ok {a : α} {rest rest' : List Token} {hr : P (rest' ++ u)}
    (h : List.Forall₂ Token.Similar rest rest') :
    Again (Except.ok (a, ⟨rest' ++ u, hr⟩) : Except Fault (α × {l : List Token // P l})) a rest u :=
  ⟨rest', rfl, h⟩

theorem Again.pure {a : α} {rest rest' : List Token} {hr : P (rest' ++ u)}
    (h : List.Forall₂ Token.Similar rest rest') :
    Again (Pure.pure (a, ⟨rest' ++ u, hr⟩) : Except Fault (α × {l : List Token // P l})) a rest u :=
  ⟨rest', rfl, h⟩

theorem Again.cons {t : Token} {r : List Token} {x : Read r α} {a : α} {rest : List Token}
    (h : Again x a rest u) : Again (Read.cons x : Read (t :: r) α) a rest u := by
  obtain ⟨rest', hx, hs⟩ := h
  exact ⟨rest', Yields.cons hx, hs⟩

theorem Again.map {x : Except Fault (α × {l : List Token // P l})} {a : α} {rest : List Token}
    (f : α → β) (h : Again x a rest u) :
    Again (x.map fun (a, y) => (f a, y)) (f a) rest u := by
  obtain ⟨rest', hx, hs⟩ := h
  exact ⟨rest', Yields.map_fst f hx, hs⟩

theorem Yields.expect_similar {e : Pos} {k : Token.Kind} {what : Text} {t t' : Token}
    (r : List Token) (hs : t.Similar t') (hk : t.kind = k) :
    Yields (expect e k what (t' :: r)) t' r := by
  rw [expect_of_kind e what r (hs.1 ▸ hk)]
  rfl

/-- An expected token of the read is one of the similar tokens too, and is expected there
whatever the end position and the text of the fault would be. -/
theorem expect_again {e : Pos} {k : Token.Kind} {what : Text} {ts ts' : List Token}
    {t : Token} {r : List Token} (h : Yields (expect e k what ts) t r)
    (hs : List.Forall₂ Token.Similar ts ts') :
    ∃ t' r', ts' = t' :: r' ∧ t.Similar t' ∧ List.Forall₂ Token.Similar r r' ∧
      ∀ e' what' u, Yields (expect e' k what' (ts' ++ u)) t' (r' ++ u) := by
  obtain ⟨rfl, hk⟩ := expect_inv h
  cases hs with
  | cons ht hr =>
    exact ⟨_, _, rfl, ht, hr, fun _ _ _ => Yields.expect_similar _ ht hk⟩

theorem accept_similar {k : Token.Kind} {ts ts' : List Token} {t : Token} {x : Rest ts}
    (h : accept k ts = some (t, x)) (hs : List.Forall₂ Token.Similar ts ts') :
    ∃ t' r', ts' = t' :: r' ∧ t.Similar t' ∧ List.Forall₂ Token.Similar x.1 r' ∧
      ∃ hr, accept k (ts' ++ u) = some (t', ⟨r' ++ u, hr⟩) := by
  obtain ⟨hts, hk⟩ := accept_inv h
  rw [hts] at hs
  cases hs with
  | cons ht hr =>
    exact ⟨_, _, rfl, ht, hr, _, accept_of_kind _ (ht.1 ▸ hk)⟩

/-- A token that a read does not take is not taken from similar tokens either, nor after the
end when the tokens after it do not start with it. -/
theorem accept_none_similar {k : Token.Kind} {ts ts' : List Token} (h : accept k ts = none)
    (hs : List.Forall₂ Token.Similar ts ts') (hu : ts = [] → ∀ t ∈ u.head?, t.kind ≠ k) :
    accept k (ts' ++ u) = none := by
  cases hs with
  | nil => exact accept_of_ne (hu rfl)
  | @cons t t' r r' ht hr =>
    apply accept_of_ne
    intro t'' h'' hk
    cases h''
    have hk' : t.kind = k := ht.1.trans hk
    simp [accept, hk'] at h

/-- A read that takes a token had one to take. -/
theorem Yields.ne_nil {ts : List Token} {x : Except Fault (α × Rest ts)} {a : α}
    {rest : List Token} (h : Yields x a rest) : ts ≠ [] := by
  rintro rfl
  exact Nat.not_lt_zero _ h.eq.1

/-- A read followed by an expected token ends before it. -/
theorem EndsExpr.of_expect {e : Pos} {k : Token.Kind} {what : Text} {r r' : List Token}
    {t : Token} (h : Yields (expect e k what r) t r') : EndsExpr r u :=
  .of_ne_nil (by rw [(expect_inv h).1]; exact List.cons_ne_nil t r')

theorem EndsExpr.of_accept {k : Token.Kind} {r : List Token} {t : Token} {x : Rest r}
    (h : accept k r = some (t, x)) : EndsExpr r u :=
  .of_ne_nil (by rw [(accept_inv h).1]; exact List.cons_ne_nil t x.1)

/-- No `else` is seen after a statement read that ended with the tokens. -/
theorem EndsStmt.else_after {rest : List Token} (h : EndsStmt rest u) :
    rest = [] → ∀ t ∈ u.head?, t.kind ≠ .kwElse :=
  fun h0 => h.resolve_left (· h0)

theorem startsWith_similar {k : Token.Kind} {ts ts' : List Token}
    (hs : List.Forall₂ Token.Similar ts ts') (hne : ts ≠ []) :
    startsWith k (ts' ++ u) = startsWith k ts := by
  cases hs with
  | nil => exact absurd rfl hne
  | cons ht _ => simp only [List.cons_append, startsWith, ht.1]

end Helpers

/-! ### Expressions -/

/-- Every expression reader reads the same from similar tokens followed by any tokens after an
expression that ends before them. -/
structure ExprLocality (e : Pos) : Prop where
  primary : ∀ ts x rest, Yields (primary e ts) x rest → ∀ e' ts' u,
    List.Forall₂ Token.Similar ts ts' → EndsExpr rest u → Again (primary e' (ts' ++ u)) x rest u
  expression : ∀ ts x rest, Yields (expression e ts) x rest → ∀ e' ts' u,
    List.Forall₂ Token.Similar ts ts' → EndsExpr rest u →
      Again (expression e' (ts' ++ u)) x rest u
  infixExpr : ∀ lvl ts x rest, Yields (infixExpr e lvl ts) x rest → ∀ e' ts' u,
    List.Forall₂ Token.Similar ts ts' → EndsExpr rest u →
      Again (infixExpr e' lvl (ts' ++ u)) x rest u
  infixTail : ∀ lvl left ts x rest, Yields (infixTail e lvl left ts) x rest → ∀ e' ts' u,
    List.Forall₂ Token.Similar ts ts' → EndsExpr rest u →
      Again (infixTail e' lvl left (ts' ++ u)) x rest u
  operand : ∀ lvl ts x rest, Yields (operand e lvl ts) x rest → ∀ e' ts' u,
    List.Forall₂ Token.Similar ts ts' → EndsExpr rest u →
      Again (operand e' lvl (ts' ++ u)) x rest u
  prefixExpr : ∀ ts x rest, Yields (prefixExpr e ts) x rest → ∀ e' ts' u,
    List.Forall₂ Token.Similar ts ts' → EndsExpr rest u →
      Again (prefixExpr e' (ts' ++ u)) x rest u
  callTail : ∀ callee ts x rest, Yields (callTail e callee ts) x rest → ∀ e' ts' u,
    List.Forall₂ Token.Similar ts ts' → EndsExpr rest u →
      Again (callTail e' callee (ts' ++ u)) x rest u
  callArgs : ∀ ts xs rest, Yields (callArgs e ts) xs rest → ∀ e' ts' u,
    List.Forall₂ Token.Similar ts ts' → EndsExpr rest u →
      Again (callArgs e' (ts' ++ u)) xs rest u
  argsFrom : ∀ acc ts xs rest, Yields (argsFrom e acc ts) xs rest → ∀ e' ts' u,
    List.Forall₂ Token.Similar ts ts' → EndsExpr rest u →
      Again (argsFrom e' acc (ts' ++ u)) xs rest u

/-- The induction follows the readers' own recursion, as `exprProvenance` does; each case
reads the parts again from the similar tokens, in the branch that the kinds of the tokens
choose, which are the kinds of the tokens read the first time. -/
theorem exprLocality (e : Pos) : ExprLocality e := by
  refine (primary.mutual_induct
    (fun ts => ∀ x rest, Yields (primary e ts) x rest → ∀ e' ts' u,
      List.Forall₂ Token.Similar ts ts' → EndsExpr rest u → Again (primary e' (ts' ++ u)) x rest u)
    (fun ts => ∀ x rest, Yields (expression e ts) x rest → ∀ e' ts' u,
      List.Forall₂ Token.Similar ts ts' → EndsExpr rest u →
        Again (expression e' (ts' ++ u)) x rest u)
    (fun lvl ts => ∀ x rest, Yields (infixExpr e lvl ts) x rest → ∀ e' ts' u,
      List.Forall₂ Token.Similar ts ts' → EndsExpr rest u →
        Again (infixExpr e' lvl (ts' ++ u)) x rest u)
    (fun lvl left ts => ∀ x rest, Yields (infixTail e lvl left ts) x rest → ∀ e' ts' u,
      List.Forall₂ Token.Similar ts ts' → EndsExpr rest u →
        Again (infixTail e' lvl left (ts' ++ u)) x rest u)
    (fun lvl ts => ∀ x rest, Yields (operand e lvl ts) x rest → ∀ e' ts' u,
      List.Forall₂ Token.Similar ts ts' → EndsExpr rest u →
        Again (operand e' lvl (ts' ++ u)) x rest u)
    (fun ts => ∀ x rest, Yields (prefixExpr e ts) x rest → ∀ e' ts' u,
      List.Forall₂ Token.Similar ts ts' → EndsExpr rest u →
        Again (prefixExpr e' (ts' ++ u)) x rest u)
    (fun callee ts => ∀ x rest, Yields (callTail e callee ts) x rest → ∀ e' ts' u,
      List.Forall₂ Token.Similar ts ts' → EndsExpr rest u →
        Again (callTail e' callee (ts' ++ u)) x rest u)
    (fun ts => ∀ xs rest, Yields (callArgs e ts) xs rest → ∀ e' ts' u,
      List.Forall₂ Token.Similar ts ts' → EndsExpr rest u →
        Again (callArgs e' (ts' ++ u)) xs rest u)
    (fun acc ts => ∀ xs rest, Yields (argsFrom e acc ts) xs rest → ∀ e' ts' u,
      List.Forall₂ Token.Similar ts ts' → EndsExpr rest u →
        Again (argsFrom e' acc (ts' ++ u)) xs rest u)
    ?primaryNil ?integer ?string ?kwTrue ?kwFalse ?kwNil ?ident ?kwThis ?lparen ?unexpected
    ?expression ?infixExpr ?infixTailNil ?infixTailOp ?infixTailStop
    ?operandOr ?operandAnd ?operandCompare ?operandTerm ?operandFactor
    ?prefixNil ?prefixUnary ?prefixPrimary
    ?callTailNil ?callTailCall ?callTailField ?callTailStop
    ?callArgsSome ?callArgsNone ?argsFull ?argsFrom).elim
    fun h1 h => h.elim fun h2 h => h.elim fun h3 h => h.elim fun h4 h => h.elim fun h5 h =>
      h.elim fun h6 h => h.elim fun h7 h => h.elim fun h8 h9 => ⟨h1, h2, h3, h4, h5, h6, h7, h8, h9⟩
  case primaryNil =>
    intro x rest h
    rw [primary.eq_1] at h
    exact (Yields.of_error h).elim
  case integer | string | kwTrue | kwFalse =>
    intro t tail hk x rest h e' ts' u hs _
    simp only [primary.eq_2, hk] at h
    obtain ⟨rfl, rfl⟩ := Yields.of_ok h
    cases hs with
    | cons ht hr =>
      simp only [List.cons_append, primary.eq_2, ← ht.1, hk, ht.2.2]
      exact Again.ok hr
  case kwNil | ident | kwThis =>
    intro t tail hk x rest h e' ts' u hs _
    simp only [primary.eq_2, hk] at h
    obtain ⟨rfl, rfl⟩ := Yields.of_ok h
    cases hs with
    | cons ht hr =>
      simp only [List.cons_append, primary.eq_2, ← ht.1, hk, ht.2.2]
      exact Again.ok hr
  case lparen =>
    intro t tail hk ih x rest h e' ts' u hs hend
    simp only [primary.eq_2, hk] at h
    obtain ⟨x', r1, _, hx, h⟩ := Yields.of_bind h
    dsimp only at h
    obtain ⟨_, r2, _, hr, h⟩ := Yields.of_bind h
    obtain ⟨rfl, rfl⟩ := Yields.of_pure h
    cases hs with
    | cons ht htail =>
      simp only [List.cons_append, primary.eq_2, ← ht.1, hk]
      -- the expression in parentheses ends before the closing one
      obtain ⟨r1', hx', hs1⟩ := ih x' r1 hx e' _ u htail (.of_expect hr)
      obtain ⟨_, r2', rfl, -, hs2, hr'⟩ := expect_again hr hs1
      exact Again.of_bind hx' fun _ => Again.of_bind (hr' e' _ u) fun _ => Again.pure hs2
  case unexpected =>
    intro t tail h1 h2 h3 h4 h5 h6 h7 h8 x rest h
    rw [primary.eq_2] at h
    split at h <;> contradiction
  case expression =>
    intro ts ihl ihv x rest h e' ts' u hs hend
    rw [expression.eq_1] at h
    obtain ⟨left, r1, h1, hl, h⟩ := Yields.of_bind h
    dsimp only at h
    split at h
    · -- an assignment: the left side ends at `=`, and the value is read after it
      rename_i eq r2 h2 ha
      obtain ⟨value, r3, _, hv, h⟩ := Yields.of_bind h
      dsimp only at h
      have hr3 : r3 = rest := by
        split at h
        · exact (Yields.of_pure h).2
        · exact (Yields.of_pure h).2
        · exact (Yields.of_throw h).elim
      subst hr3
      obtain ⟨r1', hl', hs1⟩ := ihl left r1 hl e' ts' u hs (.of_accept ha)
      obtain ⟨_, r2', rfl, -, hs2, _, ha'⟩ := accept_similar (u := u) ha hs1
      obtain ⟨r3', hv', hs3⟩ := ihv r1 h1 r2 h2 value r3 hv e' r2' u hs2 hend
      rw [expression.eq_1]
      refine Again.of_bind hl' fun _ => ?_
      dsimp only
      rw [ha']
      refine Again.of_bind hv' fun _ => ?_
      split at h
      · obtain ⟨rfl, -⟩ := Yields.of_pure h
        exact Again.pure hs3
      · obtain ⟨rfl, -⟩ := Yields.of_pure h
        exact Again.pure hs3
      · exact (Yields.of_throw h).elim
    · -- no `=` follows, also not after the end: the read ends before a token of its own
      rename_i ha
      obtain ⟨rfl, rfl⟩ := Yields.of_pure h
      obtain ⟨r1', hl', hs1⟩ := ihl left r1 hl e' ts' u hs hend
      have ha' := accept_none_similar ha hs1 (hend.nothing_after _)
      rw [expression.eq_1]
      refine Again.of_bind hl' fun _ => ?_
      dsimp only
      rw [ha']
      exact Again.pure hs1
  case infixExpr =>
    intro lvl ts ihl iht x rest h e' ts' u hs hend
    rw [infixExpr.eq_1] at h
    obtain ⟨left, r1, h1, hl, h⟩ := Yields.of_bind h
    dsimp only at h
    obtain ⟨x', r2, _, hx, h⟩ := Yields.of_bind h
    obtain ⟨rfl, rfl⟩ := Yields.of_pure h
    -- the operators after the left operand leave a suffix of what it leaves
    have hend1 := hend.of_suffix ((exprProvenance e).infixTail lvl left r1 _ _ hx).1
    obtain ⟨r1', hl', hs1⟩ := ihl left r1 hl e' ts' u hs hend1
    obtain ⟨r2', hx', hs2⟩ := iht left r1 h1 _ _ hx e' r1' u hs1 hend
    rw [infixExpr.eq_1]
    exact Again.of_bind hl' fun _ => Again.of_bind hx' fun _ => Again.pure hs2
  case infixTailNil =>
    intro lvl left x rest h e' ts' u hs hend
    rw [infixTail.eq_1] at h
    obtain ⟨rfl, rfl⟩ := Yields.of_ok h
    cases hs
    rw [hend.nil, List.nil_append, infixTail.eq_1]
    exact Again.ok (u := []) .nil
  case infixTailOp =>
    intro lvl left t tail op hop ihr iht x rest h e' ts' u hs hend
    simp only [infixTail.eq_2, hop] at h
    obtain ⟨right, r1, h1, hr, h⟩ := Yields.of_bind h
    dsimp only at h
    obtain ⟨x', r2, _, hx, h⟩ := Yields.of_bind h
    obtain ⟨rfl, rfl⟩ := Yields.of_pure h
    cases hs with
    | cons ht htail =>
      have hend1 := hend.of_suffix ((exprProvenance e).infixTail lvl _ r1 _ _ hx).1
      obtain ⟨r1', hr', hs1⟩ := ihr right r1 hr e' _ u htail hend1
      obtain ⟨r2', hx', hs2⟩ := iht right r1 h1 _ _ hx e' r1' u hs1 hend
      simp only [List.cons_append, infixTail.eq_2, ← ht.1, hop, ← ht.2.1]
      exact Again.of_bind hr' fun _ => Again.of_bind hx' fun _ => Again.pure hs2
  case infixTailStop =>
    intro lvl left t tail hnone x rest h e' ts' u hs hend
    simp only [infixTail.eq_2, hnone] at h
    obtain ⟨rfl, rfl⟩ := Yields.of_ok h
    cases hs with
    | cons ht htail =>
      simp only [List.cons_append, infixTail.eq_2, ← ht.1, hnone]
      exact Again.ok (.cons ht htail)
  case operandOr | operandAnd | operandCompare | operandTerm | operandFactor =>
    intro ts ih x rest h e' ts' u hs hend
    rw [operand] at h ⊢
    exact ih x rest h e' ts' u hs hend
  case prefixNil =>
    intro _ x rest h
    rw [prefixExpr.eq_1, primary.eq_1] at h
    exact (Yields.of_error h).elim
  case prefixUnary =>
    intro t tail op hop ih x rest h e' ts' u hs hend
    simp only [prefixExpr.eq_2, hop] at h
    obtain ⟨x', r1, _, hx, h⟩ := Yields.of_bind h
    obtain ⟨rfl, rfl⟩ := Yields.of_pure h
    cases hs with
    | cons ht htail =>
      obtain ⟨r1', hx', hs1⟩ := ih x' r1 hx e' _ u htail hend
      simp only [List.cons_append, prefixExpr.eq_2, ← ht.1, hop, ← ht.2.1]
      exact Again.of_bind hx' fun _ => Again.pure hs1
  case prefixPrimary =>
    intro t tail hnone ihp iht x rest h e' ts' u hs hend
    simp only [prefixExpr.eq_2, hnone] at h
    obtain ⟨p, r1, h1, hp, h⟩ := Yields.of_bind h
    dsimp only at h
    obtain ⟨x', r2, _, hx, h⟩ := Yields.of_bind h
    obtain ⟨rfl, rfl⟩ := Yields.of_pure h
    -- the calls and field reads after the primary leave a suffix of what it leaves
    have hend1 := hend.of_suffix ((exprProvenance e).callTail p r1 _ _ hx).1
    cases hs with
    | cons ht htail =>
      obtain ⟨r1', hp', hs1⟩ := ihp p r1 hp e' _ u (.cons ht htail) hend1
      obtain ⟨r2', hx', hs2⟩ := iht p r1 h1 _ _ hx e' r1' u hs1 hend
      simp only [List.cons_append, prefixExpr.eq_2, ← ht.1, hnone]
      exact Again.of_bind hp' fun _ => Again.of_bind hx' fun _ => Again.pure hs2
  case callTailNil =>
    intro callee x rest h e' ts' u hs hend
    rw [callTail.eq_1] at h
    obtain ⟨rfl, rfl⟩ := Yields.of_ok h
    cases hs
    rw [hend.nil, List.nil_append, callTail.eq_1]
    exact Again.ok (u := []) .nil
  case callTailCall =>
    intro callee t tail hk iha iht x rest h e' ts' u hs hend
    simp only [callTail.eq_2, hk, if_true] at h
    obtain ⟨args, r1, h1, ha, h⟩ := Yields.of_bind h
    dsimp only at h
    obtain ⟨x', r2, _, hx, h⟩ := Yields.of_bind h
    obtain ⟨rfl, rfl⟩ := Yields.of_pure h
    cases hs with
    | cons ht htail =>
      have hend1 := hend.of_suffix ((exprProvenance e).callTail _ r1 _ _ hx).1
      obtain ⟨r1', ha', hs1⟩ := iha args r1 ha e' _ u htail hend1
      obtain ⟨r2', hx', hs2⟩ := iht args r1 h1 _ _ hx e' r1' u hs1 hend
      simp only [List.cons_append, callTail.eq_2, ← ht.1, hk, if_true]
      exact Again.of_bind ha' fun _ => Again.of_bind hx' fun _ => Again.pure hs2
  case callTailField =>
    intro callee t tail hl hd iht x rest h e' ts' u hs hend
    simp only [callTail.eq_2, hd, if_true] at h
    obtain ⟨n, r1, h1, hn, h⟩ := Yields.of_bind h
    dsimp only at h
    obtain ⟨x', r2, _, hx, h⟩ := Yields.of_bind h
    obtain ⟨rfl, rfl⟩ := Yields.of_pure h
    cases hs with
    | cons ht htail =>
      obtain ⟨n', r1', rfl, hns, hs1, hn'⟩ := expect_again hn htail
      obtain ⟨r2', hx', hs2⟩ := iht n r1 h1 _ _ hx e' r1' u hs1 hend
      simp only [List.cons_append, callTail.eq_2, ← ht.1, hd, if_true]
      refine Again.of_bind (hn' e' _ u) fun _ => ?_
      dsimp only
      rw [← hns.2.2]
      exact Again.of_bind hx' fun _ => Again.pure hs2
  case callTailStop =>
    intro callee t tail hl hd x rest h e' ts' u hs hend
    simp only [callTail.eq_2, hl, hd, if_false] at h
    obtain ⟨rfl, rfl⟩ := Yields.of_ok h
    cases hs with
    | cons ht htail =>
      simp only [List.cons_append, callTail.eq_2, ← ht.1, hl, hd, if_false]
      exact Again.ok (.cons ht htail)
  case callArgsSome =>
    intro ts close r ha xs rest h e' ts' u hs hend
    simp only [callArgs.eq_1, ha] at h
    obtain ⟨rfl, rfl⟩ := Yields.of_ok h
    obtain ⟨_, r', rfl, -, hs1, _, ha'⟩ := accept_similar (u := u) ha hs
    simp only [callArgs.eq_1, ha']
    exact Again.ok hs1
  case callArgsNone =>
    intro ts ha ih xs rest h e' ts' u hs hend
    simp only [callArgs.eq_1, ha] at h
    -- a read that succeeds takes a token, so `)` would have been seen
    have ha' := accept_none_similar (u := u) ha hs fun h0 => absurd h0 h.ne_nil
    simp only [callArgs.eq_1, ha']
    exact ih xs rest h e' ts' u hs hend
  case argsFull =>
    intro acc ts hfull xs rest h
    rw [argsFrom.eq_1, if_pos hfull] at h
    exact (Yields.of_error h).elim
  case argsFrom =>
    intro acc ts hroom ihx ihs xs rest h e' ts' u hs hend
    rw [argsFrom.eq_1, if_neg hroom] at h
    obtain ⟨x, r1, h1, hx, h⟩ := Yields.of_bind h
    dsimp only at h
    split at h
    · -- a comma: the argument ends at it, and the further arguments are read after it
      rename_i r2 h2 hc
      obtain ⟨xs', r3, _, hxs, h⟩ := Yields.of_bind h
      obtain ⟨rfl, rfl⟩ := Yields.of_pure h
      obtain ⟨r1', hx', hs1⟩ := ihx x r1 hx e' ts' u hs (.of_accept hc)
      obtain ⟨_, r2', rfl, -, hs2, _, hc'⟩ := accept_similar (u := u) hc hs1
      obtain ⟨r3', hxs', hs3⟩ := ihs x r1 h1 r2 h2 xs' r3 hxs e' r2' u hs2 hend
      rw [argsFrom.eq_1, if_neg hroom]
      refine Again.of_bind hx' fun _ => ?_
      dsimp only
      rw [hc']
      exact Again.of_bind hxs' fun _ => Again.pure hs3
    · -- the last argument ends at the closing parenthesis
      rename_i hc
      obtain ⟨_, r2, _, hr, h⟩ := Yields.of_bind h
      obtain ⟨rfl, rfl⟩ := Yields.of_pure h
      obtain ⟨r1', hx', hs1⟩ := ihx x r1 hx e' ts' u hs (.of_expect hr)
      have hc' := accept_none_similar (u := u) hc hs1 ((EndsExpr.of_expect hr).nothing_after _)
      obtain ⟨_, r2', rfl, -, hs2, hr'⟩ := expect_again hr hs1
      rw [argsFrom.eq_1, if_neg hroom]
      refine Again.of_bind hx' fun _ => ?_
      dsimp only
      rw [hc']
      exact Again.of_bind (hr' e' _ u) fun _ => Again.pure hs2

/-! ### Statements -/

section Statements

variable {e : Pos}

theorem exprUnless_again {k : Token.Kind} {ts : List Token} {ox : Option Expr}
    {rest : List Token} (h : Yields (exprUnless e k ts) ox rest) (e' : Pos) (ts' u : List Token)
    (hs : List.Forall₂ Token.Similar ts ts') (hend : EndsExpr rest u) :
    Again (exprUnless e' k (ts' ++ u)) ox rest u := by
  unfold exprUnless at h ⊢
  split at h
  · -- the next token is `k`, and nothing is read
    rename_i hk
    obtain ⟨rfl, rfl⟩ := Yields.of_ok h
    have hne : ts ≠ [] := by
      rintro rfl
      cases hk
    rw [if_pos ((startsWith_similar hs hne).trans hk)]
    exact Again.ok hs
  · rename_i hk
    obtain ⟨x, r1, _, hx, h⟩ := Yields.of_bind h
    obtain ⟨rfl, rfl⟩ := Yields.of_pure h
    rw [if_neg (by rw [startsWith_similar hs hx.ne_nil]; exact hk)]
    obtain ⟨r1', hx', hs1⟩ := (exprLocality e).expression ts x r1 hx e' ts' u hs hend
    exact Again.of_bind hx' fun _ => Again.pure hs1

theorem exprStmt_again {ts : List Token} {s : Stmt} {rest : List Token}
    (h : Yields (exprStmt e ts) s rest) (e' : Pos) (ts' u : List Token)
    (hs : List.Forall₂ Token.Similar ts ts') : Again (exprStmt e' (ts' ++ u)) s rest u := by
  unfold exprStmt at h ⊢
  obtain ⟨x, r1, _, hx, h⟩ := Yields.of_bind h
  dsimp only at h
  obtain ⟨_, r2, _, hr, h⟩ := Yields.of_bind h
  obtain ⟨rfl, rfl⟩ := Yields.of_pure h
  obtain ⟨r1', hx', hs1⟩ := (exprLocality e).expression ts x r1 hx e' ts' u hs (.of_expect hr)
  obtain ⟨_, r2', rfl, -, hs2, hr'⟩ := expect_again hr hs1
  exact Again.of_bind hx' fun _ => Again.of_bind (hr' e' _ u) fun _ => Again.pure hs2

theorem letRest_again {ts : List Token} {s : Stmt} {rest : List Token}
    (h : Yields (letRest e ts) s rest) (e' : Pos) (ts' u : List Token)
    (hs : List.Forall₂ Token.Similar ts ts') : Again (letRest e' (ts' ++ u)) s rest u := by
  unfold letRest at h ⊢
  obtain ⟨n, r1, _, hn, h⟩ := Yields.of_bind h
  obtain ⟨n', r1', rfl, hns, hs1, hn'⟩ := expect_again hn hs
  refine Again.of_bind (hn' e' _ u) fun _ => ?_
  dsimp only at h ⊢
  rw [← hns.2.2]
  split at h
  · -- an initializer after `=`
    rename_i r2 _ ha
    obtain ⟨x, r3, _, hx, h⟩ := Yields.of_bind h
    dsimp only at h
    obtain ⟨_, r4, _, hr, h⟩ := Yields.of_bind h
    obtain ⟨rfl, rfl⟩ := Yields.of_pure h
    obtain ⟨_, r2', rfl, -, hs2, _, ha'⟩ := accept_similar (u := u) ha hs1
    obtain ⟨r3', hx', hs3⟩ := (exprLocality e).expression r2 x r3 hx e' r2' u hs2 (.of_expect hr)
    obtain ⟨_, r4', rfl, -, hs4, hr'⟩ := expect_again hr hs3
    rw [ha']
    exact Again.of_bind hx' fun _ => Again.of_bind (hr' e' _ u) fun _ => Again.pure hs4
  · rename_i ha
    obtain ⟨_, r2, _, hr, h⟩ := Yields.of_bind h
    obtain ⟨rfl, rfl⟩ := Yields.of_pure h
    rw [accept_none_similar (u := u) ha hs1 ((EndsExpr.of_expect hr).nothing_after _)]
    obtain ⟨_, r2', rfl, -, hs2, hr'⟩ := expect_again hr hs1
    exact Again.of_bind (hr' e' _ u) fun _ => Again.pure hs2

theorem returnRest_again {ts : List Token} {s : Stmt} {rest : List Token}
    (h : Yields (returnRest e ts) s rest) (e' : Pos) (ts' u : List Token)
    (hs : List.Forall₂ Token.Similar ts ts') : Again (returnRest e' (ts' ++ u)) s rest u := by
  unfold returnRest at h ⊢
  obtain ⟨v, r1, _, hv, h⟩ := Yields.of_bind h
  dsimp only at h
  obtain ⟨_, r2, _, hr, h⟩ := Yields.of_bind h
  obtain ⟨rfl, rfl⟩ := Yields.of_pure h
  obtain ⟨r1', hv', hs1⟩ := exprUnless_again hv e' ts' u hs (.of_expect hr)
  obtain ⟨_, r2', rfl, -, hs2, hr'⟩ := expect_again hr hs1
  exact Again.of_bind hv' fun _ => Again.of_bind (hr' e' _ u) fun _ => Again.pure hs2

theorem printArgs_again :
    ∀ {acc : Array Expr} {ts : List Token} {xs : List Expr} {rest : List Token},
      Yields (printArgs e acc ts) xs rest → ∀ e' ts' u, List.Forall₂ Token.Similar ts ts' →
        EndsExpr rest u → Again (printArgs e' acc (ts' ++ u)) xs rest u := by
  intro acc ts
  induction acc, ts using printArgs.induct with
  | case1 acc =>
    intro xs rest h e' ts' u hs hend
    rw [printArgs.eq_1] at h
    obtain ⟨rfl, rfl⟩ := Yields.of_ok h
    cases hs
    rw [hend.nil, List.nil_append, printArgs.eq_1]
    exact Again.ok (u := []) .nil
  | case2 acc t tail hc ih =>
    intro xs rest h e' ts' u hs hend
    simp only [printArgs.eq_2, hc, if_true] at h
    obtain ⟨x, r1, h1, hx, h⟩ := Yields.of_bind h
    dsimp only at h
    obtain ⟨xs', r2, _, hxs, h⟩ := Yields.of_bind h
    obtain ⟨rfl, rfl⟩ := Yields.of_pure h
    cases hs with
    | cons ht htail =>
      -- the further arguments leave a suffix of what this one leaves
      have hend1 := hend.of_suffix (printArgs_literals hxs).1
      obtain ⟨r1', hx', hs1⟩ := (exprLocality e).expression tail x r1 hx e' _ u htail hend1
      obtain ⟨r2', hxs', hs2⟩ := ih x r1 h1 hxs e' r1' u hs1 hend
      simp only [List.cons_append, printArgs.eq_2, ← ht.1, hc, if_true]
      exact Again.of_bind hx' fun _ => Again.of_bind hxs' fun _ => Again.pure hs2
  | case3 acc t tail hc =>
    intro xs rest h e' ts' u hs hend
    simp only [printArgs.eq_2, hc, if_false] at h
    obtain ⟨rfl, rfl⟩ := Yields.of_ok h
    cases hs with
    | cons ht htail =>
      simp only [List.cons_append, printArgs.eq_2, ← ht.1, hc, if_false]
      exact Again.ok (.cons ht htail)

theorem printRest_again {ts : List Token} {s : Stmt} {rest : List Token}
    (h : Yields (printRest e ts) s rest) (e' : Pos) (ts' u : List Token)
    (hs : List.Forall₂ Token.Similar ts ts') : Again (printRest e' (ts' ++ u)) s rest u := by
  unfold printRest at h ⊢
  obtain ⟨_, r1, _, hl, h⟩ := Yields.of_bind h
  dsimp only at h
  obtain ⟨first, r2, _, hf, h⟩ := Yields.of_bind h
  dsimp only at h
  obtain ⟨args, r3, _, ha, h⟩ := Yields.of_bind h
  dsimp only at h
  obtain ⟨_, r4, _, hr, h⟩ := Yields.of_bind h
  dsimp only at h
  obtain ⟨_, r5, _, hsc, h⟩ := Yields.of_bind h
  obtain ⟨rfl, rfl⟩ := Yields.of_pure h
  -- the arguments end at the closing parenthesis
  have hend3 : EndsExpr r3 u := .of_expect hr
  obtain ⟨_, r1', rfl, -, hs1, hl'⟩ := expect_again hl hs
  obtain ⟨r2', hf', hs2⟩ := (exprLocality e).expression r1 first r2 hf e' r1' u hs1
    (hend3.of_suffix (printArgs_literals ha).1)
  obtain ⟨r3', ha', hs3⟩ := printArgs_again ha e' r2' u hs2 hend3
  obtain ⟨_, r4', rfl, -, hs4, hr'⟩ := expect_again hr hs3
  obtain ⟨_, r5', rfl, -, hs5, hsc'⟩ := expect_again hsc hs4
  exact Again.of_bind (hl' e' _ u) fun _ => Again.of_bind hf' fun _ => Again.of_bind ha' fun _ =>
    Again.of_bind (hr' e' _ u) fun _ => Again.of_bind (hsc' e' _ u) fun _ => Again.pure hs5

theorem forInit_again {ts : List Token} {o : Option Stmt} {rest : List Token}
    (h : Yields (forInit e ts) o rest) (e' : Pos) (ts' u : List Token)
    (hs : List.Forall₂ Token.Similar ts ts') : Again (forInit e' (ts' ++ u)) o rest u := by
  cases hs with
  | nil =>
    obtain ⟨s, hs, rfl⟩ := Yields.of_map h
    exact absurd rfl hs.ne_nil
  | cons ht htail =>
    simp only [forInit] at h
    simp only [List.cons_append, forInit, ← ht.1]
    split at h
    · rename_i hk
      obtain ⟨rfl, rfl⟩ := Yields.of_ok h
      rw [if_pos hk]
      exact Again.ok htail
    · rename_i hk
      rw [if_neg hk]
      split at h
      · rename_i hl
        obtain ⟨s, hs', rfl⟩ := Yields.of_map (Yields.of_cons h)
        rw [if_pos hl]
        exact Again.cons (Again.map _ (letRest_again hs' e' _ u htail))
      · rename_i hl
        obtain ⟨s, hs', rfl⟩ := Yields.of_map h
        rw [if_neg hl]
        exact Again.map _ (exprStmt_again hs' e' _ u (.cons ht htail))

theorem paramsFrom_again {name : Scalar} :
    ∀ {acc : Array Scalar} {ts : List Token} {ps : List Scalar} {rest : List Token},
      Yields (paramsFrom e name acc ts) ps rest → ∀ e' ts' u,
        List.Forall₂ Token.Similar ts ts' → Again (paramsFrom e' name acc (ts' ++ u)) ps rest u := by
  intro acc ts
  induction acc, ts using paramsFrom.induct with
  | case1 acc ts hfull =>
    intro ps rest h
    rw [paramsFrom.eq_1, if_pos hfull] at h
    exact (Yields.of_error h).elim
  | case2 acc ts hroom ih =>
    intro ps rest h e' ts' u hs
    rw [paramsFrom.eq_1, if_neg hroom] at h
    obtain ⟨p, r1, h1, hp, h⟩ := Yields.of_bind h
    dsimp only at h
    obtain ⟨p', r1', rfl, hps, hs1, hp'⟩ := expect_again hp hs
    rw [paramsFrom.eq_1, if_neg hroom]
    refine Again.of_bind (hp' e' _ u) fun _ => ?_
    dsimp only
    rw [← hps.2.2]
    split at h
    · -- a comma: the parameters go on after it
      rename_i r2 h2 hc
      obtain ⟨ps', r3, _, hps', h⟩ := Yields.of_bind h
      obtain ⟨rfl, rfl⟩ := Yields.of_pure h
      obtain ⟨_, r2', rfl, -, hs2, _, hc'⟩ := accept_similar (u := u) hc hs1
      obtain ⟨r3', hps'', hs3⟩ := ih p r1 h1 r2 h2 hps' e' r2' u hs2
      rw [hc']
      exact Again.of_bind hps'' fun _ => Again.pure hs3
    · rename_i hc
      obtain ⟨_, r2, _, hr, h⟩ := Yields.of_bind h
      obtain ⟨rfl, rfl⟩ := Yields.of_pure h
      rw [accept_none_similar (u := u) hc hs1 ((EndsExpr.of_expect hr).nothing_after _)]
      obtain ⟨_, r2', rfl, -, hs2, hr'⟩ := expect_again hr hs1
      exact Again.of_bind (hr' e' _ u) fun _ => Again.pure hs2

theorem paramList_again {name : Scalar} {ts : List Token} {ps : List Scalar} {rest : List Token}
    (h : Yields (paramList e name ts) ps rest) (e' : Pos) (ts' u : List Token)
    (hs : List.Forall₂ Token.Similar ts ts') : Again (paramList e' name (ts' ++ u)) ps rest u := by
  unfold paramList at h ⊢
  split at h
  · rename_i close r ha
    obtain ⟨rfl, rfl⟩ := Yields.of_ok h
    obtain ⟨_, r', rfl, -, hs1, _, ha'⟩ := accept_similar (u := u) ha hs
    rw [ha']
    exact Again.ok hs1
  · rename_i ha
    rw [accept_none_similar (u := u) ha hs fun h0 => absurd h0 h.ne_nil]
    exact paramsFrom_again h e' ts' u hs

/-- Every statement reader reads the same from similar tokens followed by any tokens after a
statement that does not end just before an `else`. -/
structure StmtLocality (e : Pos) : Prop where
  functionRest : ∀ ts f rest, Yields (functionRest e ts) f rest → ∀ e' ts' u,
    List.Forall₂ Token.Similar ts ts' → EndsStmt rest u →
      Again (functionRest e' (ts' ++ u)) f rest u
  blockRest : ∀ acc ts ss rest, Yields (blockRest e acc ts) ss rest → ∀ e' ts' u,
    List.Forall₂ Token.Similar ts ts' → EndsStmt rest u →
      Again (blockRest e' acc (ts' ++ u)) ss rest u
  declaration : ∀ ts s rest, Yields (declaration e ts) s rest → ∀ e' ts' u,
    List.Forall₂ Token.Similar ts ts' → EndsStmt rest u →
      Again (declaration e' (ts' ++ u)) s rest u
  classRest : ∀ ts s rest, Yields (classRest e ts) s rest → ∀ e' ts' u,
    List.Forall₂ Token.Similar ts ts' → EndsStmt rest u →
      Again (classRest e' (ts' ++ u)) s rest u
  methods : ∀ name acc ts fs rest, Yields (methods e name acc ts) fs rest → ∀ e' ts' u,
    List.Forall₂ Token.Similar ts ts' → EndsStmt rest u →
      Again (methods e' name acc (ts' ++ u)) fs rest u
  statement : ∀ ts s rest, Yields (statement e ts) s rest → ∀ e' ts' u,
    List.Forall₂ Token.Similar ts ts' → EndsStmt rest u →
      Again (statement e' (ts' ++ u)) s rest u
  whileRest : ∀ ts s rest, Yields (whileRest e ts) s rest → ∀ e' ts' u,
    List.Forall₂ Token.Similar ts ts' → EndsStmt rest u →
      Again (whileRest e' (ts' ++ u)) s rest u
  ifRest : ∀ ts s rest, Yields (ifRest e ts) s rest → ∀ e' ts' u,
    List.Forall₂ Token.Similar ts ts' → EndsStmt rest u →
      Again (ifRest e' (ts' ++ u)) s rest u
  forRest : ∀ ts s rest, Yields (forRest e ts) s rest → ∀ e' ts' u,
    List.Forall₂ Token.Similar ts ts' → EndsStmt rest u →
      Again (forRest e' (ts' ++ u)) s rest u

/-- As for expressions, the induction follows the readers' recursion. The only read that can
see past its last token is a conditional without `else`, which looks for one; every other
read inside a statement ends before a token of the statement. -/
theorem stmtLocality (e : Pos) : StmtLocality e := by
  refine (functionRest.mutual_induct
    (fun ts => ∀ f rest, Yields (functionRest e ts) f rest → ∀ e' ts' u,
      List.Forall₂ Token.Similar ts ts' → EndsStmt rest u →
        Again (functionRest e' (ts' ++ u)) f rest u)
    (fun acc ts => ∀ ss rest, Yields (blockRest e acc ts) ss rest → ∀ e' ts' u,
      List.Forall₂ Token.Similar ts ts' → EndsStmt rest u →
        Again (blockRest e' acc (ts' ++ u)) ss rest u)
    (fun ts => ∀ s rest, Yields (declaration e ts) s rest → ∀ e' ts' u,
      List.Forall₂ Token.Similar ts ts' → EndsStmt rest u →
        Again (declaration e' (ts' ++ u)) s rest u)
    (fun ts => ∀ s rest, Yields (classRest e ts) s rest → ∀ e' ts' u,
      List.Forall₂ Token.Similar ts ts' → EndsStmt rest u →
        Again (classRest e' (ts' ++ u)) s rest u)
    (fun name acc ts => ∀ fs rest, Yields (methods e name acc ts) fs rest → ∀ e' ts' u,
      List.Forall₂ Token.Similar ts ts' → EndsStmt rest u →
        Again (methods e' name acc (ts' ++ u)) fs rest u)
    (fun ts => ∀ s rest, Yields (statement e ts) s rest → ∀ e' ts' u,
      List.Forall₂ Token.Similar ts ts' → EndsStmt rest u →
        Again (statement e' (ts' ++ u)) s rest u)
    (fun ts => ∀ s rest, Yields (whileRest e ts) s rest → ∀ e' ts' u,
      List.Forall₂ Token.Similar ts ts' → EndsStmt rest u →
        Again (whileRest e' (ts' ++ u)) s rest u)
    (fun ts => ∀ s rest, Yields (ifRest e ts) s rest → ∀ e' ts' u,
      List.Forall₂ Token.Similar ts ts' → EndsStmt rest u →
        Again (ifRest e' (ts' ++ u)) s rest u)
    (fun ts => ∀ s rest, Yields (forRest e ts) s rest → ∀ e' ts' u,
      List.Forall₂ Token.Similar ts ts' → EndsStmt rest u →
        Again (forRest e' (ts' ++ u)) s rest u)
    ?functionRest ?blockNil ?blockClose ?blockDecl
    ?declNil ?declLet ?declFn ?declClass ?declOther
    ?classRest ?methodsNil ?methodsClose ?methodsFunc
    ?stmtNil ?stmtFor ?stmtIf ?stmtReturn ?stmtPrint ?stmtWhile ?stmtBlock ?stmtOther
    ?whileRest ?ifRest ?forRest).elim
    fun h1 h => h.elim fun h2 h => h.elim fun h3 h => h.elim fun h4 h => h.elim fun h5 h =>
      h.elim fun h6 h => h.elim fun h7 h => h.elim fun h8 h9 => ⟨h1, h2, h3, h4, h5, h6, h7, h8, h9⟩
  case functionRest =>
    intro ts ih f rest h e' ts' u hs hend
    rw [functionRest.eq_1] at h
    obtain ⟨n, r1, h1, hn, h⟩ := Yields.of_bind h
    dsimp only at h
    obtain ⟨_, r2, h2, hl, h⟩ := Yields.of_bind h
    dsimp only at h
    obtain ⟨ps, r3, h3, hps, h⟩ := Yields.of_bind h
    dsimp only at h
    obtain ⟨_, r4, h4, hb, h⟩ := Yields.of_bind h
    dsimp only at h
    obtain ⟨body, r5, _, hbody, h⟩ := Yields.of_bind h
    obtain ⟨rfl, rfl⟩ := Yields.of_pure h
    obtain ⟨n', r1', rfl, hns, hs1, hn'⟩ := expect_again hn hs
    obtain ⟨_, r2', rfl, -, hs2, hl'⟩ := expect_again hl hs1
    obtain ⟨r3', hps', hs3⟩ := paramList_again hps e' r2' u hs2
    obtain ⟨_, r4', rfl, -, hs4, hb'⟩ := expect_again hb hs3
    obtain ⟨r5', hbody', hs5⟩ := ih r1 h1 r2 h2 r3 h3 r4 h4 body r5 hbody e' r4' u hs4 hend
    rw [functionRest.eq_1]
    refine Again.of_bind (hn' e' _ u) fun _ => ?_
    dsimp only
    rw [← hns.2.2]
    exact Again.of_bind (hl' e' _ u) fun _ => Again.of_bind hps' fun _ =>
      Again.of_bind (hb' e' _ u) fun _ => Again.of_bind hbody' fun _ => Again.pure hs5
  case blockNil =>
    intro acc ss rest h
    rw [blockRest.eq_1] at h
    exact (Yields.of_error h).elim
  case blockClose =>
    intro acc t tail hk ss rest h e' ts' u hs hend
    simp only [blockRest.eq_2, hk, if_true] at h
    obtain ⟨rfl, rfl⟩ := Yields.of_ok h
    cases hs with
    | cons ht htail =>
      simp only [List.cons_append, blockRest.eq_2, ← ht.1, hk, if_true]
      exact Again.ok htail
  case blockDecl =>
    intro acc t tail hk ihs ihb ss rest h e' ts' u hs hend
    simp only [blockRest.eq_2, hk, if_false] at h
    obtain ⟨s, r1, h1, hd, h⟩ := Yields.of_bind h
    dsimp only at h
    obtain ⟨ss', r2, _, hss, h⟩ := Yields.of_bind h
    obtain ⟨rfl, rfl⟩ := Yields.of_pure h
    cases hs with
    | cons ht htail =>
      -- the declaration ends before the rest of the block, which takes a token at least
      obtain ⟨r1', hd', hs1⟩ := ihs s r1 hd e' _ u (.cons ht htail) (.inl hss.ne_nil)
      obtain ⟨r2', hss', hs2⟩ := ihb s r1 h1 ss' r2 hss e' r1' u hs1 hend
      simp only [List.cons_append, blockRest.eq_2, ← ht.1, hk, if_false]
      exact Again.of_bind hd' fun _ => Again.of_bind hss' fun _ => Again.pure hs2
  case declNil =>
    intro _ s rest h
    rw [declaration.eq_1, statement.eq_1] at h
    exact absurd rfl h.ne_nil
  case declLet =>
    intro t tail hk s rest h e' ts' u hs hend
    simp only [declaration.eq_2, hk] at h
    cases hs with
    | cons ht htail =>
      simp only [List.cons_append, declaration.eq_2, ← ht.1, hk]
      exact Again.cons (letRest_again (Yields.of_cons h) e' _ u htail)
  case declFn =>
    intro t tail hk ih s rest h e' ts' u hs hend
    simp only [declaration.eq_2, hk] at h
    obtain ⟨f, hf, rfl⟩ := Yields.of_map (Yields.of_cons h)
    cases hs with
    | cons ht htail =>
      simp only [List.cons_append, declaration.eq_2, ← ht.1, hk]
      exact Again.cons (Again.map _ (ih f rest hf e' _ u htail hend))
  case declClass =>
    intro t tail hk ih s rest h e' ts' u hs hend
    simp only [declaration.eq_2, hk] at h
    cases hs with
    | cons ht htail =>
      simp only [List.cons_append, declaration.eq_2, ← ht.1, hk]
      exact Again.cons (ih s rest (Yields.of_cons h) e' _ u htail hend)
  case declOther =>
    intro t tail h1 h2 h3 ih s rest h e' ts' u hs hend
    cases hs with
    | cons ht htail =>
      rw [declaration.eq_2] at h
      rw [List.cons_append, declaration.eq_2, ← ht.1]
      -- the kind is none of the declaration keywords, and both reads branch on it
      split at h <;> try contradiction
      exact ih s rest h e' _ u (.cons ht htail) hend
  case classRest =>
    intro ts ih s rest h e' ts' u hs hend
    rw [classRest.eq_1] at h
    obtain ⟨n, r1, h1, hn, h⟩ := Yields.of_bind h
    dsimp only at h
    obtain ⟨_, r2, h2, hb, h⟩ := Yields.of_bind h
    dsimp only at h
    obtain ⟨ms, r3, _, hms, h⟩ := Yields.of_bind h
    obtain ⟨rfl, rfl⟩ := Yields.of_pure h
    obtain ⟨n', r1', rfl, hns, hs1, hn'⟩ := expect_again hn hs
    obtain ⟨_, r2', rfl, -, hs2, hb'⟩ := expect_again hb hs1
    obtain ⟨r3', hms', hs3⟩ := ih n r1 h1 r2 h2 ms r3 hms e' r2' u hs2 hend
    rw [classRest.eq_1]
    refine Again.of_bind (hn' e' _ u) fun _ => ?_
    dsimp only
    rw [← hns.2.2]
    exact Again.of_bind (hb' e' _ u) fun _ => Again.of_bind hms' fun _ => Again.pure hs3
  case methodsNil =>
    intro name acc fs rest h
    rw [methods.eq_1] at h
    exact (Yields.of_error h).elim
  case methodsClose =>
    intro name acc t tail hk fs rest h e' ts' u hs hend
    simp only [methods.eq_2, hk, if_true] at h
    obtain ⟨rfl, rfl⟩ := Yields.of_ok h
    cases hs with
    | cons ht htail =>
      simp only [List.cons_append, methods.eq_2, ← ht.1, hk, if_true]
      exact Again.ok htail
  case methodsFunc =>
    intro name acc t tail hk ihf ihm fs rest h e' ts' u hs hend
    simp only [methods.eq_2, hk, if_false] at h
    obtain ⟨f, r1, h1, hf, h⟩ := Yields.of_bind h
    dsimp only at h
    obtain ⟨fs', r2, _, hfs, h⟩ := Yields.of_bind h
    obtain ⟨rfl, rfl⟩ := Yields.of_pure h
    cases hs with
    | cons ht htail =>
      obtain ⟨r1', hf', hs1⟩ := ihf f r1 hf e' _ u (.cons ht htail) (.inl hfs.ne_nil)
      obtain ⟨r2', hfs', hs2⟩ := ihm f r1 h1 fs' r2 hfs e' r1' u hs1 hend
      simp only [List.cons_append, methods.eq_2, ← ht.1, hk, if_false]
      exact Again.of_bind hf' fun _ => Again.of_bind hfs' fun _ => Again.pure hs2
  case stmtNil =>
    intro s rest h
    rw [statement.eq_1] at h
    exact absurd rfl h.ne_nil
  case stmtFor | stmtIf | stmtWhile =>
    intro t tail hk ih s rest h e' ts' u hs hend
    simp only [statement.eq_2, hk] at h
    cases hs with
    | cons ht htail =>
      simp only [List.cons_append, statement.eq_2, ← ht.1, hk]
      exact Again.cons (ih s rest (Yields.of_cons h) e' _ u htail hend)
  case stmtReturn =>
    intro t tail hk s rest h e' ts' u hs hend
    simp only [statement.eq_2, hk] at h
    cases hs with
    | cons ht htail =>
      simp only [List.cons_append, statement.eq_2, ← ht.1, hk]
      exact Again.cons (returnRest_again (Yields.of_cons h) e' _ u htail)
  case stmtPrint =>
    intro t tail hk s rest h e' ts' u hs hend
    simp only [statement.eq_2, hk] at h
    cases hs with
    | cons ht htail =>
      simp only [List.cons_append, statement.eq_2, ← ht.1, hk]
      exact Again.cons (printRest_again (Yields.of_cons h) e' _ u htail)
  case stmtBlock =>
    intro t tail hk ih s rest h e' ts' u hs hend
    simp only [statement.eq_2, hk] at h
    obtain ⟨ss, hss, rfl⟩ := Yields.of_map (Yields.of_cons h)
    cases hs with
    | cons ht htail =>
      simp only [List.cons_append, statement.eq_2, ← ht.1, hk]
      exact Again.cons (Again.map _ (ih ss rest hss e' _ u htail hend))
  case stmtOther =>
    intro t tail h1 h2 h3 h4 h5 h6 s rest h e' ts' u hs hend
    cases hs with
    | cons ht htail =>
      rw [statement.eq_2] at h
      rw [List.cons_append, statement.eq_2, ← ht.1]
      -- the kind starts none of the keyword statements, and both reads branch on it
      split at h <;> try contradiction
      exact exprStmt_again h e' (_ :: _) u (.cons ht htail)
  case whileRest =>
    intro ts ih s rest h e' ts' u hs hend
    rw [whileRest.eq_1] at h
    obtain ⟨_, r1, h1, hl, h⟩ := Yields.of_bind h
    dsimp only at h
    obtain ⟨test, r2, h2, htest, h⟩ := Yields.of_bind h
    dsimp only at h
    obtain ⟨_, r3, h3, hr, h⟩ := Yields.of_bind h
    dsimp only at h
    obtain ⟨body, r4, _, hbody, h⟩ := Yields.of_bind h
    obtain ⟨rfl, rfl⟩ := Yields.of_pure h
    obtain ⟨_, r1', rfl, -, hs1, hl'⟩ := expect_again hl hs
    obtain ⟨r2', htest', hs2⟩ := (exprLocality e).expression r1 test r2 htest e' r1' u hs1
      (.of_expect hr)
    obtain ⟨_, r3', rfl, -, hs3, hr'⟩ := expect_again hr hs2
    obtain ⟨r4', hbody', hs4⟩ := ih r1 h1 r2 h2 r3 h3 body r4 hbody e' r3' u hs3 hend
    rw [whileRest.eq_1]
    exact Again.of_bind (hl' e' _ u) fun _ => Again.of_bind htest' fun _ =>
      Again.of_bind (hr' e' _ u) fun _ => Again.of_bind hbody' fun _ => Again.pure hs4
  case ifRest =>
    intro ts ihy ihn s rest h e' ts' u hs hend
    rw [ifRest.eq_1] at h
    obtain ⟨_, r1, h1, hl, h⟩ := Yields.of_bind h
    dsimp only at h
    obtain ⟨test, r2, h2, htest, h⟩ := Yields.of_bind h
    dsimp only at h
    obtain ⟨_, r3, h3, hr, h⟩ := Yields.of_bind h
    dsimp only at h
    obtain ⟨yes, r4, h4, hyes, h⟩ := Yields.of_bind h
    dsimp only at h
    obtain ⟨_, r1', rfl, -, hs1, hl'⟩ := expect_again hl hs
    obtain ⟨r2', htest', hs2⟩ := (exprLocality e).expression r1 test r2 htest e' r1' u hs1
      (.of_expect hr)
    obtain ⟨_, r3', rfl, -, hs3, hr'⟩ := expect_again hr hs2
    rw [ifRest.eq_1]
    refine Again.of_bind (hl' e' _ u) fun _ => Again.of_bind htest' fun _ =>
      Again.of_bind (hr' e' _ u) fun _ => ?_
    split at h
    · -- an `else` follows, so the first branch ends before it
      rename_i r5 h5 ha
      obtain ⟨no, r6, _, hno, h⟩ := Yields.of_bind h
      obtain ⟨rfl, rfl⟩ := Yields.of_pure h
      obtain ⟨r4', hyes', hs4⟩ := ihy r1 h1 r2 h2 r3 h3 yes r4 hyes e' r3' u hs3
        (EndsExpr.of_accept ha).endsStmt
      obtain ⟨_, r5', rfl, -, hs5, _, ha'⟩ := accept_similar (u := u) ha hs4
      obtain ⟨r6', hno', hs6⟩ := ihn r1 h1 r2 h2 r3 h3 r4 h4 r5 h5 no r6 hno e' r5' u hs5 hend
      refine Again.of_bind hyes' fun _ => ?_
      dsimp only
      rw [ha']
      exact Again.of_bind hno' fun _ => Again.pure hs6
    · -- no `else`: the statement ends with the first branch, and `u` does not start with one
      rename_i ha
      obtain ⟨rfl, rfl⟩ := Yields.of_pure h
      obtain ⟨r4', hyes', hs4⟩ := ihy r1 h1 r2 h2 r3 h3 yes r4 hyes e' r3' u hs3 hend
      refine Again.of_bind hyes' fun _ => ?_
      dsimp only
      rw [accept_none_similar ha hs4 hend.else_after]
      exact Again.pure hs4
  case forRest =>
    intro ts ih s rest h e' ts' u hs hend
    rw [forRest.eq_1] at h
    obtain ⟨_, r1, h1, hl, h⟩ := Yields.of_bind h
    dsimp only at h
    obtain ⟨init, r2, h2, hinit, h⟩ := Yields.of_bind h
    dsimp only at h
    obtain ⟨test, r3, h3, htest, h⟩ := Yields.of_bind h
    dsimp only at h
    obtain ⟨_, r4, h4, hsc, h⟩ := Yields.of_bind h
    dsimp only at h
    obtain ⟨update, r5, h5, hupdate, h⟩ := Yields.of_bind h
    dsimp only at h
    obtain ⟨_, r6, h6, hr, h⟩ := Yields.of_bind h
    dsimp only at h
    obtain ⟨body, r7, _, hbody, h⟩ := Yields.of_bind h
    obtain ⟨rfl, rfl⟩ := Yields.of_pure h
    obtain ⟨_, r1', rfl, -, hs1, hl'⟩ := expect_again hl hs
    obtain ⟨r2', hinit', hs2⟩ := forInit_again hinit e' r1' u hs1
    obtain ⟨r3', htest', hs3⟩ := exprUnless_again htest e' r2' u hs2 (.of_expect hsc)
    obtain ⟨_, r4', rfl, -, hs4, hsc'⟩ := expect_again hsc hs3
    obtain ⟨r5', hupdate', hs5⟩ := exprUnless_again hupdate e' r4' u hs4 (.of_expect hr)
    obtain ⟨_, r6', rfl, -, hs6, hr'⟩ := expect_again hr hs5
    obtain ⟨r7', hbody', hs7⟩ :=
      ih r1 h1 r2 h2 r3 h3 r4 h4 r5 h5 r6 h6 body r7 hbody e' r6' u hs6 hend
    rw [forRest.eq_1]
    exact Again.of_bind (hl' e' _ u) fun _ => Again.of_bind hinit' fun _ =>
      Again.of_bind htest' fun _ => Again.of_bind (hsc' e' _ u) fun _ =>
      Again.of_bind hupdate' fun _ => Again.of_bind (hr' e' _ u) fun _ =>
      Again.of_bind hbody' fun _ => Again.pure hs7

/-! ### Declarations -/

/-- No prefix expression starts with `else`. -/
theorem prefixExpr_head_ne_else {t : Token} {r : List Token} {x : Expr} {rest : List Token}
    (h : Yields (prefixExpr e (t :: r)) x rest) : t.kind ≠ .kwElse := by
  intro hk
  simp only [prefixExpr.eq_2, hk, UnaryOp.ofKind?] at h
  obtain ⟨_, _, _, hp, -⟩ := Yields.of_bind h
  simp only [primary.eq_2, hk] at hp
  exact Yields.of_error hp

/-- No expression starts with `else`: every level reads its left operand first, down to a
prefix expression. -/
theorem expression_head_ne_else {t : Token} {r : List Token} {x : Expr} {rest : List Token}
    (h : Yields (expression e (t :: r)) x rest) : t.kind ≠ .kwElse := by
  have level : ∀ lvl, (∀ x rest, Yields (operand e lvl (t :: r)) x rest → t.kind ≠ .kwElse) →
      ∀ x rest, Yields (infixExpr e lvl (t :: r)) x rest → t.kind ≠ .kwElse := by
    intro lvl hop x rest h
    rw [infixExpr.eq_1] at h
    obtain ⟨_, _, _, hl, -⟩ := Yields.of_bind h
    exact hop _ _ hl
  have hfactor := level .factor fun x rest h => by
    rw [operand] at h
    exact prefixExpr_head_ne_else h
  have hterm := level .term fun x rest h => by
    rw [operand] at h
    exact hfactor x rest h
  have hcompare := level .compare fun x rest h => by
    rw [operand] at h
    exact hterm x rest h
  have hand := level .and fun x rest h => by
    rw [operand] at h
    exact hcompare x rest h
  have hor := level .or fun x rest h => by
    rw [operand] at h
    exact hand x rest h
  rw [expression.eq_1] at h
  obtain ⟨_, _, _, hl, -⟩ := Yields.of_bind h
  exact hor _ _ hl

/-- No declaration starts with `else`. -/
theorem declaration_head_ne_else {t : Token} {r : List Token} {s : Stmt} {rest : List Token}
    (h : Yields (declaration e (t :: r)) s rest) : t.kind ≠ .kwElse := by
  intro hk
  simp only [declaration.eq_2, hk, statement.eq_2, exprStmt] at h
  obtain ⟨_, _, _, hx, -⟩ := Yields.of_bind h
  exact expression_head_ne_else hx hk

theorem declarations_head_ne_else {acc : Array Stmt} {u : List Token} {ss : List Stmt}
    (h : declarations e acc u = .ok ss) : ∀ t ∈ u.head?, t.kind ≠ .kwElse := by
  intro t ht
  cases u with
  | nil => exact absurd ht (Option.not_mem_none t)
  | cons t' r =>
    cases ht
    rw [declarations.eq_2] at h
    obtain ⟨⟨s, rest⟩, hd, -⟩ := ok_of_bind_eq_ok h
    exact declaration_head_ne_else (show Yields (declaration e (t :: r)) s rest.1 by rw [hd]; rfl)

/-- The declarations read before are put in front of those read after. -/
theorem declarations_acc :
    ∀ {acc' : Array Stmt} {ts : List Token} (acc : Array Stmt),
      declarations e (acc ++ acc') ts = (declarations e acc' ts).map (acc.toList ++ ·) := by
  intro acc' ts
  induction acc', ts using declarations.induct with
  | case1 acc' =>
    intro acc
    simp only [declarations.eq_1, Array.toList_append]
    rfl
  | case2 acc' t tail ih =>
    intro acc
    rw [declarations.eq_2, declarations.eq_2]
    cases hd : declaration e (t :: tail) with
    | error f => rfl
    | ok p =>
      obtain ⟨s, rest⟩ := p
      show declarations e ((acc ++ acc').push s) rest.1 = _
      rw [← Array.append_push]
      exact ih s rest acc

/-- Declarations read to the end of their tokens are read again from similar tokens followed
by tokens `u` that do not start with `else`, and the reading goes on with `u`. -/
theorem declarations_then :
    ∀ {acc : Array Stmt} {ts : List Token} {ss : List Stmt}, declarations e acc ts = .ok ss →
      ∀ e' ts' u, List.Forall₂ Token.Similar ts ts' → (∀ t ∈ u.head?, t.kind ≠ .kwElse) →
        declarations e' acc (ts' ++ u) = (declarations e' #[] u).map (ss ++ ·) := by
  intro acc ts
  induction acc, ts using declarations.induct with
  | case1 acc =>
    intro ss h e' ts' u hs _
    rw [declarations.eq_1] at h
    cases h
    cases hs
    rw [List.nil_append, ← declarations_acc, Array.append_empty]
  | case2 acc t tail ih =>
    intro ss h e' ts' u hs hu
    rw [declarations.eq_2] at h
    obtain ⟨⟨s, rest⟩, hd, h⟩ := ok_of_bind_eq_ok h
    have hread : Yields (declaration e (t :: tail)) s rest.1 := by
      rw [hd]
      rfl
    obtain ⟨rest', hread', hs1⟩ := (stmtLocality e).declaration _ s _ hread e' ts' u hs (.inr hu)
    obtain ⟨_, hd'⟩ := hread'.eq
    cases hs with
    | cons ht htail =>
      simp only [List.cons_append] at hd' ⊢
      rw [declarations.eq_2, hd']
      exact ih s rest h e' rest' u hs1 hu

/-- The declarations of two token lists read one after the other, the first of them moved
to other positions, are the declarations of each. -/
theorem declarations_append {e' : Pos} {ts ts' u : List Token} {ss ss₂ : List Stmt}
    (h : declarations e #[] ts = .ok ss) (hs : List.Forall₂ Token.Similar ts ts')
    (hu : declarations e' #[] u = .ok ss₂) : declarations e' #[] (ts' ++ u) = .ok (ss ++ ss₂) := by
  rw [declarations_then h e' ts' u hs (declarations_head_ne_else hu), hu]
  rfl

/-- Declarations are read the same from similar tokens. -/
theorem declarations_similar {e' : Pos} {ts ts' : List Token} {ss : List Stmt}
    (h : declarations e #[] ts = .ok ss) (hs : List.Forall₂ Token.Similar ts ts') :
    declarations e' #[] ts' = .ok ss := by
  have h' := declarations_then h e' ts' [] hs fun t ht => absurd ht (Option.not_mem_none t)
  rw [List.append_nil, declarations.eq_1] at h'
  rw [h']
  exact congrArg Except.ok (List.append_nil ss)

end Statements

end Syntax

end Ember
