import Ember.Proofs.Lookahead
import Ember.Proofs.Sessions
/-!
A fault names a token that fits no program.

When a read fails, its fault names a token, or the end of the input, such that the read
fails again from any tokens that agree, positions aside, with the tokens up to and
including that one, whatever follows them (`Misfit`, `ExprMisfit`, `StmtMisfit`). So no
program starts with the tokens up to the one named: the reader never reports a fault
before the first token that does not fit. It can report one after it, in two places. The
target of an assignment is checked only once its value has been read, so a fault in the
value is reported although the `=` after a non-target already fits no program; and a
ninth parameter or argument is refused at the token after the comma that announces it,
although that comma fits no program either.

Main statement: `Program.fault_token_fits_no_program`.
-/

namespace Ember

namespace Syntax

/-- The place a fault names, if it names one. -/
def Fault.pos? : Fault → Option Pos
  | .noEnd => none
  | .expected _ p _ => some p
  | .tooManyParams _ p => some p
  | .tooManyArgs p => some p
  | .badTarget p => some p
  | .endInExpr p => some p
  | .unexpected _ p => some p

/-- A read gives a fault. -/
def Fails {α : Type} (r : Except Fault α) : Prop := ∃ f, r = .error f

/-- The fault `f` of a read of the tokens `ts`, with end position `e`, names the first token
of a suffix `s` of `ts`, or the end when `s` is empty; and `R` holds of any tokens that agree
with `ts` up to `s` and on the first token of `s`, with any end position. -/
def Misfit (e : Pos) (f : Fault) (ts : List Token) (R : Pos → List Token → Prop) : Prop :=
  ∃ s, s <:+ ts ∧ f.pos? = some (here e s) ∧ ∀ e' ts' s', Window ts s ts' s' → R e' ts'

/-! ### Failing reads -/

section Fails

variable {α β : Type} {P : List Token → Prop}

theorem Fails.error (f : Fault) : Fails (Except.error f : Except Fault α) := ⟨f, rfl⟩

theorem Fails.bind {x : Except Fault α} {g : α → Except Fault β} (h : Fails x) :
    Fails (x >>= g) := by
  obtain ⟨f, rfl⟩ := h
  exact ⟨f, rfl⟩

/-- A read fails when its first part is read and the rest of it fails. -/
theorem Fails.bind_ok {x : Except Fault (α × {l : List Token // P l})}
    {g : α × {l : List Token // P l} → Except Fault β} {a : α} {r : List Token}
    (hx : Yields x a r) (hg : ∀ hr, Fails (g (a, ⟨r, hr⟩))) : Fails (x >>= g) := by
  obtain ⟨hr, rfl⟩ := hx.eq
  exact hg hr

theorem Fails.map {x : Except Fault α} {g : α → β} (h : Fails x) : Fails (x.map g) := by
  obtain ⟨f, rfl⟩ := h
  exact ⟨f, rfl⟩

theorem Fails.cons {t : Token} {r : List Token} {x : Read r α} (h : Fails x) :
    Fails (Read.cons x : Read (t :: r) α) :=
  Fails.map h

/-- A read that fails failed in its first part, or read it and failed in the rest. -/
theorem error_of_bind {x : Except Fault (α × {l : List Token // P l})}
    {g : α × {l : List Token // P l} → Except Fault β} {f : Fault} (h : (x >>= g) = .error f) :
    x = .error f ∨ ∃ a r hr, Yields x a r ∧ g (a, ⟨r, hr⟩) = .error f := by
  cases x with
  | error f' =>
    obtain rfl : f' = f := Except.error.inj h
    exact .inl rfl
  | ok p =>
    obtain ⟨a, r, hr⟩ := p
    exact .inr ⟨a, r, hr, rfl, h⟩

theorem error_of_map {x : Except Fault α} {g : α → β} {f : Fault} (h : x.map g = .error f) :
    x = .error f := by
  cases x with
  | error f' =>
    obtain rfl : f' = f := Except.error.inj h
    rfl
  | ok a => cases h

end Fails

/-! ### Faults that name a token -/

namespace Misfit

variable {e : Pos} {f : Fault} {ts : List Token} {R Q : Pos → List Token → Prop}

/-- A fault at the next token, or at the end when there is none. -/
theorem next (hpos : f.pos? = some (here e ts))
    (hQ : ∀ e' ts' s', Window ts ts ts' s' → Q e' ts') : Misfit e f ts Q :=
  ⟨ts, List.suffix_refl ts, hpos, hQ⟩

/-- What follows from the failure of a part read first: any tokens in the window start
with a token like the first one. -/
theorem mono (m : Misfit e f ts R)
    (hQ : ∀ e' ts', List.Forall₂ Token.Similar (ts.take 1) (ts'.take 1) → R e' ts' → Q e' ts') :
    Misfit e f ts Q := by
  obtain ⟨s, hs, hpos, hR⟩ := m
  exact ⟨s, hs, hpos, fun e' ts' s' w => hQ e' ts' w.head (hR e' ts' s' w)⟩

/-- A fault after a token of the read. -/
theorem cons {t : Token} (m : Misfit e f ts R)
    (hQ : ∀ e' t' ts', t.Similar t' → R e' ts' → Q e' (t' :: ts')) : Misfit e f (t :: ts) Q := by
  obtain ⟨s, hs, hpos, hR⟩ := m
  refine ⟨s, hs.trans (List.suffix_cons t ts), hpos, fun e' ts' s' w => ?_⟩
  obtain ⟨t', ts'', rfl, ht, w⟩ := w.cons_inv hs.length_le
  exact hQ e' t' ts'' ht (hR e' ts'' s' w)

/-- A fault after a part of the read that left `r`: the tokens in the window of the fault
have the part's window at their start. -/
theorem after {r : List Token} (hr : r <:+ ts) (m : Misfit e f r R)
    (hQ : ∀ e' ts' r', Window ts r ts' r' → R e' r' → Q e' ts') : Misfit e f ts Q := by
  obtain ⟨s, hs, hpos, hR⟩ := m
  refine ⟨s, hs.trans hr, hpos, fun e' ts' s' w => ?_⟩
  obtain ⟨r', w₁, w₂⟩ := w.split hr hs.length_le
  exact hQ e' ts' r' w₁ (hR e' r' s' w₂)

end Misfit

/-- A token that is not the one expected is where the fault is, and no token like it, nor
the end, is expected there either. -/
theorem expect_misfit {e : Pos} {k : Token.Kind} {what : Text} {ts : List Token} {f : Fault}
    (h : expect e k what ts = .error f) :
    Misfit e f ts fun e' ts' => ∀ what', Fails (expect e' k what' ts') := by
  cases ts with
  | nil =>
    cases h
    refine Misfit.next rfl fun e' ts' s' w => ?_
    obtain ⟨rfl, -⟩ := w.nil_inv
    exact fun _ => Fails.error _
  | cons t r =>
    simp only [expect] at h
    split at h
    · cases h
    · rename_i hk
      cases h
      refine Misfit.next rfl fun e' ts' s' w => ?_
      obtain ⟨t', r', rfl, ht⟩ := w.cons_head
      intro what'
      simp only [expect, ← ht.1, if_neg hk]
      exact Fails.error _

/-! ### Expressions -/

/-- Every fault of an expression reader names a token after which the reader fails from any
tokens like the ones before it. -/
structure ExprMisfit (e : Pos) : Prop where
  primary : ∀ ts f, primary e ts = .error f → Misfit e f ts fun e' ts' => Fails (primary e' ts')
  expression : ∀ ts f, expression e ts = .error f →
    Misfit e f ts fun e' ts' => Fails (expression e' ts')
  infixExpr : ∀ lvl ts f, infixExpr e lvl ts = .error f →
    Misfit e f ts fun e' ts' => Fails (infixExpr e' lvl ts')
  infixTail : ∀ lvl left ts f, infixTail e lvl left ts = .error f →
    Misfit e f ts fun e' ts' => Fails (infixTail e' lvl left ts')
  operand : ∀ lvl ts f, operand e lvl ts = .error f →
    Misfit e f ts fun e' ts' => Fails (operand e' lvl ts')
  prefixExpr : ∀ ts f, prefixExpr e ts = .error f →
    Misfit e f ts fun e' ts' => Fails (prefixExpr e' ts')
  callTail : ∀ callee ts f, callTail e callee ts = .error f →
    Misfit e f ts fun e' ts' => Fails (callTail e' callee ts')
  callArgs : ∀ ts f, callArgs e ts = .error f →
    Misfit e f ts fun e' ts' => Fails (callArgs e' ts')
  argsFrom : ∀ acc ts f, argsFrom e acc ts = .error f →
    Misfit e f ts fun e' ts' => Fails (argsFrom e' acc ts')

/-- The induction follows the readers' recursion. A read fails in one of its parts; the
parts before it were read, and are read again from the tokens in the window of the fault
(`exprLookahead`), which goes past them. -/
theorem exprMisfit (e : Pos) : ExprMisfit e := by
  refine (primary.mutual_induct
    (fun ts => ∀ f, primary e ts = .error f → Misfit e f ts fun e' ts' => Fails (primary e' ts'))
    (fun ts => ∀ f, expression e ts = .error f →
      Misfit e f ts fun e' ts' => Fails (expression e' ts'))
    (fun lvl ts => ∀ f, infixExpr e lvl ts = .error f →
      Misfit e f ts fun e' ts' => Fails (infixExpr e' lvl ts'))
    (fun lvl left ts => ∀ f, infixTail e lvl left ts = .error f →
      Misfit e f ts fun e' ts' => Fails (infixTail e' lvl left ts'))
    (fun lvl ts => ∀ f, operand e lvl ts = .error f →
      Misfit e f ts fun e' ts' => Fails (operand e' lvl ts'))
    (fun ts => ∀ f, prefixExpr e ts = .error f →
      Misfit e f ts fun e' ts' => Fails (prefixExpr e' ts'))
    (fun callee ts => ∀ f, callTail e callee ts = .error f →
      Misfit e f ts fun e' ts' => Fails (callTail e' callee ts'))
    (fun ts => ∀ f, callArgs e ts = .error f →
      Misfit e f ts fun e' ts' => Fails (callArgs e' ts'))
    (fun acc ts => ∀ f, argsFrom e acc ts = .error f →
      Misfit e f ts fun e' ts' => Fails (argsFrom e' acc ts'))
    ?primaryNil ?integer ?string ?kwTrue ?kwFalse ?kwNil ?ident ?kwThis ?lparen ?unexpected
    ?expression ?infixExpr ?infixTailNil ?infixTailOp ?infixTailStop
    ?operandOr ?operandAnd ?operandCompare ?operandTerm ?operandFactor
    ?prefixNil ?prefixUnary ?prefixPrimary
    ?callTailNil ?callTailCall ?callTailField ?callTailStop
    ?callArgsSome ?callArgsNone ?argsFull ?argsFrom).elim
    fun h1 h => h.elim fun h2 h => h.elim fun h3 h => h.elim fun h4 h => h.elim fun h5 h =>
      h.elim fun h6 h => h.elim fun h7 h => h.elim fun h8 h9 => ⟨h1, h2, h3, h4, h5, h6, h7, h8, h9⟩
  case primaryNil =>
    intro f h
    rw [primary.eq_1] at h
    cases h
    refine Misfit.next rfl fun e' ts' s' w => ?_
    obtain ⟨rfl, -⟩ := w.nil_inv
    rw [primary.eq_1]
    exact Fails.error _
  case integer | string | kwTrue | kwFalse | kwNil | ident | kwThis =>
    intro t tail hk f h
    simp [primary.eq_2, hk] at h
  case lparen =>
    intro t tail hk ih f h
    simp only [primary.eq_2, hk] at h
    rcases error_of_bind h with h | ⟨x, r1, h1, hx, h⟩
    · -- inside the parentheses
      refine (ih f h).cons fun e' t' tail' ht hf => ?_
      simp only [primary.eq_2, ← ht.1, hk]
      exact hf.bind
    · dsimp only at h
      rcases error_of_bind h with h | ⟨_, r2, h2, -, h⟩
      · -- no closing parenthesis
        have hr1 := ((exprProvenance e).expression _ _ _ hx).1
        refine (expect_misfit h).after (hr1.trans (List.suffix_cons t tail)) fun e' ts' r1' w hf => ?_
        obtain ⟨t', tail', rfl, ht, w⟩ := w.cons_inv (Nat.le_of_lt h1)
        simp only [primary.eq_2, ← ht.1, hk]
        exact Fails.bind_ok ((exprLookahead e).expression _ _ _ hx e' tail' r1' w) fun _ =>
          (hf _).bind
      · cases h
  case unexpected =>
    intro t tail h1 h2 h3 h4 h5 h6 h7 h8 f h
    rw [primary.eq_2] at h
    split at h <;> try contradiction
    cases h
    refine Misfit.next rfl fun e' ts' s' w => ?_
    obtain ⟨t', tail', rfl, ht⟩ := w.cons_head
    rw [primary.eq_2, ← ht.1]
    split <;> first | contradiction | exact Fails.error _
  case expression =>
    intro ts ihl ihv f h
    rw [expression.eq_1] at h
    rcases error_of_bind h with h | ⟨left, r1, h1, hl, h⟩
    · -- the left side fails
      refine (ihl f h).mono fun e' ts' _ hf => ?_
      rw [expression.eq_1]
      exact hf.bind
    · dsimp only at h
      have hr1 := ((exprProvenance e).infixExpr _ _ _ _ hl).1
      split at h
      · rename_i eq r2 h2 ha
        rcases error_of_bind h with h | ⟨value, r3, h3, hv, h⟩
        · -- the value fails
          refine (ihv r1 h1 r2 h2 f h).after ((accept_suffix ha).trans hr1)
            fun e' ts' r2' w hf => ?_
          obtain ⟨r1', w₁, w₂⟩ := w.split hr1 (Nat.le_of_lt h2)
          obtain ⟨_, r2'', -, w₃, _, ha'⟩ := accept_window ha w₂ (Nat.le_refl _)
          obtain rfl := w₃.eq_of_self
          rw [expression.eq_1]
          refine Fails.bind_ok ((exprLookahead e).infixExpr _ _ _ _ hl e' ts' r1' w₁) fun _ => ?_
          dsimp only
          rw [ha']
          exact hf.bind
        · -- the value is read, and the left side is not a target: the fault is at `=`,
          -- and whatever follows `=`, the value fails or the target is refused
          dsimp only at h
          split at h
          · cases h
          · cases h
          · rename_i hvar hfield
            cases h
            obtain ⟨hr1', hk⟩ := accept_inv ha
            refine ⟨r1, hr1, by rw [hr1']; rfl, fun e' ts' s' w => ?_⟩
            show Fails (expression e' ts')
            rw [expression.eq_1]
            refine Fails.bind_ok ((exprLookahead e).infixExpr _ _ _ _ hl e' ts' s' w) fun _ => ?_
            dsimp only
            have hn := w.next
            rw [hr1'] at hn
            obtain ⟨eq', r2', rfl, heq⟩ := Token.take_one_cons hn
            rw [accept_of_kind r2' (heq.1 ▸ hk)]
            dsimp only
            cases expression e' r2' with
            | error f' => exact Fails.error f'
            | ok p =>
              obtain ⟨value', r3', h3'⟩ := p
              dsimp only [bind, Except.bind]
              split
              · exact (hvar _ rfl).elim
              · exact (hfield _ _ rfl).elim
              · exact Fails.error _
      · cases h
  case infixExpr =>
    intro lvl ts ihl iht f h
    rw [infixExpr.eq_1] at h
    rcases error_of_bind h with h | ⟨left, r1, h1, hl, h⟩
    · refine (ihl f h).mono fun e' ts' _ hf => ?_
      rw [infixExpr.eq_1]
      exact hf.bind
    · dsimp only at h
      rcases error_of_bind h with h | ⟨x, r2, h2, -, h⟩
      · -- the operators after the left operand fail
        refine (iht left r1 h1 f h).after ((exprProvenance e).operand _ _ _ _ hl).1
          fun e' ts' r1' w hf => ?_
        rw [infixExpr.eq_1]
        exact Fails.bind_ok ((exprLookahead e).operand _ _ _ _ hl e' ts' r1' w) fun _ => hf.bind
      · cases h
  case infixTailNil =>
    intro lvl left f h
    rw [infixTail.eq_1] at h
    cases h
  case infixTailOp =>
    intro lvl left t tail op hop ihr iht f h
    simp only [infixTail.eq_2, hop] at h
    rcases error_of_bind h with h | ⟨right, r1, h1, hr, h⟩
    · -- the right operand fails
      refine (ihr f h).cons fun e' t' tail' ht hf => ?_
      simp only [infixTail.eq_2, ← ht.1, hop]
      exact hf.bind
    · dsimp only at h
      rcases error_of_bind h with h | ⟨x, r2, h2, -, h⟩
      · -- the operators after the right operand fail
        have hr1 := ((exprProvenance e).operand _ _ _ _ hr).1
        refine (iht right r1 h1 f h).after (hr1.trans (List.suffix_cons t tail))
          fun e' ts' r1' w hf => ?_
        obtain ⟨t', tail', rfl, ht, w⟩ := w.cons_inv (Nat.le_of_lt h1)
        simp only [infixTail.eq_2, ← ht.1, hop, ← ht.2.1]
        exact Fails.bind_ok ((exprLookahead e).operand _ _ _ _ hr e' tail' r1' w) fun _ =>
          hf.bind
      · cases h
  case infixTailStop =>
    intro lvl left t tail hnone f h
    simp [infixTail.eq_2, hnone] at h
  case operandOr | operandAnd | operandCompare | operandTerm | operandFactor =>
    intro ts ih f h
    rw [operand] at h
    refine (ih f h).mono fun e' ts' _ hf => ?_
    rw [operand]
    exact hf
  case prefixNil =>
    intro _ f h
    rw [prefixExpr.eq_1, primary.eq_1] at h
    cases h
    refine Misfit.next rfl fun e' ts' s' w => ?_
    obtain ⟨rfl, -⟩ := w.nil_inv
    rw [prefixExpr.eq_1, primary.eq_1]
    exact Fails.error _
  case prefixUnary =>
    intro t tail op hop ih f h
    simp only [prefixExpr.eq_2, hop] at h
    rcases error_of_bind h with h | ⟨x, r1, h1, -, h⟩
    · refine (ih f h).cons fun e' t' tail' ht hf => ?_
      simp only [prefixExpr.eq_2, ← ht.1, hop]
      exact hf.bind
    · cases h
  case prefixPrimary =>
    intro t tail hnone ihp iht f h
    simp only [prefixExpr.eq_2, hnone] at h
    rcases error_of_bind h with h | ⟨p, r1, h1, hp, h⟩
    · refine (ihp f h).mono fun e' ts' hs hf => ?_
      obtain ⟨t', tail', rfl, ht⟩ := Token.take_one_cons hs
      simp only [prefixExpr.eq_2, ← ht.1, hnone]
      exact hf.bind
    · dsimp only at h
      rcases error_of_bind h with h | ⟨x, r2, h2, -, h⟩
      · -- the calls and field reads after the primary expression fail
        refine (iht p r1 h1 f h).after ((exprProvenance e).primary _ _ _ hp).1
          fun e' ts' r1' w hf => ?_
        obtain ⟨t', tail', rfl, ht⟩ := w.cons_head
        simp only [prefixExpr.eq_2, ← ht.1, hnone]
        exact Fails.bind_ok ((exprLookahead e).primary _ _ _ hp e' _ r1' w) fun _ => hf.bind
      · cases h
  case callTailNil =>
    intro callee f h
    rw [callTail.eq_1] at h
    cases h
  case callTailCall =>
    intro callee t tail hk iha iht f h
    simp only [callTail.eq_2, hk, if_true] at h
    rcases error_of_bind h with h | ⟨args, r1, h1, ha, h⟩
    · -- the arguments fail
      refine (iha f h).cons fun e' t' tail' ht hf => ?_
      simp only [callTail.eq_2, ← ht.1, hk, if_true]
      exact hf.bind
    · dsimp only at h
      rcases error_of_bind h with h | ⟨x, r2, h2, -, h⟩
      · have hr1 := ((exprProvenance e).callArgs _ _ _ ha).1
        refine (iht args r1 h1 f h).after (hr1.trans (List.suffix_cons t tail))
          fun e' ts' r1' w hf => ?_
        obtain ⟨t', tail', rfl, ht, w⟩ := w.cons_inv (Nat.le_of_lt h1)
        simp only [callTail.eq_2, ← ht.1, hk, if_true]
        exact Fails.bind_ok ((exprLookahead e).callArgs _ _ _ ha e' tail' r1' w) fun _ => hf.bind
      · cases h
  case callTailField =>
    intro callee t tail hl hd iht f h
    simp only [callTail.eq_2, hd, if_true] at h
    rcases error_of_bind h with h | ⟨n, r1, h1, hn, h⟩
    · -- no name after the dot
      refine (expect_misfit h).cons fun e' t' tail' ht hf => ?_
      simp only [callTail.eq_2, ← ht.1, hd, if_true]
      exact (hf _).bind
    · dsimp only at h
      rcases error_of_bind h with h | ⟨x, r2, h2, -, h⟩
      · refine (iht n r1 h1 f h).after ((expect_suffix hn).trans (List.suffix_cons t tail))
          fun e' ts' r1' w hf => ?_
        obtain ⟨t', tail', rfl, ht, w⟩ := w.cons_inv (Nat.le_of_lt h1)
        obtain ⟨n', hns, hn'⟩ := expect_window hn w
        simp only [callTail.eq_2, ← ht.1, hd, if_true]
        refine Fails.bind_ok (hn' e' _) fun _ => ?_
        dsimp only
        rw [← hns.2.2]
        exact hf.bind
      · cases h
  case callTailStop =>
    intro callee t tail hl hd f h
    simp [callTail.eq_2, hl, hd] at h
  case callArgsSome =>
    intro ts close r ha f h
    simp [callArgs.eq_1, ha] at h
  case callArgsNone =>
    intro ts ha ih f h
    simp only [callArgs.eq_1, ha] at h
    refine (ih f h).mono fun e' ts' hs hf => ?_
    simp only [callArgs.eq_1, accept_none_of_similar ha hs]
    exact hf
  case argsFull =>
    intro acc ts hfull f h
    rw [argsFrom.eq_1, if_pos hfull] at h
    cases h
    refine Misfit.next rfl fun e' ts' s' w => ?_
    rw [argsFrom.eq_1, if_pos hfull]
    exact Fails.error _
  case argsFrom =>
    intro acc ts hroom ihx ihs f h
    rw [argsFrom.eq_1, if_neg hroom] at h
    rcases error_of_bind h with h | ⟨x, r1, h1, hx, h⟩
    · refine (ihx f h).mono fun e' ts' _ hf => ?_
      rw [argsFrom.eq_1, if_neg hroom]
      exact hf.bind
    · dsimp only at h
      have hr1 := ((exprProvenance e).expression _ _ _ hx).1
      split at h
      · -- the further arguments after a comma fail
        rename_i r2 h2 hc
        rcases error_of_bind h with h | ⟨xs, r3, h3, -, h⟩
        · refine (ihs x r1 h1 r2 h2 f h).after ((accept_suffix hc).trans hr1)
            fun e' ts' r2' w hf => ?_
          obtain ⟨r1', w₁, w₂⟩ := w.split hr1 (Nat.le_of_lt h2)
          obtain ⟨_, r2'', -, w₃, _, hc'⟩ := accept_window hc w₂ (Nat.le_refl _)
          obtain rfl := w₃.eq_of_self
          rw [argsFrom.eq_1, if_neg hroom]
          refine Fails.bind_ok ((exprLookahead e).expression _ _ _ hx e' ts' r1' w₁) fun _ => ?_
          dsimp only
          rw [hc']
          exact hf.bind
        · cases h
      · -- no comma, and no closing parenthesis
        rename_i hc
        rcases error_of_bind h with h | ⟨_, r2, h2, -, h⟩
        · refine (expect_misfit h).after hr1 fun e' ts' r1' w hf => ?_
          rw [argsFrom.eq_1, if_neg hroom]
          refine Fails.bind_ok ((exprLookahead e).expression _ _ _ hx e' ts' r1' w) fun _ => ?_
          dsimp only
          rw [accept_none_of_similar hc w.next]
          exact (hf _).bind
        · cases h

/-! ### Statements -/

section Statements

variable {e : Pos}

theorem exprUnless_misfit {k : Token.Kind} {ts : List Token} {f : Fault}
    (h : exprUnless e k ts = .error f) :
    Misfit e f ts fun e' ts' => Fails (exprUnless e' k ts') := by
  unfold exprUnless at h
  split at h
  · cases h
  · rename_i hk
    rcases error_of_bind h with h | ⟨x, r1, h1, -, h⟩
    · refine ((exprMisfit e).expression ts f h).mono fun e' ts' hs hf => ?_
      unfold exprUnless
      rw [startsWith_of_similar hs, if_neg hk]
      exact hf.bind
    · cases h

theorem exprStmt_misfit {ts : List Token} {f : Fault} (h : exprStmt e ts = .error f) :
    Misfit e f ts fun e' ts' => Fails (exprStmt e' ts') := by
  unfold exprStmt at h
  rcases error_of_bind h with h | ⟨x, r1, h1, hx, h⟩
  · refine ((exprMisfit e).expression ts f h).mono fun e' ts' _ hf => ?_
    unfold exprStmt
    exact hf.bind
  · dsimp only at h
    rcases error_of_bind h with h | ⟨_, r2, h2, -, h⟩
    · -- no semicolon after the expression
      refine (expect_misfit h).after ((exprProvenance e).expression _ _ _ hx).1
        fun e' ts' r1' w hf => ?_
      unfold exprStmt
      exact Fails.bind_ok ((exprLookahead e).expression _ _ _ hx e' ts' r1' w) fun _ =>
        (hf _).bind
    · cases h

theorem letRest_misfit {ts : List Token} {f : Fault} (h : letRest e ts = .error f) :
    Misfit e f ts fun e' ts' => Fails (letRest e' ts') := by
  unfold letRest at h
  rcases error_of_bind h with h | ⟨n, r1, h1, hn, h⟩
  · -- no name
    refine (expect_misfit h).mono fun e' ts' _ hf => ?_
    unfold letRest
    exact (hf _).bind
  · dsimp only at h
    obtain ⟨rfl, hk⟩ := expect_inv hn
    split at h
    · rename_i r2 h2 ha
      rcases error_of_bind h with h | ⟨x, r3, h3, hx, h⟩
      · -- the initializer fails
        refine ((exprMisfit e).expression _ f h).after
          ((accept_suffix ha).trans (List.suffix_cons n r1)) fun e' ts' r2' w hf => ?_
        obtain ⟨n', r1', rfl, hns, w⟩ := w.cons_inv (Nat.le_of_lt h2)
        obtain ⟨_, r2'', -, w₂, _, ha'⟩ := accept_window ha w (Nat.le_refl _)
        obtain rfl := w₂.eq_of_self
        unfold letRest
        refine Fails.bind_ok (Yields.expect_similar _ hns hk) fun _ => ?_
        dsimp only
        rw [ha']
        exact hf.bind
      · dsimp only at h
        rcases error_of_bind h with h | ⟨_, r4, h4, -, h⟩
        · -- no semicolon after the initializer
          have hr3 := ((exprProvenance e).expression _ _ _ hx).1
          refine (expect_misfit h).after
            ((hr3.trans (accept_suffix ha)).trans (List.suffix_cons n r1)) fun e' ts' r3' w hf => ?_
          obtain ⟨n', r1', rfl, hns, w⟩ := w.cons_inv (Nat.le_of_lt (Nat.lt_trans h3 h2))
          obtain ⟨_, r2', -, w₂, _, ha'⟩ := accept_window ha w (Nat.le_of_lt h3)
          unfold letRest
          refine Fails.bind_ok (Yields.expect_similar _ hns hk) fun _ => ?_
          dsimp only
          rw [ha']
          exact Fails.bind_ok ((exprLookahead e).expression _ _ _ hx e' r2' r3' w₂) fun _ =>
            (hf _).bind
        · cases h
    · -- no initializer, and no semicolon after the name
      rename_i ha
      rcases error_of_bind h with h | ⟨_, r2, h2, -, h⟩
      · refine (expect_misfit h).after (List.suffix_cons n r1) fun e' ts' r1' w hf => ?_
        have hnext := w.next
        obtain ⟨n', r1'', rfl, hns, w⟩ := w.cons_inv (Nat.le_refl _)
        obtain rfl := w.eq_of_self
        unfold letRest
        refine Fails.bind_ok (Yields.expect_similar _ hns hk) fun _ => ?_
        dsimp only
        rw [accept_none_of_similar ha hnext]
        exact (hf _).bind
      · cases h

theorem returnRest_misfit {ts : List Token} {f : Fault} (h : returnRest e ts = .error f) :
    Misfit e f ts fun e' ts' => Fails (returnRest e' ts') := by
  unfold returnRest at h
  rcases error_of_bind h with h | ⟨v, r1, h1, hv, h⟩
  · refine (exprUnless_misfit h).mono fun e' ts' _ hf => ?_
    unfold returnRest
    exact hf.bind
  · dsimp only at h
    rcases error_of_bind h with h | ⟨_, r2, h2, -, h⟩
    · -- no semicolon after the value
      refine (expect_misfit h).after (exprUnless_literals hv).1 fun e' ts' r1' w hf => ?_
      unfold returnRest
      exact Fails.bind_ok (exprUnless_window hv e' ts' r1' w) fun _ => (hf _).bind
    · cases h

theorem printArgs_misfit :
    ∀ {acc : Array Expr} {ts : List Token} (f : Fault), printArgs e acc ts = .error f →
      Misfit e f ts fun e' ts' => Fails (printArgs e' acc ts') := by
  intro acc ts
  induction acc, ts using printArgs.induct with
  | case1 acc =>
    intro f h
    rw [printArgs.eq_1] at h
    cases h
  | case2 acc t tail hc ih =>
    intro f h
    simp only [printArgs.eq_2, hc, if_true] at h
    rcases error_of_bind h with h | ⟨x, r1, h1, hx, h⟩
    · -- the argument after the comma fails
      refine ((exprMisfit e).expression _ f h).cons fun e' t' tail' ht hf => ?_
      simp only [printArgs.eq_2, ← ht.1, hc, if_true]
      exact hf.bind
    · dsimp only at h
      rcases error_of_bind h with h | ⟨xs, r2, h2, -, h⟩
      · have hr1 := ((exprProvenance e).expression _ _ _ hx).1
        refine (ih x r1 h1 f h).after (hr1.trans (List.suffix_cons t tail))
          fun e' ts' r1' w hf => ?_
        obtain ⟨t', tail', rfl, ht, w⟩ := w.cons_inv (Nat.le_of_lt h1)
        simp only [printArgs.eq_2, ← ht.1, hc, if_true]
        exact Fails.bind_ok ((exprLookahead e).expression _ _ _ hx e' tail' r1' w) fun _ =>
          hf.bind
      · cases h
  | case3 acc t tail hc =>
    intro f h
    simp [printArgs.eq_2, hc] at h

theorem printRest_misfit {ts : List Token} {f : Fault} (h : printRest e ts = .error f) :
    Misfit e f ts fun e' ts' => Fails (printRest e' ts') := by
  unfold printRest at h
  rcases error_of_bind h with h | ⟨_, r1, h1, hl, h⟩
  · -- no opening parenthesis
    refine (expect_misfit h).mono fun e' ts' _ hf => ?_
    unfold printRest
    exact (hf _).bind
  dsimp only at h
  have hr1 := expect_suffix hl
  rcases error_of_bind h with h | ⟨first, r2, h2, hfirst, h⟩
  · -- the first argument fails
    refine ((exprMisfit e).expression _ f h).after hr1 fun e' ts' r1' w hf => ?_
    obtain ⟨_, -, hl'⟩ := expect_window hl w
    unfold printRest
    exact Fails.bind_ok (hl' e' _) fun _ => hf.bind
  dsimp only at h
  have hr2 := ((exprProvenance e).expression _ _ _ hfirst).1
  rcases error_of_bind h with h | ⟨args, r3, h3, ha, h⟩
  · -- the further arguments fail
    refine (printArgs_misfit f h).after (hr2.trans hr1) fun e' ts' r2' w hargs => ?_
    obtain ⟨r1', w₁, w₂⟩ := w.split hr1 (Nat.le_of_lt h2)
    obtain ⟨_, -, hl'⟩ := expect_window hl w₁
    unfold printRest
    exact Fails.bind_ok (hl' e' _) fun _ =>
      Fails.bind_ok ((exprLookahead e).expression _ _ _ hfirst e' r1' r2' w₂) fun _ => hargs.bind
  dsimp only at h
  have hr3 := (printArgs_literals ha).1
  rcases error_of_bind h with h | ⟨_, r4, h4, hr, h⟩
  · -- no closing parenthesis
    refine (expect_misfit h).after ((hr3.trans hr2).trans hr1) fun e' ts' r3' w hc => ?_
    obtain ⟨r1', w₁, w⟩ := w.split hr1 (by omega)
    obtain ⟨r2', w₂, w₃⟩ := w.split hr2 h3
    obtain ⟨_, -, hl'⟩ := expect_window hl w₁
    unfold printRest
    exact Fails.bind_ok (hl' e' _) fun _ =>
      Fails.bind_ok ((exprLookahead e).expression _ _ _ hfirst e' r1' r2' w₂) fun _ =>
      Fails.bind_ok (printArgs_window ha e' r2' r3' w₃) fun _ => (hc _).bind
  dsimp only at h
  rcases error_of_bind h with h | ⟨_, r5, h5, -, h⟩
  · -- no semicolon
    refine (expect_misfit h).after (((expect_suffix hr).trans hr3).trans (hr2.trans hr1))
      fun e' ts' r4' w hc => ?_
    obtain ⟨r1', w₁, w⟩ := w.split hr1 (by omega)
    obtain ⟨r2', w₂, w⟩ := w.split hr2 (by omega)
    obtain ⟨r3', w₃, w₄⟩ := w.split hr3 (Nat.le_of_lt h4)
    obtain ⟨_, -, hl'⟩ := expect_window hl w₁
    obtain ⟨_, -, hr'⟩ := expect_window hr w₄
    unfold printRest
    exact Fails.bind_ok (hl' e' _) fun _ =>
      Fails.bind_ok ((exprLookahead e).expression _ _ _ hfirst e' r1' r2' w₂) fun _ =>
      Fails.bind_ok (printArgs_window ha e' r2' r3' w₃) fun _ =>
      Fails.bind_ok (hr' e' _) fun _ => (hc _).bind
  cases h

theorem forInit_misfit {ts : List Token} {f : Fault} (h : forInit e ts = .error f) :
    Misfit e f ts fun e' ts' => Fails (forInit e' ts') := by
  cases ts with
  | nil =>
    refine (exprStmt_misfit (error_of_map h)).mono fun e' ts' hs hf => ?_
    obtain rfl := Token.take_one_nil hs
    exact hf.map
  | cons t tail =>
    simp only [forInit] at h
    split at h
    · cases h
    · rename_i hk
      split at h
      · -- a variable declaration
        rename_i hl
        refine (letRest_misfit (error_of_map (error_of_map h))).cons fun e' t' tail' ht hf => ?_
        simp only [forInit, ← ht.1]
        rw [if_neg hk, if_pos hl]
        exact hf.map.cons
      · -- an expression statement
        rename_i hl
        refine (exprStmt_misfit (error_of_map h)).mono fun e' ts' hs hf => ?_
        obtain ⟨t', tail', rfl, ht⟩ := Token.take_one_cons hs
        simp only [forInit, ← ht.1]
        rw [if_neg hk, if_neg hl]
        exact hf.map

theorem paramsFrom_misfit {name : Scalar} :
    ∀ {acc : Array Scalar} {ts : List Token} (f : Fault), paramsFrom e name acc ts = .error f →
      Misfit e f ts fun e' ts' => Fails (paramsFrom e' name acc ts') := by
  intro acc ts
  induction acc, ts using paramsFrom.induct with
  | case1 acc ts hfull =>
    -- a ninth parameter is refused at its first token, whatever it is
    intro f h
    rw [paramsFrom.eq_1, if_pos hfull] at h
    cases h
    refine Misfit.next rfl fun e' ts' s' w => ?_
    rw [paramsFrom.eq_1, if_pos hfull]
    exact Fails.error _
  | case2 acc ts hroom ih =>
    intro f h
    rw [paramsFrom.eq_1, if_neg hroom] at h
    rcases error_of_bind h with h | ⟨p, r1, h1, hp, h⟩
    · -- no parameter name
      refine (expect_misfit h).mono fun e' ts' _ hf => ?_
      rw [paramsFrom.eq_1, if_neg hroom]
      exact (hf _).bind
    · dsimp only at h
      obtain ⟨rfl, hk⟩ := expect_inv hp
      split at h
      · -- the parameters after a comma fail
        rename_i r2 h2 hc
        rcases error_of_bind h with h | ⟨ps, r3, h3, -, h⟩
        · refine (ih p r1 h1 r2 h2 f h).after ((accept_suffix hc).trans (List.suffix_cons p r1))
            fun e' ts' r2' w hf => ?_
          obtain ⟨p', r1', rfl, hps, w⟩ := w.cons_inv (Nat.le_of_lt h2)
          obtain ⟨_, r2'', -, w₂, _, hc'⟩ := accept_window hc w (Nat.le_refl _)
          obtain rfl := w₂.eq_of_self
          rw [paramsFrom.eq_1, if_neg hroom]
          refine Fails.bind_ok (Yields.expect_similar _ hps hk) fun _ => ?_
          dsimp only
          rw [← hps.2.2, hc']
          exact hf.bind
        · cases h
      · -- no comma, and no closing parenthesis
        rename_i hc
        rcases error_of_bind h with h | ⟨_, r2, h2, -, h⟩
        · refine (expect_misfit h).after (List.suffix_cons p r1) fun e' ts' r1' w hf => ?_
          have hnext := w.next
          obtain ⟨p', r1'', rfl, hps, w⟩ := w.cons_inv (Nat.le_refl _)
          obtain rfl := w.eq_of_self
          rw [paramsFrom.eq_1, if_neg hroom]
          refine Fails.bind_ok (Yields.expect_similar _ hps hk) fun _ => ?_
          dsimp only
          rw [accept_none_of_similar hc hnext]
          exact (hf _).bind
        · cases h

theorem paramList_misfit {name : Scalar} {ts : List Token} {f : Fault}
    (h : paramList e name ts = .error f) :
    Misfit e f ts fun e' ts' => Fails (paramList e' name ts') := by
  unfold paramList at h
  split at h
  · cases h
  · rename_i ha
    refine (paramsFrom_misfit f h).mono fun e' ts' hs hf => ?_
    unfold paramList
    rw [accept_none_of_similar ha hs]
    exact hf

/-- Every fault of a statement reader names a token after which the reader fails from any
tokens like the ones before it. -/
structure StmtMisfit (e : Pos) : Prop where
  functionRest : ∀ ts f, functionRest e ts = .error f →
    Misfit e f ts fun e' ts' => Fails (functionRest e' ts')
  blockRest : ∀ acc ts f, blockRest e acc ts = .error f →
    Misfit e f ts fun e' ts' => Fails (blockRest e' acc ts')
  declaration : ∀ ts f, declaration e ts = .error f →
    Misfit e f ts fun e' ts' => Fails (declaration e' ts')
  classRest : ∀ ts f, classRest e ts = .error f →
    Misfit e f ts fun e' ts' => Fails (classRest e' ts')
  methods : ∀ name acc ts f, methods e name acc ts = .error f →
    Misfit e f ts fun e' ts' => Fails (methods e' name acc ts')
  statement : ∀ ts f, statement e ts = .error f →
    Misfit e f ts fun e' ts' => Fails (statement e' ts')
  whileRest : ∀ ts f, whileRest e ts = .error f →
    Misfit e f ts fun e' ts' => Fails (whileRest e' ts')
  ifRest : ∀ ts f, ifRest e ts = .error f →
    Misfit e f ts fun e' ts' => Fails (ifRest e' ts')
  forRest : ∀ ts f, forRest e ts = .error f →
    Misfit e f ts fun e' ts' => Fails (forRest e' ts')

/-- As for expressions: a read fails in one of its parts, and the parts before it are read
again from the tokens in the window of the fault (`stmtLookahead`). -/
theorem stmtMisfit (e : Pos) : StmtMisfit e := by
  refine (functionRest.mutual_induct
    (fun ts => ∀ f, functionRest e ts = .error f →
      Misfit e f ts fun e' ts' => Fails (functionRest e' ts'))
    (fun acc ts => ∀ f, blockRest e acc ts = .error f →
      Misfit e f ts fun e' ts' => Fails (blockRest e' acc ts'))
    (fun ts => ∀ f, declaration e ts = .error f →
      Misfit e f ts fun e' ts' => Fails (declaration e' ts'))
    (fun ts => ∀ f, classRest e ts = .error f →
      Misfit e f ts fun e' ts' => Fails (classRest e' ts'))
    (fun name acc ts => ∀ f, methods e name acc ts = .error f →
      Misfit e f ts fun e' ts' => Fails (methods e' name acc ts'))
    (fun ts => ∀ f, statement e ts = .error f →
      Misfit e f ts fun e' ts' => Fails (statement e' ts'))
    (fun ts => ∀ f, whileRest e ts = .error f →
      Misfit e f ts fun e' ts' => Fails (whileRest e' ts'))
    (fun ts => ∀ f, ifRest e ts = .error f →
      Misfit e f ts fun e' ts' => Fails (ifRest e' ts'))
    (fun ts => ∀ f, forRest e ts = .error f →
      Misfit e f ts fun e' ts' => Fails (forRest e' ts'))
    ?functionRest ?blockNil ?blockClose ?blockDecl
    ?declNil ?declLet ?declFn ?declClass ?declOther
    ?classRest ?methodsNil ?methodsClose ?methodsFunc
    ?stmtNil ?stmtFor ?stmtIf ?stmtReturn ?stmtPrint ?stmtWhile ?stmtBlock ?stmtOther
    ?whileRest ?ifRest ?forRest).elim
    fun h1 h => h.elim fun h2 h => h.elim fun h3 h => h.elim fun h4 h => h.elim fun h5 h =>
      h.elim fun h6 h => h.elim fun h7 h => h.elim fun h8 h9 => ⟨h1, h2, h3, h4, h5, h6, h7, h8, h9⟩
  case functionRest =>
    intro ts ih f h
    rw [functionRest.eq_1] at h
    rcases error_of_bind h with h | ⟨n, r1, h1, hn, h⟩
    · -- no name
      refine (expect_misfit h).mono fun e' ts' _ hf => ?_
      rw [functionRest.eq_1]
      exact (hf _).bind
    dsimp only at h
    have hr1 := expect_suffix hn
    rcases error_of_bind h with h | ⟨_, r2, h2, hl, h⟩
    · -- no opening parenthesis
      refine (expect_misfit h).after hr1 fun e' ts' r1' w hf => ?_
      obtain ⟨n', -, hn'⟩ := expect_window hn w
      rw [functionRest.eq_1]
      exact Fails.bind_ok (hn' e' _) fun _ => (hf _).bind
    dsimp only at h
    have hr2 := expect_suffix hl
    rcases error_of_bind h with h | ⟨ps, r3, h3, hps, h⟩
    · -- the parameters fail
      refine (paramList_misfit h).after (hr2.trans hr1) fun e' ts' r2' w hf => ?_
      obtain ⟨r1', w₁, w₂⟩ := w.split hr1 (Nat.le_of_lt h2)
      obtain ⟨n', hns, hn'⟩ := expect_window hn w₁
      obtain ⟨_, -, hl'⟩ := expect_window hl w₂
      rw [functionRest.eq_1]
      refine Fails.bind_ok (hn' e' _) fun _ => ?_
      dsimp only
      rw [← hns.2.2]
      exact Fails.bind_ok (hl' e' _) fun _ => hf.bind
    dsimp only at h
    have hr3 := (paramList_literals hps []).1
    rcases error_of_bind h with h | ⟨_, r4, h4, hb, h⟩
    · -- no opening brace
      refine (expect_misfit h).after ((hr3.trans hr2).trans hr1) fun e' ts' r3' w hf => ?_
      obtain ⟨r1', w₁, w⟩ := w.split hr1 (by omega)
      obtain ⟨r2', w₂, w₃⟩ := w.split hr2 (Nat.le_of_lt h3)
      obtain ⟨n', hns, hn'⟩ := expect_window hn w₁
      obtain ⟨_, -, hl'⟩ := expect_window hl w₂
      rw [functionRest.eq_1]
      refine Fails.bind_ok (hn' e' _) fun _ => ?_
      dsimp only
      rw [← hns.2.2]
      exact Fails.bind_ok (hl' e' _) fun _ =>
        Fails.bind_ok (paramList_window hps e' r2' r3' w₃) fun _ => (hf _).bind
    dsimp only at h
    have hr4 := expect_suffix hb
    rcases error_of_bind h with h | ⟨body, r5, h5, -, h⟩
    · -- the body fails
      refine (ih r1 h1 r2 h2 r3 h3 r4 h4 f h).after (((hr4.trans hr3).trans hr2).trans hr1)
        fun e' ts' r4' w hf => ?_
      obtain ⟨r1', w₁, w⟩ := w.split hr1 (by omega)
      obtain ⟨r2', w₂, w⟩ := w.split hr2 (by omega)
      obtain ⟨r3', w₃, w₄⟩ := w.split hr3 (Nat.le_of_lt h4)
      obtain ⟨n', hns, hn'⟩ := expect_window hn w₁
      obtain ⟨_, -, hl'⟩ := expect_window hl w₂
      obtain ⟨_, -, hb'⟩ := expect_window hb w₄
      rw [functionRest.eq_1]
      refine Fails.bind_ok (hn' e' _) fun _ => ?_
      dsimp only
      rw [← hns.2.2]
      exact Fails.bind_ok (hl' e' _) fun _ =>
        Fails.bind_ok (paramList_window hps e' r2' r3' w₃) fun _ =>
        Fails.bind_ok (hb' e' _) fun _ => hf.bind
    cases h
  case blockNil =>
    -- the tokens end inside the block
    intro acc f h
    rw [blockRest.eq_1] at h
    cases h
    refine Misfit.next rfl fun e' ts' s' w => ?_
    obtain ⟨rfl, -⟩ := w.nil_inv
    rw [blockRest.eq_1]
    exact Fails.error _
  case blockClose =>
    intro acc t tail hk f h
    simp [blockRest.eq_2, hk] at h
  case blockDecl =>
    intro acc t tail hk ihs ihb f h
    simp only [blockRest.eq_2, hk, if_false] at h
    rcases error_of_bind h with h | ⟨s, r1, h1, hd, h⟩
    · refine (ihs f h).mono fun e' ts' hs hf => ?_
      obtain ⟨t', tail', rfl, ht⟩ := Token.take_one_cons hs
      simp only [blockRest.eq_2, ← ht.1, hk, if_false]
      exact hf.bind
    · dsimp only at h
      rcases error_of_bind h with h | ⟨ss, r2, h2, -, h⟩
      · -- the rest of the block fails
        refine (ihb s r1 h1 f h).after ((stmtProvenance e).declaration _ _ _ hd).1
          fun e' ts' r1' w hf => ?_
        obtain ⟨t', tail', rfl, ht⟩ := w.cons_head
        simp only [blockRest.eq_2, ← ht.1, hk, if_false]
        exact Fails.bind_ok ((stmtLookahead e).declaration _ _ _ hd e' _ r1' w) fun _ => hf.bind
      · cases h
  case declNil =>
    intro ih f h
    rw [declaration.eq_1] at h
    refine (ih f h).mono fun e' ts' hs hf => ?_
    obtain rfl := Token.take_one_nil hs
    rw [declaration.eq_1]
    exact hf
  case declLet =>
    intro t tail hk f h
    simp only [declaration.eq_2, hk] at h
    refine (letRest_misfit (error_of_map h)).cons fun e' t' tail' ht hf => ?_
    simp only [declaration.eq_2, ← ht.1, hk]
    exact hf.cons
  case declFn =>
    intro t tail hk ih f h
    simp only [declaration.eq_2, hk] at h
    refine (ih f (error_of_map (error_of_map h))).cons fun e' t' tail' ht hf => ?_
    simp only [declaration.eq_2, ← ht.1, hk]
    exact hf.map.cons
  case declClass =>
    intro t tail hk ih f h
    simp only [declaration.eq_2, hk] at h
    refine (ih f (error_of_map h)).cons fun e' t' tail' ht hf => ?_
    simp only [declaration.eq_2, ← ht.1, hk]
    exact hf.cons
  case declOther =>
    intro t tail h1 h2 h3 ih f h
    rw [declaration.eq_2] at h
    split at h <;> try contradiction
    refine (ih f h).mono fun e' ts' hs hf => ?_
    obtain ⟨t', tail', rfl, ht⟩ := Token.take_one_cons hs
    rw [declaration.eq_2, ← ht.1]
    -- the kind is none of the declaration keywords, and the read branches on it
    split <;> first | contradiction | exact hf
  case classRest =>
    intro ts ih f h
    rw [classRest.eq_1] at h
    rcases error_of_bind h with h | ⟨n, r1, h1, hn, h⟩
    · -- no name
      refine (expect_misfit h).mono fun e' ts' _ hf => ?_
      rw [classRest.eq_1]
      exact (hf _).bind
    dsimp only at h
    have hr1 := expect_suffix hn
    rcases error_of_bind h with h | ⟨_, r2, h2, hb, h⟩
    · -- no opening brace
      refine (expect_misfit h).after hr1 fun e' ts' r1' w hf => ?_
      obtain ⟨n', -, hn'⟩ := expect_window hn w
      rw [classRest.eq_1]
      exact Fails.bind_ok (hn' e' _) fun _ => (hf _).bind
    dsimp only at h
    rcases error_of_bind h with h | ⟨ms, r3, h3, -, h⟩
    · -- the methods fail
      refine (ih n r1 h1 r2 h2 f h).after ((expect_suffix hb).trans hr1) fun e' ts' r2' w hf => ?_
      obtain ⟨r1', w₁, w₂⟩ := w.split hr1 (Nat.le_of_lt h2)
      obtain ⟨n', hns, hn'⟩ := expect_window hn w₁
      obtain ⟨_, -, hb'⟩ := expect_window hb w₂
      rw [classRest.eq_1]
      refine Fails.bind_ok (hn' e' _) fun _ => ?_
      dsimp only
      rw [← hns.2.2]
      exact Fails.bind_ok (hb' e' _) fun _ => hf.bind
    cases h
  case methodsNil =>
    -- the tokens end inside the class
    intro name acc f h
    rw [methods.eq_1] at h
    cases h
    refine Misfit.next rfl fun e' ts' s' w => ?_
    obtain ⟨rfl, -⟩ := w.nil_inv
    rw [methods.eq_1]
    exact Fails.error _
  case methodsClose =>
    intro name acc t tail hk f h
    simp [methods.eq_2, hk] at h
  case methodsFunc =>
    intro name acc t tail hk ihf ihm f h
    simp only [methods.eq_2, hk, if_false] at h
    rcases error_of_bind h with h | ⟨fn, r1, h1, hfn, h⟩
    · refine (ihf f h).mono fun e' ts' hs hf => ?_
      obtain ⟨t', tail', rfl, ht⟩ := Token.take_one_cons hs
      simp only [methods.eq_2, ← ht.1, hk, if_false]
      exact hf.bind
    · dsimp only at h
      rcases error_of_bind h with h | ⟨fs, r2, h2, -, h⟩
      · -- the further methods fail
        refine (ihm fn r1 h1 f h).after ((stmtProvenance e).functionRest _ _ _ hfn).1
          fun e' ts' r1' w hf => ?_
        obtain ⟨t', tail', rfl, ht⟩ := w.cons_head
        simp only [methods.eq_2, ← ht.1, hk, if_false]
        exact Fails.bind_ok ((stmtLookahead e).functionRest _ _ _ hfn e' _ r1' w) fun _ =>
          hf.bind
      · cases h
  case stmtNil =>
    intro f h
    rw [statement.eq_1] at h
    refine (exprStmt_misfit h).mono fun e' ts' hs hf => ?_
    obtain rfl := Token.take_one_nil hs
    rw [statement.eq_1]
    exact hf
  case stmtFor | stmtIf | stmtWhile =>
    intro t tail hk ih f h
    simp only [statement.eq_2, hk] at h
    refine (ih f (error_of_map h)).cons fun e' t' tail' ht hf => ?_
    simp only [statement.eq_2, ← ht.1, hk]
    exact hf.cons
  case stmtReturn =>
    intro t tail hk f h
    simp only [statement.eq_2, hk] at h
    refine (returnRest_misfit (error_of_map h)).cons fun e' t' tail' ht hf => ?_
    simp only [statement.eq_2, ← ht.1, hk]
    exact hf.cons
  case stmtPrint =>
    intro t tail hk f h
    simp only [statement.eq_2, hk] at h
    refine (printRest_misfit (error_of_map h)).cons fun e' t' tail' ht hf => ?_
    simp only [statement.eq_2, ← ht.1, hk]
    exact hf.cons
  case stmtBlock =>
    intro t tail hk ih f h
    simp only [statement.eq_2, hk] at h
    refine (ih f (error_of_map (error_of_map h))).cons fun e' t' tail' ht hf => ?_
    simp only [statement.eq_2, ← ht.1, hk]
    exact hf.map.cons
  case stmtOther =>
    intro t tail h1 h2 h3 h4 h5 h6 f h
    rw [statement.eq_2] at h
    split at h <;> try contradiction
    refine (exprStmt_misfit h).mono fun e' ts' hs hf => ?_
    obtain ⟨t', tail', rfl, ht⟩ := Token.take_one_cons hs
    rw [statement.eq_2, ← ht.1]
    -- the kind starts none of the keyword statements, and the read branches on it
    split <;> first | contradiction | exact hf
  case whileRest =>
    intro ts ih f h
    rw [whileRest.eq_1] at h
    rcases error_of_bind h with h | ⟨_, r1, h1, hl, h⟩
    · -- no opening parenthesis
      refine (expect_misfit h).mono fun e' ts' _ hf => ?_
      rw [whileRest.eq_1]
      exact (hf _).bind
    dsimp only at h
    have hr1 := expect_suffix hl
    rcases error_of_bind h with h | ⟨test, r2, h2, htest, h⟩
    · -- the condition fails
      refine ((exprMisfit e).expression _ f h).after hr1 fun e' ts' r1' w hf => ?_
      obtain ⟨_, -, hl'⟩ := expect_window hl w
      rw [whileRest.eq_1]
      exact Fails.bind_ok (hl' e' _) fun _ => hf.bind
    dsimp only at h
    have hr2 := ((exprProvenance e).expression _ _ _ htest).1
    rcases error_of_bind h with h | ⟨_, r3, h3, hr, h⟩
    · -- no closing parenthesis
      refine (expect_misfit h).after (hr2.trans hr1) fun e' ts' r2' w hf => ?_
      obtain ⟨r1', w₁, w₂⟩ := w.split hr1 (Nat.le_of_lt h2)
      obtain ⟨_, -, hl'⟩ := expect_window hl w₁
      rw [whileRest.eq_1]
      exact Fails.bind_ok (hl' e' _) fun _ =>
        Fails.bind_ok ((exprLookahead e).expression _ _ _ htest e' r1' r2' w₂) fun _ =>
        (hf _).bind
    dsimp only at h
    rcases error_of_bind h with h | ⟨body, r4, h4, -, h⟩
    · -- the body fails
      refine (ih r1 h1 r2 h2 r3 h3 f h).after (((expect_suffix hr).trans hr2).trans hr1)
        fun e' ts' r3' w hf => ?_
      obtain ⟨r1', w₁, w⟩ := w.split hr1 (by omega)
      obtain ⟨r2', w₂, w₃⟩ := w.split hr2 (Nat.le_of_lt h3)
      obtain ⟨_, -, hl'⟩ := expect_window hl w₁
      obtain ⟨_, -, hr'⟩ := expect_window hr w₃
      rw [whileRest.eq_1]
      exact Fails.bind_ok (hl' e' _) fun _ =>
        Fails.bind_ok ((exprLookahead e).expression _ _ _ htest e' r1' r2' w₂) fun _ =>
        Fails.bind_ok (hr' e' _) fun _ => hf.bind
    cases h
  case ifRest =>
    intro ts ihy ihn f h
    rw [ifRest.eq_1] at h
    rcases error_of_bind h with h | ⟨_, r1, h1, hl, h⟩
    · -- no opening parenthesis
      refine (expect_misfit h).mono fun e' ts' _ hf => ?_
      rw [ifRest.eq_1]
      exact (hf _).bind
    dsimp only at h
    have hr1 := expect_suffix hl
    rcases error_of_bind h with h | ⟨test, r2, h2, htest, h⟩
    · -- the condition fails
      refine ((exprMisfit e).expression _ f h).after hr1 fun e' ts' r1' w hf => ?_
      obtain ⟨_, -, hl'⟩ := expect_window hl w
      rw [ifRest.eq_1]
      exact Fails.bind_ok (hl' e' _) fun _ => hf.bind
    dsimp only at h
    have hr2 := ((exprProvenance e).expression _ _ _ htest).1
    rcases error_of_bind h with h | ⟨_, r3, h3, hr, h⟩
    · -- no closing parenthesis
      refine (expect_misfit h).after (hr2.trans hr1) fun e' ts' r2' w hf => ?_
      obtain ⟨r1', w₁, w₂⟩ := w.split hr1 (Nat.le_of_lt h2)
      obtain ⟨_, -, hl'⟩ := expect_window hl w₁
      rw [ifRest.eq_1]
      exact Fails.bind_ok (hl' e' _) fun _ =>
        Fails.bind_ok ((exprLookahead e).expression _ _ _ htest e' r1' r2' w₂) fun _ =>
        (hf _).bind
    dsimp only at h
    have hr3 := expect_suffix hr
    rcases error_of_bind h with h | ⟨yes, r4, h4, hyes, h⟩
    · -- the first branch fails
      refine (ihy r1 h1 r2 h2 r3 h3 f h).after ((hr3.trans hr2).trans hr1)
        fun e' ts' r3' w hf => ?_
      obtain ⟨r1', w₁, w⟩ := w.split hr1 (by omega)
      obtain ⟨r2', w₂, w₃⟩ := w.split hr2 (Nat.le_of_lt h3)
      obtain ⟨_, -, hl'⟩ := expect_window hl w₁
      obtain ⟨_, -, hr'⟩ := expect_window hr w₃
      rw [ifRest.eq_1]
      exact Fails.bind_ok (hl' e' _) fun _ =>
        Fails.bind_ok ((exprLookahead e).expression _ _ _ htest e' r1' r2' w₂) fun _ =>
        Fails.bind_ok (hr' e' _) fun _ => hf.bind
    dsimp only at h
    split at h
    · -- the second branch, after `else`, fails
      rename_i r5 h5 ha
      rcases error_of_bind h with h | ⟨no, r6, h6, -, h⟩
      · have hr4 := ((stmtProvenance e).statement _ _ _ hyes).1
        refine (ihn r1 h1 r2 h2 r3 h3 r4 h4 r5 h5 f h).after
          ((((accept_suffix ha).trans hr4).trans hr3).trans (hr2.trans hr1))
          fun e' ts' r5' w hf => ?_
        dsimp only at w
        obtain ⟨r1', w₁, w⟩ := w.split hr1 (by omega)
        obtain ⟨r2', w₂, w⟩ := w.split hr2 (by omega)
        obtain ⟨r3', w₃, w⟩ := w.split hr3 (by omega)
        obtain ⟨r4', w₄, w₅⟩ := w.split hr4 (Nat.le_of_lt h5)
        obtain ⟨_, -, hl'⟩ := expect_window hl w₁
        obtain ⟨_, -, hr'⟩ := expect_window hr w₃
        obtain ⟨_, r5'', -, w₆, _, ha'⟩ := accept_window ha w₅ (Nat.le_refl _)
        obtain rfl := w₆.eq_of_self
        rw [ifRest.eq_1]
        refine Fails.bind_ok (hl' e' _) fun _ =>
          Fails.bind_ok ((exprLookahead e).expression _ _ _ htest e' r1' r2' w₂) fun _ =>
          Fails.bind_ok (hr' e' _) fun _ =>
          Fails.bind_ok ((stmtLookahead e).statement _ _ _ hyes e' r3' r4' w₄) fun _ => ?_
        dsimp only
        rw [ha']
        exact hf.bind
      · cases h
    · cases h
  case forRest =>
    intro ts ih f h
    rw [forRest.eq_1] at h
    rcases error_of_bind h with h | ⟨_, r1, h1, hl, h⟩
    · -- no opening parenthesis
      refine (expect_misfit h).mono fun e' ts' _ hf => ?_
      rw [forRest.eq_1]
      exact (hf _).bind
    dsimp only at h
    have hr1 := expect_suffix hl
    rcases error_of_bind h with h | ⟨init, r2, h2, hinit, h⟩
    · -- the initializer fails
      refine (forInit_misfit h).after hr1 fun e' ts' r1' w hf => ?_
      obtain ⟨_, -, hl'⟩ := expect_window hl w
      rw [forRest.eq_1]
      exact Fails.bind_ok (hl' e' _) fun _ => hf.bind
    dsimp only at h
    have hr2 := (forInit_literals hinit).1
    rcases error_of_bind h with h | ⟨test, r3, h3, htest, h⟩
    · -- the condition fails
      refine (exprUnless_misfit h).after (hr2.trans hr1) fun e' ts' r2' w hf => ?_
      obtain ⟨r1', w₁, w₂⟩ := w.split hr1 (Nat.le_of_lt h2)
      obtain ⟨_, -, hl'⟩ := expect_window hl w₁
      rw [forRest.eq_1]
      exact Fails.bind_ok (hl' e' _) fun _ =>
        Fails.bind_ok (forInit_window hinit e' r1' r2' w₂) fun _ => hf.bind
    dsimp only at h
    have hr3 := (exprUnless_literals htest).1
    rcases error_of_bind h with h | ⟨_, r4, h4, hsc, h⟩
    · -- no semicolon after the condition
      refine (expect_misfit h).after ((hr3.trans hr2).trans hr1) fun e' ts' r3' w hf => ?_
      obtain ⟨r1', w₁, w⟩ := w.split hr1 (by omega)
      obtain ⟨r2', w₂, w₃⟩ := w.split hr2 (h3)
      obtain ⟨_, -, hl'⟩ := expect_window hl w₁
      rw [forRest.eq_1]
      exact Fails.bind_ok (hl' e' _) fun _ =>
        Fails.bind_ok (forInit_window hinit e' r1' r2' w₂) fun _ =>
        Fails.bind_ok (exprUnless_window htest e' r2' r3' w₃) fun _ => (hf _).bind
    dsimp only at h
    have hr4 := expect_suffix hsc
    rcases error_of_bind h with h | ⟨update, r5, h5, hupdate, h⟩
    · -- the update fails
      refine (exprUnless_misfit h).after (((hr4.trans hr3).trans hr2).trans hr1)
        fun e' ts' r4' w hf => ?_
      obtain ⟨r1', w₁, w⟩ := w.split hr1 (by omega)
      obtain ⟨r2', w₂, w⟩ := w.split hr2 (by omega)
      obtain ⟨r3', w₃, w₄⟩ := w.split hr3 (Nat.le_of_lt h4)
      obtain ⟨_, -, hl'⟩ := expect_window hl w₁
      obtain ⟨_, -, hsc'⟩ := expect_window hsc w₄
      rw [forRest.eq_1]
      exact Fails.bind_ok (hl' e' _) fun _ =>
        Fails.bind_ok (forInit_window hinit e' r1' r2' w₂) fun _ =>
        Fails.bind_ok (exprUnless_window htest e' r2' r3' w₃) fun _ =>
        Fails.bind_ok (hsc' e' _) fun _ => hf.bind
    dsimp only at h
    have hr5 := (exprUnless_literals hupdate).1
    rcases error_of_bind h with h | ⟨_, r6, h6, hr, h⟩
    · -- no closing parenthesis
      refine (expect_misfit h).after ((((hr5.trans hr4).trans hr3).trans hr2).trans hr1)
        fun e' ts' r5' w hf => ?_
      obtain ⟨r1', w₁, w⟩ := w.split hr1 (by omega)
      obtain ⟨r2', w₂, w⟩ := w.split hr2 (by omega)
      obtain ⟨r3', w₃, w⟩ := w.split hr3 (by omega)
      obtain ⟨r4', w₄, w₅⟩ := w.split hr4 (h5)
      obtain ⟨_, -, hl'⟩ := expect_window hl w₁
      obtain ⟨_, -, hsc'⟩ := expect_window hsc w₄
      rw [forRest.eq_1]
      exact Fails.bind_ok (hl' e' _) fun _ =>
        Fails.bind_ok (forInit_window hinit e' r1' r2' w₂) fun _ =>
        Fails.bind_ok (exprUnless_window htest e' r2' r3' w₃) fun _ =>
        Fails.bind_ok (hsc' e' _) fun _ =>
        Fails.bind_ok (exprUnless_window hupdate e' r4' r5' w₅) fun _ => (hf _).bind
    dsimp only at h
    have hr6 := expect_suffix hr
    rcases error_of_bind h with h | ⟨body, r7, h7, -, h⟩
    · -- the body fails
      refine (ih r1 h1 r2 h2 r3 h3 r4 h4 r5 h5 r6 h6 f h).after
        (((((hr6.trans hr5).trans hr4).trans hr3).trans hr2).trans hr1) fun e' ts' r6' w hf => ?_
      obtain ⟨r1', w₁, w⟩ := w.split hr1 (by omega)
      obtain ⟨r2', w₂, w⟩ := w.split hr2 (by omega)
      obtain ⟨r3', w₃, w⟩ := w.split hr3 (by omega)
      obtain ⟨r4', w₄, w⟩ := w.split hr4 (by omega)
      obtain ⟨r5', w₅, w₆⟩ := w.split hr5 (Nat.le_of_lt h6)
      obtain ⟨_, -, hl'⟩ := expect_window hl w₁
      obtain ⟨_, -, hsc'⟩ := expect_window hsc w₄
      obtain ⟨_, -, hr'⟩ := expect_window hr w₆
      rw [forRest.eq_1]
      exact Fails.bind_ok (hl' e' _) fun _ =>
        Fails.bind_ok (forInit_window hinit e' r1' r2' w₂) fun _ =>
        Fails.bind_ok (exprUnless_window htest e' r2' r3' w₃) fun _ =>
        Fails.bind_ok (hsc' e' _) fun _ =>
        Fails.bind_ok (exprUnless_window hupdate e' r4' r5' w₅) fun _ =>
        Fails.bind_ok (hr' e' _) fun _ => hf.bind
    cases h

end Statements

theorem declarations_misfit :
    ∀ {acc : Array Stmt} {ts : List Token} {f : Fault}, declarations e acc ts = .error f →
      Misfit e f ts fun e' ts' => Fails (declarations e' acc ts') := by
  intro acc ts
  induction acc, ts using declarations.induct with
  | case1 acc =>
    intro f h
    rw [declarations.eq_1] at h
    cases h
  | case2 acc t tail ih =>
    intro f h
    rw [declarations.eq_2] at h
    rcases error_of_bind h with h | ⟨s, r1, h1, hd, h⟩
    · -- the next declaration fails
      refine ((stmtMisfit e).declaration _ f h).mono fun e' ts' hs hf => ?_
      obtain ⟨t', tail', rfl, -⟩ := Token.take_one_cons hs
      rw [declarations.eq_2]
      exact hf.bind
    · -- a later one does
      refine (ih s ⟨r1, h1⟩ h).after ((stmtProvenance e).declaration _ _ _ hd).1
        fun e' ts' r1' w hf => ?_
      obtain ⟨t', tail', rfl, -⟩ := w.cons_head
      rw [declarations.eq_2]
      exact Fails.bind_ok ((stmtLookahead e).declaration _ _ _ hd e' _ r1' w) fun _ => hf

end Syntax

/-! ### Programs -/

/-- Tokens like tokens that are not end tokens are not end tokens. -/
theorem Token.forall₂_ne_eof {ts ts' : List Token} (h : List.Forall₂ Token.Similar ts ts')
    (hne : ∀ x ∈ ts, x.kind ≠ .eof) : ∀ x ∈ ts', x.kind ≠ .eof := by
  induction h with
  | nil => simp
  | cons ht _ ih =>
    intro x hx
    rcases List.mem_cons.1 hx with rfl | hx
    · rw [← ht.1]
      exact hne _ List.mem_cons_self
    · exact ih (fun y hy => hne y (List.mem_cons_of_mem _ hy)) x hx

/-- A program read from tokens is the declarations before their first end token. -/
theorem Program.ofTokens_ok {ts : List Token} {p : Program} (h : Program.ofTokens? ts = .ok p) :
    ∃ e, Syntax.declarations e #[] (ts.takeWhile (·.kind ≠ .eof)) = .ok p.body := by
  unfold Program.ofTokens? at h
  split at h
  · split at h
    · obtain ⟨ss, hss, rfl⟩ := Syntax.ok_of_map_eq_ok h
      exact ⟨_, hss⟩
    · cases h
  · cases h

/-- Tokens that agree with `pre ++ r` on its first `pre.length + 1` tokens: tokens like `pre`,
then tokens whose first is like the first of `r`. -/
theorem Token.forall₂_take_succ {pre r ts' : List Token}
    (h : List.Forall₂ Token.Similar ((pre ++ r).take (pre.length + 1))
      (ts'.take (pre.length + 1))) :
    List.Forall₂ Token.Similar pre (ts'.take pre.length) ∧
      List.Forall₂ Token.Similar (r.take 1) ((ts'.drop pre.length).take 1) := by
  constructor
  · simpa [List.take_take] using List.forall₂_take pre.length h
  · simpa [List.drop_take] using List.forall₂_drop pre.length h

/-- Tokens that start like tokens that are not end tokens keep those before their first end
token. -/
theorem Token.takeWhile_of_forall₂ {pre ts' : List Token}
    (h : List.Forall₂ Token.Similar pre (ts'.take pre.length)) (hne : ∀ x ∈ pre, x.kind ≠ .eof) :
    ts'.takeWhile (·.kind ≠ .eof) =
      ts'.take pre.length ++ (ts'.drop pre.length).takeWhile (·.kind ≠ .eof) := by
  conv_lhs => rw [← List.take_append_drop pre.length ts']
  refine List.takeWhile_append_of_pos fun x hx => ?_
  simpa using Token.forall₂_ne_eof h hne x hx

/-- Tokens whose first is like the first of `s` followed by an end token: before their own
first end token they start like `s`, or are empty when `s` is. -/
theorem Token.take_one_takeWhile {s u : List Token} {E : Token} (hE : E.kind = .eof)
    (hne : ∀ x ∈ s, x.kind ≠ .eof) (h : List.Forall₂ Token.Similar ((s ++ [E]).take 1) (u.take 1)) :
    List.Forall₂ Token.Similar (s.take 1) ((u.takeWhile (·.kind ≠ .eof)).take 1) := by
  cases s with
  | nil =>
    obtain ⟨E', u, rfl, hE'⟩ := Token.take_one_cons h
    rw [List.takeWhile_cons_of_neg (by simpa [← hE'.1] using hE)]
    exact .nil
  | cons t s =>
    obtain ⟨t', u, rfl, ht⟩ := Token.take_one_cons h
    have ht' : t'.kind ≠ .eof := ht.1 ▸ hne t List.mem_cons_self
    rw [List.takeWhile_cons_of_pos (by simpa using ht')]
    exact .cons ht .nil

/-- A fault in reading the tokens before an end token names one of them or the end token,
and no program starts with tokens like those up to the one it names. -/
theorem Program.ofTokens_misfit {toks : List Token} {E : Token} {f : Syntax.Fault}
    (hE : E.kind = .eof) (hne : ∀ x ∈ toks, x.kind ≠ .eof)
    (h : Program.ofTokens? (toks ++ [E]) = .error f) :
    ∃ k, ∃ hk : k < (toks ++ [E]).length, f.pos? = some ((toks ++ [E]).get ⟨k, hk⟩).pos ∧
      ∀ ts', List.Forall₂ Token.Similar ((toks ++ [E]).take (k + 1)) (ts'.take (k + 1)) →
        ∀ p, Program.ofTokens? ts' ≠ .ok p := by
  rw [Program.ofTokens_split hE hne] at h
  obtain ⟨s, ⟨pre, rfl⟩, hpos, hfit⟩ := Syntax.declarations_misfit (Syntax.error_of_map h)
  refine ⟨pre.length, by simp, ?_, fun ts' hs p hp => ?_⟩
  · -- the fault names the first token of `s`, or the end token
    rw [hpos]
    cases s <;> simp [Syntax.here]
  rw [List.append_assoc] at hs
  obtain ⟨hpre, hnext⟩ := Token.forall₂_take_succ hs
  -- the tokens of `ts'` before its first end token are in the window of the fault
  have w := Syntax.Window.of_forall₂ hpre
    (Token.take_one_takeWhile hE (fun x hx => hne x (List.mem_append_right _ hx)) hnext)
  rw [← Token.takeWhile_of_forall₂ hpre (fun x hx => hne x (List.mem_append_left _ hx))] at w
  obtain ⟨e, hd⟩ := Program.ofTokens_ok hp
  obtain ⟨f', hf'⟩ := hfit e _ _ w
  rw [hf'] at hd
  cases hd

/-- A parsing fault of a text that scans is the fault of reading its tokens. -/
theorem Program.ofSource_parse_error {s : Text} {ts : List Token} {f : Syntax.Fault}
    (hs : Token.scan s = .ok ts) (h : Program.ofSource? s = .error (.parse f)) :
    Program.ofTokens? ts = .error f := by
  unfold Program.ofSource? at h
  split at h
  · cases h
  · rename_i ts' hts
    rw [hs] at hts
    cases hts
    split at h
    · rename_i f' hf
      cases h
      exact hf
    · cases h

/-- A fault in reading program text names one of its tokens, and no program starts with tokens
like its own up to the one named: the reader never reports a fault before the first token
that fits no program. -/
theorem Program.fault_token_fits_no_program {src : Text} {ts : List Token} {f : Syntax.Fault}
    (hs : Token.scan src = .ok ts) (h : Program.ofSource? src = .error (.parse f)) :
    ∃ k, ∃ hk : k < ts.length, f.pos? = some (ts.get ⟨k, hk⟩).pos ∧
      ∀ ts', List.Forall₂ Token.Similar (ts.take (k + 1)) (ts'.take (k + 1)) →
        ∀ p, Program.ofTokens? ts' ≠ .ok p := by
  have hp := Program.ofSource_parse_error hs h
  obtain ⟨toks, q, rfl, hne⟩ := Token.scan_shape hs
  exact Program.ofTokens_misfit rfl hne hp

/-- The tokens of `1 = ;`. -/
theorem scan_value_missing :
    Token.scan (Text.ofString "1 = ;") =
      .ok [⟨.integer, .text (Text.ofString "1"), .int 1, ⟨1, 1⟩⟩,
          ⟨.assign, .text (Text.ofString "="), .null, ⟨1, 3⟩⟩,
          ⟨.semicolon, .text (Text.ofString ";"), .null, ⟨1, 5⟩⟩,
          ⟨.eof, .text (Text.ofString "eof"), .null, ⟨1, 6⟩⟩] := by
  decide +kernel

/-- `1 = ;` is refused at its `;`, where the value should start. -/
theorem value_missing_refused :
    Program.ofSource? (Text.ofString "1 = ;") =
      .error (.parse (.unexpected (.text (Text.ofString ";")) ⟨1, 5⟩)) := by
  have ht : Program.ofTokens? [⟨.integer, .text (Text.ofString "1"), .int 1, ⟨1, 1⟩⟩,
        ⟨.assign, .text (Text.ofString "="), .null, ⟨1, 3⟩⟩,
        ⟨.semicolon, .text (Text.ofString ";"), .null, ⟨1, 5⟩⟩,
        ⟨.eof, .text (Text.ofString "eof"), .null, ⟨1, 6⟩⟩] =
      .error (.unexpected (.text (Text.ofString ";")) ⟨1, 5⟩) := by
    cbv
  unfold Program.ofSource?
  rw [scan_value_missing]
  dsimp only
  rw [ht]

/-- `1 = ;` is refused at its `;`, and no program starts with tokens like its own up to the
token at that place. -/
theorem assignment_value_fault_fits_no_program :
    ∃ ts, Token.scan (Text.ofString "1 = ;") = .ok ts ∧
      Program.ofSource? (Text.ofString "1 = ;") =
        .error (.parse (.unexpected (.text (Text.ofString ";")) ⟨1, 5⟩)) ∧
      ∃ k, ∃ hk : k < ts.length, some ⟨1, 5⟩ = some (ts.get ⟨k, hk⟩).pos ∧
        ∀ ts', List.Forall₂ Token.Similar (ts.take (k + 1)) (ts'.take (k + 1)) →
          ∀ p, Program.ofTokens? ts' ≠ .ok p :=
  ⟨_, scan_value_missing, value_missing_refused,
    Program.fault_token_fits_no_program scan_value_missing value_missing_refused⟩

/-- `1 = ;` is refused at its third token, the `;`, although no program starts with tokens like
its first two, `1 =`: the target of an assignment is checked only once its value is read. -/
theorem assignment_target_fault_reported_late :
    ∃ ts, Token.scan (Text.ofString "1 = ;") = .ok ts ∧
      ts.map (·.pos) = [⟨1, 1⟩, ⟨1, 3⟩, ⟨1, 5⟩, ⟨1, 6⟩] ∧
      Program.ofSource? (Text.ofString "1 = ;") =
        .error (.parse (.unexpected (.text (Text.ofString ";")) ⟨1, 5⟩)) ∧
      ∀ ts', List.Forall₂ Token.Similar (ts.take 2) (ts'.take 2) →
        ∀ p, Program.ofTokens? ts' ≠ .ok p := by
  -- `1 = 2;` is refused at its `=`, so no program starts with its first two tokens
  have h₂ : Program.ofTokens? ([⟨.integer, .text (Text.ofString "1"), .int 1, ⟨1, 1⟩⟩,
        ⟨.assign, .text (Text.ofString "="), .null, ⟨1, 3⟩⟩,
        ⟨.integer, .text (Text.ofString "2"), .int 2, ⟨1, 5⟩⟩,
        ⟨.semicolon, .text (Text.ofString ";"), .null, ⟨1, 6⟩⟩] ++
        [⟨.eof, .text (Text.ofString "eof"), .null, ⟨1, 7⟩⟩]) =
      .error (.badTarget ⟨1, 3⟩) := by
    cbv
  obtain ⟨k, hk, hpos, hfit⟩ := Program.ofTokens_misfit rfl (by simp) h₂
  have hk1 : k = 1 := by
    simp only [List.length_append, List.length_cons, List.length_nil] at hk
    -- the `=` is the only one of these tokens at 1:3
    rcases k with _ | _ | _ | _ | _ | k
    all_goals first | rfl | omega | cases hpos
  subst hk1
  exact ⟨_, scan_value_missing, rfl, value_missing_refused, hfit⟩

end Ember
