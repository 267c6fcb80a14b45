import Ember.Run
/-!
Where a returned value comes from, and where it goes.

A statement completes normally or with a value returned from the enclosing function
(`Completion.returned`). Values, bindings and fields are `Value`s, which have no variant for a
returned value, a fault or the absence of a value, so a returned value can only travel as a
completion: a `return` statement makes it, blocks, conditionals, loops and lists of statements
pass it on unchanged, and the call that ran the body turns it into its value once, or the run
of the program into its outcome at top level.

Main statements:
* `returnedFrom_of_stmt`: a statement that completes with a returned value `v` encloses, through
  blocks, conditionals and loops only (`Stmt.Encloses`), a `return` whose value was computed as
  `v`, and its run ends in the machine in which that computation ended: nothing after the
  `return` ran (`ReturnedFrom`).
* `return_ends_call_and_program`: so a call whose body returned gives exactly the value of a
  `return` in its body and ends where that `return` ended; and a top-level statement that
  returns ends the program with that value, whatever statements follow it.
-/

namespace Ember

/-- `s` encloses `t` through blocks, conditionals and loops: the statements in which a `return`
ends a run of `s`. Function and class declarations are not among them. -/
inductive Stmt.Encloses : Stmt → Stmt → Prop
  | refl (s : Stmt) : Stmt.Encloses s s
  | block {ss : List Stmt} {s t : Stmt} (hs : s ∈ ss) (h : s.Encloses t) :
    (Stmt.block ss).Encloses t
  | ifYes {c : Expr} {yes t : Stmt} {no : Option Stmt} (h : yes.Encloses t) :
    (Stmt.ifElse c yes no).Encloses t
  | ifNo {c : Expr} {yes s t : Stmt} (h : s.Encloses t) : (Stmt.ifElse c yes (some s)).Encloses t
  | loop {c : Expr} {body t : Stmt} (h : body.Encloses t) : (Stmt.whileLoop c body).Encloses t

namespace Eval

/-- The value a `return` statement gives: that of its expression, or nil. -/
def returnValue (n env : Nat) : Option Expr → Eval Value
  | some e => expr n env e
  | none => pure .nil

/-- A `return` enclosed in `s` computed the value `v` in a run that ended in `m'`. -/
def ReturnedFrom (s : Stmt) (v : Value) (m' : Machine) : Prop :=
  ∃ e n env m, s.Encloses (.ret e) ∧ (returnValue n env e).run m = .ok v m'

theorem ReturnedFrom.lift {s s' : Stmt} {v : Value} {m' : Machine} (h : ReturnedFrom s v m')
    (hs : ∀ t, s.Encloses t → s'.Encloses t) : ReturnedFrom s' v m' := by
  obtain ⟨e, n, env, m, he, hv⟩ := h
  exact ⟨e, n, env, m, hs _ he, hv⟩

/-! ### Runs of computations that end normally -/

theorem run_bind_ok {α β : Type} {x : Eval α} {f : α → Eval β} {m m' : Machine} {b : β}
    (h : (x >>= f).run m = .ok b m') :
    ∃ a m₁, x.run m = .ok a m₁ ∧ (f a).run m₁ = .ok b m' := by
  rw [EStateM.run_bind] at h
  cases hx : x.run m with
  | ok a m₁ =>
    rw [hx] at h
    exact ⟨a, m₁, rfl, h⟩
  | error e m₁ =>
    rw [hx] at h
    cases h

theorem run_pure_ok {α : Type} {a b : α} {m m' : Machine}
    (h : (pure a : Eval α).run m = .ok b m') :
    a = b ∧ m = m' := by
  cases h
  exact ⟨rfl, rfl⟩

theorem run_fail_ok {α : Type} {f : Fault} {m m' : Machine} {b : α} :
    (fail f : Eval α).run m ≠ .ok b m' := by
  intro h
  cases h

/-- A run that first computes something and then completes normally did not return. -/
theorem not_returned_of_normal {α : Type} {x : Eval α} {c : α → Option Value} {m m' : Machine}
    {v : Value} :
    (x >>= fun a => pure (Completion.normal (c a))).run m ≠ .ok (Completion.returned v) m' := by
  intro h
  obtain ⟨a, m₁, -, h⟩ := run_bind_ok h
  cases (run_pure_ok h).1

theorem run_tryCatch_ok {α : Type} {x : Eval α} {handler : Stop → Eval α} {m m' : Machine}
    {a : α} (h : x.run m = .ok a m') : (tryCatch x handler).run m = .ok a m' := by
  show EStateM.tryCatch x handler m = .ok a m'
  -- unfolded without an equation lemma, which a module of its own would have to make
  delta EStateM.tryCatch
  simp only [show x m = .ok a m' from h]

theorem run_map_ok {α β : Type} {x : Eval α} {f : α → β} {m m' : Machine} {a : α}
    (h : x.run m = .ok a m') : (f <$> x).run m = .ok (f a) m' := by
  simp only [Functor.map, EStateM.map, EStateM.run] at h ⊢
  rw [h]

/-- A computation whose value is then returned ran to that value. -/
theorem run_of_returned {x : Eval Value} {m m' : Machine} {v : Value}
    (h : (x >>= fun a => pure (Completion.returned a)).run m = .ok (.returned v) m') :
    x.run m = .ok v m' := by
  obtain ⟨a, m₁, ha, h⟩ := run_bind_ok h
  obtain ⟨h1, rfl⟩ := run_pure_ok h
  cases h1
  exact ha

/-! ### What a returned completion comes from -/

/-- A statement completes with a returned value only as a `return`, a block, a conditional or
a loop: with the value of the `return`, or as the block's statements, the branch taken or the
loop did. -/
theorem stmt_returned {n env : Nat} {s : Stmt} {m m' : Machine} {v : Value}
    (h : (stmt (n + 1) env s).run m = .ok (.returned v) m') :
    (∃ e, s = .ret e ∧ (returnValue n env e).run m = .ok v m') ∨
    (∃ ss scope m₁, s = .block ss ∧ (block n scope ss).run m₁ = .ok (.returned v) m') ∨
    (∃ c yes no m₁, s = .ifElse c yes no ∧
      ((stmt n env yes).run m₁ = .ok (.returned v) m' ∨
        ∃ t, no = some t ∧ (stmt n env t).run m₁ = .ok (.returned v) m')) ∨
    (∃ c body, s = .whileLoop c body ∧
      (loop n env c body none loopLimit).run m = .ok (.returned v) m') := by
  cases s with
  | ret e =>
    refine .inl ⟨e, rfl, ?_⟩
    cases e with
    | some e =>
      simp only [stmt] at h
      exact run_of_returned h
    | none =>
      simp only [stmt] at h
      exact run_of_returned h
  | block ss =>
    simp only [stmt] at h
    obtain ⟨scope, m₁, -, h⟩ := run_bind_ok h
    exact .inr (.inl ⟨ss, scope, m₁, rfl, h⟩)
  | ifElse c yes no =>
    cases no with
    | none =>
      simp only [stmt] at h
      obtain ⟨b, m₁, -, h⟩ := run_bind_ok h
      obtain ⟨_, m₂, -, h⟩ := run_bind_ok h
      cases b
      · cases (run_pure_ok h).1
      · exact .inr (.inr (.inl ⟨c, yes, none, m₂, rfl, .inl h⟩))
    | some t =>
      simp only [stmt] at h
      obtain ⟨b, m₁, -, h⟩ := run_bind_ok h
      obtain ⟨_, m₂, -, h⟩ := run_bind_ok h
      cases b
      · exact .inr (.inr (.inl ⟨c, yes, some t, m₂, rfl, .inr ⟨t, rfl, h⟩⟩))
      · exact .inr (.inr (.inl ⟨c, yes, some t, m₂, rfl, .inl h⟩))
  | whileLoop c body =>
    simp only [stmt] at h
    exact .inr (.inr (.inr ⟨c, body, rfl, h⟩))
  | letDecl x init =>
    -- the value is bound, the binding noted, and the declaration completes normally
    cases init <;> simp only [stmt] at h <;> obtain ⟨a, m₁, -, h⟩ := run_bind_ok h <;>
      obtain ⟨_, m₂, -, h⟩ := run_bind_ok h <;>
      exact absurd h not_returned_of_normal
  | expr e => simp only [stmt] at h; exact absurd h not_returned_of_normal
  | funDecl f => simp only [stmt] at h; exact absurd h not_returned_of_normal
  | classDecl x ms => simp only [stmt] at h; exact absurd h not_returned_of_normal
  | print args => simp only [stmt] at h; exact absurd h not_returned_of_normal

/-- A list of statements returns only as one of its statements does, and ends where that one
ended: the statements after it do not run. -/
theorem stmts_returned {n env : Nat} {v : Value} {m' : Machine} :
    ∀ {ss : List Stmt} {last : Option Value} {m : Machine},
      (stmts n env last ss).run m = .ok (.returned v) m' →
        ∃ s ∈ ss, ∃ m₁, (stmt n env s).run m₁ = .ok (.returned v) m'
  | [], last, m, h => by
    simp only [stmts] at h
    cases (run_pure_ok h).1
  | s :: ss, last, m, h => by
    simp only [stmts] at h
    obtain ⟨c, m₁, hs, h⟩ := run_bind_ok h
    cases c with
    | returned w =>
      obtain ⟨h1, rfl⟩ := run_pure_ok h
      cases h1
      exact ⟨s, List.mem_cons_self, m, hs⟩
    | normal o =>
      obtain ⟨t, ht, m₂, h⟩ := stmts_returned h
      exact ⟨t, List.mem_cons_of_mem s ht, m₂, h⟩

/-- A loop returns only as a run of its body does, and ends where that run ended. -/
theorem loop_returned {n env : Nat} {c : Expr} {body : Stmt} {v : Value} {m' : Machine} :
    ∀ {k : Nat} {last : Option Value} {m : Machine},
      (loop n env c body last k).run m = .ok (.returned v) m' →
        ∃ m₁, (stmt n env body).run m₁ = .ok (.returned v) m'
  | 0, last, m, h => by
    simp only [loop] at h
    exact absurd h run_fail_ok
  | k + 1, last, m, h => by
    simp only [loop] at h
    obtain ⟨b, m₁, -, h⟩ := run_bind_ok h
    cases b
    · cases (run_pure_ok h).1
    · obtain ⟨cpl, m₂, hb, h⟩ := run_bind_ok h
      cases cpl with
      | returned w =>
        obtain ⟨h1, rfl⟩ := run_pure_ok h
        cases h1
        exact ⟨m₁, hb⟩
      | normal o => exact loop_returned h

theorem block_returned {n env : Nat} {ss : List Stmt} {m m' : Machine} {v : Value}
    (h : (block n env ss).run m = .ok (.returned v) m') :
    ∃ k, n = k + 1 ∧ (stmts k env none ss).run m = .ok (.returned v) m' := by
  cases n with
  | zero =>
    simp only [block] at h
    exact absurd h run_fail_ok
  | succ k =>
    simp only [block] at h
    exact ⟨k, rfl, h⟩

/-- A statement that completes with a returned value encloses, through blocks, conditionals
and loops, a `return` that computed that value, and its run ends where that computation
ended. The induction is on the frames left, which every nested statement has fewer of. -/
theorem returnedFrom_of_stmt : ∀ (n env : Nat) (s : Stmt) (m m' : Machine) (v : Value),
    (stmt n env s).run m = .ok (.returned v) m' → ReturnedFrom s v m' := by
  intro n
  induction n using Nat.strongRecOn with
  | ind n ih =>
  intro env s m m' v h
  cases n with
  | zero =>
    simp only [stmt] at h
    exact absurd h run_fail_ok
  | succ n =>
    rcases stmt_returned h with ⟨e, rfl, hv⟩ | ⟨ss, scope, m₁, rfl, hb⟩ |
      ⟨c, yes, no, m₁, rfl, hy | ⟨t, rfl, ht⟩⟩ | ⟨c, body, rfl, hl⟩
    · exact ⟨e, n, env, m, .refl _, hv⟩
    · -- one statement of the block returned, with a frame less
      obtain ⟨k, rfl, hs⟩ := block_returned hb
      obtain ⟨s, hs, m₂, hr⟩ := stmts_returned hs
      exact (ih k (by omega) scope s m₂ m' v hr).lift fun t ht => .block hs ht
    · exact (ih n (by omega) env yes m₁ m' v hy).lift fun u hu => .ifYes hu
    · exact (ih n (by omega) env t m₁ m' v ht).lift fun u hu => .ifNo hu
    · obtain ⟨m₂, hr⟩ := loop_returned hl
      exact (ih n (by omega) env body m₂ m' v hr).lift fun u hu => .loop hu

/-! ### Where a returned completion goes -/

/-- A statement that returns ends the list of statements it stands in with its value, where it
ended: the statements after it do not run. -/
theorem stmts_append_returned {n env : Nat} {s : Stmt} {post : List Stmt} {v : Value}
    {m₁ m' : Machine} (hs : (stmt n env s).run m₁ = .ok (.returned v) m') :
    ∀ {pre : List Stmt} {last o : Option Value} {m : Machine},
      (stmts n env last pre).run m = .ok (.normal o) m₁ →
        (stmts n env last (pre ++ s :: post)).run m = .ok (.returned v) m'
  | [], last, o, m, h => by
    simp only [stmts] at h
    obtain ⟨-, rfl⟩ := run_pure_ok h
    simp only [List.nil_append, stmts]
    rw [EStateM.run_bind, hs]
    rfl
  | t :: pre, last, o, m, h => by
    simp only [stmts] at h
    obtain ⟨c, m₂, ht, h⟩ := run_bind_ok h
    cases c with
    | returned w => cases (run_pure_ok h).1
    | normal o' =>
      simp only [List.cons_append, stmts]
      rw [EStateM.run_bind, ht]
      exact stmts_append_returned hs h

/-- A call ends where its body ended. If the body returned, the call gives the returned value
itself, and a `return` in the body computed it. Otherwise the call gives the value of the
body's last statement, or nil if it has none. -/
theorem call_value {n env : Nat} {cl : Closure} {args : List Expr} {m m' : Machine} {w : Value}
    (h : (call n cl args env).run m = .ok w m') :
    ∃ k scope m₁,
      ((stmt k scope (.block cl.decl.body)).run m₁ = .ok (.returned w) m' ∧
        ReturnedFrom (.block cl.decl.body) w m') ∨
      ∃ o, (stmt k scope (.block cl.decl.body)).run m₁ = .ok (.normal o) m' ∧
        w = o.getD .nil := by
  cases n with
  | zero =>
    simp only [call] at h
    exact absurd h run_fail_ok
  | succ n =>
    simp only [call] at h
    split at h
    · exact absurd h run_fail_ok
    · -- the arguments, the new scope, the parameters and the trace event come first
      obtain ⟨_, _, -, h⟩ := run_bind_ok h
      obtain ⟨scope, _, -, h⟩ := run_bind_ok h
      obtain ⟨_, _, -, h⟩ := run_bind_ok h
      obtain ⟨_, m₁, -, h⟩ := run_bind_ok h
      obtain ⟨c, m₂, hb, h⟩ := run_bind_ok h
      refine ⟨n, scope, m₁, ?_⟩
      -- the body's completion is unwrapped once, and nothing runs after it
      cases c with
      | returned v =>
        obtain ⟨rfl, rfl⟩ := run_pure_ok h
        exact .inl ⟨hb, returnedFrom_of_stmt n scope _ m₁ m₂ v hb⟩
      | normal o =>
        cases o with
        | some v =>
          obtain ⟨rfl, rfl⟩ := run_pure_ok h
          exact .inr ⟨some v, hb, rfl⟩
        | none =>
          obtain ⟨rfl, rfl⟩ := run_pure_ok h
          exact .inr ⟨none, hb, rfl⟩

end Eval

namespace Program

open Eval

theorem runStmts_cons_ok {env : Nat} {s : Stmt} {ss : List Stmt} {last : Option Value}
    {c : Completion} {m m₁ : Machine} (h : (Eval.stmt nestingLimit env s).run m = .ok c m₁) :
    (runStmts env (s :: ss) last).run m =
      (match c with
        | .returned v => pure (Outcome.done (some v))
        | .normal v => runStmts env ss v : Eval Outcome).run m₁ := by
  simp only [runStmts]
  rw [EStateM.run_bind, run_tryCatch_ok (run_map_ok h)]
  cases c <;> rfl

/-- Top-level statements that run to their end are run one after another as a list of
statements in their global scope is. -/
theorem runStmts_append {env : Nat} :
    ∀ {pre rest : List Stmt} {last o : Option Value} {m m₁ : Machine},
    (Eval.stmts nestingLimit env last pre).run m = .ok (.normal o) m₁ →
      (runStmts env (pre ++ rest) last).run m = (runStmts env rest o).run m₁
  | [], rest, last, o, m, m₁, h => by
    simp only [Eval.stmts] at h
    obtain ⟨h1, rfl⟩ := run_pure_ok h
    cases h1
    rfl
  | s :: pre, rest, last, o, m, m₁, h => by
    simp only [Eval.stmts] at h
    obtain ⟨c, m₂, hs, h⟩ := run_bind_ok h
    cases c with
    | returned w => cases (run_pure_ok h).1
    | normal o' =>
      rw [List.cons_append, runStmts_cons_ok hs]
      exact runStmts_append h

end Program

/-! ### A `return` ends the innermost call, or the program -/

open Eval in
/-- A returned value is unwrapped exactly once, by the innermost call or by the run of the
program. A call ends where its body ended. If the body returned, the call gives the returned
value itself, which a `return` computed. That `return` sits in the body inside blocks,
conditionals and loops only. Otherwise the call gives the value of the body's last statement.
A statement that returns ends the statements it stands in with its value, and nothing after it
runs. At top level the program ends with that value, whatever statements follow. -/
theorem return_ends_call_and_program :
    (∀ (n env : Nat) (cl : Closure) (args : List Expr) (m m' : Machine) (w : Value),
      (call n cl args env).run m = .ok w m' →
        ∃ k scope m₁,
          ((stmt k scope (.block cl.decl.body)).run m₁ = .ok (.returned w) m' ∧
            ReturnedFrom (.block cl.decl.body) w m') ∨
          ∃ o, (stmt k scope (.block cl.decl.body)).run m₁ = .ok (.normal o) m' ∧
            w = o.getD .nil) ∧
    (∀ (n env : Nat) (pre post : List Stmt) (s : Stmt) (last o : Option Value)
        (m m₁ m' : Machine) (v : Value),
      (stmts n env last pre).run m = .ok (.normal o) m₁ →
        (stmt n env s).run m₁ = .ok (.returned v) m' →
          (stmts n env last (pre ++ s :: post)).run m = .ok (.returned v) m' ∧
            ReturnedFrom s v m') ∧
    (∀ (p : Program) (pre post : List Stmt) (s : Stmt) (o : Option Value) (m m₁ m' : Machine)
        (v : Value),
      p.body = pre ++ s :: post →
        (stmts nestingLimit Store.global none pre).run m = .ok (.normal o) m₁ →
          (stmt nestingLimit Store.global s).run m₁ = .ok (.returned v) m' →
            p.run m = .ok (.done (some v), m') ∧ ReturnedFrom s v m') := by
  refine ⟨fun n env cl args m m' w h => call_value h, ?_, ?_⟩
  · intro n env pre post s last o m m₁ m' v hpre hs
    exact ⟨stmts_append_returned hs hpre, returnedFrom_of_stmt n env s m₁ m' v hs⟩
  · intro p pre post s o m m₁ m' v hp hpre hs
    -- the statements before run one by one, then the returning one ends the run
    have hrun : (Program.runStmts Store.global p.body none).run m = .ok (.done (some v)) m' := by
      rw [hp, Program.runStmts_append hpre, Program.runStmts_cons_ok hs]
      rfl
    refine ⟨?_, returnedFrom_of_stmt _ _ s m₁ m' v hs⟩
    simp only [Program.run, Program.runIn, hrun]

/-- A program whose first statement is `return 7` ends with `7`, and the `print` after it does
not run. -/
theorem return_ends_program_before_print :
    Program.run ⟨[.ret (some (.literal (.int 7))), .print [.literal (.int 1)]]⟩
      (Machine.fresh 0 false) = .ok (.done (some (.int 7)), Machine.fresh 0 false) :=
  (return_ends_call_and_program.2.2 _ [] _ _ none _ _ _ _ rfl
    (by simp only [Eval.stmts]; rfl)
    (by simp only [nestingLimit, Eval.stmt, Eval.expr, Value.ofScalar]; rfl)).1

end Ember
