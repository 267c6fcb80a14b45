import Ember.Proofs.Escapes
import Ember.Proofs.Simulation
/-!
The trace level does not change what a run does.

A run tracing at level `k` keeps the trace events of level at most `k` (`Event.shownAt`), and
nothing else it does depends on `k`. So a run at a level `j ≤ k` is the run at `k` with the
events above `j` left out of its trace: the same outcome, store and printed text
(`Program.run_atLevel`). This holds when the trace goes to no file. A trace file refuses a
line with a lone surrogate, which stops the run, so there a line shown at `k` and not at `j`
can stop one run and not the other (`surrogate_let_refused_at_level_two`).

The proof is a simulation of the run at `j` by the run at `k`:

* `Machine.atLevel j m` is the machine `m` as a run at level `j` has it, and
  `Machine.Quieter j` relates a machine to it;
* `Eval.Alike R x` says that runs of `x` from machines related by `R` end alike, with the
  same value or the same stop, in machines related by `R`; it is built from the parts of a
  computation (`Alike.bind`);
* every part of the evaluator is alike for `Machine.Quieter j` (`Eval.allQuiet`), by
  induction on the frames left, from one lemma per construct. The only step where the level
  is read is `note`, where an event is kept by both runs, by the louder one only, or by
  neither (`note_quiet`).
-/

namespace Ember

/-- The machine as a run tracing at level `j` has it: the same store and printed text, and
the trace events shown at `j`. -/
def Machine.atLevel (j : Nat) (m : Machine) : Machine :=
  { m with trace := m.trace.filter (·.shownAt j), level := j }

@[simp] theorem Machine.atLevel_store (j : Nat) (m : Machine) : (m.atLevel j).store = m.store :=
  rfl

@[simp] theorem Machine.atLevel_out (j : Nat) (m : Machine) : (m.atLevel j).out = m.out :=
  rfl

@[simp] theorem Machine.atLevel_level (j : Nat) (m : Machine) : (m.atLevel j).level = j :=
  rfl

@[simp] theorem Machine.atLevel_traceFile (j : Nat) (m : Machine) :
    (m.atLevel j).traceFile = m.traceFile :=
  rfl

/-- `m'` is the machine `m` as a run tracing at `j` has it, where `m` traces at a level at
least `j` and to no file. -/
def Machine.Quieter (j : Nat) (m m' : Machine) : Prop :=
  m' = m.atLevel j ∧ m.traceFile = false ∧ j ≤ m.level

/-- Seen at a lower level, an event shown at a higher one is no longer there, and an event
shown at the lower one is still there. -/
theorem Event.shownAt_mono {e : Event} {j k : Nat} (hjk : j ≤ k) (h : e.shownAt j) :
    e.shownAt k := by
  unfold Event.shownAt at h ⊢
  rw [decide_eq_true_eq] at h ⊢
  omega

namespace Eval

/-- Runs of `x` from machines related by `R` end alike: with the same value or the same stop,
in machines related by `R`. -/
def Alike {α : Type} (R : Machine → Machine → Prop) (x : Eval α) : Prop :=
  Simulates R id x x

namespace Alike

variable {α β : Type} {R : Machine → Machine → Prop}

theorem pure (a : α) : Alike R (Pure.pure a : Eval α) :=
  Simulates.pure a

theorem throw (e : Stop) : Alike R (MonadExcept.throw e : Eval α) :=
  Simulates.throw e

theorem fail (f : Fault) : Alike R (Eval.fail f : Eval α) :=
  Simulates.fail f

theorem bind {x : Eval α} {f : α → Eval β} (hx : Alike R x) (hf : ∀ a, Alike R (f a)) :
    Alike R (x >>= f) :=
  Simulates.bind hx hf

theorem lift (r : Except Fault α) : Alike R (Eval.lift r) := by
  cases r with
  | ok a => exact pure a
  | error f => exact fail f

theorem map {x : Eval α} (hx : Alike R x) (f : α → β) : Alike R (f <$> x) :=
  Simulates.map hx fun _ => rfl

theorem tryCatch {x : Eval α} {handler : Stop → Eval α} (hx : Alike R x)
    (hh : ∀ e, Alike R (handler e)) : Alike R (MonadExcept.tryCatch x handler) :=
  Simulates.tryCatch hx hh

/-- A computation that reads the machine through what related machines share. -/
theorem get_bind {f : Machine → Eval β} (hsame : ∀ m m', R m m' → f m = f m')
    (hf : ∀ m, Alike R (f m)) : Alike R (MonadState.get >>= f) :=
  Simulates.get_bind fun m m' hm => by
    rw [hsame m m' hm]
    exact hf m' m m' hm

end Alike

/-! ### Each step at two levels -/

section Primitives

variable {j : Nat}

theorem Quieter.store {m m' : Machine} (h : Machine.Quieter j m m') : m.store = m'.store := by
  rw [h.1]
  rfl

theorem modifyStore_quiet (f : Store → Store) : Alike (Machine.Quieter j) (modifyStore f) := by
  rintro ⟨st, out, tr, k, toFile⟩ _ ⟨rfl, hfile, hj⟩
  exact ⟨rfl, rfl, hfile, hj⟩

theorem emit_quiet (t : Text) : Alike (Machine.Quieter j) (emit t) := by
  rintro ⟨st, out, tr, k, toFile⟩ _ ⟨rfl, hfile, hj⟩
  exact ⟨rfl, rfl, hfile, hj⟩

theorem newScope_quiet (p : Nat) : Alike (Machine.Quieter j) (newScope p) := by
  rintro ⟨st, out, tr, k, toFile⟩ _ ⟨rfl, hfile, hj⟩
  exact ⟨rfl, rfl, hfile, hj⟩

theorem newObject_quiet : Alike (Machine.Quieter j) newObject := by
  rintro ⟨st, out, tr, k, toFile⟩ _ ⟨rfl, hfile, hj⟩
  exact ⟨rfl, rfl, hfile, hj⟩

theorem lookup_quiet (env : Nat) (name : Text) : Alike (Machine.Quieter j) (lookup env name) :=
  Alike.get_bind (fun _ _ h => by rw [Quieter.store h]) fun _ => Alike.pure _

/-- With no trace file an event is kept when the level shows it, and nothing else changes. -/
theorem note_run (e : Event) {m : Machine} (hfile : m.traceFile = false) :
    (note e).run m =
      .ok () (if e.shownAt m.level then { m with trace := m.trace.push e } else m) := by
  obtain ⟨st, out, tr, k, toFile⟩ := m
  dsimp only at hfile
  subst hfile
  by_cases h : e.shownAt k
  · rw [if_pos h]
    show (if e.shownAt k then _ else _ : Eval Unit).run _ = _
    rw [if_pos h]
    rfl
  · rw [if_neg h]
    show (if e.shownAt k then _ else _ : Eval Unit).run _ = _
    rw [if_neg h]
    rfl

/-- An event is kept by both runs, by the louder one only, or by neither; either way the
quieter trace is the louder one seen at its level. -/
theorem note_quiet (e : Event) : Alike (Machine.Quieter j) (note e) := by
  rintro m _ ⟨rfl, hfile, hj⟩
  rw [note_run e hfile, note_run e (show (m.atLevel j).traceFile = false from hfile),
    Machine.atLevel_level]
  refine ⟨rfl, ?_, ?_, ?_⟩
  · by_cases hk : e.shownAt m.level
    · rw [if_pos hk]
      by_cases hj' : e.shownAt j
      · rw [if_pos hj']
        simp only [Machine.atLevel, Array.filter_push, hj', if_true]
      · rw [if_neg hj']
        simp only [Machine.atLevel, Array.filter_push, hj', Bool.false_eq_true, if_false]
    · -- an event the louder run does not show, the quieter one does not show either
      have hj' : ¬ e.shownAt j := fun h => hk (Event.shownAt_mono hj h)
      rw [if_neg hk, if_neg hj']
  · split <;> exact hfile
  · split <;> exact hj

theorem declare_quiet (env : Nat) (f : Func) : Alike (Machine.Quieter j) (declare env f) :=
  Alike.bind (modifyStore_quiet _) fun _ => Alike.bind (note_quiet _) fun _ => Alike.pure _

theorem declareMethods_quiet (env : Nat) :
    ∀ (ms : List Func) (table : List (Text × Closure)),
      Alike (Machine.Quieter j) (declareMethods env ms table)
  | [], table => Alike.pure table
  | m :: ms, _ =>
    Alike.bind (declare_quiet env m) fun _ => declareMethods_quiet env ms _

theorem declareClass_quiet (env : Nat) (name : Text) (ms : List Func) :
    Alike (Machine.Quieter j) (declareClass env name ms) :=
  Alike.bind (newScope_quiet env) fun scope =>
    Alike.bind (declareMethods_quiet scope ms []) fun _ =>
      Alike.bind (modifyStore_quiet _) fun _ =>
        Alike.bind (note_quiet _) fun _ => Alike.pure _

theorem bindMethod_quiet (m : Closure) (self : Value) :
    Alike (Machine.Quieter j) (bindMethod m self) :=
  Alike.bind (newScope_quiet _) fun _ => Alike.bind (modifyStore_quiet _) fun _ => Alike.pure _

theorem printValues_quiet (vs : List Value) : Alike (Machine.Quieter j) (printValues vs) := by
  unfold printValues
  split
  · split
    · exact emit_quiet _
    · exact Alike.throw _
    · exact Alike.fail _
  · exact Alike.fail _
  · exact Alike.pure _

end Primitives

/-! ### The evaluator at two levels -/

/-- With `n` frames left, every part of the evaluator runs alike at a level and at a lower
one. -/
structure AllQuiet (j n : Nat) : Prop where
  expr : ∀ env e, Alike (Machine.Quieter j) (expr n env e)
  arguments : ∀ env args, Alike (Machine.Quieter j) (arguments n env args)
  call : ∀ cl args env, Alike (Machine.Quieter j) (call n cl args env)
  test : ∀ env c, Alike (Machine.Quieter j) (test n env c)
  block : ∀ env ss, Alike (Machine.Quieter j) (block n env ss)
  print : ∀ env args, Alike (Machine.Quieter j) (print n env args)
  stmt : ∀ env s, Alike (Machine.Quieter j) (stmt n env s)

namespace AllQuiet

variable {j n : Nat}

theorem zero (j : Nat) : AllQuiet j 0 where
  expr _ _ := by simp only [Eval.expr]; exact Alike.fail _
  arguments _ _ := by simp only [Eval.arguments]; exact Alike.fail _
  call _ _ _ := by simp only [Eval.call]; exact Alike.fail _
  test _ _ := by simp only [Eval.test]; exact Alike.fail _
  block _ _ := by simp only [Eval.block]; exact Alike.fail _
  print _ _ := by simp only [Eval.print]; exact Alike.fail _
  stmt _ _ := by simp only [Eval.stmt]; exact Alike.fail _

theorem exprs (h : AllQuiet j n) (env : Nat) :
    ∀ es, Alike (Machine.Quieter j) (Eval.exprs n env es)
  | [] => by simp only [Eval.exprs]; exact Alike.pure _
  | e :: es => by
    simp only [Eval.exprs]
    exact Alike.bind (h.expr env e) fun _ => Alike.bind (h.exprs env es) fun _ => Alike.pure _

theorem stmts (h : AllQuiet j n) (env : Nat) :
    ∀ ss last, Alike (Machine.Quieter j) (Eval.stmts n env last ss)
  | [], _ => by simp only [Eval.stmts]; exact Alike.pure _
  | s :: ss, _ => by
    simp only [Eval.stmts]
    refine Alike.bind (h.stmt env s) fun c => ?_
    cases c with
    | returned v => exact Alike.pure _
    | normal v => exact h.stmts env ss v

theorem loop (h : AllQuiet j n) (env : Nat) (c : Expr) (body : Stmt) :
    ∀ k last, Alike (Machine.Quieter j) (Eval.loop n env c body last k)
  | 0, _ => by simp only [Eval.loop]; exact Alike.fail _
  | k + 1, last => by
    simp only [Eval.loop]
    refine Alike.bind (h.test env c) fun b => ?_
    cases b with
    | false => exact Alike.pure _
    | true =>
      refine Alike.bind (h.stmt env body) fun r => ?_
      cases r with
      | returned v => exact Alike.pure _
      | normal v => exact h.loop env c body k v

/-- An expression runs alike as its parts do; reading a field reads only the store. -/
theorem expr_succ (h : AllQuiet j n) (env : Nat) :
    ∀ e, Alike (Machine.Quieter j) (Eval.expr (n + 1) env e) := by
  intro e
  cases e with
  | literal s => simp only [Eval.expr]; exact Alike.pure _
  | var x =>
    simp only [Eval.expr]
    refine Alike.bind (lookup_quiet env _) fun o => ?_
    cases o with
    | some v => exact Alike.pure v
    | none => exact Alike.fail _
  | group x => simp only [Eval.expr]; exact h.expr env x
  | assign x v =>
    simp only [Eval.expr]
    exact Alike.bind (h.expr env v) fun _ =>
      Alike.bind (modifyStore_quiet _) fun _ => Alike.pure _
  | binary op lx l r =>
    simp only [Eval.expr]
    exact Alike.bind (h.expr env l) fun _ =>
      Alike.bind (h.expr env r) fun _ => Alike.lift _
  | logical op lx l r =>
    simp only [Eval.expr]
    exact Alike.bind (h.expr env l) fun _ =>
      Alike.bind (h.expr env r) fun _ => Alike.lift _
  | unary op lx x =>
    simp only [Eval.expr]
    exact Alike.bind (h.expr env x) fun _ => Alike.lift _
  | call c args =>
    simp only [Eval.expr]
    refine Alike.bind (h.expr env c) fun f => ?_
    split
    · exact h.call _ args env
    · split
      · exact Alike.bind (note_quiet _) fun _ =>
          Alike.bind newObject_quiet fun _ => Alike.pure _
      · exact Alike.fail _
    · exact Alike.fail _
  | getField t x =>
    simp only [Eval.expr]
    refine Alike.bind (h.expr env t) fun v => ?_
    split
    · refine Alike.get_bind (fun _ _ hm => by rw [Quieter.store hm]) fun _ => ?_
      split
      · exact Alike.pure _
      · split
        · exact bindMethod_quiet _ _
        · exact Alike.fail _
    · exact Alike.fail _
  | setField t x e =>
    simp only [Eval.expr]
    refine Alike.bind (h.expr env t) fun v => ?_
    split
    · exact Alike.bind (h.expr env e) fun _ =>
        Alike.bind (modifyStore_quiet _) fun _ => Alike.pure _
    · exact Alike.fail _
  | thisRef =>
    simp only [Eval.expr]
    refine Alike.bind (lookup_quiet env _) fun o => ?_
    cases o with
    | some v => exact Alike.pure v
    | none => exact Alike.fail _

theorem call_succ (h : AllQuiet j n) (cl : Closure) (args : List Expr) (env : Nat) :
    Alike (Machine.Quieter j) (Eval.call (n + 1) cl args env) := by
  simp only [Eval.call]
  split
  · exact Alike.fail _
  · refine Alike.bind (h.arguments env args) fun vals => ?_
    refine Alike.bind (newScope_quiet _) fun scope => ?_
    refine Alike.bind (modifyStore_quiet _) fun _ => ?_
    refine Alike.bind (note_quiet _) fun _ => ?_
    refine Alike.bind (h.stmt scope _) fun c => ?_
    split <;> exact Alike.pure _

/-- A statement runs alike as its parts do; declarations, `let` and `if` note their events. -/
theorem stmt_succ (h : AllQuiet j n) (env : Nat) :
    ∀ s, Alike (Machine.Quieter j) (Eval.stmt (n + 1) env s) := by
  intro s
  cases s with
  | expr e =>
    simp only [Eval.stmt]
    exact Alike.bind (h.expr env e) fun _ => Alike.pure _
  | letDecl x init =>
    have hbind : ∀ v : Value, Alike (Machine.Quieter j) (do
        modifyStore (·.define env x.display v)
        note (.bind x.display v)
        Pure.pure (Completion.normal (some v)) : Eval Completion) := fun _ =>
      Alike.bind (modifyStore_quiet _) fun _ => Alike.bind (note_quiet _) fun _ => Alike.pure _
    cases init with
    | some e =>
      simp only [Eval.stmt]
      exact Alike.bind (h.expr env e) hbind
    | none =>
      simp only [Eval.stmt]
      exact Alike.bind (Alike.pure _) hbind
  | block ss =>
    simp only [Eval.stmt]
    exact Alike.bind (newScope_quiet env) fun scope => h.block scope ss
  | funDecl f =>
    simp only [Eval.stmt]
    exact Alike.bind (declare_quiet env f) fun _ => Alike.pure _
  | classDecl x ms =>
    simp only [Eval.stmt]
    exact Alike.bind (declareClass_quiet env _ ms) fun _ => Alike.pure _
  | ifElse c yes no =>
    cases no with
    | some t =>
      simp only [Eval.stmt]
      refine Alike.bind (h.test env c) fun b => Alike.bind (note_quiet _) fun _ => ?_
      cases b with
      | true => exact h.stmt env yes
      | false => exact h.stmt env t
    | none =>
      simp only [Eval.stmt]
      refine Alike.bind (h.test env c) fun b => Alike.bind (note_quiet _) fun _ => ?_
      cases b with
      | true => exact h.stmt env yes
      | false => exact Alike.pure _
  | whileLoop c body =>
    simp only [Eval.stmt]
    exact h.loop env c body _ _
  | ret v =>
    cases v with
    | some e =>
      simp only [Eval.stmt]
      exact Alike.bind (h.expr env e) fun _ => Alike.pure _
    | none =>
      simp only [Eval.stmt]
      exact Alike.bind (Alike.pure _) fun _ => Alike.pure _
  | print args =>
    simp only [Eval.stmt]
    exact Alike.bind (h.print env args) fun _ => Alike.pure _

theorem succ (h : AllQuiet j n) : AllQuiet j (n + 1) where
  expr env := h.expr_succ env
  arguments env args := by simp only [Eval.arguments]; exact h.exprs env args
  call cl args env := h.call_succ cl args env
  test env c := by
    simp only [Eval.test]
    refine Alike.bind (h.expr env c) fun v => ?_
    split
    · exact Alike.pure _
    · exact Alike.fail _
  block env ss := by simp only [Eval.block]; exact h.stmts env ss none
  print env args := by
    simp only [Eval.print]
    exact Alike.bind (h.arguments env args) fun vals => printValues_quiet vals
  stmt env := h.stmt_succ env

end AllQuiet

/-- Whatever frames are left, every part of the evaluator runs alike at a level and at a lower
one. The induction is on the frames left. -/
theorem allQuiet (j : Nat) : ∀ n, AllQuiet j n
  | 0 => AllQuiet.zero j
  | n + 1 => (allQuiet j n).succ

end Eval

/-! ### Runs of programs -/

namespace Program

open Eval

/-- Top-level statements run alike at a level and at a lower one: a fault is caught alike
and noted at both levels, since its event is shown at every level but 0. -/
theorem runStmts_quiet {j : Nat} (env : Nat) :
    ∀ (ss : List Stmt) (last : Option Value), Alike (Machine.Quieter j) (runStmts env ss last)
  | [], last => by simp only [runStmts]; exact Alike.pure _
  | s :: ss, _ => by
    simp only [runStmts]
    refine Alike.bind (Alike.tryCatch (Alike.map ((allQuiet j nestingLimit).stmt env s)
      _) fun e => ?_) fun r => ?_
    · cases e with
      | fault f => exact Alike.pure _
      | crash c => exact Alike.throw _
    · cases r with
      | inl f =>
        dsimp only
        split
        · exact Alike.bind (note_quiet _) fun _ => Alike.pure _
        · exact Alike.pure _
      | inr c =>
        cases c with
        | returned v => exact Alike.pure _
        | normal v => exact runStmts_quiet env ss v

/-- Running a program at a level `j` no higher than the level of a machine that traces to no
file is running it at the machine's level and leaving the events above `j` out of the trace:
the same outcome, or the same host failure, with the same store and printed text. -/
theorem run_atLevel (p : Program) (m : Machine) (hfile : m.traceFile = false) (j : Nat)
    (hj : j ≤ m.level) :
    p.run (m.atLevel j) = (p.run m).map fun r => (r.1, r.2.atLevel j) := by
  have h := runStmts_quiet Store.global p.body none m (m.atLevel j) ⟨rfl, hfile, hj⟩
  unfold Program.run Program.runIn
  -- the quieter run ends alike, in the machine it ends in seen at level `j`
  rcases h.cases with ⟨o, m₁, m₁', hr, hr', rfl, -⟩ | ⟨e, m₁, m₁', hr, hr', rfl, -⟩
  · rw [hr, hr']
    rfl
  · rw [hr, hr']
    cases e <;> rfl

/-- From fresh machines, a run at level 1 is the run at level 3 with its trace seen at
level 1. -/
theorem run_atLevel_sample :
    Program.run ⟨[.letDecl (.text (Text.ofString "x")) (some (.literal (.int 1)))]⟩
        (Machine.fresh 1 false) =
      (Program.run ⟨[.letDecl (.text (Text.ofString "x")) (some (.literal (.int 1)))]⟩
        (Machine.fresh 3 false)).map fun r => (r.1, r.2.atLevel 1) :=
  run_atLevel _ (Machine.fresh 3 false) rfl 1 (by decide)

/-- With a trace file the level changes the run: binding a lone surrogate is refused by the
file at level 2, where the binding is traced, and goes through at level 1. -/
theorem surrogate_let_refused_at_level_two :
    (Program.run ⟨[.letDecl (.text (Text.ofString "x")) (some (.literal (.text [.surrogate 0])))]⟩
      (Machine.fresh 1 true)).toBool = true ∧
    Program.run ⟨[.letDecl (.text (Text.ofString "x")) (some (.literal (.text [.surrogate 0])))]⟩
      (Machine.fresh 2 true) = .error (.unencodable ⟨8, 8, .surrogate 0⟩) := by
  constructor
  · simp only [Program.run, Program.runIn, Program.runStmts, nestingLimit, Eval.stmt, Eval.expr,
      Value.ofScalar]
    decide +kernel
  · apply eq_error_of_error?
    simp only [Program.run, Program.runIn, Program.runStmts, nestingLimit, Eval.stmt, Eval.expr,
      Value.ofScalar]
    decide +kernel

end Program

end Ember
