import Ember.Proofs.Invariant
import Ember.Proofs.Relocation
import Ember.Run
import Ember.Shell
/-!
A reset forgets the session.

The loop answers each input on the machine that the inputs before it left. A reset makes a new
global scope, with no parent, in the same store, and the inputs after it run there: what the
inputs before made stays in the store, out of their reach. Nothing the evaluator does changes
the trace settings, the level and whether the trace goes to a file (`Eval.allKeepSettings`),
and an answer empties the printed text and the trace before a run. So after a reset the machine
is, for what an answer reads of it, the fresh machine with the same settings moved past the
store the session made (`Repl.reset_relocated`). The inputs after the reset are answered on it
as on the fresh machine, with the values their traces report moved
(`Repl.answerAll_relocated`), and moving changes no text: they write what a fresh loop with the
same settings writes, whatever the inputs before made, functions, classes, instances and
closures alike (`reset_forgets_session`). The loop reaches the inputs after the reset only when
the inputs before it did not fail on the host, which ends the loop.
-/

namespace Ember

/-- The trace settings of a machine: its trace level, and whether the trace goes to a file. -/
def Machine.settings (m : Machine) : Nat × Bool := (m.level, m.traceFile)

namespace Eval

/-- Every run of `x` ends with the trace settings and the global scope it started with. -/
def KeepsSettings {α : Type} (x : Eval α) : Prop :=
  ∀ c, Holds (fun m => (m.settings, m.global) = c) (fun _ => True) (fun _ => True) x

/-! ### The primitives keep the settings -/

section Primitives

variable {α β : Type}

theorem pure_keepsSettings (a : α) : KeepsSettings (Pure.pure a : Eval α) :=
  fun _ => Holds.pure trivial

theorem throw_keepsSettings (e : Stop) : KeepsSettings (MonadExcept.throw e : Eval α) :=
  fun _ => Holds.throw trivial

theorem fail_keepsSettings (f : Fault) : KeepsSettings (fail f : Eval α) :=
  throw_keepsSettings _

theorem lift_keepsSettings (r : Except Fault α) : KeepsSettings (lift r) :=
  fun _ => Holds.lift (fun _ => trivial) fun _ _ => trivial

theorem bind_keepsSettings {x : Eval α} {f : α → Eval β} (hx : KeepsSettings x)
    (hf : ∀ a, KeepsSettings (f a)) : KeepsSettings (x >>= f) :=
  fun c => Holds.bind (hx c) fun a _ => hf a c

theorem get_bind_keepsSettings {f : Machine → Eval β} (hf : ∀ m, KeepsSettings (f m)) :
    KeepsSettings (MonadState.get >>= f) :=
  fun c => Holds.bind Holds.get fun m _ => hf m c

theorem modifyStore_keepsSettings (f : Store → Store) : KeepsSettings (modifyStore f) :=
  fun _ => modifyStore_holds fun _ hm => hm

theorem emit_keepsSettings (t : Text) : KeepsSettings (emit t) :=
  fun _ => emit_holds fun _ hm => hm

theorem newScope_keepsSettings (p : Nat) : KeepsSettings (newScope p) :=
  fun _ => newScope_holds fun _ hm => hm

theorem newObject_keepsSettings : KeepsSettings newObject :=
  fun _ => newObject_holds fun _ hm => hm

theorem lookup_keepsSettings (env : Nat) (name : Text) : KeepsSettings (lookup env name) :=
  fun _ => Holds.mono (lookup_holds (Q := fun _ => True) fun _ _ => trivial)
    (fun _ h => h) fun _ _ => trivial

/-- Noting an event reads the settings and writes only the trace. -/
theorem note_keepsSettings (e : Event) : KeepsSettings (note e) :=
  fun _ => note_holds (fun _ hm => hm) fun _ _ _ _ => trivial

theorem printValues_keepsSettings (vs : List Value) : KeepsSettings (printValues vs) := by
  unfold printValues
  split
  · split
    · exact emit_keepsSettings _
    · exact throw_keepsSettings _
    · exact fail_keepsSettings _
  · exact fail_keepsSettings _
  · exact pure_keepsSettings _

theorem declare_keepsSettings (env : Nat) (f : Func) : KeepsSettings (declare env f) :=
  bind_keepsSettings (modifyStore_keepsSettings _) fun _ =>
    bind_keepsSettings (note_keepsSettings _) fun _ => pure_keepsSettings _

theorem declareMethods_keepsSettings (env : Nat) :
    ∀ (ms : List Func) (table : List (Text × Closure)),
      KeepsSettings (declareMethods env ms table)
  | [], table => pure_keepsSettings table
  | m :: ms, _ =>
    bind_keepsSettings (declare_keepsSettings env m) fun _ =>
      declareMethods_keepsSettings env ms _

theorem declareClass_keepsSettings (env : Nat) (name : Text) (ms : List Func) :
    KeepsSettings (declareClass env name ms) :=
  bind_keepsSettings (newScope_keepsSettings env) fun scope =>
    bind_keepsSettings (declareMethods_keepsSettings scope ms []) fun _ =>
      bind_keepsSettings (modifyStore_keepsSettings _) fun _ =>
        bind_keepsSettings (note_keepsSettings _) fun _ => pure_keepsSettings _

theorem bindMethod_keepsSettings (m : Closure) (self : Value) :
    KeepsSettings (bindMethod m self) :=
  bind_keepsSettings (newScope_keepsSettings _) fun _ =>
    bind_keepsSettings (modifyStore_keepsSettings _) fun _ => pure_keepsSettings _

end Primitives

/-! ### The evaluator keeps the settings -/

/-- With `n` frames left, every part of the evaluator keeps the settings. -/
structure AllKeepSettings (n : Nat) : Prop where
  expr : ∀ env e, KeepsSettings (expr n env e)
  arguments : ∀ env args, KeepsSettings (arguments n env args)
  call : ∀ cl args env, KeepsSettings (call n cl args env)
  test : ∀ env c, KeepsSettings (test n env c)
  block : ∀ env ss, KeepsSettings (block n env ss)
  print : ∀ env args, KeepsSettings (print n env args)
  stmt : ∀ env s, KeepsSettings (stmt n env s)

namespace AllKeepSettings

variable {n : Nat}

theorem zero : AllKeepSettings 0 where
  expr _ _ := by simp only [Eval.expr]; exact fail_keepsSettings _
  arguments _ _ := by simp only [Eval.arguments]; exact fail_keepsSettings _
  call _ _ _ := by simp only [Eval.call]; exact fail_keepsSettings _
  test _ _ := by simp only [Eval.test]; exact fail_keepsSettings _
  block _ _ := by simp only [Eval.block]; exact fail_keepsSettings _
  print _ _ := by simp only [Eval.print]; exact fail_keepsSettings _
  stmt _ _ := by simp only [Eval.stmt]; exact fail_keepsSettings _

theorem exprs (h : AllKeepSettings n) (env : Nat) :
    ∀ es, KeepsSettings (Eval.exprs n env es)
  | [] => by simp only [Eval.exprs]; exact pure_keepsSettings _
  | e :: es => by
    simp only [Eval.exprs]
    exact bind_keepsSettings (h.expr env e) fun _ =>
      bind_keepsSettings (h.exprs env es) fun _ => pure_keepsSettings _

theorem stmts (h : AllKeepSettings n) (env : Nat) :
    ∀ ss last, KeepsSettings (Eval.stmts n env last ss)
  | [], _ => by simp only [Eval.stmts]; exact pure_keepsSettings _
  | s :: ss, _ => by
    simp only [Eval.stmts]
    refine bind_keepsSettings (h.stmt env s) fun c => ?_
    cases c with
    | returned v => exact pure_keepsSettings _
    | normal v => exact h.stmts env ss v

theorem loop (h : AllKeepSettings n) (env : Nat) (c : Expr) (body : Stmt) :
    ∀ j last, KeepsSettings (Eval.loop n env c body last j)
  | 0, _ => by simp only [Eval.loop]; exact fail_keepsSettings _
  | j + 1, last => by
    simp only [Eval.loop]
    refine bind_keepsSettings (h.test env c) fun b => ?_
    cases b with
    | false => exact pure_keepsSettings _
    | true =>
      refine bind_keepsSettings (h.stmt env body) fun r => ?_
      cases r with
      | returned v => exact pure_keepsSettings _
      | normal v => exact h.loop env c body j v

theorem expr_succ (h : AllKeepSettings n) (env : Nat) :
    ∀ e, KeepsSettings (Eval.expr (n + 1) env e) := by
  intro e
  cases e with
  | literal s => simp only [Eval.expr]; exact pure_keepsSettings _
  | var x =>
    simp only [Eval.expr]
    refine bind_keepsSettings (lookup_keepsSettings env _) fun o => ?_
    cases o with
    | some v => exact pure_keepsSettings v
    | none => exact fail_keepsSettings _
  | group x => simp only [Eval.expr]; exact h.expr env x
  | assign x v =>
    simp only [Eval.expr]
    exact bind_keepsSettings (h.expr env v) fun _ =>
      bind_keepsSettings (modifyStore_keepsSettings _) fun _ => pure_keepsSettings _
  | binary op lx l r =>
    simp only [Eval.expr]
    exact bind_keepsSettings (h.expr env l) fun _ =>
      bind_keepsSettings (h.expr env r) fun _ => lift_keepsSettings _
  | logical op lx l r =>
    simp only [Eval.expr]
    exact bind_keepsSettings (h.expr env l) fun _ =>
      bind_keepsSettings (h.expr env r) fun _ => lift_keepsSettings _
  | unary op lx x =>
    simp only [Eval.expr]
    exact bind_keepsSettings (h.expr env x) fun _ => lift_keepsSettings _
  | call c args =>
    simp only [Eval.expr]
    refine bind_keepsSettings (h.expr env c) fun f => ?_
    split
    · exact h.call _ args env
    · split
      · exact bind_keepsSettings (note_keepsSettings _) fun _ =>
          bind_keepsSettings newObject_keepsSettings fun _ => pure_keepsSettings _
      · exact fail_keepsSettings _
    · exact fail_keepsSettings _
  | getField t x =>
    simp only [Eval.expr]
    refine bind_keepsSettings (h.expr env t) fun v => ?_
    split
    · refine get_bind_keepsSettings fun _ => ?_
      split
      · exact pure_keepsSettings _
      · split
        · exact bindMethod_keepsSettings _ _
        · exact fail_keepsSettings _
    · exact fail_keepsSettings _
  | setField t x e =>
    simp only [Eval.expr]
    refine bind_keepsSettings (h.expr env t) fun v => ?_
    split
    · exact bind_keepsSettings (h.expr env e) fun _ =>
        bind_keepsSettings (modifyStore_keepsSettings _) fun _ => pure_keepsSettings _
    · exact fail_keepsSettings _
  | thisRef =>
    simp only [Eval.expr]
    refine bind_keepsSettings (lookup_keepsSettings env _) fun o => ?_
    cases o with
    | some v => exact pure_keepsSettings v
    | none => exact fail_keepsSettings _

theorem call_succ (h : AllKeepSettings n) (cl : Closure) (args : List Expr) (env : Nat) :
    KeepsSettings (Eval.call (n + 1) cl args env) := by
  simp only [Eval.call]
  split
  · exact fail_keepsSettings _
  · refine bind_keepsSettings (h.arguments env args) fun vals => ?_
    refine bind_keepsSettings (newScope_keepsSettings _) fun scope => ?_
    refine bind_keepsSettings (modifyStore_keepsSettings _) fun _ => ?_
    refine bind_keepsSettings (note_keepsSettings _) fun _ => ?_
    refine bind_keepsSettings (h.stmt scope _) fun c => ?_
    split <;> exact pure_keepsSettings _

theorem stmt_succ (h : AllKeepSettings n) (env : Nat) :
    ∀ s, KeepsSettings (Eval.stmt (n + 1) env s) := by
  intro s
  cases s with
  | expr e =>
    simp only [Eval.stmt]
    exact bind_keepsSettings (h.expr env e) fun _ => pure_keepsSettings _
  | letDecl x init =>
    have hbind : ∀ v : Value, KeepsSettings (do
        modifyStore (·.define env x.display v)
        note (.bind x.display v)
        Pure.pure (Completion.normal (some v)) : Eval Completion) := fun _ =>
      bind_keepsSettings (modifyStore_keepsSettings _) fun _ =>
        bind_keepsSettings (note_keepsSettings _) fun _ => pure_keepsSettings _
    cases init with
    | some e =>
      simp only [Eval.stmt]
      exact bind_keepsSettings (h.expr env e) hbind
    | none =>
      simp only [Eval.stmt]
      exact bind_keepsSettings (pure_keepsSettings _) hbind
  | block ss =>
    simp only [Eval.stmt]
    exact bind_keepsSettings (newScope_keepsSettings env) fun scope => h.block scope ss
  | funDecl f =>
    simp only [Eval.stmt]
    exact bind_keepsSettings (declare_keepsSettings env f) fun _ => pure_keepsSettings _
  | classDecl x ms =>
    simp only [Eval.stmt]
    exact bind_keepsSettings (declareClass_keepsSettings env _ ms) fun _ => pure_keepsSettings _
  | ifElse c yes no =>
    cases no with
    | some t =>
      simp only [Eval.stmt]
      refine bind_keepsSettings (h.test env c) fun b =>
        bind_keepsSettings (note_keepsSettings _) fun _ => ?_
      cases b with
      | true => exact h.stmt env yes
      | false => exact h.stmt env t
    | none =>
      simp only [Eval.stmt]
      refine bind_keepsSettings (h.test env c) fun b =>
        bind_keepsSettings (note_keepsSettings _) fun _ => ?_
      cases b with
      | true => exact h.stmt env yes
      | false => exact pure_keepsSettings _
  | whileLoop c body =>
    simp only [Eval.stmt]
    exact h.loop env c body _ _
  | ret v =>
    cases v with
    | some e =>
      simp only [Eval.stmt]
      exact bind_keepsSettings (h.expr env e) fun _ => pure_keepsSettings _
    | none =>
      simp only [Eval.stmt]
      exact bind_keepsSettings (pure_keepsSettings _) fun _ => pure_keepsSettings _
  | print args =>
    simp only [Eval.stmt]
    exact bind_keepsSettings (h.print env args) fun _ => pure_keepsSettings _

theorem succ (h : AllKeepSettings n) : AllKeepSettings (n + 1) where
  expr env := h.expr_succ env
  arguments env args := by simp only [Eval.arguments]; exact h.exprs env args
  call cl args env := h.call_succ cl args env
  test env c := by
    simp only [Eval.test]
    refine bind_keepsSettings (h.expr env c) fun v => ?_
    split
    · exact pure_keepsSettings _
    · exact fail_keepsSettings _
  block env ss := by simp only [Eval.block]; exact h.stmts env ss none
  print env args := by
    simp only [Eval.print]
    exact bind_keepsSettings (h.arguments env args) fun vals => printValues_keepsSettings vals
  stmt env := h.stmt_succ env

end AllKeepSettings

/-- Whatever frames are left, no part of the evaluator changes the trace settings. The
induction is on the frames left. -/
theorem allKeepSettings : ∀ n, AllKeepSettings n
  | 0 => AllKeepSettings.zero
  | n + 1 => (allKeepSettings n).succ

end Eval

/-! ### Runs and answers keep the settings -/

namespace Program

open Eval

/-- A run of top-level statements keeps what every top-level statement and the noting of a
fault keep: a fault is caught and becomes the outcome, a host failure is thrown again. -/
theorem runStmts_holds {I : Machine → Prop} {env : Nat}
    (hstmt : ∀ s, Holds I (fun _ => True) (fun _ => True) (Eval.stmt nestingLimit env s))
    (hnote : ∀ f, Holds I (fun _ => True) (fun _ => True) (Eval.note (.error f))) :
    ∀ (ss : List Stmt) (last : Option Value),
      Holds I (fun _ => True) (fun _ => True) (runStmts env ss last)
  | [], _ => by simp only [runStmts]; exact Holds.pure trivial
  | s :: ss, _ => by
    simp only [runStmts]
    have hs : Holds I (fun _ => True) (fun _ => True)
        (Sum.inr <$> Eval.stmt nestingLimit env s : Eval (Sum Fault Completion)) :=
      Holds.map (hstmt s) fun _ _ => trivial
    refine Holds.bind (Holds.tryCatch hs fun e _ => ?_) fun r _ => ?_
    · cases e with
      | fault f => exact Holds.pure trivial
      | crash c => exact Holds.throw trivial
    · cases r with
      | inl f =>
        dsimp only
        split
        · exact Holds.bind (hnote f) fun _ _ => Holds.pure trivial
        · exact Holds.pure trivial
      | inr c =>
        cases c with
        | returned v => exact Holds.pure trivial
        | normal v => exact runStmts_holds hstmt hnote ss v

/-- A run keeps what the run of its statements keeps. -/
theorem runIn_holds (p : Program) {env : Nat} {I : Machine → Prop}
    (hp : Holds I (fun _ => True) (fun _ => True) (runStmts env p.body none)) {m m' : Machine}
    {o : Outcome} (hm : I m) (h : p.runIn env m = .ok (o, m')) : I m' := by
  have hs := hp m hm
  unfold Program.runIn at h
  split at h
  · rename_i o' m₁ hr
    cases h
    rw [hr] at hs
    exact hs.2
  · cases h
  · rename_i f m₁ hr
    cases h
    rw [hr] at hs
    exact hs.2

/-- A run ends with the trace settings and the global scope it started with. -/
theorem runIn_keepsSettings (p : Program) {env : Nat} {m m' : Machine} {o : Outcome}
    (h : p.runIn env m = .ok (o, m')) : (m'.settings, m'.global) = (m.settings, m.global) :=
  p.runIn_holds (runStmts_holds (fun s => (allKeepSettings nestingLimit).stmt env s _)
    (fun _ => note_keepsSettings _ _) _ _) rfl h

end Program

namespace Repl

/-- What the loop writes for a reset. -/
def resetReply : Reply := ⟨"Environment reset.\n", [], #[]⟩

/-- A reset answers with its text and leaves the machine with a new global scope, without a
parent, made after every scope of its store. -/
theorem answer_reset (m : Machine) {line : Text} (h : Shell.trim line = "/reset") :
    answer m line =
      .ok (resetReply, { m with store := (m.store.newFrame none).1, global := m.store.frames.size }) := by
  have hb : (Shell.trim line).isEmpty = false := by rw [h]; rfl
  unfold answer
  rw [if_neg (by rw [hb]; exact Bool.false_ne_true), if_pos h]
  rfl

/-- An answer leaves the machine as it was, makes a new global scope, or ends where a run of
the line's program ends, from the machine's global scope with its output emptied. -/
theorem answer_cases {m m' : Machine} {line : Text} {r : Reply}
    (h : answer m line = .ok (r, m')) :
    m' = m ∨ m' = { m with store := (m.store.newFrame none).1, global := m.store.frames.size } ∨
      ∃ (p : Program) (o : Outcome), p.runIn m.global m.clearOutput = .ok (o, m') := by
  by_cases hb : (Shell.trim line).isEmpty = true
  · simp only [answer, hb, ↓reduceIte, Except.ok.injEq, Prod.mk.injEq] at h
    exact .inl h.2.symm
  by_cases hr : Shell.trim line = "/reset"
  · rw [answer_reset m hr, Except.ok.injEq, Prod.mk.injEq] at h
    exact .inr (.inl h.2.symm)
  · simp only [answer, hb, hr, ↓reduceIte, Bool.false_eq_true] at h
    split at h
    · split at h
      · cases h
      · simp only [Except.ok.injEq, Prod.mk.injEq] at h
        exact .inl h.2.symm
    · -- the reply is built from the machine the run ended in
      rename_i p _
      cases hrun : p.runIn m.global m.clearOutput with
      | error c => simp only [hrun] at h; cases h
      | ok om =>
        rw [hrun] at h
        have hm : om.2 = m' := (Prod.mk.inj (Except.ok.inj h)).2
        exact .inr (.inr ⟨p, om.1, by rw [← hm, hrun]⟩)

/-- Answering a line keeps the settings. -/
theorem answer_settings {m m' : Machine} {line : Text} {r : Reply}
    (h : answer m line = .ok (r, m')) : m'.settings = m.settings := by
  rcases answer_cases h with rfl | rfl | ⟨p, o, hrun⟩
  · rfl
  · rfl
  · -- the line runs from the machine with its output emptied, which has its settings
    rw [(Prod.mk.inj (Program.runIn_keepsSettings p hrun)).1]
    rfl

/-- Answering lines: the first, then the rest from the machine it left. -/
theorem answerAll_cons (m : Machine) (l : Text) (ls : List Text) :
    answerAll m (l :: ls) = (do
      let r ← answer m l
      let s ← answerAll r.2 ls
      pure (r.1 :: s.1, s.2)) := rfl

/-- Answering the lines of two lists is answering the first list and then the second from the
machine the first left. -/
theorem answerAll_append (m : Machine) (ls₁ ls₂ : List Text) :
    answerAll m (ls₁ ++ ls₂) = (do
      let r ← answerAll m ls₁
      let s ← answerAll r.2 ls₂
      pure (r.1 ++ s.1, s.2)) := by
  induction ls₁ generalizing m with
  | nil =>
    show answerAll m ls₂ = answerAll m ls₂ >>= fun s => pure ([] ++ s.1, s.2)
    simp only [List.nil_append]
    exact (bind_pure _).symm
  | cons l ls ih =>
    rw [List.cons_append, answerAll_cons, answerAll_cons, bind_assoc]
    refine congrArg (answer m l >>= ·) (funext fun r => ?_)
    rw [ih, bind_assoc, bind_assoc]
    refine congrArg (answerAll r.2 ls >>= ·) (funext fun s => ?_)
    rw [pure_bind, bind_assoc]
    simp only [pure_bind, List.cons_append]

/-- Answering a reset and then lines: the reset's reply, then the answers from the machine
with the new global scope. -/
theorem answerAll_reset (m : Machine) (ls : List Text) {reset : Text}
    (h : Shell.trim reset = "/reset") :
    answerAll m (reset :: ls) = (do
      let s ← answerAll
        { m with store := (m.store.newFrame none).1, global := m.store.frames.size } ls
      pure (resetReply :: s.1, s.2)) := by
  rw [answerAll_cons, answer_reset m h]
  rfl

/-- What every answer keeps, answering lines keeps. -/
theorem answerAll_keeps (P : Machine → Prop)
    (hP : ∀ {m m' : Machine} {l : Text} {r : Reply}, P m → answer m l = .ok (r, m') → P m') :
    ∀ {m m' : Machine} {ls : List Text} {rs : List Reply}, P m →
      answerAll m ls = .ok (rs, m') → P m'
  | _, _, [], _, hm, h => by
    cases h
    exact hm
  | m, _, l :: ls, _, hm, h => by
    rw [answerAll_cons] at h
    cases ha : answer m l with
    | error c => rw [ha] at h; cases h
    | ok r =>
      rw [ha] at h
      change (answerAll r.2 ls >>= fun s => pure (r.1 :: s.1, s.2)) = _ at h
      cases hr : answerAll r.2 ls with
      | error c => rw [hr] at h; cases h
      | ok s =>
        rw [hr] at h
        cases h
        exact answerAll_keeps P hP (hP hm ha) hr

/-- Answering lines keeps the settings. -/
theorem answerAll_settings {m m' : Machine} {ls : List Text} {rs : List Reply}
    (h : answerAll m ls = .ok (rs, m')) : m'.settings = m.settings :=
  answerAll_keeps (·.settings = m.settings) (fun hm ha => (answer_settings ha).trans hm) rfl h

/-- After a reset the machine holds, printed text and trace aside, the fresh machine with its
settings moved past the store it had: the new global scope at the number after its last
scope, and nothing of the fresh store below it. -/
theorem reset_relocated (m : Machine) :
    Machine.Relocated ⟨m.store.frames.size, m.store.objects.size⟩
      (Machine.fresh m.level m.traceFile).clearOutput
      (Machine.clearOutput
        { m with store := (m.store.newFrame none).1, global := m.store.frames.size }) :=
  ⟨Store.Relocated.fresh_newFrame m.store, rfl, Array.map_empty.symm, rfl, rfl,
    (Nat.zero_add _).symm⟩

end Repl

/-- A reset forgets the session. From any machine, the lines after a reset line are answered
as a fresh loop with the same trace settings answers them, whatever the lines before the
reset made: the replies show the text of those to the lines before, the reset's own, and then
the fresh loop's. A line before the reset that fails on the host ends the loop there, and the
session with it. -/
theorem reset_forgets_session (m : Machine) (ls₁ ls₂ : List Text) {reset : Text}
    (hreset : Shell.trim reset = "/reset") :
    (fun r => r.1.map Reply.shown) <$> Repl.answerAll m (ls₁ ++ reset :: ls₂) = (do
      let r ← Repl.answerAll m ls₁
      let s ← Repl.answerAll (Machine.fresh m.level m.traceFile) ls₂
      pure ((r.1 ++ Repl.resetReply :: s.1).map Reply.shown)) := by
  rw [Repl.answerAll_append, map_bind]
  cases h₁ : Repl.answerAll m ls₁ with
  | error c => rfl
  | ok r =>
    -- the lines before the reset keep the settings, so the machine the reset leaves holds the
    -- fresh machine with the settings `m` has, moved past the session's store
    obtain ⟨hl, ht⟩ := Prod.mk.inj (Repl.answerAll_settings h₁)
    have hrest := Repl.answerAll_relocated ls₂ (Repl.reset_relocated r.2)
    show (fun r => r.1.map Reply.shown) <$>
        (Repl.answerAll r.2 (reset :: ls₂) >>= fun s => pure (r.1 ++ s.1, s.2)) =
      (Repl.answerAll (Machine.fresh m.level m.traceFile) ls₂ >>= fun s =>
        pure ((r.1 ++ Repl.resetReply :: s.1).map Reply.shown))
    rw [Repl.answerAll_reset _ _ hreset]
    simp only [bind_assoc, pure_bind, map_bind, map_pure]
    rw [← show r.2.level = m.level from hl, ← show r.2.traceFile = m.traceFile from ht]
    -- the replies after the reset differ from the fresh loop's only in the scopes and
    -- instances their traces name, which no text shows
    refine (hrest.bind_eq fun a b ⟨hab, _⟩ => ?_).symm
    simp only [hab, List.map_append, List.map_cons, List.map_map, Function.comp_def,
      Reply.shown_relocate]

/-- A session that binds a name, resets, and reads the name again answers the reading as a
fresh loop does. -/
theorem reset_then_read :
    Shell.trim "/reset" = "/reset" ∧
    (fun r => r.1.map Reply.shown) <$> Repl.answerAll (Machine.fresh 1 false)
        ([("let x = 1;" : Text)] ++ ("/reset" : Text) :: [("x;" : Text)]) = (do
      let r ← Repl.answerAll (Machine.fresh 1 false) [("let x = 1;" : Text)]
      let s ← Repl.answerAll (Machine.fresh (Machine.fresh 1 false).level
        (Machine.fresh 1 false).traceFile) [("x;" : Text)]
      pure ((r.1 ++ Repl.resetReply :: s.1).map Reply.shown)) :=
  ⟨by decide, reset_forgets_session _ _ _ (by decide)⟩

end Ember
