import Ember.Run
import Ember.Proofs.Invariant
/-!
What can end a run other than its outcome.

A fault of the language never escapes a run: `Program.run` turns it into the outcome
`Outcome.failed`, nesting too deep included. What does escape is a failure of the host
(`Crash`), and only two kinds of it reach a run (`Crash.FromRun`):

* a print template whose width the host's formatting refuses (`Crash.widthOverflow`, a width
  above `2^63 - 1`);
* when the trace goes to a file, a trace line with a lone surrogate, which the file cannot
  take (`Crash.unencodable`).

Main statements:
* `Template.format_host`: filling a template fails with a host failure only at a directive
  whose width is above `maxWidth`, and only with the width failure; with every width at most
  `maxWidth` a print writes its text or stops with a template fault.
* `run_crash_fromRun`: every host failure that ends a run is of the two kinds above.
* `run_crash_is_wide_template_or_trace_refusal`: the host failures that end a run, named:
  the width failure, and a refused trace line only when the trace goes to a file.
* `surrogate_trace_line_escapes_run`: a traced `let` of a text with a lone surrogate ends a
  run that traces to a file with the file's refusal.
* `print_width_escapes_run`: a print with a width of nineteen digits ends the run with a host
  failure rather than with an outcome.
-/

namespace Ember

/-! ### Templates fail on the host only at a wide directive -/

namespace Template

theorem Directive.sized_host {d : Directive} {f : Option Nat → Text} {c : Crash}
    (h : d.sized f = .error (.host c)) :
    c = .widthOverflow ∧ maxWidth < widthValue d.width := by
  unfold Directive.sized at h
  split at h
  · cases h
  · dsimp only at h
    split at h
    · rename_i hw
      cases h
      exact ⟨rfl, hw⟩
    · cases h

theorem Directive.write_host {d : Directive} {v : CodePoint} {arg : Value} {c : Crash}
    (h : d.write v arg = .error (.host c)) :
    c = .widthOverflow ∧ maxWidth < widthValue d.width := by
  unfold Directive.write at h
  split at h
  · split at h
    · exact Directive.sized_host h
    · cases h
  · split at h
    · split at h
      · exact Directive.sized_host h
      · cases h
    · exact Directive.sized_host h

/-- Filling pieces fails with a host failure only at one of their directives, whose width is
above `maxWidth`. -/
theorem fillPieces_host {c : Crash} : ∀ {out : Text} {ps : List Piece} {args : List Value},
    fillPieces out ps args = .error (.host c) →
      c = .widthOverflow ∧ ∃ d, Piece.directive d ∈ ps ∧ maxWidth < widthValue d.width
  | _, [], _, h => by cases h
  | _, .text _ :: _, _, h => by
    rw [fillPieces] at h
    obtain ⟨hc, d, hd, hw⟩ := fillPieces_host h
    exact ⟨hc, d, List.mem_cons_of_mem _ hd, hw⟩
  | _, .directive d :: ps, args, h => by
    -- the failure is in the rest of the pieces, or at this directive's argument
    have hrest : ∀ {out : Text} {args : List Value}, fillPieces out ps args = .error (.host c) →
        c = .widthOverflow ∧
          ∃ d', Piece.directive d' ∈ Piece.directive d :: ps ∧ maxWidth < widthValue d'.width :=
      fun h => by
        obtain ⟨hc, d', hd, hw⟩ := fillPieces_host h
        exact ⟨hc, d', List.mem_cons_of_mem _ hd, hw⟩
    rw [fillPieces] at h
    cases hv : d.verb with
    | none =>
      simp only [hv] at h
      exact hrest h
    | some v =>
      simp only [hv] at h
      split at h
      · exact hrest h
      · split at h
        · cases h
        · cases args with
          | nil => cases h
          | cons a rest =>
            cases hw : d.write v a with
            | error f =>
              simp only [hw] at h
              cases h
              obtain ⟨hc, hwidth⟩ := Directive.write_host hw
              exact ⟨hc, d, List.mem_cons_self, hwidth⟩
            | ok s =>
              simp only [hw] at h
              exact hrest h

/-- Filling a template fails with a host failure only at a directive whose width is above
`maxWidth`, and only because the host's formatting refuses that width. -/
theorem format_host {t : Text} {args : List Value} {c : Crash}
    (h : format t args = .error (.host c)) :
    c = .widthOverflow ∧ ∃ d, Piece.directive d ∈ pieces t ∧ maxWidth < widthValue d.width := by
  unfold format at h
  cases hf : fillPieces [] (pieces t) args with
  | error f =>
    rw [hf] at h
    cases h
    exact fillPieces_host hf
  | ok r =>
    rw [hf] at h
    -- left-over arguments are a fault of the template, not of the host
    have h' : (if r.2.isEmpty = true then .ok r.1 else .error (.unusedArguments r.2.length t) :
        Except Fault Text) = .error (.host c) := h
    split at h' <;> cases h'

end Template

/-! ### The stops a run can end with -/

/-- The host failures that can end a run: a width that the host's formatting refuses, and,
when the trace goes to a file (`toFile`), a trace line that the file cannot take. -/
def Crash.FromRun (toFile : Bool) : Crash → Prop
  | .widthOverflow => True
  | .unencodable _ => toFile = true
  | _ => False

/-- The stops of an evaluation that a run turns into its outcome or passes on: every fault,
and the host failures that can end a run. -/
def Stop.FromRun (toFile : Bool) : Stop → Prop
  | .fault _ => True
  | .crash c => c.FromRun toFile

namespace Eval

/-- Every run of `x` on a machine that traces to a file exactly when `toFile` keeps that, and
stops only with a fault or a host failure that can end a run. -/
def Contained (toFile : Bool) {α : Type} (x : Eval α) : Prop :=
  Holds (·.traceFile = toFile) (Stop.FromRun toFile) (fun _ => True) x

section Primitives

variable {toFile : Bool}

theorem modifyStore_contained (f : Store → Store) : Contained toFile (modifyStore f) :=
  modifyStore_holds fun _ hm => hm

theorem emit_contained (t : Text) : Contained toFile (emit t) :=
  emit_holds fun _ hm => hm

theorem newScope_contained (p : Nat) : Contained toFile (newScope p) :=
  newScope_holds fun _ hm => hm

theorem newObject_contained : Contained toFile newObject :=
  newObject_holds fun _ hm => hm

theorem lookup_contained (env : Nat) (name : Text) :
    Holds (·.traceFile = toFile) (Stop.FromRun toFile) (fun _ => True) (lookup env name) :=
  lookup_holds fun _ _ => trivial

theorem note_contained (e : Event) : Contained toFile (note e) :=
  note_holds (fun _ hm => hm) fun _ hm hfile _ => hm.symm.trans hfile

theorem fail_contained {α : Type} (f : Fault) : Contained toFile (fail f : Eval α) :=
  Holds.fail trivial

theorem pure_contained {α : Type} (a : α) : Contained toFile (Pure.pure a : Eval α) :=
  Holds.pure trivial

theorem lift_contained {α : Type} (r : Except Fault α) : Contained toFile (lift r) :=
  Holds.lift (fun _ => trivial) fun _ _ => trivial

theorem bind_contained {α β : Type} {x : Eval α} {f : α → Eval β} (hx : Contained toFile x)
    (hf : ∀ a, Contained toFile (f a)) : Contained toFile (x >>= f) :=
  Holds.bind hx fun a _ => hf a

/-- A print writes its text, stops with a fault, or stops with the width failure. -/
theorem printValues_contained (vs : List Value) : Contained toFile (printValues vs) := by
  unfold printValues
  split
  · split
    · exact emit_contained _
    · rename_i t args c hc
      exact Holds.throw (by rw [(Template.format_host hc).1]; trivial)
    · exact fail_contained _
  · exact fail_contained _
  · exact pure_contained _

theorem declare_contained (env : Nat) (f : Func) : Contained toFile (declare env f) :=
  bind_contained (modifyStore_contained _) fun _ =>
    bind_contained (note_contained _) fun _ => pure_contained _

theorem declareMethods_contained (env : Nat) :
    ∀ (ms : List Func) (table : List (Text × Closure)),
      Contained toFile (declareMethods env ms table)
  | [], table => pure_contained table
  | m :: ms, _ =>
    bind_contained (declare_contained env m) fun _ => declareMethods_contained env ms _

theorem declareClass_contained (env : Nat) (name : Text) (ms : List Func) :
    Contained toFile (declareClass env name ms) :=
  bind_contained (newScope_contained env) fun scope =>
    bind_contained (declareMethods_contained scope ms []) fun _ =>
      bind_contained (modifyStore_contained _) fun _ =>
        bind_contained (note_contained _) fun _ => pure_contained _

theorem bindMethod_contained (m : Closure) (self : Value) :
    Contained toFile (bindMethod m self) :=
  bind_contained (newScope_contained _) fun _ =>
    bind_contained (modifyStore_contained _) fun _ => pure_contained _

end Primitives

/-! ### The evaluator stops only as a run may -/

/-- With `n` frames left, every part of the evaluator is contained. -/
structure AllContained (toFile : Bool) (n : Nat) : Prop where
  expr : ∀ env e, Contained toFile (expr n env e)
  arguments : ∀ env args, Contained toFile (arguments n env args)
  call : ∀ cl args env, Contained toFile (call n cl args env)
  test : ∀ env c, Contained toFile (test n env c)
  block : ∀ env ss, Contained toFile (block n env ss)
  print : ∀ env args, Contained toFile (print n env args)
  stmt : ∀ env s, Contained toFile (stmt n env s)

namespace AllContained

variable {toFile : Bool} {n : Nat}

theorem zero (toFile : Bool) : AllContained toFile 0 where
  expr _ _ := by simp only [Eval.expr]; exact fail_contained _
  arguments _ _ := by simp only [Eval.arguments]; exact fail_contained _
  call _ _ _ := by simp only [Eval.call]; exact fail_contained _
  test _ _ := by simp only [Eval.test]; exact fail_contained _
  block _ _ := by simp only [Eval.block]; exact fail_contained _
  print _ _ := by simp only [Eval.print]; exact fail_contained _
  stmt _ _ := by simp only [Eval.stmt]; exact fail_contained _

theorem exprs (h : AllContained toFile n) (env : Nat) :
    ∀ es, Contained toFile (Eval.exprs n env es)
  | [] => by simp only [Eval.exprs]; exact pure_contained _
  | e :: es => by
    simp only [Eval.exprs]
    exact bind_contained (h.expr env e) fun _ =>
      bind_contained (h.exprs env es) fun _ => pure_contained _

theorem stmts (h : AllContained toFile n) (env : Nat) :
    ∀ ss last, Contained toFile (Eval.stmts n env last ss)
  | [], _ => by simp only [Eval.stmts]; exact pure_contained _
  | s :: ss, _ => by
    simp only [Eval.stmts]
    refine bind_contained (h.stmt env s) fun c => ?_
    cases c with
    | returned v => exact pure_contained _
    | normal v => exact h.stmts env ss v

theorem loop (h : AllContained toFile n) (env : Nat) (c : Expr) (body : Stmt) :
    ∀ j last, Contained toFile (Eval.loop n env c body last j)
  | 0, _ => by simp only [Eval.loop]; exact fail_contained _
  | j + 1, last => by
    simp only [Eval.loop]
    refine bind_contained (h.test env c) fun b => ?_
    cases b with
    | false => exact pure_contained _
    | true =>
      refine bind_contained (h.stmt env body) fun r => ?_
      cases r with
      | returned v => exact pure_contained _
      | normal v => exact h.loop env c body j v

/-- An expression stops as its parts do; a call of a class notes the new instance. -/
theorem expr_succ (h : AllContained toFile n) (env : Nat) :
    ∀ e, Contained toFile (Eval.expr (n + 1) env e) := by
  intro e
  cases e with
  | literal s => simp only [Eval.expr]; exact pure_contained _
  | var x =>
    simp only [Eval.expr]
    refine bind_contained (lookup_contained env _) fun o => ?_
    cases o with
    | some v => exact pure_contained v
    | none => exact fail_contained _
  | group x => simp only [Eval.expr]; exact h.expr env x
  | assign x v =>
    simp only [Eval.expr]
    exact bind_contained (h.expr env v) fun _ =>
      bind_contained (modifyStore_contained _) fun _ => pure_contained _
  | binary op lx l r =>
    simp only [Eval.expr]
    exact bind_contained (h.expr env l) fun _ =>
      bind_contained (h.expr env r) fun _ => lift_contained _
  | logical op lx l r =>
    simp only [Eval.expr]
    exact bind_contained (h.expr env l) fun _ =>
      bind_contained (h.expr env r) fun _ => lift_contained _
  | unary op lx x =>
    simp only [Eval.expr]
    exact bind_contained (h.expr env x) fun _ => lift_contained _
  | call c args =>
    simp only [Eval.expr]
    refine bind_contained (h.expr env c) fun f => ?_
    split
    · exact h.call _ args env
    · split
      · exact bind_contained (note_contained _) fun _ =>
          bind_contained newObject_contained fun _ => pure_contained _
      · exact fail_contained _
    · exact fail_contained _
  | getField t x =>
    simp only [Eval.expr]
    refine bind_contained (h.expr env t) fun v => ?_
    split
    · refine Holds.bind Holds.get fun _ _ => ?_
      split
      · exact pure_contained _
      · split
        · exact bindMethod_contained _ _
        · exact fail_contained _
    · exact fail_contained _
  | setField t x e =>
    simp only [Eval.expr]
    refine bind_contained (h.expr env t) fun v => ?_
    split
    · exact bind_contained (h.expr env e) fun _ =>
        bind_contained (modifyStore_contained _) fun _ => pure_contained _
    · exact fail_contained _
  | thisRef =>
    simp only [Eval.expr]
    refine bind_contained (lookup_contained env _) fun o => ?_
    cases o with
    | some v => exact pure_contained v
    | none => exact fail_contained _

theorem call_succ (h : AllContained toFile n) (cl : Closure) (args : List Expr) (env : Nat) :
    Contained toFile (Eval.call (n + 1) cl args env) := by
  simp only [Eval.call]
  split
  · exact fail_contained _
  · refine bind_contained (h.arguments env args) fun vals => ?_
    refine bind_contained (newScope_contained _) fun scope => ?_
    refine bind_contained (modifyStore_contained _) fun _ => ?_
    refine bind_contained (note_contained _) fun _ => ?_
    refine bind_contained (h.stmt scope _) fun c => ?_
    split <;> exact pure_contained _

/-- A statement stops as its parts do; declarations and `let` note their trace events. -/
theorem stmt_succ (h : AllContained toFile n) (env : Nat) :
    ∀ s, Contained toFile (Eval.stmt (n + 1) env s) := by
  intro s
  cases s with
  | expr e =>
    simp only [Eval.stmt]
    exact bind_contained (h.expr env e) fun _ => pure_contained _
  | letDecl x init =>
    have hbind : ∀ v : Value, Contained toFile (do
        modifyStore (·.define env x.display v)
        note (.bind x.display v)
        Pure.pure (Completion.normal (some v)) : Eval Completion) := fun _ =>
      bind_contained (modifyStore_contained _) fun _ =>
        bind_contained (note_contained _) fun _ => pure_contained _
    cases init with
    | some e =>
      simp only [Eval.stmt]
      exact bind_contained (h.expr env e) hbind
    | none =>
      simp only [Eval.stmt]
      exact bind_contained (pure_contained _) hbind
  | block ss =>
    simp only [Eval.stmt]
    exact bind_contained (newScope_contained env) fun scope => h.block scope ss
  | funDecl f =>
    simp only [Eval.stmt]
    exact bind_contained (declare_contained env f) fun _ => pure_contained _
  | classDecl x ms =>
    simp only [Eval.stmt]
    exact bind_contained (declareClass_contained env _ ms) fun _ => pure_contained _
  | ifElse c yes no =>
    cases no with
    | some t =>
      simp only [Eval.stmt]
      refine bind_contained (h.test env c) fun b => bind_contained (note_contained _) fun _ => ?_
      cases b with
      | true => exact h.stmt env yes
      | false => exact h.stmt env t
    | none =>
      simp only [Eval.stmt]
      refine bind_contained (h.test env c) fun b => bind_contained (note_contained _) fun _ => ?_
      cases b with
      | true => exact h.stmt env yes
      | false => exact pure_contained _
  | whileLoop c body =>
    simp only [Eval.stmt]
    exact h.loop env c body _ _
  | ret v =>
    cases v with
    | some e =>
      simp only [Eval.stmt]
      exact bind_contained (h.expr env e) fun _ => pure_contained _
    | none =>
      simp only [Eval.stmt]
      exact bind_contained (pure_contained _) fun _ => pure_contained _
  | print args =>
    simp only [Eval.stmt]
    exact bind_contained (h.print env args) fun _ => pure_contained _

theorem succ (h : AllContained toFile n) : AllContained toFile (n + 1) where
  expr env := h.expr_succ env
  arguments env args := by simp only [Eval.arguments]; exact h.exprs env args
  call cl args env := h.call_succ cl args env
  test env c := by
    simp only [Eval.test]
    refine bind_contained (h.expr env c) fun v => ?_
    split
    · exact pure_contained _
    · exact fail_contained _
  block env ss := by simp only [Eval.block]; exact h.stmts env ss none
  print env args := by
    simp only [Eval.print]
    exact bind_contained (h.arguments env args) fun vals => printValues_contained vals
  stmt env := h.stmt_succ env

end AllContained

/-- Whatever frames are left, every part of the evaluator is contained. The induction is on
the frames left. -/
theorem allContained (toFile : Bool) : ∀ n, AllContained toFile n
  | 0 => AllContained.zero toFile
  | n + 1 => (allContained toFile n).succ

end Eval

/-! ### Runs of programs -/

namespace Program

open Eval

/-- A top-level statement's fault becomes the outcome, after its trace event; its host
failures pass on. -/
theorem runStmts_contained {toFile : Bool} :
    ∀ (env : Nat) (ss : List Stmt) (last : Option Value), Contained toFile (runStmts env ss last)
  | _, [], last => by simp only [runStmts]; exact pure_contained _
  | env, s :: ss, _ => by
    simp only [runStmts]
    -- a fault is caught and becomes a value; a host failure is thrown again
    refine bind_contained (Holds.tryCatch (Holds.map
      ((allContained toFile nestingLimit).stmt env s) fun _ _ => trivial)
      fun e he => ?_) fun r => ?_
    · cases e with
      | fault f => exact pure_contained _
      | crash c => exact Holds.throw he
    · cases r with
      | inl f =>
        dsimp only
        split
        · exact bind_contained (note_contained _) fun _ => pure_contained _
        · exact pure_contained _
      | inr c =>
        cases c with
        | returned v => exact pure_contained _
        | normal v => exact runStmts_contained env ss v

end Program

/-- Every host failure that ends a run is a width in a print template that the host's
formatting refuses, or, when the trace goes to a file, a trace line the file cannot take: a
fault of the language, nesting too deep included, never escapes. -/
theorem Program.run_crash_fromRun (p : Program) (m : Machine) {c : Crash}
    (h : p.run m = .error c) : c.FromRun m.traceFile := by
  unfold Program.run Program.runIn at h
  have hs := Program.runStmts_contained Store.global p.body none m
    (rfl : m.traceFile = m.traceFile)
  split at h
  · cases h
  · rename_i c' m' hr
    cases h
    rw [hr] at hs
    exact hs.1
  · cases h

theorem Crash.fromRun_iff {toFile : Bool} {c : Crash} :
    c.FromRun toFile ↔ c = .widthOverflow ∨ (toFile = true ∧ ∃ r, c = .unencodable r) := by
  cases c <;> simp [Crash.FromRun]

/-- A run fails on the host only through a wide template or a refused trace line: it ends
with its outcome, faults and nesting too deep included, unless a print's template has a
directive of a width the host's formatting refuses (`Template.format_host`), or, with a trace
file, a trace line with a lone surrogate stops it. The modelled host has memory for every
narrower padding, so no run runs out of it. -/
theorem run_crash_is_wide_template_or_trace_refusal (p : Program) (m : Machine) (c : Crash)
    (h : p.run m = .error c) :
    c = .widthOverflow ∨ c = .outOfMemory ∨ (m.traceFile = true ∧ ∃ r, c = .unencodable r) :=
  (Crash.fromRun_iff.1 (Program.run_crash_fromRun p m h)).imp_right .inr

/-- A computation on concrete data is seen to fail with `e` by evaluating the error it
gives. -/
theorem eq_error_of_error? {ε α : Type} {x : Except ε α} {e : ε}
    (h : (match x with | .error e' => some e' | .ok _ => none) = some e) : x = .error e := by
  cases x with
  | ok _ => cases h
  | error e' =>
    cases h
    rfl

/-- A `let` of a text with a lone surrogate, traced to a file at level 2, ends the run with
the file's refusal of the trace line, one of the host failures a run can end with. -/
theorem surrogate_trace_line_escapes_run :
    Program.run ⟨[.letDecl (.text (Text.ofString "x")) (some (.literal (.text [.surrogate 0])))]⟩
        (Machine.fresh 2 true) = .error (.unencodable ⟨8, 8, .surrogate 0⟩) ∧
    (Crash.unencodable ⟨8, 8, .surrogate 0⟩ = .widthOverflow ∨
      Crash.unencodable ⟨8, 8, .surrogate 0⟩ = .outOfMemory ∨
      ((Machine.fresh 2 true).traceFile = true ∧
        ∃ r, Crash.unencodable ⟨8, 8, .surrogate 0⟩ = .unencodable r)) := by
  have hr : Program.run
      ⟨[.letDecl (.text (Text.ofString "x")) (some (.literal (.text [.surrogate 0])))]⟩
        (Machine.fresh 2 true) = .error (.unencodable ⟨8, 8, .surrogate 0⟩) := by
    apply eq_error_of_error?
    simp only [Program.run, Program.runIn, Program.runStmts, nestingLimit, Eval.stmt, Eval.expr,
      Value.ofScalar]
    decide +kernel
  exact ⟨hr, run_crash_is_wide_template_or_trace_refusal _ _ _ hr⟩

/-- A print whose width has nineteen digits, beyond the largest 64-bit integer, does not end
the run with an outcome: the host's refusal of the width escapes it. -/
theorem print_width_escapes_run :
    Program.run ⟨[.print [.literal (.text (Text.ofString "%9999999999999999999d")),
      .literal (.int 1)]]⟩ (Machine.fresh 0 false) = .error .widthOverflow := by
  apply eq_error_of_error?
  simp only [Program.run, Program.runIn, Program.runStmts, nestingLimit, Eval.stmt, Eval.print,
    Eval.arguments, Eval.exprs, Eval.expr, Value.ofScalar]
  decide +kernel

end Ember
