import Ember.Run
import Ember.Syntax.Source
import Ember.Proofs.Invariant
import Ember.Proofs.Provenance
import Ember.Proofs.Words
import Ember.Proofs.TokenSpelling
/-!
Every integer a run meets is a 64-bit word.

An integer enters a run in two ways: as a constant written in the program, and as the value of
an operator. The scanner gives number tokens payloads of at most `2^63 - 1`
(`Token.scan_payloads`), the reader takes every constant of a program from a payload
(`Program.ofTokens_literals`), and an operator gives only integers in the range
(`BinOp.apply_shape`). A run keeps the range as an invariant of the machine (`Machine.InRange`):
every value bound in a scope, held in a field or reported in the trace is in range, and so is
the code of every function a value holds, since calling it meets the constants written in it.
The evaluator keeps the invariant and gives values in range (`Eval.allInRange`, by induction on
the frames left), so a run of a program read from text ends in range
(`Program.run_ofSource_inRange`).
-/

namespace Ember

open Arith

/-! ### Being in range -/

/-- A constant is in range when it is no integer or an integer in the 64-bit range. -/
def Scalar.InRange : Scalar → Prop
  | .int n => Arith.InRange n
  | _ => True

instance Scalar.decInRange : (s : Scalar) → Decidable s.InRange
  | .int n => inferInstanceAs (Decidable (Arith.InRange n))
  | .null | .bool _ | .text _ => isTrue trivial

/-- Every integer constant of the list is in range. -/
def Scalar.AllInRange (l : List Scalar) : Prop := ∀ s ∈ l, s.InRange

instance (l : List Scalar) : Decidable (Scalar.AllInRange l) :=
  inferInstanceAs (Decidable (∀ s ∈ l, s.InRange))

/-- The code of a closure has its integer constants in range. -/
def Closure.InRange (c : Closure) : Prop := Scalar.AllInRange c.decl.literals

/-- The code of every method of a class has its integer constants in range. -/
def ClassDef.InRange (k : ClassDef) : Prop := ∀ p ∈ k.methods, p.2.InRange

/-- A value is in range: an integer in the 64-bit range, or a function, class or instance
whose code is in range. -/
def Value.InRange : Value → Prop
  | .int n => Arith.InRange n
  | .fn c => c.InRange
  | .cls k => k.InRange
  | .obj _ k => k.InRange
  | _ => True

/-- Every bound value is in range. -/
def Bindings.InRange (bs : Bindings) : Prop := ∀ p ∈ bs, p.2.InRange

/-- Every value bound in a scope or held in a field of an instance is in range. -/
structure Store.InRange (s : Store) : Prop where
  frames : ∀ (i : Nat) (f : Frame), s.frames[i]? = some f → f.vars.InRange
  objects : ∀ (r : Nat) (fs : Bindings), s.objects[r]? = some fs → fs.InRange

/-- Every value an event reports is in range. -/
def Event.InRange : Event → Prop
  | .bind _ v => v.InRange
  | .call _ args => ∀ v ∈ args, v.InRange
  | _ => True

/-- Every value in the store and in the trace is in range. -/
structure Machine.InRange (m : Machine) : Prop where
  store : m.store.InRange
  trace : ∀ e ∈ m.trace, e.InRange

/-- The value a statement gives or returns is in range. -/
def Completion.InRange : Completion → Prop
  | .normal v => ∀ w ∈ v, w.InRange
  | .returned v => v.InRange

/-- The value a run ends with is in range. -/
def Outcome.InRange : Outcome → Prop
  | .done v => ∀ w ∈ v, w.InRange
  | .failed _ => True

theorem Value.inRange_ofScalar {s : Scalar} (h : s.InRange) : (Value.ofScalar s).InRange := by
  cases s <;> exact h

/-- Every value an operator gives is in range. -/
theorem BinOp.apply_value_inRange {op : BinOp} {a b v : Value} (h : op.apply a b = .ok v) :
    v.InRange := by
  rcases BinOp.apply_shape h with ⟨n, rfl, hn⟩ | ⟨x, rfl⟩ | ⟨t, rfl⟩
  · exact hn
  · trivial
  · trivial

theorem UnaryOp.apply_value_inRange {op : UnaryOp} {a v : Value} (h : op.apply a = .ok v) :
    v.InRange := by
  rcases UnaryOp.apply_shape h with ⟨n, rfl, hn⟩ | ⟨x, rfl⟩
  · exact hn
  · trivial

theorem LogicOp.apply_value_inRange {op : LogicOp} {a b v : Value} (h : op.apply a b = .ok v) :
    v.InRange := by
  obtain ⟨x, rfl⟩ := LogicOp.apply_shape h
  trivial

theorem Scalar.AllInRange.left {l₁ l₂ : List Scalar} (h : Scalar.AllInRange (l₁ ++ l₂)) :
    Scalar.AllInRange l₁ :=
  fun s hs => h s (List.mem_append_left l₂ hs)

theorem Scalar.AllInRange.right {l₁ l₂ : List Scalar} (h : Scalar.AllInRange (l₁ ++ l₂)) :
    Scalar.AllInRange l₂ :=
  fun s hs => h s (List.mem_append_right l₁ hs)

theorem Func.literals_eq (f : Func) : f.literals = Stmt.listLiterals f.body := by
  cases f
  rfl

/-! ### The store keeps values in range -/

namespace Bindings

theorem InRange.get? {bs : Bindings} (h : bs.InRange) {name : Text} {v : Value}
    (hv : bs.get? name = some v) : v.InRange := by
  unfold Bindings.get? at hv
  obtain ⟨p, hp, rfl⟩ := Option.map_eq_some_iff.1 hv
  exact h p (List.mem_of_find?_eq_some hp)

theorem InRange.set {bs : Bindings} (h : bs.InRange) (name : Text) {v : Value}
    (hv : v.InRange) : (bs.set name v).InRange := by
  unfold Bindings.set
  split
  · intro p hp
    obtain ⟨b, hb, rfl⟩ := List.mem_map.1 hp
    split
    · exact hv
    · exact h b hb
  · intro p hp
    rcases List.mem_append.1 hp with hp | hp
    · exact h p hp
    · rw [List.mem_singleton.1 hp]
      exact hv

end Bindings

namespace Store

variable {s : Store}

theorem InRange.vars (h : s.InRange) (i : Nat) : (s.vars i).InRange := by
  unfold Store.vars
  split
  · exact h.frames i _ ‹_›
  · intro p hp
    cases hp

theorem InRange.lookup (h : s.InRange) {i : Nat} {name : Text} {v : Value}
    (hv : s.lookup i name = some v) : v.InRange := by
  unfold Store.lookup at hv
  obtain ⟨j, -, hj⟩ := Option.bind_eq_some_iff.1 hv
  exact (h.vars j).get? hj

theorem InRange.fields (h : s.InRange) (r : Nat) : (s.fields r).InRange := by
  unfold Store.fields
  cases hr : s.objects[r]? with
  | none =>
    intro p hp
    cases hp
  | some fs => exact h.objects r fs hr

theorem InRange.define (h : s.InRange) (i : Nat) (name : Text) {v : Value} (hv : v.InRange) :
    (s.define i name v).InRange := by
  obtain ⟨frames, objects⟩ := s
  refine ⟨fun j f hf => ?_, h.objects⟩
  simp only [Store.define, Array.getElem?_modify] at hf
  split at hf
  · obtain ⟨⟨p, vars⟩, hg, rfl⟩ := Option.map_eq_some_iff.1 hf
    exact (h.frames j _ hg).set name hv
  · exact h.frames j f hf

theorem InRange.assign (h : s.InRange) (i : Nat) (name : Text) {v : Value} (hv : v.InRange) :
    (s.assign i name v).InRange :=
  h.define _ name hv

theorem InRange.child (h : s.InRange) (p : Nat) : (s.child p).1.InRange := by
  obtain ⟨frames, objects⟩ := s
  refine ⟨fun j f hf => ?_, h.objects⟩
  simp only [Store.child, Store.newFrame, Array.getElem?_push] at hf
  split at hf
  · -- the new scope binds nothing
    cases hf
    intro q hq
    cases hq
  · exact h.frames j f hf

theorem InRange.newObject (h : s.InRange) : s.newObject.1.InRange := by
  obtain ⟨frames, objects⟩ := s
  refine ⟨h.frames, fun r fs hfs => ?_⟩
  simp only [Store.newObject, Array.getElem?_push] at hfs
  split at hfs
  · cases hfs
    intro q hq
    cases hq
  · exact h.objects r fs hfs

theorem InRange.setField (h : s.InRange) (r : Nat) (name : Text) {v : Value} (hv : v.InRange) :
    (s.setField r name v).InRange := by
  obtain ⟨frames, objects⟩ := s
  refine ⟨h.frames, fun j fs hfs => ?_⟩
  simp only [Store.setField, Array.getElem?_modify] at hfs
  split at hfs
  · obtain ⟨fs', hg, rfl⟩ := Option.map_eq_some_iff.1 hfs
    exact (h.objects j _ hg).set name hv
  · exact h.objects j fs hfs

/-- Binding parameters to values in range keeps the store in range. -/
theorem InRange.bindAll (scope : Nat) :
    ∀ (pvs : List (Scalar × Value)) {s : Store}, s.InRange → (∀ pv ∈ pvs, pv.2.InRange) →
      (pvs.foldl (fun s (p, v) => s.define scope p.display v) s).InRange
  | [], _, h, _ => h
  | pv :: pvs, _, h, hv =>
    InRange.bindAll scope pvs (h.define scope _ (hv pv List.mem_cons_self))
      fun q hq => hv q (List.mem_cons_of_mem pv hq)

end Store

/-- A method found in a class whose code is in range has its code in range. -/
theorem ClassDef.InRange.lookup {k : ClassDef} (h : k.InRange) {name : Text} {m : Closure}
    (hm : k.methods.lookup name = some m) : m.InRange := by
  obtain ⟨kname, methods, scope⟩ := k
  induction methods with
  | nil => cases hm
  | cons p ps ih =>
    rw [List.lookup_cons] at hm
    split at hm
    · cases hm
      exact h p List.mem_cons_self
    · exact ih (fun q hq => h q (List.mem_cons_of_mem p hq)) hm

/-! ### The evaluator keeps values in range -/

namespace Eval

/-- Every run of `x` from a machine in range ends in a machine in range, with a value
satisfying `Q` when it goes through. -/
def Ranged {α : Type} (Q : α → Prop) (x : Eval α) : Prop :=
  Holds Machine.InRange (fun _ => True) Q x

section Primitives

theorem modifyStore_ranged {f : Store → Store} (hf : ∀ s : Store, s.InRange → (f s).InRange) :
    Ranged (fun _ => True) (modifyStore f) :=
  modifyStore_holds fun _ hm => ⟨hf _ hm.store, hm.trace⟩

theorem emit_ranged (t : Text) : Ranged (fun _ => True) (emit t) :=
  emit_holds fun _ hm => ⟨hm.store, hm.trace⟩

theorem newScope_ranged (p : Nat) : Ranged (fun _ => True) (newScope p) :=
  newScope_holds fun _ hm => ⟨hm.store.child p, hm.trace⟩

theorem newObject_ranged : Ranged (fun _ => True) newObject :=
  newObject_holds fun _ hm => ⟨hm.store.newObject, hm.trace⟩

theorem lookup_ranged (env : Nat) (name : Text) :
    Ranged (fun o => ∀ v ∈ o, v.InRange) (lookup env name) :=
  lookup_holds fun _ hm _ hv => hm.store.lookup hv

theorem note_ranged {e : Event} (he : e.InRange) : Ranged (fun _ => True) (note e) :=
  note_holds (fun _ hm => ⟨hm.store, fun e' he' => by
    rcases Array.mem_push.1 he' with he' | rfl
    · exact hm.trace e' he'
    · exact he⟩) fun _ _ _ _ => trivial

theorem printValues_ranged (vs : List Value) : Ranged (fun _ => True) (printValues vs) := by
  unfold printValues
  split
  · split
    · exact emit_ranged _
    · exact Holds.throw trivial
    · exact Holds.fail trivial
  · exact Holds.fail trivial
  · exact Holds.pure trivial

theorem declare_ranged (env : Nat) {f : Func} (hf : Scalar.AllInRange f.literals) :
    Ranged Closure.InRange (declare env f) :=
  Holds.bind (modifyStore_ranged fun _ hs => hs.define env _ hf) fun _ _ =>
    Holds.bind (note_ranged trivial) fun _ _ => Holds.pure hf

theorem setMethod_inRange {table : List (Text × Closure)} (ht : ∀ p ∈ table, p.2.InRange)
    (name : Text) {c : Closure} (hc : c.InRange) : ∀ p ∈ setMethod table name c, p.2.InRange := by
  unfold setMethod
  split
  · intro p hp
    obtain ⟨q, hq, rfl⟩ := List.mem_map.1 hp
    split
    · exact hc
    · exact ht q hq
  · intro p hp
    rcases List.mem_append.1 hp with hp | hp
    · exact ht p hp
    · rw [List.mem_singleton.1 hp]
      exact hc

theorem declareMethods_ranged (env : Nat) :
    ∀ (ms : List Func) (table : List (Text × Closure)), Scalar.AllInRange (Func.listLiterals ms) →
      (∀ p ∈ table, p.2.InRange) →
        Ranged (fun t => ∀ p ∈ t, p.2.InRange) (declareMethods env ms table)
  | [], _, _, ht => Holds.pure ht
  | _ :: ms, _, hms, ht =>
    Holds.bind (declare_ranged env hms.left) fun _ hc =>
      declareMethods_ranged env ms _ hms.right (setMethod_inRange ht _ hc)

theorem declareClass_ranged (env : Nat) (name : Text) {ms : List Func}
    (hms : Scalar.AllInRange (Func.listLiterals ms)) :
    Ranged ClassDef.InRange (declareClass env name ms) :=
  Holds.bind (newScope_ranged env) fun _ _ =>
    Holds.bind (declareMethods_ranged _ ms [] hms fun _ h => absurd h List.not_mem_nil) fun _ ht =>
      Holds.bind (modifyStore_ranged fun _ hs => hs.define env name ht) fun _ _ =>
        Holds.bind (note_ranged trivial) fun _ _ => Holds.pure ht

theorem bindMethod_ranged {m : Closure} (hm : m.InRange) {self : Value} (hs : self.InRange) :
    Ranged Value.InRange (bindMethod m self) :=
  Holds.bind (newScope_ranged _) fun _ _ =>
    Holds.bind (modifyStore_ranged fun _ h => h.define _ _ hs) fun _ _ => Holds.pure hm

end Primitives

/-- With `n` frames left, every part of the evaluator run on code in range keeps the machine in
range and gives values in range. -/
structure AllInRange (n : Nat) : Prop where
  expr : ∀ env e, Scalar.AllInRange e.literals → Ranged Value.InRange (expr n env e)
  arguments : ∀ env args, Scalar.AllInRange (Expr.listLiterals args) →
    Ranged (fun vs => ∀ v ∈ vs, Value.InRange v) (arguments n env args)
  call : ∀ cl args env, cl.InRange → Scalar.AllInRange (Expr.listLiterals args) →
    Ranged Value.InRange (call n cl args env)
  test : ∀ env c, Scalar.AllInRange c.literals → Ranged (fun _ => True) (test n env c)
  block : ∀ env ss, Scalar.AllInRange (Stmt.listLiterals ss) →
    Ranged Completion.InRange (block n env ss)
  print : ∀ env args, Scalar.AllInRange (Expr.listLiterals args) →
    Ranged (fun _ => True) (print n env args)
  stmt : ∀ env s, Scalar.AllInRange s.literals → Ranged Completion.InRange (stmt n env s)

namespace AllInRange

variable {n : Nat}

theorem zero : AllInRange 0 where
  expr _ _ _ := by simp only [Eval.expr]; exact Holds.fail trivial
  arguments _ _ _ := by simp only [Eval.arguments]; exact Holds.fail trivial
  call _ _ _ _ _ := by simp only [Eval.call]; exact Holds.fail trivial
  test _ _ _ := by simp only [Eval.test]; exact Holds.fail trivial
  block _ _ _ := by simp only [Eval.block]; exact Holds.fail trivial
  print _ _ _ := by simp only [Eval.print]; exact Holds.fail trivial
  stmt _ _ _ := by simp only [Eval.stmt]; exact Holds.fail trivial

theorem exprs (h : AllInRange n) (env : Nat) :
    ∀ es, Scalar.AllInRange (Expr.listLiterals es) →
      Ranged (fun vs => ∀ v ∈ vs, Value.InRange v) (Eval.exprs n env es)
  | [], _ => by
    simp only [Eval.exprs]
    exact Holds.pure fun _ h => absurd h List.not_mem_nil
  | e :: es, hc => by
    simp only [Eval.exprs]
    refine Holds.bind (h.expr env e hc.left) fun v hv =>
      Holds.bind (h.exprs env es hc.right) fun vs hvs => Holds.pure ?_
    intro w hw
    rcases List.mem_cons.1 hw with rfl | hw
    · exact hv
    · exact hvs w hw

theorem stmts (h : AllInRange n) (env : Nat) :
    ∀ ss last, Scalar.AllInRange (Stmt.listLiterals ss) → (∀ w ∈ last, Value.InRange w) →
      Ranged Completion.InRange (Eval.stmts n env last ss)
  | [], _, _, hl => by
    simp only [Eval.stmts]
    exact Holds.pure hl
  | s :: ss, _, hc, _ => by
    simp only [Eval.stmts]
    refine Holds.bind (h.stmt env s hc.left) fun c hc' => ?_
    cases c with
    | returned v => exact Holds.pure hc'
    | normal v => exact h.stmts env ss v hc.right hc'

theorem loop (h : AllInRange n) (env : Nat) {c : Expr} {body : Stmt}
    (hc : Scalar.AllInRange c.literals) (hb : Scalar.AllInRange body.literals) :
    ∀ j last, (∀ w ∈ last, Value.InRange w) → Ranged Completion.InRange (Eval.loop n env c body last j)
  | 0, _, _ => by
    simp only [Eval.loop]
    exact Holds.fail trivial
  | j + 1, _, hl => by
    simp only [Eval.loop]
    refine Holds.bind (h.test env c hc) fun b _ => ?_
    cases b with
    | false => exact Holds.pure hl
    | true =>
      refine Holds.bind (h.stmt env body hb) fun r hr => ?_
      cases r with
      | returned v => exact Holds.pure hr
      | normal v => exact h.loop env hc hb j v hr

theorem expr_succ (h : AllInRange n) (env : Nat) :
    ∀ e, Scalar.AllInRange e.literals → Ranged Value.InRange (Eval.expr (n + 1) env e) := by
  intro e hc
  cases e with
  | literal s =>
    simp only [Eval.expr]
    exact Holds.pure (Value.inRange_ofScalar (hc s (List.mem_singleton_self s)))
  | var x =>
    simp only [Eval.expr]
    refine Holds.bind (lookup_ranged env _) fun o ho => ?_
    cases o with
    | some v => exact Holds.pure (ho v rfl)
    | none => exact Holds.fail trivial
  | group x =>
    simp only [Eval.expr]
    exact h.expr env x hc
  | assign x v =>
    simp only [Eval.expr]
    exact Holds.bind (h.expr env v hc) fun _ hv =>
      Holds.bind (modifyStore_ranged fun _ hs => hs.assign env _ hv) fun _ _ => Holds.pure hv
  | binary op lx l r =>
    simp only [Eval.expr]
    exact Holds.bind (h.expr env l hc.left) fun _ _ =>
      Holds.bind (h.expr env r hc.right) fun _ _ =>
        Holds.lift (fun _ => trivial) fun _ ha => BinOp.apply_value_inRange ha
  | logical op lx l r =>
    simp only [Eval.expr]
    exact Holds.bind (h.expr env l hc.left) fun _ _ =>
      Holds.bind (h.expr env r hc.right) fun _ _ =>
        Holds.lift (fun _ => trivial) fun _ ha => LogicOp.apply_value_inRange ha
  | unary op lx x =>
    simp only [Eval.expr]
    exact Holds.bind (h.expr env x hc) fun _ _ =>
      Holds.lift (fun _ => trivial) fun _ ha => UnaryOp.apply_value_inRange ha
  | call c args =>
    simp only [Eval.expr]
    refine Holds.bind (h.expr env c hc.left) fun f hf => ?_
    split
    · exact h.call _ args env hf hc.right
    · -- a class called without arguments makes an instance of it
      split
      · exact Holds.bind (note_ranged trivial) fun _ _ =>
          Holds.bind newObject_ranged fun _ _ => Holds.pure hf
      · exact Holds.fail trivial
    · exact Holds.fail trivial
  | getField t x =>
    simp only [Eval.expr]
    refine Holds.bind (h.expr env t hc) fun v hv => ?_
    split
    · rename_i r k
      refine Holds.bind Holds.get fun m hm => ?_
      split
      · -- a field holds a value of the store
        rename_i fv hfv
        exact Holds.pure ((hm.store.fields r).get? hfv)
      · split
        · rename_i meth hmeth
          exact bindMethod_ranged (ClassDef.InRange.lookup hv hmeth) hv
        · exact Holds.fail trivial
    · exact Holds.fail trivial
  | setField t x e =>
    simp only [Eval.expr]
    refine Holds.bind (h.expr env t hc.left) fun v _ => ?_
    split
    · exact Holds.bind (h.expr env e hc.right) fun _ hval =>
        Holds.bind (modifyStore_ranged fun _ hs => hs.setField _ _ hval) fun _ _ =>
          Holds.pure hval
    · exact Holds.fail trivial
  | thisRef =>
    simp only [Eval.expr]
    refine Holds.bind (lookup_ranged env _) fun o ho => ?_
    cases o with
    | some v => exact Holds.pure (ho v rfl)
    | none => exact Holds.fail trivial

/-- A call binds values in range and runs code in range. -/
theorem call_succ (h : AllInRange n) {cl : Closure} (hcl : cl.InRange) {args : List Expr}
    (hargs : Scalar.AllInRange (Expr.listLiterals args)) (env : Nat) :
    Ranged Value.InRange (Eval.call (n + 1) cl args env) := by
  simp only [Eval.call]
  split
  · exact Holds.fail trivial
  · refine Holds.bind (h.arguments env args hargs) fun vals hvals => ?_
    refine Holds.bind (newScope_ranged _) fun scope _ => ?_
    refine Holds.bind (modifyStore_ranged fun _ hs =>
      hs.bindAll scope _ fun pv hpv => hvals pv.2 (List.of_mem_zip hpv).2) fun _ _ => ?_
    refine Holds.bind (note_ranged hvals) fun _ _ => ?_
    have hbody : Scalar.AllInRange (Stmt.block cl.decl.body).literals := by
      have hcode : Scalar.AllInRange cl.decl.literals := hcl
      rwa [Func.literals_eq] at hcode
    refine Holds.bind (h.stmt scope _ hbody) fun c hc => ?_
    split
    · exact Holds.pure hc
    · exact Holds.pure (hc _ rfl)
    · exact Holds.pure trivial

theorem stmt_succ (h : AllInRange n) (env : Nat) :
    ∀ s, Scalar.AllInRange s.literals → Ranged Completion.InRange (Eval.stmt (n + 1) env s) := by
  intro s hc
  cases s with
  | expr e =>
    simp only [Eval.stmt]
    exact Holds.bind (h.expr env e hc) fun _ hv => Holds.pure fun _ hw => by cases hw; exact hv
  | letDecl x init =>
    have hbind : ∀ v : Value, v.InRange → Ranged Completion.InRange (do
        modifyStore (·.define env x.display v)
        note (.bind x.display v)
        Pure.pure (Completion.normal (some v)) : Eval Completion) := fun _ hv =>
      Holds.bind (modifyStore_ranged fun _ hs => hs.define env _ hv) fun _ _ =>
        Holds.bind (note_ranged hv) fun _ _ => Holds.pure fun _ hw => by cases hw; exact hv
    cases init with
    | some e =>
      simp only [Eval.stmt]
      exact Holds.bind (h.expr env e hc) hbind
    | none =>
      simp only [Eval.stmt]
      exact Holds.bind (Holds.pure trivial) hbind
  | block ss =>
    simp only [Eval.stmt]
    exact Holds.bind (newScope_ranged env) fun scope _ => h.block scope ss hc
  | funDecl f =>
    simp only [Eval.stmt]
    exact Holds.bind (declare_ranged env hc) fun _ hcl =>
      Holds.pure fun _ hw => by cases hw; exact hcl
  | classDecl x ms =>
    simp only [Eval.stmt]
    exact Holds.bind (declareClass_ranged env _ hc) fun _ hk =>
      Holds.pure fun _ hw => by cases hw; exact hk
  | ifElse c yes no =>
    cases no with
    | some t =>
      simp only [Eval.stmt]
      refine Holds.bind (h.test env c hc.left.left) fun b _ =>
        Holds.bind (note_ranged trivial) fun _ _ => ?_
      cases b with
      | true => exact h.stmt env yes hc.left.right
      | false => exact h.stmt env t hc.right
    | none =>
      simp only [Eval.stmt]
      refine Holds.bind (h.test env c hc.left.left) fun b _ =>
        Holds.bind (note_ranged trivial) fun _ _ => ?_
      cases b with
      | true => exact h.stmt env yes hc.left.right
      | false => exact Holds.pure fun w hw => absurd hw (Option.not_mem_none w)
  | whileLoop c body =>
    simp only [Eval.stmt]
    exact h.loop env hc.left hc.right _ _ fun w hw => absurd hw (Option.not_mem_none w)
  | ret v =>
    cases v with
    | some e =>
      simp only [Eval.stmt]
      exact Holds.bind (h.expr env e hc) fun _ hv => Holds.pure hv
    | none =>
      simp only [Eval.stmt]
      exact Holds.bind (Holds.pure trivial) fun _ hv => Holds.pure hv
  | print args =>
    simp only [Eval.stmt]
    exact Holds.bind (h.print env args hc) fun _ _ => Holds.pure fun w hw => absurd hw (Option.not_mem_none w)

theorem succ (h : AllInRange n) : AllInRange (n + 1) where
  expr env := h.expr_succ env
  arguments env args hc := by simp only [Eval.arguments]; exact h.exprs env args hc
  call _ args env hcl hc := h.call_succ hcl hc env
  test env c hc := by
    simp only [Eval.test]
    refine Holds.bind (h.expr env c hc) fun v _ => ?_
    split
    · exact Holds.pure trivial
    · exact Holds.fail trivial
  block env ss hc := by
    simp only [Eval.block]
    exact h.stmts env ss none hc fun w hw => absurd hw (Option.not_mem_none w)
  print env args hc := by
    simp only [Eval.print]
    exact Holds.bind (h.arguments env args hc) fun vals _ => printValues_ranged vals
  stmt env := h.stmt_succ env

end AllInRange

/-- Whatever frames are left, the evaluator keeps values in range. The induction is on the
frames left. -/
theorem allInRange : ∀ n, AllInRange n
  | 0 => AllInRange.zero
  | n + 1 => (allInRange n).succ

end Eval

/-! ### Constants from the scanner -/

namespace Token

/-- A decoded token has a payload in range: a number literal has at most `maxLiteral`. -/
theorem decode_inRange {t : Terminal} {lex : Text} {p : Pos} {tok : Token}
    (h : decode t lex p = .ok (some tok)) : tok.payload.InRange := by
  cases t with
  | blank | comment => simp [decode] at h
  | number =>
    simp only [decode] at h
    split at h
    · cases h
    · split at h
      · cases h
      · -- a number literal is at most `maxLiteral`, so below `2^63`
        rename_i hn
        cases h
        have hmax : maxLiteral = 9223372036854775807 := by decide
        show Arith.InRange _
        rw [inRange_iff]
        omega
  | string =>
    simp only [decode] at h
    split at h
    · cases h
      trivial
    · cases h
  | word =>
    simp only [decode] at h
    cases h
    unfold ofWord
    split <;> trivial
  | symbol k =>
    simp only [decode] at h
    cases h
    trivial

/-- Every token of a scanned text has a payload in range. -/
theorem scan_payloads {s : Text} {ts : List Token} (h : scan s = .ok ts) :
    ∀ t ∈ ts, t.payload.InRange :=
  scan_forall (·.payload.InRange) (fun _ => trivial) (fun _ h => decode_inRange h) h

end Token

/-- Every constant of a program read from text is in range. -/
theorem Program.ofSource_literals {src : Text} {p : Program} (h : Program.ofSource? src = .ok p) :
    Scalar.AllInRange p.literals := by
  unfold Program.ofSource? at h
  split at h
  · cases h
  · rename_i ts hts
    split at h
    · cases h
    · rename_i p' hp
      cases h
      intro s hs
      rcases Program.ofTokens_literals hp s hs with rfl | rfl | ⟨t, ht, rfl⟩
      · trivial
      · trivial
      · exact Token.scan_payloads hts t ht

/-! ### Runs -/

namespace Program

open Eval

/-- A top-level statement's fault becomes the outcome, after its trace event. -/
theorem runStmts_ranged (env : Nat) :
    ∀ (ss : List Stmt) (last : Option Value), Scalar.AllInRange (Stmt.listLiterals ss) →
      (∀ w ∈ last, Value.InRange w) → Ranged Outcome.InRange (runStmts env ss last)
  | [], _, _, hl => by
    simp only [runStmts]
    exact Holds.pure hl
  | s :: ss, _, hc, _ => by
    simp only [runStmts]
    refine Holds.bind (Holds.tryCatch
      (Holds.map (R := Sum.elim (fun _ => True) Completion.InRange)
        ((allInRange nestingLimit).stmt env s hc.left) fun _ hr => hr)
      fun e _ => ?_) fun r hr => ?_
    · cases e with
      | fault f => exact Holds.pure trivial
      | crash c => exact Holds.throw trivial
    · cases r with
      | inl f =>
        dsimp only
        split
        · exact Holds.bind (note_ranged trivial) fun _ _ => Holds.pure trivial
        · exact Holds.pure trivial
      | inr c =>
        cases c with
        | returned v => exact Holds.pure fun _ hw => by cases hw; exact hr
        | normal v => exact runStmts_ranged env ss v hc.right hr

/-- A run of a program whose constants are in range, from a machine in range, ends in a
machine in range with a value in range. -/
theorem run_inRange {p : Program} (hp : Scalar.AllInRange p.literals) {m : Machine}
    (hm : m.InRange) {o : Outcome} {m' : Machine} (h : p.run m = .ok (o, m')) :
    o.InRange ∧ m'.InRange := by
  unfold Program.run Program.runIn at h
  have hs := runStmts_ranged Store.global p.body none hp
    (fun w hw => absurd hw (Option.not_mem_none w)) m hm
  split at h
  · rename_i o' m'' hr
    cases h
    rw [hr] at hs
    exact hs
  · cases h
  · -- a fault that stopped the run leaves the machine where it stopped
    rename_i f m'' hr
    cases h
    rw [hr] at hs
    exact ⟨trivial, hs.2⟩

end Program

theorem Machine.fresh_inRange (level : Nat) (toFile : Bool) :
    (Machine.fresh level toFile).InRange := by
  refine ⟨⟨fun i f hf => ?_, fun r fs hfs => ?_⟩, fun e he => ?_⟩
  · -- the global scope binds nothing
    match i, hf with
    | 0, hf =>
      cases hf
      intro p hp
      cases hp
  · simp [Machine.fresh, Store.fresh] at hfs
  · simp [Machine.fresh] at he

/-- Integers of the language are 64-bit words. Every integer an operator gives lies in
`[-2^63, 2^63)`, whatever its operands (a power out of the range has no value at all); every
constant of a program read from text lies there, and a run of such a program from a machine in
range, a fresh one for instance, gives in each expression a value in range and ends with a
value and a machine in range. On the range, `+`, `-`, `*` and prefix `-` are the operations of
`BitVec 64` read back as signed integers, `/` by a nonzero integer is `BitVec.sdiv`, so that it
truncates and takes the least word divided by `-1` to itself, and `/` by zero is a
`ZeroDivisionError`. -/
theorem integers_are_words :
    (∀ (op : BinOp) (a b : Value) (n : Int), op.apply a b = .ok (.int n) → Arith.InRange n) ∧
    (∀ (op : UnaryOp) (a : Value) (n : Int), op.apply a = .ok (.int n) → Arith.InRange n) ∧
    (∀ (src : Text) (p : Program), Program.ofSource? src = .ok p →
      Scalar.AllInRange p.literals) ∧
    (∀ (level : Nat) (toFile : Bool), (Machine.fresh level toFile).InRange) ∧
    (∀ (n env : Nat) (e : Expr) (m m' : Machine) (v : Value), m.InRange →
      Scalar.AllInRange e.literals → (Eval.expr n env e).run m = .ok v m' →
        v.InRange ∧ m'.InRange) ∧
    (∀ (p : Program) (m m' : Machine) (o : Outcome), Scalar.AllInRange p.literals →
      m.InRange → p.run m = .ok (o, m') → o.InRange ∧ m'.InRange) ∧
    (∀ x y : Int, Arith.InRange x → Arith.InRange y →
      BinOp.apply .add (.int x) (.int y) =
          .ok (.int (BitVec.ofInt 64 x + BitVec.ofInt 64 y).toInt) ∧
      BinOp.apply .sub (.int x) (.int y) =
          .ok (.int (BitVec.ofInt 64 x - BitVec.ofInt 64 y).toInt) ∧
      BinOp.apply .mul (.int x) (.int y) =
          .ok (.int (BitVec.ofInt 64 x * BitVec.ofInt 64 y).toInt) ∧
      UnaryOp.apply .neg (.int x) = .ok (.int (-BitVec.ofInt 64 x).toInt) ∧
      (y ≠ 0 → BinOp.apply .div (.int x) (.int y) =
          .ok (.int ((BitVec.ofInt 64 x).sdiv (BitVec.ofInt 64 y)).toInt)) ∧
      (y = 0 → BinOp.apply .div (.int x) (.int y) = .error .divisionByZero ∧
          Fault.divisionByZero.kind = "ZeroDivisionError")) ∧
    BinOp.apply .div (.int (-9223372036854775808)) (.int (-1)) =
      .ok (.int (-9223372036854775808)) := by
  refine ⟨fun _ _ _ _ h => BinOp.apply_inRange h, fun _ _ _ h => UnaryOp.apply_inRange h,
    fun _ _ h => Program.ofSource_literals h, Machine.fresh_inRange,
    fun n env e _ _ _ hm hc h => ((Eval.allInRange n).expr env e hc).ok hm h,
    fun _ _ _ _ hp hm h => Program.run_inRange hp hm h, ?_, rfl⟩
  intro x y hx hy
  refine ⟨apply_add hx hy, apply_sub hx hy, apply_mul hx hy, apply_neg hx,
    fun h0 => apply_div hx hy h0, fun h0 => ?_⟩
  subst h0
  exact ⟨apply_div_zero x, rfl⟩

/-- The largest word plus one wraps to the least: a run of a program that adds them, from a
fresh machine, ends with a value in range. -/
theorem largest_word_plus_one_in_range :
    Program.run ⟨[.expr (.binary .add (.text "+") (.literal (.int 9223372036854775807))
        (.literal (.int 1)))]⟩ (Machine.fresh 0 false) =
      .ok (.done (some (.int (-9223372036854775808))), Machine.fresh 0 false) ∧
    (Outcome.done (some (.int (-9223372036854775808)))).InRange := by
  have hrun : Program.run ⟨[.expr (.binary .add (.text "+")
      (.literal (.int 9223372036854775807)) (.literal (.int 1)))]⟩ (Machine.fresh 0 false) =
      .ok (.done (some (.int (-9223372036854775808))), Machine.fresh 0 false) := by
    simp only [Program.run, Program.runIn, Program.runStmts, nestingLimit, Eval.stmt, Eval.expr,
      Value.ofScalar]
    rfl
  exact ⟨hrun, (integers_are_words.2.2.2.2.2.1 _ _ _ _ (by decide)
    (integers_are_words.2.2.2.1 0 false) hrun).1⟩

end Ember
