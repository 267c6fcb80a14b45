import Ember.Eval
/-!
Blocks and calls do not leak bindings.

Scopes are numbered in the order they are made. A block runs in a new scope, a call runs
its body in a new scope nested in the function's own, and a class or a method read from an
instance makes a scope of its own. Every binding the evaluator makes goes into the scope it
runs in, or rebinds a name where the chain of scopes already binds it. So a run that starts in
a scope made after the first `k` scopes leaves those scopes with their parents and their names
(`Store.ScopesKept`): values may change, names are neither added nor removed. `Eval.Keeps`
says this of a computation on the machine, for every run, however it ends, and `Eval.confined`
proves it of every part of the evaluator by induction on the frames left.

Main statement:
* `blocks_and_calls_keep_names`: after a block, and after the body of a call once its
  arguments are evaluated, every scope that existed before binds the same names, and from
  each of them every name is found where it was found before (`Store.SameNames`).
-/

namespace Ember

namespace Bindings

/-- The names bound, in order. -/
def names (bs : Bindings) : List Text := bs.map (·.1)

theorem contains_eq (bs : Bindings) (name : Text) :
    bs.contains name = decide (name ∈ bs.names) := by
  simp only [contains, names, List.any_eq, List.mem_map, decide_eq_true_eq]

/-- Rebinding a name that is bound binds the same names. -/
theorem names_set_of_contains {bs : Bindings} {name : Text} {v : Value}
    (h : bs.contains name = true) : (bs.set name v).names = bs.names := by
  simp only [set, h, if_true, names, List.map_map]
  apply List.map_congr_left
  intro b _
  by_cases hb : b.1 = name <;> simp [hb]

end Bindings

/-- Where a scope sits in the chain and which names it binds, without their values. -/
def Frame.shape (f : Frame) : Option Nat × List Text := (f.parent, f.vars.names)

namespace Store

theorem size_define (s : Store) (i : Nat) (name : Text) (v : Value) :
    (s.define i name v).frames.size = s.frames.size := by
  cases s
  simp [define]

theorem frame_define_ne {s : Store} {i j : Nat} (name : Text) (v : Value) (h : j ≠ i) :
    (s.define i name v).frames[j]? = s.frames[j]? := by
  cases s
  simp [define, Array.getElem?_modify, Ne.symm h]

theorem shape_define_self (s : Store) (i : Nat) (name : Text) (v : Value) :
    (s.define i name v).frames[i]?.map Frame.shape =
      s.frames[i]?.map fun f => (f.parent, (f.vars.set name v).names) := by
  cases s
  simp only [define, Array.getElem?_modify, if_true, Option.map_map]
  congr 1

theorem holder?_contains {s : Store} {name : Text} :
    ∀ {i j : Nat}, s.holder? name i = some j → (s.vars j).contains name = true := by
  intro i
  induction i using Nat.strongRecOn with
  | ind i ih =>
  intro j h
  rw [holder?] at h
  cases hs : s.frames[i]? with
  | none => simp [hs] at h
  | some f =>
    simp only [hs] at h
    split at h
    · -- the scope itself binds the name
      cases h
      simp only [vars, hs]
      assumption
    · split at h
      · split at h
        · exact ih _ ‹_› h
        · cases h
      · cases h

/-- The names a scope binds, read off its shape; none for a scope that does not exist. -/
theorem names_vars (s : Store) (i : Nat) :
    (s.vars i).names = ((s.frames[i]?.map Frame.shape).map Prod.snd).getD [] := by
  simp only [vars]
  cases s.frames[i]? <;> rfl

/-- Every scope below `k` keeps in `s'` its parent and the names it binds in `s`, and `s'` has
all the scopes of `s`: new scopes may have been made and values may have changed, nothing
else. -/
structure ScopesKept (k : Nat) (s s' : Store) : Prop where
  size_le : s.frames.size ≤ s'.frames.size
  shape_eq : ∀ i < k, s'.frames[i]?.map Frame.shape = s.frames[i]?.map Frame.shape

/-- Every scope below `k` binds in `s'` the names it binds in `s`, and from each of them every
name is found in the scope where it was found in `s`. -/
def SameNames (k : Nat) (s s' : Store) : Prop :=
  ∀ i < k, (s'.vars i).names = (s.vars i).names ∧ ∀ name, s'.holder? name i = s.holder? name i

namespace ScopesKept

variable {k : Nat} {s s' s'' : Store}

theorem refl (k : Nat) (s : Store) : ScopesKept k s s :=
  ⟨Nat.le_refl _, fun _ _ => rfl⟩

theorem trans (h : ScopesKept k s s') (h' : ScopesKept k s' s'') : ScopesKept k s s'' :=
  ⟨Nat.le_trans h.size_le h'.size_le, fun i hi => (h'.shape_eq i hi).trans (h.shape_eq i hi)⟩

theorem of_frames_eq (h : s'.frames = s.frames) : ScopesKept k s s' :=
  ⟨Nat.le_of_eq (congrArg Array.size h.symm), fun i _ => by rw [h]⟩

/-- Binding a name in a scope made after those below `k` keeps them. -/
theorem define_of_le {i : Nat} (name : Text) (v : Value) (hk : k ≤ i) :
    ScopesKept k s (s.define i name v) := by
  refine ⟨Nat.le_of_eq (size_define s i name v).symm, fun j hj => ?_⟩
  rw [frame_define_ne name v (by omega)]

/-- Rebinding a name that a scope binds keeps every scope. -/
theorem define_of_contains {i : Nat} {name : Text} (v : Value)
    (hc : (s.vars i).contains name = true) : ScopesKept k s (s.define i name v) := by
  refine ⟨Nat.le_of_eq (size_define s i name v).symm, fun j _ => ?_⟩
  by_cases hj : j = i
  · subst hj
    rw [shape_define_self]
    cases hs : s.frames[j]? with
    | none => rfl
    | some f =>
      simp only [vars, hs] at hc
      simp only [Option.map_some, Frame.shape, Bindings.names_set_of_contains hc]
  · rw [frame_define_ne name v hj]

/-- An assignment from a scope made after those below `k` keeps them: it rebinds a name
where the chain binds it, or binds it in that scope. -/
theorem assign {i : Nat} (name : Text) (v : Value) (hk : k ≤ i) :
    ScopesKept k s (s.assign i name v) := by
  unfold Store.assign
  cases hh : s.holder? name i with
  | none => exact define_of_le name v hk
  | some j => exact define_of_contains v (holder?_contains hh)

/-- Making a scope keeps the scopes below `k` when they all exist. -/
theorem child (p : Nat) (hk : k ≤ s.frames.size) : ScopesKept k s (s.child p).1 := by
  cases s with
  | mk frames objects =>
    refine ⟨by simp [Store.child, Store.newFrame], fun j hj => ?_⟩
    simp only [Store.child, Store.newFrame]
    rw [Array.getElem?_push]
    simp only at hk
    simp [Nat.ne_of_lt (Nat.lt_of_lt_of_le hj hk)]

theorem names_eq {i : Nat} (h : ScopesKept k s s') (hi : i < k) :
    (s'.vars i).names = (s.vars i).names := by
  rw [names_vars, names_vars, h.shape_eq i hi]

theorem contains_eq {i : Nat} (h : ScopesKept k s s') (hi : i < k) (name : Text) :
    (s'.vars i).contains name = (s.vars i).contains name := by
  rw [Bindings.contains_eq, Bindings.contains_eq, h.names_eq hi]

theorem parent?_eq {i : Nat} (h : ScopesKept k s s') (hi : i < k) :
    s'.frames[i]?.map (·.parent) = s.frames[i]?.map (·.parent) := by
  have hshape := congrArg (Option.map Prod.fst) (h.shape_eq i hi)
  rw [Option.map_map, Option.map_map] at hshape
  exact hshape

/-- From a scope below `k`, every name resolves to the scope it resolved to before. -/
theorem holder?_eq (h : ScopesKept k s s') (name : Text) :
    ∀ {i : Nat}, i < k → s'.holder? name i = s.holder? name i := by
  intro i
  induction i using Nat.strongRecOn with
  | ind i ih =>
  intro hi
  have hc := h.contains_eq hi name
  have hp := h.parent?_eq hi
  rw [holder?, holder?]
  cases hs : s.frames[i]? with
  | none =>
    rw [hs, Option.map_none, Option.map_eq_none_iff] at hp
    rw [hp]
  | some f =>
    rw [hs, Option.map_some] at hp
    obtain ⟨f', hs', hf⟩ := Option.map_eq_some_iff.1 hp
    simp only [vars, hs, hs'] at hc
    simp only [hs', hc, hf]
    -- the chain goes on to the same parent, an older scope
    by_cases hcon : f.vars.contains name = true
    · simp only [hcon, if_true]
    · simp only [hcon, Bool.false_eq_true, ↓reduceIte]
      cases f.parent with
      | none => rfl
      | some p =>
        by_cases hpi : p < i
        · simp only [hpi, if_true]
          exact ih p hpi (by omega)
        · simp only [hpi, ↓reduceIte]

theorem sameNames (h : ScopesKept k s s') : SameNames k s s' :=
  fun _ hi => ⟨h.names_eq hi, fun name => h.holder?_eq name hi⟩

end ScopesKept

end Store

namespace Eval

open Store

/-- The machine a run ended in, whether it went through or stopped. -/
def machineAfter {α : Type} : EStateM.Result Stop Machine α → Machine
  | .ok _ m => m
  | .error _ m => m

/-- Every run of `x` from a machine with at least `k` scopes keeps the scopes below `k`,
however the run ends. -/
def Keeps (k : Nat) {α : Type} (x : Eval α) : Prop :=
  ∀ m : Machine, k ≤ m.store.frames.size → m.store.ScopesKept k (machineAfter (x.run m)).store

namespace Keeps

variable {k : Nat} {α β : Type}

theorem of_frames {x : Eval α}
    (hx : ∀ m, (machineAfter (x.run m)).store.frames = m.store.frames) : Keeps k x :=
  fun m _ => .of_frames_eq (hx m)

theorem pure (a : α) : Keeps k (Pure.pure a : Eval α) :=
  of_frames fun _ => rfl

theorem throw (e : Stop) : Keeps k (MonadExcept.throw e : Eval α) :=
  of_frames fun _ => rfl

theorem fail (f : Fault) : Keeps k (Eval.fail f : Eval α) :=
  throw _

theorem get : Keeps k (MonadState.get : Eval Machine) :=
  of_frames fun _ => rfl

theorem modify {f : Machine → Machine} (hf : ∀ m, (f m).store.frames = m.store.frames) :
    Keeps k (MonadState.modifyGet fun m => ((), f m) : Eval Unit) :=
  of_frames hf

theorem bind {x : Eval α} {f : α → Eval β} (hx : Keeps k x) (hf : ∀ a, Keeps k (f a)) :
    Keeps k (x >>= f) := by
  intro m hm
  have h₁ := hx m hm
  rw [EStateM.run_bind]
  cases hr : x.run m with
  | ok a m₁ =>
    -- the second part starts where the first ended, with at least as many scopes
    rw [hr] at h₁
    exact h₁.trans (hf a m₁ (Nat.le_trans hm h₁.size_le))
  | error e m₁ =>
    -- a stop in the first part ends the whole run there
    rw [hr] at h₁
    exact h₁

theorem modifyStore {f : Store → Store}
    (hf : ∀ s : Store, k ≤ s.frames.size → s.ScopesKept k (f s)) :
    Keeps k (Eval.modifyStore f) := by
  intro m hm
  cases m
  exact hf _ hm

/-- What runs in a new scope runs in a scope made after those below `k`. -/
theorem newScope_bind {p : Nat} {f : Nat → Eval α} (hf : ∀ i, k ≤ i → Keeps k (f i)) :
    Keeps k (newScope p >>= f) := by
  intro m hm
  have hc := ScopesKept.child p hm
  rcases m with ⟨⟨frames, objects⟩, out, trace, level, toFile, g⟩
  -- the new scope is the first one after those that exist, and the run goes on from there
  have hnext : k ≤ (frames.push ⟨some p, []⟩).size := Nat.le_trans hm hc.size_le
  exact hc.trans (hf frames.size hm ⟨⟨_, objects⟩, out, trace, level, toFile, g⟩ hnext)

end Keeps

theorem note_keeps {k : Nat} (e : Event) : Keeps k (note e) := by
  unfold note
  refine Keeps.bind Keeps.get fun m => ?_
  split
  · split
    · exact Keeps.throw _
    · exact Keeps.modify fun _ => rfl
  · exact Keeps.pure _

section Primitives

variable {k : Nat}

theorem emit_keeps (t : Text) : Keeps k (emit t) :=
  Keeps.modify fun _ => rfl

theorem lookup_keeps (env : Nat) (name : Text) : Keeps k (lookup env name) :=
  Keeps.of_frames fun _ => rfl

theorem newObject_keeps : Keeps k newObject :=
  Keeps.of_frames fun ⟨⟨_, _⟩, _, _, _, _, _⟩ => rfl

theorem lift_keeps {α : Type} (r : Except Fault α) : Keeps k (lift r) := by
  cases r with
  | ok a => exact Keeps.pure a
  | error f => exact Keeps.fail f

theorem setField_keeps (r : Nat) (name : Text) (v : Value) :
    Keeps k (modifyStore (·.setField r name v)) :=
  Keeps.modifyStore fun ⟨_, _⟩ _ => .of_frames_eq rfl

theorem printValues_keeps (vs : List Value) : Keeps k (printValues vs) := by
  unfold printValues
  split
  · split
    · exact emit_keeps _
    · exact Keeps.throw _
    · exact Keeps.fail _
  · exact Keeps.fail _
  · exact Keeps.pure _

theorem declare_keeps {env : Nat} (hk : k ≤ env) (f : Func) : Keeps k (declare env f) :=
  Keeps.bind (Keeps.modifyStore fun _ _ => .define_of_le _ _ hk) fun _ =>
    Keeps.bind (note_keeps _) fun _ => Keeps.pure _

theorem declareMethods_keeps {env : Nat} (hk : k ≤ env) :
    ∀ (ms : List Func) (table : List (Text × Closure)), Keeps k (declareMethods env ms table)
  | [], table => Keeps.pure table
  | m :: ms, _ =>
    Keeps.bind (declare_keeps hk m) fun _ => declareMethods_keeps hk ms _

/-- A class's methods are declared in its own new scope, the class in the current one. -/
theorem declareClass_keeps {env : Nat} (hk : k ≤ env) (name : Text) (ms : List Func) :
    Keeps k (declareClass env name ms) :=
  Keeps.newScope_bind fun _ hs =>
    Keeps.bind (declareMethods_keeps hs ms []) fun _ =>
      Keeps.bind (Keeps.modifyStore fun _ _ => .define_of_le _ _ hk) fun _ =>
        Keeps.bind (note_keeps _) fun _ => Keeps.pure _

/-- A method read from an instance binds `this` in a new scope. -/
theorem bindMethod_keeps (m : Closure) (self : Value) : Keeps k (bindMethod m self) :=
  Keeps.newScope_bind fun _ hs =>
    Keeps.bind (Keeps.modifyStore fun _ _ => .define_of_le _ _ hs) fun _ => Keeps.pure _

/-- Binding parameters in a scope made after those below `k` keeps them. -/
theorem bindParams_keeps {scope : Nat} (hk : k ≤ scope) :
    ∀ (ps : List (Scalar × Value)) (s : Store),
      s.ScopesKept k (ps.foldl (fun s (p, v) => s.define scope p.display v) s)
  | [], s => .refl k s
  | (_, v) :: ps, _ => (ScopesKept.define_of_le _ v hk).trans (bindParams_keeps hk ps _)

end Primitives

/-- What a call does once its arguments are evaluated: it binds the parameters in a new
scope nested in the function's scope, notes the call and runs the body as a block in that
scope. -/
def enter (n : Nat) (cl : Closure) (vals : List Value) : Eval Value := do
  let scope ← newScope cl.scope
  modifyStore fun s =>
    (cl.decl.params.zip vals).foldl (fun s (p, v) => s.define scope p.display v) s
  note (.call cl.decl.name.display vals)
  match ← stmt n scope (.block cl.decl.body) with
  | .returned v => pure v
  | .normal (some v) => pure v
  | .normal none => pure .nil

theorem call_succ_eq (n : Nat) (cl : Closure) (args : List Expr) (env : Nat) :
    call (n + 1) cl args env =
      if args.length ≠ cl.decl.params.length then
        fail (.functionArity cl.decl.name.display cl.decl.params.length args.length)
      else arguments n env args >>= enter n cl := by
  simp only [call]
  rfl

/-- A call whose arguments were evaluated runs on from where they ended. -/
theorem call_run_of_arguments {n env : Nat} {cl : Closure} {args : List Expr} {m m₁ : Machine}
    {vals : List Value} (harity : args.length = cl.decl.params.length)
    (hargs : (arguments n env args).run m = .ok vals m₁) :
    (call (n + 1) cl args env).run m = (enter n cl vals).run m₁ := by
  rw [call_succ_eq, if_neg (not_not_intro harity), EStateM.run_bind, hargs]

/-! ### The evaluator keeps the scopes made before it -/

/-- With `n` frames left, every activation that runs in a scope made after those below `k`
keeps them. -/
structure Confined (k n : Nat) : Prop where
  expr : ∀ env, k ≤ env → ∀ e, Keeps k (expr n env e)
  arguments : ∀ env, k ≤ env → ∀ args, Keeps k (arguments n env args)
  call : ∀ cl args env, k ≤ env → Keeps k (call n cl args env)
  test : ∀ env, k ≤ env → ∀ c, Keeps k (test n env c)
  block : ∀ env, k ≤ env → ∀ ss, Keeps k (block n env ss)
  print : ∀ env, k ≤ env → ∀ args, Keeps k (print n env args)
  stmt : ∀ env, k ≤ env → ∀ s, Keeps k (stmt n env s)

namespace Confined

variable {k n env : Nat}

theorem zero (k : Nat) : Confined k 0 where
  expr _ _ _ := by simp only [Eval.expr]; exact Keeps.fail _
  arguments _ _ _ := by simp only [Eval.arguments]; exact Keeps.fail _
  call _ _ _ _ := by simp only [Eval.call]; exact Keeps.fail _
  test _ _ _ := by simp only [Eval.test]; exact Keeps.fail _
  block _ _ _ := by simp only [Eval.block]; exact Keeps.fail _
  print _ _ _ := by simp only [Eval.print]; exact Keeps.fail _
  stmt _ _ _ := by simp only [Eval.stmt]; exact Keeps.fail _

theorem exprs (h : Confined k n) (hk : k ≤ env) :
    ∀ es, Keeps k (Eval.exprs n env es)
  | [] => by simp only [Eval.exprs]; exact Keeps.pure _
  | e :: es => by
    simp only [Eval.exprs]
    exact Keeps.bind (h.expr env hk e) fun _ =>
      Keeps.bind (h.exprs hk es) fun _ => Keeps.pure _

theorem stmts (h : Confined k n) (hk : k ≤ env) :
    ∀ ss last, Keeps k (Eval.stmts n env last ss)
  | [], _ => by simp only [Eval.stmts]; exact Keeps.pure _
  | s :: ss, _ => by
    simp only [Eval.stmts]
    refine Keeps.bind (h.stmt env hk s) fun c => ?_
    cases c with
    | returned v => exact Keeps.pure _
    | normal v => exact h.stmts hk ss v

/-- Each iteration of a loop runs its condition and its body in the loop's scope. -/
theorem loop (h : Confined k n) (hk : k ≤ env) (c : Expr) (body : Stmt) :
    ∀ j last, Keeps k (Eval.loop n env c body last j)
  | 0, _ => by simp only [Eval.loop]; exact Keeps.fail _
  | j + 1, last => by
    simp only [Eval.loop]
    refine Keeps.bind (h.test env hk c) fun b => ?_
    cases b with
    | false => exact Keeps.pure _
    | true =>
      refine Keeps.bind (h.stmt env hk body) fun r => ?_
      cases r with
      | returned v => exact Keeps.pure _
      | normal v => exact h.loop hk c body j v

/-- An expression runs its parts in its own scope; only a call or a method read makes a
scope, and an assignment binds a new name in the scope it runs in. -/
theorem expr_succ (h : Confined k n) (hk : k ≤ env) :
    ∀ e, Keeps k (Eval.expr (n + 1) env e) := by
  intro e
  cases e with
  | literal s => simp only [Eval.expr]; exact Keeps.pure _
  | var x =>
    simp only [Eval.expr]
    refine Keeps.bind (lookup_keeps env _) fun o => ?_
    cases o with
    | some v => exact Keeps.pure v
    | none => exact Keeps.fail _
  | group x => simp only [Eval.expr]; exact h.expr env hk x
  | assign x v =>
    simp only [Eval.expr]
    exact Keeps.bind (h.expr env hk v) fun _ =>
      Keeps.bind (Keeps.modifyStore fun _ _ => .assign _ _ hk) fun _ => Keeps.pure _
  | binary op lx l r =>
    simp only [Eval.expr]
    exact Keeps.bind (h.expr env hk l) fun _ =>
      Keeps.bind (h.expr env hk r) fun _ => lift_keeps _
  | logical op lx l r =>
    simp only [Eval.expr]
    exact Keeps.bind (h.expr env hk l) fun _ =>
      Keeps.bind (h.expr env hk r) fun _ => lift_keeps _
  | unary op lx x =>
    simp only [Eval.expr]
    exact Keeps.bind (h.expr env hk x) fun _ => lift_keeps _
  | call c args =>
    simp only [Eval.expr]
    refine Keeps.bind (h.expr env hk c) fun f => ?_
    -- a function runs its body in a scope of its own; a class makes an instance, no scope
    split
    · exact h.call _ args env hk
    · split
      · exact Keeps.bind (note_keeps _) fun _ => Keeps.bind newObject_keeps fun _ => Keeps.pure _
      · exact Keeps.fail _
    · exact Keeps.fail _
  | getField t x =>
    simp only [Eval.expr]
    refine Keeps.bind (h.expr env hk t) fun v => ?_
    -- a field is read; a method read from the class binds `this` in a new scope
    split
    · refine Keeps.bind Keeps.get fun _ => ?_
      split
      · exact Keeps.pure _
      · split
        · exact bindMethod_keeps _ _
        · exact Keeps.fail _
    · exact Keeps.fail _
  | setField t x e =>
    simp only [Eval.expr]
    refine Keeps.bind (h.expr env hk t) fun v => ?_
    split
    · exact Keeps.bind (h.expr env hk e) fun _ =>
        Keeps.bind (setField_keeps _ _ _) fun _ => Keeps.pure _
    · exact Keeps.fail _
  | thisRef =>
    simp only [Eval.expr]
    refine Keeps.bind (lookup_keeps env _) fun o => ?_
    cases o with
    | some v => exact Keeps.pure v
    | none => exact Keeps.fail _

/-- A call's body runs in a new scope, whatever scope the function closes over. -/
theorem enter_keeps (h : Confined k n) (cl : Closure) (vals : List Value) :
    Keeps k (enter n cl vals) := by
  refine Keeps.newScope_bind fun scope hs => ?_
  refine Keeps.bind (Keeps.modifyStore fun s _ => bindParams_keeps hs _ s) fun _ => ?_
  refine Keeps.bind (note_keeps _) fun _ => ?_
  refine Keeps.bind (h.stmt scope hs _) fun c => ?_
  split <;> exact Keeps.pure _

/-- A call evaluates its arguments in the caller's scope and runs the body in a new scope. -/
theorem call_succ (h : Confined k n) (cl : Closure) (args : List Expr) (hk : k ≤ env) :
    Keeps k (Eval.call (n + 1) cl args env) := by
  rw [call_succ_eq]
  split
  · exact Keeps.fail _
  · exact Keeps.bind (h.arguments env hk args) fun vals => h.enter_keeps cl vals

/-- A statement binds names only in the scope it runs in, and a block runs in a new one. -/
theorem stmt_succ (h : Confined k n) (hk : k ≤ env) :
    ∀ s, Keeps k (Eval.stmt (n + 1) env s) := by
  intro s
  cases s with
  | expr e =>
    simp only [Eval.stmt]
    exact Keeps.bind (h.expr env hk e) fun _ => Keeps.pure _
  | letDecl x init =>
    -- the value is bound in the scope the declaration runs in
    have hbind : ∀ v : Value, Keeps k (do
        modifyStore (·.define env x.display v)
        note (.bind x.display v)
        Pure.pure (Completion.normal (some v)) : Eval Completion) := fun _ =>
      Keeps.bind (Keeps.modifyStore fun _ _ => .define_of_le _ _ hk) fun _ =>
          Keeps.bind (note_keeps _) fun _ => Keeps.pure _
    cases init with
    | some e =>
      simp only [Eval.stmt]
      exact Keeps.bind (h.expr env hk e) hbind
    | none =>
      simp only [Eval.stmt]
      exact Keeps.bind (Keeps.pure _) hbind
  | block ss =>
    simp only [Eval.stmt]
    exact Keeps.newScope_bind fun scope hs => h.block scope hs ss
  | funDecl f =>
    simp only [Eval.stmt]
    exact Keeps.bind (declare_keeps hk f) fun _ => Keeps.pure _
  | classDecl x ms =>
    simp only [Eval.stmt]
    exact Keeps.bind (declareClass_keeps hk _ ms) fun _ => Keeps.pure _
  | ifElse c yes no =>
    -- either branch runs in the conditional's own scope, made after the first `k`
    cases no with
    | some t =>
      simp only [Eval.stmt]
      refine Keeps.bind (h.test env hk c) fun b => Keeps.bind (note_keeps _) fun _ => ?_
      cases b with
      | true => exact h.stmt env hk yes
      | false => exact h.stmt env hk t
    | none =>
      simp only [Eval.stmt]
      refine Keeps.bind (h.test env hk c) fun b => Keeps.bind (note_keeps _) fun _ => ?_
      cases b with
      | true => exact h.stmt env hk yes
      | false => exact Keeps.pure _
  | whileLoop c body =>
    simp only [Eval.stmt]
    exact h.loop hk c body _ _
  | ret v =>
    cases v with
    | some e =>
      simp only [Eval.stmt]
      exact Keeps.bind (h.expr env hk e) fun _ => Keeps.pure _
    | none =>
      simp only [Eval.stmt]
      exact Keeps.bind (Keeps.pure _) fun _ => Keeps.pure _
  | print args =>
    simp only [Eval.stmt]
    exact Keeps.bind (h.print env hk args) fun _ => Keeps.pure _

theorem succ (h : Confined k n) : Confined k (n + 1) where
  expr _ hk := h.expr_succ hk
  arguments env hk args := by simp only [Eval.arguments]; exact h.exprs hk args
  call cl args _ hk := h.call_succ cl args hk
  test env hk c := by
    simp only [Eval.test]
    refine Keeps.bind (h.expr env hk c) fun v => ?_
    split
    · exact Keeps.pure _
    · exact Keeps.fail _
  block env hk ss := by simp only [Eval.block]; exact h.stmts hk ss none
  print env hk args := by
    simp only [Eval.print]
    exact Keeps.bind (h.arguments env hk args) fun vals => printValues_keeps vals
  stmt _ hk := h.stmt_succ hk

end Confined

/-- Whatever frames are left, the evaluator keeps every scope made before the scope it runs
in. The induction is on the frames left. -/
theorem confined (k : Nat) : ∀ n, Confined k n
  | 0 => Confined.zero k
  | n + 1 => (confined k n).succ

/-! ### Blocks and calls do not leak bindings -/

/-- A block keeps every scope made before it, whatever scope it runs in: the scope it makes
for itself comes after all of them. -/
theorem block_keeps (k n env : Nat) (ss : List Stmt) : Keeps k (stmt n env (.block ss)) := by
  cases n with
  | zero => simp only [stmt]; exact Keeps.fail _
  | succ n =>
    simp only [stmt]
    exact Keeps.newScope_bind fun scope hs => (confined k n).block scope hs ss

open Store in
/-- Running a block, and running a function's body once the call's arguments are evaluated,
binds no new name in any scope that existed before: each of them binds the same names after
the run, whether it went through, returned or stopped, and every name seen from one of them is
found where it was found before. Declarations, parameters, `this` and assignments to unbound
names inside stay in the scopes the block or the call made. -/
theorem blocks_and_calls_keep_names :
    (∀ (n env : Nat) (ss : List Stmt) (m : Machine),
      m.store.SameNames m.store.frames.size
        (machineAfter ((stmt n env (.block ss)).run m)).store) ∧
    (∀ (n env : Nat) (cl : Closure) (args : List Expr) (m m₁ : Machine) (vals : List Value),
      args.length = cl.decl.params.length →
        (arguments n env args).run m = .ok vals m₁ →
          m₁.store.SameNames m₁.store.frames.size
            (machineAfter ((call (n + 1) cl args env).run m)).store) := by
  refine ⟨fun n env ss m => ?_, fun n env cl args m m₁ vals harity hargs => ?_⟩
  · exact (block_keeps _ n env ss m (Nat.le_refl _)).sameNames
  · rw [call_run_of_arguments harity hargs]
    exact ((confined _ n).enter_keeps cl vals m₁ (Nat.le_refl _)).sameNames

/-- A call of a function whose body assigns to a name no scope binds leaves the global scope
as it was. -/
theorem call_assigning_unbound_keeps_global :
    (Machine.fresh 0 false).store.SameNames (Machine.fresh 0 false).store.frames.size
      (machineAfter ((call 2 ⟨⟨.text (Text.ofString "f"), [],
          [.expr (.assign (.text (Text.ofString "x")) (.literal (.int 1)))]⟩, Store.global⟩
        [] Store.global).run (Machine.fresh 0 false))).store :=
  blocks_and_calls_keep_names.2 1 _ _ [] _ _ [] rfl (by simp only [arguments, exprs]; rfl)

end Eval

end Ember
