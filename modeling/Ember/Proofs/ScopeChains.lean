import Ember.Proofs.MethodTables
import Ember.Proofs.Reset
import Ember.Proofs.Words
import Mathlib.Data.List.Chain
/-!
Scope chains are finite.

Scopes are made only by a fresh store, which has the first global scope, number `0`, and by
`Store.newFrame`, which numbers the new scope after all the others and nests it in the scope
it is given, or in none for the new global scope of a reset. The evaluator gives it only
scopes that exist: the scope a statement runs in, and the scopes that functions, classes and
instances refer to, which are never scopes yet to be made. So every store that a run or a
session reaches nests (`Store.Nested`): every scope's parent was made before it, and every
value held in a scope or a field refers only to scopes that exist.

* `Store.Nested.chain_path`: in such a store the chain of every scope that exists follows the
  parents down to a global scope, one without a parent, with no scope twice, so the walk that
  finds a name (`Store.holder?_eq_find?`) never stops at a parent that is not older than its
  scope;
* `Eval.allNest`: whatever the evaluator runs in a scope that exists, and however the run ends,
  it keeps the scopes nested and gives values that refer only to scopes that exist. Values may
  refer to scopes made during the run, so `Eval.Nests` measures them against the number of
  scopes where the run ends. The induction is on the frames left;
* `scope_chains_finite`: runs of statements and of programs, and sessions of the loop, resets
  included, keep the scopes nested.
-/

namespace Ember

/-! ### The scopes a value refers to -/

/-- The scopes a class refers to: its own and those of its methods. -/
def ClassDef.scopes (k : ClassDef) : List Nat :=
  k.scope :: k.methods.map (·.2.scope)

/-- The scopes a value refers to: the scope of a function, bound method included, and the
scopes of a class or of an instance's class. -/
def Value.scopes : Value → List Nat
  | .fn c => [c.scope]
  | .cls k | .obj _ k => k.scopes
  | _ => []

/-- A value that refers only to scopes among the first `n`. -/
def Value.Within (v : Value) (n : Nat) : Prop :=
  ∀ i ∈ v.scopes, i < n

theorem Value.Within.mono {v : Value} {n n' : Nat} (h : v.Within n) (hn : n ≤ n') :
    v.Within n' :=
  fun i hi => Nat.lt_of_lt_of_le (h i hi) hn

theorem Value.within_fn {c : Closure} {n : Nat} : (Value.fn c).Within n ↔ c.scope < n := by
  simp [Within, scopes]

/-- A class refers to scopes that exist when its own scope and its methods' scopes do. -/
theorem Value.within_cls {k : ClassDef} {n : Nat} :
    (Value.cls k).Within n ↔ k.scope < n ∧ ∀ e ∈ k.methods, e.2.scope < n := by
  simp only [Within, scopes, ClassDef.scopes, List.mem_cons, List.mem_map]
  constructor
  · intro h
    exact ⟨h _ (.inl rfl), fun e he => h _ (.inr ⟨e, he, rfl⟩)⟩
  · rintro ⟨hs, hm⟩ i (rfl | ⟨e, he, rfl⟩)
    · exact hs
    · exact hm e he

/-- A value without scopes refers only to scopes that exist, however few. -/
theorem Value.within_of_scopes {v : Value} (h : v.scopes = []) (n : Nat) : v.Within n := by
  intro i hi
  rw [h] at hi
  exact absurd hi List.not_mem_nil

theorem Value.within_ofScalar (x : Scalar) (n : Nat) : (Value.ofScalar x).Within n :=
  Value.within_of_scopes (by cases x <;> rfl) n

/-- Operators give integers, truth values and texts, which refer to no scope. -/
theorem BinOp.apply_within {op : BinOp} {a b v : Value} (h : op.apply a b = .ok v) (n : Nat) :
    v.Within n := by
  apply Value.within_of_scopes
  rcases BinOp.apply_shape h with ⟨_, rfl, _⟩ | ⟨_, rfl⟩ | ⟨_, rfl⟩ <;> rfl

theorem LogicOp.apply_within {op : LogicOp} {a b v : Value} (h : op.apply a b = .ok v)
    (n : Nat) : v.Within n := by
  obtain ⟨_, rfl⟩ := LogicOp.apply_shape h
  exact Value.within_of_scopes rfl n

theorem UnaryOp.apply_within {op : UnaryOp} {a v : Value} (h : op.apply a = .ok v) (n : Nat) :
    v.Within n := by
  apply Value.within_of_scopes
  rcases UnaryOp.apply_shape h with ⟨_, rfl, _⟩ | ⟨_, rfl⟩ <;> rfl

/-- A method found in the table of a class that refers to scopes that exist closes over one. -/
theorem Value.Within.method {r : Nat} {k : ClassDef} {n : Nat} (hk : (Value.obj r k).Within n)
    {x : Text} {c : Closure} (hc : k.methods.lookup x = some c) : c.scope < n := by
  obtain ⟨l₁, l₂, hl, -⟩ := List.lookup_eq_some_iff.1 hc
  exact (Value.within_cls.1 hk).2 (x, c) (by rw [hl]; simp)

/-- A statement's value, given or returned, refers only to scopes among the first `n`. -/
def Completion.Within : Completion → Nat → Prop
  | .normal v, n => ∀ w ∈ v, w.Within n
  | .returned v, n => v.Within n

/-! ### Stores whose scopes nest -/

/-- The scopes of a store nest: the first global scope, number `0`, exists; every scope's
parent was made before it; and every value bound in a scope or held in a field of an instance
refers only to scopes that exist. -/
structure Store.Nested (s : Store) : Prop where
  global : 0 < s.frames.size
  parent_lt : ∀ i p, s.parent? i = some p → p < i
  vars : ∀ i b, b ∈ s.vars i → b.2.Within s.frames.size
  fields : ∀ r b, b ∈ s.fields r → b.2.Within s.frames.size

namespace Store

variable {s : Store}

theorem mem_vars_define {j i : Nat} {name : Text} {v : Value} {b : Text × Value}
    (h : b ∈ (s.define j name v).vars i) : b ∈ s.vars i ∨ b = (name, v) := by
  simp only [vars, frames_define] at h
  cases hs : s.frames[i]? with
  | none => simp [hs] at h
  | some f =>
    simp only [hs, Option.map_some] at h
    by_cases hij : i = j
    · subst hij
      simp only [if_true] at h
      simpa [vars, hs] using Bindings.mem_set h
    · simp only [hij, if_false] at h
      exact .inl (by simpa [vars, hs] using h)

theorem fields_newFrame (s : Store) (parent : Option Nat) (r : Nat) :
    (s.newFrame parent).1.fields r = s.fields r := by
  simp only [fields, objects_newFrame]

theorem parent?_setField (s : Store) (r : Nat) (name : Text) (v : Value) (i : Nat) :
    (s.setField r name v).parent? i = s.parent? i := by
  cases s
  rfl

theorem parent?_newObject (s : Store) (i : Nat) : s.newObject.1.parent? i = s.parent? i := by
  cases s
  rfl

theorem fresh_nested : Store.fresh.Nested where
  global := by decide
  parent_lt i p h := by
    rcases i with _ | i
    · cases h
    · cases h
  vars i b hb := by
    rcases i with _ | i
    · cases hb
    · cases hb
  fields r b hb := by cases hb

namespace Nested

theorem define (h : s.Nested) (j : Nat) (name : Text) {v : Value}
    (hv : v.Within s.frames.size) : (s.define j name v).Nested where
  global := by rw [size_define]; exact h.global
  parent_lt i p hp := h.parent_lt i p (by rwa [parent?_define] at hp)
  vars i b hb := by
    rw [size_define]
    rcases mem_vars_define hb with hb | rfl
    · exact h.vars i b hb
    · exact hv
  fields r b hb := by
    rw [size_define]
    rw [fields_define] at hb
    exact h.fields r b hb

theorem assign (h : s.Nested) (i : Nat) (name : Text) {v : Value}
    (hv : v.Within s.frames.size) : (s.assign i name v).Nested :=
  h.define _ name hv

theorem setField (h : s.Nested) (r : Nat) (name : Text) {v : Value}
    (hv : v.Within s.frames.size) : (s.setField r name v).Nested where
  global := by rw [size_setField]; exact h.global
  parent_lt i p hp := h.parent_lt i p (by rwa [parent?_setField] at hp)
  vars i b hb := by
    rw [size_setField]
    rw [vars_setField] at hb
    exact h.vars i b hb
  fields r' b hb := by
    rw [size_setField]
    rcases mem_fields_setField hb with hb | rfl
    · exact h.fields r' b hb
    · exact hv

theorem newObject (h : s.Nested) : s.newObject.1.Nested where
  global := by rw [size_newObject]; exact h.global
  parent_lt i p hp := h.parent_lt i p (by rwa [parent?_newObject] at hp)
  vars i b hb := by
    rw [size_newObject]
    rw [vars_newObject] at hb
    exact h.vars i b hb
  fields r b hb := by
    rw [size_newObject]
    rw [fields_newObject] at hb
    exact h.fields r b hb

/-- A new scope, nested in a scope that exists or in none, keeps the scopes nested. -/
theorem newFrame (h : s.Nested) {parent : Option Nat} (hp : ∀ p ∈ parent, p < s.frames.size) :
    (s.newFrame parent).1.Nested where
  global := by rw [size_newFrame]; exact Nat.succ_pos _
  parent_lt i q hq := by
    rw [parent?_newFrame] at hq
    split at hq
    · -- the new scope's parent is an older scope
      rename_i hi
      rw [hi]
      exact hp q hq
    · exact h.parent_lt i q hq
  vars i b hb := by
    rw [vars_newFrame] at hb
    exact (h.vars i b hb).mono (by rw [size_newFrame]; exact Nat.le_succ _)
  fields r b hb := by
    rw [fields_newFrame] at hb
    exact (h.fields r b hb).mono (by rw [size_newFrame]; exact Nat.le_succ _)

theorem child (h : s.Nested) {p : Nat} (hp : p < s.frames.size) : (s.child p).1.Nested :=
  h.newFrame fun _ hq => Option.mem_some_iff.1 hq ▸ hp

theorem lookup_within (h : s.Nested) {i : Nat} {name : Text} {v : Value}
    (hl : s.lookup i name = some v) : v.Within s.frames.size := by
  obtain ⟨j, -, hj⟩ := Option.bind_eq_some_iff.1 hl
  exact h.vars j _ (Bindings.mem_of_get? hj)

theorem field_within (h : s.Nested) {r : Nat} {name : Text} {v : Value}
    (hf : (s.fields r).get? name = some v) : v.Within s.frames.size :=
  h.fields r _ (Bindings.mem_of_get? hf)

/-- In a store whose scopes nest, the chain of a scope that exists starts at the scope and
follows the parents, each made before the scope it is the parent of, down to a global scope,
one that exists and has no parent; so no scope comes twice. -/
theorem chain_path (h : s.Nested) {i : Nat} (hi : i < s.frames.size) :
    ∃ rest, s.chain i = i :: rest ∧
      (∃ g, (i :: rest).getLast? = some g ∧ g < s.frames.size ∧ s.parent? g = none) ∧
      (i :: rest).IsChain (fun a b => s.parent? a = some b ∧ b < a) ∧
      (∀ j ∈ rest, j < i) ∧ (i :: rest).Nodup := by
  induction i using Nat.strongRecOn with
  | ind i ih =>
  obtain ⟨f, hf⟩ : ∃ f, s.frames[i]? = some f := ⟨_, Array.getElem?_eq_getElem hi⟩
  have hpar : s.parent? i = f.parent := by simp [parent?, hf]
  cases hp : f.parent with
  | none =>
    -- a scope without a parent is a global scope, where the chain ends
    refine ⟨[], ?_, ⟨i, rfl, hi, hpar.trans hp⟩, .singleton i,
      fun _ hj => absurd hj List.not_mem_nil, List.nodup_cons.2 ⟨List.not_mem_nil, List.nodup_nil⟩⟩
    rw [chain, hf]
    simp [hp]
  | some p =>
    have hpi : p < i := h.parent_lt i p (hpar.trans hp)
    obtain ⟨rest, hrest, ⟨g, hlast, hg⟩, hchain, hlt, hnodup⟩ := ih p hpi (Nat.lt_trans hpi hi)
    -- the scopes after the parent are older still
    have hlt' : ∀ j ∈ p :: rest, j < i := by
      intro j hj
      rcases List.mem_cons.1 hj with rfl | hj
      · exact hpi
      · exact Nat.lt_trans (hlt j hj) hpi
    refine ⟨p :: rest, ?_, ?_, .cons_cons ⟨hpar.trans hp, hpi⟩ hchain, hlt', ?_⟩
    · rw [chain, hf]
      simp [hp, hpi, hrest]
    · rw [List.getLast?_cons_cons]
      exact ⟨g, hlast, hg⟩
    · exact List.nodup_cons.2 ⟨fun hmem => Nat.lt_irrefl i (hlt' i hmem), hnodup⟩

end Nested

end Store

/-! ### Computations that keep the scopes nested -/

namespace Eval

open Store

/-- How a run ends for `Nests`: in a machine whose store nests and has at least `k` scopes,
and, when it goes through, with a value that `Q` allows at the number of scopes it ends
with. -/
def NestsEnd {α : Type} (k : Nat) (Q : α → Nat → Prop) : EStateM.Result Stop Machine α → Prop
  | .ok a m => m.store.Nested ∧ k ≤ m.store.frames.size ∧ Q a m.store.frames.size
  | .error _ m => m.store.Nested ∧ k ≤ m.store.frames.size

/-- Every run of `x` from a machine whose store nests and has at least `k` scopes ends in a
machine whose store nests and has at least as many scopes, whether it goes through or stops,
with a value that `Q` allows at the number of scopes it ends with. -/
def Nests {α : Type} (k : Nat) (Q : α → Nat → Prop) (x : Eval α) : Prop :=
  ∀ m : Machine, m.store.Nested → k ≤ m.store.frames.size →
    NestsEnd m.store.frames.size Q (x.run m)

theorem NestsEnd.weaken {α : Type} {i j : Nat} {Q : α → Nat → Prop}
    {r : EStateM.Result Stop Machine α} (h : NestsEnd j Q r) (hij : i ≤ j) : NestsEnd i Q r := by
  cases r with
  | ok a m => exact ⟨h.1, Nat.le_trans hij h.2.1, h.2.2⟩
  | error e m => exact ⟨h.1, Nat.le_trans hij h.2⟩

theorem NestsEnd.nested {α : Type} {k : Nat} {Q : α → Nat → Prop}
    {r : EStateM.Result Stop Machine α} (h : NestsEnd k Q r) : (machineAfter r).store.Nested := by
  cases r with
  | ok a m => exact h.1
  | error e m => exact h.1

namespace Nests

variable {α β : Type} {k : Nat} {Q : α → Nat → Prop} {R : β → Nat → Prop}

theorem pure {a : α} (h : ∀ n, k ≤ n → Q a n) : Nests k Q (Pure.pure a : Eval α) :=
  fun _ hm hk => ⟨hm, Nat.le_refl _, h _ hk⟩

theorem throw (e : Stop) : Nests k Q (MonadExcept.throw e : Eval α) :=
  fun _ hm _ => ⟨hm, Nat.le_refl _⟩

theorem fail (f : Fault) : Nests k Q (Eval.fail f : Eval α) :=
  throw _

theorem bind {x : Eval α} {f : α → Eval β} (hx : Nests k Q x)
    (hf : ∀ a n, k ≤ n → Q a n → Nests n R (f a)) : Nests k R (x >>= f) := by
  intro m hm hk
  have h₁ := hx m hm hk
  rw [EStateM.run_bind]
  cases hr : x.run m with
  | ok a m₁ =>
    -- the rest runs from where `x` ended, with at least as many scopes
    rw [hr] at h₁
    obtain ⟨hm₁, hle, hq⟩ := h₁
    exact (hf a _ (Nat.le_trans hk hle) hq m₁ hm₁ (Nat.le_refl _)).weaken hle
  | error e m₁ =>
    rw [hr] at h₁
    exact h₁

/-- What runs after reading the machine runs from that machine. -/
theorem get_bind {f : Machine → Eval β}
    (hf : ∀ m : Machine, m.store.Nested → k ≤ m.store.frames.size →
      Nests m.store.frames.size R (f m)) :
    Nests k R (MonadState.get >>= f) :=
  fun m hm hk => hf m hm hk m hm (Nat.le_refl _)

theorem lift {r : Except Fault α} (hr : ∀ a, r = .ok a → ∀ n, Q a n) : Nests k Q (Eval.lift r) := by
  cases r with
  | ok a => exact pure fun n _ => hr a rfl n
  | error f => exact fail f

theorem of_le {x : Eval α} (h : Nests k Q x) {n : Nat} (hkn : k ≤ n) : Nests n Q x :=
  fun m hm hn => h m hm (Nat.le_trans hkn hn)

/-- A computation that leaves the store as it is. -/
theorem of_store {x : Eval α} (hx : ∀ s, Holds (·.store = s) (fun _ => True) (fun _ => True) x)
    (hq : ∀ a n, Q a n) : Nests k Q x := by
  intro m hm _
  have h := hx m.store m rfl
  cases hr : x.run m with
  | ok a m' =>
    rw [hr] at h
    obtain ⟨-, hs⟩ := h
    exact ⟨hs ▸ hm, hs ▸ Nat.le_refl _, hq a _⟩
  | error e m' =>
    rw [hr] at h
    obtain ⟨-, hs⟩ := h
    exact ⟨hs ▸ hm, hs ▸ Nat.le_refl _⟩

theorem modifyStore {f : Store → Store}
    (hf : ∀ s : Store, s.Nested → k ≤ s.frames.size →
      (f s).Nested ∧ s.frames.size ≤ (f s).frames.size) :
    Nests k (fun _ _ => True) (Eval.modifyStore f) := by
  intro m hm hk
  rw [modifyStore_run]
  obtain ⟨hn, hle⟩ := hf m.store hm hk
  exact ⟨hn, hle, trivial⟩

/-- A new scope nested in one that exists is one more scope that exists. -/
theorem newScope {p : Nat} (hp : p < k) : Nests k (fun i n => i < n) (Eval.newScope p) := by
  intro m hm hk
  rw [newScope_run]
  have hsize : (m.store.child p).1.frames.size = m.store.frames.size + 1 := size_child _ _
  refine ⟨hm.child (Nat.lt_of_lt_of_le hp hk), ?_, ?_⟩
  · show m.store.frames.size ≤ (m.store.child p).1.frames.size
    rw [hsize]
    exact Nat.le_succ _
  · show m.store.frames.size < (m.store.child p).1.frames.size
    rw [hsize]
    exact Nat.lt_succ_self _

theorem newObject : Nests k (fun _ _ => True) Eval.newObject := by
  intro m hm _
  rcases m with ⟨⟨frames, objects⟩, out, trace, level, toFile⟩
  exact ⟨hm.newObject, Nat.le_refl _, trivial⟩

theorem lookup (env : Nat) (name : Text) :
    Nests k (fun o n => ∀ v ∈ o, Value.Within v n) (Eval.lookup env name) := by
  intro m hm _
  rw [lookup_run]
  exact ⟨hm, Nat.le_refl _, fun _ hv => hm.lookup_within hv⟩

end Nests

section Primitives

variable {k : Nat}

theorem note_nests (e : Event) : Nests k (fun _ _ => True) (note e) :=
  Nests.of_store (fun _ => note_holds (fun _ hm => hm) fun _ _ _ _ => trivial) fun _ _ => trivial

theorem emit_nests (t : Text) : Nests k (fun _ _ => True) (emit t) :=
  Nests.of_store (fun _ => emit_holds fun _ hm => hm) fun _ _ => trivial

theorem printValues_nests (vs : List Value) : Nests k (fun _ _ => True) (printValues vs) := by
  unfold printValues
  split
  · split
    · exact emit_nests _
    · exact Nests.throw _
    · exact Nests.fail _
  · exact Nests.fail _
  · exact Nests.pure fun _ _ => trivial

/-- Binding a value that refers to scopes that exist keeps the scopes nested. -/
theorem define_nests {v : Value} (j : Nat) (name : Text) (hv : v.Within k) :
    Nests k (fun _ _ => True) (Eval.modifyStore (·.define j name v)) :=
  Nests.modifyStore fun s hs hk =>
    ⟨hs.define j name (hv.mono hk), Nat.le_of_eq (size_define s j name v).symm⟩

/-- A function is bound to a closure over the scope it is declared in. -/
theorem declare_nests {env : Nat} (henv : env < k) (f : Func) :
    Nests k (fun c _ => c.scope = env) (declare env f) :=
  Nests.bind (define_nests env _ (Value.within_fn.2 henv)) fun _ _ _ _ =>
    Nests.bind (note_nests _) fun _ _ _ _ => Nests.pure fun _ _ => rfl

/-- A class's methods close over the class scope. -/
theorem declareMethods_nests {scope : Nat} (hscope : scope < k) :
    ∀ (ms : List Func) (table : List (Text × Closure)), (∀ e ∈ table, e.2.scope = scope) →
      Nests k (fun t _ => ∀ e ∈ t, e.2.scope = scope) (declareMethods scope ms table)
  | [], _, htable => Nests.pure fun _ _ => htable
  | m :: ms, table, htable =>
    Nests.bind (declare_nests hscope m) fun c _ hn hc =>
      (declareMethods_nests hscope ms _ fun e he => by
        rcases mem_setMethod he with he | rfl
        · exact htable e he
        · exact hc).of_le hn

/-- A class declared in a scope that exists has a scope of its own nested in it. -/
theorem declareClass_nests {env : Nat} (henv : env < k) (name : Text) (ms : List Func) :
    Nests k (fun c n => (Value.cls c).Within n) (declareClass env name ms) := by
  unfold declareClass
  refine Nests.bind (Nests.newScope henv) fun scope n hn hscope => ?_
  refine Nests.bind (declareMethods_nests hscope ms [] fun _ h => absurd h List.not_mem_nil)
    fun table n' hn' htable => ?_
  -- the class refers to its scope, which its methods close over
  have hcls : (Value.cls ⟨name, table, scope⟩).Within n' :=
    Value.within_cls.2 ⟨Nat.lt_of_lt_of_le hscope hn',
      fun e he => (htable e he).symm ▸ Nat.lt_of_lt_of_le hscope hn'⟩
  refine Nests.bind (define_nests env name hcls) fun _ n'' hn'' _ => ?_
  exact Nests.bind (note_nests _) fun _ n''' hn''' _ =>
    Nests.pure fun _ h => hcls.mono (Nat.le_trans hn'' (Nat.le_trans hn''' h))

/-- A method bound to an instance is a closure over a new scope nested in the method's. -/
theorem bindMethod_nests {c : Closure} (hc : c.scope < k) {self : Value} (hself : self.Within k) :
    Nests k Value.Within (bindMethod c self) := by
  unfold bindMethod
  refine Nests.bind (Nests.newScope hc) fun scope n hn hscope => ?_
  exact Nests.bind (define_nests scope _ (hself.mono hn)) fun _ n' hn' _ =>
    Nests.pure fun _ h => Value.within_fn.2 (Nat.lt_of_lt_of_le hscope (Nat.le_trans hn' h))

/-- Binding parameters to values that refer to scopes that exist keeps the scopes nested and
makes no scope. -/
theorem bindParams_nested {scope : Nat} :
    ∀ (ps : List (Scalar × Value)) (s : Store), s.Nested →
      (∀ pv ∈ ps, pv.2.Within s.frames.size) →
      (ps.foldl (fun s (p, v) => s.define scope p.display v) s).Nested ∧
        (ps.foldl (fun s (p, v) => s.define scope p.display v) s).frames.size = s.frames.size
  | [], _, hs, _ => ⟨hs, rfl⟩
  | (p, v) :: ps, s, hs, hps => by
    have hv : v.Within s.frames.size := hps (p, v) List.mem_cons_self
    obtain ⟨hn, hsize⟩ := bindParams_nested ps _ (hs.define scope p.display hv) fun pv hpv => by
      rw [size_define]
      exact hps pv (List.mem_cons_of_mem _ hpv)
    exact ⟨hn, hsize.trans (size_define _ _ _ _)⟩

end Primitives

/-! ### The evaluator keeps the scopes nested -/

/-- With `n` frames left, every part of the evaluator, run in a scope that exists, keeps the
scopes nested, whether it goes through or stops, and gives values that refer only to scopes
that exist. -/
structure AllNest (n : Nat) : Prop where
  expr : ∀ k env, env < k → ∀ e, Nests k Value.Within (expr n env e)
  arguments : ∀ k env, env < k → ∀ args,
    Nests k (fun vs n => ∀ v ∈ vs, Value.Within v n) (arguments n env args)
  call : ∀ k cl args env, cl.scope < k → env < k → Nests k Value.Within (call n cl args env)
  test : ∀ k env, env < k → ∀ c, Nests k (fun _ _ => True) (test n env c)
  block : ∀ k env, env < k → ∀ ss, Nests k Completion.Within (block n env ss)
  print : ∀ k env, env < k → ∀ args, Nests k (fun _ _ => True) (print n env args)
  stmt : ∀ k env, env < k → ∀ s, Nests k Completion.Within (stmt n env s)

namespace AllNest

variable {n : Nat}

theorem zero : AllNest 0 where
  expr _ _ _ _ := by simp only [Eval.expr]; exact Nests.fail _
  arguments _ _ _ _ := by simp only [Eval.arguments]; exact Nests.fail _
  call _ _ _ _ _ _ := by simp only [Eval.call]; exact Nests.fail _
  test _ _ _ _ := by simp only [Eval.test]; exact Nests.fail _
  block _ _ _ _ := by simp only [Eval.block]; exact Nests.fail _
  print _ _ _ _ := by simp only [Eval.print]; exact Nests.fail _
  stmt _ _ _ _ := by simp only [Eval.stmt]; exact Nests.fail _

/-- A value that refers to scopes that exist is given at any later point. -/
theorem pure_within {k : Nat} {v : Value} (hv : v.Within k) : Nests k Value.Within (Pure.pure v) :=
  Nests.pure fun _ h => hv.mono h

theorem exprs (h : AllNest n) :
    ∀ (es : List Expr) (k env : Nat), env < k →
      Nests k (fun vs n => ∀ v ∈ vs, Value.Within v n) (Eval.exprs n env es)
  | [], _, _, _ => by
    simp only [Eval.exprs]
    exact Nests.pure fun _ _ _ hv => absurd hv List.not_mem_nil
  | e :: es, k, env, henv => by
    simp only [Eval.exprs]
    refine Nests.bind (h.expr k env henv e) fun v n₁ hk₁ hv => ?_
    refine Nests.bind (h.exprs es n₁ env (Nat.lt_of_lt_of_le henv hk₁)) fun vs n₂ hk₂ hvs => ?_
    refine Nests.pure fun n₃ hk₃ w hw => ?_
    rcases List.mem_cons.1 hw with rfl | hw
    · exact hv.mono (Nat.le_trans hk₂ hk₃)
    · exact (hvs w hw).mono hk₃

theorem stmts (h : AllNest n) :
    ∀ (ss : List Stmt) (k env : Nat) (last : Option Value), env < k →
      (∀ w ∈ last, Value.Within w k) → Nests k Completion.Within (Eval.stmts n env last ss)
  | [], _, _, _, _, hlast => by
    simp only [Eval.stmts]
    exact Nests.pure fun _ h w hw => (hlast w hw).mono h
  | s :: ss, k, env, _, henv, _ => by
    simp only [Eval.stmts]
    refine Nests.bind (h.stmt k env henv s) fun c n₁ hk₁ hc => ?_
    cases c with
    | returned v => exact Nests.pure fun _ h => Value.Within.mono hc h
    | normal v => exact h.stmts ss n₁ env v (Nat.lt_of_lt_of_le henv hk₁) hc

theorem loop (h : AllNest n) (c : Expr) (body : Stmt) :
    ∀ (j k env : Nat) (last : Option Value), env < k → (∀ w ∈ last, Value.Within w k) →
      Nests k Completion.Within (Eval.loop n env c body last j)
  | 0, _, _, _, _, _ => by simp only [Eval.loop]; exact Nests.fail _
  | j + 1, k, env, last, henv, hlast => by
    simp only [Eval.loop]
    refine Nests.bind (h.test k env henv c) fun b n₁ hk₁ _ => ?_
    cases b with
    | false => exact Nests.pure fun _ h w hw => (hlast w hw).mono (Nat.le_trans hk₁ h)
    | true =>
      refine Nests.bind (h.stmt n₁ env (Nat.lt_of_lt_of_le henv hk₁) body) fun r n₂ hk₂ hr => ?_
      cases r with
      | returned v => exact Nests.pure fun _ h => Value.Within.mono hr h
      | normal v => exact h.loop c body j n₂ env v (Nat.lt_of_lt_of_le henv (Nat.le_trans hk₁ hk₂)) hr

theorem expr_succ (h : AllNest n) (k env : Nat) (henv : env < k) :
    ∀ e, Nests k Value.Within (Eval.expr (n + 1) env e) := by
  intro e
  cases e with
  | literal x =>
    simp only [Eval.expr]
    exact Nests.pure fun _ _ => Value.within_ofScalar x _
  | var x =>
    simp only [Eval.expr]
    refine Nests.bind (Nests.lookup env _) fun o n₁ _ ho => ?_
    cases o with
    | some v => exact pure_within (ho v rfl)
    | none => exact Nests.fail _
  | group x => simp only [Eval.expr]; exact h.expr k env henv x
  | assign x v =>
    simp only [Eval.expr]
    refine Nests.bind (h.expr k env henv v) fun val n₁ _ hval => ?_
    refine Nests.bind (Nests.modifyStore fun s hs hk => ⟨hs.assign env _ (hval.mono hk),
      Nat.le_of_eq (size_define _ _ _ _).symm⟩) fun _ n₂ hk₂ _ => ?_
    exact pure_within (hval.mono hk₂)
  | binary op lx l r =>
    simp only [Eval.expr]
    refine Nests.bind (h.expr k env henv l) fun a n₁ hk₁ _ => ?_
    refine Nests.bind (h.expr n₁ env (Nat.lt_of_lt_of_le henv hk₁) r) fun b _ _ _ => ?_
    exact Nests.lift fun v hv => BinOp.apply_within hv
  | logical op lx l r =>
    simp only [Eval.expr]
    refine Nests.bind (h.expr k env henv l) fun a n₁ hk₁ _ => ?_
    refine Nests.bind (h.expr n₁ env (Nat.lt_of_lt_of_le henv hk₁) r) fun b _ _ _ => ?_
    exact Nests.lift fun v hv => LogicOp.apply_within hv
  | unary op lx x =>
    simp only [Eval.expr]
    refine Nests.bind (h.expr k env henv x) fun a _ _ _ => ?_
    exact Nests.lift fun v hv => UnaryOp.apply_within hv
  | call c args =>
    simp only [Eval.expr]
    refine Nests.bind (h.expr k env henv c) fun f n₁ hk₁ hf => ?_
    have henv₁ : env < n₁ := Nat.lt_of_lt_of_le henv hk₁
    split
    · exact h.call n₁ _ args env (Value.within_fn.1 hf) henv₁
    · split
      · -- a new instance carries its class, which refers to scopes that exist
        refine Nests.bind (note_nests _) fun _ n₂ hk₂ _ => ?_
        refine Nests.bind Nests.newObject fun _ n₃ hk₃ _ => ?_
        exact pure_within (hf.mono (Nat.le_trans hk₂ hk₃))
      · exact Nests.fail _
    · exact Nests.fail _
  | getField t x =>
    simp only [Eval.expr]
    refine Nests.bind (h.expr k env henv t) fun v n₁ _ hv => ?_
    split
    · refine Nests.get_bind fun m hm hk => ?_
      split
      · -- a field holds a value that refers to scopes that exist
        rename_i hfield
        exact pure_within (hm.field_within hfield)
      · split
        · rename_i hmeth
          exact bindMethod_nests (Nat.lt_of_lt_of_le (hv.method hmeth) hk) (hv.mono hk)
        · exact Nests.fail _
    · exact Nests.fail _
  | setField t x e =>
    simp only [Eval.expr]
    refine Nests.bind (h.expr k env henv t) fun v n₁ hk₁ _ => ?_
    split
    · refine Nests.bind (h.expr n₁ env (Nat.lt_of_lt_of_le henv hk₁) e) fun val n₂ _ hval => ?_
      refine Nests.bind (Nests.modifyStore fun s hs hk => ⟨hs.setField _ _ (hval.mono hk),
        Nat.le_of_eq (size_setField _ _ _ _).symm⟩) fun _ n₃ hk₃ _ => ?_
      exact pure_within (hval.mono hk₃)
    · exact Nests.fail _
  | thisRef =>
    simp only [Eval.expr]
    refine Nests.bind (Nests.lookup env _) fun o n₁ _ ho => ?_
    cases o with
    | some v => exact pure_within (ho v rfl)
    | none => exact Nests.fail _

/-- A call binds the parameters in a new scope nested in the function's, and runs the body as
a block there. -/
theorem enter_nests (h : AllNest n) {k : Nat} {cl : Closure} (hcl : cl.scope < k)
    {vals : List Value} (hvals : ∀ v ∈ vals, v.Within k) :
    Nests k Value.Within (enter n cl vals) := by
  refine Nests.bind (Nests.newScope hcl) fun scope n₁ hk₁ hscope => ?_
  refine Nests.bind (Nests.modifyStore fun s hs hk => ?_) fun _ n₂ hk₂ _ => ?_
  · -- every argument refers to scopes that exist before the call's scope is made
    obtain ⟨hn, hsize⟩ := bindParams_nested (cl.decl.params.zip vals) s hs fun pv hpv =>
      (hvals _ (List.of_mem_zip hpv).2).mono (Nat.le_trans hk₁ hk)
    exact ⟨hn, Nat.le_of_eq hsize.symm⟩
  refine Nests.bind (note_nests _) fun _ n₃ hk₃ _ => ?_
  have hscope₃ : scope < n₃ := Nat.lt_of_lt_of_le hscope (Nat.le_trans hk₂ hk₃)
  refine Nests.bind (h.stmt n₃ scope hscope₃ (.block cl.decl.body)) fun c n₄ _ hc => ?_
  split
  · exact pure_within hc
  · exact pure_within (hc _ rfl)
  · exact Nests.pure fun _ _ => Value.within_of_scopes rfl _

theorem call_succ (h : AllNest n) {k : Nat} (cl : Closure) (args : List Expr) {env : Nat}
    (hcl : cl.scope < k) (henv : env < k) : Nests k Value.Within (Eval.call (n + 1) cl args env) := by
  rw [call_succ_eq]
  split
  · exact Nests.fail _
  · exact Nests.bind (h.arguments k env henv args) fun vals n₁ hk₁ hvals =>
      h.enter_nests (Nat.lt_of_lt_of_le hcl hk₁) hvals

theorem stmt_succ (h : AllNest n) (k env : Nat) (henv : env < k) :
    ∀ s, Nests k Completion.Within (Eval.stmt (n + 1) env s) := by
  intro s
  cases s with
  | expr e =>
    simp only [Eval.stmt]
    exact Nests.bind (h.expr k env henv e) fun v _ _ hv =>
      Nests.pure fun _ h' w hw => by cases hw; exact hv.mono h'
  | letDecl x init =>
    -- the value is bound in the scope the declaration runs in
    have hbind : ∀ v n₁, k ≤ n₁ → v.Within n₁ → Nests n₁ Completion.Within (do
        modifyStore (·.define env x.display v)
        note (.bind x.display v)
        Pure.pure (Completion.normal (some v)) : Eval Completion) := fun v n₁ _ hv =>
      Nests.bind (define_nests env _ hv) fun _ n₂ hk₂ _ =>
        Nests.bind (note_nests _) fun _ n₃ hk₃ _ =>
          Nests.pure fun _ h' w hw => by
            cases hw
            exact hv.mono (Nat.le_trans hk₂ (Nat.le_trans hk₃ h'))
    cases init with
    | some e =>
      simp only [Eval.stmt]
      exact Nests.bind (h.expr k env henv e) hbind
    | none =>
      simp only [Eval.stmt]
      exact Nests.bind (Nests.pure fun _ _ => Value.within_of_scopes rfl _) hbind
  | block ss =>
    simp only [Eval.stmt]
    exact Nests.bind (Nests.newScope henv) fun scope n₁ _ hscope => h.block n₁ scope hscope ss
  | funDecl f =>
    simp only [Eval.stmt]
    exact Nests.bind (declare_nests henv f) fun c _ hk₁ hc =>
      Nests.pure fun _ h' w hw => by
        cases hw
        exact Value.within_fn.2 (hc ▸ Nat.lt_of_lt_of_le henv (Nat.le_trans hk₁ h'))
  | classDecl x ms =>
    simp only [Eval.stmt]
    exact Nests.bind (declareClass_nests henv _ ms) fun c _ _ hc =>
      Nests.pure fun _ h' w hw => by
        cases hw
        exact hc.mono h'
  | ifElse c yes no =>
    cases no with
    | some t =>
      simp only [Eval.stmt]
      refine Nests.bind (h.test k env henv c) fun b n₁ hk₁ _ =>
        Nests.bind (note_nests _) fun _ n₂ hk₂ _ => ?_
      have henv₂ : env < n₂ := Nat.lt_of_lt_of_le henv (Nat.le_trans hk₁ hk₂)
      cases b with
      | true => exact h.stmt n₂ env henv₂ yes
      | false => exact h.stmt n₂ env henv₂ t
    | none =>
      simp only [Eval.stmt]
      refine Nests.bind (h.test k env henv c) fun b n₁ hk₁ _ =>
        Nests.bind (note_nests _) fun _ n₂ hk₂ _ => ?_
      cases b with
      | true => exact h.stmt n₂ env (Nat.lt_of_lt_of_le henv (Nat.le_trans hk₁ hk₂)) yes
      | false => exact Nests.pure fun _ _ w hw => absurd hw (Option.not_mem_none w)
  | whileLoop c body =>
    simp only [Eval.stmt]
    exact h.loop c body _ k env none henv fun w hw => absurd hw (Option.not_mem_none w)
  | ret v =>
    cases v with
    | some e =>
      simp only [Eval.stmt]
      exact Nests.bind (h.expr k env henv e) fun val _ _ hval =>
        Nests.pure fun _ h' => Value.Within.mono hval h'
    | none =>
      simp only [Eval.stmt]
      exact Nests.bind (Nests.pure fun _ _ => Value.within_of_scopes rfl _) fun val _ _ hval =>
        Nests.pure fun _ h' => Value.Within.mono hval h'
  | print args =>
    simp only [Eval.stmt]
    exact Nests.bind (h.print k env henv args) fun _ _ _ _ =>
      Nests.pure fun _ _ w hw => absurd hw (Option.not_mem_none w)

theorem succ (h : AllNest n) : AllNest (n + 1) where
  expr k env henv := h.expr_succ k env henv
  arguments k env henv args := by simp only [Eval.arguments]; exact h.exprs args k env henv
  call k cl args env hcl henv := h.call_succ cl args hcl henv
  test k env henv c := by
    simp only [Eval.test]
    refine Nests.bind (h.expr k env henv c) fun v _ _ _ => ?_
    split
    · exact Nests.pure fun _ _ => trivial
    · exact Nests.fail _
  block k env henv ss := by
    simp only [Eval.block]
    exact h.stmts ss k env none henv fun w hw => absurd hw (Option.not_mem_none w)
  print k env henv args := by
    simp only [Eval.print]
    exact Nests.bind (h.arguments k env henv args) fun vals _ _ _ => printValues_nests vals
  stmt k env henv := h.stmt_succ k env henv

end AllNest

/-- Whatever frames are left, every part of the evaluator, run in a scope that exists, keeps
the scopes nested. The induction is on the frames left. -/
theorem allNest : ∀ n, AllNest n
  | 0 => AllNest.zero
  | n + 1 => (allNest n).succ

/-- A computation that keeps the scopes nested from every store with at least `k` scopes keeps
them nested, with at least `k` scopes. -/
theorem Nests.holds {α : Type} {k : Nat} {Q : α → Nat → Prop} {x : Eval α} (h : Nests k Q x) :
    Holds (fun m => m.store.Nested ∧ k ≤ m.store.frames.size) (fun _ => True) (fun _ => True) x := by
  intro m ⟨hm, hk⟩
  have h₁ := (h m hm hk).weaken hk
  cases hr : x.run m with
  | ok a m' =>
    rw [hr] at h₁
    exact ⟨trivial, h₁.1, h₁.2.1⟩
  | error e m' =>
    rw [hr] at h₁
    exact ⟨trivial, h₁.1, h₁.2⟩

end Eval

/-! ### Runs and sessions keep the scopes nested -/

namespace Program

open Eval

/-- A run in a global scope that exists, from a store whose scopes nest, ends in a store whose
scopes nest, where that scope still exists: a top-level statement runs in that scope. -/
theorem runIn_nested (p : Program) {env : Nat} {m m' : Machine} {o : Outcome}
    (hm : m.store.Nested) (henv : env < m.store.frames.size) (h : p.runIn env m = .ok (o, m')) :
    m'.store.Nested ∧ env < m'.store.frames.size :=
  p.runIn_holds (I := fun m => m.store.Nested ∧ env + 1 ≤ m.store.frames.size)
    (runStmts_holds (fun s => ((allNest nestingLimit).stmt (env + 1) env (Nat.lt_succ_self _) s).holds)
      (fun _ => note_holds (fun _ hm => hm) fun _ _ _ _ => trivial) _ _) ⟨hm, henv⟩ h

end Program

namespace Repl

/-- An answer keeps the scopes nested, with the current global scope among them: a reset makes
a new global scope after all the others, and a run starts from the store the answers before
left, in the global scope they left. -/
theorem answer_nested {m m' : Machine} {line : Text} {r : Reply}
    (hm : m.store.Nested ∧ m.global < m.store.frames.size) (h : answer m line = .ok (r, m')) :
    m'.store.Nested ∧ m'.global < m'.store.frames.size := by
  rcases answer_cases h with rfl | rfl | ⟨p, o, hrun⟩
  · exact hm
  · refine ⟨hm.1.newFrame fun q hq => absurd hq (Option.not_mem_none q), ?_⟩
    show m.store.frames.size < (m.store.newFrame none).1.frames.size
    rw [Store.size_newFrame]
    exact Nat.lt_succ_self _
  · -- the run ends in the global scope it ran in
    have hg : m'.global = m.global := (Prod.mk.inj (Program.runIn_keepsSettings p hrun)).2
    rw [hg]
    exact @Program.runIn_nested p m.global m.clearOutput _ _ hm.1 hm.2 hrun

theorem answerAll_nested {m m' : Machine} {ls : List Text} {rs : List Reply}
    (hm : m.store.Nested ∧ m.global < m.store.frames.size) (h : answerAll m ls = .ok (rs, m')) :
    m'.store.Nested ∧ m'.global < m'.store.frames.size :=
  answerAll_keeps (fun m => m.store.Nested ∧ m.global < m.store.frames.size)
    (fun hm ha => answer_nested hm ha) hm h

end Repl

/-- Scope chains are finite. Every statement run in a scope that exists, and every program
run, from a store whose scopes nest ends in a store whose scopes nest, whether it goes through
or stops; and so does every session of the loop, resets included, from a fresh machine. In such
a store every scope's parent was made before it, and the chain of every scope that exists
starts at the scope, follows the parents down to a global scope, one that exists and has no
parent, and has no scope twice. The scopes that the functions, classes, instances and bound
methods held in scopes and fields refer to all exist, so their chains are such chains too. -/
theorem scope_chains_finite :
    (∀ (n env : Nat) (s : Stmt) (m : Machine), m.store.Nested → env < m.store.frames.size →
      (Eval.machineAfter ((Eval.stmt n env s).run m)).store.Nested) ∧
    (∀ (p : Program) (m m' : Machine) (o : Outcome), m.store.Nested →
      p.run m = .ok (o, m') → m'.store.Nested) ∧
    (∀ (level : Nat) (toFile : Bool) (ls : List Text) (rs : List Reply) (m' : Machine),
      Repl.answerAll (Machine.fresh level toFile) ls = .ok (rs, m') → m'.store.Nested) ∧
    ∀ s : Store, s.Nested →
      (∀ i p, s.parent? i = some p → p < i) ∧
      (∀ i < s.frames.size, ∃ rest, s.chain i = i :: rest ∧
        (∃ g, (i :: rest).getLast? = some g ∧ g < s.frames.size ∧ s.parent? g = none) ∧
        (i :: rest).IsChain (fun a b => s.parent? a = some b ∧ b < a) ∧ (i :: rest).Nodup) ∧
      (∀ j b, b ∈ s.vars j → ∀ i ∈ b.2.scopes, i < s.frames.size) ∧
      (∀ r b, b ∈ s.fields r → ∀ i ∈ b.2.scopes, i < s.frames.size) := by
  refine ⟨fun n env st m hm henv => ?_,
    fun p m m' o hm h => (Program.runIn_nested p hm hm.global h).1,
    fun level toFile ls rs m' h => (Repl.answerAll_nested ⟨Store.fresh_nested, Nat.one_pos⟩ h).1,
    fun s hs => ⟨hs.parent_lt, fun i hi => ?_, hs.vars, hs.fields⟩⟩
  · exact ((Eval.allNest n).stmt _ env henv st m hm (Nat.le_refl _)).nested
  · obtain ⟨rest, hchain, hlast, hpath, -, hnodup⟩ := hs.chain_path hi
    exact ⟨rest, hchain, hlast, hpath, hnodup⟩

/-- A reset on a fresh machine makes a second global scope, and the chain of that scope ends
at a scope without a parent. -/
theorem reset_scope_chain :
    Repl.answerAll (Machine.fresh 0 false) [("/reset" : Text)] =
      .ok ([Repl.resetReply], ⟨⟨#[⟨none, []⟩, ⟨none, []⟩], #[]⟩, #[], #[], 0, false, 1⟩) ∧
    ∃ rest g, Store.chain ⟨#[⟨none, []⟩, ⟨none, []⟩], #[]⟩ 1 = 1 :: rest ∧
      (1 :: rest).getLast? = some g ∧ Store.parent? ⟨#[⟨none, []⟩, ⟨none, []⟩], #[]⟩ g = none := by
  have hreset : Repl.answerAll (Machine.fresh 0 false) [("/reset" : Text)] =
      .ok ([Repl.resetReply], ⟨⟨#[⟨none, []⟩, ⟨none, []⟩], #[]⟩, #[], #[], 0, false, 1⟩) := rfl
  obtain ⟨-, -, hsession, hchains⟩ := scope_chains_finite
  obtain ⟨rest, hchain, ⟨g, hlast, -, hg⟩, -, -⟩ :=
    (hchains _ (hsession 0 false _ _ _ hreset)).2.1 1 (by decide)
  exact ⟨hreset, rest, g, hchain, hlast, hg⟩

end Ember
