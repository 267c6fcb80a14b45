import Mathlib.Control.Monad.Basic
import Ember.Run
import Ember.Proofs.Invariant
import Ember.Proofs.ScopeWrites
import Ember.Proofs.Names
/-!
`this` is bound only by method binding, and never rebound.

Reading a method from an instance makes a new scope that binds `this` to the instance and
nothing else (`Eval.bindMethod`). No other part of the evaluator binds `this`: the names a
program declares, assigns and passes as parameters are none of them `this`
(`Program.ofSource_names`). So every store a run reaches keeps one discipline (`ThisSafe`):

* a scope that binds `this` binds nothing else, and binds it to an instance;
* every value in a scope or a field has code that names no `this`, so that running it later
  binds no `this` either.

And from one store to any later one (`ThisKept`), a scope that binds `this` keeps its
bindings, and no scope that did not bind `this` comes to bind it. The evaluator keeps both,
whatever it runs, by induction on the frames left (`Eval.allThisSafe`), as long as it runs in
a scope that binds no `this` (`Store.Plain`): a statement runs in the global scope, a block's
scope or a call's scope, none of which is a method's binding scope.

Hence `this` evaluates to the instance bound in the innermost binding scope of the current
chain, and fails exactly when the chain has none (`Eval.thisRef_run`); a bound method's scope,
with its instance, never changes afterwards.
-/

namespace Ember

/-! ### Code that names no `this` -/

/-- None of the names is `this`. -/
def NoThis (names : List Scalar) : Prop :=
  ∀ x ∈ names, x.display ≠ "this"

@[simp] theorem noThis_nil : NoThis [] := fun _ h => absurd h List.not_mem_nil

@[simp] theorem noThis_cons {x : Scalar} {xs : List Scalar} :
    NoThis (x :: xs) ↔ x.display ≠ "this" ∧ NoThis xs :=
  List.forall_mem_cons

@[simp] theorem noThis_append {xs ys : List Scalar} :
    NoThis (xs ++ ys) ↔ NoThis xs ∧ NoThis ys :=
  List.forall_mem_append

/-- A closure whose code names no `this`. -/
def Closure.Clean (c : Closure) : Prop :=
  NoThis c.decl.names

/-- A value whose code names no `this`: a closure's, or the methods' of a class or of an
instance's class. -/
def Value.Clean : Value → Prop
  | .fn c => c.Clean
  | .cls k | .obj _ k => ∀ m ∈ k.methods, m.2.Clean
  | _ => True

/-- A completion whose value, if any, is clean. -/
def Completion.Clean : Completion → Prop
  | .normal v => ∀ x ∈ v, x.Clean
  | .returned v => v.Clean

theorem Completion.clean_some {v : Value} (hv : v.Clean) : (Completion.normal (some v)).Clean :=
  fun _ hx => by
    cases hx
    exact hv

theorem Completion.clean_none : (Completion.normal none).Clean :=
  fun _ hx => absurd hx (Option.not_mem_none _)

namespace Bindings

theorem mem_set {bs : Bindings} {name : Text} {v : Value} {b : Text × Value}
    (h : b ∈ bs.set name v) : b ∈ bs ∨ b = (name, v) := by
  unfold set at h
  split at h
  · obtain ⟨b', hb', rfl⟩ := List.mem_map.1 h
    by_cases hb : b'.1 = name
    · simp [hb]
    · simp [hb, hb']
  · rcases List.mem_append.1 h with h | h
    · exact .inl h
    · exact .inr (List.mem_singleton.1 h)

theorem mem_of_get? {bs : Bindings} {name : Text} {v : Value} (h : bs.get? name = some v) :
    (name, v) ∈ bs := by
  obtain ⟨b, hb, rfl⟩ := Option.map_eq_some_iff.1 h
  have hname : b.1 = name := by simpa using List.find?_some hb
  rw [← hname]
  exact List.mem_of_find?_eq_some hb

end Bindings

theorem Eval.mem_setMethod {table : List (Text × Closure)} {name : Text} {c : Closure}
    {e : Text × Closure} (h : e ∈ Eval.setMethod table name c) : e ∈ table ∨ e = (name, c) := by
  unfold Eval.setMethod at h
  split at h
  · obtain ⟨e', he', rfl⟩ := List.mem_map.1 h
    by_cases he : e'.1 = name
    · simp [he]
    · simp [he, he']
  · rcases List.mem_append.1 h with h | h
    · exact .inl h
    · exact .inr (List.mem_singleton.1 h)

/-! ### The store's discipline -/

namespace Store

theorem vars_newFrame (s : Store) (parent : Option Nat) (i : Nat) :
    (s.newFrame parent).1.vars i = s.vars i := by
  cases s with
  | mk frames objects =>
    simp only [newFrame, vars, Array.getElem?_push]
    by_cases h : i = frames.size
    · -- the new scope binds nothing, as no scope did at its number
      subst h
      simp
    · simp only [h, if_false]

theorem size_newFrame (s : Store) (parent : Option Nat) :
    (s.newFrame parent).1.frames.size = s.frames.size + 1 := by
  cases s
  simp [newFrame]

theorem objects_newFrame (s : Store) (parent : Option Nat) :
    (s.newFrame parent).1.objects = s.objects := by
  cases s
  rfl

theorem vars_child (s : Store) (p i : Nat) : (s.child p).1.vars i = s.vars i :=
  s.vars_newFrame (some p) i

theorem size_child (s : Store) (p : Nat) : (s.child p).1.frames.size = s.frames.size + 1 :=
  s.size_newFrame (some p)

theorem objects_child (s : Store) (p : Nat) : (s.child p).1.objects = s.objects :=
  s.objects_newFrame (some p)

theorem vars_newObject (s : Store) (i : Nat) : s.newObject.1.vars i = s.vars i := by
  cases s
  rfl

theorem size_newObject (s : Store) : s.newObject.1.frames.size = s.frames.size := by
  cases s
  rfl

theorem fields_newObject (s : Store) (r : Nat) : s.newObject.1.fields r = s.fields r := by
  cases s with
  | mk frames objects =>
    simp only [newObject, fields, Array.getElem?_push]
    by_cases h : r = objects.size
    · subst h
      simp
    · simp only [h, if_false]

theorem vars_setField (s : Store) (r : Nat) (name : Text) (v : Value) (i : Nat) :
    (s.setField r name v).vars i = s.vars i := by
  cases s
  rfl

theorem size_setField (s : Store) (r : Nat) (name : Text) (v : Value) :
    (s.setField r name v).frames.size = s.frames.size := by
  cases s
  rfl

theorem mem_fields_setField {s : Store} {r : Nat} {name : Text} {v : Value} {r' : Nat}
    {b : Text × Value} (h : b ∈ (s.setField r name v).fields r') :
    b ∈ s.fields r' ∨ b = (name, v) := by
  cases s with
  | mk frames objects =>
    simp only [setField, fields, Array.getElem?_modify] at h
    by_cases hr : r = r'
    · subst hr
      cases hs : objects[r]? with
      | none => simp [hs] at h
      | some fs =>
        simp only [hs, if_true, Option.map_some, Option.getD_some] at h
        simpa [fields, hs] using Bindings.mem_set h
    · simp only [hr, if_false] at h
      exact .inl h

theorem fields_define (s : Store) (j : Nat) (name : Text) (v : Value) (r : Nat) :
    (s.define j name v).fields r = s.fields r := by
  simp only [fields, objects_define]

theorem lt_size_of_binds {s : Store} {name : Text} {i : Nat} (h : s.binds name i = true) :
    i < s.frames.size := by
  apply Nat.lt_of_not_le
  intro hi
  simp [binds, vars, Array.getElem?_eq_none hi, Bindings.contains] at h

/-- The discipline of `this` in a store: every value bound in a scope or held in a field has
code that names no `this`, and a scope that binds `this` binds nothing else, to an instance. -/
structure ThisSafe (s : Store) : Prop where
  vars_clean : ∀ i, ∀ b ∈ s.vars i, b.2.Clean
  fields_clean : ∀ r, ∀ b ∈ s.fields r, b.2.Clean
  this_only : ∀ i, s.binds "this" i = true →
    ∃ r k, s.vars i = [(Text.ofString "this", Value.obj r k)]

/-- From `s` to `s'` no scope was lost, a scope that binds `this` kept its bindings, and no
scope that did not bind `this` came to bind it. -/
structure ThisKept (s s' : Store) : Prop where
  size_le : s.frames.size ≤ s'.frames.size
  kept : ∀ i, s.binds "this" i = true → s'.vars i = s.vars i
  no_new : ∀ i < s.frames.size, s'.binds "this" i = true → s.binds "this" i = true

/-- Scope `env` exists and does not bind `this`: a scope that statements run in. -/
def Plain (s : Store) (env : Nat) : Prop :=
  env < s.frames.size ∧ s.binds "this" env = false

namespace ThisKept

variable {s s' s'' : Store}

theorem refl (s : Store) : ThisKept s s :=
  ⟨Nat.le_refl _, fun _ _ => rfl, fun _ _ h => h⟩

theorem trans (h : ThisKept s s') (h' : ThisKept s' s'') : ThisKept s s'' where
  size_le := Nat.le_trans h.size_le h'.size_le
  kept i hi := by
    have hi' : s'.binds "this" i = true := by
      unfold binds
      rw [h.kept i hi]
      exact hi
    rw [h'.kept i hi', h.kept i hi]
  no_new i hi hb := h.no_new i hi (h'.no_new i (Nat.lt_of_lt_of_le hi h.size_le) hb)

/-- A store whose scopes bind what they bound, with perhaps more scopes after them. -/
theorem of_vars (hsize : s.frames.size ≤ s'.frames.size) (hv : ∀ i, s'.vars i = s.vars i) :
    ThisKept s s' where
  size_le := hsize
  kept i _ := hv i
  no_new i _ hb := by
    unfold binds at hb ⊢
    rwa [hv i] at hb

/-- A plain scope stays plain. -/
theorem plain (h : ThisKept s s') {env : Nat} (he : s.Plain env) : s'.Plain env := by
  refine ⟨Nat.lt_of_lt_of_le he.1 h.size_le, ?_⟩
  cases hb : s'.binds "this" env
  · rfl
  · have hs := h.no_new env he.1 hb
    rw [he.2] at hs
    cases hs

end ThisKept

namespace ThisSafe

variable {s : Store}

/-- A store whose scopes and fields are those of a safe one is safe. -/
theorem of_eq {s' : Store} (h : s.ThisSafe) (hv : ∀ i, s'.vars i = s.vars i)
    (hf : ∀ r, s'.fields r = s.fields r) : s'.ThisSafe where
  vars_clean i b hb := h.vars_clean i b (by rwa [hv i] at hb)
  fields_clean r b hb := h.fields_clean r b (by rwa [hf r] at hb)
  this_only i hi := by
    unfold binds at hi
    rw [hv i] at hi ⊢
    exact h.this_only i hi

theorem child (h : s.ThisSafe) (p : Nat) : (s.child p).1.ThisSafe :=
  h.of_eq (vars_child s p) fun r => by simp only [fields, objects_child]

theorem newObject (h : s.ThisSafe) : s.newObject.1.ThisSafe :=
  h.of_eq (vars_newObject s) (fields_newObject s)

theorem setField (h : s.ThisSafe) (r : Nat) (name : Text) {v : Value} (hv : v.Clean) :
    (s.setField r name v).ThisSafe where
  vars_clean i b hb := h.vars_clean i b (by rwa [vars_setField] at hb)
  fields_clean r' b hb := by
    rcases mem_fields_setField hb with hb | rfl
    · exact h.fields_clean r' b hb
    · exact hv
  this_only i hi := by
    unfold binds at hi
    rw [vars_setField] at hi ⊢
    exact h.this_only i hi

/-- A name other than `this` bound to a clean value in a plain scope keeps the discipline,
keeps every scope's `this` and leaves the scope plain. -/
theorem define (h : s.ThisSafe) {j : Nat} (hj : s.Plain j) {name : Text} (hname : name ≠ "this")
    {v : Value} (hv : v.Clean) :
    (s.define j name v).ThisSafe ∧ s.ThisKept (s.define j name v) := by
  have hbinds : ∀ i, (s.define j name v).binds "this" i = s.binds "this" i := by
    intro i
    rw [binds_define hj.1]
    simp [Ne.symm hname]
  have hvars : ∀ i, i ≠ j → (s.define j name v).vars i = s.vars i :=
    fun i hi => vars_define_ne name v hi
  refine ⟨⟨fun i b hb => ?_, fun r b hb => ?_, fun i hi => ?_⟩, ⟨?_, fun i hi => ?_, ?_⟩⟩
  · by_cases hi : i = j
    · subst hi
      rw [vars_define_self hj.1] at hb
      rcases Bindings.mem_set hb with hb | rfl
      · exact h.vars_clean i b hb
      · exact hv
    · rw [hvars i hi] at hb
      exact h.vars_clean i b hb
  · rw [fields_define] at hb
    exact h.fields_clean r b hb
  · rw [hbinds] at hi
    -- the scope written binds no `this`, so `i` is another one
    have hij : i ≠ j := by
      rintro rfl
      rw [hj.2] at hi
      exact Bool.false_ne_true hi
    rw [hvars i hij]
    exact h.this_only i hi
  · exact Nat.le_of_eq (size_define s j name v).symm
  · have hij : i ≠ j := by
      rintro rfl
      rw [hj.2] at hi
      exact Bool.false_ne_true hi
    exact hvars i hij
  · intro i _ hb
    rwa [hbinds] at hb

end ThisSafe

/-- A scope that binds `this` binds nothing else, so the scope that binds any other name is
plain. -/
theorem ThisSafe.plain_of_binds {s : Store} (h : s.ThisSafe) {name : Text} (hname : name ≠ "this")
    {j : Nat} (hb : s.binds name j = true) : s.Plain j := by
  refine ⟨lt_size_of_binds hb, ?_⟩
  cases hj : s.binds "this" j
  · rfl
  · obtain ⟨r, k, hv⟩ := h.this_only j hj
    unfold binds at hb
    rw [hv] at hb
    simp [Bindings.contains, Ne.symm hname] at hb

/-- An assignment writes in the nearest scope that binds the name, or in the current one;
either is plain. -/
theorem ThisSafe.assign {s : Store} (h : s.ThisSafe) {i : Nat} (hi : s.Plain i) {name : Text}
    (hname : name ≠ "this") {v : Value} (hv : v.Clean) :
    (s.assign i name v).ThisSafe ∧ s.ThisKept (s.assign i name v) := by
  unfold Store.assign
  cases hh : s.holder? name i with
  | none => exact h.define hi hname hv
  | some j => exact h.define (h.plain_of_binds hname (holder?_contains hh)) hname hv

/-- Every value found by a lookup is clean. -/
theorem ThisSafe.lookup_clean {s : Store} (h : s.ThisSafe) {i : Nat} {name : Text} {v : Value}
    (hl : s.lookup i name = some v) : v.Clean := by
  obtain ⟨j, -, hj⟩ := Option.bind_eq_some_iff.1 hl
  exact h.vars_clean j _ (Bindings.mem_of_get? hj)

end Store

/-! ### Values the operators and the store give -/

/-- Operators give integers, truth values and texts, which have no code. -/
theorem BinOp.apply_clean {op : BinOp} {a b v : Value} (h : op.apply a b = .ok v) : v.Clean := by
  unfold BinOp.apply at h
  repeat' split at h
  all_goals first | (cases h; trivial) | cases h

theorem LogicOp.apply_clean {op : LogicOp} {a b v : Value} (h : op.apply a b = .ok v) :
    v.Clean := by
  unfold LogicOp.apply at h
  split at h
  · cases h
    trivial
  · cases h

theorem UnaryOp.apply_clean {op : UnaryOp} {a v : Value} (h : op.apply a = .ok v) : v.Clean := by
  unfold UnaryOp.apply at h
  split at h <;> first | (cases h; trivial) | cases h

theorem Value.clean_ofScalar (x : Scalar) : (Value.ofScalar x).Clean := by
  cases x <;> trivial

/-- A method found in a class's table of a clean value is clean. -/
theorem Value.Clean.method {r : Nat} {k : ClassDef} (hk : (Value.obj r k).Clean) {x : Text}
    {m : Closure} (hm : k.methods.lookup x = some m) : m.Clean := by
  obtain ⟨l₁, l₂, hl, -⟩ := List.lookup_eq_some_iff.1 hm
  exact hk (x, m) (by rw [hl]; simp)

namespace Store

theorem vars_size (s : Store) : s.vars s.frames.size = [] := by
  simp [vars]

/-- A method's binding scope binds `this` and nothing else. -/
theorem vars_bindScope (s : Store) (p : Nat) (self : Value) :
    ((s.child p).1.define s.frames.size "this" self).vars s.frames.size =
      [(Text.ofString "this", self)] := by
  have hlt : s.frames.size < (s.child p).1.frames.size := by
    rw [size_child]
    exact Nat.lt_succ_self _
  rw [vars_define_self hlt, vars_child, vars_size]
  rfl

/-- A method's binding scope is nested in the method's scope. -/
theorem parent?_bindScope (s : Store) (p : Nat) (self : Value) :
    ((s.child p).1.define s.frames.size "this" self).parent? s.frames.size = some p := by
  rw [parent?_define]
  cases s
  simp [child, newFrame, parent?]

/-- A method's binding scope: a new scope nested in `p` that binds `this` to the instance
`self` and nothing else. It keeps the discipline and every scope that was there. -/
theorem ThisSafe.bindScope {s : Store} (h : s.ThisSafe) (p : Nat) {r : Nat} {k : ClassDef}
    (hself : (Value.obj r k).Clean) :
    ((s.child p).1.define s.frames.size "this" (.obj r k)).ThisSafe ∧
      s.ThisKept ((s.child p).1.define s.frames.size "this" (.obj r k)) := by
  have hnew := vars_bindScope s p (.obj r k)
  have hold : ∀ i, i ≠ s.frames.size →
      ((s.child p).1.define s.frames.size "this" (.obj r k)).vars i = s.vars i := by
    intro i hi
    rw [vars_define_ne _ _ hi, vars_child]
  have hbinds : ∀ i, s.binds "this" i = true → i ≠ s.frames.size := by
    intro i hi
    exact Nat.ne_of_lt (lt_size_of_binds hi)
  refine ⟨⟨fun i b hb => ?_, fun r' b hb => ?_, fun i hi => ?_⟩, ⟨?_, ?_, ?_⟩⟩
  · by_cases hi : i = s.frames.size
    · subst hi
      rw [hnew, List.mem_singleton] at hb
      subst hb
      exact hself
    · rw [hold i hi] at hb
      exact h.vars_clean i b hb
  · rw [fields_define, fields, objects_child] at hb
    exact h.fields_clean r' b hb
  · by_cases hi' : i = s.frames.size
    · subst hi'
      exact ⟨r, k, hnew⟩
    · unfold binds at hi
      rw [hold i hi'] at hi ⊢
      exact h.this_only i hi
  · rw [size_define, size_child]
    exact Nat.le_succ _
  · intro i hi
    exact hold i (hbinds i hi)
  · intro i hi hb
    unfold binds at hb ⊢
    rwa [hold i (Nat.ne_of_lt hi)] at hb

end Store

/-! ### Evaluation keeps the discipline -/

namespace Eval

open Store

theorem Ends.imp {α : Type} {I I' : Machine → Prop} {E : Stop → Prop} {Q : α → Prop}
    {r : EStateM.Result Stop Machine α} (h : Ends I E Q r) (hI : ∀ m, I m → I' m) :
    Ends I' E Q r := by
  cases r with
  | ok a m => exact ⟨h.1, hI m h.2⟩
  | error e m => exact ⟨h.1, hI m h.2⟩

/-- The machine keeps the discipline of `this` and the `this` bindings of the store `s₀`. -/
def SafeSince (s₀ : Store) (m : Machine) : Prop :=
  m.store.ThisSafe ∧ s₀.ThisKept m.store

/-- Every run of `x` from a machine that keeps the discipline, in which scope `env` is plain,
ends in a machine that keeps the discipline and the `this` bindings it started with, with a
value satisfying `Q` when it goes through. -/
def KeepsThis {α : Type} (env : Nat) (Q : α → Prop) (x : Eval α) : Prop :=
  ∀ s₀, s₀.Plain env → Holds (SafeSince s₀) (fun _ => True) Q x

namespace KeepsThis

variable {α β : Type} {env : Nat} {Q : α → Prop} {R : β → Prop}

theorem pure {a : α} (h : Q a) : KeepsThis env Q (Pure.pure a : Eval α) :=
  fun _ _ => Holds.pure h

theorem fail (f : Fault) : KeepsThis env Q (Eval.fail f : Eval α) :=
  fun _ _ => Holds.fail trivial

theorem bind {x : Eval α} {f : α → Eval β} (hx : KeepsThis env Q x)
    (hf : ∀ a, Q a → KeepsThis env R (f a)) : KeepsThis env R (x >>= f) :=
  fun s₀ h => Holds.bind (hx s₀ h) fun a ha => hf a ha s₀ h

theorem get_bind {f : Machine → Eval β} (hf : ∀ m, m.store.ThisSafe → KeepsThis env R (f m)) :
    KeepsThis env R (MonadState.get >>= f) :=
  fun s₀ h => Holds.bind Holds.get fun m hm => hf m hm.1 s₀ h

theorem lift {r : Except Fault α} (hr : ∀ a, r = .ok a → Q a) : KeepsThis env Q (Eval.lift r) :=
  fun _ _ => Holds.lift (fun _ => trivial) hr

/-- A change of the store that keeps the discipline and the `this` bindings when the current
scope is plain. -/
theorem modifyStore {f : Store → Store}
    (hf : ∀ s, s.ThisSafe → s.Plain env → (f s).ThisSafe ∧ s.ThisKept (f s)) :
    KeepsThis env (fun _ => True) (Eval.modifyStore f) := by
  intro s₀ h₀
  apply modifyStore_holds
  intro m hm
  obtain ⟨hsafe, hkept⟩ := hf m.store hm.1 (hm.2.plain h₀)
  exact ⟨hsafe, hm.2.trans hkept⟩

/-- What runs after a new scope is made starts from a store in which the new scope is plain,
and the scope plain before still is. -/
theorem newScope_bind {p : Nat} {f : Nat → Eval β}
    (hf : ∀ i s₀, s₀.Plain env → s₀.Plain i → Holds (SafeSince s₀) (fun _ => True) R (f i)) :
    KeepsThis env R (newScope p >>= f) := by
  intro s₀ h₀ m hm
  have hrun : (newScope p).run m =
      .ok m.store.frames.size { m with store := (m.store.child p).1 } := by
    rcases m with ⟨⟨frames, objects⟩, out, trace, level, toFile⟩
    rfl
  rw [EStateM.run_bind, hrun]
  have hkept : m.store.ThisKept (m.store.child p).1 :=
    .of_vars (by rw [size_child]; exact Nat.le_succ _) (vars_child m.store p)
  have hplain : (m.store.child p).1.Plain m.store.frames.size := by
    refine ⟨by rw [size_child]; exact Nat.lt_succ_self _, ?_⟩
    simp [binds, vars_child, vars_size, Bindings.contains]
  -- the rest runs from the store with the new scope, which keeps what `s₀` had
  exact (hf _ _ ((hm.2.trans hkept).plain h₀) hplain _ ⟨hm.1.child p, .refl _⟩).imp
    fun m' hm' => ⟨hm'.1, (hm.2.trans hkept).trans hm'.2⟩

end KeepsThis

section Primitives

variable {env : Nat}

theorem note_keepsThis (e : Event) : KeepsThis env (fun _ => True) (note e) :=
  fun _ _ => note_holds (fun _ hm => hm) fun _ _ _ _ => trivial

theorem emit_keepsThis (t : Text) : KeepsThis env (fun _ => True) (emit t) :=
  fun _ _ => emit_holds fun _ hm => hm

theorem newObject_keepsThis : KeepsThis env (fun _ => True) newObject := fun _ _ =>
  newObject_holds fun m hm =>
    ⟨hm.1.newObject, hm.2.trans (.of_vars (Nat.le_of_eq (size_newObject m.store).symm)
      (vars_newObject m.store))⟩

theorem lookup_keepsThis (name : Text) :
    KeepsThis env (fun o => ∀ v ∈ o, Value.Clean v) (lookup env name) :=
  fun _ _ => lookup_holds fun _ hm _ hv => hm.1.lookup_clean hv

theorem printValues_keepsThis (vs : List Value) :
    KeepsThis env (fun _ => True) (printValues vs) := by
  unfold printValues
  split
  · split
    · exact emit_keepsThis _
    · exact fun _ _ => Holds.throw trivial
    · exact KeepsThis.fail _
  · exact KeepsThis.fail _
  · exact KeepsThis.pure trivial

/-- A function is bound to a closure over the current scope under its own name. -/
theorem declare_keepsThis {f : Func} (hf : NoThis f.names) :
    KeepsThis env (fun c => c.Clean) (declare env f) := by
  have hname : f.name.display ≠ "this" := by
    rw [Func.names_eq, noThis_append, noThis_cons] at hf
    exact hf.1.1
  exact KeepsThis.bind (KeepsThis.modifyStore fun s hs hp => hs.define hp hname hf) fun _ _ =>
    KeepsThis.bind (note_keepsThis _) fun _ _ => KeepsThis.pure hf

theorem declareMethods_keepsThis :
    ∀ (ms : List Func) (table : List (Text × Closure)), NoThis (Func.listNames ms) →
      (∀ e ∈ table, e.2.Clean) →
        KeepsThis env (fun t => ∀ e ∈ t, e.2.Clean) (declareMethods env ms table)
  | [], _, _, htable => KeepsThis.pure htable
  | m :: ms, table, hms, htable => by
    rw [Func.listNames, noThis_append] at hms
    refine KeepsThis.bind (declare_keepsThis hms.1) fun c hc =>
      declareMethods_keepsThis ms _ hms.2 fun e he => ?_
    rcases mem_setMethod he with he | rfl
    · exact htable e he
    · exact hc

/-- A class's methods are declared in a new scope of their own, the class in the current
scope. -/
theorem declareClass_keepsThis {name : Text} (hname : name ≠ "this") {ms : List Func}
    (hms : NoThis (Func.listNames ms)) :
    KeepsThis env (fun k => ∀ m ∈ k.methods, m.2.Clean) (declareClass env name ms) := by
  unfold declareClass
  refine KeepsThis.newScope_bind fun scope s₀ henv hscope => ?_
  refine Holds.bind (declareMethods_keepsThis ms [] hms (fun _ h => absurd h List.not_mem_nil)
    s₀ hscope) fun table htable => ?_
  refine Holds.bind (KeepsThis.modifyStore (fun s hs hp =>
    @ThisSafe.define s hs env hp name hname (.cls ⟨name, table, scope⟩) htable) s₀ henv)
    fun _ _ => ?_
  exact Holds.bind (note_keepsThis _ s₀ henv) fun _ _ => Holds.pure htable

/-- Binding a method to an instance makes the scope that binds `this` to it. -/
theorem bindMethod_run (c : Closure) (self : Value) (m : Machine) :
    (bindMethod c self).run m = .ok (.fn ⟨c.decl, m.store.frames.size⟩)
      { m with store := (m.store.child c.scope).1.define m.store.frames.size "this" self } := by
  rcases m with ⟨⟨frames, objects⟩, out, trace, level, toFile⟩
  rfl

theorem bindMethod_keepsThis {c : Closure} (hc : c.Clean) {r : Nat} {k : ClassDef}
    (hk : (Value.obj r k).Clean) : KeepsThis env Value.Clean (bindMethod c (.obj r k)) := by
  intro s₀ _ m hm
  rw [bindMethod_run]
  obtain ⟨hsafe, hkept⟩ := hm.1.bindScope c.scope hk
  exact ⟨hc, hsafe, hm.2.trans hkept⟩

end Primitives

/-- A call with its arguments evaluated binds the parameters, none of them `this`, in a new
scope and runs the body as a block in it. -/
theorem enter_keepsThis {n : Nat}
    (hstmt : ∀ env s, NoThis s.names → KeepsThis env Completion.Clean (stmt n env s))
    {env : Nat} {cl : Closure} (hcl : cl.Clean) {vals : List Value} (hvals : ∀ v ∈ vals, v.Clean) :
    KeepsThis env Value.Clean (enter n cl vals) := by
  have hnames := hcl
  rw [Closure.Clean, Func.names_eq, noThis_append, noThis_cons] at hnames
  obtain ⟨⟨-, hparams⟩, hbody⟩ := hnames
  have hzip : ∀ pv ∈ cl.decl.params.zip vals, pv.1.display ≠ "this" ∧ pv.2.Clean :=
    fun pv hpv => ⟨hparams _ (List.of_mem_zip hpv).1, hvals _ (List.of_mem_zip hpv).2⟩
  unfold enter
  refine KeepsThis.newScope_bind fun scope s₀ _ hscope => ?_
  refine Holds.bind (KeepsThis.modifyStore (fun s hs hp => ?_) s₀ hscope) fun _ _ => ?_
  · -- the parameters are bound one after another in the new scope, which stays plain
    generalize cl.decl.params.zip vals = l at hzip ⊢
    induction l generalizing s with
    | nil => exact ⟨hs, .refl s⟩
    | cons pv l ih =>
      obtain ⟨p, v⟩ := pv
      obtain ⟨hs', hk⟩ := hs.define hp (hzip _ List.mem_cons_self).1 (hzip _ List.mem_cons_self).2
      obtain ⟨hs'', hk'⟩ := ih _ hs' (hk.plain hp) fun q hq => hzip q (List.mem_cons_of_mem _ hq)
      exact ⟨hs'', hk.trans hk'⟩
  refine Holds.bind (note_keepsThis _ s₀ hscope) fun _ _ => ?_
  refine Holds.bind (hstmt scope (.block cl.decl.body) hbody s₀ hscope) fun c hc => ?_
  split
  · exact Holds.pure hc
  · exact Holds.pure (hc _ rfl)
  · exact Holds.pure trivial

/-- With `n` frames left, every part of the evaluator, running code that names no `this` in a
plain scope, keeps the discipline of `this` and the `this` bindings, and gives clean values. -/
structure AllThisSafe (n : Nat) : Prop where
  expr : ∀ env e, NoThis e.names → KeepsThis env Value.Clean (expr n env e)
  arguments : ∀ env args, NoThis (Expr.listNames args) →
    KeepsThis env (fun vs => ∀ v ∈ vs, Value.Clean v) (arguments n env args)
  call : ∀ cl args env, cl.Clean → NoThis (Expr.listNames args) →
    KeepsThis env Value.Clean (call n cl args env)
  test : ∀ env c, NoThis c.names → KeepsThis env (fun _ => True) (test n env c)
  block : ∀ env ss, NoThis (Stmt.listNames ss) →
    KeepsThis env Completion.Clean (block n env ss)
  print : ∀ env args, NoThis (Expr.listNames args) →
    KeepsThis env (fun _ => True) (print n env args)
  stmt : ∀ env s, NoThis s.names → KeepsThis env Completion.Clean (stmt n env s)

namespace AllThisSafe

variable {n : Nat}

theorem zero : AllThisSafe 0 where
  expr _ _ _ := by simp only [Eval.expr]; exact KeepsThis.fail _
  arguments _ _ _ := by simp only [Eval.arguments]; exact KeepsThis.fail _
  call _ _ _ _ _ := by simp only [Eval.call]; exact KeepsThis.fail _
  test _ _ _ := by simp only [Eval.test]; exact KeepsThis.fail _
  block _ _ _ := by simp only [Eval.block]; exact KeepsThis.fail _
  print _ _ _ := by simp only [Eval.print]; exact KeepsThis.fail _
  stmt _ _ _ := by simp only [Eval.stmt]; exact KeepsThis.fail _

theorem exprs (h : AllThisSafe n) (env : Nat) :
    ∀ es, NoThis (Expr.listNames es) →
      KeepsThis env (fun vs => ∀ v ∈ vs, Value.Clean v) (Eval.exprs n env es)
  | [], _ => by
    simp only [Eval.exprs]
    exact KeepsThis.pure fun _ hv => absurd hv List.not_mem_nil
  | e :: es, hes => by
    rw [Expr.listNames, noThis_append] at hes
    simp only [Eval.exprs]
    exact KeepsThis.bind (h.expr env e hes.1) fun v hv =>
      KeepsThis.bind (h.exprs env es hes.2) fun vs hvs =>
        KeepsThis.pure fun x hx => (List.mem_cons.1 hx).elim (fun hx => hx ▸ hv) (hvs x)

theorem stmts (h : AllThisSafe n) (env : Nat) :
    ∀ ss last, (∀ v ∈ last, Value.Clean v) → NoThis (Stmt.listNames ss) →
      KeepsThis env Completion.Clean (Eval.stmts n env last ss)
  | [], _, hlast, _ => by
    simp only [Eval.stmts]
    exact KeepsThis.pure hlast
  | s :: ss, _, _, hss => by
    rw [Stmt.listNames, noThis_append] at hss
    simp only [Eval.stmts]
    refine KeepsThis.bind (h.stmt env s hss.1) fun c hc => ?_
    cases c with
    | returned v => exact KeepsThis.pure hc
    | normal v => exact h.stmts env ss v hc hss.2

theorem loop (h : AllThisSafe n) (env : Nat) {c : Expr} {body : Stmt} (hc : NoThis c.names)
    (hbody : NoThis body.names) :
    ∀ j last, (∀ v ∈ last, Value.Clean v) →
      KeepsThis env Completion.Clean (Eval.loop n env c body last j)
  | 0, _, _ => by simp only [Eval.loop]; exact KeepsThis.fail _
  | j + 1, _, hlast => by
    simp only [Eval.loop]
    refine KeepsThis.bind (h.test env c hc) fun b _ => ?_
    cases b with
    | false => exact KeepsThis.pure hlast
    | true =>
      refine KeepsThis.bind (h.stmt env body hbody) fun r hr => ?_
      cases r with
      | returned v => exact KeepsThis.pure hr
      | normal v => exact h.loop env hc hbody j v hr

/-- An expression keeps the discipline as its parts do. The store is written by an
assignment, in a plain scope since the scope of a `this` binds nothing else, by a field
write, by a new instance, and by a method read, which binds `this` in a new scope. -/
theorem expr_succ (h : AllThisSafe n) (env : Nat) :
    ∀ e, NoThis e.names → KeepsThis env Value.Clean (Eval.expr (n + 1) env e) := by
  intro e he
  cases e with
  | literal x =>
    simp only [Eval.expr]
    exact KeepsThis.pure (Value.clean_ofScalar x)
  | var x =>
    simp only [Eval.expr]
    refine KeepsThis.bind (lookup_keepsThis _) fun o ho => ?_
    cases o with
    | some v => exact KeepsThis.pure (ho v rfl)
    | none => exact KeepsThis.fail _
  | group x =>
    simp only [Eval.expr]
    exact h.expr env x he
  | assign x v =>
    rw [Expr.names, noThis_cons] at he
    simp only [Eval.expr]
    exact KeepsThis.bind (h.expr env v he.2) fun val hval =>
      KeepsThis.bind (KeepsThis.modifyStore fun s hs hp => hs.assign hp he.1 hval) fun _ _ =>
        KeepsThis.pure hval
  | binary op lx l r =>
    rw [Expr.names, noThis_append] at he
    simp only [Eval.expr]
    exact KeepsThis.bind (h.expr env l he.1) fun _ _ =>
      KeepsThis.bind (h.expr env r he.2) fun _ _ => KeepsThis.lift fun _ => BinOp.apply_clean
  | logical op lx l r =>
    rw [Expr.names, noThis_append] at he
    simp only [Eval.expr]
    exact KeepsThis.bind (h.expr env l he.1) fun _ _ =>
      KeepsThis.bind (h.expr env r he.2) fun _ _ => KeepsThis.lift fun _ => LogicOp.apply_clean
  | unary op lx x =>
    simp only [Eval.expr]
    exact KeepsThis.bind (h.expr env x he) fun _ _ => KeepsThis.lift fun _ => UnaryOp.apply_clean
  | call c args =>
    rw [Expr.names, noThis_append] at he
    simp only [Eval.expr]
    refine KeepsThis.bind (h.expr env c he.1) fun f hf => ?_
    split
    · exact h.call _ args env hf he.2
    · split
      · -- a new instance of a class whose methods are clean
        exact KeepsThis.bind (note_keepsThis _) fun _ _ =>
          KeepsThis.bind newObject_keepsThis fun _ _ => KeepsThis.pure hf
      · exact KeepsThis.fail _
    · exact KeepsThis.fail _
  | getField t x =>
    rw [Expr.names, noThis_append] at he
    simp only [Eval.expr]
    refine KeepsThis.bind (h.expr env t he.1) fun v hv => ?_
    split
    · refine KeepsThis.get_bind fun m hm => ?_
      split
      · rename_i fv hfv
        exact KeepsThis.pure (hm.fields_clean _ _ (Bindings.mem_of_get? hfv))
      · split
        · rename_i meth hmeth
          exact bindMethod_keepsThis (Value.Clean.method hv hmeth) hv
        · exact KeepsThis.fail _
    · exact KeepsThis.fail _
  | setField t x e =>
    rw [Expr.names, noThis_append, noThis_cons] at he
    simp only [Eval.expr]
    refine KeepsThis.bind (h.expr env t he.1) fun v _ => ?_
    split
    · exact KeepsThis.bind (h.expr env e he.2.2) fun val hval =>
        KeepsThis.bind (KeepsThis.modifyStore fun s hs _ =>
          ⟨hs.setField _ _ hval, .of_vars (Nat.le_of_eq (size_setField s _ _ _).symm)
            (vars_setField s _ _ _)⟩) fun _ _ =>
          KeepsThis.pure hval
    · exact KeepsThis.fail _
  | thisRef =>
    simp only [Eval.expr]
    refine KeepsThis.bind (lookup_keepsThis _) fun o ho => ?_
    cases o with
    | some v => exact KeepsThis.pure (ho v rfl)
    | none => exact KeepsThis.fail _

theorem call_succ (h : AllThisSafe n) {cl : Closure} (hcl : cl.Clean) {args : List Expr}
    {env : Nat} (hargs : NoThis (Expr.listNames args)) :
    KeepsThis env Value.Clean (Eval.call (n + 1) cl args env) := by
  rw [call_succ_eq]
  split
  · exact KeepsThis.fail _
  · exact KeepsThis.bind (h.arguments env args hargs) fun _ hvals =>
      enter_keepsThis h.stmt hcl hvals

/-- A statement keeps the discipline as its parts do. The store is written by `let` and the
declarations, each of a name that is not `this`, in the current scope, and by a block, whose
statements run in a new scope. -/
theorem stmt_succ (h : AllThisSafe n) (env : Nat) :
    ∀ s, NoThis s.names → KeepsThis env Completion.Clean (Eval.stmt (n + 1) env s) := by
  intro s hs
  cases s with
  | expr e =>
    simp only [Eval.stmt]
    exact KeepsThis.bind (h.expr env e hs) fun _ hv => KeepsThis.pure (Completion.clean_some hv)
  | letDecl x init =>
    rw [Stmt.names, noThis_cons] at hs
    have hbind : ∀ v : Value, v.Clean → KeepsThis env Completion.Clean (do
        modifyStore (·.define env x.display v)
        note (.bind x.display v)
        Pure.pure (Completion.normal (some v)) : Eval Completion) := fun v hv =>
      KeepsThis.bind (KeepsThis.modifyStore fun s hs' hp => hs'.define hp hs.1 hv) fun _ _ =>
        KeepsThis.bind (note_keepsThis _) fun _ _ => KeepsThis.pure (Completion.clean_some hv)
    cases init with
    | some e =>
      simp only [Eval.stmt]
      exact KeepsThis.bind (h.expr env e hs.2) hbind
    | none =>
      simp only [Eval.stmt]
      exact KeepsThis.bind
        (show KeepsThis env Value.Clean (Pure.pure Value.nil) from KeepsThis.pure trivial) hbind
  | block ss =>
    simp only [Eval.stmt]
    exact KeepsThis.newScope_bind fun scope s₀ _ hscope => h.block scope ss hs s₀ hscope
  | funDecl f =>
    simp only [Eval.stmt]
    exact KeepsThis.bind (declare_keepsThis hs) fun _ hc =>
      KeepsThis.pure (Completion.clean_some hc)
  | classDecl x ms =>
    rw [Stmt.names, noThis_cons] at hs
    simp only [Eval.stmt]
    exact KeepsThis.bind (declareClass_keepsThis hs.1 hs.2) fun _ hk =>
      KeepsThis.pure (Completion.clean_some hk)
  | ifElse c yes no =>
    rw [Stmt.names, noThis_append, noThis_append] at hs
    cases no with
    | some t =>
      simp only [Eval.stmt]
      refine KeepsThis.bind (h.test env c hs.1.1) fun b _ =>
        KeepsThis.bind (note_keepsThis _) fun _ _ => ?_
      cases b with
      | true => exact h.stmt env yes hs.1.2
      | false => exact h.stmt env t hs.2
    | none =>
      simp only [Eval.stmt]
      refine KeepsThis.bind (h.test env c hs.1.1) fun b _ =>
        KeepsThis.bind (note_keepsThis _) fun _ _ => ?_
      cases b with
      | true => exact h.stmt env yes hs.1.2
      | false => exact KeepsThis.pure Completion.clean_none
  | whileLoop c body =>
    rw [Stmt.names, noThis_append] at hs
    simp only [Eval.stmt]
    exact h.loop env hs.1 hs.2 _ _ Completion.clean_none
  | ret v =>
    cases v with
    | some e =>
      simp only [Eval.stmt]
      exact KeepsThis.bind (h.expr env e hs) fun _ hv => KeepsThis.pure hv
    | none =>
      simp only [Eval.stmt]
      exact KeepsThis.bind
        (show KeepsThis env Value.Clean (Pure.pure Value.nil) from KeepsThis.pure trivial)
        fun _ hv => KeepsThis.pure hv
  | print args =>
    simp only [Eval.stmt]
    exact KeepsThis.bind (h.print env args hs) fun _ _ =>
      KeepsThis.pure Completion.clean_none

theorem succ (h : AllThisSafe n) : AllThisSafe (n + 1) where
  expr env := h.expr_succ env
  arguments env args hargs := by simp only [Eval.arguments]; exact h.exprs env args hargs
  call _ _ _ hcl hargs := h.call_succ hcl hargs
  test env c hc := by
    simp only [Eval.test]
    refine KeepsThis.bind (h.expr env c hc) fun v _ => ?_
    split
    · exact KeepsThis.pure trivial
    · exact KeepsThis.fail _
  block env ss hss := by
    simp only [Eval.block]
    exact h.stmts env ss none Completion.clean_none hss
  print env args hargs := by
    simp only [Eval.print]
    exact KeepsThis.bind (h.arguments env args hargs) fun vals _ => printValues_keepsThis vals
  stmt env := h.stmt_succ env

end AllThisSafe

/-- Whatever frames are left, every part of the evaluator keeps the discipline of `this`. The
induction is on the frames left. -/
theorem allThisSafe : ∀ n, AllThisSafe n
  | 0 => AllThisSafe.zero
  | n + 1 => (allThisSafe n).succ

/-- A statement that names no `this`, run in a plain scope from a store that keeps the
discipline of `this`, ends, however it ends, in a store that keeps the discipline and every
`this` binding it started with. -/
theorem stmt_keepsThis (n env : Nat) {s : Stmt} (hs : NoThis s.names) {m : Machine}
    (hm : m.store.ThisSafe) (henv : m.store.Plain env) :
    Ends (SafeSince m.store) (fun _ => True) Completion.Clean ((stmt n env s).run m) :=
  (allThisSafe n).stmt env s hs m.store henv m ⟨hm, .refl _⟩

/-! ### What `this` evaluates to -/

theorem lookup_run (env : Nat) (name : Text) (m : Machine) :
    (lookup env name).run m = .ok (m.store.lookup env name) m :=
  rfl

/-- `this` is the instance bound in the innermost scope of the chain that binds `this`, which
binds nothing else; when no scope of the chain binds `this`, evaluating it fails. -/
theorem thisRef_run (n env : Nat) {m : Machine} (hm : m.store.ThisSafe) :
    (∃ i r k, m.store.holder? "this" env = some i ∧
      m.store.vars i = [(Text.ofString "this", Value.obj r k)] ∧
      (expr (n + 1) env .thisRef).run m = .ok (.obj r k) m) ∨
    (m.store.holder? "this" env = none ∧
      (expr (n + 1) env .thisRef).run m = .error (.fault .thisOutsideMethod) m) := by
  simp only [Eval.expr]
  rw [EStateM.run_bind, lookup_run]
  cases hh : m.store.holder? "this" env with
  | none =>
    have hl : m.store.lookup env "this" = none := by simp [Store.lookup, hh]
    rw [hl]
    exact .inr ⟨rfl, rfl⟩
  | some i =>
    -- the scope found binds `this`, so it binds only `this`, to an instance
    obtain ⟨r, k, hv⟩ := hm.this_only i (holder?_contains hh)
    have hl : m.store.lookup env "this" = some (.obj r k) := by
      simp [Store.lookup, hh, hv, Bindings.get?]
    rw [hl]
    exact .inl ⟨i, r, k, rfl, hv, rfl⟩

/-- Reading a method from an instance that has no field of its name binds the method in a new
scope, nested in the method's own scope, that binds `this` to that instance and nothing
else. -/
theorem getField_binds_method {n env : Nat} {t : Expr} {x : Scalar} {m m₁ : Machine} {r : Nat}
    {k : ClassDef} {c : Closure} (ht : (expr n env t).run m = .ok (.obj r k) m₁)
    (hfield : (m₁.store.fields r).get? x.display = none)
    (hmeth : k.methods.lookup x.display = some c) :
    (expr (n + 1) env (.getField t x)).run m = .ok (.fn ⟨c.decl, m₁.store.frames.size⟩)
      { m₁ with store :=
        (m₁.store.child c.scope).1.define m₁.store.frames.size "this" (.obj r k) } := by
  simp only [Eval.expr]
  rw [EStateM.run_bind, ht]
  dsimp only
  rw [EStateM.run_bind, EStateM.run_get]
  dsimp only
  rw [hfield]
  dsimp only
  rw [hmeth]
  exact bindMethod_run c _ m₁

end Eval

namespace Store

theorem fresh_thisSafe : Store.fresh.ThisSafe where
  vars_clean i b hb := by
    rcases i with _ | i
    · cases hb
    · simp [vars, fresh] at hb
  fields_clean r b hb := by simp [fields, fresh] at hb
  this_only i hi := by
    rcases i with _ | i
    · cases hi
    · simp [binds, vars, fresh, Bindings.contains] at hi

theorem fresh_plain_global : Store.fresh.Plain Store.global :=
  ⟨by decide, rfl⟩

end Store

/-! ### Runs of programs -/

namespace Program

open Eval

theorem runStmts_keepsThis (env : Nat) :
    ∀ (ss : List Stmt) (last : Option Value), NoThis (Stmt.listNames ss) →
      KeepsThis env (fun _ => True) (runStmts env ss last)
  | [], _, _ => by simp only [runStmts]; exact KeepsThis.pure trivial
  | s :: ss, _, hss => by
    rw [Stmt.listNames, noThis_append] at hss
    simp only [runStmts]
    intro s₀ h₀
    have hstmt : Holds (SafeSince s₀) (fun _ => True) (fun _ => True)
        (Sum.inr <$> stmt nestingLimit env s : Eval (Sum Fault Completion)) :=
      Holds.map ((allThisSafe nestingLimit).stmt env s hss.1 s₀ h₀) fun _ _ => trivial
    -- a fault is caught and becomes the outcome; a host failure is thrown again
    refine Holds.bind (Holds.tryCatch hstmt fun e _ => ?_) fun r _ => ?_
    · cases e with
      | fault f => exact Holds.pure trivial
      | crash c => exact Holds.throw trivial
    · cases r with
      | inl f =>
        dsimp only
        split
        · exact Holds.bind (note_keepsThis _ s₀ h₀) fun _ _ => Holds.pure trivial
        · exact Holds.pure trivial
      | inr c =>
        cases c with
        | returned v => exact Holds.pure trivial
        | normal v => exact runStmts_keepsThis env ss v hss.2 s₀ h₀

/-- A run of a program that names no `this`, from a store that keeps the discipline of `this`
and whose global scope is plain, ends in a store that keeps the discipline and every `this`
binding it started with. -/
theorem run_keepsThis {p : Program} (hp : NoThis p.names) {m : Machine}
    (hm : m.store.ThisSafe) (hg : m.store.Plain Store.global) {o : Outcome} {m' : Machine}
    (h : p.run m = .ok (o, m')) : m'.store.ThisSafe ∧ m.store.ThisKept m'.store := by
  unfold Program.run Program.runIn at h
  have hs := runStmts_keepsThis Store.global p.body none hp m.store hg m ⟨hm, .refl _⟩
  split at h
  · rename_i o' m'' hr
    cases h
    rw [hr] at hs
    exact hs.2
  · cases h
  · rename_i f m'' hr
    cases h
    rw [hr] at hs
    exact hs.2

end Program

/-! ### Method binding is the only binder of `this` -/

/-- `this` is bound only by method binding, and never rebound. No name of a program read from
text is `this`. A run of the program from a store that keeps the discipline of `this`, with a
plain global scope (a fresh store is one), ends in a store that keeps it, in which every scope
that bound `this` binds what it bound, and no other scope of the start binds `this`; so does
every statement that names no `this`, the program's and its functions' bodies among them, at
every step of a run. A method read from an instance is bound in a new scope, nested in the
method's scope, that binds `this` to that instance and nothing else. And `this` evaluates to
the instance of the innermost such scope of the chain, or fails exactly when the chain has
none. -/
theorem this_bound_only_by_method_binding (src : Text) (p : Program)
    (hp : Program.ofSource? src = .ok p) :
    (∀ x ∈ p.names, x.display ≠ "this") ∧
    (∀ (m : Machine) (o : Outcome) (m' : Machine), m.store.ThisSafe →
      m.store.Plain Store.global → p.run m = .ok (o, m') →
        m'.store.ThisSafe ∧ m.store.ThisKept m'.store) ∧
    (∀ (n env : Nat) (s : Stmt) (m : Machine), NoThis s.names → m.store.ThisSafe →
      m.store.Plain env →
        Eval.Ends (Eval.SafeSince m.store) (fun _ => True) Completion.Clean
          ((Eval.stmt n env s).run m)) ∧
    (∀ (n env : Nat) (t : Expr) (x : Scalar) (m m₁ : Machine) (r : Nat) (k : ClassDef)
      (c : Closure), (Eval.expr n env t).run m = .ok (.obj r k) m₁ →
        (m₁.store.fields r).get? x.display = none → k.methods.lookup x.display = some c →
        ∃ m₂, (Eval.expr (n + 1) env (.getField t x)).run m =
            .ok (.fn ⟨c.decl, m₁.store.frames.size⟩) m₂ ∧
          m₂.store.vars m₁.store.frames.size = [(Text.ofString "this", Value.obj r k)] ∧
          m₂.store.parent? m₁.store.frames.size = some c.scope) ∧
    (∀ (n env : Nat) (m : Machine), m.store.ThisSafe →
      (∃ i r k, m.store.holder? "this" env = some i ∧
        m.store.vars i = [(Text.ofString "this", Value.obj r k)] ∧
        (Eval.expr (n + 1) env .thisRef).run m = .ok (.obj r k) m) ∨
      (m.store.holder? "this" env = none ∧
        (Eval.expr (n + 1) env .thisRef).run m = .error (.fault .thisOutsideMethod) m)) := by
  have hnames : NoThis p.names := fun x hx => (Program.ofSource_names hp x hx).display_ne_this
  refine ⟨hnames, fun m o m' hm hg h => Program.run_keepsThis hnames hm hg h,
    fun n env s m hs hm henv => Eval.stmt_keepsThis n env hs hm henv, ?_,
    fun n env m hm => Eval.thisRef_run n env hm⟩
  intro n env t x m m₁ r k c ht hfield hmeth
  exact ⟨_, Eval.getField_binds_method ht hfield hmeth, Store.vars_bindScope _ _ _,
    Store.parent?_bindScope _ _ _⟩

theorem scan_method_returning_this :
    Token.scan (Text.ofString "class A \x7b me() \x7b return this; \x7d \x7d") =
      .ok [⟨.kwClass, .text (Text.ofString "class"), .null, ⟨1, 1⟩⟩,
          ⟨.ident, .text (Text.ofString "A"), .text (Text.ofString "A"), ⟨1, 7⟩⟩,
          ⟨.lbrace, .text (Text.ofString "\x7b"), .null, ⟨1, 9⟩⟩,
          ⟨.ident, .text (Text.ofString "me"), .text (Text.ofString "me"), ⟨1, 11⟩⟩,
          ⟨.lparen, .text (Text.ofString "("), .null, ⟨1, 13⟩⟩,
          ⟨.rparen, .text (Text.ofString ")"), .null, ⟨1, 14⟩⟩,
          ⟨.lbrace, .text (Text.ofString "\x7b"), .null, ⟨1, 16⟩⟩,
          ⟨.kwReturn, .text (Text.ofString "return"), .null, ⟨1, 18⟩⟩,
          ⟨.kwThis, .text (Text.ofString "this"), .null, ⟨1, 25⟩⟩,
          ⟨.semicolon, .text (Text.ofString ";"), .null, ⟨1, 29⟩⟩,
          ⟨.rbrace, .text (Text.ofString "\x7d"), .null, ⟨1, 31⟩⟩,
          ⟨.rbrace, .text (Text.ofString "\x7d"), .null, ⟨1, 33⟩⟩,
          ⟨.eof, .text (Text.ofString "eof"), .null, ⟨1, 34⟩⟩] := by
  decide +kernel

/-- `class A { me() { return this; } }`: its names are `A` and `me`, and a run of it from a
fresh machine keeps the discipline of `this`. -/
theorem this_bound_in_method_sample :
    Program.ofSource? (Text.ofString "class A \x7b me() \x7b return this; \x7d \x7d") =
        .ok ⟨[.classDecl (.text (Text.ofString "A"))
          [⟨.text (Text.ofString "me"), [], [.ret (some .thisRef)]⟩]]⟩ ∧
      (∀ x ∈ (⟨[.classDecl (.text (Text.ofString "A"))
          [⟨.text (Text.ofString "me"), [], [.ret (some .thisRef)]⟩]]⟩ : Program).names,
        x.display ≠ "this") ∧
      ∀ (o : Outcome) (m' : Machine),
        Program.run ⟨[.classDecl (.text (Text.ofString "A"))
          [⟨.text (Text.ofString "me"), [], [.ret (some .thisRef)]⟩]]⟩ (Machine.fresh 1 false) =
            .ok (o, m') →
          m'.store.ThisSafe ∧ Store.fresh.ThisKept m'.store := by
  have hparse : Program.ofTokens? [⟨.kwClass, .text (Text.ofString "class"), .null, ⟨1, 1⟩⟩,
        ⟨.ident, .text (Text.ofString "A"), .text (Text.ofString "A"), ⟨1, 7⟩⟩,
        ⟨.lbrace, .text (Text.ofString "\x7b"), .null, ⟨1, 9⟩⟩,
        ⟨.ident, .text (Text.ofString "me"), .text (Text.ofString "me"), ⟨1, 11⟩⟩,
        ⟨.lparen, .text (Text.ofString "("), .null, ⟨1, 13⟩⟩,
        ⟨.rparen, .text (Text.ofString ")"), .null, ⟨1, 14⟩⟩,
        ⟨.lbrace, .text (Text.ofString "\x7b"), .null, ⟨1, 16⟩⟩,
        ⟨.kwReturn, .text (Text.ofString "return"), .null, ⟨1, 18⟩⟩,
        ⟨.kwThis, .text (Text.ofString "this"), .null, ⟨1, 25⟩⟩,
        ⟨.semicolon, .text (Text.ofString ";"), .null, ⟨1, 29⟩⟩,
        ⟨.rbrace, .text (Text.ofString "\x7d"), .null, ⟨1, 31⟩⟩,
        ⟨.rbrace, .text (Text.ofString "\x7d"), .null, ⟨1, 33⟩⟩,
        ⟨.eof, .text (Text.ofString "eof"), .null, ⟨1, 34⟩⟩] =
      .ok ⟨[.classDecl (.text (Text.ofString "A"))
        [⟨.text (Text.ofString "me"), [], [.ret (some .thisRef)]⟩]]⟩ := by
    cbv
  have hsrc : Program.ofSource? (Text.ofString "class A \x7b me() \x7b return this; \x7d \x7d") =
      .ok ⟨[.classDecl (.text (Text.ofString "A"))
        [⟨.text (Text.ofString "me"), [], [.ret (some .thisRef)]⟩]]⟩ := by
    unfold Program.ofSource?
    rw [scan_method_returning_this]
    dsimp only
    rw [hparse]
  have h := this_bound_only_by_method_binding _ _ hsrc
  exact ⟨hsrc, h.1, fun o m' hrun =>
    h.2.1 (Machine.fresh 1 false) o m' Store.fresh_thisSafe Store.fresh_plain_global hrun⟩

end Ember
