import Ember.Proofs.ThisBinding
import Mathlib.Data.List.Induction
/-!
Method tables.

A class declaration `class C { m₁ … mₖ }` makes a scope for its methods, nested in the scope it
runs in, declares the methods there one after the other, and builds the class's method table as
it goes (`Eval.setMethod`): a method whose name is in the table already takes that entry's
place, any other goes at the end. A scope takes a binding the same way (`Bindings.set`), so the
class scope and the table agree (`Eval.tableBindings_setMethod`). Whatever names repeat:

* `Eval.addMethods_keys`: the table lists each method name once, in the order of first
  occurrence;
* `Eval.addMethods_lookup`: it binds each name to the closure of the last declaration of that
  name, over the class scope;
* `class_method_tables`: a class declaration binds the class in the scope it runs in, with that
  table; the class scope binds the same names to the same functions; the trace reports each
  method and then the class with the names of its table; and reading a method from an instance
  without a field of that name binds the last declaration of the name to the instance.

A trace written to a file refuses a line with a lone surrogate, which stops the run, so there
the names and parameters must be `Text.Writable`.
-/

namespace Ember

/-! ### Text a trace file takes -/

namespace Text

/-- A text with no lone surrogate: a trace file takes it. -/
def Writable (t : Text) : Prop := ∀ c ∈ t, c.isSurrogate = false

@[simp] theorem writable_append {t u : Text} : (t ++ u).Writable ↔ t.Writable ∧ u.Writable :=
  List.forall_mem_append

@[simp] theorem writable_ofString (s : String) : (ofString s).Writable := by
  intro c hc
  obtain ⟨ch, -, rfl⟩ := List.mem_map.1 hc
  rfl

theorem Writable.intercalate {sep : Text} (hsep : sep.Writable) {ts : List Text}
    (h : ∀ t ∈ ts, t.Writable) : Text.Writable (sep.intercalate ts) := by
  induction ts with
  | nil => exact fun _ hc => absurd hc List.not_mem_nil
  | cons t ts ih =>
    cases ts with
    | nil => simpa using h t List.mem_cons_self
    | cons u us =>
      rw [List.intercalate_cons_cons, writable_append, writable_append]
      exact ⟨⟨h t List.mem_cons_self, hsep⟩,
        ih fun v hv => h v (List.mem_cons_of_mem t hv)⟩

/-- A strict writer refuses nothing in a writable text. -/
theorem refusalAt_none {t : Text} (h : t.Writable) (w : CodePoint → Bool) (i : Nat) :
    refusalAt w i t = none := by
  induction t generalizing i with
  | nil => rfl
  | cons c cs ih =>
    have hc : c.isSurrogate = false := h c List.mem_cons_self
    rw [refusalAt, hc, Bool.false_and, if_neg Bool.false_ne_true]
    exact ih (fun d hd => h d (List.mem_cons_of_mem c hd)) (i + 1)

end Text

/-- A function whose name and parameters are writable. -/
def Func.Writable (f : Func) : Prop :=
  f.name.display.Writable ∧ ∀ p ∈ f.params, p.display.Writable

/-- The event that reports the declaration of a function. -/
def Func.declared (f : Func) : Event :=
  .defineFunction f.name.display (f.params.map Scalar.display)

theorem Func.Writable.declared {f : Func} (h : f.Writable) : f.declared.line.Writable := by
  simp only [Func.declared, Event.line, Event.commaList, Text.writable_append,
    Text.writable_ofString, and_true, true_and]
  refine ⟨h.1, Text.Writable.intercalate (Text.writable_ofString _) fun t ht => ?_⟩
  obtain ⟨p, hp, rfl⟩ := List.mem_map.1 ht
  exact h.2 p hp

theorem Event.defineClass_writable {x : Text} {names : List Text} (hx : x.Writable)
    (hn : ∀ t ∈ names, t.Writable) : (Event.defineClass x names).line.Writable := by
  cases names with
  | nil => simpa [Event.line] using hx
  | cons t ts =>
    simp only [Event.line, Event.commaList, Text.writable_append, Text.writable_ofString,
      and_true, true_and]
    exact ⟨hx, Text.Writable.intercalate (Text.writable_ofString _) hn⟩

/-! ### Steps of a declaration -/

/-- The machine after a step that leaves the store `s` and reports the events `es`: the
trace keeps those the level shows. -/
def Machine.after (m : Machine) (s : Store) (es : List Event) : Machine :=
  { m with store := s, trace := m.trace ++ (es.filter (·.shownAt m.level)).toArray }

@[simp] theorem Machine.after_nil (m : Machine) : m.after m.store [] = m := by
  simp [Machine.after]

@[simp] theorem Machine.after_store (m : Machine) (s : Store) (es : List Event) :
    (m.after s es).store = s :=
  rfl

theorem Machine.after_after (m : Machine) (s s' : Store) (es es' : List Event) :
    (m.after s es).after s' es' = m.after s' (es ++ es') := by
  simp only [Machine.after, List.filter_append, Array.append_assoc]
  congr 2
  exact List.append_toArray _ _

namespace Eval

theorem modifyStore_run (f : Store → Store) (m : Machine) :
    (modifyStore f).run m = .ok () { m with store := f m.store } := by
  rcases m with ⟨st, out, trace, level, toFile, g⟩
  rfl

theorem newScope_run (p : Nat) (m : Machine) :
    (newScope p).run m = .ok m.store.frames.size { m with store := (m.store.child p).1 } := by
  rcases m with ⟨⟨frames, objects⟩, out, trace, level, toFile, g⟩
  rfl

/-- An event whose line a trace file would take is kept when the level shows it, and nothing
else changes. -/
theorem note_run_writable (e : Event) {m : Machine} (h : m.traceFile = true → e.line.Writable) :
    (note e).run m = .ok () (m.after m.store [e]) := by
  obtain ⟨st, out, tr, k, toFile, g⟩ := m
  have hw : (if toFile then Text.strictRefusal? e.line else none) = none := by
    cases toFile
    · rfl
    · exact Text.refusalAt_none (h rfl) _ 0
  by_cases hs : e.shownAt k = true
  · show (if e.shownAt k then _ else _ : Eval Unit).run _ = _
    rw [if_pos hs]
    simp only [hw]
    show (EStateM.Result.ok () ⟨st, out, tr.push e, k, toFile, g⟩ :
      EStateM.Result Stop Machine Unit) = _
    simp [Machine.after, hs]
  · show (if e.shownAt k then _ else _ : Eval Unit).run _ = _
    rw [if_neg hs]
    show EStateM.Result.ok () _ = _
    simp [Machine.after, hs]

theorem declare_run (env : Nat) (f : Func) (m : Machine) (hw : m.traceFile = true → f.Writable) :
    (declare env f).run m =
      .ok ⟨f, env⟩ (m.after (m.store.define env f.name.display (.fn ⟨f, env⟩)) [f.declared]) := by
  simp only [declare]
  rw [EStateM.run_bind, modifyStore_run]
  dsimp only
  rw [EStateM.run_bind, note_run_writable]
  · rfl
  · exact fun h => (hw h).declared

/-! ### Method tables -/

/-- A method table read as bindings: each name bound to its function. -/
def tableBindings (t : List (Text × Closure)) : Bindings :=
  t.map fun p => (p.1, .fn p.2)

theorem get?_tableBindings (t : List (Text × Closure)) (y : Text) :
    (tableBindings t).get? y = (t.lookup y).map .fn := by
  induction t with
  | nil => rfl
  | cons p t ih =>
    obtain ⟨n, c⟩ := p
    rw [tableBindings, List.map_cons, Bindings.get?_cons, ← tableBindings, ih, List.lookup_cons]
    by_cases h : n = y
    · subst h
      simp
    · simp [h, beq_false_of_ne (Ne.symm h)]

/-- A table takes a method the way a scope takes a binding: in place when the name is in it,
at the end otherwise. -/
theorem tableBindings_setMethod (t : List (Text × Closure)) (n : Text) (c : Closure) :
    tableBindings (setMethod t n c) = (tableBindings t).set n (.fn c) := by
  have hc : (tableBindings t).contains n = t.any (·.1 = n) := by
    simp [tableBindings, Bindings.contains, List.any_map, Function.comp_def]
  rw [setMethod, Bindings.set, hc]
  split
  · simp only [tableBindings, List.map_map]
    apply List.map_congr_left
    intro p _
    by_cases h : p.1 = n <;> simp [h]
  · simp [tableBindings]

theorem setMethod_lookup (t : List (Text × Closure)) (n y : Text) (c : Closure) :
    (setMethod t n c).lookup y = if y = n then some c else t.lookup y := by
  apply Option.map_injective fun _ _ h => Value.fn.inj h
  rw [← get?_tableBindings, tableBindings_setMethod, Bindings.get?_set, get?_tableBindings]
  split <;> rfl

theorem setMethod_keys (t : List (Text × Closure)) (n : Text) (c : Closure) :
    (setMethod t n c).map (·.1) =
      if n ∈ t.map (·.1) then t.map (·.1) else t.map (·.1) ++ [n] := by
  unfold setMethod
  by_cases h : t.any (·.1 = n) = true
  · have hn : n ∈ t.map (·.1) := by simpa [List.any_eq_true] using h
    rw [if_pos h, if_pos hn, List.map_map]
    apply List.map_congr_left
    intro p _
    by_cases hp : p.1 = n <;> simp [hp]
  · have hn : n ∉ t.map (·.1) := by simpa [List.any_eq_true] using h
    rw [if_neg h, if_neg hn, List.map_append]
    rfl

/-- The table that declaring the methods `ms` over `scope` makes of the table `t`. -/
def addMethods (scope : Nat) (ms : List Func) (t : List (Text × Closure)) :
    List (Text × Closure) :=
  ms.foldl (fun t f => setMethod t f.name.display ⟨f, scope⟩) t

theorem addMethods_concat (scope : Nat) (ms : List Func) (f : Func) (t : List (Text × Closure)) :
    addMethods scope (ms ++ [f]) t = setMethod (addMethods scope ms t) f.name.display ⟨f, scope⟩ := by
  rw [addMethods, List.foldl_append]
  rfl

/-- A class's method table lists each method name once, in the order of first occurrence. -/
theorem addMethods_keys (scope : Nat) (ms : List Func) :
    (addMethods scope ms []).map (·.1) = (ms.map (·.name.display)).eraseDups := by
  induction ms using List.reverseRecOn with
  | nil => rfl
  | append_singleton ms f ih =>
    rw [addMethods_concat, setMethod_keys, ih, List.map_append, List.eraseDups_append]
    by_cases h : f.name.display ∈ ms.map (·.name.display)
    · rw [if_pos (List.mem_eraseDups.2 h)]
      simp [List.removeAll, -List.mem_map, h]
    · rw [if_neg (mt List.mem_eraseDups.1 h)]
      simp [List.removeAll, -List.mem_map, h, List.eraseDups_cons]

/-- A class's method table binds each name to the closure of its last declaration. -/
theorem addMethods_lookup (scope : Nat) (ms : List Func) (y : Text) :
    (addMethods scope ms []).lookup y =
      (ms.reverse.find? (·.name.display = y)).map (⟨·, scope⟩) := by
  induction ms using List.reverseRecOn with
  | nil => rfl
  | append_singleton ms f ih =>
    rw [addMethods_concat, setMethod_lookup, ih, List.reverse_append, List.reverse_singleton,
      List.singleton_append, List.find?_cons]
    by_cases h : f.name.display = y
    · simp [h]
    · simp [h, Ne.symm h]

end Eval

/-! ### The class scope -/

namespace Store

/-- The store after binding the methods `ms`, declared over `scope`, in that scope. -/
def defineMethods (s : Store) (scope : Nat) (ms : List Func) : Store :=
  ms.foldl (fun s f => s.define scope f.name.display (.fn ⟨f, scope⟩)) s

variable {scope : Nat}

theorem defineMethods_cons (s : Store) (f : Func) (fs : List Func) :
    s.defineMethods scope (f :: fs) =
      (s.define scope f.name.display (.fn ⟨f, scope⟩)).defineMethods scope fs :=
  rfl

theorem size_defineMethods (s : Store) (ms : List Func) :
    (s.defineMethods scope ms).frames.size = s.frames.size := by
  induction ms generalizing s with
  | nil => rfl
  | cons f fs ih => rw [defineMethods_cons, ih, size_define]

theorem parent?_defineMethods (s : Store) (ms : List Func) (j : Nat) :
    (s.defineMethods scope ms).parent? j = s.parent? j := by
  induction ms generalizing s with
  | nil => rfl
  | cons f fs ih => rw [defineMethods_cons, ih, parent?_define]

theorem vars_defineMethods_ne (s : Store) (ms : List Func) {j : Nat} (hj : j ≠ scope) :
    (s.defineMethods scope ms).vars j = s.vars j := by
  induction ms generalizing s with
  | nil => rfl
  | cons f fs ih => rw [defineMethods_cons, ih, vars_define_ne _ _ hj]

/-- A new scope has the parent it is made with; the other scopes keep theirs. -/
theorem parent?_newFrame (s : Store) (parent : Option Nat) (i : Nat) :
    (s.newFrame parent).1.parent? i = if i = s.frames.size then parent else s.parent? i := by
  cases s with
  | mk frames objects =>
    simp only [newFrame, parent?, Array.getElem?_push]
    split <;> rfl

/-- A new scope is nested in the scope it is made in; the other scopes keep their parents. -/
theorem parent?_child (s : Store) (p i : Nat) :
    (s.child p).1.parent? i = if i = s.frames.size then some p else s.parent? i :=
  s.parent?_newFrame (some p) i

/-- Binding the methods in their scope gives it the bindings of the table that declaring them
makes. -/
theorem vars_defineMethods (s : Store) (ms : List Func) (t : List (Text × Closure))
    (hs : scope < s.frames.size) (ht : s.vars scope = Eval.tableBindings t) :
    (s.defineMethods scope ms).vars scope = Eval.tableBindings (Eval.addMethods scope ms t) := by
  induction ms generalizing s t with
  | nil => exact ht
  | cons f fs ih =>
    rw [defineMethods_cons]
    refine ih _ _ (by rw [size_define]; exact hs) ?_
    rw [vars_define_self hs, ht, Eval.tableBindings_setMethod]

end Store

/-! ### Declaring a class -/

namespace Eval

theorem declareMethods_run (scope : Nat) (ms : List Func) (t : List (Text × Closure))
    (m : Machine) (hw : m.traceFile = true → ∀ f ∈ ms, f.Writable) :
    (declareMethods scope ms t).run m =
      .ok (addMethods scope ms t) (m.after (m.store.defineMethods scope ms) (ms.map Func.declared)) := by
  induction ms generalizing t m with
  | nil =>
    show EStateM.Result.ok t m = .ok t (m.after m.store [])
    rw [Machine.after_nil]
  | cons f fs ih =>
    simp only [declareMethods]
    rw [EStateM.run_bind, declare_run _ _ _ fun h => hw h f List.mem_cons_self]
    dsimp only
    rw [ih, Machine.after_after]
    · rfl
    · exact fun h g hg => hw h g (List.mem_cons_of_mem f hg)

theorem declareClass_run (env : Nat) (name : Text) (ms : List Func) (m : Machine)
    (hw : m.traceFile = true → name.Writable ∧ ∀ f ∈ ms, f.Writable) :
    (declareClass env name ms).run m =
      .ok ⟨name, addMethods m.store.frames.size ms [], m.store.frames.size⟩
        (m.after (((m.store.child env).1.defineMethods m.store.frames.size ms).define env name
            (.cls ⟨name, addMethods m.store.frames.size ms [], m.store.frames.size⟩))
          (ms.map Func.declared ++
            [.defineClass name ((addMethods m.store.frames.size ms []).map (·.1))])) := by
  simp only [declareClass]
  rw [EStateM.run_bind, newScope_run]
  dsimp only
  rw [EStateM.run_bind,
    declareMethods_run _ _ _ { m with store := (m.store.child env).1 } fun h => (hw h).2]
  dsimp only
  rw [EStateM.run_bind, modifyStore_run]
  dsimp only
  rw [EStateM.run_bind, note_run_writable]
  · rw [← Machine.after_after]
    rfl
  · intro h
    refine Event.defineClass_writable (hw h).1 fun t ht => ?_
    rw [addMethods_keys, List.mem_eraseDups] at ht
    obtain ⟨f, hf, rfl⟩ := List.mem_map.1 ht
    exact ((hw h).2 f hf).1

end Eval

/-- A class declaration `class C { m₁ … mₖ }`, method names repeated or not, binds `C` in the
scope it runs in to a class whose scope is a new one nested there. The class's method table
lists each method name once, in the order of first occurrence, and binds it to the function of
its last occurrence, closed over the class scope; the class scope binds the same names to the
same functions. The trace reports each method, then the class with the names of its table, or
`-` when it has none. And reading a method from an instance of the class that has no field of
that name binds the method's last declaration to the instance: a new scope, nested in the class
scope, binds `this` to it. -/
theorem class_method_tables (n env : Nat) (x : Scalar) (ms : List Func) (m : Machine)
    (henv : env < m.store.frames.size)
    (hw : m.traceFile = true → x.display.Writable ∧ ∀ f ∈ ms, f.Writable) :
    ∃ k m', (Eval.stmt (n + 1) env (.classDecl x ms)).run m = .ok (.normal (some (.cls k))) m' ∧
      k.name = x.display ∧ k.scope = m.store.frames.size ∧
      m'.store.parent? k.scope = some env ∧
      (m'.store.vars env).get? x.display = some (.cls k) ∧
      k.methods.map (·.1) = (ms.map (·.name.display)).eraseDups ∧
      (∀ y, k.methods.lookup y = (ms.reverse.find? (·.name.display = y)).map (⟨·, k.scope⟩)) ∧
      m'.store.vars k.scope = k.methods.map (fun p => (p.1, .fn p.2)) ∧
      m'.trace = m.trace ++ ((ms.map Func.declared ++
        [Event.defineClass x.display (k.methods.map (·.1))]).filter (·.shownAt m.level)).toArray ∧
      (Event.defineClass x.display (k.methods.map (·.1))).line =
        "define class " ++ x.display ++ " with methods " ++
          (if ms = [] then ("-" : Text) else Event.commaList (k.methods.map (·.1))) ∧
      ∀ n' env' t y m₁ m₂ r f, (Eval.expr n' env' t).run m₁ = .ok (.obj r k) m₂ →
        (m₂.store.fields r).get? y.display = none →
        ms.reverse.find? (·.name.display = y.display) = some f →
        (Eval.expr (n' + 1) env' (.getField t y)).run m₁ = .ok (.fn ⟨f, m₂.store.frames.size⟩)
          { m₂ with store :=
            (m₂.store.child k.scope).1.define m₂.store.frames.size "this" (.obj r k) } := by
  -- the class scope is the next scope, and the methods are bound there before the class is
  -- bound in `env`
  have hscope : m.store.frames.size < (m.store.child env).1.frames.size := by
    rw [Store.size_child]
    exact Nat.lt_succ_self _
  have hne : m.store.frames.size ≠ env := Nat.ne_of_gt henv
  have henv' : env < ((m.store.child env).1.defineMethods m.store.frames.size ms).frames.size := by
    rw [Store.size_defineMethods]
    exact Nat.lt_trans henv hscope
  have hempty : (m.store.child env).1.vars m.store.frames.size = Eval.tableBindings [] := by
    rw [Store.vars_child, Store.vars_size]
    rfl
  refine ⟨?k, ?m', ?run, ?name, ?scope, ?parent, ?binds, ?keys, ?lookup, ?vars, ?trace, ?line, ?get⟩
  case run =>
    simp only [Eval.stmt]
    rw [EStateM.run_bind, Eval.declareClass_run _ _ _ _ hw]
    rfl
  case name | scope | trace => rfl
  case keys => exact Eval.addMethods_keys _ ms
  case lookup => exact Eval.addMethods_lookup _ ms
  case parent =>
    dsimp only [Machine.after_store]
    rw [Store.parent?_define, Store.parent?_defineMethods, Store.parent?_child, if_pos rfl]
  case binds =>
    dsimp only [Machine.after_store]
    rw [Store.vars_define_self henv', Bindings.get?_set, if_pos rfl]
  case vars =>
    dsimp only [Machine.after_store]
    rw [Store.vars_define_ne _ _ hne, Store.vars_defineMethods _ ms [] hscope hempty]
    rfl
  case line =>
    cases ms with
    | nil =>
      rw [if_pos rfl, List.append_assoc (_ ++ _)]
      rfl
    | cons f fs =>
      rw [Eval.addMethods_keys, List.map_cons, List.eraseDups_cons, if_neg (List.cons_ne_nil f fs)]
      rfl
  case get =>
    intro n' env' t y m₁ m₂ r f ht hfield hf
    have hmeth : (Eval.addMethods m.store.frames.size ms []).lookup y.display =
        some ⟨f, m.store.frames.size⟩ := by
      rw [Eval.addMethods_lookup, hf]
      rfl
    exact Eval.getField_binds_method ht hfield hmeth


/-- A class that declares `a`, `b` and `a` again: its table lists `a` and then `b`, `a` is the
second declaration of `a`, and a trace at level 1 reports the three methods and then the class
with the names of its table. -/
theorem redeclared_method_keeps_first_place :
    ∃ k m', (Eval.stmt 1 0 (.classDecl (.text "P") [⟨.text "a", [], []⟩,
        ⟨.text "b", [.text "x"], []⟩, ⟨.text "a", [.text "y"], []⟩])).run (Machine.fresh 1 false) =
        .ok (.normal (some (.cls k))) m' ∧
      k.methods.map (·.1) = [("a" : Text), "b"] ∧
      k.methods.lookup ("a" : Text) = some ⟨⟨.text "a", [.text "y"], []⟩, 1⟩ ∧
      m'.trace.toList.map Event.line = [("define function a()" : Text), "define function b(x)",
        "define function a(y)", "define class P with methods a, b"] := by
  obtain ⟨k, m', hrun, -, hscope, -, -, hkeys, hlookup, -, htrace, -, -⟩ :=
    class_method_tables 0 0 (.text "P") [⟨.text "a", [], []⟩, ⟨.text "b", [.text "x"], []⟩,
      ⟨.text "a", [.text "y"], []⟩] (Machine.fresh 1 false) (by decide)
      (fun h => absurd h Bool.false_ne_true)
  refine ⟨k, m', hrun, ?_, ?_, ?_⟩
  · rw [hkeys]
    decide
  · rw [hlookup, hscope]
    rfl
  · rw [htrace, hkeys]
    decide +kernel

end Ember
