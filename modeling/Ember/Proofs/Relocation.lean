import Ember.Shell
import Ember.Proofs.Simulation
import Ember.Proofs.Words
import Ember.Proofs.Scopes
/-!
Runs on a store moved into a larger one.

A store can sit inside a larger one at an offset: its scope `i` as the larger store's scope
`i + d.scopes` and its instance `r` as instance `r + d.objects`, with every closure, class and
instance held in it naming the moved numbers (`Store.Relocated d s t`, for a `Relocation` `d`).
What lies below the offsets in the larger store is never reached from there: a chain of
scopes from a moved scope stays among moved scopes, and a moved value names only moved scopes
and instances. So the evaluator runs on the larger store, from a moved scope, as it runs on the
smaller one, with every value it gives moved (`Eval.allRelocate`), and so do whole runs
(`Program.runIn_relocated`) and the answers of the loop (`Repl.answerAll_relocated`). Moving
changes no text the loop writes (`Reply.shown_relocate`).

This is how a reset of the loop forgets the session: the new global scope, and all that is
made after it, sit in the store as in a fresh store, moved past what the session made before.
-/

namespace Ember

/-- How far a store is moved into a larger one: its scopes by `scopes` numbers and its
instances by `objects`. -/
structure Relocation where
  scopes : Nat
  objects : Nat

section Moves

variable (d : Relocation)

/-- A closure over the moved scope. -/
def Closure.relocate (c : Closure) : Closure :=
  ⟨c.decl, c.scope + d.scopes⟩

/-- A method table with its closures moved. -/
def Closure.relocateTable (table : List (Text × Closure)) : List (Text × Closure) :=
  table.map fun e => (e.1, e.2.relocate d)

/-- A class with its scope and its methods moved. -/
def ClassDef.relocate (k : ClassDef) : ClassDef :=
  ⟨k.name, Closure.relocateTable d k.methods, k.scope + d.scopes⟩

/-- A value with the scopes and the instance it names moved. -/
def Value.relocate : Value → Value
  | .fn c => .fn (c.relocate d)
  | .cls k => .cls (k.relocate d)
  | .obj r k => .obj (r + d.objects) (k.relocate d)
  | v => v

/-- Bindings with their values moved. -/
def Bindings.relocate (bs : Bindings) : Bindings :=
  bs.map fun b => (b.1, b.2.relocate d)

/-- A scope with its parent and its values moved. -/
def Frame.relocate (f : Frame) : Frame :=
  ⟨f.parent.map (· + d.scopes), f.vars.relocate d⟩

/-- A trace event with the values it reports moved. -/
def Event.relocate : Event → Event
  | .bind x v => .bind x (v.relocate d)
  | .call x vs => .call x (vs.map (Value.relocate d))
  | e => e

/-- A statement's value, given or returned, moved. -/
def Completion.relocate : Completion → Completion
  | .normal v => .normal (v.map (Value.relocate d))
  | .returned v => .returned (v.relocate d)

/-- How a run ended, with its value moved. -/
def Outcome.relocate : Outcome → Outcome
  | .done v => .done (v.map (Value.relocate d))
  | .failed f => .failed f

/-- A reply with the events of its trace moved. -/
def Reply.relocate (r : Reply) : Reply :=
  ⟨r.out, r.err, r.trace.map (Event.relocate d)⟩

end Moves

/-- What a reply shows: its output, its error text, and the text of its trace. -/
def Reply.shown (r : Reply) : Text × Text × Text :=
  (r.out, r.err, Event.text r.trace)

/-! ### Moving changes no text -/

section Texts

variable {d : Relocation}

@[simp] theorem Value.type_relocate (v : Value) : (v.relocate d).type = v.type := by
  cases v <;> rfl

@[simp] theorem Value.inspect_relocate (v : Value) : (v.relocate d).inspect = v.inspect := by
  cases v <;> rfl

@[simp] theorem Value.relocate_ofScalar (s : Scalar) : (Value.ofScalar s).relocate d = .ofScalar s := by
  cases s <;> rfl

@[simp] theorem Event.level_relocate (e : Event) : (e.relocate d).level = e.level := by
  cases e <;> rfl

@[simp] theorem Event.shownAt_relocate (e : Event) (k : Nat) :
    (e.relocate d).shownAt k = e.shownAt k := by
  simp only [Event.shownAt, Event.level_relocate]

@[simp] theorem Event.line_relocate (e : Event) : (e.relocate d).line = e.line := by
  cases e with
  | bind x v => simp only [Event.relocate, Event.line, Value.inspect_relocate]
  | call x vs => simp only [Event.relocate, Event.line, List.map_map, Function.comp_def,
      Value.inspect_relocate]
  | _ => rfl

theorem Event.text_relocate (es : Array Event) :
    Event.text (es.map (Event.relocate d)) = Event.text es := by
  simp only [Event.text, Array.toList_map, List.flatMap_map, Event.line_relocate]

/-- The loop writes the same text for a reply and for the reply moved. -/
theorem Reply.shown_relocate (r : Reply) : (r.relocate d).shown = r.shown := by
  simp only [Reply.shown, Reply.relocate, Event.text_relocate]

/-- Operators give values without scopes or instances, which moving leaves as they are. -/
theorem BinOp.apply_relocate (op : BinOp) (a b : Value) :
    op.apply (a.relocate d) (b.relocate d) = (op.apply a b).map (Value.relocate d) := by
  -- the operators read a function, class or instance only through its type and its text
  have hsame : op.apply (a.relocate d) (b.relocate d) = op.apply a b := by
    cases a <;> cases b <;> rfl
  rw [hsame]
  cases h : op.apply a b with
  | error f => rfl
  | ok v =>
    rcases BinOp.apply_shape h with ⟨_, rfl, _⟩ | ⟨_, rfl⟩ | ⟨_, rfl⟩ <;> rfl

theorem LogicOp.apply_relocate (op : LogicOp) (a b : Value) :
    op.apply (a.relocate d) (b.relocate d) = (op.apply a b).map (Value.relocate d) := by
  have hsame : op.apply (a.relocate d) (b.relocate d) = op.apply a b := by
    cases a <;> cases b <;> rfl
  rw [hsame]
  cases h : op.apply a b with
  | error f => rfl
  | ok v =>
    obtain ⟨_, rfl⟩ := LogicOp.apply_shape h
    rfl

theorem UnaryOp.apply_relocate (op : UnaryOp) (a : Value) :
    op.apply (a.relocate d) = (op.apply a).map (Value.relocate d) := by
  have hsame : op.apply (a.relocate d) = op.apply a := by
    cases op <;> cases a <;> rfl
  rw [hsame]
  cases h : op.apply a with
  | error f => rfl
  | ok v =>
    rcases UnaryOp.apply_shape h with ⟨_, rfl, _⟩ | ⟨_, rfl⟩ <;> rfl

/-- A directive reads its argument only through its integer, its truth value, its type and
its text. -/
theorem Template.Directive.write_relocate (dir : Template.Directive) (v : CodePoint)
    (a : Value) : dir.write v (a.relocate d) = dir.write v a := by
  cases a <;> rfl

theorem Template.fillPieces_relocate :
    ∀ (out : Text) (ps : List Template.Piece) (args : List Value),
      Template.fillPieces out ps (args.map (Value.relocate d)) =
        (Template.fillPieces out ps args).map fun r => (r.1, r.2.map (Value.relocate d))
  | out, [], args => rfl
  | out, .text s :: ps, args => Template.fillPieces_relocate (out ++ s) ps args
  | out, .directive dir :: ps, args => by
    simp only [Template.fillPieces]
    split
    · exact Template.fillPieces_relocate _ ps args
    · split
      · exact Template.fillPieces_relocate _ ps args
      · split
        · rfl
        · cases args with
          | nil => rfl
          | cons a rest =>
            simp only [List.map_cons, Template.Directive.write_relocate]
            cases dir.write _ a with
            | error f => rfl
            | ok s => exact Template.fillPieces_relocate _ ps rest

/-- A template is filled alike with its arguments moved. -/
theorem Template.format_relocate (t : Text) (args : List Value) :
    Template.format t (args.map (Value.relocate d)) = Template.format t args := by
  simp only [Template.format, Template.fillPieces_relocate]
  cases Template.fillPieces [] (Template.pieces t) args with
  | error f => rfl
  | ok r =>
    show (if (r.2.map (Value.relocate d)).isEmpty then _ else _ : Except Template.Fault Text) =
      if r.2.isEmpty then _ else _
    rw [List.isEmpty_map, List.length_map]

end Texts

/-! ### Bindings, tables and stores moved -/

section Stores

variable {d : Relocation}

@[simp] theorem Bindings.contains_relocate (bs : Bindings) (name : Text) :
    (bs.relocate d).contains name = bs.contains name := by
  simp [Bindings.contains, Bindings.relocate, List.any_map, Function.comp_def]

theorem Bindings.get?_relocate (bs : Bindings) (name : Text) :
    (bs.relocate d).get? name = (bs.get? name).map (Value.relocate d) := by
  simp [Bindings.get?, Bindings.relocate, List.find?_map, Option.map_map, Function.comp_def]

theorem Bindings.set_relocate (bs : Bindings) (name : Text) (v : Value) :
    (bs.relocate d).set name (v.relocate d) = (bs.set name v).relocate d := by
  unfold Bindings.set
  rw [Bindings.contains_relocate]
  split
  · simp only [Bindings.relocate, List.map_map]
    congr 1
    funext b
    by_cases hb : b.1 = name <;> simp [hb]
  · simp [Bindings.relocate]

theorem Closure.lookup_relocateTable (table : List (Text × Closure)) (name : Text) :
    (Closure.relocateTable d table).lookup name = (table.lookup name).map (Closure.relocate d) := by
  induction table with
  | nil => rfl
  | cons e table ih =>
    obtain ⟨k, c⟩ := e
    simp only [Closure.relocateTable] at ih
    by_cases hk : name = k
    · subst hk
      simp only [Closure.relocateTable, List.map_cons, List.lookup_cons, beq_self_eq_true,
        Option.map_some]
    · have hb : (name == k) = false := beq_false_of_ne hk
      simp only [Closure.relocateTable, List.map_cons, List.lookup_cons, hb]
      exact ih

theorem Closure.keys_relocateTable (table : List (Text × Closure)) :
    (Closure.relocateTable d table).map (·.1) = table.map (·.1) := by
  simp [Closure.relocateTable, Function.comp_def]

theorem Closure.setMethod_relocateTable (table : List (Text × Closure)) (name : Text)
    (c : Closure) :
    Eval.setMethod (Closure.relocateTable d table) name (c.relocate d) =
      Closure.relocateTable d (Eval.setMethod table name c) := by
  unfold Eval.setMethod
  have hany : (Closure.relocateTable d table).any (·.1 = name) = table.any (·.1 = name) := by
    simp [Closure.relocateTable, List.any_map, Function.comp_def]
  rw [hany]
  split
  · simp only [Closure.relocateTable, List.map_map]
    congr 1
    funext e
    by_cases he : e.1 = name <;> simp [he]
  · simp [Closure.relocateTable]

/-- `t` holds the store `s` moved by `d`: each scope of `s`, and each instance, at its moved
number, with its values moved; below the moved numbers `t` may hold anything. -/
structure Store.Relocated (d : Relocation) (s t : Store) : Prop where
  frames_size : t.frames.size = s.frames.size + d.scopes
  frames : ∀ i, t.frames[i + d.scopes]? = s.frames[i]?.map (Frame.relocate d)
  objects_size : t.objects.size = s.objects.size + d.objects
  objects : ∀ r, t.objects[r + d.objects]? = s.objects[r]?.map (Bindings.relocate d)

namespace Store.Relocated

variable {s t : Store}

theorem vars (h : Store.Relocated d s t) (i : Nat) :
    t.vars (i + d.scopes) = (s.vars i).relocate d := by
  unfold Store.vars
  rw [h.frames]
  cases s.frames[i]? <;> rfl

theorem fields (h : Store.Relocated d s t) (r : Nat) :
    t.fields (r + d.objects) = (s.fields r).relocate d := by
  unfold Store.fields
  rw [h.objects]
  cases s.objects[r]? <;> rfl

/-- The chain from a moved scope is the moved chain: the first scope on it that binds a name
is the moved one. The induction follows the chain down to smaller numbers. -/
theorem holder? (h : Store.Relocated d s t) (name : Text) :
    ∀ i, t.holder? name (i + d.scopes) = (s.holder? name i).map (· + d.scopes) := by
  intro i
  induction i using Nat.strongRecOn with
  | ind i ih =>
  rw [Store.holder?, Store.holder?, h.frames]
  cases s.frames[i]? with
  | none => rfl
  | some f =>
    simp only [Option.map_some, Frame.relocate, Bindings.contains_relocate]
    split
    · rfl
    · cases f.parent with
      | none => rfl
      | some p =>
        simp only [Option.map_some]
        by_cases hp : p < i
        · rw [if_pos (Nat.add_lt_add_right hp _), if_pos hp, ih p hp]
        · rw [if_neg (fun h' => hp (Nat.lt_of_add_lt_add_right h')), if_neg hp]
          rfl

theorem lookup (h : Store.Relocated d s t) (i : Nat) (name : Text) :
    t.lookup (i + d.scopes) name = (s.lookup i name).map (Value.relocate d) := by
  unfold Store.lookup
  rw [h.holder? name i]
  cases s.holder? name i with
  | none => rfl
  | some j => simp only [Option.map_some, Option.bind_some, h.vars, Bindings.get?_relocate]

theorem define (h : Store.Relocated d s t) (i : Nat) (name : Text) (v : Value) :
    Store.Relocated d (s.define i name v) (t.define (i + d.scopes) name (v.relocate d)) := by
  obtain ⟨hfs, hf, hos, ho⟩ := h
  obtain ⟨frames, objects⟩ := s
  obtain ⟨frames', objects'⟩ := t
  dsimp only at hfs hf hos ho
  refine ⟨by simpa [Store.define] using hfs, fun j => ?_, hos, ho⟩
  simp only [Store.define, Array.getElem?_modify]
  rw [hf j]
  by_cases hj : i = j
  · subst hj
    rw [if_pos rfl, if_pos rfl]
    cases frames[i]? with
    | none => rfl
    | some f => simp only [Option.map_some, Frame.relocate, Bindings.set_relocate]
  · rw [if_neg (fun h' => hj (Nat.add_right_cancel h')), if_neg hj]

theorem assign (h : Store.Relocated d s t) (i : Nat) (name : Text) (v : Value) :
    Store.Relocated d (s.assign i name v) (t.assign (i + d.scopes) name (v.relocate d)) := by
  unfold Store.assign
  rw [h.holder? name i]
  have hpos : ((s.holder? name i).map (· + d.scopes)).getD (i + d.scopes) =
      (s.holder? name i).getD i + d.scopes := by
    cases s.holder? name i <;> rfl
  rw [hpos]
  exact h.define _ name v

/-- A new scope is made at the moved number, nested in the moved parent. -/
theorem newFrame (h : Store.Relocated d s t) (parent : Option Nat) :
    Store.Relocated d (s.newFrame parent).1 (t.newFrame (parent.map (· + d.scopes))).1 := by
  obtain ⟨hfs, hf, hos, ho⟩ := h
  obtain ⟨frames, objects⟩ := s
  obtain ⟨frames', objects'⟩ := t
  dsimp only at hfs hf hos ho
  refine ⟨?_, fun j => ?_, hos, ho⟩
  · simp only [Store.newFrame, Array.size_push]
    omega
  · simp only [Store.newFrame, Array.getElem?_push]
    by_cases hj : j = frames.size
    · rw [if_pos (by omega), if_pos hj]
      rfl
    · rw [if_neg (by omega), if_neg hj, hf j]

/-- A store with nothing in it sits past the end of every store. -/
theorem past (u : Store) : Store.Relocated ⟨u.frames.size, u.objects.size⟩ ⟨#[], #[]⟩ u where
  frames_size := (Nat.zero_add _).symm
  frames i := by
    rw [Array.getElem?_eq_none (by dsimp only; omega)]
    simp
  objects_size := (Nat.zero_add _).symm
  objects r := by
    rw [Array.getElem?_eq_none (by dsimp only; omega)]
    simp

/-- A new global scope made in a store is the global scope of a fresh store, moved past the
store. -/
theorem fresh_newFrame (u : Store) :
    Store.Relocated ⟨u.frames.size, u.objects.size⟩ Store.fresh (u.newFrame none).1 :=
  (past u).newFrame none

theorem newObject (h : Store.Relocated d s t) :
    Store.Relocated d s.newObject.1 t.newObject.1 := by
  obtain ⟨hfs, hf, hos, ho⟩ := h
  obtain ⟨frames, objects⟩ := s
  obtain ⟨frames', objects'⟩ := t
  dsimp only at hfs hf hos ho
  refine ⟨hfs, hf, ?_, fun r => ?_⟩
  · simp only [Store.newObject, Array.size_push]
    omega
  · simp only [Store.newObject, Array.getElem?_push]
    by_cases hr : r = objects.size
    · rw [if_pos (by omega), if_pos hr]
      rfl
    · rw [if_neg (by omega), if_neg hr, ho r]

theorem setField (h : Store.Relocated d s t) (r : Nat) (name : Text) (v : Value) :
    Store.Relocated d (s.setField r name v) (t.setField (r + d.objects) name (v.relocate d)) := by
  obtain ⟨hfs, hf, hos, ho⟩ := h
  obtain ⟨frames, objects⟩ := s
  obtain ⟨frames', objects'⟩ := t
  dsimp only at hfs hf hos ho
  refine ⟨hfs, hf, by simpa [Store.setField] using hos, fun q => ?_⟩
  simp only [Store.setField, Array.getElem?_modify]
  rw [ho q]
  by_cases hq : r = q
  · subst hq
    rw [if_pos rfl, if_pos rfl]
    cases objects[r]? with
    | none => rfl
    | some fs => simp only [Option.map_some, Bindings.set_relocate]
  · rw [if_neg (fun h' => hq (Nat.add_right_cancel h')), if_neg hq]

/-- Binding parameters to values binds them to the moved values in the moved scope. -/
theorem bindParams {scope : Nat} :
    ∀ (ps : List (Scalar × Value)) {s t : Store}, Store.Relocated d s t →
      Store.Relocated d (ps.foldl (fun s (p, v) => s.define scope p.display v) s)
        ((ps.map fun pv => (pv.1, pv.2.relocate d)).foldl
          (fun s (p, v) => s.define (scope + d.scopes) p.display v) t)
  | [], _, _, h => h
  | (p, v) :: ps, _, _, h => bindParams ps (h.define scope p.display v)

end Store.Relocated

end Stores

/-! ### Machines moved, and the primitives of the evaluator -/

/-- `t` is the machine `m` moved by `d`: its store holds `m`'s moved, its current global scope
is `m`'s moved, and it has printed the same text and traced the same events moved, with the
same trace settings. -/
structure Machine.Relocated (d : Relocation) (m t : Machine) : Prop where
  store : Store.Relocated d m.store t.store
  out : t.out = m.out
  trace : t.trace = m.trace.map (Event.relocate d)
  level : t.level = m.level
  traceFile : t.traceFile = m.traceFile
  global : t.global = m.global + d.scopes

namespace Eval

/-- Runs of `x` on a machine and of `y` on the machine moved by `d` end alike, with the values
of `y` those of `x` mapped by `f`. -/
def Relocates (d : Relocation) {α β : Type} (f : α → β) (x : Eval α) (y : Eval β) : Prop :=
  Simulates (Machine.Relocated d) f x y

section Primitives

variable {d : Relocation}

theorem modifyStore_relocates {g g' : Store → Store}
    (hg : ∀ s t, Store.Relocated d s t → Store.Relocated d (g s) (g' t)) :
    Relocates d id (modifyStore g) (modifyStore g') :=
  fun _ _ hm => ⟨rfl, hg _ _ hm.store, hm.out, hm.trace, hm.level, hm.traceFile, hm.global⟩

theorem emit_relocates (s : Text) : Relocates d id (emit s) (emit s) :=
  fun m t hm => ⟨rfl, hm.store, show t.out ++ s = m.out ++ s by rw [hm.out], hm.trace, hm.level,
    hm.traceFile, hm.global⟩

theorem lookup_relocates (env : Nat) (name : Text) :
    Relocates d (Option.map (Value.relocate d)) (lookup env name)
      (lookup (env + d.scopes) name) :=
  fun _ _ hm => ⟨hm.store.lookup env name, hm⟩

/-- An event is kept, refused or left out alike, since moving changes neither its level nor
its line. -/
theorem note_relocates (e : Event) : Relocates d id (note e) (note (e.relocate d)) := by
  rintro ⟨st, out, tr, k, file, g⟩ ⟨st', out', tr', k', file', g'⟩ ⟨hs, ho, ht, hk, hf, hg⟩
  dsimp only at hs ho ht hk hf hg
  subst ho ht hk hf hg
  show EndsMapped _ _ ((if e.shownAt k' then _ else _ : Eval Unit).run _)
    ((if (e.relocate d).shownAt k' then _ else _ : Eval Unit).run _)
  rw [Event.shownAt_relocate]
  by_cases hsh : e.shownAt k'
  · rw [if_pos hsh, if_pos hsh, Event.line_relocate]
    cases (if file' then Text.strictRefusal? e.line else none) with
    | some r => exact ⟨rfl, hs, rfl, rfl, rfl, rfl, rfl⟩
    | none => exact ⟨rfl, hs, rfl, Array.map_push.symm, rfl, rfl, rfl⟩
  · rw [if_neg hsh, if_neg hsh]
    exact ⟨rfl, hs, rfl, rfl, rfl, rfl, rfl⟩

/-- A new scope is made at the moved number. -/
theorem newScope_relocates (p : Nat) :
    Relocates d (· + d.scopes) (newScope p) (newScope (p + d.scopes)) :=
  fun _ _ hm => ⟨hm.store.frames_size, hm.store.newFrame (some p), hm.out, hm.trace, hm.level,
    hm.traceFile, hm.global⟩

theorem newObject_relocates : Relocates d (· + d.objects) newObject newObject :=
  fun _ _ hm => ⟨hm.store.objects_size, hm.store.newObject, hm.out, hm.trace, hm.level,
    hm.traceFile, hm.global⟩

theorem printValues_relocates (vs : List Value) :
    Relocates d id (printValues vs) (printValues (vs.map (Value.relocate d))) := by
  cases vs with
  | nil => exact Simulates.pure ()
  | cons v args =>
    cases v with
    | str t =>
      -- the template is filled alike, its arguments read only through what moving keeps
      simp only [printValues, List.map_cons, Value.relocate, Template.format_relocate]
      split
      · exact emit_relocates _
      · exact Simulates.throw _
      · exact Simulates.fail _
    | _ => exact Simulates.fail _

theorem declare_relocates (env : Nat) (f : Func) :
    Relocates d (Closure.relocate d) (declare env f) (declare (env + d.scopes) f) :=
  Simulates.bind (modifyStore_relocates fun _ _ h => h.define env _ _) fun _ =>
    Simulates.bind (note_relocates _) fun _ => Simulates.pure _

theorem declareMethods_relocates (env : Nat) :
    ∀ (ms : List Func) (table : List (Text × Closure)),
      Relocates d (Closure.relocateTable d) (declareMethods env ms table)
        (declareMethods (env + d.scopes) ms (Closure.relocateTable d table))
  | [], table => Simulates.pure table
  | m :: ms, table => Simulates.bind (declare_relocates env m) fun c => by
    rw [Closure.setMethod_relocateTable]
    exact declareMethods_relocates env ms _

theorem declareClass_relocates (env : Nat) (name : Text) (ms : List Func) :
    Relocates d (ClassDef.relocate d) (declareClass env name ms)
      (declareClass (env + d.scopes) name ms) := by
  unfold declareClass
  refine Simulates.bind (newScope_relocates env) fun scope => ?_
  refine Simulates.bind (declareMethods_relocates scope ms []) fun table => ?_
  -- the trace names the methods, which moving keeps
  rw [Closure.keys_relocateTable]
  exact Simulates.bind (modifyStore_relocates fun _ _ h => h.define env name _) fun _ =>
    Simulates.bind (note_relocates _) fun _ => Simulates.pure _

theorem bindMethod_relocates (m : Closure) (self : Value) :
    Relocates d (Value.relocate d) (bindMethod m self)
      (bindMethod (m.relocate d) (self.relocate d)) :=
  Simulates.bind (newScope_relocates m.scope) fun scope =>
    Simulates.bind (modifyStore_relocates fun _ _ h => h.define scope "this" self) fun _ =>
      Simulates.pure _

theorem enter_relocates {n : Nat}
    (hstmt : ∀ env s, Relocates d (Completion.relocate d) (stmt n env s)
      (stmt n (env + d.scopes) s))
    (cl : Closure) (vals : List Value) :
    Relocates d (Value.relocate d) (enter n cl vals)
      (enter n (cl.relocate d) (vals.map (Value.relocate d))) := by
  unfold enter
  refine Simulates.bind (newScope_relocates cl.scope) fun scope => ?_
  refine Simulates.bind (modifyStore_relocates fun _ _ h => ?_) fun _ => ?_
  · -- the parameters are bound to the moved arguments
    rw [List.zip_map_right]
    exact Store.Relocated.bindParams _ h
  refine Simulates.bind (note_relocates _) fun _ => ?_
  refine Simulates.bind (hstmt scope (.block cl.decl.body)) fun c => ?_
  cases c with
  | returned v => exact Simulates.pure v
  | normal o =>
    cases o with
    | some v => exact Simulates.pure v
    | none => exact Simulates.pure Value.nil

end Primitives

/-! ### The evaluator on a moved store -/

/-- With `n` frames left, every part of the evaluator runs on a moved store, from the moved
scope and with the moved closure, as on the store itself, with every value moved. -/
structure AllRelocate (d : Relocation) (n : Nat) : Prop where
  expr : ∀ env e, Relocates d (Value.relocate d) (expr n env e) (expr n (env + d.scopes) e)
  arguments : ∀ env args, Relocates d (List.map (Value.relocate d)) (arguments n env args)
    (arguments n (env + d.scopes) args)
  call : ∀ cl args env, Relocates d (Value.relocate d) (call n cl args env)
    (call n (cl.relocate d) args (env + d.scopes))
  test : ∀ env c, Relocates d id (test n env c) (test n (env + d.scopes) c)
  block : ∀ env ss, Relocates d (Completion.relocate d) (block n env ss)
    (block n (env + d.scopes) ss)
  print : ∀ env args, Relocates d id (print n env args) (print n (env + d.scopes) args)
  stmt : ∀ env s, Relocates d (Completion.relocate d) (stmt n env s)
    (stmt n (env + d.scopes) s)

namespace AllRelocate

variable {d : Relocation} {n : Nat}

theorem zero : AllRelocate d 0 where
  expr _ _ := by simp only [Eval.expr]; exact Simulates.fail _
  arguments _ _ := by simp only [Eval.arguments]; exact Simulates.fail _
  call _ _ _ := by simp only [Eval.call]; exact Simulates.fail _
  test _ _ := by simp only [Eval.test]; exact Simulates.fail _
  block _ _ := by simp only [Eval.block]; exact Simulates.fail _
  print _ _ := by simp only [Eval.print]; exact Simulates.fail _
  stmt _ _ := by simp only [Eval.stmt]; exact Simulates.fail _

theorem exprs (h : AllRelocate d n) (env : Nat) :
    ∀ es, Relocates d (List.map (Value.relocate d)) (Eval.exprs n env es)
      (Eval.exprs n (env + d.scopes) es)
  | [] => by simp only [Eval.exprs]; exact Simulates.pure []
  | e :: es => by
    simp only [Eval.exprs]
    exact Simulates.bind (h.expr env e) fun v =>
      Simulates.bind (h.exprs env es) fun vs => Simulates.pure (v :: vs)

theorem stmts (h : AllRelocate d n) (env : Nat) :
    ∀ ss last, Relocates d (Completion.relocate d) (Eval.stmts n env last ss)
      (Eval.stmts n (env + d.scopes) (last.map (Value.relocate d)) ss)
  | [], last => by simp only [Eval.stmts]; exact Simulates.pure (Completion.normal last)
  | s :: ss, _ => by
    simp only [Eval.stmts]
    refine Simulates.bind (h.stmt env s) fun c => ?_
    cases c with
    | returned v => exact Simulates.pure (Completion.returned v)
    | normal v => exact h.stmts env ss v

theorem loop (h : AllRelocate d n) (env : Nat) (c : Expr) (body : Stmt) :
    ∀ k last, Relocates d (Completion.relocate d) (Eval.loop n env c body last k)
      (Eval.loop n (env + d.scopes) c body (last.map (Value.relocate d)) k)
  | 0, _ => by simp only [Eval.loop]; exact Simulates.fail _
  | k + 1, last => by
    simp only [Eval.loop]
    refine Simulates.bind (h.test env c) fun b => ?_
    cases b with
    | false => exact Simulates.pure (Completion.normal last)
    | true =>
      refine Simulates.bind (h.stmt env body) fun r => ?_
      cases r with
      | returned v => exact Simulates.pure (Completion.returned v)
      | normal v => exact h.loop env c body k v

/-- What a name is bound to, read from the moved scope. -/
theorem read_relocates (env : Nat) (name : Text) (miss : Fault) :
    Relocates d (Value.relocate d)
      (lookup env name >>= fun o => match o with
        | some v => Pure.pure v
        | none => Eval.fail miss)
      (lookup (env + d.scopes) name >>= fun o => match o with
        | some v => Pure.pure v
        | none => Eval.fail miss) := by
  refine Simulates.bind (lookup_relocates env name) fun o => ?_
  cases o with
  | some v => exact Simulates.pure v
  | none => exact Simulates.fail _

theorem expr_succ (h : AllRelocate d n) (env : Nat) :
    ∀ e, Relocates d (Value.relocate d) (Eval.expr (n + 1) env e)
      (Eval.expr (n + 1) (env + d.scopes) e) := by
  intro e
  cases e with
  | literal s =>
    simp only [Eval.expr]
    cases s <;> exact Simulates.pure _
  | var x =>
    simp only [Eval.expr]
    exact read_relocates env _ _
  | group x =>
    simp only [Eval.expr]
    exact h.expr env x
  | assign x v =>
    simp only [Eval.expr]
    exact Simulates.bind (h.expr env v) fun val =>
      Simulates.bind (modifyStore_relocates fun _ _ hs => hs.assign env x.display val) fun _ =>
        Simulates.pure val
  | binary op lx l r =>
    simp only [Eval.expr]
    refine Simulates.bind (h.expr env l) fun a => Simulates.bind (h.expr env r) fun b => ?_
    rw [BinOp.apply_relocate]
    exact Simulates.lift _
  | logical op lx l r =>
    simp only [Eval.expr]
    refine Simulates.bind (h.expr env l) fun a => Simulates.bind (h.expr env r) fun b => ?_
    rw [LogicOp.apply_relocate]
    exact Simulates.lift _
  | unary op lx x =>
    simp only [Eval.expr]
    refine Simulates.bind (h.expr env x) fun a => ?_
    rw [UnaryOp.apply_relocate]
    exact Simulates.lift _
  | call c args =>
    simp only [Eval.expr]
    refine Simulates.bind (h.expr env c) fun f => ?_
    cases f with
    | fn cl => exact h.call cl args env
    | cls k =>
      -- a new instance is made at the moved number, of the moved class
      cases args.isEmpty with
      | true =>
        exact Simulates.bind (note_relocates _) fun _ =>
          Simulates.bind newObject_relocates fun r => Simulates.pure (Value.obj r k)
      | false => exact Simulates.fail _
    | _ => exact Simulates.fail _
  | getField t x =>
    simp only [Eval.expr]
    refine Simulates.bind (h.expr env t) fun v => ?_
    cases v with
    | obj r k =>
      -- the instance's fields are read at the moved number, and its methods from the moved
      -- class
      refine Simulates.get_bind fun m m' hm => ?_
      rw [hm.store.fields r, Bindings.get?_relocate]
      cases (m.store.fields r).get? x.display with
      | some fv => exact Simulates.pure fv m m' hm
      | none =>
        simp only [Option.map_none, ClassDef.relocate, Closure.lookup_relocateTable]
        cases k.methods.lookup x.display with
        | some c => exact bindMethod_relocates c (.obj r k) m m' hm
        | none => exact Simulates.fail _ m m' hm
    | _ => exact Simulates.fail _
  | setField t x e =>
    simp only [Eval.expr]
    refine Simulates.bind (h.expr env t) fun v => ?_
    cases v with
    | obj r k =>
      exact Simulates.bind (h.expr env e) fun val =>
        Simulates.bind (modifyStore_relocates fun _ _ hs => hs.setField r x.display val)
          fun _ => Simulates.pure val
    | _ => exact Simulates.fail _
  | thisRef =>
    simp only [Eval.expr]
    exact read_relocates env _ _

theorem call_succ (h : AllRelocate d n) (cl : Closure) (args : List Expr) (env : Nat) :
    Relocates d (Value.relocate d) (Eval.call (n + 1) cl args env)
      (Eval.call (n + 1) (cl.relocate d) args (env + d.scopes)) := by
  rw [call_succ_eq, call_succ_eq, show (cl.relocate d).decl = cl.decl from rfl]
  by_cases harity : args.length ≠ cl.decl.params.length
  · rw [if_pos harity, if_pos harity]
    exact Simulates.fail _
  · rw [if_neg harity, if_neg harity]
    exact Simulates.bind (h.arguments env args) fun vals => enter_relocates h.stmt cl vals

theorem stmt_succ (h : AllRelocate d n) (env : Nat) :
    ∀ s, Relocates d (Completion.relocate d) (Eval.stmt (n + 1) env s)
      (Eval.stmt (n + 1) (env + d.scopes) s) := by
  intro s
  cases s with
  | expr e =>
    simp only [Eval.stmt]
    exact Simulates.bind (h.expr env e) fun v => Simulates.pure (Completion.normal (some v))
  | letDecl x init =>
    have hbind : ∀ v : Value, Relocates d (Completion.relocate d) (do
        modifyStore (·.define env x.display v)
        note (.bind x.display v)
        Pure.pure (Completion.normal (some v)) : Eval Completion) (do
        modifyStore (·.define (env + d.scopes) x.display (v.relocate d))
        note (.bind x.display (v.relocate d))
        Pure.pure (Completion.normal (some (v.relocate d))) : Eval Completion) := fun v =>
      Simulates.bind (modifyStore_relocates fun _ _ hs => hs.define env x.display v) fun _ =>
        Simulates.bind (note_relocates (.bind x.display v)) fun _ =>
          Simulates.pure (Completion.normal (some v))
    cases init with
    | some e =>
      simp only [Eval.stmt]
      exact Simulates.bind (h.expr env e) hbind
    | none =>
      simp only [Eval.stmt]
      exact Simulates.bind (Simulates.pure Value.nil) hbind
  | block ss =>
    simp only [Eval.stmt]
    exact Simulates.bind (newScope_relocates env) fun scope => h.block scope ss
  | funDecl f =>
    simp only [Eval.stmt]
    exact Simulates.bind (declare_relocates env f) fun c =>
      Simulates.pure (Completion.normal (some (.fn c)))
  | classDecl x ms =>
    simp only [Eval.stmt]
    exact Simulates.bind (declareClass_relocates env _ ms) fun k =>
      Simulates.pure (Completion.normal (some (.cls k)))
  | ifElse c yes no =>
    cases no with
    | some t =>
      simp only [Eval.stmt]
      refine Simulates.bind (h.test env c) fun b =>
        Simulates.bind (note_relocates (.condition b)) fun _ => ?_
      cases b with
      | true => exact h.stmt env yes
      | false => exact h.stmt env t
    | none =>
      simp only [Eval.stmt]
      refine Simulates.bind (h.test env c) fun b =>
        Simulates.bind (note_relocates (.condition b)) fun _ => ?_
      cases b with
      | true => exact h.stmt env yes
      | false => exact Simulates.pure (Completion.normal none)
  | whileLoop c body =>
    simp only [Eval.stmt]
    exact h.loop env c body loopLimit none
  | ret v =>
    cases v with
    | some e =>
      simp only [Eval.stmt]
      exact Simulates.bind (h.expr env e) fun val => Simulates.pure (Completion.returned val)
    | none =>
      simp only [Eval.stmt]
      exact Simulates.bind (Simulates.pure Value.nil) fun val => Simulates.pure (Completion.returned val)
  | print args =>
    simp only [Eval.stmt]
    exact Simulates.bind (h.print env args) fun _ => Simulates.pure (Completion.normal none)

theorem succ (h : AllRelocate d n) : AllRelocate d (n + 1) where
  expr env := h.expr_succ env
  arguments env args := by simp only [Eval.arguments]; exact h.exprs env args
  call cl args env := h.call_succ cl args env
  test env c := by
    simp only [Eval.test]
    refine Simulates.bind (h.expr env c) fun v => ?_
    cases v with
    | bool b => exact Simulates.pure b
    | _ => exact Simulates.fail _
  block env ss := by simp only [Eval.block]; exact h.stmts env ss none
  print env args := by
    simp only [Eval.print]
    exact Simulates.bind (h.arguments env args) fun vals => printValues_relocates vals
  stmt env := h.stmt_succ env

end AllRelocate

/-- Whatever frames are left, the evaluator runs on a moved store as on the store itself.
The induction is on the frames left. -/
theorem allRelocate (d : Relocation) : ∀ n, AllRelocate d n
  | 0 => AllRelocate.zero
  | n + 1 => (allRelocate d n).succ

end Eval

/-! ### Runs and answers on a moved store -/

/-- Two results that fail with the same failure, or that both go through with values related
by `R`. -/
def Except.Corresponds {ε α β : Type} (R : α → β → Prop) : Except ε α → Except ε β → Prop
  | .ok a, .ok b => R a b
  | .error e, .error e' => e = e'
  | _, _ => False

/-- Continuations that give corresponding results on related values give corresponding
results after corresponding results. -/
theorem Except.Corresponds.bind {ε α β γ δ : Type} {R : α → β → Prop} {S : γ → δ → Prop}
    {x : Except ε α} {y : Except ε β} (h : Except.Corresponds R x y)
    {f : α → Except ε γ} {g : β → Except ε δ}
    (hfg : ∀ a b, R a b → Except.Corresponds S (f a) (g b)) :
    Except.Corresponds S (x >>= f) (y >>= g) := by
  cases x with
  | error e =>
    cases y with
    | error e' => exact h
    | ok b => exact h.elim
  | ok a =>
    cases y with
    | error e' => exact h.elim
    | ok b => exact hfg a b h

/-- Continuations that give the same result on related values give the same result after
corresponding results. -/
theorem Except.Corresponds.bind_eq {ε α β γ : Type} {R : α → β → Prop} {x : Except ε α}
    {y : Except ε β} (h : Except.Corresponds R x y) {f : α → Except ε γ} {g : β → Except ε γ}
    (hfg : ∀ a b, R a b → f a = g b) : x >>= f = y >>= g := by
  cases x with
  | error e =>
    cases y with
    | error e' => cases h; rfl
    | ok b => exact h.elim
  | ok a =>
    cases y with
    | error e' => exact h.elim
    | ok b => exact hfg a b h

theorem Machine.Relocated.clearOutput {d : Relocation} {m t : Machine}
    (h : Machine.Relocated d m t) : Machine.Relocated d m.clearOutput t.clearOutput :=
  ⟨h.store, rfl, Array.map_empty.symm, h.level, h.traceFile, h.global⟩

namespace Program

variable {d : Relocation}

/-- Top-level statements run from a moved global scope on a moved machine as from the scope
itself, a fault being caught and noted alike. -/
theorem runStmts_relocates (env : Nat) :
    ∀ (ss : List Stmt) (last : Option Value),
      Eval.Relocates d (Outcome.relocate d) (runStmts env ss last)
        (runStmts (env + d.scopes) ss (last.map (Value.relocate d)))
  | [], last => by simp only [runStmts]; exact Eval.Simulates.pure (Outcome.done last)
  | s :: ss, _ => by
    simp only [runStmts]
    have hs : Eval.Relocates d (Sum.map id (Completion.relocate d))
        (Sum.inr <$> Eval.stmt nestingLimit env s : Eval (Sum Fault Completion))
        (Sum.inr <$> Eval.stmt nestingLimit (env + d.scopes) s) :=
      Eval.Simulates.map ((Eval.allRelocate d nestingLimit).stmt env s) fun _ => rfl
    refine Eval.Simulates.bind (Eval.Simulates.tryCatch hs fun e => ?_) fun r => ?_
    · cases e with
      | fault f => exact Eval.Simulates.pure (Sum.inl f)
      | crash c => exact Eval.Simulates.throw _
    · cases r with
      | inl f =>
        -- the fault is noted alike, unless it is one of nesting too deep, and ends both runs
        simp only [Sum.map_inl, id_eq]
        split
        · exact Eval.Simulates.bind (Eval.note_relocates (.error f)) fun _ =>
            Eval.Simulates.pure (Outcome.failed f)
        · exact Eval.Simulates.pure (Outcome.failed f)
      | inr c =>
        cases c with
        | returned v => exact Eval.Simulates.pure (Outcome.done (some v))
        | normal v => exact runStmts_relocates env ss v

/-- A program runs from a moved global scope on a moved machine as from the scope itself: with
the same crash, or with the moved outcome on a moved machine. -/
theorem runIn_relocated (p : Program) (env : Nat) {m t : Machine}
    (h : Machine.Relocated d m t) :
    Except.Corresponds (fun a b => b.1 = a.1.relocate d ∧ Machine.Relocated d a.2 b.2)
      (p.runIn env m) (p.runIn (env + d.scopes) t) := by
  have hr : Eval.EndsMapped (Machine.Relocated d) (Outcome.relocate d)
      ((runStmts env p.body none).run m) ((runStmts (env + d.scopes) p.body none).run t) :=
    runStmts_relocates env p.body none m t h
  unfold Program.runIn
  rcases hr.cases with ⟨o, m', t', hm, ht, hrel⟩ | ⟨e, m', t', hm, ht, hrel⟩
  · rw [hm, ht]
    exact ⟨rfl, hrel⟩
  · rw [hm, ht]
    -- a crash passes on alike, a fault is the outcome on both machines
    cases e with
    | crash c => rfl
    | fault f => exact ⟨rfl, hrel⟩

end Program

namespace Repl

variable {d : Relocation}

/-- A reply without trace events is its own move. -/
theorem relocate_untraced (out err : Text) : Reply.relocate d ⟨out, err, #[]⟩ = ⟨out, err, #[]⟩ := by
  simp only [Reply.relocate, Array.map_empty]

/-- A line is answered alike on a machine and on a moved one, printed text and trace aside:
with the same crash, or with the reply's trace moved, on machines that again agree so. A reset
makes the new global scope at the moved number. -/
theorem answer_relocated (line : Text) {m t : Machine}
    (h : Machine.Relocated d m.clearOutput t.clearOutput) :
    Except.Corresponds
      (fun a b => b.1 = a.1.relocate d ∧ Machine.Relocated d a.2.clearOutput b.2.clearOutput)
      (answer m line) (answer t line) := by
  by_cases hb : (Shell.trim line).isEmpty = true
  · simp only [answer, hb, ↓reduceIte]
    exact ⟨(relocate_untraced _ _).symm, h⟩
  by_cases hr : Shell.trim line = "/reset"
  · simp only [answer, hr, ↓reduceIte]
    exact ⟨(relocate_untraced _ _).symm, h.store.newFrame none, rfl, Array.map_empty.symm, h.level,
      h.traceFile, h.store.frames_size⟩
  · simp only [answer, hb, hr, ↓reduceIte, Bool.false_eq_true]
    cases Program.ofSource? line with
    | error f =>
      dsimp only
      cases f.crash? with
      | some c => exact rfl
      | none => exact ⟨(relocate_untraced _ _).symm, h⟩
    | ok p =>
      -- the line runs from the moved global scope
      have hrun := p.runIn_relocated m.global h
      have hg : m.global + d.scopes = t.global := h.global.symm
      rw [hg] at hrun
      dsimp only
      refine Except.Corresponds.bind hrun fun a b ⟨ho, hab⟩ => ?_
      obtain ⟨o, m'⟩ := a
      obtain ⟨o', t'⟩ := b
      dsimp only at ho hab
      subst ho
      refine ⟨?_, hab.clearOutput⟩
      rcases o with (_ | v) | f
      · show (⟨t'.out.toList, [], t'.trace⟩ : Reply) = ⟨m'.out.toList, [], _⟩
        rw [hab.out, hab.trace]
      · show (⟨t'.out.toList ++ (v.relocate d).inspect ++ "\n", [], t'.trace⟩ : Reply) =
          ⟨m'.out.toList ++ v.inspect ++ "\n", [], _⟩
        rw [hab.out, hab.trace, Value.inspect_relocate]
      · show (⟨t'.out.toList, "Error: " ++ f.inspect ++ "\n", t'.trace⟩ : Reply) =
          ⟨m'.out.toList, "Error: " ++ f.inspect ++ "\n", _⟩
        rw [hab.out, hab.trace]

/-- Lines are answered alike on a machine and on a moved one, printed text and trace aside:
with the same crash, or with each reply's trace moved. The induction is on the lines. -/
theorem answerAll_relocated :
    ∀ (ls : List Text) {m t : Machine}, Machine.Relocated d m.clearOutput t.clearOutput →
      Except.Corresponds
        (fun a b => b.1 = a.1.map (Reply.relocate d) ∧
          Machine.Relocated d a.2.clearOutput b.2.clearOutput)
        (answerAll m ls) (answerAll t ls)
  | [], _, _, h => ⟨rfl, h⟩
  | l :: ls, m, t, h => by
    rw [answerAll, answerAll]
    refine Except.Corresponds.bind (answer_relocated l h) fun a b ⟨hr, hab⟩ => ?_
    refine Except.Corresponds.bind (answerAll_relocated ls hab) fun as bs ⟨hrs, habs⟩ => ?_
    exact ⟨by rw [hr, hrs]; rfl, habs⟩

end Repl

end Ember
