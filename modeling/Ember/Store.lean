import Ember.Value.Basic
/-!
The store: scopes and the fields of instances.

A scope (`Frame`) holds bindings from names to values and knows the scope it is nested in.
Scopes are numbered in the order they are made, and a scope's parent is always made before
it, so that walking from a scope to its parents ends; scope `0` is the global scope of a
fresh store. A scope nested in none is a global scope: the first one, and one more at each
reset of the loop, in the same store. Closures, classes and bound methods refer to scopes by number, so a scope
lives as long as the store.

* `Store.lookup` finds the binding of a name in the nearest scope of the chain that has one;
* `Store.define` binds a name in one scope;
* `Store.assign` rebinds a name in the nearest scope of the chain that has it, and binds it
  in the scope itself when none has;
* `Store.child` makes a new scope nested in a given one, and `Store.newFrame` one nested in
  none, the global scope that a reset of the loop starts.

Instances are numbered likewise; each has its fields, created by their first write.
-/

namespace Ember

/-- Bindings of names, each name at most once, in the order of their first binding. -/
abbrev Bindings := List (Text × Value)

namespace Bindings

/-- The value bound to `name`. -/
def get? (bs : Bindings) (name : Text) : Option Value :=
  (bs.find? (·.1 = name)).map (·.2)

/-- Whether `name` is bound. -/
def contains (bs : Bindings) (name : Text) : Bool :=
  bs.any (·.1 = name)

/-- Binds `name` to `v`: in place when it is bound, at the end otherwise. -/
def set (bs : Bindings) (name : Text) (v : Value) : Bindings :=
  if bs.contains name then bs.map fun b => if b.1 = name then (name, v) else b
  else bs ++ [(name, v)]

end Bindings

/-- A scope: the scope it is nested in, if any, and its bindings. -/
structure Frame where
  parent : Option Nat
  vars : Bindings

/-- The scopes and instance fields of a running program. -/
structure Store where
  frames : Array Frame
  objects : Array Bindings

namespace Store

/-- A store with only the global scope, number `0`. -/
def fresh : Store := ⟨#[⟨none, []⟩], #[]⟩

/-- The number of the first global scope, the one a fresh store has. -/
def global : Nat := 0

/-- Makes a new scope without bindings, nested in `parent` when there is one; gives the store
and the new scope's number. -/
def newFrame (s : Store) (parent : Option Nat) : Store × Nat :=
  match s with
  | ⟨frames, objects⟩ =>
    let i := frames.size
    (⟨frames.push ⟨parent, []⟩, objects⟩, i)

/-- Makes a new scope nested in scope `p`; gives the store and the new scope's number. -/
def child (s : Store) (p : Nat) : Store × Nat :=
  s.newFrame (some p)

/-- The bindings of scope `i`, none for a scope that does not exist. -/
def vars (s : Store) (i : Nat) : Bindings :=
  match s.frames[i]? with
  | some f => f.vars
  | none => []

/-- Binds `name` to `v` in scope `i`. -/
def define (s : Store) (i : Nat) (name : Text) (v : Value) : Store :=
  match s with
  | ⟨frames, objects⟩ =>
    ⟨frames.modify i fun ⟨p, vars⟩ => ⟨p, vars.set name v⟩, objects⟩

/-- The nearest scope of the chain from scope `i` that binds `name`. -/
def holder? (s : Store) (name : Text) (i : Nat) : Option Nat :=
  match s.frames[i]? with
  | none => none
  | some f =>
    if f.vars.contains name then some i
    else match f.parent with
      | some p => if p < i then s.holder? name p else none
      | none => none
termination_by i

/-- The value of `name` seen from scope `i`: its binding in the nearest scope that has one. -/
def lookup (s : Store) (i : Nat) (name : Text) : Option Value :=
  (s.holder? name i).bind fun j => (s.vars j).get? name

/-- Rebinds `name` to `v` in the nearest scope of the chain from `i` that binds it, or binds
it in scope `i` when none does. -/
def assign (s : Store) (i : Nat) (name : Text) (v : Value) : Store :=
  s.define ((s.holder? name i).getD i) name v

/-- The scope that scope `i` is nested in, none for a global scope. -/
def parent? (s : Store) (i : Nat) : Option Nat :=
  s.frames[i]?.bind (·.parent)

/-- The number of scopes in the chain from scope `i` to its global scope, `i` included. -/
def depth (s : Store) (i : Nat) : Nat :=
  match s.frames[i]? with
  | none => 0
  | some f =>
    match f.parent with
    | some p => if p < i then s.depth p + 1 else 1
    | none => 1
termination_by i

/-- Makes a new instance without fields; gives the store and the instance's number. -/
def newObject (s : Store) : Store × Nat :=
  match s with
  | ⟨frames, objects⟩ =>
    let r := objects.size
    (⟨frames, objects.push []⟩, r)

/-- The fields of instance `r`. -/
def fields (s : Store) (r : Nat) : Bindings :=
  s.objects[r]?.getD []

/-- Writes the field `name` of instance `r`. -/
def setField (s : Store) (r : Nat) (name : Text) (v : Value) : Store :=
  match s with
  | ⟨frames, objects⟩ => ⟨frames, objects.modify r fun fs => fs.set name v⟩

end Store

end Ember
