import Ember.Proofs.Scopes
/-!
What a write to the store changes.

Scopes form a forest: each scope is nested in at most one scope made before it, and many
scopes may be nested in one, since closures, bound methods, classes and nested blocks all keep
the scope they were made in. The chain of a scope (`Store.chain`) runs from it through the
scopes it is nested in out to a root, and a name is found from a scope in the first scope of
its chain that binds it (`Store.holder?_eq_find?`).

A write of one binding (`Store.WritesOne`) leaves every other binding, every parent and every
instance as it was. What each scope sees afterwards follows from the chains alone
(`Store.lookup_define`): the name written is seen with its new value exactly from the scopes
whose chain reaches the written scope before any other scope that binds the name, and
everything else is seen as before.

Main statement: `Store.assign_define_frame`. An assignment from a scope writes one binding,
in the first scope of its chain that binds the name or in the scope itself when none does,
and the scope then sees the new value; a declaration writes the scope's own binding and
changes nothing seen from a scope whose chain reaches a binding of the name first.
-/

namespace Ember

namespace Bindings

theorem contains_set (bs : Bindings) (name m : Text) (v : Value) :
    (bs.set name v).contains m = (decide (m = name) || bs.contains m) := by
  apply Bool.eq_iff_iff.2
  simp only [Bool.or_eq_true, decide_eq_true_eq, contains_eq]
  by_cases hc : bs.contains name = true
  · -- rebinding in place keeps the names, `name` among them
    rw [names_set_of_contains hc]
    rw [contains_eq, decide_eq_true_eq] at hc
    constructor
    · exact .inr
    · rintro (rfl | h) <;> assumption
  · simp only [set, hc, Bool.false_eq_true, if_false, names, List.map_append, List.mem_append,
      List.map_cons, List.map_nil, List.mem_singleton]
    exact or_comm

theorem get?_cons (b : Text × Value) (bs : Bindings) (m : Text) :
    get? (b :: bs) m = if b.1 = m then some b.2 else bs.get? m := by
  by_cases h : b.1 = m <;> simp [get?, h]

theorem contains_cons (b : Text × Value) (bs : Bindings) (m : Text) :
    contains (b :: bs) m = (decide (b.1 = m) || bs.contains m) := by
  simp [contains]

/-- Rewriting every binding of `name` in place. -/
theorem get?_rebind (bs : Bindings) (name m : Text) (v : Value) :
    get? (bs.map fun b => if b.1 = name then (name, v) else b) m =
      if m = name ∧ bs.contains name = true then some v else bs.get? m := by
  induction bs with
  | nil => simp [get?, contains]
  | cons b bs ih =>
    rw [List.map_cons, get?_cons, get?_cons, ih, contains_cons]
    by_cases hb : b.1 = name
    · by_cases hm : m = name
      · simp [hb, hm]
      · simp [hb, hm, Ne.symm hm]
    · by_cases hbm : b.1 = m
      · have hm : m ≠ name := fun h => hb (hbm.trans h)
        simp [hbm, hm]
      · simp [hb, hbm]

theorem get?_set (bs : Bindings) (name m : Text) (v : Value) :
    (bs.set name v).get? m = if m = name then some v else bs.get? m := by
  unfold set
  split
  · rename_i hc
    rw [get?_rebind]
    simp [hc]
  · rename_i hc
    induction bs with
    | nil =>
      by_cases hm : m = name
      · simp [get?, hm]
      · simp [get?, hm, Ne.symm hm]
    | cons b bs ih =>
      rw [contains_cons] at hc
      simp only [Bool.or_eq_true, decide_eq_true_eq, not_or] at hc
      rw [List.cons_append, get?_cons, get?_cons, ih (by simpa using hc.2)]
      by_cases hm : m = name
      · subst hm
        simp [hc.1]
      · simp [hm]

end Bindings

namespace Store

/-- Whether scope `i` itself binds `name`. -/
def binds (s : Store) (name : Text) (i : Nat) : Bool :=
  (s.vars i).contains name

/-- The chain of scope `i`: the scope itself and the scopes it is nested in, out to a root;
empty for a scope that does not exist. -/
def chain (s : Store) (i : Nat) : List Nat :=
  match s.frames[i]? with
  | none => []
  | some f =>
    match f.parent with
    | some p => if p < i then i :: s.chain p else [i]
    | none => [i]
termination_by i

/-- A name is found from a scope in the first scope of its chain that binds it. -/
theorem holder?_eq_find? (s : Store) (name : Text) (i : Nat) :
    s.holder? name i = (s.chain i).find? (s.binds name) := by
  induction i using Nat.strongRecOn with
  | ind i ih =>
  rw [holder?, chain]
  cases hs : s.frames[i]? with
  | none => rfl
  | some f =>
    have hb : s.binds name i = f.vars.contains name := by simp only [binds, vars, hs]
    dsimp only
    cases hp : f.parent with
    | none =>
      by_cases hc : f.vars.contains name = true <;> simp [hc, hb]
    | some p =>
      by_cases hpi : p < i
      · by_cases hc : f.vars.contains name = true
        · simp [hc, hb, hpi]
        · simp [hc, hb, hpi, ih p hpi]
      · by_cases hc : f.vars.contains name = true <;> simp [hc, hb, hpi]

/-- Every scope of a chain exists. -/
theorem lt_of_mem_chain {s : Store} {i k : Nat} (h : k ∈ s.chain i) : k < s.frames.size := by
  induction i using Nat.strongRecOn with
  | ind i ih =>
  rw [chain] at h
  cases hs : s.frames[i]? with
  | none => simp [hs] at h
  | some f =>
    have hi : i < s.frames.size := (Array.getElem?_eq_some_iff.1 hs).1
    simp only [hs] at h
    split at h
    · split at h
      · rcases List.mem_cons.1 h with rfl | h
        · exact hi
        · exact ih _ ‹_› h
      · rw [List.mem_singleton.1 h]
        exact hi
    · rw [List.mem_singleton.1 h]
      exact hi

/-- A scope that exists starts its own chain. -/
theorem chain_of_lt {s : Store} {i : Nat} (hi : i < s.frames.size) :
    ∃ rest, s.chain i = i :: rest := by
  rw [chain]
  obtain ⟨f, hf⟩ : ∃ f, s.frames[i]? = some f := ⟨_, Array.getElem?_eq_getElem hi⟩
  simp only [hf]
  split
  · split
    · exact ⟨_, rfl⟩
    · exact ⟨[], rfl⟩
  · exact ⟨[], rfl⟩

/-- Stores whose scopes exist alike and have the same parents have the same chains. -/
theorem chain_eq_of_parents {s s' : Store}
    (h : ∀ k : Nat, s'.frames[k]?.map Frame.parent = s.frames[k]?.map Frame.parent) (i : Nat) :
    s'.chain i = s.chain i := by
  induction i using Nat.strongRecOn with
  | ind i ih =>
  rw [chain, chain]
  have hi := h i
  cases hs : s.frames[i]? with
  | none =>
    rw [hs, Option.map_none, Option.map_eq_none_iff] at hi
    rw [hi]
  | some f =>
    rw [hs, Option.map_some] at hi
    obtain ⟨f', hs', hf⟩ := Option.map_eq_some_iff.1 hi
    simp only [hs', hf]
    split
    · split
      · rw [ih _ ‹_›]
      · rfl
    · rfl

theorem frames_define (s : Store) (j : Nat) (name : Text) (v : Value) (k : Nat) :
    (s.define j name v).frames[k]? =
      s.frames[k]?.map fun f => if k = j then ⟨f.parent, f.vars.set name v⟩ else f := by
  cases s
  simp only [define, Array.getElem?_modify]
  by_cases hk : k = j
  · subst hk
    simp only [if_true]
  · simp [Ne.symm hk, hk]

/-- Writing a binding keeps the chains. -/
theorem chain_define (s : Store) (j : Nat) (name : Text) (v : Value) (i : Nat) :
    (s.define j name v).chain i = s.chain i := by
  refine chain_eq_of_parents (fun k => ?_) i
  rw [frames_define, Option.map_map]
  congr 1
  funext f
  by_cases hk : k = j <;> simp [hk]

theorem vars_define_self {s : Store} {j : Nat} (hj : j < s.frames.size) (name : Text)
    (v : Value) : (s.define j name v).vars j = (s.vars j).set name v := by
  obtain ⟨f, hf⟩ : ∃ f, s.frames[j]? = some f := ⟨_, Array.getElem?_eq_getElem hj⟩
  simp only [vars, frames_define, hf, Option.map_some, if_true]

theorem vars_define_ne {s : Store} {j k : Nat} (name : Text) (v : Value) (hk : k ≠ j) :
    (s.define j name v).vars k = s.vars k := by
  simp only [vars, frame_define_ne name v hk]

/-- After a write of `name` in scope `j`, a scope binds a name when it bound it before, or it
is `j` and the name is `name`. -/
theorem binds_define {s : Store} {j : Nat} (hj : j < s.frames.size) (name m : Text)
    (v : Value) (k : Nat) :
    (s.define j name v).binds m k = (decide (k = j ∧ m = name) || s.binds m k) := by
  unfold binds
  by_cases hk : k = j
  · subst hk
    rw [vars_define_self hj, Bindings.contains_set]
    simp
  · rw [vars_define_ne name v hk]
    simp [hk]

theorem get?_define {s : Store} {j : Nat} (hj : j < s.frames.size) (name m : Text)
    (v : Value) (k : Nat) :
    ((s.define j name v).vars k).get? m =
      if k = j ∧ m = name then some v else (s.vars k).get? m := by
  by_cases hk : k = j
  · subst hk
    rw [vars_define_self hj, Bindings.get?_set]
    by_cases hm : m = name <;> simp [hm]
  · rw [vars_define_ne name v hk]
    simp [hk]

theorem parent?_define (s : Store) (j : Nat) (name : Text) (v : Value) (k : Nat) :
    (s.define j name v).parent? k = s.parent? k := by
  simp only [parent?, frames_define]
  cases s.frames[k]? with
  | none => rfl
  | some f => by_cases hk : k = j <;> simp [hk]

theorem objects_define (s : Store) (j : Nat) (name : Text) (v : Value) :
    (s.define j name v).objects = s.objects := by
  cases s
  rfl

/-! ### Finding the first scope that binds a name -/

section Find

variable {l : List Nat} {p : Nat → Bool} {j k : Nat}

/-- Where a search finds a scope other than `j`, making `j` pass the test changes nothing. -/
theorem find?_or_eq_of_ne (h : l.find? (fun x => decide (x = j) || p x) ≠ some j) :
    l.find? (fun x => decide (x = j) || p x) = l.find? p := by
  induction l with
  | nil => rfl
  | cons x l ih =>
    by_cases hx : x = j
    · subst hx
      simp at h
    · by_cases hp : p x = true
      · simp [hx, hp]
      · simp only [List.find?_cons, hx, decide_false, Bool.false_or, hp] at h ⊢
        exact ih h

/-- The first scope that passes a test still comes first once it passes another way too. -/
theorem find?_or_eq_self (h : l.find? p = some j) :
    l.find? (fun x => decide (x = j) || p x) = some j := by
  induction l with
  | nil => cases h
  | cons x l ih =>
    by_cases hp : p x = true
    · rw [List.find?_cons_of_pos hp] at h
      cases h
      simp
    · rw [List.find?_cons_of_neg hp] at h
      have hx : x ≠ j := fun hxj => hp (hxj ▸ List.find?_some h)
      simp only [List.find?_cons, hx, decide_false, Bool.false_or, hp]
      exact ih h

/-- A search that meets a scope `k` passing the test, with `j` not met up to it, does not find
`j`. -/
theorem find?_ne_of_before {pre post : List Nat} (hq : p k = true) (hj : j ∉ k :: pre) :
    (pre ++ k :: post).find? p ≠ some j := by
  rw [List.find?_append]
  cases hpre : pre.find? p with
  | some x =>
    intro h
    cases h
    exact hj (List.mem_cons_of_mem _ (List.mem_of_find?_eq_some hpre))
  | none =>
    rw [Option.none_or, List.find?_cons_of_pos hq]
    intro h
    cases h
    exact hj List.mem_cons_self

end Find

/-! ### One binding written -/

/-- `s'` is `s` with the binding of `name` in scope `j` written as `v`: every scope keeps its
parent, every other binding is as it was, and the instances are untouched. -/
structure WritesOne (s s' : Store) (j : Nat) (name : Text) (v : Value) : Prop where
  size_eq : s'.frames.size = s.frames.size
  parent?_eq : ∀ k, s'.parent? k = s.parent? k
  get?_eq : ∀ k m, (s'.vars k).get? m = if k = j ∧ m = name then some v else (s.vars k).get? m
  objects_eq : s'.objects = s.objects

theorem writesOne_define {s : Store} {j : Nat} (hj : j < s.frames.size) (name : Text)
    (v : Value) : WritesOne s (s.define j name v) j name v :=
  ⟨size_define s j name v, parent?_define s j name v, fun k m => get?_define hj name m v k,
    objects_define s j name v⟩

/-- Seen from any scope after a write of `name` in scope `j`: the new value where the chain
reaches `j` before any other scope binding `name`, and what was seen before otherwise. -/
theorem lookup_define {s : Store} {j : Nat} (hj : j < s.frames.size) (name : Text) (v : Value)
    (F : Nat) (m : Text) :
    (s.define j name v).lookup F m =
      if m = name ∧ (s.define j name v).holder? name F = some j then some v
      else s.lookup F m := by
  have hbinds := binds_define hj name m v
  simp only [lookup, holder?_eq_find?, chain_define]
  by_cases hm : m = name
  · subst hm
    have hp : (s.define j m v).binds m = fun k => decide (k = j) || s.binds m k := by
      funext k
      rw [hbinds k]
      simp
    rw [hp]
    by_cases hfound : (s.chain F).find? (fun k => decide (k = j) || s.binds m k) = some j
    · rw [hfound, if_pos ⟨rfl, rfl⟩, Option.bind_some, get?_define hj]
      simp
    · -- the search finds what it found before, a scope other than `j`
      rw [if_neg (fun h => hfound h.2), find?_or_eq_of_ne hfound]
      cases hk : (s.chain F).find? (s.binds m) with
      | none => rfl
      | some k =>
        have hkj : k ≠ j := fun hkj => hfound (by rw [find?_or_eq_of_ne hfound, hk, hkj])
        simp [get?_define hj, hkj]
  · -- another name: nothing it is bound to changes
    have hp : (s.define j name v).binds m = s.binds m := by
      funext k
      rw [hbinds k]
      simp [hm]
    rw [hp, if_neg (fun h => hm h.1)]
    cases (s.chain F).find? (s.binds m) with
    | none => rfl
    | some k => simp [get?_define hj, hm]

/-- An assignment writes the binding of the first scope of the chain that binds the name, or
binds it in the scope itself when none does. -/
theorem assign_eq_define (s : Store) (i : Nat) (name : Text) (v : Value) :
    s.assign i name v = s.define (((s.chain i).find? (s.binds name)).getD i) name v := by
  rw [assign, holder?_eq_find?]

theorem assign_target_lt {s : Store} {i : Nat} (hi : i < s.frames.size) (name : Text) :
    ((s.chain i).find? (s.binds name)).getD i < s.frames.size := by
  cases hk : (s.chain i).find? (s.binds name) with
  | none => exact hi
  | some k => exact lt_of_mem_chain (List.mem_of_find?_eq_some hk)

/-- After an assignment, the first scope of the chain that binds the name is the one written. -/
theorem find?_assign_self {s : Store} {i : Nat} (hi : i < s.frames.size) (name : Text)
    (v : Value) :
    ((s.assign i name v).chain i).find? ((s.assign i name v).binds name) =
      some (((s.chain i).find? (s.binds name)).getD i) := by
  have hbinds := binds_define (assign_target_lt hi name) name name v
  rw [assign_eq_define, chain_define]
  have hp : (s.define (((s.chain i).find? (s.binds name)).getD i) name v).binds name =
      fun k => decide (k = ((s.chain i).find? (s.binds name)).getD i) || s.binds name k := by
    funext k
    rw [hbinds k]
    simp
  rw [hp]
  cases hk : (s.chain i).find? (s.binds name) with
  | some k => exact find?_or_eq_self hk
  | none =>
    -- no scope binds the name, so the scope itself, first in its chain, now does
    obtain ⟨rest, hrest⟩ := chain_of_lt hi
    simp [hrest]

/-- Scope store frame law. An assignment from scope `E` writes exactly one binding, in the
first scope of `E`'s chain that binds the name, or in `E` itself when none does; `E` then sees
the new value, and any scope `F` sees a change only of that name, and only where the written
scope is the first of `F`'s chain to bind it. A declaration in `E` writes only `E`'s own
binding and changes nothing seen from a scope whose chain reaches a binding of the name
before `E`. -/
theorem assign_define_frame (s : Store) (E : Fin s.frames.size) (n : Text) (v : Value) :
    ((s.assign E n v).lookup E n = some v ∧
      WritesOne s (s.assign E n v) (((s.chain E).find? (s.binds n)).getD E) n v ∧
      ∀ F m, (s.assign E n v).lookup F m =
        if m = n ∧ ((s.assign E n v).chain F).find? ((s.assign E n v).binds n) =
          some (((s.chain E).find? (s.binds n)).getD E)
        then some v else s.lookup F m) ∧
    (WritesOne s (s.define E n v) E n v ∧
      ∀ F, (∃ pre k post, s.chain F = pre ++ k :: post ∧ s.binds n k = true ∧
          (E : Nat) ∉ k :: pre) →
        ∀ m, (s.define E n v).lookup F m = s.lookup F m) := by
  have hj := assign_target_lt E.isLt n
  refine ⟨⟨?_, ?_, fun F m => ?_⟩, writesOne_define E.isLt n v, fun F hF m => ?_⟩
  · -- the scope finds the name where it was written
    rw [lookup, holder?_eq_find?, find?_assign_self E.isLt, Option.bind_some, assign_eq_define,
      get?_define hj]
    simp
  · rw [assign_eq_define]
    exact writesOne_define hj n v
  · rw [assign_eq_define, lookup_define hj, holder?_eq_find?]
  · -- the chain of `F` meets a scope binding the name before `E`, so the search never stops
    -- at `E`
    obtain ⟨pre, k, post, hchain, hk, hE⟩ := hF
    rw [lookup_define E.isLt, holder?_eq_find?, chain_define, hchain]
    have hnot : (pre ++ k :: post).find? ((s.define E n v).binds n) ≠ some E := by
      refine find?_ne_of_before ?_ hE
      rw [binds_define E.isLt]
      simp [hk]
    rw [if_neg (fun h => hnot h.2)]

/-- From a block in the global scope, after `let x = 1;` there, an assignment to `x` writes the
global binding and nothing else, and the block then reads the new value. -/
theorem assign_from_block_writes_global :
    WritesOne ((Store.fresh.define 0 "x" (.int 1)).child 0).1
      (((Store.fresh.define 0 "x" (.int 1)).child 0).1.assign 1 "x" (.int 2)) 0 "x" (.int 2) ∧
    (((Store.fresh.define 0 "x" (.int 1)).child 0).1.assign 1 "x" (.int 2)).lookup 1 "x" =
      some (.int 2) := by
  have hframe := (assign_define_frame ((Store.fresh.define 0 "x" (.int 1)).child 0).1
    ⟨1, by decide⟩ "x" (.int 2)).1
  -- the first scope of the block's chain that binds `x` is the global scope
  have htarget : ((((Store.fresh.define 0 "x" (.int 1)).child 0).1.chain 1).find?
      (((Store.fresh.define 0 "x" (.int 1)).child 0).1.binds "x")).getD 1 = 0 := by
    decide +kernel
  rw [htarget] at hframe
  exact ⟨hframe.2.1, hframe.1⟩

end Store

end Ember
