import Ember.Eval
/-!
Properties that every run of a computation keeps.

`Eval.Holds I E Q x` says of a computation `x` on the machine that every run of it from a
machine satisfying `I` ends in a machine satisfying `I`, with a value satisfying `Q` when it
goes through and with a stop satisfying `E` when it stops. A statement of this form about a
computation is built from statements about its parts (`Holds.bind`), so a property of the
whole evaluator follows, by induction on the frames left, from one lemma per construct; the
primitives of the evaluator that only touch the store, the printed text or the trace get
their lemmas here once.
-/

namespace Ember.Eval

/-- A run's end satisfies `I` for the machine it ended in, and `Q` for its value or `E` for
its stop. -/
def Ends {α : Type} (I : Machine → Prop) (E : Stop → Prop) (Q : α → Prop) :
    EStateM.Result Stop Machine α → Prop
  | .ok a m => Q a ∧ I m
  | .error e m => E e ∧ I m

/-- Every run of `x` from a machine satisfying `I` ends in a machine satisfying `I`, with a
value satisfying `Q` or a stop satisfying `E`. -/
def Holds {α : Type} (I : Machine → Prop) (E : Stop → Prop) (Q : α → Prop) (x : Eval α) :
    Prop :=
  ∀ m, I m → Ends I E Q (x.run m)

namespace Holds

variable {α β : Type} {I : Machine → Prop} {E : Stop → Prop} {Q : α → Prop} {R : β → Prop}

theorem ok {x : Eval α} (h : Holds I E Q x) {m m' : Machine} {a : α} (hm : I m)
    (hr : x.run m = .ok a m') : Q a ∧ I m' := by
  have := h m hm
  rw [hr] at this
  exact this

theorem error {x : Eval α} (h : Holds I E Q x) {m m' : Machine} {e : Stop} (hm : I m)
    (hr : x.run m = .error e m') : E e ∧ I m' := by
  have := h m hm
  rw [hr] at this
  exact this

theorem mono {x : Eval α} {E' : Stop → Prop} {Q' : α → Prop} (h : Holds I E Q x)
    (hE : ∀ e, E e → E' e) (hQ : ∀ a, Q a → Q' a) : Holds I E' Q' x := by
  intro m hm
  have h₁ := h m hm
  cases hr : x.run m with
  | ok a m' =>
    rw [hr] at h₁
    exact ⟨hQ a h₁.1, h₁.2⟩
  | error e m' =>
    rw [hr] at h₁
    exact ⟨hE e h₁.1, h₁.2⟩

theorem pure {a : α} (h : Q a) : Holds I E Q (Pure.pure a : Eval α) :=
  fun _ hm => ⟨h, hm⟩

theorem throw {e : Stop} (h : E e) : Holds I E Q (MonadExcept.throw e : Eval α) :=
  fun _ hm => ⟨h, hm⟩

theorem fail {f : Fault} (h : E (.fault f)) : Holds I E Q (Eval.fail f : Eval α) :=
  throw h

theorem get : Holds I E I (MonadState.get : Eval Machine) :=
  fun _ hm => ⟨hm, hm⟩

theorem bind {x : Eval α} {f : α → Eval β} (hx : Holds I E Q x)
    (hf : ∀ a, Q a → Holds I E R (f a)) : Holds I E R (x >>= f) := by
  intro m hm
  have h₁ := hx m hm
  rw [EStateM.run_bind]
  cases hr : x.run m with
  | ok a m₁ =>
    -- the second part starts where the first ended, in a machine satisfying `I`
    rw [hr] at h₁
    exact hf a h₁.1 m₁ h₁.2
  | error e m₁ =>
    -- a stop in the first part ends the whole run there
    rw [hr] at h₁
    exact h₁

theorem lift {r : Except Fault α} (hf : ∀ f, E (.fault f)) (hr : ∀ a, r = .ok a → Q a) :
    Holds I E Q (Eval.lift r) := by
  cases r with
  | ok a => exact pure (hr a rfl)
  | error f => exact fail (hf f)

theorem map {x : Eval α} {f : α → β} (hx : Holds I E Q x) (hf : ∀ a, Q a → R (f a)) :
    Holds I E R (f <$> x) := by
  intro m hm
  have h₁ := hx m hm
  show Ends I E R (EStateM.map f x m)
  delta EStateM.map
  cases hr : x m with
  | ok a m' =>
    rw [EStateM.run, hr] at h₁
    exact ⟨hf a h₁.1, h₁.2⟩
  | error e m' =>
    rw [EStateM.run, hr] at h₁
    exact h₁

/-- A handler that is run on the stops of `x` that `E` allows, from the machine the stop left,
and that keeps `I`, stops only as `E'` allows. -/
theorem tryCatch {x : Eval α} {handler : Stop → Eval α} {E' : Stop → Prop}
    (hx : Holds I E Q x) (hh : ∀ e, E e → Holds I E' Q (handler e)) :
    Holds I E' Q (MonadExcept.tryCatch x handler) := by
  intro m hm
  have h₁ := hx m hm
  show Ends I E' Q (EStateM.tryCatch x handler m)
  -- unfolded without an equation lemma, which a module of its own would have to make
  delta EStateM.tryCatch
  cases hr : x m with
  | ok a m' =>
    rw [EStateM.run, hr] at h₁
    exact h₁
  | error e m' =>
    rw [EStateM.run, hr] at h₁
    exact hh e h₁.1 m' h₁.2

end Holds

/-! ### Primitives that change the machine only where they say -/

section Primitives

variable {α : Type} {I : Machine → Prop} {E : Stop → Prop}

theorem modifyStore_holds {f : Store → Store}
    (hf : ∀ m : Machine, I m → I { m with store := f m.store }) :
    Holds I E (fun _ => True) (modifyStore f) := by
  intro m hm
  exact ⟨trivial, hf m hm⟩

theorem emit_holds {t : Text} (hf : ∀ m : Machine, I m → I { m with out := m.out ++ t }) :
    Holds I E (fun _ => True) (emit t) := by
  intro m hm
  exact ⟨trivial, hf m hm⟩

theorem newScope_holds {p : Nat}
    (hf : ∀ m : Machine, I m → I { m with store := (m.store.child p).1 }) :
    Holds I E (fun _ => True) (newScope p) := by
  intro m hm
  exact ⟨trivial, hf m hm⟩

theorem newObject_holds (hf : ∀ m : Machine, I m → I { m with store := m.store.newObject.1 }) :
    Holds I E (fun _ => True) newObject := by
  intro m hm
  exact ⟨trivial, hf m hm⟩

theorem lookup_holds {env : Nat} {name : Text} {Q : Option Value → Prop}
    (hq : ∀ m : Machine, I m → Q (m.store.lookup env name)) :
    Holds I E Q (lookup env name) := by
  intro m hm
  exact ⟨hq m hm, hm⟩

/-- A trace event is kept, or refused by a trace file, which is then the run's stop. -/
theorem note_holds {e : Event}
    (hkeep : ∀ m : Machine, I m → I { m with trace := m.trace.push e })
    (hrefuse : ∀ m : Machine, I m → m.traceFile = true → ∀ r, E (.crash (.unencodable r))) :
    Holds I E (fun _ => True) (note e) := by
  unfold note
  refine Holds.bind Holds.get fun m hm => ?_
  split
  · split
    · rename_i r hr
      -- a trace file is the only writer that refuses a line
      have hfile : m.traceFile = true := by
        cases hf : m.traceFile
        · simp [hf] at hr
        · rfl
      exact Holds.throw (hrefuse m hm hfile r)
    · intro m' hm'
      exact ⟨trivial, hkeep m' hm'⟩
  · exact Holds.pure trivial

end Primitives

end Ember.Eval
