import Ember.Eval
/-!
Two computations that run alike.

`Eval.Simulates R f x y` says that runs of `x` and of `y` from machines related by `R` end
alike: both go through, with values that `f` maps the one to the other, or both stop with the
same stop, and they end in machines related by `R` again. Like `Eval.Holds` for one
computation, a statement of this form is built from statements about the parts
(`Simulates.bind`), so that a simulation of the whole evaluator follows, by induction on the
frames left, from one lemma per construct.

Two instances are used: one computation run on machines that differ in their trace level
(`Eval.Alike`, with `f` the identity), and a computation run on a store and its copy moved
into a larger store, where values name scopes and instances by moved numbers
(`Eval.Relocates`).
-/

namespace Ember.Eval

/-- Two ends of runs correspond: values that `f` maps the one to the other, or the same stop,
in machines related by `R`. -/
def EndsMapped {α β : Type} (R : Machine → Machine → Prop) (f : α → β) :
    EStateM.Result Stop Machine α → EStateM.Result Stop Machine β → Prop
  | .ok a m, .ok b m' => b = f a ∧ R m m'
  | .error e m, .error e' m' => e = e' ∧ R m m'
  | _, _ => False

/-- Runs of `x` and `y` from machines related by `R` end alike, up to `f` on their values. -/
def Simulates {α β : Type} (R : Machine → Machine → Prop) (f : α → β) (x : Eval α)
    (y : Eval β) : Prop :=
  ∀ m m', R m m' → EndsMapped R f (x.run m) (y.run m')

/-- Ends that correspond are both values, the second the first mapped by `f`, or both the
same stop, in related machines. -/
theorem EndsMapped.cases {α β : Type} {R : Machine → Machine → Prop} {f : α → β}
    {r : EStateM.Result Stop Machine α} {r' : EStateM.Result Stop Machine β}
    (h : EndsMapped R f r r') :
    (∃ a m m', r = .ok a m ∧ r' = .ok (f a) m' ∧ R m m') ∨
      (∃ e m m', r = .error e m ∧ r' = .error e m' ∧ R m m') := by
  cases r with
  | ok a m =>
    cases r' with
    | ok b m' =>
      obtain ⟨rfl, hm⟩ := h
      exact .inl ⟨a, m, m', rfl, rfl, hm⟩
    | error e' m' => exact h.elim
  | error e m =>
    cases r' with
    | ok b m' => exact h.elim
    | error e' m' =>
      obtain ⟨rfl, hm⟩ := h
      exact .inr ⟨e, m, m', rfl, rfl, hm⟩

namespace Simulates

variable {α β γ δ : Type} {R : Machine → Machine → Prop} {f : α → β}

theorem pure (a : α) : Simulates R f (Pure.pure a : Eval α) (Pure.pure (f a)) :=
  fun _ _ hm => ⟨rfl, hm⟩

theorem throw (e : Stop) :
    Simulates R f (MonadExcept.throw e : Eval α) (MonadExcept.throw e : Eval β) :=
  fun _ _ hm => ⟨rfl, hm⟩

theorem fail (e : Fault) : Simulates R f (Eval.fail e : Eval α) (Eval.fail e : Eval β) :=
  throw _

theorem lift (r : Except Fault α) : Simulates R f (Eval.lift r) (Eval.lift (r.map f)) := by
  cases r with
  | ok a => exact pure a
  | error e => exact fail e

/-- The continuations are run on values that `f` relates, from related machines. -/
theorem bind {x : Eval α} {y : Eval β} {k : α → Eval γ} {k' : β → Eval δ} {g : γ → δ}
    (hx : Simulates R f x y) (hk : ∀ a, Simulates R g (k a) (k' (f a))) :
    Simulates R g (x >>= k) (y >>= k') := by
  intro m m' hm
  rw [EStateM.run_bind, EStateM.run_bind]
  rcases (hx m m' hm).cases with ⟨a, m₁, m₁', hr, hr', h₁⟩ | ⟨e, m₁, m₁', hr, hr', h₁⟩
  · rw [hr, hr']
    exact hk a m₁ m₁' h₁
  · -- both stop, and the continuations never run
    rw [hr, hr']
    exact ⟨rfl, h₁⟩

theorem map {x : Eval α} {y : Eval β} (hx : Simulates R f x y) {g : α → γ} {g' : β → δ}
    {h : γ → δ} (hg : ∀ a, g' (f a) = h (g a)) : Simulates R h (g <$> x) (g' <$> y) := by
  intro m m' hm
  show EndsMapped R h (EStateM.map g x m) (EStateM.map g' y m')
  delta EStateM.map
  rcases (hx m m' hm).cases with ⟨a, m₁, m₁', hr, hr', h₁⟩ | ⟨e, m₁, m₁', hr, hr', h₁⟩
  · rw [show x m = _ from hr, show y m' = _ from hr']
    exact ⟨hg a, h₁⟩
  · rw [show x m = _ from hr, show y m' = _ from hr']
    exact ⟨rfl, h₁⟩

/-- Handlers run on the same stop, from the machines the stops left. -/
theorem tryCatch {x : Eval α} {y : Eval β} {handler : Stop → Eval α}
    {handler' : Stop → Eval β} (hx : Simulates R f x y)
    (hh : ∀ e, Simulates R f (handler e) (handler' e)) :
    Simulates R f (MonadExcept.tryCatch x handler) (MonadExcept.tryCatch y handler') := by
  intro m m' hm
  show EndsMapped R f (EStateM.tryCatch x handler m) (EStateM.tryCatch y handler' m')
  -- unfolded without an equation lemma, which a module of its own would have to make
  delta EStateM.tryCatch
  rcases (hx m m' hm).cases with ⟨a, m₁, m₁', hr, hr', h₁⟩ | ⟨e, m₁, m₁', hr, hr', h₁⟩
  · rw [show x m = _ from hr, show y m' = _ from hr']
    exact ⟨rfl, h₁⟩
  · rw [show x m = _ from hr, show y m' = _ from hr']
    exact hh e m₁ m₁' h₁

/-- Computations that read the machine: related machines give continuations that run
alike from them. -/
theorem get_bind {k : Machine → Eval α} {k' : Machine → Eval β}
    (hk : ∀ m m', R m m' → EndsMapped R f ((k m).run m) ((k' m').run m')) :
    Simulates R f (MonadState.get >>= k) (MonadState.get >>= k') :=
  hk

end Simulates

end Ember.Eval
