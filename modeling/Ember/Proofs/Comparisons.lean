import Ember.Value.Operators
/-!
Comparisons form a total order.

The six comparisons `< <= > >= == !=` take two integers or two texts and fail with a type
fault on anything else. Integers compare as numbers, and texts by their code points, left to
right, a proper prefix first (`Text.CodeLt`):

* `Text.compareCodes_eq_compareLex`: the comparison of texts is the library's lexicographic
  comparison of their code point numbers, so it is antisymmetric (`Text.compareCodes_swap`)
  and finds two texts equal exactly when they are (`Text.compareCodes_eq_iff`);
* `Value.order_of_comparable`: on two integers or two texts every comparison reads one
  `Ordering`, which is `lt` exactly when the first precedes the second, `eq` exactly when
  they are equal, and `gt` exactly when the second precedes the first;
* `comparisons_total_order`: so each comparison succeeds exactly on two integers or two texts,
  exactly one of `<`, `==` and `>` holds there, `<=`, `>=` and `!=` are the negations of `>`,
  `<` and `==`, and `<` is transitive.
-/

namespace Ember

/-- A character's number lies outside the surrogates. -/
theorem Char.toNat_not_surrogate (c : Char) : c.toNat < surrogateBase ∨
    surrogateBase + surrogateCount ≤ c.toNat := by
  have hv := c.valid
  simp only [UInt32.isValidChar, Nat.isValidChar] at hv
  simp only [Char.toNat, surrogateBase, surrogateCount]
  omega

/-- Every code point has its own number. -/
theorem CodePoint.val_injective : Function.Injective CodePoint.val := by
  intro a b h
  cases a with
  | char c =>
    cases b with
    | char d => exact congrArg _ (Char.toNat_inj.1 h)
    | surrogate k =>
      have := Char.toNat_not_surrogate c
      simp only [val] at h
      omega
  | surrogate k =>
    cases b with
    | char d =>
      have := Char.toNat_not_surrogate d
      simp only [val] at h
      omega
    | surrogate k' =>
      simp only [val, Nat.add_left_cancel_iff] at h
      exact congrArg _ (Fin.ext h)

namespace Text

/-- Texts in the order of their code points: compared code point by code point by number, a
proper prefix first. -/
def CodeLt (x y : Text) : Prop :=
  List.Lex (fun a b => a < b) (x.map CodePoint.val) (y.map CodePoint.val)

/-- The comparison of texts is the lexicographic comparison of their code point numbers. -/
theorem compareCodes_eq_compareLex (x y : Text) :
    compareCodes x y = List.compareLex compare (x.map CodePoint.val) (y.map CodePoint.val) := by
  induction x generalizing y with
  | nil => cases y <;> rfl
  | cons c cs ih =>
    cases y with
    | nil => rfl
    | cons d ds =>
      rw [compareCodes, List.map_cons, List.map_cons, List.compareLex_cons_cons, ← ih]
      cases compare c.val d.val <;> rfl

/-- Comparing the other way round swaps the outcome. -/
theorem compareCodes_swap (x y : Text) : (compareCodes x y).swap = compareCodes y x := by
  rw [compareCodes_eq_compareLex, compareCodes_eq_compareLex]
  exact (Std.OrientedCmp.eq_swap).symm

/-- Two texts compare equal exactly when they are equal. -/
theorem compareCodes_eq_iff {x y : Text} : compareCodes x y = .eq ↔ x = y := by
  rw [compareCodes_eq_compareLex, Std.LawfulEqCmp.compare_eq_iff_eq]
  exact List.map_inj_right fun _ _ h => CodePoint.val_injective h

/-- The lexicographic comparison of lists of numbers finds the first list smaller exactly
when it precedes the second in the lexicographic order. -/
theorem compareLex_eq_lt_iff {l₁ l₂ : List Nat} :
    List.compareLex compare l₁ l₂ = .lt ↔ List.Lex (fun a b => a < b) l₁ l₂ := by
  induction l₁ generalizing l₂ with
  | nil =>
    cases l₂ with
    | nil => simp [List.compareLex_nil_nil]
    | cons b l₂ => simp [List.compareLex_nil_cons]
  | cons a l₁ ih =>
    cases l₂ with
    | nil => simp [List.compareLex_cons_nil]
    | cons b l₂ =>
      rw [List.compareLex_cons_cons, Ordering.then_eq_lt, List.cons_lex_cons_iff,
        Nat.compare_eq_lt, Nat.compare_eq_eq, ih]

/-- A text compares smaller than another exactly when it precedes it. -/
theorem compareCodes_lt_iff {x y : Text} : compareCodes x y = .lt ↔ x.CodeLt y := by
  rw [compareCodes_eq_compareLex, compareLex_eq_lt_iff]
  rfl

theorem CodeLt.trans {x y z : Text} (h₁ : x.CodeLt y) (h₂ : y.CodeLt z) : x.CodeLt z :=
  List.lex_trans Nat.lt_trans h₁ h₂

end Text

namespace Value

/-- Two values that the comparisons order: two integers or two texts. -/
def Comparable : Value → Value → Prop
  | .int _, .int _ => True
  | .str _, .str _ => True
  | _, _ => False

/-- The order of the comparisons: integers by number, texts by their code points. -/
def Precedes : Value → Value → Prop
  | .int x, .int y => x < y
  | .str x, .str y => x.CodeLt y
  | _, _ => False

theorem Precedes.trans {a b c : Value} (h₁ : a.Precedes b) (h₂ : b.Precedes c) :
    a.Precedes c := by
  cases a <;> cases b <;> cases c <;> simp only [Precedes] at h₁ h₂ ⊢
  · exact Int.lt_trans h₁ h₂
  · exact Text.CodeLt.trans h₁ h₂

theorem Precedes.comparable {a b : Value} (h : a.Precedes b) : a.Comparable b := by
  cases a <;> cases b <;> simp only [Precedes] at h <;> trivial

end Value

namespace BinOp

variable {op : BinOp}

theorem apply_int (h : op.isComparison = true) (x y : Int) :
    op.apply (.int x) (.int y) = .ok (.bool (op.holds (compare x y))) := by
  simp [apply, h, Value.type]

theorem apply_str (h : op.isComparison = true) (x y : Text) :
    op.apply (.str x) (.str y) = .ok (.bool (op.holds (Text.compareCodes x y))) := by
  simp [apply, h, Value.type]

/-- A comparison of two values that are not two integers or two texts is a type fault: of two
types, or of a type without an order. -/
theorem apply_incomparable (op : BinOp) (h : op.isComparison = true) {a b : Value}
    (hab : ¬ a.Comparable b) :
    ∃ f, op.apply a b = .error f ∧ f.kind = "TypeError" := by
  unfold apply
  rw [if_pos h]
  by_cases ht : a.type = b.type
  · rw [if_neg (fun hne => hne ht)]
    -- values that are neither two integers nor two texts
    cases a <;> cases b <;> simp only [Value.Comparable, not_true_eq_false] at hab <;>
      exact ⟨_, rfl, rfl⟩
  · exact ⟨_, by rw [if_pos ht], rfl⟩

end BinOp

/-- Every comparison of two integers or two texts reads one outcome of comparing them, `lt`
exactly when the first precedes the second, `eq` exactly when they are equal, and `gt`
exactly when the second precedes the first. -/
theorem Value.order_of_comparable {a b : Value} (hab : a.Comparable b) :
    ∃ o : Ordering, (∀ op : BinOp, op.isComparison = true →
        op.apply a b = .ok (.bool (op.holds o))) ∧
      (o = .lt ↔ a.Precedes b) ∧ (o = .eq ↔ a = b) ∧ (o = .gt ↔ b.Precedes a) := by
  cases a <;> cases b <;> simp only [Comparable] at hab
  case int.int x y =>
    refine ⟨compare x y, fun op h => BinOp.apply_int h x y, Int.compare_eq_lt, ?_,
      Int.compare_eq_gt⟩
    rw [Int.compare_eq_eq, Value.int.injEq]
  case str.str x y =>
    refine ⟨Text.compareCodes x y, fun op h => BinOp.apply_str h x y, Text.compareCodes_lt_iff,
      ?_, ?_⟩
    · rw [Text.compareCodes_eq_iff, Value.str.injEq]
    · -- the second precedes the first exactly when comparing them the other way finds it smaller
      rw [← Text.compareCodes_swap, Ordering.swap_eq_gt]
      exact Text.compareCodes_lt_iff

/-- Comparisons form a consistent total order. Each comparison succeeds exactly on two
integers or two texts, and fails with a type fault otherwise. On such a pair exactly one of
`<`, `==` and `>` holds; `<=`, `>=` and `!=` are the negations of `>`, `<` and `==`; `==` is
equality, and `<` is the order of numbers on integers and the order of code points, left to
right and a proper prefix first, on texts. And `<` is transitive. -/
theorem comparisons_total_order (a b c : Value) :
    (∀ op : BinOp, op.isComparison = true →
      ((∃ v, op.apply a b = .ok v) ↔ a.Comparable b) ∧
      (¬ a.Comparable b → ∃ f, op.apply a b = .error f ∧ f.kind = "TypeError")) ∧
    (a.Comparable b → ∃ lt eq gt : Bool,
      BinOp.lt.apply a b = .ok (.bool lt) ∧ BinOp.eq.apply a b = .ok (.bool eq) ∧
      BinOp.gt.apply a b = .ok (.bool gt) ∧ BinOp.le.apply a b = .ok (.bool !gt) ∧
      BinOp.ge.apply a b = .ok (.bool !lt) ∧ BinOp.ne.apply a b = .ok (.bool !eq) ∧
      [lt, eq, gt].count true = 1 ∧
      (eq = true ↔ a = b) ∧ (lt = true ↔ a.Precedes b) ∧ (gt = true ↔ b.Precedes a)) ∧
    (BinOp.lt.apply a b = .ok (.bool true) → BinOp.lt.apply b c = .ok (.bool true) →
      BinOp.lt.apply a c = .ok (.bool true)) := by
  -- `<` holds exactly between values where the first precedes the second
  have hlt : ∀ a b : Value, BinOp.lt.apply a b = .ok (.bool true) ↔ a.Precedes b := by
    intro a b
    by_cases hab : a.Comparable b
    · obtain ⟨o, hops, hpre, -, -⟩ := Value.order_of_comparable hab
      rw [hops .lt rfl, ← hpre]
      cases o <;> simp [BinOp.holds]
    · obtain ⟨f, hf, -⟩ := BinOp.apply_incomparable .lt rfl hab
      rw [hf]
      exact ⟨fun h => (by cases h), fun h => absurd (Value.Precedes.comparable h) hab⟩
  refine ⟨fun op hop => ⟨⟨?_, ?_⟩, BinOp.apply_incomparable op hop⟩, fun hab => ?_, ?_⟩
  · rintro ⟨v, hv⟩
    by_cases hab : a.Comparable b
    · exact hab
    · -- otherwise the comparison fails
      obtain ⟨f, hf, -⟩ := BinOp.apply_incomparable op hop hab
      rw [hf] at hv
      cases hv
  · intro hab
    obtain ⟨o, hops, -⟩ := Value.order_of_comparable hab
    exact ⟨_, hops op hop⟩
  · obtain ⟨o, hops, hpre, heq, hsuc⟩ := Value.order_of_comparable hab
    refine ⟨BinOp.lt.holds o, BinOp.eq.holds o, BinOp.gt.holds o, hops .lt rfl, hops .eq rfl,
      hops .gt rfl, ?_, ?_, ?_, ?_, ?_, ?_, ?_⟩
    · rw [hops .le rfl]; cases o <;> rfl
    · rw [hops .ge rfl]; cases o <;> rfl
    · rw [hops .ne rfl]; cases o <;> rfl
    · cases o <;> rfl
    · rw [← heq]; cases o <;> simp [BinOp.holds]
    · rw [← hpre]; cases o <;> simp [BinOp.holds]
    · rw [← hsuc]; cases o <;> simp [BinOp.holds]
  · intro h₁ h₂
    exact (hlt a c).2 (((hlt a b).1 h₁).trans ((hlt b c).1 h₂))

/-- `<` chains from the last character of the basic plane, through a character outside it,
which sorts after every character in it, to a longer text that starts with that one. -/
theorem lt_chains_past_basic_plane :
    BinOp.lt.apply (.str [.char '￿']) (.str [.char '😀']) = .ok (.bool true) ∧
    BinOp.lt.apply (.str [.char '😀']) (.str [.char '😀', .char 'a']) = .ok (.bool true) ∧
    BinOp.lt.apply (.str [.char '￿']) (.str [.char '😀', .char 'a']) = .ok (.bool true) := by
  have h₁ : BinOp.lt.apply (.str [.char '￿']) (.str [.char '😀']) = .ok (.bool true) := rfl
  have h₂ : BinOp.lt.apply (.str [.char '😀']) (.str [.char '😀', .char 'a']) =
      .ok (.bool true) := rfl
  exact ⟨h₁, h₂, (comparisons_total_order _ _ _).2.2 h₁ h₂⟩

end Ember
