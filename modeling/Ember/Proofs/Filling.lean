import Mathlib.Data.Nat.Digits.Defs
import Ember.Template
/-!
Filling joined templates.

A template is read left to right into literal text and directives, and the directives take
the arguments in order. So a join of two templates fills as the two parts one after the
other, as long as the first part does not end inside a directive, which would swallow the
start of the second (`EndsOpen`), and takes exactly its own arguments (`argumentCount`):

* `format_append`: the join fills with the joined arguments as the first part with its
  arguments and then the second with its own: the first fault met, else the two texts one
  after the other, with left-over arguments reported for the joined template;
* `format_join`: so the join fails with a type mismatch exactly when one of the parts does,
  and otherwise writes the two texts, as long as the first part does not fail on the host;
  when it does, it hides whatever the second part would report
  (`wide_directive_hides_mismatch`).

The proofs go through the pieces: the join has the pieces of each part (`pieces_append`, up
to how literal text is cut, which `Fills` ignores), and filling pieces one list after
another is filling them in turn (`fillPieces_append`).
-/

namespace Ember

namespace Template

/-! ### Runs of flags and digits -/

section Runs

variable {p q : CodePoint → Bool}

/-- A list with a member that fails `p` has one that fails any `q` that implies `p`. -/
theorem all_eq_false_of_imp {l : Text} (h : l.all p = false)
    (hqp : ∀ x, q x = true → p x = true) : l.all q = false := by
  obtain ⟨x, hx, hpx⟩ := List.all_eq_false.1 h
  exact List.all_eq_false.2 ⟨x, hx, fun hq => hpx (hqp x (by simpa using hq))⟩

theorem takeWhile_append_of_not_all {l : Text} (h : l.all p = false) (ys : Text) :
    (l ++ ys).takeWhile p = l.takeWhile p := by
  induction l with
  | nil => cases h
  | cons y l ih =>
    by_cases hy : p y = true
    · rw [List.all_cons, hy, Bool.true_and] at h
      rw [List.cons_append, List.takeWhile_cons_of_pos hy, List.takeWhile_cons_of_pos hy, ih h]
    · rw [List.cons_append, List.takeWhile_cons_of_neg hy, List.takeWhile_cons_of_neg hy]

theorem dropWhile_append_of_not_all {l : Text} (h : l.all p = false) (ys : Text) :
    (l ++ ys).dropWhile p = l.dropWhile p ++ ys := by
  induction l with
  | nil => cases h
  | cons y l ih =>
    by_cases hy : p y = true
    · rw [List.all_cons, hy, Bool.true_and] at h
      rw [List.cons_append, List.dropWhile_cons_of_pos hy, List.dropWhile_cons_of_pos hy, ih h]
    · rw [List.cons_append, List.dropWhile_cons_of_neg hy, List.dropWhile_cons_of_neg hy,
        List.cons_append]

/-- A code point that is neither `p` nor `q` outlasts a run of `p`. -/
theorem all_dropWhile_of_not_all {l : Text} (h : l.all (fun c => p c || q c) = false) :
    (l.dropWhile p).all q = false := by
  induction l with
  | nil => cases h
  | cons y l ih =>
    by_cases hy : p y = true
    · rw [List.all_cons, hy, Bool.true_or, Bool.true_and] at h
      rw [List.dropWhile_cons_of_pos hy]
      exact ih h
    · rw [List.dropWhile_cons_of_neg hy, List.all_cons]
      rw [List.all_cons, Bool.eq_false_iff.2 hy, Bool.false_or] at h
      cases hq : q y
      · rfl
      · rw [hq, Bool.true_and] at h
        rw [Bool.true_and]
        exact all_eq_false_of_imp h fun x hx => by simp [hx]

theorem takeWhile_append_cons_stop {x : CodePoint} (hx : p x = false) (ys : Text) :
    ∀ l : Text, (l ++ x :: ys).takeWhile p = l.takeWhile p
  | [] => by rw [List.nil_append, List.takeWhile_cons_of_neg (by simp [hx])]; rfl
  | y :: l => by
    by_cases hy : p y = true
    · rw [List.cons_append, List.takeWhile_cons_of_pos hy, List.takeWhile_cons_of_pos hy,
        takeWhile_append_cons_stop hx ys l]
    · rw [List.cons_append, List.takeWhile_cons_of_neg hy, List.takeWhile_cons_of_neg hy]

theorem dropWhile_append_cons_stop {x : CodePoint} (hx : p x = false) (ys : Text) :
    ∀ l : Text, (l ++ x :: ys).dropWhile p = l.dropWhile p ++ x :: ys
  | [] => by rw [List.nil_append, List.dropWhile_cons_of_neg (by simp [hx])]; rfl
  | y :: l => by
    by_cases hy : p y = true
    · rw [List.cons_append, List.dropWhile_cons_of_pos hy, List.dropWhile_cons_of_pos hy,
        dropWhile_append_cons_stop hx ys l]
    · rw [List.cons_append, List.dropWhile_cons_of_neg hy, List.dropWhile_cons_of_neg hy,
        List.cons_append]

end Runs

/-- A directive that ends within its text reads the same whatever follows it. -/
theorem readDirective_append {cs : Text}
    (h : cs.all (fun c => c.is isFlag || c.is Text.isDecimalDigit) = false) (ys : Text) :
    readDirective (cs ++ ys) = ((readDirective cs).1, (readDirective cs).2 ++ ys) := by
  have hflags : cs.all (·.is isFlag) = false :=
    all_eq_false_of_imp h fun x hx => by simp [hx]
  have hdigits := all_dropWhile_of_not_all h
  obtain ⟨v, rest, hvr⟩ : ∃ v rest,
      (cs.dropWhile (·.is isFlag)).dropWhile (·.is Text.isDecimalDigit) = v :: rest := by
    cases hd : (cs.dropWhile (·.is isFlag)).dropWhile (·.is Text.isDecimalDigit) with
    | nil =>
      -- a run of digits to the end would leave every code point a flag or a digit
      have := List.any_dropWhile (p := (·.is Text.isDecimalDigit))
        (l := cs.dropWhile (·.is isFlag))
      rw [hd, hdigits] at this
      cases this
    | cons v rest => exact ⟨v, rest, rfl⟩
  unfold readDirective
  simp only [takeWhile_append_of_not_all hflags, dropWhile_append_of_not_all hflags,
    takeWhile_append_of_not_all hdigits, dropWhile_append_of_not_all hdigits, hvr,
    List.cons_append]

theorem readDirective_suffix (cs : Text) : (readDirective cs).2 <:+ cs := by
  unfold readDirective
  dsimp only
  split
  · exact List.nil_suffix
  · rename_i v rest hvr
    have h := (List.dropWhile_suffix (l := cs.dropWhile (·.is isFlag))
      (·.is Text.isDecimalDigit)).trans (List.dropWhile_suffix (l := cs) (·.is isFlag))
    rw [hvr] at h
    exact (List.suffix_cons v rest).trans h

/-! ### Filling lists of pieces -/

theorem fillPieces_append (ps qs : List Piece) (out : Text) (args : List Value) :
    fillPieces out (ps ++ qs) args =
      fillPieces out ps args >>= fun (o, r) => fillPieces o qs r := by
  induction ps generalizing out args with
  | nil => rfl
  | cons p ps ih =>
    cases p with
    | text s => exact ih (out ++ s) args
    | directive d =>
      cases hv : d.verb with
      | none => simp only [List.cons_append, fillPieces, hv, ih]
      | some v =>
        simp only [List.cons_append, fillPieces, hv]
        split
        · exact ih _ _
        · split
          · rfl
          · cases args with
            | nil => rfl
            | cons a rest =>
              dsimp only
              cases d.write v a with
              | error f => rfl
              | ok s => exact ih _ _

theorem fillPieces_prefix (ps : List Piece) (out out' : Text) (args : List Value) :
    fillPieces (out ++ out') ps args =
      (fillPieces out' ps args).map fun (o, r) => (out ++ o, r) := by
  induction ps generalizing out' args with
  | nil => rfl
  | cons p ps ih =>
    cases p with
    | text s =>
      simp only [fillPieces, List.append_assoc]
      exact ih _ _
    | directive d =>
      cases hv : d.verb with
      | none =>
        simp only [fillPieces, hv, List.append_assoc]
        exact ih _ _
      | some v =>
        simp only [fillPieces, hv]
        split
        · rw [List.append_assoc]
          exact ih _ _
        · split
          · rfl
          · cases args with
            | nil => rfl
            | cons a rest =>
              dsimp only
              cases d.write v a with
              | error f => rfl
              | ok s =>
                simp only [List.append_assoc]
                exact ih _ _

/-- The text written before some pieces stands before what they write. -/
theorem fillPieces_out (ps : List Piece) (out : Text) (args : List Value) :
    fillPieces out ps args = (fillPieces [] ps args).map fun (o, r) => (out ++ o, r) := by
  simpa using fillPieces_prefix ps out [] args

/-- Two lists of pieces fill alike: after any text and with any arguments they write the same
text and leave the same arguments, or fail alike. -/
def Fills (ps qs : List Piece) : Prop :=
  ∀ out args, fillPieces out ps args = fillPieces out qs args

namespace Fills

variable {ps qs rs : List Piece}

theorem refl (ps : List Piece) : Fills ps ps := fun _ _ => rfl

theorem symm (h : Fills ps qs) : Fills qs ps := fun out args => (h out args).symm

theorem trans (h : Fills ps qs) (h' : Fills qs rs) : Fills ps rs :=
  fun out args => (h out args).trans (h' out args)

theorem append_left (pre : List Piece) (h : Fills ps qs) : Fills (pre ++ ps) (pre ++ qs) := by
  intro out args
  rw [fillPieces_append, fillPieces_append]
  congr 1
  funext r
  exact h r.1 r.2

theorem append_right (h : Fills ps qs) (post : List Piece) :
    Fills (ps ++ post) (qs ++ post) := by
  intro out args
  rw [fillPieces_append, fillPieces_append, h out args]

theorem cons (p : Piece) (h : Fills ps qs) : Fills (p :: ps) (p :: qs) :=
  append_left [p] h

/-- Empty text writes nothing. -/
theorem text_nil (ps : List Piece) : Fills (.text [] :: ps) ps := by
  intro out args
  simp only [fillPieces, List.append_nil]

/-- Two texts in a row write what their join writes. -/
theorem text_text (a b : Text) (ps : List Piece) :
    Fills (.text a :: .text b :: ps) (.text (a ++ b) :: ps) := by
  intro out args
  simp only [fillPieces, List.append_assoc]

/-- The text read so far, when there is some, is a piece of its own. -/
theorem text_unless_empty (acc : Text) (ps : List Piece) :
    Fills (if acc.isEmpty then ps else .text acc.reverse :: ps) (.text acc.reverse :: ps) := by
  split
  · rename_i h
    rw [List.isEmpty_iff.1 h, List.reverse_nil]
    exact (text_nil ps).symm
  · exact refl _

end Fills

/-! ### Joined templates -/

/-- The pieces of a template after text read before it are that text, then the template's own
pieces. -/
theorem piecesFrom_acc (acc' : Text) : ∀ acc t : Text,
    Fills (piecesFrom (acc ++ acc') t) (.text acc'.reverse :: piecesFrom acc t) := by
  intro acc t
  induction acc, t using piecesFrom.induct with
  | case1 acc h | case2 acc h =>
    rw [piecesFrom.eq_1, piecesFrom.eq_1]
    refine (Fills.text_unless_empty _ []).trans ?_
    rw [List.reverse_append]
    refine (Fills.text_text _ _ []).symm.trans (Fills.cons _ ?_)
    exact (Fills.text_unless_empty _ []).symm
  | case3 acc cs _ h ih | case4 acc cs _ h ih =>
    rw [piecesFrom.eq_2, piecesFrom.eq_2, if_pos rfl, if_pos rfl]
    dsimp only
    refine (Fills.text_unless_empty _ _).trans ?_
    rw [List.reverse_append]
    refine (Fills.text_text _ _ _).symm.trans (Fills.cons _ ?_)
    exact (Fills.text_unless_empty _ _).symm
  | case5 acc c cs hc ih =>
    rw [piecesFrom.eq_2, piecesFrom.eq_2, if_neg hc, if_neg hc]
    exact ih

/-- A template ends inside a directive: some `%` in it is followed by nothing but flag and
digit characters, so that what is joined after it continues the directive. -/
def EndsOpen (t : Text) : Prop :=
  ∃ pre rest, t = pre ++ .char '%' :: rest ∧ ∀ c ∈ rest, c.is isFlag ∨ c.is Text.isDecimalDigit

theorem EndsOpen.of_suffix {s t : Text} (h : EndsOpen s) (hs : s <:+ t) : EndsOpen t := by
  obtain ⟨pre, rest, rfl, hrest⟩ := h
  obtain ⟨u, rfl⟩ := hs
  exact ⟨u ++ pre, rest, by rw [List.append_assoc], hrest⟩

/-- A template whose last code point is neither `%`, a flag nor a digit does not end inside a
directive. -/
theorem not_endsOpen_of_getLast? {t : Text} {c : CodePoint} (hc : t.getLast? = some c)
    (hpct : c ≠ .char '%') (hflag : c.is isFlag = false)
    (hdigit : c.is Text.isDecimalDigit = false) : ¬ EndsOpen t := by
  rintro ⟨pre, rest, rfl, hrest⟩
  rw [List.getLast?_append, List.getLast?_cons] at hc
  cases hl : rest.getLast? with
  | none =>
    -- the `%` is the last code point
    rw [hl] at hc
    cases hc
    exact hpct rfl
  | some d =>
    rw [hl, Option.getD_some] at hc
    cases hc
    rcases hrest _ (List.mem_of_getLast? hl) with h | h
    · rw [hflag] at h
      cases h
    · rw [hdigit] at h
      cases h

/-- After a `%` that does not end a template, the directive ends within the template. -/
theorem not_all_of_not_endsOpen {cs : Text} (h : ¬ EndsOpen (.char '%' :: cs)) :
    cs.all (fun c => c.is isFlag || c.is Text.isDecimalDigit) = false := by
  cases hall : cs.all (fun c => c.is isFlag || c.is Text.isDecimalDigit)
  · rfl
  · refine absurd ⟨[], cs, rfl, fun c hc => ?_⟩ h
    simpa using List.all_eq_true.1 hall c hc

/-- A template that does not end inside a directive is read, joined with another, as its own
pieces followed by those of the other. -/
theorem piecesFrom_append (t2 : Text) : ∀ acc t1 : Text, ¬ EndsOpen t1 →
    Fills (piecesFrom acc (t1 ++ t2)) (piecesFrom acc t1 ++ piecesFrom [] t2) := by
  intro acc t1
  induction acc, t1 using piecesFrom.induct with
  | case1 acc h | case2 acc h =>
    intro _
    rw [List.nil_append, piecesFrom.eq_1]
    refine (piecesFrom_acc acc [] t2).trans ?_
    rw [← List.singleton_append]
    refine Fills.append_right ?_ _
    exact (Fills.text_unless_empty acc []).symm
  | case3 acc cs _ h ih | case4 acc cs _ h ih =>
    intro hopen
    have hrd := readDirective_append (not_all_of_not_endsOpen hopen) t2
    have hrest : ¬ EndsOpen (readDirective cs).2 := fun h' =>
      hopen (h'.of_suffix ((readDirective_suffix cs).trans (List.suffix_cons _ cs)))
    rw [List.cons_append, piecesFrom.eq_2, piecesFrom.eq_2, if_pos rfl, if_pos rfl, hrd]
    dsimp only
    have htail := Fills.cons (.directive (readDirective cs).1) (ih hrest)
    by_cases hacc : acc.isEmpty
    · rw [if_pos hacc, if_pos hacc]
      exact htail
    · rw [if_neg hacc, if_neg hacc, List.cons_append]
      exact Fills.cons _ htail
  | case5 acc c cs hc ih =>
    intro hopen
    have hrest : ¬ EndsOpen cs := fun h' => hopen (h'.of_suffix (List.suffix_cons c cs))
    rw [List.cons_append, piecesFrom.eq_2, piecesFrom.eq_2, if_neg hc, if_neg hc]
    exact ih hrest

/-- A template that does not end inside a directive, joined with another, has the pieces of
each, one after the other. -/
theorem pieces_append {t1 : Text} (hopen : ¬ EndsOpen t1) (t2 : Text) :
    Fills (pieces (t1 ++ t2)) (pieces t1 ++ pieces t2) :=
  piecesFrom_append t2 [] t1 hopen

/-! ### Arguments -/

/-- Whether a piece takes an argument: a directive whose verb is `d`, `t`, `s` or `v`. -/
def Piece.takesArgument : Piece → Bool
  | .directive ⟨_, _, some v⟩ => v.is isVerb
  | _ => false

/-- How many arguments the directives of a template take. -/
def argumentCount (t : Text) : Nat :=
  (pieces t).countP Piece.takesArgument

/-- Arguments beyond those the pieces take are left over, untouched. -/
theorem fillPieces_args_append (more : List Value) : ∀ (ps : List Piece) (out : Text)
    (args : List Value), ps.countP Piece.takesArgument ≤ args.length →
      fillPieces out ps (args ++ more) =
        (fillPieces out ps args).map fun (o, r) => (o, r ++ more)
  | [], _, _, _ => rfl
  | .text s :: ps, out, args, h => fillPieces_args_append more ps (out ++ s) args h
  | .directive d :: ps, out, args, h => by
    rcases d with ⟨flags, width, _ | v⟩
    · exact fillPieces_args_append more ps _ args h
    · simp only [fillPieces]
      split
      · -- `%%` takes no argument
        rename_i hpct
        have hv : v.is isVerb = false := by rw [hpct.1]; rfl
        rw [List.countP_cons, Piece.takesArgument, hv] at h
        exact fillPieces_args_append more ps _ args h
      · split
        · rfl
        · rename_i hverb
          rw [Bool.not_eq_true', Bool.not_eq_false] at hverb
          rw [List.countP_cons, Piece.takesArgument, hverb, if_pos rfl] at h
          cases args with
          | nil => simp at h
          | cons a rest =>
            rw [List.cons_append]
            dsimp only
            cases Directive.write ⟨flags, width, some v⟩ v a with
            | error f => rfl
            | ok s =>
              rw [List.length_cons] at h
              exact fillPieces_args_append more ps _ rest (by omega)

/-- Each directive that takes an argument takes one, in order. -/
theorem fillPieces_rest : ∀ {ps : List Piece} {out o : Text} {args r : List Value},
    fillPieces out ps args = .ok (o, r) → r.length + ps.countP Piece.takesArgument = args.length
  | [], _, _, _, _, h => by
    cases h
    rfl
  | .text s :: ps, _, _, _, _, h => @fillPieces_rest ps _ _ _ _ h
  | .directive d :: ps, out, o, args, r, h => by
    rcases d with ⟨flags, width, _ | v⟩
    · exact @fillPieces_rest ps _ _ _ _ h
    · simp only [fillPieces] at h
      split at h
      · rename_i hpct
        have hv : v.is isVerb = false := by rw [hpct.1]; rfl
        rw [List.countP_cons, Piece.takesArgument, hv]
        exact @fillPieces_rest ps _ _ _ _ h
      · split at h
        · cases h
        · rename_i hverb
          rw [Bool.not_eq_true', Bool.not_eq_false] at hverb
          cases args with
          | nil => cases h
          | cons a rest =>
            dsimp only at h
            cases hw : Directive.write ⟨flags, width, some v⟩ v a with
            | error f => rw [hw] at h; cases h
            | ok s =>
              rw [hw] at h
              have := @fillPieces_rest ps _ _ _ _ h
              rw [List.countP_cons, Piece.takesArgument, hverb, if_pos rfl, List.length_cons]
              omega

/-! ### Faults of joined templates -/

/-- A fault as the template `t` reports it: arguments left over are reported for `t`. -/
def Fault.inTemplate (t : Text) : Fault → Fault
  | .unusedArguments n _ => .unusedArguments n t
  | f => f

theorem Directive.sized_inTemplate {d : Directive} {g : Option Nat → Text} {f : Fault}
    (h : d.sized g = .error f) (t : Text) : f.inTemplate t = f := by
  unfold Directive.sized at h
  split at h
  · cases h
  · dsimp only at h
    split at h
    · cases h
      rfl
    · cases h

theorem Directive.write_inTemplate {d : Directive} {v : CodePoint} {a : Value} {f : Fault}
    (h : d.write v a = .error f) (t : Text) : f.inTemplate t = f := by
  unfold Directive.write at h
  split at h
  · split at h
    · exact Directive.sized_inTemplate h t
    · cases h
      rfl
  · split at h
    · split at h
      · exact Directive.sized_inTemplate h t
      · cases h
        rfl
    · exact Directive.sized_inTemplate h t

/-- Filling pieces reports no left-over arguments: only a whole template does. -/
theorem fillPieces_inTemplate (t : Text) : ∀ {ps : List Piece} {out : Text} {args : List Value}
    {f : Fault}, fillPieces out ps args = .error f → f.inTemplate t = f
  | [], _, _, _, h => by cases h
  | .text s :: ps, _, _, _, h => @fillPieces_inTemplate t ps _ _ _ h
  | .directive d :: ps, out, args, f, h => by
    simp only [fillPieces] at h
    split at h
    · exact @fillPieces_inTemplate t ps _ _ _ h
    · split at h
      · exact @fillPieces_inTemplate t ps _ _ _ h
      · split at h
        · cases h
          rfl
        · cases args with
          | nil =>
            cases h
            rfl
          | cons a rest =>
            dsimp only at h
            cases hw : d.write _ a with
            | error f' =>
              rw [hw] at h
              cases h
              exact Directive.write_inTemplate hw t
            | ok s =>
              rw [hw] at h
              exact @fillPieces_inTemplate t ps _ _ _ h

/-- Filling two templates joined, with their arguments joined: the first template's fault if
it has one, else its text followed by the second's, or the second's fault, with left-over
arguments reported for the joined template. The first template must not end inside a
directive and must take exactly its own arguments. -/
theorem format_append {t1 : Text} (hopen : ¬ EndsOpen t1) {a1 : List Value}
    (hcount : argumentCount t1 = a1.length) (t2 : Text) (a2 : List Value) :
    format (t1 ++ t2) (a1 ++ a2) =
      (format t1 a1).bind fun o1 =>
        ((format t2 a2).map (o1 ++ ·)).mapError (Fault.inTemplate (t1 ++ t2)) := by
  have hjoin : fillPieces [] (pieces (t1 ++ t2)) (a1 ++ a2) =
      (fillPieces [] (pieces t1) a1).map (fun (o, r) => (o, r ++ a2)) >>=
        fun (o, r) => fillPieces o (pieces t2) r := by
    rw [pieces_append hopen t2 [] _, fillPieces_append,
      fillPieces_args_append a2 (pieces t1) [] a1 (Nat.le_of_eq hcount)]
  unfold format
  rw [hjoin]
  cases h1 : fillPieces [] (pieces t1) a1 with
  | error f => rfl
  | ok r1 =>
    obtain ⟨o1, r1⟩ := r1
    -- the first template takes all of its arguments
    have hr1 : r1 = [] := by
      have := fillPieces_rest h1
      unfold argumentCount at hcount
      exact List.eq_nil_of_length_eq_zero (by omega)
    subst hr1
    show (fillPieces o1 (pieces t2) a2 >>= _) = _
    rw [fillPieces_out]
    cases h2 : fillPieces [] (pieces t2) a2 with
    | error f =>
      show Except.error f = Except.error (f.inTemplate (t1 ++ t2))
      rw [fillPieces_inTemplate (t1 ++ t2) h2]
    | ok r2 =>
      obtain ⟨o2, r2⟩ := r2
      cases r2 with
      | nil => rfl
      | cons a rest => rfl

/-- Whether a template fault is a type mismatch of the language: every fault but a failure of
the host. -/
def Fault.isMismatch : Fault → Bool
  | .host _ => false
  | _ => true

theorem Fault.isMismatch_inTemplate (t : Text) (f : Fault) :
    (f.inTemplate t).isMismatch = f.isMismatch := by
  cases f <;> rfl

/-- Filling fails with a type mismatch. -/
def RaisesMismatch (r : Except Fault Text) : Prop :=
  ∃ f, r = .error f ∧ f.isMismatch

theorem raisesMismatch_error (f : Fault) : RaisesMismatch (.error f) ↔ f.isMismatch :=
  ⟨fun ⟨_, h, hf⟩ => by cases h; exact hf, fun hf => ⟨f, rfl, hf⟩⟩

theorem not_raisesMismatch_ok (s : Text) : ¬ RaisesMismatch (.ok s) :=
  fun ⟨_, h, _⟩ => by cases h

/-- Formatting is a homomorphism over joins of templates. When `t1` does not end inside a
directive, takes exactly the arguments `a1` and does not fail on the host, filling `t1 ++ t2`
with `a1 ++ a2` fails with a type mismatch exactly when filling `t1` with `a1` or `t2` with
`a2` does, and otherwise writes what the two write one after the other. -/
theorem format_join (t1 t2 : Text) (a1 a2 : List Value) (hopen : ¬ EndsOpen t1)
    (hcount : argumentCount t1 = a1.length) (hhost : ∀ c, format t1 a1 ≠ .error (.host c)) :
    (RaisesMismatch (format (t1 ++ t2) (a1 ++ a2)) ↔
      RaisesMismatch (format t1 a1) ∨ RaisesMismatch (format t2 a2)) ∧
    (¬ RaisesMismatch (format t1 a1) → ¬ RaisesMismatch (format t2 a2) →
      format (t1 ++ t2) (a1 ++ a2) = (do
        let o1 ← format t1 a1
        let o2 ← format t2 a2
        pure (o1 ++ o2))) := by
  rw [format_append hopen hcount]
  cases h1 : format t1 a1 with
  | error f =>
    -- the first template fails, and not on the host: a mismatch that the join reports
    have hf : f.isMismatch = true := by
      cases f with
      | host c => exact absurd h1 (hhost c)
      | _ => rfl
    refine ⟨?_, fun hnot _ => absurd ((raisesMismatch_error f).2 hf) hnot⟩
    exact ⟨fun _ => .inl ((raisesMismatch_error f).2 hf), fun _ => (raisesMismatch_error f).2 hf⟩
  | ok o1 =>
    cases h2 : format t2 a2 with
    | error f =>
      refine ⟨?_, fun _ hnot => ?_⟩
      · show RaisesMismatch (.error (f.inTemplate (t1 ++ t2))) ↔ _
        rw [raisesMismatch_error, raisesMismatch_error, Fault.isMismatch_inTemplate]
        exact ⟨.inr, fun h => h.resolve_left (not_raisesMismatch_ok o1)⟩
      · -- the second template fails on the host, which the join reports as it is
        cases f with
        | host c => rfl
        | _ => exact absurd ((raisesMismatch_error _).2 rfl) hnot
    | ok o2 =>
      refine ⟨?_, fun _ _ => rfl⟩
      exact ⟨fun h => absurd h (not_raisesMismatch_ok _),
        fun h => h.elim (fun h => absurd h (not_raisesMismatch_ok _))
          (fun h => absurd h (not_raisesMismatch_ok _))⟩

/-- `x=%d;` with 1 joined with ` %s!` with `"y"` writes `x=1; y!`. -/
theorem format_join_sample :
    ¬ EndsOpen (Text.ofString "x=%d;") ∧
      format (Text.ofString "x=%d;" ++ Text.ofString " %s!") ([.int 1] ++ [.str (Text.ofString "y")]) =
        .ok (Text.ofString "x=1; y!") := by
  have hopen : ¬ EndsOpen (Text.ofString "x=%d;") :=
    not_endsOpen_of_getLast? (c := .char ';') (by decide) (by decide) (by decide) (by decide)
  have hcount : argumentCount (Text.ofString "x=%d;") = [Value.int 1].length := by decide +kernel
  have h1 : format (Text.ofString "x=%d;") [.int 1] = .ok (Text.ofString "x=1;") := by
    decide +kernel
  have h2 : format (Text.ofString " %s!") [.str (Text.ofString "y")] = .ok (Text.ofString " y!") := by
    decide +kernel
  have hjoin := (format_join _ (Text.ofString " %s!") _ [.str (Text.ofString "y")] hopen hcount
    (fun c h => by rw [h1] at h; cases h)).2
  refine ⟨hopen, ?_⟩
  rw [hjoin (by rw [h1]; exact not_raisesMismatch_ok _) (by rw [h2]; exact not_raisesMismatch_ok _),
    h1, h2]
  rfl

/-- A template that fails on the host hides a mismatch of what is joined after it:
`%9999999999999999999d` with 1 fails on the host before `%x` is read. -/
theorem wide_directive_hides_mismatch :
    RaisesMismatch (format (Text.ofString "%x") []) ∧
      ¬ RaisesMismatch (format (Text.ofString "%9999999999999999999d" ++ Text.ofString "%x")
        ([.int 1] ++ [])) := by
  have h2 : format (Text.ofString "%x") [] = .error (.unknownVerb (Text.ofString "%x")) := by
    decide +kernel
  have hjoin : format (Text.ofString "%9999999999999999999d" ++ Text.ofString "%x")
      ([.int 1] ++ []) = .error (.host .widthOverflow) := by
    decide +kernel
  rw [h2, hjoin, raisesMismatch_error, raisesMismatch_error]
  exact ⟨rfl, Bool.false_ne_true⟩

end Template

end Ember
