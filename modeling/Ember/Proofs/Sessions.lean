import Ember.Proofs.LineJoin
import Ember.Proofs.Returns
import Ember.Shell
/-!
A session is a program split into parts.

The loop reads each input as a program and runs it on the machine that the inputs before it
left. Two inputs that read as programs run as the one program of the two texts joined at a
line feed (`session_is_split_program`):

* the joined text reads as the statements of the first part followed by those of the second
  (`Program.ofSource_join`): the scanner reads it as the two texts (`Token.scan_join`), and the
  reader reads tokens alike wherever they stand (`Syntax.declarations_append`);
* where the statements of the first part run to their end, the run of the whole goes on as the
  run of the second part from the machine the first left (`Program.runStmts_append`); where
  they stop, at a fault, a top-level `return` or a crash, the run of the whole is the run of
  the first part (`Program.runStmts_append_stop`);
* an input that does not read leaves the machine as it was and writes nothing to the output
  (`Repl.answer_unread`).
-/

namespace Ember

/-! ### Reading -/

section Reading

theorem Token.getLast?_similar {ts ts' : List Token} (hs : List.Forall₂ Token.Similar ts ts')
    {a : Token} (h : ts.getLast? = some a) : ∃ a', ts'.getLast? = some a' ∧ a.Similar a' := by
  induction hs with
  | nil => cases h
  | @cons x x' l l' hx hl ih =>
    cases hl with
    | nil =>
      simp only [List.getLast?_singleton, Option.some.injEq] at h ⊢
      subst h
      exact ⟨x', rfl, hx⟩
    | cons hy hl' =>
      rw [List.getLast?_cons_cons] at h ⊢
      exact ih h

theorem Token.takeWhile_similar {ts ts' : List Token} (hs : List.Forall₂ Token.Similar ts ts') :
    List.Forall₂ Token.Similar (ts.takeWhile (·.kind ≠ .eof)) (ts'.takeWhile (·.kind ≠ .eof)) := by
  induction hs with
  | nil => exact .nil
  | @cons x x' l l' hx _ ih =>
    by_cases hk : x.kind = .eof
    · rw [List.takeWhile_cons_of_neg (by simpa using hk),
        List.takeWhile_cons_of_neg (by simpa [← hx.1] using hk)]
      exact .nil
    · rw [List.takeWhile_cons_of_pos (by simpa using hk),
        List.takeWhile_cons_of_pos (by simpa [← hx.1] using hk)]
      exact .cons hx ih

/-- Where the tokens stand does not matter to the program read from them. -/
theorem Program.ofTokens_similar {ts ts' : List Token} {p : Program}
    (h : Program.ofTokens? ts = .ok p) (hs : List.Forall₂ Token.Similar ts ts') :
    Program.ofTokens? ts' = .ok p := by
  unfold Program.ofTokens? at h ⊢
  split at h
  · rename_i last hlast
    split at h
    · rename_i hk
      obtain ⟨last', hlast', hsim⟩ := Token.getLast?_similar hs hlast
      rw [hlast']
      dsimp only
      rw [if_pos (hsim.1.symm.trans hk)]
      obtain ⟨ss, hss, rfl⟩ := Syntax.ok_of_map_eq_ok h
      rw [Syntax.declarations_similar hss (Token.takeWhile_similar hs)]
      rfl
    · cases h
  · cases h

/-- Tokens that end with their only end token are read as the declarations before it. -/
theorem Program.ofTokens_split {toks : List Token} {t : Token} (ht : t.kind = .eof)
    (hne : ∀ x ∈ toks, x.kind ≠ .eof) :
    Program.ofTokens? (toks ++ [t]) = (Syntax.declarations t.pos #[] toks).map Program.mk := by
  have hfind : (toks ++ [t]).find? (·.kind = .eof) = some t := by
    rw [List.find?_append, List.find?_eq_none.2 (fun x hx => by simpa using hne x hx)]
    simp [ht]
  have htake : (toks ++ [t]).takeWhile (·.kind ≠ .eof) = toks := by
    rw [List.takeWhile_append_of_pos (fun x hx => by simpa using hne x hx)]
    simp [ht]
  rw [Program.ofTokens?, List.getLast?_concat]
  dsimp only
  rw [if_pos ht]
  simp only [hfind, htake, Option.map_some, Option.getD_some]

theorem Program.ofSource_ok {s : Text} {p : Program} (h : Program.ofSource? s = .ok p) :
    ∃ ts, Token.scan s = .ok ts ∧ Program.ofTokens? ts = .ok p := by
  unfold Program.ofSource? at h
  split at h
  · cases h
  · rename_i ts hts
    split at h
    · cases h
    · rename_i hp
      cases h
      exact ⟨ts, hts, hp⟩

/-- Two texts that read as programs, joined at a line feed, read as the statements of the
first followed by those of the second. -/
theorem Program.ofSource_join {s₁ s₂ : Text} {p₁ p₂ : Program}
    (h₁ : Program.ofSource? s₁ = .ok p₁) (h₂ : Program.ofSource? s₂ = .ok p₂) :
    Program.ofSource? (s₁ ++ .char '\n' :: s₂) = .ok ⟨p₁.body ++ p₂.body⟩ := by
  obtain ⟨ts₁, hs₁, hp₁⟩ := Program.ofSource_ok h₁
  obtain ⟨ts₂, hs₂, hp₂⟩ := Program.ofSource_ok h₂
  obtain ⟨ts₂', hjoin, hsim⟩ := Token.scan_join hs₁ hs₂
  obtain ⟨toks₁, q₁, rfl, hne₁⟩ := Token.scan_shape hs₁
  obtain ⟨toks₂, q₂, rfl, hne₂⟩ := Token.scan_shape hs₂
  -- each part is read as the declarations before its end token
  rw [Program.ofTokens_split rfl hne₁] at hp₁
  rw [Program.ofTokens_split rfl hne₂] at hp₂
  obtain ⟨ss₁, hss₁, rfl⟩ := Syntax.ok_of_map_eq_ok hp₁
  obtain ⟨ss₂, hss₂, rfl⟩ := Syntax.ok_of_map_eq_ok hp₂
  -- the two parts' tokens one after the other, with the second end token, read as both
  have hboth : Program.ofTokens? (toks₁ ++ toks₂ ++ [Token.endAt q₂]) = .ok ⟨ss₁ ++ ss₂⟩ := by
    have hne : ∀ x ∈ toks₁ ++ toks₂, x.kind ≠ .eof := by
      intro x hx
      rcases List.mem_append.1 hx with hx | hx
      · exact hne₁ x hx
      · exact hne₂ x hx
    rw [Program.ofTokens_split rfl hne,
      Syntax.declarations_append hss₁ (Token.forall₂_similar_refl toks₁) hss₂]
    rfl
  -- and the joined text's tokens are those, at other positions
  have hsim' : List.Forall₂ Token.Similar (toks₁ ++ toks₂ ++ [Token.endAt q₂])
      ((toks₁ ++ [Token.endAt q₁]).dropLast ++ ts₂') := by
    rw [List.dropLast_concat, List.append_assoc]
    exact List.rel_append (Token.forall₂_similar_refl toks₁) hsim
  unfold Program.ofSource?
  rw [hjoin]
  dsimp only
  rw [Program.ofTokens_similar hboth hsim']

/-- A text reads as a well-formed program when its tokens are those the program is written
as, at any positions. -/
theorem Program.ofSource_of_render {s : Text} {p : Program} (hwf : p.wellFormed)
    (hs : ((Token.scan s).toOption.any fun ts =>
      decide (List.Forall₂ Token.Similar p.render ts)) = true) :
    Program.ofSource? s = .ok p := by
  cases hscan : Token.scan s with
  | error f =>
    rw [hscan] at hs
    cases hs
  | ok ts =>
    rw [hscan] at hs
    have hsim : List.Forall₂ Token.Similar p.render ts := by simpa [Except.toOption] using hs
    unfold Program.ofSource?
    rw [hscan]
    dsimp only
    rw [Program.ofTokens_similar (Program.ofTokens_render p hwf) hsim]

end Reading

/-! ### Running -/

namespace Eval

theorem run_tryCatch_error {α : Type} {x : Eval α} {handler : Stop → Eval α} {m m' : Machine}
    {e : Stop} (h : x.run m = .error e m') : (tryCatch x handler).run m = (handler e).run m' := by
  show EStateM.tryCatch x handler m = _
  -- unfolded without an equation lemma, as `run_tryCatch_ok` is
  delta EStateM.tryCatch
  simp only [show x m = .error e m' from h]
  rfl

theorem run_map_error {α β : Type} {x : Eval α} {f : α → β} {m m' : Machine} {e : Stop}
    (h : x.run m = .error e m') : (f <$> x).run m = .error e m' := by
  simp only [Functor.map, EStateM.map, EStateM.run] at h ⊢
  rw [h]

end Eval

namespace Program

open Eval

/-- A top-level statement that does not complete normally ends the run of the statements it
stands before, whatever they are. -/
theorem runStmts_cons_stop {env : Nat} {s : Stmt} {ss : List Stmt} {last : Option Value} {m : Machine}
    (h : ∀ v m₁, (Eval.stmt nestingLimit env s).run m ≠ .ok (.normal v) m₁) :
    (runStmts env (s :: ss) last).run m = (runStmts env [s] last).run m := by
  simp only [runStmts]
  rw [EStateM.run_bind, EStateM.run_bind]
  cases hs : (Eval.stmt nestingLimit env s).run m with
  | ok c m₁ =>
    cases c with
    | normal v => exact absurd hs (h v m₁)
    | returned v => rw [run_tryCatch_ok (run_map_ok hs)]
  | error e m₁ =>
    rw [run_tryCatch_error (run_map_error hs)]
    cases e <;> rfl

/-- Top-level statements that do not run to their end are run as if nothing followed them.
The induction is on the statements before the stop. -/
theorem runStmts_append_stop {env : Nat} :
    ∀ {pre post : List Stmt} {last : Option Value} {m : Machine},
      (∀ o m₁, (Eval.stmts nestingLimit env last pre).run m ≠ .ok (.normal o) m₁) →
        (runStmts env (pre ++ post) last).run m = (runStmts env pre last).run m
  | [], _, last, m, h => absurd (by simp only [Eval.stmts]; rfl) (h last m)
  | s :: pre, post, last, m, h => by
    by_cases hn : ∃ v m₁, (Eval.stmt nestingLimit env s).run m = .ok (.normal v) m₁
    · -- the first statement completes normally, and the rest of `pre` stops
      obtain ⟨v, m₁, hs⟩ := hn
      rw [List.cons_append, runStmts_cons_ok hs, runStmts_cons_ok hs]
      refine runStmts_append_stop fun o m₂ ho => h o m₂ ?_
      simp only [Eval.stmts]
      rw [EStateM.run_bind, hs]
      exact ho
    · have hn' : ∀ v m₁, (Eval.stmt nestingLimit env s).run m ≠ .ok (.normal v) m₁ :=
        fun v m₁ hs => hn ⟨v, m₁, hs⟩
      rw [List.cons_append]
      exact (runStmts_cons_stop hn').trans (runStmts_cons_stop hn').symm

theorem runStmts_cons_last (env : Nat) (s : Stmt) (ss : List Stmt) (last : Option Value) :
    runStmts env (s :: ss) last = runStmts env (s :: ss) none := rfl

end Program

/-! ### The loop -/

/-- An input that is not `/reset` and does not read leaves the machine as it was, and writes
no output and no trace: at most its fault, on the error stream. -/
theorem Repl.answer_unread {m m' : Machine} {line : Text} {f : SourceFault} {r : Reply}
    (hreset : Shell.trim line ≠ "/reset") (h : Program.ofSource? line = .error f)
    (ha : Repl.answer m line = .ok (r, m')) : m' = m ∧ r.out = [] ∧ r.trace = #[] := by
  unfold Repl.answer at ha
  rw [h] at ha
  dsimp only at ha
  by_cases hb : (Shell.trim line).isEmpty = true
  · -- a blank line
    rw [if_pos hb] at ha
    cases ha
    exact ⟨rfl, rfl, rfl⟩
  · rw [if_neg hb, if_neg hreset] at ha
    split at ha
    · cases ha
    · cases ha
      exact ⟨rfl, rfl, rfl⟩

/-! ### Sessions -/

/-- Two inputs that read as programs, the second with a statement at least, run on one machine
as the program of the two texts joined at a line feed. The joined text reads as the
statements of both. Where the statements of the first run to their end, the first input's run
ends there with their last value, and the run of the joined text is the second input's run
from the machine the first left: the same output, trace, bindings and outcome. Where they do
not, the run of the joined text is the first input's run. An input that is not `/reset` and
does not read changes nothing and writes no output. -/
theorem session_is_split_program {s₁ s₂ : Text} {p₁ p₂ : Program}
    (h₁ : Program.ofSource? s₁ = .ok p₁) (h₂ : Program.ofSource? s₂ = .ok p₂)
    (hne : p₂.body ≠ []) (m : Machine) :
    Program.ofSource? (s₁ ++ .char '\n' :: s₂) = .ok ⟨p₁.body ++ p₂.body⟩ ∧
    (∀ o m₁, (Eval.stmts nestingLimit Store.global none p₁.body).run m = .ok (.normal o) m₁ →
      p₁.run m = .ok (.done o, m₁) ∧ Program.run ⟨p₁.body ++ p₂.body⟩ m = p₂.run m₁) ∧
    ((∀ o m₁, (Eval.stmts nestingLimit Store.global none p₁.body).run m ≠ .ok (.normal o) m₁) →
      Program.run ⟨p₁.body ++ p₂.body⟩ m = p₁.run m) ∧
    (∀ (line : Text) (f : SourceFault) (r : Reply) (m' : Machine), Shell.trim line ≠ "/reset" →
      Program.ofSource? line = .error f → Repl.answer m line = .ok (r, m') →
        m' = m ∧ r.out = [] ∧ r.trace = #[]) := by
  refine ⟨Program.ofSource_join h₁ h₂, ?_, ?_, ?_⟩
  · intro o m₁ hrun
    constructor
    · -- alone, the first part ends with the value of its last statement
      have hone := @Program.runStmts_append Store.global p₁.body [] none o m m₁ hrun
      rw [List.append_nil] at hone
      unfold Program.run Program.runIn
      rw [hone]
      rfl
    · -- joined, the second part runs after it, and the last value before it is not used
      obtain ⟨s, ss, hs⟩ := List.exists_cons_of_ne_nil hne
      unfold Program.run Program.runIn
      dsimp only
      rw [Program.runStmts_append hrun, hs, Program.runStmts_cons_last]
  · intro hstop
    unfold Program.run Program.runIn
    dsimp only
    rw [Program.runStmts_append_stop hstop]
  · intro line f r m' hreset hf ha
    exact Repl.answer_unread hreset hf ha

/-- `let x = 1;` and then `print(x);` in the loop, from a fresh machine, and the two lines as
one program. -/
theorem session_let_then_print :
    Program.ofSource? (Text.ofString "let x = 1;") =
        .ok ⟨[.letDecl (.text (Text.ofString "x")) (some (.literal (.int 1)))]⟩ ∧
      Program.ofSource? (Text.ofString "print(x);") =
        .ok ⟨[.print [.var (.text (Text.ofString "x"))]]⟩ ∧
      [Stmt.print [.var (.text (Text.ofString "x"))]] ≠ [] ∧
      Program.ofSource? (Text.ofString "let x = 1;" ++ .char '\n' :: Text.ofString "print(x);") =
        .ok ⟨[.letDecl (.text (Text.ofString "x")) (some (.literal (.int 1))),
          .print [.var (.text (Text.ofString "x"))]]⟩ ∧
      (∀ o m₁, (Eval.stmts nestingLimit Store.global none
          [.letDecl (.text (Text.ofString "x")) (some (.literal (.int 1)))]).run
            (Machine.fresh 0 false) = .ok (.normal o) m₁ →
        Program.run ⟨[.letDecl (.text (Text.ofString "x")) (some (.literal (.int 1)))]⟩
            (Machine.fresh 0 false) = .ok (.done o, m₁) ∧
          Program.run ⟨[.letDecl (.text (Text.ofString "x")) (some (.literal (.int 1))),
            .print [.var (.text (Text.ofString "x"))]]⟩ (Machine.fresh 0 false) =
            Program.run ⟨[.print [.var (.text (Text.ofString "x"))]]⟩ m₁) ∧
      ((∀ o m₁, (Eval.stmts nestingLimit Store.global none
          [.letDecl (.text (Text.ofString "x")) (some (.literal (.int 1)))]).run
            (Machine.fresh 0 false) ≠ .ok (.normal o) m₁) →
        Program.run ⟨[.letDecl (.text (Text.ofString "x")) (some (.literal (.int 1))),
            .print [.var (.text (Text.ofString "x"))]]⟩ (Machine.fresh 0 false) =
          Program.run ⟨[.letDecl (.text (Text.ofString "x")) (some (.literal (.int 1)))]⟩
            (Machine.fresh 0 false)) ∧
      (∀ (line : Text) (f : SourceFault) (r : Reply) (m' : Machine),
        Shell.trim line ≠ "/reset" → Program.ofSource? line = .error f →
          Repl.answer (Machine.fresh 0 false) line = .ok (r, m') →
            m' = Machine.fresh 0 false ∧ r.out = [] ∧ r.trace = #[]) := by
  have h₁ : Program.ofSource? (Text.ofString "let x = 1;") =
      .ok ⟨[.letDecl (.text (Text.ofString "x")) (some (.literal (.int 1)))]⟩ :=
    Program.ofSource_of_render (by decide) (by decide +kernel)
  have h₂ : Program.ofSource? (Text.ofString "print(x);") =
      .ok ⟨[.print [.var (.text (Text.ofString "x"))]]⟩ :=
    Program.ofSource_of_render (by decide) (by decide +kernel)
  have hne : [Stmt.print [.var (.text (Text.ofString "x"))]] ≠ [] := List.cons_ne_nil _ _
  exact ⟨h₁, h₂, hne, session_is_split_program h₁ h₂ hne (Machine.fresh 0 false)⟩

end Ember