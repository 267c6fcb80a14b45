import Ember.Proofs.Misfit
/-!
A read stops at the first end token.

Token lists handed to the reader from outside may hold end tokens anywhere, and any kinds,
lexemes, payloads and positions. The reader is a total function: each reader function is
measured by the tokens it has left and, on the same tokens, by its rank among the readers,
so every read ends with a program or a fault. It never looks past the first end token. For a
list that ends with an end token, whatever it holds after its first one:

* the outcome, a program or a fault with its message, is the outcome for the tokens up to and
  including the first end token (`Program.ofTokens_first_end`);
* a fault names the place of one of those tokens (`Program.ofTokens_fault_within`).

Main statement: `Program.ofTokens_within_first_end`.
-/

namespace Ember

/-- Tokens that end with an end token are read as the tokens up to their first one. -/
theorem Program.ofTokens_first_end {pre u : List Token} {E : Token} (hE : E.kind = .eof)
    (hpre : ∀ t ∈ pre, t.kind ≠ .eof) (hlast : ∀ t ∈ u.getLast?, t.kind = .eof) :
    Program.ofTokens? (pre ++ E :: u) = Program.ofTokens? (pre ++ [E]) := by
  have hfind : (pre ++ E :: u).find? (·.kind = .eof) = some E := by
    rw [List.find?_append, List.find?_eq_none.2 (fun x hx => by simpa using hpre x hx)]
    simp [hE]
  have htake : (pre ++ E :: u).takeWhile (·.kind ≠ .eof) = pre := by
    rw [List.takeWhile_append_of_pos (fun x hx => by simpa using hpre x hx)]
    simp [hE]
  -- the last token is an end token, `E` itself when nothing follows it
  obtain ⟨last, hl, hk⟩ :
      ∃ last, (pre ++ E :: u).getLast? = some last ∧ last.kind = .eof := by
    cases hu : u.getLast? with
    | none =>
      rw [List.getLast?_eq_none_iff] at hu
      subst hu
      exact ⟨E, List.getLast?_concat, hE⟩
    | some t =>
      refine ⟨t, ?_, hlast t hu⟩
      simp [List.getLast?_append, List.getLast?_cons, hu]
  rw [Program.ofTokens_split hE hpre, Program.ofTokens?, hl]
  dsimp only
  rw [if_pos hk]
  simp only [hfind, htake, Option.map_some, Option.getD_some]

/-- A fault in reading the tokens up to the first end token names the place of one of them. -/
theorem Program.ofTokens_fault_within {pre : List Token} {E : Token} {f : Syntax.Fault}
    (hE : E.kind = .eof) (hpre : ∀ t ∈ pre, t.kind ≠ .eof)
    (h : Program.ofTokens? (pre ++ [E]) = .error f) :
    ∃ k, ∃ hk : k < (pre ++ [E]).length, f.pos? = some ((pre ++ [E]).get ⟨k, hk⟩).pos := by
  obtain ⟨k, hk, hpos, -⟩ := Program.ofTokens_misfit hE hpre h
  exact ⟨k, hk, hpos⟩

/-- The reader stays within the tokens up to the first end token: for tokens that end with an
end token, the outcome, fault message included, is the outcome for the tokens up to and
including the first end token, and a fault names the place of one of those. -/
theorem Program.ofTokens_within_first_end {pre u : List Token} {E : Token}
    (hE : E.kind = .eof) (hpre : ∀ t ∈ pre, t.kind ≠ .eof)
    (hlast : ∀ t ∈ u.getLast?, t.kind = .eof) :
    Program.ofTokens? (pre ++ E :: u) = Program.ofTokens? (pre ++ [E]) ∧
      ∀ f, Program.ofTokens? (pre ++ E :: u) = .error f →
        ∃ k, ∃ hk : k < (pre ++ [E]).length, f.pos? = some ((pre ++ [E]).get ⟨k, hk⟩).pos := by
  have hsame := Program.ofTokens_first_end hE hpre hlast
  refine ⟨hsame, fun f h => ?_⟩
  rw [hsame] at h
  exact Program.ofTokens_fault_within hE hpre h

/-- `x;` and an end token, followed by a stray `)` and a second end token: the reader takes
`x;` and nothing after the first end token. -/
theorem stray_tokens_after_end_unread :
    Token.Kind.eof = .eof ∧
      (∀ t ∈ [Token.mk .ident (.text "x") (.text "x") ⟨1, 1⟩,
        Token.mk .semicolon (.text ";") .null ⟨1, 2⟩], t.kind ≠ .eof) ∧
      (∀ t ∈ [Token.mk .rparen (.text ")") .null ⟨2, 1⟩,
        Token.mk .eof (.text "eof") .null ⟨2, 2⟩].getLast?, t.kind = .eof) ∧
      (Program.ofTokens? ([Token.mk .ident (.text "x") (.text "x") ⟨1, 1⟩,
          Token.mk .semicolon (.text ";") .null ⟨1, 2⟩] ++
          Token.mk .eof (.text "eof") .null ⟨1, 3⟩ ::
            [Token.mk .rparen (.text ")") .null ⟨2, 1⟩,
              Token.mk .eof (.text "eof") .null ⟨2, 2⟩]) =
        Program.ofTokens? ([Token.mk .ident (.text "x") (.text "x") ⟨1, 1⟩,
          Token.mk .semicolon (.text ";") .null ⟨1, 2⟩] ++
          [Token.mk .eof (.text "eof") .null ⟨1, 3⟩]) ∧
        ∀ f, Program.ofTokens? ([Token.mk .ident (.text "x") (.text "x") ⟨1, 1⟩,
            Token.mk .semicolon (.text ";") .null ⟨1, 2⟩] ++
            Token.mk .eof (.text "eof") .null ⟨1, 3⟩ ::
              [Token.mk .rparen (.text ")") .null ⟨2, 1⟩,
                Token.mk .eof (.text "eof") .null ⟨2, 2⟩]) = .error f →
          ∃ k, ∃ hk : k < ([Token.mk .ident (.text "x") (.text "x") ⟨1, 1⟩,
              Token.mk .semicolon (.text ";") .null ⟨1, 2⟩] ++
              [Token.mk .eof (.text "eof") .null ⟨1, 3⟩]).length,
            f.pos? = some (([Token.mk .ident (.text "x") (.text "x") ⟨1, 1⟩,
              Token.mk .semicolon (.text ";") .null ⟨1, 2⟩] ++
              [Token.mk .eof (.text "eof") .null ⟨1, 3⟩]).get ⟨k, hk⟩).pos) :=
  ⟨rfl, by simp, by simp, Program.ofTokens_within_first_end rfl (by simp) (by simp)⟩

end Ember
