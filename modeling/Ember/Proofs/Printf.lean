import Mathlib.Data.Nat.Digits.Defs
import Ember.Proofs.Escapes
import Ember.Proofs.Filling
/-!
The directives of a template write what printf writes.

A directive `%`, flags, width digits and verb `d` writes an integer as printf does
(`printfInt`): its sign (`-` for a negative number, else `+` or a space as the flags ask) and
its decimal digits, in a field as wide as the width, padded with spaces on the right with the
`-` flag, with zeros between sign and digits with the `0` flag and a width, and with spaces on
the left otherwise. The field is never narrower than the number (`length_printfInt`). The
verbs `s`, `v` and `t` pad the inspected argument the same way (`pad`).

* `pieces_directive`: `%`, flag characters, width digits and a verb read as one directive,
  the leading ASCII zeros of the digits read as flags, as printf reads them;
* `widthValue_ofDigits`: width digits of any script have the value of their digits;
* `formatInt_printf`: what `formatInt` writes, in printf's terms;
* `directive_printf`: the piece a one-directive template writes for its argument, for every
  integer and every argument, for every width the host's formatting accepts (`maxWidth`).
  `zero_led_width_pads_zeros` is the case of a width led by `0`.
-/

namespace Ember

namespace Text

/-- A range found by the search holds the code point and is one of the table's ranges. -/
theorem CharRanges.findIn_mem {t : CharRanges} {n lo hi : Nat} {r : Nat × Nat}
    (h : t.findIn n lo hi = some r) : r ∈ t.ranges.toList ∧ r.1 ≤ n ∧ n ≤ r.2 := by
  induction lo, hi using CharRanges.findIn.induct t n with
  | case1 lo hi hlt mid =>
    rename_i hnone
    rw [CharRanges.findIn, if_pos hlt] at h
    dsimp only at h hnone
    rw [hnone] at h
    cases h
  | case2 lo hi hlt mid a b =>
    rename_i hab hna ih
    rw [CharRanges.findIn, if_pos hlt] at h
    dsimp only at h hab
    rw [hab] at h
    dsimp only at h
    rw [if_pos hna] at h
    exact ih h
  | case3 lo hi hlt mid a b =>
    rename_i hab hna hbn ih
    rw [CharRanges.findIn, if_pos hlt] at h
    dsimp only at h hab
    rw [hab] at h
    dsimp only at h
    rw [if_neg hna, if_pos hbn] at h
    exact ih h
  | case4 lo hi hlt mid a b =>
    rename_i hab hna hbn
    rw [CharRanges.findIn, if_pos hlt] at h
    dsimp only at h hab
    rw [hab] at h
    dsimp only at h
    rw [if_neg hna, if_neg hbn] at h
    cases h
    exact ⟨Array.mem_toList_iff.2 (Array.mem_of_getElem? hab), by omega, by omega⟩
  | case5 lo hi hlt =>
    rw [CharRanges.findIn, if_neg hlt] at h
    cases h

/-- The only decimal digits below 128 are the ASCII digits. -/
theorem decimalDigits_ascii :
    decimalDigits.ranges.toList.all (fun r => 128 ≤ r.1 || r = (48, 57)) = true := by
  decide

/-- A character with a decimal value is a decimal digit. -/
theorem isDecimalDigit_of_decimalValue {c : Char} {d : Nat} (h : decimalValue? c = some d) :
    isDecimalDigit c = true := by
  obtain ⟨r, hr, -⟩ := Option.map_eq_some_iff.1 h
  unfold isDecimalDigit
  split
  · -- below 128 the range found is the one of the ASCII digits
    obtain ⟨hmem, hlo, hhi⟩ := CharRanges.findIn_mem hr
    have hascii := List.all_eq_true.1 decimalDigits_ascii r hmem
    simp only [Bool.or_eq_true, decide_eq_true_eq] at hascii
    rcases hascii with hhigh | rfl
    · omega
    · simp only [Char.isDigit, Bool.and_eq_true, decide_eq_true_eq]
      exact ⟨hlo, hhi⟩
  · show (decimalDigits.find? c.toNat).isSome = true
    rw [hr]
    rfl

end Text

namespace Template

/-! ### printf -/

/-- The sign printf writes before a number: `-` for a negative number, else `+` when `plus`,
else a space when `space`, else nothing. -/
def printfSign (plus space : Bool) (x : Int) : Text :=
  if x < 0 then [.char '-'] else if plus then [.char '+'] else if space then [.char ' '] else []

/-- The decimal digits of a number. -/
def decimal (n : Nat) : Text :=
  (Nat.toDigits 10 n).map .char

/-- An integer as printf writes it in a field of `width` code points: sign and digits followed
by spaces when `left`, else with zeros between sign and digits when `zero`, else after
spaces. -/
def printfInt (left zero plus space : Bool) (width : Nat) (x : Int) : Text :=
  let sign := printfSign plus space x
  let digits := decimal x.natAbs
  let gap := width - (sign.length + digits.length)
  if left then sign ++ digits ++ fill ' ' gap
  else if zero then sign ++ fill '0' gap ++ digits
  else fill ' ' gap ++ sign ++ digits

/-- printf never cuts a number short: the field is as wide as the width, or as the number. -/
theorem length_printfInt (left zero plus space : Bool) (width : Nat) (x : Int) :
    (printfInt left zero plus space width x).length =
      max width (printfSign plus space x ++ decimal x.natAbs).length := by
  unfold printfInt fill
  rw [List.length_append]
  split
  · simp only [List.length_append, List.length_replicate]
    omega
  · split <;>
    · simp only [List.length_append, List.length_replicate]
      omega

/-- With no width a number is its sign and its digits. -/
theorem printfInt_zero_width (left zero plus space : Bool) (x : Int) :
    printfInt left zero plus space 0 x = printfSign plus space x ++ decimal x.natAbs := by
  unfold printfInt
  simp only [Nat.zero_sub, fill, List.replicate_zero, List.append_nil, List.nil_append]
  split
  · rfl
  · split <;> rfl

theorem pad_zero (left : Bool) (s : Text) : pad left 0 s = s := by
  unfold pad
  cases left <;> simp [fill]

/-- A text directive pads the text as printf does, to the width when there is one. -/
theorem formatText_pad (flags : Text) (width : Option Nat) (s : Text) :
    formatText flags width s = pad (hasFlag flags '-') (width.getD 0) s := by
  cases width with
  | none => exact (pad_zero _ s).symm
  | some w => rfl

/-- An integer directive writes what printf writes, with the flags it finds in its flag
characters and the width, when there is one. -/
theorem formatInt_printf (flags : Text) (width : Option Nat) (x : Int) :
    formatInt flags width x =
      printfInt (hasFlag flags '-') (hasFlag flags '0' && width.isSome) (hasFlag flags '+')
        (hasFlag flags ' ') (width.getD 0) x := by
  have hsign : Text.ofString (if x < 0 then "-" else if hasFlag flags '+' then "+"
      else if hasFlag flags ' ' then " " else "") =
      printfSign (hasFlag flags '+') (hasFlag flags ' ') x := by
    unfold printfSign
    split_ifs <;> rfl
  have hdigits : Text.ofString (toString x.natAbs) = decimal x.natAbs := by
    simp only [Text.ofString, decimal, Nat.toString_eq_repr, Nat.toList_repr]
  have hlength (s : String) : s.length = (Text.ofString s).length := by
    simp only [Text.ofString, List.length_map, String.length_toList]
  unfold formatInt printfInt pad
  simp only [hlength, hsign, hdigits, Bool.and_eq_true, Nat.sub_sub,
    List.append_assoc, List.length_append, if_true, Bool.false_eq_true, if_false]

/-! ### Reading a directive -/

/-- A code point that is both a flag and a digit is the ASCII `0`. -/
theorem eq_zero_of_isFlag_of_isDecimalDigit {c : CodePoint} (hf : c.is isFlag)
    (hd : c.is Text.isDecimalDigit) : c = .char '0' := by
  cases c with
  | char c =>
    simp only [CodePoint.is, isFlag, Bool.or_eq_true, decide_eq_true_eq] at hf
    rcases hf with (((rfl | rfl) | rfl) | rfl) | rfl
    all_goals first | rfl | exact absurd hd (by decide)
  | surrogate k => cases hf

/-- `%`, flag characters, width digits and a verb that is neither are one directive, the
leading flag characters of the digits (its ASCII zeros) read as flags. -/
theorem pieces_directive {F W : Text} {v : CodePoint} (hF : ∀ c ∈ F, c.is isFlag)
    (hW : ∀ c ∈ W, c.is Text.isDecimalDigit) (hvf : v.is isFlag = false)
    (hvd : v.is Text.isDecimalDigit = false) :
    pieces (.char '%' :: (F ++ W ++ [v])) =
      [.directive ⟨F ++ W.takeWhile (·.is isFlag), W.dropWhile (·.is isFlag), some v⟩] := by
  have hrest : ∀ c ∈ W.dropWhile (·.is isFlag), c.is Text.isDecimalDigit :=
    fun c hc => hW c ((List.dropWhile_suffix _).subset hc)
  have hread : readDirective (F ++ W ++ [v]) =
      (⟨F ++ W.takeWhile (·.is isFlag), W.dropWhile (·.is isFlag), some v⟩, []) := by
    unfold readDirective
    simp only [List.append_assoc, List.takeWhile_append_of_pos hF, List.dropWhile_append_of_pos hF,
      takeWhile_append_cons_stop hvf [] W, dropWhile_append_cons_stop hvf [] W,
      List.takeWhile_append_of_pos hrest, List.dropWhile_append_of_pos hrest,
      List.takeWhile_cons_of_neg (p := CodePoint.is Text.isDecimalDigit) (by rw [hvd]; decide),
      List.dropWhile_cons_of_neg (p := CodePoint.is Text.isDecimalDigit) (by rw [hvd]; decide),
      List.append_nil]
  unfold pieces
  rw [piecesFrom.eq_2, if_pos rfl]
  dsimp only
  rw [hread, piecesFrom.eq_1]
  rfl

/-- A template of one directive with a verb writes, for one argument, what the directive
writes for it. -/
theorem format_single {t : Text} {d : Directive} {v : CodePoint} (ht : pieces t = [.directive d])
    (hv : d.verb = some v) (hverb : v.is isVerb) (a : Value) : format t [a] = d.write v a := by
  have hpct : ¬ (v = .char '%' ∧ d.flags.isEmpty ∧ d.width.isEmpty) := by
    rintro ⟨rfl, -⟩
    cases hverb
  unfold format
  rw [ht]
  simp only [fillPieces, hv, if_neg hpct, hverb, Bool.not_true, Bool.false_eq_true, if_false]
  cases d.write v a <;> rfl

/-! ### The width -/

theorem widthValue_append_char (ds : Text) (c : Char) :
    widthValue (ds ++ [.char c]) = 10 * widthValue ds + (Text.decimalValue? c).getD 0 := by
  unfold widthValue
  rw [List.foldl_append]
  rfl

/-- Width digits of any script have the value of their digits, the first the most
significant. -/
theorem widthValue_ofDigits (ds : List (Char × Nat))
    (hds : ∀ p ∈ ds, Text.decimalValue? p.1 = some p.2) :
    widthValue (ds.map (.char ·.1)) = Nat.ofDigits 10 (ds.map (·.2)).reverse := by
  -- the width is read from its first digit on, so the induction adds digits at the end
  obtain ⟨l, rfl⟩ : ∃ l, ds = l.reverse := ⟨ds.reverse, (List.reverse_reverse ds).symm⟩
  induction l with
  | nil => rfl
  | cons p l ih =>
    have hp : Text.decimalValue? p.1 = some p.2 := hds p (by simp)
    simp only [List.reverse_cons, List.map_append, List.map_cons, List.map_nil]
    rw [widthValue_append_char, ih fun q hq => hds q (by simp [hq]), hp, Option.getD_some,
      List.reverse_append, List.reverse_singleton, List.singleton_append, Nat.ofDigits_cons]
    omega

/-- Leading ASCII zeros of a width have no value. -/
theorem widthValue_dropWhile_isFlag {W : Text} (hW : ∀ c ∈ W, c.is Text.isDecimalDigit) :
    widthValue (W.dropWhile (·.is isFlag)) = widthValue W := by
  induction W with
  | nil => rfl
  | cons c W ih =>
    have hW' : ∀ c ∈ W, c.is Text.isDecimalDigit := fun c' hc => hW c' (by simp [hc])
    by_cases hc : c.is isFlag
    · rw [List.dropWhile_cons_of_pos hc, ih hW',
        eq_zero_of_isFlag_of_isDecimalDigit hc (hW c List.mem_cons_self)]
      have h0 : (Text.decimalValue? '0').getD 0 = 0 := by decide +kernel
      simp only [widthValue, List.foldl_cons, h0]
    · rw [List.dropWhile_cons_of_neg hc]

theorem hasFlag_append (a b : Text) (c : Char) :
    hasFlag (a ++ b) c = (hasFlag a c || hasFlag b c) :=
  List.contains_append

/-- The flag characters read from the front of width digits are ASCII zeros, and there are
some exactly when the width starts with one. -/
theorem hasFlag_takeWhile_isFlag {W : Text} (hW : ∀ c ∈ W, c.is Text.isDecimalDigit)
    (c : Char) :
    hasFlag (W.takeWhile (·.is isFlag)) c = (c == '0' && W.head? == some (.char '0')) := by
  cases W with
  | nil => simp [hasFlag]
  | cons d W =>
    by_cases hd : d.is isFlag
    · have hzero : ∀ e ∈ (d :: W).takeWhile (·.is isFlag), e = .char '0' := fun e he =>
        eq_zero_of_isFlag_of_isDecimalDigit (List.all_eq_true.1 List.all_takeWhile e he)
          (hW e ((List.takeWhile_prefix _).subset he))
      have hd0 := hzero d (by rw [List.takeWhile_cons_of_pos hd]; exact List.mem_cons_self)
      subst hd0
      unfold hasFlag
      rw [List.contains_eq_mem, List.head?_cons]
      by_cases hc : c = '0'
      · subst hc
        rw [List.takeWhile_cons_of_pos hd]
        simp
      · have : CodePoint.char c ∉ (CodePoint.char '0' :: W).takeWhile (·.is isFlag) :=
          fun hmem => hc (CodePoint.char.inj (hzero _ hmem))
        simp [this, hc]
    · have hd0 : d ≠ .char '0' := by
        rintro rfl
        exact hd rfl
      rw [List.takeWhile_cons_of_neg hd]
      simp [hasFlag, hd0]

/-- A directive whose width the host's formatting accepts writes with the value of its width,
or with none when it has no width digits. -/
theorem Directive.sized_of_le {d : Directive} (hw : widthValue d.width ≤ maxWidth)
    (g : Option Nat → Text) :
    d.sized g = .ok (g (if d.width.isEmpty then none else some (widthValue d.width))) := by
  unfold Directive.sized
  split
  · rfl
  · dsimp only
    rw [if_neg (by omega)]

/-! ### The piece a directive writes -/

/-- A one-directive template `%`, flags `F`, width digits `ds` (of any script, with the value
`w` of their digits, at most `maxWidth`) and a verb writes what printf writes:
for `d` and any integer the number in a field of `w` code points, padded as the flags `-`, `0`
(or a width led by an ASCII zero), `+` and space say; for `s` and `v` and any argument, and for
`t` and a boolean, the inspected argument padded to `w` code points, on the right with `-`. -/
theorem directive_printf (F : Text) (hF : ∀ c ∈ F, c.is isFlag) (ds : List (Char × Nat))
    (hds : ∀ p ∈ ds, Text.decimalValue? p.1 = some p.2)
    (hw : Nat.ofDigits 10 (ds.map (·.2)).reverse ≤ maxWidth) :
    (∀ x : Int, format (.char '%' :: (F ++ ds.map (.char ·.1) ++ [.char 'd'])) [.int x] =
      .ok (printfInt (decide (.char '-' ∈ F))
        (decide (.char '0' ∈ F) || ds.head?.map (·.1) == some '0')
        (decide (.char '+' ∈ F)) (decide (.char ' ' ∈ F))
        (Nat.ofDigits 10 (ds.map (·.2)).reverse) x)) ∧
    (∀ (v : Char) (a : Value), v = 's' ∨ v = 'v' ∨ v = 't' ∧ a.type = .boolean →
      format (.char '%' :: (F ++ ds.map (.char ·.1) ++ [.char v])) [a] =
        .ok (pad (decide (.char '-' ∈ F)) (Nat.ofDigits 10 (ds.map (·.2)).reverse) a.inspect)) := by
  have hW : ∀ c ∈ ds.map (CodePoint.char ·.1), c.is Text.isDecimalDigit := by
    intro c hc
    obtain ⟨p, hp, rfl⟩ := List.mem_map.1 hc
    exact Text.isDecimalDigit_of_decimalValue (hds p hp)
  -- the width the directive reads: the digits after their leading zeros, with the same value
  have hvalue : widthValue ((ds.map (CodePoint.char ·.1)).dropWhile (·.is isFlag)) =
      Nat.ofDigits 10 (ds.map (·.2)).reverse := by
    rw [widthValue_dropWhile_isFlag hW, widthValue_ofDigits ds hds]
  have hhead : ((ds.map (CodePoint.char ·.1)).head? == some (.char '0')) =
      (ds.head?.map (·.1) == some '0') := by
    cases ds with
    | nil => rfl
    | cons p ds => simp
  have hflag (c : Char) (hc : c ≠ '0') :
      hasFlag (F ++ (ds.map (CodePoint.char ·.1)).takeWhile (·.is isFlag)) c =
        decide (.char c ∈ F) := by
    rw [hasFlag_append, hasFlag_takeWhile_isFlag hW, hasFlag, List.contains_eq_mem]
    simp [hc]
  have hzero : hasFlag (F ++ (ds.map (CodePoint.char ·.1)).takeWhile (·.is isFlag)) '0' =
      (decide (.char '0' ∈ F) || ds.head?.map (·.1) == some '0') := by
    rw [hasFlag_append, hasFlag_takeWhile_isFlag hW, hasFlag, List.contains_eq_mem, hhead]
    rfl
  -- the width the directive is filled with: none without digits after the zeros, when the
  -- value is 0 too
  have hgetD : (if ((ds.map (CodePoint.char ·.1)).dropWhile (·.is isFlag)).isEmpty then none
      else some (widthValue ((ds.map (CodePoint.char ·.1)).dropWhile (·.is isFlag)))).getD 0 =
      Nat.ofDigits 10 (ds.map (·.2)).reverse := by
    split
    · rename_i hempty
      rw [← hvalue, List.isEmpty_iff.1 hempty]
      rfl
    · rw [Option.getD_some, hvalue]
  have hle : widthValue ((ds.map (CodePoint.char ·.1)).dropWhile (·.is isFlag)) ≤ maxWidth :=
    hvalue ▸ hw
  constructor
  · intro x
    rw [format_single (pieces_directive hF hW (by decide) (by decide +kernel)) rfl rfl,
      Directive.write, if_pos rfl]
    dsimp only
    rw [Directive.sized_of_le hle, formatInt_printf, hflag '-' (by decide),
      hflag '+' (by decide), hflag ' ' (by decide), hzero, hgetD]
    congr 1
    split
    · rename_i hempty
      dsimp only at hempty
      rw [← hvalue, List.isEmpty_iff.1 hempty]
      exact (printfInt_zero_width _ _ _ _ x).trans (printfInt_zero_width _ _ _ _ x).symm
    · rw [Option.isSome_some, Bool.and_true]
  · intro v a hv
    have hvf : (CodePoint.char v).is isFlag = false := by
      rcases hv with rfl | rfl | ⟨rfl, -⟩ <;> rfl
    have hvd : (CodePoint.char v).is Text.isDecimalDigit = false := by
      rcases hv with rfl | rfl | ⟨rfl, -⟩ <;> decide +kernel
    have hverb : (CodePoint.char v).is isVerb := by
      rcases hv with rfl | rfl | ⟨rfl, -⟩ <;> rfl
    rw [format_single (pieces_directive hF hW hvf hvd) rfl hverb]
    -- each of these verbs writes the inspected argument
    have hwrite (d : Directive) : d.write (.char v) a = d.sized (formatText d.flags · a.inspect) := by
      unfold Directive.write
      rcases hv with rfl | rfl | ⟨rfl, ha⟩
      · rw [if_neg (by decide), if_neg (by decide)]
      · rw [if_neg (by decide), if_neg (by decide)]
      · rw [if_neg (by decide), if_pos rfl]
        cases a with
        | bool b => rfl
        | _ => cases ha
    rw [hwrite, Directive.sized_of_le hle, formatText_pad, hflag '-' (by decide), hgetD]

/-- `%+0٥d` with the Arabic-Indic five as its width writes `+0042` for 42. -/
theorem directive_printf_sample :
    format (Text.ofString "%+0٥d") [.int 42] = .ok (Text.ofString "+0042") := by
  have ht : Text.ofString "%+0٥d" =
      .char '%' :: ([.char '+'] ++ [('0', 0), ('٥', 5)].map (CodePoint.char ·.1) ++ [.char 'd']) :=
    rfl
  rw [ht, (directive_printf [.char '+'] (by decide) [('0', 0), ('٥', 5)] (by decide +kernel)
    (by decide)).1 42]
  rfl

example : format (Text.ofString "%-5d") [.int (-42)] = .ok (Text.ofString "-42  ") := by
  decide +kernel

/-- A width led by an ASCII zero pads with zeros: `%05d` writes `00007` for 7, where a width
`05` read as five with no flags would pad with spaces. -/
theorem zero_led_width_pads_zeros :
    format (Text.ofString "%05d") [.int 7] = .ok (Text.ofString "00007") ∧
      Text.ofString "00007" ≠ printfInt false false false false 5 7 := by
  constructor
  · decide +kernel
  · decide

end Template

end Ember
