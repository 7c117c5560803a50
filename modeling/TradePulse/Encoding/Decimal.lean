/-
**Decimals and their texts.**

A decimal is kept by its sign, its coefficient and its exponent, so that `1.0` and `1.00` are two
decimals with one value.  The text of a decimal is the *scientific string* of the general decimal
arithmetic: the digits with a point when the exponent is small, one digit before the point and an
exponent otherwise.

Main definitions:

* `Decimal`, `Decimal.toRat` — a decimal and its value;
* `Decimal.toSciString`, `Decimal.parse` — writing and reading.

Main results:

* `Decimal.parse_parts` — what reading makes of digits, a point, digits and an exponent;
* `Decimal.parse_toSciString` — **reading what was written gives the same decimal**, exponent
  included.
-/

import Mathlib.Algebra.Group.Int.Defs
import Mathlib.Algebra.Group.Nat.Defs
import Mathlib.Data.Rat.Defs
import Mathlib.Data.List.Basic

set_option autoImplicit false

namespace Encoding

/-- A finite decimal. -/
structure Decimal where
  negative : Bool := false
  coefficient : ℕ
  exponent : ℤ := 0
  deriving DecidableEq

namespace Decimal

/-- The value of a decimal: only one of the two powers is not one. -/
def toRat (d : Decimal) : ℚ :=
  mkRat ((if d.negative then -1 else 1) * d.coefficient * 10 ^ d.exponent.toNat)
    (10 ^ (-d.exponent).toNat)

/-! ### Digits -/

/-- The digits of a coefficient. -/
def digits (d : Decimal) : List Char := Nat.toDigits 10 d.coefficient

def AllDigits (l : List Char) : Prop := ∀ c ∈ l, c.isDigit = true

theorem allDigits_toDigits (n : ℕ) : AllDigits (Nat.toDigits 10 n) := fun _ hc =>
  Nat.isDigit_of_mem_toDigits (by omega) (by omega) hc

theorem allDigits_replicate (n : ℕ) : AllDigits (List.replicate n '0') := by
  intro c hc
  rw [List.eq_of_mem_replicate hc]
  rfl

theorem AllDigits.append {l m : List Char} (hl : AllDigits l) (hm : AllDigits m) :
    AllDigits (l ++ m) := by
  intro c hc
  rcases List.mem_append.1 hc with h | h
  · exact hl c h
  · exact hm c h

/-- The rest of a text starts with no digit. -/
def NoDigitAhead (l : List Char) : Prop := ∀ c ∈ l.head?, c.isDigit = false

theorem takeWhile_digits {l r : List Char} (hl : AllDigits l) (hr : NoDigitAhead r) :
    (l ++ r).takeWhile Char.isDigit = l := by
  induction l with
  | nil =>
      cases r with
      | nil => rfl
      | cons c r => simp [hr c rfl]
  | cons c l ih =>
      have hc : c.isDigit = true := hl c List.mem_cons_self
      simp [hc, ih fun x hx => hl x (List.mem_cons_of_mem _ hx)]

theorem dropWhile_digits {l r : List Char} (hl : AllDigits l) (hr : NoDigitAhead r) :
    (l ++ r).dropWhile Char.isDigit = r := by
  induction l with
  | nil =>
      cases r with
      | nil => rfl
      | cons c r => simp [hr c rfl]
  | cons c l ih =>
      have hc : c.isDigit = true := hl c List.mem_cons_self
      simp [hc, ih fun x hx => hl x (List.mem_cons_of_mem _ hx)]

/-! ### Writing -/

/-- An exponent with its sign. -/
def signed (k : ℤ) : List Char :=
  (if k < 0 then '-' else '+') :: Nat.toDigits 10 k.natAbs

/-- How many digits stand before the point. -/
def dotplace (d : Decimal) : ℤ :=
  let leftdigits := d.exponent + d.digits.length
  if d.exponent ≤ 0 ∧ -6 < leftdigits then leftdigits else 1

/-- The digits before the point. -/
def intpart (d : Decimal) : List Char :=
  if d.dotplace ≤ 0 then ['0']
  else if d.digits.length ≤ d.dotplace then
    d.digits ++ List.replicate (d.dotplace - d.digits.length).toNat '0'
  else d.digits.take d.dotplace.toNat

/-- The digits after the point, when there is a point. -/
def fraction (d : Decimal) : Option (List Char) :=
  if d.dotplace ≤ 0 then some (List.replicate (-d.dotplace).toNat '0' ++ d.digits)
  else if d.digits.length ≤ d.dotplace then none
  else some (d.digits.drop d.dotplace.toNat)

/-- The exponent, when one is written. -/
def shown (d : Decimal) : Option ℤ :=
  let leftdigits := d.exponent + d.digits.length
  if leftdigits = d.dotplace then none else some (leftdigits - d.dotplace)

/-- A sign, digits, a point and digits, an exponent. -/
def assemble (negative : Bool) (int : List Char) (frac : Option (List Char)) (exp : Option ℤ) :
    List Char :=
  (if negative then ['-'] else []) ++ (int ++
    ((frac.elim [] fun f => '.' :: f) ++ exp.elim [] fun k => 'E' :: signed k))

/-- `__str__`. -/
def toSciString (d : Decimal) : List Char := assemble d.negative d.intpart d.fraction d.shown

/-! ### Reading -/

/-- A sign at the start of a text, and the rest. -/
def splitSign : List Char → Bool × List Char
  | '-' :: rest => (true, rest)
  | '+' :: rest => (false, rest)
  | rest => (false, rest)

/-- A number of digits and nothing else. -/
def parseDigits (l : List Char) : Option ℕ :=
  if l ≠ [] ∧ l.all Char.isDigit then some (Nat.ofDigitChars 10 l 0) else none

def parseSigned (l : List Char) : Option ℤ :=
  (parseDigits (splitSign l).2).map fun n => if (splitSign l).1 then -(n : ℤ) else n

/-- The fraction at the start of a text, and the rest. -/
def splitFraction : List Char → List Char × List Char
  | '.' :: rest => (rest.takeWhile Char.isDigit, rest.dropWhile Char.isDigit)
  | rest => ([], rest)

/-- The exponent that a text ends with. -/
def parseExponent : List Char → Option ℤ
  | [] => some 0
  | c :: rest => if c = 'E' ∨ c = 'e' then parseSigned rest else none

/-- `Decimal(text)`, for the texts of finite decimals. -/
def parse (text : List Char) : Option Decimal :=
  let body := (splitSign text).2
  let int := body.takeWhile Char.isDigit
  let after := splitFraction (body.dropWhile Char.isDigit)
  if int ++ after.1 = [] then none
  else (parseExponent after.2).map fun k =>
    ⟨(splitSign text).1, Nat.ofDigitChars 10 (int ++ after.1) 0, k - after.1.length⟩

/-! ### Reading what was written -/

theorem parseDigits_toDigits (n : ℕ) : parseDigits (Nat.toDigits 10 n) = some n := by
  unfold parseDigits
  rw [if_pos ⟨Nat.toDigits_ne_nil, List.all_eq_true.2 (allDigits_toDigits n)⟩,
    Nat.ofDigitChars_ten_toDigits]

theorem parseSigned_signed (k : ℤ) : parseSigned (signed k) = some k := by
  unfold parseSigned signed
  by_cases hk : k < 0
  · simp only [hk, if_true, splitSign, parseDigits_toDigits]
    exact congrArg some (show -(k.natAbs : ℤ) = k by omega)
  · simp only [hk, if_false, splitSign, parseDigits_toDigits, Bool.false_eq_true]
    exact congrArg some (show (k.natAbs : ℤ) = k by omega)

theorem parseExponent_shown (k : Option ℤ) :
    parseExponent (k.elim [] fun k => 'E' :: signed k) = some (k.getD 0) := by
  cases k with
  | none => rfl
  | some k => simp [parseExponent, parseSigned_signed]

theorem splitSign_of_digit {l : List Char} (h : ∀ c ∈ l.head?, c.isDigit = true) :
    splitSign l = (false, l) := by
  unfold splitSign
  split
  · exact absurd (h '-' rfl) (by decide)
  · exact absurd (h '+' rfl) (by decide)
  · rfl

theorem noDigitAhead_exponent (k : Option ℤ) :
    NoDigitAhead (k.elim [] fun k => 'E' :: signed k) := by
  intro c hc
  cases k with
  | none => exact absurd hc (by simp)
  | some k =>
      obtain rfl : 'E' = c := by simpa using hc
      rfl

theorem noDigitAhead_fraction (f : Option (List Char)) {r : List Char} (hr : NoDigitAhead r) :
    NoDigitAhead ((f.elim [] fun f => '.' :: f) ++ r) := by
  intro c hc
  cases f with
  | none => exact hr c hc
  | some f =>
      obtain rfl : '.' = c := by simpa using hc
      rfl

theorem splitFraction_written {f : Option (List Char)} (hf : ∀ g ∈ f, AllDigits g)
    (k : Option ℤ) :
    splitFraction ((f.elim [] fun f => '.' :: f) ++ k.elim [] fun k => 'E' :: signed k) =
      (f.getD [], k.elim [] fun k => 'E' :: signed k) := by
  cases f with
  | some g =>
      simp only [Option.elim_some, List.cons_append, splitFraction, Option.getD_some,
        takeWhile_digits (hf g rfl) (noDigitAhead_exponent k),
        dropWhile_digits (hf g rfl) (noDigitAhead_exponent k)]
  | none =>
      cases k with
      | none => rfl
      | some k => rfl

/-- **What reading makes of a written text.** -/
theorem parse_parts {negative : Bool} {int : List Char} {frac : Option (List Char)}
    {exp : Option ℤ} (hne : int ≠ []) (hint : AllDigits int) (hfrac : ∀ g ∈ frac, AllDigits g) :
    parse (assemble negative int frac exp) =
      some ⟨negative, Nat.ofDigitChars 10 (int ++ frac.getD []) 0,
        exp.getD 0 - (frac.getD []).length⟩ := by
  have hahead := noDigitAhead_fraction frac (noDigitAhead_exponent exp)
  have hsign : splitSign (assemble negative int frac exp) = (negative, int ++
      ((frac.elim [] fun f => '.' :: f) ++ exp.elim [] fun k => 'E' :: signed k)) := by
    cases negative with
    | true => rfl
    | false =>
        refine splitSign_of_digit fun c hc => ?_
        obtain ⟨x, l, rfl⟩ := List.exists_cons_of_ne_nil hne
        obtain rfl : x = c := by simpa [assemble] using hc
        exact hint x List.mem_cons_self
  unfold parse
  simp only [hsign, takeWhile_digits hint hahead, dropWhile_digits hint hahead,
    splitFraction_written hfrac, parseExponent_shown, Option.map_some]
  rw [if_neg fun h => hne (List.append_eq_nil_iff.1 h).1]

theorem digits_ne_nil (d : Decimal) : d.digits ≠ [] := Nat.toDigits_ne_nil

theorem allDigits_digits (d : Decimal) : AllDigits d.digits := allDigits_toDigits _

theorem ofDigitChars_digits (d : Decimal) : Nat.ofDigitChars 10 d.digits 0 = d.coefficient :=
  Nat.ofDigitChars_ten_toDigits

theorem ofDigitChars_zeros (n : ℕ) (l : List Char) :
    Nat.ofDigitChars 10 (List.replicate n '0' ++ l) 0 = Nat.ofDigitChars 10 l 0 := by
  rw [Nat.ofDigitChars_append, Nat.ofDigitChars_replicate_zero, Nat.mul_zero]

theorem intpart_ne_nil (d : Decimal) : d.intpart ≠ [] := by
  have hlen : 0 < d.digits.length := List.length_pos_iff.2 d.digits_ne_nil
  unfold intpart
  split
  · simp
  split
  · simp [d.digits_ne_nil]
  · intro h
    have := congrArg List.length h
    simp only [List.length_take, List.length_nil] at this
    omega

theorem allDigits_intpart (d : Decimal) : AllDigits d.intpart := by
  unfold intpart
  split
  · exact allDigits_replicate 1
  split
  · exact d.allDigits_digits.append (allDigits_replicate _)
  · exact fun c hc => d.allDigits_digits c (List.mem_of_mem_take hc)

theorem allDigits_fraction (d : Decimal) : ∀ g ∈ d.fraction, AllDigits g := by
  intro g hg
  unfold fraction at hg
  split at hg
  · obtain rfl : _ = g := Option.some_inj.1 hg
    exact (allDigits_replicate _).append d.allDigits_digits
  split at hg
  · exact absurd hg (by simp)
  · obtain rfl : _ = g := Option.some_inj.1 hg
    exact fun c hc => d.allDigits_digits c (List.mem_of_mem_drop hc)

/-- The digits written are those of the coefficient, with zeros in front. -/
theorem ofDigitChars_written (d : Decimal) :
    Nat.ofDigitChars 10 (d.intpart ++ d.fraction.getD []) 0 = d.coefficient := by
  have hlen : 0 < d.digits.length := List.length_pos_iff.2 d.digits_ne_nil
  unfold intpart fraction
  split
  · change Nat.ofDigitChars 10 (List.replicate 1 '0' ++ (List.replicate _ '0' ++ d.digits)) 0 = _
    rw [ofDigitChars_zeros, ofDigitChars_zeros, ofDigitChars_digits]
  split
  · -- No zeros follow: either the exponent is zero, or one digit is written and the exponent shown.
    rename_i hle
    have hzero : (d.dotplace - d.digits.length).toNat = 0 := by
      unfold dotplace at hle ⊢
      dsimp only at hle ⊢
      split at hle <;> omega
    rw [hzero]
    simpa using d.ofDigitChars_digits
  · rw [Option.getD_some, List.take_append_drop, ofDigitChars_digits]

/-- The exponent shown makes up for the digits after the point. -/
theorem shown_sub_length (d : Decimal) :
    d.shown.getD 0 - ((d.fraction.getD []).length : ℤ) = d.exponent := by
  have hlen : 0 < d.digits.length := List.length_pos_iff.2 d.digits_ne_nil
  have hshown : d.shown.getD 0 = d.exponent + d.digits.length - d.dotplace := by
    unfold shown
    dsimp only
    split
    · rw [Option.getD_none]
      omega
    · rfl
  rw [hshown]
  unfold fraction
  split
  · simp only [Option.getD_some, List.length_append, List.length_replicate]
    omega
  split
  · rename_i hle
    simp only [Option.getD_none, List.length_nil]
    unfold dotplace at hle ⊢
    dsimp only at hle ⊢
    split <;> split at hle <;> omega
  · simp only [Option.getD_some, List.length_drop]
    omega

/-- **Reading what was written gives the same decimal.** -/
theorem parse_toSciString (d : Decimal) : parse d.toSciString = some d := by
  unfold toSciString
  rw [parse_parts d.intpart_ne_nil d.allDigits_intpart d.allDigits_fraction,
    ofDigitChars_written, shown_sub_length]

example : String.ofList (toSciString ⟨true, 1250, -3⟩) = "-1.250" := by decide

example : String.ofList (toSciString ⟨false, 12, 7⟩) = "1.2E+8" := by decide

end Decimal

end Encoding
