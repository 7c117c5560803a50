/-
**Texts without blanks around them, and in capitals.**

What `strip` and `upper` do to a text, as far as records rely on it: both leave alone what they
made, and capitals bring no blank to an end of a text.

Main definitions:

* `stripList` — a list without the blanks at its two ends;
* `StrMethods` — the two methods and their laws; on ASCII `asciiMethods` are such a pair.

Main results:

* `stripList_stripList`, `stripList_map` — stripping twice, and stripping what was mapped.
-/

import Mathlib.Data.List.DropRight
import Mathlib.Data.String.Basic

set_option autoImplicit false

namespace Encoding

section StripList

variable {α : Type} (p : α → Bool)

/-- A list without the blanks at its two ends. -/
def stripList (l : List α) : List α := (l.dropWhile p).rdropWhile p

theorem dropWhile_rdropWhile {l : List α} (h : l.dropWhile p = l) :
    (l.rdropWhile p).dropWhile p = l.rdropWhile p := by
  rw [List.dropWhile_eq_self_iff] at h ⊢
  intro hpos
  have hprefix := List.rdropWhile_prefix p l
  have hlen : 0 < l.length := Nat.lt_of_lt_of_le hpos hprefix.length_le
  have hhead := List.IsPrefix.getElem hprefix hpos
  rw [hhead]
  exact h hlen

theorem stripList_stripList (l : List α) : stripList p (stripList p l) = stripList p l := by
  unfold stripList
  rw [dropWhile_rdropWhile p (List.dropWhile_idempotent p l), List.rdropWhile_idempotent]

theorem stripList_map {f : α → α} (hf : ∀ a, p (f a) = p a) (l : List α) :
    stripList p (l.map f) = (stripList p l).map f := by
  have hcomp : p ∘ f = p := funext hf
  simp only [stripList, List.rdropWhile, List.dropWhile_map, hcomp, ← List.map_reverse]

end StripList

/-- `str.strip` and `str.upper`. -/
structure StrMethods where
  strip : String → String
  upper : String → String
  strip_strip : ∀ s, strip (strip s) = strip s
  upper_upper : ∀ s, upper (upper s) = upper s
  strip_upper : ∀ s, strip (upper (strip s)) = upper (strip s)
  eq_blank : ∀ s, upper s = "" → s = ""

/-! ### Texts of ASCII -/

theorem toUpper_val {c : Char} (h : 'a'.val ≤ c.val ∧ c.val ≤ 'z'.val) :
    c.toUpper.val.toNat = c.val.toNat - 32 ∧ 97 ≤ c.val.toNat ∧ c.val.toNat ≤ 122 := by
  have hval : c.toUpper.val = c.val + ('A'.val - 'a'.val) := by
    unfold Char.toUpper
    rw [dif_pos h]
  have h1 : 97 ≤ c.val.toNat := UInt32.le_iff_toNat_le.1 h.1
  have h2 : c.val.toNat ≤ 122 := UInt32.le_iff_toNat_le.1 h.2
  refine ⟨?_, h1, h2⟩
  have hsmall : 'a'.val.toNat = 97 := rfl
  have hcapital : 'A'.val.toNat = 65 := rfl
  rw [hval, UInt32.toNat_add, UInt32.toNat_sub, hsmall, hcapital]
  omega

theorem toUpper_toUpper (c : Char) : c.toUpper.toUpper = c.toUpper := by
  by_cases h : 'a'.val ≤ c.val ∧ c.val ≤ 'z'.val
  · obtain ⟨hval, h1, h2⟩ := toUpper_val h
    refine dif_neg fun hagain => ?_
    have h3 : 97 ≤ c.toUpper.val.toNat := UInt32.le_iff_toNat_le.1 hagain.1
    omega
  · have hsame : c.toUpper = c := dif_neg h
    rw [hsame, hsame]

/-- A letter is no blank, and neither is its capital. -/
theorem isWhitespace_toUpper (c : Char) : c.toUpper.isWhitespace = c.isWhitespace := by
  by_cases h : 'a'.val ≤ c.val ∧ c.val ≤ 'z'.val
  · obtain ⟨hval, h1, h2⟩ := toUpper_val h
    have hno : ∀ d : Char, 33 ≤ d.val.toNat → d.isWhitespace = false := by
      intro d hd
      have hne : ∀ b : Char, b.val.toNat < 33 → d ≠ b := by
        rintro b hb rfl
        omega
      simp [Char.isWhitespace, hne ' ' (by decide), hne '\t' (by decide), hne '\r' (by decide),
        hne '\n' (by decide)]
    rw [hno c (by omega), hno c.toUpper (by omega)]
  · have hsame : c.toUpper = c := dif_neg h
    rw [hsame]

/-- The two methods on texts of ASCII. -/
def asciiMethods : StrMethods where
  strip s := String.ofList (stripList Char.isWhitespace s.toList)
  upper s := String.ofList (s.toList.map Char.toUpper)
  strip_strip s := by simp [stripList_stripList]
  upper_upper s := by
    simp only [String.toList_ofList, List.map_map, Function.comp_def, toUpper_toUpper]
  strip_upper s := by
    simp [stripList_map Char.isWhitespace isWhitespace_toUpper, stripList_stripList]
  eq_blank s h := by
    have hlist := congrArg String.toList h
    simp only [String.toList_ofList] at hlist
    exact String.toList_injective (List.map_eq_nil_iff.1 hlist)

instance : Inhabited StrMethods := ⟨asciiMethods⟩

end Encoding
